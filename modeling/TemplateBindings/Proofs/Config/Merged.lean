import TemplateBindings.Config.Load
import TemplateBindings.Proofs.Build.Due
import TemplateBindings.Proofs.Config.Settled
import TemplateBindings.Proofs.Text.Pieces

/-!
# Configurations that merging returns

Merging resolves the three paths of a configuration and compares two of them
(`TemplateBindings.Config.resolved_of_merge`), and loading does the same for the project at a path. So
what it returns is settled in every file system in which these paths meet no link
(`TemplateBindings.Config.settled_of_merge`): in the one that it was merged in, and in any that it may
have become since.
-/

namespace TemplateBindings
namespace Config

open Files

variable {files files' : Entry} {base config : Config} {root path : Path} {overrides : Overrides}
  {settings : Settings.Table}

/-! ### Paths that are read from texts -/

/-- **A configuration whose paths are read from texts.** -/
structure Spelled (config : Config) : Prop where
  /-- The root of the sources. -/
  input : config.inputRoot.Spelled
  /-- The root of the outputs. -/
  output : config.outputRoot.Spelled
  /-- The log. -/
  log : ∀ log ∈ config.auditLog, log.Spelled

/-- **Overrides whose paths are read from texts.** -/
structure Overrides.Spelled (overrides : Overrides) : Prop where
  /-- The root of the sources. -/
  input : ∀ path ∈ overrides.inputRoot, path.Spelled
  /-- The root of the outputs. -/
  output : ∀ path ∈ overrides.outputRoot, path.Spelled
  /-- The log. -/
  log : ∀ log ∈ overrides.auditLog, log.Spelled

theorem spelled_under {s : Str} (hroot : root.Spelled) : Path.Spelled (Path.under root s) := by
  have hnames : Path.Spelled (Path.names s) := fun n hn =>
    Text.not_mem_of_mem_pieces (List.mem_filter.1 hn).1
  rw [Path.under]
  split
  · intro n hn
    rcases List.mem_append.1 hn with hn | hn
    · -- the slashes in front are kept as an empty name
      rw [Path.frontOf.eq_def] at hn
      split at hn <;> simp at hn
      simp [hn]
    · exact hnames n hn
  · intro n hn
    rcases List.mem_append.1 hn with hn | hn
    · exact hroot n hn
    · exact hnames n hn

/-! ### Merging -/

theorem spelled_of_pathOf {field : Text} {value : Settings.Value} (hroot : root.Spelled)
    (h : pathOf (resolve files) root field value = .ok (some path)) : path.Spelled := by
  cases value with
  | text s =>
    rw [pathOf] at h
    split at h
    · cases h
    · rcases hr : resolve files (Path.under root s) with e | found
      · rw [hr] at h
        cases h
      · rw [hr] at h
        cases h
        exact (resolve_proper (spelled_under hroot) hr).spelled
  | _ => cases h

theorem spelled_of_withSettings (hbase : base.Spelled) (hroot : root.Spelled)
    (h : withSettings (resolve files) base settings root = .ok config) : config.Spelled := by
  rw [withSettings] at h
  obtain ⟨table, -, h⟩ := Build.of_bind_ok h
  dsimp only at h
  split at h
  · cases h
  · obtain ⟨input, hinput, h⟩ := Build.of_bind_ok h
    obtain ⟨output, houtput, h⟩ := Build.of_bind_ok h
    obtain ⟨log, hlog, h⟩ := Build.of_bind_ok h
    obtain ⟨workers, -, h⟩ := Build.of_bind_ok h
    cases h
    refine ⟨?_, ?_, ?_⟩
    · cases input with
      | none => exact hbase.input
      | some input => exact spelled_of_pathOf hroot hinput
    · cases output with
      | none => exact hbase.output
      | some output => exact spelled_of_pathOf hroot houtput
    · cases log with
      | none => exact hbase.log
      | some log =>
        intro l hl
        cases hl
        exact spelled_of_pathOf hroot hlog

/-- **What the last layer returns** are resolved paths, of which the outputs are not above the
sources. -/
theorem of_override (h : override (resolve files) base overrides = .ok config) :
    resolve files (overrides.inputRoot.getD base.inputRoot) = .ok config.inputRoot ∧
      resolve files (overrides.outputRoot.getD base.outputRoot) = .ok config.outputRoot ∧
      Path.isWithin config.outputRoot config.inputRoot = false ∧
      ∀ log ∈ config.auditLog, ∃ path ∈ overrides.auditLog.or base.auditLog,
        resolve files path = .ok log := by
  rw [override] at h
  obtain ⟨workers, -, h⟩ := Build.of_bind_ok h
  obtain ⟨input, hinput, h⟩ := Build.of_bind_ok h
  obtain ⟨output, houtput, h⟩ := Build.of_bind_ok h
  have hinput := Build.of_mapError_ok hinput
  have houtput := Build.of_mapError_ok houtput
  dsimp only at h
  split at h
  · cases h
  · next hwithin =>
    have hapart := Bool.eq_false_iff.2 hwithin
    split at h
    · next path hpath =>
      obtain ⟨log, hlog, h⟩ := Build.of_bind_ok h
      rcases hr : resolve files path with e | found
      · rw [hr] at hlog
        cases hlog
      · rw [hr] at hlog
        cases hlog
        cases h
        refine ⟨hinput, houtput, hapart, fun log hl => ?_⟩
        cases hl
        exact ⟨path, hpath, hr⟩
    · cases h
      exact ⟨hinput, houtput, hapart, fun _ hl => by cases hl⟩

/-- **What merging returns is resolved.** -/
theorem resolved_of_merge (hbase : base.Spelled) (hover : overrides.Spelled) (hroot : root.Spelled)
    (h : merge (resolve files) base settings overrides root = .ok config) : config.Resolved := by
  rw [merge] at h
  obtain ⟨layered, hlayered, h⟩ := Build.of_bind_ok h
  have hspelled := spelled_of_withSettings hbase hroot hlayered
  obtain ⟨hin, hout, hwithin, hlogs⟩ := of_override h
  have hinp : config.inputRoot.Proper := by
    refine resolve_proper ?_ hin
    cases hi : overrides.inputRoot with
    | none => exact hspelled.input
    | some path => exact hover.input path hi
  have houtp : config.outputRoot.Proper := by
    refine resolve_proper ?_ hout
    cases ho : overrides.outputRoot with
    | none => exact hspelled.output
    | some path => exact hover.output path ho
  refine ⟨hinp, houtp, fun hle => ?_, fun log hl => ?_⟩
  · rw [(isWithin_iff hinp.normal).2 hle] at hwithin
    cases hwithin
  · obtain ⟨path, hpath, hr⟩ := hlogs log hl
    refine resolve_proper ?_ hr
    cases ho : overrides.auditLog with
    | none =>
      rw [ho] at hpath
      exact hspelled.log path hpath
    | some chosen =>
      rw [ho] at hpath
      cases hpath
      exact hover.log _ ho

/-- **What merging returns is settled** wherever its paths meet no link. -/
theorem settled_of_merge (hbase : base.Spelled) (hover : overrides.Spelled) (hroot : root.Spelled)
    (h : merge (resolve files) base settings overrides root = .ok config)
    (hinput : config.inputRoot.Plain files') (houtput : config.outputRoot.Plain files')
    (hlog : ∀ log ∈ config.auditLog, log.Plain files') : config.Settled files' :=
  (resolved_of_merge hbase hover hroot h).settled hinput houtput hlog

/-! ### Loading -/

/-- The defaults for a project are spelled as its root is. -/
theorem spelled_default (hroot : root.Spelled) (processors : Option Nat) :
    (default root processors).Spelled where
  input := hroot
  output n hn := by
    rcases List.mem_append.1 hn with hn | hn
    · exact hroot n hn
    · rw [List.mem_singleton.1 hn]
      decide
  log _ hl := by cases hl

/-- **What loading returns is resolved.** -/
theorem resolved_of_load {processors : Option Nat} (hroot : root.Spelled)
    (hover : overrides.Spelled) (h : load files root processors overrides = .ok config) :
    config.Resolved := by
  rw [load] at h
  obtain ⟨project, hproject, h⟩ := Build.of_bind_ok h
  obtain ⟨settings, -, h⟩ := Build.of_bind_ok h
  have hproject := (resolve_proper hroot (Build.of_mapError_ok hproject)).spelled
  exact resolved_of_merge (spelled_default hproject processors) hover hproject
    (Build.of_mapError_ok h)

end Config
end TemplateBindings
