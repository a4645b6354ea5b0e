import TemplateBindings.Config.Merge
import TemplateBindings.Proofs.Files.Resolve

/-!
# Settled configurations

Merging resolves the paths of a configuration and refuses outputs above the sources. A configuration
that has gone through it is *settled* in the file system that it was merged in: its paths are made
of names and meet no link, and its output directory does not hold its sources. Merging it again
changes nothing (`TemplateBindings.Config.Settled.override`).
-/

namespace TemplateBindings
namespace Config

open Files

/-- **A configuration as merging leaves it** in a file system. -/
structure Settled (files : Entry) (config : Config) : Prop where
  /-- The root of the sources is made of names. -/
  input_proper : config.inputRoot.Proper
  /-- It meets no link. -/
  input_plain : config.inputRoot.Plain files
  /-- The root of the outputs is made of names. -/
  output_proper : config.outputRoot.Proper
  /-- It meets no link. -/
  output_plain : config.outputRoot.Plain files
  /-- The outputs are not above the sources. -/
  apart : ¬ config.outputRoot <+: config.inputRoot
  /-- The log is made of names. -/
  log_proper : ∀ log ∈ config.auditLog, log.Proper
  /-- It meets no link. -/
  log_plain : ∀ log ∈ config.auditLog, log.Plain files

instance (files : Entry) (config : Config) : Decidable (config.Settled files) :=
  decidable_of_iff
    ((config.inputRoot.Proper ∧ config.inputRoot.Plain files) ∧
      (config.outputRoot.Proper ∧ config.outputRoot.Plain files) ∧
      ¬ config.outputRoot <+: config.inputRoot ∧
      (∀ log ∈ config.auditLog, log.Proper) ∧ ∀ log ∈ config.auditLog, log.Plain files)
    ⟨fun ⟨⟨hin, hinp⟩, ⟨hout, houtp⟩, hapart, hlog, hlogp⟩ =>
        ⟨hin, hinp, hout, houtp, hapart, hlog, hlogp⟩,
      fun h => ⟨⟨h.input_proper, h.input_plain⟩, ⟨h.output_proper, h.output_plain⟩, h.apart,
        h.log_proper, h.log_plain⟩⟩

variable {files : Entry} {config : Config}

theorem isWithin_iff {base path : Path} (hp : path.Normal) :
    Path.isWithin base path = true ↔ base <+: path := by
  have hhead (path : Path) (hp : path.Normal) : path.head? ≠ some [] := by
    intro h
    exact (hp [] (List.mem_of_head? h)).1 rfl
  constructor
  · intro h
    induction base generalizing path with
    | nil => exact List.nil_prefix
    | cons b base ih =>
      cases path with
      | nil => cases h
      | cons name path =>
        rw [Path.isWithin, Path.below?] at h
        split at h
        · next he =>
          rw [he]
          exact List.cons_prefix_cons.2 ⟨rfl, ih (fun n hm => hp n (List.mem_cons_of_mem _ hm)) h⟩
        · cases h
  · rintro ⟨rest, rfl⟩
    rw [Path.isWithin, Path.below?_append base
      (hhead rest fun n hm => hp n (List.mem_append_right _ hm))]
    rfl

theorem Settled.output_ne_nil (h : config.Settled files) : config.outputRoot ≠ [] := by
  intro he
  exact h.apart (by rw [he]; exact List.nil_prefix)

/-- **A configuration with resolved paths**: they are made of names, and the outputs are not above the
sources. -/
structure Resolved (config : Config) : Prop where
  /-- The root of the sources is made of names. -/
  input : config.inputRoot.Proper
  /-- So is the root of the outputs. -/
  output : config.outputRoot.Proper
  /-- The outputs are not above the sources. -/
  apart : ¬ config.outputRoot <+: config.inputRoot
  /-- The log is made of names. -/
  log : ∀ log ∈ config.auditLog, log.Proper

/-- It is settled where its paths meet no link. -/
theorem Resolved.settled (h : config.Resolved) (hinput : config.inputRoot.Plain files)
    (houtput : config.outputRoot.Plain files) (hlog : ∀ log ∈ config.auditLog, log.Plain files) :
    config.Settled files :=
  ⟨h.input, hinput, h.output, houtput, h.apart, h.log, hlog⟩

/-- **Merging accepts a settled configuration** and leaves it as it is. -/
theorem Settled.override (h : config.Settled files) :
    Config.override (resolve files) config {} = .ok config := by
  have hwithin : Path.isWithin config.outputRoot config.inputRoot = false := by
    rw [Bool.eq_false_iff, Ne, isWithin_iff h.input_proper.normal]
    exact h.apart
  obtain ⟨input, output, workers, log⟩ := config
  have hinput := resolve_of_plain h.input_proper h.input_plain
  have houtput := resolve_of_plain h.output_proper h.output_plain
  have hlog := h.log_proper
  have hlog' := h.log_plain
  dsimp only at hwithin hinput houtput hlog hlog'
  cases log with
  | none =>
    simp [Config.override, hinput, houtput, hwithin, workersOf, Except.mapError, bind, Except.bind,
      pure, Except.pure]
  | some log =>
    have hresolve := resolve_of_plain (hlog log rfl) (hlog' log rfl)
    simp [Config.override, hinput, houtput, hwithin, workersOf, hresolve, Except.mapError, bind,
      Except.bind, Except.map, pure, Except.pure]

end Config
end TemplateBindings
