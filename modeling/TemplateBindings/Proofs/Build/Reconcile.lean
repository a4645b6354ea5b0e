import TemplateBindings.Proofs.Build.Stages

/-!
# What a run leaves

A run may come to an output directory that holds anything. If it ends with a report, whatever is not
an output of one of its sources is gone, and so are the directories with nothing in them, but for
those that the path of its log leads through (`TemplateBindings.Build.run_reconciles`): a log is
opened again after the sweep, and a path that steps back from a directory needs that directory
(`TemplateBindings.Build.run_leaves_stepped`).
-/

namespace TemplateBindings
namespace Build

open Files Files.Work

variable {plan : List Source → List (List Source)} {config : Config} {occasion : Occasion}
  {disk last : Disk} {stages : Stages} {sources : List Source} {s : Source} {report : Report}
  {out q log : Path}

/-! ### After the sweep -/

/-- **The log of a run is apart from its outputs**, and reached without links. -/
structure Stages.LogApart (stages : Stages) (config : Config) : Prop where
  /-- It is reached without links when its path is resolved, and when events are added. -/
  clean : ∀ log ∈ config.auditLog, log.Clean stages.opened.root ∧ log.Clean stages.worked.root
  /-- The log is no output. -/
  apart : ∀ log ∈ config.auditLog, ∀ s ∈ stages.sources, s.kind = .markup →
    log.normalise ∉ (s.outputs stages.roots.output).all

/-- What a sweep that ends well leaves in a directory. -/
structure SweptOut (out : Path) (keep : List Path) (before after : Seen) : Prop where
  /-- What is left is kept. -/
  kept : ∀ q sight, out <+: q → q ≠ out → after q = some sight → sight ≠ .directory → q ∈ keep
  /-- Directories are left with something in them. -/
  filled : ∀ q, out <+: q → after q = some .directory →
    ∃ below sight, q <+: below ∧ after below = some sight ∧ sight ≠ .directory
  /-- What is kept is left. -/
  stays : ∀ q sight, out <+: q ∧ q ≠ out → q ∈ keep → before q = some sight →
    sight ≠ .directory → after q = some sight
  /-- Nothing appears. -/
  none_or_eq : ∀ q, after q = none ∨ after q = before q

theorem sweptOut_of_removeStale {keep removed : List Path} {swept : Disk} {room : Nat}
    (hv : disk.root.Valid) (hp : out.Proper) (hf : out.Fits)
    (h : (removeStale room out keep).runOn disk = (.ok removed, swept)) :
    SweptOut out keep disk.root.see? swept.root.see? := by
  by_cases hdir : disk.root.see? out = some .directory
  · obtain ⟨operations, hsweeps⟩ := removeStale_sweeps room keep hv
      (fun _ => ⟨removed, by rw [h]⟩) ⟨hp, hf, hdir⟩
    rw [h] at hsweeps
    have hleft (q : Path) (hq : out <+: q) (sight : Sight) (hs : swept.root.see? q = some sight) :
        disk.root.see? q = some sight ∧ Kept disk.root keep q := by
      constructor
      · rcases hsweeps.none_or_eq q with he | he
        · rw [he] at hs
          cases hs
        · exact he.symm.trans hs
      · by_contra hk
        rw [hsweeps.gone rfl hq hk] at hs
        cases hs
    refine ⟨fun q sight hq _ hs hne => ?_, fun q hq hs => ?_, fun q sight _ hq hs hne => ?_,
      hsweeps.none_or_eq⟩
    · obtain ⟨hbefore, below, sight', hbelow, hs', hne', hkeep⟩ := hleft q hq sight hs
      -- below what is no directory there is nothing
      have he : q = below := by
        by_contra hneq
        rw [Entry.see?_directory_of_prefix hbelow hneq (by simp [hs'])] at hbefore
        exact hne (Option.some.inj hbefore).symm
      exact he ▸ hkeep
    · obtain ⟨-, below, sight, hbelow, hs', hne, hkeep⟩ := hleft q hq _ hs
      exact ⟨below, sight, hbelow,
        (hsweeps.stays ⟨below, sight, List.prefix_rfl, hs', hne, hkeep⟩).trans hs', hne⟩
    · exact (hsweeps.stays ⟨q, sight, List.prefix_rfl, hs, hne, hq⟩).trans hs
  · -- below what is no directory there is nothing, and nothing appears
    have hsame (q : Path) : swept.root.see? q = none ∨ swept.root.see? q = disk.root.see? q := by
      have hnone := removeStale_none_or_eq room out keep disk q
      rwa [h] at hnone
    have hbefore (q : Path) (hq : out <+: q) (hne : q ≠ out) : disk.root.see? q = none := by
      obtain ⟨rest, rfl⟩ := hq
      exact Entry.see?_below_none hdir fun he => hne (by rw [he, List.append_nil])
    have hafter (q : Path) (hq : out <+: q) (hne : q ≠ out) : swept.root.see? q = none := by
      rcases hsame q with he | he
      · exact he
      · rw [he, hbefore q hq hne]
    refine ⟨fun q sight hq hne hs => ?_, fun q hq hs => ?_, fun q sight hq _ hs hleaf => ?_, hsame⟩
    · rw [hafter q hq hne] at hs
      cases hs
    · by_cases he : q = out
      · rcases hsame q with hs' | hs'
        · rw [hs'] at hs
          cases hs
        · rw [hs', he] at hs
          exact absurd hs hdir
      · rw [hafter q hq he] at hs
        cases hs
    · rw [hbefore q hq.1 hq.2] at hs
      cases hs

/-! ### After the run -/

/-- **What a run leaves in its output directory.** -/
structure Reconciled (config : Config) (stages : Stages) (report : Report) (last : Disk) : Prop where
  /-- Everything left that is no directory is an output of a source, or the log. -/
  outputs : ∀ q sight, stages.roots.output <+: q → q ≠ stages.roots.output →
    last.root.see? q = some sight → sight ≠ .directory →
      (∃ s ∈ stages.sources, s.kind = .markup ∧ q ∈ (s.outputs stages.roots.output).all) ∨
        ∃ log ∈ config.auditLog, q = log.normalise
  /-- No directory is left empty, the output directory included, but for those that the path to the
  log leads through. -/
  filled : ∀ q, stages.roots.output <+: q → last.root.at? q = some (.directory []) →
    ∃ log ∈ config.auditLog, ∃ way, way <+: log.parent ∧ q = Path.normalise way
  /-- What stood in the place of an output of a source that is current or failed is still there. -/
  stays : ∀ s ∈ stages.sources, s.kind = .markup →
    (s.label ∈ report.cached ∨ ∃ failure ∈ report.failures, failure.path = s.label) →
      ∀ q ∈ (s.outputs stages.roots.output).all, ∀ sight, stages.worked.root.see? q = some sight →
        sight ≠ .directory → last.root.see? q = some sight

/-- A source that is reported as current or failed has such an outcome. -/
theorem Stages.Sound.outcome_of_report (h : stages.Sound) {removed : List Str}
    (hs : s ∈ stages.sources) (hkind : s.kind = .markup)
    (hreport : s.label ∈ (reportOn stages.outcomes removed).cached ∨
      ∃ failure ∈ (reportOn stages.outcomes removed).failures, failure.path = s.label) :
    (s, .cached) ∈ stages.outcomes ∨ ∃ e, (s, .failed e) ∈ stages.outcomes := by
  rcases hreport with hcached | ⟨⟨label, error⟩, hfailure, rfl⟩
  · exact .inl ((h.label_mem_cached hs hkind).1 hcached)
  · obtain ⟨e, ho, -⟩ := (h.mem_failures hs hkind).1 hfailure
    exact .inr ⟨e, ho⟩

/-- What a run keeps of a log that is reached without links is where it leads. -/
theorem Works.log_eq (h : Works plan config occasion disk stages)
    (hclean : ∀ log ∈ config.auditLog, log.Clean stages.opened.root) :
    stages.log = (config.auditLog.map Path.normalise).toList := by
  have hkeeps := h.keeps
  rw [keptLog] at hkeeps
  rcases hlog : config.auditLog with _ | log
  · rw [hlog] at hkeeps
    exact (Except.ok.inj (Prod.mk.inj hkeeps).1).symm
  · rw [hlog] at hkeeps
    obtain ⟨path, mid, hresolve, hend⟩ := of_runOn_bind hkeeps
    rw [runOn_ask] at hresolve
    rw [← Except.ok.inj (Prod.mk.inj hend).1]
    exact congrArg (fun path => [path])
      ((hclean log hlog).eq_of_resolve (of_mapError_ok (Prod.mk.inj hresolve).1))

theorem Path.Plain.of_swept {before after : Entry} {path : Path}
    (hswept : ∀ q, after.see? q = none ∨ after.see? q = before.see? q) (h : path.Plain before) :
    path.Plain after := by
  intro way hway target hl
  rcases hswept way with he | he
  · rw [he] at hl
    cases hl
  · exact h way hway target (he.symm.trans hl)

theorem Path.Clean.of_swept {before after : Entry} {path : Path}
    (hswept : ∀ q, after.see? q = none ∨ after.see? q = before.see? q) (h : path.Clean before) :
    path.Clean after := by
  intro way hway target hl
  rcases hswept (Path.normalise way) with he | he
  · rw [he] at hl
    cases hl
  · exact h way hway target (he.symm.trans hl)

/-- **A run that goes through its stages leaves its output directory reconciled** with its
sources. -/
theorem Completes.reconciled (h : Completes plan config occasion disk stages report last)
    (hplan : Covers plan) (hspelled : config.Spelled) (hv : disk.root.Valid)
    (hd : stages.LogApart config) : Reconciled config stages report last := by
  have hsound := h.sound hplan hspelled hv
  have hswept := sweptOut_of_removeStale hsound.valid hsound.output hsound.fits h.sweeps
  have hclean (log : Path) (hl : log ∈ config.auditLog) : log.Clean stages.swept.root :=
    Path.Clean.of_swept hswept.none_or_eq (hd.clean log hl).2
  have hlogged := logEvents_logged hclean
    (eventsOf occasion stages.roots.output stages.outcomes
      (stages.removed.map (outputLabel stages.roots.output)))
  rw [h.logs] at hlogged
  have hlog := h.log_eq fun log hl => (hd.clean log hl).1
  -- what was kept is an output of a source, or the log
  have hkeep {q : Path}
      (hq : q ∈ stages.log ++ kept stages.roots.output stages.outcomes) :
      (∃ s ∈ stages.sources, s.kind = .markup ∧ q ∈ (s.outputs stages.roots.output).all) ∨
        ∃ log ∈ config.auditLog, q = log.normalise := by
    rcases List.mem_append.1 hq with hq | hq
    · rw [hlog, Option.mem_toList, Option.map_eq_some_iff] at hq
      obtain ⟨log, hl, he⟩ := hq
      exact .inr ⟨log, hl, he.symm⟩
    · obtain ⟨⟨s, outcome⟩, ho, hq⟩ := List.mem_flatMap.1 hq
      obtain ⟨hs, hkind⟩ := hsound.mem_iff.2 ⟨outcome, ho⟩
      exact .inl ⟨s, hs, hkind, hsound.own _ ho q hq⟩
  -- what is there after the sweep is still there after logging
  have hthere {q : Path} (hq : stages.swept.root.see? q ≠ none) : last.root.see? q ≠ none := by
    rcases hlogged q with he | ⟨hnone, -, -⟩ | ⟨-, -, -, bytes, time, he⟩
    · rwa [he]
    · exact absurd hnone hq
    · simp [he]
  refine ⟨fun q sight hq hne hs hleaf => ?_, fun q hq hs => ?_,
    fun s hs hkind hreport q hq sight hworked hleaf => ?_⟩
  · rcases hlogged q with he | ⟨-, hdir, -⟩ | ⟨log, hl, he, -⟩
    · exact hkeep (hswept.kept q sight hq hne (he.symm.trans hs) hleaf)
    · rw [hs] at hdir
      exact absurd (Option.some.inj hdir) hleaf
    · exact .inr ⟨log, hl, he⟩
  · have hdir : last.root.see? q = some .directory := Entry.see?_eq_some_directory.2 ⟨[], hs⟩
    rcases hlogged q with he | ⟨-, -, hl⟩ | ⟨-, -, -, bytes, time, he⟩
    · obtain ⟨below, sight, ⟨rest, rfl⟩, hbelow, hleaf⟩ := hswept.filled q hq (he.symm.trans hdir)
      have hrest : rest ≠ [] := by
        rintro rfl
        rw [List.append_nil, ← he, hdir] at hbelow
        exact hleaf (Option.some.inj hbelow).symm
      have hnone : last.root.see? (q ++ rest) = none := by
        obtain ⟨name, rest, rfl⟩ := List.exists_cons_of_ne_nil hrest
        rw [Entry.see?_append_of_at? hs, Entry.see?_directory_cons]
        rfl
      exact absurd hnone (hthere (by simp [hbelow]))
    · exact hl
    · rw [hdir] at he
      cases he
  · have hmem : q ∈ stages.log ++ kept stages.roots.output stages.outcomes := by
      refine List.mem_append_right _ (List.mem_flatMap.2 ?_)
      rw [h.report_eq] at hreport
      rcases hsound.outcome_of_report hs hkind hreport with ho | ⟨e, ho⟩
      · exact ⟨_, ho, hq⟩
      · exact ⟨_, ho, hq⟩
    have hbelow : stages.roots.output <+: q ∧ q ≠ stages.roots.output := by
      obtain ⟨n, -, rfl⟩ := (Source.mem_outputs (hsound.regular s hs)).1 hq
      refine ⟨(Source.directory_prefix _ s).trans (List.prefix_append _ _), fun he => ?_⟩
      refine Source.not_prefix_directory n stages.roots.output s ?_
      rw [he]
      exact Source.directory_prefix _ s
    have hleft := hswept.stays q sight hbelow hmem hworked hleaf
    rcases hlogged q with he | ⟨hnone, -, -⟩ | ⟨log, hl, rfl, -⟩
    · exact he.trans hleft
    · rw [hleft] at hnone
      cases hnone
    · exact absurd hq (hd.apart log hl s hs hkind)

/-- **A run that ends with a report leaves its output directory reconciled** with the sources that it
discovered: nothing is left there but their outputs and the log, no directory is left empty but for
those that the path to the log leads through, and what stood in the places of sources that are current
or failed stays. -/
theorem run_reconciles (hv : disk.root.Valid) (hspelled : config.Spelled)
    (hrun : ((run config occasion).runOn disk).1 = .ok report) :
    ∃ stages, Completes (batches config.workers) config occasion disk stages report
        ((run config occasion).runOn disk).2 ∧
      (stages.LogApart config →
        Reconciled config stages report ((run config occasion).runOn disk).2) := by
  have hends : (run config occasion).runOn disk =
      (.ok report, ((run config occasion).runOn disk).2) := Prod.ext hrun rfl
  obtain ⟨stages, hstages⟩ := exists_completes hends
  exact ⟨stages, hstages, hstages.reconciled (covers_batches _) hspelled hv⟩

/-- A disk with one source, and an output directory with an old output, a link to it and directories
with nothing in them. -/
def littered : Disk where
  root := .directory
    [("src".toList, .directory
        [("a.html".toList,
          .file (Utf8.encode "<!doctype html><p id='p'>".toList) 1700000000000000000)]),
      ("out".toList, .directory
        [("old.ts".toList, .file [] 0), ("link.ts".toList, .link "old.ts".toList),
          ("empty".toList, .directory [("empty".toList, .directory [])])])]
  now := 1700000000000000000

/-- A configuration for it. -/
def plainConfig : Config := ⟨["src".toList], ["out".toList], 2, none⟩

/-- The occasion of its runs. -/
def plainOccasion : Occasion := { id := "run".toList, stamp := "now".toList }

/-- A configuration with a log among the outputs, whose path steps back. -/
def steppingConfig : Config :=
  { plainConfig with auditLog := some ["out".toList, "sub".toList, back, "log".toList] }

/-- The report of its first run on the disk. The directory that the path steps back from is removed
before the events are logged. -/
def litteredReport : Report :=
  ⟨["a.html".toList], [], ["empty/empty".toList, "empty".toList, "link.ts".toList, "old.ts".toList,
    "sub".toList], []⟩

/-- The log of its runs on that disk is apart from the outputs. -/
theorem littered_apart (h : Works (batches 2) steppingConfig plainOccasion littered stages) :
    stages.LogApart steppingConfig := by
  obtain ⟨hroots, hsources⟩ := h.of_found
    (show foundBy steppingConfig littered = .ok [⟨[], "a".toList, .markup⟩] by decide +kernel)
    (show ((openRoots steppingConfig).runOn littered).1 = .ok (rootsOf steppingConfig) by
      decide +kernel)
  have hworked : ∀ log ∈ steppingConfig.auditLog, log.Clean ((workThrough (rootsOf steppingConfig)
      [⟨[], "a".toList, .markup⟩] plainOccasion.turns
      (batches 2 (markupOf [⟨[], "a".toList, .markup⟩]))).run
        (afterOpening steppingConfig littered)).2.root := by
    decide +kernel
  have hworks := h.works
  rw [hroots, hsources, h.opened_eq] at hworks
  refine ⟨fun log hlog => ⟨?_, ?_⟩, ?_⟩
  · rw [h.opened_eq]
    revert log
    decide +kernel
  · have hworked := hworked log hlog
    rwa [hworks] at hworked
  · rw [hroots, hsources]
    decide +kernel

theorem run_littered :
    ((run steppingConfig plainOccasion).runOn littered).1 = .ok litteredReport := by
  decide +kernel

theorem run_reconciles_littered :
    ∃ stages, Completes (batches 2) steppingConfig plainOccasion littered stages litteredReport
        ((run steppingConfig plainOccasion).runOn littered).2 ∧
      Reconciled steppingConfig stages litteredReport
        ((run steppingConfig plainOccasion).runOn littered).2 := by
  obtain ⟨stages, hstages, hreconciled⟩ :=
    run_reconciles (by decide +kernel) ⟨by decide, by decide, by decide⟩
      run_littered
  exact ⟨stages, hstages, hreconciled (littered_apart hstages.toWorks)⟩

/-- Whether an empty directory is found can be decided. -/
instance : (found : Option Entry) → Decidable (found = some (.directory []))
  | none => .isFalse (by simp)
  | some (.directory []) => .isTrue rfl
  | some (.directory (_ :: _)) => .isFalse (by simp)
  | some (.file _ _) => .isFalse (by simp)
  | some (.link _) => .isFalse (by simp)

/-- **A directory that the path of a log steps back from is left empty**, although it is not above the
log. -/
theorem run_leaves_stepped :
    ¬ ∀ (config : Config) (occasion : Occasion) (disk last : Disk) (stages : Stages)
      (report : Report), disk.root.Valid → config.Spelled →
      Completes (batches config.workers) config occasion disk stages report last →
      stages.LogApart config → ∀ q, stages.roots.output <+: q →
        last.root.at? q = some (.directory []) →
          ∃ log ∈ config.auditLog, q <+: log.normalise := by
  intro h
  have hempty : ((run steppingConfig plainOccasion).runOn littered).2.root.at?
      ["out".toList, "sub".toList] = some (.directory []) := by decide +kernel
  obtain ⟨stages, hstages⟩ := exists_completes (runOn_eq_of_end run_littered)
  have hroots : ((openRoots steppingConfig).runOn littered).1 = .ok (rootsOf steppingConfig) := by
    decide +kernel
  rw [hstages.opens] at hroots
  have hout : stages.roots.output <+: ["out".toList, "sub".toList] := by
    rw [Except.ok.inj hroots]
    decide
  obtain ⟨log, hlog, hq⟩ := h steppingConfig plainOccasion littered _ stages litteredReport
    (by decide +kernel) ⟨by decide, by decide, by decide⟩ hstages
    (littered_apart hstages.toWorks) _ hout hempty
  cases hlog
  exact absurd hq (by decide)

end Build
end TemplateBindings
