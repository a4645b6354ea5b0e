import TemplateBindings.Proofs.Audit.Lines
import TemplateBindings.Proofs.Build.Deeds
import TemplateBindings.Proofs.Build.Orders

/-!
# What a run says of its sources

The report of a run names each markup source that it discovered once
(`TemplateBindings.Build.Completes.labels`), and its log grows by one line for each of them, in the
order in which work on them ended, and one for each output that was removed
(`TemplateBindings.Build.run_tells`). The log may lie anywhere, among the outputs too: a sweep does
not take it, though it may take the directory that a log is yet to be made in.
-/

namespace TemplateBindings

open Files

namespace Audit

variable {disk last : Disk} {log : Path} {lines : Text}

/-- **Lines are added behind what a log holds**, where its path leads. -/
theorem bytesSeen_of_addLines (hclean : log.Clean disk.root)
    (h : (addLines log lines).runOn disk = (.ok (), last)) :
    Operation.bytesSeen (last.root.see? log.normalise) =
      Operation.bytesSeen (disk.root.see? log.normalise) ++ Utf8.encode lines := by
  rw [addLines, prepare] at h
  obtain ⟨_, mid, hmake, hadd⟩ := Work.of_runOn_bind h
  have hopened := (hclean.of_isPrefix log.parent_prefix).opened directoryRoom
  rw [hmake] at hopened
  rcases ha : (Operation.append log (Utf8.encode lines)).apply mid.now mid.root with e | root
  · rw [runOn_perform_error ha] at hadd
    cases hadd
  · rw [runOn_perform_ok ha] at hadd
    cases hadd
    rw [Disk.after, (hclean.of_opened hopened).of_append ha, Operation.effect_append,
      Function.update_self, hopened.bytesSeen_eq]
    rfl

end Audit

namespace Build

variable {plan : List Source → List (List Source)} {config : Config} {occasion : Occasion}
  {disk last : Disk} {stages : Stages} {report : Report} {s : Source} {log out q : Path}
  {outcome : Outcome} {operations : List Operation} {events : List Audit.Event}
  {trace : List (Source × Operation)}

/-! ### The report -/

/-- The labels in a report. -/
def Report.labels (report : Report) : List Str :=
  report.written ++ report.cached ++ report.failures.map Failure.path

/-- **Each outcome puts the label of its source in one place of the report.** -/
theorem labels_reportOn (outcomes : List (Source × Outcome)) (removed : List Str) :
    (reportOn outcomes removed).labels.Perm (outcomes.map (·.1.label)) := by
  have hunsorted : ((outcomes.filter (·.2.isWritten)).map (·.1.label) ++
      (outcomes.filter (·.2 = .cached)).map (·.1.label) ++
      (outcomes.filterMap fun o => failure? o.1 o.2).map Failure.path).Perm
        (outcomes.map (·.1.label)) := by
    induction outcomes with
    | nil => exact .refl _
    | cons o outcomes ih =>
      obtain ⟨s, outcome⟩ := o
      cases outcome with
      | written artifacts => exact ih.cons s.label
      | cached =>
        refine List.Perm.trans ?_ (ih.cons s.label)
        exact List.perm_middle.append_right _
      | failed e => exact List.perm_middle.trans (ih.cons s.label)
  refine List.Perm.trans ?_ hunsorted
  refine ((Text.orderedBy_perm _ _).append (Text.orderedBy_perm _ _)).append ?_
  exact (Text.orderedBy_perm Failure.path _).map _

/-- **The report names every markup source once**, and nothing else. -/
theorem Completes.labels (h : Completes plan config occasion disk stages report last)
    (hsound : stages.Sound) :
    report.labels.Nodup ∧ report.labels.Perm ((markupOf stages.sources).map Source.label) := by
  have hperm : report.labels.Perm ((markupOf stages.sources).map Source.label) := by
    rw [h.report_eq]
    refine (labels_reportOn _ _).trans ?_
    have hlabels := hsound.perm.map Source.label
    rwa [List.map_map] at hlabels
  refine ⟨hperm.nodup_iff.2 ?_, hperm⟩
  refine List.Nodup.map_on (fun s hs t ht he => ?_) (hsound.nodup.filter _)
  obtain ⟨hs, hskind⟩ := mem_markupOf.1 hs
  obtain ⟨ht, htkind⟩ := mem_markupOf.1 ht
  exact Source.eq_of_way (hskind.trans htkind.symm)
    (Source.way_of_label (hsound.regular s hs) (hsound.regular t ht) he)

/-! ### The log through the phases -/

/-- **A log that is safe** in a file system: no link stands on its path, on that of the outputs, or on
those of the drafts, and it is not in the place of an output or of a draft. -/
structure Stages.LogSafe (stages : Stages) (files : Entry) (log : Path) : Prop where
  /-- The log is reached without links. -/
  clean : log.Clean files
  /-- So is the root of the outputs. -/
  output : stages.roots.output.Plain files
  /-- So are the drafts. -/
  unlinked : ∀ s ∈ markupOf stages.sources, Unlinked files stages.roots.output s
  /-- The log is in no place of a source. -/
  apart : ∀ s ∈ markupOf stages.sources, ¬ IsPlace stages.roots.output s log.normalise

/-- **What opening the roots does**: on the paths to the log and to the outputs, directories may
appear. -/
structure OpenedFor (config : Config) (out : Path) (before after : Entry) : Prop where
  /-- A path without links still has none. -/
  plain : ∀ path : Path, path.Plain before → path.Plain after
  /-- So has one with steps back. -/
  clean : ∀ path : Path, path.Clean before → path.Clean after
  /-- Files hold what they held. -/
  bytes : ∀ q, Operation.bytesSeen (after.see? q) = Operation.bytesSeen (before.see? q)
  /-- The root of the outputs is there. -/
  root : OutputRoot after out

theorem Works.openedFor (h : Works plan config occasion disk stages) (hspelled : config.Spelled)
    (hlog : ∀ log ∈ config.auditLog, log.Clean disk.root)
    (hout : stages.roots.output.Plain disk.root) :
    OpenedFor config stages.roots.output disk.root stages.opened.root := by
  obtain ⟨prepared, hprepare, hresolve, hmake⟩ := of_openRoots h.opens
  have hproper := resolve_proper hspelled.output hresolve
  have hfirst : ∃ path : Path, path.Opened disk.root.see? prepared.root.see? := by
    rw [preparing] at hprepare
    rcases hl : config.auditLog with _ | log
    · rw [hl] at hprepare
      cases hprepare
      exact ⟨[], .refl _ _⟩
    · have hopened := ((hlog log hl).of_isPrefix log.parent_prefix).opened logRoom
      rw [hl] at hprepare
      have hmade : (ensureDirectories logRoom log.parent).runOn disk = (.ok (), prepared) :=
        Work.of_runOn_mapError hprepare
      rw [hmade] at hopened
      exact ⟨_, hopened⟩
  obtain ⟨way, hfirst⟩ := hfirst
  have hplain := hout.of_opened hfirst
  have hsecond := (hplain.clean hproper).opened directoryRoom
  obtain ⟨operations, hmakes⟩ := ensureDirectories_makes directoryRoom hproper hplain
  rw [hmake] at hsecond hmakes
  exact ⟨fun path hpath => (hpath.of_opened hfirst).of_opened hsecond,
    fun path hpath => (hpath.of_opened hfirst).of_opened hsecond,
    fun q => (hsecond.bytesSeen_eq q).trans (hfirst.bytesSeen_eq q),
    hproper, hmakes.fits rfl, hmakes.made rfl⟩

/-- An operation for a source spares the files that are in none of its places. -/
theorem Serves.bytesSeen_eq {operation : Operation} {root root' : Entry} {now : Int}
    (h : Serves out s operation) (hs : s.Regular) (hq : ¬ IsPlace out s q)
    (hd : operation.Direct root) (ha : operation.apply now root = .ok root') :
    Operation.bytesSeen (root'.see? q) = Operation.bytesSeen (root.see? q) := by
  obtain ⟨hpossible, hsee⟩ := Operation.of_apply hd ha
  rw [hsee]
  by_cases hmem : q ∈ operation.places
  · cases h with
    | enter _ =>
      -- a directory is made where nothing was
      cases List.mem_singleton.1 hmem
      rw [Operation.effect, Function.update_self, hpossible.2]
      rfl
    | draft hn bytes =>
      cases List.mem_singleton.1 hmem
      exact absurd (.inr ((Source.mem_drafts hs).2 ⟨_, hn, rfl⟩)) hq
    | deliver hn =>
      rcases List.mem_cons.1 hmem with rfl | hmem
      · exact absurd (.inr ((Source.mem_drafts hs).2 ⟨_, hn, rfl⟩)) hq
      · cases List.mem_singleton.1 hmem
        exact absurd (.inl ((Source.mem_outputs hs).2 ⟨_, hn, rfl⟩)) hq
  · rw [Operation.effect_of_not_mem now _ hmem]

/-- **Operations for sources spare the files that are in none of their places.** -/
theorem bytesSeen_of_serves {todo : List Source} {disk' : Disk}
    (hu : disk.Undergoes operations disk')
    (hserves : ∀ operation ∈ operations, ServesAny out todo operation)
    (hregular : ∀ t ∈ todo, t.Regular) (hq : ∀ t ∈ todo, ¬ IsPlace out t q) :
    Operation.bytesSeen (disk'.root.see? q) = Operation.bytesSeen (disk.root.see? q) := by
  induction hu with
  | nil => rfl
  | cons hd ha _ ih =>
    obtain ⟨⟨t, ht, hfirst⟩, hrest⟩ := List.forall_mem_cons.1 hserves
    exact (ih hrest).trans (hfirst.bytesSeen_eq (hregular t ht) (hq t ht) hd ha)

/-- A sweep keeps the bytes of what it is told to keep. -/
theorem bytesSeen_of_removeStale {worked swept : Disk} {room : Nat} {out : Path}
    {keep removed : List Path} (hv : worked.root.Valid) (hout : OutputRoot worked.root out)
    (hkeep : log ∈ keep) (h : (removeStale room out keep).runOn worked = (.ok removed, swept)) :
    Operation.bytesSeen (swept.root.see? log) = Operation.bytesSeen (worked.root.see? log) := by
  obtain ⟨operations, hsweeps⟩ :=
    removeStale_sweeps room keep hv (fun _ => ⟨removed, by rw [h]⟩) hout
  rw [h] at hsweeps
  rcases hseen : worked.root.see? log with _ | sight
  · rcases hsweeps.none_or_eq log with he | he
    · rw [he]
    · rw [he, hseen]
  · by_cases hdir : sight = .directory
    · -- a directory holds no bytes, whether it stays or not
      rcases hsweeps.none_or_eq log with he | he <;> rw [he]
      · rw [hdir]
        rfl
      · rw [hseen]
    · rw [hsweeps.stays ⟨log, sight, List.prefix_rfl, hseen, hdir, hkeep⟩, hseen]

/-- Events that are logged are added to the log. -/
theorem of_logEvents (hlog : config.auditLog = some log)
    (h : (logEvents config events).runOn disk = (.ok (), last)) :
    (events = [] ∧ last = disk) ∨
      (Audit.addLines log (events.flatMap Audit.Event.line)).runOn disk = (.ok (), last) := by
  rw [logEvents, hlog] at h
  dsimp only at h
  rw [Work.runOn_mapError, Audit.extend] at h
  split at h
  · cases h
  · split at h
    · next hempty =>
      cases h
      exact .inl ⟨List.isEmpty_iff.1 hempty, rfl⟩
    · right
      rw [Work.runOn_mapError] at h
      rcases hr : (Audit.addLines log (events.flatMap Audit.Event.line)).runOn disk with
        ⟨e | ⟨⟩, mid⟩
      · rw [hr] at h
        cases h
      · rw [hr] at h
        cases h
        rfl

/-! ### The log of a run -/

/-- **What a line says of a source**: what became of it, as in the report, and what was put in place
for it. -/
inductive Told (occasion : Occasion) (out : Path) (report : Report) (source : Source)
    (operations : List Operation) : Audit.Event → Prop
  /-- The source was written; the line names the outputs that were put in place, in order. -/
  | written (reported : source.label ∈ report.written) :
    Told occasion out report source operations
      ⟨occasion.stamp, occasion.id, source.label, Audit.written,
        Text.sorted ((operations.filterMap Operation.landing?).map (outputLabel out)), none⟩
  /-- The source was current, and nothing was done. -/
  | cached (reported : source.label ∈ report.cached) (idle : operations = []) :
    Told occasion out report source operations
      ⟨occasion.stamp, occasion.id, source.label, Audit.cached, [], none⟩
  /-- The source failed; the line has the error. -/
  | failed {error : Text} (reported : ⟨source.label, error⟩ ∈ report.failures) :
    Told occasion out report source operations
      ⟨occasion.stamp, occasion.id, source.label, Audit.failed, [], some error⟩

/-- **A run tells in its log what it did**, behind what the log held: a line for each markup source,
in the order in which work on them ended, and then one for each output that was removed. What the line
of a source says is true of the operations that were performed for it, and the work of the run
consists of such operations. -/
def Stages.Tells (stages : Stages) (occasion : Occasion) (report : Report)
    (before after : List UInt8) : Prop :=
  ∃ (trace : List (Source × Operation)) (order : List Source) (events : List Audit.Event)
    (lines : List Text),
    order.Perm (markupOf stages.sources) ∧
    stages.opened.Undergoes (trace.map Prod.snd) stages.worked ∧
    (∀ m ∈ trace, m.1 ∈ order) ∧
    List.Forall₂ (fun s => Told occasion stages.roots.output report s (Thread.actsOf s trace))
      order events ∧
    lines = (events ++ report.removed.map (removalEvent occasion)).map Audit.Event.line ∧
    (∀ line ∈ lines, Text.IsLine line) ∧
    after = before ++ Utf8.encode lines.flatten

/-- The event of a source tells of operations that come to its outcome. -/
theorem Attended.told {view : Entry} {roots : Roots} {sources order : List Source} {start : Disk}
    (h : Attended view roots sources order start s last outcome operations) (hsound : stages.Sound)
    (ho : (s, outcome) ∈ stages.outcomes) (out : Path) (removed : List Str) :
    Told occasion out (reportOn stages.outcomes removed) s operations
      (eventOf occasion out s outcome) := by
  obtain ⟨hs, hkind⟩ := hsound.mem_iff.2 ⟨outcome, ho⟩
  have hfailed (e : SourceError) (ho : (s, .failed e) ∈ stages.outcomes) :
      Told occasion out (reportOn stages.outcomes removed) s operations
        (eventOf occasion out s (.failed e)) :=
    .failed ((hsound.mem_failures hs hkind).2 ⟨e, ho, rfl⟩)
  cases h with
  | refused e => exact hfailed e ho
  | current _ => exact .cached ((hsound.label_mem_cached hs hkind).2 ho) rfl
  | @made _ result _ hdeed _ =>
    cases result with
    | error e => exact hfailed e ho
    | ok paths =>
      rw [madeOutcome, eventOf, hdeed.landings]
      exact .written ((hsound.label_mem_written hs hkind).2 ⟨paths, ho⟩)

/-- **The work of a run falls into deeds**, where no draft is a link. -/
theorem Works.deeds (h : Works plan config occasion disk stages) (hplan : Covers plan)
    (hsound : stages.Sound)
    (hlinks : ∀ s ∈ markupOf stages.sources, Unlinked stages.opened.root stages.roots.output s)
    (view : Entry) :
    ∃ trace, Worked stages.roots.output (plan (markupOf stages.sources)).flatten trace stages.opened
        stages.worked stages.outcomes ∧
      ∀ o ∈ stages.outcomes, Attended view stages.roots stages.sources
        (plan (markupOf stages.sources)).flatten stages.opened o.1 stages.worked o.2
        (Thread.actsOf o.1 trace) := by
  have hcovers := hplan (markupOf stages.sources)
  have hdeeds := @workThrough_deeds stages.opened stages.roots (plan (markupOf stages.sources))
    hsound.output (hcovers.nodup_iff.2 (hsound.nodup.filter _))
    (fun s hs => hsound.regular s (mem_markupOf.1 (hcovers.mem_iff.1 hs)).1)
    (fun s hs => hlinks s (hcovers.mem_iff.1 hs)) stages.sources occasion.turns view
  rwa [h.works] at hdeeds

/-- **A safe log holds what it held** until the events of the run are added, and no link leads away
from it. -/
theorem Completes.log_kept (h : Completes plan config occasion disk stages report last)
    (hsound : stages.Sound) (hplan : Covers plan) (hlog : config.auditLog = some log)
    (hsafe : stages.LogSafe disk.root log)
    (hopened : OpenedFor config stages.roots.output disk.root stages.opened.root)
    (hworked : Worked stages.roots.output (plan (markupOf stages.sources)).flatten trace
      stages.opened stages.worked stages.outcomes) :
    Operation.bytesSeen (stages.swept.root.see? log.normalise) =
      Operation.bytesSeen (disk.root.see? log.normalise) ∧ log.Clean stages.swept.root := by
  have hclean := hopened.clean log hsafe.clean
  have hkeep : log.normalise ∈ stages.log ++ kept stages.roots.output stages.outcomes := by
    rw [h.log_eq fun l hl => Option.some.inj (hlog.symm.trans hl) ▸ hclean, hlog]
    exact List.mem_append_left _ List.mem_cons_self
  have hroot : OutputRoot stages.worked.root stages.roots.output :=
    ⟨hopened.root.proper, hopened.root.fits,
      hworked.performs.directory _ hopened.root.directory⟩
  have hmem {t : Source} (ht : t ∈ (plan (markupOf stages.sources)).flatten) :
      t ∈ markupOf stages.sources := (hplan _).mem_iff.1 ht
  have hcleanWorked : log.Clean stages.worked.root := hclean.of_plain hworked.performs.plain
  refine ⟨?_, Path.Clean.of_swept (fun q => ?_) hcleanWorked⟩
  · rw [bytesSeen_of_removeStale hsound.valid hroot hkeep h.sweeps,
      bytesSeen_of_serves hworked.performs.undergoes hworked.performs.allowed
        (fun t ht => hsound.regular t (mem_markupOf.1 (hmem ht)).1)
        fun t ht => hsafe.apart t (hmem ht), hopened.bytes]
  · have hnone := removeStale_none_or_eq sweepRoom stages.roots.output
      (stages.log ++ kept stages.roots.output stages.outcomes) stages.worked q
    rwa [h.sweeps] at hnone

/-- **A run tells in a safe log what it did.** -/
theorem Completes.tells (h : Completes plan config occasion disk stages report last)
    (hsound : stages.Sound) (hplan : Covers plan) (hspelled : config.Spelled)
    (hlog : config.auditLog = some log) (hsafe : stages.LogSafe disk.root log) :
    stages.Tells occasion report (Operation.bytesSeen (disk.root.see? log.normalise))
      (Operation.bytesSeen (last.root.see? log.normalise)) := by
  have hopened := h.openedFor hspelled
    (fun l hl => Option.some.inj (hlog.symm.trans hl) ▸ hsafe.clean) hsafe.output
  obtain ⟨trace, hworked, hattended⟩ := h.deeds hplan hsound (fun s hs draft hd =>
    hopened.plain draft (hsafe.unlinked s hs draft hd)) disk.root
  obtain ⟨hbytes, hclean⟩ := h.log_kept hsound hplan hlog hsafe hopened hworked
  refine ⟨trace, stages.outcomes.map Prod.fst,
    stages.outcomes.map fun o => eventOf occasion stages.roots.output o.1 o.2, _, hsound.perm,
    hworked.performs.undergoes, fun m hm => hworked.perm.mem_iff.2 (hworked.serves m hm).1, ?_, rfl,
    ?_, ?_⟩
  · rw [List.forall₂_map_left_iff, List.forall₂_map_right_iff, List.forall₂_same]
    intro o ho
    rw [h.report_eq]
    exact (hattended o ho).told hsound ho _ _
  · intro line hline
    obtain ⟨event, -, rfl⟩ := List.mem_map.1 hline
    exact Audit.isLine_line event
  · have hevents : eventsOf occasion stages.roots.output stages.outcomes
        (stages.removed.map (outputLabel stages.roots.output)) =
          (stages.outcomes.map fun o => eventOf occasion stages.roots.output o.1 o.2) ++
            report.removed.map (removalEvent occasion) := by
      rw [eventsOf, h.report_eq]
      rfl
    have hlogs := h.logs
    rw [hevents] at hlogs
    rw [← List.flatMap_def]
    rcases of_logEvents hlog hlogs with ⟨hempty, hlast⟩ | hadds
    · rw [hempty, hlast, hbytes]
      exact (List.append_nil _).symm
    · rw [Audit.bytesSeen_of_addLines hclean hadds, hbytes]

/-- **A run that ends with a report accounts for every source once**, in its report and in its log: the
labels of the markup that it discovered are each in one place of the report, and a safe log grows by
their lines and those of the removed outputs. -/
theorem run_tells (hv : disk.root.Valid) (hspelled : config.Spelled)
    (hrun : ((run config occasion).runOn disk).1 = .ok report) :
    ∃ stages, Completes (batches config.workers) config occasion disk stages report
        ((run config occasion).runOn disk).2 ∧
      report.labels.Nodup ∧
      report.labels.Perm ((markupOf stages.sources).map Source.label) ∧
      ∀ log ∈ config.auditLog, stages.LogSafe disk.root log →
        stages.Tells occasion report (Operation.bytesSeen (disk.root.see? log.normalise))
          (Operation.bytesSeen
            (((run config occasion).runOn disk).2.root.see? log.normalise)) := by
  obtain ⟨stages, hstages⟩ := exists_completes (Work.runOn_eq_of_end hrun)
  have hsound := hstages.sound (covers_batches _) hspelled hv
  obtain ⟨hnodup, hperm⟩ := hstages.labels hsound
  exact ⟨stages, hstages, hnodup, hperm, fun log hlog hsafe =>
    hstages.tells hsound (covers_batches _) hspelled hlog hsafe⟩

/-- A configuration with a log among the outputs, whose path steps back. -/
def loggedConfig : Config :=
  { plainConfig with auditLog := some ["out".toList, "sub".toList, back, "log".toList] }

/-- The report of a run with it on the disk `varied`. -/
def loggedReport : Report :=
  ⟨["a.html".toList, "sub/c.html".toList], [], ["old.ts".toList],
    [⟨"b.html".toList, undecodableError⟩]⟩

theorem run_tells_varied :
    ((run loggedConfig turningOccasion).runOn varied).1 = .ok loggedReport ∧
      ∃ stages, Completes (batches 2) loggedConfig turningOccasion varied stages loggedReport
          ((run loggedConfig turningOccasion).runOn varied).2 ∧
        stages.Tells turningOccasion loggedReport [] (Operation.bytesSeen
          (((run loggedConfig turningOccasion).runOn varied).2.root.see?
            ["out".toList, "log".toList])) := by
  have hrun : ((run loggedConfig turningOccasion).runOn varied).1 = .ok loggedReport := by
    decide +kernel
  obtain ⟨stages, hstages, -, -, htells⟩ := run_tells (by decide +kernel)
    ⟨by decide, by decide, by decide⟩ hrun
  obtain ⟨heq, hsources⟩ := hstages.of_found
    (show foundBy loggedConfig varied = .ok variedSources by decide +kernel)
    (show ((openRoots loggedConfig).runOn varied).1 = .ok (rootsOf loggedConfig) by decide +kernel)
  refine ⟨hrun, stages, hstages, htells _ rfl ⟨?_, ?_, ?_, ?_⟩⟩
  · decide +kernel
  · rw [heq]
    decide +kernel
  all_goals
    rw [heq, hsources]
    decide +kernel

/-! ### Drafts that lead to the log -/

/-- A disk on which the draft of an output is a link to the log. -/
def diverted : Disk where
  root := .directory
    [("src".toList, .directory
        [("a.html".toList, .file (Utf8.encode "<style>.x{}</style>".toList)
          1700000000000000000)]),
      ("out".toList, .directory [("a.css.tmp".toList, .link "../log".toList)]),
      ("log".toList, .file [0x7b, 0x7d, 0x0a] 0)]
  now := 1700000000000000000

/-- **A log is not only added to** where a draft leads to it: the lines that it held are gone. -/
theorem run_overwrites_log :
    ¬ ∀ (config : Config) (occasion : Occasion) (disk : Disk) (report : Report)
      (sources : List Source), disk.root.Valid → config.Spelled →
      ((run config occasion).runOn disk).1 = .ok report → foundBy config disk = .ok sources →
      ∀ log ∈ config.auditLog, log.Plain disk.root →
        (∀ s ∈ sources, log ≠ s.path config.inputRoot ∧
          log ∉ (s.outputs config.outputRoot).all ∧ log ∉ s.drafts config.outputRoot) →
        ∃ added, Operation.bytesSeen (((run config occasion).runOn disk).2.root.see? log) =
          Operation.bytesSeen (disk.root.see? log) ++ added := by
  intro h
  obtain ⟨added, hadded⟩ := h { plainConfig with auditLog := some ["log".toList] } plainOccasion
    diverted ⟨["a.html".toList], [], [], []⟩ [⟨[], "a".toList, .markup⟩] (by decide +kernel)
    ⟨by decide, by decide, by decide⟩ (by decide +kernel) (by decide +kernel) ["log".toList] rfl
    (by decide +kernel) (by decide +kernel)
  have hprefix : Operation.bytesSeen (diverted.root.see? ["log".toList]) <+:
      Operation.bytesSeen (((run { plainConfig with auditLog := some ["log".toList] }
        plainOccasion).runOn diverted).2.root.see? ["log".toList]) := ⟨added, hadded.symm⟩
  exact absurd hprefix (by decide +kernel)

end Build
end TemplateBindings
