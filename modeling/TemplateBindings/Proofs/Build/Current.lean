import TemplateBindings.Proofs.Build.Delivered
import TemplateBindings.Proofs.Build.Isolation
import TemplateBindings.Proofs.Build.Ledger
import TemplateBindings.Proofs.Build.Milliseconds
import TemplateBindings.Proofs.Files.Adding

/-!
# When a source is current

The module that a run leaves for a source that did not fail bears the marker of its inputs, or has no
marker: the class constants of another source may stand in its place, and they bear none. Other
sources of the run bring no marker there, in whatever order they are worked on, and what is added to
a log comes behind the first line. So the next run takes the source for current only if the later of
the times of its inputs lies in the same millisecond as when the first one began
(`TemplateBindings.Build.run_notices`). Not every edit changes that, and a module or a draft that is a
link, or inputs that are read through outputs, can make a module look like a current one
(`TemplateBindings.Build.run_misses_edit`).
-/

namespace TemplateBindings
namespace Build

open Files

variable {plan plan' : List Source → List (List Source)} {config config' : Config}
  {occasion occasion' : Occasion} {disk disk' last later last' mid : Disk} {roots : Roots}
  {stages stages' : Stages} {sources order : List Source} {report report' : Report} {s t : Source}
  {events : List Audit.Event} {view files : Entry} {q : Path} {n : Str} {marker : Text}
  {bytes : List UInt8} {trace : List (Source × Operation)} {front back : List Operation}

/-! ### Before the work and after it -/

/-- Opening the roots makes directories. -/
theorem Works.widened (h : Works plan config occasion disk stages) :
    Widened disk.root.see? stages.opened.root.see? := by
  obtain ⟨prepared, hprepare, -, hmake⟩ := of_openRoots h.opens
  have hfirst : Widened disk.root.see? prepared.root.see? := by
    rw [preparing] at hprepare
    rcases hl : config.auditLog with _ | log
    · rw [hl] at hprepare
      cases hprepare
      exact .refl _
    · rw [hl] at hprepare
      have hmade : (ensureDirectories logRoom log.parent).runOn disk = (.ok (), prepared) :=
        Work.of_runOn_mapError hprepare
      have hwidened := widened_ensureDirectories logRoom log.parent disk
      rwa [hmade] at hwidened
  have hsecond := widened_ensureDirectories directoryRoom stages.roots.output prepared
  rw [hmake] at hsecond
  exact hfirst.trans hsecond

/-- Logging adds to a file. -/
theorem grown_of_logEvents (h : (logEvents config events).runOn disk = (.ok (), last)) :
    Grown disk.root.see? last.root.see? := by
  rcases hlog : config.auditLog with _ | log
  · rw [logEvents, hlog] at h
    cases h
    exact (Widened.refl _).grown
  · rcases of_logEvents hlog h with ⟨-, rfl⟩ | hadd
    · exact (Widened.refl _).grown
    · rw [Audit.addLines, Audit.prepare] at hadd
      obtain ⟨_, mid, hmake, happend⟩ := Work.of_runOn_bind hadd
      have hfirst := widened_ensureDirectories Audit.directoryRoom log.parent disk
      have hsecond := grown_append log (Utf8.encode (events.flatMap Audit.Event.line)) mid
      rw [hmake] at hfirst
      rw [happend] at hsecond
      exact hfirst.grown.trans hsecond

/-! ### Reading a module -/

/-- What is read from a module without links is what is seen there. -/
theorem markerSeen_of_existingMarker (hp : q.Proper) (hplain : q.Plain files)
    (h : existingMarker files q = .ok (some marker)) : markerSeen (files.see? q) = some marker := by
  rw [existingMarker, contents] at h
  rcases hloc : locate files .target q with e | spot
  · rw [hloc] at h
    dsimp only at h
    split at h
    · cases h
    · cases h
  · rw [hloc] at h
    rcases spot_of_locate hp hplain.straight (.inr hplain) hloc with
      ⟨entry, hat, rfl⟩ | ⟨way, name, -, -, -, rfl⟩
    · cases entry with
      | file bytes time =>
        rw [Entry.see?_eq_some_file.2 hat]
        exact Except.ok.inj h
      | directory _ => cases h
      | link _ => cases h
    · cases h

theorem of_markerSeen {sight : Option Sight} (h : markerSeen sight = some marker) :
    ∃ bytes time, sight = some (.file bytes time) ∧ markerIn? bytes = some marker := by
  rcases sight with _ | ⟨bytes, time⟩ | _ | _
  · cases h
  · exact ⟨bytes, time, rfl, h⟩
  · cases h
  · cases h

/-! ### What was done for the sources -/

/-- **An account of what was done for the sources of a run**, one operation after another. -/
structure Stages.Attends (stages : Stages) (view : Entry) (order : List Source)
    (trace : List (Source × Operation)) : Prop where
  /-- The operations lead through the work. -/
  worked : Worked stages.roots.output order trace stages.opened stages.worked stages.outcomes
  /-- Each source was attended to. -/
  attended : ∀ o ∈ stages.outcomes, Attended view stages.roots stages.sources order stages.opened o.1
    stages.worked o.2 (Thread.actsOf o.1 trace)

namespace Stages.Attends

variable (h : stages.Attends view order trace)
include h

/-- What was done for a source is a deed. -/
theorem deed {operation : Operation} (hm : (t, operation) ∈ trace) :
    ∃ marker result, (t, madeOutcome result) ∈ stages.outcomes ∧
      Deed stages.roots.output t marker result (Thread.actsOf t trace) ∧
      (Watched view stages.opened.root stages.roots stages.sources t →
        markerOf view stages.roots.input t (t.stylesheet? stages.sources) = .ok marker) := by
  obtain ⟨⟨_, outcome⟩, ho, rfl⟩ :=
    List.mem_map.1 (h.worked.perm.mem_iff.2 (h.worked.serves _ hm).1)
  have hacts := Thread.mem_actsOf.2 hm
  have hattended := h.attended _ ho
  dsimp only at hattended hacts
  generalize hall : Thread.actsOf _ trace = operations at hattended hacts
  cases hattended with
  | refused _ => cases hacts
  | current _ => cases hacts
  | made deed inputs => exact ⟨_, _, ho, hall ▸ deed, inputs⟩

theorem drafted : Drafted trace :=
  drafted_of_deeds fun _ hm =>
    let ⟨marker, result, _, hdeed, _⟩ := h.deed hm
    ⟨marker, result, hdeed⟩

/-- **What stands in the place of a module** at some moment of the work. -/
theorem standing (s : Source)
    (hfront : Disk.Performs (ServesAny stages.roots.output order) front stages.opened mid)
    (hback : Disk.Performs (ServesAny stages.roots.output order) back mid stages.worked) :
    ∃ early, early <+: trace ∧ early.map Prod.snd = front ∧
      Standing stages.opened.now (s.directory stages.roots.output) (s.name ++ moduleSuffix) early
        stages.opened.root.see? mid.root.see? := by
  have hsame : front ++ back = trace.map Prod.snd :=
    (hfront.append hback).undergoes.operations_unique h.worked.performs.undergoes
  obtain ⟨early, late, rfl, rfl, -⟩ := List.map_eq_append_iff.1 hsame.symm
  refine ⟨early, List.prefix_append _ _, rfl, ?_⟩
  exact standing_of_undergoes (fun m => s.output_ne_draft s.moduleName_mem m)
    hfront.undergoes (fun m hm => (h.worked.serves m (List.mem_append_left _ hm)).2)
    h.drafted.of_append _

/-- **What is written as the draft of a module** bears no marker but that of the inputs, and only a
source that was written bears one. -/
theorem draft (hsound : stages.Sound) (hs : s ∈ markupOf stages.sources)
    (hwatched : Watched view stages.opened.root stages.roots stages.sources s)
    (hw : (t, .write (s.directory stages.roots.output ++ [draftName (s.name ++ moduleSuffix)]) bytes)
      ∈ trace) :
    Unmarked bytes ∨ (∃ e, (s, .failed e) ∈ stages.outcomes) ∨
      ∃ paths marker, (s, .written paths) ∈ stages.outcomes ∧
        markerOf view stages.roots.input s (s.stylesheet? stages.sources) = .ok marker ∧
        markerIn? bytes = some marker := by
  obtain ⟨marker, result, ho, hdeed, hinputs⟩ := h.deed hw
  rcases hdeed.bears (mem_markupOf.1 hs).2 (hsound.mem_iff.2 ⟨_, ho⟩).2 (Thread.mem_actsOf.2 hw) with
    hunmarked | ⟨rfl, hmodule⟩
  · exact .inl hunmarked
  · have hmarker := hinputs hwatched
    obtain ⟨hn, hr⟩ := line_of_markerOf hmarker
    cases result with
    | error e => exact .inr (.inl ⟨e, ho⟩)
    | ok paths => exact .inr (.inr ⟨paths, marker, ho, hmarker, hmodule ⟨paths, rfl⟩ hn hr⟩)

/-- **The module of a source that is current** is left alone, or something without a marker comes to
stand in its place. -/
theorem cached_cases (hsound : stages.Sound) (hs : s ∈ markupOf stages.sources)
    (hwatched : Watched view stages.opened.root stages.roots stages.sources s)
    (hcached : (s, .cached) ∈ stages.outcomes)
    (hfront : Disk.Performs (ServesAny stages.roots.output order) front stages.opened mid)
    (hback : Disk.Performs (ServesAny stages.roots.output order) back mid stages.worked) :
    LeftAlone (stages.opened.root.see? (s.outputs stages.roots.output).module)
        (mid.root.see? (s.outputs stages.roots.output).module) ∨
      ∃ bytes time, mid.root.see? (s.outputs stages.roots.output).module = some (.file bytes time) ∧
        Unmarked bytes := by
  have hregular := hsound.regular s (mem_markupOf.1 hs).1
  obtain ⟨early, hearly, -, hstanding⟩ := h.standing s hfront hback
  rw [Source.module_eq hregular]
  rcases hstanding.output with ⟨-, hleft⟩ | ⟨t, bytes, hw, hfile⟩
  · exact .inl hleft
  · refine .inr ⟨bytes, _, hfile, ?_⟩
    rcases h.draft hsound hs hwatched (hearly.subset hw) with
      hunmarked | ⟨e, ho⟩ | ⟨paths, marker, ho, -, -⟩
    · exact hunmarked
    · cases hsound.outcome_unique hcached ho
    · cases hsound.outcome_unique hcached ho

/-- **The marker that a source is current by** is that of the module that was there when the work
began, if that is no link. -/
theorem marker_of_current (hsound : stages.Sound) (hs : s ∈ markupOf stages.sources)
    (hwatched : Watched view stages.opened.root stages.roots stages.sources s)
    (hcached : (s, .cached) ∈ stages.outcomes)
    (hplain : Path.Plain stages.opened.root (s.directory stages.roots.output))
    (hlink : ∀ target,
      stages.opened.root.see? (s.outputs stages.roots.output).module ≠ some (.link target))
    (hcurrent : Current view stages.roots stages.sources order s stages.opened stages.worked
      marker) :
    markerSeen (stages.opened.root.see? (s.outputs stages.roots.output).module) = some marker := by
  have hregular := hsound.regular s (mem_markupOf.1 hs).1
  obtain ⟨mid, front, back, hfront, hback, hexisting⟩ := hcurrent.moment
  have hcases := h.cached_cases hsound hs hwatched hcached hfront hback
  rw [Source.module_eq hregular] at hlink hexisting hcases ⊢
  have hname : IsName (s.name ++ moduleSuffix) :=
    hregular.isName s.moduleName_mem
  have hread (hmid : ∀ target, mid.root.see? (s.directory stages.roots.output ++
      [s.name ++ moduleSuffix]) ≠ some (.link target)) :=
    markerSeen_of_existingMarker ((Source.directory_proper hsound.output hregular).concat hname)
      ((hfront.plain _ hplain).concat hmid) hexisting
  rcases hcases with (he | ⟨hnone, hdir⟩) | ⟨bytes, time, hfile, hunmarked⟩
  · rw [he] at hread
    exact hread hlink
  · rw [hdir] at hread
    cases hread fun target => nofun
  · rw [hfile] at hread
    have hmarker : markerIn? bytes = some marker := hread fun target => nofun
    rw [← List.append_nil bytes, hunmarked []] at hmarker
    cases hmarker

/-- **The work brings up no marker but that of the inputs** in the place of a module, if its source
does not fail. Where a link stands there, it leads to something current. -/
theorem brings (hsound : stages.Sound) (hs : s ∈ markupOf stages.sources)
    (hwatched : Watched view stages.opened.root stages.roots stages.sources s)
    (hplain : Path.Plain stages.opened.root (s.directory stages.roots.output))
    (hclean : ∀ e, (s, .failed e) ∉ stages.outcomes) :
    ∃ marker, markerOf view stages.roots.input s (s.stylesheet? stages.sources) = .ok marker ∧
      ((∃ bytes time, stages.worked.root.see? (s.outputs stages.roots.output).module =
          some (.file bytes time) ∧ Bears marker bytes) ∨
        ∃ target, stages.worked.root.see? (s.outputs stages.roots.output).module =
          some (.link target)) := by
  have hregular := hsound.regular s (mem_markupOf.1 hs).1
  obtain ⟨outcome, ho⟩ := hsound.mem_iff.1 (mem_markupOf.1 hs)
  have hattended := h.attended _ ho
  dsimp only at hattended
  generalize hacts : Thread.actsOf s trace = operations at hattended
  cases hattended with
  | refused e => exact absurd ho (hclean e)
  | current hcurrent =>
    obtain ⟨marker, hcurrent⟩ := hcurrent hwatched
    refine ⟨marker, hcurrent.inputs, ?_⟩
    have hcases := h.cached_cases hsound hs hwatched ho h.worked.performs (.nil _ _)
    by_cases hlink : ∃ target,
      stages.opened.root.see? (s.outputs stages.roots.output).module = some (.link target)
    · obtain ⟨target, hlink⟩ := hlink
      rcases hcases with (he | ⟨hnone, -⟩) | ⟨bytes, time, hfile, hunmarked⟩
      · exact .inr ⟨target, he.trans hlink⟩
      · rw [hlink] at hnone
        cases hnone
      · exact .inl ⟨bytes, time, hfile, hunmarked.bears marker⟩
    · have hseen := h.marker_of_current hsound hs hwatched ho hplain
        (fun target hl => hlink ⟨target, hl⟩) hcurrent
      obtain ⟨bytes, time, hfile, hmarker⟩ := of_markerSeen hseen
      left
      rcases hcases with (he | ⟨hnone, -⟩) | ⟨bytes, time, hfile, hunmarked⟩
      · exact ⟨bytes, time, he.trans hfile, bears_of_markerIn? hmarker⟩
      · rw [hfile] at hnone
        cases hnone
      · exact ⟨bytes, time, hfile, hunmarked.bears marker⟩
  | @made marker result operations hdeed hinputs =>
    refine ⟨marker, hinputs hwatched, .inl ?_⟩
    cases result with
    | error e => exact absurd ho (hclean e)
    | ok paths =>
      obtain ⟨early, hearly, hall, hstanding⟩ := h.standing s h.worked.performs (.nil _ _)
      rw [Source.module_eq hregular]
      rcases hstanding.output with ⟨hland, -⟩ | ⟨t, bytes, hw, hfile⟩
      · -- the module was put in place
        obtain ⟨operation, hmem, hlands⟩ := hdeed.delivers
        rw [← hacts] at hmem
        have hm := Thread.mem_actsOf.1 hmem
        rw [← hearly.eq_of_length (by rw [← List.length_map Prod.snd, hall, List.length_map])] at hm
        exact absurd hlands (hland _ hm)
      · refine ⟨bytes, _, hfile, ?_⟩
        rcases h.draft hsound hs hwatched (hearly.subset hw) with
          hunmarked | ⟨e, ho'⟩ | ⟨paths, marker', ho', hmarker', hmodule⟩
        · exact hunmarked.bears marker
        · exact absurd ho' (hclean e)
        · rw [hinputs hwatched] at hmarker'
          cases hmarker'
          exact bears_of_markerIn? hmodule

/-- **A source that does not fail keeps its module.** -/
theorem keeps_module (hs : s ∈ markupOf stages.sources) (hsound : stages.Sound)
    (hclean : ∀ e, (s, .failed e) ∉ stages.outcomes) :
    (s.outputs stages.roots.output).module ∈ kept stages.roots.output stages.outcomes := by
  obtain ⟨outcome, ho⟩ := hsound.mem_iff.1 (mem_markupOf.1 hs)
  refine List.mem_flatMap.2 ⟨_, ho, ?_⟩
  have hattended := h.attended _ ho
  dsimp only at hattended ⊢
  generalize Thread.actsOf s trace = operations at hattended
  cases hattended with
  | refused e => exact absurd ho (hclean e)
  | current _ => exact List.mem_cons_self
  | @made marker result operations hdeed hinputs =>
    cases result with
    | error e => exact absurd ho (hclean e)
    | ok paths =>
      obtain ⟨operation, hmem, hlands⟩ := hdeed.delivers
      rw [Source.module_eq (hsound.regular s (mem_markupOf.1 hs).1), madeOutcome, Outcome.keeps,
        hdeed.landings]
      exact List.mem_filterMap.2 ⟨operation, hmem, hlands⟩

end Stages.Attends

/-! ### Runs -/

/-- **A source that a run tells from its outputs**: no draft is reached through a link, and the inputs
of the source can be read in a part of the file system in which there are no outputs. -/
structure Stages.Discerns (stages : Stages) (source : Source) : Prop where
  /-- The source is among those that are worked on. -/
  mem : source ∈ markupOf stages.sources
  /-- The drafts are reached without links. -/
  unlinked : ∀ t ∈ markupOf stages.sources, Unlinked stages.opened.root stages.roots.output t
  /-- The inputs are read without the outputs. -/
  watched : ∃ view, Watched view stages.opened.root stages.roots stages.sources source

theorem Stages.Discerns.directory (h : stages.Discerns s) (hsound : stages.Sound) :
    Path.Plain stages.opened.root (s.directory stages.roots.output) :=
  (h.unlinked s h.mem).directory (hsound.regular s (mem_markupOf.1 h.mem).1)

theorem Stages.Discerns.attends (hd : stages.Discerns s)
    (h : Works plan config occasion disk stages) (hplan : Covers plan) (hsound : stages.Sound) :
    ∃ view trace, Watched view stages.opened.root stages.roots stages.sources s ∧
      stages.Attends view (plan (markupOf stages.sources)).flatten trace := by
  obtain ⟨view, hwatched⟩ := hd.watched
  obtain ⟨trace, hworked, hattended⟩ := h.deeds hplan hsound hd.unlinked view
  exact ⟨view, trace, hwatched, hworked, hattended⟩

theorem Watched.markerOf_eq (h : Watched view files roots sources s) :
    markerOf files roots.input s (s.stylesheet? sources) =
      markerOf view roots.input s (s.stylesheet? sources) :=
  markerOf_of_holds h.inView h.holds

/-- **The module that a run leaves** for a source that did not fail bears no marker but that of the
inputs when the work began, if it is no link. -/
theorem Completes.bears (h : Completes plan config occasion disk stages report last)
    (hplan : Covers plan) (hsound : stages.Sound) (hd : stages.Discerns s)
    (hclean : ∀ error, ⟨s.label, error⟩ ∉ report.failures)
    (hlink : ∀ target,
      last.root.see? (s.outputs stages.roots.output).module ≠ some (.link target)) :
    ∃ marker, markerOf stages.opened.root stages.roots.input s (s.stylesheet? stages.sources) =
        .ok marker ∧
      Bears marker
        (Operation.bytesSeen (last.root.see? (s.outputs stages.roots.output).module)) := by
  obtain ⟨hs, hkind⟩ := mem_markupOf.1 hd.mem
  have hregular := hsound.regular s hs
  obtain ⟨view, trace, hwatched, hattends⟩ := hd.attends h.toWorks hplan hsound
  have hclean (e : SourceError) : (s, .failed e) ∉ stages.outcomes := fun ho => by
    rw [h.report_eq] at hclean
    exact hclean e.report ((hsound.mem_failures hs hkind).2 ⟨e, ho, rfl⟩)
  obtain ⟨marker, hmarker, hcases⟩ :=
    hattends.brings hsound hd.mem hwatched (hd.directory hsound) hclean
  refine ⟨marker, hwatched.markerOf_eq.trans hmarker, ?_⟩
  have hkeep := List.mem_append_right stages.log (hattends.keeps_module hd.mem hsound hclean)
  have hstays (sight : Sight) :=
    (sweptOut_of_removeStale hsound.valid hsound.output hsound.fits h.sweeps).stays _ sight
      (outputs_below hregular List.mem_cons_self) hkeep
  have hgrown := grown_of_logEvents h.logs
  rcases hcases with ⟨bytes, time, hfile, hbears⟩ | ⟨target, htarget⟩
  · obtain ⟨more, hmore⟩ := hgrown.bytes (s.outputs stages.roots.output).module
    rw [hstays _ hfile nofun] at hmore
    rw [hmore]
    exact hbears.append more
  · exact absurd (hgrown.link _ _ (hstays _ htarget nofun)) (hlink target)

/-- **A source is current by the marker of the module that a run finds**, if that is no link. -/
theorem Works.marker_of_cached (h : Works plan config occasion disk stages) (hplan : Covers plan)
    (hsound : stages.Sound) (hd : stages.Discerns s) (hcached : (s, .cached) ∈ stages.outcomes)
    (hlink : ∀ target,
      disk.root.see? (s.outputs stages.roots.output).module ≠ some (.link target)) :
    ∃ marker, markerOf stages.opened.root stages.roots.input s (s.stylesheet? stages.sources) =
        .ok marker ∧
      markerSeen (disk.root.see? (s.outputs stages.roots.output).module) = some marker := by
  obtain ⟨view, trace, hwatched, hattends⟩ := hd.attends h hplan hsound
  have hattended := hattends.attended _ hcached
  dsimp only at hattended
  generalize Thread.actsOf s trace = operations at hattended
  generalize houtcome : Outcome.cached = outcome at hattended
  cases hattended with
  | refused e => cases houtcome
  | @made _ result _ _ _ => cases result <;> cases houtcome
  | current hcurrent =>
    obtain ⟨marker, hcurrent⟩ := hcurrent hwatched
    refine ⟨marker, hwatched.markerOf_eq.trans hcurrent.inputs, ?_⟩
    have hopened := h.widened (s.outputs stages.roots.output).module
    have hseen := hattends.marker_of_current hsound hd.mem hwatched hcached (hd.directory hsound)
      (fun target hl => ?_) hcurrent
    · rcases hopened with he | ⟨-, hdir⟩
      · rwa [he] at hseen
      · rw [hdir] at hseen
        cases hseen
    · rcases hopened with he | ⟨-, hdir⟩
      · exact hlink target (he.symm.trans hl)
      · rw [hdir] at hl
        cases hl

/-- The times of inputs that are there stay what they are when directories are made. -/
theorem timeOf_of_holds {root : Path} {sheet : Option Source} {time : Int}
    (h : timeOf view root s sheet = .ok time) (hholds : view.Holds files) :
    timeOf files root s sheet = .ok time := by
  rw [timeOf] at h ⊢
  obtain ⟨first, hfirst, h⟩ := of_bind_ok h
  rw [modified_of_holds (isFile_of_modified hfirst) hholds, hfirst]
  cases sheet with
  | none => exact h
  | some sheet =>
    obtain ⟨second, hsecond, h⟩ := of_bind_ok h
    dsimp only [bind, Except.bind]
    rw [modified_of_holds (isFile_of_modified hsecond) hholds, hsecond]
    exact h

/-- **A run notices every edit that brings the later time of the inputs to another millisecond.** After
a run in which a source did not fail, and whatever has become of anything but its module: if the later
of the times of its inputs lies in another millisecond than when that run began, the next run does not
take the source for current. It writes its outputs or fails with it. -/
theorem run_notices {time time' : Int} (hv : disk.root.Valid) (hv' : later.root.Valid)
    (hspelled : config.Spelled) (hspelled' : config'.Spelled)
    (h : Completes (batches config.workers) config occasion disk stages report last)
    (h' : Completes (batches config'.workers) config' occasion' later stages' report' last')
    (houtput : stages'.roots.output = stages.roots.output) (hd : stages.Discerns s)
    (hd' : stages'.Discerns s) (hclean : ∀ error, ⟨s.label, error⟩ ∉ report.failures)
    (hlink : ∀ target,
      last.root.see? (s.outputs stages.roots.output).module ≠ some (.link target))
    (hmodule : later.root.see? (s.outputs stages.roots.output).module =
      last.root.see? (s.outputs stages.roots.output).module)
    (htime : timeOf disk.root stages.roots.input s (s.stylesheet? stages.sources) = .ok time)
    (htime' : timeOf later.root stages'.roots.input s (s.stylesheet? stages'.sources) = .ok time')
    (hbound : |time| < 2 ^ 33 * 10 ^ 9) (hbound' : |time'| < 2 ^ 33 * 10 ^ 9)
    (hedit : time / 10 ^ 6 ≠ time' / 10 ^ 6) :
    s.label ∉ report'.cached ∧
      (s.label ∈ report'.written ∨ ∃ error, ⟨s.label, error⟩ ∈ report'.failures) := by
  have hsound := h.sound (covers_batches _) hspelled hv
  have hsound' := h'.sound (covers_batches _) hspelled' hv'
  obtain ⟨hs, hkind⟩ := mem_markupOf.1 hd'.mem
  obtain ⟨outcome, ho⟩ := hsound'.mem_iff.1 (mem_markupOf.1 hd'.mem)
  have hnot : outcome ≠ .cached := by
    rintro rfl
    obtain ⟨marker, hmarker, hbears⟩ := h.bears (covers_batches _) hsound hd hclean hlink
    rw [← hmodule, ← houtput] at hlink
    obtain ⟨marker', hmarker', hseen⟩ :=
      h'.marker_of_cached (covers_batches _) hsound' hd' ho hlink
    -- the marker that the second run finds is the one that the first run has left
    obtain ⟨bytes, modified, hfile, hread⟩ := of_markerSeen hseen
    rw [houtput, hmodule] at hfile
    rw [hfile] at hbears
    have hsame : marker' = marker := hbears.eq_of_markerIn? hread
    obtain ⟨first, second, hfirst, hsecond, -, -, hexact, -⟩ :=
      marker_exact (timeOf_of_holds htime h.widened.holds)
        (timeOf_of_holds htime' h'.widened.holds) hbound hbound'
    rw [hmarker] at hfirst
    rw [hmarker'] at hsecond
    cases hfirst
    cases hsecond
    exact hedit (hexact.1 hsame.symm)
  rw [h'.report_eq, hsound'.label_mem_cached hs hkind, hsound'.label_mem_written hs hkind]
  refine ⟨fun hcached => hnot (hsound'.outcome_unique ho hcached), ?_⟩
  cases outcome with
  | cached => exact absurd rfl hnot
  | written paths => exact .inl ⟨paths, ho⟩
  | failed e => exact .inr ⟨e.report, (hsound'.mem_failures hs hkind).2 ⟨e, ho, rfl⟩⟩

/-! ### Edits -/

/-- The bytes and the time of the file that a path leads to, if it leads to one. -/
def readAt (files : Entry) (path : Path) : Option (List UInt8 × Int) :=
  match contents files path, modified files path with
  | .ok bytes, .ok time => some (bytes, time)
  | _, _ => none

/-- **A file is changed**: it comes or goes, or it has other contents and a time in another
millisecond. -/
def Changed : Option (List UInt8 × Int) → Option (List UInt8 × Int) → Prop
  | none, none => False
  | none, some _ => True
  | some _, none => True
  | some (bytes, time), some (bytes', time') =>
    bytes ≠ bytes' ∧ time / 10 ^ 6 ≠ time' / 10 ^ 6

instance : ∀ before after, Decidable (Changed before after)
  | none, none => .isFalse id
  | none, some _ => .isTrue trivial
  | some _, none => .isTrue trivial
  | some (bytes, time), some (bytes', time') =>
    inferInstanceAs (Decidable (bytes ≠ bytes' ∧ time / 10 ^ 6 ≠ time' / 10 ^ 6))

/-- The place of the stylesheet beside a source. -/
def Source.sheetPath (root : Path) (s : Source) : Path :=
  ({ s with kind := .stylesheet } : Source).path root

/-- **An edit of the inputs of a source**: its markup is changed, or the stylesheet beside it, or
both, and nothing else. -/
structure Edits (root : Path) (s : Source) (before after : Entry) : Prop where
  /-- The markup is changed or left. -/
  markup : readAt after (s.path root) = readAt before (s.path root) ∨
    Changed (readAt before (s.path root)) (readAt after (s.path root))
  /-- So is the stylesheet. -/
  sheet : readAt after (s.sheetPath root) = readAt before (s.sheetPath root) ∨
    Changed (readAt before (s.sheetPath root)) (readAt after (s.sheetPath root))
  /-- One of them is changed. -/
  changed : Changed (readAt before (s.path root)) (readAt after (s.path root)) ∨
    Changed (readAt before (s.sheetPath root)) (readAt after (s.sheetPath root))
  /-- Nothing else is. -/
  elsewhere : ∀ q, resolve before (s.path root) ≠ .ok q → resolve before (s.sheetPath root) ≠ .ok q →
    after.see? q = before.see? q

/-- The file system of a disk with something else in one place, or with nothing there. -/
def edited (last : Disk) (way : Path) (name : Str) (entry : Option Entry) (now : Int) : Disk where
  root := last.root.put entry (way ++ [name])
  now := now

/-- An edit of one file leaves everything else. -/
theorem edited_see? {way : Path} {name : Str} {entry : Option Entry} {now : Int}
    (hdir : last.root.see? way = some .directory)
    (hbefore : last.root.see? (way ++ [name]) ≠ some .directory)
    (hafter : (edited last way name entry now).root.see? (way ++ [name]) ≠ some .directory)
    (hq : q ≠ way ++ [name]) :
    (edited last way name entry now).root.see? q = last.root.see? q := by
  by_cases hbelow : way ++ [name] <+: q
  · -- below a file there is nothing, nor where there is none
    obtain ⟨rest, rfl⟩ := hbelow
    have hrest : rest ≠ [] := fun he => hq (by rw [he, List.append_nil])
    rw [Entry.see?_below_none hbefore hrest, Entry.see?_below_none hafter hrest]
  · obtain ⟨members, hat⟩ := Entry.see?_eq_some_directory.1 hdir
    rw [edited, Entry.see?_put hat, if_neg hbelow]

/-! ### An edit that is noticed -/

/-- **A disk on which a run tells a source from its outputs**: all of this can be checked at once. -/
structure Discernible (config : Config) (disk : Disk) (sources : List Source) (s : Source) :
    Prop where
  /-- The file system is valid. -/
  valid : disk.root.Valid
  /-- The roots are those of the configuration. -/
  roots : ((openRoots config).runOn disk).1 = .ok (rootsOf config)
  /-- These are the sources. -/
  found : foundBy config disk = .ok sources
  /-- The source is among them. -/
  mem : s ∈ markupOf sources
  /-- The drafts are reached without links. -/
  unlinked : ∀ t ∈ markupOf sources, Unlinked (afterOpening config disk).root config.outputRoot t
  /-- The sources are read without the outputs. -/
  inView : ∀ t ∈ sources, isFile (inputView config disk) (t.path config.inputRoot) = .ok true

theorem Discernible.discerns (hd : Discernible config disk sources s)
    (h : Works plan config occasion disk stages) (hne : config.outputRoot ≠ []) :
    stages.Discerns s := by
  obtain ⟨hroots, rfl⟩ := h.of_found hd.found hd.roots
  have hunlinked := hd.unlinked
  rw [← h.opened_eq] at hunlinked
  refine ⟨hd.mem, ?_, inputView config disk, ?_, ?_, ?_⟩
  · rwa [hroots]
  · rw [h.opened_eq]
    exact inputView_holds hne
  · intro q hq
    rw [hroots] at hq
    obtain ⟨way, name, he⟩ := (List.eq_nil_or_concat config.outputRoot).resolve_left hne
    rw [rootsOf, he, List.concat_eq_append] at hq
    rw [inputView, he, List.concat_eq_append, Entry.see?_put_none, if_pos hq]
  · rw [hroots]
    exact inView_of_mem hd.inView (mem_markupOf.1 hd.mem).1

/-- A page with one named element. -/
def page (name : String) (time : Int) : Entry :=
  .file (Utf8.encode ("<!doctype html><p id='".toList ++ name.toList ++ "'>".toList)) time

/-- A disk with a source that has an older stylesheet beside it. -/
def paired : Disk where
  root := .directory
    [("src".toList, .directory
      [("a.css".toList, .file (Utf8.encode ".x{}".toList) 1600000000000000000),
        ("a.html".toList, page "p" 1650000000000000000)])]
  now := 1700000000000000000

/-- The source. -/
def pairedSource : Source := ⟨[], "a".toList, .markup⟩

/-- The report on its runs. The directory that the path to the log steps back from is removed. -/
def pairedReport : Report := ⟨["a.html".toList], [], ["sub".toList], []⟩

/-- The disk after that run, with a newer stylesheet. -/
def restyled : Disk :=
  edited ((run loggedConfig turningOccasion).runOn paired).2 ["src".toList] "a.css".toList
    (some (.file (Utf8.encode ".y{}".toList) 1690000000000000000)) 1700000000000000000

/-- The configuration of the next run. -/
def restyledConfig : Config := { loggedConfig with workers := 1 }

/-- What is found on both disks. -/
def pairedSources : List Source := [⟨[], "a".toList, .stylesheet⟩, pairedSource]

theorem paired_discernible : Discernible loggedConfig paired pairedSources pairedSource := by
  obtain ⟨hv, hroots, hfound, hunlinked, hview⟩ : paired.root.Valid ∧
      ((openRoots loggedConfig).runOn paired).1 = .ok (rootsOf loggedConfig) ∧
      foundBy loggedConfig paired = .ok pairedSources ∧
      (∀ t ∈ markupOf pairedSources,
        Unlinked (afterOpening loggedConfig paired).root loggedConfig.outputRoot t) ∧
      ∀ t ∈ pairedSources,
        isFile (inputView loggedConfig paired) (t.path loggedConfig.inputRoot) = .ok true := by
    decide +kernel
  exact ⟨hv, hroots, hfound, by decide, hunlinked, hview⟩

/-- What comes out of the edit, all at once. -/
theorem restyled_facts :
    (restyled.root.Valid ∧
      ((openRoots restyledConfig).runOn restyled).1 = .ok (rootsOf restyledConfig) ∧
      foundBy restyledConfig restyled = .ok pairedSources ∧
      (∀ t ∈ markupOf pairedSources,
        Unlinked (afterOpening restyledConfig restyled).root restyledConfig.outputRoot t) ∧
      ∀ t ∈ pairedSources,
        isFile (inputView restyledConfig restyled) (t.path restyledConfig.inputRoot) = .ok true) ∧
    ((run restyledConfig plainOccasion).runOn restyled).1 = .ok pairedReport ∧
    timeOf restyled.root restyledConfig.inputRoot pairedSource
      (pairedSource.stylesheet? pairedSources) = .ok 1690000000000000000 ∧
    restyled.root.see? (pairedSource.outputs restyledConfig.outputRoot).module =
      ((run loggedConfig turningOccasion).runOn paired).2.root.see?
        (pairedSource.outputs restyledConfig.outputRoot).module ∧
    Sight.isLink (restyled.root.see? (pairedSource.outputs restyledConfig.outputRoot).module) =
      false := by
  decide +kernel

/-- A newer stylesheet is noticed. -/
theorem run_notices_restyled :
    ((run loggedConfig turningOccasion).runOn paired).1 = .ok pairedReport ∧
      ((run restyledConfig plainOccasion).runOn restyled).1 = .ok pairedReport ∧
      pairedSource.label ∉ pairedReport.cached := by
  have hrun : ((run loggedConfig turningOccasion).runOn paired).1 = .ok pairedReport := by
    decide +kernel
  obtain ⟨⟨hv', hroots', hfound', hunlinked', hview'⟩, hrun', htime', hmodule, hlink⟩ :=
    restyled_facts
  have hd := paired_discernible
  have hd' : Discernible restyledConfig restyled pairedSources pairedSource :=
    ⟨hv', hroots', hfound', by decide, hunlinked', hview'⟩
  obtain ⟨stages, h⟩ := exists_completes (Work.runOn_eq_of_end hrun)
  obtain ⟨stages', h'⟩ := exists_completes (Work.runOn_eq_of_end hrun')
  obtain ⟨heq, hsources⟩ := h.of_found hd.found hd.roots
  obtain ⟨heq', hsources'⟩ := h'.of_found hd'.found hd'.roots
  have houtput : stages'.roots.output = stages.roots.output := by rw [heq, heq']; rfl
  have htime : timeOf paired.root stages.roots.input pairedSource
      (pairedSource.stylesheet? stages.sources) = .ok 1650000000000000000 := by
    rw [heq, hsources]
    decide +kernel
  rw [← hsources', ← show stages'.roots.input = restyledConfig.inputRoot by rw [heq']; rfl] at htime'
  refine ⟨hrun, hrun', (run_notices hd.valid hd'.valid ⟨by decide, by decide, by decide⟩
    ⟨by decide, by decide, by decide⟩ h h' houtput (hd.discerns h.toWorks (by decide))
    (hd'.discerns h'.toWorks (by decide)) (fun _ h => absurd h List.not_mem_nil) ?_ ?_ htime htime'
    (by decide) (by decide) (by decide)).1⟩
  · rw [heq]
    exact Sight.isLink_eq_false.1 (hmodule ▸ hlink)
  · rw [heq]
    exact hmodule

/-! ### Edits that are not noticed -/

/-- **An edit that is not noticed**: after a run without failures the inputs of a source are edited,
and the next run takes it for current. -/
structure Misses (config config' : Config) (disk later : Disk) (s : Source) : Prop where
  /-- The run reports no failures. -/
  clean : ∃ report ∈ ((run config plainOccasion).runOn disk).1.toOption, report.failures = []
  /-- The inputs are edited. -/
  edits : Edits config.inputRoot s ((run config plainOccasion).runOn disk).2.root later.root
  /-- The next run reports that the source is current. -/
  cached : ∃ report ∈ ((run config' plainOccasion).runOn later).1.toOption, s.label ∈ report.cached

/-- Whether one edited file makes for an edit that is not noticed can be checked at once. -/
theorem Misses.of_check {way : Path} {name : Str} {entry : Option Entry} {now : Int}
    (hlast : ((run config plainOccasion).runOn disk).2 = last)
    (h : (∃ report ∈ ((run config plainOccasion).runOn disk).1.toOption, report.failures = []) ∧
      (last.root.see? way = some .directory ∧ last.root.see? (way ++ [name]) ≠ some .directory ∧
        (edited last way name entry now).root.see? (way ++ [name]) ≠ some .directory) ∧
      (resolve last.root (s.path config.inputRoot) = .ok (way ++ [name]) ∧
          Changed (readAt last.root (s.path config.inputRoot))
            (readAt (edited last way name entry now).root (s.path config.inputRoot)) ∧
          readAt (edited last way name entry now).root (s.sheetPath config.inputRoot) =
            readAt last.root (s.sheetPath config.inputRoot) ∨
        resolve last.root (s.sheetPath config.inputRoot) = .ok (way ++ [name]) ∧
          Changed (readAt last.root (s.sheetPath config.inputRoot))
            (readAt (edited last way name entry now).root (s.sheetPath config.inputRoot)) ∧
          readAt (edited last way name entry now).root (s.path config.inputRoot) =
            readAt last.root (s.path config.inputRoot)) ∧
      ∃ report ∈ ((run config' plainOccasion).runOn (edited last way name entry now)).1.toOption,
        s.label ∈ report.cached) :
    Misses config config' disk (edited last way name entry now) s := by
  obtain ⟨hclean, ⟨hdir, hbefore, hafter⟩, hedit, hcached⟩ := h
  subst hlast
  refine ⟨hclean, ?_, hcached⟩
  rcases hedit with ⟨hplace, hchanged, hleft⟩ | ⟨hplace, hchanged, hleft⟩
  · exact ⟨.inr hchanged, .inl hleft, .inl hchanged, fun q hq _ =>
      edited_see? hdir hbefore hafter fun he => hq (he ▸ hplace)⟩
  · exact ⟨.inl hleft, .inr hchanged, .inr hchanged, fun q _ hq =>
      edited_see? hdir hbefore hafter fun he => hq (he ▸ hplace)⟩

/-- What a run leaves. -/
def leftBy (config : Config) (disk : Disk) : Disk := ((run config plainOccasion).runOn disk).2

/-- A disk with these sources and outputs. -/
def siteDisk (sources outputs : List (Str × Entry)) : Disk where
  root := .directory [("src".toList, .directory sources), ("out".toList, .directory outputs)]
  now := 1700000000000000000

/-- A page that begins with the marker of the first moment of a year. -/
def markedPage (year : String) (time : Int) : Entry :=
  .file (Utf8.encode ("// ".toList ++ year.toList ++ "-01-01T00:00:00.000Z\n".toList)) time

/-- A disk on which a module is a link to its source, which begins with the marker of its time. -/
def selfMarked : Disk :=
  siteDisk [("a.html".toList, markedPage "2020" 1577836800000000000)]
    [("a.ts".toList, .link "../src/a.html".toList)]

/-- A disk on which the draft of a module is a link to the module of another source. -/
def misled : Disk :=
  siteDisk [("a.html".toList, page "p" 1650000000000000000),
      ("b.html".toList, page "q" 1600000000000000000)]
    [("b.ts.tmp".toList, .link "a.ts".toList)]

/-- A disk on which a source is a link to the module of another one, where there is an old page, with
a time that is still to come. -/
def lookingBack : Disk :=
  siteDisk [("a.html".toList, .link "../out/b.ts".toList),
      ("b.html".toList, page "q" 1600000000000000000)]
    [("b.ts".toList, page "p" 1800000000000000000)]

/-- A disk with another output directory, in which there is a module from the future of its source. -/
def planted : Disk where
  root := .directory
    [("src".toList, .directory [("a.html".toList, page "p" 1650000000000000000)]),
      ("other".toList, .directory [("a.ts".toList, markedPage "2020" 0)])]
  now := 1700000000000000000

/-- A disk with a source whose time is beyond those that markers are exact for. -/
def late : Disk := siteDisk [("a.html".toList, page "p" (2 ^ 33 * 10 ^ 9))] []

/-- The configuration of runs that log to a stylesheet. -/
def sheetLogConfig : Config := { plainConfig with auditLog := some ["src".toList, "a.css".toList] }

/-- **Not every edit is noticed.** The marker does not tell whether there is a stylesheet that is older
than the markup beside it. A module that is a link to its source looks like a current one, a draft that
is a link brings a module to where another one is, and a module that is read as an input gets a new
time during a run. A run that logs to an input changes its time after the marker was taken. Another
output directory holds other modules, and in distant years two milliseconds have one stamp. -/
theorem run_misses_edit :
    Misses plainConfig plainConfig paired
        (edited (leftBy plainConfig paired) ["src".toList] "a.css".toList none
          1700000000000000000) pairedSource ∧
      Misses plainConfig plainConfig selfMarked
        (edited (leftBy plainConfig selfMarked) ["src".toList] "a.html".toList
          (some (markedPage "2021" 1609459200000000000)) 1700000000000000000) pairedSource ∧
      Misses plainConfig plainConfig misled
        (edited (leftBy plainConfig misled) ["src".toList] "a.html".toList
          (some (page "r" 1600000000000000000)) 1700000000000000000) pairedSource ∧
      Misses plainConfig { plainConfig with workers := 1 } lookingBack
        (edited (leftBy plainConfig lookingBack) ["out".toList] "b.ts".toList
          (some (page "r" 1650000000000000000)) 1800000000000000000) pairedSource ∧
      Misses sheetLogConfig sheetLogConfig paired
        (edited (leftBy sheetLogConfig paired) ["src".toList] "a.css".toList none
          1700000000000000000) pairedSource ∧
      Misses plainConfig { plainConfig with outputRoot := ["other".toList] } planted
        (edited (leftBy plainConfig planted) ["src".toList] "a.html".toList
          (some (page "q" 1577836800000000000)) 1700000000000000000) pairedSource ∧
      Misses plainConfig plainConfig late
        (edited (leftBy plainConfig late) ["src".toList] "a.html".toList
          (some (page "q" (2 ^ 33 * 10 ^ 9 + 10 ^ 6))) 1700000000000000000) pairedSource :=
  ⟨.of_check rfl (by decide +kernel), .of_check rfl (by decide +kernel),
    .of_check rfl (by decide +kernel), .of_check rfl (by decide +kernel),
    .of_check rfl (by decide +kernel), .of_check rfl (by decide +kernel),
    .of_check rfl (by decide +kernel)⟩

end Build
end TemplateBindings
