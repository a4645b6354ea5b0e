import TemplateBindings.Proofs.Build.Discovering
import TemplateBindings.Proofs.Build.Isolation
import TemplateBindings.Proofs.Build.Returning

/-!
# Running again

A run that is followed by another one, with the sources as they were, leaves nothing to do for it
(`TemplateBindings.Build.run_again_rests`): what the first run wrote is current for the second, what
failed fails again, and the directories that are made for a failed source are taken away once more.
That takes sources that are not read through the outputs and do not get in each other's way, and whose
modules are text (`TemplateBindings.Build.run_again_rereads`).
-/

namespace TemplateBindings

namespace Files

/-- **An operation that keeps the files**: it makes or removes a directory, or adds to the log. -/
def Operation.KeepsFiles (log : Option Path) : Operation → Prop
  | .makeDirectory _ | .removeDirectory _ => True
  | .append path _ => path ∈ log
  | _ => False

end Files

namespace Build

open Files

variable {plan : List Source → List (List Source)} {config : Config} {occasion occasion' : Occasion}
  {disk opened worked last later reopened worked' last' : Disk} {sources : List Source}
  {todo : List (List Source)} {outcomes outcomes' : List (Source × Outcome)} {report : Report}
  {paths paths' : List Path} {operations operations' : List Operation} {s : Source} {q : Path}
  {sight : Sight} {outcome : Outcome}

/-! ### Outcomes again -/

/-- **The outcome of a source when a run is repeated.** -/
def Outcome.again : Outcome → Outcome
  | .written _ => .cached
  | outcome => outcome

/-- **What a report says when its run is repeated**: what was written is current, and what failed
fails with the same errors. -/
structure Report.Repeats (report report' : Report) : Prop where
  /-- Nothing is written. -/
  written : report'.written = []
  /-- What was written is current now. -/
  cached : report'.cached = Text.sorted (report.written ++ report.cached)
  /-- The failures are the same. -/
  failures : report'.failures = report.failures

theorem reportOn_again (outcomes : List (Source × Outcome)) (removed removed' : List Str) :
    (reportOn outcomes removed).Repeats
      (reportOn (outcomes.map fun o => (o.1, o.2.again)) removed') where
  written := by
    have hnone : (outcomes.map fun o => (o.1, o.2.again)).filter (·.2.isWritten) = [] := by
      refine List.filter_eq_nil_iff.2 fun o ho => ?_
      obtain ⟨⟨s, outcome⟩, -, rfl⟩ := List.mem_map.1 ho
      cases outcome <;> simp [Outcome.again, Outcome.isWritten]
    rw [reportOn, hnone]
    rfl
  cached := by
    have hperm : (((outcomes.map fun o => (o.1, o.2.again)).filter (·.2 = .cached)).map
        (·.1.label)).Perm ((outcomes.filter (·.2.isWritten)).map (·.1.label) ++
          (outcomes.filter (·.2 = .cached)).map (·.1.label)) := by
      induction outcomes with
      | nil => exact .refl _
      | cons o outcomes ih =>
        obtain ⟨s, outcome⟩ := o
        cases outcome with
        | written artifacts => exact ih.cons s.label
        | cached => exact (ih.cons s.label).trans List.perm_middle.symm
        | failed e => exact ih
    refine Text.sorted_eq_of_perm (hperm.trans ?_)
    exact (Text.orderedBy_perm id _).symm.append (Text.orderedBy_perm id _).symm
  failures := by
    have hsame : (outcomes.map fun o => (o.1, o.2.again)).filterMap (fun o => failure? o.1 o.2) =
        outcomes.filterMap fun o => failure? o.1 o.2 := by
      rw [List.filterMap_map]
      refine List.filterMap_congr fun o _ => ?_
      obtain ⟨s, outcome⟩ := o
      cases outcome <;> rfl
    rw [reportOn, reportOn, hsame]

/-! ### The work of a run -/

/-- **The work of a steady run**, from the disk with its roots opened. -/
structure WorkDone (config : Config) (sources : List Source) (todo : List (List Source))
    (opened worked : Disk) (outcomes : List (Source × Outcome)) : Prop where
  /-- The run is steady. -/
  steady : Steady (rootsOf config) sources todo opened.root
  /-- The file system is valid. -/
  valid : worked.root.Valid
  /-- The work is done. -/
  done : ∃ trace, Done (rootsOf config) sources todo.flatten opened worked outcomes trace

theorem Steady.workDone {turns : List (List Nat)} (hv : opened.root.Valid)
    (h : Steady (rootsOf config) sources todo opened.root)
    (hworks : (workThrough (rootsOf config) sources turns todo).run opened = (outcomes, worked)) :
    WorkDone config sources todo opened worked outcomes := by
  obtain ⟨trace, hdone⟩ := h.done turns
  rw [hworks] at hdone
  exact ⟨h, hdone.worked.performs.undergoes.valid hv, trace, hdone⟩

section WorkDone

variable (h : WorkDone config sources todo opened worked outcomes)

include h

/-- The places of the sources are touched, and nothing else. -/
theorem WorkDone.touches :
    Touches config.outputRoot todo.flatten opened.root.see? worked.root.see? := by
  obtain ⟨trace, hdone⟩ := h.done
  exact h.steady.touches (fun _ ht => ht) hdone.worked.performs

theorem WorkDone.root : OutputRoot worked.root config.outputRoot :=
  h.steady.root_of_touches h.touches

theorem WorkDone.directory (hq : opened.root.see? q = some .directory) :
    worked.root.see? q = some .directory :=
  h.steady.directory_of_touches h.touches hq

theorem WorkDone.outside (hq : ¬ config.outputRoot <+: q) :
    worked.root.see? q = opened.root.see? q :=
  h.touches.outside h.steady.orderly.regular h.steady.root.directory hq

theorem WorkDone.settled (hset : config.Settled opened.root) : config.Settled worked.root where
  input_proper := hset.input_proper
  input_plain := h.touches.plain hset.input_plain
  output_proper := hset.output_proper
  output_plain := h.touches.plain hset.output_plain
  apart := hset.apart
  log_proper := hset.log_proper
  log_plain log hl := h.touches.plain (hset.log_plain log hl)

/-- The outcomes are those of what is due. -/
theorem WorkDone.mem_outcomes : (s, outcome) ∈ outcomes ↔ s ∈ todo.flatten ∧
    outcome = outcomeOf config.outputRoot s (due opened.root (rootsOf config) sources s) := by
  obtain ⟨trace, hdone⟩ := h.done
  constructor
  · intro ho
    exact ⟨hdone.worked.perm.subset (List.mem_map_of_mem ho), (hdone.settled _ ho).outcome_eq⟩
  · rintro ⟨hs, rfl⟩
    obtain ⟨⟨t, outcome⟩, ho, rfl⟩ := List.mem_map.1 (hdone.worked.perm.symm.subset hs)
    have heq := (hdone.settled _ ho).outcome_eq
    dsimp only [rootsOf] at heq ⊢
    rwa [heq] at ho

/-- The directory of a stale source is made. -/
theorem WorkDone.entered (hs : s ∈ todo.flatten)
    (hstale : IsStale opened.root (rootsOf config) sources s)
    (hq : q <+: s.directory config.outputRoot) : worked.root.see? q = some .directory := by
  obtain ⟨trace, hdone⟩ := h.done
  exact Entry.see?_directory_of_prefix_directory hq (hdone.entered s hs hstale)

/-- **Where no source is written** only directories of stale sources are made. -/
theorem WorkDone.idle
    (hnot : ∀ s ∈ todo.flatten, ∀ made,
      due opened.root (rootsOf config) sources s ≠ .ok (some made)) (q : Path) :
    worked.root.see? q = opened.root.see? q ∨
      worked.root.see? q = some .directory ∧ ∃ s ∈ todo.flatten,
        IsStale opened.root (rootsOf config) sources s ∧
          q <+: s.directory config.outputRoot := by
  by_cases hway : ∃ s ∈ todo.flatten,
      IsStale opened.root (rootsOf config) sources s ∧ q <+: s.directory config.outputRoot
  · obtain ⟨s, hs, hstale, hq⟩ := hway
    exact .inr ⟨h.entered hs hstale hq, s, hs, hstale, hq⟩
  · obtain ⟨trace, hdone⟩ := h.done
    rw [hdone.see?_eq h.steady.orderly]
    refine .inl (afterJobs_of_leaves fun s hs => Job.leaves_of_not_concerns fun hconcerns => ?_)
    cases hjob : jobOf opened.root (rootsOf config) sources s with
    | idle =>
      rw [hjob] at hconcerns
      exact hconcerns
    | enter =>
      rw [hjob] at hconcerns
      refine hway ⟨s, hs, ?_, hconcerns⟩
      by_contra hidle
      cases hjob.symm.trans (jobOf_idle.2 hidle)
    | deliver made => exact hnot s hs made (jobOf_deliver.1 hjob)

/-- Then it is done by making directories. -/
theorem WorkDone.making
    (hnot : ∀ s ∈ todo.flatten, ∀ made,
      due opened.root (rootsOf config) sources s ≠ .ok (some made)) :
    ∃ operations, opened.Undergoes operations worked ∧
      ∀ operation ∈ operations, ∃ way, operation = .makeDirectory way := by
  obtain ⟨trace, hdone⟩ := h.done
  refine ⟨_, hdone.worked.performs.undergoes, fun operation ho => ?_⟩
  obtain ⟨⟨s, operation⟩, hm, rfl⟩ := List.mem_map.1 ho
  have hs := (hdone.worked.serves _ hm).1
  obtain ⟨outcome, hsettled⟩ := hdone.settled_of_mem hs
  obtain ⟨directories, hmaking, -, he⟩ := hsettled.operations_eq
  have hown : operation ∈ Thread.actsOf s trace := Thread.mem_actsOf.2 hm
  have hnothing : writesOf (s.directory config.outputRoot)
      (due opened.root (rootsOf config) sources s) = [] := by
    rcases hdue : due opened.root (rootsOf config) sources s with e | _ | made
    · rfl
    · rfl
    · exact absurd hdue (hnot s hs made)
  rw [he] at hown
  rcases List.mem_append.1 hown with hown | hown
  · obtain ⟨way, -, rfl⟩ := hmaking operation hown
    exact ⟨way, rfl⟩
  · exact absurd (hnothing ▸ hown) List.not_mem_nil

/-- What a run keeps: its log, and what its outcomes keep. -/
theorem WorkDone.mem_keep : q ∈ keepOf config outcomes ↔ q ∈ config.auditLog ∨
    ∃ s ∈ todo.flatten, q ∈ (outcomeOf config.outputRoot s
      (due opened.root (rootsOf config) sources s)).keeps (s.outputs config.outputRoot) := by
  rw [keepOf, List.mem_append, Option.mem_toList, kept, List.mem_flatMap]
  refine or_congr_right ⟨?_, ?_⟩
  · rintro ⟨⟨s, outcome⟩, ho, hq⟩
    obtain ⟨hs, rfl⟩ := h.mem_outcomes.1 ho
    exact ⟨s, hs, hq⟩
  · rintro ⟨s, hs, hq⟩
    exact ⟨(s, _), h.mem_outcomes.2 ⟨hs, rfl⟩, hq⟩

end WorkDone

/-! ### What is due again -/

/-- The files that are due for a source are text. -/
def Encodes (files : Entry) (roots : Roots) (sources : List Source) (source : Source) : Prop :=
  ∀ made, due files roots sources source = .ok (some made) → firstFault? made = none

/-- **Where the files that were due are in place**, nothing is due any more. -/
theorem due_of_written {first files : Entry} {roots : Roots} {made : List (Str × Str)}
    (hs : s.Regular) (hkind : s.kind = .markup) (hroot : OutputRoot first roots.output)
    (hroot' : OutputRoot files roots.output) (hready : Ready first roots.output s)
    (hready' : Ready files roots.output s)
    (hmarkers : markerOf first roots.input s (s.stylesheet? sources) =
      markerOf files roots.input s (s.stylesheet? sources))
    (hdue : due first roots sources s = .ok (some made)) (hfault : firstFault? made = none)
    (hplaced : ∀ file ∈ made, ∃ time, files.see? (s.directory roots.output ++ [file.1]) =
      some (.file file.2.bytes time)) :
    due files roots sources s = .ok none := by
  obtain ⟨marker, artifacts, hstale, hcompiled, rfl, -⟩ := of_due hdue
  obtain ⟨hmarker, existing, hexisting, -⟩ := of_staleMarker? hstale
  -- the module that was written carries the marker
  have hmem : (s.name ++ moduleSuffix, artifacts.module) ∈ artifactFiles s.name artifacts := by
    simp [artifactFiles]
  obtain ⟨time, hmodule⟩ := hplaced _ hmem
  have hnone : faultOf? artifacts.module = none := List.findSome?_eq_none_iff.1 hfault _ hmem
  refine due_of_current (hmarkers.symm.trans hmarker) ?_
  rw [existingMarker_eq hroot hs hkind hready, markerAt] at hexisting
  rw [existingMarker_eq hroot' hs hkind hready', markerAt]
  split at hexisting
  · cases hexisting
  · next hlimit =>
    rw [if_neg hlimit, Source.module_eq hs, hmodule,
      markerSeen_compileSource hmarker hcompiled hnone]

/-- **What is due for a source after a run has dealt with it**: nothing if it was written, and the same
if it was not. -/
theorem Deals.due_again (h : Deals config disk last report sources s) (hs : s.Regular)
    (hkind : s.kind = .markup) (hne : config.outputRoot ≠ [])
    (hencodes : Encodes (afterOpening config disk).root (rootsOf config) sources s)
    (hroot : OutputRoot (afterOpening config disk).root config.outputRoot)
    (hroot' : OutputRoot reopened.root config.outputRoot)
    (hready : Ready (afterOpening config disk).root config.outputRoot s)
    (hready' : Ready reopened.root config.outputRoot s)
    (hinputs : SameInputs (inputView config disk) (reopened.root.put none config.outputRoot)
      config.inputRoot sources sources s)
    (hh' : (reopened.root.put none config.outputRoot).Holds reopened.root)
    (hleft : ∀ q ∈ (s.outputs config.outputRoot).all, reopened.root.see? q = last.root.see? q) :
    outcomeOf config.outputRoot s (due reopened.root (rootsOf config) sources s) =
        (outcomeOf config.outputRoot s
          (due (afterOpening config disk).root (rootsOf config) sources s)).again ∧
      (∀ made, due reopened.root (rootsOf config) sources s ≠ .ok (some made)) ∧
      (IsStale reopened.root (rootsOf config) sources s →
        IsStale (afterOpening config disk).root (rootsOf config) sources s) := by
  generalize hfirst : (afterOpening config disk).root = first at *
  have hh : (inputView config disk).Holds first := hfirst ▸ inputView_holds hne
  -- where nothing was written, the module is as it was
  have hsame (hnot : ∀ made, due first (rootsOf config) sources s ≠ .ok (some made)) :
      due first (rootsOf config) sources s = due reopened.root (rootsOf config) sources s ∧
        jobOf first (rootsOf config) sources s =
          jobOf reopened.root (rootsOf config) sources s := by
    refine @due_sameInputs _ _ _ _ _ _ _ (rootsOf config) hinputs hh hh'
      (existingMarker_congr hroot hroot' hs hkind hready hready' (congrArg markerSeen ?_))
    subst hfirst
    exact ((hleft _ List.mem_cons_self).trans (h.unwritten hs hnot List.mem_cons_self)).symm
  have hagain (hnot : ∀ made, due first (rootsOf config) sources s ≠ .ok (some made))
      (hself : outcomeOf config.outputRoot s (due first (rootsOf config) sources s) =
        (outcomeOf config.outputRoot s (due first (rootsOf config) sources s)).again) :
      outcomeOf config.outputRoot s (due reopened.root (rootsOf config) sources s) =
          (outcomeOf config.outputRoot s (due first (rootsOf config) sources s)).again ∧
        (∀ made, due reopened.root (rootsOf config) sources s ≠ .ok (some made)) ∧
        (IsStale reopened.root (rootsOf config) sources s →
          IsStale first (rootsOf config) sources s) := by
    obtain ⟨hdue, hjob⟩ := hsame hnot
    rw [← hdue]
    exact ⟨hself, hnot, isStale_of_jobOf_eq hjob.symm⟩
  rcases hdue : due first (rootsOf config) sources s with e | _ | made
  · rw [hdue] at hagain
    exact hagain (fun _ he => by cases he) rfl
  · rw [hdue] at hagain
    exact hagain (fun _ he => by cases he) rfl
  · have hfault := hencodes made hdue
    obtain ⟨marker, artifacts, hstale, -, rfl, -⟩ := of_due hdue
    have hnone : due reopened.root (rootsOf config) sources s = .ok none := by
      refine @due_of_written _ _ first _ (rootsOf config) _ hs hkind hroot hroot' hready hready'
        (@markerOf_sameInputs _ _ _ _ _ _ _ (rootsOf config) hinputs hh hh') hdue hfault
        fun file hfile => ?_
      have hq : s.directory config.outputRoot ++ [file.1] ∈ (s.outputs config.outputRoot).all :=
        (Source.mem_outputs hs).2 ⟨_, mem_outputNames_of_artifactFiles hfile, rfl⟩
      have hkept := h.left _ hq
      rw [hfirst, hdue, jobOf_deliver.2 hdue, outcomeOf, hfault, if_pos] at hkept
      · exact ⟨_, (hleft _ hq).trans
          (hkept.trans (effects_writing (distinct_artifactFiles artifacts) hfault hfile))⟩
      · exact List.mem_map.2 ⟨_, List.mem_map.2 ⟨_, hfile, rfl⟩, rfl⟩
    rw [hnone, outcomeOf, outcomeOf, hfault]
    refine ⟨rfl, fun _ he => ?_, fun _ => ⟨marker, hstale⟩⟩
    cases he

/-! ### Two runs -/

/-- **Two runs, one after the other**, up to the end of the work of the second. -/
structure Twice (config : Config) (sources : List Source) (todo : List (List Source))
    (opened worked : Disk) (outcomes : List (Source × Outcome)) (last reopened worked' : Disk)
    (outcomes' : List (Source × Outcome)) : Prop where
  /-- The log is not among the outputs. -/
  apart : ∀ log ∈ config.auditLog, ¬ config.outputRoot <+: log
  /-- The work of the first run. -/
  first : WorkDone config sources todo opened worked outcomes
  /-- All that is written is text. -/
  encodes : ∀ s ∈ todo.flatten, Encodes opened.root (rootsOf config) sources s
  /-- Its end. -/
  ends : ∃ paths operations, Concludes config outcomes worked last paths operations
  /-- The roots are opened again. -/
  opens : reopened.root.see? =
    Function.update last.root.see? config.outputRoot (some .directory)
  /-- The work of the second run. -/
  second : WorkDone config sources todo reopened worked' outcomes'
  /-- Its outcomes are those of the first run again. -/
  again : ∀ s ∈ todo.flatten,
    outcomeOf config.outputRoot s (due reopened.root (rootsOf config) sources s) =
      (outcomeOf config.outputRoot s (due opened.root (rootsOf config) sources s)).again
  /-- It writes nothing. -/
  unwritten : ∀ s ∈ todo.flatten, ∀ made,
    due reopened.root (rootsOf config) sources s ≠ .ok (some made)
  /-- A source that is stale was stale before. -/
  stale : ∀ s ∈ todo.flatten, IsStale reopened.root (rootsOf config) sources s →
    IsStale opened.root (rootsOf config) sources s

/-- What is written is an output. -/
theorem outputs_of_due {files : Entry} {roots : Roots} {out : Path} {made : List (Str × Str)}
    (hr : s.Regular) (h : due files roots sources s = .ok (some made))
    (hq : q ∈ (inDirectory (s.directory out) made).map Prod.fst) : q ∈ (s.outputs out).all := by
  obtain ⟨marker, artifacts, -, -, rfl, -⟩ := of_due h
  obtain ⟨file, hfile, rfl⟩ := List.mem_map.1 hq
  obtain ⟨named, hnamed, rfl⟩ := List.mem_map.1 hfile
  exact (Source.mem_outputs hr).2 ⟨_, mem_outputNames_of_artifactFiles hnamed, rfl⟩

section Twice

variable (h : Twice config sources todo opened worked outcomes last reopened worked' outcomes')

include h

/-- **The outcomes of the second run** are those of the first one again, in some order. -/
theorem Twice.perm : outcomes'.Perm (outcomes.map fun o => (o.1, o.2.again)) := by
  obtain ⟨trace, hdone⟩ := h.first.done
  obtain ⟨trace', hdone'⟩ := h.second.done
  have hperm := (hdone'.worked.perm.trans hdone.worked.perm.symm).map fun s =>
    (s, outcomeOf config.outputRoot s (due reopened.root (rootsOf config) sources s))
  refine (List.Perm.of_eq hdone'.outcomes_eq).trans (hperm.trans ?_)
  rw [List.map_map]
  refine .of_eq (List.map_congr_left fun o ho => ?_)
  obtain ⟨hs, heq⟩ := h.first.mem_outcomes.1 ho
  exact Prod.ext rfl ((h.again _ hs).trans (congrArg Outcome.again heq.symm))

/-- **Its work makes directories that the first run had made**, and nothing else. -/
theorem Twice.second_cases (q : Path) :
    worked'.root.see? q = reopened.root.see? q ∨
      worked'.root.see? q = some .directory ∧ worked.root.see? q = some .directory := by
  rcases h.second.idle (fun s hs => h.unwritten s hs) q with he | ⟨hdir, s, hs, hstale, hq⟩
  · exact .inl he
  · exact .inr ⟨hdir, h.first.entered hs (h.stale s hs hstale) hq⟩

/-- What the first run leaves below the outputs was there when its work was done. -/
theorem Twice.last_cases (hq : config.outputRoot <+: q) :
    last.root.see? q = none ∨ last.root.see? q = worked.root.see? q := by
  obtain ⟨paths, operations, hends⟩ := h.ends
  rcases hends.see?_cases q with he | he | ⟨hlog, -⟩
  · exact .inl he
  · exact .inr he
  · exact absurd hq (h.apart q hlog)

theorem Twice.root : worked.root.see? config.outputRoot = some .directory :=
  h.first.root.directory

/-- **The files of both runs are the same**, when the second has done its work. -/
theorem Twice.file_iff (hq : config.outputRoot <+: q) (hsight : sight ≠ .directory) :
    worked'.root.see? q = some sight ↔ last.root.see? q = some sight := by
  by_cases hroot : q = config.outputRoot
  · subst hroot
    have hdir' : worked'.root.see? config.outputRoot = some .directory :=
      h.second.root.directory
    rw [hdir']
    refine ⟨fun he => absurd (Option.some.inj he).symm hsight, fun he => ?_⟩
    rcases h.last_cases List.prefix_rfl with hlast | hlast
    · cases hlast.symm.trans he
    · exact absurd (Option.some.inj (h.root.symm.trans (hlast.symm.trans he))).symm hsight
  · have hopens : reopened.root.see? q = last.root.see? q := by
      rw [h.opens, Function.update_of_ne hroot]
    rw [← hopens]
    rcases h.second_cases q with he | ⟨hdir', hdir⟩
    · rw [he]
    · -- a directory of the first run is no file after it
      rw [hdir', hopens]
      refine ⟨fun he => absurd (Option.some.inj he).symm hsight, fun he => ?_⟩
      rcases h.last_cases hq with hlast | hlast
      · cases hlast.symm.trans he
      · exact absurd (Option.some.inj (hdir.symm.trans (hlast.symm.trans he))).symm hsight

/-- The second run keeps what the first one kept. -/
theorem Twice.mem_keep (hq : q ∈ keepOf config outcomes) : q ∈ keepOf config outcomes' := by
  refine h.second.mem_keep.2 ((h.first.mem_keep.1 hq).imp_right ?_)
  rintro ⟨s, hs, hkeeps⟩
  refine ⟨s, hs, ?_⟩
  rw [h.again s hs]
  rcases hdue : due opened.root (rootsOf config) sources s with e | _ | made
  · rw [hdue] at hkeeps
    exact hkeeps
  · rw [hdue] at hkeeps
    exact hkeeps
  · rw [hdue, outcomeOf, h.encodes s hs made hdue] at hkeeps
    rw [outcomeOf, h.encodes s hs made hdue]
    exact outputs_of_due (h.first.steady.orderly.regular s hs) hdue hkeeps

/-- **The second run keeps what the first one left.** -/
theorem Twice.kept_iff (hq : config.outputRoot <+: q) :
    Kept worked'.root (keepOf config outcomes') q ↔ last.root.see? q ≠ none := by
  obtain ⟨paths, operations, hends⟩ := h.ends
  constructor
  · rintro ⟨below, sight, hp, hs, hne, -⟩
    have hlast := (h.file_iff (hq.trans hp) hne).1 hs
    by_cases he : q = below
    · rw [he, hlast]
      simp
    · rw [Entry.see?_directory_of_prefix hp he (by simp [hlast])]
      simp
  · intro hleft
    have hkept : Kept worked.root (keepOf config outcomes) q := by
      by_contra hnot
      exact hleft (hends.gone q hq hnot)
    obtain ⟨below, sight, hp, hs, hne, hmem⟩ := hkept
    have hlast := hends.stays below (hq.trans hp) ⟨below, sight, List.prefix_rfl, hs, hne, hmem⟩
    exact ⟨below, sight, hp, (h.file_iff (hq.trans hp) hne).2 (hlast.trans hs), hne,
      h.mem_keep hmem⟩

/-- **The second run leaves what the first one left.** -/
theorem Twice.last_eq (hends' : Concludes config outcomes' worked' last' paths' operations')
    (hlog : q ∉ config.auditLog) : last'.root.see? q = last.root.see? q := by
  by_cases hq : config.outputRoot <+: q
  · by_cases hkept : Kept worked'.root (keepOf config outcomes') q
    · rw [hends'.stays q hq hkept]
      obtain ⟨below, sight, hp, hs, hne, -⟩ := hkept
      have hlast := (h.file_iff (hq.trans hp) hne).1 hs
      by_cases he : q = below
      · rw [he, hs, hlast]
      · rw [Entry.see?_directory_of_prefix hp he (by simp [hs]),
          Entry.see?_directory_of_prefix hp he (by simp [hlast])]
    · rw [hends'.gone q hq hkept]
      by_contra hleft
      exact hkept ((h.kept_iff hq).2 (Ne.symm hleft))
  · have hne : q ≠ config.outputRoot := fun he => hq (he ▸ List.prefix_rfl)
    rw [(hends'.outside q hq).resolve_right fun hl => hlog hl.1,
      h.second.outside hq, h.opens, Function.update_of_ne hne]

/-- What is there when the work of the second run is done was there when that of the first was. -/
theorem Twice.worked_ne_none (hq : config.outputRoot <+: q) (hs : worked'.root.see? q ≠ none) :
    worked.root.see? q ≠ none := by
  rcases h.second_cases q with he | ⟨-, hdir⟩
  · by_cases hroot : q = config.outputRoot
    · rw [hroot, h.root]
      simp
    · rw [he, h.opens, Function.update_of_ne hroot] at hs
      rwa [← (h.last_cases hq).resolve_left hs]
  · rw [hdir]
    simp

/-- The directories of the second run are directories of the first. -/
theorem Twice.directory (hq : config.outputRoot <+: q)
    (hs : worked'.root.see? q = some .directory) : worked.root.see? q = some .directory := by
  rcases h.second_cases q with he | ⟨-, hdir⟩
  · by_cases hroot : q = config.outputRoot
    · rw [hroot, h.root]
    · rw [he, h.opens, Function.update_of_ne hroot] at hs
      rcases h.last_cases hq with hlast | hlast
      · cases hlast.symm.trans hs
      · rw [← hlast, hs]
  · exact hdir

/-- **The second run ends with a report.** -/
theorem Twice.concluding_isOk (hset : config.Settled worked'.root) (occasion : Occasion) :
    ∃ paths last' operations,
      (concluding config occasion outcomes').runOn worked' =
        (.ok (reportAt config outcomes' paths), last') ∧
      Concludes config outcomes' worked' last' paths operations := by
  obtain ⟨paths, operations, hends⟩ := h.ends
  refine Build.concluding_isOk hset h.apart h.second.valid h.second.root ?_ ?_ ?_ occasion
  · rintro q ⟨hq, hdir, hlen⟩
    exact hends.shallow q ⟨hq, h.directory hq hdir, hlen⟩
  · intro q hq hs hkept
    refine (hends.removed q hq (h.worked_ne_none hq hs) fun hkept' => hkept ?_).2
    refine (h.kept_iff hq).2 ?_
    rw [hends.stays q hq hkept']
    exact h.worked_ne_none hq hs
  · intro log hl
    have hready := hends.log log hl
    have hproper := hset.log_proper log hl
    have hparent : ¬ config.outputRoot <+: log.parent := by
      rw [Path.parent_of_proper hproper]
      exact fun hp => h.apart log hl (hp.trans (List.dropLast_prefix log))
    have houtside {q : Path} (hq : ¬ config.outputRoot <+: q) :
        worked'.root.see? q = last.root.see? q := by
      rw [h.second.outside hq, h.opens, Function.update_of_ne fun (he : q = config.outputRoot) => hq (by rw [he])]
    refine ⟨?_, hready.fits, ?_⟩
    · rw [houtside hparent]
      exact hends.directory hparent hready.directory
    · rw [houtside (h.apart log hl)]
      rcases hends.outside log (h.apart log hl) with he | ⟨-, bytes, time, he⟩
      · rw [he]
        exact hready.writable
      · rw [he]
        trivial

/-- **The end of the second run removes no file.** -/
theorem Twice.takes (hends' : Concludes config outcomes' worked' last' paths' operations')
    {operation : Operation} (ho : operation ∈ operations') :
    operation.KeepsFiles config.auditLog := by
  rcases hends'.takes operation ho with
    ⟨q, hq, -, ⟨rfl, sight, hs, hne⟩ | ⟨rfl, -⟩, hkept, -⟩ | ⟨way, rfl⟩ | ⟨log, hl, bytes, rfl⟩
  · refine absurd ((h.kept_iff hq).2 ?_) hkept
    rw [(h.file_iff hq hne).1 hs]
    simp
  · trivial
  · trivial
  · exact hl

end Twice

/-! ### Running again -/

/-- **The sources of a later run are the same**: none appears and none is gone, and each is read the
same, without the outputs. -/
structure SameSources (config : Config) (disk later : Disk) : Prop where
  /-- What was found is found, and what is new is no source. -/
  unchanged : Unchanged config.inputRoot config.outputRoot (afterOpening config disk).root
    (afterOpening config later).root
  /-- What is read is the same. -/
  reads : ∀ sources, foundBy config disk = .ok sources → ∀ s ∈ sources, ∃ bytes time,
    Reads (inputView config disk) (s.path config.inputRoot) bytes time ∧
      Reads (inputView config later) (s.path config.inputRoot) bytes time

theorem SameSources.inputs (h : SameSources config disk later)
    (hfound : foundBy config disk = .ok sources) (hs : s ∈ sources) :
    SameInputs (inputView config disk) (inputView config later) config.inputRoot sources sources s where
  stylesheet := rfl
  reads input hinput := h.reads sources hfound input <| by
    rcases hinput with rfl | hsheet
    · exact hs
    · exact List.mem_of_find?_eq_some hsheet

/-- **What a run has done that found fair sources** and ended with a report. -/
structure Reported (plan : List Source → List (List Source)) (config : Config) (disk : Disk)
    (sources : List Source) (opened worked : Disk) (outcomes : List (Source × Outcome)) (last : Disk)
    (paths : List Path) (operations : List Operation) : Prop where
  /-- The roots are opened. -/
  opens : (openRoots config).runOn disk = (.ok (rootsOf config), opened)
  /-- The sources are found. -/
  found : foundBy config disk = .ok sources
  /-- The file system is valid then. -/
  valid : opened.root.Valid
  /-- The configuration is settled. -/
  settled : config.Settled opened.root
  /-- The root of the sources is a directory. -/
  input : isDirectory opened.root config.inputRoot = .ok true
  /-- The work is done. -/
  works : WorkDone config sources (plan (markupOf sources)) opened worked outcomes
  /-- The run ends. -/
  concludes : Concludes config outcomes worked last paths operations

theorem FindsFair.reported (h : FindsFair config disk) (hplan : Covers plan)
    (hcalm : Calm plan config disk) (hapart : ∀ log ∈ config.auditLog, ¬ config.outputRoot <+: log)
    (hrun : (runBy plan config occasion).runOn disk = (.ok report, last)) :
    ∃ sources opened worked outcomes paths operations,
      Reported plan config disk sources opened worked outcomes last paths operations ∧
        report = reportAt config outcomes paths := by
  obtain ⟨⟨roots, log, opened, sources, outcomes, worked, paths, swept⟩, hstages⟩ :=
    exists_completes hrun
  have hfound : foundBy config disk = .ok sources := by
    obtain ⟨operations, hopens⟩ := openRoots_opens h.settled
    rw [hstages.opens] at hopens
    have hdiscovers := hstages.discovers
    rw [hopens.roots_eq _ rfl] at hdiscovers
    rw [foundBy, ← hstages.opened_eq]
    exact hdiscovers
  have hfair := h.fair sources hfound
  have hready := hfair.ready
  rw [← hstages.opened_eq] at hready hfair
  have horder := hstages.inOrder hplan h.valid h.settled hfair.separate hready
  obtain ⟨hopened, rfl, -⟩ := hstages.finds h.settled hfound
  have hcalm' := hcalm sources hfound
  rw [hopened] at hcalm'
  obtain ⟨opening, hopens⟩ := openRoots_opens h.settled
  rw [hstages.opens] at hopens
  have hworks := (hfair.steady horder.valid (hopens.output _ rfl) h.settled.output_ne_nil
    hstages.discovers hplan hcalm').workDone horder.valid hstages.works
  have hlogs := hstages.sweeps
  rw [show log = config.auditLog.toList from horder.log] at hlogs
  obtain ⟨operations, hconcludes⟩ := concludes_of_phases (hworks.settled horder.settled) hapart
    (fun log hl => hworks.directory (hopens.log _ rfl log hl).1) hworks.valid hworks.root
    hlogs hstages.logs
  exact ⟨sources, opened, worked, outcomes, paths, operations,
    ⟨hstages.opens, hfound, horder.valid, horder.settled, hopens.input _ rfl, hworks, hconcludes⟩,
    hstages.report_eq⟩

/-- Places that were ready are ready where nothing new stands in them. -/
theorem Ready.of_left {files files' : Entry} {out : Path} (h : Ready files out s) (hs : s.Regular)
    (hleft : ∀ q, out <+: q → files'.see? q = none ∨ files'.see? q = files.see? q ∨
      q = out ∧ files'.see? q = some .directory) : Ready files' out s where
  directories way hpre hway := by
    rcases hleft way hpre with he | he | ⟨-, he⟩
    · exact .inl he
    · rw [he]
      exact h.directories way hpre hway
    · exact .inr he
  outputs path hpath := by
    obtain ⟨hpre, hne⟩ := outputs_below hs hpath
    rcases hleft path hpre with he | he | ⟨hout, -⟩
    · rw [he]
      trivial
    · rw [he]
      exact h.outputs path hpath
    · exact absurd hout hne
  drafts path hpath := by
    obtain ⟨n, -, rfl⟩ := (Source.mem_drafts hs).1 hpath
    rcases hleft _ ((s.directory_prefix out).trans (List.prefix_append _ _)) with he | he | ⟨hout, -⟩
    · rw [he]
      trivial
    · rw [he]
      exact h.drafts _ hpath
    · refine absurd ?_ (s.not_prefix_directory (draftName n) out)
      rw [hout]
      exact s.directory_prefix out

section Reported

variable (h : Reported plan config disk sources opened worked outcomes last paths operations)

include h

theorem Reported.opened_eq : afterOpening config disk = opened := by rw [afterOpening, h.opens]

theorem Reported.discovers :
    discover opened.root config.inputRoot [config.outputRoot] = .ok sources := by
  rw [← h.opened_eq]
  exact h.found

/-- **After a run its roots can be opened again.** -/
theorem Reported.openable (hapart : ∀ log ∈ config.auditLog, ¬ config.outputRoot <+: log) :
    Openable config last.root := by
  have hset := h.works.settled h.settled
  refine h.concludes.openable hset hapart h.works.root ?_
  obtain ⟨hdir, hfits⟩ := (isDirectory_eq_true h.settled.input_proper h.settled.input_plain).1 h.input
  exact (isDirectory_eq_true hset.input_proper hset.input_plain).2 ⟨h.works.directory hdir, hfits⟩

/-- What is left of the places that outputs stand in was there at first, or when the work was done. -/
theorem Reported.ready (hapart : ∀ log ∈ config.auditLog, ¬ config.outputRoot <+: log)
    (hsee : reopened.root.see? =
      Function.update last.root.see? config.outputRoot (some .directory))
    (hs : s ∈ (plan (markupOf sources)).flatten) :
    Ready reopened.root config.outputRoot s := by
  have hready : Ready worked.root config.outputRoot s :=
    h.works.steady.ready_of_touches h.works.touches hs
  refine hready.of_left (h.works.steady.orderly.regular s hs) fun q hq => ?_
  by_cases hne : q = config.outputRoot
  · exact .inr (.inr ⟨hne, by rw [hsee, hne, Function.update_self]⟩)
  · rw [hsee, Function.update_of_ne hne]
    rcases h.concludes.see?_cases q with he | he | ⟨hlog, -⟩
    · exact .inl he
    · exact .inr (.inl he)
    · exact absurd hq (hapart q hlog)

/-- **The same sources are found again**, if they are unchanged. -/
theorem Reported.discovers_again
    (hlater : (openRoots config).runOn later = (.ok (rootsOf config), reopened))
    {made : List Operation}
    (hopens : Opens config later (.ok (rootsOf config), reopened) made)
    (hsettled : config.Settled reopened.root) (hvalid : reopened.root.Valid)
    (hsee : reopened.root.see? =
      Function.update last.root.see? config.outputRoot (some .directory))
    (hsame : SameSources config disk later) :
    discover reopened.root config.inputRoot [config.outputRoot] = .ok sources := by
  have hunchanged := hsame.unchanged
  rw [h.opened_eq, afterOpening, hlater] at hunchanged
  refine hunchanged.discover_eq h.valid hvalid h.settled.input_proper h.settled.input_plain
    hsettled.input_plain h.input (hopens.input _ rfl) h.settled.apart
    h.works.steady.root.directory (hopens.output _ rfl).directory (fun q hq hleaf => ?_) h.discovers
  obtain ⟨sight, hs, hne⟩ := hleaf
  have hworked : worked.root.see? q = some sight := (h.works.outside hq).trans hs
  have hlast : reopened.root.see? q = last.root.see? q := by
    rw [hsee, Function.update_of_ne fun (he : q = config.outputRoot) => hq (by rw [he])]
  rcases h.concludes.outside q hq with he | ⟨-, bytes, time, he⟩
  · exact ⟨sight, by rw [hlast, he, hworked], hne⟩
  · exact ⟨_, by rw [hlast, he], by simp⟩

/-- **All that was written is text**, if no source failed because its module is none. -/
theorem Reported.encodes
    (hkind : ∀ failure ∈ (reportAt config outcomes paths).failures,
      ¬ unencodableKind <+: failure.error)
    (hs : s ∈ (plan (markupOf sources)).flatten) :
    Encodes opened.root (rootsOf config) sources s := by
  intro made hdue
  by_contra hfault
  obtain ⟨fault, hfault⟩ := Option.ne_none_iff_exists'.1 hfault
  have ho : (s, Outcome.failed (.unencodable fault)) ∈ outcomes :=
    h.works.mem_outcomes.2 ⟨hs, by rw [hdue, outcomeOf, hfault]⟩
  exact hkind ⟨s.label, _⟩ (Text.mem_orderedBy.2 (List.mem_filterMap.2 ⟨_, ho, rfl⟩))
    (unencodableKind_prefixed fault)

/-- **What becomes of a source when its inputs are found as they were**: the same again, nothing is
written, and it is stale only if it was. -/
theorem Reported.outcome_again (hfinds : FindsFair config disk) (hplan : Covers plan)
    (hcalm : Calm plan config disk)
    (hapart : ∀ log ∈ config.auditLog, ¬ config.outputRoot <+: log)
    (hrun : (runBy plan config occasion).runOn disk = (.ok report, last))
    (hroot : OutputRoot reopened.root config.outputRoot)
    (hh' : (reopened.root.put none config.outputRoot).Holds reopened.root)
    (hsee : reopened.root.see? =
      Function.update last.root.see? config.outputRoot (some .directory))
    (hs : s ∈ (plan (markupOf sources)).flatten)
    (hencodes : Encodes opened.root (rootsOf config) sources s)
    (hinputs : SameInputs (inputView config disk) (reopened.root.put none config.outputRoot)
      config.inputRoot sources sources s) :
    outcomeOf config.outputRoot s (due reopened.root (rootsOf config) sources s) =
        (outcomeOf config.outputRoot s (due opened.root (rootsOf config) sources s)).again ∧
      (∀ made, due reopened.root (rootsOf config) sources s ≠ .ok (some made)) ∧
      (IsStale reopened.root (rootsOf config) sources s →
        IsStale opened.root (rootsOf config) sources s) := by
  have hmem : s ∈ markupOf sources := (hplan _).mem_iff.1 hs
  have hfair := hfinds.fair sources h.found
  have hfinding : Finding config disk sources s :=
    ⟨hfinds.valid, hfinds.settled, h.found, hmem, hfair.separate, hfair.ready⟩
  have hview : InView (inputView config disk) config.inputRoot sources s :=
    @SameInputs.inView _ _ _ _ _ (rootsOf config) hinputs
  have hfree := not_hindered h.found hmem (hfair.roomy s hmem) hcalm
  have hleft (q : Path) (hq : q ∈ (s.outputs config.outputRoot).all) :
      reopened.root.see? q = last.root.see? q := by
    rw [hsee, Function.update_of_ne (outputs_below hfinding.regular hq).2]
  rw [← h.opened_eq] at hencodes ⊢
  exact (hfinding.deals hplan hapart hview hfree hrun).due_again hfinding.regular
    (mem_markupOf.1 hmem).2 h.settled.output_ne_nil hencodes (hfinding.root hrun) hroot
    (hfair.ready s hmem) (h.ready hapart hsee hs) hinputs hh' hleft

/-- A source that was stale is not too deep: its directory was there when the run swept. -/
theorem Reported.shallow (hs : s ∈ (plan (markupOf sources)).flatten)
    (hstale : IsStale opened.root (rootsOf config) sources s) :
    s.place.length ≤ directoryRoom + 1 := by
  have hdir := h.works.entered hs hstale List.prefix_rfl
  by_contra hlong
  refine h.concludes.shallow _ ⟨s.directory_prefix config.outputRoot, hdir, ?_⟩
  rw [Source.directory, List.length_append]
  simp only [sweepRoom, directoryRoom, roomInside, callLimit] at hlong ⊢
  omega

/-- **A second run with the same sources does its work.** -/
theorem Reported.twice (hfinds : FindsFair config disk) (hplan : Covers plan)
    (hcalm : Calm plan config disk) (hcalm' : Calm plan config later)
    (hapart : ∀ log ∈ config.auditLog, ¬ config.outputRoot <+: log)
    (hrun : (runBy plan config occasion).runOn disk = (.ok report, last))
    (hkind : ∀ failure ∈ (reportAt config outcomes paths).failures,
      ¬ unencodableKind <+: failure.error)
    (hroot : later.root = last.root) (hsame : SameSources config disk later)
    (turns : List (List Nat)) :
    ∃ reopened worked' outcomes' made,
      (openRoots config).runOn later = (.ok (rootsOf config), reopened) ∧
      Opens config later (.ok (rootsOf config), reopened) made ∧
      discover reopened.root config.inputRoot [config.outputRoot] = .ok sources ∧
      (workThrough (rootsOf config) sources turns (plan (markupOf sources))).run reopened =
        (outcomes', worked') ∧
      config.Settled worked'.root ∧
      Twice config sources (plan (markupOf sources)) opened worked outcomes last reopened worked'
        outcomes' := by
  have hopenable := h.openable hapart
  rw [← hroot] at hopenable
  obtain ⟨reopened, made, hlater, hopens, hsee⟩ := openRoots_isOk hopenable
  have hreopened : afterOpening config later = reopened := by rw [afterOpening, hlater]
  have hvalid : reopened.root.Valid := by
    refine hopens.undergoes.valid ?_
    rw [hroot]
    exact h.concludes.undergoes.valid h.works.valid
  have hsettled : config.Settled reopened.root := hopens.settled hopenable.settled
  rw [hroot] at hsee
  have hdiscovers := h.discovers_again hlater hopens hsettled hvalid hsee hsame
  have hfound : foundBy config later = .ok sources := by
    rw [foundBy, hreopened]
    exact hdiscovers
  have hmem {s : Source} (hs : s ∈ (plan (markupOf sources)).flatten) : s ∈ markupOf sources :=
    (hplan _).mem_iff.1 hs
  have hinputs {s : Source} (hs : s ∈ (plan (markupOf sources)).flatten) :
      SameInputs (inputView config disk) (reopened.root.put none config.outputRoot)
        config.inputRoot sources sources s := by
    have hinputs := hsame.inputs h.found (mem_markupOf.1 (hmem hs)).1
    rwa [show inputView config later = reopened.root.put none config.outputRoot by
      rw [inputView, hreopened]] at hinputs
  have hholds : (reopened.root.put none config.outputRoot).Holds reopened.root := by
    have hholds := @inputView_holds config later h.settled.output_ne_nil
    rwa [inputView, hreopened] at hholds
  have hencodes {s : Source} (hs : s ∈ (plan (markupOf sources)).flatten) :=
    h.encodes hkind hs
  have hagain {s : Source} (hs : s ∈ (plan (markupOf sources)).flatten) :=
    h.outcome_again hfinds hplan hcalm hapart hrun (hopens.output _ rfl) hholds hsee hs (hencodes hs)
      (hinputs hs)
  have hsteady : Steady (rootsOf config) sources (plan (markupOf sources)) reopened.root := by
    refine ⟨⟨h.works.steady.orderly, hopens.output _ rfl, fun s hs => h.ready hapart hsee hs⟩,
      h.settled.output_ne_nil, fun s hs hstale => ?_, fun s hs => ?_, fun s hs => ?_⟩
    · exact ⟨config.outputRoot, s.place, rfl, (hopens.output _ rfl).directory,
        h.shallow hs ((hagain hs).2.2 hstale)⟩
    · have hnot := hcalm' sources hfound s (hmem hs)
      rwa [hreopened] at hnot
    · exact @SameInputs.inView _ _ _ _ _ (rootsOf config) (hinputs hs).symm
  rcases hworks : (workThrough (rootsOf config) sources turns (plan (markupOf sources))).run
    reopened with ⟨outcomes', worked'⟩
  have hsecond := hsteady.workDone hvalid hworks
  exact ⟨reopened, worked', outcomes', made, hlater, hopens, hdiscovers, hworks,
    hsecond.settled hsettled, hapart, h.works, fun s hs => hencodes hs, ⟨_, _, h.concludes⟩, hsee,
    hsecond, fun s hs => (hagain hs).1, fun s hs => (hagain hs).2.1, fun s hs => (hagain hs).2.2⟩

end Reported

/-- **A run that is repeated writes nothing and removes no file**: with the sources as they were, it
ends with a report that repeats that of the first run, its operations make and remove directories or
add to the log, and it leaves the files, their times included, as the first run left them. -/
theorem run_again_rests (h : FindsFair config disk)
    (hcalm : Calm (batches config.workers) config disk)
    (hapart : ∀ log ∈ config.auditLog, ¬ config.outputRoot <+: log)
    (hrun : (run config occasion).runOn disk = (.ok report, last))
    (hkind : ∀ failure ∈ report.failures, ¬ unencodableKind <+: failure.error)
    (hroot : later.root = last.root) (hsame : SameSources config disk later)
    (hcalm' : Calm (batches config.workers) config later) :
    ∃ report' last' operations, (run config occasion').runOn later = (.ok report', last') ∧
      report.Repeats report' ∧ later.Undergoes operations last' ∧
      (∀ operation ∈ operations, operation.KeepsFiles config.auditLog) ∧
      report'.removed =
        (operations.filterMap removedPath?).map (outputLabel config.outputRoot) ∧
      ∀ q, q ∉ config.auditLog → last'.root.see? q = last.root.see? q := by
  have hplan := covers_batches config.workers
  obtain ⟨sources, opened, worked, outcomes, paths, operations, hreported, rfl⟩ :=
    h.reported hplan hcalm hapart hrun
  obtain ⟨reopened, worked', outcomes', made, hlater, hopens, hdiscovers, hworks, hsettled,
    htwice⟩ := hreported.twice h hplan hcalm hcalm' hapart hrun hkind
       hroot hsame occasion'.turns
  obtain ⟨paths', last', concluding, hconcluding, hends⟩ :=
    htwice.concluding_isOk hsettled occasion'
  obtain ⟨working, hworking, hmaking⟩ := htwice.second.making htwice.unwritten
  have hlaterSettled : config.Settled later.root := by
    rw [hroot]
    exact (hreported.openable hapart).settled
  have hrun' : (run config occasion').runOn later = (.ok (reportAt config outcomes' paths'), last') := by
    rw [run, runOn_runBy hlaterSettled hlater, hdiscovers]
    dsimp only
    rw [hworks]
    exact hconcluding
  have hdirectories : ∀ operation ∈ made ++ working, ∃ way, operation = .makeDirectory way := by
    intro operation ho
    rcases List.mem_append.1 ho with ho | ho
    · exact (hopens.making operation ho).imp fun _ h => h.1
    · exact hmaking operation ho
  refine ⟨_, last', made ++ working ++ concluding, hrun', ?_,
    (hopens.undergoes.append hworking).append hends.undergoes, fun operation ho => ?_, ?_,
    fun q hq => htwice.last_eq hends hq⟩
  · obtain ⟨trace, hdone⟩ := htwice.second.done
    rw [reportAt_perm htwice.perm (hdone.labels htwice.second.steady.orderly)]
    exact reportOn_again _ _ _
  · rcases List.mem_append.1 ho with ho | ho
    · obtain ⟨way, rfl⟩ := hdirectories operation ho
      trivial
    · exact htwice.takes hends ho
  · have hnone : (made ++ working).filterMap removedPath? = [] := by
      refine List.filterMap_eq_nil_iff.2 fun operation ho => ?_
      obtain ⟨way, rfl⟩ := hdirectories operation ho
      rfl
    rw [List.filterMap_append, hnone, List.nil_append, ← hends.paths_eq]
    rfl

/-- The disk `varied` after a run. -/
def variedAfter : Disk := ((run plainConfig turningOccasion).runOn varied).2

/-- What is read of each source. -/
def variedReadings : List (Source × List UInt8) :=
  variedSources.zip [Utf8.encode "<!doctype html><p id='p'>".toList, [255],
    Utf8.encode "<style>.x{}</style>".toList]

theorem varied_sameSources : SameSources plainConfig varied variedAfter := by
  obtain ⟨hunchanged, hreads⟩ :
      Unchanged plainConfig.inputRoot plainConfig.outputRoot (afterOpening plainConfig varied).root
        (afterOpening plainConfig variedAfter).root ∧
      ∀ p ∈ variedReadings,
        Reads (inputView plainConfig varied) (p.1.path plainConfig.inputRoot) p.2
          1700000000000000000 ∧
        Reads (inputView plainConfig variedAfter) (p.1.path plainConfig.inputRoot) p.2
          1700000000000000000 := by
    decide +kernel
  refine ⟨hunchanged, fun sources hfound s hs => ?_⟩
  cases varied_found.symm.trans hfound
  obtain ⟨⟨_, bytes⟩, hp, rfl⟩ :=
    List.mem_map.1 (show s ∈ variedReadings.map Prod.fst from hs)
  exact ⟨bytes, _, hreads _ hp⟩

theorem run_again_rests_varied :
    ∃ report' last' operations,
      (run plainConfig plainOccasion).runOn variedAfter = (.ok report', last') ∧
      variedReport.Repeats report' ∧ variedAfter.Undergoes operations last' ∧
      (∀ operation ∈ operations, operation.KeepsFiles none) ∧
      report'.removed =
        (operations.filterMap removedPath?).map (outputLabel plainConfig.outputRoot) ∧
      ∀ q, q ∉ plainConfig.auditLog → last'.root.see? q = variedAfter.root.see? q := by
  have hfound : foundBy plainConfig variedAfter = .ok variedSources := by decide +kernel
  have hcalm : Calm (batches 2) plainConfig variedAfter := by
    refine calm_of_directories (fun sources h => ?_) (covers_batches 2)
    cases hfound.symm.trans h
    decide +kernel
  exact run_again_rests varied_findsFair (varied_calm (covers_batches 2)) (by simp [plainConfig])
    (Work.runOn_eq_of_end varied_meets.2) (by decide +kernel) rfl varied_sameSources hcalm

/-! ### Runs that have something left to do -/

/-- A disk with a source that is a link to an output of another one, which holds markup. -/
def reread : Disk where
  root := .directory
    [("src".toList, .directory
        [("a.html".toList, .link "../out/b.ts".toList),
          ("b.html".toList, .file (Utf8.encode "<p id='p'></p>".toList) 1700000000000000000)]),
      ("out".toList, .directory [("b.ts".toList, .file (Utf8.encode "<p id='q'></p>".toList) 0)])]
  now := 1700000000000000000

/-- The disk `misnamed` after a run, one nanosecond later. -/
def misnamedAfter : Disk :=
  { ((run plainConfig plainOccasion).runOn misnamed).2 with now := 1700000000000000001 }

theorem misnamed_findsFair : FindsFair plainConfig misnamed where
  valid := misnamed_meets.1.valid
  settled := misnamed_meets.1.settled
  fair sources h := by
    cases misnamed_meets.1.found.symm.trans h
    decide +kernel

/-- A name that leaves room for the suffix of a page, but not for that of a draft. -/
def crampedName (c : Char) : Str := List.replicate (nameLimit - 5) (.char c)

/-- A disk with two pages of such names in a directory, where an old output is. -/
def cramped : Disk where
  root := .directory
    [("src".toList, .directory [("sub".toList, .directory
        [(crampedName 'm' ++ ".html".toList,
            .file (Utf8.encode "<!doctype html><p id='p'>".toList) 1700000000000000000),
          (crampedName 'n' ++ ".html".toList,
            .file (Utf8.encode "<!doctype html><p id='q'>".toList) 1700000000000000000)])]),
      ("out".toList, .directory [("sub".toList, .directory [("old.ts".toList, .file [] 0)])])]
  now := 1700000000000000000

/-- Its sources. -/
def crampedSources : List Source :=
  [⟨["sub".toList], crampedName 'm', .markup⟩, ⟨["sub".toList], crampedName 'n', .markup⟩]

/-- **A second run may do something else** where a source is a link to an output: it reads what the
first run wrote there. It may also write what the first run could not because two sources got in each
other's way, and it replaces the companions of a source whose module is no text once more. Sources whose
drafts have names that are too long fail otherwise if they get in each other's way in the second run,
the first one having removed their directory. -/
theorem run_again_rereads :
    (¬ ∀ (config : Config) (occasion : Occasion) (disk last last' : Disk)
      (report report' : Report), disk.root.Valid → config.Settled disk.root →
      (∀ log ∈ config.auditLog, ¬ config.outputRoot <+: log) →
      (∀ sources, foundBy config disk = .ok sources →
        Separate config.outputRoot (markupOf sources) ∧
          ∀ s ∈ markupOf sources, Ready (afterOpening config disk).root config.outputRoot s) →
      Calm (batches config.workers) config disk → Calm (batches config.workers) config last →
      (run config occasion).runOn disk = (.ok report, last) →
      (run config occasion).runOn last = (.ok report', last') → report.Repeats report') ∧
    (¬ ∀ (config : Config) (occasion occasion' : Occasion) (disk last last' : Disk)
      (report report' : Report), FindsFair config disk →
      (∀ log ∈ config.auditLog, ¬ config.outputRoot <+: log) →
      (run config occasion).runOn disk = (.ok report, last) →
      (run config occasion').runOn last = (.ok report', last') → report.Repeats report') ∧
    (¬ ∀ (config : Config) (occasion : Occasion) (disk last later last' : Disk)
      (report report' : Report), FindsFair config disk →
      Calm (batches config.workers) config disk →
      (∀ log ∈ config.auditLog, ¬ config.outputRoot <+: log) →
      (run config occasion).runOn disk = (.ok report, last) → later.root = last.root →
      (run config occasion).runOn later = (.ok report', last') →
      ∀ q, q ∉ config.auditLog → last'.root.see? q = last.root.see? q) ∧
    ¬ ∀ (config : Config) (occasion : Occasion) (disk last last' : Disk)
      (report report' : Report), FindsFair config disk →
      Calm (batches config.workers) config disk →
      (∀ log ∈ config.auditLog, ¬ config.outputRoot <+: log) →
      (∀ failure ∈ report.failures, ¬ unencodableKind <+: failure.error) →
      (run config occasion).runOn disk = (.ok report, last) →
      (run config occasion).runOn last = (.ok report', last') → report.Repeats report' := by
  refine ⟨fun h => ?_, fun h => ?_, fun h => ?_, fun h => ?_⟩
  · obtain ⟨hv, hset, hreport, hreport', hfound, hfound', hseparate, hready, hdir, hdir'⟩ :
        reread.root.Valid ∧ plainConfig.Settled reread.root ∧
        ((run plainConfig plainOccasion).runOn reread).1 =
          .ok ⟨["a.html".toList, "b.html".toList], [], [], []⟩ ∧
        ((run plainConfig plainOccasion).runOn ((run plainConfig plainOccasion).runOn reread).2).1 =
          .ok ⟨[], ["b.html".toList], [], [⟨"a.html".toList, unnamedError⟩]⟩ ∧
        foundBy plainConfig reread = .ok [linkedSource, brokenSource] ∧
        foundBy plainConfig ((run plainConfig plainOccasion).runOn reread).2 =
          .ok [linkedSource, brokenSource] ∧
        Separate plainConfig.outputRoot (markupOf [linkedSource, brokenSource]) ∧
        (∀ s ∈ markupOf [linkedSource, brokenSource],
          Ready (afterOpening plainConfig reread).root plainConfig.outputRoot s) ∧
        (∀ s ∈ markupOf [linkedSource, brokenSource],
          (afterOpening plainConfig reread).root.see? (s.directory plainConfig.outputRoot) =
            some .directory) ∧
        ∀ s ∈ markupOf [linkedSource, brokenSource],
          (afterOpening plainConfig ((run plainConfig plainOccasion).runOn reread).2).root.see?
            (s.directory plainConfig.outputRoot) = some .directory := by
      decide +kernel
    have hcalm : Calm (batches 2) plainConfig reread := by
      refine calm_of_directories (fun sources hsources => ?_) (covers_batches 2)
      cases hfound.symm.trans hsources
      exact fun s hs _ _ _ _ => hdir s hs
    have hcalm' : Calm (batches 2) plainConfig ((run plainConfig plainOccasion).runOn reread).2 := by
      refine calm_of_directories (fun sources hsources => ?_) (covers_batches 2)
      cases hfound'.symm.trans hsources
      exact fun s hs _ _ _ _ => hdir' s hs
    have hrepeats := h plainConfig plainOccasion reread _ _ _ _ hv hset (by simp [plainConfig])
      (fun sources hsources => ?_) hcalm hcalm' (Work.runOn_eq_of_end hreport)
      (Work.runOn_eq_of_end hreport')
    · exact absurd hrepeats.failures (by decide)
    · cases hfound.symm.trans hsources
      exact ⟨hseparate, hready⟩
  · have hreport' :
        ((run plainConfig plainOccasion).runOn ((run plainConfig racingOccasion).runOn raced).2).1 =
          .ok ⟨["sub/b.html".toList], ["sub/a.html".toList], [], []⟩ := by
      decide +kernel
    have hrepeats := h plainConfig racingOccasion plainOccasion raced _ _ _ _ raced_findsFair
      (by simp [plainConfig]) (Work.runOn_eq_of_end raced_meets.2) (Work.runOn_eq_of_end hreport')
    exact absurd hrepeats.written (by decide)
  · obtain ⟨hreport', hchanged⟩ :
        ((run plainConfig plainOccasion).runOn misnamedAfter).1 =
          .ok ⟨[], [], [Point.byte 127 :: ".ts.tmp".toList],
            [⟨Point.byte 127 :: ".html".toList, misnamedError⟩]⟩ ∧
        ((run plainConfig plainOccasion).runOn misnamedAfter).2.root.see?
            ["out".toList, Point.byte 127 :: ".css.ts".toList] ≠
          ((run plainConfig plainOccasion).runOn misnamed).2.root.see?
            ["out".toList, Point.byte 127 :: ".css.ts".toList] := by
      decide +kernel
    have hcalm : Calm (batches 2) plainConfig misnamed := by
      refine calm_of_directories (fun sources hsources => ?_) (covers_batches 2)
      cases misnamed_meets.1.found.symm.trans hsources
      decide +kernel
    exact hchanged (h plainConfig plainOccasion misnamed _ misnamedAfter _ _ _ misnamed_findsFair
      hcalm (by simp [plainConfig]) (Work.runOn_eq_of_end misnamed_meets.2) rfl
      (Work.runOn_eq_of_end hreport') _ (by simp [plainConfig]))
  · obtain ⟨hv, hset, hfound, hfair, hdir, ⟨report, hreport, hkind⟩, ⟨report', hreport', hfails⟩⟩ :
        cramped.root.Valid ∧ plainConfig.Settled cramped.root ∧
        foundBy plainConfig cramped = .ok crampedSources ∧
        Fair (afterOpening plainConfig cramped).root (rootsOf plainConfig) crampedSources ∧
        (∀ s ∈ markupOf crampedSources,
          (afterOpening plainConfig cramped).root.see? (s.directory plainConfig.outputRoot) =
            some .directory) ∧
        (∃ report ∈ ((run plainConfig racingOccasion).runOn cramped).1.toOption,
          ∀ failure ∈ report.failures, ¬ unencodableKind <+: failure.error) ∧
        ∃ report ∈ ((run plainConfig racingOccasion).runOn
            ((run plainConfig racingOccasion).runOn cramped).2).1.toOption,
          some report.failures ≠ ((run plainConfig racingOccasion).runOn cramped).1.toOption.map
            Report.failures := by
      decide +kernel
    have hfinds : FindsFair plainConfig cramped :=
      ⟨hv, hset, fun sources hsources => by cases hfound.symm.trans hsources; exact hfair⟩
    have hcalm : Calm (batches 2) plainConfig cramped := by
      refine calm_of_directories (fun sources hsources => ?_) (covers_batches 2)
      cases hfound.symm.trans hsources
      exact fun s hs _ _ _ _ => hdir s hs
    have hrepeats := h plainConfig racingOccasion cramped _ _ _ _ hfinds hcalm
      (by simp [plainConfig]) hkind (Work.runOn_eq_of_mem hreport)
      (Work.runOn_eq_of_mem hreport')
    refine hfails ?_
    rw [hreport, hrepeats.failures]
    rfl

end Build
end TemplateBindings
