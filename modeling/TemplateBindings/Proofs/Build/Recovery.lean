import TemplateBindings.Proofs.Build.Again

/-!
# Recovering from an interrupted run

A run may be interrupted while it works on its sources. The run after it does the rest
(`TemplateBindings.Build.run_recovers`): it leaves what the first run would have left. Only a source
that was done with is taken for current, and then all its outputs are kept, an old one included that
the first run would have removed in the end (`TemplateBindings.Build.run_keeps_stale`).
-/

namespace TemplateBindings
namespace Build

open Files

variable {plan : List Source → List (List Source)} {config : Config} {occasion occasion' : Occasion}
  {disk opened worked last stopped later reopened worked' last' : Disk} {roots : Roots}
  {sources order : List Source} {todo : List (List Source)} {done : Source → Prop}
  {outcomes outcomes' : List (Source × Outcome)} {report : Report} {turns : List (List Nat)}
  {paths paths' : List Path} {operations operations' front back : List Operation}
  {s t : Source} {q out : Path} {sight : Option Sight} {start files : Entry}
  {trace first second : List (Source × Operation)}

/-! ### Part of the work -/

/-- **What is due for a source whose module is as at the start** is what was due then. -/
theorem Steady.due_eq (h : Steady roots sources todo start) (hs : s ∈ todo.flatten)
    (hroot : OutputRoot files roots.output) (hready : Ready files roots.output s)
    (hholds : (start.put none roots.output).Holds files)
    (hsame : files.see? (s.outputs roots.output).module =
      start.see? (s.outputs roots.output).module) :
    due files roots sources s = due start roots sources s ∧
      jobOf files roots sources s = jobOf start roots sources s := by
  have hmodule := existingMarker_congr hroot h.root (h.orderly.regular s hs) (h.orderly.markup s hs)
    hready (h.ready s hs) (congrArg markerSeen hsame)
  have hstart := h.holds (.refl _ _ _) h.ne_nil
  exact ⟨due_congr (h.view s hs) hholds hstart hmodule,
    jobOf_congr (h.view s hs) hholds hstart hmodule⟩

/-- **Part of what is done for a source** leaves its module as it was, unless it is all and the files
that were due are written: the module comes last. -/
theorem Settled.module_left {outcome : Outcome} {part : List Operation} {now : Int} {seen : Seen}
    (h : Settled start roots sources s outcome operations) (hs : s.Regular)
    (hpart : part <+: operations)
    (hshort : ∀ made, due start roots sources s = .ok (some made) → firstFault? made = none →
      part ≠ operations) :
    Operation.effects now seen part (s.outputs roots.output).module =
      seen (s.outputs roots.output).module := by
  obtain ⟨directories, hmaking, -, rfl⟩ := h.operations_eq
  have hplace : IsPlace roots.output s (s.outputs roots.output).module := .inl List.mem_cons_self
  rcases prefix_append_cases hpart with hfront | ⟨tail, rfl, htail⟩
  · exact effects_making_own hs (fun o ho => hmaking o (hfront.subset ho)) hplace
  · have hway : Operation.effects now seen directories (s.outputs roots.output).module =
        seen (s.outputs roots.output).module := effects_making_own hs hmaking hplace
    rcases hdue : due start roots sources s with e | _ | made
    · rw [hdue] at htail
      rw [List.prefix_nil.1 htail, List.append_nil, hway]
    · rw [hdue] at htail
      rw [List.prefix_nil.1 htail, List.append_nil, hway]
    · rw [hdue] at htail hshort
      obtain ⟨marker, artifacts, -, -, rfl, -⟩ := of_due hdue
      obtain ⟨front, hfront, -⟩ := artifactFiles_eq s.name artifacts
      have hdistinct := @distinct_artifactFiles s artifacts
      rw [hfront] at hdistinct htail hshort
      rw [effects_append, ← hway, Source.module_eq hs]
      exact effects_writing_last hdistinct htail fun hfault he =>
        hshort _ rfl hfault (congrArg _ he)

/-- **What an interrupted run leaves** when it was done with some sources: their jobs are done, the
modules of the others are as they were, and only places of jobs have changed. -/
structure Interrupted (roots : Roots) (sources order : List Source) (done : Source → Prop)
    (opened : Disk) (files : Entry) : Prop where
  /-- The places of the sources are touched, and nothing else. -/
  touches : Touches roots.output order opened.root.see? files.see?
  /-- For a source that was done with, files were due that are text. -/
  wasDue : ∀ s ∈ order, done s →
    ∃ made, due opened.root roots sources s = .ok (some made) ∧ firstFault? made = none
  /-- What its job settles is settled. -/
  settles : ∀ s ∈ order, done s → ∀ q sight,
    (jobOf opened.root roots sources s).Settles opened.now (s.directory roots.output) q sight →
      files.see? q = sight
  /-- What no job concerns is as it was. -/
  within : ∀ q, files.see? q = opened.root.see? q ∨ ∃ s ∈ order,
    (jobOf opened.root roots sources s).Concerns (s.directory roots.output) q
  /-- The modules of the other sources are as they were. -/
  pending : ∀ s ∈ order, ¬ done s → files.see? (s.outputs roots.output).module =
    opened.root.see? (s.outputs roots.output).module

/-- What was performed for a source is part of what is performed for it in all. -/
theorem actsOf_prefixed (s : Source) (h : first ++ second = trace) :
    Thread.actsOf s first <+: Thread.actsOf s trace := by
  rw [← h, Thread.actsOf_append]
  exact List.prefix_append _ _

/-- **Work on sources can be stopped after any of its operations.** -/
theorem Done.interrupted
    (h : Done roots sources order opened worked outcomes trace)
    (hp : Prepared roots.output order opened.root) (htrace : first ++ second = trace)
    (hfirst : opened.Undergoes (first.map Prod.snd) stopped) :
    Interrupted roots sources order (fun s => Thread.actsOf s first = Thread.actsOf s trace ∧
      ∃ made, due opened.root roots sources s = .ok (some made) ∧ firstFault? made = none)
      opened stopped.root := by
  have hserves : ∀ m ∈ first, m.1 ∈ order ∧ Serves roots.output m.1 m.2 := fun m hm =>
    h.worked.serves m (htrace ▸ List.mem_append_left _ hm)
  -- in the places of a source, its own operations tell
  have hown {s : Source} (hs : s ∈ order) {q : Path} (hq : IsPlace roots.output s q) :
      stopped.root.see? q =
        Operation.effects opened.now opened.root.see? (Thread.actsOf s first) q := by
    rw [hfirst.see?_eq]
    exact hp.orderly.effects_own hs hserves hq
  refine ⟨?_, fun s _ hdone => hdone.2, fun s hs hdone q sight hsettles => ?_, fun q => ?_,
    fun s hs hnot => ?_⟩
  · refine .of_undergoes hfirst (fun operation ho => ?_) hp.orderly.regular
      fun t ht => hp.unlinked ht
    obtain ⟨m, hm, rfl⟩ := List.mem_map.1 ho
    exact ⟨m.1, hserves m hm⟩
  · obtain ⟨hall, made, hdue, hfault⟩ := hdone
    obtain ⟨outcome, hsettled⟩ := h.settled_of_mem hs
    have hr := hp.orderly.regular s hs
    have hconcerns : (jobOf opened.root roots sources s).Concerns (s.directory roots.output) q := by
      by_contra hnot
      exact Job.not_leaves_of_settles hsettles (Job.leaves_of_not_concerns hnot)
    have hplaced {q : Path} (hq : IsPlace roots.output s q) : stopped.root.see? q =
        (jobOf opened.root roots sources s).after opened.now (s.directory roots.output)
          opened.root.see? q := by
      rw [hown hs hq, hall, hsettled.effects_eq hr hq]
    rcases concerns_jobOf hr hconcerns with hway | hq
    · -- the module is in the directory of the source
      obtain ⟨marker, artifacts, -, -, rfl, -⟩ := of_due hdue
      have hfile : (s.name ++ moduleSuffix, artifacts.module) ∈ artifactFiles s.name artifacts := by
        simp [artifactFiles]
      have hmodule := hplaced (q := (s.outputs roots.output).module) (.inl List.mem_cons_self)
      rw [jobOf_deliver.2 hdue, Source.module_eq hr, Job.after,
        effects_writing (distinct_artifactFiles artifacts) hfault hfile] at hmodule
      rw [← hsettles.unique (Job.settles_directory hconcerns.ne_idle hway)]
      refine Entry.see?_directory_of_prefix (hway.trans (List.prefix_append _ _)) (fun he => ?_)
        (by rw [hmodule]; simp)
      exact s.not_prefix_directory _ _ (he ▸ hway)
    · rw [hplaced hq, hsettles]
  · by_cases hconcerns : ∃ s ∈ order,
        (jobOf opened.root roots sources s).Concerns (s.directory roots.output) q
    · exact .inr hconcerns
    · left
      rw [hfirst.see?_eq]
      refine effects_of_not_mem _ _ fun operation ho hq => ?_
      obtain ⟨⟨t, operation⟩, hm, rfl⟩ := List.mem_map.1 ho
      obtain ⟨outcome, hsettled⟩ := h.settled_of_mem (hserves _ hm).1
      refine hconcerns ⟨t, (hserves _ hm).1, hsettled.concerns ?_ hq⟩
      exact (actsOf_prefixed t htrace).subset (Thread.mem_actsOf.2 hm)
  · obtain ⟨outcome, hsettled⟩ := h.settled_of_mem hs
    rw [hown hs (.inl List.mem_cons_self)]
    exact hsettled.module_left (hp.orderly.regular s hs) (actsOf_prefixed s htrace)
      fun made hdue hfault hall => hnot ⟨hall, made, hdue, hfault⟩

/-- **A steady run can be interrupted after any operation of its work.** -/
theorem Steady.interrupted (h : Steady roots sources todo opened.root)
    (hfront : opened.Undergoes front stopped)
    (hback : stopped.Undergoes back ((workThrough roots sources turns todo).run opened).2) :
    ∃ done, Interrupted roots sources todo.flatten done opened stopped.root := by
  obtain ⟨trace, hdone⟩ := h.done turns
  have hall : front ++ back = trace.map Prod.snd :=
    (hfront.append hback).operations_unique hdone.worked.performs.undergoes
  obtain ⟨first, second, htrace, rfl, -⟩ := List.map_eq_append_iff.1 hall.symm
  exact ⟨_, hdone.interrupted h.toPrepared htrace.symm hfront⟩

/-! ### After an interruption -/

section Interrupted

variable (h : Interrupted roots sources order done opened files)
  (hp : Prepared roots.output order opened.root)

include h hp

/-- Nothing outside the outputs has changed. -/
theorem Interrupted.outside (hq : ¬ roots.output <+: q) : files.see? q = opened.root.see? q :=
  h.touches.outside hp.orderly.regular hp.root.directory hq

/-- What is read without the outputs is read the same after an interruption. -/
theorem Interrupted.holds (hne : roots.output ≠ []) :
    (opened.root.put none roots.output).Holds (files.put none roots.output) := by
  rcases List.eq_nil_or_concat roots.output with hnil | ⟨way, name, hout⟩
  · exact absurd hnil hne
  · rw [List.concat_eq_append] at hout
    intro q sight hq
    rw [hout, Entry.see?_put_none, ← hout] at hq ⊢
    split at hq
    · cases hq
    · next hnot =>
      rw [if_neg hnot, h.outside hp hnot, hq]

end Interrupted

/-- It takes no more than what is seen. -/
theorem Interrupted.congr {files' : Entry} (h : Interrupted roots sources order done opened files)
    (hsee : files'.see? = files.see?) : Interrupted roots sources order done opened files' := by
  refine ⟨?_, h.wasDue, ?_, ?_, ?_⟩
  · rw [hsee]
    exact h.touches
  · rw [hsee]
    exact h.settles
  · rw [hsee]
    exact h.within
  · rw [hsee]
    exact h.pending

/-- Inputs that are in view are in view where more is seen. -/
theorem InView.of_holds {view view' : Entry} {root : Path} (h : InView view root sources s)
    (hh : view.Holds view') : InView view' root sources s := by
  have hfile {path : Path} (hpath : isFile view path = .ok true) : isFile view' path = .ok true := by
    obtain ⟨bytes, time, hr⟩ := isFile_eq_true.1 hpath
    exact isFile_eq_true.2 ⟨bytes, time, hr.of_holds hh⟩
  exact ⟨hfile h.1, fun sheet hsheet => hfile (h.2 sheet hsheet)⟩

section Steady

variable (h : Interrupted roots sources todo.flatten done opened files)
  (hsteady : Steady roots sources todo opened.root)

include h hsteady

theorem Interrupted.holds_files : (opened.root.put none roots.output).Holds files :=
  hsteady.holds h.touches hsteady.ne_nil

/-- A source that was done with is current. -/
theorem Interrupted.current (hs : s ∈ todo.flatten) (hdone : done s) :
    due files roots sources s = .ok none := by
  obtain ⟨made, hdue, hfault⟩ := h.wasDue s hs hdone
  have hstart := hsteady.holds (.refl _ _ _) hsteady.ne_nil
  refine due_of_written (hsteady.orderly.regular s hs) (hsteady.orderly.markup s hs) hsteady.root
    (hsteady.root_of_touches h.touches) (hsteady.ready s hs)
    (hsteady.ready_of_touches h.touches hs) ?_ hdue hfault fun file hfile => ?_
  · rw [markerOf_of_holds (hsteady.view s hs) hstart,
      markerOf_of_holds (hsteady.view s hs) (h.holds_files hsteady)]
  · refine ⟨opened.now, h.settles s hs hdone _ _ fun seen => ?_⟩
    obtain ⟨marker, artifacts, -, -, rfl, -⟩ := of_due hdue
    rw [jobOf_deliver.2 hdue]
    exact effects_writing (distinct_artifactFiles artifacts) hfault hfile

/-- For the others the same is due as before. -/
theorem Interrupted.due_eq (hs : s ∈ todo.flatten) (hnot : ¬ done s) :
    due files roots sources s = due opened.root roots sources s ∧
      jobOf files roots sources s = jobOf opened.root roots sources s :=
  hsteady.due_eq hs (hsteady.root_of_touches h.touches) (hsteady.ready_of_touches h.touches hs)
    (h.holds_files hsteady) (h.pending s hs hnot)

/-- What is stale after an interruption was stale before. -/
theorem Interrupted.isStale (hs : s ∈ todo.flatten) (hstale : IsStale files roots sources s) :
    IsStale opened.root roots sources s := by
  by_cases hdone : done s
  · obtain ⟨made, hdue, -⟩ := h.wasDue s hs hdone
    obtain ⟨marker, artifacts, hstale, -⟩ := of_due hdue
    exact ⟨marker, hstale⟩
  · exact isStale_of_jobOf_eq (h.due_eq hsteady hs hdone).2 hstale

/-- **No source is contended after an interruption** that was not before: of the sources that might
have made its directory, those that were done with have made it. -/
theorem Interrupted.not_contended (hs : s ∈ todo.flatten) : ¬ Contended files roots sources todo s := by
  rintro ⟨hcompiles, hmissing, earlier, batch, later, hsplit, hmem, ⟨t, ht, hne, hdir, hmay⟩, hearly⟩
  have hnot : ¬ done s := fun hdone => by
    obtain ⟨marker, hstale⟩ := hcompiles.isStale
    rw [due_eq_none.1 (h.current hsteady hs hdone)] at hstale
    cases hstale
  have hin {u : Source} (hu : u ∈ earlier.flatten ∨ u ∈ batch) : u ∈ todo.flatten := by
    rw [hsplit, List.flatten_append, List.flatten_cons]
    exact hu.elim (List.mem_append_left _) fun hu =>
      List.mem_append_right _ (List.mem_append_left _ hu)
  refine hsteady.calm s hs ⟨?_, fun hthere => hmissing ?_, earlier, batch, later, hsplit, hmem,
    ⟨t, ht, hne, hdir, fun hview => ?_⟩, fun u hu hpre henters => ?_⟩
  · obtain ⟨marker, artifacts, hstale, hcompiled⟩ := hcompiles
    have hsame := (h.due_eq hsteady hs hnot).2
    obtain ⟨marker', hstale'⟩ := isStale_of_jobOf_eq hsame ⟨marker, hstale⟩
    have hmarker := (of_staleMarker? hstale).1
    have hmarker' := (of_staleMarker? hstale').1
    have hstart := hsteady.holds (.refl _ _ _) hsteady.ne_nil
    rw [markerOf_of_holds (hsteady.view s hs) (h.holds_files hsteady),
      ← markerOf_of_holds (hsteady.view s hs) hstart, hmarker'] at hmarker
    cases hmarker
    refine ⟨marker, artifacts, hstale', ?_⟩
    rw [compileSource_of_holds (hsteady.view s hs) hstart,
      ← compileSource_of_holds (hsteady.view s hs) (h.holds_files hsteady), hcompiled]
  · exact hsteady.directory_of_touches h.touches hthere
  · exact h.isStale hsteady (hin (.inr ht))
      (hmay ((hsteady.view t (hin (.inr ht))).of_holds (h.holds hsteady.toPrepared hsteady.ne_nil)))
  · have hu' := hin (.inl hu)
    by_cases hdone : done u
    · obtain ⟨made, hdue, -⟩ := h.wasDue u hu' hdone
      obtain ⟨marker, artifacts, hstale, -⟩ := of_due hdue
      have hjob : jobOf opened.root roots sources u ≠ .idle := fun he =>
        jobOf_idle.1 he ⟨marker, hstale⟩
      exact hmissing (h.settles u hu' hdone _ _ (Job.settles_directory hjob hpre))
    · refine hearly u hu hpre ⟨henters.view.of_holds (h.holds hsteady.toPrepared hsteady.ne_nil),
        isStale_of_jobOf_eq (h.due_eq hsteady hu' hdone).2.symm henters.stale,
        henters.roomy.mono fun q hq => hsteady.directory_of_touches h.touches hq⟩

/-- **After an interruption a run is steady again.** -/
theorem Interrupted.steady
    (hroomy : ∀ s ∈ todo.flatten, (s.directory roots.output).Roomy opened.root directoryRoom) :
    Steady roots sources todo files where
  toPrepared := hsteady.of_touches h.touches
  ne_nil := hsteady.ne_nil
  roomy s hs _ := (hroomy s hs).mono fun _ hq => hsteady.directory_of_touches h.touches hq
  calm _ hs := h.not_contended hsteady hs
  view s hs := (hsteady.view s hs).of_holds (h.holds hsteady.toPrepared hsteady.ne_nil)

end Steady

/-! ### The run after it -/

theorem Sight.untimed_eq_directory {sight : Sight} :
    sight.untimed = .directory ↔ sight = .directory := by
  cases sight <;> simp [Sight.untimed]

/-- What is kept is kept where the same is seen, times aside, and no less is to be kept. -/
theorem Kept.mono {files files' : Entry} {keep keep' : List Path}
    (hseen : ∀ q, (files'.see? q).map Sight.untimed = (files.see? q).map Sight.untimed)
    (hkeep : ∀ q ∈ keep, q ∈ keep') (h : Kept files keep q) : Kept files' keep' q := by
  obtain ⟨below, sight, hp, hs, hne, hmem⟩ := h
  have hsame := hseen below
  rw [hs] at hsame
  obtain ⟨sight', hs', he⟩ := Option.map_eq_some_iff.1 hsame
  refine ⟨below, sight', hp, hs', fun hdir => hne ?_, hkeep below hmem⟩
  rw [← Sight.untimed_eq_directory, ← he, hdir]
  rfl

/-- **A source that was written before an interruption**, and is current after it. -/
structure DoneBefore (config : Config) (sources : List Source) (done : Source → Prop)
    (opened reopened : Disk) (s : Source) : Prop where
  /-- The source was done with. -/
  mem : done s
  /-- It was due to be written. -/
  due : ∃ made, Build.due opened.root (rootsOf config) sources s = .ok (some made) ∧
    firstFault? made = none
  /-- It is not any more. -/
  current : Build.due reopened.root (rootsOf config) sources s = .ok none

/-- **A run and the run after it was interrupted**, up to the end of the work of the second. -/
structure Resumed (config : Config) (sources : List Source) (todo : List (List Source))
    (done : Source → Prop) (opened worked : Disk) (outcomes : List (Source × Outcome))
    (last reopened worked' : Disk) (outcomes' : List (Source × Outcome)) : Prop where
  /-- The log is not among the outputs. -/
  apart : ∀ log ∈ config.auditLog, ¬ config.outputRoot <+: log
  /-- The work of the first run, had it not been interrupted. -/
  first : WorkDone config sources todo opened worked outcomes
  /-- Its end. -/
  ends : ∃ paths operations, Concludes config outcomes worked last paths operations
  /-- The first run was interrupted. -/
  interrupted : Interrupted (rootsOf config) sources todo.flatten done opened reopened.root
  /-- The work of the second run. -/
  second : WorkDone config sources todo reopened worked' outcomes'
  /-- Sources that were written are current, and for the others the same is due. -/
  jobs : ∀ s ∈ todo.flatten,
    DoneBefore config sources done opened reopened s ∨
    (due reopened.root (rootsOf config) sources s = due opened.root (rootsOf config) sources s ∧
      jobOf reopened.root (rootsOf config) sources s = jobOf opened.root (rootsOf config) sources s)

/-- A source for which nothing is due has nothing done for it. -/
theorem jobOf_of_due_none (h : due files roots sources s = .ok none) :
    jobOf files roots sources s = .idle := by
  refine jobOf_idle.2 fun ⟨marker, hstale⟩ => ?_
  rw [due_eq_none.1 h] at hstale
  cases hstale

section WorkDone

variable (h : WorkDone config sources todo opened worked outcomes)

include h

/-- What a job settles is settled when the work is done. -/
theorem WorkDone.settles (hs : s ∈ todo.flatten)
    (hsettles : (jobOf opened.root (rootsOf config) sources s).Settles opened.now
      (s.directory config.outputRoot) q sight) : worked.root.see? q = sight := by
  obtain ⟨trace, hdone⟩ := h.done
  rw [hdone.see?_eq h.steady.orderly]
  exact afterJobs_of_settles hs hsettles fun t ht => h.steady.orderly.agree hs ht hsettles

/-- What no job concerns is left. -/
theorem WorkDone.leaves (hnot : ∀ s ∈ todo.flatten,
      ¬ (jobOf opened.root (rootsOf config) sources s).Concerns (s.directory config.outputRoot) q) :
    worked.root.see? q = opened.root.see? q := by
  obtain ⟨trace, hdone⟩ := h.done
  rw [hdone.see?_eq h.steady.orderly]
  exact afterJobs_of_leaves fun s hs => Job.leaves_of_not_concerns (hnot s hs)

/-- What is kept in the place of an output is left as the work left it. -/
theorem WorkDone.output_left (hends : Concludes config outcomes worked last paths operations)
    (hs : s ∈ todo.flatten) (hq : q ∈ (s.outputs config.outputRoot).all)
    (hkeep : q ∈ keepOf config outcomes) : last.root.see? q = worked.root.see? q := by
  have hbelow := (outputs_below (h.steady.orderly.regular s hs) hq).1
  rcases hsight : worked.root.see? q with _ | sight
  · by_cases hkept : Kept worked.root (keepOf config outcomes) q
    · rw [hends.stays q hbelow hkept, hsight]
    · exact hends.gone q hbelow hkept
  · rw [hends.stays q hbelow ⟨q, sight, List.prefix_rfl, hsight, ?_, hkeep⟩, hsight]
    rintro rfl
    have hwritable := (h.steady.ready_of_touches h.touches hs).outputs q hq
    rw [hsight] at hwritable
    exact hwritable

/-- **A file that was due is there when the work is done**, and is kept. -/
theorem WorkDone.file_kept {made : List (Str × Str)} {file : Str × Str}
    (hs : s ∈ todo.flatten)
    (hdue : due opened.root (rootsOf config) sources s = .ok (some made))
    (hfault : firstFault? made = none) (hfile : file ∈ made) :
    s.directory config.outputRoot ++ [file.1] ∈ keepOf config outcomes ∧
      worked.root.see? (s.directory config.outputRoot ++ [file.1]) =
        some (.file file.2.bytes opened.now) := by
  refine ⟨h.mem_keep.2 (.inr ⟨s, hs, ?_⟩), h.settles hs ?_⟩
  · rw [hdue, outcomeOf, hfault]
    exact List.mem_map.2 ⟨_, List.mem_map.2 ⟨file, hfile, rfl⟩, rfl⟩
  · obtain ⟨marker, artifacts, -, -, rfl, -⟩ := of_due hdue
    rw [jobOf_deliver.2 hdue]
    exact fun seen => effects_writing (distinct_artifactFiles artifacts) hfault hfile

/-- What is above a source for which files were due is kept, since its module is. -/
theorem WorkDone.way_kept {made : List (Str × Str)} (hs : s ∈ todo.flatten)
    (hdue : due opened.root (rootsOf config) sources s = .ok (some made))
    (hfault : firstFault? made = none) (hq : q <+: s.directory config.outputRoot) : Kept worked.root (keepOf config outcomes) q := by
  obtain ⟨marker, artifacts, -, -, rfl, -⟩ := of_due hdue
  have hfile : (s.name ++ moduleSuffix, artifacts.module) ∈ artifactFiles s.name artifacts := by
    simp [artifactFiles]
  obtain ⟨hkeep, hsee⟩ := h.file_kept hs hdue hfault hfile
  exact ⟨_, _, hq.trans (List.prefix_append _ _), hsee, by simp, hkeep⟩

end WorkDone

section Resumed

variable (h : Resumed config sources todo done opened worked outcomes last reopened worked' outcomes')

include h

/-- **The work of both runs leaves the same**, times aside. -/
theorem Resumed.seen_eq (q : Path) :
    (worked'.root.see? q).map Sight.untimed = (worked.root.see? q).map Sight.untimed := by
  by_cases hsecond : ∃ s ∈ todo.flatten,
      (jobOf reopened.root (rootsOf config) sources s).Concerns (s.directory config.outputRoot) q
  · obtain ⟨s, hs, hconcerns⟩ := hsecond
    rcases h.jobs s hs with hbefore | ⟨-, hjob⟩
    · rw [jobOf_of_due_none hbefore.current] at hconcerns
      exact hconcerns.elim
    · obtain ⟨sight', hsettles'⟩ := Job.settles_of_concerns reopened.now hconcerns
      rw [hjob] at hconcerns
      obtain ⟨sight, hsettles⟩ := Job.settles_of_concerns opened.now hconcerns
      rw [h.second.settles hs hsettles', h.first.settles hs hsettles]
      rw [hjob] at hsettles'
      rw [← hsettles fun _ => none, ← hsettles' fun _ => none]
      exact Job.after_untimed rfl
  · rw [h.second.leaves fun s hs hc => hsecond ⟨s, hs, hc⟩]
    by_cases hfirst : ∃ s ∈ todo.flatten,
        (jobOf opened.root (rootsOf config) sources s).Concerns (s.directory config.outputRoot) q
    · -- the source was done with before the interruption
      obtain ⟨s, hs, hconcerns⟩ := hfirst
      rcases h.jobs s hs with hbefore | ⟨-, hjob⟩
      · obtain ⟨sight, hsettles⟩ := Job.settles_of_concerns opened.now hconcerns
        rw [h.interrupted.settles s hs hbefore.mem q sight hsettles, h.first.settles hs hsettles]
      · rw [← hjob] at hconcerns
        exact absurd ⟨s, hs, hconcerns⟩ hsecond
    · rw [(h.interrupted.within q).resolve_right hfirst,
        h.first.leaves fun s hs hc => hfirst ⟨s, hs, hc⟩]

/-- **The second run keeps what the first one keeps.** -/
theorem Resumed.mem_keep (hq : q ∈ keepOf config outcomes) : q ∈ keepOf config outcomes' := by
  rw [h.second.mem_keep]
  refine (h.first.mem_keep.1 hq).imp_right fun ⟨s, hs, hkeeps⟩ => ⟨s, hs, ?_⟩
  rcases h.jobs s hs with ⟨-, ⟨made, hmade, hfault⟩, hnone⟩ | ⟨hdue, -⟩
  · rw [hnone]
    rw [hmade, outcomeOf, hfault] at hkeeps
    exact outputs_of_due (h.first.steady.orderly.regular s hs) hmade hkeeps
  · rw [hdue]
    exact hkeeps

/-- **What it keeps beyond that** are outputs of sources that the first run was done with. -/
theorem Resumed.of_mem_keep (hq : q ∈ keepOf config outcomes') :
    q ∈ keepOf config outcomes ∨ ∃ s ∈ todo.flatten,
      DoneBefore config sources done opened reopened s ∧ q ∈ (s.outputs config.outputRoot).all := by
  rcases h.second.mem_keep.1 hq with hlog | ⟨s, hs, hkeeps⟩
  · exact .inl (h.first.mem_keep.2 (.inl hlog))
  · rcases h.jobs s hs with hbefore | ⟨hdue, -⟩
    · rw [hbefore.current] at hkeeps
      exact .inr ⟨s, hs, hbefore, hkeeps⟩
    · rw [hdue] at hkeeps
      exact .inl (h.first.mem_keep.2 (.inr ⟨s, hs, hkeeps⟩))

/-- **The second run ends with a report.** -/
theorem Resumed.concluding_isOk (hset : config.Settled worked'.root) (occasion : Occasion) :
    ∃ paths last' operations,
      (concluding config occasion outcomes').runOn worked' =
        (.ok (reportAt config outcomes' paths), last') ∧
      Concludes config outcomes' worked' last' paths operations := by
  obtain ⟨paths, operations, hends⟩ := h.ends
  have hdir {q : Path} (hq : worked'.root.see? q = some .directory) :
      worked.root.see? q = some .directory := by
    have hsame := h.seen_eq q
    rw [hq] at hsame
    obtain ⟨sight, hs, he⟩ := Option.map_eq_some_iff.1 hsame.symm
    rw [hs, Sight.untimed_eq_directory.1 he]
  refine Build.concluding_isOk hset h.apart h.second.valid h.second.root ?_ ?_ ?_ occasion
  · rintro q ⟨hq, hd, hlen⟩
    exact hends.shallow q ⟨hq, hdir hd, hlen⟩
  · intro q hq hs hkept
    refine (hends.removed q hq (fun hnone => hs ?_) fun hkept' =>
      hkept (hkept'.mono h.seen_eq fun q hq => h.mem_keep hq)).2
    have hsame := h.seen_eq q
    rwa [hnone, Option.map_none, Option.map_eq_none_iff] at hsame
  · intro log hl
    have hready := hends.log log hl
    have hproper := hset.log_proper log hl
    have houtside {q : Path} (hq : ¬ config.outputRoot <+: q) :
        worked'.root.see? q = worked.root.see? q := by
      rw [h.second.outside hq, h.first.outside hq]
      exact h.interrupted.outside h.first.steady.toPrepared hq
    refine ⟨?_, hready.fits, ?_⟩
    · rw [houtside]
      · exact hready.directory
      · rw [Path.parent_of_proper hproper]
        exact fun hp => h.apart log hl (hp.trans (List.dropLast_prefix log))
    · rw [houtside (h.apart log hl)]
      exact hready.writable

/-- **A source that was written before the interruption** has its outputs in place. -/
theorem Resumed.placed (hends : Concludes config outcomes worked last paths operations)
    (hs : s ∈ todo.flatten) (hdone : done s)
    (hq : q ∈ (s.outputs config.outputRoot).all) (hleft : last.root.see? q ≠ none) :
    reopened.root.see? q = last.root.see? q := by
  have hr := h.first.steady.orderly.regular s hs
  have hbelow := (outputs_below hr hq).1
  have hkept : Kept worked.root (keepOf config outcomes) q := by
    by_contra hnot
    exact hleft (hends.gone q hbelow hnot)
  rw [hends.stays q hbelow hkept]
  by_cases hconcerns : (jobOf opened.root (rootsOf config) sources s).Concerns
      (s.directory config.outputRoot) q
  · obtain ⟨sight, hsettles⟩ := Job.settles_of_concerns opened.now hconcerns
    rw [h.interrupted.settles s hs hdone q sight hsettles, h.first.settles hs hsettles]
  · have hnot : ∀ t ∈ todo.flatten,
        ¬ (jobOf opened.root (rootsOf config) sources t).Concerns
          (t.directory config.outputRoot) q := by
      intro t ht hc
      by_cases he : s = t
      · exact hconcerns (he ▸ hc)
      · exact h.first.steady.orderly.not_concerns hs ht he (.inl hq) hc
    rw [(h.interrupted.within q).resolve_right fun ⟨t, ht, hc⟩ => hnot t ht hc, h.first.leaves hnot]

/-- **An output that is no longer made stays** where its source was written before the interruption. -/
theorem Resumed.stale_stays (hends : Concludes config outcomes worked last paths operations)
    (hends' : Concludes config outcomes' worked' last' paths' operations')
    (hs : s ∈ todo.flatten)
    (hbefore : DoneBefore config sources done opened reopened s)
    (hq : q ∈ (s.outputs config.outputRoot).all) (hgone : last.root.see? q = none) :
    last'.root.see? q = opened.root.see? q := by
  obtain ⟨-, ⟨made, hdue, hfault⟩, hdue'⟩ := hbefore
  have hr := h.first.steady.orderly.regular s hs
  have hothers {files : Entry} {t : Source} (ht : t ∈ todo.flatten) (hne : s ≠ t) :
      ¬ (jobOf files (rootsOf config) sources t).Concerns (t.directory config.outputRoot) q := by
    exact h.first.steady.orderly.not_concerns hs ht hne (.inl hq)
  have hkeep : q ∈ keepOf config outcomes' := by
    refine h.second.mem_keep.2 (.inr ⟨s, hs, ?_⟩)
    rw [hdue']
    exact hq
  rw [h.second.output_left hends' hs hq hkeep, h.second.leaves fun t ht hc => ?_]
  · refine (h.interrupted.within q).resolve_right fun ⟨t, ht, hc⟩ => ?_
    by_cases he : s = t
    · -- what the source makes is kept by the first run
      subst he
      rw [jobOf_deliver.2 hdue] at hc
      obtain ⟨n, hn, rfl⟩ := (Source.mem_outputs hr).1 hq
      rcases hc with hway | hwritten
      · exact s.not_prefix_directory n _ hway
      obtain ⟨file, hfile, hq' | hq'⟩ := hwritten.of_file
      · obtain ⟨hkept, hsee⟩ := h.first.file_kept hs hdue hfault hfile
        rw [hq'] at hq hgone
        cases hsee.symm.trans ((h.first.output_left hends hs hq hkept).symm.trans hgone)
      · exact Source.output_ne_draft hn file.1 (concat_inj hq').2
    · exact hothers ht he hc
  · by_cases he : s = t
    · subst he
      rw [jobOf_of_due_none hdue'] at hc
      exact hc
    · exact hothers ht he hc

/-- **The second run leaves what the first one would have left**, but for outputs of sources that were
written before the interruption. -/
theorem Resumed.last_cases (hends : Concludes config outcomes worked last paths operations)
    (hends' : Concludes config outcomes' worked' last' paths' operations')
    (hlog : q ∉ config.auditLog) :
    (last'.root.see? q).map Sight.untimed = (last.root.see? q).map Sight.untimed ∨
      ∃ s ∈ todo.flatten,
        DoneBefore config sources done opened reopened s ∧
          q ∈ (s.outputs config.outputRoot).all ∧ last.root.see? q = none := by
  by_cases hq : config.outputRoot <+: q
  · by_cases hkept : Kept worked.root (keepOf config outcomes) q
    · left
      rw [hends.stays q hq hkept,
        hends'.stays q hq (hkept.mono h.seen_eq fun q hq => h.mem_keep hq)]
      exact h.seen_eq q
    · rw [hends.gone q hq hkept]
      by_cases hkept' : Kept worked'.root (keepOf config outcomes') q
      · right
        obtain ⟨below, sight, hp, hs', hne, hmem⟩ := hkept'
        have hsame := h.seen_eq below
        rw [hs'] at hsame
        obtain ⟨sight', hs'', he⟩ := Option.map_eq_some_iff.1 hsame.symm
        have hne' : sight' ≠ .directory := fun hdir => hne (by
          rw [← Sight.untimed_eq_directory, ← he, hdir]
          rfl)
        rcases h.of_mem_keep hmem with hmem | ⟨s, hs, hbefore, hbelow⟩
        · exact absurd ⟨below, sight', hp, hs'', hne', hmem⟩ hkept
        · refine ⟨s, hs, hbefore, ?_, rfl⟩
          by_cases heq : q = below
          · exact heq ▸ hbelow
          · -- the module of the source is in the same directory
            obtain ⟨made, hdue, hfault⟩ := hbefore.due
            have hr := h.first.steady.orderly.regular s hs
            obtain ⟨n, -, rfl⟩ := (Source.mem_outputs hr).1 hbelow
            exact absurd (h.first.way_kept hs hdue hfault
              ((List.prefix_concat_iff.1 hp).resolve_left heq)) hkept
      · left
        rw [hends'.gone q hq hkept']
  · left
    rw [(hends.outside q hq).resolve_right fun hl => hlog hl.1,
      (hends'.outside q hq).resolve_right fun hl => hlog hl.1]
    exact h.seen_eq q

end Resumed

/-! ### Interrupting a run -/

/-- **A run is interrupted in its work**: its roots are opened, its sources are found, and some of the
operations of its work are performed. -/
structure Interrupts (config : Config) (disk : Disk) (sources : List Source)
    (turns : List (List Nat)) (front back : List Operation) (stopped : Disk) : Prop where
  /-- The sources are found. -/
  found : foundBy config disk = .ok sources
  /-- These operations are performed. -/
  front : (afterOpening config disk).Undergoes front stopped
  /-- These are left of the work. -/
  back : stopped.Undergoes back ((workThrough (rootsOf config) sources turns
    (batches config.workers (markupOf sources))).run (afterOpening config disk)).2

/-- **After an interruption the roots can be opened again.** -/
theorem Reported.openable_after
    (h : Reported plan config disk sources opened worked outcomes last paths operations)
    (hapart : ∀ log ∈ config.auditLog, ¬ config.outputRoot <+: log)
    (hinterrupted : Interrupted (rootsOf config) sources (plan (markupOf sources)).flatten done opened
      files) :
    Openable config files := by
  have hset := h.settled
  have hsame {path q : Path} (hp : ¬ config.outputRoot <+: path) (hq : q <+: path) :
      files.see? q = opened.root.see? q :=
    hinterrupted.outside h.works.steady.toPrepared fun hout => hp (hout.trans hq)
  have hplain {path : Path} (hpl : path.Plain opened.root) : path.Plain files :=
    hinterrupted.touches.plain hpl
  have hroot : OutputRoot files config.outputRoot :=
    h.works.steady.root_of_touches hinterrupted.touches
  refine ⟨⟨hset.input_proper, hplain hset.input_plain, hset.output_proper,
    hplain hset.output_plain, hset.apart, hset.log_proper,
    fun log hl => hplain (hset.log_plain log hl)⟩, fun log hl => ?_, ?_, hroot.fits,
    Entry.see?_directory_of_prefix_directory (List.dropLast_prefix _) hroot.directory,
    .inr hroot.directory⟩
  · have hp := hset.log_proper log hl
    have hpre : log.parent <+: log := by
      rw [Path.parent_of_proper hp]
      exact List.dropLast_prefix log
    refine ⟨?_, (h.concludes.log log hl).fits.of_isPrefix hp hpre⟩
    rw [hsame (hapart log hl) hpre, ← h.works.outside fun hq => hapart log hl (hq.trans hpre)]
    exact (h.concludes.log log hl).directory
  · obtain ⟨hin, hfits⟩ := (isDirectory_eq_true hset.input_proper hset.input_plain).1 h.input
    refine (isDirectory_eq_true hset.input_proper (hplain hset.input_plain)).2 ⟨?_, hfits⟩
    rw [hsame hset.apart List.prefix_rfl, hin]

/-- **The second run does what is left of the work.** -/
theorem Reported.resumed
    (h : Reported (batches config.workers) config disk sources opened worked outcomes last paths
      operations)
    (hfinds : FindsFair config disk) (hapart : ∀ log ∈ config.auditLog, ¬ config.outputRoot <+: log)
    (hinterrupts : Interrupts config disk sources turns front back stopped)
    (hroot : later.root = stopped.root)
    (hsame : Unchanged config.inputRoot config.outputRoot (afterOpening config disk).root
      (afterOpening config later).root) (turns' : List (List Nat)) :
    ∃ done reopened worked' outcomes',
      (openRoots config).runOn later = (.ok (rootsOf config), reopened) ∧
      config.Settled later.root ∧
      discover reopened.root config.inputRoot [config.outputRoot] = .ok sources ∧
      (workThrough (rootsOf config) sources turns'
        (batches config.workers (markupOf sources))).run reopened = (outcomes', worked') ∧
      reopened.root.see? = stopped.root.see? ∧ config.Settled worked'.root ∧
      Resumed config sources (batches config.workers (markupOf sources)) done opened worked outcomes
        last reopened worked' outcomes' := by
  have hsteady := h.works.steady
  have hfront := hinterrupts.front
  have hback := hinterrupts.back
  rw [h.opened_eq] at hfront hback hsame
  obtain ⟨done, hstopped⟩ := hsteady.interrupted hfront hback
  have hopenable := h.openable_after hapart hstopped
  rw [← hroot] at hopenable
  obtain ⟨reopened, made, hlater, hopens, hsee⟩ := openRoots_isOk hopenable
  rw [hroot] at hsee
  have hsee : reopened.root.see? = stopped.root.see? := by
    rw [hsee, Function.update_eq_self_iff]
    exact (hsteady.root_of_touches hstopped.touches).directory.symm
  have hinterrupted := hstopped.congr hsee
  have hvalid : reopened.root.Valid := by
    refine hopens.undergoes.valid ?_
    rw [hroot]
    exact hfront.valid h.valid
  have hsettled : config.Settled reopened.root := hopens.settled hopenable.settled
  have hdiscovers : discover reopened.root config.inputRoot [config.outputRoot] = .ok sources := by
    rw [afterOpening, hlater] at hsame
    refine hsame.discover_eq h.valid hvalid h.settled.input_proper h.settled.input_plain
      hsettled.input_plain h.input (hopens.input _ rfl) h.settled.apart hsteady.root.directory
      (hopens.output _ rfl).directory (fun q hq hleaf => ?_) h.discovers
    obtain ⟨sight, hs, hne⟩ := hleaf
    exact ⟨sight, (hinterrupted.outside hsteady.toPrepared hq).trans hs, hne⟩
  have hfair := hfinds.fair sources h.found
  rw [h.opened_eq] at hfair
  have hagain := hinterrupted.steady hsteady fun s hs =>
    hfair.roomy s ((covers_batches _ _).mem_iff.1 hs)
  rcases hworks : (workThrough (rootsOf config) sources turns'
    (batches config.workers (markupOf sources))).run reopened with ⟨outcomes', worked'⟩
  have hsecond := hagain.workDone hvalid hworks
  refine ⟨done, reopened, worked', outcomes', hlater, hopenable.settled, hdiscovers, hworks, hsee,
    hsecond.settled hsettled, hapart, h.works, ⟨_, _, h.concludes⟩, hinterrupted, hsecond,
    fun s hs => ?_⟩
  by_cases hdone : done s
  · exact .inl ⟨hdone, hinterrupted.wasDue s hs hdone, hinterrupted.current hsteady hs hdone⟩
  · exact .inr (hinterrupted.due_eq hsteady hs hdone)

/-- **A source that was written before the interruption**, with its outputs in place. -/
structure Finished (config : Config) (report : Report) (sources : List Source) (stopped last : Disk)
    (s : Source) : Prop where
  /-- It is markup that was found. -/
  mem : s ∈ markupOf sources
  /-- The whole run writes it. -/
  written : s.label ∈ report.written
  /-- The outputs that the whole run leaves are there already. -/
  placed : ∀ q ∈ (s.outputs config.outputRoot).all, last.root.see? q ≠ none →
    stopped.root.see? q = last.root.see? q

/-- **A run recovers from an interruption.** If a run that would have ended with a report is interrupted
in its work, the run after it ends with a report and leaves what the first one would have left, times
aside. The exception are outputs that a source does not have any more: if it was written before the
interruption, they stay. -/
theorem run_recovers (h : FindsFair config disk)
    (hcalm : Calm (batches config.workers) config disk)
    (hapart : ∀ log ∈ config.auditLog, ¬ config.outputRoot <+: log)
    (hrun : (run config occasion).runOn disk = (.ok report, last))
    (hinterrupts : Interrupts config disk sources turns front back stopped)
    (hroot : later.root = stopped.root)
    (hsame : Unchanged config.inputRoot config.outputRoot (afterOpening config disk).root
      (afterOpening config later).root) (occasion' : Occasion) :
    ∃ report' last', (run config occasion').runOn later = (.ok report', last') ∧
      ∃ finished : List Source,
        (∀ s ∈ finished, Finished config report sources stopped last s) ∧
        (∀ s ∈ finished, ∀ q ∈ (s.outputs config.outputRoot).all, last.root.see? q = none →
          last'.root.see? q = (afterOpening config disk).root.see? q) ∧
        ∀ q, q ∉ config.auditLog →
          (last'.root.see? q).map Sight.untimed = (last.root.see? q).map Sight.untimed ∨
            ∃ s ∈ finished, q ∈ (s.outputs config.outputRoot).all ∧ last.root.see? q = none := by
  obtain ⟨sources', opened, worked, outcomes, paths, operations, hreported, rfl⟩ :=
    h.reported (covers_batches config.workers) hcalm hapart hrun
  cases hreported.found.symm.trans hinterrupts.found
  obtain ⟨done, reopened, worked', outcomes', hlater, hlaterSettled, hdiscovers, hworks, hsee,
    hsettled, hresumed⟩ := hreported.resumed h hapart hinterrupts hroot hsame occasion'.turns
  obtain ⟨paths', last', operations', hconcluding, hends⟩ :=
    hresumed.concluding_isOk hsettled occasion'
  have hrun' : (run config occasion').runOn later = (.ok (reportAt config outcomes' paths'), last') := by
    rw [run, runOn_runBy hlaterSettled hlater, hdiscovers]
    dsimp only
    rw [hworks]
    exact hconcluding
  obtain ⟨finished, hfinished⟩ : ∃ finished : List Source, ∀ s, s ∈ finished ↔
      s ∈ (batches config.workers (markupOf sources)).flatten ∧
        DoneBefore config sources done opened reopened s := by
    classical
    exact ⟨(batches config.workers (markupOf sources)).flatten.filter fun s =>
      DoneBefore config sources done opened reopened s, fun s => by
        rw [List.mem_filter, decide_eq_true_iff]⟩
  refine ⟨_, last', hrun', finished, fun s hs => ?_, fun s hs q hq hgone => ?_, fun q hq => ?_⟩
  · obtain ⟨hs, hbefore⟩ := (hfinished s).1 hs
    refine ⟨(covers_batches _ _).mem_iff.1 hs, ?_, fun q hq hleft => ?_⟩
    · obtain ⟨made, hdue, hfault⟩ := hbefore.due
      have ho := hreported.works.mem_outcomes.2 ⟨hs, rfl⟩
      rw [hdue, outcomeOf, hfault] at ho
      exact Text.mem_sorted.2 (List.mem_map.2 ⟨_, List.mem_filter.2 ⟨ho, rfl⟩, rfl⟩)
    · rw [← hsee]
      exact hresumed.placed hreported.concludes hs hbefore.mem hq hleft
  · obtain ⟨hs, hbefore⟩ := (hfinished s).1 hs
    rw [hreported.opened_eq]
    exact hresumed.stale_stays hreported.concludes hends hs hbefore hq hgone
  · refine (hresumed.last_cases hreported.concludes hends hq).imp_right ?_
    rintro ⟨s, hs, hbefore, hout, hgone⟩
    exact ⟨s, (hfinished s).2 ⟨hs, hbefore⟩, hout, hgone⟩

/-! ### Interrupted after some operations -/

/-- The operations of the work of a run, in the order in which they are performed. -/
def workOperations (config : Config) (disk : Disk) (sources : List Source)
    (turns : List (List Nat)) : List Operation :=
  let performed := ((workThrough (rootsOf config) sources turns
    (batches config.workers (markupOf sources))).run (afterOpening config disk)).2.performed
  (performed.take (performed.length - (afterOpening config disk).performed.length)).reverse

/-- The disk of a run that is stopped after some operations of its work. -/
def stoppedAfter (config : Config) (disk : Disk) (sources : List Source) (turns : List (List Nat))
    (count : Nat) : Disk :=
  ((workOperations config disk sources turns).take count).foldl
    (fun disk operation => ((perform operation).runOn disk).2) (afterOpening config disk)

/-- Operations that lead from one disk to another do so when they are performed. -/
theorem foldl_perform (h : disk.Undergoes operations last) :
    operations.foldl (fun disk operation => ((perform operation).runOn disk).2) disk = last := by
  induction h with
  | nil => rfl
  | cons hd ha _ ih =>
    rw [List.foldl_cons, ← ih]
    congr 1
    exact congrArg Prod.snd (runOn_perform_ok ha)

/-- **A run can be interrupted after any number of operations** of its work. -/
theorem exists_interrupts (hv : disk.root.Valid) (hset : config.Settled disk.root)
    (hfound : foundBy config disk = .ok sources)
    (hseparate : Separate config.outputRoot (markupOf sources))
    (hready : ∀ s ∈ markupOf sources, Ready (afterOpening config disk).root config.outputRoot s)
    (hrun : (run config occasion).runOn disk = (.ok report, last)) (turns : List (List Nat))
    (count : Nat) :
    Interrupts config disk sources turns ((workOperations config disk sources turns).take count)
      ((workOperations config disk sources turns).drop count)
      (stoppedAfter config disk sources turns count) := by
  obtain ⟨stages, hstages⟩ := exists_completes hrun
  obtain ⟨hopened, -, hsources⟩ := hstages.finds hset hfound
  subst hsources
  rw [hopened] at hready
  have horder := hstages.inOrder (covers_batches config.workers) hv hset hseparate hready
  obtain ⟨trace, hworked, -⟩ := @Prepared.through _ (rootsOf config) _ horder.prepared
    hset.output_ne_nil stages.sources turns
  rw [← hopened] at hworked
  have hall := hworked.performs.undergoes
  have hoperations : workOperations config disk stages.sources turns = trace.map Prod.snd := by
    rw [workOperations, hall.performed_eq, List.length_append, Nat.add_sub_cancel,
      List.take_left, List.reverse_reverse]
  rw [← hoperations, ← List.take_append_drop count (workOperations config disk stages.sources turns)]
    at hall
  obtain ⟨mid, hfront, hback⟩ := hall.split
  have hstopped : stoppedAfter config disk stages.sources turns count = mid := foldl_perform hfront
  rw [hstopped]
  exact ⟨hfound, hfront, hback⟩

/-- The disk `varied` when a run was stopped: the stylesheet of a source is written, but not its
module. -/
def variedStopped : Disk := stoppedAfter plainConfig varied variedSources turningOccasion.turns 5

theorem run_recovers_varied :
    variedStopped.root.see? ["out".toList, "sub".toList, "c.css".toList] ≠ none ∧
    variedStopped.root.see? ["out".toList, "sub".toList, "c.ts".toList] = none ∧
    ∃ report' last', (run plainConfig plainOccasion).runOn variedStopped = (.ok report', last') ∧
      ∃ finished : List Source,
        (∀ s ∈ finished,
          Finished plainConfig variedReport variedSources variedStopped variedAfter s) ∧
        (∀ s ∈ finished, ∀ q ∈ (s.outputs plainConfig.outputRoot).all,
          variedAfter.root.see? q = none →
            last'.root.see? q = (afterOpening plainConfig varied).root.see? q) ∧
        ∀ q, q ∉ plainConfig.auditLog →
          (last'.root.see? q).map Sight.untimed = (variedAfter.root.see? q).map Sight.untimed ∨
            ∃ s ∈ finished, q ∈ (s.outputs plainConfig.outputRoot).all ∧
              variedAfter.root.see? q = none := by
  have hrun := Work.runOn_eq_of_end varied_meets.2
  have hfair := varied_findsFair.fair _ varied_found
  have hinterrupts := exists_interrupts varied_findsFair.valid varied_findsFair.settled varied_found
    hfair.separate hfair.ready hrun turningOccasion.turns 5
  exact ⟨by decide +kernel, by decide +kernel, run_recovers varied_findsFair
    (varied_calm (covers_batches 2)) (by simp [plainConfig]) hrun hinterrupts rfl (by decide +kernel)
    plainOccasion⟩

/-! ### Runs that do not recover -/

/-- A disk with a source that has styles. -/
def styled : Disk where
  root := .directory
    [("src".toList, .directory [("a.html".toList,
      .file (Utf8.encode "<style>.x{}</style>".toList) 1600000000000000000)])]
  now := 1700000000000000000

/-- The disk `styled` after a run, when the styles have been taken out of the source. -/
def unstyled : Disk where
  root := ((run plainConfig plainOccasion).runOn styled).2.root.put
    (some (.file (Utf8.encode "<!doctype html><p id='p'>".toList) 1700000000000000000))
    ["src".toList, "a.html".toList]
  now := 1700000000000000000

/-- Its outputs are as the run left them. -/
theorem unstyled_outputs (q : Path) (hq : plainConfig.outputRoot <+: q) :
    unstyled.root.see? q = ((run plainConfig plainOccasion).runOn styled).2.root.see? q := by
  have hdir : ((run plainConfig plainOccasion).runOn styled).2.root.see? ["src".toList] =
      some .directory := by decide +kernel
  obtain ⟨members, hat⟩ := Entry.see?_eq_some_directory.1 hdir
  have hsee := @Entry.see?_put _ _ "a.html".toList members hat
    (some (.file (Utf8.encode "<!doctype html><p id='p'>".toList) 1700000000000000000)) q
  refine hsee.trans (if_neg fun hp => ?_)
  obtain ⟨rest, rfl⟩ := hq
  exact absurd (List.cons_prefix_cons.1 hp).1 (by decide)

/-- Its source. -/
def unstyledSources : List Source := [⟨[], "a".toList, .markup⟩]

theorem unstyled_finds : unstyled.root.Valid ∧ plainConfig.Settled unstyled.root ∧
    foundBy plainConfig unstyled = .ok unstyledSources ∧
      Fair (afterOpening plainConfig unstyled).root (rootsOf plainConfig) unstyledSources := by
  decide +kernel

theorem unstyled_findsFair : FindsFair plainConfig unstyled := by
  obtain ⟨hv, hset, hfound, hfair⟩ := unstyled_finds
  refine ⟨hv, hset, fun sources h => ?_⟩
  cases hfound.symm.trans h
  exact hfair

/-- The disk `unstyled` when a run was stopped at the end of its work. -/
def unstyledStopped : Disk := stoppedAfter plainConfig unstyled unstyledSources [] 2

/-- The sources of the disk `reread`. -/
def rereadSources : List Source := [linkedSource, brokenSource]

/-- The disk `reread` when a run was stopped that had written the output which a source is a link
to. -/
def rereadStopped : Disk := stoppedAfter plainConfig reread rereadSources [[1, 1, 1, 1, 1, 1, 1, 1]] 2

/-- **A run does not always recover from an interruption**: the stylesheet of a source that has no
styles any more stays, if the run was interrupted between writing the module and the sweep. And a source
that is a link to an output reads what was written before the interruption, and sources that get in each
other's way may do so in one run and not in the other. -/
theorem run_keeps_stale :
    (¬ ∀ (config : Config) (occasion : Occasion) (disk stopped last last' : Disk)
      (sources : List Source) (turns : List (List Nat)) (front back : List Operation)
      (report report' : Report),
      FindsFair config disk → Calm (batches config.workers) config disk →
      (∀ log ∈ config.auditLog, ¬ config.outputRoot <+: log) →
      (∃ before report₀ left, (run config occasion).runOn before = (.ok report₀, left) ∧
        ∀ q, config.outputRoot <+: q → disk.root.see? q = left.root.see? q) →
      (run config occasion).runOn disk = (.ok report, last) →
      Interrupts config disk sources turns front back stopped →
      Unchanged config.inputRoot config.outputRoot (afterOpening config disk).root
        (afterOpening config stopped).root →
      (run config occasion).runOn stopped = (.ok report', last') →
      ∀ q, q ∉ config.auditLog →
        (last'.root.see? q).map Sight.untimed = (last.root.see? q).map Sight.untimed) ∧
    (¬ ∀ (config : Config) (occasion : Occasion) (disk stopped last last' : Disk)
      (sources : List Source) (turns : List (List Nat)) (front back : List Operation)
      (report report' : Report), disk.root.Valid → config.Settled disk.root →
      (∀ log ∈ config.auditLog, ¬ config.outputRoot <+: log) →
      (∀ sources, foundBy config disk = .ok sources →
        Separate config.outputRoot (markupOf sources) ∧
          ∀ s ∈ markupOf sources, Ready (afterOpening config disk).root config.outputRoot s) →
      Calm (batches config.workers) config disk →
      (run config occasion).runOn disk = (.ok report, last) →
      Interrupts config disk sources turns front back stopped →
      (run config occasion).runOn stopped = (.ok report', last') →
      ∀ q, q ∉ config.auditLog →
        (last'.root.see? q).map Sight.untimed = (last.root.see? q).map Sight.untimed) ∧
    ¬ ∀ (config : Config) (occasion occasion' : Occasion) (disk stopped last last' : Disk)
      (sources : List Source) (turns : List (List Nat)) (front back : List Operation)
      (report report' : Report),
      FindsFair config disk → (∀ log ∈ config.auditLog, ¬ config.outputRoot <+: log) →
      (run config occasion).runOn disk = (.ok report, last) →
      Interrupts config disk sources turns front back stopped →
      Unchanged config.inputRoot config.outputRoot (afterOpening config disk).root
        (afterOpening config stopped).root →
      (run config occasion').runOn stopped = (.ok report', last') →
      ∀ q, q ∉ config.auditLog →
        (last'.root.see? q).map Sight.untimed = (last.root.see? q).map Sight.untimed := by
  refine ⟨fun h => ?_, fun h => ?_, fun h => ?_⟩
  · -- the run before, the whole run, and the run after the interruption, which leaves the stylesheet
    obtain ⟨hstyled, hreport, hreport', hunchanged, hstays⟩ :
        ((run plainConfig plainOccasion).runOn styled).1 = .ok ⟨["a.html".toList], [], [], []⟩ ∧
        ((run plainConfig plainOccasion).runOn unstyled).1 =
          .ok ⟨["a.html".toList], [], ["a.css".toList, "a.css.ts".toList], []⟩ ∧
        ((run plainConfig plainOccasion).runOn unstyledStopped).1 =
          .ok ⟨[], ["a.html".toList], [], []⟩ ∧
        Unchanged plainConfig.inputRoot plainConfig.outputRoot
          (afterOpening plainConfig unstyled).root
          (afterOpening plainConfig unstyledStopped).root ∧
        (((run plainConfig plainOccasion).runOn unstyledStopped).2.root.see?
            ["out".toList, "a.css".toList]).map Sight.untimed ≠
          (((run plainConfig plainOccasion).runOn unstyled).2.root.see?
            ["out".toList, "a.css".toList]).map Sight.untimed := by
      decide +kernel
    obtain ⟨hv, hset, hfound, hfair⟩ := unstyled_finds
    have hcalm : Calm (batches 2) plainConfig unstyled := by
      refine calm_of_directories (fun sources h => ?_) (covers_batches 2)
      cases hfound.symm.trans h
      decide
    have hinterrupts := exists_interrupts hv hset hfound hfair.separate hfair.ready
      (Work.runOn_eq_of_end hreport) [] 2
    exact hstays (h plainConfig plainOccasion unstyled unstyledStopped _ _ unstyledSources [] _ _ _ _
      unstyled_findsFair hcalm (by simp [plainConfig])
      ⟨styled, _, _, Work.runOn_eq_of_end hstyled, unstyled_outputs⟩ (Work.runOn_eq_of_end hreport)
      hinterrupts hunchanged (Work.runOn_eq_of_end hreport') ["out".toList, "a.css".toList]
      (by simp [plainConfig]))
  · obtain ⟨hreport, hreport', hgone⟩ :
        ((run plainConfig plainOccasion).runOn reread).1 =
          .ok ⟨["a.html".toList, "b.html".toList], [], [], []⟩ ∧
        ((run plainConfig plainOccasion).runOn rereadStopped).1 =
          .ok ⟨[], ["b.html".toList], [], [⟨"a.html".toList, unnamedError⟩]⟩ ∧
        (((run plainConfig plainOccasion).runOn rereadStopped).2.root.see?
            ["out".toList, "a.ts".toList]).map Sight.untimed ≠
          (((run plainConfig plainOccasion).runOn reread).2.root.see?
            ["out".toList, "a.ts".toList]).map Sight.untimed := by
      decide +kernel
    obtain ⟨hv, hset, hfound, hseparate, hready⟩ : reread.root.Valid ∧
        plainConfig.Settled reread.root ∧ foundBy plainConfig reread = .ok rereadSources ∧
        Separate plainConfig.outputRoot (markupOf rereadSources) ∧
        ∀ s ∈ markupOf rereadSources,
          Ready (afterOpening plainConfig reread).root plainConfig.outputRoot s := by
      decide +kernel
    have hcalm : Calm (batches 2) plainConfig reread := by
      refine calm_of_directories (fun sources h => ?_) (covers_batches 2)
      cases hfound.symm.trans h
      decide +kernel
    have hinterrupts := exists_interrupts hv hset hfound hseparate hready
      (Work.runOn_eq_of_end hreport) [[1, 1, 1, 1, 1, 1, 1, 1]] 2
    refine hgone (h plainConfig plainOccasion reread rereadStopped _ _ rereadSources _ _ _ _ _ hv hset
      (by simp [plainConfig]) (fun sources hsources => ?_) hcalm (Work.runOn_eq_of_end hreport)
      hinterrupts (Work.runOn_eq_of_end hreport') ["out".toList, "a.ts".toList]
      (by simp [plainConfig]))
    cases hfound.symm.trans hsources
    exact ⟨hseparate, hready⟩
  · -- nothing was done before the interruption
    obtain ⟨hreport', hunchanged, hgone⟩ :
        ((run plainConfig plainOccasion).runOn
            (stoppedAfter plainConfig raced racedSources [] 0)).1 =
          .ok ⟨["sub/a.html".toList, "sub/b.html".toList], [], [], []⟩ ∧
        Unchanged plainConfig.inputRoot plainConfig.outputRoot
          (afterOpening plainConfig raced).root
          (afterOpening plainConfig (stoppedAfter plainConfig raced racedSources [] 0)).root ∧
        (((run plainConfig plainOccasion).runOn
            (stoppedAfter plainConfig raced racedSources [] 0)).2.root.see?
            ["out".toList, "sub".toList, "b.ts".toList]).map Sight.untimed ≠
          (((run plainConfig racingOccasion).runOn raced).2.root.see?
            ["out".toList, "sub".toList, "b.ts".toList]).map Sight.untimed := by
      decide +kernel
    have hfair := raced_findsFair.fair _ raced_meets.1.found
    have hinterrupts := exists_interrupts raced_findsFair.valid raced_findsFair.settled
      raced_meets.1.found hfair.separate hfair.ready (Work.runOn_eq_of_end raced_meets.2) [] 0
    exact hgone (h plainConfig racingOccasion plainOccasion raced _ _ _ racedSources [] _ _ _ _
      raced_findsFair (by simp [plainConfig]) (Work.runOn_eq_of_end raced_meets.2) hinterrupts
      hunchanged (Work.runOn_eq_of_end hreport') ["out".toList, "sub".toList, "b.ts".toList]
      (by simp [plainConfig]))

end Build
end TemplateBindings
