import TemplateBindings.Proofs.Build.Again

/-!
# What a run leaves, however it ends

A run may end with an error before it comes to its sources, in its sweep, or when it adds to its log.
Before the sources nothing but directories is made, and once the sweep is done the outputs are what
they are after a run that ends well (`TemplateBindings.Build.RunLeaves`). Among outputs that only runs
have made, the sweep fails only at a directory that is too deep, and then the directory stays, so that
no later run ends well (`TemplateBindings.Build.run_tooDeep`). What is left of each source was dealt
with (`TemplateBindings.Build.Passes.dealt`).
-/

namespace TemplateBindings
namespace Build

open Files

variable {plan : List Source → List (List Source)} {config : Config} {occasion : Occasion}
  {disk last : Disk} {stages : Stages} {roots : Roots} {sources all : List Source} {s t : Source}
  {outcome : Outcome} {result : Except RunError Report} {files files' view : Entry} {out q : Path}
  {trace : List (Source × Operation)}
  {marker : Text} {artifacts : GeneratedModule.Artifacts} {before after seen seen' : Seen}

/-! ### How runs end -/

/-- **What a run leaves**, by how far it came. -/
inductive RunLeaves (plan : List Source → List (List Source)) (config : Config)
    (occasion : Occasion) (disk : Disk) : Except RunError Report → Disk → Prop
  /-- It did not come to its sources. -/
  | unopened {e : RunError} :
    RunLeaves plan config occasion disk (.error e) (afterOpening config disk)
  /-- Its sweep stopped. -/
  | unswept {e : RunError} {cause : FileError} {stages : Stages} {swept : Disk}
      (works : Works plan config occasion disk stages)
      (sweeps : (removeStale sweepRoom stages.roots.output
        (stages.log ++ kept stages.roots.output stages.outcomes)).runOn stages.worked =
          (.error cause, swept)) :
    RunLeaves plan config occasion disk (.error e) swept
  /-- It passed through its stages, and maybe there is a report. -/
  | passed {result : Except RunError Report} {stages : Stages} {last : Disk}
      (passes : Passes plan config occasion disk stages last)
      (reports : ∀ report, result = .ok report →
        Completes plan config occasion disk stages report last) :
    RunLeaves plan config occasion disk result last

/-- The stages of a run that has worked on its sources. -/
def stagesOf (config : Config) (opened : Disk) (sources : List Source)
    (outcomes : List (Source × Outcome)) (worked : Disk) (removed : List Path) (swept : Disk) :
    Stages :=
  ⟨rootsOf config, config.auditLog.toList, opened, sources, outcomes, worked, removed, swept⟩

theorem Reaches.toWorks {opened worked : Disk} {outcomes : List (Source × Outcome)}
    (h : Reaches plan config occasion disk opened sources outcomes worked)
    (hset : config.Settled disk.root) (removed : List Path) (swept : Disk) :
    Works plan config occasion disk
      (stagesOf config opened sources outcomes worked removed swept) := by
  obtain ⟨operations, hopens⟩ := openRoots_opens hset
  have hkeeps := runOn_keptLog hset.log_proper fun log hl => hopens.plain (hset.log_plain log hl)
  rw [h.opens] at hkeeps
  exact ⟨h.opens, hkeeps, h.discovers, h.works⟩

/-- **Every run leaves something.** -/
theorem run_leaves (hset : config.Settled disk.root) (plan : List Source → List (List Source))
    (occasion : Occasion) :
    RunLeaves plan config occasion disk ((runBy plan config occasion).runOn disk).1
      ((runBy plan config occasion).runOn disk).2 := by
  have hends := run_ends hset plan occasion
  generalize (runBy plan config occasion).runOn disk = ended at hends ⊢
  obtain ⟨result, last⟩ := ended
  dsimp only at hends ⊢
  have hopened {result : Except RunError Roots} {opened : Disk}
      (hopens : (openRoots config).runOn disk = (result, opened)) :
      opened = afterOpening config disk := by rw [afterOpening, hopens]
  cases hends with
  | unopened hopens =>
    rw [hopened hopens]
    exact .unopened
  | undiscovered hopens _ =>
    rw [hopened hopens]
    exact .unopened
  | unswept hreaches hsweeps => exact .unswept (hreaches.toWorks hset [] last) hsweeps
  | unlogged hreaches hsweeps hlogs =>
    exact .passed ⟨hreaches.toWorks hset _ _, hsweeps, congrArg Prod.snd hlogs⟩
      fun report hok => by cases hok
  | ended hreaches hsweeps hlogs =>
    refine .passed ⟨hreaches.toWorks hset _ _, hsweeps, congrArg Prod.snd hlogs⟩
      fun report hok => ?_
    exact ⟨hreaches.toWorks hset _ _, hsweeps, hlogs, (Except.ok.inj hok).symm⟩

/-! ### Directories that are too deep -/

/-- Opening the roots leaves directories. -/
theorem directory_afterOpening (hset : config.Settled disk.root)
    (hq : disk.root.see? q = some .directory) :
    (afterOpening config disk).root.see? q = some .directory := by
  obtain ⟨operations, hopens⟩ := openRoots_opens hset
  rcases see?_of_making hopens.undergoes hopens.making q with he | ⟨-, hdir⟩
  · exact he.trans hq
  · exact hdir

/-- **The work leaves an output directory** in which every directory is still there. -/
theorem Works.leaves_output (h : Works plan config occasion disk stages) (hplan : Covers plan)
    (hset : config.Settled disk.root) (hv : disk.root.Valid) :
    stages.Sound ∧ stages.roots = rootsOf config ∧
      OutputRoot stages.worked.root config.outputRoot ∧
      ∀ q, disk.root.see? q = some .directory → stages.worked.root.see? q = some .directory := by
  obtain ⟨operations, hopens⟩ := openRoots_opens hset
  rw [h.opens] at hopens
  obtain ⟨hsound, hkeeps⟩ := h.sound_keeps hplan (spelled_of_settled hset) hv
  have hroot := hopens.output _ rfl
  refine ⟨hsound, hopens.roots_eq _ rfl,
    ⟨hroot.proper, hroot.fits, hkeeps.directory _ hroot.directory⟩, fun q hq => ?_⟩
  have hopened := directory_afterOpening hset hq
  rw [← h.opened_eq] at hopened
  exact hkeeps.directory q hopened

/-- **The sweep of a run** meets what was too deep before. -/
theorem Works.sweeping (h : Works plan config occasion disk stages) (hplan : Covers plan)
    (hset : config.Settled disk.root) (hv : disk.root.Valid) :
    (∀ q, TooDeep disk.root sweepRoom config.outputRoot q →
        TooDeep stages.worked.root sweepRoom config.outputRoot q) ∧
      ∃ operations, Sweeps sweepRoom config.outputRoot
        (stages.log ++ kept stages.roots.output stages.outcomes) stages.worked
        ((removeStale sweepRoom stages.roots.output
          (stages.log ++ kept stages.roots.output stages.outcomes)).runOn stages.worked)
        operations := by
  obtain ⟨hsound, hroots, hroot, hkeeps⟩ := h.leaves_output hplan hset hv
  refine ⟨fun q hdeep => ⟨hdeep.1, hkeeps q hdeep.2.1, hdeep.2.2⟩, ?_⟩
  rw [hroots]
  exact removeStale_sweeps _ _ hsound.valid (fun he => absurd he hset.output_ne_nil) hroot

/-- **A sweep that stops** among outputs within the limits leaves a directory that is too deep. -/
theorem Works.tooDeep_of_unswept {cause : FileError} {swept : Disk}
    (h : Works plan config occasion disk stages) (hplan : Covers plan)
    (hset : config.Settled disk.root) (hv : disk.root.Valid)
    (hfits : ∀ q, config.outputRoot <+: q → stages.worked.root.see? q ≠ none → Path.Fits q)
    (hsweeps : (removeStale sweepRoom stages.roots.output
      (stages.log ++ kept stages.roots.output stages.outcomes)).runOn stages.worked =
        (.error cause, swept)) :
    ∃ q, TooDeep swept.root sweepRoom config.outputRoot q := by
  obtain ⟨hsound, hroots, hroot, -⟩ := h.leaves_output hplan hset hv
  obtain ⟨-, operations, hswept⟩ := h.sweeping hplan hset hv
  rw [hsweeps] at hswept
  by_contra hshallow
  push Not at hshallow
  obtain ⟨paths, hok⟩ := removeStale_isOk (stages.log ++ kept stages.roots.output stages.outcomes)
    hsound.valid hset.output_ne_nil hroot (fun q hdeep => hshallow q (hswept.tooDeep hdeep))
    fun q hq hs _ => hfits q hq hs
  rw [hroots] at hsweeps hok
  have hend := (congrArg Prod.fst hsweeps).symm.trans hok
  cases hend

/-- **Where a directory is too deep, no run ends well, and the directory stays.** -/
theorem run_tooDeep (hplan : Covers plan) (hset : config.Settled disk.root) (hv : disk.root.Valid)
    (hdeep : TooDeep disk.root sweepRoom config.outputRoot q) (occasion : Occasion) :
    (∀ report, ((runBy plan config occasion).runOn disk).1 ≠ .ok report) ∧
      TooDeep ((runBy plan config occasion).runOn disk).2.root sweepRoom config.outputRoot q := by
  have hleaves := run_leaves hset plan occasion
  generalize (runBy plan config occasion).runOn disk = ended at hleaves ⊢
  obtain ⟨result, last⟩ := ended
  dsimp only at hleaves ⊢
  cases hleaves with
  | unopened => exact ⟨nofun, hdeep.1, directory_afterOpening hset hdeep.2.1, hdeep.2.2⟩
  | unswept hworks hstopped =>
    obtain ⟨hworked, operations, hsweeps⟩ := hworks.sweeping hplan hset hv
    rw [hstopped] at hsweeps
    exact ⟨nofun, hsweeps.tooDeep (hworked q hdeep)⟩
  | passed hpasses _ =>
    obtain ⟨hworked, operations, hsweeps⟩ := hpasses.toWorks.sweeping hplan hset hv
    rw [hpasses.sweeps] at hsweeps
    exact absurd (hworked q hdeep) (hsweeps.shallow _ rfl q)

/-! ### The files of a source -/

/-- **The files of a source stand in its places**, and nothing else does. -/
structure Holding (out : Path) (s : Source) (artifacts : GeneratedModule.Artifacts) (seen : Seen) :
    Prop where
  /-- All of them are text. -/
  encodes : firstFault? (artifactFiles s.name artifacts) = none
  /-- Every file is there. -/
  files : ∀ file ∈ artifactFiles s.name artifacts, ∃ time,
    seen (s.directory out ++ [file.1]) = some (.file file.2.bytes time)
  /-- The other places are empty. -/
  rest : ∀ n ∈ s.outputNames, n ∉ (artifactFiles s.name artifacts).map Prod.fst →
    seen (s.directory out ++ [n]) = none

theorem Holding.congr (h : Holding out s artifacts seen) (hs : s.Regular)
    (he : ∀ q ∈ (s.outputs out).all, seen' q = seen q) : Holding out s artifacts seen' where
  encodes := h.encodes
  files file hfile := by
    rw [he _ ((Source.mem_outputs hs).2 ⟨_, mem_outputNames_of_artifactFiles hfile, rfl⟩)]
    exact h.files file hfile
  rest n hn hnot := by
    rw [he _ ((Source.mem_outputs hs).2 ⟨n, hn, rfl⟩)]
    exact h.rest n hn hnot

/-- The module among the files bears the marker. -/
theorem Holding.marked (h : Holding out s artifacts seen) (hs : s.Regular) {root : Path}
    (hmarker : markerOf files root s (s.stylesheet? sources) = .ok marker)
    (hc : compileSource files' root s (s.stylesheet? sources) marker = .ok artifacts) :
    markerSeen (seen (s.outputs out).module) = some marker := by
  have hfile : (s.name ++ moduleSuffix, artifacts.module) ∈ artifactFiles s.name artifacts := by
    simp [artifactFiles]
  obtain ⟨time, hseen⟩ := h.files _ hfile
  rw [Source.module_eq hs, hseen]
  exact markerSeen_compileSource hmarker hc
    (List.findSome?_eq_none_iff.1 h.encodes _ hfile) time

/-- **What a run makes of a source**, from what is seen before and after it. -/
inductive Dealt (files : Entry) (roots : Roots) (sources : List Source) (s : Source)
    (before after : Seen) : Outcome → Prop
  /-- It fails, and its places are left. -/
  | failed {e : SourceError} (left : ∀ q ∈ (s.outputs roots.output).all, after q = before q) :
    Dealt files roots sources s before after (.failed e)
  /-- It is current by its marker, and its places are left. -/
  | cached {marker : Text}
      (marker_eq : markerOf files roots.input s (s.stylesheet? sources) = .ok marker)
      (marked : markerSeen (before (s.outputs roots.output).module) = some marker)
      (left : ∀ q ∈ (s.outputs roots.output).all, after q = before q) :
    Dealt files roots sources s before after .cached
  /-- Its files are written. -/
  | written {marker : Text} {artifacts : GeneratedModule.Artifacts} {paths : List Path}
      (marker_eq : markerOf files roots.input s (s.stylesheet? sources) = .ok marker)
      (compiled : compileSource files roots.input s (s.stylesheet? sources) marker = .ok artifacts)
      (holding : Holding roots.output s artifacts after) :
    Dealt files roots sources s before after (.written paths)

theorem Dealt.congr (h : Dealt files roots sources s before after outcome)
    (he : ∀ q ∈ (s.outputs roots.output).all, before q = seen q) :
    Dealt files roots sources s seen after outcome := by
  cases h with
  | failed left => exact .failed fun q hq => (left q hq).trans (he q hq)
  | cached hmarker hmarked left =>
    rw [he _ List.mem_cons_self] at hmarked
    exact .cached hmarker hmarked fun q hq => (left q hq).trans (he q hq)
  | written hmarker hc hholding => exact .written hmarker hc hholding

/-- What has a marker by its path has it by sight. -/
theorem markerSeen_of_markerAt {sight : Option Sight} (h : markerAt q sight = .ok (some marker)) :
    markerSeen sight = some marker := by
  rw [markerAt] at h
  split at h
  · cases h
  · exact Except.ok.inj h

section Passes

variable (h : Passes plan config occasion disk stages last) (hplan : Covers plan)
  (ho : InOrder plan config stages) (hsound : stages.Sound)
  (hroot : OutputRoot stages.opened.root config.outputRoot)
  (hlog : ∀ log ∈ config.auditLog, ¬ config.outputRoot <+: log)
include h hplan ho hsound hlog

omit hplan hsound in
/-- Below the output directory nothing is left but what the work left. -/
theorem Passes.none_or_worked (haccounts : Accounts plan config stages trace)
    (hq : config.outputRoot <+: q) :
    last.root.see? q = none ∨ last.root.see? q = stages.worked.root.see? q := by
  rw [h.last_eq ho.settled.log_proper hlog hq fun log hl =>
    h.plain_swept haccounts (ho.settled.log_plain log hl)]
  have hswept := removeStale_none_or_eq sweepRoom stages.roots.output
    (stages.log ++ kept stages.roots.output stages.outcomes) stages.worked q
  rwa [h.sweeps] at hswept

omit hplan hsound in
/-- **What was ready is left ready**, the places of sources that are gone included. -/
theorem Passes.ready (hs : s.Regular)
    (hclear : ∀ t ∈ (plan (markupOf stages.sources)).flatten, s ≠ t →
      Clear config.outputRoot s t ∧ Clear config.outputRoot t s)
    (hready : Ready stages.opened.root config.outputRoot s) :
    Ready last.root config.outputRoot s := by
  obtain ⟨trace, haccounts⟩ := h.toWorks.accounts ho
  have hworked := hready.of_touches hs (haccounts.touches ho) hclear
  exact hworked.of_left hs fun q hq =>
    (h.none_or_worked ho hlog haccounts hq).imp_right .inl

omit hplan hsound in
/-- What is left is within the limits, if what was there was. -/
theorem Passes.fits
    (hfits : config.outputRoot <+: q → stages.opened.root.see? q ≠ none → Path.Fits q)
    (hq : config.outputRoot <+: q) (hleft : last.root.see? q ≠ none) : q.Fits := by
  obtain ⟨trace, haccounts⟩ := h.toWorks.accounts ho
  have hworked : stages.worked.root.see? q ≠ none := by
    rcases h.none_or_worked ho hlog haccounts hq with he | he
    · exact absurd he hleft
    · rwa [← he]
  exact (haccounts.worked.performs.undergoes.fits_of_new hworked).elim (hfits hq) id

omit hplan in
/-- **Nothing is left below the output directory but outputs** of the sources, and directories. -/
theorem Passes.only {sight : Sight} (hq : config.outputRoot <+: q) (hne : q ≠ config.outputRoot)
    (hsight : last.root.see? q = some sight) (hleaf : sight ≠ .directory) :
    ∃ t ∈ markupOf stages.sources, q ∈ (t.outputs config.outputRoot).all := by
  obtain ⟨trace, haccounts⟩ := h.toWorks.accounts ho
  have hout := ho.output_eq
  have hswept := sweptOut_of_removeStale hsound.valid hsound.output hsound.fits h.sweeps
  have hlast := h.last_eq ho.settled.log_proper hlog hq fun log hl =>
    h.plain_swept haccounts (ho.settled.log_plain log hl)
  rcases List.mem_append.1 (hswept.kept q sight (hout ▸ hq) (hout ▸ hne)
    (hlast.symm.trans hsight) hleaf) with hl | hk
  · rw [ho.log, Option.mem_toList] at hl
    exact absurd hq (hlog q hl)
  · obtain ⟨⟨t, outcome⟩, ht, hkeeps⟩ := List.mem_flatMap.1 hk
    have hown := hsound.own _ ht q hkeeps
    rw [hout] at hown
    exact ⟨t, mem_markupOf.2 (hsound.mem_iff.2 ⟨outcome, ht⟩), hown⟩

include hroot in
/-- **What becomes of a source in a run in good order** that reads it without the outputs and can
encode what is due for it. -/
theorem Passes.dealt (hs : s ∈ markupOf stages.sources)
    (hview : InView (stages.opened.root.put none config.outputRoot) config.inputRoot stages.sources s)
    (hencodes : Encodes stages.opened.root (rootsOf config) stages.sources s) :
    ∃ outcome, (s, outcome) ∈ stages.outcomes ∧
      Dealt stages.opened.root (rootsOf config) stages.sources s stages.opened.root.see?
        last.root.see? outcome := by
  obtain ⟨trace, haccounts⟩ := h.toWorks.accounts ho
  obtain ⟨hmem, hkind⟩ := mem_markupOf.1 hs
  have hr := hsound.regular s hmem
  obtain ⟨outcome, houtcome⟩ := hsound.mem_iff.1 (mem_markupOf.1 hs)
  refine ⟨outcome, houtcome, ?_⟩
  have hleft (q : Path) (hq : q ∈ (s.outputs config.outputRoot).all) :=
    h.left haccounts ho hsound hlog houtcome hq
  cases haccounts.becomes ho houtcome hview with
  | hindered _ _ left =>
    exact .failed fun q hq => ((hleft q hq).trans (if_pos hq)).trans (left q (.inl hq))
  | due left =>
    have hunwritten (hnot : ∀ made, due stages.opened.root (rootsOf config) stages.sources s ≠
        .ok (some made)) (q : Path) (hq : q ∈ (s.outputs config.outputRoot).all) :
        stages.worked.root.see? q = stages.opened.root.see? q :=
      (left q (.inl hq)).trans (jobOf_leaves_outputs hr hnot _ hq _)
    rcases hdue : due stages.opened.root (rootsOf config) stages.sources s with e | _ | made
    · rw [hdue] at hleft hunwritten
      exact .failed fun q hq => ((hleft q hq).trans (if_pos hq)).trans (hunwritten nofun q hq)
    · rw [hdue] at hleft hunwritten
      obtain ⟨marker, hmarker, hexisting⟩ := staleMarker?_eq_none.1 (due_eq_none.1 hdue)
      have hexisting : existingMarker stages.opened.root (s.outputs config.outputRoot).module =
        .ok (some marker) := hexisting
      rw [existingMarker_eq hroot hr hkind (ho.prepared.ready s ((hplan _).mem_iff.2 hs))]
        at hexisting
      exact .cached hmarker (markerSeen_of_markerAt hexisting) fun q hq =>
        ((hleft q hq).trans (if_pos hq)).trans (hunwritten nofun q hq)
    · have hfault := hencodes made hdue
      obtain ⟨marker, artifacts, hstale, hcompiled, rfl, -⟩ := of_due hdue
      rw [hdue] at hleft
      rw [outcomeOf, hfault] at hleft ⊢
      rw [jobOf_deliver.2 hdue] at left
      refine .written (of_staleMarker? hstale).1 hcompiled ⟨hfault, fun file hfile => ?_,
        fun n hn hnot => ?_⟩
      · have hq : s.directory config.outputRoot ++ [file.1] ∈ (s.outputs config.outputRoot).all :=
          (Source.mem_outputs hr).2 ⟨_, mem_outputNames_of_artifactFiles hfile, rfl⟩
        have hmade := (left _ (.inl hq)).trans
          (effects_writing (distinct_artifactFiles artifacts) hfault hfile)
        refine ⟨_, ((hleft _ hq).trans (if_pos ?_)).trans hmade⟩
        exact List.mem_map.2 ⟨_, List.mem_map.2 ⟨_, hfile, rfl⟩, rfl⟩
      · have hq : s.directory config.outputRoot ++ [n] ∈ (s.outputs config.outputRoot).all :=
          (Source.mem_outputs hr).2 ⟨n, hn, rfl⟩
        refine (hleft _ hq).trans (if_neg fun hmem => ?_)
        obtain ⟨_, hplaced, he⟩ := List.mem_map.1 hmem
        obtain ⟨file, hfile, rfl⟩ := List.mem_map.1 hplaced
        exact hnot (List.mem_map.2 ⟨file, hfile, (concat_inj he).2⟩)

end Passes

end Build
end TemplateBindings
