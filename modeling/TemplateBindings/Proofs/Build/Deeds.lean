import TemplateBindings.Proofs.Build.Step

/-!
# What is done for each source

Where no draft of its sources is a link, what a run performs falls into deeds, one for each source:
the operations performed for it, and the outcome that they come to
(`TemplateBindings.Build.workThrough_deeds`). The deeds of a batch are performed at the same time. A
deed makes directories, then writes files that its source was compiled to, and what it is said to have
written is what it has put in place (`TemplateBindings.Build.Deed.landings`). A source that is said to be
current was left alone, and had its module at one moment of the work.
-/

namespace TemplateBindings
namespace Build

open Files

variable {disk disk' start last : Disk} {roots : Roots} {sources batch order : List Source}
  {s : Source} {out q : Path} {outcome : Outcome} {others : Operation → Prop} {view : Entry}
  {operations before directories : List Operation} {marker : Text} {shared : Shared}
  {plan : List (List Source)}

/-! ### Deeds -/

/-- **What is performed for a source** whose module is to have a marker, and what it comes to:
directories are made, and then files that it is compiled to are written. -/
inductive Deed (out : Path) (source : Source) (marker : Text) :
    Except SourceError (List Path) → List Operation → Prop
  /-- Directories are made, and that is all. -/
  | entered {e : SourceError} {directories : List Operation}
      (making : Making (source.directory out) directories) :
    Deed out source marker (.error e) directories
  /-- Files are written after them, up to some point. -/
  | begun {e : SourceError} {directories writes : List Operation} {html : Text} {css : Option Text}
      {artifacts : GeneratedModule.Artifacts} (making : Making (source.directory out) directories)
      (compiled : GeneratedModule.compile html marker source.name css = .ok artifacts)
      (begun : writes <+: writing (source.directory out) (artifactFiles source.name artifacts)) :
    Deed out source marker (.error e) (directories ++ writes)
  /-- All of them are written. -/
  | finished {directories : List Operation} {html : Text} {css : Option Text}
      {artifacts : GeneratedModule.Artifacts} (making : Making (source.directory out) directories)
      (compiled : GeneratedModule.compile html marker source.name css = .ok artifacts)
      (sound : firstFault? (artifactFiles source.name artifacts) = none) :
    Deed out source marker
      (.ok ((inDirectory (source.directory out) (artifactFiles source.name artifacts)).map Prod.fst))
      (directories ++ writing (source.directory out) (artifactFiles source.name artifacts))

theorem landings_of_making {way : Path} (h : Making way directories) :
    directories.filterMap Operation.landing? = [] := by
  rw [List.filterMap_eq_nil_iff]
  intro operation ho
  obtain ⟨w, -, rfl⟩ := h operation ho
  rfl

theorem landings_of_writing (way : Path) {made : List (Str × Str)}
    (hfault : firstFault? made = none) :
    (writing way made).filterMap Operation.landing? = (inDirectory way made).map Prod.fst := by
  induction made with
  | nil => rfl
  | cons file made ih =>
    obtain ⟨hc, hrest⟩ := of_firstFault?_cons_eq_none hfault
    rw [writing_cons_of_ok hc, List.filterMap_append, ih hrest]
    rfl

/-- What is said to be written is what is put in place. -/
theorem Deed.landings {paths : List Path} (h : Deed out s marker (.ok paths) operations) :
    paths = operations.filterMap Operation.landing? := by
  cases h with
  | finished hmaking _ hsound =>
    rw [List.filterMap_append, landings_of_making hmaking, List.nil_append,
      landings_of_writing _ hsound]

/-- What inputs are compiled to comes from some texts. -/
theorem secures_compileInputs (company : Company) (acts : List Operation) (disk : Disk)
    (root : Path) (source : Source) (sheet : Option Source) (marker : Text) :
    (compileInputs root source sheet marker).Secures company (fun result acts' _ => acts' = acts ∧
      ∀ artifacts, result = .ok artifacts → ∃ html css,
        GeneratedModule.compile html marker source.name css = .ok artifacts) acts disk := by
  rw [compileInputs]
  refine .ask_bind (fun mid html _ _ => ?_) fun _ _ _ _ _ _ => ⟨rfl, nofun⟩
  refine .bind ((quiet_askBeside _ _ company acts mid).mono ?_)
  rintro (e | css) _ next rfl
  · exact ⟨rfl, nofun⟩
  · dsimp only
    rcases hc : GeneratedModule.compile html marker source.name css with e | artifacts
    · exact Work.secures_throw fun _ _ => ⟨rfl, nofun⟩
    · refine Work.secures_pure fun _ _ => ⟨rfl, ?_⟩
      rintro _ ⟨⟩
      exact ⟨html, css, hc⟩

/-- **Making outputs** is a deed. -/
theorem secures_makeOutputs (hout : roots.output.Proper) (hs : s.Regular)
    (hlinks : Unlinked disk.root roots.output s) (sheet : Option Source) (marker : Text)
    (ensure : Bool) :
    (makeOutputs roots s sheet marker ensure).Secures (.among others (Serves roots.output s))
      (fun result acts' _ => ∃ operations, acts' = before ++ operations ∧
        Deed roots.output s marker result operations) before disk := by
  have hkept {allowed : Operation → Prop} (operations : List Operation) (a b : Disk)
      (hp : Disk.Performs allowed operations a b) (h : Unlinked a.root roots.output s) :
      Unlinked b.root roots.output s := fun draft hd => hp.plain draft (h draft hd)
  have hw := Source.directory_proper hout hs
  rw [makeOutputs]
  refine .bind (.mono (.and_kept (fun mid => Unlinked mid.root roots.output s)
    (.wider (secures_enter hw (hlinks.directory hs) ensure) fun _ => serves_of_makesOn) hlinks hkept
    hkept) ?_)
  rintro (e | _) _ mid ⟨⟨⟨directories, rfl, hmaking⟩, -⟩, hmid⟩
  · exact ⟨directories, rfl, .entered hmaking⟩
  refine .bind (.mono (.and_kept (fun mid => Unlinked mid.root roots.output s)
    (secures_compileInputs _ _ _ _ _ _ _) hmid hkept hkept) ?_)
  rintro (e | artifacts) _ next ⟨⟨rfl, hcompiled⟩, hnext⟩
  · exact ⟨directories, rfl, .entered hmaking⟩
  obtain ⟨html, css, hcompiled⟩ := hcompiled artifacts rfl
  dsimp only
  rw [artifactTexts_eq hs]
  refine .bind ((secures_writeArtifacts hw (hs.files_isName artifacts)
    (fun file hfile => hnext.draft hs (mem_outputNames_of_artifactFiles hfile))
    fun _ => serves_of_writing).mono ?_)
  rintro (e | _) _ last ⟨⟨operations, rfl, hbegun, hdone⟩, hfault⟩
  · exact ⟨directories ++ operations, List.append_assoc .., .begun hmaking hcompiled hbegun⟩
  · cases hdone ⟨_, rfl⟩
    exact Work.secures_pure fun _ _ => ⟨_, List.append_assoc ..,
      .finished hmaking hcompiled (hfault ⟨_, rfl⟩)⟩

/-! ### Inputs that the work cannot change -/

/-- **A view of the inputs of a source** that is a part of a file system without the outputs. -/
structure Watched (view : Entry) (files : Entry) (roots : Roots) (sources : List Source)
    (source : Source) : Prop where
  /-- It is a part of the file system. -/
  holds : view.Holds files
  /-- Nothing of it lies below the root of the outputs. -/
  apart : ∀ q, roots.output <+: q → view.see? q = none
  /-- The inputs are in it. -/
  inView : InView view roots.input sources source

/-- Work on sources does not change the view. -/
theorem Watched.performs {files : Entry} (h : Watched view disk.root roots sources s)
    (hp : Disk.Performs (ServesAny roots.output order) operations disk disk')
    (hfiles : disk'.root = files) : Watched view files roots sources s := by
  subst hfiles
  refine ⟨h.holds.undergoes hp.undergoes fun operation ho p hplace => ?_, h.apart, h.inView⟩
  obtain ⟨t, -, hserves⟩ := hp.allowed operation ho
  have hbelow (name : Str) : roots.output <+: t.directory roots.output ++ [name] :=
    (Source.directory_prefix roots.output t).trans (List.prefix_append _ _)
  cases hserves with
  | enter _ =>
    cases List.mem_singleton.1 hplace
    exact .inl rfl
  | draft hn bytes =>
    cases List.mem_singleton.1 hplace
    exact .inr (h.apart _ (hbelow _))
  | deliver hn =>
    rcases List.mem_cons.1 hplace with rfl | hplace
    · exact .inr (h.apart _ (hbelow _))
    · cases List.mem_singleton.1 hplace
      exact .inr (h.apart _ (hbelow _))

/-- **A module that was current** between two moments: at one in between it bore the marker of the
inputs. -/
structure Current (view : Entry) (roots : Roots) (sources order : List Source) (source : Source)
    (start last : Disk) (marker : Text) : Prop where
  /-- It is the marker of the inputs. -/
  inputs : markerOf view roots.input source (source.stylesheet? sources) = .ok marker
  /-- There is a moment, with work on sources before it and after it. -/
  moment : ∃ mid front back, Disk.Performs (ServesAny roots.output order) front start mid ∧
    Disk.Performs (ServesAny roots.output order) back mid last ∧
    existingMarker mid.root (source.outputs roots.output).module = .ok (some marker)

/-- What asking whether a module is stale tells of it. -/
def Asked (view : Entry) (roots : Roots) (sources order : List Source) (source : Source)
    (start : Disk) : Except SourceError (Option Text) → Disk → Prop
  | .error _, _ => True
  | .ok none, asked => ∃ marker, Current view roots sources order source start asked marker
  | .ok (some marker), _ =>
    markerOf view roots.input source (source.stylesheet? sources) = .ok marker

theorem secures_takeStaleMarker (hsub : ∀ t ∈ batch, t ∈ order)
    (hfront : Disk.Performs (ServesAny roots.output order) operations start disk)
    (h : Watched view start.root roots sources s) :
    (takeStaleMarker roots s (s.stylesheet? sources)).Secures
      (companyOf roots.output batch s).onlooking
      (fun result _ asked => Asked view roots sources order s start result asked) [] disk := by
  have hany {a b : Disk} (hrely : (companyOf roots.output batch s).rely a b) :
      ∃ more, Disk.Performs (ServesAny roots.output order) more a b := by
    obtain ⟨more, hmore⟩ := hrely
    exact ⟨more, hmore.mono fun _ ⟨t, ht, hserves⟩ => ⟨t, hsub t (List.mem_filter.1 ht).1, hserves⟩⟩
  have hholds (mid : Disk) (hrely : (companyOf roots.output batch s).onlooking.rely disk mid) :
      view.Holds mid.root := by
    obtain ⟨more, hmore⟩ := hany hrely
    exact (h.performs (hfront.append hmore) rfl).holds
  rw [takeStaleMarker]
  refine .bind ((answers_takeMarker h.inView hholds [] disk ((companyOf _ _ _).refl disk)).mono ?_)
  rintro (e | marker) _ mid ⟨hmarker, rfl, hmid⟩
  · trivial
  refine .ask_bind (fun asked existing hasked hexisting => ?_) fun _ _ _ _ _ _ => trivial
  refine Work.secures_pure fun last hlast => ?_
  split
  · next hsame =>
    obtain ⟨first, hfirst⟩ := hany ((companyOf _ _ _).trans hmid hasked)
    obtain ⟨second, hsecond⟩ := hany hlast
    rw [hsame] at hexisting
    exact ⟨marker, hmarker.symm, asked, operations ++ first, second, hfront.append hfirst, hsecond,
      of_mapError_ok hexisting⟩
  · exact hmarker.symm

/-! ### Work on a source -/

/-- **A source that was worked on**: its outcome, and what was performed for it. -/
inductive Attended (view : Entry) (roots : Roots) (sources order : List Source) (start : Disk)
    (source : Source) (last : Disk) : Outcome → List Operation → Prop
  /-- Its marker could not be taken. -/
  | refused (e : SourceError) : Attended view roots sources order start source last (.failed e) []
  /-- Its module was current, and it was left alone. -/
  | current (current : Watched view start.root roots sources source →
      ∃ marker, Current view roots sources order source start last marker) :
    Attended view roots sources order start source last .cached []
  /-- There was a deed, whose marker is that of the inputs. -/
  | made {marker : Text} {result : Except SourceError (List Path)} {operations : List Operation}
      (deed : Deed roots.output source marker result operations)
      (inputs : Watched view start.root roots sources source →
        markerOf view roots.input source (source.stylesheet? sources) = .ok marker) :
    Attended view roots sources order start source last (madeOutcome result) operations

/-- What was so stays so. -/
theorem Attended.performs (h : Attended view roots sources order start s disk outcome operations)
    {more : List Operation} (hp : Disk.Performs (ServesAny roots.output order) more disk disk') :
    Attended view roots sources order start s disk' outcome operations := by
  cases h with
  | refused e => exact .refused e
  | current hcurrent =>
    refine .current fun hwatched => ?_
    obtain ⟨marker, hmarker, mid, front, back, hfront, hback, hexisting⟩ := hcurrent hwatched
    exact ⟨marker, hmarker, mid, front, _, hfront, hback.append hp, hexisting⟩
  | made hdeed hinputs => exact .made hdeed hinputs

/-- **Work on a source** is a deed. -/
theorem secures_workOn_deed {opens : Source → Prop} (hout : roots.output.Proper) (hs : s.Regular)
    (hlinks : Unlinked shared.1.root roots.output s) (hopens : opens s)
    (hsub : ∀ t ∈ batch, t ∈ order)
    (hfront : Disk.Performs (ServesAny roots.output order) operations start shared.1)
    (view : Entry) :
    (workOn roots sources s).Secures (ReliesOn roots.output batch opens s)
      (DoesOwn roots.output opens s)
      (fun outcome acts last =>
        Attended view roots sources order start s last.1 outcome (operationsOf acts)) [] shared := by
  have hanswer : (takeStaleMarker roots s (s.stylesheet? sources)).Secures
      (companyOf roots.output batch s).onlooking
      (fun result _ asked => Watched view start.root roots sources s →
        Asked view roots sources order s start result asked) [] shared.1 := by
    by_cases hwatched : Watched view start.root roots sources s
    · exact (secures_takeStaleMarker hsub hfront hwatched).mono fun _ _ _ h _ => h
    · exact (quiet_takeStaleMarker _ _ _ _ _ _).mono fun _ _ _ _ h => absurd h hwatched
  refine secures_workOn (.refl _ _ _ _) .trans (fun _ _ => ReliesOn.company) (DoesOwn.nil _ _ s)
    hanswer (fun e _ _ _ _ => .refused e) (fun asked last hasked _ hlast => ?_)
    fun marker asked mid hmarker hmid => ⟨.of_claim hopens mid, ?_⟩
  · obtain ⟨more, hmore⟩ := hlast.performs
    exact (Attended.current hasked).performs
      (hmore.mono fun _ ⟨t, ht, hserves⟩ => ⟨t, hsub t (List.mem_filter.1 ht).1, hserves⟩)
  obtain ⟨_, hp⟩ := hmid.performs
  have hmake : (makeOutputs roots s (s.stylesheet? sources) marker
      (!mid.2.contains (s.directory roots.output))).Secures (companyOf roots.output batch s) _ [] mid.1 :=
    secures_makeOutputs hout hs (fun draft hd => hp.plain draft (hlinks draft hd)) _ _ _
  refine .mono (Thread.Secures.beside hmake (fun _ _ => ReliesOn.company)
    fun more a b tried h => DoesOwn.of_performs h tried) (fun _ _ _ => id) ?_
  rintro result _ last ⟨operations, rfl, _, rfl, hdeed⟩
  rw [operationsOf_append, operationsOf_claimOf, operationsOf_perform]
  exact .made hdeed hmarker

/-- **Work on sources falls into deeds**, one for each source, and brings no link. -/
theorem workThrough_deeds (hout : roots.output.Proper) (hnodup : plan.flatten.Nodup)
    (hs : ∀ s ∈ plan.flatten, s.Regular)
    (hlinks : ∀ s ∈ plan.flatten, Unlinked disk.root roots.output s) (sources : List Source)
    (turns : List (List Nat)) (view : Entry) :
    ∃ trace, Worked roots.output plan.flatten trace disk
        ((workThrough roots sources turns plan).run disk).2
        ((workThrough roots sources turns plan).run disk).1 ∧
      ∀ o ∈ ((workThrough roots sources turns plan).run disk).1,
        Attended view roots sources plan.flatten disk o.1
          ((workThrough roots sources turns plan).run disk).2 o.2 (Thread.actsOf o.1 trace) := by
  obtain ⟨acts, hdoes, ⟨hperm, hpost⟩, -⟩ := run_inBatches (fun _ => True) sources
    (fun _ shared => ∃ front,
      Disk.Performs (ServesAny roots.output plan.flatten) front disk shared.1)
    (fun s outcome acts last => Attended view roots sources plan.flatten disk s last.1
      outcome (operationsOf acts)) (disk, []) hnodup
    (fun hdoes hattended => hattended.performs hdoes.performs)
    (fun earlier batch later hplan turns shared ⟨front, hfront⟩ => by
      obtain ⟨hbatch, hmem⟩ := batch_of_plan hnodup hplan
      obtain ⟨acts, hdoes, hended⟩ := run_takeTurns (fun _ => True) sources hbatch
        (fun s hsb => secures_workOn_deed hout (hs s (hmem s hsb).1)
          (fun draft hd => hfront.plain draft (hlinks s (hmem s hsb).1 draft hd)) trivial
          (fun t ht => (hmem t ht).1) hfront view) turns
      exact ⟨acts, hdoes, hended, _, hfront.append
        (hdoes.mono fun s hs => (hmem s hs).1).performs⟩)
    ⟨[], .nil _ _⟩ turns
  rw [run_workThrough]
  refine ⟨_, hdoes.worked hperm, fun o ho => ?_⟩
  rw [actsOf_traceOf]
  exact hpost o ho

end Build
end TemplateBindings
