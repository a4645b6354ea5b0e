import TemplateBindings.Proofs.Build.Deeds

/-!
# Work on sources whose places are ready

Where the places of all sources are ready and clear of each other
(`TemplateBindings.Build.Prepared`), a run finds each source as it was at the start, whatever it does
with the others meanwhile. So what comes of a source is what is due for it at the start, unless
something hinders it (`TemplateBindings.Build.Turn`): there is no room for its directory, or another
source of its batch has set out to make the directory and has not made it yet
(`TemplateBindings.Build.Contended`).
-/

namespace TemplateBindings
namespace Build

open Files

variable {disk disk' mid : Disk} {roots : Roots} {sources order todo earlier batch : List Source}
  {plan : List (List Source)} {source s t : Source} {outcome : Outcome} {out way q : Path} {n : Str}
  {start files : Entry} {operations directories : List Operation} {marker : Text}
  {opens : Source → Prop} {shared : Shared} {hindrance : Prop}

/-! ### Places that are prepared -/

/-- **Sources in an order to work on**: each is regular markup and comes once, and their places are
clear of each other. -/
structure Orderly (out : Path) (order : List Source) : Prop where
  /-- Each comes once. -/
  nodup : order.Nodup
  /-- They are regular. -/
  regular : ∀ s ∈ order, s.Regular
  /-- They are markup. -/
  markup : ∀ s ∈ order, s.kind = .markup
  /-- Their places are clear of each other. -/
  separate : Separate out order

/-- The places of a source are clear of those of the others in the order. -/
theorem Orderly.clear (ho : Orderly out order) (hs : s ∈ order) (ht : t ∈ order) (hne : s ≠ t) :
    Clear out s t ∧ Clear out t s :=
  ⟨ho.separate s hs t ht hne, ho.separate t ht s hs hne.symm⟩

/-- **A file system in which work on sources can start**: they are in order, the output directory is
there, and their places are ready. -/
structure Prepared (out : Path) (order : List Source) (start : Entry) : Prop where
  /-- The sources are in order. -/
  orderly : Orderly out order
  /-- The root of the outputs is a directory. -/
  root : OutputRoot start out
  /-- The places are ready. -/
  ready : ∀ s ∈ order, Ready start out s

namespace Prepared

/-- After work on the sources places are ready. -/
theorem ready_of_touches (h : Prepared out order start)
    (htouch : Touches out order start.see? files.see?) (hs : s ∈ order) : Ready files out s :=
  (h.ready s hs).of_touches (h.orderly.regular s hs) htouch fun _ ht => h.orderly.clear hs ht

/-- Directories stay. -/
theorem directory_of_touches (h : Prepared out order start)
    (htouch : Touches out order start.see? files.see?) (hq : start.see? q = some .directory) :
    files.see? q = some .directory := by
  rcases htouch q with he | ⟨t, ht, ⟨-, hdir⟩ | ⟨hplace, -⟩⟩
  · rw [he, hq]
  · exact hdir
  · have hw := hplace.elim ((h.ready t ht).outputs q) ((h.ready t ht).drafts q)
    rw [hq] at hw
    exact absurd hw id

theorem root_of_touches (h : Prepared out order start)
    (htouch : Touches out order start.see? files.see?) : OutputRoot files out :=
  ⟨h.root.proper, h.root.fits, h.directory_of_touches htouch h.root.directory⟩

theorem of_touches (h : Prepared out order start)
    (htouch : Touches out order start.see? files.see?) : Prepared out order files :=
  ⟨h.orderly, h.root_of_touches htouch, fun _ hs => h.ready_of_touches htouch hs⟩

theorem unlinked (h : Prepared out order start) (hs : s ∈ order) : Unlinked start out s :=
  (h.ready s hs).unlinked (h.orderly.regular s hs) h.root.directory

/-- **Work on some of the sources** touches their places. -/
theorem touches (h : Prepared out order disk.root) (hsub : ∀ t ∈ todo, t ∈ order)
    (hp : Disk.Performs (ServesAny out todo) operations disk disk') :
    Touches out todo disk.root.see? disk'.root.see? :=
  .of_undergoes hp.undergoes hp.allowed (fun t ht => h.orderly.regular t (hsub t ht))
    fun _ ht => h.unlinked (hsub _ ht)

/-- What is in view without the outputs stays in view. -/
theorem holds (h : Prepared out order start) (htouch : Touches out order start.see? files.see?)
    (hne : out ≠ []) : (start.put none out).Holds files := by
  rcases List.eq_nil_or_concat out with rfl | ⟨way, name, rfl⟩
  · exact absurd rfl hne
  · rw [List.concat_eq_append] at h htouch ⊢
    refine htouch.holds h.orderly.regular h.root.directory (fun q hq => ?_)
      (Entry.holds_put_none start way name)
    rw [Entry.see?_put_none, if_pos hq]

/-- **The places of a source are reserved for it** while only the places of the sources are
touched. -/
theorem reserved (h : Prepared out order start) (hs : s ∈ order) (hbatch : ∀ t ∈ batch, t ∈ order)
    (hn : n ∈ s.outputNames) :
    Reserved (ServesAny out (batch.filter (· ≠ s))) (Serves out s) (s.directory out) n
      fun disk => Touches out order start.see? disk.root.see? where
  vacancy disk hdisk := by
    have hr := h.orderly.regular s hs
    have hready := h.ready_of_touches hdisk hs
    refine ⟨hready.free (h.root_of_touches hdisk).directory,
      hready.drafts _ ((Source.mem_drafts hr).2 ⟨n, hn, rfl⟩), fun hdir => ?_⟩
    have hw := hready.outputs _ ((Source.mem_outputs hr).2 ⟨n, hn, rfl⟩)
    rw [hdir] at hw
    exact hw
  others operations disk disk' hp hdisk := by
    have hsub : ∀ t ∈ batch.filter (· ≠ s), t ∈ order := fun t ht =>
      hbatch t (List.mem_filter.1 ht).1
    have htouch := (h.of_touches hdisk).touches hsub hp
    refine ⟨hdisk.trans (htouch.mono hsub), ?_⟩
    refine htouch.drafts_eq (h.orderly.regular s hs) (fun t ht => h.orderly.regular t (hsub t ht))
      (fun t ht => ?_) ((Source.mem_drafts (h.orderly.regular s hs)).2 ⟨n, hn, rfl⟩)
    have hne : t ≠ s := by simpa using (List.mem_filter.1 ht).2
    exact (h.orderly.clear hs (hsub t ht) hne.symm).1
  mine operations disk disk' hp hdisk := by
    have hone : Disk.Performs (ServesAny out [s]) operations disk disk' :=
      hp.mono fun operation ho => ⟨s, List.mem_singleton_self s, ho⟩
    have hsub : ∀ t ∈ [s], t ∈ order := fun t ht => List.mem_singleton.1 ht ▸ hs
    exact hdisk.trans (((h.of_touches hdisk).touches hsub hone).mono hsub)

end Prepared

/-! ### The turn of a source -/

/-- The operations that write what is due. -/
def writesOf (way : Path) : Except SourceError (Option (List (Str × Str))) → List Operation
  | .ok (some made) => writing way made
  | _ => []

/-- **The turn of a source** in a run from a file system: what it comes to, and what is done for it. -/
inductive Turn (files : Entry) (roots : Roots) (sources : List Source) (source : Source)
    (hindrance : Prop) : Outcome → List Operation → Prop
  /-- It cannot have a marker, or its module is current. -/
  | idle (stale : ¬ IsStale files roots sources source) :
    Turn files roots sources source hindrance
      (outcomeOf roots.output source (due files roots sources source)) []
  /-- Its directory is made as far as it is missing, and what is due is done. -/
  | settled {directories : List Operation} (stale : IsStale files roots sources source)
      (making : Making (source.directory roots.output) directories) :
    Turn files roots sources source hindrance
      (outcomeOf roots.output source (due files roots sources source))
      (directories ++ writesOf (source.directory roots.output) (due files roots sources source))
  /-- Something hinders it, and it fails for that. -/
  | hindered {e : SourceError} {directories : List Operation}
      (stale : IsStale files roots sources source) (hinders : hindrance)
      (making : Making (source.directory roots.output) directories) :
    Turn files roots sources source hindrance (.failed e) directories

theorem Turn.of_error {e : SourceError}
    (h : staleMarker? files roots s (s.stylesheet? sources) = .error e) :
    Turn files roots sources s hindrance (.failed e) [] := by
  have hnot : ¬ IsStale files roots sources s := fun ⟨_, hm⟩ => nomatch h.symm.trans hm
  have hdue : due files roots sources s = .error e := by rw [due, h]
  have hturn : Turn files roots sources s hindrance _ [] := .idle hnot
  rwa [hdue] at hturn

theorem Turn.of_current (h : staleMarker? files roots s (s.stylesheet? sources) = .ok none) :
    Turn files roots sources s hindrance .cached [] := by
  have hnot : ¬ IsStale files roots sources s := fun ⟨_, hm⟩ => nomatch h.symm.trans hm
  have hdue : due files roots sources s = .ok none := by rw [due, h]
  have hturn : Turn files roots sources s hindrance _ [] := .idle hnot
  rwa [hdue] at hturn

theorem Turn.mono {hindrance' : Prop} (h : Turn files roots sources s hindrance outcome operations)
    (hh : IsStale files roots sources s → hindrance → hindrance') :
    Turn files roots sources s hindrance' outcome operations := by
  cases h with
  | idle hstale => exact .idle hstale
  | settled hstale hmaking => exact .settled hstale hmaking
  | hindered hstale hhinders hmaking => exact .hindered hstale (hh hstale hhinders) hmaking

/-- The inputs of a source are in view without the outputs. -/
def InPlainView (files : Entry) (roots : Roots) (sources : List Source) (source : Source) : Prop :=
  InView (files.put none roots.output) roots.input sources source

theorem not_prefix_above (hs : s.Regular) (h : q ∈ (s.outputs out).all) :
    ¬ q <+: s.directory out := by
  obtain ⟨n, -, rfl⟩ := (Source.mem_outputs hs).1 h
  exact s.not_prefix_directory n out

/-- **A batch grants a source its directory**: it can be made, and if the source is to be written, it is
there or nobody else sets out to make it. -/
structure Granted (start : Entry) (roots : Roots) (sources batch : List Source)
    (opens : Source → Prop) (source : Source) (shared : Shared) : Prop where
  /-- It can be made. -/
  makeable : (source.directory roots.output).Makeable start directoryRoom
  /-- If it was tried before, it is there. -/
  tried : source.directory roots.output ∈ shared.2 →
    shared.1.root.see? (source.directory roots.output) = some .directory
  /-- It is there, or it is the source itself that makes it. -/
  alone : Compiles start roots sources source →
    shared.1.root.see? (source.directory roots.output) = some .directory ∨
      ∀ t ∈ batch, t ≠ source → opens t →
        source.directory roots.output ≠ t.directory roots.output

/-- Where a source comes to its directory after others have gone on, it is the first to try it, or the
directory is there. -/
theorem Granted.ensure_or {shared shared' : Shared}
    (hg : Granted start roots sources batch opens s shared)
    (hrely : ReliesOn roots.output batch opens s shared shared')
    (hc : Compiles start roots sources s) :
    s.directory roots.output ∉ shared'.2 ∨
      shared'.1.root.see? (s.directory roots.output) = some .directory := by
  obtain ⟨operations, hp⟩ := hrely.performs
  by_cases hmem : s.directory roots.output ∈ shared'.2
  · right
    refine hp.directory _ ?_
    rcases hrely.claims _ hmem with hbefore | ⟨t, ht, hne, hopens, he⟩
    · exact hg.tried hbefore
    · exact (hg.alone hc).resolve_right fun halone => halone t ht hne hopens he
  · exact .inl hmem

/-! ### Working on a source -/

section
variable (h : Prepared roots.output order start) (hs : s ∈ order)
  (hbatch : ∀ t ∈ batch, t ∈ order)
include h hs hbatch

/-- While the other sources are worked on, the places of all are touched, and the outputs of this one
are not. -/
theorem Prepared.touches_rely (htouch : Touches roots.output order start.see? disk.root.see?)
    (hrely : (companyOf roots.output batch s).rely disk mid) :
    Touches roots.output order start.see? mid.root.see? ∧
      (∀ q ∈ (s.outputs roots.output).all, mid.root.see? q = disk.root.see? q) ∧
      ∀ q, disk.root.see? q = some .directory → mid.root.see? q = some .directory := by
  obtain ⟨operations, hp⟩ := hrely
  have hsub : ∀ t ∈ batch.filter (· ≠ s), t ∈ order := fun t ht =>
    hbatch t (List.mem_filter.1 ht).1
  have hothers := (h.of_touches htouch).touches hsub hp
  refine ⟨htouch.trans (hothers.mono hsub), fun q hq => hothers.outputs_eq (fun t ht => ?_) hq,
    hp.directory⟩
  have hne : t ≠ s := by simpa using (List.mem_filter.1 ht).2
  exact h.orderly.clear hs (hsub t ht) hne.symm

/-- Whatever is done for the source, only the places of the sources are touched, and directories
stay. -/
theorem Prepared.onward {ε α : Type} {work : Work ε α} {before : List Operation}
    {post : Except ε α → List Operation → Disk → Prop}
    (htouch : Touches roots.output order start.see? disk.root.see?)
    (hwork : work.Secures (companyOf roots.output batch s) post before disk) :
    work.Secures (companyOf roots.output batch s) (fun result acts last =>
      post result acts last ∧ Touches roots.output order start.see? last.root.see? ∧
        ∀ q, disk.root.see? q = some .directory → last.root.see? q = some .directory)
      before disk := by
  refine hwork.and_kept (fun last => Touches roots.output order start.see? last.root.see? ∧
    ∀ q, disk.root.see? q = some .directory → last.root.see? q = some .directory)
    ⟨htouch, fun _ => id⟩ (fun operations a b hp ⟨ha, hdirs⟩ => ?_)
    fun operations a b hp ⟨ha, hdirs⟩ => ?_
  · obtain ⟨hb, -, hstay⟩ := h.touches_rely hs hbatch ha ⟨operations, hp⟩
    exact ⟨hb, fun q hq => hstay q (hdirs q hq)⟩
  · have hone : Disk.Performs (ServesAny roots.output [s]) operations a b :=
      hp.mono fun operation ho => ⟨s, List.mem_singleton_self s, ho⟩
    have hsub : ∀ t ∈ [s], t ∈ order := fun t ht => List.mem_singleton.1 ht ▸ hs
    exact ⟨ha.trans (((h.of_touches ha).touches hsub hone).mono hsub),
      fun q hq => hp.directory q (hdirs q hq)⟩

/-- The directory of a source is entered if it can be made. -/
theorem Prepared.secures_enter (htouch : Touches roots.output order start.see? disk.root.see?)
    (ensure : Bool) (before : List Operation) :
    (enter (s.directory roots.output) ensure).Secures (companyOf roots.output batch s)
      (fun result acts mid => ∃ directories, acts = before ++ directories ∧
        Making (s.directory roots.output) directories ∧
        (ensure = true → result = .ok () →
          mid.root.see? (s.directory roots.output) = some .directory) ∧
        ((ensure = true → (s.directory roots.output).Makeable start directoryRoom) →
          result = .ok ()))
      before disk := by
  have hw := Source.directory_proper h.root.proper (h.orderly.regular s hs)
  have hfree := (h.ready_of_touches htouch hs).free (h.root_of_touches htouch).directory
  have hsub : ∀ t ∈ batch.filter (· ≠ s), t ∈ order := fun t ht =>
    hbatch t (List.mem_filter.1 ht).1
  refine .mono (.wider (secures_enter_makeable hw hfree.plain (fun _ _ _ hp hfree =>
    free_of_undergoes hp.undergoes hp.allowed (fun t ht => h.orderly.regular t (hsub t ht))
      (fun t ht => ?_) hfree) ensure) fun _ => serves_of_makesOn) ?_
  · have hne : t ≠ s := by simpa using (List.mem_filter.1 ht).2
    exact (h.orderly.clear hs (hsub t ht) hne.symm).2
  · rintro result _ mid ⟨⟨directories, rfl, hmaking⟩, hdir, hmakeable⟩
    refine ⟨directories, rfl, hmaking, fun he hok => (hdir he hok).1, fun hroom => ?_⟩
    exact hmakeable fun he => ⟨hfree, (hroom he).fits,
      (hroom he).roomy.mono fun q => h.directory_of_touches htouch⟩

/-- **Writing what a source is compiled to** does what is due for it, unless its directory was
missing. -/
theorem Prepared.secures_writeArtifacts {artifacts : GeneratedModule.Artifacts}
    (hmarker : staleMarker? start roots s (s.stylesheet? sources) = .ok (some marker))
    (hcompiled : compileSource start roots.input s (s.stylesheet? sources) marker = .ok artifacts)
    (htouch : Touches roots.output order start.see? disk.root.see?) (before : List Operation) :
    (writeArtifacts (inDirectory (s.directory roots.output) (artifactFiles s.name artifacts)) >>=
        fun _ => pure ((inDirectory (s.directory roots.output)
          (artifactFiles s.name artifacts)).map Prod.fst)).Secures (companyOf roots.output batch s)
      (fun result acts _ =>
        madeOutcome result = outcomeOf roots.output s (due start roots sources s) ∧
            acts = before ++ writesOf (s.directory roots.output) (due start roots sources s) ∨
          disk.root.see? (s.directory roots.output) ≠ some .directory ∧
            (∃ e, result = .error e) ∧ acts = before)
      before disk := by
  have hr := h.orderly.regular s hs
  have hw := Source.directory_proper h.root.proper hr
  have hreserved (file : Str × Str) (hfile : file ∈ artifactFiles s.name artifacts) :=
    h.reserved hs hbatch (mem_outputNames_of_artifactFiles hfile)
  have hnames := hr.files_isName artifacts
  have hdue := due_of_staleMarker? hmarker
  simp only [hcompiled, Except.bind] at hdue
  rcases hover : overLimits? (s.directory roots.output) (artifactFiles s.name artifacts) with
    _ | file
  · rw [hover] at hdue
    dsimp only at hdue
    rw [hdue]
    refine .bind ((secures_writeArtifacts_reserved hw hnames hreserved htouch
      (overLimits?_eq_none hover) fun _ => serves_of_writing).mono ?_)
    rintro _ _ last (⟨e, rfl, rfl, hnot⟩ | ⟨rfl, rfl⟩)
    · exact .inr ⟨hnot, ⟨_, rfl⟩, rfl⟩
    · rw [endOf, outcomeOf]
      rcases firstFault? (artifactFiles s.name artifacts) with _ | fault
      · exact Work.secures_pure fun _ _ => .inl ⟨rfl, rfl⟩
      · exact .inl ⟨rfl, rfl⟩
  · obtain ⟨⟨rest, hfiles⟩, hlong⟩ := overLimits?_eq_some hw hr hover
    have hfile : file ∈ artifactFiles s.name artifacts := hfiles ▸ List.mem_cons_self
    rw [hover] at hdue
    dsimp only at hdue
    rw [hdue, hfiles]
    refine .bind ((secures_writeArtifacts_too_long hw (hnames file hfile) (hreserved file hfile)
      htouch hlong).mono ?_)
    rintro _ _ last ⟨e, rfl, rfl, he⟩
    by_cases hdir : disk.root.see? (s.directory roots.output) = some .directory
    · rw [he hdir]
      exact .inl ⟨rfl, (List.append_nil _).symm⟩
    · exact .inr ⟨hdir, ⟨_, rfl⟩, rfl⟩

/-- **Making the outputs of a source** does what is due for it, or fails because its directory was
missing or could not be made. -/
theorem Prepared.secures_makeOutputs (hne : roots.output ≠ [])
    (hview : InPlainView start roots sources s)
    (hmarker : staleMarker? start roots s (s.stylesheet? sources) = .ok (some marker))
    (htouch : Touches roots.output order start.see? disk.root.see?) (ensure : Bool)
    (before : List Operation) :
    (makeOutputs roots s (s.stylesheet? sources) marker ensure).Secures
      (companyOf roots.output batch s)
      (fun result acts last => ∃ directories, Making (s.directory roots.output) directories ∧
        (madeOutcome result = outcomeOf roots.output s (due start roots sources s) ∧
            acts = before ++ (directories ++
              writesOf (s.directory roots.output) (due start roots sources s)) ∨
          ¬ ((ensure = true → (s.directory roots.output).Makeable start directoryRoom) ∧
              (Compiles start roots sources s → ensure = true ∨
                disk.root.see? (s.directory roots.output) = some .directory)) ∧
            (∃ e, result = .error e) ∧ acts = before ++ directories) ∧
        (ensure = true → (s.directory roots.output).Makeable start directoryRoom →
          last.root.see? (s.directory roots.output) = some .directory))
      before disk := by
  have hr := h.orderly.regular s hs
  have hw := Source.directory_proper h.root.proper hr
  rw [makeOutputs]
  refine .bind ((h.onward hs hbatch htouch (h.secures_enter hs hbatch htouch ensure before)).mono ?_)
  rintro (e | _) _ mid ⟨⟨directories, rfl, hmaking, hdir, hmakeable⟩, hmid, hstay⟩
  · have hnot : ¬ (ensure = true → (s.directory roots.output).Makeable start directoryRoom) :=
      fun hroom => by cases hmakeable hroom
    exact ⟨directories, hmaking, .inr ⟨fun hall => hnot hall.1, ⟨e, rfl⟩, rfl⟩,
      fun _ hroom => absurd (fun _ => hroom) hnot⟩
  -- the inputs are the same all the time
  have hholds (next : Disk) (hnext : (companyOf roots.output batch s).rely mid next) :
      (start.put none roots.output).Holds next.root :=
    h.holds (h.touches_rely hs hbatch hmid hnext).1 hne
  refine .bind ((answers_compileInputs hview hholds (h.holds (.refl _ _ _) hne) marker _ mid
    ((companyOf roots.output batch s).refl mid)).mono ?_)
  rintro result _ next ⟨rfl, rfl, hnext⟩
  obtain ⟨hnow, -, hstay'⟩ := h.touches_rely hs hbatch hmid hnext
  have hthere (he : ensure = true) : next.root.see? (s.directory roots.output) = some .directory :=
    hstay' _ (hdir he rfl)
  rcases hcompiled : compileSource start roots.input s (s.stylesheet? sources) marker with
    e | artifacts
  · have hdue : due start roots sources s = .error e := by
      rw [due_of_staleMarker? hmarker, hcompiled]
      rfl
    rw [hdue]
    exact ⟨directories, hmaking, .inl ⟨rfl, by simp [writesOf]⟩, fun he _ => hthere he⟩
  · dsimp only
    rw [artifactTexts_eq hr]
    refine (h.onward hs hbatch hnow
      (h.secures_writeArtifacts hs hbatch hmarker hcompiled hnow _)).mono ?_
    rintro result acts last ⟨hend, -, hlast⟩
    refine ⟨directories, hmaking, ?_, fun he _ => hlast _ (hthere he)⟩
    rcases hend with ⟨houtcome, rfl⟩ | ⟨hmissing, herror, rfl⟩
    · exact .inl ⟨houtcome, List.append_assoc ..⟩
    · refine .inr ⟨fun hall => hmissing ?_, herror, rfl⟩
      rcases hall.2 ⟨marker, artifacts, hmarker, hcompiled⟩ with he | hdisk
      · exact hthere he
      · exact hstay' _ (hstay _ hdisk)

/-- Whether its module is current is answered as at the start. -/
theorem Prepared.secures_takeStaleMarker (hne : roots.output ≠ [])
    (hview : InPlainView start roots sources s)
    (htouch : Touches roots.output order start.see? disk.root.see?)
    (hsame : ∀ q ∈ (s.outputs roots.output).all, disk.root.see? q = start.see? q) :
    (takeStaleMarker roots s (s.stylesheet? sources)).Secures
      (companyOf roots.output batch s).onlooking
      (fun result _ _ => result = staleMarker? start roots s (s.stylesheet? sources)) [] disk := by
  refine .mono (answers_takeStaleMarker hview (fun mid hmid => ?_) (h.holds (.refl _ _ _) hne)
    (fun mid hmid => ?_) [] disk (Company.refl _ disk)) fun _ _ _ hend => hend.1
  · exact h.holds (h.touches_rely hs hbatch htouch hmid).1 hne
  · obtain ⟨hmid, houtputs, -⟩ := h.touches_rely hs hbatch htouch hmid
    have hmem : (s.outputs roots.output).module ∈ (s.outputs roots.output).all :=
      List.mem_cons_self
    exact existingMarker_congr (h.root_of_touches hmid) h.root (h.orderly.regular s hs)
      (h.orderly.markup s hs) (h.ready_of_touches hmid hs) (h.ready s hs)
      (congrArg markerSeen ((houtputs _ hmem).trans (hsame _ hmem)))

/-- **Work on a source whose inputs are in view** comes to what is due for it at the start, unless the
batch does not grant it its directory. -/
theorem Prepared.secures_workOn (hne : roots.output ≠ [])
    (hview : InPlainView start roots sources s)
    (htouch : Touches roots.output order start.see? shared.1.root.see?)
    (hsame : ∀ q ∈ (s.outputs roots.output).all, shared.1.root.see? q = start.see? q)
    (hopens : IsStale start roots sources s → opens s) :
    (workOn roots sources s).Secures (ReliesOn roots.output batch opens s)
      (DoesOwn roots.output opens s)
      (fun outcome acts last =>
        Turn start roots sources s (¬ Granted start roots sources batch opens s shared) outcome
          (operationsOf acts) ∧
        (IsStale start roots sources s → s.directory roots.output ∈ last.2) ∧
        ∀ d ∈ claimsOf acts, d.Makeable start directoryRoom →
          last.1.root.see? d = some .directory) [] shared := by
  refine Build.secures_workOn (.refl _ _ _ _) .trans (fun _ _ => ReliesOn.company) (DoesOwn.nil _ _ s)
    (h.secures_takeStaleMarker hs hbatch hne hview htouch hsame) (fun e _ last he _ => ?_)
    (fun _ last he _ _ => ?_) fun marker _ mid he hmid => ?_
  · refine ⟨.of_error he.symm, fun hstale => ?_, nofun⟩
    obtain ⟨marker, hmarker⟩ := hstale
    cases he.trans hmarker
  · refine ⟨.of_current he.symm, fun hstale => ?_, nofun⟩
    obtain ⟨marker, hmarker⟩ := hstale
    cases he.trans hmarker
  have hstale : IsStale start roots sources s := ⟨marker, he.symm⟩
  have hmake : Thread.Secures (ReliesOn roots.output batch opens s) (DoesOwn roots.output opens s)
      _ _ (claimOf (s.directory roots.output) mid.2)
      (mid.1, claimed (s.directory roots.output) mid.2) :=
    Thread.Secures.beside (h.secures_makeOutputs hs hbatch hne hview he.symm
        (h.touches_rely hs hbatch htouch hmid.company).1
        (!mid.2.contains (s.directory roots.output)) [])
      (fun _ _ => ReliesOn.company) fun more a b tried hp => DoesOwn.of_performs hp tried
  refine ⟨.of_claim (hopens hstale) mid, .mono (hmake.and_kept
    (fun last => s.directory roots.output ∈ last.2) mem_claimed_self
    (fun a b hr => hr.grows _) fun more a b hown ha => (hown.mem_iff _).2 (.inl ha))
    (fun _ _ _ => id) ?_⟩
  rintro result _ last ⟨⟨more, rfl, directories, hmaking, hend, hdir⟩, hlast⟩
  rw [operationsOf_append, operationsOf_claimOf, operationsOf_perform, claimsOf_append,
    claimsOf_perform, List.nil_append, List.append_nil]
  refine ⟨?_, fun _ => hlast, fun d hd hroom => ?_⟩
  · rcases hend with ⟨houtcome, rfl⟩ | ⟨hnot, ⟨e, rfl⟩, rfl⟩
    · rw [houtcome]
      exact .settled hstale hmaking
    · refine .hindered hstale (fun hgranted => hnot ⟨fun _ => hgranted.makeable, fun hc => ?_⟩)
        hmaking
      rcases hgranted.ensure_or hmid hc with hmem | hthere
      · exact .inl (by simpa using hmem)
      · exact .inr hthere
  · obtain ⟨hnot, rfl⟩ := of_mem_claimsOf_claimOf hd
    exact hdir (by simpa using hnot) hroom

/-- The directory that making outputs enters is there in the end. -/
theorem Prepared.secures_makeOutputs_entered
    (htouch : Touches roots.output order start.see? disk.root.see?) (sheet : Option Source)
    (marker : Text) (ensure : Bool) (before : List Operation) :
    (makeOutputs roots s sheet marker ensure).Secures (companyOf roots.output batch s)
      (fun _ _ last => ensure = true → (s.directory roots.output).Makeable start directoryRoom →
        last.root.see? (s.directory roots.output) = some .directory) before disk := by
  have hr := h.orderly.regular s hs
  have hw := Source.directory_proper h.root.proper hr
  rw [makeOutputs]
  refine .bind ((h.onward hs hbatch htouch (h.secures_enter hs hbatch htouch ensure before)).mono ?_)
  rintro (e | _) _ mid ⟨⟨directories, rfl, hmaking, hdir, hmakeable⟩, hmid, -⟩
  · intro _ hroom
    cases hmakeable fun _ => hroom
  refine .bind ((h.onward hs hbatch hmid (quiet_compileInputs _ _ _ _ _ _ _)).mono ?_)
  rintro (e | artifacts) _ next ⟨rfl, hnext, hstay⟩
  · exact fun he _ => hstay _ (hdir he rfl)
  have hlinks := (h.of_touches hnext).unlinked hs
  dsimp only
  rw [artifactTexts_eq hr]
  refine .bind ((h.onward hs hbatch hnext (Build.secures_writeArtifacts hw
    (hr.files_isName artifacts) (fun file hfile =>
      hlinks.draft hr (mem_outputNames_of_artifactFiles hfile)) fun _ => serves_of_writing)).mono ?_)
  rintro (e | _) _ last ⟨-, -, hlast⟩
  · exact fun he _ => hlast _ (hstay _ (hdir he rfl))
  · exact Work.secures_pure fun final hfinal he _ =>
      hfinal.choose_spec.directory _ (hlast _ (hstay _ (hdir he rfl)))

/-- **A directory that work on a source sets out to make** is there in the end, if it can be made. -/
theorem Prepared.secures_workOn_entered
    (htouch : Touches roots.output order start.see? shared.1.root.see?) (hopens : opens s) :
    (workOn roots sources s).Secures (ReliesOn roots.output batch opens s)
      (DoesOwn roots.output opens s)
      (fun _ acts last => ∀ d ∈ claimsOf acts, d.Makeable start directoryRoom →
        last.1.root.see? d = some .directory) [] shared := by
  have hanswer : (takeStaleMarker roots s (s.stylesheet? sources)).Secures
      (companyOf roots.output batch s).onlooking (fun _ _ _ => True) [] shared.1 :=
    (quiet_takeStaleMarker _ _ _ _ _ _).mono fun _ _ _ _ => trivial
  refine Build.secures_workOn (.refl _ _ _ _) .trans (fun _ _ => ReliesOn.company)
    (DoesOwn.nil _ _ s) hanswer (fun _ _ _ _ _ => nofun) (fun _ _ _ _ _ => nofun)
    fun marker _ mid _ hmid => ⟨.of_claim hopens mid, ?_⟩
  have hmake : Thread.Secures (ReliesOn roots.output batch opens s) (DoesOwn roots.output opens s)
      _ _ (claimOf (s.directory roots.output) mid.2)
      (mid.1, claimed (s.directory roots.output) mid.2) :=
    Thread.Secures.beside (h.secures_makeOutputs_entered hs hbatch
        (h.touches_rely hs hbatch htouch hmid.company).1 (s.stylesheet? sources) marker
        (!mid.2.contains (s.directory roots.output)) [])
      (fun _ _ => ReliesOn.company) fun more a b tried hp => DoesOwn.of_performs hp tried
  refine hmake.mono (fun _ _ _ => id) ?_
  rintro result _ last ⟨more, rfl, hdir⟩ d hd hroom
  rw [claimsOf_append, claimsOf_perform, List.append_nil] at hd
  obtain ⟨hnot, rfl⟩ := of_mem_claimsOf_claimOf hd
  exact hdir (by simpa using hnot) hroom

end

/-! ### Batches -/

/-- The source may set out to make its directory: it is stale, or nobody knows. -/
def MayEnter (start : Entry) (roots : Roots) (sources : List Source) (source : Source) : Prop :=
  InPlainView start roots sources source → IsStale start roots sources source

/-- The source sees to it that its directory is made. -/
structure Enters (start : Entry) (roots : Roots) (sources : List Source) (source : Source) :
    Prop where
  /-- Its inputs are in view. -/
  view : InPlainView start roots sources source
  /-- It is stale. -/
  stale : IsStale start roots sources source
  /-- There is room for its directory. -/
  roomy : (source.directory roots.output).Roomy start directoryRoom

/-- **A source to be written shares its directory with another one of its batch** that may set out to
make it, and neither is it there nor does an earlier batch make it. -/
structure Contended (start : Entry) (roots : Roots) (sources : List Source)
    (plan : List (List Source)) (source : Source) : Prop where
  /-- It is to be written. -/
  compiles : Compiles start roots sources source
  /-- Its directory is missing. -/
  missing : start.see? (source.directory roots.output) ≠ some .directory
  /-- Another one of its batch has the directory too, and no earlier batch makes it. -/
  rival : ∃ earlier batch later, plan = earlier ++ batch :: later ∧ source ∈ batch ∧
    (∃ t ∈ batch, t ≠ source ∧ t.directory roots.output = source.directory roots.output ∧
      MayEnter start roots sources t) ∧
    ∀ u ∈ earlier.flatten, source.directory roots.output <+: u.directory roots.output →
      ¬ Enters start roots sources u

/-- **What may hinder a source**: there is no room for its directory, or it is contended. -/
def Hindrance (start : Entry) (roots : Roots) (sources : List Source) (plan : List (List Source))
    (source : Source) : Prop :=
  ¬ (source.directory roots.output).Roomy start directoryRoom ∨
    Contended start roots sources plan source

/-- **What holds between two batches** of a run. -/
structure Between (start : Entry) (roots : Roots) (sources earlier : List Source)
    (shared : Shared) : Prop where
  /-- The places of the sources worked on were touched. -/
  touches : Touches roots.output earlier start.see? shared.1.root.see?
  /-- The directories that were tried are there, if they can be made. -/
  tried : ∀ d ∈ shared.2, d.Makeable start directoryRoom →
    shared.1.root.see? d = some .directory
  /-- The directories of stale sources were tried. -/
  entered : ∀ u ∈ earlier, InPlainView start roots sources u → IsStale start roots sources u →
    u.directory roots.output ∈ shared.2

theorem Prepared.makeable (h : Prepared roots.output order start) (hs : s ∈ order)
    (hstale : IsStale start roots sources s)
    (hroom : (s.directory roots.output).Roomy start directoryRoom) :
    (s.directory roots.output).Makeable start directoryRoom :=
  ⟨(h.ready s hs).free h.root.directory,
    fits_of_isStale h.root (h.orderly.regular s hs) (h.orderly.markup s hs) (h.ready s hs) hstale,
    hroom⟩

/-- A stale source that nothing hinders is granted its directory. -/
theorem Between.granted {later : List (List Source)} {earlier : List (List Source)}
    (h : Prepared roots.output plan.flatten start)
    (hplan : plan = earlier ++ batch :: later)
    (hb : Between start roots sources earlier.flatten shared) (hs : s ∈ batch)
    (hstale : IsStale start roots sources s) (hnot : ¬ Hindrance start roots sources plan s) :
    Granted start roots sources batch (MayEnter start roots sources) s shared := by
  obtain ⟨hroom, hcontended⟩ := not_or.1 hnot
  have hmem {u : Source} (hu : u ∈ earlier.flatten ∨ u ∈ batch) : u ∈ plan.flatten := by
    rw [hplan, List.flatten_append, List.flatten_cons]
    exact hu.elim (List.mem_append_left _) fun hu =>
      List.mem_append_right _ (List.mem_append_left _ hu)
  have htouch : Touches roots.output plan.flatten start.see? shared.1.root.see? :=
    hb.touches.mono fun t ht => hmem (.inl ht)
  have hmakeable := h.makeable (hmem (.inr hs)) hstale (not_not.1 hroom)
  refine ⟨hmakeable, fun htried => hb.tried _ htried hmakeable, fun hc => ?_⟩
  by_contra hcon
  obtain ⟨hgone, hrival⟩ := not_or.1 hcon
  push Not at hrival
  obtain ⟨t, ht, hne, hopens, he⟩ := hrival
  refine hcontended ⟨hc, fun hdir => hgone (h.directory_of_touches htouch hdir), earlier, batch,
    later, hplan, hs, ⟨t, ht, hne, he.symm, hopens⟩, fun u hu hpre henters => hgone ?_⟩
  have hthere := hb.tried _ (hb.entered u hu henters.view henters.stale)
    (h.makeable (hmem (.inl hu)) henters.stale henters.roomy)
  exact Entry.see?_directory_of_prefix_directory hpre hthere

/-- What comes of a source in a run, if its inputs are in view. -/
def ComesTo (start : Entry) (roots : Roots) (sources : List Source) (plan : List (List Source))
    (source : Source) (outcome : Outcome) (operations : List Operation) : Prop :=
  InPlainView start roots sources source →
    Turn start roots sources source (Hindrance start roots sources plan source) outcome operations

/-- **What work on a source of a batch secures.** -/
structure Secured (start : Entry) (roots : Roots) (sources : List Source)
    (plan : List (List Source)) (source : Source) (outcome : Outcome) (acts : List Act)
    (last : Shared) : Prop where
  /-- What is due is done. -/
  comes : ComesTo start roots sources plan source outcome (operationsOf acts)
  /-- If it is stale, its directory was tried. -/
  entered : InPlainView start roots sources source → IsStale start roots sources source →
    source.directory roots.output ∈ last.2
  /-- What it has set out to make is there, if it can be made. -/
  made : ∀ d ∈ claimsOf acts, d.Makeable start directoryRoom →
    last.1.root.see? d = some .directory

section
variable {before after : List (List Source)} (h : Prepared roots.output plan.flatten start)
  (hplan : plan = before ++ batch :: after)
  (hb : Between start roots sources before.flatten shared)
include h hplan hb

theorem Between.secures_workOn (hne : roots.output ≠ []) (hs : s ∈ batch) :
    (workOn roots sources s).Secures
      (ReliesOn roots.output batch (MayEnter start roots sources) s)
      (DoesOwn roots.output (MayEnter start roots sources) s)
      (Secured start roots sources plan s) [] shared := by
  obtain ⟨-, hmem⟩ := batch_of_plan h.orderly.nodup hplan
  have hbefore : ∀ t ∈ before.flatten, t ∈ plan.flatten := fun t ht => by
    rw [hplan, List.flatten_append]
    exact List.mem_append_left _ ht
  have hsub : ∀ t ∈ batch, t ∈ plan.flatten := fun t ht => (hmem t ht).1
  have htouch := hb.touches.mono hbefore
  by_cases hview : InPlainView start roots sources s
  · have hclear (t : Source) (ht : t ∈ before.flatten) :
        Clear roots.output s t ∧ Clear roots.output t s :=
      h.orderly.clear (hsub s hs) (hbefore t ht) fun he => (hmem s hs).2.1 (he ▸ ht)
    refine (h.secures_workOn (hsub s hs) hsub hne hview htouch
      (fun q hq => hb.touches.outputs_eq hclear hq) fun hstale _ => hstale).mono
      (fun _ _ _ => id) ?_
    rintro outcome acts last ⟨hturn, hentered, hmade⟩
    refine ⟨fun _ => hturn.mono fun hstale hnot => ?_, fun _ => hentered, hmade⟩
    by_contra hfree
    exact hnot (hb.granted h hplan hs hstale hfree)
  · refine (h.secures_workOn_entered (hsub s hs) hsub htouch fun hv => absurd hv hview).mono
      (fun _ _ _ => id) fun outcome acts last hmade => ?_
    exact ⟨fun hv => absurd hv hview, fun hv => absurd hv hview, hmade⟩

/-- **A batch** does what is due for its sources, and leaves things as the next one needs them. -/
theorem Between.run_takeTurns (hne : roots.output ≠ []) (turns : List Nat) :
    ∃ acts,
      Does roots.output batch (MayEnter start roots sources) acts shared
        ((Thread.takeTurns turns [] (workOnBatch roots sources batch)).run shared).2 ∧
      Thread.AllEnded batch
        (fun s outcome acts _ => ComesTo start roots sources plan s outcome (operationsOf acts))
        ((Thread.takeTurns turns [] (workOnBatch roots sources batch)).run shared).1 acts
        ((Thread.takeTurns turns [] (workOnBatch roots sources batch)).run shared).2 ∧
      Between start roots sources (before ++ [batch]).flatten
        ((Thread.takeTurns turns [] (workOnBatch roots sources batch)).run shared).2 := by
  obtain ⟨hnodup, hmem⟩ := batch_of_plan h.orderly.nodup hplan
  have hbefore : ∀ t ∈ before.flatten, t ∈ plan.flatten := fun t ht => by
    rw [hplan, List.flatten_append]
    exact List.mem_append_left _ ht
  obtain ⟨acts, hdoes, hperm, hpost⟩ := Build.run_takeTurns _ sources hnodup
    (fun s hs => hb.secures_workOn h hplan hne hs) turns
  have hended {t : Source} (ht : t ∈ batch) : ∃ outcome, Secured start roots sources plan t outcome
      (Thread.actsOf t acts)
      ((Thread.takeTurns turns [] (workOnBatch roots sources batch)).run shared).2 := by
    obtain ⟨m, hm, rfl⟩ := List.mem_map.1 (hperm.symm.subset ht)
    exact ⟨_, hpost m hm⟩
  have hflat : (before ++ [batch]).flatten = before.flatten ++ batch := by simp
  refine ⟨acts, hdoes, ⟨hperm, fun m hm => (hpost m hm).comes⟩, ?_, fun d hd hroom => ?_,
    fun u hu hview hstale => ?_⟩
  · rw [hflat]
    have hnow := (h.of_touches (hb.touches.mono hbefore)).touches (fun t ht => (hmem t ht).1)
      hdoes.performs
    exact (hb.touches.mono fun t ht => List.mem_append_left _ ht).trans
      (hnow.mono fun t ht => List.mem_append_right _ ht)
  · rcases (hdoes.mem_iff d).1 hd with hd | ⟨t, hmem⟩
    · exact hdoes.performs.directory d (hb.tried d hd hroom)
    · obtain ⟨outcome, hsecured⟩ := hended (hdoes.serves _ hmem).1
      refine hsecured.made d (List.mem_filterMap.2 ⟨.claim d, ?_, rfl⟩) hroom
      exact List.mem_map.2 ⟨_, List.mem_filter.2 ⟨hmem, by simp⟩, rfl⟩
  · rw [hflat] at hu
    rcases List.mem_append.1 hu with hu | hu
    · exact (hdoes.mem_iff _).2 (.inl (hb.entered u hu hview hstale))
    · obtain ⟨outcome, hsecured⟩ := hended hu
      exact hsecured.entered hview hstale

end

/-! ### All of a run -/

/-- **Work on sources whose places are ready**: what is due for each source whose inputs are in view
is done, unless something hinders it, and only the places of the sources are touched. The directories
of stale sources are there in the end, if there is room for them. -/
theorem Prepared.through (h : Prepared roots.output plan.flatten disk.root)
    (hne : roots.output ≠ []) (sources : List Source) (turns : List (List Nat)) :
    ∃ trace, Worked roots.output plan.flatten trace disk
        ((workThrough roots sources turns plan).run disk).2
        ((workThrough roots sources turns plan).run disk).1 ∧
      (∀ o ∈ ((workThrough roots sources turns plan).run disk).1,
        ComesTo disk.root roots sources plan o.1 o.2 (Thread.actsOf o.1 trace)) ∧
      ∀ s ∈ plan.flatten, Enters disk.root roots sources s →
        ((workThrough roots sources turns plan).run disk).2.root.see? (s.directory roots.output) =
          some .directory := by
  have hstart : Between disk.root roots sources [] (disk, []) :=
    ⟨.refl _ _ _, nofun, nofun⟩
  obtain ⟨acts, hdoes, ⟨hperm, hcomes⟩, hbetween⟩ := run_inBatches _ sources _
    (fun s outcome acts _ => ComesTo disk.root roots sources plan s outcome (operationsOf acts))
    (disk, []) h.orderly.nodup (fun _ => id)
    (fun _ _ _ hplan turns _ hb => hb.run_takeTurns h hplan hne turns) hstart turns
  rw [run_workThrough]
  refine ⟨_, hdoes.worked hperm, fun o ho => ?_, fun s hs henters => ?_⟩
  · rw [actsOf_traceOf]
    exact hcomes o ho
  · exact hbetween.tried _ (hbetween.entered s hs henters.view henters.stale)
      (h.makeable hs henters.stale henters.roomy)

end Build
end TemplateBindings
