import TemplateBindings.Proofs.Build.Making

/-!
# Operations for a source

Whatever is performed for a source makes a directory on the way to its outputs, writes a draft, or
puts one in place (`TemplateBindings.Build.Serves`). So where no draft is a link, work on sources
touches their places and nothing else (`TemplateBindings.Build.Touches.of_undergoes`), in whatever
order the operations for one and for another come.
-/

namespace TemplateBindings

/-- The place that an operation moves a file to. -/
def Files.Operation.landing? : Files.Operation → Option Files.Path
  | .move _ target => some target
  | _ => none

namespace Build

open Files

variable {disk disk' : Disk} {files root : Entry} {out path way : Path} {s t : Source}
  {todo order : List Source} {operation : Operation} {operations : List Operation} {now : Int}
  {artifacts : GeneratedModule.Artifacts} {n : Str}

/-- **An operation for a source.** -/
inductive Serves (out : Path) (source : Source) : Operation → Prop
  /-- A directory is made on the way to its outputs. -/
  | enter {way : Path} (on : way <+: source.directory out) : Serves out source (.makeDirectory way)
  /-- A draft is written. -/
  | draft {n : Str} (mem : n ∈ source.outputNames) (bytes : List UInt8) :
    Serves out source (.write (source.directory out ++ [draftName n]) bytes)
  /-- A draft is put in place. -/
  | deliver {n : Str} (mem : n ∈ source.outputNames) :
    Serves out source
      (.move (source.directory out ++ [draftName n]) (source.directory out ++ [n]))

theorem serves_of_makesOn (h : Operation.MakesOn (s.directory out) operation) :
    Serves out s operation := by
  obtain ⟨way, hway, rfl⟩ := h
  exact .enter hway

theorem serves_of_writing
    (h : operation ∈ writing (s.directory out) (artifactFiles s.name artifacts)) :
    Serves out s operation := by
  obtain ⟨file, hfile, ⟨bytes, rfl⟩ | rfl⟩ := of_mem_writing h
  · exact .draft (mem_outputNames_of_artifactFiles hfile) bytes
  · exact .deliver (mem_outputNames_of_artifactFiles hfile)

/-- Nothing is taken away. -/
theorem Serves.removes (h : Serves out s operation) : operation.removes = false := by
  cases h <;> rfl

/-- **No draft of a source is a link**, nor does one stand on the way to it. -/
def Unlinked (files : Entry) (out : Path) (source : Source) : Prop :=
  ∀ draft ∈ source.drafts out, Path.Plain files draft

instance (files : Entry) (out : Path) (source : Source) : Decidable (Unlinked files out source) :=
  inferInstanceAs (Decidable (∀ _ ∈ _, _))

theorem Unlinked.draft (h : Unlinked files out s) (hs : s.Regular) (hn : n ∈ s.outputNames) :
    Path.Plain files (s.directory out ++ [draftName n]) :=
  h _ ((Source.mem_drafts hs).2 ⟨n, hn, rfl⟩)

theorem Unlinked.directory (h : Unlinked files out s) (hs : s.Regular) :
    Path.Plain files (s.directory out) := by
  have hn : s.name ++ moduleSuffix ∈ s.outputNames := s.moduleName_mem
  exact (h.draft hs hn).of_isPrefix (List.prefix_append _ _)

/-- In ready places no draft is a link. -/
theorem Ready.unlinked (h : Ready files out s) (hs : s.Regular)
    (hout : files.see? out = some .directory) : Unlinked files out s := by
  intro draft hd q hq target hl
  obtain ⟨n, hn, rfl⟩ := (Source.mem_drafts hs).1 hd
  rcases List.prefix_concat_iff.1 hq with rfl | hq
  · have hw := h.drafts _ hd
    rw [hl] at hw
    exact hw
  · exact (h.free hout).plain q hq target hl

/-- **One operation for a source** touches its places. -/
theorem Serves.touches (h : Serves out s operation) (hs : s.Regular)
    (hlinks : Unlinked disk.root out s) (hd : operation.Direct disk.root)
    (ha : operation.apply now disk.root = .ok root) :
    Touches out [s] disk.root.see? root.see? := by
  intro q
  obtain ⟨hpossible, hsee⟩ := Operation.of_apply hd ha
  rw [hsee]
  by_cases hq : q ∈ operation.places
  · refine .inr ⟨s, List.mem_singleton_self s, ?_⟩
    cases h with
    | enter hway =>
      cases List.mem_singleton.1 hq
      exact .inl ⟨hway, Function.update_self ..⟩
    | @draft n hn bytes =>
      cases List.mem_singleton.1 hq
      refine .inr ⟨.inr ((Source.mem_drafts hs).2 ⟨n, hn, rfl⟩), ?_⟩
      rw [Operation.effect, Function.update_self]
      trivial
    | @deliver n hn =>
      right
      rw [Operation.effect, Function.update_apply, Function.update_apply]
      have hplace : q = s.directory out ++ [n] ∨ q = s.directory out ++ [draftName n] := by
        rcases List.mem_cons.1 hq with hq | hq
        · exact .inr hq
        · exact .inl (List.mem_singleton.1 hq)
      refine ⟨hplace.imp (fun he => (Source.mem_outputs hs).2 ⟨n, hn, he⟩)
        fun he => (Source.mem_drafts hs).2 ⟨n, hn, he⟩, ?_⟩
      split
      · -- what is put in place is neither a directory nor a link
        have hplain := hlinks.draft hs hn _ List.prefix_rfl
        rcases hdraft : disk.root.see? (s.directory out ++ [draftName n]) with _ | _ | target | _
        · trivial
        · trivial
        · exact absurd hdraft (hplain target)
        · exact absurd hdraft hpossible.1.2.2
      · next hne =>
        rw [if_pos (hplace.resolve_left hne)]
        trivial
  · exact .inl (Operation.effect_of_not_mem now _ hq)

/-- An operation for one of some sources. -/
def ServesAny (out : Path) (todo : List Source) (operation : Operation) : Prop :=
  ∃ t ∈ todo, Serves out t operation

/-- **Operations for sources whose drafts are no links** touch the places of these sources, and bring
no link. -/
theorem Touches.of_undergoes (hu : disk.Undergoes operations disk')
    (hserves : ∀ operation ∈ operations, ServesAny out todo operation)
    (hregular : ∀ t ∈ todo, t.Regular) (hlinks : ∀ t ∈ todo, Unlinked disk.root out t) :
    Touches out todo disk.root.see? disk'.root.see? := by
  induction hu with
  | nil => exact .refl _ _ _
  | cons hd ha _ ih =>
    obtain ⟨⟨t, ht, hfirst⟩, hrest⟩ := List.forall_mem_cons.1 hserves
    have htouch : Touches out todo _ _ :=
      .mono (hfirst.touches (hregular t ht) (hlinks t ht) hd ha) fun u hu =>
        List.mem_singleton.1 hu ▸ ht
    exact htouch.trans (ih hrest fun u hu draft hdraft => htouch.plain (hlinks u hu draft hdraft))

/-- **The way to a directory stays free** while sources are worked on that keep clear of it. -/
theorem free_of_undergoes (hu : disk.Undergoes operations disk')
    (hserves : ∀ operation ∈ operations, ServesAny out todo operation)
    (hregular : ∀ t ∈ todo, t.Regular) (hclear : ∀ t ∈ todo, Clear out t s)
    (hfree : Path.Free disk.root (s.directory out)) : Path.Free disk'.root (s.directory out) := by
  induction hu with
  | nil => exact hfree
  | cons hd ha _ ih =>
    obtain ⟨⟨t, ht, hfirst⟩, hrest⟩ := List.forall_mem_cons.1 hserves
    refine ih hrest fun way hway => ?_
    have hnot {n : Str} (hn : n ∈ t.outputNames) :
        way ≠ t.directory out ++ [n] ∧ way ≠ t.directory out ++ [draftName n] := by
      constructor
      · rintro rfl
        exact ((hclear t ht).outputs _ ((Source.mem_outputs (hregular t ht)).2 ⟨n, hn, rfl⟩)).2 hway
      · rintro rfl
        exact ((hclear t ht).drafts _ ((Source.mem_drafts (hregular t ht)).2 ⟨n, hn, rfl⟩)).2 hway
    rw [Disk.after, (Operation.of_apply hd ha).2]
    cases hfirst with
    | enter _ =>
      rw [Operation.effect, Function.update_apply]
      split
      · exact .inr rfl
      · exact hfree way hway
    | draft hn bytes =>
      rw [Operation.effect, Function.update_of_ne (hnot hn).2]
      exact hfree way hway
    | deliver hn =>
      rw [Operation.effect, Function.update_of_ne (hnot hn).1, Function.update_of_ne (hnot hn).2]
      exact hfree way hway

end Build
end TemplateBindings
