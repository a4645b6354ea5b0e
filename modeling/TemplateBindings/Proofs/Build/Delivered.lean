import TemplateBindings.Proofs.Build.Deeds
import TemplateBindings.Proofs.Build.Overlap

/-!
# Where outputs come from

Drafts are put in place by those who wrote them, but two sources may share a draft, and then the one
may put in place what the other wrote. In any case, what comes to stand in the place of an output is
something that was written as its draft (`TemplateBindings.Build.standing_of_undergoes`), and of what
is written as the draft of a module, only the module itself bears a marker
(`TemplateBindings.Build.Deed.bears`): so no other source can bring one there.
-/

namespace TemplateBindings
namespace Build

open Files

variable {disk disk' : Disk} {out way q : Path} {s t : Source} {n : Str} {now : Int}
  {operation : Operation} {operations front back : List Operation} {bytes : List UInt8}
  {made : List (Str × Str)} {file : Str × Str} {html marker : Text} {css : Option Text}
  {artifacts : GeneratedModule.Artifacts} {trace : List (Source × Operation)}
  {result : Except SourceError (List Path)} {before seen : Seen}

/-! ### Drafts come first -/

/-- A file is put in place after its draft was written. -/
theorem draft_of_prefix_writing {source target : Path}
    (h : front ++ .move source target :: back <+: writing way made) :
    ∃ bytes, Operation.write source bytes ∈ front := by
  induction made generalizing front with
  | nil => exact absurd (List.prefix_nil.1 h) (by simp)
  | cons file made ih =>
    rcases hc : file.2.encode with fault | bytes
    · rw [writing_cons_of_error hc] at h
      rcases front with _ | ⟨first, front⟩
      · obtain ⟨he, -⟩ := List.cons_prefix_cons.1 h
        cases he
      · obtain ⟨-, h⟩ := List.cons_prefix_cons.1 h
        exact absurd (List.prefix_nil.1 h) (by simp)
    · rw [writing_cons_of_ok hc, replacing, List.cons_append, List.cons_append,
        List.nil_append] at h
      rcases front with _ | ⟨first, _ | ⟨second, front⟩⟩
      · obtain ⟨he, -⟩ := List.cons_prefix_cons.1 h
        cases he
      · rw [List.cons_append, List.nil_append, List.cons_prefix_cons, List.cons_prefix_cons] at h
        obtain ⟨rfl, he, -⟩ := h
        cases he
        exact ⟨bytes, List.mem_cons_self⟩
      · rw [List.cons_append, List.cons_append, List.cons_prefix_cons, List.cons_prefix_cons] at h
        obtain ⟨-, -, h⟩ := h
        obtain ⟨bytes, hmem⟩ := ih h
        exact ⟨bytes, List.mem_cons_of_mem _ (List.mem_cons_of_mem _ hmem)⟩

/-- A deed consists of directories and files. -/
theorem Deed.parts (h : Deed out s marker result operations) :
    ∃ directories writes made, operations = directories ++ writes ∧
      Making (s.directory out) directories ∧ writes <+: writing (s.directory out) made ∧
      (made = [] ∨ ∃ html css artifacts,
        GeneratedModule.compile html marker s.name css = .ok artifacts ∧
          made = artifactFiles s.name artifacts ∧
          ((∃ paths, result = .ok paths) → firstFault? made = none)) := by
  cases h with
  | entered hmaking =>
    exact ⟨_, [], [], (List.append_nil _).symm, hmaking, List.prefix_rfl, .inl rfl⟩
  | begun hmaking hcompiled hbegun =>
    exact ⟨_, _, _, rfl, hmaking, hbegun, .inr ⟨_, _, _, hcompiled, rfl, by simp⟩⟩
  | finished hmaking hcompiled hsound =>
    exact ⟨_, _, _, rfl, hmaking, List.prefix_rfl, .inr ⟨_, _, _, hcompiled, rfl, fun _ => hsound⟩⟩

/-- **In a deed a file is put in place after its draft was written.** -/
theorem Deed.draft_before {source target : Path}
    (h : Deed out s marker result (front ++ .move source target :: back)) :
    ∃ bytes, Operation.write source bytes ∈ front := by
  obtain ⟨directories, writes, made, he, hmaking, hbegun, -⟩ := h.parts
  rcases List.append_eq_append_iff.1 he with ⟨tail, rfl, hwrites⟩ | ⟨tail, rfl, hwrites⟩
  · -- then the move would be among the directories, if there are any
    rcases tail with _ | ⟨first, tail⟩
    · rw [List.nil_append] at hwrites
      rw [← hwrites] at hbegun
      rw [List.append_nil] at he
      obtain ⟨bytes, hmem⟩ := @draft_of_prefix_writing _ [] _ _ _ _ hbegun
      cases hmem
    · obtain ⟨rfl, -⟩ := List.cons.inj hwrites
      obtain ⟨way, -, hdir⟩ := hmaking _ (List.mem_append_right _ List.mem_cons_self)
      cases hdir
  · rw [hwrites] at hbegun
    obtain ⟨bytes, hmem⟩ := draft_of_prefix_writing hbegun
    exact ⟨bytes, List.mem_append_right _ hmem⟩

/-- Who writes all of its files puts a module in place. -/
theorem Deed.delivers {paths : List Path} (h : Deed out s marker (.ok paths) operations) :
    ∃ operation ∈ operations,
      operation.landing? = some (s.directory out ++ [s.name ++ moduleSuffix]) := by
  have hlandings := h.landings
  cases h with
  | finished hmaking hcompiled hsound =>
    refine List.mem_filterMap.1 (hlandings ▸ ?_)
    simp [inDirectory, artifactFiles]

/-- Operations in which **each source puts in place only what was written for it**. -/
def Drafted (trace : List (Source × Operation)) : Prop :=
  ∀ front t source target back, trace = front ++ (t, .move source target) :: back →
    ∃ bytes, (t, .write source bytes) ∈ front

theorem Drafted.of_append {more : List (Source × Operation)} (h : Drafted (trace ++ more)) :
    Drafted trace := by
  rintro front t source target back rfl
  exact h front t source target (back ++ more) (by simp)

theorem drafted_of_deeds (h : ∀ m ∈ trace, ∃ marker result,
    Deed out m.1 marker result (Thread.actsOf m.1 trace)) : Drafted trace := by
  rintro front t source target back rfl
  obtain ⟨marker, result, hdeed⟩ := h (t, .move source target) (by simp)
  have hsplit : Thread.actsOf t (front ++ (t, .move source target) :: back) =
      Thread.actsOf t front ++ .move source target :: Thread.actsOf t back := by
    simp [Thread.actsOf]
  rw [hsplit] at hdeed
  obtain ⟨bytes, hmem⟩ := hdeed.draft_before
  obtain ⟨m, hm, he⟩ := List.mem_map.1 hmem
  obtain ⟨hm, ht⟩ := List.mem_filter.1 hm
  refine ⟨bytes, ?_⟩
  rw [← he, ← of_decide_eq_true ht]
  exact hm

/-! ### What stands in a place -/

/-- **A place that was left alone**; a directory may have been made where nothing was. -/
def LeftAlone (before after : Option Sight) : Prop :=
  after = before ∨ before = none ∧ after = some .directory

/-- **The place of an output after some operations**: it was left alone, or there is what was written
as its draft. The draft is not there, or it holds what was written, if anything was. -/
structure Standing (now : Int) (way : Path) (n : Str) (trace : List (Source × Operation))
    (before after : Seen) : Prop where
  /-- What stands in the place. -/
  output : (∀ m ∈ trace, m.2.landing? ≠ some (way ++ [n])) ∧
      LeftAlone (before (way ++ [n])) (after (way ++ [n])) ∨
    ∃ t bytes, (t, .write (way ++ [draftName n]) bytes) ∈ trace ∧
      after (way ++ [n]) = some (.file bytes now)
  /-- What stands in the place of its draft. -/
  draft : (∀ t bytes, (t, .write (way ++ [draftName n]) bytes) ∉ trace) ∨
    after (way ++ [draftName n]) = none ∨ after (way ++ [draftName n]) = some .directory ∨
      ∃ t bytes, (t, .write (way ++ [draftName n]) bytes) ∈ trace ∧
        after (way ++ [draftName n]) = some (.file bytes now)

theorem Standing.nil (now : Int) (way : Path) (n : Str) (seen : Seen) :
    Standing now way n [] seen seen :=
  ⟨.inl ⟨nofun, .inl rfl⟩, .inl fun _ _ => List.not_mem_nil⟩

/-- Where nothing is put in place, the account of what stands there goes on. -/
theorem Standing.output_append (h : Standing now way n trace before seen)
    (hland : operation.landing? ≠ some (way ++ [n])) (t : Source) :
    (∀ m ∈ trace ++ [(t, operation)], m.2.landing? ≠ some (way ++ [n])) ∧
        LeftAlone (before (way ++ [n])) (seen (way ++ [n])) ∨
      ∃ u bytes, (u, .write (way ++ [draftName n]) bytes) ∈ trace ++ [(t, operation)] ∧
        seen (way ++ [n]) = some (.file bytes now) := by
  rcases h.output with ⟨hnone, hleft⟩ | ⟨u, bytes, hmem, he⟩
  · refine .inl ⟨fun m hm => ?_, hleft⟩
    rcases List.mem_append.1 hm with hm | hm
    · exact hnone m hm
    · cases List.mem_singleton.1 hm
      exact hland
  · exact .inr ⟨u, bytes, List.mem_append_left _ hmem, he⟩

/-- Where no draft is written, the account of what stands there goes on. -/
theorem Standing.draft_append (h : Standing now way n trace before seen)
    (hwrite : ∀ bytes, operation ≠ .write (way ++ [draftName n]) bytes) (t : Source) :
    (∀ u bytes, (u, .write (way ++ [draftName n]) bytes) ∉ trace ++ [(t, operation)]) ∨
      seen (way ++ [draftName n]) = none ∨ seen (way ++ [draftName n]) = some .directory ∨
        ∃ u bytes, (u, .write (way ++ [draftName n]) bytes) ∈ trace ++ [(t, operation)] ∧
          seen (way ++ [draftName n]) = some (.file bytes now) := by
  rcases h.draft with hnone | hempty | hdir | ⟨u, bytes, hmem, he⟩
  · refine .inl fun u bytes hmem => ?_
    rcases List.mem_append.1 hmem with hmem | hmem
    · exact hnone u bytes hmem
    · cases List.mem_singleton.1 hmem
      exact hwrite bytes rfl
  · exact .inr (.inl hempty)
  · exact .inr (.inr (.inl hdir))
  · exact .inr (.inr (.inr ⟨u, bytes, List.mem_append_left _ hmem, he⟩))

/-- An operation elsewhere leaves a place as it stands. -/
theorem Standing.elsewhere (h : Standing now way n trace before seen)
    (houtput : operation.effect now seen (way ++ [n]) = seen (way ++ [n]))
    (hdraft : operation.effect now seen (way ++ [draftName n]) = seen (way ++ [draftName n]))
    (hwrite : ∀ bytes, operation ≠ .write (way ++ [draftName n]) bytes)
    (hland : operation.landing? ≠ some (way ++ [n])) (t : Source) :
    Standing now way n (trace ++ [(t, operation)]) before (operation.effect now seen) := by
  refine ⟨?_, ?_⟩
  · rw [houtput]
    exact h.output_append hland t
  · rw [hdraft]
    exact h.draft_append hwrite t

/-- **One operation for a source** keeps account of what stands in a place. -/
theorem Standing.step {root : Entry} (h : Standing now way n trace before root.see?)
    (hn : ∀ m, n ≠ draftName m) (hserves : Serves out t operation)
    (hdrafted : Drafted (trace ++ [(t, operation)])) (hpossible : operation.Possible root) :
    Standing now way n (trace ++ [(t, operation)]) before (operation.effect now root.see?) := by
  have hplace : way ++ [draftName n] ≠ way ++ [n] := fun he => draftName_ne n (concat_inj he).2
  cases hserves with
  | @enter path _ =>
    have hnone : root.see? path = none := hpossible.2
    have hland : (Operation.makeDirectory path).landing? ≠ some (way ++ [n]) := by
      simp [Operation.landing?]
    refine ⟨?_, ?_⟩
    · rw [Operation.effect, Function.update_apply]
      split
      · next hq =>
        subst hq
        -- nothing was there, so that nothing was put there before
        rcases h.output_append hland t with ⟨hlands, hleft⟩ | ⟨u, bytes, -, hfile⟩
        · refine .inl ⟨hlands, ?_⟩
          rcases hleft with hleft | ⟨-, hdir⟩
          · exact .inr ⟨hleft.symm.trans hnone, rfl⟩
          · rw [hnone] at hdir
            cases hdir
        · rw [hnone] at hfile
          cases hfile
      · exact h.output_append hland t
    · rw [Operation.effect, Function.update_apply]
      split
      · exact .inr (.inr (.inl rfl))
      · exact h.draft_append (fun _ he => by cases he) t
  | @draft m hm bytes =>
    by_cases hd : way ++ [draftName n] = t.directory out ++ [draftName m]
    · rw [← hd]
      refine ⟨?_, .inr (.inr (.inr ⟨t, bytes, by simp, Function.update_self ..⟩))⟩
      rw [Operation.effect, Function.update_of_ne hplace.symm]
      exact h.output_append (by simp [Operation.landing?]) t
    · refine h.elsewhere ?_ ?_ (fun bytes' he => hd ?_) (fun he => ?_) t
      · exact Function.update_of_ne (fun he => hn m (concat_inj he).2) ..
      · exact Function.update_of_ne hd ..
      · exact (Operation.write.inj he).1.symm
      · cases he
  | @deliver m hm =>
    by_cases hd : way ++ [n] = t.directory out ++ [m]
    · obtain ⟨rfl, rfl⟩ := concat_inj hd
      obtain ⟨bytes, hmem⟩ := hdrafted trace t _ _ [] rfl
      -- the draft was written, and it is there still, so that it holds what was written
      obtain ⟨u, bytes, hmem, hfile⟩ : ∃ u bytes,
          (u, .write (t.directory out ++ [draftName n]) bytes) ∈ trace ∧
            root.see? (t.directory out ++ [draftName n]) = some (.file bytes now) := by
        rcases h.draft with hnot | hnone | hdir | hfile
        · exact absurd hmem (hnot t bytes)
        · exact absurd hnone hpossible.1.2.1
        · exact absurd hdir hpossible.1.2.2
        · exact hfile
      refine ⟨.inr ⟨u, bytes, List.mem_append_left _ hmem, ?_⟩, .inr (.inl ?_)⟩
      · rw [Operation.effect, Function.update_self, hfile]
      · rw [Operation.effect, Function.update_of_ne hplace, Function.update_self]
    · have hd' : way ++ [draftName n] ≠ t.directory out ++ [draftName m] := fun he =>
        hd (by rw [(concat_inj he).1, draftName_inj (concat_inj he).2])
      have hland : (Operation.move (t.directory out ++ [draftName m])
          (t.directory out ++ [m])).landing? ≠ some (way ++ [n]) := fun he =>
        hd (Option.some.inj he).symm
      refine h.elsewhere ?_ ?_ (fun _ he => by cases he) hland t
      · rw [Operation.effect, Function.update_of_ne hd,
          Function.update_of_ne fun he => hn m (concat_inj he).2]
      · rw [Operation.effect, Function.update_of_ne
          (fun he => Source.output_ne_draft hm n (concat_inj he).2.symm), Function.update_of_ne hd']

/-- **What stands in the place of an output after operations for sources** was there before, or was
written as its draft. -/
theorem standing_of_undergoes (hn : ∀ m, n ≠ draftName m)
    (hu : disk.Undergoes (trace.map Prod.snd) disk')
    (hserves : ∀ m ∈ trace, Serves out m.1 m.2) (hdrafted : Drafted trace) (way : Path) :
    Standing disk.now way n trace disk.root.see? disk'.root.see? := by
  induction trace using List.reverseRecOn generalizing disk' with
  | nil =>
    cases hu
    exact .nil _ _ _ _
  | append_singleton trace m ih =>
    rw [List.map_append] at hu
    obtain ⟨mid, hfront, hlast⟩ := hu.split
    have hmid := ih hfront (fun m hm => hserves m (List.mem_append_left _ hm)) hdrafted.of_append
    cases hlast with
    | cons hdirect happly hrest =>
      cases hrest
      obtain ⟨hpossible, hsee⟩ := Operation.of_apply hdirect happly
      rw [Disk.after, hsee, hfront.now_eq]
      exact hmid.step hn (hserves m (by simp)) hdrafted hpossible

/-! ### What is written as the draft of a module -/

/-- A written draft holds a file. -/
theorem file_of_mem_writing {path : Path} (h : .write path bytes ∈ writing way made) :
    ∃ file ∈ made, path = way ++ [draftName file.1] ∧
      (file.2.encode = .ok bytes ∨ faultOf? file.2 ≠ none) := by
  induction made with
  | nil => cases h
  | cons file made ih =>
    rcases hc : file.2.encode with fault | bytes'
    · rw [writing_cons_of_error hc] at h
      cases List.mem_singleton.1 h
      refine ⟨file, List.mem_cons_self, rfl, .inr ?_⟩
      rw [faultOf?_eq_some.2 hc]
      exact nofun
    · rw [writing_cons_of_ok hc, replacing, List.cons_append, List.cons_append, List.nil_append] at h
      rcases List.mem_cons.1 h with h | h
      · cases h
        exact ⟨file, List.mem_cons_self, rfl, .inl hc⟩
      · rcases List.mem_cons.1 h with h | h
        · cases h
        · obtain ⟨other, hmem, hrest⟩ := ih h
          exact ⟨other, List.mem_cons_of_mem _ hmem, hrest⟩

/-- **What may stand in the place of a module**: of the files of a source, its own module, and class
constants. -/
theorem artifactFiles_module (h : GeneratedModule.compile html marker t.name css = .ok artifacts)
    (hfile : file ∈ artifactFiles t.name artifacts) (hname : file.1 = s.name ++ moduleSuffix) :
    s.name = t.name ∧ file.2 = artifacts.module ∨
      ∃ text : Text, file.2 = Str.ofText text ∧ Unmarked (Utf8.encode text) := by
  rw [artifactFiles, List.append_assoc, List.mem_append, List.mem_append] at hfile
  rcases hfile with hfile | hfile | hfile
  · obtain ⟨text, htext, rfl⟩ := Option.map_eq_some_iff.1 (Option.mem_toList.1 hfile)
    refine .inr ⟨text, rfl, ?_⟩
    rw [GeneratedModule.compile] at h
    split at h
    · cases h
      exact unmarked_classModule htext
    · rw [GeneratedModule.ofFragment] at h
      split at h
      · cases h
      · rw [← Except.ok.inj h] at htext
        exact unmarked_classModule htext
  · obtain ⟨text, -, rfl⟩ := Option.map_eq_some_iff.1 (Option.mem_toList.1 hfile)
    exact absurd hname.symm (append_moduleSuffix_ne _ _)
  · rw [List.mem_singleton.1 hfile] at hname ⊢
    exact .inl ⟨(List.append_cancel_right hname).symm, rfl⟩

/-- Two markups with one module are the same. -/
theorem Source.eq_of_directory (hkind : s.kind = .markup) (htkind : t.kind = .markup)
    (hdir : s.directory out = t.directory out) (hname : s.name = t.name) : s = t := by
  obtain ⟨place, name, kind⟩ := s
  obtain ⟨place', name', kind'⟩ := t
  cases hkind
  cases htkind
  cases hname
  cases List.append_cancel_left hdir
  rfl

/-- **What a deed writes as the draft of a module** bears no marker, if it is for another source; and
if it is for the source itself and all is written, it is the module, with its marker. -/
theorem Deed.bears (h : Deed out t marker result operations) (hkind : s.kind = .markup)
    (htkind : t.kind = .markup)
    (hw : .write (s.directory out ++ [draftName (s.name ++ moduleSuffix)]) bytes ∈ operations) :
    Unmarked bytes ∨
      t = s ∧ ((∃ paths, result = .ok paths) → '\n' ∉ marker → '\r' ∉ marker →
        markerIn? bytes = some marker) := by
  obtain ⟨directories, writes, made, rfl, hmaking, hbegun, hmade⟩ := h.parts
  rcases List.mem_append.1 hw with hw | hw
  · obtain ⟨_, -, hdir⟩ := hmaking _ hw
    cases hdir
  obtain ⟨file, hfile, hpath, hbytes⟩ := file_of_mem_writing (hbegun.subset hw)
  rcases hmade with rfl | ⟨html, css, artifacts, hcompiled, rfl, hsound⟩
  · cases hfile
  obtain ⟨hdir, hname⟩ := concat_inj hpath
  rcases artifactFiles_module hcompiled hfile (draftName_inj hname).symm with
    ⟨hname, hmodule⟩ | ⟨text, htext, hunmarked⟩
  · refine .inr ⟨(Source.eq_of_directory hkind htkind hdir hname).symm, fun hok hn hr => ?_⟩
    rcases hbytes with hbytes | hfault
    · rw [hmodule] at hbytes
      exact markerIn?_compile hn hr hcompiled hbytes
    · exact absurd (List.findSome?_eq_none_iff.1 (hsound hok) file hfile) hfault
  · left
    rcases hbytes with hbytes | hfault
    · rw [htext, Str.encode_ofText] at hbytes
      cases hbytes
      exact hunmarked
    · rw [htext, faultOf?_ofText] at hfault
      exact absurd rfl hfault

end Build
end TemplateBindings
