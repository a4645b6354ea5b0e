import TemplateBindings.Proofs.Identifier.Collisions
import TemplateBindings.Proofs.Stylesheet.Merged

/-!
# Class names without a constant

Merging keeps the class names whose camel case no earlier one has, and class names are made of ASCII
characters. So a class name is left without a constant just when it collides with an earlier one
(`TemplateBindings.Stylesheet.merge_collisions`), and that can be told from the two texts.
-/

namespace TemplateBindings
namespace Stylesheet

open Identifier

variable {a b : Text} {c : Char}

theorem toNat_of_isNameChar (h : isNameChar c = true) : c.toNat < 128 := by
  simp only [isNameChar, Bool.or_eq_true, beq_iff_eq, isAsciiLetter_iff, isAsciiDigit_iff] at h
  rcases h with ((h | h) | rfl) | rfl
  · omega
  · omega
  · decide
  · decide

/-- **Class names ask for the same constant** just when they collide. -/
theorem camel_eq_camel_iff_of_isNameChar (ha : a.all isNameChar = true)
    (hb : b.all isNameChar = true) : camel a = camel b ↔ Collide a b :=
  camel_eq_camel_iff (fun c hc => toNat_of_isNameChar (List.all_eq_true.1 ha c hc))
    fun c hc => toNat_of_isNameChar (List.all_eq_true.1 hb c hc)

/-- A further class name gets a constant if its camel case is new. -/
theorem merge_concat (names : List Text) (b : Text) :
    merge [(names ++ [b]).map ClassBinding.ofName] =
      if camel b ∈ names.map camel then merge [names.map ClassBinding.ofName]
      else merge [names.map ClassBinding.ofName] ++ [ClassBinding.ofName b] := by
  rw [merge_ofName, merge_ofName, firstsBy_concat]
  split
  · rfl
  · rw [List.map_append, List.map_singleton]

/-- **When camel case collides, and what it costs.** Two texts of characters of class names have the
same camel case if and only if they collide: without their hyphens and in small letters they are the
same, and each letter of it stands directly behind a hyphen in both or in neither.

These are the pairs of class names of which the later one gets no constant. Of two class names the
second is dropped if they collide, and both are kept if not. And behind any class names, however they
are grouped, one more is dropped if it collides with some of them, and is added at the end if it
collides with none. -/
theorem merge_collisions (ha : a.all isNameChar = true) (hb : b.all isNameChar = true) :
    (camel a = camel b ↔ Collide a b) ∧
      (merge [[.ofName a, .ofName b]] = [.ofName a] ↔ Collide a b) ∧
      (merge [[.ofName a, .ofName b]] = [.ofName a, .ofName b] ↔ ¬ Collide a b) ∧
      ∀ (names : List Text) (groups : List (List ClassBinding)),
        (∀ name ∈ names, name.all isNameChar = true) →
        groups.flatten = (names ++ [b]).map ClassBinding.ofName →
        ((∃ earlier ∈ names, Collide earlier b) →
          merge groups = merge [names.map ClassBinding.ofName]) ∧
        ((∀ earlier ∈ names, ¬ Collide earlier b) →
          merge groups = merge [names.map ClassBinding.ofName] ++ [.ofName b]) := by
  have hcamel := camel_eq_camel_iff_of_isNameChar ha hb
  have hpair : merge [[.ofName a, .ofName b]] =
      if camel b = camel a then [.ofName a] else [.ofName a, .ofName b] := by
    have h := merge_concat [a] b
    simp only [List.map_singleton, List.mem_singleton] at h
    exact h
  refine ⟨hcamel, ?_, ?_, fun names groups hnames hgroups => ?_⟩
  · rw [hpair, ← hcamel, eq_comm (a := camel a)]
    split <;> simp_all
  · rw [hpair, ← hcamel, eq_comm (a := camel a)]
    split <;> simp_all
  · have hmerge : merge groups = merge [(names ++ [b]).map ClassBinding.ofName] := by
      rw [merge, hgroups, merge, List.flatten_singleton]
    have hcollides (earlier : Text) (hearlier : earlier ∈ names) :
        camel earlier = camel b ↔ Collide earlier b :=
      camel_eq_camel_iff_of_isNameChar (hnames earlier hearlier) hb
    rw [hmerge, merge_concat]
    constructor
    · rintro ⟨earlier, hearlier, hcollide⟩
      exact if_pos (List.mem_map.2 ⟨earlier, hearlier, (hcollides earlier hearlier).2 hcollide⟩)
    · intro hnone
      refine if_neg fun hmem => ?_
      obtain ⟨earlier, hearlier, he⟩ := List.mem_map.1 hmem
      exact hnone earlier hearlier ((hcollides earlier hearlier).1 he)

/-- A hyphen more, a hyphen before a digit and the case of letters make no difference; the place of a
hyphen before a letter does. -/
theorem merge_collisions_hyphens :
    Collide "nav--Item-2_x".toList "NAV-item2_X".toList ∧
      merge [[.ofName "nav--Item-2_x".toList, .ofName "NAV-item2_X".toList]] =
        [.ofName "nav--Item-2_x".toList] ∧
      ¬ Collide "nav-item".toList "na-vitem".toList := by
  have hcollide := (merge_collisions (show "nav--Item-2_x".toList.all isNameChar = true by decide)
    (show "NAV-item2_X".toList.all isNameChar = true by decide)).1.1 (by decide +kernel)
  refine ⟨hcollide, ?_, fun h => ?_⟩
  · exact (merge_collisions (by decide) (by decide)).2.1.2 hcollide
  · exact absurd ((merge_collisions (show "nav-item".toList.all isNameChar = true by decide)
      (show "na-vitem".toList.all isNameChar = true by decide)).1.2 h) (by decide +kernel)

end Stylesheet
end TemplateBindings
