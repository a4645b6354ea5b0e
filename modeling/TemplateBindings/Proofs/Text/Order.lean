import TemplateBindings.Text.Basic

/-!
# The order of texts

The order of texts is a linear order, so that texts in order are known by which texts they are
(`TemplateBindings.Text.sorted_eq_of_perm`), and so are things in the order of labels that tell them
apart (`TemplateBindings.Text.orderedBy_eq_of_perm`).
-/

namespace TemplateBindings
namespace Text

variable {α β : Type} [DecidableEq α] [Numbered α] {s t u : List α}

theorem le_total (s t : List α) : (le s t || le t s) = true := by
  induction s generalizing t with
  | nil => rw [le, Bool.true_or]
  | cons a s ih =>
    cases t with
    | nil => simp [le]
    | cons b t =>
      rw [le, le]
      by_cases h : a = b
      · rw [if_pos h, if_pos h.symm]
        exact ih t
      · rw [if_neg h, if_neg (Ne.symm h)]
        have hne : Numbered.number a ≠ Numbered.number b := fun he =>
          h (Numbered.number_injective a b he)
        rw [Bool.or_eq_true, decide_eq_true_iff, decide_eq_true_iff]
        omega

theorem le_antisymm (h : le s t = true) (h' : le t s = true) : s = t := by
  induction s generalizing t with
  | nil =>
    cases t with
    | nil => rfl
    | cons b t => cases h'
  | cons a s ih =>
    cases t with
    | nil => cases h
    | cons b t =>
      rw [le] at h h'
      by_cases he : a = b
      · rw [if_pos he] at h
        rw [if_pos he.symm] at h'
        rw [he, ih h h']
      · rw [if_neg he, decide_eq_true_iff] at h
        rw [if_neg (Ne.symm he), decide_eq_true_iff] at h'
        omega

theorem le_trans (h : le s t = true) (h' : le t u = true) : le s u = true := by
  induction s generalizing t u with
  | nil => rw [le]
  | cons a s ih =>
    cases t with
    | nil => cases h
    | cons b t =>
      cases u with
      | nil => cases h'
      | cons c u =>
        rw [le] at h h' ⊢
        by_cases hab : a = b
        · subst hab
          rw [if_pos rfl] at h
          by_cases hbc : a = c
          · rw [if_pos hbc] at h' ⊢
            exact ih h h'
          · rw [if_neg hbc] at h' ⊢
            exact h'
        · rw [if_neg hab, decide_eq_true_iff] at h
          by_cases hbc : b = c
          · subst hbc
            rw [if_neg hab]
            exact decide_eq_true h
          · rw [if_neg hbc, decide_eq_true_iff] at h'
            have hac : a ≠ c := by
              rintro rfl
              omega
            rw [if_neg hac, decide_eq_true_iff]
            omega

/-! ### Putting in order -/

variable {label : β → List α} {x : β} {xs ys : List β}

theorem insertBy_perm (label : β → List α) (x : β) (xs : List β) :
    (insertBy label x xs).Perm (x :: xs) := by
  induction xs with
  | nil => exact .refl _
  | cons y xs ih =>
    rw [insertBy]
    split
    · exact .refl _
    · exact (ih.cons y).trans (.swap x y xs)

/-- Putting things in order keeps them. -/
theorem orderedBy_perm (label : β → List α) (xs : List β) : (orderedBy label xs).Perm xs := by
  induction xs with
  | nil => exact .refl _
  | cons x xs ih => exact (insertBy_perm label x _).trans (ih.cons x)

@[simp] theorem mem_orderedBy : x ∈ orderedBy label xs ↔ x ∈ xs := (orderedBy_perm label xs).mem_iff

theorem pairwise_insertBy (h : xs.Pairwise fun a b => le (label a) (label b) = true) :
    (insertBy label x xs).Pairwise fun a b => le (label a) (label b) = true := by
  induction xs with
  | nil => exact List.pairwise_singleton _ _
  | cons y xs ih =>
    obtain ⟨hy, hxs⟩ := List.pairwise_cons.1 h
    rw [insertBy]
    split
    · next hle =>
      refine List.pairwise_cons.2 ⟨fun z hz => ?_, h⟩
      rcases List.mem_cons.1 hz with rfl | hz
      · exact hle
      · exact le_trans hle (hy z hz)
    · next hle =>
      have hle' : le (label y) (label x) = true := by
        have htotal := le_total (label x) (label y)
        rwa [Bool.eq_false_iff.2 hle, Bool.false_or] at htotal
      refine List.pairwise_cons.2 ⟨fun z hz => ?_, ih hxs⟩
      rcases List.mem_cons.1 ((insertBy_perm label x xs).mem_iff.1 hz) with rfl | hz
      · exact hle'
      · exact hy z hz

/-- Things in the order of their labels are in order. -/
theorem pairwise_orderedBy (label : β → List α) (xs : List β) :
    (orderedBy label xs).Pairwise fun a b => le (label a) (label b) = true := by
  induction xs with
  | nil => exact .nil
  | cons x xs ih => exact pairwise_insertBy ih

/-- **Things in the order of labels that tell them apart** are known by which things they are. -/
theorem orderedBy_eq_of_perm (label : β → List α) (hp : xs.Perm ys)
    (hinj : ∀ a ∈ xs, ∀ b ∈ xs, label a = label b → a = b) :
    orderedBy label xs = orderedBy label ys := by
  have hperm : (orderedBy label xs).Perm (orderedBy label ys) :=
    (orderedBy_perm label xs).trans (hp.trans (orderedBy_perm label ys).symm)
  refine hperm.eq_of_pairwise (fun a b ha hb hab hba => ?_) (pairwise_orderedBy label xs)
    (pairwise_orderedBy label ys)
  exact hinj a (mem_orderedBy.1 ha) b (hp.mem_iff.2 (mem_orderedBy.1 hb)) (le_antisymm hab hba)

@[simp] theorem mem_sorted {texts : List (List α)} : t ∈ sorted texts ↔ t ∈ texts := mem_orderedBy

/-- **Texts in order** are known by which texts they are. -/
theorem sorted_eq_of_perm {xs ys : List (List α)} (hp : xs.Perm ys) : sorted xs = sorted ys :=
  orderedBy_eq_of_perm id hp fun _ _ _ _ h => h

end Text
end TemplateBindings
