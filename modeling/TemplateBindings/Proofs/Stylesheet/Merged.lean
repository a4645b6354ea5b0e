import Mathlib.Data.List.Induction
import Mathlib.Data.List.Nodup
import TemplateBindings.Stylesheet.Constants
import TemplateBindings.Proofs.Stylesheet.Constants
import TemplateBindings.Proofs.Text.Distinct

/-!
# Merging the constants of several stylesheets

Merging drops a constant whose class name or whose own name was kept before. The name of a constant is a
function of its class name, so only names matter, and a name that was seen is a name that was kept:
merging keeps the class names whose camel case no earlier one has
(`TemplateBindings.Stylesheet.merge_bindings`), however the class names were grouped before.
-/

namespace TemplateBindings
namespace Stylesheet

open Identifier

variable {α β : Type} [DecidableEq β] {label : α → β} {x : α} {xs ys : List α}
  {name : Text} {names : List Text} {kept group : List ClassBinding} {sheets : List Text}

/-! ### First members -/

/-- **The members of a list whose label no earlier member has**, in their order. -/
def firstsBy (label : α → β) (xs : List α) : List α :=
  (xs.zipIdx.filter fun member =>
    (xs.take member.2).all fun earlier => label earlier ≠ label member.1).map Prod.fst

/-- A further member is kept if its label is new. -/
theorem firstsBy_concat (label : α → β) (xs : List α) (x : α) :
    firstsBy label (xs ++ [x]) =
      if label x ∈ xs.map label then firstsBy label xs else firstsBy label xs ++ [x] := by
  have hearlier (member : α × Nat) (hmember : member ∈ xs.zipIdx) :
      (xs ++ [x]).take member.2 = xs.take member.2 :=
    List.take_append_of_le_length (Nat.le_of_lt (List.snd_lt_of_mem_zipIdx hmember))
  have hlast : ((xs ++ [x]).take xs.length).all (fun earlier => label earlier ≠ label x) =
      decide (label x ∉ xs.map label) := by
    rw [Bool.eq_iff_iff]
    simp [List.all_eq_true]
  rw [firstsBy, List.zipIdx_append, List.filter_append, List.map_append]
  rw [List.filter_congr fun member hmember => by rw [hearlier member hmember]]
  rw [List.zipIdx_singleton, Nat.zero_add, List.filter_cons, hlast, List.filter_nil]
  by_cases hx : label x ∈ xs.map label
  · rw [if_pos hx, if_neg (by simpa using hx), List.map_nil, List.append_nil]
    rfl
  · rw [if_neg hx, if_pos (by simpa using hx), List.map_singleton]
    rfl

theorem mem_of_mem_firstsBy (h : x ∈ firstsBy label xs) : x ∈ xs := by
  obtain ⟨⟨y, i⟩, hmember, rfl⟩ := List.mem_map.1 h
  exact List.fst_mem_of_mem_zipIdx (List.mem_filter.1 hmember).1

/-- **No label is lost.** -/
theorem mem_map_firstsBy {b : β} : b ∈ (firstsBy label xs).map label ↔ b ∈ xs.map label := by
  induction xs using List.reverseRecOn with
  | nil => rfl
  | append_singleton xs x ih =>
    rw [firstsBy_concat]
    split
    · next hx =>
      rw [ih, List.map_append, List.mem_append, List.map_singleton, List.mem_singleton]
      exact ⟨.inl, fun h => h.elim id fun hb => hb ▸ hx⟩
    · rw [List.map_append, List.mem_append, ih, List.map_append, List.mem_append]

theorem firstsBy_eq_nil_iff : firstsBy label xs = [] ↔ xs = [] := by
  simp only [List.eq_nil_iff_forall_not_mem]
  refine ⟨fun h x hx => ?_, fun h x hx => h x (mem_of_mem_firstsBy hx)⟩
  have hlabel : label x ∈ (firstsBy label xs).map label :=
    mem_map_firstsBy.2 (List.mem_map_of_mem hx)
  obtain ⟨first, hfirst, -⟩ := List.mem_map.1 hlabel
  exact h first hfirst

/-- **No label is repeated.** -/
theorem nodup_map_firstsBy (label : α → β) (xs : List α) :
    ((firstsBy label xs).map label).Nodup := by
  induction xs using List.reverseRecOn with
  | nil => exact List.nodup_nil
  | append_singleton xs x ih =>
    rw [firstsBy_concat]
    split
    · exact ih
    · next hx =>
      rw [List.map_append, List.map_singleton, List.nodup_append]
      refine ⟨ih, List.nodup_singleton _, fun b hb c hc hbc => hx ?_⟩
      rw [← List.mem_singleton.1 hc, ← hbc]
      exact mem_map_firstsBy.1 hb

/-- What follows is judged by the labels before it. -/
theorem firstsBy_append_congr (h : firstsBy label xs = firstsBy label ys) (zs : List α) :
    firstsBy label (xs ++ zs) = firstsBy label (ys ++ zs) := by
  induction zs using List.reverseRecOn with
  | nil => rwa [List.append_nil, List.append_nil]
  | append_singleton zs z ih =>
    have hseen : label z ∈ (xs ++ zs).map label ↔ label z ∈ (ys ++ zs).map label := by
      rw [← mem_map_firstsBy, ih, mem_map_firstsBy]
    rw [← List.append_assoc, ← List.append_assoc, firstsBy_concat, firstsBy_concat, ih]
    simp only [hseen]

/-- Dropping repetitions from a part of a list beforehand changes nothing. -/
theorem firstsBy_append_firstsBy (label : α → β) (xs ys : List α) :
    firstsBy label (xs ++ firstsBy label ys) = firstsBy label (xs ++ ys) := by
  induction ys using List.reverseRecOn with
  | nil => rfl
  | append_singleton ys y ih =>
    rw [firstsBy_concat, ← List.append_assoc, firstsBy_concat, ← ih]
    by_cases hy : label y ∈ ys.map label
    · have hseen : label y ∈ (xs ++ ys).map label := by
        rw [List.map_append]
        exact List.mem_append_right _ hy
      rw [if_pos hy, if_pos hseen]
    · have hseen : label y ∈ (xs ++ firstsBy label ys).map label ↔
          label y ∈ (xs ++ ys).map label := by
        rw [List.map_append, List.map_append, List.mem_append, List.mem_append, mem_map_firstsBy]
      rw [if_neg hy, ← List.append_assoc, firstsBy_concat]
      simp only [hseen]

/-- **Dropping repetitions in each part** beforehand changes nothing. -/
theorem firstsBy_flatMap (label : α → β) (parts : List (List α)) :
    firstsBy label (parts.flatMap (firstsBy label)) = firstsBy label parts.flatten := by
  induction parts using List.reverseRecOn with
  | nil => rfl
  | append_singleton parts part ih =>
    rw [List.flatMap_append, List.flatMap_singleton, firstsBy_append_firstsBy,
      firstsBy_append_congr ih, List.flatten_append, List.flatten_singleton]

/-! ### One pass -/

theorem mergeOnto_append (kept group others : List ClassBinding) :
    mergeOnto kept (group ++ others) = mergeOnto (mergeOnto kept group) others := by
  induction group generalizing kept with
  | nil => rfl
  | cons b group ih =>
    rw [List.cons_append, mergeOnto, mergeOnto]
    split <;> exact ih _

/-- A constant clashes with those that are kept just when a class name had its name before. -/
theorem clashes_firstsBy : (ClassBinding.ofName name).clashes
    ((firstsBy camel names).map ClassBinding.ofName) = true ↔ camel name ∈ names.map camel := by
  rw [ClassBinding.clashes, List.any_map, List.any_eq_true, ← mem_map_firstsBy, List.mem_map]
  refine exists_congr fun kept => and_congr_right fun _ => ?_
  rw [Function.comp_apply, Bool.or_eq_true, decide_eq_true_iff, decide_eq_true_iff]
  exact ⟨fun h => h.elim (congrArg camel) id, .inr⟩

/-- **Merging the constants of class names** keeps the class names whose camel case is new. -/
theorem merge_ofName (names : List Text) :
    merge [names.map ClassBinding.ofName] = (firstsBy camel names).map ClassBinding.ofName := by
  rw [merge, List.flatten_singleton]
  induction names using List.reverseRecOn with
  | nil => rfl
  | append_singleton names name ih =>
    rw [List.map_append, mergeOnto_append, ih, List.map_singleton, mergeOnto, mergeOnto, mergeOnto,
      firstsBy_concat]
    simp only [clashes_firstsBy]
    split
    · rfl
    · rw [List.map_append, List.map_singleton]

/-- **Merging stylesheets** that are merged each for itself is merging all class names at once. -/
theorem merge_bindings (sheets : List Text) :
    merge (sheets.map bindings) = merge [(sheets.flatMap classNames).map ClassBinding.ofName] := by
  have hparts : (sheets.map bindings).flatten =
      ((sheets.map classNames).flatMap (firstsBy camel)).map ClassBinding.ofName := by
    rw [← List.flatMap_def, List.flatMap_map, List.map_flatMap]
    exact congrArg (sheets.flatMap ·) (funext fun css => merge_ofName (classNames css))
  rw [merge_ofName, List.flatMap_def, ← firstsBy_flatMap, ← merge_ofName, ← hparts, merge, merge,
    List.flatten_singleton]

end Stylesheet
end TemplateBindings
