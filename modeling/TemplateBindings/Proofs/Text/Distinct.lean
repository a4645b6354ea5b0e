import Mathlib.Data.List.Induction
import TemplateBindings.Text.Basic

/-!
# Members without repetitions

A list without the members that occurred before: it has the members of the list, each once
(`TemplateBindings.Text.nodup_distinct`), in the order in which they first occur
(`TemplateBindings.Text.pairwise_findIdx_distinct`), and grows at its end as the list does
(`TemplateBindings.Text.distinct_concat`).
-/

namespace TemplateBindings
namespace Text

variable {α : Type} [DecidableEq α] {x : α} {xs : List α}

theorem mem_distinct : x ∈ distinct xs ↔ x ∈ xs := List.mem_eraseDups

theorem distinct_concat (xs : List α) (x : α) :
    distinct (xs ++ [x]) = if x ∈ xs then distinct xs else distinct xs ++ [x] := by
  rw [distinct, List.eraseDups_append, List.removeAll]
  by_cases h : x ∈ xs
  · rw [List.filter_cons_of_neg (by simpa using h), if_pos h]
    exact List.append_nil _
  · rw [List.filter_cons_of_pos (by simpa using h), if_neg h]
    rfl

theorem nodup_distinct : (xs : List α) → (distinct xs).Nodup
  | [] => List.nodup_nil
  | x :: xs => by
    rw [distinct, List.eraseDups_cons, List.nodup_cons]
    refine ⟨fun h => ?_, nodup_distinct (xs.filter fun y => !y == x)⟩
    simpa using List.mem_filter.1 (List.mem_eraseDups.1 h)
termination_by xs => xs.length
decreasing_by exact Nat.lt_succ_of_le (List.length_filter_le ..)

/-- Looking for the first member of a kind, repetitions do not matter. -/
theorem find?_distinct (p : α → Bool) (xs : List α) : (distinct xs).find? p = xs.find? p := by
  induction xs using List.reverseRecOn with
  | nil => rfl
  | append_singleton xs x ih =>
    rw [distinct_concat, List.find?_append]
    split
    · next hx =>
      rw [ih]
      cases hfind : xs.find? p with
      | some y => rfl
      | none => simp [List.find?_eq_none.1 hfind x hx]
    · rw [List.find?_append, ih]

/-- A member has its first place among what comes before it. -/
theorem findIdx_append_of_mem (h : x ∈ xs) (more : List α) :
    (xs ++ more).findIdx (· = x) = xs.findIdx (· = x) := by
  rw [List.findIdx_append, if_pos (List.findIdx_lt_length_of_exists ⟨x, h, by simp⟩)]

/-- **The members stand in the order of their first occurrences.** -/
theorem pairwise_findIdx_distinct (xs : List α) :
    (distinct xs).Pairwise fun x y => xs.findIdx (· = x) < xs.findIdx (· = y) := by
  induction xs using List.reverseRecOn with
  | nil => exact .nil
  | append_singleton xs x ih =>
    have hbefore : (distinct xs).Pairwise fun y z =>
        (xs ++ [x]).findIdx (· = y) < (xs ++ [x]).findIdx (· = z) := by
      refine ih.imp_of_mem fun hy hz hlt => ?_
      rwa [findIdx_append_of_mem (mem_distinct.1 hy), findIdx_append_of_mem (mem_distinct.1 hz)]
    rw [distinct_concat]
    split
    · exact hbefore
    · next hx =>
      refine List.pairwise_append.2 ⟨hbefore, List.pairwise_singleton _ x, fun y hy z hz => ?_⟩
      have hlast : xs.findIdx (· = x) = xs.length :=
        List.findIdx_eq_length.2 fun w hw => by simpa using fun he : w = x => hx (he ▸ hw)
      rw [List.mem_singleton.1 hz, findIdx_append_of_mem (mem_distinct.1 hy), List.findIdx_append,
        hlast, if_neg (Nat.lt_irrefl _)]
      exact Nat.lt_add_left _
        (List.findIdx_lt_length_of_exists ⟨y, mem_distinct.1 hy, by simp⟩)

end Text
end TemplateBindings
