/-!
# Batches

The sources of a run are worked on in batches, the last sources first and each batch in its own
order. Which batches there are depends on their size; that every source is in one of them does not
(`flatten_blocks`, `perm_batches`).
-/

namespace TemplateBindings
namespace Build

/-- A list cut into blocks of one more than `more` members; the last block may be shorter. -/
def blocks {α : Type} (more : Nat) : List α → List (List α)
  | [] => []
  | x :: rest => (x :: rest.take more) :: blocks more (rest.drop more)
  termination_by xs => xs.length

/-- Cutting into blocks loses nothing. -/
theorem flatten_blocks {α : Type} (more : Nat) (xs : List α) : (blocks more xs).flatten = xs := by
  fun_induction blocks more xs with
  | case1 => rfl
  | case2 x rest ih => simp [ih]

/-- How many members of a batch there are besides the first; a batch is never empty. -/
def moreWorkers (workers : Int) : Nat := (workers - 1).toNat

/-- **The batches of a list**: the last `workers` members, in their order, then those before them,
and so on. -/
def batches {α : Type} (workers : Int) (xs : List α) : List (List α) :=
  (blocks (moreWorkers workers) xs.reverse).map List.reverse

/-- Turning every part of a list around keeps its members. -/
theorem perm_flatten_map_reverse {α : Type} (parts : List (List α)) :
    (parts.map List.reverse).flatten.Perm parts.flatten := by
  induction parts with
  | nil => exact .refl _
  | cons part parts ih =>
    rw [List.map_cons, List.flatten_cons, List.flatten_cons]
    exact (List.reverse_perm part).append ih

/-- Batches keep the members of the list. -/
theorem perm_batches {α : Type} (workers : Int) (xs : List α) :
    (batches workers xs).flatten.Perm xs := by
  refine (perm_flatten_map_reverse _).trans ?_
  rw [flatten_blocks]
  exact List.reverse_perm xs

end Build
end TemplateBindings
