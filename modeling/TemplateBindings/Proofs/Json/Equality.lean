import TemplateBindings.Json.Basic

/-!
# Equality of JSON values

Two values can be compared part by part (`TemplateBindings.Json.same_iff`), so that what a text holds
can be computed and compared with a value.
-/

namespace TemplateBindings
namespace Json

mutual

/-- Whether two values are the same. -/
def same : Json → Json → Bool
  | null, null => true
  | bool a, bool b => a == b
  | integer a, integer b => a == b
  | real a, real b => a == b
  | text a, text b => a == b
  | array a, array b => sameItems a b
  | object a, object b => sameMembers a b
  | _, _ => false

/-- Whether two lists of values are the same. -/
def sameItems : List Json → List Json → Bool
  | [], [] => true
  | a :: as, b :: bs => same a b && sameItems as bs
  | _, _ => false

/-- Whether two lists of members are the same. -/
def sameMembers : List (Symbols × Json) → List (Symbols × Json) → Bool
  | [], [] => true
  | (key, a) :: as, (key', b) :: bs => key == key' && same a b && sameMembers as bs
  | _, _ => false

end

mutual

theorem same_iff : (a b : Json) → (same a b = true ↔ a = b)
  | .array a, .array b => by rw [same, sameItems_iff a b, array.injEq]
  | .object a, .object b => by rw [same, sameMembers_iff a b, object.injEq]
  | .null, b => by cases b <;> simp [same]
  | .bool a, b => by cases b <;> simp [same]
  | .integer a, b => by cases b <;> simp [same]
  | .real a, b => by cases b <;> simp [same]
  | .text a, b => by cases b <;> simp [same]
  | .array a, .null => by simp [same]
  | .array a, .bool _ => by simp [same]
  | .array a, .integer _ => by simp [same]
  | .array a, .real _ => by simp [same]
  | .array a, .text _ => by simp [same]
  | .array a, .object _ => by simp [same]
  | .object a, .null => by simp [same]
  | .object a, .bool _ => by simp [same]
  | .object a, .integer _ => by simp [same]
  | .object a, .real _ => by simp [same]
  | .object a, .text _ => by simp [same]
  | .object a, .array _ => by simp [same]

theorem sameItems_iff : (a b : List Json) → (sameItems a b = true ↔ a = b)
  | [], b => by cases b <;> simp [sameItems]
  | a :: as, [] => by simp [sameItems]
  | a :: as, b :: bs => by
    rw [sameItems, Bool.and_eq_true, same_iff a b, sameItems_iff as bs, List.cons.injEq]

theorem sameMembers_iff : (a b : List (Symbols × Json)) → (sameMembers a b = true ↔ a = b)
  | [], b => by cases b <;> simp [sameMembers]
  | m :: as, [] => by simp [sameMembers]
  | (key, a) :: as, (key', b) :: bs => by
    rw [sameMembers, Bool.and_eq_true, Bool.and_eq_true, beq_iff_eq, same_iff a b,
      sameMembers_iff as bs, List.cons.injEq, Prod.mk.injEq]

end

instance : DecidableEq Json := fun a b => decidable_of_iff _ (same_iff a b)

end Json
end TemplateBindings
