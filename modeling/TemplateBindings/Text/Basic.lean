/-!
# Text

Sources, stylesheets and messages are all `Text`: a list of characters, so that every scan in this
library is a recursion on the list. This file holds what the scans share: taking a text off the
front of another, cutting at the first occurrence of a character or a text, cutting into pieces, and
the order of texts by the numbers of their characters. What names need of it is said for lists of
anything that is numbered, because a name may hold more than characters (`TemplateBindings.Str`).
-/

namespace TemplateBindings

/-- **Text**: characters in reading order. -/
abbrev Text := List Char

/-- Things that are told apart by their numbers. -/
class Numbered (α : Type) where
  /-- The number of a thing. -/
  number : α → Nat
  /-- Different things have different numbers. -/
  number_injective : ∀ a b, number a = number b → a = b

/-- Characters have the numbers of Unicode. -/
instance : Numbered Char where
  number := Char.toNat
  number_injective _ _ h := Char.ext (UInt32.toNat_inj.1 h)

namespace Text

variable {α : Type}

/-! ### Fronts and cuts -/

section Fronts

variable [DecidableEq α]

/-- What follows `front` in a text that starts with it. -/
def after? : (front : List α) → List α → Option (List α)
  | [], s => some s
  | _ :: _, [] => none
  | p :: ps, c :: cs => if p = c then after? ps cs else none

@[simp] theorem after?_nil (s : List α) : after? [] s = some s := by
  cases s <;> rfl

/-- A front is found where it was put. -/
@[simp] theorem after?_append (p s : List α) : after? p (p ++ s) = some s := by
  induction p with
  | nil => simp
  | cons c p ih => simp [after?, ih]

/-- What `after?` leaves is the text without its front. -/
theorem eq_append_of_after? {p s r : List α} (h : after? p s = some r) : s = p ++ r := by
  induction p generalizing s with
  | nil => simp_all
  | cons c p ih =>
    cases s with
    | nil => simp [after?] at h
    | cons d s =>
      simp only [after?] at h
      split at h
      · next hc => rw [hc, List.cons_append, ← ih h]
      · simp at h

/-- Whether a text starts with `front`. -/
def startsWith (front s : List α) : Bool := (after? front s).isSome

end Fronts

/-- The parts before and after the first occurrence of a character. -/
def cutAt (stop : Char) : Text → Option (Text × Text)
  | [] => none
  | c :: cs =>
    if c = stop then some ([], cs)
    else (cutAt stop cs).map fun r => (c :: r.1, r.2)

/-- The parts before and after the first place where `stop?` finds something and says what follows
it. -/
def cutWhere (stop? : Text → Option Text) : Text → Option (Text × Text)
  | [] => none
  | c :: cs =>
    match stop? (c :: cs) with
    | some rest => some ([], rest)
    | none => (cutWhere stop? cs).map fun r => (c :: r.1, r.2)

/-- The parts before and after the first occurrence of a text that is not empty. -/
def cutAtText (needle : Text) : Text → Option (Text × Text) := cutWhere (after? needle)

/-- What follows a cut is part of the text that was cut. -/
theorem length_of_cutAt {stop : Char} {s before rest : Text}
    (h : cutAt stop s = some (before, rest)) : before.length + rest.length + 1 = s.length := by
  induction s generalizing before with
  | nil => simp [cutAt] at h
  | cons c s ih =>
    simp only [cutAt] at h
    split at h
    · simp only [Option.some.injEq, Prod.mk.injEq] at h
      simp [← h.1, ← h.2]
    · obtain ⟨⟨b, r⟩, hb, he⟩ := Option.map_eq_some_iff.1 h
      simp only [Prod.mk.injEq] at he
      obtain ⟨rfl, rfl⟩ := he
      have := ih hb
      simp only [List.length_cons]
      omega

/-- What follows a cut is shorter than the text, if that holds of what `stop?` finds. -/
theorem length_of_cutWhere {stop? : Text → Option Text}
    (hstop : ∀ {s rest}, stop? s = some rest → rest.length < s.length) {s before rest : Text}
    (h : cutWhere stop? s = some (before, rest)) : rest.length < s.length := by
  induction s generalizing before with
  | nil => simp [cutWhere] at h
  | cons c s ih =>
    simp only [cutWhere] at h
    split at h
    · next r hr =>
      simp only [Option.some.injEq, Prod.mk.injEq] at h
      exact h.2 ▸ hstop hr
    · obtain ⟨⟨b, r⟩, hb, he⟩ := Option.map_eq_some_iff.1 h
      simp only [Prod.mk.injEq] at he
      obtain ⟨rfl, rfl⟩ := he
      exact Nat.lt_succ_of_lt (ih hb)

/-! ### Pieces -/

/-- The pieces between the occurrences of `sep`, one more than there are occurrences. -/
def pieces [DecidableEq α] (sep : α) : List α → List (List α)
  | [] => [[]]
  | c :: cs => if c = sep then [] :: pieces sep cs else (pieces sep cs).modifyHead (c :: ·)

/-- A text has at least one piece. -/
theorem pieces_ne_nil [DecidableEq α] (sep : α) (s : List α) : pieces sep s ≠ [] := by
  cases s with
  | nil => simp [pieces]
  | cons c cs =>
    simp only [pieces]
    split
    · simp
    · cases h : pieces sep cs with
      | nil => exact absurd h (pieces_ne_nil sep cs)
      | cons => simp

/-- Texts joined with `sep` between neighbours. -/
def joined (sep : List α) : List (List α) → List α
  | [] => []
  | [s] => s
  | s :: rest => s ++ sep ++ joined sep rest

/-! ### Order -/

section Order

variable {β : Type} [DecidableEq α] [Numbered α]

/-- **The order of texts**: by the number of the first character in which they differ, a text before
its continuations. -/
def le : List α → List α → Bool
  | [], _ => true
  | _ :: _, [] => false
  | a :: as, b :: bs => if a = b then le as bs else Numbered.number a < Numbered.number b

@[simp] theorem le_refl (s : List α) : le s s = true := by
  induction s with
  | nil => rfl
  | cons c s ih => simp [le, ih]

/-- Whether the first text stands strictly before the second. -/
def lt (s t : List α) : Bool := !le t s

/-- A thing put among others, in front of the first that its label does not stand behind. -/
def insertBy (label : β → List α) (x : β) : List β → List β
  | [] => [x]
  | y :: rest => if le (label x) (label y) then x :: y :: rest else y :: insertBy label x rest

/-- **Things in the order of their labels**; those with one label stay in their order. -/
def orderedBy (label : β → List α) (xs : List β) : List β := xs.foldr (insertBy label) []

/-- The texts in order. -/
def sorted (texts : List (List α)) : List (List α) := orderedBy id texts

end Order

/-! ### Occurrences -/

/-- The members of a list without those that occurred before. -/
def distinct [DecidableEq α] (xs : List α) : List α := xs.eraseDups

/-- The ASCII letters. -/
def isAsciiLetter (c : Char) : Bool :=
  ('a' ≤ c && c ≤ 'z') || ('A' ≤ c && c ≤ 'Z')

/-- The ASCII digits. -/
def isAsciiDigit (c : Char) : Bool := '0' ≤ c && c ≤ '9'

/-- The value of a hexadecimal digit. -/
def hexDigit? (c : Char) : Option Nat :=
  if isAsciiDigit c then some (c.toNat - 48)
  else if 'a' ≤ c && c ≤ 'f' then some (c.toNat - 87)
  else if 'A' ≤ c && c ≤ 'F' then some (c.toNat - 55)
  else none

/-- The number that hexadecimal digits write; other characters are passed over. -/
def hexValue (digits : Text) : Nat :=
  (digits.filterMap hexDigit?).foldl (fun n d => 16 * n + d) 0

/-- The number that decimal digits write. -/
def decimalValue (digits : Text) : Nat :=
  digits.foldl (fun n c => 10 * n + (c.toNat - 48)) 0

end Text
end TemplateBindings
