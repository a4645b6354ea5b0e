import Mathlib.Data.List.Induction
import Mathlib.Tactic.Ring
import TemplateBindings.Proofs.Text.Integer
import TemplateBindings.Proofs.Text.Order

/-!
# Numerals of one width

Numbers that are filled up with zeros to one width are ordered as their texts are
(`TemplateBindings.Text.Numeral.le_iff`). So a text that begins with such a number is ordered by the
number first, and by what follows it among texts with the same number
(`TemplateBindings.Text.Numeral.le_append_iff`).
-/

namespace TemplateBindings
namespace Text

variable {s t u v : Text} {c d : Char} {width m n : Nat}

/-- **A numeral of a width**: so many decimal digits, and the number that they write. -/
structure Numeral (width n : Nat) (s : Text) : Prop where
  /-- There are so many digits. -/
  length_eq : s.length = width
  /-- There is nothing else. -/
  digits : ∀ c ∈ s, c.isDigit = true
  /-- They write the number. -/
  value : decimalValue s = n

/-! ### Digits in front -/

theorem decimalValue_append (s t : Text) :
    decimalValue (s ++ t) = decimalValue s * 10 ^ t.length + decimalValue t := by
  induction t using List.reverseRecOn with
  | nil => simp [decimalValue]
  | append_singleton t c ih =>
    rw [← List.append_assoc, decimalValue_concat, decimalValue_concat, ih, List.length_append,
      List.length_singleton, Nat.pow_succ]
    ring

theorem decimalValue_cons (c : Char) (s : Text) :
    decimalValue (c :: s) = (c.toNat - 48) * 10 ^ s.length + decimalValue s := by
  have happend := decimalValue_append [c] s
  rwa [List.singleton_append, show decimalValue [c] = c.toNat - 48 from Nat.zero_add _] at happend

theorem decimalValue_replicate_zero (width : Nat) : decimalValue (List.replicate width '0') = 0 := by
  induction width with
  | zero => rfl
  | succ width ih =>
    rw [List.replicate_succ, decimalValue_cons, ih]
    exact Nat.zero_mul _

theorem toNat_of_isDigit (h : c.isDigit = true) : 48 ≤ c.toNat ∧ c.toNat ≤ 57 := by
  simp only [Char.isDigit, Bool.and_eq_true, decide_eq_true_eq, UInt32.le_iff_toNat_le] at h
  exact h

theorem decimalValue_lt (h : ∀ c ∈ s, c.isDigit = true) : decimalValue s < 10 ^ s.length := by
  induction s with
  | nil => exact Nat.one_pos
  | cons c s ih =>
    obtain ⟨hc, hs⟩ := List.forall_mem_cons.1 h
    have hdigit := toNat_of_isDigit hc
    have hrest := ih hs
    have hscaled : (c.toNat - 48) * 10 ^ s.length ≤ 9 * 10 ^ s.length :=
      Nat.mul_le_mul_right _ (by omega)
    rw [decimalValue_cons, List.length_cons, Nat.pow_succ]
    omega

/-! ### Writing numerals -/

/-- **A number with leading zeros** is a numeral. -/
theorem numeral_ofNatPadded (hwidth : 0 < width) (hn : n < 10 ^ width) :
    Numeral width n (ofNatPadded width n) where
  length_eq := by
    have hlength : (ofNat n).length ≤ width :=
      (Nat.length_toDigits_le_iff (by decide) hwidth).2 hn
    rw [ofNatPadded, padLeft, List.length_append, List.length_replicate]
    omega
  digits _ := isDigit_of_mem_ofNatPadded
  value := by
    rw [ofNatPadded, padLeft, decimalValue_append, decimalValue_replicate_zero, decimalValue_ofNat,
      Nat.zero_mul, Nat.zero_add]

/-! ### The order of numerals -/

/-- A digit that is greater outweighs whatever follows. -/
theorem decimalValue_cons_lt (hc : c.isDigit = true) (hs : ∀ c ∈ s, c.isDigit = true)
    (hlength : s.length = t.length) (h : c.toNat < d.toNat) :
    decimalValue (c :: s) < decimalValue (d :: t) := by
  have hrest := decimalValue_lt hs
  have hdigit := toNat_of_isDigit hc
  have hmul : (c.toNat - 48 + 1) * 10 ^ t.length ≤ (d.toNat - 48) * 10 ^ t.length :=
    Nat.mul_le_mul_right _ (by omega)
  rw [Nat.succ_mul] at hmul
  rw [hlength] at hrest
  rw [decimalValue_cons, decimalValue_cons, hlength]
  omega

/-- Texts of as many digits are ordered as the numbers that they write are. -/
theorem le_iff_decimalValue_le (hs : ∀ c ∈ s, c.isDigit = true) (ht : ∀ c ∈ t, c.isDigit = true)
    (hlength : s.length = t.length) : le s t = true ↔ decimalValue s ≤ decimalValue t := by
  induction s generalizing t with
  | nil =>
    rw [List.length_nil, eq_comm, List.length_eq_zero_iff] at hlength
    rw [hlength]
    exact iff_of_true rfl (Nat.le_refl _)
  | cons c s ih =>
    cases t with
    | nil => cases hlength
    | cons d t =>
      obtain ⟨hc, hs⟩ := List.forall_mem_cons.1 hs
      obtain ⟨hd, ht⟩ := List.forall_mem_cons.1 ht
      rw [List.length_cons, List.length_cons, Nat.add_right_cancel_iff] at hlength
      rw [le]
      split
      · next he =>
        rw [he, ih hs ht hlength, decimalValue_cons, decimalValue_cons, hlength,
          Nat.add_le_add_iff_left]
      · next hne =>
        have hne' : c.toNat ≠ d.toNat := fun he => hne (Char.ext (UInt32.toNat_inj.1 he))
        rw [decide_eq_true_iff]
        change c.toNat < d.toNat ↔ _
        rcases Nat.lt_or_gt_of_ne hne' with hlt | hgt
        · exact iff_of_true hlt (decimalValue_cons_lt hc hs hlength hlt).le
        · exact iff_of_false (Nat.lt_asymm hgt)
            (decimalValue_cons_lt hd ht hlength.symm hgt).not_ge

/-- **Numerals of one width** are ordered as their numbers are. -/
theorem Numeral.le_iff (hs : Numeral width m s) (ht : Numeral width n t) :
    le s t = true ↔ m ≤ n := by
  rw [le_iff_decimalValue_le hs.digits ht.digits (hs.length_eq.trans ht.length_eq.symm), hs.value,
    ht.value]

theorem Numeral.eq_iff (hs : Numeral width m s) (ht : Numeral width n t) : s = t ↔ m = n := by
  constructor
  · rintro rfl
    exact hs.value.symm.trans ht.value
  · rintro rfl
    exact le_antisymm ((hs.le_iff ht).2 (Nat.le_refl m)) ((ht.le_iff hs).2 (Nat.le_refl m))

/-- Of texts with fronts of one length the fronts are compared first. -/
theorem le_append_iff (hlength : s.length = t.length) : le (s ++ u) (t ++ v) = true ↔
    (le s t = true ∧ s ≠ t) ∨ s = t ∧ le u v = true := by
  induction s generalizing t with
  | nil =>
    rw [List.length_nil, eq_comm, List.length_eq_zero_iff] at hlength
    simp [hlength]
  | cons c s ih =>
    cases t with
    | nil => cases hlength
    | cons d t =>
      rw [List.length_cons, List.length_cons, Nat.add_right_cancel_iff] at hlength
      rw [List.cons_append, List.cons_append, le, le]
      by_cases hcd : c = d
      · subst hcd
        rw [if_pos rfl, if_pos rfl, ih hlength, Ne, Ne, List.cons_inj_right]
      · have hne : c :: s ≠ d :: t := fun he => hcd (List.cons.inj he).1
        simp [hcd]

/-- **Texts that begin with numerals** of one width are ordered by their numbers first. -/
theorem Numeral.le_append_iff (hs : Numeral width m s) (ht : Numeral width n t) :
    le (s ++ u) (t ++ v) = true ↔ m < n ∨ m = n ∧ le u v = true := by
  rw [Text.le_append_iff (hs.length_eq.trans ht.length_eq.symm), Ne, hs.le_iff ht, hs.eq_iff ht,
    ← Nat.lt_iff_le_and_ne]

/-- The same character behind numerals does not matter. -/
@[simp] theorem le_cons_cons (c : Char) (s t : Text) : le (c :: s) (c :: t) = le s t := by
  rw [le, if_pos rfl]

end Text
end TemplateBindings
