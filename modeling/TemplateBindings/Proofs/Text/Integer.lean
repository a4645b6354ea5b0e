import TemplateBindings.Text.Integer

/-!
# Digits

A number written in decimal is made of digits, and reading them gives the number back
(`TemplateBindings.Text.decimalValue_ofNat`).
-/

namespace TemplateBindings
namespace Text

variable {c : Char} {n width : Nat}

theorem isDigit_of_mem_ofNat (h : c ∈ ofNat n) : c.isDigit = true :=
  Nat.isDigit_of_mem_toDigits (by decide) (by decide) h

theorem isDigit_of_mem_ofNatPadded (h : c ∈ ofNatPadded width n) : c.isDigit = true := by
  rcases List.mem_append.1 h with h | h
  · rw [List.eq_of_mem_replicate h]
    rfl
  · exact isDigit_of_mem_ofNat h

theorem decimalValue_concat (digits : Text) (c : Char) :
    decimalValue (digits ++ [c]) = 10 * decimalValue digits + (c.toNat - 48) :=
  List.foldl_append ..

/-- **Digits are read back.** -/
theorem decimalValue_ofNat (n : Nat) : decimalValue (ofNat n) = n := by
  induction n using Nat.strongRecOn with
  | ind n ih =>
    by_cases hn : n < 10
    · rw [ofNat, Nat.toDigits_of_lt_base hn, ← List.nil_append [_], decimalValue_concat,
        Nat.toNat_digitChar_sub_48_of_lt_ten hn]
      exact Nat.zero_add n
    · have hlower := ih (n / 10) (by omega)
      rw [ofNat] at hlower ⊢
      rw [Nat.toDigits_of_base_le (by decide) (Nat.le_of_not_lt hn), decimalValue_concat, hlower,
        Nat.toNat_digitChar_sub_48_of_lt_ten (Nat.mod_lt n (by decide))]
      omega

end Text
end TemplateBindings
