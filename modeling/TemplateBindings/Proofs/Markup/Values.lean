import TemplateBindings.Markup.Print
import TemplateBindings.Proofs.Text.Pieces

/-!
# Values, written and read

The value of an attribute is printed between quotes, and some of its characters as references. Its
reader finds the closing quote and resolves the references, and what comes out is the value again
(`TemplateBindings.Markup.exists_quoteValue`): no quote of the chosen kind is left in between, every
ampersand opens a reference that ends with its semicolon, and none of them is a number.
-/

namespace TemplateBindings
namespace Markup

variable {c : Char} {name : Text} {write : Char → Text}

/-! ### References by the names of markup -/

/-- The reference by a name. -/
def reference (name : Text) : Text := '&' :: name ++ [';']

/-- The characters of markup and their names. -/
theorem of_mem_markupNames (h : (name, [c]) ∈ Reference.markupNames) :
    name = "amp".toList ∧ c = '&' ∨ name = "lt".toList ∧ c = '<' ∨
      name = "gt".toList ∧ c = '>' ∨ name = "quot".toList ∧ c = '"' := by
  rcases List.mem_cons.1 h with he | h
  · cases he
    exact .inl ⟨rfl, rfl⟩
  rcases List.mem_cons.1 h with he | h
  · cases he
    exact .inr (.inl ⟨rfl, rfl⟩)
  rcases List.mem_cons.1 h with he | h
  · cases he
    exact .inr (.inr (.inl ⟨rfl, rfl⟩))
  · cases List.mem_singleton.1 h
    exact .inr (.inr (.inr ⟨rfl, rfl⟩))

open Reference in
/-- A reference in a value stands for its character, whatever follows. -/
theorem resolve_reference (h : (name, [c]) ∈ markupNames) (rest : Text) :
    resolve (reference name ++ rest) = c :: resolve rest := by
  have hname : inValue? (name ++ ';' :: rest) = some ([c], name.length + 1) := by
    rcases of_mem_markupNames h with ⟨rfl, rfl⟩ | ⟨rfl, rfl⟩ | ⟨rfl, rfl⟩ | ⟨rfl, rfl⟩ <;> rfl
  rw [reference, List.cons_append, List.cons_append, List.append_assoc, resolve,
    List.singleton_append, hname]
  dsimp only
  rw [← List.drop_drop, List.drop_left, List.drop_one, List.tail_cons, List.singleton_append]

theorem tooManyDigitsIn?_reference (h : (name, [c]) ∈ Reference.markupNames) (rest : Text) :
    Reference.tooManyDigitsIn? (reference name ++ rest) = Reference.tooManyDigitsIn? rest := by
  rcases of_mem_markupNames h with ⟨rfl, rfl⟩ | ⟨rfl, rfl⟩ | ⟨rfl, rfl⟩ | ⟨rfl, rfl⟩ <;> rfl

theorem resolve_cons (h : c ≠ '&') (rest : Text) :
    Reference.resolve (c :: rest) = c :: Reference.resolve rest := by
  rw [Reference.resolve]
  exact h

theorem tooManyDigitsIn?_cons (h : c ≠ '&') (rest : Text) :
    Reference.tooManyDigitsIn? (c :: rest) = Reference.tooManyDigitsIn? rest := by
  rw [Reference.tooManyDigitsIn?]
  exact fun _ => fun he => absurd he h

/-! ### Writings -/

/-- **A way of writing characters** that can be undone: each as it is or as a reference by one of the
names of markup, and an ampersand always as a reference. -/
def IsWriting (write : Char → Text) : Prop :=
  ∀ c, (c ≠ '&' ∧ write c = [c]) ∨
    ∃ name, (name, [c]) ∈ Reference.markupNames ∧ write c = reference name

theorem isWriting_escapeChar : IsWriting escapeChar := by
  intro c
  rw [escapeChar]
  split
  · next hc => exact .inr ⟨"amp".toList, by simp [hc, Reference.markupNames], rfl⟩
  · next hc =>
    split
    · next hlt => exact .inr ⟨"lt".toList, by simp [hlt, Reference.markupNames], rfl⟩
    · split
      · next hgt => exact .inr ⟨"gt".toList, by simp [hgt, Reference.markupNames], rfl⟩
      · exact .inl ⟨hc, rfl⟩

/-- How a character of a value is written between double quotes, if the value has quotes of both
kinds. -/
def quoteChar (c : Char) : Text := if c = '"' then "&quot;".toList else escapeChar c

theorem isWriting_quoteChar : IsWriting quoteChar := by
  intro c
  rw [quoteChar]
  split
  · next hc => exact .inr ⟨"quot".toList, by simp [hc, Reference.markupNames], rfl⟩
  · exact isWriting_escapeChar c

/-- **Resolving undoes writing.** -/
theorem resolve_flatMap (h : IsWriting write) (s : Text) :
    Reference.resolve (s.flatMap write) = s := by
  induction s with
  | nil => rw [List.flatMap_nil, Reference.resolve]
  | cons c s ih =>
    rw [List.flatMap_cons]
    rcases h c with ⟨hc, hw⟩ | ⟨name, hname, hw⟩
    · rw [hw, List.singleton_append, resolve_cons hc, ih]
    · rw [hw, resolve_reference hname, ih]

theorem tooManyDigitsIn?_flatMap (h : IsWriting write) (s : Text) :
    Reference.tooManyDigitsIn? (s.flatMap write) = none := by
  induction s with
  | nil => rfl
  | cons c s ih =>
    rw [List.flatMap_cons]
    rcases h c with ⟨hc, hw⟩ | ⟨name, hname, hw⟩
    · rw [hw, List.singleton_append, tooManyDigitsIn?_cons hc, ih]
    · rw [hw, tooManyDigitsIn?_reference hname, ih]

/-! ### Quotes -/

/-- The characters that may stand around a value. -/
def IsQuote (c : Char) : Prop := c = '\'' ∨ c = '"'

/-- Escaping neither makes nor takes quotes. -/
theorem mem_escape_iff (hc : IsQuote c) (s : Text) : c ∈ escape s ↔ c ∈ s := by
  have hone (d : Char) : c ∈ escapeChar d ↔ c = d := by
    rw [escapeChar]
    rcases hc with rfl | rfl <;> repeat' split
    all_goals first | (subst_vars; decide) | simp
  simp [escape, List.mem_flatMap, hone]

theorem escape_flatMap_quote (s : Text) :
    (escape s).flatMap (fun c => if c = '"' then "&quot;".toList else [c]) =
      s.flatMap quoteChar := by
  have hone (d : Char) : (escapeChar d).flatMap (fun c => if c = '"' then "&quot;".toList else [c]) =
      quoteChar d := by
    rw [quoteChar]
    split
    · next hd =>
      subst hd
      decide
    · next hd =>
      rw [escapeChar]
      repeat' split
      · decide
      · decide
      · decide
      · rw [List.flatMap_singleton, if_neg hd]
  rw [escape, List.flatMap_assoc]
  exact congrArg (s.flatMap ·) (funext hone)

theorem not_mem_flatMap_quoteChar (s : Text) : '"' ∉ s.flatMap quoteChar := by
  have hone (d : Char) : '"' ∉ quoteChar d := by
    rw [quoteChar]
    split
    · decide
    · next hd =>
      intro hm
      have := (mem_escape_iff (s := [d]) (.inr rfl)).1 (by simpa [escape] using hm)
      exact hd (List.mem_singleton.1 this).symm
  simp [List.mem_flatMap, hone]

/-- **A printed value is read back**: it stands between two quotes of one kind with none of that kind
in between, and what stands there resolves to the value. -/
theorem exists_quoteValue (value : Text) :
    ∃ quote inner, IsQuote quote ∧ quote ∉ inner ∧
      quoteValue (escape value) = quote :: inner ++ [quote] ∧
      Reference.resolve inner = value ∧ Reference.tooManyDigitsIn? inner = none := by
  have hplain := resolve_flatMap isWriting_escapeChar value
  have hdigits := tooManyDigitsIn?_flatMap isWriting_escapeChar value
  rw [quoteValue]
  split
  · split
    · refine ⟨'"', value.flatMap quoteChar, .inr rfl, not_mem_flatMap_quoteChar value, ?_,
        resolve_flatMap isWriting_quoteChar value,
        tooManyDigitsIn?_flatMap isWriting_quoteChar value⟩
      rw [escape_flatMap_quote]
    · next hsingle =>
      exact ⟨'\'', escape value, .inl rfl, by simpa using hsingle, rfl, hplain, hdigits⟩
  · next hdouble =>
    exact ⟨'"', escape value, .inr rfl, by simpa using hdouble, rfl, hplain, hdigits⟩

end Markup
end TemplateBindings
