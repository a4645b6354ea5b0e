import TemplateBindings.Markup.Attribute
import TemplateBindings.Text.Blank
import TemplateBindings.Text.Case

/-!
# Start tags

What stands between the opening angle bracket of a start tag and its end. Much that is malformed is
read on: slashes may stand between attributes, an attribute name may hold quotes, a value may follow
several equals signs, and a quote that is never closed is no quote. Each recogniser gives back the
text behind what it read, and a lemma beside it says that this text is not longer.
-/

namespace TemplateBindings
namespace Markup

/-! ### Names and separators -/

/-- The characters of a tag name behind its first letter. -/
def isTagNameChar (c : Char) : Bool :=
  !(c == '\t' || c == '\n' || c == '\r' || c == '\x0c' || c == ' ' || c == '/' || c == '>'
    || c == '\x00')

/-- The characters that may open an attribute name. -/
def opensAttributeName (c : Char) : Bool := !(Text.isBlank c || c == '/' || c == '>')

/-- The characters of an attribute name behind its first one. -/
def isAttributeNameChar (c : Char) : Bool := opensAttributeName c && c != '='

/-- Whether an attribute name may follow a character without anything between. -/
def mayPrecedeName (c : Char) : Bool := c == '\'' || c == '"' || c == '/' || Text.isBlank c

/-- The characters of a value without quotes. -/
def isBareChar (c : Char) : Bool := !(Text.isBlank c || c == '>')

/-- The text behind the blanks and slashes in front, the slash of a closing `/>` excepted. -/
def skipSeparators : Text → Text
  | '/' :: '>' :: rest => '/' :: '>' :: rest
  | '/' :: rest => skipSeparators rest
  | c :: rest => if Text.isBlank c then skipSeparators rest else c :: rest
  | [] => []

/-- Skipping separators makes no text longer. -/
theorem length_skipSeparators_le (s : Text) : (skipSeparators s).length ≤ s.length := by
  fun_induction skipSeparators s with
  | case1 => simp
  | case2 rest _ ih => simp only [List.length_cons]; omega
  | case3 c rest _ _ ih => simp only [List.length_cons]; omega
  | case4 => simp
  | case5 => simp

/-! ### Values -/

/-- **The value of an attribute as read**. -/
structure WrittenValue where
  /-- The value, without quotes around it and with its references as written. -/
  value : Text
  /-- The last character that was read. -/
  last : Char
  /-- The text behind it. -/
  rest : Text

/-- A value without quotes, read from its start; `before` is the character in front of it. -/
def bareValue (before : Char) (s : Text) : WrittenValue :=
  let bare := s.takeWhile isBareChar
  ⟨bare, bare.getLastD before, s.dropWhile isBareChar⟩

/-- What stands for a value whose quote is never closed, given the equals signs and blanks before
the quote. After a blank the value is empty; after several equals signs the last one opens a bare
value; else there is no value at all. -/
def unclosedValue? (equals blanks s : Text) : Option WrittenValue :=
  if !blanks.isEmpty then some ⟨[], ' ', s⟩
  else if 1 < equals.length then some (bareValue '=' ('=' :: s))
  else none

/-- The value that an equals sign in front of a text introduces. -/
def valueAfterEquals? (s : Text) : Option WrittenValue :=
  let equals := s.takeWhile (· == '=')
  let blanks := (s.dropWhile (· == '=')).takeWhile Text.isBlank
  let start := Text.dropBlanks (s.dropWhile (· == '='))
  match start with
  | '\'' :: quoted =>
    match Text.cutAt '\'' quoted with
    | some (value, rest) => some ⟨value, '\'', rest⟩
    | none => unclosedValue? equals blanks start
  | '"' :: quoted =>
    match Text.cutAt '"' quoted with
    | some (value, rest) => some ⟨value, '"', rest⟩
    | none => unclosedValue? equals blanks start
  | _ => some (bareValue (blanks.getLastD '=') start)

/-- The value of an attribute from the end of its name; `last` is the last character of the name,
which stays the last one read if there is no value. -/
def valueAfterName (last : Char) (s : Text) : WrittenValue :=
  match Text.dropBlanks s with
  | '=' :: rest => (valueAfterEquals? ('=' :: rest)).getD ⟨[], last, s⟩
  | _ => ⟨[], last, s⟩

/-- A bare value leaves no more than there was. -/
theorem length_bareValue_le (before : Char) (s : Text) :
    (bareValue before s).rest.length ≤ s.length :=
  (List.dropWhile_sublist isBareChar).length_le

/-- Reading on behind an unclosed quote leaves no more than there was. -/
theorem length_unclosedValue_le {equals blanks s : Text} {w : WrittenValue}
    (h : unclosedValue? equals blanks s = some w) :
    w.rest.length + (if blanks.isEmpty then 0 else blanks.length) ≤ s.length + blanks.length := by
  simp only [unclosedValue?] at h
  split at h
  · next hb =>
    simp only [Option.some.injEq] at h
    subst h
    simp_all
  · next hb =>
    split at h
    · simp only [Option.some.injEq] at h
      subst h
      have hd : (bareValue '=' ('=' :: s)).rest = s.dropWhile isBareChar := by
        simp only [bareValue]
        rw [List.dropWhile_cons_of_pos (by decide)]
      have := (List.dropWhile_sublist (l := s) isBareChar).length_le
      simp only [hd]
      split <;> omega
    · simp at h

/-- Reading a value behind equals signs leaves no more than there was. -/
theorem length_valueAfterEquals_le {s : Text} {w : WrittenValue}
    (h : valueAfterEquals? s = some w) : w.rest.length ≤ s.length := by
  have h₁ := (List.dropWhile_sublist (l := s) (· == '=')).length_le
  have h₂ := Text.length_dropBlanks_le (s.dropWhile (· == '='))
  have unclosed {equals start : Text} (hs : start.length ≤ s.length)
      (h : unclosedValue? equals ((s.dropWhile (· == '=')).takeWhile Text.isBlank) start = some w) :
      w.rest.length ≤ s.length := by
    have := length_unclosedValue_le h
    split at this
    · next hb =>
      have hz : _ = 0 := congrArg List.length (List.isEmpty_iff.1 hb)
      omega
    · omega
  simp only [valueAfterEquals?] at h
  split at h
  · next quoted hq =>
    rw [hq] at h₂
    simp only [List.length_cons] at h₂
    split at h
    · next value rest hc =>
      have := Text.length_of_cutAt hc
      simp only [Option.some.injEq] at h
      subst h
      simp only
      omega
    · exact unclosed (by rw [hq]; simp only [List.length_cons]; omega) h
  · next quoted hq =>
    rw [hq] at h₂
    simp only [List.length_cons] at h₂
    split at h
    · next value rest hc =>
      have := Text.length_of_cutAt hc
      simp only [Option.some.injEq] at h
      subst h
      simp only
      omega
    · exact unclosed (by rw [hq]; simp only [List.length_cons]; omega) h
  · simp only [Option.some.injEq] at h
    subst h
    have := length_bareValue_le
      (((s.dropWhile (· == '=')).takeWhile Text.isBlank).getLastD '=')
      (Text.dropBlanks (s.dropWhile (· == '=')))
    omega

/-- Reading a value leaves no more than there was. -/
theorem length_valueAfterName_le (last : Char) (s : Text) :
    (valueAfterName last s).rest.length ≤ s.length := by
  have h₁ := Text.length_dropBlanks_le s
  simp only [valueAfterName]
  split
  · next rest hr =>
    rw [hr] at h₁
    cases h : valueAfterEquals? ('=' :: rest) with
    | none => simp
    | some w =>
      have := length_valueAfterEquals_le h
      simp only [Option.getD_some]
      omega
  · simp

/-! ### Attributes -/

/-- **The attributes of a start tag** as written and the text behind them, from the first character
that is no separator. An attribute may start there only if something parts it from what was read
before. -/
def attributesFrom (parted : Bool) (s : Text) : List Attribute × Text :=
  match s with
  | [] => ([], [])
  | c :: cs =>
    if parted && opensAttributeName c then
      let name := c :: cs.takeWhile isAttributeNameChar
      let written := valueAfterName (name.getLastD c) (cs.dropWhile isAttributeNameChar)
      let next := skipSeparators written.rest
      let following := attributesFrom (next != written.rest || mayPrecedeName written.last) next
      (⟨Text.lower name, written.value⟩ :: following.1, following.2)
    else ([], c :: cs)
termination_by s.length
decreasing_by
  have h₁ := (List.dropWhile_sublist (l := cs) isAttributeNameChar).length_le
  have h₂ := length_valueAfterName_le
    ((c :: cs.takeWhile isAttributeNameChar).getLastD c) (cs.dropWhile isAttributeNameChar)
  have h₃ := length_skipSeparators_le
    (valueAfterName ((c :: cs.takeWhile isAttributeNameChar).getLastD c)
      (cs.dropWhile isAttributeNameChar)).rest
  simp only [List.length_cons]
  omega

/-- Reading attributes leaves no more than there was. -/
theorem length_attributesFrom_le (parted : Bool) (s : Text) :
    (attributesFrom parted s).2.length ≤ s.length := by
  fun_induction attributesFrom parted s with
  | case1 => simp
  | case2 parted c cs _ name written next following ih =>
    have h₁ := (List.dropWhile_sublist (l := cs) isAttributeNameChar).length_le
    have h₂ := length_valueAfterName_le (name.getLastD c) (cs.dropWhile isAttributeNameChar)
    have h₃ := length_skipSeparators_le written.rest
    simp only [List.length_cons]
    simp only [following, next, written] at *
    omega
  | case3 => simp

end Markup
end TemplateBindings
