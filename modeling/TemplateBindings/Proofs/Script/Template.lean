import TemplateBindings.Template.Render

/-!
# Template literals of scripts

What a text between backticks denotes where a generated module is read. A backslash opens an escape
sequence, a dollar sign in front of a brace opens an interpolation, and every line end is a line feed.
A text escaped for such a literal denotes itself, whatever stands behind its closing backtick
(`TemplateBindings.Script.readTemplate?_escapeLiteral`), unless it has a carriage return.

Escaping reads a text once. It does what replacing first the backslashes, then the backticks, and then
the dollar signs in front of braces does (`TemplateBindings.Script.escapeLiteral_eq_replaced`): the
backslashes of a later replacement are not seen by an earlier one, and none of them separates a dollar
sign from its brace.
-/

namespace TemplateBindings
namespace Script

open Template

variable {c first : Char} {s t rest : Text}

/-! ### Reading -/

/-- The characters that a backslash in front of them makes plain. -/
def escapable : Text := ['\\', '\x60', '$']

/-- **Reading a template literal** behind its opening backtick: the text that it denotes, and what
follows the first backtick without a backslash. An interpolation, or an escape sequence for another
character, is not read. -/
def readTemplate? : Text → Option (Text × Text)
  | [] => none
  | '\x60' :: rest => some ([], rest)
  | '\\' :: c :: rest =>
    if c ∈ escapable then (readTemplate? rest).map fun r => (c :: r.1, r.2) else none
  | '$' :: '{' :: _ => none
  | '\r' :: '\n' :: rest => (readTemplate? rest).map fun r => ('\n' :: r.1, r.2)
  | '\r' :: rest => (readTemplate? rest).map fun r => ('\n' :: r.1, r.2)
  | c :: rest => (readTemplate? rest).map fun r => (c :: r.1, r.2)

/-- A character that is escaped stands for itself. -/
theorem readTemplate?_escaped (hc : c ∈ escapable) (s : Text) :
    readTemplate? ('\\' :: c :: s) = (readTemplate? s).map fun r => (c :: r.1, r.2) := by
  rw [readTemplate?, if_pos hc]

/-- A character without a meaning of its own stands for itself. -/
theorem readTemplate?_plain (htick : c ≠ '\x60') (hslash : c ≠ '\\') (hreturn : c ≠ '\r')
    (hdollar : c = '$' → s.head? ≠ some '{') :
    readTemplate? (c :: s) = (readTemplate? s).map fun r => (c :: r.1, r.2) := by
  rw [readTemplate?]
  · exact htick
  · intro d rest' hc _
    exact hslash hc
  · rintro rest' hc rfl
    exact hdollar hc rfl
  · intro rest' hc _
    exact hreturn hc
  · exact hreturn

/-- What escaping puts at the front of a text is no brace. -/
theorem head?_escapeLiteral (h : s.head? ≠ some '{') : (escapeLiteral s).head? ≠ some '{' := by
  fun_cases escapeLiteral s with
  | case1 => exact h
  | case2 | case3 | case4 => simp
  | case5 => simpa using h

/-- **A text that is escaped denotes itself.** -/
theorem readTemplate?_escapeLiteral (h : '\r' ∉ s) (rest : Text) :
    readTemplate? (escapeLiteral s ++ '\x60' :: rest) = some (s, rest) := by
  fun_induction escapeLiteral s with
  | case1 => rfl
  | case2 s ih =>
    rw [List.cons_append, List.cons_append, readTemplate?_escaped (by decide),
      ih fun hm => h (List.mem_cons_of_mem _ hm)]
    rfl
  | case3 s ih =>
    rw [List.cons_append, List.cons_append, readTemplate?_escaped (by decide),
      ih fun hm => h (List.mem_cons_of_mem _ hm)]
    rfl
  | case4 s ih =>
    have hs : '\r' ∉ s := fun hm => h (List.mem_cons_of_mem _ (List.mem_cons_of_mem _ hm))
    rw [List.cons_append, List.cons_append, readTemplate?_escaped (by decide), List.cons_append,
      readTemplate?_plain (by decide) (by decide) (by decide) fun hc => absurd hc (by decide), ih hs]
    rfl
  | case5 c s hslash htick hdollar ih =>
    have hs : '\r' ∉ s := fun hm => h (List.mem_cons_of_mem _ hm)
    have hreturn : c ≠ '\r' := fun hc => h (hc ▸ List.mem_cons_self)
    have hopen (hc : c = '$') : (escapeLiteral s ++ '\x60' :: rest).head? ≠ some '{' := by
      have hbrace : (escapeLiteral s).head? ≠ some '{' := head?_escapeLiteral fun hs => by
        obtain ⟨s', rfl⟩ := List.head?_eq_some_iff.1 hs
        exact hdollar s' hc rfl
      cases he : escapeLiteral s with
      | nil => simp
      | cons d image => simpa [he] using hbrace
    rw [List.cons_append, readTemplate?_plain htick hslash hreturn hopen, ih hs]
    rfl

/-! ### Three replacements -/

/-- A text with every occurrence of `first :: others` replaced, from its beginning. -/
def replaced (first : Char) (others new : Text) : Text → Text
  | [] => []
  | c :: s =>
    match _h : Text.after? (first :: others) (c :: s) with
    | some rest => new ++ replaced first others new rest
    | none => c :: replaced first others new s
termination_by s => s.length
decreasing_by
  · have := congrArg List.length (Text.eq_append_of_after? _h)
    simp only [List.length_append, List.length_cons] at this ⊢
    omega
  · simp

theorem replaced_cons_of_ne (hc : first ≠ c) (others new s : Text) :
    replaced first others new (c :: s) = c :: replaced first others new s := by
  rw [replaced]
  split
  · next rest h => simp [Text.after?, hc] at h
  · rfl

theorem replaced_append (first : Char) (others new s : Text) :
    replaced first others new (first :: (others ++ s)) = new ++ replaced first others new s := by
  rw [replaced]
  split
  · next rest h =>
    rw [← List.cons_append, Text.after?_append] at h
    cases h
    rfl
  · next h =>
    rw [← List.cons_append, Text.after?_append] at h
    cases h

theorem replaced_cons (first : Char) (new s : Text) :
    replaced first [] new (first :: s) = new ++ replaced first [] new s :=
  replaced_append first [] new s

/-- A dollar sign that has no brace behind it stays. -/
theorem replaced_of_head? {new : Text} (h : s.head? ≠ some '{') :
    replaced '$' ['{'] new ('$' :: s) = '$' :: replaced '$' ['{'] new s := by
  rw [replaced]
  split
  · next rest hafter =>
    rw [Text.eq_append_of_after? (p := ['{']) hafter] at h
    exact absurd rfl h
  · rfl

/-- Replacing puts no brace at the front of a text. -/
theorem head?_replaced {others new : Text} (hnew : ∃ d, new.head? = some d ∧ d ≠ '{')
    (h : s.head? ≠ some '{') : (replaced first others new s).head? ≠ some '{' := by
  obtain ⟨d, hd, hbrace⟩ := hnew
  cases s with
  | nil => simp [replaced]
  | cons c s =>
    rw [replaced]
    split
    · simpa [List.head?_append, hd] using hbrace
    · simpa using h

/-- **Escaping is three replacements**, one after the other. -/
theorem escapeLiteral_eq_replaced (s : Text) :
    escapeLiteral s = replaced '$' ['{'] ['\\', '$', '{']
      (replaced '\x60' [] ['\\', '\x60'] (replaced '\\' [] ['\\', '\\'] s)) := by
  fun_induction escapeLiteral s with
  | case1 => simp [replaced]
  | case2 s ih =>
    rw [ih, replaced_cons, List.cons_append, List.cons_append, List.nil_append,
      replaced_cons_of_ne (by decide), replaced_cons_of_ne (by decide),
      replaced_cons_of_ne (by decide), replaced_cons_of_ne (by decide)]
  | case3 s ih =>
    rw [ih, replaced_cons_of_ne (by decide), replaced_cons, List.cons_append, List.cons_append,
      List.nil_append, replaced_cons_of_ne (by decide), replaced_cons_of_ne (by decide)]
  | case4 s ih =>
    rw [ih, replaced_cons_of_ne (by decide : '\\' ≠ '$'),
      replaced_cons_of_ne (by decide : '\\' ≠ '{'), replaced_cons_of_ne (by decide : '\x60' ≠ '$'),
      replaced_cons_of_ne (by decide : '\x60' ≠ '{')]
    exact (replaced_append '$' ['{'] ['\\', '$', '{'] _).symm
  | case5 c s hslash htick hdollar ih =>
    rw [ih, replaced_cons_of_ne (Ne.symm hslash), replaced_cons_of_ne (Ne.symm htick)]
    by_cases hc : c = '$'
    · have hbrace : s.head? ≠ some '{' := fun hs => by
        obtain ⟨s', rfl⟩ := List.head?_eq_some_iff.1 hs
        exact hdollar s' hc rfl
      -- the brace that would make this an occurrence is not brought in by the other two
      have hafter : (replaced '\x60' [] ['\\', '\x60']
          (replaced '\\' [] ['\\', '\\'] s)).head? ≠ some '{' :=
        head?_replaced ⟨_, rfl, by decide⟩ (head?_replaced ⟨_, rfl, by decide⟩ hbrace)
      rw [hc, replaced_of_head? hafter]
    · rw [replaced_cons_of_ne (Ne.symm hc)]

end Script
end TemplateBindings
