import TemplateBindings.Proofs.Text.Pieces
import TemplateBindings.Text.Blank
import TemplateBindings.Text.Lines

/-!
# Lines

A text is cut into lines after all its line ends were made the same. Where a text ends with a line
end, of whatever kind, what is added to it stands on lines of its own
(`TemplateBindings.Text.linesOf_append`), unless it starts with the other half of one.
-/

namespace TemplateBindings
namespace Text

variable {line rest text added : Text}

/-! ### First lines -/

theorem firstLine_append (h : '\n' ∉ line) (rest : Text) :
    firstLine (line ++ '\n' :: rest) = (line, true) := by
  rw [firstLine, cutAt_append h]

theorem firstLine_of_not_mem (h : '\n' ∉ line) : firstLine line = (line, false) := by
  rw [firstLine, cutAt_of_not_mem h]

theorem unifyLineEnds_cons {c : Char} (h : c ≠ '\r') (rest : Text) :
    unifyLineEnds (c :: rest) = c :: unifyLineEnds rest := by
  rw [unifyLineEnds]
  · rintro _ rfl
    exact absurd rfl h
  · rintro rfl
    exact absurd rfl h

theorem unifyLineEnds_of_not_mem (h : '\r' ∉ line) : unifyLineEnds line = line := by
  induction line with
  | nil => rw [unifyLineEnds]
  | cons c line ih =>
    have hc : c ≠ '\r' := fun he => h (he ▸ List.mem_cons_self)
    rw [unifyLineEnds_cons hc, ih fun hm => h (List.mem_cons_of_mem _ hm)]

theorem unifyLineEnds_append (h : '\r' ∉ line) (rest : Text) :
    unifyLineEnds (line ++ rest) = line ++ unifyLineEnds rest := by
  induction line with
  | nil => rfl
  | cons c line ih =>
    have hc : c ≠ '\r' := fun he => h (he ▸ List.mem_cons_self)
    rw [List.cons_append, unifyLineEnds_cons hc, ih fun hm => h (List.mem_cons_of_mem _ hm)]
    rfl

/-! ### All lines -/

/-- **The lines of a text**, however they end. -/
def linesOf (text : Text) : List Text := lines (unifyLineEnds text)

/-- **Whether a new line can be added** to a text: it is empty, or ends with a line end. -/
def EndsLine (text : Text) : Prop := ∀ c ∈ text.getLast?, c = '\n' ∨ c = '\r'

instance (text : Text) : Decidable text.EndsLine :=
  decidable_of_iff (text.getLast?.all fun c => c = '\n' ∨ c = '\r') <| by
    rw [EndsLine]
    cases text.getLast? <;> simp

theorem EndsLine.append (h : EndsLine text) (h' : EndsLine added) : EndsLine (text ++ added) := by
  intro c hc
  rw [Option.mem_def, List.getLast?_append, Option.or_eq_some_iff] at hc
  rcases hc with hc | ⟨-, hc⟩
  · exact h' c hc
  · exact h c hc

/-- Line ends are made the same in two parts, unless the second starts with half of one. -/
theorem unifyLineEnds_append_of_head (h : added.head? ≠ some '\n') (text : Text) :
    unifyLineEnds (text ++ added) = unifyLineEnds text ++ unifyLineEnds added := by
  fun_induction unifyLineEnds text with
  | case1 => rfl
  | case2 rest ih =>
    rw [List.cons_append, List.cons_append, unifyLineEnds, ih]
    rfl
  | case3 rest hrest ih =>
    -- the return is the whole of its line end, also where the text ends with it
    have hnot : ∀ more, rest ++ added ≠ '\n' :: more := by
      intro more he
      cases rest with
      | nil => exact h (by rw [← List.nil_append added, he]; rfl)
      | cons c rest => exact hrest rest (by rw [(List.cons.inj he).1])
    rw [List.cons_append, unifyLineEnds, ih]
    · rfl
    · exact hnot
  | case4 c rest _ hreturn ih =>
    rw [List.cons_append, unifyLineEnds_cons fun he => hreturn he, ih]
    rfl

theorem unifyLineEnds_eq_nil (h : unifyLineEnds text = []) : text = [] := by
  revert h
  fun_cases unifyLineEnds text with
  | case1 => exact fun _ => rfl
  | case2 rest | case3 rest _ | case4 c rest _ _ => exact fun h => absurd h (List.cons_ne_nil _ _)

/-- The last line end of a text is made a line feed. -/
theorem unifyLineEnds_of_endsLine (h : EndsLine text) :
    unifyLineEnds text = [] ∨ ∃ front, unifyLineEnds text = front ++ ['\n'] := by
  have hcons {c : Char} {unified : Text} (hc : unified = [] → c = '\n')
      (ih : unified = [] ∨ ∃ front, unified = front ++ ['\n']) :
      ∃ front, c :: unified = front ++ ['\n'] := by
    rcases ih with rfl | ⟨front, rfl⟩
    · exact ⟨[], by rw [hc rfl]; rfl⟩
    · exact ⟨c :: front, rfl⟩
  have htail {c : Char} {rest : Text} (h : EndsLine (c :: rest)) : EndsLine rest := by
    intro d hd
    refine h d ?_
    cases rest with
    | nil => cases hd
    | cons e rest => rwa [List.getLast?_cons_cons]
  fun_induction unifyLineEnds text with
  | case1 => exact .inl rfl
  | case2 rest ih => exact .inr (hcons (fun _ => rfl) (ih (htail (htail h))))
  | case3 rest _ ih => exact .inr (hcons (fun _ => rfl) (ih (htail h)))
  | case4 c rest _ hreturn ih =>
    refine .inr (hcons (fun hnil => ?_) (ih (htail h)))
    rw [unifyLineEnds_eq_nil hnil] at h
    exact (h c rfl).resolve_right hreturn

/-- Behind the last line end of a text there is an empty line. -/
theorem linesOf_of_endsLine (h : EndsLine text) : ∃ front, linesOf text = front ++ [[]] := by
  rw [linesOf, lines]
  rcases unifyLineEnds_of_endsLine h with he | ⟨front, he⟩
  · exact ⟨[], by rw [he]; rfl⟩
  · exact ⟨pieces '\n' front, by rw [he, pieces_append_cons]; rfl⟩

/-- **What is added behind a line end stands on lines of its own.** -/
theorem linesOf_append (h : EndsLine text) (hadded : added.head? ≠ some '\n') :
    linesOf (text ++ added) = (linesOf text).dropLast ++ linesOf added := by
  rw [linesOf, linesOf, linesOf, unifyLineEnds_append_of_head hadded, lines, lines, lines]
  rcases unifyLineEnds_of_endsLine h with he | ⟨front, he⟩
  · rw [he]
    rfl
  · rw [he, List.append_assoc, List.singleton_append, pieces_append_cons, pieces_append_cons]
    rw [show pieces '\n' [] = [[]] from rfl, List.dropLast_concat]

/-- The text in front of a line end is a line. -/
theorem linesOf_line (h : '\n' ∉ line) (h' : '\r' ∉ line) : linesOf (line ++ ['\n']) = [line, []] := by
  have hcr : '\r' ∉ line ++ ['\n'] := by simp [h']
  rw [linesOf, unifyLineEnds_of_not_mem hcr, lines, pieces_append h]
  rfl

/-! ### Blanks around a line -/

theorem dropBlanks_of_head (h : ∀ c ∈ line.head?, isBlank c = false) : dropBlanks line = line := by
  cases line with
  | nil => rfl
  | cons c rest => rw [dropBlanks, List.dropWhile_cons_of_neg (by simp [h c rfl])]

/-- A line without blanks around it is not trimmed. -/
theorem trim_of_ends (hfirst : ∀ c ∈ line.head?, isBlank c = false)
    (hlast : ∀ c ∈ line.getLast?, isBlank c = false) : trim line = line := by
  rw [trim, dropBlanks_of_head hfirst, dropBlanks_of_head (by rwa [List.head?_reverse]),
    List.reverse_reverse]

end Text
end TemplateBindings
