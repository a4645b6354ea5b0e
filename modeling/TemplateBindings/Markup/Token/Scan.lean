import TemplateBindings.Markup.Token

/-!
# Reading a text into tokens

The two runs over a text. A run takes steps until one of them stops; that every other step leaves
less text than there was is what makes it end, and the first half of this file is the proof of that,
construct by construct.
-/

namespace TemplateBindings
namespace Markup

/-! ### Every construct takes something away -/

/-- What a construct leaves is not longer than a bound. -/
def Construct.LeavesAtMost (bound : Nat) : Construct → Prop
  | .read _ _ rest => rest.length ≤ bound
  | _ => True

/-- A bound can be raised. -/
theorem Construct.LeavesAtMost.mono {m n : Nat} {c : Construct} (h : c.LeavesAtMost m)
    (hmn : m ≤ n) :
    c.LeavesAtMost n := by
  cases c with
  | read => exact Nat.le_trans h hmn
  | _ => trivial

theorem Construct.withAttributes_leaves (written : List Attribute)
    {make : List Attribute → Construct} {bound : Nat}
    (h : ∀ attributes, (make attributes).LeavesAtMost bound) :
    (Construct.withAttributes written make).LeavesAtMost bound := by
  simp only [Construct.withAttributes]
  split
  · trivial
  · exact h _

theorem Construct.startTag_leaves (s : Text) : (Construct.startTag s).LeavesAtMost s.length := by
  have h₁ := (List.dropWhile_sublist (l := s) isTagNameChar).length_le
  have h₂ := length_skipSeparators_le (s.dropWhile isTagNameChar)
  have h₃ := length_attributesFrom_le
    (skipSeparators (s.dropWhile isTagNameChar) != s.dropWhile isTagNameChar
      || mayPrecedeName ((s.takeWhile isTagNameChar).getLastD ' '))
    (skipSeparators (s.dropWhile isTagNameChar))
  simp only [Construct.startTag]
  split
  · trivial
  · next hr =>
    rw [hr] at h₃
    simp only [List.length_cons] at h₃
    refine withAttributes_leaves _ fun _ => ?_
    simp only [LeavesAtMost]
    omega
  · next hr =>
    rw [hr] at h₃
    simp only [List.length_cons] at h₃
    refine withAttributes_leaves _ fun _ => ?_
    simp only [LeavesAtMost]
    omega
  · next hr =>
    rw [hr] at h₃
    split
    · trivial
    · refine withAttributes_leaves _ fun _ => ?_
      simp only [LeavesAtMost]
      omega

theorem Construct.endTag_leaves (s : Text) : (Construct.endTag s).LeavesAtMost s.length := by
  simp only [Construct.endTag]
  split
  · next h =>
    have := Text.length_of_cutAt h
    simp only [LeavesAtMost]
    omega
  · trivial

theorem Construct.ofCut_leaves (token : Text → Token) {cut : Option (Text × Text)} {bound : Nat}
    (h : ∀ {data rest}, cut = some (data, rest) → rest.length ≤ bound) :
    (Construct.ofCut token cut).LeavesAtMost bound := by
  match cut with
  | some (_, _) => exact h rfl
  | none => trivial

/-- What follows the end of a comment is shorter than what the end is part of. -/
theorem length_afterCommentEnd {s rest : Text} (h : afterCommentEnd? s = some rest) :
    rest.length < s.length := by
  simp only [afterCommentEnd?] at h
  split at h
  · next t =>
    have h₁ := Text.length_dropBlanks_le t
    split at h
    · next hd =>
      rw [hd] at h₁
      simp only [Option.some.injEq] at h
      subst h
      simp only [List.length_cons] at h₁ ⊢
      omega
    · simp at h
  · simp at h

/-- What follows the end of a condition is shorter than what the end is part of. -/
theorem length_afterConditionEnd {s rest : Text} (h : afterConditionEnd? s = some rest) :
    rest.length < s.length := by
  simp only [afterConditionEnd?] at h
  split at h
  · next t =>
    have h₁ := Text.length_dropBlanks_le t
    split at h
    · next hd =>
      rw [hd] at h₁
      simp only [Option.some.injEq] at h
      subst h
      simp only [List.length_cons] at h₁ ⊢
      omega
    · simp at h
  · simp at h

/-- What follows the end of a section is shorter than what the end is part of. -/
theorem length_afterSectionEnd {s rest : Text} (h : afterSectionEnd? s = some rest) :
    rest.length < s.length := by
  simp only [afterSectionEnd?] at h
  split at h
  · next t =>
    have h₁ := Text.length_dropBlanks_le t
    have h₂ := length_afterConditionEnd h
    simp only [List.length_cons]
    omega
  · simp at h

theorem Construct.markedSection_leaves (s : Text) :
    (Construct.markedSection s).LeavesAtMost s.length := by
  simp only [Construct.markedSection]
  split
  · trivial
  split
  · trivial
  split
  · trivial
  split
  · exact ofCut_leaves _ fun h => Nat.le_of_lt (Text.length_of_cutWhere length_afterSectionEnd h)
  split
  · exact ofCut_leaves _ fun h => Nat.le_of_lt (Text.length_of_cutWhere length_afterConditionEnd h)
  · trivial

theorem Construct.declaration_leaves (s : Text) :
    (Construct.declaration s).LeavesAtMost s.length := by
  simp only [Construct.declaration]
  split
  · next t =>
    exact (ofCut_leaves _ fun h =>
      Nat.le_of_lt (Text.length_of_cutWhere length_afterCommentEnd h)).mono
        (by simp only [List.length_cons]; omega)
  · next t => exact (markedSection_leaves t).mono (by simp only [List.length_cons]; omega)
  · split
    · split
      · next h =>
        have := Text.length_of_cutAt h
        simp only [List.length_drop] at this
        simp only [LeavesAtMost]
        omega
      · trivial
    · exact ofCut_leaves _ fun h => by have := Text.length_of_cutAt h; omega

theorem Construct.ofBracket_leaves {s : Text} {c : Construct}
    (h : Construct.ofBracket? s = some c) :
    c.LeavesAtMost s.length := by
  simp only [Construct.ofBracket?] at h
  split at h
  · simp only [Option.some.injEq] at h
    subst h
    exact (endTag_leaves _).mono (by simp)
  · simp only [Option.some.injEq] at h
    subst h
    exact (declaration_leaves _).mono (by simp)
  · simp only [Option.some.injEq] at h
    subst h
    exact ofCut_leaves _ fun h => by
      have := Text.length_of_cutAt h
      simp only [List.length_cons]
      omega
  · split at h
    · simp only [Option.some.injEq] at h
      subst h
      exact startTag_leaves _
    · simp at h
  · simp at h

/-- Reading an unfinished construct leaves no more than there was. -/
theorem length_unfinished_le (s : Text) : (unfinished s).2.length ≤ s.length := by
  simp only [unfinished]
  split
  · next h =>
    have := Text.length_of_cutAt h
    simp only
    omega
  · split
    · exact (List.dropWhile_sublist _).length_le
    · exact Nat.le_refl _

/-- What follows the digits of a reference is not longer than what it is part of. -/
theorem length_afterCode {s rest : Text} (h : afterCode? s = some rest) :
    rest.length ≤ s.length := by
  simp only [afterCode?] at h
  split at h
  · simp_all
  · split at h <;> simp_all
  · simp at h

/-- What follows a numbered reference is not longer than what it is part of. -/
theorem length_codeReference {s rest : Text} {code : Nat}
    (h : codeReference? s = some (code, rest)) : rest.length ≤ s.length := by
  have behind {p : Char → Bool} {t : Text} {n : Nat} (ht : t.length ≤ s.length)
      (h : (afterCode? (t.dropWhile p)).map (fun rest => (n, rest)) = some (code, rest)) :
      rest.length ≤ s.length := by
    obtain ⟨r, hr, he⟩ := Option.map_eq_some_iff.1 h
    simp only [Prod.mk.injEq] at he
    have h₁ := length_afterCode hr
    have h₂ := (List.dropWhile_sublist (l := t) p).length_le
    rw [← he.2]
    omega
  simp only [codeReference?] at h
  split at h
  · split at h
    · split at h
      · exact behind (by simp) h
      · simp at h
    · simp at h
  · exact behind (Nat.le_refl _) h

/-- What follows a named reference is not longer than what it is part of. -/
theorem length_nameReference {s rest name : Text}
    (h : nameReference? s = some (name, rest)) : rest.length ≤ s.length := by
  have h₁ := (List.dropWhile_sublist (l := s) isReferenceNameChar).length_le
  have h₂ := (List.takeWhile_sublist (l := s) isReferenceNameChar).length_le
  simp only [nameReference?] at h
  split at h
  · split at h
    · next hd =>
      rw [hd] at h₁
      simp only [Option.some.injEq, Prod.mk.injEq] at h
      simp only [List.length_cons] at h₁
      rw [← h.2]
      omega
    · next hd =>
      rw [hd] at h₁
      simp only [Option.some.injEq, Prod.mk.injEq] at h
      rw [← h.2]
      exact h₁
    · split at h
      · simp only [Option.some.injEq, Prod.mk.injEq] at h
        rw [← h.2]
        simp only [List.length_drop]
        omega
      · simp at h
  · simp at h

/-- What follows a word is not longer than what it is part of. -/
theorem length_afterWord {word s rest : Text} {exact' : Bool}
    (h : afterWord? word s = some (exact', rest)) : rest.length ≤ s.length := by
  induction word generalizing s exact' with
  | nil => simp_all [afterWord?]
  | cons p ps ih =>
    cases s with
    | nil => simp [afterWord?] at h
    | cons c cs =>
      simp only [afterWord?] at h
      split at h
      · obtain ⟨⟨e, r⟩, hr, he⟩ := Option.map_eq_some_iff.1 h
        simp only [Prod.mk.injEq] at he
        obtain ⟨_, rfl⟩ := he
        exact Nat.le_succ_of_le (ih hr)
      · simp at h

/-- What follows the end tag of an element with raw text is shorter than what the tag is part of. -/
theorem length_afterRawEnd {raw : RawElement} {s rest : Text}
    (h : (afterRawEnd? raw s).map (·.2) = some rest) : rest.length < s.length := by
  obtain ⟨⟨e, r⟩, hr, he⟩ := Option.map_eq_some_iff.1 h
  simp only at he
  subst he
  simp only [afterRawEnd?] at hr
  split at hr
  · next t =>
    have h₁ := Text.length_dropBlanks_le t
    split at hr
    · next behind hw =>
      have h₂ := length_afterWord hw
      have h₃ := Text.length_dropBlanks_le behind
      split at hr
      · next hd =>
        rw [hd] at h₃
        simp only [Option.some.injEq, Prod.mk.injEq] at hr
        obtain ⟨_, rfl⟩ := hr
        simp only [List.length_cons] at h₃ ⊢
        omega
      · simp at hr
    · simp at hr
  · simp at hr

/-- **A step takes something away**: what it leaves to read on is shorter than what there was. -/
theorem length_of_step {final : Bool} {raw raw' : Option RawElement} {s rest : Text}
    {tokens : List Token} (h : step final raw s = .next tokens raw' rest) :
    rest.length < s.length := by
  simp only [step] at h
  split at h
  · simp at h
  · next raw c cs =>
    simp only [rawStep] at h
    split at h
    · simp at h
    · next hc =>
      have := Text.length_of_cutWhere length_afterRawEnd hc
      split at h <;> simp only [Step.next.injEq] at h <;> rw [← h.2.2] <;> exact this
  · next t =>
    simp only [bracketStep] at h
    split at h
    · next hc =>
      have := Construct.ofBracket_leaves hc
      simp only [Step.next.injEq] at h
      simp only [Construct.LeavesAtMost] at this
      rw [← h.2.2, List.length_cons]
      omega
    · simp at h
    · split at h
      · simp only [Step.next.injEq] at h
        have := length_unfinished_le t
        rw [← h.2.2, List.length_cons]
        omega
      · simp at h
    · split at h
      · simp at h
      · simp only [Step.next.injEq] at h
        rw [← h.2.2, List.length_cons]
        omega
  · next t =>
    simp only [ampersandStep] at h
    split at h
    · next digits =>
      split at h
      · next hc =>
        have := length_codeReference hc
        split at h
        · simp at h
        · simp only [Step.next.injEq] at h
          rw [← h.2.2, List.length_cons, List.length_cons]
          omega
      · split at h <;> simp at h
    · split at h
      · next hc =>
        have := length_nameReference hc
        simp only [Step.next.injEq] at h
        rw [← h.2.2, List.length_cons]
        omega
      · split at h
        · split at h <;> simp at h
        · split at h
          · simp at h
          · simp only [Step.next.injEq] at h
            rw [← h.2.2, List.length_cons]
            omega
  · next c cs hlt hamp =>
    simp only [Step.next.injEq] at h
    have hd : (c :: cs).dropWhile isDataChar = cs.dropWhile isDataChar := by
      rw [List.dropWhile_cons_of_pos]
      simp only [isDataChar, Bool.not_eq_true', Bool.or_eq_false_iff, beq_eq_false_iff_ne]
      exact ⟨fun hc => hlt hc, fun hc => hamp hc⟩
    rw [← h.2.2, hd, List.length_cons]
    exact Nat.lt_succ_of_le (List.dropWhile_sublist _).length_le

/-! ### Runs -/

/-- **The outcome of a run**. -/
structure Run where
  /-- The tokens that were read. -/
  tokens : List Token
  /-- The element whose raw text the run stopped in. -/
  raw : Option RawElement
  /-- What is left. -/
  rest : Text

/-- A run over a text. -/
def runFrom (final : Bool) (raw : Option RawElement) (s : Text) : Except Rejection Run :=
  match _h : step final raw s with
  | .next tokens raw' rest =>
    match runFrom final raw' rest with
    | .ok following => .ok { following with tokens := tokens ++ following.tokens }
    | .error rejection => .error rejection
  | .stop tokens rest => .ok ⟨tokens, raw, rest⟩
  | .refused rejection => .error rejection
termination_by s.length
decreasing_by exact length_of_step _h

/-- **The tokens of a text**: those of the two runs, and what the second run leaves as text. -/
def tokens (html : Text) : Except Rejection (List Token) :=
  match runFrom false none html with
  | .error rejection => .error rejection
  | .ok first =>
    match runFrom true first.raw first.rest with
    | .error rejection => .error rejection
    | .ok second =>
      .ok (first.tokens ++ second.tokens
        ++ if second.raw.isNone then textToken second.rest else [])

end Markup
end TemplateBindings
