import TemplateBindings.Identifier
import TemplateBindings.Proofs.Text.Case
import TemplateBindings.Proofs.Text.Pieces

/-!
# When camel case is an identifier

Camel case drops hyphens and changes case, and does nothing else. So a text has an identifier for its
camel case just when its characters have plain forms and the first that is no hyphen is no digit
(`TemplateBindings.Identifier.isIdentifier_camel_iff`). Almost all characters with plain forms are
those of identifiers; the others are the few that case mappings bring into ASCII, such as the long s.
-/

namespace TemplateBindings
namespace Identifier

variable {c d : Char} {s : Text}

/-! ### Characters of identifiers -/

theorem isAsciiLetter_iff : Text.isAsciiLetter c = true ↔
    97 ≤ c.toNat ∧ c.toNat ≤ 122 ∨ 65 ≤ c.toNat ∧ c.toNat ≤ 90 := by
  simp only [Text.isAsciiLetter, Bool.or_eq_true, Bool.and_eq_true, decide_eq_true_eq, Char.le_def,
    UInt32.le_iff_toNat_le]
  rfl

theorem isAsciiDigit_iff : Text.isAsciiDigit c = true ↔ 48 ≤ c.toNat ∧ c.toNat ≤ 57 := by
  simp only [Text.isAsciiDigit, Bool.and_eq_true, decide_eq_true_eq, Char.le_def,
    UInt32.le_iff_toNat_le]
  rfl

/-- A letter opens an identifier, and is no digit. -/
theorem of_isAsciiLetter (h : Text.isAsciiLetter c = true) :
    isInner c = true ∧ Text.isAsciiDigit c = false := by
  refine ⟨by simp [isInner, isOpening, h], Bool.eq_false_iff.2 fun hdigit => ?_⟩
  rw [isAsciiLetter_iff] at h
  rw [isAsciiDigit_iff] at hdigit
  omega

theorem toNat_of_isInner (h : isInner c = true) : 0 < c.toNat ∧ c.toNat < 128 := by
  simp only [isInner, isOpening, Bool.or_eq_true, beq_iff_eq, isAsciiLetter_iff,
    isAsciiDigit_iff] at h
  rcases h with ((h | rfl) | rfl) | h
  · omega
  · decide
  · decide
  · omega

/-- An identifier opens with any of its characters but a digit. -/
theorem isOpening_iff : isOpening c = true ↔ isInner c = true ∧ Text.isAsciiDigit c = false := by
  constructor
  · intro h
    refine ⟨by rw [isInner, h, Bool.true_or], ?_⟩
    simp only [isOpening, Bool.or_eq_true, beq_iff_eq] at h
    rcases h with (h | rfl) | rfl
    · exact (of_isAsciiLetter h).2
    · decide
    · decide
  · rintro ⟨hinner, hdigit⟩
    rwa [isInner, hdigit, Bool.or_false] at hinner

/-- **Identifiers** are made of their characters and do not begin with a digit. -/
theorem isIdentifier_iff : isIdentifier s = true ↔
    s.all isInner = true ∧ ∃ c, s.head? = some c ∧ Text.isAsciiDigit c = false := by
  cases s with
  | nil => simp
  | cons c s =>
    simp only [isIdentifier, Bool.and_eq_true, isOpening_iff, List.all_cons, List.head?_cons,
      Option.some.injEq, exists_eq_left']
    exact and_right_comm

/-- A character stays in small letters, or is a letter and becomes one. -/
theorem toLower_cases (c : Char) : c.toLower = c ∨
    Text.isAsciiLetter c = true ∧ Text.isAsciiLetter c.toLower = true := by
  delta Char.toLower
  split
  · next h =>
    refine .inr ?_
    simp only [ge_iff_le, UInt32.le_iff_toNat_le, UInt32.reduceToNat, Char.reduceVal] at h
    simp only [isAsciiLetter_iff, Char.toNat, UInt32.toNat_add, UInt32.toNat_sub,
      UInt32.reduceToNat, Char.reduceVal]
    omega
  · exact .inl rfl

theorem toUpper_cases (c : Char) : c.toUpper = c ∨
    Text.isAsciiLetter c = true ∧ Text.isAsciiLetter c.toUpper = true := by
  delta Char.toUpper
  split
  · next h =>
    refine .inr ?_
    simp only [UInt32.le_iff_toNat_le, UInt32.reduceToNat, Char.reduceVal] at h
    simp only [isAsciiLetter_iff, Char.toNat, UInt32.toNat_add, UInt32.toNat_sub,
      UInt32.reduceToNat, Char.reduceVal]
    omega
  · exact .inl rfl

/-! ### Plain forms -/

/-- The characters outside ASCII whose form is of characters of identifiers: in capitals the dotless
i, the long s and the ligatures, in small letters the sign of the kelvin. -/
def outsiders (capital : Bool) : Text :=
  if capital then "ıſßﬀﬁﬂﬃﬄﬅﬆ".toList else ['\u212a']

/-- The form that camel case gives a character, a capital sigma apart. -/
def form (capital : Bool) (c : Char) : Text := if capital then Text.upperChar c else Text.lowerChar c

/-- Whether the form of a character is of characters of identifiers. -/
def hasPlainForm (capital : Bool) (c : Char) : Bool := isInner c || (outsiders capital).contains c

theorem form_of_mem_outsiders (capital : Bool) : ∀ c ∈ outsiders capital,
    (form capital c).all isInner = true ∧
      (form capital c).head?.map Text.isAsciiDigit = some (Text.isAsciiDigit c) := by
  cases capital <;> exact Text.forall_mem_of_all (by decide +kernel)

theorem mem_outsiders {capital : Bool} (hc : 128 ≤ c.toNat)
    (h : (form capital c).all isInner = true) : c ∈ outsiders capital := by
  cases capital with
  | false =>
    rw [form, if_neg Bool.false_ne_true, Text.lowerChar, if_neg (Nat.not_lt.2 hc)] at h
    exact Text.mem_of_all_mapByTables (fun c => toNat_of_isInner) (by decide +kernel)
      (by decide +kernel) hc h
  | true =>
    rw [form, if_pos rfl, Text.upperChar, if_neg (Nat.not_lt.2 hc)] at h
    exact Text.mem_of_all_mapByTables (fun c => toNat_of_isInner) (by decide +kernel)
      (by decide +kernel) hc h

/-- An ASCII character stays in its form, or is a letter and becomes one. -/
theorem form_ascii (capital : Bool) (hc : c.toNat < 128) : form capital c = [c] ∨
    Text.isAsciiLetter c = true ∧ ∃ d, form capital c = [d] ∧ Text.isAsciiLetter d = true := by
  cases capital with
  | false =>
    rw [form, if_neg Bool.false_ne_true, Text.lowerChar, if_pos hc]
    exact (toLower_cases c).imp (congrArg ([·])) fun ⟨h, h'⟩ => ⟨h, _, rfl, h'⟩
  | true =>
    rw [form, if_pos rfl, Text.upperChar, if_pos hc]
    exact (toUpper_cases c).imp (congrArg ([·])) fun ⟨h, h'⟩ => ⟨h, _, rfl, h'⟩

/-- **The characters with plain forms** are those of identifiers and the outsiders. -/
theorem all_form (capital : Bool) (c : Char) :
    (form capital c).all isInner = hasPlainForm capital c := by
  by_cases hc : c.toNat < 128
  · have hinside : c ∉ outsiders capital := fun hm => by
      have hhigh : ∀ c ∈ outsiders capital, 128 ≤ c.toNat := by
        cases capital <;> exact Text.forall_mem_of_all (by decide)
      exact absurd (hhigh c hm) (Nat.not_le.2 hc)
    have hplain : hasPlainForm capital c = isInner c := by
      rw [hasPlainForm, Bool.or_eq_left_iff_imp]
      intro hm
      exact absurd (List.contains_iff_mem.1 hm) hinside
    rcases form_ascii capital hc with hform | ⟨hletter, d, hform, hd⟩
    · rw [hform, hplain, List.all_cons, List.all_nil, Bool.and_true]
    · rw [hform, hplain, (of_isAsciiLetter hletter).1, List.all_cons, (of_isAsciiLetter hd).1]
      rfl
  · have hinner : isInner c = false := Bool.eq_false_iff.2 fun h => hc (toNat_of_isInner h).2
    rw [Bool.eq_iff_iff, hasPlainForm, hinner, Bool.false_or, List.contains_iff_mem]
    exact ⟨mem_outsiders (Nat.le_of_not_lt hc), fun h => (form_of_mem_outsiders capital c h).1⟩

/-- A plain form begins with a digit just when it is the form of one. -/
theorem head?_form {capital : Bool} (h : hasPlainForm capital c = true) :
    (form capital c).head?.map Text.isAsciiDigit = some (Text.isAsciiDigit c) := by
  rw [hasPlainForm, Bool.or_eq_true, List.contains_iff_mem] at h
  rcases h with h | h
  · rcases form_ascii capital (toNat_of_isInner h).2 with hform | ⟨hletter, d, hform, hd⟩
    · rw [hform, List.head?_cons, Option.map_some]
    · rw [hform, (of_isAsciiLetter hletter).2, List.head?_cons, Option.map_some,
        (of_isAsciiLetter hd).2]
  · exact (form_of_mem_outsiders capital c h).2

/-! ### Segments -/

/-- Whether all characters of a text have plain forms in its camel case. -/
def hasPlainForms : (capital : Bool) → Text → Bool
  | _, [] => true
  | capital, c :: rest =>
    if c = '-' then hasPlainForms true rest else hasPlainForm capital c && hasPlainForms false rest

/-- The camel case of one segment: the first of a text is not capitalised. -/
def segmentForm (capital : Bool) (segment : Text) : Text :=
  if capital then capitalised segment else Text.lower segment

/-- The camel case of segments. -/
def segmentsForm (capital : Bool) : List Text → Text
  | [] => []
  | segment :: rest => segmentForm capital segment ++ rest.flatMap capitalised

theorem camel_eq (s : Text) : camel s = segmentsForm false (Text.pieces '-' s) := by
  rw [camel]
  split
  · next h => exact absurd h (Text.pieces_ne_nil '-' s)
  · next h => rw [h]; rfl

/-- The form of a hyphen is nothing, but what follows is capitalised. -/
theorem segmentsForm_hyphen (capital : Bool) (s : Text) :
    segmentsForm capital (Text.pieces '-' ('-' :: s)) = segmentsForm true (Text.pieces '-' s) := by
  rw [Text.pieces, if_pos rfl, segmentsForm]
  cases h : Text.pieces '-' s with
  | nil => exact absurd h (Text.pieces_ne_nil '-' s)
  | cons segment rest => cases capital <;> rfl

theorem all_lower (s : Text) : (Text.lower s).all isInner = s.all (hasPlainForm false) := by
  rw [Text.all_lower (by decide) (by decide)]
  exact congrArg s.all (funext fun c => all_form false c)

theorem all_segmentForm_cons (capital : Bool) (c : Char) (s : Text) :
    (segmentForm capital (c :: s)).all isInner =
      (hasPlainForm capital c && s.all (hasPlainForm false)) := by
  cases capital with
  | false => rw [segmentForm, if_neg Bool.false_ne_true, all_lower, List.all_cons]
  | true =>
    rw [segmentForm, if_pos rfl, capitalised, List.all_append, List.drop_one, List.tail_cons,
      all_lower, ← all_form, List.take_succ_cons, List.take_zero, Text.upper, List.flatMap_singleton,
      form, if_pos rfl]

/-- **The camel case of a text has characters of identifiers only** if all its characters have plain
forms. -/
theorem all_segmentsForm (capital : Bool) (s : Text) :
    (segmentsForm capital (Text.pieces '-' s)).all isInner = hasPlainForms capital s := by
  induction s generalizing capital with
  | nil => cases capital <;> rfl
  | cons c s ih =>
    rw [hasPlainForms]
    split
    · next hc => rw [hc, segmentsForm_hyphen, ih]
    · next hc =>
      have hrest := ih false
      rw [Text.pieces, if_neg hc]
      cases h : Text.pieces '-' s with
      | nil => exact absurd h (Text.pieces_ne_nil '-' s)
      | cons segment rest =>
        rw [h, segmentsForm, segmentForm, if_neg Bool.false_ne_true, List.all_append,
          all_lower] at hrest
        rw [List.modifyHead_cons, segmentsForm, List.all_append, all_segmentForm_cons,
          Bool.and_assoc, hrest]

/-- It begins with a digit just when the first character that is no hyphen is one. -/
theorem head?_segmentsForm {capital : Bool} (h : hasPlainForms capital s = true) :
    (segmentsForm capital (Text.pieces '-' s)).head?.map Text.isAsciiDigit =
      (s.find? (· ≠ '-')).map Text.isAsciiDigit := by
  induction s generalizing capital with
  | nil => cases capital <;> rfl
  | cons c s ih =>
    rw [hasPlainForms] at h
    split at h
    · next hc =>
      subst hc
      rw [segmentsForm_hyphen, ih h, List.find?_cons_of_neg (by simp)]
    · next hc =>
      rw [Bool.and_eq_true] at h
      have hhead := head?_form h.1
      rw [List.find?_cons_of_pos (by simpa using hc), Option.map_some, ← hhead, Text.pieces,
        if_neg hc]
      cases hs : Text.pieces '-' s with
      | nil => exact absurd hs (Text.pieces_ne_nil '-' s)
      | cons segment rest =>
        obtain ⟨d, image, himage⟩ : ∃ d image, form capital c = d :: image := by
          cases himage : form capital c with
          | nil => rw [himage] at hhead; cases hhead
          | cons d image => exact ⟨d, image, rfl⟩
        have hsegment : ∃ after, segmentForm capital (c :: segment) = form capital c ++ after := by
          cases capital with
          | false =>
            -- the small form of a sigma depends on its neighbours, but it has no plain form
            have hsigma : c ≠ 'Σ' := by
              rintro rfl
              exact absurd h.1 (by decide)
            exact ⟨_, by rw [segmentForm, if_neg Bool.false_ne_true, Text.lower, Text.lowerFrom,
              if_neg hsigma]; rfl⟩
          | true =>
            exact ⟨Text.lower segment, by simp [segmentForm, capitalised, Text.upper, form]⟩
        obtain ⟨after, hafter⟩ := hsegment
        rw [List.modifyHead_cons, segmentsForm, hafter, himage]
        rfl

/-! ### Camel case -/

/-- Whether a text opens, its hyphens apart, with something else than a digit. -/
def OpensWithoutDigit (s : Text) : Prop :=
  ∃ c, s.find? (· ≠ '-') = some c ∧ Text.isAsciiDigit c = false

/-- **When camel case is an identifier.** -/
theorem isIdentifier_camel_iff : isIdentifier (camel s) = true ↔
    hasPlainForms false s = true ∧ OpensWithoutDigit s := by
  rw [isIdentifier_iff, camel_eq, all_segmentsForm]
  refine and_congr_right fun h => ?_
  have hhead := head?_segmentsForm h
  have hiff (o : Option Char) : (∃ c, o = some c ∧ Text.isAsciiDigit c = false) ↔
      o.map Text.isAsciiDigit = some false := by
    rw [Option.map_eq_some_iff]
  rw [OpensWithoutDigit, hiff, hiff, hhead]

/-- An identifier has plain forms, and opens with none that is a digit. -/
theorem hasPlainForms_of_isIdentifier (h : isIdentifier s = true) :
    hasPlainForms false s = true ∧ OpensWithoutDigit s := by
  obtain ⟨hall, c, hc, hdigit⟩ := isIdentifier_iff.1 h
  have hhyphen {d : Char} (hd : isInner d = true) : d ≠ '-' := by
    rintro rfl
    exact absurd hd (by decide)
  have hforms (s : Text) (hs : s.all isInner = true) : hasPlainForms false s = true := by
    induction s with
    | nil => rfl
    | cons d s ih =>
      rw [List.all_cons, Bool.and_eq_true] at hs
      rw [hasPlainForms, if_neg (hhyphen hs.1), hasPlainForm, hs.1, ih hs.2]
      rfl
  refine ⟨hforms s hall, c, ?_, hdigit⟩
  cases s with
  | nil => cases hc
  | cons d s =>
    rw [List.all_cons, Bool.and_eq_true] at hall
    rw [List.find?_cons_of_pos (by simpa using hhyphen hall.1), ← hc, List.head?_cons]

/-- Where the characters of a camel case come from. -/
theorem of_mem_camel (h : d ∈ camel s) :
    d = 'σ' ∨ d = 'ς' ∨ ∃ c ∈ s, ∃ capital, d ∈ form capital c := by
  have hlower {t : Text} (ht : ∀ c ∈ t, c ∈ s) (h : d ∈ Text.lower t) :
      d = 'σ' ∨ d = 'ς' ∨ ∃ c ∈ s, ∃ capital, d ∈ form capital c :=
    (Text.of_mem_lower h).imp_right (.imp_right fun ⟨c, hc, h⟩ => ⟨c, ht c hc, false, h⟩)
  have hpieces {t : Text} (ht : t ∈ Text.pieces '-' s) : ∀ c ∈ t, c ∈ s :=
    fun c hc => Text.mem_of_mem_pieces ht hc
  rw [camel] at h
  split at h
  · cases h
  · next first rest hs =>
    rcases List.mem_append.1 h with h | h
    · exact hlower (hpieces (hs ▸ List.mem_cons_self)) h
    · obtain ⟨t, ht, h⟩ := List.mem_flatMap.1 h
      have ht := hpieces (hs ▸ List.mem_cons_of_mem first ht)
      rcases List.mem_append.1 h with h | h
      · obtain ⟨c, hc, h⟩ := List.mem_flatMap.1 h
        exact .inr (.inr ⟨c, ht c (List.mem_of_mem_take hc), true, h⟩)
      · exact hlower (fun c hc => ht c (List.mem_of_mem_drop hc)) h

end Identifier
end TemplateBindings
