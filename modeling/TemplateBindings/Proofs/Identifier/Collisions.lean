import Mathlib
import TemplateBindings.Proofs.Identifier.Camel

/-!
# When camel case collides

Camel case forgets hyphens and the case of letters, except that a letter behind a hyphen is a capital
one. So of a text in ASCII it keeps exactly this: the characters that are no hyphens, in small letters,
and which of the letters among them stand behind a hyphen. Texts that agree in this collide
(`TemplateBindings.Identifier.camel_eq_camel_iff`). Of a digit or an underscore nothing can be seen, so
a hyphen before one is lost.

The walk over the text that camel case is (`TemplateBindings.Identifier.camel_eq_map`) marks each
character with whether it stands behind a hyphen, and both sides are read off the marks.
-/

namespace TemplateBindings
namespace Identifier

variable {a b s : Text} {c d : Char} {after capital : Bool} {i : Nat}

/-! ### Collisions -/

/-- A text without its hyphens, in small letters. -/
def bare (s : Text) : Text := Text.lower (s.filter (· ≠ '-'))

/-- **A place behind a hyphen**: the character there stands directly behind one. Places are counted
without the hyphens. -/
def BehindHyphen (s : Text) (i : Nat) : Prop :=
  ∃ before c rest, s = before ++ '-' :: c :: rest ∧ c ≠ '-' ∧
    (before.filter (· ≠ '-')).length = i

/-- **Texts that collide**: without hyphens and in small letters they are the same, and each letter of
it stands behind a hyphen in both or in neither. -/
def Collide (a b : Text) : Prop :=
  bare a = bare b ∧
    ∀ i c, (bare a)[i]? = some c → Text.isAsciiLetter c = true →
      (BehindHyphen a i ↔ BehindHyphen b i)

/-! ### Characters -/

/-- The form of a marked character: a capital letter where the mark is set, else a small one. -/
def cased (p : Char × Bool) : Char := if p.2 then p.1.toUpper else p.1.toLower

theorem isAsciiLetter_eq_isAlpha (c : Char) : Text.isAsciiLetter c = c.isAlpha := by
  rw [Bool.eq_iff_iff, isAsciiLetter_iff]
  simp only [Char.isAlpha, Char.isUpper, Char.isLower, Bool.or_eq_true, Bool.and_eq_true,
    decide_eq_true_eq, UInt32.le_iff_toNat_le]
  exact or_comm

theorem toLower_cased (p : Char × Bool) : (cased p).toLower = p.1.toLower := by
  rw [cased]
  split
  · exact Char.toLower_toUpper_eq_toLower _
  · exact Char.toLower_toLower_eq_toLower _

/-- The form of a letter shows the mark. -/
theorem isUpper_cased {p : Char × Bool} (h : p.1.isAlpha = true) : (cased p).isUpper = p.2 := by
  obtain ⟨c, mark⟩ := p
  cases mark with
  | false => exact Char.isUpper_toLower_eq_false c
  | true => exact (Char.isUpper_toUpper_eq_isAlpha c).trans h

/-- The form of anything else does not. -/
theorem cased_of_not_isAlpha {p : Char × Bool} (h : ¬ p.1.isAlpha = true) : cased p = p.1.toLower := by
  obtain ⟨c, mark⟩ := p
  rw [Char.isAlpha, Bool.or_eq_true, not_or] at h
  have hupper : c.toUpper = c := Char.toUpper_eq_of_not_isLower h.2
  have hlower : c.toLower = c := Char.toLower_eq_of_not_isUpper h.1
  cases mark with
  | false => rfl
  | true => exact hupper.trans hlower.symm

/-- **Forms are the same** for the same character and, on a letter, the same mark. -/
theorem cased_eq_iff (p q : Char × Bool) : cased p = cased q ↔
    p.1.toLower = q.1.toLower ∧ (p.1.toLower.isAlpha = true → p.2 = q.2) := by
  have halpha (h : p.1.toLower = q.1.toLower) : p.1.isAlpha = q.1.isAlpha := by
    rw [← Char.isAlpha_toLower_eq_isAlpha, h, Char.isAlpha_toLower_eq_isAlpha]
  rw [Char.isAlpha_toLower_eq_isAlpha]
  constructor
  · intro h
    have hlower : p.1.toLower = q.1.toLower := by rw [← toLower_cased, h, toLower_cased]
    refine ⟨hlower, fun hp => ?_⟩
    rw [← isUpper_cased hp, h, isUpper_cased (halpha hlower ▸ hp)]
  · rintro ⟨hlower, hmark⟩
    by_cases hp : p.1.isAlpha = true
    · have hupper : p.1.toUpper = q.1.toUpper := by
        rw [← Char.toUpper_toLower_eq_toUpper, hlower, Char.toUpper_toLower_eq_toUpper]
      rw [cased, cased, hmark hp, hlower, hupper]
    · rw [cased_of_not_isAlpha hp, cased_of_not_isAlpha (halpha hlower ▸ hp), hlower]

/-! ### Marks -/

/-- **The characters that are no hyphens, marked** with whether they stand behind one; `after` says it
of the first character. -/
def marked : (after : Bool) → Text → List (Char × Bool)
  | _, [] => []
  | after, c :: s => if c = '-' then marked true s else (c, after) :: marked false s

theorem lower_ascii (hs : ∀ c ∈ s, c.toNat < 128) : Text.lower s = s.map Char.toLower := by
  have hfrom (before : Text) : Text.lowerFrom before s = s.map Char.toLower := by
    induction s generalizing before with
    | nil => rfl
    | cons c s ih =>
      have hc := hs c List.mem_cons_self
      have hsigma : c ≠ 'Σ' := by
        rintro rfl
        exact absurd hc (by decide)
      rw [Text.lowerFrom, if_neg hsigma, Text.lowerChar, if_pos hc,
        ih (fun d hd => hs d (List.mem_cons_of_mem c hd))]
      rfl
  exact hfrom []

/-- Without hyphens and in small letters a text is what is marked in it. -/
theorem bare_eq_map (hs : ∀ c ∈ s, c.toNat < 128) (after : Bool) :
    bare s = (marked after s).map fun p => p.1.toLower := by
  rw [bare, lower_ascii fun c hc => hs c (List.mem_filter.1 hc).1]
  clear hs
  induction s generalizing after with
  | nil => rfl
  | cons c s ih =>
    rw [marked]
    by_cases hc : c = '-'
    · rw [if_pos hc, List.filter_cons_of_neg (by simpa using hc), ih]
    · rw [if_neg hc, List.filter_cons_of_pos (by simpa using hc), List.map_cons, List.map_cons, ih]

theorem segmentForm_cons (hc : c.toNat < 128) (hs : ∀ d ∈ s, d.toNat < 128) :
    segmentForm capital (c :: s) = cased (c, capital) :: Text.lower s := by
  cases capital with
  | false =>
    rw [segmentForm, if_neg Bool.false_ne_true, lower_ascii (List.forall_mem_cons.2 ⟨hc, hs⟩),
      lower_ascii hs]
    rfl
  | true =>
    rw [segmentForm, if_pos rfl, capitalised, List.take_succ_cons, List.take_zero, Text.upper,
      List.flatMap_singleton, Text.upperChar, if_pos hc]
    rfl

/-- **Camel case** gives each marked character its form. -/
theorem segmentsForm_eq_map (hs : ∀ c ∈ s, c.toNat < 128) (capital : Bool) :
    segmentsForm capital (Text.pieces '-' s) = (marked capital s).map cased := by
  induction s generalizing capital with
  | nil => cases capital <;> rfl
  | cons c s ih =>
    obtain ⟨hc, hs⟩ := List.forall_mem_cons.1 hs
    rw [marked]
    by_cases hhyphen : c = '-'
    · rw [if_pos hhyphen, hhyphen, segmentsForm_hyphen, ih hs]
    · have hrest := ih hs false
      rw [if_neg hhyphen, Text.pieces, if_neg hhyphen, List.map_cons, ← hrest]
      cases h : Text.pieces '-' s with
      | nil => exact absurd h (Text.pieces_ne_nil '-' s)
      | cons segment rest =>
        have hsegment : ∀ d ∈ segment, d.toNat < 128 := fun d hd =>
          hs d (Text.mem_of_mem_pieces (h ▸ List.mem_cons_self) hd)
        rw [List.modifyHead_cons, segmentsForm, segmentForm_cons hc hsegment, segmentsForm,
          segmentForm, if_neg Bool.false_ne_true, List.cons_append]

theorem camel_eq_map (hs : ∀ c ∈ s, c.toNat < 128) : camel s = (marked false s).map cased := by
  rw [camel_eq, segmentsForm_eq_map hs]

/-! ### Places -/

/-- A place is behind a hyphen that opens the text, or it is behind one of the rest. -/
theorem behindHyphen_cons : BehindHyphen (c :: s) i ↔
    (c = '-' ∧ i = 0 ∧ ∃ d rest, s = d :: rest ∧ d ≠ '-') ∨
      ∃ j, BehindHyphen s j ∧ i = j + if c = '-' then 0 else 1 := by
  constructor
  · rintro ⟨before, d, rest, hs, hd, hi⟩
    cases before with
    | nil =>
      obtain ⟨rfl, rfl⟩ := List.cons.inj hs
      exact .inl ⟨rfl, hi.symm, d, rest, rfl, hd⟩
    | cons e before =>
      obtain ⟨rfl, rfl⟩ := List.cons.inj hs
      refine .inr ⟨_, ⟨before, d, rest, rfl, hd, rfl⟩, ?_⟩
      rw [← hi]
      split
      · next he => rw [List.filter_cons_of_neg (by simpa using he), Nat.add_zero]
      · next he => rw [List.filter_cons_of_pos (by simpa using he), List.length_cons]
  · rintro (⟨rfl, rfl, d, rest, rfl, hd⟩ | ⟨j, ⟨before, d, rest, rfl, hd, rfl⟩, rfl⟩)
    · exact ⟨[], d, rest, rfl, hd, rfl⟩
    · refine ⟨c :: before, d, rest, rfl, hd, ?_⟩
      split
      · next hc => rw [List.filter_cons_of_neg (by simpa using hc), Nat.add_zero]
      · next hc => rw [List.filter_cons_of_pos (by simpa using hc), List.length_cons]

/-- **The places that are marked** are those behind a hyphen, and the first one if that is asked for. -/
theorem exists_marked_iff (after : Bool) (s : Text) (i : Nat) :
    (∃ c, (marked after s)[i]? = some (c, true)) ↔
      BehindHyphen s i ∨ after = true ∧ i = 0 ∧ ∃ d rest, s = d :: rest ∧ d ≠ '-' := by
  induction s generalizing after i with
  | nil => simp [marked, BehindHyphen]
  | cons c s ih =>
    rw [marked, behindHyphen_cons]
    by_cases hc : c = '-'
    · subst hc
      simp only [if_true, ih, Nat.add_zero, exists_eq_right']
      simp [or_comm]
    · rw [if_neg hc]
      cases i with
      | zero => simp [hc]
      | succ i => simp [hc, ih]

theorem behindHyphen_iff : BehindHyphen s i ↔ ∃ c, (marked false s)[i]? = some (c, true) := by
  rw [exists_marked_iff]
  simp

/-! ### Camel case -/

/-- What two marked characters, or places without one, have in common. -/
theorem map_cased_eq_iff (p q : Option (Char × Bool)) : p.map cased = q.map cased ↔
    (p.map fun p => p.1.toLower) = (q.map fun q => q.1.toLower) ∧
      ∀ c, (p.map fun p => p.1.toLower) = some c → Text.isAsciiLetter c = true →
        ((∃ d, p = some (d, true)) ↔ ∃ d, q = some (d, true)) := by
  rcases p with _ | ⟨c, mark⟩ <;> rcases q with _ | ⟨d, mark'⟩
  · simp
  · simp
  · simp
  · simp only [Option.map_some, Option.some.injEq, cased_eq_iff, forall_eq', Prod.mk.injEq,
      exists_eq_left', isAsciiLetter_eq_isAlpha, ← Bool.eq_iff_iff]

/-- **When camel case collides.** Texts in ASCII have the same camel case if and only if they collide. -/
theorem camel_eq_camel_iff (ha : ∀ c ∈ a, c.toNat < 128) (hb : ∀ c ∈ b, c.toNat < 128) :
    camel a = camel b ↔ Collide a b := by
  rw [Collide, camel_eq_map ha, camel_eq_map hb, bare_eq_map ha false, bare_eq_map hb false,
    List.ext_getElem?_iff, List.ext_getElem?_iff, ← forall_and]
  refine forall_congr' fun i => ?_
  simp only [List.getElem?_map, behindHyphen_iff]
  exact map_cased_eq_iff _ _

end Identifier
end TemplateBindings
