import TemplateBindings.Stylesheet.ClassNames
import TemplateBindings.Proofs.Text.Distinct

/-!
# The dots that select

The class names of a stylesheet are read region by region, from its end to its beginning. Here they are
described by the places of the dots alone: a dot **selects** if the first brace behind it opens a rule,
and the class names are what follows the selecting dots, the last dot first
(`TemplateBindings.Stylesheet.classNames_eq_places`). A region is thus never looked for: nested rules,
braces without a partner and text behind the last rule need no clause of their own.

The two sides meet in `TemplateBindings.Stylesheet.selected`, which reads a text once from its beginning
and asks at each dot which brace comes next.
-/

namespace TemplateBindings
namespace Stylesheet

variable {c : Char} {css s t rest region tail : Text}

/-! ### Places -/

/-- The braces. -/
def isBrace (c : Char) : Bool := c == '{' || c == '}'

/-- The first brace of a text. -/
def nextBrace? (s : Text) : Option Char := s.find? isBrace

/-- **A selecting dot**: the first brace behind it is there and opens a rule. -/
def Selects (css : Text) (place : Nat) : Prop :=
  css[place]? = some '.' ∧ nextBrace? (css.drop (place + 1)) = some '{'

instance (css : Text) (place : Nat) : Decidable (Selects css place) := instDecidableAnd

/-- The places of the selecting dots, the first dot first. -/
def selectingPlaces (css : Text) : List Nat :=
  (List.range css.length).filter fun place => Selects css place

/-- The longest run of characters of class names behind a place. -/
def runAfter (css : Text) (place : Nat) : Text := (css.drop (place + 1)).takeWhile isNameChar

/-! ### One reading from the beginning -/

/-- What follows the selecting dots, the first dot first. -/
def selected : Text → List Text
  | [] => []
  | c :: s =>
    if c = '.' ∧ nextBrace? s = some '{' then s.takeWhile isNameChar :: selected s else selected s

/-- The first place of a text is looked at apart from those behind it. -/
theorem selectingPlaces_cons (c : Char) (s : Text) :
    selectingPlaces (c :: s) =
      if c = '.' ∧ nextBrace? s = some '{' then 0 :: (selectingPlaces s).map Nat.succ
      else (selectingPlaces s).map Nat.succ := by
  have hfirst : Selects (c :: s) 0 ↔ c = '.' ∧ nextBrace? s = some '{' := by simp [Selects]
  have hlater (place : Nat) : Selects (c :: s) place.succ ↔ Selects s place := by simp [Selects]
  rw [selectingPlaces, List.length_cons, List.range_succ_eq_map, List.filter_cons,
    List.filter_map]
  simp only [decide_eq_true_eq, hfirst, Function.comp_def, hlater, selectingPlaces]

/-- **Reading at the places** of the selecting dots. -/
theorem map_runAfter_selectingPlaces (css : Text) :
    (selectingPlaces css).map (runAfter css) = selected css := by
  induction css with
  | nil => rfl
  | cons c s ih =>
    have hlater : ((selectingPlaces s).map Nat.succ).map (runAfter (c :: s)) = selected s := by
      rw [List.map_map, ← ih]
      rfl
    rw [selectingPlaces_cons, selected]
    split
    · rw [List.map_cons, hlater]
      rfl
    · exact hlater

/-! ### Texts put together -/

/-- A run ends in front of a character that class names do not have. -/
theorem takeWhile_append_cons (h : isNameChar c = false) (s t : Text) :
    (s ++ c :: t).takeWhile isNameChar = s.takeWhile isNameChar := by
  induction s with
  | nil => exact List.takeWhile_cons_of_neg (by simp [h])
  | cons d s ih => rw [List.cons_append, List.takeWhile_cons, List.takeWhile_cons, ih]

theorem nextBrace?_append (s t : Text) :
    nextBrace? (s ++ t) = (nextBrace? s).or (nextBrace? t) := List.find?_append

/-- No dot selects in a text that opens no rule. -/
theorem selected_of_not_mem (h : '{' ∉ s) : selected s = [] := by
  induction s with
  | nil => rfl
  | cons c s ih =>
    have hs : '{' ∉ s := fun hm => h (List.mem_cons_of_mem c hm)
    rw [selected, if_neg, ih hs]
    rintro ⟨-, hnext⟩
    exact hs (List.mem_of_find?_eq_some hnext)

/-- A closing brace keeps what stands before it apart from what stands behind it. -/
theorem selected_append_close (s t : Text) :
    selected (s ++ '}' :: t) = selected s ++ selected t := by
  induction s with
  | nil => rfl
  | cons c s ih =>
    have hnext : nextBrace? (s ++ '}' :: t) = some '{' ↔ nextBrace? s = some '{' := by
      have hclose : nextBrace? ('}' :: t) = some '}' := rfl
      rw [nextBrace?_append, hclose]
      cases nextBrace? s <;> simp
    have hrun : (s ++ '}' :: t).takeWhile isNameChar = s.takeWhile isNameChar :=
      takeWhile_append_cons (by decide) s t
    rw [List.cons_append, selected, selected, hrun, ih]
    simp only [hnext]
    split <;> rfl

/-- A text without closing braces has an opening one next, if one follows it. -/
theorem nextBrace?_append_open (h : '}' ∉ s) (t : Text) :
    nextBrace? (s ++ '{' :: t) = some '{' := by
  induction s with
  | nil => rfl
  | cons c s ih =>
    rw [List.mem_cons, not_or] at h
    rw [List.cons_append, nextBrace?, List.find?_cons]
    split
    · next hc =>
      rw [isBrace, Bool.or_eq_true, beq_iff_eq, beq_iff_eq] at hc
      rw [hc.resolve_right (Ne.symm h.1)]
    · exact ih h.2

/-! ### Regions -/

/-- The first piece of a text begins as the text does. -/
theorem takeWhile_of_pieces {piece : Text} {pieces : List Text}
    (h : Text.pieces '.' s = piece :: pieces) :
    piece.takeWhile isNameChar = s.takeWhile isNameChar := by
  induction s generalizing piece pieces with
  | nil => cases h; rfl
  | cons c s ih =>
    rw [Text.pieces] at h
    split at h
    · next hc =>
      cases h
      rw [hc]
      rfl
    · obtain ⟨first, others, hs⟩ := List.exists_cons_of_ne_nil (Text.pieces_ne_nil '.' s)
      rw [hs, List.modifyHead_cons] at h
      cases h
      rw [List.takeWhile_cons, List.takeWhile_cons, ih hs]

/-- **In a selector region every dot selects**, and none does behind the last rule. -/
theorem selected_region (hregion : '}' ∉ region) (htail : '{' ∉ tail) :
    selected (region ++ '{' :: tail) = (dottedRuns region).reverse := by
  rw [dottedRuns, List.reverse_reverse]
  induction region with
  | nil =>
    have hopen : selected ('{' :: tail) = selected tail := if_neg fun h => absurd h.1 (by decide)
    rw [List.nil_append, hopen, selected_of_not_mem htail]
    rfl
  | cons c region ih =>
    rw [List.mem_cons, not_or] at hregion
    have hnext := nextBrace?_append_open hregion.2 tail
    obtain ⟨first, others, hs⟩ := List.exists_cons_of_ne_nil (Text.pieces_ne_nil '.' region)
    rw [List.cons_append, selected, takeWhile_append_cons (by decide), ih hregion.2, hs,
      Text.pieces, hs, ← takeWhile_of_pieces hs]
    simp only [hnext, and_true]
    split <;> rfl

/-! ### The whole text -/

theorem not_mem_takeWhile_ne (stop : Char) (s : Text) : stop ∉ s.takeWhile (· ≠ stop) :=
  fun hm => by simpa using List.all_eq_true.1 List.all_takeWhile stop hm

/-- A text up to a character that is not in it. -/
theorem not_mem_of_dropWhile_eq_nil {stop : Char} (h : s.dropWhile (· ≠ stop) = []) :
    stop ∉ s := by
  rw [← List.takeWhile_append_dropWhile (p := (· ≠ stop)) (l := s), h, List.append_nil]
  exact not_mem_takeWhile_ne stop s

theorem eq_of_dropWhile_eq_cons {stop : Char} (h : s.dropWhile (· ≠ stop) = c :: rest) :
    c = stop := by
  have hfirst := List.head?_dropWhile_not (· ≠ stop) s
  rw [h] at hfirst
  simpa using hfirst

/-- A text up to the first occurrence of a character. -/
theorem eq_append_of_dropWhile_eq_cons {stop : Char} (h : s.dropWhile (· ≠ stop) = c :: rest) :
    s = s.takeWhile (· ≠ stop) ++ stop :: rest := by
  rw [← eq_of_dropWhile_eq_cons h, ← h, eq_of_dropWhile_eq_cons h,
    List.takeWhile_append_dropWhile]

/-- The last rule, what is behind it, and the rules before it. -/
theorem regionsBackwards_of_dropWhile {beforeBrace : Text}
    (h : s.dropWhile (· ≠ '{') = c :: beforeBrace) :
    regionsBackwards s =
      beforeBrace.takeWhile (· ≠ '}') :: regionsBackwards (beforeBrace.dropWhile (· ≠ '}')) := by
  rw [regionsBackwards]
  split
  · next h' => cases h.symm.trans h'
  · next h' => cases h.symm.trans h'; rfl

/-- **The regions from the end** of a text have what follows its selecting dots. -/
theorem flatMap_dottedRuns_regionsBackwards (reversed : Text) :
    ((regionsBackwards reversed).map List.reverse).flatMap dottedRuns =
      (selected reversed.reverse).reverse := by
  induction reversed using regionsBackwards.induct with
  | case1 reversed h =>
    have hnot : '{' ∉ reversed.reverse := fun hm =>
      not_mem_of_dropWhile_eq_nil h (List.mem_reverse.1 hm)
    rw [regionsBackwards, selected_of_not_mem hnot]
    split
    · rfl
    · next h' => cases h.symm.trans h'
  | case2 reversed brace beforeBrace h ih =>
    have htail : '{' ∉ (reversed.takeWhile (· ≠ '{')).reverse := fun hm =>
      not_mem_takeWhile_ne '{' reversed (List.mem_reverse.1 hm)
    have hregion : '}' ∉ (beforeBrace.takeWhile (· ≠ '}')).reverse := fun hm =>
      not_mem_takeWhile_ne '}' beforeBrace (List.mem_reverse.1 hm)
    -- what is before the region of the last rule ends with a closing brace, if there is anything
    have hbefore (t : Text) : selected ((beforeBrace.dropWhile (· ≠ '}')).reverse ++ t) =
        selected (beforeBrace.dropWhile (· ≠ '}')).reverse ++ selected t := by
      rcases hdrop : beforeBrace.dropWhile (· ≠ '}') with _ | ⟨close, before⟩
      · rfl
      · have hend : selected ([] : Text) = [] := rfl
        rw [eq_of_dropWhile_eq_cons hdrop, List.reverse_cons, List.append_assoc,
          List.singleton_append, selected_append_close, selected_append_close, hend,
          List.append_nil]
    have hpieces : reversed.reverse = (beforeBrace.dropWhile (· ≠ '}')).reverse ++
        ((beforeBrace.takeWhile (· ≠ '}')).reverse ++
          '{' :: (reversed.takeWhile (· ≠ '{')).reverse) := by
      rw [← List.append_assoc, ← List.reverse_append, List.takeWhile_append_dropWhile]
      refine (congrArg List.reverse (eq_append_of_dropWhile_eq_cons h)).trans ?_
      rw [List.reverse_append, List.reverse_cons, List.append_assoc, List.singleton_append]
    rw [regionsBackwards_of_dropWhile h, List.map_cons, List.flatMap_cons, ih, hpieces, hbefore,
      selected_region hregion htail, List.reverse_append, List.reverse_reverse]

/-- **Class names by places.** A dot selects if the first brace behind it is there and opens a rule. The
class names of a stylesheet are the runs behind the selecting dots, from the last dot to the first,
without those that are empty or the fraction of a length in pixels, each at its first place in that
order. -/
theorem classNames_eq_places (css : Text) :
    classNames css =
      Text.distinct (((selectingPlaces css).reverse.map (runAfter css)).filter isClassName) := by
  rw [classNames, regions, flatMap_dottedRuns_regionsBackwards, List.reverse_reverse,
    ← map_runAfter_selectingPlaces, List.map_reverse]

end Stylesheet
end TemplateBindings
