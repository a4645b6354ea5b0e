import TemplateBindings.Text.Basic

/-!
# Pieces and joints

Cutting a text at a character undoes joining texts that do not have it: at its first occurrence
(`TemplateBindings.Text.cutAt_append`) and at all of them (`TemplateBindings.Text.pieces_joined`).
-/

namespace TemplateBindings
namespace Text

/-! ### The first occurrence -/

section First

variable {sep : Char} {s : Text}

theorem cutAt_append (h : sep ∉ s) (rest : Text) :
    cutAt sep (s ++ sep :: rest) = some (s, rest) := by
  induction s with
  | nil => simp [cutAt]
  | cons c s ih =>
    have hc : c ≠ sep := fun he => h (he ▸ List.mem_cons_self)
    rw [List.cons_append, cutAt, if_neg hc, ih fun hm => h (List.mem_cons_of_mem _ hm)]
    rfl

theorem cutAt_of_not_mem (h : sep ∉ s) : cutAt sep s = none := by
  induction s with
  | nil => rfl
  | cons c s ih =>
    have hc : c ≠ sep := fun he => h (he ▸ List.mem_cons_self)
    rw [cutAt, if_neg hc, ih fun hm => h (List.mem_cons_of_mem _ hm)]
    rfl

/-- Where a text was cut, and that this is the first place. -/
theorem of_cutAt {before rest : Text} (h : cutAt sep s = some (before, rest)) :
    s = before ++ sep :: rest ∧ sep ∉ before := by
  induction s generalizing before with
  | nil => cases h
  | cons c s ih =>
    rw [cutAt] at h
    split at h
    · next hc =>
      cases h
      exact ⟨by rw [hc]; rfl, List.not_mem_nil⟩
    · next hc =>
      obtain ⟨⟨before', rest'⟩, hr, he⟩ := Option.map_eq_some_iff.1 h
      cases he
      obtain ⟨rfl, hnot⟩ := ih hr
      refine ⟨rfl, fun hm => ?_⟩
      rcases List.mem_cons.1 hm with hm | hm
      · exact hc hm.symm
      · exact hnot hm

/-! ### The first occurrence of a text -/

/-- Before a line end no text without line ends occurs, unless it occurs in the line. -/
theorem cutAtText_line {line needle : Text} (hneedle : '\n' ∉ needle) (hline : ¬ needle <:+: line)
    (s : Text) : cutAtText needle (line ++ '\n' :: s) =
      (cutAtText needle s).map fun r => (line ++ '\n' :: r.1, r.2) := by
  have hnot {c : Char} {t : Text} (hfront : ¬ ∃ rest, c :: t = needle ++ rest) :
      cutAtText needle (c :: t) = (cutAtText needle t).map fun r => (c :: r.1, r.2) := by
    have hafter : after? needle (c :: t) = none := Option.eq_none_iff_forall_ne_some.2
      fun rest hrest => hfront ⟨rest, eq_append_of_after? hrest⟩
    rw [cutAtText, cutWhere, hafter]
  induction line with
  | nil =>
    rw [List.nil_append, hnot]
    · rfl
    · rintro ⟨rest, hrest⟩
      cases needle with
      | nil => exact hline List.nil_infix
      | cons d needle =>
        cases hrest
        exact hneedle List.mem_cons_self
  | cons c line ih =>
    rw [List.cons_append, hnot, ih fun h => hline (h.trans (List.infix_cons List.infix_rfl)),
      Option.map_map]
    · rfl
    · rintro ⟨rest, hrest⟩
      rw [← List.cons_append] at hrest
      rcases List.append_eq_append_iff.1 hrest with ⟨more, hmore, hbehind⟩ | ⟨more, hmore, -⟩
      · cases more with
        | nil => exact hline ⟨[], [], by simp [hmore]⟩
        | cons d more =>
          cases hbehind
          exact hneedle (hmore ▸ List.mem_append_right _ List.mem_cons_self)
      · exact hline ⟨[], more, hmore.symm⟩

/-- Before the end of lines no text without line ends occurs, unless it occurs in one of them. -/
theorem cutAtText_lines {ls : List Text} {needle : Text} (hneedle : '\n' ∉ needle)
    (hls : ∀ line ∈ ls, ¬ needle <:+: line) (s : Text) :
    cutAtText needle (ls.flatMap (· ++ ['\n']) ++ s) =
      (cutAtText needle s).map fun r => (ls.flatMap (· ++ ['\n']) ++ r.1, r.2) := by
  induction ls with
  | nil => simp
  | cons line ls ih =>
    rw [List.forall_mem_cons] at hls
    rw [List.flatMap_cons, List.append_assoc, List.append_assoc, List.singleton_append,
      cutAtText_line hneedle hls.1, ih hls.2, Option.map_map]
    congr 1
    funext r
    simp

/-- A text with `mark` behind `stop` does not occur where no `mark` is behind the first `stop`. -/
theorem not_infix_of_cutAt {stop mark : Char} {line before behind : Text}
    (h : cutAt stop line = some (before, behind)) (hmark : mark ∉ behind) (x y z : Text) :
    ¬ x ++ stop :: (y ++ mark :: z) <:+: line := by
  rintro ⟨u, v, huv⟩
  obtain ⟨rfl, hstop⟩ := of_cutAt h
  have hwhole : (u ++ x) ++ stop :: (y ++ mark :: (z ++ v)) = before ++ stop :: behind := by
    simpa using huv
  rcases List.append_eq_append_iff.1 hwhole with ⟨more, hmore, hbehind⟩ | ⟨more, -, hbehind⟩
  · cases more with
    | nil =>
      cases hbehind
      exact hmark (by simp)
    | cons d more =>
      rw [hmore, ← (List.cons.inj hbehind).1] at hstop
      exact hstop (List.mem_append_right _ List.mem_cons_self)
  · cases more with
    | nil =>
      cases hbehind
      exact hmark (by simp)
    | cons d more =>
      cases hbehind
      exact hmark (by simp)

end First

/-! ### All occurrences -/

variable {α : Type} {s t : List α} {texts others : List (List α)}

section Pieces

variable [DecidableEq α] {sep : α}

theorem pieces_of_not_mem (h : sep ∉ s) : pieces sep s = [s] := by
  induction s with
  | nil => rfl
  | cons c s ih =>
    have hc : c ≠ sep := fun he => h (he ▸ List.mem_cons_self)
    rw [pieces, if_neg hc, ih fun hm => h (List.mem_cons_of_mem _ hm)]
    rfl

/-- The pieces on both sides of an occurrence. -/
theorem pieces_append_cons (sep : α) (s t : List α) :
    pieces sep (s ++ sep :: t) = pieces sep s ++ pieces sep t := by
  induction s with
  | nil => simp [pieces]
  | cons c s ih =>
    rw [List.cons_append, pieces, pieces, ih]
    split
    · rfl
    · obtain ⟨first, others, hs⟩ := List.exists_cons_of_ne_nil (pieces_ne_nil sep s)
      rw [hs]
      rfl

theorem pieces_append (h : sep ∉ s) (t : List α) : pieces sep (s ++ sep :: t) = s :: pieces sep t := by
  rw [pieces_append_cons, pieces_of_not_mem h]
  rfl

/-- A text without the character belongs to the first piece. -/
theorem pieces_append_of_not_mem (h : sep ∉ s) (t : List α) :
    pieces sep (s ++ t) = (pieces sep t).modifyHead (s ++ ·) := by
  induction s with
  | nil =>
    obtain ⟨first, others, ht⟩ := List.exists_cons_of_ne_nil (pieces_ne_nil sep t)
    rw [List.nil_append, ht]
    rfl
  | cons c s ih =>
    have hc : c ≠ sep := fun he => h (he ▸ List.mem_cons_self)
    obtain ⟨first, others, ht⟩ := List.exists_cons_of_ne_nil (pieces_ne_nil sep t)
    rw [List.cons_append, pieces, if_neg hc, ih fun hm => h (List.mem_cons_of_mem _ hm), ht]
    rfl

/-- No piece has the character in it that a text is cut at. -/
theorem not_mem_of_mem_pieces (h : t ∈ pieces sep s) : sep ∉ t := by
  induction s generalizing t with
  | nil =>
    cases List.mem_singleton.1 h
    exact List.not_mem_nil
  | cons c s ih =>
    rw [pieces] at h
    split at h
    · rcases List.mem_cons.1 h with rfl | h
      · exact List.not_mem_nil
      · exact ih h
    · next hc =>
      rcases hs : pieces sep s with _ | ⟨u, others⟩
      · exact absurd hs (pieces_ne_nil sep s)
      · rw [hs, List.modifyHead_cons] at h
        rcases List.mem_cons.1 h with rfl | h
        · rintro hm
          rcases List.mem_cons.1 hm with rfl | hm
          · exact hc rfl
          · exact ih (hs ▸ List.mem_cons_self) hm
        · exact ih (hs ▸ List.mem_cons_of_mem _ h)

/-- A piece has only what is in the text. -/
theorem mem_of_mem_pieces {c : α} (h : t ∈ pieces sep s) (hc : c ∈ t) : c ∈ s := by
  induction s generalizing t with
  | nil =>
    cases List.mem_singleton.1 h
    exact hc
  | cons d s ih =>
    rw [pieces] at h
    split at h
    · rcases List.mem_cons.1 h with rfl | h
      · exact absurd hc List.not_mem_nil
      · exact List.mem_cons_of_mem _ (ih h hc)
    · rcases hs : pieces sep s with _ | ⟨u, others⟩
      · exact absurd hs (pieces_ne_nil sep s)
      · rw [hs, List.modifyHead_cons] at h
        rcases List.mem_cons.1 h with rfl | h
        · rcases List.mem_cons.1 hc with rfl | hc
          · exact List.mem_cons_self
          · exact List.mem_cons_of_mem _ (ih (hs ▸ List.mem_cons_self) hc)
        · exact List.mem_cons_of_mem _ (ih (hs ▸ List.mem_cons_of_mem _ h) hc)

/-- **The pieces of joined texts** are the texts, if none of them has the character in it. -/
theorem pieces_joined (hne : texts ≠ []) (h : ∀ t ∈ texts, sep ∉ t) :
    pieces sep (joined [sep] texts) = texts := by
  induction texts with
  | nil => exact absurd rfl hne
  | cons t texts ih =>
    have ht := h t List.mem_cons_self
    rcases texts with _ | ⟨u, texts⟩
    · exact pieces_of_not_mem ht
    · rw [joined, List.append_assoc, List.singleton_append, pieces_append ht,
        ih (by simp) fun t hm => h t (List.mem_cons_of_mem _ hm)]
      simp

end Pieces

theorem joined_cons_cons (sep s t : List α) (rest : List (List α)) :
    joined sep (s :: t :: rest) = s ++ sep ++ joined sep (t :: rest) := rfl

/-- What stands in front of further texts when texts are joined. -/
theorem joined_append (sep : List α) (texts : List (List α)) (hne : others ≠ []) :
    joined sep (texts ++ others) = texts.flatMap (· ++ sep) ++ joined sep others := by
  induction texts with
  | nil => rfl
  | cons s texts ih =>
    obtain ⟨t, rest, ht⟩ := List.exists_cons_of_ne_nil (List.append_ne_nil_of_right_ne_nil texts hne)
    rw [List.cons_append, ht, joined_cons_cons, ← ht, ih, List.flatMap_cons, List.append_assoc _ _
      (joined sep others)]

/-- What stands in front of further texts when texts are joined does not depend on them. -/
theorem exists_joined_append (sep : List α) (texts : List (List α)) :
    ∃ front, ∀ {others : List (List α)}, others ≠ [] →
      joined sep (texts ++ others) = front ++ joined sep others :=
  ⟨texts.flatMap (· ++ sep), joined_append sep texts⟩

/-- The beginning of the first text is the beginning of texts that are joined. -/
theorem joined_append_cons (sep front t : List α) (rest : List (List α)) :
    joined sep ((front ++ t) :: rest) = front ++ joined sep (t :: rest) := by
  cases rest with
  | nil => rfl
  | cons u rest =>
    rw [joined_cons_cons, joined_cons_cons, List.append_assoc, List.append_assoc, List.append_assoc]

theorem prefix_joined_append (sep : List α) (texts others : List (List α)) :
    joined sep texts <+: joined sep (texts ++ others) := by
  rcases List.eq_nil_or_concat texts with rfl | ⟨before, s, rfl⟩
  · exact List.nil_prefix
  · obtain ⟨front, hfront⟩ := exists_joined_append sep before
    rw [List.concat_eq_append, List.append_assoc, hfront (by simp), hfront (by simp),
      List.prefix_append_right_inj]
    cases others with
    | nil => exact List.prefix_rfl
    | cons t others =>
      rw [List.singleton_append, joined_cons_cons, List.append_assoc]
      exact List.prefix_append s _

variable [DecidableEq α] {sep : α}

/-- A last `sep` leaves an empty piece behind it. -/
theorem pieces_joined_concat (hne : texts ≠ []) (h : ∀ t ∈ texts, sep ∉ t) :
    pieces sep (joined [sep] texts ++ [sep]) = texts ++ [[]] := by
  induction texts with
  | nil => exact absurd rfl hne
  | cons t texts ih =>
    have ht := h t List.mem_cons_self
    rcases texts with _ | ⟨u, texts⟩
    · exact pieces_append ht []
    · rw [joined_cons_cons, List.append_assoc, List.append_assoc, List.singleton_append,
        pieces_append ht, ih (by simp) fun t hm => h t (List.mem_cons_of_mem _ hm)]
      rfl

theorem joined_injective (hne : texts ≠ []) (hne' : others ≠ []) (h : ∀ t ∈ texts, sep ∉ t)
    (h' : ∀ t ∈ others, sep ∉ t) (he : joined [sep] texts = joined [sep] others) :
    texts = others := by
  rw [← pieces_joined hne h, he, pieces_joined hne' h']

end Text
end TemplateBindings
