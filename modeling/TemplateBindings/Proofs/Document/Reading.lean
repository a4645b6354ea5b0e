import Mathlib.Data.List.DropRight
import TemplateBindings.Proofs.Document.Tags

/-!
# The ids of any text

The ids of a well written page are those of its tags. In any other text they are what reading finds,
and reading is described here by what it passes and what it takes
(`TemplateBindings.Document.Reading`): it goes to the next `id="`, takes what stands before the next
quote for a value, and goes on behind that quote. However the quotes of a text stand, it has a reading
(`TemplateBindings.Document.exists_reading`), since every value is read with the five characters
around it, and it has only one (`TemplateBindings.Document.Reading.unique`).

The constants depend on the values that count alone, and what they are like is said of these at once
(`TemplateBindings.Document.bindings_of_reading`): which ids have a constant, in which order they
stand, and which types they have.
-/

namespace TemplateBindings
namespace Document

/-! ### Readings -/

/-- **A value that is read**, with the whole text before its `id="`. -/
structure Found where
  /-- The text before the `id="`. -/
  before : Text
  /-- The text between the quotes. -/
  value : Text

/-- **The reading of a text**, given the text before it. -/
inductive Reading : (before s : Text) → List Found → Prop where
  /-- There is no further `id="`. -/
  | ended {before s : Text} (hs : ¬ needle <:+: s) : Reading before s []
  /-- The value behind the next `id="` is not closed. -/
  | unclosed {before gap rest : Text} (hgap : ¬ needle <:+: gap) (hrest : '"' ∉ rest) :
    Reading before (gap ++ (needle ++ rest)) []
  /-- The value behind the next `id="` is closed, and reading goes on behind it. -/
  | closed {before gap value rest : Text} {found : List Found} (hgap : ¬ needle <:+: gap)
    (hvalue : '"' ∉ value)
    (behind : Reading (before ++ (gap ++ (needle ++ (value ++ ['"'])))) rest found) :
    Reading before (gap ++ (needle ++ (value ++ '"' :: rest))) (⟨before ++ gap, value⟩ :: found)

/-- Whether a value counts: it is not empty, its `id="` stands at the beginning or behind a blank, and
a tag was opened before it. -/
def Found.Counts (f : Found) : Prop :=
  f.value ≠ [] ∧ (∀ c ∈ f.before.getLast?, Text.isBlank c = true) ∧ '<' ∈ f.before

instance (f : Found) : Decidable f.Counts :=
  inferInstanceAs (Decidable (_ ∧ _ ∧ _))

/-- The name of the tag opened last before a value: it ends at a blank, a slash or a bracket. -/
def Found.tag (f : Found) : Text :=
  (f.before.rtakeWhile (· ≠ '<')).takeWhile fun c => !(Text.isBlank c || c == '/' || c == '>')

/-- The occurrence of an id that a value makes if it counts. -/
def Found.occurrence? (f : Found) : Option Occurrence :=
  if f.Counts then some ⟨f.value, f.tag⟩ else none

/-- **The constants of the occurrences that were read.** -/
structure Describes (read : List Occurrence) (constants : List Binding) : Prop where
  ids_distinct : (constants.map Binding.elementId).Nodup
  names_distinct : (constants.map Binding.name).Nodup
  /-- An id has a constant if no other id before its first occurrence has one of that name. -/
  mem_ids (id : Text) : id ∈ constants.map Binding.elementId ↔
    id ∈ read.map Occurrence.id ∧
      ∀ other ∈ (read.map Occurrence.id).takeWhile (· ≠ id), constantName other ≠ constantName id
  /-- The constants stand in the order of the first occurrences. -/
  in_order : (constants.map Binding.elementId).Pairwise fun id other =>
    read.findIdx (·.id = id) < read.findIdx (·.id = other)
  named : ∀ b ∈ constants, b.name = constantName b.elementId
  /-- The last occurrence of an id decides its type. -/
  typed : ∀ b ∈ constants, ∃ earlier last later, read = earlier ++ last :: later ∧
    last.id = b.elementId ∧ (∀ o ∈ later, o.id ≠ b.elementId) ∧
      b.type = ElementType.ofTag (Text.upper last.tag)

variable {s gap other rest before id : Text} {found others : List Found}
  {read : List Occurrence}

/-! ### Every text has one reading -/

/-- What is in a text has a first occurrence there. -/
theorem exists_first (h : needle <:+: s) :
    ∃ gap rest, s = gap ++ (needle ++ rest) ∧ ¬ needle <:+: gap := by
  induction s with
  | nil => exact absurd (List.infix_nil.1 h) (by decide)
  | cons c s ih =>
    by_cases hfirst : needle <+: c :: s
    · obtain ⟨rest, hrest⟩ := hfirst
      exact ⟨[], rest, hrest.symm, by decide⟩
    · obtain ⟨gap, rest, rfl, hgap⟩ := ih ((List.infix_cons_iff.1 h).resolve_left hfirst)
      refine ⟨c :: gap, rest, rfl, ?_⟩
      intro hin
      rcases List.infix_cons_iff.1 hin with hin | hin
      · exact hfirst (hin.trans (List.prefix_append (c :: gap) (needle ++ rest)))
      · exact hgap hin

/-- **Every text has a reading.** -/
theorem exists_reading (before s : Text) : ∃ found, Reading before s found := by
  by_cases h : needle <:+: s
  · obtain ⟨gap, behind, hs, hgap⟩ := exists_first h
    by_cases hquote : '"' ∈ behind
    · obtain ⟨value, rest, hbehind, hvalue⟩ := List.eq_append_cons_of_mem hquote
      -- reading goes on behind the quote, where less is left
      have hshorter : rest.length < s.length := by
        rw [hs, hbehind]
        simp only [List.length_append, List.length_cons]
        omega
      obtain ⟨found, hfound⟩ :=
        exists_reading (before ++ (gap ++ (needle ++ (value ++ ['"'])))) rest
      rw [hs, hbehind]
      exact ⟨_, .closed hgap hvalue hfound⟩
    · rw [hs]
      exact ⟨[], .unclosed hgap hquote⟩
  · exact ⟨[], .ended h⟩
termination_by s.length

/-- Nothing of an `id="` stands in a part without one, whatever comes before the next. -/
theorem passes_gap (hgap : ¬ needle <:+: gap) (rest : Text) : Passes gap (needle ++ rest) :=
  passes_of_breaks hgap fun c hc => by
    cases hc
    decide

/-- The first `id="` of a text stands in one place. -/
theorem gap_unique (hgap : ¬ needle <:+: gap) (hother : ¬ needle <:+: other) {behind : Text}
    (h : gap ++ (needle ++ rest) = other ++ (needle ++ behind)) : gap = other ∧ rest = behind := by
  -- the longer part would go on, behind the shorter one, as an `id="` begins
  have hnot {gap other more rest behind : Text} (hother : ¬ needle <:+: other)
      (hmore : other = gap ++ more) (h : needle ++ rest = more ++ (needle ++ behind)) :
      more = [] := by
    by_contra hne
    exact passes_gap hother behind more (hmore ▸ List.suffix_append gap more) hne ⟨rest, h⟩
  have hgaps : gap = other := by
    rcases List.append_eq_append_iff.1 h with ⟨more, hmore, hbehind⟩ | ⟨more, hmore, hbehind⟩
    · rw [hmore, hnot hother hmore hbehind, List.append_nil]
    · rw [hmore, hnot hgap hmore hbehind, List.append_nil]
  subst hgaps
  exact ⟨rfl, List.append_cancel_left (List.append_cancel_left h)⟩

theorem ne_append_needle (h : ¬ needle <:+: s) (gap rest : Text) :
    s ≠ gap ++ (needle ++ rest) := by
  rintro rfl
  exact h ⟨gap, rest, List.append_assoc gap needle rest⟩

/-- **A text has one reading.** -/
theorem Reading.unique (h : Reading before s found) (h' : Reading before s others) :
    others = found := by
  -- both readings stop at the same `id="`, and a value ends at the first quote behind it
  induction h generalizing others with
  | ended hs =>
    cases h' with
    | ended => rfl
    | unclosed => rfl
    | closed => exact absurd rfl (ne_append_needle hs _ _)
  | unclosed hgap hrest =>
    generalize hs : _ ++ (needle ++ _) = s at h'
    cases h' with
    | ended => rfl
    | unclosed => rfl
    | closed hgap' =>
      obtain ⟨-, rfl⟩ := gap_unique hgap hgap' hs
      exact absurd (by simp) hrest
  | @closed before gap value rest found hgap hvalue behind ih =>
    generalize hs : _ ++ (needle ++ _) = s at h'
    cases h' with
    | ended h => exact absurd hs.symm (ne_append_needle h _ _)
    | unclosed hgap' hrest =>
      obtain ⟨-, rfl⟩ := gap_unique hgap hgap' hs
      exact absurd (by simp) hrest
    | @closed _ _ value' rest' found' hgap' hvalue' behind' =>
      obtain ⟨rfl, hclosed⟩ := gap_unique hgap hgap' hs
      have hcut : some (value, rest) = some (value', rest') := by
        rw [← Text.cutAt_append hvalue, hclosed, Text.cutAt_append hvalue']
      cases hcut
      rw [ih behind']

/-! ### What reading finds -/

/-- A value counts where it makes an occurrence. -/
theorem occurrence?_eq (f : Found) :
    Document.occurrence? f.before.reverse f.value = f.occurrence? := by
  have hstart : atNameStart f.before.reverse = true ↔
      ∀ c ∈ f.before.getLast?, Text.isBlank c = true := by
    rw [← List.head?_reverse]
    cases f.before.reverse with
    | nil =>
      constructor
      · rintro - c hc
        exact absurd hc (Option.not_mem_none c)
      · intro _
        rfl
    | cons c s => simp [atNameStart]
  have hopen : openedTag? f.before.reverse = if '<' ∈ f.before then some f.tag else none := by
    simp only [openedTag?, List.contains_iff_mem, List.mem_reverse]
    rfl
  rw [Document.occurrence?, Found.occurrence?, hopen]
  by_cases hvalue : f.value = []
  · rw [if_pos (by simp [hvalue]), if_neg fun h => h.1 hvalue]
  · by_cases hblank : ∀ c ∈ f.before.getLast?, Text.isBlank c = true
    · rw [if_neg (by simp [hvalue, hstart.2 hblank])]
      by_cases hbracket : '<' ∈ f.before
      · rw [if_pos hbracket, if_pos ⟨hvalue, hblank, hbracket⟩, Option.map_some]
      · rw [if_neg hbracket, if_neg fun h => hbracket h.2.2, Option.map_none]
    · rw [if_pos (by simp [mt hstart.1 hblank]), if_neg fun h => hblank h.2.1]

/-- Reading ends at a value that is not closed. -/
theorem occurrencesFrom_unclosed (h : '"' ∉ rest) (before : Text) :
    occurrencesFrom before (needle ++ rest) = [] := by
  have hafter := Text.after?_append needle rest
  -- the scan opens at the first character only, so the text is taken apart there
  have hneedle : needle ++ rest = 'i' :: ("d=\"".toList ++ rest) := rfl
  rw [hneedle] at hafter ⊢
  rw [occurrencesFrom]
  split
  · next hnone =>
    rw [← needle, hafter] at hnone
    cases hnone
  · next behind hbehind =>
    rw [← needle, hafter, Option.some.injEq] at hbehind
    subst hbehind
    split
    · rfl
    · next hcut =>
      rw [Text.cutAt_of_not_mem h] at hcut
      cases hcut

/-- **The occurrences of a text are the values that count.** -/
theorem Reading.occurrencesFrom_eq (h : Reading before s found) :
    occurrencesFrom before.reverse s = found.filterMap Found.occurrence? := by
  have hend (before : Text) : occurrencesFrom before [] = [] := by rw [occurrencesFrom]
  -- by induction on the reading; the scan has what it passed the other way round
  induction h with
  | @ended before s hs =>
    have hpasses : Passes s [] := passes_of_breaks hs fun c hc => absurd hc (by simp)
    rw [← List.append_nil s, occurrencesFrom_append hpasses, hend, List.filterMap_nil]
  | @unclosed before gap rest hgap hrest =>
    rw [occurrencesFrom_append (passes_gap hgap rest), List.filterMap_nil,
      occurrencesFrom_unclosed hrest]
  | @closed before gap value rest found hgap hvalue behind ih =>
    have hfound := occurrence?_eq ⟨before ++ gap, value⟩
    rw [List.reverse_append] at hfound
    rw [occurrencesFrom_append (passes_gap hgap _), occurrencesFrom_needle hvalue, hfound]
    rw [List.reverse_append, List.reverse_append, List.append_assoc] at ih
    rw [ih, List.filterMap_cons]
    cases Found.occurrence? ⟨before ++ gap, value⟩ <;> rfl

/-! ### What the constants are like -/

theorem map_elementId_constantsOf (read : List Occurrence) :
    (constantsOf read).map Binding.elementId = (idsOf read).filter (keepsName (idsOf read)) := by
  rw [constantsOf, List.map_map]
  exact List.map_id _

/-- Whether an id keeps its name does not depend on repetitions. -/
theorem keepsName_idsOf (h : id ∈ read.map Occurrence.id) :
    keepsName (idsOf read) id = keepsName (read.map Occurrence.id) id := by
  have hids : id ∈ idsOf read := Text.mem_distinct.2 h
  rw [Bool.eq_iff_iff, keepsName_iff h, keepsName_iff hids, idsOf, Text.find?_distinct]

/-- The last occurrence of an id has its last tag. -/
theorem exists_last (h : id ∈ read.map Occurrence.id) :
    ∃ earlier last later, read = earlier ++ last :: later ∧ last.id = id ∧
      (∀ o ∈ later, o.id ≠ id) ∧ lastTag read id = last.tag := by
  obtain ⟨o, ho, rfl⟩ := List.mem_map.1 h
  have hsome : (read.reverse.find? (·.id = o.id)).isSome = true :=
    List.find?_isSome.2 ⟨o, List.mem_reverse.2 ho, by simp⟩
  obtain ⟨last, hlast⟩ := Option.isSome_iff_exists.1 hsome
  obtain ⟨hid, later, earlier, hread, hlater⟩ := List.find?_eq_some_iff_append.1 hlast
  refine ⟨earlier.reverse, last, later.reverse, ?_, by simpa using hid, ?_, ?_⟩
  · rw [← List.reverse_reverse read, hread]
    simp
  · intro other hother
    simpa using hlater other (List.mem_reverse.1 hother)
  · rw [lastTag, hlast]
    rfl

/-- **The constants of occurrences are as described.** -/
theorem constantsOf_describes (read : List Occurrence) : Describes read (constantsOf read) where
  ids_distinct := by
    rw [map_elementId_constantsOf]
    exact (Text.nodup_distinct _).filter _
  names_distinct := nodup_names_constantsOf read
  mem_ids id := by
    rw [map_elementId_constantsOf, List.mem_filter, idsOf, Text.mem_distinct, ← idsOf]
    refine and_congr_right fun h => ?_
    rw [keepsName_idsOf h, keepsName, List.all_eq_true]
    simp
  in_order := by
    rw [map_elementId_constantsOf]
    have hfirst := Text.pairwise_findIdx_distinct (read.map Occurrence.id)
    simp only [List.findIdx_map] at hfirst
    exact hfirst.filter _
  named b hb := by
    obtain ⟨id, -, rfl⟩ := List.mem_map.1 hb
    rfl
  typed b hb := by
    obtain ⟨id, hid, rfl⟩ := List.mem_map.1 hb
    obtain ⟨earlier, last, later, hread, hlast, hlater, htag⟩ :=
      exists_last (Text.mem_distinct.1 (List.mem_of_mem_filter hid))
    exact ⟨earlier, last, later, hread, hlast, hlater, by rw [constantFor, htag]⟩

/-- **The constants of any text.** The text has one reading, and the values that count in it are the
occurrences of ids: an id has a constant unless a different one before its first occurrence has one of
that name, the constants stand in the order of the first occurrences and have distinct ids and names,
and the last occurrence of an id decides its type. -/
theorem bindings_of_reading (html : Text) :
    ∃ found, Reading [] html found ∧ (∀ others, Reading [] html others → others = found) ∧
      Describes (found.filterMap Found.occurrence?) (bindings html) := by
  obtain ⟨found, hfound⟩ := exists_reading [] html
  refine ⟨found, hfound, fun others => hfound.unique, ?_⟩
  rw [← hfound.occurrencesFrom_eq, bindings, bindingsOf_eq]
  exact constantsOf_describes _

/-- The name goes to the first id that asks for it, the type to its last tag; an `id` that runs into
another value and one that is never closed are none. -/
example : bindings
    ("<a id=\"x-y\"id=\"z\"><b id=\"xY\" data-id=\"q\">" ++ "<input id=\"x-y\"/><p id=\"").toList =
      [⟨"xY".toList, "x-y".toList, "HTMLInputElement".toList⟩] := by
  decide +kernel

end Document
end TemplateBindings
