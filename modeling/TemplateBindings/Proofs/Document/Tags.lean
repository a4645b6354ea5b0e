import TemplateBindings.Proofs.Document.Bindings
import TemplateBindings.Proofs.Text.Case
import Mathlib.Data.List.Infix

/-!
# The ids that tags have

A document is not parsed: its ids are found by looking for `id="` in its text. In a text that is
written in pieces – text, tags without quotes, and tags whose attributes all stand between double
quotes – this finds the ids of the tags and nothing else, each with the name of its own tag
(`TemplateBindings.Document.occurrences_print`), so that its constants are those of its tags
(`TemplateBindings.Document.bindings_print`).

An id can be found in a wrong place only where `id="` begins in one part of a piece and ends in
another. So the reader is followed from part to part, and at each border it is enough to know how the
part before ends and how the next one begins (`TemplateBindings.Document.Passes`).
-/

namespace TemplateBindings
namespace Document

variable {c : Char} {s t before rest name : Text}

/-! ### Pieces of a page -/

/-- What opens the value of an id. -/
def needle : Text := "id=\"".toList

/-- Whether a character can stand in the name of a tag or an attribute. -/
def isTagChar (c : Char) : Bool := !(Text.isBlank c || "<>/=\"".toList.contains c)

/-- **The names of tags and attributes** are not empty. -/
def IsTagName (s : Text) : Prop := s ≠ [] ∧ ∀ c ∈ s, isTagChar c = true

/-- **An attribute** with the blanks before it, its value between double quotes. -/
structure QuotedAttribute where
  /-- The blanks before the attribute. -/
  gap : Text
  /-- Its name. -/
  key : Text
  /-- Its value. -/
  value : Text
  gap_ne : gap ≠ []
  gap_blank : ∀ c ∈ gap, Text.isBlank c = true
  key_isTagName : IsTagName key
  bracket_not_mem : '<' ∉ value
  quote_not_mem : '"' ∉ value
  value_end : ¬ "id=".toList <:+ value

/-- An attribute as it is written. -/
def QuotedAttribute.print (a : QuotedAttribute) : Text :=
  a.gap ++ (a.key ++ '=' :: '"' :: (a.value ++ ['"']))

/-- **A piece of a page**. -/
inductive Piece where
  /-- Text outside tags. -/
  | text (s : Text) (bracket_not_mem : '<' ∉ s) (needle_not_inside : ¬ needle <:+: s)
  /-- A tag without quotes, such as one that closes an element. -/
  | bare (inside : Text) (not_mem : '<' ∉ inside ∧ '>' ∉ inside ∧ '"' ∉ inside)
  /-- A tag with attributes. -/
  | tag (name : Text) (isTagName : IsTagName name) (attributes : List QuotedAttribute) (gap : Text)
    (gap_blank : ∀ c ∈ gap, Text.isBlank c = true) (closed : Bool)

/-- The end of a tag. -/
def tagEnd (closed : Bool) : Text := if closed then ['/', '>'] else ['>']

/-- A piece as it is written. -/
def Piece.print : Piece → Text
  | .text s _ _ => s
  | .bare inside _ => '<' :: inside ++ ['>']
  | .tag name _ attributes gap _ closed =>
    '<' :: name ++ (attributes.flatMap QuotedAttribute.print ++ (gap ++ tagEnd closed))

/-- Whether a piece is text. -/
def Piece.isText : Piece → Bool
  | .text .. => true
  | _ => false

/-- **A page in pieces**, no two texts in a row. -/
structure Page where
  /-- The pieces. -/
  pieces : List Piece
  apart : pieces.IsChain fun p q => ¬ (p.isText = true ∧ q.isText = true)

/-- The text of a page. -/
def Page.print (page : Page) : Text := page.pieces.flatMap Piece.print

/-! ### Their ids -/

/-- The id that an attribute gives its tag. -/
def QuotedAttribute.occurrence? (a : QuotedAttribute) (tag : Text) : Option Occurrence :=
  if a.key = "id".toList ∧ a.value ≠ [] then some ⟨a.value, tag⟩ else none

/-- The ids of a piece. -/
def Piece.occurrences : Piece → List Occurrence
  | .tag name _ attributes _ _ _ => attributes.filterMap (·.occurrence? name)
  | _ => []

/-- **The ids of a page**, with their tags. -/
def Page.occurrences (page : Page) : List Occurrence := page.pieces.flatMap Piece.occurrences

/-! ### Passing a part -/

/-- Whether no `id="` begins in a part of a text, given what follows it. -/
def Passes (s rest : Text) : Prop := ∀ t, t <:+ s → t ≠ [] → ¬ needle <+: t ++ rest

theorem after?_eq_none_iff {front : Text} : Text.after? front s = none ↔ ¬ front <+: s := by
  constructor
  · rintro h ⟨r, rfl⟩
    rw [Text.after?_append] at h
    cases h
  · intro h
    cases hr : Text.after? front s with
    | none => rfl
    | some r => exact absurd ⟨r, (Text.eq_append_of_after? hr).symm⟩ h

/-- The reader goes on behind a part that it passes. -/
theorem occurrencesFrom_append (h : Passes s rest) :
    occurrencesFrom before (s ++ rest) = occurrencesFrom (s.reverse ++ before) rest := by
  -- no occurrence begins at the first character, and none begins in the rest of the part
  induction s generalizing before with
  | nil => rfl
  | cons c s ih =>
    have hnone : Text.after? needle (c :: (s ++ rest)) = none :=
      after?_eq_none_iff.2 (h _ List.suffix_rfl (List.cons_ne_nil c s))
    have hrest : Passes s rest := fun t ht => h t (ht.trans (List.suffix_cons c s))
    rw [List.reverse_cons, List.append_assoc, List.singleton_append, ← ih hrest, List.cons_append,
      occurrencesFrom]
    split
    · rfl
    · next r hr =>
      rw [needle] at hnone
      rw [hnone] at hr
      cases hr

/-- How `id="` can be divided. -/
theorem of_append_eq_needle {t r : Text} (h : needle = t ++ r) (ht : t ≠ []) (hr : r ≠ []) :
    t = "i".toList ∧ r = "d=\"".toList ∨ t = "id".toList ∧ r = "=\"".toList ∨
      t = "id=".toList ∧ r = "\"".toList := by
  have hneedle : needle = ['i', 'd', '=', '"'] := rfl
  rw [hneedle] at h
  rcases t with _ | ⟨c₁, _ | ⟨c₂, _ | ⟨c₃, _ | ⟨c₄, t⟩⟩⟩⟩
  · exact absurd rfl ht
  · cases h
    exact .inl ⟨rfl, rfl⟩
  · cases h
    exact .inr (.inl ⟨rfl, rfl⟩)
  · cases h
    exact .inr (.inr ⟨rfl, rfl⟩)
  · simp only [List.cons_append, List.cons.injEq] at h
    exact absurd (List.append_eq_nil_iff.1 h.2.2.2.2.symm).2 hr

/-- **What a part has to be like to be passed**: there is no `id="` in it, and none begins at its end.
-/
theorem passes_of (hin : ¬ needle <:+: s) (hi : "i".toList <:+ s → ¬ "d=\"".toList <+: rest)
    (hid : "id".toList <:+ s → ¬ "=\"".toList <+: rest)
    (hequals : "id=".toList <:+ s → ¬ "\"".toList <+: rest) : Passes s rest := by
  rintro t ht hne ⟨r, hr⟩
  have hinside (u : Text) (hu : t = needle ++ u) : False :=
    hin ((hu ▸ List.prefix_append needle u : needle <+: t).isInfix.trans ht.isInfix)
  rcases List.append_eq_append_iff.1 hr with ⟨u, hu, -⟩ | ⟨u, hu, rfl⟩
  · exact hinside u hu
  · by_cases hnil : u = []
    · exact hinside [] (by rw [hu, hnil, List.append_nil, List.append_nil])
    · rcases of_append_eq_needle hu hne hnil with ⟨rfl, rfl⟩ | ⟨rfl, rfl⟩ | ⟨rfl, rfl⟩
      · exact hi ht (List.prefix_append _ r)
      · exact hid ht (List.prefix_append _ r)
      · exact hequals ht (List.prefix_append _ r)

/-- A part without an `i` is passed. -/
theorem passes_of_not_mem (h : 'i' ∉ s) (rest : Text) : Passes s rest := by
  rintro t ht hne ⟨r, hr⟩
  cases t with
  | nil => exact hne rfl
  | cons c t =>
    have hc : 'i' = c := (List.cons.inj hr).1
    exact h (ht.subset (hc ▸ List.mem_cons_self))

theorem not_infix_of_not_mem (h : '"' ∉ s) : ¬ needle <:+: s := fun hin =>
  h (hin.subset (by decide))

/-- What follows a part and continues no `id="`. -/
def Breaks (rest : Text) : Prop := ∀ c ∈ rest.head?, c ∉ "d=\"".toList

theorem Breaks.not_prefix {front : Text} (h : Breaks rest) (hc : c ∈ "d=\"".toList) :
    ¬ c :: front <+: rest := by
  rintro ⟨r, rfl⟩
  exact h c rfl hc

/-- A part without an `id="` is passed if what follows does not continue one. -/
theorem passes_of_breaks (hin : ¬ needle <:+: s) (h : Breaks rest) : Passes s rest :=
  passes_of hin (fun _ => h.not_prefix (by decide)) (fun _ => h.not_prefix (by decide))
    fun _ => h.not_prefix (by decide)

/-- Two parts are passed one after the other. -/
theorem Passes.append (hs : Passes s (t ++ rest)) (ht : Passes t rest) : Passes (s ++ t) rest := by
  rintro u ⟨w, hw⟩ hne hprefix
  rcases List.append_eq_append_iff.1 hw with ⟨v, hv, hu⟩ | ⟨v, -, hv⟩
  · by_cases hnil : v = []
    · exact ht u (by rw [hu, hnil]; exact List.suffix_rfl) hne hprefix
    · exact hs v ⟨w, hv.symm⟩ hnil (by rwa [hu, List.append_assoc] at hprefix)
  · exact ht u ⟨v, hv.symm⟩ hne hprefix

/-! ### Reading a tag -/

/-- The characters of names are no blanks, and none of the characters that tags are written with. -/
theorem of_isTagChar (h : isTagChar c = true) :
    Text.isBlank c = false ∧ c ≠ '<' ∧ c ≠ '>' ∧ c ≠ '/' ∧ c ≠ '=' ∧ c ≠ '"' := by
  rw [isTagChar, Bool.not_eq_true', Bool.or_eq_false_iff] at h
  refine ⟨h.1, ?_, ?_, ?_, ?_, ?_⟩ <;> rintro rfl <;> exact absurd h.2 (by decide)

theorem IsTagName.not_mem (h : IsTagName name) (hc : isTagChar c = false) : c ∉ name := fun hm => by
  rw [h.2 c hm] at hc
  cases hc

theorem not_mem_of_blank (h : ∀ c ∈ s, Text.isBlank c = true) (hc : Text.isBlank c = false) :
    c ∉ s := fun hm => by
  rw [h c hm] at hc
  cases hc

/-- What stands in a tag behind its name: nothing, or a blank and more. -/
def IsInside (s : Text) : Prop := '<' ∉ s ∧ ∀ c ∈ s.head?, Text.isBlank c = true

/-- **The tag that was opened last** is found from anywhere inside it. -/
theorem openedTag?_inside (hname : IsTagName name) (h : IsInside s) (hs : s ≠ []) (before : Text) :
    openedTag? ((name ++ s).reverse ++ '<' :: before) = some name := by
  have hbracket : '<' ∉ name ++ s := by
    rw [List.mem_append, not_or]
    exact ⟨hname.not_mem (by decide), h.1⟩
  have hbehind : ((name ++ s).reverse ++ '<' :: before).takeWhile (· ≠ '<') = (name ++ s).reverse := by
    rw [List.takeWhile_append_of_pos, List.takeWhile_cons_of_neg (by simp), List.append_nil]
    intro c hc
    have hc : c ∈ name ++ s := List.mem_reverse.1 hc
    simpa using fun he : c = '<' => hbracket (he ▸ hc)
  have hnames (c : Char) (hc : c ∈ name) : (!(Text.isBlank c || c == '/' || c == '>')) = true := by
    obtain ⟨hblank, -, hclose, hslash, -⟩ := of_isTagChar (hname.2 c hc)
    simp [hblank, hclose, hslash]
  rw [openedTag?, if_pos (by simp), hbehind, List.reverse_reverse,
    List.takeWhile_append_of_pos hnames]
  cases s with
  | nil => exact absurd rfl hs
  | cons c s =>
    rw [List.takeWhile_cons_of_neg (by simp [h.2 c rfl]), List.append_nil]

/-- The reader at the beginning of an `id="`. -/
theorem occurrencesFrom_needle {value : Text} (h : '"' ∉ value) (before rest : Text) :
    occurrencesFrom before (needle ++ (value ++ '"' :: rest)) =
      (Document.occurrence? before value).toList ++
        occurrencesFrom ((needle ++ (value ++ ['"'])).reverse ++ before) rest := by
  have hafter := Text.after?_append needle (value ++ '"' :: rest)
  have hcut := Text.cutAt_append h rest
  have hneedle (t : Text) : needle ++ t = 'i' :: ("d=\"".toList ++ t) := rfl
  rw [hneedle] at hafter ⊢
  rw [occurrencesFrom]
  split
  · next hnone =>
    rw [← needle, hafter] at hnone
    cases hnone
  · next behind hbehind =>
    rw [← needle, hafter, Option.some.injEq] at hbehind
    subst hbehind
    split
    · next hnone =>
      rw [hcut] at hnone
      cases hnone
    · next value' following hvalue =>
      rw [hcut, Option.some.injEq, Prod.mk.injEq] at hvalue
      obtain ⟨rfl, rfl⟩ := hvalue
      have hreverse : (needle ++ (value ++ ['"'])).reverse ++ before =
          '"' :: value.reverse ++ "\"=di".toList ++ before := by
        rw [List.reverse_append, List.reverse_append]
        rfl
      rw [hreverse]

theorem IsInside.append (hs : IsInside s) (ht : IsInside t) : IsInside (s ++ t) := by
  refine ⟨?_, ?_⟩
  · rw [List.mem_append, not_or]
    exact ⟨hs.1, ht.1⟩
  · cases s with
    | nil => exact ht.2
    | cons c s => exact hs.2

theorem isInside_of_blank (h : ∀ c ∈ s, Text.isBlank c = true) : IsInside s :=
  ⟨not_mem_of_blank h (by decide), fun c hc => h c (List.mem_of_mem_head? hc)⟩

theorem QuotedAttribute.isInside_print (a : QuotedAttribute) : IsInside a.print := by
  refine ⟨?_, ?_⟩
  · have hgap := not_mem_of_blank a.gap_blank (c := '<') (by decide)
    have hkey := a.key_isTagName.not_mem (c := '<') (by decide)
    simp [print, hgap, hkey, a.bracket_not_mem]
  · have hgap := a.gap_blank
    rw [print]
    cases hcases : a.gap with
    | nil => exact absurd hcases a.gap_ne
    | cons c gap =>
      rw [hcases] at hgap
      rintro d hd
      exact hgap d (by simpa using .inl (Option.some.inj hd).symm)

/-- An attribute is passed if its name does not end in `id`. -/
theorem QuotedAttribute.passes_print (a : QuotedAttribute) (h : ¬ "id".toList <:+ a.key)
    (rest : Text) : Passes a.print rest := by
  have hkey : Passes a.key ('=' :: '"' :: (a.value ++ ['"']) ++ rest) := by
    refine passes_of (fun hin => ?_) (fun _ => ?_) (fun hid => absurd hid h) fun hequals => ?_
    · exact a.key_isTagName.not_mem (c := '"') (by decide) (hin.subset (by decide))
    · rintro ⟨r, hr⟩
      cases hr
    · exact absurd (hequals.subset (by decide)) (a.key_isTagName.not_mem (c := '=') (by decide))
  have hvalue : Passes a.value (['"'] ++ rest) := by
    refine passes_of (fun hin => ?_) (fun _ => ?_) (fun _ => ?_) fun hend => absurd hend a.value_end
    · exact a.quote_not_mem (hin.subset (by decide))
    · rintro ⟨r, hr⟩
      cases hr
    · rintro ⟨r, hr⟩
      cases hr
  refine (passes_of_not_mem (not_mem_of_blank a.gap_blank (by decide)) _).append (hkey.append ?_)
  exact (passes_of_not_mem (s := ['=', '"']) (by decide) _).append
    (hvalue.append (passes_of_not_mem (by decide) rest))

theorem atNameStart_reverse (hs : s ≠ []) (before : Text) :
    atNameStart (s.reverse ++ before) = Text.isBlank (s.getLast hs) := by
  obtain ⟨t, c, rfl⟩ := (List.eq_nil_or_concat s).resolve_left hs
  simp [atNameStart]

/-- **An `id="` counts if it is a whole name.** -/
theorem occurrence?_attribute {front : Text} (a : QuotedAttribute)
    (hkey : front ++ "id".toList = a.key) (hname : IsTagName name) (h : IsInside s) (before : Text) :
    Document.occurrence? ((a.gap ++ front).reverse ++ ((name ++ s).reverse ++ '<' :: before))
      a.value = a.occurrence? name := by
  have hne : a.gap ++ front ≠ [] := by simp [a.gap_ne]
  rw [Document.occurrence?, QuotedAttribute.occurrence?, atNameStart_reverse hne]
  -- before the `id` stands a blank if it is the whole name, and else a character of the name
  by_cases hfront : front = []
  · subst hfront
    have hblank : Text.isBlank ((a.gap ++ []).getLast hne) = true :=
      a.gap_blank _ (by simp)
    have hinside := openedTag?_inside hname (h.append (isInside_of_blank a.gap_blank))
      (by simp [a.gap_ne]) before
    have hbefore : (a.gap ++ []).reverse ++ ((name ++ s).reverse ++ '<' :: before) =
        (name ++ (s ++ a.gap)).reverse ++ '<' :: before := by
      simp only [List.reverse_append, List.append_assoc, List.append_nil]
    rw [hblank, hbefore, hinside]
    cases hvalue : a.value <;> simp [← hkey]
  · have hlast : (a.gap ++ front).getLast hne = front.getLast hfront :=
      List.getLast_append_of_ne_nil hne hfront
    have hblank : Text.isBlank (front.getLast hfront) = false :=
      (of_isTagChar (a.key_isTagName.2 _
        (hkey ▸ List.mem_append_left _ (List.getLast_mem hfront)))).1
    have hother : a.key ≠ "id".toList := fun hid =>
      hfront (List.append_left_eq_self.1 (hkey.trans hid))
    rw [hlast, hblank, if_pos (by simp), if_neg fun hid => hother hid.1]

/-- **An attribute is read**, whatever follows it. -/
theorem occurrencesFrom_attribute (a : QuotedAttribute) (hname : IsTagName name) (h : IsInside s)
    (before rest : Text) :
    occurrencesFrom ((name ++ s).reverse ++ '<' :: before) (a.print ++ rest) =
      (a.occurrence? name).toList ++
        occurrencesFrom ((name ++ (s ++ a.print)).reverse ++ '<' :: before) rest := by
  -- after a name that ends in `id` the whole value is read, whether it counts or not
  by_cases hid : "id".toList <:+ a.key
  · obtain ⟨front, hkey⟩ := hid
    have hkeys : ∀ c ∈ front, isTagChar c = true := fun c hc =>
      a.key_isTagName.2 c (hkey ▸ List.mem_append_left _ hc)
    have hprint : a.print = (a.gap ++ front) ++ (needle ++ (a.value ++ ['"'])) := by
      have hneedle : needle = "id".toList ++ ['=', '"'] := rfl
      rw [QuotedAttribute.print, ← hkey, hneedle]
      simp only [List.append_assoc, List.cons_append, List.nil_append]
    have hpasses : Passes (a.gap ++ front) (needle ++ (a.value ++ '"' :: rest)) := by
      refine passes_of_breaks (not_infix_of_not_mem ?_) fun c hc => ?_
      · rw [List.mem_append, not_or]
        exact ⟨not_mem_of_blank a.gap_blank (by decide),
          fun hm => absurd (hkeys _ hm) (by decide)⟩
      · cases hc
        decide
    have hwhole : a.print ++ rest = (a.gap ++ front) ++ (needle ++ (a.value ++ '"' :: rest)) := by
      rw [hprint]
      simp only [List.append_assoc, List.cons_append, List.nil_append]
    rw [hwhole, occurrencesFrom_append hpasses, occurrencesFrom_needle a.quote_not_mem,
      occurrence?_attribute a hkey hname h, hprint]
    simp only [List.reverse_append, List.append_assoc]
  · have hnone : a.occurrence? name = none := by
      rw [QuotedAttribute.occurrence?, if_neg]
      rintro ⟨hkey, -⟩
      exact hid (hkey ▸ List.suffix_rfl)
    rw [occurrencesFrom_append (a.passes_print hid rest), hnone]
    simp only [List.reverse_append, List.append_assoc, Option.toList_none, List.nil_append]

/-- The attributes of a tag are read one after the other. -/
theorem occurrencesFrom_attributes (attributes : List QuotedAttribute) (hname : IsTagName name)
    (h : IsInside s) (before rest : Text) :
    occurrencesFrom ((name ++ s).reverse ++ '<' :: before)
        (attributes.flatMap QuotedAttribute.print ++ rest) =
      attributes.filterMap (·.occurrence? name) ++
        occurrencesFrom ((name ++ (s ++ attributes.flatMap QuotedAttribute.print)).reverse ++
          '<' :: before) rest := by
  induction attributes generalizing s with
  | nil => simp
  | cons a attributes ih =>
    rw [List.flatMap_cons, List.append_assoc, occurrencesFrom_attribute a hname h,
      ih (h.append a.isInside_print), List.append_assoc s, ← List.append_assoc]
    congr 1
    cases h : a.occurrence? name <;> simp [h]

theorem isInside_attributes (attributes : List QuotedAttribute) :
    IsInside (attributes.flatMap QuotedAttribute.print) := by
  induction attributes with
  | nil => exact isInside_of_blank fun c hc => absurd hc List.not_mem_nil
  | cons a attributes ih => exact a.isInside_print.append ih

/-! ### Reading a page -/

/-- Behind the name of a tag stands a blank, or what ends the tag. -/
theorem IsInside.breaks (h : IsInside s) (ht : Breaks t) : Breaks (s ++ t) := by
  cases s with
  | nil => exact ht
  | cons c s =>
    intro d hd hmem
    have hblank : Text.isBlank d = true := h.2 d hd
    have hneedle : ∀ e ∈ "d=\"".toList, Text.isBlank e = false :=
      Text.forall_mem_of_all (by decide)
    rw [hneedle d hmem] at hblank
    cases hblank

/-- **A tag is read**: its ids are those of its attributes. -/
theorem occurrencesFrom_tag (hname : IsTagName name) (attributes : List QuotedAttribute) {gap : Text}
    (hgap : ∀ c ∈ gap, Text.isBlank c = true) (closed : Bool) (before rest : Text) :
    occurrencesFrom before ((Piece.tag name hname attributes gap hgap closed).print ++ rest) =
      attributes.filterMap (·.occurrence? name) ++
        occurrencesFrom ((Piece.tag name hname attributes gap hgap closed).print.reverse ++ before)
          rest := by
  have hbreaks : Breaks (tagEnd closed ++ rest) := by
    intro c hc
    cases closed <;> (cases hc; decide)
  have hfirst : Passes ('<' :: name)
      (attributes.flatMap QuotedAttribute.print ++ (gap ++ (tagEnd closed ++ rest))) :=
    passes_of_breaks (not_infix_of_not_mem (by simp [hname.not_mem (c := '"') (by decide)]))
      ((isInside_attributes attributes).breaks ((isInside_of_blank hgap).breaks hbreaks))
  have hlast : Passes (gap ++ tagEnd closed) rest := by
    refine passes_of_not_mem ?_ rest
    rw [List.mem_append, not_or]
    refine ⟨not_mem_of_blank hgap (by decide), ?_⟩
    cases closed <;> decide
  have hread := occurrencesFrom_attributes attributes hname
    (isInside_of_blank fun c hc => absurd hc List.not_mem_nil) before
    (gap ++ (tagEnd closed ++ rest))
  simp only [Piece.print, List.append_assoc, List.nil_append, List.append_nil,
    List.reverse_append, List.reverse_cons, List.singleton_append] at hread ⊢
  rw [occurrencesFrom_append hfirst]
  simp only [List.reverse_cons, List.append_assoc, List.singleton_append]
  rw [hread, ← List.append_assoc gap, occurrencesFrom_append hlast]
  simp only [List.reverse_append, List.append_assoc]

/-- **A piece is read**, if no text follows a text. -/
theorem occurrencesFrom_piece (p : Piece) (h : p.isText = true → Breaks rest) (before : Text) :
    occurrencesFrom before (p.print ++ rest) =
      p.occurrences ++ occurrencesFrom (p.print.reverse ++ before) rest := by
  cases p with
  | text s hbracket hneedle => exact occurrencesFrom_append (passes_of_breaks hneedle (h rfl))
  | bare inside hmem =>
    have hinside : Passes ('<' :: inside) (['>'] ++ rest) := by
      refine passes_of_breaks (not_infix_of_not_mem (by simp [hmem])) fun c hc => ?_
      cases hc
      decide
    exact occurrencesFrom_append (hinside.append (passes_of_not_mem (by decide) rest))
  | tag name hname attributes gap hgap closed =>
    exact occurrencesFrom_tag hname attributes hgap closed before rest

/-- What is not text begins with a bracket. -/
theorem Piece.breaks_print {p : Piece} (h : p.isText = false) (rest : Text) :
    Breaks (p.print ++ rest) := by
  cases p with
  | text => cases h
  | bare =>
    intro c hc
    cases hc
    decide
  | tag =>
    intro c hc
    cases hc
    decide

/-- **The ids of a page are found**, each with the name of its tag. -/
theorem occurrences_print (page : Page) : occurrences page.print = page.occurrences := by
  obtain ⟨pieces, hchain⟩ := page
  have hpieces (before : Text) : occurrencesFrom before (pieces.flatMap Piece.print) =
      pieces.flatMap Piece.occurrences := by
    -- the chain is used where a text stands first: then what follows it begins with a bracket
    induction pieces generalizing before with
    | nil => simp only [List.flatMap_nil, occurrencesFrom]
    | cons p pieces ih =>
      have hbreaks (hp : p.isText = true) : Breaks (pieces.flatMap Piece.print) := by
        cases pieces with
        | nil => exact fun c hc => absurd hc (by simp)
        | cons q pieces =>
          refine Piece.breaks_print ?_ _
          have hapart := (List.isChain_cons_cons.1 hchain).1
          simpa [hp] using hapart
      rw [List.flatMap_cons, occurrencesFrom_piece p hbreaks, ih hchain.of_cons, List.flatMap_cons]
  exact hpieces []

/-- **The constants of a page are those of its tags.** -/
theorem bindings_print (page : Page) : bindings page.print = constantsOf page.occurrences := by
  rw [bindings, occurrences_print, bindingsOf_eq]

/-- A value may hold what ends a tag, and `data-id` is no id. -/
example : ∃ page : Page, page.print = "<p data-id=\"a\" id=\"b />\">id=c</p>".toList ∧
    page.occurrences = [⟨"b />".toList, "p".toList⟩] :=
  have hblank : ∀ c ∈ [' '], Text.isBlank c = true := List.all_eq_true.1 rfl
  let other : QuotedAttribute := ⟨[' '], "data-id".toList, "a".toList, by decide, hblank,
    ⟨by decide, List.all_eq_true.1 rfl⟩, by decide, by decide, by decide⟩
  let id : QuotedAttribute := ⟨[' '], "id".toList, "b />".toList, by decide, hblank,
    ⟨by decide, List.all_eq_true.1 rfl⟩, by decide, by decide, by decide⟩
  ⟨⟨[.tag "p".toList ⟨by decide, List.all_eq_true.1 rfl⟩ [other, id] [] nofun false,
    .text "id=c".toList (by decide) (by decide), .bare "/p".toList (by decide)],
    by simp [Piece.isText]⟩, rfl, rfl⟩

end Document
end TemplateBindings
