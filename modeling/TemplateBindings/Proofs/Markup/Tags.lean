import TemplateBindings.Markup.Token
import TemplateBindings.Proofs.Markup.Values

/-!
# Tags, written and read

A tag with plain names is read as it was printed: a start tag with its attributes
(`TemplateBindings.Markup.startTag_open`), one that is closed by a slash
(`TemplateBindings.Markup.startTag_closed`), and an end tag (`TemplateBindings.Markup.endTag_print`).
What follows the tag is left as it is, whatever it may be.
-/

namespace TemplateBindings
namespace Markup

variable {c quote : Char} {name tag inner rest ending : Text} {shown : List Attribute}

/-! ### Plain names -/

/-- The small ASCII letters. -/
def isSmallLetter (c : Char) : Bool := 'a' ≤ c && c ≤ 'z'

/-- The characters of a plain name behind its first one. -/
def isPlainChar (c : Char) : Bool :=
  isSmallLetter c || Text.isAsciiDigit c || c == '-' || c == '_'

/-- **Plain names**: a small ASCII letter, and then small ASCII letters, digits, hyphens and
underscores. -/
def isPlainName : Text → Bool
  | c :: cs => isSmallLetter c && cs.all isPlainChar
  | [] => false

theorem toNat_lt_of_isPlainChar (h : isPlainChar c = true) : c.toNat < 128 := by
  simp only [isPlainChar, isSmallLetter, Text.isAsciiDigit, Bool.or_eq_true, Bool.and_eq_true,
    decide_eq_true_eq, beq_iff_eq, Char.le_def, UInt32.le_iff_toNat_le] at h
  have ha : ('a' : Char).val.toNat = 97 := rfl
  have hz : ('z' : Char).val.toNat = 122 := rfl
  have h9 : ('9' : Char).val.toNat = 57 := rfl
  rcases h with ((h | h) | rfl) | rfl
  · rw [Char.toNat]
    omega
  · rw [Char.toNat]
    omega
  · decide
  · decide

/-- A property of characters that the ASCII ones have one by one. -/
theorem of_forall_ascii {p : Char → Prop} (h : ∀ n < 128, p (Char.ofNat n)) (hc : c.toNat < 128) :
    p c := by
  have := h c.toNat hc
  rwa [Char.ofNat_toNat] at this

/-- **What scanning asks of characters**, for those of plain names. -/
theorem scan_isPlainChar (h : isPlainChar c = true) :
    isTagNameChar c = true ∧ isEndNameChar c = true ∧ isAttributeNameChar c = true ∧
      c.toLower = c := by
  refine of_forall_ascii (p := fun c => isPlainChar c = true → isTagNameChar c = true ∧
    isEndNameChar c = true ∧ isAttributeNameChar c = true ∧ c.toLower = c) ?_
    (toNat_lt_of_isPlainChar h) h
  decide +kernel

/-- What scanning asks of the first character of a plain name. -/
theorem scan_isSmallLetter (h : isSmallLetter c = true) :
    Text.isAsciiLetter c = true ∧ Text.isBlank c = false ∧ c ≠ '/' ∧ c ≠ '!' ∧ c ≠ '?' ∧
      c ≠ '=' := by
  have hplain : isPlainChar c = true := by rw [isPlainChar, h, Bool.true_or, Bool.true_or,
    Bool.true_or]
  refine of_forall_ascii (p := fun c => isSmallLetter c = true → Text.isAsciiLetter c = true ∧
    Text.isBlank c = false ∧ c ≠ '/' ∧ c ≠ '!' ∧ c ≠ '?' ∧ c ≠ '=') ?_
    (toNat_lt_of_isPlainChar hplain) h
  decide +kernel

/-- A plain name is a small letter and plain characters. -/
theorem exists_of_isPlainName (h : isPlainName name = true) :
    ∃ c cs, name = c :: cs ∧ isSmallLetter c = true ∧ ∀ d ∈ c :: cs, isPlainChar d = true := by
  cases name with
  | nil => cases h
  | cons c cs =>
    rw [isPlainName, Bool.and_eq_true, List.all_eq_true] at h
    refine ⟨c, cs, rfl, h.1, List.forall_mem_cons.2 ⟨?_, h.2⟩⟩
    rw [isPlainChar, h.1, Bool.true_or, Bool.true_or, Bool.true_or]

theorem forall_isPlainChar (h : isPlainName name = true) : ∀ d ∈ name, isPlainChar d = true := by
  obtain ⟨c, cs, rfl, -, hall⟩ := exists_of_isPlainName h
  exact hall

/-- A plain name is in small letters. -/
theorem lower_of_isPlainName (h : isPlainName name = true) : Text.lower name = name := by
  have hfrom (before : Text) (s : Text) (hs : ∀ d ∈ s, isPlainChar d = true) :
      Text.lowerFrom before s = s := by
    induction s generalizing before with
    | nil => rfl
    | cons c s ih =>
      obtain ⟨hc, hs⟩ := List.forall_mem_cons.1 hs
      have hlt := toNat_lt_of_isPlainChar hc
      have hsigma : c ≠ 'Σ' := by
        rintro rfl
        revert hlt
        decide
      rw [Text.lowerFrom, if_neg hsigma, Text.lowerChar, if_pos hlt, (scan_isPlainChar hc).2.2.2,
        ih (c :: before) hs, List.singleton_append]
  exact hfrom [] name (forall_isPlainChar h)

/-! ### Attributes -/

/-- The attributes of an element as its start tag shows them. -/
def shownAttributes (tag : Text) (attributes : List Attribute) : List Attribute :=
  (Text.orderedBy (·.name) attributes).map fun a => ⟨a.name, printedValue tag attributes a⟩

/-- Attributes, printed one after the other. -/
def printShown (shown : List Attribute) : Text :=
  shown.flatMap fun a => printAttribute a.name a.value

theorem printAttributes_eq (tag : Text) (attributes : List Attribute) :
    printAttributes tag attributes = printShown (shownAttributes tag attributes) := by
  rw [printAttributes, printShown, shownAttributes, List.flatMap_map]

theorem skipSeparators_of_ne (hc : c ≠ '/') (rest : Text) :
    skipSeparators (c :: rest) =
      if Text.isBlank c then skipSeparators rest else c :: rest := by
  rw [skipSeparators.eq_def]
  split
  · next he => exact absurd (List.cons.inj he).1 hc
  · next he => exact absurd (List.cons.inj he).1 hc
  · next he =>
    cases he
    rfl
  · next he => cases he

theorem skipSeparators_blank (h : Text.isBlank c = true) (rest : Text) :
    skipSeparators (c :: rest) = skipSeparators rest := by
  have hc : c ≠ '/' := by
    rintro rfl
    revert h
    decide
  rw [skipSeparators_of_ne hc, if_pos h]

theorem skipSeparators_of_not (h : Text.isBlank c = false) (hc : c ≠ '/') (rest : Text) :
    skipSeparators (c :: rest) = c :: rest := by
  rw [skipSeparators_of_ne hc, if_neg (by simp [h])]

/-- The end of a start tag, and what follows. -/
inductive IsEnding : Text → Prop where
  /-- The tag opens an element. -/
  | opened (rest : Text) : IsEnding ('>' :: rest)
  /-- The tag closes its element at once. -/
  | closed (rest : Text) : IsEnding ('/' :: '>' :: rest)

theorem IsEnding.skipSeparators_eq (h : IsEnding ending) : skipSeparators ending = ending := by
  cases h with
  | opened rest => exact skipSeparators_of_not (by decide) (by decide) rest
  | closed rest => rfl

theorem IsEnding.attributesFrom_eq (h : IsEnding ending) (parted : Bool) :
    attributesFrom parted ending = ([], ending) := by
  cases h <;> rw [attributesFrom, if_neg] <;> simp [opensAttributeName]

/-- A value between quotes is read whole. -/
theorem valueAfterName_quoted (hq : IsQuote quote) (h : quote ∉ inner) (last : Char) (rest : Text) :
    valueAfterName last ('=' :: (quote :: inner ++ [quote] ++ rest)) = ⟨inner, quote, rest⟩ := by
  have hcut := Text.cutAt_append h rest
  have hequals : quote ≠ '=' := by rcases hq with rfl | rfl <;> decide
  have hblank : Text.isBlank quote = false := by rcases hq with rfl | rfl <;> decide
  have hdrop : ('=' :: (quote :: inner ++ [quote] ++ rest)).dropWhile (· == '=') =
      quote :: (inner ++ quote :: rest) := by
    rw [List.dropWhile_cons_of_pos (by decide), List.cons_append, List.cons_append,
      List.dropWhile_cons_of_neg (by simpa using hequals), List.append_assoc]
    rfl
  have hstart : Text.dropBlanks (quote :: (inner ++ quote :: rest)) =
      quote :: (inner ++ quote :: rest) := by
    rw [Text.dropBlanks, List.dropWhile_cons_of_neg (by simp [hblank])]
  have hvalue : valueAfterEquals? ('=' :: (quote :: inner ++ [quote] ++ rest)) =
      some ⟨inner, quote, rest⟩ := by
    rw [valueAfterEquals?, hdrop, hstart]
    rcases hq with rfl | rfl <;> simp only [hcut]
  rw [valueAfterName, Text.dropBlanks, List.dropWhile_cons_of_neg (by decide)]
  simp only [hvalue, Option.getD_some]

/-- **Printed attributes are read back**: their names, and what their values resolve to. -/
theorem attributesFrom_printShown (hend : IsEnding ending)
    (hnames : ∀ a ∈ shown, isPlainName a.name = true) (parted : Bool)
    (hparted : shown ≠ [] → parted = true) :
    ∃ written, attributesFrom parted (skipSeparators (printShown shown ++ ending)) =
        (written, ending) ∧
      (written.map fun a => ⟨a.name, Reference.resolve a.value⟩) = shown ∧
      ∀ a ∈ written, Reference.tooManyDigitsIn? a.value = none := by
  induction shown generalizing parted with
  | nil =>
    refine ⟨[], ?_, rfl, by simp⟩
    rw [printShown, List.flatMap_nil, List.nil_append, hend.skipSeparators_eq,
      hend.attributesFrom_eq]
  | cons a shown ih =>
    obtain ⟨hname, hnames⟩ := List.forall_mem_cons.1 hnames
    obtain ⟨quote, inner, hq, hin, hquoted, hresolve, hdigits⟩ := exists_quoteValue a.value
    obtain ⟨c, cs, heq, hc, hall⟩ := exists_of_isPlainName hname
    obtain ⟨-, hblank, hslash, -, -, -⟩ := scan_isSmallLetter hc
    obtain ⟨hcplain, hcs⟩ := List.forall_mem_cons.1 hall
    obtain ⟨written, hfrom, hmap, hnone⟩ := ih hnames true fun _ => rfl
    -- the separator in front of the name is passed over, and nothing of the name
    have htext : skipSeparators (printShown (a :: shown) ++ ending) =
        c :: (cs ++ '=' :: (quote :: inner ++ [quote] ++ (printShown shown ++ ending))) := by
      have hprint : printShown (a :: shown) ++ ending =
          ' ' :: c :: (cs ++ '=' :: (quote :: inner ++ [quote] ++ (printShown shown ++ ending))) := by
        simp only [printShown, List.flatMap_cons, printAttribute, hquoted, heq, List.append_assoc,
          List.cons_append]
      rw [hprint, skipSeparators_blank (by decide), skipSeparators_of_not hblank hslash]
    have htake (t : Text) : (cs ++ '=' :: t).takeWhile isAttributeNameChar = cs := by
      rw [List.takeWhile_append_of_pos fun d hd => (scan_isPlainChar (hcs d hd)).2.2.1,
        List.takeWhile_cons_of_neg (by decide), List.append_nil]
    have hdrop (t : Text) : (cs ++ '=' :: t).dropWhile isAttributeNameChar = '=' :: t := by
      rw [List.dropWhile_append_of_pos fun d hd => (scan_isPlainChar (hcs d hd)).2.2.1,
        List.dropWhile_cons_of_neg (by decide)]
    have hopens : opensAttributeName c = true := by
      have := (scan_isPlainChar hcplain).2.2.1
      rw [isAttributeNameChar, Bool.and_eq_true] at this
      exact this.1
    have hmay : mayPrecedeName quote = true := by rcases hq with rfl | rfl <;> decide
    refine ⟨⟨a.name, inner⟩ :: written, ?_, ?_, ?_⟩
    · rw [htext, attributesFrom, hparted (List.cons_ne_nil a shown), hopens, Bool.true_and,
        if_pos rfl, htake, hdrop]
      dsimp only
      rw [valueAfterName_quoted hq hin]
      dsimp only
      rw [hmay, Bool.or_true, hfrom, ← heq, lower_of_isPlainName hname]
    · rw [List.map_cons, hresolve, hmap]
    · exact List.forall_mem_cons.2 ⟨hdigits, hnone⟩

/-! ### Tags -/

/-- The name of a start tag ends where its attributes begin. -/
theorem span_tag (shown : List Attribute) (htag : isPlainName tag = true)
    (hend : IsEnding ending) :
    (tag ++ (printShown shown ++ ending)).takeWhile isTagNameChar = tag ∧
      (tag ++ (printShown shown ++ ending)).dropWhile isTagNameChar =
        printShown shown ++ ending := by
  have hstop : ∃ c t, printShown shown ++ ending = c :: t ∧ isTagNameChar c = false := by
    cases shown with
    | nil => cases hend <;> exact ⟨_, _, rfl, by decide⟩
    | cons a shown => exact ⟨' ', _, rfl, by decide⟩
  obtain ⟨c, t, heq, hc⟩ := hstop
  have hall : ∀ d ∈ tag, isTagNameChar d = true := fun d hd =>
    (scan_isPlainChar (forall_isPlainChar htag d hd)).1
  rw [heq, List.takeWhile_append_of_pos hall, List.dropWhile_append_of_pos hall,
    List.takeWhile_cons_of_neg (by simp [hc]), List.dropWhile_cons_of_neg (by simp [hc]),
    List.append_nil]
  exact ⟨rfl, rfl⟩

/-- Attributes that were printed part the name from what follows. -/
theorem skipSeparators_ne (hnames : ∀ a ∈ shown, isPlainName a.name = true) (hne : shown ≠ []) :
    (skipSeparators (printShown shown ++ ending) != printShown shown ++ ending) = true := by
  cases shown with
  | nil => exact absurd rfl hne
  | cons a shown =>
    have hlen : (skipSeparators (printShown (a :: shown) ++ ending)).length <
        (printShown (a :: shown) ++ ending).length := by
      have hprint : ∃ t, printShown (a :: shown) ++ ending = ' ' :: t := ⟨_, rfl⟩
      obtain ⟨t, ht⟩ := hprint
      have hle := length_skipSeparators_le t
      rw [ht, skipSeparators_blank (by decide), List.length_cons]
      omega
    rw [bne_iff_ne]
    intro he
    rw [he] at hlen
    exact Nat.lt_irrefl _ hlen

/-- What the attributes in a start tag are read as, up to its end. -/
theorem startTag_printShown (tag : Text)
    (hnames : ∀ a ∈ shown, isPlainName a.name = true) (hend : IsEnding ending) :
    ∃ written, attributesFrom
        (skipSeparators (printShown shown ++ ending) != printShown shown ++ ending
          || mayPrecedeName (tag.getLastD ' ')) (skipSeparators (printShown shown ++ ending)) =
        (written, ending) ∧
      ∀ make, Construct.withAttributes written make = make shown := by
  obtain ⟨written, hfrom, hmap, hnone⟩ := attributesFrom_printShown hend hnames
    (skipSeparators (printShown shown ++ ending) != printShown shown ++ ending
      || mayPrecedeName (tag.getLastD ' '))
    fun hne => by rw [skipSeparators_ne hnames hne, Bool.true_or]
  refine ⟨written, hfrom, fun make => ?_⟩
  rw [Construct.withAttributes, List.findSome?_eq_none_iff.2 hnone, hmap]

/-- **A start tag is read as it was printed.** -/
theorem startTag_open (htag : isPlainName tag = true)
    (hnames : ∀ a ∈ shown, isPlainName a.name = true) (rest : Text) :
    Construct.startTag (tag ++ (printShown shown ++ '>' :: rest)) =
      .read (some (.startTag tag shown)) (RawElement.ofTag? tag) rest := by
  obtain ⟨written, hfrom, hmake⟩ := startTag_printShown tag hnames (.opened rest)
  obtain ⟨htake, hdrop⟩ := span_tag shown htag (.opened rest)
  rw [Construct.startTag, htake, hdrop]
  dsimp only
  rw [hfrom]
  simp only [hmake, lower_of_isPlainName htag]

/-- **A start tag that is closed by a slash is read as it was printed.** -/
theorem startTag_closed (htag : isPlainName tag = true)
    (hnames : ∀ a ∈ shown, isPlainName a.name = true) (rest : Text) :
    Construct.startTag (tag ++ (printShown shown ++ '/' :: '>' :: rest)) =
      .read (some (.closedTag tag shown)) none rest := by
  obtain ⟨written, hfrom, hmake⟩ := startTag_printShown tag hnames (.closed rest)
  obtain ⟨htake, hdrop⟩ := span_tag shown htag (.closed rest)
  rw [Construct.startTag, htake, hdrop]
  dsimp only
  rw [hfrom]
  simp only [hmake, lower_of_isPlainName htag]

/-- **An end tag is read as it was printed.** -/
theorem endTag_print (htag : isPlainName tag = true) (rest : Text) :
    Construct.endTag (tag ++ '>' :: rest) = .read (some (.endTag tag)) none rest := by
  have hmem : '>' ∉ tag := fun hm => by
    have := forall_isPlainChar htag _ hm
    revert this
    decide
  obtain ⟨c, cs, heq, hc, -⟩ := exists_of_isPlainName htag
  obtain ⟨hletter, hblank, -⟩ := scan_isSmallLetter hc
  have hall : ∀ d ∈ tag, isEndNameChar d = true := fun d hd =>
    (scan_isPlainChar (forall_isPlainChar htag d hd)).2.1
  have hstart : Text.dropBlanks tag = tag := by
    rw [heq, Text.dropBlanks, List.dropWhile_cons_of_neg (by simp [hblank])]
  have hletters : startsWithLetter tag = true := by rw [heq, startsWithLetter, hletter]
  have hspan : (tag ++ []).takeWhile isEndNameChar = tag ++ [].takeWhile isEndNameChar :=
    List.takeWhile_append_of_pos hall
  have hbehind : (tag ++ []).dropWhile isEndNameChar = [].dropWhile isEndNameChar :=
    List.dropWhile_append_of_pos hall
  rw [List.append_nil, List.takeWhile_nil, List.append_nil] at hspan
  rw [List.append_nil, List.dropWhile_nil] at hbehind
  rw [Construct.endTag, Text.cutAt_append hmem]
  dsimp only
  rw [endTagToken?, hstart, hletters, hbehind, hspan]
  simp only [Text.isAllBlank, List.all_nil, Bool.and_self, if_true, lower_of_isPlainName htag]

end Markup
end TemplateBindings
