import TemplateBindings.Markup.Print
import TemplateBindings.Proofs.Markup.Tags
import TemplateBindings.Proofs.Text.Order

/-!
# Reading what was printed

A builder that reads the markup of a plain tree, with more markup behind it, does what
`TemplateBindings.Markup.Builder.write` does for the tree and is then in front of the rest
(`TemplateBindings.Markup.readOn_print`). So nothing that is printed depends on what follows it: every
tag and every reference is complete, and two texts next to each other are read as one text.
-/

namespace TemplateBindings
namespace Markup

variable {b : Builder} {c : Char} {s rest name tag : Text} {node : Node} {nodes : List Node}

/-! ### One run -/

/-- **A builder reads on**: what the first run over a text makes of it, with the state and the text
that the run leaves. -/
def readOn (s : Text) (b : Builder) : Except Rejection (Builder × Option RawElement × Text) :=
  (runFrom false none s).map fun run => (run.tokens.foldl Builder.take b, run.raw, run.rest)

theorem readOn_nil (b : Builder) : readOn [] b = .ok (b, none, []) := by
  rw [readOn, runFrom]
  rfl

/-- A step of the run is a step of the builder. -/
theorem readOn_step (tokens : List Token) (h : step false none s = .next tokens none rest)
    (b : Builder) : readOn s b = readOn rest (tokens.foldl Builder.take b) := by
  rw [readOn, readOn, runFrom]
  split
  · next tokens' raw rest' h' =>
    rw [h] at h'
    cases h'
    cases runFrom false none rest with
    | error => rfl
    | ok run => simp only [Except.map, List.foldl_append]
  · next h' => rw [h] at h'; cases h'
  · next h' => rw [h] at h'; cases h'

/-! ### Texts -/

namespace Builder

@[simp] theorem addText_addText (b : Builder) (s t : Text) :
    (b.addText s).addText t = b.addText (s ++ t) := by
  simp [addText, List.append_assoc]

/-- Text added one character after the other; no character leaves the builder as it is. -/
def addChars (b : Builder) (s : Text) : Builder := s.foldl (fun b c => b.addText [c]) b

end Builder

theorem step_data (h : isDataChar c = true) (s : Text) :
    step false none (c :: s) =
      .next [.characters ((c :: s).takeWhile isDataChar)] none ((c :: s).dropWhile isDataChar) := by
  rw [step]
  · rintro rfl
    revert h
    decide
  · rintro rfl
    revert h
    decide

/-- **A character of text is read by itself**, whatever follows: the run takes all of the text at
once, but the builder joins it anyway. -/
theorem readOn_data (h : isDataChar c = true) (s : Text) (b : Builder) :
    readOn (c :: s) b = readOn s (b.addText [c]) := by
  rw [readOn_step _ (step_data h s), List.takeWhile_cons_of_pos h, List.dropWhile_cons_of_pos h,
    List.foldl_cons, List.foldl_nil, Builder.take]
  cases s with
  | nil => rfl
  | cons d t =>
    cases hd : isDataChar d with
    | true =>
      rw [readOn_step _ (step_data hd t), List.foldl_cons, List.foldl_nil, Builder.take,
        Builder.addText_addText, List.singleton_append]
    | false =>
      rw [List.takeWhile_cons_of_neg (by simp [hd]), List.dropWhile_cons_of_neg (by simp [hd])]

theorem readOn_reference (h : (name, [c]) ∈ Reference.markupNames) (s : Text) (b : Builder) :
    readOn (reference name ++ s) b = readOn s (b.addText [c]) := by
  refine readOn_step [.characters [c]] ?_ b
  rcases of_mem_markupNames h with ⟨rfl, rfl⟩ | ⟨rfl, rfl⟩ | ⟨rfl, rfl⟩ | ⟨rfl, rfl⟩ <;> rfl

/-- **Escaped text is read as the text.** -/
theorem readOn_escape (content s : Text) (b : Builder) :
    readOn (escape content ++ s) b = readOn s (b.addChars content) := by
  induction content generalizing b with
  | nil => rfl
  | cons c content ih =>
    have hone : readOn (escapeChar c ++ (escape content ++ s)) b =
        readOn (escape content ++ s) (b.addText [c]) := by
      rcases isWriting_escapeChar c with ⟨hc, hw⟩ | ⟨name, hname, hw⟩
      · rw [hw, List.singleton_append]
        refine readOn_data ?_ _ b
        -- a bracket would have been escaped
        have hlt : c ≠ '<' := by
          rintro rfl
          revert hw
          decide
        simp [isDataChar, hc, hlt]
      · rw [hw, readOn_reference hname]
    rw [escape, List.flatMap_cons, List.append_assoc]
    exact hone.trans (ih (b.addText [c]))

/-! ### Tags -/

theorem ofBracket?_tag (h : isPlainName tag = true) (rest : Text) :
    Construct.ofBracket? (tag ++ rest) = some (Construct.startTag (tag ++ rest)) := by
  obtain ⟨c, cs, rfl, hc, -⟩ := exists_of_isPlainName h
  obtain ⟨hletter, -, hslash, hmark, hquestion, -⟩ := scan_isSmallLetter hc
  rw [List.cons_append, Construct.ofBracket?, if_pos hletter]
  · exact hslash
  · exact hmark
  · exact hquestion

theorem readOn_open {shown : List Attribute} (htag : isPlainName tag = true)
    (hraw : RawElement.ofTag? tag = none) (hnames : ∀ a ∈ shown, isPlainName a.name = true)
    (rest : Text) (b : Builder) :
    readOn ('<' :: (tag ++ (printShown shown ++ '>' :: rest))) b =
      readOn rest (b.take (.startTag tag shown)) := by
  refine readOn_step [.startTag tag shown] ?_ b
  rw [step, bracketStep, ofBracket?_tag htag, startTag_open htag hnames, hraw]
  rfl

theorem readOn_closed {shown : List Attribute} (htag : isPlainName tag = true)
    (hnames : ∀ a ∈ shown, isPlainName a.name = true) (rest : Text) (b : Builder) :
    readOn ('<' :: (tag ++ (printShown shown ++ '/' :: '>' :: rest))) b =
      readOn rest (b.take (.closedTag tag shown)) := by
  refine readOn_step [.closedTag tag shown] ?_ b
  rw [step, bracketStep, ofBracket?_tag htag, startTag_closed htag hnames]
  rfl

theorem readOn_end (htag : isPlainName tag = true) (rest : Text) (b : Builder) :
    readOn ('<' :: '/' :: (tag ++ '>' :: rest)) b = readOn rest (b.take (.endTag tag)) := by
  refine readOn_step [.endTag tag] ?_ b
  rw [step, bracketStep, Construct.ofBracket?, endTag_print htag]
  rfl

/-! ### Trees -/

/-- Whether texts of a kind are printed escaped. -/
def isEscapedKind : TextKind → Bool
  | .plain | .held _ => true
  | _ => false

mutual

/-- **Plain trees**: their elements have plain names and no raw text, and their texts are of given
kinds. -/
def isPlain (kinds : TextKind → Bool) : Node → Bool
  | .text kind _ => kinds kind
  | .element tag attributes children =>
    isPlainName tag && (RawElement.ofTag? tag).isNone &&
      attributes.all (fun a => isPlainName a.name) && allPlain kinds children

/-- Whether all trees in a list are plain. -/
def allPlain (kinds : TextKind → Bool) : List Node → Bool
  | [] => true
  | node :: rest => isPlain kinds node && allPlain kinds rest

end

mutual

/-- **What a builder does when it reads a printed tree.** -/
def Builder.write (b : Builder) : Node → Builder
  | .text _ content => b.addChars content
  | .element tag attributes children =>
    if isVoid tag && children.isEmpty then b.take (.closedTag tag (shownAttributes tag attributes))
    else
      ((b.take (.startTag tag (shownAttributes tag attributes))).writeAll children).take
        (.endTag tag)

/-- What a builder does when it reads printed trees one after the other. -/
def Builder.writeAll (b : Builder) : List Node → Builder
  | [] => b
  | node :: rest => (b.write node).writeAll rest

end

/-- The names that a plain element shows are plain. -/
theorem forall_shownAttributes (tag : Text) {attributes : List Attribute}
    (h : ∀ a ∈ attributes, isPlainName a.name = true) :
    ∀ a ∈ shownAttributes tag attributes, isPlainName a.name = true := by
  intro a ha
  obtain ⟨a', ha', rfl⟩ := List.mem_map.1 ha
  exact h a' (Text.mem_orderedBy.1 ha')

theorem isPlain_element {kinds : TextKind → Bool} {attributes : List Attribute}
    {children : List Node} : isPlain kinds (.element tag attributes children) = true ↔
      isPlainName tag = true ∧ RawElement.ofTag? tag = none ∧
        (∀ a ∈ attributes, isPlainName a.name = true) ∧ allPlain kinds children = true := by
  rw [isPlain, Bool.and_eq_true, Bool.and_eq_true, Bool.and_eq_true, List.all_eq_true,
    Option.isNone_iff_eq_none, and_assoc, and_assoc]

mutual

/-- **A printed tree is read as a whole**, whatever follows. -/
theorem readOn_print (s : Text) (b : Builder) : (node : Node) →
    isPlain isEscapedKind node = true →
      readOn (print false node ++ s) b = readOn s (b.write node)
  | .text kind content, h => by
    rw [Builder.write, ← readOn_escape content s b, print]
    cases kind <;> first | rfl | cases h
  | .element tag attributes children, h => by
    obtain ⟨htag, hraw, hnames, hchildren⟩ := isPlain_element.1 h
    have hshown := forall_shownAttributes tag hnames
    have hprint : isRawTag tag = false := by rw [isRawTag, hraw]; rfl
    rw [Builder.write, print, printAttributes_eq]
    split
    · rw [← readOn_closed htag hshown]
      simp only [List.cons_append, List.append_assoc]
      rfl
    · -- the children stand between the two tags, and the end tag is what follows them
      rw [← readOn_end htag, ← readOn_printAll ('<' :: '/' :: (tag ++ '>' :: s)) _ children hchildren,
        ← readOn_open htag hraw hshown, hprint]
      simp [List.append_assoc]

theorem readOn_printAll (s : Text) (b : Builder) : (nodes : List Node) →
    allPlain isEscapedKind nodes = true →
      readOn (printAll false nodes ++ s) b = readOn s (b.writeAll nodes)
  | [], _ => rfl
  | node :: rest, h => by
    rw [allPlain, Bool.and_eq_true] at h
    rw [printAll, Builder.writeAll, List.append_assoc,
      readOn_print (printAll false rest ++ s) b node h.1, readOn_printAll s _ rest h.2]

end

/-- **Parsing a printed tree** gives what its builder finishes with. -/
theorem parse_print (h : isPlain isEscapedKind node = true) :
    parse (print false node) = .ok (Builder.empty.write node).finish := by
  have hread := readOn_print [] .empty node h
  rw [List.append_nil, readOn_nil, readOn] at hread
  cases hrun : runFrom false none (print false node) with
  | error rejection => rw [hrun] at hread; cases hread
  | ok run =>
    rw [hrun] at hread
    obtain ⟨tokens, raw, rest⟩ := run
    simp only [Except.map, Except.ok.injEq, Prod.mk.injEq] at hread
    obtain ⟨htokens, rfl, rfl⟩ := hread
    have hsecond : runFrom true none [] = .ok ⟨[], none, []⟩ := by rw [runFrom]; rfl
    rw [parse, Markup.tokens, hrun]
    simp only [hsecond, Option.isNone_none, if_true, textToken, List.isEmpty_nil, List.append_nil,
      htokens]

end Markup
end TemplateBindings
