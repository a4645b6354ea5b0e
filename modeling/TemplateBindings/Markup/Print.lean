import TemplateBindings.Markup.Tree

/-!
# Printing trees

A tree as markup again. The printed form is canonical: attributes are sorted by name, every value is
quoted, only the characters that markup itself uses are written as references, and an element that
never has content is closed by a slash.
-/

namespace TemplateBindings
namespace Markup

/-! ### Texts and values -/

/-- How one character of a text or a value is written. -/
def escapeChar (c : Char) : Text :=
  if c = '&' then "&amp;".toList
  else if c = '<' then "&lt;".toList
  else if c = '>' then "&gt;".toList
  else [c]

/-- **A text with the characters of markup as references**. -/
def escape (s : Text) : Text := s.flatMap escapeChar

/-- A value between quotes: double ones, unless only the value has some; if it has both kinds its
double quotes become references. -/
def quoteValue (value : Text) : Text :=
  if value.contains '"' then
    if value.contains '\'' then
      '"' :: value.flatMap (fun c => if c = '"' then "&quot;".toList else [c]) ++ ['"']
    else '\'' :: value ++ ['\'']
  else '"' :: value ++ ['"']

/-! ### The encoding that a page declares -/

/-- The name of the encoding that printed pages have. -/
def encodingName : Text := "utf-8".toList

/-- What follows the mark of an encoding in a content type: blanks, then the key and its equals
sign. What was read is given too. -/
def afterEncodingKey? (s : Text) : Option (Text × Text) :=
  (Text.after? "charset=".toList (Text.dropBlanks s)).map fun rest =>
    (s.takeWhile Text.isBlank ++ "charset=".toList, rest)

/-- What follows the key of an encoding is shorter than what the key is part of. -/
theorem length_afterEncodingKey {s key rest : Text} (h : afterEncodingKey? s = some (key, rest)) :
    rest.length < s.length := by
  obtain ⟨r, hr, he⟩ := Option.map_eq_some_iff.1 h
  simp only [Prod.mk.injEq] at he
  have h₁ := Text.length_dropBlanks_le s
  have h₂ := congrArg List.length (Text.eq_append_of_after? hr)
  simp only [List.length_append] at h₂
  have h₃ : ("charset=".toList).length = 8 := rfl
  rw [← he.2]
  omega

/-- A content type with the name of every encoding in it replaced. The key of an encoding stands at
the start of a line, which `lineStart` says of the place reached, or behind a semicolon. -/
def declareEncoding (lineStart : Bool) (s : Text) : Text :=
  match s with
  | [] => []
  | c :: cs =>
    match _h : if lineStart then afterEncodingKey? (c :: cs) else none with
    | some (key, rest) => key ++ encodingName ++ declareEncoding false (rest.dropWhile (· != ';'))
    | none =>
      match _h' : if c = ';' then afterEncodingKey? cs else none with
      | some (key, rest) =>
        c :: key ++ encodingName ++ declareEncoding false (rest.dropWhile (· != ';'))
      | none => c :: declareEncoding (c = '\n') cs
termination_by s.length
decreasing_by
  · have h₁ := (List.dropWhile_sublist (l := rest) (· != ';')).length_le
    split at _h
    · have := length_afterEncodingKey _h
      omega
    · simp at _h
  · have h₁ := (List.dropWhile_sublist (l := rest) (· != ';')).length_le
    split at _h'
    · have := length_afterEncodingKey _h'
      simp only [List.length_cons]
      omega
    · simp at _h'
  · simp

/-- The value of an attribute as the element prints it. A page is printed in one encoding, and the
elements that declare the encoding of their page say so. -/
def printedValue (tag : Text) (attributes : List Attribute) (a : Attribute) : Text :=
  if tag = "meta".toList then
    if a.name = "charset".toList then encodingName
    else if a.name = "content".toList
        && (Attribute.get? attributes "charset".toList).isNone
        && (Attribute.get? attributes "http-equiv".toList).map Text.lower
          = some "content-type".toList then
      declareEncoding true a.value
    else a.value
  else a.value

/-! ### Nodes -/

/-- One attribute, printed. -/
def printAttribute (name value : Text) : Text :=
  ' ' :: name ++ '=' :: quoteValue (escape value)

/-- The attributes of an element, printed in the order of their names. -/
def printAttributes (tag : Text) (attributes : List Attribute) : Text :=
  (Text.orderedBy (·.name) attributes).flatMap fun a =>
    printAttribute a.name (printedValue tag attributes a)

/-- A text printed by its kind; plain and held texts are escaped, unless their parent has raw text.
-/
def printText (inRaw : Bool) (kind : TextKind) (content : Text) : Text :=
  match kind with
  | .plain => if inRaw then content else escape content
  | .held _ => if inRaw then content else escape content
  | .comment => "<!--".toList ++ content ++ "-->".toList
  | .data => "<![CDATA[".toList ++ content ++ "]]>".toList
  | .instruction => "<?".toList ++ content ++ ">".toList
  | .declaration => "<?".toList ++ content ++ "?>".toList
  | .doctype => "<!DOCTYPE ".toList ++ content ++ ">\n".toList

/-- Whether the text of an element with this tag is raw. -/
def isRawTag (tag : Text) : Bool := (RawElement.ofTag? tag).isSome

mutual

/-- **A node as markup**; `inRaw` says whether its parent has raw text. -/
def print (inRaw : Bool) : Node → Text
  | .text kind content => printText inRaw kind content
  | .element tag attributes children =>
    '<' :: tag ++ printAttributes tag attributes ++
      if isVoid tag && children.isEmpty then "/>".toList
      else '>' :: printAll (isRawTag tag) children ++ "</".toList ++ tag ++ ['>']

/-- Nodes as markup, one after the other. -/
def printAll (inRaw : Bool) : List Node → Text
  | [] => []
  | node :: rest => print inRaw node ++ printAll inRaw rest

end

/-- A top-level node as markup. -/
def printRoot (node : Node) : Text := print false node

end Markup
end TemplateBindings
