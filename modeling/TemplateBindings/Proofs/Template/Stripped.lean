import TemplateBindings.Proofs.Markup.Reading
import TemplateBindings.Proofs.Template.Places

/-!
# What stripping takes away

Stripping works down a tree and remembers only whether it is inside an element whose blanks matter. Seen
from a single element it is simpler: the element keeps its place, its tag and its attributes, and of its
children it keeps, in their order, all but the comments and the blank texts that stand in no such element
(`TemplateBindings.Template.strip_children`).

Blanks are those of Unicode here, as everywhere in this library, and not the few of markup. So a text
that consists of a no-break space alone is taken away too, though it is seen on the page
(`TemplateBindings.Template.strip_loses_noBreakSpace`).
-/

namespace TemplateBindings

open Markup

namespace Markup.Node

/-! ### Single nodes -/

/-- **A node without its children.** -/
inductive Head where
  /-- An element with its tag and its attributes. -/
  | element (tag : Text) (attributes : List Attribute)
  /-- A text of some kind. -/
  | text (kind : TextKind) (content : Text)
  deriving DecidableEq

/-- What a node is, its children apart. -/
def head : Node → Head
  | element tag attributes _ => .element tag attributes
  | text kind content => .text kind content

/-- The tags on the way from a root to a place, both ends included. -/
def tagsAlong (node : Node) : (path : List Int) → List Text
  | [] => [node.tag]
  | index :: path =>
    node.tag :: ((memberAt? node.elementChildren index).map (·.tagsAlong path)).getD []

end Markup.Node

namespace Template

open Markup.Node

/-- The tags of the elements whose blanks matter. -/
def preservingTags : List Text := ["pre", "textarea", "script", "style"].map String.toList

/-- **What may be taken away** from inside the elements with some tags: comments, and plain texts of
blanks alone if no blanks matter in these elements. -/
def IsRemoved (isBlank : Char → Bool) (within : List Text) : Node → Prop
  | .element .. => False
  | .text kind content =>
    kind = .comment ∨
      kind = .plain ∧ (∀ c ∈ content, isBlank c = true) ∧ ∀ tag ∈ within, tag ∉ preservingTags

instance (isBlank : Char → Bool) (within : List Text) :
    (node : Node) → Decidable (IsRemoved isBlank within node)
  | .element .. => inferInstanceAs (Decidable False)
  | .text .. => inferInstanceAs (Decidable (_ ∨ _))

/-- **An element before and after its children were thinned out**: it stays what it is, and so do its
children that are not removed, in their order. -/
structure Thinned (isBlank : Char → Bool) (within : List Text) (node stored : Node) : Prop where
  head_eq : stored.head = node.head
  children_eq : stored.children.map Node.head =
    (node.children.filter fun child => ¬ IsRemoved isBlank within child).map Node.head

variable {root node : Node} {preserved : Bool} {within : List Text}

/-! ### One list of children -/

theorem preservesBlanks_iff {tag : Text} : preservesBlanks tag = true ↔ tag ∈ preservingTags := by
  simp only [preservesBlanks, preservingTags, Bool.or_eq_true, decide_eq_true_eq, List.map_cons,
    List.map_nil, List.mem_cons, List.not_mem_nil, or_false, or_assoc]

theorem head_stripNode (preserved : Bool) (node : Node) :
    (stripNode preserved node).head = node.head := by
  cases node <;> rfl

/-- Whether a child is dropped, by the elements it stands in. -/
def isDroppedNode (preserved : Bool) : Node → Bool
  | .element .. => false
  | .text kind content => isDropped preserved kind content

/-- **Siblings are stripped each by itself**, once some of them are dropped. -/
theorem stripNodes_eq (preserved : Bool) (nodes : List Node) :
    stripNodes preserved nodes =
      (nodes.filter fun node => !isDroppedNode preserved node).map (stripNode preserved) := by
  induction nodes with
  | nil => rfl
  | cons node rest ih =>
    cases node with
    | element tag attributes children =>
      rw [stripNodes, ih]
      rfl
    | text kind content =>
      rw [stripNodes]
      split
      · next h => rw [List.filter_cons_of_neg (by simp [isDroppedNode, h]), ih]
      · next h =>
        rw [List.filter_cons_of_pos (by simp [isDroppedNode, h]), ih]
        rfl

theorem children_stripNode (preserved : Bool) (node : Node) :
    (stripNode preserved node).children =
      stripNodes (preserved || preservesBlanks node.tag) node.children := by
  cases node <;> rfl

/-- No element is dropped. -/
theorem elementChildren_stripNode (preserved : Bool) (node : Node) :
    (stripNode preserved node).elementChildren =
      node.elementChildren.map (stripNode (preserved || preservesBlanks node.tag)) := by
  have hkept (q : Bool) (child : Node) :
      ((stripNode q child).isElement && !isDroppedNode q child) = child.isElement := by
    cases child <;> rfl
  rw [elementChildren, children_stripNode, stripNodes_eq, List.filter_map, List.filter_filter,
    elementChildren]
  simp only [Function.comp_def, hkept]

/-- What is dropped is what may be taken away. -/
theorem isDroppedNode_iff {preserved : Bool} (h : preserved = within.any preservesBlanks)
    (node : Node) : isDroppedNode preserved node = true ↔ IsRemoved Text.isBlank within node := by
  have hpreserved : preserved = false ↔ ∀ tag ∈ within, tag ∉ preservingTags := by
    rw [h, List.any_eq_false]
    simp only [preservesBlanks_iff]
  cases node with
  | element tag attributes children => exact iff_of_false Bool.false_ne_true id
  | text kind content =>
    rw [isDroppedNode, isDropped, IsRemoved, ← hpreserved]
    simp only [Bool.or_eq_true, Bool.and_eq_true, decide_eq_true_eq, Text.isAllBlank,
      List.all_eq_true, Bool.not_eq_true', and_assoc]

/-! ### The element at a place -/

/-- **The element at a place of a stripped tree** is the stripped element of the tree; whether blanks
matter in it depends on the elements that it stands in. -/
theorem at?_stripNode (preserved : Bool) (root : Node) (path : List Int) :
    Option.Rel (fun node stored => ∃ inside, stored = stripNode inside node ∧
        (inside || preservesBlanks node.tag) =
          (preserved || (root.tagsAlong path).any preservesBlanks))
      (root.at? path) ((stripNode preserved root).at? path) := by
  -- one step down, what is remembered takes in the tag that is left behind
  induction path generalizing root preserved with
  | nil => exact .some ⟨preserved, rfl, by simp [tagsAlong]⟩
  | cons index path ih =>
    rw [at?_cons, at?_cons, elementChildren_stripNode, memberAt?_map, tagsAlong]
    cases memberAt? root.elementChildren index with
    | none => exact .none
    | some child =>
      have hchild := ih (preserved || preservesBlanks root.tag) child
      rwa [Bool.or_assoc, ← List.any_cons] at hchild

/-- **What stripping takes away.** At every place there is an element in a stripped tree where there is
one in the tree. It has the same tag and the same attributes, and its children are those of the
element, in the same order, without the comments and without the plain texts of blanks alone that
stand inside no element whose blanks matter. -/
theorem strip_children (root : Node) (path : List Int) :
    Option.Rel (Thinned Text.isBlank (root.tagsAlong path)) (root.at? path)
      ((strip root).at? path) := by
  have h := at?_stripNode false root path
  rw [← strip] at h
  generalize root.at? path = before, (strip root).at? path = after at h ⊢
  cases h with
  | none => exact .none
  | @some node stored h =>
    obtain ⟨inside, rfl, hinside⟩ := h
    rw [Bool.false_or] at hinside
    refine .some ⟨head_stripNode inside node, ?_⟩
    -- whether a child is dropped is read off the tags, and stripping it does not change what it is
    have hremoved (child : Node) : (!isDroppedNode (inside || preservesBlanks node.tag) child) =
        decide ¬ IsRemoved Text.isBlank (root.tagsAlong path) child := by
      rw [Bool.eq_iff_iff, Bool.not_eq_true', Bool.eq_false_iff, decide_eq_true_eq, Ne,
        isDroppedNode_iff hinside]
    rw [children_stripNode, stripNodes_eq, List.map_map]
    simp only [hremoved]
    exact List.map_congr_left fun child _ => head_stripNode _ child

/-- Blanks are kept in an element if they matter in an element around it; a comment never is. -/
example : strip (.element "pre".toList []
      [.element "b".toList [] [.text .plain " ".toList, .text .comment "c".toList]]) =
    .element "pre".toList [] [.element "b".toList [] [.text .plain " ".toList]] := by
  rfl

/-- Markup with a no-break space between two elements. -/
def spacedMarkup : Text := "<p id=p><b>1</b>\u00a0<b>2</b></p>".toList

/-- Its element. -/
def spaced : Node :=
  .element "p".toList [⟨"id".toList, "p".toList⟩]
    [.element "b".toList [] [.text .plain "1".toList],
      .text .plain ['\u00a0'],
      .element "b".toList [] [.text .plain "2".toList]]

/-- **A no-break space is taken away**, though it is none of the blanks of markup. -/
theorem strip_loses_noBreakSpace :
    parseElements spacedMarkup = .ok [spaced] ∧
      .text .plain ['\u00a0'] ∈ spaced.children ∧
      ¬ IsRemoved Builder.isSpace (spaced.tagsAlong []) (.text .plain ['\u00a0']) ∧
      Head.text .plain ['\u00a0'] ∉ (strip spaced).children.map Node.head := by
  have htokens : tokens spacedMarkup = .ok
      [.startTag "p".toList [⟨"id".toList, "p".toList⟩], .startTag "b".toList [],
        .characters "1".toList, .endTag "b".toList, .characters ['\u00a0'],
        .startTag "b".toList [], .characters "2".toList, .endTag "b".toList,
        .endTag "p".toList] := by decide +kernel
  have hparse : parseElements spacedMarkup = .ok [spaced] := by
    rw [parseElements, parse, htokens]
    rfl
  have hkept : ¬ IsRemoved Builder.isSpace (spaced.tagsAlong []) (.text .plain ['\u00a0']) := by
    rintro (hkind | ⟨-, hblank, -⟩)
    · cases hkind
    · exact absurd (hblank '\u00a0' List.mem_cons_self) (by decide)
  exact ⟨hparse, List.mem_cons_of_mem _ List.mem_cons_self, hkept, by decide +kernel⟩

end Template
end TemplateBindings
