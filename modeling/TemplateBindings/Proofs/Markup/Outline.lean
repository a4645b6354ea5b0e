import TemplateBindings.Proofs.Markup.Reading
import TemplateBindings.Proofs.Markup.Sound

/-!
# Outlines

The outline of a tree is what indexes of elements depend on: its elements with their tags, in their
places, and the value of one attribute. Printing a plain, sound tree and parsing it again gives one
element with the outline of the tree (`TemplateBindings.Markup.parseElements_print`), for every
attribute that printing and parsing leave alone.

A builder is seen here through its *sketch*, in which all trees are outlines: what a builder does when
it reads a printed tree adds the outline of the tree to its sketch
(`TemplateBindings.Markup.Builder.sketch_write`).
-/

namespace TemplateBindings
namespace Markup

variable {kept tag : Text} {attributes : List Attribute} {node : Node} {nodes others : List Node}

/-! ### Attributes that are left alone -/

/-- **An attribute is left alone** if it is no list of words in any element, and no declaration of an
encoding. -/
structure LeftAlone (kept : Text) : Prop where
  /-- It is no list of words. -/
  single : ∀ tag, isWordList tag kept = false
  /-- It declares no encoding. -/
  silent : kept ≠ "charset".toList ∧ kept ≠ "content".toList

/-- An attribute that holds a list of words in no element. -/
theorem isWordList_eq_false (hall : kept ≠ "class".toList ∧ kept ≠ "accesskey".toList ∧
      kept ≠ "dropzone".toList) (hsome : ∀ p ∈ wordListAttributes, kept ∉ p.2) (tag : Text) :
    isWordList tag kept = false := by
  rw [isWordList, decide_eq_false hall.1, decide_eq_false hall.2.1, decide_eq_false hall.2.2]
  cases hl : wordListAttributes.lookup tag with
  | none => rfl
  | some names =>
    obtain ⟨p, hp, -, rfl⟩ : ∃ p ∈ wordListAttributes, p.1 = tag ∧ p.2 = names := by
      obtain ⟨before, after, heq, -⟩ := List.lookup_eq_some_iff.1 hl
      exact ⟨(tag, names), by rw [heq]; simp, rfl, rfl⟩
    simpa using hsome p hp

theorem leftAlone_id : LeftAlone "id".toList :=
  ⟨isWordList_eq_false (by decide) (by decide), by decide⟩

/-- The one attribute that an outline keeps. -/
def keptAttribute (kept : Text) (attributes : List Attribute) : List Attribute :=
  ((Attribute.get? attributes kept).map (Attribute.mk kept)).toList

theorem printedValue_of_leftAlone (h : LeftAlone kept) {a : Attribute} (ha : a.name = kept) :
    printedValue tag attributes a = a.value := by
  rw [printedValue, ha, if_neg h.silent.1, decide_eq_false h.silent.2]
  simp

theorem names_shownAttributes_perm (tag : Text) (attributes : List Attribute) :
    (Attribute.names (shownAttributes tag attributes)).Perm (Attribute.names attributes) := by
  rw [shownAttributes, Attribute.names, List.map_map]
  exact (Text.orderedBy_perm _ attributes).map _

/-- **An attribute that is left alone comes back** with its value. -/
theorem get?_reread (h : LeftAlone kept) (hnames : (Attribute.names attributes).Nodup) :
    Attribute.get? (elementAttributes tag (shownAttributes tag attributes)) kept =
      Attribute.get? attributes kept := by
  have hshown := (names_shownAttributes_perm tag attributes).nodup_iff.2 hnames
  rw [elementAttributes, Attribute.ofWritten_of_nodup hshown, Attribute.get?_map, shownAttributes,
    Attribute.get?_map, Attribute.get?_eq_of_perm hnames (Text.orderedBy_perm _ attributes).symm]
  · exact fun _ _ => rfl
  · intro a _ ha
    rw [printedValue_of_leftAlone h ha]
  · intro a _
    split <;> rfl
  · intro a _ ha
    rw [ha, h.single tag]
    rfl

/-! ### Outlines of trees -/

mutual

/-- **The outline of a tree.** -/
def outline (kept : Text) : Node → Node
  | .text kind content => .text kind content
  | .element tag attributes children =>
    .element tag (keptAttribute kept attributes) (outlineAll kept children)

/-- The outlines of the elements among siblings. -/
def outlineAll (kept : Text) : List Node → List Node
  | [] => []
  | .text .. :: rest => outlineAll kept rest
  | .element tag attributes children :: rest =>
    outline kept (.element tag attributes children) :: outlineAll kept rest

end

theorem outlineAll_eq (kept : Text) (nodes : List Node) :
    outlineAll kept nodes = (nodes.filter Node.isElement).map (outline kept) := by
  induction nodes with
  | nil => rw [outlineAll]; rfl
  | cons node nodes ih =>
    cases node with
    | text kind content =>
      rw [outlineAll, ih]
      rfl
    | element tag attributes children =>
      rw [outlineAll, ih]
      rfl

theorem outlineAll_append (kept : Text) (nodes others : List Node) :
    outlineAll kept (nodes ++ others) = outlineAll kept nodes ++ outlineAll kept others := by
  rw [outlineAll_eq, outlineAll_eq, outlineAll_eq, List.filter_append, List.map_append]

theorem outlineAll_reverse (kept : Text) (nodes : List Node) :
    outlineAll kept nodes.reverse = (outlineAll kept nodes).reverse := by
  rw [outlineAll_eq, outlineAll_eq, List.filter_reverse, List.map_reverse]

@[simp] theorem tag_outline (kept : Text) (node : Node) : (outline kept node).tag = node.tag := by
  cases node <;> rfl

theorem isElement_outline (kept : Text) (node : Node) :
    (outline kept node).isElement = node.isElement := by
  cases node <;> rfl

theorem elementChildren_outline (kept : Text) (node : Node) :
    (outline kept node).elementChildren = node.elementChildren.map (outline kept) := by
  cases node with
  | text kind content => rfl
  | element tag attributes children =>
    rw [outline, Node.elementChildren, Node.elementChildren, Node.children, Node.children,
      outlineAll_eq, List.filter_map]
    congr 1
    rw [List.filter_filter]
    refine List.filter_congr fun child _ => ?_
    rw [Function.comp_apply, isElement_outline, Bool.and_self]

/-- **Paths lead to the same places in an outline.** -/
theorem at?_outline (kept : Text) (node : Node) (path : List Int) :
    (outline kept node).at? path = (node.at? path).map (outline kept) := by
  induction path generalizing node with
  | nil => rfl
  | cons index path ih =>
    rw [Node.at?, Node.at?, elementChildren_outline, Node.memberAt?_map]
    cases Node.memberAt? node.elementChildren index with
    | none => rfl
    | some child => exact ih child

/-! ### Sketches of builders -/

namespace Builder

variable {b : Builder} {e : OpenElement} {outer : List OpenElement}

/-- An open element with outlines. -/
def sketchOpen (kept : Text) (e : OpenElement) : OpenElement :=
  ⟨e.tag, keptAttribute kept e.attributes, outlineAll kept e.children⟩

/-- **The sketch of a builder**: outlines in the places of its trees, and no text. -/
def sketch (kept : Text) (b : Builder) : Builder :=
  ⟨b.opened.map (sketchOpen kept), outlineAll kept b.top, none, b.closedEarly⟩

theorem outline_close (kept : Text) (e : OpenElement) :
    outline kept e.close = (sketchOpen kept e).close := by
  rw [OpenElement.close, OpenElement.close, outline, outlineAll_reverse, sketchOpen]

/-- Nodes at the end of the innermost open element show in the sketch by their outlines. -/
theorem sketch_add (kept : Text) (b : Builder) (node : Node) :
    (b.add node).sketch kept = (outlineAll kept [node]).foldl add (b.sketch kept) := by
  obtain ⟨opened, top, pending, closedEarly⟩ := b
  cases opened <;> cases node <;> simp [add, sketch, sketchOpen, outlineAll]

theorem sketch_flush (kept : Text) (b : Builder) : b.flush.sketch kept = b.sketch kept := by
  rw [flush, flushAs]
  split
  · rfl
  · rw [sketch_add]
    rfl

theorem sketch_openElement (kept : Text) (b : Builder) (tag : Text) (written : List Attribute) :
    (b.openElement tag written).sketch kept =
      { b.sketch kept with
        opened := ⟨tag, keptAttribute kept (elementAttributes tag written), []⟩ ::
          (b.sketch kept).opened } := by
  rw [← sketch_flush kept b, openElement, sketch, List.map_cons, sketchOpen, outlineAll]
  rfl

theorem sketch_addChars (kept : Text) (b : Builder) (s : Text) :
    (b.addChars s).sketch kept = b.sketch kept := by
  induction s generalizing b with
  | nil => rfl
  | cons c s ih => exact ih (b.addText [c])

theorem sketch_closeInnermost (kept : Text) (b : Builder) :
    b.closeInnermost.sketch kept = (b.sketch kept).closeInnermost := by
  obtain ⟨opened, top, pending, closedEarly⟩ := b
  cases opened with
  | nil => rfl
  | cons e outer =>
    rw [closeInnermost]
    dsimp only
    rw [sketch_add]
    have hclose : outlineAll kept [e.close] = [outline kept e.close] := by
      rw [outlineAll_eq]
      rfl
    rw [hclose, outline_close]
    rfl

/-- An end tag for the innermost open element of the sketch closes that. -/
theorem sketch_closeElement (h : (b.sketch kept).opened = e :: outer) :
    (b.closeElement e.tag).sketch kept = (b.sketch kept).closeInnermost := by
  rw [← sketch_flush] at h
  obtain ⟨e', outer', hopened, he, -⟩ := List.map_eq_cons_iff.1 h
  have htag : e'.tag = e.tag := by
    rw [← he]
    rfl
  rw [← htag, closeElement_innermost hopened, sketch_closeInnermost, sketch_flush]

/-- Adding nodes keeps the tags of elements that were closed early. -/
theorem closedEarly_foldl_add (b : Builder) (nodes : List Node) :
    (nodes.foldl add b).closedEarly = b.closedEarly := by
  induction nodes generalizing b with
  | nil => rfl
  | cons node nodes ih =>
    rw [List.foldl_cons, ih, add]
    split <;> rfl

theorem closedEarly_of_sketch {b' : Builder} (h : b.sketch kept = nodes.foldl add b') :
    b.closedEarly = b'.closedEarly := by
  rw [← closedEarly_foldl_add b' nodes, ← h]
  rfl

theorem take_endTag (h : b.closedEarly = []) (tag : Text) :
    b.take (.endTag tag) = b.closeElement tag := by
  rw [take, h]
  rfl

/-- Nodes added inside an open element are its last children. -/
theorem foldl_add_opened (h : b.opened = e :: outer) (nodes : List Node) :
    nodes.foldl add b =
      { b with opened := { e with children := nodes.reverse ++ e.children } :: outer } := by
  induction nodes generalizing b e with
  | nil =>
    obtain ⟨opened, top, pending, closedEarly⟩ := b
    cases h
    rfl
  | cons node nodes ih =>
    have hadd : b.add node =
        { b with opened := { e with children := node :: e.children } :: outer } := by
      rw [add, h]
    rw [List.foldl_cons, hadd, ih rfl, List.reverse_cons, List.append_assoc, List.singleton_append]

/-! ### Reading printed trees -/

mutual

/-- **Reading a printed tree adds its outline.** -/
theorem sketch_write (hkept : LeftAlone kept) (b : Builder) (hb : b.closedEarly = []) :
    (node : Node) → Sound node →
      (b.write node).sketch kept = (outlineAll kept [node]).foldl add (b.sketch kept)
  | .text kind content, _ => by
    rw [write, sketch_addChars]
    rfl
  | .element tag attributes children, h => by
    cases h with
    | element hnames hvoid hbelow =>
      have hsame : keptAttribute kept (elementAttributes tag (shownAttributes tag attributes)) =
          keptAttribute kept attributes := by
        rw [keptAttribute, get?_reread hkept hnames, keptAttribute]
      have honly : outlineAll kept [.element tag attributes children] =
          [.element tag (keptAttribute kept attributes) (outlineAll kept children)] := by
        rw [outlineAll, outline, outlineAll]
      rw [write, honly]
      split
      · next hclosed =>
        rw [Bool.and_eq_true, List.isEmpty_iff] at hclosed
        rw [take, closeElement_openElement, sketch_add, sketch_flush, outlineAll, outline, hsame,
          hclosed.2, outlineAll]
      · next hclosed =>
        -- a sound element that is not closed by a slash may have content
        have htag : isVoid tag = false := Bool.eq_false_iff.2 fun hv => hclosed <| by
          rw [hv, hvoid hv]
          rfl
        have hstart : b.take (.startTag tag (shownAttributes tag attributes)) =
            b.openElement tag (shownAttributes tag attributes) := by
          rw [take, htag]
          rfl
        have hopened := sketch_openElement kept b tag (shownAttributes tag attributes)
        rw [hsame] at hopened
        have hearly : (b.openElement tag (shownAttributes tag attributes)).closedEarly = [] :=
          (congrArg (fun b : Builder => b.closedEarly) hopened).trans hb
        have hfilled := sketch_writeAll hkept _ hearly children hbelow
        have hstill := (closedEarly_of_sketch hfilled).trans hearly
        rw [hopened, foldl_add_opened rfl] at hfilled
        have hinner : (((b.openElement tag (shownAttributes tag attributes)).writeAll
            children).sketch kept).opened = ⟨tag, keptAttribute kept attributes,
              (outlineAll kept children).reverse ++ []⟩ :: (b.sketch kept).opened := by
          rw [hfilled]
        have hclose := sketch_closeElement hinner
        rw [hfilled, closeInnermost] at hclose
        rw [hstart, take_endTag hstill, hclose]
        simp only [OpenElement.close, List.append_nil, List.reverse_reverse]
        rfl

theorem sketch_writeAll (hkept : LeftAlone kept) (b : Builder) (hb : b.closedEarly = []) :
    (nodes : List Node) → (∀ node ∈ nodes, Sound node) →
      (b.writeAll nodes).sketch kept = (outlineAll kept nodes).foldl add (b.sketch kept)
  | [], _ => by
    rw [writeAll, outlineAll]
    rfl
  | node :: rest, h => by
    obtain ⟨hnode, hrest⟩ := List.forall_mem_cons.1 h
    have hwrite := sketch_write hkept b hb node hnode
    have hearly : (b.write node).closedEarly = [] := (closedEarly_of_sketch hwrite).trans hb
    have happ : outlineAll kept (node :: rest) = outlineAll kept [node] ++ outlineAll kept rest :=
      outlineAll_append kept [node] rest
    rw [writeAll, sketch_writeAll hkept _ hearly rest hrest, hwrite, happ, List.foldl_append]

end

/-- What a builder finishes with, if nothing is open. -/
theorem outlineAll_finish (h : (b.sketch kept).opened = []) :
    outlineAll kept b.finish = (b.sketch kept).top.reverse := by
  rw [← sketch_flush] at h ⊢
  have hopened : b.flush.opened = [] := List.map_eq_nil_iff.1 h
  rw [finish, hopened, List.length_nil, closeMany, outlineAll_reverse, sketch]

end Builder

/-- **Printed trees keep their outlines**: parsing the markup of a plain, sound element gives one
element at the top level, with the same outline. -/
theorem parseElements_print (hkept : LeftAlone kept) (hplain : isPlain isEscapedKind node = true)
    (hsound : Sound node) (helement : node.isElement = true) :
    ∃ again, parseElements (printRoot node) = .ok [again] ∧
      outline kept again = outline kept node := by
  have hwrite := Builder.sketch_write hkept .empty rfl node hsound
  have honly : outlineAll kept [node] = [outline kept node] := by
    rw [outlineAll_eq, List.filter_cons_of_pos helement]
    rfl
  have hfinish : outlineAll kept (Builder.empty.write node).finish = [outline kept node] := by
    rw [Builder.outlineAll_finish (by rw [hwrite, honly]; rfl), hwrite, honly]
    rfl
  rw [outlineAll_eq] at hfinish
  obtain ⟨again, hagain, houtline⟩ := List.map_eq_singleton_iff.1 hfinish
  refine ⟨again, ?_, houtline⟩
  rw [parseElements, printRoot, parse_print hplain]
  exact congrArg Except.ok hagain

end Markup
end TemplateBindings
