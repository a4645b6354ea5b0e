import Mathlib.Data.List.Nodup
import TemplateBindings.Markup.Tree

/-!
# What parsing guarantees

The trees that markup is read as are *sound*: the attributes of an element have distinct names, and
an element that never has content has none (`TemplateBindings.Markup.sound_of_parseElements`). One
token keeps this of the trees that are finished and of the elements that are open, since an element
that never has content is closed in the step that opens it.
-/

namespace TemplateBindings
namespace Markup

/-! ### Distinct names -/

namespace Attribute

variable {attributes others : List Attribute} {name value : Text}

/-- The names of attributes, in their order. -/
def names (attributes : List Attribute) : List Text := attributes.map (·.name)

theorem set_of_not_mem (h : name ∉ names attributes) (value : Text) :
    set attributes name value = attributes ++ [⟨name, value⟩] := by
  induction attributes with
  | nil => rfl
  | cons a attributes ih =>
    obtain ⟨ha, hrest⟩ := not_or.1 fun hm => h (List.mem_cons.2 hm)
    rw [set, if_neg (Ne.symm ha), ih hrest, List.cons_append]

theorem names_set_of_mem (h : name ∈ names attributes) (value : Text) :
    names (set attributes name value) = names attributes := by
  induction attributes with
  | nil => cases h
  | cons a attributes ih =>
    rw [set]
    split
    · next ha => rw [← ha]; rfl
    · next ha =>
      have hrest := (List.mem_cons.1 h).resolve_left (Ne.symm ha)
      exact congrArg (a.name :: ·) (ih hrest)

/-- Setting an attribute keeps names distinct. -/
theorem nodup_set (h : (names attributes).Nodup) (name value : Text) :
    (names (set attributes name value)).Nodup := by
  by_cases hm : name ∈ names attributes
  · rwa [names_set_of_mem hm]
  · rw [set_of_not_mem hm, names, List.map_append]
    exact h.append (List.nodup_singleton name) (by simpa [names] using hm)

theorem nodup_ofWritten (written : List Attribute) : (names (ofWritten written)).Nodup := by
  have hfrom (done : List Attribute) (hdone : (names done).Nodup) :
      (names (written.foldl (fun attributes a => set attributes a.name a.value) done)).Nodup := by
    induction written generalizing done with
    | nil => exact hdone
    | cons a written ih => exact ih _ (nodup_set hdone a.name a.value)
  exact hfrom [] .nil

/-- Attributes with distinct names stay as they are. -/
theorem ofWritten_of_nodup (h : (names attributes).Nodup) : ofWritten attributes = attributes := by
  have hfrom (done : List Attribute) (hall : (names (done ++ attributes)).Nodup) :
      attributes.foldl (fun attributes a => set attributes a.name a.value) done =
        done ++ attributes := by
    induction attributes generalizing done with
    | nil => rw [List.foldl_nil, List.append_nil]
    | cons a attributes ih =>
      have hsplit : done ++ a :: attributes = (done ++ [a]) ++ attributes := by
        rw [List.append_assoc, List.singleton_append]
      have ha : a.name ∉ names done := by
        rw [names, List.map_append, List.map_cons] at hall
        exact fun hm => (List.nodup_append.1 hall).2.2 _ hm _ List.mem_cons_self rfl
      have hrest : (names attributes).Nodup := (List.nodup_cons.1 h).2
      rw [List.foldl_cons, set_of_not_mem ha, hsplit]
      exact ih hrest (done ++ [a]) (hsplit ▸ hall)
  exact hfrom [] h

/-- With distinct names, the value of a name is the one that stands with it. -/
theorem get?_eq_some_iff (h : (names attributes).Nodup) :
    get? attributes name = some value ↔ ⟨name, value⟩ ∈ attributes := by
  induction attributes with
  | nil => simp [get?]
  | cons a attributes ih =>
    obtain ⟨ha, hrest⟩ := List.nodup_cons.1 h
    have ih := ih hrest
    rw [get?] at ih ⊢
    rw [List.find?_cons]
    by_cases hname : a.name = name
    · have hout : (⟨name, value⟩ : Attribute) ∉ attributes := fun hm =>
        ha (List.mem_map.2 ⟨_, hm, hname.symm⟩)
      obtain ⟨n, v⟩ := a
      cases hname
      simp [hout, eq_comm]
    · have hne : (⟨name, value⟩ : Attribute) ≠ a := fun he => hname (he ▸ rfl)
      simp only [decide_eq_false hname, List.mem_cons, hne, false_or]
      exact ih

/-- The order of attributes with distinct names does not matter to their values. -/
theorem get?_eq_of_perm (h : (names attributes).Nodup) (hp : attributes.Perm others)
    (name : Text) : get? others name = get? attributes name := by
  have hother : (names others).Nodup := (hp.map _).nodup_iff.1 h
  ext value
  rw [get?_eq_some_iff h, get?_eq_some_iff hother, hp.mem_iff]

/-- What leaves the attributes of a name as they are, and all names, leaves its value as it is. -/
theorem get?_map {f : Attribute → Attribute} (hnames : ∀ a ∈ attributes, (f a).name = a.name)
    (hkept : ∀ a ∈ attributes, a.name = name → f a = a) :
    get? (attributes.map f) name = get? attributes name := by
  induction attributes with
  | nil => rfl
  | cons a attributes ih =>
    obtain ⟨ha, hnames⟩ := List.forall_mem_cons.1 hnames
    obtain ⟨hk, hkept⟩ := List.forall_mem_cons.1 hkept
    have ih := ih hnames hkept
    rw [get?, get?] at ih ⊢
    rw [List.map_cons, List.find?_cons, List.find?_cons, ha]
    by_cases hname : a.name = name
    · rw [decide_eq_true hname, hk hname]
    · rw [decide_eq_false hname]
      exact ih

end Attribute

theorem names_elementAttributes (tag : Text) (written : List Attribute) :
    Attribute.names (elementAttributes tag written) =
      Attribute.names (Attribute.ofWritten written) := by
  rw [elementAttributes, Attribute.names, Attribute.names, List.map_map]
  refine List.map_congr_left fun a _ => ?_
  rw [Function.comp_apply]
  split <;> rfl

/-! ### Sound trees -/

/-- **Sound trees**: names of attributes are distinct, and an element that never has content has
none. -/
inductive Sound : Node → Prop where
  /-- Texts are sound. -/
  | text (kind : TextKind) (content : Text) : Sound (.text kind content)
  /-- An element of sound trees. -/
  | element {tag : Text} {attributes : List Attribute} {children : List Node}
    (names : (Attribute.names attributes).Nodup) (void : isVoid tag = true → children = [])
    (below : ∀ child ∈ children, Sound child) : Sound (.element tag attributes children)

namespace Builder

variable {b : Builder} {tag : Text} {written : List Attribute} {node : Node} {e : OpenElement}

/-- An open element that may get more children. -/
structure SoundOpen (e : OpenElement) : Prop where
  /-- The names of its attributes are distinct. -/
  names : (Attribute.names e.attributes).Nodup
  /-- It may have content. -/
  content : isVoid e.tag = false
  /-- Its children so far are sound. -/
  below : ∀ child ∈ e.children, Sound child

/-- **Builders of sound trees.** -/
structure IsSound (b : Builder) : Prop where
  /-- The open elements may get more children. -/
  opened : ∀ e ∈ b.opened, SoundOpen e
  /-- The nodes at the top level are sound. -/
  top : ∀ node ∈ b.top, Sound node

theorem isSound_empty : empty.IsSound := ⟨by simp [empty], by simp [empty]⟩

theorem SoundOpen.close (h : SoundOpen e) : Sound e.close :=
  .element h.names (fun hv => by rw [h.content] at hv; cases hv) fun child hc =>
    h.below child (List.mem_reverse.1 hc)

theorem IsSound.add (h : b.IsSound) (hnode : Sound node) : (b.add node).IsSound := by
  obtain ⟨opened, top, pending, closedEarly⟩ := b
  cases opened with
  | nil => exact ⟨h.opened, List.forall_mem_cons.2 ⟨hnode, h.top⟩⟩
  | cons e outer =>
    obtain ⟨he, houter⟩ := List.forall_mem_cons.1 h.opened
    have hmore : SoundOpen { e with children := node :: e.children } :=
      ⟨he.names, he.content, List.forall_mem_cons.2 ⟨hnode, he.below⟩⟩
    exact ⟨List.forall_mem_cons.2 ⟨hmore, houter⟩, h.top⟩

theorem IsSound.addText (h : b.IsSound) (data : Text) : (b.addText data).IsSound :=
  ⟨h.opened, h.top⟩

theorem IsSound.flushAs (h : b.IsSound) (kind : TextKind) : (b.flushAs kind).IsSound := by
  rw [Builder.flushAs]
  split
  · exact h
  · exact IsSound.add ⟨h.opened, h.top⟩ (.text kind _)

theorem IsSound.flush (h : b.IsSound) : b.flush.IsSound := h.flushAs _

theorem IsSound.addApart (h : b.IsSound) (kind : TextKind) (data : Text) :
    (b.addApart kind data).IsSound :=
  (h.flush.addText data).flushAs kind

theorem IsSound.closeInnermost (h : b.IsSound) : b.closeInnermost.IsSound := by
  obtain ⟨opened, top, pending, closedEarly⟩ := b
  cases opened with
  | nil => exact h
  | cons e outer =>
    obtain ⟨he, houter⟩ := List.forall_mem_cons.1 h.opened
    exact IsSound.add ⟨houter, h.top⟩ he.close

theorem IsSound.closeMany (h : b.IsSound) (count : Nat) : (b.closeMany count).IsSound := by
  induction count generalizing b with
  | zero => exact h
  | succ count ih => exact ih h.closeInnermost

theorem IsSound.closeElement (h : b.IsSound) (tag : Text) : (b.closeElement tag).IsSound := by
  rw [Builder.closeElement]
  split
  · exact h.flush.closeMany _
  · exact h.flush

/-! ### Elements that are opened -/

theorem pending_add (b : Builder) (node : Node) : (b.add node).pending = b.pending := by
  rw [add]
  split <;> rfl

theorem pending_flush (b : Builder) : b.flush.pending = none := by
  rw [flush, flushAs]
  split
  · next h => exact h
  · exact pending_add _ _

theorem flush_of_pending (h : b.pending = none) : b.flush = b := by
  rw [flush, flushAs, h]

/-- An end tag for the innermost open element closes that and nothing else. -/
theorem closeElement_innermost {outer : List OpenElement} (h : b.flush.opened = e :: outer) :
    b.closeElement e.tag = b.flush.closeInnermost := by
  rw [closeElement, h, List.any_cons, decide_eq_true rfl, Bool.true_or, if_pos rfl,
    List.takeWhile_cons_of_neg (by simp), List.length_nil]
  rfl

/-- **An element that is closed as soon as it is opened** is a node without content. -/
theorem closeElement_openElement (b : Builder) (tag : Text) (written : List Attribute) :
    (b.openElement tag written).closeElement tag =
      b.flush.add (.element tag (elementAttributes tag written) []) := by
  have hflush : (b.openElement tag written).flush = b.openElement tag written :=
    flush_of_pending (pending_flush b)
  have hopened : (b.openElement tag written).flush.opened =
      ⟨tag, elementAttributes tag written, []⟩ :: b.flush.opened := by rw [hflush]; rfl
  rw [closeElement_innermost hopened, hflush]
  rfl

theorem nodup_elementAttributes (tag : Text) (written : List Attribute) :
    (Attribute.names (elementAttributes tag written)).Nodup := by
  rw [names_elementAttributes]
  exact Attribute.nodup_ofWritten written

theorem IsSound.openElement (h : b.IsSound) (htag : isVoid tag = false) :
    (b.openElement tag written).IsSound := by
  refine ⟨List.forall_mem_cons.2 ⟨?_, h.flush.opened⟩, h.flush.top⟩
  exact ⟨nodup_elementAttributes tag written, htag, by simp⟩

theorem IsSound.openAndClose (h : b.IsSound) :
    ((b.openElement tag written).closeElement tag).IsSound := by
  rw [closeElement_openElement]
  exact h.flush.add (.element (nodup_elementAttributes tag written) (fun _ => rfl) (by simp))

/-- **One token keeps a builder sound.** -/
theorem IsSound.take (h : b.IsSound) (token : Token) : (b.take token).IsSound := by
  cases token with
  | characters data => exact h.addText data
  | startTag tag written =>
    rw [Builder.take]
    dsimp only
    split
    · exact ⟨h.openAndClose.opened, h.openAndClose.top⟩
    · next hvoid => exact h.openElement (Bool.eq_false_iff.2 hvoid)
  | closedTag tag written => exact h.openAndClose
  | endTag tag =>
    rw [Builder.take]
    split
    · exact ⟨h.opened, h.top⟩
    · exact h.closeElement tag
  | comment data => exact h.addApart .comment data
  | instruction data => exact h.addApart .instruction data
  | doctype data => exact h.addApart .doctype _
  | «section» data =>
    rw [Builder.take]
    split
    · exact h.addApart .data _
    · exact h.addApart .declaration data

theorem IsSound.foldl_take (h : b.IsSound) (tokens : List Token) :
    (tokens.foldl Builder.take b).IsSound := by
  induction tokens generalizing b with
  | nil => exact h
  | cons token tokens ih => exact ih (h.take token)

end Builder

/-- **Parsing gives sound trees.** -/
theorem sound_of_parseElements {html : Text} {elements : List Node}
    (h : parseElements html = .ok elements) : ∀ root ∈ elements, Sound root := by
  rw [parseElements, parse] at h
  cases htokens : tokens html with
  | error rejection => rw [htokens] at h; cases h
  | ok tokens =>
    rw [htokens] at h
    cases h
    have hbuilt := (Builder.isSound_empty.foldl_take tokens).flush
    intro root hroot
    exact (hbuilt.closeMany _).top root (List.mem_reverse.1 (List.mem_filter.1 hroot).1)

end Markup
end TemplateBindings
