import TemplateBindings.Proofs.Markup.Sound
import TemplateBindings.Proofs.Template.Places

/-!
# Naming attributes in a stored tree

An element may carry a name, which must not reach the page, and an `id_`, which has to reach it as an
`id`. Both attributes are rewritten wherever they stand, at the root and below it, and nothing else of
an element changes (`TemplateBindings.Template.Rewritten`). An empty `id` names nothing and is left
alone: it is the one `id` in a stored tree that no `id_` was written for
(`TemplateBindings.Template.ofRoot_rewrites`).
-/

namespace TemplateBindings
namespace Template

open Markup

/-- The attributes that have nothing to do with names. -/
def otherAttributes (attributes : List Attribute) : List Attribute :=
  attributes.filter fun a => a.name ≠ nameAttribute ∧ a.name ≠ literalAttribute

/-- **An element before and after its naming attributes are rewritten.** -/
structure Rewritten (before after : Node) : Prop where
  tag_eq : after.tag = before.tag
  literal_gone : literalAttribute ∉ Attribute.names after.attributes
  /-- An `id_` becomes the `id`. -/
  literal_kept (value : Text) (h : before.attribute? literalAttribute = some value) :
    after.attribute? nameAttribute = some value
  /-- Without an `id_`, the `id` is gone unless it was empty. -/
  name_gone (h : before.attribute? literalAttribute = none) :
    after.attribute? nameAttribute = (before.attribute? nameAttribute).filter (· = [])
  /-- The other attributes keep their values and their order. -/
  others_eq : otherAttributes after.attributes = otherAttributes before.attributes
  /-- An element keeps at most one attribute of each name. -/
  distinct (h : (Attribute.names before.attributes).Nodup) :
    (Attribute.names after.attributes).Nodup

variable {root node stored : Node} {attributes : List Attribute} {name other : Text} {t : Compiled}

/-! ### Erasing and setting -/

theorem get?_eq_none_iff :
    Attribute.get? attributes name = none ↔ name ∉ Attribute.names attributes := by
  simp [Attribute.get?, Attribute.names]

theorem get?_erase_of_ne (h : other ≠ name) (attributes : List Attribute) :
    Attribute.get? (Attribute.erase attributes name) other = Attribute.get? attributes other := by
  rw [Attribute.get?, Attribute.get?, Attribute.erase, List.find?_filter]
  congr 2
  funext a
  by_cases ha : a.name = other
  · simp [ha, h]
  · simp [ha]

theorem not_mem_names_erase (attributes : List Attribute) (name : Text) :
    name ∉ Attribute.names (Attribute.erase attributes name) :=
  get?_eq_none_iff.1 (Attribute.get?_erase_self attributes name)

theorem of_mem_set {a : Attribute} {value : Text} (h : a ∈ Attribute.set attributes name value) :
    a.name = name ∨ a ∈ attributes := by
  induction attributes with
  | nil => exact .inl (congrArg Attribute.name (List.mem_singleton.1 h))
  | cons b attributes ih =>
    rw [Attribute.set] at h
    split at h
    · rcases List.mem_cons.1 h with rfl | h
      · exact .inl rfl
      · exact .inr (List.mem_cons_of_mem b h)
    · rcases List.mem_cons.1 h with rfl | h
      · exact .inr List.mem_cons_self
      · exact (ih h).imp_right (List.mem_cons_of_mem b)

/-- Setting an attribute that does not count changes none that does. -/
theorem filter_set {p : Attribute → Bool} (h : ∀ a, a.name = name → p a = false)
    (attributes : List Attribute) (value : Text) :
    (Attribute.set attributes name value).filter p = attributes.filter p := by
  induction attributes with
  | nil => exact List.filter_cons_of_neg (by simp [h ⟨name, value⟩ rfl])
  | cons a attributes ih =>
    rw [Attribute.set]
    split
    · next ha =>
      rw [List.filter_cons_of_neg (by simp [h ⟨name, value⟩ rfl]),
        List.filter_cons_of_neg (by simp [h a ha])]
    · rw [List.filter_cons, List.filter_cons, ih]

/-- Nor does erasing one. -/
theorem filter_erase {p : Attribute → Bool} (h : ∀ a, a.name = name → p a = false)
    (attributes : List Attribute) :
    (Attribute.erase attributes name).filter p = attributes.filter p := by
  rw [Attribute.erase, List.filter_filter]
  refine List.filter_congr fun a _ => ?_
  by_cases ha : a.name = name
  · rw [h a ha, Bool.false_and]
  · simp [ha]

theorem nodup_erase (h : (Attribute.names attributes).Nodup) (name : Text) :
    (Attribute.names (Attribute.erase attributes name)).Nodup :=
  h.sublist (List.filter_sublist.map _)

/-! ### Taking the name away -/

/-- The attributes of an element without its name, if it has one. -/
def nameless (attributes : List Attribute) : List Attribute :=
  if (name? attributes).isSome then Attribute.erase attributes nameAttribute else attributes

theorem get?_nameless_literal (attributes : List Attribute) :
    Attribute.get? (nameless attributes) literalAttribute =
      Attribute.get? attributes literalAttribute := by
  rw [nameless]
  split
  · exact get?_erase_of_ne (by decide) attributes
  · rfl

/-- An `id_` takes the place of the name. -/
theorem unnamedAttributes_of_some {value : Text}
    (h : Attribute.get? attributes literalAttribute = some value) :
    unnamedAttributes attributes =
      Attribute.set (Attribute.erase (nameless attributes) literalAttribute) nameAttribute value := by
  rw [unnamedAttributes, ← nameless, get?_nameless_literal, h]

theorem unnamedAttributes_of_none (h : Attribute.get? attributes literalAttribute = none) :
    unnamedAttributes attributes = nameless attributes := by
  rw [unnamedAttributes, ← nameless, get?_nameless_literal, h]

/-- Only an empty `id` is not a name. -/
theorem get?_nameless (attributes : List Attribute) :
    Attribute.get? (nameless attributes) nameAttribute =
      (Attribute.get? attributes nameAttribute).filter (· = []) := by
  rw [nameless, name?]
  cases hget : Attribute.get? attributes nameAttribute with
  | none => exact hget
  | some name =>
    cases name with
    | nil => exact hget
    | cons c name => exact Attribute.get?_erase_self attributes nameAttribute

theorem filter_nameless {p : Attribute → Bool} (h : ∀ a, a.name = nameAttribute → p a = false)
    (attributes : List Attribute) : (nameless attributes).filter p = attributes.filter p := by
  rw [nameless]
  split
  · exact filter_erase h attributes
  · rfl

theorem mem_of_mem_nameless {a : Attribute} (h : a ∈ nameless attributes) : a ∈ attributes := by
  rw [nameless] at h
  split at h
  · exact List.mem_of_mem_filter h
  · exact h

theorem nodup_nameless (h : (Attribute.names attributes).Nodup) :
    (Attribute.names (nameless attributes)).Nodup := by
  rw [nameless]
  split
  · exact nodup_erase h nameAttribute
  · exact h

/-- Taking a name away adds no name but that of an `id`. -/
theorem of_mem_unnamedAttributes {a : Attribute} (h : a ∈ unnamedAttributes attributes) :
    a.name = nameAttribute ∨ a ∈ attributes := by
  cases hget : Attribute.get? attributes literalAttribute with
  | some value =>
    rw [unnamedAttributes_of_some hget] at h
    exact (of_mem_set h).imp_right fun h => mem_of_mem_nameless (List.mem_of_mem_filter h)
  | none =>
    rw [unnamedAttributes_of_none hget] at h
    exact .inr (mem_of_mem_nameless h)

/-- Taking a name away keeps names distinct. -/
theorem nodup_unnamedAttributes (h : (Attribute.names attributes).Nodup) :
    (Attribute.names (unnamedAttributes attributes)).Nodup := by
  cases hget : Attribute.get? attributes literalAttribute with
  | some value =>
    rw [unnamedAttributes_of_some hget]
    exact Attribute.nodup_set (nodup_erase (nodup_nameless h) literalAttribute) nameAttribute value
  | none =>
    rw [unnamedAttributes_of_none hget]
    exact nodup_nameless h

/-- No `id_` is left. -/
theorem literal_not_mem_unnamedAttributes (attributes : List Attribute) :
    literalAttribute ∉ Attribute.names (unnamedAttributes attributes) := by
  cases hget : Attribute.get? attributes literalAttribute with
  | some value =>
    rw [unnamedAttributes_of_some hget]
    intro hm
    obtain ⟨a, ha, hname⟩ := List.mem_map.1 hm
    rcases of_mem_set ha with he | ha
    · exact absurd (hname.symm.trans he) (by decide)
    · have hmem := List.mem_map_of_mem (f := Attribute.name) ha
      rw [hname] at hmem
      exact not_mem_names_erase _ literalAttribute hmem
  | none =>
    rw [unnamedAttributes_of_none hget]
    exact get?_eq_none_iff.1 ((get?_nameless_literal attributes).trans hget)

/-- The other attributes are left alone. -/
theorem otherAttributes_unnamedAttributes (attributes : List Attribute) :
    otherAttributes (unnamedAttributes attributes) = otherAttributes attributes := by
  -- only the two naming attributes are erased or set, and neither is among the others
  have hname (a : Attribute) (ha : a.name = nameAttribute) :
      decide (a.name ≠ nameAttribute ∧ a.name ≠ literalAttribute) = false :=
    decide_eq_false fun h => h.1 ha
  have hliteral (a : Attribute) (ha : a.name = literalAttribute) :
      decide (a.name ≠ nameAttribute ∧ a.name ≠ literalAttribute) = false :=
    decide_eq_false fun h => h.2 ha
  have hnameless := filter_nameless hname attributes
  cases hget : Attribute.get? attributes literalAttribute with
  | some value =>
    rw [unnamedAttributes_of_some hget, otherAttributes, filter_set hname, filter_erase hliteral,
      hnameless, otherAttributes]
  | none => rw [unnamedAttributes_of_none hget, otherAttributes, hnameless, otherAttributes]

/-! ### Elements -/

/-- **What becomes of an element has its naming attributes rewritten**, whichever of them there are. -/
theorem rewritten_of_becomes (h : Becomes node stored) : Rewritten node stored := by
  obtain ⟨htag, hattributes⟩ : stored.tag = node.tag ∧
      stored.attributes = unnamedAttributes node.attributes := by
    obtain ⟨preserved, rfl⟩ := h
    cases node <;> exact ⟨rfl, rfl⟩
  refine ⟨htag, ?_, ?_, ?_, ?_, ?_⟩
  · rw [hattributes]
    exact literal_not_mem_unnamedAttributes node.attributes
  · intro value hvalue
    rw [Node.attribute?, hattributes, unnamedAttributes_of_some hvalue]
    exact Attribute.get?_set_self _ nameAttribute value
  · intro hnone
    rw [Node.attribute?, hattributes, unnamedAttributes_of_none hnone]
    exact get?_nameless node.attributes
  · rw [hattributes]
    exact otherAttributes_unnamedAttributes node.attributes
  · intro hnodup
    rw [hattributes]
    exact nodup_unnamedAttributes hnodup

/-- **Naming attributes are rewritten everywhere, and nothing else is.** The markup of a template is
printed from its root as it is left then: it has the elements of the root, the root included, in the
same order and the same places, and each of them is rewritten. -/
theorem ofRoot_rewrites (h : ofRoot root = .ok t) :
    t.html = printRoot (strip (unname root)) ∧
      (strip (unname root)).places = root.places ∧
      List.Forall₂ Rewritten root.elements (strip (unname root)).elements :=
  ⟨(of_ofRoot h).2, places_strip false root,
    (elements_strip false root).imp fun _ _ => rewritten_of_becomes⟩

/-- A template with an `id`, an empty one and an `id_` in all combinations, between other attributes. -/
def relabelled : Node :=
  .element "div".toList
    [⟨"title".toList, "t".toList⟩, ⟨"id".toList, "card".toList⟩, ⟨"id_".toList, "main".toList⟩,
      ⟨"class".toList, "c".toList⟩]
    [.element "input".toList [⟨"id".toList, []⟩, ⟨"id_".toList, "email".toList⟩] [],
      .element "b".toList [⟨"id".toList, []⟩, ⟨"lang".toList, "de".toList⟩] [],
      .element "ul".toList [⟨"id_".toList, []⟩]
        [.element "i".toList [⟨"id".toList, "x".toList⟩, ⟨"lang".toList, "fr".toList⟩,
          ⟨"id_".toList, "y".toList⟩] []]]

/-- What it is compiled to. -/
def relabelledTemplate : Compiled :=
  ⟨"card".toList, "HTMLElement".toList, [⟨"x".toList, "HTMLElement".toList, [2, 0]⟩],
    ("<div class=\"c\" id=\"main\" title=\"t\"><input id=\"email\"/><b id=\"\" lang=\"de\"></b>"
      ++ "<ul id=\"\"><i id=\"y\" lang=\"fr\"></i></ul></div>").toList⟩

theorem ofRoot_rewrites_relabelled : ofRoot relabelled = .ok relabelledTemplate ∧
    relabelledTemplate.html = printRoot (strip (unname relabelled)) ∧
      (strip (unname relabelled)).places = relabelled.places ∧
      List.Forall₂ Rewritten relabelled.elements (strip (unname relabelled)).elements := by
  have h : ofRoot relabelled = .ok relabelledTemplate := by decide +kernel
  exact ⟨h, ofRoot_rewrites h⟩

end Template
end TemplateBindings
