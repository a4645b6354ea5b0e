import Mathlib.Data.List.Nodup
import TemplateBindings.Template.Fragment

/-!
# Where the refs of a template lead

The elements below a root, in the order of their start tags
(`TemplateBindings.Markup.Node.descendants`), have places: the indexes that lead to them, each among
the children that are elements. Taking names away and stripping change attributes and texts, but no
place (`TemplateBindings.Template.placesAmong_strip`), so that the path of a ref, which is read off
the tree as it was, leads to the same element in the tree as it is stored
(`TemplateBindings.Template.refs_reach`).
-/

namespace TemplateBindings

open Markup

namespace Markup.Node

variable {node : Node} {nodes before : List Node} {place : List Int} {index : Nat}

/-! ### Elements in their order -/

mutual

/-- The elements in a tree, its root included, in the order of their start tags. -/
def elements : Node → List Node
  | text .. => []
  | element tag attributes children =>
    element tag attributes children :: elementsAmong children

/-- The elements in a list of trees. -/
def elementsAmong : List Node → List Node
  | [] => []
  | node :: rest => elements node ++ elementsAmong rest

end

/-- **The elements below a root.** -/
def descendants (node : Node) : List Node := elementsAmong node.children

/-! ### Places -/

mutual

/-- The places of the elements in a tree, seen from its root. -/
def places : Node → List (List Int)
  | text .. => []
  | element _ _ children => [] :: placesAmong 0 children

/-- The places of the elements in a list of siblings, seen from their parent; it is given how many
elements come before them. -/
def placesAmong (index : Nat) : List Node → List (List Int)
  | [] => []
  | text .. :: rest => placesAmong index rest
  | element tag attributes children :: rest =>
    (places (element tag attributes children)).map ((index : Int) :: ·) ++
      placesAmong (index + 1) rest

end

mutual

/-- Every element has a place. -/
theorem length_places : (node : Node) → node.places.length = node.elements.length
  | text .. => rfl
  | element _ _ children => by
    rw [places, elements, List.length_cons, List.length_cons, length_placesAmong 0 children]

theorem length_placesAmong (index : Nat) :
    (nodes : List Node) → (placesAmong index nodes).length = (elementsAmong nodes).length
  | [] => rfl
  | text .. :: rest => by
    rw [placesAmong, elementsAmong, elements, List.nil_append]
    exact length_placesAmong index rest
  | element tag attributes children :: rest => by
    rw [placesAmong, elementsAmong, List.length_append, List.length_append, List.length_map,
      length_places (element tag attributes children), length_placesAmong (index + 1) rest]

end

/-- A place among siblings starts with the index of one of them. -/
theorem le_of_mem_placesAmong (h : place ∈ placesAmong index nodes) :
    ∃ (i : Nat) (rest : List Int), place = (i : Int) :: rest ∧ index ≤ i := by
  induction nodes generalizing index with
  | nil => cases h
  | cons node nodes ih =>
    cases node with
    | text kind content => exact ih h
    | element tag attributes children =>
      rw [placesAmong] at h
      rcases List.mem_append.1 h with h | h
      · obtain ⟨rest, -, rfl⟩ := List.mem_map.1 h
        exact ⟨index, rest, rfl, Nat.le_refl _⟩
      · obtain ⟨i, rest, rfl, hi⟩ := ih h
        exact ⟨i, rest, rfl, by omega⟩

mutual

/-- **Places are distinct.** -/
theorem nodup_places : (node : Node) → node.places.Nodup
  | text .. => List.nodup_nil
  | element _ _ children => by
    rw [places, List.nodup_cons]
    refine ⟨fun h => ?_, nodup_placesAmong 0 children⟩
    obtain ⟨i, rest, he, -⟩ := le_of_mem_placesAmong h
    cases he

theorem nodup_placesAmong (index : Nat) :
    (nodes : List Node) → (placesAmong index nodes).Nodup
  | [] => List.nodup_nil
  | text .. :: rest => nodup_placesAmong index rest
  | element tag attributes children :: rest => by
    rw [placesAmong, List.nodup_append]
    refine ⟨(nodup_places (element tag attributes children)).map (List.cons_injective),
      nodup_placesAmong (index + 1) rest, fun place hplace other hother he => ?_⟩
    obtain ⟨below, -, rfl⟩ := List.mem_map.1 hplace
    obtain ⟨i, rest, rfl, hi⟩ := le_of_mem_placesAmong hother
    have hindex := (List.cons.inj he).1
    omega

end

/-! ### Walking to a place -/

/-- Walking from a parent starts among its children that are elements. -/
theorem at?_cons (node : Node) (i : Int) (rest : List Int) :
    node.at? (i :: rest) = (memberAt? node.elementChildren i).bind (·.at? rest) := by
  rw [at?]
  cases memberAt? node.elementChildren i <;> rfl

theorem memberAt?_length {α : Type} (before : List α) (x : α) (rest : List α) :
    memberAt? (before ++ x :: rest) (before.length : Int) = some x := by
  rw [memberAt?, if_pos (Int.natCast_nonneg _), Int.toNat_natCast,
    List.getElem?_append_right (Nat.le_refl _), Nat.sub_self, List.getElem?_cons_zero]

mutual

/-- **Walking to the places of a tree gives its elements**, in their order. -/
theorem map_at?_places : (node : Node) → node.places.map node.at? = node.elements.map some
  | text .. => rfl
  | element tag attributes children => by
    rw [places, elements, List.map_cons, List.map_cons]
    exact congrArg (some (element tag attributes children) :: ·)
      (map_at?_placesAmong (element tag attributes children) [] children rfl)

theorem map_at?_placesAmong (parent : Node) (before : List Node) :
    (nodes : List Node) → parent.elementChildren = before ++ nodes.filter isElement →
      (placesAmong before.length nodes).map parent.at? = (elementsAmong nodes).map some
  | [], _ => rfl
  | text kind content :: rest, h => map_at?_placesAmong parent before rest h
  | element tag attributes children :: rest, h => by
    have hnext : parent.elementChildren =
        (before ++ [element tag attributes children]) ++ rest.filter isElement := by
      rw [h, List.append_assoc]
      rfl
    have hchild (place : List Int) : parent.at? ((before.length : Int) :: place) =
        (element tag attributes children).at? place := by
      rw [at?_cons, h]
      rw [List.filter_cons_of_pos rfl, memberAt?_length, Option.bind_some]
    have hrest := map_at?_placesAmong parent (before ++ [element tag attributes children]) rest hnext
    rw [List.length_append, List.length_singleton] at hrest
    rw [placesAmong, elementsAmong, List.map_append, List.map_append, List.map_map, hrest,
      ← map_at?_places (element tag attributes children)]
    congr 1
    exact List.map_congr_left fun place _ => hchild place

end

/-- **Walking from a root to the places below it** gives the elements below it. -/
theorem map_at?_descendants (root : Node) :
    (placesAmong 0 root.children).map root.at? = root.descendants.map some :=
  map_at?_placesAmong root [] root.children rfl

end Markup.Node

namespace Template

open Markup.Node

variable {root : Node} {t : Compiled}

/-! ### Refs by places -/

/-- The ref of an element at a path, if it carries a name. -/
def refOf? (path : List Int) (node : Node) : Option Ref :=
  (name? node.attributes).map fun name => ⟨name, typeOf node.tag, path⟩

theorem path_of_refOf? {path : List Int} {node : Node} {ref : Ref} (h : refOf? path node = some ref) :
    ref.path = path := by
  obtain ⟨name, -, rfl⟩ := Option.map_eq_some_iff.1 h
  rfl

/-- The paths of refs are some of the places that they are read off. -/
theorem sublist_paths (placed : List (List Int × Node)) :
    ((placed.filterMap fun m => refOf? m.1 m.2).map Ref.path).Sublist (placed.map Prod.fst) := by
  induction placed with
  | nil => exact .slnil
  | cons m placed ih =>
    rw [List.filterMap_cons, List.map_cons]
    split
    · exact ih.cons _
    · next ref href =>
      rw [List.map_cons, path_of_refOf? href]
      exact ih.cons_cons _

mutual

/-- **The refs in a tree are those of its elements that carry a name**, in their order and with their
places. -/
theorem refsAt_eq (path : List Int) : (node : Node) → refsAt path node =
    (node.places.zip node.elements).filterMap fun m => refOf? (path ++ m.1) m.2
  | .text .. => by
    rw [refsAt, places, elements]
    rfl
  | .element tag attributes children => by
    rw [refsAt, places, elements, List.zip_cons_cons, List.filterMap_cons, List.append_nil,
      refsBelow_eq path 0 children]
    cases hname : name? attributes <;> simp [refOf?, Node.attributes, Node.tag, hname]

theorem refsBelow_eq (path : List Int) (index : Nat) : (nodes : List Node) →
    refsBelow path index nodes = ((placesAmong index nodes).zip (elementsAmong nodes)).filterMap
      fun m => refOf? (path ++ m.1) m.2
  | [] => by
    rw [refsBelow, placesAmong, elementsAmong]
    rfl
  | .text .. :: rest => by
    rw [refsBelow, placesAmong, elementsAmong, elements, List.nil_append]
    exact refsBelow_eq path index rest
  | .element tag attributes children :: rest => by
    rw [refsBelow, placesAmong, elementsAmong, List.zip_append
      (by rw [List.length_map, length_places]), List.filterMap_append,
      refsBelow_eq path (index + 1) rest, refsAt_eq (path ++ [(index : Int)]), List.zip_map_left,
      List.filterMap_map]
    congr 2
    funext m
    rw [Function.comp_apply, Prod.map_fst, Prod.map_snd, List.append_assoc]
    rfl

end

/-! ### The tree as it is stored -/

/-- **What becomes of an element** when names are taken away and the tree is stripped. -/
def Becomes (node stored : Node) : Prop := ∃ preserved, stored = stripNode preserved (unname node)

mutual

/-- Stripping and taking names away keep the places of elements. -/
theorem places_strip (preserved : Bool) : (node : Node) →
    (stripNode preserved (unname node)).places = node.places
  | .text .. => by
    rw [unname, stripNode]
  | .element tag attributes children => by
    rw [unname, stripNode, places, places, placesAmong_strip _ 0 children]

/-- **Stripping and taking names away keep the places among siblings.** -/
theorem placesAmong_strip (preserved : Bool) (index : Nat) : (nodes : List Node) →
    placesAmong index (stripNodes preserved (unnameAll nodes)) = placesAmong index nodes
  | [] => by rw [unnameAll, stripNodes]
  | .text kind content :: rest => by
    rw [unnameAll, unname, stripNodes, placesAmong]
    split
    · exact placesAmong_strip preserved index rest
    · exact placesAmong_strip preserved index rest
  | .element tag attributes children :: rest => by
    have hnode := places_strip preserved (.element tag attributes children)
    rw [unname, stripNode] at hnode
    rw [unnameAll, unname, stripNodes, stripNode, placesAmong, placesAmong, hnode,
      placesAmong_strip preserved (index + 1) rest]

end

mutual

/-- The elements of a stored tree are those of the tree, in the same order. -/
theorem elements_strip (preserved : Bool) : (node : Node) →
    List.Forall₂ Becomes node.elements (stripNode preserved (unname node)).elements
  | .text .. => by
    rw [unname, stripNode]
    exact .nil
  | .element tag attributes children => by
    have hbelow := elementsAmong_strip (preserved || preservesBlanks tag) children
    refine .cons ⟨preserved, ?_⟩ hbelow
    rw [unname, stripNode]

theorem elementsAmong_strip (preserved : Bool) : (nodes : List Node) →
    List.Forall₂ Becomes (elementsAmong nodes)
      (elementsAmong (stripNodes preserved (unnameAll nodes)))
  | [] => .nil
  | .text kind content :: rest => by
    rw [unnameAll, unname, stripNodes]
    split
    · exact elementsAmong_strip preserved rest
    · exact elementsAmong_strip preserved rest
  | .element tag attributes children :: rest => by
    have hnode := elements_strip preserved (.element tag attributes children)
    rw [unname] at hnode
    rw [unnameAll, unname, stripNodes]
    exact List.rel_append hnode (elementsAmong_strip preserved rest)

end

/-! ### Collecting with a stack -/

/-- Siblings that are elements, each with its path, given the path of their parent. -/
def numbered (path : List Int) (siblings : List Node) : List (List Int × Node) :=
  siblings.zipIdx.map fun m => (path ++ [(m.2 : Int)], m.1)

theorem map_snd_numbered (path : List Int) (siblings : List Node) :
    (numbered path siblings).map Prod.snd = siblings := by
  rw [numbered, List.map_map]
  exact List.zipIdx_map_fst 0 siblings

theorem sizeOf_filter_le (nodes : List Node) : sizeOf (nodes.filter isElement) ≤ sizeOf nodes := by
  induction nodes with
  | nil => exact Nat.le_refl _
  | cons node nodes ih =>
    rw [List.filter_cons]
    split <;> simp only [List.cons.sizeOf_spec] <;> omega

theorem sizeOf_append (nodes others : List Node) :
    sizeOf (nodes ++ others) + 1 = sizeOf nodes + sizeOf others := by
  induction nodes with
  | nil => rw [List.nil_append, List.nil.sizeOf_spec, Nat.add_comm]
  | cons node nodes ih =>
    simp only [List.cons_append, List.cons.sizeOf_spec]
    omega

theorem sizeOf_elementChildren_le (node : Node) : sizeOf node.elementChildren ≤ sizeOf node := by
  cases node with
  | text kind content =>
    rw [elementChildren, Node.children, List.filter_nil, List.nil.sizeOf_spec,
      Node.text.sizeOf_spec]
    omega
  | element tag attributes children =>
    have hle := sizeOf_filter_le children
    rw [elementChildren, Node.children, Node.element.sizeOf_spec]
    omega

/-- **Collecting refs with a stack** of elements that are yet to be visited: the element on top is
visited, and its children take its place, the first of them on top. -/
def collect : List (List Int × Node) → List Ref
  | [] => []
  | (path, node) :: stack =>
    (refOf? path node).toList ++ collect (numbered path node.elementChildren ++ stack)
termination_by stack => sizeOf (stack.map Prod.snd)
decreasing_by
  have hle := sizeOf_elementChildren_le node
  have happ := sizeOf_append node.elementChildren (stack.map Prod.snd)
  rw [List.map_append, map_snd_numbered, List.map_cons, List.cons.sizeOf_spec]
  dsimp only
  omega

/-- The siblings that are elements, with the refs in each of them. -/
theorem flatMap_numbered (path : List Int) (nodes : List Node) :
    (numbered path (nodes.filter isElement)).flatMap (fun m => refsAt m.1 m.2) =
      refsBelow path 0 nodes := by
  have hfrom (k : Nat) : (((nodes.filter isElement).zipIdx k).map
      fun m => (path ++ [(m.2 : Int)], m.1)).flatMap (fun m => refsAt m.1 m.2) =
        refsBelow path k nodes := by
    induction nodes generalizing k with
    | nil => rw [refsBelow]; rfl
    | cons node nodes ih =>
      cases node with
      | text kind content =>
        rw [refsBelow]
        exact ih k
      | element tag attributes children =>
        rw [List.filter_cons_of_pos rfl, List.zipIdx_cons, List.map_cons, List.flatMap_cons,
          ih (k + 1), refsBelow]
  exact hfrom 0

/-- **A stack holds the refs in its elements**, those of the top first. -/
theorem collect_eq (stack : List (List Int × Node)) (h : ∀ m ∈ stack, m.2.isElement = true) :
    collect stack = stack.flatMap fun m => refsAt m.1 m.2 := by
  fun_induction collect stack with
  | case1 => rfl
  | case2 path node stack ih =>
    obtain ⟨hnode, hstack⟩ := List.forall_mem_cons.1 h
    cases node with
    | text kind content => cases hnode
    | element tag attributes children =>
      rw [ih, List.flatMap_append, List.flatMap_cons, elementChildren, Node.children,
        flatMap_numbered, refsAt, List.append_assoc]
      · rfl
      · intro m hm
        rcases List.mem_append.1 hm with hm | hm
        · obtain ⟨child, hchild, rfl⟩ := List.mem_map.1 hm
          exact (List.mem_filter.1 (List.fst_mem_of_mem_zipIdx hchild)).2
        · exact hstack m hm

/-! ### Templates -/

/-- The template of a root has its refs, and the markup of the root as it is stored. -/
theorem of_ofRoot (h : ofRoot root = .ok t) :
    t.refs = refs root ∧ t.html = printRoot (strip (unname root)) := by
  rw [ofRoot] at h
  split at h
  · cases h
  · split at h
    · cases h
    · split at h
      · cases h
      · cases h
        exact ⟨rfl, rfl⟩

/-- **Refs lead to their elements.** The elements below the root of a template have distinct places,
by which they are found in the tree as it was and, in the same order, in the tree as it is stored;
and the refs are those of the elements that carried a name, each with the place of its element. They
are what collecting with a stack finds. -/
theorem refs_reach (h : ofRoot root = .ok t) :
    t.html = printRoot (strip (unname root)) ∧
      ∃ places : List (List Int), places.Nodup ∧
        places.map root.at? = root.descendants.map some ∧
        places.map (strip (unname root)).at? = (strip (unname root)).descendants.map some ∧
        List.Forall₂ Becomes root.descendants (strip (unname root)).descendants ∧
        t.refs = (places.zip root.descendants).filterMap (fun m => refOf? m.1 m.2) ∧
        (t.refs.map Ref.path).Nodup ∧
        t.refs = collect (numbered [] root.elementChildren) := by
  obtain ⟨hrefs, hhtml⟩ := of_ofRoot h
  have hzip : t.refs = ((placesAmong 0 root.children).zip root.descendants).filterMap
      fun m => refOf? m.1 m.2 := by
    rw [hrefs, refs, refsBelow_eq]
    rfl
  have hnodup := nodup_placesAmong 0 root.children
  have hstored : placesAmong 0 (strip (unname root)).children = placesAmong 0 root.children ∧
      List.Forall₂ Becomes root.descendants (strip (unname root)).descendants := by
    cases root with
    | text kind content => exact ⟨rfl, .nil⟩
    | element tag attributes children =>
      rw [unname, strip, stripNode]
      exact ⟨placesAmong_strip _ 0 children, elementsAmong_strip _ children⟩
  refine ⟨hhtml, placesAmong 0 root.children, hnodup, map_at?_descendants root, ?_, hstored.2, hzip,
    ?_, ?_⟩
  · rw [← hstored.1]
    exact map_at?_descendants _
  · have hsub := sublist_paths ((placesAmong 0 root.children).zip root.descendants)
    have hlen : (placesAmong 0 root.children).length = root.descendants.length :=
      length_placesAmong 0 root.children
    rw [List.map_fst_zip (Nat.le_of_eq hlen), ← hzip] at hsub
    exact hnodup.sublist hsub
  · rw [hrefs, collect_eq, elementChildren, flatMap_numbered, refs]
    intro m hm
    obtain ⟨child, hchild, rfl⟩ := List.mem_map.1 hm
    exact (List.mem_filter.1 (List.fst_mem_of_mem_zipIdx hchild)).2

/-- A template with refs behind texts and comments, next to each other and in each other. -/
def scattered : Node :=
  .element "div".toList [⟨"id".toList, "card".toList⟩]
    [.text .plain " ".toList,
      .element "p".toList [⟨"id".toList, "first".toList⟩] [.text .plain "x".toList],
      .text .comment "note".toList,
      .element "ul".toList []
        [.text .plain "\n".toList,
          .element "li".toList [⟨"id_".toList, "item".toList⟩] [],
          .element "a".toList [⟨"id".toList, "second".toList⟩]
            [.element "b".toList [⟨"id".toList, "third".toList⟩] []]]]

/-- What it is compiled to. -/
def scatteredTemplate : Compiled :=
  ⟨"card".toList, "HTMLElement".toList,
    [⟨"first".toList, "HTMLElement".toList, [0]⟩,
      ⟨"second".toList, "HTMLAnchorElement".toList, [1, 1]⟩,
      ⟨"third".toList, "HTMLElement".toList, [1, 1, 0]⟩],
    "<div><p>x</p><ul><li id=\"item\"></li><a><b></b></a></ul></div>".toList⟩

theorem refs_reach_scattered :
    ofRoot scattered = .ok scatteredTemplate ∧
      ∃ places : List (List Int), places.Nodup ∧
        places.map scattered.at? = scattered.descendants.map some ∧
        places.map (strip (unname scattered)).at? =
          (strip (unname scattered)).descendants.map some ∧
        List.Forall₂ Becomes scattered.descendants (strip (unname scattered)).descendants ∧
        scatteredTemplate.refs =
          (places.zip scattered.descendants).filterMap (fun m => refOf? m.1 m.2) := by
  have h : ofRoot scattered = .ok scatteredTemplate := by decide +kernel
  obtain ⟨-, places, hnodup, hbefore, hafter, hsame, hrefs, -⟩ := refs_reach h
  exact ⟨h, places, hnodup, hbefore, hafter, hsame, hrefs⟩

end Template
end TemplateBindings
