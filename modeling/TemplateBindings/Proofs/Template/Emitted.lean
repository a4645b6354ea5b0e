import TemplateBindings.Proofs.Markup.Outline
import TemplateBindings.Proofs.Template.Renamed

/-!
# The markup that a template emits

A generated class parses the markup of its template and then follows the paths of its refs. The paths
were computed on the tree before it was printed, so they are right only if printing and parsing keep
the outline of the tree (`TemplateBindings.Template.emitted_keeps_outline`). This holds for the trees
that parsing gives, with plain names and no raw text, whatever their texts and values are: taking the
names away and stripping keep trees plain and sound, and drop the comments, the one kind of text here
that is not printed escaped.
-/

namespace TemplateBindings
namespace Template

open Markup

variable {root : Node} {t : Compiled}

/-! ### The stored tree is plain and sound -/

/-- Whether texts of a kind are texts of the page or comments. -/
def isPageKind (kind : TextKind) : Bool := isEscapedKind kind || kind = .comment

theorem isEscapedKind_of_not_dropped {kind : TextKind} {content : Text} {preserved : Bool}
    (h : isPageKind kind = true) (hkept : isDropped preserved kind content = false) :
    isEscapedKind kind = true := by
  rw [isPageKind, Bool.or_eq_true] at h
  refine h.resolve_right fun hcomment => ?_
  rw [isDropped, hcomment, Bool.true_or] at hkept
  cases hkept

mutual

theorem isPlain_strip (preserved : Bool) : (node : Node) → node.isElement = true →
    isPlain isPageKind node = true → isPlain isEscapedKind (stripNode preserved (unname node)) = true
  | .text .., h, _ => by cases h
  | .element tag attributes children, _, h => by
    obtain ⟨htag, hraw, hnames, hchildren⟩ := isPlain_element.1 h
    rw [unname, stripNode]
    refine isPlain_element.2 ⟨htag, hraw, fun a ha => ?_, allPlain_strip _ children hchildren⟩
    rcases of_mem_unnamedAttributes ha with ha | ha
    · rw [ha]
      decide
    · exact hnames a ha

/-- **The trees that stripping keeps are printed escaped.** -/
theorem allPlain_strip (preserved : Bool) : (nodes : List Node) →
    allPlain isPageKind nodes = true →
      allPlain isEscapedKind (stripNodes preserved (unnameAll nodes)) = true
  | [], _ => by rw [unnameAll, stripNodes, allPlain]
  | .text kind content :: rest, h => by
    rw [allPlain, isPlain, Bool.and_eq_true] at h
    have hrest := allPlain_strip preserved rest h.2
    rw [unnameAll, unname, stripNodes]
    split
    · exact hrest
    · next hkept =>
      rw [allPlain, isPlain, isEscapedKind_of_not_dropped h.1 (Bool.eq_false_iff.2 hkept), hrest]
      rfl
  | .element tag attributes children :: rest, h => by
    rw [allPlain, Bool.and_eq_true] at h
    have hnode := isPlain_strip preserved (.element tag attributes children) rfl h.1
    rw [unname] at hnode
    rw [unnameAll, unname, stripNodes, allPlain, hnode, allPlain_strip preserved rest h.2]
    rfl

end

mutual

theorem sound_strip (preserved : Bool) : (node : Node) → Sound node →
    Sound (stripNode preserved (unname node))
  | .text kind content, h => by rwa [unname, stripNode]
  | .element tag attributes children, h => by
    cases h with
    | element hnames hvoid hbelow =>
      rw [unname, stripNode]
      refine .element (nodup_unnamedAttributes hnames) (fun hv => ?_)
        (allSound_strip _ children hbelow)
      rw [hvoid hv, unnameAll, stripNodes]

/-- **Stripping and taking names away keep trees sound.** -/
theorem allSound_strip (preserved : Bool) : (nodes : List Node) → (∀ node ∈ nodes, Sound node) →
    ∀ node ∈ stripNodes preserved (unnameAll nodes), Sound node
  | [], _ => by
    rw [unnameAll, stripNodes]
    simp
  | .text kind content :: rest, h => by
    obtain ⟨hnode, hrest⟩ := List.forall_mem_cons.1 h
    have hrest := allSound_strip preserved rest hrest
    rw [unnameAll, unname, stripNodes]
    split
    · exact hrest
    · exact List.forall_mem_cons.2 ⟨hnode, hrest⟩
  | .element tag attributes children :: rest, h => by
    obtain ⟨hnode, hrest⟩ := List.forall_mem_cons.1 h
    have hnode := sound_strip preserved (.element tag attributes children) hnode
    rw [unname] at hnode
    rw [unnameAll, unname, stripNodes]
    exact List.forall_mem_cons.2 ⟨hnode, allSound_strip preserved rest hrest⟩

end

/-! ### Paths -/

theorem leftAlone_name : LeftAlone nameAttribute := leftAlone_id

theorem tag_of_becomes {node stored : Node} (h : Becomes node stored) : stored.tag = node.tag := by
  obtain ⟨preserved, rfl⟩ := h
  cases node <;> rfl

/-- **The path of a ref leads to what becomes of its element**, in the tree as it is stored. -/
theorem exists_at?_of_mem_refs {ref : Ref} (h : ref ∈ refs root) :
    ∃ before stored, root.at? ref.path = some before ∧
      (strip (unname root)).at? ref.path = some stored ∧ Becomes before stored := by
  cases root with
  | text kind content => cases h
  | element tag attributes children =>
    rw [refs, Node.children, refsBelow_eq] at h
    obtain ⟨⟨place, before⟩, hmem, href⟩ := List.mem_filterMap.1 h
    have hpath : ref.path = place := path_of_refOf? href
    obtain ⟨i, hi, hget⟩ := List.mem_iff_getElem.1 hmem
    rw [List.getElem_zip, Prod.mk.injEq] at hget
    rw [List.length_zip] at hi
    -- places and elements are met in one order, before and after
    have hplaces := placesAmong_strip (false || preservesBlanks tag) 0 children
    have hsame := elementsAmong_strip (false || preservesBlanks tag) children
    have hbefore := Node.map_at?_descendants (.element tag attributes children)
    have hafter := Node.map_at?_descendants (strip (unname (.element tag attributes children)))
    rw [unname, strip, stripNode, Node.descendants, Node.children, hplaces] at hafter
    rw [Node.descendants, Node.children] at hbefore
    have hleft : i < (Node.elementsAmong children).length := by omega
    have hright : i < (Node.elementsAmong
        (stripNodes (false || preservesBlanks tag) (unnameAll children))).length :=
      hsame.length_eq ▸ hleft
    have hb := congrArg (·[i]?) hbefore
    have ha := congrArg (·[i]?) hafter
    have hp : (Node.placesAmong 0 children)[i]? = some place := by
      rw [List.getElem?_eq_getElem (by omega)]
      exact congrArg some hget.1
    have he : (Node.elementsAmong children)[i] = before := hget.2
    simp only [List.getElem?_map, hp, List.getElem?_eq_getElem hleft,
      List.getElem?_eq_getElem hright, Option.map_some, Option.some.injEq, he] at hb ha
    rw [hpath]
    refine ⟨before, _, hb, ha, ?_⟩
    have := hsame.get hleft hright
    rwa [List.get_eq_getElem, List.get_eq_getElem, he] at this

/-- **What a template emits keeps the outline that its paths were computed on.** For a root among the
trees of any markup, with plain names, no raw text, and no other texts than those of the page and
comments, parsing the markup of its template gives exactly one element: its elements have the tags of
the stored tree, in the same places and with the same `id`, so that the path of every ref leads to an
element with the tag of the one that the ref was read off. -/
theorem emitted_keeps_outline {html : Text} {elements : List Node}
    (hparse : parseElements html = .ok elements) (hroot : root ∈ elements)
    (hplain : isPlain isPageKind root = true) (h : ofRoot root = .ok t) :
    ∃ again, parseElements t.html = .ok [again] ∧
      outline nameAttribute again = outline nameAttribute (strip (unname root)) ∧
      ∀ ref ∈ t.refs, ∃ before after, root.at? ref.path = some before ∧
        again.at? ref.path = some after ∧ after.tag = before.tag := by
  obtain ⟨hrefs, hhtml⟩ := of_ofRoot h
  have hsound : Sound (strip (unname root)) :=
    sound_strip false root (sound_of_parseElements hparse root hroot)
  have helement : root.isElement = true := by
    rw [parseElements] at hparse
    split at hparse
    · cases hparse
      exact (List.mem_filter.1 hroot).2
    · cases hparse
  have hstored : (strip (unname root)).isElement = true := by
    cases root with
    | text kind content => cases helement
    | element tag attributes children => rfl
  have hstripped : isPlain isEscapedKind (strip (unname root)) = true :=
    isPlain_strip false root helement hplain
  obtain ⟨again, hagain, houtline⟩ := parseElements_print leftAlone_name hstripped hsound hstored
  refine ⟨again, by rw [hhtml]; exact hagain, houtline, fun ref href => ?_⟩
  obtain ⟨before, stored, hbefore, hat, hbecomes⟩ := exists_at?_of_mem_refs (hrefs ▸ href)
  have hpath := at?_outline nameAttribute again ref.path
  rw [houtline, at?_outline, hat, Option.map_some] at hpath
  obtain ⟨after, hafter, htag⟩ := Option.map_eq_some_iff.1 hpath.symm
  refine ⟨before, after, hbefore, hafter, ?_⟩
  rw [← tag_outline nameAttribute after, htag, tag_outline, tag_of_becomes hbecomes]

/-- Markup with references, lonely brackets and quotes of both kinds, and with an element that never
has content. -/
def untidyMarkup : Text :=
  ("<div id=card><!-- a -->Tom & <b id=first title='\"x\" & &lt;y'>1 < 2</b><!-- b --><br>&amp;lt;"
    ++ "<input id=second value=\"it's\"></div>").toList

/-- Its tree. -/
def untidy : Node :=
  .element "div".toList [⟨"id".toList, "card".toList⟩]
    [.text .comment " a ".toList,
      .text .plain "Tom & ".toList,
      .element "b".toList [⟨"id".toList, "first".toList⟩, ⟨"title".toList, "\"x\" & <y".toList⟩]
        [.text .plain "1 < 2".toList],
      .text .comment " b ".toList,
      .element "br".toList [] [],
      .text .plain "&lt;".toList,
      .element "input".toList [⟨"id".toList, "second".toList⟩, ⟨"value".toList, "it's".toList⟩] []]

/-- What it is compiled to. -/
def untidyTemplate : Compiled :=
  ⟨"card".toList, "HTMLElement".toList,
    [⟨"first".toList, "HTMLElement".toList, [0]⟩,
      ⟨"second".toList, "HTMLInputElement".toList, [2]⟩],
    ("<div>Tom &amp; <b title='\"x\" &amp; &lt;y'>1 &lt; 2</b><br/>&amp;lt;"
      ++ "<input value=\"it's\"/></div>").toList⟩

theorem parseElements_untidy : parseElements untidyMarkup = .ok [untidy] := by
  have htokens : tokens untidyMarkup = .ok
      [.startTag "div".toList [⟨"id".toList, "card".toList⟩], .comment " a ".toList,
        .characters "Tom ".toList, .characters "&".toList, .characters " ".toList,
        .startTag "b".toList
          [⟨"id".toList, "first".toList⟩, ⟨"title".toList, "\"x\" & <y".toList⟩],
        .characters "1 ".toList, .characters "<".toList, .characters " 2".toList,
        .endTag "b".toList, .comment " b ".toList, .startTag "br".toList [],
        .characters "&".toList, .characters "lt;".toList,
        .startTag "input".toList
          [⟨"id".toList, "second".toList⟩, ⟨"value".toList, "it's".toList⟩],
        .endTag "div".toList] := by decide +kernel
  rw [parseElements, parse, htokens]
  rfl

theorem emitted_keeps_outline_untidy :
    parseElements untidyMarkup = .ok [untidy] ∧ isPlain isPageKind untidy = true ∧
      ofRoot untidy = .ok untidyTemplate ∧
      ∃ again, parseElements untidyTemplate.html = .ok [again] ∧
        outline nameAttribute again = outline nameAttribute (strip (unname untidy)) ∧
        ∀ ref ∈ untidyTemplate.refs, ∃ before after, untidy.at? ref.path = some before ∧
          again.at? ref.path = some after ∧ after.tag = before.tag := by
  have hplain : isPlain isPageKind untidy = true := by decide +kernel
  have h : ofRoot untidy = .ok untidyTemplate := by decide +kernel
  exact ⟨parseElements_untidy, hplain, h,
    emitted_keeps_outline parseElements_untidy List.mem_cons_self hplain h⟩

end Template
end TemplateBindings
