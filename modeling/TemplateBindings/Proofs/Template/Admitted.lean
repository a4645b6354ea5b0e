import TemplateBindings.Proofs.Template.Places

/-!
# Which fragments are accepted

A fragment is compiled element by element, and its first fault ends it; a fault may lie in an element,
below it, or in what it shares with an element before it. What is asked of the elements can be said of
their list at once (`TemplateBindings.Template.Admitted`). Compiling succeeds on the lists that are
admitted and on no others, and it blames the element with which a list stops being admitted
(`TemplateBindings.Template.fragmentOfElements_admitted`). Of several faults in that element any may
be reported first, but one that is reported is there (`TemplateBindings.Template.Fault.Of`), and this
is what makes the list one that is not admitted.
-/

namespace TemplateBindings
namespace Template

open Markup Markup.Node

/-! ### What is asked of a fragment -/

/-- The ids of the elements below a root that are not empty, in the order of their start tags. -/
def refNames (root : Node) : List Text :=
  root.descendants.filterMap fun node => (node.attribute? nameAttribute).filter (· ≠ [])

/-- **What is asked of the root of a template.** -/
structure IsTemplate (root : Node) : Prop where
  named : ∃ name, root.attribute? nameAttribute = some name ∧ name ≠ [] ∧
    Identifier.isIdentifier name = true
  refs_named : ∀ name ∈ refNames root, Identifier.isIdentifier name = true ∧ name ≠ baseField
  refs_distinct : (refNames root).Nodup

/-- **What is asked of the roots of a fragment.** -/
structure Admitted (roots : List Node) : Prop where
  templates : ∀ root ∈ roots, IsTemplate root
  names_distinct : (roots.map (·.attribute? nameAttribute)).Nodup

/-- The elements that are templates. -/
def roots (elements : List Node) : List Node := elements.filter fun node => !isStyle node

/-- The elements that are stylesheets. -/
def stylesheets (elements : List Node) : List Node := elements.filter isStyle

/-- What a fault of refs says of their names. -/
def Fault.Among (names : List Text) : Fault → Prop
  | .reservedRef => baseField ∈ names
  | .badRef name => name ∈ names ∧ Identifier.isIdentifier name = false
  | .repeatedRef name => 2 ≤ names.count name
  | _ => False

/-- **What a fault says** of a root, and of the roots before it. -/
def Fault.Of (before : List Node) (root : Node) : Fault → Prop
  | .unnamed tag => (root.attribute? nameAttribute).getD [] = [] ∧ tag = root.tag
  | .badName => ∃ name, root.attribute? nameAttribute = some name ∧ name ≠ [] ∧
    Identifier.isIdentifier name = false
  | .repeatedName => root.attribute? nameAttribute ∈ before.map (·.attribute? nameAttribute)
  | fault => fault.Among (refNames root)

variable {root : Node} {before elements : List Node} {refs : List Ref} {seen names others : List Text}
  {attributes : List Attribute} {name : Text} {t : Compiled} {e : TemplateError} {fault : Fault}

/-! ### Refs -/

theorem Fault.Among.perm (h : fault.Among names) (hperm : names.Perm others) :
    fault.Among others := by
  cases fault with
  | reservedRef => exact hperm.mem_iff.1 h
  | badRef name => exact ⟨hperm.mem_iff.1 h.1, h.2⟩
  | repeatedRef name => exact Nat.le_trans h (Nat.le_of_eq (hperm.count_eq name))
  | unnamed | badName | repeatedName => exact h

/-- No fault of refs is there where the rules for them are kept. -/
theorem IsTemplate.not_among (h : IsTemplate root) (fault : Fault) :
    ¬ fault.Among (refNames root) := by
  intro hamong
  cases fault with
  | reservedRef => exact (h.refs_named baseField hamong).2 rfl
  | badRef name =>
    have hname := (h.refs_named name hamong.1).1
    rw [hamong.2] at hname
    cases hname
  | repeatedRef name =>
    have hcount := List.nodup_iff_count_le_one.1 h.refs_distinct name
    have htwo : 2 ≤ (refNames root).count name := hamong
    omega
  | unnamed | badName | repeatedName => exact hamong

/-- The names of the refs before a ref, and the others, however they are listed. -/
theorem perm_seen (seen : List Text) (ref : Ref) (refs : List Ref) :
    ((ref.name :: seen) ++ refs.map Ref.name).Perm (seen ++ (ref :: refs).map Ref.name) := by
  rw [List.map_cons, List.cons_append]
  exact List.perm_middle.symm

/-- **The fault that is found among refs is there.** -/
theorem among_of_refFault? (h : refFault? seen refs = some fault) :
    fault.Among (seen ++ refs.map Ref.name) := by
  -- a ref that passes goes over to the names seen, and the names altogether stay the same
  induction refs generalizing seen with
  | nil => cases h
  | cons ref refs ih =>
    have hmem : ref.name ∈ seen ++ (ref :: refs).map Ref.name :=
      List.mem_append_right _ List.mem_cons_self
    rw [refFault?] at h
    split at h
    · next hbase =>
      cases h
      rwa [hbase] at hmem
    · split at h
      · next hbad =>
        cases h
        exact ⟨hmem, by simpa using hbad⟩
      · split at h
        · next hseen =>
          cases h
          have hfirst : 0 < seen.count ref.name :=
            List.count_pos_iff.2 (List.contains_iff_mem.1 hseen)
          have hcount : (seen ++ (ref :: refs).map Ref.name).count ref.name =
              seen.count ref.name + ((refs.map Ref.name).count ref.name + 1) := by
            rw [List.count_append, List.map_cons, List.count_cons_self]
          show 2 ≤ _
          omega
        · exact (ih h).perm (perm_seen seen ref refs)

/-- **Refs without a fault** keep the rules. -/
theorem of_refFault?_eq_none (hseen : seen.Nodup) (h : refFault? seen refs = none) :
    (∀ ref ∈ refs, Identifier.isIdentifier ref.name = true ∧ ref.name ≠ baseField) ∧
      (seen ++ refs.map Ref.name).Nodup := by
  induction refs generalizing seen with
  | nil => exact ⟨nofun, by simpa using hseen⟩
  | cons ref refs ih =>
    rw [refFault?] at h
    split at h
    · cases h
    · next hbase =>
      split at h
      · cases h
      · next hbad =>
        split at h
        · cases h
        · next hnew =>
          have hnodup : (ref.name :: seen).Nodup :=
            List.nodup_cons.2 ⟨fun hm => hnew (List.contains_iff_mem.2 hm), hseen⟩
          obtain ⟨hnamed, hdistinct⟩ := ih hnodup h
          exact ⟨List.forall_mem_cons.2 ⟨⟨by simpa using hbad, hbase⟩, hnamed⟩,
            (perm_seen seen ref refs).nodup_iff.1 hdistinct⟩

/-! ### One template -/

theorem name?_eq (attributes : List Attribute) :
    name? attributes = (Attribute.get? attributes nameAttribute).filter (· ≠ []) := by
  rw [name?]
  cases Attribute.get? attributes nameAttribute with
  | none => rfl
  | some name => cases name <;> rfl

theorem name?_eq_some : name? attributes = some name ↔
    Attribute.get? attributes nameAttribute = some name ∧ name ≠ [] := by
  rw [name?_eq, Option.filter_eq_some_iff, decide_eq_true_eq]

/-- Without a name, an element has no id or an empty one. -/
theorem getD_of_name?_eq_none (h : name? attributes = none) :
    (Attribute.get? attributes nameAttribute).getD [] = [] := by
  cases hget : Attribute.get? attributes nameAttribute with
  | none => rfl
  | some value =>
    by_contra hne
    rw [name?_eq_some.2 ⟨hget, hne⟩] at h
    cases h

/-- The refs of a template have the names below its root. -/
theorem map_name_refs (root : Node) : (Template.refs root).map Ref.name = refNames root := by
  have hsnd : ((placesAmong 0 root.children).zip root.descendants).map Prod.snd =
      root.descendants :=
    List.map_snd_zip (Nat.le_of_eq (length_placesAmong 0 root.children).symm)
  rw [Template.refs, refsBelow_eq, refNames, ← hsnd, List.filterMap_map, List.map_filterMap]
  refine congrArg (List.filterMap · _) (funext fun m => ?_)
  rw [refOf?, Option.map_map, name?_eq]
  exact Option.map_id'

/-- **A root that is compiled keeps the rules for it.** -/
theorem isTemplate_of_ofRoot (h : ofRoot root = .ok t) :
    IsTemplate root ∧ root.attribute? nameAttribute = some t.name := by
  rw [ofRoot] at h
  split at h
  · cases h
  · next name hname =>
    split at h
    · cases h
    · next hident =>
      split at h
      · cases h
      · next hrefs =>
        cases h
        obtain ⟨hget, hne⟩ := name?_eq_some.1 hname
        obtain ⟨hnamed, hdistinct⟩ := of_refFault?_eq_none List.nodup_nil hrefs
        rw [List.nil_append, map_name_refs] at hdistinct
        refine ⟨⟨⟨name, hget, hne, by simpa using hident⟩, ?_, hdistinct⟩, hget⟩
        intro name hm
        rw [← map_name_refs] at hm
        obtain ⟨ref, href, rfl⟩ := List.mem_map.1 hm
        exact hnamed ref href

/-- **A root that is refused has the fault that is reported**, and is called by its id. -/
theorem of_ofRoot_error (h : ofRoot root = .error e) (before : List Node) :
    e.fault.Of before root ∧ e.template = (root.attribute? nameAttribute).getD [] := by
  rw [ofRoot] at h
  split at h
  · next hname =>
    cases h
    have hempty := getD_of_name?_eq_none hname
    exact ⟨⟨hempty, rfl⟩, hempty.symm⟩
  · next name hname =>
    obtain ⟨hget, hne⟩ : root.attribute? nameAttribute = some name ∧ name ≠ [] :=
      name?_eq_some.1 hname
    split at h
    · next hident =>
      cases h
      exact ⟨⟨name, hget, hne, by simpa using hident⟩, by rw [hget]; rfl⟩
    · split at h
      · next fault hfault =>
        cases h
        have hamong := among_of_refFault? hfault
        rw [List.nil_append, map_name_refs] at hamong
        refine ⟨?_, by rw [hget]; rfl⟩
        cases fault with
        | reservedRef | badRef | repeatedRef => exact hamong
        | unnamed | badName | repeatedName => exact hamong.elim
      · cases h

/-! ### All of them -/

/-- **A fault breaks one of the rules** for the roots up to its own. -/
theorem Fault.Of.not_admitted (h : fault.Of before root) : ¬ Admitted (before ++ [root]) := by
  intro hadmitted
  have hroot := hadmitted.templates root (List.mem_append_right _ List.mem_cons_self)
  obtain ⟨name, hget, hne, hident⟩ := hroot.named
  cases fault with
  | unnamed tag =>
    have hempty := h.1
    rw [hget] at hempty
    exact hne hempty
  | badName =>
    obtain ⟨other, hother, -, hbad⟩ := h
    cases hget.symm.trans hother
    exact absurd (hident.symm.trans hbad) nofun
  | repeatedName =>
    have hdistinct := hadmitted.names_distinct
    rw [List.map_append, List.nodup_append] at hdistinct
    exact hdistinct.2.2 _ h _ List.mem_cons_self rfl
  | reservedRef => exact hroot.not_among .reservedRef h
  | badRef name => exact hroot.not_among (.badRef name) h
  | repeatedRef name => exact hroot.not_among (.repeatedRef name) h

/-- One more root is admitted if it is a template with a name of its own. -/
theorem Admitted.concat (h : Admitted before) (hroot : IsTemplate root)
    (hnew : root.attribute? nameAttribute ∉ before.map (·.attribute? nameAttribute)) :
    Admitted (before ++ [root]) where
  templates := List.forall_mem_append.2 ⟨h.templates, List.forall_mem_singleton.2 hroot⟩
  names_distinct := by
    rw [List.map_append, List.map_singleton, ← List.concat_eq_append]
    exact h.names_distinct.concat hnew

/-- Roots that come first are admitted with those behind them. -/
theorem Admitted.of_append {behind : List Node} (h : Admitted (before ++ behind)) :
    Admitted before where
  templates root hm := h.templates root (List.mem_append_left _ hm)
  names_distinct := by
    have hdistinct := h.names_distinct
    rw [List.map_append] at hdistinct
    exact hdistinct.of_append_left

/-- A fragment with a template for each root, and the texts of the stylesheets. -/
structure Holds (elements : List Node) (fragment : Fragment) : Prop where
  templates : List.Forall₂ (fun root t => ofRoot root = .ok t ∧
    root.attribute? nameAttribute = some t.name) (roots elements) fragment.templates
  styles : fragment.styles = (stylesheets elements).map Node.styleText

/-- What an error says of elements, given the roots before them: it blames the first root with which
the list is not admitted, and for a fault that is there. -/
def Blames (before elements : List Node) (e : TemplateError) : Prop :=
  ∃ passed root behind, roots elements = passed ++ root :: behind ∧ Admitted (before ++ passed) ∧
    e.fault.Of (before ++ passed) root ∧ e.template = (root.attribute? nameAttribute).getD []

section Cons

variable {node : Node} {rest : List Node} {fragment : Fragment}

theorem roots_cons_of_isStyle (h : isStyle node = true) (rest : List Node) :
    roots (node :: rest) = roots rest := List.filter_cons_of_neg (by simp [h])

theorem roots_cons (h : ¬ isStyle node = true) (rest : List Node) :
    roots (node :: rest) = node :: roots rest := List.filter_cons_of_pos (by simp [h])

/-- A stylesheet before the other elements. -/
theorem Holds.cons_style (hstyle : isStyle node = true) (h : Holds rest fragment) :
    Holds (node :: rest) { fragment with styles := node.styleText :: fragment.styles } where
  templates := by
    rw [roots_cons_of_isStyle hstyle]
    exact h.templates
  styles := by
    rw [stylesheets, List.filter_cons_of_pos hstyle, List.map_cons, ← stylesheets]
    exact congrArg _ h.styles

/-- A root before the other elements. -/
theorem Holds.cons (hstyle : ¬ isStyle node = true) (hok : ofRoot node = .ok t)
    (hname : node.attribute? nameAttribute = some t.name) (h : Holds rest fragment) :
    Holds (node :: rest) { fragment with templates := t :: fragment.templates } where
  templates := by
    rw [roots_cons hstyle]
    exact .cons ⟨hok, hname⟩ h.templates
  styles := by
    rw [stylesheets, List.filter_cons_of_neg hstyle, ← stylesheets]
    exact h.styles

/-- Whatever is wrong with an element itself, the list of roots stops there. -/
theorem Blames.here (hstyle : ¬ isStyle node = true) (hbefore : Admitted before)
    (hfault : e.fault.Of before node)
    (hname : e.template = (node.attribute? nameAttribute).getD []) (rest : List Node) :
    Blames before (node :: rest) e := by
  refine ⟨[], node, roots rest, roots_cons hstyle rest, ?_, ?_, hname⟩
  · rwa [List.append_nil]
  · rwa [List.append_nil]

/-- An error behind an element is one of all elements. -/
theorem Blames.behind (hstyle : ¬ isStyle node = true) (h : Blames (before ++ [node]) rest e) :
    Blames before (node :: rest) e := by
  obtain ⟨passed, root, behind, hroots, hadmitted, hfault, hname⟩ := h
  rw [← List.append_cons] at hadmitted hfault
  refine ⟨node :: passed, root, behind, ?_, hadmitted, hfault, hname⟩
  rw [roots_cons hstyle, hroots, List.cons_append]

end Cons

/-- **One element is compiled after the others**: the loop ends with a fragment of admitted roots, or
blames one of them. -/
theorem fragmentOfElements_cases (elements : List Node) (hbefore : Admitted before)
    (hseen : ∀ name, name ∈ seen ↔ some name ∈ before.map (·.attribute? nameAttribute)) :
    (∃ fragment, fragmentOfElements seen elements = .ok fragment ∧
      Admitted (before ++ roots elements) ∧ Holds elements fragment) ∨
    ∃ e, fragmentOfElements seen elements = .error e ∧ Blames before elements e := by
  -- the roots passed so far stay admitted, and the names seen are theirs
  induction elements generalizing before seen with
  | nil =>
    refine .inl ⟨⟨[], []⟩, rfl, ?_, ⟨.nil, rfl⟩⟩
    rwa [roots, List.filter_nil, List.append_nil]
  | cons node rest ih =>
    rw [fragmentOfElements]
    split
    · next hstyle =>
      have hroots := roots_cons_of_isStyle hstyle rest
      rcases ih hbefore hseen with ⟨fragment, hok, hadmitted, hholds⟩ | ⟨e, herror, hblames⟩
      · exact .inl ⟨_, by rw [hok], hroots ▸ hadmitted, hholds.cons_style hstyle⟩
      · refine .inr ⟨e, by rw [herror], ?_⟩
        rwa [Blames, hroots]
    · next hstyle =>
      split
      · next e herror =>
        obtain ⟨hfault, hname⟩ := of_ofRoot_error herror before
        exact .inr ⟨e, rfl, .here hstyle hbefore hfault hname rest⟩
      · next t hok =>
        obtain ⟨htemplate, hname⟩ := isTemplate_of_ofRoot hok
        split
        · next hrepeated =>
          have hfault : Fault.repeatedName.Of before node := by
            have hm := (hseen t.name).1 (List.contains_iff_mem.1 hrepeated)
            rwa [← hname] at hm
          have hblames : Blames before (node :: rest) ⟨t.name, .repeatedName⟩ :=
            .here hstyle hbefore hfault (by rw [hname]; rfl) rest
          exact .inr ⟨_, rfl, hblames⟩
        · next hnew =>
          have hnext : Admitted (before ++ [node]) :=
            hbefore.concat htemplate fun hm =>
              hnew (List.contains_iff_mem.2 ((hseen t.name).2 (hname ▸ hm)))
          have hseen' (name : Text) : name ∈ t.name :: seen ↔
              some name ∈ (before ++ [node]).map (·.attribute? nameAttribute) := by
            rw [List.map_append, List.mem_append, List.map_singleton, hname, List.mem_singleton,
              Option.some.injEq, List.mem_cons, hseen name, or_comm]
          rcases ih hnext hseen' with ⟨fragment, hrest, hadmitted, hholds⟩ | ⟨e, herror, hblames⟩
          · refine .inl ⟨_, by rw [hrest], ?_, hholds.cons hstyle hok hname⟩
            rwa [roots_cons hstyle, List.append_cons]
          · exact .inr ⟨e, by rw [herror], hblames.behind hstyle⟩

/-- Markup is compiled as its elements at the top level are. -/
theorem parse_eq {html : Text} (h : parseElements html = .ok elements) :
    Fragment.parse html = (fragmentOfElements [] elements).mapError FragmentError.template := by
  rw [Fragment.parse, h]
  dsimp only
  cases fragmentOfElements [] elements <;> rfl

/-- **A fragment is accepted exactly if its roots are admitted.** It then has their templates and the
texts of the stylesheets, in the order of the elements. Else the error has the id of the first root with
which the roots are not admitted, or no name if it has no id, and a fault that is there. -/
theorem fragmentOfElements_admitted (elements : List Node) :
    (∀ html, parseElements html = .ok elements →
      Fragment.parse html = (fragmentOfElements [] elements).mapError FragmentError.template) ∧
    ((∃ fragment, fragmentOfElements [] elements = .ok fragment) ↔ Admitted (roots elements)) ∧
    (∀ fragment, fragmentOfElements [] elements = .ok fragment → Holds elements fragment) ∧
    ∀ e, fragmentOfElements [] elements = .error e →
      ∃ passed root behind, roots elements = passed ++ root :: behind ∧ Admitted passed ∧
        ¬ Admitted (passed ++ [root]) ∧ e.fault.Of passed root ∧
          e.template = (root.attribute? nameAttribute).getD [] := by
  have hempty : Admitted [] := ⟨nofun, List.nodup_nil⟩
  have hunseen (name : Text) :
      name ∈ ([] : List Text) ↔ some name ∈ ([] : List Node).map (·.attribute? nameAttribute) := by
    simp
  refine ⟨fun html => parse_eq, ?_⟩
  rcases fragmentOfElements_cases elements hempty hunseen with
    ⟨fragment, hok, hadmitted, hholds⟩ |
    ⟨e, herror, passed, root, behind, hroots, hpassed, hfault, hname⟩
  · refine ⟨iff_of_true ⟨fragment, hok⟩ hadmitted, ?_, ?_⟩
    · intro other hother
      cases hok.symm.trans hother
      exact hholds
    · intro e herror
      cases hok.symm.trans herror
  · rw [List.nil_append] at hpassed hfault
    have hnot := hfault.not_admitted
    refine ⟨iff_of_false ?_ ?_, ?_, ?_⟩
    · rintro ⟨fragment, hok⟩
      cases herror.symm.trans hok
    · intro hadmitted
      rw [hroots, List.append_cons] at hadmitted
      exact hnot hadmitted.of_append
    · intro fragment hok
      cases herror.symm.trans hok
    · intro other hother
      cases herror.symm.trans hother
      exact ⟨passed, root, behind, hroots, hpassed, hnot, hfault, hname⟩

/-- Elements of which the second repeats the name of a ref, and the third has no name. -/
def doubled : List Node :=
  [.element "style".toList [] [.text (.held .style) ".a\x7b\x7d".toList],
    .element "p".toList [⟨"id".toList, "one".toList⟩] [],
    .element "div".toList [⟨"id".toList, "two".toList⟩]
      [.element "b".toList [⟨"id".toList, "x".toList⟩] [],
        .element "i".toList [⟨"id".toList, "y".toList⟩]
          [.element "b".toList [⟨"id".toList, "x".toList⟩] []]],
    .element "p".toList [] []]

/-- The markup that they are written in. -/
def doubledMarkup : Text :=
  ("<style>.a\x7b\x7d</style><p id=one></p>and<div id=two><b id=x></b><i id=y><b id=x></b></i></div>"
    ++ "<p></p>").toList

theorem parseElements_doubled : parseElements doubledMarkup = .ok doubled := by
  have htokens : tokens doubledMarkup = .ok
      [.startTag "style".toList [], .characters ".a\x7b\x7d".toList, .endTag "style".toList,
        .startTag "p".toList [⟨"id".toList, "one".toList⟩], .endTag "p".toList,
        .characters "and".toList, .startTag "div".toList [⟨"id".toList, "two".toList⟩],
        .startTag "b".toList [⟨"id".toList, "x".toList⟩], .endTag "b".toList,
        .startTag "i".toList [⟨"id".toList, "y".toList⟩],
        .startTag "b".toList [⟨"id".toList, "x".toList⟩], .endTag "b".toList, .endTag "i".toList,
        .endTag "div".toList, .startTag "p".toList [], .endTag "p".toList] := by decide +kernel
  rw [parseElements, parse, htokens]
  rfl

theorem fragmentOfElements_admitted_doubled :
    parseElements doubledMarkup = .ok doubled ∧
      Fragment.parse doubledMarkup = .error (.template ⟨"two".toList, .repeatedRef "x".toList⟩) ∧
      ¬ Admitted (roots doubled) ∧
      ∃ passed root behind, roots doubled = passed ++ root :: behind ∧ Admitted passed ∧
        ¬ Admitted (passed ++ [root]) ∧ Fault.Of passed root (.repeatedRef "x".toList) ∧
          "two".toList = (root.attribute? nameAttribute).getD [] := by
  have herror : fragmentOfElements [] doubled =
      .error ⟨"two".toList, .repeatedRef "x".toList⟩ := by decide +kernel
  obtain ⟨hparse, hiff, -, hblames⟩ := fragmentOfElements_admitted doubled
  refine ⟨parseElements_doubled, ?_, fun hadmitted => ?_, hblames _ herror⟩
  · rw [hparse doubledMarkup parseElements_doubled, herror]
    rfl
  · obtain ⟨fragment, hok⟩ := hiff.2 hadmitted
    cases herror.symm.trans hok

end Template
end TemplateBindings
