import TemplateBindings.GeneratedModule
import TemplateBindings.Proofs.Document.Bindings
import TemplateBindings.Proofs.Text.Pieces

/-!
# The names that a module declares

All declarations of a module stand in one scope. Two of them have names of their own, the namespace of
the class constants and the registry of a fragment; the others have names from the source, which are
kept apart from one another but not from those two. So the names of a module are distinct just when
the source takes neither of the two where the module has it
(`TemplateBindings.GeneratedModule.names_distinct_iff`).
-/

namespace TemplateBindings
namespace GeneratedModule

variable {html marker : Text} {moduleName : Str} {css : Option Text} {a : Artifacts}
  {classes : List Stylesheet.ClassBinding}

/-! ### Declarations -/

/-- **A declaration of a module**. -/
inductive Declaration where
  /-- The class constants of a module, passed on under one name. -/
  | reexport (moduleName : Str)
  /-- The registry. -/
  | registry
  /-- The class of a template. -/
  | template (t : Template.Compiled)
  /-- The constant of an id. -/
  | constant (b : Document.Binding)

namespace Declaration

/-- A declaration as it is written. -/
def render : Declaration → Str
  | reexport moduleName => reexportLine moduleName
  | registry => Str.ofText Template.renderRegistry
  | template t => Str.ofText t.render
  | constant b => Str.ofText b.render

/-- What stands before the name in a declaration. -/
def keyword : Declaration → Text
  | reexport _ => "export * as ".toList
  | registry => "const ".toList
  | template _ => "export class ".toList
  | constant _ => "export const ".toList

/-- The name that is declared. -/
def name : Declaration → Text
  | reexport _ => classNamespace
  | registry => Template.registryName
  | template t => t.name
  | constant b => b.name

theorem prefix_of_blank {first : Text} (h : [' '] <+: first) (s rest : Text) :
    s ++ [' '] <+: s ++ (first ++ rest) :=
  (List.prefix_append_right_inj s).2 (h.trans (List.prefix_append first rest))

theorem prefix_reexportLine (moduleName : Str) :
    Str.ofText ("export * as ".toList ++ classNamespace ++ [' ']) <+: reexportLine moduleName := by
  have hfrom : "export * as ".toList ++ classNamespace ++ [' '] <+:
      "export * as ".toList ++ classNamespace ++ " from \"./".toList := by decide
  unfold reexportLine
  rw [List.append_assoc, List.append_assoc]
  exact (Str.ofText_prefix hfrom).trans (List.prefix_append _ _)

theorem prefix_renderRegistry :
    "const ".toList ++ Template.registryName ++ [' '] <+: Template.renderRegistry := by
  have hnew : [' '] <+: " = new Map<string, HTMLElement>();".toList := by decide
  unfold Template.renderRegistry
  exact (List.prefix_append_right_inj _).2 hnew

theorem prefix_render_template (t : Template.Compiled) :
    "export class ".toList ++ t.name ++ [' '] <+: t.render := by
  have hopen : [' '] <+: " \x7b".toList := by decide
  unfold Template.Compiled.render Template.classLines
  exact ((List.prefix_append_right_inj _).2 hopen).trans (Text.prefix_joined_append _ [_] _)

theorem prefix_render_constant (b : Document.Binding) :
    "export const ".toList ++ b.name ++ [' '] <+: b.render := by
  have hlookup : [' '] <+: " = document.getElementById(\"".toList := by decide
  unfold Document.Binding.render
  simpa only [List.append_assoc] using prefix_of_blank hlookup ("export const ".toList ++ b.name)
    (b.elementId ++ ("\") as ".toList ++ (b.type ++ ";".toList)))

/-- **A declaration is written with its name.** -/
theorem prefix_render : ∀ d : Declaration, Str.ofText (d.keyword ++ d.name ++ [' ']) <+: d.render
  | reexport moduleName => prefix_reexportLine moduleName
  | registry => Str.ofText_prefix prefix_renderRegistry
  | template t => Str.ofText_prefix (prefix_render_template t)
  | constant b => Str.ofText_prefix (prefix_render_constant b)

end Declaration

/-- The declaration that passes on class constants, if there are any. -/
def ofClasses (classes : List Stylesheet.ClassBinding) (moduleName : Str) : List Declaration :=
  if classes.isEmpty then [] else [.reexport moduleName]

/-- The declarations of templates, behind the registry that they share. -/
def ofTemplates (templates : List Template.Compiled) : List Declaration :=
  if templates.isEmpty then [] else .registry :: templates.map .template

/-- **The declarations of the module of a source**. -/
def declarations (html : Text) (moduleName : Str) (css : Option Text) :
    Except Template.FragmentError (List Declaration) :=
  if Document.isDocument html then
    .ok (ofClasses ((css.map Stylesheet.bindings).getD []) moduleName ++
      (Document.bindings html).map .constant)
  else
    (Template.Fragment.parse html).map fun fragment =>
      ofClasses (fragmentBindings fragment.styles css) moduleName ++ ofTemplates fragment.templates

/-- What stands between the declarations of a module. -/
def separator (html : Text) : Text :=
  if Document.isDocument html then ['\n'] else "\n\n".toList

/-- The first block of a module is its first declaration. -/
theorem map_render_ofClasses (classes : List Stylesheet.ClassBinding) (moduleName : Str) :
    (ofClasses classes moduleName).map Declaration.render = reexportBlock classes moduleName := by
  rw [ofClasses, reexportBlock]
  split <;> rfl

theorem map_render_ofTemplates (templates : List Template.Compiled) :
    (ofTemplates templates).map Declaration.render =
      (if templates.isEmpty then []
        else Template.renderRegistry :: templates.map Template.Compiled.render).map Str.ofText := by
  rw [ofTemplates]
  split
  · rfl
  · rw [List.map_cons, List.map_map, List.map_cons, List.map_map]
    rfl

/-- The constants of a document are one block, and no block if there are none. -/
theorem joined_lookups (blocks : List Str) (bindings : List Document.Binding) :
    Text.joined (Str.ofText ['\n']) (blocks ++ if (Document.renderBindings bindings).isEmpty then []
        else [Str.ofText (Document.renderBindings bindings)]) =
      Text.joined (Str.ofText ['\n']) (blocks ++
        bindings.map fun b => Str.ofText b.render) := by
  cases bindings with
  | nil => rfl
  | cons b bindings =>
    have hne : Document.renderBindings (b :: bindings) ≠ [] := by
      have hprefix := (Declaration.prefix_render_constant b).trans
        (Text.prefix_joined_append ['\n'] [b.render] (bindings.map Document.Binding.render))
      exact hprefix.ne_nil (by simp)
    obtain ⟨front, hfront⟩ := Text.exists_joined_append (Str.ofText ['\n']) blocks
    rw [if_neg (by simpa using hne), hfront (by simp), hfront (by simp), Text.joined,
      Document.renderBindings, Str.ofText_joined, List.map_map]
    rfl

theorem module_ofDocument (html marker : Text) (moduleName : Str) (css : Option Text) :
    (ofDocument html marker moduleName css).module = assemble marker
      ((ofClasses ((css.map Stylesheet.bindings).getD []) moduleName ++
        (Document.bindings html).map Declaration.constant).map Declaration.render) ['\n'] := by
  rw [List.map_append, map_render_ofClasses, List.map_map]
  simp only [ofDocument, assemble, joined_lookups]
  rfl

theorem of_ofFragment (h : ofFragment html marker moduleName css = .ok a) :
    ∃ fragment, Template.Fragment.parse html = .ok fragment ∧
      a.classModule = classModule (fragmentBindings fragment.styles css) ∧
      a.module = assemble marker
        ((ofClasses (fragmentBindings fragment.styles css) moduleName ++
          ofTemplates fragment.templates).map Declaration.render) "\n\n".toList := by
  rw [ofFragment] at h
  split at h
  · cases h
  · next fragment hparse =>
    cases h
    refine ⟨fragment, hparse, rfl, ?_⟩
    rw [List.map_append, map_render_ofClasses, map_render_ofTemplates]

/-! ### Distinct names -/

variable {own : List Declaration}

/-- **The templates of a fragment have distinct names.** -/
theorem nodup_fragmentOfElements {seen : List Text} {elements : List Markup.Node}
    {fragment : Template.Fragment} (h : Template.fragmentOfElements seen elements = .ok fragment) :
    (fragment.templates.map Template.Compiled.name).Nodup ∧
      ∀ t ∈ fragment.templates, t.name ∉ seen := by
  -- an element adds its name to those seen, so the rest keeps off it
  induction elements generalizing seen fragment with
  | nil =>
    cases h
    exact ⟨List.nodup_nil, fun t ht => absurd ht List.not_mem_nil⟩
  | cons node elements ih =>
    rw [Template.fragmentOfElements] at h
    split at h
    · split at h
      · next rest hrest =>
        cases h
        obtain ⟨hnodup, hnew⟩ := ih hrest
        exact ⟨hnodup, hnew⟩
      · cases h
    · split at h
      · cases h
      · next t ht =>
        split at h
        · cases h
        · next hseen =>
          split at h
          · next rest hrest =>
            cases h
            obtain ⟨hnodup, hnew⟩ := ih hrest
            refine ⟨?_, ?_⟩
            · rw [List.map_cons, List.nodup_cons]
              refine ⟨fun hm => ?_, hnodup⟩
              obtain ⟨other, hother, hname⟩ := List.mem_map.1 hm
              exact hnew other hother (hname ▸ List.mem_cons_self)
            · rw [List.forall_mem_cons]
              refine ⟨by simpa using hseen, fun other hother hm => ?_⟩
              exact hnew other hother (List.mem_cons_of_mem _ hm)
          · cases h

theorem nodup_templates {fragment : Template.Fragment}
    (h : Template.Fragment.parse html = .ok fragment) :
    (fragment.templates.map Template.Compiled.name).Nodup := by
  rw [Template.Fragment.parse] at h
  split at h
  · cases h
  · split at h
    · next hfragment =>
      cases h
      exact (nodup_fragmentOfElements hfragment).1
    · cases h

theorem nodup_ofTemplates {templates : List Template.Compiled}
    (h : (templates.map Template.Compiled.name).Nodup) :
    ((ofTemplates templates).map Declaration.name).Nodup ↔
      ∀ t ∈ templates, t.name ≠ Template.registryName := by
  rw [ofTemplates]
  split
  · next hempty => simp [List.isEmpty_iff.1 hempty]
  · have hnames : (templates.map Declaration.template).map Declaration.name =
        templates.map Template.Compiled.name := by
      rw [List.map_map]
      rfl
    rw [List.map_cons, List.nodup_cons, hnames, and_iff_left h]
    simp [Declaration.name]

theorem mem_ofTemplates {templates : List Template.Compiled} {t : Template.Compiled} :
    .template t ∈ ofTemplates templates ↔ t ∈ templates := by
  rw [ofTemplates]
  split
  · next hempty => simp [List.isEmpty_iff.1 hempty]
  · simp

theorem mem_ofClasses_append {d : Declaration} (h : ∀ moduleName, d ≠ .reexport moduleName) :
    d ∈ ofClasses classes moduleName ++ own ↔ d ∈ own := by
  rw [ofClasses]
  split
  · rfl
  · rw [List.singleton_append, List.mem_cons, or_iff_right (h moduleName)]

/-- **Where names from the source clash**: with the registry, and with the class constants if there
are any. -/
theorem nodup_names_iff (hown : ∀ moduleName, .reexport moduleName ∉ own)
    (h : (own.map Declaration.name).Nodup ↔
      ∀ t, .template t ∈ own → t.name ≠ Template.registryName) :
    ((ofClasses classes moduleName ++ own).map Declaration.name).Nodup ↔
      (∀ t, .template t ∈ own → t.name ≠ Template.registryName) ∧
        (classModule classes ≠ none → (∀ t, .template t ∈ own → t.name ≠ classNamespace) ∧
          ∀ b, .constant b ∈ own → b.name ≠ classNamespace) := by
  have hclash : classNamespace ∉ own.map Declaration.name ↔
      (∀ t, .template t ∈ own → t.name ≠ classNamespace) ∧
        ∀ b, .constant b ∈ own → b.name ≠ classNamespace := by
    constructor
    · intro hnot
      exact ⟨fun t ht he => hnot (List.mem_map.2 ⟨_, ht, he⟩),
        fun b hb he => hnot (List.mem_map.2 ⟨_, hb, he⟩)⟩
    -- the registry has a fixed name too, but not that one
    · rintro ⟨htemplates, hconstants⟩ hmem
      obtain ⟨d, hd, he⟩ := List.mem_map.1 hmem
      cases d with
      | reexport moduleName => exact hown moduleName hd
      | registry => exact absurd he (by decide)
      | template t => exact htemplates t hd he
      | constant b => exact hconstants b hd he
  rw [← h, ← hclash, ofClasses, classModule]
  split
  · simp
  · rw [List.singleton_append, List.map_cons, List.nodup_cons, and_comm]
    simp [Declaration.name]

/-- **When the names of a module are distinct**: no template has the name of the registry, and, if the
module passes on class constants, nothing from the source has the name that they are passed on under.
The module is made of its declarations, and each of them is written with its name. -/
theorem names_distinct_iff (h : compile html marker moduleName css = .ok a) :
    ∃ ds, declarations html moduleName css = .ok ds ∧
      a.module = assemble marker (ds.map Declaration.render) (separator html) ∧
      (∀ d ∈ ds, Str.ofText (d.keyword ++ d.name ++ [' ']) <+: d.render) ∧
      ((ds.map Declaration.name).Nodup ↔
        (∀ t, .template t ∈ ds → t.name ≠ Template.registryName) ∧
          (a.classModule ≠ none → (∀ t, .template t ∈ ds → t.name ≠ classNamespace) ∧
            ∀ b, .constant b ∈ ds → b.name ≠ classNamespace)) := by
  have htemplate (classes own) (t : Template.Compiled) :
      .template t ∈ ofClasses classes moduleName ++ own ↔ .template t ∈ own :=
    mem_ofClasses_append nofun
  have hconstant (classes own) (b : Document.Binding) :
      .constant b ∈ ofClasses classes moduleName ++ own ↔ .constant b ∈ own :=
    mem_ofClasses_append nofun
  rw [compile] at h
  rw [declarations, separator]
  split at h
  · next hdocument =>
    cases h
    rw [if_pos hdocument, if_pos hdocument]
    refine ⟨_, rfl, module_ofDocument html marker moduleName css,
      fun d _ => d.prefix_render, ?_⟩
    simp only [htemplate, hconstant]
    refine nodup_names_iff (by simp) (iff_of_true ?_ (by simp))
    rw [List.map_map]
    exact Document.nodup_names html
  · next hdocument =>
    rw [if_neg hdocument, if_neg hdocument]
    obtain ⟨fragment, hparse, hclasses, hmodule⟩ := of_ofFragment h
    refine ⟨_, congrArg (Except.map _) hparse, hmodule, fun d _ => d.prefix_render, ?_⟩
    simp only [htemplate, hconstant, hclasses]
    refine nodup_names_iff (fun moduleName hmem => ?_) ?_
    · rw [ofTemplates] at hmem
      split at hmem <;> simp at hmem
    · simp only [nodup_ofTemplates (nodup_templates hparse), mem_ofTemplates]

/-- A fragment with a stylesheet and a template. -/
def rowSource : Text := "<style>.a\x7b\x7d</style><p id='Row'></p>".toList

/-- Its template. -/
def row : Template.Compiled := ⟨"Row".toList, "HTMLElement".toList, [], "<p></p>".toList⟩

theorem names_distinct_row : ∃ a, compile rowSource "m".toList "x".toList none = .ok a ∧
    a.classModule ≠ none ∧
    declarations rowSource "x".toList none = .ok [.reexport "x".toList, .registry, .template row] ∧
    ([Declaration.reexport "x".toList, .registry, .template row].map Declaration.name).Nodup := by
  have hparse : Template.Fragment.parse rowSource = .ok ⟨[row], [".a\x7b\x7d".toList]⟩ := by
    decide +kernel
  have hclasses : fragmentBindings [".a\x7b\x7d".toList] none = [⟨['a'], ['a']⟩] := by decide +kernel
  have hdeclarations : declarations rowSource "x".toList none =
      .ok [.reexport "x".toList, .registry, .template row] := by
    rw [declarations, if_neg (by decide +kernel), hparse]
    simp only [Except.map, hclasses]
    rfl
  obtain ⟨a, ha, hmodule⟩ : ∃ a, compile rowSource "m".toList "x".toList none = .ok a ∧
      a.classModule ≠ none := by
    rw [compile, if_neg (by decide +kernel), ofFragment, hparse]
    refine ⟨_, rfl, ?_⟩
    simp only [hclasses]
    decide +kernel
  obtain ⟨ds, hds, -, -, hnodup⟩ := names_distinct_iff ha
  rw [hdeclarations] at hds
  cases hds
  refine ⟨a, ha, hmodule, hdeclarations, hnodup.2 ⟨?_, fun _ => ⟨?_, ?_⟩⟩⟩ <;>
    simp only [List.mem_cons, reduceCtorEq, List.not_mem_nil, or_false, false_or,
      Declaration.template.injEq, forall_eq, IsEmpty.forall_iff, implies_true]
  · decide
  · decide

/-- A document with an id that takes the name of the class constants. -/
def cssPage : Text := "<!DOCTYPE html><p id=\"css\"></p>".toList

/-- A fragment with a template that takes the name of the registry. -/
def registrySource : Text := "<p id='_fragments'></p>".toList

/-- **Not all modules have distinct names.** -/
theorem names_not_distinct :
    (∃ a ds, compile cssPage "m".toList "x".toList (some ".a\x7b\x7d".toList) = .ok a ∧
      declarations cssPage "x".toList (some ".a\x7b\x7d".toList) = .ok ds ∧
      ds.map Declaration.name = [classNamespace, classNamespace]) ∧
    ∃ a ds, compile registrySource "m".toList "x".toList none = .ok a ∧
      declarations registrySource "x".toList none = .ok ds ∧
      ds.map Declaration.name = [Template.registryName, Template.registryName] := by
  refine ⟨?_, ?_⟩
  · have hdocument : Document.isDocument cssPage = true := by decide +kernel
    refine ⟨_, _, if_pos hdocument, if_pos hdocument, ?_⟩
    decide +kernel
  · have hfragment : ¬ Document.isDocument registrySource = true := by decide +kernel
    have hparse : Template.Fragment.parse registrySource =
        .ok ⟨[⟨"_fragments".toList, "HTMLElement".toList, [], "<p></p>".toList⟩], []⟩ := by
      decide +kernel
    rw [compile, declarations, if_neg hfragment, if_neg hfragment, ofFragment, hparse]
    exact ⟨_, _, rfl, rfl, by decide +kernel⟩

end GeneratedModule
end TemplateBindings
