import TemplateBindings.Proofs.GeneratedModule.Names
import TemplateBindings.Proofs.Stylesheet.Merged

/-!
# The module of class constants

A fragment has stylesheets inside and may have one beside it. Its module of class constants declares, a
line each, the class names of all of them whose camel case no earlier one has, and there is no such
module just when there are no class names at all
(`TemplateBindings.GeneratedModule.classModule_of_ofFragment`). The lines are read back by
`TemplateBindings.Stylesheet.ClassBinding.read?`, so that the statement is about the text.
-/

namespace TemplateBindings

namespace Stylesheet

open Identifier

variable {b : ClassBinding}

/-- **The constant that a line declares**: a name up to a blank, and a literal up to a quotation mark
that ends the line with a semicolon. -/
def ClassBinding.read? (line : Text) : Option ClassBinding := do
  let declaration ← Text.after? "export const ".toList line
  let (generated, value) ← Text.cutAt ' ' declaration
  let literal ← Text.after? "= \"".toList value
  let (source, ending) ← Text.cutAt '"' literal
  if ending = [';'] then some ⟨source, generated⟩ else none

/-- **A declaration is read back.** -/
theorem ClassBinding.read?_render (hgenerated : ' ' ∉ b.generated) (hsource : '"' ∉ b.source) :
    read? b.render = some b := by
  have hblank : " = \"".toList = ' ' :: "= \"".toList := rfl
  have hquote : b.source ++ ['"', ';'] = b.source ++ '"' :: [';'] := rfl
  rw [ClassBinding.render_eq, List.append_assoc, List.append_assoc, hblank, List.cons_append, hquote]
  simp only [read?, Text.after?_append, Text.cutAt_append hgenerated, Text.cutAt_append hsource,
    Option.bind_eq_bind, Option.bind_some, if_pos]

end Stylesheet

namespace GeneratedModule

open Stylesheet Identifier

variable {html marker : Text} {moduleName : Str} {css : Option Text} {a : Artifacts}
  {styles : List Text} {name : Text}

/-- **The class names of a fragment**: those of its stylesheets in their order, then those of the
stylesheet beside it. -/
def scannedNames (styles : List Text) (css : Option Text) : List Text :=
  (styles ++ css.toList).flatMap classNames

theorem fragmentBindings_eq (styles : List Text) (css : Option Text) :
    fragmentBindings styles css = merge [(scannedNames styles css).map ClassBinding.ofName] :=
  merge_bindings (styles ++ css.toList)

theorem isNameChar_of_mem_scannedNames (h : name ∈ scannedNames styles css) :
    ∀ c ∈ name, isNameChar c = true := by
  obtain ⟨sheet, -, hname⟩ := List.mem_flatMap.1 h
  exact fun c hc => isNameChar_of_mem_classNames hname hc

/-- The lines of a module of class constants declare its bindings, one after the other. -/
theorem lines_classModule {names : List Text} {text : Text}
    (hnames : ∀ name ∈ names, ∀ c ∈ name, isNameChar c = true)
    (h : classModule (names.map ClassBinding.ofName) = some text) :
    ∃ rows, Text.lines text = rows ++ [[]] ∧
      rows.map ClassBinding.read? = names.map fun name => some ⟨name, camel name⟩ := by
  have hclear {c : Char} (hc : isNameChar c = false) (hc' : isInner c = false) {name : Text}
      (hname : name ∈ names) : c ∉ name ∧ c ∉ camel name := by
    refine ⟨fun hm => ?_, fun hm => ?_⟩
    · rw [hnames name hname c hm] at hc
      cases hc
    · rw [isInner_of_mem_camel (hnames name hname) hm] at hc'
      cases hc'
  obtain ⟨hne, htext⟩ := Option.ite_none_left_eq_some.1 h
  cases htext
  refine ⟨(names.map ClassBinding.ofName).map ClassBinding.render, ?_, ?_⟩
  · refine Text.pieces_joined_concat (by simpa using hne) fun line hline => ?_
    rw [List.map_map] at hline
    obtain ⟨name, hname, rfl⟩ := List.mem_map.1 hline
    have hnewline := hclear (c := '\n') (by decide) (by decide) hname
    exact newline_not_mem_render hnewline.1 hnewline.2
  · rw [List.map_map, List.map_map]
    refine List.map_congr_left fun name hname => ?_
    exact ClassBinding.read?_render (hclear (by decide) (by decide) hname).2
      (hclear (by decide) (by decide) hname).1

/-- What follows the marker of a module. -/
def bodyOf (blocks : List Str) (separator : Text) : Str :=
  if Text.joined (separator : Str) blocks = [] then []
  else Text.joined (separator : Str) blocks ++ [.char '\n']

theorem assemble_eq (marker : Text) (blocks : List Str) (separator : Text) :
    assemble marker blocks separator =
      Str.ofText (markerLine marker ++ ['\n']) ++ bodyOf blocks separator := by
  rw [assemble, bodyOf]
  simp only [List.isEmpty_iff]
  split
  · rw [List.append_nil]
  · rw [List.append_assoc]
    rfl

/-- The first declaration of a module stands right behind its marker. -/
theorem prefix_bodyOf {block : Str} (hne : block ≠ []) (blocks : List Str) (separator : Text) :
    block <+: bodyOf (block :: blocks) separator := by
  have hfront : block <+: Text.joined (separator : Str) (block :: blocks) :=
    Text.prefix_joined_append (separator : Str) [block] blocks
  rw [bodyOf, if_neg (hfront.ne_nil hne)]
  exact hfront.trans (List.prefix_append _ _)

/-- **A module with class constants, and no other**, begins with passing them on. -/
theorem prefix_reexportLine_iff (classes : List ClassBinding) (templates : List Template.Compiled)
    (moduleName : Str) :
    reexportLine moduleName <+: bodyOf ((ofClasses classes moduleName ++
      ofTemplates templates).map Declaration.render) "\n\n".toList ↔ classes ≠ [] := by
  have hopens : Str.ofText ['e'] <+: reexportLine moduleName :=
    List.IsPrefix.trans ⟨_, rfl⟩ (Declaration.prefix_reexportLine moduleName)
  have hne : reexportLine moduleName ≠ [] := hopens.ne_nil (by simp)
  rw [ofClasses]
  split
  · next hclasses =>
    refine iff_of_false (fun hprefix => ?_) (by simpa using hclasses)
    -- nothing, or the registry, is where the line would have to be
    have hfirst := hopens.trans hprefix
    rw [List.nil_append, ofTemplates] at hfirst
    split at hfirst
    · exact absurd hfirst (by decide)
    · have hregistry : Str.ofText ['c'] <+: Str.ofText Template.renderRegistry := by decide
      obtain ⟨rest, hrest⟩ := hfirst
      obtain ⟨rest', hrest'⟩ := hregistry.trans (prefix_bodyOf (by decide)
        ((templates.map Declaration.template).map Declaration.render) "\n\n".toList)
      cases hrest.trans hrest'.symm
  · next hclasses =>
    exact iff_of_true (prefix_bodyOf hne _ _) (by simpa using hclasses)

/-- **The module of class constants of a fragment.** Let there be the class names of its stylesheets in
their order and of the stylesheet beside it. There is such a module unless there are none, which is
just when the module of the fragment does not begin with passing on the class constants; and its lines
declare, in their order, the class names whose camel case no earlier one has. Merging the stylesheets
apart and then together is merging once; the class names kept are distinct and so are their constants,
and no camel case is lost. -/
theorem classModule_of_ofFragment (h : ofFragment html marker moduleName css = .ok a) :
    ∃ fragment names kept body, Template.Fragment.parse html = .ok fragment ∧
      names = scannedNames fragment.styles css ∧ kept = firstsBy camel names ∧
      a.module = Str.ofText (markerLine marker ++ ['\n']) ++ body ∧
      (a.classModule = none ↔ names = []) ∧
      (names = [] ↔ ¬ reexportLine moduleName <+: body) ∧
      (∀ text, a.classModule = some text → ∃ rows, Text.lines text = rows ++ [[]] ∧
        rows.map ClassBinding.read? = kept.map fun name => some ⟨name, camel name⟩) ∧
      fragmentBindings fragment.styles css = merge [names.map ClassBinding.ofName] ∧
      kept.Nodup ∧ (kept.map camel).Nodup ∧ ∀ name ∈ names, camel name ∈ kept.map camel := by
  obtain ⟨fragment, hparse, hclasses, hmodule⟩ := of_ofFragment h
  have honce := fragmentBindings_eq fragment.styles css
  have hbindings := honce.trans (merge_ofName _)
  have hnone : fragmentBindings fragment.styles css = [] ↔ scannedNames fragment.styles css = [] := by
    rw [hbindings, List.map_eq_nil_iff, firstsBy_eq_nil_iff]
  rw [assemble_eq] at hmodule
  refine ⟨fragment, _, _, _, hparse, rfl, rfl, hmodule, ?_, ?_, fun text htext => ?_, honce,
    (nodup_map_firstsBy camel _).of_map, nodup_map_firstsBy camel _,
    fun name hname => mem_map_firstsBy.2 (List.mem_map_of_mem hname)⟩
  · rw [hclasses, classModule, ← hnone]
    simp
  · rw [prefix_reexportLine_iff, Ne, Decidable.not_not, hnone]
  · rw [hclasses, hbindings] at htext
    exact lines_classModule
      (fun name hname => isNameChar_of_mem_scannedNames (mem_of_mem_firstsBy hname)) htext

/-- A fragment with two stylesheets, of which the second repeats a constant of the first. -/
def sheetsSource : Text :=
  "<style>.card-row\x7b\x7d .b\x7b\x7d</style><style>.Card-row\x7b\x7d</style><p id='Row'></p>".toList

/-- A stylesheet beside it, which repeats the constant once more. -/
def besideSheet : Text := ".card--row\x7b\x7d .c\x7b\x7d".toList

theorem classModule_sheets : ∃ a rows,
    ofFragment sheetsSource "m".toList "x".toList (some besideSheet) = .ok a ∧
      a.classModule.map Text.lines = some (rows ++ [[]]) ∧
      rows.map ClassBinding.read? = [some ⟨"b".toList, "b".toList⟩,
        some ⟨"card-row".toList, "cardRow".toList⟩, some ⟨"c".toList, "c".toList⟩] := by
  have hparse : Template.Fragment.parse sheetsSource = .ok ⟨[row],
      [".card-row\x7b\x7d .b\x7b\x7d".toList, ".Card-row\x7b\x7d".toList]⟩ := by
    decide +kernel
  have hnames : scannedNames
      [".card-row\x7b\x7d .b\x7b\x7d".toList, ".Card-row\x7b\x7d".toList] (some besideSheet) =
      ["b".toList, "card-row".toList, "Card-row".toList, "c".toList, "card--row".toList] := by
    decide +kernel
  obtain ⟨a, ha⟩ : ∃ a,
      ofFragment sheetsSource "m".toList "x".toList (some besideSheet) = .ok a := by
    rw [ofFragment, hparse]
    exact ⟨_, rfl⟩
  obtain ⟨fragment, names, kept, body, hfragment, rfl, rfl, -, hnone, -, hlines, -⟩ :=
    classModule_of_ofFragment ha
  cases hparse.symm.trans hfragment
  rw [hnames] at hnone hlines
  obtain ⟨text, htext⟩ := Option.ne_none_iff_exists'.1 (mt hnone.1 (List.cons_ne_nil _ _))
  obtain ⟨rows, hrows, hread⟩ := hlines text htext
  refine ⟨a, rows, ha, ?_, ?_⟩
  · rw [htext, Option.map_some, hrows]
  · rw [hread]
    decide +kernel

end GeneratedModule
end TemplateBindings
