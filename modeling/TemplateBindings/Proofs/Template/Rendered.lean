import TemplateBindings.Template.Render
import TemplateBindings.Text.Lines
import TemplateBindings.Proofs.Identifier.Camel
import TemplateBindings.Proofs.Script.Template
import TemplateBindings.Proofs.Text.Integer

/-!
# A generated class read back

Everything that a template has can be found again in the class that is generated for it
(`TemplateBindings.Template.render_decodes`). The markup is the hard part, since it may have any lines,
quotes and code in it: it is what the template literal denotes that stands behind the first
`tmp.innerHTML = ` of the class, and that literal ends before the lines that the class has behind it.
So the lines in front of the literal are those of the class, and so are those behind it, and the name,
the types and the paths are read from these.
-/

namespace TemplateBindings
namespace Template

open Script Identifier

variable {c : Char} {name type : Text} {t u : Compiled} {ref : Ref} {path : List Int}

/-! ### Which templates -/

/-- A name of a template or ref, and the type of its element. -/
structure IsField (name type : Text) : Prop where
  /-- The name is an identifier. -/
  name : isIdentifier name = true
  /-- The type is that of a tag. -/
  type : ∃ tag, type = ElementType.ofTag tag

/-- **A template that can be read back**: its names are identifiers, its types are those of tags, the
indexes in its paths count from zero, and its markup has line feeds for line ends. -/
structure IsReadable (t : Compiled) : Prop where
  /-- The name of the class and the type of the root. -/
  root : IsField t.name t.type
  /-- The names and the types of the refs. -/
  refs : ∀ ref ∈ t.refs, IsField ref.name ref.type
  /-- The paths of the refs. -/
  paths : ∀ ref ∈ t.refs, ∀ index ∈ ref.path, 0 ≤ index
  /-- The markup. -/
  html : '\r' ∉ t.html

/-! ### Reading -/

/-- What stands in front of the markup of a class. -/
def literalOpening : Text := "tmp.innerHTML = ".toList

/-- The indexes of an expression that leads to an element: the numbers behind its brackets. -/
def readPath (steps : Text) : List Int :=
  (Text.pieces '[' steps).tail.map fun piece => (Text.decimalValue (piece.takeWhile (· ≠ ']')) : Int)

/-- The ref that a line of a class assigns, if it assigns one. -/
def readRef? (line : Text) : Option Ref := do
  let assignment ← Text.after? "    this.".toList line
  let (name, value) ← Text.cutAt ' ' assignment
  let behindBase ← Text.after? "= this.base".toList value
  let (steps, cast) ← Text.cutAt ' ' behindBase
  let typed ← Text.after? "as ".toList cast
  let (type, _) ← Text.cutAt ';' typed
  some ⟨name, type, readPath steps⟩

/-- The name of a class and the type of its root, from what stands in front of the literal. -/
def readHead? (head : Text) : Option (Text × Text) := do
  let declaration ← Text.after? "export class ".toList head
  let (name, body) ← Text.cutAt ' ' declaration
  let typed ← Text.after? "\x7b\n  base: ".toList body
  let (type, _) ← Text.cutAt ';' typed
  some (name, type)

/-- **The template of a generated class.** -/
def Compiled.read? (text : Text) : Option Compiled := do
  let (head, value) ← Text.cutAtText literalOpening text
  let literal ← Text.after? ['\x60'] value
  let (html, behind) ← readTemplate? literal
  let (name, type) ← readHead? head
  some ⟨name, type, (Text.lines behind).filterMap readRef?, html⟩

/-! ### The lines of a class -/

/-- The lines in front of the one with the markup. -/
def headLines (t : Compiled) : List Text :=
  ["export class ".toList ++ t.name ++ " \x7b".toList, renderField baseField t.type]
    ++ t.refs.map (fun ref => renderField ref.name ref.type)
    ++ [[],
      "  constructor() \x7b".toList,
      "    let fragment = ".toList ++ registryName ++ ".get(\"".toList ++ t.name ++ "\");".toList,
      "    if (!fragment) \x7b".toList,
      "      const tmp = document.createElement(\"div\");".toList]

/-- The lines behind the literal. The first is what is left of the line that it ends on. -/
def tailLines (t : Compiled) : List Text :=
  [[';'],
    "      fragment = tmp.children[0]! as HTMLElement;".toList,
    "      ".toList ++ registryName ++ ".set(\"".toList ++ t.name ++ "\", fragment);".toList,
    "    \x7d".toList,
    "    this.".toList ++ baseField ++ " = fragment.cloneNode(true) as ".toList ++ t.type
      ++ ";".toList]
    ++ t.refs.map renderAssignment
    ++ ["  \x7d".toList, "\x7d".toList]

/-- **A class around its literal.** -/
theorem render_eq (t : Compiled) : t.render =
    (headLines t).flatMap (· ++ ['\n']) ++ ("      ".toList ++ literalOpening ++ '\x60' ::
      (escapeLiteral t.html ++ '\x60' :: Text.joined ['\n'] (tailLines t))) := by
  have hopening : "      tmp.innerHTML = ".toList = "      ".toList ++ literalOpening := rfl
  have hlines : classLines t = headLines t ++
      ("      ".toList ++ literalOpening ++ ('\x60' :: (escapeLiteral t.html ++ ['\x60'])) ++ [';']) ::
        (tailLines t).tail := by
    rw [classLines, headLines, tailLines, hopening]
    simp only [List.append_assoc, List.cons_append, List.nil_append, List.tail_cons]
  have htail : [';'] :: (tailLines t).tail = tailLines t := rfl
  rw [Compiled.render, hlines, Text.joined_append _ _ (List.cons_ne_nil _ _),
    Text.joined_append_cons, htail]
  simp only [List.append_assoc, List.cons_append, List.nil_append]

/-! ### Characters -/

theorem isInner_of_mem_ofTag {tag : Text} (h : c ∈ ElementType.ofTag tag) : isInner c = true := by
  have hlisted : ElementType.byTag.all (fun entry => entry.2.all isInner) = true := by decide
  have hgeneric : ElementType.generic.all isInner = true := by decide
  rw [ElementType.ofTag] at h
  cases hlookup : ElementType.byTag.lookup tag with
  | none =>
    rw [hlookup] at h
    exact List.all_eq_true.1 hgeneric c h
  | some type =>
    rw [hlookup] at h
    obtain ⟨before, behind, hmem, -⟩ := List.lookup_eq_some_iff.1 hlookup
    have htype := List.all_eq_true.1 hlisted (tag, type)
      (hmem ▸ List.mem_append_right _ List.mem_cons_self)
    exact List.all_eq_true.1 htype c h

/-- The name and the type of a field have no blanks and no signs. -/
theorem IsField.not_mem (h : IsField name type) (hc : isInner c = false) : c ∉ name ∧ c ∉ type := by
  obtain ⟨tag, htag⟩ := h.type
  refine ⟨fun hm => ?_, fun hm => ?_⟩
  · rw [List.all_eq_true.1 (isIdentifier_iff.1 h.name).1 c hm] at hc
    cases hc
  · rw [isInner_of_mem_ofTag (htag ▸ hm)] at hc
    cases hc

/-! ### In front of the literal -/

theorem not_infix_of_not_mem {line : Text} (h : '.' ∉ line) : ¬ literalOpening <:+: line :=
  fun hin => h (hin.subset (by decide))

/-- Where nothing is assigned behind the first dot, the literal does not open. -/
theorem not_infix_of_dot {line before behind : Text} (hline : line = before ++ '.' :: behind)
    (hdot : '.' ∉ before) (hassign : '=' ∉ behind) : ¬ literalOpening <:+: line := by
  have hopening : literalOpening = "tmp".toList ++ '.' :: ("innerHTML ".toList ++ '=' :: [' ']) := rfl
  rw [hline, hopening]
  exact Text.not_infix_of_cutAt (Text.cutAt_append hdot behind) hassign _ _ _

theorem dot_not_mem_renderField (h : IsField name type) : '.' ∉ renderField name type := by
  have hdot := h.not_mem (c := '.') (by decide)
  unfold renderField
  simp only [List.mem_append, hdot, or_false, not_or]
  decide

/-- The registry is reached by a dot too, but nothing is assigned behind it. -/
theorem not_infix_lookup (h : '=' ∉ name) : ¬ literalOpening <:+: "    let fragment = ".toList ++
    registryName ++ ".get(\"".toList ++ name ++ "\");".toList := by
  have hget : ".get(\"".toList = '.' :: "get(\"".toList := rfl
  have hassign : '=' ∉ "get(\"".toList ++ (name ++ "\");".toList) := by
    simp only [List.mem_append, h, false_or, not_or]
    decide
  rw [hget, List.append_assoc, List.append_assoc, List.cons_append]
  exact not_infix_of_dot rfl (by decide) hassign

theorem not_infix_create :
    ¬ literalOpening <:+: "      const tmp = document.createElement(\"div\");".toList := by
  have hline : "      const tmp = document.createElement(\"div\");".toList =
      "      const tmp = document".toList ++ '.' :: "createElement(\"div\");".toList := by simp
  exact not_infix_of_dot hline (by decide) (by decide)

/-- **The opening of the literal does not occur in an earlier line.** -/
theorem not_infix_headLines (h : IsReadable t) :
    ∀ line ∈ headLines t, ¬ literalOpening <:+: line := by
  have hclass : '.' ∉ "export class ".toList ++ t.name ++ " \x7b".toList := by
    simp only [List.mem_append, (h.root.not_mem (c := '.') (by decide)).1, or_false, not_or]
    decide
  have hbase : IsField baseField t.type := ⟨by decide, h.root.type⟩
  have hrefs : ∀ ref ∈ t.refs, ¬ literalOpening <:+: renderField ref.name ref.type :=
    fun ref hm => not_infix_of_not_mem (dot_not_mem_renderField (h.refs ref hm))
  simp only [headLines, List.forall_mem_append, List.forall_mem_cons, List.forall_mem_map]
  exact ⟨⟨⟨not_infix_of_not_mem hclass, not_infix_of_not_mem (dot_not_mem_renderField hbase), nofun⟩,
    hrefs⟩, not_infix_of_not_mem (by decide), not_infix_of_not_mem (by decide),
    not_infix_lookup (h.root.not_mem (by decide)).1, not_infix_of_not_mem (by decide),
    not_infix_create, nofun⟩

/-- **Where the literal of a class stands.** -/
theorem cutAtText_render (h : IsReadable t) : Text.cutAtText literalOpening t.render =
    some ((headLines t).flatMap (· ++ ['\n']) ++ "      ".toList,
      '\x60' :: (escapeLiteral t.html ++ '\x60' :: Text.joined ['\n'] (tailLines t))) := by
  rw [render_eq, Text.cutAtText_lines (by decide) (not_infix_headLines h)]
  rfl

theorem readHead?_headLines (h : IsField t.name t.type) :
    readHead? ((headLines t).flatMap (· ++ ['\n']) ++ "      ".toList) = some (t.name, t.type) := by
  have hname : ' ' ∉ t.name := (h.not_mem (by decide)).1
  have htype : ';' ∉ t.type := (h.not_mem (by decide)).2
  obtain ⟨behind, hhead⟩ : ∃ behind, (headLines t).flatMap (· ++ ['\n']) ++ "      ".toList =
      "export class ".toList ++ (t.name ++ ' ' :: ("\x7b\n  base: ".toList ++
        (t.type ++ ';' :: behind))) := by
    have hbase : renderField baseField t.type = "  base: ".toList ++ (t.type ++ [';']) := by
      unfold renderField
      simp only [List.append_assoc]
      rfl
    rw [headLines, hbase]
    simp only [List.cons_append, List.nil_append, List.flatMap_cons, List.append_assoc]
    exact ⟨_, rfl⟩
  simp only [readHead?, hhead, Text.after?_append, Text.cutAt_append hname,
    Text.cutAt_append htype, Option.bind_eq_bind, Option.bind_some]

/-! ### Behind the literal -/

/-- What an expression that leads to an element has behind the root. -/
def steps (path : List Int) : Text :=
  path.flatMap fun index => ".children[".toList ++ Text.ofInt index ++ "]!".toList

theorem readPath_cons (n : Nat) (s : Text) :
    readPath (".children[".toList ++ Text.ofNat n ++ "]!".toList ++ s) = (n : Int) :: readPath s := by
  have hdigit {c : Char} (hc : c.isDigit = false) : c ∉ Text.ofNat n := fun hm => by
    rw [Text.isDigit_of_mem_ofNat hm] at hc
    cases hc
  have hopen : '[' ∉ Text.ofNat n ++ "]!".toList := by
    rw [List.mem_append, not_or]
    exact ⟨hdigit (by decide), by decide⟩
  obtain ⟨first, others, hpieces⟩ := List.exists_cons_of_ne_nil (Text.pieces_ne_nil '[' s)
  have hstep : ".children[".toList ++ Text.ofNat n ++ "]!".toList ++ s =
      ".children".toList ++ '[' :: (Text.ofNat n ++ "]!".toList ++ s) := by
    simp only [List.append_assoc]
    rfl
  have hnumber :
      (Text.ofNat n ++ "]!".toList ++ first).takeWhile (· ≠ ']') = Text.ofNat n := by
    rw [List.append_assoc, List.takeWhile_append_of_pos fun c hc => ?_]
    · exact List.append_nil _
    · have hne : c ≠ ']' := fun he => hdigit (by decide) (he ▸ hc)
      simpa using hne
  rw [readPath, readPath, hstep, Text.pieces_append (by decide),
    Text.pieces_append_of_not_mem hopen, hpieces, List.modifyHead_cons, List.tail_cons,
    List.map_cons, hnumber, Text.decimalValue_ofNat, List.tail_cons]

/-- **The steps of a path are read back.** -/
theorem readPath_steps (h : ∀ index ∈ path, 0 ≤ index) : readPath (steps path) = path := by
  induction path with
  | nil => rfl
  | cons index path ih =>
    rw [List.forall_mem_cons] at h
    obtain ⟨n, rfl⟩ := Int.eq_ofNat_of_zero_le h.1
    have hstep : steps ((n : Int) :: path) =
        ".children[".toList ++ Text.ofNat n ++ "]!".toList ++ steps path := rfl
    rw [hstep, readPath_cons, ih h.2]

theorem not_mem_steps (h : ∀ index ∈ path, 0 ≤ index) (hdigit : c.isDigit = false)
    (hfixed : c ∉ ".children[]!".toList) : c ∉ steps path := by
  intro hm
  obtain ⟨index, hindex, hm⟩ := List.mem_flatMap.1 hm
  obtain ⟨n, rfl⟩ := Int.eq_ofNat_of_zero_le (h index hindex)
  rw [List.mem_append, List.mem_append] at hm
  rcases hm with (hm | hm) | hm
  · exact hfixed (List.mem_append_left "]!".toList hm)
  · rw [Text.isDigit_of_mem_ofNat hm] at hdigit
    cases hdigit
  · exact hfixed (List.mem_append_right ".children[".toList hm)

/-- An assignment, cut where it is read. -/
theorem renderAssignment_eq (ref : Ref) : renderAssignment ref = "    this.".toList ++
    (ref.name ++ ' ' :: ("= this.base".toList ++ (steps ref.path ++ ' ' :: ("as ".toList ++
      (ref.type ++ [';']))))) := by
  unfold renderAssignment accessor
  simp only [List.append_assoc]
  rfl

/-- **The assignment of a ref is read back.** -/
theorem readRef?_renderAssignment (hfield : IsField ref.name ref.type)
    (hpath : ∀ index ∈ ref.path, 0 ≤ index) : readRef? (renderAssignment ref) = some ref := by
  have hname : ' ' ∉ ref.name := (hfield.not_mem (by decide)).1
  have htype : ';' ∉ ref.type := (hfield.not_mem (by decide)).2
  have hsteps : ' ' ∉ steps ref.path := not_mem_steps hpath (by decide) (by decide)
  simp only [readRef?, renderAssignment_eq, Text.after?_append, Text.cutAt_append hname,
    Text.cutAt_append hsteps, Text.cutAt_append htype, readPath_steps hpath, Option.bind_eq_bind,
    Option.bind_some]

theorem filterMap_readRef?_map {refs : List Ref}
    (h : ∀ ref ∈ refs, readRef? (renderAssignment ref) = some ref) :
    (refs.map renderAssignment).filterMap readRef? = refs := by
  induction refs with
  | nil => rfl
  | cons ref refs ih =>
    rw [List.forall_mem_cons] at h
    rw [List.map_cons, List.filterMap_cons_some h.1, ih h.2]

/-- **The refs are those of the assignments**: no other line behind the literal reads like one. -/
theorem filterMap_readRef?_tailLines (h : IsReadable t) :
    (tailLines t).filterMap readRef? = t.refs := by
  have hset : readRef? ("      ".toList ++ registryName ++ ".set(\"".toList ++ t.name ++
      "\", fragment);".toList) = none := by
    simp only [List.append_assoc]
    rfl
  have hbase : readRef? ("    this.".toList ++ baseField ++
      " = fragment.cloneNode(true) as ".toList ++ t.type ++ ";".toList) = none := by
    simp only [List.append_assoc]
    rfl
  have hrefs : (t.refs.map renderAssignment).filterMap readRef? = t.refs :=
    filterMap_readRef?_map fun ref hm => readRef?_renderAssignment (h.refs ref hm) (h.paths ref hm)
  have hopening : readRef? [';'] = none ∧
      readRef? "      fragment = tmp.children[0]! as HTMLElement;".toList = none ∧
      readRef? "    \x7d".toList = none := ⟨rfl, rfl, rfl⟩
  have hending : readRef? "  \x7d".toList = none ∧ readRef? "\x7d".toList = none := ⟨rfl, rfl⟩
  rw [tailLines, List.filterMap_append, List.filterMap_append, hrefs]
  simp only [List.filterMap_cons, hopening, hset, hbase, hending, List.filterMap_nil,
    List.nil_append, List.append_nil]

/-- The lines behind the literal are cut as they were put together. -/
theorem lines_tailLines (h : IsReadable t) :
    Text.lines (Text.joined ['\n'] (tailLines t)) = tailLines t := by
  have hfield {name type : Text} (hfield : IsField name type) : '\n' ∉ name ∧ '\n' ∉ type :=
    hfield.not_mem (by decide)
  have hset : '\n' ∉ "      ".toList ++ registryName ++ ".set(\"".toList ++ t.name ++
      "\", fragment);".toList := by
    simp only [List.mem_append, (hfield h.root).1, or_false, not_or]
    decide
  have hbase : '\n' ∉ "    this.".toList ++ baseField ++
      " = fragment.cloneNode(true) as ".toList ++ t.type ++ ";".toList := by
    simp only [List.mem_append, (hfield h.root).2, or_false, not_or]
    decide
  have hrefs : ∀ ref ∈ t.refs, '\n' ∉ renderAssignment ref := fun ref hm => by
    have hsteps : '\n' ∉ steps ref.path := not_mem_steps (h.paths ref hm) (by decide) (by decide)
    rw [renderAssignment_eq]
    simp only [List.mem_append, List.mem_cons, hfield (h.refs ref hm), hsteps, false_or, not_or]
    decide
  refine Text.pieces_joined (by simp [tailLines]) ?_
  simp only [tailLines, List.forall_mem_append, List.forall_mem_cons, List.forall_mem_map]
  exact ⟨⟨⟨by decide, by decide, hset, by decide, hbase, nofun⟩, hrefs⟩, by decide, by decide, nofun⟩

/-- **A class is read back** to its template. -/
theorem read?_render (h : IsReadable t) : Compiled.read? t.render = some t := by
  have hvalue (s : Text) : Text.after? ['\x60'] ('\x60' :: s) = some s := Text.after?_append ['\x60'] s
  simp only [Compiled.read?, cutAtText_render h, hvalue, readTemplate?_escapeLiteral h.html,
    readHead?_headLines h.root, lines_tailLines h, filterMap_readRef?_tailLines h,
    Option.bind_eq_bind, Option.bind_some]

/-- **A rendered class decodes back to its template.** What stands behind its first
`tmp.innerHTML = ` is a template literal; it ends at its first backtick without a backslash, has no
interpolation, and denotes the markup. The whole template is read back from the class, and so no other
template has the same class. -/
theorem render_decodes (h : IsReadable t) :
    (∃ before literal behind,
      Text.cutAtText literalOpening t.render = some (before, '\x60' :: literal) ∧
        readTemplate? literal = some (t.html, ';' :: behind)) ∧
      Compiled.read? t.render = some t ∧ ∀ u, IsReadable u → u.render = t.render → u = t := by
  obtain ⟨behind, hbehind⟩ : ∃ behind, Text.joined ['\n'] (tailLines t) = ';' :: behind := ⟨_, rfl⟩
  refine ⟨⟨_, _, behind, cutAtText_render h, ?_⟩, read?_render h, fun u hu hrender => ?_⟩
  · rw [hbehind]
    exact readTemplate?_escapeLiteral h.html _
  · have hread := read?_render hu
    rw [hrender, read?_render h] at hread
    exact (Option.some.inj hread).symm

/-- A template whose markup has everything in it that a literal could trip over. -/
def trickyTemplate : Compiled where
  name := "Price$".toList
  type := "HTMLButtonElement".toList
  refs := [⟨"cost".toList, "HTMLElement".toList, [0, 12]⟩,
    ⟨"base_".toList, "HTMLAnchorElement".toList, [3]⟩]
  html := "<p>\\\x60$\x7bcost\x7d\\$\x7b $$\x7b\x7d\n      tmp.innerHTML = \x60\x60;\n\x7d</p>".toList

theorem render_decodes_tricky : IsReadable trickyTemplate ∧
    Compiled.read? trickyTemplate.render = some trickyTemplate ∧
    ∃ before literal behind,
      Text.cutAtText literalOpening trickyTemplate.render = some (before, '\x60' :: literal) ∧
        readTemplate? literal = some (trickyTemplate.html, ';' :: behind) := by
  have hreadable : IsReadable trickyTemplate :=
    { root := ⟨by decide, "BUTTON".toList, by decide⟩
      refs := List.forall_mem_cons.2 ⟨⟨by decide, "P".toList, by decide⟩,
        List.forall_mem_cons.2 ⟨⟨by decide, "A".toList, by decide⟩, nofun⟩⟩
      paths := by decide
      html := by decide }
  obtain ⟨hliteral, hread, -⟩ := render_decodes hreadable
  exact ⟨hreadable, hread, hliteral⟩

end Template
end TemplateBindings
