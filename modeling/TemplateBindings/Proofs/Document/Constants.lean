import TemplateBindings.Proofs.Document.Bindings
import TemplateBindings.Proofs.Identifier.Camel
import TemplateBindings.Proofs.Script.Literal

/-!
# When the constant of an id is well formed

The id of an element may be any text without a double quote. It is written between quotes as it is,
and the name of its constant is made by camel case, which mends hyphens only. So a declaration may be
broken in three ways, and each of them can be read off the id
(`TemplateBindings.Document.wellFormed_iff`): what the name needs is the most, so that a declaration
whose name is an identifier stands on one line and looks up its id.
-/

namespace TemplateBindings
namespace Document

open Script Identifier

variable {c d : Char} {id s html : Text} {b : Binding}

/-! ### Lines -/

/-- No case mapping makes the end of a line. -/
theorem eq_of_mem_form {capital : Bool} (hc : c ∈ lineTerminators) (h : c ∈ form capital d) :
    c = d := by
  have hcode : c.toNat ∈ lineTerminators.map Char.toNat := List.mem_map_of_mem hc
  by_cases hd : d.toNat < 128
  · have hnone : ∀ c ∈ lineTerminators, Text.isAsciiLetter c = false :=
      Text.forall_mem_of_all (by decide)
    rcases form_ascii capital hd with hform | ⟨-, e, hform, hletter⟩ <;> rw [hform] at h
    · exact List.mem_singleton.1 h
    · rw [← List.mem_singleton.1 h, hnone c hc] at hletter
      cases hletter
  · cases capital with
    | false =>
      rw [form, if_neg Bool.false_ne_true, Text.lowerChar, if_neg hd] at h
      exact Text.eq_of_mem_mapByTables (by decide) (by decide +kernel) (by decide +kernel) hcode h
    | true =>
      rw [form, if_pos rfl, Text.upperChar, if_neg hd] at h
      exact Text.eq_of_mem_mapByTables (by decide) (by decide +kernel) (by decide +kernel) hcode h

/-- The name of a constant has no line end that its id has not. -/
theorem mem_of_mem_constantName (hc : c ∈ lineTerminators) (h : c ∈ constantName id) : c ∈ id := by
  rw [constantName] at h
  split at h
  · exact h
  · rcases of_mem_camel h with rfl | rfl | ⟨d, hd, capital, h⟩
    · exact absurd hc (by decide)
    · exact absurd hc (by decide)
    · exact eq_of_mem_form hc h ▸ hd

/-- The types of elements have no line ends. -/
theorem not_mem_ofTag (hc : c ∈ lineTerminators) (tag : Text) : c ∉ ElementType.ofTag tag := by
  have htypes : ∀ type ∈ ElementType.generic :: ElementType.byTag.map Prod.snd,
      lineTerminators.all (fun c => c ∉ type) = true := by decide +kernel
  refine Text.forall_mem_of_all (htypes _ ?_) c hc
  rw [ElementType.ofTag]
  cases h : ElementType.byTag.lookup tag with
  | none => exact List.mem_cons_self
  | some type =>
    obtain ⟨before, after, hby, -⟩ := List.lookup_eq_some_iff.1 h
    exact List.mem_cons_of_mem _ (by simp [hby])

/-! ### Declarations -/

/-- What stands before the literal in the declaration of a constant. -/
def Binding.opening (b : Binding) : Text :=
  "export const ".toList ++ b.name ++ " = document.getElementById(".toList

/-- What stands behind the literal. -/
def Binding.closing (b : Binding) : Text := ") as ".toList ++ b.type ++ ";".toList

/-- Whether a declaration stands on one line. -/
def Binding.IsOneLine (b : Binding) : Prop := ∀ c ∈ lineTerminators, c ∉ b.render

/-- Whether a declaration looks up its id: what it has between double quotes denotes the id. -/
def Binding.LooksUp (b : Binding) : Prop :=
  ∃ rest, b.render = b.opening ++ '"' :: rest ∧
    readString? rest = some (units b.elementId, b.closing)

theorem Binding.render_eq (b : Binding) :
    b.render = b.opening ++ '"' :: (b.elementId ++ '"' :: b.closing) := by
  have hopen : " = document.getElementById(\"".toList =
      " = document.getElementById(".toList ++ ['"'] := rfl
  have hclose : "\") as ".toList = '"' :: ") as ".toList := rfl
  unfold render opening closing
  rw [hopen, hclose]
  simp only [List.append_assoc, List.cons_append, List.nil_append]

theorem isIdentifier_constantName_iff (id : Text) : isIdentifier (constantName id) = true ↔
    hasPlainForms false id = true ∧ OpensWithoutDigit id := by
  rw [constantName]
  split
  · next h => exact iff_of_true h (hasPlainForms_of_isIdentifier h)
  · exact isIdentifier_camel_iff

/-- **The line of a constant** ends early just where its id has a line end. -/
theorem isOneLine_iff (h : b ∈ bindings html) :
    b.IsOneLine ↔ ∀ c ∈ lineTerminators, c ∉ b.elementId := by
  obtain ⟨-, hname, tag, htype⟩ := of_mem_bindings h
  have hfixed : ∀ c ∈ lineTerminators, c ∉ "export const ".toList ∧
      c ∉ " = document.getElementById(".toList ∧ c ≠ '"' ∧ c ∉ ") as ".toList ∧ c ∉ ";".toList :=
    Text.forall_mem_of_all (by decide)
  refine forall₂_congr fun c hc => not_congr ?_
  obtain ⟨hexport, hlookup, hquote, has, hend⟩ := hfixed c hc
  have hnot : c ∉ b.type := htype ▸ not_mem_ofTag hc tag
  have hmem : c ∈ b.name → c ∈ b.elementId := fun h => mem_of_mem_constantName hc (hname ▸ h)
  rw [Binding.render_eq]
  unfold Binding.opening Binding.closing
  simp only [List.mem_append, List.mem_cons, hexport, hlookup, hquote, has, hend, hnot, false_or,
    or_false]
  exact or_iff_right_of_imp hmem

/-- **The literal of a constant** denotes its id just when no character of the id means something
else in a literal. -/
theorem looksUp_iff (h : b ∈ bindings html) :
    b.LooksUp ↔ '\\' ∉ b.elementId ∧ '\n' ∉ b.elementId ∧ '\r' ∉ b.elementId := by
  rw [← readString?_eq_units_iff (elementId_of_mem_bindings h).2 b.closing]
  constructor
  · rintro ⟨rest, hrest, hread⟩
    rw [Binding.render_eq, List.append_right_inj, List.cons.injEq] at hrest
    rw [hrest.2, hread]
  · exact fun hread => ⟨_, b.render_eq, hread⟩

/-- A hyphen or a plain form is neither a backslash nor a line end. -/
theorem not_mem_of_hasPlainForms {capital : Bool} (h : hasPlainForms capital s = true)
    (hc : c ∈ '\\' :: lineTerminators) : c ∉ s := by
  have hbroken : ∀ c ∈ '\\' :: lineTerminators, c ≠ '-' ∧
      ∀ capital, hasPlainForm capital c = false :=
    Text.forall_mem_of_all (by decide)
  induction s generalizing capital with
  | nil => exact List.not_mem_nil
  | cons d s ih =>
    rw [hasPlainForms] at h
    intro hm
    split at h
    · next hd =>
      rcases List.mem_cons.1 hm with rfl | hm
      · exact (hbroken c hc).1 hd
      · exact ih h hm
    · rw [Bool.and_eq_true] at h
      rcases List.mem_cons.1 hm with rfl | hm
      · exact absurd h.1 (by rw [(hbroken c hc).2 capital]; exact Bool.false_ne_true)
      · exact ih h.2 hm

/-- **When the constant of an id is well formed.** Its name is an identifier just when the characters
of the id have plain forms and it opens, its hyphens apart, without a digit; its declaration stands on
one line just when the id has no line end; and what the declaration looks up is the id just when the id
has no backslash, line feed or carriage return. The first of these implies the others. -/
theorem wellFormed_iff (h : b ∈ bindings html) :
    (isIdentifier b.name = true ↔
      hasPlainForms false b.elementId = true ∧ OpensWithoutDigit b.elementId) ∧
      (b.IsOneLine ↔ ∀ c ∈ lineTerminators, c ∉ b.elementId) ∧
      (b.LooksUp ↔ '\\' ∉ b.elementId ∧ '\n' ∉ b.elementId ∧ '\r' ∉ b.elementId) ∧
      (isIdentifier b.name = true → b.IsOneLine ∧ b.LooksUp) := by
  have hname : isIdentifier b.name = true ↔
      hasPlainForms false b.elementId = true ∧ OpensWithoutDigit b.elementId := by
    rw [(of_mem_bindings h).2.1]
    exact isIdentifier_constantName_iff b.elementId
  refine ⟨hname, isOneLine_iff h, looksUp_iff h, fun hidentifier => ?_⟩
  have hforms := (hname.1 hidentifier).1
  refine ⟨(isOneLine_iff h).2 fun c hc => ?_, (looksUp_iff h).2 ⟨?_, ?_, ?_⟩⟩
  · exact not_mem_of_hasPlainForms hforms (List.mem_cons_of_mem _ hc)
  · exact not_mem_of_hasPlainForms hforms (by decide)
  · exact not_mem_of_hasPlainForms hforms (by decide)
  · exact not_mem_of_hasPlainForms hforms (by decide)

/-- A page with an id that only camel case brings into ASCII. -/
def scalePage : Text := "<p id=\"\u212aelvin-ſcale\">".toList

/-- Its binding. -/
def scale : Binding :=
  ⟨"kelvinScale".toList, "\u212aelvin-ſcale".toList, "HTMLElement".toList⟩

theorem wellFormed_scale : scale ∈ bindings scalePage ∧ isIdentifier scale.name = true ∧
    scale.IsOneLine ∧ scale.LooksUp := by
  have hmem : scale ∈ bindings scalePage := by decide +kernel
  have hname : isIdentifier scale.name = true := by decide +kernel
  exact ⟨hmem, hname, (wellFormed_iff hmem).2.2.2 hname⟩

/-- A page with an id that begins with a digit, one that is a path, and one on two lines. -/
def brokenPage : Text :=
  "<p id=\"1st\"><p id=\"docs\\new\"><p id=\"two\nlines\">".toList

/-- The binding of the first. -/
def digitFirst : Binding := ⟨"1st".toList, "1st".toList, "HTMLElement".toList⟩

/-- The binding of the second. -/
def pathLike : Binding := ⟨"docs\\new".toList, "docs\\new".toList, "HTMLElement".toList⟩

/-- The binding of the third. -/
def twoLines : Binding := ⟨"two\nlines".toList, "two\nlines".toList, "HTMLElement".toList⟩

/-- **Not all constants are well formed.** -/
theorem brokenPage_not_wellFormed :
    bindings brokenPage = [digitFirst, pathLike, twoLines] ∧
      isIdentifier digitFirst.name = false ∧ isIdentifier pathLike.name = false ∧
      ¬ pathLike.LooksUp ∧ ¬ twoLines.IsOneLine := by
  have hbindings : bindings brokenPage = [digitFirst, pathLike, twoLines] := by decide +kernel
  have hpath : pathLike ∈ bindings brokenPage := hbindings ▸ by simp
  have hlines : twoLines ∈ bindings brokenPage := hbindings ▸ by simp
  refine ⟨hbindings, by decide +kernel, by decide +kernel, fun h => ?_, fun h => ?_⟩
  · exact ((looksUp_iff hpath).1 h).1 (by decide +kernel)
  · exact (isOneLine_iff hlines).1 h '\n' (by decide) (by decide +kernel)

end Document
end TemplateBindings
