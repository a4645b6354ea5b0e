import TemplateBindings.Stylesheet.Constants
import TemplateBindings.Text.Lines
import TemplateBindings.Proofs.Identifier.Camel
import TemplateBindings.Proofs.Script.Declaration
import TemplateBindings.Proofs.Text.Distinct

/-!
# When the constant of a class name is valid

What follows a dot in a selector region is taken for a class name although it may be the fraction of a
number, or a run of hyphens. Its constant is valid unless the class name opens, its hyphens apart, with
a digit or not at all, or its camel case is a word that the language keeps for itself
(`TemplateBindings.Stylesheet.constant_valid_iff`).
-/

namespace TemplateBindings
namespace Stylesheet

open Script Identifier

variable {c : Char} {css name : Text} {b : ClassBinding} {kept group : List ClassBinding}

/-! ### Class names -/

theorem of_isNameChar (h : isNameChar c = true) : c = '-' ∨ isInner c = true := by
  simp only [isNameChar, Bool.or_eq_true, beq_iff_eq] at h
  simp only [isInner, isOpening, Bool.or_eq_true, beq_iff_eq]
  rcases h with ((h | h) | h) | h
  · exact .inr (.inl (.inl (.inl h)))
  · exact .inr (.inr h)
  · exact .inr (.inl (.inl (.inr h)))
  · exact .inl h

/-- **A class name** is made of its characters. -/
theorem isNameChar_of_mem_classNames (h : name ∈ classNames css) (hc : c ∈ name) :
    isNameChar c = true := by
  rw [classNames, Text.mem_distinct] at h
  obtain ⟨region, -, hrun⟩ := List.mem_flatMap.1 (List.mem_filter.1 h).1
  obtain ⟨piece, -, rfl⟩ := List.mem_map.1 (List.mem_reverse.1 hrun)
  exact List.all_eq_true.1 List.all_takeWhile c hc

theorem of_mem_mergeOnto (h : b ∈ mergeOnto kept group) : b ∈ kept ∨ b ∈ group := by
  induction group generalizing kept with
  | nil => exact .inl h
  | cons a group ih =>
    rw [mergeOnto] at h
    split at h
    · exact (ih h).imp_right (List.mem_cons_of_mem a)
    · rcases ih h with h | h
      · rcases List.mem_append.1 h with h | h
        · exact .inl h
        · exact .inr (List.mem_singleton.1 h ▸ List.mem_cons_self)
      · exact .inr (List.mem_cons_of_mem a h)

/-- A binding of a stylesheet is that of one of its class names. -/
theorem of_mem_bindings (h : b ∈ bindings css) :
    (∀ c ∈ b.source, isNameChar c = true) ∧ b.generated = camel b.source := by
  rw [bindings, merge, List.flatten_singleton] at h
  rcases of_mem_mergeOnto h with h | h
  · cases h
  · obtain ⟨name, hname, rfl⟩ := List.mem_map.1 h
    exact ⟨fun c hc => isNameChar_of_mem_classNames hname hc, rfl⟩

/-! ### Their constants -/

theorem hasPlainForms_of_isNameChar {capital : Bool} {s : Text}
    (h : ∀ c ∈ s, isNameChar c = true) : hasPlainForms capital s = true := by
  induction s generalizing capital with
  | nil => rfl
  | cons c s ih =>
    rw [List.forall_mem_cons] at h
    rw [hasPlainForms]
    split
    · exact ih h.2
    · next hc =>
      rw [hasPlainForm, (of_isNameChar h.1).resolve_left hc, Bool.true_or, Bool.true_and]
      exact ih h.2

theorem isInner_of_mem_camel (hname : ∀ c ∈ name, isNameChar c = true) (hc : c ∈ camel name) :
    isInner c = true := by
  have hall := all_segmentsForm false name
  rw [hasPlainForms_of_isNameChar hname, ← camel_eq] at hall
  exact List.all_eq_true.1 hall c hc

/-- **The name of a constant** has characters of identifiers only, whether it is one or not. -/
theorem isInner_of_mem_generated (h : b ∈ bindings css) (hc : c ∈ b.generated) :
    isInner c = true := by
  obtain ⟨hsource, hgenerated⟩ := of_mem_bindings h
  exact isInner_of_mem_camel hsource (hgenerated ▸ hc)

theorem isIdentifier_generated_iff (h : b ∈ bindings css) :
    isIdentifier b.generated = true ↔ OpensWithoutDigit b.source := by
  obtain ⟨hsource, hgenerated⟩ := of_mem_bindings h
  rw [hgenerated, isIdentifier_camel_iff, hasPlainForms_of_isNameChar hsource]
  exact and_iff_right rfl

/-- The literal of a constant denotes its class name. -/
theorem readString?_source (h : b ∈ bindings css) (rest : Text) :
    readString? (b.source ++ '"' :: rest) = some (units b.source, rest) := by
  have hsource := (of_mem_bindings h).1
  have hnot {c : Char} (hc : isNameChar c = false) : c ∉ b.source := fun hm => by
    rw [hsource c hm] at hc
    cases hc
  rw [readString?_eq_units_iff (hnot (by decide))]
  exact ⟨hnot (by decide), hnot (by decide), hnot (by decide)⟩

theorem ClassBinding.render_eq (b : ClassBinding) : b.render =
    "export const ".toList ++ b.generated ++ " = \"".toList ++ (b.source ++ ['"', ';']) := by
  unfold render
  rw [List.append_assoc _ b.source]
  rfl

/-- A declaration is one line. -/
theorem newline_not_mem_render (hsource : '\n' ∉ b.source) (hgenerated : '\n' ∉ b.generated) :
    '\n' ∉ b.render := by
  have hfixed : '\n' ∉ "export const ".toList ∧ '\n' ∉ " = \"".toList ∧ '\n' ∉ ['"', ';'] := by
    decide
  rw [ClassBinding.render_eq]
  simp only [List.mem_append, hfixed, hgenerated, hsource, or_self, not_false_iff]

/-- **The declarations of a stylesheet** are the lines of their text. -/
theorem lines_renderConstants (h : bindings css ≠ []) :
    Text.lines (renderConstants (bindings css)) = (bindings css).map ClassBinding.render := by
  rw [Text.lines, renderConstants]
  refine Text.pieces_joined (by simpa using h) fun line hline => ?_
  obtain ⟨b, hb, rfl⟩ := List.mem_map.1 hline
  exact newline_not_mem_render (fun hm => absurd ((of_mem_bindings hb).1 _ hm) (by decide))
    fun hm => absurd (isInner_of_mem_generated hb hm) (by decide)

/-- **When the constant of a class name is valid.** Its name is an identifier just when the class name
opens, its hyphens apart, without a digit; its line declares a string just when that name can also be
declared; and then the name is its own and the string is the class name. -/
theorem constant_valid_iff (h : b ∈ bindings css) :
    (isIdentifier b.generated = true ↔ OpensWithoutDigit b.source) ∧
      b.render ∈ Text.lines (renderConstants (bindings css)) ∧
      ((∃ name value, DeclaresString b.render name value) ↔
        OpensWithoutDigit b.source ∧ b.generated ∉ reservedWords) ∧
      ∀ name value, DeclaresString b.render name value →
        name = b.generated ∧ value = units b.source := by
  have hread := readString?_source h [';']
  have hblank {name : Text} (hname : ∀ c ∈ name, isInner c = true) : ' ' ∉ name := fun hm =>
    absurd (hname ' ' hm) (by decide)
  have hunique (name : Text) (value : List Nat) (hdeclares : DeclaresString b.render name value) :
      name = b.generated ∧ value = units b.source := by
    obtain ⟨⟨hname, -⟩, rest, hline, hrest⟩ := hdeclares
    rw [ClassBinding.render_eq] at hline
    -- neither the declared name nor the generated one has a blank, so both end at the same place
    obtain ⟨rfl, rfl⟩ := eq_of_declaration
      (hblank (List.all_eq_true.1 (isIdentifier_iff.1 hname).1))
      (hblank fun c hc => isInner_of_mem_generated h hc) hline.symm
    rw [hread, Option.some.injEq, Prod.mk.injEq] at hrest
    exact ⟨rfl, hrest.1.symm⟩
  refine ⟨isIdentifier_generated_iff h, ?_, ⟨?_, ?_⟩, hunique⟩
  · rw [lines_renderConstants (List.ne_nil_of_mem h)]
    exact List.mem_map_of_mem h
  · rintro ⟨name, value, hdeclares⟩
    obtain ⟨rfl, -⟩ := hunique name value hdeclares
    exact ⟨(isIdentifier_generated_iff h).1 hdeclares.1.1, hdeclares.1.2⟩
  · rintro ⟨hopens, hreserved⟩
    exact ⟨b.generated, units b.source, ⟨(isIdentifier_generated_iff h).2 hopens, hreserved⟩,
      b.source ++ ['"', ';'], b.render_eq, hread⟩

/-- A stylesheet with a class name in two words, one that the language keeps for itself, and one that
begins with a digit. -/
def mixedSheet : Text := ".Card--title_2 \x7b \x7d .default, .-2col \x7b \x7d".toList

/-- The binding of the first. -/
def cardTitle : ClassBinding := ⟨"Card--title_2".toList, "cardTitle_2".toList⟩

/-- The binding of the second. -/
def reserved : ClassBinding := ⟨"default".toList, "default".toList⟩

/-- The binding of the third. -/
def digitFirst : ClassBinding := ⟨"-2col".toList, "2col".toList⟩

theorem constant_valid_mixed : bindings mixedSheet = [digitFirst, reserved, cardTitle] ∧
    isIdentifier digitFirst.generated = false ∧
    (¬ ∃ name value, DeclaresString reserved.render name value) ∧
    ∃ name value, DeclaresString cardTitle.render name value := by
  have hbindings : bindings mixedSheet = [digitFirst, reserved, cardTitle] := by decide +kernel
  have hdigit : digitFirst ∈ bindings mixedSheet := by simp [hbindings]
  have hreserved : reserved ∈ bindings mixedSheet := by simp [hbindings]
  have hcard : cardTitle ∈ bindings mixedSheet := by simp [hbindings]
  refine ⟨hbindings, ?_, fun h => ?_, ?_⟩
  · rw [Bool.eq_false_iff, Ne, (constant_valid_iff hdigit).1]
    rintro ⟨c, hc, hopens⟩
    cases hc
    cases hopens
  · exact ((constant_valid_iff hreserved).2.2.1.1 h).2 (by decide)
  · exact (constant_valid_iff hcard).2.2.1.2 ⟨⟨'C', by decide, by decide⟩, by decide⟩

/-- A stylesheet with a fraction in a media query. -/
def fractionSheet : Text :=
  "@media (min-width: 40.5em) \x7b\n  .wide \x7b display: grid; \x7d\n\x7d\n".toList

/-- **Not all constants have identifiers for names.** -/
theorem fraction_not_identifier :
    bindings fractionSheet =
      [⟨"wide".toList, "wide".toList⟩, ⟨"5em".toList, "5em".toList⟩] ∧
      isIdentifier "5em".toList = false := by
  decide +kernel

end Stylesheet
end TemplateBindings
