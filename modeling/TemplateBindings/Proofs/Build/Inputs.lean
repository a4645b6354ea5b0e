import TemplateBindings.Proofs.Build.Due
import TemplateBindings.Proofs.Files.Company

/-!
# Reading the inputs

The inputs of a source are asked for one after another, and others may work on the disk meanwhile. As
long as they leave the inputs and the module of the source alone, the answers are those of a single
moment (`TemplateBindings.Build.answers_takeStaleMarker`,
`TemplateBindings.Build.answers_compileInputs`).
-/

namespace TemplateBindings
namespace Build

open Files Files.Work

variable {files view : Entry} {disk : Disk} {roots : Roots} {sources : List Source}
  {source : Source} {company : Company} 

/-! ### Asking alone -/

theorem quiet_askBeside {α : Type} (sheet : Option Source)
    (question : Entry → Source → Except SourceError α) : Quiet (askBeside sheet question) := by
  cases sheet with
  | none => exact quiet_pure none
  | some sheet => exact quiet_ask fun files => (question files sheet).map some

theorem quiet_takeMarker (root : Path) (source : Source) (sheet : Option Source) :
    Quiet (takeMarker root source sheet) :=
  (quiet_ask _).bind fun _ => (quiet_askBeside _ _).bind fun _ => quiet_ofExcept _

theorem quiet_takeStaleMarker (roots : Roots) (source : Source) (sheet : Option Source) :
    Quiet (takeStaleMarker roots source sheet) :=
  (quiet_takeMarker _ _ _).bind fun _ => (quiet_ask _).bind fun _ => quiet_pure _

theorem quiet_compileInputs (root : Path) (source : Source) (sheet : Option Source)
    (marker : Text) : Quiet (compileInputs root source sheet marker) :=
  (quiet_ask _).bind fun _ => (quiet_askBeside _ _).bind fun _ => quiet_ofExcept _

/-! ### Answers of one moment -/

theorem answers_askBeside {α : Type} {sheet : Option Source}
    {question : Entry → Source → Except SourceError α}
    (h : ∀ input ∈ sheet, ∀ mid, company.rely disk mid →
      question mid.root input = question files input) :
    Answers company disk (askBeside sheet question) (answerBeside files sheet question) := by
  cases sheet with
  | none => exact answers_pure none
  | some input =>
    rw [askBeside, answerBeside]
    exact answers_ask fun mid hmid => congrArg (Except.map some) (h input rfl mid hmid)

section
variable (hview : InView view roots.input sources source)
  (hholds : ∀ mid, company.rely disk mid → view.Holds mid.root)
include hview hholds

theorem answers_takeMarker :
    Answers company disk (takeMarker roots.input source (source.stylesheet? sources))
      (markerOf view roots.input source (source.stylesheet? sources)) := by
  refine .bind (answers_ask fun mid hmid => ?_) fun time _ => .bind
    (answers_askBeside fun sheet hsheet mid hmid => ?_) fun _ _ => answers_ofExcept _
  · rw [modified_of_holds hview.1 (hholds mid hmid)]
  · rw [modified_of_holds (hview.2 sheet hsheet) (hholds mid hmid)]

/-- **Whether a module is stale** is answered as at any moment at which its inputs are in view. -/
theorem answers_takeStaleMarker (hfiles : view.Holds files)
    (hmodule : ∀ mid, company.rely disk mid →
      existingMarker mid.root (source.outputs roots.output).module =
        existingMarker files (source.outputs roots.output).module) :
    Answers company disk (takeStaleMarker roots source (source.stylesheet? sources))
      (staleMarker? files roots source (source.stylesheet? sources)) := by
  rw [staleMarker?, markerOf_of_holds hview hfiles]
  refine .bind (answers_takeMarker hview hholds) fun marker _ => .bind
    (answers_ask fun mid hmid => ?_) fun _ _ => answers_pure _
  rw [hmodule mid hmid]

/-- **What a source is compiled to** is answered likewise. -/
theorem answers_compileInputs (hfiles : view.Holds files) (marker : Text) :
    Answers company disk (compileInputs roots.input source (source.stylesheet? sources) marker)
      (compileSource files roots.input source (source.stylesheet? sources) marker) := by
  rw [compileSource_of_holds hview hfiles]
  refine .bind (answers_ask fun mid hmid => ?_) fun html _ => .bind
    (answers_askBeside fun sheet hsheet mid hmid => ?_) fun _ _ => answers_ofExcept _
  · exact readText_of_holds hview.1 (hholds mid hmid)
  · exact readText_of_holds (hview.2 sheet hsheet) (hholds mid hmid)

end

end Build
end TemplateBindings
