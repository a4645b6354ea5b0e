import TemplateBindings.Audit.Event
import TemplateBindings.Proofs.Json.RoundTrip

/-!
# The lines of a log

An event is one line, whatever its texts are: it is a value without numbers
(`TemplateBindings.Audit.numberless_toJson`), which is printed without a line feed, so that the one
behind it ends the line (`TemplateBindings.Audit.isLine_line`).
-/

namespace TemplateBindings

/-- **One line**, with the line feed that ends it. -/
def Text.IsLine (line : Text) : Prop := ∃ content, line = content ++ ['\n'] ∧ '\n' ∉ content

namespace Audit

open Json

/-- **An event is a value without numbers.** -/
theorem numberless_toJson (event : Event) (room : Nat) :
    Numberless (room + 2) event.toJson := by
  have htext {room : Nat} (s : Text) : Numberless room (.text s) :=
    .text _ fun _ => isWhole_of_mem_ofText
  have hname {room : Nat} (s : Str) : Numberless room (.text s) :=
    .text _ fun _ => isWhole_of_mem_ofStr
  have herror : Numberless (room + 1)
      ((event.error.map fun e : Text => Json.text e).getD .null) := by
    cases event.error with
    | none => exact .null
    | some e => exact htext e
  have houtputs : Numberless (room + 1)
      (.array (event.outputs.map fun output : Str => Json.text output)) := by
    refine .array fun value hv => ?_
    obtain ⟨output, -, rfl⟩ := List.mem_map.1 hv
    exact hname output
  have hkeys : (["action".toList, "error".toList, "outputs".toList, "path".toList,
      "run_id".toList, "timestamp".toList].map ofText).Nodup := by
    decide
  refine .object hkeys (fun m hm symbol hsymbol => ?_) fun m hm => ?_
  · simp only [List.mem_cons, List.not_mem_nil, or_false] at hm
    rcases hm with rfl | rfl | rfl | rfl | rfl | rfl <;> exact isWhole_of_mem_ofText hsymbol
  · simp only [List.mem_cons, List.not_mem_nil, or_false] at hm
    rcases hm with rfl | rfl | rfl | rfl | rfl | rfl
    · exact htext _
    · exact herror
    · exact houtputs
    · exact hname _
    · exact htext _
    · exact htext _

/-- An event is printed in characters that are shown. -/
theorem isShown_of_mem_toJson (event : Event) {c : Char} (hc : c ∈ event.toJson.print) :
    Text.IsShown c :=
  (numberless_toJson event 0).shown c hc

/-- **An event is one line.** -/
theorem isLine_line (event : Event) : Text.IsLine event.line :=
  ⟨event.toJson.print, rfl, fun h => absurd (isShown_of_mem_toJson event h) (by decide)⟩

end Audit
end TemplateBindings
