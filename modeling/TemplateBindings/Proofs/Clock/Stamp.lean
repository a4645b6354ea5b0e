import TemplateBindings.Clock.Stamp
import TemplateBindings.Proofs.Text.Integer

/-!
# The characters of a stamp

A stamp is digits with a few signs between them, and so stands on one line
(`TemplateBindings.Clock.stamp_line`).
-/

namespace TemplateBindings
namespace Clock

variable {c : Char} {nanoseconds : Int} {stamp : Text} {x : Rat}

theorem mem_renderStamp {seconds : Int} {millisecond : Nat}
    (h : c ∈ renderStamp seconds millisecond) :
    c.isDigit = true ∨ c ∈ ['-', 'T', ':', '.', 'Z'] := by
  simp only [renderStamp, List.mem_append, List.mem_singleton, or_assoc] at h
  have digit {width n : Nat} (hm : c ∈ Text.ofNatPadded width n) :
      c.isDigit = true ∨ c ∈ ['-', 'T', ':', '.', 'Z'] :=
    .inl (Text.isDigit_of_mem_ofNatPadded hm)
  rcases h with h | rfl | h | rfl | h | rfl | h | rfl | h | rfl | h | rfl | h | rfl
  all_goals first | exact digit h | exact .inr (by decide)

theorem renderStamp_of_stampOfSeconds (h : stampOfSeconds x = .ok stamp) :
    ∃ seconds millisecond, stamp = renderStamp seconds millisecond := by
  rw [stampOfSeconds] at h
  dsimp only at h
  split at h
  · exact absurd h (by simp only [reduceCtorEq, not_false_eq_true])
  · split at h
    · exact absurd h (by simp only [reduceCtorEq, not_false_eq_true])
    · split at h
      · exact ⟨_, _, (Except.ok.inj h).symm⟩
      · exact absurd h (by simp only [reduceCtorEq, not_false_eq_true])

/-- **A stamp stands on one line.** -/
theorem stamp_line (h : stampOfNanoseconds nanoseconds = .ok stamp) :
    '\n' ∉ stamp ∧ '\r' ∉ stamp := by
  rw [stampOfNanoseconds] at h
  split at h
  · exact absurd h (by simp only [reduceCtorEq, not_false_eq_true])
  · obtain ⟨seconds, millisecond, he⟩ := renderStamp_of_stampOfSeconds h
    have hchar (c : Char) (hm : c ∈ stamp) : c.isDigit = true ∨ c ∈ ['-', 'T', ':', '.', 'Z'] := by
      rw [he] at hm
      exact mem_renderStamp hm
    exact ⟨fun hm => absurd (hchar _ hm) (by decide), fun hm => absurd (hchar _ hm) (by decide)⟩

end Clock
end TemplateBindings
