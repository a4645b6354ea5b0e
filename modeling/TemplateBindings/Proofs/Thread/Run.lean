import TemplateBindings.Thread

/-!
# Threads on their own

How a thread runs that is put together from others, when nobody else takes a step.
-/

namespace TemplateBindings
namespace Thread

variable {σ τ α β κ : Type}

@[simp] theorem run_pure (a : α) (s : σ) : (pure a : Thread σ α).run s = (a, s) := rfl

/-- A thread in two parts runs one after the other. -/
theorem run_bind (thread : Thread σ α) (next : α → Thread σ β) (s : σ) :
    (thread.bind next).run s = (next (thread.run s).1).run (thread.run s).2 := by
  induction thread generalizing s with
  | done a => rfl
  | step change rest ih => exact ih s (change s)

@[simp] theorem run_keeping (own : τ) (thread : Thread (σ × τ) α) (s : σ) :
    (thread.keeping own).run s = ((thread.run (s, own)).1, (thread.run (s, own)).2.1) := by
  induction thread generalizing own s with
  | done a => rfl
  | step change rest ih => exact ih (s, own) _ _

/-- Batches run one after another. -/
theorem run_inBatches_cons (turns : List (List Nat)) (batch : List (κ × Thread σ α))
    (batches : List (List (κ × Thread σ α))) (s : σ) :
    (inBatches turns (batch :: batches)).run s =
      let first := (takeTurns (turns.headD []) [] batch).run s
      let later := (inBatches turns.tail batches).run first.2
      (first.1 ++ later.1, later.2) := by
  rw [inBatches]
  change ((takeTurns (turns.headD []) [] batch).bind fun first =>
    (inBatches turns.tail batches).bind fun later => done (first ++ later)).run s = _
  rw [run_bind, run_bind]
  rfl

end Thread
end TemplateBindings
