/-!
# Threads

A thread does its work in steps. What a step does to the state that the threads share is not
interrupted; between two steps other threads may take theirs. A thread on its own is run to its end
by `TemplateBindings.Thread.run`. Threads that share a state take turns
(`TemplateBindings.Thread.takeTurns`), in any order that the list of turns says.
-/

namespace TemplateBindings

/-- **A thread** on a state. -/
inductive Thread (σ α : Type) : Type where
  /-- It is done, with a value. -/
  | done (value : α)
  /-- A step changes the state. How the thread goes on depends on the state that the step found. -/
  | step (change : σ → σ) (next : σ → Thread σ α)

namespace Thread

variable {σ τ α β κ : Type}

/-- A thread that goes on with what its first part ends with. -/
def bind : Thread σ α → (α → Thread σ β) → Thread σ β
  | done a, next => next a
  | step change rest, next => step change fun s => (rest s).bind next

instance : Monad (Thread σ) where
  pure := done
  bind := bind

/-- **A thread on its own**: its value, and the state that it leaves. -/
def run : Thread σ α → σ → α × σ
  | done a, s => (a, s)
  | step change next, s => (next s).run (change s)

/-! ### Parts of a state -/

/-- A thread on one part of a state, beside another part. -/
def beside : Thread σ α → Thread (σ × τ) α
  | done a => done a
  | step change next => step (fun s => (change s.1, s.2)) fun s => (next s.1).beside

/-- A thread that has a part of its state to itself, and starts with `own` in it. -/
def keeping (own : τ) : Thread (σ × τ) α → Thread σ α
  | done a => done a
  | step change next =>
    step (fun s => (change (s, own)).1) fun s => (next (s, own)).keeping (change (s, own)).2

/-! ### Turns -/

/-- Threads one after another, behind some that have ended. Each has a name. -/
def inTurn (ended : List (κ × α)) : List (κ × Thread σ α) → Thread σ (List (κ × α))
  | [] => done ended
  | (name, thread) :: rest => thread.bind fun a => inTurn (ended ++ [(name, a)]) rest

/-- **Threads that take turns**, behind some that have ended. Each turn is that of one of the threads
left, counted round: it takes a step or, if it is done, it ends. When the turns are used up, the
threads left go on one after another. -/
def takeTurns : (turns : List Nat) → (ended : List (κ × α)) → List (κ × Thread σ α) →
    Thread σ (List (κ × α))
  | [], ended, threads => inTurn ended threads
  | turn :: turns, ended, threads =>
    let place := turn % threads.length
    match threads.drop place with
    | [] => done ended
    | (name, done a) :: later => takeTurns turns (ended ++ [(name, a)]) (threads.take place ++ later)
    | (name, step change next) :: later =>
      step change fun s => takeTurns turns ended (threads.take place ++ (name, next s) :: later)

/-- **Threads in batches**: those of a batch take turns, and a batch begins when the one before it has
ended. For each batch there are turns; where none are said, its threads go one after another. -/
def inBatches : (turns : List (List Nat)) → List (List (κ × Thread σ α)) →
    Thread σ (List (κ × α))
  | _, [] => done []
  | turns, batch :: batches => do
    let first ← takeTurns (turns.headD []) [] batch
    let later ← inBatches turns.tail batches
    return first ++ later

end Thread
end TemplateBindings
