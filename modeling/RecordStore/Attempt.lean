import RecordStore.Error.Basic

/-!
# Attempts

A verb that changes a state may fail. What it comes to is a `RecordStore.Attempt`:
an answer or an error, and the state afterwards in either case.

Nothing in the type says that a failed attempt leaves the state as it was. A verb
that takes several steps leaves the state that the last of its steps has reached
(`RecordStore.Attempt.andThen`), and where that is the state it started from, it
is so because its steps come in the right order.
-/

namespace RecordStore

/-- What a verb on a state comes to. -/
structure Attempt (σ α : Type) where
  /-- The answer, or why there is none. -/
  result : Except Error α
  /-- The state afterwards. -/
  state : σ

namespace Attempt

variable {σ τ α β : Type}

/-- The attempt that answers something and leaves a state. -/
def done (a : α) (s : σ) : Attempt σ α := ⟨.ok a, s⟩

/-- The attempt that fails and leaves a state. -/
def fail (e : Error) (s : σ) : Attempt σ α := ⟨.error e, s⟩

/-- **Goes on from a state** with something that has to be there. -/
def needing (s : σ) (need : Except Error α) (next : α → Attempt σ β) : Attempt σ β :=
  match need with
  | .ok a => next a
  | .error e => fail e s

/-- **Goes on after an attempt**, with its answer and the state that it leaves. -/
def andThen (attempt : Attempt σ α) (next : α → σ → Attempt σ β) : Attempt σ β :=
  needing attempt.state attempt.result fun a => next a attempt.state

/-- Answers something else. -/
def map (f : α → β) (attempt : Attempt σ α) : Attempt σ β :=
  { attempt with result := attempt.result.map f }

/-- Answers something else, or fails after all. -/
def mapResult (f : α → Except Error β) (attempt : Attempt σ α) : Attempt σ β :=
  { attempt with result := attempt.result.bind f }

/-- Answers nothing. -/
def forget (attempt : Attempt σ α) : Attempt σ Unit := attempt.map fun _ => ()

/-- The same attempt, seen from a state around the one that it changes. -/
def within (attempt : Attempt σ α) (around : σ → τ) : Attempt τ α :=
  ⟨attempt.result, around attempt.state⟩

/-- The answer together with the state, of an attempt on a copy that is dropped
if the attempt fails. -/
def toExcept (attempt : Attempt σ α) : Except Error (α × σ) :=
  attempt.result.map (·, attempt.state)

end Attempt

end RecordStore
