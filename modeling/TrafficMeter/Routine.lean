import TrafficMeter.Error

/-!
# Routines

Stores, tables and pipelines are changed in place, one write after the other. A `Routine` is such a sequence of
steps. It may fail at any of them, and nothing undoes what was written before: `Routine.perform` returns the
state that was reached, with an answer or with an error. Whether an operation that fails leaves its state alone
is thus a matter of the order of its checks and writes.
-/

namespace TrafficMeter

/-- A computation that works on a state of type `σ` in place and gives an `α`, or fails with an `Error`. -/
abbrev Routine (σ α : Type) := ExceptT Error (StateM σ) α

namespace Routine

variable {σ τ α : Type}

/-- Runs `routine` on `state`. The second component is the state that was reached, also at an error. -/
def perform (routine : Routine σ α) (state : σ) : Except Error α × σ :=
  (routine.run.run state).run

/-- The answer of `routine` with the state after it. If `routine` fails, only the error is left. -/
def attempt (routine : Routine σ α) (state : σ) : Except Error (α × σ) :=
  match routine.perform state with
  | (.ok answer, next) => .ok (answer, next)
  | (.error error, _) => .error error

/-- The state after `routine`. If `routine` fails, only the error is left. -/
def after (routine : Routine σ Unit) (state : σ) : Except Error σ :=
  (routine.attempt state).map Prod.snd

/-- Runs `routine` on the part of a state that `find` gives. The part that was reached is written back by
`put`, also if `routine` fails. -/
def onPart (find : σ → Except Error τ) (put : σ → τ → σ) (routine : Routine τ α) : Routine σ α := do
  let state ← get
  let part ← find state
  let (outcome, reached) := routine.perform part
  set (put state reached)
  outcome

end Routine

end TrafficMeter
