/-
**Attempts.** The outcome of a step that may succeed, have nothing to say, or fail for a reason.

* `Attempt` — present, empty or failed; the first failure of a chain of steps is its outcome.
* `Attempt.failOnEmpty` — turns the absence of a value into a failure.
* `Attempt.join` — the present values of a list of attempts, or the first failure.
-/

import Forwarder.Failure

namespace Forwarder

/-- The outcome of a step. -/
inductive Attempt (α : Type)
  | present (value : α)
  | empty
  | failed (failure : Failure)
deriving Repr

/-- Values that may stand for the absence of a value. -/
class Absentable (α : Type) where
  isAbsent : α → Bool

namespace Attempt

variable {α β : Type}

/-- A value, unless it stands for absence. -/
def of [Absentable α] (value : α) : Attempt α :=
  if Absentable.isAbsent value then empty else present value

/-- An optional value. -/
def ofOption : Option α → Attempt α
  | some value => present value
  | none => empty

/-- A failure, if there is one. -/
def ofFailure : Option Failure → Attempt α
  | some failure => failed failure
  | none => empty

/-- There is a value. -/
def isPresent : Attempt α → Bool
  | present _ => true
  | _ => false

/-- There is neither a value nor a failure. -/
def isEmpty : Attempt α → Bool
  | empty => true
  | _ => false

/-- There is a failure. -/
def hasFailed : Attempt α → Bool
  | failed _ => true
  | _ => false

/-- The value. -/
def value? : Attempt α → Option α
  | present value => some value
  | _ => none

/-- The failure. -/
def failure? : Attempt α → Option Failure
  | failed failure => some failure
  | _ => none

/-- The message of the failure, and nothing if there is none. -/
def reason (a : Attempt α) : String :=
  match a with
  | failed failure => failure.text
  | _ => ""

/-- Keeps a value that passes the test. -/
def filter (test : α → Bool) : Attempt α → Attempt α
  | present value => if test value then present value else empty
  | other => other

/-- Goes on with a value; emptiness and failures stay. -/
def bind (a : Attempt α) (next : α → Attempt β) : Attempt β :=
  match a with
  | present value => next value
  | empty => empty
  | failed failure => failed failure

/-- Turns emptiness into what the optional failure says. -/
def failOnEmpty (a : Attempt α) (failure : Option Failure) : Attempt α :=
  match a with
  | empty => ofFailure failure
  | other => other

/-- The value, or another one. -/
def orElse (a : Attempt α) (other : α) : α :=
  a.value?.getD other

/-- The attempt as messages show it. -/
def render (valueText : α → String) : Attempt α → String
  | present value => "Attempt[" ++ valueText value ++ "]"
  | empty => "Attempt.empty"
  | failed failure => "Attempt[failed: '" ++ failure.text ++ "']"

/-- The present values in order, or the first failure. -/
def join : List (Attempt α) → Attempt (List α)
  | [] => present []
  | present value :: others => (join others).bind fun values => present (value :: values)
  | empty :: others => join others
  | failed failure :: _ => failed failure

end Attempt

end Forwarder
