import MeshProbe.Clock
import MeshProbe.Log
/-!
Waiting, with a deadline, for fetched values to satisfy a condition. Before each attempt the
cancellation is looked at first and the deadline second; an attempt once begun is carried to its
end; between two attempts there is a sleep that never passes the deadline.
-/

namespace MeshProbe

structure Wait where
  /-- Completes "Timed out waiting for". -/
  description : String
  timeout : Nat
  interval : Nat
  deriving DecidableEq, Repr

inductive WaitError (ε : Type)
  | timeout (description : String) (elapsed : Nat)
  | cancelled (description : String)
  | fetch (error : ε)
  deriving DecidableEq, Repr

namespace WaitError

variable {ε : Type}

def message (errorText : ε → String) : WaitError ε → String
  | timeout description _ => "Timed out waiting for " ++ description
  | cancelled description => "Cancelled while waiting for " ++ description
  | fetch e => errorText e

def isTimeout : WaitError ε → Bool
  | timeout _ _ => true
  | _ => false

/-- The error of the attempt, when it was an attempt that failed. -/
def fetchError? : WaitError ε → Option ε
  | fetch e => some e
  | _ => none

end WaitError

namespace Wait

/-- The pause between attempts of a wait that names none. -/
def defaultInterval : Nat := Span.ofSeconds 1

/-- The instant from which no attempt is made any more. -/
def deadline (w : Wait) (start : Nat) : Nat :=
  (Instant.add? start w.timeout).getD (start + Span.far)

/-- The instant of the next attempt after one that ended now. -/
def wake (w : Wait) (now deadline : Nat) : Nat :=
  match Instant.add? now w.interval with
  | some next => min next deadline
  | none => deadline

variable {σ ε α : Type} [Clock σ]

/-- At most so many attempts of a wait; `none` when they do not suffice. -/
def attempts (w : Wait) (fetch : Action σ ε α) (holds : α → Bool) (start deadline : Nat) :
    Nat → σ → Option (Except (WaitError ε) α × σ)
  | fuel, s =>
    if Clock.isCancelled s then some (.error (.cancelled w.description), s)
    else if deadline ≤ Clock.now s then
      some (.error (.timeout w.description (Clock.now s - start)), s)
    else match fuel with
      | 0 => none
      | fuel + 1 =>
        match fetch.exec s with
        | (.error e, s) => some (.error (.fetch e), s)
        | (.ok a, s) =>
          if holds a then some (.ok a, s)
          else
            attempts w fetch holds start deadline fuel
              (Clock.sleepUntil (w.wake (Clock.now s) deadline) s)

/-- The whole wait, from the present instant on. A positive interval needs at most one attempt
for each millisecond up to the deadline; `extra` allows for attempts that take no time. -/
def run (w : Wait) (fetch : Action σ ε α) (holds : α → Bool) (extra : Nat) (s : σ) :
    Option (Except (WaitError ε) α × σ) :=
  let start := Clock.now s
  let deadline := w.deadline start
  attempts w fetch holds start deadline (deadline - start + extra) s

/-- The wait that makes the usual pause between attempts. -/
def lasting (description : String) (timeout : Nat) : Wait where
  description
  timeout
  interval := defaultInterval

def withInterval (interval : Nat) (w : Wait) : Wait := { w with interval }

/-- A wait given by its parts, for as long as `timeout` and with pauses of `interval`. -/
def awaitCondition (timeout interval : Nat) (description : String) (fetch : Action σ ε α)
    (holds : α → Bool) (extra : Nat) (s : σ) : Option (Except (WaitError ε) α × σ) :=
  ((lasting description timeout).withInterval interval).run fetch holds extra s

/-- The wait as a step of its own. Should it never end, its deadline is taken to have passed. -/
def action (w : Wait) (fetch : Action σ ε α) (holds : α → Bool) : Action σ (WaitError ε) α :=
  ExceptT.mk fun s =>
    (w.run fetch holds 0 s).getD (.error (.timeout w.description w.timeout), s)

end Wait

end MeshProbe
