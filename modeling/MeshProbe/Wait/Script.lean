import MeshProbe.Wait.Basic
/-!
Attempts that are laid down in advance: how long each takes, what it yields and whether it
cancels the wait as it ends. A wait over such a script depends on nothing else, so waits that run
side by side do not influence each other.
-/

namespace MeshProbe.Script

structure Attempt (ε α : Type) where
  duration : Nat
  outcome : Except ε α
  cancels : Bool

/-- Where a run of a script stands. -/
structure State where
  now : Nat
  /-- The instant of the cancellation, if one is due or past. -/
  cancelAt : Option Nat
  /-- When the attempts so far began, the latest first. -/
  starts : List Nat
  deriving DecidableEq, Repr

namespace State

/-- A run at rest: nothing attempted yet. -/
def initial (cancelAt : Option Nat) : State := ⟨0, cancelAt, []⟩

def cancelled (s : State) : Bool :=
  match s.cancelAt with
  | some c => c ≤ s.now
  | none => false

/-- Sleeps to an instant, or to the cancellation if that comes first. -/
def sleepUntil (wake : Nat) (s : State) : State :=
  let wake := match s.cancelAt with
    | some c => min wake c
    | none => wake
  { s with now := max s.now wake }

instance : Clock State where
  now := State.now
  sleepUntil := State.sleepUntil
  isCancelled := State.cancelled

end State

/-- Makes the next attempt of a script. -/
def attempt {ε α : Type} (script : Nat → Attempt ε α) : Action State ε α := ExceptT.mk do
  let s ← get
  let a := script s.starts.length
  let ended := s.now + a.duration
  let cancelAt := if a.cancels then some (min ended (s.cancelAt.getD ended)) else s.cancelAt
  set { s with now := ended, cancelAt, starts := s.now :: s.starts }
  pure a.outcome

/-- Runs a wait over a script whose attempts repeat after `length`. -/
def run {ε α : Type} (w : Wait) (script : Nat → Attempt ε α) (length : Nat)
    (holds : α → Bool) (cancelAt : Option Nat) : Option (Except (WaitError ε) α × State) :=
  w.run (attempt script) holds length (State.initial cancelAt)

end MeshProbe.Script
