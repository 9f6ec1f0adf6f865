import MeshProbe.Wait.Basic
/-!
The loop of a wait taken point by point, with the count of its attempts that it keeps in a word
of 32 bits. The count is for the record: what the wait does never hangs on it, unless a count too
large for its word stops the program.
-/

namespace MeshProbe

/-- What becomes of a count that its word cannot hold. -/
inductive Overflow
  | stops
  /-- The count begins again at zero. -/
  | wraps
  deriving DecidableEq, Repr

/-- The count after one more, if there is one. -/
def Overflow.next? : Overflow → UInt32 → Option UInt32
  | stops, count => if count.toNat + 1 < UInt32.size then some (count + 1) else none
  | wraps, count => some (count + 1)

namespace Wait

/-- A place in the loop of a wait. -/
inductive Place (ε α : Type)
  /-- Where the cancellation and the deadline are looked at. -/
  | head
  /-- Where the next attempt is counted already, and about to be made. -/
  | begun
  | fetched (outcome : Except ε α)
  | ended (result : Except (WaitError ε) α)
  /-- Where the program stops because the next attempt cannot be counted. -/
  | stopped

structure Point (σ ε α : Type) where
  place : Place ε α
  /-- The attempts as the wait counts them. -/
  count : UInt32
  state : σ

namespace Point

variable {σ ε α : Type}

def entered (s : σ) : Point σ ε α := ⟨.head, 0, s⟩

/-- The count of attempts has just gone beyond its word: the program stops over it, or the
attempt that is to be made counts as none. -/
def Overflown (p : Point σ ε α) : Prop :=
  p.place = .stopped ∨ p.place = .begun ∧ p.count = 0

end Point

variable {σ ε α : Type} [Clock σ]

/-- The point that comes next in the loop of a wait; an end is never left. -/
def advance (w : Wait) (overflow : Overflow) (fetch : Action σ ε α) (holds : α → Bool)
    (start deadline : Nat) (p : Point σ ε α) : Point σ ε α :=
  match p.place with
  | .head =>
    if Clock.isCancelled p.state then
      { p with place := .ended (.error (.cancelled w.description)) }
    else if deadline ≤ Clock.now p.state then
      { p with
        place := .ended (.error (.timeout w.description (Clock.now p.state - start))) }
    else match overflow.next? p.count with
      | some count => { p with place := .begun, count }
      | none => { p with place := .stopped }
  | .begun =>
    let (outcome, state) := fetch.exec p.state
    { p with place := .fetched outcome, state }
  | .fetched (.error e) => { p with place := .ended (.error (.fetch e)) }
  | .fetched (.ok a) =>
    if holds a then { p with place := .ended (.ok a) }
    else
      { p with
        place := .head
        state := Clock.sleepUntil (w.wake (Clock.now p.state) deadline) p.state }
  | .ended _ | .stopped => p

end Wait

end MeshProbe
