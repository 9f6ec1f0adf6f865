import MeshProbe.Proofs.Wait.Timeline

/-!
Waits that run side by side on one clock. A wait goes on when it is polled, reads the
clock then, and says from which instant on it can go on again. The clock stands still
as long as some wait can go on; in which order those are polled is left open.
-/

namespace MeshProbe.Script

variable {ε α : Type}

/-- What an attempt that ends at an instant makes of the cancellation. -/
def Attempt.cancelAfter (a : Attempt ε α) (ends : Nat) (cancelAt : Option Nat) : Option Nat :=
  if a.cancels then some (min ends (cancelAt.getD ends)) else cancelAt

theorem State.sleepUntil_eq (wake : Nat) (s : State) :
    s.sleepUntil wake = { s with now := max s.now (s.cancelAt.elim wake (min wake)) } := by
  obtain ⟨now, cancelAt, starts⟩ := s
  cases cancelAt with
  | none => rfl
  | some c => rfl

end MeshProbe.Script

namespace MeshProbe.Together

open Script

/-! ### One wait among others -/

/-- A wait to be run: its settings, its attempts and what satisfies it, and the instant
at which its token is cancelled from outside, if it is. -/
structure Job (ε α : Type) where
  wait : Wait
  script : Nat → Attempt ε α
  holds : α → Bool
  cancelAt : Option Nat

/-- Where a wait stands between two polls. -/
inductive Phase (ε α : Type)
  /-- It was not polled yet. -/
  | fresh
  /-- It is at the head of its loop. -/
  | turning (start : Nat)
  /-- It made an attempt that is under way until an instant. -/
  | attempting (start : Nat) (attempt : Attempt ε α) (ends : Nat)
  /-- It sleeps until an instant, or until its token is cancelled. -/
  | sleeping (start wake : Nat)
  | finished (result : Except (WaitError ε) α) (finish : Nat)

structure Waiter (ε α : Type) where
  phase : Phase ε α
  /-- The instant of the cancellation, if one is due or past. -/
  cancelAt : Option Nat
  /-- When the attempts so far began, the latest first. -/
  starts : List Nat

variable {ε α : Type}

namespace Waiter

/-- The instant from which on a wait can go on, if it is not over. -/
def due (x : Waiter ε α) : Option Nat :=
  match x.phase with
  | .fresh | .turning _ => some 0
  | .attempting _ _ ends => some ends
  | .sleeping _ wake => some (x.cancelAt.elim wake (min wake))
  | .finished _ _ => none

def Ready (now : Nat) (x : Waiter ε α) : Prop := ∃ instant ∈ x.due, instant ≤ now

def Over (x : Waiter ε α) : Prop := ∃ result finish, x.phase = .finished result finish

theorem over_of_due_eq_none {x : Waiter ε α} (h : x.due = none) : x.Over := by
  obtain ⟨phase, cancelAt, starts⟩ := x
  cases phase with
  | finished result finish => exact ⟨result, finish, rfl⟩
  | fresh => cases h
  | turning start => cases h
  | attempting start attempt ends => cases h
  | sleeping start wake => cases h

end Waiter

/-- What a wait does when it is polled at an instant, up to where it may have to wait
again. -/
def Job.poll (job : Job ε α) (now : Nat) (x : Waiter ε α) : Waiter ε α :=
  match x.phase with
  | .fresh => { x with phase := .turning now }
  | .turning start =>
    if State.cancelled ⟨now, x.cancelAt, x.starts⟩ then
      { x with phase := .finished (.error (.cancelled job.wait.description)) now }
    else if job.wait.deadline start ≤ now then
      { x with phase := .finished (.error (.timeout job.wait.description (now - start))) now }
    else
      let a := job.script x.starts.length
      { x with phase := .attempting start a (now + a.duration), starts := now :: x.starts }
  | .attempting start a _ =>
    let cancelAt := a.cancelAfter now x.cancelAt
    match a.outcome with
    | .error e => { x with phase := .finished (.error (.fetch e)) now, cancelAt }
    | .ok value =>
      if job.holds value then { x with phase := .finished (.ok value) now, cancelAt }
      else
        { x with
          phase := .sleeping start (job.wait.wake now (job.wait.deadline start)), cancelAt }
  | .sleeping start _ => { x with phase := .turning start }
  | .finished _ _ => x

/-! ### All waits together -/

/-- The clock and the waits of a family, each with errors and values of its own kind. -/
structure Joint (ι : Type) (ε α : ι → Type) where
  now : Nat
  waiter : (i : ι) → Waiter (ε i) (α i)

section Joint

variable {ι : Type} {ε α : ι → Type}
variable (jobs : (i : ι) → Job (ε i) (α i)) (entry : Nat)

def Joint.start : Joint ι ε α := ⟨entry, fun i => ⟨.fresh, (jobs i).cancelAt, []⟩⟩

variable [DecidableEq ι]

/-- What may happen next. -/
inductive Step : Joint ι ε α → Joint ι ε α → Prop
  /-- Any wait that can go on is polled. To poll one again before the others, as long as
  it can go on, is one order among many. -/
  | poll {j : Joint ι ε α} (i : ι) (ready : (j.waiter i).Ready j.now) :
      Step j { j with
        waiter := Function.update j.waiter i ((jobs i).poll j.now (j.waiter i)) }
  /-- None can go on, and the clock advances to the first instant at which one can. -/
  | advance {j : Joint ι ε α} {instant : Nat}
      (idle : ∀ i, ¬ (j.waiter i).Ready j.now)
      (next : ∃ i, instant ∈ (j.waiter i).due)
      (earliest : ∀ i, ∀ due ∈ (j.waiter i).due, instant ≤ due) :
      Step j { j with now := instant }

/-- The states that the waits come to in so many steps when all are started at once. -/
inductive Reached : Nat → Joint ι ε α → Prop
  | start : Reached 0 (Joint.start jobs entry)
  | step {n : Nat} {j j' : Joint ι ε α} (prior : Reached n j) (next : Step jobs j j') :
      Reached (n + 1) j'

end Joint

/-- The wait run by itself. -/
def Job.alone (job : Job ε α) (entry extra : Nat) :
    Option (Except (WaitError ε) α × State) :=
  job.wait.run (attempt job.script) job.holds extra ⟨entry, job.cancelAt, []⟩

/-! ### The rest of a wait -/

/-- What is left of a wait that stands at the head of its loop, run by itself. -/
def Job.rest (job : Job ε α) (start fuel : Nat) (s : State) :
    Option (Except (WaitError ε) α × State) :=
  job.wait.attempts (attempt job.script) job.holds start (job.wait.deadline start) fuel s

/-- What is left of it when an attempt has just ended. -/
def Job.conclude (job : Job ε α) (start fuel : Nat) (a : Attempt ε α) (s : State) :
    Option (Except (WaitError ε) α × State) :=
  if Wait.settles job.holds a.outcome then some (a.outcome.mapError .fetch, s)
  else job.rest start fuel
    (Clock.sleepUntil (job.wait.wake s.now (job.wait.deadline start)) s)

section Rest

variable (job : Job ε α) (start : Nat)

theorem rest_of_cancelled (fuel : Nat) {s : State} (h : s.cancelled = true) :
    job.rest start fuel s = some (.error (.cancelled job.wait.description), s) :=
  job.wait.attempts_of_cancelled _ _ _ _ fuel s h

theorem rest_of_expired (fuel : Nat) {s : State} (hopen : s.cancelled = false)
    (hexpired : job.wait.deadline start ≤ s.now) :
    job.rest start fuel s =
      some (.error (.timeout job.wait.description (s.now - start)), s) :=
  job.wait.attempts_of_expired _ _ _ _ fuel s hopen hexpired

theorem rest_of_open (fuel : Nat) {s : State} (hopen : s.cancelled = false)
    (hintime : s.now < job.wait.deadline start) :
    job.rest start (fuel + 1) s =
      job.conclude start fuel (job.script s.starts.length)
        (s.ended (job.script s.starts.length)) := by
  unfold Job.conclude
  split
  · case isTrue hsettles =>
    exact job.wait.attempts_of_settled _ _ _ _ fuel s hopen hintime hsettles
  · case isFalse hsettles =>
    exact job.wait.attempts_of_unsettled _ _ _ _ fuel s hopen hintime
      (Bool.eq_false_of_not_eq_true hsettles)

theorem rest_zero {s : State} (hopen : s.cancelled = false)
    (hintime : s.now < job.wait.deadline start) : job.rest start 0 s = none := by
  have hisCancelled : Clock.isCancelled s = false := hopen
  have hnow : ¬ job.wait.deadline start ≤ Clock.now s := Nat.not_le.mpr hintime
  unfold Job.rest
  rw [Wait.attempts]
  simp only [hisCancelled, Bool.false_eq_true, if_false, hnow]

/-- More turns than are needed make no difference. -/
theorem rest_add {fuel : Nat} (more : Nat) {s : State}
    {goal : Except (WaitError ε) α × State} (h : job.rest start fuel s = some goal) :
    job.rest start (fuel + more) s = some goal := by
  induction fuel generalizing s with
  | zero =>
    cases hcancelled : s.cancelled with
    | true =>
      rw [rest_of_cancelled job start _ hcancelled] at h ⊢
      exact h
    | false =>
      rcases Nat.lt_or_ge s.now (job.wait.deadline start) with hintime | hexpired
      · rw [rest_zero job start hcancelled hintime] at h
        cases h
      · rw [rest_of_expired job start _ hcancelled hexpired] at h ⊢
        exact h
  | succ fuel ih =>
    cases hcancelled : s.cancelled with
    | true =>
      rw [rest_of_cancelled job start _ hcancelled] at h ⊢
      exact h
    | false =>
      rcases Nat.lt_or_ge s.now (job.wait.deadline start) with hintime | hexpired
      · rw [rest_of_open job start fuel hcancelled hintime] at h
        rw [Nat.succ_add, rest_of_open job start _ hcancelled hintime]
        unfold Job.conclude at h ⊢
        split
        · case isTrue hsettles =>
          rw [if_pos hsettles] at h
          exact h
        · case isFalse hsettles =>
          rw [if_neg hsettles] at h
          exact ih h
      · rw [rest_of_expired job start _ hcancelled hexpired] at h ⊢
        exact h

/-- A turn for each millisecond up to the deadline is enough. -/
theorem exists_rest (hinterval : 0 < job.wait.interval) {fuel : Nat} {s : State}
    (hfuel : job.wait.deadline start ≤ s.now + fuel) :
    ∃ goal, job.rest start fuel s = some goal := by
  induction fuel generalizing s with
  | zero =>
    cases hcancelled : s.cancelled with
    | true => exact ⟨_, rest_of_cancelled job start 0 hcancelled⟩
    | false => exact ⟨_, rest_of_expired job start 0 hcancelled hfuel⟩
  | succ fuel ih =>
    cases hcancelled : s.cancelled with
    | true => exact ⟨_, rest_of_cancelled job start _ hcancelled⟩
    | false =>
      rcases Nat.lt_or_ge s.now (job.wait.deadline start) with hintime | hexpired
      swap
      · exact ⟨_, rest_of_expired job start _ hcancelled hexpired⟩
      rw [rest_of_open job start fuel hcancelled hintime]
      unfold Job.conclude
      split
      · exact ⟨_, rfl⟩
      · -- The next turn comes an interval later, or is the last.
        let ended := s.ended (job.script s.starts.length)
        let wake := job.wait.wake ended.now (job.wait.deadline start)
        change ∃ goal, job.rest start fuel (ended.sleepUntil wake) = some goal
        cases hslept : (ended.sleepUntil wake).cancelled with
        | true => exact ⟨_, rest_of_cancelled job start fuel hslept⟩
        | false =>
          apply ih
          have hended : s.now ≤ ended.now := Nat.le_add_right _ _
          have hwake := job.wait.le_wake ended.now (job.wait.deadline start)
          have hwoken : wake ≤ (ended.sleepUntil wake).now := wake_le_of_open hslept
          omega

/-- How a wait goes by itself does not depend on how many turns beyond the necessary ones
it is given. -/
theorem exists_alone (hinterval : 0 < job.wait.interval) (entry : Nat) :
    ∃ goal, ∀ extra, job.alone entry extra = some goal := by
  have hfuel : job.wait.deadline entry ≤ entry + (job.wait.deadline entry - entry) := by
    omega
  obtain ⟨goal, hgoal⟩ := exists_rest job entry hinterval
    (s := ⟨entry, job.cancelAt, []⟩) hfuel
  exact ⟨goal, fun extra => rest_add job entry extra hgoal⟩

end Rest

end MeshProbe.Together
