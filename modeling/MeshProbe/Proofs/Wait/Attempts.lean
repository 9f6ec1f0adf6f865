import MeshProbe.Wait.Basic
import Mathlib.Tactic

/-!
The loop of a wait over any clock: what one turn of it does, and that two
waits whose attempts correspond take the same course. The clock is left
abstract, so the same facts serve scripts, canned interfaces and the world.
-/

namespace MeshProbe.Wait

variable {σ τ ε α : Type} [Clock σ] [Clock τ]

/-- How long a wait that starts at an instant may last: its timeout, or thirty
years where the clock cannot reach the end of that. -/
def span (w : Wait) (start : Nat) : Nat :=
  if start + w.timeout < Instant.limit then w.timeout
  else 30 * 365 * 24 * 60 * 60 * 1000

theorem deadline_eq (w : Wait) (start : Nat) :
    w.deadline start = start + w.span start := by
  unfold deadline span Instant.add?
  by_cases h : start + w.timeout < Instant.limit
  · simp [h]
  · simp [h, Span.far, Span.ofSeconds]

/-- The clock reaches the deadline, provided it reaches the one that stands in for
a deadline out of its reach. -/
theorem deadline_lt_limit (w : Wait) (start : Nat)
    (hfar : Instant.limit ≤ start + w.timeout → start + Span.far < Instant.limit) :
    w.deadline start < Instant.limit := by
  unfold deadline Instant.add?
  by_cases h : start + w.timeout < Instant.limit
  · simp [h]
  · simpa [h] using hfar (Nat.not_lt.mp h)

/-- Below the clock's end the fallback for an unreachable wake-up is no special
case: the deadline comes first anyway. -/
theorem wake_eq (w : Wait) (now deadline : Nat) (h : deadline < Instant.limit) :
    w.wake now deadline = min (now + w.interval) deadline := by
  unfold wake Instant.add?
  by_cases hnext : now + w.interval < Instant.limit
  · simp [hnext]
  · simp only [hnext, if_false]
    omega

/-- A wait sleeps for its interval at least, or else up to its deadline. -/
theorem le_wake (w : Wait) (now deadline : Nat) :
    min (now + w.interval) deadline ≤ w.wake now deadline := by
  unfold wake Instant.add?
  by_cases hnext : now + w.interval < Instant.limit
  · rw [if_pos hnext]
  · rw [if_neg hnext]
    exact Nat.min_le_right _ _

theorem attempts_of_cancelled (w : Wait) (fetch : Action σ ε α) (holds : α → Bool)
    (start deadline fuel : Nat) (s : σ) (hcancelled : Clock.isCancelled s = true) :
    w.attempts fetch holds start deadline fuel s =
      some (.error (.cancelled w.description), s) := by
  cases fuel <;> simp [attempts, hcancelled]

theorem attempts_of_expired (w : Wait) (fetch : Action σ ε α) (holds : α → Bool)
    (start deadline fuel : Nat) (s : σ) (hopen : Clock.isCancelled s = false)
    (hexpired : deadline ≤ Clock.now s) :
    w.attempts fetch holds start deadline fuel s =
      some (.error (.timeout w.description (Clock.now s - start)), s) := by
  cases fuel <;> simp [attempts, hopen, hexpired]

/-- What the outcome of an attempt makes of the wait: an error ends it, and so
does a value that satisfies the condition. -/
def settles (holds : α → Bool) : Except ε α → Bool
  | .ok a => holds a
  | .error _ => true

/-- An attempt that is begun and settles the wait gives its own outcome. -/
theorem attempts_of_settled (w : Wait) (fetch : Action σ ε α) (holds : α → Bool)
    (start deadline fuel : Nat) (s : σ) (hopen : Clock.isCancelled s = false)
    (hintime : Clock.now s < deadline)
    (hsettles : settles holds (fetch.exec s).1 = true) :
    w.attempts fetch holds start deadline (fuel + 1) s =
      some ((fetch.exec s).1.mapError .fetch, (fetch.exec s).2) := by
  rw [attempts]
  simp only [hopen, Bool.false_eq_true, if_false, Nat.not_le.mpr hintime]
  cases hexec : fetch.exec s with
  | mk outcome after =>
    rw [hexec] at hsettles
    cases outcome with
    | error e => rfl
    | ok a =>
      have hholds : holds a = true := hsettles
      simp [hholds, Except.mapError]

/-- An attempt that settles nothing is followed by a sleep and another turn. -/
theorem attempts_of_unsettled (w : Wait) (fetch : Action σ ε α) (holds : α → Bool)
    (start deadline fuel : Nat) (s : σ) (hopen : Clock.isCancelled s = false)
    (hintime : Clock.now s < deadline)
    (hsettles : settles holds (fetch.exec s).1 = false) :
    w.attempts fetch holds start deadline (fuel + 1) s =
      w.attempts fetch holds start deadline fuel
        (Clock.sleepUntil (w.wake (Clock.now (fetch.exec s).2) deadline)
          (fetch.exec s).2) := by
  rw [attempts]
  simp only [hopen, Bool.false_eq_true, if_false, Nat.not_le.mpr hintime]
  cases hexec : fetch.exec s with
  | mk outcome after =>
    rw [hexec] at hsettles
    cases outcome with
    | error e => cases hsettles
    | ok a =>
      have hholds : holds a = false := hsettles
      simp [hholds]

/-- Two states of different clocks that no wait can tell apart, and whose
attempts keep it so. -/
structure Corresponds (R : σ → τ → Prop) (fetch : Action σ ε α)
    (fetch' : Action τ ε α) : Prop where
  now : ∀ {s t}, R s t → Clock.now s = Clock.now t
  cancelled : ∀ {s t}, R s t → Clock.isCancelled s = Clock.isCancelled t
  sleep : ∀ {s t} (wake : Nat), R s t →
    R (Clock.sleepUntil wake s) (Clock.sleepUntil wake t)
  outcome : ∀ {s t}, R s t → (fetch.exec s).1 = (fetch'.exec t).1
  after : ∀ {s t}, R s t → R (fetch.exec s).2 (fetch'.exec t).2

/-- Waits over corresponding attempts end alike: both run out of turns, or both
give the same result in states that still correspond. -/
theorem attempts_correspond {R : σ → τ → Prop} {fetch : Action σ ε α}
    {fetch' : Action τ ε α} (hR : Corresponds R fetch fetch') (w : Wait)
    (holds : α → Bool) (start deadline fuel : Nat) {s : σ} {t : τ} (hst : R s t) :
    Option.Rel (fun x y => x.1 = y.1 ∧ R x.2 y.2)
      (w.attempts fetch holds start deadline fuel s)
      (w.attempts fetch' holds start deadline fuel t) := by
  induction fuel generalizing s t with
  | zero =>
    rw [attempts, attempts, ← hR.now hst, ← hR.cancelled hst]
    split_ifs
    · exact .some ⟨rfl, hst⟩
    · exact .some ⟨rfl, hst⟩
    · exact .none
  | succ fuel ih =>
    rw [attempts, attempts, ← hR.now hst, ← hR.cancelled hst]
    split_ifs
    · exact .some ⟨rfl, hst⟩
    · exact .some ⟨rfl, hst⟩
    · have houtcome := hR.outcome hst
      have hafter := hR.after hst
      cases hexec : fetch.exec s with
      | mk outcome after =>
        cases hexec' : fetch'.exec t with
        | mk outcome' after' =>
          rw [hexec, hexec'] at houtcome hafter
          subst houtcome
          cases outcome with
          | error e => exact .some ⟨rfl, hafter⟩
          | ok a =>
            simp only
            split_ifs
            · exact .some ⟨rfl, hafter⟩
            · rw [← hR.now hafter]
              exact ih (hR.sleep _ hafter)

theorem run_correspond {R : σ → τ → Prop} {fetch : Action σ ε α}
    {fetch' : Action τ ε α} (hR : Corresponds R fetch fetch') (w : Wait)
    (holds : α → Bool) (extra : Nat) {s : σ} {t : τ} (hst : R s t) :
    Option.Rel (fun x y => x.1 = y.1 ∧ R x.2 y.2)
      (w.run fetch holds extra s) (w.run fetch' holds extra t) := by
  unfold run
  rw [← hR.now hst]
  exact attempts_correspond hR w holds _ _ _ hst

/-- As a step of its own, a wait that comes to an end is that end. -/
theorem exec_action {w : Wait} {fetch : Action σ ε α} {holds : α → Bool} {s final : σ}
    {result : Except (WaitError ε) α}
    (hrun : w.run fetch holds 0 s = some (result, final)) :
    (w.action fetch holds).exec s = (result, final) := by
  change (w.run fetch holds 0 s).getD _ = _
  rw [hrun]
  rfl

/-- Time does not run back in a wait if it does so neither in an attempt nor in a
sleep. -/
theorem attempts_now_le (w : Wait) {fetch : Action σ ε α} (holds : α → Bool)
    (hfetch : ∀ s, Clock.now s ≤ Clock.now (fetch.exec s).2)
    (hsleep : ∀ wake (s : σ), Clock.now s ≤ Clock.now (Clock.sleepUntil wake s))
    (start deadline fuel : Nat) {s final : σ} {result : Except (WaitError ε) α}
    (hrun : w.attempts fetch holds start deadline fuel s = some (result, final)) :
    Clock.now s ≤ Clock.now final := by
  induction fuel generalizing s with
  | zero =>
    rw [attempts] at hrun
    split_ifs at hrun
    · cases hrun
      exact Nat.le_refl _
    · cases hrun
      exact Nat.le_refl _
  | succ fuel ih =>
    rw [attempts] at hrun
    split_ifs at hrun
    · cases hrun
      exact Nat.le_refl _
    · cases hrun
      exact Nat.le_refl _
    · have hafter := hfetch s
      cases hexec : fetch.exec s with
      | mk outcome after =>
        rw [hexec] at hrun hafter
        cases outcome with
        | error e =>
          cases hrun
          exact hafter
        | ok a =>
          simp only at hrun
          split_ifs at hrun
          · cases hrun
            exact hafter
          · exact hafter.trans ((hsleep _ after).trans (ih hrun))

theorem action_now_le (w : Wait) {fetch : Action σ ε α} (holds : α → Bool)
    (hfetch : ∀ s, Clock.now s ≤ Clock.now (fetch.exec s).2)
    (hsleep : ∀ wake (s : σ), Clock.now s ≤ Clock.now (Clock.sleepUntil wake s)) (s : σ) :
    Clock.now s ≤ Clock.now ((w.action fetch holds).exec s).2 := by
  cases hrun : w.run fetch holds 0 s with
  | none =>
    -- A wait that never ends leaves the state as it was.
    change Clock.now s ≤ Clock.now ((w.run fetch holds 0 s).getD _).2
    rw [hrun]
    exact Nat.le_refl _
  | some finished =>
    obtain ⟨result, final⟩ := finished
    rw [exec_action hrun]
    exact attempts_now_le w holds hfetch hsleep _ _ _ hrun

end MeshProbe.Wait
