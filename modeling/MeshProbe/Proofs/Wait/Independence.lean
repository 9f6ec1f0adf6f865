import MeshProbe.Proofs.Wait.Together
import Mathlib.Algebra.Order.BigOperators.Group.Finset

/-!
Waits that run side by side do not influence each other: in whatever order they are
polled, each comes to the end that it comes to by itself. What carries the proof is what
is left of a wait between two polls, which neither its own polls nor the clock change.
-/

namespace MeshProbe.Together

open Script

section Waiter

variable {ε α : Type}

/-- What is left of a wait between two polls, if from now on it is run by itself and
begins at most so many attempts more. -/
def Job.left (job : Job ε α) (fuel now : Nat) (x : Waiter ε α) :
    Option (Except (WaitError ε) α × State) :=
  match x.phase with
  | .fresh => job.rest now fuel ⟨now, x.cancelAt, x.starts⟩
  | .turning start => job.rest start fuel ⟨now, x.cancelAt, x.starts⟩
  | .attempting start a ends =>
    job.conclude start fuel a ⟨ends, a.cancelAfter ends x.cancelAt, x.starts⟩
  | .sleeping start wake =>
    job.rest start fuel (State.sleepUntil wake ⟨now, x.cancelAt, x.starts⟩)
  | .finished result finish => some (result, ⟨finish, x.cancelAt, x.starts⟩)

/-- How often a wait is polled at most before it is over: three times for each attempt,
its beginning, its end and the end of the sleep after it. -/
def Phase.polls (fuel : Nat) : Phase ε α → Nat
  | .fresh => 3 * fuel + 2
  | .turning _ => 3 * fuel + 1
  | .attempting _ _ _ => 3 * fuel + 3
  | .sleeping _ _ => 3 * fuel + 2
  | .finished _ _ => 0

/-- An attempt under way is not past its end. -/
def Phase.Punctual (now : Nat) : Phase ε α → Prop
  | .attempting _ _ ends => now ≤ ends
  | _ => True

/-- A wait is on its way to an end, at most so many polls away. -/
structure Job.Heads (job : Job ε α) (goal : Except (WaitError ε) α × State)
    (now polls : Nat) (x : Waiter ε α) : Prop where
  punctual : x.phase.Punctual now
  left : ∃ fuel, x.phase.polls fuel = polls ∧ job.left fuel now x = some goal

variable {job : Job ε α} {goal : Except (WaitError ε) α × State}
variable {now polls start : Nat} {cancelAt : Option Nat} {starts : List Nat}

theorem Job.Heads.poll_turning
    (h : job.Heads goal now polls ⟨.turning start, cancelAt, starts⟩) :
    ∃ fewer < polls,
      job.Heads goal now fewer (job.poll now ⟨.turning start, cancelAt, starts⟩) := by
  obtain ⟨fuel, hpolls, hleft⟩ := h.left
  let s : State := ⟨now, cancelAt, starts⟩
  change job.rest start fuel s = some goal at hleft
  have hsome : 0 < polls := by
    rw [← hpolls]
    exact Nat.succ_pos _
  unfold Job.poll
  simp only
  cases hcancelled : s.cancelled with
  | true =>
    rw [rest_of_cancelled job start fuel hcancelled] at hleft
    rw [if_pos rfl]
    exact ⟨0, hsome, trivial, 0, rfl, hleft⟩
  | false =>
    rw [if_neg Bool.false_ne_true]
    rcases Nat.lt_or_ge now (job.wait.deadline start) with hintime | hexpired
    · rw [if_neg (Nat.not_le.mpr hintime)]
      cases fuel with
      | zero =>
        rw [rest_zero job start hcancelled hintime] at hleft
        cases hleft
      | succ fuel =>
        rw [rest_of_open job start fuel hcancelled hintime] at hleft
        refine ⟨3 * fuel + 3, ?_, Nat.le_add_right _ _, fuel, rfl, hleft⟩
        rw [← hpolls]
        exact Nat.lt_succ_self _
    · rw [rest_of_expired job start fuel hcancelled hexpired] at hleft
      rw [if_pos hexpired]
      exact ⟨0, hsome, trivial, 0, rfl, hleft⟩

theorem Job.Heads.poll_attempting {a : Attempt ε α} {ends : Nat}
    (h : job.Heads goal now polls ⟨.attempting start a ends, cancelAt, starts⟩)
    (hended : ends ≤ now) :
    ∃ fewer < polls,
      job.Heads goal now fewer (job.poll now ⟨.attempting start a ends, cancelAt, starts⟩) := by
  obtain ⟨fuel, hpolls, hleft⟩ := h.left
  have hnow : ends = now := Nat.le_antisymm hended h.punctual
  subst hnow
  change job.conclude start fuel a ⟨ends, a.cancelAfter ends cancelAt, starts⟩ =
    some goal at hleft
  have hsome : 3 * fuel + 2 < polls := by
    rw [← hpolls]
    exact Nat.lt_succ_self _
  unfold Job.conclude at hleft
  unfold Job.poll
  simp only
  cases houtcome : a.outcome with
  | error e =>
    rw [houtcome] at hleft
    exact ⟨0, Nat.zero_lt_of_lt hsome, trivial, 0, rfl, hleft⟩
  | ok value =>
    rw [houtcome] at hleft
    simp only
    split
    · case isTrue hholds =>
      rw [if_pos (show Wait.settles job.holds (.ok value) = true from hholds)] at hleft
      exact ⟨0, Nat.zero_lt_of_lt hsome, trivial, 0, rfl, hleft⟩
    · case isFalse hholds =>
      rw [if_neg (show ¬ Wait.settles job.holds (.ok value) = true from hholds)] at hleft
      exact ⟨3 * fuel + 2, hsome, trivial, fuel, rfl, hleft⟩

/-- A sleep that is over, for one reason or the other, leaves the clock where it is. -/
theorem sleepUntil_of_due {wake : Nat} {s : State}
    (h : s.cancelAt.elim wake (min wake) ≤ s.now) : s.sleepUntil wake = s := by
  rw [State.sleepUntil_eq, Nat.max_eq_left h]

/-- A sleep does not notice that the clock advances in the meantime. -/
theorem sleepUntil_of_later {wake now later : Nat} {cancelAt : Option Nat}
    (starts : List Nat) (hlater : now ≤ later)
    (hdue : later ≤ cancelAt.elim wake (min wake)) :
    State.sleepUntil wake ⟨later, cancelAt, starts⟩ =
      State.sleepUntil wake ⟨now, cancelAt, starts⟩ := by
  rw [State.sleepUntil_eq, State.sleepUntil_eq]
  simp only [Nat.max_eq_right hdue, Nat.max_eq_right (hlater.trans hdue)]

theorem le_sleepUntil {wake : Nat} {s : State} :
    s.cancelAt.elim wake (min wake) ≤ (s.sleepUntil wake).now := by
  rw [State.sleepUntil_eq]
  exact Nat.le_max_right _ _

/-- A poll of a wait that can go on takes it nearer to its end. -/
theorem Job.Heads.poll {x : Waiter ε α} (h : job.Heads goal now polls x)
    (hready : x.Ready now) :
    ∃ fewer < polls, job.Heads goal now fewer (job.poll now x) := by
  obtain ⟨phase, cancelAt, starts⟩ := x
  obtain ⟨due, hdue, hnow⟩ := hready
  cases phase with
  | fresh =>
    obtain ⟨fuel, hpolls, hleft⟩ := h.left
    refine ⟨3 * fuel + 1, ?_, trivial, fuel, rfl, hleft⟩
    rw [← hpolls]
    exact Nat.lt_succ_self _
  | turning start => exact h.poll_turning
  | attempting start a ends =>
    have hends : ends = due := Option.some.inj hdue
    exact h.poll_attempting (hends ▸ hnow)
  | sleeping start wake =>
    obtain ⟨fuel, hpolls, hleft⟩ := h.left
    have hwoken : cancelAt.elim wake (min wake) = due := Option.some.inj hdue
    change job.rest start fuel (State.sleepUntil wake ⟨now, cancelAt, starts⟩) =
      some goal at hleft
    rw [sleepUntil_of_due (hwoken ▸ hnow)] at hleft
    refine ⟨3 * fuel + 1, ?_, trivial, fuel, rfl, hleft⟩
    rw [← hpolls]
    exact Nat.lt_succ_self _
  | finished result finish => cases hdue

/-- A wait that cannot go on does not notice that the clock advances, provided it does
not pass the instant from which on the wait can. -/
theorem Job.Heads.advance {x : Waiter ε α} (h : job.Heads goal now polls x)
    (hidle : ¬ x.Ready now) {instant : Nat} (hlater : now ≤ instant)
    (hwithin : ∀ due ∈ x.due, instant ≤ due) : job.Heads goal instant polls x := by
  obtain ⟨phase, cancelAt, starts⟩ := x
  obtain ⟨fuel, hpolls, hleft⟩ := h.left
  cases phase with
  | fresh => exact absurd ⟨0, rfl, Nat.zero_le _⟩ hidle
  | turning start => exact absurd ⟨0, rfl, Nat.zero_le _⟩ hidle
  | attempting start a ends => exact ⟨hwithin ends rfl, fuel, hpolls, hleft⟩
  | sleeping start wake =>
    refine ⟨trivial, fuel, hpolls, ?_⟩
    change job.rest start fuel (State.sleepUntil wake ⟨instant, cancelAt, starts⟩) = _
    rw [sleepUntil_of_later starts hlater (hwithin _ rfl)]
    exact hleft
  | finished result finish => exact ⟨trivial, fuel, hpolls, hleft⟩

theorem le_of_rest {fuel : Nat} {s : State} (h : job.rest start fuel s = some goal) :
    s.now ≤ goal.2.now := by
  refine Wait.attempts_now_le job.wait job.holds ?_ ?_ _ _ _ h
  · intro s
    exact Nat.le_add_right _ _
  · intro wake s
    exact Nat.le_max_left _ _

theorem le_of_conclude {fuel : Nat} {a : Attempt ε α} {s : State}
    (h : job.conclude start fuel a s = some goal) : s.now ≤ goal.2.now := by
  unfold Job.conclude at h
  split at h
  · cases h
    exact Nat.le_refl _
  · exact (Nat.le_max_left _ _).trans (le_of_rest h)

/-- A wait never waits for an instant after its end. -/
theorem Job.Heads.due_le {x : Waiter ε α} (h : job.Heads goal now polls x) {due : Nat}
    (hdue : due ∈ x.due) : due ≤ goal.2.now := by
  obtain ⟨phase, cancelAt, starts⟩ := x
  obtain ⟨fuel, hpolls, hleft⟩ := h.left
  cases phase with
  | fresh =>
    cases hdue
    exact Nat.zero_le _
  | turning start =>
    cases hdue
    exact Nat.zero_le _
  | attempting start a ends =>
    cases hdue
    exact le_of_conclude hleft
  | sleeping start wake =>
    cases hdue
    exact le_sleepUntil.trans (le_of_rest hleft)
  | finished result finish => cases hdue

end Waiter

/-! ### The family -/

section Joint

variable {ι : Type} {ε α : ι → Type}
variable {jobs : (i : ι) → Job (ε i) (α i)} {entry : Nat}

/-- All waits of a family are on their way, each to its own end. -/
def Joint.Heads (jobs : (i : ι) → Job (ε i) (α i))
    (goal : (i : ι) → Except (WaitError (ε i)) (α i) × State) (polls : ι → Nat)
    (j : Joint ι ε α) : Prop :=
  ∀ i, (jobs i).Heads (goal i) j.now (polls i) (j.waiter i)

variable {goal : (i : ι) → Except (WaitError (ε i)) (α i) × State}

theorem start_heads (hgoal : ∀ i, (jobs i).alone entry 0 = some (goal i)) :
    Joint.Heads jobs goal
      (fun i => 3 * ((jobs i).wait.deadline entry - entry) + 2) (Joint.start jobs entry) :=
  fun i => ⟨trivial, (jobs i).wait.deadline entry - entry, rfl, hgoal i⟩

/-- A wait that is over has come to its end. -/
theorem Joint.Heads.finished {polls : ι → Nat} {j : Joint ι ε α}
    (h : j.Heads jobs goal polls) {i : ι} {result : Except (WaitError (ε i)) (α i)}
    {finish : Nat} (hphase : (j.waiter i).phase = .finished result finish) :
    result = (goal i).1 ∧ finish = (goal i).2.now ∧
      (j.waiter i).starts = (goal i).2.starts := by
  obtain ⟨fuel, -, hleft⟩ := (h i).left
  unfold Job.left at hleft
  rw [hphase] at hleft
  have hgoal := Option.some.inj hleft
  rw [← hgoal]
  exact ⟨rfl, rfl, rfl⟩

variable [Fintype ι]

/-- The polls that are left and the time until the last wait ends. -/
def remaining (goal : (i : ι) → Except (WaitError (ε i)) (α i) × State) (polls : ι → Nat)
    (now : Nat) : Nat :=
  ∑ i, polls i + (Finset.univ.sup (fun i => (goal i).2.now) - now)

variable [DecidableEq ι]

/-- Every step keeps all waits on their ways and brings one of them nearer to its end. -/
theorem Joint.Heads.step {polls : ι → Nat} {j j' : Joint ι ε α}
    (h : j.Heads jobs goal polls) (hstep : Step jobs j j') :
    ∃ fewer, j'.Heads jobs goal fewer ∧
      remaining goal fewer j'.now < remaining goal polls j.now := by
  cases hstep with
  | poll i ready =>
    obtain ⟨fewer, hfewer, hheads⟩ := (h i).poll ready
    refine ⟨Function.update polls i fewer, ?_, ?_⟩
    · intro k
      rcases eq_or_ne k i with rfl | hk
      · simpa using hheads
      · simpa [hk] using h k
    · apply Nat.add_lt_add_right
      apply Finset.sum_lt_sum
      · intro k _
        rcases eq_or_ne k i with rfl | hk
        · simpa using hfewer.le
        · simp [hk]
      · exact ⟨i, Finset.mem_univ i, by simpa using hfewer⟩
  | @advance instant idle next earliest =>
    obtain ⟨i, hi⟩ := next
    have hlater : j.now < instant := Nat.lt_of_not_le fun hle => idle i ⟨instant, hi, hle⟩
    have hend : instant ≤ Finset.univ.sup fun i => (goal i).2.now :=
      ((h i).due_le hi).trans
        (Finset.le_sup (f := fun i => (goal i).2.now) (Finset.mem_univ i))
    refine ⟨polls, fun k => (h k).advance (idle k) hlater.le (earliest k), ?_⟩
    apply Nat.add_lt_add_left
    exact Nat.sub_lt_sub_left (hlater.trans_le hend) hlater

/-- What holds of every state that the waits come to. -/
theorem Reached.heads (hgoal : ∀ i, (jobs i).alone entry 0 = some (goal i)) {n : Nat}
    {j : Joint ι ε α} (h : Reached jobs entry n j) :
    ∃ polls, j.Heads jobs goal polls ∧
      n + remaining goal polls j.now ≤
        remaining goal (fun i => 3 * ((jobs i).wait.deadline entry - entry) + 2) entry := by
  induction h with
  | start => exact ⟨_, start_heads hgoal, (Nat.zero_add _).le⟩
  | step prior next ih =>
    obtain ⟨polls, hheads, hbound⟩ := ih
    obtain ⟨fewer, hfewer, hless⟩ := hheads.step next
    exact ⟨fewer, hfewer, by omega⟩

/-- As long as one wait is not over, something can happen. -/
theorem exists_step (jobs : (i : ι) → Job (ε i) (α i)) (j : Joint ι ε α) {i : ι}
    (hpending : ¬ (j.waiter i).Over) : ∃ j', Step jobs j j' := by
  by_cases hready : ∃ k, (j.waiter k).Ready j.now
  · obtain ⟨k, hk⟩ := hready
    exact ⟨_, .poll k hk⟩
  · -- The clock advances to the least of the instants that the waits wait for.
    have hidle : ∀ k, ¬ (j.waiter k).Ready j.now := not_exists.mp hready
    let waiting := Finset.univ.filter fun k => (j.waiter k).due.isSome
    have hi : i ∈ waiting := by
      rw [Finset.mem_filter]
      refine ⟨Finset.mem_univ i, Option.isSome_iff_ne_none.mpr fun hnone => ?_⟩
      exact hpending (Waiter.over_of_due_eq_none hnone)
    obtain ⟨k, hk, hleast⟩ :=
      Finset.exists_min_image waiting (fun k => (j.waiter k).due.getD 0) ⟨i, hi⟩
    obtain ⟨instant, hinstant⟩ := Option.isSome_iff_exists.mp (Finset.mem_filter.mp hk).2
    refine ⟨_, .advance hidle ⟨k, hinstant⟩ fun l due hdue => ?_⟩
    have hl : l ∈ waiting :=
      Finset.mem_filter.mpr ⟨Finset.mem_univ l, Option.isSome_of_mem hdue⟩
    have hle := hleast l hl
    rw [hinstant, Option.mem_def.mp hdue] at hle
    exact hle

/-- However the waits are polled, all of them are over in the end. -/
theorem Reached.exists_over {bound : Nat}
    (hbound : ∀ n j, Reached jobs entry n j → n ≤ bound) {n : Nat} {j : Joint ι ε α}
    (h : Reached jobs entry n j) :
    ∃ m j', Reached jobs entry m j' ∧ ∀ i, (j'.waiter i).Over := by
  obtain ⟨k, hk⟩ := Nat.exists_eq_add_of_le (hbound n j h)
  induction k generalizing n j with
  | zero =>
    refine ⟨n, j, h, fun i => ?_⟩
    by_contra hpending
    obtain ⟨j', hstep⟩ := exists_step jobs j hpending
    have hn := hbound _ _ (h.step hstep)
    omega
  | succ k ih =>
    by_cases hover : ∀ i, (j.waiter i).Over
    · exact ⟨n, j, h, hover⟩
    · obtain ⟨i, hpending⟩ := not_forall.mp hover
      obtain ⟨j', hstep⟩ := exists_step jobs j hpending
      exact ih (h.step hstep) (by omega)

end Joint

/-- For every finite family of waits with positive intervals, started together: whatever
their timeouts, their attempts, what satisfies them and what cancels them, and in whatever
order those that can go on at one instant are polled, each gives the result that it gives
by itself, at the same instant and after attempts begun at the same instants. No run goes
on forever, and one that stops has brought all of them to their ends. -/
theorem together_as_alone {ι : Type} [Fintype ι] [DecidableEq ι] {ε α : ι → Type}
    (jobs : (i : ι) → Job (ε i) (α i)) (entry : Nat)
    (hinterval : ∀ i, 0 < (jobs i).wait.interval) :
    ∃ alone : (i : ι) → Except (WaitError (ε i)) (α i) × State,
      (∀ i extra, (jobs i).alone entry extra = some (alone i)) ∧
      (∃ bound, ∀ n j, Reached jobs entry n j → n ≤ bound) ∧
      (∃ n j, Reached jobs entry n j ∧ ∀ i, (j.waiter i).Over) ∧
      ∀ n j, Reached jobs entry n j →
        ((∀ i, (j.waiter i).Over) ∨ ∃ j', Step jobs j j') ∧
        ∀ i result finish, (j.waiter i).phase = .finished result finish →
          result = (alone i).1 ∧ finish = (alone i).2.now ∧
            (j.waiter i).starts = (alone i).2.starts := by
  choose alone halone using fun i => exists_alone (jobs i) (hinterval i) entry
  have hheads {n : Nat} {j : Joint ι ε α} (h : Reached jobs entry n j) :=
    h.heads fun i => halone i 0
  have hbound : ∀ n j, Reached jobs entry n j →
      n ≤ remaining alone
        (fun i => 3 * ((jobs i).wait.deadline entry - entry) + 2) entry := by
    intro n j h
    obtain ⟨polls, -, hle⟩ := hheads h
    exact (Nat.le_add_right _ _).trans hle
  refine ⟨alone, halone, ⟨_, hbound⟩, Reached.start.exists_over hbound, fun n j h => ?_⟩
  constructor
  · by_cases hover : ∀ i, (j.waiter i).Over
    · exact Or.inl hover
    · obtain ⟨i, hpending⟩ := not_forall.mp hover
      exact Or.inr (exists_step jobs j hpending)
  · intro i result finish hphase
    obtain ⟨polls, hj, -⟩ := hheads h
    exact hj.finished hphase

/-- A wait that is never satisfied, one that is at its fifth attempt and one that is
cancelled while it sleeps, with wake-ups that coincide. -/
def threeWaits : Fin 3 → Job String Nat
  | 0 => ⟨⟨"fast", 2000, 1000⟩, fun k => ⟨0, .ok k, false⟩, fun _ => false, none⟩
  | 1 => ⟨⟨"slow", 10000, 1000⟩, fun k => ⟨0, .ok k, false⟩, fun k => 4 ≤ k, none⟩
  | 2 =>
    ⟨⟨"stopped", 10000, 1500⟩, fun k => ⟨500, .ok k, false⟩, fun _ => false, some 3000⟩

theorem together_as_alone_of_threeWaits :
    (∀ i, 0 < (threeWaits i).wait.interval) ∧
    (∃ n j, Reached threeWaits 0 n j ∧ ∀ i, (j.waiter i).Over) ∧
    ∀ n j, Reached threeWaits 0 n j → (∀ i, (j.waiter i).Over) →
      (j.waiter 0).phase = .finished (.error (.timeout "fast" 2000)) 2000 ∧
      (j.waiter 0).starts = [1000, 0] ∧
      (j.waiter 1).phase = .finished (.ok 4) 4000 ∧
      (j.waiter 1).starts = [4000, 3000, 2000, 1000, 0] ∧
      (j.waiter 2).phase = .finished (.error (.cancelled "stopped")) 3000 ∧
      (j.waiter 2).starts = [2000, 0] := by
  have hinterval : ∀ i, 0 < (threeWaits i).wait.interval := by decide
  obtain ⟨alone, halone, -, hends, hreached⟩ := together_as_alone threeWaits 0 hinterval
  refine ⟨hinterval, hends, fun n j h hover => ?_⟩
  have hfast : (threeWaits 0).alone 0 0 =
      some (.error (.timeout "fast" 2000), ⟨2000, none, [1000, 0]⟩) := by
    decide +kernel
  have hslow : (threeWaits 1).alone 0 0 =
      some (.ok 4, ⟨4000, none, [4000, 3000, 2000, 1000, 0]⟩) := by
    decide +kernel
  have hstopped : (threeWaits 2).alone 0 0 =
      some (.error (.cancelled "stopped"), ⟨3000, some 3000, [2000, 0]⟩) := by
    decide +kernel
  have hend (i : Fin 3) : (j.waiter i).phase = .finished (alone i).1 (alone i).2.now ∧
      (j.waiter i).starts = (alone i).2.starts := by
    obtain ⟨result, finish, hphase⟩ := hover i
    obtain ⟨rfl, rfl, hstarts⟩ := (hreached n j h).2 i result finish hphase
    exact ⟨hphase, hstarts⟩
  have h0 := hend 0
  have h1 := hend 1
  have h2 := hend 2
  rw [← Option.some.inj (hfast.symm.trans (halone 0 0))] at h0
  rw [← Option.some.inj (hslow.symm.trans (halone 1 0))] at h1
  rw [← Option.some.inj (hstopped.symm.trans (halone 2 0))] at h2
  exact ⟨h0.1, h0.2, h1.1, h1.2, h2.1, h2.2⟩

end MeshProbe.Together
