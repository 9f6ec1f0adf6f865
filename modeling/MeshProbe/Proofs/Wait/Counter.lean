import MeshProbe.Wait.Counter
import MeshProbe.Proofs.Wait.Course
import MeshProbe.Proofs.Wait.Together
import Mathlib.Algebra.Order.Floor.Div

/-!
The count of attempts that a wait keeps in a word of 32 bits. Taken point by point, the
loop of a wait is always on pace: every attempt but the first has an interval behind it.
That bounds the attempts by the intervals begun before the deadline, and so says which
settings are safe for the count. Main statement: `run_counted`.
-/

namespace MeshProbe

theorem Overflow.next?_eq_some {overflow : Overflow} {count next : UInt32}
    (h : overflow.next? count = some next) : next = count + 1 := by
  cases overflow with
  | wraps => exact (Option.some.inj h).symm
  | stops =>
    simp only [next?] at h
    split_ifs at h
    exact (Option.some.inj h).symm

theorem Overflow.next?_eq_none {overflow : Overflow} {count : UInt32}
    (h : overflow.next? count = none) : overflow = .stops ∧ 2 ^ 32 ≤ count.toNat + 1 := by
  cases overflow with
  | wraps => cases h
  | stops =>
    simp only [next?] at h
    split_ifs at h with hfits
    exact ⟨rfl, Nat.not_lt.mp hfits⟩

example : Overflow.wraps.next? 4294967295 = some 0 ∧ Overflow.stops.next? 4294967295 = none := by
  decide

namespace Wait

/-! ### What each point leads to -/

section Advance

variable {σ ε α : Type} [Clock σ]
variable (w : Wait) (overflow : Overflow) (fetch : Action σ ε α) (holds : α → Bool)
variable (start deadline : Nat) (count : UInt32)

theorem advance_of_cancelled {s : σ} (hcancelled : Clock.isCancelled s = true) :
    w.advance overflow fetch holds start deadline ⟨.head, count, s⟩ =
      ⟨.ended (.error (.cancelled w.description)), count, s⟩ := by
  simp [advance, hcancelled]

theorem advance_of_expired {s : σ} (hopen : Clock.isCancelled s = false)
    (hexpired : deadline ≤ Clock.now s) :
    w.advance overflow fetch holds start deadline ⟨.head, count, s⟩ =
      ⟨.ended (.error (.timeout w.description (Clock.now s - start))), count, s⟩ := by
  simp [advance, hopen, hexpired]

theorem advance_of_next {s : σ} {next : UInt32} (hopen : Clock.isCancelled s = false)
    (hintime : Clock.now s < deadline) (hnext : overflow.next? count = some next) :
    w.advance overflow fetch holds start deadline ⟨.head, count, s⟩ = ⟨.begun, next, s⟩ := by
  simp [advance, hopen, Nat.not_le.mpr hintime, hnext]

theorem advance_of_full {s : σ} (hopen : Clock.isCancelled s = false)
    (hintime : Clock.now s < deadline) (hfull : overflow.next? count = none) :
    w.advance overflow fetch holds start deadline ⟨.head, count, s⟩ =
      ⟨.stopped, count, s⟩ := by
  simp [advance, hopen, Nat.not_le.mpr hintime, hfull]

theorem advance_begun (s : σ) :
    w.advance overflow fetch holds start deadline ⟨.begun, count, s⟩ =
      ⟨.fetched (fetch.exec s).1, count, (fetch.exec s).2⟩ := rfl

theorem advance_of_settled {outcome : Except ε α} (s : σ)
    (hsettles : settles holds outcome = true) :
    w.advance overflow fetch holds start deadline ⟨.fetched outcome, count, s⟩ =
      ⟨.ended (outcome.mapError .fetch), count, s⟩ := by
  cases outcome with
  | error e => rfl
  | ok a =>
    have hholds : holds a = true := hsettles
    simp [advance, hholds, Except.mapError]

theorem advance_of_unsettled {outcome : Except ε α} (s : σ)
    (hsettles : settles holds outcome = false) :
    w.advance overflow fetch holds start deadline ⟨.fetched outcome, count, s⟩ =
      ⟨.head, count, Clock.sleepUntil (w.wake (Clock.now s) deadline) s⟩ := by
  cases outcome with
  | error e => cases hsettles
  | ok a =>
    have hholds : holds a = false := hsettles
    simp [advance, hholds]

/-- An attempt is two steps: it is counted, and it is made. -/
theorem iterate_advance_attempt {s : σ} {next : UInt32} (hopen : Clock.isCancelled s = false)
    (hintime : Clock.now s < deadline) (hnext : overflow.next? count = some next) :
    (w.advance overflow fetch holds start deadline)^[2] ⟨.head, count, s⟩ =
      ⟨.fetched (fetch.exec s).1, next, (fetch.exec s).2⟩ := by
  rw [Function.iterate_succ_apply, Function.iterate_one,
    advance_of_next w overflow fetch holds start deadline count hopen hintime hnext,
    advance_begun]

/-- Where no attempt is to be made any more, the loop ends as a run of it does. -/
theorem advance_of_over {fuel : Nat} {s final : σ} {result : Except (WaitError ε) α}
    (hover : Clock.isCancelled s = true ∨ deadline ≤ Clock.now s)
    (hrun : w.attempts fetch holds start deadline fuel s = some (result, final)) :
    w.advance overflow fetch holds start deadline ⟨.head, count, s⟩ =
      ⟨.ended result, count, final⟩ := by
  cases hcancelled : Clock.isCancelled s with
  | true =>
    rw [w.attempts_of_cancelled fetch holds start deadline fuel s hcancelled] at hrun
    cases hrun
    exact advance_of_cancelled w overflow fetch holds start deadline count hcancelled
  | false =>
    have hexpired : deadline ≤ Clock.now s := hover.resolve_left (by simp [hcancelled])
    rw [w.attempts_of_expired fetch holds start deadline fuel s hcancelled hexpired] at hrun
    cases hrun
    exact advance_of_expired w overflow fetch holds start deadline count hcancelled hexpired

/-- The loop with its count comes to the end that a run of it without the count has, unless
the count stops the program. -/
theorem exists_iterate_advance {fuel : Nat} {s final : σ}
    {result : Except (WaitError ε) α}
    (hrun : w.attempts fetch holds start deadline fuel s = some (result, final)) :
    ∃ n p, (w.advance overflow fetch holds start deadline)^[n] ⟨.head, count, s⟩ = p ∧
      (p.place = .ended result ∧ p.state = final ∨ overflow = .stops ∧ p.place = .stopped) := by
  induction fuel generalizing s count with
  | zero =>
    have hover : Clock.isCancelled s = true ∨ deadline ≤ Clock.now s := by
      by_contra hnot
      simp [attempts, not_or.mp hnot] at hrun
    exact ⟨1, _, advance_of_over w overflow fetch holds start deadline count hover hrun,
      Or.inl ⟨rfl, rfl⟩⟩
  | succ fuel ih =>
    by_cases hover : Clock.isCancelled s = true ∨ deadline ≤ Clock.now s
    · exact ⟨1, _, advance_of_over w overflow fetch holds start deadline count hover hrun,
        Or.inl ⟨rfl, rfl⟩⟩
    obtain ⟨hnot, hlate⟩ := not_or.mp hover
    have hopen : Clock.isCancelled s = false := Bool.eq_false_of_not_eq_true hnot
    have hintime : Clock.now s < deadline := Nat.not_le.mp hlate
    cases hnext : overflow.next? count with
    | none =>
      exact ⟨1, _,
        advance_of_full w overflow fetch holds start deadline count hopen hintime hnext,
        Or.inr ⟨(Overflow.next?_eq_none hnext).1, rfl⟩⟩
    | some next =>
      have hattempt :=
        iterate_advance_attempt w overflow fetch holds start deadline count hopen hintime hnext
      cases hsettles : settles holds (fetch.exec s).1 with
      | true =>
        rw [w.attempts_of_settled fetch holds start deadline fuel s hopen hintime hsettles]
          at hrun
        cases hrun
        refine ⟨3, ⟨.ended ((fetch.exec s).1.mapError .fetch), next, (fetch.exec s).2⟩, ?_,
          Or.inl ⟨rfl, rfl⟩⟩
        rw [Function.iterate_succ_apply', hattempt,
          advance_of_settled w overflow fetch holds start deadline next _ hsettles]
      | false =>
        rw [w.attempts_of_unsettled fetch holds start deadline fuel s hopen hintime hsettles]
          at hrun
        obtain ⟨n, p, hp, hends⟩ := ih next hrun
        refine ⟨n + 1 + 2, p, ?_, hends⟩
        rw [Function.iterate_add_apply, hattempt, Function.iterate_succ_apply,
          advance_of_unsettled w overflow fetch holds start deadline next _ hsettles, hp]

/-- What a step of the loop can be. -/
inductive Step : Point σ ε α → Point σ ε α → Prop
  /-- The wait ends, at the head of its loop or with an attempt that settles it. -/
  | finish {place : Place ε α} {result : Except (WaitError ε) α} {count : UInt32} {s : σ}
      (hplace : place ≠ .begun) : Step ⟨place, count, s⟩ ⟨.ended result, count, s⟩
  | count {count next : UInt32} {s : σ} (hopen : Clock.isCancelled s = false)
      (hintime : Clock.now s < deadline) (hnext : overflow.next? count = some next) :
      Step ⟨.head, count, s⟩ ⟨.begun, next, s⟩
  | full {count : UInt32} {s : σ} (hopen : Clock.isCancelled s = false)
      (hintime : Clock.now s < deadline) (hfull : overflow.next? count = none) :
      Step ⟨.head, count, s⟩ ⟨.stopped, count, s⟩
  | make {count : UInt32} {s : σ} :
      Step ⟨.begun, count, s⟩ ⟨.fetched (fetch.exec s).1, count, (fetch.exec s).2⟩
  | sleep {outcome : Except ε α} {count : UInt32} {s : σ} :
      Step ⟨.fetched outcome, count, s⟩
        ⟨.head, count, Clock.sleepUntil (w.wake (Clock.now s) deadline) s⟩
  | stay {p : Point σ ε α} : Step p p

theorem step_advance (p : Point σ ε α) :
    w.Step overflow fetch deadline p
      (w.advance overflow fetch holds start deadline p) := by
  obtain ⟨place, count, s⟩ := p
  cases place with
  | head =>
    cases hcancelled : Clock.isCancelled s with
    | true =>
      rw [advance_of_cancelled w overflow fetch holds start deadline count hcancelled]
      exact .finish nofun
    | false =>
      rcases Nat.lt_or_ge (Clock.now s) deadline with hintime | hexpired
      swap
      · rw [advance_of_expired w overflow fetch holds start deadline count hcancelled hexpired]
        exact .finish nofun
      cases hnext : overflow.next? count with
      | some next =>
        rw [advance_of_next w overflow fetch holds start deadline count hcancelled hintime
          hnext]
        exact .count hcancelled hintime hnext
      | none =>
        rw [advance_of_full w overflow fetch holds start deadline count hcancelled hintime
          hnext]
        exact .full hcancelled hintime hnext
  | begun => exact .make
  | fetched outcome =>
    cases hsettles : settles holds outcome with
    | true =>
      rw [advance_of_settled w overflow fetch holds start deadline count s hsettles]
      exact .finish nofun
    | false =>
      rw [advance_of_unsettled w overflow fetch holds start deadline count s hsettles]
      exact .sleep
  | ended result => exact .stay
  | stopped => exact .stay

end Advance

/-! ### How many attempts there is time for -/

/-- The intervals of a wait that begin before its deadline. -/
def mostAttempts (w : Wait) (start : Nat) : Nat := w.span start ⌈/⌉ w.interval

theorem lt_mostAttempts_iff {w : Wait} (hinterval : 0 < w.interval) (start k : Nat) :
    k < w.mostAttempts start ↔ k * w.interval < w.span start := by
  rw [mostAttempts, ← Nat.not_le, ceilDiv_le_iff_le_mul hinterval, Nat.not_le, Nat.mul_comm]

/-- A sleep to the wake-up instant takes the interval, or lasts up to the deadline. -/
theorem interval_le_of_woken {w : Wait} {now deadline later : Nat}
    (hwoken : w.wake now deadline ≤ later) (hintime : later < deadline) :
    now + w.interval ≤ later := by
  have hwake := w.le_wake now deadline
  omega

/-! ### The pace of the loop -/

open Script (State attempt)

variable {ε α : Type}

/-- The attempts up to a point, the one that is about to be made included. -/
def Point.made (p : Point State ε α) : Nat :=
  match p.place with
  | .begun => p.state.starts.length + 1
  | _ => p.state.starts.length

theorem made_ended {place : Place ε α} (hplace : place ≠ .begun)
    (result : Except (WaitError ε) α) (count : UInt32) (s : State) :
    (⟨.ended result, count, s⟩ : Point State ε α).made =
      (⟨place, count, s⟩ : Point State ε α).made := by
  cases place with
  | begun => exact absurd rfl hplace
  | _ => rfl

/-- What holds at every point of the loop of a wait that starts at `entry`. -/
structure OnPace (w : Wait) (entry : Nat) (p : Point State ε α) : Prop where
  paced : entry + (p.made - 1) * w.interval ≤ p.state.now
  bounded : p.made ≤ w.mostAttempts entry
  counted : p.count = UInt32.ofNat p.made
  /-- Before another attempt each of those made has an interval behind it. -/
  atHead : p.place = .head → Clock.isCancelled p.state = false →
    p.state.now < w.deadline entry → entry + p.made * w.interval ≤ p.state.now
  fetched : ∀ outcome, p.place = .fetched outcome → 0 < p.made
  stopped : p.place = .stopped → p.made < w.mostAttempts entry ∧ 2 ^ 32 ≤ p.made + 1

section Pace

variable {w : Wait} {entry : Nat}

theorem onPace_entered (cancelAt : Option Nat) :
    w.OnPace entry (Point.entered ⟨entry, cancelAt, []⟩ : Point State ε α) where
  paced := by simp [Point.entered, Point.made]
  bounded := Nat.zero_le _
  counted := rfl
  atHead := by simp [Point.entered, Point.made]
  fetched := nofun
  stopped := nofun

/-- An attempt for which there is time is one of those that there can be. -/
theorem OnPace.lt_mostAttempts (hinterval : 0 < w.interval) {count : UInt32} {s : State}
    (h : w.OnPace entry (⟨.head, count, s⟩ : Point State ε α))
    (hopen : Clock.isCancelled s = false) (hintime : s.now < w.deadline entry) :
    s.starts.length < w.mostAttempts entry := by
  have hbehind : entry + s.starts.length * w.interval ≤ s.now := h.atHead rfl hopen hintime
  have hdeadline := w.deadline_eq entry
  rw [lt_mostAttempts_iff hinterval]
  omega

/-- Each step of the loop keeps the pace. -/
theorem OnPace.step (hinterval : 0 < w.interval) {overflow : Overflow}
    {script : Nat → Script.Attempt ε α} {p next : Point State ε α}
    (h : w.OnPace entry p)
    (hstep : w.Step overflow (attempt script) (w.deadline entry) p next) :
    w.OnPace entry next := by
  cases hstep with
  | @finish place result count s hplace =>
    have hmade := made_ended hplace result count s
    exact ⟨hmade ▸ h.paced, hmade ▸ h.bounded, hmade ▸ h.counted, nofun, nofun, nofun⟩
  | @count count next s hopen hintime hnext =>
    have hcounted : count = UInt32.ofNat s.starts.length := h.counted
    refine ⟨h.atHead rfl hopen hintime, h.lt_mostAttempts hinterval hopen hintime, ?_,
      nofun, nofun, nofun⟩
    rw [Overflow.next?_eq_some hnext, hcounted]
    exact (UInt32.ofNat_add s.starts.length 1).symm
  | @full count s hopen hintime hfull =>
    have hcounted : count = UInt32.ofNat s.starts.length := h.counted
    have hfits := (Overflow.next?_eq_none hfull).2
    have hmod : count.toNat ≤ s.starts.length := by
      rw [hcounted, UInt32.toNat_ofNat']
      exact Nat.mod_le _ _
    exact ⟨h.paced, h.bounded, h.counted, nofun, nofun, fun _ =>
      ⟨h.lt_mostAttempts hinterval hopen hintime, by
        change 2 ^ 32 ≤ s.starts.length + 1
        omega⟩⟩
  | @make count s =>
    have hpaced : entry + s.starts.length * w.interval ≤ s.now := h.paced
    refine ⟨?_, h.bounded, h.counted, nofun, fun _ _ => Nat.succ_pos _, nofun⟩
    change entry + s.starts.length * w.interval ≤ s.now + _
    omega
  | @sleep outcome count s =>
    have hpaced : entry + (s.starts.length - 1) * w.interval ≤ s.now := h.paced
    have hsome : 0 < s.starts.length := h.fetched _ rfl
    -- A sleep cut short by the cancellation is followed by no attempt.
    let woken := s.sleepUntil (w.wake s.now (w.deadline entry))
    have hlater : s.now ≤ woken.now := Nat.le_max_left _ _
    refine ⟨hpaced.trans hlater, h.bounded, h.counted, fun _ hopen hintime => ?_, nofun, nofun⟩
    have hslept : s.now + w.interval ≤ woken.now :=
      interval_le_of_woken (Script.wake_le_of_open hopen) hintime
    have hmul : s.starts.length * w.interval =
        (s.starts.length - 1) * w.interval + w.interval := by
      rw [← Nat.succ_mul, Nat.succ_eq_add_one, Nat.sub_add_cancel hsome]
    change entry + s.starts.length * w.interval ≤ woken.now
    omega
  | stay => exact h

/-- The count can only overflow in a wait that has time for more attempts than its word
can count. -/
theorem OnPace.le_mostAttempts_of_overflown {p : Point State ε α} (h : w.OnPace entry p)
    (hoverflown : p.Overflown) : 2 ^ 32 ≤ w.mostAttempts entry := by
  rcases hoverflown with hstopped | ⟨hbegun, hzero⟩
  · obtain ⟨hlt, hfull⟩ := h.stopped hstopped
    omega
  · have hmade : 0 < p.made := by
      simp [Point.made, hbegun]
    have hmod : p.made % 2 ^ 32 = 0 := by
      rw [← UInt32.toNat_ofNat', ← h.counted, hzero]
      rfl
    have hbounded := h.bounded
    omega

theorem OnPace.count_eq {p : Point State ε α} (h : w.OnPace entry p)
    (hfits : w.mostAttempts entry < 2 ^ 32) : p.count.toNat = p.made := by
  rw [h.counted, UInt32.toNat_ofNat', Nat.mod_eq_of_lt (h.bounded.trans_lt hfits)]

/-- From one point to the next there is one more attempt at most, which is about to be
made then. -/
theorem made_of_step {overflow : Overflow} {script : Nat → Script.Attempt ε α}
    {deadline : Nat} {p next : Point State ε α}
    (hstep : w.Step overflow (attempt script) deadline p next) :
    next.made = p.made ∨ next.place = .begun ∧ next.made = p.made + 1 := by
  cases hstep with
  | finish hplace => exact Or.inl (made_ended hplace _ _ _)
  | count => exact Or.inr ⟨rfl, rfl⟩
  | full => exact Or.inl rfl
  | make => exact Or.inl rfl
  | sleep => exact Or.inl rfl
  | stay => exact Or.inl rfl

end Pace

/-! ### The whole wait -/

section Points

variable (w : Wait) (overflow : Overflow) (script : Nat → Script.Attempt ε α)
variable (holds : α → Bool) (entry : Nat) (cancelAt : Option Nat)

/-- Where the loop of a wait stands after so many steps. -/
def points (n : Nat) : Point State ε α :=
  (w.advance overflow (attempt script) holds entry (w.deadline entry))^[n]
    (Point.entered ⟨entry, cancelAt, []⟩)

theorem step_points (n : Nat) :
    w.Step overflow (attempt script) (w.deadline entry)
      (w.points overflow script holds entry cancelAt n)
      (w.points overflow script holds entry cancelAt (n + 1)) := by
  have hnext : w.points overflow script holds entry cancelAt (n + 1) =
      w.advance overflow (attempt script) holds entry (w.deadline entry)
        (w.points overflow script holds entry cancelAt n) :=
    Function.iterate_succ_apply' _ _ _
  rw [hnext]
  exact step_advance w overflow (attempt script) holds entry (w.deadline entry) _

/-- The pace is kept throughout. -/
theorem onPace_points (hinterval : 0 < w.interval) (n : Nat) :
    w.OnPace entry (w.points overflow script holds entry cancelAt n) := by
  induction n with
  | zero => exact onPace_entered cancelAt
  | succ n ih => exact ih.step hinterval (step_points w overflow script holds entry cancelAt n)

/-- Once there have been `2 ^ 32` attempts, the count has overflowed: none of them is left
out on the way, and the last is counted as none. -/
theorem exists_overflown (hinterval : 0 < w.interval) {n : Nat}
    (hmany : 2 ^ 32 ≤ (w.points overflow script holds entry cancelAt n).made) :
    ∃ m, (w.points overflow script holds entry cancelAt m).Overflown := by
  induction n with
  | zero => simp [points, Point.entered, Point.made] at hmany
  | succ n ih =>
    by_cases hbefore : 2 ^ 32 ≤ (w.points overflow script holds entry cancelAt n).made
    · exact ih hbefore
    have hstep := made_of_step (step_points w overflow script holds entry cancelAt n)
    obtain ⟨hbegun, hone⟩ := hstep.resolve_left (by omega)
    have hexact : (w.points overflow script holds entry cancelAt (n + 1)).made = 2 ^ 32 := by
      omega
    have hcounted :=
      (onPace_points w overflow script holds entry cancelAt hinterval (n + 1)).counted
    rw [hexact] at hcounted
    exact ⟨n + 1, Or.inr ⟨hbegun, hcounted⟩⟩

/-- What the count of attempts comes to in a wait that, left without the count, gives
`result` and leaves `final`. -/
structure Counted (result : Except (WaitError ε) α) (final : State) : Prop where
  /-- Every attempt but the first has an interval behind it. -/
  paced : ∀ n,
    entry + ((w.points overflow script holds entry cancelAt n).made - 1) * w.interval ≤
      (w.points overflow script holds entry cancelAt n).state.now
  bounded : ∀ n,
    (w.points overflow script holds entry cancelAt n).made ≤ w.mostAttempts entry
  /-- The count does not change how the wait ends, unless it stops the program. -/
  ends : ∃ n, (w.points overflow script holds entry cancelAt n).place = .ended result ∧
      (w.points overflow script holds entry cancelAt n).state = final ∨
    overflow = .stops ∧ (w.points overflow script holds entry cancelAt n).place = .stopped
  /-- If there is time for fewer than `2 ^ 32` attempts, the count is right throughout. -/
  fits : w.mostAttempts entry < 2 ^ 32 → ∀ n,
    ¬ (w.points overflow script holds entry cancelAt n).Overflown ∧
      (w.points overflow script holds entry cancelAt n).count.toNat =
        (w.points overflow script holds entry cancelAt n).made
  overflows : 2 ^ 32 ≤ final.starts.length →
    ∃ n, (w.points overflow script holds entry cancelAt n).Overflown

theorem counted_of_run (hinterval : 0 < w.interval) {extra : Nat}
    {result : Except (WaitError ε) α} {final : State}
    (hrun : w.run (attempt script) holds extra ⟨entry, cancelAt, []⟩ = some (result, final)) :
    w.Counted overflow script holds entry cancelAt result final := by
  have honPace := onPace_points w overflow script holds entry cancelAt hinterval
  obtain ⟨n, p, hp, hends⟩ :=
    exists_iterate_advance w overflow (attempt script) holds _ _ 0 hrun
  change w.points overflow script holds entry cancelAt n = p at hp
  refine ⟨fun n => (honPace n).paced, fun n => (honPace n).bounded, ⟨n, hp ▸ hends⟩,
    fun hfits n => ⟨fun hoverflown => ?_, (honPace n).count_eq hfits⟩, fun hmany => ?_⟩
  · have hmost := (honPace n).le_mostAttempts_of_overflown hoverflown
    omega
  · rcases hends with ⟨hended, hfinal⟩ | ⟨-, hstopped⟩
    · apply exists_overflown w overflow script holds entry cancelAt hinterval (n := n)
      rw [hp]
      simpa [Point.made, hended, hfinal] using hmany
    · exact ⟨n, Or.inl (hp ▸ hstopped)⟩

end Points

end Wait

namespace Script

variable {ε α : Type}

/-- Attempts that take no time, settle nothing and leave the token alone. -/
structure Idle (script : Nat → Attempt ε α) (holds : α → Bool) : Prop where
  instantaneous : ∀ k, (script k).duration = 0
  unsettled : ∀ k, Wait.settles holds (script k).outcome = false
  quiet : Quiet script

theorem Idle.offset_eq {script : Nat → Attempt ε α} {holds : α → Bool}
    (h : Idle script holds) (interval k : Nat) : offset script interval k = k * interval := by
  induction k with
  | zero => simp [offset]
  | succ k ih => rw [offset, ih, h.instantaneous, Nat.add_zero, Nat.succ_mul]

/-- Idle attempts are made one for each interval that begins before the deadline. -/
theorem Idle.attempts_eq {w : Wait} {script : Nat → Attempt ε α} {holds : α → Bool}
    {entry n : Nat} {result : Except (WaitError ε) α} {final : State}
    (h : Idle script holds) (hinterval : 0 < w.interval)
    (hcourse : Course w script holds entry n result final) : n = w.mostAttempts entry := by
  have hmade (k : Nat) : k < n ↔ k < w.mostAttempts entry := by
    rw [hcourse.made k, h.offset_eq, Wait.lt_mostAttempts_iff hinterval]
    exact and_iff_left fun j _ => h.unsettled j
  have hle := hmade n
  have hge := hmade (w.mostAttempts entry)
  omega

/-- For every timeout, every positive interval, every script and every cancellation, whether
the program stops over a count too large for its word or the count begins again: the wait
comes to an end, after one attempt at most for each interval that begins before its
deadline; each attempt but the first has an interval behind it; and the count of them is
right throughout if their number fits its word. The bound is attained: idle attempts are
made as many, and overflow the count if they do not fit. -/
theorem run_counted (w : Wait) (script : Nat → Attempt ε α) (holds : α → Bool)
    (entry extra : Nat) (cancelAt : Option Nat) (hinterval : 0 < w.interval) :
    ∃ result final,
      w.run (attempt script) holds extra ⟨entry, cancelAt, []⟩ = some (result, final) ∧
      final.starts.length ≤ w.mostAttempts entry ∧
      (∀ overflow, w.Counted overflow script holds entry cancelAt result final) ∧
      (Idle script holds → cancelAt = none →
        (Instant.limit ≤ entry + w.timeout → entry + Span.far < Instant.limit) →
        final.starts.length = w.mostAttempts entry ∧
          (2 ^ 32 ≤ w.mostAttempts entry → ∀ overflow,
            ∃ n, (w.points overflow script holds entry cancelAt n).Overflown)) := by
  obtain ⟨⟨result, final⟩, hgoal⟩ :=
    Together.exists_alone ⟨w, script, holds, cancelAt⟩ hinterval entry
  have hrun : w.run (attempt script) holds extra ⟨entry, cancelAt, []⟩ =
    some (result, final) := hgoal extra
  have hcounted (overflow : Overflow) :=
    Wait.counted_of_run w overflow script holds entry cancelAt hinterval hrun
  refine ⟨result, final, hrun, ?_, hcounted, fun hidle hnone hclock => ?_⟩
  · -- A count that begins again stops nothing, so the loop comes to the end of the run.
    obtain ⟨n, ⟨hended, hfinal⟩ | ⟨hstops, -⟩⟩ := (hcounted .wraps).ends
    · have hbounded := (hcounted .wraps).bounded n
      simpa [Wait.Point.made, hended, hfinal] using hbounded
    · cases hstops
  · subst hnone
    obtain ⟨n, result', final', hrun', hcourse⟩ := run_follows_course w script holds entry
      hinterval (w.deadline_lt_limit entry hclock) hidle.quiet extra
    cases hrun.symm.trans hrun'
    have hlength : final.starts.length = w.mostAttempts entry := by
      rw [hcourse.starts_eq, begun_length, hidle.attempts_eq hinterval hcourse]
    exact ⟨hlength, fun hmany overflow =>
      (hcounted overflow).overflows (hlength ▸ hmany)⟩

/-- A wait that looks once a millisecond cannot count its attempts any more if it goes on
for `2 ^ 32` of them, and can if it goes on for one less. -/
theorem run_counted_of_full_word :
    let script := plain (fun _ => 0) fun _ => (.ok false : Except String Bool)
    let wait (timeout : Nat) : Wait := ⟨"readiness", timeout, 1⟩
    let points (timeout : Nat) (overflow : Overflow) :=
      (wait timeout).points overflow script id 0 none
    0 < (wait 4294967296).interval ∧
    (∃ result final, (wait 4294967296).run (attempt script) id 0 ⟨0, none, []⟩ =
        some (result, final) ∧ final.starts.length = 4294967296) ∧
    (∀ overflow, ∃ n, (points 4294967296 overflow n).Overflown) ∧
    ∀ overflow n, ¬ (points 4294967295 overflow n).Overflown ∧
      (points 4294967295 overflow n).count.toNat = (points 4294967295 overflow n).made := by
  intro script wait points
  have hidle : Idle script id := ⟨fun _ => rfl, fun _ => rfl, plain_quiet _ _⟩
  have hmany : (wait 4294967296).mostAttempts 0 = 4294967296 := by decide
  have hfits : (wait 4294967295).mostAttempts 0 = 4294967295 := by decide
  obtain ⟨result, final, hrun, -, -, hattained⟩ :=
    run_counted (wait 4294967296) script id 0 0 none (by decide)
  obtain ⟨hlength, hoverflown⟩ := hattained hidle rfl (fun h => absurd h (by decide))
  obtain ⟨_, _, -, -, hcounted, -⟩ :=
    run_counted (wait 4294967295) script id 0 0 none (by decide)
  exact ⟨by decide, ⟨result, final, hrun, hlength.trans hmany⟩,
    hoverflown (by rw [hmany]; decide),
    fun overflow n => (hcounted overflow).fits (by rw [hfits]; decide) n⟩

example : (Wait.points ⟨"readiness", 2, 1⟩ .stops
    (plain (fun _ => 0) fun _ => (.ok false : Except String Bool)) id 0 none 7).count = 2 := by
  decide

end Script

end MeshProbe
