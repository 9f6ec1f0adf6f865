import MeshProbe.Proofs.Wait.Attempts
import MeshProbe.Wait.Script

/-!
The course of a wait over a script. The attempts begin at instants that only
depend on the script and the interval; the wait goes through them one by one
until one settles it, the deadline passes, or the token is cancelled. The
lemmas here reach a given attempt and say how the wait goes on from it; the
theorem at the end puts them together for a wait that nobody cancels.
-/

namespace MeshProbe.Script

variable {ε α : Type}

/-- How long after the start of a wait its `k`th attempt begins, from zero on,
if none before settles the wait. -/
def offset (script : Nat → Attempt ε α) (interval : Nat) : Nat → Nat
  | 0 => 0
  | k + 1 => offset script interval k + (script k).duration + interval

theorem offset_mono (script : Nat → Attempt ε α) (interval : Nat) :
    Monotone (offset script interval) :=
  monotone_nat_of_le_succ fun k => by
    simp only [offset]
    omega

theorem offset_lt (script : Nat → Attempt ε α) {interval : Nat}
    (hinterval : 0 < interval) {j k : Nat} (h : j < k) :
    offset script interval j + (script j).duration < offset script interval k := by
  have hnext : offset script interval (j + 1) ≤ offset script interval k :=
    offset_mono script interval h
  simp only [offset] at hnext
  omega

theorem le_offset (script : Nat → Attempt ε α) {interval : Nat}
    (hinterval : 0 < interval) (k : Nat) : k ≤ offset script interval k := by
  induction k with
  | zero => exact Nat.zero_le _
  | succ k ih =>
    simp only [offset]
    omega

/-- The instants at which the first `k` attempts begin, the latest first. -/
def begun (script : Nat → Attempt ε α) (interval entry k : Nat) : List Nat :=
  ((List.range k).map fun j => entry + offset script interval j).reverse

theorem begun_succ (script : Nat → Attempt ε α) (interval entry k : Nat) :
    begun script interval entry (k + 1) =
      (entry + offset script interval k) :: begun script interval entry k := by
  simp [begun, List.range_succ]

@[simp] theorem begun_length (script : Nat → Attempt ε α) (interval entry k : Nat) :
    (begun script interval entry k).length = k := by
  simp [begun]

/-- The state in which the `k`th attempt begins. -/
def before (script : Nat → Attempt ε α) (interval entry : Nat)
    (cancelAt : Option Nat) (k : Nat) : State where
  now := entry + offset script interval k
  cancelAt
  starts := begun script interval entry k

@[simp] theorem before_starts_length (script : Nat → Attempt ε α)
    (interval entry : Nat) (cancelAt : Option Nat) (k : Nat) :
    (before script interval entry cancelAt k).starts.length = k :=
  begun_length script interval entry k

/-- The state in which an attempt ends that begins in `s`. -/
def State.ended (a : Attempt ε α) (s : State) : State where
  now := s.now + a.duration
  cancelAt :=
    if a.cancels then
      some (min (s.now + a.duration) (s.cancelAt.getD (s.now + a.duration)))
    else s.cancelAt
  starts := s.now :: s.starts

theorem exec_attempt (script : Nat → Attempt ε α) (s : State) :
    (attempt script).exec s =
      ((script s.starts.length).outcome, s.ended (script s.starts.length)) := rfl

/-- The state in which the `k`th attempt ends. -/
def after (script : Nat → Attempt ε α) (interval entry : Nat)
    (cancelAt : Option Nat) (k : Nat) : State :=
  (before script interval entry cancelAt k).ended (script k)

theorem exec_before (script : Nat → Attempt ε α) (interval entry : Nat)
    (cancelAt : Option Nat) (k : Nat) :
    (attempt script).exec (before script interval entry cancelAt k) =
      ((script k).outcome, after script interval entry cancelAt k) := by
  rw [exec_attempt, before_starts_length, after]

@[simp] theorem after_now (script : Nat → Attempt ε α) (interval entry : Nat)
    (cancelAt : Option Nat) (k : Nat) :
    (after script interval entry cancelAt k).now =
      entry + offset script interval k + (script k).duration := rfl

@[simp] theorem after_starts (script : Nat → Attempt ε α) (interval entry : Nat)
    (cancelAt : Option Nat) (k : Nat) :
    (after script interval entry cancelAt k).starts =
      begun script interval entry (k + 1) := by
  rw [begun_succ]
  rfl

theorem after_cancelAt (script : Nat → Attempt ε α) (interval entry : Nat)
    (cancelAt : Option Nat) (k : Nat) (hquiet : (script k).cancels = false) :
    (after script interval entry cancelAt k).cancelAt = cancelAt := by
  simp [after, State.ended, hquiet, before]

/-- A state in which no cancellation is due before an instant is not cancelled. -/
theorem not_isCancelled_of_lt {s : State} (h : ∀ c ∈ s.cancelAt, s.now < c) :
    Clock.isCancelled s = false := by
  change s.cancelled = false
  unfold State.cancelled
  cases hc : s.cancelAt with
  | none => rfl
  | some c =>
    have hlt : s.now < c := h c (by simp [hc])
    simpa using hlt

/-- A sleep that no cancellation cuts short ends at its instant, or at once. -/
theorem sleepUntil_of_le {s : State} {wake : Nat} (h : ∀ c ∈ s.cancelAt, wake ≤ c) :
    Clock.sleepUntil wake s = { s with now := max s.now wake } := by
  change State.sleepUntil wake s = _
  unfold State.sleepUntil
  cases hc : s.cancelAt with
  | none => rfl
  | some c =>
    have hle : wake ≤ c := h c (by simp [hc])
    simp [Nat.min_eq_left hle]

/-- A sleep that is not broken off lasts until its instant. -/
theorem wake_le_of_open {wake : Nat} {s : State}
    (hopen : (s.sleepUntil wake).cancelled = false) : wake ≤ (s.sleepUntil wake).now := by
  obtain ⟨now, cancelAt, starts⟩ := s
  cases cancelAt with
  | none => exact Nat.le_max_right _ _
  | some c =>
    have hlater : max now (min wake c) < c := by
      simpa [State.sleepUntil, State.cancelled] using hopen
    change wake ≤ max now (min wake c)
    omega

/-- What has to hold for a wait of `span` that starts at `entry` to come to its
`k`th attempt: there is time, nothing has settled it, and nothing has cancelled
it. -/
structure Reaches (script : Nat → Attempt ε α) (interval : Nat) (holds : α → Bool)
    (entry span : Nat) (cancelAt : Option Nat) (k : Nat) : Prop where
  inTime : offset script interval k < span
  unsettled : ∀ j < k, Wait.settles holds (script j).outcome = false
  quiet : ∀ j < k, (script j).cancels = false
  uncancelled : ∀ c ∈ cancelAt, entry + offset script interval k < c

theorem Reaches.prev {script : Nat → Attempt ε α} {interval : Nat} {holds : α → Bool}
    {entry span : Nat} {cancelAt : Option Nat} {k : Nat}
    (h : Reaches script interval holds entry span cancelAt (k + 1)) :
    Reaches script interval holds entry span cancelAt k := by
  have hmono : offset script interval k ≤ offset script interval (k + 1) :=
    offset_mono script interval (Nat.le_succ k)
  refine ⟨by have := h.inTime; omega, ?_, ?_, ?_⟩
  · intro j hj
    exact h.unsettled j (by omega)
  · intro j hj
    exact h.quiet j (by omega)
  · intro c hc
    have := h.uncancelled c hc
    omega

theorem Reaches.isCancelled {script : Nat → Attempt ε α} {interval : Nat}
    {holds : α → Bool} {entry span : Nat} {cancelAt : Option Nat} {k : Nat}
    (h : Reaches script interval holds entry span cancelAt k) :
    Clock.isCancelled (before script interval entry cancelAt k) = false :=
  not_isCancelled_of_lt h.uncancelled

section Loop

variable (w : Wait) (script : Nat → Attempt ε α) (holds : α → Bool) (entry : Nat)
variable (cancelAt : Option Nat)

/-- Where an attempt settles nothing and there is time for the next one, a turn
of the loop leads from the one to the other. -/
theorem attempts_step (hclock : w.deadline entry < Instant.limit) (k fuel : Nat)
    (h : Reaches script w.interval holds entry (w.span entry) cancelAt (k + 1)) :
    w.attempts (attempt script) holds entry (w.deadline entry) (fuel + 1)
        (before script w.interval entry cancelAt k) =
      w.attempts (attempt script) holds entry (w.deadline entry) fuel
        (before script w.interval entry cancelAt (k + 1)) := by
  have hdeadline := w.deadline_eq entry
  have hinTime := h.prev.inTime
  have hnext := h.inTime
  have hexec := exec_before script w.interval entry cancelAt k
  rw [Wait.attempts_of_unsettled w _ holds entry _ fuel _ h.prev.isCancelled
    (by change entry + _ < _; omega) (by rw [hexec]; exact h.unsettled k (by omega))]
  rw [hexec]
  have hwake : w.wake (Clock.now (after script w.interval entry cancelAt k))
      (w.deadline entry) = entry + offset script w.interval (k + 1) := by
    rw [Wait.wake_eq w _ _ hclock]
    change min (entry + _ + _ + _) _ = _
    simp only [offset] at hnext ⊢
    omega
  have hcancelAt := after_cancelAt script w.interval entry cancelAt k
    (h.quiet k (by omega))
  -- The sleep is not cut short: the next attempt begins before any cancellation.
  rw [hwake, sleepUntil_of_le (by
    intro c hc
    rw [hcancelAt] at hc
    exact Nat.le_of_lt (h.uncancelled c hc))]
  congr 1
  rw [hcancelAt, after_starts, after_now]
  simp only [before, offset]
  congr 1
  omega

/-- The loop comes to every attempt that it has time for and that nothing before
settles or cancels, having spent one turn on each attempt before it. -/
theorem attempts_reach (hclock : w.deadline entry < Instant.limit) (k fuel : Nat)
    (h : Reaches script w.interval holds entry (w.span entry) cancelAt k) :
    w.attempts (attempt script) holds entry (w.deadline entry) (fuel + k)
        (before script w.interval entry cancelAt 0) =
      w.attempts (attempt script) holds entry (w.deadline entry) fuel
        (before script w.interval entry cancelAt k) := by
  induction k generalizing fuel with
  | zero => rfl
  | succ k ih =>
    calc
      _ = w.attempts (attempt script) holds entry (w.deadline entry) ((fuel + 1) + k)
            (before script w.interval entry cancelAt 0) := by
          rw [show fuel + (k + 1) = (fuel + 1) + k by omega]
      _ = w.attempts (attempt script) holds entry (w.deadline entry) (fuel + 1)
            (before script w.interval entry cancelAt k) := ih (fuel + 1) h.prev
      _ = _ := attempts_step w script holds entry cancelAt hclock k fuel h

/-- A wait that is entered when its script has not begun. -/
theorem run_eq (extra : Nat) :
    w.run (attempt script) holds extra ⟨entry, cancelAt, []⟩ =
      w.attempts (attempt script) holds entry (w.deadline entry)
        (w.span entry + extra) (before script w.interval entry cancelAt 0) := by
  have hfuel : w.deadline entry - entry = w.span entry := by
    rw [w.deadline_eq entry]
    omega
  rw [← hfuel]
  rfl

variable (hinterval : 0 < w.interval) (hclock : w.deadline entry < Instant.limit)
include hinterval hclock

/-- The turns allowed suffice for an attempt that is reached: each before it took
at least as long as the interval. -/
theorem run_reaches (extra k : Nat)
    (h : Reaches script w.interval holds entry (w.span entry) cancelAt k) :
    ∃ fuel, w.run (attempt script) holds extra ⟨entry, cancelAt, []⟩ =
      w.attempts (attempt script) holds entry (w.deadline entry) (fuel + 1)
        (before script w.interval entry cancelAt k) := by
  have hk : k ≤ offset script w.interval k := le_offset script hinterval k
  have htime := h.inTime
  refine ⟨w.span entry + extra - (k + 1), ?_⟩
  rw [run_eq, ← attempts_reach w script holds entry cancelAt hclock k _ h]
  congr 1
  omega

theorem run_of_settled (extra k : Nat)
    (h : Reaches script w.interval holds entry (w.span entry) cancelAt k)
    (hsettles : Wait.settles holds (script k).outcome = true) :
    w.run (attempt script) holds extra ⟨entry, cancelAt, []⟩ =
      some ((script k).outcome.mapError .fetch,
        after script w.interval entry cancelAt k) := by
  obtain ⟨fuel, hrun⟩ := run_reaches w script holds entry cancelAt hinterval hclock
    extra k h
  have hexec := exec_before script w.interval entry cancelAt k
  have hdeadline := w.deadline_eq entry
  have htime := h.inTime
  rw [hrun, Wait.attempts_of_settled w _ holds entry _ fuel _ h.isCancelled
    (by change entry + _ < _; omega) (by rw [hexec]; exact hsettles), hexec]

/-- After an attempt that settles nothing the wait sleeps, at most until the
deadline. -/
theorem run_of_unsettled (extra k : Nat)
    (h : Reaches script w.interval holds entry (w.span entry) cancelAt k)
    (hsettles : Wait.settles holds (script k).outcome = false) :
    ∃ fuel, w.run (attempt script) holds extra ⟨entry, cancelAt, []⟩ =
      w.attempts (attempt script) holds entry (w.deadline entry) fuel
        (Clock.sleepUntil
          (entry + min (offset script w.interval (k + 1)) (w.span entry))
          (after script w.interval entry cancelAt k)) := by
  obtain ⟨fuel, hrun⟩ := run_reaches w script holds entry cancelAt hinterval hclock
    extra k h
  have hexec := exec_before script w.interval entry cancelAt k
  have hdeadline := w.deadline_eq entry
  have htime := h.inTime
  have hwake : w.wake (Clock.now (after script w.interval entry cancelAt k))
      (w.deadline entry) =
        entry + min (offset script w.interval (k + 1)) (w.span entry) := by
    rw [Wait.wake_eq w _ _ hclock]
    change min (entry + _ + _ + _) _ = _
    simp only [offset]
    omega
  refine ⟨fuel, ?_⟩
  rw [hrun, Wait.attempts_of_unsettled w _ holds entry _ fuel _ h.isCancelled
    (by change entry + _ < _; omega) (by rw [hexec]; exact hsettles), hexec, hwake]

theorem run_of_timedOut (extra k : Nat)
    (h : Reaches script w.interval holds entry (w.span entry) cancelAt k)
    (hsettles : Wait.settles holds (script k).outcome = false)
    (hquiet : (script k).cancels = false)
    (hlast : w.span entry ≤ offset script w.interval (k + 1))
    (hopen : ∀ c ∈ cancelAt,
      entry + max (w.span entry) (offset script w.interval k + (script k).duration) < c) :
    w.run (attempt script) holds extra ⟨entry, cancelAt, []⟩ =
      some (.error (.timeout w.description
          (max (w.span entry) (offset script w.interval k + (script k).duration))),
        { now := entry +
            max (w.span entry) (offset script w.interval k + (script k).duration)
          cancelAt
          starts := begun script w.interval entry (k + 1) }) := by
  obtain ⟨fuel, hrun⟩ := run_of_unsettled w script holds entry cancelAt hinterval
    hclock extra k h hsettles
  have hcancelAt := after_cancelAt script w.interval entry cancelAt k hquiet
  have hdeadline := w.deadline_eq entry
  rw [hrun, sleepUntil_of_le (by
    intro c hc
    rw [hcancelAt] at hc
    have := hopen c hc
    omega)]
  rw [hcancelAt, after_starts, after_now]
  have hnow : max (entry + offset script w.interval k + (script k).duration)
      (entry + min (offset script w.interval (k + 1)) (w.span entry)) =
        entry + max (w.span entry)
          (offset script w.interval k + (script k).duration) := by
    omega
  rw [hnow]
  rw [Wait.attempts_of_expired w _ holds entry _ fuel _ (not_isCancelled_of_lt hopen)
    (by change _ ≤ entry + _; omega)]
  congr 4
  change entry + _ - entry = _
  omega

/-- A cancellation that is due as the attempt ends wins over the deadline, which
may have passed by then. -/
theorem run_of_cancelled_attempt (extra k c : Nat)
    (h : Reaches script w.interval holds entry (w.span entry) cancelAt k)
    (hsettles : Wait.settles holds (script k).outcome = false)
    (hc : (after script w.interval entry cancelAt k).cancelAt = some c)
    (hdue : c ≤ (after script w.interval entry cancelAt k).now) :
    w.run (attempt script) holds extra ⟨entry, cancelAt, []⟩ =
      some (.error (.cancelled w.description),
        after script w.interval entry cancelAt k) := by
  obtain ⟨fuel, hrun⟩ := run_of_unsettled w script holds entry cancelAt hinterval
    hclock extra k h hsettles
  generalize hs : after script w.interval entry cancelAt k = s at hrun hc hdue
  have hsleep (wake : Nat) : Clock.sleepUntil wake s = s := by
    change State.sleepUntil wake s = s
    unfold State.sleepUntil
    rw [hc]
    have hnow : max s.now (min wake c) = s.now := by omega
    simp only [hnow]
    rw [← hc]
  rw [hrun, hsleep]
  apply Wait.attempts_of_cancelled
  change s.cancelled = true
  simpa [State.cancelled, hc] using hdue

/-- A cancellation within the sleep after an attempt ends the wait there. -/
theorem run_of_cancelled_asleep (extra k c : Nat)
    (h : Reaches script w.interval holds entry (w.span entry) (some c) k)
    (hsettles : Wait.settles holds (script k).outcome = false)
    (hquiet : (script k).cancels = false)
    (hended : entry + offset script w.interval k + (script k).duration < c)
    (hasleep : c ≤ entry + min (offset script w.interval (k + 1)) (w.span entry)) :
    w.run (attempt script) holds extra ⟨entry, some c, []⟩ =
      some (.error (.cancelled w.description),
        { now := c, cancelAt := some c, starts := begun script w.interval entry (k + 1) })
    := by
  obtain ⟨fuel, hrun⟩ := run_of_unsettled w script holds entry (some c) hinterval
    hclock extra k h hsettles
  have hcancelAt := after_cancelAt script w.interval entry (some c) k hquiet
  have hsleep : Clock.sleepUntil
      (entry + min (offset script w.interval (k + 1)) (w.span entry))
      (after script w.interval entry (some c) k) =
        { now := c, cancelAt := some c,
          starts := begun script w.interval entry (k + 1) } := by
    change State.sleepUntil _ _ = _
    unfold State.sleepUntil
    simp only [hcancelAt, after_now, after_starts]
    congr 1
    omega
  rw [hrun, hsleep]
  apply Wait.attempts_of_cancelled
  change State.cancelled _ = true
  simp [State.cancelled]

omit hinterval hclock

theorem run_of_no_time (extra : Nat) (hspan : w.span entry = 0)
    (hopen : ∀ c ∈ cancelAt, entry < c) :
    w.run (attempt script) holds extra ⟨entry, cancelAt, []⟩ =
      some (.error (.timeout w.description 0), ⟨entry, cancelAt, []⟩) := by
  have hdeadline := w.deadline_eq entry
  unfold Wait.run
  rw [Wait.attempts_of_expired w _ holds _ _ _ _ (not_isCancelled_of_lt hopen)
    (by change w.deadline entry ≤ entry; omega)]
  congr 4
  exact Nat.sub_self entry

theorem run_of_cancelled_before (extra c : Nat) (hc : c ≤ entry) :
    w.run (attempt script) holds extra ⟨entry, some c, []⟩ =
      some (.error (.cancelled w.description), ⟨entry, some c, []⟩) := by
  apply Wait.attempts_of_cancelled
  change State.cancelled _ = true
  simpa [State.cancelled] using hc

end Loop

end MeshProbe.Script
