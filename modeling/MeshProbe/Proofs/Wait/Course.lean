import MeshProbe.Proofs.Wait.Timeline

/-!
The course of a wait that nobody cancels, for every script: which attempts it
makes and when, how it ends and when. Main statement: `run_course`, for the
wait as a value and for `awaitCondition` alike.
-/

namespace MeshProbe.Script

variable {ε α : Type}

/-- Attempts of given durations and outcomes that leave the token alone. -/
def plain (durations : Nat → Nat) (outcomes : Nat → Except ε α) :
    Nat → Attempt ε α :=
  fun k => ⟨durations k, outcomes k, false⟩

/-- How long after the start of a wait the last of its first `n` attempts ends;
zero if there is none. -/
def finished (script : Nat → Attempt ε α) (interval : Nat) : Nat → Nat
  | 0 => 0
  | k + 1 => offset script interval k + (script k).duration

/-- The course of a wait of `n` attempts that starts at `entry` and that nobody
cancels. -/
structure Course (w : Wait) (script : Nat → Attempt ε α) (holds : α → Bool)
    (entry n : Nat) (result : Except (WaitError ε) α) (final : State) : Prop where
  /-- Each attempt begins at its own instant. -/
  starts : final.starts.reverse =
    (List.range n).map fun k => entry + offset script w.interval k
  /-- An attempt is made if it begins before the deadline and none before it
  settles the wait. -/
  made : ∀ k, k < n ↔ offset script w.interval k < w.span entry ∧
    ∀ j < k, Wait.settles holds (script j).outcome = false
  /-- An attempt that settles the wait is the last one and gives its result. -/
  settled : ∀ k < n, Wait.settles holds (script k).outcome = true →
    n = k + 1 ∧ result = (script k).outcome.mapError .fetch ∧
      final.now = entry + offset script w.interval k + (script k).duration
  /-- Otherwise the wait ends at the deadline, or with an attempt that overruns
  it. -/
  timedOut : (∀ k < n, Wait.settles holds (script k).outcome = false) →
    result = .error (.timeout w.description
        (max (w.span entry) (finished script w.interval n))) ∧
      final.now = entry + max (w.span entry) (finished script w.interval n)

theorem Course.starts_eq {w : Wait} {script : Nat → Attempt ε α} {holds : α → Bool}
    {entry n : Nat} {alone : Except (WaitError ε) α} {rest : State}
    (hcourse : Course w script holds entry n alone rest) :
    rest.starts = begun script w.interval entry n := by
  rw [begun, ← hcourse.starts, List.reverse_reverse]

/-- There are finitely many attempts to make: each takes the interval at least. -/
theorem exists_attempts (script : Nat → Attempt ε α) (holds : α → Bool)
    {interval : Nat} (hinterval : 0 < interval) (span : Nat) :
    ∃ n, ∀ k, k < n ↔ offset script interval k < span ∧
      ∀ j < k, Wait.settles holds (script j).outcome = false := by
  classical
  let made (k : Nat) : Prop := offset script interval k < span ∧
    ∀ j < k, Wait.settles holds (script j).outcome = false
  have hend : ∃ n, ¬ made n := by
    refine ⟨span, fun h => ?_⟩
    have hle : span ≤ offset script interval span := le_offset script hinterval span
    have hlt : offset script interval span < span := h.1
    omega
  refine ⟨Nat.find hend, fun k => ⟨fun hk => ?_, fun hk => ?_⟩⟩
  · exact not_not.mp (Nat.find_min hend hk)
  · by_contra hge
    have hfind : Nat.find hend ≤ k := Nat.not_lt.mp hge
    apply Nat.find_spec hend
    refine ⟨?_, fun j hj => hk.2 j (by omega)⟩
    have hmono := offset_mono script interval hfind
    have hlt : offset script interval k < span := hk.1
    omega

/-- A script whose attempts never touch the token. -/
def Quiet (script : Nat → Attempt ε α) : Prop := ∀ k, (script k).cancels = false

theorem plain_quiet (durations : Nat → Nat) (outcomes : Nat → Except ε α) :
    Quiet (plain durations outcomes) := fun _ => rfl

section Run

variable (w : Wait) (script : Nat → Attempt ε α) (holds : α → Bool) (entry : Nat)

theorem reaches_of_made {n : Nat} (hquiet : Quiet script)
    (hmade : ∀ k, k < n ↔ offset script w.interval k < w.span entry ∧
      ∀ j < k, Wait.settles holds (script j).outcome = false) {k : Nat} (hk : k < n)
    {cancelAt : Option Nat}
    (hopen : ∀ c ∈ cancelAt, entry + offset script w.interval k < c) :
    Reaches script w.interval holds entry (w.span entry) cancelAt k where
  inTime := ((hmade k).mp hk).1
  unsettled := ((hmade k).mp hk).2
  quiet := fun j _ => hquiet j
  uncancelled := hopen

/-- A wait without attempts is one without time. -/
theorem span_eq_zero
    (hmade : ∀ k, k < 0 ↔ offset script w.interval k < w.span entry ∧
      ∀ j < k, Wait.settles holds (script j).outcome = false) :
    w.span entry = 0 := by
  by_contra hne
  have hmake : (0 : Nat) < 0 := (hmade 0).mpr
    ⟨Nat.pos_of_ne_zero hne, fun j hj => absurd hj (Nat.not_lt_zero j)⟩
  exact Nat.lt_irrefl 0 hmake

/-- If the last attempt does not settle the wait, no attempt does. -/
theorem unsettled_of_last {m : Nat}
    (hmade : ∀ k, k < m + 1 ↔ offset script w.interval k < w.span entry ∧
      ∀ j < k, Wait.settles holds (script j).outcome = false)
    (hsettles : Wait.settles holds (script m).outcome = false) :
    ∀ k < m + 1, Wait.settles holds (script k).outcome = false := by
  intro k hk
  rcases Nat.lt_succ_iff_lt_or_eq.mp hk with hlt | rfl
  · exact ((hmade m).mp (Nat.lt_succ_self m)).2 k hlt
  · exact hsettles

/-- With no attempt after the last one, either it settles the wait or the next
would begin too late. -/
theorem last_attempt {m : Nat}
    (hmade : ∀ k, k < m + 1 ↔ offset script w.interval k < w.span entry ∧
      ∀ j < k, Wait.settles holds (script j).outcome = false)
    (hsettles : Wait.settles holds (script m).outcome = false) :
    w.span entry ≤ offset script w.interval (m + 1) := by
  by_contra hlt
  have hnext : m + 1 < m + 1 := (hmade (m + 1)).mpr
    ⟨Nat.not_le.mp hlt, unsettled_of_last w script holds entry hmade hsettles⟩
  exact Nat.lt_irrefl _ hnext

/-- A wait over a quiet script runs its course. -/
theorem run_follows_course (hinterval : 0 < w.interval)
    (hclock : w.deadline entry < Instant.limit) (hquiet : Quiet script)
    (extra : Nat) :
    ∃ n result final,
      w.run (attempt script) holds extra ⟨entry, none, []⟩ = some (result, final) ∧
      Course w script holds entry n result final := by
  obtain ⟨n, hmade⟩ := exists_attempts script holds hinterval (w.span entry)
  cases n with
  | zero =>
    have hspan := span_eq_zero w script holds entry hmade
    refine ⟨0, _, _, run_of_no_time w script holds entry none extra hspan (by simp),
      rfl, hmade, fun k hk => absurd hk (Nat.not_lt_zero k), fun _ => ?_⟩
    simp [hspan, finished]
  | succ m =>
    have hreaches : Reaches script w.interval holds entry (w.span entry) none m :=
      reaches_of_made w script holds entry hquiet hmade (Nat.lt_succ_self m) (by simp)
    cases hsettles : Wait.settles holds (script m).outcome with
    | true =>
      refine ⟨m + 1, _, _, run_of_settled w script holds entry none hinterval hclock
        extra m hreaches hsettles, ?_, hmade, fun k hk hk' => ?_, fun hnone => ?_⟩
      · simp [begun]
      · -- Only the last attempt can settle the wait.
        have hkm : k = m := by
          by_contra hne
          have := hreaches.unsettled k (by omega)
          rw [this] at hk'
          cases hk'
        subst hkm
        exact ⟨rfl, rfl, rfl⟩
      · rw [hnone m (Nat.lt_succ_self m)] at hsettles
        cases hsettles
    | false =>
      have hlast := last_attempt w script holds entry hmade hsettles
      refine ⟨m + 1, _, _, run_of_timedOut w script holds entry none hinterval hclock
        extra m hreaches hsettles (hquiet m) hlast (by simp), ?_, hmade,
        fun k hk hk' => ?_, fun _ => ⟨rfl, rfl⟩⟩
      · simp [begun]
      · rw [unsettled_of_last w script holds entry hmade hsettles k hk] at hk'
        cases hk'

end Run

/-- For every timeout, every positive interval and every script of attempts, a
wait runs its course, and a wait given by its parts runs the same. Nothing
happens without time; and an attempt whose wake-up instant the clock cannot
reach is the last, since the deadline stands in for that instant. -/
theorem run_course (description : String) (timeout interval : Nat)
    (durations : Nat → Nat) (outcomes : Nat → Except ε α) (holds : α → Bool)
    (entry extra : Nat) (hinterval : 0 < interval)
    (hclock : Instant.limit ≤ entry + timeout → entry + Span.far < Instant.limit) :
    let w : Wait := ⟨description, timeout, interval⟩
    let script := plain durations outcomes
    ∃ n result final,
      w.run (attempt script) holds extra ⟨entry, none, []⟩ = some (result, final) ∧
      Wait.awaitCondition timeout interval description (attempt script) holds extra
        ⟨entry, none, []⟩ = some (result, final) ∧
      Course w script holds entry n result final ∧
      (timeout = 0 → n = 0 ∧ final.now = entry) ∧
      ∀ k < n, Instant.limit ≤ entry + offset script interval (k + 1) → n = k + 1 := by
  intro w script
  have hdeadline := w.deadline_lt_limit entry hclock
  obtain ⟨n, result, final, hrun, hcourse⟩ := run_follows_course w script holds entry
    hinterval hdeadline (plain_quiet durations outcomes) extra
  refine ⟨n, result, final, hrun, hrun, hcourse, ?_, ?_⟩
  · intro hzero
    have hspan : w.span entry = 0 := by
      have hlimit : entry < Instant.limit := by omega
      simp [Wait.span, w, hzero, hlimit]
    have hn : n = 0 := by
      by_contra hne
      have htime := ((hcourse.made 0).mp (Nat.pos_of_ne_zero hne)).1
      omega
    have hend := (hcourse.timedOut (by omega)).2
    simp [hspan, hn, finished] at hend
    exact ⟨hn, hend⟩
  · intro k hk hlimit
    by_contra hne
    have htime := ((hcourse.made (k + 1)).mp (by omega)).1
    have heq := w.deadline_eq entry
    change offset script interval (k + 1) < _ at htime
    omega

/-- Two attempts of a growing duration: the second begins in time and ends when
the deadline has passed, and so does the wait. -/
theorem run_course_of_overrun :
    0 < 1000 ∧ 5 + 1500 < Instant.limit ∧
    ∃ final, Wait.awaitCondition 1500 1000 "readiness"
        (attempt (plain (fun k => 700 * k) fun _ => (.ok false : Except String Bool)))
        id 0 ⟨5, none, []⟩ = some (.error (.timeout "readiness" 1700), final) ∧
      final.starts.reverse = [5, 1005] ∧ final.now = 1705 := by
  refine ⟨by decide, by decide, ?_⟩
  obtain ⟨n, result, final, -, hawait, hcourse, -, -⟩ :=
    run_course "readiness" 1500 1000 (fun k => 700 * k)
      (fun _ => (.ok false : Except String Bool)) id 5 0 (by decide)
      (fun h => absurd h (by decide))
  have hspan : (⟨"readiness", 1500, 1000⟩ : Wait).span 5 = 1500 := by decide
  have hsecond : 1 < n := by
    rw [hcourse.made 1, hspan]
    exact ⟨by decide, fun j _ => rfl⟩
  have hlast : ¬ 2 < n := by
    rw [hcourse.made 2, hspan]
    exact fun h => absurd h.1 (by decide)
  have hn : n = 2 := by omega
  subst hn
  obtain ⟨hresult, hnow⟩ := hcourse.timedOut fun _ _ => rfl
  have hfinished : finished (plain (fun k => 700 * k)
      fun _ => (.ok false : Except String Bool)) 1000 2 = 1700 := rfl
  rw [hspan, hfinished] at hresult hnow
  refine ⟨final, ?_, hcourse.starts, hnow⟩
  rw [hawait, hresult]
  rfl

end MeshProbe.Script
