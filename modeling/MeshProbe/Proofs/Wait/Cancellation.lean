import MeshProbe.Proofs.Wait.Course

/-!
What the cancellation of its token does to a wait, by comparison with the same
wait whose token is never cancelled. A cancellation comes once: from outside at
some instant, or by an attempt as it ends. Where it falls on the very instant of
another event the clock of a script lets it come first.
-/

namespace MeshProbe.Script

variable {ε α : Type}

/-- How a token comes to be cancelled. -/
inductive Cancellation
  | outside (instant : Nat)
  | byAttempt (k : Nat)
  deriving DecidableEq, Repr

namespace Cancellation

/-- The script in which the cancelling attempt does so. -/
def inScript (c : Cancellation) (script : Nat → Attempt ε α) : Nat → Attempt ε α :=
  fun k => { script k with cancels := decide (c = .byAttempt k) }

/-- What the token has in store as the wait starts. -/
def atEntry : Cancellation → Option Nat
  | outside instant => some instant
  | byAttempt _ => none

section Places

variable (w : Wait) (script : Nat → Attempt ε α) (holds : α → Bool) (entry : Nat)

/-- The `k`th attempt begins before the cancellation. -/
def Follows (k : Nat) : Cancellation → Prop
  | outside instant => entry + offset script w.interval k < instant
  | byAttempt j => k ≤ j

/-- The cancellation comes no later than the start of the wait. -/
def Early : Cancellation → Prop
  | outside instant => instant ≤ entry
  | byAttempt _ => False

/-- The cancellation falls within the `k`th attempt or on its end. -/
def During (k : Nat) : Cancellation → Prop
  | outside instant => entry + offset script w.interval k < instant ∧
      instant ≤ entry + offset script w.interval k + (script k).duration
  | byAttempt j => j = k

/-- The cancellation falls into the sleep after the `k`th attempt, which lasts
until the next attempt or the deadline. -/
def Asleep (k : Nat) : Cancellation → Prop
  | outside instant => Wait.settles holds (script k).outcome = false ∧
      entry + offset script w.interval k + (script k).duration < instant ∧
      instant ≤ entry + min (offset script w.interval (k + 1)) (w.span entry)
  | byAttempt _ => False

/-- A wait that makes `n` attempts and ends at `finish` is over before the
cancellation, or never comes to it. -/
def Late (n finish : Nat) : Cancellation → Prop
  | outside instant => finish < instant
  | byAttempt j => n ≤ j

end Places

@[simp] theorem outcome_inScript (c : Cancellation) (script : Nat → Attempt ε α)
    (k : Nat) : (c.inScript script k).outcome = (script k).outcome := rfl

@[simp] theorem duration_inScript (c : Cancellation) (script : Nat → Attempt ε α)
    (k : Nat) : (c.inScript script k).duration = (script k).duration := rfl

@[simp] theorem offset_inScript (c : Cancellation) (script : Nat → Attempt ε α)
    (interval : Nat) : offset (c.inScript script) interval = offset script interval := by
  funext k
  induction k with
  | zero => rfl
  | succ k ih => simp [offset, ih]

@[simp] theorem begun_inScript (c : Cancellation) (script : Nat → Attempt ε α)
    (interval entry k : Nat) :
    begun (c.inScript script) interval entry k = begun script interval entry k := by
  simp [begun]

@[simp] theorem outside_cancels (instant : Nat) (script : Nat → Attempt ε α)
    (k : Nat) : ((outside instant).inScript script k).cancels = false := by
  simp [inScript]

theorem byAttempt_cancels (script : Nat → Attempt ε α) (j k : Nat) :
    ((byAttempt j).inScript script k).cancels = decide (j = k) := by
  simp [inScript]

end Cancellation

section Cancelled

variable {w : Wait} {script : Nat → Attempt ε α} {holds : α → Bool}
variable {entry n : Nat} {alone : Except (WaitError ε) α} {rest : State}

/-- The attempts of the undisturbed wait that begin before the cancellation are
reached in the cancelled one as well. -/
theorem Course.reaches (hcourse : Course w script holds entry n alone rest)
    (c : Cancellation) {k : Nat} (hk : k < n) (hfollows : c.Follows w script entry k) :
    Reaches (c.inScript script) w.interval holds entry (w.span entry) c.atEntry k := by
  obtain ⟨htime, hunsettled⟩ := (hcourse.made k).mp hk
  refine ⟨by simpa using htime, by simpa using hunsettled, ?_, ?_⟩
  · intro j hj
    cases c with
    | outside instant => simp
    | byAttempt i =>
      have hle : k ≤ i := hfollows
      rw [Cancellation.byAttempt_cancels]
      simp only [decide_eq_false_iff_not]
      omega
  · intro instant hinstant
    cases c with
    | outside i =>
      have heq : i = instant := by simpa [Cancellation.atEntry] using hinstant
      subst heq
      rw [Cancellation.offset_inScript]
      exact hfollows
    | byAttempt i => simp [Cancellation.atEntry] at hinstant

theorem Cancellation.During.follows {c : Cancellation} {k : Nat}
    (h : c.During w script entry k) : c.Follows w script entry k := by
  cases c with
  | outside instant => exact h.1
  | byAttempt j => exact Nat.le_of_eq (show k = j from h.symm)

/-- As an attempt ends that the cancellation falls into, the cancellation is
due. -/
theorem Cancellation.During.due {c : Cancellation} {k : Nat}
    (h : c.During w script entry k) :
    ∃ instant,
      (after (c.inScript script) w.interval entry c.atEntry k).cancelAt =
        some instant ∧
      instant ≤ (after (c.inScript script) w.interval entry c.atEntry k).now := by
  cases c with
  | outside instant =>
    refine ⟨instant, ?_, ?_⟩
    · exact after_cancelAt _ _ _ _ k (by simp)
    · simpa using h.2
  | byAttempt j =>
    have hjk : j = k := h
    subst hjk
    refine ⟨_, ?_, Nat.le_refl _⟩
    simp [after, State.ended, Cancellation.inScript, Cancellation.atEntry, before]

/-- A wait whose token is cancelled when it starts does nothing. -/
theorem run_of_early (w : Wait) (script : Nat → Attempt ε α) (holds : α → Bool)
    (entry extra : Nat) {c : Cancellation} (hearly : c.Early entry) :
    w.run (attempt (c.inScript script)) holds extra ⟨entry, c.atEntry, []⟩ =
      some (.error (.cancelled w.description), ⟨entry, c.atEntry, []⟩) := by
  cases c with
  | outside instant => exact run_of_cancelled_before w _ holds entry extra instant hearly
  | byAttempt j => exact hearly.elim

/-- The attempt that a cancellation falls into is carried to its end. It settles
the wait if it would have done so, and else the wait ends as cancelled. -/
theorem run_of_during (hcourse : Course w script holds entry n alone rest)
    (hinterval : 0 < w.interval) (hclock : w.deadline entry < Instant.limit)
    (extra : Nat) (c : Cancellation) {k : Nat} (hk : k < n)
    (hduring : c.During w script entry k) :
    w.run (attempt (c.inScript script)) holds extra ⟨entry, c.atEntry, []⟩ =
      some (if Wait.settles holds (script k).outcome
          then (script k).outcome.mapError .fetch
          else .error (.cancelled w.description),
        after (c.inScript script) w.interval entry c.atEntry k) := by
  have hreaches := hcourse.reaches c hk hduring.follows
  cases hsettles : Wait.settles holds (script k).outcome with
  | true =>
    exact run_of_settled w _ holds entry c.atEntry hinterval hclock extra k hreaches
      hsettles
  | false =>
    obtain ⟨instant, hinstant, hdue⟩ := hduring.due
    exact run_of_cancelled_attempt w _ holds entry c.atEntry hinterval hclock extra k
      instant hreaches hsettles hinstant hdue

/-- A wait that sleeps as its token is cancelled ends at that instant. -/
theorem run_of_asleep (hcourse : Course w script holds entry n alone rest)
    (hinterval : 0 < w.interval) (hclock : w.deadline entry < Instant.limit)
    (extra instant : Nat) {k : Nat} (hk : k < n)
    (hasleep : (Cancellation.outside instant).Asleep w script holds entry k) :
    w.run (attempt ((Cancellation.outside instant).inScript script)) holds extra
        ⟨entry, some instant, []⟩ =
      some (.error (.cancelled w.description),
        ⟨instant, some instant, begun script w.interval entry (k + 1)⟩) := by
  obtain ⟨hsettles, hended, hnext⟩ := hasleep
  have hfollows : (Cancellation.outside instant).Follows w script entry k := by
    change entry + _ < instant
    omega
  have hreaches := hcourse.reaches (.outside instant) hk hfollows
  rw [run_of_cancelled_asleep w _ holds entry hinterval hclock extra k instant hreaches
    hsettles (by simp) (by simpa using hended) (by simpa using hnext)]
  simp

theorem Course.begins_le (hcourse : Course w script holds entry n alone rest)
    {k : Nat} (hk : k < n) :
    entry + offset script w.interval k ≤ rest.now := by
  have htime := ((hcourse.made k).mp hk).1
  by_cases hsettled : ∃ j < n, Wait.settles holds (script j).outcome = true
  · obtain ⟨j, hj, hsettles⟩ := hsettled
    obtain ⟨hn, -, hnow⟩ := hcourse.settled j hj hsettles
    have hmono := offset_mono script w.interval (show k ≤ j by omega)
    omega
  · have hnone : ∀ j < n, Wait.settles holds (script j).outcome = false := by
      intro j hj
      by_contra hne
      exact hsettled ⟨j, hj, by simpa using hne⟩
    have hnow := (hcourse.timedOut hnone).2
    omega

theorem Course.follows_of_late (hcourse : Course w script holds entry n alone rest)
    {c : Cancellation} (hlate : c.Late n rest.now) {k : Nat} (hk : k < n) :
    c.Follows w script entry k := by
  cases c with
  | outside instant =>
    have hlt : rest.now < instant := hlate
    have hbegins := hcourse.begins_le hk
    change entry + offset script w.interval k < instant
    omega
  | byAttempt j =>
    have hle : n ≤ j := hlate
    change k ≤ j
    omega

/-- A wait that is over before the cancellation does not notice it. -/
theorem run_of_late (hcourse : Course w script holds entry n alone rest)
    (hinterval : 0 < w.interval) (hclock : w.deadline entry < Instant.limit)
    (extra : Nat) (c : Cancellation) (hlate : c.Late n rest.now) :
    w.run (attempt (c.inScript script)) holds extra ⟨entry, c.atEntry, []⟩ =
      some (alone, ⟨rest.now, c.atEntry, begun script w.interval entry n⟩) := by
  have hopen (now : Nat) (hnow : now ≤ rest.now) : ∀ i ∈ c.atEntry, now < i := by
    intro i hi
    cases c with
    | outside instant =>
      have heq : instant = i := by simpa [Cancellation.atEntry] using hi
      have hlt : rest.now < instant := hlate
      omega
    | byAttempt j => simp [Cancellation.atEntry] at hi
  cases n with
  | zero =>
    obtain ⟨hresult, hnow⟩ := hcourse.timedOut fun k hk => absurd hk (Nat.not_lt_zero k)
    have hspan := span_eq_zero w script holds entry hcourse.made
    rw [hspan] at hresult hnow
    have hentry : rest.now = entry := by simpa [finished] using hnow
    rw [run_of_no_time w _ holds entry c.atEntry extra hspan (hopen entry (by omega)),
      hresult, hentry]
    simp [finished, begun]
  | succ m =>
    have hm : m < m + 1 := Nat.lt_succ_self m
    have hquiet : (c.inScript script m).cancels = false := by
      cases c with
      | outside instant => simp
      | byAttempt j =>
        have hle : m + 1 ≤ j := hlate
        rw [Cancellation.byAttempt_cancels]
        simp only [decide_eq_false_iff_not]
        omega
    have hreaches := hcourse.reaches c hm (hcourse.follows_of_late hlate hm)
    cases hsettles : Wait.settles holds (script m).outcome with
    | true =>
      obtain ⟨-, hresult, hnow⟩ := hcourse.settled m hm hsettles
      rw [run_of_settled w _ holds entry c.atEntry hinterval hclock extra m hreaches
        hsettles, hresult, hnow]
      simp [after, State.ended, hquiet, before, begun_succ]
    | false =>
      have hunsettled := unsettled_of_last w script holds entry hcourse.made hsettles
      obtain ⟨hresult, hnow⟩ := hcourse.timedOut hunsettled
      simp only [finished] at hresult hnow
      have hlast := last_attempt w script holds entry hcourse.made hsettles
      rw [run_of_timedOut w _ holds entry c.atEntry hinterval hclock extra m hreaches
        hsettles hquiet (by simpa using hlast)
        (hopen _ (by simp only [Cancellation.offset_inScript,
          Cancellation.duration_inScript]; omega))]
      rw [hresult, hnow]
      simp

/-- Among the first attempts there is a last one that begins before an instant. -/
theorem exists_last_begun (script : Nat → Attempt ε α) (interval m : Nat)
    {entry instant : Nat} (hentry : entry < instant) :
    ∃ k ≤ m, entry + offset script interval k < instant ∧
      ∀ i ≤ m, k < i → instant ≤ entry + offset script interval i := by
  let begins (k : Nat) : Prop := entry + offset script interval k < instant
  have hzero : begins 0 := hentry
  refine ⟨Nat.findGreatest begins m, Nat.findGreatest_le m,
    Nat.findGreatest_spec (Nat.zero_le m) hzero, fun i hi hlt => ?_⟩
  have hnot : ¬ begins i := Nat.findGreatest_is_greatest hlt hi
  exact Nat.not_lt.mp hnot

/-- Every cancellation is early or late, or falls into an attempt of the wait or
into a sleep of it. -/
theorem Course.place (hcourse : Course w script holds entry n alone rest)
    (c : Cancellation) :
    c.Early entry ∨ c.Late n rest.now ∨
      ∃ k < n, c.During w script entry k ∨ c.Asleep w script holds entry k := by
  cases c with
  | byAttempt j =>
    rcases Nat.lt_or_ge j n with hlt | hge
    · exact Or.inr (Or.inr ⟨j, hlt, Or.inl rfl⟩)
    · exact Or.inr (Or.inl hge)
  | outside instant =>
    rcases Nat.lt_or_ge entry instant with hentry | hearly
    swap
    · exact Or.inl hearly
    rcases Nat.lt_or_ge rest.now instant with hlate | hend
    · exact Or.inr (Or.inl hlate)
    refine Or.inr (Or.inr ?_)
    cases n with
    | zero =>
      have hnow := (hcourse.timedOut fun k hk => absurd hk (Nat.not_lt_zero k)).2
      have hspan := span_eq_zero w script holds entry hcourse.made
      simp only [hspan, finished] at hnow
      omega
    | succ m =>
      obtain ⟨k, hk, hbegun, hnext⟩ :=
        exists_last_begun script w.interval m hentry
      refine ⟨k, by omega, ?_⟩
      rcases Nat.lt_or_ge (entry + offset script w.interval k + (script k).duration)
        instant with hended | hwithin
      swap
      · exact Or.inl ⟨hbegun, hwithin⟩
      refine Or.inr ?_
      have hunsettled : Wait.settles holds (script k).outcome = false := by
        cases hsettles : Wait.settles holds (script k).outcome with
        | false => rfl
        | true =>
          have hnow := (hcourse.settled k (by omega) hsettles).2.2
          omega
      refine ⟨hunsettled, hended, ?_⟩
      rcases Nat.lt_or_ge k m with hlt | hge
      · have hbegins := hnext (k + 1) (by omega) (by omega)
        have htime := ((hcourse.made (k + 1)).mp (by omega)).1
        omega
      · have hkm : k = m := by omega
        subst hkm
        have hnone := unsettled_of_last w script holds entry hcourse.made hunsettled
        have hnow := (hcourse.timedOut hnone).2
        have hlast := last_attempt w script holds entry hcourse.made hunsettled
        simp only [finished] at hnow
        omega

end Cancelled

/-- How a wait goes whose token is cancelled, beside the `n` attempts, the
result and the last state of the same wait left alone. -/
structure Interrupted (w : Wait) (script : Nat → Attempt ε α) (holds : α → Bool)
    (entry : Nat) (c : Cancellation) (n : Nat) (alone : Except (WaitError ε) α)
    (rest : State) (result : Except (WaitError ε) α) (final : State) : Prop where
  /-- The attempts made are those that the wait left alone begins before the
  cancellation, at the same instants. -/
  starts : ∃ m ≤ n, final.starts.reverse = rest.starts.reverse.take m ∧
    ∀ k < n, k < m ↔ c.Follows w script entry k
  early : c.Early entry → result = .error (.cancelled w.description) ∧
    final.now = entry ∧ final.starts = []
  late : c.Late n rest.now → result = alone ∧ final.now = rest.now ∧
    final.starts = rest.starts
  asleep : ∀ k < n, ∀ instant, c = .outside instant →
    c.Asleep w script holds entry k →
      result = .error (.cancelled w.description) ∧ final.now = instant
  during : ∀ k < n, c.During w script entry k →
    final.now = entry + offset script w.interval k + (script k).duration ∧
    result = if Wait.settles holds (script k).outcome
      then (script k).outcome.mapError .fetch
      else .error (.cancelled w.description)
  /-- No cancellation is left out. -/
  place : c.Early entry ∨ c.Late n rest.now ∨
    ∃ k < n, c.During w script entry k ∨ c.Asleep w script holds entry k

theorem take_begun (script : Nat → Attempt ε α) (interval entry : Nat) {m n : Nat}
    (h : m ≤ n) :
    (begun script interval entry m).reverse =
      (begun script interval entry n).reverse.take m := by
  simp [begun, ← List.map_take, List.take_range, Nat.min_eq_left h]

theorem not_follows_of_early {w : Wait} {script : Nat → Attempt ε α} {entry : Nat}
    {c : Cancellation} (hearly : c.Early entry) (k : Nat) :
    ¬ c.Follows w script entry k := by
  cases c with
  | outside instant =>
    have hle : instant ≤ entry := hearly
    change ¬ entry + offset script w.interval k < instant
    omega
  | byAttempt j => exact hearly.elim

/-- The attempts before and after the one that a cancellation follows up. -/
theorem follows_iff_of_during {w : Wait} {script : Nat → Attempt ε α} {entry : Nat}
    (hinterval : 0 < w.interval) {c : Cancellation} {k : Nat}
    (hduring : c.During w script entry k) (i : Nat) :
    i < k + 1 ↔ c.Follows w script entry i := by
  cases c with
  | byAttempt j =>
    have hjk : j = k := hduring
    subst hjk
    exact Nat.lt_succ_iff
  | outside instant =>
    obtain ⟨hbegun, hwithin⟩ := hduring
    change i < k + 1 ↔ entry + offset script w.interval i < instant
    constructor
    · intro hi
      have hmono := offset_mono script w.interval (Nat.le_of_lt_succ hi)
      omega
    · intro hi
      by_contra hge
      have hlt := offset_lt script hinterval (show k < i by omega)
      omega

theorem follows_iff_of_asleep {w : Wait} {script : Nat → Attempt ε α} {holds : α → Bool}
    {entry : Nat} {c : Cancellation} {k : Nat}
    (hasleep : c.Asleep w script holds entry k) (i : Nat) :
    i < k + 1 ↔ c.Follows w script entry i := by
  cases c with
  | byAttempt j => exact hasleep.elim
  | outside instant =>
    obtain ⟨-, hended, hnext⟩ := hasleep
    change i < k + 1 ↔ entry + offset script w.interval i < instant
    constructor
    · intro hi
      have hmono := offset_mono script w.interval (Nat.le_of_lt_succ hi)
      omega
    · intro hi
      by_contra hge
      have hmono := offset_mono script w.interval (Nat.not_lt.mp hge)
      omega

/-- For every wait, whatever its timeout and its script, and for every
cancellation of its token: the cancelled wait makes the attempts that it would
have begun before the cancellation, an attempt under way is carried to its end
and may still settle it, a sleep is broken off, and a wait that would have been
over before does not notice. -/
theorem run_interrupted (w : Wait) (durations : Nat → Nat)
    (outcomes : Nat → Except ε α) (holds : α → Bool) (entry extra : Nat)
    (c : Cancellation) (hinterval : 0 < w.interval)
    (hclock : Instant.limit ≤ entry + w.timeout →
      entry + Span.far < Instant.limit) :
    let script := plain durations outcomes
    ∃ n alone rest result final,
      w.run (attempt script) holds extra ⟨entry, none, []⟩ = some (alone, rest) ∧
      Course w script holds entry n alone rest ∧
      w.run (attempt (c.inScript script)) holds extra ⟨entry, c.atEntry, []⟩ =
        some (result, final) ∧
      Interrupted w script holds entry c n alone rest result final := by
  intro script
  have hdeadline := w.deadline_lt_limit entry hclock
  obtain ⟨n, alone, rest, hrun, hcourse⟩ := run_follows_course w script holds entry
    hinterval hdeadline (plain_quiet durations outcomes) extra
  have hplace := hcourse.place c
  -- What the cancelled wait gives in each of the four places.
  have hearly (h : c.Early entry) := run_of_early w script holds entry extra h
  have hlate := run_of_late hcourse hinterval hdeadline extra c
  have hduring (k : Nat) := run_of_during hcourse hinterval hdeadline extra c (k := k)
  have hasleep (k instant : Nat) :=
    run_of_asleep hcourse hinterval hdeadline extra instant (k := k)
  obtain ⟨result, final, hresult, hstarts⟩ : ∃ result final,
      w.run (attempt (c.inScript script)) holds extra ⟨entry, c.atEntry, []⟩ =
        some (result, final) ∧
      ∃ m ≤ n, final.starts = begun script w.interval entry m ∧
        ∀ k < n, k < m ↔ c.Follows w script entry k := by
    rcases hplace with h | h | ⟨k, hk, h | h⟩
    · exact ⟨_, _, hearly h, 0, Nat.zero_le n, rfl, fun k _ =>
        ⟨fun hk => absurd hk (Nat.not_lt_zero k),
          fun hk => absurd hk (not_follows_of_early h k)⟩⟩
    · exact ⟨_, _, hlate h, n, Nat.le_refl n, rfl, fun k hk =>
        ⟨fun _ => hcourse.follows_of_late h hk, fun _ => hk⟩⟩
    · exact ⟨_, _, hduring k hk h, k + 1, hk, by simp,
        fun i _ => follows_iff_of_during hinterval h i⟩
    · cases c with
      | outside instant =>
        exact ⟨_, _, hasleep k instant hk h, k + 1, hk, rfl,
          fun i _ => follows_iff_of_asleep h i⟩
      | byAttempt j => exact h.elim
  refine ⟨n, alone, rest, result, final, hrun, hcourse, hresult, ?_, ?_, ?_, ?_, ?_,
    hplace⟩
  · obtain ⟨m, hm, hfinal, hfollows⟩ := hstarts
    exact ⟨m, hm, by rw [hfinal, hcourse.starts_eq, take_begun _ _ _ hm], hfollows⟩
  · intro h
    cases hresult.symm.trans (hearly h)
    exact ⟨rfl, rfl, rfl⟩
  · intro h
    cases hresult.symm.trans (hlate h)
    exact ⟨rfl, rfl, hcourse.starts_eq.symm⟩
  · rintro k hk instant rfl h
    cases hresult.symm.trans (hasleep k instant hk h)
    exact ⟨rfl, rfl⟩
  · intro k hk h
    cases hresult.symm.trans (hduring k hk h)
    exact ⟨by simp, rfl⟩

/-- The second attempt cancels the token as it ends, when the deadline has passed:
left alone the wait times out there, and so it is cancelled. -/
theorem run_interrupted_past_deadline :
    let w : Wait := ⟨"readiness", 1000, 300⟩
    let script := plain (fun k => 900 * k) fun _ => (.ok false : Except String Bool)
    0 < w.interval ∧ 0 + w.timeout < Instant.limit ∧
    ∃ rest final,
      w.run (attempt script) id 0 ⟨0, none, []⟩ =
        some (.error (.timeout "readiness" 1200), rest) ∧
      w.run (attempt ((Cancellation.byAttempt 1).inScript script)) id 0 ⟨0, none, []⟩ =
        some (.error (.cancelled "readiness"), final) ∧
      final.now = 1200 ∧ final.starts.reverse = [0, 300] := by
  intro w script
  refine ⟨by decide, by decide, ?_⟩
  obtain ⟨n, alone, rest, result, final, hrun, hcourse, hcancelled, hinterrupted⟩ :=
    run_interrupted w (fun k => 900 * k) (fun _ => (.ok false : Except String Bool)) id
      0 0 (.byAttempt 1) (by decide) (fun h => absurd h (by decide))
  have hspan : w.span 0 = 1000 := by decide
  have hsecond : 1 < n := by
    rw [hcourse.made 1, hspan]
    exact ⟨by decide, fun j _ => rfl⟩
  have hlast : ¬ 2 < n := by
    rw [hcourse.made 2, hspan]
    exact fun h => absurd h.1 (by decide)
  have hn : n = 2 := by omega
  subst hn
  have halone := (hcourse.timedOut fun _ _ => rfl).1
  have hfinished : finished script w.interval 2 = 1200 := rfl
  rw [hspan, hfinished] at halone
  obtain ⟨hnow, hresult⟩ := hinterrupted.during 1 hsecond rfl
  obtain ⟨m, hm, hstarts, hfollows⟩ := hinterrupted.starts
  have hm : m = 2 := by
    have hbegins : (Cancellation.byAttempt 1).Follows w script 0 1 := Nat.le_refl 1
    have hlt : 1 < m := (hfollows 1 hsecond).mpr hbegins
    omega
  subst hm
  refine ⟨rest, final, ?_, ?_, ?_, ?_⟩
  · rw [hrun, halone]
    rfl
  · refine hcancelled.trans ?_
    rw [hresult]
    rfl
  · simp [hnow, offset, plain, w]
  · rw [hstarts, hcourse.starts]
    simp [List.range_succ, offset, plain, w]

end MeshProbe.Script
