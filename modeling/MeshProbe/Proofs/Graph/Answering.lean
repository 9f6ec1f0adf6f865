import MeshProbe.Graph.Wait
import MeshProbe.Proofs.Action
import MeshProbe.Proofs.Graph.Counting
import MeshProbe.Proofs.Wait.Course

/-!
Waiting for badges over any interface whose answers to the same question follow
a script: the wait takes the course of the script of the counts that the answers
come to.
-/

namespace MeshProbe.Graph

/-- What an outcome of a request comes to as the value of a graph. -/
def graphOf (outcome : Except ApiError Response) : Except ApiError Json.Value := do
  let response ← outcome
  let response ← response.expectStatus 200
  response.json

theorem graphOf_eq_ok_iff (outcome : Except ApiError Response) (graph : Json.Value) :
    graphOf outcome = .ok graph ↔ ∃ response, outcome = .ok response ∧
      response.status = 200 ∧ Json.parse response.body = .ok graph := by
  cases outcome with
  | error e => simp [graphOf, bind, Except.bind]
  | ok r =>
    change (r.expectStatus 200 >>= Response.json) = _ ↔ _
    unfold Response.expectStatus
    by_cases hstatus : r.status = 200
    · rw [if_pos hstatus]
      change r.json = _ ↔ _
      unfold Response.json
      cases hparse : Json.parse r.body <;> simp [hstatus, hparse]
    · rw [if_neg hstatus]
      simp [bind, Except.bind, hstatus]

theorem countOf_eq_bind (badge : Badge) (outcome : Except ApiError Response) :
    countOf badge outcome = graphOf outcome >>= fun graph => countBadges graph badge := by
  cases outcome with
  | error e => rfl
  | ok r =>
    change (r.expectStatus 200 >>= fun r => r.json >>= _) = _
    unfold graphOf
    cases hstatus : r.expectStatus 200 <;> simp [hstatus, bind, Except.bind]

section Asking

variable {σ : Type} (api : Api σ) (space : String) (query : GraphQuery) {s after : σ}
variable {outcome : Except ApiError Response}

/-- The graph is asked for once, over any interface, and nothing else is done. -/
theorem exec_graph
    (hrequest : (api.request .graphNamespace [("namespace", space)]
      query.parameters).exec s = (outcome, after)) :
    (api.graph space query).exec s = (graphOf outcome, after) := by
  unfold Api.graph Api.getJson
  cases outcome with
  | error e => exact Action.exec_bind_error _ hrequest
  | ok r =>
    rw [Action.exec_bind_ok _ hrequest, Action.exec_bind, Action.exec_ofExcept]
    unfold graphOf
    cases hstatus : r.expectStatus 200 <;> simp [hstatus, bind, Except.bind]

theorem exec_badgeCount (badge : Badge)
    (hrequest : (api.request .graphNamespace [("namespace", space)]
      query.parameters).exec s = (outcome, after)) :
    (badgeCount api space query badge).exec s = (countOf badge outcome, after) := by
  unfold badgeCount
  rw [Action.exec_bind, exec_graph api space query hrequest, countOf_eq_bind]
  cases graphOf outcome <;> rfl

end Asking

section Misses

variable (badge : Badge)

/-- The answer is a graph whose count the condition does not admit: the only kind
of answer that the wait passes over. -/
def Misses (condition : BadgeCondition) (outcome : Except ApiError Response) : Prop :=
  ∃ count, IsGraph badge outcome count ∧ condition.holds count = false

theorem settles_eq_false_iff (condition : BadgeCondition)
    (outcome : Except ApiError Response) :
    Wait.settles condition.holds (countOf badge outcome) = false ↔
      Misses badge condition outcome := by
  constructor
  · intro h
    cases hcount : countOf badge outcome with
    | error e =>
      rw [hcount] at h
      cases h
    | ok count =>
      rw [hcount] at h
      exact ⟨count, (countOf_eq_ok_iff badge outcome count).mp hcount, h⟩
  · rintro ⟨count, hgraph, hholds⟩
    rw [(countOf_eq_ok_iff badge outcome count).mpr hgraph]
    exact hholds

end Misses

/-- The attempts that a script of answers comes to, from an answer on. -/
def countsFrom (script : Nat → Nat × Except ApiError Response) (badge : Badge)
    (first : Nat) : Nat → Script.Attempt ApiError Nat :=
  Script.plain (fun k => (script (first + k)).1)
    (fun k => countOf badge (script (first + k)).2)

section Answers

variable {σ : Type} [Clock σ] [Logbook σ]

/-- An interface that answers a question by a script. `reached n` holds in the
states in which the question was asked `n` times; neither sleeping nor records
matter to it, and nobody cancels. -/
structure Answers (api : Api σ) (space : String) (query : GraphQuery)
    (script : Nat → Nat × Except ApiError Response) (reached : Nat → σ → Prop) : Prop where
  isOpen : ∀ {n s}, reached n s → Clock.isCancelled s = false
  ask : ∀ {n s}, reached n s → ∃ after,
    (api.request .graphNamespace [("namespace", space)] query.parameters).exec s =
        ((script n).2, after) ∧
      reached (n + 1) after ∧ Clock.now after = Clock.now s + (script n).1
  sleep : ∀ {n s} (wake : Nat), reached n s → reached n (Clock.sleepUntil wake s) ∧
    Clock.now (Clock.sleepUntil wake s) = max (Clock.now s) wake
  note : ∀ {n s} (record : Record), reached n s → reached n (Logbook.note record s) ∧
    Clock.now (Logbook.note record s) = Clock.now s

/-- A run of a script stands where the interface stands that answers by it. -/
structure Alike (reached : Nat → σ → Prop) (first : Nat) (s : Script.State) (t : σ) :
    Prop where
  now : s.now = Clock.now t
  uncancelled : s.cancelAt = none
  reached : reached (first + s.starts.length) t

variable {api : Api σ} {space : String} {query : GraphQuery}
variable {script : Nat → Nat × Except ApiError Response} {reached : Nat → σ → Prop}

theorem Answers.corresponds (h : Answers api space query script reached) (badge : Badge)
    (first : Nat) :
    Wait.Corresponds (Alike reached first)
      (Script.attempt (countsFrom script badge first))
      (badgeCount api space query badge) where
  now halike := halike.now
  cancelled {s t} halike := by
    have hopen : Script.State.cancelled s = false := by
      simp [Script.State.cancelled, halike.uncancelled]
    rw [h.isOpen halike.reached]
    exact hopen
  sleep {s t} wake halike := by
    obtain ⟨hreached, hnow⟩ := h.sleep wake halike.reached
    have hsleep : Script.State.sleepUntil wake s = { s with now := max s.now wake } := by
      simp [Script.State.sleepUntil, halike.uncancelled]
    change Alike reached first (Script.State.sleepUntil wake s) _
    rw [hsleep]
    exact ⟨by simp [hnow, halike.now], halike.uncancelled, hreached⟩
  outcome {s t} halike := by
    obtain ⟨after, hrequest, -, -⟩ := h.ask halike.reached
    rw [exec_badgeCount api space query badge hrequest, Script.exec_attempt]
    rfl
  after {s t} halike := by
    obtain ⟨after, hrequest, hreached, hnow⟩ := h.ask halike.reached
    rw [exec_badgeCount api space query badge hrequest, Script.exec_attempt]
    refine ⟨?_, ?_, hreached⟩
    · simp only [Script.State.ended, hnow, halike.now]
      rfl
    · simpa [Script.State.ended, countsFrom, Script.plain] using halike.uncancelled

/-- A wait for badges over an interface that answers by a script takes the course
of that script. -/
theorem Answers.exec_waitForBadges (h : Answers api space query script reached)
    (badge : Badge) (condition : BadgeCondition) (w : Wait) {first : Nat} {s : σ}
    (hreached : reached first s) (hinterval : 0 < w.interval)
    (hclock : Instant.limit ≤ Clock.now s + w.timeout →
      Clock.now s + Span.far < Instant.limit) :
    ∃ n result final,
      (waitForBadges api space query badge condition w).exec s = (result, final) ∧
      reached (first + n) final ∧
      ∃ last, Script.Course w (countsFrom script badge first) condition.holds
        (Clock.now s) n result last ∧ last.now = Clock.now final := by
  let noted := Logbook.note (waitRecord space query badge condition w) s
  obtain ⟨hnoted, hnow⟩ := h.note (waitRecord space query badge condition w) hreached
  have halike : Alike reached first ⟨Clock.now s, none, []⟩ noted := ⟨hnow.symm, rfl, hnoted⟩
  obtain ⟨n, result, last, hrun, hcourse⟩ := Script.run_follows_course w
    (countsFrom script badge first) condition.holds (Clock.now s) hinterval
    (w.deadline_lt_limit _ hclock) (Script.plain_quiet _ _) 0
  have hrel := Wait.run_correspond (h.corresponds badge first) w condition.holds 0 halike
  rw [hrun] at hrel
  cases hwait : w.run (badgeCount api space query badge) condition.holds 0 noted with
  | none =>
    rw [hwait] at hrel
    cases hrel
  | some finished =>
    obtain ⟨result', final⟩ := finished
    rw [hwait] at hrel
    cases hrel with
    | some h =>
      obtain ⟨rfl, hfinal⟩ := h
      refine ⟨n, result, final, ?_, ?_, last, hcourse, hfinal.now⟩
      · exact (Action.exec_bind_ok _ (Action.exec_note _ s)).trans (Wait.exec_action hwait)
      · have hstarts : last.starts.length = n := by
          rw [hcourse.starts_eq, Script.begun_length]
        rw [← hstarts]
        exact hfinal.reached

end Answers

/-- How long after the start of a wait, whose first answer is the `first`th of a
script, its `k`th request is sent. -/
def sentAfter (script : Nat → Nat × Except ApiError Response) (interval first : Nat) :
    Nat → Nat
  | 0 => 0
  | k + 1 => sentAfter script interval first k + (script (first + k)).1 + interval

theorem offset_countsFrom (script : Nat → Nat × Except ApiError Response) (badge : Badge)
    (interval first k : Nat) :
    Script.offset (countsFrom script badge first) interval k =
      sentAfter script interval first k := by
  induction k with
  | zero => rfl
  | succ k ih =>
    rw [Script.offset, sentAfter, ih]
    rfl

/-- The `k`th answer of a wait ends it well: it was asked for within the timeout,
it is a graph with a count that is admitted, and every answer before it was a
graph with one that is not. -/
structure MetAt (script : Nat → Nat × Except ApiError Response) (badge : Badge)
    (interval timeout first : Nat) (admits : Nat → Prop) (k : Nat) : Prop where
  inTime : sentAfter script interval first k < timeout
  missed : ∀ j < k, ∃ count, IsGraph badge (script (first + j)).2 count ∧ ¬ admits count
  met : ∃ count, IsGraph badge (script (first + k)).2 count ∧ admits count

theorem isGraph_unique {badge : Badge} {outcome : Except ApiError Response} {m n : Nat}
    (hm : IsGraph badge outcome m) (hn : IsGraph badge outcome n) : m = n := by
  rw [← countOf_eq_ok_iff] at hm hn
  rw [hm] at hn
  cases hn
  rfl

section Met

variable {script : Nat → Nat × Except ApiError Response} {badge : Badge}
variable {interval timeout first : Nat} {admits : Nat → Prop}

theorem MetAt.not_lt {j k : Nat} (hj : MetAt script badge interval timeout first admits j)
    (hk : MetAt script badge interval timeout first admits k) : ¬ j < k := by
  intro hlt
  obtain ⟨count, hgraph, hadmits⟩ := hj.met
  obtain ⟨count', hgraph', hmissed⟩ := hk.missed j hlt
  rw [isGraph_unique hgraph' hgraph] at hmissed
  exact hmissed hadmits

/-- At most one answer ends a wait. -/
theorem MetAt.unique {j k : Nat} (hj : MetAt script badge interval timeout first admits j)
    (hk : MetAt script badge interval timeout first admits k) : j = k :=
  Nat.le_antisymm (Nat.not_lt.mp (hk.not_lt hj)) (Nat.not_lt.mp (hj.not_lt hk))

variable {condition : BadgeCondition} {w : Wait} {entry n : Nat}
variable {result : Except (WaitError ApiError) Nat} {last : Script.State}

theorem settles_of_met (hadmits : ∀ count, condition.holds count = true ↔ admits count)
    {k : Nat} (hmet : ∃ count, IsGraph badge (script (first + k)).2 count ∧ admits count) :
    ∃ count, (countsFrom script badge first k).outcome = .ok count ∧
      condition.holds count = true := by
  obtain ⟨count, hgraph, hadmitted⟩ := hmet
  exact ⟨count, (countOf_eq_ok_iff badge _ count).mpr hgraph, (hadmits count).mpr hadmitted⟩

theorem unsettled_iff_missed (hadmits : ∀ count, condition.holds count = true ↔ admits count)
    (k : Nat) :
    Wait.settles condition.holds (countsFrom script badge first k).outcome = false ↔
      ∃ count, IsGraph badge (script (first + k)).2 count ∧ ¬ admits count := by
  refine (settles_eq_false_iff badge condition _).trans (exists_congr fun count => ?_)
  rw [← hadmits count, Bool.not_eq_true]

/-- A wait either ends well, with the first answer that is admitted, or it fails
and no answer could have ended it well. -/
theorem met_or_failed (hadmits : ∀ count, condition.holds count = true ↔ admits count)
    (hspan : w.span entry = timeout) (hinterval : w.interval = interval)
    (hcourse : Script.Course w (countsFrom script badge first) condition.holds entry n
      result last) :
    (∃ k count, n = k + 1 ∧ result = .ok count ∧
      MetAt script badge interval timeout first admits k) ∨
    (∃ e, result = .error e) ∧
      ∀ k, ¬ MetAt script badge interval timeout first admits k := by
  have hmade (k : Nat) : k < n ↔ sentAfter script interval first k < timeout ∧
      ∀ j < k, ∃ count, IsGraph badge (script (first + j)).2 count ∧ ¬ admits count := by
    rw [hcourse.made k, hspan, hinterval, offset_countsFrom]
    simp only [unsettled_iff_missed hadmits]
  have hsettles {k : Nat} (hmet : MetAt script badge interval timeout first admits k) :
      k < n ∧ ∃ count, (countsFrom script badge first k).outcome = .ok count ∧
        condition.holds count = true :=
    ⟨(hmade k).mpr ⟨hmet.inTime, hmet.missed⟩, settles_of_met hadmits hmet.met⟩
  by_cases hall : ∀ k < n,
      Wait.settles condition.holds (countsFrom script badge first k).outcome = false
  · refine Or.inr ⟨⟨_, (hcourse.timedOut hall).1⟩, fun k hmet => ?_⟩
    obtain ⟨hk, count, houtcome, hholds⟩ := hsettles hmet
    have hunsettled := hall k hk
    rw [houtcome] at hunsettled
    exact absurd (hholds.symm.trans hunsettled) (by decide)
  · obtain ⟨k, hk, hsettled⟩ : ∃ k < n, Wait.settles condition.holds
        (countsFrom script badge first k).outcome = true := by
      simpa using hall
    obtain ⟨hn, hresult, -⟩ := hcourse.settled k hk hsettled
    cases houtcome : (countsFrom script badge first k).outcome with
    | error e =>
      rw [houtcome] at hresult
      refine Or.inr ⟨⟨_, hresult⟩, fun k' hmet => ?_⟩
      obtain ⟨hk', count, houtcome', hholds⟩ := hsettles hmet
      obtain ⟨hn', -, -⟩ := hcourse.settled k' hk' (by rw [houtcome']; exact hholds)
      have hkk : k' = k := by omega
      rw [hkk, houtcome] at houtcome'
      cases houtcome'
    | ok count =>
      rw [houtcome] at hresult hsettled
      have hgraph : IsGraph badge (script (first + k)).2 count :=
        (countOf_eq_ok_iff badge _ count).mp houtcome
      exact Or.inl ⟨k, count, hn, hresult, ((hmade k).mp hk).1, ((hmade k).mp hk).2,
        count, hgraph, (hadmits count).mp hsettled⟩

end Met

end MeshProbe.Graph
