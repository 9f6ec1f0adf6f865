import MeshProbe.Api.Canned
import MeshProbe.Proofs.Graph.Answering

/-!
Waiting for badges, for every sequence of answers. Counting asks once and makes
of the answer what `Counting` says, so the wait follows the course of the script
of those outcomes. Main statement: `waitForBadges_course`.
-/

namespace MeshProbe.Graph

/-- What is asked for the graph of a namespace. -/
def graphCall (space : String) (query : GraphQuery) : ApiCall where
  operation := .graphNamespace
  path := [("namespace", space)]
  query := [("graphType", query.kind.name), ("duration", query.duration)]

section Canned

variable (script : Nat → Operation → Nat × Except ApiError Response)
variable (space : String) (query : GraphQuery) (badge : Badge)

/-- The attempts that the answers of a canned interface come to, after it was
asked `asked` times before. -/
def attempts (asked : Nat) : Nat → Script.Attempt ApiError Nat :=
  Script.plain (fun k => (script (asked + k) .graphNamespace).1)
    (fun k => countOf badge (script (asked + k) .graphNamespace).2)

/-- A canned interface answers by its script, and keeps what it was asked. -/
theorem canned_answers (start : Canned) :
    Answers (Canned.timedApi script) space query
      (fun n => script (start.asked.length + n) .graphNamespace)
      (fun n c => c.asked = List.replicate n (graphCall space query) ++ start.asked) where
  isOpen _ := rfl
  ask {n c} hasked := by
    have hlength : c.asked.length = start.asked.length + n := by
      simp [hasked, Nat.add_comm]
    rw [← hlength]
    refine ⟨_, rfl, ?_, rfl⟩
    change graphCall space query :: c.asked = _
    rw [hasked, List.replicate_succ, List.cons_append]
  sleep _ hasked := ⟨hasked, rfl⟩
  note _ hasked := ⟨hasked, rfl⟩

/-- The count lies within the bound that the condition displays. -/
def MeetsDisplay (condition : BadgeCondition) (count : Nat) : Prop :=
  (∃ bound, condition.render = "at least " ++ toString bound ++ " node(s)" ∧
    bound ≤ count) ∨
  (∃ bound, condition.render = "at most " ++ toString bound ++ " node(s)" ∧
    count ≤ bound)

theorem meetsDisplay_of_holds {condition : BadgeCondition} {count : Nat}
    (h : condition.holds count = true) : MeetsDisplay condition count := by
  cases condition with
  | atLeast bound =>
    have hcount : count ≠ 0 ∧ bound ≤ count := by simpa [BadgeCondition.holds] using h
    exact Or.inl ⟨max bound 1, rfl, by omega⟩
  | atMost bound =>
    have hcount : count ≤ bound := by simpa [BadgeCondition.holds] using h
    exact Or.inr ⟨bound, rfl, hcount⟩

/-- A wait for badges over a canned interface does what the same wait does over
the script of its answers. -/
theorem exec_waitForBadges (condition : BadgeCondition) (w : Wait) (s : Canned)
    (hinterval : 0 < w.interval)
    (hclock : Instant.limit ≤ s.now + w.timeout → s.now + Span.far < Instant.limit) :
    ∃ n result final,
      (waitForBadges (Canned.timedApi script) space query badge condition w).exec s =
        (result, final) ∧
      final.asked = List.replicate n (graphCall space query) ++ s.asked ∧
      ∃ last, Script.Course w (attempts script badge s.asked.length) condition.holds
        s.now n result last := by
  have hnone : s.asked = List.replicate 0 (graphCall space query) ++ s.asked := rfl
  obtain ⟨n, result, final, hexec, hasked, last, hcourse, -⟩ :=
    (canned_answers script space query s).exec_waitForBadges badge condition w
      hnone hinterval hclock
  rw [Nat.zero_add] at hasked
  refine ⟨n, result, final, hexec, hasked, last, ?_⟩
  have hcounts : countsFrom (fun n => script (s.asked.length + n) .graphNamespace) badge 0 =
      attempts script badge s.asked.length := by
    simp only [countsFrom, attempts, Nat.zero_add]
  rwa [hcounts] at hcourse

/-- For every sequence of answers, each an error or a status with a body and each
taking its time: a wait for badges asks for the graph once an attempt, always for
the same. It passes over graphs whose count the condition does not admit; the
first other answer ends it, with the count of a graph or with the error of an
answer that is none; and without such an answer it times out. -/
theorem waitForBadges_course (condition : BadgeCondition) (w : Wait) (s : Canned)
    (hinterval : 0 < w.interval)
    (hclock : Instant.limit ≤ s.now + w.timeout → s.now + Span.far < Instant.limit) :
    let answer (k : Nat) := (script (s.asked.length + k) .graphNamespace).2
    let begins := Script.offset (attempts script badge s.asked.length) w.interval
    ∃ n result final,
      (waitForBadges (Canned.timedApi script) space query badge condition w).exec s =
        (result, final) ∧
      final.asked = List.replicate n (graphCall space query) ++ s.asked ∧
      (∀ k, k < n ↔ begins k < w.span s.now ∧
        ∀ j < k, Misses badge condition (answer j)) ∧
      ((∀ k < n, Misses badge condition (answer k)) →
        ∃ elapsed, w.span s.now ≤ elapsed ∧
          result = .error (.timeout w.description elapsed)) ∧
      (∀ k < n, ∀ count, IsGraph badge (answer k) count →
        condition.holds count = true →
          n = k + 1 ∧ result = .ok count ∧ MeetsDisplay condition count) ∧
      ∀ k < n, (∀ count, ¬ IsGraph badge (answer k) count) →
        n = k + 1 ∧ ∃ e, Refuses (answer k) e ∧ result = .error (.fetch e) := by
  intro answer begins
  obtain ⟨n, result, final, hexec, hasked, last, hcourse⟩ :=
    exec_waitForBadges script space query badge condition w s hinterval hclock
  have houtcome (k : Nat) :
      (attempts script badge s.asked.length k).outcome = countOf badge (answer k) := rfl
  have hmisses (k : Nat) : Wait.settles condition.holds
      (attempts script badge s.asked.length k).outcome = false ↔
        Misses badge condition (answer k) := by
    rw [houtcome, settles_eq_false_iff]
  refine ⟨n, result, final, hexec, hasked, ?_, ?_, ?_, ?_⟩
  · intro k
    rw [hcourse.made k]
    simp only [hmisses]
    rfl
  · intro hnone
    obtain ⟨hresult, -⟩ := hcourse.timedOut fun k hk => (hmisses k).mpr (hnone k hk)
    exact ⟨_, Nat.le_max_left _ _, hresult⟩
  · intro k hk count hgraph hholds
    have hcount := (countOf_eq_ok_iff badge (answer k) count).mpr hgraph
    obtain ⟨hn, hresult, -⟩ := hcourse.settled k hk (by rw [houtcome, hcount]; exact hholds)
    rw [houtcome, hcount] at hresult
    exact ⟨hn, hresult, meetsDisplay_of_holds hholds⟩
  · intro k hk hnone
    cases hcount : countOf badge (answer k) with
    | ok count => exact absurd ((countOf_eq_ok_iff badge _ count).mp hcount) (hnone count)
    | error e =>
      obtain ⟨hn, hresult, -⟩ :=
        hcourse.settled k hk (by rw [houtcome, hcount]; rfl)
      rw [houtcome, hcount] at hresult
      exact ⟨hn, e, (countOf_eq_error_iff badge _ e).mp hcount, hresult⟩

/-- A server that is not available ends the wait with the first answer. -/
theorem waitForBadges_course_of_unavailable :
    0 < 1000 ∧ 0 + 5000 < Instant.limit ∧ ∃ final,
      (waitForBadges (Canned.timedApi fun _ _ => (250, .ok ⟨.graphNamespace, 503, []⟩))
        "bookinfo" (.ofKind .workload) .circuitBreaker (.atLeast 0)
        ⟨"Create", 5000, 1000⟩).exec Canned.initial =
          (.error (.fetch (.unexpectedStatus .graphNamespace 200 503 "")), final) ∧
      final.asked = [graphCall "bookinfo" (.ofKind .workload)] := by
  refine ⟨by decide, by decide, ?_⟩
  obtain ⟨n, result, final, hexec, hasked, hmade, -, -, hrefused⟩ :=
    waitForBadges_course (fun _ _ => (250, .ok ⟨.graphNamespace, 503, []⟩)) "bookinfo"
      (.ofKind .workload) .circuitBreaker (.atLeast 0) ⟨"Create", 5000, 1000⟩
      Canned.initial (by decide) (fun h => absurd h (by decide))
  have hfirst : 0 < n := (hmade 0).mpr ⟨by decide, fun j hj => absurd hj (Nat.not_lt_zero j)⟩
  obtain ⟨hn, e, hrefuses, hresult⟩ := hrefused 0 hfirst (by
    rintro count ⟨r, graph, elements, items, hr, hstatus, -⟩
    cases hr
    cases hstatus)
  have he : e = .unexpectedStatus .graphNamespace 200 503 "" := by
    cases hrefuses with
    | status r h => rfl
    | body r e h => cases h
    | nodes r graph h => cases h
  exact ⟨final, by rw [hexec, hresult, he], by rw [hasked, hn]; rfl⟩

end Canned

end MeshProbe.Graph
