import MeshProbe.Proofs.Api.Exchange
import MeshProbe.Proofs.Graph.Answering
import MeshProbe.Proofs.Session.Operations

/-!
What the stages of a check of a badge come to, given the answers to asking for
the graph again and again: the count before the check, and the waits for a count
in it. Time does not run back in any of them.
-/

namespace MeshProbe.Session

variable {ε α β : Type}

/-- The answers to asking for a session's graph again and again, each behind the
time that it takes. -/
def graphReplies (s : Session) (query : GraphQuery) (net : Network) :
    Nat → Nat × Except ApiError Response :=
  s.client.replies .graphNamespace [("namespace", s.space)] query.parameters net

/-- The graph was asked for `n` times, from a network on; the files and the
commands are as given. -/
structure Asked (s : Session) (query : GraphQuery) (net : Network) (files : Files)
    (commands : Commands) (n : Nat) (w : World) : Prop where
  network : w.network =
    s.client.networkAfter .graphNamespace [("namespace", s.space)] query.parameters net n
  files : w.files = files
  commands : w.commands = commands

section Asked

variable (s : Session) (query : GraphQuery) (net : Network) (files : Files)
variable (commands : Commands)

theorem answers : Graph.Answers s.client.api s.space query (s.graphReplies query net)
    (s.Asked query net files commands) where
  isOpen _ := rfl
  ask {n w} h := by
    have hexec := s.client.exec_request .graphNamespace [("namespace", s.space)]
      query.parameters w
    rw [h.network] at hexec
    refine ⟨_, hexec, ⟨?_, h.files, h.commands⟩, rfl⟩
    exact (s.client.networkAfter_succ _ _ _ net n).symm
  sleep _ h := ⟨⟨h.network, h.files, h.commands⟩, rfl⟩
  note _ h := ⟨⟨h.network, h.files, h.commands⟩, rfl⟩

end Asked

/-! ### Time -/

/-- A step in which time does not run back. -/
def Forward (action : Action (Session × World) ε α) : Prop :=
  ∀ x, x.2.now ≤ (action.exec x).2.2.now

theorem forward_outside {action : Action World ε α}
    (h : ∀ w, w.now ≤ (action.exec w).2.now) : Forward (outside action) :=
  fun x => h x.2

theorem Forward.bind {action : Action (Session × World) ε α}
    {next : α → Action (Session × World) ε β} (haction : Forward action)
    (hnext : ∀ a, Forward (next a)) : Forward (action >>= next) := by
  intro x
  have hfirst := haction x
  rcases Action.exec_bind_cases (s := x) rfl with ⟨e, hexec, -⟩ | ⟨a, after, hexec, hsecond⟩
  · rw [hexec] at hfirst
    exact hfirst
  · rw [hexec] at hfirst
    have hrest := hnext a after
    rw [hsecond] at hrest
    exact hfirst.trans hrest

theorem badgeCount_now_le (client : Client) (space : String) (query : GraphQuery)
    (badge : Badge) (w : World) :
    w.now ≤ ((Graph.badgeCount client.api space query badge).exec w).2.now := by
  rw [Graph.exec_badgeCount client.api space query badge (client.exec_request _ _ _ w)]
  exact Nat.le_add_right _ _

theorem waitForBadges_now_le (client : Client) (space : String) (query : GraphQuery)
    (badge : Badge) (condition : BadgeCondition) (wait : Wait) (w : World) :
    w.now ≤
      ((Graph.waitForBadges client.api space query badge condition wait).exec w).2.now := by
  have hexec := Action.exec_bind_ok
    (fun _ => wait.action (Graph.badgeCount client.api space query badge) condition.holds)
    (Action.exec_note (Graph.waitRecord space query badge condition wait) w)
  change w.now ≤ (Action.exec (_ >>= _) w).2.now
  rw [hexec]
  exact wait.action_now_le (σ := World) condition.holds
    (badgeCount_now_le client space query badge) (fun wake w => Nat.le_max_left w.now wake)
    (Logbook.note _ w)

theorem forward_awaitBadge (query : GraphQuery) (badge : Badge) (condition : BadgeCondition)
    (wait : Wait) : Forward (awaitBadge query badge condition wait) := by
  refine Forward.bind (fun _ => Nat.le_refl _) fun s => ?_
  refine Forward.bind (forward_outside fun w => ?_) fun _ _ => Nat.le_refl _
  rw [Action.exec_mapError]
  exact waitForBadges_now_le s.client s.space query badge condition wait w

theorem forward_deleteAsset (name : String) : Forward (deleteAsset name) := by
  refine Forward.bind (fun _ => Nat.le_refl _) fun s => ?_
  refine Forward.bind (fun _ => Nat.le_refl _) fun _ => ?_
  refine Forward.bind (forward_outside fun w => ?_) fun done => ?_
  · rw [Action.exec_mapError]
    exact (s.tool.manifest_onlyRun .delete (s.assetPath name) s.space w).now.ge
  · cases done <;> exact fun _ => Nat.le_refl _

/-! ### The count before -/

/-- The outcome is an answer of status 200 with the graph of a kind. -/
def IsKind (kind : GraphKind) (outcome : Except ApiError Response) : Prop :=
  ∃ response graph, outcome = .ok response ∧ response.status = 200 ∧
    Json.parse response.body = .ok graph ∧
    graph.get? "graphType" = some (.string kind.name)

/-- The first two of a script of answers tell how many nodes carry the badge: one
is a graph of the kind asked for, the other a graph with that count. -/
def Baseline (query : GraphQuery) (badge : Badge)
    (script : Nat → Nat × Except ApiError Response) (count : Nat) : Prop :=
  IsKind query.kind (script 0).2 ∧ Graph.IsGraph badge (script 1).2 count

theorem checkKind_eq_ok_iff (space : String) (kind : GraphKind) (graph : Json.Value) :
    checkKind space kind graph = .ok () ↔
      graph.get? "graphType" = some (.string kind.name) := by
  unfold checkKind
  cases graph.get? "graphType" with
  | none => simp
  | some found =>
    cases found <;> simp [Json.Value.asString?]

/-- What two answers come to as the count before a check. -/
def baselineOf (space : String) (query : GraphQuery) (badge : Badge)
    (first second : Except ApiError Response) : Except Failure Nat := do
  let graph ← (Graph.graphOf first).mapError .api
  checkKind space query.kind graph
  (Graph.countOf badge second).mapError .api

theorem isKind_iff (space : String) (kind : GraphKind)
    (outcome : Except ApiError Response) :
    IsKind kind outcome ↔ ∃ graph, Graph.graphOf outcome = .ok graph ∧
      checkKind space kind graph = .ok () := by
  constructor
  · rintro ⟨response, graph, houtcome, hstatus, hparse, hkind⟩
    exact ⟨graph, (Graph.graphOf_eq_ok_iff outcome graph).mpr
      ⟨response, houtcome, hstatus, hparse⟩, (checkKind_eq_ok_iff space kind graph).mpr hkind⟩
  · rintro ⟨graph, hgraph, hkind⟩
    obtain ⟨response, houtcome, hstatus, hparse⟩ :=
      (Graph.graphOf_eq_ok_iff outcome graph).mp hgraph
    exact ⟨response, graph, houtcome, hstatus, hparse,
      (checkKind_eq_ok_iff space kind graph).mp hkind⟩

theorem baselineOf_eq_ok_iff (space : String) (query : GraphQuery) (badge : Badge)
    (script : Nat → Nat × Except ApiError Response) (count : Nat) :
    baselineOf space query badge (script 0).2 (script 1).2 = .ok count ↔
      Baseline query badge script count := by
  unfold baselineOf Baseline
  simp only [isKind_iff space, ← Graph.countOf_eq_ok_iff, bind_eq_ok, mapError_eq_ok]
  constructor
  · rintro ⟨graph, hgraph, ⟨⟩, hkind, hcount⟩
    exact ⟨⟨graph, hgraph, hkind⟩, hcount⟩
  · rintro ⟨⟨graph, hgraph, hkind⟩, hcount⟩
    exact ⟨graph, hgraph, ⟨⟩, hkind, hcount⟩

/-- Counting before a check asks for the graph once or twice. -/
theorem exec_baselineCount {s : Session} {query : GraphQuery} (badge : Badge)
    {net : Network} {files : Files} {commands : Commands} {w : World}
    (hasked : s.Asked query net files commands 0 w) :
    let script := s.graphReplies query net
    let outcome := baselineOf s.space query badge (script 0).2 (script 1).2
    ∃ w', (baselineCount query badge).exec (s, w) = (outcome, (s, w')) ∧
      w'.files = files ∧ w'.commands = commands ∧
      ∀ count, outcome = .ok count → s.Asked query net files commands 2 w' := by
  intro script outcome
  have hanswers := s.answers query net files commands
  obtain ⟨w₁, hrequest₁, hasked₁, -⟩ := hanswers.ask hasked
  obtain ⟨w₂, hrequest₂, hasked₂, -⟩ := hanswers.ask hasked₁
  have hgraph := exec_outside Failure.api _ s
    (Graph.exec_graph s.client.api s.space query hrequest₁)
  have hcount := exec_outside Failure.api _ s
    (Graph.exec_badgeCount s.client.api s.space query badge hrequest₂)
  rw [show (baselineCount query badge).exec (s, w) = _ from
    Action.exec_bind_ok _ (exec_current (s, w))]
  cases hfirst : Graph.graphOf (script 0).2 with
  | error e =>
    have houtcome : outcome = .error (.api e) := by
      simp only [outcome, baselineOf, hfirst]
      rfl
    rw [hfirst] at hgraph
    rw [Action.exec_bind_error _ hgraph, houtcome]
    exact ⟨w₁, rfl, hasked₁.files, hasked₁.commands, fun _ h => by cases h⟩
  | ok graph =>
    rw [hfirst] at hgraph
    rw [Action.exec_bind_ok _ hgraph]
    have hrest : outcome = checkKind s.space query.kind graph >>= fun _ =>
        (Graph.countOf badge (script 1).2).mapError .api := by
      simp only [outcome, baselineOf, hfirst]
      rfl
    cases hkind : checkKind s.space query.kind graph with
    | error f =>
      have houtcome : outcome = .error f := by rw [hrest, hkind]; rfl
      rw [Action.exec_bind_error _ (Action.exec_ofExcept _ _), houtcome]
      exact ⟨w₁, rfl, hasked₁.files, hasked₁.commands, fun _ h => by cases h⟩
    | ok found =>
      rw [Action.exec_bind_ok _ (Action.exec_ofExcept _ _)]
      cases hsecond : Graph.countOf badge (script 1).2 with
      | error e =>
        have houtcome : outcome = .error (.api e) := by rw [hrest, hkind, hsecond]; rfl
        rw [hsecond] at hcount
        rw [Action.exec_bind_error _ hcount, houtcome]
        exact ⟨w₂, rfl, hasked₂.files, hasked₂.commands, fun _ h => by cases h⟩
      | ok count =>
        have houtcome : outcome = .ok count := by rw [hrest, hkind, hsecond]; rfl
        rw [hsecond] at hcount
        rw [Action.exec_bind_ok _ hcount, houtcome]
        exact ⟨_, rfl, hasked₂.files, hasked₂.commands,
          fun _ _ => (hanswers.note _ hasked₂).1⟩

/-! ### The waits -/

/-- A wait of a check passes over the answers from the `first`th on. It succeeds
exactly if one of them ends it well. -/
theorem exec_awaitBadge {s : Session} {query : GraphQuery} (badge : Badge)
    {net : Network} {files : Files} {commands : Commands} {first : Nat} {w : World}
    (hasked : s.Asked query net files commands first w) {condition : BadgeCondition}
    {admits : Nat → Prop} (hadmits : ∀ count, condition.holds count = true ↔ admits count)
    (description : String) (timeout : Nat) (hclock : w.now + timeout < Instant.limit) :
    let Met := Graph.MetAt (s.graphReplies query net) badge Wait.defaultInterval timeout
      first admits
    ∃ n outcome w',
      (awaitBadge query badge condition ⟨description, timeout, Wait.defaultInterval⟩).exec
        (s, w) = (outcome, (s, w')) ∧
      s.Asked query net files commands (first + n) w' ∧
      ((outcome = .ok () ∧ ∃ k, n = k + 1 ∧ Met k) ∨
        (∃ e, outcome = .error e) ∧ ∀ k, ¬ Met k) := by
  intro Met
  let wait : Wait := ⟨description, timeout, Wait.defaultInterval⟩
  have hspan : wait.span w.now = timeout := if_pos hclock
  obtain ⟨n, result, w', hexec, hasked', last, hcourse, -⟩ :=
    (s.answers query net files commands).exec_waitForBadges badge condition wait hasked
      (Nat.succ_pos 999) (fun h => absurd hclock (Nat.not_lt.mpr h))
  have hwait := exec_outside Failure.wait _ s hexec
  rw [show (awaitBadge query badge condition wait).exec (s, w) = _ from
    Action.exec_bind_ok _ (exec_current (s, w))]
  rcases Graph.met_or_failed hadmits hspan rfl hcourse with
    ⟨k, count, hn, hresult, hmet⟩ | ⟨⟨e, hresult⟩, hnone⟩
  · rw [hresult] at hwait
    rw [Action.exec_bind_ok _ hwait]
    exact ⟨n, _, w', rfl, hasked', Or.inl ⟨rfl, k, hn, hmet⟩⟩
  · rw [hresult] at hwait
    rw [Action.exec_bind_error _ hwait]
    exact ⟨n, _, w', rfl, hasked', Or.inr ⟨⟨_, rfl⟩, hnone⟩⟩

end MeshProbe.Session
