import MeshProbe.Proofs.Cluster.Manifest
import MeshProbe.Session

/-!
What each operation of a session does to the session itself: applying keeps a
name if the tool reports success, deleting drops it whatever comes of it, and
counting and waiting concern the world alone.
-/

namespace MeshProbe.Session

variable {ε α β : Type}

@[simp] theorem exec_current (x : Session × World) :
    (current : Action (Session × World) ε Session).exec x = (.ok x.1, x) := rfl

@[simp] theorem exec_update (f : Session → Session) (x : Session × World) :
    (update f : Action (Session × World) ε Unit).exec x = (.ok (), (f x.1, x.2)) := rfl

theorem exec_outside (f : ε → Failure) (action : Action World ε α) (s : Session)
    {w after : World} {outcome : Except ε α} (h : action.exec w = (outcome, after)) :
    (outside (action.mapError f)).exec (s, w) = (outcome.mapError f, (s, after)) := by
  change (((action.mapError f).exec w).1, (s, ((action.mapError f).exec w).2)) = _
  rw [Action.exec_mapError, h]

/-- The applying of an asset by the tool of a session. -/
def applyRun (s : Session) (name : String) : Action World Error Bool :=
  s.tool.apply (s.assetPath name) s.space

/-- The deleting of an asset by the tool of a session. -/
def deleteRun (s : Session) (name : String) : Action World Error Bool :=
  s.tool.delete (s.assetPath name) s.space

theorem exec_applyAsset (name : String) (s : Session) (w : World) :
    (applyAsset name).exec (s, w) =
      match (s.applyRun name).exec w with
      | (.ok true, w) => (.ok (), (s.track name, w))
      | (.ok false, w) => (.error (.notApplied name s.space), (s, w))
      | (.error e, w) => (.error (.library e), (s, w)) := by
  cases hrun : (s.applyRun name).exec w with
  | mk outcome after =>
    refine (Action.exec_bind_ok _ (exec_current (s, w))).trans ?_
    have htool := exec_outside .library (s.applyRun name) s hrun
    cases outcome with
    | error e => exact Action.exec_bind_error _ htool
    | ok done =>
      refine (Action.exec_bind_ok _ htool).trans ?_
      cases done <;> rfl

theorem exec_deleteAsset (name : String) (s : Session) (w : World) :
    (deleteAsset name).exec (s, w) =
      match (s.deleteRun name).exec w with
      | (.ok true, w) => (.ok (), (s.untrack name, w))
      | (.ok false, w) => (.error (.notDeleted name s.space), (s.untrack name, w))
      | (.error e, w) => (.error (.library e), (s.untrack name, w)) := by
  cases hrun : (s.deleteRun name).exec w with
  | mk outcome after =>
    refine (Action.exec_bind_ok _ (exec_current (s, w))).trans ?_
    refine (Action.exec_bind_ok _ (exec_update (untrack name) (s, w))).trans ?_
    have htool := exec_outside .library (s.deleteRun name) (s.untrack name) hrun
    cases outcome with
    | error e => exact Action.exec_bind_error _ htool
    | ok done =>
      refine (Action.exec_bind_ok _ htool).trans ?_
      cases done <;> rfl

theorem exec_applyAsset_of_ok {name : String} {s : Session} {w after : World}
    (h : (s.applyRun name).exec w = (.ok true, after)) :
    (applyAsset name).exec (s, w) = (.ok (), (s.track name, after)) := by
  rw [exec_applyAsset, h]

theorem exec_deleteAsset_of_error {name : String} {s : Session} {w after : World}
    {e : Error} (h : (s.deleteRun name).exec w = (.error e, after)) :
    (deleteAsset name).exec (s, w) =
      (.error (.library e), (s.untrack name, after)) := by
  rw [exec_deleteAsset, h]

theorem exec_applyAsset_of_prepared {s : Session} {w : World} {name : String}
    {call : List String}
    (hcall : s.tool.prepare .apply (s.assetPath name) s.space w = .ok call)
    (hreported : ClusterTool.ManifestVerb.apply.reported
      (w.commands.answer w.commands.calls call).stdout = true) :
    ∃ after, (applyAsset name).exec (s, w) = (.ok (), (s.track name, after)) := by
  obtain ⟨houtcome, -⟩ := s.tool.exec_manifest .apply (s.assetPath name) s.space w
  refine ⟨((s.applyRun name).exec w).2, exec_applyAsset_of_ok (Prod.ext ?_ rfl)⟩
  change ((s.tool.manifest .apply (s.assetPath name) s.space).exec w).1 = .ok true
  rw [houtcome, hcall]
  change Except.ok (ClusterTool.ManifestVerb.apply.reported _) = _
  rw [hreported]

/-- An applying that succeeds keeps the name, and the tool reported success. -/
theorem applyAsset_ok {name : String} {s s' : Session} {w w' : World}
    (h : (applyAsset name).exec (s, w) = (.ok (), (s', w'))) :
    s' = s.track name ∧ (s.applyRun name).exec w = (.ok true, w') := by
  rw [exec_applyAsset] at h
  cases hrun : (s.applyRun name).exec w with
  | mk outcome after =>
    rw [hrun] at h
    cases outcome with
    | error e => cases h
    | ok done =>
      cases done with
      | false => cases h
      | true =>
        cases h
        exact ⟨rfl, rfl⟩

/-- An applying that fails leaves the session as it was, and the tool reported no
success. -/
theorem applyAsset_error {name : String} {s s' : Session} {w w' : World} {e : Failure}
    (h : (applyAsset name).exec (s, w) = (.error e, (s', w'))) :
    s' = s ∧ ∃ reported, (s.applyRun name).exec w = (reported, w') ∧
      reported ≠ .ok true := by
  rw [exec_applyAsset] at h
  cases hrun : (s.applyRun name).exec w with
  | mk outcome after =>
    rw [hrun] at h
    cases outcome with
    | error e =>
      cases h
      exact ⟨rfl, _, rfl, by simp⟩
    | ok done =>
      cases done with
      | false =>
        cases h
        exact ⟨rfl, _, rfl, by simp⟩
      | true => cases h

/-- What deleting an asset answers to what came of running the tool. -/
def deleteOutcome (s : Session) (name : String) : Except Error Bool → Except Failure Unit
  | .ok true => .ok ()
  | .ok false => .error (.notDeleted name s.space)
  | .error e => .error (.library e)

/-- A deletion drops the name, whatever comes of it. -/
theorem deleteAsset_cases {name : String} {s s' : Session} {w w' : World}
    {outcome : Except Failure Unit}
    (h : (deleteAsset name).exec (s, w) = (outcome, (s', w'))) :
    s' = s.untrack name ∧ ∃ reported, (s.deleteRun name).exec w = (reported, w') ∧
      outcome = s.deleteOutcome name reported := by
  rw [exec_deleteAsset] at h
  cases hrun : (s.deleteRun name).exec w with
  | mk reported after =>
    rw [hrun] at h
    cases reported with
    | error e =>
      cases h
      exact ⟨rfl, .error e, rfl, rfl⟩
    | ok done =>
      cases done with
      | false =>
        cases h
        exact ⟨rfl, .ok false, rfl, rfl⟩
      | true =>
        cases h
        exact ⟨rfl, .ok true, rfl, rfl⟩

/-- A step that leaves the session as it was. -/
def Untouched (action : Action (Session × World) ε α) : Prop :=
  ∀ x, (action.exec x).2.1 = x.1

theorem untouched_outside (action : Action World ε α) : Untouched (outside action) :=
  fun _ => rfl

theorem untouched_ofExcept (x : Except ε α) :
    Untouched (Action.ofExcept x : Action (Session × World) ε α) := fun _ => rfl

theorem untouched_pure (a : α) : Untouched (pure a : Action (Session × World) ε α) :=
  fun _ => rfl

theorem Untouched.bind {action : Action (Session × World) ε α}
    {next : α → Action (Session × World) ε β} (haction : Untouched action)
    (hnext : ∀ a, Untouched (next a)) : Untouched (action >>= next) := by
  intro x
  have hfirst := haction x
  rcases Action.exec_bind_cases (s := x) rfl with ⟨e, hexec, -⟩ | ⟨a, after, hexec, hsecond⟩
  · rw [hexec] at hfirst
    exact hfirst
  · rw [hexec] at hfirst
    have hrest := hnext a after
    rw [hsecond] at hrest
    exact hrest.trans hfirst

theorem untouched_current :
    Untouched (current : Action (Session × World) ε Session) := fun _ => rfl

theorem untouched_baselineCount (query : GraphQuery) (badge : Badge) :
    Untouched (baselineCount query badge) :=
  untouched_current.bind fun _ =>
    (untouched_outside _).bind fun _ =>
    (untouched_ofExcept _).bind fun _ =>
    (untouched_outside _).bind fun _ =>
    (untouched_outside _).bind fun _ => untouched_pure _

theorem untouched_awaitBadge (query : GraphQuery) (badge : Badge)
    (condition : BadgeCondition) (w : Wait) :
    Untouched (awaitBadge query badge condition w) :=
  untouched_current.bind fun _ =>
    (untouched_outside _).bind fun _ => untouched_pure _

/-! ### The tracked names -/

/-- Two sessions that may only track other names. -/
def Alike (s s' : Session) : Prop := ∃ names, s' = { s with applied := names }

theorem alike_track (s : Session) (name : String) : Alike s (s.track name) := by
  unfold track
  split
  · exact ⟨s.applied, rfl⟩
  · exact ⟨s.applied ++ [name], rfl⟩

theorem Alike.untrack {s s' : Session} (h : Alike s s') (name : String) :
    Alike s (s'.untrack name) := by
  obtain ⟨names, rfl⟩ := h
  exact ⟨_, rfl⟩

theorem track_eq (s : Session) (name : String) :
    s.track name = { s with
      applied := if s.applied.contains name then s.applied else s.applied ++ [name] } := by
  unfold track
  split
  · rfl
  · rfl

@[simp] theorem mem_track (s : Session) (name other : String) :
    other ∈ (s.track name).applied ↔ other = name ∨ other ∈ s.applied := by
  unfold track
  by_cases h : s.applied.contains name = true
  · rw [if_pos h]
    have hmem : name ∈ s.applied := by simpa using h
    constructor
    · exact Or.inr
    · rintro (rfl | hother)
      · exact hmem
      · exact hother
  · rw [if_neg h]
    simp [or_comm]

@[simp] theorem mem_untrack (s : Session) (name other : String) :
    other ∈ (s.untrack name).applied ↔ other ≠ name ∧ other ∈ s.applied := by
  simp [untrack, and_comm]

/-! ### Closing -/

theorem deleteTracked_append (s : Session) (names more : List String) (w : World) :
    s.deleteTracked (names ++ more) w =
      ((s.deleteTracked names w).1 ++ (s.deleteTracked more (s.deleteTracked names w).2).1,
        (s.deleteTracked more (s.deleteTracked names w).2).2) := by
  induction names generalizing w with
  | nil => rfl
  | cons name rest ih =>
    simp only [List.cons_append, deleteTracked, ih, List.append_assoc]

/-- Closing a session has the tool delete an asset: in its turn among the names
tracked, and with a complaint unless the tool reports the deletion. -/
def ClosingDeletes (s : Session) (name : String) : Prop :=
  ∃ before after, s.applied = before ++ name :: after ∧ ∀ w,
    let first := s.deleteTracked before w
    let run := (s.deleteRun name).exec first.2
    let last := s.deleteTracked after run.2
    s.close w = (first.1 ++ ((s.complaint name run.1).toList ++ last.1), last.2)

theorem closingDeletes_of_mem {s : Session} {name : String} (h : name ∈ s.applied) :
    s.ClosingDeletes name := by
  obtain ⟨before, after, happlied⟩ := List.append_of_mem h
  refine ⟨before, after, happlied, fun w => ?_⟩
  unfold close
  rw [happlied, deleteTracked_append]
  rfl

end MeshProbe.Session
