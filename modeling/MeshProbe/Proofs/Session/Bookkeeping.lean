import MeshProbe.Proofs.Session.Removal
import Mathlib.Data.List.Nodup

/-!
The names that a session tracks, for every sequence of its operations and whatever
comes of each, and what closing it makes of them. Main statement: `bookkeeping`.
-/

namespace MeshProbe.Session

open ClusterTool

/-- What a session can be asked to do about assets. -/
inductive Task
  | apply (name : String)
  | delete (name : String)
  | removeAll
  deriving DecidableEq, Repr

namespace Task

def action : Task → Action (Session × World) Failure Unit
  | apply name => applyAsset name
  | delete name => deleteAsset name
  | removeAll => do
    let _ ← removeAllAssets
    return ()

/-- The names tracked after a task. A new name goes behind the others, and only a
removal of all assets that succeeds takes other names away. -/
def tracked (succeeded : Bool) (names : List String) : Task → List String
  | apply name =>
    if succeeded then if names.contains name then names else names ++ [name] else names
  | delete name => names.filter (· ≠ name)
  | removeAll => if succeeded then [] else names

theorem tracked_nodup {names : List String} (h : names.Nodup) (succeeded : Bool)
    (task : Task) : (task.tracked succeeded names).Nodup := by
  cases task with
  | apply name =>
    cases succeeded with
    | false => exact h
    | true =>
      by_cases hname : name ∈ names
      · simpa [tracked, hname] using h
      · simpa [tracked, hname] using h.concat hname
  | delete name => exact h.filter _
  | removeAll =>
    cases succeeded with
    | false => exact h
    | true => exact List.nodup_nil

/-- What a task does to the session is settled by whether it succeeded. -/
theorem exec_tracked (task : Task) (s : Session) (w : World) :
    (task.action.exec (s, w)).2.1 =
      { s with applied := task.tracked (task.action.exec (s, w)).1.isOk s.applied } := by
  cases task with
  | apply name =>
    unfold action
    rw [exec_applyAsset]
    cases (s.applyRun name).exec w with
    | mk reported after =>
      cases reported with
      | error e => rfl
      | ok done =>
        cases done with
        | false => rfl
        | true => exact track_eq s name
  | delete name =>
    unfold action
    rw [exec_deleteAsset]
    cases (s.deleteRun name).exec w with
    | mk reported after =>
      cases reported with
      | error e => rfl
      | ok done => cases done <;> rfl
  | removeAll =>
    have hexec : (removeAll.action).exec (s, w) =
        ((removeAllAssets.exec (s, w)).1.map fun _ => (),
          (removeAllAssets.exec (s, w)).2) :=
      Action.exec_bind_pure (fun _ => ()) removeAllAssets (s, w)
    rw [hexec]
    refine (removeAllAssets_session s w).trans ?_
    cases (removeAllAssets.exec (s, w)).1 with
    | error e => rfl
    | ok count => rfl

end Task

/-- The session after some tasks, each carried out in a world of its own. -/
def after (s : Session) : List (Task × World) → Session
  | [] => s
  | (task, w) :: rest => (task.action.exec (s, w)).2.1.after rest

theorem after_nodup {s : Session} (h : s.applied.Nodup) (steps : List (Task × World)) :
    (s.after steps).applied.Nodup := by
  induction steps generalizing s with
  | nil => exact h
  | cons step rest ih =>
    obtain ⟨task, w⟩ := step
    apply ih
    rw [task.exec_tracked s w]
    exact task.tracked_nodup h _

/-! ### Closing -/

/-- The calls that deleting some assets one after the other comes to, in their
order. -/
def deletingCalls (s : Session) (w : World) (names : List String) : List (List String) :=
  names.flatMap fun name =>
    (s.tool.prepare .delete (s.assetPath name) s.space w).toOption.toList

/-- What comes of deleting an asset after some others. -/
def deletingOutcome (s : Session) (w : World) (earlier : List String) (name : String) :
    Except Error Bool :=
  (s.tool.prepare .delete (s.assetPath name) s.space w).map fun call =>
    ManifestVerb.delete.reported (w.commands.answer
      ((s.deletingCalls w earlier).reverse ++ w.commands.calls) call).stdout

/-- What is complained of when some assets are deleted one after the other. -/
def deletingComplaints (s : Session) (w : World) (names : List String) : List String :=
  (names.mapIdx fun i name =>
    s.complaint name (s.deletingOutcome w (names.take i) name)).filterMap id

theorem deletingCalls_of_ran (s : Session) {calls : List (List String)} {w after : World}
    (h : Ran calls w after) (names : List String) :
    s.deletingCalls after names = s.deletingCalls w names := by
  unfold deletingCalls
  simp only [s.tool.prepare_of_ran .delete _ s.space h]

/-- The tool is run at most once to delete an asset. -/
theorem exec_deleteRun (s : Session) (w : World) (name : String) :
    ((s.deleteRun name).exec w).1 = s.deletingOutcome w [] name ∧
      Ran (s.deletingCalls w [name]).reverse w ((s.deleteRun name).exec w).2 := by
  obtain ⟨houtcome, hran⟩ := s.tool.exec_manifest .delete (s.assetPath name) s.space w
  refine ⟨houtcome, ?_⟩
  have hcalls : (s.deletingCalls w [name]).reverse =
      (s.tool.prepare .delete (s.assetPath name) s.space w).toOption.toList := by
    unfold deletingCalls
    rw [List.flatMap_singleton]
    cases s.tool.prepare .delete (s.assetPath name) s.space w with
    | error e => rfl
    | ok call => rfl
  rw [hcalls]
  exact hran

/-- What comes of a deletion after others is what comes of it in the world that the
first of them leaves. -/
theorem deletingOutcome_cons (s : Session) {w after : World} {first : String}
    (h : Ran (s.deletingCalls w [first]).reverse w after) (earlier : List String)
    (name : String) :
    s.deletingOutcome after earlier name = s.deletingOutcome w (first :: earlier) name := by
  have hcalls : s.deletingCalls w (first :: earlier) =
      s.deletingCalls w [first] ++ s.deletingCalls w earlier := by
    simp [deletingCalls]
  unfold deletingOutcome
  rw [s.tool.prepare_of_ran .delete (s.assetPath name) s.space h,
    s.deletingCalls_of_ran h earlier, h.commands, hcalls]
  simp only [List.reverse_append, List.append_assoc]

/-- Deletions are tried to the last, whatever comes of those before. -/
theorem deleteTracked_spec (s : Session) (names : List String) (w : World) :
    (s.deleteTracked names w).1 = s.deletingComplaints w names ∧
      Ran (s.deletingCalls w names).reverse w (s.deleteTracked names w).2 := by
  induction names generalizing w with
  | nil => exact ⟨rfl, Ran.refl w⟩
  | cons name rest ih =>
    obtain ⟨houtcome, hran⟩ := s.exec_deleteRun w name
    obtain ⟨hcomplaints, hrest⟩ := ih ((s.deleteRun name).exec w).2
    have hdeleted : s.deleteTracked (name :: rest) w =
        ((s.complaint name ((s.deleteRun name).exec w).1).toList ++
            (s.deleteTracked rest ((s.deleteRun name).exec w).2).1,
          (s.deleteTracked rest ((s.deleteRun name).exec w).2).2) := rfl
    rw [hdeleted]
    constructor
    · rw [hcomplaints, houtcome]
      unfold deletingComplaints
      rw [List.mapIdx_cons, List.take_zero]
      simp only [s.deletingOutcome_cons hran, List.take_succ_cons]
      cases s.complaint name (s.deletingOutcome w [] name) with
      | none => rfl
      | some text => rfl
    · rw [s.deletingCalls_of_ran hran rest] at hrest
      have hboth := hran.trans hrest
      rw [← List.reverse_append] at hboth
      have hcalls : s.deletingCalls w [name] ++ s.deletingCalls w rest =
          s.deletingCalls w (name :: rest) := by
        simp [deletingCalls]
      rw [hcalls] at hboth
      exact hboth

/-- In every state that a session comes to, each tracked name stands once; a task does
to the names what its success or failure says and touches nothing else; and closing
tries one deletion for each tracked name, in their order and to the last. -/
theorem bookkeeping (s : Session) (steps : List (Task × World)) (hfresh : s.applied = []) :
    let reached := s.after steps
    reached.applied.Nodup ∧
    (∀ (task : Task) w, (task.action.exec (reached, w)).2.1 =
      { reached with
        applied := task.tracked (task.action.exec (reached, w)).1.isOk reached.applied }) ∧
    ∀ w, (reached.close w).1 = reached.deletingComplaints w reached.applied ∧
      Ran (reached.deletingCalls w reached.applied).reverse w (reached.close w).2 := by
  intro reached
  have hnodup : s.applied.Nodup := by
    rw [hfresh]
    exact List.nodup_nil
  refine ⟨after_nodup hnodup steps, ?_, ?_⟩
  · intro task w
    exact task.exec_tracked reached w
  · intro w
    exact reached.deleteTracked_spec reached.applied w

/-- Two manifests are applied, one of them twice; then the directory is lost, and with
it go a deletion and a removal of all assets. -/
def troubledSteps : List (Task × World) :=
  [(.apply "reviews.yaml", nestedWorld), (.apply "nested/ratings.yaml", nestedWorld),
    (.apply "reviews.yaml", nestedWorld), (.apply "details.yaml", nestedWorld),
    (.delete "nested/ratings.yaml", sampleWorld []), (.removeAll, sampleWorld [])]

theorem bookkeeping_of_trouble :
    nestedStart.applied = [] ∧ (nestedStart.after troubledSteps).applied = ["reviews.yaml"] ∧
    (nestedStart.after troubledSteps).applied.Nodup ∧
    ((nestedStart.after troubledSteps).close (sampleWorld [])).1 =
      ["unable to delete asset 'reviews.yaml': Unable to resolve manifest " ++
        "'assets/reviews.yaml': No such file or directory (os error 2)"] ∧
    ((nestedStart.after troubledSteps).close (sampleWorld [])).2.commands.calls = [] := by
  have htracked : nestedStart.after troubledSteps =
      { nestedStart with applied := ["reviews.yaml"] } := by decide +kernel
  obtain ⟨hnodup, -, hclose⟩ := bookkeeping nestedStart troubledSteps rfl
  obtain ⟨hcomplaints, hran⟩ := hclose (sampleWorld [])
  have hcalls := congrArg Commands.calls hran.commands
  rw [htracked] at hnodup hcomplaints hcalls ⊢
  exact ⟨rfl, rfl, hnodup, hcomplaints, hcalls⟩

end MeshProbe.Session
