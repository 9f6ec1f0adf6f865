import MeshProbe.Proofs.Session.Operations

/-!
Which assets a session tracks, for every sequence of its operations and whatever
the cluster, the tool and the files do meanwhile. An asset whose applying
succeeded may stay on the cluster until the tool has been run to delete it. A
session drops the name already when it is told to delete the asset, before it
knows whether the tool can be run. Main statement: `tracked_of_reached`.
-/

namespace MeshProbe.Session

/-- What a history of a session keeps of its operations. -/
inductive Event
  /-- The applying of an asset succeeded. -/
  | applied (name : String)
  /-- An asset was to be deleted; `ran` tells whether the tool was run for it. -/
  | deleting (name : String) (ran : Bool)
  deriving DecidableEq, Repr

/-- Whether a command was run on the way from one world to another. -/
def ran (before after : World) : Bool :=
  decide (after.commands.calls ≠ before.commands.calls)

/-- The states that a new session comes to, with their histories, the latest
event first. Checks of a badge do nothing more to the session than the steps
here: see `Reached.verify`. -/
inductive Reached : List Event → Session → World → Prop
  | start {s : Session} {w : World} (fresh : s.applied = []) : Reached [] s w
  | apply {es : List Event} {s s' : Session} {w w' : World} {name : String}
      (prior : Reached es s w)
      (exec : (applyAsset name).exec (s, w) = (.ok (), (s', w'))) :
      Reached (.applied name :: es) s' w'
  | applyFailed {es : List Event} {s s' : Session} {w w' : World} {name : String}
      {e : Failure} (prior : Reached es s w)
      (exec : (applyAsset name).exec (s, w) = (.error e, (s', w'))) :
      Reached es s' w'
  | delete {es : List Event} {s s' : Session} {w w' : World} {name : String}
      {outcome : Except Failure Unit} (prior : Reached es s w)
      (exec : (deleteAsset name).exec (s, w) = (outcome, (s', w'))) :
      Reached (.deleting name (ran w w') :: es) s' w'
  /-- Between two operations anything may happen outside of the session. -/
  | meanwhile {es : List Event} {s : Session} {w : World} (prior : Reached es s w)
      (w' : World) : Reached es s w'

section History

variable (name : String)

/-- The asset was applied, and the tool has not been run since to delete it. -/
def owed : List Event → Prop
  | [] => False
  | .applied other :: es => other = name ∨ owed es
  | .deleting other ran :: es => (other = name → ran = false) ∧ owed es

/-- The asset was applied, and nobody has asked since for it to be deleted. -/
def kept : List Event → Prop
  | [] => False
  | .applied other :: es => other = name ∨ kept es
  | .deleting other _ :: es => other ≠ name ∧ kept es

/-- The last that was done about the asset, while it was still owed, was a
deletion for which the tool was not run. -/
def abandoned : List Event → Prop
  | [] => False
  | .applied other :: es => other ≠ name ∧ abandoned es
  | .deleting other ran :: es =>
    if other = name then ran = false ∧ owed name es else abandoned es

/-- A history can only part from the tracked names by such a deletion. -/
theorem owed_and_not_kept_iff (es : List Event) :
    owed name es ∧ ¬ kept name es ↔ abandoned name es := by
  induction es with
  | nil => simp [owed, abandoned]
  | cons event es ih =>
    cases event with
    | applied other =>
      simp only [owed, kept, abandoned, ← ih]
      by_cases hname : other = name
      · simp [hname]
      · simp [hname]
    | deleting other ran =>
      simp only [owed, kept, abandoned]
      by_cases hname : other = name
      · simp [hname]
      · simpa [hname] using ih

end History

/-- The tracked names are those that were applied and not to be deleted since. -/
theorem mem_applied_iff_kept {es : List Event} {s : Session} {w : World}
    (h : Reached es s w) (name : String) : name ∈ s.applied ↔ kept name es := by
  induction h with
  | start fresh => simp [fresh, kept]
  | apply prior exec ih =>
    obtain ⟨rfl, -⟩ := applyAsset_ok exec
    rw [mem_track, ih, kept, eq_comm]
  | applyFailed prior exec ih =>
    rw [(applyAsset_error exec).1]
    exact ih
  | delete prior exec ih =>
    obtain ⟨rfl, -⟩ := deleteAsset_cases exec
    rw [mem_untrack, ih, kept, ne_comm]
  | meanwhile prior w' ih => exact ih

/-- A deletion fails before the tool is run exactly if it fails with an error of
the library: the manifest stands for nothing, or the tool cannot be started. -/
theorem deleteAsset_ran_iff {name : String} {s s' : Session} {w w' : World}
    {outcome : Except Failure Unit}
    (h : (deleteAsset name).exec (s, w) = (outcome, (s', w'))) :
    ran w w' = false ↔ ∃ e, outcome = .error (.library e) := by
  obtain ⟨-, reported, hrun, rfl⟩ := deleteAsset_cases h
  have hhanded := s.tool.manifest_handed .delete (s.assetPath name) s.space w
  change ClusterTool.Handed s.tool .delete (s.assetPath name) s.space w
    ((s.deleteRun name).exec w).1 ((s.deleteRun name).exec w).2 at hhanded
  rw [hrun] at hhanded
  cases hhanded with
  | @notRun e after commands =>
    have hcalls : w'.commands.calls = w.commands.calls := congrArg Commands.calls commands
    simp [ran, hcalls, deleteOutcome]
  | @ran absolute after resolved commands =>
    have hcalls : w'.commands.calls = _ :: w.commands.calls :=
      congrArg Commands.calls commands
    constructor
    · intro hran
      simp [ran, hcalls] at hran
    · rintro ⟨e, he⟩
      generalize ClusterTool.ManifestVerb.reported _ _ = done at he
      cases done <;> cases he

/-- What a check of a badge adds to the history: nothing, the applying of the
asset, or its applying and its deletion. -/
inductive Checked (asset : String) : List Event → Prop
  | refused : Checked asset []
  | applied : Checked asset [.applied asset]
  | deleted (ran : Bool) : Checked asset [.deleting asset ran, .applied asset]

theorem Reached.untouched {α : Type} {action : Action (Session × World) Failure α}
    (haction : Untouched action) {es : List Event} {s s' : Session} {w w' : World}
    {outcome : Except Failure α} (h : Reached es s w)
    (exec : action.exec (s, w) = (outcome, (s', w'))) : Reached es s' w' := by
  have hsession := haction (s, w)
  rw [exec] at hsession
  have heq : s' = s := hsession
  rw [heq]
  exact h.meanwhile w'

/-- A check of a badge leads from a reached state to a reached state, wherever it
comes to its end. -/
theorem Reached.verify {es : List Event} {s s' : Session} {w w' : World}
    {query : GraphQuery} {asset : String} {badge : Badge} {outcome : Except Failure Unit}
    (h : Reached es s w)
    (exec : (verifyBadgeLifecycle query asset badge).exec (s, w) = (outcome, (s', w'))) :
    ∃ events, Checked asset events ∧ Reached (events ++ es) s' w' := by
  -- One case for each part that the check may end with.
  rcases Action.exec_bind_cases exec with
    ⟨e, hcount, -⟩ | ⟨baseline, ⟨s₁, w₁⟩, hcount, exec⟩
  · exact ⟨[], .refused, h.untouched (untouched_baselineCount query badge) hcount⟩
  have hcounted := h.untouched (untouched_baselineCount query badge) hcount
  rcases Action.exec_bind_cases exec with
    ⟨e, happly, -⟩ | ⟨done, ⟨s₂, w₂⟩, happly, exec⟩
  · exact ⟨[], .refused, hcounted.applyFailed happly⟩
  have happlied := hcounted.apply happly
  rcases Action.exec_bind_cases exec with
    ⟨e, hshow, -⟩ | ⟨shown, ⟨s₃, w₃⟩, hshow, exec⟩
  · exact ⟨_, .applied, happlied.untouched (untouched_awaitBadge query badge _ _) hshow⟩
  have hshown := happlied.untouched (untouched_awaitBadge query badge _ _) hshow
  rcases Action.exec_bind_cases exec with
    ⟨e, hdelete, -⟩ | ⟨gone, ⟨s₄, w₄⟩, hdelete, exec⟩
  · exact ⟨_, .deleted _, hshown.delete hdelete⟩
  have hdeleted := hshown.delete hdelete
  exact ⟨_, .deleted _, hdeleted.untouched (untouched_awaitBadge query badge _ _) exec⟩

/-- In every state a session reaches, an asset that was applied and that the tool
has not been run since to delete is tracked, unless the last deletion asked for
failed before the tool was run, which it does exactly if it fails with an error of
the library. Checks of badges are among the operations. -/
theorem tracked_of_reached {es : List Event} {s : Session} {w : World}
    (h : Reached es s w) :
    (∀ name, name ∈ s.applied ↔ kept name es) ∧
    (∀ name, owed name es ∧ name ∉ s.applied ↔ abandoned name es) ∧
    (∀ query asset badge outcome s' w',
      (verifyBadgeLifecycle query asset badge).exec (s, w) = (outcome, (s', w')) →
        ∃ events, Checked asset events ∧ Reached (events ++ es) s' w') ∧
    ∀ name outcome s' w', (deleteAsset name).exec (s, w) = (outcome, (s', w')) →
      (ran w w' = false ↔ ∃ e, outcome = .error (.library e)) := by
  refine ⟨mem_applied_iff_kept h, fun name => ?_, ?_, ?_⟩
  · rw [mem_applied_iff_kept h, owed_and_not_kept_iff]
  · intro query asset badge outcome s' w' exec
    exact h.verify exec
  · intro name outcome s' w' exec
    exact deleteAsset_ran_iff exec

/-! ### A manifest that goes away -/

/-- A session over a directory of assets that has not applied anything yet. -/
def sample : Session where
  environmentFile := Environment.defaultFile
  environment := { Environment.blank with meshNamespace := "bookinfo" }
  client := ⟨⟨.http, [], none, .domain [], none, [], none, none⟩, none, none, 30, false⟩
  tool := ⟨ClusterTool.defaultBinary⟩
  assets := ""
  applied := []

/-- A world of some files whose tool reports that objects were created. -/
def sampleWorld (entries : List (List String × FileEntry)) : World where
  now := 0
  network := .ofReplies fun _ _ => ⟨0, .error .closed⟩
  files := ⟨entries, []⟩
  commands := ⟨["oc"], fun _ _ => ⟨Utf8.encodeString "created", []⟩, []⟩
  records := []
  printed := []

/-- The manifest is applied, goes away, and then the asset is to be deleted. -/
theorem unresolved_reached :
    ∃ w, Reached [.deleting "reviews.yaml" false, .applied "reviews.yaml"] sample w := by
  let w := sampleWorld [(["reviews.yaml"], .file "")]
  have happlyRun : sample.applyRun "reviews.yaml" =
      sample.tool.manifest .apply (sample.assetPath "reviews.yaml") sample.space := rfl
  have hpath : w.files.canonical (sample.assetPath "reviews.yaml") =
      .ok "/reviews.yaml" := rfl
  have htool := ClusterTool.exec_manifest_started sample.tool .apply
    (sample.assetPath "reviews.yaml") sample.space w hpath rfl (by decide)
  have hreported : ClusterTool.ManifestVerb.apply.reported (w.commands.answer
      w.commands.calls (ClusterTool.manifestCall .apply sample.space
        "/reviews.yaml")).stdout = true := by
    decide +kernel
  rw [hreported, ← happlyRun] at htool
  have happly := exec_applyAsset_of_ok htool
  have hdeleteRun : (sample.track "reviews.yaml").deleteRun "reviews.yaml" =
      sample.tool.manifest .delete (sample.assetPath "reviews.yaml") sample.space := rfl
  have hmissing : (sampleWorld []).files.canonical (sample.assetPath "reviews.yaml") =
      .error .notFound := rfl
  have hgone := ClusterTool.exec_manifest_unresolved sample.tool .delete
    (sample.assetPath "reviews.yaml") sample.space (sampleWorld []) hmissing
  rw [← hdeleteRun] at hgone
  have hdelete := exec_deleteAsset_of_error hgone
  have hreached := (((Reached.start rfl).apply happly).meanwhile (sampleWorld [])).delete
    hdelete
  have hsession : (sample.track "reviews.yaml").untrack "reviews.yaml" = sample := by decide
  have hran : ran (sampleWorld []) (sampleWorld []) = false := by simp [ran]
  rw [hsession, hran] at hreached
  exact ⟨_, hreached⟩

/-- That an asset is owed does not keep a session from losing it: a deletion drops
the name before the manifest is looked for. -/
theorem not_tracked_of_owed :
    ¬ ∀ es s w name, Reached es s w → owed name es → name ∈ s.applied := by
  intro hkept
  obtain ⟨w, hreached⟩ := unresolved_reached
  have howed : owed "reviews.yaml"
      [.deleting "reviews.yaml" false, .applied "reviews.yaml"] := by
    simp [owed]
  exact absurd (hkept _ _ _ _ hreached howed) (by simp [sample])

theorem tracked_of_reached_unresolved :
    ∃ w, Reached [.deleting "reviews.yaml" false, .applied "reviews.yaml"] sample w ∧
      "reviews.yaml" ∉ sample.applied ∧
      abandoned "reviews.yaml"
        [.deleting "reviews.yaml" false, .applied "reviews.yaml"] := by
  obtain ⟨w, hreached⟩ := unresolved_reached
  have hlost : "reviews.yaml" ∉ sample.applied := by simp [sample]
  have howed : owed "reviews.yaml"
      [.deleting "reviews.yaml" false, .applied "reviews.yaml"] := by
    simp [owed]
  exact ⟨w, hreached, hlost,
    ((tracked_of_reached hreached).2.1 "reviews.yaml").mp ⟨howed, hlost⟩⟩

end MeshProbe.Session
