import MeshProbe.Proofs.Session.Stages
import MeshProbe.Proofs.Session.Tracking

/-!
The check of a badge as a whole, for every script of answers and whatever the
cluster's tool reports: at which stage it ends, what the tool was run for until
then, and whether the asset is tracked after it. Main statement:
`verifyBadgeLifecycle_course`.
-/

namespace MeshProbe.Session

section Course

variable (s : Session) (query : GraphQuery) (asset : String) (badge : Badge) (w : World)

/-- What comes of handing an asset to the tool to be applied. -/
def applying : Except Error Bool × World := (s.applyRun asset).exec w

/-- What comes of handing it to the tool once more, to be deleted. -/
def deleting : Except Error Bool × World := (s.deleteRun asset).exec (s.applying asset w).2

/-- The `k`th answer after the first two, and none before it, shows the badge on
as many nodes as at first, and on one at least. -/
def ShownAt (baseline k : Nat) : Prop :=
  Graph.MetAt (s.graphReplies query w.network) badge Wait.defaultInterval createTimeout 2
    (max 1 baseline ≤ ·) k

/-- The `m`th answer after that one, and none before it, shows the badge on no
more nodes than at first. -/
def ClearedAt (baseline k m : Nat) : Prop :=
  Graph.MetAt (s.graphReplies query w.network) badge Wait.defaultInterval deleteTimeout
    (2 + (k + 1)) (· ≤ baseline) m

/-- How a check may end: its outcome, the names tracked and the commands after it,
and what of the answers and of the tool's reports led there. -/
inductive Ending : Except Failure Unit → List String → Commands → Prop
  | unfounded {e : Failure}
      (none : ∀ count, ¬ Baseline query badge (s.graphReplies query w.network) count) :
      Ending (.error e) s.applied w.commands
  | unapplied {e : Failure} {baseline : Nat}
      (founded : Baseline query badge (s.graphReplies query w.network) baseline)
      (unapplied : (s.applying asset w).1 ≠ .ok true) :
      Ending (.error e) s.applied (s.applying asset w).2.commands
  | hidden {e : Failure} {baseline : Nat}
      (founded : Baseline query badge (s.graphReplies query w.network) baseline)
      (applied : (s.applying asset w).1 = .ok true)
      (hidden : ∀ k, ¬ s.ShownAt query badge w baseline k) :
      Ending (.error e) (s.track asset).applied (s.applying asset w).2.commands
  | undeleted {e : Failure} {baseline k : Nat}
      (founded : Baseline query badge (s.graphReplies query w.network) baseline)
      (applied : (s.applying asset w).1 = .ok true)
      (shown : s.ShownAt query badge w baseline k)
      (undeleted : (s.deleting asset w).1 ≠ .ok true) :
      Ending (.error e) ((s.track asset).untrack asset).applied
        (s.deleting asset w).2.commands
  | lasting {e : Failure} {baseline k : Nat}
      (founded : Baseline query badge (s.graphReplies query w.network) baseline)
      (applied : (s.applying asset w).1 = .ok true)
      (shown : s.ShownAt query badge w baseline k)
      (deleted : (s.deleting asset w).1 = .ok true)
      (lasting : ∀ m, ¬ s.ClearedAt query badge w baseline k m) :
      Ending (.error e) ((s.track asset).untrack asset).applied
        (s.deleting asset w).2.commands
  | cleared {baseline k m : Nat}
      (founded : Baseline query badge (s.graphReplies query w.network) baseline)
      (applied : (s.applying asset w).1 = .ok true)
      (shown : s.ShownAt query badge w baseline k)
      (deleted : (s.deleting asset w).1 = .ok true)
      (cleared : s.ClearedAt query badge w baseline k m) :
      Ending (.ok ()) ((s.track asset).untrack asset).applied
        (s.deleting asset w).2.commands

end Course

/-! ### What a condition admits, and sessions that track other names -/

theorem holds_atLeast_iff (bound count : Nat) :
    (BadgeCondition.atLeast bound).holds count = true ↔ max 1 bound ≤ count := by
  have hholds : (BadgeCondition.atLeast bound).holds count = true ↔
      count ≠ 0 ∧ bound ≤ count := by simp [BadgeCondition.holds]
  rw [hholds]
  omega

theorem holds_atMost_iff (bound count : Nat) :
    (BadgeCondition.atMost bound).holds count = true ↔ count ≤ bound := by
  simp [BadgeCondition.holds]

section Alike

variable {s s₁ : Session} {query : GraphQuery} {asset : String}
variable {net : Network} {files : Files} {commands commands' : Commands} {n : Nat}
variable {w w' : World}

/-- A session that only tracks other names asks the same. -/
theorem asked_alike (halike : Alike s s₁) :
    s₁.Asked query net files commands n w ↔ s.Asked query net files commands n w := by
  obtain ⟨names, rfl⟩ := halike
  exact ⟨fun h => ⟨h.network, h.files, h.commands⟩, fun h => ⟨h.network, h.files, h.commands⟩⟩

theorem graphReplies_alike (halike : Alike s s₁) :
    s₁.graphReplies query net = s.graphReplies query net := by
  obtain ⟨names, rfl⟩ := halike
  rfl

theorem deleteRun_alike (halike : Alike s s₁) : s₁.deleteRun asset = s.deleteRun asset := by
  obtain ⟨names, rfl⟩ := halike
  rfl

/-- Handing an asset to the tool leaves the answers as they are. -/
theorem Asked.afterRun (hasked : s.Asked query net files commands n w)
    (honly : ClusterTool.OnlyRun w w') (hcommands : w'.commands = commands') :
    s.Asked query net files commands' n w' :=
  ⟨honly.network.trans hasked.network, honly.files.trans hasked.files, hcommands⟩

end Alike

/-! ### The stages in turn -/

/-- The wait for the badge to go. -/
def awaitCleared (query : GraphQuery) (badge : Badge) (baseline : Nat) :
    Action (Session × World) Failure Unit :=
  awaitBadge query badge (.atMost baseline) ⟨"Delete", deleteTimeout, Wait.defaultInterval⟩

/-- What follows once the badge was seen. -/
def withdraw (query : GraphQuery) (asset : String) (badge : Badge) (baseline : Nat) :
    Action (Session × World) Failure Unit := do
  deleteAsset asset
  awaitCleared query badge baseline

/-- What follows once the asset was applied. -/
def observe (query : GraphQuery) (asset : String) (badge : Badge) (baseline : Nat) :
    Action (Session × World) Failure Unit := do
  awaitBadge query badge (.atLeast baseline) ⟨"Create", createTimeout, Wait.defaultInterval⟩
  withdraw query asset badge baseline

theorem verifyBadgeLifecycle_eq (query : GraphQuery) (asset : String) (badge : Badge) :
    verifyBadgeLifecycle query asset badge = (do
      let baseline ← baselineCount query badge
      applyAsset asset
      observe query asset badge baseline) := rfl

theorem forward_withdraw (query : GraphQuery) (asset : String) (badge : Badge)
    (baseline : Nat) : Forward (withdraw query asset badge baseline) :=
  (forward_deleteAsset asset).bind fun _ => forward_awaitBadge query badge _ _

theorem forward_observe (query : GraphQuery) (asset : String) (badge : Badge)
    (baseline : Nat) : Forward (observe query asset badge baseline) :=
  (forward_awaitBadge query badge _ _).bind fun _ =>
    forward_withdraw query asset badge baseline

section Stages

variable {s s₁ s' : Session} {query : GraphQuery} {asset : String} {badge : Badge}
variable {baseline k : Nat} {start w w' : World} {outcome : Except Failure Unit}

/-- The end of a check whose deletion the tool reported. -/
theorem ending_of_deleted (halike : Alike s s₁)
    (hnames : s₁.applied = ((s.track asset).untrack asset).applied)
    (hasked : s.Asked query start.network start.files (s.deleting asset start).2.commands
      (2 + (k + 1)) w)
    (founded : Baseline query badge (s.graphReplies query start.network) baseline)
    (applied : (s.applying asset start).1 = .ok true)
    (shown : s.ShownAt query badge start baseline k)
    (deleted : (s.deleting asset start).1 = .ok true)
    (hexec : (awaitCleared query badge baseline).exec (s₁, w) = (outcome, (s', w')))
    (hclock : w.now + createTimeout < Instant.limit) :
    Ending s query asset badge start outcome s'.applied w'.commands := by
  have hshort : deleteTimeout ≤ createTimeout := by decide
  obtain ⟨n, _, _, hwait, hasked', hmet⟩ := exec_awaitBadge badge ((asked_alike halike).mpr hasked)
    (holds_atMost_iff baseline) "Delete" deleteTimeout (by omega)
  have heq := hwait.symm.trans hexec
  cases heq
  rw [graphReplies_alike halike] at hmet
  rw [hnames, hasked'.commands]
  rcases hmet with ⟨rfl, m, -, hmet⟩ | ⟨⟨e, rfl⟩, hnone⟩
  · exact .cleared founded applied shown deleted hmet
  · exact .lasting founded applied shown deleted hnone

/-- The end of a check in which the badge was seen. -/
theorem ending_of_shown
    (hasked : s.Asked query start.network start.files (s.applying asset start).2.commands
      (2 + (k + 1)) w)
    (founded : Baseline query badge (s.graphReplies query start.network) baseline)
    (applied : (s.applying asset start).1 = .ok true)
    (shown : s.ShownAt query badge start baseline k)
    (hexec : (withdraw query asset badge baseline).exec (s.track asset, w) =
      (outcome, (s', w')))
    (hclock : w.now + createTimeout < Instant.limit) :
    Ending s query asset badge start outcome s'.applied w'.commands := by
  have halike := s.alike_track asset
  have hfiles : w.files = (s.applying asset start).2.files :=
    hasked.files.trans (s.tool.manifest_onlyRun .apply _ _ start).files.symm
  have hsame : ClusterTool.SameRun ((s.deleteRun asset).exec w) (s.deleting asset start) :=
    s.tool.manifest_congr .delete (s.assetPath asset) s.space hfiles hasked.commands
  have honly : ClusterTool.OnlyRun w ((s.deleteRun asset).exec w).2 :=
    s.tool.manifest_onlyRun .delete (s.assetPath asset) s.space w
  rcases Action.exec_bind_cases hexec with
    ⟨e, hdelete, rfl⟩ | ⟨_, ⟨s₁, w₁⟩, hdelete, hrest⟩
  · obtain ⟨rfl, reported, hrun, houtcome⟩ := deleteAsset_cases hdelete
    rw [deleteRun_alike halike] at hrun
    rw [hrun] at hsame
    rw [hsame.commands]
    refine .undeleted founded applied shown fun hreported => ?_
    have htrue : reported = .ok true := hsame.outcome.trans hreported
    rw [htrue] at houtcome
    cases houtcome
  · obtain ⟨rfl, reported, hrun, houtcome⟩ := deleteAsset_cases hdelete
    rw [deleteRun_alike halike] at hrun
    rw [hrun] at hsame honly
    have hreported : reported = .ok true := by
      rcases reported with e | done
      · cases houtcome
      · cases done with
        | false => cases houtcome
        | true => rfl
    have hclock₁ : w₁.now + createTimeout < Instant.limit := by
      rw [honly.now]
      exact hclock
    exact ending_of_deleted (halike.untrack asset) rfl
      (hasked.afterRun honly hsame.commands) founded applied shown
      (hsame.outcome.symm.trans hreported) hrest hclock₁

/-- The end of a check in which the asset was applied. -/
theorem ending_of_applied
    (hasked : s.Asked query start.network start.files (s.applying asset start).2.commands
      2 w)
    (founded : Baseline query badge (s.graphReplies query start.network) baseline)
    (applied : (s.applying asset start).1 = .ok true)
    (hexec : (observe query asset badge baseline).exec (s.track asset, w) =
      (outcome, (s', w')))
    (hclock : w'.now + createTimeout < Instant.limit) :
    Ending s query asset badge start outcome s'.applied w'.commands := by
  have halike := s.alike_track asset
  have hstart : w.now ≤ w'.now := by
    have hforward := forward_observe query asset badge baseline (s.track asset, w)
    rwa [hexec] at hforward
  obtain ⟨n, _, w₁, hwait, hasked₁, hmet⟩ := exec_awaitBadge badge ((asked_alike halike).mpr hasked)
    (holds_atLeast_iff baseline) "Create" createTimeout (by omega)
  rw [graphReplies_alike halike] at hmet
  rcases hmet with ⟨rfl, k, rfl, hmet⟩ | ⟨⟨e, rfl⟩, hnone⟩
  · have hrest := (Action.exec_bind_ok _ hwait).symm.trans hexec
    have hlater : w₁.now ≤ w'.now := by
      have hforward := forward_withdraw query asset badge baseline (s.track asset, w₁)
      rwa [hrest] at hforward
    exact ending_of_shown ((asked_alike halike).mp hasked₁) founded applied hmet hrest
      (by omega)
  · have hrest := (Action.exec_bind_error _ hwait).symm.trans hexec
    cases hrest
    rw [hasked₁.commands]
    exact .hidden founded applied hnone

end Stages

/-- Every check ends in one of the ways listed, unless the clock does first. -/
theorem verifyBadgeLifecycle_ending (query : GraphQuery) (asset : String) (badge : Badge)
    {s s' : Session} {w w' : World} {outcome : Except Failure Unit}
    (hexec : (verifyBadgeLifecycle query asset badge).exec (s, w) = (outcome, (s', w')))
    (hclock : w'.now + createTimeout < Instant.limit) :
    Ending s query asset badge w outcome s'.applied w'.commands := by
  rw [verifyBadgeLifecycle_eq] at hexec
  have hasked : s.Asked query w.network w.files w.commands 0 w := ⟨rfl, rfl, rfl⟩
  obtain ⟨w₁, hcounted, -, hcommands₁, hasked₁⟩ := exec_baselineCount badge hasked
  cases hbaseline : baselineOf s.space query badge (s.graphReplies query w.network 0).2
      (s.graphReplies query w.network 1).2 with
  | error e =>
    rw [hbaseline] at hcounted
    have hend := (Action.exec_bind_error _ hcounted).symm.trans hexec
    cases hend
    rw [hcommands₁]
    refine .unfounded fun count hfounded => ?_
    rw [← baselineOf_eq_ok_iff s.space, hbaseline] at hfounded
    cases hfounded
  | ok baseline =>
    rw [hbaseline] at hcounted
    have hrest := (Action.exec_bind_ok _ hcounted).symm.trans hexec
    have founded := (baselineOf_eq_ok_iff s.space query badge _ baseline).mp hbaseline
    have hasked₁ := hasked₁ baseline hbaseline
    have hsame : ClusterTool.SameRun ((s.applyRun asset).exec w₁) (s.applying asset w) :=
      s.tool.manifest_congr .apply (s.assetPath asset) s.space hasked₁.files
        hasked₁.commands
    have honly : ClusterTool.OnlyRun w₁ ((s.applyRun asset).exec w₁).2 :=
      s.tool.manifest_onlyRun .apply (s.assetPath asset) s.space w₁
    rcases Action.exec_bind_cases hrest with
      ⟨e, happly, rfl⟩ | ⟨_, ⟨s₂, w₂⟩, happly, hrest⟩
    · obtain ⟨rfl, reported, hrun, hfailed⟩ := applyAsset_error happly
      rw [hrun] at hsame
      rw [hsame.commands]
      exact .unapplied founded fun happlied => hfailed (hsame.outcome.trans happlied)
    · obtain ⟨rfl, hrun⟩ := applyAsset_ok happly
      rw [hrun] at hsame honly
      exact ending_of_applied (hasked₁.afterRun honly hsame.commands) founded
        hsame.outcome.symm hrest hclock

section Endings

variable {s : Session} {query : GraphQuery} {asset : String} {badge : Badge} {w : World}
variable {outcome : Except Failure Unit} {names : List String} {commands : Commands}

theorem baseline_unique {script : Nat → Nat × Except ApiError Response} {m n : Nat}
    (hm : Baseline query badge script m) (hn : Baseline query badge script n) : m = n :=
  Graph.isGraph_unique hm.2 hn.2

/-- The commands of a check: first it has the asset applied, then deleted, each
once at most. -/
theorem Ending.calls (h : Ending s query asset badge w outcome names commands) :
    ∃ deletes applies, commands.calls = deletes ++ (applies ++ w.commands.calls) ∧
      (∀ call ∈ applies, ∃ absolute,
        call = ClusterTool.manifestCall .apply s.space absolute) ∧
      (∀ call ∈ deletes, ∃ absolute,
        call = ClusterTool.manifestCall .delete s.space absolute) ∧
      deletes.length ≤ 1 ∧
      ((deletes ≠ [] ∨ applies ≠ []) →
        ∃ count, Baseline query badge (s.graphReplies query w.network) count ∧
          (deletes ≠ [] → (s.applying asset w).1 = .ok true ∧
            ∃ k, s.ShownAt query badge w count k)) := by
  obtain ⟨applies, happlies, -, hshape⟩ :=
    s.tool.exec_manifest_calls .apply (s.assetPath asset) s.space w
  obtain ⟨deletes, hdeletes, honce, hshape'⟩ := s.tool.exec_manifest_calls .delete
    (s.assetPath asset) s.space (s.applying asset w).2
  have happly : ∀ call ∈ applies, ∃ absolute,
      call = ClusterTool.manifestCall .apply s.space absolute := fun call hcall =>
    (hshape call hcall).imp fun _ => And.right
  have hdelete : ∀ call ∈ deletes, ∃ absolute,
      call = ClusterTool.manifestCall .delete s.space absolute := fun call hcall =>
    (hshape' call hcall).imp fun _ => And.right
  have hboth : (s.deleting asset w).2.commands.calls =
      deletes ++ (applies ++ w.commands.calls) := hdeletes.trans (by rw [← happlies]; rfl)
  cases h with
  | unfounded none => exact ⟨[], [], rfl, by simp, by simp, by simp, by simp⟩
  | unapplied founded unapplied =>
    exact ⟨[], applies, happlies, happly, by simp, by simp,
      fun _ => ⟨_, founded, by simp⟩⟩
  | hidden founded applied hidden =>
    exact ⟨[], applies, happlies, happly, by simp, by simp,
      fun _ => ⟨_, founded, by simp⟩⟩
  | undeleted founded applied shown undeleted =>
    exact ⟨deletes, applies, hboth, happly, hdelete, honce,
      fun _ => ⟨_, founded, fun _ => ⟨applied, _, shown⟩⟩⟩
  | lasting founded applied shown deleted lasting =>
    exact ⟨deletes, applies, hboth, happly, hdelete, honce,
      fun _ => ⟨_, founded, fun _ => ⟨applied, _, shown⟩⟩⟩
  | cleared founded applied shown deleted cleared =>
    exact ⟨deletes, applies, hboth, happly, hdelete, honce,
      fun _ => ⟨_, founded, fun _ => ⟨applied, _, shown⟩⟩⟩

/-- A check succeeds exactly if every stage of it does. -/
theorem Ending.ok_iff (h : Ending s query asset badge w outcome names commands) :
    outcome = .ok () ↔
      ∃ count k m, Baseline query badge (s.graphReplies query w.network) count ∧
        (s.applying asset w).1 = .ok true ∧ s.ShownAt query badge w count k ∧
        (s.deleting asset w).1 = .ok true ∧ s.ClearedAt query badge w count k m := by
  constructor
  · rintro rfl
    cases h with
    | cleared founded applied shown deleted cleared =>
      exact ⟨_, _, _, founded, applied, shown, deleted, cleared⟩
  · rintro ⟨count, k, m, founded, applied, shown, deleted, cleared⟩
    cases h with
    | unfounded none => exact absurd founded (none count)
    | unapplied _ unapplied => exact absurd applied unapplied
    | hidden founded' _ hidden =>
      rw [baseline_unique founded founded'] at shown
      exact absurd shown (hidden k)
    | undeleted _ _ _ undeleted => exact absurd deleted undeleted
    | lasting founded' _ shown' _ lasting =>
      rw [baseline_unique founded founded'] at shown cleared
      rw [Graph.MetAt.unique shown shown'] at cleared
      exact absurd cleared (lasting m)
    | cleared _ _ _ _ _ => rfl

/-- A check keeps the name of an asset that was not tracked before it exactly if
the asset was applied and the badge never seen. -/
theorem Ending.mem_iff (h : Ending s query asset badge w outcome names commands)
    (huntracked : asset ∉ s.applied) :
    asset ∈ names ↔ (s.applying asset w).1 = .ok true ∧
      ∃ count, Baseline query badge (s.graphReplies query w.network) count ∧
        ∀ k, ¬ s.ShownAt query badge w count k := by
  cases h with
  | unfounded none =>
    refine iff_of_false huntracked ?_
    rintro ⟨-, count, founded, -⟩
    exact none count founded
  | unapplied founded unapplied =>
    exact iff_of_false huntracked fun happlied => unapplied happlied.1
  | hidden founded applied hidden =>
    exact iff_of_true ((mem_track s asset asset).mpr (Or.inl rfl))
      ⟨applied, _, founded, hidden⟩
  | undeleted founded applied shown undeleted =>
    refine iff_of_false (by simp) ?_
    rintro ⟨-, count, founded', hidden⟩
    rw [baseline_unique founded' founded] at hidden
    exact hidden _ shown
  | lasting founded applied shown deleted lasting =>
    refine iff_of_false (by simp) ?_
    rintro ⟨-, count, founded', hidden⟩
    rw [baseline_unique founded' founded] at hidden
    exact hidden _ shown
  | cleared founded applied shown deleted cleared =>
    refine iff_of_false (by simp) ?_
    rintro ⟨-, count, founded', hidden⟩
    rw [baseline_unique founded' founded] at hidden
    exact hidden _ shown

end Endings

/-- For every script of replies and every report of the tool, a check of a badge
through a session that does not track the asset. An answer is what asking for the
graph once comes to: a complete reply to the last of the requests made for it, or
none. The tool is not run unless the first two answers tell how many nodes carry
the badge; it is run to delete the asset at most once, and only after it reported
the asset applied and an answer asked for in time showed the badge on at least as
many nodes as before, and one at least; the check succeeds exactly if the tool then
reported the deletion and an answer asked for in time showed it on no more nodes
than before. If the asset was applied and the badge not seen, the asset stays
tracked, so that closing the session has it deleted; in no other case is it tracked.
The clock may not end within a minute of the check. -/
theorem verifyBadgeLifecycle_course (query : GraphQuery) (asset : String) (badge : Badge)
    (s : Session) (w : World) (huntracked : asset ∉ s.applied)
    (hclock : ((verifyBadgeLifecycle query asset badge).exec (s, w)).2.2.now +
      createTimeout < Instant.limit) :
    let run := (verifyBadgeLifecycle query asset badge).exec (s, w)
    let path := [("namespace", s.space)]
    let asked := s.client.networkAfter .graphNamespace path query.parameters w.network
    let founded := Baseline query badge (s.graphReplies query w.network)
    let applied := (s.applying asset w).1 = .ok true
    let deleted := (s.deleting asset w).1 = .ok true
    (∀ n response, (s.graphReplies query w.network n).2 = .ok response ↔
      ∃ last status body,
        s.client.LastAsked .graphNamespace path query.parameters (asked n) last ∧
        (asked n).Complete (some s.client.timeout) last status body ∧
        response = ⟨.graphNamespace, status, body⟩) ∧
    (run.2.2.commands.calls ≠ w.commands.calls → ∃ count, founded count) ∧
    (∃ deletes applies,
      run.2.2.commands.calls = deletes ++ (applies ++ w.commands.calls) ∧
      (∀ call ∈ applies, ∃ absolute,
        call = ClusterTool.manifestCall .apply s.space absolute) ∧
      (∀ call ∈ deletes, ∃ absolute,
        call = ClusterTool.manifestCall .delete s.space absolute) ∧
      deletes.length ≤ 1 ∧
      (deletes ≠ [] → applied ∧
        ∃ count k, founded count ∧ s.ShownAt query badge w count k)) ∧
    (run.1 = .ok () ↔ ∃ count k m, founded count ∧ applied ∧
      s.ShownAt query badge w count k ∧ deleted ∧ s.ClearedAt query badge w count k m) ∧
    (asset ∈ run.2.1.applied ↔
      applied ∧ ∃ count, founded count ∧ ∀ k, ¬ s.ShownAt query badge w count k) ∧
    (asset ∈ run.2.1.applied → run.2.1.ClosingDeletes asset) := by
  intro run path asked founded applied deleted
  have hending : Ending s query asset badge w run.1 run.2.1.applied run.2.2.commands :=
    verifyBadgeLifecycle_ending query asset badge rfl hclock
  obtain ⟨deletes, applies, hcalls, happlies, hdeletes, honce, hfounded⟩ := hending.calls
  refine ⟨s.client.replies_eq_ok_iff .graphNamespace path query.parameters w.network,
    fun hrun => ?_, ⟨deletes, applies, hcalls, happlies, hdeletes, honce, ?_⟩, hending.ok_iff,
    hending.mem_iff huntracked, closingDeletes_of_mem⟩
  · have hsome : deletes ≠ [] ∨ applies ≠ [] := by
      by_contra hnone
      simp only [not_or, not_not] at hnone
      rw [hcalls, hnone.1, hnone.2] at hrun
      exact hrun rfl
    obtain ⟨count, hcount, -⟩ := hfounded hsome
    exact ⟨count, hcount⟩
  · intro hdeleted
    obtain ⟨count, hcount, hshown⟩ := hfounded (Or.inl hdeleted)
    obtain ⟨happlied, k, hk⟩ := hshown hdeleted
    exact ⟨happlied, count, k, hcount, hk⟩

/-! ### A check that succeeds -/

def plainGraph : Bytes :=
  Utf8.encodeString "\x7b\"graphType\":\"workload\",\"elements\":\x7b\"nodes\":[]\x7d\x7d"

def badgedGraph : Bytes :=
  Utf8.encodeString
    "\x7b\"elements\":\x7b\"nodes\":[\x7b\"data\":\x7b\"hasCB\":true\x7d\x7d]\x7d\x7d"

/-- A session that asks over the secure scheme, and waits half a minute for each reply. -/
def secureSession : Session :=
  { sample with
    client :=
      { sample.client with
        base := { sample.client.base with scheme := .https, host := .domain ['h'], path := [[]] }
        timeout := 30000
        verifiesTls := true } }

/-- A reply with a graph, which takes a while to begin and as long again to be sent. -/
def graphReply (after : Nat) (graph : Bytes) : Reply :=
  ⟨after, .ok { status := 200, location := none, charset := none, body := ⟨after, .ok graph⟩ }⟩

/-- A world whose server takes twenty seconds for each reply and shows the badge from the fourth to
the fifth, and whose tool does all that it is told. -/
def obligingWorld : World :=
  { sampleWorld [(["reviews.yaml"], .file "")] with
    network := .ofReplies fun asked _ =>
      graphReply 10000 (if asked.length = 3 ∨ asked.length = 4 then badgedGraph else plainGraph)
    commands :=
      { onPath := ["oc"]
        answer := fun _ arguments =>
          ⟨Utf8.encodeString
            (if arguments.head? = some "delete" then "deleted" else "created"), []⟩
        calls := [] } }

/-- The badge shows on the second answer to the first wait, which is asked for in its
twenty-second second, and is gone with the second one to the other. -/
theorem verifyBadgeLifecycle_course_of_obliging :
    "reviews.yaml" ∉ secureSession.applied ∧
      ((verifyBadgeLifecycle (.ofKind .workload) "reviews.yaml" .circuitBreaker).exec
        (secureSession, obligingWorld)).2.2.now + createTimeout < Instant.limit ∧
      (secureSession.graphReplies (.ofKind .workload) obligingWorld.network 3).1 = 20000 ∧
      ∃ count k m, Baseline (.ofKind .workload) .circuitBreaker
          (secureSession.graphReplies (.ofKind .workload) obligingWorld.network) count ∧
        secureSession.ShownAt (.ofKind .workload) .circuitBreaker obligingWorld count k ∧
        secureSession.ClearedAt (.ofKind .workload) .circuitBreaker obligingWorld count k m := by
  have huntracked : "reviews.yaml" ∉ secureSession.applied := by decide
  have hclock : ((verifyBadgeLifecycle (.ofKind .workload) "reviews.yaml"
      .circuitBreaker).exec (secureSession, obligingWorld)).2.2.now + createTimeout <
        Instant.limit := by decide +kernel
  have hok : ((verifyBadgeLifecycle (.ofKind .workload) "reviews.yaml"
      .circuitBreaker).exec (secureSession, obligingWorld)).1 = .ok () := by decide +kernel
  have hslow : (secureSession.graphReplies (.ofKind .workload)
      obligingWorld.network 3).1 = 20000 := by decide +kernel
  have hcourse := verifyBadgeLifecycle_course (.ofKind .workload) "reviews.yaml"
    .circuitBreaker secureSession obligingWorld huntracked hclock
  obtain ⟨count, k, m, founded, -, shown, -, cleared⟩ := hcourse.2.2.2.1.mp hok
  exact ⟨huntracked, hclock, hslow, count, k, m, founded, shown, cleared⟩

end MeshProbe.Session
