import MeshProbe.Proofs.Cluster.Sweep
import MeshProbe.Proofs.Session.Tracking

/-!
Removing all assets of a session, for every content of the directory and whatever
the tool does. The tool is run for the regular files that stand directly in the
directory, and then no name is tracked any more; an asset may have been applied
under a name that leads elsewhere. Main statement: `removeAllAssets_covers_iff`.
-/

namespace MeshProbe.Session

open ClusterTool

/-! ### Going through the directory -/

theorem exec_deleteManifests_cons (tool : ClusterTool) (space path : String)
    (rest : List String) (w : World) :
    (deleteManifests tool space (path :: rest)).exec w =
      if w.files.isFile path then
        match (tool.delete path space).exec w with
        | (.error e, w) => (.error e, w)
        | (.ok _, w) => (((deleteManifests tool space rest).exec w).1.map (· + 1),
            ((deleteManifests tool space rest).exec w).2)
      else (deleteManifests tool space rest).exec w := by
  rw [deleteManifests, World.exec_bind_isFile]
  cases hfile : w.files.isFile path with
  | false => rfl
  | true =>
    simp only [if_true]
    cases hrun : (tool.delete path space).exec w with
    | mk reported after =>
      cases reported with
      | error e => exact Action.exec_bind_error _ hrun
      | ok done =>
        refine (Action.exec_bind_ok _ hrun).trans ?_
        exact Action.exec_bind_pure (· + 1) (deleteManifests tool space rest) after

/-- The deletions of a directory are made one by one as they were prepared, and the
first that cannot be made is the end of it. -/
theorem deleteManifests_sweep (tool : ClusterTool) (space : String) (paths : List String)
    (w : World) :
    ∃ calls, Sweep tool space paths w ((deleteManifests tool space paths).exec w).1 calls ∧
      Ran calls.reverse w ((deleteManifests tool space paths).exec w).2 := by
  induction paths generalizing w with
  | nil => exact ⟨[], Sweep.nil, Ran.refl w⟩
  | cons path rest ih =>
    rw [exec_deleteManifests_cons]
    cases hfile : w.files.isFile path with
    | false =>
      obtain ⟨calls, hsweep, hran⟩ := ih w
      exact ⟨calls, hsweep.skip hfile, hran⟩
    | true =>
      cases hrun : (tool.delete path space).exec w with
      | mk reported after =>
        rcases exec_delete_cases hrun with
          ⟨e, hcall, rfl, hmade⟩ | ⟨call, done, hcall, rfl, hmade⟩
        · exact ⟨[], Sweep.stop hfile hcall, hmade⟩
        · obtain ⟨calls, hsweep, hran⟩ := ih after
          refine ⟨call :: calls, (hsweep.of_ran hmade).next hfile hcall, ?_⟩
          rw [List.reverse_cons]
          exact hmade.trans hran

/-! ### The removal -/

/-- What is told after a removal. -/
def removalNote (count : Nat) : Record :=
  ⟨.info, "selftest::session", "Assets deleted: " ++ toString count⟩

theorem exec_removeAllAssets_unlisted (s : Session) (w : World) {e : FileError}
    (hlist : w.files.list s.assets = .error e) :
    removeAllAssets.exec (s, w) = (.error (.noListing s.assets e), (s, w)) := by
  refine (Action.exec_bind_ok _ (exec_current (s, w))).trans ?_
  refine Action.exec_bind_error _ (exec_outside (.noListing s.assets)
    (World.files? (·.list s.assets)) s (World.exec_files? _ w) |>.trans ?_)
  rw [hlist]
  rfl

theorem exec_removeAllAssets_listed (s : Session) (w : World) {paths : List String}
    (hlist : w.files.list s.assets = .ok paths) :
    removeAllAssets.exec (s, w) =
      match (deleteManifests s.tool s.space paths).exec w with
      | (.error e, w) => (.error (.library e), (s, w))
      | (.ok count, w) => (.ok count,
          ({ s with applied := [] }, Logbook.note (removalNote count) w)) := by
  refine (Action.exec_bind_ok _ (exec_current (s, w))).trans ?_
  have hlisted := exec_outside (.noListing s.assets) (World.files? (·.list s.assets)) s
    (World.exec_files? _ w)
  rw [hlist] at hlisted
  refine (Action.exec_bind_ok _ hlisted).trans ?_
  cases hrun : (deleteManifests s.tool s.space paths).exec w with
  | mk outcome after =>
    have hdeleted := exec_outside .library (deleteManifests s.tool s.space paths) s hrun
    cases outcome with
    | error e => exact Action.exec_bind_error _ hdeleted
    | ok count => exact (Action.exec_bind_ok _ hdeleted).trans rfl

/-- A removal ends as its deletions do. The names are dropped if all of these could
be made, and are all kept otherwise. -/
theorem removeAllAssets_sweep (s : Session) (w : World) {paths : List String}
    (hlist : w.files.list s.assets = .ok paths) :
    ∃ outcome calls, Sweep s.tool s.space paths w outcome calls ∧
      (removeAllAssets.exec (s, w)).1 = outcome.mapError .library ∧
      (removeAllAssets.exec (s, w)).2.1 =
        (if outcome.isOk then { s with applied := [] } else s) ∧
      Ran calls.reverse w (removeAllAssets.exec (s, w)).2.2 := by
  obtain ⟨calls, hsweep, hran⟩ := deleteManifests_sweep s.tool s.space paths w
  rw [exec_removeAllAssets_listed s w hlist]
  cases hrun : (deleteManifests s.tool s.space paths).exec w with
  | mk outcome after =>
    rw [hrun] at hsweep hran
    refine ⟨outcome, calls, hsweep, ?_⟩
    cases outcome with
    | error e => exact ⟨rfl, rfl, hran⟩
    | ok count => exact ⟨rfl, rfl, hran.files, hran.commands⟩

/-- A removal drops all names if it succeeds, and else none. -/
theorem removeAllAssets_session (s : Session) (w : World) :
    (removeAllAssets.exec (s, w)).2.1 =
      if (removeAllAssets.exec (s, w)).1.isOk then { s with applied := [] } else s := by
  cases hlist : w.files.list s.assets with
  | error e =>
    rw [exec_removeAllAssets_unlisted s w hlist]
    rfl
  | ok paths =>
    obtain ⟨outcome, calls, -, houtcome, hsession, -⟩ := removeAllAssets_sweep s w hlist
    rw [houtcome, hsession]
    cases outcome with
    | error e => rfl
    | ok count => rfl

/-! ### What a removal covers -/

/-- Among some calls of the tool is one that deletes what the name of an asset stands
for. -/
def DeletedBy (s : Session) (w : World) (name : String) (calls : List (List String)) : Prop :=
  ∃ absolute, w.files.canonical (s.assetPath name) = .ok absolute ∧
    manifestCall .delete s.space absolute ∈ calls

/-- What the name of an asset stands for is one of the regular files in the directory
of assets, links followed. -/
def Listed (s : Session) (files : Files) (name : String) : Prop :=
  ∃ paths path absolute, files.list s.assets = .ok paths ∧ path ∈ paths ∧
    files.isFile path = true ∧ files.canonical path = .ok absolute ∧
    files.canonical (s.assetPath name) = .ok absolute

theorem deletedBy_sweep_iff {s : Session} {w : World} {paths : List String}
    {calls : List (List String)} {n : Nat} (hlist : w.files.list s.assets = .ok paths)
    (h : Sweep s.tool s.space paths w (.ok n) calls) (name : String) :
    s.DeletedBy w name calls ↔ s.Listed w.files name := by
  constructor
  · rintro ⟨absolute, hname, hmem⟩
    obtain ⟨path, hpath, hfile, hcall⟩ := (h.mem_iff _).mp hmem
    obtain ⟨found, hfound, hsame⟩ := prepare_ok hcall
    have habsolute : absolute = found := by simpa [manifestCall] using hsame
    exact ⟨paths, path, found, hlist, hpath, hfile, hfound, habsolute ▸ hname⟩
  · rintro ⟨paths', path, absolute, hlist', hpath, hfile, hfound, hname⟩
    have hpaths : paths' = paths := Except.ok.inj (hlist'.symm.trans hlist)
    rw [hpaths] at hpath
    obtain ⟨call, hcall⟩ := h.prepare_isOk hpath hfile
    obtain ⟨found, hfound', rfl⟩ := prepare_ok hcall
    have habsolute : found = absolute := Except.ok.inj (hfound'.symm.trans hfound)
    refine ⟨absolute, hname, (h.mem_iff _).mpr ⟨path, hpath, hfile, ?_⟩⟩
    rw [hcall, habsolute]

/-- A removal that fails leaves the session as it was. One that succeeds drops all
names, and of any asset it deletes what the name stands for exactly if that is a
regular file in the directory of assets itself. -/
theorem removeAllAssets_covers_iff (s : Session) (w : World) :
    let run := removeAllAssets.exec (s, w)
    (∀ e, run.1 = .error e → run.2.1 = s) ∧
    ∀ n, run.1 = .ok n → run.2.1 = { s with applied := [] } ∧
      ∃ calls, run.2.2.commands.calls = calls ++ w.commands.calls ∧
        ∀ name, s.DeletedBy w name calls ↔ s.Listed w.files name := by
  have hsession := removeAllAssets_session s w
  refine ⟨fun e he => ?_, fun n hn => ⟨?_, ?_⟩⟩
  · rw [hsession, he]
    rfl
  · rw [hsession, hn]
    rfl
  cases hlist : w.files.list s.assets with
  | error e =>
    rw [exec_removeAllAssets_unlisted s w hlist] at hn
    cases hn
  | ok paths =>
    obtain ⟨outcome, calls, hsweep, houtcome, -, hran⟩ := removeAllAssets_sweep s w hlist
    refine ⟨calls.reverse, congrArg Commands.calls hran.commands, ?_⟩
    intro name
    cases outcome with
    | error e =>
      have hclash := houtcome.symm.trans hn
      cases hclash
    | ok count =>
      rw [← deletedBy_sweep_iff hlist hsweep name]
      simp [DeletedBy]

/-! ### A manifest below the directory -/

/-- A directory of assets that holds a manifest and, one level below, another. -/
def nestedWorld : World :=
  sampleWorld [(["assets"], .directory), (["assets", "nested"], .directory),
    (["assets", "nested", "ratings.yaml"], .file ""), (["assets", "reviews.yaml"], .file "")]

/-- A session over that directory. -/
def nestedStart : Session := { sample with assets := "assets" }

/-- The session after both manifests were applied through it. -/
def nestedSession : Session :=
  { nestedStart with applied := ["reviews.yaml", "nested/ratings.yaml"] }

theorem nestedWorld_list :
    nestedWorld.files.list "assets" = .ok ["assets/nested", "assets/reviews.yaml"] := by
  have hpath : nestedWorld.files.resolve "assets" = .ok ["assets"] := rfl
  exact Files.list_of_sorted hpath rfl rfl (by decide +kernel)

theorem nestedSession_sweep :
    Sweep nestedSession.tool nestedSession.space ["assets/nested", "assets/reviews.yaml"]
      nestedWorld (.ok 1) [manifestCall .delete "bookinfo" "/assets/reviews.yaml"] :=
  @Sweep.whole _ _ _ nestedWorld
    [manifestCall .delete "bookinfo" "/assets/reviews.yaml"] rfl

theorem nestedSession_reached :
    Reached [.applied "nested/ratings.yaml", .applied "reviews.yaml"] nestedSession
      nestedWorld := by
  have hreported : ManifestVerb.apply.reported (Utf8.encodeString "created") = true := by
    decide +kernel
  have hcall : nestedStart.tool.prepare .apply (nestedStart.assetPath "reviews.yaml")
      nestedStart.space nestedWorld =
        .ok (manifestCall .apply "bookinfo" "/assets/reviews.yaml") := rfl
  have hcall' : nestedStart.tool.prepare .apply
      (nestedStart.assetPath "nested/ratings.yaml") nestedStart.space nestedWorld =
        .ok (manifestCall .apply "bookinfo" "/assets/nested/ratings.yaml") := rfl
  obtain ⟨w, hfirst⟩ := exec_applyAsset_of_prepared hcall hreported
  obtain ⟨w', hsecond⟩ := exec_applyAsset_of_prepared (s := nestedStart.track "reviews.yaml")
    hcall' hreported
  have htracked : (nestedStart.track "reviews.yaml").track "nested/ratings.yaml" =
      nestedSession := by decide
  have hstart : Reached [] nestedStart nestedWorld := Reached.start rfl
  have hboth := ((hstart.apply hfirst).meanwhile nestedWorld).apply hsecond
  rw [htracked] at hboth
  exact hboth.meanwhile nestedWorld

/-- A manifest that was applied through a session may lose its tracking in a removal
that does not delete it. -/
theorem not_covered_of_nested :
    ¬ ∀ es s w n, Reached es s w → (removeAllAssets.exec (s, w)).1 = .ok n →
      ∃ calls, (removeAllAssets.exec (s, w)).2.2.commands.calls =
          calls ++ w.commands.calls ∧
        ∀ name ∈ s.applied, s.DeletedBy w name calls := by
  intro hcovered
  obtain ⟨outcome, calls, hsweep, houtcome, -, hran⟩ :=
    removeAllAssets_sweep nestedSession nestedWorld nestedWorld_list
  obtain ⟨hone, hcalls⟩ := hsweep.unique nestedSession_sweep
  rw [hone] at houtcome
  obtain ⟨made, hmade, hall⟩ := hcovered _ _ _ _ nestedSession_reached houtcome
  have hsame : made = calls.reverse :=
    List.append_cancel_right (hmade.symm.trans (congrArg Commands.calls hran.commands))
  obtain ⟨absolute, hname, hmem⟩ := hall "nested/ratings.yaml" (by simp [nestedSession])
  have hfound : nestedWorld.files.canonical
      (nestedSession.assetPath "nested/ratings.yaml") =
        .ok "/assets/nested/ratings.yaml" := rfl
  have habsolute : absolute = "/assets/nested/ratings.yaml" :=
    Except.ok.inj (hname.symm.trans hfound)
  rw [hsame, hcalls, habsolute] at hmem
  simp [manifestCall] at hmem

theorem removeAllAssets_covers_iff_of_nested :
    nestedSession.applied = ["reviews.yaml", "nested/ratings.yaml"] ∧
    (removeAllAssets.exec (nestedSession, nestedWorld)).1 = .ok 1 ∧
    (removeAllAssets.exec (nestedSession, nestedWorld)).2.1.applied = [] ∧
    ∃ calls, (removeAllAssets.exec (nestedSession, nestedWorld)).2.2.commands.calls = calls ∧
      nestedSession.DeletedBy nestedWorld "reviews.yaml" calls ∧
      ¬ nestedSession.DeletedBy nestedWorld "nested/ratings.yaml" calls := by
  obtain ⟨outcome, calls, hsweep, houtcome, -, -⟩ :=
    removeAllAssets_sweep nestedSession nestedWorld nestedWorld_list
  obtain ⟨hone, -⟩ := hsweep.unique nestedSession_sweep
  rw [hone] at houtcome
  obtain ⟨-, hcovers⟩ := removeAllAssets_covers_iff nestedSession nestedWorld
  obtain ⟨hsession, made, hmade, hlisted⟩ := hcovers 1 houtcome
  refine ⟨rfl, houtcome, ?_, made, hmade.trans (List.append_nil made), ?_, ?_⟩
  · rw [hsession]
  · apply (hlisted "reviews.yaml").mpr
    exact ⟨_, "assets/reviews.yaml", "/assets/reviews.yaml", nestedWorld_list, by simp,
      rfl, rfl, rfl⟩
  · intro hdeleted
    obtain ⟨paths, path, absolute, hlist, hpath, hfile, hfound, hname⟩ :=
      (hlisted "nested/ratings.yaml").mp hdeleted
    have hpaths : paths = ["assets/nested", "assets/reviews.yaml"] :=
      Except.ok.inj (hlist.symm.trans nestedWorld_list)
    have hname' : nestedWorld.files.canonical
        (nestedSession.assetPath "nested/ratings.yaml") =
          .ok "/assets/nested/ratings.yaml" := rfl
    have habsolute := Except.ok.inj (hname.symm.trans hname')
    rw [hpaths] at hpath
    simp only [List.mem_cons, List.not_mem_nil, or_false] at hpath
    rcases hpath with rfl | rfl
    · have hdirectory : nestedWorld.files.isFile "assets/nested" = false := rfl
      rw [hdirectory] at hfile
      cases hfile
    · have hreviews : nestedWorld.files.canonical "assets/reviews.yaml" =
          .ok "/assets/reviews.yaml" := rfl
      have hother := Except.ok.inj (hfound.symm.trans hreviews)
      rw [habsolute] at hother
      simp at hother

end MeshProbe.Session
