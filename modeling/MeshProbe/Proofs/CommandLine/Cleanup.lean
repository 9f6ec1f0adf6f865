import MeshProbe.CommandLine.Run
import MeshProbe.Proofs.Session.Removal

/-!
The two ways to clear a directory of manifests, the command and the removal of all
assets of a session. They go through the same paths and count differently; both are
the same sweep. Main statement: `cleanup_agrees_with_removal`.
-/

namespace MeshProbe.CommandLine

open ClusterTool

/-! ### The walk of the command -/

theorem exec_cleanPaths_cons (tool : ClusterTool) (space path : String)
    (rest : List String) (count : Nat) (w : World) :
    (cleanPaths tool space (path :: rest) count).exec w =
      if w.files.isFile path then
        match (tool.delete path space).exec w with
        | (.error e, w) => (.error (.library e), w)
        | (.ok done, w) => (cleanPaths tool space rest (count + 1)).exec
            (if done then w.withPrinted ("Deleted '" ++ path ++ "'.") else w)
      else (cleanPaths tool space rest count).exec w := by
  rw [cleanPaths, World.exec_bind_isFile]
  cases hfile : w.files.isFile path with
  | false => rfl
  | true =>
    simp only [if_true]
    have hmapped := Action.exec_mapError Failure.library (tool.delete path space) w
    cases hrun : (tool.delete path space).exec w with
    | mk reported after =>
      rw [hrun] at hmapped
      cases reported with
      | error e => exact Action.exec_bind_error _ hmapped
      | ok done =>
        refine (Action.exec_bind_ok _ hmapped).trans ?_
        cases done with
        | false => rfl
        | true => rfl

/-- The command makes the same deletions and counts on from where it stands. What it
prints in between does not bear on the tool. -/
theorem cleanPaths_sweep (tool : ClusterTool) (space : String) (paths : List String)
    (count : Nat) (w : World) :
    ∃ outcome calls, Sweep tool space paths w outcome calls ∧
      ((cleanPaths tool space paths count).exec w).1 =
        (outcome.mapError .library).map (count + ·) ∧
      Ran calls.reverse w ((cleanPaths tool space paths count).exec w).2 := by
  induction paths generalizing count w with
  | nil => exact ⟨.ok 0, [], Sweep.nil, rfl, Ran.refl w⟩
  | cons path rest ih =>
    rw [exec_cleanPaths_cons]
    cases hfile : w.files.isFile path with
    | false =>
      obtain ⟨outcome, calls, hsweep, hcounted, hran⟩ := ih count w
      exact ⟨outcome, calls, hsweep.skip hfile, hcounted, hran⟩
    | true =>
      cases hrun : (tool.delete path space).exec w with
      | mk reported after =>
        rcases exec_delete_cases hrun with
          ⟨e, hcall, rfl, hmade⟩ | ⟨call, done, hcall, rfl, hmade⟩
        · exact ⟨.error e, [], Sweep.stop hfile hcall, rfl, hmade⟩
        · simp only [if_true]
          -- The world in which the next path is looked at, with or without a line printed.
          generalize hnext : (if done then after.withPrinted ("Deleted '" ++ path ++ "'.")
            else after) = next
          have hmade' : Ran [call] w next := by
            rw [← hnext]
            split
            · exact hmade.printed _
            · exact hmade
          obtain ⟨outcome, calls, hsweep, hcounted, hran⟩ := ih (count + 1) next
          refine ⟨outcome.map (· + 1), call :: calls,
            (hsweep.of_ran hmade').next hfile hcall, ?_, ?_⟩
          · rw [hcounted]
            cases outcome with
            | error e => rfl
            | ok n =>
              change Except.ok (count + 1 + n) = Except.ok (count + (n + 1))
              rw [Nat.add_assoc, Nat.add_comm 1 n]
          · rw [List.reverse_cons]
            exact hmade'.trans hran

/-! ### The command as a whole -/

theorem exec_runCleanup_unlisted (tool : ClusterTool) (space assets : String) (w : World)
    {e : FileError} (hlist : w.files.list assets = .error e) :
    (runCleanup tool space assets).exec w = (.error (.noListing assets e), w) := by
  have hlisted := Action.exec_mapError (Failure.noListing assets)
    (World.files? (·.list assets)) w
  rw [World.exec_files?, hlist] at hlisted
  exact Action.exec_bind_error _ hlisted

/-- The command ends as its deletions do, and tells at last how many there were. -/
theorem runCleanup_sweep (tool : ClusterTool) (space assets : String) (w : World)
    {paths : List String} (hlist : w.files.list assets = .ok paths) :
    ∃ outcome calls, Sweep tool space paths w outcome calls ∧
      ((runCleanup tool space assets).exec w).1 =
        (outcome.mapError .library).map (fun _ => ()) ∧
      Ran calls.reverse w ((runCleanup tool space assets).exec w).2 ∧
      ∀ n, outcome = .ok n → ((runCleanup tool space assets).exec w).2.printed.head? =
        some ("Assets deleted: " ++ toString n) := by
  have hlisted := Action.exec_mapError (Failure.noListing assets)
    (World.files? (·.list assets)) w
  rw [World.exec_files?, hlist] at hlisted
  obtain ⟨outcome, calls, hsweep, hcounted, hran⟩ := cleanPaths_sweep tool space paths 0 w
  have hexec : (runCleanup tool space assets).exec w =
      (cleanPaths tool space paths 0 >>= fun count =>
        World.print ("Assets deleted: " ++ toString count)).exec w :=
    Action.exec_bind_ok _ hlisted
  rw [hexec]
  cases hrun : (cleanPaths tool space paths 0).exec w with
  | mk counted after =>
    rw [hrun] at hcounted hran
    refine ⟨outcome, calls, hsweep, ?_⟩
    cases outcome with
    | error e =>
      change counted = .error (.library e) at hcounted
      rw [hcounted] at hrun
      rw [Action.exec_bind_error _ hrun]
      refine ⟨rfl, hran, ?_⟩
      intro n hn
      cases hn
    | ok n =>
      change counted = .ok (0 + n) at hcounted
      rw [hcounted, Nat.zero_add] at hrun
      rw [Action.exec_bind_ok _ hrun]
      refine ⟨rfl, hran.printed _, ?_⟩
      intro m hm
      cases hm
      rfl

/-- Clearing a directory by the command and by the removal of all assets. In whatever
order the paths of a directory are listed, the two walks are one sweep: the same
deletions, in turn and up to the first that cannot be made, of those paths that stand
for regular files. So the whole runs end with the same error or the same count, and the
tool was run with the same arguments. -/
theorem cleanup_agrees_with_removal (s : Session) (w : World) :
    let cleanup := (runCleanup s.tool s.space s.assets).exec w
    let removal := Session.removeAllAssets.exec (s, w)
    (∀ paths count, ∃ outcome calls, Sweep s.tool s.space paths w outcome calls ∧
      (((Session.deleteManifests s.tool s.space paths).exec w).1 = outcome ∧
        Ran calls.reverse w ((Session.deleteManifests s.tool s.space paths).exec w).2) ∧
      ((cleanPaths s.tool s.space paths count).exec w).1 =
          (outcome.mapError .library).map (count + ·) ∧
        Ran calls.reverse w ((cleanPaths s.tool s.space paths count).exec w).2) ∧
    (∀ e, w.files.list s.assets = .error e →
      cleanup = (.error (.noListing s.assets e), w) ∧
      removal = (.error (.noListing s.assets e), (s, w))) ∧
    ∀ paths, w.files.list s.assets = .ok paths →
      ∃ outcome calls, Sweep s.tool s.space paths w outcome calls ∧
        Ran calls.reverse w cleanup.2 ∧ Ran calls.reverse w removal.2.2 ∧
        cleanup.1 = (outcome.mapError .library).map (fun _ => ()) ∧
        removal.1 = outcome.mapError .library ∧
        ∀ n, outcome = .ok n → n = (paths.filter w.files.isFile).length ∧
          cleanup.2.printed.head? = some ("Assets deleted: " ++ toString n) := by
  refine ⟨fun paths count => ?_, fun e hlist => ?_, fun paths hlist => ?_⟩
  · obtain ⟨calls, hsweep, hran⟩ := Session.deleteManifests_sweep s.tool s.space paths w
    obtain ⟨outcome, calls', hsweep', hcounted, hran'⟩ :=
      cleanPaths_sweep s.tool s.space paths count w
    obtain ⟨houtcome, hcalls⟩ := hsweep.unique hsweep'
    rw [← hcalls] at hran' hsweep'
    exact ⟨outcome, calls, hsweep', ⟨houtcome, hran⟩, hcounted, hran'⟩
  · exact ⟨exec_runCleanup_unlisted s.tool s.space s.assets w hlist,
      Session.exec_removeAllAssets_unlisted s w hlist⟩
  · obtain ⟨outcome, calls, hsweep, hcleanup, hran, htold⟩ :=
      runCleanup_sweep s.tool s.space s.assets w hlist
    obtain ⟨outcome', calls', hsweep', hremoval, -, hran'⟩ :=
      Session.removeAllAssets_sweep s w hlist
    obtain ⟨houtcome, hcalls⟩ := hsweep'.unique hsweep
    rw [houtcome] at hremoval
    rw [hcalls] at hran'
    exact ⟨outcome, calls, hsweep, hran, hran', hcleanup, hremoval,
      fun n hn => ⟨hsweep.count hn, htold n hn⟩⟩

/-! ### A directory with links -/

/-- A directory of assets with a manifest and a link to it, a directory, and two links
that lead nowhere. -/
def linkedWorld : World :=
  Session.sampleWorld [(["assets"], .directory), (["assets", "nested"], .directory),
    (["assets", "gone.yaml"], .link "missing.yaml"),
    (["assets", "loop.yaml"], .link "loop.yaml"), (["assets", "reviews.yaml"], .file ""),
    (["assets", "current.yaml"], .link "reviews.yaml")]

def linkedPaths : List String :=
  ["assets/nested", "assets/gone.yaml", "assets/loop.yaml", "assets/reviews.yaml",
    "assets/current.yaml"]

theorem linkedWorld_list : linkedWorld.files.list "assets" = .ok linkedPaths := by
  have hpath : linkedWorld.files.resolve "assets" = .ok ["assets"] := rfl
  exact Files.list_of_sorted hpath rfl rfl (by decide +kernel)

/-- The call that deletes the manifest. -/
def linkedCall : List String := manifestCall .delete "bookinfo" "/assets/reviews.yaml"

/-- The manifest is deleted under its own name and under that of the link. -/
theorem linkedWorld_sweep :
    Sweep Session.nestedStart.tool Session.nestedStart.space linkedPaths linkedWorld
      (.ok 2) [linkedCall, linkedCall] := by
  have hcurrent : linkedWorld.files.isFile "assets/current.yaml" = true := rfl
  have hcurrentCall : Session.nestedStart.tool.prepare .delete "assets/current.yaml"
      Session.nestedStart.space linkedWorld = .ok linkedCall := rfl
  have hreviews : linkedWorld.files.isFile "assets/reviews.yaml" = true := rfl
  have hreviewsCall : Session.nestedStart.tool.prepare .delete "assets/reviews.yaml"
      Session.nestedStart.space linkedWorld = .ok linkedCall := rfl
  have hloop : linkedWorld.files.isFile "assets/loop.yaml" = false := by decide +kernel
  have hgone : linkedWorld.files.isFile "assets/gone.yaml" = false := rfl
  have hnested : linkedWorld.files.isFile "assets/nested" = false := rfl
  have hlast := Sweep.nil.next hcurrent hcurrentCall
  have hboth := hlast.next hreviews hreviewsCall
  exact ((hboth.skip hloop).skip hgone).skip hnested

theorem cleanup_agrees_with_removal_of_links :
    linkedWorld.files.list Session.nestedStart.assets = .ok linkedPaths ∧
    ∃ told after, (runCleanup Session.nestedStart.tool Session.nestedStart.space
        Session.nestedStart.assets).exec linkedWorld = (.ok (), told) ∧
      Session.removeAllAssets.exec (Session.nestedStart, linkedWorld) = (.ok 2, after) ∧
      told.printed.head? = some "Assets deleted: 2" ∧
      told.commands.calls = [linkedCall, linkedCall] ∧
      after.2.commands.calls = [linkedCall, linkedCall] := by
  obtain ⟨-, -, hagree⟩ := cleanup_agrees_with_removal Session.nestedStart linkedWorld
  obtain ⟨outcome, calls, hsweep, htold, hafter, hcleanup, hremoval, hcount⟩ :=
    hagree linkedPaths linkedWorld_list
  obtain ⟨htwo, hcalls⟩ := hsweep.unique linkedWorld_sweep
  rw [hcalls] at htold hafter
  rw [htwo] at hcleanup hremoval
  exact ⟨linkedWorld_list, _, _, Prod.ext hcleanup rfl, Prod.ext hremoval rfl,
    (hcount 2 htwo).2, congrArg Commands.calls htold.commands,
    congrArg Commands.calls hafter.commands⟩

end MeshProbe.CommandLine
