import MeshProbe.Cluster.Tool
import MeshProbe.Proofs.Action

/-!
What handing a manifest to the command line tool comes to: the tool is not run
at all, and then there is an error, or it is run exactly once, and then its
output decides.
-/

namespace MeshProbe.World

theorem exec_runCommand (binary : String) (arguments : List String) (w : World) :
    (runCommand binary arguments).exec w =
      match w.findCommand binary with
      | .error e => (.error e, w)
      | .ok () =>
        if arguments.any FilePath.hasNul then (.error .nulInCommand, w)
        else (.ok (w.commands.answer w.commands.calls arguments),
          { w with commands := { w.commands with
              calls := arguments :: w.commands.calls } }) := by
  change (match w.findCommand binary with
    | .error e => _
    | .ok () => _ : StateM World (Except FileError CommandOutput)).run w = _
  cases w.findCommand binary with
  | error e => rfl
  | ok found =>
    by_cases hnul : arguments.any FilePath.hasNul = true
    · simp only [hnul, if_true]
      rfl
    · simp only [hnul]
      rfl

/-- A command that cannot be run leaves no trace; any other is run once. -/
theorem runCommand_cases (binary : String) (arguments : List String) (w : World) :
    (∃ e, (runCommand binary arguments).exec w = (.error e, w)) ∨
    (runCommand binary arguments).exec w =
      (.ok (w.commands.answer w.commands.calls arguments),
        { w with commands := { w.commands with
            calls := arguments :: w.commands.calls } }) := by
  rw [exec_runCommand]
  cases w.findCommand binary with
  | error e => exact Or.inl ⟨e, rfl⟩
  | ok found =>
    by_cases hnul : arguments.any FilePath.hasNul = true
    · exact Or.inl ⟨.nulInCommand, by simp [hnul]⟩
    · exact Or.inr (by simp [hnul])

/-- Whether a command can be started depends on the files and the commands alone. -/
theorem findCommand_congr {w w' : World} (hfiles : w'.files = w.files)
    (hcommands : w'.commands = w.commands) (binary : String) :
    w'.findCommand binary = w.findCommand binary := by
  unfold findCommand
  rw [hfiles, hcommands]

end MeshProbe.World

namespace MeshProbe.ClusterTool

/-- The arguments that a verb is run with on a manifest. -/
def manifestCall (verb : ManifestVerb) (space absolute : String) : List String :=
  [verb.word, "-n", space, "-f", absolute]

/-- Told that the tool is about to be run on a manifest. -/
def announced (verb : ManifestVerb) (space absolute : String) (w : World) : World :=
  Logbook.note ⟨.info, source, verb.announcement absolute space⟩ w

/-- A manifest that stands for nothing is not handed to the tool. -/
theorem exec_manifest_unresolved (tool : ClusterTool) (verb : ManifestVerb)
    (path space : String) (w : World) {e : FileError}
    (hpath : w.files.canonical path = .error e) :
    (tool.manifest verb path space).exec w = (.error (.manifestPath path e), w) := by
  have hcanonical : ((World.files? (·.canonical path) :
      Action World FileError String).mapError (Error.manifestPath path)).exec w =
        (.error (.manifestPath path e), w) := by
    rw [Action.exec_mapError]
    change ((w.files.canonical path).mapError _, w) = _
    rw [hpath]
    rfl
  exact Action.exec_bind_error _ hcanonical

/-- Any other is announced, and the tool is started on it. -/
theorem exec_manifest_resolved (tool : ClusterTool) (verb : ManifestVerb)
    (path space : String) (w : World) {absolute : String}
    (hpath : w.files.canonical path = .ok absolute) :
    (tool.manifest verb path space).exec w =
      let call := (tool.run (manifestCall verb space absolute)).exec
        (announced verb space absolute w)
      (call.1.map fun output => verb.reported output.stdout, call.2) := by
  have hcanonical : ((World.files? (·.canonical path) :
      Action World FileError String).mapError (Error.manifestPath path)).exec w =
        (.ok absolute, w) := by
    rw [Action.exec_mapError]
    change ((w.files.canonical path).mapError _, w) = _
    rw [hpath]
    rfl
  refine (Action.exec_bind_ok _ hcanonical).trans ?_
  refine (Action.exec_bind_ok _ (Action.exec_note _ w)).trans ?_
  exact Action.exec_bind_pure (fun output => verb.reported output.stdout)
    (tool.run (manifestCall verb space absolute)) (announced verb space absolute w)

/-- Where the tool can be started, what it prints decides. -/
theorem exec_manifest_started (tool : ClusterTool) (verb : ManifestVerb)
    (path space : String) (w : World) {absolute : String}
    (hpath : w.files.canonical path = .ok absolute)
    (hstart : w.findCommand tool.binary = .ok ())
    (hwords : (manifestCall verb space absolute).any FilePath.hasNul = false) :
    (tool.manifest verb path space).exec w =
      (.ok (verb.reported (w.commands.answer w.commands.calls
          (manifestCall verb space absolute)).stdout),
        { announced verb space absolute w with
          commands := { w.commands with
            calls := manifestCall verb space absolute :: w.commands.calls } }) := by
  have hrun : (World.runCommand tool.binary (manifestCall verb space absolute)).exec
      (announced verb space absolute w) =
        (.ok (w.commands.answer w.commands.calls (manifestCall verb space absolute)),
          { announced verb space absolute w with
            commands := { w.commands with
              calls := manifestCall verb space absolute :: w.commands.calls } }) := by
    rw [World.exec_runCommand,
      show (announced verb space absolute w).findCommand tool.binary = .ok () from hstart,
      hwords]
    rfl
  rw [exec_manifest_resolved tool verb path space w hpath]
  unfold run
  rw [Action.exec_mapError, hrun]
  rfl

/-- Between two worlds the tool was run with some arguments, the latest first, and
the files stayed as they were. -/
structure Ran (calls : List (List String)) (before after : World) : Prop where
  files : after.files = before.files
  commands : after.commands =
    { before.commands with calls := calls ++ before.commands.calls }

theorem Ran.refl (w : World) : Ran [] w w := ⟨rfl, rfl⟩

theorem Ran.trans {first second : List (List String)} {before between after : World}
    (h : Ran first before between) (h' : Ran second between after) :
    Ran (second ++ first) before after where
  files := h'.files.trans h.files
  commands := by
    rw [h'.commands, h.commands]
    simp only [List.append_assoc]

/-- What the tool is run with on the manifest at a path, or why it is not run. -/
def prepare (tool : ClusterTool) (verb : ManifestVerb) (path space : String) (w : World) :
    Except Error (List String) :=
  match w.files.canonical path with
  | .error e => .error (.manifestPath path e)
  | .ok absolute =>
    match w.findCommand tool.binary with
    | .error e => .error (.toolStart tool.binary e)
    | .ok () =>
      if (manifestCall verb space absolute).any FilePath.hasNul then
        .error (.toolStart tool.binary .nulInCommand)
      else .ok (manifestCall verb space absolute)

/-- What the tool can be run with depends on the files and the commands alone. -/
theorem prepare_congr (tool : ClusterTool) (verb : ManifestVerb) (path space : String)
    {w w' : World} (hfiles : w'.files = w.files) (hcommands : w'.commands = w.commands) :
    tool.prepare verb path space w' = tool.prepare verb path space w := by
  unfold prepare
  rw [World.findCommand_congr hfiles hcommands, hfiles]

/-- Running the tool does not bear on what it can be run with. -/
theorem prepare_of_ran (tool : ClusterTool) (verb : ManifestVerb) (path space : String)
    {calls : List (List String)} {w after : World} (h : Ran calls w after) :
    tool.prepare verb path space after = tool.prepare verb path space w := by
  unfold prepare World.findCommand
  rw [h.files, h.commands]

/-- A prepared call is one on the file that the path stands for. -/
theorem prepare_ok {tool : ClusterTool} {verb : ManifestVerb} {path space : String}
    {w : World} {call : List String} (h : tool.prepare verb path space w = .ok call) :
    ∃ absolute, w.files.canonical path = .ok absolute ∧
      call = manifestCall verb space absolute := by
  unfold prepare at h
  split at h
  · cases h
  case h_2 absolute hpath =>
    split at h
    · cases h
    · split at h
      · cases h
      · cases h
        exact ⟨absolute, hpath, rfl⟩

/-- Handing over a manifest: the prepared call is made, if there is one, and what
it prints decides. -/
theorem exec_manifest (tool : ClusterTool) (verb : ManifestVerb) (path space : String)
    (w : World) :
    ((tool.manifest verb path space).exec w).1 =
        ((tool.prepare verb path space w).map fun call =>
          verb.reported (w.commands.answer w.commands.calls call).stdout) ∧
      Ran (tool.prepare verb path space w).toOption.toList w
        ((tool.manifest verb path space).exec w).2 := by
  unfold prepare
  cases hpath : w.files.canonical path with
  | error e =>
    rw [exec_manifest_unresolved tool verb path space w hpath]
    exact ⟨rfl, Ran.refl w⟩
  | ok absolute =>
    rw [exec_manifest_resolved tool verb path space w hpath]
    unfold run
    simp only [Action.exec_mapError, World.exec_runCommand]
    have hfind : (announced verb space absolute w).findCommand tool.binary =
        w.findCommand tool.binary := World.findCommand_congr rfl rfl tool.binary
    rw [hfind]
    cases w.findCommand tool.binary with
    | error e => exact ⟨rfl, rfl, rfl⟩
    | ok found =>
      by_cases hnul : (manifestCall verb space absolute).any FilePath.hasNul = true
      · simp only [hnul, if_true]
        exact ⟨rfl, rfl, rfl⟩
      · simp only [hnul]
        exact ⟨rfl, rfl, rfl⟩

/-- How handing over a manifest may end: before the tool was run, with an error
and the commands as they were; or after it was run once, on the file that the
path stands for, with what its output reports. -/
inductive Handed (tool : ClusterTool) (verb : ManifestVerb) (path space : String)
    (w : World) : Except Error Bool → World → Prop
  | notRun {e : Error} {after : World} (commands : after.commands = w.commands) :
      Handed tool verb path space w (.error e) after
  | ran {absolute : String} {after : World}
      (resolved : w.files.canonical path = .ok absolute)
      (commands : after.commands =
        { w.commands with
          calls := manifestCall verb space absolute :: w.commands.calls }) :
      Handed tool verb path space w
        (.ok (verb.reported (w.commands.answer w.commands.calls
          (manifestCall verb space absolute)).stdout)) after

theorem manifest_handed (tool : ClusterTool) (verb : ManifestVerb)
    (path space : String) (w : World) :
    Handed tool verb path space w ((tool.manifest verb path space).exec w).1
      ((tool.manifest verb path space).exec w).2 := by
  obtain ⟨houtcome, hran⟩ := tool.exec_manifest verb path space w
  rw [houtcome]
  cases hcall : tool.prepare verb path space w with
  | error e =>
    rw [hcall] at hran
    exact .notRun hran.commands
  | ok call =>
    rw [hcall] at hran
    obtain ⟨absolute, hpath, rfl⟩ := prepare_ok hcall
    exact .ran hpath hran.commands

/-- Handing over a manifest runs the tool at most once, and on that manifest. -/
theorem exec_manifest_calls (tool : ClusterTool) (verb : ManifestVerb)
    (path space : String) (w : World) :
    ∃ calls, ((tool.manifest verb path space).exec w).2.commands.calls =
        calls ++ w.commands.calls ∧
      calls.length ≤ 1 ∧
      ∀ call ∈ calls, ∃ absolute, w.files.canonical path = .ok absolute ∧
        call = manifestCall verb space absolute := by
  obtain ⟨-, hran⟩ := tool.exec_manifest verb path space w
  refine ⟨_, congrArg Commands.calls hran.commands, ?_⟩
  cases hcall : tool.prepare verb path space w with
  | error e => exact ⟨Nat.zero_le 1, fun call hmem => absurd hmem List.not_mem_nil⟩
  | ok call =>
    refine ⟨Nat.le_refl 1, fun made hmade => ?_⟩
    obtain ⟨absolute, hpath, hcall⟩ := prepare_ok hcall
    exact ⟨absolute, hpath, (List.mem_singleton.mp hmade).trans hcall⟩

/-- What two worlds have in common after the same was done in both, as far as the
cluster's tool is concerned. -/
structure SameRun {α : Type} (x y : Except Error α × World) : Prop where
  outcome : x.1 = y.1
  commands : x.2.commands = y.2.commands

/-- Neither time nor the network matters to the handing over of a manifest. -/
theorem manifest_congr (tool : ClusterTool) (verb : ManifestVerb) (path space : String)
    {w w' : World} (hfiles : w'.files = w.files) (hcommands : w'.commands = w.commands) :
    SameRun ((tool.manifest verb path space).exec w')
      ((tool.manifest verb path space).exec w) := by
  obtain ⟨houtcome, hran⟩ := tool.exec_manifest verb path space w
  obtain ⟨houtcome', hran'⟩ := tool.exec_manifest verb path space w'
  rw [tool.prepare_congr verb path space hfiles hcommands] at houtcome' hran'
  constructor
  · rw [houtcome, houtcome', hcommands]
  · rw [hran.commands, hran'.commands, hcommands]

/-- A world in which nothing but the commands and the records has changed. -/
structure OnlyRun (before after : World) : Prop where
  now : after.now = before.now
  network : after.network = before.network
  files : after.files = before.files

theorem manifest_onlyRun (tool : ClusterTool) (verb : ManifestVerb) (path space : String)
    (w : World) : OnlyRun w ((tool.manifest verb path space).exec w).2 := by
  cases hpath : w.files.canonical path with
  | error e =>
    rw [exec_manifest_unresolved tool verb path space w hpath]
    exact ⟨rfl, rfl, rfl⟩
  | ok absolute =>
    rw [exec_manifest_resolved tool verb path space w hpath]
    unfold run
    simp only [Action.exec_mapError]
    rcases World.runCommand_cases tool.binary (manifestCall verb space absolute)
      (announced verb space absolute w) with ⟨e, hexec⟩ | hexec
    · rw [hexec]
      exact ⟨rfl, rfl, rfl⟩
    · rw [hexec]
      exact ⟨rfl, rfl, rfl⟩

end MeshProbe.ClusterTool
