import MeshProbe.Proofs.Cluster.Manifest
import MeshProbe.Proofs.Text.Lossy

/-!
What the command line tool is taken to have done is settled by the bytes that it
prints: whether certain words stand in them, well formed or not as they may be.
A refused change of the console's role is the only thing that is warned of.
-/

namespace MeshProbe

/-- The warnings that were told, the latest first. -/
def World.warnings (w : World) : List Record :=
  w.records.filter fun record => record.level = .warn

namespace ClusterTool

/-- The bytes of words stand together in an output. -/
def Shows (words : String) (output : Bytes) : Prop :=
  Utf8.encodeString words <:+: output

instance (words : String) (output : Bytes) : Decidable (Shows words output) :=
  inferInstanceAs (Decidable (Utf8.encodeString words <:+: output))

theorem mentions_iff {words : String} (h : Utf8.Ascii words.toList) (output : Bytes) :
    mentions words output = true ↔ Shows words output :=
  Text.occurs_decodeLossy_iff h output

theorem reported_apply_iff (output : Bytes) :
    ManifestVerb.apply.reported output = true ↔
      Shows "created" output ∨ Shows "configured" output := by
  rw [ManifestVerb.reported, Bool.or_eq_true, mentions_iff (by decide), mentions_iff (by decide)]

theorem reported_delete_iff (output : Bytes) :
    ManifestVerb.delete.reported output = true ↔ Shows "deleted" output :=
  mentions_iff (by decide) output

/-- The tool can be started with certain words, and then leaves an output. -/
structure Prints (tool : ClusterTool) (w : World) (call : List String)
    (output : CommandOutput) : Prop where
  starts : w.findCommand tool.binary = .ok ()
  words : call.any FilePath.hasNul = false
  answers : w.commands.answer w.commands.calls call = output

/-- The world after the tool was run with certain words. -/
def ranOnce (call : List String) (w : World) : World :=
  { w with commands := { w.commands with calls := call :: w.commands.calls } }

theorem exec_run_of_prints {tool : ClusterTool} {w : World} {call : List String}
    {output : CommandOutput} (h : tool.Prints w call output) :
    (tool.run call).exec w = (.ok output, ranOnce call w) := by
  unfold run
  rw [Action.exec_mapError, World.exec_runCommand, h.starts]
  simp only [h.words, h.answers]
  rfl

theorem exec_manifest_of_prints {tool : ClusterTool} {verb : ManifestVerb}
    {path space absolute : String} {w : World} {output : CommandOutput}
    (hpath : w.files.canonical path = .ok absolute)
    (h : tool.Prints w (manifestCall verb space absolute) output) :
    (tool.manifest verb path space).exec w =
      (.ok (verb.reported output.stdout),
        ranOnce (manifestCall verb space absolute) (announced verb space absolute w)) := by
  rw [exec_manifest_started tool verb path space w hpath h.starts h.words, h.answers]
  rfl

/-- What the tool is run with for a change of the console's role. -/
def roleCall (verb : RoleVerb) : List String :=
  ["adm", "policy", verb.word, Template.accountName, serviceAccount]

/-- What is told of a change of the role that was not reported. -/
def refusal (verb : RoleVerb) (stderr : Bytes) : Record :=
  ⟨.warn, source, "'" ++ verb.word ++ " " ++ serviceAccount ++
    "' did not report success: " ++ Utf8.lossyString stderr⟩

theorem exec_rolePolicy_of_prints {tool : ClusterTool} {verb : RoleVerb} {w : World}
    {output : CommandOutput} (h : tool.Prints w (roleCall verb) output) :
    (tool.rolePolicy verb).exec w =
      if mentions verb.report output.stdout then (.ok true, ranOnce (roleCall verb) w)
      else (.ok false, Logbook.note (refusal verb output.stderr) (ranOnce (roleCall verb) w)) := by
  refine (Action.exec_bind_ok _ (exec_run_of_prints h)).trans ?_
  by_cases hreport : mentions verb.report output.stdout = true
  · rw [if_pos hreport, if_pos hreport]
    rfl
  · rw [if_neg hreport, if_neg hreport]
    rfl

theorem report_eq (verb : RoleVerb) :
    verb.report = match verb with
      | .grant => "cluster role \"kiali\" added"
      | .revoke => "cluster role \"kiali\" removed" := by
  cases verb <;> rfl

theorem report_ascii (verb : RoleVerb) : Utf8.Ascii verb.report.toList := by
  cases verb <;> decide

theorem warnings_announced (verb : ManifestVerb) (space absolute : String) (call : List String)
    (w : World) : (ranOnce call (announced verb space absolute w)).warnings = w.warnings := rfl

theorem warnings_refusal (verb : RoleVerb) (stderr : Bytes) (call : List String) (w : World) :
    (Logbook.note (refusal verb stderr) (ranOnce call w)).warnings =
      refusal verb stderr :: w.warnings := rfl

/-- Where a manifest is there and the tool can be started, the bytes that the tool prints decide,
well formed or not, whatever it prints as errors. Of the calls only a change of the role is ever
warned of, and exactly when it was not reported. -/
theorem outcomes_of_bytes (tool : ClusterTool) (w : World) :
    (∀ path space absolute output, w.files.canonical path = .ok absolute →
      tool.Prints w (manifestCall .apply space absolute) output →
      ∃ done after, (tool.apply path space).exec w = (.ok done, after) ∧
        (done = true ↔ Shows "created" output.stdout ∨ Shows "configured" output.stdout) ∧
        after.warnings = w.warnings) ∧
    (∀ path space absolute output, w.files.canonical path = .ok absolute →
      tool.Prints w (manifestCall .delete space absolute) output →
      ∃ done after, (tool.delete path space).exec w = (.ok done, after) ∧
        (done = true ↔ Shows "deleted" output.stdout) ∧
        after.warnings = w.warnings) ∧
    ∀ verb output, tool.Prints w (roleCall verb) output →
      ∃ done after, (tool.rolePolicy verb).exec w = (.ok done, after) ∧
        (done = true ↔ Shows (match verb with
          | .grant => "cluster role \"kiali\" added"
          | .revoke => "cluster role \"kiali\" removed") output.stdout) ∧
        after.warnings = (if done then [] else [refusal verb output.stderr]) ++ w.warnings := by
  refine ⟨?_, ?_, ?_⟩
  · intro path space absolute output hpath hprints
    exact ⟨_, _, exec_manifest_of_prints hpath hprints, reported_apply_iff _,
      warnings_announced _ _ _ _ w⟩
  · intro path space absolute output hpath hprints
    exact ⟨_, _, exec_manifest_of_prints hpath hprints, reported_delete_iff _,
      warnings_announced _ _ _ _ w⟩
  · intro verb output hprints
    have hexec := exec_rolePolicy_of_prints hprints
    have hshows := mentions_iff (report_ascii verb) output.stdout
    rw [← report_eq verb, ← hshows]
    by_cases hreport : mentions verb.report output.stdout = true
    · rw [if_pos hreport] at hexec
      exact ⟨true, _, hexec, by simp [hreport], rfl⟩
    · rw [if_neg hreport] at hexec
      exact ⟨false, _, hexec, by simpa using hreport, warnings_refusal verb _ _ w⟩

/-! ### Output that is no text -/

/-- A tool that prints ill-formed bytes: beside the words for an apply, amid them for the rest. -/
def garble (call : List String) : CommandOutput :=
  if call.head? = some "apply" then
    ⟨[0xF0, 0x9F] ++ Utf8.encodeString "created" ++ [0xC3], []⟩
  else if call.head? = some "delete" then
    ⟨Utf8.encodeString "dele" ++ [0xE2, 0x82] ++ Utf8.encodeString "ted", []⟩
  else ⟨Utf8.encodeString "cluster role \"kiali\" add" ++ [0xFF] ++ Utf8.encodeString "ed", [0x80]⟩

def garbledWorld : World where
  now := 0
  network := .ofReplies fun _ _ => ⟨0, .error .unreachable⟩
  files := ⟨[(["reviews.yaml"], .file "")], []⟩
  commands := ⟨[defaultBinary], fun _ call => garble call, []⟩
  records := []
  printed := []

theorem garbledWorld_prints {call : List String} (hwords : call.any FilePath.hasNul = false) :
    Prints ⟨defaultBinary⟩ garbledWorld call (garble call) :=
  ⟨rfl, hwords, rfl⟩

theorem outcomes_of_bytes_garbled :
    let tool : ClusterTool := ⟨defaultBinary⟩
    let apply := (tool.apply "reviews.yaml" "bookinfo").exec garbledWorld
    let delete := (tool.delete "reviews.yaml" "bookinfo").exec garbledWorld
    let grant := (tool.rolePolicy .grant).exec garbledWorld
    (apply.1 = .ok true ∧ apply.2.warnings = []) ∧
    (delete.1 = .ok false ∧ delete.2.warnings = []) ∧
    (grant.1 = .ok false ∧ grant.2.warnings = [refusal .grant [0x80]]) := by
  intro tool apply delete grant
  obtain ⟨happly, hdelete, hgrant⟩ := outcomes_of_bytes tool garbledWorld
  have hpath : garbledWorld.files.canonical "reviews.yaml" = .ok "/reviews.yaml" := rfl
  refine ⟨?_, ?_, ?_⟩
  · obtain ⟨done, after, hexec, hdone, htold⟩ :=
      happly "reviews.yaml" "bookinfo" "/reviews.yaml" _ hpath
        (garbledWorld_prints (by decide))
    have hshows : done = true := hdone.mpr (by decide +kernel)
    subst hshows
    exact ⟨congrArg Prod.fst hexec, (congrArg (World.warnings ∘ Prod.snd) hexec).trans htold⟩
  · obtain ⟨done, after, hexec, hdone, htold⟩ :=
      hdelete "reviews.yaml" "bookinfo" "/reviews.yaml" _ hpath
        (garbledWorld_prints (by decide))
    have hshows : done = false := Bool.eq_false_iff.mpr (hdone.not.mpr (by decide +kernel))
    subst hshows
    exact ⟨congrArg Prod.fst hexec, (congrArg (World.warnings ∘ Prod.snd) hexec).trans htold⟩
  · obtain ⟨done, after, hexec, hdone, htold⟩ := hgrant .grant _ (garbledWorld_prints (by decide))
    have hshows : done = false := Bool.eq_false_iff.mpr (hdone.not.mpr (by decide +kernel))
    subst hshows
    exact ⟨congrArg Prod.fst hexec, (congrArg (World.warnings ∘ Prod.snd) hexec).trans htold⟩

end ClusterTool

end MeshProbe
