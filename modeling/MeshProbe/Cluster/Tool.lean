import MeshProbe.ClusterRole.Template
import MeshProbe.Error
import MeshProbe.Text.Search
import MeshProbe.World
/-!
The cluster's command line tool: applying and deleting manifests, and granting the console its
cluster role. Whether a command did its work is read off what it prints, not off how it ends.
-/

namespace MeshProbe

structure ClusterTool where
  binary : String
  deriving DecidableEq, Repr

namespace ClusterTool

def defaultBinary : String := "oc"

def mentions (words : String) (output : Bytes) : Bool :=
  Text.occurs words.toList (Utf8.decodeLossy output)

inductive ManifestVerb
  | apply
  | delete
  deriving DecidableEq, Repr

namespace ManifestVerb

def word : ManifestVerb → String
  | apply => "apply"
  | delete => "delete"

/-- What is told before the command runs. -/
def announcement (verb : ManifestVerb) (path space : String) : String :=
  match verb with
  | apply => "Applying '" ++ path ++ "' in '" ++ space ++ "'"
  | delete => "Deleting '" ++ path ++ "' from '" ++ space ++ "'"

/-- Whether the output reports that objects were changed. -/
def reported (verb : ManifestVerb) (output : Bytes) : Bool :=
  match verb with
  | apply => mentions "created" output || mentions "configured" output
  | delete => mentions "deleted" output

end ManifestVerb

/-- Where the records of the tool come from. -/
def source : String := "meshtest_model::oc"

def run (tool : ClusterTool) (arguments : List String) : Action World Error CommandOutput :=
  (World.runCommand tool.binary arguments).mapError (.toolStart tool.binary)

/-- Runs a verb on the manifest at a path: whether the tool reports success. -/
def manifest (tool : ClusterTool) (verb : ManifestVerb) (path space : String) :
    Action World Error Bool := do
  let absolute ← (World.files? (·.canonical path)).mapError (.manifestPath path)
  Action.note ⟨.info, source, verb.announcement absolute space⟩
  let output ← tool.run [verb.word, "-n", space, "-f", absolute]
  return verb.reported output.stdout

def apply (tool : ClusterTool) (path space : String) : Action World Error Bool :=
  tool.manifest .apply path space

def delete (tool : ClusterTool) (path space : String) : Action World Error Bool :=
  tool.manifest .delete path space

/-- The account that the console runs under, as the cluster writes it. -/
def serviceAccount : String := "system:serviceaccount:istio-system:" ++ Template.accountName

inductive RoleVerb
  | grant
  | revoke
  deriving DecidableEq, Repr

namespace RoleVerb

def word : RoleVerb → String
  | grant => "add-cluster-role-to-user"
  | revoke => "remove-cluster-role-from-user"

/-- What the tool prints on success. -/
def report (verb : RoleVerb) : String :=
  "cluster role \"" ++ Template.accountName ++ "\" " ++
    match verb with
    | grant => "added"
    | revoke => "removed"

end RoleVerb

/-- Grants the console's account its cluster role, or revokes it: whether the tool reports
success. -/
def rolePolicy (tool : ClusterTool) (verb : RoleVerb) : Action World Error Bool := do
  let output ← tool.run ["adm", "policy", verb.word, Template.accountName, serviceAccount]
  if mentions verb.report output.stdout then return true
  Action.note ⟨.warn, source, "'" ++ verb.word ++ " " ++ serviceAccount ++
    "' did not report success: " ++ Utf8.lossyString output.stderr⟩
  return false

end ClusterTool

end MeshProbe
