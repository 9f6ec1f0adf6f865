import MeshProbe.Environment
import MeshProbe.Yaml.Resolve
/-!
Reading an environment from YAML: a mapping with a key for each field, or a sequence of the
fields in order. Unknown keys are passed over, and all fields but two may be left out.
-/

namespace MeshProbe

namespace Environment

inductive Field
  | hostname
  | username
  | password
  | usesTls
  | verifiesTls
  | meshNamespace
  | istioRole
  | openshiftRole
  | kubernetesRole
  | timeoutSeconds
  deriving DecidableEq, Repr

namespace Field

def all : List Field :=
  [hostname, username, password, usesTls, verifiesTls, meshNamespace, istioRole, openshiftRole,
    kubernetesRole, timeoutSeconds]

def key : Field → String
  | hostname => "kiali_hostname"
  | username => "kiali_username"
  | password => "kiali_password"
  | usesTls => "kiali_ssl_enabled"
  | verifiesTls => "kiali_verify_tls"
  | meshNamespace => "mesh_bookinfo_namespace"
  | istioRole => "istio_clusterrole"
  | openshiftRole => "kiali_openshift_clusterrole"
  | kubernetesRole => "kiali_kubernetes_clusterrole"
  | timeoutSeconds => "request_timeout_secs"

def ofKey? (key : String) : Option Field := all.find? (·.key == key)

/-- What a field holds. -/
abbrev Content : Field → Type
  | hostname | meshNamespace => String
  | username | password | istioRole | openshiftRole | kubernetesRole => Option String
  | usesTls | verifiesTls => Bool
  | timeoutSeconds => Nat

/-- What a field holds when it is left out, if it may be. -/
def default? : (f : Field) → Option f.Content
  | hostname | meshNamespace => none
  | username | password | istioRole | openshiftRole | kubernetesRole => some none
  | usesTls | verifiesTls => some false
  | timeoutSeconds => some defaultTimeoutSeconds

end Field

/-- The fields that have been read so far. -/
def Draft : Type := (f : Field) → Option f.Content

namespace Draft

def empty : Draft := fun _ => none

def put (d : Draft) (f : Field) (x : f.Content) : Draft := fun g =>
  if h : f = g then some (h ▸ x) else d g

/-- A field that was read, or else its default. -/
def content? (d : Draft) (f : Field) : Option f.Content :=
  (d f).or f.default?

/-- The environment of the fields; the first field that is wanted and missing else. -/
def finish (d : Draft) : Except Field Environment :=
  match d.content? .hostname with
  | none => .error .hostname
  | some hostname =>
    match d.content? .meshNamespace with
    | none => .error .meshNamespace
    | some meshNamespace =>
      .ok {
        hostname
        username := (d.content? .username).getD none
        password := (d.content? .password).getD none
        usesTls := (d.content? .usesTls).getD false
        verifiesTls := (d.content? .verifiesTls).getD false
        meshNamespace
        istioRole := (d.content? .istioRole).getD none
        openshiftRole := (d.content? .openshiftRole).getD none
        kubernetesRole := (d.content? .kubernetesRole).getD none
        timeoutSeconds := (d.content? .timeoutSeconds).getD defaultTimeoutSeconds }

end Draft

/-- What a message calls the whole. -/
def expectedWhole : String := "struct EnvironmentConfig"

/-! ### Reading one value -/

section

open Yaml

/-- The node an alias stands for, and the place it is read at. -/
def follow (anchored : List (Nat × Node)) (path : Path) (node : Node) : Path × Node :=
  match node with
  | .alias n => (.target path, (anchored.lookup n).getD Node.missing)
  | node => (path, node)

def wrong (path : Path) (found : Found) (expected : String) : Except Yaml.Error α :=
  .error (.problem path (.wrongType found expected))

def atPath (path : Path) : Except Problem α → Except Yaml.Error α
  | .ok a => .ok a
  | .error p => .error (.problem path p)

/-- Any scalar is text. -/
def readText (expected : String) (path : Path) : Node → Except Yaml.Error String
  | .scalar _ _ text => .ok text
  | .sequence _ | .alias _ => wrong path .sequence expected
  | .mapping _ => wrong path .mapping expected

def readOption (path : Path) (node : Node) : Except Yaml.Error (Option String) := do
  match node with
  | .scalar isPlain tag text =>
    if ← atPath path (saysNone isPlain tag text) then return none else return some text
  | node => return some (← readText "a string" path node)

/-- A scalar of some kind. -/
def readScalar (expected : String) (pick : Scalar → Except Problem α) (path : Path) :
    Node → Except Yaml.Error α
  | .scalar isPlain tag text => atPath path (resolve isPlain tag text >>= pick)
  | .sequence _ | .alias _ => wrong path .sequence expected
  | .mapping _ => wrong path .mapping expected

def pickFlag : Scalar → Except Problem Bool
  | .bool b => .ok b
  | s => .error (.wrongType s.found "a boolean")

def pickCount : Scalar → Except Problem Nat
  | .integer n => if 0 ≤ n then .ok n.toNat else .error (.wrongValue (.integer n) "u64")
  | s => .error (.wrongType s.found "u64")

/-- The value of a field at a place. -/
def Field.read (anchored : List (Nat × Node)) (path : Path) (node : Node) :
    (f : Field) → Except Yaml.Error f.Content :=
  let (path, node) := follow anchored path node
  fun
  | .hostname | .meshNamespace => readText "a string" path node
  | .username | .password | .istioRole | .openshiftRole | .kubernetesRole => readOption path node
  | .usesTls | .verifiesTls => readScalar "a boolean" pickFlag path node
  | .timeoutSeconds => readScalar "u64" pickCount path node

/-! ### Reading the whole -/

/-- The place of an entry's value. -/
def entryPath (key : Node) : Path :=
  match key with
  | .scalar _ _ text => .entry .root text
  | _ => .unnamed .root

def readEntry (anchored : List (Nat × Node)) (d : Draft) (entry : Node × Node) :
    Except Yaml.Error Draft := do
  let (keyPath, keyNode) := follow anchored .root entry.1
  let key ← readText "field identifier" keyPath keyNode
  match Field.ofKey? key with
  | none => return d
  | some f =>
    if (d f).isSome then throw (.problem .root (.duplicateField f.key))
    let x ← f.read anchored (entryPath entry.1) entry.2
    return d.put f x

def readMapping (anchored : List (Nat × Node)) (entries : List (Node × Node)) :
    Except Yaml.Error Environment := do
  let d ← entries.foldlM (readEntry anchored) Draft.empty
  match d.finish with
  | .ok env => return env
  | .error f => throw (.problem .root (.missingField f.key))

def readItem (anchored : List (Nat × Node)) (d : Draft) (item : Node × Nat × Field) :
    Except Yaml.Error Draft := do
  let (node, index, f) := item
  let x ← f.read anchored (.item .root index) node
  return d.put f x

/-- A sequence names the fields by their order; those at its end may be left out. -/
def readSequence (anchored : List (Nat × Node)) (items : List Node) :
    Except Yaml.Error Environment := do
  let count := Field.all.length
  let numbered := items.zip ((List.range count).zip Field.all)
  let d ← numbered.foldlM (readItem anchored) Draft.empty
  match d.finish with
  | .error f =>
    throw (.problem .root (.wrongLength (Field.all.idxOf f)
      (expectedWhole ++ " with " ++ toString count ++ " elements")))
  | .ok env =>
    if count < items.length then
      throw (.problem .root (.wrongLength items.length
        ("sequence of " ++ toString count ++ " elements")))
    return env

def ofNode (anchored : List (Nat × Node)) : Node → Except Yaml.Error Environment
  | .mapping entries => readMapping anchored entries
  | .sequence items => readSequence anchored items
  | .scalar isPlain tag text => do
    let s ← atPath .root (resolve isPlain tag text)
    wrong .root s.found expectedWhole
  | .alias _ => wrong .root .sequence expectedWhole

/-- Reads an environment from a text with exactly one document. -/
def parse (text : String) : Except Yaml.Error Environment := do
  match Stream.parse? text with
  | none => throw .badSyntax
  | some stream =>
    match stream.documents with
    | [] => throw .noDocument
    | node :: others =>
      let env ← ofNode stream.anchored node
      if others.isEmpty then return env else throw .manyDocuments

end

end Environment

end MeshProbe
