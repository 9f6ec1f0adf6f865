import MeshProbe.Api.Client
import MeshProbe.Cluster.Tool
import MeshProbe.Environment.Load
import MeshProbe.Failure
import MeshProbe.Graph.Wait
/-!
A session with the cluster under test. It keeps the names of the assets that were applied through
it and not deleted since, and when it is closed it tries to delete each of them.
-/

namespace MeshProbe

structure Session where
  environmentFile : String
  environment : Environment
  client : Client
  tool : ClusterTool
  /-- The directory of the assets. -/
  assets : String
  /-- The names of the tracked assets, each once, in the order in which they were applied. -/
  applied : List String
  deriving DecidableEq, Repr

namespace Session

/-- How long a badge may take to show after its manifest was applied. -/
def createTimeout : Nat := Span.ofSeconds 60

/-- How long it may take to go after its manifest was deleted. -/
def deleteTimeout : Nat := Span.ofSeconds 30

/-- Opens a session: reads the environment and prepares a client, without asking anybody. -/
def start [DomainNames] (environmentFile binary assets : String) :
    Action World Failure Session := do
  let environment ← (Environment.load environmentFile).mapError .library
  let client ← (Action.ofExcept (Client.ofEnvironment environment)).mapError .api
  return { environmentFile, environment, client, tool := ⟨binary⟩, assets, applied := [] }

def space (s : Session) : String := s.environment.meshNamespace

def assetPath (s : Session) (name : String) : String := FilePath.join s.assets name

/-- Keeps a name, behind the others if it is new. -/
def track (name : String) (s : Session) : Session :=
  if s.applied.contains name then s else { s with applied := s.applied ++ [name] }

def untrack (name : String) (s : Session) : Session :=
  { s with applied := s.applied.filter (· ≠ name) }

def current {ε : Type} : Action (Session × World) ε Session := ExceptT.mk do
  pure (.ok (← get).1)

def update {ε : Type} (f : Session → Session) : Action (Session × World) ε Unit :=
  Action.update fun (s, w) => (f s, w)

/-- A step that concerns the world alone. -/
def outside {ε α : Type} (action : Action World ε α) : Action (Session × World) ε α :=
  ExceptT.mk fun (s, w) =>
    let (outcome, w) := action.exec w
    (outcome, (s, w))

/-- Asks an operation and requires a status. -/
def call (op : Operation) (path query : List (String × String)) (expected : Nat) :
    Action (Session × World) Failure Response := do
  let s ← current
  let response ← outside ((s.client.request op path query).mapError .api)
  (Action.ofExcept (response.expectStatus expected)).mapError .api

/-- Asks an operation, requires a status and takes the body as JSON. -/
def evaluate (op : Operation) (path query : List (String × String)) (expected : Nat) :
    Action (Session × World) Failure Json.Value := do
  let response ← call op path query expected
  (Action.ofExcept response.json).mapError (.noJson op response.text)

def applyAsset (name : String) : Action (Session × World) Failure Unit := do
  let s ← current
  let done ← outside ((s.tool.apply (s.assetPath name) s.space).mapError .library)
  if !done then throw (.notApplied name s.space)
  update (track name)

def deleteAsset (name : String) : Action (Session × World) Failure Unit := do
  let s ← current
  update (untrack name)
  let done ← outside ((s.tool.delete (s.assetPath name) s.space).mapError .library)
  if !done then throw (.notDeleted name s.space)

/-- Deletes the manifests among some paths and counts them, whether or not there was anything
to delete. -/
def deleteManifests (tool : ClusterTool) (space : String) :
    List String → Action World Error Nat
  | [] => return 0
  | path :: rest => do
    if ← World.files? (fun files => Except.ok (files.isFile path)) then
      let _ ← tool.delete path space
      return (← deleteManifests tool space rest) + 1
    else deleteManifests tool space rest

/-- Deletes every manifest in the directory of the assets, applied or not, and counts them. -/
def removeAllAssets : Action (Session × World) Failure Nat := do
  let s ← current
  let paths ← outside ((World.files? (·.list s.assets)).mapError (.noListing s.assets))
  let count ← outside ((deleteManifests s.tool s.space paths).mapError .library)
  update fun s => { s with applied := [] }
  outside (Action.note ⟨.info, "selftest::session", "Assets deleted: " ++ toString count⟩)
  return count

/-- Waits for the count of a badge, as one step of a scenario. -/
def awaitBadge (query : GraphQuery) (badge : Badge) (condition : BadgeCondition) (w : Wait) :
    Action (Session × World) Failure Unit := do
  let s ← current
  let _ ← outside ((Graph.waitForBadges s.client.api s.space query badge condition w).mapError
    .wait)

/-- Checks that a graph is of the kind that was asked for. -/
def checkKind (space : String) (kind : GraphKind) (graph : Json.Value) : Except Failure Unit :=
  match (graph.get? "graphType").bind Json.Value.asString? with
  | none => .error (.noGraphKind space)
  | some found => if found = kind.name then .ok () else .error (.otherGraphKind kind found)

/-- How many nodes carry a badge before a scenario begins, provided that the graph is of the kind
asked for. -/
def baselineCount (query : GraphQuery) (badge : Badge) :
    Action (Session × World) Failure Nat := do
  let s ← current
  let graph ← outside ((s.client.api.graph s.space query).mapError .api)
  Action.ofExcept (checkKind s.space query.kind graph)
  let baseline ← outside ((Graph.badgeCount s.client.api s.space query badge).mapError .api)
  outside (Action.note ⟨.info, "selftest::session", "'" ++ s.space ++ "' has " ++
    toString baseline ++ " nodes with " ++ badge.name⟩)
  return baseline

/-- Applies an asset, waits for the badge to show on at least as many nodes as before, deletes
the asset and waits for the count to fall back. -/
def verifyBadgeLifecycle (query : GraphQuery) (asset : String) (badge : Badge) :
    Action (Session × World) Failure Unit := do
  let baseline ← baselineCount query badge
  applyAsset asset
  awaitBadge query badge (.atLeast baseline) ⟨"Create", createTimeout, Wait.defaultInterval⟩
  deleteAsset asset
  awaitBadge query badge (.atMost baseline) ⟨"Delete", deleteTimeout, Wait.defaultInterval⟩

/-- What closing a session complains of when a tracked asset stays. -/
def complaint (s : Session) (name : String) : Except Error Bool → Option String
  | .ok true => none
  | .ok false => some ("asset '" ++ name ++ "' was not deleted from '" ++ s.space ++ "'")
  | .error e => some ("unable to delete asset '" ++ name ++ "': " ++ e.message .full)

/-- Tries to delete some assets, one after the other: the complaints, and the world after it. -/
def deleteTracked (s : Session) : List String → World → List String × World
  | [], w => ([], w)
  | name :: rest, w =>
    let (outcome, w) := (s.tool.delete (s.assetPath name) s.space).exec w
    let (complaints, w) := deleteTracked s rest w
    ((s.complaint name outcome).toList ++ complaints, w)

/-- Closes a session: tries to delete every tracked asset. -/
def close (s : Session) (w : World) : List String × World :=
  s.deleteTracked s.applied w

end Session

end MeshProbe
