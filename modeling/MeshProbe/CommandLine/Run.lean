import MeshProbe.Api.Client
import MeshProbe.CommandLine.Arguments
import MeshProbe.Environment.Load
import MeshProbe.Failure
import MeshProbe.Graph.Wait
/-!
What the commands do. A command that needs the environment reads it before all else; what a
command prints tells of work that is done.
-/

namespace MeshProbe.CommandLine

open Command

def environment (file : String) : Action World Failure Environment :=
  (Environment.load file).mapError (.noEnvironment file)

/-- The width of the column of the names. -/
def nameWidth : Nat := 28

def methodLine (namesOnly : Bool) (op : Operation) : String :=
  if namesOnly then op.name
  else
    let gap := String.ofList (List.replicate (nameWidth - op.name.length) ' ')
    op.name ++ gap ++ " " ++ op.httpMethod ++ " " ++ op.templateText

def runMethods (namesOnly : Bool) : Action World Failure Unit :=
  Operation.all.forM fun op => World.print (methodLine namesOnly op)

/-- The codes that are a status. -/
def isStatus (code : Nat) : Bool := 100 ≤ code && code ≤ 999

/-- Asks an operation once, requires the status and prints the JSON of the body. -/
def runCall [DomainNames] (env : Environment) (op : Operation) (path query : List (String × String))
    (expected : Nat) : Action World Failure Unit := do
  if !isStatus expected then throw (.noStatus expected)
  let client ← (Action.ofExcept (Client.ofEnvironment env)).mapError .noClient
  let response ← (client.request op path query).mapError (.noCall op)
  let response ← (Action.ofExcept (response.expectStatus expected)).mapError .api
  let body ← (Action.ofExcept response.json).mapError .api
  World.print body.renderIndented

def runApply (tool : ClusterTool) (file space : String) : Action World Failure Unit := do
  let done ← (tool.apply file space).mapError .library
  if !done then throw (.notApplied file space)
  World.print ("Applied '" ++ file ++ "' to '" ++ space ++ "'.")

def runDelete (tool : ClusterTool) (file space : String) : Action World Failure Unit := do
  let done ← (tool.delete file space).mapError .library
  if !done then throw (.notDeleted file space)
  World.print ("Deleted '" ++ file ++ "' from '" ++ space ++ "'.")

/-- The wait as one for a graph. -/
def BadgeWait.wait (w : BadgeWait) : Wait where
  description := w.badge.name ++ " on " ++ w.condition.render
  timeout := Span.ofSeconds w.timeout
  interval := Span.ofSeconds w.interval

def runWaitBadge [DomainNames] (env : Environment) (w : BadgeWait) :
    Action World Failure Unit := do
  let client ← (Action.ofExcept (Client.ofEnvironment env)).mapError .noClient
  let space := w.space.getD env.meshNamespace
  let count ← (Graph.waitForBadges client.api space (.ofKind w.kind) w.badge w.condition
    w.wait).mapError .wait
  World.print (toString count ++ " nodes of '" ++ space ++ "' carry " ++ w.badge.name ++ ".")

/-- Deletes the manifests among some paths one after the other, tells of those that the tool
reports, and counts them all. -/
def cleanPaths (tool : ClusterTool) (space : String) :
    List String → Nat → Action World Failure Nat
  | [], count => return count
  | path :: rest, count => do
    if ← World.files? (fun files => Except.ok (files.isFile path)) then
      if ← (tool.delete path space).mapError .library then
        World.print ("Deleted '" ++ path ++ "'.")
      cleanPaths tool space rest (count + 1)
    else cleanPaths tool space rest count

def runCleanup (tool : ClusterTool) (space assets : String) : Action World Failure Unit := do
  let paths ← (World.files? (·.list assets)).mapError (.noListing assets)
  let count ← cleanPaths tool space paths 0
  World.print ("Assets deleted: " ++ toString count)

def Arguments.run [DomainNames] (a : Arguments) : Action World Failure Unit :=
  match a.command with
  | methods namesOnly => runMethods namesOnly
  | call op path query expected => do
    runCall (← environment a.environmentFile) op path query expected
  | apply file space => do
    let env ← environment a.environmentFile
    runApply a.tool file (space.getD env.meshNamespace)
  | delete file space => do
    let env ← environment a.environmentFile
    runDelete a.tool file (space.getD env.meshNamespace)
  | waitBadge w => do runWaitBadge (← environment a.environmentFile) w
  | cleanup assets => do
    let env ← environment a.environmentFile
    runCleanup a.tool env.meshNamespace assets

end MeshProbe.CommandLine
