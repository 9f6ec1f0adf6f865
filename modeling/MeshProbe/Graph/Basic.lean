import MeshProbe.Text.Choice
/-!
The words of the service graph: its kinds, the badges its nodes can carry, and the query that
asks for it.
-/

namespace MeshProbe

inductive GraphKind
  | app
  | versionedApp
  | workload
  | service
  deriving DecidableEq, Repr

namespace GraphKind

def all : List GraphKind := [app, versionedApp, workload, service]

def name : GraphKind → String
  | app => "app"
  | versionedApp => "versionedApp"
  | workload => "workload"
  | service => "service"

def ofName (text : String) : Except UnknownName GraphKind := choose name all text

end GraphKind

/-- What the mesh's configuration makes of a node. -/
inductive Badge
  | circuitBreaker
  | virtualService
  deriving DecidableEq, Repr

namespace Badge

def all : List Badge := [circuitBreaker, virtualService]

def name : Badge → String
  | circuitBreaker => "hasCB"
  | virtualService => "hasVS"

def ofName (text : String) : Except UnknownName Badge := choose name all text

end Badge

/-- Which graph is asked for, and over which span of time. -/
structure GraphQuery where
  kind : GraphKind
  duration : String
  deriving DecidableEq, Repr

namespace GraphQuery

/-- The span that is asked for unless another is named. -/
def defaultDuration : String := "60s"

def ofKind (kind : GraphKind) : GraphQuery := ⟨kind, defaultDuration⟩

def parameters (q : GraphQuery) : List (String × String) :=
  [("graphType", q.kind.name), ("duration", q.duration)]

end GraphQuery

/-- What the number of nodes with a badge has to satisfy. -/
inductive BadgeCondition
  | atLeast (count : Nat)
  | atMost (count : Nat)
  deriving DecidableEq, Repr

namespace BadgeCondition

/-- A lower bound also asks for one node at least. -/
def holds : BadgeCondition → Nat → Bool
  | atLeast bound, count => count != 0 && bound ≤ count
  | atMost bound, count => count ≤ bound

def render : BadgeCondition → String
  | atLeast bound => "at least " ++ toString (max bound 1) ++ " node(s)"
  | atMost bound => "at most " ++ toString bound ++ " node(s)"

end BadgeCondition

end MeshProbe
