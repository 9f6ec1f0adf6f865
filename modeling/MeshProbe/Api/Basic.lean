import MeshProbe.Api.Response
import MeshProbe.Graph.Basic
import MeshProbe.Log
/-!
An interface that operations are asked through, and what can be asked of any such interface:
a JSON value, a graph, the details of the objects of a namespace.
-/

namespace MeshProbe

/-- Asks an operation with parameters for its path and its query. -/
structure Api (σ : Type) where
  request : Operation → List (String × String) → List (String × String) →
    Action σ ApiError Response

namespace Api

variable {σ : Type}

/-- The JSON value of an operation that succeeds. -/
def getJson (api : Api σ) (op : Operation) (path query : List (String × String)) :
    Action σ ApiError Json.Value := do
  let response ← api.request op path query
  let response ← Action.ofExcept (response.expectStatus 200)
  Action.ofExcept response.json

def graph (api : Api σ) (space : String) (query : GraphQuery) : Action σ ApiError Json.Value :=
  api.getJson .graphNamespace [("namespace", space)] query.parameters

/-- The objects of a namespace that can be asked for by a name of their own. -/
inductive Lookup
  | serviceDetails (service : String)
  | appList
  | appDetails (app : String)
  | appHealth (app : String)
  | appMetrics (app : String)
  | workloadList
  | workloadDetails (workload : String)
  | workloadHealth (workload : String)
  | workloadMetrics (workload : String)
  | workloadValidations (workload : String)
  deriving DecidableEq, Repr

namespace Lookup

def operation : Lookup → Operation
  | serviceDetails _ => .serviceDetails
  | appList => .appList
  | appDetails _ => .appDetails
  | appHealth _ => .appHealth
  | appMetrics _ => .appMetrics
  | workloadList => .workloadList
  | workloadDetails _ => .workloadDetails
  | workloadHealth _ => .workloadHealth
  | workloadMetrics _ => .workloadMetrics
  | workloadValidations _ => .workloadValidations

/-- The parameters beside the namespace. -/
def parameters : Lookup → List (String × String)
  | serviceDetails service => [("service", service)]
  | appList | workloadList => []
  | appDetails app | appHealth app | appMetrics app => [("app", app)]
  | workloadDetails workload | workloadHealth workload | workloadMetrics workload
  | workloadValidations workload => [("workload", workload)]

end Lookup

def lookup (api : Api σ) (space : String) (what : Lookup) : Action σ ApiError Json.Value :=
  api.getJson what.operation (("namespace", space) :: what.parameters) []

end Api

end MeshProbe
