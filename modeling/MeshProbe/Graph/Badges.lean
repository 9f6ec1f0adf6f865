import MeshProbe.Api.Response
import MeshProbe.Graph.Basic
/-!
Reading a service graph: its nodes and edges, and how many nodes carry a badge.
-/

namespace MeshProbe.Graph

/-- A list among the elements of a graph. -/
def elements (graph : Json.Value) (kind : String) : Except ApiError (List Json.Value) :=
  match (graph.get? "elements" |>.bind (·.get? kind)).bind Json.Value.asArray? with
  | some items => .ok items
  | none => .error (.missingField .graphNamespace ("elements." ++ kind))

def nodes (graph : Json.Value) : Except ApiError (List Json.Value) := elements graph "nodes"

def edges (graph : Json.Value) : Except ApiError (List Json.Value) := elements graph "edges"

/-- Whether the data of a node holds a truthy value for the badge. -/
def carries (badge : Badge) (node : Json.Value) : Bool :=
  (((node.get? "data").bind (·.get? badge.name)).map Json.Value.isTruthy).getD false

def countBadges (graph : Json.Value) (badge : Badge) : Except ApiError Nat := do
  let nodes ← nodes graph
  return nodes.countP (carries badge)

end MeshProbe.Graph
