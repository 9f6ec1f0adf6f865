import MeshProbe.Api.Basic
import MeshProbe.Graph.Badges
import MeshProbe.Wait.Basic
/-!
Waiting for the graph of a namespace to show a badge on a number of nodes. Each attempt asks for
the graph once; an answer that is no graph ends the wait.
-/

namespace MeshProbe.Graph

variable {σ : Type}

/-- How many nodes of the namespace's graph carry the badge now. -/
def badgeCount (api : Api σ) (space : String) (query : GraphQuery) (badge : Badge) :
    Action σ ApiError Nat := do
  let graph ← api.graph space query
  Action.ofExcept (countBadges graph badge)

/-- What is told as such a wait begins. -/
def waitRecord (space : String) (query : GraphQuery) (badge : Badge) (condition : BadgeCondition)
    (w : Wait) : Record where
  level := .info
  source := "meshtest_model::graph"
  message := "Waiting up to " ++ Span.render w.timeout ++ " for " ++ badge.name ++ " on " ++
    condition.render ++ " in the " ++ query.kind.name ++ " graph of '" ++ space ++ "'"

/-- Waits until the count satisfies the condition, and answers with that count. -/
def waitForBadges [Clock σ] [Logbook σ] (api : Api σ) (space : String) (query : GraphQuery)
    (badge : Badge) (condition : BadgeCondition) (w : Wait) :
    Action σ (WaitError ApiError) Nat := do
  Action.note (waitRecord space query badge condition w)
  w.action (badgeCount api space query badge) condition.holds

end MeshProbe.Graph
