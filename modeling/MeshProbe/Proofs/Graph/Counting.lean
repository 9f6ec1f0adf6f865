import MeshProbe.Api.Response
import MeshProbe.Graph.Badges
import Mathlib.Tactic

/-!
What counting badges makes of an answer. Which nodes carry a badge, and which
answers are graphs at all, is said here without the functions that decide it;
the lemmas show that those functions decide exactly that.
-/

namespace MeshProbe.Graph

/-- The values that do not count as true. A number is zero whatever its sign. -/
inductive Falsy : Json.Value → Prop
  | null : Falsy .null
  | false : Falsy (.bool false)
  | integer : Falsy (.number (.integer 0))
  | real (negative : Bool) (exponent : Int) :
      Falsy (.number (.real ⟨negative, 0, exponent⟩))
  | string : Falsy (.string "")
  | array : Falsy (.array [])
  | object : Falsy (.object [])

theorem isTruthy_eq_false_iff (v : Json.Value) : v.isTruthy = false ↔ Falsy v := by
  constructor
  · intro h
    cases v with
    | null => exact .null
    | bool b =>
      have hb : b = Bool.false := h
      subst hb
      exact .false
    | number n =>
      have hzero : n.isZero = true := by simpa [Json.Value.isTruthy] using h
      cases n with
      | integer n =>
        have hn : n = 0 := by simpa [Json.Number.isZero] using hzero
        subst hn
        exact .integer
      | real x =>
        obtain ⟨negative, significand, exponent⟩ := x
        have hsignificand : significand = 0 := by
          simpa [Json.Number.isZero, Binary64.isZero] using hzero
        subst hsignificand
        exact .real negative exponent
    | string s =>
      have hs : s = "" := by simpa [Json.Value.isTruthy] using h
      subst hs
      exact .string
    | array items =>
      have hitems : items = [] := by simpa [Json.Value.isTruthy] using h
      subst hitems
      exact .array
    | object fields =>
      have hfields : fields = [] := by simpa [Json.Value.isTruthy] using h
      subst hfields
      exact .object
  · intro h
    cases h <;> rfl

/-- The data of a node is an object that holds a truthy value under the badge's
name. -/
def Carries (badge : Badge) (node : Json.Value) : Prop :=
  ∃ fields value, node.get? "data" = some (.object fields) ∧
    fields.lookup badge.name = some value ∧ ¬ Falsy value

/-- Only an object has fields. -/
theorem get?_eq_some_iff (v : Json.Value) (key : String) (x : Json.Value) :
    v.get? key = some x ↔ ∃ fields, v = .object fields ∧ fields.lookup key = some x := by
  cases v <;> simp [Json.Value.get?]

theorem carries_iff (badge : Badge) (node : Json.Value) :
    carries badge node = true ↔ Carries badge node := by
  unfold carries Carries
  constructor
  · intro h
    cases hvalue : (node.get? "data").bind (·.get? badge.name) with
    | none => simp [hvalue] at h
    | some value =>
      rw [hvalue] at h
      have htruthy : value.isTruthy = true := h
      obtain ⟨data, hdata, hfield⟩ := Option.bind_eq_some_iff.mp hvalue
      obtain ⟨fields, rfl, hlookup⟩ := (get?_eq_some_iff data badge.name value).mp hfield
      refine ⟨fields, value, hdata, hlookup, fun hfalsy => ?_⟩
      rw [← isTruthy_eq_false_iff, htruthy] at hfalsy
      cases hfalsy
  · rintro ⟨fields, value, hdata, hlookup, htruthy⟩
    rw [← isTruthy_eq_false_iff] at htruthy
    have hfield : (Json.Value.object fields).get? badge.name = some value := hlookup
    rw [hdata, Option.bind_some, hfield]
    exact Bool.of_not_eq_false htruthy

instance (badge : Badge) (node : Json.Value) : Decidable (Carries badge node) :=
  decidable_of_iff _ (carries_iff badge node)

/-- The nodes of a graph are the items of the array that it has there. -/
theorem nodes_eq_ok_iff (graph : Json.Value) (items : List Json.Value) :
    nodes graph = .ok items ↔
      ∃ elements, graph.get? "elements" = some elements ∧
        elements.get? "nodes" = some (.array items) := by
  unfold nodes elements
  cases helements : graph.get? "elements" with
  | none => simp
  | some found =>
    cases hnodes : found.get? "nodes" with
    | none => simp [hnodes]
    | some value => cases value <;> simp [hnodes, Json.Value.asArray?]

theorem nodes_eq_error_iff (graph : Json.Value) (e : ApiError) :
    nodes graph = .error e ↔ e = .missingField .graphNamespace "elements.nodes" ∧
      ∀ items, nodes graph ≠ .ok items := by
  have hmessage : "elements." ++ "nodes" = "elements.nodes" := by decide
  unfold nodes elements
  rw [hmessage]
  split
  · simp
  · simp [eq_comm]

/-- What an outcome of a request comes to as a count of a badge. -/
def countOf (badge : Badge) (outcome : Except ApiError Response) : Except ApiError Nat := do
  let response ← outcome
  let response ← response.expectStatus 200
  let graph ← response.json
  countBadges graph badge

/-- The outcome is a graph in which `count` nodes carry the badge: an answer of
status 200 whose body is a value with an array of nodes among its elements. -/
def IsGraph (badge : Badge) (outcome : Except ApiError Response) (count : Nat) : Prop :=
  ∃ response graph elements items, outcome = .ok response ∧ response.status = 200 ∧
    Json.parse response.body = .ok graph ∧
    graph.get? "elements" = some elements ∧
    elements.get? "nodes" = some (.array items) ∧
    items.countP (fun node => decide (Carries badge node)) = count

/-- Why an outcome is no graph: the request's own error, another status, a body
that is no text of a value, or no array of nodes. -/
inductive Refuses : Except ApiError Response → ApiError → Prop
  | request (e : ApiError) : Refuses (.error e) e
  | status (r : Response) : r.status ≠ 200 →
      Refuses (.ok r) (.unexpectedStatus r.operation 200 r.status r.text)
  | body (r : Response) (e : Json.Error) : r.status = 200 → Json.parse r.body = .error e →
      Refuses (.ok r) (.notJson r.operation e)
  | nodes (r : Response) (graph : Json.Value) : r.status = 200 →
      Json.parse r.body = .ok graph →
      (∀ elements items, graph.get? "elements" = some elements →
        elements.get? "nodes" ≠ some (.array items)) →
      Refuses (.ok r) (.missingField .graphNamespace "elements.nodes")

theorem countOf_ok (badge : Badge) (r : Response) :
    countOf badge (.ok r) =
      if r.status = 200 then
        match Json.parse r.body with
        | .ok graph => countBadges graph badge
        | .error e => .error (.notJson r.operation e)
      else .error (.unexpectedStatus r.operation 200 r.status r.text) := by
  change (r.expectStatus 200 >>= fun r => r.json >>= fun graph => countBadges graph badge) = _
  unfold Response.expectStatus
  split_ifs with hstatus
  · change (r.json >>= fun graph => countBadges graph badge) = _
    unfold Response.json
    cases Json.parse r.body <;> rfl
  · rfl

theorem countBadges_eq_ok_iff (graph : Json.Value) (badge : Badge) (count : Nat) :
    countBadges graph badge = .ok count ↔ ∃ items, nodes graph = .ok items ∧
      items.countP (fun node => decide (Carries badge node)) = count := by
  have hcount (items : List Json.Value) :
      items.countP (carries badge) =
        items.countP (fun node => decide (Carries badge node)) := by
    apply List.countP_congr
    intro node _
    rw [carries_iff, decide_eq_true_iff]
  unfold countBadges
  cases nodes graph with
  | error e => simp [bind, Except.bind]
  | ok items => simp [bind, Except.bind, pure, Except.pure, hcount]

theorem countBadges_eq_error_iff (graph : Json.Value) (badge : Badge) (e : ApiError) :
    countBadges graph badge = .error e ↔ nodes graph = .error e := by
  unfold countBadges
  cases nodes graph with
  | error e => simp [bind, Except.bind]
  | ok items => simp [bind, Except.bind, pure, Except.pure]

/-- A count comes of the graphs and of nothing else, and it is their own. -/
theorem countOf_eq_ok_iff (badge : Badge) (outcome : Except ApiError Response)
    (count : Nat) : countOf badge outcome = .ok count ↔ IsGraph badge outcome count := by
  cases outcome with
  | error e =>
    constructor
    · intro h
      cases h
    · rintro ⟨r, graph, elements, items, hresponse, -⟩
      cases hresponse
  | ok r =>
    rw [countOf_ok]
    constructor
    · intro h
      split_ifs at h with hstatus
      cases hparse : Json.parse r.body with
      | error e => simp [hparse] at h
      | ok graph =>
        rw [hparse] at h
        obtain ⟨items, hitems, hcount⟩ := (countBadges_eq_ok_iff graph badge count).mp h
        obtain ⟨elements, helements, hnodes⟩ := (nodes_eq_ok_iff graph items).mp hitems
        exact ⟨r, graph, elements, items, rfl, hstatus, hparse, helements, hnodes, hcount⟩
    · rintro ⟨r', graph, elements, items, hresponse, hstatus, hparse, helements, hnodes,
        hcount⟩
      cases hresponse
      rw [if_pos hstatus, hparse]
      exact (countBadges_eq_ok_iff graph badge count).mpr
        ⟨items, (nodes_eq_ok_iff graph items).mpr ⟨elements, helements, hnodes⟩, hcount⟩

/-- Every other outcome is refused, and the error says why. -/
theorem countOf_eq_error_iff (badge : Badge) (outcome : Except ApiError Response)
    (e : ApiError) : countOf badge outcome = .error e ↔ Refuses outcome e := by
  constructor
  · intro h
    cases outcome with
    | error e' =>
      cases h
      exact .request e
    | ok r =>
      rw [countOf_ok] at h
      split_ifs at h with hstatus
      · cases hparse : Json.parse r.body with
        | error e' =>
          rw [hparse] at h
          cases h
          exact .body r e' hstatus hparse
        | ok graph =>
          rw [hparse] at h
          have hnodes := (countBadges_eq_error_iff graph badge e).mp h
          obtain ⟨rfl, hnone⟩ := (nodes_eq_error_iff graph e).mp hnodes
          refine .nodes r graph hstatus hparse fun elements items helements hitems => ?_
          exact hnone items
            ((nodes_eq_ok_iff graph items).mpr ⟨elements, helements, hitems⟩)
      · cases h
        exact .status r hstatus
  · intro h
    cases h with
    | request e => rfl
    | status r hstatus => rw [countOf_ok, if_neg hstatus]
    | body r e' hstatus hparse => rw [countOf_ok, if_pos hstatus, hparse]
    | nodes r graph hstatus hparse hnone =>
      rw [countOf_ok, if_pos hstatus, hparse]
      apply (countBadges_eq_error_iff graph badge _).mpr
      refine (nodes_eq_error_iff graph _).mpr ⟨rfl, fun items hitems => ?_⟩
      obtain ⟨elements, helements, hfound⟩ := (nodes_eq_ok_iff graph items).mp hitems
      exact hnone elements items helements hfound

end MeshProbe.Graph
