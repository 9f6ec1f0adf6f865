import MeshProbe.Api.Client
import MeshProbe.Proofs.Action
import MeshProbe.Proofs.Network
import Mathlib.Logic.Function.Iterate

/-!
What asking an operation comes to when the network is seen as a value: the
outcome, the time it takes and the network after it. Asking the same again and
again makes a script of answers that depends on the first network alone.
-/

namespace MeshProbe

/-- A world of a network alone, in which nothing has happened. -/
def World.ofReplies (reply : List Request → Request → Reply) : World where
  now := 0
  network := .ofReplies reply
  files := { entries := [], workingDirectory := [] }
  commands := { onPath := [], answer := fun _ _ => ⟨[], []⟩, calls := [] }
  records := []
  printed := []

namespace Client

/-- The answer to an operation, from what was sent for it. -/
def received (op : Operation) (address : Url) :
    Except NetworkError Answer → Except ApiError Response
  | .error e => .error (.request op address.render e)
  | .ok answer =>
    match answer.body.outcome with
    | .error e => .error (.readBody op e)
    | .ok body => .ok ⟨op, answer.status, body⟩

/-- How long the body of an answer takes, if there is an answer. -/
def bodyTime : Except NetworkError Answer → Nat
  | .error _ => 0
  | .ok answer => answer.body.after

/-- What asking an operation comes to: the outcome, how long it takes, and the
network after it. An operation without an address is not sent. -/
def exchange (client : Client) (op : Operation) (path query : List (String × String))
    (net : Network) : Except ApiError Response × Nat × Network :=
  match client.url op path with
  | .error e => (.error e, 0, net)
  | .ok address =>
    let sent := net.send (some client.timeout) (client.requestFor address query)
    (received op address sent.1, sent.2.1 + bodyTime sent.1, sent.2.2)

theorem exec_send (limit : Option Nat) (request : Request) (w : World) :
    (World.send limit request).exec w =
      ((w.network.send limit request).1,
        { w with
          network := (w.network.send limit request).2.2
          now := w.now + (w.network.send limit request).2.1 }) := rfl

theorem exec_read (answer : Answer) (w : World) :
    (World.read answer).exec w =
      (answer.body.outcome, { w with now := w.now + answer.body.after }) := rfl

/-- Asking an operation concerns the network and the time alone. -/
theorem exec_request (client : Client) (op : Operation) (path query : List (String × String))
    (w : World) :
    (client.request op path query).exec w =
      ((client.exchange op path query w.network).1,
        { w with
          network := (client.exchange op path query w.network).2.2
          now := w.now + (client.exchange op path query w.network).2.1 }) := by
  unfold request exchange
  cases haddress : client.url op path with
  | error e => exact Action.exec_bind_error _ (Action.exec_ofExcept _ w)
  | ok address =>
    refine (Action.exec_bind_ok _ (Action.exec_ofExcept _ w)).trans ?_
    rw [Action.exec_bind, Action.exec_mapError, exec_send]
    dsimp only
    generalize w.network.send (some client.timeout) (client.requestFor address query) = sent
    obtain ⟨outcome, spent, after⟩ := sent
    cases outcome with
    | error e => rfl
    | ok answer =>
      dsimp only [Except.mapError, received, bodyTime]
      rw [Action.exec_bind, Action.exec_mapError, exec_read]
      dsimp only
      rw [Nat.add_assoc]
      cases answer.body.outcome with
      | error e => rfl
      | ok body => rfl

theorem received_eq_ok_iff {op : Operation} {address : Url}
    {outcome : Except NetworkError Answer} {response : Response} :
    received op address outcome = .ok response ↔
      ∃ answer body, outcome = .ok answer ∧ answer.body.outcome = .ok body ∧
        response = ⟨op, answer.status, body⟩ := by
  unfold received
  cases outcome with
  | error e => simp
  | ok answer =>
    cases hbody : answer.body.outcome with
    | error e => simp [hbody]
    | ok body => simp [hbody, eq_comm (a := response)]

/-- The last of the requests that asking an operation comes to. -/
def LastAsked (client : Client) (op : Operation) (path query : List (String × String))
    (net : Network) (last : Hop) : Prop :=
  ∃ address, client.url op path = .ok address ∧
    net.Ends (some client.timeout) net.redirects
      (net.first (client.requestFor address query)) last

theorem LastAsked.unique {client : Client} {op : Operation} {path query : List (String × String)}
    {net : Network} {last other : Hop} (h : client.LastAsked op path query net last)
    (h' : client.LastAsked op path query net other) : other = last := by
  obtain ⟨address, haddress, hends⟩ := h
  obtain ⟨address', haddress', hends'⟩ := h'
  obtain rfl := Except.ok.inj (haddress.symm.trans haddress')
  exact hends.unique hends'

/-- What asking an operation comes to: the requests made, and a response exactly when the reply
to the last of them is complete. -/
theorem exchange_spec {client : Client} {op : Operation} {path : List (String × String)}
    {address : Url} (haddress : client.url op path = .ok address)
    (query : List (String × String)) (net : Network) :
    ∃ last, net.Ends (some client.timeout) net.redirects
        (net.first (client.requestFor address query)) last ∧
      (client.exchange op path query net).2.2 = net.afterMaking last ∧
      ∀ response, (client.exchange op path query net).1 = .ok response ↔
        ∃ status body, net.Complete (some client.timeout) last status body ∧
          response = ⟨op, status, body⟩ := by
  obtain ⟨last, hends, hafter, hanswer⟩ :=
    net.send_spec (some client.timeout) (client.requestFor address query)
  unfold exchange
  rw [haddress]
  refine ⟨last, hends, hafter, fun response => ?_⟩
  rw [received_eq_ok_iff]
  constructor
  · rintro ⟨answer, body, hsent, hbody, rfl⟩
    exact ⟨_, body, Network.exists_answeredBy_iff.mp
      ⟨answer, (hanswer answer).mp hsent, rfl, hbody⟩, rfl⟩
  · rintro ⟨status, body, hcomplete, rfl⟩
    obtain ⟨answer, hby, rfl, hbody⟩ := Network.exists_answeredBy_iff.mpr hcomplete
    exact ⟨answer, body, (hanswer answer).mpr hby, hbody, rfl⟩

section Again

variable (client : Client) (op : Operation) (path query : List (String × String))

/-- The network after an operation was asked so many times. -/
def networkAfter (net : Network) (n : Nat) : Network :=
  (fun net => (client.exchange op path query net).2.2)^[n] net

@[simp] theorem networkAfter_zero (net : Network) :
    client.networkAfter op path query net 0 = net := rfl

theorem networkAfter_succ (net : Network) (n : Nat) :
    client.networkAfter op path query net (n + 1) =
      (client.exchange op path query (client.networkAfter op path query net n)).2.2 :=
  Function.iterate_succ_apply' _ _ _

/-- The `n`th answer, from zero on, to an operation that is asked again and
again, behind the time that it takes. -/
def replies (net : Network) (n : Nat) : Nat × Except ApiError Response :=
  let exchanged := client.exchange op path query (client.networkAfter op path query net n)
  (exchanged.2.1, exchanged.1)

/-- An answer is had exactly when the reply to the last request made for it is complete. -/
theorem replies_eq_ok_iff (net : Network) (n : Nat) (response : Response) :
    (client.replies op path query net n).2 = .ok response ↔
      ∃ last status body,
        client.LastAsked op path query (client.networkAfter op path query net n) last ∧
        (client.networkAfter op path query net n).Complete (some client.timeout) last status
          body ∧
        response = ⟨op, status, body⟩ := by
  unfold replies
  dsimp only
  cases haddress : client.url op path with
  | error e =>
    rw [exchange, haddress]
    refine iff_of_false nofun ?_
    rintro ⟨last, status, body, ⟨address, hother, -⟩, -⟩
    exact nomatch haddress.symm.trans hother
  | ok address =>
    obtain ⟨last, hends, -, hresponse⟩ :=
      exchange_spec haddress query (client.networkAfter op path query net n)
    have hlast : client.LastAsked op path query (client.networkAfter op path query net n) last :=
      ⟨address, haddress, hends⟩
    rw [hresponse]
    constructor
    · rintro ⟨status, body, hcomplete, rfl⟩
      exact ⟨last, status, body, hlast, hcomplete, rfl⟩
    · rintro ⟨last', status, body, hlast', hcomplete, rfl⟩
      obtain rfl := hlast.unique hlast'
      exact ⟨status, body, hcomplete, rfl⟩

end Again

end Client

end MeshProbe
