import MeshProbe.Proofs.Api.Address
import MeshProbe.Proofs.Api.Exchange
import MeshProbe.Proofs.Text.Base64
import MeshProbe.Proofs.Text.Form

/-!
What a client sends for an operation, and what it takes for an answer. Nothing is
sent when a value for the path is missing; otherwise it is a request for the
operation's address with the pairs added to the query. A complete reply comes back
as it is, unless it leads to another address: then it is followed there, and what
comes back is what is found in the end.
-/

namespace MeshProbe

/-! ### The query of a request -/

namespace Url

/-- The pairs of an address's query, read as a form. -/
def queryPairs (u : Url) : List (String × String) :=
  (u.query.map Form.decodePairs).getD []

/-- Adding pairs changes nothing but the query. -/
theorem appendQuery_eq (u : Url) (pairs : List (String × String)) :
    u.appendQuery pairs = { u with query := (u.appendQuery pairs).query } := by
  unfold appendQuery
  split
  · rfl
  · simp only
    split <;> rfl

/-- Added pairs are read behind those that the query has. -/
theorem queryPairs_appendQuery (u : Url) (pairs : List (String × String)) :
    (u.appendQuery pairs).queryPairs = u.queryPairs ++ pairs := by
  cases pairs with
  | nil => exact (List.append_nil _).symm
  | cons pair rest =>
    have hread := Form.decodePairs_encodePairs (pair :: rest)
    unfold queryPairs appendQuery
    simp only
    split
    · next hnone =>
      rw [hnone]
      exact hread
    · next hempty =>
      rw [hempty]
      exact hread
    · next q _ hquery =>
      rw [hquery]
      exact (Form.decodePairs_append q _).trans (congrArg _ hread)

end Url

namespace Client

variable {env : Environment} {client : Client} {op : Operation}
  {path query : List (String × String)} {address : Url}

/-- An operation has an address when every placeholder of its path has a value. -/
theorem exists_url_iff :
    (∃ address, client.url op path = .ok address) ↔
      ∀ name ∈ op.pathParameters, (path.lookup name).isSome := by
  simp only [Operation.mem_pathParameters, ← Operation.exists_fills_iff, url_eq_ok_iff,
    Operation.pathSegments_eq_ok_iff]
  constructor
  · rintro ⟨_, values, hvalues, -⟩
    exact ⟨values, hvalues⟩
  · rintro ⟨values, hvalues⟩
    exact ⟨_, values, hvalues, rfl⟩

/-- Otherwise it is a value that is missing. -/
theorem missing_of_url_error {e : ApiError} (h : client.url op path = .error e) :
    ∃ missing, e = .missingParameter missing := by
  obtain ⟨name, -, rfl⟩ := url_error_iff.mp h
  exact ⟨_, rfl⟩

/-- A request names its address without user information and fragment, with the pairs added. -/
theorem target_requestFor (client : Client) (address : Url) (query : List (String × String)) :
    (client.requestFor address query).target = (address.appendQuery query).target := by
  unfold requestFor Request.target
  simp only
  split_ifs
  · rfl
  · rfl

/-! ### What a request says -/

/-- The credentials that an environment has its requests present: a name and a password, which
may be missing, if it has a name, and else none. -/
def Presents (env : Environment) (headers : List String) : Prop :=
  match env.username with
  | none => headers = []
  | some name =>
    let credentials := Utf8.encodeString (name ++ ":" ++ env.password.getD "")
    ∃ digits, headers = ["Basic " ++ String.ofList digits] ∧
      digits = Base64.encode credentials ∧ Base64.decode? digits = some credentials

/-- What a request for an address says when pairs are to be added to its query. -/
structure Conveys (env : Environment) (base address : Url) (query : List (String × String))
    (request : Request) : Prop where
  /-- But for the query it names the address, without user information and fragment. -/
  target : { request.target with query := none } =
    { address.withoutUserInfo with query := none, fragment := none }
  /-- Its query reads as the pairs of the client's own address and then the ones to be added. -/
  pairs : request.target.queryPairs = base.queryPairs ++ query
  /-- Without pairs to be added the query is left alone, be there one or not. -/
  unchanged : query = [] → request.target.query = base.query
  /-- If the client's own address has no user information, what is presented are the
  environment's credentials. -/
  authorization : base.withoutUserInfo = base → Presents env request.authorization

theorem addressAuthorization_of_plain {u : Url} (h : u.withoutUserInfo = u) :
    addressAuthorization u = [] := by
  have hname : u.username = [] := by rw [← h]; rfl
  have hpassword : u.password = none := by rw [← h]; rfl
  have hnone : u.credentials? = none := by
    unfold Url.credentials?
    rw [hname, hpassword]
    rfl
  rw [addressAuthorization, hnone]

/-- A client has the credentials of the environment that it was made for. -/
theorem ownAuthorization_presents [DomainNames]
    (hclient : Client.ofEnvironment env = .ok client) :
    Presents env client.ownAuthorization := by
  obtain ⟨hname, hpassword⟩ : client.username = env.username ∧ client.password = env.password := by
    unfold Client.ofEnvironment at hclient
    simp only at hclient
    cases hparse : Url.parse env.baseAddress with
    | error e => simp [hparse] at hclient
    | ok base =>
      rw [hparse] at hclient
      rw [← Except.ok.inj hclient]
      exact ⟨rfl, rfl⟩
  unfold Presents ownAuthorization
  rw [hname, hpassword]
  cases env.username with
  | none => rfl
  | some name =>
    have hbytes : Utf8.encode (name.toList ++ ':' :: (env.password.map String.toList).getD []) =
        Utf8.encodeString (name ++ ":" ++ env.password.getD "") := by
      rw [Utf8.encodeString, String.toList_append, String.toList_append]
      cases env.password with
      | none => simp
      | some password => simp
    exact ⟨_, congrArg (fun bytes => ["Basic " ++ String.ofList (Base64.encode bytes)]) hbytes, rfl,
      Base64.decode?_encode _⟩

theorem requestFor_conveys [DomainNames] (hclient : Client.ofEnvironment env = .ok client)
    (haddress : client.url op path = .ok address) (query : List (String × String)) :
    Conveys env client.base address query (client.requestFor address query) := by
  obtain ⟨values, -, hextended⟩ := url_eq_ok_iff.mp haddress
  have hquery : address.query = client.base.query := by rw [hextended]; rfl
  have htarget := target_requestFor client address query
  refine ⟨?_, ?_, ?_, ?_⟩
  · rw [htarget, Url.appendQuery_eq]
    rfl
  · have hpairs : address.queryPairs = client.base.queryPairs := by
      rw [Url.queryPairs, hquery]
      rfl
    rw [htarget, ← hpairs, ← Url.queryPairs_appendQuery]
    rfl
  · rintro rfl
    rw [htarget]
    exact hquery
  · intro hbase
    have hplain : address.withoutUserInfo = address := by
      rw [hextended]
      exact congrArg (Url.extendPath · (values.map String.toList)) hbase
    have hown : (client.requestFor address query).authorization = client.ownAuthorization := by
      change addressAuthorization address ++ client.ownAuthorization = _
      rw [addressAuthorization_of_plain hplain, List.nil_append]
    rw [hown]
    exact ownAuthorization_presents hclient

/-! ### What becomes of it -/

/-- An operation is asked for. Nothing is sent exactly when a name of the template has no value,
and then nothing else happens either. Otherwise the first request made reads, names the
operation's address with the pairs added and presents the environment's credentials. It is the
only one exactly if the reply to it leads to no other address, or no reply may; if it leads to
none, a response is had exactly when that reply is complete, with its status and its bytes. In
general a response is had exactly when the reply to the last request made is complete, with the
status and the bytes of that one; the last request reads as well, and presents nothing to another
server than the first. -/
theorem request_spec [DomainNames] {w : World} (hclient : Client.ofEnvironment env = .ok client)
    (op : Operation) (path query : List (String × String)) :
    let run := (client.request op path query).exec w
    let net := w.network
    let limit := some client.timeout
    ((∃ e, run.1 = .error e ∧ run.2.network.requests = net.requests) ↔
      ∃ name ∈ op.pathParameters, path.lookup name = none) ∧
    ((∃ name ∈ op.pathParameters, path.lookup name = none) →
      ∃ missing, run = (.error (.missingParameter missing), w)) ∧
    ((∀ name ∈ op.pathParameters, path.lookup name ≠ none) →
      ∃ address request last, client.url op path = .ok address ∧
        request.method = op.httpMethod ∧ op.httpMethod = "GET" ∧
        Conveys env client.base address query request ∧
        (run.2.network.requests = request :: net.requests ↔
          net.redirects = 0 ∨ ∀ next, ¬ net.LeadsTo limit (net.first request) next) ∧
        ((∀ next, ¬ net.LeadsTo limit (net.first request) next) →
          ∀ response, run.1 = .ok response ↔ ∃ status body,
            net.Complete limit (net.first request) status body ∧
            response = ⟨op, status, body⟩) ∧
        net.Ends limit net.redirects (net.first request) last ∧
        run.2.network = { net with requests := last.request :: last.before } ∧
        (∀ response, run.1 = .ok response ↔ ∃ status body,
          net.Complete limit last status body ∧ response = ⟨op, status, body⟩) ∧
        last.request.method = "GET" ∧
        (last.request.authorization = [] ∨
          last.request.authorization = request.authorization ∧
            last.request.SameServer request)) := by
  intro run net limit
  have hrun : run = _ := exec_request client op path query w
  have hlacks : (∃ name ∈ op.pathParameters, path.lookup name = none) ↔
      ¬ ∃ address, client.url op path = .ok address := by
    rw [exists_url_iff]
    simp only [not_forall, Option.not_isSome_iff_eq_none, exists_prop]
  cases haddress : client.url op path with
  | error e =>
    have hnone : ∃ name ∈ op.pathParameters, path.lookup name = none := by
      rw [hlacks, haddress]
      exact nofun
    obtain ⟨missing, rfl⟩ := missing_of_url_error haddress
    have hfails : run = (.error (.missingParameter missing), w) := by
      rw [hrun]
      simp only [exchange, haddress]
      rfl
    refine ⟨iff_of_true ⟨_, congrArg (·.1) hfails, by rw [hfails]⟩ hnone, fun _ => ⟨_, hfails⟩, ?_⟩
    intro hall
    obtain ⟨name, hname, hvalue⟩ := hnone
    exact absurd hvalue (hall name hname)
  | ok address =>
    have hall : ¬ ∃ name ∈ op.pathParameters, path.lookup name = none := by
      rw [hlacks, not_not]
      exact ⟨address, haddress⟩
    obtain ⟨last, hends, hafter, hresponse⟩ := exchange_spec haddress query net
    have hnet : run.2.network = { net with requests := last.request :: last.before } := by
      rw [hrun]
      exact hafter
    have hanswer : run.1 = (client.exchange op path query net).1 := congrArg (·.1) hrun
    rw [← hanswer] at hresponse
    obtain ⟨hmethod, hpresents⟩ := Network.presents_of_reached hends.reached
    refine ⟨iff_of_false ?_ hall, fun h => absurd h hall, fun _ => ?_⟩
    · rintro ⟨e, -, hsame⟩
      rw [hnet] at hsame
      exact hends.requests_ne hsame
    · refine ⟨address, _, last, rfl, rfl, rfl, requestFor_conveys hclient haddress query, ?_, ?_,
        hends, hnet, hresponse, hmethod, hpresents⟩
      · rw [hnet]
        exact hends.requests_eq_iff
      · intro hnowhere
        obtain rfl := hends.eq_iff.mpr (Or.inr hnowhere)
        exact hresponse

section Replies

attribute [local instance] DomainNames.plain

/-- A world whose server takes its time to refuse everything with a byte that is no text. -/
def refusingWorld : World :=
  .ofReplies fun _ _ =>
    ⟨1200, .ok { status := 404, location := none, charset := none, body := ⟨800, .ok [0xFF]⟩ }⟩

/-- A client whose own address is of the secure scheme and has a path and a query, with a name but
no password: a repeated name, an empty one and marks of the query itself arrive as they were given,
and so does the refusal. -/
theorem request_spec_of_refusal :
    let env :=
      { Environment.blank with hostname := "h/c/?x=1&y", usesTls := true, username := some "u" }
    let query := [("k", "v w"), ("k", ""), ("", "é&=+")]
    ∃ client request,
      Client.ofEnvironment env = .ok client ∧
      let run := (client.request .namespaceHealth [("namespace", "a/b")] query).exec refusingWorld
      run.2.network.requests = [request] ∧ request.method = "GET" ∧
      request.target.queryPairs = ("x", "1") :: ("y", "") :: query ∧
      request.authorization = ["Basic dTo="] ∧
      run.1 = .ok ⟨.namespaceHealth, 404, [0xFF]⟩ := by
  intro env query
  have hclient : Client.ofEnvironment env = .ok
      { base := { scheme := .https, username := [], password := none, host := .domain ['h']
                  port := none, path := [['c'], []], query := some "x=1&y".toList
                  fragment := none }
        username := some "u", password := none, timeout := 30000
        verifiesTls := false } := by decide +kernel
  generalize hbase : ({ scheme := .https, username := [], password := none, host := .domain ['h']
                        port := none, path := [['c'], []], query := some "x=1&y".toList
                        fragment := none } : Url) = base at hclient
  have hplain : base.withoutUserInfo = base := by rw [← hbase]; rfl
  have hread : base.queryPairs = [("x", "1"), ("y", "")] := by rw [← hbase]; decide +kernel
  have hvalue : ∀ name ∈ Operation.namespaceHealth.pathParameters,
      List.lookup name [("namespace", "a/b")] ≠ none := by decide +kernel
  obtain ⟨-, -, hsent⟩ := request_spec hclient (w := refusingWorld) .namespaceHealth
    [("namespace", "a/b")] query
  obtain ⟨address, request, -, -, hmethod, hget, hconveys, hsole, hanswer, -⟩ := hsent hvalue
  have hnowhere : ∀ next, ¬ refusingWorld.network.LeadsTo (some 30000)
      (refusingWorld.network.first request) next := by
    rintro next ⟨head, ⟨houtcome, -⟩, hnext, -⟩
    obtain rfl := Except.ok.inj houtcome
    exact nomatch hnext
  obtain ⟨digits, hheader, hdigits, -⟩ := hconveys.authorization hplain
  have hbasic : String.ofList digits = "dTo=" := by rw [hdigits]; decide +kernel
  refine ⟨_, request, hclient, hsole.mpr (Or.inr hnowhere), hmethod.trans hget, ?_, ?_, ?_⟩
  · rw [hconveys.pairs, hread]
    rfl
  · rw [hheader, hbasic]
    rfl
  · exact (hanswer hnowhere _).mpr ⟨404, [0xFF], ⟨_, 1200, ⟨rfl, rfl, by simp [InTime]⟩, rfl, rfl,
      rfl, by simp [InTime]⟩, rfl⟩

/-- The address where one is asked for a name and a password. -/
def loginAddress : Url where
  scheme := .http
  username := []
  password := none
  host := .domain ['h']
  port := none
  path := ["login".toList]
  query := none
  fragment := none

/-- A reply that leads there. -/
def toLogin : Reply :=
  ⟨0, .ok { status := 302, location := some (.ok loginAddress), charset := none
            body := ⟨0, .ok []⟩ }⟩

/-- A world whose server leads from every other address to that one. -/
def guardedWorld : World :=
  .ofReplies fun _ request =>
    if request.address = loginAddress then .plain 200 (Utf8.encodeString "name?") else toLogin

/-- A complete reply of status 302 does not come back: it is followed by a second request, and
what comes back is the reply to that one. -/
theorem not_returned_of_redirect :
    ∃ client request next,
      Client.ofEnvironment { Environment.blank with hostname := "h" } = .ok client ∧
      Operation.root.pathParameters = [] ∧
      request.address.render = "http://h/api" ∧ next.address = loginAddress ∧
      guardedWorld.network.reply [] request = toLogin ∧
      let run := (client.request .root [] []).exec guardedWorld
      run.2.network.requests = [next, request] ∧
      run.1 = .ok ⟨.root, 200, Utf8.encodeString "name?"⟩ ∧
      ¬ ∃ body, run.1 = .ok ⟨.root, 302, body⟩ := by
  let request : Request :=
    ⟨"GET", { loginAddress with path := ["api".toList] }, [], false⟩
  let next : Request := ⟨"GET", loginAddress, [], false⟩
  refine ⟨_, request, next, ofEnvironment_bare, rfl, by decide +kernel, rfl, rfl, ?_⟩
  intro run
  have hrequests : run.2.network.requests = [next, request] := by decide +kernel
  have hresponse : run.1 = .ok ⟨.root, 200, Utf8.encodeString "name?"⟩ := by decide +kernel
  refine ⟨hrequests, hresponse, ?_⟩
  rintro ⟨body, hbody⟩
  cases hresponse.symm.trans hbody

end Replies

end Client

end MeshProbe
