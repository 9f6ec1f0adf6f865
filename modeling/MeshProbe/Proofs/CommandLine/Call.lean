import MeshProbe.CommandLine.Program
import MeshProbe.Proofs.Api.Request
import MeshProbe.Proofs.CommandLine.CallWords
import MeshProbe.Proofs.Json.Roundtrip

/-!
The command that asks an operation, from its words to what it prints. Nothing is
sent before everything for the request is in place, and nothing is printed unless
the answer is what was expected of it.
-/

namespace MeshProbe

/-! ### What is expected of an answer -/

/-- What is expected of an answer: the status, and JSON for a body. -/
theorem Response.expected_eq_ok_iff {r : Response} {expected : Nat} {v : Json.Value} :
    (r.expectStatus expected >>= Response.json) = .ok v ↔
      r.status = expected ∧ Json.parse r.body = .ok v := by
  unfold expectStatus
  split_ifs with hstatus
  · change r.json = .ok v ↔ _
    unfold json
    cases Json.parse r.body <;> simp [hstatus]
  · simp [bind, Except.bind, hstatus]

namespace CommandLine

/-! ### The command -/

/-- What a call comes to in a world, from the environment on. -/
theorem exec_runCall [DomainNames] (env : Environment) (op : Operation)
    (path query : List (String × String)) (expected : Nat) (w : World) :
    (runCall env op path query expected).exec w =
      if isStatus expected then
        match Client.ofEnvironment env with
        | .error e => (.error (.noClient e), w)
        | .ok client =>
          let exchanged := client.exchange op path query w.network
          let after := { w with network := exchanged.2.2, now := w.now + exchanged.2.1 }
          match exchanged.1 with
          | .error e => (.error (.noCall op e), after)
          | .ok response =>
            match response.expectStatus expected >>= Response.json with
            | .error e => (.error (.api e), after)
            | .ok body => (.ok (), after.withPrinted body.renderIndented)
      else (.error (.noStatus expected), w) := by
  unfold runCall
  cases isStatus expected with
  | false => rfl
  | true =>
    simp only [Bool.not_true, Bool.false_eq_true, if_false, if_true]
    rw [Action.exec_bind, Action.exec_mapError, Action.exec_ofExcept]
    cases Client.ofEnvironment env with
    | error e => rfl
    | ok client =>
      simp only [Except.mapError]
      rw [Action.exec_bind, Action.exec_mapError, Client.exec_request]
      cases (client.exchange op path query w.network).1 with
      | error e => rfl
      | ok response =>
        simp only [Except.mapError]
        rw [Action.exec_bind, Action.exec_mapError, Action.exec_ofExcept]
        cases response.expectStatus expected with
        | error e => rfl
        | ok response =>
          simp only [Except.mapError]
          rw [Action.exec_bind, Action.exec_mapError, Action.exec_ofExcept]
          change _ = match response.json with
            | .error e => _
            | .ok body => _
          cases response.json <;> rfl

/-- What a request needs: an environment whose address can be read, a status to expect, and a
value for every placeholder. -/
structure Ready [DomainNames] (files : Files) (file : String) (op : Operation)
    (path : List (String × String)) (expected : Nat) (client : Client) : Prop where
  environment : ∃ env, Environment.ofFile files file = .ok env ∧
    Client.ofEnvironment env = .ok client
  status : 100 ≤ expected ∧ expected ≤ 999
  values : ∀ name ∈ op.pathParameters, (path.lookup name).isSome

theorem Ready.client_eq [DomainNames] {files : Files} {file : String} {op : Operation}
    {path : List (String × String)} {expected : Nat} {env : Environment} {client other : Client}
    (h : Ready files file op path expected other)
    (hfile : Environment.ofFile files file = .ok env)
    (hclient : Client.ofEnvironment env = .ok client) : other = client := by
  obtain ⟨env', hfile', hclient'⟩ := h.environment
  obtain rfl : env = env' := Except.ok.inj (hfile.symm.trans hfile')
  exact Except.ok.inj (hclient'.symm.trans hclient)

theorem Ready.unique [DomainNames] {files : Files} {file : String} {op : Operation}
    {path : List (String × String)} {expected : Nat} {client other : Client}
    (h : Ready files file op path expected client)
    (hother : Ready files file op path expected other) : other = client := by
  obtain ⟨env, hfile, hclient⟩ := h.environment
  exact hother.client_eq hfile hclient

/-- A request has the answer that is printed as a value: the reply to it is complete, with the
status expected and JSON for a body. -/
def Answered (net : Network) (client : Client) (p : Hop) (expected : Nat) (v : Json.Value) :
    Prop :=
  ∃ body, net.Complete (some client.timeout) p expected body ∧ Json.parse body = .ok v

/-- The ways in which a call ends, and the world after each. -/
inductive CallEnding [DomainNames] (file : String) (op : Operation)
    (path query : List (String × String)) (expected : Nat) (w : World) :
    Except Failure Unit → World → Prop
  | unready {failure : Failure} {after : World}
      (hready : ∀ client, ¬ Ready w.files file op path expected client) (hafter : after = w) :
      CallEnding file op path query expected w (.error failure) after
  | unanswered {client : Client} {last : Hop} {failure : Failure} {after : World}
      (hready : Ready w.files file op path expected client)
      (hlast : client.LastAsked op path query w.network last)
      (hnetwork : after.network = w.network.afterMaking last)
      (hanswer : ∀ v, ¬ Answered w.network client last expected v)
      (hprinted : after.printed = w.printed) :
      CallEnding file op path query expected w (.error failure) after
  | answered {client : Client} {last : Hop} {v : Json.Value} {after : World}
      (hready : Ready w.files file op path expected client)
      (hlast : client.LastAsked op path query w.network last)
      (hnetwork : after.network = w.network.afterMaking last)
      (hanswer : Answered w.network client last expected v)
      (hprinted : after.printed = v.renderIndented :: w.printed) :
      CallEnding file op path query expected w (.ok ()) after

namespace CallEnding

variable [DomainNames] {file : String} {op : Operation} {path query : List (String × String)}
  {expected : Nat} {client : Client} {w after : World} {outcome : Except Failure Unit}

/-- Nothing is sent before everything for the first request is in place; the others come of it. -/
theorem asked (h : CallEnding file op path query expected w outcome after)
    (hready : Ready w.files file op path expected client) :
    ∃ last, client.LastAsked op path query w.network last ∧
      after.network = w.network.afterMaking last ∧
      (outcome = .ok () ↔ ∃ v, Answered w.network client last expected v) := by
  cases h with
  | unready hunready hafter => exact absurd hready (hunready client)
  | unanswered hfound hlast hnetwork hanswer hprinted =>
    obtain rfl := hfound.unique hready
    exact ⟨_, hlast, hnetwork, iff_of_false nofun fun ⟨v, hv⟩ => hanswer v hv⟩
  | answered hfound hlast hnetwork hanswer hprinted =>
    obtain rfl := hfound.unique hready
    exact ⟨_, hlast, hnetwork, iff_of_true rfl ⟨_, hanswer⟩⟩

theorem requests_ne_iff (h : CallEnding file op path query expected w outcome after) :
    after.network.requests ≠ w.network.requests ↔
      ∃ client, Ready w.files file op path expected client := by
  constructor
  · intro hne
    cases h with
    | unready hunready hafter => exact absurd (congrArg (·.network.requests) hafter) hne
    | unanswered hfound hlast hnetwork hanswer hprinted
    | answered hfound hlast hnetwork hanswer hprinted => exact ⟨_, hfound⟩
  · rintro ⟨client, hready⟩ hsame
    obtain ⟨last, ⟨address, -, hends⟩, hnetwork, -⟩ := h.asked hready
    rw [hnetwork] at hsame
    exact hends.requests_ne hsame

theorem ok_iff (h : CallEnding file op path query expected w outcome after) :
    outcome = .ok () ↔ ∃ client last v, Ready w.files file op path expected client ∧
      client.LastAsked op path query w.network last ∧
      Answered w.network client last expected v := by
  cases h with
  | unready hunready hafter =>
    exact iff_of_false nofun fun ⟨client, _, _, hready, _⟩ => hunready client hready
  | unanswered hfound hlast hnetwork hanswer hprinted =>
    refine iff_of_false nofun ?_
    rintro ⟨other, last', v, hready, hlast', hanswered⟩
    obtain rfl := hfound.unique hready
    obtain rfl := hlast.unique hlast'
    exact hanswer v hanswered
  | answered hfound hlast hnetwork hanswer hprinted =>
    exact iff_of_true rfl ⟨_, _, _, hfound, hlast, hanswer⟩

theorem printed_of_ok (h : CallEnding file op path query expected w (.ok ()) after) :
    ∃ client last v, Ready w.files file op path expected client ∧
      client.LastAsked op path query w.network last ∧
      Answered w.network client last expected v ∧
      after.printed = v.renderIndented :: w.printed := by
  cases h with
  | answered hfound hlast hnetwork hanswer hprinted =>
    exact ⟨_, _, _, hfound, hlast, hanswer, hprinted⟩

theorem printed_of_error {failure : Failure}
    (h : CallEnding file op path query expected w (.error failure) after) :
    after.printed = w.printed := by
  cases h with
  | unready hunready hafter => rw [hafter]
  | unanswered hfound hlast hnetwork hanswer hprinted => exact hprinted

end CallEnding

theorem isStatus_iff {code : Nat} : isStatus code = true ↔ 100 ≤ code ∧ code ≤ 999 := by
  simp [isStatus]

section Ending

variable [DomainNames] {file : String} {op : Operation} {path query : List (String × String)}
  {expected : Nat} {env : Environment} {client : Client} {w : World}

/-- A call ends in one of the three ways once its client is there. -/
theorem runCall_ending (hfile : Environment.ofFile w.files file = .ok env)
    (hclient : Client.ofEnvironment env = .ok client) :
    CallEnding file op path query expected w ((runCall env op path query expected).exec w).1
      ((runCall env op path query expected).exec w).2 := by
  rw [exec_runCall, hclient]
  split_ifs with hstatus
  · cases haddress : client.url op path with
    | error e =>
      have hunready : ∀ other, ¬ Ready w.files file op path expected other := by
        intro other hready
        obtain rfl := hready.client_eq hfile hclient
        obtain ⟨address, hurl⟩ := Client.exists_url_iff.mpr hready.values
        exact absurd (haddress.symm.trans hurl) nofun
      simp only [Client.exchange, haddress]
      exact .unready hunready rfl
    | ok address =>
      have hready : Ready w.files file op path expected client :=
        ⟨⟨env, hfile, hclient⟩, isStatus_iff.mp hstatus,
          Client.exists_url_iff.mp ⟨address, haddress⟩⟩
      obtain ⟨last, hends, hnetwork, hresponse⟩ :=
        Client.exchange_spec haddress query w.network
      have hlast : client.LastAsked op path query w.network last := ⟨address, haddress, hends⟩
      -- The answer counts exactly when the outcome of the exchange passes both checks.
      have hanswer (v : Json.Value) : Answered w.network client last expected v ↔
          ((client.exchange op path query w.network).1 >>= fun response =>
            response.expectStatus expected >>= Response.json) = .ok v := by
        rw [bind_eq_ok]
        simp only [hresponse, Response.expected_eq_ok_iff]
        constructor
        · rintro ⟨body, hcomplete, hparse⟩
          exact ⟨_, ⟨_, body, hcomplete, rfl⟩, rfl, hparse⟩
        · rintro ⟨_, ⟨status, body, hcomplete, rfl⟩, rfl, hparse⟩
          exact ⟨body, hcomplete, hparse⟩
      dsimp only
      cases houtcome : (client.exchange op path query w.network).1 with
      | error e =>
        refine .unanswered hready hlast hnetwork (fun v h => ?_) rfl
        rw [hanswer, houtcome] at h
        cases h
      | ok response =>
        dsimp only
        cases hbody : response.expectStatus expected >>= Response.json with
        | error e =>
          refine .unanswered hready hlast hnetwork (fun v h => ?_) rfl
          rw [hanswer, houtcome] at h
          cases hbody.symm.trans h
        | ok v =>
          refine .answered hready hlast hnetwork ((hanswer v).mpr ?_) rfl
          rw [houtcome]
          exact hbody
  · exact .unready (fun other hready => hstatus (isStatus_iff.mpr hready.status)) rfl

/-- The command ends in one of the three ways; the environment is read before all else. -/
theorem run_ending (a : Arguments) (hcommand : a.command = .call op path query expected) :
    CallEnding a.environmentFile op path query expected w (a.run.exec w).1 (a.run.exec w).2 := by
  unfold Arguments.run
  rw [hcommand]
  have hload : (environment a.environmentFile).exec w =
      ((Environment.ofFile w.files a.environmentFile).mapError
        (.noEnvironment a.environmentFile), w) :=
    Action.exec_mapError _ _ w
  cases hfile : Environment.ofFile w.files a.environmentFile with
  | error e =>
    rw [hfile] at hload
    have hexec := Action.exec_bind_error (fun env => runCall env op path query expected) hload
    dsimp only
    rw [hexec]
    refine .unready (fun client hready => ?_) rfl
    obtain ⟨env, hfound, -⟩ := hready.environment
    exact absurd (hfile.symm.trans hfound) nofun
  | ok env =>
    rw [hfile] at hload
    have hexec := Action.exec_bind_ok (fun env => runCall env op path query expected) hload
    dsimp only
    rw [hexec]
    cases hclient : Client.ofEnvironment env with
    | ok client => exact runCall_ending hfile hclient
    | error e =>
      have hunready : ∀ client, ¬ Ready w.files a.environmentFile op path expected client := by
        intro client hready
        obtain ⟨env', hfound, hmade⟩ := hready.environment
        obtain rfl : env = env' := Except.ok.inj (hfile.symm.trans hfound)
        exact absurd (hclient.symm.trans hmade) nofun
      rw [exec_runCall, hclient]
      split_ifs
      · exact .unready hunready rfl
      · exact .unready hunready rfl

end Ending

/-! ### From the words to the output -/

/-- The program ends with code zero or one, as its command does; a report of the failure ends the
complaints. -/
theorem Program.run_of_parse [DomainNames] {words : List String} {a : Arguments}
    (hparse : Arguments.parse words = .ok a) (directives : Option String) (w : World) :
    (Program.run words directives w).2 = (a.run.exec w).2 ∧
    ((a.run.exec w).1 = .ok () → (Program.run words directives w).1.exitCode = 0) ∧
    ∀ failure, (a.run.exec w).1 = .error failure →
      (Program.run words directives w).1.exitCode = 1 ∧
      failure.report <:+ (Program.run words directives w).1.complaints := by
  unfold Program.run
  rw [hparse]
  dsimp only
  cases a.run.exec w with
  | mk outcome after =>
    cases outcome with
    | ok done => simp
    | error f => simp

/-- Asking an operation from the command line. A request is made exactly when everything for it is
in place. It is then the only one exactly if the reply to it leads to no other address, or no reply
may. The command succeeds exactly when the reply to the last request made is the expected one, and
then prints the value of its body, in a text that is read as that value again. It fails in every
other case, and tells why without printing anything. -/
theorem run_call [DomainNames] (file : String) (op : Operation) (options : List CallOption)
    (expected : Option Nat) (directives : Option String) (w : World)
    (hkeys : ∀ o ∈ options, '=' ∉ o.key.toList)
    (hexpected : ∀ code ∈ expected, code ≤ maxStatus) :
    let path := options.filterMap CallOption.toPath
    let query := options.filterMap CallOption.toQuery
    let status := expected.getD 200
    let run := Program.run (callWords file op options expected) directives w
    let net := w.network
    (run.2.network.requests ≠ net.requests ↔ ∃ client, Ready w.files file op path status client) ∧
    (∀ client, Ready w.files file op path status client → ∃ address last,
      client.url op path = .ok address ∧
      let first := net.first (client.requestFor address query)
      net.Ends (some client.timeout) net.redirects first last ∧
      run.2.network = { net with requests := last.request :: last.before } ∧
      (run.2.network.requests = first.request :: net.requests ↔
        net.redirects = 0 ∨ ∀ next, ¬ net.LeadsTo (some client.timeout) first next) ∧
      ((∀ next, ¬ net.LeadsTo (some client.timeout) first next) → last = first) ∧
      (run.1.exitCode = 0 ↔ ∃ v, Answered net client last status v)) ∧
    (run.1.exitCode = 0 ↔ ∃ client last v, Ready w.files file op path status client ∧
      client.LastAsked op path query net last ∧ Answered net client last status v) ∧
    (run.1.exitCode = 0 → ∃ client last v, Ready w.files file op path status client ∧
      client.LastAsked op path query net last ∧ Answered net client last status v ∧
      run.2.printed = v.renderIndented :: w.printed ∧
      (Json.Exact v → Json.parse (Utf8.encodeString v.renderIndented) = .ok v)) ∧
    (run.1.exitCode ≠ 0 → run.1.exitCode = 1 ∧ run.2.printed = w.printed ∧
      ∃ failure : Failure, failure.report <:+ run.1.complaints) := by
  intro path query status run net
  obtain ⟨a, hparse, hfile, hcommand⟩ : ∃ a : Arguments,
      Arguments.parse (callWords file op options expected) = .ok a ∧ a.environmentFile = file ∧
      a.command = .call op path query status :=
    ⟨_, parse_callWords file op hkeys hexpected, rfl, rfl⟩
  obtain ⟨hworld, hdone, hfailed⟩ := Program.run_of_parse hparse directives w
  have hending := run_ending (w := w) a hcommand
  rw [hfile, ← hworld] at hending
  generalize houtcome : (a.run.exec w).1 = outcome at hending hdone hfailed
  have hcode : run.1.exitCode = 0 ↔ outcome = .ok () := by
    cases outcome with
    | ok done => exact iff_of_true (hdone rfl) rfl
    | error failure => exact iff_of_false ((hfailed failure rfl).1.trans_ne (by decide)) nofun
  refine ⟨hending.requests_ne_iff, fun client hready => ?_, hcode.trans hending.ok_iff, ?_, ?_⟩
  · obtain ⟨last, ⟨address, haddress, hends⟩, hnetwork, hanswer⟩ := hending.asked hready
    have hrequests : run.2.network.requests = last.request :: last.before :=
      congrArg Network.requests hnetwork
    refine ⟨address, last, haddress, hends, hnetwork, ?_, fun hnowhere => ?_, hcode.trans hanswer⟩
    · rw [hrequests]
      exact hends.requests_eq_iff
    · exact hends.eq_iff.mpr (Or.inr hnowhere)
  · intro hzero
    obtain rfl := hcode.mp hzero
    obtain ⟨client, last, v, hready, hlast, hanswer, hprinted⟩ := hending.printed_of_ok
    refine ⟨client, last, v, hready, hlast, hanswer, hprinted, fun hexact => ?_⟩
    obtain ⟨body, -, hbody⟩ := hanswer
    exact Json.parse_renderIndented hbody hexact
  · intro hne
    cases outcome with
    | ok done => exact absurd (hcode.mpr rfl) hne
    | error failure =>
      obtain ⟨hone, hreport⟩ := hfailed failure rfl
      exact ⟨hone, hending.printed_of_error, failure, hreport⟩

/-! ### A run -/

/-- The object of the answer, in which a key is repeated. -/
def plainBody : Bytes := Utf8.encodeString "\x7b\"a\":1,\"a\":[2,\"b\"]\x7d"

/-- The text that is printed for it. -/
def plainText : String := "\x7b\n  \"a\": [\n    2,\n    \"b\"\n  ]\n\x7d"

/-- A world with an environment file, and a server that answers in one way. -/
def servedWorld (reply : List Request → Request → Reply) : World :=
  { World.ofReplies reply with
    files :=
      { entries := [(["env.yaml"], .file "kiali_hostname: h\nmesh_bookinfo_namespace: n\n")]
        workingDirectory := [] } }

/-- The head of a reply with that object, which takes a while to be sent. -/
def plainHead : Head where
  status := 200
  location := none
  charset := none
  body := ⟨700, .ok plainBody⟩

/-- A world whose server answers everything with one object, and takes its time over it. -/
def plainWorld : World := servedWorld fun _ _ => ⟨500, .ok plainHead⟩

def plainEnvironment : Environment :=
  { Environment.blank with hostname := "h", meshNamespace := "n" }

def plainClient : Client where
  base := { scheme := .http, username := [], password := none, host := .domain ['h']
            port := none, path := [[]], query := none, fragment := none }
  username := none
  password := none
  timeout := 30000
  verifiesTls := false

section Runs

attribute [local instance] DomainNames.plain

theorem ofFile_servedWorld (reply : List Request → Request → Reply) :
    Environment.ofFile (servedWorld reply).files "env.yaml" = .ok plainEnvironment := by
  have hfiles : (servedWorld reply).files =
      (servedWorld fun _ _ => .plain 200 []).files := rfl
  rw [hfiles]
  decide +kernel

theorem ofEnvironment_plain : Client.ofEnvironment plainEnvironment = .ok plainClient := by
  decide +kernel

theorem parse_plainBody :
    ∃ v, Json.parse plainBody = .ok v ∧ v.renderIndented = plainText := by
  have hmap : (Json.parse plainBody).map Json.Value.renderIndented = .ok plainText := by
    decide +kernel
  generalize Json.parse plainBody = parsed at hmap
  cases parsed with
  | error e => cases hmap
  | ok v => exact ⟨v, rfl, Except.ok.inj hmap⟩

theorem not_leadsTo_plainWorld (hop next : Hop) :
    ¬ plainWorld.network.LeadsTo (some 30000) hop next := by
  rintro ⟨head, ⟨houtcome, -⟩, hnext, -⟩
  obtain rfl : plainHead = head := Except.ok.inj houtcome
  exact nomatch hnext

theorem answered_plainWorld_iff (request : Request) {v : Json.Value} :
    Answered plainWorld.network plainClient (plainWorld.network.first request) 200 v ↔
      Json.parse plainBody = .ok v := by
  constructor
  · rintro ⟨body, ⟨head, time, ⟨houtcome, -⟩, -, -, hbody, -⟩, hparse⟩
    obtain rfl : plainHead = head := Except.ok.inj houtcome
    obtain rfl : plainBody = body := Except.ok.inj hbody
    exact hparse
  · intro hparse
    refine ⟨plainBody, ⟨plainHead, 500, ⟨rfl, rfl, ?_⟩, rfl, rfl, rfl, ?_⟩, hparse⟩
    · simp [InTime, plainClient]
    · simp [InTime, plainClient, plainHead]

/-- The values of the words keep what stands behind their first equals sign, and of the repeated
key the last value is printed. -/
theorem run_call_of_plainWorld :
    let options := [CallOption.path "namespace" "a=b", .query "type" "app"]
    let run := Program.run (callWords "env.yaml" .namespaceHealth options none) none plainWorld
    ((∀ o ∈ options, '=' ∉ o.key.toList) ∧ ∀ code ∈ (none : Option Nat), code ≤ maxStatus) ∧
    run.1.exitCode = 0 ∧ run.2.network.requests.length = 1 ∧ run.2.printed = [plainText] := by
  intro options
  have hkeys : ∀ o ∈ options, '=' ∉ o.key.toList := by decide
  have hexpected : ∀ code ∈ (none : Option Nat), code ≤ maxStatus := nofun
  have hready : Ready plainWorld.files "env.yaml" .namespaceHealth
      (options.filterMap CallOption.toPath) 200 plainClient :=
    ⟨⟨_, ofFile_servedWorld _, ofEnvironment_plain⟩, by decide, by decide +kernel⟩
  obtain ⟨v, hparse, hrender⟩ := parse_plainBody
  have hrun := run_call "env.yaml" .namespaceHealth options none none plainWorld hkeys hexpected
  -- What the run is must not be computed here: all that is needed of it is in the theorem.
  generalize Program.run (callWords "env.yaml" .namespaceHealth options none) none plainWorld = run
    at hrun ⊢
  obtain ⟨-, hasked, -, hprinted, -⟩ := hrun
  obtain ⟨address, last, haddress, hends, -, hsole, hlast, hcode⟩ := hasked _ hready
  obtain rfl := hlast (not_leadsTo_plainWorld _)
  have hdone : run.1.exitCode = 0 :=
    hcode.mpr ⟨v, (answered_plainWorld_iff _).mpr hparse⟩
  obtain ⟨client, last, found, hfound, hreached, hanswer, htext, -⟩ := hprinted hdone
  obtain rfl : client = plainClient := hready.unique hfound
  obtain rfl := Client.LastAsked.unique ⟨address, haddress, hends⟩ hreached
  obtain rfl : found = v :=
    Except.ok.inj (((answered_plainWorld_iff _).mp hanswer).symm.trans hparse)
  refine ⟨⟨hkeys, hexpected⟩, hdone, ?_, ?_⟩
  · rw [hsole.mpr (Or.inr (not_leadsTo_plainWorld _))]
    rfl
  · rw [htext, hrender]
    rfl

/-- A server that leads every request on to another address, with a body of JSON. -/
def wanderingWorld : World :=
  servedWorld fun asked _ =>
    if asked = [] then
      ⟨0, .ok { status := 302, location := some (.ok plainClient.base), charset := none
                body := ⟨0, .ok plainBody⟩ }⟩
    else .plain 200 plainBody

/-- A reply with the status that is expected and JSON for a body, which leads to another address:
a second request is made, and the command fails. -/
theorem run_call_of_redirect :
    let run := Program.run (callWords "env.yaml" .root [] (some 302)) none wanderingWorld
    Ready wanderingWorld.files "env.yaml" .root [] 302 plainClient ∧
      (∀ request, ∃ head, wanderingWorld.network.reply [] request = ⟨0, .ok head⟩ ∧
        head.status = 302 ∧ head.body.outcome = .ok plainBody) ∧
      (∃ v, Json.parse plainBody = .ok v) ∧
      run.2.network.requests.length = 2 ∧ run.1.exitCode = 1 := by
  intro run
  obtain ⟨v, hparse, -⟩ := parse_plainBody
  have hready : Ready wanderingWorld.files "env.yaml" .root [] 302 plainClient :=
    ⟨⟨_, ofFile_servedWorld _, ofEnvironment_plain⟩, by decide, by decide +kernel⟩
  refine ⟨hready, fun request => ⟨_, rfl, rfl, rfl⟩, ⟨v, hparse⟩, ?_, ?_⟩
  · decide +kernel
  · decide +kernel

end Runs

end CommandLine

end MeshProbe
