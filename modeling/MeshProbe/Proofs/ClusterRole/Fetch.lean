import MeshProbe.ClusterRole.Fetch
import MeshProbe.Proofs.Api.Exchange
import MeshProbe.Proofs.ClusterRole.Marker
import MeshProbe.Proofs.Yaml.Document

/-!
Fetching a cluster role sees the one address that the environment names for it and
begins there; the replies alone lead elsewhere. Which of the errors comes of it is
settled stage by stage: no address, no text from it, no document in the rendered
text.
-/

namespace MeshProbe

/-! ### The version label -/

namespace Template

theorem renderKialiChars_placeholder (after : List Char) :
    renderKialiChars (versionPlaceholder ++ after) =
      versionLabel.toList ++ renderKialiChars after := by
  obtain ⟨c, rest, hplaceholder⟩ :=
    List.exists_cons_of_ne_nil (show versionPlaceholder ≠ [] by decide)
  have hbegins : versionPlaceholder.isPrefixOf (c :: (rest ++ after)) = true := by
    rw [List.isPrefixOf_iff_prefix, ← List.cons_append, ← hplaceholder]
    exact List.prefix_append _ _
  have hskip : (rest ++ after).drop (versionPlaceholder.length - 1) = after := by
    rw [hplaceholder]
    exact List.drop_left
  unfold renderKialiChars
  rw [show versionPlaceholder ++ after = c :: (rest ++ after) by rw [hplaceholder]; rfl,
    replaceMatches]
  simp only [hbegins, if_true]
  rw [Marker.replaceMatches_skip, hskip]

theorem renderKialiChars_cons {c : Char} {rest : List Char}
    (h : ¬ versionPlaceholder <+: c :: rest) :
    renderKialiChars (c :: rest) = c :: renderKialiChars rest := by
  have hbegins : versionPlaceholder.isPrefixOf (c :: rest) = false := by
    rw [← Bool.not_eq_true, List.isPrefixOf_iff_prefix]
    exact h
  unfold renderKialiChars
  rw [replaceMatches]
  simp [hbegins]

theorem intercalate_cons_append (separator : List Char) (c : Char) (piece : List Char)
    (pieces : List (List Char)) :
    separator.intercalate ((c :: piece) :: pieces) =
      c :: separator.intercalate (piece :: pieces) := by
  cases pieces <;> simp

theorem prefix_intercalate (separator piece : List Char) (pieces : List (List Char)) :
    piece <+: separator.intercalate (piece :: pieces) := by
  cases pieces <;> simp [List.append_assoc]

/-- The console's roles have the version in place of every placeholder: between the placeholders
stand pieces that hold none. The induction is on the length, since a placeholder is passed as a
whole. -/
theorem renderKialiChars_spec (template : List Char) :
    ∃ piece pieces, (∀ p ∈ piece :: pieces, ¬ versionPlaceholder <:+: p) ∧
      template = versionPlaceholder.intercalate (piece :: pieces) ∧
      renderKialiChars template = versionLabel.toList.intercalate (piece :: pieces) := by
  induction hlength : template.length using Nat.strong_induction_on generalizing template with
  | _ n ih =>
    subst hlength
    cases template with
    | nil => exact ⟨[], [], by decide, rfl, rfl⟩
    | cons c rest =>
      by_cases hbegins : versionPlaceholder <+: c :: rest
      · obtain ⟨after, hafter⟩ := hbegins
        have hshorter : after.length < (c :: rest).length := by
          rw [← hafter, List.length_append]
          exact Nat.lt_add_of_pos_left (by decide)
        obtain ⟨piece, pieces, hpieces, htemplate, hrendered⟩ := ih _ hshorter after rfl
        refine ⟨[], piece :: pieces, List.forall_mem_cons.mpr ⟨by decide, hpieces⟩, ?_, ?_⟩
        · rw [← hafter, List.intercalate_cons_cons, ← htemplate]
          rfl
        · rw [← hafter, renderKialiChars_placeholder, List.intercalate_cons_cons, ← hrendered]
          rfl
      · obtain ⟨piece, pieces, hpieces, htemplate, hrendered⟩ :=
          ih _ (Nat.lt_succ_self rest.length) rest rfl
        refine ⟨c :: piece, pieces, ?_, ?_, ?_⟩
        · obtain ⟨hpiece, hmore⟩ := List.forall_mem_cons.mp hpieces
          refine List.forall_mem_cons.mpr ⟨fun hinfix => ?_, hmore⟩
          rcases List.infix_cons_iff.mp hinfix with hfirst | hwithin
          · refine hbegins (hfirst.trans ?_)
            rw [htemplate]
            exact List.prefix_cons_inj c |>.mpr (prefix_intercalate ..)
          · exact hpiece hwithin
        · rw [intercalate_cons_append, ← htemplate]
        · rw [intercalate_cons_append, ← hrendered, renderKialiChars_cons hbegins]

end Template

namespace ClusterRole

open Yaml.Value (Document)

/-! ### Downloading -/

/-- The text of an answer. -/
def textOf (net : Network) (answer : Answer) : Except NetworkError String :=
  if tellsOfError answer.status then .error (.status answer.status answer.address.render)
  else answer.body.outcome.map fun body =>
    String.ofList (Unmarked.decode (net.reader answer.charset) body)

/-- How long reading the text of an answer takes. -/
def readingTime (answer : Answer) : Nat :=
  if tellsOfError answer.status then 0 else answer.body.after

/-- What a download comes to: the text, how long it takes, and the network after it. -/
def downloaded [DomainNames] (net : Network) (url : String) :
    Except NetworkError String × Nat × Network :=
  match Url.parse url with
  | .error e => (.error (.unusable e), 0, net)
  | .ok address =>
    match net.send none (requestFor address) with
    | (.error e, spent, after) => (.error e, spent, after)
    | (.ok answer, spent, after) => (textOf after answer, spent + readingTime answer, after)

theorem exec_readText (answer : Answer) (w : World) :
    (World.readText answer).exec w =
      (answer.body.outcome.map fun body =>
          String.ofList (Unmarked.decode (w.network.reader answer.charset) body),
        { w with now := w.now + answer.body.after }) := by
  unfold World.readText
  rw [Action.exec_bind, Client.exec_read]
  cases answer.body.outcome with
  | error e => rfl
  | ok body => rfl

theorem exec_download [DomainNames] (url : String) (w : World) :
    (download url).exec w =
      ((downloaded w.network url).1,
        { w with
          network := (downloaded w.network url).2.2
          now := w.now + (downloaded w.network url).2.1 }) := by
  unfold download downloaded
  cases Url.parse url with
  | error e => rfl
  | ok address =>
    dsimp only
    rw [Action.exec_bind, Client.exec_send]
    generalize w.network.send none (requestFor address) = sent
    obtain ⟨outcome, spent, after⟩ := sent
    cases outcome with
    | error e => rfl
    | ok answer =>
      change Action.exec (if tellsOfError answer.status then _ else _) _ = _
      dsimp only
      unfold textOf readingTime
      split
      · rfl
      · rw [exec_readText, Nat.add_assoc]

/-- The last of the requests that downloading from an address comes to. -/
def LastAsked [DomainNames] (net : Network) (url : String) (last : Hop) : Prop :=
  ∃ address, Url.parse url = .ok address ∧
    net.Ends none net.redirects (net.first (requestFor address)) last

/-- No text comes from an address: it is none, or the last request is not answered, or with a
status that tells of an error, or the body of the answer does not come to its end. -/
inductive Undelivered [DomainNames] (net : Network) (url : String) : Prop
  | invalid {e} : Url.parse url = .error e → Undelivered net url
  | unanswered {last} : LastAsked net url last → (∀ answer, ¬ net.AnsweredBy none last answer) →
    Undelivered net url
  | refused {last answer} : LastAsked net url last → net.AnsweredBy none last answer →
    400 ≤ answer.status → answer.status ≤ 599 → Undelivered net url
  | unread {last answer e} : LastAsked net url last → net.AnsweredBy none last answer →
    answer.body.outcome = .error e → Undelivered net url

/-- A text comes from an address: that of the body of the last answer, read as its charset has
it. -/
def Delivered [DomainNames] (net : Network) (url text : String) : Prop :=
  ∃ last answer body, LastAsked net url last ∧ net.AnsweredBy none last answer ∧
    (answer.status < 400 ∨ 599 < answer.status) ∧ answer.body.outcome = .ok body ∧
    text = String.ofList (Unmarked.decode (net.reader answer.charset) body)

theorem tellsOfError_iff {status : Nat} :
    tellsOfError status = true ↔ 400 ≤ status ∧ status ≤ 599 := by
  simp [tellsOfError]

theorem textOf_eq_ok_iff {net : Network} {answer : Answer} {text : String} :
    textOf net answer = .ok text ↔ (answer.status < 400 ∨ 599 < answer.status) ∧
      ∃ body, answer.body.outcome = .ok body ∧
        text = String.ofList (Unmarked.decode (net.reader answer.charset) body) := by
  unfold textOf
  by_cases hstatus : tellsOfError answer.status = true
  · rw [if_pos hstatus]
    rw [tellsOfError_iff] at hstatus
    exact iff_of_false nofun fun ⟨hother, _⟩ => by omega
  · rw [if_neg hstatus]
    rw [tellsOfError_iff] at hstatus
    have hother : answer.status < 400 ∨ 599 < answer.status := by omega
    cases answer.body.outcome <;> simp [hother, Except.map, eq_comm]

section Downloading

variable [DomainNames] {net : Network} {url text : String}

theorem LastAsked.unique {last other : Hop} (h : LastAsked net url last)
    (h' : LastAsked net url other) : other = last := by
  obtain ⟨address, haddress, hends⟩ := h
  obtain ⟨address', haddress', hends'⟩ := h'
  obtain rfl := Except.ok.inj (haddress.symm.trans haddress')
  exact hends.unique hends'

/-- A download from an address is decided by the last of the requests that it comes to. -/
theorem downloaded_spec {address : Url} (haddress : Url.parse url = .ok address)
    (net : Network) :
    ∃ last, LastAsked net url last ∧ (downloaded net url).2.2 = net.afterMaking last ∧
      ∀ text, (downloaded net url).1 = .ok text ↔
        ∃ answer, net.AnsweredBy none last answer ∧ textOf net answer = .ok text := by
  obtain ⟨last, hends, hafter, hanswer⟩ := net.send_spec none (requestFor address)
  refine ⟨last, ⟨address, haddress, hends⟩, ?_⟩
  unfold downloaded
  rw [haddress]
  dsimp only
  cases hsent : net.send none (requestFor address) with
  | mk outcome rest =>
    obtain ⟨spent, after⟩ := rest
    rw [hsent] at hafter hanswer
    obtain rfl : after = net.afterMaking last := hafter
    cases outcome with
    | error e =>
      refine ⟨rfl, fun text => iff_of_false nofun ?_⟩
      rintro ⟨answer, hby, -⟩
      exact nomatch (hanswer answer).mpr hby
    | ok answer =>
      have hby := (hanswer answer).mp rfl
      refine ⟨rfl, fun text => ⟨fun htext => ⟨answer, hby, htext⟩, ?_⟩⟩
      rintro ⟨answer', hby', htext⟩
      obtain rfl := hby.unique hby'
      exact htext

theorem downloaded_eq_ok_iff : (downloaded net url).1 = .ok text ↔ Delivered net url text := by
  cases haddress : Url.parse url with
  | error e =>
    unfold downloaded
    rw [haddress]
    refine iff_of_false nofun ?_
    rintro ⟨last, answer, body, ⟨address, hparse, -⟩, -⟩
    exact nomatch haddress.symm.trans hparse
  | ok address =>
    obtain ⟨last, hlast, -, hdownloaded⟩ := downloaded_spec haddress net
    rw [hdownloaded]
    constructor
    · rintro ⟨answer, hby, htext⟩
      obtain ⟨hstatus, body, hbody, rfl⟩ := textOf_eq_ok_iff.mp htext
      exact ⟨last, answer, body, hlast, hby, hstatus, hbody, rfl⟩
    · rintro ⟨last', answer, body, hlast', hby, hstatus, hbody, rfl⟩
      obtain rfl := hlast.unique hlast'
      exact ⟨answer, hby, textOf_eq_ok_iff.mpr ⟨hstatus, body, hbody, rfl⟩⟩

theorem Undelivered.not_delivered (h : Undelivered net url) : ¬ Delivered net url text := by
  rintro ⟨last, answer, body, hlast, hby, hstatus, hbody, -⟩
  cases h with
  | invalid hinvalid =>
    obtain ⟨address, haddress, -⟩ := hlast
    cases haddress.symm.trans hinvalid
  | unanswered hlast' hnone =>
    obtain rfl := hlast.unique hlast'
    exact hnone answer hby
  | refused hlast' hby' hlow hhigh =>
    obtain rfl := hlast.unique hlast'
    obtain rfl := hby.unique hby'
    omega
  | unread hlast' hby' hbody' =>
    obtain rfl := hlast.unique hlast'
    obtain rfl := hby.unique hby'
    cases hbody.symm.trans hbody'

theorem downloaded_eq_error_iff :
    (∃ e, (downloaded net url).1 = .error e) ↔ Undelivered net url := by
  constructor
  · rintro ⟨e, herror⟩
    cases haddress : Url.parse url with
    | error e => exact .invalid haddress
    | ok address =>
      obtain ⟨last, hlast, -, hdownloaded⟩ := downloaded_spec haddress net
      have hnone : ∀ answer, net.AnsweredBy none last answer → ∀ text,
          textOf net answer ≠ .ok text := fun answer hby text htext =>
        nomatch herror.symm.trans ((hdownloaded text).mpr ⟨answer, hby, htext⟩)
      by_cases hanswered : ∃ answer, net.AnsweredBy none last answer
      · obtain ⟨answer, hby⟩ := hanswered
        by_cases hstatus : 400 ≤ answer.status ∧ answer.status ≤ 599
        · exact .refused hlast hby hstatus.1 hstatus.2
        · cases hbody : answer.body.outcome with
          | error e => exact .unread hlast hby hbody
          | ok body =>
            refine absurd (textOf_eq_ok_iff.mpr ⟨?_, body, hbody, rfl⟩) (hnone answer hby _)
            omega
      · exact .unanswered hlast (not_exists.mp hanswered)
  · intro h
    cases htext : (downloaded net url).1 with
    | error e => exact ⟨e, rfl⟩
    | ok text => exact absurd (downloaded_eq_ok_iff.mp htext) h.not_delivered

theorem undelivered_of_not_delivered (h : ∀ text, ¬ Delivered net url text) :
    Undelivered net url := by
  refine downloaded_eq_error_iff.mp ?_
  cases htext : (downloaded net url).1 with
  | error e => exact ⟨e, rfl⟩
  | ok text => exact absurd (downloaded_eq_ok_iff.mp htext) (h text)

end Downloading

/-- A request asks for an address, and presents what the address itself names as the user. -/
structure Asks (address : Url) (request : Request) : Prop where
  method : request.method = "GET"
  target : request.target = address.target
  authorization : request.authorization =
    (address.credentials?.map fun user => basicAuthorization user.1 user.2).toList

theorem requestFor_asks (address : Url) : Asks address (requestFor address) := by
  unfold requestFor
  cases hcredentials : address.credentials? with
  | none => exact ⟨rfl, rfl, by rw [hcredentials]; rfl⟩
  | some user => exact ⟨rfl, rfl, by rw [hcredentials]; rfl⟩

/-! ### Fetching -/

/-- What is made of a downloaded text: for the mesh's role its markers are put aside, for the
console's roles the version stands in place of every placeholder. -/
def Renders : ClusterRole → String → String → Prop
  | istio, template, rendered => rendered = Template.renderIstio template
  | kiali _, template, rendered =>
    ∃ pieces : List (List Char), (∀ p ∈ pieces, ¬ "$\x7bVERSION_LABEL\x7d".toList <:+: p) ∧
      template.toList = "$\x7bVERSION_LABEL\x7d".toList.intercalate pieces ∧
      rendered.toList = "0.10".toList.intercalate pieces

theorem renders_render (role : ClusterRole) (template : String) :
    role.Renders template (role.render template) := by
  cases role with
  | istio => rfl
  | kiali platform =>
    obtain ⟨piece, pieces, hpieces, htemplate, hrendered⟩ :=
      Template.renderKialiChars_spec template.toList
    exact ⟨piece :: pieces, hpieces, htemplate, String.toList_ofList.trans hrendered⟩

/-- What a fetched role is, from what was downloaded for it. -/
def fetched (role : ClusterRole) (url : String) :
    Except NetworkError String → Except Error Yaml.Value
  | .error e => .error (.roleFetch url e)
  | .ok text => (Yaml.Value.parse (role.render text)).mapError (.roleParse url)

theorem fetched_ne_roleUrlMissing (role : ClusterRole) (url what : String)
    (outcome : Except NetworkError String) :
    role.fetched url outcome ≠ .error (.roleUrlMissing what) := by
  cases outcome with
  | error e => simp [fetched]
  | ok text => simp [fetched, mapError_eq_error]

theorem fetched_ok_eq_ok_iff {role : ClusterRole} {url text : String}
    {v : Yaml.Value} :
    role.fetched url (.ok text) = .ok v ↔ Document (role.render text) v := by
  rw [← Yaml.Value.parse_eq_ok_iff, fetched, mapError_eq_ok]

theorem fetched_ok_eq_roleParse_iff {role : ClusterRole} {url text : String} :
    (∃ e, role.fetched url (.ok text) = .error (.roleParse url e)) ↔
      ¬ ∃ v, Document (role.render text) v := by
  simp only [← Yaml.Value.parse_eq_ok_iff, fetched]
  cases Yaml.Value.parse (role.render text) <;> simp [Except.mapError]

section Fetching

variable [DomainNames] {net : Network} {url : String} {role : ClusterRole} {env env' : Environment}

theorem exec_fetch_none (h : role.url? env = none) (w : World) :
    (role.fetch env).exec w = (.error (.roleUrlMissing role.name), w) := by
  unfold fetch
  rw [h]
  rfl

theorem exec_fetch_some (h : role.url? env = some url) (w : World) :
    (role.fetch env).exec w =
      (role.fetched url (downloaded w.network url).1,
        { w with
          network := (downloaded w.network url).2.2
          now := w.now + (downloaded w.network url).2.1 }) := by
  unfold fetch
  rw [h]
  dsimp only
  rw [Action.exec_bind, Action.exec_mapError, exec_download]
  cases (downloaded w.network url).1 with
  | error e => rfl
  | ok text =>
    dsimp only [Except.mapError, fetched]
    cases Yaml.Value.parse (role.render text) <;> rfl

/-- Two environments that name the same address for a role cannot be told apart by it. -/
theorem exec_fetch_congr (h : role.url? env' = role.url? env) (w : World) :
    (role.fetch env').exec w = (role.fetch env).exec w := by
  unfold fetch
  rw [h]

theorem fetched_eq_roleFetch_iff :
    (∃ e, role.fetched url (downloaded net url).1 = .error (.roleFetch url e)) ↔
      Undelivered net url := by
  rw [← downloaded_eq_error_iff]
  refine exists_congr fun e => ?_
  cases (downloaded net url).1 with
  | error e' => simp [fetched]
  | ok text => simp [fetched, mapError_eq_error]

/-- The one address that the environment names for a role decides, with what the network makes of
it: without one nothing is done; if no text comes from it, that is the error; if the rendered text
is no document, that is the error; else its value is the role. The first request made is for that
address; it is the only one exactly if the reply to it leads to no other address, or no reply may,
and what comes of it presents nothing to another server. Nothing else of the environment is of any
account. -/
theorem fetch_spec (role : ClusterRole) (env : Environment) (w : World) :
    let named (env : Environment) : Option String :=
      match role with
      | istio => env.istioRole
      | kiali .openshift => env.openshiftRole
      | kiali .kubernetes => env.kubernetesRole
    let run := (role.fetch env).exec w
    let net := w.network
    (run.1 = .error (.roleUrlMissing role.name) ↔ named env = none) ∧
    (∀ url, named env = some url →
      ((∃ e, run.1 = .error (.roleFetch url e)) ↔ Undelivered net url) ∧
      (¬ Undelivered net url → ∃ text, Delivered net url text ∧
        role.Renders text (role.render text) ∧
        ((∃ e, run.1 = .error (.roleParse url e)) ↔ ¬ ∃ v, Document (role.render text) v) ∧
        ∀ v, run.1 = .ok v ↔ Document (role.render text) v)) ∧
    ((∀ url address, named env = some url → Url.parse url ≠ .ok address) → run.2 = w) ∧
    (∀ url address, named env = some url → Url.parse url = .ok address →
      ∃ request last, Asks address request ∧
        net.Ends none net.redirects (net.first request) last ∧
        run.2.network = { net with requests := last.request :: last.before } ∧
        (run.2.network.requests = request :: net.requests ↔
          net.redirects = 0 ∨ ∀ next, ¬ net.LeadsTo none (net.first request) next) ∧
        (last.request.authorization = [] ∨ last.request.authorization = request.authorization ∧
          last.request.SameServer request)) ∧
    run.2 = { w with network := run.2.network, now := run.2.now } ∧
    ∀ env', named env' = named env → (role.fetch env').exec w = run := by
  intro named run net
  have hnamed : ∀ env, named env = role.url? env := by
    intro env
    cases role with
    | istio => rfl
    | kiali platform => cases platform <;> rfl
  simp only [hnamed]
  have hcongr : ∀ env', role.url? env' = role.url? env → (role.fetch env').exec w = run :=
    fun env' h => exec_fetch_congr h w
  cases hurl : role.url? env with
  | none =>
    have hrun : run = (.error (.roleUrlMissing role.name), w) := exec_fetch_none hurl w
    rw [hrun]
    refine ⟨by simp, nofun, fun _ => rfl, nofun, rfl, fun env' h => ?_⟩
    rw [hcongr env' (h.trans hurl.symm), hrun]
  | some url =>
    have hrun : run = (role.fetched url (downloaded w.network url).1, _) := exec_fetch_some hurl w
    refine ⟨?_, ?_, ?_, ?_, ?_, fun env' h => hcongr env' (h.trans hurl.symm)⟩
    · rw [hrun]
      simp [fetched_ne_roleUrlMissing]
    · rintro _ ⟨⟩
      rw [hrun]
      refine ⟨fetched_eq_roleFetch_iff, fun hdelivered => ?_⟩
      obtain ⟨text, htext⟩ : ∃ text, Delivered w.network url text :=
        not_forall_not.mp fun h => hdelivered (undelivered_of_not_delivered h)
      refine ⟨text, htext, role.renders_render text, ?_⟩
      rw [downloaded_eq_ok_iff.mpr htext]
      exact ⟨fetched_ok_eq_roleParse_iff, fun v => fetched_ok_eq_ok_iff⟩
    · intro hnone
      cases haddress : Url.parse url with
      | error e =>
        rw [hrun, downloaded, haddress]
        rfl
      | ok address => exact absurd haddress (hnone url address rfl)
    · rintro _ address ⟨⟩ haddress
      obtain ⟨last, hlast, hafter, -⟩ := downloaded_spec haddress net
      obtain ⟨other, hother, hends⟩ := hlast
      obtain rfl := Except.ok.inj (haddress.symm.trans hother)
      have hnet : run.2.network = { net with requests := last.request :: last.before } := by
        rw [hrun]
        exact hafter
      refine ⟨_, last, requestFor_asks address, hends, hnet, ?_,
        (Network.presents_of_reached hends.reached).2⟩
      rw [hnet]
      exact hends.requests_eq_iff
    · rw [hrun]

end Fetching

/-! ### Servers of roles -/

section Servers

attribute [local instance] DomainNames.plain

def templateUrl : String := "http://roles/kiali.yaml"

def template : String := "version: $\x7bVERSION_LABEL\x7d\n"

/-- A world whose server has one template and nothing else. -/
def templateWorld : World :=
  .ofReplies fun _ request =>
    if request.address.render = templateUrl then .plain 200 (Utf8.encodeString template)
    else .plain 404 []

/-- An environment that names the template for one platform and another text for the other. -/
def templateEnvironment : Environment :=
  { Environment.blank with
    password := some "secret"
    openshiftRole := some templateUrl
    kubernetesRole := some "http://roles/gone.yaml" }

/-- The text of the template has a value. -/
theorem exists_document : ∃ v, Document "version: 0.10\n" v := by
  have hread : (Yaml.Value.parse "version: 0.10\n").toOption.isSome = true := by
    decide +kernel
  cases hparse : Yaml.Value.parse "version: 0.10\n" with
  | error e => rw [hparse] at hread; cases hread
  | ok v => exact ⟨v, Yaml.Value.parse_eq_ok_iff.mp hparse⟩

/-- Of the three roles one has no address, one is there and one is not. -/
theorem fetch_spec_of_template :
    let fetch (role : ClusterRole) := (role.fetch templateEnvironment).exec templateWorld
    ((fetch .istio).1 = .error (.roleUrlMissing "istio") ∧ (fetch .istio).2 = templateWorld) ∧
    (∃ v, (fetch (.kiali .openshift)).1 = .ok v ∧ Document "version: 0.10\n" v) ∧
    ∃ e, (fetch (.kiali .kubernetes)).1 = .error (.roleFetch "http://roles/gone.yaml" e) := by
  intro fetch
  refine ⟨?_, ?_, ?_⟩
  · obtain ⟨hmissing, -, hidle, -⟩ := fetch_spec .istio templateEnvironment templateWorld
    exact ⟨hmissing.mpr rfl, hidle fun url address hnamed => nomatch hnamed⟩
  · obtain ⟨-, hasked, -⟩ :=
      fetch_spec (.kiali .openshift) templateEnvironment templateWorld
    have htemplate : (downloaded templateWorld.network templateUrl).1 = .ok template := by
      decide +kernel
    have hthere : ¬ Undelivered templateWorld.network templateUrl := fun h =>
      h.not_delivered (downloaded_eq_ok_iff.mp htemplate)
    obtain ⟨text, htext, -, -, hvalue⟩ := (hasked templateUrl rfl).2 hthere
    obtain rfl : text = template :=
      Except.ok.inj ((downloaded_eq_ok_iff.mpr htext).symm.trans htemplate)
    have hrendered : (kiali .openshift).render template = "version: 0.10\n" := by decide +kernel
    rw [hrendered] at hvalue
    obtain ⟨v, hv⟩ := exists_document
    exact ⟨v, (hvalue v).mpr hv, hv⟩
  · obtain ⟨-, hasked, -⟩ :=
      fetch_spec (.kiali .kubernetes) templateEnvironment templateWorld
    refine (hasked "http://roles/gone.yaml" rfl).1.mpr (downloaded_eq_error_iff.mp ?_)
    have hnone : (downloaded templateWorld.network "http://roles/gone.yaml").1 =
        .error (.status 404 "http://roles/gone.yaml") := by decide +kernel
    exact ⟨_, hnone⟩

/-- A world whose server gives the template with a status beyond those of errors. -/
def oddWorld : World :=
  .ofReplies fun _ _ => .plain 600 (Utf8.encodeString template)

/-- The address that the template was moved to. -/
def movedAddress : Url where
  scheme := .https
  username := []
  password := none
  host := .domain "elsewhere".toList
  port := none
  path := ["kiali.yaml".toList]
  query := none
  fragment := none

/-- A world in which the template has moved to another server. -/
def movedWorld : World :=
  .ofReplies fun _ request =>
    if request.address = movedAddress then .plain 200 (Utf8.encodeString template)
    else
      ⟨0, .ok { status := 301, location := some (.ok movedAddress), charset := none
                body := ⟨0, .ok []⟩ }⟩

/-- The role is fetched where its template is had. -/
theorem exec_fetch_of_text {w : World} {v : Yaml.Value}
    (h : (downloaded w.network templateUrl).1 = .ok template)
    (hv : Document "version: 0.10\n" v) :
    (((kiali .openshift).fetch templateEnvironment).exec w).1 = .ok v ∧
      (((kiali .openshift).fetch templateEnvironment).exec w).2.network =
        (downloaded w.network templateUrl).2.2 := by
  have hurl : (kiali .openshift).url? templateEnvironment = some templateUrl := rfl
  have hrendered : (kiali .openshift).render template = "version: 0.10\n" := by decide +kernel
  have hvalue : (kiali .openshift).fetched templateUrl (.ok template) = .ok v := by
    rw [fetched_ok_eq_ok_iff, hrendered]
    exact hv
  rw [exec_fetch_some hurl, h, hvalue]
  constructor
  · rfl
  · dsimp only

/-- A role that comes with a status of 600 is fetched for all that; and one that has moved is asked
for twice, the second time of another server. -/
theorem fetched_against_status_and_once :
    (∃ v, (((kiali .openshift).fetch templateEnvironment).exec oddWorld).1 = .ok v) ∧
    (∀ request, oddWorld.network.reply [] request = .plain 600 (Utf8.encodeString template)) ∧
    let run := ((kiali .openshift).fetch templateEnvironment).exec movedWorld
    (∃ v, run.1 = .ok v) ∧
    run.2.network.requests.map (·.address.render) =
      ["https://elsewhere/kiali.yaml", "http://roles/kiali.yaml"] := by
  obtain ⟨v, hv⟩ := exists_document
  have hodd : (downloaded oddWorld.network templateUrl).1 = .ok template := by decide +kernel
  have hmoved : (downloaded movedWorld.network templateUrl).1 = .ok template := by decide +kernel
  have hasked : (downloaded movedWorld.network templateUrl).2.2.requests.map (·.address.render) =
      ["https://elsewhere/kiali.yaml", "http://roles/kiali.yaml"] := by decide +kernel
  obtain ⟨hfetched, hnetwork⟩ := exec_fetch_of_text hmoved hv
  refine ⟨⟨v, (exec_fetch_of_text hodd hv).1⟩, fun _ => rfl, ⟨v, hfetched⟩, ?_⟩
  rw [hnetwork]
  exact hasked

end Servers

end ClusterRole

end MeshProbe
