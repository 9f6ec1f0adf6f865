import MeshProbe.Proofs.Api.BaseAddress

/-!
What can keep a client or the address of an operation from being made, for every host name. The
console's address is always heard as one of a scheme of the web, so a client can only lack a
well-formed host or port; and once there is a client, an operation can only lack a value.
-/

namespace MeshProbe

namespace Url

/-! ### Why a text is refused -/

/-- Whether a text was refused for its scheme. -/
def ParseError.isOfScheme : ParseError → Bool
  | relative | schemeNotHttp => true
  | _ => false

theorem Host.parse_error [DomainNames] {text : List Char} {e : ParseError}
    (h : Host.parse text = .error e) : e.isOfScheme = false := by
  unfold Host.parse at h
  split at h
  · split_ifs at h
    · split at h
      · exact nomatch h
      · exact Except.error.inj h ▸ rfl
    · exact Except.error.inj h ▸ rfl
  · split at h
    · exact Except.error.inj h ▸ rfl
    · split_ifs at h
      · exact Except.error.inj h ▸ rfl
      · exact Except.error.inj h ▸ rfl
      · split at h
        · exact nomatch h
        · exact Except.error.inj h ▸ rfl

theorem parsePort_error {scheme : Scheme} {digits : List Char} {e : ParseError}
    (h : parsePort scheme digits = .error e) : e.isOfScheme = false := by
  unfold parsePort at h
  simp only at h
  split_ifs at h
  exact Except.error.inj h ▸ rfl

/-- Host and port can be refused in several ways, but not for the scheme. -/
theorem parseHostAndPort_error [DomainNames] {scheme : Scheme} {text : List Char} {e : ParseError}
    (h : parseHostAndPort scheme text = .error e) : e.isOfScheme = false := by
  unfold parseHostAndPort at h
  simp only at h
  split_ifs at h with hempty
  · rcases bind_eq_error.mp h with h | ⟨_, h, -⟩
    · exact Except.error.inj h ▸ rfl
    · exact nomatch h
  · rcases bind_eq_error.mp h with h | ⟨host, -, h⟩
    · exact Host.parse_error h
    · cases hrest : (splitHost false text).2 with
      | nil => simp [hrest, pure, Except.pure] at h
      | cons mark digits =>
        rw [hrest] at h
        rcases bind_eq_error.mp h with h | ⟨port, -, h⟩
        · exact parsePort_error h
        · exact nomatch h

/-- An address with the mark of a scheme is not refused for its scheme. -/
theorem parseChars_mark_error [DomainNames] {scheme : Scheme} {rest : List Char} {e : ParseError}
    (h : parseChars (scheme.mark ++ rest) = .error e) : e.isOfScheme = false := by
  rw [parseChars_mark] at h
  rcases bind_eq_error.mp h with h | ⟨found, -, h⟩
  · exact parseHostAndPort_error h
  · exact nomatch h

end Url

namespace Client

variable {env : Environment} {client : Client} {op : Operation} {path : List (String × String)}

/-- A client is refused for the host and the port of its address alone. -/
theorem ofEnvironment_error [DomainNames] {e : ApiError} (h : Client.ofEnvironment env = .error e) :
    ∃ reason, e = .invalidUrl env.baseAddress reason ∧ reason.isOfScheme = false := by
  obtain ⟨-, scheme, rest, hmark⟩ := env.toList_baseAddress
  cases hparse : Url.parse env.baseAddress with
  | ok base =>
    obtain ⟨client, hclient, -⟩ := ofEnvironment_of_parse hparse
    exact nomatch h.symm.trans hclient
  | error reason =>
    have hreason : Url.parseChars (scheme.mark ++ rest) = .error reason := hmark ▸ hparse
    refine ⟨reason, ?_, Url.parseChars_mark_error hreason⟩
    unfold Client.ofEnvironment at h
    simp only [hparse] at h
    exact (Except.error.inj h).symm

/-- For every host name: the console's address is heard as one of a scheme of the web. A client can
be refused for the host and the port of that address alone; its own address has that scheme and a
host, and can be extended. The address of an operation is refused exactly when a name of its
template has no value, and the error is then about the operation and such a name. -/
theorem url_refused_iff [DomainNames] (env : Environment) :
    (∃ (scheme : Url.Scheme) (rest : List Char),
      Url.clean env.baseAddress.toList = scheme.mark ++ rest ∧
      ∀ client, Client.ofEnvironment env = .ok client →
        client.base.scheme = scheme ∧ client.base.host.render ≠ [] ∧
          client.base.cannotBeABase = false) ∧
    (∀ e, Client.ofEnvironment env = .error e →
      ∃ reason, e = .invalidUrl env.baseAddress reason ∧ reason.isOfScheme = false) ∧
    ∀ client, Client.ofEnvironment env = .ok client → ∀ op path,
      ((∃ e, client.url op path = .error e) ↔
        ∃ name ∈ op.pathParameters, path.lookup name = none) ∧
      ∀ e, client.url op path = .error e →
        ∃ name ∈ op.pathParameters, path.lookup name = none ∧
          e = .missingParameter ⟨op, name⟩ := by
  refine ⟨?_, fun e => ofEnvironment_error, ?_⟩
  · obtain ⟨-, scheme, rest, hmark⟩ := env.toList_baseAddress
    refine ⟨scheme, Url.heardTail rest, by rw [hmark, Url.clean_mark], ?_⟩
    intro client hclient
    have hparse : Url.parseChars (scheme.mark ++ rest) = .ok client.base :=
      hmark ▸ parse_of_ofEnvironment hclient
    exact ⟨(Url.namedBy_of_parse hparse).scheme_eq, (base_apart hclient).host_ne_nil,
      Url.cannotBeABase_eq_false _⟩
  · intro client _ op path
    have hfails : ∀ e, client.url op path = .error e →
        ∃ name ∈ op.pathParameters, path.lookup name = none ∧
          e = .missingParameter ⟨op, name⟩ := by
      intro e he
      obtain ⟨name, hfirst, rfl⟩ := url_error_iff.mp he
      have hnone : path.lookup name = none := by simpa using List.find?_some hfirst
      exact ⟨name, List.mem_of_find?_eq_some hfirst, hnone, rfl⟩
    refine ⟨⟨?_, ?_⟩, hfails⟩
    · rintro ⟨e, he⟩
      obtain ⟨name, hname, hnone, -⟩ := hfails e he
      exact ⟨name, hname, hnone⟩
    · rintro ⟨name, hname, hnone⟩
      have hfound : (op.pathParameters.find? fun name => (path.lookup name).isNone).isSome :=
        List.find?_isSome.mpr ⟨name, hname, Option.isNone_iff_eq_none.mpr hnone⟩
      obtain ⟨first, hfirst⟩ := Option.isSome_iff_exists.mp hfound
      exact ⟨_, url_error_iff.mpr ⟨first, hfirst, rfl⟩⟩

section BareName

attribute [local instance] DomainNames.plain

/-- A bare host name, with both values that an operation wants and with one of them; and no host
name at all. -/
theorem url_refused_iff_of_bare_name :
    let bare := { Environment.blank with hostname := "h" }
    (∃ client, Client.ofEnvironment bare = .ok client ∧ client.base.cannotBeABase = false ∧
      client.url .appHealth [("namespace", "n")] =
        .error (.missingParameter ⟨.appHealth, "app"⟩) ∧
      ∃ u, client.url .appHealth [("namespace", "n"), ("app", "a")] = .ok u) ∧
    ∃ e reason, Client.ofEnvironment Environment.blank = .error e ∧
      e = .invalidUrl "http://" reason ∧ reason.isOfScheme = false := by
  intro bare
  obtain ⟨⟨scheme, rest, -, hbase⟩, -, hrefused⟩ := url_refused_iff bare
  have hclient : Client.ofEnvironment bare = .ok _ := ofEnvironment_bare
  have hnames : Operation.appHealth.pathParameters = ["namespace", "app"] := rfl
  refine ⟨⟨_, hclient, (hbase _ hclient).2.2, ?_, ?_⟩, ?_⟩
  · obtain ⟨hiff, hmissing⟩ := hrefused _ hclient .appHealth [("namespace", "n")]
    rw [hnames] at hiff hmissing
    obtain ⟨e, he⟩ := hiff.mpr ⟨"app", by decide, by decide⟩
    obtain ⟨name, hname, hnone, rfl⟩ := hmissing e he
    rcases List.mem_pair.mp hname with rfl | rfl
    · exact absurd hnone (by decide)
    · exact he
  · obtain ⟨hiff, -⟩ := hrefused _ hclient .appHealth [("namespace", "n"), ("app", "a")]
    rw [hnames] at hiff
    have hvalues : ¬ ∃ name ∈ ["namespace", "app"],
        List.lookup name [("namespace", "n"), ("app", "a")] = none := by decide
    cases hurl : url _ .appHealth [("namespace", "n"), ("app", "a")] with
    | ok u => exact ⟨u, rfl⟩
    | error e => exact absurd (hiff.mp ⟨e, hurl⟩) hvalues
  · have hparse : Url.parse Environment.blank.baseAddress = .error .emptyHost :=
      (Url.parseChars_mark .http []).trans rfl
    have herror : Client.ofEnvironment Environment.blank =
        .error (.invalidUrl Environment.blank.baseAddress .emptyHost) := by
      unfold Client.ofEnvironment
      simp only [hparse]
    obtain ⟨reason, he, hreason⟩ := (url_refused_iff Environment.blank).2.1 _ herror
    exact ⟨_, reason, herror, he, hreason⟩

end BareName

end Client

end MeshProbe
