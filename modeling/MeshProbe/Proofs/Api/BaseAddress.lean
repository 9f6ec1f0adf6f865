import MeshProbe.Proofs.Api.Address
import Mathlib

/-!
The address of the console, for every host name. One that names its scheme in lower case is the
address itself, and is read with the host that it names; one that names it in another letter case
is put behind a scheme, and the name of its own scheme is taken for the host.
-/

namespace MeshProbe

namespace Url

open Percent (isGraphic keepsSegment)

/-! ### An address behind the mark of its scheme -/

/-- What an address of a scheme begins with. -/
def Scheme.mark (scheme : Scheme) : List Char :=
  scheme.name.toList ++ "://".toList

theorem Scheme.mark_append (scheme : Scheme) (rest : List Char) :
    scheme.mark ++ rest = scheme.name.toList ++ ':' :: '/' :: '/' :: rest := by
  simp [Scheme.mark]

/-- What names user, host and port behind the mark: slashes in front of it do not count, and it
goes on to the next slash, question mark or number sign. -/
def authorityOf (rest : List Char) : List Char :=
  ((heardTail rest).dropWhile isSlash).takeWhile (!endsAuthority ·)

/-- What comes behind that. -/
def afterAuthority (rest : List Char) : List Char :=
  ((heardTail rest).dropWhile isSlash).dropWhile (!endsAuthority ·)

theorem isGraphic_append_slashes {text : List Char} (h : ∀ c ∈ text, isGraphic c = true) :
    ∀ c ∈ text ++ "://".toList, isGraphic c = true := by
  have hslashes : "://".toList.all isGraphic = true := rfl
  intro c hc
  rcases List.mem_append.mp hc with hc | hc
  · exact h c hc
  · exact List.all_eq_true.mp hslashes c hc

theorem clean_mark (scheme : Scheme) (rest : List Char) :
    clean (scheme.mark ++ rest) = scheme.mark ++ heardTail rest :=
  clean_append (by simp)
    (isGraphic_append_slashes (isGraphic_of_mem_name scheme)) rest

/-- An address is read under the scheme that it begins with. -/
theorem parseChars_mark [DomainNames] (scheme : Scheme) (rest : List Char) :
    parseChars (scheme.mark ++ rest) =
      assemble scheme (authorityOf rest) (afterAuthority rest) := by
  have hslashes : ('/' :: '/' :: heardTail rest).dropWhile isSlash =
      (heardTail rest).dropWhile isSlash := by
    rw [List.dropWhile_cons_of_pos (by decide), List.dropWhile_cons_of_pos (by decide)]
  rw [parseChars_eq, clean_mark, Scheme.mark_append, splitScheme_name]
  simp only [bind, Except.bind]
  rw [hslashes, authorityOf, afterAuthority]

/-- An address is of a scheme, and has the user, host and port that are named behind the mark. -/
structure NamedBy [DomainNames] (u : Url) (scheme : Scheme) (rest : List Char) : Prop where
  scheme_eq : u.scheme = scheme
  user : parseUserInfo (splitUser (authorityOf rest)).1 = (u.username, u.password)
  host : parseHostAndPort scheme (splitUser (authorityOf rest)).2 = .ok (u.host, u.port)

theorem namedBy_of_parse [DomainNames] {scheme : Scheme} {rest : List Char} {u : Url}
    (h : parseChars (scheme.mark ++ rest) = .ok u) : u.NamedBy scheme rest := by
  rw [parseChars_mark] at h
  obtain ⟨⟨host, port⟩, hhost, h⟩ := bind_eq_ok.mp h
  obtain rfl := Except.ok.inj h
  exact ⟨rfl, rfl, hhost⟩

/-! ### The name of a scheme in any letter case -/

theorem Scheme.map_toLower_name (scheme : Scheme) :
    scheme.name.toList.map Char.toLower = scheme.name.toList := by
  cases scheme <;> rfl

theorem inAuthority_of_inSegment {c : Char} (h : inSegment c = true) : inAuthority c = true := by
  simp only [inSegment, Percent.keepsPath, Percent.keepsFragment, Bool.and_eq_true,
    Bool.not_eq_true', List.contains_eq_mem, decide_eq_false_iff_not, List.mem_cons, not_or] at h
  simp [inAuthority, endsAuthority, h]

theorem inAuthority_of_isAlpha {c : Char} (h : c.isAlpha = true) : inAuthority c = true :=
  inAuthority_of_inSegment (inSegment_of_keepsSegment (keepsSegment_of_isAlpha h))

/-- The first colon outside of brackets ends a host. -/
theorem splitHost_append {host rest : List Char} (hcolon : ':' ∉ host) (hbracket : '[' ∉ host) :
    splitHost false (host ++ ':' :: rest) = (host, ':' :: rest) := by
  induction host with
  | nil => rfl
  | cons c host ih =>
    obtain ⟨hc, hcolon⟩ := not_or.mp (List.mem_cons.not.mp hcolon)
    obtain ⟨hc', hbracket⟩ := not_or.mp (List.mem_cons.not.mp hbracket)
    rw [List.cons_append, splitHost]
    simp [Ne.symm hc, Ne.symm hc', ih hcolon hbracket]

section
variable {scheme : Scheme} {spelled : List Char}
  (hspelled : spelled.map Char.toLower = scheme.name.toList)
include hspelled

theorem isAlpha_of_mem_spelled : ∀ c ∈ spelled, c.isAlpha = true := by
  have hname : scheme.name.toList.all Char.isAlpha = true := by cases scheme <;> rfl
  intro c hc
  have hmem : c.toLower ∈ scheme.name.toList := hspelled ▸ List.mem_map_of_mem hc
  rw [← Char.isAlpha_toLower_eq_isAlpha]
  exact List.all_eq_true.mp hname _ hmem

theorem not_mem_spelled {c : Char} (hc : c.isAlpha = false) : c ∉ spelled := fun hmem =>
  absurd (hc.symm.trans (isAlpha_of_mem_spelled hspelled c hmem)) (by decide)

theorem exists_cons_of_spelled : ∃ c rest, spelled = c :: rest := by
  refine List.exists_cons_of_ne_nil ?_
  rintro rfl
  cases scheme <;> exact absurd hspelled (by decide)

/-- Read as a host it is a domain. -/
theorem Host.parse_spelled [DomainNames] :
    Host.parse spelled = .ok (.domain scheme.name.toList) := by
  have halpha := isAlpha_of_mem_spelled hspelled
  have hdecode : Percent.decodeText spelled = Utf8.encode spelled := by
    have hkept : Percent.encode keepsSegment spelled = spelled :=
      Percent.encode_of_all fun c hc => keepsSegment_of_isAlpha (halpha c hc)
    exact (congrArg _ hkept.symm).trans (Percent.decodeText_encode faithful_keepsSegment spelled)
  have hascii : asciiDomain? spelled = some scheme.name.toList := by
    unfold asciiDomain?
    simp only [hspelled]
    cases scheme <;> rfl
  have hbracket : '[' ∉ spelled := not_mem_spelled hspelled (by decide)
  unfold Host.parse
  split
  · exact absurd List.mem_cons_self hbracket
  · rw [hdecode, Utf8.decode?_encode, Option.bind_some, hascii]
    cases scheme <;> rfl

/-- In the place of user, host and port it is the host, whose port is empty. -/
theorem authorityOf_spelled (rest : List Char) :
    authorityOf (spelled ++ "://".toList ++ rest) = spelled ++ [':'] := by
  have hplain : ∀ c ∈ spelled, inAuthority c = true := fun c hc =>
    inAuthority_of_isAlpha (isAlpha_of_mem_spelled hspelled c hc)
  have hgraphic : ∀ c ∈ spelled ++ "://".toList, isGraphic c = true :=
    isGraphic_append_slashes fun c hc => isGraphic_of_inAuthority (hplain c hc)
  have hstay : ∀ c ∈ spelled, (!endsAuthority c) = true := fun c hc => by
    simp [not_endsAuthority_of_inAuthority (hplain c hc)]
  have hslash : ∀ c ∈ spelled, isSlash c = false := fun c hc => by
    have hends := not_endsAuthority_of_inAuthority (hplain c hc)
    simp only [endsAuthority, Bool.or_eq_false_iff] at hends
    exact hends.1.1
  have hstart : (spelled ++ "://".toList ++ heardTail rest).dropWhile isSlash =
      spelled ++ ':' :: '/' :: '/' :: heardTail rest := by
    obtain ⟨c, front, rfl⟩ := exists_cons_of_spelled hspelled
    simp [hslash c List.mem_cons_self]
  have hends : endsAuthority ':' = false ∧ endsAuthority '/' = true := by decide
  rw [authorityOf, heardTail_append hgraphic, hstart, List.takeWhile_append_of_pos hstay]
  simp [hends]

theorem parseHostAndPort_spelled [DomainNames] (own : Scheme) :
    parseHostAndPort own (spelled ++ [':']) = .ok (.domain scheme.name.toList, none) := by
  have hsplit : splitHost false (spelled ++ [':']) = (spelled, [':']) :=
    splitHost_append (not_mem_spelled hspelled (by decide)) (not_mem_spelled hspelled (by decide))
  have hne : spelled ≠ [] := by
    obtain ⟨c, rest, rfl⟩ := exists_cons_of_spelled hspelled
    exact List.cons_ne_nil c rest
  unfold parseHostAndPort
  simp only [hsplit, if_neg hne, Host.parse_spelled hspelled]
  rfl

/-- Where it stands in the place of a host, it is the host: there is neither user nor port. -/
theorem parseChars_spelled [DomainNames] (own : Scheme) (rest : List Char) :
    ∃ u, parseChars (own.mark ++ (spelled ++ "://".toList ++ rest)) = .ok u ∧
      u.scheme = own ∧ u.host = .domain scheme.name.toList ∧ u.port = none ∧
      u.username = [] ∧ u.password = none := by
  have huser : splitUser (spelled ++ [':']) = ([], spelled ++ [':']) := by
    have hat : '@' ∉ spelled := not_mem_spelled hspelled (by decide)
    exact if_neg (by simpa using hat)
  rw [parseChars_mark, authorityOf_spelled hspelled, assemble, huser]
  simp only [parseHostAndPort_spelled hspelled]
  exact ⟨_, rfl, rfl, rfl, rfl, rfl, rfl⟩

end

end Url

namespace Environment

variable {env : Environment}

/-! ### The host name without slashes at its end -/

theorem trimmedHostname_eq (env : Environment) :
    env.trimmedHostname = env.hostname.toList.rdropWhile (· = '/') := rfl

theorem trimmedHostname_ne_nil (h : ∃ c ∈ env.hostname.toList, c ≠ '/') :
    env.trimmedHostname ≠ [] := by
  obtain ⟨c, hc, hne⟩ := h
  rw [trimmedHostname_eq, Ne, List.rdropWhile_eq_nil_iff]
  exact fun hall => hne (of_decide_eq_true (hall c hc))

theorem getLast_trimmedHostname (h : env.trimmedHostname ≠ []) :
    env.trimmedHostname.getLast h ≠ '/' := by
  have hlast := List.rdropWhile_last_not (· = '/') env.hostname.toList h
  exact fun hslash => hlast (decide_eq_true hslash)

theorem trimmedHostname_eq_self
    (h : ∀ hne : env.hostname.toList ≠ [], env.hostname.toList.getLast hne ≠ '/') :
    env.trimmedHostname = env.hostname.toList := by
  rw [trimmedHostname_eq, List.rdropWhile_eq_self_iff]
  simpa using h

/-! ### The address -/

/-- The scheme of an environment whose host name names none. -/
def ownScheme (env : Environment) : Url.Scheme :=
  if env.usesTls then .https else .http

theorem isPrefixOf_mark_iff {text : List Char} :
    ("http://".toList.isPrefixOf text || "https://".toList.isPrefixOf text) = true ↔
      ∃ (scheme : Url.Scheme) (rest : List Char), text = scheme.mark ++ rest := by
  have hhttp : "http://".toList = Url.Scheme.http.mark := by decide
  have hhttps : "https://".toList = Url.Scheme.https.mark := by decide
  rw [hhttp, hhttps, Bool.or_eq_true, List.isPrefixOf_iff_prefix, List.isPrefixOf_iff_prefix]
  constructor
  · rintro (⟨rest, h⟩ | ⟨rest, h⟩)
    · exact ⟨.http, rest, h.symm⟩
    · exact ⟨.https, rest, h.symm⟩
  · rintro ⟨scheme, rest, h⟩
    cases scheme with
    | http => exact Or.inl ⟨rest, h.symm⟩
    | https => exact Or.inr ⟨rest, h.symm⟩

theorem baseAddress_of_mark {scheme : Url.Scheme} {rest : List Char}
    (h : env.trimmedHostname = scheme.mark ++ rest) :
    env.baseAddress = String.ofList env.trimmedHostname :=
  if_pos (isPrefixOf_mark_iff.mpr ⟨scheme, rest, h⟩)

theorem baseAddress_of_no_mark
    (h : ∀ (scheme : Url.Scheme) rest, env.trimmedHostname ≠ scheme.mark ++ rest) :
    env.baseAddress =
      (if env.usesTls then "https://" else "http://") ++ String.ofList env.trimmedHostname := by
  refine if_neg fun hmark => ?_
  obtain ⟨scheme, rest, heq⟩ := isPrefixOf_mark_iff.mp hmark
  exact h scheme rest heq

theorem toList_baseAddress_of_no_mark
    (h : ∀ (scheme : Url.Scheme) rest, env.trimmedHostname ≠ scheme.mark ++ rest) :
    env.baseAddress.toList = env.ownScheme.mark ++ env.trimmedHostname := by
  rw [baseAddress_of_no_mark h, String.toList_append, String.toList_ofList, ownScheme]
  congr 1
  split_ifs <;> decide

/-- The address ends in the host name, and begins with the mark of a scheme. -/
theorem toList_baseAddress (env : Environment) :
    (∃ front, env.baseAddress.toList = front ++ env.trimmedHostname) ∧
      ∃ (scheme : Url.Scheme) (rest : List Char), env.baseAddress.toList = scheme.mark ++ rest := by
  by_cases h : ∃ (scheme : Url.Scheme) (rest : List Char),
      env.trimmedHostname = scheme.mark ++ rest
  · obtain ⟨scheme, rest, h⟩ := h
    rw [baseAddress_of_mark h, String.toList_ofList]
    exact ⟨⟨[], rfl⟩, scheme, rest, h⟩
  · push Not at h
    rw [toList_baseAddress_of_no_mark h]
    exact ⟨⟨_, rfl⟩, _, _, rfl⟩

/-- Taken for a host name, the address is its own address. -/
theorem baseAddress_of_baseAddress (h : ∃ c ∈ env.hostname.toList, c ≠ '/') :
    { env with hostname := env.baseAddress }.baseAddress = env.baseAddress := by
  obtain ⟨⟨front, hfront⟩, scheme, rest, hmark⟩ := env.toList_baseAddress
  have hne := trimmedHostname_ne_nil h
  have hlast : ∀ hne : env.baseAddress.toList ≠ [], env.baseAddress.toList.getLast hne ≠ '/' := by
    rw [hfront]
    intro hne'
    rw [List.getLast_append_of_ne_nil hne' hne]
    exact getLast_trimmedHostname hne
  have htrimmed : { env with hostname := env.baseAddress }.trimmedHostname =
      env.baseAddress.toList := trimmedHostname_eq_self hlast
  rw [baseAddress_of_mark (htrimmed.trans hmark), htrimmed, String.ofList_toList]

/-! ### The client of an address -/

section
variable {scheme : Url.Scheme} {spelled rest : List Char}

/-- The name of a scheme in another letter case begins no address. -/
theorem ne_mark_of_spelled (hspelled : spelled.map Char.toLower = scheme.name.toList)
    (hne : spelled ≠ scheme.name.toList) (other : Url.Scheme) (tail : List Char) :
    spelled ++ "://".toList ++ rest ≠ other.mark ++ tail := by
  have hfront {text : List Char} (htext : ':' ∉ text) (tail : List Char) :
      (text ++ ':' :: tail).takeWhile (· ≠ ':') = text := by
    have hstay : ∀ c ∈ text, decide (c ≠ ':') = true := fun c hc => decide_eq_true fun heq =>
      htext (heq ▸ hc)
    rw [List.takeWhile_append_of_pos hstay]
    simp
  have hcolon := Url.not_mem_spelled hspelled (show ':'.isAlpha = false by decide)
  have hcolon' := Url.not_mem_spelled other.map_toLower_name (show ':'.isAlpha = false by decide)
  intro heq
  rw [Url.Scheme.mark_append, List.append_assoc] at heq
  have hsame := congrArg (List.takeWhile (· ≠ ':')) heq
  obtain rfl : spelled = other.name.toList :=
    (hfront hcolon _).symm.trans (hsame.trans (hfront hcolon' _))
  exact hne (other.map_toLower_name.symm.trans hspelled)

/-- What becomes of it is another address, with its own scheme's name for the host. -/
theorem misread_of_spelled [DomainNames] (hspelled : spelled.map Char.toLower = scheme.name.toList)
    (hne : spelled ≠ scheme.name.toList)
    (h : env.trimmedHostname = spelled ++ "://".toList ++ rest) :
    env.baseAddress ≠ String.ofList env.trimmedHostname ∧
      ∃ client, Client.ofEnvironment env = .ok client ∧
        client.base.scheme = env.ownScheme ∧ client.base.host = .domain scheme.name.toList ∧
        client.base.port = none ∧ client.base.username = [] ∧ client.base.password = none := by
  have hmark : ∀ (other : Url.Scheme) tail, env.trimmedHostname ≠ other.mark ++ tail := by
    rw [h]
    exact ne_mark_of_spelled hspelled hne
  have haddress := toList_baseAddress_of_no_mark hmark
  constructor
  · intro heq
    rw [heq, String.toList_ofList] at haddress
    exact absurd (List.self_eq_append_left.mp haddress) (by simp [Url.Scheme.mark])
  · obtain ⟨base, hparse, hbase⟩ := Url.parseChars_spelled hspelled env.ownScheme rest
    have hread : Url.parse env.baseAddress = .ok base := by
      rw [Url.parse, haddress, h]
      exact hparse
    obtain ⟨client, hclient, rfl⟩ := Client.ofEnvironment_of_parse hread
    exact ⟨client, hclient, hbase⟩

end

/-- A host name that names a scheme in front of `://` is the console's address exactly when the
name is in lower case. The client's address is then that of the text itself: its scheme is the one
named, its user, host and port those named behind. In another letter case the client takes the
scheme's name for the host. The address of any other host name is the host name behind the scheme
that the environment asks for. Taken for a host name, an address is its own address. -/
theorem baseAddress_spec [DomainNames] (env : Environment)
    (h : ∃ c ∈ env.hostname.toList, c ≠ '/') :
    (∀ (scheme : Url.Scheme) spelled rest, spelled.map Char.toLower = scheme.name.toList →
      env.trimmedHostname = spelled ++ "://".toList ++ rest →
      (env.baseAddress = String.ofList env.trimmedHostname ↔ spelled = scheme.name.toList) ∧
      (spelled = scheme.name.toList → ∀ client, Client.ofEnvironment env = .ok client →
        Url.parse (String.ofList env.trimmedHostname) = .ok client.base ∧
          client.base.NamedBy scheme rest) ∧
      (spelled ≠ scheme.name.toList → ∃ client, Client.ofEnvironment env = .ok client ∧
        client.base.scheme = env.ownScheme ∧ client.base.host = .domain scheme.name.toList ∧
        client.base.port = none ∧ client.base.username = [] ∧ client.base.password = none)) ∧
    ((∀ (scheme : Url.Scheme) rest,
        env.trimmedHostname ≠ scheme.name.toList ++ "://".toList ++ rest) →
      env.baseAddress =
        (if env.usesTls then "https://" else "http://") ++ String.ofList env.trimmedHostname) ∧
    { env with hostname := env.baseAddress }.baseAddress = env.baseAddress := by
  refine ⟨?_, baseAddress_of_no_mark, baseAddress_of_baseAddress h⟩
  intro scheme spelled rest hspelled htext
  refine ⟨⟨?_, ?_⟩, ?_, ?_⟩
  · intro hkept
    by_contra hne
    exact (misread_of_spelled hspelled hne htext).1 hkept
  · rintro rfl
    exact baseAddress_of_mark htext
  · rintro rfl client hclient
    have hparse := Client.parse_of_ofEnvironment hclient
    rw [baseAddress_of_mark htext] at hparse
    refine ⟨hparse, Url.namedBy_of_parse ?_⟩
    rwa [Url.parse, String.toList_ofList, htext] at hparse
  · intro hne
    exact (misread_of_spelled hspelled hne htext).2

section BothCases

attribute [local instance] DomainNames.plain

/-- The console's address without TLS where TLS is asked for, and the same in capitals. -/
theorem baseAddress_spec_of_both_cases :
    let small := { Environment.blank with hostname := "http://h/", usesTls := true }
    let capital := { Environment.blank with hostname := "HTTP://h/", usesTls := true }
    (small.baseAddress = "http://h" ∧ ∃ client, Client.ofEnvironment small = .ok client ∧
      client.base.NamedBy .http ['h']) ∧
    capital.baseAddress ≠ "HTTP://h" ∧ ∃ client, Client.ofEnvironment capital = .ok client ∧
      client.base.scheme = .https ∧ client.base.host = .domain "http".toList := by
  intro small capital
  have hsmall : small.trimmedHostname = "http".toList ++ "://".toList ++ ['h'] := by decide
  have hcapital : capital.trimmedHostname = "HTTP".toList ++ "://".toList ++ ['h'] := by decide
  constructor
  · obtain ⟨hkept, hread, -⟩ :=
      (baseAddress_spec small ⟨'h', by decide, by decide⟩).1 .http _ _ (by decide) hsmall
    have haddress : small.baseAddress = "http://h" := (hkept.mpr rfl).trans (by rw [hsmall]; rfl)
    have hbare := Client.parse_of_ofEnvironment Client.ofEnvironment_bare
    have hsame : ({ Environment.blank with hostname := "h" } : Environment).baseAddress =
        small.baseAddress := by rw [haddress]; rfl
    obtain ⟨client, hclient, -⟩ := Client.ofEnvironment_of_parse (hsame ▸ hbare)
    exact ⟨haddress, client, hclient, (hread rfl client hclient).2⟩
  · obtain ⟨hkept, -, hmisread⟩ :=
      (baseAddress_spec capital ⟨'H', by decide, by decide⟩).1 .http _ _ (by decide) hcapital
    have hne : "HTTP".toList ≠ Url.Scheme.http.name.toList := by decide
    obtain ⟨client, hclient, hscheme, hhost, -⟩ := hmisread hne
    refine ⟨fun heq => hne (hkept.mp (heq.trans ?_)), client, hclient, hscheme, hhost⟩
    rw [hcapital]
    rfl

/-- A scheme in capitals is not kept: it becomes the name of the host. -/
theorem not_kept_in_capitals :
    let env := { Environment.blank with hostname := "HTTP://h" }
    env.trimmedHostname = "HTTP".toList ++ "://".toList ++ "h".toList ∧
      "HTTP".toList.map Char.toLower = Url.Scheme.http.name.toList ∧
      env.baseAddress = "http://HTTP://h" ∧ env.baseAddress ≠ String.ofList env.trimmedHostname ∧
      ∃ client, Client.ofEnvironment env = .ok client ∧
        client.base.host = .domain "http".toList := by
  intro env
  have htext : env.trimmedHostname = "HTTP".toList ++ "://".toList ++ "h".toList := by decide
  have hspelled : "HTTP".toList.map Char.toLower = Url.Scheme.http.name.toList := by decide
  obtain ⟨hne, client, hclient, -, hhost, -⟩ := misread_of_spelled hspelled (by decide) htext
  have haddress : env.baseAddress = "http://HTTP://h" := by
    rw [baseAddress_of_no_mark (htext ▸ ne_mark_of_spelled hspelled (by decide)), htext]
    rfl
  exact ⟨htext, hspelled, haddress, hne, client, hclient, hhost⟩

end BothCases

end Environment

end MeshProbe
