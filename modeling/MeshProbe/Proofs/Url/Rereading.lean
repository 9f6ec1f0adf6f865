import MeshProbe.Proofs.Action
import MeshProbe.Proofs.Url.Path

/-!
Reading the text of an address again. Another path in an address that was read
changes nothing else in how the text reads: the host cannot be moved, no query
or fragment can begin early, and the path is read as it stands.
-/

namespace MeshProbe.Url

open Percent (isGraphic)

/-! ### What an address is written with -/

/-- Characters that may stand between the two slashes and the path. -/
def inAuthority (c : Char) : Bool :=
  isGraphic c && !endsAuthority c

/-- User information, host and port. -/
def authorityText (u : Url) : List Char :=
  u.renderUserInfo ++ u.host.render ++ u.renderPort

/-- What follows the path. -/
def renderTail (u : Url) : List Char :=
  u.renderQuery ++ u.renderFragment

/-- An address whose parts cannot run into each other. -/
structure Apart (u : Url) : Prop where
  authority : ∀ c ∈ u.authorityText, inAuthority c = true
  host_ne_nil : u.host.render ≠ []
  path_ne_nil : u.path ≠ []
  path_settled : ∀ segment ∈ u.path, Settled segment

theorem inAuthority_of_isEscape {c : Char} (hc : Percent.isEscape c = true) :
    inAuthority c = true :=
  Percent.of_isEscape (P := (inAuthority · = true)) (by decide) (by decide) hc

theorem inAuthority_of_mem_toDigits {base : Nat} (h1 : 1 < base) (h16 : base ≤ 16) {n : Nat} :
    ∀ c ∈ Nat.toDigits base n, inAuthority c = true := by
  have digits : ∀ d < 16, inAuthority d.digitChar = true := by decide
  induction n using Nat.strong_induction_on with
  | _ n ih =>
    by_cases hlt : n < base
    · rw [Nat.toDigits_of_lt_base hlt]
      simpa using digits n (by omega)
    · rw [Nat.toDigits_of_base_le h1 (by omega)]
      have hmod := Nat.mod_lt n (show 0 < base by omega)
      intro c hc
      rcases List.mem_append.mp hc with hc | hc
      · exact ih (n / base) (Nat.div_lt_self (by omega) h1) c hc
      · exact List.mem_singleton.mp hc ▸ digits _ (by omega)

theorem inAuthority_of_mem_intercalate {mark : Char} (hmark : inAuthority mark = true)
    {texts : List (List Char)} (h : ∀ text ∈ texts, ∀ c ∈ text, inAuthority c = true) :
    ∀ c ∈ [mark].intercalate texts, inAuthority c = true := by
  induction texts with
  | nil => simp [List.intercalate]
  | cons text texts ih =>
    obtain ⟨htext, htexts⟩ := List.forall_mem_cons.mp h
    cases texts with
    | nil => simpa [List.intercalate] using htext
    | cons next texts =>
      rw [List.intercalate_cons_cons]
      intro c hc
      simp only [List.mem_append, List.mem_singleton] at hc
      rcases hc with (hc | rfl) | hc
      · exact htext c hc
      · exact hmark
      · exact ih htexts c hc

theorem inAuthority_joinGroups (groups : List Nat) :
    ∀ c ∈ joinGroups groups, inAuthority c = true := by
  refine inAuthority_of_mem_intercalate (by decide) ?_
  intro text htext
  obtain ⟨g, -, rfl⟩ := List.mem_map.mp htext
  exact inAuthority_of_mem_toDigits (by decide) (by decide)

theorem inAuthority_renderGroups (groups : List Nat) :
    ∀ c ∈ Host.renderGroups groups, inAuthority c = true := by
  unfold Host.renderGroups
  simp only
  split_ifs
  · exact inAuthority_joinGroups groups
  · intro c hc
    simp only [List.mem_append, List.mem_cons] at hc
    rcases hc with hc | rfl | rfl | hc
    · exact inAuthority_joinGroups _ c hc
    · decide
    · decide
    · exact inAuthority_joinGroups _ c hc

theorem inAuthority_of_not_forbidden {c : Char} (h : isForbiddenInDomain c = false) :
    inAuthority c = true := by
  simp only [isForbiddenInDomain, Bool.or_eq_false_iff, Bool.not_eq_false', List.contains_eq_mem,
    decide_eq_false_iff_not, List.mem_cons, not_or] at h
  simp [inAuthority, endsAuthority, isSlash, h]

theorem Host.inAuthority_render_of_numeric {host : Host} (h : ∀ name, host ≠ .domain name) :
    (∀ c ∈ host.render, inAuthority c = true) ∧ host.render ≠ [] := by
  cases host with
  | domain name => exact absurd rfl (h name)
  | ipv4 n =>
    constructor
    · refine inAuthority_of_mem_intercalate (by decide) ?_
      intro text htext
      obtain ⟨part, -, rfl⟩ := List.mem_map.mp htext
      exact inAuthority_of_mem_toDigits (by decide) (by decide)
    · simp [Host.render, List.intercalate_cons_cons]
  | ipv6 groups =>
    constructor
    · intro c hc
      simp only [Host.render, List.cons_append, List.mem_cons, List.mem_append,
        List.not_mem_nil, or_false] at hc
      rcases hc with rfl | hc | rfl
      · decide
      · exact inAuthority_renderGroups groups c hc
      · decide
    · simp [Host.render]

/-- A host that was read is written in characters of its own and not empty. -/
theorem Host.parse_spec [DomainNames] {text : List Char} {host : Host}
    (h : Host.parse text = .ok host) :
    (∀ c ∈ host.render, inAuthority c = true) ∧ host.render ≠ [] := by
  by_cases hname : ∀ name, host ≠ .domain name
  · exact Host.inAuthority_render_of_numeric hname
  · push Not at hname
    obtain ⟨name, rfl⟩ := hname
    unfold Host.parse at h
    split at h
    · split_ifs at h
      split at h <;> exact absurd h (by simp)
    · split at h
      · exact absurd h (by simp)
      · split_ifs at h with hforbidden hnil hnumber
        · split at h <;> exact absurd h (by simp)
        · obtain rfl : _ = name := by simpa using h
          refine ⟨fun c hc => inAuthority_of_not_forbidden ?_, hnil⟩
          rw [List.any_eq_true] at hforbidden
          push Not at hforbidden
          simpa using hforbidden c hc

theorem inAuthority_of_keepsUserInfo {c : Char} (hc : Percent.keepsUserInfo c = true) :
    inAuthority c = true := by
  simp only [Percent.keepsUserInfo, Percent.keepsPath, Percent.keepsFragment, Bool.and_eq_true,
    Bool.not_eq_true', List.contains_eq_mem, decide_eq_false_iff_not, List.mem_cons, not_or] at hc
  simp [inAuthority, endsAuthority, isSlash, hc]

/-- User name and password that were read are written in characters of their own. -/
theorem parseUserInfo_spec {text name : List Char} {password : Option (List Char)}
    (h : parseUserInfo text = (name, password)) :
    (∀ c ∈ name, inAuthority c = true) ∧
    ∀ word, password = some word → ∀ c ∈ word, inAuthority c = true := by
  have encoded (raw : List Char) :
      ∀ c ∈ Percent.encode Percent.keepsUserInfo raw, inAuthority c = true :=
    Percent.forall_mem_encode (fun _ => inAuthority_of_keepsUserInfo)
      (fun _ => inAuthority_of_isEscape)
  unfold parseUserInfo at h
  simp only at h
  split at h <;> obtain ⟨rfl, rfl⟩ := Prod.mk.inj h
  · exact ⟨encoded _, fun word hword => Option.some.inj hword ▸ encoded _⟩
  · exact ⟨encoded _, by simp⟩

theorem inAuthority_renderUserInfo {u : Url} (hname : ∀ c ∈ u.username, inAuthority c = true)
    (hpassword : ∀ word, u.password = some word → ∀ c ∈ word, inAuthority c = true) :
    ∀ c ∈ u.renderUserInfo, inAuthority c = true := by
  intro c hc
  unfold renderUserInfo at hc
  cases hp : u.password with
  | none =>
    rw [hp] at hc
    cases hn : u.username with
    | nil => simp [hn] at hc
    | cons a rest =>
      simp only [hn, List.mem_append, List.mem_singleton] at hc
      rcases hc with hc | rfl
      · exact hname c (hn ▸ hc)
      · decide
  | some word =>
    simp only [hp, List.mem_append, List.mem_cons, List.not_mem_nil, or_false] at hc
    rcases hc with (hc | rfl | hc) | rfl
    · exact hname c hc
    · decide
    · exact hpassword word hp c hc
    · decide

theorem inAuthority_renderPort (u : Url) : ∀ c ∈ u.renderPort, inAuthority c = true := by
  intro c hc
  unfold renderPort at hc
  cases hp : u.port with
  | none => simp [hp] at hc
  | some p =>
    simp only [hp, List.mem_cons] at hc
    rcases hc with rfl | hc
    · decide
    · exact inAuthority_of_mem_toDigits (by decide) (by decide) c hc

theorem parseHostAndPort_host [DomainNames] {scheme : Scheme} {text : List Char} {host : Host}
    {port : Option Nat} (h : parseHostAndPort scheme text = .ok (host, port)) :
    ∃ hostText, Host.parse hostText = .ok host := by
  unfold parseHostAndPort at h
  simp only at h
  split_ifs at h with hempty
  · exact absurd h (by simp [bind, Except.bind, throw, throwThe, MonadExceptOf.throw])
  · obtain ⟨found, hfound, h⟩ := bind_eq_ok.mp h
    refine ⟨_, hfound.trans (congrArg Except.ok ?_)⟩
    cases hrest : (splitHost false text).2 with
    | nil =>
      rw [hrest] at h
      exact (Prod.mk.inj (Except.ok.inj h)).1
    | cons mark digits =>
      rw [hrest] at h
      obtain ⟨number, -, h⟩ := bind_eq_ok.mp h
      exact (Prod.mk.inj (Except.ok.inj h)).1

/-! ### Reading in two parts -/

/-- The user information and the host of what stands in front of the path. -/
def splitUser (authority : List Char) : List Char × List Char :=
  if authority.contains '@' then
    let hostText := (authority.reverse.takeWhile (· ≠ '@')).reverse
    (authority.take (authority.length - hostText.length - 1), hostText)
  else ([], authority)

/-- The address of a scheme, of what stands in front of the path and of the text from the path
on. -/
def assemble [DomainNames] (scheme : Scheme) (authority after : List Char) :
    Except ParseError Url := do
  let (host, port) ← parseHostAndPort scheme (splitUser authority).2
  return { scheme, host, port
           username := (parseUserInfo (splitUser authority).1).1
           password := (parseUserInfo (splitUser authority).1).2
           path := parsePath ((after.takeWhile (· ≠ '#')).takeWhile (· ≠ '?'))
           query := parseQuery ((after.takeWhile (· ≠ '#')).dropWhile (· ≠ '?'))
           fragment := parseFragment (after.dropWhile (· ≠ '#')) }

theorem parseChars_eq [DomainNames] (text : List Char) :
    parseChars text = splitScheme (clean text) >>= fun (scheme, rest) =>
      assemble scheme ((rest.dropWhile isSlash).takeWhile (!endsAuthority ·))
        ((rest.dropWhile isSlash).dropWhile (!endsAuthority ·)) := by
  unfold parseChars assemble splitUser
  congr 1
  funext ⟨scheme, rest⟩
  simp only [List.span_eq_takeWhile_dropWhile]

/-- An address that was read keeps its parts apart. -/
theorem assemble_apart [DomainNames] {scheme : Scheme} {authority after : List Char} {u : Url}
    (h : assemble scheme authority after = .ok u) : Apart u := by
  obtain ⟨⟨host, port⟩, hhost, h⟩ := bind_eq_ok.mp h
  obtain rfl := Except.ok.inj h
  obtain ⟨hostText, hparsed⟩ := parseHostAndPort_host hhost
  obtain ⟨hhost, hnil⟩ := Host.parse_spec hparsed
  obtain ⟨hname, hpassword⟩ := parseUserInfo_spec
    (Prod.mk.eta (p := parseUserInfo (splitUser authority).1)).symm
  obtain ⟨hpath, hsettled⟩ := parsePath_settled ((after.takeWhile (· ≠ '#')).takeWhile (· ≠ '?'))
  refine ⟨?_, hnil, hpath, hsettled⟩
  intro c hc
  rcases List.mem_append.mp hc with hc | hc
  · rcases List.mem_append.mp hc with hc | hc
    · exact inAuthority_renderUserInfo hname hpassword c hc
    · exact hhost c hc
  · exact inAuthority_renderPort _ c hc

theorem parse_apart [DomainNames] {text : String} {u : Url} (h : parse text = .ok u) : Apart u := by
  rw [parse, parseChars_eq] at h
  obtain ⟨⟨scheme, rest⟩, -, h⟩ := bind_eq_ok.mp h
  exact assemble_apart h

/-! ### Reading a path that was written -/

theorem splitSlashes_append {segment : List Char} (h : ∀ c ∈ segment, isSlash c = false)
    {rest : List Char} {part : List Char} {others : List (List Char)}
    (hrest : splitSlashes rest = part :: others) :
    splitSlashes (segment ++ rest) = (segment ++ part) :: others := by
  induction segment with
  | nil => exact hrest
  | cons c segment ih =>
    obtain ⟨hc, hsegment⟩ := List.forall_mem_cons.mp h
    rw [List.cons_append, splitSlashes, if_neg (by simp [hc]), ih hsegment]
    rfl

theorem splitSlashes_intercalate {path : List (List Char)} (hne : path ≠ [])
    (h : ∀ segment ∈ path, ∀ c ∈ segment, isSlash c = false) :
    splitSlashes (['/'].intercalate path) = path := by
  induction path with
  | nil => exact absurd rfl hne
  | cons segment path ih =>
    obtain ⟨hsegment, hpath⟩ := List.forall_mem_cons.mp h
    cases path with
    | nil =>
      have hend : splitSlashes [] = [] :: [] := rfl
      simpa [List.intercalate] using splitSlashes_append hsegment hend
    | cons next path =>
      have hslash : splitSlashes ('/' :: ['/'].intercalate (next :: path)) =
          [] :: next :: path := by
        rw [splitSlashes, if_pos (by decide), ih (by simp) hpath]
      have := splitSlashes_append hsegment hslash
      rw [List.intercalate_cons_cons]
      simpa using this

theorem keepsPath_of_inSegment {c : Char} (h : inSegment c = true) :
    Percent.keepsPath c = true := by
  simp only [inSegment, Bool.and_eq_true] at h
  exact h.1

theorem not_isSlash_of_inSegment {c : Char} (h : inSegment c = true) : isSlash c = false := by
  simp only [inSegment, Bool.and_eq_true, Bool.not_eq_true'] at h
  exact h.2

/-- Settled segments are left as they are. -/
theorem resolvePath_of_settled {path : List (List Char)} (hne : path ≠ [])
    (h : ∀ segment ∈ path, Settled segment) (before : List (List Char)) :
    resolvePath before path = before ++ path := by
  induction path generalizing before with
  | nil => exact absurd rfl hne
  | cons segment path ih =>
    obtain ⟨hsegment, hpath⟩ := List.forall_mem_cons.mp h
    cases path with
    | nil => simp [resolvePath, finishPath, hsegment.single, hsegment.double]
    | cons next path =>
      rw [resolvePath, ih (by simp) hpath]
      · simp [enterSegment, hsegment.single, hsegment.double]
      · simp

theorem parsePath_renderPath {path : List (List Char)} (hne : path ≠ [])
    (h : ∀ segment ∈ path, Settled segment) : parsePath (renderPath path) = path := by
  obtain ⟨segment, rest, rfl⟩ := List.exists_cons_of_ne_nil hne
  have hencode : (segment :: rest).map (Percent.encode Percent.keepsPath) = segment :: rest := by
    rw [List.map_congr_left (g := id), List.map_id]
    exact fun s hs => Percent.encode_of_all fun c hc => keepsPath_of_inSegment ((h s hs).kept c hc)
  rw [renderPath_cons, parsePath]
  simp only [show isSlash '/' = true from by decide, if_true]
  rw [splitSlashes_intercalate hne fun s hs c hc => not_isSlash_of_inSegment ((h s hs).kept c hc),
    hencode, resolvePath_of_settled hne h]
  rfl

/-! ### Reading an address that was written -/

/-- The text without blanks at its end and without characters that never count. -/
def heardTail (text : List Char) : List Char :=
  (text.reverse.dropWhile (· ≤ ' ')).reverse.filter (!isIgnored ·)

theorem not_isIgnored_of_isGraphic {c : Char} (h : isGraphic c = true) : isIgnored c = false := by
  by_contra hc
  simp only [Bool.not_eq_false, isIgnored, Bool.or_eq_true, decide_eq_true_eq] at hc
  rcases hc with (rfl | rfl) | rfl <;> exact absurd h (by decide)

theorem not_le_blank_of_isGraphic {c : Char} (h : isGraphic c = true) : ¬ c ≤ ' ' := by
  simp only [isGraphic, Bool.and_eq_true, decide_eq_true_eq] at h
  exact fun hle => absurd (show c.toNat ≤ 32 from hle) (by omega)

theorem dropWhile_blank {text : List Char} (h : ∀ c ∈ text, isGraphic c = true) :
    text.dropWhile (· ≤ ' ') = text := by
  cases text with
  | nil => rfl
  | cons c text =>
    have hc := not_le_blank_of_isGraphic (h c List.mem_cons_self)
    simp [hc]

theorem heardTail_append {text : List Char} (h : ∀ c ∈ text, isGraphic c = true)
    (tail : List Char) : heardTail (text ++ tail) = text ++ heardTail tail := by
  have hreverse : text.reverse.dropWhile (· ≤ ' ') = text.reverse :=
    dropWhile_blank fun c hc => h c (List.mem_reverse.mp hc)
  have hfilter : text.filter (!isIgnored ·) = text :=
    List.filter_eq_self.mpr fun c hc => by simp [not_isIgnored_of_isGraphic (h c hc)]
  unfold heardTail
  rw [List.reverse_append, List.dropWhile_append, hreverse]
  split_ifs with hempty
  · rw [List.isEmpty_iff] at hempty
    simp [hempty, hfilter]
  · simp [hfilter]

theorem clean_append {text : List Char} (hne : text ≠ []) (h : ∀ c ∈ text, isGraphic c = true)
    (tail : List Char) : clean (text ++ tail) = text ++ heardTail tail := by
  have hstart : (text ++ tail).dropWhile (· ≤ ' ') = text ++ tail := by
    rw [List.dropWhile_append, dropWhile_blank h]
    simp [hne]
  rw [← heardTail_append h, clean, hstart, heardTail]

/-- The text behind a path is empty or begins a query or a fragment. -/
theorem heardTail_cases (u : Url) :
    heardTail u.renderTail = [] ∨
    ∃ mark rest, heardTail u.renderTail = mark :: rest ∧ (mark = '?' ∨ mark = '#') := by
  have begun {mark : Char} (hmark : isGraphic mark = true) (rest : List Char) :
      heardTail (mark :: rest) = mark :: heardTail rest := by
    have hmarks : ∀ c ∈ [mark], isGraphic c = true := by simpa using hmark
    exact heardTail_append hmarks rest
  unfold renderTail renderQuery renderFragment
  cases u.query with
  | some q => exact Or.inr ⟨_, _, begun (by decide) _, Or.inl rfl⟩
  | none =>
    cases u.fragment with
    | some f => exact Or.inr ⟨_, _, begun (by decide) _, Or.inr rfl⟩
    | none => exact Or.inl rfl

theorem isGraphic_of_inAuthority {c : Char} (h : inAuthority c = true) : isGraphic c = true := by
  simp only [inAuthority, Bool.and_eq_true] at h
  exact h.1

theorem not_endsAuthority_of_inAuthority {c : Char} (h : inAuthority c = true) :
    endsAuthority c = false := by
  simp only [inAuthority, Bool.and_eq_true, Bool.not_eq_true'] at h
  exact h.2

theorem isGraphic_of_inSegment {c : Char} (h : inSegment c = true) : isGraphic c = true := by
  simp only [inSegment, Percent.keepsPath, Percent.keepsFragment, Bool.and_eq_true] at h
  exact h.1.1.1

theorem mem_renderPath {path : List (List Char)} (h : ∀ segment ∈ path, Settled segment) :
    ∀ c ∈ renderPath path, c = '/' ∨ inSegment c = true := by
  intro c hc
  obtain ⟨segment, hsegment, hc⟩ := List.mem_flatMap.mp hc
  exact (List.mem_cons.mp hc).imp_right ((h segment hsegment).kept c)

theorem splitScheme_name (scheme : Scheme) (rest : List Char) :
    splitScheme (scheme.name.toList ++ ':' :: rest) = .ok (scheme, rest) := by
  cases scheme
  · rfl
  · rfl

theorem isGraphic_of_mem_name (scheme : Scheme) :
    ∀ c ∈ scheme.name.toList, isGraphic c = true := by
  have hall : scheme.name.toList.all isGraphic = true := by
    cases scheme
    · rfl
    · rfl
  exact List.all_eq_true.mp hall

/-- An address is read from its own text part by part. -/
theorem parseChars_chars [DomainNames] {u : Url} (h : Apart u) :
    parseChars u.chars =
      assemble u.scheme u.authorityText (renderPath u.path ++ heardTail u.renderTail) := by
  obtain ⟨segment, path, hpath⟩ := List.exists_cons_of_ne_nil h.path_ne_nil
  obtain ⟨first, others, hfirst⟩ : ∃ first others, u.authorityText = first :: others :=
    List.exists_cons_of_ne_nil (by simp [authorityText, h.host_ne_nil])
  have hgraphic : ∀ c ∈ u.scheme.name.toList ++ ':' :: '/' :: '/' :: u.authorityText ++
      renderPath u.path, isGraphic c = true := by
    intro c hc
    simp only [List.mem_append, List.mem_cons] at hc
    rcases hc with (hc | rfl | rfl | rfl | hc) | hc
    · exact isGraphic_of_mem_name _ c hc
    · decide
    · decide
    · decide
    · exact isGraphic_of_inAuthority (h.authority c hc)
    · rcases mem_renderPath h.path_settled c hc with rfl | hc
      · decide
      · exact isGraphic_of_inSegment hc
  have hchars : u.chars = (u.scheme.name.toList ++ ':' :: '/' :: '/' :: u.authorityText ++
      renderPath u.path) ++ u.renderTail := by
    simp [chars, renderOrigin, renderTail, authorityText]
  have hstay : ∀ c ∈ u.authorityText, (!endsAuthority c) = true := fun c hc => by
    simp [not_endsAuthority_of_inAuthority (h.authority c hc)]
  have hslash : ('/' :: '/' :: (u.authorityText ++ (renderPath u.path ++
      heardTail u.renderTail))).dropWhile isSlash =
      u.authorityText ++ (renderPath u.path ++ heardTail u.renderTail) := by
    have hnot : isSlash first = false := by
      have := not_endsAuthority_of_inAuthority (h.authority first (hfirst ▸ List.mem_cons_self))
      simp only [endsAuthority, Bool.or_eq_false_iff] at this
      exact this.1.1
    rw [List.dropWhile_cons_of_pos (by decide), List.dropWhile_cons_of_pos (by decide), hfirst,
      List.cons_append, List.dropWhile_cons_of_neg (by simp [hnot])]
  have hend : endsAuthority '/' = true := by decide
  rw [parseChars_eq, hchars, clean_append (by simp) hgraphic]
  simp only [List.append_assoc, List.cons_append]
  rw [splitScheme_name]
  simp only [bind, Except.bind]
  rw [hslash, List.takeWhile_append_of_pos hstay, List.dropWhile_append_of_pos hstay, hpath,
    renderPath_cons]
  simp [hend]

/-- Whatever is read around a path does not depend on the path. -/
theorem assemble_path [DomainNames] (scheme : Scheme) (authority : List Char)
    {path : List (List Char)} {tail : List Char} (hpath : path ≠ [])
    (hsettled : ∀ segment ∈ path, Settled segment)
    (htail : tail = [] ∨ ∃ mark rest, tail = mark :: rest ∧ (mark = '?' ∨ mark = '#')) :
    assemble scheme authority (renderPath path ++ tail) =
      (assemble scheme authority tail).map fun u => { u with path := path } := by
  have hother {mark : Char} (hslash : mark ≠ '/') (hmark : inSegment mark = false) :
      ∀ c ∈ renderPath path, decide (c ≠ mark) = true := by
    intro c hc
    rw [decide_eq_true_iff]
    rintro rfl
    rcases mem_renderPath hsettled _ hc with hc | hc
    · exact hslash hc
    · exact absurd (hmark.symm.trans hc) (by decide)
  have hhash : ∀ c ∈ renderPath path, decide (c ≠ '#') = true := hother (by decide) (by decide)
  have hquestion : ∀ c ∈ renderPath path, decide (c ≠ '?') = true :=
    hother (by decide) (by decide)
  have hnone : (tail.takeWhile (· ≠ '#')).takeWhile (· ≠ '?') = [] := by
    rcases htail with rfl | ⟨mark, rest, rfl, rfl | rfl⟩ <;> simp
  unfold assemble
  rw [List.takeWhile_append_of_pos hhash, List.takeWhile_append_of_pos hquestion,
    List.dropWhile_append_of_pos hhash, List.dropWhile_append_of_pos hquestion, hnone,
    List.append_nil, parsePath_renderPath hpath hsettled]
  cases parseHostAndPort scheme (splitUser authority).2 with
  | error e => rfl
  | ok found => rfl

theorem extendPath_apart {base : Url} (h : Apart base) (values : List (List Char)) :
    Apart (base.extendPath values) where
  authority := h.authority
  host_ne_nil := h.host_ne_nil
  path_ne_nil := foldl_pushSegment_ne_nil (dropTrailingEmpty_ne_nil h.path_ne_nil) values
  path_settled := foldl_pushSegment_settled
    (fun _ hs => h.path_settled _ (mem_dropTrailingEmpty hs)) values

/-- Two addresses that differ in their paths alone are read back with nothing but the path
different. -/
theorem parse_render_of_path [DomainNames] {base u : Url} (hbase : Apart base) (hu : Apart u)
    (h : u = { base with path := u.path }) :
    parse u.render = (parse base.render).map fun b => { b with path := u.path } := by
  have hauthority : u.authorityText = base.authorityText := by rw [h]; rfl
  have htail : u.renderTail = base.renderTail := by rw [h]; rfl
  have hscheme : u.scheme = base.scheme := by rw [h]
  rw [parse, parse, render, render, String.toList_ofList, String.toList_ofList,
    parseChars_chars hbase, parseChars_chars hu, hauthority, htail, hscheme,
    assemble_path _ _ hbase.path_ne_nil hbase.path_settled (heardTail_cases base),
    assemble_path _ _ hu.path_ne_nil hu.path_settled (heardTail_cases base)]
  cases assemble base.scheme base.authorityText (heardTail base.renderTail) with
  | error e => rfl
  | ok b => rfl

end MeshProbe.Url
