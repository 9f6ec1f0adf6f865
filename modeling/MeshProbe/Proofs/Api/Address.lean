import MeshProbe.Api.Client
import MeshProbe.Proofs.Api.Template
import MeshProbe.Proofs.Url.Rereading

/-!
The addresses of operations. Whatever values a path is made with, the address
differs from the client's own in its path alone. Each value is a segment of that
path and decodes to itself, except for what the address format itself takes for
a step in the path: such a value moves the segments behind it, and the
address then names something other than the operation.
-/

namespace MeshProbe

namespace Url

/-- Behind the scheme of an address stand two slashes. -/
theorem cannotBeABase_eq_false (u : Url) : u.cannotBeABase = false := by
  obtain ⟨rest, hrest⟩ : ∃ rest, u.chars = (u.scheme.name.toList ++ [':']) ++ '/' :: rest := by
    refine ⟨'/' :: u.authorityText ++ renderPath u.path ++ u.renderTail, ?_⟩
    simp [chars, renderOrigin, authorityText, renderTail]
  have hlength : (u.scheme.name.toList ++ [':']).length = u.scheme.name.length + 1 := by
    rw [List.length_append, String.length_toList, List.length_singleton]
  rw [cannotBeABase, hrest, List.drop_left' hlength]
  rfl

/-- The segments of an address's path as they stand in its text. -/
def pathParts (u : Url) : List (List Char) :=
  parts (renderPath u.path)

theorem Apart.pathParts {u : Url} (h : Apart u) : u.pathParts = u.path :=
  parts_renderPath h.path_ne_nil fun _ hs => not_slash_of_inSegment (h.path_settled _ hs).kept

/-- What added segments come behind: all parts but an empty one at the end. Of the path of two
slashes, which has an empty part in front of that one, none is left. -/
def groundParts (base : Url) : List (List Char) :=
  if base.pathParts = [[], []] then [] else withoutTrailingEmpty base.pathParts

end Url

namespace Operation

/-- Every template begins below the interface's root. -/
theorem template_eq_cons (op : Operation) : ∃ rest, op.template = .literal "api" :: rest := by
  cases op <;> exact ⟨_, rfl⟩

/-- Whether a literal is written in a path as it is; a placeholder is no text at all. -/
def standsForItself : TemplateSegment → Bool
  | .literal text =>
    decide (Url.heard text.toList = text.toList ∧ Url.written text.toList = text.toList)
  | .placeholder _ => true

/-- Whether a literal is made of small letters and underscores. -/
def isWord : TemplateSegment → Bool
  | .literal text => text.toList.all fun c => ('a' ≤ c && c ≤ 'z') || c = '_'
  | .placeholder _ => true

theorem template_isWord (op : Operation) : op.template.all isWord = true := by
  cases op <;> cbv

theorem standsForItself_of_isWord {text : String} (h : isWord (.literal text) = true) :
    standsForItself (.literal text) = true := by
  have hkept : ∀ c ∈ text.toList,
      Percent.keepsSegment c = true ∧ Url.isIgnored c = false ∧ c ≠ '.' := by
    intro c hc
    rcases Bool.or_eq_true_iff.mp (List.all_eq_true.mp h c hc) with hletter | hunderscore
    · have halpha : c.isAlpha = true := Bool.or_eq_true_iff.mpr (Or.inr hletter)
      have hkeeps := Url.keepsSegment_of_isAlpha halpha
      have hgraphic := Url.isGraphic_of_inSegment (Url.inSegment_of_keepsSegment hkeeps)
      refine ⟨hkeeps, Url.not_isIgnored_of_isGraphic hgraphic, ?_⟩
      rintro rfl
      exact absurd halpha (by decide)
    · obtain rfl : c = '_' := of_decide_eq_true hunderscore
      decide
  have hheard : Url.heard text.toList = text.toList :=
    Url.heard_eq_self fun c hc => (hkept c hc).2.1
  have hnodot : '.' ∉ text.toList := fun hdot => (hkept _ hdot).2.2 rfl
  have hwritten : Url.written text.toList = text.toList := by
    have hdots : ¬ (Url.heard text.toList = ['.'] ∨ Url.heard text.toList = ['.', '.']) := by
      rw [hheard]
      rintro (h | h)
      · exact hnodot (h ▸ List.mem_cons_self)
      · exact hnodot (h ▸ List.mem_cons_self)
    rw [Url.written, if_neg hdots]
    exact (congrArg _ hheard).trans (Percent.encode_of_all fun c hc => (hkept c hc).1)
  exact decide_eq_true ⟨hheard, hwritten⟩

theorem template_standsForItself (op : Operation) : op.template.all standsForItself = true := by
  rw [List.all_eq_true]
  intro segment hsegment
  cases segment with
  | literal text =>
    exact standsForItself_of_isWord (List.all_eq_true.mp op.template_isWord _ hsegment)
  | placeholder name => rfl

theorem literal_spec {op : Operation} {text : String} (h : .literal text ∈ op.template) :
    Url.heard text.toList = text.toList ∧ Url.written text.toList = text.toList :=
  of_decide_eq_true (List.all_eq_true.mp (template_standsForItself op) _ h)

theorem written_api : Url.written "api".toList ≠ [] := by
  have hfirst : .literal "api" ∈ Operation.root.template := List.mem_cons_self
  rw [(literal_spec hfirst).2]
  decide

end Operation

/-! ### The path of an address -/

namespace Client

variable {env : Environment} {client : Client} {op : Operation}
  {path : List (String × String)} {u : Url} {values rest : List String}

/-- A client starts from what the environment's address reads as. -/
theorem parse_of_ofEnvironment [DomainNames] (h : Client.ofEnvironment env = .ok client) :
    Url.parse env.baseAddress = .ok client.base := by
  unfold Client.ofEnvironment at h
  simp only at h
  cases hparse : Url.parse env.baseAddress with
  | error e => simp [hparse] at h
  | ok base =>
    rw [hparse] at h
    rw [← Except.ok.inj h]

theorem ofEnvironment_of_parse [DomainNames] {base : Url}
    (h : Url.parse env.baseAddress = .ok base) :
    ∃ client, Client.ofEnvironment env = .ok client ∧ client.base = base := by
  unfold Client.ofEnvironment
  simp only [h]
  exact ⟨_, rfl, rfl⟩

theorem base_apart [DomainNames] (h : Client.ofEnvironment env = .ok client) :
    Url.Apart client.base :=
  Url.parse_apart (parse_of_ofEnvironment h)

/-- An address is made exactly when every placeholder has a value. -/
theorem url_eq_ok_iff :
    client.url op path = .ok u ↔
      ∃ values, op.pathSegments path = .ok values ∧
        u = client.base.extendPath (values.map String.toList) := by
  unfold Client.url
  cases op.pathSegments path with
  | error missing => simp
  | ok values => simp [Url.cannotBeABase_eq_false, eq_comm]

/-- The address of an operation is refused for the first value that its path lacks, and for
nothing else. -/
theorem url_error_iff {e : ApiError} :
    client.url op path = .error e ↔
      ∃ name, op.pathParameters.find? (fun name => (path.lookup name).isNone) = some name ∧
        e = .missingParameter ⟨op, name⟩ := by
  have hurl : client.url op path = .error e ↔
      ∃ missing, op.pathSegments path = .error missing ∧ e = .missingParameter missing := by
    unfold Client.url
    cases op.pathSegments path with
    | error missing => simp [eq_comm]
    | ok values => simp [Url.cannotBeABase_eq_false]
  rw [hurl]
  constructor
  · rintro ⟨⟨operation, name⟩, hmissing, rfl⟩
    obtain ⟨rfl, hfirst⟩ := Operation.mapM_segmentValue_error.mp hmissing
    exact ⟨name, hfirst, rfl⟩
  · rintro ⟨name, hfirst, rfl⟩
    exact ⟨⟨op, name⟩, Operation.mapM_segmentValue_error.mpr ⟨rfl, hfirst⟩, rfl⟩

theorem url_of_values (client : Client) (h : op.pathSegments path = .ok values) :
    client.url op path = .ok (client.base.extendPath (values.map String.toList)) :=
  url_eq_ok_iff.mpr ⟨values, h, rfl⟩

/-- The path is that of the client's own address, extended by the values one by one. -/
theorem url_path (hbase : Url.Apart client.base) (hurl : client.url op path = .ok u)
    (hvalues : op.pathSegments path = .ok values) :
    ∃ rest, values = "api" :: rest ∧
      u.path = (rest.map String.toList).foldl Url.pushSegment
        (client.base.groundParts ++ [Url.written "api".toList]) := by
  obtain ⟨found, hfound, rfl⟩ := url_eq_ok_iff.mp hurl
  obtain rfl : found = values := Except.ok.inj (hfound.symm.trans hvalues)
  obtain ⟨template, htemplate⟩ := op.template_eq_cons
  have hfills := Operation.pathSegments_eq_ok_iff.mp hvalues
  rw [htemplate, List.forall₂_cons_left_iff] at hfills
  obtain ⟨first, rest, hfirst, -, rfl⟩ := hfills
  obtain rfl : first = "api" := hfirst
  refine ⟨rest, rfl, ?_⟩
  rw [List.map_cons, Url.extendPath_path Operation.written_api,
    Url.ground_dropTrailingEmpty hbase.path_ne_nil, Url.groundParts, hbase.pathParts]

theorem url_apart (hbase : Url.Apart client.base) (hurl : client.url op path = .ok u) :
    Url.Apart u := by
  obtain ⟨values, -, rfl⟩ := url_eq_ok_iff.mp hurl
  exact Url.extendPath_apart hbase _

/-- When every value behind the first adds its segment, they all stand in the path. -/
theorem url_path_of_allAdd (hbase : Url.Apart client.base) (hurl : client.url op path = .ok u)
    (hvalues : op.pathSegments path = .ok ("api" :: rest))
    (hall : Url.AllAdd (client.base.groundParts ++ [Url.written "api".toList])
      (rest.map String.toList)) :
    u.path = client.base.groundParts ++
      ("api" :: rest).map fun value => Url.written value.toList := by
  obtain ⟨values, heq, hpath⟩ := url_path hbase hurl hvalues
  obtain rfl : rest = values := (List.cons.inj heq).2
  rw [hpath, Url.foldl_pushSegment_of_allAdd (by simp)
    (Url.ground_append_written Operation.written_api _) hall]
  simp

/-- No value that is put into the path is one of the two dot segments or holds a tab or a line
break. -/
def PlainValues (op : Operation) (path : List (String × String)) : Prop :=
  ∀ name ∈ op.pathParameters, ∀ value, path.lookup name = some value →
    value ≠ "." ∧ value ≠ ".." ∧ ∀ c ∈ value.toList, Url.isIgnored c = false

/-- A plain value is heard as it is and taken for no step in the path. -/
theorem plain_of_mem (hplain : PlainValues op path)
    (hvalues : op.pathSegments path = .ok values) :
    ∀ value ∈ values, Url.heard value.toList = value.toList ∧
      value.toList ≠ ['.'] ∧ value.toList ≠ ['.', '.'] := by
  intro value hvalue
  obtain ⟨hlength, hfills⟩ := Operation.fills_at hvalues
  obtain ⟨i, hi⟩ := List.mem_iff_getElem?.mp hvalue
  obtain ⟨hlt, -⟩ := List.getElem?_eq_some_iff.mp hi
  obtain ⟨segment, hsegment⟩ : ∃ segment, op.template[i]? = some segment :=
    ⟨_, List.getElem?_eq_getElem (hlength ▸ hlt)⟩
  have hmem := List.mem_of_getElem? hsegment
  have hfill := hfills i segment value hsegment hi
  cases segment with
  | literal text =>
    obtain rfl : value = text := hfill
    obtain ⟨hheard, hwritten⟩ := Operation.literal_spec hmem
    refine ⟨hheard, fun h => ?_, fun h => ?_⟩ <;>
      · rw [h] at hwritten
        exact absurd hwritten (by decide)
  | placeholder name =>
    obtain ⟨hsingle, hdouble, hheard⟩ :=
      hplain name (Operation.mem_pathParameters.mpr hmem) value hfill
    refine ⟨Url.heard_eq_self hheard, fun h => hsingle ?_, fun h => hdouble ?_⟩
    · rw [← String.ofList_toList (s := value), h]
    · rw [← String.ofList_toList (s := value), h]

theorem allAdd_of_plain {front : List (List Char)} {values : List (List Char)}
    (h : ∀ value ∈ values, Url.heard value = value ∧ value ≠ ['.'] ∧ value ≠ ['.', '.']) :
    Url.AllAdd front values := by
  induction values generalizing front with
  | nil => trivial
  | cons value values ih =>
    obtain ⟨⟨hheard, hsingle, hdouble⟩, hrest⟩ := List.forall_mem_cons.mp h
    exact ⟨⟨hsingle, hdouble, fun h => absurd (hheard.symm.trans h) hdouble⟩, ih hrest⟩

theorem decodeText_written {value : List Char}
    (h : Url.heard value = value ∧ value ≠ ['.'] ∧ value ≠ ['.', '.']) :
    Percent.decodeText (Url.written value) = Utf8.encode value := by
  obtain ⟨hheard, hsingle, hdouble⟩ := h
  rw [Url.written, hheard, if_neg (not_or.mpr ⟨hsingle, hdouble⟩), Url.decodeText_encodeSegment,
    hheard]

/-- Plain values stand in the path behind the parts that the client's address contributes. -/
theorem url_path_of_plain (hbase : Url.Apart client.base) (hurl : client.url op path = .ok u)
    (hvalues : op.pathSegments path = .ok values) (hplain : PlainValues op path) :
    u.path = client.base.groundParts ++ values.map fun value => Url.written value.toList := by
  have hall := plain_of_mem hplain hvalues
  obtain ⟨rest, rfl, -⟩ := url_path hbase hurl hvalues
  have hrest : ∀ value ∈ rest.map String.toList, Url.heard value = value ∧ value ≠ ['.'] ∧
      value ≠ ['.', '.'] := by
    rw [List.forall_mem_map]
    exact fun value hvalue => hall value (List.mem_cons_of_mem _ hvalue)
  exact url_path_of_allAdd hbase hurl hvalues (allAdd_of_plain hrest)

/-- Whatever the values are, the address differs from the client's own in its path alone, as a
record and as it is read back from its text. Plain values stand in the path behind the parts that
the client's address contributes, each of them as one part that decodes to it. -/
theorem url_spec [DomainNames] (hclient : Client.ofEnvironment env = .ok client)
    (hurl : client.url op path = .ok u) :
    u = { client.base with path := u.path } ∧
    Url.parse u.render =
      (Url.parse client.base.render).map (fun base => { base with path := u.path }) ∧
    ∃ values, op.pathSegments path = .ok values ∧
      (PlainValues op path →
        u.pathParts.map Percent.decodeText =
          client.base.groundParts.map Percent.decodeText ++ values.map Utf8.encodeString) := by
  have hbase := base_apart hclient
  have hu := url_apart hbase hurl
  obtain ⟨values, hvalues, hextended⟩ := url_eq_ok_iff.mp hurl
  have hrecord : u = { client.base with path := u.path } := by
    rw [hextended]
    exact Url.extendPath_eq _ _
  refine ⟨hrecord, Url.parse_render_of_path hbase hu hrecord, values, hvalues, fun hplain => ?_⟩
  have hdecoded : values.map (Percent.decodeText ∘ fun value => Url.written value.toList) =
      values.map Utf8.encodeString :=
    List.map_congr_left fun value hvalue =>
      decodeText_written (plain_of_mem hplain hvalues value hvalue)
  rw [hu.pathParts, url_path_of_plain hbase hurl hvalues hplain, List.map_append, List.map_map,
    hdecoded]

section Hostile

attribute [local instance] DomainNames.plain

/-- A value of slashes, dots, marks and letters beyond ASCII, under an address that has a path, a
query and a fragment of its own. -/
theorem url_spec_of_hostile_value :
    ∃ client u,
      Client.ofEnvironment { Environment.blank with hostname := "h/c/?a=b#d" } = .ok client ∧
      client.url .namespaceHealth [("namespace", "a b/../%é?#@")] = .ok u ∧
      u = { client.base with path := u.path } ∧
      PlainValues .namespaceHealth [("namespace", "a b/../%é?#@")] ∧
      u.pathParts.map Percent.decodeText =
        client.base.groundParts.map Percent.decodeText ++
          ["api", "namespaces", "a b/../%é?#@", "health"].map Utf8.encodeString := by
  have hclient : Client.ofEnvironment { Environment.blank with hostname := "h/c/?a=b#d" } = .ok
      { base := { scheme := .http, username := [], password := none, host := .domain ['h']
                  port := none, path := [['c'], []], query := some ['a', '=', 'b']
                  fragment := some ['d'] }
        username := none, password := none, timeout := 30000
        verifiesTls := false } := by decide +kernel
  have hvalues : Operation.namespaceHealth.pathSegments [("namespace", "a b/../%é?#@")] =
      .ok ["api", "namespaces", "a b/../%é?#@", "health"] := by decide +kernel
  have hplain : PlainValues .namespaceHealth [("namespace", "a b/../%é?#@")] := by
    have hnames : Operation.namespaceHealth.pathParameters = ["namespace"] := by decide +kernel
    intro name hname value hvalue
    rw [hnames, List.mem_singleton] at hname
    rw [hname, List.lookup_cons_self] at hvalue
    rw [← Option.some.inj hvalue]
    have hheard : "a b/../%é?#@".toList.all (!Url.isIgnored ·) = true := by decide +kernel
    refine ⟨by decide, by decide, fun c hc => ?_⟩
    exact Bool.not_eq_true' _ ▸ List.all_eq_true.mp hheard c hc
  obtain ⟨hrecord, -, values, hfound, hparts⟩ := url_spec hclient (url_of_values _ hvalues)
  obtain rfl := Except.ok.inj (hvalues.symm.trans hfound)
  exact ⟨_, _, hclient, url_of_values _ hvalues, hrecord, hplain, hparts hplain⟩

/-- An address whose path is two slashes: the path of an operation does not come behind the empty
part between them but takes its place. -/
theorem groundParts_lost :
    ∃ client u,
      Client.ofEnvironment { Environment.blank with hostname := "h//?x" } = .ok client ∧
      client.url .root [] = .ok u ∧
      PlainValues .root [] ∧
      u.render = "http://h/api?x" ∧
      u.pathParts.map Percent.decodeText ≠
        (Url.withoutTrailingEmpty client.base.pathParts).map Percent.decodeText ++
          ["api"].map Utf8.encodeString := by
  have hclient : Client.ofEnvironment { Environment.blank with hostname := "h//?x" } = .ok
      { base := { scheme := .http, username := [], password := none, host := .domain ['h']
                  port := none, path := [[], []], query := some ['x'], fragment := none }
        username := none, password := none, timeout := 30000
        verifiesTls := false } := by decide +kernel
  have hvalues : Operation.root.pathSegments [] = .ok ["api"] := by decide +kernel
  refine ⟨_, _, hclient, url_of_values _ hvalues, ?_, by decide +kernel, by decide +kernel⟩
  intro name hname
  exact absurd hname List.not_mem_nil

end Hostile

/-! ### The shape of a path -/

/-- Whether an address still matches the operation's template behind the parts of the client's
own address: as many parts as the template has segments, and every literal at its place. -/
def KeepsTemplate (base : Url) (op : Operation) (u : Url) : Prop :=
  let before := (Url.withoutTrailingEmpty base.pathParts).length
  u.pathParts.length = before + op.template.length ∧
  ∀ i text, op.template[i]? = some (.literal text) →
    u.pathParts[before + i]? = some text.toList

/-- The values that leave the shape of a path alone: none is a dot segment, and one that sounds
like two dots stands behind a drive letter. The first value is the literal that every template
begins with. -/
def NoSteps (values : List String) : Prop :=
  ∀ (i : Nat) (last value : String), values[i]? = some last → values[i + 1]? = some value →
    value ≠ "." ∧ value ≠ ".." ∧
      (Url.heard value.toList = ['.', '.'] → Url.isDrive (Url.heard last.toList) = true)

theorem toList_eq_iff {value : String} {text : List Char} :
    value.toList = text ↔ value = String.ofList text :=
  ⟨fun h => by rw [← h, String.ofList_toList], fun h => by rw [h, String.toList_ofList]⟩

theorem allAdd_iff_noSteps (front : List (List Char)) (first : String) (rest : List String) :
    Url.AllAdd (front ++ [Url.written first.toList]) (rest.map String.toList) ↔
      NoSteps (first :: rest) := by
  have hdot (value : String) : value.toList = ['.'] ↔ value = "." := toList_eq_iff
  have hdots (value : String) : value.toList = ['.', '.'] ↔ value = ".." := toList_eq_iff
  rw [Url.allAdd_iff, ← List.map_cons]
  constructor
  · intro h i last value hlast hvalue
    have := h i last.toList value.toList (by rw [List.getElem?_map, hlast]; rfl)
      (by rw [List.getElem?_map, show rest[i]? = some value from hvalue]; rfl)
    rwa [ne_eq, ne_eq, hdot, hdots] at this
  · intro h i last value hlast hvalue
    rw [List.getElem?_map, Option.map_eq_some_iff] at hlast hvalue
    obtain ⟨last, hlast, rfl⟩ := hlast
    obtain ⟨value, hvalue, rfl⟩ := hvalue
    rw [ne_eq, ne_eq, hdot, hdots]
    exact h i last value hlast hvalue

/-- Values that take no step leave each literal at its place. -/
theorem keepsTemplate_of_allAdd (hbase : Url.Apart client.base)
    (hurl : client.url op path = .ok u) (hvalues : op.pathSegments path = .ok ("api" :: rest))
    (hparts : client.base.pathParts ≠ [[], []])
    (hall : Url.AllAdd (client.base.groundParts ++ [Url.written "api".toList])
      (rest.map String.toList)) :
    KeepsTemplate client.base op u := by
  obtain ⟨hlength, hfills⟩ := Operation.fills_at hvalues
  have hground : client.base.groundParts = Url.withoutTrailingEmpty client.base.pathParts :=
    if_neg hparts
  rw [KeepsTemplate, (url_apart hbase hurl).pathParts, url_path_of_allAdd hbase hurl hvalues hall,
    hground]
  constructor
  · rw [List.length_append, List.length_map, hlength]
  · intro i text htext
    have hlt : i < ("api" :: rest).length := by
      obtain ⟨hi, -⟩ := List.getElem?_eq_some_iff.mp htext
      omega
    have hvalue : ("api" :: rest)[i]? = some ("api" :: rest)[i] := List.getElem?_eq_getElem hlt
    have hfill : ("api" :: rest)[i] = text := hfills i _ _ htext hvalue
    rw [List.getElem?_append_right (Nat.le_add_right _ _), Nat.add_sub_cancel_left,
      List.getElem?_map, hvalue, hfill]
    exact congrArg some (Operation.literal_spec (List.mem_of_getElem? htext)).2

/-- An address matches the operation's template exactly when no value is taken for a step in the
path and the client's own path is not made of two slashes. -/
theorem url_keepsTemplate_iff [DomainNames] (hclient : Client.ofEnvironment env = .ok client)
    (hurl : client.url op path = .ok u) (hvalues : op.pathSegments path = .ok values) :
    KeepsTemplate client.base op u ↔
      client.base.pathParts ≠ [[], []] ∧ NoSteps values := by
  have hbase := base_apart hclient
  obtain ⟨hlength, -⟩ := Operation.fills_at hvalues
  obtain ⟨rest, rfl, hpath⟩ := url_path hbase hurl hvalues
  rw [← allAdd_iff_noSteps client.base.groundParts]
  constructor
  · rintro ⟨hcount, -⟩
    rw [(url_apart hbase hurl).pathParts, hpath, ← hlength] at hcount
    by_cases hparts : client.base.pathParts = [[], []]
    · -- The empty part in front is lost, so the path is too short whatever follows.
      have hle := Url.length_foldl_pushSegment_le
        (client.base.groundParts ++ [Url.written "api".toList]) (rest.map String.toList)
      have hnone : client.base.groundParts = [] := if_pos hparts
      rw [hcount, hparts, hnone] at hle
      simp [Url.withoutTrailingEmpty] at hle
    · refine ⟨hparts, ?_⟩
      by_contra hall
      have hlt := Url.length_foldl_pushSegment_lt (by simp)
        (Url.ground_append_written (by decide +kernel) _) hall
      rw [hcount, show client.base.groundParts = _ from if_neg hparts] at hlt
      simp only [List.length_append, List.length_cons, List.length_map, List.length_nil] at hlt
      omega
  · rintro ⟨hparts, hall⟩
    exact keepsTemplate_of_allAdd hbase hurl hvalues hparts hall

section Bare

attribute [local instance] DomainNames.plain

/-- The client of a bare host name. -/
theorem ofEnvironment_bare :
    Client.ofEnvironment { Environment.blank with hostname := "h" } = .ok
      { base := { scheme := .http, username := [], password := none, host := .domain ['h']
                  port := none, path := [[]], query := none, fragment := none }
        username := none, password := none, timeout := 30000, verifiesTls := false } := by
  decide +kernel

/-- A dot inside the name of a namespace takes no step. -/
theorem url_keepsTemplate_of_dotted_name :
    ∃ client u,
      Client.ofEnvironment { Environment.blank with hostname := "h" } = .ok client ∧
      client.url .namespaceHealth [("namespace", "a.b")] = .ok u ∧
      Operation.namespaceHealth.pathSegments [("namespace", "a.b")] =
        .ok ["api", "namespaces", "a.b", "health"] ∧
      KeepsTemplate client.base .namespaceHealth u := by
  have hvalues : Operation.namespaceHealth.pathSegments [("namespace", "a.b")] =
      .ok ["api", "namespaces", "a.b", "health"] := by decide +kernel
  have hsteps : NoSteps ["api", "namespaces", "a.b", "health"] := by
    intro i last value _ hvalue
    have hmem := List.mem_of_getElem? hvalue
    simp only [List.mem_cons, List.not_mem_nil, or_false] at hmem
    rcases hmem with rfl | rfl | rfl | rfl <;>
      exact ⟨by decide, by decide, fun h => absurd h (by decide +kernel)⟩
  exact ⟨_, _, ofEnvironment_bare, url_of_values _ hvalues, hvalues,
    (url_keepsTemplate_iff ofEnvironment_bare (url_of_values _ hvalues) hvalues).mpr
      ⟨by decide +kernel, hsteps⟩⟩

/-- A namespace of one dot is left out, and what is asked is the namespace `health`. -/
theorem not_keepsTemplate_of_dot :
    ∃ client u,
      Client.ofEnvironment { Environment.blank with hostname := "h" } = .ok client ∧
      client.url .namespaceHealth [("namespace", ".")] = .ok u ∧
      u.render = "http://h/api/namespaces/health" ∧
      ¬ KeepsTemplate client.base .namespaceHealth u := by
  have hvalues : Operation.namespaceHealth.pathSegments [("namespace", ".")] =
      .ok ["api", "namespaces", ".", "health"] := by decide +kernel
  refine ⟨_, _, ofEnvironment_bare, url_of_values _ hvalues, by decide +kernel, ?_⟩
  intro h
  exact absurd h.1 (by decide +kernel)

end Bare

end Client

end MeshProbe
