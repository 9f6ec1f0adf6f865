import MeshProbe.Proofs.Api.Address

/-!
The path of an operation as it is shown, beside the path that is asked for. What is
shown has the values as they are given, what is asked for has them encoded. The two
are the same exactly when no value holds a character that has to be encoded; a slash
in a value adds a part to what is shown, and an escape in it reads as something else.
-/

namespace MeshProbe

/-! ### Splitting a path at its slashes -/

namespace Url

/-- The parts of a path are those of its segments one after the other. -/
theorem parts_renderPath_eq_flatMap {segments : List (List Char)} (hne : segments ≠ []) :
    parts (renderPath segments) = segments.flatMap (List.splitOn '/') := by
  obtain ⟨segment, rest, rfl⟩ := List.exists_cons_of_ne_nil hne
  change (segment ++ renderPath rest).splitOn '/' = _
  clear hne
  induction rest generalizing segment with
  | nil => simp [renderPath]
  | cons next rest ih =>
    have hslash : segment ++ renderPath (next :: rest) =
        segment ++ '/' :: (next ++ renderPath rest) := rfl
    rw [hslash, List.splitOn_eq_splitOnP, List.splitOnP_append_cons _ _ (by decide),
      ← List.splitOn_eq_splitOnP, ← List.splitOn_eq_splitOnP, ih next]
    rfl

/-- A segment is one part when it holds no slash, and more parts otherwise. -/
theorem length_splitOn_slash (segment : List Char) :
    1 ≤ (segment.splitOn '/').length ∧
      ((segment.splitOn '/').length = 1 ↔ '/' ∉ segment) := by
  have hpos (text : List Char) : 1 ≤ (text.splitOn '/').length :=
    List.length_pos_iff.mpr (List.splitOn_ne_nil '/' text)
  refine ⟨hpos segment, ?_, ?_⟩
  · intro hone hslash
    obtain ⟨before, after, rfl⟩ := List.append_of_mem hslash
    rw [List.splitOn_eq_splitOnP, List.splitOnP_append_cons _ _ (by decide),
      ← List.splitOn_eq_splitOnP, ← List.splitOn_eq_splitOnP, List.length_append] at hone
    have := hpos before
    have := hpos after
    omega
  · intro hslash
    rw [List.splitOn_eq_singleton hslash]
    rfl

/-- A path has as many parts as segments when no segment holds a slash. -/
theorem length_flatMap_splitOn (segments : List (List Char)) :
    segments.length ≤ (segments.flatMap (List.splitOn '/')).length ∧
      ((segments.flatMap (List.splitOn '/')).length = segments.length ↔
        ∀ segment ∈ segments, '/' ∉ segment) := by
  induction segments with
  | nil => simp
  | cons segment rest ih =>
    obtain ⟨hle, hiff⟩ := ih
    obtain ⟨hpos, hone⟩ := length_splitOn_slash segment
    rw [List.flatMap_cons, List.length_append, List.length_cons, List.forall_mem_cons, ← hone,
      ← hiff]
    omega

/-- A path reads as its segments when each of them is one part that reads as itself. -/
theorem decode_parts_renderPath_iff {segments : List (List Char)} (hne : segments ≠ []) :
    (parts (renderPath segments)).map Percent.decodeText = segments.map Utf8.encode ↔
      ∀ segment ∈ segments, '/' ∉ segment ∧ Percent.decodeText segment = Utf8.encode segment := by
  rw [parts_renderPath_eq_flatMap hne]
  constructor
  · intro h
    have hlength := congrArg List.length h
    rw [List.length_map, List.length_map] at hlength
    have hslash := (length_flatMap_splitOn segments).2.mp hlength
    rw [← parts_renderPath_eq_flatMap hne, parts_renderPath hne hslash] at h
    have hread := List.map_inj_left.mp h
    exact fun segment hsegment => ⟨hslash segment hsegment, hread segment hsegment⟩
  · intro h
    rw [← parts_renderPath_eq_flatMap hne,
      parts_renderPath hne fun segment hsegment => (h segment hsegment).1]
    exact List.map_congr_left fun segment hsegment => (h segment hsegment).2

/-- Encoding its segments makes a path longer unless each of them is kept whole. -/
theorem length_renderPath_le (keep : Char → Bool) (segments : List (List Char)) :
    (renderPath segments).length + segments.flatten.countP (!keep ·) ≤
      (renderPath (segments.map (Percent.encode keep))).length := by
  induction segments with
  | nil => exact le_rfl
  | cons segment rest ih =>
    have hlong := Percent.length_le_encode keep segment
    have hcons (first : List Char) (others : List (List Char)) :
        (renderPath (first :: others)).length = first.length + 1 + (renderPath others).length := by
      change ('/' :: (first ++ renderPath others)).length = _
      rw [List.length_cons, List.length_append]
      omega
    rw [List.map_cons, hcons, hcons, List.flatten_cons, List.countP_append]
    omega

theorem renderPath_encode_eq_iff {keep : Char → Bool} {segments : List (List Char)} :
    renderPath segments = renderPath (segments.map (Percent.encode keep)) ↔
      ∀ segment ∈ segments, ∀ c ∈ segment, keep c = true := by
  constructor
  · intro h segment hsegment c hc
    have hlength := length_renderPath_le keep segments
    have hnone : segments.flatten.countP (!keep ·) = 0 := by
      rw [← h] at hlength
      omega
    have hall := List.countP_eq_zero.mp hnone c (List.mem_flatten.mpr ⟨segment, hsegment, hc⟩)
    simpa using hall
  · intro h
    have hsame : segments.map (Percent.encode keep) = segments.map id :=
      List.map_congr_left fun segment hsegment => Percent.encode_of_all (h segment hsegment)
    rw [hsame, List.map_id]

theorem renderPath_append (before after : List (List Char)) :
    renderPath (before ++ after) = renderPath before ++ renderPath after :=
  List.flatMap_append

end Url

/-! ### Values in a path -/

namespace Operation

variable {op : Operation} {parameters : List (String × String)} {template : List TemplateSegment}
  {values : List String} {P : String → Prop}

/-- A property of every value that is put into a path. -/
def EachValue (op : Operation) (parameters : List (String × String)) (P : String → Prop) : Prop :=
  ∀ name ∈ op.pathParameters, ∀ value, parameters.lookup name = some value → P value

theorem forall_mem_iff_of_fills (h : List.Forall₂ (Fills parameters) template values) :
    (∀ value ∈ values, P value) ↔
      ∀ segment ∈ template, ∀ value, Fills parameters segment value → P value := by
  induction h with
  | nil => exact ⟨fun _ => nofun, fun _ => nofun⟩
  | @cons segment value template values hsegment _ ih =>
    have hfirst : P value ↔ ∀ found, Fills parameters segment found → P found := by
      constructor
      · intro hvalue found hfound
        have hsame : found = value := by
          cases segment with
          | literal text => exact hfound.trans hsegment.symm
          | placeholder name => exact Option.some.inj (hfound.symm.trans hsegment)
        rw [hsame]
        exact hvalue
      · exact fun hall => hall value hsegment
    rw [List.forall_mem_cons, List.forall_mem_cons, hfirst, ih]

/-- What holds of the literals holds of a whole path when it does of the values put into it. -/
theorem forall_mem_values_iff (hvalues : op.pathSegments parameters = .ok values)
    (hliteral : ∀ text, .literal text ∈ op.template → P text) :
    (∀ value ∈ values, P value) ↔ EachValue op parameters P := by
  rw [forall_mem_iff_of_fills (pathSegments_eq_ok_iff.mp hvalues)]
  constructor
  · intro h name hname value hvalue
    exact h (.placeholder name) (mem_pathParameters.mp hname) value hvalue
  · intro h segment hsegment value hvalue
    cases segment with
    | literal text =>
      obtain rfl : value = text := hvalue
      exact hliteral value hsegment
    | placeholder name => exact h name (mem_pathParameters.mpr hsegment) value hvalue

/-- A literal holds nothing that would have to be encoded. -/
theorem literal_kept {text : String} (h : .literal text ∈ op.template) :
    ∀ c ∈ text.toList, Percent.keepsSegment c = true := by
  obtain ⟨hheard, hwritten⟩ := literal_spec h
  rw [Url.written, hheard] at hwritten
  split_ifs at hwritten with hdots
  · rcases hdots with hdot | hdot
    · exact absurd (hwritten.trans hdot) (by decide)
    · exact absurd (hwritten.trans hdot) (by decide)
  · rw [Url.encodeSegment, ← Url.heard, hheard] at hwritten
    exact Percent.encode_eq_self_iff.mp hwritten

/-! ### The encoded path -/

/-- What stands in a path for a segment of the template when values are encoded, each as one
segment. -/
def Encodes (parameters : List (String × String)) : TemplateSegment → List Char → Prop
  | .literal text, part => part = text.toList
  | .placeholder name, part => ∃ value, parameters.lookup name = some value ∧
      part = Percent.encode Percent.keepsSegment value.toList

/-- The text of a path: a slash and a part for each segment of the template, values encoded. -/
def EncodedPath (op : Operation) (parameters : List (String × String)) (text : List Char) : Prop :=
  ∃ parts, List.Forall₂ (Encodes parameters) op.template parts ∧ text = Url.renderPath parts

/-- The segments of a path, encoded. -/
def encodedValues (values : List String) : List (List Char) :=
  (values.map String.toList).map (Percent.encode Percent.keepsSegment)

theorem encodes_iff {segment : TemplateSegment} {value : String} (h : segment ∈ op.template)
    (hfills : Fills parameters segment value) (part : List Char) :
    Encodes parameters segment part ↔
      part = Percent.encode Percent.keepsSegment value.toList := by
  cases segment with
  | literal text =>
    obtain rfl : value = text := hfills
    rw [Percent.encode_of_all (literal_kept h)]
    rfl
  | placeholder name =>
    have hvalue : parameters.lookup name = some value := hfills
    constructor
    · rintro ⟨found, hfound, rfl⟩
      rw [Option.some.inj (hfound.symm.trans hvalue)]
    · exact fun hpart => ⟨value, hvalue, hpart⟩

/-- A relation that is the graph of a function at every place relates a list to one list only. -/
theorem forall₂_iff_eq_map {α β γ : Type} {R : α → γ → Prop} {S : α → β → Prop} {f : β → γ}
    {l : List α} {u : List β} (h : List.Forall₂ S l u)
    (hgraph : ∀ a ∈ l, ∀ b, S a b → ∀ c, R a c ↔ c = f b) (v : List γ) :
    List.Forall₂ R l v ↔ v = u.map f := by
  induction h generalizing v with
  | nil => rw [List.forall₂_nil_left_iff]; rfl
  | @cons a b l u hab _ ih =>
    obtain ⟨hfirst, hrest⟩ := List.forall_mem_cons.mp hgraph
    rw [List.forall₂_cons_left_iff]
    constructor
    · rintro ⟨c, others, hc, hothers, rfl⟩
      rw [(hfirst b hab c).mp hc, (ih hrest others).mp hothers]
      rfl
    · rintro rfl
      exact ⟨_, _, (hfirst b hab _).mpr rfl, (ih hrest _).mpr rfl, rfl⟩

theorem encodedPath_iff (hvalues : op.pathSegments parameters = .ok values) (text : List Char) :
    EncodedPath op parameters text ↔ text = Url.renderPath (encodedValues values) := by
  have hparts := forall₂_iff_eq_map (pathSegments_eq_ok_iff.mp hvalues)
    fun segment hsegment value hfills => encodes_iff hsegment hfills
  simp only [EncodedPath, hparts, exists_eq_left, encodedValues, List.map_map]
  rfl

theorem values_ne_nil (hvalues : op.pathSegments parameters = .ok values) :
    values.map String.toList ≠ [] := by
  obtain ⟨template, htemplate⟩ := op.template_eq_cons
  have hfills := pathSegments_eq_ok_iff.mp hvalues
  rw [htemplate, List.forall₂_cons_left_iff] at hfills
  obtain ⟨first, rest, -, -, rfl⟩ := hfills
  exact List.cons_ne_nil _ _

/-- What is shown is the segments of the path as they are. -/
theorem renderPath_eq (hvalues : op.pathSegments parameters = .ok values) :
    ∃ text, op.renderPath parameters = .ok text ∧
      text.toList = Url.renderPath (values.map String.toList) := by
  refine ⟨joinPath values, ?_, ?_⟩
  · rw [renderPath, hvalues]
    rfl
  · obtain ⟨first, rest, hvalues⟩ := List.exists_cons_of_ne_nil (values_ne_nil hvalues)
    rw [toList_joinPath, hvalues, Url.renderPath_cons]

end Operation

/-! ### What is shown and what is asked for -/

namespace Client

open Operation (EachValue EncodedPath)

variable {env : Environment} {client : Client} {op : Operation}
  {path : List (String × String)} {u : Url} {values : List String}

/-- Whether a value is written in a path as it is. -/
def IsKept (value : String) : Prop :=
  ∀ c ∈ value.toList, Percent.keepsSegment c = true

/-- Whether a value is one part of a path that reads as the value. -/
def ReadsAsItself (value : String) : Prop :=
  '/' ∉ value.toList ∧ Percent.decodeText value.toList = Utf8.encodeString value

theorem not_slash_of_isKept {value : String} (h : IsKept value) : '/' ∉ value.toList :=
  fun hslash => absurd (h _ hslash) (by decide)

theorem readsAsItself_of_isKept {value : String} (h : IsKept value) : ReadsAsItself value := by
  refine ⟨not_slash_of_isKept h, ?_⟩
  have hdecoded := Percent.decodeText_encode Url.faithful_keepsSegment value.toList
  rw [Percent.encode_of_all h] at hdecoded
  exact hdecoded

theorem written_of_plain {value : List Char}
    (h : Url.heard value = value ∧ value ≠ ['.'] ∧ value ≠ ['.', '.']) :
    Url.written value = Percent.encode Percent.keepsSegment value := by
  obtain ⟨hheard, hsingle, hdouble⟩ := h
  rw [Url.written, hheard, if_neg (not_or.mpr ⟨hsingle, hdouble⟩), Url.encodeSegment, ← Url.heard,
    hheard]

/-- Plain values are asked for encoded, behind the path of the client's address. -/
theorem renderPath_url_of_plain (hbase : Url.Apart client.base)
    (hurl : client.url op path = .ok u) (hvalues : op.pathSegments path = .ok values)
    (hplain : PlainValues op path) :
    Url.renderPath u.path = Url.renderPath client.base.groundParts ++
      Url.renderPath (Operation.encodedValues values) := by
  have hwritten : (values.map fun value => Url.written value.toList) =
      Operation.encodedValues values := by
    rw [Operation.encodedValues, List.map_map]
    exact List.map_congr_left fun value hvalue =>
      written_of_plain (plain_of_mem hplain hvalues value hvalue)
  rw [url_path_of_plain hbase hurl hvalues hplain, hwritten, Url.renderPath_append]

/-- The path that is shown for values, and the one that is asked for. The one that is shown is
encoded exactly when no value holds a character that has to be encoded. It has as many parts as
the template exactly when no value holds a slash, and the parts read as the segments of the path
exactly when each value is one part that reads as itself. The one that is asked for, if no value
is taken for a step in the path, is the path of the client's address followed by the encoded one,
and so by the one that is shown exactly when that is encoded. -/
theorem renderPath_spec [DomainNames] (hclient : Client.ofEnvironment env = .ok client)
    (hvalues : op.pathSegments path = .ok values) :
    ∃ text u, op.renderPath path = .ok text ∧ client.url op path = .ok u ∧
      (EncodedPath op path text.toList ↔ EachValue op path IsKept) ∧
      ((Url.parts text.toList).length = op.template.length ↔
        EachValue op path ('/' ∉ ·.toList)) ∧
      ((Url.parts text.toList).map Percent.decodeText = values.map Utf8.encodeString ↔
        EachValue op path ReadsAsItself) ∧
      (PlainValues op path →
        (∃ encoded, EncodedPath op path encoded ∧
          Url.renderPath u.path = Url.renderPath client.base.groundParts ++ encoded) ∧
        (Url.renderPath u.path = Url.renderPath client.base.groundParts ++ text.toList ↔
          EachValue op path IsKept)) := by
  obtain ⟨text, htext, hshown⟩ := Operation.renderPath_eq hvalues
  have hne := Operation.values_ne_nil hvalues
  -- What is asked of the values put in is asked of all segments: the literals are plain.
  have hkept : (∀ value ∈ values, IsKept value) ↔ EachValue op path IsKept :=
    Operation.forall_mem_values_iff hvalues fun _ hliteral => Operation.literal_kept hliteral
  have hslash : (∀ value ∈ values, '/' ∉ value.toList) ↔ EachValue op path ('/' ∉ ·.toList) :=
    Operation.forall_mem_values_iff hvalues fun _ hliteral =>
      not_slash_of_isKept (Operation.literal_kept hliteral)
  have hreads : (∀ value ∈ values, ReadsAsItself value) ↔ EachValue op path ReadsAsItself :=
    Operation.forall_mem_values_iff hvalues fun _ hliteral =>
      readsAsItself_of_isKept (Operation.literal_kept hliteral)
  have hsame : Url.renderPath (values.map String.toList) =
      Url.renderPath (Operation.encodedValues values) ↔ EachValue op path IsKept := by
    rw [Operation.encodedValues, Url.renderPath_encode_eq_iff, List.forall_mem_map, ← hkept]
    rfl
  refine ⟨text, _, htext, url_of_values client hvalues, ?_, ?_, ?_, fun hplain => ?_⟩
  · rw [Operation.encodedPath_iff hvalues, hshown, hsame]
  · have hlength : op.template.length = (values.map String.toList).length := by
      rw [List.length_map, (Operation.fills_at hvalues).1]
    rw [hshown, Url.parts_renderPath_eq_flatMap hne, hlength,
      (Url.length_flatMap_splitOn _).2, List.forall_mem_map, ← hslash]
  · have hbytes : values.map Utf8.encodeString = (values.map String.toList).map Utf8.encode := by
      rw [List.map_map]
      rfl
    rw [hshown, hbytes, Url.decode_parts_renderPath_iff hne, List.forall_mem_map, ← hreads]
    rfl
  · have hasked := renderPath_url_of_plain (base_apart hclient) (url_of_values client hvalues)
      hvalues hplain
    refine ⟨⟨_, (Operation.encodedPath_iff hvalues _).mpr rfl, hasked⟩, ?_⟩
    rw [hasked, List.append_cancel_left_eq, hshown, eq_comm, hsame]

section Shown

attribute [local instance] DomainNames.plain

/-- Marks that a segment may hold as they are: the path that is shown is the one that is asked
for behind the path of the client's address. -/
theorem renderPath_spec_of_marks :
    ∃ client text u,
      Client.ofEnvironment { Environment.blank with hostname := "h/c/?x" } = .ok client ∧
      Operation.namespaceHealth.pathSegments [("namespace", "a:b@c;d=(e)")] =
        .ok ["api", "namespaces", "a:b@c;d=(e)", "health"] ∧
      Operation.namespaceHealth.renderPath [("namespace", "a:b@c;d=(e)")] = .ok text ∧
      client.url .namespaceHealth [("namespace", "a:b@c;d=(e)")] = .ok u ∧
      EncodedPath .namespaceHealth [("namespace", "a:b@c;d=(e)")] text.toList ∧
      Url.renderPath u.path = "/c".toList ++ text.toList := by
  have hclient : Client.ofEnvironment { Environment.blank with hostname := "h/c/?x" } = .ok
      { base := { scheme := .http, username := [], password := none, host := .domain ['h']
                  port := none, path := [['c'], []], query := some ['x'], fragment := none }
        username := none, password := none, timeout := 30000
        verifiesTls := false } := by decide +kernel
  generalize hbase : ({ scheme := .http, username := [], password := none, host := .domain ['h']
                        port := none, path := [['c'], []], query := some ['x']
                        fragment := none } : Url) = base at hclient
  have hground : Url.renderPath base.groundParts = "/c".toList := by rw [← hbase]; decide +kernel
  have hvalues : Operation.namespaceHealth.pathSegments [("namespace", "a:b@c;d=(e)")] =
      .ok ["api", "namespaces", "a:b@c;d=(e)", "health"] := by decide +kernel
  have heach {P : String → Prop} (h : P "a:b@c;d=(e)") :
      EachValue .namespaceHealth [("namespace", "a:b@c;d=(e)")] P := by
    intro name hname value hvalue
    obtain rfl : name = "namespace" := List.mem_singleton.mp hname
    rw [List.lookup_cons_self] at hvalue
    rwa [← Option.some.inj hvalue]
  have hkept : EachValue .namespaceHealth [("namespace", "a:b@c;d=(e)")] IsKept :=
    heach (List.all_eq_true.mp (by decide +kernel))
  have hheard : "a:b@c;d=(e)".toList.all (!Url.isIgnored ·) = true := by decide +kernel
  have hplain : PlainValues .namespaceHealth [("namespace", "a:b@c;d=(e)")] :=
    heach (P := fun value => value ≠ "." ∧ value ≠ ".." ∧
      ∀ c ∈ value.toList, Url.isIgnored c = false)
      ⟨by decide, by decide, fun c hc => by simpa using List.all_eq_true.mp hheard c hc⟩
  obtain ⟨text, u, htext, hurl, hencoded, -, -, hasked⟩ := renderPath_spec hclient hvalues
  have hpath := (hasked hplain).2.mpr hkept
  rw [hground] at hpath
  exact ⟨_, text, u, hclient, hvalues, htext, hurl, hencoded.mpr hkept, hpath⟩

/-- A name with a blank and a slash: it is shown as it is and adds a part, but asked for encoded
as one part. -/
theorem not_encodedPath_of_blank :
    ∃ client text u,
      Client.ofEnvironment { Environment.blank with hostname := "h" } = .ok client ∧
      Operation.namespaceHealth.renderPath [("namespace", "a b/c")] = .ok text ∧
      client.url .namespaceHealth [("namespace", "a b/c")] = .ok u ∧
      text = "/api/namespaces/a b/c/health" ∧
      ¬ EncodedPath .namespaceHealth [("namespace", "a b/c")] text.toList ∧
      (Url.parts text.toList).length ≠ Operation.namespaceHealth.template.length ∧
      u.render = "http://h/api/namespaces/a%20b%2Fc/health" := by
  have hvalues : Operation.namespaceHealth.pathSegments [("namespace", "a b/c")] =
      .ok ["api", "namespaces", "a b/c", "health"] := by decide +kernel
  have htext : Operation.namespaceHealth.renderPath [("namespace", "a b/c")] =
      .ok "/api/namespaces/a b/c/health" := by decide +kernel
  refine ⟨_, _, _, ofEnvironment_bare, htext, url_of_values _ hvalues, rfl, ?_, ?_, ?_⟩
  · rw [Operation.encodedPath_iff hvalues]
    decide +kernel
  · decide +kernel
  · decide +kernel

end Shown

end Client

end MeshProbe
