import MeshProbe.Api.Operation
import MeshProbe.Proofs.Action
import Mathlib.Logic.Relation
import Mathlib.Tactic

/-!
The templates of paths and the values that are put into them. A path can be made
when every name of the template has an entry in the list of parameters; the first
entry with the name counts and no other matters. What the templates' text says is
what is made of it: its segments in braces are the names, all others stand as
they are written.
-/

namespace MeshProbe

/-! ### The text of a template -/

/-- What stands in braces, if the whole of a text does. -/
def TemplateSegment.braced? : List Char → Option (List Char)
  | '\x7b' :: rest => if rest.getLast? = some '\x7d' then some rest.dropLast else none
  | _ => none

namespace Operation

theorem toList_joinPath (segments : List String) :
    (joinPath segments).toList = '/' :: ['/'].intercalate (segments.map String.toList) := by
  rw [joinPath, String.toList_append, String.toList_intercalate]
  rfl

/-- Whether a segment can be told from the text of a template: it leaves no empty place, holds no
slash, and is in braces exactly when it is a name. -/
def isLegible (segment : TemplateSegment) : Bool :=
  let text := segment.render.toList
  text ≠ [] && !text.contains '/' &&
    TemplateSegment.braced? text == segment.name?.map String.toList

theorem template_isLegible (op : Operation) : op.template.all isLegible = true := by
  cases op <;> cbv

theorem legible_spec {op : Operation} {segment : TemplateSegment} (h : segment ∈ op.template) :
    segment.render.toList ≠ [] ∧ '/' ∉ segment.render.toList ∧
      TemplateSegment.braced? segment.render.toList = segment.name?.map String.toList := by
  have hlegible := List.all_eq_true.mp op.template_isLegible segment h
  simpa [isLegible, and_assoc] using hlegible

/-- What stands between the slashes of a template's text. -/
def textParts (op : Operation) : List (List Char) :=
  op.templateText.toList.splitOn '/'

/-- The text begins with a slash, and behind it come the segments. -/
theorem textParts_eq (op : Operation) :
    op.textParts = [] :: op.template.map (·.render.toList) := by
  have hslash : ∀ part ∈ op.template.map (·.render.toList), '/' ∉ part := by
    intro part hpart
    obtain ⟨segment, hsegment, rfl⟩ := List.mem_map.mp hpart
    exact (legible_spec hsegment).2.1
  have hne : op.template.map (·.render.toList) ≠ [] := by
    cases op <;> exact List.cons_ne_nil _ _
  rw [textParts, templateText, toList_joinPath, List.map_map]
  change List.splitOn '/' ([] ++ '/' :: _) = _
  rw [List.splitOn_append_cons_self_of_not_mem List.not_mem_nil]
  exact congrArg ([] :: ·) (List.splitOn_intercalate '/' hslash hne)

/-- The parts of the text that are not empty are the segments of the template. -/
theorem textParts_filter (op : Operation) :
    op.textParts.filter (· ≠ []) = op.template.map (·.render.toList) := by
  have hkept : ∀ part ∈ op.template.map (·.render.toList), decide (part ≠ []) = true := by
    intro part hpart
    obtain ⟨segment, hsegment, rfl⟩ := List.mem_map.mp hpart
    exact decide_eq_true (legible_spec hsegment).1
  rw [textParts_eq, List.filter_cons_of_neg (by decide)]
  exact List.filter_eq_self.mpr hkept

/-- The names of a template are what its text has in braces. -/
theorem pathParameters_eq_braced (op : Operation) :
    op.pathParameters.map String.toList = op.textParts.filterMap TemplateSegment.braced? := by
  have hread : ∀ segment ∈ op.template, segment.name?.map String.toList =
      TemplateSegment.braced? segment.render.toList :=
    fun segment hsegment => (legible_spec hsegment).2.2.symm
  rw [textParts_eq, List.filterMap_cons_none (by rfl), List.filterMap_map, pathParameters,
    List.map_filterMap]
  exact List.filterMap_congr hread

/-! ### Filling in a template -/

/-- The value that stands in a segment's place. -/
def Fills (parameters : List (String × String)) : TemplateSegment → String → Prop
  | .literal text, value => value = text
  | .placeholder name, value => parameters.lookup name = some value

theorem segmentValue_eq_ok_iff {op : Operation} {parameters : List (String × String)}
    {segment : TemplateSegment} {value : String} :
    op.segmentValue parameters segment = .ok value ↔ Fills parameters segment value := by
  cases segment with
  | literal text => exact ⟨fun h => (Except.ok.inj h).symm, fun h => congrArg Except.ok h.symm⟩
  | placeholder name =>
    cases hvalue : parameters.lookup name <;> simp [segmentValue, Fills, hvalue]

theorem mapM_segmentValue {op : Operation} {parameters : List (String × String)}
    {template : List TemplateSegment} {values : List String} :
    template.mapM (op.segmentValue parameters) = .ok values ↔
      List.Forall₂ (Fills parameters) template values := by
  induction template generalizing values with
  | nil =>
    rw [List.mapM_nil]
    constructor
    · intro h
      rw [← Except.ok.inj h]
      exact .nil
    · rintro ⟨⟩
      rfl
  | cons segment template ih =>
    rw [List.mapM_cons, bind_eq_ok]
    constructor
    · rintro ⟨value, hvalue, h⟩
      obtain ⟨rest, hrest, h⟩ := bind_eq_ok.mp h
      rw [← Except.ok.inj h]
      exact .cons (segmentValue_eq_ok_iff.mp hvalue) (ih.mp hrest)
    · rintro (_ | ⟨hvalue, hrest⟩)
      exact ⟨_, segmentValue_eq_ok_iff.mpr hvalue, bind_eq_ok.mpr ⟨_, ih.mpr hrest, rfl⟩⟩

/-- The segments of a path are those of the template, filled in place by place. -/
theorem pathSegments_eq_ok_iff {op : Operation} {parameters : List (String × String)}
    {values : List String} :
    op.pathSegments parameters = .ok values ↔
      List.Forall₂ (Fills parameters) op.template values :=
  mapM_segmentValue

/-- A value and the segment of the template at its place. -/
theorem fills_at {op : Operation} {parameters : List (String × String)} {values : List String}
    (h : op.pathSegments parameters = .ok values) :
    values.length = op.template.length ∧ ∀ (i : Nat) segment value, op.template[i]? = some segment →
      values[i]? = some value → Fills parameters segment value := by
  have hfills := pathSegments_eq_ok_iff.mp h
  refine ⟨hfills.length_eq.symm, ?_⟩
  intro i segment value hsegment hvalue
  obtain ⟨hi, rfl⟩ := List.getElem?_eq_some_iff.mp hsegment
  obtain ⟨hi', rfl⟩ := List.getElem?_eq_some_iff.mp hvalue
  exact hfills.get hi hi'

/-- The names of the placeholders are those of the parameters. -/
theorem mem_pathParameters {op : Operation} {name : String} :
    name ∈ op.pathParameters ↔ .placeholder name ∈ op.template := by
  unfold pathParameters
  rw [List.mem_filterMap]
  constructor
  · rintro ⟨segment, hsegment, hname⟩
    cases segment with
    | literal text => exact absurd hname (by simp [TemplateSegment.name?])
    | placeholder found =>
      obtain rfl : found = name := Option.some.inj hname
      exact hsegment
  · exact fun h => ⟨_, h, rfl⟩

theorem exists_fills_iff {parameters : List (String × String)}
    {template : List TemplateSegment} :
    (∃ values, List.Forall₂ (Fills parameters) template values) ↔
      ∀ name, .placeholder name ∈ template → (parameters.lookup name).isSome := by
  induction template with
  | nil => exact ⟨nofun, fun _ => ⟨[], .nil⟩⟩
  | cons segment template ih =>
    constructor
    · rintro ⟨_, _ | ⟨hfills, hrest⟩⟩ name hname
      rcases List.mem_cons.mp hname with rfl | hname
      · exact Option.isSome_iff_exists.mpr ⟨_, hfills⟩
      · exact ih.mp ⟨_, hrest⟩ name hname
    · intro h
      obtain ⟨values, hvalues⟩ := ih.mpr fun name hname => h name (List.mem_cons_of_mem _ hname)
      cases segment with
      | literal text => exact ⟨text :: values, .cons rfl hvalues⟩
      | placeholder name =>
        obtain ⟨value, hvalue⟩ := Option.isSome_iff_exists.mp (h name List.mem_cons_self)
        exact ⟨value :: values, .cons hvalue hvalues⟩

/-- The first name without a value is what a path lacks. -/
theorem mapM_segmentValue_error {op : Operation} {parameters : List (String × String)}
    {template : List TemplateSegment} {missing : MissingParameter} :
    template.mapM (op.segmentValue parameters) = .error missing ↔
      missing.operation = op ∧
        (template.filterMap TemplateSegment.name?).find?
          (fun name => (parameters.lookup name).isNone) = some missing.parameter := by
  induction template with
  | nil =>
    rw [List.mapM_nil]
    exact iff_of_false nofun fun h => nomatch h.2
  | cons segment template ih =>
    -- Behind a segment that has a value only the rest can fail.
    have hrest {value : String} (hvalue : op.segmentValue parameters segment = .ok value) :
        (segment :: template).mapM (op.segmentValue parameters) = .error missing ↔
          template.mapM (op.segmentValue parameters) = .error missing := by
      rw [List.mapM_cons, bind_eq_error, hvalue]
      constructor
      · rintro (h | ⟨found, -, h⟩)
        · exact nomatch h
        · rcases bind_eq_error.mp h with h | ⟨values, -, h⟩
          · exact h
          · exact nomatch h
      · intro h
        exact Or.inr ⟨value, rfl, bind_eq_error.mpr (Or.inl h)⟩
    cases segment with
    | literal text =>
      rw [hrest rfl, ih]
      rfl
    | placeholder name =>
      rw [List.filterMap_cons_some (by rfl), List.find?_cons]
      cases hvalue : parameters.lookup name with
      | some value =>
        rw [hrest (segmentValue_eq_ok_iff.mpr hvalue), ih]
        rfl
      | none =>
        have hfails : op.segmentValue parameters (.placeholder name) = .error ⟨op, name⟩ := by
          simp [segmentValue, hvalue]
        rw [List.mapM_cons, hfails]
        change Except.error (⟨op, name⟩ : MissingParameter) = .error missing ↔
          missing.operation = op ∧ some name = some missing.parameter
        obtain ⟨operation, parameter⟩ := missing
        simp [eq_comm]

/-! ### The entry that counts -/

section Entries

variable {op : Operation} {parameters others : List (String × String)} {name value : String}

theorem not_mem_keys_iff :
    (∀ entry ∈ parameters, (name != entry.1) = true) ↔ name ∉ parameters.map Prod.fst := by
  simp only [bne_iff_ne, List.mem_map, not_exists, not_and]
  exact forall₂_congr fun _ _ => ne_comm

/-- The entry of a list that gives a name its value: the first with the name. -/
def FirstEntry (parameters : List (String × String)) (name value : String) : Prop :=
  ∃ before after, parameters = before ++ (name, value) :: after ∧ name ∉ before.map Prod.fst

theorem firstEntry_iff :
    FirstEntry parameters name value ↔ parameters.lookup name = some value := by
  simp only [FirstEntry, List.lookup_eq_some_iff, not_mem_keys_iff]

theorem lookup_isNone_iff :
    (parameters.lookup name).isNone = true ↔ name ∉ parameters.map Prod.fst := by
  rw [Option.isNone_iff_eq_none, List.lookup_eq_none_iff, not_mem_keys_iff]

theorem lookup_isSome_iff :
    (parameters.lookup name).isSome = true ↔ name ∈ parameters.map Prod.fst := by
  rw [← not_iff_not, ← lookup_isNone_iff, Option.isNone_iff_eq_none, Option.isSome_iff_ne_none,
    not_not]

/-- What a path is made of depends on the values of the template's names alone. -/
theorem pathSegments_congr
    (h : ∀ name ∈ op.pathParameters, parameters.lookup name = others.lookup name) :
    op.pathSegments parameters = op.pathSegments others := by
  have hvalue : ∀ segment ∈ op.template,
      op.segmentValue parameters segment = op.segmentValue others segment := by
    intro segment hsegment
    cases segment with
    | literal text => rfl
    | placeholder name =>
      rw [segmentValue, segmentValue, h name (mem_pathParameters.mpr hsegment)]
  unfold pathSegments
  generalize op.template = template at hvalue
  induction template with
  | nil => rfl
  | cons segment template ih =>
    obtain ⟨hsegment, hrest⟩ := List.forall_mem_cons.mp hvalue
    rw [List.mapM_cons, List.mapM_cons, hsegment, ih hrest]

/-- A change to a list of parameters of which no path of an operation takes notice: an entry
whose name is not in the template comes in, two entries of different names change places, or an
entry comes in behind another one of its name. -/
inductive Unnoticed (op : Operation) :
    List (String × String) → List (String × String) → Prop
  | unused (before after : List (String × String)) {name value : String}
      (hname : name ∉ op.pathParameters) :
      Unnoticed op (before ++ after) (before ++ (name, value) :: after)
  | exchanged (before after : List (String × String)) {first second : String × String}
      (hname : first.1 ≠ second.1) :
      Unnoticed op (before ++ first :: second :: after) (before ++ second :: first :: after)
  | repeated (before after : List (String × String)) {name value : String}
      (hname : name ∈ before.map Prod.fst) :
      Unnoticed op (before ++ after) (before ++ (name, value) :: after)

theorem lookup_cons_of_ne {key : String} (hne : name ≠ key) :
    ((key, value) :: parameters).lookup name = parameters.lookup name := by
  rw [List.lookup_cons, beq_eq_false_iff_ne.mpr hne]

/-- One such change leaves the values of the template's names as they are. -/
theorem Unnoticed.lookup_eq (h : Unnoticed op parameters others) :
    ∀ name ∈ op.pathParameters, parameters.lookup name = others.lookup name := by
  intro name hname
  cases h with
  | @unused before after key word hunused =>
    have hne : name ≠ key := by
      rintro rfl
      exact hunused hname
    rw [List.lookup_append, List.lookup_append, lookup_cons_of_ne hne]
  | @exchanged before after first second hdifferent =>
    obtain ⟨key, value⟩ := first
    obtain ⟨other, word⟩ := second
    rw [List.lookup_append, List.lookup_append]
    by_cases hkey : name = key
    · rw [← hkey] at hdifferent ⊢
      rw [List.lookup_cons_self, lookup_cons_of_ne hdifferent, List.lookup_cons_self]
    · rw [lookup_cons_of_ne hkey]
      by_cases hother : name = other
      · rw [hother, List.lookup_cons_self, List.lookup_cons_self]
      · rw [lookup_cons_of_ne hother, lookup_cons_of_ne hother, lookup_cons_of_ne hkey]
  | @repeated before after key word hrepeated =>
    rw [List.lookup_append, List.lookup_append]
    by_cases hkey : name = key
    · obtain ⟨found, hfound⟩ := Option.isSome_iff_exists.mp (lookup_isSome_iff.mpr hrepeated)
      rw [hkey, hfound]
      rfl
    · rw [lookup_cons_of_ne hkey]

/-- However many such changes are made or taken back, the same comes of the list. -/
theorem pathSegments_of_unnoticed (h : Relation.EqvGen (Unnoticed op) parameters others) :
    op.pathSegments parameters = op.pathSegments others := by
  induction h with
  | rel _ _ hstep => exact pathSegments_congr hstep.lookup_eq
  | refl _ => rfl
  | symm _ _ _ ih => exact ih.symm
  | trans _ _ _ _ _ ih ih' => exact ih.trans ih'

/-- What stands in a path for a part of the template's text: the part itself, or for a name in
braces the value of its first entry. -/
def StandsFor (parameters : List (String × String)) (part : List Char) (value : String) : Prop :=
  match TemplateSegment.braced? part with
  | none => value.toList = part
  | some name => FirstEntry parameters (String.ofList name) value

theorem forall₂_congr_of_mem {α β : Type} {R S : α → β → Prop} {l : List α} {u : List β}
    (h : ∀ a ∈ l, ∀ b, R a b ↔ S a b) : List.Forall₂ R l u ↔ List.Forall₂ S l u := by
  have hmem (R : α → β → Prop) : List.Forall₂ R l u ↔
      List.Forall₂ (fun a b => a ∈ l ∧ R a b) l u := by
    rw [List.forall₂_and_left]
    exact (and_iff_right fun _ ha => ha).symm
  have hboth : (fun a b => a ∈ l ∧ R a b) = fun a b => a ∈ l ∧ S a b := by
    funext a b
    exact propext (and_congr_right fun ha => h a ha b)
  rw [hmem R, hmem S, hboth]

theorem standsFor_iff {segment : TemplateSegment} (h : segment ∈ op.template) (value : String) :
    StandsFor parameters segment.render.toList value ↔ Fills parameters segment value := by
  unfold StandsFor
  rw [(legible_spec h).2.2]
  cases segment with
  | literal text =>
    change value.toList = text.toList ↔ value = text
    exact String.toList_inj
  | placeholder name =>
    change FirstEntry parameters (String.ofList name.toList) value ↔ _
    rw [String.ofList_toList, firstEntry_iff]
    rfl

end Entries

/-- When and with what a path can be made, for every operation and every list of parameters. It
can when each name in the template's text has an entry, and then has one segment for each part of
that text that is not empty. Otherwise it fails for the first name in the text that has none. The
outcome is the same for lists that differ in what no path takes notice of. -/
theorem pathSegments_spec (op : Operation) (parameters : List (String × String)) :
    let parts := op.templateText.toList.splitOn '/'
    op.pathParameters.map String.toList = parts.filterMap TemplateSegment.braced? ∧
    ((∃ values, op.pathSegments parameters = .ok values) ↔
      ∀ name ∈ op.pathParameters, name ∈ parameters.map Prod.fst) ∧
    (∀ values, op.pathSegments parameters = .ok values ↔
      List.Forall₂ (StandsFor parameters) (parts.filter (· ≠ [])) values) ∧
    (∀ missing, op.pathSegments parameters = .error missing ↔
      missing.operation = op ∧ missing.parameter ∉ parameters.map Prod.fst ∧
        ∃ before after, op.pathParameters = before ++ missing.parameter :: after ∧
          ∀ name ∈ before, name ∈ parameters.map Prod.fst) ∧
    ∀ others, Relation.EqvGen (Unnoticed op) parameters others →
      op.pathSegments others = op.pathSegments parameters := by
  intro parts
  refine ⟨op.pathParameters_eq_braced, ?_, ?_, ?_, ?_⟩
  · simp only [pathSegments_eq_ok_iff, exists_fills_iff, lookup_isSome_iff, mem_pathParameters]
  · intro values
    have hparts : parts.filter (· ≠ []) = op.template.map (·.render.toList) := op.textParts_filter
    rw [hparts, pathSegments_eq_ok_iff, List.forall₂_map_left_iff]
    exact forall₂_congr_of_mem fun segment hsegment value => (standsFor_iff hsegment value).symm
  · intro missing
    have hfirst : op.pathSegments parameters = .error missing ↔ _ := mapM_segmentValue_error
    rw [hfirst, ← pathParameters, List.find?_eq_some_iff_append, lookup_isNone_iff]
    simp only [Option.not_isNone, lookup_isSome_iff]
  · intro others hothers
    exact (pathSegments_of_unnoticed hothers).symm

/-- A list with a name that is not asked for, in another order than the template's and with a
name in it twice; and a list that lacks the first and the last of three names. -/
theorem pathSegments_spec_of_disorder :
    let tidy := [("namespace", "n"), ("app", "a/b")]
    let found := [("unused", "x"), ("app", "a/b"), ("namespace", "n"), ("app", "later")]
    Relation.EqvGen (Unnoticed .appDetails) tidy found ∧
      Operation.appDetails.pathSegments found = Operation.appDetails.pathSegments tidy ∧
      Operation.appDetails.pathSegments found = .ok ["api", "namespaces", "n", "apps", "a/b"] ∧
      Operation.graphAppVersion.pathSegments [("app", "a/b")] =
        .error ⟨.graphAppVersion, "namespace"⟩ := by
  intro tidy found
  have hturned : Unnoticed .appDetails tidy [("app", "a/b"), ("namespace", "n")] :=
    .exchanged [] [] (by decide)
  have hunused : Unnoticed .appDetails [("app", "a/b"), ("namespace", "n")]
      [("unused", "x"), ("app", "a/b"), ("namespace", "n")] :=
    .unused [] [("app", "a/b"), ("namespace", "n")] (by decide)
  have hrepeated : Unnoticed .appDetails [("unused", "x"), ("app", "a/b"), ("namespace", "n")]
      found :=
    .repeated [("unused", "x"), ("app", "a/b"), ("namespace", "n")] [] (by decide)
  have hfound : Relation.EqvGen (Unnoticed .appDetails) tidy found :=
    .trans _ _ _ (.rel _ _ hturned) (.trans _ _ _ (.rel _ _ hunused) (.rel _ _ hrepeated))
  obtain ⟨-, -, -, -, hsame⟩ := pathSegments_spec .appDetails tidy
  obtain ⟨-, -, -, hlacks, -⟩ := pathSegments_spec .graphAppVersion [("app", "a/b")]
  refine ⟨hfound, hsame found hfound, rfl, (hlacks ⟨.graphAppVersion, "namespace"⟩).mpr ?_⟩
  exact ⟨rfl, by decide, [], ["app", "version"], rfl, nofun⟩

end Operation

end MeshProbe
