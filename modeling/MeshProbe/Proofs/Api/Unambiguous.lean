import MeshProbe.Proofs.Api.Template

/-!
Which operation a path belongs to. Two templates of the same length that do not
differ in a literal at one place can have a path in common, whatever the templates
look like as texts: a value can be what the other template has for a literal.
Among the operations there is one such pair. Any other path tells its operation
and every value that was put into it.
-/

namespace MeshProbe.Operation

/-! ### Templates without a common path -/

/-- Whether two templates are told apart by their lengths or by different literals at one place. -/
def apart : List TemplateSegment → List TemplateSegment → Bool
  | [], [] => false
  | segment :: rest, other :: others =>
    match segment, other with
    | .literal text, .literal word => text ≠ word || apart rest others
    | _, _ => apart rest others
  | _, _ => true

section Filled

variable {parameters others : List (String × String)} {template other : List TemplateSegment}
  {values : List String}

/-- Templates that are told apart are never filled to the same segments. -/
theorem not_apart_of_fills (h : List.Forall₂ (Fills parameters) template values)
    (hother : List.Forall₂ (Fills others) other values) : apart template other = false := by
  induction h generalizing other with
  | nil =>
    cases hother with
    | nil => rfl
  | @cons segment value template values hsegment _ ih =>
    cases hother with
    | @cons segment' _ rest _ hsegment' hrest =>
      have htail : apart template rest = false := ih hrest
      cases segment with
      | placeholder name => exact htail
      | literal text =>
        cases segment' with
        | placeholder name => exact htail
        | literal word =>
          have hsame : text = word := hsegment.symm.trans hsegment'
          rw [apart, htail, Bool.or_false]
          exact decide_eq_false (not_not_intro hsame)

/-- What one template is filled to tells the value of each of its names. -/
theorem lookup_eq_of_fills (h : List.Forall₂ (Fills parameters) template values)
    (hother : List.Forall₂ (Fills others) template values) :
    ∀ name, .placeholder name ∈ template → parameters.lookup name = others.lookup name := by
  intro name hname
  induction h with
  | nil => exact absurd hname List.not_mem_nil
  | @cons segment value template values hsegment _ ih =>
    cases hother with
    | cons hsegment' hrest =>
      rcases List.mem_cons.mp hname with rfl | hname
      · exact hsegment.trans hsegment'.symm
      · exact ih hrest hname

end Filled

/-! ### The operations -/

theorem mem_all (op : Operation) : op ∈ all := by
  cases op <;> decide

/-- The two operations whose templates are not told apart: below an object type, the one has a
literal where the other has a name. -/
def Neighbours (op other : Operation) : Prop :=
  op = .objectValidations ∧ other = .istioConfigDetailsSubtype

instance (op other : Operation) : Decidable (Neighbours op other) :=
  inferInstanceAs (Decidable (_ ∧ _))

/-- Of any other two operations the templates are told apart. -/
theorem eq_or_neighbours_of_not_apart {op other : Operation}
    (h : apart op.template other.template = false) :
    op = other ∨ Neighbours op other ∨ Neighbours other op := by
  have hall : ∀ op ∈ all, ∀ other ∈ all, apart op.template other.template = false →
      op = other ∨ Neighbours op other ∨ Neighbours other op := by
    decide +kernel
  exact hall op op.mem_all other other.mem_all h

/-! ### The pair -/

section Pair

variable {parameters others : List (String × String)} {values words : List String}

theorem pathSegments_objectValidations
    (h : Operation.objectValidations.pathSegments parameters = .ok values) :
    ∃ space kind object, parameters.lookup "namespace" = some space ∧
      parameters.lookup "object_type" = some kind ∧ parameters.lookup "object" = some object ∧
      values = ["api", "namespaces", space, "istio", kind, object, "istio_validations"] := by
  have hfills := pathSegments_eq_ok_iff.mp h
  simp only [template, inNamespace, inNamespaces, List.forall₂_cons_left_iff,
    List.forall₂_nil_left_iff] at hfills
  obtain ⟨_, _, rfl, ⟨_, _, rfl, ⟨space, _, hspace, ⟨_, _, rfl, ⟨kind, _, hkind, ⟨object, _,
    hobject, ⟨_, _, rfl, rfl, rfl⟩, rfl⟩, rfl⟩, rfl⟩, rfl⟩, rfl⟩, rfl⟩ := hfills
  exact ⟨space, kind, object, hspace, hkind, hobject, rfl⟩

theorem pathSegments_istioConfigDetailsSubtype
    (h : Operation.istioConfigDetailsSubtype.pathSegments parameters = .ok values) :
    ∃ space kind subtype object, parameters.lookup "namespace" = some space ∧
      parameters.lookup "object_type" = some kind ∧
      parameters.lookup "object_subtype" = some subtype ∧
      parameters.lookup "object" = some object ∧
      values = ["api", "namespaces", space, "istio", kind, subtype, object] := by
  have hfills := pathSegments_eq_ok_iff.mp h
  simp only [template, inNamespace, inNamespaces, List.forall₂_cons_left_iff,
    List.forall₂_nil_left_iff] at hfills
  obtain ⟨_, _, rfl, ⟨_, _, rfl, ⟨space, _, hspace, ⟨_, _, rfl, ⟨kind, _, hkind, ⟨subtype, _,
    hsubtype, ⟨object, _, hobject, rfl, rfl⟩, rfl⟩, rfl⟩, rfl⟩, rfl⟩, rfl⟩, rfl⟩ := hfills
  exact ⟨space, kind, subtype, object, hspace, hkind, hsubtype, hobject, rfl⟩

/-- How the values for the two neighbouring operations go together when their paths are one. -/
structure Coincide (parameters others : List (String × String)) : Prop where
  space : parameters.lookup "namespace" = others.lookup "namespace"
  kind : parameters.lookup "object_type" = others.lookup "object_type"
  object : parameters.lookup "object" = others.lookup "object_subtype"
  imitated : others.lookup "object" = some "istio_validations"

theorem coincide_iff (h : Operation.objectValidations.pathSegments parameters = .ok values)
    (hother : Operation.istioConfigDetailsSubtype.pathSegments others = .ok words) :
    values = words ↔ Coincide parameters others := by
  obtain ⟨space, kind, object, hspace, hkind, hobject, rfl⟩ := pathSegments_objectValidations h
  obtain ⟨space', kind', subtype', object', hspace', hkind', hsubtype', hobject', rfl⟩ :=
    pathSegments_istioConfigDetailsSubtype hother
  constructor
  · intro heq
    simp only [List.cons.injEq, true_and, and_true] at heq
    obtain ⟨rfl, rfl, rfl, rfl⟩ := heq
    exact ⟨hspace.trans hspace'.symm, hkind.trans hkind'.symm, hobject.trans hsubtype'.symm,
      hobject'⟩
  · intro heq
    have hspaces : space = space' := Option.some.inj (hspace.symm.trans (heq.space.trans hspace'))
    have hkinds : kind = kind' := Option.some.inj (hkind.symm.trans (heq.kind.trans hkind'))
    have hobjects : object = subtype' :=
      Option.some.inj (hobject.symm.trans (heq.object.trans hsubtype'))
    have himitated : object' = "istio_validations" :=
      Option.some.inj (hobject'.symm.trans heq.imitated)
    rw [hspaces, hkinds, hobjects, himitated]

end Pair

/-- When two operations have the same path, each made with values of its own. They are one
operation and every name of its template has the same value for both; or they are the two
neighbouring ones, and the value of the object of the one is the literal of the other. -/
theorem pathSegments_eq_iff {op other : Operation} {parameters others : List (String × String)}
    {values words : List String} (h : op.pathSegments parameters = .ok values)
    (hother : other.pathSegments others = .ok words) :
    values = words ↔
      (op = other ∧ ∀ name ∈ op.pathParameters, parameters.lookup name = others.lookup name) ∨
      (Neighbours op other ∧ Coincide parameters others) ∨
      (Neighbours other op ∧ Coincide others parameters) := by
  constructor
  · rintro rfl
    have hfills := pathSegments_eq_ok_iff.mp h
    have hfills' := pathSegments_eq_ok_iff.mp hother
    rcases eq_or_neighbours_of_not_apart (not_apart_of_fills hfills hfills') with
      rfl | ⟨rfl, rfl⟩ | ⟨rfl, rfl⟩
    · refine Or.inl ⟨rfl, fun name hname => ?_⟩
      exact lookup_eq_of_fills hfills hfills' name (mem_pathParameters.mp hname)
    · exact Or.inr (Or.inl ⟨⟨rfl, rfl⟩, (coincide_iff h hother).mp rfl⟩)
    · exact Or.inr (Or.inr ⟨⟨rfl, rfl⟩, (coincide_iff hother h).mp rfl⟩)
  · rintro (⟨rfl, hsame⟩ | ⟨⟨rfl, rfl⟩, hsame⟩ | ⟨⟨rfl, rfl⟩, hsame⟩)
    · exact Except.ok.inj (h.symm.trans ((pathSegments_congr hsame).trans hother))
    · exact (coincide_iff h hother).mpr hsame
    · exact ((coincide_iff hother h).mpr hsame).symm

/-- An object that is called like the literal: its path is that of the checks of another object,
and from the path alone no one can tell. -/
theorem pathSegments_eq_iff_of_imitated_literal :
    let checked := [("namespace", "n"), ("object_type", "rules"), ("object", "a/b")]
    let named := [("object", "istio_validations"), ("object_subtype", "a/b"), ("namespace", "n"),
      ("object_type", "rules")]
    ∃ values, Operation.objectValidations.pathSegments checked = .ok values ∧
      Operation.istioConfigDetailsSubtype.pathSegments named = .ok values ∧
      Coincide checked named := by
  intro checked named
  have hchecked : Operation.objectValidations.pathSegments checked =
      .ok ["api", "namespaces", "n", "istio", "rules", "a/b", "istio_validations"] := rfl
  have hnamed : Operation.istioConfigDetailsSubtype.pathSegments named =
      .ok ["api", "namespaces", "n", "istio", "rules", "a/b", "istio_validations"] := rfl
  rcases (pathSegments_eq_iff hchecked hnamed).mp rfl with ⟨h, -⟩ | ⟨-, h⟩ | ⟨⟨h, -⟩, -⟩
  · exact nomatch h
  · exact ⟨_, hchecked, hnamed, h⟩
  · exact nomatch h

end MeshProbe.Operation
