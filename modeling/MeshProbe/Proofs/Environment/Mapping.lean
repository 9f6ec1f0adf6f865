import MeshProbe.Environment.Load
import MeshProbe.Proofs.Environment.Writing

/-!
An environment is read by key and not by position: the order of the entries and the
entries of other keys are of no account, a field that is left out has its default
or is missed, and a field that is given twice is refused. Listing the fields in
order says the same. A text and a file that holds it are read alike.
-/

namespace MeshProbe.Environment

open Yaml

variable {anchored : List (Nat × Node)} {entries : List (Node × Node)} {env : Environment}

/-! ### What a mapping is read as -/

/-- What is given for a field settles what it holds: one value that is one of the field, or no
value where the field has a default. -/
def Field.Settled (f : Field) (values : List (Option f.Content)) (x : f.Content) : Prop :=
  values = [some x] ∨ values = [] ∧ f.default? = some x

theorem Draft.settled_held_iff {d : Draft} {f : Field} {x : f.Content} :
    f.Settled (d.held f) x ↔ d.content? f = some x := by
  cases hd : d f with
  | none => simp [Field.Settled, Draft.held_of_none hd, Draft.content?, hd]
  | some y => simp [Field.Settled, Draft.held_of_some hd, Draft.content?, hd]

theorem Field.Settled.exists_held {f : Field} {values : List (Option f.Content)} {x : f.Content}
    (h : f.Settled values x) : ∃ y : Option f.Content, values = y.toList.map some := by
  obtain rfl | ⟨rfl, -⟩ := h
  · exact ⟨some x, rfl⟩
  · exact ⟨none, rfl⟩

/-- A permutation of what settles a field is the same. -/
theorem Field.Settled.perm {f : Field} {values values' : List (Option f.Content)}
    {x : f.Content} (h : f.Settled values x) (hperm : values'.Perm values) :
    f.Settled values' x := by
  obtain rfl | ⟨rfl, hdefault⟩ := h
  · exact Or.inl (List.perm_singleton.mp hperm)
  · exact Or.inr ⟨List.perm_nil.mp hperm, hdefault⟩

theorem Field.Settled.fits {f : Field} {x : f.Content}
    (h : f.Settled (givens anchored f entries) x) : f.Fits x := by
  obtain hgiven | ⟨-, hdefault⟩ := h
  · obtain ⟨e, -, he⟩ := List.mem_filterMap.mp (hgiven ▸ List.mem_cons_self)
    by_cases hnames : Names anchored f e.1
    · exact Field.fits_of_value? (Option.some.inj ((given_of_names hnames).symm.trans he))
    · cases (given_of_not_names hnames).symm.trans he
  · exact Field.fits_default hdefault

/-- The entries can be gone through where each field is given one value of the field, or none. -/
theorem exists_foldlM_readEntry (hkeys : ∀ e ∈ entries, (keyText? anchored e.1).isSome)
    (hgivens : ∀ f : Field, ∃ y : Option f.Content,
      givens anchored f entries = y.toList.map some) :
    ∃ d, entries.foldlM (readEntry anchored) Draft.empty = .ok d ∧
      ∀ f, givens anchored f entries = Draft.held d f := by
  choose d hd using hgivens
  exact ⟨d, foldlM_readEntry_eq_ok_iff.mpr ⟨hkeys, hd⟩, hd⟩

theorem ofNode_mapping_of_foldlM {d : Draft}
    (h : entries.foldlM (readEntry anchored) Draft.empty = .ok d) :
    ofNode anchored (.mapping entries) =
      d.finish.mapError fun f => .problem .root (.missingField f.key) := by
  change readMapping anchored entries = _
  unfold readMapping
  rw [h]
  dsimp only [bind, Except.bind]
  cases d.finish <;> rfl

/-- A mapping is read as an environment exactly when its keys are text and what it gives for each
field settles what the environment holds there. -/
theorem ofNode_mapping_eq_ok_iff :
    ofNode anchored (.mapping entries) = .ok env ↔
      (∀ e ∈ entries, (keyText? anchored e.1).isSome) ∧
        ∀ f : Field, f.Settled (givens anchored f entries) (env.content f) := by
  constructor
  · intro h
    cases hfold : entries.foldlM (readEntry anchored) Draft.empty with
    | error e =>
      change readMapping anchored entries = _ at h
      rw [readMapping, hfold] at h
      cases h
    | ok d =>
      rw [ofNode_mapping_of_foldlM hfold] at h
      have hfinish : d.finish = .ok env := by
        cases hd : d.finish <;> rw [hd] at h <;> cases h
        rfl
      obtain ⟨hkeys, hheld⟩ := foldlM_readEntry_eq_ok_iff.mp hfold
      refine ⟨hkeys, fun f => ?_⟩
      have hgivens : givens anchored f entries = d.held f := hheld f
      rw [hgivens]
      exact Draft.settled_held_iff.mpr (Draft.finish_eq_ok_iff.mp hfinish f)
  · rintro ⟨hkeys, hsettled⟩
    obtain ⟨d, hfold, hheld⟩ := exists_foldlM_readEntry hkeys fun f => (hsettled f).exists_held
    have hfinish : d.finish = .ok env :=
      Draft.finish_eq_ok_iff.mpr fun f => Draft.settled_held_iff.mp (hheld f ▸ hsettled f)
    rw [ofNode_mapping_of_foldlM hfold, hfinish]
    rfl

/-- Where all is settled but a field that has no default, that field is told to be missing. -/
theorem ofNode_mapping_of_missing {f : Field}
    (hkeys : ∀ e ∈ entries, (keyText? anchored e.1).isSome)
    (hmissing : givens anchored f entries = []) (hdefault : f.default? = none)
    (hothers : ∀ g ≠ f, g.Settled (givens anchored g entries) (env.content g)) :
    ofNode anchored (.mapping entries) = .error (.problem .root (.missingField f.key)) := by
  have hgivens : ∀ g : Field, ∃ y : Option g.Content,
      givens anchored g entries = y.toList.map some := by
    intro g
    by_cases hg : g = f
    · subst hg
      exact ⟨none, hmissing⟩
    · exact (hothers g hg).exists_held
  obtain ⟨d, hfold, hheld⟩ := exists_foldlM_readEntry hkeys hgivens
  have hnone : d.content? f = none := by
    have hd : d f = none := by
      have hlist : (d f).toList.map some = [] := (hheld f).symm.trans hmissing
      simpa using hlist
    rw [Draft.content?, hd, hdefault]
    rfl
  have hsome : ∀ g ≠ f, (d.content? g).isSome := fun g hg =>
    Option.isSome_of_eq_some (Draft.settled_held_iff.mp (hheld g ▸ hothers g hg))
  rw [ofNode_mapping_of_foldlM hfold, Draft.finish_eq_error hnone hsome]
  rfl

/-! ### Entries that come and go -/

theorem givens_leaveOut {f : Field} {before after : List (Node × Node)} {e : Node × Node}
    (h : ¬ Names anchored f e.1) :
    givens anchored f (before ++ e :: after) = givens anchored f (before ++ after) := by
  rw [givens_append, givens_cons, given_of_not_names h, givens_append]
  rfl

theorem givens_of_names {f : Field} {before after : List (Node × Node)} {e : Node × Node}
    (h : Names anchored f e.1) :
    givens anchored f (before ++ e :: after) =
      givens anchored f before ++ f.value? anchored e.2 :: givens anchored f after := by
  rw [givens_append, givens_cons, given_of_names h]
  rfl

/-- The entry of a field is the only one of it, and its value is what the field holds. -/
theorem Field.Settled.of_names {f : Field} {x : f.Content} {before after : List (Node × Node)}
    {e : Node × Node} (h : f.Settled (givens anchored f (before ++ e :: after)) x)
    (hnames : Names anchored f e.1) :
    f.value? anchored e.2 = some x ∧ givens anchored f (before ++ after) = [] := by
  rw [givens_of_names hnames] at h
  rw [givens_append, List.append_eq_nil_iff]
  obtain hone | ⟨hnil, -⟩ := h
  · rcases List.append_eq_singleton_iff.mp hone with ⟨hbefore, hrest⟩ | ⟨-, hrest⟩
    · obtain ⟨hvalue, hafter⟩ := List.cons.inj hrest
      exact ⟨hvalue, hbefore, hafter⟩
    · cases hrest
  · exact absurd hnil (by simp)

/-- The environment with the default of a field in it, if the field has one. -/
def leftOut (env : Environment) : Field → Option Environment
  | .hostname | .meshNamespace => none
  | .username => some { env with username := none }
  | .password => some { env with password := none }
  | .usesTls => some { env with usesTls := false }
  | .verifiesTls => some { env with verifiesTls := false }
  | .istioRole => some { env with istioRole := none }
  | .openshiftRole => some { env with openshiftRole := none }
  | .kubernetesRole => some { env with kubernetesRole := none }
  | .timeoutSeconds => some { env with timeoutSeconds := 30 }

theorem default?_of_leftOut {env' : Environment} {f : Field} (h : env.leftOut f = some env') :
    f.default? = some (env'.content f) := by
  cases f <;> cases h <;> rfl

theorem content_of_leftOut {env' : Environment} {f g : Field} (h : env.leftOut f = some env')
    (hg : g ≠ f) : env'.content g = env.content g := by
  cases f <;> cases h <;> cases g <;> first | rfl | exact absurd rfl hg

theorem default?_of_leftOut_none {f : Field} (h : env.leftOut f = none) : f.default? = none := by
  cases f <;> first | rfl | cases h

theorem ofNode_perm {extra entries' : List (Node × Node)}
    (h : ofNode anchored (.mapping entries) = .ok env)
    (hextra : ∀ e ∈ extra, ∃ text, keyText? anchored e.1 = some text ∧ ∀ f : Field, text ≠ f.key)
    (hperm : entries'.Perm (entries ++ extra)) :
    ofNode anchored (.mapping entries') = .ok env := by
  obtain ⟨hkeys, hsettled⟩ := ofNode_mapping_eq_ok_iff.mp h
  refine ofNode_mapping_eq_ok_iff.mpr ⟨fun e he => ?_, fun f => ?_⟩
  · rcases List.mem_append.mp (hperm.mem_iff.mp he) with hold | hnew
    · exact hkeys e hold
    · obtain ⟨text, htext, -⟩ := hextra e hnew
      exact Option.isSome_of_eq_some htext
  · have hnone : givens anchored f extra = [] := givens_eq_nil fun e he hnames => by
      obtain ⟨text, htext, hother⟩ := hextra e he
      exact hother f (Option.some.inj (htext.symm.trans hnames))
    refine (hsettled f).perm ?_
    have hgivens := hperm.filterMap (given anchored f)
    rwa [List.filterMap_append, show extra.filterMap (given anchored f) = [] from hnone,
      List.append_nil] at hgivens

theorem ofNode_leaveOut {f : Field} {before after : List (Node × Node)} {e : Node × Node}
    (h : ofNode anchored (.mapping (before ++ e :: after)) = .ok env)
    (hnames : Names anchored f e.1) :
    ofNode anchored (.mapping (before ++ after)) =
      match env.leftOut f with
      | some env' => .ok env'
      | none => .error (.problem .root (.missingField f.key)) := by
  obtain ⟨hkeys, hsettled⟩ := ofNode_mapping_eq_ok_iff.mp h
  have hkeys' : ∀ e' ∈ before ++ after, (keyText? anchored e'.1).isSome := fun e' he' =>
    hkeys e' (((List.sublist_cons_self e after).append_left before).subset he')
  have hnone := ((hsettled f).of_names hnames).2
  have hothers : ∀ g ≠ f, g.Settled (givens anchored g (before ++ after)) (env.content g) := by
    intro g hg
    rw [← givens_leaveOut fun hnames' => hg (hnames'.unique hnames)]
    exact hsettled g
  cases hleft : env.leftOut f with
  | none => exact ofNode_mapping_of_missing hkeys' hnone (default?_of_leftOut_none hleft) hothers
  | some env' =>
    refine ofNode_mapping_eq_ok_iff.mpr ⟨hkeys', fun g => ?_⟩
    by_cases hg : g = f
    · subst hg
      exact Or.inr ⟨hnone, default?_of_leftOut hleft⟩
    · rw [content_of_leftOut hleft hg]
      exact hothers g hg

/-- A mapping that gives a field once more is not read, whatever it then says of it. -/
theorem ofNode_repeated {f : Field} {e e' : Node × Node} {entries' : List (Node × Node)}
    (hmem : e ∈ entries) (hnames : Names anchored f e.1) (hnames' : Names anchored f e'.1)
    (hperm : entries'.Perm (e' :: entries)) :
    ∃ problem, ofNode anchored (.mapping entries') = .error problem := by
  cases hread : ofNode anchored (.mapping entries') with
  | error problem => exact ⟨problem, rfl⟩
  | ok env =>
    have hsettled : f.Settled (givens anchored f ([] ++ e' :: entries)) (env.content f) :=
      ((ofNode_mapping_eq_ok_iff.mp hread).2 f).perm (hperm.symm.filterMap (given anchored f))
    have hnone : givens anchored f entries = [] := (hsettled.of_names hnames').2
    have hgiven := List.filterMap_eq_nil_iff.mp hnone e hmem
    rw [given_of_names hnames] at hgiven
    cases hgiven

/-! ### Sequences -/

/-- Reading items one after another, where each is the value of its field: those fields are held
and the others left alone. -/
theorem foldlM_readItem {items : List (Node × Nat × Field)} {d : Draft}
    (h : ∀ t ∈ items, t.2.2.value? anchored t.1 = some (env.content t.2.2)) :
    ∃ d', items.foldlM (readItem anchored) d = .ok d' ∧
      ∀ f, d' f = if f ∈ items.map (·.2.2) then some (env.content f) else d f := by
  induction items generalizing d with
  | nil => exact ⟨d, rfl, fun f => rfl⟩
  | cons t rest ih =>
    obtain ⟨node, index, g⟩ := t
    obtain ⟨hvalue, hrest⟩ := List.forall_mem_cons.mp h
    obtain ⟨d', hfold, hd'⟩ := ih (d := d.put g (env.content g)) hrest
    have hread : g.read anchored (.item .root index) node = .ok (env.content g) :=
      Field.read_eq_ok_iff.mpr hvalue
    refine ⟨d', ?_, fun f => ?_⟩
    · rw [List.foldlM_cons, readItem, hread]
      exact hfold
    · rw [hd' f]
      by_cases hf : f = g
      · subst hf
        simp [Draft.put_self]
      · have hmem : f ∈ ((node, index, g) :: rest).map (·.2.2) ↔ f ∈ rest.map (·.2.2) := by
          simp [hf]
        rw [Draft.put_of_ne d _ (Ne.symm hf)]
        simp only [hmem]

/-- A sequence of a value for each field, in order, is read as the environment that has them. -/
theorem ofNode_sequence {nodes : Field → Node}
    (h : ∀ f : Field, f.value? anchored (nodes f) = some (env.content f)) :
    ofNode anchored (.sequence (Field.all.map nodes)) = .ok env := by
  let items := ((List.range Field.all.length).zip Field.all).map fun p => (nodes p.2, p)
  have hitems : (Field.all.map nodes).zip ((List.range Field.all.length).zip Field.all) = items :=
    rfl
  have hvalues : ∀ t ∈ items, t.2.2.value? anchored t.1 = some (env.content t.2.2) := by
    intro t ht
    obtain ⟨p, -, rfl⟩ := List.mem_map.mp ht
    exact h p.2
  obtain ⟨d, hfold, hd⟩ := foldlM_readItem (d := Draft.empty) hvalues
  have hfields : ∀ f, d f = some (env.content f) := by
    intro f
    rw [hd f]
    exact if_pos (f.mem_all)
  have hfinish : d.finish = .ok env := Draft.finish_eq_ok_iff.mpr fun f => by
    rw [Draft.content?, hfields f]
    rfl
  change readSequence anchored _ = _
  unfold readSequence
  dsimp only
  rw [hitems, hfold]
  dsimp only [bind, Except.bind]
  rw [hfinish]
  rfl

/-! ### Reading by key -/

/-- A mapping is read by its keys alone. -/
structure ReadByKey (anchored : List (Nat × Node)) (entries : List (Node × Node))
    (env : Environment) : Prop where
  /-- Neither the order of the entries nor those of other keys matter. -/
  anyOrder : ∀ extra entries',
    (∀ e ∈ extra, ∃ text, keyText? anchored e.1 = some text ∧ ∀ f : Field, text ≠ f.key) →
    entries'.Perm (entries ++ extra) → ofNode anchored (.mapping entries') = .ok env
  /-- A field whose entry is taken away has its default, or is missing where it has none. -/
  takenAway : ∀ f before e after, entries = before ++ e :: after → Names anchored f e.1 →
    ofNode anchored (.mapping (before ++ after)) =
      match env.leftOut f with
      | some env' => .ok env'
      | none => .error (.problem .root (.missingField f.key))
  /-- No field is given once more, be it anywhere and with any value. -/
  repeated : ∀ f e e' entries', e ∈ entries → Names anchored f e.1 → Names anchored f e'.1 →
    entries'.Perm (e' :: entries) →
    ∃ problem, ofNode anchored (.mapping entries') = .error problem
  /-- The values of the fields may be listed in order. -/
  listed : ∀ nodes : Field → Node,
    (∀ f : Field, f.value? anchored (nodes f) = some (env.content f)) →
    ofNode anchored (.sequence (Field.all.map nodes)) = .ok env
  /-- The mapping has such a value for each field that it names. -/
  held : ∀ f : Field, ∀ e ∈ entries, Names anchored f e.1 →
    f.value? anchored e.2 = some (env.content f)
  /-- Such a value can be written for every field. -/
  written : ∀ f : Field, f.value? anchored (f.write (env.content f)) = some (env.content f)

theorem readByKey (h : ofNode anchored (.mapping entries) = .ok env) :
    ReadByKey anchored entries env where
  anyOrder extra entries' hextra hperm := ofNode_perm h hextra hperm
  takenAway f before e after heq hnames := by
    subst heq
    exact ofNode_leaveOut h hnames
  repeated f e e' entries' hmem hnames hnames' hperm :=
    ofNode_repeated hmem hnames hnames' hperm
  listed nodes hnodes := ofNode_sequence hnodes
  held f e hmem hnames := by
    obtain ⟨before, after, rfl⟩ := List.append_of_mem hmem
    exact (((ofNode_mapping_eq_ok_iff.mp h).2 f).of_names hnames).1
  written f := f.value?_write anchored ((ofNode_mapping_eq_ok_iff.mp h).2 f).fits

/-! ### Texts and files -/

theorem ofYaml_eq_ok_iff_parse {text : String} :
    ofYaml text = .ok env ↔ parse text = .ok env := by
  unfold ofYaml
  cases parse text <;> simp

theorem ofFile_eq_ok_iff {files : Files} {path text : String} (h : files.read path = .ok text) :
    ofFile files path = .ok env ↔ ofYaml text = .ok env := by
  rw [ofYaml_eq_ok_iff_parse, ofFile, h]
  dsimp only
  cases parse text <;> simp

/-- A text of one document is read as its node. -/
theorem ofYaml_eq_ok_iff {text : String} {node : Node} {events : Nat}
    (h : Stream.parse? text = some ⟨[node], anchored, events⟩) :
    ofYaml text = .ok env ↔ ofNode anchored node = .ok env := by
  rw [ofYaml_eq_ok_iff_parse, parse, h]
  dsimp only
  cases ofNode anchored node <;> rfl

/-- What is read from a mapping is read from it by key: in any order, with entries of other keys,
without those of fields that have a default, and from the list of its values, but not with a field
twice. Every way to read a text comes to the same, and for one document to what its node is read
as. -/
theorem ofNode_mapping_spec (h : ofNode anchored (.mapping entries) = .ok env) :
    Field.all.map Field.key =
      ["kiali_hostname", "kiali_username", "kiali_password", "kiali_ssl_enabled",
        "kiali_verify_tls", "mesh_bookinfo_namespace", "istio_clusterrole",
        "kiali_openshift_clusterrole", "kiali_kubernetes_clusterrole", "request_timeout_secs"] ∧
    ReadByKey anchored entries env ∧
    ∀ text env',
      (ofString text = .ok env' ↔ ofYaml text = .ok env') ∧
      (∀ files path, files.read path = .ok text →
        (ofFile files path = .ok env' ↔ ofYaml text = .ok env')) ∧
      ∀ node events, Stream.parse? text = some ⟨[node], anchored, events⟩ →
        (ofYaml text = .ok env' ↔ ofNode anchored node = .ok env') := by
  refine ⟨rfl, readByKey h, fun text env' => ⟨Iff.rfl, ?_, ?_⟩⟩
  · intro files path hread
    exact ofFile_eq_ok_iff hread
  · intro node events hparse
    exact ofYaml_eq_ok_iff hparse

/-! ### A mapping in disorder -/

/-- The fields that are wanted and one more, the host name by way of an alias. -/
def disordered : List (Node × Node) :=
  [(.scalar true none "request_timeout_secs", .scalar true none "5"),
    (.scalar true none "mesh_bookinfo_namespace", .scalar true none "bookinfo"),
    (.scalar false none "kiali_hostname", .alias 1)]

def disorderedAnchors : List (Nat × Node) :=
  [(1, .scalar true none "localhost:20001")]

def disorderedEnvironment : Environment :=
  { blank with hostname := "localhost:20001", meshNamespace := "bookinfo", timeoutSeconds := 5 }

theorem ofNode_mapping_spec_disordered :
    let note : Node × Node := (.scalar true none "note", .sequence [])
    let again : Node × Node := (.scalar true none "kiali_hostname", .mapping [])
    ofNode disorderedAnchors (.mapping disordered) = .ok disorderedEnvironment ∧
    ofNode disorderedAnchors (.mapping (note :: disordered.reverse)) =
      .ok disorderedEnvironment ∧
    ofNode disorderedAnchors (.mapping disordered.tail) =
      .ok { disorderedEnvironment with timeoutSeconds := 30 } ∧
    ofNode disorderedAnchors (.mapping disordered.dropLast) =
      .error (.problem .root (.missingField "kiali_hostname")) ∧
    (∃ problem, ofNode disorderedAnchors (.mapping (again :: disordered)) = .error problem) ∧
    ofNode disorderedAnchors (.sequence (Field.all.map fun f =>
      f.write (disorderedEnvironment.content f))) = .ok disorderedEnvironment := by
  intro note again
  have hread : ofNode disorderedAnchors (.mapping disordered) = .ok disorderedEnvironment := by
    decide +kernel
  obtain ⟨-, ⟨anyOrder, takenAway, repeated, listed, -, written⟩, -⟩ := ofNode_mapping_spec hread
  refine ⟨hread, ?_, ?_, ?_, ?_, ?_⟩
  · refine anyOrder [note] _ ?_ ?_
    · simp only [List.mem_singleton, forall_eq]
      exact ⟨"note", rfl, by rintro ⟨⟩ <;> decide⟩
    · exact (disordered.reverse_perm.cons note).trans (List.perm_append_singleton note _).symm
  · exact takenAway .timeoutSeconds [] _ disordered.tail rfl (by decide)
  · exact takenAway .hostname disordered.dropLast _ [] rfl (by decide)
  · exact repeated .hostname (.scalar false none "kiali_hostname", .alias 1) again _
      (by simp [disordered]) (by decide) (by decide) (List.Perm.refl _)
  · exact listed _ written

end MeshProbe.Environment
