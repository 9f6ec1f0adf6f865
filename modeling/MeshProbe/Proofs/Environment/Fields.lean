import MeshProbe.Environment.Reader
import MeshProbe.Proofs.Action
import Mathlib.Data.List.Perm.Basic

/-!
What a mapping says of each field of an environment, taken apart from the order in
which its entries are read. A mapping is read exactly when its keys are text and
each field is given once, by a value that is one of the field, or not at all where
it has a default. A sequence is read field by field.
-/

namespace MeshProbe.Environment

open Yaml

/-! ### Fields -/

/-- What an environment holds in a field. -/
def content (env : Environment) : (f : Field) → f.Content
  | .hostname => env.hostname
  | .username => env.username
  | .password => env.password
  | .usesTls => env.usesTls
  | .verifiesTls => env.verifiesTls
  | .meshNamespace => env.meshNamespace
  | .istioRole => env.istioRole
  | .openshiftRole => env.openshiftRole
  | .kubernetesRole => env.kubernetesRole
  | .timeoutSeconds => env.timeoutSeconds

namespace Field

theorem mem_all (f : Field) : f ∈ all := by
  cases f <;> decide

theorem ofKey?_key (f : Field) : ofKey? f.key = some f := by
  cases f <;> rfl

theorem key_injective {f g : Field} (h : f.key = g.key) : f = g :=
  Option.some.inj ((ofKey?_key f).symm.trans ((congrArg ofKey? h).trans (ofKey?_key g)))

theorem ofKey?_eq_some_iff {text : String} {f : Field} : ofKey? text = some f ↔ text = f.key := by
  constructor
  · intro h
    have hkey : (f.key == text) = true :=
      List.find?_some (p := fun g : Field => g.key == text) h
    exact (beq_iff_eq.mp hkey).symm
  · rintro rfl
    exact ofKey?_key f

theorem ofKey?_eq_none_iff {text : String} : ofKey? text = none ↔ ∀ f : Field, text ≠ f.key := by
  rw [Option.eq_none_iff_forall_ne_some]
  exact forall_congr' fun f => not_congr ofKey?_eq_some_iff

/-- What a node holds for a field. -/
def value? (anchored : List (Nat × Node)) (node : Node) (f : Field) : Option f.Content :=
  (f.read anchored .root node).toOption

end Field

theorem atPath_toOption {α : Type} (path path' : Path) (x : Except Problem α) :
    (atPath path x).toOption = (atPath path' x).toOption := by
  cases x <;> rfl

theorem readText_toOption (expected : String) (path path' : Path) (node : Node) :
    (readText expected path node).toOption = (readText expected path' node).toOption := by
  cases node <;> rfl

theorem readOption_toOption (path path' : Path) (node : Node) :
    (readOption path node).toOption = (readOption path' node).toOption := by
  cases node with
  | scalar isPlain tag text =>
    dsimp only [readOption]
    cases saysNone isPlain tag text with
    | error => rfl
    | ok isNone => cases isNone <;> rfl
  | _ => rfl

theorem readScalar_toOption {α : Type} (expected : String) (pick : Scalar → Except Problem α)
    (path path' : Path) (node : Node) :
    (readScalar expected pick path node).toOption =
      (readScalar expected pick path' node).toOption := by
  cases node with
  | scalar isPlain tag text => exact atPath_toOption ..
  | _ => rfl

theorem follow_snd (anchored : List (Nat × Node)) (path path' : Path) (node : Node) :
    (follow anchored path node).2 = (follow anchored path' node).2 := by
  cases node <;> rfl

/-- Where a value stands shows in the errors alone. -/
theorem Field.read_toOption (anchored : List (Nat × Node)) (path : Path) (node : Node)
    (f : Field) : (f.read anchored path node).toOption = f.value? anchored node := by
  unfold value? read
  dsimp only
  rw [follow_snd anchored path .root node]
  cases f
  case hostname | meshNamespace => exact readText_toOption ..
  case username | password | istioRole | openshiftRole | kubernetesRole =>
    exact readOption_toOption ..
  case usesTls | verifiesTls | timeoutSeconds => exact readScalar_toOption ..

theorem Field.read_eq_ok_iff {anchored : List (Nat × Node)} {path : Path} {node : Node}
    {f : Field} {x : f.Content} :
    f.read anchored path node = .ok x ↔ f.value? anchored node = some x := by
  rw [← f.read_toOption anchored path node]
  cases f.read anchored path node <;> simp [Except.toOption]

/-! ### Drafts -/

namespace Draft

variable {d d' : Draft} {f : Field}

theorem put_self (d : Draft) (f : Field) (x : f.Content) : d.put f x f = some x := by
  simp [put]

theorem put_of_ne (d : Draft) {f g : Field} (x : f.Content) (h : f ≠ g) : d.put f x g = d g :=
  dif_neg h

/-- What a draft holds in a field, as the list of the values that were given for it. -/
def held (d : Draft) (f : Field) : List (Option f.Content) :=
  (d f).toList.map some

theorem held_of_some {x : f.Content} (h : d f = some x) : d.held f = [some x] := by
  rw [held, h]
  rfl

theorem held_of_none (h : d f = none) : d.held f = [] := by
  rw [held, h]
  rfl

theorem ext_held (h : ∀ f, d.held f = d'.held f) : d = d' := by
  funext f
  have hf := h f
  cases hd : d f <;> cases hd' : d' f <;>
    simp only [held, hd, hd', Option.toList_none, Option.toList_some, List.map_nil,
      List.map_cons, List.cons.injEq, Option.some.injEq, and_true, reduceCtorEq] at hf
  · rfl
  · rw [hf]

theorem eq_put_iff {x : f.Content} :
    d' = d.put f x ↔ d'.held f = [some x] ∧ ∀ g ≠ f, d'.held g = d.held g := by
  constructor
  · rintro rfl
    refine ⟨held_of_some (put_self d f x), fun g hg => ?_⟩
    rw [held, held, put_of_ne d x (Ne.symm hg)]
  · rintro ⟨hself, hothers⟩
    refine ext_held fun g => ?_
    by_cases hg : g = f
    · subst hg
      rw [hself, held_of_some (put_self d g x)]
    · rw [hothers g hg, held, held, put_of_ne d x (Ne.symm hg)]

/-- A field holds one value at most, and what it holds is one of the field. -/
theorem of_held_append {y : Option f.Content} (h : d.held f ++ [y] = d'.held f) :
    d f = none ∧ ∃ x, y = some x ∧ d' f = some x := by
  cases hd' : d' f with
  | none => simp [held_of_none hd'] at h
  | some x =>
    rw [held_of_some hd'] at h
    cases hd : d f with
    | none =>
      rw [held_of_none hd, List.nil_append, List.cons.injEq] at h
      exact ⟨rfl, x, h.1, rfl⟩
    | some x' => simp [held_of_some hd] at h

/-- What is held so far on the way to a draft is itself held. -/
theorem exists_of_prefix {values : List (Option f.Content)} (h : values <+: d.held f) :
    ∃ y : Option f.Content, values = y.toList.map some := by
  cases hd : d f with
  | none =>
    rw [held_of_none hd] at h
    exact ⟨none, List.prefix_nil.mp h⟩
  | some x =>
    rw [held_of_some hd] at h
    obtain hnil | ⟨rest, rfl, hrest⟩ := List.prefix_cons_iff.mp h
    · exact ⟨none, hnil⟩
    · exact ⟨some x, by rw [List.prefix_nil.mp hrest]; rfl⟩

/-- The draft is finished as an environment when each field has what the environment holds. -/
theorem finish_eq_ok_iff {env : Environment} :
    d.finish = .ok env ↔ ∀ f, d.content? f = some (env.content f) := by
  constructor
  · intro h
    have hdefault : ∀ {f : Field} {x : f.Content}, f.default? = some x →
        d.content? f = some ((d.content? f).getD x) := by
      intro f x hx
      rw [content?, hx, Option.or_some]
      rfl
    unfold finish at h
    split at h
    · cases h
    · next hostname hhostname =>
      split at h
      · cases h
      · next meshNamespace hnamespace =>
        cases h
        intro f
        cases f
        case hostname => exact hhostname
        case meshNamespace => exact hnamespace
        all_goals exact hdefault rfl
  · intro h
    unfold finish
    rw [h .hostname, h .meshNamespace, h .username, h .password, h .usesTls, h .verifiesTls,
      h .istioRole, h .openshiftRole, h .kubernetesRole, h .timeoutSeconds]
    rfl

/-- The one field that is missing is the one that is told of. -/
theorem finish_eq_error (hf : d.content? f = none)
    (hothers : ∀ g ≠ f, (d.content? g).isSome) : d.finish = .error f := by
  have hdefault : f.default? = none := (Option.or_eq_none_iff.mp hf).2
  cases f
  case hostname =>
    unfold finish
    rw [hf]
  case meshNamespace =>
    obtain ⟨hostname, hhostname⟩ := Option.isSome_iff_exists.mp (hothers .hostname (by decide))
    unfold finish
    rw [hhostname, hf]
  all_goals cases hdefault

end Draft

/-! ### Mappings -/

/-- The text of a key that is a scalar, itself or by way of an alias. -/
def keyText? (anchored : List (Nat × Node)) (key : Node) : Option String :=
  match (follow anchored .root key).2 with
  | .scalar _ _ text => some text
  | _ => none

/-- A key of a mapping is that of a field. -/
def Names (anchored : List (Nat × Node)) (f : Field) (key : Node) : Prop :=
  keyText? anchored key = some f.key

instance (anchored : List (Nat × Node)) (f : Field) (key : Node) :
    Decidable (Names anchored f key) :=
  inferInstanceAs (Decidable (keyText? anchored key = some f.key))

variable {anchored : List (Nat × Node)}

theorem Names.unique {f g : Field} {key : Node} (hf : Names anchored f key)
    (hg : Names anchored g key) : f = g :=
  Field.key_injective (Option.some.inj (hf.symm.trans hg))

/-- What an entry gives for a field that it names; `some none` is a value that is none of the
field. -/
def given (anchored : List (Nat × Node)) (f : Field) (entry : Node × Node) :
    Option (Option f.Content) :=
  if Names anchored f entry.1 then some (f.value? anchored entry.2) else none

/-- All that a mapping gives for a field. -/
def givens (anchored : List (Nat × Node)) (f : Field) (entries : List (Node × Node)) :
    List (Option f.Content) :=
  entries.filterMap (given anchored f)

theorem given_of_names {f : Field} {entry : Node × Node} (h : Names anchored f entry.1) :
    given anchored f entry = some (f.value? anchored entry.2) :=
  if_pos h

theorem given_of_not_names {f : Field} {entry : Node × Node} (h : ¬ Names anchored f entry.1) :
    given anchored f entry = none :=
  if_neg h

theorem givens_append (f : Field) (a b : List (Node × Node)) :
    givens anchored f (a ++ b) = givens anchored f a ++ givens anchored f b :=
  List.filterMap_append

theorem givens_cons (f : Field) (entry : Node × Node) (rest : List (Node × Node)) :
    givens anchored f (entry :: rest) =
      (given anchored f entry).toList ++ givens anchored f rest := by
  rw [givens, List.filterMap_cons]
  cases given anchored f entry <;> rfl

theorem givens_eq_nil {f : Field} {entries : List (Node × Node)}
    (h : ∀ e ∈ entries, ¬ Names anchored f e.1) : givens anchored f entries = [] :=
  List.filterMap_eq_nil_iff.mpr fun e he => given_of_not_names (h e he)

/-- A key that is no text cannot be read. -/
theorem readEntry_of_keyText?_none {d : Draft} {entry : Node × Node}
    (h : keyText? anchored entry.1 = none) : ∃ e, readEntry anchored d entry = .error e := by
  unfold keyText? at h
  unfold readEntry
  generalize follow anchored .root entry.1 = place at h ⊢
  obtain ⟨path, node⟩ := place
  cases node with
  | scalar isPlain tag text => cases h
  | _ => exact ⟨_, rfl⟩

/-- The entry of a key that is text. -/
theorem readEntry_of_keyText? {d : Draft} {entry : Node × Node} {text : String}
    (h : keyText? anchored entry.1 = some text) :
    readEntry anchored d entry =
      match Field.ofKey? text with
      | none => .ok d
      | some f =>
        if (d f).isSome then .error (.problem .root (.duplicateField f.key))
        else (f.read anchored (entryPath entry.1) entry.2).map (d.put f) := by
  unfold keyText? at h
  unfold readEntry
  generalize follow anchored .root entry.1 = place at h ⊢
  obtain ⟨path, node⟩ := place
  cases node with
  | scalar isPlain tag text' =>
    cases h
    dsimp only [readText, bind, Except.bind]
    cases Field.ofKey? text with
    | none => rfl
    | some f =>
      dsimp only
      by_cases hd : (d f).isSome = true
      · rw [if_pos hd, if_pos hd]
        rfl
      · rw [if_neg hd, if_neg hd]
        cases f.read anchored (entryPath entry.1) entry.2 <;> rfl
  | _ => cases h

/-- The entry of a field is read where the field is not yet held and the value is one of it. -/
theorem readEntry_of_names {d d' : Draft} {f : Field} {entry : Node × Node}
    (h : Names anchored f entry.1) :
    readEntry anchored d entry = .ok d' ↔
      d f = none ∧ ∃ x, f.value? anchored entry.2 = some x ∧ d' = d.put f x := by
  rw [readEntry_of_keyText? h, Field.ofKey?_key]
  dsimp only
  by_cases hd : (d f).isSome = true
  · rw [if_pos hd]
    simp [Option.isSome_iff_ne_none.mp hd]
  · rw [if_neg hd]
    cases hread : f.read anchored (entryPath entry.1) entry.2 with
    | error e =>
      have hvalue : f.value? anchored entry.2 = none := by
        rw [← f.read_toOption anchored (entryPath entry.1), hread]
        rfl
      simp [hvalue, Except.map]
    | ok x =>
      simp [Field.read_eq_ok_iff.mp hread, Except.map, Option.not_isSome_iff_eq_none.mp hd,
        eq_comm]

/-- An entry is read exactly when its key is text and what it gives for a field can be added to
what the draft holds there. -/
theorem readEntry_eq_ok_iff {d d' : Draft} {entry : Node × Node} :
    readEntry anchored d entry = .ok d' ↔
      (keyText? anchored entry.1).isSome ∧
        ∀ f, d.held f ++ (given anchored f entry).toList = d'.held f := by
  cases htext : keyText? anchored entry.1 with
  | none =>
    obtain ⟨e, he⟩ := readEntry_of_keyText?_none (d := d) htext
    simp [he]
  | some text =>
    simp only [Option.isSome_some, true_and]
    cases hfield : Field.ofKey? text with
    | none =>
      have hnone : ∀ f, given anchored f entry = none := by
        intro f
        refine given_of_not_names fun hnames => ?_
        exact Field.ofKey?_eq_none_iff.mp hfield f (Option.some.inj (htext.symm.trans hnames))
      rw [readEntry_of_keyText? htext, hfield]
      simp only [hnone, Option.toList_none, List.append_nil, Except.ok.injEq]
      exact ⟨fun h f => h ▸ rfl, Draft.ext_held⟩
    | some f =>
      have hnames : Names anchored f entry.1 :=
        htext.trans (congrArg some (Field.ofKey?_eq_some_iff.mp hfield))
      have hothers : ∀ g ≠ f, d.held g ++ (given anchored g entry).toList = d.held g := by
        intro g hg
        rw [given_of_not_names fun hnames' => hg (hnames'.unique hnames)]
        exact List.append_nil _
      rw [readEntry_of_names hnames]
      constructor
      · rintro ⟨hd, x, hvalue, hput⟩ g
        obtain ⟨hself, hrest⟩ := Draft.eq_put_iff.mp hput
        by_cases hg : g = f
        · subst hg
          rw [Draft.held_of_none hd, given_of_names hnames, hvalue, hself]
          rfl
        · exact (hothers g hg).trans (hrest g hg).symm
      · intro h
        have hf := h f
        rw [given_of_names hnames, Option.toList_some] at hf
        obtain ⟨hd, x, hvalue, hd'⟩ := Draft.of_held_append hf
        exact ⟨hd, x, hvalue, Draft.eq_put_iff.mpr
          ⟨Draft.held_of_some hd', fun g hg => (h g).symm.trans (hothers g hg)⟩⟩

/-- A mapping is read, from what a draft holds, exactly when its keys are text and what it gives
for each field can be added: the induction is on the entries, and its step is that of the
entry. -/
theorem foldlM_readEntry_eq_ok_iff {d d' : Draft} {entries : List (Node × Node)} :
    entries.foldlM (readEntry anchored) d = .ok d' ↔
      (∀ e ∈ entries, (keyText? anchored e.1).isSome) ∧
        ∀ f, d.held f ++ givens anchored f entries = d'.held f := by
  induction entries generalizing d with
  | nil =>
    change Except.ok d = Except.ok d' ↔ _
    simp only [Except.ok.injEq, List.not_mem_nil, false_implies, implies_true, true_and]
    constructor
    · rintro rfl f
      exact List.append_nil _
    · exact fun h => Draft.ext_held fun f => (List.append_nil _).symm.trans (h f)
  | cons entry rest ih =>
    rw [List.foldlM_cons, bind_eq_ok]
    simp only [List.forall_mem_cons, givens_cons, ← List.append_assoc]
    constructor
    · rintro ⟨mid, hentry, hmid⟩
      obtain ⟨hkey, hheld⟩ := readEntry_eq_ok_iff.mp hentry
      obtain ⟨hkeys, hgivens⟩ := ih.mp hmid
      exact ⟨⟨hkey, hkeys⟩, fun f => (hheld f).symm ▸ hgivens f⟩
    · rintro ⟨⟨hkey, hkeys⟩, hgivens⟩
      choose mid hmid using fun f => Draft.exists_of_prefix ⟨_, hgivens f⟩
      refine ⟨mid, readEntry_eq_ok_iff.mpr ⟨hkey, hmid⟩, ih.mpr ⟨hkeys, fun f => ?_⟩⟩
      exact (congrArg (· ++ _) (hmid f)).symm.trans (hgivens f)

end MeshProbe.Environment
