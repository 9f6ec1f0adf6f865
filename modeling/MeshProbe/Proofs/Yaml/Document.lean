import MeshProbe.Yaml.Value
import MeshProbe.Proofs.Action
import Mathlib

/-!
What a YAML document stands for, as a relation between nodes and values that knows
neither places nor counters. Reading agrees with it: it succeeds exactly where the
node stands for a value and no more aliases are put in than the text may have.
-/

namespace MeshProbe.Yaml.Value

/-! ### Counting actions -/

/-- An action counts up by `k`, with every result of which `Q` holds, unless the counter passes a
limit; then it fails. -/
def Counts (limit : Nat) {α : Type} (act : StateT Nat (Except Error) α) (Q : α → Prop)
    (k : Nat) : Prop :=
  ∀ n ≤ limit, ∀ a n', act n = .ok (a, n') ↔ Q a ∧ n' = n + k ∧ n' ≤ limit

section

variable {limit : Nat} {α β : Type}

theorem Counts.iff {act : StateT Nat (Except Error) α} {Q R : α → Prop} {k l : Nat}
    (h : Counts limit act Q k) (hQ : ∀ a, Q a ↔ R a) (hk : k = l) : Counts limit act R l := by
  subst hk
  intro n hn a n'
  rw [h n hn a n', hQ a]

/-- From the start, an action that counts gives what it can give within the limit. -/
theorem Counts.from_zero {act : StateT Nat (Except Error) α} {Q : α → Prop} {k : Nat}
    (h : Counts limit act Q k) (a : α) : (∃ n, act 0 = .ok (a, n)) ↔ Q a ∧ k ≤ limit := by
  constructor
  · rintro ⟨n, hn⟩
    obtain ⟨hQ, rfl, hlimit⟩ := (h 0 (Nat.zero_le _) a n).mp hn
    exact ⟨hQ, by omega⟩
  · rintro ⟨hQ, hlimit⟩
    exact ⟨k, (h 0 (Nat.zero_le _) a k).mpr ⟨hQ, (Nat.zero_add k).symm, hlimit⟩⟩

theorem counts_pure (a : α) : Counts limit (pure a) (· = a) 0 := by
  intro n hn b n'
  change Except.ok (a, n) = Except.ok (b, n') ↔ _
  rw [Except.ok.injEq, Prod.mk.injEq]
  constructor
  · rintro ⟨rfl, rfl⟩
    exact ⟨rfl, rfl, hn⟩
  · rintro ⟨rfl, rfl, -⟩
    exact ⟨rfl, rfl⟩

theorem counts_lift (x : Except Error α) :
    Counts limit (liftM x : StateT Nat (Except Error) α) (fun a => x = .ok a) 0 := by
  intro n hn a n'
  cases x with
  | error e => simp [liftM, monadLift, MonadLift.monadLift, StateT.lift, bind, Except.bind]
  | ok b =>
    change Except.ok (b, n) = Except.ok (a, n') ↔ Except.ok b = Except.ok a ∧ _
    rw [Except.ok.injEq, Except.ok.injEq, Prod.mk.injEq]
    constructor
    · rintro ⟨rfl, rfl⟩
      exact ⟨rfl, rfl, hn⟩
    · rintro ⟨rfl, rfl, -⟩
      exact ⟨rfl, rfl⟩

/-- One action after another: the counts add up. -/
theorem Counts.bind {act : StateT Nat (Except Error) α} {next : α → StateT Nat (Except Error) β}
    {Q : α → Prop} {R : α → β → Prop} {k l : Nat} (hact : Counts limit act Q k)
    (hnext : ∀ a, Q a → Counts limit (next a) (R a) l) :
    Counts limit (act >>= next) (fun b => ∃ a, Q a ∧ R a b) (k + l) := by
  intro n hn b n'
  have hbind : (act >>= next) n = .ok (b, n') ↔
      ∃ a mid, act n = .ok (a, mid) ∧ next a mid = .ok (b, n') := by
    change (act n >>= fun p => next p.1 p.2) = _ ↔ _
    rw [bind_eq_ok, Prod.exists]
  rw [hbind]
  constructor
  · rintro ⟨a, mid, ha, hb⟩
    obtain ⟨hQ, rfl, hmid⟩ := (hact n hn a mid).mp ha
    obtain ⟨hR, rfl, hlimit⟩ := (hnext a hQ (n + k) hmid b n').mp hb
    exact ⟨⟨a, hQ, hR⟩, by omega, hlimit⟩
  · rintro ⟨⟨a, hQ, hR⟩, rfl, hlimit⟩
    exact ⟨a, n + k, (hact n hn a _).mpr ⟨hQ, rfl, by omega⟩,
      (hnext a hQ (n + k) (by omega) b _).mpr ⟨hR, by omega, hlimit⟩⟩

/-- An action whose result is known, and another after it. -/
theorem Counts.after {act : StateT Nat (Except Error) α} {next : α → StateT Nat (Except Error) β}
    {a : α} {R : β → Prop} {k l : Nat} (hact : Counts limit act (· = a) k)
    (hnext : Counts limit (next a) R l) : Counts limit (act >>= next) R (k + l) :=
  (hact.bind (R := fun _ => R) fun _ h => h ▸ hnext).iff (fun b => by simp) rfl

/-- An action for each item of a list, by induction on the list. -/
theorem counts_mapM {f : α → StateT Nat (Except Error) β} {Q : α → β → Prop} {k : α → Nat}
    (h : ∀ a, Counts limit (f a) (Q a) (k a)) (items : List α) :
    Counts limit (items.mapM f) (List.Forall₂ Q items) (items.map k).sum := by
  induction items with
  | nil =>
    rw [List.mapM_nil]
    refine (counts_pure []).iff (fun values => ?_) rfl
    exact List.forall₂_nil_left_iff.symm
  | cons a rest ih =>
    rw [List.mapM_cons]
    refine ((h a).bind fun b _ => ih.bind fun bs _ => counts_pure (b :: bs)).iff
      (fun values => ?_) (by simp)
    rw [List.forall₂_cons_left_iff]
    constructor
    · rintro ⟨b, hb, bs, hbs, rfl⟩
      exact ⟨b, bs, hb, hbs, rfl⟩
    · rintro ⟨b, bs, hb, hbs, rfl⟩
      exact ⟨b, hb, bs, hbs, rfl⟩

end

/-! ### Values of nodes -/

/-- What a scalar is as a value. An integer beyond 64 bits is none. -/
def ofScalar? : Scalar → Option Value
  | .null => some null
  | .bool b => some (bool b)
  | .integer n => some (integer n)
  | .wide _ => none
  | .real x => some (real x)
  | .string s => some (string s)

/-- The node that stands where a node does, and how many aliases are put in for it. -/
def target (anchored : List (Nat × Node)) : Node → Node × Nat
  | .alias n => ((anchored.lookup n).getD Node.missing, 1)
  | node => (node, 0)

/-- What a node stands for when `Inner` says it of the nodes within. Without it there are none. -/
def StandsWith (anchored : List (Nat × Node)) (Inner : Option (Node → Value → Prop))
    (node : Node) (v : Value) : Prop :=
  match (target anchored node).1, Inner with
  | .scalar isPlain tag text, _ => ∃ s, resolve isPlain tag text = .ok s ∧ ofScalar? s = some v
  | .sequence items, some Inner => ∃ values, List.Forall₂ Inner items values ∧ v = sequence values
  | .mapping entries, some Inner =>
    ∃ pairs, List.Forall₂ (fun e p => Inner e.1 p.1 ∧ Inner e.2 p.2) entries pairs ∧
      v = ofEntries pairs
  | _, _ => False

/-- What a node stands for, collections being nested so deep at most. -/
def Stands (anchored : List (Nat × Node)) : Nat → Node → Value → Prop
  | 0 => StandsWith anchored none
  | depth + 1 => StandsWith anchored (some (Stands anchored depth))

/-- How many aliases are put in for a node when `inner` says it of the nodes within. -/
def jumpsWith (anchored : List (Nat × Node)) (inner : Option (Node → Nat)) (node : Node) : Nat :=
  (target anchored node).2 +
    match (target anchored node).1, inner with
    | .sequence items, some inner => (items.map inner).sum
    | .mapping entries, some inner => (entries.map fun e => inner e.1 + inner e.2).sum
    | _, _ => 0

/-- How many aliases are put in for a node. -/
def jumps (anchored : List (Nat × Node)) : Nat → Node → Nat
  | 0 => jumpsWith anchored none
  | depth + 1 => jumpsWith anchored (some (jumps anchored depth))

theorem ofScalar_eq_ok_iff {path : Path} {s : Scalar} {v : Value} :
    ofScalar path s = .ok v ↔ ofScalar? s = some v := by
  cases s <;> simp [ofScalar, ofScalar?]

theorem counts_follow (setting : Setting) (path : Path) (node : Node) :
    ∃ path', Counts setting.maxJumps (follow setting path node)
      (· = (path', (target setting.anchored node).1)) (target setting.anchored node).2 := by
  match node with
  | .scalar .. | .sequence .. | .mapping .. => exact ⟨path, counts_pure _⟩
  | .alias n =>
    refine ⟨.target path, fun m hm place m' => ?_⟩
    have hrun : follow setting path (.alias n) m =
        if setting.maxJumps < m + 1 then .error .repetitionLimit
        else .ok ((.target path, (target setting.anchored (.alias n)).1), m + 1) := by
      change (if setting.maxJumps < m + 1 then _ else _ : StateT Nat (Except Error) _) (m + 1) = _
      split <;> rfl
    rw [hrun]
    change _ ↔ _ ∧ m' = m + 1 ∧ _
    by_cases hlimit : setting.maxJumps < m + 1
    · rw [if_pos hlimit]
      simp only [reduceCtorEq, false_iff, not_and]
      omega
    · rw [if_neg hlimit, Except.ok.injEq, Prod.mk.injEq]
      constructor
      · rintro ⟨rfl, rfl⟩
        exact ⟨rfl, rfl, by omega⟩
      · rintro ⟨rfl, rfl, -⟩
        exact ⟨rfl, rfl⟩

theorem counts_throw {limit : Nat} {α : Type} (e : Error) :
    Counts limit (throw e : StateT Nat (Except Error) α) (fun _ => False) 0 := by
  intro n hn a n'
  change Except.error e = Except.ok (a, n') ↔ _
  simp

variable {setting : Setting}

theorem counts_scalar (path : Path) (isPlain : Bool) (tag : Option Tag) (text : String) :
    Counts setting.maxJumps
      (match resolve isPlain tag text with
        | .ok s => liftM (ofScalar path s)
        | .error p => throw (.problem path p))
      (fun v => ∃ s, resolve isPlain tag text = .ok s ∧ ofScalar? s = some v) 0 := by
  cases resolve isPlain tag text with
  | error p => exact (counts_throw _).iff (fun v => by simp) rfl
  | ok s => exact (counts_lift _).iff (fun v => by simp [ofScalar_eq_ok_iff]) rfl

section

variable {inner : Path → Node → StateT Nat (Except Error) Value} {Inner : Node → Value → Prop}
  {count : Node → Nat}

theorem counts_items
    (h : ∀ path node, Counts setting.maxJumps (inner path node) (Inner node) (count node))
    (path : Path) (items : List Node) :
    Counts setting.maxJumps
      (items.zipIdx.mapM fun (item, i) => inner (.item path i) item)
      (List.Forall₂ Inner items) (items.map count).sum := by
  have hitems : items.zipIdx.map Prod.fst = items := List.zipIdx_map_fst 0 items
  refine (counts_mapM (fun p => h (.item path p.2) p.1) items.zipIdx).iff (fun values => ?_) ?_
  · rw [← List.forall₂_map_left_iff (f := Prod.fst) (R := Inner), hitems]
  · change (items.zipIdx.map (count ∘ Prod.fst)).sum = _
    rw [← List.map_map, hitems]

theorem counts_entries
    (h : ∀ path node, Counts setting.maxJumps (inner path node) (Inner node) (count node))
    (path : Path) (entries : List (Node × Node)) :
    Counts setting.maxJumps
      (entries.mapM fun (k, v) => do
        let key ← inner path k
        let value ← inner (entryPath path k) v
        return (key, value))
      (List.Forall₂ (fun e p => Inner e.1 p.1 ∧ Inner e.2 p.2) entries)
      (entries.map fun e => count e.1 + count e.2).sum := by
  refine counts_mapM (fun e => ?_) entries
  refine ((h path e.1).bind fun key _ => (h (entryPath path e.1) e.2).bind fun value _ =>
    counts_pure (key, value)).iff (fun pair => ?_) rfl
  constructor
  · rintro ⟨key, hkey, value, hvalue, rfl⟩
    exact ⟨hkey, hvalue⟩
  · rintro ⟨hkey, hvalue⟩
    exact ⟨pair.1, hkey, pair.2, hvalue, rfl⟩

end

/-- How nodes within are read, with what they stand for and how many aliases are put in for
them. -/
inductive Agrees (setting : Setting) : Option (Path → Node → StateT Nat (Except Error) Value) →
    Option (Node → Value → Prop) → Option (Node → Nat) → Prop
  | none : Agrees setting none none none
  | some {inner Inner count} :
    (∀ path node, Counts setting.maxJumps (inner path node) (Inner node) (count node)) →
    Agrees setting (some inner) (some Inner) (some count)

/-- A node is read as it stands when the nodes within are. -/
theorem counts_ofNodeWith {inner : Option (Path → Node → StateT Nat (Except Error) Value)}
    {Inner : Option (Node → Value → Prop)} {count : Option (Node → Nat)}
    (h : Agrees setting inner Inner count) (path : Path) (node : Node) :
    Counts setting.maxJumps (ofNodeWith setting inner path node)
      (StandsWith setting.anchored Inner node) (jumpsWith setting.anchored count node) := by
  obtain ⟨path', hfollow⟩ := counts_follow setting path node
  unfold ofNodeWith StandsWith jumpsWith
  refine hfollow.after ?_
  generalize (target setting.anchored node).1 = node'
  match node', h with
  | .scalar isPlain tag text, .none => exact counts_scalar path' isPlain tag text
  | .scalar isPlain tag text, .some _ => exact counts_scalar path' isPlain tag text
  | .alias _, .none => exact counts_throw _
  | .alias _, .some _ => exact counts_throw _
  | .sequence _, .none => exact counts_throw _
  | .mapping _, .none => exact counts_throw _
  | .sequence items, .some hinner =>
    exact (counts_items hinner path' items).bind fun values _ => counts_pure (sequence values)
  | .mapping entries, .some hinner =>
    exact (counts_entries hinner path' entries).bind fun pairs _ => counts_pure (ofEntries pairs)

/-- Reading a node finds what it stands for, and counts the aliases put in for it. -/
theorem counts_ofNode (setting : Setting) (depth : Nat) (path : Path) (node : Node) :
    Counts setting.maxJumps (ofNode setting depth path node)
      (Stands setting.anchored depth node) (jumps setting.anchored depth node) := by
  induction depth generalizing path node with
  | zero => exact counts_ofNodeWith .none path node
  | succ depth ih => exact counts_ofNodeWith (.some ih) path node

/-! ### Documents -/

/-- A text is one YAML document with a value: it is well formed, it has one node at its top, that
node stands for the value with collections nested at most 128 deep, and what its aliases stand for
is put in at most a hundred times as often as the text has parts. -/
def Document (text : String) (v : Value) : Prop :=
  ∃ node anchored events, Stream.parse? text = some ⟨[node], anchored, events⟩ ∧
    Stands anchored 128 node v ∧ jumps anchored 128 node ≤ events * 100

/-- Reading yields the documents with a value, and those alone. -/
theorem parse_eq_ok_iff {text : String} {v : Value} :
    parse text = .ok v ↔ Document text v := by
  unfold parse Document
  cases Stream.parse? text with
  | none => simp [throw, throwThe, MonadExceptOf.throw]
  | some stream =>
    obtain ⟨documents, anchored, events⟩ := stream
    cases documents with
    | nil => simp [throw, throwThe, MonadExceptOf.throw]
    | cons node others =>
      have hread : (∃ n, ofNode ⟨anchored, events * 100⟩ maxDepth .root node 0 = .ok (v, n)) ↔
          Stands anchored 128 node v ∧ jumps anchored 128 node ≤ events * 100 :=
        (counts_ofNode ⟨anchored, events * 100⟩ 128 .root node).from_zero v
      constructor
      · intro h
        obtain ⟨⟨value, n⟩, hvalue, h⟩ := bind_eq_ok.mp h
        cases others with
        | nil =>
          cases h
          exact ⟨node, anchored, events, rfl, hread.mp ⟨n, hvalue⟩⟩
        | cons => cases h
      · rintro ⟨_, _, _, heq, hstands⟩
        cases heq
        obtain ⟨n, hvalue⟩ := hread.mpr hstands
        exact bind_eq_ok.mpr ⟨(v, n), hvalue, rfl⟩

end MeshProbe.Yaml.Value
