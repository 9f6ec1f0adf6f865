import MeshProbe.Proofs.Json.Scalars
import Mathlib.Data.String.Basic

/-!
What reading JSON can give. A value that was read nests as deep as it may and no
deeper, its integers have 64 bits, and the fields of its objects are in order, each
name once.
-/

namespace MeshProbe.Json

/-! ### Numbers -/

/-- What a reader of numbers gives, if anything. -/
def Gives (P : Number → Prop) (outcome : Except Failure (Number × Bytes)) : Prop :=
  ∀ n rest, outcome = .ok (n, rest) → P n

theorem gives_error {P : Number → Prop} (cause : Cause) (rest : Bytes) :
    Gives P (failAt cause rest) :=
  fun _ _ h => absurd h (by simp [failAt])

theorem gives_ok {P : Number → Prop} {n : Number} (h : P n) (rest : Bytes) :
    Gives P (.ok (n, rest)) := by
  intro m rest' heq
  rw [← (Prod.mk.inj (Except.ok.inj heq)).1]
  exact h

theorem realOf_fits (negative : Bool) (significand : Nat) (exponent : Int) (rest : Bytes) :
    Gives Number.Fits (realOf negative significand exponent rest) := by
  unfold realOf
  simp only
  split
  · exact gives_ok trivial _
  · exact gives_error _ _

theorem exponentPart_fits (negative : Bool) (significand : Nat) (start : Int) (input : Bytes) :
    Gives Number.Fits (exponentPart negative significand start input) := by
  unfold exponentPart
  simp only
  split
  · exact gives_error _ _
  · split_ifs
    · exact gives_error _ _
    · exact gives_error _ _
    · exact gives_ok trivial _
    · exact realOf_fits _ _ _ _
    · exact realOf_fits _ _ _ _

theorem afterDigits_fits (negative : Bool) (significand : Nat) (exponent : Int) (input : Bytes) :
    Gives Number.Fits (afterDigits negative significand exponent input) := by
  unfold afterDigits
  split
  · split_ifs
    · exact exponentPart_fits _ _ _ _
    · exact realOf_fits _ _ _ _
  · exact realOf_fits _ _ _ _

theorem fractionPart_fits (negative : Bool) (significand : Nat) (exponent : Int)
    (input : Bytes) : Gives Number.Fits (fractionPart negative significand exponent input) := by
  unfold fractionPart
  simp only
  split_ifs
  · exact afterDigits_fits _ _ _ _
  · split
    · exact gives_error _ _
    · exact gives_error _ _
  · exact afterDigits_fits _ _ _ _

theorem wholeNumber_fits (negative : Bool) {n : Nat} (h : n ≤ maxSignificand) :
    (wholeNumber negative n).Fits := by
  simp only [maxSignificand, Nat.pow_eq] at h
  unfold wholeNumber
  split_ifs with hsign hrange
  · exact ⟨by omega, by omega⟩
  · trivial
  · rw [Nat.pow_eq, not_or] at hrange
    exact ⟨by omega, by omega⟩

theorem afterInteger_fits (negative : Bool) {n : Nat} (h : n ≤ maxSignificand) (input : Bytes) :
    Gives Number.Fits (afterInteger negative n input) := by
  rw [afterInteger.eq_def]
  extract_lets whole
  split
  · exact fractionPart_fits _ _ _ _
  · split_ifs
    · exact exponentPart_fits _ _ _ _
    · exact gives_ok (wholeNumber_fits negative h) _
  · exact gives_ok (wholeNumber_fits negative h) _

theorem readDigits_le {limit : Nat} (input : Bytes) :
    ∀ n count, n ≤ limit → (readDigits limit n count input).1 ≤ limit := by
  induction input with
  | nil => exact fun n count h => h
  | cons b input ih =>
    intro n count h
    rw [readDigits]
    split_ifs with hb
    · simp only [Bool.and_eq_true, decide_eq_true_eq] at hb
      exact ih _ _ hb.2
    · exact h

theorem digitValue_le {b : UInt8} (h : isDigit b = true) : digitValue b ≤ 9 := by
  simp only [isDigit, Bool.and_eq_true, decide_eq_true_eq, UInt8.le_iff_toNat_le,
    UInt8.reduceToNat] at h
  unfold digitValue
  omega

/-- A number that was read fits. -/
theorem number_fits (negative : Bool) (input : Bytes) :
    Gives Number.Fits (number negative input) := by
  rw [number.eq_def]
  split
  · exact gives_error _ _
  · next b input =>
    split_ifs with hzero hdigit
    · split
      · split_ifs
        · exact gives_error _ _
        · exact afterInteger_fits negative (Nat.zero_le _) _
      · exact afterInteger_fits negative (Nat.zero_le _) _
    · have hsmall : (readDigits maxSignificand (digitValue b) 0 input).1 ≤ maxSignificand :=
        readDigits_le _ _ _ (le_trans (digitValue_le hdigit) (by decide))
      simp only
      split_ifs
      · split
        · exact fractionPart_fits _ _ _ _
        · exact afterDigits_fits _ _ _ _
      · exact afterInteger_fits negative hsmall _
    · exact gives_error _ _

/-! ### Fields -/

/-- Fields in the order of their names, each name once. -/
def InOrder (fields : List (String × Value)) : Prop :=
  fields.Pairwise fun f g => f.1 < g.1

theorem mem_putField {key : String} {v : Value} {fields : List (String × Value)}
    {f : String × Value} (h : f ∈ putField key v fields) : f = (key, v) ∨ f ∈ fields := by
  induction fields with
  | nil => exact Or.inl (List.mem_singleton.mp h)
  | cons g fields ih =>
    obtain ⟨k, w⟩ := g
    rw [putField] at h
    split_ifs at h
    · rcases List.mem_cons.mp h with h | h
      · exact Or.inr (h ▸ List.mem_cons_self)
      · exact (ih h).imp_right (List.mem_cons_of_mem _)
    · exact (List.mem_cons.mp h).imp_right (List.mem_cons_of_mem _)
    · exact List.mem_cons.mp h

theorem putField_inOrder (key : String) (v : Value) {fields : List (String × Value)}
    (h : InOrder fields) : InOrder (putField key v fields) := by
  induction fields with
  | nil => exact List.pairwise_singleton _ _
  | cons g fields ih =>
    obtain ⟨k, w⟩ := g
    obtain ⟨hfirst, hrest⟩ := List.pairwise_cons.mp h
    rw [putField]
    split_ifs with hlt heq
    · refine List.pairwise_cons.mpr ⟨fun f hf => ?_, ih hrest⟩
      rcases mem_putField hf with rfl | hf
      · exact hlt
      · exact hfirst f hf
    · exact List.pairwise_cons.mpr ⟨fun f hf => heq ▸ hfirst f hf, hrest⟩
    · have hgt : key < k := lt_of_le_of_ne (not_lt.mp hlt) (Ne.symm heq)
      exact List.pairwise_cons.mpr ⟨List.forall_mem_cons.mpr
        ⟨hgt, fun f hf => lt_trans hgt (hfirst f hf)⟩, h⟩

/-- A field behind all others is put at the end. -/
theorem putField_last {key : String} (v : Value) {fields : List (String × Value)}
    (h : ∀ f ∈ fields, f.1 < key) : putField key v fields = fields ++ [(key, v)] := by
  induction fields with
  | nil => rfl
  | cons g fields ih =>
    obtain ⟨hfirst, hrest⟩ := List.forall_mem_cons.mp h
    rw [putField, if_pos hfirst, ih hrest]
    rfl

/-- Fields put one after the other. -/
def putAll (before fields : List (String × Value)) : List (String × Value) :=
  fields.foldl (fun acc (k, v) => putField k v acc) before

theorem ofFields_eq (fields : List (String × Value)) :
    Value.ofFields fields = .object (putAll [] fields) := rfl

theorem putAll_inOrder {before : List (String × Value)} (h : InOrder before)
    (fields : List (String × Value)) : InOrder (putAll before fields) := by
  induction fields generalizing before with
  | nil => exact h
  | cons f fields ih => exact ih (putField_inOrder f.1 f.2 h)

theorem mem_putAll {before fields : List (String × Value)} {f : String × Value}
    (h : f ∈ putAll before fields) : f ∈ before ∨ f ∈ fields := by
  induction fields generalizing before with
  | nil => exact Or.inl h
  | cons g fields ih =>
    rcases ih h with h | h
    · rcases mem_putField h with rfl | h
      · exact Or.inr List.mem_cons_self
      · exact Or.inl h
    · exact Or.inr (List.mem_cons_of_mem _ h)

/-- Fields that are in order stay as they are. -/
theorem putAll_of_inOrder {before fields : List (String × Value)}
    (h : InOrder (before ++ fields)) : putAll before fields = before ++ fields := by
  induction fields generalizing before with
  | nil => rw [List.append_nil]; rfl
  | cons f fields ih =>
    have hlast : putField f.1 f.2 before = before ++ [f] :=
      putField_last f.2 fun g hg => (List.pairwise_append.mp h).2.2 g hg f List.mem_cons_self
    rw [List.append_cons] at h ⊢
    change putAll (putField f.1 f.2 before) fields = _
    rw [hlast, ih h]

/-! ### Values -/

/-- A value whose items are as `inner` says; without it there is no container. -/
def FitsIn (inner : Option (Value → Prop)) : Value → Prop
  | .null | .bool _ | .string _ => True
  | .number n => n.Fits
  | .array xs => ∃ P ∈ inner, ∀ x ∈ xs, P x
  | .object fields => ∃ P ∈ inner, InOrder fields ∧ ∀ f ∈ fields, P f.2

/-- A value whose containers nest at most `depth` deep, as reading gives it. -/
def Fits : Nat → Value → Prop
  | 0 => FitsIn none
  | depth + 1 => FitsIn (some (Fits depth))

theorem failAt_ne_ok {α : Type} {cause : Cause} {rest : Bytes} {read : α} :
    failAt cause rest ≠ .ok read :=
  nofun

section
variable {item : Reader Value}

/-- Further items are none, or one with others behind it. -/
theorem moreItems_cases {steps : Nat} {input rest : Bytes} {xs : List Value}
    (h : moreItems item steps input = .ok (xs, rest)) :
    xs = [] ∨ ∃ left start x between ys, steps = left + 1 ∧ item start = .ok (x, between) ∧
      moreItems item left between = .ok (ys, rest) ∧ xs = x :: ys := by
  rw [moreItems.eq_def] at h
  dsimp only at h
  split at h
  · exact absurd h failAt_ne_ok
  · split_ifs at h
    · exact Or.inl (Prod.mk.inj (Except.ok.inj h)).1.symm
    · split at h
      · exact absurd h failAt_ne_ok
      · split_ifs at h
        · exact absurd h failAt_ne_ok
        · split at h
          · exact absurd h failAt_ne_ok
          · next left =>
            obtain ⟨⟨x, between⟩, hx, h⟩ := bind_eq_ok.mp h
            obtain ⟨⟨ys, last⟩, hys, h⟩ := bind_eq_ok.mp h
            obtain ⟨rfl, rfl⟩ := Prod.mk.inj (Except.ok.inj h)
            exact Or.inr ⟨left, _, x, between, ys, rfl, hx, hys, rfl⟩
    · exact absurd h failAt_ne_ok

/-- Further fields are none, or one with others behind it. -/
theorem moreFields_cases {steps : Nat} {input rest : Bytes} {fs : List (String × Value)}
    (h : moreFields item steps input = .ok (fs, rest)) :
    fs = [] ∨ ∃ left start f between gs, steps = left + 1 ∧
      field item start = .ok (f, between) ∧ moreFields item left between = .ok (gs, rest) ∧
      fs = f :: gs := by
  rw [moreFields.eq_def] at h
  dsimp only at h
  split at h
  · exact absurd h failAt_ne_ok
  · split_ifs at h
    · exact Or.inl (Prod.mk.inj (Except.ok.inj h)).1.symm
    · split at h
      · exact absurd h failAt_ne_ok
      · split_ifs at h
        · exact absurd h failAt_ne_ok
        · split at h
          · exact absurd h failAt_ne_ok
          · next left =>
            obtain ⟨⟨f, between⟩, hf, h⟩ := bind_eq_ok.mp h
            obtain ⟨⟨gs, last⟩, hgs, h⟩ := bind_eq_ok.mp h
            obtain ⟨rfl, rfl⟩ := Prod.mk.inj (Except.ok.inj h)
            exact Or.inr ⟨left, _, f, between, gs, rfl, hf, hgs, rfl⟩
        · exact absurd h failAt_ne_ok
    · exact absurd h failAt_ne_ok

variable {P : Value → Prop} (hitem : ∀ input x rest, item input = .ok (x, rest) → P x)
include hitem

theorem moreItems_gives {steps : Nat} {input rest : Bytes} {xs : List Value}
    (h : moreItems item steps input = .ok (xs, rest)) : ∀ x ∈ xs, P x := by
  induction steps generalizing input xs with
  | zero =>
    rcases moreItems_cases h with rfl | ⟨_, _, _, _, _, hsteps, -⟩
    · simp
    · exact absurd hsteps (Nat.succ_ne_zero _).symm
  | succ steps ih =>
    rcases moreItems_cases h with rfl | ⟨left, start, x, between, ys, hsteps, hx, hys, rfl⟩
    · simp
    · obtain rfl : steps = left := Nat.succ.inj hsteps
      exact List.forall_mem_cons.mpr ⟨hitem _ _ _ hx, ih hys⟩

theorem items_gives {input rest : Bytes} {xs : List Value}
    (h : items item input = .ok (xs, rest)) : ∀ x ∈ xs, P x := by
  unfold items at h
  split at h
  · exact absurd h failAt_ne_ok
  · split_ifs at h
    · obtain rfl : [] = xs := (Prod.mk.inj (Except.ok.inj h)).1
      simp
    · obtain ⟨⟨x, after⟩, hx, h⟩ := bind_eq_ok.mp h
      obtain ⟨⟨ys, last⟩, hys, h⟩ := bind_eq_ok.mp h
      obtain rfl : x :: ys = xs := (Prod.mk.inj (Except.ok.inj h)).1
      exact List.forall_mem_cons.mpr ⟨hitem _ _ _ hx, moreItems_gives hitem hys⟩

theorem field_gives {input rest : Bytes} {f : String × Value}
    (h : field item input = .ok (f, rest)) : P f.2 := by
  obtain ⟨⟨key, after⟩, -, h⟩ := bind_eq_ok.mp h
  simp only at h
  split at h
  · exact absurd h failAt_ne_ok
  · split_ifs at h
    · obtain ⟨⟨x, last⟩, hx, h⟩ := bind_eq_ok.mp h
      obtain rfl : (key, x) = f := (Prod.mk.inj (Except.ok.inj h)).1
      exact hitem _ _ _ hx
    · exact absurd h failAt_ne_ok

theorem moreFields_gives {steps : Nat} {input rest : Bytes} {fs : List (String × Value)}
    (h : moreFields item steps input = .ok (fs, rest)) : ∀ f ∈ fs, P f.2 := by
  induction steps generalizing input fs with
  | zero =>
    rcases moreFields_cases h with rfl | ⟨_, _, _, _, _, hsteps, -⟩
    · simp
    · exact absurd hsteps (Nat.succ_ne_zero _).symm
  | succ steps ih =>
    rcases moreFields_cases h with rfl | ⟨left, start, f, between, gs, hsteps, hf, hgs, rfl⟩
    · simp
    · obtain rfl : steps = left := Nat.succ.inj hsteps
      exact List.forall_mem_cons.mpr ⟨field_gives hitem hf, ih hgs⟩

theorem fields_gives {input rest : Bytes} {fs : List (String × Value)}
    (h : fields item input = .ok (fs, rest)) : ∀ f ∈ fs, P f.2 := by
  unfold fields at h
  split at h
  · exact absurd h failAt_ne_ok
  · split_ifs at h
    · obtain rfl : [] = fs := (Prod.mk.inj (Except.ok.inj h)).1
      simp
    · obtain ⟨⟨f, after⟩, hf, h⟩ := bind_eq_ok.mp h
      obtain ⟨⟨gs, last⟩, hgs, h⟩ := bind_eq_ok.mp h
      obtain rfl : f :: gs = fs := (Prod.mk.inj (Except.ok.inj h)).1
      exact List.forall_mem_cons.mpr ⟨field_gives hitem hf, moreFields_gives hitem hgs⟩
    · exact absurd h failAt_ne_ok

end

theorem word_gives {v x : Value} {expected input rest : Bytes}
    (h : word v expected input = .ok (x, rest)) : x = v := by
  induction expected generalizing input with
  | nil => exact (Prod.mk.inj (Except.ok.inj h)).1.symm
  | cons b expected ih =>
    cases input with
    | nil => exact absurd h failAt_ne_ok
    | cons c input =>
      rw [word] at h
      split_ifs at h
      · exact ih h
      · exact absurd h failAt_ne_ok

/-- A value that was read is as its items are when they are read. -/
theorem valueWith_fits {inner : Option (Reader Value)} {P : Option (Value → Prop)}
    (hinner : ∀ item ∈ inner, ∃ Q ∈ P, ∀ input x rest, item input = .ok (x, rest) → Q x)
    {input rest : Bytes} {v : Value} (h : valueWith inner input = .ok (v, rest)) :
    FitsIn P v := by
  unfold valueWith at h
  split at h
  · exact absurd h failAt_ne_ok
  · split_ifs at h
    · rw [word_gives h]
      trivial
    · rw [word_gives h]
      trivial
    · rw [word_gives h]
      trivial
    · obtain ⟨⟨n, after⟩, hn, h⟩ := bind_eq_ok.mp h
      obtain rfl : .number n = v := (Prod.mk.inj (Except.ok.inj h)).1
      exact number_fits _ _ n after hn
    · obtain ⟨⟨n, after⟩, hn, h⟩ := bind_eq_ok.mp h
      obtain rfl : .number n = v := (Prod.mk.inj (Except.ok.inj h)).1
      exact number_fits _ _ n after hn
    · obtain ⟨⟨s, after⟩, -, h⟩ := bind_eq_ok.mp h
      obtain rfl : .string s = v := (Prod.mk.inj (Except.ok.inj h)).1
      trivial
    · split at h
      · exact absurd h failAt_ne_ok
      · obtain ⟨Q, hQ, hitem⟩ := hinner _ rfl
        obtain ⟨⟨xs, after⟩, hxs, h⟩ := bind_eq_ok.mp h
        obtain rfl : .array xs = v := (Prod.mk.inj (Except.ok.inj h)).1
        exact ⟨Q, hQ, items_gives hitem hxs⟩
    · split at h
      · exact absurd h failAt_ne_ok
      · obtain ⟨Q, hQ, hitem⟩ := hinner _ rfl
        obtain ⟨⟨fs, after⟩, hfs, h⟩ := bind_eq_ok.mp h
        obtain rfl : Value.ofFields fs = v := (Prod.mk.inj (Except.ok.inj h)).1
        refine ⟨Q, hQ, putAll_inOrder List.Pairwise.nil fs, fun f hf => ?_⟩
        exact fields_gives hitem hfs f ((mem_putAll hf).resolve_left List.not_mem_nil)
    · exact absurd h failAt_ne_ok

theorem value_fits {depth : Nat} {input rest : Bytes} {v : Value}
    (h : value depth input = .ok (v, rest)) : Fits depth v := by
  induction depth generalizing input rest v with
  | zero => exact valueWith_fits (by simp) h
  | succ depth ih =>
    refine valueWith_fits ?_ h
    intro item hitem
    obtain rfl := Option.mem_some.mp hitem
    exact ⟨Fits depth, rfl, fun input x rest hx => ih hx⟩

/-- A text that was read holds a value that fits. -/
theorem document_fits {depth : Nat} {input : Bytes} {v : Value}
    (h : document depth input = .ok v) : Fits depth v := by
  obtain ⟨⟨x, rest⟩, hx, h⟩ := bind_eq_ok.mp h
  simp only at h
  split at h
  · exact Except.ok.inj h ▸ value_fits hx
  · exact absurd h failAt_ne_ok

theorem parse_eq_ok_iff {input : Bytes} {v : Value} :
    parse input = .ok v ↔ document maxDepth input = .ok v := by
  unfold parse parseDepth
  cases document maxDepth input <;> simp

end MeshProbe.Json
