import MeshProbe.Proofs.Environment.Fields
import Mathlib

/-!
How what a field holds can be written down, and that it is then read back: text in
quotes, a tilde for none, a word for a truth value and decimal digits for a count.
-/

namespace MeshProbe

namespace Yaml

/-! ### Counts -/

theorem digitsIn?_of_ne_nil {base : Nat} {text : List Char} (h : text ≠ []) :
    digitsIn? base text = text.foldl (fun acc c => do
      let n ← acc
      let d ← hexValue? c
      if d < base then some (n * base + d) else none) (some 0) := by
  cases text with
  | nil => exact absurd rfl h
  | cons => rfl

theorem hexValue?_digitChar {d : Nat} (h : d < 10) : hexValue? d.digitChar = some d := by
  have all : ∀ d < 10, hexValue? d.digitChar = some d := by decide
  exact all d h

theorem digitChar_ne_zero {d : Nat} (h : d < 10) (hne : d ≠ 0) : d.digitChar ≠ '0' := by
  have all : ∀ d < 10, d ≠ 0 → d.digitChar ≠ '0' := by decide
  exact all d h hne

/-- The digits of a number make the number, and begin with zero for zero only. -/
theorem toDigits_spec (n : Nat) :
    digitsIn? 10 (Nat.toDigits 10 n) = some n ∧
      (n ≠ 0 → ∃ c rest, Nat.toDigits 10 n = c :: rest ∧ c ≠ '0') := by
  induction n using Nat.strong_induction_on with
  | _ n ih =>
    rw [digitsIn?_of_ne_nil Nat.toDigits_ne_nil]
    by_cases hlt : n < 10
    · rw [Nat.toDigits_of_lt_base hlt]
      refine ⟨?_, fun hne => ⟨_, [], rfl, digitChar_ne_zero hlt hne⟩⟩
      simp [hexValue?_digitChar hlt, hlt]
    · obtain ⟨hvalue, hfirst⟩ := ih (n / 10) (by omega)
      rw [digitsIn?_of_ne_nil Nat.toDigits_ne_nil] at hvalue
      have hmod : n % 10 < 10 := Nat.mod_lt n (by decide)
      rw [Nat.toDigits_of_base_le (by decide) (by omega)]
      refine ⟨?_, fun _ => ?_⟩
      · rw [List.foldl_append, hvalue]
        simp [hexValue?_digitChar hmod, hmod, Nat.div_add_mod']
      · obtain ⟨c, rest, heq, hc⟩ := hfirst (by omega)
        exact ⟨c, rest ++ [(n % 10).digitChar], by rw [heq]; rfl, hc⟩

theorem toList_toString (n : Nat) : (toString n).toList = Nat.toDigits 10 n :=
  String.toList_ofList

theorem isDigit_of_mem_toDigits {n : Nat} {c : Char} (h : c ∈ Nat.toDigits 10 n) :
    c.isDigit = true :=
  Nat.isDigit_of_mem_toDigits (by decide) (by decide) h

theorem toString_ne (n : Nat) (word : String) (h : word.toList.all Char.isDigit = false) :
    toString n ≠ word := by
  rintro rfl
  rw [toList_toString] at h
  exact absurd (List.all_eq_true.mpr fun c hc => isDigit_of_mem_toDigits hc)
    (Bool.eq_false_iff.mp h)

/-- The digits of a number: a single one, or more that begin with another than zero. -/
theorem toDigits_cases (n : Nat) :
    ∃ c rest, Nat.toDigits 10 n = c :: rest ∧ c.isDigit = true ∧ (c = '0' → rest = []) := by
  by_cases hzero : n = 0
  · subst hzero
    exact ⟨'0', [], rfl, rfl, fun _ => rfl⟩
  · obtain ⟨c, rest, heq, hc⟩ := (toDigits_spec n).2 hzero
    have hdigit : c.isDigit = true :=
      isDigit_of_mem_toDigits (n := n) (heq ▸ List.mem_cons_self)
    exact ⟨c, rest, heq, hdigit, fun h => absurd h hc⟩

theorem behindMark_toDigits (mark : Char) (n : Nat) :
    behindMark mark (Nat.toDigits 10 n) = none := by
  obtain ⟨c, rest, heq, hdigit, hzero⟩ := toDigits_cases n
  rw [heq]
  unfold behindMark
  split
  · next h =>
    obtain ⟨rfl, rfl⟩ := List.cons.inj h
    cases hzero rfl
  · next h => exact absurd ((List.cons.inj h).1 ▸ hdigit) (by decide)
  · next h => exact absurd ((List.cons.inj h).1 ▸ hdigit) (by decide)
  · rfl

theorem isZeroPadded_toDigits (n : Nat) : isZeroPadded (Nat.toDigits 10 n) = false := by
  obtain ⟨c, rest, heq, hdigit, hzero⟩ := toDigits_cases n
  have hsign : (decide (c = '-') || decide (c = '+')) = false := by
    rw [Bool.or_eq_false_iff, decide_eq_false_iff_not, decide_eq_false_iff_not]
    exact ⟨fun h => absurd (h ▸ hdigit) (by decide), fun h => absurd (h ▸ hdigit) (by decide)⟩
  unfold isZeroPadded
  rw [heq, List.dropWhile_cons_of_neg (by simpa using hsign)]
  split
  · next h =>
    obtain ⟨rfl, rfl⟩ := List.cons.inj h
    cases hzero rfl
  · rfl

theorem signedIn?_toDigits (n : Nat) : signedIn? 10 (Nat.toDigits 10 n) = some (n : Int) := by
  obtain ⟨c, rest, heq, hdigit, -⟩ := toDigits_cases n
  have hvalue := (toDigits_spec n).1
  rw [heq] at hvalue ⊢
  unfold signedIn?
  split
  · next h => exact absurd ((List.cons.inj h).1 ▸ hdigit) (by decide)
  · unfold unsignedIn?
    split
    · next h => exact absurd ((List.cons.inj h).1 ▸ hdigit) (by decide)
    · rw [hvalue]
      rfl

/-- Decimal digits without a tag stand for the number. -/
theorem resolvePlain_toString {n : Nat} (h : n < 2 ^ 64) :
    resolvePlain (toString n) = .integer n := by
  have hnull : isNullText (toString n) = false := by
    rw [isNullText, decide_eq_false (toString_ne n "~" (by decide)),
      decide_eq_false (toString_ne n "null" (by decide))]
    rfl
  have hbool : bool? (toString n) = none := by
    rw [bool?, if_neg (toString_ne n "true" (by decide)),
      if_neg (toString_ne n "false" (by decide))]
  have hmarked : markedInteger? (toString n).toList = none := by
    rw [markedInteger?, toList_toString]
    simp [behindMark_toDigits]
  have hdecimal : decimalInteger? (toString n).toList = some (.integer n) := by
    have hfits : fitsUnsigned n 64 = true := decide_eq_true h
    unfold decimalInteger?
    rw [toList_toString, signedIn?_toDigits]
    simp [hfits]
  unfold resolvePlain
  rw [hnull, hbool, hmarked, hdecimal, toList_toString, isZeroPadded_toDigits]
  rfl

theorem lt_of_fitsUnsigned {n : Int} (h : fitsUnsigned n.toNat 64 = true) : n < 2 ^ 64 := by
  have hnat : n.toNat < 2 ^ 64 := of_decide_eq_true h
  omega

theorem lt_of_fitsSigned {n : Int} (h : fitsSigned n 64 = true) : n < 2 ^ 64 := by
  have hlimit : n < ((2 ^ 63 : Nat) : Int) :=
    of_decide_eq_true (Bool.and_eq_true_iff.mp h).2
  omega

theorem lt_of_markedInteger? {text : List Char} {n : Int} (h : markedInteger? text = some n) :
    n < 2 ^ 64 := by
  obtain ⟨⟨mark, base⟩, -, hread⟩ := List.exists_of_findSome?_eq_some h
  dsimp only at hread
  split at hread
  · obtain ⟨m, -, hm⟩ := Option.bind_eq_some_iff.mp hread
    split at hm
    · next hfits =>
      cases hm
      exact lt_of_fitsUnsigned hfits
    · cases hm
  · obtain ⟨m, -, hm⟩ := Option.bind_eq_some_iff.mp hread
    split at hm
    · next hfits =>
      cases hm
      exact lt_of_fitsSigned hfits
    · cases hm
  · cases hread

theorem lt_of_decimalInteger? {text : List Char} {n : Int}
    (h : decimalInteger? text = some (.integer n)) : n < 2 ^ 64 := by
  unfold decimalInteger? at h
  split at h
  · cases h
  · split_ifs at h with hnarrow
    · cases h
      rcases Bool.or_eq_true_iff.mp hnarrow with hfits | hfits
      · exact lt_of_fitsUnsigned (Bool.and_eq_true_iff.mp hfits).2
      · exact lt_of_fitsSigned hfits
    · cases h

theorem lt_of_resolvePlain {text : String} {n : Int} (h : resolvePlain text = .integer n) :
    n < 2 ^ 64 := by
  unfold resolvePlain at h
  split at h
  · cases h
  · split at h
    · cases h
    · next hmarked =>
      cases h
      exact lt_of_markedInteger? hmarked
    · split at h
      · cases h
      · split at h
        · next hdecimal => exact lt_of_decimalInteger? (h ▸ hdecimal)
        · cases h
        · cases h

theorem lt_of_resolveTagged {tag : Tag} {text : String} {n : Int}
    (h : resolveTagged tag text = .ok (.integer n)) : n < 2 ^ 64 := by
  unfold resolveTagged at h
  dsimp only at h
  split_ifs at h
  · split at h <;> cases h
  · split at h
    · next m hm =>
      cases h
      exact lt_of_fitsSigned (Option.filter_eq_some_iff.mp hm).2
    · cases h
  · split at h <;> cases h
  · split at h <;> cases h
  · cases h

/-- The integers that scalars stand for have 64 bits. -/
theorem lt_of_resolve {isPlain : Bool} {tag : Option Tag} {text : String} {n : Int}
    (h : resolve isPlain tag text = .ok (.integer n)) : n < 2 ^ 64 := by
  unfold resolve at h
  split_ifs at h
  · cases h
  · cases tag with
    | none => exact lt_of_resolvePlain (Except.ok.inj h)
    | some tag => exact lt_of_resolveTagged h

end Yaml

namespace Environment

open Yaml

/-- A node for what a field holds. -/
def Field.write : (f : Field) → f.Content → Node
  | .hostname | .meshNamespace => fun text => .scalar false none text
  | .username | .password | .istioRole | .openshiftRole | .kubernetesRole => fun
    | none => Node.missing
    | some text => .scalar false none text
  | .usesTls | .verifiesTls => fun b => .scalar true none (if b then "true" else "false")
  | .timeoutSeconds => fun n => .scalar true none (toString n)

/-- What can be written for a field so that it is read: any count of 64 bits, and all else. -/
def Field.Fits : (f : Field) → f.Content → Prop
  | .timeoutSeconds => fun n => n < 2 ^ 64
  | .hostname | .meshNamespace | .username | .password | .istioRole | .openshiftRole
  | .kubernetesRole | .usesTls | .verifiesTls => fun _ => True

theorem Field.value?_write (anchored : List (Nat × Node)) {f : Field} {x : f.Content}
    (h : f.Fits x) : f.value? anchored (f.write x) = some x := by
  cases f
  case hostname | meshNamespace => rfl
  case username | password | istioRole | openshiftRole | kubernetesRole =>
    cases x <;> rfl
  case usesTls | verifiesTls =>
    cases x <;> rfl
  case timeoutSeconds =>
    have hpick : pickCount (.integer x) = .ok x := by
      rw [pickCount, if_pos (Int.natCast_nonneg x)]
      rfl
    change (atPath .root (pickCount (resolvePlain (toString x)))).toOption = some x
    rw [resolvePlain_toString h, hpick]
    rfl

/-- Whatever is read for a field can be written for it. -/
theorem Field.fits_of_value? {anchored : List (Nat × Node)} {f : Field} {node : Node}
    {x : f.Content} (h : f.value? anchored node = some x) : f.Fits x := by
  cases f
  case timeoutSeconds =>
    have hread : readScalar "u64" pickCount (follow anchored .root node).1
        (follow anchored .root node).2 = .ok x :=
      Field.read_eq_ok_iff.mpr h
    generalize follow anchored .root node = place at hread
    obtain ⟨path, node⟩ := place
    cases node with
    | scalar isPlain tag text =>
      change atPath path ((resolve isPlain tag text).bind pickCount) = .ok x at hread
      cases hscalar : resolve isPlain tag text with
      | error => simp [hscalar, Except.bind, atPath] at hread
      | ok s =>
        rw [hscalar] at hread
        cases s with
        | integer n =>
          have hlt := lt_of_resolve hscalar
          by_cases hn : 0 ≤ n
          · simp only [Except.bind, pickCount, if_pos hn, atPath, Except.ok.injEq] at hread
            subst hread
            change n.toNat < 2 ^ 64
            omega
          · simp [Except.bind, pickCount, if_neg hn, atPath] at hread
        | _ => cases hread
    | _ => cases hread
  all_goals trivial

theorem Field.fits_default {f : Field} {x : f.Content} (h : f.default? = some x) : f.Fits x := by
  cases f
  case timeoutSeconds =>
    cases h
    change defaultTimeoutSeconds < 2 ^ 64
    decide
  all_goals trivial

end Environment

end MeshProbe
