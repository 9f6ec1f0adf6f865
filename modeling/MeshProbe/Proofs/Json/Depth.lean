import MeshProbe.Proofs.Json.Roundtrip
import Mathlib.Data.List.TakeWhile

/-!
How deep the containers of a value nest, and that reading its text goes as deep:
text of a value that nests deeper than a reader may go is read as nothing at all,
whatever numbers it holds.
-/

namespace MeshProbe.Json

mutual

/-- How many containers lie within each other at most. -/
def Value.depth : Value → Nat
  | .array xs => depthOfItems xs + 1
  | .object fields => depthOfFields fields + 1
  | _ => 0

def depthOfItems : List Value → Nat
  | [] => 0
  | x :: xs => max x.depth (depthOfItems xs)

def depthOfFields : List (String × Value) → Nat
  | [] => 0
  | (_, x) :: fields => max x.depth (depthOfFields fields)

end

theorem depthOfItems_le_iff {d : Nat} {xs : List Value} :
    depthOfItems xs ≤ d ↔ ∀ x ∈ xs, x.depth ≤ d := by
  induction xs with
  | nil => simp [depthOfItems]
  | cons x xs ih => rw [depthOfItems, max_le_iff, ih, List.forall_mem_cons]

theorem depthOfFields_le_iff {d : Nat} {fields : List (String × Value)} :
    depthOfFields fields ≤ d ↔ ∀ f ∈ fields, f.2.depth ≤ d := by
  induction fields with
  | nil => simp [depthOfFields]
  | cons f fields ih => rw [depthOfFields, max_le_iff, ih, List.forall_mem_cons]

/-- A value whose numbers are integers of 64 bits, with the fields of its objects in order, each
name once. -/
inductive Integral : Value → Prop
  | null : Integral .null
  | bool (b : Bool) : Integral (.bool b)
  | number {n : Int} (low : -(2 ^ 63) ≤ n) (high : n < 2 ^ 64) : Integral (.number (.integer n))
  | string (s : String) : Integral (.string s)
  | array {xs : List Value} (items : ∀ x ∈ xs, Integral x) : Integral (.array xs)
  | object {fields : List (String × Value)} (order : InOrder fields)
    (items : ∀ f ∈ fields, Integral f.2) : Integral (.object fields)

theorem Integral.exact {v : Value} (h : Integral v) : Exact v := by
  induction h with
  | null => exact .null
  | bool b => exact .bool b
  | number _ _ => exact .number trivial
  | string s => exact .string s
  | array _ ih => exact .array ih
  | object _ _ ih => exact .object ih

theorem Integral.fits {v : Value} (h : Integral v) :
    ∀ {d : Nat}, v.depth ≤ d → Fits d v := by
  induction h with
  | null => intro d _; cases d <;> trivial
  | bool b => intro d _; cases d <;> trivial
  | number low high => intro d _; cases d <;> exact ⟨low, high⟩
  | string s => intro d _; cases d <;> trivial
  | @array xs _ ih =>
    intro d hd
    rw [Value.depth] at hd
    obtain ⟨d, rfl⟩ : ∃ inner, d = inner + 1 := ⟨d - 1, by omega⟩
    have hitems := depthOfItems_le_iff.mp (Nat.le_of_succ_le_succ hd)
    exact ⟨Fits d, rfl, fun x hx => ih x hx (hitems x hx)⟩
  | @object fields order _ ih =>
    intro d hd
    rw [Value.depth] at hd
    obtain ⟨d, rfl⟩ : ∃ inner, d = inner + 1 := ⟨d - 1, by omega⟩
    have hfields := depthOfFields_le_iff.mp (Nat.le_of_succ_le_succ hd)
    exact ⟨Fits d, rfl, order, fun f hf => ih f hf (hfields f hf)⟩

/-! ### What a number takes -/

/-- The bytes that numbers are made of. -/
def inNumber (b : UInt8) : Bool :=
  isDigit b || b == 43 || b == 45 || b == 46 || startsExponent b

/-- An outcome of reading a number off an input, if it is one, leaves the input behind some bytes
of a number. -/
def Takes (input : Bytes) (outcome : Except Failure (Number × Bytes)) : Prop :=
  ∀ n after, outcome = .ok (n, after) →
    ∃ taken, input = taken ++ after ∧ ∀ b ∈ taken, inNumber b = true

theorem takes_error (input : Bytes) (cause : Cause) (rest : Bytes) :
    Takes input (failAt cause rest) :=
  fun _ _ h => absurd h failAt_ne_ok

theorem takes_nothing (n : Number) (input : Bytes) : Takes input (.ok (n, input)) := by
  intro m after h
  rw [(Prod.mk.inj (Except.ok.inj h)).2]
  exact ⟨[], rfl, by simp⟩

theorem Takes.append {taken input : Bytes} {outcome : Except Failure (Number × Bytes)}
    (h : Takes input outcome) (htaken : ∀ b ∈ taken, inNumber b = true) :
    Takes (taken ++ input) outcome := by
  intro n after hok
  obtain ⟨more, rfl, hmore⟩ := h n after hok
  exact ⟨taken ++ more, (List.append_assoc ..).symm,
    List.forall_mem_append.mpr ⟨htaken, hmore⟩⟩

theorem Takes.cons {b : UInt8} {input : Bytes} {outcome : Except Failure (Number × Bytes)}
    (h : Takes input outcome) (hb : inNumber b = true) : Takes (b :: input) outcome := by
  have hbyte : ∀ b' ∈ [b], inNumber b' = true := List.forall_mem_singleton.mpr hb
  exact h.append hbyte

theorem inNumber_of_isDigit {b : UInt8} (h : isDigit b = true) : inNumber b = true := by
  simp [inNumber, h]

theorem inNumber_of_startsExponent {b : UInt8} (h : startsExponent b = true) :
    inNumber b = true := by
  simp [inNumber, h]

theorem Takes.digits {input : Bytes} {outcome : Except Failure (Number × Bytes)}
    (h : Takes (input.dropWhile isDigit) outcome) : Takes input outcome := by
  rw [← List.takeWhile_append_dropWhile (p := isDigit) (l := input)]
  exact h.append fun b hb => inNumber_of_isDigit ((List.mem_takeWhile_imp hb))

theorem readDigits_taken (limit : Nat) (input : Bytes) :
    ∀ n count, ∃ taken, input = taken ++ (readDigits limit n count input).2.2 ∧
      ∀ b ∈ taken, inNumber b = true := by
  induction input with
  | nil => exact fun n count => ⟨[], rfl, by simp⟩
  | cons b input ih =>
    intro n count
    rw [readDigits]
    split_ifs with hb
    · obtain ⟨taken, heq, htaken⟩ := ih (n * 10 + digitValue b) (count + 1)
      rw [Bool.and_eq_true] at hb
      exact ⟨b :: taken, congrArg (b :: ·) heq,
        List.forall_mem_cons.mpr ⟨inNumber_of_isDigit hb.1, htaken⟩⟩
    · exact ⟨[], rfl, by simp⟩

theorem Takes.readDigits (limit n count : Nat) {input : Bytes}
    {outcome : Except Failure (Number × Bytes)}
    (h : Takes (readDigits limit n count input).2.2 outcome) : Takes input outcome := by
  obtain ⟨taken, heq, htaken⟩ := readDigits_taken limit input n count
  rw [heq]
  exact h.append htaken

theorem realOf_takes (negative : Bool) (significand : Nat) (exponent : Int) (input : Bytes) :
    Takes input (realOf negative significand exponent input) := by
  unfold realOf
  simp only
  split
  · exact takes_nothing _ _
  · exact takes_error _ _ _

/-- The digits of an exponent whose sign is read. -/
def exponentDigits (negative : Bool) (significand : Nat) (start : Int) (negativeExponent : Bool) :
    Bytes → Except Failure (Number × Bytes)
  | [] => failAt .endInValue []
  | b :: rest =>
    if !isDigit b then failAt .invalidNumber rest
    else
      let (written, _, rest) := readDigits maxWrittenExponent (digitValue b) 0 rest
      if startsWithDigit rest then
        if significand ≠ 0 && !negativeExponent then failAt .numberOutOfRange (rest.drop 1)
        else .ok (.real (Binary64.zero negative), rest.dropWhile isDigit)
      else
        realOf negative significand (if negativeExponent then start - written else start + written)
          rest

/-- In front of the digits of an exponent stands at most a sign. -/
theorem exponentPart_eq (negative : Bool) (significand : Nat) (start : Int) (input : Bytes) :
    ∃ sign digits negativeExponent, input = sign ++ digits ∧ (∀ b ∈ sign, inNumber b = true) ∧
      exponentPart negative significand start input =
        exponentDigits negative significand start negativeExponent digits := by
  rw [exponentPart.eq_def]
  split
  next negativeExponent digits hsign =>
    split at hsign
    · cases hsign
      exact ⟨[43], digits, false, rfl, List.forall_mem_singleton.mpr rfl, rfl⟩
    · cases hsign
      exact ⟨[45], digits, true, rfl, List.forall_mem_singleton.mpr rfl, rfl⟩
    · cases hsign
      exact ⟨[], input, false, rfl, by simp, rfl⟩

theorem exponentDigits_takes (negative : Bool) (significand : Nat) (start : Int)
    (negativeExponent : Bool) (input : Bytes) :
    Takes input (exponentDigits negative significand start negativeExponent input) := by
  unfold exponentDigits
  split
  · exact takes_error _ _ _
  · next b rest =>
    by_cases hdigit : isDigit b = true
    · refine Takes.cons ?_ (inNumber_of_isDigit hdigit)
      apply Takes.readDigits maxWrittenExponent (digitValue b) 0
      simp only [hdigit, Bool.not_true, Bool.false_eq_true, if_false]
      generalize readDigits maxWrittenExponent (digitValue b) 0 rest = read
      obtain ⟨written, count, rest⟩ := read
      by_cases hmore : startsWithDigit rest = true
      · simp only [hmore, if_true]
        split
        · exact takes_error _ _ _
        · exact (takes_nothing _ _).digits
      · simp only [hmore]
        exact realOf_takes _ _ _ _
    · simp only [hdigit]
      exact takes_error _ _ _

theorem exponentPart_takes (negative : Bool) (significand : Nat) (start : Int) (input : Bytes) :
    Takes input (exponentPart negative significand start input) := by
  obtain ⟨sign, digits, negativeExponent, rfl, hsign, heq⟩ :=
    exponentPart_eq negative significand start input
  rw [heq]
  exact (exponentDigits_takes _ _ _ _ _).append hsign

theorem afterDigits_takes (negative : Bool) (significand : Nat) (exponent : Int) (input : Bytes) :
    Takes input (afterDigits negative significand exponent input) := by
  unfold afterDigits
  split
  · split_ifs with hletter
    · exact (exponentPart_takes _ _ _ _).cons (inNumber_of_startsExponent hletter)
    · exact realOf_takes _ _ _ _
  · exact realOf_takes _ _ _ _

theorem fractionPart_takes (negative : Bool) (significand : Nat) (exponent : Int)
    (input : Bytes) : Takes input (fractionPart negative significand exponent input) := by
  unfold fractionPart
  apply Takes.readDigits maxSignificand significand 0
  generalize readDigits maxSignificand significand 0 input = read
  obtain ⟨n, count, rest⟩ := read
  dsimp only
  split_ifs
  · exact (afterDigits_takes _ _ _ _).digits
  · split
    · exact takes_error _ _ _
    · exact takes_error _ _ _
  · exact afterDigits_takes _ _ _ _

theorem afterInteger_takes (negative : Bool) (n : Nat) (input : Bytes) :
    Takes input (afterInteger negative n input) := by
  rw [afterInteger.eq_def]
  extract_lets whole
  split
  · exact (fractionPart_takes _ _ _ _).cons (by decide)
  · split_ifs with hletter
    · exact (exponentPart_takes _ _ _ _).cons (inNumber_of_startsExponent hletter)
    · exact takes_nothing _ _
  · exact takes_nothing _ _

/-- A number leaves the input behind some bytes of a number. -/
theorem number_takes (negative : Bool) (input : Bytes) :
    Takes input (number negative input) := by
  rw [number.eq_def]
  split
  · exact takes_error _ _ _
  · next b input =>
    split_ifs with hzero hdigit
    · refine Takes.cons ?_ (hzero ▸ by decide)
      split
      · split_ifs
        · exact takes_error _ _ _
        · exact afterInteger_takes _ _ _
      · exact afterInteger_takes _ _ _
    · refine Takes.cons ?_ (inNumber_of_isDigit hdigit)
      apply Takes.readDigits maxSignificand (digitValue b) 0
      generalize readDigits maxSignificand (digitValue b) 0 input = read
      obtain ⟨n, count, rest⟩ := read
      dsimp only
      split_ifs
      · apply Takes.digits
        split
        · next after heq =>
          rw [heq]
          exact (fractionPart_takes _ _ _ _).cons (by decide)
        · exact afterDigits_takes _ _ _ _
      · exact afterInteger_takes _ _ _
    · exact takes_error _ _ _

/-! ### What a number is written with -/

/-- Text of nothing but what numbers are made of. -/
def OfNumber (text : List Char) : Prop :=
  ∀ b ∈ Utf8.encode text, inNumber b = true

instance (text : List Char) : Decidable (OfNumber text) :=
  decidable_of_iff ((Utf8.encode text).all inNumber = true) List.all_eq_true

theorem OfNumber.append {a b : List Char} (ha : OfNumber a) (hb : OfNumber b) :
    OfNumber (a ++ b) := by
  rw [OfNumber, Utf8.encode_append]
  exact List.forall_mem_append.mpr ⟨ha, hb⟩

theorem OfNumber.mono {a b : List Char} (h : OfNumber b) (hsub : a ⊆ b) : OfNumber a := by
  intro byte hbyte
  obtain ⟨c, hc, hbyte⟩ := List.mem_flatMap.mp hbyte
  exact h byte (List.mem_flatMap.mpr ⟨c, hsub hc, hbyte⟩)

theorem ofNumber_toDigits (n : Nat) : OfNumber (Nat.toDigits 10 n) :=
  fun b hb => inNumber_of_isDigit ((digitBytes_spec n).1 b hb)

theorem ofNumber_zeros (n : Nat) : OfNumber (List.replicate n '0') :=
  OfNumber.mono (b := ['0']) (by decide)
    fun c hc => List.mem_singleton.mpr (List.eq_of_mem_replicate hc)

theorem ofNumber_integer (n : Int) : OfNumber (toString n).toList := by
  cases n with
  | ofNat m =>
    intro b hb
    have heq : Utf8.encode (toString (Int.ofNat m)).toList = digitBytes m := encode_toString m
    exact inNumber_of_isDigit ((digitBytes_spec m).1 b (heq ▸ hb))
  | negSucc m =>
    have heq : (toString (Int.negSucc m)).toList = '-' :: (toString (m + 1)).toList := by
      change (Int.repr (Int.negSucc m)).toList = _
      simp [Int.repr]
    rw [heq]
    have hdigits : OfNumber (toString (m + 1)).toList := by
      rw [OfNumber, encode_toString]
      exact fun b hb => inNumber_of_isDigit ((digitBytes_spec (m + 1)).1 b hb)
    exact OfNumber.append (a := ['-']) (by decide) hdigits

theorem ofNumber_real (layout : DecimalLayout) (x : Binary64) :
    OfNumber (x.render layout).toList := by
  have hsign : OfNumber (if x.negative then "-" else "").toList := by
    split <;> decide
  have hwhole : OfNumber (if layout.keepsPoint then ".0" else "").toList := by
    split <;> decide
  unfold Binary64.render
  extract_lets sign whole
  split_ifs
  · simp only [String.toList_append]
    exact (hsign.append (by decide)).append hwhole
  · generalize x.shortest layout.tie = decimal
    obtain ⟨n, e⟩ := decimal
    dsimp only
    have hdigits := ofNumber_toDigits n
    generalize Nat.toDigits 10 n = digits at hdigits ⊢
    rw [String.toList_append]
    refine hsign.append ?_
    split_ifs
    · rw [String.toList_append, String.toList_ofList]
      exact (hdigits.append (ofNumber_zeros _)).append hwhole
    · rw [String.toList_ofList]
      have hpoint : OfNumber ['.'] := by decide
      exact (hdigits.mono (List.take_subset _ _)).append
        (hpoint.append (hdigits.mono (List.drop_subset _ _)))
    · rw [String.toList_append, String.toList_ofList (l := List.replicate _ _ ++ digits)]
      exact OfNumber.append (by decide) ((ofNumber_zeros _).append hdigits)
    · simp only [String.toList_append]
      refine OfNumber.append (OfNumber.append ?_ (by decide)) (ofNumber_integer _)
      split
      · next first second rest _ =>
        rw [String.toList_ofList]
        have hpoint : OfNumber ['.'] := by decide
        exact (hdigits.mono (a := [first]) (by simp)).append
          (hpoint.append (hdigits.mono (a := second :: rest) (List.subset_cons_self _ _)))
      · rw [String.toList_ofList]
        exact hdigits

theorem ofNumber_render (n : Number) : OfNumber n.render := by
  cases n with
  | integer n => exact ofNumber_integer n
  | real x => exact ofNumber_real realLayout x

/-! ### Where reading stops -/

/-- What may stand behind a value in compact text: nothing, a comma or a closing mark. -/
def Follows (rest : Bytes) : Prop :=
  ∀ b ∈ rest.head?, b = 44 ∨ b = 93 ∨ b = 125

/-- What is left when reading stops before `rest`, or within a number in front of it. -/
def StopsBefore (rest after : Bytes) : Prop :=
  ∃ left, after = left ++ rest ∧ ∀ b ∈ left, inNumber b = true

theorem stopsBefore_self (rest : Bytes) : StopsBefore rest rest :=
  ⟨[], rfl, by simp⟩

/-- A byte of a number is no blank, no separator and no closing mark, and begins no other value. -/
theorem inNumber_spec {b : UInt8} (h : inNumber b = true) :
    isBlank b = false ∧ (b ≠ 44 ∧ b ≠ 93 ∧ b ≠ 125) ∧
      b ≠ 110 ∧ b ≠ 116 ∧ b ≠ 102 ∧ b ≠ 34 ∧ b ≠ 91 ∧ b ≠ 123 := by
  have all : ∀ n < 256, inNumber (UInt8.ofNat n) = true →
      isBlank (UInt8.ofNat n) = false ∧
        (UInt8.ofNat n ≠ 44 ∧ UInt8.ofNat n ≠ 93 ∧ UInt8.ofNat n ≠ 125) ∧
        UInt8.ofNat n ≠ 110 ∧ UInt8.ofNat n ≠ 116 ∧ UInt8.ofNat n ≠ 102 ∧
        UInt8.ofNat n ≠ 34 ∧ UInt8.ofNat n ≠ 91 ∧ UInt8.ofNat n ≠ 123 := by
    decide +kernel
  have hspec := all b.toNat b.toNat_lt
  rw [UInt8.ofNat_toNat] at hspec
  exact hspec h

/-- Bytes of a number are taken off a text of a number at most up to its end. -/
theorem stopsBefore_of_taken {text rest taken after : Bytes} (heq : text ++ rest = taken ++ after)
    (htext : ∀ b ∈ text, inNumber b = true) (hrest : Follows rest)
    (htaken : ∀ b ∈ taken, inNumber b = true) : StopsBefore rest after := by
  rcases List.append_eq_append_iff.mp heq with ⟨more, rfl, rfl⟩ | ⟨left, rfl, rfl⟩
  · cases more with
    | nil => exact stopsBefore_self after
    | cons b more =>
      have hb := inNumber_spec (htaken b (by simp))
      rcases hrest b rfl with rfl | rfl | rfl <;> simp at hb
  · exact ⟨left, rfl, fun b hb => htext b (by simp [hb])⟩

section
variable {item : Reader Value}

/-- Within a number no container goes on. -/
theorem moreItems_stopped {steps : Nat} {rest after last : Bytes} {xs : List Value}
    (hstop : StopsBefore rest after) (h : moreItems item steps after = .ok (xs, last)) :
    after = rest := by
  obtain ⟨left, rfl, hleft⟩ := hstop
  cases left with
  | nil => rfl
  | cons b left =>
    obtain ⟨hblank, ⟨hcomma, hbracket, -⟩, -⟩ := inNumber_spec (hleft b List.mem_cons_self)
    rw [moreItems.eq_def] at h
    simp only [List.cons_append, skipBlanks_cons hblank, if_neg hcomma, if_neg hbracket] at h
    exact absurd h failAt_ne_ok

theorem moreFields_stopped {steps : Nat} {rest after last : Bytes} {fs : List (String × Value)}
    (hstop : StopsBefore rest after) (h : moreFields item steps after = .ok (fs, last)) :
    after = rest := by
  obtain ⟨left, rfl, hleft⟩ := hstop
  cases left with
  | nil => rfl
  | cons b left =>
    obtain ⟨hblank, ⟨hcomma, -, hbrace⟩, -⟩ := inNumber_spec (hleft b List.mem_cons_self)
    rw [moreFields.eq_def] at h
    simp only [List.cons_append, skipBlanks_cons hblank, if_neg hcomma, if_neg hbrace] at h
    exact absurd h failAt_ne_ok

end

/-! ### How deep reading goes -/

theorem render_real_ne_nil (layout : DecimalLayout) (x : Binary64) :
    (x.render layout).toList ≠ [] := by
  unfold Binary64.render
  extract_lets sign whole
  split_ifs
  · simp
  · generalize x.shortest layout.tie = decimal
    obtain ⟨n, e⟩ := decimal
    have hdigits : Nat.toDigits 10 n ≠ [] := Nat.toDigits_ne_nil
    dsimp only
    split_ifs <;> simp [hdigits]

theorem render_integer_ne_nil (n : Int) : (toString n).toList ≠ [] := by
  cases n with
  | ofNat m =>
    change (String.ofList (Nat.toDigits 10 m)).toList ≠ []
    rw [String.toList_ofList]
    exact Nat.toDigits_ne_nil
  | negSucc m =>
    change (Int.repr (Int.negSucc m)).toList ≠ []
    simp [Int.repr]

theorem encode_render (n : Number) :
    ∃ b more, Utf8.encode n.render = b :: more ∧ ∀ c ∈ b :: more, inNumber c = true := by
  have hne : n.render ≠ [] := by
    cases n with
    | integer n => exact render_integer_ne_nil n
    | real x => exact render_real_ne_nil realLayout x
  obtain ⟨c, text, htext⟩ := List.exists_cons_of_ne_nil hne
  obtain ⟨b, more, hbytes⟩ := List.exists_cons_of_ne_nil (String.utf8EncodeChar_ne_nil (c := c))
  have heq : Utf8.encode n.render = b :: (more ++ Utf8.encode text) := by
    rw [htext, Utf8.encode_cons, hbytes]
    rfl
  exact ⟨b, _, heq, heq ▸ ofNumber_render n⟩

theorem compact_opens (v : Value) : Opens (Utf8.encode (compact v)) := by
  match v with
  | .null => exact ⟨110, [117, 108, 108], by decide, by decide, by decide⟩
  | .bool true => exact ⟨116, [114, 117, 101], by decide, by decide, by decide⟩
  | .bool false => exact ⟨102, [97, 108, 115, 101], by decide, by decide, by decide⟩
  | .number n =>
    obtain ⟨b, more, heq, hnumber⟩ := encode_render n
    obtain ⟨hblank, ⟨-, hbracket, -⟩, -⟩ := inNumber_spec (hnumber b List.mem_cons_self)
    exact ⟨b, more, by rw [compact, heq], hblank, hbracket⟩
  | .string s =>
    obtain ⟨more, heq, -⟩ := string_quote s
    exact ⟨34, more, by rw [compact, heq], by decide, by decide⟩
  | .array [] => exact ⟨91, [93], by decide, by decide, by decide⟩
  | .array (x :: xs) => exact ⟨91, _, by rw [compact]; rfl, by decide, by decide⟩
  | .object [] => exact ⟨123, [125], by decide, by decide, by decide⟩
  | .object ((k, x) :: fields) => exact ⟨123, _, by rw [compact]; rfl, by decide, by decide⟩

/-- A reader takes the text of a value, if it does, up to what follows it, and only if the value
nests at most `d` deep. -/
def Reaches (item : Reader Value) (d : Nat) (v : Value) : Prop :=
  ∀ rest x after, Follows rest → item (Utf8.encode (compact v) ++ rest) = .ok (x, after) →
    v.depth ≤ d ∧ StopsBefore rest after

theorem follows_cons {b : UInt8} (h : b = 44 ∨ b = 93 ∨ b = 125) (rest : Bytes) :
    Follows (b :: rest) := by
  intro c hc
  rw [← Option.some_inj.mp hc]
  exact h

theorem follows_compactItems (xs : List Value) (rest : Bytes) :
    Follows (Utf8.encode (compactItems xs) ++ rest) := by
  cases xs with
  | nil => exact follows_cons (b := 93) (by simp) rest
  | cons x xs =>
    rw [compactItems]
    exact follows_cons (b := 44) (by simp) _

theorem follows_compactFields (fs : List (String × Value)) (rest : Bytes) :
    Follows (Utf8.encode (compactFields fs) ++ rest) := by
  cases fs with
  | nil => exact follows_cons (b := 125) (by simp) rest
  | cons f fs =>
    obtain ⟨k, x⟩ := f
    rw [compactFields]
    exact follows_cons (b := 44) (by simp) _

section
variable {item : Reader Value} {d : Nat}

theorem moreItems_reaches {xs ys : List Value} (hitem : ∀ x ∈ xs, Reaches item d x)
    {steps : Nat} {rest after : Bytes}
    (h : moreItems item steps (Utf8.encode (compactItems xs) ++ rest) = .ok (ys, after)) :
    (∀ x ∈ xs, x.depth ≤ d) ∧ after = rest := by
  induction xs generalizing steps ys with
  | nil =>
    rw [compactItems, moreItems.eq_def] at h
    exact ⟨by simp, (Prod.mk.inj (Except.ok.inj h)).2.symm⟩
  | cons x xs ih =>
    obtain ⟨hx, hxs⟩ := List.forall_mem_cons.mp hitem
    obtain ⟨b, more, hpiece, hblank, hbracket⟩ := compact_opens x
    have hinput : Utf8.encode (compactItems (x :: xs)) ++ rest =
        44 :: (b :: (more ++ (Utf8.encode (compactItems xs) ++ rest))) := by
      rw [compactItems]
      simp [hpiece]
      rfl
    rw [hinput, moreItems.eq_def] at h
    simp only [skipBlanks_cons (b := 44) (by decide), skipBlanks_cons hblank, hbracket, if_false,
      if_true, show ¬ (44 : UInt8) = 93 from by decide] at h
    cases steps with
    | zero => exact absurd h failAt_ne_ok
    | succ steps =>
      obtain ⟨⟨y, between⟩, hy, h⟩ := bind_eq_ok.mp h
      obtain ⟨⟨zs, last⟩, hzs, h⟩ := bind_eq_ok.mp h
      obtain ⟨-, rfl⟩ := Prod.mk.inj (Except.ok.inj h)
      rw [← List.cons_append, ← hpiece] at hy
      obtain ⟨hdepth, hstop⟩ := hx _ y between (follows_compactItems xs rest) hy
      rw [moreItems_stopped hstop hzs] at hzs
      obtain ⟨hdepths, hlast⟩ := ih hxs hzs
      exact ⟨List.forall_mem_cons.mpr ⟨hdepth, hdepths⟩, hlast⟩

theorem items_reaches {x : Value} {xs ys : List Value}
    (hitem : ∀ y ∈ x :: xs, Reaches item d y) {rest after : Bytes}
    (h : items item (Utf8.encode (compact x) ++ (Utf8.encode (compactItems xs) ++ rest)) =
      .ok (ys, after)) : (∀ y ∈ x :: xs, y.depth ≤ d) ∧ after = rest := by
  obtain ⟨hx, hxs⟩ := List.forall_mem_cons.mp hitem
  obtain ⟨b, more, hpiece, hblank, hbracket⟩ := compact_opens x
  rw [items, hpiece] at h
  simp only [List.cons_append, skipBlanks_cons hblank, hbracket, if_false] at h
  obtain ⟨⟨y, between⟩, hy, h⟩ := bind_eq_ok.mp h
  obtain ⟨⟨zs, last⟩, hzs, h⟩ := bind_eq_ok.mp h
  obtain ⟨-, rfl⟩ := Prod.mk.inj (Except.ok.inj h)
  rw [← List.cons_append, ← hpiece] at hy
  obtain ⟨hdepth, hstop⟩ := hx _ y between (follows_compactItems xs rest) hy
  rw [moreItems_stopped hstop hzs] at hzs
  obtain ⟨hdepths, hlast⟩ := moreItems_reaches hxs hzs
  exact ⟨List.forall_mem_cons.mpr ⟨hdepth, hdepths⟩, hlast⟩

/-- A field behind its opening quote. -/
theorem field_reaches {f g : String × Value} (hitem : Reaches item d f.2) {more rest after : Bytes}
    (hmore : ∀ rest, string (more ++ rest) = .ok (f.1, rest)) (hrest : Follows rest)
    (h : field item (more ++ (58 :: (Utf8.encode (compact f.2) ++ rest))) = .ok (g, after)) :
    f.2.depth ≤ d ∧ StopsBefore rest after := by
  obtain ⟨⟨key, between⟩, hkey, h⟩ := bind_eq_ok.mp h
  rw [hmore] at hkey
  obtain ⟨-, rfl⟩ := Prod.mk.inj (Except.ok.inj hkey)
  simp only [skipBlanks_cons (b := 58) (by decide), if_true] at h
  obtain ⟨⟨y, last⟩, hy, h⟩ := bind_eq_ok.mp h
  obtain ⟨-, rfl⟩ := Prod.mk.inj (Except.ok.inj h)
  exact hitem rest y last hrest hy

theorem moreFields_reaches {fs gs : List (String × Value)}
    (hitem : ∀ f ∈ fs, Reaches item d f.2) {steps : Nat} {rest after : Bytes}
    (h : moreFields item steps (Utf8.encode (compactFields fs) ++ rest) = .ok (gs, after)) :
    (∀ f ∈ fs, f.2.depth ≤ d) ∧ after = rest := by
  induction fs generalizing steps gs with
  | nil =>
    rw [compactFields, moreFields.eq_def] at h
    exact ⟨by simp, (Prod.mk.inj (Except.ok.inj h)).2.symm⟩
  | cons f fs ih =>
    obtain ⟨k, x⟩ := f
    obtain ⟨hx, hxs⟩ := List.forall_mem_cons.mp hitem
    obtain ⟨more, hquote, hmore⟩ := string_quote k
    have hinput : Utf8.encode (compactFields ((k, x) :: fs)) ++ rest =
        44 :: (34 :: (more ++
          (58 :: (Utf8.encode (compact x) ++ (Utf8.encode (compactFields fs) ++ rest))))) := by
      rw [compactFields]
      simp [hquote]
      rfl
    rw [hinput, moreFields.eq_def] at h
    simp only [skipBlanks_cons (b := 44) (by decide), skipBlanks_cons (b := 34) (by decide),
      if_false, if_true, show ¬ (44 : UInt8) = 125 from by decide,
      show ¬ (34 : UInt8) = 125 from by decide] at h
    cases steps with
    | zero => exact absurd h failAt_ne_ok
    | succ steps =>
      obtain ⟨⟨g, between⟩, hg, h⟩ := bind_eq_ok.mp h
      obtain ⟨⟨hs, last⟩, hhs, h⟩ := bind_eq_ok.mp h
      obtain ⟨-, rfl⟩ := Prod.mk.inj (Except.ok.inj h)
      obtain ⟨hdepth, hstop⟩ :=
        field_reaches (f := (k, x)) hx hmore (follows_compactFields fs rest) hg
      rw [moreFields_stopped hstop hhs] at hhs
      obtain ⟨hdepths, hlast⟩ := ih hxs hhs
      exact ⟨List.forall_mem_cons.mpr ⟨hdepth, hdepths⟩, hlast⟩

theorem fields_reaches {f : String × Value} {fs gs : List (String × Value)}
    (hitem : ∀ g ∈ f :: fs, Reaches item d g.2) {rest after : Bytes}
    (h : fields item (Utf8.encode (quote f.1 ++ ':' :: compact f.2) ++
      (Utf8.encode (compactFields fs) ++ rest)) = .ok (gs, after)) :
    (∀ g ∈ f :: fs, g.2.depth ≤ d) ∧ after = rest := by
  obtain ⟨hx, hxs⟩ := List.forall_mem_cons.mp hitem
  obtain ⟨more, hquote, hmore⟩ := string_quote f.1
  have hinput : Utf8.encode (quote f.1 ++ ':' :: compact f.2) ++
      (Utf8.encode (compactFields fs) ++ rest) = 34 :: (more ++
        (58 :: (Utf8.encode (compact f.2) ++ (Utf8.encode (compactFields fs) ++ rest)))) := by
    simp [hquote]
    rfl
  rw [hinput, fields] at h
  simp only [skipBlanks_cons (b := 34) (by decide), if_false, if_true,
    show ¬ (34 : UInt8) = 125 from by decide] at h
  obtain ⟨⟨g, between⟩, hg, h⟩ := bind_eq_ok.mp h
  obtain ⟨⟨hs, last⟩, hhs, h⟩ := bind_eq_ok.mp h
  obtain ⟨-, rfl⟩ := Prod.mk.inj (Except.ok.inj h)
  obtain ⟨hdepth, hstop⟩ := field_reaches hx hmore (follows_compactFields fs rest) hg
  rw [moreFields_stopped hstop hhs] at hhs
  obtain ⟨hdepths, hlast⟩ := moreFields_reaches hxs hhs
  exact ⟨List.forall_mem_cons.mpr ⟨hdepth, hdepths⟩, hlast⟩

end

theorem word_append (v : Value) (expected rest : Bytes) :
    word v expected (expected ++ rest) = .ok (v, rest) := by
  induction expected with
  | nil => cases rest <;> rfl
  | cons b expected ih => simp [word, ih]

/-- Reading a number off its text ends there or before. -/
theorem valueWith_number (inner : Option (Reader Value)) (n : Number) {rest after : Bytes}
    {x : Value} (hrest : Follows rest)
    (h : valueWith inner (Utf8.encode n.render ++ rest) = .ok (x, after)) :
    StopsBefore rest after := by
  obtain ⟨b, more, heq, hnumber⟩ := encode_render n
  obtain ⟨hb, hmore⟩ := List.forall_mem_cons.mp hnumber
  obtain ⟨hblank, -, hnull, hyes, hno, hquote, hbracket, hbrace⟩ := inNumber_spec hb
  rw [heq, List.cons_append] at h
  by_cases hminus : b = 45
  · subst hminus
    rw [valueWith_minus] at h
    obtain ⟨⟨m, last⟩, hm, h⟩ := bind_eq_ok.mp h
    obtain ⟨-, rfl⟩ := Prod.mk.inj (Except.ok.inj h)
    obtain ⟨taken, htaken, hall⟩ := number_takes true _ m last hm
    exact stopsBefore_of_taken htaken hmore hrest hall
  by_cases hdigit : isDigit b = true
  · rw [valueWith_digit inner hdigit] at h
    obtain ⟨⟨m, last⟩, hm, h⟩ := bind_eq_ok.mp h
    obtain ⟨-, rfl⟩ := Prod.mk.inj (Except.ok.inj h)
    obtain ⟨taken, htaken, hall⟩ := number_takes false _ m last hm
    rw [← List.cons_append] at htaken
    exact stopsBefore_of_taken htaken hnumber hrest hall
  · simp only [valueWith, skipBlanks_cons hblank, hnull, hyes, hno, hminus, hdigit, hquote,
      hbracket, hbrace, if_false] at h
    exact absurd h failAt_ne_ok

/-- What is no container is taken whether or not containers are allowed. -/
theorem valueWith_leaf (inner : Option (Reader Value)) {v x : Value} (hleaf : v.depth = 0)
    {rest after : Bytes} (hrest : Follows rest)
    (h : valueWith inner (Utf8.encode (compact v) ++ rest) = .ok (x, after)) :
    StopsBefore rest after := by
  have hword (w : Value) (expected : Bytes)
      (h : word w expected (expected ++ rest) = .ok (x, after)) : StopsBefore rest after := by
    rw [word_append] at h
    rw [← (Prod.mk.inj (Except.ok.inj h)).2]
    exact stopsBefore_self rest
  match v with
  | .null => exact hword .null [117, 108, 108] h
  | .bool true => exact hword (.bool true) [114, 117, 101] h
  | .bool false => exact hword (.bool false) [97, 108, 115, 101] h
  | .number n =>
    rw [compact] at h
    exact valueWith_number inner n hrest h
  | .string s =>
    obtain ⟨more, heq, hread⟩ := string_quote s
    rw [compact, heq, List.cons_append, valueWith_quote, hread] at h
    rw [← (Prod.mk.inj (Except.ok.inj h)).2]
    exact stopsBefore_self rest
  | .array _ => exact absurd hleaf (by simp [Value.depth])
  | .object _ => exact absurd hleaf (by simp [Value.depth])

/-- Without leave for containers none is read. -/
theorem valueWith_none_of_container {v x : Value} (hdepth : v.depth ≠ 0) {rest after : Bytes} :
    valueWith none (Utf8.encode (compact v) ++ rest) ≠ .ok (x, after) := by
  match v with
  | .null | .bool _ | .number _ | .string _ => exact absurd rfl hdepth
  | .array [] => exact failAt_ne_ok
  | .array (y :: ys) =>
    rw [compact]
    exact failAt_ne_ok
  | .object [] => exact failAt_ne_ok
  | .object ((k, y) :: fs) =>
    rw [compact]
    exact failAt_ne_ok

/-- Text of a value that a reader takes nests no deeper than the reader may go. -/
theorem value_reaches (d : Nat) : ∀ v, Reaches (value d) d v := by
  induction d with
  | zero =>
    intro v rest x after hrest h
    by_cases hleaf : v.depth = 0
    · exact ⟨hleaf.le, valueWith_leaf none hleaf hrest h⟩
    · exact absurd h (valueWith_none_of_container hleaf)
  | succ d ih =>
    intro v rest x after hrest h
    by_cases hleaf : v.depth = 0
    · exact ⟨hleaf ▸ Nat.zero_le _, valueWith_leaf (some (value d)) hleaf hrest h⟩
    rw [value] at h
    cases v with
    | null | bool | number | string => exact absurd rfl hleaf
    | array items =>
      cases items with
      | nil =>
        obtain rfl : rest = after := (Prod.mk.inj (Except.ok.inj h)).2
        exact ⟨Nat.le_add_left 1 d, stopsBefore_self rest⟩
      | cons y ys =>
        rw [compact, List.cons_append, encode_bracket_append, valueWith_bracket,
          Utf8.encode_append, List.append_assoc] at h
        obtain ⟨⟨zs, last⟩, hzs, h⟩ := bind_eq_ok.mp h
        obtain rfl : last = after := (Prod.mk.inj (Except.ok.inj h)).2
        obtain ⟨hdepths, rfl⟩ := items_reaches (fun z _ => ih z) hzs
        exact ⟨Nat.succ_le_succ (depthOfItems_le_iff.mpr hdepths), stopsBefore_self _⟩
    | object fields =>
      cases fields with
      | nil =>
        obtain rfl : rest = after := (Prod.mk.inj (Except.ok.inj h)).2
        exact ⟨Nat.le_add_left 1 d, stopsBefore_self rest⟩
      | cons f fs =>
        obtain ⟨k, y⟩ := f
        rw [compact, List.cons_append, List.cons_append, encode_brace_append, valueWith_brace,
          Utf8.encode_append, List.append_assoc] at h
        obtain ⟨⟨gs, last⟩, hgs, h⟩ := bind_eq_ok.mp h
        obtain rfl : last = after := (Prod.mk.inj (Except.ok.inj h)).2
        obtain ⟨hdepths, rfl⟩ := fields_reaches (f := (k, y)) (fun g _ => ih g.2) hgs
        exact ⟨Nat.succ_le_succ (depthOfFields_le_iff.mpr hdepths), stopsBefore_self _⟩

/-- Text of a value that nests too deep is not read. -/
theorem parse_compact_of_deep {v : Value} (h : maxDepth < v.depth) :
    ∃ e, parse (Utf8.encode (compact v)) = .error e := by
  cases hparse : parse (Utf8.encode (compact v)) with
  | error e => exact ⟨e, rfl⟩
  | ok x =>
    obtain ⟨⟨y, after⟩, hread, -⟩ := bind_eq_ok.mp (parse_eq_ok_iff.mp hparse)
    rw [← List.append_nil (Utf8.encode (compact v))] at hread
    obtain ⟨hdepth, -⟩ := value_reaches maxDepth v [] y after (by simp [Follows]) hread
    omega

/-- Text of a value that nests no deeper than is read, and whose numbers are integers of 64 bits,
is read as that value. -/
theorem parse_compact {v : Value} (h : Integral v) (hdepth : v.depth ≤ maxDepth) :
    parse (Utf8.encode (compact v)) = .ok v :=
  parse_written compact_writes (h.fits hdepth) h.exact

end MeshProbe.Json
