import MeshProbe.Json.Parser
import MeshProbe.Json.Printer
import MeshProbe.Proofs.Action
import MeshProbe.Proofs.Text.Percent

/-!
Numbers and strings of JSON text, written and read again. An integer of 64 bits
and a string of any characters come back as they were, whatever follows them in
the text, provided that a number is not followed by more of a number.
-/

namespace MeshProbe.Json

/-! ### Digits -/

/-- The number that digits make on top of another one. -/
def digitsOn (n : Nat) (digits : Bytes) : Nat :=
  digits.foldl (fun n b => n * 10 + digitValue b) n

theorem digitsOn_cons (n : Nat) (b : UInt8) (digits : Bytes) :
    digitsOn n (b :: digits) = digitsOn (n * 10 + digitValue b) digits := by
  rw [digitsOn, List.foldl_cons, ← digitsOn]

theorem digitsOn_append (n : Nat) (a b : Bytes) :
    digitsOn n (a ++ b) = digitsOn (digitsOn n a) b :=
  List.foldl_append

theorem le_digitsOn (n : Nat) (digits : Bytes) : n ≤ digitsOn n digits := by
  induction digits generalizing n with
  | nil => exact le_rfl
  | cons b digits ih => exact le_trans (by omega) (ih (n * 10 + digitValue b))

/-- Digits are read to their end when what they make fits. -/
theorem readDigits_append {limit : Nat} {digits rest : Bytes}
    (hdigits : ∀ b ∈ digits, isDigit b = true) (hrest : startsWithDigit rest = false) :
    ∀ n count, digitsOn n digits ≤ limit →
      readDigits limit n count (digits ++ rest) =
        (digitsOn n digits, count + digits.length, rest) := by
  induction digits with
  | nil =>
    intro n count _
    cases rest with
    | nil => rfl
    | cons b rest =>
      have hb : isDigit b = false := hrest
      simp [readDigits, hb, digitsOn]
  | cons b digits ih =>
    obtain ⟨hb, hdigits⟩ := List.forall_mem_cons.mp hdigits
    intro n count hlimit
    have hfits : n * 10 + digitValue b ≤ limit := le_trans (le_digitsOn _ digits) hlimit
    rw [List.cons_append, readDigits, if_pos (by simp [hb, hfits]),
      ih hdigits _ _ hlimit, List.length_cons, Nat.add_right_comm]
    rfl

/-- The digits of a number as bytes. -/
def digitBytes (n : Nat) : Bytes :=
  Utf8.encode (Nat.toDigits 10 n)

theorem encode_digitChar {d : Nat} (h : d < 10) :
    Utf8.encode [d.digitChar] = [UInt8.ofNat (48 + d)] := by
  have all : ∀ d < 10, Utf8.encode [d.digitChar] = [UInt8.ofNat (48 + d)] := by decide
  exact all d h

theorem isDigit_ofNat {d : Nat} (h : d < 10) :
    isDigit (UInt8.ofNat (48 + d)) = true ∧ digitValue (UInt8.ofNat (48 + d)) = d := by
  have all : ∀ d < 10, isDigit (UInt8.ofNat (48 + d)) = true ∧
      digitValue (UInt8.ofNat (48 + d)) = d := by decide
  exact all d h

theorem digitBytes_of_lt {n : Nat} (h : n < 10) : digitBytes n = [UInt8.ofNat (48 + n)] := by
  rw [digitBytes, Nat.toDigits_of_lt_base h, encode_digitChar h]

theorem digitBytes_of_le {n : Nat} (h : 10 ≤ n) :
    digitBytes n = digitBytes (n / 10) ++ [UInt8.ofNat (48 + n % 10)] := by
  rw [digitBytes, Nat.toDigits_of_base_le (by decide) h, Utf8.encode_append,
    encode_digitChar (Nat.mod_lt n (by decide)), digitBytes]

/-- The digits of a number are digits, make the number, and begin with zero for zero only. -/
theorem digitBytes_spec (n : Nat) :
    (∀ b ∈ digitBytes n, isDigit b = true) ∧ digitsOn 0 (digitBytes n) = n ∧
    (n ≠ 0 → ∃ b rest, digitBytes n = b :: rest ∧ b ≠ 48) := by
  induction n using Nat.strong_induction_on with
  | _ n ih =>
    by_cases hlt : n < 10
    · obtain ⟨hdigit, hvalue⟩ := isDigit_ofNat hlt
      rw [digitBytes_of_lt hlt]
      refine ⟨by simpa using hdigit, by simpa [digitsOn] using hvalue, fun hne => ⟨_, [], rfl, ?_⟩⟩
      intro h48
      rw [h48] at hvalue
      exact hne hvalue.symm
    · have hmod : n % 10 < 10 := Nat.mod_lt n (by decide)
      obtain ⟨hdigits, hvalue, hfirst⟩ := ih (n / 10) (by omega)
      obtain ⟨hdigit, hlast⟩ := isDigit_ofNat hmod
      rw [digitBytes_of_le (by omega)]
      refine ⟨?_, ?_, fun _ => ?_⟩
      · intro b hb
        rcases List.mem_append.mp hb with hb | hb
        · exact hdigits b hb
        · exact List.mem_singleton.mp hb ▸ hdigit
      · rw [digitsOn_append, hvalue, digitsOn_cons, hlast]
        exact Nat.div_add_mod' n 10
      · obtain ⟨b, rest, hdigits, hb⟩ := hfirst (by omega)
        exact ⟨b, rest ++ [UInt8.ofNat (48 + n % 10)], by rw [hdigits]; rfl, hb⟩

/-! ### Numbers -/

/-- Whether a number ends in front of a text. -/
def endsNumber : Bytes → Bool
  | [] => true
  | b :: _ => !isDigit b && b != 46 && !startsExponent b

theorem startsWithDigit_of_endsNumber {rest : Bytes} (h : endsNumber rest = true) :
    startsWithDigit rest = false := by
  cases rest with
  | nil => rfl
  | cons b rest =>
    simp only [endsNumber, Bool.and_eq_true, Bool.not_eq_true'] at h
    exact h.1.1

/-- The number that whole digits stand for, without point and exponent. -/
def wholeNumber (negative : Bool) (n : Nat) : Number :=
  if !negative then .integer n
  else if n = 0 ∨ Nat.pow 2 63 < n then
    .real { (Binary64.ofNat? n).getD (Binary64.zero false) with negative := true }
  else .integer (-n)

theorem afterInteger_of_endsNumber (negative : Bool) (n : Nat) {rest : Bytes}
    (h : endsNumber rest = true) :
    afterInteger negative n rest = .ok (wholeNumber negative n, rest) := by
  cases rest with
  | nil => rfl
  | cons b rest =>
    simp only [endsNumber, Bool.and_eq_true, Bool.not_eq_true', bne_iff_ne, ne_eq] at h
    obtain ⟨⟨-, hpoint⟩, hexponent⟩ := h
    simp [afterInteger, wholeNumber, hexponent]

/-- Digits of a number that fits are read as the number. -/
theorem number_digitBytes (negative : Bool) {n : Nat} (hn : n ≤ maxSignificand) {rest : Bytes}
    (hrest : endsNumber rest = true) :
    number negative (digitBytes n ++ rest) = .ok (wholeNumber negative n, rest) := by
  have hstart := startsWithDigit_of_endsNumber hrest
  by_cases hzero : n = 0
  · subst hzero
    rw [digitBytes_of_lt (by decide), List.singleton_append]
    cases rest with
    | nil => rfl
    | cons b rest =>
      have hb : isDigit b = false := hstart
      rw [← afterInteger_of_endsNumber negative 0 hrest]
      simp [number, hb]
  · obtain ⟨hdigits, hvalue, hfirst⟩ := digitBytes_spec n
    obtain ⟨b, digits, heq, hb⟩ := hfirst hzero
    rw [heq] at hdigits hvalue
    obtain ⟨hdigit, hdigits⟩ := List.forall_mem_cons.mp hdigits
    rw [digitsOn_cons, Nat.zero_mul, Nat.zero_add] at hvalue
    rw [heq, List.cons_append, number.eq_def]
    simp only [if_neg hb, if_pos hdigit]
    rw [readDigits_append hdigits hstart _ _ (hvalue ▸ hn), hvalue]
    simp only [hstart]
    exact afterInteger_of_endsNumber negative n hrest

/-- The integers that are kept as they are. -/
def Number.Fits : Number → Prop
  | .integer n => -(2 ^ 63) ≤ n ∧ n < 2 ^ 64
  | .real _ => True

/-- A number that its own text gives back for sure: an integer, or a zero with its sign. -/
def Number.Exact : Number → Prop
  | .integer _ => True
  | .real x => x = Binary64.zero x.negative

theorem encode_toString (n : Nat) : Utf8.encode (toString n).toList = digitBytes n := by
  change Utf8.encode (String.ofList (Nat.toDigits 10 n)).toList = _
  rw [String.toList_ofList, digitBytes]

theorem digitBytes_eq_cons (n : Nat) :
    ∃ b more, digitBytes n = b :: more ∧ isDigit b = true := by
  obtain ⟨hdigits, -, hfirst⟩ := digitBytes_spec n
  by_cases hzero : n = 0
  · exact ⟨48, [], by rw [hzero]; rfl, by decide⟩
  · obtain ⟨b, more, heq, -⟩ := hfirst hzero
    exact ⟨b, more, heq, hdigits b (heq ▸ List.mem_cons_self)⟩

/-- A zero with a point is read as the zero of its sign. -/
theorem number_zero (negative : Bool) {rest : Bytes} (hrest : endsNumber rest = true) :
    number negative (48 :: 46 :: 48 :: rest) = .ok (.real (Binary64.zero negative), rest) := by
  have hstart := startsWithDigit_of_endsNumber hrest
  have hread : readDigits maxSignificand 0 0 ([48] ++ rest) = (0, 1, rest) :=
    readDigits_append (List.forall_mem_singleton.mpr rfl) hstart 0 0 (by decide)
  have hscaled : (Binary64.ofNat? 0).bind (scaleReal ((-1 : Int).natAbs / 308 + 1) · (-1)) =
      some (Binary64.zero false) := by decide +kernel
  have hreal : realOf negative 0 (-1) rest = .ok (.real (Binary64.zero negative), rest) := by
    simp only [realOf, hscaled]
    rfl
  have hafter : afterDigits negative 0 (-1) rest = realOf negative 0 (-1) rest := by
    cases rest with
    | nil => rfl
    | cons b rest =>
      simp only [endsNumber, Bool.and_eq_true, Bool.not_eq_true'] at hrest
      simp [afterDigits, hrest.2]
  have hfraction : fractionPart negative 0 0 (48 :: rest) = afterDigits negative 0 (-1) rest := by
    rw [List.singleton_append] at hread
    simp [fractionPart, hread, hstart]
  rw [← hreal, ← hafter, ← hfraction]
  rfl

/-- The text of a number, in the two forms that a value of a number begins in. -/
theorem number_render {n : Number} (hfits : n.Fits) (hexact : n.Exact) :
    ∃ b more, Utf8.encode n.render = b :: more ∧
      (b = 45 ∧ (∀ rest, endsNumber rest = true → number true (more ++ rest) = .ok (n, rest)) ∨
        isDigit b = true ∧
          ∀ rest, endsNumber rest = true → number false (b :: more ++ rest) = .ok (n, rest)) := by
  match n, hfits, hexact with
  | .integer (.ofNat m), hfits, _ =>
    have hm : m ≤ maxSignificand := by
      have : (m : Int) < 2 ^ 64 := hfits.2
      simp only [maxSignificand, Nat.pow_eq]
      omega
    obtain ⟨b, more, heq, hb⟩ := digitBytes_eq_cons m
    refine ⟨b, more, (encode_toString m).trans heq, Or.inr ⟨hb, fun rest hrest => ?_⟩⟩
    rw [← heq, number_digitBytes false hm hrest]
    rfl
  | .integer (.negSucc m), hfits, _ =>
    have hm : m + 1 ≤ 2 ^ 63 := by
      have : -(2 ^ 63) ≤ Int.negSucc m := hfits.1
      omega
    have hlimit : m + 1 ≤ maxSignificand := by
      simp only [maxSignificand, Nat.pow_eq]
      omega
    refine ⟨45, digitBytes (m + 1), ?_, Or.inl ⟨rfl, fun rest hrest => ?_⟩⟩
    · have hrender :
          (Number.integer (Int.negSucc m)).render = '-' :: (toString (m + 1)).toList := by
        change (Int.repr (Int.negSucc m)).toList = _
        simp [Int.repr]
      rw [hrender, Utf8.encode_cons, encode_toString]
      rfl
    · rw [number_digitBytes true hlimit hrest]
      have hkept : ¬ (m + 1 = 0 ∨ Nat.pow 2 63 < m + 1) := by
        rw [Nat.pow_eq]
        omega
      rw [wholeNumber, if_neg (by decide), if_neg hkept]
      rfl
  | .real x, _, hexact =>
    obtain ⟨negative, rfl⟩ : ∃ negative, x = Binary64.zero negative := ⟨_, hexact⟩
    cases negative with
    | true =>
      exact ⟨45, [48, 46, 48], by decide +kernel, Or.inl ⟨rfl, fun _ => number_zero true⟩⟩
    | false =>
      exact ⟨48, [46, 48], by decide +kernel, Or.inr ⟨by decide, fun _ => number_zero false⟩⟩

/-! ### Strings -/

/-- A byte that stands for itself between quotes. -/
def isPlain (b : UInt8) : Bool :=
  b != 34 && b != 92 && !decide (b < 32)

section
variable {steps : Nat} {input more rest : Bytes}

theorem stringBytes_plain {b : UInt8} (hb : isPlain b = true)
    (h : stringBytes steps input = .ok (more, rest)) :
    stringBytes (steps + 1) (b :: input) = .ok (b :: more, rest) := by
  simp only [isPlain, Bool.and_eq_true, bne_iff_ne, ne_eq, Bool.not_eq_true',
    decide_eq_false_iff_not] at hb
  obtain ⟨⟨hquote, hbackslash⟩, hcontrol⟩ := hb
  rw [stringBytes, if_neg hquote, if_neg hbackslash, if_neg hcontrol, h]
  rfl

theorem stringBytes_plain_append {bytes : Bytes} (hbytes : ∀ b ∈ bytes, isPlain b = true)
    (h : stringBytes steps input = .ok (more, rest)) :
    stringBytes (steps + bytes.length) (bytes ++ input) = .ok (bytes ++ more, rest) := by
  induction bytes with
  | nil => exact h
  | cons b bytes ih =>
    obtain ⟨hb, hbytes⟩ := List.forall_mem_cons.mp hbytes
    exact stringBytes_plain hb (ih hbytes)

theorem stringBytes_escape {escaped unescaped : Bytes}
    (hescape : escape escaped = .ok (unescaped, input))
    (h : stringBytes steps input = .ok (more, rest)) :
    stringBytes (steps + 1) (92 :: escaped) = .ok (unescaped ++ more, rest) := by
  rw [stringBytes, if_neg (by decide), if_pos rfl, hescape]
  change (stringBytes steps input >>= _) = _
  rw [h]
  rfl

end

/-- The bytes of a character beyond ASCII are no ASCII characters. -/
theorem utf8_not_ascii {c : Char} (h : 128 ≤ c.toNat) :
    ∀ b ∈ Utf8.encode [c], 128 ≤ b.toNat := by
  have hv : ¬ c.val.toNat ≤ 127 := by
    have : c.toNat = c.val.toNat := rfl
    omega
  rw [Utf8.encode_cons, Utf8.encode_nil, List.append_nil]
  unfold String.utf8EncodeChar
  simp only [if_neg hv]
  generalize c.val.toNat = v
  split_ifs <;>
    · simp only [List.mem_cons, List.not_mem_nil, or_false, forall_eq_or_imp, forall_eq,
        UInt8.toNat_ofNat']
      omega

theorem isPlain_of_le {b : UInt8} (h : 128 ≤ b.toNat) : isPlain b = true := by
  have hne (n : UInt8) (hn : n.toNat < 128) : b ≠ n := fun heq => by
    rw [heq] at h
    omega
  have hcontrol : ¬ b < 32 := by
    rw [UInt8.lt_iff_toNat_lt]
    exact fun hlt => absurd (lt_trans hlt (by decide : (32 : UInt8).toNat < 128)) (by omega)
  simp [isPlain, hne 34 (by decide), hne 92 (by decide), hcontrol]

theorem isPlain_ofNat {c : Char} (hascii : c.toNat < 128) (hcontrol : ¬ c.toNat < 32)
    (hquote : c ≠ '"') (hbackslash : c ≠ '\\') : isPlain (UInt8.ofNat c.toNat) = true := by
  have hne (d : Char) (hd : d.toNat < 128) (h : c ≠ d) :
      UInt8.ofNat c.toNat ≠ UInt8.ofNat d.toNat := fun heq => by
    have := congrArg UInt8.toNat heq
    rw [Utf8.toNat_ofNat (by omega), Utf8.toNat_ofNat (by omega)] at this
    exact h (Char.ext (UInt32.toNat_inj.mp this))
  have hlt : ¬ UInt8.ofNat c.toNat < 32 := by
    rw [Utf8.ofNat_lt (by omega)]
    exact hcontrol
  have h34 : UInt8.ofNat c.toNat ≠ 34 := hne '"' (by decide) hquote
  have h92 : UInt8.ofNat c.toNat ≠ 92 := hne '\\' (by decide) hbackslash
  simp [isPlain, h34, h92, hlt]

/-- A digit and the byte that stands for it. -/
theorem hexDigit_spec {n : Nat} (h : n < 16) :
    Utf8.encode [hexDigit n] = [UInt8.ofNat (hexDigit n).toNat] ∧
    hexValue? (UInt8.ofNat (hexDigit n).toNat) = some n := by
  have all : ∀ n < 16, Utf8.encode [hexDigit n] = [UInt8.ofNat (hexDigit n).toNat] ∧
      hexValue? (UInt8.ofNat (hexDigit n).toNat) = some n := by decide
  exact all n h

/-- A control character in the form with four digits. -/
theorem escape_control {n : Nat} (h : n < 32) (input : Bytes) :
    escape (Utf8.encode ['u', '0', '0', hexDigit (n / 16), hexDigit n] ++ input) =
      .ok (Utf8.encode [Char.ofNat n], input) := by
  obtain ⟨hhigh, hhighValue⟩ := hexDigit_spec (n := n / 16) (by omega)
  obtain ⟨hlow, hlowValue⟩ := hexDigit_spec (n := n % 16) (by omega)
  have hmod : hexDigit (n % 16) = hexDigit n := by simp [hexDigit]
  rw [hmod] at hlow hlowValue
  have hunit : hexUnit (48 :: 48 :: UInt8.ofNat (hexDigit (n / 16)).toNat ::
      UInt8.ofNat (hexDigit n).toNat :: input) = .ok (n, input) := by
    have hzero : hexValue? 48 = some 0 := by decide
    simp only [hexUnit, hzero, hhighValue, hlowValue]
    congr 2
    omega
  have hbytes : Utf8.encode ['u', '0', '0', hexDigit (n / 16), hexDigit n] =
      117 :: 48 :: 48 :: UInt8.ofNat (hexDigit (n / 16)).toNat ::
        [UInt8.ofNat (hexDigit n).toNat] := by
    change Utf8.encode (['u', '0', '0'] ++ ([hexDigit (n / 16)] ++ [hexDigit n])) = _
    rw [Utf8.encode_append, Utf8.encode_append, hhigh, hlow]
    rfl
  rw [hbytes]
  simp only [List.cons_append, List.nil_append, escape]
  simp only [unicodeEscape, hunit, bind, Except.bind]
  have hlow : ¬ (0xDC00 ≤ n ∧ n ≤ 0xDFFF) := by omega
  have hhigh : ¬ (0xD800 ≤ n ∧ n ≤ 0xDBFF) := by omega
  rw [if_neg hlow, if_neg hhigh]
  rfl

/-- A character between quotes is one that stands for itself, or an escape that stands for it. -/
theorem escapeChar_spec (c : Char) :
    (Utf8.encode (escapeChar c) = Utf8.encode [c] ∧ ∀ b ∈ Utf8.encode [c], isPlain b = true) ∨
    ∃ escaped, Utf8.encode (escapeChar c) = 92 :: escaped ∧
      ∀ input, escape (escaped ++ input) = .ok (Utf8.encode [c], input) := by
  by_cases hquote : c = '"'
  · subst hquote
    exact Or.inr ⟨[34], by decide, fun input => rfl⟩
  by_cases hbackslash : c = '\\'
  · subst hbackslash
    exact Or.inr ⟨[92], by decide, fun input => rfl⟩
  by_cases hbackspace : c = '\x08'
  · subst hbackspace
    exact Or.inr ⟨[98], by decide, fun input => rfl⟩
  by_cases htab : c = '\t'
  · subst htab
    exact Or.inr ⟨[116], by decide, fun input => rfl⟩
  by_cases hline : c = '\n'
  · subst hline
    exact Or.inr ⟨[110], by decide, fun input => rfl⟩
  by_cases hpage : c = '\x0c'
  · subst hpage
    exact Or.inr ⟨[102], by decide, fun input => rfl⟩
  by_cases hreturn : c = '\r'
  · subst hreturn
    exact Or.inr ⟨[114], by decide, fun input => rfl⟩
  by_cases hcontrol : c.toNat < 32
  · refine Or.inr ⟨Utf8.encode ['u', '0', '0', hexDigit (c.toNat / 16), hexDigit c.toNat], ?_, ?_⟩
    · have hself : escapeChar c =
          '\\' :: ['u', '0', '0', hexDigit (c.toNat / 16), hexDigit c.toNat] := by
        simp only [escapeChar, *, if_true, if_false]
      rw [hself, Utf8.encode_cons]
      rfl
    · intro input
      rw [escape_control hcontrol, Char.ofNat_toNat]
  · have hself : escapeChar c = [c] := by simp [escapeChar, *]
    refine Or.inl ⟨by rw [hself], ?_⟩
    by_cases hascii : c.toNat < 128
    · rw [Percent.utf8_ascii hascii, List.forall_mem_singleton]
      exact isPlain_ofNat hascii hcontrol hquote hbackslash
    · exact fun b hb => isPlain_of_le (utf8_not_ascii (by omega) b hb)

/-- Quoted text is read back, whatever follows the closing quote. -/
theorem stringBytes_escaped (text : List Char) (rest : Bytes) :
    ∀ steps, (Utf8.encode (text.flatMap escapeChar)).length < steps →
      stringBytes steps (Utf8.encode (text.flatMap escapeChar) ++ 34 :: rest) =
        .ok (Utf8.encode text, rest) := by
  induction text with
  | nil =>
    intro steps hsteps
    obtain ⟨steps, rfl⟩ := Nat.exists_eq_succ_of_ne_zero (Nat.ne_zero_of_lt hsteps)
    rfl
  | cons c text ih =>
    intro steps hsteps
    rw [List.flatMap_cons, Utf8.encode_append, List.length_append] at hsteps
    rw [List.flatMap_cons, Utf8.encode_append, List.append_assoc,
      show Utf8.encode (c :: text) = Utf8.encode [c] ++ Utf8.encode text from
        Utf8.encode_append [c] text]
    rcases escapeChar_spec c with ⟨hself, hplain⟩ | ⟨escaped, hescaped, hescape⟩
    · rw [hself] at hsteps ⊢
      obtain ⟨left, rfl⟩ : ∃ left, steps = left + (Utf8.encode [c]).length :=
        ⟨steps - (Utf8.encode [c]).length, by omega⟩
      exact stringBytes_plain_append hplain (ih left (by omega))
    · rw [hescaped, List.length_cons] at hsteps
      obtain ⟨left, rfl⟩ : ∃ left, steps = left + 1 := ⟨steps - 1, by omega⟩
      rw [hescaped]
      exact stringBytes_escape (hescape _) (ih left (by omega))

/-- A string is read back from its quoted text. -/
theorem string_quote (s : String) :
    ∃ more, Utf8.encode (quote s) = 34 :: more ∧
      ∀ rest, string (more ++ rest) = .ok (s, rest) := by
  refine ⟨Utf8.encode (s.toList.flatMap escapeChar) ++ [34], ?_, ?_⟩
  · rw [quote, List.cons_append, Utf8.encode_cons, Utf8.encode_append]
    rfl
  · intro rest
    rw [List.append_assoc, string, List.singleton_append,
      stringBytes_escaped s.toList rest _ (by simp)]
    simp only [bind, Except.bind, Utf8.decode?_encode]
    exact congrArg (fun text => Except.ok (text, rest)) String.ofList_toList

end MeshProbe.Json
