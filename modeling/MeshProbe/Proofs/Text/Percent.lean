import MeshProbe.Text.Percent
import MeshProbe.Proofs.Text.Utf8

/-!
Undoing the percent-encoding. Text encoded by a set that leaves out the percent
sign decodes to its own bytes, so what was encoded can neither be mistaken for
something else nor get lost.
-/

namespace MeshProbe.Percent

open Utf8 (encode_nil encode_cons encode_append)

/-! ### One byte -/

/-- A digit is one byte, and the byte is read as the digit's value. -/
theorem hexDigit_spec {n : Nat} (h : n < 16) :
    Utf8.encode [hexDigit n] = [UInt8.ofNat (hexDigit n).toNat] ∧
    hexValue? (UInt8.ofNat (hexDigit n).toNat) = some n := by
  have all : ∀ n < 16, Utf8.encode [hexDigit n] = [UInt8.ofNat (hexDigit n).toNat] ∧
      hexValue? (UInt8.ofNat (hexDigit n).toNat) = some n := by decide
  exact all n h

theorem utf8_encodeByte (b : UInt8) :
    Utf8.encode (encodeByte b) = [37, UInt8.ofNat (hexDigit (b.toNat / 16)).toNat,
      UInt8.ofNat (hexDigit (b.toNat % 16)).toNat] := by
  have hb := b.toNat_lt
  have high := (hexDigit_spec (n := b.toNat / 16) (by omega)).1
  have low := (hexDigit_spec (n := b.toNat % 16) (by omega)).1
  change Utf8.encode (['%'] ++ ([hexDigit (b.toNat / 16)] ++ [hexDigit (b.toNat % 16)])) = _
  rw [encode_append, encode_append, high, low]
  rfl

theorem decode_encodeByte (b : UInt8) (rest : Bytes) :
    decode (Utf8.encode (encodeByte b) ++ rest) = b :: decode rest := by
  have hb := b.toNat_lt
  have high := (hexDigit_spec (n := b.toNat / 16) (by omega)).2
  have low := (hexDigit_spec (n := b.toNat % 16) (by omega)).2
  rw [utf8_encodeByte]
  simp only [List.cons_append, List.nil_append, decode, high, low]
  rw [Nat.div_add_mod', UInt8.ofNat_toNat]

theorem decode_encodeBytes (bytes rest : Bytes) :
    decode (Utf8.encode (bytes.flatMap encodeByte) ++ rest) = bytes ++ decode rest := by
  induction bytes with
  | nil => rfl
  | cons b bytes ih =>
    rw [List.flatMap_cons, encode_append, List.append_assoc, decode_encodeByte, ih]
    rfl

/-- Any byte but the percent sign stands for itself. -/
theorem decode_cons {b : UInt8} (h : b ≠ 37) (rest : Bytes) :
    decode (b :: rest) = b :: decode rest := by
  rcases rest with _ | ⟨a, _ | ⟨c, rest⟩⟩ <;> simp [decode, h]

/-! ### Text -/

/-- A set of characters to keep from which the encoded text can be told: ASCII without the
percent sign. -/
def Faithful (keep : Char → Bool) : Prop :=
  ∀ c, keep c = true → c.toNat < 128 ∧ c ≠ '%'

theorem utf8_ascii {c : Char} (h : c.toNat < 128) : Utf8.encode [c] = [UInt8.ofNat c.toNat] := by
  have hsmall : c.val.toNat ≤ 127 := Nat.le_of_lt_succ h
  rw [encode_cons, encode_nil, List.append_nil, String.utf8EncodeChar, if_pos hsmall]
  rfl

theorem decode_ascii {c : Char} (h : c.toNat < 128) (hpercent : c ≠ '%') (rest : Bytes) :
    decode (Utf8.encode [c] ++ rest) = Utf8.encode [c] ++ decode rest := by
  rw [utf8_ascii h, List.singleton_append, List.singleton_append, decode_cons]
  intro h37
  have hnat : c.toNat = 37 := by
    have := congrArg UInt8.toNat h37
    rwa [Utf8.toNat_ofNat (by omega)] at this
  exact hpercent (Char.ext (UInt32.toNat_inj.mp hnat))

variable {keep : Char → Bool}

theorem decode_encodeChar (hkeep : Faithful keep) (c : Char) (rest : Bytes) :
    decode (Utf8.encode (encodeChar keep c) ++ rest) = Utf8.encode [c] ++ decode rest := by
  unfold encodeChar
  split_ifs with hc
  · exact decode_ascii (hkeep c hc).1 (hkeep c hc).2 rest
  · exact decode_encodeBytes (Utf8.encode [c]) rest

theorem decode_encode_append (hkeep : Faithful keep) (text : List Char) (rest : Bytes) :
    decode (Utf8.encode (encode keep text) ++ rest) = Utf8.encode text ++ decode rest := by
  induction text with
  | nil => rfl
  | cons c text ih =>
    rw [encode, List.flatMap_cons, encode_append, List.append_assoc, decode_encodeChar hkeep,
      ← encode, ih, ← List.append_assoc, ← encode_append]
    rfl

/-- Encoded text decodes to the bytes of the text. -/
theorem decodeText_encode (hkeep : Faithful keep) (text : List Char) :
    decodeText (encode keep text) = Utf8.encode text := by
  have h := decode_encode_append hkeep text []
  rwa [List.append_nil, show decode [] = [] from by simp [decode], List.append_nil] at h

/-- Text that is kept whole is written as it is. -/
theorem encode_of_all {text : List Char} (h : ∀ c ∈ text, keep c = true) :
    encode keep text = text := by
  induction text with
  | nil => rfl
  | cons c text ih =>
    obtain ⟨hc, htext⟩ := List.forall_mem_cons.mp h
    rw [encode, List.flatMap_cons, ← encode, ih htext, encodeChar, if_pos hc]
    rfl

/-- A character that is not kept is written in three characters at least. -/
theorem length_encodeChar {c : Char} (h : keep c = false) :
    3 ≤ (encodeChar keep c).length := by
  have hbyte : ∀ b : UInt8, (encodeByte b).length = 3 := fun _ => rfl
  have hpos := c.utf8Size_pos
  rw [encodeChar, if_neg (by simp [h]), List.length_flatMap]
  simp only [hbyte, List.map_const', List.sum_replicate, encode_cons, encode_nil, List.append_nil,
    String.length_utf8EncodeChar, smul_eq_mul]
  omega

/-- Each character that is not kept makes encoded text longer than the text. -/
theorem length_le_encode (keep : Char → Bool) (text : List Char) :
    text.length + text.countP (!keep ·) ≤ (encode keep text).length := by
  induction text with
  | nil => exact le_rfl
  | cons c text ih =>
    rw [encode, List.flatMap_cons, ← encode, List.length_append, List.length_cons]
    cases hc : keep c with
    | true =>
      rw [List.countP_cons_of_neg (by simp [hc]), encodeChar, if_pos hc, List.length_singleton]
      omega
    | false =>
      have hlong := length_encodeChar hc
      rw [List.countP_cons_of_pos (by simp [hc])]
      omega

/-- Text is written as it is when all of it is kept, and only then. -/
theorem encode_eq_self_iff {text : List Char} :
    encode keep text = text ↔ ∀ c ∈ text, keep c = true := by
  constructor
  · intro h
    have hlength := length_le_encode keep text
    have hnone : text.countP (!keep ·) = 0 := by
      rw [h] at hlength
      omega
    simpa using List.countP_eq_zero.mp hnone
  · exact encode_of_all

/-! ### Which characters encoded text is made of -/

/-- A percent sign or a hexadecimal digit. -/
def isEscape (c : Char) : Bool :=
  c = '%' || (List.range 16).any (hexDigit · == c)

theorem isEscape_of_mem_encodeByte {b : UInt8} {c : Char} (h : c ∈ encodeByte b) :
    isEscape c = true := by
  have hb := b.toNat_lt
  simp only [encodeByte, List.mem_cons, List.not_mem_nil, or_false] at h
  simp only [isEscape, Bool.or_eq_true, decide_eq_true_eq, List.any_eq_true, List.mem_range,
    beq_iff_eq]
  rcases h with rfl | rfl | rfl
  · exact Or.inl rfl
  · exact Or.inr ⟨_, by omega, rfl⟩
  · exact Or.inr ⟨_, by omega, rfl⟩

/-- What holds of the sign and of the sixteen digits holds of all that escapes are made of. -/
theorem of_isEscape {P : Char → Prop} (hsign : P '%') (hdigits : ∀ n < 16, P (hexDigit n))
    {c : Char} (h : isEscape c = true) : P c := by
  simp only [isEscape, Bool.or_eq_true, decide_eq_true_eq, List.any_eq_true, List.mem_range,
    beq_iff_eq] at h
  rcases h with rfl | ⟨n, hn, rfl⟩
  · exact hsign
  · exact hdigits n hn

/-- Encoded text holds kept characters and escapes only. -/
theorem mem_encode {text : List Char} {c : Char} (h : c ∈ encode keep text) :
    keep c = true ∨ isEscape c = true := by
  obtain ⟨a, -, hc⟩ := List.mem_flatMap.mp h
  unfold encodeChar at hc
  split_ifs at hc with ha
  · rw [List.mem_singleton.mp hc]
    exact Or.inl ha
  · obtain ⟨b, -, hb⟩ := List.mem_flatMap.mp hc
    exact Or.inr (isEscape_of_mem_encodeByte hb)

/-- What holds of the escapes and of what is kept holds of all encoded text. -/
theorem forall_mem_encode {P : Char → Prop} (hkeep : ∀ c, keep c = true → P c)
    (hescape : ∀ c, isEscape c = true → P c) {text : List Char} :
    ∀ c ∈ encode keep text, P c :=
  fun c hc => (mem_encode hc).elim (hkeep c) (hescape c)

end MeshProbe.Percent
