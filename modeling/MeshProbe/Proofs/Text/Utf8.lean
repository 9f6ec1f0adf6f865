import MeshProbe.Text.Utf8
import Mathlib.Tactic

/-!
Reading what was written in UTF-8. Each character is read back from its bytes,
whatever follows them, so text is read back whole and is well formed.
-/

namespace MeshProbe.Utf8

@[simp] theorem encode_nil : encode [] = [] := rfl

@[simp] theorem encode_cons (c : Char) (text : List Char) :
    encode (c :: text) = String.utf8EncodeChar c ++ encode text := rfl

@[simp] theorem encode_append (a b : List Char) : encode (a ++ b) = encode a ++ encode b :=
  List.flatMap_append

/-! ### One character, by the number of its bytes -/

theorem decode_one {a : UInt8} (rest : Bytes) (ha : a < 0x80) :
    decode (a :: rest) = some (Char.ofNat a.toNat) :: decode rest := by
  rcases rest with _ | ⟨b, _ | ⟨c, _ | ⟨d, rest⟩⟩⟩ <;> simp [decode, ha]

theorem decode_two {a b : UInt8} (rest : Bytes) (ha : ¬ a < 0x80) (hlead : leadsTwo a = true)
    (hb : isTail b = true) :
    decode (a :: b :: rest) = some (charOfTwo a b) :: decode rest := by
  rcases rest with _ | ⟨c, _ | ⟨d, rest⟩⟩ <;> simp [decode, ha, hlead, hb]

theorem decode_three {a b c : UInt8} (rest : Bytes) (ha : ¬ a < 0x80)
    (hshort : leadsTwo a = false) (hlead : leadsThree a b = true) (hc : isTail c = true) :
    decode (a :: b :: c :: rest) = some (charOfThree a b c) :: decode rest := by
  rcases rest with _ | ⟨d, rest⟩ <;> simp [decode, ha, hshort, hlead, hc]

theorem decode_four {a b c d : UInt8} (rest : Bytes) (ha : ¬ a < 0x80)
    (hshort : leadsTwo a = false) (hthree : leadsThree a b = false)
    (hlead : leadsFour a b = true) (hc : isTail c = true) (hd : isTail d = true) :
    decode (a :: b :: c :: d :: rest) = some (charOfFour a b c d) :: decode rest := by
  simp [decode, ha, hshort, hthree, hlead, hc, hd]

/-! ### The bytes of a character by its code point -/

theorem toNat_ofNat {n : Nat} (h : n < 256) : (UInt8.ofNat n).toNat = n :=
  UInt8.toNat_ofNat_of_lt h

/-- A byte as a number: comparisons with literals become comparisons of numbers. -/
theorem ofNat_le {n : Nat} (h : n < 256) {b : UInt8} : UInt8.ofNat n ≤ b ↔ n ≤ b.toNat := by
  rw [UInt8.le_iff_toNat_le, toNat_ofNat h]

theorem le_ofNat {n : Nat} (h : n < 256) {b : UInt8} : b ≤ UInt8.ofNat n ↔ b.toNat ≤ n := by
  rw [UInt8.le_iff_toNat_le, toNat_ofNat h]

theorem ofNat_lt {n : Nat} (h : n < 256) {b : UInt8} : UInt8.ofNat n < b ↔ n < b.toNat := by
  rw [UInt8.lt_iff_toNat_lt, toNat_ofNat h]

theorem ofNat_beq {n : Nat} (h : n < 256) {b : UInt8} :
    (UInt8.ofNat n == b) = decide (n = b.toNat) := by
  rw [Bool.eq_iff_iff, beq_iff_eq, decide_eq_true_iff, ← UInt8.toNat_inj,
    toNat_ofNat h]

theorem isTail_ofNat {n : Nat} (h : n < 64) : isTail (UInt8.ofNat (n + 128)) = true := by
  have h256 : n + 128 < 256 := by omega
  simp only [isTail, le_ofNat h256, ofNat_le h256, UInt8.reduceToNat, Bool.and_eq_true,
    decide_eq_true_eq]
  omega

theorem tailBits_ofNat {n : Nat} (h : n < 64) : tailBits (UInt8.ofNat (n + 128)) = n := by
  rw [tailBits, toNat_ofNat (by omega)]
  omega

/-- A character is read back from its bytes, whatever follows. -/
theorem decode_encodeChar (c : Char) (rest : Bytes) :
    decode (String.utf8EncodeChar c ++ rest) = some c :: decode rest := by
  have hvalid : c.val.toNat < 0xD800 ∨ 0xDFFF < c.val.toNat ∧ c.val.toNat < 0x110000 := c.valid
  have hc : Char.ofNat c.val.toNat = c := Char.ofNat_toNat c
  unfold String.utf8EncodeChar
  generalize c.val.toNat = v at hvalid hc
  simp only
  split_ifs with hone htwo hthree
  · have h256 : v < 256 := by omega
    rw [List.singleton_append, decode_one, toNat_ofNat h256, hc]
    exact (ofNat_lt h256).2 (by simpa using by omega)
  · have h256 : v / 64 % 32 + 192 < 256 := by omega
    simp only [List.cons_append, List.nil_append]
    rw [decode_two]
    · rw [charOfTwo, toNat_ofNat h256, tailBits_ofNat (by omega)]
      rw [show (v / 64 % 32 + 192) % 32 * 64 + v % 64 = v by omega, hc]
    · simp only [ofNat_lt h256, UInt8.reduceToNat]
      omega
    · simp only [leadsTwo, ofNat_le h256, le_ofNat h256, UInt8.reduceToNat, Bool.and_eq_true,
        decide_eq_true_eq]
      omega
    · exact isTail_ofNat (by omega)
  · have h256 : v / 4096 % 16 + 224 < 256 := by omega
    have h256' : v / 64 % 64 + 128 < 256 := by omega
    simp only [List.cons_append, List.nil_append]
    rw [decode_three]
    · rw [charOfThree, toNat_ofNat h256, tailBits_ofNat (by omega),
        tailBits_ofNat (by omega)]
      rw [show ((v / 4096 % 16 + 224) % 16 * 64 + v / 64 % 64) * 64 + v % 64 = v by omega, hc]
    · simp only [ofNat_lt h256, UInt8.reduceToNat]
      omega
    · simp only [leadsTwo, ofNat_le h256, le_ofNat h256, UInt8.reduceToNat, Bool.and_eq_false_iff,
        decide_eq_false_iff_not]
      omega
    · simp only [leadsThree, ofNat_le h256, le_ofNat h256, ofNat_beq h256, ofNat_le h256',
        le_ofNat h256', isTail_ofNat (Nat.mod_lt (v / 64) (by decide : 0 < 64)),
        UInt8.reduceToNat, Bool.or_eq_true, Bool.and_eq_true, decide_eq_true_eq, and_true]
      omega
    · exact isTail_ofNat (by omega)
  · have h256 : v / 262144 % 8 + 240 < 256 := by omega
    have h256' : v / 4096 % 64 + 128 < 256 := by omega
    simp only [List.cons_append, List.nil_append]
    rw [decode_four]
    · rw [charOfFour, toNat_ofNat h256, tailBits_ofNat (by omega),
        tailBits_ofNat (by omega), tailBits_ofNat (by omega)]
      rw [show (((v / 262144 % 8 + 240) % 8 * 64 + v / 4096 % 64) * 64 + v / 64 % 64) * 64 + v % 64
        = v by omega, hc]
    · simp only [ofNat_lt h256, UInt8.reduceToNat]
      omega
    · simp only [leadsTwo, ofNat_le h256, le_ofNat h256, UInt8.reduceToNat, Bool.and_eq_false_iff,
        decide_eq_false_iff_not]
      omega
    · simp only [leadsThree, ofNat_le h256, le_ofNat h256, ofNat_beq h256, ofNat_le h256',
        le_ofNat h256', isTail_ofNat (Nat.mod_lt (v / 4096) (by decide : 0 < 64)),
        UInt8.reduceToNat, Bool.or_eq_false_iff, Bool.and_eq_false_iff, decide_eq_false_iff_not]
      omega
    · simp only [leadsFour, ofNat_le h256, le_ofNat h256, ofNat_beq h256, ofNat_le h256',
        le_ofNat h256', isTail_ofNat (Nat.mod_lt (v / 4096) (by decide : 0 < 64)),
        UInt8.reduceToNat, Bool.or_eq_true, Bool.and_eq_true, decide_eq_true_eq, and_true]
      omega
    · exact isTail_ofNat (by omega)
    · exact isTail_ofNat (by omega)

/-! ### Text -/

theorem decode_encode_append (text : List Char) (rest : Bytes) :
    decode (encode text ++ rest) = text.map some ++ decode rest := by
  induction text with
  | nil => rfl
  | cons c text ih =>
    rw [encode_cons, List.append_assoc, decode_encodeChar, ih]
    rfl

theorem decode_encode (text : List Char) : decode (encode text) = text.map some := by
  have h := decode_encode_append text []
  rwa [List.append_nil, show decode [] = [] from by simp [decode], List.append_nil] at h

/-- Written text reads back as itself. -/
@[simp] theorem decode?_encode (text : List Char) : decode? (encode text) = some text := by
  rw [decode?, decode_encode]
  induction text with
  | nil => rfl
  | cons c text ih => simp [ih]

@[simp] theorem decodeLossy_encode (text : List Char) : decodeLossy (encode text) = text := by
  rw [decodeLossy, decode_encode]
  simp

/-- Different texts have different bytes. -/
theorem encode_injective : Function.Injective encode :=
  fun a b h => by
    have h' := congrArg decode? h
    rwa [decode?_encode, decode?_encode, Option.some_inj] at h'

end MeshProbe.Utf8
