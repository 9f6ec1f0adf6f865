import MeshProbe.Proofs.Text.Percent
import MeshProbe.Text.Search

/-!
Searching text that was read from any bytes. What stands for ill-formed bytes is no
ASCII character, and no ASCII byte is lost to a character begun before it, so ASCII
words are found in the text exactly where their bytes stand together.
-/

namespace MeshProbe.Utf8

/-! ### Bytes that are no ASCII characters -/

theorem toNat_char_ofNat {n : Nat} (h : n.isValidChar) : (Char.ofNat n).toNat = n := by
  rw [Char.ofNat, dif_pos h]
  rfl

theorem wide_of_isTail {b : UInt8} (h : isTail b = true) : ¬ b < 0x80 := by
  simp only [isTail, Bool.and_eq_true, decide_eq_true_eq] at h
  exact UInt8.not_lt.mpr h.1

theorem wide_of_leadsThree {a b : UInt8} (h : leadsThree a b = true) : ¬ b < 0x80 := by
  simp only [leadsThree, isTail, Bool.or_eq_true, Bool.and_eq_true, decide_eq_true_eq,
    UInt8.le_iff_toNat_le, UInt8.lt_iff_toNat_lt, UInt8.reduceToNat] at h ⊢
  omega

theorem wide_of_leadsFour {a b : UInt8} (h : leadsFour a b = true) : ¬ b < 0x80 := by
  simp only [leadsFour, isTail, Bool.or_eq_true, Bool.and_eq_true, decide_eq_true_eq,
    UInt8.le_iff_toNat_le, UInt8.lt_iff_toNat_lt, UInt8.reduceToNat] at h ⊢
  omega

theorem wide_charOfTwo {a b : UInt8} (h : leadsTwo a = true) :
    128 ≤ (charOfTwo a b).toNat := by
  simp only [leadsTwo, Bool.and_eq_true, decide_eq_true_eq, UInt8.le_iff_toNat_le,
    UInt8.reduceToNat] at h
  rw [charOfTwo, tailBits, toNat_char_ofNat (Or.inl (by omega))]
  omega

theorem wide_charOfThree {a b c : UInt8} (h : leadsThree a b = true) :
    128 ≤ (charOfThree a b c).toNat := by
  simp only [leadsThree, isTail, Bool.or_eq_true, Bool.and_eq_true, decide_eq_true_eq,
    beq_iff_eq, UInt8.le_iff_toNat_le, ← UInt8.toNat_inj, UInt8.reduceToNat] at h
  rw [charOfThree, tailBits, tailBits, toNat_char_ofNat]
  · omega
  · change _ < 0xD800 ∨ 0xDFFF < _ ∧ _ < 0x110000
    omega

theorem wide_charOfFour {a b c d : UInt8} (h : leadsFour a b = true) :
    128 ≤ (charOfFour a b c d).toNat := by
  simp only [leadsFour, isTail, Bool.or_eq_true, Bool.and_eq_true, decide_eq_true_eq,
    beq_iff_eq, UInt8.le_iff_toNat_le, ← UInt8.toNat_inj, UInt8.reduceToNat] at h
  rw [charOfFour, tailBits, tailBits, tailBits, toNat_char_ofNat]
  · omega
  · change _ < 0xD800 ∨ 0xDFFF < _ ∧ _ < 0x110000
    omega

/-- The rest of a step of reading that began with a byte beyond ASCII: only such bytes are taken,
for one character beyond ASCII or for none. -/
def WideStep (rest : Bytes) (read : List (Option Char)) : Prop :=
  ∃ x piece after, rest = piece ++ after ∧ (∀ b ∈ piece, ¬ b < 0x80) ∧
    (∀ c ∈ x, 128 ≤ c.toNat) ∧ read = x :: decode after

theorem wideStep_some {c : Char} (hc : 128 ≤ c.toNat) {piece : Bytes}
    (hpiece : ∀ b ∈ piece, ¬ b < 0x80) (after : Bytes) :
    WideStep (piece ++ after) (some c :: decode after) :=
  ⟨some c, piece, after, rfl, hpiece, fun _ h => Option.some_inj.mp h ▸ hc, rfl⟩

theorem wideStep_none {piece : Bytes} (hpiece : ∀ b ∈ piece, ¬ b < 0x80) (after : Bytes) :
    WideStep (piece ++ after) (none :: decode after) :=
  ⟨none, piece, after, rfl, hpiece, nofun, rfl⟩

theorem decode_nil : decode [] = [] := by simp [decode]

/-- A byte beyond ASCII begins such a step, whether or not what follows is well formed. -/
theorem decode_wide {a : UInt8} (ha : ¬ a < 0x80) (rest : Bytes) :
    WideStep rest (decode (a :: rest)) := by
  have hlead {b : UInt8} (h : (leadsThree a b || leadsFour a b) = true) : ¬ b < 0x80 :=
    (Bool.or_eq_true_iff.mp h).elim wide_of_leadsThree wide_of_leadsFour
  have hnone : ∀ b ∈ ([] : Bytes), ¬ b < 0x80 := List.forall_mem_nil _
  have hone {b : UInt8} (hb : ¬ b < 0x80) : ∀ x ∈ [b], ¬ x < 0x80 :=
    List.forall_mem_singleton.mpr hb
  have hpair {b c : UInt8} (hb : ¬ b < 0x80) (hc : isTail c = true) : ∀ x ∈ [b, c], ¬ x < 0x80 :=
    List.forall_mem_cons.mpr ⟨hb, hone (wide_of_isTail hc)⟩
  have htriple {b c d : UInt8} (hb : ¬ b < 0x80) (hc : isTail c = true) (hd : isTail d = true) :
      ∀ x ∈ [b, c, d], ¬ x < 0x80 :=
    List.forall_mem_cons.mpr ⟨hb, hpair (wide_of_isTail hc) hd⟩
  match rest with
  | [] =>
    rw [decode, if_neg ha, ← decode_nil]
    exact wideStep_none hnone []
  | [b] =>
    rw [decode, if_neg ha, ← decode_nil]
    split_ifs with htwo hcut
    · rw [Bool.and_eq_true] at htwo
      exact wideStep_some (wide_charOfTwo htwo.1) (hone (wide_of_isTail htwo.2)) []
    · exact wideStep_none (hone (hlead hcut)) []
    · exact wideStep_none hnone [b]
  | [b, c] =>
    rw [decode, if_neg ha, ← decode_nil]
    split_ifs with htwo hthree hfour hcut
    · rw [Bool.and_eq_true] at htwo
      exact wideStep_some (wide_charOfTwo htwo.1) (hone (wide_of_isTail htwo.2)) [c]
    · rw [Bool.and_eq_true] at hthree
      exact wideStep_some (wide_charOfThree hthree.1)
        (hpair (wide_of_leadsThree hthree.1) hthree.2) []
    · rw [Bool.and_eq_true] at hfour
      exact wideStep_none (hpair (wide_of_leadsFour hfour.1) hfour.2) []
    · exact wideStep_none (hone (hlead hcut)) [c]
    · exact wideStep_none hnone [b, c]
  | b :: c :: d :: rest =>
    rw [decode, if_neg ha]
    split_ifs with htwo hthree hwhole hfour hcut
    · rw [Bool.and_eq_true] at htwo
      exact wideStep_some (wide_charOfTwo htwo.1) (hone (wide_of_isTail htwo.2)) (c :: d :: rest)
    · rw [Bool.and_eq_true] at hthree
      exact wideStep_some (wide_charOfThree hthree.1)
        (hpair (wide_of_leadsThree hthree.1) hthree.2) (d :: rest)
    · simp only [Bool.and_eq_true] at hwhole
      exact wideStep_some (wide_charOfFour hwhole.1.1)
        (htriple (wide_of_leadsFour hwhole.1.1) hwhole.1.2 hwhole.2) rest
    · rw [Bool.and_eq_true] at hfour
      exact wideStep_none (hpair (wide_of_leadsFour hfour.1) hfour.2) (d :: rest)
    · exact wideStep_none (hone (hlead hcut)) (c :: d :: rest)
    · exact wideStep_none hnone (b :: c :: d :: rest)

/-! ### Lossy text -/

theorem decodeLossy_nil : decodeLossy [] = [] := by rw [decodeLossy, decode_nil]; rfl

theorem decodeLossy_ascii {a : UInt8} (ha : a < 0x80) (rest : Bytes) :
    decodeLossy (a :: rest) = Char.ofNat a.toNat :: decodeLossy rest := by
  rw [decodeLossy, decode_one rest ha]
  rfl

theorem decodeLossy_wide {a : UInt8} (ha : ¬ a < 0x80) (rest : Bytes) :
    ∃ c piece after, rest = piece ++ after ∧ (∀ b ∈ piece, ¬ b < 0x80) ∧ 128 ≤ c.toNat ∧
      decodeLossy (a :: rest) = c :: decodeLossy after := by
  obtain ⟨x, piece, after, hrest, hpiece, hx, hread⟩ := decode_wide ha rest
  refine ⟨x.getD replacement, piece, after, hrest, hpiece, ?_, ?_⟩
  · cases x with
    | none => decide
    | some c => exact hx c rfl
  · rw [decodeLossy, hread]
    rfl

/-! ### Searching -/

/-- Words of ASCII characters. -/
def Ascii (words : List Char) : Prop := ∀ c ∈ words, c.toNat < 128

instance (words : List Char) : Decidable (Ascii words) :=
  decidable_of_iff (words.all fun c => c.toNat < 128) (by simp [Ascii])

theorem encode_cons_ascii {c : Char} (hc : c.toNat < 128) (words : List Char) :
    encode (c :: words) = UInt8.ofNat c.toNat :: encode words := by
  rw [← List.singleton_append, encode_append, Percent.utf8_ascii hc]
  rfl

theorem ofNat_lt_of_ascii {c : Char} (hc : c.toNat < 128) : UInt8.ofNat c.toNat < 0x80 := by
  rw [UInt8.lt_iff_toNat_lt, toNat_ofNat (by omega)]
  exact hc

theorem ascii_eq_iff {c : Char} (hc : c.toNat < 128) (a : UInt8) :
    c = Char.ofNat a.toNat ↔ UInt8.ofNat c.toNat = a := by
  constructor
  · intro h
    rw [h, toNat_char_ofNat (Or.inl (by have := a.toNat_lt; omega)), UInt8.ofNat_toNat]
  · intro h
    rw [← h, toNat_ofNat (by omega), Char.ofNat_toNat]

theorem encode_ne_nil {text : List Char} (h : text ≠ []) : encode text ≠ [] := by
  obtain ⟨c, text, rfl⟩ := List.exists_cons_of_ne_nil h
  exact List.append_ne_nil_of_left_ne_nil String.utf8EncodeChar_ne_nil _

/-- Words stand at the start of the text exactly if their bytes do. -/
theorem prefix_decodeLossy_iff {words : List Char} (h : Ascii words) (bytes : Bytes) :
    words <+: decodeLossy bytes ↔ encode words <+: bytes := by
  induction words generalizing bytes with
  | nil => simp
  | cons c words ih =>
    obtain ⟨hc, hwords⟩ := List.forall_mem_cons.mp h
    rw [encode_cons_ascii hc]
    cases bytes with
    | nil => simp [decodeLossy_nil]
    | cons a rest =>
      by_cases ha : a < 0x80
      · rw [decodeLossy_ascii ha, List.cons_prefix_cons, List.cons_prefix_cons, ih hwords]
        rw [ascii_eq_iff hc]
      · obtain ⟨d, piece, after, -, -, hd, hread⟩ := decodeLossy_wide ha rest
        rw [hread, List.cons_prefix_cons, List.cons_prefix_cons]
        have hchar : c ≠ d := fun heq => by rw [heq] at hc; omega
        have hbyte : UInt8.ofNat c.toNat ≠ a := fun heq => ha (heq ▸ ofNat_lt_of_ascii hc)
        simp [hchar, hbyte]

/-- Words stand somewhere behind bytes beyond ASCII, and then not across them. -/
theorem infix_wide_append_iff {words : List Char} (h : Ascii words) (hne : words ≠ [])
    {piece : Bytes} (hpiece : ∀ b ∈ piece, ¬ b < 0x80) (after : Bytes) :
    encode words <:+: piece ++ after ↔ encode words <:+: after := by
  induction piece with
  | nil => rfl
  | cons b piece ih =>
    obtain ⟨hb, hpiece⟩ := List.forall_mem_cons.mp hpiece
    obtain ⟨c, words, rfl⟩ := List.exists_cons_of_ne_nil hne
    obtain ⟨hc, -⟩ := List.forall_mem_cons.mp h
    have hbyte : UInt8.ofNat c.toNat ≠ b := fun heq => hb (heq ▸ ofNat_lt_of_ascii hc)
    rw [List.cons_append, List.infix_cons_iff, ih hpiece, encode_cons_ascii hc,
      List.cons_prefix_cons]
    simp [hbyte]

end MeshProbe.Utf8

namespace MeshProbe.Text

theorem occurs_iff {needle text : List Char} : occurs needle text = true ↔ needle <:+: text := by
  induction text with
  | nil => simp [occurs]
  | cons c rest ih =>
    rw [occurs, Bool.or_eq_true, ih, List.isPrefixOf_iff_prefix, List.infix_cons_iff]

/-- ASCII words are found in text that was read from any bytes exactly where their bytes stand
together. -/
theorem occurs_decodeLossy_iff {words : List Char} (h : Utf8.Ascii words) (bytes : Bytes) :
    occurs words (Utf8.decodeLossy bytes) = true ↔ Utf8.encode words <:+: bytes := by
  rw [occurs_iff]
  by_cases hne : words = []
  · simp [hne]
  induction hlength : bytes.length using Nat.strong_induction_on generalizing bytes with
  | _ n ih =>
    cases bytes with
    | nil => simp [Utf8.decodeLossy_nil, Utf8.encode_ne_nil hne, hne]
    | cons a rest =>
      rw [List.infix_cons_iff, ← Utf8.prefix_decodeLossy_iff h]
      by_cases ha : a < 0x80
      · have hrest := ih rest.length (by rw [← hlength]; exact Nat.lt_succ_self _) rest rfl
        rw [Utf8.decodeLossy_ascii ha, List.infix_cons_iff, hrest]
      · obtain ⟨c, piece, after, rfl, hpiece, -, hread⟩ := Utf8.decodeLossy_wide ha rest
        have hafter := ih after.length
          (by rw [← hlength, List.length_cons, List.length_append]; omega) after rfl
        rw [hread, List.infix_cons_iff, hafter, Utf8.infix_wide_append_iff h hne hpiece]

end MeshProbe.Text
