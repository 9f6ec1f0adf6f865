import MeshProbe.Proofs.Text.Percent

/-!
Reading a query as a form does: pieces between ampersands, in each a name in front
of the first equals sign and a value behind it, both encoded. Pairs that were
written read back as they were, whatever text they hold, and behind any other query
they read as its pairs and then their own.
-/

namespace MeshProbe.Form

/-- Reads a name or a value: a plus sign stands for a blank, and escapes stand for bytes. -/
def decode (text : List Char) : List Char :=
  Utf8.decodeLossy (Percent.decodeText (text.map fun c => if c = '+' then ' ' else c))

/-- Reads one piece of a query. Without an equals sign it is a name with an empty value. -/
def decodePair (piece : List Char) : String × String :=
  (String.ofList (decode (piece.takeWhile (· ≠ '='))),
    String.ofList (decode ((piece.dropWhile (· ≠ '=')).drop 1)))

/-- The pairs of a query. An empty piece is none. -/
def decodePairs (query : List Char) : List (String × String) :=
  ((query.splitOn '&').filter (· ≠ [])).map decodePair

/-! ### One name or value -/

/-- No letter and no digit comes behind the last small letter. -/
theorem le_of_isAlphanum {c : Char} (h : c.isAlphanum = true) : c.val ≤ 'z'.val := by
  rcases Bool.or_eq_true_iff.mp h with hletter | hdigit
  · rcases Bool.or_eq_true_iff.mp hletter with hupper | hlower
    · exact UInt32.le_trans (of_decide_eq_true hupper).2 (by decide)
    · exact of_decide_eq_true (Bool.and_eq_true_iff.mp hlower).2
  · exact UInt32.le_trans (of_decide_eq_true (Bool.and_eq_true_iff.mp hdigit).2) (by decide)

theorem keeps_lt {c : Char} (h : keeps c = true) : c.toNat < 128 := by
  rcases Bool.or_eq_true_iff.mp h with h | h
  · exact Nat.lt_of_le_of_lt (UInt32.le_iff_toNat_le.mp (le_of_isAlphanum h)) (by decide)
  · simp only [List.contains_eq_mem, List.mem_cons, List.not_mem_nil, or_false,
      decide_eq_true_eq] at h
    rcases h with rfl | rfl | rfl | rfl <;> decide

/-- What is kept, and the blank, which comes to stand as a plus sign. -/
def keepsOrBlank (c : Char) : Bool :=
  keeps c || c = ' '

theorem faithful_keepsOrBlank : Percent.Faithful keepsOrBlank := by
  intro c hc
  rcases Bool.or_eq_true_iff.mp hc with h | h
  · refine ⟨keeps_lt h, ?_⟩
    rintro rfl
    exact absurd h (by decide)
  · obtain rfl : c = ' ' := of_decide_eq_true h
    exact ⟨by decide, by decide⟩

/-- What an encoded name or value is made of. -/
theorem mem_encode {text : List Char} {c : Char} (h : c ∈ encode text) :
    c = '+' ∨ keeps c = true ∨ Percent.isEscape c = true := by
  obtain ⟨a, -, hc⟩ := List.mem_flatMap.mp h
  split_ifs at hc with hblank
  · exact Or.inl (List.mem_singleton.mp hc)
  · have hencoded : c ∈ Percent.encode keeps [a] := by
      simpa [Percent.encode] using hc
    exact Or.inr (Percent.mem_encode hencoded)

/-- The marks that stand between names, values and pairs are not among it. -/
theorem not_mem_encode {mark : Char} (hmark : mark = '&' ∨ mark = '=') (text : List Char) :
    mark ∉ encode text := by
  intro hmem
  rcases mem_encode hmem with h | h | h
  · rcases hmark with rfl | rfl <;> exact absurd h (by decide)
  · rcases hmark with rfl | rfl <;> exact absurd h (by decide)
  · rcases hmark with rfl | rfl <;> exact absurd h (by decide)

/-- With blanks in place of its plus signs the text is percent-encoded, the blanks kept. -/
theorem encode_blanks (text : List Char) :
    (encode text).map (fun c => if c = '+' then ' ' else c) = Percent.encode keepsOrBlank text := by
  rw [encode, List.map_flatMap]
  refine List.flatMap_congr fun c _ => ?_
  by_cases hblank : c = ' '
  · rw [hblank]
    rfl
  · have hkeep : keepsOrBlank c = keeps c := by simp [keepsOrBlank, hblank]
    have hplus : ∀ a ∈ Percent.encodeChar keeps c, (if a = '+' then ' ' else a) = a := by
      intro a ha
      refine if_neg ?_
      rintro rfl
      have hencoded : '+' ∈ Percent.encode keeps [c] := by simpa [Percent.encode] using ha
      rcases Percent.mem_encode hencoded with h | h <;> exact absurd h (by decide)
    rw [if_neg hblank, List.map_congr_left hplus, List.map_id', Percent.encodeChar,
      Percent.encodeChar, hkeep]

/-- A name or a value is read back. -/
theorem decode_encode (text : List Char) : decode (encode text) = text := by
  rw [decode, encode_blanks, Percent.decodeText_encode faithful_keepsOrBlank,
    Utf8.decodeLossy_encode]

/-! ### Pairs -/

/-- How one pair is written. -/
def pairText (pair : String × String) : List Char :=
  encode pair.1.toList ++ '=' :: encode pair.2.toList

theorem decodePair_pairText (pair : String × String) : decodePair (pairText pair) = pair := by
  have hname : ∀ c ∈ encode pair.1.toList, decide (c ≠ '=') = true := by
    intro c hc
    refine decide_eq_true ?_
    rintro rfl
    exact not_mem_encode (Or.inr rfl) _ hc
  unfold decodePair pairText
  rw [List.takeWhile_append_of_pos hname, List.dropWhile_append_of_pos hname,
    List.takeWhile_cons_of_neg (by decide), List.dropWhile_cons_of_neg (by decide),
    List.append_nil, List.drop_one, List.tail_cons, decode_encode, decode_encode,
    String.ofList_toList, String.ofList_toList]

theorem pairText_spec (pair : String × String) : pairText pair ≠ [] ∧ '&' ∉ pairText pair := by
  refine ⟨by simp [pairText], ?_⟩
  intro hmem
  rcases List.mem_append.mp hmem with h | h
  · exact not_mem_encode (Or.inl rfl) _ h
  · rcases List.mem_cons.mp h with h | h
    · exact absurd h (by decide)
    · exact not_mem_encode (Or.inl rfl) _ h

theorem encodePairs_eq (pairs : List (String × String)) :
    encodePairs pairs = ['&'].intercalate (pairs.map pairText) := by
  induction pairs with
  | nil => rfl
  | cons pair rest ih =>
    cases rest with
    | nil => simp [encodePairs, pairText]
    | cons next rest =>
      rw [List.map_cons, List.map_cons, List.intercalate_cons_cons, ← List.map_cons, ← ih]
      simp [encodePairs, pairText]

/-- Written pairs are read back in their order, empty and repeated names included. -/
theorem decodePairs_encodePairs (pairs : List (String × String)) :
    decodePairs (encodePairs pairs) = pairs := by
  cases pairs with
  | nil => rfl
  | cons pair rest =>
    have hmark : ∀ piece ∈ (pair :: rest).map pairText, '&' ∉ piece := by
      rw [List.forall_mem_map]
      exact fun pair _ => (pairText_spec pair).2
    have hfull : ∀ piece ∈ (pair :: rest).map pairText, decide (piece ≠ []) = true := by
      rw [List.forall_mem_map]
      exact fun pair _ => decide_eq_true (pairText_spec pair).1
    rw [decodePairs, encodePairs_eq, List.splitOn_intercalate '&' hmark (List.cons_ne_nil _ _),
      List.filter_eq_self.mpr hfull, List.map_map]
    exact List.map_id'' decodePair_pairText _

/-- Two queries with an ampersand between them read as the pairs of the one and of the other. -/
theorem decodePairs_append (query other : List Char) :
    decodePairs (query ++ '&' :: other) = decodePairs query ++ decodePairs other := by
  unfold decodePairs
  rw [List.splitOn_eq_splitOnP, List.splitOnP_append_cons _ _ (by decide),
    ← List.splitOn_eq_splitOnP, ← List.splitOn_eq_splitOnP, List.filter_append, List.map_append]

end MeshProbe.Form
