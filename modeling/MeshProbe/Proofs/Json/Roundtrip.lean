import MeshProbe.Proofs.Json.Reading

/-!
Writing JSON and reading it again. Both forms of the text, the compact and the
indented one, put blanks at most between tokens, so a value whose numbers are
integers is read back from either as it was.
-/

namespace MeshProbe.Json

/-- A value whose numbers are all given back by their own text. -/
inductive Exact : Value → Prop
  | null : Exact .null
  | bool (b : Bool) : Exact (.bool b)
  | number {n : Number} (h : n.Exact) : Exact (.number n)
  | string (s : String) : Exact (.string s)
  | array {xs : List Value} (h : ∀ x ∈ xs, Exact x) : Exact (.array xs)
  | object {fields : List (String × Value)} (h : ∀ f ∈ fields, Exact f.2) :
    Exact (.object fields)

/-! ### Blanks and beginnings -/

/-- Text of nothing but blanks. -/
def Blank (text : List Char) : Prop :=
  ∀ b ∈ Utf8.encode text, isBlank b = true

theorem skipBlanks_append {text : List Char} (h : Blank text) (input : Bytes) :
    skipBlanks (Utf8.encode text ++ input) = skipBlanks input :=
  List.dropWhile_append_of_pos h

theorem skipBlanks_cons {b : UInt8} (h : isBlank b = false) (rest : Bytes) :
    skipBlanks (b :: rest) = b :: rest := by
  rw [skipBlanks, List.dropWhile_cons_of_neg (by simp [h])]

/-- How the text of a value begins: neither with a blank nor with a closing bracket. -/
def Opens (text : Bytes) : Prop :=
  ∃ b rest, text = b :: rest ∧ isBlank b = false ∧ b ≠ 93

theorem skipBlanks_piece {gap piece : List Char} (hgap : Blank gap) {b : UInt8} {more : Bytes}
    (hpiece : Utf8.encode piece = b :: more) (hb : isBlank b = false) (after : Bytes) :
    skipBlanks (Utf8.encode gap ++ (Utf8.encode piece ++ after)) = b :: (more ++ after) := by
  rw [skipBlanks_append hgap, hpiece]
  exact skipBlanks_cons hb _

/-- What stands behind the first piece of a container: the other pieces, each behind a comma, and
the closing mark. -/
def tailText (gap close : List Char) (mark : Char) (pieces : List (List Char)) : List Char :=
  pieces.flatMap (fun piece => ',' :: gap ++ piece) ++ close ++ [mark]

theorem tailText_nil (gap close : List Char) (mark : Char) :
    tailText gap close mark [] = close ++ [mark] := rfl

theorem tailText_cons (gap close : List Char) (mark : Char) (piece : List Char)
    (pieces : List (List Char)) :
    tailText gap close mark (piece :: pieces) =
      ',' :: gap ++ piece ++ tailText gap close mark pieces := by
  simp [tailText]

theorem encode_tailText_cons (gap close : List Char) (mark : Char) (piece : List Char)
    (pieces : List (List Char)) (rest : Bytes) :
    Utf8.encode (tailText gap close mark (piece :: pieces)) ++ rest =
      44 :: (Utf8.encode gap ++ (Utf8.encode piece ++
        (Utf8.encode (tailText gap close mark pieces) ++ rest))) := by
  simp [tailText_cons, List.append_assoc]
  rfl

theorem encode_pieces (gap close : List Char) (mark : Char) (piece : List Char)
    (pieces : List (List Char)) (rest : Bytes) :
    Utf8.encode (gap ++ piece ++ tailText gap close mark pieces) ++ rest =
      Utf8.encode gap ++ (Utf8.encode piece ++
        (Utf8.encode (tailText gap close mark pieces) ++ rest)) := by
  simp [List.append_assoc]

theorem length_le_tailText (gap close : List Char) (mark : Char) (pieces : List (List Char))
    (rest : Bytes) :
    pieces.length ≤ (Utf8.encode (tailText gap close mark pieces) ++ rest).length := by
  induction pieces with
  | nil => exact Nat.zero_le _
  | cons piece pieces ih =>
    rw [tailText_cons, List.cons_append, List.cons_append, Utf8.encode_cons, Utf8.encode_append]
    simp only [List.length_append, List.length_cons] at ih ⊢
    have hcomma : (String.utf8EncodeChar ',').length = 1 := rfl
    omega

/-- There are no more pieces behind the first one than bytes in the text. -/
theorem length_le_pieces (gap close : List Char) (mark : Char) (piece : List Char)
    (pieces : List (List Char)) (rest : Bytes) :
    pieces.length ≤ (Utf8.encode gap ++ (Utf8.encode piece ++
      (Utf8.encode (tailText gap close mark pieces) ++ rest))).length := by
  have := length_le_tailText gap close mark pieces rest
  rw [List.length_append, List.length_append]
  omega

/-- No number goes on where a blank, a comma or a closing mark stands. -/
theorem endsNumber_tailText (gap : List Char) {close : List Char} (hclose : Blank close)
    {mark : Char} (hmark : mark = ']' ∨ mark = '\x7d') (pieces : List (List Char))
    (rest : Bytes) : endsNumber (Utf8.encode (tailText gap close mark pieces) ++ rest) = true := by
  have hblank : ∀ b, isBlank b = true → (!isDigit b && b != 46 && !startsExponent b) = true := by
    intro b hb
    simp only [isBlank, Bool.or_eq_true, beq_iff_eq] at hb
    rcases hb with ((rfl | rfl) | rfl) | rfl <;> decide
  cases pieces with
  | cons piece pieces => rw [tailText_cons]; rfl
  | nil =>
    rw [tailText_nil, Utf8.encode_append]
    cases hbytes : Utf8.encode close with
    | nil => rcases hmark with rfl | rfl <;> rfl
    | cons b more => exact hblank b (hclose b (hbytes ▸ List.mem_cons_self))

section
variable {item : Reader Value} {gap close : List Char}

/-- A piece of a container stands for an item. -/
def Stands (item : Reader Value) (piece : List Char) (x : Value) : Prop :=
  ∀ rest, endsNumber rest = true → item (Utf8.encode piece ++ rest) = .ok (x, rest)

variable (hgap : Blank gap) (hclose : Blank close)
include hgap hclose

theorem moreItems_written {piece : Value → List Char} {xs : List Value}
    (hpieces : ∀ x ∈ xs, Opens (Utf8.encode (piece x)) ∧ Stands item (piece x) x)
    (rest : Bytes) : ∀ steps, xs.length ≤ steps →
      moreItems item steps (Utf8.encode (tailText gap close ']' (xs.map piece)) ++ rest) =
        .ok (xs, rest) := by
  induction xs with
  | nil =>
    intro steps _
    have hskip : skipBlanks (Utf8.encode (close ++ [']']) ++ rest) = 93 :: rest := by
      rw [Utf8.encode_append, List.append_assoc, skipBlanks_append hclose]
      exact skipBlanks_cons (by decide) rest
    rw [List.map_nil, tailText_nil, moreItems.eq_def]
    simp only [hskip]
    rfl
  | cons x xs ih =>
    intro steps hsteps
    obtain ⟨steps, rfl⟩ : ∃ left, steps = left + 1 :=
      ⟨steps - 1, by rw [List.length_cons] at hsteps; omega⟩
    obtain ⟨⟨hopens, hstands⟩, hrest⟩ := List.forall_mem_cons.mp hpieces
    have hnext := hstands _ (endsNumber_tailText gap hclose (Or.inl rfl) (xs.map piece) rest)
    have hmore := ih hrest steps (Nat.le_of_succ_le_succ hsteps)
    rw [List.map_cons, encode_tailText_cons]
    generalize Utf8.encode (tailText gap close ']' (xs.map piece)) ++ rest = after at hnext hmore
    obtain ⟨b, more, hpiece, hblank, hbracket⟩ := hopens
    rw [hpiece, List.cons_append] at hnext
    have hskip := skipBlanks_piece hgap hpiece hblank after
    have hcomma := skipBlanks_cons (b := 44) (by decide)
      (Utf8.encode gap ++ (Utf8.encode (piece x) ++ after))
    rw [moreItems.eq_def]
    simp only [hcomma, hskip, hbracket, hnext, bind, Except.bind, hmore, if_false, if_true,
      show ¬ (44 : UInt8) = 93 from by decide]

theorem items_written {piece : Value → List Char} {x : Value} {xs : List Value}
    (hpieces : ∀ y ∈ x :: xs, Opens (Utf8.encode (piece y)) ∧ Stands item (piece y) y)
    (rest : Bytes) :
    items item (Utf8.encode (gap ++ piece x ++ tailText gap close ']' (xs.map piece)) ++ rest) =
      .ok (x :: xs, rest) := by
  obtain ⟨⟨hopens, hstands⟩, hrest⟩ := List.forall_mem_cons.mp hpieces
  have hnext := hstands _ (endsNumber_tailText gap hclose (Or.inl rfl) (xs.map piece) rest)
  obtain ⟨b, more, hpiece, hblank, hbracket⟩ := hopens
  have hlength := length_le_pieces gap close ']' (piece x) (xs.map piece) rest
  rw [List.length_map] at hlength
  have hmore := moreItems_written hgap hclose hrest rest _ hlength
  rw [encode_pieces]
  generalize Utf8.encode (tailText gap close ']' (xs.map piece)) ++ rest = after at hnext hmore ⊢
  rw [hpiece, List.cons_append] at hnext
  have hskip := skipBlanks_piece hgap hpiece hblank after
  rw [items]
  simp only [hskip, hbracket, hnext, bind, Except.bind, hmore, if_false]

/-- A piece of an object stands for a field. -/
def StandsField (item : Reader Value) (piece : List Char) (f : String × Value) : Prop :=
  ∃ more, Utf8.encode piece = 34 :: more ∧
    ∀ rest, endsNumber rest = true → field item (more ++ rest) = .ok (f, rest)

theorem moreFields_written {piece : String × Value → List Char} {fs : List (String × Value)}
    (hpieces : ∀ f ∈ fs, StandsField item (piece f) f) (rest : Bytes) :
    ∀ steps, fs.length ≤ steps →
      moreFields item steps (Utf8.encode (tailText gap close '\x7d' (fs.map piece)) ++ rest) =
        .ok (fs, rest) := by
  induction fs with
  | nil =>
    intro steps _
    have hskip : skipBlanks (Utf8.encode (close ++ ['\x7d']) ++ rest) = 125 :: rest := by
      rw [Utf8.encode_append, List.append_assoc, skipBlanks_append hclose]
      exact skipBlanks_cons (by decide) rest
    rw [List.map_nil, tailText_nil, moreFields.eq_def]
    simp only [hskip]
    rfl
  | cons f fs ih =>
    intro steps hsteps
    obtain ⟨steps, rfl⟩ : ∃ left, steps = left + 1 :=
      ⟨steps - 1, by rw [List.length_cons] at hsteps; omega⟩
    obtain ⟨⟨more, hpiece, hstands⟩, hrest⟩ := List.forall_mem_cons.mp hpieces
    have hnext := hstands _ (endsNumber_tailText gap hclose (Or.inr rfl) (fs.map piece) rest)
    have hmore := ih hrest steps (Nat.le_of_succ_le_succ hsteps)
    rw [List.map_cons, encode_tailText_cons]
    generalize Utf8.encode (tailText gap close '\x7d' (fs.map piece)) ++ rest = after
      at hnext hmore
    have hskip := skipBlanks_piece hgap hpiece (by decide) after
    have hcomma := skipBlanks_cons (b := 44) (by decide)
      (Utf8.encode gap ++ (Utf8.encode (piece f) ++ after))
    rw [moreFields.eq_def]
    simp only [hcomma, hskip, hnext, bind, Except.bind, hmore, if_false, if_true,
      show ¬ (44 : UInt8) = 125 from by decide, show ¬ (34 : UInt8) = 125 from by decide]

theorem fields_written {piece : String × Value → List Char} {f : String × Value}
    {fs : List (String × Value)} (hpieces : ∀ g ∈ f :: fs, StandsField item (piece g) g)
    (rest : Bytes) :
    fields item
        (Utf8.encode (gap ++ piece f ++ tailText gap close '\x7d' (fs.map piece)) ++ rest) =
      .ok (f :: fs, rest) := by
  obtain ⟨⟨more, hpiece, hstands⟩, hrest⟩ := List.forall_mem_cons.mp hpieces
  have hnext := hstands _ (endsNumber_tailText gap hclose (Or.inr rfl) (fs.map piece) rest)
  have hlength := length_le_pieces gap close '\x7d' (piece f) (fs.map piece) rest
  rw [List.length_map] at hlength
  have hmore := moreFields_written hgap hclose hrest rest _ hlength
  rw [encode_pieces]
  generalize Utf8.encode (tailText gap close '\x7d' (fs.map piece)) ++ rest = after
    at hnext hmore ⊢
  have hskip := skipBlanks_piece hgap hpiece (by decide) after
  rw [fields]
  simp only [hskip, hnext, bind, Except.bind, hmore, if_false, if_true,
    show ¬ (34 : UInt8) = 125 from by decide]

end

/-! ### Printers -/

/-- A way to write values. Between the tokens of a container stand blanks: a gap before each item
and before the closing mark, and a space behind each colon. -/
structure Writes (text : Nat → Value → List Char) (gap : Nat → List Char)
    (space : List Char) : Prop where
  blank_gap : ∀ depth, Blank (gap depth)
  blank_space : Blank space
  null : ∀ depth, text depth .null = ['n', 'u', 'l', 'l']
  yes : ∀ depth, text depth (.bool true) = ['t', 'r', 'u', 'e']
  no : ∀ depth, text depth (.bool false) = ['f', 'a', 'l', 's', 'e']
  number : ∀ depth n, text depth (.number n) = n.render
  string : ∀ depth s, text depth (.string s) = quote s
  noItems : ∀ depth, text depth (.array []) = ['[', ']']
  items : ∀ depth x xs, text depth (.array (x :: xs)) =
    '[' :: (gap (depth + 1) ++ text (depth + 1) x ++
      tailText (gap (depth + 1)) (gap depth) ']' (xs.map (text (depth + 1))))
  noFields : ∀ depth, text depth (.object []) = ['\x7b', '\x7d']
  fields : ∀ depth f fs, text depth (.object (f :: fs)) =
    let piece (f : String × Value) := quote f.1 ++ ':' :: (space ++ text (depth + 1) f.2)
    '\x7b' :: (gap (depth + 1) ++ piece f ++
      tailText (gap (depth + 1)) (gap depth) '\x7d' (fs.map piece))

/-- A digit begins a number and nothing else. -/
theorem digit_spec {b : UInt8} (hb : isDigit b = true) :
    isBlank b = false ∧ b ≠ 110 ∧ b ≠ 116 ∧ b ≠ 102 ∧ b ≠ 45 ∧ b ≠ 93 := by
  have all : ∀ n < 256, isDigit (UInt8.ofNat n) = true →
      isBlank (UInt8.ofNat n) = false ∧ UInt8.ofNat n ≠ 110 ∧ UInt8.ofNat n ≠ 116 ∧
        UInt8.ofNat n ≠ 102 ∧ UInt8.ofNat n ≠ 45 ∧ UInt8.ofNat n ≠ 93 := by
    decide +kernel
  have hspec := all b.toNat b.toNat_lt
  rw [UInt8.ofNat_toNat] at hspec
  exact hspec hb

theorem valueWith_digit (inner : Option (Reader Value)) {b : UInt8} (hb : isDigit b = true)
    (rest : Bytes) : valueWith inner (b :: rest) =
      number false (b :: rest) >>= fun (n, rest) => .ok (.number n, rest) := by
  obtain ⟨hblank, hnull, hyes, hno, hminus, -⟩ := digit_spec hb
  simp only [valueWith, skipBlanks_cons hblank, hnull, hyes, hno, hminus, hb, if_true, if_false]

theorem valueWith_minus (inner : Option (Reader Value)) (rest : Bytes) :
    valueWith inner (45 :: rest) =
      number true rest >>= fun (n, rest) => .ok (.number n, rest) := rfl

theorem valueWith_quote (inner : Option (Reader Value)) (rest : Bytes) :
    valueWith inner (34 :: rest) =
      string rest >>= fun (s, rest) => .ok (.string s, rest) := rfl

theorem valueWith_bracket (item : Reader Value) (rest : Bytes) :
    valueWith (some item) (91 :: rest) =
      items item rest >>= fun (xs, rest) => .ok (.array xs, rest) := rfl

theorem valueWith_brace (item : Reader Value) (rest : Bytes) :
    valueWith (some item) (123 :: rest) =
      fields item rest >>= fun (fs, rest) => .ok (Value.ofFields fs, rest) := rfl

theorem encode_bracket_append (inside : List Char) (rest : Bytes) :
    Utf8.encode ('[' :: inside) ++ rest = 91 :: (Utf8.encode inside ++ rest) := rfl

theorem encode_brace_append (inside : List Char) (rest : Bytes) :
    Utf8.encode ('\x7b' :: inside) ++ rest = 123 :: (Utf8.encode inside ++ rest) := rfl

/-- Blanks in front of a value do not count. -/
theorem value_blank {blank : List Char} (h : Blank blank) (depth : Nat) (input : Bytes) :
    value depth (Utf8.encode blank ++ input) = value depth input := by
  cases depth <;> simp only [value, valueWith, skipBlanks_append h]

section
variable {text : Nat → Value → List Char} {gap : Nat → List Char} {space : List Char}
  (h : Writes text gap space)
include h

/-- Scalars are read back whether or not containers are allowed. -/
theorem valueWith_scalar (inner : Option (Reader Value)) {P : Option (Value → Prop)} {v : Value}
    (hfits : FitsIn P v) (hexact : Exact v) (hscalar : (∀ xs, v ≠ .array xs) ∧ ∀ fs, v ≠ .object fs)
    (depth : Nat) : Opens (Utf8.encode (text depth v)) ∧
      Stands (valueWith inner) (text depth v) v := by
  cases hexact with
  | null =>
    rw [h.null]
    exact ⟨⟨110, [117, 108, 108], by decide, by decide, by decide⟩, fun rest _ => rfl⟩
  | bool b =>
    cases b with
    | true =>
      rw [h.yes]
      exact ⟨⟨116, [114, 117, 101], by decide, by decide, by decide⟩, fun rest _ => rfl⟩
    | false =>
      rw [h.no]
      exact ⟨⟨102, [97, 108, 115, 101], by decide, by decide, by decide⟩, fun rest _ => rfl⟩
  | @number n hn =>
    rw [h.number]
    obtain ⟨b, more, heq, ⟨rfl, hread⟩ | ⟨hb, hread⟩⟩ := number_render hfits hn
    · refine ⟨⟨45, more, heq, by decide, by decide⟩, fun rest hrest => ?_⟩
      rw [heq, List.cons_append, valueWith_minus, hread rest hrest]
      rfl
    · obtain ⟨hblank, -, -, -, -, hbracket⟩ := digit_spec hb
      refine ⟨⟨b, more, heq, hblank, hbracket⟩, fun rest hrest => ?_⟩
      rw [heq, List.cons_append, valueWith_digit inner hb, ← List.cons_append, hread rest hrest]
      rfl
  | string s =>
    rw [h.string]
    obtain ⟨more, heq, hread⟩ := string_quote s
    refine ⟨⟨34, more, heq, by decide, by decide⟩, fun rest _ => ?_⟩
    rw [heq, List.cons_append, valueWith_quote, hread]
    rfl
  | array _ => exact absurd rfl (hscalar.1 _)
  | object _ => exact absurd rfl (hscalar.2 _)

theorem standsField_of_stands {depth d : Nat} {f : String × Value}
    (hstands : Stands (value d) (text depth f.2) f.2) :
    StandsField (value d) (quote f.1 ++ ':' :: (space ++ text depth f.2)) f := by
  obtain ⟨more, heq, hread⟩ := string_quote f.1
  refine ⟨more ++ Utf8.encode (':' :: (space ++ text depth f.2)), ?_, fun rest hrest => ?_⟩
  · rw [Utf8.encode_append, heq, List.cons_append]
  · have hvalue : value d (Utf8.encode (space ++ text depth f.2) ++ rest) = .ok (f.2, rest) := by
      rw [Utf8.encode_append, List.append_assoc, value_blank h.blank_space]
      exact hstands rest hrest
    have hcolon : Utf8.encode (':' :: (space ++ text depth f.2)) ++ rest =
        58 :: (Utf8.encode (space ++ text depth f.2) ++ rest) := rfl
    rw [List.append_assoc, hcolon, field, hread]
    simp only [bind, Except.bind, skipBlanks_cons (b := 58) (by decide), if_true, hvalue]

/-- A value that fits is read back from its text, whatever follows it. -/
theorem value_written (d : Nat) :
    ∀ depth v, Fits d v → Exact v →
      Opens (Utf8.encode (text depth v)) ∧ Stands (value d) (text depth v) v := by
  induction d with
  | zero =>
    intro depth v hfits hexact
    refine valueWith_scalar h none hfits hexact ⟨fun xs hv => ?_, fun fs hv => ?_⟩ depth
    · rw [hv] at hfits
      obtain ⟨P, hP, -⟩ := hfits
      exact absurd hP (by simp)
    · rw [hv] at hfits
      obtain ⟨P, hP, -⟩ := hfits
      exact absurd hP (by simp)
  | succ d ih =>
    intro depth v hfits hexact
    cases hexact with
    | @array xs hexact =>
      obtain ⟨P, hP, hitems⟩ := hfits
      obtain rfl := Option.mem_some.mp hP
      cases xs with
      | nil =>
        rw [h.noItems]
        exact ⟨⟨91, [93], by decide, by decide, by decide⟩, fun rest _ => rfl⟩
      | cons x xs =>
        rw [h.items]
        refine ⟨⟨91, _, rfl, by decide, by decide⟩, fun rest _ => ?_⟩
        have hread := items_written (h.blank_gap (depth + 1)) (h.blank_gap depth)
          (fun y hy => ih (depth + 1) y (hitems y hy) (hexact y hy)) rest
        rw [encode_bracket_append, value, valueWith_bracket, hread]
        rfl
    | @object fs hexact =>
      obtain ⟨P, hP, horder, hfields⟩ := hfits
      obtain rfl := Option.mem_some.mp hP
      cases fs with
      | nil =>
        rw [h.noFields]
        exact ⟨⟨123, [125], by decide, by decide, by decide⟩, fun rest _ => rfl⟩
      | cons f fs =>
        rw [h.fields]
        refine ⟨⟨123, _, rfl, by decide, by decide⟩, fun rest _ => ?_⟩
        have hread := fields_written (h.blank_gap (depth + 1)) (h.blank_gap depth)
          (fun g hg => standsField_of_stands h
            (ih (depth + 1) g.2 (hfields g hg) (hexact g hg)).2) rest
        rw [encode_brace_append, value, valueWith_brace, hread]
        change Except.ok (Value.ofFields (f :: fs), rest) = _
        rw [ofFields_eq, putAll_of_inOrder horder]
        rfl
    | null | bool | number | string =>
      exact valueWith_scalar h _ hfits (by constructor <;> assumption) ⟨nofun, nofun⟩ depth

/-- Text that was written is read as the value it was written for. -/
theorem parse_written {v : Value} (hfits : Fits maxDepth v) (hexact : Exact v) :
    parse (Utf8.encode (text 0 v)) = .ok v := by
  obtain ⟨-, hstands⟩ := value_written h maxDepth 0 v hfits hexact
  have hread := hstands [] rfl
  rw [List.append_nil] at hread
  rw [parse_eq_ok_iff, document, hread]
  rfl

end

/-! ### The two forms -/

theorem indentedItems_eq (depth : Nat) (xs : List Value) :
    indentedItems depth xs =
      tailText (newline (depth + 1)) (newline depth) ']' (xs.map (indented (depth + 1))) := by
  induction xs with
  | nil => rw [indentedItems, List.map_nil, tailText_nil]
  | cons x xs ih =>
    rw [indentedItems, ih, List.map_cons, tailText_cons]

theorem indentedFields_eq (depth : Nat) (fs : List (String × Value)) :
    indentedFields depth fs =
      tailText (newline (depth + 1)) (newline depth) '\x7d'
        (fs.map fun f => quote f.1 ++ ':' :: ([' '] ++ indented (depth + 1) f.2)) := by
  induction fs with
  | nil => rw [indentedFields, List.map_nil, tailText_nil]
  | cons f fs ih =>
    obtain ⟨k, x⟩ := f
    rw [indentedFields, ih, List.map_cons, tailText_cons]
    simp

theorem blank_newline (depth : Nat) : Blank (newline depth) := by
  intro b hb
  rw [newline, ← List.singleton_append, Utf8.encode_append] at hb
  rcases List.mem_append.mp hb with hb | hb
  · rw [List.mem_singleton.mp hb]
    decide
  · obtain ⟨c, hc, hb⟩ := List.mem_flatMap.mp hb
    rw [List.eq_of_mem_replicate hc] at hb
    rw [List.mem_singleton.mp hb]
    decide

theorem indented_writes : Writes indented newline [' '] where
  blank_gap := blank_newline
  blank_space := by
    intro b hb
    rw [List.mem_singleton.mp hb]
    rfl
  null _ := by rw [indented]
  yes _ := by rw [indented]
  no _ := by rw [indented]
  number _ _ := by rw [indented]
  string _ _ := by rw [indented]
  noItems _ := by rw [indented]
  items depth x xs := by
    rw [indented, indentedItems_eq]
    simp
  noFields _ := by rw [indented]
  fields depth f fs := by
    rw [indented, indentedFields_eq]
    simp

theorem compactItems_eq (xs : List Value) :
    compactItems xs = tailText [] [] ']' (xs.map compact) := by
  induction xs with
  | nil => rw [compactItems, List.map_nil, tailText_nil, List.nil_append]
  | cons x xs ih =>
    rw [compactItems, ih, List.map_cons, tailText_cons]
    simp

theorem compactFields_eq (fs : List (String × Value)) :
    compactFields fs =
      tailText [] [] '\x7d' (fs.map fun f => quote f.1 ++ ':' :: ([] ++ compact f.2)) := by
  induction fs with
  | nil => rw [compactFields, List.map_nil, tailText_nil, List.nil_append]
  | cons f fs ih =>
    obtain ⟨k, x⟩ := f
    rw [compactFields, ih, List.map_cons, tailText_cons]
    simp

theorem compact_writes : Writes (fun _ => compact) (fun _ => []) [] where
  blank_gap _ := by simp [Blank]
  blank_space := by simp [Blank]
  null _ := by rw [compact]
  yes _ := by rw [compact]
  no _ := by rw [compact]
  number _ _ := by rw [compact]
  string _ _ := by rw [compact]
  noItems _ := by rw [compact]
  items depth x xs := by
    rw [compact, compactItems_eq]
    simp
  noFields _ := by rw [compact]
  fields depth f fs := by
    rw [compact, compactFields_eq]
    simp

/-- What was read and holds no number with a fraction is read again from its indented form. -/
theorem parse_renderIndented {input : Bytes} {v : Value} (h : parse input = .ok v)
    (hexact : Exact v) : parse (Utf8.encodeString v.renderIndented) = .ok v := by
  rw [Utf8.encodeString, Value.renderIndented, String.toList_ofList]
  exact parse_written indented_writes (document_fits (parse_eq_ok_iff.mp h)) hexact

end MeshProbe.Json
