import MeshProbe.ClusterRole.Template
import Mathlib.Tactic

/-!
The markers of the mesh's role, and what putting one kind of them aside does to a text. A marker
reaches to the last closing braces of its line: nothing closes behind it, so a line loses
one marker of a kind at most, and what is left of the line holds no other marker than those that
stood in front.
-/

namespace MeshProbe.Template

/-! ### Closing braces -/

/-- What a marker ends with. -/
def closing : List Char := ['\x7d', '\x7d']

/-- A text behind which nothing closes, not even with a brace in front of it. -/
def Unclosed (text : List Char) : Prop := ¬ closing <:+: '\x7d' :: text

theorem unclosed_nil : Unclosed [] := by
  unfold Unclosed
  decide

theorem Unclosed.of_begin {text shorter : List Char} (h : Unclosed text)
    (hbegin : shorter <+: text) : Unclosed shorter :=
  fun hclosing => h (hclosing.trans (List.prefix_cons_inj _ |>.mpr hbegin).isInfix)

theorem Unclosed.not_closing {text : List Char} (h : Unclosed text) : ¬ closing <:+: text :=
  fun hclosing => h (List.infix_cons hclosing)

/-- Text without such a brace in front keeps the rest unclosed. -/
theorem Unclosed.append {text : List Char} (h : Unclosed text) {front : List Char}
    (hfront : '\x7d' ∉ front) : Unclosed (front ++ text) := by
  induction front with
  | nil => exact h
  | cons c front ih =>
    obtain ⟨hc, hrest⟩ := not_or.mp (List.mem_cons.not.mp hfront)
    intro hclosing
    rcases List.infix_cons_iff.mp hclosing with hbegin | hwithin
    · exact hc (by simpa [closing] using hbegin)
    · rcases List.infix_cons_iff.mp hwithin with hbegin | hwithin
      · exact hc (by simpa [closing] using (List.cons_prefix_cons.mp hbegin).1)
      · exact ih hrest (List.infix_cons hwithin)

/-- Braces that close a text whose end is unclosed show that there is no such end. -/
theorem eq_nil_of_closing_suffix {before after : List Char} (h : closing <:+ before ++ after)
    (hafter : Unclosed after) : after = [] := by
  rcases List.suffix_or_suffix_of_suffix h (List.suffix_append before after) with h | h
  · exact absurd h.isInfix hafter.not_closing
  · rcases List.suffix_cons_iff.mp h with rfl | h
    · exact absurd List.infix_rfl hafter.not_closing
    · rcases List.suffix_cons_iff.mp h with rfl | h
      · exact absurd List.infix_rfl hafter
      · exact List.suffix_nil.mp h

/-- What ends in closing braces stands in front of what is unclosed. -/
theorem infix_of_closed {text before after : List Char} (htext : closing <:+ text)
    (h : text <:+: before ++ after) (hafter : Unclosed after) : text <:+: before := by
  obtain ⟨front, rest, h⟩ := h
  rcases List.append_eq_append_iff.mp h with ⟨gap, hbefore, -⟩ | ⟨part, hpart, hrest⟩
  · exact ⟨front, gap, hbefore.symm⟩
  · have hclosing : closing <:+ before ++ part :=
      hpart ▸ List.suffix_append_of_suffix htext
    have hnil := eq_nil_of_closing_suffix hclosing
      (hafter.of_begin ⟨rest, hrest.symm⟩)
    refine ⟨front, [], ?_⟩
    rw [List.append_nil, hpart, hnil, List.append_nil]

theorem lastClose_eq_none_iff {line : List Char} :
    lastClose line = none ↔ ¬ closing <:+: line := by
  induction line with
  | nil => simp [lastClose, closing]
  | cons c rest ih =>
    have hbegin : closing <+: c :: rest ↔ c = '\x7d' ∧ rest.head? = some '\x7d' := by
      cases rest <;> simp [closing, eq_comm]
    rw [List.infix_cons_iff, not_or, hbegin, ← ih, lastClose]
    cases lastClose rest with
    | some n => simp
    | none => simp

/-- The last closing braces have nothing behind them that closes. -/
theorem exists_last_closing {line : List Char} (h : closing <:+: line) :
    ∃ inner after, line = inner ++ closing ++ after ∧ Unclosed after := by
  induction line with
  | nil => simp [closing] at h
  | cons c rest ih =>
    by_cases hrest : closing <:+: rest
    · obtain ⟨inner, after, rfl, hafter⟩ := ih hrest
      exact ⟨c :: inner, after, rfl, hafter⟩
    · obtain ⟨after, hafter⟩ := (List.infix_cons_iff.mp h).resolve_right hrest
      obtain ⟨rfl, rfl⟩ : '\x7d' = c ∧ '\x7d' :: after = rest := by simpa [closing] using hafter
      exact ⟨[], after, rfl, hrest⟩

theorem lastClose_closed (inner : List Char) {after : List Char} (h : Unclosed after) :
    lastClose (inner ++ closing ++ after) = some (inner.length + 2) := by
  induction inner with
  | nil =>
    have hnone : lastClose ('\x7d' :: after) = none := lastClose_eq_none_iff.mpr h
    simp [closing, lastClose] at hnone ⊢
    simp [hnone]
  | cons c inner ih =>
    rw [List.cons_append, List.cons_append, lastClose, ih]
    rfl

/-! ### Lines -/

/-- A text at the end of a line: nothing, or a line break first. -/
def AtBreak (tail : List Char) : Prop := ∀ c ∈ tail.head?, c = '\n'

theorem takeWhile_line {line tail : List Char} (hline : '\n' ∉ line) (htail : AtBreak tail) :
    (line ++ tail).takeWhile (· ≠ '\n') = line := by
  have hall : ∀ c ∈ line, decide (c ≠ '\n') = true := by
    intro c hc
    rw [decide_eq_true_iff]
    rintro rfl
    exact hline hc
  rw [List.takeWhile_append_of_pos hall]
  cases tail with
  | nil => simp
  | cons c tail => simp [htail c (by simp)]

theorem AtBreak.append {tail after : List Char} (htail : AtBreak tail)
    (h : tail = [] → AtBreak after) : AtBreak (tail ++ after) := by
  cases tail with
  | nil => exact h rfl
  | cons c tail => exact htail

/-- Every text begins with a line. -/
theorem exists_line (text : List Char) :
    ∃ line tail, text = line ++ tail ∧ '\n' ∉ line ∧ AtBreak tail := by
  induction text with
  | nil => exact ⟨[], [], rfl, by simp, by simp [AtBreak]⟩
  | cons c text ih =>
    by_cases hc : c = '\n'
    · exact ⟨[], c :: text, rfl, by simp, by simpa [AtBreak] using hc⟩
    · obtain ⟨line, tail, rfl, hline, htail⟩ := ih
      exact ⟨c :: line, tail, rfl, by simp [hline, Ne.symm hc], htail⟩

/-! ### Where a marker stands -/

namespace Marker

variable {m : Marker} {text : List Char}

/-- The text is a marker of the kind: its opening, something that stays on the line, and closing
braces. -/
def Reads (m : Marker) (text : List Char) : Prop :=
  ∃ inner, inner ≠ [] ∧ '\n' ∉ inner ∧ text = m.opening ++ inner ++ closing

/-- A marker of the kind stands in the text. -/
def StandsIn (m : Marker) (text : List Char) : Prop :=
  ∃ mark, m.Reads mark ∧ mark <:+: text

/-- What goes along when a marker of the kind is replaced. -/
def ending (m : Marker) : List Char :=
  if m.endsLine then ['\n'] else []

/-- The text begins with a marker of the kind and what goes along with it. -/
def Begins (m : Marker) (text : List Char) : Prop :=
  ∃ mark, m.Reads mark ∧ mark ++ m.ending <+: text

/-- What the replacement of the kind looks for stands in the text. -/
def Occurs (m : Marker) (text : List Char) : Prop :=
  ∃ mark, m.Reads mark ∧ mark ++ m.ending <:+: text

theorem Reads.closing_suffix (h : m.Reads text) : closing <:+ text := by
  obtain ⟨inner, -, -, rfl⟩ := h
  exact List.suffix_append _ _

theorem Reads.ne_nil (h : m.Reads text) : text ≠ [] := by
  obtain ⟨inner, -, -, rfl⟩ := h
  simp [closing]

theorem Reads.no_break (hm : '\n' ∉ m.opening) (h : m.Reads text) : '\n' ∉ text := by
  obtain ⟨inner, -, hinner, rfl⟩ := h
  simp [hm, hinner, closing]

theorem StandsIn.mono (h : m.StandsIn text) {longer : List Char} (hwithin : text <:+: longer) :
    m.StandsIn longer := by
  obtain ⟨mark, hmark, hmarkWithin⟩ := h
  exact ⟨mark, hmark, hmarkWithin.trans hwithin⟩

/-- A marker does not reach into what is unclosed. -/
theorem StandsIn.of_append {before after : List Char} (h : m.StandsIn (before ++ after))
    (hafter : Unclosed after) : m.StandsIn before := by
  obtain ⟨mark, hmark, hwithin⟩ := h
  exact ⟨mark, hmark, infix_of_closed hmark.closing_suffix hwithin hafter⟩

theorem not_standsIn_of_unclosed (h : Unclosed text) : ¬ m.StandsIn text :=
  fun ⟨_, hmark, hwithin⟩ => h.not_closing (hmark.closing_suffix.isInfix.trans hwithin)

theorem occurs_cons_iff {c : Char} {rest : List Char} :
    m.Occurs (c :: rest) ↔ m.Begins (c :: rest) ∨ m.Occurs rest := by
  simp only [Occurs, Begins, List.infix_cons_iff, and_or_left, exists_or]

theorem standsIn_iff_occurs (hend : m.endsLine = false) : m.StandsIn text ↔ m.Occurs text := by
  simp [StandsIn, Occurs, ending, hend]

/-! ### Finding a marker at the start of a text -/

theorem matchLength_of_not_opening (h : ¬ m.opening <+: text) : m.matchLength text = none := by
  simp [matchLength, List.isPrefixOf_iff_prefix, h]

theorem matchLength_opening (m : Marker) (rest : List Char) :
    m.matchLength (m.opening ++ rest) =
      match rest.takeWhile (· ≠ '\n') with
      | [] => none
      | _ :: line =>
        match lastClose line with
        | none => none
        | some n =>
          if !m.endsLine then some (m.opening.length + 1 + n)
          else if (rest.drop (1 + n)).head? = some '\n' then some (m.opening.length + 1 + n + 1)
          else none := by
  have hopen : m.opening.isPrefixOf (m.opening ++ rest) = true :=
    List.isPrefixOf_iff_prefix.mpr (List.prefix_append _ _)
  unfold matchLength
  rewrite [if_pos hopen, List.drop_left]
  rfl

theorem matchLength_of_open (m : Marker) {line tail : List Char} (hline : '\n' ∉ line)
    (htail : AtBreak tail) (h : ¬ closing <:+: line.drop 1) :
    m.matchLength (m.opening ++ (line ++ tail)) = none := by
  rw [matchLength_opening, takeWhile_line hline htail]
  cases line with
  | nil => rfl
  | cons d line =>
    have hnone : lastClose line = none := lastClose_eq_none_iff.mpr h
    simp only [hnone]

theorem matchLength_of_closed (m : Marker) {d : Char} {inner after tail : List Char}
    (hline : '\n' ∉ d :: (inner ++ closing ++ after)) (hafter : Unclosed after)
    (htail : AtBreak tail) :
    m.matchLength (m.opening ++ (d :: (inner ++ closing ++ after) ++ tail)) =
      if !m.endsLine then some (m.opening.length + 1 + (inner.length + 2))
      else if (after ++ tail).head? = some '\n' then
        some (m.opening.length + 1 + (inner.length + 2) + 1)
      else none := by
  have hdrop : (d :: (inner ++ closing ++ after) ++ tail).drop (1 + (inner.length + 2)) =
      after ++ tail := by
    have hlength : (d :: (inner ++ closing)).length = 1 + (inner.length + 2) := by
      simp [closing, Nat.add_comm]
    have hsplit : d :: (inner ++ closing ++ after) ++ tail =
        d :: (inner ++ closing) ++ (after ++ tail) := by simp
    rw [hsplit, ← hlength, List.drop_left]
  rw [matchLength_opening, takeWhile_line hline htail]
  simp only [lastClose_closed inner hafter, hdrop]

/-- A match is a marker of the kind at the start of the text, with what goes along; behind one
that takes no line break along nothing closes on its line. -/
theorem matchLength_eq_some {n : Nat} (h : m.matchLength text = some n) :
    ∃ mark rest, m.Reads mark ∧ text = mark ++ m.ending ++ rest ∧
      n = (mark ++ m.ending).length ∧
      (m.endsLine = false → ∃ after tail, rest = after ++ tail ∧ Unclosed after ∧
        AtBreak tail) := by
  obtain ⟨rest, rfl⟩ : m.opening <+: text := by
    by_contra hopen
    simp [matchLength_of_not_opening hopen] at h
  obtain ⟨line, tail, rfl, hline, htail⟩ := exists_line rest
  obtain ⟨d, line, rfl, hclosing⟩ : ∃ d line', line = d :: line' ∧ closing <:+: line' := by
    by_contra hnone
    have hopen : ¬ closing <:+: line.drop 1 := by
      cases line with
      | nil => simp [closing]
      | cons d line => exact fun hclosing => hnone ⟨d, line, rfl, hclosing⟩
    simp [matchLength_of_open m hline htail hopen] at h
  obtain ⟨inner, after, rfl, hafter⟩ := exists_last_closing hclosing
  rw [matchLength_of_closed m hline hafter htail] at h
  have hinner : '\n' ∉ d :: inner := fun hmem => hline (by
    rw [List.append_assoc, ← List.cons_append]
    exact List.mem_append_left _ hmem)
  have hmark : m.Reads (m.opening ++ d :: inner ++ closing) := ⟨d :: inner, by simp, hinner, rfl⟩
  cases hend : m.endsLine with
  | false =>
    obtain rfl : _ = n := by simpa [hend] using h
    refine ⟨_, after ++ tail, hmark, by simp [ending, hend], ?_, fun _ =>
      ⟨after, tail, rfl, hafter, htail⟩⟩
    simp [ending, hend, closing]
    omega
  | true =>
    simp only [hend, Bool.not_true, Bool.false_eq_true, if_false, Option.ite_none_right_eq_some,
      Option.some.injEq] at h
    obtain ⟨hhead, rfl⟩ := h
    obtain ⟨rest, hrest⟩ := List.head?_eq_some_iff.mp hhead
    refine ⟨_, rest, hmark, ?_, ?_, by simp⟩
    · simp [ending, hend, hrest]
    · simp [ending, hend, closing]
      omega

/-- What follows a marker on its line: nothing when the line break goes along. -/
theorem exists_rest_of_line (m : Marker) (rest : List Char) :
    ∃ left tail, m.ending ++ rest = left ++ tail ∧ '\n' ∉ left ∧ AtBreak tail ∧
      (m.endsLine = true → left = [] ∧ tail.head? = some '\n') := by
  cases hend : m.endsLine with
  | false =>
    obtain ⟨left, tail, rfl, hleft, htail⟩ := exists_line rest
    exact ⟨left, tail, by simp [ending, hend], hleft, htail, by simp⟩
  | true =>
    exact ⟨[], '\n' :: rest, by simp [ending, hend], by simp, by simp [AtBreak], by simp⟩

theorem matchLength_eq_none_iff : m.matchLength text = none ↔ ¬ m.Begins text := by
  constructor
  · rintro hnone ⟨mark, ⟨inner, hinner, hbreak, rfl⟩, rest, rfl⟩
    obtain ⟨d, inner, rfl⟩ := List.exists_cons_of_ne_nil hinner
    obtain ⟨left, tail, hrest, hleft, htail, hend⟩ := exists_rest_of_line m rest
    -- What follows the marker on its line may close again; the match then reaches further.
    obtain ⟨inner', after, hline, hafter⟩ := exists_last_closing ⟨inner, left, rfl⟩
    have hnobreak : '\n' ∉ d :: (inner' ++ closing ++ after) := by
      rw [← hline]
      simpa [closing, hleft] using hbreak
    have htext : m.opening ++ d :: inner ++ closing ++ m.ending ++ rest =
        m.opening ++ (d :: (inner' ++ closing ++ after) ++ tail) := by
      rw [← hline, List.append_assoc _ m.ending, hrest]
      simp
    rw [htext, matchLength_of_closed m hnobreak hafter htail] at hnone
    cases hends : m.endsLine with
    | false => simp [hends] at hnone
    | true =>
      obtain ⟨rfl, hhead⟩ := hend hends
      have hclosed : closing <:+ inner' ++ closing ++ after := hline ▸ by simp
      have hnil : after = [] := eq_nil_of_closing_suffix hclosed hafter
      simp [hends, hnil, hhead] at hnone
  · intro h
    rw [Option.eq_none_iff_forall_ne_some]
    intro n hn
    obtain ⟨mark, rest, hmark, rfl, -⟩ := matchLength_eq_some hn
    exact h ⟨mark, hmark, List.prefix_append _ _⟩

/-! ### Putting markers aside -/

theorem replaceMatches_skip (find : List Char → Option Nat) (replacement : List Char) (skip : Nat)
    (text : List Char) :
    replaceMatches find replacement skip text =
      replaceMatches find replacement 0 (text.drop skip) := by
  induction text generalizing skip with
  | nil => simp [replaceMatches]
  | cons c rest ih =>
    cases skip with
    | zero => rfl
    | succ skip => exact ih skip

@[simp]
theorem put_nil (m : Marker) : m.put [] = [] := rfl

theorem put_cons_of_not_begins {c : Char} {rest : List Char} (h : ¬ m.Begins (c :: rest)) :
    m.put (c :: rest) = c :: m.put rest := by
  simp only [put, replaceMatches, matchLength_eq_none_iff.mpr h]

theorem put_of_match {n : Nat} (h : m.matchLength text = some n) :
    m.put text = m.replacement.toList ++ m.put (text.drop n) := by
  obtain ⟨mark, rest, hmark, rfl, rfl, -⟩ := matchLength_eq_some h
  obtain ⟨c, mark, rfl⟩ := List.exists_cons_of_ne_nil hmark.ne_nil
  simp only [List.cons_append] at h
  simp only [put, List.cons_append, replaceMatches, h]
  rw [replaceMatches_skip]
  rfl

/-- A text in which nothing is found stays as it is. -/
theorem put_eq_self (h : ¬ m.Occurs text) : m.put text = text := by
  induction text with
  | nil => rfl
  | cons c rest ih =>
    obtain ⟨hbegins, hrest⟩ := not_or.mp (occurs_cons_iff.not.mp h)
    rw [put_cons_of_not_begins hbegins, ih hrest]

theorem put_of_not_standsIn (hend : m.endsLine = false) (h : ¬ m.StandsIn text) :
    m.put text = text :=
  put_eq_self ((standsIn_iff_occurs hend).not.mp h)

/-- No marker of the kind reaches from one text into the next: there is a line break between the
two, and it belongs to the first one if markers take it along. -/
def Cut (m : Marker) (before after : List Char) : Prop :=
  (∀ c ∈ before.getLast?, c = '\n') ∨ m.endsLine = false ∧ AtBreak after

theorem Cut.drop {before after : List Char} (h : m.Cut before after) (n : Nat) :
    m.Cut (before.drop n) after := by
  refine h.imp_left fun hlast c hc => hlast c ?_
  rw [List.getLast?_drop] at hc
  split_ifs at hc with hlength
  · simp at hc
  · exact hc

/-- Without a line break in the first text, only markers that take none along are cut. -/
theorem Cut.of_no_break {before after : List Char} (h : m.Cut before after) (hne : before ≠ [])
    (hbreak : '\n' ∉ before) : m.endsLine = false ∧ AtBreak after := by
  refine h.resolve_left fun hlast => hbreak ?_
  have hmem := List.getLast_mem hne
  rwa [hlast _ (List.getLast?_eq_getLast_of_ne_nil hne)] at hmem

theorem matchLength_append (hm : '\n' ∉ m.opening) {before after : List Char}
    (hne : before ≠ []) (hcut : m.Cut before after) :
    m.matchLength (before ++ after) = m.matchLength before := by
  by_cases hopen : m.opening <+: before
  · obtain ⟨rest, rfl⟩ := hopen
    obtain ⟨line, tail, rfl, hline, htail⟩ := exists_line rest
    have hnone (h : tail = []) : m.endsLine = false ∧ AtBreak after :=
      hcut.of_no_break hne (by simp [h, hm, hline])
    have htail' : AtBreak (tail ++ after) := htail.append fun h => (hnone h).2
    rw [List.append_assoc, List.append_assoc]
    by_cases hclosing : closing <:+: line.drop 1
    · obtain ⟨d, line, rfl⟩ : ∃ d line', line = d :: line' := by
        cases line with
        | nil => simp [closing] at hclosing
        | cons d line => exact ⟨d, line, rfl⟩
      obtain ⟨inner, left, rfl, hleft⟩ := exists_last_closing hclosing
      rw [matchLength_of_closed m hline hleft htail, matchLength_of_closed m hline hleft htail']
      cases hend : m.endsLine with
      | false => rfl
      | true =>
        have htail_ne : tail ≠ [] := fun h => by simpa [hend] using hnone h
        obtain ⟨c, tail, rfl⟩ := List.exists_cons_of_ne_nil htail_ne
        simp
    · rw [matchLength_of_open m hline htail hclosing, matchLength_of_open m hline htail' hclosing]
  · rw [matchLength_of_not_opening hopen, matchLength_of_not_opening]
    intro hbegin
    rcases List.prefix_or_prefix_of_prefix hbegin (List.prefix_append before after) with h | h
    · exact hopen h
    · -- The opening would reach past the first text, over the line break between the two.
      obtain ⟨part, hpart⟩ := h
      rw [← hpart] at hm hbegin hopen
      have hbefore : '\n' ∉ before := fun hmem => hm (List.mem_append_left _ hmem)
      obtain ⟨-, hbreak⟩ := hcut.of_no_break hne hbefore
      obtain ⟨rest, rfl⟩ := (List.prefix_append_right_inj before).mp hbegin
      cases part with
      | nil => exact hopen (by simp)
      | cons c part =>
        obtain rfl := hbreak c (by simp)
        exact hm (by simp)

/-- Texts that no marker connects can be treated one after the other. -/
theorem put_append (hm : '\n' ∉ m.opening) {before after : List Char} (hcut : m.Cut before after) :
    m.put (before ++ after) = m.put before ++ m.put after := by
  induction hlength : before.length using Nat.strong_induction_on generalizing before with
  | _ length ih =>
    cases before with
    | nil => rfl
    | cons c before =>
      have hmatch := matchLength_append hm (by simp) hcut
      cases hfound : m.matchLength (c :: before) with
      | none =>
        rw [hfound, List.cons_append] at hmatch
        have hrest : m.put (before ++ after) = m.put before ++ m.put after :=
          ih before.length (by simp [← hlength]) (hcut.drop 1) rfl
        rw [put_cons_of_not_begins (matchLength_eq_none_iff.mp hfound), List.cons_append,
          put_cons_of_not_begins (matchLength_eq_none_iff.mp hmatch), hrest, List.cons_append]
      | some n =>
        rw [hfound] at hmatch
        obtain ⟨mark, rest, hmark, htext, rfl, -⟩ := matchLength_eq_some hfound
        have hpos : 0 < mark.length := List.length_pos_iff.mpr hmark.ne_nil
        rw [put_of_match hfound, put_of_match hmatch, htext, List.append_assoc _ rest,
          List.drop_left, List.drop_left, List.append_assoc]
        have hrest : m.Cut rest after := by
          have := hcut.drop (mark ++ m.ending).length
          rwa [htext, List.drop_left] at this
        rw [ih rest.length ?_ hrest rfl]
        have := congrArg List.length htext
        simp only [List.length_append] at this
        omega

/-! ### One line -/

/-- A line in which a marker of the kind stands loses one, the first. What stood in front of it
holds no other, and nothing closes behind it. -/
theorem put_line (hend : m.endsLine = false) {line : List Char} (hline : '\n' ∉ line) :
    (¬ m.StandsIn line ∧ m.put line = line) ∨
    ∃ before mark after, line = before ++ mark ++ after ∧ m.Reads mark ∧ ¬ m.StandsIn before ∧
      Unclosed after ∧ m.put line = before ++ m.replacement.toList ++ after := by
  have hending : m.ending = [] := by simp [ending, hend]
  induction line with
  | nil => exact Or.inl ⟨not_standsIn_of_unclosed unclosed_nil, rfl⟩
  | cons c line ih =>
    cases hfound : m.matchLength (c :: line) with
    | some n =>
      obtain ⟨mark, rest, hmark, htext, rfl, hgreedy⟩ := matchLength_eq_some hfound
      obtain ⟨after, tail, rfl, hafter, htail⟩ := hgreedy hend
      obtain rfl : tail = [] := by
        cases tail with
        | nil => rfl
        | cons d tail =>
          obtain rfl := htail d (by simp)
          exact absurd (by simp [htext]) hline
      have hrest : m.put after = after :=
        put_of_not_standsIn hend (not_standsIn_of_unclosed hafter)
      refine Or.inr ⟨[], mark, after, by simpa [hending] using htext, hmark,
        not_standsIn_of_unclosed unclosed_nil, hafter, ?_⟩
      rw [put_of_match hfound, htext, List.drop_left, List.append_nil, hrest, List.nil_append]
    | none =>
      have hbegins := matchLength_eq_none_iff.mp hfound
      rw [put_cons_of_not_begins hbegins]
      rcases ih fun hmem => hline (List.mem_cons_of_mem _ hmem) with
        ⟨hnone, hput⟩ | ⟨before, mark, after, rfl, hmark, hbefore, hafter, hput⟩
      · refine Or.inl ⟨?_, by rw [hput]⟩
        rw [standsIn_iff_occurs hend, occurs_cons_iff]
        exact not_or.mpr ⟨hbegins, (standsIn_iff_occurs hend).not.mp hnone⟩
      · refine Or.inr ⟨c :: before, mark, after, rfl, hmark, ?_, hafter, by rw [hput]; rfl⟩
        rw [standsIn_iff_occurs hend, occurs_cons_iff]
        refine not_or.mpr ⟨?_, (standsIn_iff_occurs hend).not.mp hbefore⟩
        rintro ⟨found, hread, hbegin⟩
        refine hbegins ⟨found, hread, hbegin.trans ?_⟩
        rw [List.append_assoc, ← List.cons_append]
        exact List.prefix_append _ _

theorem reads_iff : m.Reads text ↔
    m.opening <+: text ∧ closing <:+ text.drop (m.opening.length + 1) ∧
      '\n' ∉ text.drop m.opening.length := by
  constructor
  · rintro ⟨inner, hinner, hbreak, rfl⟩
    obtain ⟨d, inner, rfl⟩ := List.exists_cons_of_ne_nil hinner
    refine ⟨by simp, ?_, ?_⟩
    · rw [List.append_assoc, ← List.drop_drop, List.drop_left]
      simp
    · rw [List.append_assoc, List.drop_left]
      simpa [closing] using hbreak
  · rintro ⟨⟨rest, rfl⟩, hclosing, hbreak⟩
    rw [← List.drop_drop, List.drop_left] at hclosing
    rw [List.drop_left] at hbreak
    cases rest with
    | nil => simp [closing] at hclosing
    | cons d rest =>
      obtain ⟨inner, hinner⟩ := hclosing
      rw [List.drop_succ_cons, List.drop_zero] at hinner
      subst hinner
      refine ⟨d :: inner, by simp, fun h => hbreak ?_, by simp⟩
      rw [← List.cons_append]
      exact List.mem_append_left _ h

instance : DecidablePred m.Reads := fun _ => decidable_of_iff' _ reads_iff

theorem standsIn_iff :
    m.StandsIn text ↔ ∃ rest ∈ text.tails, ∃ mark ∈ rest.inits, m.Reads mark := by
  simp only [StandsIn, List.infix_iff_prefix_suffix, List.mem_tails, List.mem_inits]
  constructor
  · rintro ⟨mark, hmark, rest, hbegin, hsuffix⟩
    exact ⟨rest, hsuffix, mark, hbegin, hmark⟩
  · rintro ⟨rest, hsuffix, mark, hbegin, hmark⟩
    exact ⟨mark, hmark, rest, hbegin, hsuffix⟩

instance : DecidablePred m.StandsIn := fun _ => decidable_of_iff' _ standsIn_iff

/-- What stands in front of the first marker that the line ends with. -/
def before? (m : Marker) : List Char → Option (List Char)
  | [] => none
  | c :: rest => if m.Reads (c :: rest) then some [] else (before? m rest).map (c :: ·)

/-- The line ends with a marker of the kind. -/
def Ends (m : Marker) (line : List Char) : Prop :=
  ∃ mark, m.Reads mark ∧ mark <:+ line

theorem ends_cons_iff {c : Char} {line : List Char} :
    m.Ends (c :: line) ↔ m.Reads (c :: line) ∨ m.Ends line := by
  simp only [Ends, List.suffix_cons_iff, and_or_left, exists_or, exists_eq_right]

theorem not_ends_nil (m : Marker) : ¬ m.Ends [] := by
  rintro ⟨mark, hmark, hsuffix⟩
  exact hmark.ne_nil (List.suffix_nil.mp hsuffix)

theorem before?_eq_none_iff {line : List Char} : m.before? line = none ↔ ¬ m.Ends line := by
  induction line with
  | nil => simp [before?, not_ends_nil]
  | cons c line ih =>
    rw [before?, ends_cons_iff, not_or, ← ih]
    by_cases hreads : m.Reads (c :: line) <;> simp [hreads]

/-- The line is what is left of it and a marker, and no marker that ends the line begins earlier. -/
theorem before?_eq_some {line before : List Char} (h : m.before? line = some before) :
    ∃ mark, m.Reads mark ∧ line = before ++ mark ∧
      ∀ front mark', m.Reads mark' → line = front ++ mark' → before <+: front := by
  induction line generalizing before with
  | nil => simp [before?] at h
  | cons c line ih =>
    rw [before?] at h
    split_ifs at h with hreads
    · obtain rfl := Option.some.inj h
      exact ⟨c :: line, hreads, rfl, fun _ _ _ _ => List.nil_prefix⟩
    · obtain ⟨before, hbefore, rfl⟩ := Option.map_eq_some_iff.mp h
      obtain ⟨mark, hmark, rfl, hfirst⟩ := ih hbefore
      refine ⟨mark, hmark, rfl, ?_⟩
      intro front mark' hmark' heq
      cases front with
      | nil => exact absurd (by simpa [heq] using hmark') hreads
      | cons d front =>
        obtain ⟨rfl, hrest⟩ := List.cons.inj heq
        exact (List.prefix_cons_inj c).mpr (hfirst front mark' hmark' hrest)

theorem begins_line_iff (hend : m.endsLine = true) {line : List Char}
    (hline : '\n' ∉ line) : m.Begins (line ++ ['\n']) ↔ m.Reads line := by
  have hending : m.ending = ['\n'] := by simp [ending, hend]
  constructor
  · rintro ⟨mark, hmark, rest, h⟩
    rw [hending, List.append_assoc, List.singleton_append] at h
    obtain ⟨rfl, -, -⟩ := (List.append_cons_inj_of_notMem hline (by simp)).mp h.symm
    exact hmark
  · exact fun h => ⟨line, h, by rw [hending]⟩

/-- A line that ends with a marker which takes the line break along is left as what stands in
front of the marker; any other line stays. -/
theorem put_line_break (hend : m.endsLine = true) {line : List Char}
    (hline : '\n' ∉ line) :
    m.put (line ++ ['\n']) =
      match m.before? line with
      | some before => before ++ m.replacement.toList
      | none => line ++ ['\n'] := by
  induction line with
  | nil =>
    have hbegins : ¬ m.Begins ['\n'] := fun h =>
      Reads.ne_nil ((begins_line_iff hend hline).mp h) rfl
    simp [put_cons_of_not_begins hbegins, before?]
  | cons c line ih =>
    have hbegins := begins_line_iff hend hline
    rw [before?]
    by_cases hreads : m.Reads (c :: line)
    · cases hfound : m.matchLength (c :: line ++ ['\n']) with
      | none => exact absurd (hbegins.mpr hreads) (matchLength_eq_none_iff.mp hfound)
      | some n =>
        obtain ⟨mark, rest, hmark, htext, rfl, -⟩ := matchLength_eq_some hfound
        obtain rfl : rest = [] := by
          simp only [ending, hend, if_true, List.append_assoc, List.singleton_append] at htext
          exact ((List.append_cons_inj_of_notMem hline (by simp)).mp htext).2.2.symm
        rw [put_of_match hfound, htext, List.drop_left, if_pos hreads]
        simp
    · have hnot : ¬ m.Begins (c :: (line ++ ['\n'])) := hbegins.not.mpr hreads
      rw [List.cons_append, put_cons_of_not_begins hnot,
        ih fun hmem => hline (List.mem_cons_of_mem _ hmem), if_neg hreads]
      cases m.before? line <;> rfl

end Marker

end MeshProbe.Template
