import MeshProbe.Url.Parser
import MeshProbe.Proofs.Text.Percent

/-!
What becomes of a path when values are added to it. A value adds exactly one
segment that decodes to it, unless it is a dot segment: one written plainly is
left out, one spelled with tabs or line breaks in it acts as a dot segment does.
-/

namespace MeshProbe.Url

open Percent (keepsPath keepsSegment Faithful)

/-! ### Paths as text -/

/-- What stands between the slashes of a path. -/
def parts (text : List Char) : List (List Char) :=
  (text.drop 1).splitOn '/'

theorem renderPath_cons (segment : List Char) (path : List (List Char)) :
    renderPath (segment :: path) = '/' :: ['/'].intercalate (segment :: path) := by
  induction path generalizing segment with
  | nil => simp [renderPath, List.intercalate]
  | cons next path ih =>
    rw [List.intercalate_cons_cons]
    change '/' :: (segment ++ renderPath (next :: path)) = _
    rw [ih next]
    simp

theorem parts_renderPath {path : List (List Char)} (hne : path ≠ [])
    (hslash : ∀ segment ∈ path, '/' ∉ segment) : parts (renderPath path) = path := by
  obtain ⟨segment, rest, rfl⟩ := List.exists_cons_of_ne_nil hne
  rw [renderPath_cons]
  exact List.splitOn_intercalate '/' hslash hne

/-! ### Characters of a path -/

/-- Characters that stand in a segment as they are. -/
def inSegment (c : Char) : Bool :=
  keepsPath c && !isSlash c

theorem faithful_keepsSegment : Faithful keepsSegment := by
  intro c hc
  simp only [keepsSegment, keepsPath, Percent.keepsFragment, Percent.isGraphic, Bool.and_eq_true,
    decide_eq_true_eq, Bool.not_eq_true', List.contains_eq_mem, decide_eq_false_iff_not,
    List.mem_cons] at hc
  exact ⟨by omega, fun h => hc.2 (Or.inr (Or.inl h))⟩

theorem inSegment_of_keepsSegment {c : Char} (hc : keepsSegment c = true) :
    inSegment c = true := by
  simp only [keepsSegment, Bool.and_eq_true, Bool.not_eq_true', List.contains_eq_mem,
    decide_eq_false_iff_not, List.mem_cons, not_or] at hc
  simp [inSegment, isSlash, hc.1, hc.2]

theorem inSegment_of_isEscape {c : Char} (hc : Percent.isEscape c = true) :
    inSegment c = true :=
  Percent.of_isEscape (P := (inSegment · = true)) (by decide) (by decide) hc

theorem not_slash_of_inSegment {segment : List Char}
    (h : ∀ c ∈ segment, inSegment c = true) : '/' ∉ segment :=
  fun hmem => absurd (h _ hmem) (by decide)

/-! ### Dot segments -/

/-- The spellings of a dot, and what two of them together look like. -/
theorem decodeText_dots :
    (∀ d ∈ dots, Percent.decodeText d = Utf8.encode ['.']) ∧
    ∀ d ∈ dots, ∀ e ∈ dots, Percent.decodeText (d ++ e) = Utf8.encode ['.', '.'] := by
  decide

theorem decodeText_of_isSingleDot {segment : List Char} (h : isSingleDot segment = true) :
    Percent.decodeText segment = Utf8.encode ['.'] :=
  decodeText_dots.1 segment (by simpa [isSingleDot] using h)

theorem decodeText_of_isDoubleDot {segment : List Char} (h : isDoubleDot segment = true) :
    Percent.decodeText segment = Utf8.encode ['.', '.'] := by
  simp only [isDoubleDot, List.any_eq_true, Bool.and_eq_true, List.isPrefixOf_iff_prefix,
    List.contains_iff_mem] at h
  obtain ⟨d, hd, ⟨e, rfl⟩, he⟩ := h
  rw [List.drop_left] at he
  exact decodeText_dots.2 d hd e he

/-- A segment as a path holds it: no dot segment, and of characters that stand for themselves. -/
structure Settled (segment : List Char) : Prop where
  kept : ∀ c ∈ segment, inSegment c = true
  single : isSingleDot segment = false
  double : isDoubleDot segment = false

theorem settled_nil : Settled [] :=
  ⟨by simp, by decide, by decide⟩

theorem mem_stepBack {segments : List (List Char)} {segment : List Char}
    (h : segment ∈ stepBack segments) : segment ∈ segments := by
  unfold stepBack at h
  split at h
  · exact absurd h List.not_mem_nil
  · split at h
    · exact h
    · exact List.mem_of_mem_dropLast h

theorem settled_append {before : List (List Char)} (hbefore : ∀ segment ∈ before, Settled segment)
    {last : List Char} (hlast : Settled last) :
    ∀ segment ∈ before ++ [last], Settled segment :=
  List.forall_mem_append.mpr ⟨hbefore, List.forall_mem_singleton.mpr hlast⟩

section
variable {before : List (List Char)} (hbefore : ∀ segment ∈ before, Settled segment)
include hbefore

theorem finishPath_settled {last : List Char} (hlast : ∀ c ∈ last, inSegment c = true) :
    ∀ segment ∈ finishPath before last, Settled segment := by
  unfold finishPath
  split_ifs with hdouble hsingle
  · exact settled_append (fun segment h => hbefore segment (mem_stepBack h)) settled_nil
  · exact settled_append hbefore settled_nil
  · exact settled_append hbefore ⟨hlast, by simpa using hsingle, by simpa using hdouble⟩

theorem enterSegment_settled {entered : List Char} (hentered : ∀ c ∈ entered, inSegment c = true) :
    ∀ segment ∈ enterSegment before entered, Settled segment := by
  unfold enterSegment
  split_ifs with hdouble hsingle
  · exact fun segment h => hbefore segment (mem_stepBack h)
  · exact hbefore
  · exact settled_append hbefore ⟨hentered, by simpa using hsingle, by simpa using hdouble⟩

end

theorem finishPath_ne_nil (before : List (List Char)) (last : List Char) :
    finishPath before last ≠ [] := by
  unfold finishPath
  split_ifs <;> simp

/-- Resolving dot segments leaves a path of settled segments. -/
theorem resolvePath_settled {raw : List (List Char)}
    (hraw : ∀ segment ∈ raw, ∀ c ∈ segment, inSegment c = true) :
    ∀ {before}, (∀ segment ∈ before, Settled segment) →
      resolvePath before raw ≠ [] ∧ ∀ segment ∈ resolvePath before raw, Settled segment := by
  induction raw with
  | nil =>
    intro before hbefore
    exact ⟨finishPath_ne_nil _ _, finishPath_settled hbefore (by simp)⟩
  | cons first rest ih =>
    intro before hbefore
    obtain ⟨hfirst, hrest⟩ := List.forall_mem_cons.mp hraw
    cases rest with
    | nil => exact ⟨finishPath_ne_nil _ _, finishPath_settled hbefore hfirst⟩
    | cons next rest => exact ih hrest (enterSegment_settled hbefore hfirst)

theorem not_isSlash_of_mem_splitSlashes {text segment : List Char}
    (h : segment ∈ splitSlashes text) : ∀ c ∈ segment, isSlash c = false := by
  induction text generalizing segment with
  | nil =>
    rw [splitSlashes, List.mem_singleton] at h
    simp [h]
  | cons a text ih =>
    rw [splitSlashes] at h
    split_ifs at h with ha
    · rcases List.mem_cons.mp h with rfl | h
      · simp
      · exact ih h
    · have ha' : isSlash a = false := by simpa using ha
      cases hs : splitSlashes text with
      | nil =>
        rw [hs] at h
        simp only [List.mem_singleton] at h
        simp [h, ha']
      | cons part parts =>
        rw [hs] at h ih
        rcases List.mem_cons.mp h with rfl | h
        · exact List.forall_mem_cons.mpr ⟨ha', ih List.mem_cons_self⟩
        · exact ih (List.mem_cons_of_mem _ h)

/-- The path of an address that was read. -/
theorem parsePath_settled (text : List Char) :
    parsePath text ≠ [] ∧ ∀ segment ∈ parsePath text, Settled segment := by
  refine resolvePath_settled ?_ (by simp)
  intro segment hsegment c hc
  obtain ⟨raw, hraw, rfl⟩ := List.mem_map.mp hsegment
  obtain ⟨a, ha, hca⟩ := List.mem_flatMap.mp hc
  unfold Percent.encodeChar at hca
  split_ifs at hca with hkeep
  · rw [List.mem_singleton.mp hca, inSegment, hkeep]
    simp [not_isSlash_of_mem_splitSlashes hraw a ha]
  · obtain ⟨b, -, hb⟩ := List.mem_flatMap.mp hca
    exact inSegment_of_isEscape (Percent.isEscape_of_mem_encodeByte hb)

/-! ### Adding one value -/

/-- The value without the characters that never count in an address. -/
def heard (value : List Char) : List Char :=
  value.filter (!isIgnored ·)

theorem heard_eq_self {value : List Char} (h : ∀ c ∈ value, isIgnored c = false) :
    heard value = value :=
  List.filter_eq_self.mpr fun c hc => by simp [h c hc]

theorem decodeText_encodeSegment (value : List Char) :
    Percent.decodeText (encodeSegment value) = Utf8.encode (heard value) :=
  Percent.decodeText_encode faithful_keepsSegment _

theorem inSegment_of_mem_encodeSegment (value : List Char) :
    ∀ c ∈ encodeSegment value, inSegment c = true :=
  Percent.forall_mem_encode (fun _ => inSegment_of_keepsSegment) (fun _ => inSegment_of_isEscape)

theorem isSingleDot_encodeSegment (value : List Char) :
    isSingleDot (encodeSegment value) = true ↔ heard value = ['.'] := by
  constructor
  · intro h
    have := decodeText_of_isSingleDot h
    rw [decodeText_encodeSegment] at this
    exact Utf8.encode_injective this
  · intro h
    rw [encodeSegment, ← heard, h]
    decide

theorem isDoubleDot_encodeSegment (value : List Char) :
    isDoubleDot (encodeSegment value) = true ↔ heard value = ['.', '.'] := by
  constructor
  · intro h
    have := decodeText_of_isDoubleDot h
    rw [decodeText_encodeSegment] at this
    exact Utf8.encode_injective this
  · intro h
    rw [encodeSegment, ← heard, h]
    decide

/-- What stands in the path for a value that adds a segment. -/
def written (value : List Char) : List Char :=
  if heard value = ['.'] ∨ heard value = ['.', '.'] then [] else encodeSegment value

/-- Whether a value adds a segment to a path: it is no plain dot segment, and when it sounds like
two dots, the path ends in a drive letter, which is not stepped over. -/
def Adds (path : List (List Char)) (value : List Char) : Prop :=
  value ≠ ['.'] ∧ value ≠ ['.', '.'] ∧
    (heard value = ['.', '.'] → ∃ last, path.getLast? = some last ∧ isDrive last = true)

/-- The segments that a pushed one comes after. -/
def ground (path : List (List Char)) : List (List Char) :=
  if path = [[]] then [] else path

theorem stepBack_append (path : List (List Char)) (last : List Char) :
    stepBack (path ++ [last]) = if isDrive last then path ++ [last] else path := by
  simp [stepBack]

theorem finishPath_encodeSegment (before : List (List Char)) (value : List Char) :
    finishPath before (encodeSegment value) =
      (if heard value = ['.', '.'] then stepBack before else before) ++ [written value] := by
  unfold finishPath written
  by_cases hdouble : heard value = ['.', '.']
  · rw [if_pos ((isDoubleDot_encodeSegment value).mpr hdouble), if_pos hdouble,
      if_pos (Or.inr hdouble)]
  · rw [if_neg (mt (isDoubleDot_encodeSegment value).mp hdouble), if_neg hdouble]
    by_cases hsingle : heard value = ['.']
    · rw [if_pos ((isSingleDot_encodeSegment value).mpr hsingle), if_pos (Or.inl hsingle)]
    · rw [if_neg (mt (isSingleDot_encodeSegment value).mp hsingle),
        if_neg (not_or.mpr ⟨hsingle, hdouble⟩)]

theorem length_stepBack_le (path : List (List Char)) : (stepBack path).length ≤ path.length := by
  unfold stepBack
  split
  · exact Nat.zero_le _
  · split
    · exact le_rfl
    · simp

/-- A value adds one segment at most. -/
theorem length_pushSegment_le (path : List (List Char)) (value : List Char) :
    (pushSegment path value).length ≤ path.length + 1 := by
  unfold pushSegment
  split_ifs with hdots hground
  · exact Nat.le_succ _
  · rw [finishPath_encodeSegment, List.length_append]
    have := length_stepBack_le []
    split_ifs <;> simp_all
  · rw [finishPath_encodeSegment, List.length_append]
    have := length_stepBack_le path
    split_ifs <;> simp_all

/-- A value that adds a segment stands at the end of the path. -/
theorem pushSegment_of_adds {path : List (List Char)} {value : List Char} (h : Adds path value) :
    pushSegment path value = ground path ++ [written value] := by
  obtain ⟨hone, htwo, hback⟩ := h
  rw [pushSegment, if_neg (not_or.mpr ⟨hone, htwo⟩), ← ground, finishPath_encodeSegment]
  split_ifs with hdouble
  · obtain ⟨last, hlast, hdrive⟩ := hback hdouble
    obtain ⟨front, rfl⟩ : ∃ front, path = front ++ [last] := by
      rw [List.getLast?_eq_some_iff] at hlast
      exact hlast
    have hne : front ++ [last] ≠ [[]] := by
      intro h
      have hempty : last = [] := by simpa using congrArg List.getLast? h
      exact absurd hdrive (by rw [hempty]; decide)
    rw [ground, if_neg hne, stepBack_append, if_pos hdrive]
  · rfl

/-- A value that adds no segment leaves the path at most as long as it was. -/
theorem length_pushSegment_of_not_adds {path : List (List Char)} {value : List Char}
    (hne : path ≠ []) (h : ¬ Adds path value) :
    (pushSegment path value).length ≤ path.length := by
  unfold pushSegment
  split_ifs with hdots hground
  · exact le_rfl
  · rw [finishPath_encodeSegment, List.length_append, hground]
    have := length_stepBack_le []
    split_ifs <;> simp_all
  · have hdouble : heard value = ['.', '.'] := by
      by_contra hd
      exact h ⟨fun h1 => hdots (Or.inl h1), fun h2 => hdots (Or.inr h2), fun h => absurd h hd⟩
    obtain ⟨front, last, rfl⟩ : ∃ front last, path = front ++ [last] :=
      ⟨_, _, (List.dropLast_append_getLast hne).symm⟩
    have hdrive : ¬ isDrive last = true := by
      intro hd
      exact h ⟨fun h1 => hdots (Or.inl h1), fun h2 => hdots (Or.inr h2),
        fun _ => ⟨last, by simp, hd⟩⟩
    rw [finishPath_encodeSegment, if_pos hdouble, stepBack_append, if_neg hdrive]
    simp

theorem pushSegment_settled {path : List (List Char)} (h : ∀ segment ∈ path, Settled segment)
    (value : List Char) : ∀ segment ∈ pushSegment path value, Settled segment := by
  unfold pushSegment
  split_ifs
  · exact h
  · exact finishPath_settled (by simp) (inSegment_of_mem_encodeSegment value)
  · exact finishPath_settled h (inSegment_of_mem_encodeSegment value)

theorem pushSegment_ne_nil {path : List (List Char)} (h : path ≠ []) (value : List Char) :
    pushSegment path value ≠ [] := by
  unfold pushSegment
  split_ifs
  · exact h
  · exact finishPath_ne_nil _ _
  · exact finishPath_ne_nil _ _

/-! ### Adding values one after the other -/

theorem foldl_pushSegment_settled {path : List (List Char)}
    (h : ∀ segment ∈ path, Settled segment) (values : List (List Char)) :
    ∀ segment ∈ values.foldl pushSegment path, Settled segment := by
  induction values generalizing path with
  | nil => exact h
  | cons value values ih => exact ih (pushSegment_settled h value)

theorem foldl_pushSegment_ne_nil {path : List (List Char)} (h : path ≠ [])
    (values : List (List Char)) : values.foldl pushSegment path ≠ [] := by
  induction values generalizing path with
  | nil => exact h
  | cons value values ih => exact ih (pushSegment_ne_nil h value)

/-- Every one of the values adds a segment to what the earlier ones left. -/
def AllAdd : List (List Char) → List (List Char) → Prop
  | _, [] => True
  | path, value :: rest => Adds path value ∧ AllAdd (path ++ [written value]) rest

theorem length_foldl_pushSegment_le (path values : List (List Char)) :
    (values.foldl pushSegment path).length ≤ path.length + values.length := by
  induction values generalizing path with
  | nil => simp
  | cons value values ih =>
    have := length_pushSegment_le path value
    have := ih (pushSegment path value)
    simp only [List.foldl_cons, List.length_cons]
    omega

theorem ground_append {path : List (List Char)} (hne : path ≠ []) (segment : List Char) :
    ground (path ++ [segment]) = path ++ [segment] := by
  refine if_neg fun h => ?_
  rcases List.append_eq_singleton_iff.mp h with ⟨h, -⟩ | ⟨-, h⟩
  · exact hne h
  · exact absurd h (by simp)

/-- Values that all add a segment come behind the path, each as it is written. -/
theorem foldl_pushSegment_of_allAdd {path values : List (List Char)} (hne : path ≠ [])
    (hground : ground path = path) (h : AllAdd path values) :
    values.foldl pushSegment path = path ++ values.map written := by
  induction values generalizing path with
  | nil => simp
  | cons value values ih =>
    rw [List.foldl_cons, pushSegment_of_adds h.1, hground,
      ih (by simp) (ground_append hne _) h.2]
    simp

/-- Otherwise the path ends up shorter than the values are many. -/
theorem length_foldl_pushSegment_lt {path values : List (List Char)} (hne : path ≠ [])
    (hground : ground path = path) (h : ¬ AllAdd path values) :
    (values.foldl pushSegment path).length < path.length + values.length := by
  induction values generalizing path with
  | nil => exact absurd trivial h
  | cons value values ih =>
    rw [List.foldl_cons, List.length_cons]
    by_cases hadds : Adds path value
    · have hrest : ¬ AllAdd (path ++ [written value]) values := fun hrest => h ⟨hadds, hrest⟩
      rw [pushSegment_of_adds hadds, hground]
      have := ih (by simp) (ground_append hne _) hrest
      rw [List.length_append, List.length_singleton] at this
      omega
    · have := length_pushSegment_of_not_adds hne hadds
      have := length_foldl_pushSegment_le (pushSegment path value) values
      omega

/-! ### A drive letter in front -/

theorem keepsSegment_of_isAlpha {c : Char} (h : c.isAlpha = true) : keepsSegment c = true := by
  have all : ∀ n < 128, (Char.ofNat n).isAlpha = true → keepsSegment (Char.ofNat n) = true := by
    decide +kernel
  have hlt : c.toNat < 128 := by
    rcases Bool.or_eq_true_iff.mp h with hupper | hlower
    · have hle : c.toNat ≤ 90 := (of_decide_eq_true hupper).2
      omega
    · have hle : c.toNat ≤ 122 := of_decide_eq_true (Bool.and_eq_true_iff.mp hlower).2
      omega
  have := all c.toNat hlt
  rw [Char.ofNat_toNat] at this
  exact this h

theorem keepsSegment_of_isDrive {segment : List Char} (h : isDrive segment = true) :
    ∀ c ∈ segment, keepsSegment c = true := by
  match segment, h with
  | [letter, mark], h =>
    simp only [isDrive, Bool.and_eq_true, Bool.or_eq_true, decide_eq_true_eq] at h
    rw [List.forall_mem_cons, List.forall_mem_singleton]
    refine ⟨keepsSegment_of_isAlpha h.1, ?_⟩
    rcases h.2 with rfl | rfl <;> decide

/-- Kept text is not touched, and nothing else encodes to it. -/
theorem encode_keepsSegment_eq_iff {text segment : List Char}
    (h : ∀ c ∈ segment, keepsSegment c = true) :
    Percent.encode keepsSegment text = segment ↔ text = segment := by
  constructor
  · intro heq
    have hdecode := congrArg Percent.decodeText (heq.trans (Percent.encode_of_all h).symm)
    rw [Percent.decodeText_encode faithful_keepsSegment,
      Percent.decodeText_encode faithful_keepsSegment] at hdecode
    exact Utf8.encode_injective hdecode
  · rintro rfl
    exact Percent.encode_of_all h

/-- A value stands in the path as a drive letter when it sounds like one. -/
theorem isDrive_written (value : List Char) : isDrive (written value) = isDrive (heard value) := by
  unfold written
  split_ifs with hdots
  · rcases hdots with h | h <;> rw [h] <;> decide
  · rw [Bool.eq_iff_iff]
    constructor
    · intro h
      have heq := (encode_keepsSegment_eq_iff (keepsSegment_of_isDrive h)).mp rfl
      rwa [← heq] at h
    · intro h
      have heq := (encode_keepsSegment_eq_iff (keepsSegment_of_isDrive h)).mpr
        (rfl : heard value = heard value)
      rwa [encodeSegment, ← heard, heq]

/-- Behind a written value the next ones add their segments when each of them does so behind the
value in front of it. -/
theorem allAdd_iff (before : List (List Char)) (first : List Char) (values : List (List Char)) :
    AllAdd (before ++ [written first]) values ↔
      ∀ (i : Nat) (last value : List Char), (first :: values)[i]? = some last →
        values[i]? = some value → value ≠ ['.'] ∧ value ≠ ['.', '.'] ∧
          (heard value = ['.', '.'] → isDrive (heard last) = true) := by
  induction values generalizing before first with
  | nil => simp [AllAdd]
  | cons value values ih =>
    have hadds : Adds (before ++ [written first]) value ↔ value ≠ ['.'] ∧ value ≠ ['.', '.'] ∧
        (heard value = ['.', '.'] → isDrive (heard first) = true) := by
      simp [Adds, isDrive_written]
    rw [AllAdd, hadds, ih]
    constructor
    · rintro ⟨hvalue, hrest⟩ i last next hlast hnext
      cases i with
      | zero =>
        obtain rfl : first = last := by simpa using hlast
        obtain rfl : value = next := by simpa using hnext
        exact hvalue
      | succ i => exact hrest i last next (by simpa using hlast) (by simpa using hnext)
    · intro h
      exact ⟨h 0 first value rfl rfl, fun i last next hlast hnext =>
        h (i + 1) last next (by simpa using hlast) (by simpa using hnext)⟩

/-! ### Extending the path of an address -/

/-- The segments without an empty one at the end. -/
def withoutTrailingEmpty (path : List (List Char)) : List (List Char) :=
  if path.getLast? = some [] then path.dropLast else path

theorem dropTrailingEmpty_ne_nil {path : List (List Char)} (h : path ≠ []) :
    dropTrailingEmpty path ≠ [] := by
  unfold dropTrailingEmpty
  split_ifs with hempty
  · simp only [Bool.and_eq_true, decide_eq_true_eq] at hempty
    intro hnil
    have := congrArg List.length hnil
    simp only [List.length_dropLast, List.length_nil] at this
    omega
  · exact h

theorem mem_dropTrailingEmpty {path : List (List Char)} {segment : List Char}
    (h : segment ∈ dropTrailingEmpty path) : segment ∈ path := by
  unfold dropTrailingEmpty at h
  split_ifs at h
  · exact List.mem_of_mem_dropLast h
  · exact h

/-- Nothing but the path is touched. -/
theorem extendPath_eq (base : Url) (values : List (List Char)) :
    base.extendPath values = { base with path := (base.extendPath values).path } := rfl

theorem withoutTrailingEmpty_append (front : List (List Char)) (last : List Char) :
    withoutTrailingEmpty (front ++ [last]) = if last = [] then front else front ++ [last] := by
  simp [withoutTrailingEmpty]

theorem dropTrailingEmpty_append (front : List (List Char)) (last : List Char) :
    dropTrailingEmpty (front ++ [last]) =
      if front ≠ [] ∧ last = [] then front else front ++ [last] := by
  simp [dropTrailingEmpty, List.length_pos_iff]

/-- What an added segment comes behind: of the path of two empty segments nothing is left. -/
theorem ground_dropTrailingEmpty {path : List (List Char)} (hne : path ≠ []) :
    ground (dropTrailingEmpty path) =
      if path = [[], []] then [] else withoutTrailingEmpty path := by
  obtain ⟨front, last, rfl⟩ : ∃ front last, path = front ++ [last] :=
    ⟨_, _, (List.dropLast_append_getLast hne).symm⟩
  rw [withoutTrailingEmpty_append, dropTrailingEmpty_append]
  by_cases hlast : last = []
  · subst hlast
    rcases front with _ | ⟨first, _ | ⟨second, front⟩⟩
    · rfl
    · by_cases hfirst : first = [] <;> simp [ground, hfirst]
    · simp [ground]
  · have hground : ground (front ++ [last]) = front ++ [last] := by
      refine if_neg fun h => hlast ?_
      simpa using congrArg List.getLast? h
    have hpath : front ++ [last] ≠ [[], []] := fun h =>
      hlast (by simpa using congrArg List.getLast? h)
    rw [if_neg (fun h => hlast h.2), if_neg hlast, if_neg hpath, hground]

section
variable {base : Url} {first : List Char} (hfirst : written first ≠ [])
include hfirst

theorem heard_ne_dots : heard first ≠ ['.'] ∧ heard first ≠ ['.', '.'] :=
  not_or.mp fun h => hfirst (if_pos h)

/-- A first value that stands for itself comes behind the path without its trailing slash. -/
theorem extendPath_path (rest : List (List Char)) :
    (base.extendPath (first :: rest)).path =
      rest.foldl pushSegment (ground (dropTrailingEmpty base.path) ++ [written first]) := by
  obtain ⟨hsingle, hdouble⟩ := heard_ne_dots hfirst
  have hadds : Adds (dropTrailingEmpty base.path) first :=
    ⟨fun h => hsingle (by rw [h]; decide), fun h => hdouble (by rw [h]; decide),
      fun h => absurd h hdouble⟩
  rw [extendPath, List.foldl_cons, pushSegment_of_adds hadds]

theorem ground_append_written (front : List (List Char)) :
    ground (front ++ [written first]) = front ++ [written first] :=
  if_neg fun h => hfirst (by simpa using congrArg List.getLast? h)

end

end MeshProbe.Url
