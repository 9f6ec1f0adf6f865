import MeshProbe.Proofs.ClusterRole.Marker
import MeshProbe.Text.Blank

/-!
The mesh's role line by line. Every line without a marker comes out at its place, but not always as
it was: a dropped label that takes its line break along leaves the text in front of it behind,
and that comes to stand in front of the next line.
-/

namespace MeshProbe.Template

/-! ### The markers of the mesh's role -/

namespace Marker

def app : Marker := ⟨"app", false, "app: " ++ accountName⟩

def chart : Marker := ⟨"chart", false, "version: " ++ versionLabel ++ " "⟩

def heritage : Marker := ⟨"heritage", true, ""⟩

def release : Marker := ⟨"release", false, ""⟩

/-- What the markers have in common: their openings begin visibly and stay on a line, and what is
put in their place brings neither line breaks nor closing braces. -/
structure Fits (m : Marker) : Prop where
  no_break : '\n' ∉ m.opening
  not_blank : m.opening.head?.all (!Text.isBlank ·) = true
  plain : ∀ c ∈ m.replacement.toList, c ≠ '\n' ∧ c ≠ '\x7d'

end Marker

open Marker (app chart heritage release put_of_not_standsIn)

theorem istioMarkers_eq : istioMarkers = [app, chart, heritage, release] := rfl

theorem mem_istioMarkers {m : Marker} :
    m ∈ istioMarkers ↔ m = app ∨ m = chart ∨ m = heritage ∨ m = release := by
  simp [istioMarkers_eq]

theorem fits_of_mem : ∀ m ∈ istioMarkers, m.Fits := by
  have hall : (istioMarkers.all fun m => !m.opening.contains '\n' &&
      m.opening.head?.all (!Text.isBlank ·) &&
      m.replacement.toList.all fun c => c != '\n' && c != '\x7d') = true := by decide +kernel
  intro m hm
  obtain ⟨⟨hbreak, hblank⟩, hplain⟩ := by
    simpa only [Bool.and_eq_true] using List.all_eq_true.mp hall m hm
  refine ⟨by simpa using hbreak, hblank, fun c hc => ?_⟩
  simpa using List.all_eq_true.mp hplain c hc

theorem renderIstioChars_eq (template : List Char) :
    renderIstioChars template = release.put (heritage.put (chart.put (app.put template))) := rfl

/-! ### Lines -/

/-- The lines of a text. A line break at its end begins an empty line. -/
def linesOf (text : List Char) : List (List Char) :=
  text.splitOn '\n'

/-- Lines that each end in their line break. -/
def whole (lines : List (List Char)) : List Char :=
  lines.flatMap (· ++ ['\n'])

/-- Lines without line breaks in them. -/
def Unbroken (lines : List (List Char)) : Prop := ∀ line ∈ lines, '\n' ∉ line

theorem whole_cons_append (line : List Char) (lines : List (List Char)) (last : List Char) :
    whole (line :: lines) ++ last = line ++ '\n' :: (whole lines ++ last) := by
  simp [whole]

theorem linesOf_whole_append {lines : List (List Char)} (h : Unbroken lines) {last : List Char}
    (hlast : '\n' ∉ last) : linesOf (whole lines ++ last) = lines ++ [last] := by
  induction lines with
  | nil => exact List.splitOn_eq_singleton hlast
  | cons line lines ih =>
    obtain ⟨hline, hlines⟩ := List.forall_mem_cons.mp h
    rw [whole_cons_append, linesOf, List.splitOn_append_cons_self_of_not_mem hline,
      List.cons_append]
    exact congrArg (line :: ·) (ih hlines)

/-- Every text is made of whole lines and a last one. -/
theorem exists_lines (text : List Char) :
    ∃ lines last, text = whole lines ++ last ∧ Unbroken lines ∧ '\n' ∉ last := by
  induction text with
  | nil => exact ⟨[], [], rfl, by simp [Unbroken], by simp⟩
  | cons c text ih =>
    obtain ⟨lines, last, rfl, hlines, hlast⟩ := ih
    by_cases hc : c = '\n'
    · exact ⟨[] :: lines, last, by simp [whole, hc], by simpa [Unbroken] using hlines, hlast⟩
    · cases lines with
      | nil =>
        exact ⟨[], c :: last, by simp [whole], by simp [Unbroken], by simp [Ne.symm hc, hlast]⟩
      | cons line lines =>
        obtain ⟨hline, hlines⟩ := List.forall_mem_cons.mp hlines
        refine ⟨(c :: line) :: lines, last, by simp [whole], ?_, hlast⟩
        exact List.forall_mem_cons.mpr ⟨by simp [Ne.symm hc, hline], hlines⟩

theorem cut_whole (m : Marker) (lines : List (List Char)) (after : List Char) :
    m.Cut (whole lines) after := by
  left
  rcases List.eq_nil_or_concat lines with rfl | ⟨front, line, rfl⟩
  · simp [whole]
  · simp [whole]

/-! ### One kind of marker on the lines of a text -/

namespace Marker

/-- What is left in front of a marker that a line loses, and what stands there from the place of
the marker on. -/
structure Loses (m : Marker) (line before after : List Char) : Prop where
  start : before <+: line
  first : ¬ m.StandsIn before
  replaced : m.replacement.toList <+: after
  unclosed : Unclosed after
  no_break : '\n' ∉ after

variable {m : Marker} (hm : m.Fits)
include hm

theorem Fits.not_blank_of_reads {c : Char} {rest : List Char} (h : m.Reads (c :: rest)) :
    Text.isBlank c = false := by
  obtain ⟨inner, -, -, htext⟩ := h
  have hfirst := hm.not_blank
  cases hopening : m.opening with
  | nil => simp [opening] at hopening
  | cons d opening =>
    rw [hopening] at htext hfirst
    obtain rfl : c = d := (List.cons.inj htext).1
    simpa using hfirst

theorem Fits.put_break (text : List Char) : m.put ('\n' :: text) = '\n' :: m.put text := by
  refine put_cons_of_not_begins ?_
  rintro ⟨mark, hmark, rest, h⟩
  obtain ⟨c, mark, rfl⟩ := List.exists_cons_of_ne_nil hmark.ne_nil
  obtain ⟨rfl, -⟩ := List.cons.inj h
  exact hmark.no_break hm.no_break List.mem_cons_self

theorem Fits.put_line_append (hend : m.endsLine = false) (line text : List Char) :
    m.put (line ++ '\n' :: text) = m.put line ++ '\n' :: m.put text := by
  have hcut : m.Cut line ('\n' :: text) := Or.inr ⟨hend, by simp [AtBreak]⟩
  rw [put_append hm.no_break hcut, hm.put_break]

section
variable (hend : m.endsLine = false) {line : List Char} (hline : '\n' ∉ line)
include hend hline

/-- A line stays as it is or loses a marker. -/
theorem Fits.put_line_cases :
    (¬ m.StandsIn line ∧ m.put line = line) ∨
    ∃ before after, m.put line = before ++ after ∧ m.Loses line before after := by
  rcases put_line hend hline with h | ⟨before, mark, after, rfl, hmark, hbefore, hafter, hput⟩
  · exact Or.inl h
  · refine Or.inr ⟨before, m.replacement.toList ++ after, by rw [hput, List.append_assoc], ?_⟩
    refine ⟨?_, hbefore, List.prefix_append _ _, hafter.append fun h => (hm.plain _ h).2 rfl, ?_⟩
    · rw [List.append_assoc]
      exact List.prefix_append _ _
    · simp only [List.mem_append, not_or] at hline ⊢
      exact ⟨fun h => (hm.plain _ h).1 rfl, hline.2⟩

theorem Fits.put_no_break : '\n' ∉ m.put line := by
  rcases hm.put_line_cases hend hline with ⟨-, hput⟩ | ⟨before, after, hput, hloses⟩
  · rwa [hput]
  · rw [hput, List.mem_append, not_or]
    exact ⟨fun h => hline (hloses.start.subset h), hloses.no_break⟩

/-- No marker of any kind comes to stand in the line. -/
theorem Fits.standsIn_of_put {k : Marker} (h : k.StandsIn (m.put line)) : k.StandsIn line := by
  rcases hm.put_line_cases hend hline with ⟨-, hput⟩ | ⟨before, after, hput, hloses⟩
  · rwa [hput] at h
  · rw [hput] at h
    exact (h.of_append hloses.unclosed).mono hloses.start.isInfix

/-- No marker of the kind is left in the line. -/
theorem Fits.not_standsIn_put : ¬ m.StandsIn (m.put line) := by
  rcases hm.put_line_cases hend hline with ⟨hnone, hput⟩ | ⟨before, after, hput, hloses⟩
  · rwa [hput]
  · rw [hput]
    exact fun h => hloses.first (h.of_append hloses.unclosed)

/-- A line that got something in place of a marker no longer ends in closing braces. -/
theorem Fits.not_closing_put (hreplacement : m.replacement.toList ≠ []) (h : m.StandsIn line) :
    ¬ closing <:+ m.put line := by
  rcases hm.put_line_cases hend hline with ⟨hnone, -⟩ | ⟨before, after, hput, hloses⟩
  · exact absurd h hnone
  · intro hclosing
    rw [hput] at hclosing
    have hreplaced := hloses.replaced
    rw [eq_nil_of_closing_suffix hclosing hloses.unclosed] at hreplaced
    exact hreplacement (List.prefix_nil.mp hreplaced)

end

/-- Whole lines are rewritten one by one. -/
theorem Fits.put_whole (hend : m.endsLine = false) {lines : List (List Char)}
    (h : Unbroken lines) (text : List Char) :
    m.put (whole lines ++ text) = whole (lines.map m.put) ++ m.put text := by
  induction lines with
  | nil => rfl
  | cons line lines ih =>
    obtain ⟨hline, hlines⟩ := List.forall_mem_cons.mp h
    rw [whole_cons_append, hm.put_line_append hend, ih hlines]
    simp [whole]

end Marker

/-! ### All kinds of markers on the lines of a text -/

theorem fits_app : app.Fits := fits_of_mem _ (by simp [mem_istioMarkers])

theorem fits_chart : chart.Fits := fits_of_mem _ (by simp [mem_istioMarkers])

theorem fits_heritage : heritage.Fits := fits_of_mem _ (by simp [mem_istioMarkers])

theorem fits_release : release.Fits := fits_of_mem _ (by simp [mem_istioMarkers])

/-- What the first two replacements make of a line. -/
def relabel (line : List Char) : List Char :=
  chart.put (app.put line)

/-- What stands in front of the label for which a line loses its end. A line that holds a marker
of the first two kinds ends differently once that has been replaced, and keeps its end. -/
def leftover? (line : List Char) : Option (List Char) :=
  if app.StandsIn line ∨ chart.StandsIn line then none else heritage.before? line

theorem relabel_of_plain {line : List Char} (happ : ¬ app.StandsIn line)
    (hchart : ¬ chart.StandsIn line) : relabel line = line := by
  have hput : app.put line = line := put_of_not_standsIn rfl happ
  rw [relabel, hput, put_of_not_standsIn rfl hchart]

section
variable {line : List Char} (hline : '\n' ∉ line)
include hline

theorem relabel_no_break : '\n' ∉ relabel line :=
  fits_chart.put_no_break rfl (fits_app.put_no_break rfl hline)

/-- A label that was rewritten leaves no closing braces at the end of the line. -/
theorem not_closing_relabel (h : app.StandsIn line ∨ chart.StandsIn line) :
    ¬ closing <:+ relabel line := by
  have hbreak : '\n' ∉ app.put line := fits_app.put_no_break rfl hline
  by_cases hchart : chart.StandsIn (app.put line)
  · exact fits_chart.not_closing_put rfl hbreak (by decide +kernel) hchart
  · rw [relabel, put_of_not_standsIn rfl hchart]
    have happ : app.StandsIn line := by
      by_contra hnone
      rw [put_of_not_standsIn rfl hnone] at hchart
      exact h.elim hnone hchart
    exact fits_app.not_closing_put rfl hline (by decide +kernel) happ

theorem before?_relabel : heritage.before? (relabel line) = leftover? line := by
  unfold leftover?
  split_ifs with h
  · rw [Marker.before?_eq_none_iff]
    rintro ⟨mark, hmark, hsuffix⟩
    exact not_closing_relabel hline h (hmark.closing_suffix.trans hsuffix)
  · obtain ⟨happ, hchart⟩ := not_or.mp h
    rw [relabel_of_plain happ hchart]

end

/-- The lines that come of some lines, when a text is left over in front of the first. -/
def renderLines : List Char → List (List Char) → List (List Char)
  | _, [] => []
  | lead, [last] => [release.put (lead ++ relabel last)]
  | lead, line :: rest =>
    match leftover? line with
    | some left => renderLines (lead ++ left) rest
    | none => release.put (lead ++ relabel line) :: renderLines [] rest

theorem renderLines_cons (lead line : List Char) {rest : List (List Char)} (h : rest ≠ []) :
    renderLines lead (line :: rest) =
      match leftover? line with
      | some left => renderLines (lead ++ left) rest
      | none => release.put (lead ++ relabel line) :: renderLines [] rest := by
  cases rest with
  | nil => exact absurd rfl h
  | cons next rest => rfl

theorem leftover_no_break {line left : List Char} (hline : '\n' ∉ line)
    (h : leftover? line = some left) : '\n' ∉ left := by
  unfold leftover? at h
  split_ifs at h
  obtain ⟨mark, -, rfl, -⟩ := Marker.before?_eq_some h
  exact fun hmem => hline (List.mem_append_left _ hmem)

/-- The last two replacements on relabelled lines, with a text in front that was left over. -/
theorem linesOf_release_heritage {lines : List (List Char)} (hlines : Unbroken lines)
    {last : List Char} (hlast : '\n' ∉ last) {lead : List Char} (hlead : '\n' ∉ lead) :
    linesOf (release.put (lead ++ (heritage.put (whole (lines.map relabel)) ++ relabel last))) =
      renderLines lead (lines ++ [last]) := by
  induction lines generalizing lead with
  | nil =>
    have hline : '\n' ∉ lead ++ relabel last := by
      simp [hlead, relabel_no_break hlast]
    exact List.splitOn_eq_singleton (fits_release.put_no_break rfl hline)
  | cons line lines ih =>
    obtain ⟨hline, hlines⟩ := List.forall_mem_cons.mp hlines
    have hrelabel := relabel_no_break hline
    have hcut : heritage.Cut (relabel line ++ ['\n']) (whole (lines.map relabel)) :=
      Or.inl (by simp)
    have hwhole : whole ((line :: lines).map relabel) =
        relabel line ++ ['\n'] ++ whole (lines.map relabel) := by simp [whole]
    rw [hwhole, Marker.put_append fits_heritage.no_break hcut, Marker.put_line_break rfl hrelabel,
      before?_relabel hline, List.cons_append, renderLines_cons _ _ (by simp)]
    cases hleft : leftover? line with
    | some left =>
      have hlead' : '\n' ∉ lead ++ left := by simp [hlead, leftover_no_break hline hleft]
      have htext : lead ++ (left ++ heritage.replacement.toList ++
          heritage.put (whole (lines.map relabel)) ++ relabel last) =
          lead ++ left ++ (heritage.put (whole (lines.map relabel)) ++ relabel last) := by
        simp [heritage]
      simp only
      rw [htext, ih hlines hlead']
    | none =>
      have hdone : '\n' ∉ lead ++ relabel line := by simp [hlead, hrelabel]
      have htext : lead ++ (relabel line ++ ['\n'] ++ heritage.put (whole (lines.map relabel)) ++
          relabel last) = (lead ++ relabel line) ++ '\n' ::
          ([] ++ (heritage.put (whole (lines.map relabel)) ++ relabel last)) := by simp
      simp only
      rw [htext, fits_release.put_line_append rfl, linesOf,
        List.splitOn_append_cons_self_of_not_mem (fits_release.put_no_break rfl hdone)]
      exact congrArg (_ :: ·) (ih hlines (by simp))

/-- The rewriting of a text, line by line. -/
theorem linesOf_renderIstioChars (template : List Char) :
    linesOf (renderIstioChars template) = renderLines [] (linesOf template) := by
  obtain ⟨lines, last, rfl, hlines, hlast⟩ := exists_lines template
  have hmapped : Unbroken (lines.map app.put) := by
    simp only [Unbroken, List.forall_mem_map]
    exact fun line hline => fits_app.put_no_break rfl (hlines line hline)
  have hrelabel : lines.map (chart.put ∘ app.put) = lines.map relabel := rfl
  have hlast' : heritage.put (relabel last) = relabel last := by
    refine Marker.put_eq_self ?_
    rintro ⟨mark, -, hwithin⟩
    exact relabel_no_break hlast (hwithin.subset (by simp [Marker.ending, heritage]))
  rw [renderIstioChars_eq, fits_app.put_whole rfl hlines, fits_chart.put_whole rfl hmapped,
    List.map_map, hrelabel]
  change linesOf (release.put (heritage.put (_ ++ relabel last))) = _
  rw [Marker.put_append fits_heritage.no_break (cut_whole _ _ _), hlast',
    linesOf_whole_append hlines hlast]
  exact linesOf_release_heritage hlines hlast List.not_mem_nil

/-! ### Lines without markers -/

/-- A line in which no marker stands. -/
def Unmarked (line : List Char) : Prop :=
  ∀ m ∈ istioMarkers, ¬ m.StandsIn line

instance : DecidablePred Unmarked := fun line =>
  inferInstanceAs (Decidable (∀ m ∈ istioMarkers, ¬ m.StandsIn line))

/-- What is left over in front of the line behind some lines. -/
def leadAfter : List Char → List (List Char) → List Char
  | lead, [] => lead
  | lead, line :: rest =>
    match leftover? line with
    | some left => leadAfter (lead ++ left) rest
    | none => leadAfter [] rest

/-- The lines that are finished where some lines end. -/
def finished : List Char → List (List Char) → List (List Char)
  | _, [] => []
  | lead, line :: rest =>
    match leftover? line with
    | some left => finished (lead ++ left) rest
    | none => release.put (lead ++ relabel line) :: finished [] rest

theorem renderLines_append (lead : List Char) (front : List (List Char)) {back : List (List Char)}
    (h : back ≠ []) :
    renderLines lead (front ++ back) =
      finished lead front ++ renderLines (leadAfter lead front) back := by
  induction front generalizing lead with
  | nil => rfl
  | cons line front ih =>
    rw [List.cons_append, renderLines_cons _ _ (by simp [h]), finished, leadAfter]
    cases leftover? line with
    | some left => exact ih _
    | none => exact congrArg (_ :: ·) (ih _)

section
variable {line : List Char} (h : Unmarked line)
include h

theorem Unmarked.relabel_eq : relabel line = line :=
  relabel_of_plain (h _ (by simp [mem_istioMarkers])) (h _ (by simp [mem_istioMarkers]))

theorem Unmarked.leftover_eq : leftover? line = none := by
  unfold leftover?
  split_ifs with hlabel
  · rfl
  · rw [Marker.before?_eq_none_iff]
    rintro ⟨mark, hmark, hsuffix⟩
    exact h heritage (by simp [mem_istioMarkers]) ⟨mark, hmark, hsuffix.isInfix⟩

/-- A line without a marker ends what is left over. -/
theorem Unmarked.renderLines_cons (lead : List Char) (back : List (List Char)) :
    renderLines lead (line :: back) = release.put (lead ++ line) :: renderLines [] back := by
  cases back with
  | nil => simp only [renderLines, h.relabel_eq]
  | cons next back =>
    rw [Template.renderLines_cons _ _ (by simp), h.leftover_eq, h.relabel_eq]

end

/-- Blanks in front of a line complete no marker. -/
theorem standsIn_of_blank_append {m : Marker} (hm : m.Fits) {lead line : List Char}
    (hlead : ∀ c ∈ lead, Text.isBlank c = true) (h : m.StandsIn (lead ++ line)) :
    m.StandsIn line := by
  induction lead with
  | nil => exact h
  | cons c lead ih =>
    obtain ⟨hc, hrest⟩ := List.forall_mem_cons.mp hlead
    obtain ⟨mark, hmark, hwithin⟩ := h
    rcases List.infix_cons_iff.mp hwithin with hbegin | hwithin
    · obtain ⟨d, mark, rfl⟩ := List.exists_cons_of_ne_nil hmark.ne_nil
      obtain ⟨rfl, -⟩ := List.cons_prefix_cons.mp hbegin
      exact absurd (hc.symm.trans (hm.not_blank_of_reads hmark)) (by decide)
    · exact ih hrest ⟨mark, hmark, hwithin⟩

/-- Where nothing is left over in front of lines without markers, these come out unchanged and in
their order. -/
theorem filter_unmarked_sublist {lead : List Char} {lines : List (List Char)}
    (h : ∀ front line back, lines = front ++ line :: back → Unmarked line →
      leadAfter lead front = []) :
    (lines.filter (fun line => Unmarked line)).Sublist (renderLines lead lines) := by
  induction lines generalizing lead with
  | nil => exact List.Sublist.slnil
  | cons line rest ih =>
    by_cases hline : Unmarked line
    · obtain rfl : lead = [] := h [] line rest rfl hline
      have hrest : (rest.filter (fun line => Unmarked line)).Sublist (renderLines [] rest) := by
        refine ih fun front next back heq hnext => ?_
        have := h (line :: front) next back (by rw [heq]; rfl) hnext
        rwa [leadAfter, hline.leftover_eq] at this
      have hkept : release.put line = line :=
        put_of_not_standsIn rfl (hline release (by simp [mem_istioMarkers]))
      rw [hline.renderLines_cons, List.nil_append, hkept, List.filter_cons_of_pos (by simpa)]
      exact hrest.cons_cons _
    · rw [List.filter_cons_of_neg (by simpa)]
      by_cases hne : rest = []
      · simp [hne]
      rw [renderLines_cons _ _ hne]
      cases hleft : leftover? line with
      | some left =>
        refine ih fun front next back heq hnext => ?_
        have := h (line :: front) next back (by rw [heq]; rfl) hnext
        rwa [leadAfter, hleft] at this
      | none =>
        refine List.Sublist.cons _ (ih fun front next back heq hnext => ?_)
        have := h (line :: front) next back (by rw [heq]; rfl) hnext
        rwa [leadAfter, hleft] at this

theorem toList_renderIstio (template : String) :
    (renderIstio template).toList = renderIstioChars template.toList := by
  rw [renderIstio, String.toList_ofList]

/-- Every line without a marker comes out at its place, between what the lines in front of it and
those behind it come to. In front of it stands what dropped labels directly in front left
over: if these are blanks alone, the line is moved by just them. If nothing is left over in
front of such lines, they all come out unchanged and in their order. -/
theorem renderIstio_unmarked_lines (template : String) :
    let lines := linesOf template.toList
    let rendered := linesOf (renderIstio template).toList
    (∀ front line back, lines = front ++ line :: back → Unmarked line →
      rendered =
        finished [] front ++ release.put (leadAfter [] front ++ line) :: renderLines [] back ∧
      ((∀ c ∈ leadAfter [] front, Text.isBlank c = true) →
        release.put (leadAfter [] front ++ line) = leadAfter [] front ++ line)) ∧
    ((∀ front line back, lines = front ++ line :: back → Unmarked line →
        leadAfter [] front = []) →
      (lines.filter (fun line => Unmarked line)).Sublist rendered) := by
  intro lines rendered
  have hrendered : rendered = renderLines [] lines := by
    change linesOf (renderIstio template).toList = _
    rw [toList_renderIstio, linesOf_renderIstioChars]
  refine ⟨?_, ?_⟩
  · intro front line back hsplit hline
    refine ⟨?_, fun hblank => ?_⟩
    · rw [hrendered, hsplit, renderLines_append _ _ (by simp), hline.renderLines_cons]
    · refine put_of_not_standsIn rfl fun hstands => ?_
      exact hline release (by simp [mem_istioMarkers])
        (standsIn_of_blank_append fits_release hblank hstands)
  · intro h
    rw [hrendered]
    exact filter_unmarked_sublist h

/-- Labels in the usual order, where the line behind the dropped label holds a marker itself, and
in another order, where it holds none. -/
theorem renderIstio_unmarked_lines_of_two_orders :
    let usual := "labels:\n  heritage: \x7b\x7ba\x7d\x7d\n  release: \x7b\x7bb\x7d\x7d\nrules: []"
    let other := "labels:\n  heritage: \x7b\x7ba\x7d\x7d\n  tier: mesh"
    ["labels:".toList, "rules: []".toList].Sublist (linesOf (renderIstio usual).toList) ∧
    linesOf (renderIstio other).toList = ["labels:".toList, "    tier: mesh".toList] := by
  intro usual other
  constructor
  · have hleads : ∀ i < (linesOf usual.toList).length, ∀ line ∈ (linesOf usual.toList)[i]?,
        Unmarked line → leadAfter [] ((linesOf usual.toList).take i) = [] := by decide +kernel
    have hunmarked : (linesOf usual.toList).filter (fun line => Unmarked line) =
        ["labels:".toList, "rules: []".toList] := by decide +kernel
    rw [← hunmarked]
    refine (renderIstio_unmarked_lines usual).2 fun front line back hsplit hline => ?_
    have hlt : front.length < (linesOf usual.toList).length := by rw [hsplit]; simp
    have := hleads front.length hlt line (by rw [hsplit]; simp) hline
    rwa [hsplit, List.take_left] at this
  · let front := ["labels:".toList, "  heritage: \x7b\x7ba\x7d\x7d".toList]
    have hsplit : linesOf other.toList = front ++ "  tier: mesh".toList :: [] := by decide +kernel
    have hlead : leadAfter [] front = [' ', ' '] := by decide +kernel
    have hdone : finished [] front = ["labels:".toList] := by decide +kernel
    obtain ⟨hrendered, hblank⟩ := (renderIstio_unmarked_lines other).1 _ _ _ hsplit
      (by decide +kernel)
    have hblanks : ∀ c ∈ leadAfter [] front, Text.isBlank c = true :=
      List.all_eq_true.mp (by rw [hlead]; decide)
    rw [hrendered, hblank hblanks, hlead, hdone]
    decide +kernel

/-- A label of another kind behind the dropped one is moved to the right, and belongs to
something else then. -/
theorem not_kept_behind_heritage :
    let template := "labels:\n  heritage: \x7b\x7b .Service \x7d\x7d\n  tier: mesh\n"
    Unmarked "  tier: mesh".toList ∧ "  tier: mesh".toList ∈ linesOf template.toList ∧
      renderIstio template = "labels:\n    tier: mesh\n" ∧
      ¬ ((linesOf template.toList).filter (fun line => Unmarked line)).Sublist
        (linesOf (renderIstio template).toList) := by
  decide +kernel

end MeshProbe.Template
