import MeshProbe.Proofs.ClusterRole.Lines

/-!
What a rendered role of the mesh holds: no marker is left in it, and rendering it once more changes
nothing. Where labels that are dropped with their line breaks have blanks alone in front of them,
no replacement makes a marker that an earlier one would have found.
-/

namespace MeshProbe.Template

open Marker (app chart heritage release)

/-! ### Markers in the lines of a text -/

/-- What holds no line break lies on one side of each. -/
theorem infix_of_infix_break {text line rest : List Char} (htext : '\n' ∉ text)
    (h : text <:+: line ++ '\n' :: rest) : text <:+: line ∨ text <:+: rest := by
  rcases List.infix_append_iff.mp h with h | h | ⟨left, right, rfl, hleft, hright⟩
  · exact Or.inl h
  · refine (List.infix_cons_iff.mp h).imp (fun hbegin => ?_) id
    cases text with
    | nil => exact List.nil_infix
    | cons c text =>
      obtain ⟨rfl, -⟩ := List.cons_prefix_cons.mp hbegin
      exact absurd List.mem_cons_self htext
  · cases right with
    | nil => exact Or.inl (by simpa using hleft.isInfix)
    | cons c right =>
      obtain ⟨rfl, -⟩ := List.cons_prefix_cons.mp hright
      exact absurd (by simp) htext

/-- What is followed by a line break ends a line. -/
theorem suffix_of_infix_break {text line rest : List Char} (htext : '\n' ∉ text)
    (hline : '\n' ∉ line) (h : text ++ ['\n'] <:+: line ++ '\n' :: rest) :
    text <:+ line ∨ text ++ ['\n'] <:+: rest := by
  rcases List.infix_append_iff.mp h with h | h | ⟨left, right, heq, hleft, hright⟩
  · exact absurd (h.subset (by simp)) hline
  · refine (List.infix_cons_iff.mp h).imp (fun hbegin => ?_) id
    cases text with
    | nil => exact List.nil_suffix
    | cons c text =>
      obtain ⟨rfl, -⟩ := List.cons_prefix_cons.mp hbegin
      exact absurd List.mem_cons_self htext
  · cases right with
    | nil =>
      rw [List.append_nil] at heq
      exact absurd (hleft.subset (heq ▸ by simp)) hline
    | cons c right =>
      obtain ⟨rfl, -⟩ := List.cons_prefix_cons.mp hright
      obtain ⟨rfl, -, -⟩ := (List.append_cons_inj_of_notMem htext (by simp)).mp heq
      exact Or.inl hleft

section
variable {m : Marker} (hm : m.Fits) {lines : List (List Char)} {last : List Char}
include hm

/-- A marker stands in one of the lines. -/
theorem standsIn_line_of_occurs (hend : m.endsLine = false) (h : m.Occurs (whole lines ++ last)) :
    ∃ line ∈ lines ++ [last], m.StandsIn line := by
  rw [← Marker.standsIn_iff_occurs hend] at h
  induction lines with
  | nil => exact ⟨last, by simp, h⟩
  | cons line lines ih =>
    obtain ⟨mark, hmark, hwithin⟩ := h
    rw [whole_cons_append] at hwithin
    rcases infix_of_infix_break (hmark.no_break hm.no_break) hwithin with hwithin | hwithin
    · exact ⟨line, by simp, mark, hmark, hwithin⟩
    · obtain ⟨next, hnext, hstands⟩ := ih ⟨mark, hmark, hwithin⟩
      exact ⟨next, List.mem_cons_of_mem _ hnext, hstands⟩

/-- A marker with its line break ends one of the whole lines. -/
theorem ends_line_of_occurs (hend : m.endsLine = true) (hlines : Unbroken lines)
    (hlast : '\n' ∉ last) (h : m.Occurs (whole lines ++ last)) : ∃ line ∈ lines, m.Ends line := by
  obtain ⟨mark, hmark, hwithin⟩ := h
  rw [Marker.ending, hend, if_pos rfl] at hwithin
  induction lines with
  | nil => exact absurd (hwithin.subset (by simp)) hlast
  | cons line lines ih =>
    obtain ⟨hline, hlines⟩ := List.forall_mem_cons.mp hlines
    rw [whole_cons_append] at hwithin
    rcases suffix_of_infix_break (hmark.no_break hm.no_break) hline hwithin with hsuffix | hwithin
    · exact ⟨line, by simp, mark, hmark, hsuffix⟩
    · obtain ⟨next, hnext, hends⟩ := ih hlines hwithin
      exact ⟨next, List.mem_cons_of_mem _ hnext, hends⟩

end

/-! ### One line of the result -/

/-- A marker and one of another kind behind it read as a marker of the first kind. -/
theorem reads_append {m k : Marker} (hk : k.Fits) {mark behind : List Char} (hmark : m.Reads mark)
    (hbehind : k.Reads behind) : m.Reads (mark ++ behind) := by
  have hbreak : '\n' ∉ behind := hbehind.no_break hk.no_break
  obtain ⟨inner, hne, hinner, rfl⟩ := hmark
  obtain ⟨other, -, -, rfl⟩ := hbehind
  refine ⟨inner ++ closing ++ k.opening ++ other, by simp [hne], ?_, by simp⟩
  simp only [List.mem_append, not_or] at hbreak ⊢
  exact ⟨⟨⟨hinner, by decide⟩, hbreak.1.1⟩, hbreak.1.2⟩

theorem ends_of_blank_append {m : Marker} (hm : m.Fits) {lead line : List Char}
    (hlead : ∀ c ∈ lead, Text.isBlank c = true) (h : m.Ends (lead ++ line)) : m.Ends line := by
  induction lead with
  | nil => exact h
  | cons c lead ih =>
    obtain ⟨hc, hrest⟩ := List.forall_mem_cons.mp hlead
    rcases Marker.ends_cons_iff.mp h with hreads | hends
    · exact absurd (hc.symm.trans (hm.not_blank_of_reads hreads)) (by decide)
    · exact ih hrest hends

section
variable {lead line : List Char} (hblank : ∀ c ∈ lead, Text.isBlank c = true)
  (hlead : '\n' ∉ lead) (hline : '\n' ∉ line)
include hblank hlead hline

/-- No marker that stays on its line is left in a line of the result. -/
theorem not_standsIn_rendered {m : Marker} (hm : m ∈ istioMarkers) (hend : m.endsLine = false) :
    ¬ m.StandsIn (release.put (lead ++ relabel line)) := by
  have hbreak : '\n' ∉ lead ++ relabel line := by simp [hlead, relabel_no_break hline]
  have happ : '\n' ∉ app.put line := fits_app.put_no_break rfl hline
  have back {k : Marker} (hk : k.Fits) (h : k.StandsIn (release.put (lead ++ relabel line))) :
      k.StandsIn (chart.put (app.put line)) :=
    standsIn_of_blank_append hk hblank (fits_release.standsIn_of_put rfl hbreak h)
  rcases mem_istioMarkers.mp hm with rfl | rfl | rfl | rfl
  · intro h
    exact fits_app.not_standsIn_put rfl hline
      (fits_chart.standsIn_of_put rfl happ (back fits_app h))
  · intro h
    exact fits_chart.not_standsIn_put rfl happ (back fits_chart h)
  · exact absurd hend (by decide)
  · exact fits_release.not_standsIn_put rfl hbreak

/-- A line that keeps its end does not come to end with a label that is dropped. -/
theorem not_ends_rendered (hkept : leftover? line = none) :
    ¬ heritage.Ends (release.put (lead ++ relabel line)) := by
  have hnone : ¬ heritage.Ends (lead ++ relabel line) := by
    intro h
    rw [← before?_relabel hline, Marker.before?_eq_none_iff] at hkept
    exact hkept (ends_of_blank_append fits_heritage hblank h)
  have hbreak : '\n' ∉ lead ++ relabel line := by simp [hlead, relabel_no_break hline]
  rcases Marker.put_line (m := release) rfl hbreak with
    ⟨-, hput⟩ | ⟨before, found, after, htext, hfound, -, hafter, hput⟩
  · rwa [hput]
  · -- What ended the line now would have ended it together with the marker behind it.
    rintro ⟨mark, hmark, hsuffix⟩
    have hempty : release.replacement.toList = [] := by decide +kernel
    rw [hput, hempty, List.append_nil] at hsuffix
    obtain rfl := eq_nil_of_closing_suffix (hmark.closing_suffix.trans hsuffix) hafter
    obtain ⟨front, rfl⟩ : mark <:+ before := by simpa using hsuffix
    refine hnone ⟨mark ++ found, reads_append fits_release hmark hfound, front, ?_⟩
    rw [htext]
    simp

end

/-! ### The whole result -/

/-- Each label that is dropped with its line break has blanks alone in front of it. -/
def BlankBeforeDrops (lines : List (List Char)) : Prop :=
  ∀ line ∈ lines.dropLast, heritage.Ends line →
    ∃ before mark, line = before ++ mark ∧ heritage.Reads mark ∧
      ∀ c ∈ before, Text.isBlank c = true

theorem BlankBeforeDrops.tail {line : List Char} {rest : List (List Char)} (hne : rest ≠ [])
    (h : BlankBeforeDrops (line :: rest)) : BlankBeforeDrops rest := by
  intro next hnext
  refine h next ?_
  rw [List.dropLast_cons_of_ne_nil hne]
  exact List.mem_cons_of_mem _ hnext

/-- What such a label leaves over is blank. -/
theorem BlankBeforeDrops.leftover {line left : List Char} {rest : List (List Char)}
    (hne : rest ≠ []) (h : BlankBeforeDrops (line :: rest)) (hleft : leftover? line = some left) :
    ∀ c ∈ left, Text.isBlank c = true := by
  unfold leftover? at hleft
  split_ifs at hleft
  obtain ⟨mark, hmark, rfl, hfirst⟩ := Marker.before?_eq_some hleft
  obtain ⟨before, other, heq, hother, hblank⟩ := h (left ++ mark)
    (by rw [List.dropLast_cons_of_ne_nil hne]; exact List.mem_cons_self)
    ⟨mark, hmark, List.suffix_append _ _⟩
  exact fun c hc => hblank c ((hfirst before other hother heq).subset hc)

/-- Lines in which no replacement finds anything. -/
structure Settled (lines : List (List Char)) : Prop where
  unmarked : ∀ line ∈ lines, ∀ m ∈ istioMarkers, m.endsLine = false → ¬ m.StandsIn line
  kept : ∀ line ∈ lines.dropLast, ¬ heritage.Ends line

theorem renderLines_ne_nil {lead : List Char} {lines : List (List Char)} (h : lines ≠ []) :
    renderLines lead lines ≠ [] := by
  induction lines generalizing lead with
  | nil => exact absurd rfl h
  | cons line rest ih =>
    by_cases hne : rest = []
    · simp [hne, renderLines]
    · rw [renderLines_cons _ _ hne]
      cases leftover? line with
      | some left => exact ih hne
      | none => simp

theorem renderLines_settled {lines : List (List Char)} (hlines : Unbroken lines)
    (hdrops : BlankBeforeDrops lines) {lead : List Char}
    (hblank : ∀ c ∈ lead, Text.isBlank c = true) (hlead : '\n' ∉ lead) :
    Settled (renderLines lead lines) := by
  induction lines generalizing lead with
  | nil => exact ⟨by simp [renderLines], by simp [renderLines]⟩
  | cons line rest ih =>
    obtain ⟨hline, hrest⟩ := List.forall_mem_cons.mp hlines
    have hunmarked : ∀ m ∈ istioMarkers, m.endsLine = false →
        ¬ m.StandsIn (release.put (lead ++ relabel line)) :=
      fun _ hm hend => not_standsIn_rendered hblank hlead hline hm hend
    by_cases hne : rest = []
    · subst hne
      exact ⟨by simpa [renderLines] using hunmarked, by simp [renderLines]⟩
    · rw [renderLines_cons _ _ hne]
      cases hleft : leftover? line with
      | some left =>
        have hblank' := List.forall_mem_append.mpr ⟨hblank, hdrops.leftover hne hleft⟩
        have hlead' : '\n' ∉ lead ++ left := by simp [hlead, leftover_no_break hline hleft]
        exact ih hrest (hdrops.tail hne) hblank' hlead'
      | none =>
        have hnothing : ∀ c ∈ ([] : List Char), Text.isBlank c = true := by simp
        obtain ⟨hnext, hkept⟩ := ih hrest (hdrops.tail hne) hnothing (by simp)
        have hends := not_ends_rendered hblank hlead hline hleft
        refine ⟨List.forall_mem_cons.mpr ⟨hunmarked, hnext⟩, ?_⟩
        simp only
        rw [List.dropLast_cons_of_ne_nil (renderLines_ne_nil hne)]
        exact List.forall_mem_cons.mpr ⟨hends, hkept⟩

/-- In a text of settled lines no replacement finds anything. -/
theorem not_occurs_of_settled {text : List Char} (h : Settled (linesOf text)) :
    ∀ m ∈ istioMarkers, ¬ m.Occurs text := by
  obtain ⟨lines, last, rfl, hlines, hlast⟩ := exists_lines text
  rw [linesOf_whole_append hlines hlast] at h
  intro m hm hoccurs
  have hfits := fits_of_mem m hm
  cases hend : m.endsLine with
  | false =>
    obtain ⟨line, hline, hstands⟩ := standsIn_line_of_occurs hfits hend hoccurs
    exact h.unmarked line hline m hm hend hstands
  | true =>
    obtain rfl : m = heritage := by
      rcases mem_istioMarkers.mp hm with rfl | rfl | rfl | rfl
      · exact absurd hend (by decide)
      · exact absurd hend (by decide)
      · rfl
      · exact absurd hend (by decide)
    obtain ⟨line, hline, hends⟩ := ends_line_of_occurs hfits hend hlines hlast hoccurs
    exact h.kept line (by simpa using hline) hends

theorem renderIstioChars_eq_self {text : List Char} (h : ∀ m ∈ istioMarkers, ¬ m.Occurs text) :
    renderIstioChars text = text := by
  have hput : ∀ m ∈ istioMarkers, m.put text = text := fun m hm => Marker.put_eq_self (h m hm)
  rw [istioMarkers_eq] at hput
  simp only [List.forall_mem_cons] at hput
  obtain ⟨happ, hchart, hheritage, hrelease, -⟩ := hput
  rw [renderIstioChars_eq, happ, hchart, hheritage, hrelease]

/-- If each label that is dropped with its line break has blanks alone in front of it, no marker
is left in the rendered role, and rendering that again gives it back. -/
theorem renderIstio_settles (template : String)
    (h : BlankBeforeDrops (linesOf template.toList)) :
    (∀ m ∈ istioMarkers, ¬ m.Occurs (renderIstio template).toList) ∧
      renderIstio (renderIstio template) = renderIstio template := by
  have hunbroken : Unbroken (linesOf template.toList) := by
    obtain ⟨lines, last, htext, hlines, hlast⟩ := exists_lines template.toList
    rw [htext, linesOf_whole_append hlines hlast]
    exact List.forall_mem_append.mpr ⟨hlines, by simpa using hlast⟩
  have hsettled : Settled (linesOf (renderIstio template).toList) := by
    rw [toList_renderIstio, linesOf_renderIstioChars]
    exact renderLines_settled hunbroken h (by simp) (by simp)
  have hnone := not_occurs_of_settled hsettled
  refine ⟨hnone, ?_⟩
  rw [renderIstio, renderIstioChars_eq_self hnone, String.ofList_toList]

/-- Several markers on a line, braces within them, and two dropped labels in a row. -/
theorem renderIstio_settles_of_crowd :
    let template := "a: 1\n  heritage: \x7b\x7bb\x7d\x7d release: \x7b\x7bc\x7d\x7d\n" ++
      "\theritage: \x7b\x7bd\x7d\x7d\n app: \x7b\x7be\x7d\x7d chart: \x7b\x7bf\x7d\x7d\x7d\n"
    BlankBeforeDrops (linesOf template.toList) ∧
      (∀ m ∈ istioMarkers, ¬ m.Occurs (renderIstio template).toList) ∧
      renderIstio (renderIstio template) = renderIstio template := by
  intro template
  have hblank : BlankBeforeDrops (linesOf template.toList) := by
    have hlines : (linesOf template.toList).dropLast =
        ["a: 1".toList, "  heritage: \x7b\x7bb\x7d\x7d release: \x7b\x7bc\x7d\x7d".toList,
          "\theritage: \x7b\x7bd\x7d\x7d".toList,
          " app: \x7b\x7be\x7d\x7d chart: \x7b\x7bf\x7d\x7d\x7d".toList] := by decide +kernel
    intro line hline
    rw [hlines] at hline
    simp only [List.mem_cons, List.not_mem_nil, or_false] at hline
    rcases hline with rfl | rfl | rfl | rfl
    · intro h
      exact absurd h (Marker.before?_eq_none_iff.mp (by decide +kernel))
    · exact fun _ => ⟨"  ".toList,
        "heritage: \x7b\x7bb\x7d\x7d release: \x7b\x7bc\x7d\x7d".toList,
        by decide, by decide +kernel, List.all_eq_true.mp (by decide)⟩
    · exact fun _ => ⟨"\t".toList, "heritage: \x7b\x7bd\x7d\x7d".toList,
        by decide, by decide +kernel, List.all_eq_true.mp (by decide)⟩
    · intro h
      exact absurd h (Marker.before?_eq_none_iff.mp (by decide +kernel))
  exact ⟨hblank, renderIstio_settles template hblank⟩

end MeshProbe.Template
