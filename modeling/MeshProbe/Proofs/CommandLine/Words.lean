import MeshProbe.CommandLine.Arguments
import MeshProbe.Proofs.Action
import Mathlib.Tactic

/-!
How the words of a command line are read when every parameter is named in the long
form with its value attached. Whatever the values hold, each of them is found under
its name, in the order in which they stand.
-/

namespace MeshProbe.CommandLine

/-! ### One word -/

theorem splitEquals_of_not_mem {name : List Char} (h : '=' ∉ name) (value : List Char) :
    splitEquals (name ++ '=' :: value) = (String.ofList name, some (String.ofList value)) := by
  have hname : ∀ c ∈ name, decide (c ≠ '=') = true := by
    intro c hc
    rw [decide_eq_true_iff]
    rintro rfl
    exact h hc
  unfold splitEquals
  rw [List.dropWhile_append_of_pos hname, List.takeWhile_append_of_pos hname]
  simp

/-- A parameter in the long form, its value attached. -/
def longWord (name value : String) : String :=
  "--" ++ name ++ "=" ++ value

theorem toList_longWord (name value : String) :
    (longWord name value).toList = '-' :: '-' :: (name.toList ++ '=' :: value.toList) := by
  simp [longWord, String.toList_append]

theorem ofString_longWord {name : String} (h : '=' ∉ name.toList) (value : String) :
    Word.ofString (longWord name value) = .long name (some value) := by
  obtain ⟨c, more, heq⟩ : ∃ c more, name.toList ++ '=' :: value.toList = c :: more :=
    List.exists_cons_of_ne_nil (by simp)
  have hsplit : splitEquals (c :: more) = (name, some value) := by
    rw [← heq, splitEquals_of_not_mem h, String.ofList_toList, String.ofList_toList]
  unfold Word.ofString
  rw [toList_longWord, heq]
  simp only [hsplit]

/-- A word in the long form is no command and does not end the parameters. -/
theorem longWord_ne {name value word : String} (h : ¬ ['-', '-'].isPrefixOf word.toList) :
    longWord name value ≠ word := by
  rintro rfl
  exact h (by rw [toList_longWord]; rfl)

/-! ### What is found -/

namespace Found

/-- The values found under a name, none if there are none. -/
def valuesOf (found : List Found) (name : String) : List String :=
  (values? found name).getD []

theorem text?_eq (found : List Found) (name : String) :
    text? found name = (valuesOf found name).getLast? := by
  unfold text? valuesOf
  cases values? found name <;> rfl

theorem valuesOf_cons (f : Found) (found : List Found) (name : String) :
    valuesOf (f :: found) name = if f.parameter.name = name then f.values else
      valuesOf found name := by
  unfold valuesOf values?
  by_cases h : f.parameter.name = name <;> simp [h]

theorem valuesOf_add (p : Parameter) (values : List String) (found : List Found) (name : String) :
    valuesOf (add p values found) name =
      valuesOf found name ++ if p.name = name then values else [] := by
  induction found with
  | nil =>
    rw [add, valuesOf_cons]
    simp [valuesOf, values?]
  | cons f found ih =>
    rw [add]
    split_ifs with hf hname hname
    · simp [valuesOf_cons, hf, hname]
    · simp [valuesOf_cons, hf, hname]
    · have : f.parameter.name ≠ name := fun h => hf (h.trans hname.symm)
      simp [valuesOf_cons, this, ih, hname]
    · by_cases hfn : f.parameter.name = name <;> simp [valuesOf_cons, hfn, ih, hname]

/-- What was found of a parameter that takes values and may stand as often as it does. -/
structure Passes (f : Found) : Prop where
  count : f.parameter.usage = .once → f.count ≤ 1
  switch : f.parameter.usage ≠ .switch
  values : f.values ≠ []
  accepts : ∀ value ∈ f.values, f.parameter.accepts value = true

theorem Passes.check {f : Found} (h : f.Passes) : f.check = .ok () := by
  unfold Found.check
  have hnone : f.values.find? (!f.parameter.accepts ·) = none :=
    List.find?_eq_none.mpr fun value hvalue => by simp [h.accepts value hvalue]
  have hrepeated : ¬ ((f.parameter.usage = .switch ∨ f.parameter.usage = .once) ∧
      1 < f.count) := by
    rintro ⟨hswitch | honce, hmore⟩
    · exact h.switch hswitch
    · exact absurd (h.count honce) (by omega)
  simp [hrepeated, hnone, h.values]

theorem mem_add {p : Parameter} {values : List String} {found : List Found} {f : Found}
    (h : f ∈ add p values found) :
    f ∈ found ∨
    (∃ g ∈ found, g.parameter.name = p.name ∧ f = ⟨p, g.count + 1, g.values ++ values⟩) ∨
    ((∀ g ∈ found, g.parameter.name ≠ p.name) ∧ f = ⟨p, 1, values⟩) := by
  induction found with
  | nil => exact Or.inr (Or.inr ⟨by simp, List.mem_singleton.mp h⟩)
  | cons g found ih =>
    rw [add] at h
    split_ifs at h with hname
    · rcases List.mem_cons.mp h with rfl | h
      · exact Or.inr (Or.inl ⟨g, List.mem_cons_self, hname, rfl⟩)
      · exact Or.inl (List.mem_cons_of_mem _ h)
    · rcases List.mem_cons.mp h with rfl | h
      · exact Or.inl List.mem_cons_self
      · rcases ih h with h | ⟨g', hg', hname', rfl⟩ | ⟨hfresh, rfl⟩
        · exact Or.inl (List.mem_cons_of_mem _ h)
        · exact Or.inr (Or.inl ⟨g', List.mem_cons_of_mem _ hg', hname', rfl⟩)
        · exact Or.inr (Or.inr ⟨List.forall_mem_cons.mpr ⟨hname, hfresh⟩, rfl⟩)

/-- What was found is of known parameters and passes. -/
def AllPass (known : List Parameter) (found : List Found) : Prop :=
  ∀ f ∈ found, f.parameter ∈ known ∧ f.Passes

/-- A value that a parameter accepts is added to what passes: the parameter may stand any number
of times, or did not stand before. -/
theorem AllPass.add {known : List Parameter} {found : List Found} (h : AllPass known found)
    {p : Parameter} {value : String} (haccepts : p.accepts value = true)
    (hswitch : p.usage ≠ .switch)
    (hrepeats : ∀ q ∈ known, q.name = p.name → q = p ∧ p.usage = .many) :
    AllPass (p :: known) (add p [value] found) := by
  intro f hf
  rcases mem_add hf with hf | ⟨g, hg, hname, rfl⟩ | ⟨-, rfl⟩
  · exact ⟨List.mem_cons_of_mem _ (h f hf).1, (h f hf).2⟩
  · obtain ⟨hknown, hpasses⟩ := h g hg
    obtain ⟨hsame, hmany⟩ := hrepeats _ hknown hname
    refine ⟨List.mem_cons_self, ?_, hswitch, by simp, fun v hv => ?_⟩
    · exact fun honce => absurd (hmany.symm.trans honce) (by decide)
    · rcases List.mem_append.mp hv with hv | hv
      · exact hsame ▸ hpasses.accepts v hv
      · exact List.mem_singleton.mp hv ▸ haccepts
  · refine ⟨List.mem_cons_self, fun _ => le_rfl, hswitch, by simp, fun v hv => ?_⟩
    exact List.mem_singleton.mp hv ▸ haccepts

theorem AllPass.mono {known more : List Parameter} {found : List Found}
    (h : AllPass known found) (hsubset : ∀ p ∈ known, p ∈ more) : AllPass more found :=
  fun f hf => ⟨hsubset _ (h f hf).1, (h f hf).2⟩

theorem forM_check {known : List Parameter} {found : List Found} (h : AllPass known found) :
    found.forM Found.check = .ok () := by
  induction found with
  | nil => rfl
  | cons f found ih =>
    obtain ⟨hf, hfound⟩ := List.forall_mem_cons.mp h
    change (f.check >>= fun _ => found.forM check) = .ok ()
    rw [hf.2.check]
    exact ih hfound

end Found

/-- A parameter that may be named any number of times, and one of its values. -/
structure Named where
  parameter : Parameter
  value : String

namespace Named

def word (n : Named) : String := longWord n.parameter.name n.value

/-- The values given under a name. -/
def valuesOf (named : List Named) (name : String) : List String :=
  named.filterMap fun n => if n.parameter.name = name then some n.value else none

def addTo (found : List Found) (n : Named) : List Found :=
  Found.add n.parameter [n.value] found

theorem valuesOf_append (a b : List Named) (name : String) :
    valuesOf (a ++ b) name = valuesOf a name ++ valuesOf b name := by
  simp [valuesOf]

theorem valuesOf_cons (n : Named) (named : List Named) (name : String) :
    valuesOf (n :: named) name =
      (if n.parameter.name = name then [n.value] else []) ++ valuesOf named name := by
  by_cases h : n.parameter.name = name <;> simp [valuesOf, h]

theorem valuesOf_foldl_addTo (named : List Named) (found : List Found) (name : String) :
    Found.valuesOf (named.foldl addTo found) name =
      Found.valuesOf found name ++ valuesOf named name := by
  induction named generalizing found with
  | nil => simp [valuesOf]
  | cons n named ih =>
    rw [List.foldl_cons, ih, addTo, Found.valuesOf_add, valuesOf_cons, List.append_assoc]

/-- Values of parameters that may stand any number of times are added to what passes. -/
theorem allPass_foldl_addTo {known : List Parameter} {named : List Named} {found : List Found}
    (hfound : Found.AllPass known found)
    (hnamed : ∀ n ∈ named, n.parameter ∈ known ∧ n.parameter.usage = .many ∧
      n.parameter.accepts n.value = true)
    (hnames : ∀ p ∈ known, ∀ q ∈ known, p.name = q.name → p = q) :
    Found.AllPass known (named.foldl addTo found) := by
  induction named generalizing found with
  | nil => exact hfound
  | cons n named ih =>
    obtain ⟨⟨hknown, hmany, haccepts⟩, hrest⟩ := List.forall_mem_cons.mp hnamed
    refine ih ((hfound.add haccepts (by rw [hmany]; decide) fun q hq hname =>
      ⟨hnames q hq _ hknown hname, hmany⟩).mono fun p hp => ?_) hrest
    rcases List.mem_cons.mp hp with rfl | hp
    · exact hknown
    · exact hp

end Named

/-! ### Reading the words -/

namespace Grammar

variable {g : Grammar}

/-- A parameter of the grammar that takes a value and is checked at the end. -/
structure Takes (g : Grammar) (p : Parameter) : Prop where
  found : g.parameters.find? (·.name == p.name) = some p
  name : '=' ∉ p.name.toList
  switch : p.usage ≠ .switch
  latest : p.usage ≠ .latest

/-- A parameter with its value is added to what was found. -/
theorem readWord_longWord {p : Parameter} (hp : g.Takes p) (value : String) {r : Reading}
    (hpending : r.pending = .nothing) :
    g.readWord (longWord p.name value) r =
      .ok { r with found := Found.add p [value] r.found } := by
  unfold readWord
  rw [ofString_longWord hp.name]
  have hsettle : r.settle = .ok r := by rw [Reading.settle, hpending]
  have hname : r.name p (longWord p.name value) (some value) =
      .ok { r with found := Found.add p [value] r.found } := by
    have htake : r.take p [value] = .ok { r with found := Found.add p [value] r.found } :=
      if_neg hp.latest
    unfold Reading.name
    cases husage : p.usage with
    | switch => exact absurd husage hp.switch
    | once | many | latest =>
      simp only [hsettle]
      exact htake
  simp only [readLong, hp.found, hname]

/-- Parameters with their values are read one after the other. -/
theorem readWords_named {named : List Named} (hnamed : ∀ n ∈ named, g.Takes n.parameter)
    (hcommands : ∀ command ∈ g.commands, ¬ ['-', '-'].isPrefixOf command.toList)
    (words : List String) {r : Reading} (hpending : r.pending = .nothing) :
    g.readWords (named.map Named.word ++ words) r =
      g.readWords words { r with found := named.foldl Named.addTo r.found } := by
  induction named generalizing r with
  | nil => rfl
  | cons n named ih =>
    obtain ⟨hn, hnamed⟩ := List.forall_mem_cons.mp hnamed
    have hcommand : g.commands.contains n.word = false := by
      rw [List.contains_eq_mem, decide_eq_false_iff_not]
      exact fun hmem => longWord_ne (hcommands _ hmem) rfl
    have hword : n.word ≠ "--" := by
      intro h
      have := congrArg String.toList h
      rw [Named.word, toList_longWord] at this
      simp at this
    rw [List.map_cons, List.cons_append, readWords, hcommand, if_neg (by simp), if_neg hword,
      Named.word, readWord_longWord hn n.value hpending]
    exact ih hnamed hpending

/-- With nothing pending, nothing missing and nothing excluded, what was found is what it comes
to. -/
theorem finish_eq {r : Reading} (hasCommand : Bool) (hpending : r.pending = .nothing)
    (hcommand : g.commands = [] ∨ hasCommand = true) (hexclusive : g.exclusive = [])
    (hoperand : g.operand = none ∨ r.hasOperand = true)
    {known : List Parameter} (hpass : Found.AllPass known r.found) :
    g.finish r hasCommand = .ok r.found := by
  have hsettle : r.settle = .ok r := by rw [Reading.settle, hpending]
  have hend : checkEnd r.found r.pending = .ok () := by
    rw [hpending]
    rfl
  have hmissing : ¬ (!g.commands.isEmpty && !hasCommand) = true := by
    rcases hcommand with h | h <;> simp [h]
  have hpairs : checkExclusive r.found g.exclusive = .ok () := by
    rw [hexclusive]
    rfl
  have hoperand : g.checkOperand r = .ok () := by
    unfold checkOperand
    rcases hoperand with h | h
    · rw [h]
    · cases g.operand <;> simp [h]
  unfold finish
  simp only [hsettle, bind, Except.bind, hend, hmissing, hpairs, hoperand,
    Found.forM_check hpass]
  rfl

end Grammar

end MeshProbe.CommandLine
