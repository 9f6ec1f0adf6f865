import MeshProbe.Proofs.CommandLine.Words

/-!
The command line that asks an operation: the environment file, the operation, its
parameters in any order and the expected status. It is read as just that, each
parameter split at its first equals sign.
-/

namespace MeshProbe.CommandLine

open Command (call)

/-! ### Values -/

/-- A count is read back from its digits. -/
theorem readCount_toString {limit n : Nat} (h : n ≤ limit) :
    readCount limit (toString n) = some n := by
  have hlist : (toString n).toList = Nat.toDigits 10 n := String.toList_ofList
  have hdigits : ∀ c ∈ Nat.toDigits 10 n, c.isDigit = true :=
    fun c hc => Nat.isDigit_of_mem_toDigits (by decide) (by decide) hc
  have hvalue : (Nat.toDigits 10 n).foldl (fun n c => n * 10 + (c.toNat - 48)) 0 = n := by
    have hcomm : (fun (n : Nat) (c : Char) => n * 10 + (c.toNat - 48)) =
        fun n c => 10 * n + (c.toNat - '0'.toNat) := by
      funext n c
      rw [Nat.mul_comm]
      rfl
    rw [hcomm]
    exact Nat.ofDigitChars_toDigits (by decide) (by decide)
  obtain ⟨first, more, heq⟩ := List.exists_cons_of_ne_nil (Nat.toDigits_ne_nil (n := n) (b := 10))
  rw [heq] at hlist hdigits hvalue
  have hplus : first ≠ '+' := by
    rintro rfl
    exact absurd (hdigits '+' List.mem_cons_self) (by decide)
  unfold readCount
  rw [hlist]
  split
  · next hsign => exact absurd (List.cons.inj hsign).1 hplus
  · simp only [hvalue, List.all_eq_true.mpr hdigits]
    exact if_pos ⟨by simp, trivial, h⟩

/-- A pair is split at its first equals sign. -/
theorem readPair_of_not_mem {key : String} (h : '=' ∉ key.toList) (value : String) :
    readPair (key ++ "=" ++ value) = some (key, value) := by
  have hlist : (key ++ "=" ++ value).toList = key.toList ++ '=' :: value.toList := by
    simp [String.toList_append]
  rw [readPair, hlist, splitEquals_of_not_mem h, String.ofList_toList, String.ofList_toList]

theorem readOperation_name (op : Operation) : readOperation op.name = some op := by
  cases op <;> decide +kernel

/-- The name of an operation is a plain word. -/
theorem ofString_name (op : Operation) : Word.ofString op.name = .plain := by
  cases op <;> rfl

/-! ### The words -/

/-- A parameter of an operation as the command line gives it. -/
inductive CallOption
  | path (key value : String)
  | query (key value : String)
  deriving DecidableEq, Repr

namespace CallOption

def key : CallOption → String
  | path key _ => key
  | query key _ => key

def toPath : CallOption → Option (String × String)
  | path key value => some (key, value)
  | query _ _ => none

def toQuery : CallOption → Option (String × String)
  | path _ _ => none
  | query key value => some (key, value)

def word : CallOption → String
  | path key value => "--path=" ++ key ++ "=" ++ value
  | query key value => "--param=" ++ key ++ "=" ++ value

theorem key_of_toPath {o : CallOption} {pair : String × String} (h : o.toPath = some pair) :
    o.key = pair.1 := by
  cases o with
  | path key value => exact congrArg Prod.fst (Option.some.inj h)
  | query key value => exact absurd h nofun

theorem key_of_toQuery {o : CallOption} {pair : String × String} (h : o.toQuery = some pair) :
    o.key = pair.1 := by
  cases o with
  | path key value => exact absurd h nofun
  | query key value => exact congrArg Prod.fst (Option.some.inj h)

end CallOption

/-- The words that ask an operation, with a status to expect if one is named. -/
def callWords (file : String) (op : Operation) (options : List CallOption)
    (expected : Option Nat) : List String :=
  ["--env-file=" ++ file, "call", op.name] ++ options.map CallOption.word ++
    (expected.map fun code => "--expect-status=" ++ toString code).toList

/-! ### Reading the command -/

def pathParameter : Parameter := .reading .many readPair "path"

def queryParameter : Parameter := .reading .many readPair "param"

def statusParameter : Parameter := .reading .once (readCount maxStatus) "expect-status"

def operationParameter : Parameter := .reading .once readOperation "METHOD"

def pairText (pair : String × String) : String := pair.1 ++ "=" ++ pair.2

def CallOption.toNamed : CallOption → Named
  | path key value => ⟨pathParameter, pairText (key, value)⟩
  | query key value => ⟨queryParameter, pairText (key, value)⟩

/-- The parameters behind the operation, the status last. -/
def namedOf (options : List CallOption) (expected : Option Nat) : List Named :=
  options.map CallOption.toNamed ++
    (expected.map fun code => ⟨statusParameter, toString code⟩).toList

theorem CallOption.word_eq (o : CallOption) : o.word = o.toNamed.word := by
  cases o <;>
    · apply String.toList_inj.mp
      simp [CallOption.word, CallOption.toNamed, Named.word, longWord, pairText, pathParameter,
        queryParameter, Parameter.reading, String.toList_append]

theorem callWords_eq (file : String) (op : Operation) (options : List CallOption)
    (expected : Option Nat) :
    callWords file op options expected =
      longWord "env-file" file :: "call" :: op.name ::
        (namedOf options expected).map Named.word := by
  have hstatus : ∀ code : Nat, "--expect-status=" ++ toString code =
      Named.word ⟨statusParameter, toString code⟩ := by
    intro code
    apply String.toList_inj.mp
    simp [Named.word, longWord, statusParameter, Parameter.reading, String.toList_append]
  have hfile : "--env-file=" ++ file = longWord "env-file" file := by
    apply String.toList_inj.mp
    simp [longWord, String.toList_append]
  have hoptions : options.map CallOption.word =
      (options.map CallOption.toNamed).map Named.word := by
    rw [List.map_map]
    exact List.map_congr_left fun o _ => o.word_eq
  rw [callWords, namedOf, List.map_append, ← hoptions, hfile]
  cases expected with
  | none => rfl
  | some code =>
    simp only [Option.map_some, Option.toList_some, List.map_cons, List.map_nil, ← hstatus]
    rfl

theorem call_takes {p : Parameter} (hp : p ∈ CommandForm.call.grammar.parameters) :
    CommandForm.call.grammar.Takes p := by
  change p ∈ [pathParameter, queryParameter, statusParameter] at hp
  simp only [List.mem_cons, List.not_mem_nil, or_false] at hp
  rcases hp with rfl | rfl | rfl <;> exact ⟨rfl, by decide, nofun, nofun⟩

theorem mem_namedOf {options : List CallOption} {expected : Option Nat} {n : Named}
    (h : n ∈ namedOf options expected) :
    (∃ o ∈ options, n = o.toNamed) ∨ ∃ code ∈ expected, n = ⟨statusParameter, toString code⟩ := by
  rcases List.mem_append.mp h with h | h
  · obtain ⟨o, ho, rfl⟩ := List.mem_map.mp h
    exact Or.inl ⟨o, ho, rfl⟩
  · cases expected with
    | none => exact absurd h List.not_mem_nil
    | some code => exact Or.inr ⟨code, rfl, List.mem_singleton.mp h⟩

theorem namedOf_takes (options : List CallOption) (expected : Option Nat) :
    ∀ n ∈ namedOf options expected, CommandForm.call.grammar.Takes n.parameter := by
  intro n hn
  refine call_takes ?_
  rcases mem_namedOf hn with ⟨o, -, rfl⟩ | ⟨code, -, rfl⟩
  · cases o
    · exact List.mem_cons_self
    · exact List.mem_cons_of_mem _ List.mem_cons_self
  · exact List.mem_cons_of_mem _ (List.mem_cons_of_mem _ List.mem_cons_self)

/-- What the words of the command come to. -/
def foundIn (op : Operation) (options : List CallOption) (expected : Option Nat) : List Found :=
  (namedOf options expected).foldl Named.addTo [⟨operationParameter, 1, [op.name]⟩]

/-- What may stand in front of the status. -/
def knownParameters : List Parameter :=
  [operationParameter, pathParameter, queryParameter]

theorem eq_of_name_eq {p q : Parameter} (hp : p ∈ knownParameters) (hq : q ∈ knownParameters)
    (h : p.name = q.name) : p = q := by
  simp only [knownParameters, List.mem_cons, List.not_mem_nil, or_false] at hp hq
  rcases hp with rfl | rfl | rfl <;> rcases hq with rfl | rfl | rfl <;>
    first | rfl | exact absurd h (by decide)

theorem CallOption.toNamed_accepted {o : CallOption} (h : '=' ∉ o.key.toList) :
    o.toNamed.parameter ∈ knownParameters ∧ o.toNamed.parameter.usage = .many ∧
      o.toNamed.parameter.accepts o.toNamed.value = true := by
  cases o with
  | path key value =>
    refine ⟨by simp [knownParameters, CallOption.toNamed], rfl, ?_⟩
    exact Option.isSome_of_eq_some (readPair_of_not_mem h value)
  | query key value =>
    refine ⟨by simp [knownParameters, CallOption.toNamed], rfl, ?_⟩
    exact Option.isSome_of_eq_some (readPair_of_not_mem h value)

theorem allPass_foundIn (op : Operation) {options : List CallOption} {expected : Option Nat}
    (hkeys : ∀ o ∈ options, '=' ∉ o.key.toList)
    (hexpected : ∀ code ∈ expected, code ≤ maxStatus) :
    Found.AllPass (statusParameter :: knownParameters) (foundIn op options expected) := by
  have hfirst : Found.AllPass knownParameters [⟨operationParameter, 1, [op.name]⟩] := by
    intro f hf
    rw [List.mem_singleton.mp hf]
    refine ⟨List.mem_cons_self, fun _ => le_rfl, nofun, by simp, fun value hvalue => ?_⟩
    rw [List.mem_singleton.mp hvalue]
    change (readOperation op.name).isSome = true
    rw [readOperation_name]
    rfl
  have hoptions : Found.AllPass knownParameters
      ((options.map CallOption.toNamed).foldl Named.addTo
        [⟨operationParameter, 1, [op.name]⟩]) := by
    refine Named.allPass_foldl_addTo hfirst ?_ fun p hp q hq => eq_of_name_eq hp hq
    intro n hn
    obtain ⟨o, ho, rfl⟩ := List.mem_map.mp hn
    exact CallOption.toNamed_accepted (hkeys o ho)
  rw [foundIn, namedOf, List.foldl_append]
  cases expected with
  | none => exact hoptions.mono fun p hp => List.mem_cons_of_mem _ hp
  | some code =>
    refine hoptions.add ?_ nofun ?_
    · change (readCount maxStatus (toString code)).isSome = true
      rw [readCount_toString (hexpected code rfl)]
      rfl
    · intro q hq hname
      simp only [knownParameters, List.mem_cons, List.not_mem_nil, or_false] at hq
      rcases hq with rfl | rfl | rfl <;> exact absurd hname (by decide)

theorem read_call (op : Operation) {options : List CallOption} {expected : Option Nat}
    (hkeys : ∀ o ∈ options, '=' ∉ o.key.toList)
    (hexpected : ∀ code ∈ expected, code ≤ maxStatus) :
    CommandForm.call.grammar.read (op.name :: (namedOf options expected).map Named.word) =
      .ok (foundIn op options expected) := by
  have hname : op.name ≠ "--" := by
    intro h
    have hplain := ofString_name op
    rw [h] at hplain
    exact absurd hplain nofun
  have hoperand : CommandForm.call.grammar.readWord op.name .initial =
      .ok ⟨[⟨operationParameter, 1, [op.name]⟩], .nothing, true⟩ := by
    unfold Grammar.readWord
    rw [ofString_name]
    rfl
  have hread : CommandForm.call.grammar.readWords
      (op.name :: (namedOf options expected).map Named.word) .initial =
      .ok (⟨foundIn op options expected, .nothing, true⟩, none) := by
    have hrest := Grammar.readWords_named (namedOf_takes options expected)
      (by simp [CommandForm.call]) [] (r := ⟨[⟨operationParameter, 1, [op.name]⟩], .nothing, true⟩) rfl
    rw [List.append_nil] at hrest
    rw [Grammar.readWords, if_neg (by simp [CommandForm.call]), if_neg hname, hoperand]
    exact hrest
  have hfinish := Grammar.finish_eq (g := CommandForm.call.grammar)
    (r := ⟨foundIn op options expected, .nothing, true⟩) false rfl
    (Or.inl rfl) rfl (Or.inr rfl) (allPass_foundIn op hkeys hexpected)
  rw [Grammar.read, hread]
  exact hfinish

/-! ### What the words come to -/

theorem valuesOf_foundIn (op : Operation) (options : List CallOption) (expected : Option Nat)
    (name : String) :
    Found.valuesOf (foundIn op options expected) name =
      (if "METHOD" = name then [op.name] else []) ++
        (options.filterMap (fun o =>
            if o.toNamed.parameter.name = name then some o.toNamed.value else none) ++
          if "expect-status" = name then (expected.map fun code => toString code).toList
          else []) := by
  have hstatus : Named.valuesOf
      (expected.map fun code => (⟨statusParameter, toString code⟩ : Named)).toList name =
      if "expect-status" = name then (expected.map fun code => toString code).toList else [] := by
    cases expected with
    | none => simp [Named.valuesOf]
    | some code =>
      rw [Option.map_some, Option.toList_some, Named.valuesOf_cons]
      simp [Named.valuesOf, statusParameter, Parameter.reading]
  rw [foundIn, Named.valuesOf_foldl_addTo, Found.valuesOf_cons, namedOf, Named.valuesOf_append,
    hstatus, Named.valuesOf, List.filterMap_map]
  rfl

theorem valuesOf_path (op : Operation) (options : List CallOption) (expected : Option Nat) :
    Found.valuesOf (foundIn op options expected) "path" =
      (options.filterMap CallOption.toPath).map pairText := by
  rw [valuesOf_foundIn, List.map_filterMap, if_neg (by decide), if_neg (by decide),
    List.nil_append, List.append_nil]
  congr 1
  funext o
  cases o <;> rfl

theorem valuesOf_query (op : Operation) (options : List CallOption) (expected : Option Nat) :
    Found.valuesOf (foundIn op options expected) "param" =
      (options.filterMap CallOption.toQuery).map pairText := by
  rw [valuesOf_foundIn, List.map_filterMap, if_neg (by decide), if_neg (by decide),
    List.nil_append, List.append_nil]
  congr 1
  funext o
  cases o <;> rfl

/-- No option goes under a name that is neither of the two. -/
theorem filterMap_other {name : String} (hpath : "path" ≠ name) (hquery : "param" ≠ name)
    (options : List CallOption) : options.filterMap (fun o =>
      if o.toNamed.parameter.name = name then some o.toNamed.value else none) = [] := by
  rw [List.filterMap_eq_nil_iff]
  intro o _
  cases o
  · exact if_neg hpath
  · exact if_neg hquery

theorem mapM_readPair {pairs : List (String × String)} (h : ∀ p ∈ pairs, '=' ∉ p.1.toList)
    (name : String) :
    (pairs.map pairText).mapM (Found.readOne readPair name) = .ok pairs := by
  induction pairs with
  | nil => rfl
  | cons p pairs ih =>
    obtain ⟨hp, hpairs⟩ := List.forall_mem_cons.mp h
    have hread : Found.readOne readPair name (pairText p) = .ok p := by
      rw [Found.readOne, pairText, readPair_of_not_mem hp]
    rw [List.map_cons, List.mapM_cons, hread, ih hpairs]
    rfl

theorem command_foundIn (op : Operation) {options : List CallOption} {expected : Option Nat}
    (hkeys : ∀ o ∈ options, '=' ∉ o.key.toList)
    (hexpected : ∀ code ∈ expected, code ≤ maxStatus) :
    CommandForm.call.command (foundIn op options expected) =
      .ok (call op (options.filterMap CallOption.toPath) (options.filterMap CallOption.toQuery)
        (expected.getD 200)) := by
  have hoperation : Found.operand (foundIn op options expected) readOperation "METHOD" =
      .ok op := by
    have htext : Found.text? (foundIn op options expected) "METHOD" = some op.name := by
      rw [Found.text?_eq, valuesOf_foundIn, filterMap_other (by decide) (by decide),
        if_pos rfl, if_neg (by decide)]
      rfl
    simp only [Found.operand, Found.value?, htext, Found.readOne, readOperation_name]
    rfl
  have hpath : Found.allValues (foundIn op options expected) readPair "path" =
      .ok (options.filterMap CallOption.toPath) := by
    rw [Found.allValues, ← Found.valuesOf, valuesOf_path]
    refine mapM_readPair (fun p hp => ?_) _
    obtain ⟨o, ho, heq⟩ := List.mem_filterMap.mp hp
    exact CallOption.key_of_toPath heq ▸ hkeys o ho
  have hquery : Found.allValues (foundIn op options expected) readPair "param" =
      .ok (options.filterMap CallOption.toQuery) := by
    rw [Found.allValues, ← Found.valuesOf, valuesOf_query]
    refine mapM_readPair (fun p hp => ?_) _
    obtain ⟨o, ho, heq⟩ := List.mem_filterMap.mp hp
    exact CallOption.key_of_toQuery heq ▸ hkeys o ho
  have hstatus : Found.valueOr (foundIn op options expected) (readCount maxStatus)
      "expect-status" 200 = .ok (expected.getD 200) := by
    have htext : Found.text? (foundIn op options expected) "expect-status" =
        expected.map fun code => toString code := by
      rw [Found.text?_eq, valuesOf_foundIn, filterMap_other (by decide) (by decide),
        if_pos rfl, if_neg (by decide)]
      cases expected <;> rfl
    cases expected with
    | none =>
      simp only [Found.valueOr, Found.value?, htext]
      rfl
    | some code =>
      simp only [Found.valueOr, Found.value?, htext, Option.map_some, Found.readOne,
        readCount_toString (hexpected code rfl)]
      rfl
  simp only [CommandForm.call, hoperation, hpath, hquery, hstatus, bind, Except.bind]
  rfl

def fileParameter : Parameter := .reading .once some "env-file"

theorem fileParameter_takes : Arguments.grammar.Takes fileParameter :=
  ⟨rfl, by decide, nofun, nofun⟩

/-- The words are read as the command that they are made for. -/
theorem parse_callWords (file : String) (op : Operation) {options : List CallOption}
    {expected : Option Nat} (hkeys : ∀ o ∈ options, '=' ∉ o.key.toList)
    (hexpected : ∀ code ∈ expected, code ≤ maxStatus) :
    Arguments.parse (callWords file op options expected) =
      .ok { threshold := .upTo .info
            environmentFile := file
            tool := ⟨ClusterTool.defaultBinary⟩
            command := .call op (options.filterMap CallOption.toPath)
              (options.filterMap CallOption.toQuery) (expected.getD 200) } := by
  let reading : Reading := ⟨[⟨fileParameter, 1, [file]⟩], .nothing, false⟩
  let words := op.name :: (namedOf options expected).map Named.word
  have hwords : Arguments.grammar.readWords (callWords file op options expected) .initial =
      .ok (reading, some ("call", words)) := by
    have htakes : ∀ n ∈ [(⟨fileParameter, file⟩ : Named)], Arguments.grammar.Takes n.parameter := by
      rw [List.forall_mem_singleton]
      exact fileParameter_takes
    have hread := Grammar.readWords_named htakes (by decide) ("call" :: words)
      (r := Reading.initial) rfl
    rw [callWords_eq]
    exact hread.trans (by rfl)
  have hcommand : Arguments.readCommand "call" words =
      .ok (call op (options.filterMap CallOption.toPath) (options.filterMap CallOption.toQuery)
        (expected.getD 200)) := by
    change (CommandForm.call.grammar.read words >>= CommandForm.call.command) = _
    rw [read_call op hkeys hexpected]
    exact command_foundIn op hkeys hexpected
  have hpass : Found.AllPass [fileParameter] reading.found := by
    intro f hf
    rw [List.mem_singleton.mp hf]
    exact ⟨List.mem_cons_self, fun _ => le_rfl, nofun, by simp, fun _ _ => rfl⟩
  have hfinish : Arguments.grammar.finish reading true = .ok reading.found :=
    Grammar.finish_eq true rfl (Or.inr rfl) rfl (Or.inl rfl) hpass
  unfold Arguments.parse
  simp only [hwords, bind, Except.bind, Option.mapM_some, hcommand, Functor.map, Except.map,
    Option.isSome_some, hfinish]
  rfl

end MeshProbe.CommandLine
