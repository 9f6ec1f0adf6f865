/-!
What a command accepts on its line: named parameters, one operand, or further commands. The words
are read from left to right; a word that nothing accepts is refused at once. What was found is then
checked as a whole: a value that is still missing, a command that is missing, parameters that
exclude each other, a missing operand, and last the parameters one by one in the order in which
they first appeared.
-/

namespace MeshProbe.CommandLine

inductive UsageError
  /-- Help was asked for. -/
  | help
  /-- The version was asked for. -/
  | version
  | noCommand
  | unknownWord (word : String)
  | invalidValue (name value : String)
  | noValue (name : String)
  | noOperand (name : String)
  | conflict (name other : String)
  | repeated (name : String)
  deriving DecidableEq, Repr

/-- How often a parameter may stand on a line, and whether it takes a value. -/
inductive Usage
  /-- At most once, without a value. -/
  | switch
  | once
  | many
  /-- Any number of times; the last value counts, and each is checked as it is taken. -/
  | latest
  deriving DecidableEq, Repr

structure Parameter where
  name : String
  usage : Usage
  letter : Option Char := none
  accepts : String → Bool := fun _ => true

structure Grammar where
  parameters : List Parameter
  /-- What a word stands for that names nothing. -/
  operand : Option Parameter := none
  /-- Names of which a line may hold only one. -/
  exclusive : List (String × String) := []
  /-- The commands one of which has to follow. -/
  commands : List String := []
  hasVersion : Bool := false

/-- What a line says of a parameter. -/
structure Found where
  parameter : Parameter
  count : Nat
  values : List String

namespace Found

/-- The values found under a name. -/
def values? (found : List Found) (name : String) : Option (List String) :=
  (found.find? (·.parameter.name == name)).map Found.values

/-- Adds an occurrence of a parameter. -/
def add (p : Parameter) (values : List String) : List Found → List Found
  | [] => [⟨p, 1, values⟩]
  | f :: rest =>
    if f.parameter.name = p.name then ⟨p, f.count + 1, f.values ++ values⟩ :: rest
    else f :: add p values rest

/-- Puts an occurrence of a parameter in the place of all others. -/
def replace (p : Parameter) (values : List String) (found : List Found) : List Found :=
  found.filter (·.parameter.name ≠ p.name) ++ [⟨p, 1, values⟩]

def check (f : Found) : Except UsageError Unit :=
  let p := f.parameter
  if (p.usage = .switch ∨ p.usage = .once) ∧ 1 < f.count then .error (.repeated p.name)
  else
    match f.values.find? (!p.accepts ·) with
    | some value => .error (.invalidValue p.name value)
    | none => if p.usage ≠ .switch ∧ f.values = [] then .error (.noValue p.name) else .ok ()

end Found

/-- A parameter that was named and is not taken yet. -/
inductive Pending
  | nothing
  /-- Its value has to follow. -/
  | awaited (p : Parameter)
  | held (p : Parameter) (value : String)

structure Reading where
  /-- What was taken, in the order of first appearance. -/
  found : List Found
  pending : Pending
  hasOperand : Bool

namespace Reading

def initial : Reading := ⟨[], .nothing, false⟩

def isAwaiting (r : Reading) : Bool :=
  match r.pending with
  | .awaited _ => true
  | _ => false

def take (r : Reading) (p : Parameter) (values : List String) : Except UsageError Reading :=
  if p.usage = .latest then
    match values.find? (!p.accepts ·) with
    | some value => .error (.invalidValue p.name value)
    | none => .ok { r with found := Found.replace p values r.found }
  else .ok { r with found := Found.add p values r.found }

/-- Takes the parameter that is pending, with the value that it has by now. -/
def settle (r : Reading) : Except UsageError Reading :=
  let free := { r with pending := .nothing }
  match r.pending with
  | .nothing => .ok r
  | .awaited p => free.take p []
  | .held p value => free.take p [value]

/-- Names a parameter, with a value if one is attached. -/
def name (r : Reading) (p : Parameter) (word : String) (value? : Option String) :
    Except UsageError Reading :=
  match p.usage, value? with
  | .switch, some _ => .error (.unknownWord word)
  | .switch, none => do (← r.settle).take p []
  | _, some value => do (← r.settle).take p [value]
  | _, none => do
    let r ← r.settle
    return { r with pending := .awaited p }

/-- Ends the reading by what was asked for instead, unless a pending value is refused. -/
def leave (r : Reading) (reason : UsageError) : Except UsageError Reading := do
  let _ ← r.settle
  throw reason

end Reading

/-- A text before its first equals sign, and the text behind that sign. -/
def splitEquals (text : List Char) : String × Option String :=
  let value? := match text.dropWhile (· ≠ '=') with
    | _ :: value => some (String.ofList value)
    | [] => none
  (String.ofList (text.takeWhile (· ≠ '=')), value?)

/-- How a word is written. -/
inductive Word
  /-- Two dashes: all further words are operands. -/
  | divider
  | long (name : String) (value? : Option String)
  | letters (letters : List Char)
  | plain

def Word.ofString (word : String) : Word :=
  match word.toList with
  | ['-', '-'] => .divider
  | '-' :: '-' :: rest =>
    let (name, value?) := splitEquals rest
    .long name value?
  | '-' :: c :: rest => .letters (c :: rest)
  | _ => .plain

namespace Grammar

def readLong (g : Grammar) (word name : String) (value? : Option String) (r : Reading) :
    Except UsageError Reading :=
  match g.parameters.find? (·.name == name) with
  | some p => r.name p word value?
  | none =>
    if value?.isNone ∧ name = "help" then r.leave .help
    else if value?.isNone ∧ name = "version" ∧ g.hasVersion then r.leave .version
    else .error (.unknownWord word)

/-- Reads a group of letters; what follows the letter of a parameter that takes a value is that
value, without an equals sign in front. -/
def readLetters (g : Grammar) (word : String) : List Char → Reading → Except UsageError Reading
  | [], r => .ok r
  | c :: rest, r =>
    match g.parameters.find? (·.letter == some c) with
    | some p =>
      if p.usage = .switch then do readLetters g word rest (← r.name p word none)
      else
        match rest with
        | [] => r.name p word none
        | '=' :: value => r.name p word (some (String.ofList value))
        | value => r.name p word (some (String.ofList value))
    | none =>
      if c = 'h' then r.leave .help
      else if c = 'V' ∧ g.hasVersion then r.leave .version
      else .error (.unknownWord word)

def readOperand (g : Grammar) (word : String) (r : Reading) : Except UsageError Reading :=
  match g.operand with
  | none => .error (.unknownWord word)
  | some p =>
    if r.hasOperand then .error (.unknownWord word)
    else do
      let r ← r.settle
      { r with hasOperand := true }.take p [word]

/-- Reads a word that is not a command. -/
def readWord (g : Grammar) (word : String) (r : Reading) : Except UsageError Reading :=
  match Word.ofString word, r.pending with
  | .long name value?, _ => g.readLong word name value? r
  | .letters letters, _ => g.readLetters word letters r
  | _, .awaited p => .ok { r with pending := .held p word }
  | _, _ => g.readOperand word r

/-- Reads words up to a command: what was found, and the command with the words behind it. A word
that a parameter waits for is no command. -/
def readWords (g : Grammar) :
    List String → Reading → Except UsageError (Reading × Option (String × List String))
  | [], r => .ok (r, none)
  | word :: rest, r =>
    if !r.isAwaiting && g.commands.contains word then .ok (r, some (word, rest))
    else if word = "--" then do
      return (← rest.foldlM (fun r word => g.readOperand word r) r, none)
    else do readWords g rest (← g.readWord word r)

/-- Checks that a parameter which the line ends with has a value. -/
def checkEnd (found : List Found) : Pending → Except UsageError Unit
  | .awaited p =>
    if (Found.values? found p.name).getD [] = [] then .error (.noValue p.name) else .ok ()
  | _ => .ok ()

def checkExclusive (found : List Found) (pairs : List (String × String)) :
    Except UsageError Unit :=
  let isFound (name : String) : Bool := (Found.values? found name).isSome
  match pairs.find? fun (a, b) => isFound a && isFound b with
  | some (a, b) => .error (.conflict a b)
  | none => .ok ()

def checkOperand (g : Grammar) (r : Reading) : Except UsageError Unit :=
  match g.operand with
  | some p => if r.hasOperand then .ok () else .error (.noOperand p.name)
  | none => .ok ()

/-- Takes what is pending and checks the whole. -/
def finish (g : Grammar) (r : Reading) (hasCommand : Bool) : Except UsageError (List Found) := do
  let settled ← r.settle
  checkEnd settled.found r.pending
  if !g.commands.isEmpty && !hasCommand then throw .noCommand
  checkExclusive settled.found g.exclusive
  g.checkOperand settled
  settled.found.forM Found.check
  return settled.found

/-- Reads the words of a command that has no commands of its own. -/
def read (g : Grammar) (words : List String) : Except UsageError (List Found) := do
  let (r, _) ← g.readWords words .initial
  g.finish r false

end Grammar

end MeshProbe.CommandLine
