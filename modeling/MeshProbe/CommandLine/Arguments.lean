import MeshProbe.Api.Operation
import MeshProbe.Cluster.Tool
import MeshProbe.CommandLine.Grammar
import MeshProbe.Environment
import MeshProbe.Graph.Basic
import MeshProbe.Log.Filter
/-!
The commands of the program and the words that ask for them.
-/

namespace MeshProbe.CommandLine

/-- A wait for a badge, its times in seconds. -/
structure BadgeWait where
  badge : Badge
  kind : GraphKind
  space : Option String
  atLeast : Option Nat
  atMost : Option Nat
  timeout : Nat
  interval : Nat
  deriving DecidableEq, Repr

/-- At least one node, unless the command says otherwise. -/
def BadgeWait.condition (w : BadgeWait) : BadgeCondition :=
  match w.atMost with
  | some bound => .atMost bound
  | none => .atLeast (w.atLeast.getD 1)

inductive Command
  /-- Lists the operations. -/
  | methods (namesOnly : Bool)
  /-- Asks an operation. -/
  | call (operation : Operation) (path query : List (String × String)) (expected : Nat)
  | apply (file : String) (space : Option String)
  | delete (file : String) (space : Option String)
  | waitBadge (wait : BadgeWait)
  /-- Deletes the manifests of a directory. -/
  | cleanup (assets : String)
  deriving DecidableEq, Repr

structure Arguments where
  threshold : Threshold
  environmentFile : String
  tool : ClusterTool
  command : Command
  deriving DecidableEq, Repr

/-! ### Values -/

/-- A number: digits behind an optional plus sign, at most a limit. -/
def readCount (limit : Nat) (text : String) : Option Nat :=
  let digits : List Char := match text.toList with
    | '+' :: digits => digits
    | digits => digits
  let n : Nat := digits.foldl (fun n c => n * 10 + (c.toNat - 48)) 0
  if digits ≠ [] ∧ digits.all Char.isDigit ∧ n ≤ limit then some n else none

def maxStatus : Nat := Nat.pow 2 16 - 1

def maxCount : Nat := Nat.pow 2 64 - 1

/-- A key and a value around the first equals sign. -/
def readPair (text : String) : Option (String × String) :=
  match splitEquals text.toList with
  | (key, some value) => some (key, value)
  | (_, none) => none

def readInterval (text : String) : Option Nat :=
  (readCount maxCount text).filter (0 < ·)

def accepted {ε α : Type} : Except ε α → Option α
  | .ok a => some a
  | .error _ => none

def readOperation (text : String) : Option Operation := accepted (Operation.ofName text)

def readBadge (text : String) : Option Badge := accepted (Badge.ofName text)

def readKind (text : String) : Option GraphKind := accepted (GraphKind.ofName text)

/-- A parameter with a value that a function reads. -/
def Parameter.reading {α : Type} (usage : Usage) (read : String → Option α) (name : String) :
    Parameter where
  name := name
  usage := usage
  accepts text := (read text).isSome

namespace Found

variable {α : Type}

/-- The last value under a name, if there is one. -/
def text? (found : List Found) (name : String) : Option String :=
  (values? found name).bind List.getLast?

def readOne (read : String → Option α) (name value : String) : Except UsageError α :=
  match read value with
  | some a => .ok a
  | none => .error (.invalidValue name value)

def value? (found : List Found) (read : String → Option α) (name : String) :
    Except UsageError (Option α) :=
  match text? found name with
  | some text => (readOne read name text).map some
  | none => .ok none

def valueOr (found : List Found) (read : String → Option α) (name : String) (default : α) :
    Except UsageError α :=
  (value? found read name).map fun a => a.getD default

/-- All values under a name. -/
def allValues (found : List Found) (read : String → Option α) (name : String) :
    Except UsageError (List α) :=
  ((values? found name).getD []).mapM (readOne read name)

def operand (found : List Found) (read : String → Option α) (name : String) :
    Except UsageError α := do
  match ← value? found read name with
  | some a => return a
  | none => throw (.noOperand name)

end Found

/-! ### Grammars -/

/-- The words of one command. -/
structure CommandForm where
  name : String
  summary : String
  grammar : Grammar
  command : List Found → Except UsageError Command

namespace CommandForm

def spaceParameter : Parameter where
  name := "namespace"
  usage := .once
  letter := some 'n'

def methods : CommandForm where
  name := "methods"
  summary := "List the operations of the console with their paths"
  grammar := { parameters := [⟨"names-only", .switch, none, fun _ => true⟩] }
  command found := .ok (.methods (Found.values? found "names-only").isSome)

def call : CommandForm where
  name := "call"
  summary := "Ask an operation and print the JSON of its answer"
  grammar :=
    { parameters := [.reading .many readPair "path", .reading .many readPair "param",
        .reading .once (readCount maxStatus) "expect-status"]
      operand := some (.reading .once readOperation "METHOD") }
  command found := do
    let operation ← Found.operand found readOperation "METHOD"
    let path ← Found.allValues found readPair "path"
    let query ← Found.allValues found readPair "param"
    let expected ← Found.valueOr found (readCount maxStatus) "expect-status" 200
    return .call operation path query expected

/-- The words of a command about one manifest. -/
def manifest (name summary : String) (command : String → Option String → Command) :
    CommandForm where
  name := name
  summary := summary
  grammar :=
    { parameters := [spaceParameter]
      operand := some (.reading .once some "FILE") }
  command found := do
    return command (← Found.operand found some "FILE") (Found.text? found "namespace")

def apply : CommandForm := manifest "apply" "Apply a manifest" .apply

def delete : CommandForm := manifest "delete" "Delete what a manifest describes" .delete

def waitBadge : CommandForm where
  name := "wait-badge"
  summary := "Wait for the graph to show a badge on a number of nodes"
  grammar :=
    { parameters := [.reading .once readKind "graph-type", spaceParameter,
        .reading .once (readCount maxCount) "at-least",
        .reading .once (readCount maxCount) "at-most",
        .reading .once (readCount maxCount) "timeout",
        .reading .latest readInterval "interval"]
      operand := some (.reading .once readBadge "BADGE")
      exclusive := [("at-least", "at-most")] }
  command found := do
    let badge ← Found.operand found readBadge "BADGE"
    let kind ← Found.valueOr found readKind "graph-type" .versionedApp
    let atLeast ← Found.value? found (readCount maxCount) "at-least"
    let atMost ← Found.value? found (readCount maxCount) "at-most"
    let timeout ← Found.valueOr found (readCount maxCount) "timeout" 60
    let interval ← Found.valueOr found readInterval "interval" 1
    let space := Found.text? found "namespace"
    return .waitBadge { badge, kind, space, atLeast, atMost, timeout, interval }

def cleanup : CommandForm where
  name := "cleanup"
  summary := "Delete the manifests of a directory"
  grammar := { parameters := [.reading .once some "assets"] }
  command found := .ok (.cleanup ((Found.text? found "assets").getD "./assets"))

def all : List CommandForm := [methods, call, apply, delete, waitBadge, cleanup]

def ofName? (name : String) : Option CommandForm := all.find? (·.name == name)

end CommandForm

/-- The command that asks for help on others. -/
def helpName : String := "help"

namespace Arguments

/-- What stands before the command. -/
def grammar : Grammar where
  parameters := [.reading .once Threshold.ofName? "log-level", .reading .once some "env-file",
    .reading .once some "oc-path"]
  commands := CommandForm.all.map CommandForm.name ++ [helpName]
  hasVersion := true

/-- What the words behind `help` ask for: help on the program, or on one command. -/
def helpOn : List String → UsageError
  | [] => .help
  | name :: rest =>
    if grammar.commands.contains name then
      match rest with
      | [] => .help
      | word :: _ => .unknownWord word
    else .unknownWord name

/-- Reads a command with the words behind it. -/
def readCommand (name : String) (words : List String) : Except UsageError Command :=
  match CommandForm.ofName? name with
  | some form => do form.command (← form.grammar.read words)
  | none => .error (if name = helpName then helpOn words else .unknownWord name)

/-- Reads the words of the command line. What stands before the command is checked after the
command. -/
def parse (words : List String) : Except UsageError Arguments := do
  let (r, rest?) ← grammar.readWords words .initial
  let command? ← rest?.mapM fun (name, words) => readCommand name words
  let found ← grammar.finish r command?.isSome
  let threshold ← Found.valueOr found Threshold.ofName? "log-level" (.upTo .info)
  let environmentFile := (Found.text? found "env-file").getD Environment.defaultFile
  let tool := ⟨(Found.text? found "oc-path").getD ClusterTool.defaultBinary⟩
  match command? with
  | some command => return { threshold, environmentFile, tool, command }
  | none => throw .noCommand

end Arguments

end MeshProbe.CommandLine
