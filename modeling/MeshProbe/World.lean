import MeshProbe.Clock
import MeshProbe.Files
import MeshProbe.Log
import MeshProbe.Network
import MeshProbe.Text.Unmarked
/-!
What a run meets outside of itself: time, the network, files, the cluster's command line tool and
a log.
-/

namespace MeshProbe

/-- What a finished command leaves. -/
structure CommandOutput where
  stdout : Bytes
  stderr : Bytes
  deriving DecidableEq, Repr

/-- The commands that can be run. -/
structure Commands where
  /-- The names of the commands that need no path. -/
  onPath : List String
  /-- What a command given by its arguments does after others, the latest first. -/
  answer : List (List String) → List String → CommandOutput
  /-- The arguments of the commands run so far, the latest first. -/
  calls : List (List String)

structure World where
  now : Nat
  network : Network
  files : Files
  commands : Commands
  /-- What was told, the latest first. -/
  records : List Record
  /-- The texts printed, each ended by a line break, the latest first. -/
  printed : List String

namespace World

instance : Clock World where
  now := World.now
  sleepUntil wake w := { w with now := max w.now wake }
  isCancelled _ := false

instance : Logbook World where
  note record w := { w with records := record :: w.records }

/-- The world after a text was printed. -/
def withPrinted (text : String) (w : World) : World := { w with printed := text :: w.printed }

/-- Prints a text and ends the line. -/
def print {ε : Type} (text : String) : Action World ε Unit :=
  Action.update (withPrinted text)

/-- Whether a command can be started under a name: one without a slash is looked up among those
that need no path; any other file may not be run. -/
def findCommand (w : World) (binary : String) : Except FileError Unit :=
  if FilePath.hasNul binary then .error .nulInCommand
  else if binary.isEmpty then .error .notFound
  else if binary.toList.contains '/' then
    match w.files.resolve binary with
    | .ok _ => .error .denied
    | .error e => .error e
  else if w.commands.onPath.contains binary then .ok ()
  else if binary = "." ∨ binary = ".." then .error .denied
  else if Files.maxNameBytes < binary.utf8ByteSize then .error .nameTooLong
  else .error .notFound

/-- Runs a command to its end. -/
def runCommand (binary : String) (arguments : List String) :
    Action World FileError CommandOutput := ExceptT.mk do
  let w ← get
  match w.findCommand binary with
  | .error e => pure (.error e)
  | .ok () =>
    if arguments.any FilePath.hasNul then pure (.error .nulInCommand)
    else
      let output := w.commands.answer w.commands.calls arguments
      set { w with commands := { w.commands with calls := arguments :: w.commands.calls } }
      pure (.ok output)

/-- Sends a request, under a time limit if there is one. -/
def send (limit : Option Nat) (request : Request) : Action World NetworkError Answer :=
  ExceptT.mk do
    let w ← get
    let (outcome, spent, network) := w.network.send limit request
    set { w with network, now := w.now + spent }
    pure outcome

/-- Waits for the body of an answer. -/
def read (answer : Answer) : Action World NetworkError Bytes := ExceptT.mk do
  modify fun w => { w with now := w.now + answer.body.after }
  pure answer.body.outcome

/-- Waits for the body of an answer and reads it as text. -/
def readText (answer : Answer) : Action World NetworkError String := do
  let body ← read answer
  let w ← get
  return String.ofList (Unmarked.decode (w.network.reader answer.charset) body)

def files? {ε α : Type} (f : Files → Except ε α) : Action World ε α := ExceptT.mk do
  pure (f (← get).files)

end World

end MeshProbe
