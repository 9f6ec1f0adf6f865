import MeshProbe.CommandLine.Run
/-!
The program as a whole: from the words of its command line to what it prints, what it complains of
and the code it ends with.
-/

namespace MeshProbe.CommandLine

def UsageError.message : UsageError → String
  | help | version => ""
  | noCommand => "a command is missing"
  | unknownWord word => "unexpected argument '" ++ word ++ "'"
  | invalidValue name value => "invalid value '" ++ value ++ "' for '" ++ name ++ "'"
  | noValue name => "'" ++ name ++ "' needs a value"
  | noOperand name => "'" ++ name ++ "' is missing"
  | conflict name other => "'" ++ name ++ "' cannot be used with '" ++ other ++ "'"
  | repeated name => "'" ++ name ++ "' was given more than once"

/-- How the program ends. -/
structure Outcome where
  exitCode : Nat
  /-- The lines of its complaints, apart from log records. -/
  complaints : List String
  filter : LogFilter

namespace Program

def name : String := "meshtest"

def version : String := "0.1.0"

/-- The parts of the program whose records are shown unless directives say otherwise. -/
def sources : List String := ["meshtest", "meshtest_model"]

def help : String :=
  let commands := CommandForm.all.map fun form => "    " ++ form.name ++ ": " ++ form.summary
  "\n".intercalate (["Usage: " ++ name ++ " [parameters] <command> [words]", "", "Commands:"] ++
    commands)

/-- A filter that shows nothing. -/
def silence : LogFilter := ⟨[], ""⟩

/-- Ends a run whose words were not understood, or that only asked about the program. -/
def refuse (e : UsageError) (w : World) : Outcome × World :=
  match e with
  | .help => (⟨0, [], silence⟩, w.withPrinted help)
  | .version => (⟨0, [], silence⟩, w.withPrinted (name ++ " " ++ version))
  | e => (⟨2, ["error: " ++ e.message], silence⟩, w)

/-- Runs the program on words, with directives about its log if some are set. -/
def run [DomainNames] (words : List String) (directives : Option String) (w : World) :
    Outcome × World :=
  match Arguments.parse words with
  | .error e => refuse e w
  | .ok a =>
    let (filter, complaints) := match directives with
      | some text => LogFilter.parse text
      | none => (LogFilter.ofThreshold sources a.threshold, [])
    match a.run.exec w with
    | (.ok (), w) => (⟨0, complaints, filter⟩, w)
    | (.error f, w) => (⟨1, complaints ++ f.report, filter⟩, w)

end Program

end MeshProbe.CommandLine
