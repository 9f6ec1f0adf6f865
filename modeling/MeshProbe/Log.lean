/-!
What the library tells about its work: records with a level and the part they come from.
-/

namespace MeshProbe

inductive Level
  | error
  | warn
  | info
  | debug
  | trace
  deriving DecidableEq, Repr

namespace Level

/-- How much is told when everything up to a level is: the greater, the more. -/
def rank : Level → Nat
  | error => 1
  | warn => 2
  | info => 3
  | debug => 4
  | trace => 5

def label : Level → String
  | error => "ERROR"
  | warn => "WARN"
  | info => "INFO"
  | debug => "DEBUG"
  | trace => "TRACE"

end Level

structure Record where
  level : Level
  /-- The part of the program that speaks, a path of names joined by `::`. -/
  source : String
  message : String
  deriving DecidableEq, Repr

/-- A state that keeps records. -/
class Logbook (σ : Type) where
  note : Record → σ → σ

/-- A step that reads and changes a state and may fail; a failure keeps the changes made. -/
abbrev Action (σ ε : Type) := ExceptT ε (StateM σ)

namespace Action

variable {σ ε ε' α : Type}

/-- Lets an outcome that needs no state take part in a step. -/
def ofExcept (x : Except ε α) : Action σ ε α := ExceptT.mk (pure x)

/-- The same step with its error seen through a function. -/
def mapError (f : ε → ε') (action : Action σ ε α) : Action σ ε' α :=
  ExceptT.mk do
    match ← action.run with
    | .ok a => pure (.ok a)
    | .error e => pure (.error (f e))

def update (f : σ → σ) : Action σ ε Unit := ExceptT.mk do
  modify f
  pure (.ok ())

def note [Logbook σ] (record : Record) : Action σ ε Unit :=
  update (Logbook.note record)

/-- The outcome of a step and the state after it. -/
def exec (action : Action σ ε α) (s : σ) : Except ε α × σ :=
  (ExceptT.run action).run s

end Action

end MeshProbe
