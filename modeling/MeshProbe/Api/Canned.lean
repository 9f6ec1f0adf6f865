import MeshProbe.Api.Basic
import MeshProbe.Clock
/-!
An interface whose answers are laid down in advance, with the time that each takes. It keeps what
it was asked.
-/

namespace MeshProbe

/-- What an interface was asked. -/
structure ApiCall where
  operation : Operation
  path : List (String × String)
  query : List (String × String)
  deriving DecidableEq, Repr

structure Canned where
  now : Nat
  /-- What was asked, the latest first. -/
  asked : List ApiCall
  /-- What was told, the latest first. -/
  records : List Record

namespace Canned

def initial : Canned := ⟨0, [], []⟩

instance : Clock Canned where
  now := Canned.now
  sleepUntil wake s := { s with now := max s.now wake }
  isCancelled _ := false

instance : Logbook Canned where
  note record s := { s with records := record :: s.records }

/-- The interface whose `n`th answer, from zero on, is the script's, and takes as long as the script
says. -/
def timedApi (script : Nat → Operation → Nat × Except ApiError Response) : Api Canned where
  request op path query := ExceptT.mk do
    let s ← get
    let (duration, outcome) := script s.asked.length op
    set { s with now := s.now + duration, asked := ⟨op, path, query⟩ :: s.asked }
    pure outcome

/-- The interface whose answers take no time. -/
def api (script : Nat → Operation → Except ApiError Response) : Api Canned :=
  timedApi fun n op => (0, script n op)

end Canned

end MeshProbe
