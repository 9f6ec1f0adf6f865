import MeshProbe.Api.Error
import MeshProbe.Json.Parser
import MeshProbe.Json.Printer
/-!
An answer of the console: the operation asked, the status, and the body as bytes.
-/

namespace MeshProbe

structure Response where
  operation : Operation
  status : Nat
  body : Bytes
  deriving DecidableEq, Repr

namespace Response

/-- The answer that carries a JSON value. -/
def ofJson (op : Operation) (value : Json.Value) : Response where
  operation := op
  status := 200
  body := Utf8.encode (Json.compact value)

def text (r : Response) : String := Utf8.lossyString r.body

/-- The same answer, provided that it has the expected status. -/
def expectStatus (r : Response) (expected : Nat) : Except ApiError Response :=
  if r.status = expected then .ok r
  else .error (.unexpectedStatus r.operation expected r.status r.text)

def json (r : Response) : Except ApiError Json.Value :=
  match Json.parse r.body with
  | .ok v => .ok v
  | .error e => .error (.notJson r.operation e)

end Response

end MeshProbe
