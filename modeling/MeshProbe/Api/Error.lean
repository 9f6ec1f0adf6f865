import MeshProbe.Api.Operation
import MeshProbe.Json.Error
import MeshProbe.Network
/-!
What can go wrong between asking an operation and having its value.
-/

namespace MeshProbe

inductive ApiError
  | invalidUrl (address : String) (error : Url.ParseError)
  | cannotBeABase (address : String)
  | missingParameter (missing : MissingParameter)
  | request (operation : Operation) (address : String) (error : NetworkError)
  | readBody (operation : Operation) (error : NetworkError)
  | unexpectedStatus (operation : Operation) (expected status : Nat) (body : String)
  | notJson (operation : Operation) (error : Json.Error)
  | missingField (operation : Operation) (field : String)
  deriving DecidableEq, Repr

namespace ApiError

def message (detail : Detail) : ApiError → String
  | invalidUrl address e => "Invalid Kiali URL '" ++ address ++ "': " ++ e.message
  | cannotBeABase address => "Kiali URL '" ++ address ++ "' cannot be used as a base for API paths"
  | missingParameter m =>
    "Missing path parameter '" ++ m.parameter ++ "' for '" ++ m.operation.name ++ "'"
  | request op address e =>
    "Unable to call '" ++ op.name ++ "' at '" ++ address ++ "'" ++ e.suffix detail
  | readBody op e => "Unable to read the response body of '" ++ op.name ++ "'" ++ e.suffix detail
  | unexpectedStatus op expected status body =>
    "'" ++ op.name ++ "' returned status " ++ toString status ++ " but " ++ toString expected ++
      " was expected: " ++ body
  | notJson op e => "Unable to deserialize the response of '" ++ op.name ++ "': " ++ e.message
  | missingField op field => "Missing '" ++ field ++ "' in the response of '" ++ op.name ++ "'"

/-- What stands behind the error, outermost first. -/
def sources (detail : Detail) : ApiError → List String
  | invalidUrl _ e => [e.message]
  | request _ _ e | readBody _ e => e.sources detail
  | notJson _ e => [e.message]
  | _ => []

/-- The error and what stands behind it. -/
def chain (detail : Detail) (e : ApiError) : List String :=
  e.message detail :: e.sources detail

/-- The status that the server answered with, where that was the error. -/
def statusCode? : ApiError → Option Nat
  | unexpectedStatus _ _ status _ => some status
  | _ => none

/-- Whether an outcome is an error with the given status. -/
def hasStatus {α : Type} (outcome : Except ApiError α) (status : Nat) : Bool :=
  match outcome with
  | .error e => e.statusCode? == some status
  | .ok _ => false

end ApiError

end MeshProbe
