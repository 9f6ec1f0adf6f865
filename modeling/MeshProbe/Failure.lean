import MeshProbe.Api.Error
import MeshProbe.Error
import MeshProbe.Graph.Basic
import MeshProbe.Wait.Basic
/-!
How a scenario or a command comes to fail: an error of one of its steps, at times with words about
what was being done, or a step whose result is not what it has to be.
-/

namespace MeshProbe

inductive Failure
  | library (error : Error)
  | api (error : ApiError)
  | wait (error : WaitError ApiError)
  | notApplied (manifest space : String)
  | notDeleted (manifest space : String)
  | noListing (directory : String) (error : FileError)
  | noGraphKind (space : String)
  | otherGraphKind (expected : GraphKind) (found : String)
  | noJson (operation : Operation) (text : String) (error : ApiError)
  | noEnvironment (path : String) (error : Error)
  | noClient (error : ApiError)
  | noStatus (code : Nat)
  | noCall (operation : Operation) (error : ApiError)
  deriving DecidableEq, Repr

namespace Failure

def message (detail : Detail) : Failure → String
  | library e => e.message detail
  | api e => e.message detail
  | wait e => e.message (ApiError.message detail)
  | notApplied manifest space =>
    "'" ++ manifest ++ "' was neither created nor configured in '" ++ space ++ "'"
  | notDeleted manifest space => "'" ++ manifest ++ "' was not deleted from '" ++ space ++ "'"
  | noListing directory _ => "Unable to read '" ++ directory ++ "'"
  | noGraphKind space => "The graph of '" ++ space ++ "' has no graphType"
  | otherGraphKind expected found =>
    "Expected a '" ++ expected.name ++ "' graph but got '" ++ found ++ "'"
  | noJson op text _ => "'" ++ op.name ++ "' did not return JSON: " ++ text
  | noEnvironment path _ => "Unable to load environment from '" ++ path ++ "'"
  | noClient _ => "Unable to create the Kiali client"
  | noStatus code => "'" ++ toString code ++ "' is not an HTTP status"
  | noCall op _ => "Unable to call '" ++ op.name ++ "'"

/-- What stands behind the failure, outermost first. -/
def sources (detail : Detail) : Failure → List String
  | library e => e.sources detail
  | api e => e.sources detail
  | wait e => (e.fetchError?.map (ApiError.chain detail)).getD []
  | notApplied _ _ | notDeleted _ _ | noGraphKind _ | otherGraphKind _ _ => []
  | noListing _ e => [e.message]
  | noJson _ _ e | noClient e | noCall _ e => e.chain detail
  | noEnvironment _ e => e.chain detail
  | noStatus _ => ["invalid status code"]

/-- The failure and what stands behind it. -/
def chain (detail : Detail) (f : Failure) : List String :=
  f.message detail :: f.sources detail

/-- A text of several lines whose further lines are set in as deep as the first one's number. -/
def indentLines (text : String) : List String :=
  match text.splitOn "\n" with
  | [] => []
  | first :: rest => first :: rest.map ("       " ++ ·)

/-- The numbered causes, from a number on. -/
def numbered : Nat → List String → List String
  | _, [] => []
  | n, cause :: rest =>
    let number := toString n
    let lead := String.ofList (List.replicate (5 - number.length) ' ') ++ number ++ ": "
    (match indentLines cause with
      | first :: more => (lead ++ first) :: more
      | [] => []) ++ numbered (n + 1) rest

/-- The report that a command prints when it fails: the failure, and its causes, numbered when
there is more than one. -/
def report (f : Failure) : List String :=
  (f.message .full).splitOn "\n" ++
    match f.sources .full with
    | [] => []
    | [cause] => ["", "Caused by:"] ++ (cause.splitOn "\n").map ("    " ++ ·)
    | causes => ["", "Caused by:"] ++ numbered 0 causes

end Failure

end MeshProbe
