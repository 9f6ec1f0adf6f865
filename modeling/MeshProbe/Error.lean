import MeshProbe.Files
import MeshProbe.Network
import MeshProbe.Yaml.Error
/-!
What can go wrong with the environment, with manifests and with cluster roles.
-/

namespace MeshProbe

inductive Error
  | environmentRead (path : String) (error : FileError)
  | environmentParse (path : String) (error : Yaml.Error)
  | environmentText (error : Yaml.Error)
  | toolStart (binary : String) (error : FileError)
  | manifestPath (path : String) (error : FileError)
  | roleUrlMissing (what : String)
  | roleFetch (url : String) (error : NetworkError)
  | roleParse (url : String) (error : Yaml.Error)
  deriving DecidableEq, Repr

namespace Error

def message (detail : Detail) : Error → String
  | environmentRead path e => "Unable to read environment file '" ++ path ++ "': " ++ e.message
  | environmentParse path e => "Unable to parse environment file '" ++ path ++ "': " ++ e.message
  | environmentText e => "Unable to parse environment yaml: " ++ e.message
  | toolStart binary e => "Unable to run '" ++ binary ++ "': " ++ e.message
  | manifestPath path e => "Unable to resolve manifest '" ++ path ++ "': " ++ e.message
  | roleUrlMissing what => "No URL is configured for the " ++ what ++ " cluster role"
  | roleFetch url e => "Unable to fetch the cluster role from '" ++ url ++ "'" ++ e.suffix detail
  | roleParse url e => "Unable to parse the cluster role from '" ++ url ++ "': " ++ e.message

/-- What stands behind the error, outermost first. -/
def sources (detail : Detail) : Error → List String
  | environmentRead _ e | toolStart _ e | manifestPath _ e => [e.message]
  | environmentParse _ e | environmentText e | roleParse _ e => [e.message]
  | roleUrlMissing _ => []
  | roleFetch _ e => e.sources detail

/-- The error and what stands behind it. -/
def chain (detail : Detail) (e : Error) : List String :=
  e.message detail :: e.sources detail

end Error

end MeshProbe
