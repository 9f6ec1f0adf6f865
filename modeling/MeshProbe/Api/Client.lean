import MeshProbe.Api.Basic
import MeshProbe.Environment
import MeshProbe.Url.Parser
import MeshProbe.World
/-!
The client of the console: the address it starts from and the credentials it presents. An
operation's address extends the path of that address and leaves all else of it as it is.
-/

namespace MeshProbe

structure Client where
  base : Url
  username : Option String
  password : Option String
  /-- How long a request may take. -/
  timeout : Nat
  /-- Whether a server has to prove who it is. -/
  verifiesTls : Bool
  deriving DecidableEq, Repr

namespace Client

def ofEnvironment [DomainNames] (env : Environment) : Except ApiError Client :=
  let address := env.baseAddress
  match Url.parse address with
  | .error e => .error (.invalidUrl address e)
  | .ok base =>
    .ok { base, username := env.username, password := env.password
          timeout := Span.ofSeconds env.timeoutSeconds, verifiesTls := env.verifiesTls }

/-- The address of an operation: the values of its path are added to the client's own, unless
that has no path to add them to. -/
def url (client : Client) (op : Operation) (path : List (String × String)) :
    Except ApiError Url :=
  match op.pathSegments path with
  | .error missing => .error (.missingParameter missing)
  | .ok segments =>
    if client.base.cannotBeABase then .error (.cannotBeABase client.base.render)
    else .ok (client.base.extendPath (segments.map String.toList))

/-- The header for the user information of an address, if it has any. -/
def addressAuthorization (address : Url) : List String :=
  match address.credentials? with
  | some (name, password) => [basicAuthorization name password]
  | none => []

/-- The header for the client's own credentials, of which it has some when it has a user name. -/
def ownAuthorization (client : Client) : List String :=
  match client.username with
  | some name => [basicAuthorization name.toList (client.password.map String.toList)]
  | none => []

/-- The request for an address with pairs added to its query. User information leaves the
address for the first of the headers. -/
def requestFor (client : Client) (address : Url) (query : List (String × String)) : Request where
  method := "GET"
  address :=
    let asked := address.appendQuery query
    if asked.credentials?.isSome then asked.withoutUserInfo else asked
  authorization := addressAuthorization address ++ client.ownAuthorization
  verifies := client.verifiesTls

/-- Asks an operation and takes the answer whatever its status is. -/
def request (client : Client) (op : Operation) (path query : List (String × String)) :
    Action World ApiError Response := do
  let address ← Action.ofExcept (client.url op path)
  let answer ← (World.send (some client.timeout) (client.requestFor address query)).mapError
    (.request op address.render)
  let body ← (World.read answer).mapError (.readBody op)
  return ⟨op, answer.status, body⟩

/-- The client as an interface to the operations. -/
def api (client : Client) : Api World := ⟨client.request⟩

end Client

end MeshProbe
