import MeshProbe.ClusterRole.Template
import MeshProbe.Environment
import MeshProbe.Error
import MeshProbe.Url.Parser
import MeshProbe.World
import MeshProbe.Yaml.Value
/-!
Fetching a cluster role: its template is downloaded from the address that the environment names
for it, rendered, and read as YAML. Nothing else of the environment leaves the program.
-/

namespace MeshProbe

inductive ClusterRole
  | istio
  | kiali (platform : Platform)
  deriving DecidableEq, Repr

namespace ClusterRole

def name : ClusterRole → String
  | istio => "istio"
  | kiali platform => "kiali " ++ platform.name

def url? (env : Environment) : ClusterRole → Option String
  | istio => env.istioRole
  | kiali .openshift => env.openshiftRole
  | kiali .kubernetes => env.kubernetesRole

def render : ClusterRole → String → String
  | istio => Template.renderIstio
  | kiali _ => Template.renderKiali

/-- The request for an address, with the user information that it holds. -/
def requestFor (address : Url) : Request :=
  match address.credentials? with
  | some (name, password) =>
    ⟨"GET", address.withoutUserInfo, [basicAuthorization name password], true⟩
  | none => ⟨"GET", address, [], true⟩

/-- Whether a status tells of an error of the client or of the server. -/
def tellsOfError (status : Nat) : Bool := 400 ≤ status && status ≤ 599

/-- Downloads a text, however long that takes. A status that tells of an error is one. -/
def download [DomainNames] (url : String) : Action World NetworkError String := do
  match Url.parse url with
  | .error e => throw (.unusable e)
  | .ok address =>
    let answer ← World.send none (requestFor address)
    if tellsOfError answer.status then
      throw (.status answer.status answer.address.render)
    World.readText answer

def fetch [DomainNames] (role : ClusterRole) (env : Environment) :
    Action World Error Yaml.Value := do
  match role.url? env with
  | none => throw (.roleUrlMissing role.name)
  | some url =>
    let template ← (download url).mapError (.roleFetch url)
    match Yaml.Value.parse (role.render template) with
    | .ok value => return value
    | .error e => throw (.roleParse url e)

end ClusterRole

end MeshProbe
