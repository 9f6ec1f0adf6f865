/-!
The environment under test: where the console answers and with which credentials, which namespace
holds the sample application, and where the cluster roles can be fetched.
-/

namespace MeshProbe

structure Environment where
  hostname : String
  username : Option String
  password : Option String
  usesTls : Bool
  verifiesTls : Bool
  meshNamespace : String
  istioRole : Option String
  openshiftRole : Option String
  kubernetesRole : Option String
  /-- How long a request may take. -/
  timeoutSeconds : Nat
  deriving DecidableEq, Repr

namespace Environment

/-- Where the environment is looked for unless another file is named. -/
def defaultFile : String := "./config/env.yaml"

def defaultTimeoutSeconds : Nat := 30

/-- The environment that says nothing. -/
def blank : Environment where
  hostname := ""
  username := none
  password := none
  usesTls := false
  verifiesTls := false
  meshNamespace := ""
  istioRole := none
  openshiftRole := none
  kubernetesRole := none
  timeoutSeconds := defaultTimeoutSeconds

/-- The host name without slashes at its end. -/
def trimmedHostname (env : Environment) : List Char :=
  (env.hostname.toList.reverse.dropWhile (· = '/')).reverse

/-- The address of the console. A host name that names its scheme in lower case is kept. -/
def baseAddress (env : Environment) : String :=
  let host := env.trimmedHostname
  if "http://".toList.isPrefixOf host || "https://".toList.isPrefixOf host then String.ofList host
  else (if env.usesTls then "https://" else "http://") ++ String.ofList host

end Environment

end MeshProbe
