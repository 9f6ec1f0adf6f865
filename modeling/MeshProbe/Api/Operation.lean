import MeshProbe.Text.Choice
/-!
The operations of the console's interface and the templates of their paths. A template lists
literal segments and placeholders; a path is made by putting a value in place of each placeholder.
-/

namespace MeshProbe

inductive Operation
  | root
  | authenticate
  | getStatus
  | getConfig
  | jaegerInfo
  | grafanaInfo
  | namespaceList
  | namespaceMetrics
  | namespaceHealth
  | namespaceValidations
  | istioConfigList
  | istioConfigDetails
  | istioConfigDetailsSubtype
  | objectValidations
  | serviceList
  | serviceDetails
  | serviceMetrics
  | serviceHealth
  | serviceValidations
  | serviceDashboard
  | appList
  | appDetails
  | appMetrics
  | appHealth
  | appDashboard
  | workloadList
  | workloadDetails
  | workloadMetrics
  | workloadHealth
  | workloadValidations
  | workloadDashboard
  | graphNamespaces
  | graphNamespace
  | graphService
  | graphWorkload
  | graphApp
  | graphAppVersion
  deriving DecidableEq, Repr

inductive TemplateSegment
  | literal (text : String)
  | placeholder (name : String)
  deriving DecidableEq, Repr

namespace TemplateSegment

def render : TemplateSegment → String
  | literal text => text
  | placeholder name => "\x7b" ++ name ++ "\x7d"

def name? : TemplateSegment → Option String
  | literal _ => none
  | placeholder name => some name

end TemplateSegment

/-- A path that lacks the value of a placeholder. -/
structure MissingParameter where
  operation : Operation
  parameter : String
  deriving DecidableEq, Repr

namespace Operation

def all : List Operation :=
  [root, authenticate, getStatus, getConfig, jaegerInfo, grafanaInfo,
    namespaceList, namespaceMetrics, namespaceHealth, namespaceValidations,
    istioConfigList, istioConfigDetails, istioConfigDetailsSubtype, objectValidations,
    serviceList, serviceDetails, serviceMetrics, serviceHealth, serviceValidations,
    serviceDashboard, appList, appDetails, appMetrics, appHealth, appDashboard,
    workloadList, workloadDetails, workloadMetrics, workloadHealth, workloadValidations,
    workloadDashboard, graphNamespaces, graphNamespace, graphService, graphWorkload, graphApp,
    graphAppVersion]

def name : Operation → String
  | root => "Root"
  | authenticate => "Authenticate"
  | getStatus => "getStatus"
  | getConfig => "getConfig"
  | jaegerInfo => "jaegerInfo"
  | grafanaInfo => "grafanaInfo"
  | namespaceList => "namespaceList"
  | namespaceMetrics => "namespaceMetrics"
  | namespaceHealth => "namespaceHealth"
  | namespaceValidations => "namespaceValidations"
  | istioConfigList => "istioConfigList"
  | istioConfigDetails => "istioConfigDetails"
  | istioConfigDetailsSubtype => "istioConfigDetailsSubtype"
  | objectValidations => "objectValidations"
  | serviceList => "serviceList"
  | serviceDetails => "serviceDetails"
  | serviceMetrics => "serviceMetrics"
  | serviceHealth => "serviceHealth"
  | serviceValidations => "serviceValidations"
  | serviceDashboard => "serviceDashboard"
  | appList => "appList"
  | appDetails => "appDetails"
  | appMetrics => "appMetrics"
  | appHealth => "appHealth"
  | appDashboard => "appDashboard"
  | workloadList => "workloadList"
  | workloadDetails => "workloadDetails"
  | workloadMetrics => "workloadMetrics"
  | workloadHealth => "workloadHealth"
  | workloadValidations => "workloadValidations"
  | workloadDashboard => "workloadDashboard"
  | graphNamespaces => "graphNamespaces"
  | graphNamespace => "graphNamespace"
  | graphService => "graphService"
  | graphWorkload => "graphWorkload"
  | graphApp => "graphApp"
  | graphAppVersion => "graphAppVersion"

def ofName (text : String) : Except UnknownName Operation :=
  choose name all text

/-- Paths below the list of namespaces. -/
def inNamespaces (rest : List TemplateSegment) : List TemplateSegment :=
  .literal "api" :: .literal "namespaces" :: rest

/-- Paths below one namespace. -/
def inNamespace (rest : List TemplateSegment) : List TemplateSegment :=
  inNamespaces (.placeholder "namespace" :: rest)

def template : Operation → List TemplateSegment
  | root => [.literal "api"]
  | authenticate => [.literal "api", .literal "token"]
  | getStatus => [.literal "api", .literal "status"]
  | getConfig => [.literal "api", .literal "config"]
  | jaegerInfo => [.literal "api", .literal "jaeger"]
  | grafanaInfo => [.literal "api", .literal "grafana"]
  | namespaceList => inNamespaces []
  | namespaceMetrics => inNamespace [.literal "metrics"]
  | namespaceHealth => inNamespace [.literal "health"]
  | namespaceValidations => inNamespace [.literal "istio_validations"]
  | istioConfigList => inNamespace [.literal "istio"]
  | istioConfigDetails =>
    inNamespace [.literal "istio", .placeholder "object_type", .placeholder "object"]
  | istioConfigDetailsSubtype =>
    inNamespace [.literal "istio", .placeholder "object_type", .placeholder "object_subtype",
      .placeholder "object"]
  | objectValidations =>
    inNamespace [.literal "istio", .placeholder "object_type", .placeholder "object",
      .literal "istio_validations"]
  | serviceList => inNamespace [.literal "services"]
  | serviceDetails => inNamespace [.literal "services", .placeholder "service"]
  | serviceMetrics =>
    inNamespace [.literal "services", .placeholder "service", .literal "metrics"]
  | serviceHealth =>
    inNamespace [.literal "services", .placeholder "service", .literal "health"]
  | serviceValidations =>
    inNamespace [.literal "services", .placeholder "service", .literal "istio_validations"]
  | serviceDashboard =>
    inNamespace [.literal "services", .placeholder "service", .literal "dashboard"]
  | appList => inNamespace [.literal "apps"]
  | appDetails => inNamespace [.literal "apps", .placeholder "app"]
  | appMetrics => inNamespace [.literal "apps", .placeholder "app", .literal "metrics"]
  | appHealth => inNamespace [.literal "apps", .placeholder "app", .literal "health"]
  | appDashboard => inNamespace [.literal "apps", .placeholder "app", .literal "dashboard"]
  | workloadList => inNamespace [.literal "workloads"]
  | workloadDetails => inNamespace [.literal "workloads", .placeholder "workload"]
  | workloadMetrics =>
    inNamespace [.literal "workloads", .placeholder "workload", .literal "metrics"]
  | workloadHealth =>
    inNamespace [.literal "workloads", .placeholder "workload", .literal "health"]
  | workloadValidations =>
    inNamespace [.literal "workloads", .placeholder "workload", .literal "istio_validations"]
  | workloadDashboard =>
    inNamespace [.literal "workloads", .placeholder "workload", .literal "dashboard"]
  | graphNamespaces => inNamespaces [.literal "graph"]
  | graphNamespace => inNamespace [.literal "graph"]
  | graphService =>
    inNamespace [.literal "services", .placeholder "service", .literal "graph"]
  | graphWorkload =>
    inNamespace [.literal "workloads", .placeholder "workload", .literal "graph"]
  | graphApp => inNamespace [.literal "applications", .placeholder "app", .literal "graph"]
  | graphAppVersion =>
    inNamespace [.literal "applications", .placeholder "app", .literal "versions",
      .placeholder "version", .literal "graph"]

/-- Every operation reads. -/
def httpMethod (_ : Operation) : String := "GET"

/-- Segments as a path from the root. -/
def joinPath (segments : List String) : String :=
  "/" ++ "/".intercalate segments

def templateText (op : Operation) : String :=
  joinPath (op.template.map TemplateSegment.render)

/-- The names of the placeholders, in the order of the template. -/
def pathParameters (op : Operation) : List String :=
  op.template.filterMap TemplateSegment.name?

/-- The value that stands in a segment's place: of several with the name, the first. -/
def segmentValue (op : Operation) (parameters : List (String × String)) :
    TemplateSegment → Except MissingParameter String
  | .literal text => .ok text
  | .placeholder name =>
    match parameters.lookup name with
    | some value => .ok value
    | none => .error ⟨op, name⟩

/-- The segments of the path, or the first placeholder without a value. -/
def pathSegments (op : Operation) (parameters : List (String × String)) :
    Except MissingParameter (List String) :=
  op.template.mapM (op.segmentValue parameters)

/-- The path as text, its values as they are. -/
def renderPath (op : Operation) (parameters : List (String × String)) :
    Except MissingParameter String := do
  let segments ← op.pathSegments parameters
  return joinPath segments

end Operation

end MeshProbe
