import Conrogate.Server.Auth
import Conrogate.Server.ControlPlane

/-!
# The interface of the control plane

A request goes by path and method to a handler, whose extractors read parameters and body; then most
handlers that write check the role, and call the service.
-/

namespace Conrogate

open Database Json

structure Api (Net : Type) where
  authToken : String
  apiPrefix : String
  hash : ConfigSnapshot → String
  net : IpNetCrate Net
  traceId : HttpRequest → String
  percentDecode : String → Option String
  json : HttpRequest → Option Json
  publishQuery : Option String → Option (Option Nat × Option String)
  createRoute : Json → Option CreateRouteDto
  matchConditions : Json → Option RouteMatchConditions
  createUpstream : Json → Option CreateUpstreamDto
  algorithm : Json → Option BalancerAlgorithm
  node : Json → Option CreateUpstreamNodeDto
  bindPlugin : Json → Option BindPluginDto
  updatePluginBinding : Json → Option UpdatePluginBindingDto
  createIpBlacklist : Json → Option ControlProgram.CreateIpBlacklistDto
  heartbeat : Json → Option ControlProgram.Heartbeat
  metricsBatch : Json → Option ControlProgram.MetricsBatch
  eventsBatch : Json → Option (List EventRow)

/-! ### Routes -/

inductive ApiHandler where
  | verifyToken
  | createRoute
  | listRoutes
  | getRoute
  | updateRoute
  | patchRoute
  | deleteRoute
  | createUpstream
  | listUpstreams
  | getUpstream
  | updateUpstream
  | patchUpstream
  | deleteUpstream
  | getUpstreamRouteBindings
  | bindPlugin
  | listPluginBindings
  | updatePluginBinding
  | unbindPlugin
  | publishConfig
  | listConfigVersions
  | rollbackConfig
  | diffConfig
  | queryMetrics
  | overviewMetrics
  | insightsOverview
  | insightsQps
  | insightsLatency
  | insightsStatusCodes
  | insightsTopRoutes
  | queryEvents
  | queryAuditLogs
  | listNodes
  | createIpBlacklist
  | listIpBlacklist
  | deleteIpBlacklist
  | listPlugins
  | activatePlugin
  | disablePlugin
  | deletePlugin
  | receiveHeartbeat
  | receiveMetrics
  | receiveEvents
deriving DecidableEq

/-- The routes of `build_router` that need no authentication; all are for `GET`. -/
def publicRoutes : List String := ["/health", "/healthz", "/readyz", "/openapi.json"]

def protectedRoutes : List (String × List (String × ApiHandler)) :=
  [("/auth/verify", [("GET", .verifyToken)]),
    ("/routes", [("POST", .createRoute), ("GET", .listRoutes)]),
    ("/routes/:id", [("GET", .getRoute), ("PUT", .updateRoute), ("PATCH", .patchRoute),
      ("DELETE", .deleteRoute)]),
    ("/upstreams", [("POST", .createUpstream), ("GET", .listUpstreams)]),
    ("/upstreams/:id", [("GET", .getUpstream), ("PUT", .updateUpstream),
      ("PATCH", .patchUpstream), ("DELETE", .deleteUpstream)]),
    ("/upstreams/:id/route-bindings", [("GET", .getUpstreamRouteBindings)]),
    ("/routes/:id/plugins", [("POST", .bindPlugin), ("GET", .listPluginBindings)]),
    ("/routes/:id/plugins/:plugin_name", [("PUT", .updatePluginBinding),
      ("DELETE", .unbindPlugin)]),
    ("/configs/publish", [("POST", .publishConfig)]),
    ("/configs/versions", [("GET", .listConfigVersions)]),
    ("/configs/versions/:version/rollback", [("POST", .rollbackConfig)]),
    ("/configs/diff", [("GET", .diffConfig)]),
    ("/metrics", [("GET", .queryMetrics)]),
    ("/metrics/overview", [("GET", .overviewMetrics)]),
    ("/insights/overview", [("GET", .insightsOverview)]),
    ("/insights/qps", [("GET", .insightsQps)]),
    ("/insights/latency", [("GET", .insightsLatency)]),
    ("/insights/status-codes", [("GET", .insightsStatusCodes)]),
    ("/insights/top-routes", [("GET", .insightsTopRoutes)]),
    ("/insights/events", [("GET", .queryEvents)]),
    ("/audit-logs", [("GET", .queryAuditLogs)]),
    ("/nodes", [("GET", .listNodes)]),
    ("/security/ip_blacklist", [("POST", .createIpBlacklist), ("GET", .listIpBlacklist)]),
    ("/security/ip_blacklist/:id", [("DELETE", .deleteIpBlacklist)]),
    ("/plugins", [("GET", .listPlugins)]),
    ("/plugins/:name/activate", [("POST", .activatePlugin)]),
    ("/plugins/:name/disable", [("POST", .disablePlugin)]),
    ("/plugins/:name", [("DELETE", .deletePlugin)]),
    ("/reports/heartbeat", [("POST", .receiveHeartbeat)]),
    ("/reports/metrics", [("POST", .receiveMetrics)]),
    ("/reports/events", [("POST", .receiveEvents)])]

def pathParams : List (List Char) → List (List Char) → Option (List String)
  | [], [] => some []
  | (':' :: _) :: ps, seg :: segs =>
    if seg = [] then none else (String.ofList seg :: ·) <$> pathParams ps segs
  | p :: ps, seg :: segs => if p = seg then pathParams ps segs else none
  | _, _ => none

/-- A route that serves `GET` serves `HEAD`. -/
def routedMethod (method : String) : String := if method = "HEAD" then "GET" else method

namespace Api

variable {Net : Type} (api : Api Net)

def nest (path : String) : List Char :=
  if trim api.apiPrefix.toList = [] then path.toList
  else if api.apiPrefix.toList.getLast? = some '/' then
    api.apiPrefix.toList ++ path.toList.dropWhile (· == '/')
  else api.apiPrefix.toList ++ path.toList

def route (req : HttpRequest) : Option (ApiHandler × List String) :=
  protectedRoutes.findSome? fun (path, methods) => do
    let params ← pathParams (splitChar '/' (api.nest path)) (splitChar '/' req.uri.path.toList)
    let handler ← methods.lookup (routedMethod req.method)
    some (handler, params)

/-! ### Extractors -/

def body {α : Type} (read : Json → Option α) (req : HttpRequest) : Option α :=
  (api.json req).bind read

def pathName (param : Option String) : Option String := param.bind api.percentDecode

def pathId (param : Option String) : Option Nat :=
  (api.pathName param).bind fun s => parseUnsigned 0xFFFFFFFFFFFFFFFF s.toList

def routeFields : List String :=
  ["id", "name", "match_conditions", "priority", "upstream_id", "host_header",
    "allow_retry_non_idempotent", "ws_strip_sensitive_headers", "enabled"]

def updateRouteDto (j : Json) : Option UpdateRouteDto := do
  let ms ← j.members routeFields
  some
    { id := ← orDefault 0 asU64 (field ms "id")
      name := ← optional ms "name" asStr
      matchConditions := ← optional ms "match_conditions" api.matchConditions
      priority := ← optional ms "priority" asI32
      upstreamId := ← optional ms "upstream_id" asU64
      hostHeader := ← optional ms "host_header" asStr
      allowRetryNonIdempotent := ← optional ms "allow_retry_non_idempotent" asBool
      wsStripSensitiveHeaders := ← optional ms "ws_strip_sensitive_headers" asBool
      enabled := ← optional ms "enabled" asBool }

def upstreamFields : List String := ["id", "name", "algorithm", "retry_enabled", "nodes"]

def updateUpstreamDto (j : Json) : Option UpdateUpstreamDto := do
  let ms ← j.members upstreamFields
  some
    { id := ← orDefault 0 asU64 (field ms "id")
      name := ← optional ms "name" asStr
      algorithm := ← optional ms "algorithm" api.algorithm
      retryEnabled := ← optional ms "retry_enabled" asBool
      nodes := ← optional ms "nodes" (asVec api.node) }

end Api

/-! ### Handlers -/

inductive ServiceCall where
  | query
  | createRoute (dto : CreateRouteDto)
  | updateRoute (dto : UpdateRouteDto)
  | deleteRoute (id : Nat)
  | createUpstream (dto : CreateUpstreamDto)
  | updateUpstream (dto : UpdateUpstreamDto)
  | deleteUpstream (id : Nat)
  | bindPlugin (routeId : Nat) (dto : BindPluginDto)
  | updatePluginBinding (routeId : Nat) (pluginName : String) (dto : UpdatePluginBindingDto)
  | unbindPlugin (routeId : Nat) (pluginName : String)
  | publishConfig (baseVersion : Nat) (remark : Option String)
  | rollbackConfig (targetVersion : Nat)
  | createIpBlacklist (dto : ControlProgram.CreateIpBlacklistDto)
  | deleteIpBlacklist (id : Nat)
  | updatePluginStatus (name : String) (status : PluginStatus)
  | deletePlugin (name : String)
  | receiveHeartbeat (hb : ControlProgram.Heartbeat)
  | receiveMetrics (batch : ControlProgram.MetricsBatch)
  | receiveEvents (batch : List EventRow)

namespace ApiHandler

variable {Net : Type} (api : Api Net) (params : List String) (req : HttpRequest)

def extract : ApiHandler → Option ServiceCall
  | .createRoute => do
    let dto ← api.body api.createRoute req
    some (.createRoute dto)
  | .updateRoute => do
    -- the id in the path is not read
    let dto ← api.body api.updateRouteDto req
    some (.updateRoute dto)
  | .patchRoute => do
    let id ← api.pathId params[0]?
    let dto ← api.body api.updateRouteDto req
    some (.updateRoute { dto with id := id })
  | .deleteRoute => do
    let id ← api.pathId params[0]?
    some (.deleteRoute id)
  | .createUpstream => do
    let dto ← api.body api.createUpstream req
    some (.createUpstream dto)
  | .updateUpstream => do
    let dto ← api.body api.updateUpstreamDto req
    some (.updateUpstream dto)
  | .patchUpstream => do
    let id ← api.pathId params[0]?
    let dto ← api.body api.updateUpstreamDto req
    some (.updateUpstream { dto with id := id })
  | .deleteUpstream => do
    let id ← api.pathId params[0]?
    some (.deleteUpstream id)
  | .bindPlugin => do
    let routeId ← api.pathId params[0]?
    let dto ← api.body api.bindPlugin req
    some (.bindPlugin routeId dto)
  | .updatePluginBinding => do
    let routeId ← api.pathId params[0]?
    let pluginName ← api.pathName params[1]?
    let dto ← api.body api.updatePluginBinding req
    some (.updatePluginBinding routeId pluginName dto)
  | .unbindPlugin => do
    let routeId ← api.pathId params[0]?
    let pluginName ← api.pathName params[1]?
    some (.unbindPlugin routeId pluginName)
  | .publishConfig => do
    let (baseVersion, remark) ← api.publishQuery req.uri.query
    some (.publishConfig (baseVersion.getD 0) remark)
  | .rollbackConfig => do
    let version ← api.pathId params[0]?
    some (.rollbackConfig version)
  | .createIpBlacklist => do
    let dto ← api.body api.createIpBlacklist req
    some (.createIpBlacklist dto)
  | .deleteIpBlacklist => do
    let id ← api.pathId params[0]?
    some (.deleteIpBlacklist id)
  | .activatePlugin => do
    let name ← api.pathName params[0]?
    some (.updatePluginStatus name .active)
  | .disablePlugin => do
    let name ← api.pathName params[0]?
    some (.updatePluginStatus name .disabled)
  | .deletePlugin => do
    let name ← api.pathName params[0]?
    some (.deletePlugin name)
  | .receiveHeartbeat => do
    let hb ← api.body api.heartbeat req
    some (.receiveHeartbeat hb)
  | .receiveMetrics => do
    let batch ← api.body api.metricsBatch req
    some (.receiveMetrics batch)
  | .receiveEvents => do
    let batch ← api.body api.eventsBatch req
    some (.receiveEvents batch)
  | _ => some .query

def required : ApiHandler → Option Role
  | .createRoute | .updateRoute | .patchRoute | .deleteRoute | .createUpstream | .updateUpstream
  | .patchUpstream | .deleteUpstream | .bindPlugin | .updatePluginBinding | .unbindPlugin
  | .publishConfig | .rollbackConfig | .createIpBlacklist | .deleteIpBlacklist => some .operator
  | .activatePlugin | .disablePlugin | .deletePlugin => some .admin
  | .listIpBlacklist => some .viewer
  | _ => none

def requireRole (role : Role) (required : Option Role) (p : ControlProgram Unit) :
    ControlProgram Unit :=
  if required.all role.hasPermission then p else .throw .forbidden

end ApiHandler

section

variable {Net : Type} (api : Api Net)

def ServiceCall.program (caller : ControlProgram.Caller) : ServiceCall → ControlProgram Unit
  | .query => do let _ ← ControlProgram.ask id
  | .createRoute dto => do let _ ← ControlProgram.createRoute caller dto
  | .updateRoute dto => do let _ ← ControlProgram.updateRoute caller dto
  | .deleteRoute id => ControlProgram.deleteRoute caller id
  | .createUpstream dto => do let _ ← ControlProgram.createUpstream caller dto
  | .updateUpstream dto => do let _ ← ControlProgram.updateUpstream caller dto
  | .deleteUpstream id => ControlProgram.deleteUpstream caller id
  | .bindPlugin routeId dto => do let _ ← ControlProgram.bindPlugin caller routeId dto
  | .updatePluginBinding routeId pluginName dto => do
    let _ ← ControlProgram.updatePluginBinding caller routeId pluginName dto
  | .unbindPlugin routeId pluginName => ControlProgram.unbindPlugin caller routeId pluginName
  | .publishConfig baseVersion remark => do
    let _ ← ControlProgram.publishConfig caller api.hash baseVersion remark
  | .rollbackConfig targetVersion => do
    let _ ← ControlProgram.rollbackConfig caller targetVersion
  | .createIpBlacklist dto => ControlProgram.createIpBlacklist caller api.net dto
  | .deleteIpBlacklist id => ControlProgram.deleteIpBlacklist caller id
  | .updatePluginStatus name status => ControlProgram.updatePluginStatus caller name status
  | .deletePlugin name => ControlProgram.deletePlugin caller name
  | .receiveHeartbeat hb => ControlProgram.receiveHeartbeat hb
  | .receiveMetrics batch => ControlProgram.receiveMetrics batch
  | .receiveEvents batch => ControlProgram.receiveEvents batch

namespace Api

def auth : AuthState := .fromConfigured api.authToken

def serve (req : HttpRequest) : Option (ControlProgram Unit) :=
  match api.route req with
  | some (handler, params) =>
    match authMiddleware api.auth req.headers, handler.extract api params req with
    | some (role, operator), some call =>
      let p := call.program api ⟨operator, api.traceId req⟩
      some (ApiHandler.requireRole role handler.required p)
    | _, _ => none
  | none =>
    if publicRoutes.contains req.uri.path && routedMethod req.method == "GET" then
      some (ServiceCall.query.program api ⟨"", api.traceId req⟩)
    else none

def program (req : HttpRequest) : ControlProgram Unit := (api.serve req).getD (pure ())

def step (backend : DatabaseBackend) :
    State ControlPlane (ControlPlane → ControlPlane) Stamp ConrogateError →
      Event HttpRequest Stamp →
        Option (State ControlPlane (ControlPlane → ControlPlane) Stamp ConrogateError) :=
  backend.controlPlane.step api.program

end Api

end

end Conrogate
