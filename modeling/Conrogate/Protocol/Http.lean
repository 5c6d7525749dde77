import Conrogate.Protocol.Handler
import Conrogate.Protocol.RealIp

/-!
# The HTTP handler

`HttpProtocolHandler`, in its buffered and its streamed mode: the steps before a request is
forwarded, the forwarding with retries, and the bookkeeping after it.
-/

namespace Conrogate

open Logged HeaderValue

variable {Net P : Type}

structure HttpProtocolHandler (Net P : Type) where
  svc : ServiceContext P
  net : IpNetCrate Net
  http : HttpCrate
  acceptKey : String → String
  trustedProxies : List Net
  maxRetries : Nat
  retryBudget : Option (Nat → Bool)
  forwardHttp : (attempt : Nat) → UpstreamNodeDto → OutRequest → Result ProxyResult
  forwardHttpStream : UpstreamNodeDto → OutRequest → Result ProxyResult

structure RequestMeta where
  matchInfo : RouteMatchInfo
  requestId : String
  traceId : String
  realIp : String

inductive PreFlight (P : Type) where
  | continue_ (ctx : PluginContext) (plugins : List P) (route : RouteSnapshot)
      (node : UpstreamNodeDto)
  | terminate (code : Nat) (body : Json) (headers : HeaderMap)
  | webSocketUpgrade (resp : HttpResponse) (upstreamAddr : String) (routeId : Nat)

def traceIdFromHeaders (headers : HeaderMap) (fresh : String) : String :=
  match (headers.get "x-trace-id").bind toStr with
  | none   => fresh
  | some s => if (trim s.toList).isEmpty then fresh else String.ofList (trim s.toList)

def isUpgradeRequest (method : String) (headers : HeaderMap) : Bool :=
  method == "GET" &&
  ((headers.get "upgrade").bind toStr).any (eqIgnoreAsciiCase · "websocket") &&
  ((headers.get "connection").bind toStr).any fun s =>
    containsText (toAsciiLowercase s) "upgrade"

def buildUpgradeResponse (acceptKey : String → String) (headers : HeaderMap) : HttpResponse where
  status := 101
  headers :=
    [("upgrade", .ofString "websocket"), ("connection", .ofString "Upgrade"),
      ("sec-websocket-accept", .ofString (acceptKey
        (((headers.get "sec-websocket-key").bind toStr).getD "")))]
  body := .bytes []

def blacklistResponse (traceId : String) : HttpResponse where
  status := 403
  headers := ("content-type", .ofString "application/json") ::
    ((parse traceId).map fun v => ("x-trace-id", v)).toList
  body := .json (.obj [("code", .num ConrogateError.forbidden.code),
    ("msg", .str "forbidden: ip not allowed"), ("data", .null), ("trace_id", .str traceId)])

namespace HttpProtocolHandler

variable (h : HttpProtocolHandler Net P) (env : ExchangeEnv)

def buildRequestMeta (matchInfo : RouteMatchInfo) (headers : HeaderMap) (clientIp : String) :
    RequestMeta where
  matchInfo := matchInfo
  requestId := env.requestId
  traceId := traceIdFromHeaders headers env.traceId
  realIp := resolveRealIp h.net h.trustedProxies clientIp headers

/-! ### Telemetry -/

def recordTerminalMetric (route : RouteSnapshot) (is2xx is3xx is4xx is5xx : Bool)
    (bytesIn bytesOut : Nat) : Handler Unit :=
  emit (.recordMetric (.rawSample env.metricTs h.svc.gateId (some route.id) env.latencyMs
    env.latencyU32 env.latencyU32 env.latencyU32 is2xx.toNat is3xx.toNat is4xx.toNat is5xx.toNat
    0 bytesIn bytesOut))

def recordWsMetric (routeId : Nat) : Handler Unit :=
  emit (.recordMetric (.rawSample env.metricTs h.svc.gateId (some routeId) env.latencyMs
    env.latencyU32 env.latencyU32 env.latencyU32 1 0 0 0 1 0 0))

def rejectionEvent (eventType : String) (m : RequestMeta) (routeId : Nat)
    (upstreamId : Option Nat) (e : ConrogateError) : EventRow where
  ts := env.eventTs
  eventType := eventType
  routeId := some routeId
  upstreamId := upstreamId
  traceId := some m.traceId
  detail := .obj [("client_ip", .str m.realIp), ("reason", .str e.display)]

def recordUpstreamFailedEvent (route : RouteSnapshot) (node : UpstreamNodeDto) (m : RequestMeta)
    (e : ConrogateError) : Handler Unit :=
  emit (.recordEvent {
    ts := env.eventTs
    eventType := "upstream_failed"
    routeId := some route.id
    upstreamId := some node.id
    traceId := some m.traceId
    detail := .obj [("client_ip", .str m.realIp), ("upstream", .str node.address),
      ("reason", .str e.display)] })

/-! ### Before forwarding -/

def pluginContext (m : RequestMeta) (method : String) (headers : HeaderMap)
    (pluginBody : Option (List UInt8)) (route : RouteSnapshot) : PluginContext where
  requestId := m.requestId
  traceId := m.traceId
  routeId := route.id
  clientIp := m.realIp
  protocol := .http
  http := some {
    method := method
    path := m.matchInfo.path
    -- collected into a map: the last value under a key stays
    query := fun key => (m.matchInfo.queryParams.reverse.find? fun p => p.1 == key).map (·.2)
    headers := headers
    body := pluginBody }
  tunnel := none
  responseHeaders := []

def upgradeResponse (m : RequestMeta) (headers : HeaderMap) (route : RouteSnapshot)
    (node : UpstreamNodeDto) : HttpResponse :=
  let resp := buildUpgradeResponse h.acceptKey headers
  let marked := (resp.headers.insertText "x-ws-upstream-addr" node.address).insertText
    "x-ws-host-header" (route.hostHeader.getD (upstreamHost h.http node))
  let stripped := if route.wsStripSensitiveHeaders then
    marked.insert "x-ws-strip-sensitive" (.ofString "1") else marked
  { resp with headers := stripped.insertText "x-ws-trace-id" m.traceId }

def preflight (m : RequestMeta) (method : String) (headers : HeaderMap)
    (pluginBody : Option (List UInt8)) (route : RouteSnapshot) : Handler (PreFlight P) := do
  let plugins := h.svc.routePlugins route.id
  let before ← ofExcept
    (h.svc.executeBeforeRequest (pluginContext m method headers pluginBody route) plugins)
  match before.1 with
  | .terminate code body => return .terminate code body before.2.responseHeaders
  | .continue_ =>
    match h.svc.checkRateLimit route.id m.realIp with
    | .error e =>
      emit (.recordEvent (rejectionEvent env "rate_limited" m route.id none e))
      h.recordTerminalMetric env route false false true false 0 0
      fail e
    | .ok () =>
      let node ← ofExcept (h.svc.selectUpstream route (some m.realIp))
      emit (.selected route.id node)
      match h.svc.checkCircuitBreaker route.id node.id with
      | .error e =>
        h.recordTerminalMetric env route false false false true 0 0
        emit (.recordEvent
          (rejectionEvent env "circuit_breaker_open" m route.id (some node.id) e))
        fail e
      | .ok () =>
        emit (.admitted route.id node.id)
        if isUpgradeRequest method headers then
          return .webSocketUpgrade (h.upgradeResponse m headers route node) node.address route.id
        else
          return .continue_ before.2 plugins route node

/-! ### Forwarding -/

def recordOutcome (route : RouteSnapshot) (node : UpstreamNodeDto) (success : Bool) :
    Handler Unit := do
  emit (.recordResult route.id node.id success)
  emit (.releaseNode route.id node)

def finalizeResponse (m : RequestMeta) (ctx : PluginContext) (plugins : List P)
    (route : RouteSnapshot) (status : Nat) (headers : HeaderMap) (respBody afterBody : List UInt8)
    (bytesIn : Nat) : Handler HttpResponse := do
  ofExcept ((h.http.buildResponse status headers).mapError .upstreamBadResponse)
  let after ← ofExcept (h.svc.executeAfterResponse ctx ⟨status, headers, afterBody⟩ plugins)
  let out := (after.2.headers.insertText "x-trace-id" m.traceId).insertText
    "x-request-id" m.requestId
  h.recordTerminalMetric env route (status == 101 || (200 ≤ status && status < 300))
    (300 ≤ status && status < 400) (400 ≤ status && status < 500) (500 ≤ status)
    bytesIn afterBody.length
  return ⟨status, out, .bytes respBody⟩

def settle (m : RequestMeta) (ctx : PluginContext) (plugins : List P) (route : RouteSnapshot)
    (node : UpstreamNodeDto) (proxied : Result ProxyResult)
    (afterBody : ProxyResult → List UInt8) (bytesIn : Nat) : Handler HttpResponse := do
  recordOutcome route node proxied.isOk
  match proxied with
  | .error e =>
    h.recordTerminalMetric env route false false false true 0 0
    recordUpstreamFailedEvent env route node m e
    fail e
  | .ok r =>
    h.finalizeResponse env m ctx plugins route r.status r.headers r.body (afterBody r) bytesIn

def retryable : Result ProxyResult → Bool
  | .ok r => r.status ≥ 500
  | .error .upstreamTimeout => true
  | .error (.upstreamConnectFailed _) => true
  | .error _ => false

def buildRequest (method : String) (uri : ParsedUri) : Handler Unit :=
  ofExcept ((h.http.buildRequest method uri).mapError fun e =>
    .upstreamConnectFailed ("request build: " ++ e))

def mayAttempt (canRetry : Bool) (attempt : Nat) : Handler Bool := do
  if attempt > 0 then
    if !canRetry then
      return false
    match h.retryBudget with
    | some tryConsume =>
      emit (.tryConsume (tryConsume attempt))
      return tryConsume attempt
    | none => return true
  else
    if h.retryBudget.isSome then
      emit .recordRequest
    return true

/-- The retry loop: `rounds` more rounds, from the one numbered `attempt`. -/
def attempts (canRetry : Bool) (node : UpstreamNodeDto) (out : OutRequest) :
    (rounds attempt : Nat) → Result ProxyResult →
      Handler (Result ProxyResult)
  | 0, _, last => return last
  | rounds + 1, attempt, last => do
    let go ← h.mayAttempt canRetry attempt
    if !go then
      return last
    h.buildRequest out.method out.uri
    emit (.forwardHttp node out)
    let proxied := h.forwardHttp attempt node out
    if retryable proxied && canRetry && attempt < h.maxRetries then
      attempts canRetry node out rounds (attempt + 1) proxied
    else
      return proxied

def outRequest (req : HttpRequest) (m : RequestMeta) (ctx : PluginContext)
    (route : RouteSnapshot) (node : UpstreamNodeDto) (uri : ParsedUri)
    (body : Option (List UInt8)) : OutRequest where
  method := req.method
  uri := uri
  headers := buildOutHeaders h.http route node ((ctx.http.map (·.headers)).getD req.headers)
    m.traceId m.requestId m.realIp
  body := body

def isIdempotent (method : String) : Bool :=
  method == "GET" || method == "HEAD" || method == "OPTIONS"

def canRetry (req : HttpRequest) (route : RouteSnapshot) : Bool :=
  isIdempotent req.method || route.allowRetryNonIdempotent

/-- The last part of `handle`. -/
def forwardBuffered (req : HttpRequest) (m : RequestMeta) (ctx : PluginContext)
    (plugins : List P) (route : RouteSnapshot) (node : UpstreamNodeDto) :
    Handler HttpResponse := do
  let uri ← ofExcept (buildUpstreamUri h.http node req.pathAndQuery)
  h.buildRequest req.method uri
  let proxied ← h.attempts (canRetry req route) node
    (h.outRequest req m ctx route node uri (some req.body)) (h.maxRetries + 1) 0
    (.error (.upstreamConnectFailed "no attempt"))
  h.settle env m ctx plugins route node proxied (·.body) req.body.length

/-- The last part of `handle_stream`: one attempt, and no count of the bytes. -/
def forwardStreamed (req : HttpRequest) (m : RequestMeta) (ctx : PluginContext)
    (plugins : List P) (route : RouteSnapshot) (node : UpstreamNodeDto) :
    Handler HttpResponse := do
  let uri ← ofExcept (buildUpstreamUri h.http node req.pathAndQuery)
  h.buildRequest req.method uri
  let out := h.outRequest req m ctx route node uri none
  emit (.forwardHttp node out)
  h.settle env m ctx plugins route node (h.forwardHttpStream node out) (fun _ => []) 0

/-! ### The two modes -/

def terminateResponse (traceId : String) (code : Nat) (body : Json) (headers : HeaderMap) :
    HttpResponse :=
  let all := ((parse traceId).map fun v => ("x-trace-id", v)).toList ++ headers
  match h.http.buildResponse code all with
  | .ok _    => ⟨code, all, .json body⟩
  | .error _ => ⟨500, [], .bytes []⟩

/-- What a mode does after `preflight`; `forward` is its last part. -/
def dispatch (m : RequestMeta)
    (forward : PluginContext → List P → RouteSnapshot → UpstreamNodeDto → Handler HttpResponse) :
    PreFlight P → Handler HttpResponse
  | .terminate code body headers => return h.terminateResponse m.traceId code body headers
  | .webSocketUpgrade resp _ routeId => do
    h.recordWsMetric env routeId
    return resp
  | .continue_ ctx plugins route node => forward ctx plugins route node

def routeOf (m : RequestMeta) (preMatched : Option RouteSnapshot) :
    Result RouteSnapshot :=
  match preMatched with
  | some route => .ok route
  | none => do
    match ← h.svc.lookupRoute .http m.matchInfo with
    | some route => .ok route
    | none => .error (.routeNotFound m.matchInfo.path)

def conduct (req : HttpRequest) (m : RequestMeta) (pluginBody : Option (List UInt8))
    (found : Result RouteSnapshot)
    (forward : PluginContext → List P → RouteSnapshot → UpstreamNodeDto → Handler HttpResponse) :
    Handler HttpResponse :=
  if h.svc.isBlocked m.realIp then
    return blacklistResponse m.traceId
  else do
    let route ← ofExcept found
    let pre ← h.preflight env m req.method req.headers pluginBody route
    h.dispatch env m forward pre

def handle (req : HttpRequest) (clientIp : String) (matchInfo : RouteMatchInfo)
    (preMatched : Option RouteSnapshot) : Handler HttpResponse :=
  let m := h.buildRequestMeta env matchInfo req.headers clientIp
  h.conduct env req m (some req.body) (h.routeOf m preMatched) (h.forwardBuffered env req m)

def handleStream (req : HttpRequest) (route : RouteSnapshot) (clientIp : String)
    (matchInfo : RouteMatchInfo) : Handler HttpResponse :=
  let m := h.buildRequestMeta env matchInfo req.headers clientIp
  h.conduct env req m none (.ok route) (h.forwardStreamed env req m)

end HttpProtocolHandler

end Conrogate
