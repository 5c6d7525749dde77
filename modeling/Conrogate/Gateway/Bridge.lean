import Conrogate.Protocol.Balance
import Conrogate.Protocol.Tcp

/-!
# Exchanges with a client

A request in either mode, with the tunnel that may follow, or a TCP connection. Its node is to be
released and its admission answered, each exactly once.
-/

namespace Conrogate

open Logged HeaderValue

variable {Net P : Type}

def asksForWebsocket (req : HttpRequest) : Bool :=
  req.method == "GET" &&
  ((req.headers.get "upgrade").bind toStr).any (eqIgnoreAsciiCase · "websocket")

def websocketRequest (req : HttpRequest) (resp : HttpResponse) (upstreamAddr : String) :
    HttpRequest :=
  let host := ((resp.headers.get "x-ws-host-header").bind toStr).getD upstreamAddr
  let headers := if (resp.headers.get "x-ws-strip-sensitive").isSome then
    stripSensitiveHeaders req.headers else req.headers
  { req with headers := headers.insertText "host" host, body := [] }

def websocketTunnel (req : HttpRequest) (upgraded : Bool) (resp : HttpResponse) :
    Handler Unit := do
  if resp.status == 101 && asksForWebsocket req && upgraded then
    match (resp.headers.get "x-ws-upstream-addr").bind toStr with
    | none => return ()
    | some upstreamAddr =>
      emit (.forwardWebsocket upstreamAddr (websocketRequest req resp upstreamAddr))

/-- The body is read before the plugins run, or forwarded as it comes. -/
inductive BodyMode where
  | buffered (preMatched : Option RouteSnapshot)
  | streamed (route : RouteSnapshot)

/-- A request as the bridge hands it to the handler; `upgraded` is whether the connection can be
taken over. -/
structure HttpExchange (Net P : Type) where
  h : HttpProtocolHandler Net P
  req : HttpRequest
  clientIp : String
  matchInfo : RouteMatchInfo
  mode : BodyMode
  upgraded : Bool

namespace HttpExchange

variable (x : HttpExchange Net P) (env : ExchangeEnv)

def respond : Handler HttpResponse :=
  match x.mode with
  | .buffered preMatched => x.h.handle env x.req x.clientIp x.matchInfo preMatched
  | .streamed route => x.h.handleStream env x.req route x.clientIp x.matchInfo

def serve : Handler Unit := do
  let resp ← x.respond env
  websocketTunnel x.req x.upgraded resp

def requestMeta : RequestMeta := x.h.buildRequestMeta env x.matchInfo x.req.headers x.clientIp

def pluginBody : Option (List UInt8) :=
  match x.mode with
  | .buffered _ => some x.req.body
  | .streamed _ => none

def found : Result RouteSnapshot :=
  match x.mode with
  | .buffered preMatched => x.h.routeOf (x.requestMeta env) preMatched
  | .streamed route => .ok route

def forward : PluginContext → List P → RouteSnapshot → UpstreamNodeDto → Handler HttpResponse :=
  match x.mode with
  | .buffered _ => x.h.forwardBuffered env x.req (x.requestMeta env)
  | .streamed _ => x.h.forwardStreamed env x.req (x.requestMeta env)

def Selects (route : RouteSnapshot) (node : UpstreamNodeDto) : Prop :=
  x.h.svc.isBlocked (x.requestMeta env).realIp = false ∧ x.found env = .ok route ∧
    x.h.Selects (x.requestMeta env) x.req.method x.req.headers x.pluginBody route node

/-- The two modes differ in the body that the plugins see and in how the request is forwarded. -/
lemma respond_eq : x.respond env =
    x.h.conduct env x.req (x.requestMeta env) x.pluginBody (x.found env) (x.forward env) := by
  obtain ⟨h, req, clientIp, matchInfo, mode, upgraded⟩ := x
  cases mode with
  | buffered preMatched => rfl
  | streamed route => rfl

variable (ctx : PluginContext) (plugins : List P) (route : RouteSnapshot) {node : UpstreamNodeDto}

lemma forward_returns (hcan : x.h.CanForward x.req node) :
    Returns route.id node (x.forward env ctx plugins route node).effects := by
  obtain ⟨h, req, clientIp, matchInfo, mode, upgraded⟩ := x
  cases mode with
  | buffered preMatched => exact h.forwardBuffered_returns env hcan _ ctx plugins route
  | streamed known => exact h.forwardStreamed_returns env hcan _ ctx plugins route

lemma forward_of_not_canForward (hcan : ¬ x.h.CanForward x.req node) :
    ∃ e, x.forward env ctx plugins route node = fail e := by
  obtain ⟨h, req, clientIp, matchInfo, mode, upgraded⟩ := x
  cases mode with
  | buffered preMatched => exact h.fails_of_not_canForward hcan _
  | streamed known => exact h.fails_of_not_canForward hcan _

end HttpExchange

/-- A streamed request, for which one node is there and answers. -/
def openExchange (answer : ProxyResult) (path : String) (headers : HeaderMap) :
    HttpExchange IpNet Unit :=
  let req := getRequest path headers
  ⟨openHandler (.ok openNode) (.ok answer), req, "1.2.3.4", req.matchInfo,
    .streamed (openRoute false), true⟩

inductive Exchange (Net P : Type) where
  | http (x : HttpExchange Net P)
  | tunnel (t : TcpTunnelProtocolHandler P) (conn : TcpConnection)

namespace Exchange

def serve (env : ExchangeEnv) : Exchange Net P → Handler Unit
  | http x => x.serve env
  | tunnel t conn => t.handle env conn

def Selects (env : ExchangeEnv) : Exchange Net P → RouteSnapshot → UpstreamNodeDto → Prop
  | http x, route, node => x.Selects env route node
  | tunnel t conn, route, node => t.Selects env conn route node

def Forwards : Exchange Net P → RouteSnapshot → UpstreamNodeDto → Prop
  | http x, route, node => x.h.Forwards x.req route node
  | tunnel t _, route, node => t.svc.checkCircuitBreaker route.id node.id = .ok ()

lemma websocketTunnel_neutral (req : HttpRequest) (upgraded : Bool) (resp : HttpResponse) :
    Always Effect.Neutral (websocketTunnel req upgraded resp) := by
  rw [websocketTunnel]
  split_ifs
  · cases (resp.headers.get "x-ws-upstream-addr").bind toStr with
    | none => exact .pure
    | some upstreamAddr => exact .emit (Effect.neutral_forwardWebsocket _ _)
  · exact .pure

lemma balanced_bind_websocketTunnel (x : Handler HttpResponse) (req : HttpRequest)
    (upgraded : Bool) :
    Balanced (x >>= websocketTunnel req upgraded).effects ↔ Balanced x.effects := by
  cases hres : x.result with
  | error e => rw [bind_of_error hres]
  | ok resp =>
    rw [bind_of_ok hres]
    exact balanced_append_iff (websocketTunnel_neutral req upgraded resp)

/-- Over a whole exchange every node is released once and every admission answered once, exactly
when the exchange is forwarded to each node that is selected for it. -/
theorem exchange_balanced_iff (env : ExchangeEnv) (x : Exchange Net P) :
    Balanced (x.serve env).effects ↔
      ∀ route node, x.Selects env route node → x.Forwards route node := by
  cases x with
  | http x =>
    rw [serve, HttpExchange.serve, balanced_bind_websocketTunnel, x.respond_eq,
      x.h.balanced_conduct_iff env x.req]
    · constructor
      · rintro hall route node ⟨hwelcome, hroute, hsel⟩
        exact hall route node hwelcome hroute hsel
      · intro hall route node hwelcome hroute hsel
        exact hall route node ⟨hwelcome, hroute, hsel⟩
    · exact fun route node ctx plugins hcan => x.forward_returns env ctx plugins route hcan
    · intro route node ctx plugins hcan
      obtain ⟨e, hfail⟩ := x.forward_of_not_canForward env ctx plugins route hcan
      rw [hfail]
      rfl
  | tunnel t conn => exact t.balanced_handle_iff env conn

/-- A WebSocket client is served: the node is selected and admitted, the tunnel is opened, and
neither `release_node` nor `record_result` is ever called. -/
theorem websocket_exchange_keeps_node :
    let x := openExchange ⟨200, [], []⟩ "/ws"
      [("upgrade", .ofString "websocket"), ("connection", .ofString "Upgrade")]
    let log := ((http x).serve openEnv).effects
    (∃ row handshake, log = [.selected 1 openNode, .admitted 1 4, .recordMetric row,
      .forwardWebsocket "10.0.0.9:80" handshake]) ∧
    ¬ Balanced log := by
  intro x log
  refine ⟨⟨_, _, rfl⟩, ?_⟩
  rintro ⟨⟨hnode, -⟩, -⟩
  have hcount := hnode (1, openNode) rfl
  cases hcount

end Exchange

end Conrogate
