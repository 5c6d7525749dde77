import Conrogate.Protocol.Handler

/-!
# The TCP tunnel handler

`TcpTunnelProtocolHandler::handle`: the same order of steps as for a request, with one attempt
and no body to inspect.
-/

namespace Conrogate

open Logged

variable {P : Type}

structure TcpTunnelProtocolHandler (P : Type) where
  svc : ServiceContext P
  http : HttpCrate
  connQps : Nat
  bandwidthKbps : Nat
  forwardTcp : UpstreamNodeDto → (maxBytesPerSec : Option Nat) →
    Result TunnelStats

structure TcpConnection where
  listenAddr : String
  sni : Option String
  clientIp : String

namespace TcpTunnelProtocolHandler

variable (t : TcpTunnelProtocolHandler P) (env : ExchangeEnv)

def recordPreTunnelFailure (routeId : Option Nat) (is4xx : Bool) : Handler Unit :=
  emit (.recordMetric (.rawSample env.metricTs t.svc.gateId routeId 0 0 0 0 0 0 is4xx.toNat
    (!is4xx).toNat 0 0 0))

def listenPort (listenAddr : String) : Nat :=
  ((afterLast ':' listenAddr.toList).bind (parseUnsigned 65535)).getD 0

def pluginContext (conn : TcpConnection) (route : RouteSnapshot) : PluginContext where
  requestId := env.requestId
  traceId := env.traceId
  routeId := route.id
  clientIp := conn.clientIp
  protocol := .tcpTunnel
  http := none
  tunnel := some {
    remoteAddr := conn.listenAddr
    sni := conn.sni
    alpn := none
    listenPort := listenPort conn.listenAddr }
  responseHeaders := []

def connLimitRoute : Nat := 18446744073709551615

def checkLimits (conn : TcpConnection) (route : RouteSnapshot) (clientIp : String) :
    Result Unit := do
  t.svc.checkRateLimit route.id clientIp
  if t.connQps > 0 then
    t.svc.checkRateLimit connLimitRoute ("conn:" ++ conn.listenAddr)

def forward (ctx : PluginContext) (route : RouteSnapshot) (node : UpstreamNodeDto) :
    Handler Unit := do
  let maxBytesPerSec := if t.bandwidthKbps > 0 then some (t.bandwidthKbps * 1024) else none
  emit (.forwardTcp node maxBytesPerSec)
  let result := t.forwardTcp node maxBytesPerSec
  emit (.recordResult route.id node.id result.isOk)
  emit (.releaseNode route.id node)
  let stats := result.toOption.getD ⟨0, 0⟩
  emit (.recordMetric (.rawSample env.metricTs t.svc.gateId (some route.id) env.latencyMs 0 0 0
    result.isOk.toNat 0 0 (!result.isOk).toNat 1 stats.bytesIn stats.bytesOut))
  emit (.onDisconnect ctx)
  ofExcept (result.map fun _ => ())

def handle (conn : TcpConnection) : Handler Unit := do
  if t.svc.isBlocked conn.clientIp then
    t.recordPreTunnelFailure env none true
    fail .forbidden
  else
    let found ← ofExcept
      (t.svc.lookupRoute .tcpTunnel (.fromTunnel conn.listenAddr conn.sni))
    match found with
    | none =>
      t.recordPreTunnelFailure env none false
      fail (.routeNotFound conn.listenAddr)
    | some route =>
      let before ← ofExcept (t.svc.executeOnConnect (pluginContext env conn route)
        (t.svc.routePlugins route.id))
      match before.1 with
      | .terminate code _ =>
        t.recordPreTunnelFailure env (some route.id) false
        fail (.pluginRuntime ("plugin rejected: " ++ t.http.displayStatus code))
      | .continue_ =>
        match t.checkLimits conn route before.2.clientIp with
        | .error e =>
          t.recordPreTunnelFailure env (some route.id) true
          fail e
        | .ok () =>
          let node ← ofExcept (t.svc.selectUpstream route (some conn.clientIp))
          emit (.selected route.id node)
          match t.svc.checkCircuitBreaker route.id node.id with
          | .error e =>
            t.recordPreTunnelFailure env (some route.id) false
            fail e
          | .ok () =>
            emit (.admitted route.id node.id)
            t.forward env before.2 route node

structure Selects (conn : TcpConnection) (route : RouteSnapshot) (node : UpstreamNodeDto) :
    Prop where
  welcome : t.svc.isBlocked conn.clientIp = false
  lookup : t.svc.lookupRoute .tcpTunnel (.fromTunnel conn.listenAddr conn.sni) = .ok (some route)
  admitted : ∃ ctx, t.svc.executeOnConnect (pluginContext env conn route)
    (t.svc.routePlugins route.id) = .ok (.continue_, ctx) ∧
      t.checkLimits conn route ctx.clientIp = .ok ()
  balancer : t.svc.selectUpstream route (some conn.clientIp) = .ok node

lemma forward_returns (ctx : PluginContext) (route : RouteSnapshot) (node : UpstreamNodeDto) :
    Returns route.id node (t.forward env ctx route node).effects := by
  refine ⟨[_], _, [_, _], ?_, ?_, rfl⟩
  · simp
  · simp

inductive HandleEnd (conn : TcpConnection) : List Effect → Prop
  | turnedAway (log : List Effect) (hno : ∀ route node, ¬ t.Selects env conn route node)
      (hlog : ∀ w ∈ log, w.Neutral) : HandleEnd conn log
  | refused (route : RouteSnapshot) (node : UpstreamNodeDto) (log : List Effect)
      (e : ConrogateError) (hsel : t.Selects env conn route node)
      (hbreaker : t.svc.checkCircuitBreaker route.id node.id = .error e)
      (hlog : ∀ w ∈ log, w.Neutral) : HandleEnd conn (.selected route.id node :: log)
  | forwarded (route : RouteSnapshot) (node : UpstreamNodeDto) (log : List Effect)
      (hsel : t.Selects env conn route node)
      (hbreaker : t.svc.checkCircuitBreaker route.id node.id = .ok ())
      (hlog : Returns route.id node log) :
      HandleEnd conn (.selected route.id node :: .admitted route.id node.id :: log)

lemma handle_neutral {conn : TcpConnection} (hno : ∀ route node, ¬ t.Selects env conn route node) :
    Always Effect.Neutral (t.handle env conn) := by
  have hfailure : ∀ routeId limited, Always Effect.Neutral
      (t.recordPreTunnelFailure env routeId limited) := fun _ _ => .emit (by simp)
  rw [handle]
  split_ifs with hblocked
  · exact .bind (hfailure _ _) fun _ _ => .fail
  refine .bind (.ofExcept _) fun found hlookup => ?_
  cases found with
  | none => exact .bind (hfailure _ _) fun _ _ => .fail
  | some route =>
    refine .bind (.ofExcept _) fun before hconnect => ?_
    obtain ⟨outcome, ctx⟩ := before
    cases outcome with
    | terminate code body => exact .bind (hfailure _ _) fun _ _ => .fail
    | continue_ =>
      cases hlimits : t.checkLimits conn route ctx.clientIp with
      | error e => exact .bind (hfailure _ _) fun _ _ => .fail
      | ok u =>
        refine .bind (.ofExcept _) fun node hnode => ?_
        exact absurd ⟨by simpa using hblocked, hlookup, ⟨ctx, hconnect, hlimits⟩, hnode⟩
          (hno route node)

lemma handle_end (conn : TcpConnection) : t.HandleEnd env conn (t.handle env conn).effects := by
  by_cases hsel : ∃ route node, t.Selects env conn route node
  · obtain ⟨route, node, hsel⟩ := hsel
    obtain ⟨ctx, hconnect, hlimits⟩ := hsel.admitted
    cases hbreaker : t.svc.checkCircuitBreaker route.id node.id with
    | error e =>
      simp only [handle, hsel.welcome, hsel.lookup, hconnect, hlimits, hsel.balancer, hbreaker,
        ofExcept_ok_bind, recordPreTunnelFailure, emit_bind]
      exact .refused route node [_] e hsel hbreaker (by simp)
    | ok u =>
      simp only [handle, hsel.welcome, hsel.lookup, hconnect, hlimits, hsel.balancer, hbreaker,
        ofExcept_ok_bind, emit_bind]
      exact .forwarded route node _ hsel hbreaker (t.forward_returns env ctx route node)
  · have hno : ∀ route node, ¬ t.Selects env conn route node := by simpa using hsel
    exact .turnedAway _ hno (t.handle_neutral env hno)

lemma balanced_handle_iff (conn : TcpConnection) :
    Balanced (t.handle env conn).effects ↔
      ∀ route node, t.Selects env conn route node →
        t.svc.checkCircuitBreaker route.id node.id = .ok () := by
  have hend := t.handle_end env conn
  generalize (t.handle env conn).effects = log at hend ⊢
  cases hend with
  | turnedAway log hno hlog =>
    exact iff_of_true (balanced_of_neutral hlog) fun route node hsel =>
      absurd hsel (hno route node)
  | refused route node log e hsel hbreaker hlog =>
    refine iff_of_false (not_balanced_of_refused route.id node hlog) ?_
    intro hall
    have := hall route node hsel
    rw [hbreaker] at this
    cases this
  | forwarded route node log hsel hbreaker hlog =>
    refine iff_of_true (balanced_of_returns route.id node hlog) ?_
    intro route' node' hsel'
    -- the lookup and the balancer have one answer each
    obtain rfl : route = route' :=
      Option.some.inj (Except.ok.inj (hsel.lookup.symm.trans hsel'.lookup))
    obtain rfl : node = node' := Except.ok.inj (hsel.balancer.symm.trans hsel'.balancer)
    exact hbreaker

end TcpTunnelProtocolHandler

end Conrogate
