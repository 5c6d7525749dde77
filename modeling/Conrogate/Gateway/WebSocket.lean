import Conrogate.Gateway.Bridge

/-!
# WebSocket tunnels

The bridge opens a tunnel on a response 101 that names an upstream in a header. A plugin or an
upstream can answer so as well as the handler.
-/

namespace Conrogate

open Logged List HttpProtocolHandler HeaderMap HeaderValue Effect

variable {Net P : Type}

def upstreamNamed (headers : HeaderMap) : Option String :=
  (headers.get "x-ws-upstream-addr").bind HeaderValue.toStr

def withTraceId (traceId : String) (headers : HeaderMap) : HeaderMap :=
  ((HeaderValue.parse traceId).map fun v => ("x-trace-id", v)).toList ++ headers

namespace HttpExchange

variable (x : HttpExchange Net P) (env : ExchangeEnv)

def log : List Effect := (x.serve env).effects

/-- What the upstream answers in the end. -/
def outcome : RouteSnapshot → PluginContext → UpstreamNodeDto → ParsedUri →
    Result ProxyResult :=
  match x.mode with
  | .buffered _ => x.h.bufferedOutcome x.req (x.requestMeta env)
  | .streamed _ => x.h.streamedOutcome x.req (x.requestMeta env)

def answerBody (r : ProxyResult) : List UInt8 :=
  match x.mode with
  | .buffered _ => r.body
  | .streamed _ => []

structure Ready : Prop where
  asks : asksForWebsocket x.req = true
  handedOver : x.upgraded = true
  welcome : x.h.svc.isBlocked (x.requestMeta env).realIp = false

structure Upgrades (route : RouteSnapshot) (ctx : PluginContext) (node : UpstreamNodeDto) :
    Prop where
  matched : x.found env = .ok route
  passes : x.h.Passes (x.requestMeta env) x.req.method x.req.headers x.pluginBody route ctx node
  breaker : x.h.svc.checkCircuitBreaker route.id node.id = .ok ()
  upgrade : isUpgradeRequest x.req.method x.req.headers = true

inductive Foreign : HeaderMap → Prop
  | plugin (route : RouteSnapshot) (body : Json) (ctx : PluginContext)
      (hroute : x.found env = .ok route)
      (hplugins : x.h.beforeRequest (x.requestMeta env) x.req.method x.req.headers x.pluginBody
        route = .ok (.terminate 101 body, ctx))
      (hbuild : x.h.http.buildResponse 101
        (withTraceId (x.requestMeta env).traceId ctx.responseHeaders) = .ok ()) :
      Foreign (withTraceId (x.requestMeta env).traceId ctx.responseHeaders)
  | upstream (route : RouteSnapshot) (ctx : PluginContext) (node : UpstreamNodeDto)
      (uri : ParsedUri) (r : ProxyResult) (after : PluginContext × PluginResponse)
      (hroute : x.found env = .ok route)
      (hreach : x.h.Reaches x.req (x.requestMeta env) x.pluginBody route ctx node uri)
      (hanswer : x.outcome env route ctx node uri = .ok r) (hstatus : r.status = 101)
      (hbuild : x.h.http.buildResponse 101 r.headers = .ok ())
      (hafter : x.h.svc.executeAfterResponse ctx ⟨101, r.headers, x.answerBody r⟩
        (x.h.svc.routePlugins route.id) = .ok after) :
      Foreign ((after.2.headers.insertText "x-trace-id" (x.requestMeta env).traceId).insertText
        "x-request-id" (x.requestMeta env).requestId)

/-! ### The answer of the handler -/

section

variable (ctx : PluginContext) (plugins : List P) (route : RouteSnapshot)
  {node : UpstreamNodeDto} {uri : ParsedUri}

lemma forward_eq
    (huri : buildUpstreamUri x.h.http node x.req.pathAndQuery = .ok uri)
    (hbuild : x.h.http.buildRequest x.req.method uri = .ok ()) :
    ∃ log k bytesIn, (∀ w ∈ log, w.OfLoop) ∧
      log.filterMap forwarded = List.replicate (k + 1)
        (node, x.h.outRequest x.req (x.requestMeta env) ctx route node uri x.pluginBody) ∧
      x.forward env ctx plugins route node =
        let rest := x.h.settle env (x.requestMeta env) ctx plugins route node
          (x.outcome env route ctx node uri) x.answerBody bytesIn
        ⟨log ++ rest.effects, rest.result⟩ := by
  obtain ⟨h, req, clientIp, matchInfo, mode, upgraded⟩ := x
  cases mode with
  | buffered preMatched =>
    obtain ⟨log, hloop, hforwarded, heq⟩ := h.forwardBuffered_eq env
      (h.buildRequestMeta env matchInfo req.headers clientIp) ctx plugins route huri hbuild
    exact ⟨log, _, req.body.length, hloop, hforwarded, heq⟩
  | streamed known =>
    have heq := h.forwardStreamed_eq env (h.buildRequestMeta env matchInfo req.headers clientIp)
      ctx plugins route huri hbuild
    refine ⟨_, 0, 0, ?_, rfl, heq⟩
    exact forall_mem_singleton.mpr trivial

end

inductive Ending (route : RouteSnapshot) : HttpResponse → Prop
  | plugin (code : Nat) (body : Json) (ctx : PluginContext)
      (hplugins : x.h.beforeRequest (x.requestMeta env) x.req.method x.req.headers x.pluginBody
        route = .ok (.terminate code body, ctx)) :
      Ending route
        (x.h.terminateResponse (x.requestMeta env).traceId code body ctx.responseHeaders)
  | upgrade (ctx : PluginContext) (node : UpstreamNodeDto) (hup : x.Upgrades env route ctx node) :
      Ending route (x.h.upgradeResponse (x.requestMeta env) x.req.headers route node)
  | upstream (ctx : PluginContext) (node : UpstreamNodeDto) (uri : ParsedUri) (r : ProxyResult)
      (after : PluginContext × PluginResponse)
      (hreach : x.h.Reaches x.req (x.requestMeta env) x.pluginBody route ctx node uri)
      (hanswer : x.outcome env route ctx node uri = .ok r)
      (hbuild : x.h.http.buildResponse r.status r.headers = .ok ())
      (hafter : x.h.svc.executeAfterResponse ctx ⟨r.status, r.headers, x.answerBody r⟩
        (x.h.svc.routePlugins route.id) = .ok after) :
      Ending route ⟨r.status, (after.2.headers.insertText "x-trace-id"
        (x.requestMeta env).traceId).insertText "x-request-id" (x.requestMeta env).requestId,
        .bytes r.body⟩

def Switches (headers : HeaderMap) : Prop :=
  (∃ route ctx node, x.Upgrades env route ctx node ∧
    headers = (x.h.upgradeResponse (x.requestMeta env) x.req.headers route node).headers) ∨
  x.Foreign env headers

lemma terminateResponse_of_builds {h : HttpProtocolHandler Net P} {traceId : String} {code : Nat}
    (body : Json) {headers : HeaderMap}
    (hbuild : h.http.buildResponse code (withTraceId traceId headers) = .ok ()) :
    h.terminateResponse traceId code body headers =
      ⟨code, withTraceId traceId headers, .json body⟩ := by
  rw [withTraceId] at hbuild
  simp only [terminateResponse, hbuild, withTraceId]

lemma foreign_of_terminated {route : RouteSnapshot} {code : Nat} {body : Json}
    {ctx : PluginContext} {headers : HeaderMap} {payload : Payload}
    (hroute : x.found env = .ok route)
    (hplugins : x.h.beforeRequest (x.requestMeta env) x.req.method x.req.headers x.pluginBody
      route = .ok (.terminate code body, ctx))
    (hresp : x.h.terminateResponse (x.requestMeta env).traceId code body ctx.responseHeaders =
      ⟨101, headers, payload⟩) : x.Foreign env headers := by
  simp only [terminateResponse] at hresp
  split at hresp
  · next hbuild =>
    injection hresp with hcode hheaders
    subst hcode hheaders
    exact .plugin route body ctx hroute hplugins hbuild
  · injection hresp with hcode
    cases hcode

section

variable {x env} {route : RouteSnapshot} {headers : HeaderMap}

section

variable (hwelcome : x.h.svc.isBlocked (x.requestMeta env).realIp = false)
  (hroute : x.found env = .ok route)
include hwelcome hroute

lemma respond_of_found :
    x.respond env =
      x.h.preflight env (x.requestMeta env) x.req.method x.req.headers x.pluginBody route >>=
        x.h.dispatch env (x.requestMeta env) (x.forward env) := by
  rw [respond_eq, conduct, if_neg (by simp [hwelcome]), hroute, ofExcept_ok_bind]

lemma respond_eq_ok_iff {resp : HttpResponse} :
    (x.respond env).result = .ok resp ↔ x.Ending env route resp := by
  rw [respond_of_found hwelcome hroute]
  constructor
  · intro hresp
    have hcourse := x.h.preflight_course env (x.requestMeta env) x.req.method x.req.headers
      x.pluginBody route
    generalize x.h.preflight env (x.requestMeta env) x.req.method x.req.headers x.pluginBody
      route = pre at hcourse hresp
    cases hcourse with
    | pluginFailed e hplugins => cases hresp
    | terminated code body ctx hplugins =>
      cases hresp
      exact .plugin code body ctx hplugins
    | limited ctx e hplugins hlimits => cases hresp
    | noNode e hnode => cases hresp
    | refused ctx node e hpass hbreaker => cases hresp
    | upgraded ctx node hpass hbreaker hupgrade =>
      cases hresp
      exact .upgrade ctx node ⟨hroute, hpass, hbreaker, hupgrade⟩
    | admitted ctx node hpass hbreaker hplain =>
      replace hresp : (x.forward env ctx (x.h.svc.routePlugins route.id) route node).result =
        .ok resp := hresp
      by_cases hcan : x.h.CanForward x.req node
      · obtain ⟨uri, huri, hbuild⟩ := hcan
        obtain ⟨log, k, bytesIn, -, -, hforward⟩ :=
          x.forward_eq env ctx (x.h.svc.routePlugins route.id) route huri hbuild
        rw [hforward] at hresp
        obtain ⟨r, after, hanswer, hbuilds, hafter, rfl⟩ :=
          (x.h.settle_eq_ok_iff env _ _ _ _ _ _ _ _ _).mp hresp
        exact .upstream ctx node uri r after ⟨hpass, hbreaker, hplain, huri, hbuild⟩ hanswer
          hbuilds hafter
      · obtain ⟨e, hfail⟩ := x.forward_of_not_canForward env ctx
          (x.h.svc.routePlugins route.id) route hcan
        rw [hfail] at hresp
        cases hresp
  · intro hending
    cases hending with
    | plugin code body ctx hplugins =>
      rw [preflight, ← beforeRequest, hplugins]
      rfl
    | upgrade ctx node hup =>
      rw [preflight_of_upgraded env hup.passes hup.breaker hup.upgrade]
      rfl
    | upstream ctx node uri r after hreach hanswer hbuild hafter =>
      obtain ⟨log, k, bytesIn, -, -, hforward⟩ :=
        x.forward_eq env ctx (x.h.svc.routePlugins route.id) route hreach.parses hreach.builds
      rw [preflight_of_admitted env hreach.toPasses hreach.breaker hreach.plain]
      refine (congrArg Logged.result hforward).trans ?_
      exact (x.h.settle_eq_ok_iff env _ _ _ _ _ _ _ _ _).mpr
        ⟨r, after, hanswer, hbuild, hafter, rfl⟩

lemma switches_of_respond {payload : Payload}
    (hresp : (x.respond env).result = .ok ⟨101, headers, payload⟩) : x.Switches env headers := by
  have hending := (respond_eq_ok_iff hwelcome hroute).mp hresp
  generalize heq : HttpResponse.mk 101 headers payload = resp at hending
  cases hending with
  | plugin code body ctx hplugins =>
    exact .inr (x.foreign_of_terminated env hroute hplugins heq.symm)
  | upgrade ctx node hup => exact .inl ⟨route, ctx, node, hup, congrArg HttpResponse.headers heq⟩
  | upstream ctx node uri r after hreach hanswer hbuild hafter =>
    injection heq with hstatus hheaders
    rw [← hstatus] at hbuild hafter
    subst hheaders
    exact .inr (.upstream route ctx node uri r after hroute hreach hanswer hstatus.symm hbuild
      hafter)

end

lemma found_of_respond {payload : Payload}
    (hresp : (x.respond env).result = .ok ⟨101, headers, payload⟩) :
    x.h.svc.isBlocked (x.requestMeta env).realIp = false ∧ ∃ route, x.found env = .ok route := by
  rw [respond_eq, conduct] at hresp
  split_ifs at hresp with hblocked
  · cases hresp
  · cases hfound : x.found env with
    | error e =>
      rw [hfound] at hresp
      cases hresp
    | ok route => exact ⟨by simpa using hblocked, route, rfl⟩

lemma respond_of_switches (hwelcome : x.h.svc.isBlocked (x.requestMeta env).realIp = false)
    (hswitches : x.Switches env headers) :
    ∃ payload, (x.respond env).result = .ok ⟨101, headers, payload⟩ := by
  obtain ⟨route, ctx, node, hup, rfl⟩ | hforeign := hswitches
  · exact ⟨_, (respond_eq_ok_iff hwelcome hup.matched).mpr (.upgrade ctx node hup)⟩
  · cases hforeign with
    | plugin route body ctx hroute hplugins hbuild =>
      refine ⟨.json body, (respond_eq_ok_iff hwelcome hroute).mpr ?_⟩
      rw [← terminateResponse_of_builds body hbuild]
      exact .plugin 101 body ctx hplugins
    | upstream route ctx node uri r after hroute hreach hanswer hstatus hbuild hafter =>
      rw [← hstatus] at hbuild hafter ⊢
      exact ⟨_, (respond_eq_ok_iff hwelcome hroute).mpr
        (.upstream ctx node uri r after hreach hanswer hbuild hafter)⟩

end

/-! ### The tunnel -/

end HttpExchange

def Effect.sentHeaders : Effect → Option HeaderMap
  | forwardHttp _ out => some out.headers
  | forwardWebsocket _ req => some req.headers
  | _ => none

def Effect.Quiet (traceId : String) : Effect → Prop
  | forwardHttp _ _ | forwardWebsocket _ _ => False
  | recordEvent row => row.traceId = some traceId
  | _ => True

namespace HttpProtocolHandler

variable (h : HttpProtocolHandler Net P) (env : ExchangeEnv)

lemma preflight_sends_nothing (m : RequestMeta) (method : String) (headers : HeaderMap)
    (pluginBody : Option (List UInt8)) (route : RouteSnapshot) :
    Always (·.Quiet m.traceId) (h.preflight env m method headers pluginBody route) := by
  have hcourse := h.preflight_course env m method headers pluginBody route
  generalize h.preflight env m method headers pluginBody route = pre at hcourse ⊢
  cases hcourse <;> simp [Always, recordTerminalMetric, Effect.Quiet, rejectionEvent]

end HttpProtocolHandler

namespace HttpExchange

variable (x : HttpExchange Net P) (env : ExchangeEnv)

section

variable {Q : Effect → Prop} (hquiet : ∀ w, Effect.Quiet (x.requestMeta env).traceId w → Q w)
  (hout : ∀ ctx route node uri, Q (.forwardHttp node
    (x.h.outRequest x.req (x.requestMeta env) ctx route node uri x.pluginBody)))
include hquiet hout

lemma loop_always {ctx : PluginContext} {route : RouteSnapshot} {node : UpstreamNodeDto}
    {uri : ParsedUri} {log : List Effect} {k : Nat}
    (hloop : ∀ w ∈ log, w.OfLoop)
    (hforwarded : log.filterMap forwarded = List.replicate k
      (node, x.h.outRequest x.req (x.requestMeta env) ctx route node uri x.pluginBody)) :
    ∀ w ∈ log, Q w := by
  intro w hw
  have hofLoop := hloop w hw
  cases w with
  | forwardHttp node' out' =>
    have hmem : (node', out') ∈ log.filterMap forwarded :=
      mem_filterMap.mpr ⟨_, hw, rfl⟩
    rw [hforwarded] at hmem
    cases eq_of_mem_replicate hmem
    exact hout ctx route node uri
  | recordRequest => exact hquiet _ trivial
  | tryConsume granted => exact hquiet _ trivial
  | _ => exact hofLoop.elim

lemma forward_always (ctx : PluginContext) (plugins : List P) (route : RouteSnapshot)
    (node : UpstreamNodeDto) : Always Q (x.forward env ctx plugins route node) := by
  by_cases hcan : x.h.CanForward x.req node
  · obtain ⟨uri, huri, hbuild⟩ := hcan
    obtain ⟨log, k, bytesIn, hloop, hforwarded, hforward⟩ :=
      x.forward_eq env ctx plugins route huri hbuild
    rw [hforward]
    refine forall_mem_append.mpr ⟨x.loop_always env hquiet hout hloop hforwarded, ?_⟩
    exact x.h.settle_always env (fun _ => hquiet _ trivial) (hquiet _ trivial)
      (fun _ => hquiet _ trivial) (fun _ => .emit (hquiet _ rfl)) _ _ _ _
  · obtain ⟨e, hfail⟩ := x.forward_of_not_canForward env ctx plugins route hcan
    rw [hfail]
    simp [Always]

lemma respond_always : Always Q (x.respond env) := by
  rw [respond_eq, conduct]
  split_ifs
  · exact .pure
  · refine .bind (.ofExcept _) fun route hroute => .bind ?_ fun pre hpre => ?_
    · exact fun w hw => hquiet w (x.h.preflight_sends_nothing env _ _ _ _ _ w hw)
    · cases pre with
      | continue_ ctx plugins route node => exact x.forward_always env hquiet hout _ _ _ _
      | terminate code body headers => exact .pure
      | webSocketUpgrade resp addr routeId =>
        exact .bind (.emit (hquiet _ trivial)) fun _ _ => .pure

end

lemma forwardWebsocket_mem_websocketTunnel_iff (req : HttpRequest) (upgraded : Bool)
    (resp : HttpResponse) (addr : String) (handshake : HttpRequest) :
    .forwardWebsocket addr handshake ∈ (websocketTunnel req upgraded resp).effects ↔
      resp.status = 101 ∧ asksForWebsocket req = true ∧ upgraded = true ∧
        upstreamNamed resp.headers = some addr ∧ handshake = websocketRequest req resp addr := by
  rw [websocketTunnel, upstreamNamed]
  split_ifs with hready
  · obtain ⟨⟨hstatus, hasks⟩, hupgraded⟩ : (resp.status = 101 ∧ asksForWebsocket req = true) ∧
      upgraded = true := by simpa using hready
    cases (resp.headers.get "x-ws-upstream-addr").bind toStr with
    | none => simp
    | some named =>
      simp only [effects_emit, mem_singleton, forwardWebsocket.injEq, hstatus, hasks,
        hupgraded, true_and, Option.some.injEq]
      constructor
      · rintro ⟨rfl, rfl⟩
        exact ⟨rfl, rfl⟩
      · rintro ⟨rfl, rfl⟩
        exact ⟨rfl, rfl⟩
  · refine iff_of_false (by simp) ?_
    rintro ⟨hstatus, hasks, hupgraded, -⟩
    simp [hstatus, hasks, hupgraded] at hready

lemma forwardWebsocket_mem_log_iff (addr : String) (handshake : HttpRequest) :
    .forwardWebsocket addr handshake ∈ x.log env ↔
      x.Ready env ∧ ∃ headers, x.Switches env headers ∧ upstreamNamed headers = some addr ∧
        handshake = websocketRequest x.req ⟨101, headers, .bytes []⟩ addr := by
  have hno : .forwardWebsocket addr handshake ∉ (x.respond env).effects := by
    intro hmem
    have hall := x.respond_always env (Q := fun w => w ≠ .forwardWebsocket addr handshake)
      (fun w hw heq => by rw [heq] at hw; cases hw) (fun _ _ _ _ heq => by cases heq)
    exact hall _ hmem rfl
  rw [log, serve]
  cases hresult : (x.respond env).result with
  | error e =>
    rw [bind_of_error hresult]
    refine iff_of_false hno ?_
    rintro ⟨hready, headers, hswitches, -⟩
    obtain ⟨payload, hresp⟩ := respond_of_switches hready.welcome hswitches
    cases hresult.symm.trans hresp
  | ok resp =>
    rw [bind_of_ok hresult, mem_append, or_iff_right hno, forwardWebsocket_mem_websocketTunnel_iff]
    obtain ⟨status, headers, payload⟩ := resp
    constructor
    · rintro ⟨rfl, hasks, hupgraded, hnamed, rfl⟩
      obtain ⟨hwelcome, route, hroute⟩ := found_of_respond hresult
      exact ⟨⟨hasks, hupgraded, hwelcome⟩, headers, switches_of_respond hwelcome hroute hresult,
        hnamed, rfl⟩
    · rintro ⟨hready, headers', hswitches, hnamed, rfl⟩
      obtain ⟨payload', hresp⟩ := respond_of_switches hready.welcome hswitches
      cases hresult.symm.trans hresp
      exact ⟨rfl, hready.asks, hready.handedOver, hnamed, rfl⟩

lemma mem_log_iff {w : Effect} (hw : ∀ addr handshake, w ≠ .forwardWebsocket addr handshake) :
    w ∈ x.log env ↔ w ∈ (x.respond env).effects := by
  rw [log, serve]
  cases hresult : (x.respond env).result with
  | error e => rw [bind_of_error hresult]
  | ok resp =>
    rw [bind_of_ok hresult, mem_append, or_iff_left_iff_imp]
    intro hmem
    rw [websocketTunnel] at hmem
    split_ifs at hmem
    · split at hmem
      · cases hmem
      · exact absurd (mem_singleton.mp hmem) (hw _ _)
    · cases hmem

lemma reaches_of_mem_log {node : UpstreamNodeDto} {out : OutRequest}
    (hmem : .forwardHttp node out ∈ x.log env) :
    x.h.svc.isBlocked (x.requestMeta env).realIp = false ∧ out.body = x.pluginBody ∧
      ∃ route, x.found env = .ok route ∧ ∃ ctx node uri,
        x.h.Reaches x.req (x.requestMeta env) x.pluginBody route ctx node uri := by
  rw [x.mem_log_iff env (by simp)] at hmem
  have hbody := x.respond_always env
    (Q := fun w => ∀ node out, w = .forwardHttp node out → out.body = x.pluginBody)
    (fun w hw node out heq => by rw [heq] at hw; cases hw)
    (fun ctx route node uri node' out heq => by cases heq; rfl) _ hmem node out rfl
  have hforwarded : (node, out) ∈ (x.respond env).effects.filterMap forwarded :=
    mem_filterMap.mpr ⟨_, hmem, rfl⟩
  rw [respond_eq] at hforwarded
  cases hfound : x.found env with
  | error e =>
    have hnone : (x.h.conduct env x.req (x.requestMeta env) x.pluginBody (.error e)
        (x.forward env)).effects = [] := by
      rw [conduct]
      split_ifs
      · rfl
      · rfl
    rw [hfound, hnone] at hforwarded
    cases hforwarded
  | ok route =>
    rw [hfound] at hforwarded
    by_contra hno
    have hnot : x.h.svc.isBlocked (x.requestMeta env).realIp = false → ∀ ctx node uri,
        ¬ x.h.Reaches x.req (x.requestMeta env) x.pluginBody route ctx node uri :=
      fun hwelcome ctx node uri hreach =>
        hno ⟨hwelcome, hbody, route, rfl, ctx, node, uri, hreach⟩
    rw [x.h.forwarded_conduct_of_not_reaches env hnot] at hforwarded
    · cases hforwarded
    · intro ctx node hcan
      obtain ⟨e, hfail⟩ := x.forward_of_not_canForward env ctx (x.h.svc.routePlugins route.id)
        route hcan
      rw [hfail, effects_fail]

/-! ### Where a tunnel leads -/

section

variable (h : HttpProtocolHandler Net P) (m : RequestMeta) (headers : HeaderMap)
  (route : RouteSnapshot) (node : UpstreamNodeDto)

lemma upstreamNamed_upgradeResponse :
    upstreamNamed (h.upgradeResponse m headers route node).headers =
      (parse node.address).bind toStr := by
  have hnone :
      (buildUpgradeResponse h.acceptKey headers).headers.getAll "x-ws-upstream-addr" = [] := rfl
  have hmarked : ((buildUpgradeResponse h.acceptKey headers).headers.insertText
      "x-ws-upstream-addr" node.address).getAll "x-ws-upstream-addr" =
        (parse node.address).toList := by
    rw [insertText]
    cases parse node.address with
    | none => exact hnone
    | some v => exact getAll_insert_self _ _ v
  simp only [upstreamNamed, upgradeResponse, get_eq_head?_getAll]
  rw [getAll_insertText_of_ne _ (by decide)]
  split_ifs
  · rw [getAll_insert_of_ne _ (by decide), getAll_insertText_of_ne _ (by decide), hmarked]
    simp
  · rw [getAll_insertText_of_ne _ (by decide), hmarked]
    simp

lemma stripped_upgradeResponse :
    ((h.upgradeResponse m headers route node).headers.get "x-ws-strip-sensitive").isSome =
      route.wsStripSensitiveHeaders := by
  have hnone : (((buildUpgradeResponse h.acceptKey headers).headers.insertText
      "x-ws-upstream-addr" node.address).insertText "x-ws-host-header"
        (route.hostHeader.getD (upstreamHost h.http node))).getAll "x-ws-strip-sensitive" = [] := by
    rw [getAll_insertText_of_ne _ (by decide), getAll_insertText_of_ne _ (by decide)]
    rfl
  simp only [upgradeResponse, get_eq_head?_getAll]
  rw [getAll_insertText_of_ne _ (by decide)]
  split_ifs with hstrip
  · rw [getAll_insert_self, hstrip]
    rfl
  · rw [hnone]
    simpa using hstrip

end

lemma eq_of_parse_toStr {s t : String}
    (h : (parse s).bind toStr = some t) : t = s := by
  rw [parse] at h
  split_ifs at h
  · exact eq_of_toStr_ofString h
  · cases h

def TunnelsToSelected : Prop :=
  ∀ addr handshake, .forwardWebsocket addr handshake ∈ x.log env →
    (∃ route node, x.Selects env route node ∧ addr = node.address) ∧
    ∀ node out, .forwardHttp node out ∉ x.log env

section

variable {route : RouteSnapshot} {ctx : PluginContext} {node : UpstreamNodeDto}
  (hwelcome : x.h.svc.isBlocked (x.requestMeta env).realIp = false)
include hwelcome

lemma forwardHttp_mem_respond {uri : ParsedUri} (hroute : x.found env = .ok route)
    (hreach : x.h.Reaches x.req (x.requestMeta env) x.pluginBody route ctx node uri) :
    .forwardHttp node (x.h.outRequest x.req (x.requestMeta env) ctx route node uri x.pluginBody) ∈
      (x.respond env).effects := by
  obtain ⟨log, k, bytesIn, -, hforwarded, hforward⟩ :=
    x.forward_eq env ctx (x.h.svc.routePlugins route.id) route hreach.parses hreach.builds
  have hmem : (node, x.h.outRequest x.req (x.requestMeta env) ctx route node uri x.pluginBody) ∈
      log.filterMap forwarded := by
    rw [hforwarded]
    exact mem_cons_self
  obtain ⟨w, hw, hsome⟩ := mem_filterMap.mp hmem
  cases w with
  | forwardHttp node' out =>
    cases hsome
    rw [respond_of_found hwelcome hroute,
      preflight_of_admitted env hreach.toPasses hreach.breaker hreach.plain,
      bind_of_ok rfl]
    refine mem_append_right _ ?_
    rw [dispatch, hforward]
    exact mem_append_left _ hw
  | _ => cases hsome

lemma forwardHttp_not_mem_of_upgrades (hup : x.Upgrades env route ctx node)
    (other : UpstreamNodeDto) (out : OutRequest) :
    .forwardHttp other out ∉ x.log env := by
  rw [x.mem_log_iff env (by simp), respond_of_found hwelcome hup.matched,
    preflight_of_upgraded env hup.passes hup.breaker hup.upgrade,
    bind_of_ok rfl]
  simp [dispatch, recordWsMetric]

end

/-- A tunnel leads to the selected node, exactly when the bridge finds no upstream named in a
response 101 of a plugin or of an upstream. -/
theorem tunnels_to_selected_iff : x.TunnelsToSelected env ↔
    (x.Ready env → ∀ headers, x.Foreign env headers → upstreamNamed headers = none) := by
  constructor
  · intro htunnels hready headers hforeign
    by_contra hnamed
    obtain ⟨addr, haddr⟩ := Option.ne_none_iff_exists'.mp hnamed
    obtain ⟨⟨route, node, ⟨-, hroute, _, hpass⟩, -⟩, hsilent⟩ := htunnels addr _
      ((x.forwardWebsocket_mem_log_iff env addr _).mpr
        ⟨hready, headers, .inr hforeign, haddr, rfl⟩)
    cases hforeign with
    | plugin route' body ctx hroute' hplugins hbuild =>
      -- a request that a plugin has ended gets no node
      obtain rfl := Except.ok.inj (hroute.symm.trans hroute')
      cases hplugins.symm.trans hpass.plugins
    | upstream route' ctx node' uri r after hroute' hreach hanswer hstatus hbuild hafter =>
      have hmem := x.forwardHttp_mem_respond env hready.welcome hroute' hreach
      exact hsilent node' _ ((x.mem_log_iff env (by simp)).mpr hmem)
  · intro hforeign addr handshake hmem
    obtain ⟨hready, headers, hswitches, hnamed, -⟩ :=
      (x.forwardWebsocket_mem_log_iff env addr handshake).mp hmem
    obtain ⟨route, ctx, node, hup, rfl⟩ | hother := hswitches
    · rw [upstreamNamed_upgradeResponse] at hnamed
      refine ⟨⟨route, node, ?_, eq_of_parse_toStr hnamed⟩,
        x.forwardHttp_not_mem_of_upgrades env hready.welcome hup⟩
      exact ⟨hready.welcome, hup.matched, ctx, hup.passes⟩
    · cases (hforeign hready headers hother).symm.trans hnamed

/-- A client that leaves out `Connection: upgrade` is forwarded, and the answer of the upstream
sends the bridge to an address of its own choice. -/
theorem tunnel_follows_answer :
    let x := openExchange ⟨101, [("x-ws-upstream-addr", .ofString "169.254.169.254:80")], []⟩ "/ws"
      [("upgrade", .ofString "websocket"), ("connection", .ofString "keep-alive")]
    (∃ front handshake, x.log openEnv =
      front ++ [.forwardWebsocket "169.254.169.254:80" handshake]) ∧
    ¬ x.TunnelsToSelected openEnv := by
  intro x
  have hlog : ∃ front handshake, x.log openEnv =
      front ++ [.forwardWebsocket "169.254.169.254:80" handshake] :=
    ⟨[_, _, _, _, _, _], _, rfl⟩
  refine ⟨hlog, fun htunnels => ?_⟩
  obtain ⟨front, handshake, hlog⟩ := hlog
  obtain ⟨⟨route', node', ⟨-, -, _, hpass⟩, haddr⟩, -⟩ := htunnels _ handshake (by
    rw [hlog]
    exact mem_append_right _ mem_cons_self)
  obtain rfl : openNode = node' := Except.ok.inj hpass.balancer
  exact absurd haddr (by decide)

end HttpExchange

end Conrogate
