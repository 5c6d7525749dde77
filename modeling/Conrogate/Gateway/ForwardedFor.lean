import Conrogate.Gateway.WebSocket
import Conrogate.Protocol.OutHeaders

/-!
# The client's address on its way to an upstream

A forwarded request gets its `X-Forwarded-For` from `build_out_headers`. The handshake of a tunnel
keeps the lines of the client, or has none.
-/

namespace Conrogate

open Logged HeaderValue

variable {Net P : Type}

namespace HttpExchange

variable (x : HttpExchange Net P) (env : ExchangeEnv)

inductive Opens : (strip : Bool) → Prop
  | own (route : RouteSnapshot) (ctx : PluginContext) (node : UpstreamNodeDto)
      (hup : x.Upgrades env route ctx node)
      (hnamed : ((parse node.address).bind toStr).isSome = true) :
      Opens route.wsStripSensitiveHeaders
  | foreign (headers : HeaderMap) (hforeign : x.Foreign env headers)
      (hnamed : (upstreamNamed headers).isSome = true) :
      Opens (headers.get "x-ws-strip-sensitive").isSome

/-- Every request to an upstream carries one `X-Forwarded-For`, the resolved address of the
client; a client that is no trusted proxy has no part in it. -/
def SendsResolvedIp : Prop :=
  ∀ w ∈ x.log env, ∀ headers ∈ w.sentHeaders,
    headers.getAll "x-forwarded-for" = [.ofString (x.requestMeta env).realIp] ∧
    (isTrustedProxy x.h.net x.h.trustedProxies x.clientIp.toList = false →
      ∀ v ∈ headers.getAll "x-forwarded-for", v = .ofString x.clientIp)

lemma forwardedFor_mem_sensitiveHeaders : "x-forwarded-for" ∈ sensitiveHeaders := by decide

lemma getAll_websocketRequest {name : String} (hname : name ∈ sensitiveHeaders)
    (req : HttpRequest) (resp : HttpResponse) (addr : String) :
    (websocketRequest req resp addr).headers.getAll name =
      if (resp.headers.get "x-ws-strip-sensitive").isSome then []
      else req.headers.getAll name := by
  have hhost : "host" ≠ name := by
    rintro rfl
    exact absurd hname (by decide)
  simp only [websocketRequest]
  rw [HeaderMap.getAll_insertText_of_ne _ hhost]
  split_ifs
  · rw [getAll_stripSensitiveHeaders, if_pos hname]
  · rfl

lemma realIp_of_untrusted
    (h : isTrustedProxy x.h.net x.h.trustedProxies x.clientIp.toList = false) :
    (x.requestMeta env).realIp = x.clientIp := by
  simp only [requestMeta, HttpProtocolHandler.buildRequestMeta, resolveRealIp, h]
  simp

lemma opens_of_mem {addr name : String} {handshake : HttpRequest}
    (hname : name ∈ sensitiveHeaders) (hmem : .forwardWebsocket addr handshake ∈ x.log env) :
    x.Ready env ∧ ∃ strip, x.Opens env strip ∧ handshake.headers.getAll name =
      if strip then [] else x.req.headers.getAll name := by
  obtain ⟨hready, headers, hswitches, hnamed, rfl⟩ :=
    (x.forwardWebsocket_mem_log_iff env addr handshake).mp hmem
  refine ⟨hready, _, ?_, getAll_websocketRequest hname _ _ _⟩
  obtain ⟨route, ctx, node, hup, rfl⟩ | hforeign := hswitches
  · rw [stripped_upgradeResponse]
    rw [upstreamNamed_upgradeResponse] at hnamed
    exact .own route ctx node hup (by rw [hnamed]; rfl)
  · exact .foreign headers hforeign (by rw [hnamed]; rfl)

lemma mem_of_opens {strip : Bool} {name : String} (hname : name ∈ sensitiveHeaders)
    (hready : x.Ready env) (hopens : x.Opens env strip) :
    ∃ addr handshake, .forwardWebsocket addr handshake ∈ x.log env ∧
      handshake.headers.getAll name = if strip then [] else x.req.headers.getAll name := by
  cases hopens with
  | own route ctx node hup hnamed =>
    obtain ⟨addr, haddr⟩ := Option.isSome_iff_exists.mp hnamed
    rw [← upstreamNamed_upgradeResponse] at haddr
    refine ⟨addr, _, (x.forwardWebsocket_mem_log_iff env addr _).mpr
      ⟨hready, _, .inl ⟨route, ctx, node, hup, rfl⟩, haddr, rfl⟩, ?_⟩
    rw [getAll_websocketRequest hname, stripped_upgradeResponse]
  | foreign headers hforeign hnamed =>
    obtain ⟨addr, haddr⟩ := Option.isSome_iff_exists.mp hnamed
    exact ⟨addr, _, (x.forwardWebsocket_mem_log_iff env addr _).mpr
      ⟨hready, headers, .inr hforeign, haddr, rfl⟩, getAll_websocketRequest hname _ _ _⟩

lemma getAll_of_forwardHttp {name text : String} {v : HeaderValue}
    (hinjected : ∀ route node, (name, text) ∈ injectedHeaders x.h.http route node
      (x.requestMeta env).traceId (x.requestMeta env).requestId (x.requestMeta env).realIp)
    (hv : parse text = some v) {node : UpstreamNodeDto} {out : OutRequest}
    (hmem : .forwardHttp node out ∈ x.log env) : out.headers.getAll name = [v] := by
  rw [x.mem_log_iff env (by simp)] at hmem
  have hall := x.respond_always env
    (Q := fun w => ∀ node out, w = .forwardHttp node out → out.headers.getAll name = [v])
    (fun w hw node out heq => by rw [heq] at hw; cases hw)
    (fun ctx route node uri node' out heq => by
      cases heq
      exact getAll_buildOutHeaders_of_injected _ (hinjected route node) hv)
  exact hall _ hmem node out rfl

/-- Upstreams get the resolved address and nothing else, exactly when the handshake of every
tunnel already has it as its only `X-Forwarded-For` and is not stripped. -/
theorem sends_resolved_ip_iff {peer : IpAddr}
    (hpeer : parseIpAddr x.clientIp.toList = some peer) :
    x.SendsResolvedIp env ↔
      (x.Ready env → ∀ strip, x.Opens env strip → strip = false ∧
        x.req.headers.getAll "x-forwarded-for" = [.ofString (x.requestMeta env).realIp]) := by
  constructor
  · intro hsends hready strip hopens
    obtain ⟨addr, handshake, hmem, hlines⟩ :=
      x.mem_of_opens env forwardedFor_mem_sensitiveHeaders hready hopens
    have hone := (hsends _ hmem handshake.headers rfl).1
    rw [hlines] at hone
    cases strip with
    | true => cases hone
    | false => exact ⟨rfl, hone⟩
  · intro htunnels w hw headers hheaders
    have hone : headers.getAll "x-forwarded-for" = [.ofString (x.requestMeta env).realIp] := by
      cases w with
      | forwardWebsocket addr handshake =>
        obtain rfl := Option.some.inj hheaders
        obtain ⟨hready, strip, hopens, hlines⟩ :=
          x.opens_of_mem env forwardedFor_mem_sensitiveHeaders hw
        obtain ⟨rfl, hclient⟩ := htunnels hready strip hopens
        exact hlines.trans hclient
      | forwardHttp node out =>
        obtain rfl := Option.some.inj hheaders
        have hip : parse (x.requestMeta env).realIp =
            some (.ofString (x.requestMeta env).realIp) :=
          parse_resolveRealIp x.h.net x.h.trustedProxies hpeer x.req.headers
        exact x.getAll_of_forwardHttp env (fun _ _ => by simp [injectedHeaders]) hip hw
      | _ => cases hheaders
    refine ⟨hone, fun huntrusted v hv => ?_⟩
    rw [hone, List.mem_singleton] at hv
    rw [hv, x.realIp_of_untrusted env huntrusted]

theorem sends_resolved_ip_plain :
    let x := openExchange ⟨200, [], []⟩ "/a" [("x-forwarded-for", .ofString "10.0.0.1")]
    (parseIpAddr x.clientIp.toList).isSome = true ∧ x.SendsResolvedIp openEnv := by
  intro x
  have hpeer : parseIpAddr x.clientIp.toList = some (.v4 0x01020304) := by decide +kernel
  refine ⟨Option.isSome_iff_exists.mpr ⟨_, hpeer⟩, ?_⟩
  refine (x.sends_resolved_ip_iff openEnv hpeer).mpr ?_
  rintro ⟨hasks, -, -⟩
  exact absurd hasks (by decide)

/-- The handshake of a WebSocket client carries the line that the client made up. -/
theorem handshake_carries_forged_line :
    let x := openExchange ⟨200, [], []⟩ "/ws" [("upgrade", .ofString "websocket"),
      ("connection", .ofString "Upgrade"), ("x-forwarded-for", .ofString "10.0.0.1")]
    (x.requestMeta openEnv).realIp = "1.2.3.4" ∧
    (∃ addr handshake, .forwardWebsocket addr handshake ∈ x.log openEnv ∧
      handshake.headers.getAll "x-forwarded-for" = [.ofString "10.0.0.1"]) ∧
    ¬ x.SendsResolvedIp openEnv := by
  intro x
  have hready : x.Ready openEnv := ⟨by decide +kernel, rfl, rfl⟩
  have hup : x.Upgrades openEnv (openRoute false) _ openNode :=
    ⟨rfl, ⟨rfl, rfl, rfl⟩, rfl, by decide +kernel⟩
  obtain ⟨addr, handshake, hmem, hlines⟩ :=
    x.mem_of_opens openEnv forwardedFor_mem_sensitiveHeaders hready
      (.own _ _ openNode hup (by decide +kernel))
  refine ⟨x.realIp_of_untrusted openEnv (by decide +kernel), ⟨addr, handshake, hmem, hlines⟩, ?_⟩
  intro hsends
  have hone := (hsends _ hmem handshake.headers rfl).1
  rw [hlines] at hone
  exact absurd hone (by decide)

end HttpExchange

end Conrogate
