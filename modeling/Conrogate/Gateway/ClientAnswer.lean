import Conrogate.Gateway.WebSocket

/-!
# The answer that a client gets

A response 101 that names an upstream carries headers for the bridge, which it removes. Only the
branch for streamed requests shows the trace identifier to the client first.
-/

namespace Conrogate

open Logged HeaderMap HttpProtocolHandler HeaderValue

variable {Net P : Type}

def internalHeaders : List String :=
  ["x-ws-upstream-addr", "x-ws-host-header", "x-ws-strip-sensitive", "x-ws-trace-id"]

def clearInternal (headers : HeaderMap) : HeaderMap :=
  internalHeaders.foldl HeaderMap.remove headers

def copyTraceId (headers : HeaderMap) : HeaderMap :=
  match headers.get "x-ws-trace-id" with
  | some v => headers.insert "x-trace-id" v
  | none   => headers

def streamedAnswer (resp : HttpResponse) : HttpResponse :=
  if resp.status = 101 ∧ (upstreamNamed resp.headers).isSome then
    ⟨resp.status, clearInternal (copyTraceId resp.headers), .bytes []⟩
  else resp

def bufferedAnswer (resp : HttpResponse) : HttpResponse :=
  if resp.status = 101 ∧ (upstreamNamed resp.headers).isSome then
    ⟨resp.status, clearInternal resp.headers, .bytes []⟩
  else resp

def errorResponse (status : Nat) (code : Int) (msg traceId : String) : HttpResponse where
  status := status
  headers := ("content-type", .ofString "application/json") :: withTraceId traceId []
  body := .json (.obj [("code", .num code), ("msg", .str msg), ("data", .null),
    ("trace_id", .str traceId)])

def handlerError (traceId : String) : ConrogateError → HttpResponse
  | .rateLimited | .limited => errorResponse 429 40008 "rate limited" traceId
  | .circuitBreakerOpen => errorResponse 503 40007 "circuit breaker open" traceId
  | _ => errorResponse 502 40006 "gateway error" traceId

def HttpExchange.passOn (x : HttpExchange Net P) : HttpResponse → HttpResponse :=
  match x.mode with
  | .buffered _ => bufferedAnswer
  | .streamed _ => streamedAnswer

def HttpExchange.answer (x : HttpExchange Net P) (env : ExchangeEnv) (traceId : String) :
    HttpResponse :=
  match (x.respond env).result with
  | .error e => handlerError traceId e
  | .ok resp => x.passOn resp

structure SameSwitch (traceId : String) (resp : HttpResponse) : Prop where
  same : streamedAnswer resp = bufferedAnswer resp
  clean : ∀ name ∈ internalHeaders, (streamedAnswer resp).headers.getAll name = []
  traced : (streamedAnswer resp).headers.getAll "x-trace-id" = [.ofString traceId]

/-- The response has its trace identifier before the bridge gets it, and no other one for the
bridge; if it names no upstream, it has no header for the bridge at all. -/
structure Prepared (traceId : String) (headers : HeaderMap) : Prop where
  traced : headers.getAll "x-trace-id" = [.ofString traceId]
  named : (upstreamNamed headers).isSome = true →
    ∀ v, headers.get "x-ws-trace-id" = some v → v = .ofString traceId
  unnamed : upstreamNamed headers = none → ∀ name ∈ internalHeaders, headers.getAll name = []

section

variable {traceId : String} {resp : HttpResponse} {headers : HeaderMap}

lemma getAll_clearInternal (headers : HeaderMap) (name : String) :
    (clearInternal headers).getAll name =
      if name ∈ internalHeaders then [] else headers.getAll name :=
  getAll_foldl_remove headers internalHeaders name

lemma traceId_clearInternal (headers : HeaderMap) :
    (clearInternal headers).getAll "x-trace-id" = headers.getAll "x-trace-id" := by
  rw [getAll_clearInternal, if_neg (by decide)]

lemma copyTraceId_eq_self (htraced : headers.getAll "x-trace-id" = [.ofString traceId])
    (hmark : ∀ v, headers.get "x-ws-trace-id" = some v → v = .ofString traceId) :
    copyTraceId headers = headers := by
  rw [copyTraceId]
  cases hv : headers.get "x-ws-trace-id" with
  | none => rfl
  | some v => exact insert_eq_self headers (hmark v hv ▸ htraced)

lemma sameSwitch_iff (hstatus : resp.status = 101) :
    SameSwitch traceId resp ↔ Prepared traceId resp.headers := by
  cases hnamed : upstreamNamed resp.headers with
  | none =>
    have hpass : ¬ (resp.status = 101 ∧ (upstreamNamed resp.headers).isSome = true) := by
      simp [hnamed]
    have hstreamed : streamedAnswer resp = resp := if_neg hpass
    have hbuffered : bufferedAnswer resp = resp := if_neg hpass
    constructor
    · rintro ⟨-, hclean, htraced⟩
      rw [hstreamed] at hclean htraced
      exact ⟨htraced, by simp [hnamed], fun _ => hclean⟩
    · rintro ⟨htraced, -, hclean⟩
      exact ⟨by rw [hstreamed, hbuffered], by rw [hstreamed]; exact hclean hnamed,
        by rw [hstreamed]; exact htraced⟩
  | some addr =>
    have hswitch : resp.status = 101 ∧ (upstreamNamed resp.headers).isSome = true := by
      simp [hstatus, hnamed]
    have hstreamed : streamedAnswer resp =
        ⟨resp.status, clearInternal (copyTraceId resp.headers), .bytes []⟩ := if_pos hswitch
    have hbuffered : bufferedAnswer resp = ⟨resp.status, clearInternal resp.headers, .bytes []⟩ :=
      if_pos hswitch
    constructor
    · rintro ⟨hsame, -, htraced⟩
      have hclient : resp.headers.getAll "x-trace-id" = [.ofString traceId] := by
        rw [hsame, hbuffered] at htraced
        exact (traceId_clearInternal resp.headers).symm.trans htraced
      refine ⟨hclient, fun _ v hv => ?_, by simp [hnamed]⟩
      rw [hstreamed] at htraced
      have hcopy := (traceId_clearInternal _).symm.trans htraced
      rw [copyTraceId, hv, getAll_insert_self] at hcopy
      exact (List.cons.inj hcopy).1
    · rintro ⟨htraced, hmark, -⟩
      have hcopy := copyTraceId_eq_self htraced (hmark (by simp [hnamed]))
      refine ⟨by rw [hstreamed, hbuffered, hcopy], fun name hname => ?_, ?_⟩
      · rw [hstreamed, getAll_clearInternal, if_pos hname]
      · rw [hstreamed, hcopy, traceId_clearInternal, htraced]

end

section

variable (h : HttpProtocolHandler Net P) (m : RequestMeta) (headers : HeaderMap)
  (route : RouteSnapshot) (node : UpstreamNodeDto)

lemma traceId_upgradeResponse :
    (h.upgradeResponse m headers route node).headers.getAll "x-trace-id" = [] := by
  have hnone : (((buildUpgradeResponse h.acceptKey headers).headers.insertText
      "x-ws-upstream-addr" node.address).insertText "x-ws-host-header"
        (route.hostHeader.getD (upstreamHost h.http node))).getAll "x-trace-id" = [] := by
    rw [getAll_insertText_of_ne _ (by decide), getAll_insertText_of_ne _ (by decide)]
    rfl
  simp only [upgradeResponse]
  rw [getAll_insertText_of_ne _ (by decide)]
  split_ifs
  · rw [getAll_insert_of_ne _ (by decide), hnone]
  · exact hnone

lemma mark_upgradeResponse {v : HeaderValue} (hv : parse m.traceId = some v) :
    (h.upgradeResponse m headers route node).headers.get "x-ws-trace-id" = some v := by
  simp only [upgradeResponse, get_eq_head?_getAll]
  rw [getAll_insertText_self _ hv]
  rfl

end

namespace HttpExchange

variable (x : HttpExchange Net P) (env : ExchangeEnv)

/-- Both branches send the same answer just if the response is prepared for it. The handler's own
response to an upgrade never is. -/
theorem same_switch_iff {resp : HttpResponse} (hresp : (x.respond env).result = .ok resp)
    (hstatus : resp.status = 101) :
    let traceId := (x.requestMeta env).traceId
    (SameSwitch traceId resp ↔ Prepared traceId resp.headers) ∧
    ∀ route ctx node, x.Upgrades env route ctx node →
      (bufferedAnswer resp).headers.getAll "x-trace-id" = [] ∧
      ∀ v, parse traceId = some v →
        ((parse node.address).bind toStr).isSome = true →
          (streamedAnswer resp).headers.getAll "x-trace-id" = [v] := by
  intro traceId
  refine ⟨sameSwitch_iff hstatus, ?_⟩
  intro route ctx node hup
  have hown : resp = x.h.upgradeResponse (x.requestMeta env) x.req.headers route node := by
    obtain ⟨status, headers, payload⟩ := resp
    cases hstatus
    obtain ⟨hwelcome, -⟩ := found_of_respond hresp
    exact Except.ok.inj (hresp.symm.trans ((respond_eq_ok_iff hwelcome hup.matched).mpr
      (.upgrade ctx node hup)))
  subst hown
  refine ⟨?_, ?_⟩
  · rw [bufferedAnswer]
    split_ifs
    · rw [traceId_clearInternal, traceId_upgradeResponse]
    · exact traceId_upgradeResponse _ _ _ _ _
  · intro v hv hreadable
    rw [streamedAnswer, if_pos ⟨rfl, by rw [upstreamNamed_upgradeResponse]; exact hreadable⟩,
      traceId_clearInternal, copyTraceId, mark_upgradeResponse _ _ _ _ _ hv,
      HeaderMap.getAll_insert_self]

theorem same_switch_forwarded :
    let x := openExchange ⟨101, [("upgrade", .ofString "websocket")], []⟩ "/ws"
      [("upgrade", .ofString "websocket"), ("connection", .ofString "keep-alive")]
    ∃ resp, (x.respond openEnv).result = .ok resp ∧ SameSwitch "t" resp := by
  intro x
  have hresp : (x.respond openEnv).result = .ok ⟨101, [("upgrade", .ofString "websocket"),
      ("x-trace-id", .ofString "t"), ("x-request-id", .ofString "r")], .bytes []⟩ := by
    rfl
  refine ⟨_, hresp, (x.same_switch_iff openEnv hresp rfl).1.mpr ⟨rfl, ?_, ?_⟩⟩
  · intro hnamed
    cases hnamed
  · decide

/-- An upgrade: in the streamed mode the client gets the trace identifier of the request, in the
buffered mode none. -/
theorem buffered_switch_lacks_traceId :
    let x := openExchange ⟨200, [], []⟩ "/ws" [("upgrade", .ofString "websocket"),
      ("connection", .ofString "Upgrade"), ("x-trace-id", .ofString "t1")]
    (x.requestMeta openEnv).traceId = "t1" ∧ ∃ resp, (x.respond openEnv).result = .ok resp ∧
      (streamedAnswer resp).headers.getAll "x-trace-id" = [.ofString "t1"] ∧
      (bufferedAnswer resp).headers.getAll "x-trace-id" = [] := by
  intro x
  have hup : x.Upgrades openEnv (openRoute false) _ openNode :=
    ⟨rfl, ⟨rfl, rfl, rfl⟩, rfl, by decide +kernel⟩
  refine ⟨by decide +kernel, _, (respond_eq_ok_iff rfl hup.matched).mpr (.upgrade _ _ hup), ?_, ?_⟩
  · decide +kernel
  · decide +kernel

end HttpExchange

end Conrogate
