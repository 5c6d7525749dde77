import Conrogate.Core.TraceId
import Conrogate.Gateway.BodyLimit
import Conrogate.Gateway.ClientAnswer
import Conrogate.Gateway.ForwardedFor

/-!
# One trace identifier for a request

The bridge and the handler each make a trace identifier up if the request has none. The bridge
answers errors under its own; all others get that of the handler.
-/

namespace Conrogate

open Logged HeaderValue Option HeaderMap HttpProtocolHandler HttpExchange List

variable {Re Net P : Type}

/-! ### The identifiers -/

lemma traceIdFromHeaders_eq (headers : HeaderMap) (fresh : String) :
    traceIdFromHeaders headers fresh = (clientTraceId headers).getD fresh := by
  rw [traceIdFromHeaders, clientTraceId]
  cases (headers.get "x-trace-id").bind toStr with
  | none => rfl
  | some s =>
    simp only [bind_some]
    split_ifs <;> rfl

lemma parse_traceIdFromHeaders (headers : HeaderMap) {fresh : String} (h : Generated fresh) :
    parse (traceIdFromHeaders headers fresh) =
      some (.ofString (traceIdFromHeaders headers fresh)) := by
  refine parse_of_isVisible ?_
  rw [traceIdFromHeaders_eq]
  cases hclient : clientTraceId headers with
  | none => exact h.isVisible
  | some s => exact isVisible_of_clientTraceId hclient

def envelopeTraceId : Payload → Option String
  | .json (.obj members) => (Json.field members "trace_id").bind Json.asStr
  | _ => none

structure Shows (traceId : String) (resp : HttpResponse) : Prop where
  header : resp.headers.getAll "x-trace-id" = [.ofString traceId]
  envelope : ∀ s, envelopeTraceId resp.body = some s → s = traceId

section

variable {traceId : String} (h : parse traceId = some (.ofString traceId))
include h

lemma getAll_withTraceId (headers : HeaderMap) : (withTraceId traceId headers).getAll "x-trace-id" =
    .ofString traceId :: headers.getAll "x-trace-id" := by
  rw [withTraceId, h]
  rfl

lemma shows_errorResponse (status : Nat) (code : Int) (msg : String) :
    Shows traceId (errorResponse status code msg traceId) :=
  ⟨getAll_withTraceId h [], fun _ hs => (some.inj hs).symm⟩

lemma shows_handlerError (e : ConrogateError) : Shows traceId (handlerError traceId e) := by
  rw [handlerError.eq_def]
  split <;> exact shows_errorResponse h _ _ _

end

lemma envelope_handlerError (traceId : String) (e : ConrogateError) :
    envelopeTraceId (handlerError traceId e).body = some traceId := by
  rw [handlerError.eq_def]
  split <;> rfl

namespace HttpExchange

variable (x : HttpExchange Net P) (env : ExchangeEnv)

/-! ### What the client reads -/

def mark (status : Nat) (headers : HeaderMap) : Option HeaderValue :=
  match x.mode with
  | .buffered _ => none
  | .streamed _ =>
    if status = 101 ∧ (upstreamNamed headers).isSome then headers.get "x-ws-trace-id" else none

structure EndsTraced (code : Nat) (headers : HeaderMap) (body : Json) : Prop where
  builds : x.h.http.buildResponse code (withTraceId (x.requestMeta env).traceId headers) = .ok ()
  header : x.mark code (withTraceId (x.requestMeta env).traceId headers) = none →
    headers.getAll "x-trace-id" = []
  envelope : ¬ (code = 101 ∧
      (upstreamNamed (withTraceId (x.requestMeta env).traceId headers)).isSome = true) →
    ∀ s, envelopeTraceId (.json body) = some s → s = (x.requestMeta env).traceId

inductive LosesTraceId (fresh : String) (route : RouteSnapshot) : Prop
  | failed (hfails : ∀ resp, ¬ x.Ending env route resp)
      (hclient : clientTraceId x.req.headers = none) (hfresh : fresh ≠ env.traceId)
  | ended (code : Nat) (body : Json) (ctx : PluginContext)
      (hends : x.h.beforeRequest (x.requestMeta env) x.req.method x.req.headers x.pluginBody route =
        .ok (.terminate code body, ctx))
      (hlost : ¬ x.EndsTraced env code ctx.responseHeaders body)
  | marked (headers : HeaderMap) (hforeign : x.Foreign env headers) (v : HeaderValue)
      (hmark : x.mark 101 headers = some v) (hne : v ≠ .ofString (x.requestMeta env).traceId)
  | hidden (ctx : PluginContext) (node : UpstreamNodeDto) (hup : x.Upgrades env route ctx node)
      (hhidden : (∃ preMatched, x.mode = .buffered preMatched) ∨
        (parse node.address).bind toStr = none)
  | tunnel (strip : Bool) (hready : x.Ready env) (hopens : x.Opens env strip)
      (hlines : (if strip then [] else x.req.headers.getAll "x-trace-id") ≠
        [.ofString (x.requestMeta env).traceId])

variable {env} in
lemma parse_traceId (henv : Generated env.traceId) :
    parse (x.requestMeta env).traceId =
      some (.ofString (x.requestMeta env).traceId) :=
  parse_traceIdFromHeaders x.req.headers henv

lemma traceId_passOn (resp : HttpResponse) : (x.passOn resp).headers.getAll "x-trace-id" =
    ((x.mark resp.status resp.headers).map fun v => [v]).getD
      (resp.headers.getAll "x-trace-id") := by
  rw [passOn, mark]
  cases x.mode with
  | buffered preMatched =>
    simp only [bufferedAnswer]
    split_ifs
    · exact traceId_clearInternal _
    · rfl
  | streamed route =>
    simp only [streamedAnswer]
    split_ifs
    · rw [traceId_clearInternal, copyTraceId]
      cases resp.headers.get "x-ws-trace-id" with
      | none => rfl
      | some v => exact getAll_insert_self _ _ _
    · rfl

variable {env} in
lemma traceId_passOn_upgradeResponse (henv : Generated env.traceId) (route : RouteSnapshot)
    (node : UpstreamNodeDto) :
    (x.passOn (x.h.upgradeResponse (x.requestMeta env) x.req.headers route node)).headers.getAll
      "x-trace-id" = match x.mode, (parse node.address).bind toStr with
        | .streamed _, some _ => [.ofString (x.requestMeta env).traceId]
        | _,           _ => [] := by
  rw [traceId_passOn, traceId_upgradeResponse, mark, upstreamNamed_upgradeResponse]
  cases x.mode with
  | buffered preMatched => rfl
  | streamed known =>
    cases (parse node.address).bind toStr with
    | none => rfl
    | some addr =>
      rw [mark_upgradeResponse _ _ _ _ _ (x.parse_traceId henv)]
      rfl

lemma envelope_passOn (resp : HttpResponse) : envelopeTraceId (x.passOn resp).body =
    if resp.status = 101 ∧ (upstreamNamed resp.headers).isSome then none
    else envelopeTraceId resp.body := by
  rw [passOn]
  cases x.mode with
  | buffered preMatched =>
    simp only [bufferedAnswer]
    split_ifs <;> rfl
  | streamed route =>
    simp only [streamedAnswer]
    split_ifs <;> rfl

section

variable {x env} {route : RouteSnapshot} {fresh : String}

lemma status_of_mark {status : Nat} {headers : HeaderMap} {v : HeaderValue}
    (h : x.mark status headers = some v) : status = 101 := by
  rw [mark] at h
  split at h
  · cases h
  · by_contra hstatus
    rw [if_neg fun hswitch => hstatus hswitch.1] at h
    cases h

lemma answer_of_ending {resp : HttpResponse}
    (hwelcome : x.h.svc.isBlocked (x.requestMeta env).realIp = false)
    (hroute : x.found env = .ok route) (hending : x.Ending env route resp) (traceId : String) :
    x.answer env traceId = x.passOn resp := by
  rw [answer, (respond_eq_ok_iff hwelcome hroute).mpr hending]

lemma shows_of_ending {resp : HttpResponse} (henv : Generated env.traceId)
    (hroute : x.found env = .ok route) (hkeeps : ¬ x.LosesTraceId env fresh route)
    (hending : x.Ending env route resp) :
    Shows (x.requestMeta env).traceId (x.passOn resp) := by
  have hparse := x.parse_traceId henv
  refine ⟨?_, ?_⟩
  · rw [traceId_passOn]
    cases hending with
    | plugin code body ctx hends =>
      obtain ⟨hbuild, hheader, -⟩ :=
        by_contra fun hlost => hkeeps (.ended code body ctx hends hlost)
      rw [terminateResponse_of_builds body hbuild]
      dsimp only
      cases hmark : x.mark code
          (withTraceId (x.requestMeta env).traceId ctx.responseHeaders) with
      | none => exact (getAll_withTraceId hparse _).trans (by rw [hheader hmark])
      | some v =>
        obtain rfl := status_of_mark hmark
        have hv := by_contra fun hne =>
          hkeeps (.marked _ (.plugin route body ctx hroute hends hbuild) v hmark hne)
        exact congrArg (fun v => [v]) hv
    | upgrade ctx node hup =>
      rw [← traceId_passOn, x.traceId_passOn_upgradeResponse henv]
      have hshown := fun hhidden => hkeeps (.hidden ctx node hup hhidden)
      cases hmode : x.mode with
      | buffered preMatched => exact absurd (.inl ⟨preMatched, hmode⟩) hshown
      | streamed known =>
        cases hnamed : (parse node.address).bind toStr with
        | none => exact absurd (.inr hnamed) hshown
        | some addr => rfl
    | upstream ctx node uri r after hreach hanswer hbuild hafter =>
      dsimp only
      cases hmark : x.mark r.status _ with
      | none =>
        refine (getAll_insertText_of_ne _ (by decide) _).trans ?_
        exact getAll_insertText_self _ hparse _
      | some v =>
        have hstatus := status_of_mark hmark
        rw [hstatus] at hbuild hafter hmark
        have hv := by_contra fun hne => hkeeps (.marked _ (.upstream route ctx node uri r after
          hroute hreach hanswer hstatus hbuild hafter) v hmark hne)
        exact congrArg (fun v => [v]) hv
  · rw [envelope_passOn]
    intro s hs
    split_ifs at hs with hswitch
    cases hending with
    | plugin code body ctx hends =>
      obtain ⟨hbuild, -, henvelope⟩ :=
        by_contra fun hlost => hkeeps (.ended code body ctx hends hlost)
      rw [terminateResponse_of_builds body hbuild] at hs hswitch
      exact henvelope hswitch s hs
    | upgrade ctx node hup => cases hs
    | upstream ctx node uri r after hreach hanswer hbuild hafter => cases hs

lemma shows_of_keeps (henv : Generated env.traceId)
    (hwelcome : x.h.svc.isBlocked (x.requestMeta env).realIp = false)
    (hroute : x.found env = .ok route) (hkeeps : ¬ x.LosesTraceId env fresh route) :
    Shows (x.requestMeta env).traceId
      (x.answer env (traceIdFromHeaders x.req.headers fresh)) := by
  cases hresult : (x.respond env).result with
  | error e =>
    have hfails : ∀ resp, ¬ x.Ending env route resp := fun resp hending =>
      by cases hresult.symm.trans ((respond_eq_ok_iff hwelcome hroute).mpr hending)
    have hsame : traceIdFromHeaders x.req.headers fresh = (x.requestMeta env).traceId := by
      change _ = traceIdFromHeaders x.req.headers env.traceId
      rw [traceIdFromHeaders_eq, traceIdFromHeaders_eq]
      cases hclient : clientTraceId x.req.headers with
      | none => exact by_contra fun hne => hkeeps (.failed hfails hclient hne)
      | some s => rfl
    rw [answer, hresult, hsame]
    exact shows_handlerError (x.parse_traceId henv) e
  | ok resp =>
    have hending := (respond_eq_ok_iff hwelcome hroute).mp hresult
    rw [answer_of_ending hwelcome hroute hending]
    exact shows_of_ending henv hroute hkeeps hending

lemma traceId_mem_sensitiveHeaders : "x-trace-id" ∈ sensitiveHeaders := by decide

lemma not_shows_of_loses (henv : Generated env.traceId)
    (hwelcome : x.h.svc.isBlocked (x.requestMeta env).realIp = false)
    (hroute : x.found env = .ok route) (hloses : x.LosesTraceId env fresh route)
    (hsends : ∀ w ∈ x.log env, ∀ headers ∈ w.sentHeaders,
      headers.getAll "x-trace-id" = [.ofString (x.requestMeta env).traceId]) :
    ¬ Shows (x.requestMeta env).traceId
      (x.answer env (traceIdFromHeaders x.req.headers fresh)) := by
  rintro ⟨hheader, henvelope⟩
  cases hloses with
  | failed hfails hclient hfresh =>
    cases hresult : (x.respond env).result with
    | error e =>
      rw [answer, hresult] at henvelope
      have hsame := henvelope _ (envelope_handlerError _ e)
      change _ = traceIdFromHeaders x.req.headers env.traceId at hsame
      rw [traceIdFromHeaders_eq, traceIdFromHeaders_eq, hclient] at hsame
      exact hfresh hsame
    | ok resp => exact hfails resp ((respond_eq_ok_iff hwelcome hroute).mp hresult)
  | ended code body ctx hends hlost =>
    rw [answer_of_ending hwelcome hroute (.plugin code body ctx hends)] at hheader henvelope
    rw [traceId_passOn] at hheader
    cases hbuild : x.h.http.buildResponse code
        (withTraceId (x.requestMeta env).traceId ctx.responseHeaders) with
    | error e =>
      -- the response is replaced by one without headers
      rw [withTraceId] at hbuild
      simp only [terminateResponse, hbuild] at hheader
      cases hmark : x.mark 500 [] with
      | none => simp [hmark, getAll] at hheader
      | some v => cases status_of_mark hmark
    | ok u =>
      rw [terminateResponse_of_builds body hbuild] at hheader henvelope
      refine hlost ⟨hbuild, fun hmark => ?_, fun hpassed s hs => henvelope s ?_⟩
      · rw [hmark] at hheader
        have hlines := (getAll_withTraceId (x.parse_traceId henv) _).symm.trans hheader
        exact (cons.inj hlines).2
      · rwa [envelope_passOn, if_neg hpassed]
  | marked headers hforeign v hmark hne =>
    obtain ⟨payload, hresp⟩ := respond_of_switches hwelcome (.inr hforeign)
    rw [answer, hresp, traceId_passOn, hmark] at hheader
    exact hne (cons.inj hheader).1
  | hidden ctx node hup hhidden =>
    rw [answer_of_ending hwelcome hroute (.upgrade ctx node hup),
      x.traceId_passOn_upgradeResponse henv] at hheader
    obtain ⟨preMatched, hmode⟩ | hnamed := hhidden
    · rw [hmode] at hheader
      cases hheader
    · rw [hnamed] at hheader
      cases hmode : x.mode <;> simp [hmode] at hheader
  | tunnel strip hready hopens hlines =>
    obtain ⟨addr, handshake, hmem, hsent⟩ :=
      x.mem_of_opens env traceId_mem_sensitiveHeaders hready hopens
    exact hlines (hsent.symm.trans (hsends _ hmem handshake.headers rfl))

/-! ### What is sent and recorded -/

lemma sends_traceId (henv : Generated env.traceId)
    (htunnels : ∀ strip, x.Ready env → x.Opens env strip →
      (if strip then [] else x.req.headers.getAll "x-trace-id") =
        [.ofString (x.requestMeta env).traceId]) :
    ∀ w ∈ x.log env, ∀ headers ∈ w.sentHeaders,
      headers.getAll "x-trace-id" = [.ofString (x.requestMeta env).traceId] := by
  intro w hw headers hheaders
  cases w with
  | forwardWebsocket addr handshake =>
    obtain rfl := some.inj hheaders
    obtain ⟨hready, strip, hopens, hlines⟩ := x.opens_of_mem env traceId_mem_sensitiveHeaders hw
    exact hlines.trans (htunnels strip hready hopens)
  | forwardHttp node out =>
    obtain rfl := some.inj hheaders
    exact x.getAll_of_forwardHttp env (fun _ _ => by simp [injectedHeaders])
      (x.parse_traceId henv) hw
  | _ => cases hheaders

variable (x env) in
lemma traceId_of_recordEvent {row : EventRow} (hmem : .recordEvent row ∈ x.log env) :
    row.traceId = some (x.requestMeta env).traceId := by
  rw [x.mem_log_iff env (by simp)] at hmem
  have hall := x.respond_always env
    (Q := fun w => ∀ row, w = .recordEvent row → row.traceId = some (x.requestMeta env).traceId)
    (fun w hw row heq => by rw [heq] at hw; exact hw) (fun _ _ _ _ _ heq => by cases heq)
  exact hall _ hmem row rfl

end

end HttpExchange

/-! ### The bridge -/

def probeAnswer (path : String) (status : Nat) (traceId : String) : HttpResponse :=
  if status = 503 then errorResponse 503 50001 "not ready: no routes loaded" traceId
  else ⟨200, withTraceId traceId [], .bytes (bytes (if path = "/healthz" then "ok" else "ready"))⟩

namespace Delivery

variable (d : Delivery Re Net P) (env : ExchangeEnv) (fresh readError : String)

def refusal (traceId : String) : HttpResponse :=
  match probeStatus d.table d.req with
  | some status => probeAnswer d.req.uri.path status traceId
  | none =>
    match d.head, d.outcome with
    | .collecting _ _, .readError =>
      errorResponse 400 10008 ("request body read error: " ++ readError) traceId
    | .collecting _ _, .timedOut => errorResponse 408 10009 "request body read timeout" traceId
    | _, _ => errorResponse 413 10007 "request body too large" traceId

def answer : HttpResponse :=
  let traceId := traceIdFromHeaders d.req.headers fresh
  match d.exchange with
  | some x => x.answer env traceId
  | none   => d.refusal readError traceId

structure OneTraceId (traceId : String) : Prop where
  client : Shows traceId (d.answer env fresh readError)
  plugins : ∀ x, d.exchange = some x → x.h.svc.isBlocked (x.requestMeta env).realIp = false →
    ∀ route, x.found env = .ok route →
      (HttpProtocolHandler.pluginContext (x.requestMeta env) x.req.method x.req.headers x.pluginBody
        route).traceId = traceId
  upstream : ∀ w ∈ d.log env, ∀ headers ∈ w.sentHeaders,
    headers.getAll "x-trace-id" = [.ofString traceId]
  events : ∀ row, .recordEvent row ∈ d.log env → row.traceId = some traceId

variable {d env fresh readError} {route : RouteSnapshot} {x : HttpExchange Net P}

variable (env) in
lemma found_of_exchange (hprobe : probeStatus d.table d.req = none)
    (hroute : (d.table.matchHttpRequest d.rx d.req.method d.req.uri d.req.headers).1 = some route)
    (hx : d.exchange = some x) : x.found env = .ok route ∧ x.req.headers = d.req.headers := by
  simp only [exchange, head, Dispatch.processHead, hprobe, hroute] at hx
  split_ifs at hx
  · dsimp only at hx
    split at hx
    · next hafter =>
      obtain rfl := some.inj hx
      rw [Dispatch.afterBody.eq_def] at hafter
      split at hafter
      · split_ifs at hafter
        cases hafter
        exact ⟨rfl, rfl⟩
      · cases hafter
      · cases hafter
    · cases hx
  · obtain rfl := some.inj hx
    exact ⟨rfl, rfl⟩

lemma shows_refusal (hprobe : probeStatus d.table d.req = none) {traceId : String}
    (h : parse traceId = some (.ofString traceId)) :
    Shows traceId (d.refusal readError traceId) := by
  simp only [refusal, hprobe]
  split <;> exact shows_errorResponse h _ _ _

lemma shows_blacklistResponse (henv : Generated env.traceId)
    (hblocked : x.h.svc.isBlocked (x.requestMeta env).realIp = true) (traceId : String) :
    Shows (x.requestMeta env).traceId (x.answer env traceId) := by
  have hanswer : x.answer env traceId =
      x.passOn (blacklistResponse (x.requestMeta env).traceId) := by
    rw [HttpExchange.answer, HttpExchange.respond_eq, conduct, if_pos hblocked]
    rfl
  have hself : x.passOn (blacklistResponse (x.requestMeta env).traceId) =
      blacklistResponse (x.requestMeta env).traceId := by
    rw [HttpExchange.passOn]
    cases x.mode <;> rfl
  rw [hanswer, hself]
  have hshows := shows_errorResponse (x.parse_traceId henv) 403 ConrogateError.forbidden.code
    "forbidden: ip not allowed"
  rwa [errorResponse, withTraceId, append_nil] at hshows

/-- A request that is matched to a route has one identifier everywhere, exactly when it is not lost
in one of the ways of `LosesTraceId`. -/
theorem one_traceId_iff (hprobe : probeStatus d.table d.req = none)
    (hroute : (d.table.matchHttpRequest d.rx d.req.method d.req.uri d.req.headers).1 = some route)
    (henv : Generated env.traceId) (hfresh : Generated fresh) :
    (∃ traceId, d.OneTraceId env fresh readError traceId) ↔
      ∀ x, d.exchange = some x → x.h.svc.isBlocked (x.requestMeta env).realIp = false →
        ¬ x.LosesTraceId env fresh route := by
  cases hx : d.exchange with
  | none =>
    refine iff_of_true ⟨traceIdFromHeaders d.req.headers fresh, ?_, ?_, ?_, ?_⟩ ?_
    · rw [answer, hx]
      exact shows_refusal hprobe (parse_traceIdFromHeaders _ hfresh)
    · intro x hx'
      cases hx.symm.trans hx'
    · rw [log, hx]
      exact fun w hw => (not_mem_nil hw).elim
    · rw [log, hx]
      exact fun row hrow => (not_mem_nil hrow).elim
    · intro x hx'
      cases hx'
  | some x =>
    obtain ⟨hfound, hheaders⟩ := found_of_exchange env hprobe hroute hx
    have hlog : d.log env = x.log env := by rw [log, hx]; rfl
    have hanswer : d.answer env fresh readError =
        x.answer env (traceIdFromHeaders x.req.headers fresh) := by rw [answer, hx, hheaders]
    constructor
    · rintro ⟨traceId, hclient, hplugins, hsends, -⟩ y hy hwelcome hloses
      obtain rfl := Option.some.inj hy
      obtain rfl := hplugins x hx hwelcome route hfound
      rw [hlog] at hsends
      rw [hanswer] at hclient
      exact not_shows_of_loses henv hwelcome hfound hloses hsends hclient
    · intro hkeeps
      refine ⟨(x.requestMeta env).traceId, ?_, ?_, ?_, ?_⟩
      · rw [hanswer]
        cases hblocked : x.h.svc.isBlocked (x.requestMeta env).realIp with
        | true => exact shows_blacklistResponse henv hblocked _
        | false => exact shows_of_keeps henv hblocked hfound (hkeeps x rfl hblocked)
      · intro y hy hwelcome route' hroute'
        obtain rfl := Option.some.inj (hx.symm.trans hy)
        rfl
      · rw [hlog]
        refine sends_traceId henv fun strip hready hopens => ?_
        exact by_contra fun hlines =>
          hkeeps x rfl hready.welcome (.tunnel strip hready hopens hlines)
      · rw [hlog]
        exact fun row => x.traceId_of_recordEvent env

lemma matchHttpRequest_oneRoute :
    (oneRoute.matchHttpRequest noRegex postRequest.method postRequest.uri postRequest.headers).1 =
      some onlyRoute := rfl

theorem one_traceId_answered :
    let d := chunkedDelivery oneRoute (.ok ⟨200, [], []⟩) [[1]]
    let env : ExchangeEnv := ⟨"r", generateTraceId 7 1 2, 0, 0, 0⟩
    clientTraceId d.req.headers = none ∧
      ∃ traceId, d.OneTraceId env (generateTraceId 7 1 1) "" traceId := by
  intro d env
  refine ⟨rfl, (one_traceId_iff rfl matchHttpRequest_oneRoute ⟨_, _, _, rfl⟩
    ⟨_, _, _, rfl⟩).mpr ?_⟩
  rintro x hx - hloses
  have hhead : d.head = .streaming onlyRoute := processHead_oneRoute
  rw [exchange, hhead] at hx
  obtain rfl := Option.some.inj hx
  cases hloses with
  | failed hfails hclient hfresh =>
    exact hfails _ (.upstream _ openNode _ _ _ ⟨⟨rfl, rfl, rfl⟩, rfl, rfl, rfl, rfl⟩ rfl rfl rfl)
  | ended code body ctx hends hlost => cases hends
  | marked headers hforeign v hmark hne =>
    cases hforeign with
    | plugin route body ctx hroute hplugins hbuild => cases hplugins
    | upstream route ctx node uri r after hroute hreach hanswer hstatus hbuild hafter =>
      cases hanswer
      cases hstatus
  | hidden ctx node hup hhidden => exact absurd hup.upgrade (by decide)
  | tunnel strip hready hopens hlines => exact absurd hready.asks (by decide)

/-- A request without an identifier, which no upstream answers in time: the client gets the error
under another identifier than that of the recorded event. -/
theorem error_has_other_traceId :
    let d := chunkedDelivery oneRoute (.error .upstreamTimeout) [[1]]
    let env : ExchangeEnv := ⟨"r", generateTraceId 7 1 2, 0, 0, 0⟩
    let fresh := generateTraceId 7 1 1
    (d.answer env fresh "").status = 502 ∧
    envelopeTraceId (d.answer env fresh "").body = some fresh ∧
    (∃ row, .recordEvent row ∈ d.log env ∧ row.traceId = some env.traceId) ∧
    ¬ ∃ traceId, d.OneTraceId env fresh "" traceId := by
  intro d env fresh
  have hhead : d.head = .streaming onlyRoute := processHead_oneRoute
  have hanswer : d.answer env fresh "" = handlerError fresh .upstreamTimeout := by
    rw [answer, exchange, hhead]
    rfl
  have hevent : ∃ row, .recordEvent row ∈ d.log env ∧ row.traceId = some env.traceId := by
    obtain ⟨front, row, hlog, hrow⟩ : ∃ front row, d.log env = front ++ [.recordEvent row] ∧
        row.traceId = some env.traceId := by
      rw [d.log_of_streaming env hhead]
      exact ⟨[_, _, _, _, _, _], _, rfl, rfl⟩
    exact ⟨row, hlog ▸ mem_append_right _ mem_cons_self, hrow⟩
  rw [hanswer]
  refine ⟨rfl, rfl, hevent, ?_⟩
  rintro ⟨traceId, ⟨-, henvelope⟩, -, -, hevents⟩
  obtain ⟨row, hmem, hrow⟩ := hevent
  rw [hanswer] at henvelope
  have hsame : some env.traceId = some fresh := by
    rw [← hrow, hevents row hmem, henvelope _ rfl]
  exact absurd hsame (by decide +kernel)

end Delivery

end Conrogate
