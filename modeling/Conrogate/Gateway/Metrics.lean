import Conrogate.Gateway.ClientAnswer

/-!
# What the metrics say about requests

Each request of a route is to leave one metric row, which counts the answer under the class of its
status. On some ways to the answer none is written.
-/

namespace Conrogate

open Logged

variable {Net P : Type}

inductive StatusClass where
  | success
  | redirection
  | clientError
  | serverError
deriving DecidableEq

def statusClass (status : Nat) : Option StatusClass :=
  if status = 101 ∨ (200 ≤ status ∧ status < 300) then some .success
  else if 300 ≤ status ∧ status < 400 then some .redirection
  else if 400 ≤ status ∧ status < 500 then some .clientError
  else if 500 ≤ status ∧ status < 600 then some .serverError
  else none

def errorStatus (e : ConrogateError) : Nat := (handlerError "" e).status

def sentStatus : Result HttpResponse → Nat
  | .ok resp => resp.status
  | .error e => errorStatus e

def MetricRow.count (row : MetricRow) : StatusClass → Nat
  | .success => row.status2xx
  | .redirection => row.status3xx
  | .clientError => row.status4xx
  | .serverError => row.status5xx

def MetricRow.CountsOne (row : MetricRow) (c : StatusClass) : Prop :=
  ∀ d, row.count d = if d = c then 1 else 0

def Effect.metricRow : Effect → Option MetricRow
  | .recordMetric row => some row
  | _ => none

def metricRows (routeId : Nat) (log : List Effect) : List MetricRow :=
  (log.filterMap Effect.metricRow).filter (·.routeId = some routeId)

def CountedOnce (routeId : Nat) (x : Handler HttpResponse) : Prop :=
  ∃ row c, metricRows routeId x.effects = [row] ∧ row.CountsOne c ∧
    statusClass (sentStatus x.result) = some c

lemma MetricRow.CountsOne.unique {row : MetricRow} {c d : StatusClass} (hc : row.CountsOne c)
    (hd : row.CountsOne d) : c = d := by
  by_contra hne
  have hzero := hd c
  rw [hc c, if_pos rfl, if_neg hne] at hzero
  cases hzero

lemma statusClass_errorStatus (e : ConrogateError) : statusClass (errorStatus e) =
    some (if errorStatus e = 429 then .clientError else .serverError) := by
  cases e <;> rfl

lemma errorStatus_clientError_iff {e : ConrogateError} :
    statusClass (errorStatus e) = some .clientError ↔ errorStatus e = 429 := by
  rw [statusClass_errorStatus, Option.some.injEq, ite_eq_left_iff]
  simp

lemma errorStatus_serverError_iff {e : ConrogateError} :
    statusClass (errorStatus e) = some .serverError ↔ errorStatus e ≠ 429 := by
  rw [statusClass_errorStatus, Option.some.injEq, ite_eq_right_iff]
  simp

lemma flags_of_statusClass {status : Nat} {c : StatusClass} (h : statusClass status = some c) :
    (status == 101 || (200 ≤ status && status < 300)) = decide (c = .success) ∧
    (300 ≤ status && status < 400) = decide (c = .redirection) ∧
    (400 ≤ status && status < 500) = decide (c = .clientError) ∧
    decide (500 ≤ status) = decide (c = .serverError) := by
  rw [statusClass] at h
  split_ifs at h with h2xx h3xx h4xx h5xx
  -- in every class the bounds decide all four flags
  all_goals
    cases h
    simp
    omega

lemma metricRows_append (routeId : Nat) (log more : List Effect) :
    metricRows routeId (log ++ more) = metricRows routeId log ++ metricRows routeId more := by
  simp [metricRows]

lemma metricRows_recordMetric {routeId : Nat} {row : MetricRow} (h : row.routeId = some routeId)
    (log : List Effect) :
    metricRows routeId (.recordMetric row :: log) = row :: metricRows routeId log := by
  simp [metricRows, Effect.metricRow, h]

section

variable {routeId : Nat} {log : List Effect} {x : Handler HttpResponse}
  {res : Result HttpResponse} {row : MetricRow} {c : StatusClass}

lemma not_countedOnce_of_silent (h : metricRows routeId log = []) :
    ¬ CountedOnce routeId ⟨log, res⟩ := by
  rintro ⟨row, c, hrow, -⟩
  cases h.symm.trans hrow

lemma countedOnce_row_iff {pre post : List Effect} (hpre : metricRows routeId pre = [])
    (hpost : metricRows routeId post = []) (hroute : row.routeId = some routeId)
    (hrow : row.CountsOne c) :
    CountedOnce routeId ⟨pre ++ .recordMetric row :: post, res⟩ ↔
      statusClass (sentStatus res) = some c := by
  have hrows : metricRows routeId (pre ++ .recordMetric row :: post) = [row] := by
    rw [metricRows_append, hpre, metricRows_recordMetric hroute, hpost]
    rfl
  constructor
  · rintro ⟨row', c', hrow', hc', hsent⟩
    obtain rfl : row = row' := List.head_eq_of_cons_eq (hrows.symm.trans hrow')
    rw [hrow.unique hc']
    exact hsent
  · exact fun hsent => ⟨row, c, hrows, hrow, hsent⟩

lemma countedOnce_append_iff (h : metricRows routeId log = []) :
    CountedOnce routeId ⟨log ++ x.effects, x.result⟩ ↔ CountedOnce routeId x := by
  simp only [CountedOnce, metricRows_append, h, List.nil_append]

end

namespace HttpProtocolHandler

variable (h : HttpProtocolHandler Net P) (env : ExchangeEnv)

lemma countedOnce_terminal_iff (route : RouteSnapshot) (c : StatusClass) (pre post : List Effect)
    (hpre : metricRows route.id pre = []) (hpost : metricRows route.id post = [])
    {is2xx is3xx is4xx is5xx : Bool} (h2xx : is2xx = decide (c = .success))
    (h3xx : is3xx = decide (c = .redirection)) (h4xx : is4xx = decide (c = .clientError))
    (h5xx : is5xx = decide (c = .serverError)) (bytesIn bytesOut : Nat)
    (res : Result HttpResponse) :
    CountedOnce route.id ⟨pre ++ ((h.recordTerminalMetric env route is2xx is3xx is4xx is5xx bytesIn
      bytesOut).effects ++ post), res⟩ ↔ statusClass (sentStatus res) = some c := by
  subst h2xx h3xx h4xx h5xx
  refine countedOnce_row_iff hpre hpost rfl ?_
  intro d
  cases c <;> cases d <;> rfl

def Reported (ctx : PluginContext) (route : RouteSnapshot) (afterBody : ProxyResult → List UInt8) :
    Result ProxyResult → Prop
  | .error e => errorStatus e ≠ 429
  | .ok r    => h.http.buildResponse r.status r.headers = .ok () ∧
      (h.svc.executeAfterResponse ctx ⟨r.status, r.headers, afterBody r⟩
        (h.svc.routePlugins route.id)).isOk ∧ (statusClass r.status).isSome

lemma countedOnce_finalizeResponse_iff (m : RequestMeta) (ctx : PluginContext)
    (route : RouteSnapshot) (r : ProxyResult) (afterBody : ProxyResult → List UInt8)
    (bytesIn : Nat) :
    CountedOnce route.id (h.finalizeResponse env m ctx (h.svc.routePlugins route.id) route r.status
      r.headers r.body (afterBody r) bytesIn) ↔ h.Reported ctx route afterBody (.ok r) := by
  cases hbuild : h.http.buildResponse r.status r.headers with
  | error e =>
    simp only [finalizeResponse, Reported, hbuild]
    exact iff_of_false (not_countedOnce_of_silent rfl) (by simp)
  | ok u =>
    cases hafter : h.svc.executeAfterResponse ctx ⟨r.status, r.headers, afterBody r⟩
        (h.svc.routePlugins route.id) with
    | error e =>
      simp only [finalizeResponse, Reported, hbuild, hafter]
      exact iff_of_false (not_countedOnce_of_silent rfl) (by simp [Except.isOk, Except.toBool])
    | ok after =>
      cases hclass : statusClass r.status with
      | none =>
        refine iff_of_false ?_ (by simp [Reported, hclass])
        rintro ⟨row, c, -, -, hsent⟩
        simp only [finalizeResponse, hbuild, hafter] at hsent
        cases hclass.symm.trans hsent
      | some c =>
        refine iff_of_true ?_ ⟨hbuild, by rw [hafter]; rfl, by rw [hclass]; rfl⟩
        obtain ⟨h2xx, h3xx, h4xx, h5xx⟩ := flags_of_statusClass hclass
        simp only [finalizeResponse, hbuild, hafter]
        exact (h.countedOnce_terminal_iff env route c [] [] rfl rfl h2xx h3xx h4xx h5xx bytesIn
          (afterBody r).length _).mpr hclass

lemma metricRows_nil_of_loop {routeId : Nat} {log : List Effect} (h : ∀ w ∈ log, w.OfLoop) :
    metricRows routeId log = [] := by
  have hnone : log.filterMap Effect.metricRow = [] := by
    rw [List.filterMap_eq_nil_iff]
    intro w hw
    have hloop := h w hw
    cases w with
    | recordMetric row => exact hloop.elim
    | _ => rfl
  rw [metricRows, hnone, List.filter_nil]

lemma countedOnce_settle_iff (m : RequestMeta) (ctx : PluginContext) (route : RouteSnapshot)
    (node : UpstreamNodeDto) (proxied : Result ProxyResult)
    (afterBody : ProxyResult → List UInt8) (bytesIn : Nat) :
    CountedOnce route.id (h.settle env m ctx (h.svc.routePlugins route.id) route node proxied
      afterBody bytesIn) ↔ h.Reported ctx route afterBody proxied := by
  cases proxied with
  | error e =>
    have hrow := h.countedOnce_terminal_iff env route .serverError
      [.recordResult route.id node.id false, .releaseNode route.id node]
      (recordUpstreamFailedEvent env route node m e).effects rfl rfl rfl rfl rfl rfl 0 0 (.error e)
    exact hrow.trans errorStatus_serverError_iff
  | ok r =>
    rw [← h.countedOnce_finalizeResponse_iff env m ctx route r afterBody bytesIn]
    have hsilent : metricRows route.id [.recordResult route.id node.id true,
      .releaseNode route.id node] = [] := rfl
    exact countedOnce_append_iff hsilent

section

variable {req : HttpRequest} {m : RequestMeta} {route : RouteSnapshot} {ctx : PluginContext}
  {node : UpstreamNodeDto} {uri : ParsedUri}

section

variable (huri : buildUpstreamUri h.http node req.pathAndQuery = .ok uri)
  (hbuild : h.http.buildRequest req.method uri = .ok ())
include huri hbuild

lemma countedOnce_forwardBuffered_iff :
    CountedOnce route.id
        (h.forwardBuffered env req m ctx (h.svc.routePlugins route.id) route node) ↔
      h.Reported ctx route (·.body) (h.bufferedOutcome req m route ctx node uri) := by
  obtain ⟨log, hlog, -, heq⟩ := h.forwardBuffered_eq env m ctx (h.svc.routePlugins route.id) route
    huri hbuild
  rw [heq, countedOnce_append_iff (metricRows_nil_of_loop hlog), h.countedOnce_settle_iff]

lemma countedOnce_forwardStreamed_iff :
    CountedOnce route.id
        (h.forwardStreamed env req m ctx (h.svc.routePlugins route.id) route node) ↔
      h.Reported ctx route (fun _ => []) (h.streamedOutcome req m route ctx node uri) := by
  have hsilent : metricRows route.id
    [.forwardHttp node (h.outRequest req m ctx route node uri none)] = [] := rfl
  rw [h.forwardStreamed_eq env m ctx _ route huri hbuild, countedOnce_append_iff hsilent,
    h.countedOnce_settle_iff]

end

end

/-- The requests that are counted once and under the right class: those that a limit turns away
with 429, those that the breaker turns away with another error, upgrades, and those whose outcome
is reported after forwarding. -/
inductive Visible (req : HttpRequest) (m : RequestMeta) (pluginBody : Option (List UInt8))
    (route : RouteSnapshot) (afterBody : ProxyResult → List UInt8)
    (outcome : PluginContext → UpstreamNodeDto → ParsedUri → Result ProxyResult) :
    Prop
  | limited (ctx : PluginContext) (e : ConrogateError)
      (hplugins : h.beforeRequest m req.method req.headers pluginBody route =
        .ok (.continue_, ctx))
      (hlimits : h.svc.checkRateLimit route.id m.realIp = .error e) (he : errorStatus e = 429)
  | refused (ctx : PluginContext) (node : UpstreamNodeDto) (e : ConrogateError)
      (hpass : h.Passes m req.method req.headers pluginBody route ctx node)
      (hbreaker : h.svc.checkCircuitBreaker route.id node.id = .error e)
      (he : errorStatus e ≠ 429)
  | upgraded (ctx : PluginContext) (node : UpstreamNodeDto)
      (hpass : h.Passes m req.method req.headers pluginBody route ctx node)
      (hbreaker : h.svc.checkCircuitBreaker route.id node.id = .ok ())
      (hupgrade : isUpgradeRequest req.method req.headers = true)
  | forwarded (ctx : PluginContext) (node : UpstreamNodeDto) (uri : ParsedUri)
      (hreach : h.Reaches req m pluginBody route ctx node uri)
      (hreported : h.Reported ctx route afterBody (outcome ctx node uri))

lemma countedOnce_limited_iff (m : RequestMeta) (route : RouteSnapshot) (e : ConrogateError) :
    CountedOnce route.id ⟨.recordEvent (rejectionEvent env "rate_limited" m route.id none e) ::
      (h.recordTerminalMetric env route false false true false 0 0).effects, .error e⟩ ↔
        errorStatus e = 429 := by
  rw [← errorStatus_clientError_iff]
  exact h.countedOnce_terminal_iff env route .clientError [.recordEvent _] [] rfl rfl rfl rfl rfl
    rfl 0 0 (.error e)

lemma countedOnce_refused_iff (m : RequestMeta) (route : RouteSnapshot) (node : UpstreamNodeDto)
    (e : ConrogateError) :
    CountedOnce route.id ⟨.selected route.id node ::
      ((h.recordTerminalMetric env route false false false true 0 0).effects ++
        [.recordEvent (rejectionEvent env "circuit_breaker_open" m route.id (some node.id) e)]),
      .error e⟩ ↔ errorStatus e ≠ 429 := by
  rw [← errorStatus_serverError_iff]
  exact h.countedOnce_terminal_iff env route .serverError [.selected route.id node]
    [.recordEvent _] rfl rfl rfl rfl rfl rfl 0 0 (.error e)

lemma countedOnce_upgraded (m : RequestMeta) (headers : HeaderMap) (route : RouteSnapshot)
    (node : UpstreamNodeDto) :
    CountedOnce route.id ⟨[.selected route.id node, .admitted route.id node.id] ++
      (h.recordWsMetric env route.id).effects, .ok (h.upgradeResponse m headers route node)⟩ := by
  refine (countedOnce_row_iff (c := .success) rfl (rfl : metricRows route.id [] = []) rfl ?_).mpr
    rfl
  intro d
  cases d <;> rfl

section

variable (req : HttpRequest) (m : RequestMeta) (pluginBody : Option (List UInt8))
  (route : RouteSnapshot)
  {forward : PluginContext → List P → RouteSnapshot → UpstreamNodeDto → Handler HttpResponse}
  {afterBody : ProxyResult → List UInt8}
  {outcome : PluginContext → UpstreamNodeDto → ParsedUri → Result ProxyResult}
  (hforward : ∀ ctx node uri, buildUpstreamUri h.http node req.pathAndQuery = .ok uri →
    h.http.buildRequest req.method uri = .ok () →
    (CountedOnce route.id (forward ctx (h.svc.routePlugins route.id) route node) ↔
      h.Reported ctx route afterBody (outcome ctx node uri)))
  (hdropped : ∀ ctx node, ¬ h.CanForward req node →
    (forward ctx (h.svc.routePlugins route.id) route node).effects = [])
include hforward hdropped

lemma countedOnce_dispatch_iff :
    CountedOnce route.id (h.preflight env m req.method req.headers pluginBody route >>=
        h.dispatch env m forward) ↔
      h.Visible req m pluginBody route afterBody outcome := by
  have hsilent : ∀ node : UpstreamNodeDto, metricRows route.id
    [.selected route.id node, .admitted route.id node.id] = [] := fun _ => rfl
  constructor
  · intro hcounted
    have hcourse := h.preflight_course env m req.method req.headers pluginBody route
    generalize h.preflight env m req.method req.headers pluginBody route = pre
      at hcourse hcounted
    cases hcourse with
    | pluginFailed e hplugins => exact absurd hcounted (not_countedOnce_of_silent rfl)
    | terminated code body ctx hplugins => exact absurd hcounted (not_countedOnce_of_silent rfl)
    | limited ctx e hplugins hlimits =>
      rw [bind_of_error rfl] at hcounted
      exact .limited ctx e hplugins hlimits ((h.countedOnce_limited_iff env m route e).mp hcounted)
    | noNode e hnode => exact absurd hcounted (not_countedOnce_of_silent rfl)
    | refused ctx node e hpass hbreaker =>
      rw [bind_of_error rfl] at hcounted
      exact .refused ctx node e hpass hbreaker
        ((h.countedOnce_refused_iff env m route node e).mp hcounted)
    | upgraded ctx node hpass hbreaker hupgrade => exact .upgraded ctx node hpass hbreaker hupgrade
    | admitted ctx node hpass hbreaker hplain =>
      rw [bind_of_ok rfl, countedOnce_append_iff (hsilent node), dispatch] at hcounted
      by_cases hcan : h.CanForward req node
      · obtain ⟨uri, huri, hbuild⟩ := hcan
        exact .forwarded ctx node uri ⟨hpass, hbreaker, hplain, huri, hbuild⟩
          ((hforward ctx node uri huri hbuild).mp hcounted)
      · refine absurd hcounted (not_countedOnce_of_silent ?_)
        rw [hdropped ctx node hcan]
        rfl
  · intro hvisible
    cases hvisible with
    | limited ctx e hplugins hlimits he =>
      rw [preflight_of_limited env hplugins hlimits, bind_of_error rfl]
      exact (h.countedOnce_limited_iff env m route e).mpr he
    | refused ctx node e hpass hbreaker he =>
      rw [preflight_of_refused env hpass hbreaker, bind_of_error rfl]
      exact (h.countedOnce_refused_iff env m route node e).mpr he
    | upgraded ctx node hpass hbreaker hupgrade =>
      rw [preflight_of_upgraded env hpass hbreaker hupgrade, bind_of_ok rfl]
      exact h.countedOnce_upgraded env m req.headers route node
    | forwarded ctx node uri hreach hreported =>
      rw [preflight_of_admitted env hreach.toPasses hreach.breaker hreach.plain, bind_of_ok rfl,
        countedOnce_append_iff (hsilent node)]
      exact (hforward ctx node uri hreach.parses hreach.builds).mpr hreported

lemma countedOnce_conduct_iff :
    CountedOnce route.id (h.conduct env req m pluginBody (.ok route) forward) ↔
      h.svc.isBlocked m.realIp = false ∧ h.Visible req m pluginBody route afterBody outcome := by
  rw [← h.countedOnce_dispatch_iff env req m pluginBody route hforward hdropped]
  cases hblocked : h.svc.isBlocked m.realIp with
  | true =>
    simp only [conduct, hblocked, if_true]
    exact iff_of_false (not_countedOnce_of_silent rfl) fun hnot => by cases hnot.1
  | false => simp [conduct, hblocked]

end

/-- A request leaves exactly one metric row of its route, which counts the answer to the client,
exactly when it is not blocked and visible. -/
theorem metric_row_once_iff (req : HttpRequest) (clientIp : String) (matchInfo : RouteMatchInfo)
    (route : RouteSnapshot) :
    let m := h.buildRequestMeta env matchInfo req.headers clientIp
    (∀ preMatched, h.routeOf m preMatched = .ok route →
      (CountedOnce route.id (h.handle env req clientIp matchInfo preMatched) ↔
        h.svc.isBlocked m.realIp = false ∧ h.Visible req m (some req.body) route (·.body)
          (h.bufferedOutcome req m route))) ∧
    (CountedOnce route.id (h.handleStream env req route clientIp matchInfo) ↔
      h.svc.isBlocked m.realIp = false ∧ h.Visible req m none route (fun _ => [])
        (h.streamedOutcome req m route)) := by
  intro m
  constructor
  · intro preMatched hroute
    simp only [handle]
    rw [hroute]
    refine h.countedOnce_conduct_iff env req m (some req.body) route ?_ ?_
    · exact fun ctx node uri huri hbuild => h.countedOnce_forwardBuffered_iff env huri hbuild
    · exact fun ctx node hcan => h.buildRequest_of_not_canForward hcan _
  · refine h.countedOnce_conduct_iff env req m none route ?_ ?_
    · exact fun ctx node uri huri hbuild => h.countedOnce_forwardStreamed_iff env huri hbuild
    · exact fun ctx node hcan => h.buildRequest_of_not_canForward hcan _

theorem metric_row_once_of_answer :
    let route := openRoute true
    let h := openHandler (.ok openNode) (.ok ⟨200, [], []⟩)
    let req := getRequest "/a" []
    CountedOnce route.id (h.handle openEnv req "1.2.3.4" req.matchInfo (some route)) := by
  intro route h req
  refine ((h.metric_row_once_iff openEnv req _ _ route).1 (some route) rfl).mpr ⟨rfl, ?_⟩
  exact .forwarded _ openNode _ ⟨⟨rfl, rfl, rfl⟩, rfl, rfl, rfl, rfl⟩ ⟨rfl, rfl, rfl⟩

/-- No node can be selected: the client is sent 502, and no metric row says so. -/
theorem selection_error_not_counted :
    let route := openRoute true
    let h := openHandler (.error (.upstreamNotFound "2")) (.ok ⟨200, [], []⟩)
    let req := getRequest "/a" []
    let x := h.handle openEnv req "1.2.3.4" req.matchInfo (some route)
    sentStatus x.result = 502 ∧ x.effects = [] ∧ ¬ CountedOnce route.id x :=
  ⟨rfl, rfl, not_countedOnce_of_silent rfl⟩

end HttpProtocolHandler

end Conrogate
