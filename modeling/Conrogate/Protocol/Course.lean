import Conrogate.Protocol.Http

/-!
# The course of a request

What the handler asks on its way to an upstream, and what each answer leads to: how `preflight`
ends, with all that it leaves in the log, and how often the retry loop forwards.
-/

namespace Conrogate

open Logged List Effect Nat

variable {Net P : Type}

namespace HttpProtocolHandler

variable (h : HttpProtocolHandler Net P) (env : ExchangeEnv)

/-! ### Before forwarding -/

section

variable (m : RequestMeta) (method : String) (headers : HeaderMap)
  (pluginBody : Option (List UInt8)) (route : RouteSnapshot)

def beforeRequest : Result (PluginOutcome × PluginContext) :=
  h.svc.executeBeforeRequest (pluginContext m method headers pluginBody route)
    (h.svc.routePlugins route.id)

/-- Plugins, limits and balancer let the request through. -/
structure Passes (ctx : PluginContext) (node : UpstreamNodeDto) : Prop where
  plugins : h.beforeRequest m method headers pluginBody route = .ok (.continue_, ctx)
  limits : h.svc.checkRateLimit route.id m.realIp = .ok ()
  balancer : h.svc.selectUpstream route (some m.realIp) = .ok node

/-- The request gets as far as the node. -/
def Selects (node : UpstreamNodeDto) : Prop :=
  ∃ ctx, h.Passes m method headers pluginBody route ctx node

/-- The ways `preflight` can end, with what it has asked and done until then. -/
inductive Course : Handler (PreFlight P) → Prop
  | pluginFailed (e : ConrogateError)
      (hplugins : h.beforeRequest m method headers pluginBody route = .error e) :
      Course ⟨[], .error e⟩
  | terminated (code : Nat) (body : Json) (ctx : PluginContext)
      (hplugins : h.beforeRequest m method headers pluginBody route =
        .ok (.terminate code body, ctx)) :
      Course ⟨[], .ok (.terminate code body ctx.responseHeaders)⟩
  | limited (ctx : PluginContext) (e : ConrogateError)
      (hplugins : h.beforeRequest m method headers pluginBody route = .ok (.continue_, ctx))
      (hlimits : h.svc.checkRateLimit route.id m.realIp = .error e) :
      Course ⟨.recordEvent (rejectionEvent env "rate_limited" m route.id none e) ::
        (h.recordTerminalMetric env route false false true false 0 0).effects, .error e⟩
  | noNode (e : ConrogateError)
      (hnode : h.svc.selectUpstream route (some m.realIp) = .error e) :
      Course ⟨[], .error e⟩
  | refused (ctx : PluginContext) (node : UpstreamNodeDto) (e : ConrogateError)
      (hpass : h.Passes m method headers pluginBody route ctx node)
      (hbreaker : h.svc.checkCircuitBreaker route.id node.id = .error e) :
      Course ⟨.selected route.id node ::
        ((h.recordTerminalMetric env route false false false true 0 0).effects ++
          [.recordEvent (rejectionEvent env "circuit_breaker_open" m route.id (some node.id) e)]),
        .error e⟩
  | upgraded (ctx : PluginContext) (node : UpstreamNodeDto)
      (hpass : h.Passes m method headers pluginBody route ctx node)
      (hbreaker : h.svc.checkCircuitBreaker route.id node.id = .ok ())
      (hupgrade : isUpgradeRequest method headers = true) :
      Course ⟨[.selected route.id node, .admitted route.id node.id],
        .ok (.webSocketUpgrade (h.upgradeResponse m headers route node) node.address route.id)⟩
  | admitted (ctx : PluginContext) (node : UpstreamNodeDto)
      (hpass : h.Passes m method headers pluginBody route ctx node)
      (hbreaker : h.svc.checkCircuitBreaker route.id node.id = .ok ())
      (hupgrade : isUpgradeRequest method headers = false) :
      Course ⟨[.selected route.id node, .admitted route.id node.id],
        .ok (.continue_ ctx (h.svc.routePlugins route.id) route node)⟩

end

section

variable {h} {m : RequestMeta} {method : String} {headers : HeaderMap}
  {pluginBody : Option (List UInt8)} {route : RouteSnapshot} {ctx : PluginContext}
  {node : UpstreamNodeDto} {e : ConrogateError}

lemma preflight_of_limited
    (hplugins : h.beforeRequest m method headers pluginBody route = .ok (.continue_, ctx))
    (hlimits : h.svc.checkRateLimit route.id m.realIp = .error e) :
    h.preflight env m method headers pluginBody route =
      ⟨.recordEvent (rejectionEvent env "rate_limited" m route.id none e) ::
        (h.recordTerminalMetric env route false false true false 0 0).effects, .error e⟩ := by
  rw [beforeRequest] at hplugins
  simp only [preflight, hplugins, ofExcept_ok_bind, hlimits, recordTerminalMetric, emit_bind]
  rfl

section

variable (hpass : h.Passes m method headers pluginBody route ctx node)
include hpass

lemma preflight_of_refused (hbreaker : h.svc.checkCircuitBreaker route.id node.id = .error e) :
    h.preflight env m method headers pluginBody route = ⟨.selected route.id node ::
      ((h.recordTerminalMetric env route false false false true 0 0).effects ++
        [.recordEvent (rejectionEvent env "circuit_breaker_open" m route.id (some node.id) e)]),
      .error e⟩ := by
  obtain ⟨hplugins, hlimits, hnode⟩ := hpass
  rw [beforeRequest] at hplugins
  simp only [preflight, hplugins, ofExcept_ok_bind, hlimits, hnode, hbreaker,
    recordTerminalMetric, emit_bind]
  rfl

lemma preflight_of_upgraded (hbreaker : h.svc.checkCircuitBreaker route.id node.id = .ok ())
    (hupgrade : isUpgradeRequest method headers = true) :
    h.preflight env m method headers pluginBody route =
      ⟨[.selected route.id node, .admitted route.id node.id],
        .ok (.webSocketUpgrade (h.upgradeResponse m headers route node) node.address
          route.id)⟩ := by
  obtain ⟨hplugins, hlimits, hnode⟩ := hpass
  rw [beforeRequest] at hplugins
  simp only [preflight, hplugins, ofExcept_ok_bind, hlimits, hnode, hbreaker, hupgrade, emit_bind]
  rfl

lemma preflight_of_admitted (hbreaker : h.svc.checkCircuitBreaker route.id node.id = .ok ())
    (hupgrade : isUpgradeRequest method headers = false) :
    h.preflight env m method headers pluginBody route =
      ⟨[.selected route.id node, .admitted route.id node.id],
        .ok (.continue_ ctx (h.svc.routePlugins route.id) route node)⟩ := by
  obtain ⟨hplugins, hlimits, hnode⟩ := hpass
  rw [beforeRequest] at hplugins
  simp only [preflight, hplugins, ofExcept_ok_bind, hlimits, hnode, hbreaker, hupgrade, emit_bind]
  rfl

end

variable (h m method headers pluginBody route) in
lemma preflight_course : h.Course env m method headers pluginBody route
    (h.preflight env m method headers pluginBody route) := by
  cases hplugins : h.beforeRequest m method headers pluginBody route with
  | error e =>
    have hpre : h.preflight env m method headers pluginBody route = ⟨[], .error e⟩ := by
      rw [preflight, ← beforeRequest, hplugins]
      rfl
    rw [hpre]
    exact .pluginFailed e hplugins
  | ok before =>
    obtain ⟨outcome, ctx⟩ := before
    cases outcome with
    | terminate code body =>
      have hpre : h.preflight env m method headers pluginBody route =
          ⟨[], .ok (.terminate code body ctx.responseHeaders)⟩ := by
        rw [preflight, ← beforeRequest, hplugins]
        rfl
      rw [hpre]
      exact .terminated code body ctx hplugins
    | continue_ =>
      cases hlimits : h.svc.checkRateLimit route.id m.realIp with
      | error e =>
        rw [preflight_of_limited env hplugins hlimits]
        exact .limited ctx e hplugins hlimits
      | ok u =>
        cases hnode : h.svc.selectUpstream route (some m.realIp) with
        | error e =>
          have hpre : h.preflight env m method headers pluginBody route = ⟨[], .error e⟩ := by
            rw [preflight, ← beforeRequest, hplugins]
            simp only [ofExcept_ok_bind, hlimits, hnode]
            rfl
          rw [hpre]
          exact .noNode e hnode
        | ok node =>
          have hpass : h.Passes m method headers pluginBody route ctx node :=
            ⟨hplugins, hlimits, hnode⟩
          cases hbreaker : h.svc.checkCircuitBreaker route.id node.id with
          | error e =>
            rw [preflight_of_refused env hpass hbreaker]
            exact .refused ctx node e hpass hbreaker
          | ok u =>
            cases hupgrade : isUpgradeRequest method headers with
            | true =>
              rw [preflight_of_upgraded env hpass hbreaker hupgrade]
              exact .upgraded ctx node hpass hbreaker hupgrade
            | false =>
              rw [preflight_of_admitted env hpass hbreaker hupgrade]
              exact .admitted ctx node hpass hbreaker hupgrade

end

/-! ### The request to the upstream -/

def CanForward (req : HttpRequest) (node : UpstreamNodeDto) : Prop :=
  ∃ uri, buildUpstreamUri h.http node req.pathAndQuery = .ok uri ∧
    h.http.buildRequest req.method uri = .ok ()

structure Forwards (req : HttpRequest) (route : RouteSnapshot) (node : UpstreamNodeDto) :
    Prop where
  breaker : h.svc.checkCircuitBreaker route.id node.id = .ok ()
  plain : isUpgradeRequest req.method req.headers = false
  buildable : h.CanForward req node

/-- The request is sent to `node`. -/
structure Reaches (req : HttpRequest) (m : RequestMeta) (pluginBody : Option (List UInt8))
    (route : RouteSnapshot) (ctx : PluginContext) (node : UpstreamNodeDto) (uri : ParsedUri) :
    Prop extends h.Passes m req.method req.headers pluginBody route ctx node where
  breaker : h.svc.checkCircuitBreaker route.id node.id = .ok ()
  plain : isUpgradeRequest req.method req.headers = false
  parses : buildUpstreamUri h.http node req.pathAndQuery = .ok uri
  builds : h.http.buildRequest req.method uri = .ok ()

lemma buildRequest_of_ok {method : String} {uri : ParsedUri}
    (hbuild : h.http.buildRequest method uri = .ok ()) : h.buildRequest method uri = pure () := by
  rw [buildRequest, hbuild]
  rfl

section

variable {α : Type} {req : HttpRequest} {node : UpstreamNodeDto} (hcan : ¬ h.CanForward req node)
  (next : ParsedUri → Handler α)
include hcan

lemma fails_of_not_canForward :
    ∃ e, (ofExcept (buildUpstreamUri h.http node req.pathAndQuery) >>= fun uri =>
      h.buildRequest req.method uri >>= fun _ => next uri) = fail e := by
  cases huri : buildUpstreamUri h.http node req.pathAndQuery with
  | error e => exact ⟨e, rfl⟩
  | ok uri =>
    cases hbuild : h.http.buildRequest req.method uri with
    | error e =>
      refine ⟨.upstreamConnectFailed ("request build: " ++ e), ?_⟩
      rw [ofExcept_ok_bind, buildRequest, hbuild]
      rfl
    | ok u => exact absurd ⟨uri, huri, hbuild⟩ hcan

lemma buildRequest_of_not_canForward :
    (ofExcept (buildUpstreamUri h.http node req.pathAndQuery) >>= fun uri =>
      h.buildRequest req.method uri >>= fun _ => next uri).effects = [] := by
  obtain ⟨e, hfail⟩ := h.fails_of_not_canForward hcan next
  rw [hfail, effects_fail]

end

/-! ### The retry loop -/

def Granted (attempt : Nat) : Prop := ∀ tryConsume ∈ h.retryBudget, tryConsume attempt = true

instance (attempt : Nat) : Decidable (h.Granted attempt) :=
  inferInstanceAs (Decidable (∀ tryConsume ∈ h.retryBudget, tryConsume attempt = true))

section

variable (canRetry : Bool) (node : UpstreamNodeDto) (out : OutRequest)

/-- The loop goes on after `attempt`. -/
structure Repeats (attempt : Nat) : Prop where
  outcome : retryable (h.forwardHttp attempt node out) = true
  request : canRetry = true
  left : attempt < h.maxRetries
  granted : h.Granted (attempt + 1)

lemma repeats_iff (attempt : Nat) : h.Repeats canRetry node out attempt ↔
    (retryable (h.forwardHttp attempt node out) && canRetry &&
      decide (attempt < h.maxRetries)) = true ∧ h.Granted (attempt + 1) := by
  simp only [Bool.and_eq_true, decide_eq_true_eq]
  constructor
  · rintro ⟨houtcome, hrequest, hleft, hgranted⟩
    exact ⟨⟨⟨houtcome, hrequest⟩, hleft⟩, hgranted⟩
  · rintro ⟨⟨⟨houtcome, hrequest⟩, hleft⟩, hgranted⟩
    exact ⟨houtcome, hrequest, hleft, hgranted⟩

instance (attempt : Nat) : Decidable (h.Repeats canRetry node out attempt) :=
  decidable_of_iff _ (h.repeats_iff canRetry node out attempt).symm

lemma exists_not_repeats : ∃ attempt, ¬ h.Repeats canRetry node out attempt :=
  ⟨h.maxRetries, fun hrepeats => absurd hrepeats.left (lt_irrefl _)⟩

def lastAttempt : Nat := Nat.find (h.exists_not_repeats canRetry node out)

lemma lastAttempt_eq_zero_iff :
    h.lastAttempt canRetry node out = 0 ↔ ¬ h.Repeats canRetry node out 0 :=
  find_eq_zero _

end

end HttpProtocolHandler

namespace Effect

def forwarded : Effect → Option (UpstreamNodeDto × OutRequest)
  | forwardHttp node out => some (node, out)
  | _ => none

def OfLoop : Effect → Prop
  | recordRequest | tryConsume _ | forwardHttp _ _ => True
  | _ => False

lemma OfLoop.neutral {w : Effect} (hw : w.OfLoop) : w.Neutral := by
  cases w with
  | recordRequest => exact neutral_recordRequest
  | tryConsume granted => exact neutral_tryConsume granted
  | forwardHttp node out => exact neutral_forwardHttp node out
  | _ => exact hw.elim

end Effect

namespace HttpProtocolHandler

variable (h : HttpProtocolHandler Net P)

lemma mayAttempt_spec {canRetry : Bool} {attempt : Nat} (hretry : attempt = 0 ∨ canRetry = true) :
    ∃ log, h.mayAttempt canRetry attempt =
        ⟨log, .ok (decide (attempt = 0 ∨ h.Granted attempt))⟩ ∧
      (∀ w ∈ log, w.OfLoop) ∧ log.filterMap forwarded = [] := by
  cases attempt with
  | zero =>
    cases hbudget : h.retryBudget with
    | none => exact ⟨[], by simp [mayAttempt, hbudget]; rfl, by simp, rfl⟩
    | some tryConsume =>
      exact ⟨[.recordRequest], by simp [mayAttempt, hbudget], by simp [Effect.OfLoop], rfl⟩
  | succ attempt =>
    obtain rfl : canRetry = true := by simpa using hretry
    cases hbudget : h.retryBudget with
    | none => exact ⟨[], by simp [mayAttempt, Granted, hbudget]; rfl, by simp, rfl⟩
    | some tryConsume =>
      exact ⟨[.tryConsume (tryConsume (attempt + 1))], by simp [mayAttempt, Granted, hbudget],
        by simp [Effect.OfLoop], rfl⟩

section

variable {canRetry : Bool} (node : UpstreamNodeDto) {out : OutRequest} {attempt : Nat}
  (last : Result ProxyResult)

lemma attempts_round (hbuild : h.http.buildRequest out.method out.uri = .ok ())
    (hretry : attempt = 0 ∨ canRetry = true) (hgo : attempt = 0 ∨ h.Granted attempt)
    (rounds : Nat) :
    ∃ log, (∀ w ∈ log, w.OfLoop) ∧ log.filterMap forwarded = [(node, out)] ∧
      h.attempts canRetry node out (rounds + 1) attempt last =
        if (retryable (h.forwardHttp attempt node out) && canRetry &&
            decide (attempt < h.maxRetries)) = true then
          let rest := h.attempts canRetry node out rounds (attempt + 1)
            (h.forwardHttp attempt node out)
          ⟨log ++ rest.effects, rest.result⟩
        else ⟨log, .ok (h.forwardHttp attempt node out)⟩ := by
  obtain ⟨log, hmay, hloop, hforwarded⟩ := h.mayAttempt_spec hretry
  refine ⟨log ++ [.forwardHttp node out], ?_, ?_, ?_⟩
  · rw [forall_mem_append, forall_mem_singleton]
    exact ⟨hloop, trivial⟩
  · rw [filterMap_append, hforwarded]
    rfl
  · rw [decide_eq_true hgo] at hmay
    rw [attempts, bind_of_ok (congrArg Logged.result hmay), hmay]
    simp only [Bool.not_true, Bool.false_eq_true, if_false, h.buildRequest_of_ok hbuild,
      pure_bind, emit_bind]
    split
    · rw [append_assoc]
      rfl
    · rfl

lemma attempts_of_not_granted (hgranted : ¬ h.Granted (attempt + 1)) (rounds : Nat) :
    ∃ log, (∀ w ∈ log, w.OfLoop) ∧ log.filterMap forwarded = [] ∧
      h.attempts true node out (rounds + 1) (attempt + 1) last = ⟨log, .ok last⟩ := by
  have hretry : attempt + 1 = 0 ∨ true = true := .inr rfl
  obtain ⟨log, hmay, hloop, hforwarded⟩ := h.mayAttempt_spec hretry
  refine ⟨log, hloop, hforwarded, ?_⟩
  rw [decide_eq_false (by simpa using hgranted)] at hmay
  rw [attempts, bind_of_ok (congrArg Logged.result hmay), hmay]
  simp

variable (canRetry) in
lemma attempts_from (hbuild : h.http.buildRequest out.method out.uri = .ok ())
    {rounds : Nat} (hrounds : attempt + rounds = h.maxRetries)
    (hretry : attempt = 0 ∨ canRetry = true) (hgo : attempt = 0 ∨ h.Granted attempt) :
    ∃ log k, h.attempts canRetry node out (rounds + 1) attempt last =
        ⟨log, .ok (h.forwardHttp (attempt + k) node out)⟩ ∧
      (∀ j < k, h.Repeats canRetry node out (attempt + j)) ∧
      ¬ h.Repeats canRetry node out (attempt + k) ∧ (∀ w ∈ log, w.OfLoop) ∧
      log.filterMap forwarded = List.replicate (k + 1) (node, out) := by
  induction rounds generalizing attempt last with
  | zero =>
    obtain ⟨log, hloop, hforwarded, hround⟩ := h.attempts_round node last hbuild hretry hgo 0
    have hlast : ¬ attempt < h.maxRetries := by omega
    rw [if_neg (by simp [hlast])] at hround
    exact ⟨log, 0, hround, by simp, fun hrepeats => hlast hrepeats.left, hloop, hforwarded⟩
  | succ rounds ih =>
    obtain ⟨log, hloop, hforwarded, hround⟩ :=
      h.attempts_round node last hbuild hretry hgo (rounds + 1)
    have hrepeats := h.repeats_iff canRetry node out attempt
    split at hround
    · next hagain =>
      obtain rfl : canRetry = true := by
        simp only [Bool.and_eq_true] at hagain
        exact hagain.1.2
      by_cases hgranted : h.Granted (attempt + 1)
      · obtain ⟨more, k, hrest, hbefore, hend, hmore, hforwarded'⟩ :=
          ih (h.forwardHttp attempt node out) (by omega) (.inr rfl) (.inr hgranted)
        rw [add_right_comm, add_assoc] at hend hrest
        refine ⟨log ++ more, k + 1, by rw [hround, hrest], ?_, hend, ?_, ?_⟩
        · rintro (_ | j) hj
          · exact hrepeats.mpr ⟨hagain, hgranted⟩
          · rw [← add_assoc, add_right_comm]
            exact hbefore j (by omega)
        · rw [forall_mem_append]
          exact ⟨hloop, hmore⟩
        · rw [filterMap_append, hforwarded, hforwarded']
          rfl
      · obtain ⟨more, hmore, hforwarded', hrest⟩ :=
          h.attempts_of_not_granted node (h.forwardHttp attempt node out) hgranted rounds
        refine ⟨log ++ more, 0, by rw [hround, hrest]; rfl, by simp, ?_, ?_, ?_⟩
        · exact fun hagain => hgranted hagain.granted
        · rw [forall_mem_append]
          exact ⟨hloop, hmore⟩
        · rw [filterMap_append, hforwarded, hforwarded']
          rfl
    · next hagain =>
      exact ⟨log, 0, hround, by simp, fun h => hagain (hrepeats.mp h).1, hloop, hforwarded⟩

lemma attempts_eq (canRetry : Bool) (out : OutRequest)
    (hbuild : h.http.buildRequest out.method out.uri = .ok ()) :
    ∃ log, h.attempts canRetry node out (h.maxRetries + 1) 0 last =
        ⟨log, .ok (h.forwardHttp (h.lastAttempt canRetry node out) node out)⟩ ∧
      (∀ w ∈ log, w.OfLoop) ∧
      log.filterMap forwarded =
        List.replicate (h.lastAttempt canRetry node out + 1) (node, out) := by
  obtain ⟨log, k, hloop, hbefore, hend, hlog, hforwarded⟩ :=
    h.attempts_from canRetry node last hbuild (zero_add h.maxRetries) (.inl rfl) (.inl rfl)
  have hk : h.lastAttempt canRetry node out = k := by
    rw [lastAttempt, find_eq_iff]
    refine ⟨by simpa using hend, fun j hj => ?_⟩
    rw [not_not]
    simpa using hbefore j hj
  rw [hk]
  exact ⟨log, by simpa using hloop, hlog, hforwarded⟩

end

/-! ### The outcome of forwarding -/

def bufferedOutcome (req : HttpRequest) (m : RequestMeta) (route : RouteSnapshot)
    (ctx : PluginContext) (node : UpstreamNodeDto) (uri : ParsedUri) :
    Result ProxyResult :=
  let out := h.outRequest req m ctx route node uri (some req.body)
  h.forwardHttp (h.lastAttempt (canRetry req route) node out) node out

def streamedOutcome (req : HttpRequest) (m : RequestMeta) (route : RouteSnapshot)
    (ctx : PluginContext) (node : UpstreamNodeDto) (uri : ParsedUri) :
    Result ProxyResult :=
  h.forwardHttpStream node (h.outRequest req m ctx route node uri none)

section

variable (env : ExchangeEnv) {req : HttpRequest} (m : RequestMeta) (ctx : PluginContext)
  (plugins : List P) (route : RouteSnapshot) {node : UpstreamNodeDto} {uri : ParsedUri}

section

variable (huri : buildUpstreamUri h.http node req.pathAndQuery = .ok uri)
  (hbuild : h.http.buildRequest req.method uri = .ok ())
include huri hbuild

lemma forwardBuffered_of_builds :
    h.forwardBuffered env req m ctx plugins route node =
      let out := h.outRequest req m ctx route node uri (some req.body)
      let loop := h.attempts (canRetry req route) node out (h.maxRetries + 1) 0
        (.error (.upstreamConnectFailed "no attempt"))
      let rest := h.settle env m ctx plugins route node
        (h.bufferedOutcome req m route ctx node uri) (·.body) req.body.length
      ⟨loop.effects ++ rest.effects, rest.result⟩ := by
  obtain ⟨log, hloop, -, -⟩ := h.attempts_eq node
    (.error (.upstreamConnectFailed "no attempt")) (canRetry req route)
    (h.outRequest req m ctx route node uri (some req.body)) hbuild
  simp only [forwardBuffered, huri, ofExcept_ok_bind, h.buildRequest_of_ok hbuild, pure_bind]
  rw [hloop, bind_of_ok rfl]
  rfl

lemma forwardBuffered_eq :
    ∃ log, (∀ w ∈ log, w.OfLoop) ∧
      log.filterMap forwarded = List.replicate (h.lastAttempt (canRetry req route) node
        (h.outRequest req m ctx route node uri (some req.body)) + 1)
        (node, h.outRequest req m ctx route node uri (some req.body)) ∧
      h.forwardBuffered env req m ctx plugins route node =
        let rest := h.settle env m ctx plugins route node
          (h.bufferedOutcome req m route ctx node uri) (·.body) req.body.length
        ⟨log ++ rest.effects, rest.result⟩ := by
  obtain ⟨log, hloop, hlog, hforwarded⟩ := h.attempts_eq node
    (.error (.upstreamConnectFailed "no attempt")) (canRetry req route)
    (h.outRequest req m ctx route node uri (some req.body)) hbuild
  refine ⟨log, hlog, hforwarded, ?_⟩
  simp only [h.forwardBuffered_of_builds env m ctx plugins route huri hbuild, hloop]

lemma forwardStreamed_eq :
    h.forwardStreamed env req m ctx plugins route node =
      let rest := h.settle env m ctx plugins route node
        (h.streamedOutcome req m route ctx node uri) (fun _ => []) 0
      ⟨[.forwardHttp node (h.outRequest req m ctx route node uri none)] ++ rest.effects,
        rest.result⟩ := by
  simp only [forwardStreamed, huri, ofExcept_ok_bind, h.buildRequest_of_ok hbuild, pure_bind,
    emit_bind]
  rfl

end

end

lemma finalizeResponse_always {Q : Effect → Prop} (hmetric : ∀ row, Q (.recordMetric row))
    (env : ExchangeEnv) (m : RequestMeta) (ctx : PluginContext) (plugins : List P)
    (route : RouteSnapshot) (status : Nat) (headers : HeaderMap) (respBody afterBody : List UInt8)
    (bytesIn : Nat) :
    Always Q (h.finalizeResponse env m ctx plugins route status headers respBody afterBody
      bytesIn) := by
  refine .bind (.ofExcept _) fun _ _ => .bind (.ofExcept _) fun after _ => ?_
  exact .bind (.emit (hmetric _)) fun _ _ => .pure

lemma settle_eq_ok_iff (env : ExchangeEnv) (m : RequestMeta) (ctx : PluginContext)
    (plugins : List P) (route : RouteSnapshot) (node : UpstreamNodeDto)
    (proxied : Result ProxyResult) (afterBody : ProxyResult → List UInt8)
    (bytesIn : Nat) (resp : HttpResponse) :
    (h.settle env m ctx plugins route node proxied afterBody bytesIn).result = .ok resp ↔
      ∃ r after, proxied = .ok r ∧ h.http.buildResponse r.status r.headers = .ok () ∧
        h.svc.executeAfterResponse ctx ⟨r.status, r.headers, afterBody r⟩ plugins = .ok after ∧
        resp = ⟨r.status, (after.2.headers.insertText "x-trace-id" m.traceId).insertText
          "x-request-id" m.requestId, .bytes r.body⟩ := by
  cases proxied with
  | error e =>
    constructor
    · intro hres
      cases hres
    · rintro ⟨r, after, hr, -⟩
      cases hr
  | ok r =>
    have hsettle : (h.settle env m ctx plugins route node (.ok r) afterBody bytesIn).result =
        (h.finalizeResponse env m ctx plugins route r.status r.headers r.body (afterBody r)
          bytesIn).result := rfl
    rw [hsettle, finalizeResponse]
    constructor
    · intro hres
      cases hbuild : h.http.buildResponse r.status r.headers with
      | error e =>
        rw [hbuild] at hres
        cases hres
      | ok u =>
        cases hafter : h.svc.executeAfterResponse ctx ⟨r.status, r.headers, afterBody r⟩
            plugins with
        | error e =>
          rw [hbuild, hafter] at hres
          cases hres
        | ok after =>
          rw [hbuild, hafter] at hres
          exact ⟨r, after, rfl, hbuild, hafter, (Except.ok.inj hres).symm⟩
    · rintro ⟨r', after, hr, hbuild, hafter, rfl⟩
      obtain rfl := Except.ok.inj hr
      rw [hbuild, hafter]
      rfl

/-! ### What is forwarded -/

section

variable (env : ExchangeEnv) {req : HttpRequest} {m : RequestMeta}
  {pluginBody : Option (List UInt8)} {route : RouteSnapshot} {ctx ctx' : PluginContext}
  {node node' : UpstreamNodeDto}
  {uri uri' : ParsedUri}

lemma Reaches.unique (hreach : h.Reaches req m pluginBody route ctx node uri)
    (hreach' : h.Reaches req m pluginBody route ctx' node' uri') :
    ctx = ctx' ∧ node = node' ∧ uri = uri' := by
  have hctx := Except.ok.inj (hreach.plugins.symm.trans hreach'.plugins)
  have hnode := Except.ok.inj (hreach.balancer.symm.trans hreach'.balancer)
  subst hnode
  exact ⟨(Prod.mk.inj hctx).2, rfl, Except.ok.inj (hreach.parses.symm.trans hreach'.parses)⟩

lemma settle_always {Q : Effect → Prop} (hresult : ∀ ok, Q (.recordResult route.id node.id ok))
    (hrelease : Q (.releaseNode route.id node)) (hmetric : ∀ row, Q (.recordMetric row))
    (hevent : ∀ e, Always Q (recordUpstreamFailedEvent env route node m e)) (plugins : List P)
    (proxied : Result ProxyResult) (afterBody : ProxyResult → List UInt8)
    (bytesIn : Nat) :
    Always Q (h.settle env m ctx plugins route node proxied afterBody bytesIn) := by
  refine .bind (.bind (.emit (hresult _)) fun _ _ => .emit hrelease) fun _ _ => ?_
  cases proxied with
  | error e =>
    refine .bind (.emit (hmetric _)) fun _ _ => .bind (hevent e) fun _ _ => ?_
    simp [Always]
  | ok r => exact h.finalizeResponse_always hmetric env m ctx plugins route _ _ _ _ _

lemma forwarded_settle (plugins : List P) (proxied : Result ProxyResult)
    (afterBody : ProxyResult → List UInt8) (bytesIn : Nat) :
    (h.settle env m ctx plugins route node proxied afterBody bytesIn).effects.filterMap
      forwarded = [] :=
  filterMap_eq_nil_iff.mpr (h.settle_always (Q := (·.forwarded = none)) env (fun _ => rfl) rfl
    (fun _ => rfl) (fun _ => .emit rfl) plugins proxied afterBody bytesIn)

lemma forwarded_forwardBuffered (hreach : h.Reaches req m (some req.body) route ctx node uri)
    (plugins : List P) :
    (h.forwardBuffered env req m ctx plugins route node).effects.filterMap forwarded =
      List.replicate (h.lastAttempt (canRetry req route) node
        (h.outRequest req m ctx route node uri (some req.body)) + 1)
        (node, h.outRequest req m ctx route node uri (some req.body)) := by
  obtain ⟨log, -, hforwarded, heq⟩ := h.forwardBuffered_eq env m ctx plugins route hreach.parses
    hreach.builds
  rw [heq, filterMap_append, hforwarded, h.forwarded_settle, append_nil]

lemma forwarded_forwardStreamed (hreach : h.Reaches req m none route ctx node uri)
    (plugins : List P) :
    (h.forwardStreamed env req m ctx plugins route node).effects.filterMap forwarded =
      [(node, h.outRequest req m ctx route node uri none)] := by
  rw [h.forwardStreamed_eq env m ctx plugins route hreach.parses hreach.builds,
    filterMap_append, h.forwarded_settle]
  rfl

variable {forward : PluginContext → List P → RouteSnapshot → UpstreamNodeDto →
  Handler HttpResponse}

variable (forward) in
lemma conduct_of_reaches (hwelcome : h.svc.isBlocked m.realIp = false)
    (hreach : h.Reaches req m pluginBody route ctx node uri) :
    h.conduct env req m pluginBody (.ok route) forward =
      let rest := forward ctx (h.svc.routePlugins route.id) route node
      ⟨.selected route.id node :: .admitted route.id node.id :: rest.effects, rest.result⟩ := by
  simp only [conduct, hwelcome, ofExcept_ok_bind]
  rw [preflight_of_admitted env hreach.toPasses hreach.breaker hreach.plain]
  rfl

lemma forwarded_conduct_of_reaches (hwelcome : h.svc.isBlocked m.realIp = false)
    (hreach : h.Reaches req m pluginBody route ctx node uri) :
    (h.conduct env req m pluginBody (.ok route) forward).effects.filterMap forwarded =
      (forward ctx (h.svc.routePlugins route.id) route node).effects.filterMap
        forwarded := by
  rw [h.conduct_of_reaches env forward hwelcome hreach]
  rfl

lemma forwarded_conduct_of_not_reaches
    (hno : h.svc.isBlocked m.realIp = false → ∀ ctx node uri,
      ¬ h.Reaches req m pluginBody route ctx node uri)
    (hdropped : ∀ ctx node, ¬ h.CanForward req node →
      (forward ctx (h.svc.routePlugins route.id) route node).effects = []) :
    (h.conduct env req m pluginBody (.ok route) forward).effects.filterMap forwarded =
      [] := by
  cases hblocked : h.svc.isBlocked m.realIp with
  | true =>
    simp only [conduct, hblocked, if_true]
    rfl
  | false =>
    have hcourse := h.preflight_course env m req.method req.headers pluginBody route
    simp only [conduct, hblocked, ofExcept_ok_bind]
    generalize h.preflight env m req.method req.headers pluginBody route = pre at hcourse ⊢
    cases hcourse with
    | pluginFailed e hplugins => rfl
    | terminated code body ctx hplugins => rfl
    | limited ctx e hplugins hlimits => rfl
    | noNode e hnode => rfl
    | refused ctx node e hpass hbreaker => rfl
    | upgraded ctx node hpass hbreaker hupgrade => rfl
    | admitted ctx node hpass hbreaker hplain =>
      have hcan : ¬ h.CanForward req node := by
        rintro ⟨uri, hparses, hbuilds⟩
        exact hno hblocked ctx node uri ⟨hpass, hbreaker, hplain, hparses, hbuilds⟩
      have hnone := hdropped ctx node hcan
      rw [bind_of_ok rfl]
      simp [dispatch, hnone, forwarded]

variable (req m pluginBody route forward) in
lemma forwarded_conduct
    (hdropped : ∀ ctx node, ¬ h.CanForward req node →
      (forward ctx (h.svc.routePlugins route.id) route node).effects = []) :
    (∃ ctx node uri, h.svc.isBlocked m.realIp = false ∧
      h.Reaches req m pluginBody route ctx node uri ∧
      (h.conduct env req m pluginBody (.ok route) forward).effects.filterMap forwarded =
        (forward ctx (h.svc.routePlugins route.id) route node).effects.filterMap
          forwarded) ∨
    ((h.svc.isBlocked m.realIp = false → ∀ ctx node uri,
        ¬ h.Reaches req m pluginBody route ctx node uri) ∧
      (h.conduct env req m pluginBody (.ok route) forward).effects.filterMap forwarded =
        []) := by
  by_cases hno : h.svc.isBlocked m.realIp = false → ∀ ctx node uri,
      ¬ h.Reaches req m pluginBody route ctx node uri
  · exact .inr ⟨hno, h.forwarded_conduct_of_not_reaches env hno hdropped⟩
  · push Not at hno
    obtain ⟨hwelcome, ctx, node, uri, hreach⟩ := hno
    exact .inl ⟨ctx, node, uri, hwelcome, hreach,
      h.forwarded_conduct_of_reaches env hwelcome hreach⟩

end

end HttpProtocolHandler

/-! ### A handler that lets everything pass -/

/-- What the examples of later modules select, match, send and draw. -/
def openNode : UpstreamNodeDto := ⟨4, 2, "10.0.0.9:80", 1, true⟩

def openRoute (retryEnabled : Bool) : RouteSnapshot :=
  ⟨1, .http, some 2, none, false, false, [], retryEnabled⟩

def getRequest (path : String) (headers : HeaderMap) : HttpRequest :=
  ⟨"GET", ⟨path, none⟩, some path, headers, []⟩

def HttpRequest.matchInfo (req : HttpRequest) : RouteMatchInfo :=
  .fromHttpRequest req.method req.uri req.headers true

def openEnv : ExchangeEnv := ⟨"r", "t", 0, 0, 0⟩

def openServices (selected : Result UpstreamNodeDto) : ServiceContext Unit where
  lookupRoute _ _ := .ok none
  selectUpstream _ _ := selected
  checkRateLimit _ _ := .ok ()
  checkCircuitBreaker _ _ := .ok ()
  routePlugins _ := []
  executeBeforeRequest ctx _ := .ok (.continue_, ctx)
  executeAfterResponse ctx resp _ := .ok (ctx, resp)
  executeOnConnect ctx _ := .ok (.continue_, ctx)
  isBlocked _ := false
  gateId := "gate"

def openHandler (selected : Result UpstreamNodeDto)
    (answer : Result ProxyResult) : HttpProtocolHandler IpNet Unit where
  svc := openServices selected
  net := ipNetCrate
  http := ⟨fun s => .ok ⟨s, none, none⟩, fun _ _ => .ok (), fun _ _ => .ok (), toString⟩
  acceptKey := id
  trustedProxies := []
  maxRetries := 2
  retryBudget := none
  forwardHttp _ _ _ := answer
  forwardHttpStream _ _ := answer

end Conrogate
