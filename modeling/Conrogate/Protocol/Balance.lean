import Conrogate.Protocol.Course

/-!
# The books of a request

Which requests return what they take: the node to the balancer, and a result for every admission
to the breaker.
-/

namespace Conrogate

open Logged

variable {Net P : Type}

namespace HttpProtocolHandler

variable (h : HttpProtocolHandler Net P) (env : ExchangeEnv) {node : UpstreamNodeDto}

lemma settle_returns (m : RequestMeta) (ctx : PluginContext) (plugins : List P)
    (route : RouteSnapshot) (node : UpstreamNodeDto)
    (proxied : Result ProxyResult) (afterBody : ProxyResult → List UInt8)
    (bytesIn : Nat) :
    Returns route.id node
      (h.settle env m ctx plugins route node proxied afterBody bytesIn).effects := by
  cases proxied with
  | error e => exact ⟨[], false, [_, _], by simp, by simp, rfl⟩
  | ok r =>
    have hfinal := h.finalizeResponse_always Effect.neutral_recordMetric env m ctx plugins route
      r.status r.headers r.body (afterBody r) bytesIn
    exact ⟨[], true, _, by simp, hfinal, rfl⟩

section

variable {req : HttpRequest} (hcan : h.CanForward req node) (m : RequestMeta) (ctx : PluginContext)
  (plugins : List P) (route : RouteSnapshot)
include hcan

lemma forwardBuffered_returns :
    Returns route.id node (h.forwardBuffered env req m ctx plugins route node).effects := by
  obtain ⟨uri, huri, hbuild⟩ := hcan
  obtain ⟨log, hlog, -, heq⟩ := h.forwardBuffered_eq env m ctx plugins route huri hbuild
  rw [heq]
  exact (h.settle_returns env m ctx plugins route node _ _ _).append log fun w hw =>
    (hlog w hw).neutral

lemma forwardStreamed_returns :
    Returns route.id node (h.forwardStreamed env req m ctx plugins route node).effects := by
  obtain ⟨uri, huri, hbuild⟩ := hcan
  rw [h.forwardStreamed_eq env m ctx plugins route huri hbuild]
  exact (h.settle_returns env m ctx plugins route node _ _ _).append [_] (by simp)

end

section

variable {forward : PluginContext → List P → RouteSnapshot → UpstreamNodeDto → Handler HttpResponse}
  (req : HttpRequest) (m : RequestMeta) (pluginBody : Option (List UInt8))

lemma balanced_dispatch_iff (route : RouteSnapshot)
    (hreturns : ∀ node ctx plugins, h.CanForward req node →
      Returns route.id node (forward ctx plugins route node).effects)
    (hdropped : ∀ node ctx plugins, ¬ h.CanForward req node →
      (forward ctx plugins route node).effects = []) :
    Balanced (h.preflight env m req.method req.headers pluginBody route >>=
        h.dispatch env m forward).effects ↔
      ∀ node, h.Selects m req.method req.headers pluginBody route node →
        h.Forwards req route node := by
  have hcourse := h.preflight_course env m req.method req.headers pluginBody route
  generalize h.preflight env m req.method req.headers pluginBody route = pre at hcourse ⊢
  cases hcourse with
  | pluginFailed e hplugins =>
    rw [bind_of_error rfl]
    refine iff_of_true (balanced_of_neutral (by simp)) ?_
    rintro node ⟨ctx, hctx, -, -⟩
    cases hplugins.symm.trans hctx
  | terminated code body ctx hplugins =>
    rw [bind_of_ok rfl]
    refine iff_of_true (balanced_of_neutral (by simp [dispatch])) ?_
    rintro node ⟨ctx', hctx, -, -⟩
    cases hplugins.symm.trans hctx
  | limited ctx e hplugins hlimits =>
    rw [bind_of_error rfl]
    refine iff_of_true (balanced_of_neutral (by simp [recordTerminalMetric])) ?_
    rintro node ⟨_, -, hok, -⟩
    cases hlimits.symm.trans hok
  | noNode e hnode =>
    rw [bind_of_error rfl]
    refine iff_of_true (balanced_of_neutral (by simp)) ?_
    rintro node ⟨_, -, -, hok⟩
    cases hnode.symm.trans hok
  | refused ctx node e hpass hbreaker =>
    rw [bind_of_error rfl]
    refine iff_of_false (not_balanced_of_refused route.id node ?_) ?_
    · simp [recordTerminalMetric]
    · intro hall
      cases hbreaker.symm.trans (hall node ⟨ctx, hpass⟩).breaker
  | upgraded ctx node hpass hbreaker hupgrade =>
    rw [bind_of_ok rfl]
    refine iff_of_false (not_balanced_of_admitted route.id node ?_) ?_
    · simp [dispatch, recordWsMetric]
    · intro hall
      cases hupgrade.symm.trans (hall node ⟨ctx, hpass⟩).plain
  | admitted ctx node hpass hbreaker hupgrade =>
    rw [bind_of_ok rfl]
    simp only [dispatch]
    by_cases hcan : h.CanForward req node
    · refine iff_of_true (balanced_of_returns route.id node (hreturns node ctx _ hcan)) ?_
      rintro other ⟨_, hother⟩
      -- the balancer has one answer
      obtain rfl : node = other := Except.ok.inj (hpass.balancer.symm.trans hother.balancer)
      exact ⟨hbreaker, hupgrade, hcan⟩
    · rw [hdropped node ctx _ hcan]
      refine iff_of_false (not_balanced_of_admitted route.id node (by simp)) ?_
      intro hall
      exact hcan (hall node ⟨ctx, hpass⟩).buildable

lemma balanced_conduct_iff (found : Result RouteSnapshot)
    (hreturns : ∀ route node ctx plugins, h.CanForward req node →
      Returns route.id node (forward ctx plugins route node).effects)
    (hdropped : ∀ route node ctx plugins, ¬ h.CanForward req node →
      (forward ctx plugins route node).effects = []) :
    Balanced (h.conduct env req m pluginBody found forward).effects ↔
      ∀ route node, h.svc.isBlocked m.realIp = false → found = .ok route →
        h.Selects m req.method req.headers pluginBody route node →
        h.Forwards req route node := by
  cases hblocked : h.svc.isBlocked m.realIp with
  | true =>
    simp only [conduct, hblocked, if_true]
    exact iff_of_true (balanced_of_neutral (by simp)) fun _ _ h => by cases h
  | false =>
    cases found with
    | error e =>
      simp only [conduct, hblocked, ofExcept_error_bind]
      exact iff_of_true (balanced_of_neutral (by simp)) fun _ _ _ h => by cases h
    | ok route =>
      have hconduct : h.conduct env req m pluginBody (.ok route) forward =
          h.preflight env m req.method req.headers pluginBody route >>=
            h.dispatch env m forward := by
        simp [conduct, hblocked]
      rw [hconduct, h.balanced_dispatch_iff env req m pluginBody route (hreturns route)
        (hdropped route)]
      constructor
      · rintro hall route' node - hroute hsel
        obtain rfl : route = route' := Except.ok.inj hroute
        exact hall node hsel
      · exact fun hall node hsel => hall route node rfl rfl hsel

end

end HttpProtocolHandler

end Conrogate
