import Conrogate.Protocol.Course

/-!
# The plugin pipeline

`PluginPipelineImpl` runs the hooks of a chain one after the other, each on the context that the one
before it left. The first hook that does not let a request continue ends the loop.
-/

namespace Conrogate

open Logged HttpProtocolHandler

/-- A plugin, as far as the pipeline uses it before a request. -/
structure Plugin where
  protocols : List ProtocolId
  beforeRequest : PluginContext → Result (PluginOutcome × PluginContext)

namespace PluginPipelineImpl

def executeBeforeRequest (ctx : PluginContext) :
    List Plugin → Result (PluginOutcome × PluginContext)
  | [] => .ok (.continue_, ctx)
  | plugin :: plugins =>
    if ctx.protocol ∈ plugin.protocols then
      match plugin.beforeRequest ctx with
      | .ok (.continue_, ctx) => executeBeforeRequest ctx plugins
      | stopped => stopped
    else executeBeforeRequest ctx plugins

/-- Each plugin for the protocol at hand has let the request continue, on what those before it made
of the context. -/
inductive Passed : PluginContext → List Plugin → PluginContext → Prop
  | nil (ctx) : Passed ctx [] ctx
  | skipped {ctx last plugin plugins} (hprotocol : ctx.protocol ∉ plugin.protocols)
      (hrest : Passed ctx plugins last) : Passed ctx (plugin :: plugins) last
  | continued {ctx next last plugin plugins} (hprotocol : ctx.protocol ∈ plugin.protocols)
      (hhook : plugin.beforeRequest ctx = .ok (.continue_, next))
      (hrest : Passed next plugins last) : Passed ctx (plugin :: plugins) last

lemma passed_of_continue {ctx last : PluginContext} {plugins : List Plugin}
    (h : executeBeforeRequest ctx plugins = .ok (.continue_, last)) : Passed ctx plugins last := by
  induction plugins generalizing ctx with
  | nil =>
    cases h
    exact .nil last
  | cons plugin plugins ih =>
    rw [executeBeforeRequest] at h
    split_ifs at h with hprotocol
    · split at h
      · next hhook => exact .continued hprotocol hhook (ih h)
      · next hstopped => exact absurd h (hstopped last)
    · exact .skipped hprotocol (ih h)

end PluginPipelineImpl

open PluginPipelineImpl

variable {Net : Type} (h : HttpProtocolHandler Net Plugin) (env : ExchangeEnv) (req : HttpRequest)

lemma conduct_passed (hpipeline : h.svc.executeBeforeRequest = executeBeforeRequest)
    (m : RequestMeta) (body : Option (List UInt8)) (found : Result RouteSnapshot)
    (forward : PluginContext → List Plugin → RouteSnapshot → UpstreamNodeDto →
      Handler HttpResponse) :
    (h.conduct env req m body found forward).effects = [] ∨
      h.svc.isBlocked m.realIp = false ∧ ∃ route ctx, found = .ok route ∧
        Passed (pluginContext m req.method req.headers body route)
          (h.svc.routePlugins route.id) ctx := by
  rw [conduct]
  split_ifs with hblocked
  · exact .inl rfl
  cases found with
  | error e => exact .inl rfl
  | ok route =>
    have hwelcome : h.svc.isBlocked m.realIp = false := by simpa using hblocked
    have hcourse := h.preflight_course env m req.method req.headers body route
    rw [ofExcept_ok_bind]
    generalize h.preflight env m req.method req.headers body route = pre at hcourse ⊢
    cases hcourse with
    | pluginFailed | terminated | noNode => exact .inl rfl
    | limited ctx _ hplugins =>
      exact .inr ⟨hwelcome, route, ctx, rfl, passed_of_continue (hpipeline ▸ hplugins)⟩
    | refused ctx _ _ hpass | upgraded ctx _ hpass | admitted ctx _ hpass =>
      exact .inr ⟨hwelcome, route, ctx, rfl, passed_of_continue (hpipeline ▸ hpass.plugins)⟩

/-- Until all plugins of its route have let it pass, nothing is done for a request: no node is
selected, nothing is forwarded and nothing recorded. The same holds for a client that is blocked. -/
theorem plugins_guard (clientIp : String) (info : RouteMatchInfo)
    (preMatched : Option RouteSnapshot) (route : RouteSnapshot) :
    let h := { h with svc.executeBeforeRequest := executeBeforeRequest }
    let m := h.buildRequestMeta env info req.headers clientIp
    let asked := pluginContext m req.method req.headers
    ((h.handle env req clientIp info preMatched).effects = [] ∨
      h.svc.isBlocked m.realIp = false ∧ ∃ route ctx, h.routeOf m preMatched = .ok route ∧
        Passed (asked (some req.body) route) (h.svc.routePlugins route.id) ctx) ∧
    ((h.handleStream env req route clientIp info).effects = [] ∨
      h.svc.isBlocked m.realIp = false ∧
        ∃ ctx, Passed (asked none route) (h.svc.routePlugins route.id) ctx) := by
  intro h m asked
  refine ⟨conduct_passed h env req rfl _ _ _ _, ?_⟩
  refine (conduct_passed h env req rfl _ _ _ _).imp_right ?_
  rintro ⟨hwelcome, found, ctx, hfound, hpassed⟩
  cases hfound
  exact ⟨hwelcome, ctx, hpassed⟩

end Conrogate
