import Conrogate.Core.Dto
import Conrogate.Core.Error

/-!
# The plugin framework

`configured` makes an instance of a registered plugin for each binding. The chains of all routes are
built together and replaced as a whole.
-/

namespace Conrogate

open List

structure HttpContext where
  method : String
  path : String
  query : String → Option String
  headers : HeaderMap
  body : Option (List UInt8)

structure TunnelContext where
  remoteAddr : String
  sni : Option String
  alpn : Option String
  listenPort : Nat

structure PluginContext where
  requestId : String
  traceId : String
  routeId : Nat
  clientIp : String
  protocol : ProtocolId
  http : Option HttpContext
  tunnel : Option TunnelContext
  responseHeaders : HeaderMap

/-- A request in a context that is otherwise of no interest. -/
def PluginContext.of (clientIp : String) (http : Option HttpContext) : PluginContext :=
  ⟨"r", "t", 1, clientIp, .http, http, none, []⟩

structure PluginResponse where
  status : Nat
  headers : HeaderMap
  body : List UInt8

inductive PluginOutcome where
  | continue_
  | terminate (status : Nat) (body : Json)

def errorBodyWithTrace (traceId : String) (code : Int) (msg : String) : Json :=
  .obj [("code", .num code), ("msg", .str msg), ("data", .null), ("trace_id", .str traceId)]

/-- What the registry keeps under a name; `P` is the type of its instances. -/
structure PluginTemplate (P : Type) where
  requiresBody : Bool
  validateConfig : Json → Result Unit
  configured : Json → Result P

abbrev PluginRegistry (P : Type) := String → Option (PluginTemplate P)

/-- The map of chains behind the lock of `PluginPipelineImpl`. -/
abbrev RouteChains (P : Type) := Nat → Option (List P)

variable {P : Type}

def RouteChains.getRouteChain (chains : RouteChains P) (routeId : Nat) : List P :=
  (chains routeId).getD []

def sortedBindings (bindings : List PluginBindingDto) : List PluginBindingDto :=
  (bindings.filter (·.enabled)).insertionSort fun a b => a.order ≤ b.order

def buildStep (registry : PluginRegistry P) (chains : RouteChains P)
    (binding : PluginBindingDto) : Result (RouteChains P) :=
  match registry binding.pluginName with
  | none => .ok chains
  | some template => do
    let inst ← template.configured binding.config
    .ok (Function.update chains binding.routeId
      (some ((chains binding.routeId).getD [] ++ [inst])))

def buildChains (registry : PluginRegistry P) (bindings : List PluginBindingDto) :
    Result (RouteChains P) :=
  (sortedBindings bindings).foldlM (buildStep registry) fun _ => none

def bindingInstance (registry : PluginRegistry P) (binding : PluginBindingDto) : Option P :=
  (registry binding.pluginName).bind fun template =>
    (template.configured binding.config).toOption

def chainOf (registry : PluginRegistry P) (bindings : List PluginBindingDto) (routeId : Nat) :
    List P :=
  ((sortedBindings bindings).filter fun b => b.routeId == routeId).filterMap
    (bindingInstance registry)

def Buildable (registry : PluginRegistry P) (binding : PluginBindingDto) : Prop :=
  ∀ template, registry binding.pluginName = some template →
    ∃ inst, template.configured binding.config = .ok inst

lemma mem_sortedBindings {bindings : List PluginBindingDto} {b : PluginBindingDto} :
    b ∈ sortedBindings bindings ↔ b ∈ bindings ∧ b.enabled = true := by
  rw [sortedBindings, mem_insertionSort, mem_filter]

lemma buildStep_isOk_iff (registry : PluginRegistry P) (chains : RouteChains P)
    (binding : PluginBindingDto) :
    (∃ chains', buildStep registry chains binding = .ok chains') ↔ Buildable registry binding := by
  rw [buildStep, Buildable]
  cases registry binding.pluginName with
  | none => simp
  | some template =>
    cases hc : template.configured binding.config with
    | ok inst => simp [hc, bind, Except.bind]
    | error e => simp [hc, bind, Except.bind]

variable {registry : PluginRegistry P} {chains : RouteChains P} {chains' : RouteChains P}

lemma getRouteChain_buildStep {binding : PluginBindingDto}
    (h : buildStep registry chains binding = .ok chains') (routeId : Nat) :
    chains'.getRouteChain routeId = chains.getRouteChain routeId ++
      (if binding.routeId == routeId then (bindingInstance registry binding).toList else []) := by
  rw [buildStep] at h
  simp only [RouteChains.getRouteChain, bindingInstance]
  cases hreg : registry binding.pluginName with
  | none =>
    rw [hreg] at h
    cases h
    simp
  | some template =>
    rw [hreg] at h
    cases hc : template.configured binding.config with
    | error e =>
      simp only [hc, bind, Except.bind] at h
      cases h
    | ok inst =>
      simp only [hc, bind, Except.bind] at h
      cases h
      by_cases hid : binding.routeId = routeId
      · subst hid
        simp [hc, Except.toOption]
      · simp [hid, Function.update_of_ne (Ne.symm hid)]

lemma foldlM_buildStep_isOk_iff (registry : PluginRegistry P) (bs : List PluginBindingDto)
    (chains : RouteChains P) :
    (∃ chains', bs.foldlM (buildStep registry) chains = .ok chains') ↔
      ∀ b ∈ bs, Buildable registry b := by
  induction bs generalizing chains with
  | nil => simp [pure, Except.pure]
  | cons b bs ih =>
    rw [forall_mem_cons, ← buildStep_isOk_iff registry chains b, foldlM_cons]
    cases hstep : buildStep registry chains b with
    | error e => simp [bind, Except.bind]
    | ok chains' => simpa [bind, Except.bind] using ih chains'

lemma getRouteChain_foldlM_buildStep (bs : List PluginBindingDto)
    (h : bs.foldlM (buildStep registry) chains = .ok chains') (routeId : Nat) :
    chains'.getRouteChain routeId = chains.getRouteChain routeId ++
      (bs.filter fun b => b.routeId == routeId).filterMap (bindingInstance registry) := by
  induction bs generalizing chains with
  | nil =>
    cases h
    simp
  | cons b bs ih =>
    rw [foldlM_cons] at h
    cases hstep : buildStep registry chains b with
    | error e =>
      simp only [hstep, bind, Except.bind] at h
      cases h
    | ok mid =>
      simp only [hstep, bind, Except.bind] at h
      rw [ih h, getRouteChain_buildStep hstep, append_assoc, filter_cons]
      congr 1
      by_cases hid : (b.routeId == routeId) = true
      · simp only [hid, if_true, filterMap_cons]
        cases bindingInstance registry b <;> simp
      · simp [hid]

theorem buildChains_isOk_iff (registry : PluginRegistry P) (bindings : List PluginBindingDto) :
    (∃ chains, buildChains registry bindings = .ok chains) ↔
      ∀ b ∈ bindings, b.enabled = true → Buildable registry b := by
  rw [buildChains, foldlM_buildStep_isOk_iff]
  constructor
  · intro h b hb he
    exact h b (mem_sortedBindings.mpr ⟨hb, he⟩)
  · intro h b hb
    obtain ⟨hmem, he⟩ := mem_sortedBindings.mp hb
    exact h b hmem he

theorem getRouteChain_buildChains {bindings : List PluginBindingDto}
    (h : buildChains registry bindings = .ok chains) (routeId : Nat) :
    chains.getRouteChain routeId = chainOf registry bindings routeId := by
  rw [getRouteChain_foldlM_buildStep _ h routeId]
  rfl

end Conrogate
