import Conrogate.Gateway.Route
import Conrogate.Lib.Transition
import Conrogate.Plugins.Framework

/-!
# Startup, hot reload and requests

The tables are replaced one after the other, each in one atomic step, while requests match a route
in one step and fetch its chain in a later one. A data plane starts in one of three ways.
-/

namespace Conrogate

open List Transition

/-- What a start or a reload has read. -/
structure LoadedConfig where
  routes : List RouteDto
  upstreams : List UpstreamDto
  bindings : List PluginBindingDto

inductive ReloadSource where
  | cacheOrDb
  | http
deriving DecidableEq, Repr

/-- What the task that loads configurations replaces next. -/
inductive LoaderStage (P : Type) where
  | notStarted
  | idle
  | setChains (config : LoadedConfig) (chains : RouteChains P)
  | loadRoutes (config : LoadedConfig)
  | loadUpstreams (config : LoadedConfig)

/-- How far a request has come. -/
inductive RequestStage (P : Type) where
  | fresh
  | unmatched
  | matched (route : RouteSnapshot)
  | running (route : RouteSnapshot) (chain : List P)

/-- The tables of a data plane, with all configurations that it has begun to load. -/
structure DataPlane (Re P : Type) where
  chains : RouteChains P
  table : RouteTable Re
  upstreams : List UpstreamDto
  loader : LoaderStage P
  requests : Nat → RequestStage P
  loads : List LoadedConfig

open DataPlane

structure GatewayEnv (Re P : Type) where
  rx : RegexCrate Re
  registry : PluginRegistry P

variable {Re P : Type}

def GatewayEnv.bodyRequired (env : GatewayEnv Re P) (name : String) : Bool :=
  (env.registry name).any (·.requiresBody)

def DataPlane.init : DataPlane Re P where
  chains := fun _ => none
  table := RouteTable.empty
  upstreams := []
  loader := .notStarted
  requests := fun _ => .fresh
  loads := []

/-- The chains that a gate starts with: none at all if one cannot be built. -/
def LoadedConfig.chains (env : GatewayEnv Re P) (config : LoadedConfig) : RouteChains P :=
  match buildChains env.registry config.bindings with
  | .ok chains => chains
  | .error _   => fun _ => none

def LoadedConfig.table (env : GatewayEnv Re P) (config : LoadedConfig) : RouteTable Re :=
  loadWithBindings env.rx config.routes config.bindings env.bodyRequired

/-- Starts, reloads and requests, in any order. -/
inductive GatewayEvent where
  | startMerged (config : LoadedConfig)
  | startGate (config : LoadedConfig)
  | startHttp
  | reloadRead (source : ReloadSource) (config : Option LoadedConfig)
  | loaderStep
  | matchRoute (request : Nat) (protocol : ProtocolId) (info : RouteMatchInfo)
  | routePlugins (request : Nat)

def DataPlane.beginReload (env : GatewayEnv Re P) (s : DataPlane Re P) (source : ReloadSource)
    (config : LoadedConfig) : DataPlane Re P :=
  match buildChains env.registry config.bindings with
  | .ok chains => { s with loader := .setChains config chains }
  | .error _   => match source with
    | .cacheOrDb => s
    -- `reload_upstreams` follows `reload_routes_with_bindings` whatever that did
    | .http => { s with loader := .loadUpstreams config }

def DataPlane.replaceNext (env : GatewayEnv Re P) (s : DataPlane Re P) : Option (DataPlane Re P) :=
  match s.loader with
  | .notStarted | .idle => none
  | .setChains config chains => some
    { s with chains := chains, loads := s.loads ++ [config], loader := .loadRoutes config }
  | .loadRoutes config => some
    { s with table := config.table env, loader := .loadUpstreams config }
  | .loadUpstreams config => some { s with upstreams := config.upstreams, loader := .idle }

/-- One atomic step of the loader or of a request. The merged start does not set any chain. -/
def gatewayStep (env : GatewayEnv Re P) (s : DataPlane Re P) :
    GatewayEvent → Option (DataPlane Re P)
  | .startMerged config => match s.loader with
    | .notStarted => some
      { s with
        upstreams := config.upstreams
        table := config.table env
        loads := s.loads ++ [config]
        loader := .idle }
    | _ => none
  | .startGate config => match s.loader with
    | .notStarted => some
      { s with
        chains := config.chains env
        loads := s.loads ++ [config]
        loader := .loadRoutes config }
    | _ => none
  | .startHttp => match s.loader with
    | .notStarted => some { s with loader := .idle }
    | _ => none
  | .reloadRead source config => match s.loader with
    | .idle => some (config.elim s (s.beginReload env source))
    | _ => none
  | .loaderStep => s.replaceNext env
  | .matchRoute request protocol info => match s.requests request with
    | .fresh => some
      { s with
        requests := Function.update s.requests request
          (match s.table.matchRoute env.rx protocol info with
          | some route => .matched route
          | none => .unmatched) }
    | _ => none
  | .routePlugins request => match s.requests request with
    | .matched route => some
      { s with
        requests := Function.update s.requests request
          (.running route (s.chains.getRouteChain route.id)) }
    | _ => none

/-! ### Chains and entries of one load -/

/-- The configuration contains the entry. -/
def LoadedConfig.Serves (env : GatewayEnv Re P) (config : LoadedConfig) (route : RouteSnapshot) :
    Prop :=
  ∃ protocol info, (config.table env).matchRoute env.rx protocol info = some route

/-- The chain is the one that is built for the entry from a configuration that contains it. -/
def OwnChain (env : GatewayEnv Re P) (loads : List LoadedConfig) (route : RouteSnapshot)
    (chain : List P) : Prop :=
  ∃ load ∈ loads, load.Serves env route ∧
    (∃ chains, buildChains env.registry load.bindings = .ok chains) ∧
    chain = chainOf env.registry load.bindings route.id

/-- Steps that do not mix two configurations. A merged start has no plugin to run, a gate's start
builds its chains, no chain is replaced under a request that is about to read another one, and no
request is matched between the replacement of the chains and that of the routes. -/
def Orderly (env : GatewayEnv Re P) (s : DataPlane Re P) : GatewayEvent → Prop
  | .startMerged config => ∀ b ∈ config.bindings, b.enabled = true →
    env.registry b.pluginName = none
  | .startGate config => ∃ chains, buildChains env.registry config.bindings = .ok chains
  | .loaderStep => ∀ config chains, s.loader = .setChains config chains →
    ∀ request route, s.requests request = .matched route →
      config.Serves env route ∨ chains.getRouteChain route.id = s.chains.getRouteChain route.id
  | .matchRoute _ _ _ => ∀ config, s.loader ≠ .loadRoutes config
  | .startHttp | .reloadRead _ _ | .routePlugins _ => True

/-- All chains in place are those of the configuration. -/
structure LoadedConfig.Gives (env : GatewayEnv Re P) (config : LoadedConfig)
    (chains : RouteChains P) : Prop where
  built : ∃ chains, buildChains env.registry config.bindings = .ok chains
  chain : ∀ id, chains.getRouteChain id = chainOf env.registry config.bindings id

def DataPlane.InSync (env : GatewayEnv Re P) (s : DataPlane Re P) : Prop :=
  s.table = RouteTable.empty ∨ ∃ load ∈ s.loads, s.table = load.table env ∧ load.Gives env s.chains

def DataPlane.LoaderSound (env : GatewayEnv Re P) (s : DataPlane Re P) : Prop :=
  match s.loader with
  | .notStarted => s.table = RouteTable.empty ∧ s.loads = [] ∧ s.chains = fun _ => none
  | .setChains config chains => buildChains env.registry config.bindings = .ok chains ∧ s.InSync env
  | .loadRoutes config => config ∈ s.loads ∧ config.Gives env s.chains
  | .idle | .loadUpstreams _ => s.InSync env

def RequestStage.Sound (env : GatewayEnv Re P) (loads : List LoadedConfig)
    (chains : RouteChains P) :
    RequestStage P → Prop
  | .fresh | .unmatched => True
  | .matched route => OwnChain env loads route (chains.getRouteChain route.id)
  | .running route chain => OwnChain env loads route chain

structure GatewayInv (env : GatewayEnv Re P) (s : DataPlane Re P) : Prop where
  loader : s.LoaderSound env
  requests : ∀ r, (s.requests r).Sound env s.loads s.chains

variable {env : GatewayEnv Re P} {s t : DataPlane Re P}

lemma GatewayInv.init : GatewayInv env (init : DataPlane Re P) :=
  ⟨⟨rfl, rfl, rfl⟩, fun _ => trivial⟩

lemma gives_of_build {config : LoadedConfig} {chains : RouteChains P}
    (h : buildChains env.registry config.bindings = .ok chains) : config.Gives env chains :=
  ⟨⟨chains, h⟩, fun id => getRouteChain_buildChains h id⟩

/-- Without an enabled binding of a registered plugin, the empty table has the right chains. -/
lemma gives_none {config : LoadedConfig}
    (h : ∀ b ∈ config.bindings, b.enabled = true → env.registry b.pluginName = none) :
    config.Gives env (fun _ => none) := by
  have hbuilt : ∃ chains, buildChains env.registry config.bindings = .ok chains := by
    refine (buildChains_isOk_iff _ _).mpr fun b hb henabled template htemplate => ?_
    rw [h b hb henabled] at htemplate
    cases htemplate
  refine ⟨hbuilt, fun id => Eq.symm ?_⟩
  refine filterMap_eq_nil_iff.mpr fun b hb => ?_
  obtain ⟨hb, henabled⟩ := mem_sortedBindings.mp (mem_filter.mp hb).1
  simp [bindingInstance, h b hb henabled]

variable {route : RouteSnapshot}

lemma OwnChain.append {loads : List LoadedConfig} {chain : List P}
    (h : OwnChain env loads route chain) (more : List LoadedConfig) :
    OwnChain env (loads ++ more) route chain := by
  obtain ⟨load, hload, hspec⟩ := h
  exact ⟨load, mem_append_left _ hload, hspec⟩

section

variable (hs : GatewayInv env s)
include hs

/-- New chains for a new load, under requests whose chains stay right. -/
lemma GatewayInv.append (config : LoadedConfig) (chains : RouteChains P)
    (hmatched : ∀ request route, s.requests request = .matched route →
      OwnChain env (s.loads ++ [config]) route (chains.getRouteChain route.id)) (request : Nat) :
    (s.requests request).Sound env (s.loads ++ [config]) chains := by
  have hsound := hs.requests request
  cases hstage : s.requests request with
  | fresh => trivial
  | unmatched => trivial
  | matched route => exact hmatched request route hstage
  | running route chain =>
    rw [hstage] at hsound
    exact hsound.append _

lemma GatewayInv.setRequest (request : Nat) {r : RequestStage P}
    (h : r.Sound env s.loads s.chains) :
    GatewayInv env { s with requests := Function.update s.requests request r } := by
  refine ⟨hs.loader, fun other => ?_⟩
  by_cases heq : other = request
  · subst heq
    simpa using h
  · simpa [Function.update_of_ne heq] using hs.requests other

lemma GatewayInv.not_matched (hloads : s.loads = []) {request : Nat} :
    s.requests request ≠ .matched route := by
  intro hmatched
  have hsound := hs.requests request
  rw [hmatched, hloads] at hsound
  obtain ⟨load, hload, -⟩ := hsound
  cases hload

lemma GatewayInv.beginReload (hsync : s.InSync env) (source : ReloadSource)
    (config : LoadedConfig) : GatewayInv env (s.beginReload env source config) := by
  simp only [DataPlane.beginReload]
  cases hbuild : buildChains env.registry config.bindings with
  | ok chains => exact ⟨⟨hbuild, hsync⟩, hs.requests⟩
  | error e =>
    cases source with
    | cacheOrDb => exact hs
    | http => exact ⟨hsync, hs.requests⟩

lemma GatewayInv.replaceNext (hok : Orderly env s .loaderStep) (h : s.replaceNext env = some t) :
    GatewayInv env t := by
  have hsound := hs.loader
  rw [DataPlane.LoaderSound] at hsound
  rw [DataPlane.replaceNext] at h
  cases hloader : s.loader with
  | notStarted | idle => simp [hloader] at h
  | setChains config chains =>
    rw [hloader] at h hsound
    cases h
    have hgives := gives_of_build hsound.1
    have hmem : config ∈ s.loads ++ [config] := mem_append_right _ mem_cons_self
    refine ⟨⟨hmem, hgives⟩, hs.append config chains fun request route hmatched => ?_⟩
    rcases hok config chains hloader request route hmatched with hserves | hsame
    · exact ⟨config, hmem, hserves, hgives.built, hgives.chain _⟩
    · have hown := hs.requests request
      rw [hmatched] at hown
      rw [hsame]
      exact OwnChain.append hown _
  | loadRoutes config =>
    rw [hloader] at h hsound
    cases h
    exact ⟨.inr ⟨config, hsound.1, rfl, hsound.2⟩, hs.requests⟩
  | loadUpstreams config =>
    rw [hloader] at h hsound
    cases h
    exact ⟨hsound, hs.requests⟩

lemma GatewayInv.ownChain_of_match (hbetween : ∀ config, s.loader ≠ .loadRoutes config)
    {protocol : ProtocolId} {info : RouteMatchInfo}
    (hroute : s.table.matchRoute env.rx protocol info = some route) :
    OwnChain env s.loads route (s.chains.getRouteChain route.id) := by
  have hsync : s.InSync env := by
    have hsound := hs.loader
    rw [DataPlane.LoaderSound] at hsound
    split at hsound
    · exact .inl hsound.1
    · exact hsound.2
    · next config hloader => exact absurd hloader (hbetween config)
    · exact hsound
    · exact hsound
  obtain hempty | ⟨load, hload, htable, hgives⟩ := hsync
  · rw [hempty] at hroute
    cases hroute
  · exact ⟨load, hload, ⟨protocol, info, htable ▸ hroute⟩, hgives.built, hgives.chain _⟩

lemma GatewayInv.step {e : GatewayEvent} (hok : Orderly env s e)
    (h : gatewayStep env s e = some t) : GatewayInv env t := by
  have hsound := hs.loader
  rw [DataPlane.LoaderSound] at hsound
  cases e with
  | startMerged config =>
    simp only [gatewayStep] at h
    split at h
    · next hloader =>
      rw [hloader] at hsound
      cases h
      obtain ⟨-, hloads, hchains⟩ := hsound
      have hmem : config ∈ s.loads ++ [config] := mem_append_right _ mem_cons_self
      refine ⟨.inr ⟨config, hmem, rfl, hchains ▸ gives_none hok⟩, hs.append config _ ?_⟩
      exact fun _ _ hmatched => absurd hmatched (hs.not_matched hloads)
    · cases h
  | startGate config =>
    simp only [gatewayStep] at h
    split at h
    · next hloader =>
      rw [hloader] at hsound
      cases h
      obtain ⟨-, hloads, -⟩ := hsound
      obtain ⟨chains, hbuild⟩ := hok
      have hchains : config.chains env = chains := by simp [LoadedConfig.chains, hbuild]
      refine ⟨⟨mem_append_right _ mem_cons_self, ?_⟩, hs.append config _ ?_⟩
      · exact hchains ▸ gives_of_build hbuild
      · exact fun _ _ hmatched => absurd hmatched (hs.not_matched hloads)
    · cases h
  | startHttp =>
    simp only [gatewayStep] at h
    split at h
    · next hloader =>
      rw [hloader] at hsound
      cases h
      exact ⟨.inl hsound.1, hs.requests⟩
    · cases h
  | reloadRead source config =>
    simp only [gatewayStep] at h
    split at h
    · next hloader =>
      rw [hloader] at hsound
      cases h
      cases config with
      | none => exact hs
      | some config => exact hs.beginReload hsound source config
    · cases h
  | loaderStep => exact hs.replaceNext hok h
  | matchRoute request protocol info =>
    simp only [gatewayStep] at h
    split at h
    · cases h
      apply hs.setRequest
      cases hroute : s.table.matchRoute env.rx protocol info with
      | none => trivial
      | some route => exact hs.ownChain_of_match hok hroute
    · cases h
  | routePlugins request =>
    simp only [gatewayStep] at h
    split at h
    · next route hmatched =>
      cases h
      have hown := hs.requests request
      rw [hmatched] at hown
      exact hs.setRequest request hown
    · cases h

end

/-! ### The chain a request runs -/

/-- Chains that could be built leave no route with a registered plugin without it. -/
lemma chainOf_ne_nil {registry : PluginRegistry P} {bindings : List PluginBindingDto}
    {chains : RouteChains P} (hbuilt : buildChains registry bindings = .ok chains)
    {b : PluginBindingDto} (hb : b ∈ bindings) (henabled : b.enabled = true)
    (hreg : (registry b.pluginName).isSome = true) :
    chainOf registry bindings b.routeId ≠ [] := by
  obtain ⟨template, htemplate⟩ := Option.isSome_iff_exists.mp hreg
  obtain ⟨inst, hinst⟩ :=
    (buildChains_isOk_iff registry bindings).mp ⟨chains, hbuilt⟩ b hb henabled template htemplate
  have hmem : inst ∈ chainOf registry bindings b.routeId := by
    refine mem_filterMap.mpr ⟨b, ?_, ?_⟩
    · exact mem_filter.mpr ⟨mem_sortedBindings.mpr ⟨hb, henabled⟩, by simp⟩
    · simp [bindingInstance, htemplate, hinst, Except.toOption]
  exact ne_nil_of_mem hmem

def authGateway : GatewayEnv Unit String :=
  ⟨⟨fun _ => none, fun _ _ => false⟩,
    fun name => if name = "auth" then some ⟨false, fun _ => .ok (), fun _ => .ok "auth"⟩ else none⟩

def authConfig : LoadedConfig :=
  ⟨[⟨1, "r", .http, ⟨.prefixed "/", none, none, [], []⟩, 0, none, none, false, true, true, 0, 0⟩],
    [], [⟨1, 1, "auth", .null, 0, true, true⟩]⟩

/-- A gate's start, a request, and a reload of the same routes before it reads its chain. -/
def reloadUnderRequest : List GatewayEvent :=
  [.startGate authConfig, .loaderStep, .loaderStep,
    .matchRoute 0 .http ⟨"/a", some "GET", none, [], []⟩,
    .reloadRead .cacheOrDb (some authConfig), .loaderStep, .routePlugins 0]

end Conrogate
