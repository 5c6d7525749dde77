import Conrogate.Gateway.Reload
import Conrogate.Plugins.IpAllowDeny

/-!
# One attempt to reload

A reload reads from the cache, the database or the control plane, and every read can fail. It then
replaces chains, routes and upstreams, unless a chain cannot be built.
-/

namespace Conrogate

open DataPlane Transition Option

variable {Re P : Type}

structure ReloadReads where
  cache : Option (Result (Option ConfigSnapshot))
  routes : Result (List RouteDto)
  upstreams : Result (List UpstreamDto)
  bindings : (routeId : Nat) → Result (List PluginBindingDto)

namespace ReloadReads

def readAll (reads : ReloadReads) : Result LoadedConfig := do
  let routes ← reads.routes
  let upstreams ← reads.upstreams
  let bindings ← routes.mapM fun route => reads.bindings route.id
  return ⟨routes, upstreams, bindings.flatten⟩

def loadConfigSnapshot (reads : ReloadReads) : Option LoadedConfig :=
  match reads.cache with
  | some (.ok (some snap)) => some ⟨snap.routes, snap.upstreams, snap.pluginBindings⟩
  | _ => reads.readAll.toOption

def config (reads : ReloadReads) : ReloadSource → Option LoadedConfig
  | .cacheOrDb => reads.loadConfigSnapshot
  | .http => reads.readAll.toOption

end ReloadReads

/-- `load_upstreams`: of upstreams with the same id the last one counts. -/
def loadUpstreams (upstreams : List UpstreamDto) :
    Nat → Option (BalancerAlgorithm × List UpstreamNodeDto) :=
  upstreams.foldl (fun m up => Function.update m up.id (some (up.algorithm, up.nodes)))
    fun _ => none

def AllOrNothing (env : GatewayEnv Re P) (fresh : Option LoadedConfig) (s t : DataPlane Re P) :
    Prop :=
  (∃ config, fresh = some config ∧ buildChains env.registry config.bindings = .ok t.chains ∧
    t.table = loadWithBindings env.rx config.routes config.bindings env.bodyRequired ∧
    loadUpstreams t.upstreams = loadUpstreams config.upstreams) ∨
  (t.chains = s.chains ∧ t.table = s.table ∧ loadUpstreams t.upstreams = loadUpstreams s.upstreams)

def GatewayEvent.NoRead : GatewayEvent → Prop
  | .reloadRead _ _ => False
  | _ => True

structure Goal (Re P : Type) where
  chains : RouteChains P
  table : RouteTable Re
  upstreams : List UpstreamDto

def DataPlane.goal (env : GatewayEnv Re P) (s : DataPlane Re P) : Goal Re P :=
  match s.loader with
  | .notStarted | .idle => ⟨s.chains, s.table, s.upstreams⟩
  | .setChains config chains => ⟨chains, config.table env, config.upstreams⟩
  | .loadRoutes config => ⟨s.chains, config.table env, config.upstreams⟩
  | .loadUpstreams config => ⟨s.chains, s.table, config.upstreams⟩

variable {env : GatewayEnv Re P} {s t : DataPlane Re P}

lemma goal_step (hstarted : s.loader ≠ .notStarted) {e : GatewayEvent} (he : e.NoRead)
    (h : gatewayStep env s e = some t) : t.loader ≠ .notStarted ∧ t.goal env = s.goal env := by
  cases e with
  | startMerged config => cases hloader : s.loader <;> simp_all [gatewayStep]
  | startGate config => cases hloader : s.loader <;> simp_all [gatewayStep]
  | startHttp => cases hloader : s.loader <;> simp_all [gatewayStep]
  | reloadRead source config => exact he.elim
  | loaderStep =>
    cases hloader : s.loader with
    | notStarted => exact absurd hloader hstarted
    | idle => simp [gatewayStep, replaceNext, hloader] at h
    | setChains config chains =>
      simp only [gatewayStep, replaceNext, hloader, some.injEq] at h
      subst h
      simp [goal, hloader]
    | loadRoutes config =>
      simp only [gatewayStep, replaceNext, hloader, some.injEq] at h
      subst h
      simp [goal, hloader]
    | loadUpstreams config =>
      simp only [gatewayStep, replaceNext, hloader, some.injEq] at h
      subst h
      simp [goal, hloader]
  | matchRoute request protocol info =>
    simp only [gatewayStep] at h
    split at h
    · cases h
      exact ⟨hstarted, rfl⟩
    · cases h
  | routePlugins request =>
    simp only [gatewayStep] at h
    split at h
    · cases h
      exact ⟨hstarted, rfl⟩
    · cases h

lemma goal_run (hstarted : s.loader ≠ .notStarted) {events : List GatewayEvent}
    (hevents : ∀ e ∈ events, e.NoRead) (h : run (gatewayStep env) s events = some t) :
    t.goal env = s.goal env := by
  have hinv : t.loader ≠ .notStarted ∧ t.goal env = s.goal env := by
    have hmeets : Meets (gatewayStep env) (fun _ e => e.NoRead) s events :=
      meets_of_forall fun e he _ => hevents e he
    refine invariant_of_meets (I := fun u => u.loader ≠ .notStarted ∧
      u.goal env = s.goal env) ?_ ⟨hstarted, rfl⟩ hmeets h
    rintro u e v ⟨hu, hgoal⟩ he hv
    obtain ⟨hv', hgoal'⟩ := goal_step hu he hv
    exact ⟨hv', hgoal'.trans hgoal⟩
  exact hinv.2

def DataPlane.reloadGoal (env : GatewayEnv Re P) (s : DataPlane Re P) (source : ReloadSource) :
    Option LoadedConfig → Goal Re P
  | none => ⟨s.chains, s.table, s.upstreams⟩
  | some config => match buildChains env.registry config.bindings, source with
    | .ok chains, _ => ⟨chains, config.table env, config.upstreams⟩
    | .error _, .cacheOrDb => ⟨s.chains, s.table, s.upstreams⟩
    | .error _, .http => ⟨s.chains, s.table, config.upstreams⟩

section

variable {source : ReloadSource} {fresh : Option LoadedConfig} (hidle : s.loader = .idle)
include hidle

lemma goal_reloadRead (h : gatewayStep env s (.reloadRead source fresh) = some t) :
    t.loader ≠ .notStarted ∧ t.goal env = s.reloadGoal env source fresh := by
  simp only [gatewayStep, hidle, some.injEq] at h
  subst h
  cases fresh with
  | none => simp [goal, reloadGoal, hidle]
  | some config =>
    cases hbuild : buildChains env.registry config.bindings with
    | ok chains => simp [goal, reloadGoal, beginReload, hbuild]
    | error e =>
      cases source <;>
        simp [goal, reloadGoal, beginReload, hbuild, hidle]

lemma reload_reaches_goal {events : List GatewayEvent} (hevents : ∀ e ∈ events, e.NoRead)
    (h : run (gatewayStep env) s (.reloadRead source fresh :: events) = some t)
    (hdone : t.loader = .idle) :
    (⟨t.chains, t.table, t.upstreams⟩ : Goal Re P) = s.reloadGoal env source fresh := by
  obtain ⟨u, hread, hrest⟩ := run_cons_eq_some.mp h
  obtain ⟨hstarted, hgoal⟩ := goal_reloadRead hidle hread
  rw [← hgoal, ← goal_run hstarted hevents hrest, goal, hdone]

end

/-- A reload replaces all three tables or none, except over HTTP: there a binding that cannot be
built keeps the chains and the routes, but not the upstreams. -/
theorem reload_all_or_nothing_iff (env : GatewayEnv Re P) (source : ReloadSource)
    (reads : ReloadReads) (s t : DataPlane Re P) (events : List GatewayEvent)
    (hidle : s.loader = .idle) (hevents : ∀ e ∈ events, e.NoRead)
    (hrun : run (gatewayStep env) s
      (.reloadRead source (reads.config source) :: events) = some t)
    (hdone : t.loader = .idle) :
    AllOrNothing env (reads.config source) s t ↔
      ¬ (source = .http ∧ ∃ config, reads.config source = some config ∧
        (∃ b ∈ config.bindings, b.enabled = true ∧ ¬ Buildable env.registry b) ∧
        loadUpstreams config.upstreams ≠ loadUpstreams s.upstreams) := by
  have hgoal := reload_reaches_goal hidle hevents hrun hdone
  cases hfresh : reads.config source with
  | none =>
    rw [hfresh] at hgoal
    obtain ⟨hchains, htable, hupstreams⟩ := Goal.mk.inj hgoal
    simp [AllOrNothing, hchains, htable, hupstreams]
  | some config =>
    rw [hfresh] at hgoal
    have hok := buildChains_isOk_iff env.registry config.bindings
    cases hbuild : buildChains env.registry config.bindings with
    | ok chains =>
      simp only [reloadGoal, hbuild] at hgoal
      obtain ⟨hchains, htable, hupstreams⟩ := Goal.mk.inj hgoal
      refine iff_of_true
        (.inl ⟨config, rfl, by rw [hbuild, hchains], htable, by rw [hupstreams]⟩) ?_
      rintro ⟨-, config', heq, ⟨b, hb, henabled, hbad⟩, -⟩
      obtain rfl := some.inj heq
      exact hbad (hok.mp ⟨chains, hbuild⟩ b hb henabled)
    | error e =>
      have hbad : ∃ b ∈ config.bindings, b.enabled = true ∧ ¬ Buildable env.registry b := by
        by_contra hall
        push Not at hall
        obtain ⟨chains, hchains⟩ := hok.mpr hall
        simp [hbuild] at hchains
      cases source with
      | cacheOrDb =>
        simp only [reloadGoal, hbuild] at hgoal
        obtain ⟨hchains, htable, hupstreams⟩ := Goal.mk.inj hgoal
        simp [AllOrNothing, hchains, htable, hupstreams]
      | http =>
        simp only [reloadGoal, hbuild] at hgoal
        obtain ⟨hchains, htable, hupstreams⟩ := Goal.mk.inj hgoal
        simp [AllOrNothing, hchains, htable, hupstreams, hbuild, hbad]

def ipGateway : GatewayEnv Unit (IpAllowDenyPlugin IpNet) where
  rx := ⟨fun _ => none, fun _ _ => false⟩
  registry name :=
    if name == "ip_allow_deny" then
      some ⟨false, IpAllowDenyPlugin.validateConfig ipNetCrate fun _ => "",
        IpAllowDenyPlugin.configured ipNetCrate fun _ => ""⟩
    else none

def httpGate : DataPlane Unit (IpAllowDenyPlugin IpNet) :=
  { init with loader := .idle }

def controlPlaneReads (config : Json) : ReloadReads where
  cache := none
  routes := .ok [⟨1, "users", .http, ⟨.exact "/users", none, none, [], []⟩, 0, some 1, none, false,
    true, true, 0, 0⟩]
  upstreams := .ok [⟨1, "users", .roundRobin, false, [⟨1, 1, "10.0.0.9:80", 1, true⟩], 0, 0⟩]
  bindings _ := .ok [⟨1, 1, "ip_allow_deny", config, 0, true, true⟩]

theorem reload_all_or_nothing_good_binding :
    let reads := controlPlaneReads (.obj [("deny", .arr [.str "10.0.0.1"])])
    ∃ t, run (gatewayStep ipGateway) httpGate
        [.reloadRead .http (reads.config .http), .loaderStep, .loaderStep, .loaderStep] = some t ∧
      AllOrNothing ipGateway (reads.config .http) httpGate t := by
  intro reads
  obtain ⟨t, hrun⟩ : ∃ t, run (gatewayStep ipGateway) httpGate
      [.reloadRead .http (reads.config .http), .loaderStep, .loaderStep, .loaderStep] = some t :=
    isSome_iff_exists.mp rfl
  refine ⟨t, hrun, (reload_all_or_nothing_iff ipGateway .http reads httpGate t
    [.loaderStep, .loaderStep, .loaderStep] rfl ?_ hrun ?_).mpr ?_⟩
  · simp [GatewayEvent.NoRead]
  · obtain rfl := some.inj hrun
    rfl
  · rintro ⟨-, config, hconfig, ⟨b, hb, -, hbad⟩, -⟩
    obtain rfl := some.inj hconfig
    obtain rfl := List.mem_singleton.mp hb
    refine hbad fun template htemplate => ?_
    obtain rfl := some.inj htemplate
    exact ⟨_, rfl⟩

/-- A binding without any address keeps the new route out, but not the new upstream. -/
theorem reload_over_http_replaces_upstreams_only :
    let reads := controlPlaneReads (.obj [])
    ∃ t, run (gatewayStep ipGateway) httpGate
        [.reloadRead .http (reads.config .http), .loaderStep] = some t ∧ t.loader = .idle ∧
      ¬ AllOrNothing ipGateway (reads.config .http) httpGate t := by
  intro reads
  refine ⟨_, rfl, rfl, ?_⟩
  rintro (⟨config, hconfig, hbuild, -⟩ | ⟨-, -, hupstreams⟩)
  · obtain rfl := some.inj hconfig
    cases hbuild
  · have hnew := congrFun hupstreams 1
    cases hnew

end Conrogate
