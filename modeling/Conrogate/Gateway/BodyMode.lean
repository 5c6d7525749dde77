import Conrogate.Gateway.Dispatch
import Conrogate.Gateway.Reload

/-!
# Chains and body modes

The chain of a route is made of instances of its bindings. Whether the body is read for a route is
decided from the same bindings, but by what the registered plugins say and not their instances.
-/

namespace Conrogate

open List RouteEntry

variable {Re P : Type}

/-- The enabled bindings of a route to registered plugins. -/
def boundTo (registry : PluginRegistry P) (bindings : List PluginBindingDto) (routeId : Nat) :
    List PluginBindingDto :=
  bindings.filter fun b => b.enabled && (b.routeId == routeId && (registry b.pluginName).isSome)

/-- The list is sorted by `order`, and bindings with the same `order` come as they were given. -/
def StablySorted (bindings sorted : List PluginBindingDto) : Prop :=
  sorted.Pairwise (fun a b => a.order ≤ b.order) ∧
    ∀ k, sorted.filter (·.order == k) = bindings.filter (·.order == k)

/-- The binding is to a registered plugin, and this is what `configured` returns for it. -/
def Configures (registry : PluginRegistry P) (b : PluginBindingDto)
    (r : Result P) : Prop :=
  ∃ template, registry b.pluginName = some template ∧ template.configured b.config = r

/-- Instances need the body exactly if the registered plugin says so. -/
def BodyStatic (registry : PluginRegistry P) (requiresBody : P → Bool) : Prop :=
  ∀ name template config inst, registry name = some template →
    template.configured config = .ok inst → requiresBody inst = template.requiresBody

lemma stablySorted_insertionSort (bs : List PluginBindingDto) :
    StablySorted bs (bs.insertionSort fun a b => a.order ≤ b.order) := by
  have : Std.Total fun a b : PluginBindingDto => a.order ≤ b.order := ⟨fun a b => le_total _ _⟩
  have : IsTrans PluginBindingDto fun a b => a.order ≤ b.order := ⟨fun a b c => le_trans⟩
  refine ⟨pairwise_insertionSort _ bs, fun k => ?_⟩
  -- the bindings with one `order` are a sorted sublist, which the sort keeps
  have hsorted : (bs.filter (·.order == k)).Pairwise fun a b => a.order ≤ b.order := by
    refine pairwise_of_forall_mem_list fun a ha b hb => ?_
    rw [mem_filter, beq_iff_eq] at ha hb
    exact (ha.2.trans hb.2.symm).le
  have hsub := (sublist_insertionSort hsorted filter_sublist).filter (·.order == k)
  simp only [filter_filter, Bool.and_self] at hsub
  exact (hsub.eq_of_length ((perm_insertionSort _ bs).filter _).length_eq.symm).symm

lemma StablySorted.filter {bs sorted : List PluginBindingDto} (h : StablySorted bs sorted)
    (q : PluginBindingDto → Bool) : StablySorted (bs.filter q) (sorted.filter q) := by
  refine ⟨h.1.sublist filter_sublist, fun k => ?_⟩
  rw [filter_comm, h.2, filter_comm]

lemma forall₂_bindingInstance {registry : PluginRegistry P} {bs : List PluginBindingDto}
    (h : ∀ b ∈ bs, Buildable registry b) :
    List.Forall₂ (fun b inst => Configures registry b (.ok inst))
      (bs.filter fun b => (registry b.pluginName).isSome)
      (bs.filterMap (bindingInstance registry)) := by
  induction bs with
  | nil => exact .nil
  | cons b bs ih =>
    obtain ⟨hb, hbs⟩ := forall_mem_cons.mp h
    cases hreg : registry b.pluginName with
    | none => simpa [hreg, bindingInstance] using ih hbs
    | some template =>
      obtain ⟨inst, hinst⟩ := hb template hreg
      simpa [hreg, bindingInstance, hinst, Except.toOption] using
        ⟨⟨template, hreg, hinst⟩, ih hbs⟩

lemma buildChains_error_iff {registry : PluginRegistry P} {bindings : List PluginBindingDto} :
    (∃ e, buildChains registry bindings = .error e) ↔
      ∃ b ∈ bindings, b.enabled = true ∧ ∃ e, Configures registry b (.error e) := by
  have hnot : (∃ e, buildChains registry bindings = .error e) ↔
      ¬ ∃ chains, buildChains registry bindings = .ok chains := by
    cases buildChains registry bindings <;> simp
  rw [hnot, buildChains_isOk_iff]
  push Not
  refine exists_congr fun b => and_congr_right fun _ => and_congr_right fun _ => ?_
  rw [Buildable]
  push Not
  constructor
  · rintro ⟨template, hreg, hno⟩
    cases hc : template.configured b.config with
    | ok inst => exact absurd hc (hno inst)
    | error e => exact ⟨e, template, hreg, hc⟩
  · rintro ⟨e, template, hreg, hc⟩
    exact ⟨template, hreg, fun inst hinst => by simp [hc] at hinst⟩

section

variable {registry : PluginRegistry P} {bindings : List PluginBindingDto} {chains : RouteChains P}
  (hchains : buildChains registry bindings = .ok chains)
include hchains

lemma exists_sorted_chain (routeId : Nat) :
    ∃ sorted, StablySorted (boundTo registry bindings routeId) sorted ∧
      List.Forall₂ (fun b inst => Configures registry b (.ok inst)) sorted
        (chains.getRouteChain routeId) := by
  have hbuild := (buildChains_isOk_iff registry bindings).mp ⟨chains, hchains⟩
  rw [getRouteChain_buildChains hchains, chainOf]
  refine ⟨_, ?_, forall₂_bindingInstance fun b hb => ?_⟩
  · have hsorted := (stablySorted_insertionSort (bindings.filter (·.enabled))).filter
      fun b => b.routeId == routeId && (registry b.pluginName).isSome
    simpa [boundTo, sortedBindings, filter_filter, Bool.and_comm, Bool.and_left_comm]
      using hsorted
  · obtain ⟨hmem, hen⟩ := mem_sortedBindings.mp (mem_filter.mp hb).1
    exact hbuild b hmem hen

lemma mem_getRouteChain_iff {routeId : Nat} {inst : P} :
    inst ∈ chains.getRouteChain routeId ↔ ∃ b ∈ bindings, b.enabled = true ∧ b.routeId = routeId ∧
      Configures registry b (.ok inst) := by
  rw [getRouteChain_buildChains hchains, chainOf, mem_filterMap]
  refine exists_congr fun b => ?_
  have hinst : bindingInstance registry b = some inst ↔ Configures registry b (.ok inst) := by
    rw [bindingInstance, Option.bind_eq_some_iff]
    refine exists_congr fun template => and_congr_right fun _ => ?_
    cases template.configured b.config <;> simp [Except.toOption]
  rw [mem_filter, mem_sortedBindings, hinst, beq_iff_eq, and_assoc, and_assoc]

lemma requiresBody_iff {requiresBody : P → Bool} (hstatic : BodyStatic registry requiresBody)
    (rx : RegexCrate Re) (route : RouteDto) :
    (loaded rx bindings (GatewayEnv.bodyRequired ⟨rx, registry⟩)
      route).snapshot.requiresBody = true ↔
        ∃ plugin ∈ chains.getRouteChain route.id, requiresBody plugin = true := by
  have hbuild := (buildChains_isOk_iff registry bindings).mp ⟨chains, hchains⟩
  simp only [loaded, ofDto, any_eq_true, mem_filter,
    Bool.and_eq_true, beq_iff_eq, GatewayEnv.bodyRequired, Option.any_eq_true,
    mem_getRouteChain_iff hchains]
  constructor
  · rintro ⟨b, ⟨hb, hen, hid⟩, template, hreg, hbody⟩
    obtain ⟨inst, hinst⟩ := hbuild b hb hen template hreg
    exact ⟨inst, ⟨b, hb, hen, hid, template, hreg, hinst⟩, (hstatic _ _ _ _ hreg hinst).trans hbody⟩
  · rintro ⟨inst, ⟨b, hb, hen, hid, template, hreg, hinst⟩, hbody⟩
    exact ⟨b, ⟨hb, hen, hid⟩, template, hreg, (hstatic _ _ _ _ hreg hinst).symm.trans hbody⟩

end

lemma mem_routes_iff (env : GatewayEnv Re P) {routes : List RouteDto}
    (hids : (routes.map (·.id)).Nodup) (bindings : List PluginBindingDto) {p : ProtocolId}
    {e : RouteEntry Re} :
    e ∈ ((loadWithBindings env.rx routes bindings env.bodyRequired).routes p).getD [] ↔
      ∃ route ∈ routes, (loadable env.rx route && route.protocol == p) = true ∧
        loaded env.rx bindings env.bodyRequired route = e := by
  rw [loadWithBindings_routes env.rx routes bindings _ hids, mem_insertionSort, mem_map]
  simp only [mem_filter, and_assoc]

/-- `build_chains` returns the intended chains and errors under every registry. The table built from
the same data has the body modes of its chains exactly if instances need what the plugin says. -/
theorem chains_fit_table_iff (env : GatewayEnv Re P) (requiresBody : P → Bool) :
    (∀ bindings : List PluginBindingDto,
      ((∃ e, buildChains env.registry bindings = .error e) ↔
        ∃ b ∈ bindings, b.enabled = true ∧ ∃ e, Configures env.registry b (.error e)) ∧
      ∀ chains, buildChains env.registry bindings = .ok chains → ∀ routeId, ∃ sorted,
        StablySorted (boundTo env.registry bindings routeId) sorted ∧
        List.Forall₂ (fun b inst => Configures env.registry b (.ok inst)) sorted
          (chains.getRouteChain routeId)) ∧
    ((∀ bindings chains, buildChains env.registry bindings = .ok chains →
        ∀ routes : List RouteDto, (routes.map (·.id)).Nodup →
          ∀ p, ∀ e ∈ ((loadWithBindings env.rx routes bindings env.bodyRequired).routes p).getD [],
            (e.snapshot.requiresBody = true ↔
              ∃ plugin ∈ chains.getRouteChain e.snapshot.id, requiresBody plugin = true)) ↔
      BodyStatic env.registry requiresBody) := by
  refine ⟨fun bindings => ⟨buildChains_error_iff, fun chains => exists_sorted_chain⟩, ?_, ?_⟩
  · intro h name template config inst hreg hinst
    let b : PluginBindingDto := ⟨1, 1, name, config, 0, false, true⟩
    have hbuild : ∀ b' ∈ [b], b'.enabled = true → Buildable env.registry b' := by
      intro b' hb' _ template' hreg'
      rw [mem_singleton.mp hb'] at hreg' ⊢
      obtain rfl := Option.some.inj (hreg.symm.trans hreg')
      exact ⟨inst, hinst⟩
    obtain ⟨chains, hchains⟩ := (buildChains_isOk_iff env.registry [b]).mpr hbuild
    have hids : ([simpleRoute 1 .http "/" 1 []].map (·.id)).Nodup := nodup_singleton 1
    have hmode := h [b] chains hchains _ hids .http _ ((mem_routes_iff env hids [b]).mpr
      ⟨_, mem_singleton.mpr rfl, rfl, rfl⟩)
    have hchain : ∀ plugin, plugin ∈ chains.getRouteChain 1 ↔ plugin = inst := by
      intro plugin
      rw [mem_getRouteChain_iff hchains]
      simpa [b, Configures, hreg, hinst] using eq_comm
    rw [Bool.eq_iff_iff]
    simpa [loaded, ofDto, GatewayEnv.bodyRequired, simpleRoute, b, hreg,
      hchain] using hmode.symm
  · intro hstatic bindings chains hchains routes hids p e he
    obtain ⟨route, -, -, rfl⟩ := (mem_routes_iff env hids bindings).mp he
    exact requiresBody_iff hchains hstatic env.rx route

/-- A plugin whose configuration makes it read bodies runs without one. -/
theorem body_missing_for_instance :
    let template : PluginTemplate Bool := ⟨false, fun _ => .ok (), fun _ => .ok true⟩
    let env : GatewayEnv Unit Bool := ⟨noRegex, fun _ => some template⟩
    let bindings : List PluginBindingDto := [⟨1, 1, "scan", .null, 0, false, true⟩]
    (∃ chains, buildChains env.registry bindings = .ok chains ∧
      chains.getRouteChain 1 = [true]) ∧
    (((loadWithBindings env.rx [simpleRoute 1 .http "/" 1 []] bindings env.bodyRequired).routes
      .http).getD []).map (·.snapshot.requiresBody) = [false] :=
  ⟨⟨_, rfl, rfl⟩, rfl⟩

end Conrogate
