import Conrogate.Storage.Restore

/-!
# A snapshot written back and collected again

What may be lost are the nodes of upstreams that were not there, upstreams that share a name, and
references to upstreams that the snapshot does not have.
-/

namespace Conrogate

open SoftTable List Upsert RouteDto Tables BindingRow UpstreamDto RouteRow CreateRouteDto

section Passes

variable (now : Time) {S : ConfigSnapshot} {t : Tables}

/-! ### Upstreams -/

def UpstreamRow.view (nodes : List NodeRow) (m : UpstreamRow) : UpstreamView where
  id := some m.id
  name := m.name
  algorithm := i16ToAlgorithm m.algorithm
  retryEnabled := m.retryEnabled
  nodes := (nodesOf m.id nodes).map NodeRow.view

lemma Tables.map_view_listAll (t : Tables) :
    t.listAll.map (·.view some) = (live t.upstreams).map (UpstreamRow.view t.nodes) := by
  rw [listAll, map_map]
  apply map_congr_left
  intro m _
  simp only [Function.comp_apply, UpstreamDto.view, UpstreamRow.toDto, UpstreamRow.view, map_map]
  rfl

variable (S t) in
def upstreamPass : Tables := (upsertUpstreams now t S.upstreams).1

variable (S t) in
lemma upstreamPass_spec (hids : (t.upstreams.map (·.id)).Nodup) :
    (upstreamPass now S t).upstreams = (upstreamUpsert now).run t.upstreams S.upstreams ∧
      (upstreamPass now S t).routes = t.routes ∧ (upstreamPass now S t).bindings = t.bindings ∧
      ((S.upstreams.map (·.id)).Nodup → ∀ up ∈ S.upstreams, upstreamIdMap now S t up.id =
        (upstreamUpsert now).firstId up.name (upstreamPass now S t).upstreams) := by
  obtain ⟨hpass, hroutes, hbindings⟩ := upsertUpstreams_eq now (t, fun _ => none) S.upstreams
  obtain ⟨hrows, hmap⟩ := Prod.mk.inj hpass
  obtain ⟨hrun, -, hfirst⟩ := runMap_eq (upstreamUpsert_lawful now) hids (·.id)
    (fun _ => none) S.upstreams
  have hupstreams : (upstreamPass now S t).upstreams =
    (upstreamUpsert now).run t.upstreams S.upstreams := hrows.trans hrun
  refine ⟨hupstreams, hroutes, hbindings, ?_⟩
  intro hnodup up hup
  rw [hupstreams]
  exact (congrFun hmap up.id).trans (hfirst hnodup up hup)

lemma nodup_upstreamPass (hids : (t.upstreams.map (·.id)).Nodup) :
    ((upstreamPass now S t).upstreams.map (·.id)).Nodup := by
  rw [(upstreamPass_spec now S t hids).1]
  exact nodup_run (upstreamUpsert_lawful now) hids _

variable {up : UpstreamDto}

lemma exists_upstreamIdMap (hids : (t.upstreams.map (·.id)).Nodup)
    (hsnapshot : (S.upstreams.map (·.id)).Nodup) (hup : up ∈ S.upstreams) :
    ∃ i, upstreamIdMap now S t up.id = some i := by
  obtain ⟨hrun, -, -, hmap⟩ := upstreamPass_spec now S t hids
  rw [hmap hsnapshot up hup, hrun]
  exact exists_firstId_run (upstreamUpsert_lawful now) hids hup

variable {ids : IdMap}

lemma UpstreamDto.view_writeTo_iff {m : UpstreamRow} (hname : m.name = up.name)
    (hid : ids up.id = some m.id) (nodes : List NodeRow) :
    (up.writeTo now m).view nodes = up.view ids ↔
      ((nodesOf m.id nodes).map NodeRow.view : Multiset NodeView) = up.nodes.map (·.view) := by
  simp [UpstreamRow.view, view, writeTo, hname, hid]

lemma UpstreamDto.view_toRow_iff {i : Nat} (hid : ids up.id = some i) (nodes : List NodeRow) :
    (up.toCreate.toRow now i).view nodes = up.view ids ↔
      ((nodesOf i nodes).map NodeRow.view : Multiset NodeView) = up.nodes.map (·.view) := by
  simp [UpstreamRow.view, view, toCreate, CreateUpstreamDto.toRow, hid]

lemma upstream_restored_iff (hok : t.UpstreamsOk) (hids : (S.upstreams.map (·.id)).Nodup)
    (hnames : (S.upstreams.map (·.name)).Nodup) (hup : up ∈ S.upstreams) :
    (∃ r, (upstreamUpsert now).rowsOf up.name (upstreamPass now S t).upstreams = [r] ∧
      r.view (upstreamPass now S t).nodes = up.view (upstreamIdMap now S t)) ↔
    (∃ m, (upstreamUpsert now).rowsOf up.name t.upstreams = [m]) ∨
      (upstreamUpsert now).rowsOf up.name t.upstreams = [] ∧ up.nodes = [] := by
  obtain ⟨hold, hnew⟩ := upsertUpstreams_of_mem now (s := (t, fun _ => none)) hok hnames hup
  have hmap := (upstreamPass_spec now S t hok.ids).2.2.2 hids up hup
  cases hrows : (upstreamUpsert now).rowsOf up.name t.upstreams with
  | nil =>
    obtain ⟨i, (hi : (upstreamUpsert now).rowsOf _ (upstreamPass now S t).upstreams = _),
      (hnodes : nodesOf i (upstreamPass now S t).nodes = [])⟩ := hnew hrows
    have hid : upstreamIdMap now S t up.id = some i := hmap.trans (firstId_of_cons hi)
    have hview := view_toRow_iff now hid (upstreamPass now S t).nodes
    rw [hnodes] at hview
    simp only [hi, List.cons.injEq, and_true, exists_eq_left', hview]
    simp [eq_comm]
  | cons m rest =>
    obtain ⟨(hi : (upstreamUpsert now).rowsOf _ (upstreamPass now S t).upstreams = _),
      (hnodes : (nodesOf m.id (upstreamPass now S t).nodes).map _ = _)⟩ := hold m rest hrows
    have hid : upstreamIdMap now S t up.id = some m.id :=
      hmap.trans (firstId_of_cons (m := up.writeTo now m) hi)
    have hname : m.name = up.name :=
      rowKey_of_mem_rowsOf (u := upstreamUpsert now) (hrows ▸ mem_cons_self)
    have hview := view_writeTo_iff now hname hid (upstreamPass now S t).nodes
    rw [hnodes] at hview
    simp only [hi, List.cons.injEq, and_assoc, exists_eq_left', hview]
    simp

lemma map_view_applyUpstreams (hids : (t.upstreams.map (·.id)).Nodup) :
    (applyUpstreams now S t).listAll.map (·.view some) =
      ((live (upstreamPass now S t).upstreams).filter fun m =>
        (S.upstreams.map (·.name)).contains m.name).map
        (UpstreamRow.view (upstreamPass now S t).nodes) := by
  have hnodup := nodup_upstreamPass now (S := S) hids
  have hdrop : applyUpstreams now S t = dropUpstreams now S.upstreams (upstreamPass now S t) := rfl
  rw [map_view_listAll, hdrop, live_dropUpstreams now hnodup]
  apply map_congr_left
  intro m hm
  obtain ⟨hlive, hname⟩ := mem_filter.mp hm
  rw [UpstreamRow.view, nodesOf_dropUpstreams now hnodup hlive hname]
  rfl

lemma upstreamNames_nodup (hids : (t.upstreams.map (·.id)).Nodup)
    (hsnapshot : (S.upstreams.map (·.id)).Nodup)
    (hperm : ((applyUpstreams now S t).listAll.map (·.view some)).Perm
      (S.upstreams.map (·.view (upstreamIdMap now S t)))) :
    (S.upstreams.map (·.name)).Nodup := by
  rw [map_view_applyUpstreams now hids] at hperm
  have hperm := hperm.map UpstreamView.id
  rw [map_map, map_map] at hperm
  have hrows : ((live (upstreamPass now S t).upstreams).filter fun m =>
      (S.upstreams.map (·.name)).contains m.name).Sublist (upstreamPass now S t).upstreams :=
    filter_sublist.trans filter_sublist
  have hnodup := ((hrows.map (·.id)).nodup (nodup_upstreamPass now hids)).map
    (Option.some_injective Nat)
  rw [map_map] at hnodup
  have hviews := hperm.nodup_iff.mp hnodup
  have hmap := (upstreamPass_spec now S t hids).2.2.2 hsnapshot
  have hfirst : S.upstreams.map (UpstreamView.id ∘ fun up => up.view (upstreamIdMap now S t)) =
      (S.upstreams.map (·.name)).map fun name =>
        (upstreamUpsert now).firstId name (upstreamPass now S t).upstreams := by
    rw [map_map]
    exact map_congr_left hmap
  rw [hfirst] at hviews
  exact hviews.of_map

lemma upstreams_restored_iff (hok : t.UpstreamsOk) (hids : (S.upstreams.map (·.id)).Nodup) :
    ((applyUpstreams now S t).listAll.map (·.view some)).Perm
      (S.upstreams.map (·.view (upstreamIdMap now S t))) ↔
    (S.upstreams.map (·.name)).Nodup ∧ ∀ up ∈ S.upstreams,
      (∃ m, select (·.name == up.name) t.upstreams = [m]) ∨
        select (·.name == up.name) t.upstreams = [] ∧ up.nodes = [] := by
  have hu := upstreamUpsert_lawful now
  rw [← and_iff_right_of_imp (upstreamNames_nodup now hok.ids hids)]
  refine and_congr_right fun hnames => ?_
  rw [map_view_applyUpstreams now hok.ids]
  have hrows := (filter_keys_perm (u := upstreamUpsert now) hnames
    (upstreamPass now S t).upstreams).map (UpstreamRow.view (upstreamPass now S t).nodes)
  refine (hrows.congr_left _).trans ?_
  refine (flatMap_perm_map_iff UpstreamView.name ?_ ?_ hnames).trans ?_
  · intro up hup hnil
    obtain ⟨i, hi⟩ := exists_firstId_run hu hok.ids hup
    rw [← (upstreamPass_spec now S t hok.ids).1, firstId, hnil] at hi
    cases hi
  · intro up _ r hr
    exact rowKey_of_mem_rowsOf (u := upstreamUpsert now) hr
  · exact forall₂_congr fun up hup => upstream_restored_iff now hok hids hnames hup

/-! ### Routes -/

variable (S t) in
def routePass : Upsert RouteDto RouteRow String :=
  routeUpsert now (remapUpstream S.upstreams (upstreamIdMap now S t))

def RouteDto.restored (upstreams : List UpstreamDto) (upstreamIds routeIds : IdMap)
    (r : RouteDto) : RouteView :=
  { r.view upstreamIds routeIds with
    upstreamId := (remapUpstream upstreams upstreamIds r).map some }

variable (S t) in
lemma routePass_spec (h : t.WellFormed) (hids : (S.routes.map (·.id)).Nodup) :
    let pass := upsertRoutes now S (upstreamIdMap now S t) (applyUpstreams now S t)
    pass.1.routes = (routePass now S t).run t.routes S.routes ∧
      pass.1.bindings = t.bindings ∧
      ∀ r ∈ S.routes, routeIdMap now S t r.id =
        (routePass now S t).firstId r.name ((routePass now S t).run t.routes S.routes) := by
  intro pass
  obtain ⟨-, hroutes, hbindings, -⟩ := upstreamPass_spec now S t h.upstreamIds
  have hpass : pass = _ := upsertRoutes_eq now S.upstreams (upstreamIdMap now S t)
    (applyUpstreams now S t, fun _ => none) S.routes
  obtain ⟨hrun, -, hfirst⟩ := runMap_eq (t := t.routes)
    (routeUpsert_lawful now (remapUpstream S.upstreams (upstreamIdMap now S t))) h.routeIds
    (·.id) (fun _ => none) S.routes
  have hsame : (applyUpstreams now S t).routes = t.routes := hroutes
  rw [hsame] at hpass
  refine ⟨?_, ?_, ?_⟩
  · rw [hpass]
    exact hrun
  · rw [hpass]
    exact hbindings
  · intro r hr
    refine (congrFun (congrArg Prod.snd hpass) r.id).trans ?_
    exact hfirst hids r hr

variable (S t) in
lemma applyRoutes_upstreams :
    (applyRoutes now S t).upstreams = (applyUpstreams now S t).upstreams ∧
      (applyRoutes now S t).nodes = (applyUpstreams now S t).nodes := by
  have hpass := upsertRoutes_eq now S.upstreams (upstreamIdMap now S t)
    (applyUpstreams now S t, fun _ => none) S.routes
  rw [applyRoutes, upsertRoutes, hpass]
  exact ⟨rfl, rfl⟩

variable (S t) in
lemma listAll_applyRoutes : (applyRoutes now S t).listAll = (applyUpstreams now S t).listAll := by
  obtain ⟨hupstreams, hnodes⟩ := applyRoutes_upstreams now S t
  simp only [listAll, loadNodes, hupstreams, hnodes]

def RouteRow.view (m : RouteRow) : Option RouteView := m.toDto.map (·.view some some)

lemma RouteRow.view_of_wrote {r : RouteDto} {m : RouteRow} (hwrote : (routePass now S t).Wrote r m)
    (hname : m.name = r.name) (hid : ids r.id = some m.id) :
    m.view = some (r.restored S.upstreams (upstreamIdMap now S t) ids) := by
  rcases hwrote with ⟨m', rfl⟩ | ⟨i, rfl⟩
  · simp only [routePass, routeUpsert, RouteDto.writeTo] at hname hid
    simp [routePass, routeUpsert, RouteDto.writeTo, view, toDto, RouteDto.view,
      RouteDto.restored, hname, hid]
  · simp only [routePass, routeUpsert, RouteDto.toCreate, toRow] at hname hid
    simp [routePass, routeUpsert, RouteDto.toCreate, toRow, view,
      toDto, RouteDto.view, RouteDto.restored, hid]

def bindingItems (routeIds : IdMap) (bindings : List PluginBindingDto) :
    List (Nat × PluginBindingDto) :=
  bindings.map fun b => ((routeIds b.routeId).getD 0, b)

section Routes

variable (h : t.WellFormed) (hS : S.Coherent)

include h hS

lemma enabled_applyRoutes :
    select (·.enabled) (applyRoutes now S t).routes =
      (live ((routePass now S t).run t.routes S.routes)).filter fun m =>
        (S.routes.map (·.name)).contains m.name := by
  have hu := routeUpsert_lawful now (remapUpstream S.upstreams (upstreamIdMap now S t))
  obtain ⟨hrows, -, -⟩ := routePass_spec now S t h hS.routeIds
  have hids : ((upsertRoutes now S (upstreamIdMap now S t) (applyUpstreams now S t)).1.routes.map
      (·.id)).Nodup := by
    rw [hrows]
    exact nodup_run hu h.routeIds _
  rw [select, applyRoutes, live_dropRoutes now hids, hrows, filter_filter]
  apply filter_congr
  intro m hm
  by_cases hname : m.name ∈ S.routes.map (·.name)
  · obtain ⟨r, hr, -, hwrote⟩ :=
      wrote_of_mem hu h.routeIds hS.routeNames h.routeNames hm hname
    have henabled : m.enabled = true := by
      rw [← hS.routesEnabled r hr]
      rcases hwrote with ⟨m', rfl⟩ | ⟨i, rfl⟩ <;> rfl
    simp [henabled]
  · rw [contains_eq_mem, decide_eq_false hname]
    cases m.enabled <;> rfl

lemma map_view_applyRoutes :
    ((applyRoutes now S t).listEnabled.map (·.view some some)).Perm
      (S.routes.map fun r =>
        r.restored S.upstreams (upstreamIdMap now S t) (routeIdMap now S t)) := by
  have hu := routeUpsert_lawful now (remapUpstream S.upstreams (upstreamIdMap now S t))
  obtain ⟨-, -, hmap⟩ := routePass_spec now S t h hS.routeIds
  have hrows := map_filter_keys_perm (V := view) (W := fun r => some
    (r.restored S.upstreams (upstreamIdMap now S t) (routeIdMap now S t))) hu h.routeIds
    hS.routeNames h.routeNames (by
      intro r hr m hm hwrote
      apply view_of_wrote now hwrote
      · exact rowKey_of_mem_rowsOf (u := routePass now S t) (hm ▸ mem_cons_self)
      · exact (hmap r hr).trans (firstId_of_cons hm))
  have hcollected := ((applyRoutes now S t).listEnabled_perm.map (·.view some some))
  rw [map_filterMap, enabled_applyRoutes now h hS] at hcollected
  refine hcollected.trans ?_
  have := hrows.filterMap id
  rw [filterMap_map, filterMap_map] at this
  refine this.trans (.of_eq ?_)
  simp

lemma map_id_applyRoutes :
    ((applyRoutes now S t).listEnabled.map fun r => some r.id).Perm
      (S.routes.map fun r => routeIdMap now S t r.id) := by
  have := (map_view_applyRoutes now h hS).map RouteView.id
  rw [map_map, map_map] at this
  exact this

lemma RouteDto.restored_eq_view_iff (r : RouteDto) (routeIds : IdMap) :
    r.restored S.upstreams (upstreamIdMap now S t) routeIds =
        r.view (upstreamIdMap now S t) routeIds ↔
      ∀ i, r.upstreamId = some i → i ∈ S.upstreams.map (·.id) := by
  have hfield : r.restored S.upstreams (upstreamIdMap now S t) routeIds =
        r.view (upstreamIdMap now S t) routeIds ↔
      (remapUpstream S.upstreams (upstreamIdMap now S t) r).map some =
        r.upstreamId.map (upstreamIdMap now S t) := by
    simp [restored, view]
  rw [hfield, remapUpstream]
  cases r.upstreamId with
  | none => simp
  | some i =>
    rw [Option.bind_some, Option.map_some]
    cases hfind : S.upstreams.find? fun u => u.id == i with
    | none =>
      have hnone : ∀ up ∈ S.upstreams, ¬up.id = i := by
        intro up hup hid
        exact find?_eq_none.mp hfind up hup (beq_iff_eq.mpr hid)
      simpa using hnone
    | some up =>
      have hup := mem_of_find?_eq_some hfind
      have hid := find?_some hfind
      obtain rfl := beq_iff_eq.mp hid
      obtain ⟨a, ha⟩ := exists_upstreamIdMap now h.upstreamIds hS.upstreamIds hup
      rw [Option.bind_some, ha, Option.map_some]
      simpa using ⟨up, hup, rfl⟩

lemma routes_restored_iff :
    ((applyRoutes now S t).listEnabled.map (·.view some some)).Perm
      (S.routes.map (·.view (upstreamIdMap now S t) (routeIdMap now S t))) ↔
    ∀ r ∈ S.routes, ∀ i, r.upstreamId = some i → i ∈ S.upstreams.map (·.id) := by
  refine ((map_view_applyRoutes now h hS).congr_left _).trans ?_
  refine (map_perm_map_iff RouteView.name ?_ hS.routeNames).trans ?_
  · exact fun r _ => rfl
  exact forall₂_congr fun r _ => restored_eq_view_iff now h hS r _

/-! ### Bindings -/

lemma nodup_applyRoutes : ((applyRoutes now S t).routes.map (·.id)).Nodup := by
  have hu := routeUpsert_lawful now (remapUpstream S.upstreams (upstreamIdMap now S t))
  obtain ⟨hrows, -, -⟩ := routePass_spec now S t h hS.routeIds
  apply nodup_softDelete (ρ := RouteRow)
  rw [hrows]
  exact nodup_run hu h.routeIds _

lemma nodup_routeIdMap : (S.routes.map fun r => routeIdMap now S t r.id).Nodup := by
  rw [← (map_id_applyRoutes now h hS).nodup_iff]
  have hids := nodup_listEnabled (nodup_applyRoutes now h hS)
  have := hids.map (Option.some_injective Nat)
  rw [map_map] at this
  exact this

lemma exists_routeIdMap {i : Nat} (hi : i ∈ S.routes.map (·.id)) :
    ∃ a, routeIdMap now S t i = some a := by
  have hu := routeUpsert_lawful now (remapUpstream S.upstreams (upstreamIdMap now S t))
  obtain ⟨r, hr, rfl⟩ := mem_map.mp hi
  obtain ⟨-, -, hmap⟩ := routePass_spec now S t h hS.routeIds
  rw [hmap r hr]
  exact exists_firstId_run hu h.routeIds hr

lemma routeIdMap_injOn {i j : Nat} (hi : i ∈ S.routes.map (·.id)) (hj : j ∈ S.routes.map (·.id))
    (heq : (routeIdMap now S t i).getD 0 = (routeIdMap now S t j).getD 0) : i = j := by
  obtain ⟨a, ha⟩ := exists_routeIdMap now h hS hi
  obtain ⟨b, hb⟩ := exists_routeIdMap now h hS hj
  obtain ⟨r, hr, rfl⟩ := mem_map.mp hi
  obtain ⟨q, hq, rfl⟩ := mem_map.mp hj
  have hsame : routeIdMap now S t r.id = routeIdMap now S t q.id := by
    rw [ha, hb] at heq ⊢
    exact congrArg some heq
  rw [inj_on_of_nodup_map (nodup_routeIdMap now h hS) hr hq hsame]

lemma routeIdMap_of_mem_bindingItems {x : Nat × PluginBindingDto}
    (hx : x ∈ bindingItems (routeIdMap now S t) S.pluginBindings) :
    routeIdMap now S t x.2.routeId = some x.1 := by
  obtain ⟨b, hb, rfl⟩ := mem_map.mp hx
  obtain ⟨a, ha⟩ := exists_routeIdMap now h hS (hS.bindingRoutes b hb)
  simp [ha]

lemma nodup_bindingItems :
    ((bindingItems (routeIdMap now S t) S.pluginBindings).map
      (bindingUpsert now).itemKey).Nodup := by
  have hsplit : (bindingItems (routeIdMap now S t) S.pluginBindings).map (bindingUpsert now).itemKey
      = (S.pluginBindings.map fun b => (b.routeId, b.pluginName)).map fun k =>
        ((routeIdMap now S t k.1).getD 0, k.2) := by
    rw [bindingItems, map_map, map_map]
    rfl
  rw [hsplit]
  refine hS.bindingKeys.map_on ?_
  intro k hk l hl heq
  obtain ⟨b, hb, rfl⟩ := mem_map.mp hk
  obtain ⟨c, hc, rfl⟩ := mem_map.mp hl
  obtain ⟨hid, hname⟩ := Prod.mk.inj heq
  have hroute := routeIdMap_injOn now h hS (hS.bindingRoutes b hb) (hS.bindingRoutes c hc) hid
  exact Prod.ext hroute hname

lemma BindingRow.view_of_wrote {x : Nat × PluginBindingDto} {m : BindingRow}
    (hx : x ∈ bindingItems (routeIdMap now S t) S.pluginBindings)
    (hwrote : (bindingUpsert now).Wrote x m)
    (hkey : (bindingUpsert now).rowKey m = (bindingUpsert now).itemKey x) :
    m.toDto.view some = x.2.view (routeIdMap now S t) := by
  have hid := routeIdMap_of_mem_bindingItems now h hS hx
  obtain ⟨hroute, hname⟩ := Prod.mk.inj hkey
  rcases hwrote with ⟨m', rfl⟩ | ⟨i, rfl⟩
  · simp only [bindingUpsert, PluginBindingDto.writeTo] at hroute hname
    simp [bindingUpsert, PluginBindingDto.writeTo, toDto, PluginBindingDto.view, hid, hroute, hname]
  · simp [bindingUpsert, PluginBindingDto.toCreate, BindPluginDto.toRow, toDto,
      PluginBindingDto.view, hid]

lemma mem_keptRoutes_iff (i : Nat) :
    i ∈ (applyRoutes now S t).listEnabled.map (·.id) ↔
      i ∈ S.routes.filterMap fun r => routeIdMap now S t r.id := by
  have hperm := (map_id_applyRoutes now h hS).filterMap id
  rw [filterMap_map, filterMap_map] at hperm
  have := hperm.mem_iff (a := i)
  simpa using this

lemma bindings_applyRoutes :
    ((applyRoutes now S t).bindings.map (·.id)).Nodup ∧
      ((live (applyRoutes now S t).bindings).map (bindingUpsert now).rowKey).Nodup := by
  obtain ⟨-, hbindings, -⟩ := routePass_spec now S t h hS.routeIds
  rw [applyRoutes, dropRoutes, hbindings]
  refine ⟨?_, ?_⟩
  · exact nodup_softDelete (ρ := BindingRow) h.bindingIds
  · rw [live_softDelete]
    exact (filter_sublist.map _).nodup h.bindingKeys

section

variable {desired : List (Nat × String)}
  (hdesired : ∀ k, k ∈ desired ↔
    k ∈ (bindingItems (routeIdMap now S t) S.pluginBindings).map (bindingUpsert now).itemKey)
include hdesired

lemma binding_collected_iff {m : BindingRow}
    (hm : m ∈ live ((bindingUpsert now).run (applyRoutes now S t).bindings
      (bindingItems (routeIdMap now S t) S.pluginBindings))) :
    (m.routeId ∈ (applyRoutes now S t).listEnabled.map (·.id) ∧ m.enabled = true ∧
      (m.routeId ∈ (S.routes.filterMap fun r => routeIdMap now S t r.id) →
        (m.routeId, m.pluginName) ∈ desired)) ↔
    (bindingUpsert now).rowKey m ∈ (bindingItems (routeIdMap now S t) S.pluginBindings).map
      (bindingUpsert now).itemKey := by
  obtain ⟨hids, hlive⟩ := bindings_applyRoutes now h hS
  rw [mem_keptRoutes_iff now h hS, hdesired]
  constructor
  · rintro ⟨hroute, -, himp⟩
    exact himp hroute
  · intro hkey
    obtain ⟨x, hx, heq, hwrote⟩ := wrote_of_mem (bindingUpsert_lawful now) hids
      (nodup_bindingItems now h hS) hlive hm hkey
    have hid := routeIdMap_of_mem_bindingItems now h hS hx
    obtain ⟨b, hb, rfl⟩ := mem_map.mp hx
    refine ⟨?_, ?_, fun _ => hkey⟩
    · obtain ⟨r, hr, hrb⟩ := mem_map.mp (hS.bindingRoutes b hb)
      rw [← (Prod.mk.inj heq).1]
      exact mem_filterMap.mpr ⟨r, hr, hrb ▸ hid⟩
    · rw [← hS.bindingsEnabled b hb]
      rcases hwrote with ⟨m', rfl⟩ | ⟨i, rfl⟩ <;> rfl

lemma bindings_restored :
    let rows := (bindingUpsert now).run (applyRoutes now S t).bindings
      (bindingItems (routeIdMap now S t) S.pluginBindings)
    let t' := { applyRoutes now S t with
      bindings := dropBindings now S.routes (routeIdMap now S t) desired rows }
    (t'.collect.pluginBindings.map (·.view some)).Perm
      (S.pluginBindings.map (·.view (routeIdMap now S t))) := by
  intro rows t'
  have hu := bindingUpsert_lawful now
  obtain ⟨hids, hlive⟩ := bindings_applyRoutes now h hS
  have hcollected := collect_pluginBindings_perm (t := t')
    (nodup_listEnabled (nodup_applyRoutes now h hS))
  have hviews := map_filter_keys_perm (V := fun m => m.toDto.view some)
    (W := fun x => x.2.view (routeIdMap now S t)) hu hids (nodup_bindingItems now h hS) hlive (by
      intro x hx m hm hwrote
      apply view_of_wrote now h hS hx hwrote
      exact rowKey_of_mem_rowsOf (hm ▸ mem_cons_self))
  refine (hcollected.map _).trans ?_
  rw [map_map]
  refine .trans (.of_eq (congrArg _ ?_)) (hviews.trans (.of_eq ?_))
  · rw [select, show live t'.bindings = _ from live_softDelete, filter_filter, filter_filter]
    apply filter_congr
    intro m hm
    rw [Bool.eq_iff_iff, contains_iff_mem, ← binding_collected_iff now h hS hdesired hm]
    simp only [Bool.and_eq_true, Bool.not_eq_true', Bool.and_eq_false_imp, Bool.not_eq_false',
      contains_iff_mem, and_assoc]
    rfl
  · rw [bindingItems, map_map]
    rfl

end

/-! ### The whole snapshot -/

/-- What applying a coherent snapshot leaves: the last pass only writes bindings. -/
lemma applySnapshot_eq :
    ∃ desired, applySnapshot now S t = .ok { applyRoutes now S t with
        bindings := dropBindings now S.routes (routeIdMap now S t) desired
          ((bindingUpsert now).run (applyRoutes now S t).bindings
            (bindingItems (routeIdMap now S t) S.pluginBindings)) } ∧
      ∀ k, k ∈ desired ↔ k ∈ (bindingItems (routeIdMap now S t) S.pluginBindings).map
        (bindingUpsert now).itemKey := by
  obtain ⟨desired, hpass, hdesired⟩ := upsertBindings_eq now
    (fun x hx => routeIdMap_of_mem_bindingItems now h hS hx) ((applyRoutes now S t).bindings, [])
  have hbindings : (bindingItems (routeIdMap now S t) S.pluginBindings).map (·.2) =
      S.pluginBindings := by
    rw [bindingItems, map_map]
    exact map_id _
  rw [hbindings] at hpass
  refine ⟨desired, ?_, by simpa using hdesired⟩
  rw [applySnapshot, hpass]
  rfl

lemma applySnapshot_ok :
    ∃ t', applySnapshot now S t = .ok t' ∧
      t'.listEnabled = (applyRoutes now S t).listEnabled ∧
      t'.listAll = (applyUpstreams now S t).listAll ∧
      (t'.collect.pluginBindings.map (·.view some)).Perm
        (S.pluginBindings.map (·.view (routeIdMap now S t))) := by
  obtain ⟨desired, hok, hdesired⟩ := applySnapshot_eq now h hS
  exact ⟨_, hok, rfl, listAll_applyRoutes now S t, bindings_restored now h hS hdesired⟩

end Routes

end Passes

/-- The snapshots that a database can take back. -/
@[mk_iff]
structure Restorable (S : ConfigSnapshot) (t : Tables) : Prop where
  names : (S.upstreams.map (·.name)).Nodup
  rows : ∀ up ∈ S.upstreams, (select (·.name == up.name) t.upstreams).length = 1 ∨
    select (·.name == up.name) t.upstreams = [] ∧ up.nodes = []
  routes : ∀ r ∈ S.routes, ∀ i ∈ r.upstreamId, i ∈ S.upstreams.map (·.id)

instance (S : ConfigSnapshot) (t : Tables) : Decidable (Restorable S t) :=
  decidable_of_iff' _ (restorable_iff S t)

def publishedTables : Tables where
  routes := [toRow ⟨"users", .http, ⟨.exact "/users", none, none, [], []⟩, none,
    some 1, none, none, none, none⟩ 0 1]
  upstreams := [CreateUpstreamDto.toRow ⟨"users", .roundRobin, none, []⟩ 0 1]
  nodes := [CreateUpstreamNodeDto.toRow ⟨"10.0.0.1:80", none, none⟩ 0 1 1]
  bindings := []

def tablesWithoutRoute : Tables :=
  { publishedTables with routes := softDelete 1 (fun _ => true) publishedTables.routes }

def tablesWithoutUpstream : Tables :=
  { tablesWithoutRoute with
    upstreams := softDelete 2 (fun _ => true) publishedTables.upstreams
    nodes := softDelete 2 (fun _ => true) publishedTables.nodes }

lemma publishedTables_wellFormed : publishedTables.WellFormed := by decide

end Conrogate
