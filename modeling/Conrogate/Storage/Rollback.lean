import Conrogate.Storage.RoundTrip

/-!
# Writing back what is there

Upstreams are found by their names, so the first of several with one name takes what the last has.
What is not in the snapshot is deleted.
-/

namespace Conrogate

open SoftTable List Upsert Tables RouteDto BindingRow

def RouteRow.untimed (m : RouteRow) : RouteRow :=
  { m with
    protocol := protocolToI16 (i16ToProtocol m.protocol)
    createdAt := 0
    updatedAt := 0 }

/-- The live rows without their times, in no order. -/
structure Content where
  upstreams : Multiset UpstreamView
  routes : Multiset RouteRow
  bindings : Multiset PluginBindingDto

def Tables.content (t : Tables) : Content where
  upstreams := (live t.upstreams).map (UpstreamRow.view t.nodes)
  routes := (live t.routes).map RouteRow.untimed
  bindings := (live t.bindings).map BindingRow.toDto

def UpstreamRow.Agree (nodes : List NodeRow) (m q : UpstreamRow) : Prop :=
  i16ToAlgorithm m.algorithm = i16ToAlgorithm q.algorithm ∧ m.retryEnabled = q.retryEnabled ∧
    ((nodesOf m.id nodes).map NodeRow.view : Multiset NodeView) =
      (nodesOf q.id nodes).map NodeRow.view

instance (nodes : List NodeRow) (m q : UpstreamRow) : Decidable (m.Agree nodes q) :=
  inferInstanceAs (Decidable (_ ∧ _ ∧ _))

/-- Tables that can be written back to themselves. -/
@[mk_iff]
structure Tables.Settled (t : Tables) : Prop where
  upstreams : ∀ m ∈ live t.upstreams,
    ∀ first ∈ (select (·.name == m.name) t.upstreams).head?,
    ∀ last ∈ (select (·.name == m.name) t.upstreams).getLast?, first.Agree t.nodes last
  conditions : ∀ r ∈ live t.routes, r.enabled = true → r.matchConditions.isSome = true
  routes : ∀ r ∈ live t.routes, r.enabled = true → ∀ i ∈ r.upstreamId,
    ∃ m ∈ live t.upstreams, m.id = i ∧ selectOne (·.name == m.name) t.upstreams = some m
  bindings : ∀ b ∈ live t.bindings, ∀ r ∈ live t.routes, r.id = b.routeId →
    r.enabled = true → b.enabled = true

instance (t : Tables) : Decidable t.Settled := decidable_of_iff' _ (t.settled_iff)

section Self

variable (now : Time) {t : Tables} (h : t.WellFormed)

/-! ### Upstreams -/

lemma Tables.filter_name_listAll (t : Tables) (name : String) :
    t.listAll.filter (·.name == name) =
      (select (·.name == name) t.upstreams).map fun m => m.toDto (t.loadNodes m.id) := by
  rw [listAll, filter_map]
  rfl

lemma Tables.mem_names_listAll {name : String} :
    name ∈ t.listAll.map (·.name) ↔ name ∈ (live t.upstreams).map (·.name) := by
  rw [listAll, map_map]
  rfl

lemma UpstreamRow.view_writeTo_iff {nodes nodes' : List NodeRow} {m q : UpstreamRow}
    (hnodes : (nodesOf m.id nodes').map NodeRow.view = (nodesOf q.id nodes).map NodeRow.view) :
    ((q.toDto (nodesOf q.id nodes)).writeTo now m).view nodes' = m.view nodes ↔
      m.Agree nodes q := by
  simp only [UpstreamRow.view, UpstreamDto.writeTo, UpstreamRow.toDto, hnodes,
    i16ToAlgorithm_algorithmToI16, UpstreamView.mk.injEq, true_and, UpstreamRow.Agree]
  constructor
  · rintro ⟨halgorithm, hretry, hsame⟩
    exact ⟨halgorithm.symm, hretry.symm, hsame.symm⟩
  · rintro ⟨halgorithm, hretry, hsame⟩
    exact ⟨halgorithm.symm, hretry.symm, hsame.symm⟩

include h

lemma upstreams_named_kept_iff (name : String) :
    (((upstreamUpsert now).rowsOf name (upstreamPass now t.collect t).upstreams).map
        (UpstreamRow.view (upstreamPass now t.collect t).nodes) : Multiset UpstreamView) =
      ((upstreamUpsert now).rowsOf name t.upstreams).map (UpstreamRow.view t.nodes) ↔
    ∀ first ∈ (select (·.name == name) t.upstreams).head?,
      ∀ last ∈ (select (·.name == name) t.upstreams).getLast?, first.Agree t.nodes last := by
  have hsel : select (·.name == name) t.upstreams = (upstreamUpsert now).rowsOf name t.upstreams :=
    rfl
  cases hrows : (upstreamUpsert now).rowsOf name t.upstreams with
  | nil =>
    have hname : name ∉ t.listAll.map (·.name) := by
      intro hmem
      obtain ⟨m, hm, rfl⟩ := mem_map.mp (mem_names_listAll.mp hmem)
      have := mem_rowsOf_self (u := upstreamUpsert now) hm
      exact not_mem_nil (hrows ▸ this)
    have hpass := rowsOf_run_of_notMem (upstreamUpsert_lawful now) h.upstreamIds hname
    rw [(upstreamPass_spec now t.collect t h.upstreamIds).1, hsel, hrows]
    simp only [collect, hpass, hrows]
    simp
  | cons m rest =>
    obtain ⟨(hfirst :
        (upstreamUpsert now).rowsOf name (upstreamPass now t.collect t).upstreams = _),
      (hnodes : (nodesOf m.id (upstreamPass now t.collect t).nodes).map _ = _), hrest⟩ :=
      upsertUpstreams_last now (s := (t, fun _ => none)) ⟨h.upstreamIds, h.nodeUpstreams⟩
        t.listAll hrows
    obtain ⟨last, hlast⟩ : ∃ last, (m :: rest).getLast? = some last := ⟨_, getLast?_cons⟩
    have hdto : (t.listAll.filter (·.name == name)).getLast? =
        some (last.toDto (t.loadNodes last.id)) := by
      rw [t.filter_name_listAll, hsel, hrows, getLast?_map, hlast, Option.map_some]
    rw [hdto] at hfirst hnodes
    have hview : rest.map (UpstreamRow.view (upstreamPass now t.collect t).nodes) =
        rest.map (UpstreamRow.view t.nodes) := by
      apply map_congr_left
      intro r hr
      simp only [UpstreamRow.view]
      rw [show nodesOf r.id (upstreamPass now t.collect t).nodes = nodesOf r.id t.nodes from
        hrest r hr]
    have hsame : (nodesOf m.id (upstreamPass now t.collect t).nodes).map NodeRow.view =
        (nodesOf last.id t.nodes).map NodeRow.view := by
      rw [hnodes, Option.elim_some, UpstreamRow.toDto, map_map]
      rfl
    rw [hfirst, hsel, hrows, map_cons, map_cons, hview, ← Multiset.cons_coe,
      ← Multiset.cons_coe, Multiset.cons_inj_left]
    refine (UpstreamRow.view_writeTo_iff now hsame).trans ?_
    simp [hlast]

lemma upstreams_kept_iff :
    ((live (applyUpstreams now t.collect t).upstreams).map
        (UpstreamRow.view (applyUpstreams now t.collect t).nodes) : Multiset UpstreamView) =
      (live t.upstreams).map (UpstreamRow.view t.nodes) ↔
    ∀ m ∈ live t.upstreams, ∀ first ∈ (select (·.name == m.name) t.upstreams).head?,
      ∀ last ∈ (select (·.name == m.name) t.upstreams).getLast?, first.Agree t.nodes last := by
  have hnames : ∀ m ∈ live (upstreamPass now t.collect t).upstreams,
      (t.collect.upstreams.map (·.name)).contains m.name = true := by
    intro m hm
    rw [contains_iff_mem]
    by_contra hname
    rw [(upstreamPass_spec now t.collect t h.upstreamIds).1] at hm
    have hold :=
      (mem_live_run_of_notMem (upstreamUpsert_lawful now) h.upstreamIds hname).mp hm
    exact hname (mem_names_listAll.mpr (mem_map_of_mem hold))
  rw [← map_view_listAll, map_view_applyUpstreams now h.upstreamIds]
  rw [filter_eq_self.mpr hnames,
    map_live_eq_iff (u := upstreamUpsert now) UpstreamView.name (fun _ => rfl) fun _ => rfl]
  constructor
  · intro hall m _
    exact (upstreams_named_kept_iff now h m.name).mp (hall m.name)
  · intro hall name
    refine (upstreams_named_kept_iff now h name).mpr ?_
    intro first hfirst
    have hmem := mem_filter.mp (mem_of_mem_head? hfirst)
    have := hall first hmem.1
    rw [beq_iff_eq.mp hmem.2] at this
    exact this first hfirst

/-! ### Routes -/

omit h in
lemma RouteRow.exists_toDto_iff {m : RouteRow} :
    (∃ r, m.toDto = some r) ↔ m.matchConditions.isSome = true := by
  rw [← Option.isSome_iff_exists, RouteRow.toDto, Option.isSome_map]

omit h in
lemma Tables.mem_listEnabled {r : RouteDto} :
    r ∈ t.listEnabled ↔ ∃ m ∈ live t.routes, m.enabled = true ∧ m.toDto = some r := by
  rw [t.listEnabled_perm.mem_iff, mem_filterMap]
  simp only [select, mem_filter, and_assoc]

lemma named_route_iff {m : RouteRow} (hm : m ∈ live t.routes) :
    m.name ∈ t.collect.routes.map (·.name) ↔ m.enabled = true ∧ ∃ r, m.toDto = some r := by
  constructor
  · intro hname
    obtain ⟨r, hr, heq⟩ := mem_map.mp hname
    obtain ⟨q, hq, henabled, hdto⟩ := mem_listEnabled.mp hr
    have hsame : q.name = m.name := (RouteRow.toDto_eq_some hdto).2.1.symm.trans heq
    obtain rfl := inj_on_of_nodup_map h.routeNames hq hm hsame
    exact ⟨henabled, r, hdto⟩
  · rintro ⟨henabled, r, hdto⟩
    have hr : r ∈ t.collect.routes := mem_listEnabled.mpr ⟨m, hm, henabled, hdto⟩
    exact (RouteRow.toDto_eq_some hdto).2.1 ▸ mem_map_of_mem hr

lemma rowsOf_route {m : RouteRow} (hm : m ∈ live t.routes) :
    (routePass now t.collect t).rowsOf m.name t.routes = [m] :=
  rowsOf_self (u := routePass now t.collect t) h.routeNames hm

lemma rowsOf_applyRoutes (name : String) :
    (routePass now t.collect t).rowsOf name (applyRoutes now t.collect t).routes =
      ((routePass now t.collect t).rowsOf name
        ((routePass now t.collect t).run t.routes t.collect.routes)).filter fun m =>
          !(m.enabled && !(t.collect.routes.map (·.name)).contains m.name) := by
  obtain ⟨hrows, -, -⟩ := routePass_spec now t.collect t h h.collect_coherent.routeIds
  have hids : ((upsertRoutes now t.collect (upstreamIdMap now t.collect t)
      (applyUpstreams now t.collect t)).1.routes.map (·.id)).Nodup := by
    rw [hrows]
    exact nodup_run (routeUpsert_lawful now _) h.routeIds _
  rw [rowsOf, select, applyRoutes, live_dropRoutes now hids, hrows, rowsOf, select,
    filter_filter, filter_filter]
  apply filter_congr
  intro m _
  rw [Bool.and_comm]

lemma rowsOf_applyRoutes_of_read {m : RouteRow} {r : RouteDto} (hm : m ∈ live t.routes)
    (henabled : m.enabled = true) (hdto : m.toDto = some r) :
    (routePass now t.collect t).rowsOf m.name (applyRoutes now t.collect t).routes =
      [r.writeTo now (remapUpstream t.collect.upstreams (upstreamIdMap now t.collect t) r) m] := by
  have hr : r ∈ t.collect.routes := mem_listEnabled.mpr ⟨m, hm, henabled, hdto⟩
  have hname : r.name = m.name := (RouteRow.toDto_eq_some hdto).2.1
  have hrun := (rowsOf_run (routeUpsert_lawful now _) h.routeIds
    h.collect_coherent.routeNames hr).1 m [] (by
      rw [show (routeUpsert now _).itemKey r = m.name from hname]
      exact rowsOf_route now h hm)
  have hwritten : (routePass now t.collect t).rowsOf m.name
      ((routePass now t.collect t).run t.routes t.collect.routes) = [r.writeTo now
        (remapUpstream t.collect.upstreams (upstreamIdMap now t.collect t) r) m] :=
    hname ▸ hrun
  have hkept := (named_route_iff h hm).mpr ⟨henabled, r, hdto⟩
  rw [rowsOf_applyRoutes now h, hwritten, filter_eq_self]
  intro q hq
  rw [mem_singleton.mp hq, writeTo, contains_iff_mem.mpr hkept, Bool.not_true,
    Bool.and_false, Bool.not_false]

lemma rowsOf_applyRoutes_of_not {m : RouteRow} (hm : m ∈ live t.routes)
    (hname : m.name ∉ t.collect.routes.map (·.name)) :
    (routePass now t.collect t).rowsOf m.name (applyRoutes now t.collect t).routes =
      if m.enabled then [] else [m] := by
  have hrun : (routePass now t.collect t).rowsOf m.name
      ((routePass now t.collect t).run t.routes t.collect.routes) = [m] :=
    (rowsOf_run_of_notMem (routeUpsert_lawful now _) h.routeIds hname).trans
      (rowsOf_route now h hm)
  rw [rowsOf_applyRoutes now h, hrun, filter_singleton, contains_eq_mem, decide_eq_false hname]
  cases m.enabled <;> rfl

omit h in
lemma RouteDto.untimed_writeTo_iff {m : RouteRow} {r : RouteDto} (hdto : m.toDto = some r)
    (upstreamId : Option Nat) :
    (r.writeTo now upstreamId m).untimed = m.untimed ↔ upstreamId = m.upstreamId := by
  obtain ⟨conditions, hconditions, rfl⟩ := Option.map_eq_some_iff.mp hdto
  simp [writeTo, RouteRow.untimed, hconditions]

lemma routes_kept_iff :
    ((live (applyRoutes now t.collect t).routes).map RouteRow.untimed : Multiset RouteRow) =
      (live t.routes).map RouteRow.untimed ↔
    ∀ m ∈ live t.routes, m.enabled = true → ∃ r, m.toDto = some r ∧
      remapUpstream t.collect.upstreams (upstreamIdMap now t.collect t) r = m.upstreamId := by
  have hname : ∀ r : RouteRow, r.untimed.name = (routePass now t.collect t).rowKey r :=
    fun _ => rfl
  rw [map_live_eq_iff RouteRow.name hname hname]
  constructor
  · intro hall m hm henabled
    have hrows := hall m.name
    rw [rowsOf_route now h hm] at hrows
    cases hdto : m.toDto with
    | none =>
      have hname : m.name ∉ t.collect.routes.map (·.name) := by
        rw [named_route_iff h hm, hdto]
        simp
      rw [rowsOf_applyRoutes_of_not now h hm hname, if_pos henabled] at hrows
      simp at hrows
    | some r =>
      rw [rowsOf_applyRoutes_of_read now h hm henabled hdto] at hrows
      refine ⟨r, rfl, (untimed_writeTo_iff now hdto _).mp ?_⟩
      simpa using hrows
  · intro hall name
    cases hrows : (routePass now t.collect t).rowsOf name t.routes with
    | nil =>
      have hname : name ∉ t.collect.routes.map (·.name) := by
        intro hmem
        obtain ⟨r, hr, rfl⟩ := mem_map.mp hmem
        obtain ⟨m, hm, -, hdto⟩ := mem_listEnabled.mp hr
        have hself := mem_rowsOf_self (u := routePass now t.collect t) hm
        rw [show (routePass now t.collect t).rowKey m = r.name from
          (RouteRow.toDto_eq_some hdto).2.1.symm, hrows] at hself
        cases hself
      have hrun := rowsOf_run_of_notMem (u := routePass now t.collect t)
        (routeUpsert_lawful now _) h.routeIds hname
      rw [rowsOf_applyRoutes now h, hrun, hrows]
      rfl
    | cons m rest =>
      obtain rfl := rowsOf_eq_singleton (u := routePass now t.collect t) h.routeNames hrows
      have hmem : m ∈ (routePass now t.collect t).rowsOf name t.routes := hrows ▸ mem_cons_self
      have hm : m ∈ live t.routes := (mem_filter.mp hmem).1
      obtain rfl : m.name = name := rowKey_of_mem_rowsOf hmem
      by_cases henabled : m.enabled = true
      · obtain ⟨r, hdto, hupstream⟩ := hall m hm henabled
        rw [rowsOf_applyRoutes_of_read now h hm henabled hdto, map_singleton,
          (untimed_writeTo_iff now hdto _).mpr hupstream, map_singleton]
      · have hname : m.name ∉ t.collect.routes.map (·.name) := by
          rw [named_route_iff h hm]
          exact fun hread => henabled hread.1
        rw [rowsOf_applyRoutes_of_not now h hm hname, if_neg henabled]

lemma upstreamIdMap_collect {m : UpstreamRow} (hm : m ∈ live t.upstreams) :
    upstreamIdMap now t.collect t m.id =
      (selectOne (·.name == m.name) t.upstreams).map (·.id) := by
  have hup : m.toDto (t.loadNodes m.id) ∈ t.collect.upstreams := mem_map_of_mem hm
  obtain ⟨hrun, -, -, hmap⟩ := upstreamPass_spec now t.collect t h.upstreamIds
  have hfirst : (upstreamUpsert now).firstId m.name t.upstreams =
      (selectOne (·.name == m.name) t.upstreams).map (·.id) := by
    rw [selectOne_eq_head?]
    rfl
  have hself := mem_rowsOf_self (u := upstreamUpsert now) hm
  cases hrows : (upstreamUpsert now).rowsOf m.name t.upstreams with
  | nil =>
    rw [show (upstreamUpsert now).rowKey m = m.name from rfl, hrows] at hself
    cases hself
  | cons q rest =>
    have hq := firstId_of_cons hrows
    refine (hmap h.collect_coherent.upstreamIds _ hup).trans ?_
    rw [hrun, ← hfirst, hq]
    exact firstId_run (upstreamUpsert_lawful now) h.upstreamIds hq

lemma remapUpstream_collect_iff {m : RouteRow} {r : RouteDto} (hdto : m.toDto = some r) :
    remapUpstream t.collect.upstreams (upstreamIdMap now t.collect t) r = m.upstreamId ↔
      ∀ i ∈ m.upstreamId, ∃ u ∈ live t.upstreams, u.id = i ∧
        selectOne (·.name == u.name) t.upstreams = some u := by
  have hsame : r.upstreamId = m.upstreamId := by
    obtain ⟨conditions, -, rfl⟩ := Option.map_eq_some_iff.mp hdto
    rfl
  rw [remapUpstream, hsame]
  cases m.upstreamId with
  | none => simp
  | some i =>
    rw [Option.bind_some]
    cases hfind : t.collect.upstreams.find? fun u => u.id == i with
    | none =>
      -- the upstream is deleted, and the route loses it
      have hnone : ∀ u ∈ live t.upstreams, u.id ≠ i := by
        intro u hu hid
        have hup : u.toDto (t.loadNodes u.id) ∈ t.collect.upstreams := mem_map_of_mem hu
        exact find?_eq_none.mp hfind _ hup (beq_iff_eq.mpr hid)
      simp only [Option.bind_none, Option.mem_def, Option.some.injEq, forall_eq', reduceCtorEq,
        false_iff]
      rintro ⟨u, hu, hid, -⟩
      exact hnone u hu hid
    | some up =>
      obtain ⟨u, hu, rfl⟩ := mem_map.mp (mem_of_find?_eq_some hfind)
      have hid := find?_some hfind
      obtain rfl : u.id = i := beq_iff_eq.mp hid
      have hmap : upstreamIdMap now t.collect t (u.toDto (t.loadNodes u.id)).id =
          (selectOne (·.name == u.name) t.upstreams).map (·.id) := upstreamIdMap_collect now h hu
      rw [Option.bind_some, hmap, Option.map_eq_some_iff]
      simp only [Option.mem_def, Option.some.injEq, forall_eq']
      constructor
      · rintro ⟨q, hq, hid⟩
        have hqlive := (mem_of_selectOne hq).1
        have hqu : q = u := inj_on_of_nodup_map h.upstreamIds (mem_live.mp hqlive).1
          (mem_live.mp hu).1 hid
        exact ⟨u, hu, rfl, hqu ▸ hq⟩
      · rintro ⟨q, hq, hid, hfirst⟩
        have hqu : q = u := inj_on_of_nodup_map h.upstreamIds (mem_live.mp hq).1
          (mem_live.mp hu).1 hid
        exact ⟨u, hqu ▸ hfirst, rfl⟩

lemma written_routes_iff :
    (∀ m ∈ live t.routes, m.enabled = true → ∃ r, m.toDto = some r ∧
      remapUpstream t.collect.upstreams (upstreamIdMap now t.collect t) r = m.upstreamId) ↔
    (∀ r ∈ live t.routes, r.enabled = true → r.matchConditions.isSome = true) ∧
      ∀ r ∈ live t.routes, r.enabled = true → ∀ i ∈ r.upstreamId,
        ∃ m ∈ live t.upstreams, m.id = i ∧ selectOne (·.name == m.name) t.upstreams = some m := by
  simp only [← forall_and]
  refine forall₃_congr fun m _ _ => ?_
  constructor
  · rintro ⟨r, hdto, hremap⟩
    exact ⟨RouteRow.exists_toDto_iff.mp ⟨r, hdto⟩, (remapUpstream_collect_iff now h hdto).mp hremap⟩
  · rintro ⟨hread, hupstream⟩
    obtain ⟨r, hdto⟩ := RouteRow.exists_toDto_iff.mpr hread
    exact ⟨r, hdto, (remapUpstream_collect_iff now h hdto).mpr hupstream⟩

/-! ### Bindings -/

lemma mem_collect_pluginBindings_iff {b : PluginBindingDto} :
    b ∈ t.collect.pluginBindings ↔ ∃ m ∈ live t.bindings, m.enabled = true ∧
      m.routeId ∈ t.collect.routes.map (·.id) ∧ m.toDto = b := by
  rw [(collect_pluginBindings_perm h.collect_coherent.routeIds).mem_iff]
  simp only [select, mem_map, mem_filter, contains_iff_mem, and_assoc]
  rfl

lemma routeIdMap_collect {i : Nat} (hi : i ∈ t.collect.routes.map (·.id)) :
    routeIdMap now t.collect t i = some i := by
  obtain ⟨r, hr, rfl⟩ := mem_map.mp hi
  obtain ⟨m, hm, -, hdto⟩ := mem_listEnabled.mp hr
  obtain ⟨hid, hname, -⟩ := RouteRow.toDto_eq_some hdto
  obtain ⟨-, -, hmap⟩ := routePass_spec now t.collect t h h.collect_coherent.routeIds
  rw [hmap r hr, hid, hname]
  exact firstId_run (routeUpsert_lawful now _) h.routeIds
    (firstId_of_cons (rowsOf_route now h hm))

lemma mem_itemKeys_iff (k : Nat × String) :
    k ∈ (bindingItems (routeIdMap now t.collect t) t.collect.pluginBindings).map
        (bindingUpsert now).itemKey ↔
      ∃ m ∈ live t.bindings, m.enabled = true ∧ m.routeId ∈ t.collect.routes.map (·.id) ∧
        (m.routeId, m.pluginName) = k := by
  rw [bindingItems, map_map, mem_map]
  constructor
  · rintro ⟨b, hb, rfl⟩
    obtain ⟨m, hm, henabled, hroute, rfl⟩ := (mem_collect_pluginBindings_iff h).mp hb
    refine ⟨m, hm, henabled, hroute, ?_⟩
    have hid : routeIdMap now t.collect t m.toDto.routeId = some m.routeId :=
      routeIdMap_collect now h hroute
    simp only [Function.comp_apply, bindingUpsert, hid, Option.getD_some]
    rfl
  · rintro ⟨m, hm, henabled, hroute, rfl⟩
    have hid : routeIdMap now t.collect t m.toDto.routeId = some m.routeId :=
      routeIdMap_collect now h hroute
    refine ⟨m.toDto, (mem_collect_pluginBindings_iff h).mpr ⟨m, hm, henabled, hroute, rfl⟩, ?_⟩
    simp only [Function.comp_apply, bindingUpsert, hid, Option.getD_some]
    rfl

section

variable (hread : ∀ r ∈ live t.routes, r.enabled = true → r.matchConditions.isSome = true)
include hread

lemma live_applyRoutes_bindings :
    live (applyRoutes now t.collect t).bindings = live t.bindings := by
  obtain ⟨hrows, hbindings, -⟩ := routePass_spec now t.collect t h h.collect_coherent.routeIds
  rw [applyRoutes, dropRoutes, hbindings, hrows, live_softDelete, filter_eq_self]
  intro b _
  rw [Bool.not_eq_true', contains_eq_mem, decide_eq_false_iff_not]
  intro hgone
  obtain ⟨r, hr, -⟩ := mem_map.mp hgone
  obtain ⟨hlive, hout⟩ := mem_filter.mp hr
  rw [Bool.and_eq_true, Bool.not_eq_true', contains_eq_mem, decide_eq_false_iff_not] at hout
  have hold : r ∈ live t.routes :=
    (mem_live_run_of_notMem (routeUpsert_lawful now _) h.routeIds hout.2).mp hlive
  have hnamed := RouteRow.exists_toDto_iff.mpr (hread r hold hout.1)
  exact hout.2 ((named_route_iff h hold).mpr ⟨hout.1, hnamed⟩)

lemma map_toDto_run (k : Nat × String) :
    ((bindingUpsert now).rowsOf k ((bindingUpsert now).run (applyRoutes now t.collect t).bindings
      (bindingItems (routeIdMap now t.collect t) t.collect.pluginBindings))).map toDto =
      ((bindingUpsert now).rowsOf k t.bindings).map toDto := by
  have hS := h.collect_coherent
  have hu := bindingUpsert_lawful now
  obtain ⟨hids, -⟩ := bindings_applyRoutes now h hS
  have hbefore : (bindingUpsert now).rowsOf k (applyRoutes now t.collect t).bindings =
      (bindingUpsert now).rowsOf k t.bindings := by
    rw [rowsOf, select, live_applyRoutes_bindings now h hread]
    rfl
  by_cases hk : k ∈ (bindingItems (routeIdMap now t.collect t) t.collect.pluginBindings).map
      (bindingUpsert now).itemKey
  · obtain ⟨x, hx, rfl⟩ := mem_map.mp hk
    obtain ⟨b, hb, hxb⟩ := mem_map.mp hx
    obtain ⟨m, hm, henabled, hroute, hdto⟩ := (mem_collect_pluginBindings_iff h).mp hb
    have hkey : (bindingUpsert now).itemKey x = (m.routeId, m.pluginName) := by
      have hid : routeIdMap now t.collect t m.toDto.routeId = some m.routeId :=
        routeIdMap_collect now h hroute
      rw [← hxb, ← hdto]
      simp only [bindingUpsert, hid, Option.getD_some]
      rfl
    have hself : (bindingUpsert now).rowsOf (m.routeId, m.pluginName) t.bindings = [m] :=
      rowsOf_self (u := bindingUpsert now) h.bindingKeys hm
    rw [hkey] at hbefore ⊢
    have hrun := (rowsOf_run hu hids (nodup_bindingItems now h hS) hx).1 m [] (by
      rw [hkey, hbefore, hself])
    rw [hkey] at hrun
    rw [hrun, hself, ← hxb, ← hdto]
    rfl
  · rw [rowsOf_run_of_notMem hu hids hk, hbefore]

end

omit h in
lemma rowsOf_dropBindings (routes : List RouteDto) (routeIds : IdMap)
    (desired : List (Nat × String)) (rows : List BindingRow) (k : Nat × String) :
    (bindingUpsert now).rowsOf k (dropBindings now routes routeIds desired rows) =
      if (routes.filterMap fun r => routeIds r.id).contains k.1 && !desired.contains k then []
      else (bindingUpsert now).rowsOf k rows := by
  rw [dropBindings]
  exact rowsOf_softDelete (u := bindingUpsert now) (q := fun k : Nat × String =>
    (routes.filterMap fun r => routeIds r.id).contains k.1 && !desired.contains k) fun _ => rfl

lemma bindings_kept_iff
    (hread : ∀ r ∈ live t.routes, r.enabled = true → r.matchConditions.isSome = true)
    {desired : List (Nat × String)}
    (hdesired : ∀ k, k ∈ desired ↔ k ∈ (bindingItems (routeIdMap now t.collect t)
      t.collect.pluginBindings).map (bindingUpsert now).itemKey) :
    ((live (dropBindings now t.collect.routes (routeIdMap now t.collect t) desired
        ((bindingUpsert now).run (applyRoutes now t.collect t).bindings
          (bindingItems (routeIdMap now t.collect t) t.collect.pluginBindings)))).map
            toDto : Multiset PluginBindingDto) =
      (live t.bindings).map toDto ↔
    ∀ m ∈ live t.bindings, m.routeId ∈ t.collect.routes.map (·.id) → m.enabled = true := by
  have hkey : ∀ m : BindingRow, (m.toDto.routeId, m.toDto.pluginName) =
      (bindingUpsert now).rowKey m := fun _ => rfl
  have hkept : ∀ i, i ∈ (t.collect.routes.filterMap fun r => routeIdMap now t.collect t r.id) ↔
      i ∈ t.collect.routes.map (·.id) := by
    intro i
    rw [mem_filterMap, mem_map]
    refine exists_congr fun r => and_congr_right fun hr => ?_
    rw [routeIdMap_collect now h (mem_map_of_mem hr), Option.some.injEq]
  rw [map_live_eq_iff (u := bindingUpsert now)
    (fun b : PluginBindingDto => (b.routeId, b.pluginName)) hkey hkey]
  constructor
  · intro hall m hm hroute
    have hself : (bindingUpsert now).rowsOf (m.routeId, m.pluginName) t.bindings = [m] :=
      rowsOf_self (u := bindingUpsert now) h.bindingKeys hm
    have hrows := hall (m.routeId, m.pluginName)
    rw [rowsOf_dropBindings, hself] at hrows
    split_ifs at hrows with hout
    · simp at hrows
    · rw [contains_iff_mem.mpr ((hkept _).mpr hroute), Bool.true_and, Bool.not_eq_true',
        Bool.not_eq_false, contains_iff_mem, hdesired, mem_itemKeys_iff now h] at hout
      obtain ⟨q, hq, henabled, -, heq⟩ := hout
      exact inj_on_of_nodup_map h.bindingKeys hq hm heq ▸ henabled
  · intro hall k
    rw [rowsOf_dropBindings]
    split_ifs with hout
    · -- a row that is deleted would be a disabled binding
      have hnil : (bindingUpsert now).rowsOf k t.bindings = [] := by
        rw [eq_nil_iff_forall_not_mem]
        intro m hmem
        have hm : m ∈ live t.bindings := (mem_filter.mp hmem).1
        obtain rfl : (m.routeId, m.pluginName) = k := rowKey_of_mem_rowsOf hmem
        rw [Bool.and_eq_true, contains_iff_mem, hkept, Bool.not_eq_true',
          contains_eq_mem, decide_eq_false_iff_not, hdesired, mem_itemKeys_iff now h] at hout
        exact hout.2 ⟨m, hm, hall m hm hout.1, hout.1, rfl⟩
      rw [hnil]
    · rw [map_toDto_run now h hread k]

theorem applySnapshot_collect_iff {t' : Tables} (hok : applySnapshot now t.collect t = .ok t') :
    t'.content = t.content ↔ t.Settled := by
  obtain ⟨desired, happly, hdesired⟩ := applySnapshot_eq now h h.collect_coherent
  obtain rfl := Except.ok.inj (happly.symm.trans hok)
  obtain ⟨hupstreams, hnodes⟩ := applyRoutes_upstreams now t.collect t
  simp only [content, Content.mk.injEq, hupstreams, hnodes]
  rw [upstreams_kept_iff now h, routes_kept_iff now h, settled_iff]
  refine and_congr_right fun _ => ?_
  rw [written_routes_iff now h, and_assoc]
  refine and_congr_right fun hread => and_congr_right fun _ => ?_
  rw [bindings_kept_iff now h hread hdesired]
  refine forall₂_congr fun b _ => ?_
  constructor
  · intro hall r hr hid henabled
    obtain ⟨d, hdto⟩ := RouteRow.exists_toDto_iff.mpr (hread r hr henabled)
    refine hall (mem_map.mpr ⟨d, mem_listEnabled.mpr ⟨r, hr, henabled, hdto⟩, ?_⟩)
    exact (RouteRow.toDto_eq_some hdto).1.trans hid
  · intro hall hroute
    obtain ⟨d, hd, hid⟩ := mem_map.mp hroute
    obtain ⟨r, hr, henabled, hdto⟩ := mem_listEnabled.mp hd
    exact hall r hr ((RouteRow.toDto_eq_some hdto).1.symm.trans hid) henabled

end Self

end Conrogate
