import Conrogate.Storage.Integrity
import Conrogate.Storage.RoundTrip
import Conrogate.Storage.UpdateFrame

/-!
# References between live rows

The foreign keys of the schema lead to rows that may be deleted. Here: for each write, when it
leaves every live route with a live upstream and every live binding with a live route.
-/

namespace Conrogate

open SoftTable List PluginBindingRepoImpl UpstreamRepoImpl RouteRepoImpl Upsert

/-- What is not deleted refers to what is not deleted. -/
@[mk_iff]
structure Tables.Linked (t : Tables) : Prop where
  routes : ∀ r ∈ live t.routes, ∀ i ∈ r.upstreamId, i ∈ (live t.upstreams).map (·.id)
  bindings : ∀ b ∈ live t.bindings, b.routeId ∈ (live t.routes).map (·.id)

instance (t : Tables) : Decidable t.Linked := decidable_of_iff' _ (t.linked_iff)

lemma Tables.empty_linked : Tables.empty.Linked := by decide

variable {backend : DatabaseBackend} {now : Time} {t t' : Tables}

/-! ### The calls of the repositories -/

section Calls

variable (h : t.Linked)

include h

lemma RouteRepoImpl.create_linked_iff {dto : CreateRouteDto} {route : RouteDto}
    (hok : backend.database.Runs (create dto) t (.ok route) t') :
    t'.Linked ↔ ∀ i ∈ dto.upstreamId, i ∈ (live t.upstreams).map (·.id) := by
  obtain ⟨now, i, rfl⟩ := of_create hok
  have hlive : live (t.routes ++ [dto.toRow now i]) = live t.routes ++ [dto.toRow now i] :=
    live_append _
  constructor
  · intro hnew
    refine hnew.routes (dto.toRow now i) ?_
    rw [hlive]
    exact mem_append_right _ mem_cons_self
  · intro hdto
    constructor
    · rw [hlive]
      exact forall_mem_append.mpr ⟨h.routes, forall_mem_singleton.mpr hdto⟩
    · intro b hb
      rw [hlive, map_append]
      exact mem_append_left _ (h.bindings b hb)

lemma RouteRepoImpl.update_linked_iff (hids : (t.routes.map (·.id)).Nodup) {dto : UpdateRouteDto}
    {route : RouteDto} (hok : backend.database.Runs (update dto) t (.ok route) t') :
    t'.Linked ↔ ∀ i ∈ dto.upstreamId, i ∈ (live t.upstreams).map (·.id) := by
  obtain ⟨m, now, hm, rfl⟩ := of_update hok
  obtain ⟨hmlive, -⟩ := mem_of_selectOne hm
  have hlive : live (SoftTable.update m.id (dto.writeTo now) t.routes) =
      SoftTable.update m.id (dto.writeTo now) (live t.routes) := live_update fun _ => rfl
  constructor
  · intro hnew i hi
    have hmem : dto.writeTo now m ∈ live (SoftTable.update m.id (dto.writeTo now) t.routes) := by
      rw [hlive]
      exact mem_map.mpr ⟨m, hmlive, if_pos rfl⟩
    refine hnew.routes _ hmem i ?_
    rw [UpdateRouteDto.writeTo, Option.mem_def.mp hi]
    rfl
  · intro hdto
    refine ⟨forall_live_update (f := dto.writeTo now) h.routes hids (fun _ => rfl)
      (mem_live.mp hmlive).1 ?_, ?_⟩
    · -- a route keeps its upstream unless it is given one
      rw [UpdateRouteDto.writeTo]
      cases hnew : dto.upstreamId with
      | none => exact h.routes m hmlive
      | some u =>
        rw [hnew] at hdto
        exact hdto
    · intro b hb
      rw [hlive, map_update]
      · exact h.bindings b hb
      · exact fun _ => rfl

lemma RouteRepoImpl.softDelete_linked_iff (hids : (t.routes.map (·.id)).Nodup) {id : Nat}
    (hok : backend.database.Runs (softDelete id) t (.ok ()) t') :
    t'.Linked ↔ ∀ b ∈ live t.bindings, b.routeId ≠ id := by
  obtain ⟨now, rfl⟩ := of_softDelete hok
  have hmem : ∀ i, i ∈ (live ((deleteWhere now (·.id == id) t.routes).apply t.routes)).map (·.id) ↔
      i ∈ (live t.routes).map (·.id) ∧ i ≠ id := by
    intro i
    rw [live_deleteWhere hids]
    simp only [mem_map, mem_filter, Bool.not_eq_true', beq_eq_false_iff_ne]
    constructor
    · rintro ⟨r, ⟨hr, hne⟩, rfl⟩
      exact ⟨⟨r, hr, rfl⟩, hne⟩
    · rintro ⟨⟨r, hr, rfl⟩, hne⟩
      exact ⟨r, ⟨hr, hne⟩, rfl⟩
  constructor
  · intro hnew b hb
    exact ((hmem _).mp (hnew.bindings b hb)).2
  · intro hnone
    refine ⟨forall_live_softDelete h.routes, ?_⟩
    intro b hb
    exact (hmem _).mpr ⟨h.bindings b hb, hnone b hb⟩

lemma Tables.Linked.of_upstreams (hroutes : t'.routes = t.routes)
    (hbindings : t'.bindings = t.bindings)
    (hkeep : ∀ r ∈ live t.routes, ∀ i ∈ r.upstreamId, i ∈ (live t.upstreams).map (·.id) →
      i ∈ (live t'.upstreams).map (·.id)) : t'.Linked := by
  constructor
  · rw [hroutes]
    exact fun r hr i hi => hkeep r hr i hi (h.routes r hr i hi)
  · rw [hroutes, hbindings]
    exact h.bindings

lemma UpstreamRepoImpl.create_linked {dto : CreateUpstreamDto} {upstream : UpstreamDto}
    (hok : backend.database.Runs (create dto) t (.ok upstream) t') : t'.Linked := by
  obtain ⟨now, i, htables⟩ := of_create hok
  rw [htables]
  refine h.of_upstreams rfl rfl ?_
  intro _ _ j _ hj
  rw [live_append, map_append]
  exact mem_append_left _ hj

lemma UpstreamRepoImpl.update_linked {dto : UpdateUpstreamDto} {upstream : UpstreamDto}
    (hok : backend.database.Runs (update dto) t (.ok upstream) t') : t'.Linked := by
  obtain ⟨m, now, -, htables, -⟩ := of_update hok
  rw [htables]
  refine h.of_upstreams rfl rfl ?_
  intro _ _ i _ hi
  rw [live_update (f := dto.writeTo now) fun _ => rfl, map_update]
  · exact hi
  · exact fun _ => rfl

lemma UpstreamRepoImpl.softDelete_linked (hids : (t.upstreams.map (·.id)).Nodup) {id : Nat}
    (hunused : listRouteBindings id t = [])
    (hok : backend.database.Runs (softDelete id) t (.ok ()) t') : t'.Linked := by
  obtain ⟨now, htables⟩ := of_softDelete hok
  rw [htables]
  refine h.of_upstreams rfl rfl ?_
  intro r hr i hi hmem
  obtain ⟨u, hu, rfl⟩ := mem_map.mp hmem
  have hne : u.id ≠ id := by
    intro heq
    have hnone := filter_eq_nil_iff.mp (map_eq_nil_iff.mp hunused) r hr
    rw [Option.mem_def.mp hi, heq] at hnone
    exact hnone (beq_self_eq_true _)
  rw [live_deleteWhere hids]
  exact mem_map_of_mem (mem_filter.mpr ⟨hu, by simpa using hne⟩)

variable {routeId : Nat} {binding : PluginBindingDto}

lemma PluginBindingRepoImpl.bind_linked_iff {dto : BindPluginDto}
    (hok : backend.database.Runs (bind routeId dto) t (.ok binding) t') :
    t'.Linked ↔ routeId ∈ (live t.routes).map (·.id) := by
  obtain ⟨now, i, rfl⟩ := of_bind hok
  constructor
  · intro hnew
    refine hnew.bindings (dto.toRow now routeId i) ?_
    rw [live_append]
    exact mem_append_right _ mem_cons_self
  · intro hroute
    refine ⟨h.routes, ?_⟩
    rw [live_append]
    exact forall_mem_append.mpr ⟨h.bindings, forall_mem_singleton.mpr hroute⟩

lemma PluginBindingRepoImpl.update_linked {pluginName : String} {dto : UpdatePluginBindingDto}
    (hok : backend.database.Runs (update routeId pluginName dto) t (.ok binding) t') :
    t'.Linked := by
  obtain ⟨m, now, -, rfl⟩ := of_update hok
  refine ⟨h.routes, ?_⟩
  rw [live_update (f := dto.writeTo now) fun _ => rfl]
  exact forall_update h.bindings fun _ hb => hb

lemma PluginBindingRepoImpl.unbind_linked {pluginName : String}
    (hok : backend.database.Runs (unbind routeId pluginName) t (.ok ()) t') : t'.Linked := by
  obtain ⟨now, p, rfl⟩ := of_unbind hok
  exact ⟨h.routes, forall_live_softDelete h.bindings⟩

end Calls

/-! ### Writing a snapshot back -/

def ConfigSnapshot.CoversDisabled (S : ConfigSnapshot) (t : Tables) : Prop :=
  ∀ r ∈ live t.routes, r.enabled = false → r.name ∉ S.routes.map (·.name) →
    ∀ m ∈ live t.upstreams, r.upstreamId = some m.id → m.name ∈ S.upstreams.map (·.name)

instance (S : ConfigSnapshot) (t : Tables) : Decidable (S.CoversDisabled t) :=
  inferInstanceAs (Decidable (∀ r ∈ live t.routes, r.enabled = false →
    r.name ∉ S.routes.map (·.name) →
    ∀ m ∈ live t.upstreams, r.upstreamId = some m.id → m.name ∈ S.upstreams.map (·.name)))

section Apply

variable {S : ConfigSnapshot} (h : t.WellFormed) (hS : S.Coherent)

include h hS

omit hS in
lemma mem_live_applyRoutes_upstreams {m : UpstreamRow} :
    m ∈ live (applyRoutes now S t).upstreams ↔
      m ∈ live ((upstreamUpsert now).run t.upstreams S.upstreams) ∧
        m.name ∈ S.upstreams.map (·.name) := by
  have hdrop : applyUpstreams now S t = dropUpstreams now S.upstreams (upstreamPass now S t) := rfl
  rw [(applyRoutes_upstreams now S t).1, hdrop,
    live_dropUpstreams now (nodup_upstreamPass now h.upstreamIds),
    (upstreamPass_spec now S t h.upstreamIds).1, mem_filter, contains_iff_mem]

lemma mem_live_applyRoutes_routes {r : RouteRow} :
    r ∈ live (applyRoutes now S t).routes ↔
      r ∈ live ((routePass now S t).run t.routes S.routes) ∧
        (r.enabled = true → r.name ∈ S.routes.map (·.name)) := by
  obtain ⟨hrows, -, -⟩ := routePass_spec now S t h hS.routeIds
  have hids : ((upsertRoutes now S (upstreamIdMap now S t) (applyUpstreams now S t)).1.routes.map
      (·.id)).Nodup := by
    rw [hrows]
    exact nodup_run (routeUpsert_lawful now _) h.routeIds _
  rw [applyRoutes, live_dropRoutes now hids, hrows, mem_filter]
  simp only [Bool.not_eq_true', Bool.and_eq_false_imp, Bool.not_eq_false', contains_iff_mem]

lemma upstreamIdMap_live {up : UpstreamDto} (hup : up ∈ S.upstreams) {i : Nat}
    (hi : upstreamIdMap now S t up.id = some i) :
    i ∈ (live (applyRoutes now S t).upstreams).map (·.id) := by
  obtain ⟨hrun, -, -, hmap⟩ := upstreamPass_spec now S t h.upstreamIds
  rw [hmap hS.upstreamIds up hup, hrun] at hi
  obtain ⟨m, hm, rfl, hname⟩ := mem_live_of_firstId hi
  refine mem_map_of_mem ((mem_live_applyRoutes_upstreams h).mpr ⟨hm, ?_⟩)
  rw [show m.name = up.name from hname]
  exact mem_map_of_mem hup

lemma routeIdMap_live {r : RouteDto} (hr : r ∈ S.routes) {i : Nat}
    (hi : routeIdMap now S t r.id = some i) :
    i ∈ (live (applyRoutes now S t).routes).map (·.id) := by
  obtain ⟨-, -, hmap⟩ := routePass_spec now S t h hS.routeIds
  rw [hmap r hr] at hi
  obtain ⟨m, hm, rfl, hname⟩ := mem_live_of_firstId hi
  refine mem_map_of_mem ((mem_live_applyRoutes_routes h hS).mpr ⟨hm, fun _ => ?_⟩)
  rw [show m.name = r.name from hname]
  exact mem_map_of_mem hr

lemma upstream_live_of_named {r : RouteRow}
    (hr : r ∈ live ((routePass now S t).run t.routes S.routes))
    (hname : r.name ∈ S.routes.map (·.name)) :
    ∀ i ∈ r.upstreamId, i ∈ (live (applyRoutes now S t).upstreams).map (·.id) := by
  have hu := routeUpsert_lawful now (remapUpstream S.upstreams (upstreamIdMap now S t))
  obtain ⟨x, -, -, hwrote⟩ :=
    wrote_of_mem hu h.routeIds hS.routeNames h.routeNames hr hname
  have hgiven : r.upstreamId = remapUpstream S.upstreams (upstreamIdMap now S t) x := by
    rcases hwrote with ⟨m, rfl⟩ | ⟨i, rfl⟩ <;> rfl
  intro i hi
  rw [hgiven] at hi
  obtain ⟨a, -, hi⟩ := Option.bind_eq_some_iff.mp hi
  obtain ⟨up, hup, hi⟩ := Option.bind_eq_some_iff.mp hi
  exact upstreamIdMap_live h hS (mem_of_find?_eq_some hup) hi

omit hS in
lemma upstream_live_iff {m : UpstreamRow} (hm : m ∈ live t.upstreams) :
    m.id ∈ (live (applyRoutes now S t).upstreams).map (·.id) ↔
      m.name ∈ S.upstreams.map (·.name) := by
  have hu := upstreamUpsert_lawful now
  obtain ⟨q, hq, hid, hname⟩ := exists_mem_live_run hu hm S.upstreams
  have hids := nodup_run hu h.upstreamIds S.upstreams
  constructor
  · intro hmem
    obtain ⟨p, hp, hpid⟩ := mem_map.mp hmem
    obtain ⟨hp, hpname⟩ := (mem_live_applyRoutes_upstreams h).mp hp
    obtain rfl : p = q := inj_on_of_nodup_map hids (mem_live.mp hp).1 (mem_live.mp hq).1
      (hpid.trans hid.symm)
    exact (show p.name = m.name from hname) ▸ hpname
  · intro hmem
    refine mem_map.mpr ⟨q, (mem_live_applyRoutes_upstreams h).mpr ⟨hq, ?_⟩, hid⟩
    exact (show q.name = m.name from hname) ▸ hmem

variable (now) in
lemma applyRoutes_routes_linked_iff (hlinked : t.Linked) :
    (∀ r ∈ live (applyRoutes now S t).routes, ∀ i ∈ r.upstreamId,
      i ∈ (live (applyRoutes now S t).upstreams).map (·.id)) ↔ S.CoversDisabled t := by
  have hu := routeUpsert_lawful now (remapUpstream S.upstreams (upstreamIdMap now S t))
  -- a route that is not named is the row it was
  have hother : ∀ r : RouteRow, r.name ∉ S.routes.map (·.name) →
      (r ∈ live ((routePass now S t).run t.routes S.routes) ↔ r ∈ live t.routes) :=
    fun r hr => mem_live_run_of_notMem hu h.routeIds hr
  constructor
  · intro hroutes r hr hdisabled hname m hm hupstream
    have hkept : r ∈ live (applyRoutes now S t).routes :=
      (mem_live_applyRoutes_routes h hS).mpr ⟨(hother r hname).mpr hr, by simp [hdisabled]⟩
    exact (upstream_live_iff h hm).mp (hroutes r hkept m.id hupstream)
  · intro hcovers r hr i hi
    obtain ⟨hrun, henabled⟩ := (mem_live_applyRoutes_routes h hS).mp hr
    by_cases hname : r.name ∈ S.routes.map (·.name)
    · exact upstream_live_of_named h hS hrun hname i hi
    · have hold := (hother r hname).mp hrun
      have hdisabled : r.enabled = false := Bool.eq_false_iff.mpr fun he => hname (henabled he)
      obtain ⟨m, hm, rfl⟩ := mem_map.mp (hlinked.routes r hold i hi)
      exact (upstream_live_iff h hm).mpr (hcovers r hold hdisabled hname m hm hi)

lemma applyRoutes_bindings_linked (hlinked : t.Linked) :
    ∀ b ∈ live (applyRoutes now S t).bindings,
      b.routeId ∈ (live (applyRoutes now S t).routes).map (·.id) := by
  intro b hb
  obtain ⟨hrows, hbindings, -⟩ := routePass_spec now S t h hS.routeIds
  have hu := routeUpsert_lawful now (remapUpstream S.upstreams (upstreamIdMap now S t))
  rw [applyRoutes, dropRoutes, hbindings, live_softDelete] at hb
  obtain ⟨hlive, hkept⟩ := mem_filter.mp hb
  obtain ⟨r, hr, hrb⟩ := mem_map.mp (hlinked.bindings b hlive)
  obtain ⟨q, hq, hid, -⟩ := exists_mem_live_run hu hr S.routes
  refine mem_map.mpr ⟨q, (mem_live_applyRoutes_routes h hS).mpr ⟨hq, ?_⟩, hid.trans hrb⟩
  intro henabled
  by_contra hname
  rw [Bool.not_eq_true', contains_eq_mem, decide_eq_false_iff_not] at hkept
  apply hkept
  rw [← hrb, ← show q.id = r.id from hid, hrows]
  exact mem_map_of_mem (mem_filter.mpr ⟨hq, by simpa [henabled] using hname⟩)

lemma upsertBindings_routes {desired : List (Nat × String)} {rows : List BindingRow}
    (hloop : S.pluginBindings.foldlM (upsertBinding now (routeIdMap now S t))
      ((applyRoutes now S t).bindings, []) = .ok (rows, desired)) (hlinked : t.Linked) :
    ∀ b ∈ live rows, b.routeId ∈ (live (applyRoutes now S t).routes).map (·.id) := by
  refine Proc.foldlM_invariant (I := fun s : List BindingRow × List (Nat × String) =>
    ∀ b ∈ live s.1, b.routeId ∈ (live (applyRoutes now S t).routes).map (·.id)) ?_
    (applyRoutes_bindings_linked h hS hlinked) hloop
  intro b hb s s' hs hstep
  obtain ⟨r, hr, hid⟩ := mem_map.mp (hS.bindingRoutes b hb)
  simp only [upsertBinding] at hstep
  split at hstep
  · cases hstep
  · rename_i routeId hroute
    cases hstep
    split
    · rw [live_update (f := b.writeTo now) fun _ => rfl]
      exact forall_update hs fun _ hm => hm
    · exact forall_live_insert hs (fun _ => rfl) fun _ => routeIdMap_live h hS hr (hid ▸ hroute)

theorem applySnapshot_linked_iff (hlinked : t.Linked) (hok : applySnapshot now S t = .ok t') :
    t'.Linked ↔ S.CoversDisabled t := by
  obtain ⟨⟨rows, desired⟩, hloop, hdone⟩ := Proc.bind_eq_ok.mp hok
  cases hdone
  have hbindings := upsertBindings_routes h hS hloop hlinked
  rw [← applyRoutes_routes_linked_iff now h hS hlinked]
  constructor
  · exact fun hnew => hnew.routes
  · exact fun hroutes => ⟨hroutes, forall_live_softDelete hbindings⟩

end Apply

end Conrogate
