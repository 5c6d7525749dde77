import Conrogate.Storage.Snapshot
import Conrogate.Lib.Proc

/-!
# The constraints of the schema

`apply_snapshot` keeps the primary keys, the foreign keys and the unique indexes.
-/

namespace Conrogate

open SoftTable List Tables

variable {now : Time} {t t' : Tables}

/-! ### Single writes -/

namespace Tables.WellFormed

variable (h : t.WellFormed)

include h

lemma withUpstreams {rows : List UpstreamRow} (hids : (rows.map (·.id)).Nodup)
    (hkeep : ∀ i ∈ t.upstreams.map (·.id), i ∈ rows.map (·.id)) :
    ({ t with upstreams := rows }).WellFormed :=
  { h with
    upstreamIds := hids
    nodeUpstreams := fun n hn => hkeep _ (h.nodeUpstreams n hn)
    routeUpstreams := fun r hr i hi => hkeep i (h.routeUpstreams r hr i hi) }

lemma insertUpstream (make : Nat → UpstreamRow) (hid : ∀ i, (make i).id = i) :
    ({ t with upstreams := insert make t.upstreams }).WellFormed :=
  h.withUpstreams (nodup_insert (ρ := UpstreamRow) h.upstreamIds hid) fun _ =>
    mem_ids_insert (ρ := UpstreamRow) hid

lemma updateUpstream (f : UpstreamRow → UpstreamRow) (hid : ∀ r, (f r).id = r.id) (i : Nat) :
    ({ t with upstreams := update i f t.upstreams }).WellFormed :=
  h.withUpstreams (nodup_update (ρ := UpstreamRow) h.upstreamIds hid) fun _ =>
    mem_ids_update (ρ := UpstreamRow) hid

lemma deleteUpstreams (p : UpstreamRow → Bool) :
    ({ t with upstreams := softDelete now p t.upstreams }).WellFormed :=
  h.withUpstreams (nodup_softDelete (ρ := UpstreamRow) h.upstreamIds) fun _ =>
    mem_ids_softDelete (ρ := UpstreamRow)

lemma deleteNodes (p : NodeRow → Bool) :
    ({ t with nodes := softDelete now p t.nodes }).WellFormed :=
  { h with
    nodeIds := nodup_softDelete (ρ := NodeRow) h.nodeIds
    nodeUpstreams := forall_softDelete h.nodeUpstreams fun _ hn => hn }

lemma insertNodes {upstreamId : Nat} (hfk : upstreamId ∈ t.upstreams.map (·.id))
    (nodes : List CreateUpstreamNodeDto) :
    ({ t with nodes := insertAll (nodes.map fun n : CreateUpstreamNodeDto =>
      n.toRow now upstreamId) t.nodes }).WellFormed :=
  { h with
    nodeIds := nodup_insertAll (ρ := NodeRow) h.nodeIds (by
      intro make hmake i
      obtain ⟨n, -, rfl⟩ := mem_map.mp hmake
      rfl)
    nodeUpstreams := forall_insertAll h.nodeUpstreams (by
      intro make hmake i
      obtain ⟨n, -, rfl⟩ := mem_map.mp hmake
      exact hfk) }

lemma insertRoute {dto : CreateRouteDto} (hname : select (·.name == dto.name) t.routes = [])
    (hfk : ∀ i ∈ dto.upstreamId, i ∈ t.upstreams.map (·.id)) :
    ({ t with routes := insert (dto.toRow now) t.routes }).WellFormed :=
  { h with
    routeIds := nodup_insert (ρ := RouteRow) h.routeIds fun _ => rfl
    routeNames := by
      refine nodup_keys_insert h.routeNames (fun _ => rfl) ?_
      intro i hmem
      obtain ⟨r, hr, heq⟩ := mem_map.mp hmem
      exact filter_eq_nil_iff.mp hname r hr (beq_iff_eq.mpr heq)
    routeUpstreams := forall_insert h.routeUpstreams fun _ => hfk
    bindingRoutes := fun b hb =>
      mem_ids_insert (ρ := RouteRow) (fun _ => rfl) (h.bindingRoutes b hb) }

lemma updateRoute {f : RouteRow → RouteRow} {i : Nat} (hid : ∀ r, (f r).id = r.id)
    (hnames : ((live (update i f t.routes)).map (·.name)).Nodup)
    (hfk : ∀ r, (∀ u ∈ r.upstreamId, u ∈ t.upstreams.map (·.id)) →
      ∀ u ∈ (f r).upstreamId, u ∈ t.upstreams.map (·.id)) :
    ({ t with routes := update i f t.routes }).WellFormed :=
  { h with
    routeIds := nodup_update (ρ := RouteRow) h.routeIds hid
    routeNames := hnames
    routeUpstreams := forall_update h.routeUpstreams hfk
    bindingRoutes := fun b hb => mem_ids_update (ρ := RouteRow) hid (h.bindingRoutes b hb) }

lemma deleteRoutes (p : RouteRow → Bool) :
    ({ t with routes := softDelete now p t.routes }).WellFormed :=
  { h with
    routeIds := nodup_softDelete (ρ := RouteRow) h.routeIds
    routeNames := nodup_keys_softDelete h.routeNames
    routeUpstreams := forall_softDelete h.routeUpstreams fun _ hr => hr
    bindingRoutes := fun b hb => mem_ids_softDelete (ρ := RouteRow) (h.bindingRoutes b hb) }

lemma insertBinding {routeId : Nat} {dto : BindPluginDto}
    (hkey : select (fun m => m.routeId == routeId && m.pluginName == dto.pluginName) t.bindings =
      [])
    (hfk : routeId ∈ t.routes.map (·.id)) :
    ({ t with bindings := insert (dto.toRow now routeId) t.bindings }).WellFormed :=
  { h with
    bindingIds := nodup_insert (ρ := BindingRow) h.bindingIds fun _ => rfl
    bindingKeys := by
      refine nodup_keys_insert h.bindingKeys (fun _ => rfl) ?_
      intro i hmem
      obtain ⟨b, hb, heq⟩ := mem_map.mp hmem
      exact filter_eq_nil_iff.mp hkey b hb (beq_iff_eq.mpr heq)
    bindingRoutes := forall_insert h.bindingRoutes fun _ => hfk }

lemma updateBinding {f : BindingRow → BindingRow} {i : Nat} (hid : ∀ r, (f r).id = r.id)
    (hlive : ∀ r, (f r).deletedAt = r.deletedAt)
    (hkey : ∀ r, ((f r).routeId, (f r).pluginName) = (r.routeId, r.pluginName)) :
    ({ t with bindings := update i f t.bindings }).WellFormed :=
  { h with
    bindingIds := nodup_update (ρ := BindingRow) h.bindingIds hid
    bindingKeys := nodup_keys_update_of_eq h.bindingKeys hlive hkey
    bindingRoutes := forall_update h.bindingRoutes fun b hb => (Prod.mk.inj (hkey b)).1 ▸ hb }

lemma deleteBindings (p : BindingRow → Bool) :
    ({ t with bindings := softDelete now p t.bindings }).WellFormed :=
  { h with
    bindingIds := nodup_softDelete (ρ := BindingRow) h.bindingIds
    bindingKeys := nodup_keys_softDelete h.bindingKeys
    bindingRoutes := forall_softDelete h.bindingRoutes fun _ hb => hb }

end Tables.WellFormed

/-! ### Writing a snapshot back -/

def IdMap.Into (ids : IdMap) (rows : List Nat) : Prop := ∀ i a, ids i = some a → a ∈ rows

variable {ids : IdMap}

lemma IdMap.Into.update {rows rows' : List Nat} (h : ids.Into rows) (hkeep : ∀ a ∈ rows, a ∈ rows')
    (i : Nat) {a : Nat} (ha : a ∈ rows') :
    IdMap.Into (Function.update ids i (some a)) rows' := by
  intro j b hj
  by_cases hij : j = i
  · rw [hij, Function.update_self] at hj
    exact Option.some.inj hj ▸ ha
  · rw [Function.update_of_ne hij] at hj
    exact hkeep b (h j b hj)

variable {S : ConfigSnapshot} {s : Tables × IdMap}

lemma replaceNodes_eq (upstreamId : Nat) (nodes : List UpstreamNodeDto) (rows : List NodeRow) :
    replaceNodes now upstreamId nodes rows =
      insertAll ((nodes.map (·.toCreate)).map fun n => n.toRow now upstreamId)
        (softDelete now (·.upstreamId == upstreamId) rows) := by
  rw [map_map]
  rfl

lemma upsertUpstream_wellFormed (up : UpstreamDto)
    (h : s.1.WellFormed ∧ s.2.Into (s.1.upstreams.map (·.id))) :
    (upsertUpstream now s up).1.WellFormed ∧
      (upsertUpstream now s up).2.Into ((upsertUpstream now s up).1.upstreams.map (·.id)) := by
  rw [upsertUpstream]
  cases hfind : selectOne (fun m => m.name == up.name) s.1.upstreams with
  | none =>
    refine ⟨h.1.insertUpstream _ fun _ => rfl, h.2.update ?_ up.id ?_⟩
    · exact fun _ => mem_ids_insert (ρ := UpstreamRow) fun _ => rfl
    · exact freshId_mem_insert (ρ := UpstreamRow) fun _ => rfl
  | some m =>
    have hkeep : ∀ a ∈ s.1.upstreams.map (·.id),
        a ∈ (update m.id (up.writeTo now) s.1.upstreams).map (·.id) := fun _ =>
      mem_ids_update (ρ := UpstreamRow) fun _ => rfl
    have hm : m.id ∈ s.1.upstreams.map (·.id) :=
      mem_map_of_mem (mem_live.mp (mem_of_selectOne hfind).1).1
    refine ⟨?_, h.2.update hkeep up.id (hkeep _ hm)⟩
    have hupstream := h.1.updateUpstream (up.writeTo now) (fun _ => rfl) m.id
    simp only [replaceNodes_eq]
    exact (hupstream.deleteNodes _).insertNodes (hkeep _ hm) _

variable (now S) in
lemma applyUpstreams_wellFormed (h : t.WellFormed) :
    (applyUpstreams now S t).WellFormed ∧
      (upstreamIdMap now S t).Into ((applyUpstreams now S t).upstreams.map (·.id)) := by
  obtain ⟨hpass, hmap⟩ : (upsertUpstreams now t S.upstreams).1.WellFormed ∧
      (upsertUpstreams now t S.upstreams).2.Into
        ((upsertUpstreams now t S.upstreams).1.upstreams.map (·.id)) := by
    refine List.foldlRecOn (motive := fun s : Tables × IdMap =>
      s.1.WellFormed ∧ s.2.Into (s.1.upstreams.map (·.id))) S.upstreams (upsertUpstream now) ?_ ?_
    · exact ⟨h, fun _ _ hnone => by cases hnone⟩
    · exact fun s hs up _ => upsertUpstream_wellFormed up hs
  refine ⟨(hpass.deleteUpstreams _).deleteNodes _, ?_⟩
  exact fun i a ha => mem_ids_softDelete (ρ := UpstreamRow) (hmap i a ha)

lemma remapUpstream_into {rows : List Nat} (hids : ids.Into rows) (upstreams : List UpstreamDto)
    (r : RouteDto) :
    ∀ a ∈ remapUpstream upstreams ids r, a ∈ rows := by
  intro a ha
  obtain ⟨i, -, ha⟩ := Option.bind_eq_some_iff.mp ha
  obtain ⟨up, -, ha⟩ := Option.bind_eq_some_iff.mp ha
  exact hids up.id a ha

structure RoutesOk (upstreamIds : List Nat) (s : Tables × IdMap) : Prop where
  tables : s.1.WellFormed
  upstreams : s.1.upstreams.map (·.id) = upstreamIds
  ids : s.2.Into (s.1.routes.map (·.id))

lemma RoutesOk.upsertRoute {upstreamIds : List Nat} (h : RoutesOk upstreamIds s)
    {upstreams : List UpstreamDto} (hids : ids.Into upstreamIds) (r : RouteDto) :
    RoutesOk upstreamIds (upsertRoute now upstreams ids s r) := by
  have hfk := remapUpstream_into (h.upstreams ▸ hids) upstreams r
  rw [Conrogate.upsertRoute]
  cases hfind : selectOne (fun m => m.name == r.name) s.1.routes with
  | none =>
    refine ⟨h.tables.insertRoute ?_ hfk, h.upstreams, h.ids.update ?_ r.id ?_⟩
    · rwa [selectOne_eq_head?, head?_eq_none_iff] at hfind
    · exact fun _ => mem_ids_insert (ρ := RouteRow) fun _ => rfl
    · exact freshId_mem_insert (ρ := RouteRow) fun _ => rfl
  | some m =>
    have hkeep : ∀ a ∈ s.1.routes.map (·.id),
        a ∈ (update m.id (r.writeTo now (remapUpstream upstreams ids r)) s.1.routes).map (·.id) :=
      fun _ => mem_ids_update (ρ := RouteRow) fun _ => rfl
    have hm : m.id ∈ s.1.routes.map (·.id) :=
      mem_map_of_mem (mem_live.mp (mem_of_selectOne hfind).1).1
    refine ⟨h.tables.updateRoute (fun _ => rfl) ?_ fun _ _ => hfk, h.upstreams,
      h.ids.update hkeep r.id (hkeep _ hm)⟩
    exact nodup_keys_update_of_eq h.tables.routeNames (fun _ => rfl) fun _ => rfl

variable (now S) in
lemma applyRoutes_wellFormed (h : t.WellFormed) :
    (applyRoutes now S t).WellFormed ∧
      (routeIdMap now S t).Into ((applyRoutes now S t).routes.map (·.id)) := by
  obtain ⟨hbefore, hids⟩ := applyUpstreams_wellFormed now S h
  have hpass : RoutesOk ((applyUpstreams now S t).upstreams.map (·.id))
      (upsertRoutes now S (upstreamIdMap now S t) (applyUpstreams now S t)) := by
    refine List.foldlRecOn (motive := RoutesOk ((applyUpstreams now S t).upstreams.map (·.id)))
      S.routes _ ?_ ?_
    · exact ⟨hbefore, rfl, fun _ _ hnone => by cases hnone⟩
    · exact fun s hs r _ => hs.upsertRoute hids r
  refine ⟨(hpass.tables.deleteRoutes _).deleteBindings _, ?_⟩
  exact fun i a ha => mem_ids_softDelete (ρ := RouteRow) (hpass.ids i a ha)

lemma upsertBinding_wellFormed {routeIds : IdMap} (hids : routeIds.Into (t.routes.map (·.id)))
    {b : PluginBindingDto} {s s' : List BindingRow × List (Nat × String)}
    (h : ({ t with bindings := s.1 }).WellFormed)
    (hstep : upsertBinding now routeIds s b = .ok s') :
    ({ t with bindings := s'.1 }).WellFormed := by
  simp only [upsertBinding] at hstep
  split at hstep
  · cases hstep
  · rename_i routeId hroute
    cases hstep
    split
    · exact h.updateBinding (fun _ => rfl) (fun _ => rfl) fun _ => rfl
    · rename_i hfind
      rw [selectOne_eq_head?, head?_eq_none_iff] at hfind
      exact h.insertBinding hfind (hids _ _ hroute)

theorem applySnapshot_wellFormed (h : t.WellFormed) (hok : applySnapshot now S t = .ok t') :
    t'.WellFormed := by
  obtain ⟨hroutes, hids⟩ := applyRoutes_wellFormed now S h
  obtain ⟨s, hloop, hdone⟩ := Proc.bind_eq_ok.mp hok
  cases hdone
  have hrows : ({ applyRoutes now S t with bindings := s.1 }).WellFormed := by
    refine Proc.foldlM_invariant (I := fun s : List BindingRow × List (Nat × String) =>
      ({ applyRoutes now S t with bindings := s.1 }).WellFormed) ?_ hroutes hloop
    exact fun b _ s s' hs hstep => upsertBinding_wellFormed hids hs hstep
  exact hrows.deleteBindings _

end Conrogate
