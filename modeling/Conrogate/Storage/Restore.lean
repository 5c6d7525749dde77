import Conrogate.Storage.Snapshot

/-!
# When a snapshot is restored

What each pass of `apply_snapshot` leaves in its table, and from that: which snapshots come back
when the tables are collected again.
-/

namespace Conrogate

open SoftTable List Upsert NodeRow SoftRow

/-! ### The passes as upserts -/

section Passes

variable (now : Time)

def upstreamUpsert : Upsert UpstreamDto UpstreamRow String where
  itemKey := (·.name)
  rowKey := (·.name)
  write := UpstreamDto.writeTo now
  create up := up.toCreate.toRow now

def routeUpsert (upstreamOf : RouteDto → Option Nat) : Upsert RouteDto RouteRow String where
  itemKey := (·.name)
  rowKey := (·.name)
  write r := r.writeTo now (upstreamOf r)
  create r := (r.toCreate (upstreamOf r)).toRow now

def bindingUpsert : Upsert (Nat × PluginBindingDto) BindingRow (Nat × String) where
  itemKey x := (x.1, x.2.pluginName)
  rowKey m := (m.routeId, m.pluginName)
  write x := x.2.writeTo now
  create x := x.2.toCreate.toRow now x.1

lemma upstreamUpsert_lawful : (upstreamUpsert now).Lawful :=
  ⟨fun _ _ => rfl, fun _ _ => rfl, fun _ _ => rfl, fun _ _ => rfl, fun _ _ => rfl, fun _ _ => rfl⟩

lemma routeUpsert_lawful (upstreamOf : RouteDto → Option Nat) :
    (routeUpsert now upstreamOf).Lawful :=
  ⟨fun _ _ => rfl, fun _ _ => rfl, fun _ _ => rfl, fun _ _ => rfl, fun _ _ => rfl, fun _ _ => rfl⟩

lemma bindingUpsert_lawful : (bindingUpsert now).Lawful :=
  ⟨fun _ _ => rfl, fun _ _ => rfl, fun _ _ => rfl, fun _ _ => rfl, fun _ _ => rfl, fun _ _ => rfl⟩

lemma upsertUpstream_eq (s : Tables × IdMap) (up : UpstreamDto) :
    (upsertUpstream now s up).1.upstreams = (upstreamUpsert now).step s.1.upstreams up ∧
    (upsertUpstream now s up).2 =
      Function.update s.2 up.id (some ((upstreamUpsert now).target s.1.upstreams up)) ∧
    (upsertUpstream now s up).1.routes = s.1.routes ∧
    (upsertUpstream now s up).1.bindings = s.1.bindings := by
  have hfind : (upstreamUpsert now).find s.1.upstreams up =
      selectOne (fun m => m.name == up.name) s.1.upstreams := rfl
  rw [upsertUpstream, step, target, hfind]
  cases selectOne (fun m => m.name == up.name) s.1.upstreams with
  | none => exact ⟨rfl, rfl, rfl, rfl⟩
  | some m => exact ⟨rfl, rfl, rfl, rfl⟩

lemma upsertUpstreams_eq (s : Tables × IdMap) (ups : List UpstreamDto) :
    let s' := ups.foldl (upsertUpstream now) s
    (s'.1.upstreams, s'.2) = (upstreamUpsert now).runMap (·.id) (s.1.upstreams, s.2) ups ∧
      s'.1.routes = s.1.routes ∧ s'.1.bindings = s.1.bindings := by
  induction ups generalizing s with
  | nil => exact ⟨rfl, rfl, rfl⟩
  | cons up ups ih =>
    obtain ⟨hrows, hmap, hroutes, hbindings⟩ := upsertUpstream_eq now s up
    have := ih (upsertUpstream now s up)
    rw [hrows, hmap, hroutes, hbindings] at this
    exact this

section

variable (upstreams : List UpstreamDto) (ids : IdMap) (s : Tables × IdMap)

lemma upsertRoute_eq (r : RouteDto) :
    let u := routeUpsert now (remapUpstream upstreams ids)
    (upsertRoute now upstreams ids s r).1 = { s.1 with routes := u.step s.1.routes r } ∧
    (upsertRoute now upstreams ids s r).2 =
      Function.update s.2 r.id (some (u.target s.1.routes r)) := by
  intro u
  have hfind : u.find s.1.routes r = selectOne (fun m => m.name == r.name) s.1.routes := rfl
  rw [upsertRoute, step, target, hfind]
  cases selectOne (fun m => m.name == r.name) s.1.routes with
  | none => exact ⟨rfl, rfl⟩
  | some m => exact ⟨rfl, rfl⟩

lemma upsertRoutes_eq (routes : List RouteDto) :
    let u := routeUpsert now (remapUpstream upstreams ids)
    let s' := routes.foldl (upsertRoute now upstreams ids) s
    s' = ({ s.1 with routes := (u.runMap (·.id) (s.1.routes, s.2) routes).1 },
      (u.runMap (·.id) (s.1.routes, s.2) routes).2) := by
  induction routes generalizing s with
  | nil => rfl
  | cons r routes ih =>
    obtain ⟨hrows, hmap⟩ := upsertRoute_eq now upstreams ids s r
    have := ih (upsertRoute now upstreams ids s r)
    rw [hrows, hmap] at this
    exact this

end

lemma upsertBindings_eq {routeIds : IdMap} {items : List (Nat × PluginBindingDto)}
    (hitems : ∀ x ∈ items, routeIds x.2.routeId = some x.1)
    (s : List BindingRow × List (Nat × String)) :
    ∃ desired, (items.map (·.2)).foldlM (upsertBinding now routeIds) s =
        .ok ((bindingUpsert now).run s.1 items, desired) ∧
      ∀ k, k ∈ desired ↔ k ∈ items.map (bindingUpsert now).itemKey ∨ k ∈ s.2 := by
  induction items generalizing s with
  | nil => exact ⟨s.2, rfl, by simp⟩
  | cons x items ih =>
    have hx := hitems x mem_cons_self
    have hone : upsertBinding now routeIds s x.2 =
        .ok ((bindingUpsert now).step s.1 x, (x.1, x.2.pluginName) :: s.2) := by
      have hfind : (bindingUpsert now).find s.1 x = selectOne
          (fun m => m.routeId == x.1 && m.pluginName == x.2.pluginName) s.1 := rfl
      rw [upsertBinding, step, hx, hfind]
      cases hsel : selectOne (fun m => m.routeId == x.1 && m.pluginName == x.2.pluginName) s.1 with
      | none =>
        simp only [hsel]
        rfl
      | some m =>
        simp only [hsel]
        rfl
    obtain ⟨desired, hrun, hdesired⟩ := ih (fun y hy => hitems y (mem_cons_of_mem x hy))
      ((bindingUpsert now).step s.1 x, (x.1, x.2.pluginName) :: s.2)
    refine ⟨desired, ?_, ?_⟩
    · rw [map_cons, foldlM_cons, hone]
      exact hrun
    · intro k
      rw [hdesired, map_cons, mem_cons, mem_cons]
      have hkey : (bindingUpsert now).itemKey x = (x.1, x.2.pluginName) := rfl
      rw [hkey, or_left_comm, or_assoc]

/-! ### The nodes of an upstream -/

def nodesOf (upstreamId : Nat) (rows : List NodeRow) : List NodeRow :=
  select (·.upstreamId == upstreamId) rows

def NodeRow.view (n : NodeRow) : NodeView := ⟨n.address, n.weight, n.enabled⟩

section

variable (i : Nat) (nodes : List UpstreamNodeDto) (rows : List NodeRow)

lemma live_replaceNodes :
    ∃ new, live (replaceNodes now i nodes rows) =
        ((live rows).filter fun n => !(n.upstreamId == i)) ++ new ∧
      (∀ r ∈ new, r.upstreamId = i) ∧ new.map view = nodes.map (·.view) := by
  obtain ⟨new, hlive, hnew⟩ := live_insertAll
    (nodes.map fun n => n.toCreate.toRow now i) (by simp [CreateUpstreamNodeDto.toRow,
      SoftRow.deletedAt]) (softDelete now (fun n => n.upstreamId == i) rows)
  rw [live_softDelete] at hlive
  refine ⟨new, hlive, ?_⟩
  rw [forall₂_map_left_iff] at hnew
  clear hlive
  induction hnew with
  | nil => simp
  | cons hrow _ ih =>
    obtain ⟨j, rfl⟩ := hrow
    rw [forall_mem_cons, map_cons, map_cons, ih.2]
    exact ⟨⟨rfl, ih.1⟩, rfl⟩

lemma nodesOf_replaceNodes_self :
    (nodesOf i (replaceNodes now i nodes rows)).map view = nodes.map (·.view) := by
  obtain ⟨new, hlive, hnew, hview⟩ := live_replaceNodes now i nodes rows
  have hall : ∀ r ∈ new, (r.upstreamId == i) = true := by simpa using hnew
  have hnone : ((live rows).filter fun n => (n.upstreamId == i) && !(n.upstreamId == i)) = [] := by
    simp
  rw [nodesOf, select, hlive, filter_append, filter_filter, hnone,
    filter_eq_self.mpr hall, nil_append, hview]

end

lemma nodesOf_replaceNodes_of_ne {i j : Nat} (hij : j ≠ i) (nodes : List UpstreamNodeDto)
    (rows : List NodeRow) : nodesOf j (replaceNodes now i nodes rows) = nodesOf j rows := by
  obtain ⟨new, hlive, hnew, -⟩ := live_replaceNodes now i nodes rows
  have hnone : (new.filter fun n => n.upstreamId == j) = [] := by
    rw [filter_eq_nil_iff]
    intro r hr
    rw [hnew r hr]
    simpa using Ne.symm hij
  rw [nodesOf, select, hlive, filter_append, hnone, append_nil, filter_filter]
  apply filter_congr
  intro r _
  by_cases h : r.upstreamId = j
  · simp [h, hij]
  · simp [h]

structure Tables.UpstreamsOk (t : Tables) : Prop where
  ids : (t.upstreams.map (·.id)).Nodup
  nodes : ∀ n ∈ t.nodes, n.upstreamId ∈ t.upstreams.map (·.id)

lemma upsertUpstream_cases (s : Tables × IdMap) (up : UpstreamDto) :
    (∃ m rest, (upstreamUpsert now).rowsOf up.name s.1.upstreams = m :: rest ∧
      (upsertUpstream now s up).1.nodes = replaceNodes now m.id up.nodes s.1.nodes) ∨
    ((upstreamUpsert now).rowsOf up.name s.1.upstreams = [] ∧
      (upsertUpstream now s up).1.nodes = s.1.nodes) := by
  have hfind : selectOne (fun m => m.name == up.name) s.1.upstreams =
      ((upstreamUpsert now).rowsOf up.name s.1.upstreams).head? := selectOne_eq_head?
  cases hrows : (upstreamUpsert now).rowsOf up.name s.1.upstreams with
  | nil =>
    rw [hrows] at hfind
    right
    exact ⟨rfl, by simp [upsertUpstream, hfind]⟩
  | cons m rest =>
    rw [hrows] at hfind
    left
    exact ⟨m, rest, rfl, by simp [upsertUpstream, hfind]⟩

lemma upstreamId_of_mem_replaceNodes {i : Nat} {nodes : List UpstreamNodeDto}
    {rows : List NodeRow} {n : NodeRow} (h : n ∈ replaceNodes now i nodes rows) :
    n.upstreamId = i ∨ ∃ r ∈ rows, n.upstreamId = r.upstreamId := by
  rcases mem_insertAll h with h | ⟨make, hmake, j, rfl⟩
  · obtain ⟨r, hr, rfl | rfl⟩ := mem_softDelete h
    · exact .inr ⟨n, hr, rfl⟩
    · exact .inr ⟨r, hr, rfl⟩
  · obtain ⟨d, -, rfl⟩ := mem_map.mp hmake
    exact .inl rfl

variable {ups : List UpstreamDto} {m : UpstreamRow}

section

variable {s : Tables × IdMap} (h : s.1.UpstreamsOk)
include h

lemma Tables.UpstreamsOk.upsert (up : UpstreamDto) :
    (upsertUpstream now s up).1.UpstreamsOk := by
  have hu := upstreamUpsert_lawful now
  obtain ⟨hrows, -, -, -⟩ := upsertUpstream_eq now s up
  have hkeep : ∀ i ∈ s.1.upstreams.map (·.id),
      i ∈ (upsertUpstream now s up).1.upstreams.map (·.id) := by
    intro i hi
    rw [hrows]
    exact mem_ids_step hu hi
  refine ⟨?_, ?_⟩
  · rw [hrows]
    exact nodup_step hu h.ids
  · intro n hn
    rcases upsertUpstream_cases now s up with ⟨m, rest, hm, hnodes⟩ | ⟨-, hnodes⟩
    · rw [hnodes] at hn
      rcases upstreamId_of_mem_replaceNodes now hn with heq | ⟨r, hr, heq⟩
      · have hmem : m ∈ s.1.upstreams := mem_of_mem_rowsOf (hm ▸ mem_cons_self)
        exact hkeep _ (heq ▸ mem_map_of_mem hmem)
      · exact hkeep _ (heq ▸ h.nodes r hr)
    · rw [hnodes] at hn
      exact hkeep _ (h.nodes n hn)

variable {up : UpstreamDto}

lemma nodesOf_upsertUpstream_of_ne {r : UpstreamRow} (hr : r ∈ s.1.upstreams)
    (hname : r.name ≠ up.name) :
    nodesOf r.id (upsertUpstream now s up).1.nodes = nodesOf r.id s.1.nodes := by
  rcases upsertUpstream_cases now s up with ⟨m, rest, hm, hnodes⟩ | ⟨-, hnodes⟩
  · have hmem : m ∈ (upstreamUpsert now).rowsOf up.name s.1.upstreams :=
      hm ▸ mem_cons_self
    rw [hnodes]
    apply nodesOf_replaceNodes_of_ne
    intro hid
    have := inj_on_of_nodup_map h.ids hr (mem_of_mem_rowsOf hmem) hid
    exact hname (this ▸ rowKey_of_mem_rowsOf hmem)
  · rw [hnodes]

lemma nodesOf_upsertUpstream_self (up : UpstreamDto) :
    (∀ m rest, (upstreamUpsert now).rowsOf up.name s.1.upstreams = m :: rest →
      (nodesOf m.id (upsertUpstream now s up).1.nodes).map view =
        up.nodes.map (·.view)) ∧
    ((upstreamUpsert now).rowsOf up.name s.1.upstreams = [] →
      nodesOf (freshId s.1.upstreams) (upsertUpstream now s up).1.nodes = []) := by
  rcases upsertUpstream_cases now s up with ⟨m, rest, hm, hnodes⟩ | ⟨hm, hnodes⟩
  · rw [hm, hnodes]
    refine ⟨?_, fun hnil => by cases hnil⟩
    rintro m' rest' heq
    obtain ⟨rfl, rfl⟩ := List.cons.inj heq
    exact nodesOf_replaceNodes_self now m.id up.nodes s.1.nodes
  · rw [hm, hnodes]
    refine ⟨fun m rest hcons => (by cases hcons), fun _ => ?_⟩
    rw [nodesOf, select, filter_eq_nil_iff]
    intro n hn hid
    -- the id of the new row is in no foreign key
    have hmem := h.nodes n (mem_live.mp hn).1
    rw [beq_iff_eq.mp hid] at hmem
    exact freshId_notMem hmem

variable {name : String}

lemma rowsOf_upsertUpstream_of_ne (hname : up.name ≠ name) :
    (upstreamUpsert now).rowsOf name (upsertUpstream now s up).1.upstreams =
      (upstreamUpsert now).rowsOf name s.1.upstreams := by
  rw [(upsertUpstream_eq now s up).1]
  exact rowsOf_step_of_ne (upstreamUpsert_lawful now) h.ids hname

lemma upsertUpstreams_of_notMem (hname : name ∉ ups.map (·.name)) :
    let s' := ups.foldl (upsertUpstream now) s
    (upstreamUpsert now).rowsOf name s'.1.upstreams =
      (upstreamUpsert now).rowsOf name s.1.upstreams ∧
    ∀ r ∈ (upstreamUpsert now).rowsOf name s.1.upstreams,
      nodesOf r.id s'.1.nodes = nodesOf r.id s.1.nodes := by
  induction ups generalizing s with
  | nil => exact ⟨rfl, fun _ _ => rfl⟩
  | cons up ups ih =>
    rw [map_cons, mem_cons, not_or] at hname
    obtain ⟨hne, hname⟩ := hname
    have hrows := rowsOf_upsertUpstream_of_ne now h (Ne.symm hne)
    obtain ⟨hrest, hnodes⟩ := ih (h.upsert now up) hname
    refine ⟨hrest.trans hrows, ?_⟩
    intro r hr
    refine (hnodes r (hrows ▸ hr)).trans ?_
    apply nodesOf_upsertUpstream_of_ne now h (mem_of_mem_rowsOf hr)
    rw [show r.name = name from rowKey_of_mem_rowsOf hr]
    exact hne

lemma upsertUpstreams_of_mem (hnames : (ups.map (·.name)).Nodup) (hup : up ∈ ups) :
    let u := upstreamUpsert now
    let s' := ups.foldl (upsertUpstream now) s
    (∀ m rest, u.rowsOf up.name s.1.upstreams = m :: rest →
      u.rowsOf up.name s'.1.upstreams = up.writeTo now m :: rest ∧
      (nodesOf m.id s'.1.nodes).map view = up.nodes.map (·.view)) ∧
    (u.rowsOf up.name s.1.upstreams = [] →
      ∃ i, u.rowsOf up.name s'.1.upstreams = [up.toCreate.toRow now i] ∧
        nodesOf i s'.1.nodes = []) := by
  have hu := upstreamUpsert_lawful now
  induction ups generalizing s with
  | nil => cases hup
  | cons y ups ih =>
    rw [map_cons, nodup_cons] at hnames
    obtain ⟨hnew, hnames⟩ := hnames
    have hok := h.upsert now y
    rcases mem_cons.mp hup with rfl | hup
    · -- later upstreams have other names
      obtain ⟨hrest, hframe⟩ := upsertUpstreams_of_notMem now hok hnew
      obtain ⟨hold, hfresh⟩ := nodesOf_upsertUpstream_self now h up
      have hstep := (upsertUpstream_eq now s up).1
      refine ⟨?_, ?_⟩
      · intro m rest hm
        have hself := rowsOf_step_of_cons hu h.ids hm
        rw [← hstep] at hself
        refine ⟨hrest.trans hself, ?_⟩
        have := hframe (up.writeTo now m) (hself ▸ mem_cons_self)
        exact (congrArg (List.map view) this).trans (hold m rest hm)
      · intro hnil
        have hself := rowsOf_step_of_nil hu hnil
        rw [← hstep] at hself
        refine ⟨freshId s.1.upstreams, hrest.trans hself, ?_⟩
        have := hframe (up.toCreate.toRow now (freshId s.1.upstreams))
          (hself ▸ mem_cons_self)
        exact this.trans (hfresh hnil)
    · have hne : y.name ≠ up.name := by
        intro heq
        exact hnew (heq ▸ mem_map_of_mem hup)
      have hrows := rowsOf_upsertUpstream_of_ne now h hne
      obtain ⟨hold, hfresh⟩ := ih hok hnames hup
      exact ⟨fun m rest hm => hold m rest (hrows.trans hm),
        fun hnil => hfresh (hrows.trans hnil)⟩

lemma Tables.UpstreamsOk.foldl_upsert (ups : List UpstreamDto) :
    (ups.foldl (upsertUpstream now) s).1.UpstreamsOk := by
  induction ups generalizing s with
  | nil => exact h
  | cons up ups ih => exact ih (h.upsert now up)

lemma nodesOf_upsertUpstream_of_cons {rest : List UpstreamRow}
    (hm : (upstreamUpsert now).rowsOf up.name s.1.upstreams = m :: rest) :
    (nodesOf m.id (upsertUpstream now s up).1.nodes).map view = up.nodes.map (·.view) ∧
    ∀ r ∈ rest, nodesOf r.id (upsertUpstream now s up).1.nodes = nodesOf r.id s.1.nodes := by
  refine ⟨(nodesOf_upsertUpstream_self now h up).1 m rest hm, ?_⟩
  intro r hr
  have hids : (((upstreamUpsert now).rowsOf up.name s.1.upstreams).map (·.id)).Nodup :=
    ((filter_sublist.trans filter_sublist).map _).nodup h.ids
  rw [hm, map_cons, nodup_cons] at hids
  rcases upsertUpstream_cases now s up with ⟨m', rest', hm', hnodes⟩ | ⟨hnil, -⟩
  · obtain ⟨rfl, rfl⟩ := List.cons.inj (hm'.symm.trans hm)
    rw [hnodes]
    apply nodesOf_replaceNodes_of_ne
    intro heq
    exact hids.1 (heq ▸ mem_map_of_mem hr)
  · rw [hnil] at hm
    cases hm

lemma upsertUpstreams_last (ups : List UpstreamDto) {rest : List UpstreamRow}
    (hm : (upstreamUpsert now).rowsOf name s.1.upstreams = m :: rest) :
    let s' := ups.foldl (upsertUpstream now) s
    let last := (ups.filter (·.name == name)).getLast?
    (upstreamUpsert now).rowsOf name s'.1.upstreams = last.elim m (·.writeTo now m) :: rest ∧
    (nodesOf m.id s'.1.nodes).map view =
      last.elim ((nodesOf m.id s.1.nodes).map view) (·.nodes.map (·.view)) ∧
    ∀ r ∈ rest, nodesOf r.id s'.1.nodes = nodesOf r.id s.1.nodes := by
  -- from the last upstream of the list, which is written last
  induction ups using List.reverseRecOn with
  | nil => exact ⟨hm, rfl, fun _ _ => rfl⟩
  | append_singleton ups up ih =>
    obtain ⟨hrows, hnodes, hrest⟩ := ih
    have hok := h.foldl_upsert now ups
    have hstep := (upsertUpstream_eq now (ups.foldl (upsertUpstream now) s) up).1
    simp only [foldl_append, foldl_cons, foldl_nil, filter_append]
    by_cases hname : up.name = name
    · subst hname
      have hlast : (ups.filter (·.name == up.name) ++ [up].filter (·.name == up.name)).getLast? =
          some up := by simp
      have hself := rowsOf_step_of_cons (upstreamUpsert_lawful now) hok.ids hrows
      obtain ⟨hnew, hkept⟩ := nodesOf_upsertUpstream_of_cons now hok hrows
      rw [hlast, hstep]
      have hid : ∀ o : Option UpstreamDto, (o.elim m (·.writeTo now m)).id = m.id := by
        rintro (_ | _) <;> rfl
      refine ⟨hself.trans ?_, ?_, ?_⟩
      · -- a second write hides the first
        cases (ups.filter (·.name == up.name)).getLast? <;> rfl
      · rw [hid] at hnew
        exact hnew
      · exact fun r hr => (hkept r hr).trans (hrest r hr)
    · have hnone : [up].filter (·.name == name) = [] := by simp [hname]
      have hsame := rowsOf_upsertUpstream_of_ne now hok hname
      have hframe : ∀ r ∈ (upstreamUpsert now).rowsOf name
          (ups.foldl (upsertUpstream now) s).1.upstreams,
          nodesOf r.id (upsertUpstream now (ups.foldl (upsertUpstream now) s) up).1.nodes =
            nodesOf r.id (ups.foldl (upsertUpstream now) s).1.nodes := by
        intro r hr
        apply nodesOf_upsertUpstream_of_ne now hok (mem_of_mem_rowsOf hr)
        rw [show r.name = name from rowKey_of_mem_rowsOf hr]
        exact Ne.symm hname
      rw [hnone, append_nil]
      rw [hrows, forall_mem_cons] at hframe
      have hid : ((ups.filter (·.name == name)).getLast?.elim m (·.writeTo now m)).id = m.id := by
        cases (ups.filter (·.name == name)).getLast? <;> rfl
      rw [hid] at hframe
      refine ⟨hsame.trans hrows, ?_, ?_⟩
      · rw [hframe.1]
        exact hnodes
      · exact fun r hr => (hframe.2 r hr).trans (hrest r hr)

end

variable {t : Tables}

lemma live_dropUpstreams (hids : (t.upstreams.map (·.id)).Nodup) (ups : List UpstreamDto) :
    live (dropUpstreams now ups t).upstreams =
      (live t.upstreams).filter fun m => (ups.map (·.name)).contains m.name := by
  have hdrop : (dropUpstreams now ups t).upstreams = softDelete now (fun m => ((select (fun m =>
      !(ups.map (·.name)).contains m.name) t.upstreams).map rowId).contains
        (rowId m)) t.upstreams := rfl
  rw [hdrop, live_softDelete_ids hids]
  simp only [Bool.not_not]

lemma nodesOf_dropUpstreams (hids : (t.upstreams.map (·.id)).Nodup) (hm : m ∈ live t.upstreams)
    (hname : (ups.map (·.name)).contains m.name) :
    nodesOf m.id (dropUpstreams now ups t).nodes = nodesOf m.id t.nodes := by
  have hkept : m.id ∉ (select (fun m => !(ups.map (·.name)).contains m.name) t.upstreams).map
      (·.id) := by
    intro hgone
    obtain ⟨r, hr, hid⟩ := mem_map.mp hgone
    obtain ⟨hlive, hother⟩ := mem_filter.mp hr
    have : r = m := inj_on_of_nodup_map hids (mem_live.mp hlive).1 (mem_live.mp hm).1 hid
    rw [this, hname] at hother
    cases hother
  rw [nodesOf, select, dropUpstreams, live_softDelete, filter_filter]
  apply filter_congr
  intro n _
  by_cases hid : n.upstreamId = m.id
  · rw [hid, contains_eq_mem, decide_eq_false hkept]
    simp
  · simp [hid]

lemma live_dropRoutes (hids : (t.routes.map (·.id)).Nodup) (routes : List RouteDto) :
    live (dropRoutes now routes t).routes = (live t.routes).filter fun m =>
      !(m.enabled && !(routes.map (·.name)).contains m.name) := by
  have hdrop : (dropRoutes now routes t).routes = softDelete now (fun m => ((select (fun m =>
      m.enabled && !(routes.map (·.name)).contains m.name) t.routes).map rowId).contains
        (rowId m)) t.routes := rfl
  rw [hdrop, live_softDelete_ids hids]

end Passes

end Conrogate
