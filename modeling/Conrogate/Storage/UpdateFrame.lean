import Conrogate.Lib.CallAlone
import Conrogate.Storage.Programs

/-!
# What the calls of the repositories write

What a call that returns Ok has done. The updates set the columns of the fields that are given; of
the nodes, all or none are replaced.
-/

namespace Conrogate

open SoftTable Database DatabaseBackend CreateUpstreamNodeDto

/-- Only the route with this id may differ. -/
structure Tables.RouteFrame (id : Option Nat) (t u : Tables) : Prop where
  routes : SameExcept (fun r => some r.id == id) t.routes u.routes
  upstreams : u.upstreams = t.upstreams
  nodes : u.nodes = t.nodes

structure Tables.UpstreamFrame (id : Option Nat) (t u : Tables) : Prop where
  routes : u.routes = t.routes
  upstreams : SameExcept (fun m => some m.id == id) t.upstreams u.upstreams
  nodes : SameExcept (fun n => some n.upstreamId == id) t.nodes u.nodes

variable {backend : DatabaseBackend} {id : Option Nat} {t u v : Tables}

lemma Tables.RouteFrame.refl : Tables.RouteFrame id t t := ⟨.refl, rfl, rfl⟩

lemma Tables.RouteFrame.trans (h : Tables.RouteFrame id t u) (h' : Tables.RouteFrame id u v) :
    Tables.RouteFrame id t v :=
  ⟨h.routes.trans h'.routes, h'.upstreams.trans h.upstreams, h'.nodes.trans h.nodes⟩

lemma Tables.UpstreamFrame.refl : Tables.UpstreamFrame id t t := ⟨rfl, .refl, .refl⟩

lemma Tables.UpstreamFrame.trans (h : Tables.UpstreamFrame id t u)
    (h' : Tables.UpstreamFrame id u v) : Tables.UpstreamFrame id t v :=
  ⟨h'.routes.trans h.routes, h.upstreams.trans h'.upstreams, h.nodes.trans h'.nodes⟩

def Tables.UpstreamStep (id : Option Nat) (t u : Tables) : Prop :=
  (t.nodes.map (·.id)).Nodup → (u.nodes.map (·.id)).Nodup ∧ Tables.UpstreamFrame id t u

instance : Std.Refl (Tables.RouteFrame id) := ⟨fun _ => .refl⟩

instance : IsTrans Tables (Tables.RouteFrame id) := ⟨fun _ _ _ => .trans⟩

instance : Std.Refl (Tables.UpstreamStep id) := ⟨fun _ hids => ⟨hids, .refl⟩⟩

instance : IsTrans Tables (Tables.UpstreamStep id) where
  trans _ _ _ h h' := fun hids =>
    have ⟨hids', hframe⟩ := h hids
    have ⟨hids'', hframe'⟩ := h' hids'
    ⟨hids'', hframe.trans hframe'⟩

section Statements

variable {α β : Type} {R : Tables → Tables → Prop} {q : Tables → β}
  {failed : String → ConrogateError} {w : Stamp → Tables → TableWrite} {f : β → TableProgram α}

lemma readOnly_ask (hf : ∀ b, (f b).ReadOnly) : (ask q >>= f).ReadOnly :=
  ⟨trivial, hf⟩

lemma within_ask (hf : ∀ t, (f (q t)).Within backend.database R) :
    (ask q >>= f).Within backend.database R :=
  ⟨trivial, hf⟩

lemma within_exec {f : Stamp × Tables → TableProgram α}
    (hw : ∀ x t, ((w x t).apply t).Admitted backend → R t ((w x t).apply t))
    (hf : ∀ a, (f a).Within backend.database R) :
    (exec failed w >>= f).Within backend.database R :=
  ⟨fun x t hadmits => hw x t (admits_iff.mp hadmits), fun _ => trivial,
    fun _ _ => hf _⟩

lemma runs_ask : backend.database.Runs (ask q) t (.ok (q t)) t := ⟨[], .inl ⟨rfl, rfl, rfl⟩⟩

lemma runs_exec (x : Stamp) (h : ((w x t).apply t).Admitted backend) : backend.database.Runs
    (exec failed w) t (.ok (x, (w x t).apply t)) ((w x t).apply t) :=
  ⟨[x], .inl ⟨x, _, [], rfl, write_eq_some.mpr ⟨admits_iff.mpr h, rfl⟩, .inl ⟨rfl, rfl, rfl⟩⟩⟩

lemma runs_ask_bind_ok {a : α} :
    backend.database.Runs (ask q >>= f) t (.ok a) u ↔
      backend.database.Runs (f (q t)) t (.ok a) u := by
  refine ⟨?_, runs_ask.bind⟩
  rintro ⟨xs, h | ⟨-, ⟨⟩, -⟩⟩
  exact ⟨xs, h⟩

lemma runs_exec_bind_ok {f : Stamp × Tables → TableProgram α} {a : α} :
    backend.database.Runs (exec failed w >>= f) t (.ok a) u ↔
      ∃ x, ((w x t).apply t).Admitted backend ∧
        backend.database.Runs (f (x, (w x t).apply t)) ((w x t).apply t) (.ok a) u := by
  constructor
  · rintro ⟨xs, ⟨x, v, ys, -, hwrite, h | ⟨m, -, ⟨⟩, -⟩⟩ | ⟨m, -, ⟨⟩, -⟩⟩
    obtain ⟨hadmits, rfl⟩ := write_eq_some.mp hwrite
    exact ⟨x, admits_iff.mp hadmits, ys, h⟩
  · rintro ⟨x, hadmitted, h⟩
    exact (runs_exec x hadmitted).bind h

end Statements

/-! ### Routes -/

namespace RouteRepoImpl

lemma of_create {dto : CreateRouteDto} {route : RouteDto}
    (h : backend.database.Runs (create dto) t (.ok route) u) :
    ∃ now i, u = { t with routes := t.routes ++ [dto.toRow now i] } := by
  have h := runs_ask_bind_ok.mp h
  split_ifs at h
  · obtain ⟨-, -, ⟨⟩, -⟩ := h
  · obtain ⟨x, -, hanswer⟩ := runs_exec_bind_ok.mp h
    refine ⟨x.now, x.id, hanswer.eq_of_readOnly ?_⟩
    dsimp only
    split <;> trivial

lemma of_softDelete {id : Nat} (h : backend.database.Runs (softDelete id) t (.ok ()) u) :
    ∃ now, u = { t with routes := (deleteWhere now (·.id == id) t.routes).apply t.routes } := by
  obtain ⟨x, -, hdone⟩ := runs_exec_bind_ok.mp h
  exact ⟨x.now, hdone.eq_of_readOnly trivial⟩

lemma checkName_readOnly (dto : UpdateRouteDto) (m : RouteRow) : (checkName dto m).ReadOnly := by
  rw [checkName]
  split
  · trivial
  · split_ifs
    · trivial
    · refine readOnly_ask fun dup => ?_
      split_ifs <;> trivial

lemma update_within (dto : UpdateRouteDto) :
    (update dto).Within backend.database (Tables.RouteFrame (some dto.id)) := by
  refine within_ask fun t => ?_
  cases hm : selectOne (·.id == dto.id) t.routes with
  | none => trivial
  | some m =>
    have hid : m.id = dto.id := beq_iff_eq.mp (mem_of_selectOne hm).2
    refine (checkName_readOnly dto m).within.bind fun _ => within_exec ?_ ?_
    · intro x t _
      refine ⟨.update fun r hr => ?_, rfl, rfl⟩
      have hr : r.id = m.id := hr
      simp [UpdateRouteDto.writeTo, hr, hid]
    · rintro ⟨x, t⟩
      dsimp only
      split <;> trivial

lemma of_update {dto : UpdateRouteDto} {route : RouteDto}
    (h : backend.database.Runs (update dto) t (.ok route) u) :
    ∃ m now, selectOne (·.id == dto.id) t.routes = some m ∧
      u = { t with routes := SoftTable.update m.id (dto.writeTo now) t.routes } := by
  have h := runs_ask_bind_ok.mp h
  cases hm : selectOne (·.id == dto.id) t.routes with
  | none =>
    rw [hm] at h
    obtain ⟨-, -, ⟨⟩, -⟩ := h
  | some m =>
    rw [hm] at h
    obtain ⟨_, v, hcheck, hwrite⟩ := runs_bind_ok.mp h
    obtain rfl := hcheck.eq_of_readOnly (checkName_readOnly dto m)
    obtain ⟨x, -, hanswer⟩ := runs_exec_bind_ok.mp hwrite
    refine ⟨m, x.now, rfl, hanswer.eq_of_readOnly ?_⟩
    dsimp only
    split <;> trivial

end RouteRepoImpl

/-! ### Upstreams -/

namespace UpstreamRepoImpl

def nodeColumns (n : NodeRow) : String × Int × Bool := (n.address, n.weight, n.enabled)

section

variable (failed : String → ConrogateError) (upstreamId : Nat) (nodes : List CreateUpstreamNodeDto)

lemma insertNodes_within : (insertNodes failed upstreamId nodes).Within
      backend.database (Tables.UpstreamStep (some upstreamId)) := by
  refine .forM (fun n => ?_) nodes
  refine within_exec (fun x t hadmitted hids => ?_) fun _ => trivial
  refine ⟨hadmitted.nodeIds, rfl, .refl, .insert ?_⟩
  simp [toRow]

lemma replaceNodes_within : (replaceNodes failed upstreamId nodes).Within
      backend.database (Tables.UpstreamStep (some upstreamId)) := by
  refine within_exec (fun x t hadmitted hids => ?_) fun _ => insertNodes_within failed _ nodes
  refine ⟨hadmitted.nodeIds, rfl, .refl, ?_⟩
  exact SameExcept.deleteWhere (p := fun n => n.upstreamId == upstreamId) x.now hids fun _ => rfl

end

lemma updated_readOnly (id : Nat) (model : Option UpstreamRow) : (updated id model).ReadOnly := by
  refine readOnly_ask fun nodes => ?_
  split <;> trivial

lemma update_within (dto : UpdateUpstreamDto) :
    (update dto).Within backend.database (Tables.UpstreamStep (some dto.id)) := by
  refine within_ask fun t => ?_
  cases hm : selectOne (·.id == dto.id) t.upstreams with
  | none => trivial
  | some m =>
    have hid : m.id = dto.id := beq_iff_eq.mp (mem_of_selectOne hm).2
    refine within_exec (fun x t hadmitted hids => ⟨hids, rfl, .update fun r hr => ?_, .refl⟩) ?_
    · have hr : r.id = m.id := hr
      simp [UpdateUpstreamDto.writeTo, hr, hid]
    · rintro ⟨x, t⟩
      cases dto.nodes with
      | none => exact (updated_readOnly _ _).within
      | some nodes =>
        refine Program.Within.bind ?_ fun _ => (updated_readOnly _ _).within
        exact hid ▸ replaceNodes_within _ _ nodes

section

variable {failed : String → ConrogateError} {upstreamId : Nat} {nodes : List CreateUpstreamNodeDto}

lemma of_insertNodes
    (h : backend.database.Runs (insertNodes failed upstreamId nodes) t (.ok ()) u) :
    u = { t with nodes := u.nodes } ∧
      (u.loadNodes upstreamId).map nodeColumns = (t.loadNodes upstreamId).map nodeColumns ++
        nodes.map fun n => nodeColumns (n.toRow 0 upstreamId 0) := by
  induction nodes generalizing t with
  | nil =>
    obtain ⟨-, -, -, rfl⟩ := h
    simp
  | cons n nodes ih =>
    obtain ⟨_, v, hfirst, hrest⟩ := runs_bind_ok.mp h
    obtain ⟨x, -, -, -, -, rfl⟩ := runs_exec_bind_ok.mp hfirst
    obtain ⟨hu, hnodes⟩ := ih hrest
    refine ⟨hu, hnodes.trans ?_⟩
    simp [TableWrite.apply, RowWrite.apply, Tables.loadNodes, select, live, isLive,
      SoftRow.deletedAt, toRow, nodeColumns]

lemma of_replaceNodes
    (h : backend.database.Runs (replaceNodes failed upstreamId nodes) t (.ok ()) u) :
    u = { t with nodes := u.nodes } ∧
      (u.loadNodes upstreamId).map nodeColumns =
        nodes.map fun n => nodeColumns (n.toRow 0 upstreamId 0) := by
  obtain ⟨x, -, hinsert⟩ := runs_exec_bind_ok.mp h
  obtain ⟨hu, hnodes⟩ := of_insertNodes hinsert
  refine ⟨hu, hnodes.trans ?_⟩
  -- no node of the upstream is left after the delete
  have hgone := select_deleteWhere x.now (fun n => n.upstreamId == upstreamId) t.nodes
  rw [Tables.loadNodes, TableWrite.apply, hgone]
  rfl

end

lemma of_update {dto : UpdateUpstreamDto} {upstream : UpstreamDto}
    (h : backend.database.Runs (update dto) t (.ok upstream) u) :
    ∃ m now, selectOne (·.id == dto.id) t.upstreams = some m ∧ u = { t with
        upstreams := SoftTable.update m.id (dto.writeTo now) t.upstreams
        nodes := u.nodes } ∧
      match dto.nodes with
      | none => u.nodes = t.nodes
      | some nodes => (u.loadNodes m.id).map nodeColumns =
        nodes.map fun n => nodeColumns (n.toRow 0 m.id 0) := by
  have h := runs_ask_bind_ok.mp h
  cases hm : selectOne (·.id == dto.id) t.upstreams with
  | none =>
    rw [hm] at h
    obtain ⟨-, -, ⟨⟩, -⟩ := h
  | some m =>
    rw [hm] at h
    obtain ⟨x, -, hrest⟩ := runs_exec_bind_ok.mp h
    refine ⟨m, x.now, rfl, ?_⟩
    cases hnodes : dto.nodes with
    | none =>
      simp only [hnodes] at hrest
      obtain rfl := hrest.eq_of_readOnly (updated_readOnly _ _)
      exact ⟨rfl, rfl⟩
    | some nodes =>
      simp only [hnodes] at hrest
      obtain ⟨_, w', hreplace, hanswer⟩ := runs_bind_ok.mp hrest
      obtain rfl := hanswer.eq_of_readOnly (updated_readOnly _ _)
      exact of_replaceNodes hreplace

lemma of_create {dto : CreateUpstreamDto} {upstream : UpstreamDto}
    (h : backend.database.Runs (create dto) t (.ok upstream) u) : ∃ now i, u = { t with
      upstreams := t.upstreams ++ [dto.toRow now i]
      nodes := u.nodes } := by
  obtain ⟨x, -, hrest⟩ := runs_exec_bind_ok.mp h
  obtain ⟨_, v, hinsert, hanswer⟩ := runs_bind_ok.mp hrest
  obtain rfl := hanswer.eq_of_readOnly (readOnly_ask fun _ => trivial)
  exact ⟨x.now, x.id, (of_insertNodes hinsert).1⟩

lemma of_softDelete {id : Nat} (h : backend.database.Runs (softDelete id) t (.ok ()) u) :
    ∃ now, u = { t with
      upstreams := (deleteWhere now (·.id == id) t.upstreams).apply t.upstreams
      nodes := u.nodes } := by
  obtain ⟨x, -, hrest⟩ := runs_exec_bind_ok.mp h
  obtain ⟨y, -, hdone⟩ := runs_exec_bind_ok.mp hrest
  obtain rfl := hdone.eq_of_readOnly trivial
  exact ⟨x.now, rfl⟩

end UpstreamRepoImpl

/-! ### Plugin bindings -/

namespace PluginBindingRepoImpl

variable {routeId : Nat} {pluginName : String} {binding : PluginBindingDto}

lemma of_bind {dto : BindPluginDto}
    (h : backend.database.Runs (bind routeId dto) t (.ok binding) u) :
    ∃ now i, u = { t with bindings := t.bindings ++ [dto.toRow now routeId i] } := by
  have h := runs_ask_bind_ok.mp h
  split_ifs at h
  · obtain ⟨-, -, ⟨⟩, -⟩ := h
  · obtain ⟨x, -, hanswer⟩ := runs_exec_bind_ok.mp h
    exact ⟨x.now, x.id, hanswer.eq_of_readOnly trivial⟩

lemma of_update {dto : UpdatePluginBindingDto}
    (h : backend.database.Runs (update routeId pluginName dto) t (.ok binding) u) :
    ∃ m now, t.findBinding routeId pluginName = some m ∧
      u = { t with bindings := SoftTable.update m.id (dto.writeTo now) t.bindings } := by
  have h := runs_ask_bind_ok.mp h
  cases hm : t.findBinding routeId pluginName with
  | none =>
    rw [hm] at h
    obtain ⟨-, -, ⟨⟩, -⟩ := h
  | some m =>
    rw [hm] at h
    obtain ⟨x, -, hanswer⟩ := runs_exec_bind_ok.mp h
    refine ⟨m, x.now, rfl, hanswer.eq_of_readOnly ?_⟩
    dsimp only
    split <;> trivial

lemma of_unbind (h : backend.database.Runs (unbind routeId pluginName) t (.ok ()) u) :
    ∃ now p, u = { t with bindings := SoftTable.softDelete now p t.bindings } := by
  obtain ⟨x, -, hdone⟩ := runs_exec_bind_ok.mp h
  exact ⟨x.now, _, hdone.eq_of_readOnly trivial⟩

end PluginBindingRepoImpl

end Conrogate
