import Conrogate.Server.ViewerRequests
import Conrogate.Storage.UpdateFrame

/-!
# Updates of routes and upstreams

`PUT /routes/:id` and `PUT /upstreams/:id` update the resource whose id is in the body; `PATCH`
takes the id from the path. A field that is missing or `null` keeps its value.
-/

namespace Conrogate

open SoftTable Database ControlProgram List Option ServiceCall DatabaseBackend ControlPlane Runs Api
  SoftRow
  ApiHandler
  UpdateRouteDto

variable {j : Json}

namespace Json

variable {α β : Type} {ms : List (String × Json)} {key : String} {read : Json → Option α}
  {v : Option α}

def given : Option Json → Option Json
  | some .null => none
  | member => member

def Supplied (read : Json → Option α) (old new : α) : Option Json → Prop
  | none   => new = old
  | some j => read j = some new

lemma eq_null_of_asOption (h : asOption read j = some none) : j = .null := by
  cases j with
  | null => rfl
  | bool | num | str | arr | obj => simp [asOption] at h

section

variable (h : optional ms key read = some v)
include h

lemma supplied_map (f : α → β) (old : β) :
    Supplied (fun j => (read j).map f) old ((v.map f).getD old) (given (field ms key)) := by
  rw [optional] at h
  cases hmember : field ms key with
  | none =>
    rw [hmember] at h
    cases h
    rfl
  | some j =>
    rw [hmember, orDefault] at h
    cases j with
    | null =>
      cases h
      rfl
    | bool | num | str | arr | obj =>
      obtain ⟨a, ha, rfl⟩ := map_eq_some_iff.mp h
      exact congrArg (Option.map f) ha

lemma supplied_getD (old : α) :
    Supplied read old (v.getD old) (given (field ms key)) := by
  simpa using supplied_map h id old

lemma supplied_orElse (hnull : field ms key ≠ some .null) (old : Option α) :
    Supplied (asOption read) old (v <|> old) (field ms key) := by
  rw [optional] at h
  cases hmember : field ms key with
  | none =>
    rw [hmember] at h
    cases h
    rfl
  | some j =>
    rw [hmember] at h hnull
    cases v with
    | none => exact absurd (congrArg some (eq_null_of_asOption h)) hnull
    | some a => exact h

lemma not_supplied_null (hnull : field ms key = some .null) (a : α) :
    ¬ Supplied (asOption read) (some a) (v <|> some a) (field ms key) := by
  rw [optional, hnull] at h
  cases h
  rw [hnull]
  exact nofun

end

end Json

section Bodies

open Json

variable {Net : Type} (api : Api Net) (ms : List (String × Json))

structure RouteUpdated (old new : RouteRow) : Prop where
  id : new.id = old.id
  name : Supplied asStr old.name new.name (given (field ms "name"))
  protocol : new.protocol = old.protocol
  matchConditions : Supplied (fun j => (api.matchConditions j).map some) old.matchConditions
    new.matchConditions (given (field ms "match_conditions"))
  priority : Supplied asI32 old.priority new.priority (given (field ms "priority"))
  upstreamId : Supplied (asOption asU64) old.upstreamId new.upstreamId (field ms "upstream_id")
  hostHeader : Supplied (asOption asStr) old.hostHeader new.hostHeader (field ms "host_header")
  allowRetryNonIdempotent : Supplied asBool old.allowRetryNonIdempotent
    new.allowRetryNonIdempotent (given (field ms "allow_retry_non_idempotent"))
  wsStripSensitiveHeaders : Supplied asBool old.wsStripSensitiveHeaders
    new.wsStripSensitiveHeaders (given (field ms "ws_strip_sensitive_headers"))
  enabled : Supplied asBool old.enabled new.enabled (given (field ms "enabled"))
  createdAt : new.createdAt = old.createdAt
  deletedAt : new.deletedAt = old.deletedAt

structure UpstreamUpdated (old new : UpstreamRow) : Prop where
  id : new.id = old.id
  name : Supplied asStr old.name new.name (given (field ms "name"))
  algorithm : Supplied (fun j => (api.algorithm j).map algorithmToI16) old.algorithm new.algorithm
    (given (field ms "algorithm"))
  retryEnabled : Supplied asBool old.retryEnabled new.retryEnabled
    (given (field ms "retry_enabled"))
  createdAt : new.createdAt = old.createdAt
  deletedAt : new.deletedAt = old.deletedAt

def NodesUpdated (upstreamId : Nat) (t u : Tables) : Prop :=
  match given (field ms "nodes") with
  | none   => u.nodes = t.nodes
  | some j => ∃ nodes, asVec api.node j = some nodes ∧
    (u.loadNodes upstreamId).map UpstreamRepoImpl.nodeColumns =
      nodes.map fun n => UpstreamRepoImpl.nodeColumns (n.toRow 0 upstreamId 0)

variable {api ms} {dto : UpdateRouteDto}

lemma members_of_updateRouteDto (h : api.updateRouteDto j = some dto) :
    ∃ ms, j.members routeFields = some ms ∧ optional ms "name" asStr = some dto.name ∧
      optional ms "match_conditions" api.matchConditions = some dto.matchConditions ∧
      optional ms "priority" asI32 = some dto.priority ∧
      optional ms "upstream_id" asU64 = some dto.upstreamId ∧
      optional ms "host_header" asStr = some dto.hostHeader ∧
      optional ms "allow_retry_non_idempotent" asBool = some dto.allowRetryNonIdempotent ∧
      optional ms "ws_strip_sensitive_headers" asBool = some dto.wsStripSensitiveHeaders ∧
      optional ms "enabled" asBool = some dto.enabled := by
  simp only [updateRouteDto, bind_eq_bind, bind_eq_some_iff, some.injEq] at h
  obtain ⟨ms, hms, _, -, _, h1, _, h2, _, h3, _, h4, _, h5, _, h6, _, h7, _, h8, rfl⟩ := h
  exact ⟨ms, hms, h1, h2, h3, h4, h5, h6, h7, h8⟩

lemma routeUpdated_writeTo (h : api.updateRouteDto j = some dto)
    (hms : j.members routeFields = some ms) (hupstream : field ms "upstream_id" ≠ some .null)
    (hhost : field ms "host_header" ≠ some .null) (m : RouteRow) (now : Time) :
    RouteUpdated api ms m (dto.writeTo now m) := by
  obtain ⟨ms', hms', h1, h2, h3, h4, h5, h6, h7, h8⟩ := members_of_updateRouteDto h
  obtain rfl : ms' = ms := some.inj (hms'.symm.trans hms)
  refine ⟨rfl, supplied_getD h1 _, rfl, ?_, supplied_getD h3 _, supplied_orElse h4 hupstream _,
    supplied_orElse h5 hhost _, supplied_getD h6 _, supplied_getD h7 _, supplied_getD h8 _, rfl,
    rfl⟩
  have hconditions := supplied_map h2 some m.matchConditions
  rw [writeTo]
  cases hv : dto.matchConditions <;> simpa [hv] using hconditions

lemma members_of_updateUpstreamDto {dto : UpdateUpstreamDto}
    (h : api.updateUpstreamDto j = some dto) :
    ∃ ms, j.members upstreamFields = some ms ∧ optional ms "name" asStr = some dto.name ∧
      optional ms "algorithm" api.algorithm = some dto.algorithm ∧
      optional ms "retry_enabled" asBool = some dto.retryEnabled ∧
      optional ms "nodes" (asVec api.node) = some dto.nodes := by
  simp only [updateUpstreamDto, bind_eq_bind, bind_eq_some_iff, some.injEq] at h
  obtain ⟨ms, hms, _, -, _, h1, _, h2, _, h3, _, h4, rfl⟩ := h
  exact ⟨ms, hms, h1, h2, h3, h4⟩

end Bodies

/-! ### The calls -/

section Calls

variable {Net : Type} {api : Api Net} {backend : DatabaseBackend} {caller : Caller}
  {s t : ControlPlane} {r : Result Unit} {R : Tables → Tables → Prop}

lemma frame_of_runs [Std.Refl R] [IsTrans Tables R] {p : ControlProgram Unit}
    (hp : p.Within backend.controlPlane fun s t => R s.tables t.tables)
    (h : backend.controlPlane.Runs p s r t) : R s.tables t.tables := by
  have : Std.Refl fun s t : ControlPlane => R s.tables t.tables := ⟨fun _ => refl_of R _⟩
  have : IsTrans ControlPlane fun s t => R s.tables t.tables := ⟨fun _ _ _ => trans_of R⟩
  obtain ⟨xs, h⟩ := h
  exact h.within hp

lemma admits_tables (s : ControlPlane) (h : backend.controlPlane.admits s = true) :
    backend.database.admits s.tables = true :=
  admits_iff.mpr (controlPlane_admits_iff.mp h).tables

variable {α : Type} {p : TableProgram α}

lemma within_onTables (hp : p.Within backend.database R) :
    (onTables p).Within backend.controlPlane fun s t => R s.tables t.tables :=
  hp.lift (fun _ _ => rfl) admits_tables

lemma within_auditLog [Std.Refl R] (action resource : String) (resourceId : Option Nat) :
    (auditLog caller action resource resourceId).Within backend.controlPlane fun s t =>
      R s.tables t.tables :=
  ⟨fun _ _ _ => refl_of R _, fun _ => trivial, fun _ _ => trivial⟩

lemma within_update [Std.Refl R] (hp : p.Within backend.database R) (resource : String)
    (id : α → Option Nat) :
    (do let _ ← audited caller "update" resource p id : ControlProgram Unit).Within
      backend.controlPlane fun s t => R s.tables t.tables := by
  refine .bind (.bind (within_onTables hp) fun _ => .bind (within_auditLog ..) fun _ => ?_)
    fun _ => ?_
  · trivial
  · trivial

lemma updateRoute_frame {dto : UpdateRouteDto}
    (h : backend.controlPlane.Runs ((updateRoute dto).program api caller) s r t) :
    Tables.RouteFrame (some dto.id) s.tables t.tables :=
  frame_of_runs (within_update (RouteRepoImpl.update_within dto) "route" _) h

lemma updateUpstream_frame {dto : UpdateUpstreamDto}
    (h : backend.controlPlane.Runs ((updateUpstream dto).program api caller) s r t)
    (hids : (s.tables.nodes.map (·.id)).Nodup) :
    Tables.UpstreamFrame (some dto.id) s.tables t.tables :=
  (frame_of_runs (within_update (UpstreamRepoImpl.update_within dto) "upstream" _) h hids).2

lemma runs_onTables {u : Tables} {a : Result α} (hs : s.Admitted backend)
    (h : backend.database.Runs p s.tables a u) :
    ∃ t, backend.controlPlane.Runs (onTables p) s a t ∧ t.tables = u := by
  have hadmits : ∀ (w : TableWrite) (s : ControlPlane), backend.controlPlane.admits s = true →
      backend.database.admits (w.apply s.tables) = true →
      backend.controlPlane.admits { s with tables := w.apply s.tables } = true := by
    intro w s hs hw
    rw [controlPlane_admits_iff] at hs ⊢
    exact { hs with tables := admits_iff.mp hw }
  obtain ⟨xs, h⟩ := h
  have hlift : ∃ t, backend.controlPlane.Executes (onTables p) s xs a t ∧ t.tables = u ∧
      backend.controlPlane.admits t = true :=
    h.lift (fun _ _ => rfl) hadmits (controlPlane_admits_iff.mpr hs)
  obtain ⟨t, ht, htables, -⟩ := hlift
  exact ⟨t, ⟨xs, ht⟩, htables⟩

lemma onTables_of_runs {resource : String} {id : α → Option Nat}
    (h : backend.controlPlane.Runs (do let _ ← audited caller "update" resource p id) s (.ok ()) t)
    :
    ∃ a, backend.database.Runs p s.tables (.ok a) t.tables := by
  obtain ⟨b, v, hcall, -, -, -, rfl⟩ := runs_bind_ok.mp h
  obtain ⟨a, u, ⟨xs, hp⟩, hrest⟩ := runs_bind_ok.mp hcall
  have : Std.Refl fun t u : Tables => u = t := ⟨fun _ => rfl⟩
  have : IsTrans Tables fun t u => u = t := ⟨fun _ _ _ h h' => h'.trans h⟩
  have htables : t.tables = u.tables := by
    obtain ⟨_, v, haudit, -, -, -, rfl⟩ := runs_bind_ok.mp hrest
    exact frame_of_runs (R := fun t u => u = t) (within_auditLog (R := fun t u => u = t) ..) haudit
  rw [htables]
  exact ⟨a, xs, hp.of_lift (fun _ _ => rfl) admits_tables⟩

lemma of_updateRoute {dto : UpdateRouteDto}
    (h : backend.controlPlane.Runs ((updateRoute dto).program api caller) s (.ok ())
      t) : ∃ m now, selectOne (·.id == dto.id) s.tables.routes = some m ∧ t.tables =
        { s.tables with routes := update m.id (dto.writeTo now) s.tables.routes } := by
  obtain ⟨route, hupdate⟩ := onTables_of_runs h
  exact RouteRepoImpl.of_update hupdate

lemma of_updateUpstream {dto : UpdateUpstreamDto}
    (h : backend.controlPlane.Runs ((updateUpstream dto).program api caller) s (.ok ())
      t) : ∃ m now, selectOne (·.id == dto.id) s.tables.upstreams = some m ∧
        t.tables.upstreams = update m.id (dto.writeTo now) s.tables.upstreams ∧
        match dto.nodes with
        | none => t.tables.nodes = s.tables.nodes
        | some nodes => (t.tables.loadNodes m.id).map UpstreamRepoImpl.nodeColumns =
          nodes.map fun n => UpstreamRepoImpl.nodeColumns (n.toRow 0 m.id 0) := by
  obtain ⟨upstream, hupdate⟩ := onTables_of_runs h
  obtain ⟨m, now, hm, htables, hnodes⟩ := UpstreamRepoImpl.of_update hupdate
  exact ⟨m, now, hm, congrArg Tables.upstreams htables, hnodes⟩

end Calls

/-! ### Requests -/

section Requests

open Json

variable {Net : Type} (api : Api Net) (params : List String) (req : HttpRequest)

/-- What a request to a route or an upstream may do: only what its path addresses changes, and if
the answer is Ok, the row that is addressed holds what the body supplies and is else as before. -/
def ApiHandler.Addressed (r : Result Unit) (t u : Tables) : ApiHandler → Prop
  | .updateUpstream => Tables.UpstreamFrame (api.pathId params[0]?) t u ∧
    (r = .ok () → ∃ j ms, api.json req = some j ∧ j.members upstreamFields = some ms ∧
      ∃ old ∈ live t.upstreams, ∃ new ∈ live u.upstreams, some old.id = api.pathId params[0]? ∧
        UpstreamUpdated api ms old new ∧ NodesUpdated api ms old.id t u)
  | _ => Tables.RouteFrame (api.pathId params[0]?) t u ∧
    (r = .ok () → ∃ j ms, api.json req = some j ∧ j.members routeFields = some ms ∧
      ∃ old ∈ live t.routes, ∃ new ∈ live u.routes, some old.id = api.pathId params[0]? ∧
        RouteUpdated api ms old new)

def Api.permitted : Bool :=
  (authMiddleware api.auth req.headers).any fun caller => caller.1.hasPermission .operator

def Api.NoNull : Prop :=
  ∀ j ms, api.json req = some j → j.members routeFields = some ms →
    field ms "upstream_id" ≠ some .null ∧ field ms "host_header" ≠ some .null

def ApiHandler.Consistent : ApiHandler → Prop
  | .updateUpstream => ∀ dto, api.body api.updateUpstreamDto req = some dto →
    api.pathId params[0]? = some dto.id
  | .updateRoute => ∀ dto, api.body api.updateRouteDto req = some dto →
    api.pathId params[0]? = some dto.id ∧ api.NoNull req
  | _ => ∀ dto id, api.body api.updateRouteDto req = some dto →
    api.pathId params[0]? = some id → api.NoNull req

variable {api params req} {backend : DatabaseBackend} {s t : ControlPlane}
  {r : Result Unit}

lemma addressed_of_updateRoute {dto dto' : UpdateRouteDto} {caller : Caller}
    (hbody : api.body api.updateRouteDto req = some dto)
    (hwrite : ∀ now, dto'.writeTo now = dto.writeTo now)
    (hid : api.pathId params[0]? = some dto'.id) (hnull : api.NoNull req)
    (h : backend.controlPlane.Runs ((updateRoute dto').program api caller) s r t) :
    ApiHandler.Addressed api params req r s.tables t.tables .updateRoute := by
  refine ⟨hid ▸ updateRoute_frame h, ?_⟩
  rintro rfl
  obtain ⟨j, hj, hdto⟩ := bind_eq_some_iff.mp hbody
  obtain ⟨ms, hms, -⟩ := members_of_updateRouteDto hdto
  obtain ⟨hupstream, hhost⟩ := hnull j ms hj hms
  obtain ⟨m, now, hm, ht⟩ := of_updateRoute h
  obtain ⟨hlive, hmid⟩ := mem_of_selectOne hm
  have hnew : dto.writeTo now m ∈ live t.tables.routes := by
    rw [mem_live, ht, hwrite]
    exact ⟨mem_map.mpr ⟨m, (mem_live.mp hlive).1, if_pos rfl⟩, (mem_live.mp hlive).2⟩
  refine ⟨j, ms, hj, hms, m, hlive, _, hnew, ?_, ?_⟩
  · rw [hid, beq_iff_eq.mp hmid]
  · exact routeUpdated_writeTo hdto hms hupstream hhost m now

lemma addressed_of_updateUpstream {dto : UpdateUpstreamDto} {caller : Caller}
    (hbody : api.body api.updateUpstreamDto req = some dto)
    (hid : api.pathId params[0]? = some dto.id) (hids : (s.tables.nodes.map (·.id)).Nodup)
    (h : backend.controlPlane.Runs ((updateUpstream dto).program api caller) s r t) :
    ApiHandler.Addressed api params req r s.tables t.tables .updateUpstream := by
  refine ⟨hid ▸ updateUpstream_frame h hids, ?_⟩
  rintro rfl
  obtain ⟨j, hj, hdto⟩ := bind_eq_some_iff.mp hbody
  obtain ⟨ms, hms, h1, h2, h3, h4⟩ := members_of_updateUpstreamDto hdto
  obtain ⟨m, now, hm, hupstreams, hnodes⟩ := of_updateUpstream h
  obtain ⟨hlive, hmid⟩ := mem_of_selectOne hm
  have hnew : dto.writeTo now m ∈ live t.tables.upstreams := by
    rw [mem_live, hupstreams]
    exact ⟨mem_map.mpr ⟨m, (mem_live.mp hlive).1, if_pos rfl⟩, (mem_live.mp hlive).2⟩
  refine ⟨j, ms, hj, hms, m, hlive, _, hnew, ?_, ?_, ?_⟩
  · rw [hid, beq_iff_eq.mp hmid]
  · exact ⟨rfl, supplied_getD h1 _, supplied_map h2 _ _, supplied_getD h3 _, rfl, rfl⟩
  · have hgiven := supplied_map h4 some none
    rw [show (dto.nodes.map some).getD none = dto.nodes by cases dto.nodes <;> rfl] at hgiven
    rw [NodesUpdated]
    cases hmember : given (field ms "nodes") with
    | none =>
      rw [hmember, Supplied] at hgiven
      rwa [hgiven] at hnodes
    | some j =>
      rw [hmember, Supplied] at hgiven
      obtain ⟨nodes, hread, hv⟩ := map_eq_some_iff.mp hgiven
      rw [← hv] at hnodes
      exact ⟨nodes, hread, hnodes⟩

lemma addressed_refl (handler : ApiHandler) (e : ConrogateError) (t : Tables) :
    handler.Addressed api params req (.error e) t t := by
  unfold ApiHandler.Addressed
  split
  · exact ⟨.refl, nofun⟩
  · exact ⟨.refl, nofun⟩

section

variable {handler : ApiHandler} {p : ControlProgram Unit}
  (hroute : api.route req = some (handler, params))
include hroute

lemma serve_cases (hrequired : handler.required = some .operator) (h : api.serve req = some p) :
    (p = .throw .forbidden ∧ api.permitted req = false) ∨
      ∃ call caller, handler.extract api params req = some call ∧ p = call.program api caller ∧
        api.permitted req = true := by
  rw [serve, hroute] at h
  dsimp only at h
  split at h
  · rename_i role operator call hauth hcall
    cases h
    rw [hrequired, requireRole, permitted, hauth]
    by_cases hrole : role.hasPermission .operator = true
    · exact .inr ⟨call, _, hcall, if_pos hrole, hrole⟩
    · exact .inl ⟨if_neg hrole, by simpa using hrole⟩
  · cases h

theorem addressed_of_consistent
    (hhandler : handler = .updateRoute ∨ handler = .patchRoute ∨ handler = .updateUpstream)
    (hconsistent : api.permitted req = true → handler.Consistent api params req)
    (hp : api.serve req = some p) (hs : s.Admitted backend)
    (h : backend.controlPlane.Runs p s r t) :
    handler.Addressed api params req r s.tables t.tables := by
  have hrequired : handler.required = some .operator := by
    obtain rfl | rfl | rfl := hhandler <;> rfl
  obtain ⟨rfl, -⟩ | ⟨call, caller, hcall, rfl, hpermitted⟩ := serve_cases hroute hrequired hp
  · obtain ⟨-, -, rfl, rfl⟩ := h
    exact addressed_refl ..
  · have hok := hconsistent hpermitted
    obtain rfl | rfl | rfl := hhandler
    · obtain ⟨dto, hbody, hdto⟩ := bind_eq_some_iff.mp hcall
      cases hdto
      obtain ⟨hid, hnull⟩ := hok dto hbody
      exact addressed_of_updateRoute hbody (fun _ => rfl) hid hnull h
    · obtain ⟨id, hid, hcall⟩ := bind_eq_some_iff.mp hcall
      obtain ⟨dto, hbody, hdto⟩ := bind_eq_some_iff.mp hcall
      cases hdto
      refine addressed_of_updateRoute hbody ?_ ?_ (hok dto id hbody hid) h
      · intro _
        rfl
      · exact hid
    · obtain ⟨dto, hbody, hdto⟩ := bind_eq_some_iff.mp hcall
      cases hdto
      exact addressed_of_updateUpstream hbody (hok dto hbody) hs.tables.nodeIds h

end

end Requests

/-! ### Updates that succeed -/

section Failures

variable {backend : DatabaseBackend}

def storedUpstream (id : Nat) : UpstreamRow := ⟨id, "upstream", 1, true, 0, 0, none⟩

def storedRoute (id : Nat) (upstreamId : Option Nat) : RouteRow where
  id := id
  name := "route"
  protocol := 1
  matchConditions := some ⟨.exact "/", none, none, [], []⟩
  priority := 0
  upstreamId := upstreamId
  hostHeader := some "host"
  allowRetryNonIdempotent := false
  wsStripSensitiveHeaders := false
  enabled := true
  createdAt := 0
  updatedAt := 0
  deletedAt := none

def foundRoute (dto : UpdateRouteDto) : RouteRow :=
  storedRoute dto.id (some (dto.upstreamId.getD 0))

def tablesOf (upstream : UpstreamRow) (routes : List RouteRow) : Tables :=
  ⟨routes, [upstream], [], []⟩

lemma unique_singleton {ρ κ : Type} [SoftRow ρ] (key : ρ → κ) (row : ρ) :
    backend.Unique key [row] := by
  cases backend with
  | mySql =>
    show (List.filterMap _ [row]).Nodup
    cases hrow : deletedAt row <;> simp [hrow]
  | postgres | sqlite =>
    show ((live [row]).map key).Nodup
    cases hrow : isLive row <;> simp [live, hrow]

lemma tablesOf_admitted {upstream : UpstreamRow} {route : RouteRow}
    (hroute : ∀ i ∈ route.upstreamId, i = upstream.id) :
    (tablesOf upstream [route]).Admitted backend where
  routeIds := nodup_singleton _
  upstreamIds := nodup_singleton _
  nodeIds := nodup_nil
  bindingIds := nodup_nil
  routeNames := unique_singleton _ _
  bindingKeys := by cases backend <;> exact nodup_nil
  nodeUpstreams := nofun
  routeUpstreams := by
    intro r hr i hi
    obtain rfl := mem_singleton.mp hr
    simp [tablesOf, hroute i hi]
  bindingRoutes := nofun

lemma checkName_runs (dto : UpdateRouteDto) (upstream : UpstreamRow) :
    backend.database.Runs (RouteRepoImpl.checkName dto (foundRoute dto))
      (tablesOf upstream [foundRoute dto]) (.ok ()) (tablesOf upstream [foundRoute dto]) := by
  rw [RouteRepoImpl.checkName]
  split
  · exact .done
  · split_ifs
    · exact .done
    · refine runs_ask_bind_ok.mpr ?_
      have hfree : ∀ name, (select (fun r => r.name == name && r.id != dto.id)
          (tablesOf upstream [foundRoute dto]).routes).length = 0 := by
        simp [tablesOf, select, live, foundRoute, storedRoute]
      rw [hfree]
      exact .done

section

variable (backend : DatabaseBackend)

lemma updateRoute_runs (dto : UpdateRouteDto) : ∃ route,
    backend.database.Runs (RouteRepoImpl.update dto)
      (tablesOf (storedUpstream (dto.upstreamId.getD 0)) [foundRoute dto]) (.ok route)
      (tablesOf (storedUpstream (dto.upstreamId.getD 0)) [dto.writeTo 1 (foundRoute dto)]) := by
  set upstream := storedUpstream (dto.upstreamId.getD 0) with hupstream
  set t := tablesOf upstream [foundRoute dto] with ht
  have hfound : selectOne (·.id == dto.id) t.routes = some (foundRoute dto) := by
    simp [ht, tablesOf, selectOne, live, isLive, deletedAt, foundRoute, storedRoute]
  have hafter : (TableWrite.routes (.update (foundRoute dto).id (dto.writeTo 1))).apply t =
      tablesOf upstream [dto.writeTo 1 (foundRoute dto)] := by
    simp [ht, tablesOf, TableWrite.apply, RowWrite.apply, update, rowId]
  have hadmitted : (tablesOf upstream [dto.writeTo 1 (foundRoute dto)]).Admitted backend := by
    refine tablesOf_admitted ?_
    rw [writeTo, foundRoute, storedRoute]
    cases hv : dto.upstreamId <;> simp [hupstream, storedUpstream, hv]
  obtain ⟨route, hroute⟩ : ∃ route, (dto.writeTo 1 (foundRoute dto)).toDto = some route := by
    rw [writeTo, RouteRow.toDto, foundRoute, storedRoute]
    cases dto.matchConditions <;> exact ⟨_, rfl⟩
  refine ⟨route, runs_ask_bind_ok.mpr ?_⟩
  rw [hfound]
  refine bind (checkName_runs dto _) ?_
  rw [← hafter] at hadmitted ⊢
  refine bind (runs_exec ⟨1, 0⟩ hadmitted) ?_
  have hread : ((TableWrite.routes (.update (foundRoute dto).id (dto.writeTo 1))).apply
      t).routes.find? (·.id == (foundRoute dto).id) = some (dto.writeTo 1 (foundRoute dto)) := by
    simp [hafter, tablesOf, writeTo]
  dsimp only
  rw [hread, bind_some, hroute]
  exact .done

lemma updateRoute_succeeds {Net : Type} (api : Api Net) (caller : Caller) (dto : UpdateRouteDto) :
    ∃ s t : ControlPlane, s.Admitted backend ∧
      s.tables.routes = [foundRoute dto] ∧ t.tables.routes = [dto.writeTo 1 (foundRoute dto)] ∧
      backend.controlPlane.Runs ((updateRoute dto).program api caller) s (.ok ())
        t := by
  obtain ⟨route, hroute⟩ := updateRoute_runs backend dto
  have htables : (tablesOf (storedUpstream (dto.upstreamId.getD 0)) [foundRoute dto]).Admitted
      backend := tablesOf_admitted (by simp [foundRoute, storedRoute, storedUpstream])
  have hs : ControlPlane.Admitted backend { empty with
      tables := tablesOf (storedUpstream (dto.upstreamId.getD 0)) [foundRoute dto] } :=
    { empty_admitted backend with tables := htables }
  obtain ⟨t, ht, hafter⟩ := runs_onTables hs hroute
  refine ⟨_, t, hs, rfl, by rw [hafter]; rfl, ?_⟩
  -- the audit log need not be written
  exact bind (ht.bind (bind ⟨[], .inr ⟨"", rfl, rfl, rfl⟩⟩ .done)) .done

lemma updateUpstream_writes {Net : Type} (api : Api Net) (caller : Caller)
    (dto : UpdateUpstreamDto) : ∃ (s t : ControlPlane) (r : Result Unit),
      s.Admitted backend ∧ s.tables.upstreams = [storedUpstream dto.id] ∧
      t.tables.upstreams = [dto.writeTo 1 (storedUpstream dto.id)] ∧
      backend.controlPlane.Runs ((updateUpstream dto).program api caller) s r t := by
  set u := tablesOf (storedUpstream dto.id) [storedRoute 0 none] with hu
  have hfound : selectOne (·.id == dto.id) u.upstreams = some (storedUpstream dto.id) := by
    simp [hu, tablesOf, selectOne, live, isLive, deletedAt, storedUpstream]
  have hafter : (TableWrite.upstreams (.update dto.id (dto.writeTo 1))).apply u =
      tablesOf (dto.writeTo 1 (storedUpstream dto.id)) [storedRoute 0 none] := by
    simp [hu, tablesOf, TableWrite.apply, RowWrite.apply, update, rowId, storedUpstream]
  have hadmitted : ((TableWrite.upstreams (.update dto.id (dto.writeTo 1))).apply u).Admitted
      backend := hafter ▸ tablesOf_admitted (by simp [storedRoute])
  have hs : ControlPlane.Admitted backend { empty with tables := u } :=
    { empty_admitted backend with
      tables := tablesOf_admitted (by simp [storedRoute]) }
  obtain ⟨r, hr⟩ : ∃ r, backend.database.Runs (UpstreamRepoImpl.update dto) u r
      ((TableWrite.upstreams (.update dto.id (dto.writeTo 1))).apply u) := by
    refine Exists.imp (fun r => bind runs_ask) ?_
    rw [hfound]
    exact (runs_exec ⟨1, 0⟩ hadmitted).exists_bind _
  obtain ⟨t, ht, htables⟩ := runs_onTables hs hr
  obtain ⟨r', hr'⟩ := ht.exists_bind fun upstream => do
    auditLog caller "update" "upstream" (some upstream.id)
    pure upstream
  obtain ⟨r'', hr''⟩ := hr'.exists_bind fun _ => pure ()
  refine ⟨_, t, r'', hs, rfl, ?_, hr''⟩
  rw [htables, hafter]
  rfl

end

end Failures

section Requests

open Json

variable {Net : Type} {api : Api Net} {params : List String} {req : HttpRequest}
  {backend : DatabaseBackend}

lemma serve_of_permitted {handler : ApiHandler} {call : ServiceCall}
    (hroute : api.route req = some (handler, params))
    (hrequired : handler.required = some .operator) (hpermitted : api.permitted req = true)
    (hcall : handler.extract api params req = some call) :
    ∃ caller, api.serve req = some (call.program api caller) := by
  obtain ⟨⟨role, operator⟩, hauth, hrole⟩ := (any_eq_true _ _).mp hpermitted
  refine ⟨⟨operator, api.traceId req⟩, ?_⟩
  simp only [serve, hroute, hauth, hcall, hrequired, requireRole, all_some]
  rw [if_pos hrole]

lemma consistent_of_updateRoute {dto dto' : UpdateRouteDto} {caller : Caller}
    (hbody : api.body api.updateRouteDto req = some dto)
    (hwrite : ∀ now, dto'.writeTo now = dto.writeTo now)
    (h : ∀ s r t, s.Admitted backend →
      backend.controlPlane.Runs ((updateRoute dto').program api caller) s r t →
      ApiHandler.Addressed api params req r s.tables t.tables .updateRoute) :
    api.pathId params[0]? = some dto'.id ∧ api.NoNull req := by
  obtain ⟨s, t, hs, hold, hnew, hrun⟩ := updateRoute_succeeds backend api caller dto'
  obtain ⟨-, hok⟩ := h s _ t hs hrun
  obtain ⟨j, ms, hj, hms, old, holdmem, new, hnewmem, hid, hupdated⟩ := hok rfl
  rw [hold] at holdmem
  rw [hnew] at hnewmem
  obtain rfl := mem_singleton.mp (mem_live.mp holdmem).1
  obtain rfl := mem_singleton.mp (mem_live.mp hnewmem).1
  refine ⟨hid.symm, fun j' ms' hj' hms' => ?_⟩
  obtain rfl : j = j' := some.inj (hj.symm.trans hj')
  obtain rfl : ms = ms' := some.inj (hms.symm.trans hms')
  obtain ⟨j', hj', hdto⟩ := bind_eq_some_iff.mp hbody
  obtain rfl : j' = j := some.inj (hj'.symm.trans hj)
  obtain ⟨ms', hms', -, -, -, h4, h5, -⟩ := members_of_updateRouteDto hdto
  obtain rfl : ms' = ms := some.inj (hms'.symm.trans hms)
  rw [hwrite] at hupdated
  exact ⟨fun hnull => not_supplied_null h4 hnull _ hupdated.upstreamId,
    fun hnull => not_supplied_null h5 hnull _ hupdated.hostHeader⟩

lemma consistent_of_updateUpstream {dto : UpdateUpstreamDto} {caller : Caller}
    (h : ∀ s r t, s.Admitted backend →
      backend.controlPlane.Runs ((updateUpstream dto).program api caller) s r t →
      ApiHandler.Addressed api params req r s.tables t.tables .updateUpstream) :
    api.pathId params[0]? = some dto.id := by
  obtain ⟨s, t, r, hs, hold, hnew, hrun⟩ := updateUpstream_writes backend api caller dto
  by_contra hid
  have hframe := (h s r t hs hrun).1.upstreams
  rw [hold, hnew] at hframe
  have hout : (some dto.id == api.pathId params[0]?) = false :=
    beq_eq_false_iff_ne.mpr (Ne.symm hid)
  -- the row that is written is not the one that was found
  have hrow := congrArg UpstreamRow.updatedAt (hframe.eq_of_singleton hout hout)
  cases hrow

theorem consistent_of_addressed {handler : ApiHandler}
    (hroute : api.route req = some (handler, params))
    (hhandler : handler = .updateRoute ∨ handler = .patchRoute ∨ handler = .updateUpstream)
    (h : ∀ p s r t, api.serve req = some p → s.Admitted backend →
      backend.controlPlane.Runs p s r t → handler.Addressed api params req r s.tables t.tables)
    (hpermitted : api.permitted req = true) : handler.Consistent api params req := by
  have hrequired : handler.required = some .operator := by
    obtain rfl | rfl | rfl := hhandler <;> rfl
  have hcalls : ∀ call, handler.extract api params req = some call → ∃ caller, ∀ s r t,
      s.Admitted backend → backend.controlPlane.Runs (call.program api caller) s r t →
        handler.Addressed api params req r s.tables t.tables := by
    intro call hcall
    obtain ⟨caller, hserve⟩ := serve_of_permitted hroute hrequired hpermitted hcall
    exact ⟨caller, fun s r t => h _ s r t hserve⟩
  obtain rfl | rfl | rfl := hhandler
  · intro dto hbody
    obtain ⟨caller, hruns⟩ := hcalls (.updateRoute dto)
      (bind_eq_some_iff.mpr ⟨dto, hbody, rfl⟩)
    exact consistent_of_updateRoute hbody (fun _ => rfl) hruns
  · intro dto id hbody hid
    obtain ⟨caller, hruns⟩ := hcalls (.updateRoute { dto with id := id })
      (bind_eq_some_iff.mpr ⟨id, hid, bind_eq_some_iff.mpr ⟨dto, hbody, rfl⟩⟩)
    refine (consistent_of_updateRoute hbody ?_ hruns).2
    intro _
    rfl
  · intro dto hbody
    obtain ⟨caller, hruns⟩ := hcalls (.updateUpstream dto)
      (bind_eq_some_iff.mpr ⟨dto, hbody, rfl⟩)
    exact consistent_of_updateUpstream hruns

/-- Exactly the requests with the id of the path in the body, or with no use for it, and with no
`null` change what the path addresses, as the body says. -/
theorem Api.update_addressed_iff {handler : ApiHandler}
    (hroute : api.route req = some (handler, params))
    (hhandler : handler = .updateRoute ∨ handler = .patchRoute ∨ handler = .updateUpstream) :
    (∀ p s r t, api.serve req = some p → s.Admitted backend →
      backend.controlPlane.Runs p s r t → handler.Addressed api params req r s.tables t.tables) ↔
    (api.permitted req = true → handler.Consistent api params req) := by
  constructor
  · exact consistent_of_addressed hroute hhandler
  · intro h p s r t hp hs hrun
    exact addressed_of_consistent hroute hhandler h hp hs hrun

def apiWith (body : Json) : Api Unit := { sampleApi with json := fun _ => some body }

def operatorRequest : String → String → HttpRequest := tokenRequest "alice:key1:operator"

theorem Api.update_addressed_iff_patch :
    let api := apiWith (.obj [("name", .str "renamed")])
    let req := operatorRequest "PATCH" "/api/v1/routes/1"
    (api.serve req).isSome = true ∧ ∀ p s r t, api.serve req = some p →
      s.Admitted .postgres → postgres.controlPlane.Runs p s r t →
      patchRoute.Addressed api ["1"] req r s.tables t.tables := by
  intro api req
  have hroute : api.route req = some (.patchRoute, ["1"]) := by decide +kernel
  refine ⟨by decide +kernel, (update_addressed_iff hroute (.inr (.inl rfl))).mpr ?_⟩
  rintro - dto id - - j ms hj hms
  obtain rfl : _ = j := Option.some.inj hj
  obtain rfl : _ = ms := Option.some.inj hms
  exact ⟨nofun, nofun⟩

/-- The route in the body of a `PUT` changes, not the one in its path. -/
theorem Api.put_route_changes_other :
    let api := apiWith (.obj [("id", .num 2), ("name", .str "renamed")])
    let req := operatorRequest "PUT" "/api/v1/routes/1"
    api.route req = some (.updateRoute, ["1"]) ∧
    ∃ p s t, api.serve req = some p ∧ s.Admitted .postgres ∧
      postgres.controlPlane.Runs p s (.ok ()) t ∧
      s.tables.routes = [storedRoute 2 (some 0)] ∧
      t.tables.routes = [{ storedRoute 2 (some 0) with name := "renamed", updatedAt := 1 }] := by
  intro api req
  have hroute : api.route req = some (.updateRoute, ["1"]) := by decide +kernel
  let dto : UpdateRouteDto := ⟨2, some "renamed", none, none, none, none, none, none, none⟩
  have hcall : updateRoute.extract api ["1"] req = some (.updateRoute dto) := rfl
  obtain ⟨caller, hserve⟩ := serve_of_permitted hroute rfl (by decide +kernel) hcall
  obtain ⟨s, t, hs, hold, hnew, hrun⟩ := updateRoute_succeeds .postgres api caller dto
  exact ⟨hroute, _, s, t, hserve, hs, hrun, hold, hnew⟩

end Requests

end Conrogate
