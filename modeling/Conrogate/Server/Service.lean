import Conrogate.Lib.Proc
import Conrogate.Storage.ConfigVersion
import Conrogate.Storage.UpdateFrame

/-!
# The control service

The calls one after the other: each is executed alone, and every statement of it is answered. Audit
log and configuration cache are not modelled: a failure of either does not change the answer.
-/

namespace Conrogate

open Database UpstreamRepoImpl PluginBindingRepoImpl

structure ControlState where
  tables : Tables
  versions : List ConfigVersionRow

def ControlState.init : ControlState := ⟨Tables.empty, []⟩

/-- The hash function, and what the database says to a write that it refuses. -/
structure ControlEnv where
  hash : ConfigSnapshot → String
  writeError : String
  uniqueError : String
  backend : DatabaseBackend

def TableWrite.freshId (t : Tables) : TableWrite → Nat
  | .routes _ => SoftTable.freshId t.routes
  | .upstreams _ => SoftTable.freshId t.upstreams
  | .nodes _ => SoftTable.freshId t.nodes
  | .bindings _ => SoftTable.freshId t.bindings

def stamp (now : Time) (w : Stamp → Tables → TableWrite) (t : Tables) : Stamp :=
  ⟨now, (w ⟨now, 0⟩ t).freshId t⟩

namespace ControlService

variable (env : ControlEnv) (now : Time)

def onTables {α : Type} (p : TableProgram α) (s : ControlState) :
    Result (α × ControlState) :=
  match p.execute env.backend.database (stamp now) env.writeError s.tables with
  | (.ok answer, tables) => .ok (answer, { s with tables := tables })
  | (.error e, _)        => .error e

/-! ### Routes and upstreams -/

def createRoute (dto : CreateRouteDto) :
    ControlState → Result (RouteDto × ControlState) :=
  onTables env now (RouteRepoImpl.create dto)

def updateRoute (dto : UpdateRouteDto) :
    ControlState → Result (RouteDto × ControlState) :=
  onTables env now (RouteRepoImpl.update dto)

def deleteRoute (id : Nat) : ControlState → Result (Unit × ControlState) :=
  onTables env now (RouteRepoImpl.softDelete id)

def createUpstream (dto : CreateUpstreamDto) :
    ControlState → Result (UpstreamDto × ControlState) :=
  onTables env now (UpstreamRepoImpl.create dto)

def updateUpstream (dto : UpdateUpstreamDto) :
    ControlState → Result (UpstreamDto × ControlState) :=
  onTables env now (UpstreamRepoImpl.update dto)

def deleteUpstream (id : Nat) (s : ControlState) : Result (Unit × ControlState) :=
  let bindings := listRouteBindings id s.tables
  let names := ", ".intercalate (bindings.map (·.2))
  if bindings ≠ [] then
    .error (.conflict
      s!"upstream is bound by {bindings.length} route(s): {names}; unbind first before deleting")
  else onTables env now (UpstreamRepoImpl.softDelete id) s

/-! ### Plugin bindings -/

def bindPlugin (routeId : Nat) (dto : BindPluginDto) :
    ControlState → Result (PluginBindingDto × ControlState) :=
  onTables env now (PluginBindingRepoImpl.bind routeId dto)

def updatePluginBinding (routeId : Nat) (pluginName : String) (dto : UpdatePluginBindingDto) :
    ControlState → Result (PluginBindingDto × ControlState) :=
  onTables env now (PluginBindingRepoImpl.update routeId pluginName dto)

def unbindPlugin (routeId : Nat) (pluginName : String) :
    ControlState → Result (Unit × ControlState) :=
  onTables env now (unbind routeId pluginName)

/-! ### Configuration versions -/

def insertConfigVersion (new : NewConfigVersion) (s : ControlState) :
    Result (ConfigVersionRow × ControlState) :=
  let id := (s.versions.map (·.id)).foldr max 0 + 1
  match insertVersion s.versions new id with
  | some versions => .ok (new.toRow id, { s with versions := versions })
  | none => .error (.dataMapping env.uniqueError)

def publishConfig (baseVersion : Nat) (operator remark : Option String) (s : ControlState) :
    Result (ConfigVersionRow × ControlState) := do
  let snapshot := s.tables.collect
  let new ← publishRead env.hash s.versions ⟨baseVersion, snapshot, operator, remark⟩ now
  insertConfigVersion env new s

def rollbackConfig (targetVersion : Nat) (operator : Option String) (s : ControlState) :
    Result (ConfigVersionRow × ControlState) :=
  match findVersion s.versions targetVersion with
  | none => .error (.notFound s!"version {targetVersion}")
  | some target => do
    let tables ← applySnapshot now target.snapshotContent s.tables
    let row ← rollbackTarget s.versions ⟨targetVersion, operator⟩
    insertConfigVersion env (rollbackRead s.versions ⟨targetVersion, operator⟩ row now)
      { s with tables := tables }

end ControlService

/-! ### Operations one after the other -/

inductive ControlOp where
  | createRoute (dto : CreateRouteDto)
  | updateRoute (dto : UpdateRouteDto)
  | deleteRoute (id : Nat)
  | createUpstream (dto : CreateUpstreamDto)
  | updateUpstream (dto : UpdateUpstreamDto)
  | deleteUpstream (id : Nat)
  | bindPlugin (routeId : Nat) (dto : BindPluginDto)
  | updatePluginBinding (routeId : Nat) (pluginName : String) (dto : UpdatePluginBindingDto)
  | unbindPlugin (routeId : Nat) (pluginName : String)
  | publishConfig (baseVersion : Nat) (operator remark : Option String)
  | rollbackConfig (targetVersion : Nat) (operator : Option String)

def ControlOp.exec (env : ControlEnv) (now : Time) (s : ControlState) :
    ControlOp → Result ControlState
  | .createRoute dto => (·.2) <$> ControlService.createRoute env now dto s
  | .updateRoute dto => (·.2) <$> ControlService.updateRoute env now dto s
  | .deleteRoute id => (·.2) <$> ControlService.deleteRoute env now id s
  | .createUpstream dto => (·.2) <$> ControlService.createUpstream env now dto s
  | .updateUpstream dto => (·.2) <$> ControlService.updateUpstream env now dto s
  | .deleteUpstream id => (·.2) <$> ControlService.deleteUpstream env now id s
  | .bindPlugin routeId dto => (·.2) <$> ControlService.bindPlugin env now routeId dto s
  | .updatePluginBinding routeId pluginName dto =>
    (·.2) <$> ControlService.updatePluginBinding env now routeId pluginName dto s
  | .unbindPlugin routeId pluginName =>
    (·.2) <$> ControlService.unbindPlugin env now routeId pluginName s
  | .publishConfig baseVersion operator remark =>
    (·.2) <$> ControlService.publishConfig env now baseVersion operator remark s
  | .rollbackConfig targetVersion operator =>
    (·.2) <$> ControlService.rollbackConfig env now targetVersion operator s

/-- An operation that succeeds. The backend can still refuse its writes: on MySQL a soft delete
fails if a row of the same name was deleted at the same time. -/
def controlStep (env : ControlEnv) (s : ControlState) (call : Time × ControlOp) :
    Option ControlState := do
  let s' ← (call.2.exec env call.1 s).toOption
  if s'.tables.Admitted env.backend then some s' else none

/-! ### What an operation can do -/

section Cases

open ControlService SoftTable

variable {env : ControlEnv} {now : Time} {s s' : ControlState} {α : Type}

lemma exec_eq_ok_iff {x : Result (α × ControlState)} :
    (·.2) <$> x = .ok s' ↔ ∃ answer, x = .ok (answer, s') := by
  cases x with
  | error e => simp
  | ok r => simp [Prod.ext_iff, eq_comm]

lemma of_onTables {p : TableProgram α} (h : (·.2) <$> onTables env now p s = .ok s') :
    ∃ answer, env.backend.database.Runs p s.tables (.ok answer) s'.tables ∧
      s'.versions = s.versions := by
  obtain ⟨answer, h⟩ := exec_eq_ok_iff.mp h
  have hruns := runs_execute env.backend.database (stamp now) env.writeError p s.tables
  rw [onTables] at h
  generalize p.execute env.backend.database (stamp now) env.writeError s.tables = out at h hruns
  obtain ⟨_ | a, tables⟩ := out
  · cases h
  · cases h
    exact ⟨answer, hruns, rfl⟩

variable {row : ConfigVersionRow}

lemma of_insertConfigVersion {new : NewConfigVersion}
    (h : insertConfigVersion env new s = .ok (row, s')) :
    row.snapshotContent = new.snapshotContent ∧ s'.tables = s.tables ∧
      s'.versions = s.versions ++ [row] ∧ findVersion s'.versions row.version = some row := by
  rw [insertConfigVersion, insertVersion] at h
  split_ifs at h with hdup
  cases h
  refine ⟨rfl, rfl, rfl, ?_⟩
  have hfresh : findVersion s.versions new.version = none := by
    rw [findVersion, List.find?_eq_none]
    simpa using hdup
  rw [findVersion] at hfresh ⊢
  rw [List.find?_append, show (new.toRow _).version = new.version from rfl, hfresh]
  simp [NewConfigVersion.toRow]

lemma of_deleteUpstream {id : Nat} {answer : Unit}
    (h : deleteUpstream env now id s = .ok (answer, s')) :
    env.backend.database.Runs (UpstreamRepoImpl.softDelete id) s.tables (.ok ()) s'.tables ∧
      s'.versions = s.versions := by
  simp only [deleteUpstream] at h
  split_ifs at h
  obtain ⟨_, hcall, hversions⟩ := of_onTables (exec_eq_ok_iff.mpr ⟨_, h⟩)
  exact ⟨hcall, hversions⟩

lemma of_publishConfig {baseVersion : Nat} {operator remark : Option String}
    (h : publishConfig env now baseVersion operator remark s = .ok (row, s')) :
    row.snapshotContent = s.tables.collect ∧ s'.tables = s.tables ∧
      s'.versions = s.versions ++ [row] ∧ findVersion s'.versions row.version = some row := by
  obtain ⟨new, hread, hinsert⟩ := Proc.bind_eq_ok.mp h
  obtain ⟨hrow, htables, hversions⟩ := of_insertConfigVersion hinsert
  have hnew : new.snapshotContent = s.tables.collect := by
    simp only [publishRead] at hread
    split_ifs at hread
    cases hread
    rfl
  exact ⟨hrow.trans hnew, htables, hversions⟩

lemma of_rollbackConfig {targetVersion : Nat} {operator : Option String}
    (h : rollbackConfig env now targetVersion operator s = .ok (row, s')) :
    ∃ target, findVersion s.versions targetVersion = some target ∧
      applySnapshot now target.snapshotContent s.tables = .ok s'.tables ∧
      row.snapshotContent = target.snapshotContent ∧ s'.versions = s.versions ++ [row] := by
  rw [rollbackConfig] at h
  split at h
  · cases h
  · rename_i target htarget
    obtain ⟨tables, happly, h⟩ := Proc.bind_eq_ok.mp h
    obtain ⟨again, hagain, hinsert⟩ := Proc.bind_eq_ok.mp h
    -- the second query finds the row of the first
    obtain rfl : target = again := by
      simp only [rollbackTarget, htarget] at hagain
      exact Except.ok.inj hagain
    obtain ⟨hrow, htables, hversions, -⟩ := of_insertConfigVersion hinsert
    exact ⟨target, htarget, htables ▸ happly, hrow, hversions⟩

lemma controlStep_eq_some_iff {call : Time × ControlOp} : controlStep env s call = some s' ↔
    call.2.exec env call.1 s = .ok s' ∧ s'.tables.Admitted env.backend := by
  rw [controlStep]
  cases call.2.exec env call.1 s with
  | error e => simp [Except.toOption]
  | ok t =>
    simp only [Except.toOption, Option.bind_eq_bind, Option.bind_some, Except.ok.injEq,
      Option.ite_none_right_eq_some, Option.some.injEq]
    constructor
    · rintro ⟨hadmitted, rfl⟩
      exact ⟨rfl, hadmitted⟩
    · rintro ⟨rfl, hadmitted⟩
      exact ⟨hadmitted, rfl⟩

theorem exec_cases {op : ControlOp} (h : op.exec env now s = .ok s') :
    (s'.tables.bindings = s.tables.bindings ∧ s'.versions = s.versions) ∨
    (∃ routeId dto now i, op = .bindPlugin routeId dto ∧ s'.versions = s.versions ∧
      s'.tables.bindings = s.tables.bindings ++ [dto.toRow now routeId i]) ∨
    (∃ routeId pluginName dto m now, op = .updatePluginBinding routeId pluginName dto ∧
      s.tables.findBinding routeId pluginName = some m ∧ s'.versions = s.versions ∧
      s'.tables.bindings = SoftTable.update m.id (dto.writeTo now) s.tables.bindings) ∨
    (∃ now p, s'.tables.bindings = SoftTable.softDelete now p s.tables.bindings ∧
      s'.versions = s.versions) ∨
    (∃ row : ConfigVersionRow, row.snapshotContent = s.tables.collect ∧ s'.tables = s.tables ∧
      s'.versions = s.versions ++ [row]) ∨
    (∃ target ∈ s.versions, ∃ row : ConfigVersionRow,
      applySnapshot now target.snapshotContent s.tables = .ok s'.tables ∧
      row.snapshotContent = target.snapshotContent ∧ s'.versions = s.versions ++ [row]) := by
  cases op with
  | createRoute dto =>
    obtain ⟨route, hcall, hversions⟩ := of_onTables h
    obtain ⟨_, _, htables⟩ := RouteRepoImpl.of_create hcall
    exact .inl ⟨by rw [htables], hversions⟩
  | updateRoute dto =>
    obtain ⟨route, hcall, hversions⟩ := of_onTables h
    obtain ⟨m, _, -, htables⟩ := RouteRepoImpl.of_update hcall
    exact .inl ⟨by rw [htables], hversions⟩
  | deleteRoute id =>
    obtain ⟨_, hcall, hversions⟩ := of_onTables h
    obtain ⟨_, htables⟩ := RouteRepoImpl.of_softDelete hcall
    exact .inl ⟨by rw [htables], hversions⟩
  | createUpstream dto =>
    obtain ⟨upstream, hcall, hversions⟩ := of_onTables h
    obtain ⟨_, _, htables⟩ := of_create hcall
    exact .inl ⟨by rw [htables], hversions⟩
  | updateUpstream dto =>
    obtain ⟨upstream, hcall, hversions⟩ := of_onTables h
    obtain ⟨m, _, -, htables, -⟩ := UpstreamRepoImpl.of_update hcall
    exact .inl ⟨by rw [htables], hversions⟩
  | deleteUpstream id =>
    obtain ⟨_, hdelete⟩ := exec_eq_ok_iff.mp h
    obtain ⟨hcall, hversions⟩ := of_deleteUpstream hdelete
    obtain ⟨_, htables⟩ := of_softDelete hcall
    exact .inl ⟨by rw [htables], hversions⟩
  | bindPlugin routeId dto =>
    obtain ⟨binding, hcall, hversions⟩ := of_onTables h
    obtain ⟨_, _, htables⟩ := of_bind hcall
    exact .inr (.inl ⟨routeId, dto, _, _, rfl, hversions, by rw [htables]⟩)
  | updatePluginBinding routeId pluginName dto =>
    obtain ⟨binding, hcall, hversions⟩ := of_onTables h
    obtain ⟨m, _, hm, htables⟩ := PluginBindingRepoImpl.of_update hcall
    exact .inr (.inr (.inl ⟨routeId, pluginName, dto, m, _, rfl, hm, hversions, by rw [htables]⟩))
  | unbindPlugin routeId pluginName =>
    obtain ⟨_, hcall, hversions⟩ := of_onTables h
    obtain ⟨_, p, htables⟩ := of_unbind hcall
    exact .inr (.inr (.inr (.inl ⟨_, p, by rw [htables], hversions⟩)))
  | publishConfig baseVersion operator remark =>
    obtain ⟨row, hpublish⟩ := exec_eq_ok_iff.mp h
    obtain ⟨hrow, htables, hversions, -⟩ := of_publishConfig hpublish
    exact .inr (.inr (.inr (.inr (.inl ⟨row, hrow, htables, hversions⟩))))
  | rollbackConfig targetVersion operator =>
    obtain ⟨row, hrollback⟩ := exec_eq_ok_iff.mp h
    obtain ⟨target, htarget, hdone⟩ := of_rollbackConfig hrollback
    exact .inr (.inr (.inr (.inr (.inr
      ⟨target, List.mem_of_find?_eq_some htarget, row, hdone⟩))))

end Cases

end Conrogate
