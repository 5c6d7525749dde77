import Conrogate.Server.Service
import Conrogate.Storage.Distinct
import Conrogate.Storage.Integrity
import Conrogate.Storage.RoundTrip

/-!
# The database of the control service

The tables keep the constraints of the schema, and every stored version was collected from such
tables, so it can be written back.
-/

namespace Conrogate

open ControlService PluginBindingRepoImpl UpstreamRepoImpl Transition RouteRepoImpl SoftTable

/-- The tables, and every version that may be restored, refer to what is there. -/
structure ControlState.Intact (s : ControlState) : Prop where
  tables : s.tables.WellFormed
  versions : ∀ v ∈ s.versions, v.snapshotContent.Coherent

variable {env : ControlEnv} {now : Time} {s s' : ControlState}

namespace ControlState.Intact

lemma init : ControlState.init.Intact := ⟨Tables.empty_wellFormed, fun v hv => by cases hv⟩

lemma of_tables (h : s.Intact) (htables : s'.tables.WellFormed)
    (hversions : s'.versions = s.versions) :
    s'.Intact :=
  ⟨htables, hversions ▸ h.versions⟩

lemma of_version (h : s.Intact) {row : ConfigVersionRow} (htables : s'.tables.WellFormed)
    (hrow : row.snapshotContent.Coherent) (hversions : s'.versions = s.versions ++ [row]) :
    s'.Intact := by
  refine ⟨htables, ?_⟩
  rw [hversions]
  intro v hv
  rcases List.mem_append.mp hv with hv | hv
  · exact h.versions v hv
  · rw [List.mem_singleton.mp hv]
    exact hrow

lemma of_runs {α : Type} {p : TableProgram α} {answer : α} (h : s.Intact)
    (hadmitted : s'.tables.Admitted env.backend) (hp : p.Safe env.backend fun _ => True)
    (hcall : env.backend.database.Runs p s.tables (.ok answer) s'.tables)
    (hversions : s'.versions = s.versions) : s'.Intact :=
  h.of_tables (hadmitted.wellFormed (hcall.keeps hp trivial h.tables.distinct)) hversions

lemma exec {op : ControlOp} (h : s.Intact) (hexec : op.exec env now s = .ok s')
    (hadmitted : s'.tables.Admitted env.backend) : s'.Intact := by
  cases op with
  | createRoute dto =>
    obtain ⟨_, hcall, hversions⟩ := of_onTables hexec
    exact h.of_runs hadmitted (create_safe dto) hcall hversions
  | updateRoute dto =>
    obtain ⟨_, hcall, hversions⟩ := of_onTables hexec
    exact h.of_runs hadmitted (update_safe dto) hcall hversions
  | deleteRoute id =>
    obtain ⟨_, hcall, hversions⟩ := of_onTables hexec
    exact h.of_runs hadmitted (RouteRepoImpl.softDelete_safe id) hcall hversions
  | createUpstream dto =>
    obtain ⟨_, hcall, hversions⟩ := of_onTables hexec
    exact h.of_runs hadmitted (create_safe dto) hcall hversions
  | updateUpstream dto =>
    obtain ⟨_, hcall, hversions⟩ := of_onTables hexec
    exact h.of_runs hadmitted (update_safe dto) hcall hversions
  | deleteUpstream id =>
    obtain ⟨_, hdelete⟩ := exec_eq_ok_iff.mp hexec
    obtain ⟨hcall, hversions⟩ := of_deleteUpstream hdelete
    exact h.of_runs hadmitted (UpstreamRepoImpl.softDelete_safe id) hcall hversions
  | bindPlugin routeId dto =>
    obtain ⟨_, hcall, hversions⟩ := of_onTables hexec
    exact h.of_runs hadmitted (bind_safe routeId dto) hcall hversions
  | updatePluginBinding routeId pluginName dto =>
    obtain ⟨_, hcall, hversions⟩ := of_onTables hexec
    exact h.of_runs hadmitted (update_safe routeId pluginName dto) hcall hversions
  | unbindPlugin routeId pluginName =>
    obtain ⟨_, hcall, hversions⟩ := of_onTables hexec
    exact h.of_runs hadmitted (unbind_safe routeId pluginName) hcall hversions
  | publishConfig baseVersion operator remark =>
    obtain ⟨row, hpublish⟩ := exec_eq_ok_iff.mp hexec
    obtain ⟨hrow, htables, hversions, -⟩ := of_publishConfig hpublish
    exact h.of_version (htables ▸ h.tables) (hrow ▸ h.tables.collect_coherent) hversions
  | rollbackConfig targetVersion operator =>
    obtain ⟨row, hrollback⟩ := exec_eq_ok_iff.mp hexec
    obtain ⟨target, htarget, happly, hrow, hversions⟩ := of_rollbackConfig hrollback
    exact h.of_version (applySnapshot_wellFormed h.tables happly)
      (hrow ▸ h.versions target (List.mem_of_find?_eq_some htarget)) hversions

theorem run {calls : List (Time × ControlOp)}
    (hrun : run (controlStep env) ControlState.init calls = some s) : s.Intact := by
  refine invariant ?_ init hrun
  intro u call v hu hstep
  obtain ⟨hexec, hadmitted⟩ := controlStep_eq_some_iff.mp hstep
  exact hu.exec hexec hadmitted

end ControlState.Intact

lemma insertConfigVersion_latest (env : ControlEnv) (s : ControlState) {new : NewConfigVersion}
    (h : new.version = latestVersion s.versions + 1) :
    ∃ row s', insertConfigVersion env new s = .ok (row, s') := by
  simp only [insertConfigVersion, insertVersion_latest h]
  exact ⟨_, _, rfl⟩

variable (env now) in
lemma rollbackConfig_ok (h : s.tables.WellFormed) {target : ConfigVersionRow}
    (hsnapshot : target.snapshotContent.Coherent) {targetVersion : Nat}
    (htarget : findVersion s.versions targetVersion = some target) (operator : Option String) :
    ∃ row s', rollbackConfig env now targetVersion operator s = .ok (row, s') := by
  obtain ⟨tables, happly, -⟩ := applySnapshot_ok now h hsnapshot
  have hlatest : (rollbackRead s.versions ⟨targetVersion, operator⟩ target now).version =
      latestVersion s.versions + 1 := rfl
  obtain ⟨row, s', hinsert⟩ := insertConfigVersion_latest env { s with tables := tables } hlatest
  refine ⟨row, s', ?_⟩
  rw [rollbackConfig, htarget]
  refine Proc.bind_eq_ok.mpr ⟨tables, happly, Proc.bind_eq_ok.mpr ⟨target, ?_, hinsert⟩⟩
  rw [rollbackTarget, htarget]

/-- On PostgreSQL and SQLite, in every state the service reaches, each stored version can be rolled
back to. -/
theorem control_run_rollback_isOk (hbackend : env.backend ≠ .mySql)
    (calls : List (Time × ControlOp))
    (hrun : run (controlStep env) ControlState.init calls = some s)
    {v : ConfigVersionRow} (hv : v ∈ s.versions) (operator : Option String) :
    ∃ s', controlStep env s (now, .rollbackConfig v.version operator) = some s' := by
  have hfind : (findVersion s.versions v.version).isSome := by
    rw [findVersion, List.find?_isSome]
    exact ⟨v, hv, beq_self_eq_true _⟩
  obtain ⟨target, htarget⟩ := Option.isSome_iff_exists.mp hfind
  have hintact := ControlState.Intact.run hrun
  obtain ⟨row, s', hok⟩ := rollbackConfig_ok env now hintact.tables
    (hintact.versions target (List.mem_of_find?_eq_some htarget)) htarget operator
  have hexec : (ControlOp.rollbackConfig v.version operator).exec env now s = .ok s' :=
    exec_eq_ok_iff.mpr ⟨row, hok⟩
  obtain ⟨_, -, happly, -⟩ := of_rollbackConfig hok
  have hadmitted := (Tables.admitted_iff_wellFormed hbackend).mpr
    (applySnapshot_wellFormed hintact.tables happly)
  exact ⟨s', controlStep_eq_some_iff.mpr ⟨hexec, hadmitted⟩⟩

def deletingCalls : List (Time × ControlOp) :=
  [(0, .createUpstream ⟨"users", .roundRobin, none, [⟨"10.0.0.1:80", none, none⟩]⟩),
    (1, .createRoute ⟨"users", .http, ⟨.exact "/users", none, none, [], []⟩, none, some 1, none,
      none, none, none⟩),
    (2, .publishConfig 0 none none), (3, .deleteRoute 1), (4, .deleteUpstream 1)]

/-- The route and its upstream, deleted after the version was published, are back. -/
theorem control_run_rollback_isOk_restores :
    let env : ControlEnv := ⟨fun _ => "", "", "", .sqlite⟩
    ∃ s s', run (controlStep env) .init deletingCalls = some s ∧
      (live s.tables.routes).map (·.name) = [] ∧
      controlStep env s (5, .rollbackConfig 1 none) = some s' ∧
      (live s'.tables.routes).map (·.name) = ["users"] := by
  intro env
  obtain ⟨s, hrun, hdeleted, v, hv, hversion⟩ : ∃ s ∈ run (controlStep env) .init deletingCalls,
      (live s.tables.routes).map (·.name) = [] ∧ ∃ v ∈ s.versions, v.version = 1 := by
    decide +kernel
  have hrestored : ((run (controlStep env) .init deletingCalls).bind
      (controlStep env · (5, .rollbackConfig 1 none))).map
        (fun s => (live s.tables.routes).map (·.name)) = some ["users"] := by
    decide +kernel
  obtain ⟨s', hs'⟩ := @control_run_rollback_isOk env 5 s (by decide) _ hrun v hv none
  rw [hversion] at hs'
  rw [Option.mem_def.mp hrun, Option.bind_some, hs', Option.map_some] at hrestored
  exact ⟨s, s', hrun, hdeleted, hs', Option.some.inj hrestored⟩

end Conrogate
