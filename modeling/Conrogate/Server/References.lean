import Conrogate.Server.ChainSafety
import Conrogate.Server.Integrity
import Conrogate.Storage.References

/-!
# References along a run

Only the deletion of an upstream checks what refers to it. The operations that pass the other checks
are exactly those that keep every reference between live rows.
-/

namespace Conrogate

open ControlService SoftTable UpstreamRepoImpl PluginBindingRepoImpl RouteRepoImpl Transition
  ControlState

def ControlOp.Careful (s : ControlState) : ControlOp → Prop
  | .createRoute dto => ∀ i ∈ dto.upstreamId, i ∈ (live s.tables.upstreams).map (·.id)
  | .updateRoute dto => ∀ i ∈ dto.upstreamId, i ∈ (live s.tables.upstreams).map (·.id)
  | .deleteRoute id => ∀ b ∈ live s.tables.bindings, b.routeId ≠ id
  | .bindPlugin routeId _ => routeId ∈ (live s.tables.routes).map (·.id)
  | .rollbackConfig targetVersion _ => ∀ target ∈ findVersion s.versions targetVersion,
    target.snapshotContent.CoversDisabled s.tables
  | _ => True

instance (s : ControlState) : ∀ op : ControlOp, Decidable (op.Careful s)
  | .createRoute dto | .updateRoute dto => inferInstanceAs (Decidable
    (∀ i ∈ dto.upstreamId, i ∈ (live s.tables.upstreams).map (·.id)))
  | .deleteRoute id => inferInstanceAs (Decidable (∀ b ∈ live s.tables.bindings, b.routeId ≠ id))
  | .bindPlugin routeId _ => inferInstanceAs (Decidable
    (routeId ∈ (live s.tables.routes).map (·.id)))
  | .rollbackConfig targetVersion _ => inferInstanceAs (Decidable
    (∀ target ∈ findVersion s.versions targetVersion,
      target.snapshotContent.CoversDisabled s.tables))
  | .createUpstream _ | .updateUpstream _ | .deleteUpstream _ | .updatePluginBinding .. |
    .unbindPlugin .. | .publishConfig .. => isTrue trivial

variable {env : ControlEnv} {now : Time} {s s' : ControlState}

lemma deleteUpstream_linked {id : Nat} {answer : Unit} (hs : s.Intact) (h : s.tables.Linked)
    (hok : deleteUpstream env now id s = .ok (answer, s')) : s'.tables.Linked := by
  have hunused : listRouteBindings id s.tables = [] := by
    by_contra hused
    simp only [deleteUpstream, if_pos hused] at hok
    cases hok
  exact softDelete_linked h hs.tables.upstreamIds hunused (of_deleteUpstream hok).1

theorem exec_linked_iff {op : ControlOp} (hs : s.Intact) (h : s.tables.Linked)
    (hexec : op.exec env now s = .ok s') : s'.tables.Linked ↔ op.Careful s := by
  cases op with
  | createRoute dto =>
    obtain ⟨_, hcall, -⟩ := of_onTables hexec
    exact create_linked_iff h hcall
  | updateRoute dto =>
    obtain ⟨_, hcall, -⟩ := of_onTables hexec
    exact update_linked_iff h hs.tables.routeIds hcall
  | deleteRoute id =>
    obtain ⟨_, hcall, -⟩ := of_onTables hexec
    exact softDelete_linked_iff h hs.tables.routeIds hcall
  | createUpstream dto =>
    obtain ⟨_, hcall, -⟩ := of_onTables hexec
    exact iff_of_true (create_linked h hcall) trivial
  | updateUpstream dto =>
    obtain ⟨_, hcall, -⟩ := of_onTables hexec
    exact iff_of_true (update_linked h hcall) trivial
  | deleteUpstream id =>
    obtain ⟨_, hdelete⟩ := exec_eq_ok_iff.mp hexec
    exact iff_of_true (deleteUpstream_linked hs h hdelete) trivial
  | bindPlugin routeId dto =>
    obtain ⟨_, hcall, -⟩ := of_onTables hexec
    exact bind_linked_iff h hcall
  | updatePluginBinding routeId pluginName dto =>
    obtain ⟨_, hcall, -⟩ := of_onTables hexec
    exact iff_of_true (update_linked h hcall) trivial
  | unbindPlugin routeId pluginName =>
    obtain ⟨_, hcall, -⟩ := of_onTables hexec
    exact iff_of_true (unbind_linked h hcall) trivial
  | publishConfig baseVersion operator remark =>
    obtain ⟨row, hpublish⟩ := exec_eq_ok_iff.mp hexec
    rw [(of_publishConfig hpublish).2.1]
    exact iff_of_true h trivial
  | rollbackConfig targetVersion operator =>
    obtain ⟨row, hrollback⟩ := exec_eq_ok_iff.mp hexec
    obtain ⟨target, htarget, happly, -, -⟩ := of_rollbackConfig hrollback
    have hsnapshot := hs.versions target (List.mem_of_find?_eq_some htarget)
    rw [applySnapshot_linked_iff hs.tables hsnapshot h happly, ControlOp.Careful, htarget]
    simp

/-- From the empty database, all states of a run have live references exactly when all its
operations are careful. -/
theorem control_run_linked_iff {calls : List (Time × ControlOp)}
    (hrun : run (controlStep env) init calls = some s) :
    Always (controlStep env) (fun u => u.tables.Linked) init calls ↔
      Meets (controlStep env) (fun u call => call.2.Careful u) init
        calls := by
  refine always_iff_meets (I := ControlState.Intact) ?_ ?_ ControlState.Intact.init
    Tables.empty_linked hrun
  · intro u call v hu hstep
    obtain ⟨hexec, hadmitted⟩ := controlStep_eq_some_iff.mp hstep
    exact hu.exec hexec hadmitted
  · intro u call v _ hu hlinked hstep
    exact exec_linked_iff hu hlinked (controlStep_eq_some_iff.mp hstep).1

def usersUpstream : CreateUpstreamDto := ⟨"users", .roundRobin, none, [⟨"10.0.0.1:80", none, none⟩]⟩

def carefulCalls : List (Time × ControlOp) :=
  [(0, .createUpstream usersUpstream),
    (1, .createRoute { usersRoute with upstreamId := some 1, enabled := some false }),
    (2, .publishConfig 0 none none),
    (3, .rollbackConfig 1 none)]

theorem control_run_linked_careful :
    ∃ s, run (controlStep plainEnv) init carefulCalls = some s ∧
      s.tables.Linked := by
  obtain ⟨s, hrun⟩ : ∃ s,
      run (controlStep plainEnv) init carefulCalls = some s :=
    Option.isSome_iff_exists.mp rfl
  refine ⟨s, hrun, (control_run_linked_iff hrun).mpr ?_ carefulCalls [] s ?_ hrun⟩
  · decide
  · rfl

def danglingRuns : List (List (Time × ControlOp)) :=
  -- the bindings of a deleted route
  [ [(0, .createRoute usersRoute),
      (1, .bindPlugin 1 ⟨"ip_allow_deny", .obj [], none, none, none⟩),
      (2, .deleteRoute 1)],
    -- a plugin for a deleted route
    [(0, .createRoute usersRoute), (1, .deleteRoute 1),
      (2, .bindPlugin 1 ⟨"ip_allow_deny", .obj [], none, none, none⟩)],
    -- a route to a deleted upstream
    [(0, .createUpstream usersUpstream), (1, .deleteUpstream 1),
      (2, .createRoute { usersRoute with upstreamId := some 1 })],
    -- the upstream of a disabled route, which the old version does not have
    [(0, .publishConfig 0 none none), (1, .createUpstream usersUpstream),
      (2, .createRoute { usersRoute with upstreamId := some 1, enabled := some false }),
      (3, .rollbackConfig 1 none)]]

theorem control_run_not_linked :
    danglingRuns.Forall fun calls => ∃ s,
      run (controlStep plainEnv) init calls = some s ∧
        ¬ s.tables.Linked := by
  refine ⟨⟨_, rfl, ?_⟩, ⟨_, rfl, ?_⟩, ⟨_, rfl, ?_⟩, ⟨_, rfl, ?_⟩⟩
  all_goals decide

end Conrogate
