import Conrogate.Server.References
import Conrogate.Server.Statements

/-!
# What a publish reads

`publish_config` reads routes, upstreams and bindings at different moments: a route may refer to an
upstream that is gone by then.
-/

namespace Conrogate

open SoftTable List ServiceState Transition

variable {env : ConfigEnv} {s t : ServiceState} {events : List ConfigEvent}
  {steps : List (ServiceState × ConfigEvent × ServiceState)}

/-- The call, which had these routes, found the upstreams with these ids. -/
def UpstreamsRead (steps : List (ServiceState × ConfigEvent × ServiceState)) (call : Nat)
    (routes : List RouteDto) (ids : List Nat) : Prop :=
  ∃ u x v args, (u, .statement call x, v) ∈ steps ∧ u.calls call = .listAll args routes ∧
    (live u.store.tables.upstreams).map (·.id) = ids

structure Collected (steps : List (ServiceState × ConfigEvent × ServiceState)) (call : Nat)
    (S : ConfigSnapshot) : Prop where
  bindings : ∀ b ∈ S.pluginBindings, b.routeId ∈ S.routes.map (·.id)
  upstreams : UpstreamsRead steps call S.routes (S.upstreams.map (·.id))

/-- What a call on its way to the insert has read. -/
def ConfigCall.Collecting (steps : List (ServiceState × ConfigEvent × ServiceState)) (call : Nat) :
    ConfigCall → Prop
  | .loadNodes _ routes got m rest =>
    UpstreamsRead steps call routes (got.map (·.id) ++ m.id :: rest.map (·.id))
  | .listByRoute _ routes upstreams got r rest =>
    UpstreamsRead steps call routes (upstreams.map (·.id)) ∧
      (∀ b ∈ got, b.routeId ∈ routes.map (·.id)) ∧ ∀ q ∈ r :: rest, q ∈ routes
  | .publish req => Collected steps call req.snapshot
  | .insert new => new.publishType = .publish → Collected steps call new.snapshotContent
  | _ => True

/-- The call's insert has appended the row. -/
def Inserts (steps : List (ServiceState × ConfigEvent × ServiceState)) (call : Nat)
    (row : ConfigVersionRow) : Prop :=
  ∃ u x v new, (u, .statement call x, v) ∈ steps ∧ u.calls call = .insert new ∧
    v.store.versions = u.store.versions ++ [row]

/-! ### More steps -/

variable {call : Nat} {routes : List RouteDto}

lemma UpstreamsRead.append {ids : List Nat} (h : UpstreamsRead steps call routes ids)
    (more : List (ServiceState × ConfigEvent × ServiceState)) :
    UpstreamsRead (steps ++ more) call routes ids := by
  obtain ⟨u, x, v, args, hmem, hrest⟩ := h
  exact ⟨u, x, v, args, mem_append_left _ hmem, hrest⟩

lemma Collected.append {S : ConfigSnapshot} (h : Collected steps call S)
    (more : List (ServiceState × ConfigEvent × ServiceState)) : Collected (steps ++ more) call S :=
  ⟨h.bindings, h.upstreams.append more⟩

namespace ConfigCall

lemma Collecting.append {c : ConfigCall} (h : c.Collecting steps call)
    (more : List (ServiceState × ConfigEvent × ServiceState)) :
    c.Collecting (steps ++ more) call := by
  cases c with
  | loadNodes args routes got m rest => exact UpstreamsRead.append h more
  | listByRoute args routes upstreams got r rest => exact ⟨h.1.append more, h.2⟩
  | publish req => exact Collected.append h more
  | insert new => exact fun htype => (h htype).append more
  | _ => trivial

/-! ### One statement -/

lemma collecting_bindings {args : PublishArgs} {upstreams : List UpstreamDto}
    {got : List PluginBindingDto} {rest : List RouteDto}
    (hread : UpstreamsRead steps call routes (upstreams.map (·.id)))
    (hgot : ∀ b ∈ got, b.routeId ∈ routes.map (·.id)) (hrest : ∀ q ∈ rest, q ∈ routes) :
    (bindings args routes upstreams got rest).Collecting steps call := by
  cases rest with
  | nil => exact ⟨hgot, hread⟩
  | cons r rest => exact ⟨hread, hgot, hrest⟩

lemma collecting_nodes {args : PublishArgs} {got : List UpstreamDto} {rest : List UpstreamRow}
    (hread : UpstreamsRead steps call routes (got.map (·.id) ++ rest.map (·.id))) :
    (nodes args routes got rest).Collecting steps call := by
  cases rest with
  | nil =>
    rw [map_nil, append_nil] at hread
    exact collecting_bindings hread (fun b hb => by cases hb) fun q hq => hq
  | cons m rest => exact hread

lemma Collecting.next {u v : ServiceState} {x : Answer}
    (h : (u.calls call).Collecting steps call) :
    ((u.calls call).next env x u.store).Collecting
      (steps ++ [(u, .statement call x, v)]) call := by
  have hmem : (u, ConfigEvent.statement call x, v) ∈ steps ++ [(u, .statement call x, v)] :=
    mem_append_right _ mem_cons_self
  cases hc : u.calls call with
  | listAll args routes =>
    apply afterRead_elim trivial
    apply collecting_nodes
    exact ⟨u, x, v, args, hmem, hc, rfl⟩
  | loadNodes args routes got m rest =>
    rw [hc] at h
    apply afterRead_elim trivial
    apply collecting_nodes
    rw [map_append, append_assoc]
    exact UpstreamsRead.append h _
  | listByRoute args routes upstreams got r rest =>
    rw [hc] at h
    obtain ⟨hread, hgot, hrest⟩ := h
    rw [forall_mem_cons] at hrest
    apply afterRead_elim trivial
    refine collecting_bindings (hread.append _) ?_ hrest.2
    intro b hb
    rcases mem_append.mp hb with hb | hb
    · exact hgot b hb
    · rw [u.store.tables.routeId_of_mem_listByRoute hb]
      exact mem_map_of_mem hrest.1
  | publish req =>
    rw [hc] at h
    apply afterRead_elim trivial
    rw [publishRead]
    split_ifs
    · trivial
    · exact fun _ => Collected.append h _
  | getTarget req =>
    apply afterRead_elim trivial
    cases rollbackTarget u.store.versions req <;> trivial
  | applySnapshot req snapshot =>
    rw [ConfigCall.next]
    split <;> trivial
  | rollback req =>
    apply afterRead_elim trivial
    cases rollbackTarget u.store.versions req <;> trivial
  | latestVersion req target =>
    apply afterRead_elim trivial
    intro htype
    cases htype
  | insert new => exact inserted_elim (fun _ => trivial) (fun _ _ => trivial) fun _ _ => trivial
  | readBack row =>
    apply afterRead_elim trivial
    cases findVersion u.store.versions row.version <;> trivial
  | putSnapshot row snapshot attempt =>
    rw [ConfigCall.next]
    split_ifs <;> trivial
  | listEnabled args => exact afterRead_elim trivial trivial
  | idle => trivial
  | invalidate row => trivial
  | done result => trivial

end ConfigCall

structure PublishHistory (old : List ConfigVersionRow)
    (steps : List (ServiceState × ConfigEvent × ServiceState)) (u : ServiceState) : Prop where
  calls : ∀ call, (u.calls call).Collecting steps call
  stored : ∀ row ∈ u.store.versions, row ∉ old → row.publishType = .publish →
    ∃ call, Inserts steps call row ∧ Collected steps call row.snapshotContent

lemma PublishHistory.step {old : List ConfigVersionRow} {u v : ServiceState} {e : ConfigEvent}
    (h : PublishHistory old steps u) (hstep : configStep env u e = some v) :
    PublishHistory old (steps ++ [(u, e, v)]) v := by
  have hstored : ∀ row ∈ u.store.versions, row ∉ old → row.publishType = .publish →
      ∃ call, Inserts (steps ++ [(u, e, v)]) call row ∧
        Collected (steps ++ [(u, e, v)]) call row.snapshotContent := by
    intro row hrow hnew htype
    obtain ⟨call, ⟨u', x, v', new, hmem, hinsert⟩, hcollected⟩ := h.stored row hrow hnew htype
    exact ⟨call, ⟨u', x, v', new, mem_append_left _ hmem, hinsert⟩, hcollected.append _⟩
  rcases configStep_cases hstep with ⟨k, c, -, hc, -, rfl⟩ | ⟨k, x, rfl, -, rfl⟩ |
    ⟨tables, rfl, rfl⟩
  · refine ⟨?_, hstored⟩
    intro call
    by_cases hk : call = k
    · subst hk
      rw [setCall_self]
      rcases hc with ⟨args, rfl⟩ | ⟨req, rfl⟩ <;> trivial
    · rw [setCall_of_ne hk]
      exact (h.calls call).append _
  · refine ⟨?_, ?_⟩
    · intro call
      by_cases hk : call = k
      · subst hk
        rw [execute_self]
        exact (h.calls call).next
      · rw [execute_of_ne env x hk]
        exact (h.calls call).append _
    · -- the only new row is the one the call inserts
      intro row hrow hnew htype
      rcases (u.calls k).effect_versions x u.store with heq | ⟨new, hinsert, -, heq⟩
      · rw [execute_store, heq] at hrow
        exact hstored row hrow hnew htype
      · rw [execute_store, heq] at hrow
        rcases mem_append.mp hrow with hrow | hrow
        · exact hstored row hrow hnew htype
        · obtain rfl := mem_singleton.mp hrow
          have hcollected := h.calls k
          rw [hinsert] at hcollected
          refine ⟨k, ⟨u, x, _, new, mem_append_right _ mem_cons_self, hinsert, ?_⟩,
            (hcollected htype).append _⟩
          rw [execute_store, heq]
  · exact ⟨fun call => (h.calls call).append _, hstored⟩

/-- In every stored snapshot, the bindings are bindings of its routes, and the upstream of a route
is there exactly when it was live when the publish that inserts the row read the upstreams. -/
theorem published_snapshot_references (hidle : ∀ call, s.calls call = .idle)
    (hrun : run (configStep env) s events = some t) {row : ConfigVersionRow}
    (hrow : row ∈ t.store.versions) (hnew : row ∉ s.store.versions)
    (htype : row.publishType = .publish) :
    (∀ b ∈ row.snapshotContent.pluginBindings,
      b.routeId ∈ row.snapshotContent.routes.map (·.id)) ∧
    ∃ call, Inserts (trace (configStep env) s events) call row ∧ ∃ u x v args,
      (u, .statement call x, v) ∈ trace (configStep env) s events ∧
      u.calls call = .listAll args row.snapshotContent.routes ∧
      ∀ r ∈ row.snapshotContent.routes, ∀ i ∈ r.upstreamId,
        (i ∈ row.snapshotContent.upstreams.map (·.id) ↔
          i ∈ (live u.store.tables.upstreams).map (·.id)) := by
  have hhistory : PublishHistory s.store.versions (trace (configStep env) s events) t := by
    refine trace_induction (P := PublishHistory s.store.versions) ?_ ?_ hrun
    · refine ⟨?_, fun row hrow hnew => absurd hrow hnew⟩
      intro call
      rw [hidle call]
      trivial
    · exact fun steps u e v hu hstep => hu.step hstep
  obtain ⟨call, hinserts, hbindings, u, x, v, args, hmem, hcall, hids⟩ :=
    hhistory.stored row hrow hnew htype
  refine ⟨hbindings, call, hinserts, u, x, v, args, hmem, hcall, ?_⟩
  intro r _ i _
  rw [hids]

def movingSetup : List (Time × ControlOp) :=
  [(0, .createUpstream usersUpstream),
    (1, .createUpstream { usersUpstream with name := "beta" }),
    (2, .createRoute { usersRoute with upstreamId := some 1 })]

def movingEdits : List (Time × ControlOp) :=
  [(3, .updateRoute ⟨1, none, none, none, some 2, none, none, none, none⟩),
    (4, .deleteUpstream 1)]

def plainAnswer : Answer := ⟨.answered, 5, 1, ""⟩

def plainConfigEnv : ConfigEnv := ⟨fun _ => "", true⟩

theorem published_snapshot_references_alone :
    let events := .publishConfig 0 ⟨0, none, none⟩ :: statements 0 7 plainAnswer
    ∃ s t row, run (controlStep plainEnv) ControlState.init movingSetup = some s ∧
      run (configStep plainConfigEnv) (.start ⟨s, .empty⟩) events = some t ∧
      row ∈ t.store.versions ∧ row.snapshotContent.routes.map (·.upstreamId) = [some 1] ∧
      let steps := trace (configStep plainConfigEnv) (.start ⟨s, .empty⟩) events
      ∃ call, Inserts steps call row ∧ ∃ u x v args, (u, .statement call x, v) ∈ steps ∧
        u.calls call = .listAll args row.snapshotContent.routes ∧
        ∀ r ∈ row.snapshotContent.routes, ∀ i ∈ r.upstreamId,
          (i ∈ row.snapshotContent.upstreams.map (·.id) ↔
            i ∈ (live u.store.tables.upstreams).map (·.id)) := by
  intro events
  obtain ⟨s, hsetup, hversions, t, hrun, row, hrow, htype, hroutes⟩ : ∃ s,
      run (controlStep plainEnv) ControlState.init movingSetup = some s ∧ s.versions = [] ∧
      ∃ t, run (configStep plainConfigEnv) (.start ⟨s, .empty⟩) events = some t ∧
      ∃ row, t.store.versions = [row] ∧ row.publishType = .publish ∧
        row.snapshotContent.routes.map (·.upstreamId) = [some 1] :=
    ⟨_, rfl, rfl, _, rfl, _, rfl, rfl, rfl⟩
  have hmem : row ∈ t.store.versions := hrow ▸ mem_cons_self
  have hnew : row ∉ s.versions := hversions ▸ not_mem_nil
  exact ⟨s, t, row, hsetup, hrun, hmem, hroutes,
    (published_snapshot_references (fun _ => rfl) hrun hmem hnew htype).2⟩

/-- The edits come between the reads of the routes and of the upstreams: the stored route refers
to an upstream that the snapshot does not have. -/
theorem published_snapshot_not_closed :
    ∃ s s' t row, run (controlStep plainEnv) ControlState.init movingSetup = some s ∧
      run (controlStep plainEnv) s movingEdits = some s' ∧
      run (configStep plainConfigEnv) (.start ⟨s, .empty⟩)
        ([.publishConfig 0 ⟨0, none, none⟩] ++ statements 0 1 plainAnswer ++
          [.edit s'.tables] ++ statements 0 5 plainAnswer) = some t ∧
      row ∈ t.store.versions ∧ row.publishType = .publish ∧
      row.snapshotContent.routes.map (·.upstreamId) = [some 1] ∧
      row.snapshotContent.upstreams.map (·.id) = [2] :=
  ⟨_, _, _, _, rfl, rfl, rfl, mem_cons_self, rfl, rfl, rfl⟩

end Conrogate
