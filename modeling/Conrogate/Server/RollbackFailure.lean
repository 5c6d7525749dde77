import Conrogate.Server.ChainSafety
import Conrogate.Server.Statements

/-!
# A rollback that fails

The snapshot is written back before the version row is inserted, so a rollback that fails may have
changed the tables: as a whole or not at all.
-/

namespace Conrogate

open SoftTable ServiceState ConfigCall Transition

variable {env : ConfigEnv} {s t : ServiceState} {call : Nat} {events : List ConfigEvent}
  {steps : List (ServiceState × ConfigEvent × ServiceState)}

def WritesNothing (call : Nat) (steps : List (ServiceState × ConfigEvent × ServiceState)) : Prop :=
  ∀ u x v, (u, .statement call x, v) ∈ steps → v.store.tables = u.store.tables

def WritesOnce (call : Nat) (steps : List (ServiceState × ConfigEvent × ServiceState)) : Prop :=
  ∃ before u x v after req target, steps = before ++ (u, .statement call x, v) :: after ∧
    WritesNothing call before ∧ WritesNothing call after ∧
    u.calls call = .applySnapshot req target.snapshotContent ∧
    findVersion u.store.versions req.targetVersion = some target ∧
    applySnapshot x.now target.snapshotContent u.store.tables = .ok v.store.tables

def ConfigCall.Past : ConfigCall → Prop
  | .idle | .getTarget _ | .applySnapshot .. => False
  | _ => True

variable {c : ConfigCall}

namespace ConfigCall

variable {x : Answer} {store : ConfigStore}

lemma Reading.past (h : c.Reading) : c.Past := by
  cases c <;> first | exact h.elim | trivial

variable (env x store) in
lemma Past.next (h : c.Past) : (c.next env x store).Past := by
  cases c with
  | idle => exact h
  | getTarget req => exact h.elim
  | applySnapshot req snapshot => exact h.elim
  | listEnabled | listAll | loadNodes | listByRoute | publish =>
    refine Reading.next_elim trivial ?_ (fun _ => trivial) fun _ => trivial
    exact fun c' hc' => hc'.past
  | rollback req =>
    apply afterRead_elim trivial
    cases rollbackTarget store.versions req <;> trivial
  | latestVersion req target => exact afterRead_elim trivial trivial
  | insert new => exact inserted_elim (fun _ => trivial) (fun _ _ => trivial) fun _ _ => trivial
  | readBack row =>
    apply afterRead_elim trivial
    cases findVersion store.versions row.version <;> trivial
  | putSnapshot row snapshot attempt =>
    rw [ConfigCall.next]
    split_ifs <;> trivial
  | invalidate row => trivial
  | done result => trivial

variable (env x store) in
lemma past_next_applySnapshot (req : RollbackRequest) (snapshot : ConfigSnapshot) :
    ((applySnapshot req snapshot).next env x store).Past := by
  rw [next]
  split <;> trivial

lemma of_next_eq_applySnapshot {req : RollbackRequest} {snapshot : ConfigSnapshot}
    (h : c.next env x store = .applySnapshot req snapshot) :
    c = .getTarget req ∧ ∃ target, findVersion store.versions req.targetVersion = some target ∧
      target.snapshotContent = snapshot := by
  have hnot : ¬ c.Past := by
    intro hpast
    have hnext := hpast.next env x store
    rw [h] at hnext
    exact hnext
  cases c with
  | getTarget req' =>
    rw [next, afterRead] at h
    split_ifs at h
    cases htarget : findVersion store.versions req'.targetVersion with
    | none =>
      rw [rollbackTarget, htarget] at h
      cases h
    | some target =>
      rw [rollbackTarget, htarget] at h
      cases h
      exact ⟨rfl, target, htarget, rfl⟩
  | idle => cases h
  | applySnapshot req' snapshot' =>
    have hnext := past_next_applySnapshot env x store req' snapshot'
    rw [h] at hnext
    exact hnext.elim
  | _ => exact (hnot trivial).elim

end ConfigCall

lemma WritesNothing.append {u v : ServiceState} {e : ConfigEvent} (h : WritesNothing call steps)
    (hstep : ∀ x, e = .statement call x → v.store.tables = u.store.tables) :
    WritesNothing call (steps ++ [(u, e, v)]) := by
  intro u' x v' hmem
  rcases List.mem_append.mp hmem with hmem | hmem
  · exact h u' x v' hmem
  · cases List.mem_singleton.mp hmem
    exact hstep x rfl

lemma WritesOnce.append {u v : ServiceState} {e : ConfigEvent} (h : WritesOnce call steps)
    (hstep : ∀ x, e = .statement call x → v.store.tables = u.store.tables) :
    WritesOnce call (steps ++ [(u, e, v)]) := by
  obtain ⟨before, u', x', v', after, req, target, rfl, hbefore, hafter, hrest⟩ := h
  exact ⟨before, u', x', v', after ++ [(u, e, v)], req, target, by simp, hbefore,
    hafter.append hstep, hrest⟩

structure CallHistory (call : Nat) (steps : List (ServiceState × ConfigEvent × ServiceState))
    (u : ServiceState) : Prop where
  target : ∀ req snapshot, u.calls call = .applySnapshot req snapshot →
    ∃ target, findVersion u.store.versions req.targetVersion = some target ∧
      target.snapshotContent = snapshot
  writes : WritesNothing call steps ∨ (u.calls call).Past ∧ WritesOnce call steps

lemma findVersion_effect {x : Answer} {store : ConfigStore} {version : Nat}
    {target : ConfigVersionRow} (h : findVersion store.versions version = some target) :
    findVersion (c.effect x store).versions version = some target := by
  rcases c.effect_versions x store with heq | ⟨new, -, -, heq⟩
  · rw [heq]
    exact h
  · rw [heq]
    rw [findVersion] at h ⊢
    rw [List.find?_append, h]
    rfl

lemma CallHistory.other {u v : ServiceState} {e : ConfigEvent} (h : CallHistory call steps u)
    (he : ∀ x, e ≠ .statement call x) (hcall : v.calls call = u.calls call)
    (hversions : ∀ version target, findVersion u.store.versions version = some target →
      findVersion v.store.versions version = some target) :
    CallHistory call (steps ++ [(u, e, v)]) v := by
  refine ⟨?_, ?_⟩
  · intro req snapshot hv
    obtain ⟨target, hfind, hsnapshot⟩ := h.target req snapshot (hcall ▸ hv)
    exact ⟨target, hversions _ _ hfind, hsnapshot⟩
  · rw [hcall]
    rcases h.writes with hnone | ⟨hpast, honce⟩
    · exact .inl (hnone.append fun x hx => absurd hx (he x))
    · exact .inr ⟨hpast, honce.append fun x hx => absurd hx (he x)⟩

lemma CallHistory.statement {u : ServiceState} (h : CallHistory call steps u) (x : Answer) :
    CallHistory call (steps ++ [(u, .statement call x, u.execute env call x)])
      (u.execute env call x) := by
  refine ⟨?_, ?_⟩
  · intro req snapshot hv
    rw [execute_self] at hv
    obtain ⟨-, target, hfind, hsnapshot⟩ := of_next_eq_applySnapshot hv
    exact ⟨target, findVersion_effect hfind, hsnapshot⟩
  · rw [execute_self]
    rcases (u.calls call).effect_tables x u.store with
      hsame | ⟨req, snapshot, hcall, hok⟩
    · rcases h.writes with hnone | ⟨hpast, honce⟩
      · exact .inl (hnone.append fun _ _ => hsame)
      · exact .inr ⟨hpast.next env x u.store, honce.append fun _ _ => hsame⟩
    · -- the commit: nothing was written before
      obtain ⟨target, hfind, rfl⟩ := h.target req snapshot hcall
      have hnone : WritesNothing call steps := by
        rcases h.writes with hnone | ⟨hpast, -⟩
        · exact hnone
        · rw [hcall] at hpast
          exact hpast.elim
      refine .inr ⟨?_, steps, u, x, _, [], req, target, rfl, hnone, ?_, hcall, hfind, hok⟩
      · rw [hcall]
        exact past_next_applySnapshot env x u.store req _
      · intro u' x' v' hmem
        cases hmem

lemma CallHistory.step {u v : ServiceState} {e : ConfigEvent} (h : CallHistory call steps u)
    (hstep : configStep env u e = some v) : CallHistory call (steps ++ [(u, e, v)]) v := by
  rcases configStep_cases hstep with ⟨k, c, hidle, hc, he, rfl⟩ | ⟨k, x, rfl, -, rfl⟩ |
    ⟨tables, rfl, rfl⟩
  · by_cases hk : call = k
    · subst hk
      have hnone : WritesNothing call steps := by
        rcases h.writes with hnone | ⟨hpast, -⟩
        · exact hnone
        · rw [hidle] at hpast
          exact hpast.elim
      refine ⟨?_, .inl (hnone.append fun x hx => absurd hx (he call x))⟩
      intro req snapshot hv
      rw [setCall_self] at hv
      rcases hc with ⟨args, rfl⟩ | ⟨req', rfl⟩ <;> cases hv
    · exact h.other (he call) (setCall_of_ne hk) fun _ _ hfind => hfind
  · by_cases hk : call = k
    · subst hk
      exact h.statement x
    · refine h.other ?_ (execute_of_ne env x hk) ?_
      · rintro y heq
        cases heq
        exact hk rfl
      · exact fun _ _ hfind => findVersion_effect hfind
  · exact h.other (fun x hx => by cases hx) rfl fun _ _ hfind => hfind

/-- Whatever it answers, a call has changed nothing in the business tables, or it has committed the
whole write-back of its target and changed nothing else. -/
theorem rollback_all_or_nothing (hidle : s.calls call = .idle)
    (hrun : run (configStep env) s events = some t) :
    WritesNothing call (trace (configStep env) s events) ∨
      WritesOnce call (trace (configStep env) s events) := by
  have hhistory : CallHistory call (trace (configStep env) s events) t := by
    refine trace_induction (P := CallHistory call) ?_ ?_ hrun
    · refine ⟨?_, .inl fun u x v hmem => by cases hmem⟩
      intro req snapshot hcall
      rw [hidle] at hcall
      cases hcall
    · exact fun steps u e v hu hstep => hu.step hstep
  exact hhistory.writes.imp_right And.right

def raceSetup : List (Time × ControlOp) :=
  [(0, .createRoute usersRoute), (1, .publishConfig 0 none none),
    (2, .createRoute { usersRoute with name := "beta" })]

def raceAnswer : Answer := ⟨.answered, 3, 2, "UNIQUE constraint failed: config_versions.version"⟩

def raceEvents : List ConfigEvent :=
  [.rollbackConfig 0 ⟨1, none⟩] ++ statements 0 4 raceAnswer ++
    [.publishConfig 1 ⟨1, none, none⟩] ++ statements 1 5 raceAnswer ++ statements 0 1 raceAnswer

def noCacheEnv : ConfigEnv := ⟨fun _ => "", false⟩

theorem rollback_all_or_nothing_race :
    ∃ s t, run (controlStep plainEnv) ControlState.init raceSetup = some s ∧
      run (configStep noCacheEnv) (.start ⟨s, .empty⟩) raceEvents = some t ∧
      (WritesNothing 0 (trace (configStep noCacheEnv) (.start ⟨s, .empty⟩) raceEvents) ∨
        WritesOnce 0
          (trace (configStep noCacheEnv) (.start ⟨s, .empty⟩) raceEvents)) := by
  obtain ⟨s, hsetup, t, hrun⟩ : ∃ s,
      run (controlStep plainEnv) ControlState.init raceSetup = some s ∧ ∃ t,
        run (configStep noCacheEnv) (.start ⟨s, .empty⟩) raceEvents = some t :=
    ⟨_, rfl, _, rfl⟩
  exact ⟨s, t, hsetup, hrun, rollback_all_or_nothing rfl hrun⟩

/-- The rollback answers with an error, and route `beta` is deleted. -/
theorem rollback_error_after_commit :
    ∃ s t, run (controlStep plainEnv) ControlState.init raceSetup = some s ∧
      run (configStep noCacheEnv) (.start ⟨s, .empty⟩) raceEvents = some t ∧
      t.calls 0 = .done (.error (.dataMapping raceAnswer.dbError)) ∧
      (live s.tables.routes).map (·.name) = ["users", "beta"] ∧
      (live t.store.tables.routes).map (·.name) = ["users"] :=
  ⟨_, _, rfl, rfl, rfl, rfl, rfl⟩

end Conrogate
