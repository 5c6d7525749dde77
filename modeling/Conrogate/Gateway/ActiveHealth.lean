import Conrogate.Gateway.Selector

/-!
# Active health checks

`ActiveHealthChecker` probes the nodes in turn, but `select_upstream` only asks the passive checker:
the probes have no influence on the nodes that are selected.
-/

namespace Conrogate

open Option Transition

structure NodeStatus where
  state : NodeHealth
  consecutiveSuccess : Nat
  consecutiveFailure : Nat

structure ActiveHealthCheckerConfig where
  healthyThreshold : Nat
  unhealthyThreshold : Nat

abbrev NodeStatuses := String → Option NodeStatus

namespace ActiveHealthCheckerConfig

def default : ActiveHealthCheckerConfig := ⟨2, 3⟩

variable (config : ActiveHealthCheckerConfig)

def probed (status : NodeStatus) (success : Bool) : NodeStatus :=
  if success then
    let n := (status.consecutiveSuccess + 1) % 0x100000000
    ⟨if config.healthyThreshold ≤ n then .healthy else status.state, n, 0⟩
  else
    let n := (status.consecutiveFailure + 1) % 0x100000000
    ⟨if config.unhealthyThreshold ≤ n then .unhealthy s!"{n} consecutive failures"
      else if 0 < n then .degraded s!"{n} consecutive failures"
      else status.state, 0, n⟩

def checkNode (nodes : NodeStatuses) (addr : String) (success : Bool) : NodeStatuses :=
  Function.update nodes addr
    (some (config.probed ((nodes addr).getD ⟨.healthy, 0, 0⟩) success))

end ActiveHealthCheckerConfig

def NodeStatuses.isSchedulable (nodes : NodeStatuses) (addr : String) : Bool :=
  match nodes addr with
  | some status => match status.state with
    | .unhealthy _ => false
    | _ => true
  | none => true

/-! ### The gateway -/

/-- The selector and the loop of the health checker. -/
structure CheckedSelector where
  selector : SelectorState
  statuses : NodeStatuses
  nodesToCheck : List UpstreamNodeDto

inductive CheckEvent where
  | selector (e : SelectorEvent)
  | tick (ids : List Nat)
  | probe (success : Bool)

namespace CheckedSelector

def init : CheckedSelector := ⟨.init, fun _ => none, []⟩

variable (env : SelectorEnv) (config : ActiveHealthCheckerConfig)

def step (s : CheckedSelector) : CheckEvent → Option CheckedSelector
  | .selector e => (selectorStep env s.selector e).map fun t => { s with selector := t }
  | .tick ids =>
    match s.nodesToCheck with
    | [] => some { s with
      nodesToCheck := ids.flatMap fun id => ((s.selector.upstreams id).map (·.2)).getD [] }
    | _ :: _ => none
  | .probe success =>
    match s.nodesToCheck with
    | [] => none
    | node :: rest => some { s with
      statuses := config.checkNode s.statuses node.address success
      nodesToCheck := rest }

def selectorEvent : CheckEvent → Option SelectorEvent
  | .selector e => some e
  | _ => none

/-- A node that a selection checks and that the active checker holds for unhealthy, the passive
checker does not hold for healthy. -/
def agrees (s : CheckedSelector) : CheckEvent → Bool
  | .selector (.check i now) =>
    match s.selector.calls[i]?.map SelectCall.stage, env.checker with
    | some (.filtering _ (node :: _)), some hc =>
      s.statuses.isSchedulable node.address || hc.check s.selector.health now node != .healthy
    | _, _ => true
  | _ => true

/-- No selection returns a node that is unhealthy for the active checker as long as it goes on,
while another enabled node of the upstream is schedulable and passively healthy. -/
def AvoidsUnhealthy (steps : List (CheckedSelector × CheckEvent × CheckedSelector))
    (t : CheckedSelector) : Prop :=
  ∀ i call r n m hc, t.selector.calls[i]? = some call → call.stage.selection = some r →
    call.stage.node = some n → m ∈ r.nodes → m.enabled = true → env.checker = some hc →
    ¬ ∀ u now v, (u, .selector (.check i now), v) ∈ steps →
      u.statuses.isSchedulable n.address = false ∧ u.statuses.isSchedulable m.address = true ∧
        hc.check u.selector.health now m = .healthy

end CheckedSelector

/-! ### Where the checks of a call come from -/

section

variable {env : SelectorEnv} {s t : SelectorState} {e : SelectorEvent} {i : Nat}
  {call call' : SelectCall} {r r' : Selection} {c : HealthCheck}

def SelectorState.Checked (s : SelectorState) (i : Nat) (c : HealthCheck) : Prop :=
  ∃ call r, s.calls[i]? = some call ∧ call.stage.selection = some r ∧ c ∈ r.checks

def SelectorState.Checks (env : SelectorEnv) (s : SelectorState) (i : Nat) (c : HealthCheck)
    (e : SelectorEvent) : Prop :=
  e = .check i c.now ∧ ∃ hc call r rest, env.checker = some hc ∧ s.calls[i]? = some call ∧
    call.stage = .filtering r (c.node :: rest) ∧ c.health = hc.check s.health c.now c.node

lemma checked_of_set {j : Nat} {stage : SelectStage} (hcall : s.calls[j]? = some call)
    (hr : call.stage.selection = some r) (hr' : stage.selection = some r)
    (ht : t.calls = s.calls.set j ⟨call.route, call.key, stage⟩) (hc : t.Checked i c) :
    s.Checked i c := by
  obtain ⟨d, q, hd, hq, hmem⟩ := hc
  rw [ht] at hd
  obtain ⟨rfl, rfl⟩ | ⟨-, hd⟩ := Calls.getElem?_set_eq_some hd
  · obtain rfl : r = q := some.inj (hr'.symm.trans hq)
    exact ⟨call, r, hcall, hr, hmem⟩
  · exact ⟨d, q, hd, hq, hmem⟩

lemma checked_of_step (hstep : selectorStep env s e = some t) (hc : t.Checked i c) :
    s.Checked i c ∨ s.Checks env i c e := by
  cases selectorMove_of_step hstep with
  | loadUpstreams upstreams => exact .inl hc
  | mark m => exact .inl hc
  | begin route key =>
    obtain ⟨call, r, hcall, hr, hmem⟩ := hc
    rw [List.getElem?_append] at hcall
    split at hcall
    · exact .inl ⟨call, r, hcall, hr, hmem⟩
    · rw [List.getElem?_singleton] at hcall
      split at hcall
      · obtain rfl := some.inj hcall
        -- a new call has checked nothing
        simp only [SelectorState.beginStage] at hr
        split at hr
        · cases hr
        · split at hr
          · cases hr
          · obtain rfl := some.inj hr
            cases hmem
      · cases hcall
  | @check j now call hc' r node rest hcall hchecker hstage =>
    obtain ⟨d, q, hd, hq, hmem⟩ := hc
    rw [move_calls] at hd
    obtain ⟨rfl, rfl⟩ | ⟨-, hd⟩ := Calls.getElem?_set_eq_some hd
    · obtain rfl := some.inj hq
      obtain hmem | rfl := by simpa using hmem
      · exact .inl ⟨call, r, hcall, by rw [hstage]; rfl, hmem⟩
      · exact .inr ⟨rfl, hc', call, r, rest, hchecker, hcall, hstage, rfl⟩
    · exact .inl ⟨d, q, hd, hq, hmem⟩
  | @balance j call r hcall hstage =>
    obtain ⟨hr, -, -⟩ := balance_sound env s call.key r
    refine .inl (checked_of_set hcall (by rw [hstage]; rfl) hr ?_ hc)
    rw [move_calls, (balance_frame env s call.key r).1]
  | store hcall hstage hkey =>
    exact .inl (checked_of_set hcall (by rw [hstage]; rfl) rfl rfl hc)
  | readAlgorithm hcall hstage htable =>
    exact .inl (checked_of_set hcall (by rw [hstage]; rfl) rfl rfl hc)
  | readNothing hcall hstage htable =>
    exact .inl (checked_of_set hcall (by rw [hstage]; rfl) rfl rfl hc)
  | @release j call r node algorithm hcall hstage =>
    have hsame : ∀ u : SelectorState, u.calls = s.calls →
        (u.move j call (.released r node)).Checked i c → s.Checked i c := by
      intro u hu hc
      have hset : (u.move j call (.released r node)).calls =
          s.calls.set j ⟨call.route, call.key, .released r node⟩ := by rw [move_calls, hu]
      exact checked_of_set hcall (by rw [hstage]; rfl) rfl hset hc
    refine .inl (hsame _ ?_ hc)
    split <;> rfl

end

namespace CheckedSelector

variable {env : SelectorEnv} {config : ActiveHealthCheckerConfig} {s t : CheckedSelector}
  {events : List CheckEvent} {i : Nat} {c : HealthCheck}

lemma selector_step {e : SelectorEvent} (h : s.step env config (.selector e) = some t) :
    selectorStep env s.selector e = some t.selector := by
  obtain ⟨u, hu, rfl⟩ := map_eq_some_iff.mp h
  exact hu

lemma selector_eq {e : CheckEvent} (h : s.step env config e = some t)
    (he : selectorEvent e = none) : t.selector = s.selector := by
  cases e with
  | selector e => cases he
  | tick ids =>
    simp only [step] at h
    split at h
    · cases h
      rfl
    · cases h
  | probe success =>
    simp only [step] at h
    split at h
    · cases h
    · cases h
      rfl

lemma exists_check_of_run (hstart : s.selector.calls = [])
    (hrun : run (step env config) s events = some t) (hc : t.selector.Checked i c) :
    ∃ u v, (u, .selector (.check i c.now), v) ∈ trace (step env config) s events ∧
      u.selector.Checks env i c (.check i c.now) := by
  refine trace_induction (P := fun steps t => t.selector.Checked i c → ∃ u v,
    (u, .selector (.check i c.now), v) ∈ steps ∧ u.selector.Checks env i c (.check i c.now))
    ?_ ?_ hrun hc
  · rintro ⟨call, r, hcall, -⟩
    simp [hstart] at hcall
  · intro steps u e v ih hstep hc
    have hold : u.selector.Checked i c → ∃ u' v', (u', .selector (.check i c.now), v') ∈
        steps ++ [(u, e, v)] ∧ u'.selector.Checks env i c (.check i c.now) := by
      intro hc
      obtain ⟨u', v', hmem, hchecks⟩ := ih hc
      exact ⟨u', v', List.mem_append_left _ hmem, hchecks⟩
    cases e with
    | selector e =>
      obtain hc | hc := checked_of_step (selector_step hstep) hc
      · exact hold hc
      · obtain rfl := hc.1
        exact ⟨u, v, List.mem_append_right _ List.mem_cons_self, hc⟩
    | tick ids | probe success =>
      rw [selector_eq hstep rfl] at hc
      exact hold hc

/-- Every run in which the passive checker knows of the nodes that the probes find unhealthy
avoids them. -/
theorem avoids_unhealthy_of_agrees (hstart : s.selector.calls = [])
    (hrun : run (step env config) s events = some t)
    (hagrees : Meets (step env config) (fun s e => s.agrees env e = true) s events) :
    AvoidsUnhealthy env (trace (step env config) s events) t := by
  intro i call r n m hc hcall hr hnode hm henabled hchecker hwhile
  have hselector : run (selectorStep env) s.selector (events.filterMap selectorEvent) =
      some t.selector := by
    refine run_filterMap ?_ (fun s e t hstep he => selector_eq hstep he) hrun
    intro s e t e' hstep he
    cases e with
    | selector e =>
      cases he
      exact selector_step hstep
    | tick ids | probe success => cases he
  have hsound := soundCalls_run hstart hselector i call hcall
  -- the other node has been checked, and was healthy
  obtain ⟨hpending, -⟩ := SelectStage.pending_of_node hnode
  have hcovered := hsound.covered (by rw [hchecker]; rfl) r hr m hm henabled
  rw [hpending] at hcovered
  obtain ⟨d, hd, rfl⟩ := hcovered.resolve_left List.not_mem_nil
  obtain ⟨u, v, hmem, -, hc', call', r', rest, hchecker', -, -, hhealth⟩ :=
    exists_check_of_run hstart hrun ⟨call, r, hcall, hr, hd⟩
  obtain rfl : hc = hc' := Option.some.inj (hchecker.symm.trans hchecker')
  rw [(hwhile u d.now v hmem).2.2] at hhealth
  -- so the node that is returned was healthy too when it was checked
  obtain ⟨c, hcmem, rfl, hchealth⟩ :=
    Selection.mem_candidates (hsound.node r hr n hnode).1 ⟨d, hd, hhealth⟩
  obtain ⟨u, v, hmem, -, hc', call', r', rest, hchecker', hcall', hstage, hcheck⟩ :=
    exists_check_of_run hstart hrun ⟨call, r, hcall, hr, hcmem⟩
  obtain rfl : hc = hc' := Option.some.inj (hchecker.symm.trans hchecker')
  obtain ⟨before, after, heq, hbefore, -⟩ := of_mem_trace hmem
  have hagree := hagrees before _ after u heq hbefore
  simp only [agrees, hcall', Option.map_some, hstage, hchecker, (hwhile u c.now v hmem).1,
    Bool.false_or, bne_iff_ne] at hagree
  exact hagree (hcheck.symm.trans hchealth)

def probedUpstream : List CheckEvent :=
  .selector (.loadUpstreams [⟨1, "u", .leastConnections, true,
    [⟨1, 1, "a:80", 1, true⟩, ⟨2, 1, "b:80", 1, true⟩], 0, 0⟩]) ::
  [.tick [1], .probe false, .probe true, .tick [1], .probe false, .probe true, .tick [1],
    .probe false, .probe true]

def selectNode : List CheckEvent :=
  [.selector (.begin ⟨1, .http, some 1, none, false, false, [], false⟩ none),
    .selector (.check 0 1), .selector (.check 0 1), .selector (.balance 0)]

theorem avoids_unhealthy_after_failure : ∃ t,
    run (step ⟨some .default, String.length, 160⟩ .default) init
      (probedUpstream ++ .selector (.mark (.failure 1 0)) :: selectNode) = some t ∧
    t.statuses.isSchedulable "a:80" = false ∧
    AvoidsUnhealthy ⟨some .default, String.length, 160⟩
      (trace (step ⟨some .default, String.length, 160⟩ .default) init
        (probedUpstream ++ .selector (.mark (.failure 1 0)) :: selectNode)) t := by
  refine ⟨_, rfl, rfl, avoids_unhealthy_of_agrees rfl rfl ?_⟩
  decide +kernel

/-- A node that the probes find unhealthy is selected. -/
theorem unhealthy_node_selected : ∃ s t call,
    run (step ⟨some .default, String.length, 160⟩ .default) init probedUpstream =
      some s ∧
    s.statuses.isSchedulable "a:80" = false ∧ s.statuses.isSchedulable "b:80" = true ∧
    (∀ now, PassiveHealthChecker.default.check s.selector.health now ⟨2, 1, "b:80", 1, true⟩ =
      .healthy) ∧
    run (step ⟨some .default, String.length, 160⟩ .default) s selectNode = some t ∧
    t.selector.calls[0]? = some call ∧ call.stage.node = some ⟨1, 1, "a:80", 1, true⟩ :=
  ⟨_, _, _, rfl, rfl, rfl, fun _ => rfl, rfl, rfl, rfl⟩

end CheckedSelector

end Conrogate
