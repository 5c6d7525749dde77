import Conrogate.Gateway.Selector

/-!
# Nodes that are left out

The filter keeps the nodes that have not failed since their last success, whatever the threshold and
the waiting time say about the others.
-/

namespace Conrogate

open Transition NodeStates Selection

namespace HealthCheck

def failures (c : HealthCheck) : List ℚ := failureTimes c.node.id c.marks

def Failing (hc : PassiveHealthChecker) (c : HealthCheck) : Prop :=
  hc.failureThreshold ≤ c.failures.length ∧
    ∃ last ∈ c.failures.head?, durationSince c.now last < hc.recoveryWait

def Clear (hc : PassiveHealthChecker) (c : HealthCheck) : Prop :=
  c.failures = [] ∨ c.failures.length % 0x100000000 = 0 ∧ 0 < hc.failureThreshold

end HealthCheck

section

variable {env : SelectorEnv} {s t : SelectorState} {e : SelectorEvent}

lemma health_step (h : s.health = s.marks.foldl mark fun _ => none)
    (hstep : selectorStep env s e = some t) :
    t.health = t.marks.foldl mark fun _ => none := by
  cases selectorMove_of_step hstep with
  | loadUpstreams upstreams => exact h
  | mark m => rw [List.foldl_concat, ← h]
  | begin route key => exact h
  | check hcall hchecker hstage => exact h
  | @balance i call r hcall hstage =>
    obtain ⟨-, -, hhealth, hmarks⟩ := balance_frame env s call.key r
    rw [SelectorState.move, hhealth, hmarks]
    exact h
  | store hcall hstage hkey => exact h
  | readAlgorithm hcall hstage htable => exact h
  | readNothing hcall hstage htable => exact h
  | release hcall hstage =>
    rw [SelectorState.move]
    split <;> exact h

lemma health_eq_healthy_iff {hc : PassiveHealthChecker} (hchecker : env.checker = some hc)
    {events : List SelectorEvent} {i : Nat} {call : SelectCall} {r : Selection}
    (hread : r.ReadBy env (trace (selectorStep env) .init events) i call)
    {c : HealthCheck} (hc' : c ∈ r.checks) : c.health = .healthy ↔ c.Clear hc := by
  obtain ⟨-, -, checker, hsome, u, v, hmem, hhealth, hmarks⟩ := hread.checks c hc'
  obtain rfl : hc = checker := Option.some.inj (hchecker.symm.trans hsome)
  obtain ⟨before, after, -, hrun, -⟩ := of_mem_trace hmem
  have htable : u.health = u.marks.foldl mark fun _ => none :=
    invariant (I := fun u => u.health = u.marks.foldl mark fun _ => none)
      (fun _ _ _ h hstep => health_step h hstep) rfl hrun
  rw [hhealth, HealthCheck.Clear, HealthCheck.failures, hmarks]
  apply hc.check_eq_healthy_iff
  rw [htable, foldl_mark_apply]

lemma Selection.notMem_candidates_iff {r : Selection} {x : UpstreamNodeDto} (hx : x ∈ r.nodes) :
    x ∉ r.candidates ↔ (∃ d ∈ r.checks, d.health = .healthy) ∧
      ∀ d ∈ r.checks, d.node = x → d.health ≠ .healthy := by
  have hmem : ∀ y, y ∈ r.healthy ↔ ∃ d ∈ r.checks, d.node = y ∧ d.health = .healthy := by
    intro y
    simp only [healthy, List.mem_map, List.mem_filter, decide_eq_true_eq]
    constructor
    · rintro ⟨d, ⟨hd, hhealth⟩, rfl⟩
      exact ⟨d, hd, rfl, hhealth⟩
    · rintro ⟨d, hd, rfl, hhealth⟩
      exact ⟨d, ⟨hd, hhealth⟩, rfl⟩
  rw [candidates]
  split
  · next hnil =>
    refine iff_of_false (not_not_intro hx) ?_
    rintro ⟨⟨d, hd, hhealth⟩, -⟩
    have hd := (hmem d.node).mpr ⟨d, hd, rfl, hhealth⟩
    rw [hnil] at hd
    cases hd
  · next hne =>
    obtain ⟨y, hy⟩ := List.exists_mem_of_ne_nil _ hne
    obtain ⟨d, hd, -, hhealth⟩ := (hmem y).mp hy
    rw [hmem]
    constructor
    · intro h
      exact ⟨⟨d, hd, hhealth⟩, fun d hd hnode hhealth => h ⟨d, hd, hnode, hhealth⟩⟩
    · rintro ⟨-, h⟩ ⟨d, hd, hnode, hhealth⟩
      exact h d hd hnode hhealth

end

/-- The enabled nodes that are left out have reached the threshold with a recent failure, exactly if
whenever a checked node is clear, each of the others is clear as well or has done so. -/
theorem left_out_only_while_failing_iff (env : SelectorEnv) (hc : PassiveHealthChecker)
    (hchecker : env.checker = some hc) (events : List SelectorEvent) (t : SelectorState)
    (hrun : run (selectorStep env) .init events = some t) :
    (∀ call ∈ t.calls, ∀ r ∈ call.stage.selection, call.stage.pending = [] →
      ∀ x ∈ r.nodes, x.enabled = true → x ∉ r.candidates →
        ∀ c ∈ r.checks, c.node = x → c.Failing hc) ↔
    ∀ call ∈ t.calls, ∀ r ∈ call.stage.selection, call.stage.pending = [] →
      (∃ d ∈ r.checks, d.Clear hc) →
        ∀ c ∈ r.checks, (∃ d ∈ r.checks, d.node = c.node ∧ d.Clear hc) ∨ c.Failing hc := by
  have hsound : ∀ call ∈ t.calls, ∀ r ∈ call.stage.selection,
      ∃ i, r.ReadBy env (trace (selectorStep env) .init events) i call := by
    intro call hcall r hr
    obtain ⟨i, hi⟩ := List.mem_iff_getElem?.mp hcall
    exact ⟨i, (soundCalls_run rfl hrun i call hi).read r hr⟩
  constructor
  · intro h call hcall r hr hdone hclear c hc'
    obtain ⟨i, hread⟩ := hsound call hcall r hr
    have hiff : ∀ d ∈ r.checks, (d.health = .healthy ↔ d.Clear hc) := fun d hd =>
      health_eq_healthy_iff hchecker hread hd
    obtain ⟨hnode, henabled, -⟩ := hread.checks c hc'
    by_cases hout : c.node ∈ r.candidates
    · obtain ⟨d, hd, hd'⟩ := hclear
      obtain ⟨d', hd', hnode', hhealth⟩ :=
        mem_candidates hout ⟨d, hd, (hiff d hd).mpr hd'⟩
      exact .inl ⟨d', hd', hnode', (hiff d' hd').mp hhealth⟩
    · exact .inr (h call hcall r hr hdone c.node hnode henabled hout c hc' rfl)
  · rintro h call hcall r hr hdone x hx henabled hout c hc' rfl
    obtain ⟨i, hread⟩ := hsound call hcall r hr
    have hiff : ∀ d ∈ r.checks, (d.health = .healthy ↔ d.Clear hc) := fun d hd =>
      health_eq_healthy_iff hchecker hread hd
    obtain ⟨⟨d, hd, hhealth⟩, hnone⟩ := (notMem_candidates_iff hx).mp hout
    obtain ⟨d', hd', hnode', hclear⟩ | hfailing :=
      h call hcall r hr hdone ⟨d, hd, (hiff d hd).mp hhealth⟩ c hc'
    · exact absurd ((hiff d' hd').mpr hclear) (hnone d' hd' hnode')
    · exact hfailing

section

def thirdFailure (now : ℚ) : List SelectorEvent :=
  [.loadUpstreams [⟨1, "u", .roundRobin, true,
      [⟨1, 1, "a", 1, true⟩, ⟨2, 1, "b", 1, true⟩], 0, 0⟩],
    .mark (.failure 1 0), .mark (.failure 1 0), .mark (.failure 1 0),
    .begin ⟨1, .http, some 1, none, false, false, [], false⟩ none, .check 0 now, .check 0 now,
    .balance 0]

lemma run_thirdFailure (now : ℚ) : ∃ t call a b,
    run (selectorStep ⟨some .default, String.length, 160⟩) .init (thirdFailure now) =
      some t ∧ t.calls = [call] ∧ call.stage.pending = [] ∧
    call.stage.selection = some ⟨.roundRobin, [⟨1, 1, "a", 1, true⟩, ⟨2, 1, "b", 1, true⟩],
      [a, b]⟩ ∧
    a.node = ⟨1, 1, "a", 1, true⟩ ∧ a.now = now ∧ a.failures = [0, 0, 0] ∧
    b.node = ⟨2, 1, "b", 1, true⟩ ∧ b.failures = [] :=
  ⟨_, _, _, _, rfl, rfl, rfl, rfl, rfl, rfl, rfl, rfl, rfl⟩

theorem left_out_after_third_failure : ∃ t,
    run (selectorStep ⟨some .default, String.length, 160⟩) .init (thirdFailure 1) =
      some t ∧
    ∀ call ∈ t.calls, ∀ r ∈ call.stage.selection, call.stage.pending = [] →
      ∀ x ∈ r.nodes, x.enabled = true → x ∉ r.candidates →
        ∀ c ∈ r.checks, c.node = x → c.Failing .default := by
  obtain ⟨t, call, a, b, hrun, hcalls, -, hr, -, hnow, ha, -, hb⟩ := run_thirdFailure 1
  refine ⟨t, hrun, (left_out_only_while_failing_iff _ .default rfl _ t hrun).mpr ?_⟩
  rw [hcalls]
  intro call' hcall' r hr' _ _ c hc
  obtain rfl := List.mem_singleton.mp hcall'
  obtain rfl := Option.some.inj (hr.symm.trans hr')
  obtain rfl | rfl : c = a ∨ c = b := by simpa using hc
  · refine .inr ⟨?_, 0, by rw [ha]; rfl, ?_⟩
    · rw [ha]
      exact le_rfl
    · rw [hnow]
      norm_num [durationSince, PassiveHealthChecker.default]
  · exact .inl ⟨c, hc, rfl, .inl hb⟩

/-- It is still left out when the waiting time is long over. -/
theorem left_out_after_recovery_wait : ∃ t call r a,
    run (selectorStep ⟨some .default, String.length, 160⟩) .init (thirdFailure 1000) =
      some t ∧ t.calls = [call] ∧ call.stage.selection = some r ∧ call.stage.pending = [] ∧
    a ∈ r.checks ∧ a.node ∈ r.nodes ∧ a.node.enabled = true ∧ a.node ∉ r.candidates ∧
    a.failures = [0, 0, 0] ∧ a.now = 1000 ∧ PassiveHealthChecker.default.recoveryWait < 1000 := by
  obtain ⟨t, call, a, b, hrun, hcalls, hpending, hr, hnode, hnow, ha, hbnode, hb⟩ :=
    run_thirdFailure 1000
  have hread := (soundCalls_run rfl hrun 0 call (by rw [hcalls]; rfl)).read _ hr
  refine ⟨t, call, _, a, hrun, hcalls, hr, hpending, by simp, by simp [hnode], by rw [hnode], ?_,
    ha, hnow, by norm_num [PassiveHealthChecker.default]⟩
  rw [notMem_candidates_iff (by simp [hnode])]
  refine ⟨⟨b, by simp, (health_eq_healthy_iff rfl hread (by simp)).mpr (.inl hb)⟩, ?_⟩
  intro d hd hdnode hhealth
  obtain rfl | rfl : d = a ∨ d = b := by simpa using hd
  · have hclear := (health_eq_healthy_iff rfl hread hd).mp hhealth
    simp [HealthCheck.Clear, ha] at hclear
  · rw [hnode, hbnode] at hdnode
    cases hdnode

end

end Conrogate
