import Conrogate.Core.Dto
import Conrogate.Traffic.Limiter

/-!
# Passive health checks

`PassiveHealthChecker` keeps the failures of each node since its last success. What is marked in
the course of time is a list of `Mark`s, and the table is what is left of it.
-/

namespace Conrogate

inductive NodeHealth where
  | healthy
  | degraded (reason : String)
  | unhealthy (reason : String)
deriving DecidableEq

structure NodeState where
  consecutiveFailures : Nat
  lastFailure : Option ℚ

open NodeState

abbrev NodeStates := Nat → Option NodeState

structure PassiveHealthChecker where
  failureThreshold : Nat
  recoveryWait : ℚ

inductive Mark where
  | failure (nodeId : Nat) (now : ℚ)
  | success (nodeId : Nat)

namespace PassiveHealthChecker

def default : PassiveHealthChecker := ⟨3, 30⟩

variable (hc : PassiveHealthChecker)

def check (states : NodeStates) (now : ℚ) (node : UpstreamNodeDto) : NodeHealth :=
  match states node.id with
  | none => .healthy
  | some state =>
    if hc.failureThreshold ≤ state.consecutiveFailures then
      if ∃ last ∈ state.lastFailure, hc.recoveryWait ≤ durationSince now last then
        .degraded "recovery probe"
      else .unhealthy s!"{state.consecutiveFailures} consecutive failures"
    else if 0 < state.consecutiveFailures then
      .degraded s!"{state.consecutiveFailures} recent failures"
    else .healthy

end PassiveHealthChecker

namespace NodeStates

def markFailure (states : NodeStates) (nodeId : Nat) (now : ℚ) : NodeStates :=
  let state := (states nodeId).getD ⟨0, none⟩
  Function.update states nodeId
    (some ⟨(state.consecutiveFailures + 1) % 0x100000000, some now⟩)

def markSuccess (states : NodeStates) (nodeId : Nat) : NodeStates :=
  Function.update states nodeId none

def mark (states : NodeStates) : Mark → NodeStates
  | .failure nodeId now => states.markFailure nodeId now
  | .success nodeId => states.markSuccess nodeId

end NodeStates

def failureTimes (nodeId : Nat) (marks : List Mark) : List ℚ :=
  marks.foldl (fun times m => match m with
    | .failure id now => if id = nodeId then now :: times else times
    | .success id => if id = nodeId then [] else times) []

def NodeState.ofTimes : List ℚ → Option NodeState
  | [] => none
  | last :: times => some ⟨(times.length + 1) % 0x100000000, some last⟩

lemma foldl_mark_apply (marks : List Mark) (nodeId : Nat) :
    marks.foldl NodeStates.mark (fun _ => none) nodeId =
      ofTimes (failureTimes nodeId marks) := by
  induction marks using List.reverseRecOn with
  | nil => rfl
  | append_singleton marks m ih =>
    rw [failureTimes, List.foldl_concat, List.foldl_concat, ← failureTimes]
    cases m with
    | failure id now =>
      by_cases hid : id = nodeId
      · subst hid
        simp only [NodeStates.mark, NodeStates.markFailure, Function.update_self, ih, if_pos]
        cases failureTimes id marks with
        | nil => rfl
        | cons last times => simp [ofTimes, Nat.add_mod]
      · simp [NodeStates.mark, NodeStates.markFailure, Function.update_of_ne (Ne.symm hid), hid, ih]
    | success id =>
      by_cases hid : id = nodeId
      · subst hid
        simp [NodeStates.mark, NodeStates.markSuccess, ofTimes]
      · simp [NodeStates.mark, NodeStates.markSuccess, Function.update_of_ne (Ne.symm hid), hid, ih]

lemma PassiveHealthChecker.check_eq_healthy_iff (hc : PassiveHealthChecker) {states : NodeStates}
    {times : List ℚ} {now : ℚ} {node : UpstreamNodeDto}
    (h : states node.id = ofTimes times) :
    hc.check states now node = .healthy ↔
      times = [] ∨ times.length % 0x100000000 = 0 ∧ 0 < hc.failureThreshold := by
  rw [check, h]
  cases times with
  | nil => simp [ofTimes]
  | cons last times =>
    simp only [ofTimes, List.length_cons]
    split
    · next hthreshold =>
      split <;> simp <;> omega
    · split
      · simp
        omega
      · simp
        omega

end Conrogate
