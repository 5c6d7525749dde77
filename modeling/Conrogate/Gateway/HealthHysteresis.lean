import Conrogate.Gateway.ActiveHealth
import Mathlib.Data.List.DropRight

/-!
# Recovery of an unhealthy node

A failure after a success counts as the first of a new row, and makes an unhealthy node degraded,
which is schedulable.
-/

namespace Conrogate

open List ActiveHealthCheckerConfig

def inRow (b : Bool) (results : List Bool) : Nat := (results.rtakeWhile (· == b)).length

section

variable (b : Bool) (results : List Bool)

@[simp] lemma inRow_concat_self : inRow b (results ++ [b]) = inRow b results + 1 := by
  rw [inRow, rtakeWhile_concat_pos _ _ _ (by simp), length_append]
  rfl

@[simp] lemma inRow_concat_not : inRow b (results ++ [!b]) = 0 := by
  rw [inRow, rtakeWhile_concat_neg _ _ _ (by simp), length_nil]

lemma inRow_append_cons (before : List Bool) : inRow b (before ++ (!b) :: results) =
    inRow b results := by
  induction results using reverseRecOn with
  | nil => exact inRow_concat_not b before
  | append_singleton results x ih =>
    rw [← cons_append, ← append_assoc]
    by_cases hx : x = b
    · subst hx
      rw [inRow_concat_self, inRow_concat_self, ih]
    · rw [Bool.eq_not.mpr hx, inRow_concat_not, inRow_concat_not]

lemma replicate_inRow_suffix : replicate (inRow b results) b <:+ results := by
  have hall : results.rtakeWhile (· == b) = replicate (inRow b results) b :=
    eq_replicate_of_mem fun x hx => by simpa using mem_rtakeWhile_imp hx
  rw [← hall]
  exact rtakeWhile_suffix _ _

end

def NodeHealth.IsUnhealthy : NodeHealth → Prop
  | unhealthy _ => True
  | _ => False

namespace ActiveHealthCheckerConfig

variable (config : ActiveHealthCheckerConfig)

def afterProbes (addr : String) (results : List Bool) : NodeStatuses :=
  results.foldl (fun nodes success => config.checkNode nodes addr success) fun _ => none

def statusAfter (results : List Bool) : NodeStatus :=
  results.foldl config.probed ⟨.healthy, 0, 0⟩

variable {config} {addr : String} {results : List Bool}

lemma statusAfter_concat (results : List Bool) (success : Bool) :
    config.statusAfter (results ++ [success]) =
      config.probed (config.statusAfter results) success := by
  simp [statusAfter]

lemma afterProbes_getD (addr : String) (results : List Bool) :
    (config.afterProbes addr results addr).getD ⟨.healthy, 0, 0⟩ = config.statusAfter results := by
  induction results using reverseRecOn with
  | nil => rfl
  | append_singleton results success ih =>
    rw [statusAfter_concat, ← ih]
    simp [afterProbes, checkNode]

lemma isSchedulable_afterProbes : (config.afterProbes addr results).isSchedulable addr = false ↔
    (config.statusAfter results).state.IsUnhealthy := by
  rw [← afterProbes_getD addr results, NodeStatuses.isSchedulable]
  cases config.afterProbes addr results addr with
  | none => simp [NodeHealth.IsUnhealthy]
  | some status => cases hstate : status.state <;> simp [hstate, NodeHealth.IsUnhealthy]

lemma counters_statusAfter (results : List Bool) :
    (config.statusAfter results).consecutiveSuccess = inRow true results % 0x100000000 ∧
    (config.statusAfter results).consecutiveFailure = inRow false results % 0x100000000 := by
  induction results using reverseRecOn with
  | nil => exact ⟨rfl, rfl⟩
  | append_singleton results success ih =>
    obtain ⟨hsuccess, hfailure⟩ := ih
    rw [statusAfter_concat, probed]
    cases success with
    | true => simp [hsuccess, show inRow false (results ++ [true]) = 0 from inRow_concat_not _ _]
    | false => simp [hfailure, show inRow true (results ++ [false]) = 0 from inRow_concat_not _ _]

def KeepsUnhealthy (config : ActiveHealthCheckerConfig) (results : List Bool) : Prop :=
  config.unhealthyThreshold ≤ inRow false results % 0x100000000 ∨
    inRow false results % 0x100000000 = 0

lemma isUnhealthy_concat_false (h : (config.statusAfter results).state.IsUnhealthy) :
    (config.statusAfter (results ++ [false])).state.IsUnhealthy ↔
      config.KeepsUnhealthy (results ++ [false]) := by
  rw [statusAfter_concat, KeepsUnhealthy, inRow_concat_self]
  simp only [probed, Bool.false_eq_true, if_false, (counters_statusAfter results).2,
    Nat.mod_add_mod]
  split
  · next hlong => exact iff_of_true trivial (.inl hlong)
  · next hshort =>
    split
    · next hpos => exact iff_of_false id (not_or.mpr ⟨hshort, hpos.ne'⟩)
    · next hzero => exact iff_of_true h (.inr (Nat.eq_zero_of_not_pos hzero))

lemma isUnhealthy_concat_true (h : (config.statusAfter results).state.IsUnhealthy)
    (hfew : inRow true (results ++ [true]) < config.healthyThreshold) :
    (config.statusAfter (results ++ [true])).state.IsUnhealthy := by
  rw [inRow_concat_self] at hfew
  rw [statusAfter_concat]
  simp only [probed, if_true, (counters_statusAfter results).1, Nat.mod_add_mod]
  rw [if_neg (not_le.mpr ((Nat.mod_le _ _).trans_lt hfew))]
  exact h

end ActiveHealthCheckerConfig

/-- A node that has become unhealthy stays unschedulable until `healthy_threshold` successes in a
row, if and only if each failure among the later probes is at least the `unhealthy_threshold`th in a
row, or one at which the counter wraps around to zero. -/
theorem unschedulable_until_recovery_iff (config : ActiveHealthCheckerConfig) (addr : String)
    (before later : List Bool)
    (hunhealthy : (config.statusAfter (before ++ [false])).state.IsUnhealthy)
    (hfew : ¬ replicate config.healthyThreshold true <:+: later) :
    (∀ now, now <+: later →
      (config.afterProbes addr (before ++ false :: now)).isSchedulable addr = false) ↔
    ∀ now, now ++ [false] <+: later →
      config.KeepsUnhealthy (before ++ false :: now ++ [false]) := by
  simp only [isSchedulable_afterProbes]
  constructor
  · intro hall now hnow
    have hbefore := hall now ((prefix_append _ _).trans hnow)
    have hafter := hall (now ++ [false]) hnow
    rw [← cons_append, ← append_assoc] at hafter
    exact (isUnhealthy_concat_false hbefore).mp hafter
  · intro hkeeps now hnow
    induction now using reverseRecOn with
    | nil => exact hunhealthy
    | append_singleton now success ih =>
      have hprev := ih ((prefix_append _ _).trans hnow)
      rw [← cons_append, ← append_assoc]
      cases success with
      | false =>
        exact (isUnhealthy_concat_false hprev).mpr (hkeeps now hnow)
      | true =>
        refine isUnhealthy_concat_true hprev ?_
        rw [append_assoc, cons_append, show false = !true from rfl,
          inRow_append_cons true]
        -- a row that is long enough would have occurred
        by_contra hlong
        have hrow : replicate config.healthyThreshold true <:+
            replicate (inRow true (now ++ [true])) true := by
          rw [suffix_replicate_iff, length_replicate]
          exact ⟨not_lt.mp hlong, rfl⟩
        exact hfew ((hrow.trans (replicate_inRow_suffix true _)).isInfix.trans hnow.isInfix)

theorem unschedulable_until_recovery_default :
    let config := default
    (config.statusAfter [false, false, false]).state.IsUnhealthy ∧
    ¬ replicate config.healthyThreshold true <:+: [false, true] ∧
    ∀ now, now <+: [false, true] → (config.afterProbes "10.0.0.9:80"
      ([false, false] ++ false :: now)).isSchedulable "10.0.0.9:80" = false := by
  refine ⟨trivial, by decide, ?_⟩
  refine (unschedulable_until_recovery_iff .default "10.0.0.9:80" [false, false] [false, true]
    trivial (by decide)).mpr ?_
  intro now hnow
  have hinits : now ++ [false] ∈ [false, true].inits := (mem_inits _ _).mpr hnow
  obtain rfl | ⟨rest, rfl, hrest⟩ : now = [] ∨ ∃ rest, now = false :: rest ∧
      [true] = rest ++ [false] := by simpa [append_eq_cons_iff] using hinits
  · exact .inl (by decide)
  · have hlast : [] ++ [true] = rest ++ [false] := hrest
    cases (append_inj' hlast rfl).2

/-- With the default thresholds: three failures make the node unhealthy, and a success followed by
a failure makes it schedulable. -/
theorem single_success_and_failure_schedulable :
    let config := default
    (config.statusAfter [false, false, false]).state.IsUnhealthy ∧
    ¬ replicate config.healthyThreshold true <:+: [true, false] ∧
    (config.afterProbes "10.0.0.9:80" [false, false, false, true, false]).isSchedulable
      "10.0.0.9:80" = true := by
  exact ⟨trivial, by decide, by decide⟩

end Conrogate
