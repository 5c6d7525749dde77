import Mathlib.Tactic.Linarith
import Mathlib.Tactic.Positivity
import Mathlib.Tactic.Ring

/-!
# Pacing

A writer that pays for what it has written with time, before it writes on, keeps to a rate, up to
one burst.
-/

namespace Pacing

variable {K : Type*} [Field K] [LinearOrder K]

/-- The amount written from time `a` to time `b`. -/
def within (a b : K) (log : List (K × Nat)) : Nat :=
  ((log.filter fun w => a ≤ w.1 ∧ w.1 ≤ b).map (·.2)).sum

omit [Field K] in
lemma within_concat (a b t : K) (n : Nat) (log : List (K × Nat)) :
    within a b (log ++ [(t, n)]) = within a b log + if a ≤ t ∧ t ≤ b then n else 0 := by
  rw [within, within, List.filter_append, List.map_append, List.sum_append]
  split_ifs with h <;> simp [h]

/-- At `now`, the log has no more than the rate allows until `due`, and `part` in addition; and at
no time more than a burst too much. -/
structure Paced (rate : K) (burst : Nat) (log : List (K × Nat)) (now due : K) (part : Nat) :
    Prop where
  past : ∀ w ∈ log, w.1 ≤ now
  le_due : now ≤ due
  since : ∀ a ≤ now, ∀ b, (within a b log : K) ≤ rate * (due - a) + part
  bounded : ∀ a b, a ≤ b → (within a b log : K) ≤ rate * (b - a) + burst

variable [IsStrictOrderedRing K] {rate now due t : K} {burst part n : Nat} {log : List (K × Nat)}

lemma Paced.wait (h : Paced rate burst log now due part) (hrate : 0 ≤ rate) (hnow : now ≤ t) :
    Paced rate burst log t (max t due) part := by
  refine ⟨fun w hw => (h.past w hw).trans hnow, le_max_left t due, fun a ha b => ?_, h.bounded⟩
  obtain hle | hlt := le_or_gt a now
  · refine (h.since a hle b).trans ?_
    gcongr
    exact le_max_right t due
  · -- nothing has been written since
    have hzero : within a b log = 0 := by
      rw [within, List.filter_eq_nil_iff.mpr]
      · rfl
      · intro w hw hin
        exact absurd (h.past w hw) (not_le.mpr (hlt.trans_le (of_decide_eq_true hin).1))
    rw [hzero, Nat.cast_zero]
    have hdue : 0 ≤ max t due - a := sub_nonneg.mpr (ha.trans (le_max_left t due))
    positivity

lemma Paced.write (h : Paced rate burst log now now part) (hrate : 0 ≤ rate)
    (hpart : part + n ≤ burst) : Paced rate burst (log ++ [(now, n)]) now now (part + n) := by
  have hsince : ∀ a ≤ now, ∀ b,
      (within a b (log ++ [(now, n)]) : K) ≤ rate * (now - a) + (part + n : ℕ) := by
    intro a ha b
    have hle : within a b (log ++ [(now, n)]) ≤ within a b log + n := by
      rw [within_concat]
      split_ifs <;> omega
    have hlog := h.since a ha b
    push_cast
    have hcast : (within a b (log ++ [(now, n)]) : K) ≤ within a b log + n := by exact_mod_cast hle
    linarith
  refine ⟨?_, le_rfl, hsince, fun a b hab => ?_⟩
  · intro w hw
    obtain hw | hw := List.mem_append.mp hw
    · exact h.past w hw
    · rw [List.mem_singleton.mp hw]
  · by_cases hin : a ≤ now ∧ now ≤ b
    · calc (within a b (log ++ [(now, n)]) : K)
          ≤ rate * (now - a) + (part + n : ℕ) := hsince a hin.1 b
        _ ≤ rate * (b - a) + burst := by gcongr; exact hin.2
    · rw [within_concat, if_neg hin, Nat.add_zero]
      exact h.bounded a b hab

lemma Paced.rest (h : Paced rate burst log now now part) {us : K} (hus : 0 ≤ us)
    (hpaid : part = rate * us) : Paced rate burst log now (now + us) 0 := by
  refine ⟨h.past, le_add_of_nonneg_right hus, fun a ha b => ?_, h.bounded⟩
  have hlog := h.since a ha b
  rw [hpaid] at hlog
  calc (within a b log : K) ≤ rate * (now - a) + rate * us := hlog
    _ = rate * (now + us - a) + (0 : ℕ) := by push_cast; ring

end Pacing
