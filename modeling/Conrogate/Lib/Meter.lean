import Conrogate.Lib.History
import Mathlib.Tactic.Linarith
import Mathlib.Tactic.Positivity

/-!
# Token buckets

Over any span of time the grants are at most the capacity and what flows in, and a refusal means
that a capacity was granted within the time of one filling.
-/

namespace Meter

open List

/-! ### Logs of calls -/

section

variable {K : Type*}

def grants (p : K → Prop) [DecidablePred p] (log : List (K × Bool)) : Nat :=
  log.countP fun e => e.2 && p e.1

variable {p : K → Prop} [DecidablePred p] {log : List (K × Bool)} {t : K}

@[simp] lemma grants_append_refused : grants p (log ++ [(t, false)]) = grants p log := by
  simp [grants]

lemma grants_append_of_pos (h : p t) : grants p (log ++ [(t, true)]) = grants p log + 1 := by
  simp [grants, h]

lemma grants_append_of_neg (h : ¬ p t) : grants p (log ++ [(t, true)]) = grants p log := by
  simp [grants, h]

lemma grants_eq_zero (h : ∀ e ∈ log, ¬ p e.1) : grants p log = 0 := by
  rw [grants, countP_eq_zero]
  intro e he
  simp [h e he]

lemma grants_mono {q : K → Prop} [DecidablePred q] (h : ∀ e ∈ log, p e.1 → q e.1) :
    grants p log ≤ grants q log := by
  apply countP_mono_left
  intro e he
  simp only [Bool.and_eq_true, decide_eq_true_eq]
  exact fun hp => ⟨hp.1, h e he hp.2⟩

end

variable {K : Type*} [Field K] [LinearOrder K]

def refill (capacity rate tokens elapsed : K) : K := min (tokens + elapsed * rate) capacity

variable {capacity rate tokens last now : K} {log : List (K × Bool)}

/-- The bucket holds what the log of grants leaves in it. -/
structure Tracks (capacity rate : K) (log : List (K × Bool)) (tokens last : K) : Prop where
  nonneg : 0 ≤ tokens
  le_capacity : tokens ≤ capacity
  past : ∀ e ∈ log, e.1 ≤ last
  upper : ∀ a ≤ last, grants (a ≤ ·) log + tokens ≤ capacity + rate * (last - a)
  lower : ∀ a ≤ last, min capacity (rate * (last - a)) ≤ tokens + grants (a < ·) log

/-- No interval grants too much, no refusal comes too early. -/
structure Metered (capacity rate : K) (log : List (K × Bool)) : Prop where
  bounded : ∀ a b, a ≤ b →
    (grants (fun t => a ≤ t ∧ t ≤ b) log : K) ≤ capacity + rate * (b - a)
  refused : History.Each (fun before e => e.2 = false →
    capacity < grants (fun x => e.1 - capacity / rate < x ∧ x ≤ e.1) before + 1) log

omit [Field K] in
lemma grants_le_of_past {p : K → Prop} [DecidablePred p] {b : K} (h : ∀ e ∈ log, e.1 ≤ b) :
    grants p log = grants (fun t => p t ∧ t ≤ b) log := by
  apply countP_congr
  intro e he
  simp [h e he]

lemma Tracks.refuse (h : Tracks capacity rate log tokens last) :
    Tracks capacity rate (log ++ [(last, false)]) tokens last where
  nonneg := h.nonneg
  le_capacity := h.le_capacity
  past := by
    intro e he
    rcases mem_append.mp he with he | he
    · exact h.past e he
    · rw [mem_singleton.mp he]
  upper a ha := by
    rw [grants_append_refused]
    exact h.upper a ha
  lower a ha := by
    rw [grants_append_refused]
    exact h.lower a ha

variable [IsStrictOrderedRing K]

lemma Tracks.start (hcapacity : 0 ≤ capacity) (hrate : 0 ≤ rate) (last : K) :
    Tracks capacity rate [] capacity last where
  nonneg := hcapacity
  le_capacity := le_rfl
  past := nofun
  upper a ha := by
    have hflow : 0 ≤ rate * (last - a) := mul_nonneg hrate (sub_nonneg.mpr ha)
    simpa [grants] using hflow
  lower a ha := by simp [grants]

lemma Tracks.wait (h : Tracks capacity rate log tokens last) (hrate : 0 ≤ rate)
    (hle : last ≤ now) :
    Tracks capacity rate log (refill capacity rate tokens (now - last)) now := by
  have hflow : 0 ≤ (now - last) * rate := mul_nonneg (sub_nonneg.mpr hle) hrate
  have hmore : refill capacity rate tokens (now - last) ≤ tokens + (now - last) * rate :=
    min_le_left _ _
  have hcapacity : refill capacity rate tokens (now - last) ≤ capacity := min_le_right _ _
  refine ⟨?_, hcapacity, fun e he => (h.past e he).trans hle, ?_, ?_⟩
  · exact le_min (add_nonneg h.nonneg hflow) (h.nonneg.trans h.le_capacity)
  · intro a ha
    rcases le_or_gt a last with hal | hal
    · have hupper := h.upper a hal
      linarith
    · -- nothing was granted since
      have hnone : grants (a ≤ ·) log = 0 :=
        grants_eq_zero fun e he => not_le.mpr ((h.past e he).trans_lt hal)
      have hnew : 0 ≤ rate * (now - a) := mul_nonneg hrate (sub_nonneg.mpr ha)
      rw [hnone, Nat.cast_zero]
      linarith
  · intro a ha
    have hcount : (0 : K) ≤ grants (a < ·) log := Nat.cast_nonneg _
    rw [refill, min_def (tokens + _)]
    split_ifs with hfull
    · rcases le_or_gt a last with hal | hal
      · have hlower := h.lower a hal
        rcases le_total capacity (rate * (last - a)) with hcap | hcap
        · rw [min_eq_left hcap] at hlower
          exact (min_le_left _ _).trans (by linarith)
        · rw [min_eq_right hcap] at hlower
          exact (min_le_right _ _).trans (by linarith)
      · have hshort : rate * (now - a) ≤ (now - last) * rate := by
          rw [mul_comm]
          exact mul_le_mul_of_nonneg_right (by linarith) hrate
        exact (min_le_right _ _).trans (by linarith [h.nonneg])
    · exact (min_le_left _ _).trans (by linarith)

lemma Tracks.grant (h : Tracks capacity rate log tokens last) (hone : 1 ≤ tokens) :
    Tracks capacity rate (log ++ [(last, true)]) (tokens - 1) last where
  nonneg := sub_nonneg.mpr hone
  le_capacity := (sub_le_self tokens zero_le_one).trans h.le_capacity
  past := by
    intro e he
    rcases mem_append.mp he with he | he
    · exact h.past e he
    · rw [mem_singleton.mp he]
  upper a ha := by
    have hupper := h.upper a ha
    rw [grants_append_of_pos ha]
    push_cast
    linarith
  lower a ha := by
    have hlower := h.lower a ha
    rcases ha.eq_or_lt with rfl | hlt
    · rw [sub_self, mul_zero]
      have hcount : (0 : K) ≤ grants (a < ·) (log ++ [(a, true)]) := Nat.cast_nonneg _
      exact (min_le_right _ _).trans (by linarith)
    · rw [grants_append_of_pos hlt]
      push_cast
      linarith

lemma grants_le_of_each {C R : K} (hC : 0 ≤ C) (hR : 0 ≤ R)
    (hsorted : (log.map Prod.fst).Pairwise (· ≤ ·))
    (h : History.Each (fun before e => ∀ a ≤ e.1,
      (grants (a ≤ ·) (before ++ [e]) : K) ≤ C + R * (e.1 - a)) log) {a b : K} (hab : a ≤ b) :
    (grants (fun t => a ≤ t ∧ t ≤ b) log : K) ≤ C + R * (b - a) := by
  have hflow : 0 ≤ R * (b - a) := mul_nonneg hR (sub_nonneg.mpr hab)
  induction log using List.reverseRecOn with
  | nil =>
    simp only [grants, countP_nil, Nat.cast_zero]
    linarith
  | append_singleton log e ih =>
    obtain ⟨heach, hlast⟩ := History.each_append_singleton_iff.mp h
    rw [map_append, pairwise_append] at hsorted
    have hpast : ∀ e' ∈ log, e'.1 ≤ e.1 := fun e' he' =>
      hsorted.2.2 e'.1 (mem_map_of_mem he') e.1 (by simp)
    have ih := ih hsorted.1 heach
    by_cases hin : a ≤ e.1 ∧ e.1 ≤ b
    · have hle : ∀ e' ∈ log ++ [e], e'.1 ≤ b := by
        intro e' he'
        obtain he' | rfl := by simpa using he'
        · exact (hpast e' he').trans hin.2
        · exact hin.2
      have hspan : R * (e.1 - a) ≤ R * (b - a) :=
        mul_le_mul_of_nonneg_left (sub_le_sub_right hin.2 a) hR
      have hlast := hlast a hin.1
      rw [grants_le_of_past hle] at hlast
      linarith
    · have hskip : grants (fun t => a ≤ t ∧ t ≤ b) (log ++ [e]) =
          grants (fun t => a ≤ t ∧ t ≤ b) log := by
        obtain ⟨t, granted⟩ := e
        cases granted with
        | false => exact grants_append_refused
        | true => exact grants_append_of_neg hin
      rw [hskip]
      exact ih

lemma Metered.nil (hcapacity : 0 ≤ capacity) (hrate : 0 ≤ rate) : Metered capacity rate [] where
  bounded a b hab := by
    have hflow : 0 ≤ rate * (b - a) := mul_nonneg hrate (sub_nonneg.mpr hab)
    simp only [grants, countP_nil, Nat.cast_zero]
    linarith
  refused := History.each_nil

section

variable (h : Metered capacity rate log) (ht : Tracks capacity rate log tokens last)
include h ht

lemma Metered.grant (hrate : 0 ≤ rate) (hone : 1 ≤ tokens) :
    Metered capacity rate (log ++ [(last, true)]) where
  bounded a b hab := by
    by_cases hin : a ≤ last ∧ last ≤ b
    · have hcount : grants (fun t => a ≤ t ∧ t ≤ b) (log ++ [(last, true)]) =
          grants (fun t => a ≤ t ∧ t ≤ b) log + 1 := grants_append_of_pos hin
      have hsince : grants (fun t => a ≤ t ∧ t ≤ b) log ≤ grants (a ≤ ·) log :=
        grants_mono fun _ _ he => he.1
      have hsince : (grants (fun t => a ≤ t ∧ t ≤ b) log : K) ≤ grants (a ≤ ·) log := by
        exact_mod_cast hsince
      have hlater : rate * (last - a) ≤ rate * (b - a) :=
        mul_le_mul_of_nonneg_left (sub_le_sub_right hin.2 a) hrate
      have hupper := ht.upper a hin.1
      rw [hcount]
      push_cast
      linarith
    · have hcount : grants (fun t => a ≤ t ∧ t ≤ b) (log ++ [(last, true)]) =
          grants (fun t => a ≤ t ∧ t ≤ b) log := grants_append_of_neg hin
      rw [hcount]
      exact h.bounded a b hab
  refused := h.refused.append_singleton nofun

lemma Metered.refuse (hrate : 0 < rate) (hnone : tokens < 1) :
    Metered capacity rate (log ++ [(last, false)]) where
  bounded a b hab := by
    rw [grants_append_refused]
    exact h.bounded a b hab
  refused := by
    refine h.refused.append_singleton fun _ => ?_
    -- the bucket could have filled since then
    have hcapacity : 0 ≤ capacity := ht.nonneg.trans ht.le_capacity
    have hlower := ht.lower (last - capacity / rate)
      (sub_le_self last (div_nonneg hcapacity hrate.le))
    rw [sub_sub_cancel, mul_div_cancel₀ capacity hrate.ne', min_self] at hlower
    have hpast : grants (last - capacity / rate < ·) log ≤
        grants (fun x => last - capacity / rate < x ∧ x ≤ last) log :=
      grants_mono fun e he hlt => ⟨hlt, ht.past e he⟩
    have hpast : (grants (last - capacity / rate < ·) log : K) ≤
        grants (fun x => last - capacity / rate < x ∧ x ≤ last) log := by
      exact_mod_cast hpast
    linarith

end

end Meter
