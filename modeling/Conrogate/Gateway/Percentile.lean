import Conrogate.Gateway.Aggregator

/-!
# Percentiles of latencies

The histogram keeps powers of two, so that a percentile is only known up to a factor of two. The
last bin also takes what is beyond its end.
-/

namespace Conrogate

open List Nat

namespace LatencyHistogram

def ofLatencies (latencies : List Nat) : LatencyHistogram :=
  latencies.foldl (fun hist latencyMs => hist.add latencyMs 1) .new

def nthSmallest (latencies : List Nat) (n : Nat) : Option Nat :=
  (latencies.insertionSort (· ≤ ·))[n - 1]?

lemma binIndex_lt (latencyMs : Nat) : binIndex latencyMs < binCount :=
  lt_of_le_of_lt (min_le_right _ _) (by decide)

lemma binIndex_mono {a b : Nat} (h : a ≤ b) : binIndex a ≤ binIndex b := by
  refine min_le_min_right _ ?_
  obtain rfl | ha := Nat.eq_zero_or_pos a
  · exact Nat.zero_le _
  · rw [Nat.le_log2 (by omega)]
    exact (log2_self_le ha.ne').trans h

lemma sum_take_modify (bins : List Nat) {i : Nat} (hi : i < bins.length) (j : Nat) :
    ((bins.modify i (· + 1)).take j).sum = (bins.take j).sum + if i < j then 1 else 0 := by
  induction bins generalizing i j with
  | nil => simp at hi
  | cons n bins ih =>
    cases j with
    | zero => simp
    | succ j =>
      cases i with
      | zero => simp; omega
      | succ i => simp [ih (lt_of_succ_lt_succ hi) j, add_assoc]

lemma sum_take_ofLatencies (latencies : List Nat) (j : Nat) :
    ((ofLatencies latencies).bins.take j).sum = latencies.countP (binIndex · < j) := by
  suffices h : ∀ hist : LatencyHistogram, hist.bins.length = binCount →
      ((latencies.foldl (fun hist latencyMs => hist.add latencyMs 1) hist).bins.take j).sum =
        (hist.bins.take j).sum + latencies.countP (binIndex · < j) by
    rw [ofLatencies, h new (by simp [new])]
    simp [new, take_replicate]
  induction latencies with
  | nil => simp
  | cons l latencies ih =>
    intro hist hlen
    have hl := binIndex_lt l
    rw [foldl_cons, ih _ (by simp [add, hlen]), add, sum_take_modify _ (hlen ▸ hl), countP_cons]
    simp only [decide_eq_true_eq]
    omega

lemma length_bins (latencies : List Nat) : (ofLatencies latencies).bins.length = binCount := by
  rw [ofLatencies]
  refine List.foldlRecOn (motive := fun hist : LatencyHistogram => hist.bins.length = binCount)
    latencies _ length_replicate fun hist hlen l _ => ?_
  simpa [add] using hlen

lemma total_ofLatencies (latencies : List Nat) :
    (ofLatencies latencies).total = latencies.length := by
  have hall := sum_take_ofLatencies latencies binCount
  rwa [take_of_length_le (length_bins latencies).le,
    countP_eq_length.mpr fun l _ => by simpa using binIndex_lt l] at hall

lemma reach_eq {threshold j : Nat} {bins : List Nat} (hj : j < bins.length) :
    ∀ k cum, k + j < 30 → cum + (bins.take j).sum < threshold →
      threshold ≤ cum + (bins.take (j + 1)).sum → reach threshold k cum bins = 2 ^ (k + j + 1) := by
  induction bins generalizing j with
  | nil => simp at hj
  | cons n bins ih =>
    intro k cum hk hbelow hreached
    cases j with
    | zero =>
      simp only [take_succ_cons, take_zero, sum_cons, sum_nil] at hreached
      rw [reach, if_pos (by omega), min_eq_left (by omega), one_shiftLeft]
    | succ j =>
      simp only [take_succ_cons, sum_cons] at hbelow hreached
      rw [reach, if_neg (by omega), ih (lt_of_succ_lt_succ hj) (k + 1) (cum + n) (by omega)
        (by omega) (by omega)]
      congr 1
      omega

lemma lt_countP_iff {s : List Nat} (hs : s.Pairwise (· ≤ ·)) {p : Nat → Bool}
    (hp : ∀ a b, a ≤ b → p b = true → p a = true) {i v : Nat} (hv : s[i]? = some v) :
    i < s.countP p ↔ p v = true := by
  induction s generalizing i with
  | nil => simp at hv
  | cons a s ih =>
    obtain ⟨ha, hs⟩ := pairwise_cons.mp hs
    cases i with
    | zero =>
      obtain rfl : a = v := by simpa using hv
      rw [countP_cons]
      by_cases hav : p a = true
      · simp [hav]
      · have hnone : s.countP p = 0 := countP_eq_zero.mpr fun b hb hpb =>
          hav (hp a b (ha b hb) hpb)
        simp [hav, hnone]
    | succ i =>
      rw [getElem?_cons_succ] at hv
      have hav := hp a v (ha v (mem_of_getElem? hv))
      rw [← ih hs hv, countP_cons]
      by_cases hpa : p a = true
      · simp [hpa]
      · have hnot : ¬ i < s.countP p := fun h => hpa (hav ((ih hs hv).mp h))
        simp only [hpa, Bool.false_eq_true, if_false]
        omega

lemma percentile_eq {latencies : List Nat} {p : ℚ} (hp : 0 < p) {v : Nat}
    (hv : nthSmallest latencies ⌈latencies.length * p⌉.toNat = some v) :
    (ofLatencies latencies).percentile p = 2 ^ (binIndex v + 1) := by
  obtain ⟨hi, -⟩ := List.getElem?_eq_some_iff.mp hv
  rw [length_insertionSort] at hi
  have hpos : 0 < ⌈latencies.length * p⌉ :=
    Int.ceil_pos.mpr (mul_pos (by exact_mod_cast zero_lt_of_lt hi) hp)
  have hcount : ∀ j, ⌈latencies.length * p⌉.toNat - 1 < latencies.countP (binIndex · < j) ↔
      binIndex v < j := fun j => by
    rw [← (perm_insertionSort (· ≤ ·) latencies).countP_eq, lt_countP_iff
      (pairwise_insertionSort (· ≤ ·) latencies) _ hv, decide_eq_true_eq]
    intro a b hab hb
    rw [decide_eq_true_eq] at hb ⊢
    exact (binIndex_mono hab).trans_lt hb
  have hbelow := hcount (binIndex v)
  have hreached := hcount (binIndex v + 1)
  have hbin := binIndex_lt v
  rw [percentile, total_ofLatencies, if_neg (by omega), reach_eq (j := binIndex v)
    (by rwa [length_bins]) 0 0 (by unfold binCount at hbin; omega), zero_add]
  · rw [sum_take_ofLatencies]
    omega
  · rw [sum_take_ofLatencies]
    omega

lemma lt_two_pow_binIndex_iff (v : Nat) : v < 2 ^ (binIndex v + 1) ↔ v < 2 ^ binCount := by
  constructor
  · intro h
    exact h.trans_le (Nat.pow_le_pow_right (by decide) (binIndex_lt v))
  · intro h
    obtain rfl | hv := eq_or_ne v 0
    · exact Nat.two_pow_pos _
    · rw [← Nat.log2_lt hv, binIndex, Nat.lt_succ_iff]
      exact le_min le_rfl (Nat.le_of_lt_succ ((Nat.log2_lt hv).mpr h))

lemma two_pow_binIndex_le (v : Nat) : 2 ^ (binIndex v + 1) ≤ 2 * max v 1 := by
  rw [pow_succ']
  refine mul_le_mul_left 2 ?_
  obtain rfl | hv := eq_or_ne v 0
  · exact le_max_right 0 1
  · calc 2 ^ binIndex v ≤ 2 ^ v.log2 := Nat.pow_le_pow_right (by decide) (min_le_left _ _)
      _ ≤ v := Nat.log2_self_le hv
      _ ≤ max v 1 := le_max_left v 1

/-- `percentile` estimates the latency of its rank: from above for latencies below the last end of
a bin, and never by more than the factor two. -/
theorem percentile_estimates (latencies : List Nat) (hne : latencies ≠ []) (p : ℚ) (hp : 0 < p)
    (hp1 : p ≤ 1) :
    ∃ v, nthSmallest latencies ⌈latencies.length * p⌉.toNat = some v ∧
      (v < (ofLatencies latencies).percentile p ↔ v < 2 ^ binCount) ∧
      (ofLatencies latencies).percentile p ≤ 2 * max v 1 ∧
      ∀ q, p ≤ q → q ≤ 1 →
        (ofLatencies latencies).percentile p ≤ (ofLatencies latencies).percentile q := by
  have hrank : ∀ q : ℚ, 0 < q → q ≤ 1 →
      ∃ v, nthSmallest latencies ⌈latencies.length * q⌉.toNat = some v := by
    intro q _ hq1
    have hpos := length_pos_iff.mpr hne
    have hle : ⌈latencies.length * q⌉ ≤ latencies.length :=
      Int.ceil_le.mpr (mul_le_of_le_one_right (Nat.cast_nonneg _) hq1)
    exact ⟨_, getElem?_eq_getElem (by rw [length_insertionSort]; omega)⟩
  obtain ⟨v, hv⟩ := hrank p hp hp1
  refine ⟨v, hv, ?_⟩
  rw [percentile_eq hp hv]
  refine ⟨lt_two_pow_binIndex_iff v, two_pow_binIndex_le v, fun q hpq hq1 => ?_⟩
  obtain ⟨w, hw⟩ := hrank q (hp.trans_le hpq) hq1
  rw [percentile_eq (hp.trans_le hpq) hw]
  refine Nat.pow_le_pow_right (by decide) (Nat.succ_le_succ (binIndex_mono ?_))
  have hranks : ⌈latencies.length * p⌉.toNat ≤ ⌈latencies.length * q⌉.toNat :=
    Int.toNat_le_toNat (Int.ceil_mono (mul_le_mul_of_nonneg_left hpq (Nat.cast_nonneg _)))
  obtain ⟨hi, rfl⟩ := List.getElem?_eq_some_iff.mp hv
  obtain ⟨hj, rfl⟩ := List.getElem?_eq_some_iff.mp hw
  exact (pairwise_insertionSort (· ≤ ·) latencies).rel_get_of_le
    (Nat.sub_le_sub_right hranks 1)

theorem percentile_estimates_half :
    ∃ v, nthSmallest [3, 5] ⌈(([3, 5] : List Nat).length : ℚ) * (1 / 2)⌉.toNat = some v ∧
      (v < (ofLatencies [3, 5]).percentile (1 / 2) ↔ v < 2 ^ binCount) := by
  obtain ⟨v, hv, hiff, -⟩ :=
    percentile_estimates [3, 5] (by simp) (1 / 2) (by norm_num) (by norm_num)
  exact ⟨v, hv, hiff⟩

/-- A latency of 2^26 ms is not below its own estimate. -/
theorem percentile_of_clamped_latency :
    nthSmallest [67108864] ⌈(([67108864] : List Nat).length : ℚ) * 1⌉.toNat = some 67108864 ∧
      (ofLatencies [67108864]).percentile 1 = 67108864 := by
  decide +kernel

end LatencyHistogram

end Conrogate
