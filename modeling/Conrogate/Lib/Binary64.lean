import Mathlib

/-!
# Rounding to double precision

The double nearest to a rational number that is not negative, with the even one of two. Exponents
are unbounded, so that numbers of a size at which doubles overflow or lose bits are out of scope.
-/

namespace Binary64

open Nat

/-! ### To an integer -/

def roundEven (q : ℚ) : ℤ :=
  if Int.fract q < 1 / 2 ∨ (Int.fract q = 1 / 2 ∧ Even ⌊q⌋) then ⌊q⌋ else ⌊q⌋ + 1

lemma floor_le_roundEven (q : ℚ) : ⌊q⌋ ≤ roundEven q := by
  rw [roundEven]
  split
  · exact le_rfl
  · exact (lt_add_one _).le

lemma roundEven_le_floor_add_one (q : ℚ) : roundEven q ≤ ⌊q⌋ + 1 := by
  rw [roundEven]
  split
  · exact (lt_add_one _).le
  · exact le_rfl

@[simp] lemma roundEven_intCast (n : ℤ) : roundEven n = n := by
  simp [roundEven]

lemma roundEven_mono : Monotone roundEven := by
  intro p q hpq
  obtain hlt | heq := (Int.floor_mono hpq).lt_or_eq
  · calc roundEven p ≤ ⌊p⌋ + 1 := roundEven_le_floor_add_one p
      _ ≤ ⌊q⌋ := hlt
      _ ≤ roundEven q := floor_le_roundEven q
  · have hfract : Int.fract p ≤ Int.fract q := by
      rw [Int.fract, Int.fract, heq]
      linarith
    rw [roundEven, roundEven, heq]
    split
    · split
      · exact le_rfl
      · exact (lt_add_one _).le
    · next hp =>
      rw [if_neg]
      rintro (hq | ⟨hq, heven⟩)
      · exact hp (.inl (hfract.trans_lt hq))
      · obtain hlt | heq' := (hq ▸ hfract).lt_or_eq
        · exact hp (.inl hlt)
        · exact hp (.inr ⟨heq', heven⟩)

/-! ### To a double -/

def ulp (q : ℚ) : ℚ := 2 ^ (Int.log 2 q - 52)

def round (q : ℚ) : ℚ := if q ≤ 0 then 0 else roundEven (q / ulp q) * ulp q

def Representable (q : ℚ) : Prop := ∃ (m : ℕ) (k : ℤ), m < 2 ^ 53 ∧ q = m * 2 ^ k

lemma ulp_pos (q : ℚ) : 0 < ulp q := zpow_pos two_pos _

@[simp] lemma round_zero : round 0 = 0 := rfl

lemma round_of_pos {q : ℚ} (h : 0 < q) : round q = roundEven (q / ulp q) * ulp q :=
  if_neg h.not_ge

section

variable {p q : ℚ}

lemma ulp_mul_pow (q : ℚ) (n : ℕ) : ((2 ^ n : ℕ) : ℚ) * ulp q = 2 ^ (Int.log 2 q - 52 + n) := by
  rw [ulp, zpow_add₀ two_ne_zero, zpow_natCast, cast_pow, cast_two, mul_comm]

lemma mem_binade (h : 0 < q) :
    ((2 ^ 52 : ℕ) : ℚ) * ulp q ≤ q ∧ q < ((2 ^ 53 : ℕ) : ℚ) * ulp q := by
  have hlow := Int.zpow_log_le_self one_lt_two h
  have hhigh := Int.lt_zpow_succ_log_self one_lt_two q
  rw [cast_two] at hlow hhigh
  rw [ulp_mul_pow, ulp_mul_pow, cast_ofNat, cast_ofNat, sub_add_cancel]
  refine ⟨hlow, ?_⟩
  rwa [show Int.log 2 q - 52 + 53 = Int.log 2 q + 1 by omega]

lemma le_round (h : 0 < q) : ((2 ^ 52 : ℕ) : ℚ) * ulp q ≤ round q := by
  have hquot : ((2 ^ 52 : ℤ) : ℚ) ≤ q / ulp q := by
    rw [le_div_iff₀ (ulp_pos q)]
    exact_mod_cast (mem_binade h).1
  have hround := roundEven_mono hquot
  rw [roundEven_intCast] at hround
  rw [round_of_pos h]
  refine mul_le_mul_of_nonneg_right ?_ (ulp_pos q).le
  exact_mod_cast hround

lemma round_le (h : 0 < q) : round q ≤ ((2 ^ 53 : ℕ) : ℚ) * ulp q := by
  have hquot : q / ulp q ≤ ((2 ^ 53 : ℤ) : ℚ) := by
    rw [div_le_iff₀ (ulp_pos q)]
    exact_mod_cast (mem_binade h).2.le
  have hround := roundEven_mono hquot
  rw [roundEven_intCast] at hround
  rw [round_of_pos h]
  refine mul_le_mul_of_nonneg_right ?_ (ulp_pos q).le
  exact_mod_cast hround

lemma round_nonneg (q : ℚ) : 0 ≤ round q := by
  obtain h | h := le_or_gt q 0
  · rw [round, if_pos h]
  · refine le_trans ?_ (le_round h)
    exact mul_nonneg (cast_nonneg _) (ulp_pos q).le

lemma round_mono : Monotone round := by
  intro p q hpq
  obtain hp | hp := le_or_gt p 0
  · rw [round, if_pos hp]
    exact round_nonneg q
  have hq : 0 < q := hp.trans_le hpq
  obtain hlt | heq := (Int.log_mono_right (b := 2) hp hpq).lt_or_eq
  · -- the numbers of a binade are rounded to its end at most
    calc round p ≤ ((2 ^ 53 : ℕ) : ℚ) * ulp p := round_le hp
      _ ≤ ((2 ^ 52 : ℕ) : ℚ) * ulp q := by
        rw [ulp_mul_pow, ulp_mul_pow]
        refine zpow_le_zpow_right₀ one_le_two ?_
        push_cast
        omega
      _ ≤ round q := le_round hq
  · have hulp : ulp p = ulp q := by rw [ulp, ulp, heq]
    rw [round_of_pos hp, round_of_pos hq, hulp]
    have hquot : p / ulp q ≤ q / ulp q := div_le_div_of_nonneg_right hpq (ulp_pos q).le
    have hround := roundEven_mono hquot
    refine mul_le_mul_of_nonneg_right ?_ (ulp_pos q).le
    exact_mod_cast hround

lemma round_eq_self_of_dvd (h : 0 < q) {n : ℤ} (hn : q = n * ulp q) : round q = q := by
  have hquot : q / ulp q = n := by
    rw [div_eq_iff (ulp_pos q).ne']
    exact hn
  rw [round_of_pos h, hquot, roundEven_intCast]
  exact hn.symm

lemma round_of_representable (h : Representable q) : round q = q := by
  obtain ⟨m, k, hm, rfl⟩ := h
  obtain rfl | hpos := Nat.eq_zero_or_pos m
  · simp
  have hq : (0 : ℚ) < m * 2 ^ k := mul_pos (Nat.cast_pos.mpr hpos) (zpow_pos two_pos k)
  set q : ℚ := m * 2 ^ k with hdef
  have hlog : Int.log 2 q - 52 ≤ k := by
    have hlt : ((2 : ℕ) : ℚ) ^ Int.log 2 q < (2 : ℕ) ^ (53 + k) := by
      calc ((2 : ℕ) : ℚ) ^ Int.log 2 q ≤ q := Int.zpow_log_le_self one_lt_two hq
        _ < 2 ^ 53 * 2 ^ k := by
          refine mul_lt_mul_of_pos_right ?_ (zpow_pos two_pos k)
          exact_mod_cast hm
        _ = (2 : ℕ) ^ (53 + k) := by
          rw [cast_two, zpow_add₀ two_ne_zero]
          rfl
    have := (zpow_lt_zpow_iff_right₀ (by norm_num)).mp hlt
    omega
  obtain ⟨j, hj⟩ := Int.eq_ofNat_of_zero_le (sub_nonneg.mpr hlog)
  refine round_eq_self_of_dvd hq (n := m * 2 ^ j) ?_
  have hk : k = j + (Int.log 2 q - 52) := by omega
  conv_lhs => rw [hdef, hk, zpow_add₀ two_ne_zero, zpow_natCast, ← mul_assoc]
  rw [ulp]
  push_cast
  rfl

lemma representable_natCast {n : ℕ} (h : n ≤ 2 ^ 53) : Representable n := by
  obtain h | rfl := h.lt_or_eq
  · exact ⟨n, 0, h, by simp⟩
  · exact ⟨1, 53, by norm_num, by norm_num⟩

lemma round_natCast {n : ℕ} (h : n ≤ 2 ^ 53) : round n = n :=
  round_of_representable (representable_natCast h)

lemma representable_round (q : ℚ) : Representable (round q) := by
  obtain h | h := le_or_gt q 0
  · rw [round, if_pos h]
    exact ⟨0, 0, by norm_num, by simp⟩
  have hle := round_le h
  have hnonneg : 0 ≤ roundEven (q / ulp q) := by
    have hround := roundEven_mono (div_nonneg h.le (ulp_pos q).le)
    rwa [← Int.cast_zero, roundEven_intCast] at hround
  obtain ⟨n, hn⟩ := Int.eq_ofNat_of_zero_le hnonneg
  have hround : round q = n * ulp q := by
    rw [round_of_pos h, hn]
    rfl
  rw [hround] at hle ⊢
  have hn' : n ≤ 2 ^ 53 := by exact_mod_cast le_of_mul_le_mul_right hle (ulp_pos q)
  obtain ⟨m, k, hm, hmk⟩ := representable_natCast hn'
  refine ⟨m, k + (Int.log 2 q - 52), hm, ?_⟩
  rw [hmk, ulp, zpow_add₀ two_ne_zero, mul_assoc]

@[simp] lemma round_round (q : ℚ) : round (round q) = round q :=
  round_of_representable (representable_round q)

end

end Binary64
