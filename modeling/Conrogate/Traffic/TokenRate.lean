import Conrogate.Lib.Meter
import Conrogate.Traffic.Limiter

/-!
# The limiter as a token bucket

With a window of one second, what the limiter keeps under a key, in the process or in Redis, is a
bucket of `limit` tokens that fills at `limit` tokens a second. This holds as long as no call is a
free pass.
-/

namespace Conrogate

open AcquireEnv Meter Function RedisBucket

def AcquireEnv.clock (cluster : Bool) (env : AcquireEnv) : ℚ :=
  if cluster then env.serverNow / 1000 else env.now

def Holds (cluster : Bool) (key : String) (limit : Nat) (s : LimiterState) (tokens last : ℚ) :
    Prop :=
  if cluster then match s.redis ("rl:" ++ key) with
    | none   => tokens = limit
    | some b => tokens = b.tokens ∧ last * 1000 = b.last ∧
        limit ≤ b.tokens + (b.expiresAt - b.last) * (limit / 1000)
  else match s.buckets key with
    | none   => tokens = limit
    | some b => tokens = b.tokens ∧ last = b.lastRefill ∧ b.capacity = limit ∧ b.refillRate = limit

variable {cluster : Bool} {key : String} {limit : Nat} {env : AcquireEnv} {s t : LimiterState}
  {tokens last : ℚ}

instance decidableFreePass : ∀ cluster, Decidable (FreePass cluster key env s)
  | true => inferInstanceAs (Decidable (env.redis ≠ .answered))
  | false => match hb : s.buckets key with
    | none   => isFalse fun h => by simp [FreePass, hb] at h
    | some b => decidable_of_iff (b.capacity ≤ (b.refill env.now).tokens) (by simp [FreePass, hb])

lemma refillPerMs_one (limit : Nat) : refillPerMs limit 1 = limit / 1000 := by
  norm_num [refillPerMs]

lemma Holds.congr (h : Holds cluster key limit s tokens last) (hsame : SameKey cluster key s t) :
    Holds cluster key limit t tokens last := by
  cases cluster with
  | true =>
    simp only [SameKey, if_true] at hsame
    simpa only [Holds, if_true, hsame] using h
  | false =>
    simp only [SameKey, Bool.false_eq_true, if_false] at hsame
    simpa only [Holds, Bool.false_eq_true, if_false, hsame] using h

lemma refill_full {elapsed : ℚ} (helapsed : 0 ≤ elapsed) :
    refill (limit : ℚ) limit limit elapsed = limit := by
  have hflow : 0 ≤ elapsed * limit := mul_nonneg helapsed (Nat.cast_nonneg limit)
  rw [refill, min_eq_right (by linarith)]

lemma Holds.available_eq (h : Holds cluster key limit s tokens last)
    (hclock : last ≤ env.clock cluster) :
    available cluster key limit 1 env s =
      refill (limit : ℚ) limit tokens (env.clock cluster - last) := by
  have helapsed := sub_nonneg.mpr hclock
  cases cluster with
  | true =>
    simp only [Holds, if_true] at h
    simp only [available, if_true, scriptTokens, refillPerMs_one]
    cases hb : s.redis ("rl:" ++ key) with
    | none =>
      rw [hb] at h
      simp only [alive, Option.filter_none]
      rw [show tokens = limit from h, refill_full helapsed]
    | some b =>
      rw [hb] at h
      obtain ⟨rfl, hlast, hfull⟩ := h
      have hflow : (env.serverNow - b.last) * ((limit : ℚ) / 1000) =
          (env.clock true - last) * limit := by
        rw [← hlast, clock, if_pos rfl]
        ring
      by_cases halive : env.serverNow < b.expiresAt
      · simp only [alive, Option.filter, halive, decide_true, if_true]
        rw [refill, hflow]
      · -- the key is gone, and the bucket would be full by now
        simp only [alive, Option.filter, halive, decide_false, Bool.false_eq_true, if_false]
        have hlater : (b.expiresAt - b.last) * ((limit : ℚ) / 1000) ≤
            (env.serverNow - b.last) * ((limit : ℚ) / 1000) :=
          mul_le_mul_of_nonneg_right (by linarith) (by positivity)
        rw [refill, min_eq_right (by linarith)]
  | false =>
    simp only [Holds, Bool.false_eq_true, if_false] at h
    simp only [available, Bool.false_eq_true, if_false]
    cases hb : s.buckets key with
    | none =>
      rw [hb] at h
      rw [show tokens = limit from h, refill_full helapsed]
    | some b =>
      rw [hb] at h
      obtain ⟨rfl, rfl, hcapacity, hrate⟩ := h
      simp only [clock, Bool.false_eq_true, if_false] at helapsed ⊢
      rw [TokenBucket.refill, durationSince, hcapacity, hrate, max_eq_right helapsed, refill]

lemma acquire_granted (h : FreePass cluster key env s ∨ 1 ≤ available cluster key limit 1 env s) :
    ∃ t, (acquire cluster key limit 1 env).run s = .ok ⟨⟩ t := by
  obtain ⟨u, hu, -⟩ | ⟨u, -, hfree, hlow, -⟩ := acquire_cases cluster key limit 1 env s
  · exact ⟨u, hu⟩
  · exact absurd (h.resolve_left hfree) (not_le.mpr hlow)

def Charged (cluster : Bool) (key : String) (limit : Nat) (env : AcquireEnv) (s : LimiterState) :
    Prop :=
  (1 ≤ available cluster key limit 1 env s ∧
    ∃ t, (acquire cluster key limit 1 env).run s = .ok ⟨⟩ t ∧
      Holds cluster key limit t (available cluster key limit 1 env s - 1) (env.clock cluster)) ∨
  (available cluster key limit 1 env s < 1 ∧
    ∃ t, (acquire cluster key limit 1 env).run s = .error .rateLimited t ∧
      Holds cluster key limit t (available cluster key limit 1 env s) (env.clock cluster))

lemma charged_in_process (hlimit : 0 < limit) (h : Holds false key limit s tokens last)
    (hfree : ¬ FreePass false key env s) : Charged false key limit env s := by
  simp only [Charged, acquire, EStateM.run, available, Holds, clock, Bool.false_eq_true, if_false]
  simp only [Holds, Bool.false_eq_true, if_false] at h
  cases hb : s.buckets key with
  | none =>
    have hone : (1 : ℚ) ≤ limit := by exact_mod_cast hlimit
    have hrate : (limit : ℚ) / max 1 1000⁻¹ = limit := by norm_num
    exact .inl (by simp [acquireLocal, hlimit.ne', hone, hrate])
  | some b =>
    rw [hb] at h
    obtain ⟨-, -, hcapacity, hrate⟩ := h
    have hroom : ¬ (b.refill env.now).capacity ≤ (b.refill env.now).tokens :=
      fun hfull => hfree ⟨b, hb, hfull⟩
    by_cases htoken : (b.refill env.now).tokens < 1
    · have hcall : acquireLocal limit 1 env.now (some b) = (some (b.refill env.now), false) := by
        simp only [acquireLocal, hroom, htoken, if_true, if_false]
      rw [hcall]
      refine .inr ⟨htoken, _, rfl, ?_⟩
      simp only [update_self, true_and]
      exact ⟨rfl, hcapacity, hrate⟩
    · have hcall : acquireLocal limit 1 env.now (some b) =
          (some { b.refill env.now with tokens := (b.refill env.now).tokens - 1 }, true) := by
        simp only [acquireLocal, hroom, htoken, if_false]
      rw [hcall]
      refine .inl ⟨not_lt.mp htoken, _, rfl, ?_⟩
      simp only [update_self, true_and]
      exact ⟨rfl, hcapacity, hrate⟩

lemma charged_in_redis (hlimit : 0 < limit) (hanswered : env.redis = .answered)
    (hnonneg : 0 ≤ available true key limit 1 env s) : Charged true key limit env s := by
  have hrate : (0 : ℚ) < limit / 1000 := by positivity
  simp only [Charged, acquire, EStateM.run, available, Holds, clock, if_true,
    hanswered, runScript, refillPerMs_one] at hnonneg ⊢
  generalize scriptTokens limit (limit / 1000) env.serverNow (s.redis ("rl:" ++ key)) = now
    at hnonneg ⊢
  by_cases htoken : now < 1
  · simp only [htoken, if_true]
    refine .inr ⟨trivial, _, rfl, ?_⟩
    simp only [update_self, true_and]
    refine ⟨by ring, ?_⟩
    linarith
  · simp only [htoken, if_false]
    refine .inl ⟨not_lt.mp htoken, _, rfl, ?_⟩
    simp only [update_self, true_and]
    refine ⟨by ring, ?_⟩
    -- the lifetime is rounded up
    have hceil := Int.le_ceil (((limit : ℚ) - (now - 1)) / (limit / 1000))
    rw [div_le_iff₀ hrate] at hceil
    linarith

lemma Holds.charged (h : Holds cluster key limit s tokens last) (hlimit : 0 < limit)
    (hfree : ¬ FreePass cluster key env s) (hnonneg : 0 ≤ available cluster key limit 1 env s) :
    Charged cluster key limit env s := by
  cases cluster with
  | true => exact charged_in_redis hlimit (not_not.mp hfree) hnonneg
  | false => exact charged_in_process hlimit h hfree

end Conrogate
