import Conrogate.Traffic.TokenRate

/-!
# Buckets that expire

The script gives every key a time to live, one rule for a call that is granted and one for a call
that is refused. By the time a key expires its bucket would be full, so that a bucket which never
expires decides the same.
-/

namespace Conrogate

open List LimiterState

/-- A bucket that never expires. -/
structure IdealBucket where
  tokens : ℚ
  last : ℚ

open IdealBucket

def IdealBucket.tokensAt (limit : Nat) (now : ℚ) : Option IdealBucket → ℚ
  | none   => limit
  | some b => min (b.tokens + (now - b.last) * limit) limit

def idealAcquire (limit : Nat) (now : ℚ) (b : Option IdealBucket) : IdealBucket × Bool :=
  let tokens := tokensAt limit now b
  if tokens < 1 then (⟨tokens, now⟩, false) else (⟨tokens - 1, now⟩, true)

def idealCall (t : String → Option IdealBucket) (c : AcquireCall) :
    (String → Option IdealBucket) × Bool :=
  let r := idealAcquire c.limit (c.env.clock true) (t c.key)
  match c.env.redis with
  | .unavailable => (t, true)
  | .answerLost  => (Function.update t c.key (some r.1), true)
  | .answered    => (Function.update t c.key (some r.1), r.2)

def idealDecisions : (String → Option IdealBucket) → List AcquireCall → List Bool
  | _, [] => []
  | t, c :: cs => (idealCall t c).2 :: idealDecisions (idealCall t c).1 cs

variable {limit : String → Nat} {s : LimiterState} {t : String → Option IdealBucket} {now : ℚ}
  {c : AcquireCall} {cs : List AcquireCall} {key : String} {b : IdealBucket}

def StandsFor (limit : Nat) (key : String) (now : ℚ) (s : LimiterState) :
    Option IdealBucket → Prop
  | none   => s.redis ("rl:" ++ key) = none
  | some b => Holds true key limit s b.tokens b.last ∧ 0 ≤ b.tokens ∧ b.last ≤ now

def Simulates (limit : String → Nat) (now : ℚ) (s : LimiterState)
    (t : String → Option IdealBucket) : Prop :=
  ∀ key, StandsFor (limit key) key now s (t key)

section

variable {limit : Nat} {o : Option IdealBucket} (h : StandsFor limit key now s o)
include h

lemma StandsFor.congr {s' : LimiterState} {now' : ℚ} (hsame : SameKey true key s s')
    (hnow : now ≤ now') :
    StandsFor limit key now' s' o := by
  cases o with
  | none => exact (show s.redis _ = s'.redis _ from hsame).symm.trans h
  | some b => exact ⟨h.1.congr hsame, h.2.1, h.2.2.trans hnow⟩

lemma StandsFor.available_eq {env : AcquireEnv} (hnow : now ≤ env.clock true) :
    available true key limit 1 env s = tokensAt limit (env.clock true) o := by
  cases o with
  | none =>
    have hnone : s.redis ("rl:" ++ key) = none := h
    simp [available, scriptTokens, hnone, RedisBucket.alive, tokensAt]
  | some b => exact h.1.available_eq (h.2.2.trans hnow)

lemma StandsFor.tokensAt_nonneg {now' : ℚ} (hnow : now ≤ now') :
    0 ≤ tokensAt limit now' o := by
  cases o with
  | none => exact Nat.cast_nonneg limit
  | some b =>
    have hflow := mul_nonneg (sub_nonneg.mpr (h.2.2.trans hnow)) (Nat.cast_nonneg (α := ℚ) limit)
    exact le_min (add_nonneg h.2.1 hflow) (Nat.cast_nonneg limit)

end

lemma StandsFor.scripted {o : Option IdealBucket}
    (h : StandsFor c.limit c.key now s o) (hlimit : 1 ≤ c.limit) (hwindow : c.window = 1)
    (hnow : now ≤ c.env.clock true) :
    (s.script c).2 = (idealAcquire c.limit (c.env.clock true) o).2 ∧
      StandsFor c.limit c.key (c.env.clock true) (s.scripted c)
        (some (idealAcquire c.limit (c.env.clock true) o).1) := by
  let env : AcquireEnv := { c.env with redis := .answered }
  have hclock : env.clock true = c.env.clock true := rfl
  have havailable : available true c.key c.limit 1 env s =
      tokensAt c.limit (env.clock true) o := h.available_eq hnow
  have hnonneg : 0 ≤ tokensAt c.limit (env.clock true) o := h.tokensAt_nonneg hnow
  have hcall : (acquire true c.key c.limit 1 env).run s =
      if (s.script c).2 then .ok ⟨⟩ (s.scripted c) else .error .rateLimited (s.scripted c) := by
    rw [← hwindow]
    rfl
  have hcharged := charged_in_redis hlimit (rfl : env.redis = .answered) (havailable ▸ hnonneg)
  rw [Charged, havailable, hcall, hclock] at hcharged
  rw [hclock] at hnonneg
  rw [idealAcquire]
  obtain ⟨hone, u, hu, hholds⟩ | ⟨hlow, u, hu, hholds⟩ := hcharged
  · split_ifs at hu with hgranted
    obtain rfl : s.scripted c = u := by cases hu; rfl
    rw [if_neg (not_lt.mpr hone)]
    exact ⟨hgranted, hholds, sub_nonneg.mpr hone, le_rfl⟩
  · split_ifs at hu with hgranted
    obtain rfl : s.scripted c = u := by cases hu; rfl
    rw [if_pos hlow]
    exact ⟨by simpa using hgranted, hholds, hnonneg, le_rfl⟩

lemma Simulates.call (h : Simulates limit now s t)
    (hc : c.limit = limit c.key ∧ 1 ≤ c.limit ∧ c.window = 1) (hnow : now ≤ c.env.clock true) :
    (s.call true c).2 = (idealCall t c).2 ∧
      Simulates limit (c.env.clock true) (s.call true c).1 (idealCall t c).1 := by
  obtain ⟨hlimit, hone, hwindow⟩ := hc
  have hkey := h c.key
  rw [← hlimit] at hkey
  obtain ⟨hdecision, hstands⟩ := hkey.scripted hone hwindow hnow
  have hothers : ∀ key, key ≠ c.key →
      StandsFor (limit key) key (c.env.clock true) (s.call true c).1 (t key) := fun key hne =>
    (h key).congr (call_sameKey hne) hnow
  have hscripted : (s.call true c).1 = s.scripted c → Simulates limit (c.env.clock true)
      (s.call true c).1 (Function.update t c.key
        (some (idealAcquire c.limit (c.env.clock true) (t c.key)).1)) := by
    intro hcall key
    by_cases hkey : key = c.key
    · subst hkey
      rw [Function.update_self, hcall, ← hlimit]
      exact hstands
    · rw [Function.update_of_ne hkey]
      exact hothers key hkey
  have hcall := call_in_redis (s := s) (c := c)
  cases hredis : c.env.redis with
  | unavailable =>
    simp only [hredis] at hcall
    simp only [idealCall, hredis, hcall, true_and]
    exact fun key => (h key).congr (Eq.refl _) hnow
  | answerLost =>
    simp only [hredis] at hcall
    simp only [idealCall, hredis]
    exact ⟨congrArg Prod.snd hcall, hscripted (congrArg Prod.fst hcall)⟩
  | answered =>
    simp only [hredis] at hcall
    simp only [idealCall, hredis]
    exact ⟨(congrArg Prod.snd hcall).trans hdecision, hscripted (congrArg Prod.fst hcall)⟩

lemma Simulates.decisions_eq (h : Simulates limit now s t)
    (hcs : ∀ c ∈ cs, c.limit = limit c.key ∧ 1 ≤ c.limit ∧ c.window = 1)
    (hclock : (cs.map fun c => c.env.clock true).Pairwise (· ≤ ·))
    (hnow : ∀ c ∈ cs, now ≤ c.env.clock true) :
    s.decisions true cs = idealDecisions t cs := by
  induction cs generalizing s t now with
  | nil => rfl
  | cons c cs ih =>
    rw [forall_mem_cons] at hcs hnow
    rw [map_cons, pairwise_cons] at hclock
    obtain ⟨hdecision, hnext⟩ := h.call hcs.1 hnow.1
    rw [decisions, idealDecisions, hdecision, ih hnext hcs.2 hclock.2]
    exact fun d hd => hclock.1 _ (mem_map_of_mem hd)

/-- The lifetimes that the script sets cannot be seen: the limiter decides as one whose buckets
never expire, on any keys, each with its limit. -/
theorem script_expiry_unobservable (limit : String → Nat) (cs : List AcquireCall)
    (hcs : ∀ c ∈ cs, c.limit = limit c.key ∧ 1 ≤ c.limit ∧ c.window = 1)
    (hclock : (cs.map fun c => c.env.serverNow).Pairwise (· ≤ ·)) :
    LimiterState.empty.decisions true cs = idealDecisions (fun _ => none) cs := by
  have hseconds : (cs.map fun c => c.env.clock true).Pairwise (· ≤ ·) := by
    have hscale : (cs.map fun c => c.env.clock true) =
        (cs.map fun c => c.env.serverNow).map (· / 1000) := by
      rw [map_map]
      rfl
    rw [hscale]
    exact hclock.map _ fun a b hab => div_le_div_of_nonneg_right hab (by norm_num)
  cases cs with
  | nil => rfl
  | cons c cs =>
    have hempty : Simulates limit (c.env.clock true) .empty fun _ => none := fun key => rfl
    refine hempty.decisions_eq hcs hseconds ?_
    rw [map_cons, pairwise_cons] at hseconds
    rw [forall_mem_cons]
    exact ⟨le_rfl, fun d hd => hseconds.1 _ (mem_map_of_mem hd)⟩

theorem script_expiry_unobservable_one_key :
    let cs : List AcquireCall := [0, 0, 1000].map fun now => ⟨"k", 1, 1, ⟨0, now, .answered⟩⟩
    LimiterState.empty.decisions true cs = idealDecisions (fun _ => none) cs := by
  intro cs
  refine script_expiry_unobservable (fun _ => 1) cs ?_ (by decide +kernel)
  simp [cs]

end Conrogate
