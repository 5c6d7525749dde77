import Conrogate.Core.Error
import Conrogate.Lib.Proc
import Mathlib.Data.Rat.Floor
import Mathlib.Tactic.Positivity

/-!
# The token-bucket limiter

`TokenBucketLimiter` keeps its buckets in the process or, in cluster mode, in Redis, where a Lua
script does the arithmetic. Times and token counts, floating-point numbers in the source, are
exact here.
-/

namespace Conrogate

open Function EStateM

structure TokenBucket where
  tokens : ℚ
  capacity : ℚ
  refillRate : ℚ
  lastRefill : ℚ

open TokenBucket

structure RedisBucket where
  tokens : ℚ
  last : ℚ
  expiresAt : ℚ

/-- The buckets of this process and those in Redis. -/
structure LimiterState where
  buckets : String → Option TokenBucket
  redis : String → Option RedisBucket

inductive RedisOutcome where
  | answered
  | answerLost
  | unavailable
deriving DecidableEq, Repr

structure AcquireEnv where
  now : ℚ
  serverNow : ℚ
  redis : RedisOutcome

/-! ### In the process -/

def durationSince (now earlier : ℚ) : ℚ := max 0 (now - earlier)

def TokenBucket.refill (b : TokenBucket) (now : ℚ) : TokenBucket :=
  { b with
    tokens := min (b.tokens + durationSince now b.lastRefill * b.refillRate) b.capacity
    lastRefill := now }

def acquireLocal (limit : Nat) (window now : ℚ) : Option TokenBucket → Option TokenBucket × Bool
  | some b =>
    let b := b.refill now
    -- a bucket that is full again is as good as none
    if b.capacity ≤ b.tokens then (none, true)
    else if b.tokens < 1 then (some b, false)
    else (some { b with tokens := b.tokens - 1 }, true)
  | none =>
    if limit = 0 then (none, false)
    else (some { tokens := limit - 1
                 capacity := limit
                 refillRate := limit / max window (1 / 1000)
                 lastRefill := now }, true)

/-! ### In Redis -/

def RedisBucket.alive (now : ℚ) (b : Option RedisBucket) : Option RedisBucket :=
  b.filter fun b => now < b.expiresAt

def scriptTokens (capacity refillPerMs now : ℚ) (b : Option RedisBucket) : ℚ :=
  match RedisBucket.alive now b with
  | none   => capacity
  | some b => min (b.tokens + (now - b.last) * refillPerMs) capacity

def runScript (capacity refillPerMs now : ℚ) (b : Option RedisBucket) : RedisBucket × Bool :=
  let tokens := scriptTokens capacity refillPerMs now b
  if tokens < 1 then (⟨tokens, now, now + 1000⟩, false)
  else
    let tokens := tokens - 1
    (⟨tokens, now, now + ⌈(capacity - tokens) / refillPerMs⌉⟩, true)

def refillPerMs (limit : Nat) (window : ℚ) : ℚ := limit / (max ⌊window * 1000⌋ 1 : ℤ)

/-! ### The limiter -/

def acquire (cluster : Bool) (key : String) (limit : Nat) (window : ℚ) (env : AcquireEnv) :
    EStateM ConrogateError LimiterState PUnit := fun s =>
  if cluster then
    let redisKey := "rl:" ++ key
    let r := runScript limit (refillPerMs limit window) env.serverNow (s.redis redisKey)
    let s' := { s with redis := Function.update s.redis redisKey (some r.1) }
    match env.redis with
    | .unavailable => .ok ⟨⟩ s
    | .answerLost  => .ok ⟨⟩ s'
    | .answered    => if r.2 then .ok ⟨⟩ s' else .error .rateLimited s'
  else
    let r := acquireLocal limit window env.now (s.buckets key)
    let s' := { s with buckets := Function.update s.buckets key r.1 }
    if r.2 then .ok ⟨⟩ s' else .error .rateLimited s'

/-! ### The tokens of a key -/

def available (cluster : Bool) (key : String) (limit : Nat) (window : ℚ) (env : AcquireEnv)
    (s : LimiterState) : ℚ :=
  if cluster then
    scriptTokens limit (refillPerMs limit window) env.serverNow (s.redis ("rl:" ++ key))
  else match s.buckets key with
    | none   => limit
    | some b => (b.refill env.now).tokens

def SameKey (cluster : Bool) (key : String) (s t : LimiterState) : Prop :=
  if cluster then s.redis ("rl:" ++ key) = t.redis ("rl:" ++ key)
  else s.buckets key = t.buckets key

variable {cluster : Bool} {key : String} {s t : LimiterState}

lemma SameKey.trans {u : LimiterState} (h₁ : SameKey cluster key s t) (h₂ : SameKey cluster key t u)
    : SameKey cluster key s u := by
  cases cluster
  · exact Eq.trans h₁ h₂
  · exact Eq.trans h₁ h₂

lemma SameKey.available_eq (h : SameKey cluster key s t) (limit : Nat) (window : ℚ)
    (env : AcquireEnv) :
    available cluster key limit window env s = available cluster key limit window env t := by
  cases cluster
  · simp only [SameKey, Bool.false_eq_true, if_false] at h
    simp [available, h]
  · simp only [SameKey, if_true] at h
    simp [available, h]

lemma acquire_sameKey {other : String} {limit : Nat} {window : ℚ} {env : AcquireEnv}
    (h : other ≠ key) :
    (∀ t, (acquire cluster key limit window env).run s = .ok ⟨⟩ t →
      SameKey cluster other s t) ∧
    ∀ e t, (acquire cluster key limit window env).run s = .error e t →
      SameKey cluster other s t := by
  have hne : "rl:" ++ other ≠ "rl:" ++ key := by
    intro heq
    apply h
    have := congrArg String.toList heq
    simpa [String.toList_append, String.toList_inj] using this
  cases cluster with
  | false =>
    simp only [acquire, run, Bool.false_eq_true, if_false, SameKey]
    split_ifs <;> simp [update_of_ne h]
  | true =>
    simp only [acquire, run, if_true, SameKey]
    cases env.redis with
    | unavailable => simp
    | answerLost => simp [update_of_ne hne]
    | answered => split_ifs <;> simp [update_of_ne hne]

/-! ### What a call costs -/

lemma TokenBucket.refill_refill (b : TokenBucket) (now : ℚ) :
    (b.refill now).refill now = b.refill now := by
  simp [refill, durationSince]

lemma scriptTokens_le (capacity rate now : ℚ) (b : Option RedisBucket) :
    scriptTokens capacity rate now b ≤ capacity := by
  rw [scriptTokens]
  split
  · exact le_rfl
  · exact min_le_right _ _

lemma scriptTokens_self {capacity rate now tokens expiresAt : ℚ} (halive : now < expiresAt)
    (hle : tokens ≤ capacity) :
    scriptTokens capacity rate now (some ⟨tokens, now, expiresAt⟩) = tokens := by
  simp [scriptTokens, RedisBucket.alive, Option.filter, halive, hle]

lemma refillPerMs_pos {limit : Nat} (h : 0 < limit) (window : ℚ) :
    0 < refillPerMs limit window := by
  rw [refillPerMs]
  have hlimit : (0 : ℚ) < limit := by exact_mod_cast h
  have hwindow : (0 : ℚ) < (max ⌊window * 1000⌋ 1 : ℤ) := by
    exact_mod_cast lt_max_of_lt_right one_pos
  positivity

lemma scriptTokens_runScript (limit : Nat) (window now : ℚ) (b : Option RedisBucket) :
    scriptTokens limit (refillPerMs limit window) now
        (some (runScript limit (refillPerMs limit window) now b).1) =
      scriptTokens limit (refillPerMs limit window) now b -
        if (runScript limit (refillPerMs limit window) now b).2 then 1 else 0 := by
  have hle := scriptTokens_le limit (refillPerMs limit window) now b
  by_cases hlow : scriptTokens limit (refillPerMs limit window) now b < 1
  · simp only [runScript, hlow, if_true, Bool.false_eq_true, if_false, sub_zero]
    exact scriptTokens_self (by linarith) hle
  · simp only [runScript, hlow, if_true, if_false]
    -- a granted token leaves room in the bucket, so the key gets a positive lifetime
    have hlimit : (0 : ℚ) < limit := by linarith
    have hrate := refillPerMs_pos (Nat.cast_pos.mp hlimit) window
    have hlife : (0 : ℚ) < ⌈((limit : ℚ) -
        (scriptTokens limit (refillPerMs limit window) now b - 1)) / refillPerMs limit window⌉ := by
      have : 0 < ((limit : ℚ) - (scriptTokens limit (refillPerMs limit window) now b - 1)) /
          refillPerMs limit window := by
        apply div_pos _ hrate
        linarith
      exact_mod_cast Int.ceil_pos.mpr this
    exact scriptTokens_self (by linarith) (by linarith)

def FreePass (cluster : Bool) (key : String) (env : AcquireEnv) (s : LimiterState) : Prop :=
  if cluster then env.redis ≠ .answered
  else ∃ b, s.buckets key = some b ∧ b.capacity ≤ (b.refill env.now).tokens

section

variable {cluster : Bool} {key : String} {limit : Nat} {window : ℚ} {env : AcquireEnv}
  {s t : LimiterState}

/-- A call that is granted is free or costs a token; one is refused only when there is none. -/
lemma acquire_cases (cluster : Bool) (key : String) (limit : Nat) (window : ℚ) (env : AcquireEnv)
    (s : LimiterState) :
    (∃ u, (acquire cluster key limit window env).run s = .ok ⟨⟩ u ∧
      (FreePass cluster key env s ∨ available cluster key limit window env u =
        available cluster key limit window env s - 1)) ∨
    ∃ u, (acquire cluster key limit window env).run s = .error .rateLimited u ∧
      ¬ FreePass cluster key env s ∧ available cluster key limit window env s < 1 ∧
      available cluster key limit window env u = available cluster key limit window env s := by
  cases cluster with
  | true =>
    have hscript := scriptTokens_runScript limit window env.serverNow (s.redis ("rl:" ++ key))
    simp only [acquire, run, if_true]
    cases hredis : env.redis with
    | unavailable | answerLost => exact .inl ⟨_, rfl, .inl (by simp [FreePass, hredis])⟩
    | answered =>
      dsimp only
      split_ifs with hgranted
      · simp only [hgranted, if_true] at hscript
        exact .inl ⟨_, rfl, .inr (by simp [available, hscript])⟩
      · have hlow : scriptTokens limit (refillPerMs limit window) env.serverNow
            (s.redis ("rl:" ++ key)) < 1 := by
          by_contra hlow
          exact hgranted (by rw [runScript, if_neg hlow])
        simp only [hgranted] at hscript
        exact .inr ⟨_, rfl, by simp [FreePass, hredis], hlow, by simpa [available] using hscript⟩
  | false =>
    simp only [acquire, run, Bool.false_eq_true, if_false]
    cases hb : s.buckets key with
    | none =>
      by_cases hzero : limit = 0
      · simp only [acquireLocal, hzero, if_true, Bool.false_eq_true, if_false]
        refine .inr ⟨_, rfl, by simp [FreePass, hb], ?_, ?_⟩ <;> simp [available, hb]
      · simp only [acquireLocal, hzero, if_false, if_true]
        exact .inl ⟨_, rfl, .inr (by simp [available, hb, refill, durationSince])⟩
    | some b =>
      simp only [acquireLocal]
      by_cases hfull : (b.refill env.now).capacity ≤ (b.refill env.now).tokens
      · simp only [hfull, if_true]
        exact .inl ⟨_, rfl, .inl ⟨b, hb, hfull⟩⟩
      · by_cases hlow : (b.refill env.now).tokens < 1
        · simp only [hfull, hlow, if_true, if_false, Bool.false_eq_true]
          refine .inr ⟨_, rfl, ?_, by simpa [available, hb] using hlow,
            by simp [available, hb, refill_refill]⟩
          rintro ⟨b', hb', hfull'⟩
          cases hb.symm.trans hb'
          exact hfull hfull'
        · simp only [hfull, hlow, if_false, if_true]
          refine .inl ⟨_, rfl, .inr ?_⟩
          have hcap : (b.refill env.now).tokens ≤ b.capacity := min_le_right _ _
          have hkeep : (b.refill env.now).tokens - 1 ≤ b.capacity := by linarith
          simp only [available, Bool.false_eq_true, if_false, update_self, hb]
          simp only [refill, durationSince, sub_self, max_self, zero_mul, add_zero]
          simp only [refill, durationSince] at hkeep
          exact min_eq_left hkeep

theorem acquire_ok (h : (acquire cluster key limit window env).run s = .ok ⟨⟩ t) :
    FreePass cluster key env s ∨
      available cluster key limit window env t = available cluster key limit window env s - 1 := by
  obtain ⟨u, hu, hcost⟩ | ⟨u, hu, -⟩ := acquire_cases cluster key limit window env s
  · cases hu.symm.trans h
    exact hcost
  · cases hu.symm.trans h

theorem acquire_error {e : ConrogateError}
    (h : (acquire cluster key limit window env).run s = .error e t) :
    e = .rateLimited ∧
      available cluster key limit window env t = available cluster key limit window env s := by
  obtain ⟨u, hu, -⟩ | ⟨u, hu, -, -, hkept⟩ := acquire_cases cluster key limit window env s
  · cases hu.symm.trans h
  · cases hu.symm.trans h
    exact ⟨rfl, hkept⟩

end

/-! ### One call after the other -/

structure AcquireCall where
  key : String
  limit : Nat
  window : ℚ
  env : AcquireEnv

namespace LimiterState

def empty : LimiterState where
  buckets := fun _ => none
  redis := fun _ => none

def call (cluster : Bool) (s : LimiterState) (c : AcquireCall) : LimiterState × Bool :=
  match (acquire cluster c.key c.limit c.window c.env).run s with
  | .ok _ t    => (t, true)
  | .error _ t => (t, false)

def after (cluster : Bool) (s : LimiterState) (cs : List AcquireCall) : LimiterState :=
  cs.foldl (fun s c => (s.call cluster c).1) s

def decisions (cluster : Bool) : LimiterState → List AcquireCall → List Bool
  | _, [] => []
  | s, c :: cs => (s.call cluster c).2 :: decisions cluster (s.call cluster c).1 cs

variable {cluster : Bool} {s : LimiterState} {c : AcquireCall}

lemma call_sameKey (h : key ≠ c.key) :
    SameKey cluster key s (s.call cluster c).1 := by
  rw [call]
  split
  · next hrun => exact (acquire_sameKey h).1 _ hrun
  · next hrun => exact (acquire_sameKey h).2 _ _ hrun

@[simp] lemma after_append_singleton (cs : List AcquireCall) :
    s.after cluster (cs ++ [c]) = ((s.after cluster cs).call cluster c).1 := by
  simp [after]

lemma call_in_process : s.call false c =
    ({ s with
      buckets := update s.buckets c.key
        (acquireLocal c.limit c.window c.env.now (s.buckets c.key)).1 },
      (acquireLocal c.limit c.window c.env.now (s.buckets c.key)).2) := by
  simp only [call, acquire, run, Bool.false_eq_true, if_false]
  cases (acquireLocal c.limit c.window c.env.now (s.buckets c.key)).2 <;> rfl

def script (s : LimiterState) (c : AcquireCall) : RedisBucket × Bool :=
  runScript c.limit (refillPerMs c.limit c.window) c.env.serverNow (s.redis ("rl:" ++ c.key))

def scripted (s : LimiterState) (c : AcquireCall) : LimiterState :=
  { s with redis := Function.update s.redis ("rl:" ++ c.key) (some (s.script c).1) }

lemma call_in_redis : s.call true c = match c.env.redis with
    | .unavailable => (s, true)
    | .answerLost  => (s.scripted c, true)
    | .answered    => (s.scripted c, (s.script c).2) := by
  simp only [call, acquire, run, if_true, scripted, script]
  cases c.env.redis with
  | unavailable | answerLost => rfl
  | answered =>
    cases (runScript c.limit (refillPerMs c.limit c.window) c.env.serverNow
      (s.redis ("rl:" ++ c.key))).2 <;> rfl

end LimiterState

end Conrogate
