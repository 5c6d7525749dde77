import Conrogate.Core.Error
import Mathlib.Data.Rat.Floor
import Mathlib.Tactic.Positivity

/-!
# The circuit breaker in cluster mode

Results are counted in Redis by a script that all instances run. `allow` reads the counters at most
every half second in each instance.
-/

namespace Conrogate

/-! ### The script -/

inductive LuaValue where
  | number (n : Int)
  | string (s : String)
deriving DecidableEq, Repr

structure RedisCounter where
  value : Int
  expiresAt : Option ℚ
deriving DecidableEq

open RedisCounter

def RedisCounter.alive (now : ℚ) : Option RedisCounter → Option RedisCounter
  | some ⟨value, some t⟩ => if now < t then some ⟨value, some t⟩ else none
  | c => c

def incrBy (now : ℚ) (increment : Int) (c : Option RedisCounter) : RedisCounter :=
  match alive now c with
  | some c => { c with value := c.value + increment }
  | none   => ⟨increment, none⟩

def RedisCounter.expire (c : RedisCounter) (now : ℚ) (secs : Nat) : RedisCounter :=
  { c with expiresAt := some (now + secs) }

/-- The script of `mirror_to_redis`. Its arguments arrive as strings. -/
def mirrorScript (now : ℚ) (increment : Int) (windowSecs : Nat) (c : Option RedisCounter) :
    RedisCounter :=
  let c := incrBy now increment c
  let current := LuaValue.number c.value
  if current = LuaValue.string (toString increment) then c.expire now windowSecs else c

/-! ### The breaker -/

structure BreakerConfig where
  window : ℚ
  failureRateThreshold : ℚ
  minRequests : Nat

def BreakerConfig.windowSecs (config : BreakerConfig) : Nat := max ⌊config.window⌋₊ 1

structure ClusterSnapshot where
  success : Nat
  failure : Nat
  fetchedAt : ℚ

/-- The counters in Redis and what each instance has cached of them. -/
structure ClusterState where
  succ : Option RedisCounter
  fail : Option RedisCounter
  caches : Nat → Option ClusterSnapshot

def ClusterState.init : ClusterState := ⟨none, none, fun _ => none⟩

def ClusterState.mirror (config : BreakerConfig) (s : ClusterState) (success : Bool) (now : ℚ) :
    ClusterState :=
  if success then { s with succ := some (mirrorScript now 1 config.windowSecs s.succ) }
  else { s with fail := some (mirrorScript now (-1) config.windowSecs s.fail) }

def clusterRefreshInterval : ℚ := 1 / 2

def ClusterState.cached (s : ClusterState) (inst : Nat) (now : ℚ) : Option ClusterSnapshot :=
  (s.caches inst).filter fun c => max 0 (now - c.fetchedAt) < clusterRefreshInterval

/-- `MGET` decoded into `Vec<i64>`: fails unless both counters are there. Negative counters are
clamped. -/
def ClusterState.readCounts (s : ClusterState) (serverNow : ℚ) : Option (Nat × Nat) :=
  match alive serverNow s.succ, alive serverNow s.fail with
  | some a, some b => some ((max a.value 0).toNat, (max b.value 0).toNat)
  | _, _ => none

def ClusterState.clusterCounts (s : ClusterState) (inst : Nat) (now serverNow : ℚ)
    (answers : Bool) : (Nat × Nat) × ClusterState :=
  match s.cached inst now with
  | some c => ((c.success, c.failure), s)
  | none   =>
    match (if answers then s.readCounts serverNow else none) with
    | some (success, failure) => ((success, failure),
      { s with caches := Function.update s.caches inst (some ⟨success, failure, now⟩) })
    | none => ((0, 0), s)

/-- `cluster_rate_exceeded`. Without any result the rate is not a number and exceeds nothing. -/
def clusterRateExceeded (success failure : Nat) (config : BreakerConfig) : Bool :=
  let total := success + failure
  config.minRequests ≤ total && 0 < total &&
    config.failureRateThreshold ≤ (failure : ℚ) / (total : ℚ)

def ClusterState.allow (config : BreakerConfig) (s : ClusterState) (inst : Nat)
    (now serverNow : ℚ) (answers : Bool) : Result Unit × ClusterState :=
  let (counts, s') := s.clusterCounts inst now serverNow answers
  if clusterRateExceeded counts.1 counts.2 config then (.error .circuitBreakerOpen, s')
  else (.ok (), s')

/-! ### Histories -/

inductive BreakerEvent where
  | record (success : Bool) (serverNow : ℚ) (reached : Bool)
  | allow (inst : Nat) (now serverNow : ℚ) (answers : Bool)

def clusterStep (config : BreakerConfig) (s : ClusterState) : BreakerEvent → ClusterState
  | .record success serverNow reached =>
    if reached then s.mirror config success serverNow else s
  | .allow inst now serverNow answers => (s.allow config inst now serverNow answers).2

def clusterRun (config : BreakerConfig) (events : List BreakerEvent) : ClusterState :=
  events.foldl (clusterStep config) ClusterState.init

def recordTimes (success : Bool) (events : List BreakerEvent) : List ℚ :=
  events.filterMap fun
    | .record ok serverNow true => if ok = success then some serverNow else none
    | _ => none

/-! ### Counting windows -/

/-- A window opens with its first result and closes after `secs`. -/
def windowStep (secs : Nat) (open_ : Option (ℚ × Nat)) (t : ℚ) : Option (ℚ × Nat) :=
  match open_ with
  | some (start, n) => if t < start + secs then some (start, n + 1) else some (t, 1)
  | none => some (t, 1)

def windowCount (secs : Nat) (times : List ℚ) (now : ℚ) : Nat :=
  match times.foldl (windowStep secs) none with
  | some (start, n) => if now < start + secs then n else 0
  | none => 0

def ShouldOpen (config : BreakerConfig) (successes failures : Nat) : Prop :=
  config.minRequests ≤ successes + failures ∧ 0 < successes + failures ∧
    config.failureRateThreshold ≤ (failures : ℚ) / ((successes + failures : Nat) : ℚ)

instance (config : BreakerConfig) (successes failures : Nat) :
    Decidable (ShouldOpen config successes failures) :=
  inferInstanceAs (Decidable (_ ∧ _ ∧ _))

/-! ### What the counters hold -/

/-- A counter that has been moved `n` times by `increment` and never expires. -/
def counterOf (increment : Int) (n : Nat) : Option RedisCounter :=
  if n = 0 then none else some ⟨increment * n, none⟩

lemma mirrorScript_counterOf (now : ℚ) (increment : Int) (secs n : Nat) :
    some (mirrorScript now increment secs (counterOf increment n)) =
      counterOf increment (n + 1) := by
  by_cases hn : n = 0
  · subst hn
    simp [mirrorScript, counterOf, incrBy, alive]
  · simp only [mirrorScript, counterOf, hn, incrBy, alive, if_false, reduceCtorEq,
      Nat.add_one_ne_zero, Option.some.injEq, mk.injEq, and_true]
    push_cast
    ring

lemma clusterCounts_counters (s : ClusterState) (inst : Nat) (now serverNow : ℚ)
    (answers : Bool) :
    (s.clusterCounts inst now serverNow answers).2.succ = s.succ ∧
      (s.clusterCounts inst now serverNow answers).2.fail = s.fail := by
  rw [ClusterState.clusterCounts]
  split
  · exact ⟨rfl, rfl⟩
  · split <;> exact ⟨rfl, rfl⟩

lemma allow_counters (config : BreakerConfig) (s : ClusterState) (inst : Nat)
    (now serverNow : ℚ) (answers : Bool) :
    (s.allow config inst now serverNow answers).2.succ = s.succ ∧
      (s.allow config inst now serverNow answers).2.fail = s.fail := by
  have h := clusterCounts_counters s inst now serverNow answers
  rw [ClusterState.allow]
  dsimp only
  split_ifs <;> exact h

lemma recordTimes_append (success : Bool) (events : List BreakerEvent) (e : BreakerEvent) :
    recordTimes success (events ++ [e]) =
      recordTimes success events ++ recordTimes success [e] := by
  simp [recordTimes, List.filterMap_append]

section

variable (config : BreakerConfig) (events : List BreakerEvent)

theorem clusterRun_counters :
    (clusterRun config events).succ = counterOf 1 (recordTimes true events).length ∧
      (clusterRun config events).fail = counterOf (-1) (recordTimes false events).length := by
  induction events using List.reverseRecOn with
  | nil => exact ⟨rfl, rfl⟩
  | append_singleton events e ih =>
    obtain ⟨hsucc, hfail⟩ := ih
    have hrun : clusterRun config (events ++ [e]) =
        clusterStep config (clusterRun config events) e := by
      simp [clusterRun]
    rw [hrun, recordTimes_append, recordTimes_append, List.length_append, List.length_append]
    cases e with
    | allow inst now serverNow answers =>
      obtain ⟨h₁, h₂⟩ := allow_counters config (clusterRun config events) inst now serverNow answers
      exact ⟨h₁.trans hsucc, h₂.trans hfail⟩
    | record success serverNow reached =>
      cases reached with
      | false => exact ⟨hsucc, hfail⟩
      | true =>
        cases success with
        | true =>
          refine ⟨?_, hfail⟩
          simp only [clusterStep, ClusterState.mirror, if_true, hsucc]
          exact mirrorScript_counterOf serverNow 1 config.windowSecs _
        | false =>
          refine ⟨hsucc, ?_⟩
          simp only [clusterStep, ClusterState.mirror, if_true, Bool.false_eq_true, if_false, hfail]
          exact mirrorScript_counterOf serverNow (-1) config.windowSecs _

lemma readCounts_clusterRun (serverNow : ℚ) :
    (clusterRun config events).readCounts serverNow =
      if (recordTimes true events).length = 0 ∨ (recordTimes false events).length = 0 then none
      else some ((recordTimes true events).length, 0) := by
  obtain ⟨hsucc, hfail⟩ := clusterRun_counters config events
  rw [ClusterState.readCounts, hsucc, hfail]
  by_cases hs : (recordTimes true events).length = 0
  · simp [counterOf, hs, alive]
  · by_cases hf : (recordTimes false events).length = 0
    · simp [counterOf, hs, hf, alive]
    · simp [counterOf, hs, hf, alive]

end

/-! ### The decision -/

lemma clusterRateExceeded_iff (success failure : Nat) (config : BreakerConfig) :
    clusterRateExceeded success failure config = true ↔ ShouldOpen config success failure := by
  simp [clusterRateExceeded, ShouldOpen, and_assoc]

lemma shouldOpen_of_threshold_nonpos {config : BreakerConfig}
    (h : config.failureRateThreshold ≤ 0) (successes failures : Nat) :
    ShouldOpen config successes failures ↔
      max config.minRequests 1 ≤ successes + failures := by
  have hrate : config.failureRateThreshold ≤
      (failures : ℚ) / ((successes + failures : Nat) : ℚ) := le_trans h (by positivity)
  rw [ShouldOpen]
  constructor
  · rintro ⟨h₁, h₂, -⟩
    omega
  · intro hle
    exact ⟨by omega, by omega, hrate⟩

lemma not_shouldOpen_of_threshold_pos {config : BreakerConfig}
    (h : 0 < config.failureRateThreshold) (successes : Nat) :
    ¬ ShouldOpen config successes 0 := by
  rintro ⟨-, -, hrate⟩
  simp only [Nat.cast_zero, zero_div] at hrate
  linarith

lemma allow_fresh_refuses_iff (config : BreakerConfig) (events : List BreakerEvent) (inst : Nat)
    (now serverNow : ℚ) (hfresh : (clusterRun config events).cached inst now = none) :
    ((clusterRun config events).allow config inst now serverNow true).1 =
        .error .circuitBreakerOpen ↔
      0 < (recordTimes false events).length ∧
        ShouldOpen config (recordTimes true events).length 0 := by
  have hnone : ¬ ShouldOpen config 0 0 := by
    rintro ⟨-, h, -⟩
    exact absurd h (by simp)
  have hread := readCounts_clusterRun config events serverNow
  rw [ClusterState.allow, ClusterState.clusterCounts, hfresh]
  simp only [if_true, hread]
  by_cases hs : (recordTimes true events).length = 0
  · simp [hs, hnone, clusterRateExceeded]
  · by_cases hf : (recordTimes false events).length = 0
    · simp [hf, clusterRateExceeded]
    · simp only [hs, hf, or_self, if_false]
      by_cases ho : clusterRateExceeded (recordTimes true events).length 0 config = true
      · simp [ho, (clusterRateExceeded_iff _ _ _).mp ho, Nat.pos_of_ne_zero hf]
      · simp [ho, ← clusterRateExceeded_iff]

/-- An `allow` that reads Redis afresh refuses exactly when the window says so, if and only if the
threshold is positive and the window does not call for a refusal, or it is not positive and the
successes ever recorded, given any failure, reach the minimum when the window does. -/
theorem cluster_allow_matches_window_iff (config : BreakerConfig) (events : List BreakerEvent)
    (inst : Nat) (now serverNow : ℚ)
    (hfresh : (clusterRun config events).cached inst now = none) :
    ((((clusterRun config events).allow config inst now serverNow true).1 =
          .error .circuitBreakerOpen ↔
        ShouldOpen config
          (windowCount config.windowSecs (recordTimes true events) serverNow)
          (windowCount config.windowSecs (recordTimes false events) serverNow)) ↔
      if 0 < config.failureRateThreshold then
        ¬ ShouldOpen config
          (windowCount config.windowSecs (recordTimes true events) serverNow)
          (windowCount config.windowSecs (recordTimes false events) serverNow)
      else
        (0 < (recordTimes false events).length ∧
            max config.minRequests 1 ≤ (recordTimes true events).length) ↔
          max config.minRequests 1 ≤
            windowCount config.windowSecs (recordTimes true events) serverNow +
            windowCount config.windowSecs (recordTimes false events) serverNow) := by
  rw [allow_fresh_refuses_iff config events inst now serverNow hfresh]
  by_cases hthr : 0 < config.failureRateThreshold
  · simp only [hthr, if_true, not_shouldOpen_of_threshold_pos hthr, and_false, false_iff]
  · have hle : config.failureRateThreshold ≤ 0 := not_lt.mp hthr
    simp only [hthr, if_false, shouldOpen_of_threshold_nonpos hle, add_zero]

theorem cluster_allow_matches_window_below_threshold :
    let config : BreakerConfig := ⟨10, 1 / 2, 2⟩
    let events : List BreakerEvent := [.record true 0 true, .record true 1 true,
      .record false 2 true]
    (clusterRun config events).cached 0 3 = none ∧
    (((clusterRun config events).allow config 0 3 3 true).1 = .error .circuitBreakerOpen ↔
      ShouldOpen config
        (windowCount config.windowSecs (recordTimes true events) 3)
        (windowCount config.windowSecs (recordTimes false events) 3)) := by
  intro config events
  have hfresh : (clusterRun config events).cached 0 3 = none := rfl
  refine ⟨hfresh, (cluster_allow_matches_window_iff config events 0 3 3 hfresh).mpr ?_⟩
  have hthr : 0 < config.failureRateThreshold := by decide +kernel
  rw [if_pos hthr]
  decide +kernel

/-- Two failures in three results of the window, above the threshold: the request passes. -/
theorem cluster_breaker_never_opens :
    let config : BreakerConfig := ⟨10, 1 / 2, 2⟩
    let events : List BreakerEvent := [.record true 0 true, .record false 1 true,
      .record false 2 true]
    (clusterRun config events).cached 0 3 = none ∧
    ((clusterRun config events).allow config 0 3 3 true).1 = .ok () ∧
    ShouldOpen config
      (windowCount config.windowSecs (recordTimes true events) 3)
      (windowCount config.windowSecs (recordTimes false events) 3) := by
  intro config events
  refine ⟨rfl, ?_, ?_⟩
  · decide +kernel
  · decide +kernel

end Conrogate
