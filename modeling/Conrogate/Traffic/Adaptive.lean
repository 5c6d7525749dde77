import Conrogate.Lib.Binary64
import Conrogate.Lib.Calls
import Conrogate.Lib.Transition
import Conrogate.Traffic.Limiter

/-!
# Adaptive concurrency

The requests in flight are counted without a lock, the limit is adjusted under one. The atomic steps
of all calls come in any order. Limits and counters are words of 64 bits, and the limit is decreased
in double precision.
-/

namespace Conrogate

open List Option Calls Transition Binary64

/-- The fields with what `Config::validate` checks of them. The greatest limit and the step are
words, the ratio is a double. -/
structure AdaptiveConfig where
  initialLimit : Nat
  minLimit : Nat
  maxLimit : Nat
  increaseStep : Nat
  decreaseRatio : ℚ
  latencyThreshold : ℚ
  window : ℚ
  min_le_initial : minLimit ≤ initialLimit
  initial_le_max : initialLimit ≤ maxLimit
  ratio_pos : 0 < decreaseRatio
  ratio_le_one : decreaseRatio ≤ 1
  max_lt : maxLimit < 2 ^ 64
  step_lt : increaseStep < 2 ^ 64
  ratio_double : Binary64.round decreaseRatio = decreaseRatio

/-- What `record_latency` pushes, with the latency in seconds. -/
structure LatencySample where
  latency : ℚ
  success : Bool

def LatencySample.millis (s : LatencySample) : Nat := ⌊s.latency * 1000⌋₊

/-- `as_millis() as u64`. -/
def LatencySample.millisWord (s : LatencySample) : Nat := s.millis % 2 ^ 64

/-- `as usize` of a double: truncated, and cut off at the greatest word. -/
def toUsize (q : ℚ) : Nat := min ⌊q⌋₊ (2 ^ 64 - 1)

namespace AdaptiveConfig

variable (config : AdaptiveConfig)

/-- The latency at 99 in 100 of the sorted samples. The fraction is the double next to 0.99. -/
def p99 (samples : List LatencySample) : ℚ :=
  let latencies := (samples.map LatencySample.millisWord).insertionSort (· ≤ ·)
  let product := Binary64.round
    (Binary64.round samples.length * (4458563631096791 / 4503599627370496))
  (latencies.getD (min (toUsize product) (samples.length - 1)) 0 : ℚ) / 1000

def Overloaded (samples : List LatencySample) : Prop :=
  config.latencyThreshold < p99 samples ∨ ∃ s ∈ samples, s.success = false

instance (samples : List LatencySample) : Decidable (config.Overloaded samples) :=
  inferInstanceAs (Decidable (_ ∨ _))

/-- `old_limit as f64 * decrease_ratio`. -/
def decreased (oldLimit : Nat) : ℚ :=
  Binary64.round (Binary64.round oldLimit * config.decreaseRatio)

/-- The new limit of `maybe_adjust`. The sum wraps around before it is cut off. -/
def newLimit (samples : List LatencySample) (oldLimit : Nat) : Nat :=
  if config.Overloaded samples then max (toUsize (config.decreased oldLimit)) config.minLimit
  else min ((oldLimit + config.increaseStep) % 2 ^ 64) config.maxLimit

end AdaptiveConfig

/-- Where a `try_acquire` is: the next atomic step, with what it has read. -/
inductive AcquireStage where
  | checkWindow (now : ℚ)
  | takeSamples
  | readOldLimit (samples : List LatencySample)
  | writeLimit (limit : Nat)
  | readLimit
  | firstLoad (limit : Nat)
  | load (limit : Nat)
  | exchange (limit current : Nat)
  | countAccepted
  | countRejected
  | holding
  | dropped
  | refused

open AcquireStage

/-- The shared fields. -/
structure AdaptiveInner where
  currentLimit : Nat
  inflight : Nat
  windowSamples : List LatencySample
  windowStart : ℚ
  totalAccepted : Nat
  totalRejected : Nat

/-- The shared fields and all calls so far, in the order in which they were made. -/
structure AdaptiveState where
  inner : AdaptiveInner
  calls : List AcquireStage

inductive AdaptiveEvent where
  | enter (now : ℚ)
  | advance (i : Nat)
  | drop (i : Nat)
  | recordLatency (sample : LatencySample)

def AdaptiveState.init (config : AdaptiveConfig) (now : ℚ) : AdaptiveState where
  inner := ⟨max config.minLimit (min config.initialLimit config.maxLimit), 0, [], now, 0, 0⟩
  calls := []

/-- One atomic step of a call. Nothing is left to do once it has returned. -/
def AcquireStage.act (config : AdaptiveConfig) (m : AdaptiveInner) :
    AcquireStage → Option (AdaptiveInner × AcquireStage)
  | .checkWindow now =>
    if durationSince now m.windowStart < config.window then some (m, .readLimit)
    else some ({ m with windowStart := now }, .takeSamples)
  | .takeSamples =>
    some ({ m with windowSamples := [] },
      if m.windowSamples.isEmpty then .readLimit else .readOldLimit m.windowSamples)
  | .readOldLimit samples =>
    let newLimit := config.newLimit samples m.currentLimit
    some (m, if newLimit ≠ m.currentLimit then .writeLimit newLimit else .readLimit)
  | .writeLimit limit => some ({ m with currentLimit := limit }, .readLimit)
  | .readLimit => some (m, .firstLoad m.currentLimit)
  | .firstLoad limit => some (m, if limit ≤ m.inflight then .countRejected else .load limit)
  | .load limit =>
    some (m, if limit ≤ m.inflight then .countRejected else .exchange limit m.inflight)
  | .exchange limit current =>
    if m.inflight = current then
      some ({ m with inflight := (current + 1) % 2 ^ 64 }, .countAccepted)
    else some (m, .load limit)
  | .countAccepted => some ({ m with totalAccepted := (m.totalAccepted + 1) % 2 ^ 64 }, .holding)
  | .countRejected => some ({ m with totalRejected := (m.totalRejected + 1) % 2 ^ 64 }, .refused)
  | .holding | .dropped | .refused => none

/-- One step of the system. `fetch_sub` of a word wraps around at zero. -/
def adaptiveStep (config : AdaptiveConfig) (s : AdaptiveState) :
    AdaptiveEvent → Option AdaptiveState
  | .enter now => some { s with calls := s.calls ++ [.checkWindow now] }
  | .advance i => do
    let c ← s.calls[i]?
    let (inner, c') ← c.act config s.inner
    some ⟨inner, s.calls.set i c'⟩
  | .drop i => do
    let c ← s.calls[i]?
    match c with
    | .holding =>
      some ⟨{ s.inner with inflight := (s.inner.inflight + (2 ^ 64 - 1)) % 2 ^ 64 },
        s.calls.set i .dropped⟩
    | _ => none
  | .recordLatency sample =>
    some { s with inner :=
      { s.inner with windowSamples := s.inner.windowSamples ++ [sample] } }

/-! ### What a step of a call can do -/

inductive AcquireMove (config : AdaptiveConfig) (m : AdaptiveInner) :
    AcquireStage → AdaptiveInner → AcquireStage → Prop
  | inWindow (now : ℚ) : AcquireMove config m (.checkWindow now) m .readLimit
  | newWindow (now : ℚ) :
    AcquireMove config m (.checkWindow now) { m with windowStart := now } .takeSamples
  | noSamples (hempty : m.windowSamples = []) :
    AcquireMove config m .takeSamples { m with windowSamples := [] } .readLimit
  | samples : AcquireMove config m .takeSamples { m with windowSamples := [] }
      (.readOldLimit m.windowSamples)
  | adjust (samples : List LatencySample) : AcquireMove config m (.readOldLimit samples) m
      (.writeLimit (config.newLimit samples m.currentLimit))
  | keep (samples : List LatencySample) : AcquireMove config m (.readOldLimit samples) m .readLimit
  | writeLimit (limit : Nat) :
    AcquireMove config m (.writeLimit limit) { m with currentLimit := limit } .readLimit
  | readLimit : AcquireMove config m .readLimit m (.firstLoad m.currentLimit)
  | firstFull (limit : Nat) (hfull : limit ≤ m.inflight) :
    AcquireMove config m (.firstLoad limit) m .countRejected
  | firstFree (limit : Nat) : AcquireMove config m (.firstLoad limit) m (.load limit)
  | full (limit : Nat) (hfull : limit ≤ m.inflight) :
    AcquireMove config m (.load limit) m .countRejected
  | free (limit : Nat) (hfree : m.inflight < limit) :
    AcquireMove config m (.load limit) m (.exchange limit m.inflight)
  | exchanged (limit : Nat) : AcquireMove config m (.exchange limit m.inflight)
      { m with inflight := (m.inflight + 1) % 2 ^ 64 } .countAccepted
  | overtaken (limit current : Nat) : AcquireMove config m (.exchange limit current) m (.load limit)
  | countAccepted : AcquireMove config m .countAccepted
      { m with totalAccepted := (m.totalAccepted + 1) % 2 ^ 64 } .holding
  | countRejected : AcquireMove config m .countRejected
      { m with totalRejected := (m.totalRejected + 1) % 2 ^ 64 } .refused

variable {s : AdaptiveState}

section

variable {config : AdaptiveConfig}

lemma acquireMove_of_act {m m' : AdaptiveInner} {c c' : AcquireStage}
    (h : c.act config m = some (m', c')) : AcquireMove config m c m' c' := by
  cases c with
  | checkWindow now =>
    rw [act] at h
    split at h
    · cases h
      exact .inWindow now
    · cases h
      exact .newWindow now
  | takeSamples =>
    obtain ⟨rfl, rfl⟩ := Prod.mk.inj (some.inj h)
    split
    · next hempty => exact .noSamples (isEmpty_iff.mp hempty)
    · exact .samples
  | readOldLimit samples =>
    obtain ⟨rfl, rfl⟩ := Prod.mk.inj (some.inj h)
    split
    · exact .adjust samples
    · exact .keep samples
  | writeLimit limit =>
    cases h
    exact .writeLimit limit
  | readLimit =>
    cases h
    exact .readLimit
  | firstLoad limit =>
    obtain ⟨rfl, rfl⟩ := Prod.mk.inj (some.inj h)
    split
    · next hfull => exact .firstFull limit hfull
    · exact .firstFree limit
  | load limit =>
    obtain ⟨rfl, rfl⟩ := Prod.mk.inj (some.inj h)
    split
    · next hfull => exact .full limit hfull
    · next hfree => exact .free limit (not_le.mp hfree)
  | exchange limit current =>
    rw [act] at h
    split at h
    · next heq =>
      cases h
      subst heq
      exact .exchanged limit
    · cases h
      exact .overtaken limit current
  | countAccepted =>
    cases h
    exact .countAccepted
  | countRejected =>
    cases h
    exact .countRejected
  | holding => cases h
  | dropped => cases h
  | refused => cases h

lemma advance_eq_some {t : AdaptiveState} {i : Nat}
    (h : adaptiveStep config s (.advance i) = some t) :
    ∃ c inner c', s.calls[i]? = some c ∧ AcquireMove config s.inner c inner c' ∧
      t = ⟨inner, s.calls.set i c'⟩ := by
  simp only [adaptiveStep, bind_eq_bind, bind_eq_some_iff, some.injEq] at h
  obtain ⟨c, hc, ⟨inner, c'⟩, hact, rfl⟩ := h
  exact ⟨c, inner, c', hc, acquireMove_of_act hact, rfl⟩

lemma drop_eq_some {t : AdaptiveState} {i : Nat} (h : adaptiveStep config s (.drop i) = some t) :
    s.calls[i]? = some .holding ∧
      ∃ n, n = (s.inner.inflight + (2 ^ 64 - 1)) % 2 ^ 64 ∧
        t = ⟨{ s.inner with inflight := n }, s.calls.set i .dropped⟩ := by
  obtain ⟨c, hc, h⟩ := bind_eq_some_iff.mp h
  split at h
  · exact ⟨hc, _, rfl, (some.inj h).symm⟩
  · cases h

end

/-! ### The new limit -/

section

variable {config : AdaptiveConfig}

lemma AdaptiveConfig.min_le_max (config : AdaptiveConfig) : config.minLimit ≤ config.maxLimit :=
  config.min_le_initial.trans config.initial_le_max

lemma AdaptiveConfig.newLimit_lt (config : AdaptiveConfig) (samples : List LatencySample)
    (oldLimit : Nat) : config.newLimit samples oldLimit < 2 ^ 64 := by
  have hmax := config.max_lt
  have hmin := config.min_le_max
  rw [newLimit]
  split
  · have hword : toUsize (config.decreased oldLimit) ≤ 2 ^ 64 - 1 := min_le_right _ _
    omega
  · exact (min_le_right _ _).trans_lt hmax

lemma AdaptiveConfig.floor_decreased_le
    (hdouble : Binary64.round config.maxLimit ≤ config.maxLimit) {oldLimit : Nat}
    (h : oldLimit ≤ config.maxLimit) : ⌊config.decreased oldLimit⌋₊ ≤ config.maxLimit := by
  refine Nat.floor_le_of_le ?_
  have hproduct : Binary64.round oldLimit * config.decreaseRatio ≤ Binary64.round oldLimit :=
    mul_le_of_le_one_right (Binary64.round_nonneg _) config.ratio_le_one
  calc config.decreased oldLimit ≤ Binary64.round (Binary64.round oldLimit) :=
        Binary64.round_mono hproduct
    _ = Binary64.round oldLimit := Binary64.round_round _
    _ ≤ Binary64.round config.maxLimit := Binary64.round_mono (Nat.cast_le.mpr h)
    _ ≤ config.maxLimit := hdouble

/-- The decrease is cut off only from below: it is `max_limit` as a double that bounds it. -/
lemma AdaptiveConfig.newLimit_le (hdouble : round config.maxLimit ≤ config.maxLimit)
    (samples : List LatencySample) {oldLimit : Nat} (h : oldLimit ≤ config.maxLimit) :
    config.newLimit samples oldLimit ≤ config.maxLimit := by
  rw [newLimit]
  split
  · refine max_le ?_ config.min_le_max
    exact (min_le_left _ _).trans (floor_decreased_le hdouble h)
  · exact min_le_right _ _

end

/-! ### What the counters count -/

namespace AcquireStage

/-- The call is counted in `inflight`. -/
def occupies : AcquireStage → Bool
  | countAccepted | holding => true
  | _ => false

/-- The permit has not been dropped. -/
def live : AcquireStage → Bool
  | holding => true
  | _ => false

def returnedOk : AcquireStage → Bool
  | holding | dropped => true
  | _ => false

def returnedErr : AcquireStage → Bool
  | refused => true
  | _ => false

def returned (c : AcquireStage) : Bool := c.returnedOk || c.returnedErr

def limit : AcquireStage → Option Nat
  | firstLoad limit | load limit | exchange limit _ => some limit
  | _ => none

def Bounded (max : Nat) : AcquireStage → Prop
  | writeLimit limit | firstLoad limit | load limit => limit ≤ max
  | exchange limit current => limit ≤ max ∧ current < limit
  | _ => True

end AcquireStage

structure AdaptiveInner.Bounded (max : Nat) (m : AdaptiveInner) : Prop where
  limit : m.currentLimit ≤ max
  inflight : m.inflight ≤ max

/-- The counters count calls, the totals up to `2 ^ 64`, and no number exceeds `max`. -/
structure AdaptiveState.Exact (max : Nat) (s : AdaptiveState) : Prop where
  inflight : s.inner.inflight = s.calls.countP (·.occupies)
  accepted : s.inner.totalAccepted = s.calls.countP (·.returnedOk) % 2 ^ 64
  rejected : s.inner.totalRejected = s.calls.countP (·.returnedErr) % 2 ^ 64
  inner : s.inner.Bounded max
  calls : ∀ c ∈ s.calls, c.Bounded max

/-- A word that bounds the limit and which an adjustment does not exceed. -/
structure AdaptiveConfig.LimitBound (config : AdaptiveConfig) (max : Nat) : Prop where
  max_le : config.maxLimit ≤ max
  lt_word : max < 2 ^ 64
  newLimit_le : ∀ samples oldLimit, oldLimit ≤ max → config.newLimit samples oldLimit ≤ max

lemma AdaptiveConfig.limitBound_word (config : AdaptiveConfig) :
    config.LimitBound (2 ^ 64 - 1) where
  max_le := Nat.le_sub_one_of_lt config.max_lt
  lt_word := by norm_num
  newLimit_le samples oldLimit _ := Nat.le_sub_one_of_lt (config.newLimit_lt samples oldLimit)

lemma AdaptiveConfig.limitBound_max {config : AdaptiveConfig}
    (hdouble : round config.maxLimit ≤ config.maxLimit) :
    config.LimitBound config.maxLimit where
  max_le := le_rfl
  lt_word := config.max_lt
  newLimit_le samples _ h := newLimit_le hdouble samples h

section runs

variable {config : AdaptiveConfig} {max : Nat} {s t : AdaptiveState} {e : AdaptiveEvent}
  {m m' : AdaptiveInner} {c c' : AcquireStage} {i : Nat}

lemma AcquireMove.bounded (hbound : config.LimitBound max) (hm : m.Bounded max)
    (hc : c.Bounded max) (h : AcquireMove config m c m' c') : m'.Bounded max ∧ c'.Bounded max := by
  cases h with
  | inWindow | keep | firstFull | full => exact ⟨hm, trivial⟩
  | newWindow | noSamples | samples | countAccepted | countRejected =>
    exact ⟨⟨hm.limit, hm.inflight⟩, trivial⟩
  | adjust samples => exact ⟨hm, hbound.newLimit_le samples _ hm.limit⟩
  | writeLimit limit => exact ⟨⟨hc, hm.inflight⟩, trivial⟩
  | readLimit => exact ⟨hm, hm.limit⟩
  | firstFree limit => exact ⟨hm, hc⟩
  | free limit hfree => exact ⟨hm, hc, hfree⟩
  | exchanged limit =>
    obtain ⟨hlimit, hlt⟩ := hc
    exact ⟨⟨hm.limit, (Nat.mod_le _ _).trans (hlt.trans_le hlimit)⟩, trivial⟩
  | overtaken limit current => exact ⟨hm, hc.1⟩

lemma AcquireMove.inflight (hbound : config.LimitBound max) (hc : c.Bounded max)
    (h : AcquireMove config m c m' c') :
    m'.inflight + c.occupies.toNat = m.inflight + c'.occupies.toNat := by
  cases h with
  | exchanged limit =>
    -- the limit that was read is a word, so the exchange does not wrap around
    obtain ⟨hlimit, hlt⟩ := hc
    have hword := hbound.lt_word
    have hmod : (m.inflight + 1) % 2 ^ 64 = m.inflight + 1 := Nat.mod_eq_of_lt (by omega)
    simp only [hmod, occupies, Bool.toNat_true, Bool.toNat_false, Nat.add_zero]
  | _ => rfl

lemma AcquireMove.totals (h : AcquireMove config m c m' c') :
    Counts (2 ^ 64) returnedOk m.totalAccepted m'.totalAccepted c c' ∧
    Counts (2 ^ 64) returnedErr m.totalRejected m'.totalRejected c c' := by
  cases h with
  | countAccepted => exact ⟨.inr ⟨rfl, rfl, rfl⟩, .inl ⟨rfl, rfl⟩⟩
  | countRejected => exact ⟨.inl ⟨rfl, rfl⟩, .inr ⟨rfl, rfl, rfl⟩⟩
  | _ => exact ⟨.inl ⟨rfl, rfl⟩, .inl ⟨rfl, rfl⟩⟩

section

variable (hbound : config.LimitBound max)
include hbound

lemma exact_init (start : ℚ) :
    (AdaptiveState.init config start).Exact max where
  inflight := rfl
  accepted := rfl
  rejected := rfl
  inner := by
    have hlimit := max_le config.min_le_max (min_le_right config.initialLimit config.maxLimit)
    exact ⟨hlimit.trans hbound.max_le, Nat.zero_le _⟩
  calls _ h := by cases h

lemma AdaptiveState.Exact.step (h : s.Exact max) (hstep : adaptiveStep config s e = some t) :
    t.Exact max := by
  cases e with
  | enter now =>
    obtain rfl := some.inj hstep
    refine ⟨?_, ?_, ?_, h.inner, ?_⟩
    · simpa [occupies] using h.inflight
    · simpa [returnedOk] using h.accepted
    · simpa [returnedErr] using h.rejected
    · rw [forall_mem_append]
      refine ⟨h.calls, ?_⟩
      simp [AcquireStage.Bounded]
  | advance i =>
    obtain ⟨c, inner, c', hc, hmove, rfl⟩ := advance_eq_some hstep
    have hbounded := h.calls c (mem_of_getElem? hc)
    obtain ⟨hinner, hc'⟩ := hmove.bounded hbound h.inner hbounded
    obtain ⟨haccepted, hrejected⟩ := hmove.totals
    -- each counter moves with the calls that it counts
    exact ⟨counter_eq_countP hc h.inflight (hmove.inflight hbound hbounded),
      haccepted.eq_countP hc h.accepted, hrejected.eq_countP hc h.rejected, hinner,
      forall_mem_set h.calls hc'⟩
  | drop i =>
    obtain ⟨hc, n, hn, rfl⟩ := drop_eq_some hstep
    have hpos : 0 < s.inner.inflight := by
      rw [h.inflight]
      exact countP_pos_of_getElem? hc rfl
    have hle := h.inner.inflight
    have hword := hbound.lt_word
    obtain rfl : n = s.inner.inflight - 1 := by omega
    refine ⟨counter_eq_countP hc h.inflight (Nat.sub_add_cancel hpos), ?_, ?_,
      ⟨h.inner.limit, (Nat.sub_le _ _).trans hle⟩, forall_mem_set h.calls trivial⟩
    · exact Counts.eq_countP (c := .holding) (.inl ⟨rfl, rfl⟩) hc h.accepted
    · exact Counts.eq_countP (c := .holding) (.inl ⟨rfl, rfl⟩) hc h.rejected
  | recordLatency sample =>
    obtain rfl := some.inj hstep
    exact ⟨h.inflight, h.accepted, h.rejected, ⟨h.inner.limit, h.inner.inflight⟩, h.calls⟩

lemma exact_run {start : ℚ} {events : List AdaptiveEvent}
    (hrun : run (adaptiveStep config) (.init config start) events = some t) :
    t.Exact max :=
  invariant (fun _ _ _ h hstep => h.step hbound hstep) (exact_init hbound start) hrun

end

/-! ### Admissions -/

/-- Call `i` has read this limit. -/
def ReadLimit (steps : List (AdaptiveState × AdaptiveEvent × AdaptiveState)) (i limit : Nat) :
    Prop :=
  ∃ u v, (u, .advance i, v) ∈ steps ∧ u.calls[i]? = some .readLimit ∧ u.inner.currentLimit = limit

/-- If the step admits a call, `inflight` is below a limit that the call has read. -/
def AdmitsBelow (steps : List (AdaptiveState × AdaptiveEvent × AdaptiveState))
    (u : AdaptiveState) (e : AdaptiveEvent) (v : AdaptiveState) : Prop :=
  ∀ i limit current, e = .advance i → u.calls[i]? = some (.exchange limit current) →
    v.calls[i]? = some .countAccepted → u.inner.inflight < limit ∧ ReadLimit steps i limit

structure Admitting (steps : List (AdaptiveState × AdaptiveEvent × AdaptiveState))
    (s : AdaptiveState) : Prop where
  read : ∀ (i : Nat) (c : AcquireStage), s.calls[i]? = some c → ∀ limit ∈ c.limit,
    ReadLimit steps i limit
  admitted : ∀ u e v, (u, e, v) ∈ steps → AdmitsBelow steps u e v

lemma ReadLimit.mono {steps : List (AdaptiveState × AdaptiveEvent × AdaptiveState)} {limit : Nat}
    (h : ReadLimit steps i limit) (step : AdaptiveState × AdaptiveEvent × AdaptiveState) :
    ReadLimit (steps ++ [step]) i limit := by
  obtain ⟨u, v, hmem, hspec⟩ := h
  exact ⟨u, v, mem_append_left _ hmem, hspec⟩

lemma AcquireMove.limit {limit : Nat} (h : AcquireMove config m c m' c')
    (hlimit : c'.limit = some limit) :
    c.limit = some limit ∨ c = .readLimit ∧ m.currentLimit = limit := by
  cases h with
  | readLimit => exact .inr ⟨rfl, some.inj hlimit⟩
  | firstFree | free | overtaken => exact .inl hlimit
  | _ => cases hlimit

lemma Admitting.step {steps : List (AdaptiveState × AdaptiveEvent × AdaptiveState)}
    (h : Admitting steps s) (hexact : s.Exact max)
    (hstep : adaptiveStep config s e = some t) : Admitting (steps ++ [(s, e, t)]) t where
  read j d hd limit hlimit := by
    cases e with
    | enter now =>
      obtain rfl := some.inj hstep
      rw [getElem?_append] at hd
      split at hd
      · exact (h.read j d hd limit hlimit).mono _
      · rw [getElem?_singleton] at hd
        split at hd
        · obtain rfl := some.inj hd
          cases hlimit
        · cases hd
    | advance i =>
      obtain ⟨c, inner, c', hc, hmove, rfl⟩ := advance_eq_some hstep
      obtain ⟨rfl, rfl⟩ | ⟨-, hd⟩ := getElem?_set_eq_some hd
      · obtain hold | ⟨rfl, hread⟩ := hmove.limit hlimit
        · exact (h.read i c hc limit hold).mono _
        · exact ⟨s, _, mem_append_right _ mem_cons_self, hc, hread⟩
      · exact (h.read j d hd limit hlimit).mono _
    | drop i =>
      obtain ⟨hc, _, -, rfl⟩ := drop_eq_some hstep
      obtain ⟨rfl, rfl⟩ | ⟨-, hd⟩ := getElem?_set_eq_some hd
      · cases hlimit
      · exact (h.read j d hd limit hlimit).mono _
    | recordLatency sample =>
      obtain rfl := some.inj hstep
      exact (h.read j d hd limit hlimit).mono _
  admitted u e' v hmem := by
    obtain hmem | hmem := mem_append.mp hmem
    · intro i limit current he hu hv
      obtain ⟨hlt, hread⟩ := h.admitted u e' v hmem i limit current he hu hv
      exact ⟨hlt, hread.mono _⟩
    · obtain ⟨rfl, rfl, rfl⟩ : u = s ∧ e' = e ∧ v = t := by simpa using hmem
      rintro i limit current rfl hu hv
      refine ⟨?_, (h.read i _ hu limit rfl).mono _⟩
      obtain ⟨c, inner, c', hc, hmove, rfl⟩ := advance_eq_some hstep
      obtain rfl : c = .exchange limit current := some.inj (hc.symm.trans hu)
      obtain ⟨-, hlt⟩ := hexact.calls _ (mem_of_getElem? hc)
      cases hmove with
      | exchanged => exact hlt
      | overtaken =>
        have hset := getElem?_set_eq_some hv
        simp at hset

end runs

/-- Once no call is in progress, `inflight` is the number of live permits; a call is admitted only
below the limit that it has read; and below `2 ^ 64` calls the totals are the numbers of calls that
returned `Ok` and `Err`. If `max_limit` as a double is not greater than `max_limit`, `inflight`
never exceeds it. -/
theorem adaptive_concurrency_exact (config : AdaptiveConfig) (start : ℚ)
    (events : List AdaptiveEvent) (t : AdaptiveState)
    (hrun : run (adaptiveStep config) (.init config start) events = some t) :
    ((∀ c ∈ t.calls, c.returned = true) → t.inner.inflight = t.calls.countP (·.live)) ∧
    (round config.maxLimit ≤ config.maxLimit → t.inner.inflight ≤ config.maxLimit) ∧
    (∀ u e v, (u, e, v) ∈ trace (adaptiveStep config) (.init config start) events →
      AdmitsBelow (trace (adaptiveStep config) (.init config start) events) u e v) ∧
    (t.calls.length < 2 ^ 64 →
      t.inner.totalAccepted = t.calls.countP (·.returnedOk) ∧
      t.inner.totalRejected = t.calls.countP (·.returnedErr)) := by
  have hbound := config.limitBound_word
  obtain ⟨hexact, hadmitting⟩ := trace_induction
    (P := fun steps t => t.Exact (2 ^ 64 - 1) ∧ Admitting steps t)
    ⟨exact_init hbound start, by simp [AdaptiveState.init], by simp⟩
    (fun steps u e v h hstep => ⟨h.1.step hbound hstep, h.2.step h.1 hstep⟩) hrun
  refine ⟨?_, ?_, hadmitting.admitted, ?_⟩
  · intro hreturned
    rw [hexact.inflight]
    apply countP_congr
    intro c hc
    have hc := hreturned c hc
    cases c <;> simp_all [returned, returnedOk, returnedErr,
      occupies, live]
  · intro hdouble
    exact (exact_run (AdaptiveConfig.limitBound_max hdouble) hrun).inner.inflight
  · intro hfew
    have hlt : ∀ p, t.calls.countP p < 2 ^ 64 := fun p => countP_le_length.trans_lt hfew
    exact ⟨hexact.accepted.trans (Nat.mod_eq_of_lt (hlt _)),
      hexact.rejected.trans (Nat.mod_eq_of_lt (hlt _))⟩

theorem adaptive_concurrency_exact_two_calls : ∃ config t,
    run (adaptiveStep config) (.init config 0)
      (.enter 0 :: .enter 0 :: (List.replicate 6 (.advance 0) ++ List.replicate 4 (.advance 1))) =
        some t ∧
    round config.maxLimit ≤ config.maxLimit ∧
    t.calls.map (fun c => (c.returnedOk, c.returnedErr)) = [(true, false), (false, true)] ∧
    t.inner.inflight = t.calls.countP (·.live) ∧ t.inner.inflight ≤ config.maxLimit ∧
    t.inner.totalAccepted = t.calls.countP (·.returnedOk) ∧
    t.inner.totalRejected = t.calls.countP (·.returnedErr) := by
  let config : AdaptiveConfig := ⟨1, 1, 1, 1, 1 / 2, 5, 10, by simp, by simp, by norm_num,
    by norm_num, by norm_num, by norm_num, by decide +kernel⟩
  obtain ⟨t, hrun, hspec, hreturned, hfew⟩ : ∃ t ∈ run (adaptiveStep config) (.init config 0)
      (.enter 0 :: .enter 0 :: (replicate 6 (.advance 0) ++ replicate 4 (.advance 1))),
      t.calls.map (fun c => (c.returnedOk, c.returnedErr)) = [(true, false), (false, true)] ∧
      (∀ c ∈ t.calls, c.returned = true) ∧ t.calls.length < 2 ^ 64 := by decide +kernel
  obtain ⟨hinflight, hmax, -, htotals⟩ := adaptive_concurrency_exact config 0 _ t hrun
  have hdouble : round config.maxLimit ≤ config.maxLimit := by decide +kernel
  exact ⟨config, t, hrun, hdouble, hspec, hinflight hreturned, hmax hdouble, htotals hfew⟩

/-! ### A limit above the greatest -/

section

variable {config : AdaptiveConfig} {now : ℚ}

/-- A call alone in an unexpired window is admitted below the limit. -/
lemma exists_admission (hwindow : durationSince now s.inner.windowStart < config.window)
    (hfree : s.inner.inflight < s.inner.currentLimit) (hlt : s.inner.currentLimit < 2 ^ 64) :
    ∃ t, run (adaptiveStep config) s
        (.enter now :: List.replicate 6 (.advance s.calls.length)) = some t ∧
      t.inner.inflight = s.inner.inflight + 1 ∧ t.inner.currentLimit = s.inner.currentLimit ∧
      t.inner.windowStart = s.inner.windowStart := by
  have hroom : ¬ s.inner.currentLimit ≤ s.inner.inflight := by omega
  refine ⟨⟨{ s.inner with
    inflight := s.inner.inflight + 1
    totalAccepted := (s.inner.totalAccepted + 1) % 2 ^ 64 }, s.calls ++ [.holding]⟩, ?_, rfl, rfl,
    rfl⟩
  simp [run, adaptiveStep, act, hwindow, hroom, replicate]
  omega

lemma exists_inflight (n : Nat) (hwindow : durationSince now s.inner.windowStart < config.window)
    (hfree : s.inner.inflight + n ≤ s.inner.currentLimit) (hlt : s.inner.currentLimit < 2 ^ 64) :
    ∃ events t, run (adaptiveStep config) s events = some t ∧
      t.inner.inflight = s.inner.inflight + n := by
  induction n generalizing s with
  | zero => exact ⟨[], s, rfl, rfl⟩
  | succ n ih =>
    obtain ⟨u, hu, hinflight, hlimit, hstart⟩ := exists_admission hwindow (by omega) hlt
    obtain ⟨events, t, ht, hcount⟩ :=
      ih (s := u) (hstart ▸ hwindow) (by omega) (hlimit ▸ hlt)
    exact ⟨_, t, run_append_eq_some.mpr ⟨u, hu, ht⟩, by omega⟩

end

/-- A greatest limit that is no double. -/
def AdaptiveConfig.great : AdaptiveConfig :=
  ⟨2 ^ 53 + 3, 10, 2 ^ 53 + 3, 1, 1, 5, 10, by norm_num, by simp, by norm_num, by norm_num,
    by norm_num, by norm_num, by decide +kernel⟩

/-- A window of one sample, and the call that adjusts the limit at its end. -/
def oneSample (success : Bool) : List AdaptiveEvent :=
  [.recordLatency ⟨1 / 10, success⟩, .enter 10] ++ replicate 4 (.advance 0)

/-- After a failure the limit is one above the greatest, and so many calls are admitted. -/
theorem inflight_exceeds_max_limit : ∃ events t,
    run (adaptiveStep .great) (.init .great 0) events = some t ∧
      AdaptiveConfig.great.maxLimit < t.inner.inflight := by
  obtain ⟨u, hu, hlimit, hzero, hwindow⟩ : ∃ u ∈ run (adaptiveStep .great) (.init .great 0)
      (oneSample false), u.inner.currentLimit = 2 ^ 53 + 4 ∧ u.inner.inflight = 0 ∧
      durationSince 10 u.inner.windowStart < AdaptiveConfig.great.window := by
    decide +kernel
  obtain ⟨events, t, ht, hinflight⟩ := exists_inflight (2 ^ 53 + 4) hwindow (by omega) (by omega)
  have hgreater : 2 ^ 53 + 3 < t.inner.inflight := by omega
  exact ⟨_, t, run_append_eq_some.mpr ⟨u, hu, ht⟩, hgreater⟩

end Conrogate
