import Conrogate.Lib.Keyed
import Conrogate.Lib.Transition
import Conrogate.Traffic.ClusterBreaker
import Conrogate.Traffic.Limiter

/-!
# The circuit breaker in local mode

Every call holds the lock of the breaker and reads the clock inside, so that calls are served one
after the other.
-/

namespace Conrogate

open Option Transition

inductive BreakerState where
  | closed
  | opened
  | halfOpen
deriving DecidableEq

structure LocalBreakerConfig extends BreakerConfig where
  wait : ℚ
  halfOpenMax : Nat

structure BreakerInner where
  state : BreakerState
  failureCount : Nat
  successCount : Nat
  windowStart : ℚ
  lastFailureTime : Option ℚ

open BreakerInner

namespace BreakerInner

def new (now : ℚ) : BreakerInner := ⟨.closed, 0, 0, now, none⟩

variable (config : LocalBreakerConfig) (now : ℚ) (inner : BreakerInner)

def Expired : Prop := config.window ≤ durationSince now inner.windowStart

instance : Decidable (inner.Expired config now) :=
  inferInstanceAs (Decidable (config.window ≤ durationSince now inner.windowStart))

def refreshWindow : BreakerInner :=
  if inner.Expired config now then
    { inner with failureCount := 0, successCount := 0, windowStart := now }
  else inner

def allow : BreakerInner × Result Unit :=
  let inner := inner.refreshWindow config now
  match inner.state with
  | .closed => (inner, .ok ())
  | .opened =>
    if ∃ last ∈ inner.lastFailureTime, config.wait ≤ durationSince now last then
      ({ inner with state := .halfOpen, successCount := 0, failureCount := 0 }, .ok ())
    else (inner, .error .circuitBreakerOpen)
  | .halfOpen =>
    if inner.successCount + inner.failureCount < config.halfOpenMax then (inner, .ok ())
    else (inner, .error .circuitBreakerOpen)

def recordSuccess : BreakerInner :=
  let inner := inner.refreshWindow config now
  let inner := { inner with successCount := inner.successCount + 1 }
  if inner.state = .halfOpen ∧ config.halfOpenMax ≤ inner.successCount then
    { inner with state := .closed, failureCount := 0, successCount := 0 }
  else inner

def recordFailure : BreakerInner :=
  let inner := inner.refreshWindow config now
  let inner :=
    { inner with failureCount := inner.failureCount + 1, lastFailureTime := some now }
  match inner.state with
  | .closed =>
    let total := inner.successCount + inner.failureCount
    if config.minRequests ≤ total ∧
        config.failureRateThreshold ≤ (inner.failureCount : ℚ) / total then
      { inner with state := .opened }
    else inner
  | .halfOpen => { inner with state := .opened }
  | .opened   => inner

end BreakerInner

/-- `admitted` and `answered` count the calls. -/
structure LocalBreaker where
  inner : BreakerInner
  clock : ℚ
  admitted : Nat
  answered : Nat

inductive LocalBreakerEvent where
  | advance (d : ℚ)
  | allow
  | recordSuccess
  | recordFailure
deriving DecidableEq

namespace LocalBreaker

def init (now : ℚ) : LocalBreaker := ⟨.new now, now, 0, 0⟩

def proceed (s : LocalBreaker) (inner : BreakerInner) (admitted answered : Nat) : LocalBreaker :=
  if inner.state ≠ .halfOpen then ⟨inner, s.clock, 0, 0⟩
  else if s.inner.state ≠ .halfOpen then ⟨inner, s.clock, admitted, 0⟩
  else ⟨inner, s.clock, s.admitted + admitted, s.answered + answered⟩

end LocalBreaker

def breakerStep (config : LocalBreakerConfig) (s : LocalBreaker) :
    LocalBreakerEvent → Option LocalBreaker
  | .advance d => if 0 ≤ d then some { s with clock := s.clock + d } else none
  | .allow =>
    some (s.proceed (s.inner.allow config s.clock).1
      (if (s.inner.allow config s.clock).2.isOk then 1 else 0) 0)
  | .recordSuccess => some (s.proceed (s.inner.recordSuccess config s.clock) 0 1)
  | .recordFailure => some (s.proceed (s.inner.recordFailure config s.clock) 0 1)

/-! ### What a call does -/

namespace BreakerInner

variable {config : LocalBreakerConfig} {now : ℚ} {inner : BreakerInner}

lemma refreshWindow_spec (config : LocalBreakerConfig) (now : ℚ) (inner : BreakerInner) :
    (inner.refreshWindow config now).state = inner.state ∧
    (inner.refreshWindow config now).lastFailureTime = inner.lastFailureTime ∧
    (inner.refreshWindow config now).failureCount ≤ inner.failureCount ∧
    (inner.refreshWindow config now).successCount ≤ inner.successCount := by
  rw [refreshWindow]
  split
  · exact ⟨rfl, rfl, Nat.zero_le _, Nat.zero_le _⟩
  · exact ⟨rfl, rfl, le_rfl, le_rfl⟩

inductive AllowEnd (config : LocalBreakerConfig) (now : ℚ) (refreshed : BreakerInner) :
    BreakerInner × Result Unit → Prop
  | closed (hstate : refreshed.state = .closed) : AllowEnd config now refreshed (refreshed, .ok ())
  | entered (hstate : refreshed.state = .opened)
      (hwait : ∃ last ∈ refreshed.lastFailureTime, config.wait ≤ durationSince now last) :
      AllowEnd config now refreshed
        ({ refreshed with state := .halfOpen, successCount := 0, failureCount := 0 }, .ok ())
  | waiting (hstate : refreshed.state = .opened)
      (hwait : ¬ ∃ last ∈ refreshed.lastFailureTime, config.wait ≤ durationSince now last) :
      AllowEnd config now refreshed (refreshed, .error .circuitBreakerOpen)
  | probing (hstate : refreshed.state = .halfOpen)
      (hfew : refreshed.successCount + refreshed.failureCount < config.halfOpenMax) :
      AllowEnd config now refreshed (refreshed, .ok ())
  | full (hstate : refreshed.state = .halfOpen)
      (hmany : ¬ refreshed.successCount + refreshed.failureCount < config.halfOpenMax) :
      AllowEnd config now refreshed (refreshed, .error .circuitBreakerOpen)

lemma allow_end (config : LocalBreakerConfig) (now : ℚ) (inner : BreakerInner) :
    AllowEnd config now (inner.refreshWindow config now) (inner.allow config now) := by
  delta allow
  dsimp only
  generalize inner.refreshWindow config now = refreshed
  split
  · next hstate => exact .closed hstate
  · next hstate =>
    split
    · next hwait => exact .entered hstate hwait
    · next hwait => exact .waiting hstate hwait
  · next hstate =>
    split
    · next hfew => exact .probing hstate hfew
    · next hmany => exact .full hstate hmany

structure Valid (config : LocalBreakerConfig) (now : ℚ) (inner : BreakerInner) : Prop where
  past : ∀ last ∈ inner.lastFailureTime, last ≤ now
  opened : inner.state = .opened → inner.lastFailureTime.isSome
  halfOpen : inner.state = .halfOpen →
    inner.failureCount = 0 ∧ inner.successCount < config.halfOpenMax

lemma Valid.refreshWindow (h : inner.Valid config now) :
    (inner.refreshWindow config now).Valid config now := by
  obtain ⟨hstate, hlast, hfailure, hsuccess⟩ := refreshWindow_spec config now inner
  refine ⟨by rw [hlast]; exact h.past, by rw [hstate, hlast]; exact h.opened, ?_⟩
  intro hhalf
  obtain ⟨hzero, hlt⟩ := h.halfOpen (hstate.symm.trans hhalf)
  exact ⟨by omega, by omega⟩

lemma Valid.allow (h : inner.Valid config now) (hmax : 1 ≤ config.halfOpenMax) :
    (inner.allow config now).1.Valid config now := by
  have hrefreshed := h.refreshWindow
  have hend := allow_end config now inner
  generalize inner.allow config now = result at hend ⊢
  cases hend with
  | entered hstate hwait => exact ⟨hrefreshed.past, by simp, fun _ => ⟨rfl, hmax⟩⟩
  | closed | waiting | probing | full => exact hrefreshed

lemma Valid.recordSuccess (h : inner.Valid config now) :
    (inner.recordSuccess config now).Valid config now := by
  have hrefreshed := h.refreshWindow
  rw [BreakerInner.recordSuccess]
  generalize inner.refreshWindow config now = refreshed at hrefreshed ⊢
  split
  · exact ⟨hrefreshed.past, by simp, by simp⟩
  · next hmore =>
    refine ⟨hrefreshed.past, hrefreshed.opened, ?_⟩
    intro hhalf
    refine ⟨(hrefreshed.halfOpen hhalf).1, ?_⟩
    by_contra hmax
    exact hmore ⟨hhalf, not_lt.mp hmax⟩

section

variable (config : LocalBreakerConfig) (now : ℚ) (inner : BreakerInner)

lemma recordFailure_spec :
    (inner.recordFailure config now).lastFailureTime = some now ∧
      (inner.recordFailure config now).state ≠ .halfOpen := by
  delta recordFailure
  dsimp only
  generalize inner.refreshWindow config now = refreshed
  split
  · next hclosed =>
    split
    · exact ⟨rfl, by simp⟩
    · exact ⟨rfl, by simp [hclosed]⟩
  · exact ⟨rfl, by simp⟩
  · next hopened => exact ⟨rfl, by simp [hopened]⟩

lemma valid_recordFailure :
    (inner.recordFailure config now).Valid config now := by
  obtain ⟨hlast, hne⟩ := recordFailure_spec config now inner
  refine ⟨?_, fun _ => by rw [hlast]; rfl, fun hhalf => absurd hhalf hne⟩
  intro last hsome
  rw [hlast] at hsome
  exact (some.inj hsome).ge

end

lemma Valid.allow_eq_ok (h : inner.Valid config now)
    (hwait : inner.state = .opened →
      ∀ last ∈ inner.lastFailureTime, config.wait ≤ durationSince now last) :
    (inner.allow config now).2 = .ok () := by
  have hrefreshed := h.refreshWindow
  obtain ⟨hsame, hlast, -, -⟩ := refreshWindow_spec config now inner
  have hend := allow_end config now inner
  generalize inner.allow config now = result at hend ⊢
  cases hend with
  | closed | entered | probing => rfl
  | waiting hstate hrecent =>
    have hopened : inner.state = .opened := hsame.symm.trans hstate
    obtain ⟨last, hsome⟩ := isSome_iff_exists.mp (h.opened hopened)
    exact absurd ⟨last, hlast.trans hsome, hwait hopened last hsome⟩ hrecent
  | full hstate hmany =>
    obtain ⟨hzero, hlt⟩ := hrefreshed.halfOpen hstate
    omega

lemma lastFailureTime_eq (config : LocalBreakerConfig) (now : ℚ) (inner : BreakerInner) :
    (inner.allow config now).1.lastFailureTime = inner.lastFailureTime ∧
      (inner.recordSuccess config now).lastFailureTime = inner.lastFailureTime := by
  obtain ⟨-, hlast, -, -⟩ := refreshWindow_spec config now inner
  constructor
  · have hend := allow_end config now inner
    generalize inner.allow config now = result at hend ⊢
    cases hend <;> exact hlast
  · rw [recordSuccess]
    split <;> exact hlast

end BreakerInner

namespace LocalBreaker

variable {config : LocalBreakerConfig} {s t : LocalBreaker} {e : LocalBreakerEvent}

section

variable (s : LocalBreaker) (inner : BreakerInner) (admitted answered : Nat)

@[simp] lemma proceed_inner :
    (s.proceed inner admitted answered).inner = inner := by
  rw [proceed]
  split
  · rfl
  · split <;> rfl

@[simp] lemma proceed_clock :
    (s.proceed inner admitted answered).clock = s.clock := by
  rw [proceed]
  split
  · rfl
  · split <;> rfl

end

lemma eq_of_advance {d : ℚ} (h : breakerStep config s (.advance d) = some t) :
    0 ≤ d ∧ t = { s with clock := s.clock + d } := by
  obtain ⟨hd, ht⟩ := ite_none_right_eq_some.mp h
  exact ⟨hd, (some.inj ht).symm⟩

def Valid (config : LocalBreakerConfig) (s : LocalBreaker) : Prop :=
  s.inner.Valid config s.clock

lemma valid_init (config : LocalBreakerConfig) (start : ℚ) : (init start).Valid config :=
  ⟨by simp [init, new], by simp [init, new],
    by simp [init, new]⟩

lemma Valid.step (h : s.Valid config) (hmax : 1 ≤ config.halfOpenMax)
    (hstep : breakerStep config s e = some t) : t.Valid config := by
  cases e with
  | advance d =>
    obtain ⟨hd, rfl⟩ := eq_of_advance hstep
    refine ⟨?_, h.opened, h.halfOpen⟩
    intro last hlast
    exact (h.past last hlast).trans (le_add_of_nonneg_right hd)
  | allow =>
    obtain rfl := some.inj hstep
    rw [Valid, proceed_inner, proceed_clock]
    exact BreakerInner.Valid.allow h hmax
  | recordSuccess =>
    obtain rfl := some.inj hstep
    rw [Valid, proceed_inner, proceed_clock]
    exact BreakerInner.Valid.recordSuccess h
  | recordFailure =>
    obtain rfl := some.inj hstep
    rw [Valid, proceed_inner, proceed_clock]
    exact valid_recordFailure config s.clock s.inner

lemma valid_run (hmax : 1 ≤ config.halfOpenMax) {events : List LocalBreakerEvent}
    (h : s.Valid config) (hrun : run (breakerStep config) s events = some t) :
    t.Valid config :=
  invariant (fun _ _ _ h hstep => h.step hmax hstep) h hrun

lemma lastFailureTime_step (he : e ≠ .recordFailure)
    (hstep : breakerStep config s e = some t) :
    t.inner.lastFailureTime = s.inner.lastFailureTime := by
  obtain ⟨hallow, hsuccess⟩ := lastFailureTime_eq config s.clock s.inner
  cases e with
  | advance d =>
    obtain ⟨-, rfl⟩ := eq_of_advance hstep
    rfl
  | allow =>
    obtain rfl := some.inj hstep
    rw [proceed_inner]
    exact hallow
  | recordSuccess =>
    obtain rfl := some.inj hstep
    rw [proceed_inner]
    exact hsuccess
  | recordFailure => exact absurd rfl he

end LocalBreaker

open LocalBreaker

/-- An open breaker knows its last failure, and a half-open one admits the next call. Once the
waiting time has passed without a further failure, every breaker does. -/
theorem breaker_never_stuck (config : LocalBreakerConfig) (hmax : 1 ≤ config.halfOpenMax)
    (start : ℚ) (events : List LocalBreakerEvent) (s : LocalBreaker)
    (hrun : run (breakerStep config) (.init start) events = some s) :
    (s.inner.state = .opened → s.inner.lastFailureTime.isSome) ∧
    (s.inner.state = .halfOpen →
      s.inner.failureCount = 0 ∧ s.inner.successCount < config.halfOpenMax) ∧
    (s.inner.state = .halfOpen → (s.inner.allow config s.clock).2 = .ok ()) ∧
    ∀ (later : List LocalBreakerEvent) (t : LocalBreaker), (∀ e ∈ later, e ≠ .recordFailure) →
      run (breakerStep config) s later = some t → s.clock + config.wait ≤ t.clock →
        (t.inner.allow config t.clock).2 = .ok () := by
  have hvalid : s.Valid config := valid_run hmax (valid_init config start) hrun
  refine ⟨hvalid.opened, hvalid.halfOpen, ?_, ?_⟩
  · intro hhalf
    apply BreakerInner.Valid.allow_eq_ok hvalid
    intro hopened
    rw [hhalf] at hopened
    cases hopened
  · intro later t hlater hrun' hclock
    have hvalid' : t.Valid config := valid_run hmax hvalid hrun'
    have hlast : t.inner.lastFailureTime = s.inner.lastFailureTime := by
      refine history_induction (P := fun later t => (∀ e ∈ later, e ≠ .recordFailure) →
        t.inner.lastFailureTime = s.inner.lastFailureTime) (fun _ => rfl) ?_ hrun' hlater
      intro before u e v _ ih hstep hlater
      rw [List.forall_mem_append] at hlater
      exact (lastFailureTime_step (hlater.2 e List.mem_cons_self) hstep).trans (ih hlater.1)
    apply BreakerInner.Valid.allow_eq_ok hvalid'
    intro _ last hsome
    have hpast := hvalid.past last (hlast ▸ hsome)
    exact le_max_of_le_right (by linarith)

theorem breaker_never_stuck_after_failure : ∃ config s,
    run (breakerStep config) (.init 0) [.recordFailure] = some s ∧
    s.inner.state = .opened ∧
    ∀ t, run (breakerStep config) s [.advance 30] = some t →
      (t.inner.allow config t.clock).2 = .ok () := by
  have hopen : (run (breakerStep ⟨⟨10, 1 / 2, 1⟩, 30, 1⟩) (.init 0)
      [.recordFailure]).map (·.inner.state) = some .opened := by
    decide +kernel
  obtain ⟨s, hrun, hstate⟩ := Option.map_eq_some_iff.mp hopen
  refine ⟨_, s, hrun, hstate, ?_⟩
  intro t hadvance
  refine (breaker_never_stuck _ le_rfl 0 _ s hrun).2.2.2 [.advance 30] t (by simp) hadvance ?_
  obtain ⟨u, hu, hnil⟩ := run_cons_eq_some.mp hadvance
  obtain rfl : u = t := by simpa using hnil
  rw [(eq_of_advance hu).2]

/-! ### Probes -/

namespace BreakerInner

variable {config : LocalBreakerConfig} {now : ℚ} {inner : BreakerInner}

lemma refreshWindow_of_not_expired (h : ¬ inner.Expired config now) :
    inner.refreshWindow config now = inner := if_neg h

lemma allow_of_halfOpen (hhalf : inner.state = .halfOpen) (h : ¬ inner.Expired config now) :
    (inner.allow config now).1 = inner := by
  have hend := allow_end config now inner
  rw [refreshWindow_of_not_expired h] at hend
  generalize inner.allow config now = result at hend ⊢
  cases hend with
  | entered hstate hwait => cases hhalf.symm.trans hstate
  | closed | waiting | probing | full => rfl

lemma successCount_of_entered (hne : inner.state ≠ .halfOpen)
    (h : (inner.allow config now).1.state = .halfOpen) :
    (inner.allow config now).1.successCount = 0 := by
  obtain ⟨hsame, -, -, -⟩ := refreshWindow_spec config now inner
  have hend := allow_end config now inner
  generalize inner.allow config now = result at hend h ⊢
  cases hend with
  | entered hstate hwait => rfl
  | closed | waiting | probing | full => exact absurd (hsame.symm.trans h) hne

lemma recordSuccess_of_halfOpen (h : (inner.recordSuccess config now).state = .halfOpen) :
    inner.state = .halfOpen ∧ (¬ inner.Expired config now →
      (inner.recordSuccess config now).successCount = inner.successCount + 1) := by
  obtain ⟨hstate, -, -, -⟩ := refreshWindow_spec config now inner
  rw [recordSuccess] at h ⊢
  split at h
  · cases h
  · next hmore =>
    refine ⟨hstate.symm.trans h, ?_⟩
    intro hexpired
    rw [if_neg hmore, refreshWindow_of_not_expired hexpired]

end BreakerInner

namespace LocalBreaker

/-- While the breaker is half open, no call comes before all admitted ones have been answered, and
the window of the counts is not over at any call. -/
def Settled (config : LocalBreakerConfig) (s : LocalBreaker) : LocalBreakerEvent → Prop
  | .advance _ => True
  | .allow => s.inner.state = .halfOpen →
    s.admitted ≤ s.answered ∧ ¬ s.inner.Expired config s.clock
  | .recordSuccess | .recordFailure =>
    s.inner.state = .halfOpen → ¬ s.inner.Expired config s.clock

instance (config : LocalBreakerConfig) (s : LocalBreaker) :
    (e : LocalBreakerEvent) → Decidable (s.Settled config e)
  | .advance _ => isTrue trivial
  | .allow => inferInstanceAs (Decidable (s.inner.state = .halfOpen →
    s.admitted ≤ s.answered ∧ ¬ s.inner.Expired config s.clock))
  | .recordSuccess | .recordFailure => inferInstanceAs (Decidable (s.inner.state = .halfOpen →
    ¬ s.inner.Expired config s.clock))

def Probing (s : LocalBreaker) : Prop :=
  s.inner.state = .halfOpen → s.inner.successCount = s.answered ∧ s.admitted ≤ s.answered + 1

variable {config : LocalBreakerConfig} {s t : LocalBreaker} {e : LocalBreakerEvent}
  {inner : BreakerInner}

lemma proceed_of_entered (hs : s.inner.state ≠ .halfOpen) (h : inner.state = .halfOpen)
    (admitted answered : Nat) :
    s.proceed inner admitted answered = ⟨inner, s.clock, admitted, 0⟩ := by
  rw [proceed, if_neg (not_not_intro h), if_pos hs]

lemma proceed_of_halfOpen (hs : s.inner.state = .halfOpen) (h : inner.state = .halfOpen)
    (admitted answered : Nat) :
    s.proceed inner admitted answered =
      ⟨inner, s.clock, s.admitted + admitted, s.answered + answered⟩ := by
  rw [proceed, if_neg (not_not_intro h), if_neg (not_not_intro hs)]

lemma Probing.step (h : s.Probing) (hok : s.Settled config e)
    (hstep : breakerStep config s e = some t) : t.Probing := by
  cases e with
  | advance d =>
    obtain ⟨-, rfl⟩ := eq_of_advance hstep
    exact h
  | allow =>
    obtain rfl := some.inj hstep
    intro hhalf
    rw [proceed_inner] at hhalf
    have hone : (if (s.inner.allow config s.clock).2.isOk then 1 else 0) ≤ 1 := by split <;> simp
    by_cases hs : s.inner.state = .halfOpen
    · obtain ⟨hsettled, hexpired⟩ := hok hs
      obtain ⟨hcount, -⟩ := h hs
      have hsame := allow_of_halfOpen hs hexpired
      rw [proceed_of_halfOpen hs hhalf]
      refine ⟨?_, Nat.add_le_add hsettled hone⟩
      rw [hsame]
      exact hcount
    · rw [proceed_of_entered hs hhalf]
      exact ⟨successCount_of_entered hs hhalf, hone.trans (Nat.le_add_left 1 _)⟩
  | recordSuccess =>
    obtain rfl := some.inj hstep
    intro hhalf
    rw [proceed_inner] at hhalf
    obtain ⟨hs, hcount⟩ := recordSuccess_of_halfOpen hhalf
    obtain ⟨hsuccess, hadmitted⟩ := h hs
    rw [proceed_of_halfOpen hs hhalf]
    refine ⟨?_, by simp only; omega⟩
    simp only [hcount (hok hs), hsuccess]
  | recordFailure =>
    obtain rfl := some.inj hstep
    intro hhalf
    rw [proceed_inner] at hhalf
    exact absurd hhalf (recordFailure_spec config s.clock s.inner).2

end LocalBreaker

/-- In a run whose probes are settled one by one, a half-open breaker never admits more calls than
`half_open_max`, from the one that made it half open until it closes or opens again. -/
theorem halfOpen_admits_at_most_max (config : LocalBreakerConfig) (hmax : 1 ≤ config.halfOpenMax)
    (start : ℚ) (events : List LocalBreakerEvent)
    (hsettled : Meets (breakerStep config) (Settled config) (.init start) events) :
    Always (breakerStep config)
      (fun s => s.inner.state = .halfOpen → s.admitted ≤ config.halfOpenMax) (.init start)
      events := by
  intro before after s heq hrun hhalf
  have hvalid : s.Valid config := valid_run hmax (valid_init config start) hrun
  have hprobing : s.Probing := by
    rw [heq] at hsettled
    refine invariant_of_meets (fun _ _ _ h hok hstep => h.step hok hstep) ?_
      (meets_of_append hsettled) hrun
    intro hhalf
    cases hhalf
  obtain ⟨hcount, hadmitted⟩ := hprobing hhalf
  obtain ⟨-, hlt⟩ := hvalid.halfOpen hhalf
  omega

theorem halfOpen_admits_two_probes : ∃ config : LocalBreakerConfig, ∃ events,
    Meets (breakerStep config) (Settled config) (.init 0) events ∧
    (run (breakerStep config) (.init 0) events).map (·.admitted) = some 2 ∧
    Always (breakerStep config)
      (fun s => s.inner.state = .halfOpen → s.admitted ≤ config.halfOpenMax) (.init 0) events :=
  ⟨⟨⟨10, 1 / 2, 1⟩, 30, 2⟩, [.recordFailure, .advance 30, .allow, .recordSuccess, .allow],
    by decide +kernel, by decide +kernel,
    halfOpen_admits_at_most_max _ (by decide) 0 _ (by decide +kernel)⟩

/-- Calls that come before the first probe is answered are all admitted. -/
theorem halfOpen_admits_more_than_max :
    (run (breakerStep ⟨⟨10, 1 / 2, 1⟩, 30, 1⟩) (.init 0)
      [.recordFailure, .advance 30, .allow, .allow, .allow]).map
        (fun s => (s.inner.state, s.admitted)) = some (.halfOpen, 3) := by
  decide +kernel

/-! ### The breakers of the gateway

`BreakerFactoryImpl` keeps one for each node on each route, made when it is first asked for. -/

/-- A call on the breakers of a route's nodes: `get_or_create`, then `allow` or a record. -/
structure BreakerCall where
  routeId : Nat
  nodeId : Nat
  /-- What `record_result` is told, or nothing for `check_circuit_breaker`. -/
  success : Option Bool
  -- the clock at `get_or_create` and at the call that follows
  found : ℚ
  now : ℚ

def breakerFactory (breakerEnabled : Bool) (config : LocalBreakerConfig) :
    Keyed (Nat × Nat) BreakerInner BreakerCall (Result Unit) where
  idle _ := if breakerEnabled then none else some (.ok ())
  key c := (c.routeId, c.nodeId)
  start c := .new c.found
  turn inner c := some <| match c.success with
    | none       => inner.allow config c.now
    | some true  => (inner.recordSuccess config c.now, .ok ())
    | some false => (inner.recordFailure config c.now, .ok ())

end Conrogate
