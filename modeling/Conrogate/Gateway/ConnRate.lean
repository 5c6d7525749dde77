import Conrogate.Gateway.Filter
import Conrogate.Lib.Transition
import Conrogate.Protocol.Tcp
import Conrogate.Traffic.TokenRate

/-!
# The rate of new tunnels

Before a tunnel is opened, `check_rate_limit` is asked about a route that does not exist. Its limits
are those of every other request; `conn_qps` only says whether it is asked.
-/

namespace Conrogate

open List TcpTunnelProtocolHandler Transition

/-! ### The levels of a check -/

def sharedLimits (tc : TrafficControlAdapter) (routeId : Nat) : List (String × Nat) :=
  (if tc.globalQps > 0 then [(globalKey, tc.globalQps)] else []) ++
  (if tc.routeQps > 0 then [(routeKey routeId, tc.routeQps)] else [])

def limitsOf (tc : TrafficControlAdapter) (routeId : Nat) (client : String) :
    List (String × Nat) :=
  if tc.rateLimitEnabled then
    sharedLimits tc routeId ++ (if tc.ipQps > 0 then [(ipKey routeId client, tc.ipQps)] else [])
  else []

/-- These are the levels at which `check_rate_limit` asks. -/
lemma map_rateLevels {tc : TrafficControlAdapter} (henabled : tc.rateLimitEnabled = true)
    (routeId : Nat) (client : String) (envs : RateLimitEnvs) :
    (rateLevels tc routeId client envs).map (fun l => (l.key, l.limit)) =
      limitsOf tc routeId client := by
  rw [rateLevels, limitsOf, if_pos henabled, sharedLimits]
  simp only [map_append]
  congr 1
  · congr 1 <;> split_ifs <;> rfl
  · split_ifs <;> rfl

def connClient (listenAddr : String) : String := "conn:" ++ listenAddr

def connKey (listenAddr : String) : String :=
  ipKey connLimitRoute (connClient listenAddr)

lemma ipKey_inj {a b : Nat} {x y : String} (h : ipKey a x = ipKey b y) : a = b ∧ x = y := by
  have htext := congrArg String.toList h
  simp only [ipKey, String.toList_append, append_assoc, append_cancel_left_eq] at htext
  obtain ⟨hnumber, hclient⟩ := cons_append_inj (c := ':')
    (notMem_toString_of_not_isDigit (by decide) a) (notMem_toString_of_not_isDigit (by decide) b)
    htext
  exact ⟨toString_nat_injective hnumber, String.toList_inj.mp hclient⟩

section

variable {tc : TrafficControlAdapter} {routeId : Nat} {l : String × Nat}

lemma ne_ipKey_of_mem_sharedLimits (hl : l ∈ sharedLimits tc routeId) (id : Nat) (client : String) :
    l.1 ≠ ipKey id client := by
  rcases mem_append.mp hl with hl | hl
  · split_ifs at hl
    · obtain rfl := mem_singleton.mp hl
      exact globalKey_ne_ipKey id client
    · cases hl
  · split_ifs at hl
    · obtain rfl := mem_singleton.mp hl
      exact routeKey_ne_ipKey routeId id client
    · cases hl

lemma ne_connKey_of_mem {client listenAddr : String}
    (hother : (routeId, client) ≠ (connLimitRoute, connClient listenAddr))
    (hl : l ∈ limitsOf tc routeId client) : l.1 ≠ connKey listenAddr := by
  rw [limitsOf] at hl
  cases henabled : tc.rateLimitEnabled with
  | false => simp [henabled] at hl
  | true =>
    rw [if_pos henabled] at hl
    rcases mem_append.mp hl with hl | hl
    · exact ne_ipKey_of_mem_sharedLimits hl _ _
    · split_ifs at hl
      · obtain rfl := mem_singleton.mp hl
        intro heq
        obtain ⟨hroute, hclient⟩ := ipKey_inj heq
        exact hother (Prod.ext hroute hclient)
      · cases hl

end

/-! ### Tunnels that are checked -/

/-- A tunnel asks the limits of its levels one by one. -/
inductive TunnelStage where
  | asking (todo : List (String × Nat))
  | passed
  | refused

/-- `log` has the answers of the limit on connections. -/
structure ConnLimiter where
  limiter : LimiterState
  now : ℚ
  tunnels : List TunnelStage
  log : List (ℚ × Bool)

open ConnLimiter

inductive ConnEvent where
  | connect
  | ask (i : Nat) (env : AcquireEnv)
  | other (routeId : Nat) (client : String) (level : Nat) (env : AcquireEnv)

namespace ConnLimiter

def new (now : ℚ) : ConnLimiter := ⟨⟨fun _ => none, fun _ => none⟩, now, [], []⟩

variable (tc : TrafficControlAdapter) (connQps : Nat) (listenAddr : String)

def connLevels : List (String × Nat) :=
  if connQps > 0 then
    limitsOf tc connLimitRoute (connClient listenAddr)
  else []

def answered (s : ConnLimiter) (i : Nat) (todo : List (String × Nat)) (clock : ℚ) :
    EStateM.Result ConrogateError LimiterState PUnit → ConnLimiter
  | .ok _ limiter =>
    if todo.isEmpty then
      ⟨limiter, clock, s.tunnels.set i .passed, s.log ++ [(clock, true)]⟩
    else ⟨limiter, clock, s.tunnels.set i (.asking todo), s.log⟩
  | .error _ limiter => ⟨limiter, clock, s.tunnels.set i .refused, s.log ++ [(clock, false)]⟩

/-- The clock of the buckets never runs back. -/
def step (s : ConnLimiter) : ConnEvent → Option ConnLimiter
  | .connect =>
    some { s with tunnels := s.tunnels ++ [.asking (connLevels tc connQps listenAddr)] }
  | .ask i env =>
    let clock := env.clock tc.cluster
    if clock < s.now then none
    else match s.tunnels[i]? with
      | some (.asking []) =>
        some { s with
          now := clock
          tunnels := s.tunnels.set i .passed
          log := s.log ++ [(clock, true)] }
      | some (.asking ((key, limit) :: todo)) =>
        some (s.answered i todo clock ((acquire tc.cluster key limit 1 env).run s.limiter))
      | _ => none
  | .other routeId client level env =>
    let clock := env.clock tc.cluster
    if clock < s.now then none
    else if
        (routeId, client) = (connLimitRoute, connClient listenAddr) then
      none
    else match (limitsOf tc routeId client)[level]? with
      | none => none
      | some (key, limit) => some { s with
          limiter := Proc.state ((acquire tc.cluster key limit 1 env).run s.limiter)
          now := clock }

/-- The tunnels that pass within any span of time are bounded by the rate, and no tunnel is refused
unless the rate was used up in the second before. -/
def RateKept (s : ConnLimiter) : Prop :=
  (∀ a T : ℚ, 0 ≤ T →
    (Meter.grants (fun t => a ≤ t ∧ t ≤ a + T) s.log : ℚ) ≤ connQps + connQps * T + 1) ∧
  ∀ before t after, s.log = before ++ (t, false) :: after →
    connQps ≤ Meter.grants (fun x => t - 1 < x ∧ x ≤ t) before

/-- When a tunnel asks: the limits of the gateway and of the route have a token for it, and the key
of new tunnels is not given away for free, as it is by a full bucket of the process and by Redis
when it does not answer. -/
def Governed (s : ConnLimiter) : ConnEvent → Prop
  | .ask i env => ∀ key limit todo, s.tunnels[i]? = some (.asking ((key, limit) :: todo)) →
    if key = connKey listenAddr then ¬ FreePass tc.cluster key env s.limiter
    else FreePass tc.cluster key env s.limiter ∨
      1 ≤ available tc.cluster key limit 1 env s.limiter
  | _ => True

instance decidableGoverned (s : ConnLimiter) :
    ∀ event, Decidable (s.Governed tc listenAddr event)
  | .connect => isTrue trivial
  | .other .. => isTrue trivial
  | .ask i env =>
    match hi : s.tunnels[i]? with
    | some (.asking ((key, limit) :: _)) =>
      decidable_of_iff
        (if key = connKey listenAddr then ¬ FreePass tc.cluster key env s.limiter
          else FreePass tc.cluster key env s.limiter ∨
            1 ≤ available tc.cluster key limit 1 env s.limiter)
        (by simp [Governed, hi])
    | some (.asking []) => isTrue (by simp [Governed, hi])
    | some .passed => isTrue (by simp [Governed, hi])
    | some .refused => isTrue (by simp [Governed, hi])
    | none => isTrue (by simp [Governed, hi])

/-- The bucket of the listener has granted what `log` says. -/
structure Exact (s : ConnLimiter) : Prop where
  bucket : ∃ tokens last, last ≤ s.now ∧
    Holds tc.cluster (connKey listenAddr) connQps s.limiter tokens last ∧
    Meter.Tracks (connQps : ℚ) connQps s.log tokens last
  metered : Meter.Metered (connQps : ℚ) connQps s.log
  tunnels : ∀ todo, .asking todo ∈ s.tunnels → ∃ shared,
    todo = shared ++ [(connKey listenAddr, connQps)] ∧
      ∀ l ∈ shared, l.1 ≠ connKey listenAddr

variable {tc connQps listenAddr} {s t : ConnLimiter}

lemma exact_new (now : ℚ) : (new now).Exact tc connQps listenAddr where
  bucket := by
    refine ⟨connQps, now, le_rfl, ?_, .start (Nat.cast_nonneg _) (Nat.cast_nonneg _) now⟩
    cases hcluster : tc.cluster <;> simp [Holds, new]
  metered := .nil (Nat.cast_nonneg _) (Nat.cast_nonneg _)
  tunnels := nofun

section

variable (h : s.Exact tc connQps listenAddr)
include h

lemma Exact.connect (henabled : tc.rateLimitEnabled = true) (hq : 0 < connQps)
    (hip : tc.ipQps = connQps) (hstep : step tc connQps listenAddr s .connect = some t) :
    t.Exact tc connQps listenAddr := by
  cases hstep
  refine ⟨h.bucket, h.metered, ?_⟩
  intro todo hmem
  rcases mem_append.mp hmem with hmem | hmem
  · exact h.tunnels todo hmem
  · obtain rfl := TunnelStage.asking.inj (mem_singleton.mp hmem)
    refine ⟨sharedLimits tc connLimitRoute, ?_, ?_⟩
    · rw [connLevels, if_pos hq, limitsOf, if_pos henabled, if_pos (hip ▸ hq), hip]
      rfl
    · exact fun l hl => ne_ipKey_of_mem_sharedLimits hl _ _

lemma Exact.bucket_of_ne {key : String} (limit : Nat) {env : AcquireEnv}
    (hne : key ≠ connKey listenAddr) (hclock : s.now ≤ env.clock tc.cluster) :
    ∃ tokens last, last ≤ env.clock tc.cluster ∧
      Holds tc.cluster (connKey listenAddr) connQps
        (Proc.state ((acquire tc.cluster key limit 1 env).run s.limiter)) tokens last ∧
      Meter.Tracks (connQps : ℚ) connQps s.log tokens last := by
  obtain ⟨tokens, last, hlast, hholds, htracks⟩ := h.bucket
  refine ⟨tokens, last, hlast.trans hclock, hholds.congr ?_, htracks⟩
  cases hcall : (acquire tc.cluster key limit 1 env).run s.limiter with
  | ok _ limiter => exact (acquire_sameKey hne.symm).1 limiter hcall
  | error e limiter => exact (acquire_sameKey hne.symm).2 e limiter hcall

lemma Exact.other {routeId level : Nat} {client : String} {env : AcquireEnv}
    (hstep : step tc connQps listenAddr s (.other routeId client level env) = some t) :
    t.Exact tc connQps listenAddr := by
  rw [step] at hstep
  split_ifs at hstep with hclock hother
  cases hlevel : (limitsOf tc routeId client)[level]? with
  | none => simp [hlevel] at hstep
  | some l =>
    simp only [hlevel] at hstep
    cases hstep
    have hne := ne_connKey_of_mem hother (mem_of_getElem? hlevel)
    exact ⟨h.bucket_of_ne l.2 hne (not_lt.mp hclock), h.metered, h.tunnels⟩

lemma Exact.tunnels_set {i : Nat} {stage : TunnelStage}
    (hstage : ∀ todo, stage = .asking todo → ∃ shared,
      todo = shared ++ [(connKey listenAddr, connQps)] ∧
        ∀ l ∈ shared, l.1 ≠ connKey listenAddr) :
    ∀ todo, .asking todo ∈ s.tunnels.set i stage → ∃ shared,
      todo = shared ++ [(connKey listenAddr, connQps)] ∧
        ∀ l ∈ shared, l.1 ≠ connKey listenAddr := by
  intro todo hmem
  rcases mem_or_eq_of_mem_set hmem with hmem | heq
  · exact h.tunnels todo hmem
  · exact hstage todo heq.symm

lemma Exact.decided (hq : 0 < connQps) {i : Nat} {env : AcquireEnv}
    (hclock : s.now ≤ env.clock tc.cluster)
    (hfree : ¬ FreePass tc.cluster (connKey listenAddr) env s.limiter) :
    (s.answered i [] (env.clock tc.cluster)
      ((acquire tc.cluster (connKey listenAddr) connQps 1 env).run s.limiter)).Exact
        tc connQps listenAddr := by
  have hrate : (0 : ℚ) < connQps := by exact_mod_cast hq
  obtain ⟨tokens, last, hlast, hholds, htracks⟩ := h.bucket
  have hwait := htracks.wait hrate.le (hlast.trans hclock)
  rw [← hholds.available_eq (hlast.trans hclock)] at hwait
  obtain ⟨htoken, limiter, hcall, hafter⟩ | ⟨hnone, limiter, hcall, hafter⟩ :=
    hholds.charged hq hfree hwait.nonneg
  · rw [hcall]
    exact ⟨⟨_, _, le_rfl, hafter, hwait.grant htoken⟩, h.metered.grant hwait hrate.le htoken,
      h.tunnels_set nofun⟩
  · rw [hcall]
    exact ⟨⟨_, _, le_rfl, hafter, hwait.refuse⟩, h.metered.refuse hwait hrate hnone,
      h.tunnels_set nofun⟩

lemma Exact.shared {i limit : Nat} {key : String} {env : AcquireEnv} {shared : List (String × Nat)}
    (hclock : s.now ≤ env.clock tc.cluster) (hne : key ≠ connKey listenAddr)
    (hshared : ∀ l ∈ shared, l.1 ≠ connKey listenAddr)
    (htoken : FreePass tc.cluster key env s.limiter ∨
      1 ≤ available tc.cluster key limit 1 env s.limiter) :
    (s.answered i (shared ++ [(connKey listenAddr, connQps)]) (env.clock tc.cluster)
      ((acquire tc.cluster key limit 1 env).run s.limiter)).Exact tc connQps listenAddr := by
  have hbucket := h.bucket_of_ne limit hne hclock
  obtain ⟨limiter, hcall⟩ := acquire_granted htoken
  rw [hcall] at hbucket ⊢
  have hmore : (shared ++ [(connKey listenAddr, connQps)]).isEmpty = false := by simp
  rw [answered, hmore]
  refine ⟨hbucket, h.metered, h.tunnels_set ?_⟩
  intro todo heq
  cases heq
  exact ⟨shared, rfl, hshared⟩

lemma Exact.ask (hq : 0 < connQps) {i : Nat} {env : AcquireEnv}
    (hgoverned : s.Governed tc listenAddr (.ask i env))
    (hstep : step tc connQps listenAddr s (.ask i env) = some t) :
    t.Exact tc connQps listenAddr := by
  rw [step] at hstep
  split_ifs at hstep with hclock
  have hclock := not_lt.mp hclock
  cases hi : s.tunnels[i]? with
  | none => simp [hi] at hstep
  | some stage =>
    cases stage with
    | passed => simp [hi] at hstep
    | refused => simp [hi] at hstep
    | asking todo =>
      obtain ⟨shared, rfl, hshared⟩ := h.tunnels todo (mem_of_getElem? hi)
      cases shared with
      | nil =>
        simp only [hi, nil_append] at hstep
        have hfree := hgoverned _ _ _ hi
        rw [if_pos rfl] at hfree
        exact Option.some.inj hstep ▸ h.decided hq hclock hfree
      | cons l shared =>
        have hne := hshared l mem_cons_self
        simp only [hi, cons_append] at hstep
        have htoken := hgoverned _ _ _ hi
        rw [if_neg hne] at htoken
        exact Option.some.inj hstep ▸ h.shared hclock hne
          (fun l' hl' => hshared l' (mem_cons_of_mem l hl')) htoken

lemma Exact.step (henabled : tc.rateLimitEnabled = true) (hq : 0 < connQps)
    (hip : tc.ipQps = connQps) (event : ConnEvent) (hgoverned : s.Governed tc listenAddr event)
    (hstep : step tc connQps listenAddr s event = some t) :
    t.Exact tc connQps listenAddr := by
  cases event with
  | connect => exact h.connect henabled hq hip hstep
  | ask i env => exact h.ask hq hgoverned hstep
  | other routeId client level env => exact h.other hstep

lemma Exact.rateKept (hq : 0 < connQps) :
    s.RateKept connQps := by
  have hrate : (connQps : ℚ) ≠ 0 := by exact_mod_cast hq.ne'
  constructor
  · intro a T hT
    have hbounded := h.metered.bounded a (a + T) (by linarith)
    rw [add_sub_cancel_left] at hbounded
    linarith
  · intro before t after hlog
    have hrefused := h.metered.refused before (t, false) after hlog rfl
    rw [div_self hrate] at hrefused
    have hcount : connQps < Meter.grants (fun x => t - 1 < x ∧ x ≤ t) before + 1 := by
      exact_mod_cast hrefused
    omega

end

/-- Where the limit on clients has the value of `conn_qps`, and no tunnel is held up by another
limit or passed for free, the tunnels of an address come at that rate. -/
theorem conn_rate_kept (tc : TrafficControlAdapter) (connQps : Nat) (listenAddr : String)
    (henabled : tc.rateLimitEnabled = true) (hq : 0 < connQps) (hip : tc.ipQps = connQps)
    (start : ℚ) (events : List ConnEvent)
    (hrun : run (step tc connQps listenAddr) (new start) events = some s)
    (hgoverned : Meets (step tc connQps listenAddr)
      (Governed tc listenAddr) (new start) events) : s.RateKept connQps := by
  have hexact : s.Exact tc connQps listenAddr :=
    invariant_of_meets
      (fun s event t hs hok hnext => hs.step henabled hq hip event hok hnext)
      (exact_new start) hgoverned hrun
  exact hexact.rateKept hq

/-- Tunnels that are opened together and then ask, one after the other, at these times. -/
def askingAt (times : List ℚ) : List ConnEvent :=
  times.map (fun _ => .connect) ++ times.mapIdx fun i now => .ask i ⟨now, now * 1000, .answered⟩

theorem conn_rate_kept_two_tunnels :
    let tc : TrafficControlAdapter := ⟨true, 0, 0, 1, false⟩
    let next := step tc 1 "0.0.0.0:9000"
    tc.rateLimitEnabled = true ∧ 0 < 1 ∧ tc.ipQps = 1 ∧
    Meets next (Governed tc "0.0.0.0:9000") (new 0) (askingAt [0, 0]) ∧
    ∃ s, run next (new 0) (askingAt [0, 0]) = some s ∧
      s.log = [(0, true), (0, false)] ∧ s.RateKept 1 := by
  intro tc next
  have hmeets : Meets next (Governed tc "0.0.0.0:9000") (new 0) (askingAt [0, 0]) := by
    decide +kernel
  obtain ⟨s, hrun, hlog⟩ : ∃ s ∈ run next (new 0) (askingAt [0, 0]),
      s.log = [(0, true), (0, false)] := by decide +kernel
  exact ⟨rfl, one_pos, rfl, hmeets, s, hrun, hlog,
    conn_rate_kept tc 1 "0.0.0.0:9000" rfl one_pos rfl 0 _ hrun hmeets⟩

/-- Without a limit on clients every tunnel passes; with another limit on clients it refuses at that
limit; and with an equal one, a bucket that is full again gives a tunnel away. -/
theorem conn_qps_is_only_a_switch :
    let asked : Nat → Nat → List ℚ → Option ConnLimiter := fun ipQps connQps times =>
      run (step ⟨true, 0, 0, ipQps, false⟩ connQps "0.0.0.0:9000") (new 0)
        (askingAt times)
    (∃ s, asked 0 1 [0, 0, 0] = some s ∧ s.log = [(0, true), (0, true), (0, true)] ∧
      ¬ s.RateKept 1) ∧
    (∃ s, asked 1 100 [0, 0] = some s ∧ s.log = [(0, true), (0, false)] ∧ ¬ s.RateKept 100) ∧
    ∃ s, asked 1 1 [0, 1, 1, 2, 2] = some s ∧
      s.log = [(0, true), (1, true), (1, true), (2, true), (2, true)] ∧ ¬ s.RateKept 1 := by
  intro asked
  refine ⟨?_, ?_, ?_⟩
  · obtain ⟨s, hrun, hlog⟩ : ∃ s ∈ asked 0 1 [0, 0, 0],
        s.log = [(0, true), (0, true), (0, true)] := by decide +kernel
    refine ⟨s, hrun, hlog, fun h => absurd (h.1 0 0 le_rfl) ?_⟩
    rw [hlog]
    decide +kernel
  · obtain ⟨s, hrun, hlog⟩ : ∃ s ∈ asked 1 100 [0, 0], s.log = [(0, true), (0, false)] := by
      decide +kernel
    exact ⟨s, hrun, hlog, fun h => absurd (h.2 [(0, true)] 0 [] hlog) (by decide +kernel)⟩
  · obtain ⟨s, hrun, hlog⟩ : ∃ s ∈ asked 1 1 [0, 1, 1, 2, 2],
        s.log = [(0, true), (1, true), (1, true), (2, true), (2, true)] := by decide +kernel
    refine ⟨s, hrun, hlog, fun h => absurd (h.1 0 2 zero_le_two) ?_⟩
    rw [hlog]
    decide +kernel

end ConnLimiter

end Conrogate
