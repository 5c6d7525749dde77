import Conrogate.Traffic.Limiter

/-!
# Rate limits of a request

`TrafficControlAdapter::check_rate_limit` asks the limiter up to three times: for the whole
gateway, for the route, and for the client on the route.
-/

namespace Conrogate

open List Proc

structure TrafficControlAdapter where
  rateLimitEnabled : Bool
  globalQps : Nat
  routeQps : Nat
  ipQps : Nat
  cluster : Bool

structure RateLimitEnvs where
  global : AcquireEnv
  route : AcquireEnv
  ip : AcquireEnv

def globalKey : String := "rate:global"

def routeKey (routeId : Nat) : String := "rate:route:" ++ toString routeId

def ipKey (routeId : Nat) (clientIp : String) : String :=
  "rate:" ++ toString routeId ++ ":" ++ clientIp

def checkRateLimit (tc : TrafficControlAdapter) (routeId : Nat) (clientIp : String)
    (envs : RateLimitEnvs) : EStateM ConrogateError LimiterState PUnit := do
  if tc.rateLimitEnabled then
    if tc.globalQps > 0 then
      acquire tc.cluster globalKey tc.globalQps 1 envs.global
    if tc.routeQps > 0 then
      acquire tc.cluster (routeKey routeId) tc.routeQps 1 envs.route
    if tc.ipQps > 0 then
      acquire tc.cluster (ipKey routeId clientIp) tc.ipQps 1 envs.ip

/-! ### The levels -/

structure RateLevel where
  key : String
  limit : Nat
  env : AcquireEnv

def rateLevels (tc : TrafficControlAdapter) (routeId : Nat) (clientIp : String)
    (envs : RateLimitEnvs) : List RateLevel :=
  (if tc.globalQps > 0 then [⟨globalKey, tc.globalQps, envs.global⟩] else []) ++
  (if tc.routeQps > 0 then [⟨routeKey routeId, tc.routeQps, envs.route⟩] else []) ++
  (if tc.ipQps > 0 then [⟨ipKey routeId clientIp, tc.ipQps, envs.ip⟩] else [])

def RateLevel.acquire (cluster : Bool) (l : RateLevel) :
    EStateM ConrogateError LimiterState PUnit :=
  Conrogate.acquire cluster l.key l.limit 1 l.env

def RateLevel.available (cluster : Bool) (l : RateLevel) (s : LimiterState) : ℚ :=
  Conrogate.available cluster l.key l.limit 1 l.env s

lemma checkRateLimit_eq_forM {tc : TrafficControlAdapter} (henabled : tc.rateLimitEnabled = true)
    (routeId : Nat) (clientIp : String) (envs : RateLimitEnvs) :
    checkRateLimit tc routeId clientIp envs =
      forM (rateLevels tc routeId clientIp envs) (RateLevel.acquire tc.cluster) := by
  rw [checkRateLimit, rateLevels]
  simp only [henabled, if_true]
  by_cases h₁ : tc.globalQps > 0 <;> by_cases h₂ : tc.routeQps > 0 <;>
    by_cases h₃ : tc.ipQps > 0 <;> simp [h₁, h₂, h₃, RateLevel.acquire]

lemma exists_digit_toList_toString (n : Nat) :
    ∃ c rest, (toString n).toList = c :: rest ∧ c.isDigit = true := by
  have hrepr : (toString n).toList = Nat.toDigits 10 n := by
    simp [Nat.repr, toString]
  cases hd : Nat.toDigits 10 n with
  | nil => exact absurd hd Nat.toDigits_ne_nil
  | cons c rest =>
    refine ⟨c, rest, by rw [hrepr, hd], ?_⟩
    apply Nat.isDigit_of_mem_toDigits (b := 10) (n := n) (by decide) (by decide)
    rw [hd]
    exact mem_cons_self

lemma ipKey_fifth (routeId : Nat) (client : String) :
    ∃ c, (ipKey routeId client).toList[5]? = some c ∧ c.isDigit = true := by
  obtain ⟨c, rest, hdigits, hc⟩ := exists_digit_toList_toString routeId
  refine ⟨c, ?_, hc⟩
  simp only [ipKey, String.toList_append, hdigits]
  rfl

lemma globalKey_ne_ipKey (routeId : Nat) (client : String) : globalKey ≠ ipKey routeId client := by
  intro h
  obtain ⟨c, hfifth, hc⟩ := ipKey_fifth routeId client
  rw [← h] at hfifth
  cases hfifth
  exact absurd hc (by decide)

lemma routeKey_ne_ipKey (other routeId : Nat) (client : String) :
    routeKey other ≠ ipKey routeId client := by
  intro h
  obtain ⟨c, hfifth, hc⟩ := ipKey_fifth routeId client
  rw [← h] at hfifth
  simp only [routeKey, String.toList_append] at hfifth
  cases hfifth
  exact absurd hc (by decide)

lemma rateLevels_keys_nodup (tc : TrafficControlAdapter) (routeId : Nat) (clientIp : String)
    (envs : RateLimitEnvs) :
    ((rateLevels tc routeId clientIp envs).map (·.key)).Nodup := by
  have hglobal := globalKey_ne_ipKey routeId clientIp
  have hroute := routeKey_ne_ipKey routeId routeId clientIp
  have hfirst : globalKey ≠ routeKey routeId := by
    intro h
    have := congrArg (fun s => s.toList[5]?) h
    simp only [routeKey, String.toList_append] at this
    exact absurd this (by simp [globalKey])
  rw [rateLevels]
  by_cases h₁ : tc.globalQps > 0 <;> by_cases h₂ : tc.routeQps > 0 <;>
    by_cases h₃ : tc.ipQps > 0 <;> simp [h₁, h₂, h₃, hglobal, hroute, hfirst]

/-! ### A refused request -/

lemma FreePass.congr {cluster : Bool} {key : String} {env : AcquireEnv} {s t : LimiterState}
    (hsame : SameKey cluster key s t) (h : FreePass cluster key env t) :
    FreePass cluster key env s := by
  cases cluster with
  | true => exact h
  | false =>
    obtain ⟨b, hb, hfull⟩ := h
    exact ⟨b, Eq.trans hsame hb, hfull⟩

lemma forM_acquire_ok {cluster : Bool} {levels : List RateLevel} {s t : LimiterState}
    (hkeys : (levels.map (·.key)).Nodup)
    (h : (forM levels (RateLevel.acquire cluster)).run s = .ok ⟨⟩ t) :
    (∀ l ∈ levels, FreePass cluster l.key l.env s ∨
      l.available cluster t = l.available cluster s - 1) ∧
    ∀ key, key ∉ levels.map (·.key) → SameKey cluster key s t := by
  induction levels generalizing s with
  | nil =>
    cases h
    refine ⟨by simp, ?_⟩
    intro key _
    cases cluster <;> rfl
  | cons l levels ih =>
    rw [forM_cons] at h
    obtain ⟨_, u, hl, hrest⟩ := run_bind_eq_ok.mp h
    rw [map_cons, nodup_cons] at hkeys
    obtain ⟨hnew, hkeys⟩ := hkeys
    obtain ⟨hcharged, hframe⟩ := ih hkeys hrest
    constructor
    · intro m hm
      rcases mem_cons.mp hm with rfl | hm
      · -- the later levels have other keys
        have hsame := hframe m.key hnew
        rcases acquire_ok hl with hfree | hone
        · exact .inl hfree
        · right
          rw [RateLevel.available, ← hsame.available_eq]
          exact hone
      · have hne : m.key ≠ l.key := by
          intro heq
          exact hnew (heq ▸ mem_map_of_mem hm)
        have hsame := (acquire_sameKey hne).1 u hl
        rcases hcharged m hm with hfree | hone
        · exact .inl (hfree.congr hsame)
        · right
          simp only [RateLevel.available] at *
          rw [hsame.available_eq]
          exact hone
    · intro key hkey
      rw [map_cons, mem_cons, not_or] at hkey
      exact ((acquire_sameKey hkey.1).1 u hl).trans (hframe key hkey.2)

/-- A request is refused by the last level it asks. That level keeps its tokens and the later ones
are not touched, but each level before it has lost a token, unless the call was a free pass. -/
theorem checkRateLimit_refused (tc : TrafficControlAdapter) (routeId : Nat) (clientIp : String)
    (envs : RateLimitEnvs) (s t : LimiterState) (e : ConrogateError)
    (h : (checkRateLimit tc routeId clientIp envs).run s = .error e t) :
    e = .rateLimited ∧
    ∃ before refused after, rateLevels tc routeId clientIp envs = before ++ refused :: after ∧
      (∀ l ∈ before, FreePass tc.cluster l.key l.env s ∨
        l.available tc.cluster t = l.available tc.cluster s - 1) ∧
      refused.available tc.cluster t = refused.available tc.cluster s ∧
      ∀ key, key ∉ before.map (·.key) → key ≠ refused.key → SameKey tc.cluster key s t := by
  have henabled : tc.rateLimitEnabled = true := by
    by_contra hoff
    simp only [checkRateLimit, hoff] at h
    cases h
  rw [checkRateLimit_eq_forM henabled] at h
  obtain ⟨before, refused, after, u, hlevels, hok, herr⟩ := run_forM_eq_error.mp h
  have hnodup := rateLevels_keys_nodup tc routeId clientIp envs
  rw [hlevels, map_append, map_cons, nodup_append] at hnodup
  obtain ⟨hbefore, -, hdisjoint⟩ := hnodup
  obtain ⟨hcharged, hframe⟩ := forM_acquire_ok hbefore hok
  obtain ⟨rfl, hkept⟩ := acquire_error herr
  have hnot : refused.key ∉ before.map (·.key) := by
    intro hmem
    exact hdisjoint _ hmem _ mem_cons_self rfl
  refine ⟨rfl, before, refused, after, hlevels, ?_, ?_, ?_⟩
  · intro l hl
    have hne : l.key ≠ refused.key := by
      intro heq
      exact hnot (heq ▸ mem_map_of_mem hl)
    have hsame := (acquire_sameKey hne).2 _ _ herr
    rcases hcharged l hl with hfree | hone
    · exact .inl hfree
    · right
      simp only [RateLevel.available] at *
      rw [← hsame.available_eq]
      exact hone
  · simp only [RateLevel.available]
    rw [(hframe refused.key hnot).available_eq]
    exact hkept
  · intro key hkey hne
    exact (hframe key hkey).trans ((acquire_sameKey hne).2 _ _ herr)

theorem checkRateLimit_refused_at_ip :
    let tc : TrafficControlAdapter := ⟨true, 10, 0, 1, false⟩
    let s : LimiterState :=
      ⟨fun k => if k = "rate:7:1.2.3.4" then some ⟨0, 1, 1, 0⟩ else none, fun _ => none⟩
    let env : AcquireEnv := ⟨0, 0, .answered⟩
    ∃ t, (checkRateLimit tc 7 "1.2.3.4" ⟨env, env, env⟩).run s = .error .rateLimited t ∧
      ∃ before refused after,
        rateLevels tc 7 "1.2.3.4" ⟨env, env, env⟩ = before ++ refused :: after ∧
        (∀ l ∈ before, FreePass tc.cluster l.key l.env s ∨
          l.available tc.cluster t = l.available tc.cluster s - 1) ∧
        refused.available tc.cluster t = refused.available tc.cluster s ∧
        ∀ key, key ∉ before.map (·.key) → key ≠ refused.key → SameKey tc.cluster key s t := by
  intro tc s env
  have hfail : failure ((checkRateLimit tc 7 "1.2.3.4" ⟨env, env, env⟩).run s) =
      some .rateLimited := by decide +kernel
  refine ⟨_, eq_error_of_failure hfail, ?_⟩
  exact (checkRateLimit_refused tc 7 "1.2.3.4" ⟨env, env, env⟩ s _ .rateLimited
    (eq_error_of_failure hfail)).2

/-- The refused request has taken a token from everybody's budget. -/
theorem checkRateLimit_refused_costs_global_token :
    let tc : TrafficControlAdapter := ⟨true, 10, 0, 1, false⟩
    let s : LimiterState :=
      ⟨fun k => if k = "rate:7:1.2.3.4" then some ⟨0, 1, 1, 0⟩ else none, fun _ => none⟩
    let env : AcquireEnv := ⟨0, 0, .answered⟩
    let r := (checkRateLimit tc 7 "1.2.3.4" ⟨env, env, env⟩).run s
    failure r = some .rateLimited ∧
    available tc.cluster globalKey 10 1 env s = 10 ∧
    available tc.cluster globalKey 10 1 env (state r) = 9 := by
  decide +kernel

end Conrogate
