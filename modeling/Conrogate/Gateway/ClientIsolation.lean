import Conrogate.Gateway.ConnRate

/-!
# Clients do not count for each other

With a limit for clients only, `check_rate_limit` asks for one key, from which the route and the
name of the client can be read off.
-/

namespace Conrogate

open LimiterState

structure RateCheck where
  routeId : Nat
  clientIp : String
  envs : RateLimitEnvs

namespace RateCheck

def results (tc : TrafficControlAdapter) :
    LimiterState → List RateCheck → List (RateCheck × Result Unit)
  | _, [] => []
  | s, c :: cs =>
    match (checkRateLimit tc c.routeId c.clientIp c.envs).run s with
    | .ok _ t    => (c, .ok ()) :: results tc t cs
    | .error e t => (c, .error e) :: results tc t cs

def isOf (routeId : Nat) (clientIp : String) (c : RateCheck) : Bool :=
  c.routeId = routeId && c.clientIp = clientIp

def acquireCall (tc : TrafficControlAdapter) (c : RateCheck) : AcquireCall where
  key := ipKey c.routeId c.clientIp
  limit := tc.ipQps
  window := 1
  env := c.envs.ip

end RateCheck

variable {tc : TrafficControlAdapter} {s t : LimiterState} {c : RateCheck} {key : String}
  {cluster : Bool} {a : AcquireCall} {routeId : Nat} {clientIp : String}

lemma checkRateLimit_of_ip_only (henabled : tc.rateLimitEnabled = true) (hglobal : tc.globalQps = 0)
    (hroute : tc.routeQps = 0) (hip : 0 < tc.ipQps) (c : RateCheck) :
    checkRateLimit tc c.routeId c.clientIp c.envs =
      acquire tc.cluster (ipKey c.routeId c.clientIp) tc.ipQps 1 c.envs.ip := by
  rw [checkRateLimit_eq_forM henabled]
  simp [rateLevels, hglobal, hroute, hip, RateLevel.acquire]

/-! ### What a call of the limiter depends on -/

lemma SameKey.symm (h : SameKey cluster key s t) : SameKey cluster key t s := by
  cases cluster <;> exact Eq.symm h

lemma SameKey.call (h : SameKey cluster a.key s t) : (s.call cluster a).2 = (t.call cluster a).2 ∧
    SameKey cluster a.key (s.call cluster a).1 (t.call cluster a).1 := by
  cases cluster with
  | false =>
    have hbucket : s.buckets a.key = t.buckets a.key := h
    rw [call_in_process, call_in_process, hbucket]
    refine ⟨rfl, ?_⟩
    simp [SameKey]
  | true =>
    have hbucket : s.redis ("rl:" ++ a.key) = t.redis ("rl:" ++ a.key) := h
    have hscript : s.script a = t.script a := by
      rw [script, script, hbucket]
    have hscripted : SameKey true a.key (s.scripted a) (t.scripted a) := by
      simp [SameKey, scripted, hscript]
    rw [call_in_redis, call_in_redis]
    cases a.env.redis with
    | unavailable => exact ⟨rfl, h⟩
    | answerLost => exact ⟨rfl, hscripted⟩
    | answered => exact ⟨by rw [hscript], hscripted⟩

/-! ### Leaving out the others -/

namespace RateCheck

section

variable (henabled : tc.rateLimitEnabled = true) (hglobal : tc.globalQps = 0)
  (hroute : tc.routeQps = 0) (hip : 0 < tc.ipQps)
include henabled hglobal hroute hip

lemma results_cons (s : LimiterState) (c : RateCheck) (cs : List RateCheck) :
    results tc s (c :: cs) =
      (c, if (s.call tc.cluster (c.acquireCall tc)).2 then .ok () else .error .rateLimited) ::
        results tc (s.call tc.cluster (c.acquireCall tc)).1 cs := by
  have hcall : s.call tc.cluster (c.acquireCall tc) =
      match (acquire tc.cluster (ipKey c.routeId c.clientIp) tc.ipQps 1 c.envs.ip).run s with
      | .ok _ t    => (t, true)
      | .error _ t => (t, false) := rfl
  rw [results, checkRateLimit_of_ip_only henabled hglobal hroute hip, hcall]
  cases hrun : (acquire tc.cluster (ipKey c.routeId c.clientIp) tc.ipQps 1 c.envs.ip).run s with
  | ok u t => rfl
  | error e t =>
    obtain ⟨rfl, -⟩ := acquire_error hrun
    rfl

lemma filter_results (hsame : SameKey tc.cluster (ipKey routeId clientIp) s t)
    (cs : List RateCheck) :
    (results tc s cs).filter (fun r => isOf routeId clientIp r.1) =
      results tc t (cs.filter (isOf routeId clientIp)) := by
  induction cs generalizing s t with
  | nil => rfl
  | cons c cs ih =>
    rw [results_cons henabled hglobal hroute hip]
    cases hof : isOf routeId clientIp c with
    | true =>
      simp only [isOf, Bool.and_eq_true, decide_eq_true_eq] at hof
      obtain ⟨rfl, rfl⟩ := hof
      have hsame : SameKey tc.cluster (c.acquireCall tc).key s t := hsame
      obtain ⟨hresult, hnext⟩ := hsame.call
      rw [List.filter_cons_of_pos (by simp [isOf]), List.filter_cons_of_pos (by simp [isOf]),
        results_cons henabled hglobal hroute hip, hresult, ih hnext]
    | false =>
      have hkey : ipKey routeId clientIp ≠ (c.acquireCall tc).key := by
        intro heq
        obtain ⟨rfl, rfl⟩ := ipKey_inj heq
        simp [isOf] at hof
      rw [List.filter_cons_of_neg (by simp [hof]), List.filter_cons_of_neg (by simp [hof])]
      exact ih ((call_sameKey hkey).symm.trans hsame)

end

lemma results_disabled (hdisabled : tc.rateLimitEnabled = false) (s : LimiterState)
    (cs : List RateCheck) : results tc s cs = cs.map fun c => (c, .ok ()) := by
  induction cs with
  | nil => rfl
  | cons c cs ih =>
    have hrun : (checkRateLimit tc c.routeId c.clientIp c.envs).run s = .ok ⟨⟩ s := by
      simp only [checkRateLimit, hdisabled, Bool.false_eq_true, if_false]
      rfl
    rw [results, hrun]
    exact congrArg ((c, .ok ()) :: ·) ih

/-- The results of the checks of one client on one route are the same if all other checks are left
out, whatever the names of the clients and whatever the limiter has seen before. -/
theorem clients_isolated (tc : TrafficControlAdapter) (hglobal : tc.globalQps = 0)
    (hroute : tc.routeQps = 0) (hip : 0 < tc.ipQps) (s : LimiterState) (cs : List RateCheck)
    (routeId : Nat) (clientIp : String) :
    (results tc s cs).filter (fun r => r.1.isOf routeId clientIp) =
      results tc s (cs.filter (isOf routeId clientIp)) := by
  cases henabled : tc.rateLimitEnabled with
  | true =>
    refine filter_results henabled hglobal hroute hip ?_ cs
    cases tc.cluster <;> exact Eq.refl _
  | false =>
    rw [results_disabled henabled, results_disabled henabled, List.filter_map]
    rfl

theorem clients_isolated_colon :
    let tc : TrafficControlAdapter := ⟨true, 0, 0, 1, false⟩
    let env : AcquireEnv := ⟨0, 0, .answered⟩
    let cs : List RateCheck := [⟨1, "2:10.0.0.1", ⟨env, env, env⟩⟩,
      ⟨12, "10.0.0.1", ⟨env, env, env⟩⟩, ⟨1, "2:10.0.0.1", ⟨env, env, env⟩⟩]
    (results tc .empty cs).filter (fun r => r.1.isOf 12 "10.0.0.1") =
      results tc .empty (cs.filter (isOf 12 "10.0.0.1")) :=
  clients_isolated _ rfl rfl one_pos _ _ _ _

end RateCheck

end Conrogate
