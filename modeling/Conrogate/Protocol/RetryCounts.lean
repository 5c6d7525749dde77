import Conrogate.Protocol.Course

/-!
# Counting the attempts of a request

The retry loop ends under four conditions, in different places. The first attempt is recorded with
the budget, and each later one is granted by it.
-/

namespace Conrogate

open Logged List Effect

variable {Net P : Type}

namespace Effect

def isForward (w : Effect) : Bool := w.forwarded.isSome

def isGrant : Effect → Bool
  | tryConsume granted => granted
  | _ => false

def isRecordRequest : Effect → Bool
  | recordRequest => true
  | _ => false

section

variable (may rest : List Effect) (node : UpstreamNodeDto) (out : OutRequest)

/-! ### The log of a round -/

lemma countP_isForward_round : (may ++ forwardHttp node out :: rest).countP isForward =
    may.countP isForward + (rest.countP isForward + 1) := by
  rw [countP_append, countP_cons_of_pos rfl]

lemma countP_isGrant_round : (may ++ forwardHttp node out :: rest).countP isGrant =
    may.countP isGrant + rest.countP isGrant := by
  rw [countP_append, countP_cons_of_neg Bool.false_ne_true]

lemma countP_isRecordRequest_round : (may ++ forwardHttp node out :: rest).countP isRecordRequest =
    may.countP isRecordRequest + rest.countP isRecordRequest := by
  rw [countP_append, countP_cons_of_neg Bool.false_ne_true]

end

end Effect

namespace HttpProtocolHandler

variable (h : HttpProtocolHandler Net P)

lemma mayAttempt_counts (canRetry : Bool) (attempt : Nat) :
    ∃ log go, h.mayAttempt canRetry attempt = ⟨log, .ok go⟩ ∧
      log.countP isForward = 0 ∧
      log.countP isRecordRequest = (decide (attempt = 0) && h.retryBudget.isSome).toNat ∧
      (h.retryBudget.isSome = true →
        log.countP isGrant + log.countP isRecordRequest = go.toNat) := by
  cases hbudget : h.retryBudget with
  | none =>
    refine ⟨[], decide (attempt = 0 ∨ canRetry = true), ?_, rfl, by simp, by simp⟩
    cases attempt with
    | zero => simp [mayAttempt, hbudget]; rfl
    | succ attempt => cases canRetry <;> simp [mayAttempt, hbudget] <;> rfl
  | some tryConsume =>
    cases attempt with
    | zero => exact ⟨[.recordRequest], true, by simp [mayAttempt, hbudget], rfl, rfl, fun _ => rfl⟩
    | succ attempt =>
      cases canRetry with
      | false => exact ⟨[], false, by simp [mayAttempt]; rfl, rfl, by simp, fun _ => rfl⟩
      | true =>
        refine ⟨[.tryConsume (tryConsume (attempt + 1))], tryConsume (attempt + 1),
          by simp [mayAttempt, hbudget], rfl, by simp [isRecordRequest], fun _ => ?_⟩
        cases htry : tryConsume (attempt + 1) <;>
          simp [isGrant, isRecordRequest]

section

variable (canRetry : Bool) (node : UpstreamNodeDto) {out : OutRequest}

lemma attempts_counts (hbuild : h.http.buildRequest out.method out.uri = .ok ())
    (rounds attempt : Nat) (last : Result ProxyResult) :
    let log := (h.attempts canRetry node out rounds attempt last).effects
    (h.retryBudget.isSome = true →
      log.countP isForward =
        log.countP isGrant + log.countP isRecordRequest) ∧
    log.countP isRecordRequest =
      (decide (attempt = 0 ∧ 0 < rounds) && h.retryBudget.isSome).toNat := by
  induction rounds generalizing attempt last with
  | zero => simp [attempts]
  | succ rounds ih =>
    obtain ⟨may, go, hmay, hforward, hrecord, hone⟩ := h.mayAttempt_counts canRetry attempt
    rw [attempts, bind_of_ok (congrArg Logged.result hmay), hmay]
    simp only [Nat.zero_lt_succ, and_true]
    cases go with
    | false =>
      simp only [Bool.not_false, if_true, effects_pure, append_nil]
      refine ⟨fun hsome => ?_, hrecord⟩
      rw [hforward, hone hsome]
      rfl
    | true =>
      -- no later round is recorded
      have hrest := ih (attempt + 1) (h.forwardHttp attempt node out)
      simp only [Nat.succ_ne_zero, false_and, decide_false, Bool.false_and,
        Bool.toNat_false] at hrest
      obtain ⟨hcount, hnone⟩ := hrest
      simp only [Bool.not_true, Bool.false_eq_true, if_false, h.buildRequest_of_ok hbuild,
        Logged.pure_bind, emit_bind]
      split
      · rw [countP_isForward_round, countP_isGrant_round,
          countP_isRecordRequest_round, hforward, hnone]
        refine ⟨fun hsome => ?_, hrecord⟩
        have hmore := hcount hsome
        have hthis : _ = 1 := hone hsome
        omega
      · rw [effects_pure, countP_isForward_round, countP_isGrant_round,
          countP_isRecordRequest_round, hforward]
        refine ⟨fun hsome => ?_, hrecord⟩
        have hthis : _ = 1 := hone hsome
        simp only [countP_nil]
        omega

end

/-! ### A whole request -/

section

variable (env : ExchangeEnv) {req : HttpRequest} {m : RequestMeta} {route : RouteSnapshot}
  {ctx : PluginContext} {node : UpstreamNodeDto} {uri : ParsedUri}

lemma lastAttempt_le (canRetry : Bool) (node : UpstreamNodeDto) (out : OutRequest) :
    h.lastAttempt canRetry node out ≤ h.maxRetries :=
  Nat.find_min' _ fun hrepeats => lt_irrefl _ hrepeats.left

lemma countP_handle {p : Effect → Bool} (hwelcome : h.svc.isBlocked m.realIp = false)
    (hreach : h.Reaches req m (some req.body) route ctx node uri)
    (hp : ∀ w, w.isForward = false ∧ w.isGrant = false ∧ w.isRecordRequest = false →
      p w = false) :
    (h.conduct env req m (some req.body) (.ok route)
        (h.forwardBuffered env req m)).effects.countP p =
      (h.attempts (canRetry req route) node (h.outRequest req m ctx route node uri (some req.body))
        (h.maxRetries + 1) 0 (.error (.upstreamConnectFailed "no attempt"))).effects.countP p := by
  have hsettle : (h.settle env m ctx (h.svc.routePlugins route.id) route node
      (h.bufferedOutcome req m route ctx node uri) (·.body) req.body.length).effects.countP p =
        0 := by
    rw [countP_eq_zero]
    intro w hw
    -- neither an attempt nor the budget is concerned any more
    have hapart := h.settle_always (Q := (p · = false)) env (fun _ => hp _ ⟨rfl, rfl, rfl⟩)
      (hp _ ⟨rfl, rfl, rfl⟩) (fun _ => hp _ ⟨rfl, rfl, rfl⟩)
      (fun _ => .emit (hp _ ⟨rfl, rfl, rfl⟩)) _ _ _ _ w hw
    simp [hapart]
  rw [h.conduct_of_reaches env _ hwelcome hreach,
    h.forwardBuffered_of_builds env m ctx _ route hreach.parses hreach.builds]
  simp only [countP_cons, countP_append, hsettle]
  simp [hp (.selected route.id node) ⟨rfl, rfl, rfl⟩,
    hp (.admitted route.id node.id) ⟨rfl, rfl, rfl⟩]

end

lemma retryable_iff {outcome : Result ProxyResult} : retryable outcome = true ↔
    outcome = .error .upstreamTimeout ∨
      (∃ reason, outcome = .error (.upstreamConnectFailed reason)) ∨
      ∃ r, outcome = .ok r ∧ 500 ≤ r.status := by
  cases outcome with
  | error e => cases e <;> simp [retryable]
  | ok r => simp [retryable]

/-- The attempts are one more than the retries that the budget granted, or than the attempts that
were to be repeated; at most `1 + max_retries`, and one if the request may not be repeated. The
budget records the request once. There is no attempt after an outcome that may not be tried again,
and the response is made of the last outcome. -/
theorem buffered_attempts (env : ExchangeEnv) (req : HttpRequest) (clientIp : String)
    (matchInfo : RouteMatchInfo) (preMatched : Option RouteSnapshot) (route : RouteSnapshot)
    (ctx : PluginContext) (node : UpstreamNodeDto) (uri : ParsedUri) :
    let m := h.buildRequestMeta env matchInfo req.headers clientIp
    let out := h.outRequest req m ctx route node uri (some req.body)
    let served := h.handle env req clientIp matchInfo preMatched
    let n := served.effects.countP isForward
    let rest := h.settle env m ctx (h.svc.routePlugins route.id) route node
      (h.forwardHttp (n - 1) node out) (·.body) req.body.length
    h.svc.isBlocked m.realIp = false → h.routeOf m preMatched = .ok route →
    h.Reaches req m (some req.body) route ctx node uri →
      (h.retryBudget.isSome = true → n = 1 + served.effects.countP isGrant) ∧
      (0 < n ∧ (∀ j, j + 1 < n → h.Repeats (canRetry req route) node out j) ∧
        ¬ h.Repeats (canRetry req route) node out (n - 1)) ∧
      n ≤ 1 + h.maxRetries ∧
      (req.method ∉ ["GET", "HEAD", "OPTIONS"] → route.allowRetryNonIdempotent = false → n = 1) ∧
      served.effects.countP isRecordRequest = h.retryBudget.isSome.toNat ∧
      (∀ j, j + 1 < n → h.forwardHttp j node out = .error .upstreamTimeout ∨
        (∃ reason, h.forwardHttp j node out = .error (.upstreamConnectFailed reason)) ∨
        ∃ r, h.forwardHttp j node out = .ok r ∧ 500 ≤ r.status) ∧
      (∀ resp, served.result = .ok resp → ∃ r, h.forwardHttp (n - 1) node out = .ok r ∧
        resp.status = r.status ∧ resp.body = .bytes r.body) ∧
      ∃ before, served = ⟨before ++ rest.effects, rest.result⟩ := by
  intro m out served n rest hwelcome hroute hreach
  have hserved : served = h.conduct env req m (some req.body) (.ok route)
      (h.forwardBuffered env req m) := by
    rw [← hroute]
    rfl
  have hbuild : h.http.buildRequest out.method out.uri = .ok () := hreach.builds
  obtain ⟨hcounts, hrecords⟩ := h.attempts_counts (canRetry req route) node
    hbuild (h.maxRetries + 1) 0 (.error (.upstreamConnectFailed "no attempt"))
  have hn : n = h.lastAttempt (canRetry req route) node out + 1 := by
    have hlength : (served.effects.filterMap forwarded).length = n :=
      length_filterMap_eq_countP
    rw [← hlength, hserved, h.forwarded_conduct_of_reaches env hwelcome hreach,
      h.forwarded_forwardBuffered env hreach, length_replicate]
  have hrepeats : ∀ j, j + 1 < n → h.Repeats (canRetry req route) node out j := by
    intro j hj
    exact not_not.mp (Nat.find_min (h.exists_not_repeats (canRetry req route) node out)
      (by rw [← lastAttempt]; omega))
  have hend : ¬ h.Repeats (canRetry req route) node out (n - 1) := by
    rw [hn, Nat.add_sub_cancel]
    exact Nat.find_spec (h.exists_not_repeats (canRetry req route) node out)
  have hrecord : served.effects.countP isRecordRequest = h.retryBudget.isSome.toNat := by
    rw [hserved, h.countP_handle env hwelcome hreach fun w hw => hw.2.2, hrecords]
    simp
  have hlast : ∃ before, served = ⟨before ++ rest.effects, rest.result⟩ := by
    simp only [rest]
    rw [hn, Nat.add_sub_cancel, hserved, h.conduct_of_reaches env _ hwelcome hreach,
      h.forwardBuffered_of_builds env m ctx _ route hreach.parses hreach.builds]
    exact ⟨_ :: _ :: _, rfl⟩
  refine ⟨?_, ⟨by omega, hrepeats, hend⟩, ?_, ?_, hrecord, ?_, ?_, hlast⟩
  · intro hsome
    have hforward : n = _ := (hserved ▸ h.countP_handle env hwelcome hreach fun w hw => hw.1)
    have hgrant := h.countP_handle env hwelcome hreach (p := isGrant) fun w hw => hw.2.1
    rw [hforward, hcounts hsome, hrecords, hserved, hgrant, hsome]
    exact Nat.add_comm _ _
  · have := h.lastAttempt_le (canRetry req route) node out
    omega
  · intro hmethod hallow
    have hno : ¬ h.Repeats (canRetry req route) node out 0 := fun hagain => hmethod <| by
      simpa [canRetry, isIdempotent, hallow, or_assoc] using hagain.request
    rw [hn, (h.lastAttempt_eq_zero_iff _ _ _).mpr hno]
  · exact fun j hj => retryable_iff.mp (hrepeats j hj).outcome
  · intro resp hresp
    obtain ⟨before, heq⟩ := hlast
    rw [heq] at hresp
    obtain ⟨r, after, hr, -, -, rfl⟩ := (h.settle_eq_ok_iff ..).mp hresp
    exact ⟨r, hr, rfl, rfl⟩

theorem buffered_attempts_two :
    let h := { openHandler (.ok openNode) (.ok ⟨503, [], []⟩) with
      retryBudget := some fun attempt => attempt == 1
      forwardHttp := fun attempt _ _ =>
        if attempt = 0 then .error .upstreamTimeout else .ok ⟨503, [], []⟩ }
    let req := getRequest "/a" []
    let route := openRoute false
    let log := (h.handle openEnv req "1.2.3.4" req.matchInfo (some route)).effects
    log.countP isForward = 2 ∧ log.countP isForward ≤ 1 + h.maxRetries ∧
    log.countP isForward = 1 + log.countP isGrant ∧
    log.countP isRecordRequest = 1 := by
  intro h req route log
  obtain ⟨hgrants, -, hmax, -, hrecord, -⟩ := h.buffered_attempts openEnv req "1.2.3.4"
    req.matchInfo (some route) route _ openNode _ rfl rfl ⟨⟨rfl, rfl, rfl⟩, rfl, rfl, rfl, rfl⟩
  exact ⟨rfl, hmax, hgrants rfl, hrecord⟩

end HttpProtocolHandler

end Conrogate
