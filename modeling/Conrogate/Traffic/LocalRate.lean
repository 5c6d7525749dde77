import Conrogate.Traffic.TokenRate
import Mathlib.Data.Finset.Order

/-!
# The rate of the limiter in the process

A bucket that is found full is removed, and the call that finds it passes without a token. The next
call begins with a full bucket again. So there can be more grants than those of a token bucket, but
no more than one for each such call.
-/

namespace Conrogate

open List Meter LimiterState

structure AcquireResult where
  call : AcquireCall
  free : Bool
  granted : Bool

namespace LimiterState

def history (cluster : Bool) : LimiterState → List AcquireCall → List AcquireResult
  | _, [] => []
  | s, c :: cs =>
    ⟨c, decide (FreePass cluster c.key c.env s), (s.call cluster c).2⟩ ::
      history cluster (s.call cluster c).1 cs

variable {cluster : Bool} {s : LimiterState} {c : AcquireCall}

lemma history_append_singleton (cs : List AcquireCall) : s.history cluster (cs ++ [c]) =
    s.history cluster cs ++ [⟨c, decide (FreePass cluster c.key c.env (s.after cluster cs)),
      ((s.after cluster cs).call cluster c).2⟩] := by
  induction cs generalizing s with
  | nil => rfl
  | cons d cs ih => rw [cons_append, history, history, ih]; rfl

lemma map_call_history (cs : List AcquireCall) :
    (s.history cluster cs).map AcquireResult.call = cs := by
  induction cs generalizing s with
  | nil => rfl
  | cons c cs ih => rw [history, map_cons, ih]

end LimiterState

section logs

variable (key : String) (rs : List AcquireResult)

def logOf (p : AcquireResult → Bool) : List (ℚ × Bool) :=
  (rs.filter fun r => r.call.key = key).map fun r => (r.call.env.now, p r)

def okLog : List (ℚ × Bool) := logOf key rs fun r => r.granted

def freeLog : List (ℚ × Bool) := logOf key rs fun r => r.granted && r.free

def chargedLog : List (ℚ × Bool) := logOf key rs fun r => r.granted && !r.free

end logs

variable {key : String} {rs : List AcquireResult} {r : AcquireResult} {limit : Nat} {W rate : ℚ}
  {s : LimiterState} {c : AcquireCall} {cs : List AcquireCall} {tokens last : ℚ}
  {p : AcquireResult → Bool}

lemma logOf_append_own (h : r.call.key = key) :
    logOf key (rs ++ [r]) p = logOf key rs p ++ [(r.call.env.now, p r)] := by
  simp [logOf, h]

lemma logOf_append_other (h : r.call.key ≠ key) : logOf key (rs ++ [r]) p = logOf key rs p := by
  simp [logOf, h]

lemma grants_okLog (q : ℚ → Prop) [DecidablePred q] : grants q (okLog key rs) =
    grants q (chargedLog key rs) + grants q (freeLog key rs) := by
  simp only [grants, okLog, chargedLog, freeLog, logOf, countP_map]
  induction rs.filter fun r => r.call.key = key with
  | nil => rfl
  | cons r rs ih =>
    obtain ⟨call, free, granted⟩ := r
    simp only [countP_cons, ih, Function.comp_apply]
    cases granted <;> cases free <;> simp <;> omega

/-! ### A call on the key -/

def localRate (limit : Nat) (window : ℚ) : ℚ := limit / max window (1 / 1000)

lemma localRate_pos (hlimit : 0 < limit) (window : ℚ) : 0 < localRate limit window := by
  have hlimit' : (0 : ℚ) < limit := by exact_mod_cast hlimit
  rw [localRate]
  positivity

def Keeps (key : String) (limit : Nat) (rate : ℚ) (s : LimiterState) (tokens last : ℚ) : Prop :=
  match s.buckets key with
  | none   => tokens = limit
  | some b => tokens = b.tokens ∧ last = b.lastRefill ∧ b.capacity = limit ∧ b.refillRate = rate

lemma Keeps.call (h : Keeps key limit (localRate limit W) s tokens last)
    (hlimit : 0 < limit) (hc : c.key = key ∧ c.limit = limit ∧ c.window = W)
    (hclock : last ≤ c.env.now) {m : ℚ}
    (hm : m = refill (limit : ℚ) (localRate limit W) tokens (c.env.now - last)) :
    (FreePass false c.key c.env s ∧ m = limit ∧ s.buckets key ≠ none ∧
      (s.call false c).2 = true ∧ (s.call false c).1.buckets key = none) ∨
    ¬ FreePass false c.key c.env s ∧ (s.call false c).1.buckets key ≠ none ∧
      (m < 1 ∧ s.buckets key ≠ none ∧ (s.call false c).2 = false ∧
        Keeps key limit (localRate limit W) (s.call false c).1 m c.env.now ∨
      1 ≤ m ∧ (s.call false c).2 = true ∧
        Keeps key limit (localRate limit W) (s.call false c).1 (m - 1) c.env.now) := by
  obtain ⟨rfl, rfl, rfl⟩ := hc
  have helapsed := sub_nonneg.mpr hclock
  have hrate := localRate_pos hlimit c.window
  simp only [FreePass, call_in_process, Keeps, Bool.false_eq_true, if_false, Function.update_self]
  cases hb : s.buckets c.key with
  | none =>
    rw [Keeps, hb] at h
    have hflow := mul_nonneg helapsed hrate.le
    have hfull : m = c.limit := by
      rw [hm, h, refill, min_eq_right (by linarith)]
    have hone : (1 : ℚ) ≤ c.limit := by exact_mod_cast hlimit
    right
    simp [acquireLocal, hlimit.ne', hfull, hone, localRate]
  | some b =>
    rw [Keeps, hb] at h
    obtain ⟨rfl, rfl, hcapacity, hrefill⟩ := h
    have htokens : (b.refill c.env.now).tokens = m := by
      rw [hm, TokenBucket.refill, durationSince, max_eq_right helapsed, hcapacity, hrefill, refill]
    have hle : m ≤ c.limit := hm ▸ min_le_right _ _
    have hcap : (b.refill c.env.now).capacity = c.limit := hcapacity
    have hlast : (b.refill c.env.now).lastRefill = c.env.now := rfl
    have hflow : (b.refill c.env.now).refillRate = localRate c.limit c.window := hrefill
    by_cases hfull : (c.limit : ℚ) ≤ m
    · left
      simp [acquireLocal, htokens, hcap, hcapacity, le_antisymm hle hfull]
    · right
      by_cases hlow : m < 1
      · simp [acquireLocal, htokens, hcap, hlast, hflow, hfull, hcapacity, hlow]
      · simp [acquireLocal, htokens, hcap, hlast, hflow, hfull, hcapacity, hlow, not_lt.mp hlow]

/-! ### What the calls add up to -/

def reserve (limit : ℚ) (bucket : Option TokenBucket) (tokens : ℚ) : ℚ :=
  match bucket with
  | none   => limit
  | some _ => max tokens (2 * tokens + 1 - limit)

lemma reserve_of_ne_none {bucket : Option TokenBucket} (h : bucket ≠ none) (limit tokens : ℚ) :
    reserve limit bucket tokens = max tokens (2 * tokens + 1 - limit) := by
  obtain ⟨b, rfl⟩ := Option.ne_none_iff_exists'.mp h
  rfl

structure Reckoned (key : String) (limit : Nat) (rate : ℚ) (rs : List AcquireResult)
    (s : LimiterState) (tokens last : ℚ) : Prop where
  keeps : Keeps key limit rate s tokens last
  charged : Meter.Tracks (limit : ℚ) rate (chargedLog key rs) tokens last
  upper : ∀ a ≤ last, grants (a ≤ ·) (okLog key rs) +
    reserve limit (s.buckets key) tokens ≤ limit + 1 + 2 * rate * (last - a)
  chargedEach : History.Each (fun before e => ∀ a ≤ e.1,
    (grants (a ≤ ·) (before ++ [e]) : ℚ) ≤ limit + rate * (e.1 - a)) (chargedLog key rs)
  okEach : History.Each (fun before e => ∀ a ≤ e.1,
    (grants (a ≤ ·) (before ++ [e]) : ℚ) ≤ limit + 1 + 2 * rate * (e.1 - a)) (okLog key rs)

lemma map_fst_logOf : (logOf key rs p).map Prod.fst =
    (rs.filter fun r => r.call.key = key).map fun r => r.call.env.now := by
  simp [logOf]

lemma Reckoned.past (h : Reckoned key limit rate rs s tokens last) :
    ∀ e ∈ okLog key rs, e.1 ≤ last := by
  intro e he
  have hmem := mem_map_of_mem (f := Prod.fst) he
  rw [okLog, map_fst_logOf, ← map_fst_logOf (p := fun r => r.granted && !r.free)] at hmem
  obtain ⟨e', he', heq⟩ := mem_map.mp hmem
  exact heq ▸ h.charged.past e' he'

lemma Reckoned.upper_wait (h : Reckoned key limit rate rs s tokens last) (hrate : 0 ≤ rate)
    {now a m : ℚ} (hclock : last ≤ now) (ha : a ≤ now)
    (hm : m = refill (limit : ℚ) rate tokens (now - last)) :
    grants (a ≤ ·) (okLog key rs) + reserve limit (s.buckets key) m ≤
      limit + 1 + 2 * rate * (now - a) := by
  have hflow : 0 ≤ (now - last) * rate := mul_nonneg (sub_nonneg.mpr hclock) hrate
  have hmore : m ≤ tokens + (now - last) * rate := hm ▸ min_le_left _ _
  have hle : m ≤ limit := hm ▸ min_le_right _ _
  rcases le_or_gt a last with hal | hal
  · have hupper := h.upper a hal
    have hgrow : reserve limit (s.buckets key) m ≤
        reserve limit (s.buckets key) tokens + 2 * ((now - last) * rate) := by
      cases s.buckets key with
      | none =>
        rw [reserve, reserve]
        linarith
      | some b =>
        rw [reserve, reserve]
        have hleft := le_max_left tokens (2 * tokens + 1 - limit)
        have hright := le_max_right tokens (2 * tokens + 1 - limit)
        apply max_le <;> linarith
    linarith
  · -- nothing was granted since
    have hnone : grants (a ≤ ·) (okLog key rs) = 0 :=
      grants_eq_zero fun e he => not_le.mpr ((h.past e he).trans_lt hal)
    have hnew : 0 ≤ rate * (now - a) := mul_nonneg hrate (sub_nonneg.mpr ha)
    have hreserve : reserve limit (s.buckets key) m ≤ limit + 1 := by
      cases s.buckets key with
      | none =>
        rw [reserve]
        linarith
      | some b =>
        rw [reserve]
        apply max_le <;> linarith
    rw [hnone, Nat.cast_zero]
    linarith

lemma reserve_nonneg (limit : Nat) (bucket : Option TokenBucket) {tokens : ℚ} (h : 0 ≤ tokens) :
    0 ≤ reserve limit bucket tokens := by
  cases bucket with
  | none => exact Nat.cast_nonneg limit
  | some b => exact h.trans (le_max_left _ _)

lemma Reckoned.add {s' : LimiterState} {tokens' : ℚ}
    (h : Reckoned key limit rate rs s tokens last) (hr : r.call.key = key)
    (hkeeps : Keeps key limit rate s' tokens' r.call.env.now)
    (hcharged : Meter.Tracks (limit : ℚ) rate
      (chargedLog key rs ++ [(r.call.env.now, r.granted && !r.free)]) tokens' r.call.env.now)
    (hupper : ∀ a ≤ r.call.env.now, grants (a ≤ ·) (okLog key rs ++ [(r.call.env.now, r.granted)]) +
        reserve limit (s'.buckets key) tokens' ≤ limit + 1 + 2 * rate * (r.call.env.now - a)) :
    Reckoned key limit rate (rs ++ [r]) s' tokens' r.call.env.now where
  keeps := hkeeps
  charged := by
    rw [chargedLog, logOf_append_own hr]
    exact hcharged
  upper := by
    rw [okLog, logOf_append_own hr]
    exact hupper
  chargedEach := by
    rw [chargedLog, logOf_append_own hr]
    refine h.chargedEach.append_singleton fun a ha => ?_
    linarith [hcharged.upper a ha, hcharged.nonneg]
  okEach := by
    rw [okLog, logOf_append_own hr]
    refine h.okEach.append_singleton fun a ha => ?_
    linarith [hupper a ha, reserve_nonneg limit (s'.buckets key) hcharged.nonneg]

lemma Reckoned.own (h : Reckoned key limit (localRate limit W) rs s tokens last)
    (hlimit : 0 < limit) (hc : c.key = key ∧ c.limit = limit ∧ c.window = W)
    (hclock : last ≤ c.env.now) : ∃ tokens', Reckoned key limit (localRate limit W)
      (rs ++ [⟨c, decide (FreePass false c.key c.env s), (s.call false c).2⟩])
      (s.call false c).1 tokens' c.env.now := by
  have hrate := (localRate_pos hlimit W).le
  have hwait := h.charged.wait hrate hclock
  have hupper := fun a ha => h.upper_wait hrate hclock (a := a) ha rfl
  have hcases := h.keeps.call hlimit hc hclock rfl
  generalize refill (limit : ℚ) (localRate limit W) tokens (c.env.now - last) = m
    at hwait hupper hcases
  obtain ⟨hfree, hfull, hsome, hgranted, hnone⟩ | ⟨hfree, hsome,
    ⟨hlow, hbefore, hrefused, hkeeps⟩ | ⟨hone, hgranted, hkeeps⟩⟩ := hcases
  · refine ⟨m, h.add (r := ⟨c, _, _⟩) hc.1 (by rw [Keeps, hnone]; exact hfull) ?_ ?_⟩
    · simpa [hgranted, hfree] using hwait.refuse
    · intro a ha
      have hupper := hupper a ha
      rw [reserve_of_ne_none hsome, hfull] at hupper
      have hright := le_max_right (limit : ℚ) (2 * limit + 1 - limit)
      simp only [hgranted, hnone, reserve, grants_append_of_pos (p := (a ≤ ·)) ha]
      push_cast
      linarith
  · refine ⟨m, h.add (r := ⟨c, _, _⟩) hc.1 hkeeps ?_ ?_⟩
    · simpa [hrefused, hfree] using hwait.refuse
    · intro a ha
      have hupper := hupper a ha
      rw [reserve_of_ne_none hbefore] at hupper
      simpa only [hrefused, reserve_of_ne_none hsome, grants_append_refused] using hupper
  · refine ⟨m - 1, h.add (r := ⟨c, _, _⟩) hc.1 hkeeps ?_ ?_⟩
    · simpa [hgranted, hfree] using hwait.grant hone
    · intro a ha
      have hupper := hupper a ha
      have hle := hwait.le_capacity
      have hless : reserve limit ((s.call false c).1.buckets key) (m - 1) + 1 ≤
          reserve limit (s.buckets key) m := by
        rw [reserve_of_ne_none hsome, ← max_add_add_right]
        cases hbefore : s.buckets key with
        | none =>
          rw [reserve]
          apply max_le <;> linarith
        | some b =>
          rw [reserve]
          exact max_le_max (by linarith) (by linarith)
      simp only [hgranted, grants_append_of_pos (p := (a ≤ ·)) ha]
      push_cast
      linarith

lemma Reckoned.other (h : Reckoned key limit rate rs s tokens last) (hc : c.key ≠ key)
    (free granted : Bool) :
    Reckoned key limit rate (rs ++ [⟨c, free, granted⟩]) (s.call false c).1 tokens last := by
  have hbucket : (s.call false c).1.buckets key = s.buckets key := by
    rw [call_in_process]
    exact Function.update_of_ne (Ne.symm hc) _ _
  have hlog : ∀ p, logOf key (rs ++ [⟨c, free, granted⟩]) p = logOf key rs p :=
    fun p => logOf_append_other hc
  exact
    { keeps := by rw [Keeps, hbucket]; exact h.keeps
      charged := by rw [chargedLog, hlog]; exact h.charged
      upper := by rw [okLog, hlog, hbucket]; exact h.upper
      chargedEach := by rw [chargedLog, hlog]; exact h.chargedEach
      okEach := by rw [okLog, hlog]; exact h.okEach }

lemma Reckoned.start (hlimit : 0 < limit) (W last : ℚ) :
    Reckoned key limit (localRate limit W) [] .empty limit last where
  keeps := rfl
  charged := .start (Nat.cast_nonneg limit) (localRate_pos hlimit W).le last
  upper a ha := by
    have hflow := mul_nonneg (localRate_pos hlimit W).le (sub_nonneg.mpr ha)
    simp only [grants, okLog, logOf, empty, reserve, filter_nil, map_nil, countP_nil, Nat.cast_zero]
    linarith
  chargedEach := History.each_nil
  okEach := History.each_nil

lemma exists_reckoned (hlimit : 0 < limit)
    (hkey : ∀ c ∈ cs, c.key = key → c.limit = limit ∧ c.window = W)
    (hclock : (cs.map fun c => c.env.now).Pairwise (· ≤ ·)) {now : ℚ}
    (hnow : ∀ c ∈ cs, c.env.now ≤ now) : ∃ tokens last, last ≤ now ∧
      Reckoned key limit (localRate limit W) (empty.history false cs)
        (empty.after false cs) tokens last := by
  induction cs using List.reverseRecOn generalizing now with
  | nil => exact ⟨limit, now, le_rfl, Reckoned.start hlimit W now⟩
  | append_singleton cs c ih =>
    rw [forall_mem_append, forall_mem_singleton] at hkey hnow
    rw [map_append, pairwise_append] at hclock
    have hpast : ∀ d ∈ cs, d.env.now ≤ c.env.now := fun d hd =>
      hclock.2.2 _ (mem_map_of_mem hd) _ (by simp)
    obtain ⟨tokens, last, hlast, hreckoned⟩ := ih hkey.1 hclock.1 hpast
    rw [history_append_singleton, after_append_singleton]
    by_cases hc : c.key = key
    · obtain ⟨tokens', hreckoned'⟩ := hreckoned.own hlimit ⟨hc, hkey.2 hc⟩ hlast
      exact ⟨tokens', c.env.now, hnow.2, hreckoned'⟩
    · exact ⟨tokens, last, hlast.trans hnow.2, hreckoned.other hc _ _⟩

/-- The calls on a key that are granted in a span of time are at most those of a token bucket, and
one more for each call that finds its bucket full again. -/
theorem local_acquire_rate (key : String) (L : Nat) (W : ℚ) (hL : 1 ≤ L) (hW : 0 < W)
    (cs : List AcquireCall) (hkey : ∀ c ∈ cs, c.key = key → c.limit = L ∧ c.window = W)
    (hclock : (cs.map fun c => c.env.now).Pairwise (· ≤ ·)) (a T : ℚ) (hT : 0 ≤ T) :
    let rs := empty.history false cs
    (grants (fun t => a ≤ t ∧ t ≤ a + T) (okLog key rs) : ℚ) ≤
        L + L * T / W + grants (fun t => a ≤ t ∧ t ≤ a + T) (freeLog key rs) ∧
      (grants (fun t => a ≤ t ∧ t ≤ a + T) (okLog key rs) : ℚ) ≤
        L + 1 + 2 * (L * T / W) := by
  intro rs
  obtain ⟨now, hnow⟩ := Finset.exists_le (cs.map fun c => c.env.now).toFinset
  obtain ⟨tokens, last, -, hreckoned⟩ := exists_reckoned hL hkey hclock
    (fun c hc => hnow _ (mem_toFinset.mpr (mem_map_of_mem hc)))
  have hrate := (localRate_pos hL W).le
  have hsorted : ∀ p, ((logOf key rs p).map Prod.fst).Pairwise (· ≤ ·) := by
    intro p
    have hcalls : (rs.map AcquireResult.call).map (fun c => c.env.now) =
        cs.map fun c => c.env.now := by rw [map_call_history]
    rw [map_fst_logOf]
    refine hclock.sublist ?_
    rw [← hcalls, map_map]
    exact filter_sublist.map _
  have hflow : localRate L W * T ≤ L * T / W := by
    rw [localRate, div_mul_eq_mul_div]
    exact div_le_div_of_nonneg_left (by positivity) hW (le_max_left _ _)
  have hspan : a + T - a = T := by ring
  have hcharged := grants_le_of_each (Nat.cast_nonneg L) hrate (hsorted _)
    hreckoned.chargedEach (le_add_of_nonneg_right hT : a ≤ a + T)
  have hok := grants_le_of_each (by positivity) (by positivity) (hsorted _)
    hreckoned.okEach (le_add_of_nonneg_right hT : a ≤ a + T)
  rw [hspan] at hcharged hok
  constructor
  · rw [grants_okLog]
    push_cast
    change (grants _ (chargedLog key rs) : ℚ) ≤ _ at hcharged
    linarith
  · change (grants _ (okLog key rs) : ℚ) ≤ _ at hok
    linarith

def callsAt (times : List ℚ) : List AcquireCall :=
  times.map fun now => ⟨"k", 1, 1, ⟨now, 0, .answered⟩⟩

theorem local_acquire_rate_three_calls :
    let rs := empty.history false (callsAt [0, 1 / 2, 1 / 2])
    (grants (fun t => 0 ≤ t ∧ t ≤ 0 + 1 / 2) (okLog "k" rs) : ℚ) ≤
      (1 : Nat) + (1 : Nat) * (1 / 2) / 1 +
        grants (fun t => 0 ≤ t ∧ t ≤ 0 + 1 / 2) (freeLog "k" rs) :=
  (local_acquire_rate "k" 1 1 le_rfl one_pos (callsAt [0, 1 / 2, 1 / 2]) (by decide)
    (by decide +kernel) 0 (1 / 2) (by norm_num)).1

/-- Each time a bucket of one token is full again, two calls are granted. -/
theorem local_acquire_exceeds :
    let rs := empty.history false (callsAt [0, 1, 1, 2, 2, 3, 3])
    grants (fun t => 1 ≤ t ∧ t ≤ 1 + 2) (okLog "k" rs) = 6 ∧
      ¬ ((6 : ℚ) ≤ (1 : Nat) + (1 : Nat) * 2 / 1) := by
  refine ⟨by decide +kernel, by norm_num⟩

end Conrogate
