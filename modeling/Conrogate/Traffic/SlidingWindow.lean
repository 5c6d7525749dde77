import Conrogate.Lib.History
import Conrogate.Traffic.FixedWindow

/-!
# The sliding-window limiter

`SlidingWindowLimiter` keeps the times of the granted calls on a key, and grants another one if
fewer than the limit are still in the window. Once the table is large, every call first removes the
keys whose last grant is out of the window.
-/

namespace Conrogate

open List

namespace SlidingWindowLimiter

def expired (W now : ℚ) (timestamps : List ℚ) : Bool :=
  match timestamps.getLast? with
  | some t => W ≤ durationSince now t
  | none   => true

def inWindow (W now : ℚ) (timestamps : List ℚ) : List ℚ :=
  timestamps.filter fun t => durationSince now t < W

def serve (W : ℚ) (c : WindowCall) (v : Option (List ℚ)) :
    List ℚ × Result Unit :=
  let timestamps := inWindow W c.now (v.getD [])
  if c.limit ≤ UInt32.ofNat timestamps.length then (timestamps, .error .rateLimited)
  else (timestamps ++ [c.now], .ok ())

def acquire (W : ℚ) (windows : AList fun _ : String => List ℚ) (c : WindowCall) :
    (AList fun _ : String => List ℚ) × Result Unit :=
  let windows :=
    if maxEntries ≤ windows.entries.length then
      Expiring.retain (fun timestamps => !expired W c.now timestamps) windows
    else windows
  let r := serve W c (windows.lookup c.key)
  (windows.insert c.key r.1, r.2)

def machine (W : ℚ) : Expiring String WindowCall (List ℚ) (Result Unit) where
  key := WindowCall.key
  stale c timestamps := expired W c.now timestamps
  step c v := (some (serve W c v).1, (serve W c v).2)

variable {W : ℚ} {c : WindowCall} {cs : List WindowCall} {key : String} {v : Option (List ℚ)}
  {log : List (WindowCall × Result Unit)} {now now' t : ℚ} {timestamps : List ℚ}

lemma acquire_eq_next (windows : AList fun _ : String => List ℚ) :
    acquire W windows c = (machine W).next maxEntries windows c := rfl

/-! ### The records of a key -/

def recent (W now : ℚ) (log : List (WindowCall × Result Unit)) : Nat :=
  (okTimes log).countP fun t => now - W < t ∧ t ≤ now

structure Recorded (W now : ℚ) (log : List (WindowCall × Result Unit))
    (v : Option (List ℚ)) : Prop where
  past : ∀ t ∈ okTimes log, t ≤ now
  kept : ∀ now', now ≤ now' → inWindow W now' (v.getD []) = inWindow W now' (okTimes log)
  kept_past : ∀ t ∈ v.getD [], t ≤ now
  sorted : (v.getD []).Pairwise (· ≤ ·)
  short : (v.getD []).length < 2 ^ 32
  exact : History.Each (fun before r =>
    (r.2 = .error .rateLimited ↔ r.1.limit.toNat ≤ recent W r.1.now before) ∧
      (r.2 = .ok () ↔ recent W r.1.now before < r.1.limit.toNat)) log

lemma inWindow_inWindow (h : now ≤ now') (l : List ℚ) :
    inWindow W now' (inWindow W now l) = inWindow W now' l := by
  simp only [inWindow, filter_filter]
  refine filter_congr fun t _ => ?_
  have hmono := durationSince_mono h t
  by_cases hin : durationSince now' t < W
  · simp [hin, hmono.trans_lt hin]
  · simp [hin]

lemma length_inWindow (h : ∀ t ∈ okTimes log, t ≤ now) :
    (inWindow W now (okTimes log)).length = recent W now log := by
  rw [inWindow, ← countP_eq_length_filter, recent]
  refine countP_congr fun t ht => ?_
  have hle := h t ht
  rw [durationSince_of_le hle]
  simp only [decide_eq_true_eq, hle, and_true]
  constructor <;> intro _ <;> linarith

lemma inWindow_of_expired (hsorted : timestamps.Pairwise (· ≤ ·))
    (h : expired W now timestamps = true) (hnow : now ≤ now') :
    inWindow W now' timestamps = [] := by
  rw [inWindow, filter_eq_nil_iff]
  intro t ht
  obtain ⟨front, last, rfl⟩ := (eq_nil_or_concat' timestamps).resolve_left
    (ne_nil_of_mem ht)
  simp only [expired, getLast?_concat, decide_eq_true_eq] at h
  have hle : t ≤ last := by
    obtain ht | rfl := by simpa using ht
    · exact (pairwise_append.mp hsorted).2.2 t ht last (by simp)
    · exact le_rfl
  have hage : durationSince now last ≤ durationSince now' t :=
    max_le_max_left 0 (sub_le_sub hnow hle)
  simpa using h.trans hage

lemma Recorded.step (h : Recorded W c.now log v) :
    Recorded W c.now (log ++ [(c, (serve W c v).2)]) (some (serve W c v).1) := by
  have hlist : inWindow W c.now (v.getD []) = inWindow W c.now (okTimes log) := h.kept c.now le_rfl
  have hlen : (inWindow W c.now (v.getD [])).length = recent W c.now log := by
    rw [hlist, length_inWindow h.past]
  have hle : (inWindow W c.now (v.getD [])).length ≤ (v.getD []).length :=
    length_filter_le _ _
  have hsmall : recent W c.now log < 2 ^ 32 := hlen ▸ hle.trans_lt h.short
  have hlimit : c.limit ≤ UInt32.ofNat (inWindow W c.now (v.getD [])).length ↔
      c.limit.toNat ≤ recent W c.now log := by
    rw [UInt32.le_iff_toNat_le, hlen, UInt32.toNat_ofNat_of_lt' hsmall]
  have hsub : (inWindow W c.now (v.getD [])).Sublist (v.getD []) := filter_sublist
  rw [serve]
  simp only [hlimit]
  split
  · next hfull =>
    refine ⟨?_, fun now' hnow => ?_, fun t ht => ?_, ?_, ?_, ?_⟩
    · rw [okTimes_append_error]
      exact h.past
    · rw [okTimes_append_error, ← h.kept now' hnow]
      exact inWindow_inWindow hnow _
    · exact h.kept_past t (hsub.subset ht)
    · exact h.sorted.sublist hsub
    · exact hsub.length_le.trans_lt h.short
    · exact h.exact.append_singleton ⟨by simpa using hfull, by simpa using hfull⟩
  · next hroom =>
    have hlt := not_le.mp hroom
    refine ⟨?_, fun now' hnow => ?_, fun t ht => ?_, ?_, ?_, ?_⟩
    · rw [okTimes_append_ok, forall_mem_append, forall_mem_singleton]
      exact ⟨h.past, le_rfl⟩
    · have hfilter : ∀ l l' : List ℚ, inWindow W now' (l ++ l') =
          inWindow W now' l ++ inWindow W now' l' := fun l l' => filter_append ..
      rw [okTimes_append_ok, Option.getD_some, hfilter, hfilter, inWindow_inWindow hnow,
        h.kept now' hnow]
    · obtain ht | rfl := by simpa using ht
      · exact h.kept_past t (hsub.subset ht)
      · exact le_rfl
    · rw [Option.getD_some, pairwise_append]
      refine ⟨h.sorted.sublist hsub, pairwise_singleton _ _, fun t ht t' ht' => ?_⟩
      rw [mem_singleton.mp ht']
      exact h.kept_past t (hsub.subset ht)
    · rw [Option.getD_some, length_append, hlen, length_singleton]
      exact (Nat.succ_le_of_lt hlt).trans_lt c.limit.toNat_lt
    · exact h.exact.append_singleton ⟨by simpa using hlt, by simpa using hlt⟩

lemma recorded_keyInvariant (W : ℚ) (key : String) :
    (machine W).KeyInvariant WindowCall.now key (fun _ => True) (Recorded W) where
  later := by
    intro now now' log v hnow h
    exact ⟨fun t ht => (h.past t ht).trans hnow, fun now'' hnow' => h.kept now'' (hnow.trans hnow'),
      fun t ht => (h.kept_past t ht).trans hnow, h.sorted, h.short, h.exact⟩
  drop := by
    intro c log timestamps hstale h
    refine ⟨h.past, fun now' hnow => ?_, by simp, by simp, by simp, h.exact⟩
    rw [← h.kept now' hnow]
    exact (inWindow_of_expired h.sorted hstale hnow).symm
  step := fun _ _ h => h.step

lemma recorded_onKey (key : String) (hclock : (cs.map WindowCall.now).Pairwise (· ≤ ·)) :
    ∃ now v, Recorded W now (onKey key (serveAll (acquire W) ∅ cs)) v := by
  obtain ⟨now, hnow⟩ := Finset.exists_le (cs.map WindowCall.now).toFinset
  have hstart : ∀ now, Recorded W now [] none := fun now =>
    ⟨by simp [okTimes], fun _ _ => rfl, by simp, by simp, by simp, History.each_nil⟩
  rw [serveAll_eq_outputs fun windows _ => acquire_eq_next windows]
  exact ⟨now, _, (recorded_keyInvariant W key).run hstart (fun _ _ _ => trivial) hclock
    fun c hc => hnow _ (mem_toFinset.mpr (mem_map_of_mem hc))⟩

/-! ### Grants within a window -/

lemma countP_okTimes_le {L : Nat} {p : ℚ → Prop} [DecidablePred p]
    (hp : ∀ x t, p x → p t → t - W < x)
    (hclock : (log.map fun r => r.1.now).Pairwise (· ≤ ·))
    (h : History.Each (fun before r => r.2 = .ok () → recent W r.1.now before < L) log) :
    (okTimes log).countP p ≤ L := by
  induction log using List.reverseRecOn with
  | nil => exact Nat.zero_le _
  | append_singleton log r ih =>
    obtain ⟨heach, hlast⟩ := History.each_append_singleton_iff.mp h
    rw [map_append, pairwise_append] at hclock
    have ih := ih hclock.1 heach
    obtain ⟨c, e | ⟨⟨⟩⟩⟩ := r
    · rwa [okTimes_append_error]
    · rw [okTimes_append_ok, countP_append]
      by_cases hpc : p c.now
      · -- the others are in the window before the last one
        have hrecent : (okTimes log).countP p ≤ recent W c.now log := by
          refine countP_mono_left fun t ht hpt => ?_
          obtain ⟨r, hr, rfl⟩ := mem_map.mp ht
          have hle : r.1.now ≤ c.now := hclock.2.2 _
            (mem_map_of_mem (mem_of_mem_filter hr)) _ (by simp)
          simp only [decide_eq_true_eq] at hpt ⊢
          exact ⟨hp _ _ hpt hpc, hle⟩
        have hlast : recent W c.now log < L := hlast rfl
        simp only [countP_singleton, hpc, decide_true, if_true]
        omega
      · simpa [hpc] using ih

/-- A call is refused if and only if the window before it has as many grants of its key as its
limit. So with a constant limit there are never more than that within a window. -/
theorem slidingWindow_exact (W : ℚ) (cs : List WindowCall)
    (hclock : (cs.map WindowCall.now).Pairwise (· ≤ ·)) :
    (∀ before c r rest, serveAll (acquire W) ∅ cs = before ++ (c, r) :: rest →
      (r = .error .rateLimited ↔
        c.limit.toNat ≤ (okTimes (onKey c.key before)).countP fun t => c.now - W < t ∧ t ≤ c.now) ∧
      (r = .ok () ↔ (okTimes (onKey c.key before)).countP (fun t => c.now - W < t ∧ t ≤ c.now) <
        c.limit.toNat)) ∧
    ∀ (key : String) (L : UInt32), (∀ c ∈ cs, c.key = key → c.limit = L) → ∀ a,
      (okTimes (onKey key (serveAll (acquire W) ∅ cs))).countP (fun t => a ≤ t ∧ t < a + W) ≤
        L.toNat ∧
      (okTimes (onKey key (serveAll (acquire W) ∅ cs))).countP (fun t => a < t ∧ t ≤ a + W) ≤
        L.toNat := by
  constructor
  · intro before c r rest heq
    obtain ⟨now, v, hrecorded⟩ := recorded_onKey (W := W) c.key hclock
    rw [heq] at hrecorded
    exact hrecorded.exact (onKey c.key before) (c, r) (onKey c.key rest) (by simp [onKey])
  · intro key L hlimit a
    obtain ⟨now, v, hrecorded⟩ := recorded_onKey (W := W) key hclock
    have hlimits := limit_of_mem_onKey (acquire W) ∅ hlimit
    have heach : History.Each (fun before r => r.2 = .ok () → recent W r.1.now before < L.toNat)
        (onKey key (serveAll (acquire W) ∅ cs)) := by
      intro before r rest heq hok
      rw [← hlimits r (by simp [heq])]
      exact (hrecorded.exact before r rest heq).2.mp hok
    have hsorted := pairwise_onKey (acquire W) ∅ key hclock
    constructor
    · exact countP_okTimes_le (fun x t hx ht => by linarith [hx.1, ht.2]) hsorted heach
    · exact countP_okTimes_le (fun x t hx ht => by linarith [hx.1, ht.2]) hsorted heach

theorem slidingWindow_exact_two_calls :
    let cs : List WindowCall := [⟨"a", 1, 0⟩, ⟨"a", 1, 1 / 2⟩, ⟨"b", 1, 1 / 2⟩]
    (okTimes (onKey "a" (serveAll (acquire 1) ∅ cs))).countP (fun t => 0 ≤ t ∧ t < 0 + 1) ≤
      UInt32.toNat 1 :=
  ((slidingWindow_exact 1 _ (by decide +kernel)).2 "a" 1 (by decide) 0).1

end SlidingWindowLimiter

end Conrogate
