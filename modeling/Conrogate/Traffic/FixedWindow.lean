import Conrogate.Lib.Expiring
import Conrogate.Traffic.Limiter
import Mathlib.Data.Finset.Order

/-!
# The fixed-window limiter

A call after the end of the window starts a new one. Once the table is large, every call first drops
the windows that are over.
-/

namespace Conrogate

open List Expiring Nat

def maxEntries : Nat := 10000

structure WindowCall where
  key : String
  limit : UInt32
  now : ℚ

open WindowCall

section runs

variable {ν : Type}

def serveAll (acquire : ν → WindowCall → ν × Result Unit) :
    ν → List WindowCall → List (WindowCall × Result Unit)
  | _, [] => []
  | t, c :: cs => (c, (acquire t c).2) :: serveAll acquire (acquire t c).1 cs

def okTimes (rs : List (WindowCall × Result Unit)) : List ℚ :=
  (rs.filter fun r => r.2.isOk).map fun r => r.1.now

def onKey (key : String) (rs : List (WindowCall × Result Unit)) :
    List (WindowCall × Result Unit) :=
  rs.filter fun r => r.1.key = key

lemma serveAll_eq_outputs {m : Expiring String WindowCall ν (Result Unit)}
    {size : Nat} {acquire : (AList fun _ : String => ν) → WindowCall →
      (AList fun _ : String => ν) × Result Unit}
    (h : ∀ t c, acquire t c = m.next size t c) (t : AList fun _ : String => ν)
    (cs : List WindowCall) : serveAll acquire t cs = m.outputs size t cs := by
  induction cs generalizing t with
  | nil => rfl
  | cons c cs ih => rw [serveAll, outputs, h, ih]

lemma map_fst_serveAll (acquire : ν → WindowCall → ν × Result Unit) (t : ν)
    (cs : List WindowCall) : (serveAll acquire t cs).map Prod.fst = cs := by
  induction cs generalizing t with
  | nil => rfl
  | cons c cs ih => rw [serveAll, map_cons, ih]

variable {rs : List (WindowCall × Result Unit)} {c : WindowCall}

@[simp] lemma okTimes_append_ok : okTimes (rs ++ [(c, .ok ())]) = okTimes rs ++ [c.now] := by
  simp [okTimes, Except.isOk, Except.toBool]

@[simp] lemma okTimes_append_error (e : ConrogateError) :
    okTimes (rs ++ [(c, .error e)]) = okTimes rs := by
  simp [okTimes, Except.isOk, Except.toBool]

lemma map_fst_onKey (key : String) (rs : List (WindowCall × Result Unit)) :
    (onKey key rs).map Prod.fst = (rs.map Prod.fst).filter fun c => c.key = key := by
  rw [onKey, filter_map]
  rfl

section

variable {cs : List WindowCall} (acquire : ν → WindowCall → ν × Result Unit) (t : ν)

lemma limit_of_mem_onKey {key : String} {L : UInt32} (h : ∀ c ∈ cs, c.key = key → c.limit = L) :
    ∀ r ∈ onKey key (serveAll acquire t cs), r.1.limit = L := by
  intro r hr
  have hmem := mem_map_of_mem (f := Prod.fst) hr
  rw [map_fst_onKey, map_fst_serveAll, mem_filter, decide_eq_true_eq] at hmem
  exact h r.1 hmem.1 hmem.2

lemma pairwise_onKey (key : String) (h : (cs.map now).Pairwise (· ≤ ·)) :
    ((onKey key (serveAll acquire t cs)).map fun r => r.1.now).Pairwise (· ≤ ·) := by
  have hcalls := map_fst_onKey key (serveAll acquire t cs)
  have htimes : (onKey key (serveAll acquire t cs)).map (fun r => r.1.now) =
      ((onKey key (serveAll acquire t cs)).map Prod.fst).map now := by
    rw [map_map]
    rfl
  rw [htimes, hcalls, map_fst_serveAll]
  exact h.sublist (filter_sublist.map _)

end

lemma durationSince_mono {now now' : ℚ} (h : now ≤ now') (earlier : ℚ) :
    durationSince now earlier ≤ durationSince now' earlier :=
  max_le_max_left 0 (sub_le_sub_right h earlier)

lemma durationSince_of_le {now earlier : ℚ} (h : earlier ≤ now) :
    durationSince now earlier = now - earlier :=
  max_eq_right (sub_nonneg.mpr h)

end runs

structure WindowEntry where
  count : UInt32
  windowStart : ℚ

def WindowEntry.refresh (W now : ℚ) (entry : WindowEntry) : WindowEntry :=
  if W ≤ durationSince now entry.windowStart then ⟨0, now⟩ else entry

namespace FixedWindowLimiter

def step (W : ℚ) (c : WindowCall) : Option WindowEntry →
    Option WindowEntry × Result Unit
  | some entry =>
    let entry := entry.refresh W c.now
    if c.limit ≤ entry.count then (some entry, .error .rateLimited)
    else (some { entry with count := entry.count + 1 }, .ok ())
  | none =>
    if c.limit = 0 then (none, .error .rateLimited)
    else (some ⟨1, c.now⟩, .ok ())

def serve (W : ℚ) (windows : AList fun _ : String => WindowEntry) (c : WindowCall) :
    (AList fun _ : String => WindowEntry) × Result Unit :=
  match step W c (windows.lookup c.key) with
  | (some entry, r) => (windows.insert c.key entry, r)
  | (none, r) => (windows, r)

def acquire (W : ℚ) (windows : AList fun _ : String => WindowEntry) (c : WindowCall) :
    (AList fun _ : String => WindowEntry) × Result Unit :=
  serve W
    (if maxEntries ≤ windows.entries.length then
      Expiring.retain (fun e => durationSince c.now e.windowStart < W) windows
    else windows) c

def machine (W : ℚ) (drops : Bool) :
    Expiring String WindowCall WindowEntry (Result Unit) where
  key := key
  stale c e := drops && W ≤ durationSince c.now e.windowStart
  step := step W

variable {W : ℚ} {drops : Bool} {c : WindowCall} {cs : List WindowCall} {key : String}
  {windows : AList fun _ : String => WindowEntry}

lemma step_eq_none {v : Option WindowEntry} (h : (step W c v).1 = none) : v = none := by
  cases v with
  | none => rfl
  | some entry =>
    simp only [step] at h
    split_ifs at h

lemma serve_eq_put : serve W windows c =
    (put windows c.key (step W c (windows.lookup c.key)).1,
      (step W c (windows.lookup c.key)).2) := by
  rw [serve]
  split
  · next entry r heq => rw [heq]; rfl
  · next r heq =>
    -- the key was not there
    have hnone := step_eq_none (congrArg Prod.fst heq)
    have habsent : windows.erase c.key = windows :=
      AList.ext (kerase_of_notMem_keys (AList.lookup_eq_none.mp hnone))
    rw [heq, put, habsent]

lemma acquire_eq_next : acquire W windows c = (machine W true).next maxEntries windows c := by
  have hkept : (fun v : WindowEntry => !(machine W true).stale c v) =
      fun e => decide (durationSince c.now e.windowStart < W) := by
    funext e
    simp only [machine, Bool.true_and, ← decide_not, not_le]
  rw [acquire, serve_eq_put, Expiring.next, clean, hkept]
  rfl

lemma serve_eq_next : serve W windows c = (machine W false).next maxEntries windows c := by
  have hall : retain (fun v => !(machine W false).stale c v) windows = windows :=
    AList.ext (filter_eq_self.mpr fun e _ => by simp [machine])
  rw [serve_eq_put, Expiring.next, clean, hall, ite_self]
  rfl

/-! ### Without the other keys -/

inductive Alone (W : ℚ) :
    List (WindowCall × Result Unit) → Option WindowEntry → Prop
  | nil : Alone W [] none
  | snoc {log : List (WindowCall × Result Unit)} {u : Option WindowEntry}
      (h : Alone W log u) (c : WindowCall) : Alone W (log ++ [(c, (step W c u).2)]) (step W c u).1

variable {log log' : List (WindowCall × Result Unit)} {u u' : Option WindowEntry}

lemma Alone.unique (h : Alone W log u) (h' : Alone W log' u')
    (hcalls : log.map Prod.fst = log'.map Prod.fst) : log = log' ∧ u = u' := by
  induction h generalizing log' u' with
  | nil =>
    cases h' with
    | nil => exact ⟨rfl, rfl⟩
    | snoc h' c => simp at hcalls
  | snoc h c ih =>
    cases h' with
    | nil => simp at hcalls
    | snoc h' c' =>
      simp only [map_append, map_cons, map_nil] at hcalls
      obtain ⟨hfront, hlast⟩ := append_inj' hcalls rfl
      obtain rfl := singleton_inj.mp hlast
      obtain ⟨rfl, rfl⟩ := ih h' hfront
      exact ⟨rfl, rfl⟩

def Agrees (W : ℚ) (L : UInt32) (now : ℚ)
    (log : List (WindowCall × Result Unit)) (v : Option WindowEntry) : Prop :=
  ∃ u, Alone W log u ∧ (L = 0 → u = none) ∧
    (v = u ∨ v = none ∧ ∃ e, u = some e ∧ W ≤ durationSince now e.windowStart)

lemma step_of_over {e : WindowEntry} (hover : W ≤ durationSince c.now e.windowStart)
    (hlimit : c.limit ≠ 0) : step W c (some e) = step W c none := by
  have hpos : ¬ c.limit ≤ 0 := by
    rw [UInt32.le_iff_toNat_le]
    intro hle
    exact hlimit (UInt32.toNat_inj.mp (le_zero.mp hle))
  simp [step, WindowEntry.refresh, hover, hlimit, hpos]

lemma agrees_keyInvariant (W : ℚ) (drops : Bool) (key : String) (L : UInt32) :
    (machine W drops).KeyInvariant now key (fun c => c.limit = L) (Agrees W L) where
  later := by
    rintro now now' log v hnow ⟨u, halone, hzero, heq | ⟨hnone, e, he, hover⟩⟩
    · exact ⟨u, halone, hzero, .inl heq⟩
    · exact ⟨u, halone, hzero, .inr ⟨hnone, e, he, hover.trans (durationSince_mono hnow _)⟩⟩
  drop := by
    rintro c log e hstale ⟨u, halone, hzero, heq | ⟨hnone, -⟩⟩
    · have hover : W ≤ durationSince c.now e.windowStart := by
        simp only [machine, Bool.and_eq_true, decide_eq_true_eq] at hstale
        exact hstale.2
      exact ⟨u, halone, hzero, .inr ⟨rfl, e, heq.symm, hover⟩⟩
    · cases hnone
  step := by
    rintro c log v - hlimit ⟨u, halone, hzero, hv⟩
    have hstep : step W c v = step W c u := by
      obtain rfl | ⟨rfl, e, rfl, hover⟩ := hv
      · rfl
      · refine (step_of_over hover fun h => ?_).symm
        cases hzero (hlimit.symm.trans h)
    refine ⟨(step W c u).1, ?_, ?_, .inl (congrArg Prod.fst hstep)⟩
    · have hsnoc := halone.snoc c
      rw [← hstep] at hsnoc ⊢
      exact hsnoc
    · intro hL
      rw [hzero hL]
      simp [step, hlimit, hL]

lemma alone_onKey {L : UInt32} (drops : Bool) (hlimit : ∀ c ∈ cs, c.key = key → c.limit = L)
    (hclock : (cs.map now).Pairwise (· ≤ ·)) :
    ∃ u, Alone W (onKey key ((machine W drops).outputs maxEntries ∅ cs)) u := by
  obtain ⟨now, hnow⟩ := Finset.exists_le (cs.map now).toFinset
  obtain ⟨u, halone, -, -⟩ := (agrees_keyInvariant W drops key L).run
    (fun now => ⟨none, .nil, fun _ => rfl, .inl rfl⟩) hlimit hclock
    (fun c hc => hnow _ (mem_toFinset.mpr (mem_map_of_mem hc)))
  exact ⟨u, halone⟩

/-! ### The windows of a key -/

variable {L : UInt32} {p : ℚ → Prop} [DecidablePred p] {oks : List ℚ} {e : WindowEntry} {now : ℚ}

structure Counted (W : ℚ) (L : UInt32) (p : ℚ → Prop) [DecidablePred p] (oks : List ℚ)
    (e : WindowEntry) : Prop where
  count_eq : oks.countP (fun t => e.windowStart ≤ t) = e.count.toNat
  count_le : e.count.toNat ≤ L.toNat
  inside : ∀ t ∈ oks, t < e.windowStart + W
  old_le : oks.countP (fun t => p t ∧ t < e.windowStart) ≤ 2 * L.toNat
  old_le_of : ∀ t, e.windowStart ≤ t → p t →
    oks.countP (fun t => p t ∧ t < e.windowStart) ≤ L.toNat

lemma countP_split (p : ℚ → Prop) [DecidablePred p] (oks : List ℚ) (s : ℚ) :
    oks.countP p = oks.countP (fun t => p t ∧ t < s) + oks.countP (fun t => p t ∧ s ≤ t) := by
  induction oks with
  | nil => rfl
  | cons t oks ih =>
    simp only [countP_cons, ih]
    by_cases hp : p t
    · by_cases hs : t < s
      · simp [hp, hs, not_le.mpr hs]
        omega
      · simp [hp, hs, not_lt.mp hs]
        omega
    · simp [hp]

section

variable (h : Counted W L p oks e)
include h

lemma Counted.current_le :
    oks.countP (fun t => p t ∧ e.windowStart ≤ t) ≤ L.toNat := by
  refine (countP_mono_left fun t _ ht => ?_).trans (h.count_eq.trans_le h.count_le)
  simp only [decide_eq_true_eq] at ht ⊢
  exact ht.2

lemma Counted.total_le : oks.countP p ≤ 2 * L.toNat := by
  have hcurrent := h.current_le
  rw [countP_split p oks e.windowStart]
  rcases Nat.eq_zero_or_pos (oks.countP fun t => p t ∧ e.windowStart ≤ t) with hzero | hpos
  · have hold := h.old_le
    omega
  · obtain ⟨t, -, ht⟩ := countP_pos_iff.mp hpos
    simp only [decide_eq_true_eq] at ht
    have hold := h.old_le_of t ht.2 ht.1
    omega

lemma Counted.total_le_of (hp : ∀ x t, p x → p t → t - x < W) {t : ℚ} (ht : e.windowStart + W ≤ t)
    (hpt : p t) : oks.countP p ≤ L.toNat := by
  have hold : oks.countP (fun t => p t ∧ t < e.windowStart) = 0 := by
    rw [countP_eq_zero]
    intro x _ hx
    simp only [decide_eq_true_eq] at hx
    have hspan := hp x t hx.1 hpt
    linarith [hx.2]
  rw [countP_split p oks e.windowStart, hold, zero_add]
  exact h.current_le

lemma Counted.refresh (hW : 0 < W) (hp : ∀ x t, p x → p t → t - x < W)
    (hstart : e.windowStart ≤ now) :
    Counted W L p oks (e.refresh W now) ∧ (e.refresh W now).windowStart ≤ now ∧
      now < (e.refresh W now).windowStart + W := by
  rw [WindowEntry.refresh, durationSince_of_le hstart]
  split
  · next hover =>
    have hbefore : ∀ t ∈ oks, t < now := fun t ht => by linarith [h.inside t ht]
    have hall : oks.countP (fun t => p t ∧ t < now) = oks.countP p := by
      refine countP_congr fun t ht => ?_
      simp [hbefore t ht]
    refine ⟨⟨?_, zero_le _, fun t ht => ?_, ?_, fun t ht hpt => ?_⟩, le_rfl, by linarith⟩
    · exact countP_eq_zero.mpr fun t ht => by simpa using hbefore t ht
    · linarith [hbefore t ht]
    · rw [hall]
      exact h.total_le
    · rw [hall]
      exact h.total_le_of hp (by linarith [show now ≤ t from ht]) hpt
  · next hover => exact ⟨h, hstart, by linarith [not_le.mp hover]⟩

lemma Counted.grant (hstart : e.windowStart ≤ now) (hend : now < e.windowStart + W)
    (hlt : e.count < L) :
    Counted W L p (oks ++ [now]) { e with count := e.count + 1 } := by
  have hlt' : e.count.toNat < L.toNat := UInt32.lt_iff_toNat_lt.mp hlt
  have hcount : (e.count + 1).toNat = e.count.toNat + 1 := by
    rw [UInt32.toNat_add, UInt32.toNat_one]
    exact mod_eq_of_lt (by have := L.toNat_lt; omega)
  have hold : (oks ++ [now]).countP (fun t => p t ∧ t < e.windowStart) =
      oks.countP fun t => p t ∧ t < e.windowStart := by
    simp [not_lt.mpr hstart]
  refine ⟨?_, hcount.trans_le hlt', fun t ht => ?_, ?_, fun t ht hpt => ?_⟩
  · simp [hcount, h.count_eq, hstart]
  · obtain ht | rfl := by simpa using ht
    · exact h.inside t ht
    · exact hend
  · rw [hold]
    exact h.old_le
  · rw [hold]
    exact h.old_le_of t ht hpt

end

lemma counted_nil (W : ℚ) (L : UInt32) (p : ℚ → Prop) [DecidablePred p] (now : ℚ) :
    Counted W L p [] ⟨0, now⟩ :=
  ⟨rfl, zero_le _, by simp, by simp, by simp⟩

def Accounted (W : ℚ) (L : UInt32) (p : ℚ → Prop) [DecidablePred p]
    (log : List (WindowCall × Result Unit)) : Option WindowEntry → Prop
  | none   => okTimes log = []
  | some e => Counted W L p (okTimes log) e ∧ e.windowStart ∈ log.map fun r => r.1.now

lemma Accounted.step {u : Option WindowEntry} (h : Accounted W L p log u) (hW : 0 < W)
    (hp : ∀ x t, p x → p t → t - x < W) (hlimit : c.limit = L)
    (hpast : ∀ r ∈ log, r.1.now ≤ c.now) :
    Accounted W L p (log ++ [(c, (step W c u).2)]) (step W c u).1 := by
  subst hlimit
  cases u with
  | none =>
    have hnil : okTimes log = [] := h
    rw [FixedWindowLimiter.step]
    split
    · simpa [Accounted] using hnil
    · next hpos =>
      have hlt : (0 : UInt32) < c.limit := by
        rw [UInt32.lt_iff_toNat_lt]
        exact pos_of_ne_zero fun hzero => hpos (UInt32.toNat_inj.mp hzero)
      refine ⟨?_, by simp⟩
      rw [okTimes_append_ok, hnil]
      exact (counted_nil W c.limit p c.now).grant le_rfl (by linarith) hlt
  | some e =>
    obtain ⟨hcounted, hmem⟩ := h
    obtain ⟨r, hr, hstart⟩ := mem_map.mp hmem
    have hbegun : e.windowStart ≤ c.now := hstart ▸ hpast r hr
    obtain ⟨hcounted', hstart', hend'⟩ := hcounted.refresh hW hp hbegun
    have hmem' : ∀ res : Result Unit, (e.refresh W c.now).windowStart ∈
        (log ++ [(c, res)]).map fun r => r.1.now := by
      intro res
      rw [map_append, WindowEntry.refresh]
      split
      · exact mem_append_right _ (by simp)
      · exact mem_append_left _ hmem
    simp only [FixedWindowLimiter.step]
    split
    · exact ⟨by rwa [okTimes_append_error], hmem' _⟩
    · next hlt =>
      refine ⟨?_, hmem' _⟩
      rw [okTimes_append_ok]
      exact hcounted'.grant hstart' hend' (UInt32.not_le.mp hlt)

lemma Alone.accounted (h : Alone W log u) (hW : 0 < W) (hp : ∀ x t, p x → p t → t - x < W)
    (hlimit : ∀ r ∈ log, r.1.limit = L)
    (hclock : (log.map fun r => r.1.now).Pairwise (· ≤ ·)) : Accounted W L p log u := by
  induction h with
  | nil => rfl
  | snoc h c ih =>
    rw [forall_mem_append, forall_mem_singleton] at hlimit
    rw [map_append, pairwise_append] at hclock
    refine (ih hlimit.1 hclock.1).step hW hp hlimit.2 fun r hr => ?_
    exact hclock.2.2 _ (mem_map_of_mem hr) _ (by simp)

lemma Alone.countP_le (h : Alone W log u) (hp : ∀ x t, p x → p t → t - x < W)
    (hlimit : ∀ r ∈ log, r.1.limit = L)
    (hclock : (log.map fun r => r.1.now).Pairwise (· ≤ ·)) :
    (okTimes log).countP p ≤ 2 * L.toNat := by
  rcases lt_or_ge 0 W with hW | hW
  · have haccounted := h.accounted hW hp hlimit hclock
    cases u with
    | none =>
      rw [show okTimes log = [] from haccounted]
      exact zero_le _
    | some e => exact haccounted.1.total_le
  · -- there are none at all
    have hnone : (okTimes log).countP p = 0 := by
      rw [countP_eq_zero]
      intro t _ ht
      have hspan := hp t t (by simpa using ht) (by simpa using ht)
      linarith
    rw [hnone]
    exact zero_le _

/-- An interval as long as the window has at most twice the limit of grants, and the results are
those of a limiter that never cleans its table. -/
theorem fixedWindow_rate (W : ℚ) (key : String) (L : UInt32) (cs : List WindowCall)
    (hclock : (cs.map WindowCall.now).Pairwise (· ≤ ·))
    (hlimit : ∀ c ∈ cs, c.key = key → c.limit = L) :
    (∀ a, (okTimes (onKey key (serveAll (acquire W) ∅ cs))).countP
        (fun t => a ≤ t ∧ t < a + W) ≤ 2 * L.toNat ∧
      (okTimes (onKey key (serveAll (acquire W) ∅ cs))).countP
        (fun t => a < t ∧ t ≤ a + W) ≤ 2 * L.toNat) ∧
    onKey key (serveAll (acquire W) ∅ cs) = onKey key (serveAll (serve W) ∅ cs) := by
  obtain ⟨u, halone⟩ := alone_onKey (W := W) true hlimit hclock
  obtain ⟨u', halone'⟩ := alone_onKey (W := W) false hlimit hclock
  rw [← serveAll_eq_outputs (fun _ _ => acquire_eq_next)] at halone
  rw [← serveAll_eq_outputs (fun _ _ => serve_eq_next)] at halone'
  constructor
  · have hlimits := limit_of_mem_onKey (acquire W) ∅ hlimit
    have hsorted := pairwise_onKey (acquire W) ∅ key hclock
    intro a
    constructor
    · exact halone.countP_le (fun x t hx ht => by linarith [hx.1, ht.2]) hlimits hsorted
    · exact halone.countP_le (fun x t hx ht => by linarith [hx.1, ht.2]) hlimits hsorted
  · refine (halone.unique halone' ?_).1
    rw [map_fst_onKey, map_fst_onKey, map_fst_serveAll, map_fst_serveAll]

theorem fixedWindow_rate_two_keys :
    let cs : List WindowCall := [⟨"a", 1, 0⟩, ⟨"b", 5, 0⟩, ⟨"a", 1, 1⟩, ⟨"a", 1, 1⟩]
    onKey "a" (serveAll (acquire 1) ∅ cs) = onKey "a" (serveAll (serve 1) ∅ cs) :=
  (fixedWindow_rate 1 "a" 1 _ (by decide +kernel) (by decide)).2

end FixedWindowLimiter

end Conrogate
