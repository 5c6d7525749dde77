import Conrogate.Gateway.Aggregator

/-!
# No sample is lost

Every sample is in one place: in an open bucket, in a row that waits to be written again, or in the
table.
-/

namespace Conrogate

open List Option AList Transition MetricBucket Aggregator

namespace Aggregator

variable (bucketSec : Nat)

def samplesOf (s : Aggregator) (key : MetricKey) : List MetricRow :=
  s.received.filter (bucketKey bucketSec · == key)

def totals (s : Aggregator) (key : MetricKey) (c : Counter) : Nat :=
  ((s.samplesOf bucketSec key).map (·.counter c)).sum

def waiting (s : Aggregator) : List MetricRow := s.failed.flatten

def Flushed (s : Aggregator) : Prop := s.buckets.keys = [] ∧ s.waiting = []

def SumsUp (s : Aggregator) (key : MetricKey) : Prop :=
  (s.samplesOf bucketSec key = [] → metricsOf s.table key = []) ∧
  (s.samplesOf bucketSec key ≠ [] →
    ∃ r, metricsOf s.table key = [r] ∧ r.counter = s.totals bucketSec key)

/-- The sample has no session and is not late: its bucket has not been taken out yet. At a tick,
the rows that wait are written before the attempts are over, and a call that fails writes no row
without a route. -/
def Kept (s : Aggregator) : AggregatorEvent → Prop
  | .sample row =>
    row.sessions = 0 ∧ metricsOf s.table (bucketKey bucketSec row) = [] ∧
      bucketKey bucketSec row ∉ s.waiting.map MetricRow.key
  | .flush _ order outcome =>
    (∀ i < s.failed.length, ∃ a < 3, outcome i a = .done) ∧
    ∀ i rows, (s.failed ++ [s.dueRows bucketSec order])[i]? = some rows →
      ∀ a < 3, RoutesOnly (outcome i a) rows

/-! ### Where the samples are -/

/-- The samples of a bucket are in one place only. -/
inductive Located (s : Aggregator) (key : MetricKey) : Prop
  | nowhere (hsamples : s.samplesOf bucketSec key = []) (hbucket : s.buckets.lookup key = none)
      (hwaiting : key ∉ s.waiting.map MetricRow.key) (htable : metricsOf s.table key = [])
  | inMap (b : MetricBucket) (hsamples : s.samplesOf bucketSec key ≠ [])
      (hbucket : s.buckets.lookup key = some b) (hcounts : b.counter = s.totals bucketSec key)
      (hwaiting : key ∉ s.waiting.map MetricRow.key) (htable : metricsOf s.table key = [])
  | waits (r : MetricRow) (hsamples : s.samplesOf bucketSec key ≠ [])
      (hbucket : s.buckets.lookup key = none) (hr : r ∈ s.waiting) (hkey : r.key = key)
      (hcounts : r.counter = s.totals bucketSec key)
  | stored (r : MetricRow) (hsamples : s.samplesOf bucketSec key ≠ [])
      (hbucket : s.buckets.lookup key = none) (hwaiting : key ∉ s.waiting.map MetricRow.key)
      (htable : metricsOf s.table key = [r]) (hcounts : r.counter = s.totals bucketSec key)

structure Accounts (s : Aggregator) : Prop where
  located : ∀ key, s.Located bucketSec key
  waiting : Batch bucketSec s.table s.waiting
  table : AllBuckets bucketSec s.table

end Aggregator

namespace MetricBucket

lemma counter_default (c : Counter) : default.counter c = 0 := by
  cases c <;> rfl

lemma counter_add {row : MetricRow} (hsessions : row.sessions = 0) (b : MetricBucket)
    (c : Counter) : (b.add row).counter c = b.counter c + row.counter c := by
  cases c with
  | sessions => simp [counter, MetricRow.counter, hsessions]
  | _ => rfl

section

variable (b : MetricBucket) (key : MetricKey) (bucketSec : Nat)

lemma counter_toMetricRow :
    (b.toMetricRow key bucketSec).counter = b.counter := by
  funext c
  cases c <;> rfl

lemma key_toMetricRow :
    (b.toMetricRow key bucketSec).key = key := rfl

end

end MetricBucket

namespace Aggregator

variable {bucketSec : Nat} {s t : Aggregator} {key : MetricKey} {order : List MetricKey}

lemma totals_congr (hsamples : t.samplesOf bucketSec key = s.samplesOf bucketSec key) :
    t.totals bucketSec key = s.totals bucketSec key := by
  funext c
  rw [totals, hsamples, totals]

lemma Located.congr (h : s.Located bucketSec key) (hs : key ∉ s.waiting.map MetricRow.key)
    (ht : key ∉ t.waiting.map MetricRow.key)
    (hsamples : t.samplesOf bucketSec key = s.samplesOf bucketSec key)
    (hbucket : t.buckets.lookup key = s.buckets.lookup key)
    (htable : metricsOf t.table key = metricsOf s.table key) : t.Located bucketSec key := by
  have htotals := totals_congr hsamples
  cases h with
  | nowhere hno hb _ htab =>
    exact .nowhere (hsamples.trans hno) (hbucket.trans hb) ht (htable.trans htab)
  | inMap b hsome hb hcounts _ htab =>
    exact .inMap b (hsamples ▸ hsome) (hbucket.trans hb) (hcounts.trans htotals.symm) ht
      (htable.trans htab)
  | waits r _ _ hr hkey => exact absurd (hkey ▸ mem_map_of_mem hr) hs
  | stored r hsome hb _ htab hcounts =>
    exact .stored r (hsamples ▸ hsome) (hbucket.trans hb) ht (htable.trans htab)
      (hcounts.trans htotals.symm)

lemma Located.of_waiting (h : s.Located bucketSec key)
    (hwaiting : key ∈ s.waiting.map MetricRow.key) :
    s.samplesOf bucketSec key ≠ [] ∧ s.buckets.lookup key = none ∧
      ∃ r ∈ s.waiting, r.key = key ∧ r.counter = s.totals bucketSec key := by
  cases h with
  | waits r hsome hbucket hr hkey hcounts => exact ⟨hsome, hbucket, r, hr, hkey, hcounts⟩
  | nowhere _ _ hno => exact absurd hwaiting hno
  | inMap _ _ _ _ hno => exact absurd hwaiting hno
  | stored _ _ _ hno => exact absurd hwaiting hno

lemma Located.of_lookup (h : s.Located bucketSec key) {b : MetricBucket}
    (hb : s.buckets.lookup key = some b) :
    s.samplesOf bucketSec key ≠ [] ∧ b.counter = s.totals bucketSec key ∧
      key ∉ s.waiting.map MetricRow.key ∧ metricsOf s.table key = [] := by
  cases h with
  | inMap b' hsome hb' hcounts hwaiting htable =>
    cases hb'.symm.trans hb
    exact ⟨hsome, hcounts, hwaiting, htable⟩
  | nowhere _ hbucket => cases hbucket.symm.trans hb
  | waits _ _ hbucket => cases hbucket.symm.trans hb
  | stored _ _ hbucket => cases hbucket.symm.trans hb

section

variable {row : MetricRow}

section

variable (hstep : step bucketSec s (.sample row) = some t)
include hstep

lemma samplesOf_sample_self :
    t.samplesOf bucketSec (bucketKey bucketSec row) =
      s.samplesOf bucketSec (bucketKey bucketSec row) ++ [row] := by
  cases hstep
  simp [samplesOf]

lemma samplesOf_sample_of_ne (hne : key ≠ bucketKey bucketSec row) :
    t.samplesOf bucketSec key = s.samplesOf bucketSec key := by
  cases hstep
  simp [samplesOf, hne.symm]

lemma totals_sample_self (c : Counter) :
    t.totals bucketSec (bucketKey bucketSec row) c =
      s.totals bucketSec (bucketKey bucketSec row) c + row.counter c := by
  rw [totals, samplesOf_sample_self hstep, map_append, sum_append, ← totals,
    map_singleton, sum_singleton]

end

section

variable (h : s.Accounts bucketSec) (hkept : s.Kept bucketSec (.sample row))
  (hstep : step bucketSec s (.sample row) = some t)
include h hkept hstep

lemma Accounts.located_sample_self :
    t.Located bucketSec (bucketKey bucketSec row) := by
  obtain ⟨hsessions, htable, hwaiting⟩ := hkept
  have hsome : t.samplesOf bucketSec (bucketKey bucketSec row) ≠ [] := by
    rw [samplesOf_sample_self hstep]
    exact append_ne_nil_of_right_ne_nil _ (cons_ne_nil _ _)
  have htotals := totals_sample_self hstep
  cases h.located (bucketKey bucketSec row) with
  | nowhere hno hbucket =>
    cases hstep
    refine .inMap (default.add row) hsome ?_ ?_ hwaiting htable
    · rw [lookup_insert, hbucket, getD_none]
    · funext c
      rw [counter_add hsessions, counter_default, htotals, totals, hno]
      rfl
  | inMap b _ hbucket hcounts =>
    cases hstep
    refine .inMap (b.add row) hsome ?_ ?_ hwaiting htable
    · rw [lookup_insert, hbucket, getD_some]
    · funext c
      rw [counter_add hsessions, hcounts, htotals]
  | waits r _ _ hr hkey => exact absurd (hkey ▸ mem_map_of_mem hr) hwaiting
  | stored r _ _ _ hone =>
    rw [htable] at hone
    cases hone

lemma Accounts.sample : t.Accounts bucketSec := by
  have hself := h.located_sample_self hkept hstep
  have hother := fun key (hne : key ≠ bucketKey bucketSec row) => samplesOf_sample_of_ne hstep hne
  cases hstep
  refine ⟨fun key => ?_, h.waiting, h.table⟩
  by_cases hne : key = bucketKey bucketSec row
  · exact hne ▸ hself
  have hbucket : (s.buckets.insert (bucketKey bucketSec row)
      (((s.buckets.lookup (bucketKey bucketSec row)).getD .default).add row)).lookup key =
      s.buckets.lookup key := lookup_insert_ne hne
  by_cases hwaiting : key ∈ s.waiting.map MetricRow.key
  · obtain ⟨hsome, hb, r, hr, hkey, hcounts⟩ := (h.located key).of_waiting hwaiting
    exact .waits r (hother key hne ▸ hsome) (hbucket.trans hb) hr hkey
      (hcounts.trans (totals_congr (hother key hne)).symm)
  · exact (h.located key).congr hwaiting hwaiting (hother key hne) hbucket rfl

end

end

lemma lookup_foldl_erase (buckets : AList fun _ : MetricKey => MetricBucket) :
    (order.foldl (fun buckets key => buckets.erase key) buckets).lookup key =
      if key ∈ order then none else buckets.lookup key := by
  induction order generalizing buckets with
  | nil => rfl
  | cons first order ih =>
    rw [foldl_cons, ih]
    by_cases heq : key = first
    · subst heq
      simp
    · simp [lookup_erase_ne heq, heq]

lemma mem_dueRows {r : MetricRow} : r ∈ s.dueRows bucketSec order ↔
    ∃ b, r.key ∈ order ∧ s.buckets.lookup r.key = some b ∧ b.toMetricRow r.key bucketSec = r := by
  simp only [dueRows, mem_filterMap, map_eq_some_iff]
  constructor
  · rintro ⟨key, hkey, b, hb, rfl⟩
    exact ⟨b, hkey, hb, rfl⟩
  · rintro ⟨b, hkey, hb, hrow⟩
    exact ⟨r.key, hkey, b, hb, hrow⟩

lemma map_key_dueRows (hall : ∀ key ∈ order, ∃ b, s.buckets.lookup key = some b) :
    (s.dueRows bucketSec order).map MetricRow.key = order := by
  induction order with
  | nil => rfl
  | cons first order ih =>
    obtain ⟨b, hb⟩ := hall first mem_cons_self
    have hrest := ih fun key hkey => hall key (mem_cons_of_mem first hkey)
    rw [dueRows] at hrest ⊢
    rw [filterMap_cons, hb, map_some, map_cons, hrest, key_toMetricRow]

structure Ticked (bucketSec : Nat) (s t : Aggregator) (order : List MetricKey) : Prop where
  received : t.received = s.received
  lookup : ∀ key, t.buckets.lookup key = if key ∈ order then none else s.buckets.lookup key
  due : ∀ key ∈ order, ∃ b, s.buckets.lookup key = some b
  table : AllBuckets bucketSec t.table
  batch : Batch bucketSec t.table t.waiting
  waiting : t.waiting ⊆ s.dueRows bucketSec order
  frame : ∀ key, key ∉ s.waiting.map MetricRow.key → key ∉ order →
    metricsOf t.table key = metricsOf s.table key
  stored : ∀ r ∈ s.waiting, metricsOf t.table r.key = [r]
  written : ∀ r ∈ s.dueRows bucketSec order,
    r ∈ t.waiting ∨ (r.key ∉ t.waiting.map MetricRow.key ∧ metricsOf t.table r.key = [r])

variable {now : Time}

lemma exists_lookup_of_due (hperm : order.Perm (s.dueKeys bucketSec now)) :
    ∀ key ∈ order, ∃ b, s.buckets.lookup key = some b := by
  intro key hkey
  have hmem : key ∈ s.buckets.keys := mem_of_mem_filter (hperm.subset hkey)
  exact isSome_iff_exists.mp (lookup_isSome.mpr hmem)

lemma Accounts.batch_dueRows (h : s.Accounts bucketSec) {table : List MetricRow}
    (hperm : order.Perm (s.dueKeys bucketSec now))
    (hwrote : Wrote bucketSec s.table s.waiting table) :
    Batch bucketSec table (s.dueRows bucketSec order) where
  buckets r hr := by
    obtain ⟨b, -, -, hrow⟩ := mem_dueRows.mp hr
    rw [← hrow]
    rfl
  keys := by
    rw [map_key_dueRows (exists_lookup_of_due hperm)]
    exact hperm.nodup_iff.mpr (s.buckets.keys_nodup.filter _)
  writable r hr := by
    obtain ⟨b, -, hb, -⟩ := mem_dueRows.mp hr
    obtain ⟨-, -, hwaiting, htable⟩ := (h.located r.key).of_lookup hb
    exact .inl ((hwrote.frame _ hwaiting).trans htable)

lemma Accounts.ticked {outcome : Nat → Nat → UpsertEnd} (h : s.Accounts bucketSec)
    (hkept : s.Kept bucketSec (.flush now order outcome))
    (hstep : step bucketSec s (.flush now order outcome) = some t) :
    Ticked bucketSec s t order := by
  obtain ⟨hdone, hroutes⟩ := hkept
  rw [step] at hstep
  split_ifs at hstep with hperm
  have hdue := exists_lookup_of_due hperm
  have hkeys : (s.dueRows bucketSec order).map MetricRow.key = order := map_key_dueRows hdue
  -- first the rows that wait, then those that are due
  have hfailed : ∀ j rows, s.failed[j]? = some rows →
      ∀ a < 3, RoutesOnly (outcome (0 + j) a) rows := by
    intro j rows hj
    rw [Nat.zero_add]
    refine hroutes j rows ?_
    rw [getElem?_append_left (List.getElem?_eq_some_iff.mp hj).1, hj]
  obtain ⟨table₁, heq₁, hwrote₁, hstored₁⟩ :=
    flushBatches_of_done h.table h.waiting 0 hfailed fun j hj => (Nat.zero_add j).symm ▸ hdone j hj
  obtain ⟨table₂, hwrote₂, hend⟩ := flushRows_spec hwrote₁.buckets
    (h.batch_dueRows hperm hwrote₁) (hroutes s.failed.length _ (by simp))
  have hframe : ∀ key, key ∉ s.waiting.map MetricRow.key → key ∉ order →
      metricsOf table₂ key = metricsOf s.table key := by
    intro key hwaiting horder
    rw [hwrote₂.frame key (hkeys.symm ▸ horder), hwrote₁.frame key hwaiting]
  have hstored : ∀ r ∈ s.waiting, metricsOf table₂ r.key = [r] := by
    intro r hr
    rw [hwrote₂.frame, hstored₁ r hr]
    rw [hkeys]
    intro hmem
    obtain ⟨b, hb⟩ := hdue r.key hmem
    exact ((h.located r.key).of_lookup hb).2.2.1 (mem_map_of_mem hr)
  rw [flushBatches_append_singleton, heq₁, Nat.zero_add] at hstep
  -- the rows that are due are through, or all of them wait
  obtain ⟨heq₂, hthrough⟩ | ⟨heq₂, hwritable, -⟩ := hend
  · rw [heq₂] at hstep
    cases hstep
    exact ⟨rfl, fun key => lookup_foldl_erase s.buckets, hdue, hwrote₂.buckets,
      ⟨nofun, nodup_nil, nofun⟩, nil_subset _, hframe, hstored,
      fun r hr => .inr ⟨not_mem_nil, hthrough r hr⟩⟩
  · rw [heq₂] at hstep
    have hwaiting : t.waiting = s.dueRows bucketSec order := by
      cases hstep
      exact flatten_singleton
    have hbatch : Batch bucketSec table₂ t.waiting := by
      obtain ⟨hbuckets, hnodup, -⟩ := h.batch_dueRows hperm hwrote₁
      exact hwaiting ▸ ⟨hbuckets, hnodup, hwritable⟩
    have hmem : ∀ r, r ∈ t.waiting ↔ r ∈ s.dueRows bucketSec order := fun r => by rw [hwaiting]
    cases hstep
    exact ⟨rfl, fun key => lookup_foldl_erase s.buckets, hdue, hwrote₂.buckets, hbatch,
      fun r => (hmem r).mp, hframe, hstored, fun r hr => .inl ((hmem r).mpr hr)⟩

lemma Accounts.of_ticked (h : s.Accounts bucketSec) (ht : Ticked bucketSec s t order) :
    t.Accounts bucketSec := by
  refine ⟨fun key => ?_, ht.batch, ht.table⟩
  have hsamples : t.samplesOf bucketSec key = s.samplesOf bucketSec key := by
    rw [samplesOf, ht.received, samplesOf]
  have htotals := totals_congr hsamples
  have hlookup := ht.lookup key
  by_cases horder : key ∈ order
  · -- the bucket was due
    rw [if_pos horder] at hlookup
    obtain ⟨b, hb⟩ := ht.due key horder
    have hmem : b.toMetricRow key bucketSec ∈ s.dueRows bucketSec order :=
      mem_dueRows.mpr ⟨b, horder, hb, rfl⟩
    obtain ⟨hsome, hcounts, -⟩ := (h.located key).of_lookup hb
    have hrow : (b.toMetricRow key bucketSec).counter = t.totals bucketSec key := by
      rw [b.counter_toMetricRow, hcounts, htotals]
    obtain hwaits | ⟨hnot, hone⟩ := ht.written _ hmem
    · exact .waits _ (hsamples ▸ hsome) hlookup hwaits rfl hrow
    · exact .stored _ (hsamples ▸ hsome) hlookup hnot hone hrow
  · rw [if_neg horder] at hlookup
    have hnot : key ∉ t.waiting.map MetricRow.key := by
      intro hmem
      obtain ⟨r, hr, rfl⟩ := mem_map.mp hmem
      obtain ⟨b, hkey, -⟩ := mem_dueRows.mp (ht.waiting hr)
      exact horder hkey
    by_cases hwaiting : key ∈ s.waiting.map MetricRow.key
    · obtain ⟨hsome, hbucket, r, hr, rfl, hcounts⟩ := (h.located key).of_waiting hwaiting
      exact .stored r (hsamples ▸ hsome) (hlookup.trans hbucket) hnot (ht.stored r hr)
        (hcounts.trans htotals.symm)
    · exact (h.located key).congr hwaiting hnot hsamples hlookup (ht.frame key hwaiting horder)

lemma accounts_new (bucketSec : Nat) : new.Accounts bucketSec where
  located _ := .nowhere rfl rfl not_mem_nil rfl
  waiting := ⟨nofun, nodup_nil, nofun⟩
  table := nofun

lemma Accounts.step (event : AggregatorEvent) (h : s.Accounts bucketSec)
    (hkept : s.Kept bucketSec event) (hstep : step bucketSec s event = some t) :
    t.Accounts bucketSec := by
  cases event with
  | sample row => exact h.sample hkept hstep
  | flush now order outcome => exact h.of_ticked (h.ticked hkept hstep)

lemma Accounts.sumsUp (h : s.Accounts bucketSec) (hflushed : s.Flushed) (key : MetricKey) :
    s.SumsUp bucketSec key := by
  obtain ⟨hmap, hwaiting⟩ := hflushed
  cases h.located key with
  | nowhere hno _ _ htable => exact ⟨fun _ => htable, fun hsome => absurd hno hsome⟩
  | inMap b _ hb =>
    have hmem : key ∈ s.buckets.keys :=
      lookup_isSome.mp (isSome_iff_exists.mpr ⟨b, hb⟩)
    rw [hmap] at hmem
    cases hmem
  | waits r _ _ hr =>
    rw [hwaiting] at hr
    cases hr
  | stored r hsome _ _ htable hcounts =>
    exact ⟨fun hno => absurd hno hsome, fun _ => ⟨r, htable, hcounts⟩⟩

lemma exists_not_sumsUp {events : List AggregatorEvent} (c : Counter) (m n : Nat)
    (hend : (run (step bucketSec) new events).map (fun s =>
      (s.buckets.keys, s.waiting, (metricsOf s.table key).map (·.counter c),
        s.totals bucketSec key c)) = some ([], [], [m], n + 1)) (hne : m ≠ n + 1) :
    ∃ s, run (step bucketSec) new events = some s ∧ s.Flushed ∧
      ¬ s.SumsUp bucketSec key := by
  obtain ⟨s, hrun, hvalues⟩ := map_eq_some_iff.mp hend
  simp only [Prod.mk.injEq] at hvalues
  obtain ⟨hkeys, hwaiting, hstored, htotals⟩ := hvalues
  refine ⟨s, hrun, ⟨hkeys, hwaiting⟩, ?_⟩
  rintro ⟨-, hsome⟩
  have hsamples : s.samplesOf bucketSec key ≠ [] := by
    intro hnil
    rw [totals, hnil] at htotals
    cases htotals
  obtain ⟨r, hr, hcounts⟩ := hsome hsamples
  rw [hr, map_singleton, singleton_inj, hcounts, htotals] at hstored
  exact hne hstored.symm

def requestAt (ts : Time) : MetricRow :=
  .rawSample ts "gate" (some 1) 3 3 3 3 1 0 0 0 0 100 200

def tunnelAt (ts : Time) : MetricRow :=
  .rawSample ts "gate" (some 1) 3 0 0 0 1 0 0 0 1 100 200

def firstBucket : MetricKey := ⟨"gate", some 1, 0⟩

/-- After a run without sessions and late samples, in which what waits gets through at the next
tick, every bucket that has been written is stored with the sums of its samples. -/
theorem metrics_sum_up (bucketSec : Nat) (events : List AggregatorEvent)
    (hrun : run (step bucketSec) .new events = some s)
    (hkept : Meets (step bucketSec) (Kept bucketSec) .new events)
    (hflushed : s.Flushed) (key : MetricKey) : s.SumsUp bucketSec key := by
  have haccounts : s.Accounts bucketSec :=
    invariant_of_meets (fun s event t hs hok hnext => hs.step event hok hnext)
      (accounts_new bucketSec) hkept hrun
  exact haccounts.sumsUp hflushed key

theorem metrics_sum_up_two_samples :
    let events := [.sample (requestAt 1000), .sample (requestAt 9000),
      .flush 10000 [firstBucket] fun _ attempt => if attempt = 0 then .failed 0 else .done]
    Meets (step 10) (Kept 10) new events ∧
    ∃ s, run (step 10) new events = some s ∧ s.Flushed ∧ s.SumsUp 10 firstBucket := by
  intro events
  have hkept : Meets (step 10) (Kept 10) new events := by
    refine meets_cons ⟨rfl, rfl, not_mem_nil⟩ rfl (meets_cons ⟨rfl, rfl, not_mem_nil⟩ rfl ?_)
    refine meets_cons ⟨nofun, ?_⟩ rfl meets_nil
    intro i rows _ a _ written houtcome r hr
    have hzero : written = 0 := by
      dsimp only at houtcome
      split_ifs at houtcome
      exact (UpsertEnd.failed.inj houtcome).symm
    rw [hzero, take_zero] at hr
    cases hr
  obtain ⟨s, hrun, hflushed⟩ : ∃ s ∈ run (step 10) new events,
      s.buckets.keys = [] ∧ s.waiting = [] := by decide +kernel
  exact ⟨hkept, s, hrun, hflushed, metrics_sum_up 10 events hrun hkept hflushed firstBucket⟩

/-- A sample that comes after its bucket was written opens the bucket again, and its row takes the
place of the first. The sessions of tunnels are not stored at all. -/
theorem late_sample_overwrites :
    let flushAt : Time → AggregatorEvent := fun now => .flush now [firstBucket] fun _ _ => .done
    (∃ s, run (step 10) new [.sample (requestAt 1000), flushAt 10000,
        .sample (requestAt 9000), flushAt 20000] = some s ∧
      s.Flushed ∧ ¬ s.SumsUp 10 firstBucket) ∧
    ∃ s, run (step 10) new [.sample (tunnelAt 1000), flushAt 10000] = some s ∧
      s.Flushed ∧ ¬ s.SumsUp 10 firstBucket := by
  intro flushAt
  constructor
  · exact exists_not_sumsUp .totalRequests 1 1 (by decide +kernel) (by decide)
  · exact exists_not_sumsUp .sessions 0 0 (by decide +kernel) (by decide)

end Aggregator

end Conrogate
