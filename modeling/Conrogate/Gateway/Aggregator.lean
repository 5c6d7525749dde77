import Conrogate.Lib.Transition
import Conrogate.Storage.Metrics
import Mathlib.Data.List.AList
import Mathlib.Data.Rat.Floor

/-!
# The aggregator of metrics

`MetricAggregator` adds samples up in buckets of time, and at every tick writes those that are over;
what cannot be written is kept for the next tick.
-/

namespace Conrogate

open List MetricRow

def binCount : Nat := 26

structure LatencyHistogram where
  bins : List Nat
deriving DecidableEq

namespace LatencyHistogram

def new : LatencyHistogram := ⟨List.replicate binCount 0⟩

def binIndex (latencyMs : Nat) : Nat := min (Nat.log2 latencyMs) (binCount - 1)

def add (hist : LatencyHistogram) (latencyMs n : Nat) : LatencyHistogram :=
  ⟨hist.bins.modify (binIndex latencyMs) (· + n)⟩

def total (hist : LatencyHistogram) : Nat := hist.bins.sum

def reach (threshold : Nat) : (k cum : Nat) → List Nat → Nat
  | _, _, [] => 0
  | k, cum, n :: bins =>
    if threshold ≤ cum + n then 1 <<< min (k + 1) 30 else reach threshold (k + 1) (cum + n) bins

def percentile (hist : LatencyHistogram) (p : ℚ) : Nat :=
  if hist.total = 0 then 0 else reach (⌈hist.total * p⌉.toNat) 0 0 hist.bins

end LatencyHistogram

/-- The `u64` counters of a bucket, unbounded here. -/
structure MetricBucket where
  totalRequests : Nat
  totalLatencyMs : ℚ
  latencyHist : LatencyHistogram
  status2xx : Nat
  status3xx : Nat
  status4xx : Nat
  status5xx : Nat
  bytesIn : Nat
  bytesOut : Nat

namespace MetricBucket

def default : MetricBucket := ⟨0, 0, .new, 0, 0, 0, 0, 0, 0⟩

def add (b : MetricBucket) (row : MetricRow) : MetricBucket where
  totalRequests := b.totalRequests + row.totalRequests
  totalLatencyMs := b.totalLatencyMs + row.avgLatencyMs * row.totalRequests
  latencyHist := b.latencyHist.add (min ⌊row.avgLatencyMs⌋.toNat 4294967295) row.totalRequests
  status2xx := b.status2xx + row.status2xx
  status3xx := b.status3xx + row.status3xx
  status4xx := b.status4xx + row.status4xx
  status5xx := b.status5xx + row.status5xx
  bytesIn := b.bytesIn + row.bytesIn
  bytesOut := b.bytesOut + row.bytesOut

def toMetricRow (b : MetricBucket) (key : MetricKey) (bucketSec : Nat) : MetricRow where
  ts := key.ts
  bucketSec := bucketSec
  routeId := key.routeId
  gateId := key.gateId
  qps := b.totalRequests / bucketSec % 4294967296
  totalRequests := b.totalRequests
  avgLatencyMs := if b.totalRequests > 0 then b.totalLatencyMs / b.totalRequests else 0
  p50Ms := b.latencyHist.percentile (1 / 2)
  p90Ms := b.latencyHist.percentile (9 / 10)
  p99Ms := b.latencyHist.percentile (99 / 100)
  status2xx := b.status2xx
  status3xx := b.status3xx
  status4xx := b.status4xx
  status5xx := b.status5xx
  sessions := 0
  bytesIn := b.bytesIn
  bytesOut := b.bytesOut

def counter (b : MetricBucket) : Counter → Nat
  | .totalRequests => b.totalRequests
  | .status2xx => b.status2xx
  | .status3xx => b.status3xx
  | .status4xx => b.status4xx
  | .status5xx => b.status5xx
  | .sessions => 0
  | .bytesIn => b.bytesIn
  | .bytesOut => b.bytesOut

end MetricBucket

/-! ### The aggregator -/

/-- The server passes a `bucket_sec` of at least 1. -/
def alignToBucket (bucketSec : Nat) (ts : Time) : Time :=
  let secs := ts / 1000
  (secs - secs % bucketSec) * 1000

def bucketKey (bucketSec : Nat) (row : MetricRow) : MetricKey :=
  ⟨row.gateId, row.routeId, alignToBucket bucketSec row.ts⟩

/-- The aggregator and the table it writes to. `received` records the samples. -/
structure Aggregator where
  buckets : AList fun _ : MetricKey => MetricBucket
  failed : List (List MetricRow)
  table : List MetricRow
  received : List MetricRow

def Aggregator.new : Aggregator := ⟨∅, [], [], []⟩

def upsertAttempts (outcome : Nat → UpsertEnd) (rows : List MetricRow) :
    (left attempt : Nat) → List MetricRow → List MetricRow × Bool
  | 0, _, table => (table, false)
  | left + 1, attempt, table =>
    match outcome attempt with
    | .done => (upsertMetrics table rows, true)
    | .failed written =>
      upsertAttempts outcome rows left (attempt + 1) (upsertMetrics table (rows.take written))

def keepFailed (failed : List (List MetricRow)) (rows : List MetricRow) : List (List MetricRow) :=
  let all := failed ++ [rows]
  if all.length > 10 then all.tail else all

def flushRows (outcome : Nat → UpsertEnd) (s : List MetricRow × List (List MetricRow))
    (rows : List MetricRow) : List MetricRow × List (List MetricRow) :=
  if rows.isEmpty then s
  else
    let written := upsertAttempts outcome rows 3 0 s.1
    if written.2 then (written.1, s.2) else (written.1, keepFailed s.2 rows)

def flushBatches (outcome : Nat → Nat → UpsertEnd) :
    (i : Nat) → List (List MetricRow) → List MetricRow × List (List MetricRow) →
      List MetricRow × List (List MetricRow)
  | _, [], s => s
  | i, rows :: batches, s => flushBatches outcome (i + 1) batches (flushRows (outcome i) s rows)

inductive AggregatorEvent where
  | sample (row : MetricRow)
  | flush (now : Time) (order : List MetricKey) (outcome : Nat → Nat → UpsertEnd)

namespace Aggregator

variable (bucketSec : Nat)

def dueKeys (s : Aggregator) (now : Time) : List MetricKey :=
  s.buckets.keys.filter fun key => key.ts < alignToBucket bucketSec now

def dueRows (s : Aggregator) (order : List MetricKey) : List MetricRow :=
  order.filterMap fun key => (s.buckets.lookup key).map fun b => b.toMetricRow key bucketSec

def step (s : Aggregator) : AggregatorEvent → Option Aggregator
  | .sample row =>
    let key := bucketKey bucketSec row
    some { s with
      buckets := s.buckets.insert key (((s.buckets.lookup key).getD .default).add row)
      received := s.received ++ [row] }
  | .flush now order outcome =>
    if order.Perm (s.dueKeys bucketSec now) then
      -- the batches that failed before go first
      let written := flushBatches outcome 0 (s.failed ++ [s.dueRows bucketSec order]) (s.table, [])
      some { s with
        buckets := order.foldl (fun buckets key => buckets.erase key) s.buckets
        failed := written.2
        table := written.1 }
    else none

end Aggregator

/-! ### Writing a batch -/

structure Wrote (bucketSec : Nat) (table rows table' : List MetricRow) : Prop where
  buckets : AllBuckets bucketSec table'
  frame : ∀ key ∉ rows.map MetricRow.key, metricsOf table' key = metricsOf table key

/-- Rows of distinct buckets that the table takes. -/
structure Batch (bucketSec : Nat) (table rows : List MetricRow) : Prop where
  buckets : AllBuckets bucketSec rows
  keys : (rows.map key).Nodup
  writable : ∀ r ∈ rows, Writable table r

def RoutesOnly (outcome : UpsertEnd) (rows : List MetricRow) : Prop :=
  ∀ written, outcome = .failed written → ∀ r ∈ rows.take written, r.routeId ≠ none

section

variable {bucketSec : Nat} {table table' rows rest : List MetricRow}

section

variable {table'' : List MetricRow} (h : Wrote bucketSec table rows table')
include h

lemma Wrote.trans_same (h' : Wrote bucketSec table' rows table'') :
    Wrote bucketSec table rows table'' where
  buckets := h'.buckets
  frame key hkey := (h'.frame key hkey).trans (h.frame key hkey)

lemma Wrote.append (h' : Wrote bucketSec table' rest table'') :
    Wrote bucketSec table (rows ++ rest) table'' where
  buckets := h'.buckets
  frame key hkey := by
    rw [map_append, mem_append, not_or] at hkey
    exact (h'.frame key hkey.2).trans (h.frame key hkey.1)

end

section

variable (h : Batch bucketSec table (rows ++ rest))
include h

lemma Batch.left : Batch bucketSec table rows where
  buckets r hr := h.buckets r (mem_append_left rest hr)
  keys := (map_append ▸ h.keys).of_append_left
  writable r hr := h.writable r (mem_append_left rest hr)

lemma Batch.key_notMem {r : MetricRow} (hr : r ∈ rest) : r.key ∉ rows.map key := by
  have hkeys := h.keys
  rw [map_append, nodup_append] at hkeys
  intro hmem
  exact hkeys.2.2 _ hmem _ (mem_map_of_mem hr) rfl

lemma Batch.right (hwrote : Wrote bucketSec table rows table') : Batch bucketSec table' rest where
  buckets r hr := h.buckets r (mem_append_right rows hr)
  keys := (map_append ▸ h.keys).of_append_right
  writable r hr := (h.writable r (mem_append_right rows hr)).congr
    (hwrote.frame _ (h.key_notMem hr))

end

section

variable (htable : AllBuckets bucketSec table)
include htable

lemma wrote_upsertMetrics (hrows : AllBuckets bucketSec rows) {part : List MetricRow}
    (hpart : part ⊆ rows) :
    Wrote bucketSec table rows (upsertMetrics table part) where
  buckets := allBuckets_upsertMetrics htable fun r hr => hrows r (hpart hr)
  frame _ hkey := metricsOf_upsertMetrics_of_notMem fun hmem =>
    hkey (map_subset _ hpart hmem)

section

variable {outcome : Nat → UpsertEnd} (hbatch : Batch bucketSec table rows)
include hbatch

lemma upsertAttempts_spec (left attempt : Nat)
    (hroutes : ∀ a < attempt + left, RoutesOnly (outcome a) rows) :
    ∃ table' through, upsertAttempts outcome rows left attempt table = (table', through) ∧
      Wrote bucketSec table rows table' ∧
      (through = true → ∀ r ∈ rows, metricsOf table' r.key = [r]) ∧
      (through = false → (∀ r ∈ rows, Writable table' r) ∧
        ∀ a, attempt ≤ a → a < attempt + left → outcome a ≠ .done) := by
  induction left generalizing attempt table with
  | zero =>
    refine ⟨table, false, rfl, ⟨htable, fun _ _ => rfl⟩, nofun, fun _ => ⟨hbatch.writable, ?_⟩⟩
    intro a hle hlt
    exact absurd (hle.trans_lt hlt) (lt_irrefl _)
  | succ left ih =>
    rw [upsertAttempts]
    cases houtcome : outcome attempt with
    | done =>
      refine ⟨_, true, rfl, wrote_upsertMetrics htable hbatch.buckets (List.Subset.refl rows), ?_,
        nofun⟩
      exact fun _ r hr => metricsOf_upsertMetrics htable hbatch.buckets hbatch.keys
        hbatch.writable hr
    | failed written =>
      have hwrote := wrote_upsertMetrics htable hbatch.buckets (take_subset written rows)
      have hwritable := writable_upsertMetrics_take htable hbatch.buckets hbatch.keys
        hbatch.writable (hroutes attempt (by omega) written houtcome)
      obtain ⟨table', through, heq, hrest, hthrough, hnot⟩ :=
        ih hwrote.buckets ⟨hbatch.buckets, hbatch.keys, hwritable⟩ (attempt + 1)
          fun a ha => hroutes a (by omega)
      refine ⟨table', through, heq, hwrote.trans_same hrest, hthrough, ?_⟩
      intro hfalse
      refine ⟨(hnot hfalse).1, fun a hle hlt => ?_⟩
      obtain rfl | hlater := hle.eq_or_lt
      · rw [houtcome]
        exact nofun
      · exact (hnot hfalse).2 a hlater (by omega)

lemma flushRows_spec (hroutes : ∀ a < 3, RoutesOnly (outcome a) rows) :
    ∃ table', Wrote bucketSec table rows table' ∧
      (flushRows outcome (table, []) rows = (table', []) ∧
          (∀ r ∈ rows, metricsOf table' r.key = [r]) ∨
        flushRows outcome (table, []) rows = (table', [rows]) ∧
          (∀ r ∈ rows, Writable table' r) ∧ ∀ a < 3, outcome a ≠ .done) := by
  rw [flushRows]
  by_cases hempty : rows = []
  · subst hempty
    exact ⟨table, ⟨htable, fun _ _ => rfl⟩, .inl ⟨rfl, nofun⟩⟩
  obtain ⟨table', through, heq, hwrote, hthrough, hnot⟩ :=
    upsertAttempts_spec htable hbatch 3 0 hroutes
  rw [if_neg (by simpa using hempty), heq]
  refine ⟨table', hwrote, ?_⟩
  cases through with
  | true => exact .inl ⟨rfl, hthrough rfl⟩
  | false => exact .inr ⟨rfl, (hnot rfl).1, fun a ha => (hnot rfl).2 a a.zero_le (by omega)⟩

end

lemma flushBatches_of_done {outcome : Nat → Nat → UpsertEnd} {batches : List (List MetricRow)}
    (hbatch : Batch bucketSec table batches.flatten) (i : Nat)
    (hroutes : ∀ j rows, batches[j]? = some rows → ∀ a < 3, RoutesOnly (outcome (i + j) a) rows)
    (hdone : ∀ j < batches.length, ∃ a < 3, outcome (i + j) a = .done) :
    ∃ table', flushBatches outcome i batches (table, []) = (table', []) ∧
      Wrote bucketSec table batches.flatten table' ∧
      ∀ r ∈ batches.flatten, metricsOf table' r.key = [r] := by
  induction batches generalizing table i with
  | nil => exact ⟨table, rfl, ⟨htable, fun _ _ => rfl⟩, nofun⟩
  | cons rows batches ih =>
    rw [flatten_cons] at hbatch ⊢
    obtain ⟨a, ha, hthrough⟩ := hdone 0 (Nat.zero_lt_succ _)
    obtain ⟨table₁, hwrote₁, ⟨heq, hstored₁⟩ | ⟨-, -, hno⟩⟩ :=
      flushRows_spec htable hbatch.left (hroutes 0 rows rfl)
    case inr => exact absurd hthrough (hno a ha)
    have hshift : ∀ j, i + 1 + j = i + (j + 1) := by omega
    obtain ⟨table₂, heq₂, hwrote₂, hstored₂⟩ :=
      ih hwrote₁.buckets (hbatch.right hwrote₁) (i + 1)
        (fun j rows' hj => hshift j ▸ hroutes (j + 1) rows' hj)
        (fun j hj => hshift j ▸ hdone (j + 1) (Nat.succ_lt_succ hj))
    refine ⟨table₂, ?_, hwrote₁.append hwrote₂, ?_⟩
    · rw [flushBatches]
      exact heq ▸ heq₂
    intro r hr
    by_cases hlater : r.key ∈ batches.flatten.map key
    · obtain ⟨r', hr', hkey⟩ := mem_map.mp hlater
      obtain rfl : r' = r := inj_on_of_nodup_map hbatch.keys
        (mem_append_right rows hr') hr hkey
      exact hstored₂ r' hr'
    · have hfirst : r ∈ rows := (mem_append.mp hr).resolve_right fun hr' =>
        hlater (mem_map_of_mem hr')
      rw [hwrote₂.frame _ hlater, hstored₁ r hfirst]

end

lemma flushBatches_append_singleton {outcome : Nat → Nat → UpsertEnd}
    (batches : List (List MetricRow)) (i : Nat) (s : List MetricRow × List (List MetricRow)) :
    flushBatches outcome i (batches ++ [rows]) s =
      flushRows (outcome (i + batches.length)) (flushBatches outcome i batches s) rows := by
  induction batches generalizing i s with
  | nil => rfl
  | cons first batches ih =>
    rw [cons_append, flushBatches, flushBatches, ih, length_cons]
    congr 2
    omega

end

end Conrogate
