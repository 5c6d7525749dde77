import Conrogate.Core.Telemetry

/-!
# The table of metrics

A row overwrites the one that is stored for its bucket, or becomes a new one. A call can fail after
any number of rows.
-/

namespace Conrogate

open List MetricRow

inductive Counter where
  | totalRequests
  | status2xx
  | status3xx
  | status4xx
  | status5xx
  | sessions
  | bytesIn
  | bytesOut
deriving DecidableEq

structure MetricKey where
  gateId : String
  routeId : Option Nat
  ts : Time
deriving DecidableEq

variable {r row : MetricRow}

namespace MetricRow

def counter (row : MetricRow) : Counter → Nat
  | .totalRequests => row.totalRequests
  | .status2xx => row.status2xx
  | .status3xx => row.status3xx
  | .status4xx => row.status4xx
  | .status5xx => row.status5xx
  | .sessions => row.sessions
  | .bytesIn => row.bytesIn
  | .bytesOut => row.bytesOut

def key (row : MetricRow) : MetricKey := ⟨row.gateId, row.routeId, row.ts⟩

/-- The filter under which `upsert_batch` looks for the row to overwrite. In SQL, a route that is
`NULL` is equal to nothing. -/
def isRowOf (row r : MetricRow) : Bool :=
  r.ts == row.ts && r.bucketSec == row.bucketSec && r.gateId == row.gateId &&
    match r.routeId, row.routeId with
    | some a, some b => a == b
    | _, _ => false

lemma isRowOf_iff : row.isRowOf r = true ↔
    r.key = row.key ∧ r.bucketSec = row.bucketSec ∧ row.routeId ≠ none := by
  simp only [isRowOf, key, Bool.and_eq_true, beq_iff_eq, MetricKey.mk.injEq]
  cases r.routeId with
  | none => cases row.routeId <;> simp
  | some a =>
    cases row.routeId with
    | none => simp
    | some b =>
      simp only [beq_iff_eq, Option.some.injEq, ne_eq, reduceCtorEq, not_false_eq_true, and_true]
      constructor
      · rintro ⟨⟨⟨hts, hsec⟩, hgate⟩, hroute⟩
        exact ⟨⟨hgate, hroute, hts⟩, hsec⟩
      · rintro ⟨⟨hgate, hroute, hts⟩, hsec⟩
        exact ⟨⟨⟨hts, hsec⟩, hgate⟩, hroute⟩

end MetricRow

inductive UpsertEnd where
  | done
  | failed (written : Nat)

section

variable (table : List MetricRow)

def upsertMetric (row : MetricRow) : List MetricRow :=
  if table.any row.isRowOf then table.map fun r => if row.isRowOf r then row else r
  else table ++ [row]

def upsertMetrics (rows : List MetricRow) : List MetricRow := rows.foldl upsertMetric table

def metricsOf (key : MetricKey) : List MetricRow := table.filter (·.key == key)

end

def AllBuckets (bucketSec : Nat) (table : List MetricRow) : Prop :=
  ∀ r ∈ table, r.bucketSec = bucketSec

section

variable {bucketSec : Nat} {table : List MetricRow} {row : MetricRow} {key : MetricKey}

lemma metricsOf_map {f : MetricRow → MetricRow} (hf : ∀ r, (f r).key = r.key) :
    metricsOf (table.map f) key = (metricsOf table key).map f := by
  rw [metricsOf, filter_map]
  congr 2
  funext r
  rw [Function.comp, hf]

lemma key_overwrite (r : MetricRow) : (if row.isRowOf r then row else r).key = r.key := by
  split_ifs with h
  · exact (isRowOf_iff.mp h).1.symm
  · rfl

lemma metricsOf_upsertMetric_of_ne (hne : row.key ≠ key) :
    metricsOf (upsertMetric table row) key = metricsOf table key := by
  rw [upsertMetric]
  split_ifs
  · rw [metricsOf_map key_overwrite]
    conv_rhs => rw [← map_id (metricsOf table key)]
    refine map_congr_left fun r hr => if_neg fun h => hne ?_
    rw [← (isRowOf_iff.mp h).1]
    simpa using (mem_filter.mp hr).2
  · simp [metricsOf, filter_append, hne]

lemma metricsOf_upsertMetric_of_nil (hnil : metricsOf table row.key = []) :
    metricsOf (upsertMetric table row) row.key = [row] := by
  have hnew : table.any row.isRowOf = false := by
    rw [any_eq_false]
    intro r hr h
    have hmem : r ∈ metricsOf table row.key :=
      mem_filter.mpr ⟨hr, by simp [(isRowOf_iff.mp h).1]⟩
    rw [hnil] at hmem
    cases hmem
  rw [upsertMetric, if_neg (by simp [hnew]), metricsOf, filter_append, ← metricsOf, hnil]
  simp

section

variable (hall : AllBuckets bucketSec table) (hrow : row.bucketSec = bucketSec)
include hall hrow

lemma metricsOf_upsertMetric_of_singleton (hroute : row.routeId ≠ none)
    (hone : metricsOf table row.key = [r]) :
    metricsOf (upsertMetric table row) row.key = [row] := by
  have hr : r ∈ table ∧ r.key = row.key := by
    have hmem : r ∈ metricsOf table row.key := by
      rw [hone]
      exact mem_cons_self
    simpa [metricsOf] using hmem
  have hmatch : row.isRowOf r = true :=
    isRowOf_iff.mpr ⟨hr.2, (hall r hr.1).trans hrow.symm, hroute⟩
  rw [upsertMetric, if_pos (any_eq_true.mpr ⟨r, hr.1, hmatch⟩), metricsOf_map key_overwrite,
    hone, map_singleton, if_pos hmatch]

lemma allBuckets_upsertMetric : AllBuckets bucketSec (upsertMetric table row) := by
  rw [upsertMetric]
  split_ifs
  · intro r hr
    obtain ⟨r', hr', rfl⟩ := mem_map.mp hr
    split_ifs
    · exact hrow
    · exact hall r' hr'
  · intro r hr
    rcases mem_append.mp hr with hr | hr
    · exact hall r hr
    · rw [mem_singleton.mp hr, hrow]

end

end

def Writable (table : List MetricRow) (row : MetricRow) : Prop :=
  metricsOf table row.key = [] ∨
    (row.routeId ≠ none ∧ ∃ r, metricsOf table row.key = [r] ∧ r.counter = row.counter)

lemma Writable.congr {table table' : List MetricRow} (h : Writable table row)
    (heq : metricsOf table' row.key = metricsOf table row.key) :
    Writable table' row := by
  rwa [Writable, heq]

section

variable {bucketSec : Nat} {table rows : List MetricRow}

lemma metricsOf_upsertMetric_of_writable (hall : AllBuckets bucketSec table)
    (hrow : row.bucketSec = bucketSec) (hw : Writable table row) :
    metricsOf (upsertMetric table row) row.key = [row] := by
  obtain hnil | ⟨hroute, r, hone, -⟩ := hw
  · exact metricsOf_upsertMetric_of_nil hnil
  · exact metricsOf_upsertMetric_of_singleton hall hrow hroute hone

lemma metricsOf_upsertMetrics_of_notMem {key : MetricKey} (hkey : key ∉ rows.map MetricRow.key) :
    metricsOf (upsertMetrics table rows) key = metricsOf table key := by
  induction rows generalizing table with
  | nil => rfl
  | cons row rows ih =>
    rw [map_cons, mem_cons, not_or] at hkey
    rw [upsertMetrics, foldl_cons, ← upsertMetrics, ih hkey.2,
      metricsOf_upsertMetric_of_ne (Ne.symm hkey.1)]

section

variable (hall : AllBuckets bucketSec table) (hrows : AllBuckets bucketSec rows)
include hall hrows

lemma allBuckets_upsertMetrics : AllBuckets bucketSec (upsertMetrics table rows) := by
  induction rows generalizing table with
  | nil => exact hall
  | cons row rows ih =>
    exact ih (allBuckets_upsertMetric hall (hrows row mem_cons_self))
      fun r hr => hrows r (mem_cons_of_mem row hr)

section

variable (hkeys : (rows.map key).Nodup) (hw : ∀ r ∈ rows, Writable table r)
include hkeys hw

lemma metricsOf_upsertMetrics (hr : r ∈ rows) :
    metricsOf (upsertMetrics table rows) r.key = [r] := by
  induction rows generalizing table with
  | nil => cases hr
  | cons row rows ih =>
    rw [map_cons, nodup_cons] at hkeys
    have hrow := hrows row mem_cons_self
    have hone := metricsOf_upsertMetric_of_writable hall hrow (hw row mem_cons_self)
    rw [upsertMetrics, foldl_cons, ← upsertMetrics]
    obtain rfl | hr := mem_cons.mp hr
    · rw [metricsOf_upsertMetrics_of_notMem hkeys.1, hone]
    · refine ih (allBuckets_upsertMetric hall hrow)
        (fun r hr => hrows r (mem_cons_of_mem row hr)) hkeys.2 ?_ hr
      intro r' hr'
      have hne : row.key ≠ r'.key := fun heq =>
        hkeys.1 (heq ▸ mem_map_of_mem hr')
      exact (hw r' (mem_cons_of_mem row hr')).congr (metricsOf_upsertMetric_of_ne hne)

lemma writable_upsertMetrics_take {n : Nat} (hroutes : ∀ r ∈ rows.take n, r.routeId ≠ none) :
    ∀ r ∈ rows, Writable (upsertMetrics table (rows.take n)) r := by
  intro r hr
  have htake : ((rows.take n).map key).Sublist (rows.map key) :=
    (take_sublist n rows).map _
  by_cases hmem : r ∈ rows.take n
  · have hone := metricsOf_upsertMetrics hall (fun r hr => hrows r (mem_of_mem_take hr))
      (hkeys.sublist htake) (fun r hr => hw r (mem_of_mem_take hr)) hmem
    exact .inr ⟨hroutes r hmem, r, hone, rfl⟩
  · have hkey : r.key ∉ (rows.take n).map key := by
      intro hkey
      obtain ⟨r', hr', heq⟩ := mem_map.mp hkey
      exact hmem (inj_on_of_nodup_map hkeys (mem_of_mem_take hr') hr heq ▸ hr')
    exact (hw r hr).congr (metricsOf_upsertMetrics_of_notMem hkey)

end

end

end

end Conrogate
