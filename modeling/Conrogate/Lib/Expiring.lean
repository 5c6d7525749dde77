import Mathlib.Data.List.AList
import Mathlib.Data.List.Induction

/-!
# Tables that drop stale states

An event works on the state under its key. An event that finds the table large first drops the
states that are stale to it, whatever their keys are.
-/

/-- A map whose entries are dropped once they are stale. -/
structure Expiring (κ ε ν ο : Type*) where
  key : ε → κ
  stale : ε → ν → Bool
  step : ε → Option ν → Option ν × ο

namespace Expiring

open List AList

variable {κ ε ν ο τ : Type*} [DecidableEq κ]

def retain (p : ν → Bool) (t : AList fun _ : κ => ν) : AList fun _ : κ => ν where
  entries := t.entries.filter fun e => p e.2
  nodupKeys := List.NodupKeys.sublist List.filter_sublist t.nodupKeys

lemma lookup_retain (p : ν → Bool) (t : AList fun _ : κ => ν) (k : κ) :
    (retain p t).lookup k = (t.lookup k).filter p := by
  apply Option.ext
  intro v
  rw [Option.filter_eq_some_iff, ← Option.mem_def, mem_lookup_iff, ← Option.mem_def,
    mem_lookup_iff, retain, mem_filter]

def put (t : AList fun _ : κ => ν) (k : κ) : Option ν → AList fun _ : κ => ν
  | some v => t.insert k v
  | none   => t.erase k

lemma lookup_put (t : AList fun _ : κ => ν) (k k' : κ) (v : Option ν) :
    (put t k v).lookup k' = if k' = k then v else t.lookup k' := by
  split
  · next h =>
    subst h
    cases v with
    | some v => exact lookup_insert t
    | none => exact lookup_erase k' t
  · next h =>
    cases v with
    | some v => exact lookup_insert_ne h
    | none => exact lookup_erase_ne h

section

variable (m : Expiring κ ε ν ο) (size : Nat)

def clean (t : AList fun _ : κ => ν) (e : ε) : AList fun _ : κ => ν :=
  if size ≤ t.entries.length then retain (fun v => !m.stale e v) t else t

def next (t : AList fun _ : κ => ν) (e : ε) : (AList fun _ : κ => ν) × ο :=
  let t := m.clean size t e
  let r := m.step e (t.lookup (m.key e))
  (put t (m.key e) r.1, r.2)

def after (t : AList fun _ : κ => ν) (es : List ε) : AList fun _ : κ => ν :=
  es.foldl (fun t e => (m.next size t e).1) t

def outputs (m : Expiring κ ε ν ο) (size : Nat) : (AList fun _ : κ => ν) → List ε → List (ε × ο)
  | _, [] => []
  | t, e :: es => (e, (m.next size t e).2) :: m.outputs size (m.next size t e).1 es

end

variable {m : Expiring κ ε ν ο} {size : Nat} {t : AList fun _ : κ => ν} {k : κ} {e : ε}
  {es : List ε}

lemma after_append_singleton :
    m.after size t (es ++ [e]) = (m.next size (m.after size t es) e).1 := by
  simp [after]

lemma outputs_append_singleton : m.outputs size t (es ++ [e]) =
    m.outputs size t es ++ [(e, (m.next size (m.after size t es) e).2)] := by
  induction es generalizing t with
  | nil => rfl
  | cons d es ih => rw [cons_append, outputs, outputs, ih]; rfl

variable (m size t k e) in
lemma lookup_clean : (m.clean size t e).lookup k = t.lookup k ∨
    (m.clean size t e).lookup k = none ∧ ∃ v, t.lookup k = some v ∧ m.stale e v := by
  rw [clean]
  split
  · rw [lookup_retain]
    cases t.lookup k with
    | none => exact .inl rfl
    | some v => cases hstale : m.stale e v <;> simp [Option.filter, hstale]
  · exact .inl rfl

variable [Preorder τ]

/-- What every step and every drop at the key `k` preserves. -/
structure KeyInvariant (m : Expiring κ ε ν ο) (time : ε → τ) (k : κ) (may : ε → Prop)
    (P : τ → List (ε × ο) → Option ν → Prop) : Prop where
  later : ∀ {now now' log v}, now ≤ now' → P now log v → P now' log v
  drop : ∀ {e log v}, m.stale e v → P (time e) log (some v) → P (time e) log none
  step : ∀ {e log v}, m.key e = k → may e → P (time e) log v →
    P (time e) (log ++ [(e, (m.step e v).2)]) (m.step e v).1

variable {time : ε → τ} {may : ε → Prop} {P : τ → List (ε × ο) → Option ν → Prop}

variable (size) in
lemma KeyInvariant.clean (h : m.KeyInvariant time k may P) {log : List (ε × ο)}
    (hP : P (time e) log (t.lookup k)) : P (time e) log ((m.clean size t e).lookup k) := by
  obtain heq | ⟨hnone, v, hv, hstale⟩ := lookup_clean m size t k e
  · rwa [heq]
  · rw [hnone]
    rw [hv] at hP
    exact h.drop hstale hP

def logAt (m : Expiring κ ε ν ο) (k : κ) (rs : List (ε × ο)) : List (ε × ο) :=
  rs.filter fun r => m.key r.1 = k

theorem KeyInvariant.run (h : m.KeyInvariant time k may P) (hstart : ∀ now, P now [] none)
    (hmay : ∀ e ∈ es, m.key e = k → may e) (htime : (es.map time).Pairwise (· ≤ ·)) {now : τ}
    (hnow : ∀ e ∈ es, time e ≤ now) :
    P now (m.logAt k (m.outputs size ∅ es)) ((m.after size ∅ es).lookup k) := by
  induction es using List.reverseRecOn generalizing now with
  | nil => exact hstart now
  | append_singleton es e ih =>
    rw [forall_mem_append, forall_mem_singleton] at hmay hnow
    rw [map_append, pairwise_append] at htime
    have hpast : ∀ d ∈ es, time d ≤ time e := fun d hd =>
      htime.2.2 _ (mem_map_of_mem hd) _ (by simp)
    have hclean := h.clean size (ih hmay.1 htime.1 hpast)
    rw [outputs_append_singleton, after_append_singleton, logAt, filter_append, ← logAt, next,
      lookup_put]
    by_cases hkey : m.key e = k
    · subst hkey
      simp only [filter_cons, filter_nil, decide_true, if_true]
      exact h.later hnow.2 (h.step rfl (hmay.2 rfl) hclean)
    · simp only [filter_cons, filter_nil, hkey, decide_false, Bool.false_eq_true,
        if_false, append_nil, Ne.symm hkey]
      exact h.later hnow.2 hclean

end Expiring
