import Mathlib.Tactic.Common

/-!
# A table of states, one for each key

An event works on the state that the table has under its key, or on a new one. It can also break the
machine for good.
-/

/-- One state for each key, created at its first event. -/
structure Keyed (κ ν ε ο : Type*) where
  idle : ε → Option ο
  key : ε → κ
  start : ε → ν
  turn : ν → ε → Option (ν × ο)

namespace Keyed

open Function

variable {κ ν ε ο : Type*} [DecidableEq κ] (m : Keyed κ ν ε ο)

def read (e : ε) (t : κ → Option ν) : ν := (t (m.key e)).getD (m.start e)

def serve (e : ε) (t : κ → Option ν) : Option (κ → Option ν) × Option ο :=
  let result := m.turn (m.read e t) e
  (result.map fun r => Function.update t (m.key e) (some r.1), result.map Prod.snd)

def next (s : Option (κ → Option ν)) (e : ε) : Option (κ → Option ν) × Option ο :=
  match m.idle e, s with
  | some o, _ => (s, some o)
  | none,   none => (none, none)
  | none,   some t => m.serve e t

def outputs (m : Keyed κ ν ε ο) : Option (κ → Option ν) → List ε → List (ε × Option ο)
  | _, [] => []
  | s, e :: es => (e, (m.next s e).2) :: m.outputs (m.next s e).1 es

variable {m} {s s' : Option (κ → Option ν)} {t : κ → Option ν} {e e' : ε} {es : List ε} {v : ν}
  {o : ο} {keep : ε → Bool}

lemma next_idle (h : m.idle e = some o) : m.next s e = (s, some o) := by
  simp [next, h]

lemma next_broken (h : m.idle e = none) : m.next none e = (none, none) := by
  simp [next, h]

lemma next_some (h : m.idle e = none) : m.next (some t) e = m.serve e t := by
  simp [next, h]

lemma serve_of_turn (h : m.turn (m.read e t) e = some (v, o)) :
    m.serve e t = (some (update t (m.key e) (some v)), some o) := by
  simp [serve, h]

lemma read_update_same (h : m.key e' = m.key e) :
    m.read e' (update t (m.key e) (some v)) = v := by
  simp [read, h]

lemma read_update_of_ne (h : m.key e' ≠ m.key e) :
    m.read e' (update t (m.key e) (some v)) = m.read e' t := by
  simp [read, update_of_ne h]

def Agree (m : Keyed κ ν ε ο) (keep : ε → Bool) (s s' : Option (κ → Option ν))
    (es : List ε) : Prop :=
  ∀ e ∈ es, keep e → m.idle e = none → s.map (m.read e) = s'.map (m.read e)

def Quiet (m : Keyed κ ν ε ο) (keep : ε → Bool) : Option (κ → Option ν) → List ε → Prop
  | _, [] => True
  | s, e :: es => (keep e = false → m.Agree keep (m.next s e).1 s es) ∧
      m.Quiet keep (m.next s e).1 es

section

variable (h : m.idle e = none → s.map (m.read e) = s'.map (m.read e))
include h

lemma next_snd_congr :
    (m.next s e).2 = (m.next s' e).2 := by
  cases hidle : m.idle e with
  | some o => rw [next_idle hidle, next_idle hidle]
  | none =>
    have h := h hidle
    cases s <;> cases s' <;> simp_all [next_broken, next_some, serve]

lemma next_fst_congr (h' : s.map (m.read e') = s'.map (m.read e')) :
    (m.next s e).1.map (m.read e') = (m.next s' e).1.map (m.read e') := by
  cases hidle : m.idle e with
  | some o => rw [next_idle hidle, next_idle hidle, h']
  | none =>
    have h := h hidle
    match s, s' with
    | none, none => rfl
    | some t, some t' =>
      rw [Option.map_some, Option.map_some, Option.some.injEq] at h
      rw [next_some hidle, next_some hidle, serve, serve, ← h]
      cases m.turn (m.read e t) e with
      | none => rfl
      | some r =>
        by_cases hkey : m.key e' = m.key e
        · simp [read_update_same hkey]
        · simpa [read_update_of_ne hkey] using h'

end

lemma next_unseen (hidle : m.idle e = none) (h : m.turn (m.read e t) e = some (v, o))
    (hsame : m.key e' = m.key e → m.read e' t = v) :
    (m.next (some t) e).1.map (m.read e') = (some t).map (m.read e') := by
  rw [next_some hidle, serve_of_turn h]
  by_cases hkey : m.key e' = m.key e
  · simp [read_update_same hkey, hsame hkey]
  · simp [read_update_of_ne hkey]

theorem outputs_filter (hquiet : m.Quiet keep s es) (h : m.Agree keep s s' es) :
    (m.outputs s es).filter (fun r => keep r.1) = m.outputs s' (es.filter keep) := by
  induction es generalizing s s' with
  | nil => rfl
  | cons e es ih =>
    obtain ⟨hunseen, hquiet⟩ := hquiet
    have hrest : m.Agree keep s s' es := fun e' he' => h e' (List.mem_cons_of_mem _ he')
    cases hkeep : keep e with
    | true =>
      have hread := h e List.mem_cons_self hkeep
      have hagree : m.Agree keep (m.next s e).1 (m.next s' e).1 es := by
        intro e' he' hk hi
        exact next_fst_congr hread (hrest e' he' hk hi)
      simp only [outputs, List.filter_cons, hkeep, if_true]
      rw [next_snd_congr hread, ih hquiet hagree]
    | false =>
      have hagree : m.Agree keep (m.next s e).1 s' es := by
        intro e' he' hk hi
        exact (hunseen hkeep e' he' hk hi).trans (hrest e' he' hk hi)
      simp only [outputs, List.filter_cons, hkeep, Bool.false_eq_true, if_false]
      exact ih hquiet hagree

end Keyed
