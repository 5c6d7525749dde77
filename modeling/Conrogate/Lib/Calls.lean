import Mathlib.Data.List.Basic

/-!
# Calls in progress

Concurrent calls are a list of what each of them is doing. One step of a system replaces one entry.
-/

namespace Calls

open List Option

variable {κ : Type*} {calls : List κ} {c c' d : κ} {i j : ℕ} {p : κ → Bool}

lemma countP_set_add (h : calls[i]? = some c) :
    (calls.set i c').countP p + (p c).toNat = calls.countP p + (p c').toNat := by
  induction calls generalizing i with
  | nil => simp at h
  | cons d calls ih =>
    cases i with
    | zero =>
      obtain rfl : d = c := by simpa using h
      cases hd : p d <;> cases hc' : p c' <;> simp [hd, hc']
    | succ i =>
      have hrest := ih (by simpa using h)
      simp only [set_cons_succ, countP_cons]
      omega

lemma counter_eq_countP (h : calls[i]? = some c) {n n' : ℕ} (hn : n = calls.countP p)
    (hstep : n' + (p c).toNat = n + (p c').toNat) : n' = (calls.set i c').countP p := by
  have hcount : (calls.set i c').countP p + (p c).toNat = calls.countP p + (p c').toNat :=
    countP_set_add h
  omega

/-- A counter that wraps around at `w` moves from `n` to `n'` as a call moves from `c` to `c'`: it
counts the call, or neither changes. -/
def Counts (w : ℕ) (p : κ → Bool) (n n' : ℕ) (c c' : κ) : Prop :=
  (n' = n ∧ p c = p c') ∨ (n' = (n + 1) % w ∧ p c = false ∧ p c' = true)

lemma Counts.eq_countP {w n n' : ℕ} (hcounts : Counts w p n n' c c') (h : calls[i]? = some c)
    (hn : n = calls.countP p % w) : n' = (calls.set i c').countP p % w := by
  have hcount : (calls.set i c').countP p + (p c).toNat = calls.countP p + (p c').toNat :=
    countP_set_add h
  obtain ⟨rfl, hsame⟩ | ⟨rfl, hc, hc'⟩ := hcounts
  · rw [hsame, Nat.add_right_cancel_iff] at hcount
    rw [hn, hcount]
  · rw [hc, hc', Bool.toNat_false, Bool.toNat_true, Nat.add_zero] at hcount
    rw [hn, hcount, Nat.mod_add_mod]

lemma filterMap_set_perm {β : Type*} {f : κ → Option β} (h : calls[i]? = some c) :
    ((calls.set i c').filterMap f ++ (f c).toList).Perm
      (calls.filterMap f ++ (f c').toList) := by
  have hcons : ∀ d calls, (d :: calls).filterMap f = (f d).toList ++ calls.filterMap f := by
    intro d calls
    cases hd : f d <;> simp [hd]
  induction calls generalizing i with
  | nil => simp at h
  | cons d calls ih =>
    cases i with
    | zero =>
      obtain rfl : d = c := by simpa using h
      rw [set_cons_zero, hcons, hcons, append_assoc]
      refine (perm_append_comm.append_left _).trans (List.Perm.trans ?_ perm_append_comm)
      rfl
    | succ i =>
      rw [set_cons_succ, hcons, hcons, append_assoc, append_assoc]
      exact (ih (by simpa using h)).append_left _

lemma guarded_eq_some {σ : Type*} {P : κ → Prop} {_ : DecidablePred P} {f : κ → σ} {t : σ} :
    (calls[i]?.bind fun c => if P c then some (f c) else none) = some t ↔
      ∃ c, calls[i]? = some c ∧ P c ∧ f c = t := by
  simp only [bind_eq_some_iff, ite_none_right_eq_some, some.injEq]

lemma countP_pos_of_getElem? (h : calls[i]? = some c) (hc : p c = true) : 0 < calls.countP p :=
  countP_pos_iff.mpr ⟨c, mem_of_getElem? h, hc⟩

lemma countP_lt_length (h : calls[i]? = some c) (hc : p c = false) :
    calls.countP p < calls.length := by
  refine Nat.lt_of_le_of_ne countP_le_length ?_
  intro heq
  have hall := countP_eq_length.mp heq c (mem_of_getElem? h)
  simp [hc] at hall

lemma getElem?_set_eq_some (h : (calls.set i c')[j]? = some d) :
    (i = j ∧ d = c') ∨ (i ≠ j ∧ calls[j]? = some d) := by
  rw [getElem?_set] at h
  split at h
  · next hij =>
    split at h
    · exact .inl ⟨hij, (some.inj h).symm⟩
    · cases h
  · next hij => exact .inr ⟨hij, h⟩

lemma forall_mem_set {P : κ → Prop} (h : ∀ c ∈ calls, P c) (hc' : P c') :
    ∀ c ∈ calls.set i c', P c := by
  intro d hd
  obtain hd | rfl := mem_or_eq_of_mem_set hd
  · exact h d hd
  · exact hc'

end Calls
