import Mathlib.Data.List.FinRange
import Mathlib.Data.List.Perm.Subperm

/-!
# Windows of a sequence of choices

A sequence of choices among `n` things is fair if in every window of `n * k` consecutive choices
each thing is chosen `k` times. It suffices to look at the windows of length `n`.
-/

namespace Windows

open List

variable {n : ℕ} {l : List (Fin n)}

def window {α : Type*} (l : List α) (i m : ℕ) : List α := (l.drop i).take m

lemma map_window {α β : Type*} (f : α → β) (l : List α) (i m : ℕ) :
    window (l.map f) i m = (window l i m).map f := by
  simp [window, map_take, map_drop]

lemma length_window {α : Type*} {l : List α} {i m : ℕ} (h : i + m ≤ l.length) :
    (window l i m).length = m := by
  simp only [window, length_take, length_drop]
  omega

lemma window_add {α : Type*} (l : List α) (i m m' : ℕ) :
    window l i (m + m') = window l i m ++ window l (i + m) m' := by
  simp [window, take_add, drop_drop]

lemma count_of_nodup {w : List (Fin n)} (hnodup : w.Nodup) (hlen : w.length = n) (x : Fin n) :
    w.count x = 1 := by
  have hperm : w.Perm (List.finRange n) := by
    apply (subperm_of_subset hnodup fun x _ => mem_finRange x).perm_of_length_le
    rw [length_finRange, hlen]
  rw [hperm.count_eq]
  exact count_eq_one_of_mem (nodup_finRange n) (mem_finRange x)

lemma count_window (h : ∀ i, i + n ≤ l.length → (window l i n).Nodup) (x : Fin n) {i : ℕ} (k : ℕ)
    (hk : i + n * k ≤ l.length) : (window l i (n * k)).count x = k := by
  induction k generalizing i with
  | zero => simp [window]
  | succ k ih =>
    rw [Nat.mul_succ] at hk
    have hfirst : i + n ≤ l.length := by omega
    have hone := count_of_nodup (h i hfirst) (length_window hfirst) x
    rw [Nat.mul_succ, Nat.add_comm, window_add, count_append, hone, ih (by omega), Nat.add_comm]

theorem fair_iff : (∀ i k, i + n * k ≤ l.length → ∀ x, (window l i (n * k)).count x = k) ↔
    ∀ i, i + n ≤ l.length → (window l i n).Nodup := by
  constructor
  · intro h i hi
    rw [nodup_iff_count_le_one]
    intro x
    have hone := h i 1 (by rwa [Nat.mul_one]) x
    rw [Nat.mul_one] at hone
    exact hone.le
  · intro h i k hk x
    exact count_window h x k hk

end Windows
