import Mathlib.Algebra.BigOperators.Ring.Finset
import Mathlib.Algebra.Order.BigOperators.Group.Finset
import Mathlib.Tactic.Linarith
import Mathlib.Tactic.Ring

/-!
# Smooth weighted round robin

In a turn each thing is credited with its weight, and one with the most credit is picked and pays
the sum of all weights.
-/

namespace SmoothRobin

open Finset

variable {ι : Type*} [Fintype ι] [DecidableEq ι] {w credit credit' : ι → ℤ} {picks : List ι}

def pay (w credit : ι → ℤ) (i : ι) : ι → ℤ :=
  fun j => credit j + w j - if j = i then ∑ k, w k else 0

/-- Each turn picks one of the greatest credits. -/
inductive Turns (w credit : ι → ℤ) : List ι → (ι → ℤ) → Prop
  | nil : Turns w credit [] credit
  | snoc {picks : List ι} {credit' : ι → ℤ} (h : Turns w credit picks credit') (i : ι)
      (hmax : ∀ j, credit' j + w j ≤ credit' i + w i) :
      Turns w credit (picks ++ [i]) (pay w credit' i)

lemma sum_pay (w credit : ι → ℤ) (i : ι) : ∑ j, pay w credit i j = ∑ j, credit j := by
  simp only [pay, sum_sub_distrib, sum_add_distrib, sum_ite_eq', mem_univ, if_true]
  ring

lemma Turns.sum_eq (h : Turns w credit picks credit') : ∑ j, credit' j = ∑ j, credit j := by
  induction h with
  | nil => rfl
  | snoc _ i _ ih => rw [sum_pay, ih]

lemma Turns.apply_eq (h : Turns w credit picks credit') (j : ι) :
    credit' j = credit j + picks.length * w j - picks.count j * ∑ k, w k := by
  induction h with
  | nil => simp
  | snoc _ i _ ih =>
    rw [pay, ih, List.length_append, List.count_append, List.length_singleton]
    by_cases hji : j = i
    · subst hji
      rw [if_pos rfl, List.count_singleton_self]
      push_cast
      ring
    · have hnone : [i].count j = 0 := List.count_eq_zero_of_not_mem (by simpa using hji)
      rw [if_neg hji, hnone]
      push_cast
      ring

lemma sum_count (picks : List ι) : ∑ j, picks.count j = picks.length := by
  have h := Multiset.sum_count_eq_card (s := univ) (m := (picks : Multiset ι))
    fun a _ => mem_univ a
  simpa using h

def Solvent (w credit : ι → ℤ) : Prop := ∀ j, -∑ k, w k < credit j

omit [DecidableEq ι] in
lemma credit_pos_of_max {i : ι} (hsum : ∑ j, credit j = 0) (hpos : 0 < ∑ k, w k)
    (hmax : ∀ j, credit j + w j ≤ credit i + w i) : 0 < credit i + w i := by
  by_contra hneg
  have hnonpos : ∑ j, (credit j + w j) ≤ 0 :=
    sum_nonpos fun j _ => (hmax j).trans (not_lt.mp hneg)
  rw [sum_add_distrib, hsum] at hnonpos
  linarith

lemma Turns.solvent (h : Turns w credit picks credit') (hw : ∀ j, 0 < w j)
    (hsum : ∑ j, credit j = 0) (hcredit : Solvent w credit) : Solvent w credit' := by
  induction h with
  | nil => exact hcredit
  | snoc h i hmax ih =>
    intro j
    have hpos : 0 < ∑ k, w k := sum_pos (fun k _ => hw k) ⟨j, mem_univ j⟩
    have hj := ih j
    have hwj := hw j
    rw [pay]
    split_ifs with hji
    · subst hji
      have hmost := credit_pos_of_max (h.sum_eq.trans hsum) hpos hmax
      linarith
    · linarith

/-! ### The period -/

theorem Turns.count_of_return (h : Turns w credit picks credit)
    (hlen : (picks.length : ℤ) = ∑ k, w k) (hpos : 0 < ∑ k, w k) (j : ι) :
    (picks.count j : ℤ) = w j := by
  have hpaid := h.apply_eq j
  rw [hlen] at hpaid
  have hequal : (picks.count j : ℤ) * ∑ k, w k = w j * ∑ k, w k := by linarith
  exact mul_right_cancel₀ hpos.ne' hequal

theorem Turns.return_of_length (h : Turns w 0 picks credit') (hw : ∀ j, 0 < w j)
    (hlen : (picks.length : ℤ) = ∑ k, w k) : credit' = 0 := by
  have hsolvent : Solvent w credit' := by
    refine h.solvent hw (by simp) fun j => ?_
    have hpos : 0 < ∑ k, w k := sum_pos (fun k _ => hw k) ⟨j, mem_univ j⟩
    simpa using hpos
  -- nobody was picked more often than that, and there were as many picks
  have hle : ∀ j, (picks.count j : ℤ) ≤ w j := by
    intro j
    have hpaid := h.apply_eq j
    have hpos : 0 < ∑ k, w k := sum_pos (fun k _ => hw k) ⟨j, mem_univ j⟩
    have howes := hsolvent j
    rw [hpaid, hlen, Pi.zero_apply] at howes
    have hlt : (picks.count j - w j) * ∑ k, w k < 1 * ∑ k, w k := by linarith
    have hlt := lt_of_mul_lt_mul_right hlt hpos.le
    omega
  have hcounts : ∑ j, (picks.count j : ℤ) = ∑ j, w j := by
    rw [← hlen, ← sum_count picks, Nat.cast_sum]
  have heq := (sum_eq_sum_iff_of_le fun j _ => hle j).mp hcounts
  funext j
  rw [h.apply_eq j, hlen, heq j (mem_univ j), Pi.zero_apply]
  ring

end SmoothRobin
