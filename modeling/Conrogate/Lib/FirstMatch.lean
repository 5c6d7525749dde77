import Mathlib.Data.List.Sort

/-!
# First match in a sorted list

A linear search through a list that is strictly sorted by `r` finds the first of the elements, in
the order `r`, that satisfy the predicate.
-/

namespace FirstMatch

open List

variable {α : Type*} {r : α → α → Prop} {p : α → Bool} {l l' : List α} {x : α}

def IsFirst (r : α → α → Prop) (p : α → Bool) (l : List α) (x : α) : Prop :=
  x ∈ l ∧ p x = true ∧ ∀ y ∈ l, p y = true → y ≠ x → r x y

theorem find?_eq_some_iff (hr : ∀ a b, r a b → ¬ r b a) (hl : l.Pairwise r) :
    l.find? p = some x ↔ IsFirst r p l x := by
  constructor
  · intro h
    obtain ⟨hp, as, bs, rfl, has⟩ := find?_eq_some_iff_append.mp h
    refine ⟨by simp, hp, ?_⟩
    intro y hy hpy hne
    rw [pairwise_append] at hl
    rcases mem_append.mp hy with hy | hy
    · have := has y hy
      simp [hpy] at this
    · rcases mem_cons.mp hy with rfl | hy
      · exact absurd rfl hne
      · exact (pairwise_cons.mp hl.2.1).1 y hy
  · rintro ⟨hmem, hp, hall⟩
    obtain ⟨as, bs, rfl⟩ := append_of_mem hmem
    refine find?_eq_some_iff_append.mpr ⟨hp, as, bs, rfl, ?_⟩
    -- an earlier match would precede `x` in the list, and `x` would precede it in the order
    intro a ha
    by_contra hpa
    have hpa : p a = true := by simpa using hpa
    rw [pairwise_append] at hl
    have hax : r a x := hl.2.2 a ha x mem_cons_self
    by_cases hne : a = x
    · subst hne
      exact hr a a hax hax
    · exact hr a x hax (hall a (mem_append_left _ ha) hpa hne)

end FirstMatch
