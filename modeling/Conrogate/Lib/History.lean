import Mathlib.Data.List.Basic

/-!
# Logs

A log grows at its end. A condition on its entries may speak of what was logged before them.
-/

namespace History

open List

variable {α : Type*} {P : List α → α → Prop} {log : List α} {x : α}

def Each (P : List α → α → Prop) (log : List α) : Prop :=
  ∀ before x after, log = before ++ x :: after → P before x

lemma each_nil : Each P [] := by
  intro before x after h
  simp at h

lemma each_append_singleton_iff : Each P (log ++ [x]) ↔ Each P log ∧ P log x := by
  constructor
  · intro h
    refine ⟨?_, h log x [] rfl⟩
    intro before y after heq
    exact h before y (after ++ [x]) (by simp [heq])
  · rintro ⟨hlog, hx⟩ before y after heq
    -- the entry is the last one or stands before it
    rcases eq_nil_or_concat after with rfl | ⟨rest, z, rfl⟩
    · obtain ⟨rfl, hy⟩ := append_inj' heq rfl
      rwa [← singleton_inj.mp hy]
    · rw [concat_eq_append, ← cons_append, ← append_assoc] at heq
      exact hlog before y rest (append_inj' heq rfl).1

lemma Each.append_singleton (h : Each P log) (hx : P log x) : Each P (log ++ [x]) :=
  each_append_singleton_iff.mpr ⟨h, hx⟩

lemma Each.of_mem (h : Each P log) (hx : x ∈ log) : ∃ before after, log = before ++ x :: after ∧
    P before x := by
  obtain ⟨before, after, heq⟩ := append_of_mem hx
  exact ⟨before, after, heq, h before x after heq⟩

end History
