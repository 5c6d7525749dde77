import Mathlib.Tactic.Common

/-!
# Programs with state and errors

Code that returns early on an error keeps what it has done to the state so far: the monad `EStateM`.
Code that does nothing before it fails is in `Except`.
-/

namespace Proc

open List

lemma bind_eq_ok {ε α β : Type} {x : Except ε α} {f : α → Except ε β} {b : β} :
    (x >>= f) = .ok b ↔ ∃ a, x = .ok a ∧ f a = .ok b := by
  cases x <;> simp [bind, Except.bind]

lemma foldlM_invariant {ε σ α : Type} {f : σ → α → Except ε σ} {I : σ → Prop} {xs : List α}
    (step : ∀ x ∈ xs, ∀ s t, I s → f s x = .ok t → I t) {s t : σ} (start : I s)
    (h : xs.foldlM f s = .ok t) : I t := by
  induction xs generalizing s with
  | nil =>
    cases h
    exact start
  | cons x xs ih =>
    rw [foldlM_cons] at h
    obtain ⟨u, hu, hrest⟩ := bind_eq_ok.mp h
    have hnext := step x mem_cons_self s u start hu
    exact ih (fun y hy => step y (mem_cons_of_mem x hy)) hnext hrest

variable {ε σ α β : Type} {x : EStateM ε σ α} {f : α → EStateM ε σ β} {s t : σ}

lemma run_bind_eq_ok {b : β} : (x >>= f).run s = .ok b t ↔
    ∃ a u, x.run s = .ok a u ∧ (f a).run u = .ok b t := by
  change EStateM.bind x f s = .ok b t ↔ ∃ a u, x s = .ok a u ∧ f a u = .ok b t
  rw [EStateM.bind]
  cases x s <;> simp

lemma run_bind_eq_error {e : ε} : (x >>= f).run s = .error e t ↔
    x.run s = .error e t ∨ ∃ a u, x.run s = .ok a u ∧ (f a).run u = .error e t := by
  change EStateM.bind x f s = .error e t ↔
    x s = .error e t ∨ ∃ a u, x s = .ok a u ∧ f a u = .error e t
  rw [EStateM.bind]
  cases x s <;> simp

/-- A program that performs actions one by one returns early at one of them, after normal returns
of all the actions before it. -/
theorem run_forM_eq_error {γ : Type} {g : γ → EStateM ε σ PUnit} {l : List γ} {e : ε} :
    (forM l g).run s = .error e t ↔
      ∃ before c after u, l = before ++ c :: after ∧ (forM before g).run s = .ok ⟨⟩ u ∧
        (g c).run u = .error e t := by
  induction l generalizing s with
  | nil => simp [pure, EStateM.pure, EStateM.run]
  | cons d l ih =>
    rw [forM_cons, run_bind_eq_error]
    constructor
    · rintro (h | ⟨a, u, hd, hl⟩)
      · exact ⟨[], d, l, s, rfl, rfl, h⟩
      · obtain ⟨before, c, after, v, rfl, hb, hc⟩ := ih.mp hl
        refine ⟨d :: before, c, after, v, rfl, ?_, hc⟩
        rw [forM_cons]
        exact run_bind_eq_ok.mpr ⟨a, u, hd, hb⟩
    · rintro ⟨before, c, after, v, heq, hb, hc⟩
      cases before with
      | nil =>
        simp only [nil_append, List.cons.injEq] at heq
        obtain ⟨rfl, rfl⟩ := heq
        cases hb
        exact .inl hc
      | cons b before =>
        simp only [cons_append, List.cons.injEq] at heq
        obtain ⟨rfl, rfl⟩ := heq
        rw [forM_cons] at hb
        obtain ⟨a, u, hd, hb⟩ := run_bind_eq_ok.mp hb
        exact .inr ⟨a, u, hd, ih.mpr ⟨before, c, after, v, rfl, hb, hc⟩⟩

def failure : EStateM.Result ε σ α → Option ε
  | .ok _ _    => none
  | .error e _ => some e

def state : EStateM.Result ε σ α → σ
  | .ok _ s    => s
  | .error _ s => s

lemma eq_error_of_failure {r : EStateM.Result ε σ α} {e : ε} (h : failure r = some e) :
    r = .error e (state r) := by
  cases r with
  | ok a s => cases h
  | error e' s =>
    cases h
    rfl

end Proc
