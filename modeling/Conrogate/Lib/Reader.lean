import Mathlib.Tactic.Common

/-!
# Readers

A reader takes a value off the front of a list of tokens, or fails and takes nothing.
-/

namespace Reader

variable {τ β γ : Type*}

def andThen (r : List τ → Option (β × List τ)) (f : β → List τ → Option (γ × List τ)) :
    List τ → Option (γ × List τ) :=
  fun s => (r s).bind fun p => f p.1 p.2

def succeed (v : β) : List τ → Option (β × List τ) := fun s => some (v, s)

def token [DecidableEq τ] (c : τ) : List τ → Option (Unit × List τ)
  | [] => none
  | d :: s => if d = c then some ((), s) else none

def orElse (r₁ r₂ : List τ → Option (β × List τ)) : List τ → Option (β × List τ) :=
  fun s => (r₁ s).orElse fun _ => r₂ s

def complete (r : List τ → Option (β × List τ)) (s : List τ) : Option β :=
  match r s with
  | some (v, []) => some v
  | _ => none

def Consumes (P : τ → Prop) (r : List τ → Option (β × List τ)) : Prop :=
  ∀ s v rest, r s = some (v, rest) → ∃ read, s = read ++ rest ∧ ∀ c ∈ read, P c

variable {P : τ → Prop} {r r₁ r₂ : List τ → Option (β × List τ)}

lemma Consumes.andThen {f : β → List τ → Option (γ × List τ)} (hr : Consumes P r)
    (hf : ∀ v, Consumes P (f v)) : Consumes P (andThen r f) := by
  intro s w rest h
  obtain ⟨⟨v, mid⟩, hv, hw⟩ := Option.bind_eq_some_iff.mp h
  obtain ⟨read₁, rfl, h₁⟩ := hr s v mid hv
  obtain ⟨read₂, rfl, h₂⟩ := hf v mid w rest hw
  refine ⟨read₁ ++ read₂, by simp, ?_⟩
  intro c hc
  rcases List.mem_append.mp hc with hc | hc
  · exact h₁ c hc
  · exact h₂ c hc

lemma Consumes.succeed (v : β) : Consumes P (succeed v) := by
  intro s w rest h
  cases h
  exact ⟨[], rfl, by simp⟩

lemma Consumes.token [DecidableEq τ] {c : τ} (hc : P c) : Consumes P (token c) := by
  intro s w rest h
  cases s with
  | nil => cases h
  | cons d s =>
    simp only [Reader.token] at h
    split_ifs at h with hd
    cases h
    exact ⟨[d], rfl, by simpa [hd] using hc⟩

lemma Consumes.orElse (h₁ : Consumes P r₁) (h₂ : Consumes P r₂) : Consumes P (orElse r₁ r₂) := by
  intro s v rest h
  rw [Reader.orElse] at h
  cases hr : r₁ s with
  | none =>
    rw [hr] at h
    exact h₂ s v rest h
  | some p =>
    rw [hr] at h
    cases h
    exact h₁ s v rest hr

theorem Consumes.complete (hr : Consumes P r) {s : List τ} {v : β}
    (h : complete r s = some v) : ∀ c ∈ s, P c := by
  rw [Reader.complete] at h
  split at h
  · rename_i w hw
    obtain ⟨read, rfl, hread⟩ := hr s w [] hw
    simpa using hread
  · cases h

end Reader
