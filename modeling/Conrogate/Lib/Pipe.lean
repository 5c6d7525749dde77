import Mathlib.Data.List.Basic

/-!
# Pipes

One direction of a connection that loses nothing. The writer appends and at some point closes, the
reader takes from the front; when all has been taken from a closed pipe, the reader is at its end.
-/

/-- A byte stream: what was sent and how much of it was taken. -/
structure Pipe (α : Type*) where
  sent : List α
  taken : Nat
  closed : Bool
  taken_le : taken ≤ sent.length

namespace Pipe

open List

variable {α : Type*} {p q : Pipe α} {xs : List α} {n : Nat}

def empty : Pipe α := ⟨[], 0, false, Nat.le_refl _⟩

def received (p : Pipe α) : List α := p.sent.take p.taken

def unread (p : Pipe α) : List α := p.sent.drop p.taken

def write (p : Pipe α) (xs : List α) : Pipe α where
  sent := p.sent ++ xs
  taken := p.taken
  closed := p.closed
  taken_le := by
    have := p.taken_le
    rw [List.length_append]
    omega

def close (p : Pipe α) : Pipe α := { p with closed := true }

def take (p : Pipe α) (n : Nat) : Option (List α × Pipe α) :=
  if h : 0 < n ∧ n ≤ p.unread.length then
    some (p.unread.take n,
      { sent := p.sent
        taken := p.taken + n
        closed := p.closed
        taken_le := by
          have hn := h.2
          have := p.taken_le
          rw [unread, List.length_drop] at hn
          omega })
  else none

def atEnd (p : Pipe α) : Bool := p.closed && p.unread.isEmpty

lemma atEnd_iff : p.atEnd = true ↔ p.closed = true ∧ p.unread = [] := by
  simp [atEnd]

lemma received_append_unread (p : Pipe α) : p.received ++ p.unread = p.sent :=
  take_append_drop _ _

lemma received_isPrefix (p : Pipe α) : p.received <+: p.sent := take_prefix _ _

lemma received_eq_sent (h : p.unread = []) : p.received = p.sent := by
  have := p.received_append_unread
  rwa [h, append_nil] at this

@[simp] lemma sent_write : (p.write xs).sent = p.sent ++ xs := rfl

@[simp] lemma closed_write : (p.write xs).closed = p.closed := rfl

@[simp] lemma received_write : (p.write xs).received = p.received :=
  take_append_of_le_length p.taken_le

@[simp] lemma unread_write : (p.write xs).unread = p.unread ++ xs :=
  drop_append_of_le_length p.taken_le

@[simp] lemma sent_close : p.close.sent = p.sent := rfl

@[simp] lemma closed_close : p.close.closed = true := rfl

@[simp] lemma received_close : p.close.received = p.received := rfl

@[simp] lemma unread_close : p.close.unread = p.unread := rfl

lemma of_take (h : p.take n = some (xs, q)) : 0 < n ∧ xs.length = n ∧ q.sent = p.sent ∧
    q.closed = p.closed ∧ q.received = p.received ++ xs ∧ p.unread = xs ++ q.unread := by
  rw [take] at h
  split_ifs at h with hn
  cases h
  refine ⟨hn.1, ?_, rfl, rfl, ?_, ?_⟩
  · rw [length_take]
    omega
  · exact take_add
  · rw [unread, unread, ← drop_drop, take_append_drop]

lemma exists_take (h : p.unread ≠ []) : ∃ r, p.take 1 = some r := by
  have hlength := length_pos_iff.mpr h
  rw [take, dif_pos ⟨Nat.one_pos, hlength⟩]
  exact ⟨_, rfl⟩

lemma take_eq_none (h : p.unread = []) : p.take n = none := by
  rw [take, dif_neg]
  rw [h, length_nil]
  omega

end Pipe
