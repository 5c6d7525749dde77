import Mathlib.Data.List.Basic

/-!
# Binary formats

Buffers that are read by position, with a panic on a position out of range. They are compared with a
reader of lists through `window`.
-/

namespace Wire

open List

/-! ### Access by position -/

/-- What indexing out of bounds panics with. -/
inductive Panic where
  | index (i len : Nat)
  | slice (start stop len : Nat)

abbrev Checked (α : Type) := Except Panic α

@[simp] lemma ok_bind {α β : Type} (a : α) (f : α → Checked β) : (Except.ok a >>= f) = f a := rfl

variable {buf : List UInt8} {i p q e : Nat}

def index (buf : List UInt8) (i : Nat) : Checked UInt8 :=
  match buf[i]? with
  | some b => .ok b
  | none   => .error (.index i buf.length)

def slice (buf : List UInt8) (start stop : Nat) : Checked (List UInt8) :=
  if start ≤ stop ∧ stop ≤ buf.length then .ok ((buf.take stop).drop start)
  else .error (.slice start stop buf.length)

def window (buf : List UInt8) (p e : Nat) : List UInt8 := (buf.take e).drop p

lemma length_window (h : e ≤ buf.length) : (window buf p e).length = e - p := by
  rw [window, length_drop, length_take, Nat.min_eq_left h]

lemma slice_eq_window (hpq : p ≤ q) (h : q ≤ buf.length) : slice buf p q = .ok (window buf p q) :=
  if_pos ⟨hpq, h⟩

lemma window_eq_nil (h : e ≤ p) : window buf p e = [] :=
  drop_eq_nil_of_le (Nat.le_trans (length_take_le _ _) h)

lemma window_eq_cons (hp : p < e) (h : e ≤ buf.length) :
    ∃ b, index buf p = .ok b ∧ window buf p e = b :: window buf (p + 1) e := by
  have hlt : p < (buf.take e).length := by
    rw [length_take, Nat.min_eq_left h]
    exact hp
  refine ⟨buf[p], ?_, ?_⟩
  · rw [index, getElem?_eq_getElem (Nat.lt_of_lt_of_le hp h)]
  · rw [window, drop_eq_getElem_cons hlt, getElem_take]
    rfl

lemma window_eq_cons_cons (hp : p + 2 ≤ e) (h : e ≤ buf.length) :
    ∃ a b, index buf p = .ok a ∧ index buf (p + 1) = .ok b ∧
      window buf p e = a :: b :: window buf (p + 2) e := by
  obtain ⟨a, ha, hwa⟩ := window_eq_cons (Nat.lt_of_succ_lt hp) h
  obtain ⟨b, hb, hwb⟩ := window_eq_cons (p := p + 1) hp h
  exact ⟨a, b, ha, hb, by rw [hwa, hwb]⟩

lemma drop_window (n : Nat) : (window buf p e).drop n = window buf (p + n) e := by
  rw [window, drop_drop]
  rfl

lemma take_window (n : Nat) : (window buf p e).take n = window buf p (min (p + n) e) := by
  rw [window, take_drop, take_take, window]

lemma window_length (buf : List UInt8) (p : Nat) : window buf p buf.length = buf.drop p := by
  rw [window, take_length]

def be16 (hi lo : UInt8) : Nat := hi.toNat * 256 + lo.toNat

def be16Bytes (n : Nat) : List UInt8 := [UInt8.ofNat (n / 256), UInt8.ofNat n]

@[simp] lemma length_be16Bytes (n : Nat) : (be16Bytes n).length = 2 := rfl

lemma be16_lt (hi lo : UInt8) : be16 hi lo < 65536 := by
  have := hi.toNat_lt
  have := lo.toNat_lt
  rw [be16]
  omega

lemma be16_eq_zero {hi lo : UInt8} (h : be16 hi lo = 0) : hi = 0 ∧ lo = 0 := by
  rw [be16] at h
  exact ⟨UInt8.toNat_inj.mp (by simp; omega), UInt8.toNat_inj.mp (by simp; omega)⟩

lemma be16_ofNat {n : Nat} (h : n < 65536) : be16 (UInt8.ofNat (n / 256)) (UInt8.ofNat n) = n := by
  simp only [be16, UInt8.toNat_ofNat']
  omega

lemma be16Bytes_be16 (hi lo : UInt8) : be16Bytes (be16 hi lo) = [hi, lo] := by
  have hlo := lo.toNat_lt
  have hhi : be16 hi lo / 256 = hi.toNat := by
    rw [be16]
    omega
  have hmod : UInt8.ofNat (be16 hi lo) = lo := by
    rw [← UInt8.toNat_inj, UInt8.toNat_ofNat', be16]
    omega
  rw [be16Bytes, hhi, hmod, UInt8.ofNat_toNat]

def vec8 (xs : List UInt8) : List UInt8 := UInt8.ofNat xs.length :: xs

def vec16 (xs : List UInt8) : List UInt8 := be16Bytes xs.length ++ xs

def readVec8 : List UInt8 → Option (List UInt8 × List UInt8)
  | n :: rest => if rest.length < n.toNat then none
    else some (rest.take n.toNat, rest.drop n.toNat)
  | [] => none

def readVec16 : List UInt8 → Option (List UInt8 × List UInt8)
  | hi :: lo :: rest => if rest.length < be16 hi lo then none
    else some (rest.take (be16 hi lo), rest.drop (be16 hi lo))
  | _ => none

section

variable {xs rest l : List UInt8}

lemma readVec8_of_length_lt (h : l.length < 1) : readVec8 l = none := by
  rw [length_eq_zero_iff.mp (Nat.lt_one_iff.mp h), readVec8]

lemma readVec16_of_length_lt (h : l.length < 2) : readVec16 l = none := by
  match l, h with
  | [], _ => rfl
  | [_], _ => rfl

lemma readVec8_append (h : xs.length < 256) : readVec8 (vec8 xs ++ rest) = some (xs, rest) := by
  have hn : (UInt8.ofNat xs.length).toNat = xs.length := by
    rw [UInt8.toNat_ofNat']
    omega
  simp only [vec8, cons_append, readVec8, hn]
  rw [if_neg (by simp)]
  simp

lemma readVec16_append (h : xs.length < 65536) :
    readVec16 (vec16 xs ++ rest) = some (xs, rest) := by
  simp only [vec16, be16Bytes, cons_append, nil_append, readVec16, be16_ofNat h]
  rw [if_neg (by simp)]
  simp

lemma readVec16_take {n : Nat} (h : xs.length < 65536) (hn : n < (vec16 xs).length) :
    readVec16 ((vec16 xs).take n) = none := by
  match n with
  | 0 => rfl
  | 1 => rfl
  | n + 2 =>
    rw [vec16, length_append, length_be16Bytes] at hn
    simp only [vec16, be16Bytes, cons_append, nil_append, take_succ_cons, readVec16, be16_ofNat h]
    rw [if_pos (by rw [length_take]; omega)]

lemma readVec8_eq_some (h : readVec8 l = some (xs, rest)) :
    xs.length < 256 ∧ l = vec8 xs ++ rest := by
  cases l with
  | nil => cases h
  | cons n l =>
    rw [readVec8] at h
    split at h
    · cases h
    · next hlen =>
      obtain ⟨rfl, rfl⟩ := Prod.mk.inj (Option.some.inj h)
      have htake : (l.take n.toNat).length = n.toNat := by
        rw [length_take, Nat.min_eq_left (Nat.le_of_not_lt hlen)]
      refine ⟨htake.symm ▸ n.toNat_lt, ?_⟩
      rw [vec8, htake, UInt8.ofNat_toNat, cons_append, take_append_drop]

lemma vec16_take_append_drop {hi lo : UInt8} (h : be16 hi lo ≤ l.length) :
    vec16 (l.take (be16 hi lo)) ++ l.drop (be16 hi lo) = hi :: lo :: l := by
  rw [vec16, length_take, Nat.min_eq_left h, be16Bytes_be16, append_assoc, take_append_drop]
  rfl

lemma length_take_be16_lt (hi lo : UInt8) : (l.take (be16 hi lo)).length < 65536 :=
  Nat.lt_of_le_of_lt (length_take_le _ _) (be16_lt hi lo)

lemma readVec16_eq_some (h : readVec16 l = some (xs, rest)) :
    xs.length < 65536 ∧ l = vec16 xs ++ rest := by
  match l with
  | [] => cases h
  | [_] => cases h
  | hi :: lo :: l =>
    rw [readVec16] at h
    split at h
    · cases h
    · next hlen =>
      obtain ⟨rfl, rfl⟩ := Prod.mk.inj (Option.some.inj h)
      exact ⟨length_take_be16_lt hi lo, (vec16_take_append_drop (Nat.le_of_not_lt hlen)).symm⟩

section

variable {α : Type} {k : Nat} {f : List UInt8 → Option α} (hf : ∀ l, l.length < k → f l = none)
include hf

lemma readVec8_bind (hp : p + 1 ≤ buf.length) :
    ∃ n, index buf p = .ok n ∧ ((readVec8 (buf.drop p)).bind fun r => f r.2) =
      if buf.length < p + (1 + n.toNat) + k then none else f (buf.drop (p + (1 + n.toNat))) := by
  obtain ⟨n, hn, hw⟩ := window_eq_cons hp (Nat.le_refl buf.length)
  rw [window_length, window_length] at hw
  refine ⟨n, hn, ?_⟩
  rw [hw, readVec8, length_drop, drop_drop, Nat.add_assoc p 1]
  split
  · rw [if_pos (by omega)]
    rfl
  · split
    · exact hf _ (by rw [length_drop]; omega)
    · rfl

lemma readVec16_bind (hp : p + 2 ≤ buf.length) :
    ∃ hi lo, index buf p = .ok hi ∧ index buf (p + 1) = .ok lo ∧
      ((readVec16 (buf.drop p)).bind fun r => f r.2) =
        if buf.length < p + (2 + be16 hi lo) + k then none
        else f (buf.drop (p + (2 + be16 hi lo))) := by
  obtain ⟨hi, lo, hhi, hlo, hw⟩ := window_eq_cons_cons hp (Nat.le_refl buf.length)
  rw [window_length, window_length] at hw
  refine ⟨hi, lo, hhi, hlo, ?_⟩
  rw [hw, readVec16, length_drop, drop_drop, Nat.add_assoc p 2]
  split
  · rw [if_pos (by omega)]
    rfl
  · split
    · exact hf _ (by rw [length_drop]; omega)
    · rfl

end

end

end Wire
