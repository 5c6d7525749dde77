import Mathlib.Data.List.Basic
import Mathlib.Data.List.TakeWhile

/-!
# Reading up to a delimiter

A stream that is read in pieces until a delimiter has come, with a limit that is checked between
reads. How many elements a read returns is up to the environment: at least one, and at most `cap`.
-/

namespace Delimited

open List Nat Option

variable {α : Type}

/-! ### The first delimiter -/

def firstAt [DecidableEq α] (delim : List α) : List α → Option Nat
  | [] => none
  | a :: l => if delim <+: a :: l then some 0 else (firstAt delim l).map (· + 1)

section

variable [DecidableEq α] {delim l m : List α} {p : Nat}

lemma isPrefix_of_firstAt (h : firstAt delim l = some p) : delim <+: l.drop p := by
  induction l generalizing p with
  | nil => cases h
  | cons a l ih =>
    rw [firstAt] at h
    split_ifs at h with hhere
    · cases h
      exact hhere
    · obtain ⟨q, hq, rfl⟩ := map_eq_some_iff.mp h
      exact ih hq

section

variable (hdelim : delim ≠ [])
include hdelim

lemma le_of_firstAt (h : firstAt delim l = some p) :
    p + delim.length ≤ l.length := by
  have hpos := length_pos_iff.mpr hdelim
  have hle := (isPrefix_of_firstAt h).length_le
  rw [length_drop] at hle
  omega

lemma firstAt_append (h : firstAt delim l = some p) (m : List α) :
    firstAt delim (l ++ m) = some p := by
  induction l generalizing p with
  | nil => cases h
  | cons a l ih =>
    have hle := le_of_firstAt hdelim h
    rw [firstAt] at h
    rw [cons_append, firstAt]
    split_ifs at h with hhere
    · cases h
      have hthere : delim <+: a :: (l ++ m) := hhere.trans (prefix_append (a :: l) m)
      rw [if_pos hthere]
    · obtain ⟨q, hq, rfl⟩ := map_eq_some_iff.mp h
      rw [if_neg, ih hq]
      · rfl
      · intro hthere
        exact hhere (prefix_of_prefix_length_le hthere (prefix_append _ m) (by omega))

lemma firstAt_of_append (h : firstAt delim (l ++ m) = some p) (hle : p + delim.length ≤ l.length) :
    firstAt delim l = some p := by
  induction l generalizing p with
  | nil => exact absurd (length_eq_zero_iff.mp (Nat.eq_zero_of_add_eq_zero_left
      (Nat.le_zero.mp hle))) hdelim
  | cons a l ih =>
    rw [cons_append, firstAt] at h
    rw [firstAt]
    split_ifs at h with hthere
    · cases h
      have hhere : delim <+: a :: l :=
        prefix_of_prefix_length_le hthere (prefix_append (a :: l) m) (by omega)
      rw [if_pos hhere]
    · obtain ⟨q, hq, rfl⟩ := map_eq_some_iff.mp h
      rw [if_neg, ih hq (by rw [length_cons] at hle; omega)]
      · rfl
      · intro hhere
        exact hthere (hhere.trans (prefix_append (a :: l) m))

lemma isSome_firstAt_iff (h : firstAt delim (l ++ m) = some p) :
    (firstAt delim l).isSome = true ↔ p + delim.length ≤ l.length := by
  constructor
  · intro hsome
    obtain ⟨q, hq⟩ := isSome_iff_exists.mp hsome
    have hqp : q = p := some.inj ((firstAt_append hdelim hq m).symm.trans h)
    exact hqp ▸ le_of_firstAt hdelim hq
  · intro hle
    rw [firstAt_of_append hdelim h hle]
    rfl

lemma firstAt_append_of_ne (hl : ∀ a ∈ l, delim.head? ≠ some a) :
    firstAt delim (l ++ m) = (firstAt delim m).map (· + l.length) := by
  induction l with
  | nil => simp
  | cons a l ih =>
    have hhere : ¬ delim <+: a :: (l ++ m) := by
      intro hprefix
      cases delim with
      | nil => exact hdelim rfl
      | cons b delim =>
        exact hl a (by simp) (congrArg some (cons_prefix_cons.mp hprefix).1)
    rw [cons_append, firstAt, if_neg hhere, ih fun b hb => hl b (by simp [hb])]
    simp [Function.comp_def, Nat.add_assoc]

end

lemma mem_of_firstAt {a : α} (h : firstAt delim l = some p) (ha : a ∈ delim) : a ∈ l :=
  mem_of_mem_drop ((isPrefix_of_firstAt h).subset ha)

end

/-! ### Reads -/

def readSize (cap available : Nat) : Nat := max 1 (min cap available)

lemma readSize_pos (cap n : Nat) : 0 < readSize cap n := Nat.lt_of_lt_of_le Nat.one_pos (by
  rw [readSize]
  omega)

lemma readSize_le {cap : Nat} (hcap : 0 < cap) (n : Nat) : readSize cap n ≤ cap := by
  rw [readSize]
  omega

inductive ReadError where
  | closed
  | tooLong

structure Collected (α : Type) where
  buffer : List α
  rest : List α
  reads : Nat

def readUntil [DecidableEq α] (delim : List α) (cap limit : Nat) (sizes : Nat → Nat) (k : Nat)
    (buffer rest : List α) : Except ReadError (Collected α) :=
  if _ : rest = [] then .error .closed
  else
    let n := readSize cap (sizes k)
    let buffer' := buffer ++ rest.take n
    if (firstAt delim buffer').isSome then .ok ⟨buffer', rest.drop n, k + 1⟩
    else if limit < buffer'.length then .error .tooLong
    else readUntil delim cap limit sizes (k + 1) buffer' (rest.drop n)
termination_by rest.length
decreasing_by
  have := readSize_pos cap (sizes k)
  have := List.length_pos_iff.mpr ‹rest ≠ []›
  rw [List.length_drop]
  omega

def readAll (cap : Nat) (sizes : Nat → Nat) (k : Nat) (rest : List α) : List (List α) :=
  if _ : rest = [] then []
  else
    let n := readSize cap (sizes k)
    rest.take n :: readAll cap sizes (k + 1) (rest.drop n)
termination_by rest.length
decreasing_by
  have := readSize_pos cap (sizes k)
  have := List.length_pos_iff.mpr ‹rest ≠ []›
  rw [List.length_drop]
  omega

lemma flatten_readAll (cap : Nat) (sizes : Nat → Nat) (k : Nat) (rest : List α) :
    (readAll cap sizes k rest).flatten = rest := by
  fun_induction readAll cap sizes k rest with
  | case1 => rfl
  | case2 k rest _ n ih => rw [flatten_cons, ih, take_append_drop]

lemma append_take_append_drop (buffer rest : List α) (n : Nat) :
    buffer ++ rest.take n ++ rest.drop n = buffer ++ rest := by
  rw [append_assoc, take_append_drop]

section

variable [DecidableEq α] {delim : List α} {cap limit : Nat} {sizes : Nat → Nat} {k p : Nat}
  {buffer rest : List α}

lemma readUntil_eq_ok {c : Collected α}
    (h : readUntil delim cap limit sizes k buffer rest = .ok c) :
    c.buffer ++ c.rest = buffer ++ rest ∧ (firstAt delim c.buffer).isSome = true := by
  fun_induction readUntil delim cap limit sizes k buffer rest with
  | case1 => cases h
  | case2 k buffer rest _ n buffer' hfound =>
    cases h
    exact ⟨append_take_append_drop buffer rest n, hfound⟩
  | case3 => cases h
  | case4 k buffer rest _ n buffer' _ _ ih =>
    rw [← append_take_append_drop buffer rest n]
    exact ih h

lemma readUntil_error_of_eq_none (hdelim : delim ≠ [])
    (h : firstAt delim (buffer ++ rest) = none) :
    ∃ e, readUntil delim cap limit sizes k buffer rest = .error e := by
  cases hread : readUntil delim cap limit sizes k buffer rest with
  | error e => exact ⟨e, rfl⟩
  | ok c =>
    obtain ⟨happend, hsome⟩ := readUntil_eq_ok hread
    obtain ⟨p, hp⟩ := isSome_iff_exists.mp hsome
    have hstream := firstAt_append hdelim hp c.rest
    rw [happend, h] at hstream
    cases hstream

lemma readUntil_ok_of_le (hdelim : delim ≠ []) (h : firstAt delim (buffer ++ rest) = some p)
    (hle : p + delim.length ≤ limit + 1) (hbuffer : buffer.length < p + delim.length) :
    ∃ c, readUntil delim cap limit sizes k buffer rest = .ok c := by
  fun_induction readUntil delim cap limit sizes k buffer rest with
  | case1 k buffer =>
    rw [append_nil] at h
    exact absurd (le_of_firstAt hdelim h) (Nat.not_le_of_lt hbuffer)
  | case2 => exact ⟨_, rfl⟩
  | case3 k buffer rest _ n buffer' hmissing hlong =>
    rw [← append_take_append_drop buffer rest n] at h
    exact absurd ((isSome_firstAt_iff hdelim h).mpr (le_trans hle hlong)) hmissing
  | case4 k buffer rest _ n buffer' hmissing _ ih =>
    rw [← append_take_append_drop buffer rest n] at h
    refine ih h (Nat.lt_of_not_le fun hreached => hmissing ?_)
    exact (isSome_firstAt_iff hdelim h).mpr hreached

lemma readUntil_error_of_lt (hdelim : delim ≠ []) (hcap : 0 < cap)
    (h : firstAt delim (buffer ++ rest) = some p) (hlt : limit + cap < p + delim.length)
    (hbuffer : buffer.length ≤ limit) :
    ∃ e, readUntil delim cap limit sizes k buffer rest = .error e := by
  fun_induction readUntil delim cap limit sizes k buffer rest with
  | case1 => exact ⟨_, rfl⟩
  | case2 k buffer rest _ n buffer' hfound =>
    rw [← append_take_append_drop buffer rest n] at h
    have hreached := (isSome_firstAt_iff hdelim h).mp hfound
    have hn : (rest.take n).length ≤ cap :=
      le_trans (length_take_le _ _) (readSize_le hcap _)
    rw [length_append] at hreached
    omega
  | case3 => exact ⟨_, rfl⟩
  | case4 k buffer rest _ n buffer' _ hshort ih =>
    rw [← append_take_append_drop buffer rest n] at h
    exact ih h (Nat.le_of_not_lt hshort)

end

/-! ### Reads of one stream -/

section

variable [DecidableEq α] {delim stream : List α} {cap limit p : Nat} {sizes : Nat → Nat}

lemma readUntil_step (hdelim : delim ≠ []) (h : firstAt delim stream = some p) {k j : Nat}
    (hj : j < p + delim.length) :
    readUntil delim cap limit sizes k (stream.take j) (stream.drop j) =
      let i := j + readSize cap (sizes k)
      if p + delim.length ≤ i then .ok ⟨stream.take i, stream.drop i, k + 1⟩
      else if limit < i then .error .tooLong
      else readUntil delim cap limit sizes (k + 1) (stream.take i) (stream.drop i) := by
  have hend := le_of_firstAt hdelim h
  have hne : stream.drop j ≠ [] := by
    rw [Ne, drop_eq_nil_iff]
    omega
  have hfound : ∀ i, (firstAt delim (stream.take i)).isSome = true ↔ p + delim.length ≤ i := by
    intro i
    rw [isSome_firstAt_iff hdelim (by rwa [take_append_drop i stream]), length_take]
    omega
  rw [readUntil, dif_neg hne]
  simp only [← take_add, drop_drop, hfound, length_take]
  split_ifs <;> first | rfl | omega

section

variable (hdelim : delim ≠ []) (hcap : 0 < cap) (h : firstAt delim stream = some p)
include hdelim hcap h

lemma readUntil_ones (hlimit : limit < p + delim.length) (hones : ∀ k < limit, sizes k = 1) :
    readUntil delim cap limit sizes 0 [] stream =
      readUntil delim cap limit sizes limit (stream.take limit) (stream.drop limit) := by
  have hstep : ∀ j ≤ limit, readUntil delim cap limit sizes 0 [] stream =
      readUntil delim cap limit sizes j (stream.take j) (stream.drop j) := by
    intro j
    induction j with
    | zero => intro _; rfl
    | succ j ih =>
      intro hj
      have hsize : readSize cap (sizes j) = 1 := by
        rw [hones j hj, readSize]
        omega
      rw [ih (by omega), readUntil_step hdelim h (by omega), hsize]
      simp only
      rw [if_neg (by omega), if_neg (by omega)]
  exact hstep limit le_rfl

lemma readUntil_one_each (hlimit : limit + 1 < p + delim.length) :
    readUntil delim cap limit (fun _ => 1) 0 [] stream = .error .tooLong := by
  have hone : readSize cap 1 = 1 := by
    rw [readSize]
    omega
  rw [readUntil_ones hdelim hcap h (by omega) (fun _ _ => rfl), readUntil_step hdelim h (by omega)]
  simp only [hone]
  rw [if_neg (by omega), if_pos (by omega)]

lemma isOk_readUntil_full (hlimit : limit < p + delim.length)
    (hend : p + delim.length ≤ limit + cap) :
    (readUntil delim cap limit (fun k => if k < limit then 1 else cap) 0 [] stream).isOk =
      true := by
  have hall : readSize cap cap = cap := by
    rw [readSize]
    omega
  rw [readUntil_ones hdelim hcap h hlimit (fun k hk => if_pos hk), readUntil_step hdelim h hlimit]
  simp only [lt_irrefl, if_false, hall]
  rw [if_pos hend]
  rfl

lemma isOk_readUntil_const_iff :
    (∀ s₁ s₂, (readUntil delim cap limit s₁ 0 [] stream).isOk =
        (readUntil delim cap limit s₂ 0 [] stream).isOk) ↔
      p + delim.length ≤ limit + 1 ∨ limit + cap < p + delim.length := by
  constructor
  · intro hconst
    by_contra hbetween
    rw [not_or, not_le, not_lt] at hbetween
    have hsame := hconst (fun _ => 1) fun k => if k < limit then 1 else cap
    rw [readUntil_one_each hdelim hcap h hbetween.1,
      isOk_readUntil_full hdelim hcap h (by omega) hbetween.2] at hsame
    cases hsame
  · have hpos : ([] : List α).length < p + delim.length := by
      have := length_pos_iff.mpr hdelim
      simp only [length_nil]
      omega
    rintro (hle | hlt)
    · have hok : ∀ s, (readUntil delim cap limit s 0 [] stream).isOk = true := by
        intro s
        obtain ⟨c, hc⟩ : ∃ c, readUntil delim cap limit s 0 [] stream = .ok c :=
          readUntil_ok_of_le hdelim h hle hpos
        rw [hc]
        rfl
      exact fun s₁ s₂ => (hok s₁).trans (hok s₂).symm
    · have herror : ∀ s, (readUntil delim cap limit s 0 [] stream).isOk = false := by
        intro s
        obtain ⟨e, he⟩ : ∃ e, readUntil delim cap limit s 0 [] stream = .error e :=
          readUntil_error_of_lt hdelim hcap h hlt (zero_le _)
        rw [he]
        rfl
      exact fun s₁ s₂ => (herror s₁).trans (herror s₂).symm

end

end

end Delimited
