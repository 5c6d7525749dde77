import Conrogate.Lib.SoftTable

/-!
# Row writes and unique indexes

A unique index on the live rows of a table needs a condition in the index. Without conditions, the
time of deletion is one more column; a `NULL` is different from every other.
-/

namespace SoftTable

open SoftRow SoftTable

/-- The writes of one table; `delete` is soft. -/
inductive RowWrite (ρ : Type) where
  | insert (row : ρ)
  | update (id : Nat) (set : ρ → ρ)
  | delete (now : Nat) (ids : List Nat)

variable {ρ κ : Type} [SoftRow ρ]

def RowWrite.apply : RowWrite ρ → List ρ → List ρ
  | .insert row, t => t ++ [row]
  | .update id set, t => SoftTable.update id set t
  | .delete now ids, t => softDelete now (fun r => ids.contains (rowId r)) t

def deleteWhere (now : Nat) (p : ρ → Bool) (t : List ρ) : RowWrite ρ :=
  .delete now ((select p t).map rowId)

/-- A unique index on `key`, for the live rows. -/
def UniqueLive (key : ρ → κ) (t : List ρ) : Prop := ((live t).map key).Nodup

/-- A unique index on `key` and the time of deletion. -/
def UniqueDeleted (key : ρ → κ) (t : List ρ) : Prop :=
  (t.filterMap fun r => (deletedAt r).map fun time => (key r, time)).Nodup

instance [DecidableEq κ] (key : ρ → κ) (t : List ρ) : Decidable (UniqueLive key t) :=
  inferInstanceAs (Decidable (List.Nodup _))

instance [DecidableEq κ] (key : ρ → κ) (t : List ρ) : Decidable (UniqueDeleted key t) :=
  inferInstanceAs (Decidable (List.Nodup _))

variable {row : ρ} {f : ρ → ρ}

namespace UniqueLive

variable {key : ρ → κ} {t : List ρ} (h : UniqueLive key t)

include h

lemma insert (hlive : deletedAt row = none) (hnew : ∀ r ∈ live t, key r ≠ key row) :
    UniqueLive key ((RowWrite.insert row).apply t) := by
  show ((live (SoftTable.insert (fun _ => row) t)).map key).Nodup
  refine nodup_keys_insert h (fun _ => hlive) ?_
  intro _ hmem
  obtain ⟨r, hr, heq⟩ := List.mem_map.mp hmem
  exact hnew r hr heq

lemma update (id : Nat) (hlive : ∀ r, deletedAt (f r) = deletedAt r) (hkey : ∀ r, key (f r) = key r)
    : UniqueLive key ((RowWrite.update id f).apply t) :=
  nodup_keys_update_of_eq h hlive hkey

lemma delete (now : Nat) (ids : List Nat) :
    UniqueLive key ((RowWrite.delete now ids).apply t) :=
  nodup_keys_softDelete h

end UniqueLive

lemma select_deleteWhere (now : Nat) (p : ρ → Bool) (t : List ρ) :
    select p ((deleteWhere now p t).apply t) = [] := by
  rw [deleteWhere, RowWrite.apply, select, live_softDelete, List.filter_filter,
    List.filter_eq_nil_iff]
  intro r hr h
  rw [Bool.and_eq_true] at h
  have hmem : rowId r ∈ (select p t).map rowId :=
    List.mem_map_of_mem (List.mem_filter.mpr ⟨hr, h.1⟩)
  simp [hmem] at h

lemma live_deleteWhere {t : List ρ} (hids : (t.map rowId).Nodup) (now : Nat) (p : ρ → Bool) :
    live ((deleteWhere now p t).apply t) = (live t).filter fun r => !p r :=
  live_softDelete_ids hids

/-! ### What a write leaves alone -/

def SameExcept (p : ρ → Bool) (t u : List ρ) : Prop :=
  u.filter (fun r => !p r) = t.filter fun r => !p r

namespace SameExcept

variable {p : ρ → Bool} {t u v : List ρ}

omit [SoftRow ρ] in
lemma refl : SameExcept p t t := rfl

omit [SoftRow ρ] in
lemma trans (h : SameExcept p t u) (h' : SameExcept p u v) : SameExcept p t v := Eq.trans h' h

omit [SoftRow ρ] in
lemma map (hf : ∀ r ∈ t, f r = r ∨ p r ∧ p (f r)) : SameExcept p t (t.map f) := by
  induction t with
  | nil => exact refl
  | cons r t ih =>
    have htail : SameExcept p t (t.map f) := ih fun q hq => hf q (List.mem_cons_of_mem r hq)
    obtain hsame | ⟨hr, hfr⟩ := hf r List.mem_cons_self
    · rw [SameExcept, List.map_cons, hsame, List.filter_cons, List.filter_cons, htail]
    · rw [SameExcept, List.map_cons, List.filter_cons_of_neg (by simpa using hfr),
        List.filter_cons_of_neg (by simpa using hr)]
      exact htail

lemma insert (hrow : p row = true) : SameExcept p t ((RowWrite.insert row).apply t) := by
  simp [SameExcept, RowWrite.apply, hrow]

lemma update {i : Nat} (hp : ∀ r, rowId r = i → p r = true ∧ p (f r) = true) :
    SameExcept p t ((RowWrite.update i f).apply t) := by
  refine map fun r _ => ?_
  split_ifs with hr
  · exact .inr (hp r hr)
  · exact .inl rfl

lemma deleteWhere (now : Nat) (hids : (t.map rowId).Nodup)
    (hdelete : ∀ r, p (SoftRow.delete now r) = p r) :
    SameExcept p t ((deleteWhere now p t).apply t) := by
  refine map fun r hr => ?_
  split_ifs with hlive
  · -- the row with this id that the statement has selected is this one
    obtain ⟨q, hq, hid⟩ := List.mem_map.mp (List.contains_iff_mem.mp hlive.2)
    obtain ⟨hqlive, hqp⟩ := List.mem_filter.mp hq
    obtain rfl := List.inj_on_of_nodup_map hids (mem_live.mp hqlive).1 hr hid
    exact .inr ⟨hqp, (hdelete q).trans hqp⟩
  · exact .inl rfl

omit [SoftRow ρ] in
lemma eq_of_singleton {r q : ρ} (h : SameExcept p [r] [q]) (hr : p r = false) (hq : p q = false) :
    q = r := by
  simpa [SameExcept, hr, hq] using h

lemma select_eq {q : ρ → Bool} (h : SameExcept p t u) (hq : ∀ r, q r = true → p r = false) :
    select q u = select q t := by
  have hskip : ∀ rows : List ρ, select q rows = select q (rows.filter fun r => !p r) := by
    intro rows
    simp only [select, live, List.filter_filter]
    refine List.filter_congr fun r _ => ?_
    cases hqr : q r with
    | false => simp
    | true => simp [hq r hqr]
  rw [hskip u, h, ← hskip t]

end SameExcept

/-! ### Writes that show -/

variable {t : List ρ} {p : ρ → Bool}

lemma deleteWhere_of_select_eq_nil (h : select p t = []) (now : Nat) :
    (deleteWhere now p t).apply t = t := by
  rw [deleteWhere, h, RowWrite.apply, softDelete]
  exact (List.map_congr_left fun r _ => by simp).trans (List.map_id t)

lemma live_deleteWhere_iff (now : Nat) :
    (∀ r, r ∈ live ((deleteWhere now p t).apply t) ↔ r ∈ live t) ↔ select p t = [] := by
  constructor
  · intro h
    refine List.eq_nil_iff_forall_not_mem.mpr fun r hr => ?_
    obtain ⟨hlive, hp⟩ := List.mem_filter.mp hr
    have hleft : r ∈ select p ((deleteWhere now p t).apply t) :=
      List.mem_filter.mpr ⟨(h r).mpr hlive, hp⟩
    rw [select_deleteWhere] at hleft
    cases hleft
  · intro h r
    rw [deleteWhere_of_select_eq_nil h]

lemma live_update_iff {m : ρ} (hids : (t.map rowId).Nodup) (hm : m ∈ live t) :
    (∀ r, r ∈ live (update (rowId m) f t) ↔ r ∈ live t) ↔ f m = m := by
  have honly : ∀ r ∈ t, rowId r = rowId m → r = m := fun r hr hid =>
    List.inj_on_of_nodup_map hids hr (mem_live.mp hm).1 hid
  constructor
  · intro h
    obtain ⟨r, hr, heq⟩ := List.mem_map.mp (mem_live.mp ((h m).mpr hm)).1
    by_cases hid : rowId r = rowId m
    · rw [if_pos hid, honly r hr hid] at heq
      exact heq
    · rw [if_neg hid] at heq
      exact absurd (congrArg rowId heq) hid
  · intro h
    have hsame : update (rowId m) f t = t := by
      refine (List.map_congr_left fun r hr => ?_).trans (List.map_id t)
      split_ifs with hid
      · rw [honly r hr hid, h]
        rfl
      · rfl
    intro r
    rw [hsame]

lemma rowId_notMem_of_insert (hids : (((RowWrite.insert row).apply t).map rowId).Nodup) :
    rowId row ∉ t.map rowId := by
  rw [RowWrite.apply, List.map_append] at hids
  exact fun hmem => List.disjoint_of_nodup_append hids hmem (List.mem_singleton.mpr rfl)

end SoftTable
