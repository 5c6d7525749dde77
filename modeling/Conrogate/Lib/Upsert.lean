import Conrogate.Lib.SoftTable
import Mathlib.Data.Multiset.Filter

/-!
# Upserts by key

An item overwrites the first live row that has its key, or becomes a new row.
-/

open SoftRow SoftTable

/-- How an item overwrites the row of its key or becomes a new one. -/
structure Upsert (ι ρ κ : Type) where
  itemKey : ι → κ
  rowKey : ρ → κ
  write : ι → ρ → ρ
  create : ι → Nat → ρ

namespace Upsert

open List Function

variable {ι ρ κ : Type} [SoftRow ρ] [BEq κ]

structure Lawful (u : Upsert ι ρ κ) : Prop where
  rowId_write : ∀ x r, rowId (u.write x r) = rowId r
  deletedAt_write : ∀ x r, deletedAt (u.write x r) = deletedAt r
  rowKey_write : ∀ x r, u.rowKey (u.write x r) = u.rowKey r
  rowId_create : ∀ x i, rowId (u.create x i) = i
  deletedAt_create : ∀ x i, deletedAt (u.create x i) = none
  rowKey_create : ∀ x i, u.rowKey (u.create x i) = u.itemKey x

variable (u : Upsert ι ρ κ)

def rowsOf (k : κ) (t : List ρ) : List ρ := select (fun r => u.rowKey r == k) t

def find (t : List ρ) (x : ι) : Option ρ := selectOne (fun r => u.rowKey r == u.itemKey x) t

def step (t : List ρ) (x : ι) : List ρ :=
  match u.find t x with
  | some m => update (rowId m) (u.write x) t
  | none   => insert (u.create x) t

def target (t : List ρ) (x : ι) : Nat :=
  match u.find t x with
  | some m => rowId m
  | none   => freshId t

def run (t : List ρ) (xs : List ι) : List ρ := xs.foldl u.step t

def runMap (itemId : ι → Nat) (s : List ρ × (Nat → Option Nat)) (xs : List ι) :
    List ρ × (Nat → Option Nat) :=
  xs.foldl (fun s x =>
    (u.step s.1 x, Function.update s.2 (itemId x) (some (u.target s.1 x)))) s

def firstId (k : κ) (t : List ρ) : Option Nat := ((u.rowsOf k t).head?).map rowId

def Wrote (x : ι) (r : ρ) : Prop := (∃ m, r = u.write x m) ∨ ∃ i, r = u.create x i

variable {u} {t : List ρ} {x : ι} {xs : List ι} {k : κ} {m : ρ} {rest : List ρ} {r : ρ}

lemma rowKey_of_mem_rowsOf [LawfulBEq κ] (h : r ∈ u.rowsOf k t) : u.rowKey r = k := by
  simpa using (mem_filter.mp h).2

lemma mem_of_mem_rowsOf (h : r ∈ u.rowsOf k t) : r ∈ t :=
  (mem_live.mp (mem_filter.mp h).1).1

lemma find_of_cons (h : u.rowsOf (u.itemKey x) t = m :: rest) : u.find t x = some m := by
  rw [find, selectOne_eq_head?]
  exact congrArg List.head? h

lemma find_of_nil (h : u.rowsOf (u.itemKey x) t = []) : u.find t x = none := by
  rw [find, selectOne_eq_head?]
  exact congrArg List.head? h

lemma step_of_cons (h : u.rowsOf (u.itemKey x) t = m :: rest) :
    u.step t x = update (rowId m) (u.write x) t := by
  rw [step, find_of_cons h]

lemma step_of_nil (h : u.rowsOf (u.itemKey x) t = []) : u.step t x = insert (u.create x) t := by
  rw [step, find_of_nil h]

lemma firstId_of_cons (h : u.rowsOf k t = m :: rest) : u.firstId k t = some (rowId m) := by
  rw [firstId, h, head?_cons, Option.map_some]

lemma mem_live_of_firstId [LawfulBEq κ] {a : Nat} (h : u.firstId k t = some a) :
    ∃ r ∈ live t, rowId r = a ∧ u.rowKey r = k := by
  obtain ⟨r, hr, hid⟩ := Option.map_eq_some_iff.mp h
  have hmem := mem_of_mem_head? hr
  exact ⟨r, (mem_filter.mp hmem).1, hid, rowKey_of_mem_rowsOf hmem⟩

lemma rowsOf_update (hu : u.Lawful) (i : Nat) :
    u.rowsOf k (update i (u.write x) t) = update i (u.write x) (u.rowsOf k t) := by
  rw [rowsOf, select, live_update (hu.deletedAt_write x), SoftTable.update, filter_map]
  congr 1
  apply filter_congr
  intro r _
  rw [comp_apply]
  split_ifs
  · rw [hu.rowKey_write]
  · rfl

section

variable [LawfulBEq κ]

lemma rowsOf_insert (hu : u.Lawful) :
    u.rowsOf k (insert (u.create x) t) =
      u.rowsOf k t ++ if u.itemKey x == k then [u.create x (freshId t)] else [] := by
  rw [rowsOf, select, live_insert (hu.deletedAt_create x), filter_append]
  congr 1
  by_cases h : u.itemKey x = k <;> simp [hu.rowKey_create, h]

lemma rowsOf_eq_singleton (hlive : ((live t).map u.rowKey).Nodup) (h : u.rowsOf k t = m :: rest) :
    rest = [] := by
  have hsub : ((u.rowsOf k t).map u.rowKey).Nodup :=
    (filter_sublist.map u.rowKey).nodup hlive
  rw [h, map_cons, nodup_cons] at hsub
  rw [eq_nil_iff_forall_not_mem]
  intro r hr
  have hm := rowKey_of_mem_rowsOf (h ▸ mem_cons_self : m ∈ u.rowsOf k t)
  have hr' := rowKey_of_mem_rowsOf (h ▸ mem_cons_of_mem m hr : r ∈ u.rowsOf k t)
  exact hsub.1 (hm ▸ hr' ▸ mem_map_of_mem hr)

lemma mem_rowsOf_self (hm : m ∈ live t) : m ∈ u.rowsOf (u.rowKey m) t :=
  mem_filter.mpr ⟨hm, beq_self_eq_true _⟩

lemma rowsOf_self (hlive : ((live t).map u.rowKey).Nodup) (hm : m ∈ live t) :
    u.rowsOf (u.rowKey m) t = [m] := by
  have hmem := mem_rowsOf_self (u := u) hm
  cases hrows : u.rowsOf (u.rowKey m) t with
  | nil => simp [hrows] at hmem
  | cons q rest =>
    obtain rfl := rowsOf_eq_singleton hlive hrows
    rw [hrows, mem_singleton] at hmem
    rw [hmem]

lemma rowsOf_softDelete {now : Nat} {p : ρ → Bool} {q : κ → Bool} (hp : ∀ r, p r = q (u.rowKey r)) :
    u.rowsOf k (softDelete now p t) = if q k then [] else u.rowsOf k t := by
  have hrows : u.rowsOf k (softDelete now p t) = (u.rowsOf k t).filter fun _ => !q k := by
    rw [rowsOf, select, live_softDelete, filter_filter, rowsOf, select, filter_filter]
    apply filter_congr
    intro r _
    by_cases hk : u.rowKey r = k
    · rw [hp, hk, Bool.and_comm]
    · rw [beq_eq_false_iff_ne.mpr hk, Bool.false_and, Bool.and_false]
  rw [hrows]
  cases q k <;> simp

lemma map_live_eq_iff {γ : Type} (key : γ → κ) {V W : ρ → γ} {t' : List ρ}
    (hV : ∀ r, key (V r) = u.rowKey r) (hW : ∀ r, key (W r) = u.rowKey r) :
    ((live t).map V : Multiset γ) = (live t').map W ↔
      ∀ k, ((u.rowsOf k t).map V : Multiset γ) = (u.rowsOf k t').map W := by
  classical
  have hpart : ∀ (k : κ) (X : ρ → γ) (rows : List ρ), (∀ r, key (X r) = u.rowKey r) →
      ((u.rowsOf k rows).map X : Multiset γ) =
        ((live rows).map X : Multiset γ).filter fun v => key v = k := by
    intro k X rows hX
    rw [Multiset.filter_coe, filter_map, rowsOf, select]
    congr 2
    apply filter_congr
    intro r _
    rw [comp_apply, hX, Bool.eq_iff_iff, beq_iff_eq, decide_eq_true_iff]
  constructor
  · intro heq k
    rw [hpart k V t hV, hpart k W t' hW, heq]
  · intro hall
    ext v
    have hv := hall (key v)
    rw [hpart _ V t hV, hpart _ W t' hW] at hv
    have hself : ∀ s : Multiset γ, (s.filter fun w => key w = key v).count v = s.count v :=
      fun s => Multiset.count_filter_of_pos (p := fun w => key w = key v) rfl
    have hcount := congrArg (Multiset.count v) hv
    rwa [hself, hself] at hcount

end

section Step

variable (hu : u.Lawful) (hids : (t.map rowId).Nodup)

include hu hids

lemma nodup_step : ((u.step t x).map rowId).Nodup := by
  cases hrows : u.rowsOf (u.itemKey x) t with
  | nil =>
    rw [step_of_nil hrows]
    exact nodup_insert hids (hu.rowId_create x)
  | cons m rest =>
    rw [step_of_cons hrows]
    exact nodup_update hids (hu.rowId_write x)

omit hids in
lemma mem_ids_step {i : Nat} (hi : i ∈ t.map rowId) : i ∈ (u.step t x).map rowId := by
  cases hrows : u.rowsOf (u.itemKey x) t with
  | nil =>
    rw [step_of_nil hrows]
    exact mem_ids_insert (hu.rowId_create x) hi
  | cons m rest =>
    rw [step_of_cons hrows]
    exact mem_ids_update (hu.rowId_write x) hi

lemma rowsOf_step_of_cons (hrows : u.rowsOf (u.itemKey x) t = m :: rest) :
    u.rowsOf (u.itemKey x) (u.step t x) = u.write x m :: rest := by
  have hsub : ((u.rowsOf (u.itemKey x) t).map rowId).Nodup := by
    apply List.Sublist.nodup _ hids
    exact (filter_sublist.trans filter_sublist).map rowId
  rw [hrows, map_cons, nodup_cons] at hsub
  rw [step_of_cons hrows, rowsOf_update hu, hrows, SoftTable.update, map_cons, if_pos rfl]
  congr 1
  exact update_eq_self hsub.1

variable [LawfulBEq κ]

lemma rowsOf_step_of_ne (hk : u.itemKey x ≠ k) : u.rowsOf k (u.step t x) = u.rowsOf k t := by
  cases hrows : u.rowsOf (u.itemKey x) t with
  | nil => rw [step_of_nil hrows, rowsOf_insert hu, if_neg (by simpa using hk), append_nil]
  | cons m rest =>
    rw [step_of_cons hrows, rowsOf_update hu]
    have hm : m ∈ u.rowsOf (u.itemKey x) t := hrows ▸ mem_cons_self
    refine update_eq_self fun hmem => ?_
    -- a row with the id of `m` is `m`, and that has another key
    obtain ⟨r, hr, hid⟩ := mem_map.mp hmem
    have := inj_on_of_nodup_map hids (mem_of_mem_rowsOf hr) (mem_of_mem_rowsOf hm) hid
    rw [← rowKey_of_mem_rowsOf hr, this, rowKey_of_mem_rowsOf hm] at hk
    exact hk rfl

omit hids in
lemma rowsOf_step_of_nil (hrows : u.rowsOf (u.itemKey x) t = []) :
    u.rowsOf (u.itemKey x) (u.step t x) = [u.create x (freshId t)] := by
  rw [step_of_nil hrows, rowsOf_insert hu, hrows, if_pos (beq_self_eq_true _), nil_append]

lemma firstId_step_self : u.firstId (u.itemKey x) (u.step t x) = some (u.target t x) := by
  cases hrows : u.rowsOf (u.itemKey x) t with
  | nil =>
    rw [firstId, rowsOf_step_of_nil hu hrows, target, find_of_nil hrows, head?_cons,
      Option.map_some, hu.rowId_create]
  | cons m rest =>
    rw [firstId, rowsOf_step_of_cons hu hids hrows, target, find_of_cons hrows, head?_cons,
      Option.map_some, hu.rowId_write]

omit hids [LawfulBEq κ] in
lemma exists_mem_live_step (hr : r ∈ live t) :
    ∃ q ∈ live (u.step t x), rowId q = rowId r ∧ u.rowKey q = u.rowKey r := by
  cases hrows : u.rowsOf (u.itemKey x) t with
  | nil =>
    rw [step_of_nil hrows, live_insert (hu.deletedAt_create x)]
    exact ⟨r, mem_append_left _ hr, rfl, rfl⟩
  | cons m rest =>
    rw [step_of_cons hrows, live_update (hu.deletedAt_write x)]
    refine ⟨_, mem_map_of_mem hr, ?_⟩
    split_ifs
    · exact ⟨hu.rowId_write x r, hu.rowKey_write x r⟩
    · exact ⟨rfl, rfl⟩

lemma firstId_step {a : Nat} (h : u.firstId k t = some a) : u.firstId k (u.step t x) = some a := by
  by_cases hk : u.itemKey x = k
  · subst hk
    rw [firstId_step_self hu hids]
    cases hrows : u.rowsOf (u.itemKey x) t with
    | nil => simp [firstId, hrows] at h
    | cons m rest =>
      rw [target, find_of_cons hrows]
      simpa [firstId, hrows] using h
  · rw [firstId, rowsOf_step_of_ne hu hids hk]
    exact h

end Step

lemma run_cons : u.run t (x :: xs) = u.run (u.step t x) xs := rfl

section Run

variable (hu : u.Lawful) (hids : (t.map rowId).Nodup)

include hu hids

lemma nodup_run (xs : List ι) : ((u.run t xs).map rowId).Nodup := by
  induction xs generalizing t with
  | nil => exact hids
  | cons x xs ih => exact ih (nodup_step hu hids)

variable [LawfulBEq κ]

lemma rowsOf_run_of_notMem (hk : k ∉ xs.map u.itemKey) :
    u.rowsOf k (u.run t xs) = u.rowsOf k t := by
  induction xs generalizing t with
  | nil => rfl
  | cons x xs ih =>
    rw [map_cons, mem_cons, not_or] at hk
    rw [run_cons, ih (nodup_step hu hids) hk.2, rowsOf_step_of_ne hu hids (Ne.symm hk.1)]

lemma mem_live_run_of_notMem (hr : u.rowKey r ∉ xs.map u.itemKey) :
    r ∈ live (u.run t xs) ↔ r ∈ live t := by
  have hrows := rowsOf_run_of_notMem hu hids hr
  have hmem : ∀ rows, r ∈ u.rowsOf (u.rowKey r) rows ↔ r ∈ live rows := by
    intro rows
    rw [rowsOf, select, mem_filter, and_iff_left (beq_self_eq_true _)]
  rw [← hmem, hrows, hmem]

omit hids [LawfulBEq κ] in
lemma exists_mem_live_run (hr : r ∈ live t) (xs : List ι) :
    ∃ q ∈ live (u.run t xs), rowId q = rowId r ∧ u.rowKey q = u.rowKey r := by
  induction xs generalizing t r with
  | nil => exact ⟨r, hr, rfl, rfl⟩
  | cons x xs ih =>
    obtain ⟨p, hp, hid, hkey⟩ := exists_mem_live_step (x := x) hu hr
    obtain ⟨q, hq, hid', hkey'⟩ := ih hp
    exact ⟨q, hq, hid'.trans hid, hkey'.trans hkey⟩

lemma firstId_run {a : Nat} (h : u.firstId k t = some a) : u.firstId k (u.run t xs) = some a := by
  induction xs generalizing t with
  | nil => exact h
  | cons x xs ih => exact ih (nodup_step hu hids) (firstId_step hu hids h)

lemma exists_firstId_run (hx : x ∈ xs) : ∃ a, u.firstId (u.itemKey x) (u.run t xs) = some a := by
  induction xs generalizing t with
  | nil => cases hx
  | cons y xs ih =>
    have hids' := nodup_step (x := y) hu hids
    rcases mem_cons.mp hx with rfl | hx
    · exact ⟨_, firstId_run hu hids' (firstId_step_self hu hids)⟩
    · exact ih hids' hx

section

variable (hkeys : (xs.map u.itemKey).Nodup)
include hkeys

lemma rowsOf_run (hx : x ∈ xs) :
    (∀ m rest, u.rowsOf (u.itemKey x) t = m :: rest →
      u.rowsOf (u.itemKey x) (u.run t xs) = u.write x m :: rest) ∧
    (u.rowsOf (u.itemKey x) t = [] →
      ∃ i, u.rowsOf (u.itemKey x) (u.run t xs) = [u.create x i]) := by
  induction xs generalizing t with
  | nil => cases hx
  | cons y xs ih =>
    rw [map_cons, nodup_cons] at hkeys
    rw [run_cons]
    have hids' := nodup_step (x := y) hu hids
    rcases mem_cons.mp hx with rfl | hx
    · -- later items have other keys
      rw [rowsOf_run_of_notMem hu hids' hkeys.1]
      exact ⟨fun m rest h => rowsOf_step_of_cons hu hids h,
        fun h => ⟨_, rowsOf_step_of_nil hu h⟩⟩
    · have hne : u.itemKey y ≠ u.itemKey x := by
        intro heq
        exact hkeys.1 (heq ▸ mem_map_of_mem hx)
      have := ih hids' hkeys.2 hx
      rwa [rowsOf_step_of_ne hu hids hne] at this

lemma exists_wrote (hlive : ((live t).map u.rowKey).Nodup) (hx : x ∈ xs) :
    ∃ r, u.rowsOf (u.itemKey x) (u.run t xs) = [r] ∧ u.Wrote x r := by
  obtain ⟨hold, hnew⟩ := rowsOf_run hu hids hkeys hx
  cases hrows : u.rowsOf (u.itemKey x) t with
  | nil =>
    obtain ⟨i, hi⟩ := hnew hrows
    exact ⟨_, hi, .inr ⟨i, rfl⟩⟩
  | cons m rest =>
    rw [hold m rest hrows, rowsOf_eq_singleton hlive hrows]
    exact ⟨_, rfl, .inl ⟨m, rfl⟩⟩

lemma wrote_of_mem (hlive : ((live t).map u.rowKey).Nodup) (hr : r ∈ live (u.run t xs))
    (hkey : u.rowKey r ∈ xs.map u.itemKey) :
    ∃ x ∈ xs, u.itemKey x = u.rowKey r ∧ u.Wrote x r := by
  obtain ⟨x, hx, heq⟩ := mem_map.mp hkey
  obtain ⟨r', hrows, hwrote⟩ := exists_wrote hu hids hkeys hlive hx
  have hmem : r ∈ u.rowsOf (u.itemKey x) (u.run t xs) :=
    mem_filter.mpr ⟨hr, by simp [heq]⟩
  rw [hrows, mem_singleton] at hmem
  exact ⟨x, hx, heq, hmem ▸ hwrote⟩

end

lemma runMap_eq (itemId : ι → Nat) (map : Nat → Option Nat) (xs : List ι) :
    (u.runMap itemId (t, map) xs).1 = u.run t xs ∧
    (∀ i, i ∉ xs.map itemId → (u.runMap itemId (t, map) xs).2 i = map i) ∧
    ((xs.map itemId).Nodup → ∀ x ∈ xs,
      (u.runMap itemId (t, map) xs).2 (itemId x) = u.firstId (u.itemKey x) (u.run t xs)) := by
  induction xs generalizing t map with
  | nil => exact ⟨rfl, fun _ _ => rfl, fun _ x hx => by cases hx⟩
  | cons y xs ih =>
    have hids' := nodup_step (x := y) hu hids
    obtain ⟨hrun, hother, hmap⟩ :=
      ih hids' (update map (itemId y) (some (u.target t y)))
    refine ⟨hrun, ?_, ?_⟩
    · intro i hi
      rw [map_cons, mem_cons, not_or] at hi
      refine (hother i hi.2).trans ?_
      exact update_of_ne hi.1 _ _
    · intro hnodup x hx
      rw [map_cons, nodup_cons] at hnodup
      rcases mem_cons.mp hx with rfl | hx
      · refine (hother (itemId x) hnodup.1).trans ?_
        rw [update_self]
        exact (firstId_run hu hids' (firstId_step_self hu hids)).symm
      · exact hmap hnodup.2 x hx

omit hu hids in
lemma filter_keys_perm (hkeys : (xs.map u.itemKey).Nodup) (t : List ρ) :
    ((live t).filter fun r => (xs.map u.itemKey).contains (u.rowKey r)).Perm
      (xs.flatMap fun x => u.rowsOf (u.itemKey x) t) := by
  have := flatMap_filter_perm u.rowKey hkeys (live t)
  rw [flatMap_map] at this
  exact this.symm

lemma map_filter_keys_perm (hkeys : (xs.map u.itemKey).Nodup)
    (hlive : ((live t).map u.rowKey).Nodup) {γ : Type} {V : ρ → γ} {W : ι → γ}
    (hview : ∀ x ∈ xs, ∀ r, u.rowsOf (u.itemKey x) (u.run t xs) = [r] → u.Wrote x r → V r = W x) :
    (((live (u.run t xs)).filter fun r => (xs.map u.itemKey).contains (u.rowKey r)).map V).Perm
      (xs.map W) := by
  refine ((filter_keys_perm hkeys _).map V).trans ?_
  rw [map_flatMap, ← flatMap_singleton' (xs.map W), flatMap_map]
  refine .of_eq (flatMap_congr ?_)
  intro x hx
  obtain ⟨r, hr, hwrote⟩ := exists_wrote hu hids hkeys hlive hx
  rw [hr, map_singleton, hview x hx r hr hwrote]

end Run

end Upsert
