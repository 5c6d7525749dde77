import Mathlib.Algebra.Order.BigOperators.Group.List
import Mathlib.Algebra.Order.Ring.Nat
import Mathlib.Data.List.MinMax
import Mathlib.Data.List.Perm.Lattice

/-!
# Tables with soft deletion

A row has an id and is never taken away: a delete only notes the time. Queries see the live rows.
-/

class SoftRow (ρ : Type) where
  rowId : ρ → Nat
  deletedAt : ρ → Option Nat
  delete : Nat → ρ → ρ
  rowId_delete : ∀ now r, rowId (delete now r) = rowId r
  deletedAt_delete : ∀ now r, deletedAt (delete now r) = some now

namespace SoftTable

open SoftRow List Function

variable {ρ : Type} [SoftRow ρ]

def isLive (r : ρ) : Bool := (deletedAt r).isNone

def live (t : List ρ) : List ρ := t.filter isLive

def select (p : ρ → Bool) (t : List ρ) : List ρ := (live t).filter p

def selectOne (p : ρ → Bool) (t : List ρ) : Option ρ := (live t).find? p

def update (i : Nat) (f : ρ → ρ) (t : List ρ) : List ρ :=
  t.map fun r => if rowId r = i then f r else r

def softDelete (now : Nat) (p : ρ → Bool) (t : List ρ) : List ρ :=
  t.map fun r => if isLive r ∧ p r then delete now r else r

def freshId (t : List ρ) : Nat := (t.map rowId).foldr max 0 + 1

def insert (make : Nat → ρ) (t : List ρ) : List ρ := t ++ [make (freshId t)]

def insertAll (makes : List (Nat → ρ)) (t : List ρ) : List ρ :=
  makes.foldl (fun t make => insert make t) t

variable {t : List ρ} {p : ρ → Bool} {i now : Nat} {f : ρ → ρ} {make : Nat → ρ} {r : ρ}

lemma mem_live : r ∈ live t ↔ r ∈ t ∧ deletedAt r = none := by
  simp [live, isLive]

lemma live_append (u : List ρ) : live (t ++ u) = live t ++ live u := filter_append _ _

lemma selectOne_eq_head? : selectOne p t = (select p t).head? := by
  rw [selectOne, select, head?_filter]

lemma mem_softDelete (h : r ∈ softDelete now p t) :
    ∃ s ∈ t, r = s ∨ r = delete now s := by
  obtain ⟨s, hs, rfl⟩ := mem_map.mp h
  refine ⟨s, hs, ?_⟩
  split_ifs
  · exact .inr rfl
  · exact .inl rfl

lemma mem_insert : r ∈ insert make t ↔ r ∈ t ∨ r = make (freshId t) := by
  simp [insert]

variable {makes : List (Nat → ρ)}

lemma mem_insertAll {t : List ρ} (h : r ∈ insertAll makes t) :
    r ∈ t ∨ ∃ make ∈ makes, ∃ i, r = make i := by
  induction makes generalizing t with
  | nil => exact .inl h
  | cons make makes ih =>
    rcases ih h with hr | ⟨m, hm, hr⟩
    · rcases mem_insert.mp hr with hr | hr
      · exact .inl hr
      · exact .inr ⟨make, mem_cons_self, _, hr⟩
    · exact .inr ⟨m, mem_cons_of_mem make hm, hr⟩

lemma freshId_notMem : freshId t ∉ t.map rowId := fun hmem =>
  Nat.not_succ_le_self _ (le_max_of_le hmem le_rfl)

@[simp] lemma map_id_softDelete : (softDelete now p t).map rowId = t.map rowId := by
  rw [softDelete, map_map]
  apply map_congr_left
  intro r _
  rw [comp_apply]
  split_ifs
  · exact rowId_delete now r
  · rfl

variable {α β γ κ : Type}

lemma map_update {key : ρ → κ} (hkey : ∀ r, key (f r) = key r) :
    (update i f t).map key = t.map key := by
  rw [update, map_map]
  apply map_congr_left
  intro r _
  rw [comp_apply]
  split_ifs
  · exact hkey r
  · rfl

lemma update_eq_self (h : i ∉ t.map rowId) : update i f t = t := by
  refine (map_congr_left fun r hr => if_neg ?_).trans (map_id t)
  rintro rfl
  exact h (mem_map_of_mem hr)

lemma map_id_insert (hmake : ∀ i, rowId (make i) = i) :
    (insert make t).map rowId = t.map rowId ++ [freshId t] := by
  simp [insert, hmake]

lemma mem_ids_softDelete {a : Nat} (h : a ∈ t.map rowId) : a ∈ (softDelete now p t).map rowId := by
  rw [map_id_softDelete]
  exact h

lemma mem_ids_update {a : Nat} (hf : ∀ r, rowId (f r) = rowId r) (h : a ∈ t.map rowId) :
    a ∈ (update i f t).map rowId := by
  rw [map_update hf]
  exact h

lemma mem_ids_insert {a : Nat} (hmake : ∀ i, rowId (make i) = i) (h : a ∈ t.map rowId) :
    a ∈ (insert make t).map rowId := by
  rw [map_id_insert hmake]
  exact mem_append_left _ h

lemma freshId_mem_insert (hmake : ∀ i, rowId (make i) = i) :
    freshId t ∈ (insert make t).map rowId := by
  rw [map_id_insert hmake]
  exact mem_append_right _ mem_cons_self

section Nodup

variable (hids : (t.map rowId).Nodup)

include hids

lemma nodup_softDelete : ((softDelete now p t).map rowId).Nodup := by
  rw [map_id_softDelete]
  exact hids

lemma nodup_update (hf : ∀ r, rowId (f r) = rowId r) : ((update i f t).map rowId).Nodup := by
  rw [map_update hf]
  exact hids

lemma nodup_insert (hmake : ∀ i, rowId (make i) = i) : ((insert make t).map rowId).Nodup := by
  rw [map_id_insert hmake]
  exact hids.append (nodup_singleton _) (disjoint_singleton.mpr freshId_notMem)

lemma nodup_insertAll (hmakes : ∀ make ∈ makes, ∀ i, rowId (make i) = i) :
    ((insertAll makes t).map rowId).Nodup := by
  induction makes generalizing t with
  | nil => exact hids
  | cons make makes ih =>
    rw [forall_mem_cons] at hmakes
    exact ih (nodup_insert hids hmakes.1) hmakes.2

end Nodup

/-! ### The live rows after a statement -/

lemma live_softDelete : live (softDelete now p t) = (live t).filter fun r => !p r := by
  induction t with
  | nil => rfl
  | cons r t ih =>
    have hdeleted : isLive (delete now r) = false := by simp [isLive, deletedAt_delete]
    simp only [live, softDelete, map_cons, filter_cons] at ih ⊢
    cases hlive : isLive r <;> cases hp : p r <;>
      simp only [hlive, hp, hdeleted, ih, filter_cons, and_self, and_false, false_and,
        Bool.false_eq_true, if_true, if_false, Bool.not_false, Bool.not_true]

lemma live_update (hf : ∀ r, deletedAt (f r) = deletedAt r) :
    live (update i f t) = update i f (live t) := by
  induction t with
  | nil => rfl
  | cons r t ih =>
    have hsame : isLive (if rowId r = i then f r else r) = isLive r := by
      by_cases h : rowId r = i <;> simp [h, isLive, hf]
    simp only [live, update, map_cons, filter_cons, hsame] at ih ⊢
    cases isLive r <;> simp [ih]

lemma live_insert (hmake : ∀ i, deletedAt (make i) = none) :
    live (insert make t) = live t ++ [make (freshId t)] := by
  simp [live, insert, isLive, hmake]

lemma live_insertAll (makes : List (Nat → ρ))
    (hmake : ∀ make ∈ makes, ∀ i, deletedAt (make i) = none) (t : List ρ) :
    ∃ rows, live (insertAll makes t) = live t ++ rows ∧
      List.Forall₂ (fun make r => ∃ i, r = make i) makes rows := by
  induction makes generalizing t with
  | nil => exact ⟨[], by simp [insertAll], .nil⟩
  | cons make makes ih =>
    obtain ⟨rows, hlive, hrows⟩ :=
      ih (fun m hm => hmake m (mem_cons_of_mem _ hm)) (insert make t)
    refine ⟨make (freshId t) :: rows, ?_, .cons ⟨_, rfl⟩ hrows⟩
    change live (insertAll makes (insert make t)) = _
    rw [hlive, live_insert (hmake make mem_cons_self), append_assoc]
    rfl

lemma live_softDelete_ids (hids : (t.map rowId).Nodup) :
    live (softDelete now (fun r => ((select p t).map rowId).contains (rowId r)) t) =
      (live t).filter fun r => !p r := by
  rw [live_softDelete]
  apply filter_congr
  intro r hr
  congr 1
  rw [Bool.eq_iff_iff, contains_iff_mem, mem_map]
  constructor
  · rintro ⟨m, hm, hid⟩
    obtain ⟨hmlive, hp⟩ := mem_filter.mp hm
    have := inj_on_of_nodup_map hids (mem_live.mp hmlive).1 (mem_live.mp hr).1 hid
    exact this ▸ hp
  · intro hp
    exact ⟨r, mem_filter.mpr ⟨hr, hp⟩, rfl⟩

/-! ### Properties of all live rows -/

section Forall

variable {P : ρ → Prop} (h : ∀ r ∈ live t, P r)

include h

lemma forall_live_softDelete : ∀ r ∈ live (softDelete now p t), P r := by
  rw [live_softDelete]
  exact fun r hr => h r (mem_of_mem_filter hr)

lemma forall_live_insert (hmake : ∀ i, deletedAt (make i) = none) (hnew : ∀ i, P (make i)) :
    ∀ r ∈ live (insert make t), P r := by
  rw [live_insert hmake]
  intro r hr
  rcases mem_append.mp hr with hr | hr
  · exact h r hr
  · rw [mem_singleton.mp hr]
    exact hnew _

lemma forall_live_update (hids : (t.map rowId).Nodup) (hf : ∀ r, deletedAt (f r) = deletedAt r)
    {m : ρ} (hm : m ∈ t) (hnew : P (f m)) : ∀ r ∈ live (update (rowId m) f t), P r := by
  rw [live_update hf]
  intro r hr
  obtain ⟨q, hq, rfl⟩ := mem_map.mp hr
  split_ifs with hid
  · rw [inj_on_of_nodup_map hids (mem_live.mp hq).1 hm hid]
    exact hnew
  · exact h q hq

end Forall

/-! ### Properties of all rows -/

section All

variable {P : ρ → Prop} (h : ∀ r ∈ t, P r)

include h

lemma forall_softDelete (hdelete : ∀ r, P r → P (delete now r)) :
    ∀ r ∈ softDelete now p t, P r := by
  intro r hr
  obtain ⟨s, hs, rfl | rfl⟩ := mem_softDelete hr
  · exact h r hs
  · exact hdelete s (h s hs)

lemma forall_update (hf : ∀ r, P r → P (f r)) : ∀ r ∈ update i f t, P r := by
  intro r hr
  obtain ⟨s, hs, rfl⟩ := mem_map.mp hr
  split_ifs
  · exact hf s (h s hs)
  · exact h s hs

lemma forall_insert (hnew : ∀ i, P (make i)) : ∀ r ∈ insert make t, P r := by
  intro r hr
  rcases mem_insert.mp hr with hr | rfl
  · exact h r hr
  · exact hnew _

lemma forall_insertAll (hnew : ∀ make ∈ makes, ∀ i, P (make i)) :
    ∀ r ∈ insertAll makes t, P r := by
  intro r hr
  rcases mem_insertAll hr with hr | ⟨make, hmake, i, rfl⟩
  · exact h r hr
  · exact hnew make hmake i

end All

/-! ### Unique keys of live rows -/

section Unique

variable {κ : Type} {key : ρ → κ} (hkeys : ((live t).map key).Nodup)

include hkeys

lemma nodup_keys_softDelete : ((live (softDelete now p t)).map key).Nodup := by
  rw [live_softDelete]
  exact (filter_sublist.map key).nodup hkeys

lemma nodup_keys_insert (hmake : ∀ i, deletedAt (make i) = none)
    (hnew : ∀ i, key (make i) ∉ (live t).map key) : ((live (insert make t)).map key).Nodup := by
  rw [live_insert hmake, map_append]
  exact hkeys.append (nodup_singleton _) (disjoint_singleton.mpr (hnew _))

lemma nodup_keys_update_of_eq (hf : ∀ r, deletedAt (f r) = deletedAt r)
    (hkey : ∀ r, key (f r) = key r) : ((live (update i f t)).map key).Nodup := by
  rw [live_update hf, map_update hkey]
  exact hkeys

lemma nodup_keys_update (hids : (t.map rowId).Nodup) (hf : ∀ r, deletedAt (f r) = deletedAt r)
    (hother : ∀ r ∈ live t, rowId r = i → ∀ q ∈ live t, rowId q ≠ i → key (f r) ≠ key q) :
    ((live (update i f t)).map key).Nodup := by
  have hsame : ∀ r ∈ live t, ∀ q ∈ live t, rowId r = rowId q → r = q := fun r hr q hq =>
    inj_on_of_nodup_map hids (mem_live.mp hr).1 (mem_live.mp hq).1
  have hrows : (live t).Nodup := hkeys.of_map
  rw [live_update hf, update, map_map]
  refine hrows.map_on ?_
  intro r hr q hq heq
  simp only [comp_apply] at heq
  split_ifs at heq with hri hqi hqi
  · exact hsame r hr q hq (hri.trans hqi.symm)
  · exact absurd heq (hother r hr hri q hq hqi)
  · exact absurd heq.symm (hother q hq hqi r hr hri)
  · exact inj_on_of_nodup_map hkeys hr hq heq

end Unique

lemma mem_of_selectOne {m : ρ} (h : selectOne p t = some m) : m ∈ live t ∧ p m = true :=
  ⟨mem_of_find?_eq_some h, by simpa using find?_some h⟩

/-! ### Rows by key -/

section Keys

variable {κ : Type} [BEq κ] [LawfulBEq κ]

lemma flatMap_filter_perm (key : α → κ) {keys : List κ} (hkeys : keys.Nodup) (l : List α) :
    (keys.flatMap fun k => l.filter fun a => key a == k).Perm
      (l.filter fun a => keys.contains (key a)) := by
  induction keys with
  | nil => simp
  | cons k keys ih =>
    obtain ⟨hk, hkeys⟩ := nodup_cons.mp hkeys
    rw [flatMap_cons]
    refine ((ih hkeys).append_left _).trans ?_
    have hsplit := filter_append_perm (fun a => key a == k)
      (l.filter fun a => (k :: keys).contains (key a))
    rw [filter_filter, filter_filter] at hsplit
    refine .trans (.of_eq ?_) hsplit
    congr 1
    · apply filter_congr
      intro a _
      by_cases h : key a = k <;> simp [h]
    · apply filter_congr
      intro a _
      by_cases h : key a = k
      · simp [h, hk]
      · simp [h]

end Keys

lemma map_filterMap_sublist {f : α → Option β} {g : β → γ} {h : α → γ}
    (hf : ∀ a b, f a = some b → g b = h a) (l : List α) :
    ((l.filterMap f).map g).Sublist (l.map h) := by
  induction l with
  | nil => exact .slnil
  | cons a l ih =>
    rw [map_cons]
    cases ha : f a with
    | none =>
      rw [filterMap_cons_none ha]
      exact ih.cons _
    | some b =>
      rw [filterMap_cons_some ha, map_cons, hf a b ha]
      exact ih.cons_cons _

variable {xs : List α} {rows : α → List β}

lemma eq_singleton_of_length_flatMap (hrows : ∀ x ∈ xs, rows x ≠ [])
    (hlen : (xs.flatMap rows).length = xs.length) :
    ∀ x ∈ xs, ∃ r, rows x = [r] := by
  have hpos : ∀ x ∈ xs, 1 ≤ (rows x).length := fun x hx => length_pos_iff.mpr (hrows x hx)
  intro x hx
  by_contra hne
  have hone : 1 < (rows x).length :=
    (hpos x hx).lt_of_ne fun heq => hne (length_eq_one_iff.mp heq.symm)
  have hlt := sum_lt_sum (fun _ => 1) (fun x => (rows x).length) hpos ⟨x, hx, hone⟩
  rw [length_flatMap] at hlen
  simp [hlen] at hlt

lemma flatMap_perm_map_iff {V : β → γ} {W : α → γ} (key : γ → κ) (hrows : ∀ x ∈ xs, rows x ≠ [])
    (hkey : ∀ x ∈ xs, ∀ r ∈ rows x, key (V r) = key (W x))
    (hkeys : (xs.map fun x => key (W x)).Nodup) :
    ((xs.flatMap rows).map V).Perm (xs.map W) ↔ ∀ x ∈ xs, ∃ r, rows x = [r] ∧ V r = W x := by
  constructor
  · intro hperm x hx
    have hlen : (xs.flatMap rows).length = xs.length := by simpa using hperm.length_eq
    obtain ⟨r, hr⟩ := eq_singleton_of_length_flatMap hrows hlen x hx
    have hmem : r ∈ rows x := hr ▸ mem_cons_self
    have hview : V r ∈ xs.map W :=
      hperm.mem_iff.mp (mem_map_of_mem (mem_flatMap_of_mem hx hmem))
    obtain ⟨y, hy, heq⟩ := mem_map.mp hview
    have hsame : key (W y) = key (W x) := by rw [heq, hkey x hx r hmem]
    refine ⟨r, hr, ?_⟩
    rw [← heq, inj_on_of_nodup_map hkeys hy hx hsame]
  · intro hall
    rw [map_flatMap, ← flatMap_singleton' (xs.map W), flatMap_map]
    refine .of_eq (flatMap_congr ?_)
    intro x hx
    obtain ⟨r, hr, heq⟩ := hall x hx
    rw [hr, map_singleton, heq]

lemma map_perm_map_iff {V W : α → γ} (key : γ → κ) (hkey : ∀ x ∈ xs, key (V x) = key (W x))
    (hkeys : (xs.map fun x => key (W x)).Nodup) :
    (xs.map V).Perm (xs.map W) ↔ ∀ x ∈ xs, V x = W x := by
  have hself : ((xs.flatMap fun x => [x]).map V).Perm (xs.map W) ↔
      ∀ x ∈ xs, ∃ r, [x] = [r] ∧ V r = W x :=
    flatMap_perm_map_iff key (by simp) (by simpa using hkey) hkeys
  simpa using hself

end SoftTable
