import Mathlib.Data.List.Induction
import Mathlib.Data.List.Sort

/-!
# Maps with ordered keys

A map is the list of its entries in ascending order of the keys. It can be searched as a ring,
clockwise from a point.
-/

structure OrderedMap (κ ν : Type*) [LinearOrder κ] where
  entries : List (κ × ν)
  sorted : (entries.map Prod.fst).Pairwise (· < ·)

namespace OrderedMap

open List

variable {κ ν : Type*} [LinearOrder κ]

def insertEntry (k : κ) (v : ν) : List (κ × ν) → List (κ × ν)
  | [] => [(k, v)]
  | e :: es =>
    if k < e.1 then (k, v) :: e :: es
    else if k = e.1 then (k, v) :: es
    else e :: insertEntry k v es

lemma mem_keys_insertEntry (k : κ) (v : ν) (es : List (κ × ν)) {k' : κ} :
    k' ∈ (insertEntry k v es).map Prod.fst ↔ k' = k ∨ k' ∈ es.map Prod.fst := by
  induction es with
  | nil => simp [insertEntry]
  | cons e es ih =>
    rw [insertEntry]
    split
    · simp
    · split
      · next heq => simp [heq]
      · rw [map_cons, mem_cons, ih, map_cons, mem_cons]
        exact or_left_comm

variable {k x : κ} {v : ν} {es : List (κ × ν)} {e : κ × ν}

lemma mem_of_mem_insertEntry (h : e ∈ insertEntry k v es) :
    e = (k, v) ∨ e ∈ es := by
  induction es with
  | nil => exact .inl (mem_singleton.mp h)
  | cons e' es ih =>
    rw [insertEntry] at h
    split at h
    · exact mem_cons.mp h
    · split at h
      · exact (mem_cons.mp h).imp_right (mem_cons_of_mem _)
      · obtain rfl | h := mem_cons.mp h
        · exact .inr mem_cons_self
        · exact (ih h).imp_right (mem_cons_of_mem _)

lemma sorted_insertEntry (k : κ) (v : ν) (h : (es.map Prod.fst).Pairwise (· < ·)) :
    ((insertEntry k v es).map Prod.fst).Pairwise (· < ·) := by
  induction es with
  | nil => simp [insertEntry]
  | cons e es ih =>
    rw [map_cons, pairwise_cons] at h
    obtain ⟨hhead, htail⟩ := h
    rw [insertEntry]
    split
    · next hlt =>
      simp only [map_cons, pairwise_cons]
      refine ⟨?_, hhead, htail⟩
      intro k' hk'
      obtain rfl | hk' := mem_cons.mp hk'
      · exact hlt
      · exact hlt.trans (hhead k' hk')
    · next hlt =>
      split
      · next heq =>
        subst heq
        exact pairwise_cons.mpr ⟨hhead, htail⟩
      · next hne =>
        refine pairwise_cons.mpr ⟨?_, ih htail⟩
        intro k' hk'
        obtain rfl | hk' := (mem_keys_insertEntry k v es).mp hk'
        · exact lt_of_le_of_ne (not_lt.mp hlt) (Ne.symm hne)
        · exact hhead k' hk'

lemma mem_insertEntry_self (k : κ) (v : ν) (es : List (κ × ν)) : (k, v) ∈ insertEntry k v es := by
  induction es with
  | nil => exact mem_cons_self
  | cons e es ih =>
    rw [insertEntry]
    split
    · exact mem_cons_self
    · split
      · exact mem_cons_self
      · exact mem_cons_of_mem _ ih

lemma mem_insertEntry_of_ne (v : ν) (hne : e.1 ≠ k) (h : e ∈ es) :
    e ∈ insertEntry k v es := by
  induction es with
  | nil => cases h
  | cons e' es ih =>
    rw [insertEntry]
    split
    · exact mem_cons_of_mem _ h
    · split
      · next heq =>
        obtain rfl | h := mem_cons.mp h
        · exact absurd heq.symm hne
        · exact mem_cons_of_mem _ h
      · obtain rfl | h := mem_cons.mp h
        · exact mem_cons_self
        · exact mem_cons_of_mem _ (ih h)

lemma eq_of_fst_eq (h : (es.map Prod.fst).Pairwise (· < ·)) {e' : κ × ν} (he : e ∈ es)
    (he' : e' ∈ es) (heq : e.1 = e'.1) : e = e' :=
  inj_on_of_nodup_map (h.imp ne_of_lt) he he' heq

lemma mem_insertEntry_iff (k : κ) (v : ν) (h : (es.map Prod.fst).Pairwise (· < ·)) :
    e ∈ insertEntry k v es ↔ e = (k, v) ∨ e ∈ es ∧ e.1 ≠ k := by
  constructor
  · intro he
    by_cases hk : e.1 = k
    · exact .inl (eq_of_fst_eq (sorted_insertEntry k v h) he (mem_insertEntry_self k v es) hk)
    · refine (mem_of_mem_insertEntry he).imp_right fun he => ⟨he, hk⟩
  · rintro (rfl | ⟨he, hk⟩)
    · exact mem_insertEntry_self k v es
    · exact mem_insertEntry_of_ne v hk he

def empty : OrderedMap κ ν where
  entries := []
  sorted := List.Pairwise.nil

def insert (m : OrderedMap κ ν) (k : κ) (v : ν) : OrderedMap κ ν where
  entries := insertEntry k v m.entries
  sorted := sorted_insertEntry k v m.sorted

def ofList (es : List (κ × ν)) : OrderedMap κ ν :=
  es.foldl (fun m e => m.insert e.1 e.2) empty

def keys (m : OrderedMap κ ν) : List κ := m.entries.map Prod.fst

lemma mem_keys_ofList :
    k ∈ (ofList es).keys ↔ k ∈ es.map Prod.fst := by
  induction es using List.reverseRecOn with
  | nil => rfl
  | append_singleton es e ih =>
    rw [ofList, foldl_concat, ← ofList, keys, insert, mem_keys_insertEntry, ← keys, ih]
    simp [or_comm]

lemma mem_of_mem_ofList (h : e ∈ (ofList es).entries) :
    e ∈ es := by
  induction es using List.reverseRecOn with
  | nil => exact h
  | append_singleton es e' ih =>
    rw [ofList, foldl_concat, ← ofList] at h
    obtain rfl | h := mem_of_mem_insertEntry h
    · exact mem_append_right _ mem_cons_self
    · exact mem_append_left _ (ih h)

lemma mem_ofList :
    (k, v) ∈ (ofList es).entries ↔ es.reverse.find? (fun e => e.1 = k) = some (k, v) := by
  induction es using List.reverseRecOn with
  | nil => simp [ofList, empty]
  | append_singleton es e ih =>
    rw [ofList, foldl_concat, ← ofList, insert, mem_insertEntry_iff _ _ (ofList es).sorted, ih,
      reverse_concat, find?_cons]
    by_cases hk : e.1 = k
    · simp [hk, eq_comm, Prod.ext_iff]
    · have hne : (k, v) ≠ e := fun heq => hk (congrArg Prod.fst heq).symm
      simp [hk, hne, Ne.symm hk]

lemma mem_ofList_append {last : List (κ × ν)} (hk : k ∈ last.map Prod.fst)
    (hv : ∀ e ∈ last, e.2 = v) : (k, v) ∈ (ofList (es ++ last)).entries := by
  induction last using List.reverseRecOn with
  | nil => cases hk
  | append_singleton last e ih =>
    rw [← append_assoc, ofList, foldl_concat, ← ofList]
    obtain rfl : e.2 = v := hv e (by simp)
    by_cases heq : e.1 = k
    · subst heq
      exact mem_insertEntry_self _ _ _
    · have hk' : k ∈ last.map Prod.fst := by
        rw [map_append, mem_append] at hk
        obtain hk | hk := hk
        · exact hk
        · exact absurd (mem_singleton.mp hk).symm heq
      refine mem_insertEntry_of_ne _ (Ne.symm heq) (ih hk' ?_)
      intro e' he'
      exact hv e' (mem_append_left _ he')

variable {m : OrderedMap κ ν}

lemma keys_eq_of_mem_iff {m' : OrderedMap κ ν} (h : ∀ k, k ∈ m.keys ↔ k ∈ m'.keys) :
    m.keys = m'.keys := by
  have hnodup : ∀ m : OrderedMap κ ν, m.keys.Nodup := fun m => m.sorted.imp ne_of_lt
  have hperm : m.keys.Perm m'.keys :=
    (perm_ext_iff_of_nodup (hnodup m) (hnodup m')).mpr h
  exact hperm.eq_of_pairwise (fun _ _ _ _ hab hba => absurd hba (lt_asymm hab)) m.sorted m'.sorted

def clockwise (m : OrderedMap κ ν) (x : κ) : Option (κ × ν) :=
  (m.entries.find? fun e => x ≤ e.1).or m.entries.head?

lemma clockwise_mem (h : m.clockwise x = some e) :
    e ∈ m.entries := by
  obtain h | ⟨-, h⟩ := Option.or_eq_some_iff.mp h
  · exact mem_of_find?_eq_some h
  · exact mem_of_head? h

lemma exists_clockwise (hne : m.entries ≠ []) (x : κ) :
    ∃ e, m.clockwise x = some e := by
  obtain ⟨e, he⟩ : ∃ e, m.entries.head? = some e := ⟨_, head?_eq_some_head hne⟩
  rw [clockwise, he]
  cases m.entries.find? fun e => x ≤ e.1 with
  | none => exact ⟨e, rfl⟩
  | some e' => exact ⟨e', rfl⟩

def FirstFrom (keys : List κ) (x k : κ) : Prop :=
  k ∈ keys ∧ ((x ≤ k ∧ ∀ j ∈ keys, x ≤ j → k ≤ j) ∨ (∀ j ∈ keys, j < x) ∧ ∀ j ∈ keys, k ≤ j)

lemma FirstFrom.of_subset {keys keys' : List κ} (h : FirstFrom keys x k) (hsub : keys' ⊆ keys)
    (hk : k ∈ keys') : FirstFrom keys' x k := by
  refine ⟨hk, ?_⟩
  obtain ⟨-, ⟨hle, hfirst⟩ | ⟨hlt, hleast⟩⟩ := h
  · exact .inl ⟨hle, fun j hj => hfirst j (hsub hj)⟩
  · exact .inr ⟨fun j hj => hlt j (hsub hj), fun j hj => hleast j (hsub hj)⟩

lemma FirstFrom.unique {keys : List κ} {k' : κ} (h : FirstFrom keys x k) (h' : FirstFrom keys x k')
    : k = k' := by
  obtain ⟨hk, ⟨hle, hfirst⟩ | ⟨hlt, hleast⟩⟩ := h
  · obtain ⟨hk', ⟨hle', hfirst'⟩ | ⟨hlt', -⟩⟩ := h'
    · exact le_antisymm (hfirst k' hk' hle') (hfirst' k hk hle)
    · exact absurd hle (not_le.mpr (hlt' k hk))
  · obtain ⟨hk', ⟨hle', -⟩ | ⟨-, hleast'⟩⟩ := h'
    · exact absurd hle' (not_le.mpr (hlt k' hk'))
    · exact le_antisymm (hleast k' hk') (hleast' k hk)

lemma firstFrom_of_clockwise (h : m.clockwise x = some e) :
    FirstFrom m.keys x e.1 := by
  refine ⟨mem_map_of_mem (clockwise_mem h), ?_⟩
  obtain h | ⟨hnone, hhead⟩ := Option.or_eq_some_iff.mp h
  · obtain ⟨hle, before, after, heq, hbefore⟩ := find?_eq_some_iff_append.mp h
    have hsorted := m.sorted
    rw [heq, map_append, map_cons, pairwise_append, pairwise_cons] at hsorted
    refine .inl ⟨by simpa using hle, fun j hj hxj => ?_⟩
    rw [keys, heq, map_append, map_cons, mem_append, mem_cons] at hj
    obtain hj | rfl | hj := hj
    · obtain ⟨e', he', rfl⟩ := mem_map.mp hj
      exact absurd hxj (by simpa using hbefore e' he')
    · exact le_rfl
    · exact (hsorted.2.1.1 j hj).le
  · refine .inr ⟨fun j hj => ?_, fun j hj => ?_⟩
    · obtain ⟨e', he', rfl⟩ := mem_map.mp hj
      simpa using find?_eq_none.mp hnone e' he'
    · obtain ⟨rest, heq⟩ := head?_eq_some_iff.mp hhead
      have hsorted := m.sorted
      rw [heq, map_cons, pairwise_cons] at hsorted
      rw [keys, heq, map_cons, mem_cons] at hj
      obtain rfl | hj := hj
      · exact le_rfl
      · exact (hsorted.1 j hj).le

lemma clockwise_of_mem (h : (x, v) ∈ m.entries) :
    m.clockwise x = some (x, v) := by
  obtain ⟨before, after, heq⟩ := append_of_mem h
  have hbefore : ∀ e ∈ before, e.1 < x := by
    have hsorted := m.sorted
    rw [heq, map_append, pairwise_append] at hsorted
    intro e he
    exact hsorted.2.2 e.1 (mem_map_of_mem he) x (by simp)
  have hfind : m.entries.find? (fun e => x ≤ e.1) = some (x, v) := by
    rw [find?_eq_some_iff_append]
    refine ⟨by simp, before, after, heq, ?_⟩
    intro e he
    simpa using hbefore e he
  rw [clockwise, hfind]
  rfl

lemma map_fst_clockwise (m : OrderedMap κ ν) (x : κ) : (m.clockwise x).map Prod.fst =
    (m.keys.find? fun k => x ≤ k).or m.keys.head? := by
  rw [clockwise, keys, Option.map_or, find?_map, head?_map]
  rfl

end OrderedMap
