import Mathlib.Data.List.Sort

/-!
# Paging through a sorted query

A query with `ORDER BY`, `OFFSET` and `LIMIT` is made anew for every page, and rows with the same
key may come in another order each time.
-/

namespace Paging

open List

variable {ρ κ : Type*} [LinearOrder κ] (key : ρ → κ)

/-- An answer to a query for all rows in the order of their keys. -/
structure Answers (rows answer : List ρ) : Prop where
  perm : answer.Perm rows
  sorted : answer.Pairwise fun a b => key b ≤ key a

def window (n i : ℕ) (answer : List ρ) : List ρ := (answer.drop (i * n)).take n

def pages (n k : ℕ) (answers : ℕ → List ρ) : List ρ :=
  (List.range k).flatMap fun i => window n i (answers i)

def sortedKeys (rows : List ρ) : List κ := (rows.map key).insertionSort (· ≥ ·)

/-- The last row of a page and the first of the next have different keys, for the first `k`
pages. -/
def Separated (n k : ℕ) (rows : List ρ) : Prop :=
  ∀ j < k, 0 < j → j * n < rows.length →
    (sortedKeys key rows)[j * n - 1]? ≠ (sortedKeys key rows)[j * n]?

instance (n k : ℕ) (rows : List ρ) : Decidable (Separated key n k rows) :=
  inferInstanceAs (Decidable (∀ j < k, 0 < j → j * n < rows.length →
    (sortedKeys key rows)[j * n - 1]? ≠ (sortedKeys key rows)[j * n]?))

variable {key} {rows a b : List ρ} {n k m : ℕ}

lemma exists_answers (key : ρ → κ) (rows : List ρ) : ∃ a, Answers key rows a := by
  refine ⟨rows.insertionSort fun x y => key y ≤ key x, perm_insertionSort _ _, ?_⟩
  have : Std.Total fun x y : ρ => key y ≤ key x := ⟨fun x y => le_total (key y) (key x)⟩
  have : IsTrans ρ fun x y : ρ => key y ≤ key x := ⟨fun _ _ _ h h' => h'.trans h⟩
  exact pairwise_insertionSort _ _

lemma Answers.length_eq (h : Answers key rows a) : a.length = rows.length := h.perm.length_eq

lemma Answers.map_key (h : Answers key rows a) : a.map key = sortedKeys key rows := by
  refine List.Perm.eq_of_pairwise' (r := (· ≥ ·)) ?_ (pairwise_insertionSort _ _) ?_
  · exact pairwise_map.mpr h.sorted
  · exact (h.perm.map key).trans (perm_insertionSort _ _).symm

lemma Answers.eq_of_nodup (ha : Answers key rows a) (hb : Answers key rows b)
    (hkeys : (rows.map key).Nodup) : a = b := by
  refine (ha.perm.trans hb.perm.symm).eq_of_pairwise ?_ ha.sorted hb.sorted
  intro x y hx hy hle hge
  exact inj_on_of_nodup_map hkeys (ha.perm.mem_iff.mp hx) (hb.perm.mem_iff.mp hy)
    (le_antisymm hge hle)

lemma length_sortedKeys : (sortedKeys key rows).length = rows.length := by
  rw [sortedKeys, length_insertionSort, length_map]

lemma Answers.take_eq_filter (h : Answers key rows a) {c : κ} (hm : 0 < m)
    (hc : (sortedKeys key rows)[m]? = some c)
    (hne : (sortedKeys key rows)[m - 1]? ≠ (sortedKeys key rows)[m]?) :
    a.take m = a.filter (c < key ·) := by
  rw [← h.map_key, getElem?_map] at hc hne
  obtain ⟨y, hy, rfl⟩ := Option.map_eq_some_iff.mp hc
  obtain ⟨hlt, rfl⟩ := List.getElem?_eq_some_iff.mp hy
  have hpair := pairwise_iff_getElem.mp h.sorted
  have hlast : key a[m] < key a[m - 1] := by
    refine lt_of_le_of_ne (hpair (m - 1) m _ hlt (by omega)) fun heq => hne ?_
    simp [getElem?_eq_getElem hlt, heq, getElem?_eq_getElem (by omega : m - 1 < a.length)]
  have hfirst : ∀ x ∈ a.take m, key a[m] < key x := by
    intro x hx
    obtain ⟨i, hi, rfl⟩ := mem_take_iff_getElem.mp hx
    by_cases him : i = m - 1
    · subst him
      exact hlast
    · exact lt_of_lt_of_le hlast (hpair i (m - 1) _ _ (by omega))
  have hrest : ∀ x ∈ a.drop m, ¬ key a[m] < key x := by
    intro x hx
    obtain ⟨i, hi, rfl⟩ := mem_drop_iff_getElem.mp hx
    rw [not_lt]
    by_cases hi0 : i = 0
    · simp [hi0]
    · exact hpair m (m + i) hlt _ (by omega)
  generalize key a[m] = c at hfirst hrest
  calc a.take m = (a.take m).filter (c < key ·) ++ (a.drop m).filter (c < key ·) := by
        rw [filter_eq_self.mpr (by simpa using hfirst),
          filter_eq_nil_iff.mpr (by simpa using hrest), append_nil]
    _ = a.filter (c < key ·) := by rw [← filter_append, take_append_drop]

lemma Answers.take_perm (ha : Answers key rows a) (hb : Answers key rows b) (hm : 0 < m)
    (hne : m < rows.length → (sortedKeys key rows)[m - 1]? ≠ (sortedKeys key rows)[m]?) :
    (a.take m).Perm (b.take m) := by
  by_cases hlt : m < rows.length
  · have hlt' : m < (sortedKeys key rows).length := by rwa [length_sortedKeys]
    have hc := getElem?_eq_getElem hlt'
    rw [ha.take_eq_filter hm hc (hne hlt), hb.take_eq_filter hm hc (hne hlt)]
    exact (ha.perm.trans hb.perm.symm).filter _
  · rw [take_of_length_le (by rw [ha.length_eq]; omega),
      take_of_length_le (by rw [hb.length_eq]; omega)]
    exact ha.perm.trans hb.perm.symm

lemma Answers.splice (ha : Answers key rows a) (hb : Answers key rows b)
    (hperm : (a.take m).Perm (b.take m)) : Answers key rows (a.take m ++ b.drop m) := by
  refine ⟨((hperm.append_right _).trans ?_).trans hb.perm, pairwise_append.mpr ⟨?_, ?_, ?_⟩⟩
  · rw [take_append_drop]
  · exact ha.sorted.sublist (take_sublist _ _)
  · exact hb.sorted.sublist (drop_sublist _ _)
  · have hsorted := hb.sorted
    rw [← take_append_drop m b, pairwise_append] at hsorted
    exact fun x hx y hy => hsorted.2.2 x (hperm.mem_iff.mp hx) y hy

/-! ### Pages -/

lemma pages_succ (answers : ℕ → List ρ) :
    pages n (k + 1) answers = pages n k answers ++ window n k (answers k) := by
  rw [pages, range_succ, flatMap_append, flatMap_singleton, pages]

lemma take_append_window (n i : ℕ) (answer : List ρ) :
    answer.take (i * n) ++ window n i answer = answer.take ((i + 1) * n) := by
  rw [window, Nat.succ_mul, take_add]

lemma pages_const (answer : List ρ) : pages n k (fun _ => answer) = answer.take (k * n) := by
  induction k with
  | zero => simp [pages]
  | succ k ih => rw [pages_succ, ih, take_append_window]

lemma length_window (n i : ℕ) (answer : List ρ) :
    (window n i answer).length = min n (answer.length - i * n) := by
  rw [window, length_take, length_drop]

lemma window_subset (n i : ℕ) (answer : List ρ) : window n i answer ⊆ answer := fun _ hx =>
  mem_of_mem_drop (mem_of_mem_take hx)

lemma Separated.mono {k' : ℕ} (h : Separated key n k' rows) (hk : k ≤ k') :
    Separated key n k rows :=
  fun j hj => h j (hj.trans_le hk)

lemma Separated.exists_answers_pages (hn : 0 < n) (h : Separated key n k rows)
    {answers : ℕ → List ρ} (hanswers : ∀ i, Answers key rows (answers i)) :
    ∃ a, Answers key rows a ∧ pages n k answers = a.take (k * n) := by
  induction k with
  | zero => exact ⟨answers 0, hanswers 0, by simp [pages]⟩
  | succ k ih =>
    obtain ⟨a, ha, hpages⟩ := ih (h.mono k.le_succ)
    have hperm : (a.take (k * n)).Perm ((answers k).take (k * n)) := by
      rcases k.eq_zero_or_pos with rfl | hk
      · simp
      · exact ha.take_perm (hanswers k) (Nat.mul_pos hk hn) (h k k.lt_succ_self hk)
    refine ⟨_, ha.splice (hanswers k) hperm, ?_⟩
    have hlength := (hanswers k).length_eq.trans ha.length_eq.symm
    rw [pages_succ, hpages, window, take_append, take_take, length_take,
      Nat.min_eq_right (Nat.mul_le_mul_right n k.le_succ)]
    congr 1
    -- either the first pages are full, or there is nothing left
    rcases le_total (k * n) a.length with hfull | hshort
    · rw [Nat.min_eq_left hfull, Nat.succ_mul, Nat.add_sub_cancel_left]
    · rw [drop_of_length_le (hlength.le.trans hshort), take_nil, take_nil]

lemma Answers.swap {first rest : List ρ} {x y : ρ}
    (h : Answers key rows (first ++ x :: y :: rest)) (hkey : key x = key y) :
    Answers key rows (first ++ y :: x :: rest) := by
  refine ⟨(List.Perm.append_left first (.swap x y rest)).trans h.perm, ?_⟩
  have hsorted := h.sorted
  simp only [pairwise_append, pairwise_cons, mem_cons] at hsorted ⊢
  obtain ⟨hfirst, ⟨hx, hy, hrest⟩, hacross⟩ := hsorted
  refine ⟨hfirst, ⟨?_, ?_, hrest⟩, ?_⟩
  · rintro z (rfl | hz)
    · exact hkey.le
    · exact hy z hz
  · exact fun z hz => hx z (.inr hz)
  · rintro w hw z (rfl | rfl | hz)
    · exact hacross w hw z (.inr (.inl rfl))
    · exact hacross w hw z (.inl rfl)
    · exact hacross w hw z (.inr (.inr hz))

lemma exists_neighbours {a : List ρ} (hm : 0 < m) (hlt : m < a.length) :
    ∃ first x y rest, a = first ++ x :: y :: rest ∧ first.length + 1 = m := by
  obtain ⟨i, rfl⟩ : ∃ i, m = i + 1 := ⟨m - 1, by omega⟩
  refine ⟨a.take i, a[i], a[i + 1], a.drop (i + 2), ?_, ?_⟩
  · rw [← drop_eq_getElem_cons, ← drop_eq_getElem_cons, take_append_drop]
  · rw [length_take, Nat.min_eq_left (by omega)]

lemma separated_of_forall_pages (hn : 0 < n) (hrows : rows.Nodup)
    (h : ∀ answers : ℕ → List ρ, (∀ i, Answers key rows (answers i)) →
      ∃ a, Answers key rows a ∧ pages n k answers = a.take (k * n)) :
    Separated key n k rows := by
  intro j hjk hj hlt htie
  obtain ⟨a, ha⟩ := exists_answers key rows
  rw [← ha.length_eq] at hlt
  obtain ⟨first, x, y, rest, rfl, hlength⟩ := exists_neighbours (Nat.mul_pos hj hn) hlt
  have hkey : key x = key y := by
    rw [← ha.map_key, ← hlength] at htie
    simpa using htie
  -- the page after the two is asked for with the two the other way round
  let answers : ℕ → List ρ := fun i =>
    if i = j then first ++ y :: x :: rest else first ++ x :: y :: rest
  have hanswers : ∀ i, Answers key rows (answers i) := by
    intro i
    by_cases hi : i = j
    · simpa only [answers, if_pos hi] using ha.swap hkey
    · simpa only [answers, if_neg hi] using ha
  obtain ⟨b, hb, hpages⟩ := h answers hanswers
  have hnodup : (pages n k answers).Nodup := by
    rw [hpages]
    exact (hb.perm.nodup_iff.mpr hrows).sublist (take_sublist _ _)
  have hbefore : x ∈ window n (j - 1) (answers (j - 1)) := by
    have hpage : (j - 1) * n + n = first.length + 1 := by
      rw [hlength, ← Nat.succ_mul, Nat.succ_eq_add_one, Nat.sub_add_cancel hj]
    have hget : (window n (j - 1) (answers (j - 1)))[first.length - (j - 1) * n]? = some x := by
      simp only [answers, if_neg (by omega : j - 1 ≠ j), window]
      rw [getElem?_take_of_lt (by omega), getElem?_drop, Nat.add_sub_cancel' (by omega)]
      simp
    exact mem_of_getElem? hget
  have hafter : x ∈ window n j (answers j) := by
    have hdrop : (first ++ y :: x :: rest).drop (j * n) = x :: rest := by
      rw [← hlength, drop_append]
      simp
    obtain ⟨n, rfl⟩ : ∃ n', n = n' + 1 := ⟨n - 1, by omega⟩
    simp only [answers, if_pos, window, hdrop, take_succ_cons]
    exact mem_cons_self
  have hdisjoint := pairwise_iff_getElem.mp (nodup_flatMap.mp hnodup).2 (j - 1) j
    (by simp; omega) (by simpa using hjk) (by omega)
  simp only [getElem_range] at hdisjoint
  exact hdisjoint hbefore hafter

theorem forall_pages_iff_separated (hn : 0 < n) (hrows : rows.Nodup) :
    (∀ answers : ℕ → List ρ, (∀ i, Answers key rows (answers i)) →
      ∃ a, Answers key rows a ∧ pages n k answers = a.take (k * n)) ↔
    Separated key n k rows :=
  ⟨separated_of_forall_pages hn hrows, fun h _ hanswers => h.exists_answers_pages hn hanswers⟩

lemma separated_of_nodup (hkeys : (rows.map key).Nodup) (hn : 0 < n) : Separated key n k rows := by
  intro j _ hj hlt htie
  have hsorted : (sortedKeys key rows).Nodup :=
    (perm_insertionSort _ _).nodup_iff.mpr hkeys
  have hpos := Nat.mul_pos hj hn
  have heq := (getElem?_inj (by rw [length_sortedKeys]; omega) hsorted).mp htie
  omega

end Paging
