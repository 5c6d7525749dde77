import Mathlib.Algebra.BigOperators.Group.List.Basic
import Mathlib.Algebra.Order.Ring.Nat
import Mathlib.Data.List.Infix

/-!
# Templates

The placeholders of a text are replaced one after the other, or all at once. The letters may carry
more than what is compared, such as where they come from. The two ways agree, letter by letter,
exactly if no placeholder comes about when the ones before it are replaced.
-/

namespace Template

open List

variable {α β : Type*} [DecidableEq α] (f : β → α)

/-- Replaces the placeholders of the table from left to right, where `f` is what is compared; of one
that was found, `skip` letters are still to be passed over. -/
def substitute (table : List (List α × List β)) : (skip : Nat) → List β → List β
  | _, [] => []
  | 0, a :: s =>
    match table.find? fun e => e.1.isPrefixOf ((a :: s).map f) with
    | some (p, v) => v ++ substitute table (p.length - 1) s
    | none => a :: substitute table 0 s
  | skip + 1, _ :: s => substitute table skip s

/-- Replaces one placeholder after the other. -/
def sequential (table : List (List α × List β)) (s : List β) : List β :=
  table.foldl (fun s e => substitute f [e] 0 s) s

/-- At how many places of the text the placeholder begins. -/
def occurrences (p s : List α) : Nat := s.tails.countP p.isPrefixOf

/-- The placeholder begins nowhere in the text, whatever follows the text. -/
def Inert (p u : List α) : Prop := ∀ w ∈ u.tails, w ≠ [] → ¬ p <+: w ∧ ¬ w <+: p

instance (p u : List α) : Decidable (Inert p u) :=
  inferInstanceAs (Decidable (∀ w ∈ u.tails, _))

/-- Placeholders that are recognised by how they begin. -/
structure Apart (names : List (List α)) : Prop where
  ne_nil : ∀ p ∈ names, p ≠ []
  nodup : names.Nodup
  distinct : ∀ p ∈ names, ∀ q ∈ names, p ≠ q → ¬ p <+: q
  tail : ∀ p ∈ names, ∀ q ∈ names, Inert q p.tail

variable {f} {table before after : List (List α × List β)} {e : List α × List β}
  {names : List (List α)} {p q : List α} {u s : List β} {a : β}

omit [DecidableEq α] in
lemma exists_append_of_prefix_map (h : p <+: s.map f) : ∃ u t, s = u ++ t ∧ u.map f = p :=
  ⟨s.take p.length, s.drop p.length, (take_append_drop ..).symm, by
    rw [map_take, ← prefix_iff_eq_take.mp h]⟩

/-! ### Names that do not overlap -/

omit [DecidableEq α] in
lemma Inert.of_suffix {u v : List α} (h : Inert p u) (hv : v <:+ u) : Inert p v := fun w hw =>
  h w ((mem_tails _ _).mpr (((mem_tails _ _).mp hw).trans hv))

omit [DecidableEq α] in
lemma Inert.not_starts {a : α} {u : List α} (h : Inert p (a :: u)) (s : List α) :
    ¬ p <+: a :: u ++ s := by
  intro hprefix
  obtain ⟨hp, hu⟩ := h (a :: u) ((mem_tails _ _).mpr suffix_rfl) nofun
  exact ( prefix_or_prefix_of_prefix hprefix (prefix_append _ s)).elim hp hu

omit [DecidableEq α] in
lemma Apart.sublist {names' : List (List α)} (h : Apart names) (hsub : names'.Sublist names) :
    Apart names' where
  ne_nil p hp := h.ne_nil p (hsub.subset hp)
  nodup := h.nodup.sublist hsub
  distinct p hp q hq := h.distinct p (hsub.subset hp) q (hsub.subset hq)
  tail p hp q hq := h.tail p (hsub.subset hp) q (hsub.subset hq)

omit [DecidableEq α] in
lemma Apart.inert (h : Apart names) (hp : p ∈ names) (hq : q ∈ names) (hne : p ≠ q) :
    Inert q p := by
  intro w hw hnil
  have htail := h.tail p hp q hq w
  obtain hw | ⟨a, hcons⟩ : w = p ∨ w <:+ p.tail := by
    cases p with
    | nil => exact .inl (suffix_nil.mp ((mem_tails _ _).mp hw))
    | cons a p => exact suffix_cons_iff.mp ((mem_tails _ _).mp hw)
  · rw [hw]
    exact ⟨h.distinct q hq p hp hne.symm, h.distinct p hp q hq hne⟩
  · exact htail ((mem_tails _ _).mpr ⟨a, hcons⟩) hnil

lemma occurrences_cons (p : List α) (a : α) (s : List α) :
    occurrences p (a :: s) = occurrences p s + if p <+: a :: s then 1 else 0 := by
  simp [occurrences, countP_cons]

lemma occurrences_append_of_inert {u : List α} (h : Inert p u) (s : List α) :
    occurrences p (u ++ s) = occurrences p s := by
  induction u with
  | nil => rfl
  | cons a u ih =>
    have hnot := h.not_starts s
    rw [cons_append] at hnot ⊢
    rw [occurrences_cons, if_neg hnot, ih (h.of_suffix (suffix_cons a u)), Nat.add_zero]

lemma Apart.occurrences_append (h : Apart names) (hp : p ∈ names) (hq : q ∈ names) (s : List α) :
    occurrences q (p ++ s) = occurrences q s + if p = q then 1 else 0 := by
  split_ifs with heq
  · subst heq
    have htail := occurrences_append_of_inert (h.tail p hp p hp) s
    obtain ⟨a, u, rfl⟩ := exists_cons_of_ne_nil (h.ne_nil p hp)
    rw [tail_cons] at htail
    have hprefix : a :: u <+: a :: (u ++ s) := prefix_append (a :: u) s
    rw [cons_append, occurrences_cons, htail, if_pos hprefix]
  · exact occurrences_append_of_inert (h.inert hp hq heq) s

/-! ### What a substitution does -/

lemma substitute_letter (h : ∀ e ∈ table, ¬ e.1 <+: (a :: s).map f) :
    substitute f table 0 (a :: s) = a :: substitute f table 0 s := by
  rw [substitute, find?_eq_none.mpr]
  simpa using h

lemma substitute_piece (h : ∀ e ∈ table, Inert e.1 (u.map f)) (s : List β) :
    substitute f table 0 (u ++ s) = u ++ substitute f table 0 s := by
  induction u with
  | nil => rfl
  | cons a u ih =>
    rw [cons_append, substitute_letter, ih fun e he => (h e he).of_suffix (suffix_cons _ _)]
    · rfl
    · intro e he
      rw [← cons_append, map_append]
      exact (h e he).not_starts _

lemma substitute_nil (s : List β) : substitute f [] 0 s = s := by
  have hinert : ∀ e ∈ ([] : List (List α × List β)), Inert e.1 (s.map f) := nofun
  simpa [substitute] using substitute_piece hinert []

lemma find?_eq (h : Apart (table.map Prod.fst)) (he : e ∈ table) (s : List α) :
    table.find? (fun e' => e'.1.isPrefixOf (e.1 ++ s)) = some e := by
  induction table with
  | nil => cases he
  | cons e' table ih =>
    obtain rfl | he := mem_cons.mp he
    · exact find?_cons_of_pos (by simp)
    · have hne : e'.1 ≠ e.1 := fun heq =>
        (nodup_cons.mp h.nodup).1 (heq ▸ mem_map_of_mem he)
      have hmem : e.1 ∈ (e' :: table).map Prod.fst := mem_map_of_mem (mem_cons_of_mem _ he)
      rw [find?_cons_of_neg]
      · exact ih (h.sublist (sublist_cons_self _ _)) he
      · intro hprefix
        obtain hle | hle := prefix_or_prefix_of_prefix
          (List.isPrefixOf_iff_prefix.mp hprefix) (prefix_append e.1 s)
        · exact h.distinct _ mem_cons_self _ hmem hne hle
        · exact h.distinct _ hmem _ mem_cons_self hne.symm hle

lemma substitute_skip (u s : List β) :
    substitute f table u.length (u ++ s) = substitute f table 0 s := by
  induction u with
  | nil => cases s <;> rfl
  | cons a u ih => exact ih

lemma substitute_placeholder (h : Apart (table.map Prod.fst)) (he : e ∈ table)
    (hu : u.map f = e.1) (s : List β) :
    substitute f table 0 (u ++ s) = e.2 ++ substitute f table 0 s := by
  cases u with
  | nil => exact absurd hu.symm (h.ne_nil _ (mem_map_of_mem he))
  | cons a u =>
    have hfind := find?_eq h he (s.map f)
    rw [← hu, ← map_append, cons_append] at hfind
    have hlen : e.1.length - 1 = u.length := by simp [← hu]
    rw [cons_append, substitute, hfind]
    simp only [hlen, substitute_skip]

/-- What is compared of the result is the result on what is compared. -/
lemma map_substitute (table : List (List α × List β)) (skip : Nat) (s : List β) :
    (substitute f table skip s).map f =
      substitute id (table.map fun e => (e.1, e.2.map f)) skip (s.map f) := by
  induction s generalizing skip with
  | nil => rfl
  | cons a s ih =>
    cases skip with
    | succ skip => exact ih skip
    | zero =>
      rw [substitute, map_cons, substitute, find?_map]
      simp only [Function.comp_def, map_id]
      cases table.find? (fun e => e.1.isPrefixOf (f a :: s.map f)) with
      | none => simp [ih]
      | some e => simp [ih]

lemma map_sequential (table : List (List α × List β)) (s : List β) :
    (sequential f table s).map f =
      sequential id (table.map fun e => (e.1, e.2.map f)) (s.map f) := by
  induction table generalizing s with
  | nil => rfl
  | cons e table ih =>
    have hstep := ih (substitute f [e] 0 s)
    rw [map_substitute] at hstep
    exact hstep

/-! ### No placeholder comes about -/

lemma le_occurrences_append (p : List α) (u s : List α) :
    occurrences p s ≤ occurrences p (u ++ s) := by
  induction u with
  | nil => exact le_rfl
  | cons a u ih =>
    rw [cons_append, occurrences_cons]
    exact ih.trans (Nat.le_add_right _ _)

lemma substitute_append_of_occurrences
    (h : occurrences e.1 ((u ++ s).map f) ≤ occurrences e.1 (s.map f)) :
    substitute f [e] 0 (u ++ s) = u ++ substitute f [e] 0 s := by
  induction u with
  | nil => rfl
  | cons a u ih =>
    have hle := le_occurrences_append e.1 (u.map f) (s.map f)
    rw [cons_append, map_cons, occurrences_cons] at h
    rw [← map_append] at hle
    have hnot : ¬ e.1 <+: (a :: (u ++ s)).map f := by
      intro hprefix
      rw [map_cons] at hprefix
      rw [if_pos hprefix] at h
      omega
    rw [cons_append, substitute_letter (forall_mem_singleton.mpr hnot), ih (by omega)]
    rfl

omit [DecidableEq α] in
lemma Apart.ne (h : Apart ((before ++ after).map Prod.fst)) {e' : List α × List β}
    (he' : e' ∈ before) (he : e ∈ after) : e'.1 ≠ e.1 := by
  have hnodup := h.nodup
  rw [map_append] at hnodup
  exact (nodup_append.mp hnodup).2.2 _ (mem_map_of_mem he') _ (mem_map_of_mem he)

/-- A text is made of pieces that the earlier substitution settles, and of later placeholders. -/
lemma text_induction {motive : List β → Prop} (h : Apart ((before ++ after).map Prod.fst))
    (nil : motive [])
    (settled : ∀ x u s, substitute f before 0 (x ++ s) = u ++ substitute f before 0 s →
      substitute f (before ++ after) 0 (x ++ s) = u ++ substitute f (before ++ after) 0 s →
      (∀ e ∈ after, occurrences e.1 ((x ++ s).map f) = occurrences e.1 (s.map f)) →
      (∀ b ∈ u, b ∈ x ∨ ∃ e ∈ before, b ∈ e.2) → motive s → motive (x ++ s))
    (later : ∀ x e s, e ∈ after → x.map f = e.1 →
      substitute f before 0 (x ++ s) = x ++ substitute f before 0 s →
      substitute f (before ++ after) 0 (x ++ s) = e.2 ++ substitute f (before ++ after) 0 s →
      motive s → motive (x ++ s)) (s : List β) : motive s := by
  have hafter : ∀ {e}, e ∈ after → e.1 ∈ (before ++ after).map Prod.fst :=
    fun he => mem_map_of_mem (mem_append_right _ he)
  have hbefore : Apart (before.map Prod.fst) := h.sublist ((sublist_append_left _ _).map _)
  induction hn : s.length using Nat.strong_induction_on generalizing s with
  | _ n ih =>
    cases s with
    | nil => exact nil
    | cons a s =>
      by_cases hfound : ∃ e ∈ before ++ after, e.1 <+: (a :: s).map f
      · obtain ⟨e', he', hprefix⟩ := hfound
        obtain ⟨x, t, hs, hname⟩ := exists_append_of_prefix_map hprefix
        have hmem : e'.1 ∈ (before ++ after).map Prod.fst := mem_map_of_mem he'
        have hpos : 0 < x.length := by
          rw [← length_map (f := f), hname]
          exact length_pos_of_ne_nil (h.ne_nil _ hmem)
        rw [hs, length_append] at hn
        have ih := ih _ (by omega) t rfl
        have hnew := substitute_placeholder h he' hname t
        rw [hs]
        obtain he | he := mem_append.mp he'
        · refine settled x e'.2 t (substitute_placeholder hbefore he hname t) hnew
            (fun e hlater => ?_) (fun b hb => .inr ⟨e', he, hb⟩) ih
          rw [map_append, hname, h.occurrences_append hmem (hafter hlater),
            if_neg (h.ne he hlater), Nat.add_zero]
        · refine later x e' t he hname (substitute_piece (fun e hearlier => ?_) t) hnew ih
          rw [hname]
          exact h.inert hmem (mem_map_of_mem (mem_append_left _ hearlier)) (h.ne hearlier he).symm
      · have hnone : ∀ e ∈ before ++ after, ¬ e.1 <+: (a :: s).map f := fun e he hprefix =>
          hfound ⟨e, he, hprefix⟩
        refine settled [a] [a] s (substitute_letter fun e he => hnone e (mem_append_left _ he))
          (substitute_letter hnone) (fun e he => ?_) (fun b hb => .inl hb)
          (ih _ (by rw [← hn]; exact Nat.lt_succ_self _) s rfl)
        have hnot := hnone e (mem_append_right _ he)
        rw [map_cons] at hnot
        rw [singleton_append, map_cons, occurrences_cons, if_neg hnot, Nat.add_zero]

/-- Replacing earlier placeholders removes no later one, and if it brings none about, then the next
one can be replaced afterwards. -/
lemma substitute_concat (h : Apart ((before ++ [e]).map Prod.fst)) (s : List β) :
    occurrences e.1 (s.map f) ≤ occurrences e.1 ((substitute f before 0 s).map f) ∧
      (occurrences e.1 ((substitute f before 0 s).map f) = occurrences e.1 (s.map f) →
        substitute f [e] 0 (substitute f before 0 s) = substitute f (before ++ [e]) 0 s) := by
  have hlast : Apart ([e].map Prod.fst) := h.sublist ((sublist_append_right _ _).map _)
  induction s using text_induction (f := f) h with
  | nil => exact ⟨le_rfl, fun _ => rfl⟩
  | settled x u s hx hx' hocc _ ih =>
    have hmore := le_occurrences_append e.1 (u.map f) ((substitute f before 0 s).map f)
    rw [← map_append] at hmore
    rw [hx, hx', hocc e mem_cons_self]
    refine ⟨ih.1.trans hmore, fun hsame => ?_⟩
    rw [substitute_append_of_occurrences (hsame.le.trans ih.1), ih.2 (by omega)]
  | later x e' s he hname hx hx' ih =>
    obtain rfl := mem_singleton.mp he
    have hocc (t : List β) :
        occurrences e'.1 ((x ++ t).map f) = occurrences e'.1 (t.map f) + 1 := by
      rw [map_append, hname, hlast.occurrences_append mem_cons_self mem_cons_self, if_pos rfl]
    rw [hx, hx', hocc, hocc, substitute_placeholder hlast mem_cons_self hname]
    exact ⟨Nat.add_le_add_right ih.1 1, fun hsame => by rw [ih.2 (by omega)]⟩

/-! ### Letters that are lost -/

def weight (w : β → Nat) (s : List β) : Nat := (s.map w).sum

variable {w : β → Nat}

omit [DecidableEq α] in
lemma weight_append (s t : List β) : weight w (s ++ t) = weight w s + weight w t := by
  simp [weight]

section

variable (h : Apart (table.map Prod.fst)) (hzero : ∀ e ∈ table, weight w e.2 = 0)
include h hzero

/-- A placeholder takes its letters with it, and no other placeholder begins among them. -/
lemma weight_substitute_cons (a : β) (t : List β) :
    weight w (substitute f table 0 (a :: t)) ≤ w a + weight w (substitute f table 0 t) ∧
      ((∃ e ∈ table, e.1 <+: (a :: t).map f) →
        weight w (substitute f table 0 (a :: t)) ≤ weight w (substitute f table 0 t)) := by
  by_cases hfound : ∃ e ∈ table, e.1 <+: (a :: t).map f
  · suffices hle : weight w (substitute f table 0 (a :: t)) ≤ weight w (substitute f table 0 t) from
      ⟨hle.trans (Nat.le_add_left _ _), fun _ => hle⟩
    obtain ⟨e, he, hprefix⟩ := hfound
    have hmem : e.1 ∈ table.map Prod.fst := mem_map_of_mem he
    obtain ⟨u, s, hs, hu⟩ := exists_append_of_prefix_map hprefix
    obtain ⟨b, y, rfl⟩ := exists_cons_of_ne_nil (l := u) fun hnil =>
      h.ne_nil _ hmem (by rw [← hu, hnil]; rfl)
    obtain ⟨rfl, rfl⟩ : a = b ∧ t = y ++ s := List.cons.inj hs
    have htail : substitute f table 0 (y ++ s) = y ++ substitute f table 0 s := by
      refine substitute_piece (fun e' he' => ?_) s
      have := h.tail _ hmem _ (mem_map_of_mem he')
      rwa [← hu] at this
    rw [htail, ← cons_append, substitute_placeholder h he hu, weight_append, weight_append,
      hzero e he]
    omega
  · rw [substitute_letter fun e he hprefix => hfound ⟨e, he, hprefix⟩]
    exact ⟨by simp [weight], fun h => absurd h hfound⟩

lemma weight_substitute_append (u t : List β) :
    weight w (substitute f table 0 (u ++ t)) ≤ weight w u + weight w (substitute f table 0 t) ∧
      ∀ e ∈ table, (∀ b ∈ u, 0 < w b) →
        occurrences e.1 (t.map f) < occurrences e.1 ((u ++ t).map f) →
        weight w (substitute f table 0 (u ++ t)) <
          weight w u + weight w (substitute f table 0 t) := by
  induction u with
  | nil => simp [weight]
  | cons a u ih =>
    obtain ⟨hle, hfound⟩ := weight_substitute_cons h hzero (f := f) a (u ++ t)
    have hcons : weight w (a :: u) = w a + weight w u := by simp [weight]
    rw [cons_append, hcons]
    refine ⟨by omega, fun e he hpos hocc => ?_⟩
    obtain ⟨ha, hu⟩ := forall_mem_cons.mp hpos
    rw [map_cons, occurrences_cons, ← map_cons] at hocc
    by_cases hprefix : e.1 <+: (a :: (u ++ t)).map f
    · have := hfound ⟨e, he, hprefix⟩
      omega
    · rw [if_neg hprefix] at hocc
      have := ih.2 e he hu hocc
      omega

end

section

variable (h : Apart ((before ++ after).map Prod.fst)) (hzero : ∀ e ∈ after, weight w e.2 = 0)
include h hzero

/-- What replacing the later placeholders afterwards loses. -/
lemma weight_substitute_substitute (s : List β) :
    weight w (substitute f after 0 (substitute f before 0 s)) ≤
        weight w (substitute f (before ++ after) 0 s) ∧
      ∀ e ∈ after, (∀ e' ∈ before, ∀ b ∈ e'.2, 0 < w b) → (∀ b ∈ s, 0 < w b) →
        occurrences e.1 (s.map f) < occurrences e.1 ((substitute f before 0 s).map f) →
        weight w (substitute f after 0 (substitute f before 0 s)) <
          weight w (substitute f (before ++ after) 0 s) := by
  have hafter : Apart (after.map Prod.fst) := h.sublist ((sublist_append_right _ _).map _)
  induction s using text_induction (f := f) h with
  | nil => simp [substitute]
  | settled x u s hx hx' hocc horigin ih =>
    obtain ⟨hle, hlt⟩ := weight_substitute_append hafter hzero (f := f) u (substitute f before 0 s)
    rw [hx, hx', weight_append]
    refine ⟨by omega, fun e he hbefore hpos hmore => ?_⟩
    rw [forall_mem_append] at hpos
    rw [hocc e he] at hmore
    have hu : ∀ b ∈ u, 0 < w b := fun b hb =>
      (horigin b hb).elim (hpos.1 b) fun ⟨e', he', hb⟩ => hbefore e' he' b hb
    by_cases hnew : occurrences e.1 (s.map f) < occurrences e.1 ((substitute f before 0 s).map f)
    · have := ih.2 e he hbefore hpos.2 hnew
      omega
    · have := hlt e he hu (by omega)
      omega
  | later x e' s he' hname hx hx' ih =>
    have hmem : ∀ {e}, e ∈ after → e.1 ∈ after.map Prod.fst := fun he => mem_map_of_mem he
    rw [hx, hx', substitute_placeholder hafter he' hname, weight_append, weight_append]
    refine ⟨by omega, fun e he hbefore hpos hmore => ?_⟩
    rw [map_append, map_append, hname, hafter.occurrences_append (hmem he') (hmem he),
      hafter.occurrences_append (hmem he') (hmem he)] at hmore
    have := ih.2 e he hbefore (forall_mem_append.mp hpos).2 (by omega)
    omega

end

lemma weight_sequential_le (h : Apart (table.map Prod.fst))
    (hzero : ∀ e ∈ table, weight w e.2 = 0) (s : List β) :
    weight w (sequential f table s) ≤ weight w (substitute f table 0 s) := by
  induction table generalizing s with
  | nil => rw [sequential, foldl_nil, substitute_nil]
  | cons e table ih =>
    have hrest : ∀ e' ∈ table, weight w e'.2 = 0 := fun e' he' => hzero e' (mem_cons_of_mem _ he')
    have hle := ih (h.sublist (sublist_cons_self _ _)) hrest (substitute f [e] 0 s)
    have h : Apart (([e] ++ table).map Prod.fst) := h
    exact hle.trans (weight_substitute_substitute h hrest s).1

/-! ### The two ways agree -/

variable (f) in
/-- Replacing the placeholders before it, all at once, brings no placeholder about: the text has it
as often as before. -/
def NoneArises (table : List (List α × List β)) (s : List β) : Prop :=
  ∀ i e, table[i]? = some e →
    occurrences e.1 ((substitute f (table.take i) 0 s).map f) = occurrences e.1 (s.map f)

variable (f table s) in
lemma noneArises_map : NoneArises f table s ↔
    NoneArises id (table.map fun e => (e.1, e.2.map f)) (s.map f) := by
  simp only [NoneArises, map_substitute, getElem?_map, map_take, map_id, map_map,
    Option.map_eq_some_iff, forall_exists_index, and_imp]
  constructor
  · rintro h i _ e he rfl
    exact h i e he
  · intro h i e he
    exact h i _ e he rfl

lemma sequential_concat (table : List (List α × List β)) (e : List α × List β) (s : List β) :
    sequential f (table ++ [e]) s = substitute f [e] 0 (sequential f table s) := by
  rw [sequential, foldl_append]
  rfl

lemma sequential_eq_of_noneArises (h : Apart (table.map Prod.fst))
    (hnone : NoneArises f table s) : sequential f table s = substitute f table 0 s := by
  induction table using List.reverseRecOn with
  | nil => rw [sequential, foldl_nil, substitute_nil]
  | append_singleton table e ih =>
    rw [sequential_concat, ih (h.sublist ((sublist_append_left _ _).map _))]
    · have hlast := hnone table.length e getElem?_concat_length
      rw [take_left] at hlast
      exact (substitute_concat h s).2 hlast
    · intro i e' hi
      have hlt := (List.getElem?_eq_some_iff.mp hi).1
      have hearlier := hnone i e' (by rwa [getElem?_append_left hlt])
      rwa [take_append_of_le_length hlt.le] at hearlier

/-- If a placeholder comes about, then letters are lost that were there before. -/
lemma occurrences_eq_of_agree (h : Apart ((before ++ e :: after).map Prod.fst))
    (hold : ∀ e' ∈ before, ∀ b ∈ e'.2, 0 < w b) (hs : ∀ b ∈ s, 0 < w b)
    (hnew : ∀ e' ∈ e :: after, weight w e'.2 = 0)
    (hbefore : sequential f before s = substitute f before 0 s)
    (heq : sequential f (before ++ e :: after) s = substitute f (before ++ e :: after) 0 s) :
    occurrences e.1 ((substitute f before 0 s).map f) = occurrences e.1 (s.map f) := by
  by_contra hne
  have hmore := lt_of_le_of_ne (substitute_concat (h.sublist (Sublist.map _ (by simp))) s).1
    (Ne.symm hne)
  have hlt := (weight_substitute_substitute h hnew s).2 e mem_cons_self hold hs hmore
  have hle := weight_sequential_le (f := f) (h.sublist ((sublist_append_right _ _).map _)) hnew
    (substitute f before 0 s)
  have hsplit : sequential f (before ++ e :: after) s =
      sequential f (e :: after) (substitute f before 0 s) := by
    rw [← hbefore, sequential, foldl_append]
    rfl
  rw [← hsplit, heq] at hle
  omega

/-- If the letters tell in which step they were written, then the two ways agree on the letters
exactly if no placeholder comes about. -/
theorem sequential_eq_substitute_iff (stamp : β → Nat)
    (h : Apart (table.map Prod.fst)) (hs : ∀ b ∈ s, stamp b = 0)
    (hvalues : ∀ i e, table[i]? = some e → ∀ b ∈ e.2, stamp b = i + 1) :
    sequential f table s = substitute f table 0 s ↔ NoneArises f table s := by
  refine ⟨fun heq => ?_, sequential_eq_of_noneArises h⟩
  have hnext : ∀ before e after, table = before ++ e :: after →
      sequential f before s = substitute f before 0 s →
      occurrences e.1 ((substitute f before 0 s).map f) = occurrences e.1 (s.map f) := by
    rintro before e after rfl hbefore
    refine occurrences_eq_of_agree (w := fun b => if stamp b ≤ before.length then 1 else 0) h
      (fun e' he' b hb => ?_) (fun b hb => by simp [hs b hb]) (fun e' he' => ?_) hbefore heq
    · obtain ⟨i, hi⟩ := mem_iff_getElem?.mp he'
      have hlt := (List.getElem?_eq_some_iff.mp hi).1
      have hstamp := hvalues i e' (by rwa [getElem?_append_left hlt]) b hb
      simp [hstamp, Nat.succ_le_of_lt hlt]
    · obtain ⟨i, hi⟩ := mem_iff_getElem?.mp he'
      have hstamp := hvalues (before.length + i) e'
        (by rwa [getElem?_append_right (Nat.le_add_right _ _), Nat.add_sub_cancel_left])
      refine List.sum_eq_zero (forall_mem_map.mpr fun b hb => if_neg ?_)
      rw [hstamp b hb]
      omega
  -- up to a placeholder that comes about the two ways have been the same
  have hagree : ∀ before after, table = before ++ after →
      sequential f before s = substitute f before 0 s := by
    intro before
    induction before using List.reverseRecOn with
    | nil =>
      intro after _
      exact sequential_eq_of_noneArises (h.sublist (by simp)) (by simp [NoneArises])
    | append_singleton before e ih =>
      intro after htable
      have htable' : table = before ++ e :: after := by simp [htable]
      have hbefore := ih _ htable'
      rw [sequential_concat, hbefore]
      exact (substitute_concat (h.sublist (Sublist.map _ (by simp [htable']))) s).2
        (hnext before e after htable' hbefore)
  intro i e hi
  obtain ⟨hlt, rfl⟩ := List.getElem?_eq_some_iff.mp hi
  have hsplit : table = table.take i ++ table[i] :: table.drop (i + 1) := by simp
  exact hnext _ _ _ hsplit (hagree _ _ hsplit)

end Template
