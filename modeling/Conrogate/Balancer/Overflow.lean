import Conrogate.Balancer.Smooth
import Conrogate.Lib.CallAlone
import Conrogate.Storage.Programs

/-!
# The sums of weighted round robin in 32 bits

The weights are stored as they come, so their sum need not fit into an `i32`. In the release build
a sum that does not fit is stored as another one, elsewhere it panics.
-/

namespace Conrogate

open List Option

def IsI32 (x : Int) : Prop := -0x80000000 ≤ x ∧ x < 0x80000000

instance (x : Int) : Decidable (IsI32 x) := inferInstanceAs (Decidable (_ ∧ _))

lemma i32_of_isI32 {x : Int} (h : IsI32 x) : i32 x = x := by
  obtain ⟨hle, hlt⟩ := h
  exact Int.bmod_eq_of_le (by omega) (by omega)

namespace WeightedRoundRobin

variable {lb : WeightedRoundRobin} {c : WeightedCall} {cs : List WeightedCall}
  {nodes : List UpstreamNodeDto} {current current' added : List Int} {node : UpstreamNodeDto}

/-! ### The values of a select -/

def subtracted (current : List Int) (nodes : List UpstreamNodeDto) : Option Int := do
  let current ← addWeights id current nodes
  let weight ← current[maxIdx current]?
  some (weight - (nodes.map (·.weight)).sum)

def turnValues (current : List Int) (nodes : List UpstreamNodeDto) : List Int :=
  (nodes.inits.map fun ns => (ns.map (·.weight)).sum) ++
    (current.zip nodes).map (fun p => p.1 + p.2.weight) ++ (subtracted current nodes).toList

def selectValues (lb : WeightedRoundRobin) (nodes : List UpstreamNodeDto) : List Int :=
  let nodes := enabled nodes
  if nodes = [] ∨ lb.poisoned then []
  else
    let sig := signature nodes
    let states := if maxStates ≤ lb.states.entries.length ∧ sig ∉ lb.states then ∅ else lb.states
    turnValues ((states.lookup sig).getD (replicate nodes.length 0)) nodes

def NoOverflow (cs : List WeightedCall) : Prop :=
  ∀ before c rest, cs = before ++ c :: rest →
    ∀ v ∈ selectValues (after i32 new before) c.nodes, IsI32 v

lemma mem_turnValues {v : Int} : v ∈ turnValues current nodes ↔
    (∃ ns, ns <+: nodes ∧ (ns.map (·.weight)).sum = v) ∨
      (∃ w n, (w, n) ∈ current.zip nodes ∧ w + n.weight = v) ∨
      subtracted current nodes = some v := by
  simp [turnValues]

/-! ### Stored as they are -/

lemma totalWeight_i32 (h : ∀ ns, ns <+: nodes → IsI32 (ns.map (·.weight)).sum) :
    totalWeight i32 nodes = totalWeight id nodes := by
  induction nodes using reverseRecOn with
  | nil => rfl
  | append_singleton ns n ih =>
    have hfront := ih fun ns' hns' => h ns' (hns'.trans (prefix_append ns [n]))
    have hall := h (ns ++ [n]) (prefix_refl _)
    rw [← totalWeight_id] at hall
    simp only [totalWeight, foldl_append, foldl_cons, foldl_nil] at hfront hall ⊢
    rw [hfront]
    exact i32_of_isI32 hall

lemma addWeights_i32 (h : ∀ w n, (w, n) ∈ current.zip nodes → IsI32 (w + n.weight)) :
    addWeights i32 current nodes = addWeights id current nodes := by
  induction current, nodes using addWeights.induct with
  | case1 current => rw [addWeights, addWeights]
  | case2 w current n ns ih =>
    have hfirst := i32_of_isI32 (h w n (by simp))
    have hrest := ih fun w' n' hmem => h w' n' (by simp [hmem])
    rw [addWeights, addWeights, hrest, hfirst]
    rfl
  | case3 n ns => rfl

lemma turn_i32 (h : ∀ v ∈ turnValues current nodes, IsI32 v) :
    turn i32 current nodes = turn id current nodes := by
  have hadd := addWeights_i32 fun w n hmem =>
    h _ (mem_turnValues.mpr (.inr (.inl ⟨w, n, hmem, rfl⟩)))
  have htotal := totalWeight_i32 fun ns hns => h _ (mem_turnValues.mpr (.inl ⟨ns, hns, rfl⟩))
  rw [turn, turn, hadd, htotal, totalWeight_id]
  cases hadded : addWeights id current nodes with
  | none => rfl
  | some added =>
    cases hweight : added[maxIdx added]? with
    | none => simp [hweight]
    | some weight =>
      have hsub : subtracted current nodes = some (weight - (nodes.map (·.weight)).sum) := by
        simp [subtracted, hadded, hweight]
      have hfits := i32_of_isI32 (h _ (mem_turnValues.mpr (.inr (.inr hsub))))
      simp [hweight, hfits]

/-! ### How far the weights go -/

/-- Vectors of at most `N` weights that add up to zero, none of them as low as `-M`. -/
structure Level (N M : Nat) (current : List Int) : Prop where
  length_le : current.length ≤ N
  sum_eq : current.sum = 0
  lower : ∀ w ∈ current, -(M : Int) < w

variable {N M : Nat}

lemma le_of_lower (hlen : current.length ≤ N) (hlower : ∀ w ∈ current, -(M : Int) < w)
    (hM : 0 < M) {w : Int} (hw : w ∈ current) : w ≤ current.sum + (N - 1) * (M - 1) := by
  have hsum : current.sum = w + (current.erase w).sum := by
    rw [← sum_cons, ← (perm_cons_erase hw).sum_eq]
  have hothers : (current.erase w).length • (1 - (M : Int)) ≤ (current.erase w).sum := by
    refine card_nsmul_le_sum _ _ fun v hv => ?_
    have hv := hlower v (mem_of_mem_erase hv)
    omega
  have hcount : ((current.erase w).length : Int) ≤ N - 1 := by
    have hone := length_erase_add_one hw
    omega
  have hmul := mul_le_mul_of_nonneg_right hcount (by omega : (0 : Int) ≤ M - 1)
  rw [nsmul_eq_mul] at hothers
  linarith

lemma sum_addWeights (h : addWeights id current nodes = some added) :
    added.sum = current.sum + (nodes.map (·.weight)).sum := by
  induction current, nodes using addWeights.induct generalizing added with
  | case1 current => simp_all [addWeights]
  | case2 w current n ns ih =>
    obtain ⟨rest, hrest, rfl⟩ := map_eq_some_iff.mp h
    simp only [sum_cons, map_cons, ih hrest, id]
    ring
  | case3 n ns => simp [addWeights] at h

lemma lt_of_mem_addWeights {m : Int} (h : addWeights id current nodes = some added)
    (hpos : ∀ n ∈ nodes, 0 < n.weight) (hlower : ∀ w ∈ current, m < w) :
    ∀ w ∈ added, m < w := by
  induction current, nodes using addWeights.induct generalizing added with
  | case1 current => simp_all [addWeights]
  | case2 w current n ns ih =>
    obtain ⟨rest, hrest, rfl⟩ := map_eq_some_iff.mp h
    rw [forall_mem_cons] at hpos hlower ⊢
    refine ⟨?_, ih hrest hpos.2 hlower.2⟩
    have hw := hlower.1
    have hn := hpos.1
    simp only [id]
    omega
  | case3 n ns => simp [addWeights] at h

lemma sum_weight_pos (hne : nodes ≠ []) (hpos : ∀ n ∈ nodes, 0 < n.weight) :
    0 < (nodes.map (·.weight)).sum :=
  sum_pos _ (by simpa using hpos) (by simpa using hne)

lemma pos_of_maxIdx {weight : Int} (hsum : 0 < added.sum)
    (hweight : added[maxIdx added]? = some weight) : 0 < weight := by
  have hne : added ≠ [] := by
    rintro rfl
    simp at hsum
  obtain ⟨m, hm, hmax⟩ := getElem?_maxIdx hne
  obtain rfl : m = weight := some.inj (hm.symm.trans hweight)
  by_contra hneg
  have hle := sum_le_card_nsmul added 0 fun w hw => (hmax w hw).trans (not_lt.mp hneg)
  rw [nsmul_zero] at hle
  exact absurd hsum (not_lt.mpr hle)

section

variable (h : Level N M current) (hne : nodes ≠ []) (hpos : ∀ n ∈ nodes, 0 < n.weight)
include h hne hpos

lemma lt_subtracted {v : Int} (hM : (nodes.map (·.weight)).sum ≤ M)
    (hv : subtracted current nodes = some v) : -(M : Int) < v := by
  simp only [subtracted, bind_eq_bind, bind_eq_some_iff, some.injEq] at hv
  obtain ⟨added, hadded, weight, hweight, rfl⟩ := hv
  have hsum := sum_addWeights hadded
  rw [h.sum_eq, zero_add] at hsum
  have hweight := pos_of_maxIdx (hsum ▸ sum_weight_pos hne hpos) hweight
  omega

lemma Level.turn (hM : (nodes.map (·.weight)).sum ≤ M)
    (hturn : turn id current nodes = some (current', node)) :
    Level N M current' := by
  have hlen := length_turn hturn
  simp only [WeightedRoundRobin.turn, bind_eq_bind, bind_eq_some_iff,
    some.injEq, Prod.mk.injEq, totalWeight_id, id] at hturn
  obtain ⟨added, hadded, weight, hweight, n, -, rfl, rfl⟩ := hturn
  have hsub : subtracted current nodes = some (weight - (nodes.map (·.weight)).sum) := by
    simp [subtracted, hadded, hweight]
  refine ⟨hlen.trans_le h.length_le, ?_, ?_⟩
  · obtain ⟨hi, hget⟩ := List.getElem?_eq_some_iff.mp hweight
    rw [sum_set', dif_pos hi, hget, sum_addWeights hadded, h.sum_eq]
    ring
  · intro w hw
    obtain hw | rfl := mem_or_eq_of_mem_set hw
    · exact lt_of_mem_addWeights hadded hpos h.lower w hw
    · exact lt_subtracted h hne hpos hM hsub

lemma Level.values (hN : nodes.length ≤ N) (hM : (nodes.map (·.weight)).sum ≤ M)
    (hfit : N * M ≤ 0x7FFFFFFF) : ∀ v ∈ turnValues current nodes, IsI32 v := by
  have hsum := sum_weight_pos hne hpos
  have hM0 : 0 < M := by omega
  have hN0 : 0 < N := (length_pos_iff.mpr hne).trans_le hN
  have hMle : M ≤ N * M := Nat.le_mul_of_pos_left M hN0
  have hnonneg : ∀ ns : List UpstreamNodeDto, (∀ n ∈ ns, n ∈ nodes) →
      ∀ x ∈ ns.map (·.weight), 0 ≤ x := by
    intro ns hns x hx
    obtain ⟨n, hn, rfl⟩ := mem_map.mp hx
    exact (hpos n (hns n hn)).le
  -- the others together are above `-(N - 1) * (M - 1)`
  have hroom : ∀ x : Int, x ≤ M → x + (N - 1) * (M - 1) ≤ N * M := by
    intro x hx
    have hN' : (1 : Int) ≤ N := by omega
    linarith
  intro v hv
  obtain ⟨ns, ⟨rest, rfl⟩, rfl⟩ | ⟨w, n, hmem, rfl⟩ | hsub := mem_turnValues.mp hv
  · have hfront := sum_nonneg (hnonneg ns fun n hn => mem_append_left _ hn)
    have hrest := sum_nonneg (hnonneg rest fun n hn => mem_append_right _ hn)
    rw [map_append, sum_append] at hM
    constructor <;> omega
  · obtain ⟨hw, hn⟩ := of_mem_zip hmem
    have hlow := h.lower w hw
    have hhigh := le_of_lower h.length_le h.lower hM0 hw
    have hweight := hpos n hn
    have hle := single_le_sum (hnonneg nodes fun _ hn => hn) n.weight
      (mem_map.mpr ⟨n, hn, rfl⟩)
    have hsmall := hroom n.weight (hle.trans hM)
    rw [h.sum_eq] at hhigh
    constructor <;> omega
  · have hlow := lt_subtracted h hne hpos hM hsub
    simp only [subtracted, bind_eq_bind, bind_eq_some_iff, some.injEq] at hsub
    obtain ⟨added, hadded, weight, hweight, rfl⟩ := hsub
    have hhigh := le_of_lower ((length_addWeights hadded).trans_le h.length_le)
      (lt_of_mem_addWeights hadded hpos h.lower) hM0 (mem_of_getElem? hweight)
    have hsmall := hroom 0 (by omega)
    rw [sum_addWeights hadded, h.sum_eq] at hhigh
    constructor <;> omega

end

/-! ### Runs of selects -/

def Levels (N M : String → Nat) (lb : WeightedRoundRobin) : Prop :=
  ∀ sig, ∀ current ∈ lb.states.lookup sig, Level (N sig) (M sig) current

def Bounded (N M : String → Nat) (nodes : List UpstreamNodeDto) : Prop :=
  nodes.length ≤ N (signature nodes) ∧ (nodes.map (·.weight)).sum ≤ M (signature nodes)

lemma pos_of_mem_enabled : ∀ n ∈ enabled nodes, 0 < n.weight := by
  intro n hn
  have h := (mem_filter.mp hn).2
  rw [Bool.and_eq_true, decide_eq_true_eq] at h
  exact h.2

variable {N M : String → Nat}

lemma Levels.select (h : Levels N M lb) (hfit : ∀ sig, N sig * M sig ≤ 0x7FFFFFFF)
    (hnodes : Bounded N M (enabled nodes)) :
    (∀ v ∈ selectValues lb nodes, IsI32 v) ∧ Levels N M (lb.select i32 nodes).1 := by
  by_cases hidle : enabled nodes = [] ∨ lb.poisoned
  · have hselect : (lb.select i32 nodes).1 = lb := by
      obtain hne | hpoisoned := hidle
      · rw [WeightedRoundRobin.select, if_pos hne]
      · by_cases hne : enabled nodes = []
        · rw [WeightedRoundRobin.select, if_pos hne]
        · rw [WeightedRoundRobin.select, if_neg hne, if_pos hpoisoned]
    rw [selectValues, if_pos hidle, hselect]
    exact ⟨by simp, h⟩
  · obtain ⟨hne, hhealthy⟩ := not_or.mp hidle
    rw [selectValues, if_neg hidle, WeightedRoundRobin.select, if_neg hne, if_neg hhealthy]
    extract_lets sig states
    have hstates : ∀ sig, ∀ current ∈ states.lookup sig, Level (N sig) (M sig) current := by
      intro sig' current hcurrent
      by_cases hfull : maxStates ≤ lb.states.entries.length ∧ sig ∉ lb.states
      · simp [states, hfull] at hcurrent
      · simp only [states, if_neg hfull] at hcurrent
        exact h sig' current hcurrent
    have hread : Level (N sig) (M sig)
        ((states.lookup sig).getD (replicate (enabled nodes).length 0)) := by
      cases hlookup : states.lookup sig with
      | some current => exact hstates sig current hlookup
      | none =>
        have hsum := sum_weight_pos hne pos_of_mem_enabled
        have hM : ((enabled nodes).map (·.weight)).sum ≤ M sig := hnodes.2
        refine ⟨by simpa using hnodes.1, by simp, fun w hw => ?_⟩
        rw [eq_of_mem_replicate hw]
        omega
    have hvalues := hread.values hne pos_of_mem_enabled hnodes.1 hnodes.2 (hfit sig)
    refine ⟨hvalues, ?_⟩
    rw [turn_i32 hvalues]
    cases hturn : turn id ((states.lookup sig).getD (replicate (enabled nodes).length 0))
        (enabled nodes) with
    | none => exact hstates
    | some r =>
      have hnext := hread.turn hne pos_of_mem_enabled hnodes.2 hturn
      intro sig' current hcurrent
      by_cases hkey : sig' = sig
      · subst hkey
        obtain rfl : r.1 = current := by simpa using hcurrent
        exact hnext
      · rw [mem_def, AList.lookup_insert_ne hkey] at hcurrent
        exact hstates sig' current hcurrent

lemma levels_after (hfit : ∀ sig, N sig * M sig ≤ 0x7FFFFFFF)
    (hcs : ∀ c ∈ cs, Bounded N M (enabled c.nodes)) : Levels N M (after i32 new cs) := by
  induction cs using reverseRecOn with
  | nil => simp [Levels, after, new]
  | append_singleton cs c ih =>
    rw [forall_mem_append, forall_mem_singleton] at hcs
    rw [after_append_singleton]
    exact ((ih hcs.1).select hfit hcs.2).2

/-! ### The selects of one list -/

lemma Turned.values {lists : Set (List UpstreamNodeDto)} {S : Finset String} {k : Nat}
    (h : Turned i32 lists S (enabled nodes) k lb) (hne : enabled nodes ≠ [])
    (hS : S.card ≤ maxStates) (hmem : signature (enabled nodes) ∈ S) :
    selectValues lb nodes = turnValues (spun i32 (enabled nodes) k) (enabled nodes) := by
  have hroom := room_of_keys h.keys hmem hS
  rw [selectValues, if_neg (by simp [hne, h.fits.healthy])]
  simp only [if_neg hroom, h.read]

lemma noOverflow_replicate (hne : enabled c.nodes ≠ []) (k : Nat) :
    NoOverflow (replicate k c) ↔ ∀ j < k,
      ∀ v ∈ turnValues (spun i32 (enabled c.nodes) j) (enabled c.nodes), IsI32 v := by
  have hone : ({signature (enabled c.nodes)} : Finset String).card ≤ maxStates := by
    simp [maxStates]
  have hvalues : ∀ j, selectValues (after i32 new (replicate j c)) c.nodes =
      turnValues (spun i32 (enabled c.nodes) j) (enabled c.nodes) := by
    intro j
    have hmade : made (enabled c.nodes) (replicate j c) = j := by
      simp [made, countP_replicate]
    have hcalls : ∀ d ∈ replicate j c, d = c := fun d hd => eq_of_mem_replicate hd
    have hsub : signatures (replicate j c) ⊆ {signature (enabled c.nodes)} := by
      intro sig hsig
      obtain ⟨d, hd, -, rfl⟩ := mem_signatures.mp hsig
      rw [hcalls d hd]
      exact Finset.mem_singleton_self _
    have hsame : SameCount enabled signature {c.nodes} := by
      rintro _ rfl _ rfl _ _ _
      rfl
    obtain ⟨hturned, -⟩ := turned_after i32 hne hsame hone (Finset.mem_singleton_self _) hsub
      (fun d hd => by rw [hcalls d hd]; rfl) (fun d hd _ _ => by rw [hcalls d hd])
    rw [hmade] at hturned
    exact hturned.values hne hone (Finset.mem_singleton_self _)
  constructor
  · intro h j hj
    rw [← hvalues j]
    refine h _ c (replicate (k - j - 1) c) ?_
    rw [← replicate_succ, replicate_append_replicate]
    congr 1
    omega
  · intro h before d rest heq
    obtain ⟨hlen, hbefore, hd⟩ := append_eq_replicate_iff.mp heq.symm
    obtain rfl := eq_of_mem_replicate (hd ▸ mem_cons_self : d ∈ replicate _ c)
    rw [length_cons] at hlen
    rw [hbefore, hvalues]
    exact h _ (by omega)

lemma spun_i32 {k : Nat} (h : ∀ j < k, ∀ v ∈ turnValues (spun i32 nodes j) nodes, IsI32 v) :
    spun i32 nodes k = spun id nodes k := by
  induction k with
  | zero => rfl
  | succ k ih =>
    have hk := ih fun j hj => h j (by omega)
    rw [spun, turn_i32 (h k (by omega)), hk, spun]

lemma values_of_first_round (hne : nodes ≠ []) (hpos : ∀ n ∈ nodes, 0 < n.weight) {W : Nat}
    (hW : (W : Int) = (nodes.map (·.weight)).sum)
    (h : ∀ j < W, ∀ v ∈ turnValues (spun i32 nodes j) nodes, IsI32 v) (j : Nat) :
    ∀ v ∈ turnValues (spun i32 nodes j) nodes, IsI32 v := by
  have hW0 : 0 < W := by
    have hsum := sum_weight_pos hne hpos
    omega
  -- the exact values of a turn return after a round
  have hexact : ∀ j, ∀ v ∈ turnValues (spun id nodes j) nodes, IsI32 v := by
    intro j
    induction j using Nat.strong_induction_on with
    | h j ih =>
      by_cases hj : j < W
      · rw [← spun_i32 fun i hi => h i (by omega)]
        exact h j hj
      · obtain ⟨i, rfl⟩ := Nat.exists_eq_add_of_le' (not_lt.mp hj)
        rw [spun_add hne hpos hW]
        exact ih i (by omega)
  induction j using Nat.strong_induction_on with
  | h j ih =>
    rw [spun_i32 ih]
    exact hexact j

end WeightedRoundRobin

open WeightedRoundRobin Database

/-- No value overflows, if for each signature the greatest number of nodes times the greatest sum of
weights fits into 31 bits. For one list the first round of selects decides. -/
theorem weighted_no_overflow (cs : List WeightedCall) (c : WeightedCall) :
    (∀ N M : String → Nat, (∀ sig, N sig * M sig ≤ 0x7FFFFFFF) →
      (∀ d ∈ cs, Bounded N M (enabled d.nodes)) → NoOverflow cs) ∧
    ∀ W : Nat, (W : Int) = ((enabled c.nodes).map (·.weight)).sum →
      ((∀ k, NoOverflow (replicate k c)) ↔ NoOverflow (replicate W c)) := by
  constructor
  · intro N M hfit hcs before d rest heq
    subst heq
    rw [forall_mem_append, forall_mem_cons] at hcs
    exact ((levels_after hfit hcs.1).select hfit hcs.2.1).1
  · intro W hW
    refine ⟨fun h => h W, fun h k => ?_⟩
    by_cases hne : enabled c.nodes = []
    · intro before d rest heq
      have hd : d ∈ replicate k c := heq ▸ by simp
      rw [eq_of_mem_replicate hd, selectValues, if_pos (.inl hne)]
      simp
    · rw [noOverflow_replicate hne] at h ⊢
      exact fun j _ => values_of_first_round hne pos_of_mem_enabled hW h j

theorem weighted_no_overflow_two_replicas :
    NoOverflow [⟨1, twoReplicas 1 "a:80" "b:80"⟩, ⟨2, twoReplicas 2 "c:80" "d:80"⟩,
      ⟨1, twoReplicas 1 "a:80" "b:80"⟩] := by
  refine (weighted_no_overflow _ ⟨1, []⟩).1 (fun _ => 2) (fun _ => 2) (fun _ => by decide) ?_
  simp only [forall_mem_cons, Bounded]
  decide

/-- The control plane stores two nodes with the greatest weights of the type. -/
theorem weighted_total_overflows :
    let dto : CreateUpstreamDto := ⟨"users", .weightedRoundRobin, none,
      [⟨"10.0.0.1:80", some 2147483647, none⟩, ⟨"10.0.0.2:80", some 2147483647, none⟩]⟩
    ∃ up t, DatabaseBackend.sqlite.database.Runs (UpstreamRepoImpl.create dto) .empty (.ok up) t ∧
      ¬ NoOverflow [⟨up.id, up.nodes⟩] ∧ totalWeight i32 (enabled up.nodes) = -2 := by
  intro dto
  refine ⟨_, _, ⟨[⟨5, 1⟩, ⟨5, 2⟩, ⟨5, 3⟩],
    .inl ⟨_, _, _, rfl, write_eq_some.mpr ⟨by decide, rfl⟩,
      .inl (.inl ⟨_, _, _, rfl, write_eq_some.mpr ⟨by decide, rfl⟩,
        .inl (.inl ⟨_, _, _, rfl, write_eq_some.mpr ⟨by decide, rfl⟩,
          .inl (.inl ⟨rfl, rfl, rfl⟩)⟩)⟩)⟩⟩, ?_, rfl⟩
  intro h
  have htotal := h [] _ [] rfl 4294967294 (by decide)
  revert htotal
  decide

end Conrogate
