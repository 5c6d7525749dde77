import Conrogate.Balancer.Bounds
import Conrogate.Lib.SmoothRobin
import Conrogate.Lib.Windows
import Mathlib.Algebra.BigOperators.Fin

/-!
# The period of weighted round robin

The turns on one node list are those of a smooth weighted round robin, as long as the table has room
for all signatures.
-/

namespace Conrogate

namespace WeightedRoundRobin

open SmoothRobin List Option

variable {wrap : Int → Int} {lb : WeightedRoundRobin} {c : WeightedCall} {cs : List WeightedCall}
  {nodes : List UpstreamNodeDto} {current current' : List Int} {node : UpstreamNodeDto}

/-! ### Turn after turn -/

def spun (wrap : Int → Int) (nodes : List UpstreamNodeDto) : Nat → List Int
  | 0 => replicate nodes.length 0
  | k + 1 => ((turn wrap (spun wrap nodes k) nodes).map Prod.fst).getD []

def picked (wrap : Int → Int) (nodes : List UpstreamNodeDto) (k : Nat) : Option UpstreamNodeDto :=
  (turn wrap (spun wrap nodes k) nodes).map Prod.snd

lemma turn_spun (wrap : Int → Int) (hne : nodes ≠ []) (k : Nat) :
    (spun wrap nodes k).length = nodes.length ∧ ∃ node,
      turn wrap (spun wrap nodes k) nodes = some (spun wrap nodes (k + 1), node) := by
  have hnext : ∀ k, (spun wrap nodes k).length = nodes.length → ∃ node,
      turn wrap (spun wrap nodes k) nodes = some (spun wrap nodes (k + 1), node) := by
    intro k hlen
    obtain ⟨current, node, hturn⟩ := exists_turn wrap hlen hne
    exact ⟨node, by rw [spun, hturn]; rfl⟩
  induction k with
  | zero => exact ⟨length_replicate, hnext 0 length_replicate⟩
  | succ k ih =>
    obtain ⟨hlen, node, hturn⟩ := ih
    have hlen' := (length_turn hturn).trans hlen
    exact ⟨hlen', hnext (k + 1) hlen'⟩

/-! ### A turn as a turn of the round robin -/

lemma addWeights_eq_zipWith (h : current.length = nodes.length) : addWeights wrap current nodes =
    some (zipWith (fun w n => wrap (w + n.weight)) current nodes) := by
  induction current, nodes using addWeights.induct with
  | case1 current => simp_all [addWeights]
  | case2 w current n ns ih => simp [addWeights, ih (by simpa using h)]
  | case3 n ns => simp at h

lemma getElem?_maxIdx (h : current ≠ []) :
    ∃ m, current[maxIdx current]? = some m ∧ ∀ w ∈ current, w ≤ m := by
  have hbest : ∀ l : List Int, l ≠ [] → ∃ m i, l.zipIdx.foldl laterMax none = some (m, i) ∧
      l[i]? = some m ∧ ∀ w ∈ l, w ≤ m := by
    intro l
    induction l using List.reverseRecOn with
    | nil => exact fun hnil => absurd rfl hnil
    | append_singleton l x ih =>
      intro _
      rw [zipIdx_append, foldl_append]
      rcases eq_or_ne l [] with rfl | hne
      · exact ⟨x, 0, rfl, rfl, by simp⟩
      · obtain ⟨m, i, hfold, hget, hle⟩ := ih hne
        have hi : i < l.length := (List.getElem?_eq_some_iff.mp hget).1
        rw [hfold]
        by_cases hmx : m ≤ x
        · refine ⟨x, l.length, by simp [laterMax, hmx], by simp, ?_⟩
          intro w hw
          obtain hw | rfl := by simpa using hw
          · exact (hle w hw).trans hmx
          · exact le_rfl
        · refine ⟨m, i, by simp [laterMax, hmx], by rwa [getElem?_append_left hi], ?_⟩
          intro w hw
          obtain hw | rfl := by simpa using hw
          · exact hle w hw
          · exact (not_le.mp hmx).le
  obtain ⟨m, i, hfold, hget, hle⟩ := hbest current h
  exact ⟨m, by rw [maxIdx, hfold]; exact hget, hle⟩

lemma totalWeight_id (nodes : List UpstreamNodeDto) :
    totalWeight id nodes = (nodes.map (·.weight)).sum := by
  have hfold : ∀ sum : Int, nodes.foldl (fun sum n => id (sum + n.weight)) sum =
      sum + (nodes.map (·.weight)).sum := by
    induction nodes with
    | nil => simp
    | cons n nodes ih =>
      intro sum
      rw [foldl_cons, ih, map_cons, sum_cons, id, Int.add_assoc]
  rw [totalWeight, hfold, Int.zero_add]

def weights (nodes : List UpstreamNodeDto) : Fin nodes.length → ℤ := fun k => nodes[k].weight

def credit {n : Nat} (current : List Int) : Fin n → ℤ := fun k => current.getD k 0

lemma sum_weights (nodes : List UpstreamNodeDto) :
    ∑ k, weights nodes k = (nodes.map (·.weight)).sum :=
  Fin.sum_univ_fun_getElem nodes (·.weight)

lemma sum_credit {n : Nat} (h : current.length = n) :
    ∑ k : Fin n, credit current k = current.sum := by
  subst h
  have hget : ∀ k : Fin current.length, credit current k = current[k] := fun k => by
    rw [credit, getD_eq_getElem?_getD, getElem?_eq_getElem k.isLt]
    rfl
  simp only [hget]
  exact Fin.sum_univ_getElem current

lemma turn_eq_pay (hlen : current.length = nodes.length)
    (h : turn id current nodes = some (current', node)) : ∃ i : Fin nodes.length,
      node = nodes[i] ∧
      (∀ j, credit current j + weights nodes j ≤ credit current i + weights nodes i) ∧
      credit current' = pay (weights nodes) (credit current) i := by
  simp only [turn, addWeights_eq_zipWith hlen, bind_eq_bind, bind_some,
    bind_eq_some_iff, some.injEq, Prod.mk.injEq] at h
  generalize hadded : List.zipWith (fun w n => id (w + UpstreamNodeDto.weight n)) current nodes =
    added at h
  obtain ⟨weight, hweight, n, hn, rfl, rfl⟩ := h
  have hlen' : added.length = nodes.length := by simp [← hadded, hlen]
  have hget : ∀ k : Fin nodes.length, added[k]? = some (credit current k + weights nodes k) := by
    intro k
    have hk : (k : Nat) < current.length := hlen.symm ▸ k.isLt
    simp [← hadded, credit, weights, hk]
  obtain ⟨hi, rfl⟩ := List.getElem?_eq_some_iff.mp hn
  have hne : added ≠ [] := ne_nil_of_length_pos (by omega)
  obtain ⟨m, hm, hmax⟩ := getElem?_maxIdx hne
  obtain rfl : m = weight := some.inj (hm.symm.trans hweight)
  obtain rfl := some.inj (hweight.symm.trans (hget ⟨maxIdx added, hi⟩))
  refine ⟨⟨maxIdx added, hi⟩, rfl, fun j => hmax _ (mem_of_getElem? (hget j)), ?_⟩
  funext j
  rw [pay, sum_weights, ← totalWeight_id, credit, getD_eq_getElem?_getD]
  by_cases hj : (j : Nat) = maxIdx added
  · have hj' : j = ⟨maxIdx added, hi⟩ := Fin.ext hj
    rw [hj, getElem?_set_self (hlen' ▸ hi), if_pos hj', hj']
    rfl
  · have hj' : j ≠ ⟨maxIdx added, hi⟩ := fun heq => hj (congrArg Fin.val heq)
    have hgetj : added[(j : Nat)]? = some (credit current j + weights nodes j) := hget j
    rw [getElem?_set_ne (Ne.symm hj), if_neg hj', hgetj, getD_some, sub_zero]

/-! ### The period -/

lemma credit_replicate (n : Nat) : credit (replicate n 0) = (0 : Fin n → ℤ) := by
  funext k
  simp [credit]

lemma eq_replicate_of_credit {n : Nat} (hlen : current.length = n)
    (h : credit current = (0 : Fin n → ℤ)) : current = replicate n 0 := by
  refine eq_replicate_iff.mpr ⟨hlen, fun w hw => ?_⟩
  obtain ⟨k, hk, rfl⟩ := getElem_of_mem hw
  have hzero := congrFun h ⟨k, hlen ▸ hk⟩
  simpa [credit, hk] using hzero

lemma exists_picks (hne : nodes ≠ []) : ∃ pick : Nat → Fin nodes.length,
    (∀ k, picked id nodes k = some nodes[pick k]) ∧
    ∀ i m, Turns (weights nodes) (credit (spun id nodes i)) ((range' i m).map pick)
      (credit (spun id nodes (i + m))) := by
  have hturn : ∀ k, ∃ i : Fin nodes.length, picked id nodes k = some nodes[i] ∧
      (∀ j, credit (spun id nodes k) j + weights nodes j ≤
        credit (spun id nodes k) i + weights nodes i) ∧
      credit (spun id nodes (k + 1)) = pay (weights nodes) (credit (spun id nodes k)) i := by
    intro k
    obtain ⟨hlen, node, hturn⟩ := turn_spun id hne k
    obtain ⟨i, rfl, hmax, hpay⟩ := turn_eq_pay hlen hturn
    exact ⟨i, by rw [picked, hturn]; rfl, hmax, hpay⟩
  choose pick hpick hmax hpay using hturn
  refine ⟨pick, hpick, fun i m => ?_⟩
  induction m with
  | zero => exact .nil
  | succ m ih =>
    rw [range'_1_concat, map_append, ← Nat.add_assoc, hpay]
    exact ih.snoc (pick (i + m)) (hmax (i + m))

lemma sum_spun (hne : nodes ≠ []) (k : Nat) : (spun id nodes k).sum = 0 := by
  obtain ⟨pick, -, hturns⟩ := exists_picks hne
  have hsum := (hturns 0 k).sum_eq
  rw [Nat.zero_add, sum_credit (turn_spun id hne k).1, sum_credit (turn_spun id hne 0).1] at hsum
  rw [hsum, spun, sum_replicate, nsmul_zero]

lemma weights_pos (hpos : ∀ n ∈ nodes, 0 < n.weight) (k : Fin nodes.length) :
    0 < weights nodes k :=
  hpos _ (getElem_mem k.isLt)

section

variable (hne : nodes ≠ []) (hpos : ∀ n ∈ nodes, 0 < n.weight) {W : Nat}
  (hW : (W : ℤ) = (nodes.map (·.weight)).sum)
include hne hpos hW

lemma spun_add (k : Nat) :
    spun id nodes (k + W) = spun id nodes k := by
  induction k with
  | zero =>
    obtain ⟨pick, -, hturns⟩ := exists_picks hne
    have hround := hturns 0 W
    rw [spun, credit_replicate] at hround
    have hreturn := hround.return_of_length (weights_pos hpos) (by simp [sum_weights, hW])
    exact eq_replicate_of_credit (turn_spun id hne _).1 hreturn
  | succ k ih => rw [Nat.add_right_comm, spun, ih, spun]

lemma spun_mul (m : Nat) :
    spun id nodes (W * m) = replicate nodes.length 0 := by
  induction m with
  | zero => rfl
  | succ m ih => rw [Nat.mul_succ, spun_add hne hpos hW, ih]

end

lemma window_range {i m n : Nat} (h : i + m ≤ n) :
    Windows.window (range n) i m = range' i m := by
  apply ext_getElem
  · rw [Windows.length_window (by simpa using h), length_range']
  · intro k _ _
    simp [Windows.window]

/-! ### A run of selects -/

def after (wrap : Int → Int) (lb : WeightedRoundRobin) (cs : List WeightedCall) :
    WeightedRoundRobin :=
  cs.foldl (fun lb c => (lb.select wrap c.nodes).1) lb

section

variable (lb : WeightedRoundRobin) (cs : List WeightedCall) (c : WeightedCall)

lemma after_append_singleton :
    after wrap lb (cs ++ [c]) = ((after wrap lb cs).select wrap c.nodes).1 := by
  simp [after]

lemma selects_append_singleton : selects wrap lb (cs ++ [c]) =
      selects wrap lb cs ++ [(c, ((after wrap lb cs).select wrap c.nodes).2)] := by
  induction cs generalizing lb with
  | nil => rfl
  | cons d cs ih => rw [cons_append, selects, selects, ih]; rfl

end

structure Turned (wrap : Int → Int) (lists : Set (List UpstreamNodeDto)) (S : Finset String)
    (own : List UpstreamNodeDto) (k : Nat) (lb : WeightedRoundRobin) : Prop where
  fits : Fits lists lb
  keys : ∀ sig ∈ lb.states, sig ∈ S
  vector : lb.states.lookup (signature own) = if k = 0 then none else some (spun wrap own k)

variable {lists : Set (List UpstreamNodeDto)} {S : Finset String} {own : List UpstreamNodeDto}
  {k : Nat}

lemma turned_new : Turned wrap lists S own 0 new :=
  ⟨fits_new, fun sig hsig => absurd hsig (AList.notMem_empty sig), rfl⟩

lemma Turned.read (h : Turned wrap lists S own k lb) :
    (lb.states.lookup (signature own)).getD (replicate own.length 0) = spun wrap own k := by
  rw [h.vector]
  cases k <;> rfl

variable (wrap) in
lemma Turned.keys_select (h : Turned wrap lists S own k lb)
    (hmem : enabled c.nodes ≠ [] → signature (enabled c.nodes) ∈ S) :
    ∀ sig ∈ (lb.select wrap c.nodes).1.states, sig ∈ S := by
  intro sig hsig
  obtain hsig | ⟨hne, rfl⟩ := mem_states_select hsig
  · exact h.keys sig hsig
  · exact hmem hne

lemma Turned.select_own (h : Turned wrap lists S own k lb) (hne : own ≠ [])
    (hsame : SameCount enabled signature lists) (hS : S.card ≤ maxStates)
    (hmem : signature own ∈ S) (hc : c.nodes ∈ lists) (hown : enabled c.nodes = own) :
    Turned wrap lists S own (k + 1) (lb.select wrap c.nodes).1 ∧
      (lb.select wrap c.nodes).2 = (picked wrap own k).map .ok := by
  have hfits := (h.fits.select wrap hsame hc).1
  have hkeys := h.keys_select wrap (c := c) fun _ => hown.symm ▸ hmem
  have hroom := room_of_keys h.keys hmem hS
  obtain ⟨-, node, hturn⟩ := turn_spun wrap hne k
  have hselect : lb.select wrap c.nodes =
      (⟨lb.states.insert (signature own) (spun wrap own (k + 1)), false⟩, some (.ok node)) := by
    rw [select, hown, if_neg hne, if_neg (by simp [h.fits.healthy])]
    simp only [if_neg hroom, h.read, hturn]
  refine ⟨⟨hfits, hkeys, ?_⟩, ?_⟩
  · rw [hselect, AList.lookup_insert, if_neg k.succ_ne_zero]
  · rw [hselect, picked, hturn]
    rfl

lemma Turned.select_other (h : Turned wrap lists S own k lb)
    (hsame : SameCount enabled signature lists) (hS : S.card ≤ maxStates)
    (hmem : enabled c.nodes ≠ [] → signature (enabled c.nodes) ∈ S) (hc : c.nodes ∈ lists)
    (hother : enabled c.nodes ≠ [] → signature (enabled c.nodes) ≠ signature own) :
    Turned wrap lists S own k (lb.select wrap c.nodes).1 := by
  have hfits := (h.fits.select wrap hsame hc).1
  refine ⟨hfits, h.keys_select wrap hmem, ?_⟩
  by_cases hne : enabled c.nodes = []
  · rw [select, if_pos hne]
    exact h.vector
  · have hroom := room_of_keys h.keys (hmem hne) hS
    rw [select, if_neg hne, if_neg (by simp [h.fits.healthy])] at hfits ⊢
    simp only [if_neg hroom] at hfits ⊢
    cases hturn : turn wrap ((lb.states.lookup (signature (enabled c.nodes))).getD
        (replicate (enabled c.nodes).length 0)) (enabled c.nodes) with
    | none =>
      rw [hturn] at hfits
      exact absurd hfits.healthy (by simp)
    | some r => exact (AList.lookup_insert_ne (hother hne).symm).trans h.vector

def made (own : List UpstreamNodeDto) (cs : List WeightedCall) : Nat :=
  cs.countP fun c => enabled c.nodes = own

variable (wrap) in
lemma turned_after (hne : own ≠ []) (hsame : SameCount enabled signature lists)
    (hS : S.card ≤ maxStates) (hmem : signature own ∈ S) (hcs : signatures cs ⊆ S)
    (hlists : ∀ c ∈ cs, c.nodes ∈ lists)
    (hsig : ∀ c ∈ cs, enabled c.nodes ≠ [] → signature (enabled c.nodes) = signature own →
      enabled c.nodes = own) :
    Turned wrap lists S own (made own cs) (after wrap new cs) ∧
      ((selects wrap new cs).filter fun r => enabled r.1.nodes = own).map Prod.snd =
        (range (made own cs)).map fun k => (picked wrap own k).map .ok := by
  induction cs using reverseRecOn with
  | nil => exact ⟨turned_new, rfl⟩
  | append_singleton cs c ih =>
    rw [forall_mem_append, forall_mem_singleton] at hlists hsig
    obtain ⟨hlists, hc⟩ := hlists
    obtain ⟨hsig, hsigc⟩ := hsig
    have hcs' := (signatures_subset (subset_append_left cs [c])).trans hcs
    obtain ⟨hturned, hresults⟩ := ih hcs' hlists hsig
    rw [after_append_singleton, selects_append_singleton, filter_append, map_append,
      hresults, made, countP_append, ← made]
    by_cases hown : enabled c.nodes = own
    · obtain ⟨hnext, hresult⟩ := hturned.select_own (c := c) hne hsame hS hmem hc hown
      simp only [countP_singleton, hown, decide_true, if_true, filter_cons,
        filter_nil, map_cons, map_nil, hresult, range_succ, map_append]
      exact ⟨hnext, trivial⟩
    · have hmemc : enabled c.nodes ≠ [] → signature (enabled c.nodes) ∈ S := fun hcne =>
        hcs (mem_signatures.mpr ⟨c, by simp, hcne, rfl⟩)
      have hnext := hturned.select_other (c := c) hsame hS hmemc hc fun hcne heq =>
        hown (hsigc hcne heq)
      simp only [countP_singleton, hown, decide_false, Bool.false_eq_true, if_false,
        Nat.add_zero, filter_cons, filter_nil, map_nil, append_nil]
      exact ⟨hnext, trivial⟩

end WeightedRoundRobin

open WeightedRoundRobin List

/-- With exact sums and room for all signatures, in as many consecutive selects of one list as the
sum of the weights each node is chosen as often as its weight says, the current weights always have
the sum zero, and after each such round they are all zero. -/
theorem weighted_selects_smooth (own : List UpstreamNodeDto) (hne : own ≠ [])
    (hown : ∀ n ∈ own, n.enabled = true ∧ 0 < n.weight) (cs : List WeightedCall)
    (hroom : ((signatures cs).erase (signature own)).card < maxStates)
    (hsig : ∀ c ∈ cs, enabled c.nodes ≠ [] → signature (enabled c.nodes) = signature own →
      enabled c.nodes = own)
    (hsame : SameCount enabled signature {nodes | ∃ c ∈ cs, c.nodes = nodes}) (W : Nat)
    (hW : (W : Int) = (own.map (·.weight)).sum) :
    (∃ picks : List (Fin own.length),
      ((selects id new cs).filter fun r => enabled r.1.nodes = own).map Prod.snd =
        picks.map (fun k => some (.ok own[k])) ∧
      ∀ i, i + W ≤ picks.length → ∀ k,
        ((Windows.window picks i W).count k : Int) = own[k].weight) ∧
    ∀ before rest, cs = before ++ rest → 0 < made own before → ∃ current,
      (after id new before).states.lookup (signature own) = some current ∧
      current.length = own.length ∧ current.sum = 0 ∧
      (W ∣ made own before → ∀ w ∈ current, w = 0) := by
  have hpos : ∀ n ∈ own, 0 < n.weight := fun n hn => (hown n hn).2
  have hS : (insert (signature own) (signatures cs)).card ≤ maxStates := by
    have hpred := Finset.pred_card_le_card_erase (a := signature own)
      (s := insert (signature own) (signatures cs))
    rw [Finset.erase_insert_eq_erase] at hpred
    omega
  have hmem := Finset.mem_insert_self (signature own) (signatures cs)
  obtain ⟨pick, hpicked, hturns⟩ := exists_picks hne
  constructor
  · obtain ⟨-, hresults⟩ := turned_after id hne hsame hS hmem
      (Finset.subset_insert _ _) (fun c hc => ⟨c, hc, rfl⟩) hsig
    refine ⟨(range (made own cs)).map pick, ?_, ?_⟩
    · rw [hresults, map_map]
      refine map_congr_left fun k _ => ?_
      rw [hpicked]
      rfl
    · intro i hi k
      rw [length_map, length_range] at hi
      have hround := hturns i W
      rw [spun_add hne hpos hW] at hround
      rw [Windows.map_window, window_range hi]
      refine hround.count_of_return ?_ ?_ k
      · simp [sum_weights, hW]
      · exact Finset.sum_pos (fun k _ => weights_pos hpos k)
          ⟨⟨0, length_pos_iff.mpr hne⟩, Finset.mem_univ _⟩
  · intro before rest hcs hmade
    subst hcs
    have hsub : ∀ c ∈ before, c ∈ before ++ rest := fun c hc => mem_append_left _ hc
    obtain ⟨hturned, -⟩ := turned_after id hne hsame hS hmem
      ((signatures_subset hsub).trans (Finset.subset_insert _ _)) (fun c hc => ⟨c, hsub c hc, rfl⟩)
      fun c hc => hsig c (hsub c hc)
    refine ⟨spun id own (made own before), ?_, (turn_spun id hne _).1, sum_spun hne _, ?_⟩
    · rw [hturned.vector, if_neg hmade.ne']
    · rintro ⟨m, hm⟩ w hw
      rw [hm, spun_mul hne hpos hW] at hw
      exact eq_of_mem_replicate hw

theorem weighted_selects_smooth_two_to_one :
    let own : List UpstreamNodeDto := [⟨1, 1, "a:80", 2, true⟩, ⟨2, 1, "b:80", 1, true⟩]
    let cs : List WeightedCall :=
      [⟨1, own⟩, ⟨2, twoReplicas 2 "c:80" "d:80"⟩, ⟨1, own⟩, ⟨1, own⟩, ⟨1, own⟩]
    ∃ picks : List (Fin own.length),
      ((selects id new cs).filter fun r => enabled r.1.nodes = own).map Prod.snd =
        picks.map (fun k => some (.ok own[k])) ∧
      ∀ i, i + 3 ≤ picks.length → ∀ k,
        ((Windows.window picks i 3).count k : Int) = own[k].weight := by
  intro own cs
  have hsame : SameCount enabled signature {nodes | ∃ c ∈ cs, c.nodes = nodes} := by
    refine (sameCount_of_no_bar ?_).1
    rintro nodes ⟨c, hc, rfl⟩
    revert c
    decide
  exact (weighted_selects_smooth own (by decide) (by decide) cs (by decide) (by decide) hsame 3
    (by decide)).1

end Conrogate
