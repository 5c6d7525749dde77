import Conrogate.Balancer.ConsistentHash
import Conrogate.Balancer.Weighted

/-!
# Positions in the lists of the balancers

Weights and rings are kept under the signature of a node list. Addresses are arbitrary texts, so
lists of different lengths can have the same signature.
-/

namespace Conrogate

open List ConsistentHash Transition HashCall

def SameCount (enabled : List UpstreamNodeDto → List UpstreamNodeDto)
    (signature : List UpstreamNodeDto → String) (lists : Set (List UpstreamNodeDto)) : Prop :=
  ∀ a ∈ lists, ∀ b ∈ lists, enabled a ≠ [] → enabled b ≠ [] →
    signature (enabled a) = signature (enabled b) → (enabled a).length = (enabled b).length

variable {lists : Set (List UpstreamNodeDto)} {nodes a b : List UpstreamNodeDto}

section

variable {enabled : List UpstreamNodeDto → List UpstreamNodeDto}

lemma sameCount_of_not_lt {signature : List UpstreamNodeDto → String}
    (h : ∀ a ∈ lists, ∀ b ∈ lists, enabled a ≠ [] → enabled b ≠ [] →
      signature (enabled a) = signature (enabled b) → ¬ (enabled a).length < (enabled b).length) :
    SameCount enabled signature lists := by
  intro a ha b hb hane hbne hsig
  have hab := h a ha b hb hane hbne hsig
  have hba := h b hb a ha hbne hane hsig.symm
  omega

lemma sameCount_of_text {text : UpstreamNodeDto → String}
    (h : ∀ nodes ∈ lists, ∀ n ∈ enabled nodes, '|' ∉ (text n).toList) :
    SameCount enabled (fun nodes => sortedJoin (nodes.map text)) lists := by
  have hbar : ∀ nodes ∈ lists, ∀ p ∈ (enabled nodes).map text, '|' ∉ p.toList := by
    intro nodes hnodes p hp
    obtain ⟨n, hn, rfl⟩ := mem_map.mp hp
    exact h nodes hnodes n hn
  intro a ha b hb hane hbne hsig
  have hlen := length_eq_of_sortedJoin_eq (hbar a ha) (hbar b hb) (by simpa using hane)
    (by simpa using hbne) hsig
  simpa using hlen

end

namespace WeightedRoundRobin

variable {wrap : Int → Int} {lb : WeightedRoundRobin}

lemma addWeights_eq_none {current : List Int} (h : current.length < nodes.length) :
    addWeights wrap current nodes = none := by
  induction current, nodes using addWeights.induct with
  | case1 current => simp at h
  | case2 w current n ns ih => simp [addWeights, ih (by simpa using h)]
  | case3 n ns => rfl

structure Fits (lists : Set (List UpstreamNodeDto)) (lb : WeightedRoundRobin) : Prop where
  healthy : lb.poisoned = false
  lengths : ∀ sig, ∀ current ∈ lb.states.lookup sig, ∃ nodes ∈ lists, enabled nodes ≠ [] ∧
    signature (enabled nodes) = sig ∧ current.length = (enabled nodes).length

lemma fits_new : Fits lists new := ⟨rfl, by simp [new]⟩

variable (wrap) in
lemma Fits.select (h : Fits lists lb) (hsame : SameCount enabled signature lists)
    (hnodes : nodes ∈ lists) :
    Fits lists (lb.select wrap nodes).1 ∧ (lb.select wrap nodes).2.isSome := by
  rw [WeightedRoundRobin.select]
  by_cases hne : enabled nodes = []
  · rw [if_pos hne]
    exact ⟨h, rfl⟩
  · rw [if_neg hne, if_neg (by simp [h.healthy])]
    extract_lets sig states
    have hlengths : ∀ sig, ∀ current ∈ states.lookup sig, ∃ nodes ∈ lists, enabled nodes ≠ [] ∧
        signature (enabled nodes) = sig ∧ current.length = (enabled nodes).length := by
      intro sig' current hcurrent
      by_cases hfull : maxStates ≤ lb.states.entries.length ∧ sig ∉ lb.states
      · simp [states, hfull] at hcurrent
      · simp only [states, if_neg hfull] at hcurrent
        exact h.lengths sig' current hcurrent
    have hread : ((states.lookup sig).getD (List.replicate (enabled nodes).length 0)).length =
        (enabled nodes).length := by
      cases hlookup : states.lookup sig with
      | none => simp
      | some current =>
        obtain ⟨nodes', hnodes', hne', hsig, hlen⟩ := hlengths sig current hlookup
        exact hlen.trans (hsame nodes' hnodes' nodes hnodes hne' hne hsig)
    obtain ⟨current, node, hturn⟩ := exists_turn wrap hread hne
    rw [hturn]
    refine ⟨⟨rfl, ?_⟩, rfl⟩
    intro sig' current' hcurrent'
    by_cases hkey : sig' = sig
    · subst hkey
      obtain rfl : current = current' := by simpa using hcurrent'
      exact ⟨nodes, hnodes, hne, rfl, (length_turn hturn).trans hread⟩
    · rw [Option.mem_def, AList.lookup_insert_ne hkey] at hcurrent'
      exact hlengths sig' current' hcurrent'

lemma selects_isSome (hsame : SameCount enabled signature lists) {cs : List WeightedCall}
    (hcs : ∀ c ∈ cs, c.nodes ∈ lists) (h : Fits lists lb) :
    ∀ r ∈ lb.selects wrap cs, r.2.isSome := by
  induction cs generalizing lb with
  | nil => simp [selects]
  | cons c cs ih =>
    obtain ⟨hfits, hsome⟩ := h.select wrap hsame (hcs c mem_cons_self)
    intro r hr
    obtain rfl | hr := mem_cons.mp hr
    · exact hsome
    · exact ih (fun c hc => hcs c (mem_cons_of_mem _ hc)) hfits r hr

lemma select_eq_none (hbne : enabled b ≠ []) (hane : enabled a ≠ [])
    (hsig : signature (enabled a) = signature (enabled b))
    (hlt : (enabled a).length < (enabled b).length) :
    ((new.select wrap a).1.select wrap b).2 = none := by
  obtain ⟨current, node, hturn⟩ := exists_turn wrap
    (length_replicate (n := (enabled a).length) (a := (0 : Int))) hane
  have hfirst : (new.select wrap a).1 =
      { states := (∅ : AList _).insert (signature (enabled a)) current, poisoned := false } := by
    simp [WeightedRoundRobin.select, new, hane, maxStates, hturn]
  have hlen : current.length = (enabled a).length :=
    (length_turn hturn).trans length_replicate
  have hshort : turn wrap current (enabled b) = none := by
    simp [turn, addWeights_eq_none (hlen ▸ hlt)]
  have hlookup : ((∅ : AList fun _ : String => List Int).insert (signature (enabled b))
      current).lookup (signature (enabled b)) = some current := AList.lookup_insert _
  rw [hfirst, hsig, WeightedRoundRobin.select, if_neg hbne, if_neg Bool.false_ne_true]
  simp only [AList.mem_insert, true_or, not_true, and_false, if_false, hlookup,
    Option.getD_some, hshort]

end WeightedRoundRobin

namespace ConsistentHash

variable {hash : String → Nat} {vnodes : Nat} {s s' : HashState} {c : HashCall} {key : String}

structure RingFits (hash : String → Nat) (vnodes : Nat) (lists : Set (List UpstreamNodeDto))
    (s : HashState) : Prop where
  cache : ∀ cached ∈ s.cache, ∃ nodes ∈ lists, nodes.filter (·.enabled) ≠ [] ∧
    cached.signature = signature (nodes.filter (·.enabled)) ∧
    cached.ring = buildRing hash vnodes (nodes.filter (·.enabled))
  building : ∀ c ∈ s.building, c.nodes ∈ lists ∧ c.enabled ≠ []
  results : ∀ p ∈ s.results, p.2.isSome

lemma ringFits_new : RingFits hash vnodes lists new :=
  ⟨by simp [new], by simp [new], by simp [new]⟩

lemma RingFits.answer (h : RingFits hash vnodes lists s)
    {r : Option (Result UpstreamNodeDto)} (hr : r.isSome) :
    RingFits hash vnodes lists (s.answer c r) where
  cache := h.cache
  building := h.building
  results p hp := by
    obtain hp | rfl := by simpa [HashState.answer] using hp
    · exact h.results p hp
    · exact hr

lemma RingFits.build (h : RingFits hash vnodes lists s) (hc : c.nodes ∈ lists)
    (hne : c.enabled ≠ []) :
    RingFits hash vnodes lists { s with building := s.building ++ [c] } where
  cache := h.cache
  building d hd := by
    obtain hd | rfl := by simpa using hd
    · exact h.building d hd
    · exact ⟨hc, hne⟩
  results := h.results

lemma fromRing_isSome (hne : a ≠ []) (hlen : a.length = b.length) (key : String) :
    (fromRing hash (buildRing hash vnodes a) b key).isSome := by
  obtain ⟨idx, n, -, hn, hpos, -⟩ := exists_position hash vnodes hne key
  have hidx : idx < b.length := hlen ▸ (List.getElem?_eq_some_iff.mp hn).1
  rw [hpos, getElem?_eq_getElem hidx]
  rfl

section

variable (h : RingFits hash vnodes lists s)
include h

lemma RingFits.enter (hsame : SameCount (fun nodes => nodes.filter (·.enabled)) signature lists)
    (hc : c.nodes ∈ lists) : RingFits hash vnodes lists (enter hash s c) := by
  unfold ConsistentHash.enter look
  by_cases hne : c.enabled = []
  · rw [if_pos hne]
    exact h.answer rfl
  · rw [if_neg hne]
    have hbuild := h.build hc hne
    cases hkey : c.hashKey with
    | none =>
      apply h.answer
      rw [getElem?_eq_getElem (length_pos_iff.mpr hne)]
      rfl
    | some key =>
      cases hcached : s.cache with
      | none => rwa [hcached] at hbuild
      | some cached =>
        rw [hcached] at hbuild
        by_cases hsig : cached.signature = signature c.enabled
        · dsimp only
          rw [if_pos hsig]
          obtain ⟨nodes, hnodes, hnne, hnsig, hring⟩ := h.cache cached hcached
          rw [hring]
          apply h.answer
          exact fromRing_isSome hnne (hsame nodes hnodes c.nodes hc hnne hne (hnsig ▸ hsig)) key
        · dsimp only
          rwa [if_neg hsig]

lemma RingFits.stored (hc : c.nodes ∈ lists) (hne : c.enabled ≠ []) :
    ∃ nodes ∈ lists, nodes.filter (·.enabled) ≠ [] ∧
      signature (nodes.filter (·.enabled)) = signature c.enabled ∧
      stored hash vnodes s.cache c =
        ⟨signature c.enabled, buildRing hash vnodes (nodes.filter (·.enabled))⟩ := by
  cases hcached : s.cache with
  | none => exact ⟨c.nodes, hc, hne, rfl, rfl⟩
  | some cached =>
    by_cases hsig : cached.signature = signature c.enabled
    · obtain ⟨nodes, hnodes, hnne, hnsig, hring⟩ := h.cache cached hcached
      refine ⟨nodes, hnodes, hnne, hnsig.symm.trans hsig, ?_⟩
      rw [← hring, ← hsig, ConsistentHash.stored]
      exact if_neg (not_not_intro hsig)
    · exact ⟨c.nodes, hc, hne, rfl, by simp [ConsistentHash.stored, hsig]; rfl⟩

section

variable (hsame : SameCount (fun nodes => nodes.filter (·.enabled)) signature lists)
include hsame

lemma RingFits.finish (hc : c.nodes ∈ lists) (hne : c.enabled ≠ []) :
    RingFits hash vnodes lists (finish hash vnodes s c key) := by
  obtain ⟨nodes, hnodes, hnne, hsig, hstored⟩ := h.stored hc hne
  have hcache : RingFits hash vnodes lists
      { s with cache := some (ConsistentHash.stored hash vnodes s.cache c) } :=
    { cache := by
        rintro cached hcached
        obtain rfl := Option.some.inj hcached
        exact ⟨nodes, hnodes, hnne, by rw [hstored, hsig], by rw [hstored]⟩
      building := h.building
      results := h.results }
  apply hcache.answer
  rw [hstored]
  exact fromRing_isSome hnne (hsame nodes hnodes c.nodes hc hnne hne hsig) key

lemma RingFits.step {e : HashEvent} (hcalls : ∀ c ∈ callsOf [e], c.nodes ∈ lists)
    (hstep : step hash vnodes s e = some s') :
    RingFits hash vnodes lists s' := by
  cases e with
  | call c =>
    obtain rfl := Option.some.inj hstep
    exact h.enter hsame (hcalls c (by simp [callsOf]))
  | store i =>
    simp only [ConsistentHash.step, Option.bind_eq_bind, Option.bind_eq_some_iff,
      Option.some.injEq] at hstep
    obtain ⟨c, hbuilding, key, -, rfl⟩ := hstep
    obtain ⟨hc, hne⟩ := h.building c (mem_of_getElem? hbuilding)
    have hrest : RingFits hash vnodes lists { s with building := s.building.eraseIdx i } :=
      { cache := h.cache
        building := fun c hc => h.building c (mem_of_mem_eraseIdx hc)
        results := h.results }
    exact hrest.finish hsame hc hne

end

end

lemma RingFits.run {events : List HashEvent}
    (hsame : SameCount (fun nodes => nodes.filter (·.enabled)) signature lists)
    (hcalls : ∀ c ∈ callsOf events, c.nodes ∈ lists)
    (h : run (ConsistentHash.step hash vnodes) new events = some s) :
    RingFits hash vnodes lists s := by
  refine history_induction
    (P := fun events s => (∀ c ∈ callsOf events, c.nodes ∈ lists) →
      RingFits hash vnodes lists s) ?_ ?_ h hcalls
  · intro _
    exact ringFits_new
  · intro events t e t' _ ih hstep hcalls
    have happend : callsOf (events ++ [e]) = callsOf events ++ callsOf [e] :=
      filterMap_append
    rw [happend, forall_mem_append] at hcalls
    exact (ih hcalls.1).step hsame hcalls.2 hstep

lemma fromRing_last (front : List UpstreamNodeDto) (n : UpstreamNodeDto) :
    fromRing hash (buildRing hash vnodes (front ++ [n])) nodes (vnodeKey n.address n.id 0) =
      nodes[front.length]?.map .ok := by
  have hentries : ringEntries hash vnodes (front ++ [n]) =
      (front.zipIdx.flatMap fun p =>
        (List.range (count vnodes p.1.weight (maxWeight (front ++ [n])))).map fun i =>
          (hash (vnodeKey p.1.address p.1.id i), p.2)) ++
      (List.range (count vnodes n.weight (maxWeight (front ++ [n])))).map fun i =>
        (hash (vnodeKey n.address n.id i), front.length) := by
    simp [ringEntries, zipIdx_append]
  have hmem : (hash (vnodeKey n.address n.id 0), front.length) ∈
      (buildRing hash vnodes (front ++ [n])).entries := by
    rw [buildRing, hentries]
    apply OrderedMap.mem_ofList_append
    · refine mem_map.mpr ⟨_, mem_map.mpr ⟨0, ?_, rfl⟩, rfl⟩
      simp [count]
    · intro e he
      obtain ⟨i, -, rfl⟩ := mem_map.mp he
      rfl
  rw [fromRing, if_neg (by simpa using buildRing_ne_nil hash vnodes (by simp)),
    OrderedMap.clockwise_of_mem hmem]
  rfl

lemma vnodeKey_ne_empty (address : String) (id i : Nat) : vnodeKey address id i ≠ "" := by
  intro h
  have hlen := congrArg String.length h
  simp [vnodeKey] at hlen

variable (hash vnodes) in
lemma exists_panic (hane : a.filter (·.enabled) ≠ []) (hbne : b.filter (·.enabled) ≠ [])
    (hsig : signature (a.filter (·.enabled)) = signature (b.filter (·.enabled)))
    (hlt : (a.filter (·.enabled)).length < (b.filter (·.enabled)).length) :
    ∃ key events s, callsOf events = [⟨b, key⟩, ⟨a, key⟩] ∧
      run (step hash vnodes) new events = some s ∧
      (⟨a, key⟩, none) ∈ s.results := by
  obtain ⟨front, n, hlast⟩ := (eq_nil_or_concat' _).resolve_left hbne
  have hkey : ∀ nodes, hashKey ⟨nodes, some (vnodeKey n.address n.id 0)⟩ =
      some (vnodeKey n.address n.id 0) := by
    intro nodes
    simp [hashKey, vnodeKey_ne_empty]
  have hout : fromRing hash (buildRing hash vnodes (b.filter (·.enabled)))
      (a.filter (·.enabled)) (vnodeKey n.address n.id 0) = none := by
    rw [hlast] at hlt ⊢
    rw [fromRing_last, getElem?_eq_none (by simpa [Nat.lt_succ_iff] using hlt)]
    rfl
  generalize vnodeKey n.address n.id 0 = key at hkey hout
  have hbuild : step hash vnodes new (.call ⟨b, some key⟩) =
      some ⟨none, [⟨b, some key⟩], []⟩ := by
    simp only [step, enter, look, enabled, if_neg hbne, hkey, new]
    rfl
  obtain ⟨results, hstore⟩ : ∃ results, step hash vnodes
      ⟨none, [⟨b, some key⟩], []⟩ (.store 0) = some ⟨some ⟨signature (b.filter (·.enabled)),
        buildRing hash vnodes (b.filter (·.enabled))⟩, [], results⟩ := by
    simp only [step, getElem?_cons_zero, Option.bind_eq_bind, Option.bind_some, hkey]
    exact ⟨_, rfl⟩
  have hlook : step hash vnodes ⟨some ⟨signature (b.filter (·.enabled)),
      buildRing hash vnodes (b.filter (·.enabled))⟩, [], results⟩ (.call ⟨a, some key⟩) =
      some (HashState.answer ⟨some ⟨signature (b.filter (·.enabled)),
        buildRing hash vnodes (b.filter (·.enabled))⟩, [], results⟩ ⟨a, some key⟩ none) := by
    simp only [step, enter, look, enabled, if_neg hane, hkey, if_pos hsig.symm, hout]
  have hrun : run (step hash vnodes) new
      [.call ⟨b, some key⟩, .store 0, .call ⟨a, some key⟩] = some _ :=
    run_cons_eq_some.mpr ⟨_, hbuild, run_cons_eq_some.mpr
      ⟨_, hstore, run_cons_eq_some.mpr ⟨_, hlook, rfl⟩⟩⟩
  exact ⟨some key, _, _, rfl, hrun, mem_append_right _ mem_cons_self⟩

end ConsistentHash

theorem sameCount_of_no_bar (h : ∀ nodes ∈ lists, ∀ n ∈ nodes, '|' ∉ n.address.toList) :
    SameCount WeightedRoundRobin.enabled WeightedRoundRobin.signature lists ∧
      SameCount (fun nodes => nodes.filter (·.enabled)) signature lists := by
  have hcolon : '|' ∉ ":".toList := by decide
  have hnat := notMem_toString_of_not_isDigit (c := '|') rfl
  have hint := notMem_toString_int (c := '|') rfl (by decide)
  constructor
  · apply sameCount_of_text
    intro nodes hnodes n hn
    have haddress := h nodes hnodes n (mem_of_mem_filter hn)
    simp only [String.toList_append, mem_append, haddress, hcolon, hint, or_self, not_false_iff]
  · apply sameCount_of_text
    intro nodes hnodes n hn
    have haddress := h nodes hnodes n (mem_of_mem_filter hn)
    simp only [String.toList_append, mem_append, haddress, hcolon, hint, hnat, or_self,
      not_false_iff]

/-- No select of the two balancers reaches outside its vector or its node list, exactly if among
the node lists that occur those with the same signature have equally many nodes to choose from. -/
theorem selects_in_bounds_iff (hash : String → Nat) (vnodes : Nat)
    (lists : Set (List UpstreamNodeDto)) :
    ((∀ cs : List WeightedCall, (∀ c ∈ cs, c.nodes ∈ lists) →
        ∀ r ∈ WeightedRoundRobin.new.selects i32 cs, r.2.isSome) ∧
      (∀ (events : List HashEvent) (s : HashState),
        (∀ c ∈ callsOf events, c.nodes ∈ lists) →
        run (step hash vnodes) new events = some s →
        ∀ p ∈ s.results, p.2.isSome)) ↔
    SameCount WeightedRoundRobin.enabled WeightedRoundRobin.signature lists ∧
      SameCount (fun nodes => nodes.filter (·.enabled)) signature lists := by
  constructor
  · rintro ⟨hweighted, hhash⟩
    constructor
    · apply sameCount_of_not_lt
      intro a ha b hb hane hbne hsig hlt
      have hsome := hweighted [⟨0, a⟩, ⟨0, b⟩] (by simp [ha, hb]) (⟨0, b⟩, _)
        (mem_cons_of_mem _ mem_cons_self)
      rw [WeightedRoundRobin.select_eq_none hbne hane hsig hlt] at hsome
      cases hsome
    · apply sameCount_of_not_lt
      intro a ha b hb hane hbne hsig hlt
      obtain ⟨key, events, s, hcalls, hrun, hpanic⟩ :=
        exists_panic hash vnodes hane hbne hsig hlt
      have hsome := hhash events s (by simp [hcalls, ha, hb]) hrun _ hpanic
      cases hsome
  · rintro ⟨hweighted, hhash⟩
    constructor
    · intro cs hcs
      exact WeightedRoundRobin.selects_isSome hweighted hcs WeightedRoundRobin.fits_new
    · intro events s hcalls hrun
      exact (ConsistentHash.RingFits.run hhash hcalls hrun).results

/-- One node whose address looks like the end of one entry and the beginning of the next. -/
theorem selects_out_of_bounds :
    (∃ r ∈ WeightedRoundRobin.new.selects i32
      [⟨1, [⟨1, 1, "a:1|b", 1, true⟩]⟩, ⟨2, [⟨2, 2, "a", 1, true⟩, ⟨3, 2, "b", 1, true⟩]⟩],
      r.2 = none) ∧
    ∀ (hash : String → Nat) (vnodes : Nat), ∃ key events s,
      callsOf events =
        [⟨[⟨1, 2, "a", 1, true⟩, ⟨2, 2, "b", 1, true⟩], key⟩, ⟨[⟨1, 1, "a:1|2:b", 1, true⟩], key⟩] ∧
      run (step hash vnodes) new events = some s ∧
      (⟨[⟨1, 1, "a:1|2:b", 1, true⟩], key⟩, none) ∈ s.results := by
  constructor
  · refine ⟨_, mem_cons_of_mem _ mem_cons_self, ?_⟩
    exact WeightedRoundRobin.select_eq_none (by decide) (by decide) (by decide) (by decide)
  · intro hash vnodes
    exact exists_panic hash vnodes (by decide) (by decide) (by decide) (by decide)

end Conrogate
