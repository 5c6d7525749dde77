import Conrogate.Balancer.ConsistentHash
import Mathlib.Logic.Equiv.List

/-!
# A ring without one of its nodes

The number of virtual nodes depends on the greatest weight. So the removal of a node can give the
others new virtual nodes, and keys that it did not have move.
-/

namespace Conrogate

namespace ConsistentHash

open OrderedMap List Encodable

variable {hash : String → Nat} {vnodes : Nat} {nodes before rest : List UpstreamNodeDto}
  {r a b n : UpstreamNodeDto} {key : String}

/-! ### Owners of the virtual nodes -/

variable (hash vnodes) in
def holders (maxWeight : Int) (nodes : List UpstreamNodeDto) : List (Nat × UpstreamNodeDto) :=
  nodes.flatMap fun n => (List.range (count vnodes n.weight maxWeight)).map fun i =>
    (hash (vnodeKey n.address n.id i), n)

lemma mem_holders {maxWeight : Int} {x : Nat} : (x, n) ∈ holders hash vnodes maxWeight nodes ↔
    n ∈ nodes ∧ ∃ i < count vnodes n.weight maxWeight, hash (vnodeKey n.address n.id i) = x := by
  simp only [holders, mem_flatMap, mem_map, mem_range, Prod.mk.injEq]
  constructor
  · rintro ⟨m, hm, i, hi, hx, rfl⟩
    exact ⟨hm, i, hi, hx⟩
  · rintro ⟨hn, i, hi, hx⟩
    exact ⟨n, hn, i, hi, hx, rfl⟩

variable (hash vnodes nodes) in
lemma map_ringEntries : (ringEntries hash vnodes nodes).map (fun e => (e.1, nodes[e.2]?)) =
    (holders hash vnodes (maxWeight nodes) nodes).map fun e => (e.1, some e.2) := by
  have hforget : ∀ f : UpstreamNodeDto → List (Nat × Option UpstreamNodeDto),
      nodes.flatMap f = nodes.zipIdx.flatMap fun p => f p.1 := by
    intro f
    rw [← flatMap_map Prod.fst f, zipIdx_map_fst]
  rw [ringEntries, holders, map_flatMap, map_flatMap, hforget]
  refine flatMap_congr fun p hp => ?_
  have hget : nodes[p.2]? = some p.1 := mk_mem_zipIdx_iff_getElem?.mp hp
  simp [Function.comp_def, hget]

variable (hash vnodes) in
lemma exists_owner (hne : nodes ≠ []) (key : String) : ∃ x n,
    fromRing hash (buildRing hash vnodes nodes) nodes key = some (.ok n) ∧
    FirstFrom ((holders hash vnodes (maxWeight nodes) nodes).map Prod.fst) (hash key) x ∧
    (holders hash vnodes (maxWeight nodes) nodes).reverse.find? (fun e => e.1 = x) =
      some (x, n) := by
  have hring := buildRing_ne_nil hash vnodes hne
  obtain ⟨⟨x, idx⟩, hentry⟩ := exists_clockwise hring (hash key)
  obtain ⟨n, i, hn, -, -⟩ := node_of_mem_buildRing (clockwise_mem hentry)
  refine ⟨x, n, ?_, ?_, ?_⟩
  · rw [fromRing, if_neg (by simpa using hring), hentry]
    simp [hn]
  · have hkeys : ∀ y, y ∈ (buildRing hash vnodes nodes).keys ↔
        y ∈ (holders hash vnodes (maxWeight nodes) nodes).map Prod.fst := by
      intro y
      have hfst := congrArg (List.map Prod.fst) (map_ringEntries hash vnodes nodes)
      rw [map_map, map_map] at hfst
      rw [buildRing, mem_keys_ofList]
      exact iff_of_eq (congrArg (y ∈ ·) hfst)
    have hfirst := firstFrom_of_clockwise hentry
    exact hfirst.of_subset (fun y hy => (hkeys y).mpr hy) ((hkeys x).mp hfirst.1)
  · have hlast := congrArg (fun l => l.reverse.find? fun e => e.1 = x)
      (map_ringEntries hash vnodes nodes)
    have hfind := mem_ofList.mp (clockwise_mem hentry)
    simp only [← map_reverse, find?_map, Function.comp_def] at hlast
    rw [hfind, Option.map_some, hn] at hlast
    obtain ⟨⟨y, m⟩, hm, heq⟩ := Option.map_eq_some_iff.mp hlast.symm
    obtain ⟨rfl, hnm⟩ := Prod.mk.inj heq
    obtain rfl : m = n := Option.some.inj hnm
    exact hm

/-! ### The other nodes keep their virtual nodes -/

variable (vnodes) in
def SameCounts (before : List UpstreamNodeDto) (r : UpstreamNodeDto)
    (rest : List UpstreamNodeDto) : Prop :=
  ∀ n ∈ before ++ rest, count vnodes n.weight (maxWeight (before ++ r :: rest)) =
    count vnodes n.weight (maxWeight (before ++ rest))

lemma mem_of_mem_removed (h : n ∈ before ++ r :: rest) (hr : n ≠ r) : n ∈ before ++ rest := by
  simpa [hr] using h

lemma find?_holders_removed {maxWeight : Int} {x : Nat} (hr : n ≠ r)
    (h : (holders hash vnodes maxWeight (before ++ r :: rest)).reverse.find? (fun e => e.1 = x) =
      some (x, n)) :
    (holders hash vnodes maxWeight (before ++ rest)).reverse.find? (fun e => e.1 = x) =
      some (x, n) := by
  have happend : ∀ l l' : List UpstreamNodeDto, holders hash vnodes maxWeight (l ++ l') =
      holders hash vnodes maxWeight l ++ holders hash vnodes maxWeight l' :=
    fun l l' => flatMap_append
  rw [← singleton_append] at h
  simp only [happend, reverse_append, find?_append] at h ⊢
  cases hrest : (holders hash vnodes maxWeight rest).reverse.find? (fun e => e.1 = x) with
  | some e => simpa [hrest] using h
  | none =>
    cases hremoved : (holders hash vnodes maxWeight [r]).reverse.find? (fun e => e.1 = x) with
    | none => simpa [hrest, hremoved] using h
    | some e =>
      have heq : e = (x, n) := by simpa [hrest, hremoved] using h
      have hmem := mem_reverse.mp (mem_of_find?_eq_some hremoved)
      rw [heq, mem_holders] at hmem
      exact absurd (mem_singleton.mp hmem.1) hr

lemma fromRing_removed (hcounts : SameCounts vnodes before r rest)
    (h : fromRing hash (buildRing hash vnodes (before ++ r :: rest)) (before ++ r :: rest) key =
      some (.ok n)) (hr : n ≠ r) :
    fromRing hash (buildRing hash vnodes (before ++ rest)) (before ++ rest) key =
      some (.ok n) := by
  have hn := mem_of_mem_removed (mem_of_fromRing h) hr
  obtain ⟨x, m, hm, hfirst, hfind⟩ := exists_owner hash vnodes
    (append_ne_nil_of_right_ne_nil before (cons_ne_nil r rest)) key
  obtain rfl : m = n := Except.ok.inj (Option.some.inj (hm.symm.trans h))
  obtain ⟨y, m', hm', hfirst', hfind'⟩ := exists_owner hash vnodes (ne_nil_of_mem hn) key
  have hholders : holders hash vnodes (maxWeight (before ++ rest)) (before ++ rest) =
      holders hash vnodes (maxWeight (before ++ r :: rest)) (before ++ rest) :=
    flatMap_congr fun n hn => by rw [hcounts n hn]
  rw [hholders] at hfirst' hfind'
  have hkept := find?_holders_removed hr hfind
  -- the first virtual node is still there, and there are no new ones
  have hsub :
      (holders hash vnodes (maxWeight (before ++ r :: rest)) (before ++ rest)).map Prod.fst ⊆
      (holders hash vnodes (maxWeight (before ++ r :: rest)) (before ++ r :: rest)).map
        Prod.fst := by
    apply map_subset
    intro e he
    obtain ⟨hmem, hi⟩ := mem_holders.mp he
    exact mem_holders.mpr ⟨by simpa using (mem_append.mp hmem).imp_right .inr, hi⟩
  have hx := hfirst.of_subset hsub
    (mem_map_of_mem (mem_reverse.mp (mem_of_find?_eq_some hkept)))
  obtain rfl := hx.unique hfirst'
  rw [hkept, Option.some.injEq, Prod.mk.injEq] at hfind'
  rw [hm', hfind'.2]

/-! ### A key that moves -/

lemma maxWeight_cons (n : UpstreamNodeDto) (nodes : List UpstreamNodeDto) :
    maxWeight (n :: nodes) = max (maxWeight nodes) (max n.weight 1) := by
  rw [maxWeight_perm (perm_append_singleton n nodes).symm, maxWeight, foldl_concat]
  rfl

lemma one_le_maxWeight (nodes : List UpstreamNodeDto) : 1 ≤ maxWeight nodes := by
  induction nodes with
  | nil => decide
  | cons n nodes ih => exact le_max_of_le_left ih |>.trans_eq (maxWeight_cons n nodes).symm

lemma count_le_removed (vnodes : Nat) (weight : Int) (before : List UpstreamNodeDto)
    (r : UpstreamNodeDto) (rest : List UpstreamNodeDto) :
    count vnodes weight (maxWeight (before ++ r :: rest)) ≤
      count vnodes weight (maxWeight (before ++ rest)) := by
  have hle : maxWeight (before ++ rest) ≤ maxWeight (before ++ r :: rest) := by
    rw [maxWeight_perm perm_middle, maxWeight_cons]
    exact le_max_left _ _
  have hone := one_le_maxWeight (before ++ rest)
  apply max_le_max_right
  exact Nat.div_le_div_left (by omega) (by omega)

def arranged (first second third : String) (text : String) : Nat :=
  if text = first then 0 else if text = second then 1 else if text = third then 2
  else Encodable.encode (text.toList.map Char.toNat) + 3

lemma arranged_injective (first second third : String) :
    Function.Injective (arranged first second third) := by
  have hencode : ∀ {s t : String}, encode (s.toList.map Char.toNat) =
      encode (t.toList.map Char.toNat) → s = t := by
    intro s t h
    have hchars := map_injective_iff.mpr (fun _ _ => Char.toNat_inj.mp)
      (encode_injective h)
    exact String.toList_injective hchars
  intro s t h
  unfold arranged at h
  split_ifs at h <;> first | omega | (subst_vars; rfl) | exact hencode (by omega)

lemma arranged_ge_two {first second third text : String} (h : text ≠ first) (h' : text ≠ second) :
    2 ≤ arranged first second third text := by
  rw [arranged, if_neg h, if_neg h']
  split_ifs <;> omega

lemma vnodeKey_ne {text : String} (h : '#' ∉ text.toList) (address : String) (id i : Nat) :
    vnodeKey address id i ≠ text := by
  rintro rfl
  exact h (by simp [vnodeKey])

lemma fromRing_of_least (hids : (nodes.map (·.id)).Nodup) (hinj : Function.Injective hash)
    (hn : n ∈ nodes) {i : Nat} (hi : i < count vnodes n.weight (maxWeight nodes))
    (hkey : hash key ≤ hash (vnodeKey n.address n.id i))
    (hleast : ∀ m ∈ nodes, ∀ j < count vnodes m.weight (maxWeight nodes),
      hash (vnodeKey n.address n.id i) ≤ hash (vnodeKey m.address m.id j)) :
    fromRing hash (buildRing hash vnodes nodes) nodes key = some (.ok n) := by
  obtain ⟨x, m, hm, hfirst, hfind⟩ := exists_owner hash vnodes (ne_nil_of_mem hn) key
  have hfirst' : FirstFrom ((holders hash vnodes (maxWeight nodes) nodes).map Prod.fst) (hash key)
      (hash (vnodeKey n.address n.id i)) := by
    refine ⟨mem_map.mpr ⟨(_, n), mem_holders.mpr ⟨hn, i, hi, rfl⟩, rfl⟩, .inl ⟨hkey, ?_⟩⟩
    intro y hy _
    obtain ⟨⟨y, m⟩, hmem, rfl⟩ := mem_map.mp hy
    obtain ⟨hm, j, hj, rfl⟩ := mem_holders.mp hmem
    exact hleast m hm j hj
  obtain rfl := hfirst.unique hfirst'
  obtain ⟨hmem, j, -, htext⟩ :=
    mem_holders.mp (mem_reverse.mp (mem_of_find?_eq_some hfind))
  obtain rfl := inj_on_of_nodup_map hids hmem hn (vnodeKey_inj (hinj htext)).1
  exact hm

variable (before rest r) in
lemma exists_moved (hids : ((before ++ r :: rest).map (·.id)).Nodup) (ha : a ∈ before ++ rest)
    (hb : b ∈ before ++ rest) (hab : a ≠ b)
    (hlt : count vnodes a.weight (maxWeight (before ++ r :: rest)) <
      count vnodes a.weight (maxWeight (before ++ rest))) :
    ∃ hash : String → Nat, Function.Injective hash ∧ ∃ key,
      fromRing hash (buildRing hash vnodes (before ++ r :: rest)) (before ++ r :: rest) key =
        some (.ok b) ∧
      fromRing hash (buildRing hash vnodes (before ++ rest)) (before ++ rest) key =
        some (.ok a) := by
  have hsub : (before ++ rest).Sublist (before ++ r :: rest) :=
    (sublist_cons_self r rest).append_left before
  have hids' := hids.sublist (hsub.map _)
  have hid : a.id ≠ b.id := fun h => hab (inj_on_of_nodup_map hids' ha hb h)
  have hkey : ∀ address id i, vnodeKey address id i ≠ "client" := vnodeKey_ne (by decide)
  -- the new virtual node lies between the key and a virtual node of the other
  let new := vnodeKey a.address a.id (count vnodes a.weight (maxWeight (before ++ r :: rest)))
  let old := vnodeKey b.address b.id 0
  have hnew : arranged "client" new old new = 1 := by simp [arranged, new, hkey]
  have hold : arranged "client" new old old = 2 := by
    have hne : old ≠ new := fun h => hid (vnodeKey_inj h).1.symm
    simp [arranged, hne, show old ≠ "client" from hkey _ _ _]
  have hclient : arranged "client" new old "client" = 0 := by simp [arranged]
  have hzero : 0 < count vnodes b.weight (maxWeight (before ++ r :: rest)) := by simp [count]
  refine ⟨arranged "client" new old, arranged_injective _ _ _, "client", ?_, ?_⟩
  · refine fromRing_of_least hids (arranged_injective _ _ _) (hsub.subset hb) hzero
      (by rw [hclient]; exact Nat.zero_le _) ?_
    intro m hm j hj
    rw [show arranged "client" new old (vnodeKey b.address b.id 0) = 2 from hold]
    refine arranged_ge_two (hkey _ _ _) fun htext => ?_
    -- without the removal the node has fewer virtual nodes
    obtain ⟨hmid, rfl⟩ := vnodeKey_inj htext
    obtain rfl := inj_on_of_nodup_map hids hm (hsub.subset ha) hmid
    exact absurd hj (lt_irrefl _)
  · refine fromRing_of_least hids' (arranged_injective _ _ _) ha hlt
      (by rw [hclient]; exact Nat.zero_le _) ?_
    intro m hm j hj
    rw [show arranged "client" new old (vnodeKey a.address a.id _) = 1 from hnew]
    by_cases htext : vnodeKey m.address m.id j = new
    · rw [htext, hnew]
    · exact (Nat.le_succ 1).trans (arranged_ge_two (hkey _ _ _) htext)

lemma fromRing_alone (hlen : nodes.length ≤ 1) (hn : n ∈ nodes) :
    fromRing hash (buildRing hash vnodes nodes) nodes key = some (.ok n) := by
  obtain ⟨-, m, hm, -, -⟩ := exists_owner hash vnodes (ne_nil_of_mem hn) key
  match nodes, hlen, hn with
  | [n'], _, hn =>
    rw [hm, mem_singleton.mp hn, mem_singleton.mp (mem_of_fromRing hm)]

end ConsistentHash

open ConsistentHash List

/-- Where hashes do not collide, only the keys of a node that goes are sure to move, exactly if it
does not change the number of virtual nodes of any other node, or leaves at most one. -/
theorem ring_removal_iff (vnodes : Nat) (before : List UpstreamNodeDto) (r : UpstreamNodeDto)
    (rest : List UpstreamNodeDto) (hids : ((before ++ r :: rest).map (·.id)).Nodup) :
    (∀ hash : String → Nat,
      (∀ s ∈ vnodeKeys vnodes (before ++ r :: rest) ++ vnodeKeys vnodes (before ++ rest),
        ∀ t ∈ vnodeKeys vnodes (before ++ r :: rest) ++ vnodeKeys vnodes (before ++ rest),
          hash s = hash t → s = t) →
      ∀ key n,
        fromRing hash (buildRing hash vnodes (before ++ r :: rest)) (before ++ r :: rest) key =
          some (.ok n) → n ≠ r →
        fromRing hash (buildRing hash vnodes (before ++ rest)) (before ++ rest) key =
          some (.ok n)) ↔
      SameCounts vnodes before r rest ∨ (before ++ rest).length ≤ 1 := by
  constructor
  · intro h
    by_contra hcond
    obtain ⟨hcounts, hlen⟩ := not_or.mp hcond
    obtain ⟨a, hchanged⟩ := not_forall.mp hcounts
    obtain ⟨ha, hne⟩ := Classical.not_imp.mp hchanged
    have hlt := lt_of_le_of_ne (count_le_removed vnodes a.weight before r rest) hne
    have hsub : (before ++ rest).Sublist (before ++ r :: rest) :=
      (sublist_cons_self r rest).append_left before
    have hnodup : (before ++ rest).Nodup := (hids.of_map _).sublist hsub
    obtain ⟨b, hb, hba⟩ : ∃ b ∈ before ++ rest, b ≠ a := by
      by_contra hall
      push Not at hall
      have hone : before ++ rest ⊆ [a] := fun n hn => mem_singleton.mpr (hall n hn)
      exact hlen (subperm_of_subset hnodup hone).length_le
    obtain ⟨hash, hinj, key, hbefore, hafter⟩ :=
      exists_moved before rest r hids ha hb hba.symm hlt
    have hbr : b ≠ r := by
      rintro rfl
      exact (nodup_middle.mp (hids.of_map _)).notMem hb
    have hstays := h hash (fun s _ t _ heq => hinj heq) key b hbefore hbr
    rw [hafter] at hstays
    exact hba (Except.ok.inj (Option.some.inj hstays)).symm
  · rintro (hcounts | hlen) hash - key n h hr
    · exact fromRing_removed hcounts h hr
    · exact fromRing_alone hlen (mem_of_mem_removed (mem_of_fromRing h) hr)

def hashNodeC (weight : Int) : UpstreamNodeDto := ⟨3, 1, "c:80", weight, true⟩

def seaHashes : List (String × Nat) :=
  [("a:80#1#0", 15937927775510381249), ("a:80#1#1", 13361040466772176971),
    ("b:80#2#0", 17708989677081026181), ("b:80#2#1", 12706226985122307253),
    ("c:80#3#0", 9145452273563207594), ("c:80#3#1", 7564028286391913600),
    ("10.0.0.1", 12133024235918327569)]

def seaHashOf (text : String) : Nat := (seaHashes.lookup text).getD 0

theorem ring_removal_iff_equal_weights :
    fromRing seaHashOf (buildRing seaHashOf 2 [hashNodeA, hashNodeB]) [hashNodeA, hashNodeB]
      "10.0.0.1" = some (.ok hashNodeB) := by
  have hcounts : SameCounts 2 [hashNodeA, hashNodeB] (hashNodeC 1) [] := by
    unfold SameCounts
    decide
  exact (ring_removal_iff 2 [hashNodeA, hashNodeB] (hashNodeC 1) [] (by decide)).mpr (.inl hcounts)
    seaHashOf (by decide) "10.0.0.1" hashNodeB (by decide) (by decide)

/-- The removal of the heaviest node moves a client from the first to the second of the others. -/
theorem ring_removal_moves_key :
    (let full := [hashNodeA, hashNodeB, hashNodeC 2]
    (∀ s ∈ vnodeKeys 2 full ++ vnodeKeys 2 [hashNodeA, hashNodeB],
      ∀ t ∈ vnodeKeys 2 full ++ vnodeKeys 2 [hashNodeA, hashNodeB],
        seaHashOf s = seaHashOf t → s = t) ∧
    fromRing seaHashOf (buildRing seaHashOf 2 full) full "10.0.0.1" = some (.ok hashNodeA) ∧
    fromRing seaHashOf (buildRing seaHashOf 2 [hashNodeA, hashNodeB]) [hashNodeA, hashNodeB]
      "10.0.0.1" = some (.ok hashNodeB)) ∧
    ∃ hash : String → Nat, Function.Injective hash ∧ ∃ key,
      fromRing hash (buildRing hash 150 [hashNodeA, hashNodeB, hashNodeC 2])
        [hashNodeA, hashNodeB, hashNodeC 2] key = some (.ok hashNodeB) ∧
      fromRing hash (buildRing hash 150 [hashNodeA, hashNodeB]) [hashNodeA, hashNodeB] key =
        some (.ok hashNodeA) := by
  refine ⟨⟨by decide, by decide, by decide⟩, ?_⟩
  exact exists_moved [hashNodeA, hashNodeB] [] (hashNodeC 2) (by decide) (by decide) (by decide)
    (by decide) (by decide)

end Conrogate
