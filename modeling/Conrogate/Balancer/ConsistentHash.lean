import Conrogate.Core.Dto
import Conrogate.Core.Error
import Conrogate.Lib.OrderedMap
import Conrogate.Lib.Transition

/-!
# Consistent hashing

A `select` that does not find its ring in the cache gives the lock back while it builds one, so that
other calls can come in between. The hash function is arbitrary.
-/

namespace Conrogate

open List Option OrderedMap Transition

abbrev Ring := OrderedMap Nat Nat

structure RingCache where
  signature : String
  ring : Ring

structure HashCall where
  nodes : List UpstreamNodeDto
  key : Option String

namespace ConsistentHash

def signature (nodes : List UpstreamNodeDto) : String :=
  sortedJoin (nodes.map fun n => toString n.id ++ ":" ++ n.address ++ ":" ++ toString n.weight)

def maxWeight (nodes : List UpstreamNodeDto) : Int :=
  nodes.foldl (fun m n => max m (max n.weight 1)) 1

def count (vnodes : Nat) (weight maxWeight : Int) : Nat :=
  max (vnodes * (max weight 1).toNat % 0x10000000000000000 / maxWeight.toNat) 1

def vnodeKey (address : String) (id i : Nat) : String :=
  address ++ "#" ++ toString id ++ "#" ++ toString i

section

variable (hash : String → Nat) (vnodes : Nat)

def ringEntries (nodes : List UpstreamNodeDto) : List (Nat × Nat) :=
  nodes.zipIdx.flatMap fun p =>
    (List.range (count vnodes p.1.weight (maxWeight nodes))).map fun i =>
      (hash (vnodeKey p.1.address p.1.id i), p.2)

def buildRing (nodes : List UpstreamNodeDto) : Ring :=
  OrderedMap.ofList (ringEntries hash vnodes nodes)

def fromRing (ring : Ring) (nodes : List UpstreamNodeDto) (key : String) :
    Option (Result UpstreamNodeDto) :=
  if ring.entries.isEmpty then nodes[0]?.map .ok
  else nodes[((ring.clockwise (hash key)).map Prod.snd).getD 0]?.map .ok

end

end ConsistentHash

def HashCall.enabled (c : HashCall) : List UpstreamNodeDto := c.nodes.filter (·.enabled)

def HashCall.hashKey (c : HashCall) : Option String := c.key.filter (· ≠ "")

/-- Calls build a ring outside the lock. -/
structure HashState where
  cache : Option RingCache
  building : List HashCall
  results : List (HashCall × Option (Result UpstreamNodeDto))

inductive HashEvent where
  | call (c : HashCall)
  | store (i : Nat)

def HashState.answer (s : HashState) (c : HashCall)
    (r : Option (Result UpstreamNodeDto)) : HashState :=
  { s with results := s.results ++ [(c, r)] }

namespace ConsistentHash

def new : HashState where
  cache := none
  building := []
  results := []

variable (hash : String → Nat) (vnodes : Nat)

/-- What `select` answers before it builds a ring. If there is none, it builds one. -/
def look (cache : Option RingCache) (c : HashCall) :
    Option (Option (Result UpstreamNodeDto)) :=
  if c.enabled = [] then some (some (.error (.upstreamNotFound "no enabled nodes")))
  else match c.hashKey, cache with
    | none,     _ => some (c.enabled[0]?.map .ok)
    | some _,   none => none
    | some key, some cached =>
      if cached.signature = signature c.enabled then some (fromRing hash cached.ring c.enabled key)
      else none

/-- The first part of `select`. -/
def enter (s : HashState) (c : HashCall) : HashState :=
  match look hash s.cache c with
  | some r => s.answer c r
  | none   => { s with building := s.building ++ [c] }

def stored (cache : Option RingCache) (c : HashCall) : RingCache :=
  match cache with
  | some cached =>
    if cached.signature ≠ signature c.enabled then
      ⟨signature c.enabled, buildRing hash vnodes c.enabled⟩
    else cached
  | none => ⟨signature c.enabled, buildRing hash vnodes c.enabled⟩

/-- The second part of `select`, for a call that has built a ring. -/
def finish (s : HashState) (c : HashCall) (key : String) : HashState :=
  let cached := stored hash vnodes s.cache c
  { s with cache := some cached }.answer c (fromRing hash cached.ring c.enabled key)

def step (s : HashState) : HashEvent → Option HashState
  | .call c  => some (enter hash s c)
  | .store i => do
    let c ← s.building[i]?
    let key ← c.hashKey
    some (finish hash vnodes { s with building := s.building.eraseIdx i } c key)

/-! ### The owner of a key -/

def vnodeKeys (nodes : List UpstreamNodeDto) : List String :=
  nodes.flatMap fun n => (List.range (count vnodes n.weight (maxWeight nodes))).map fun i =>
    vnodeKey n.address n.id i

variable {hash vnodes} {nodes nodes' : List UpstreamNodeDto} {i x : Nat}

lemma vnodeKey_inj {address address' : String} {id id' i' : Nat}
    (h : vnodeKey address id i = vnodeKey address' id' i') : id = id' ∧ i = i' := by
  have htext : ∀ address id i, (vnodeKey address id i).toList =
      (address.toList ++ '#' :: (toString id).toList) ++ '#' :: (toString i).toList := by
    intro address id i
    simp only [vnodeKey, String.toList_append, append_assoc]
    rfl
  have hsharp := notMem_toString_of_not_isDigit (c := '#') rfl
  have hchars := congrArg String.toList h
  rw [htext, htext] at hchars
  obtain ⟨hfront, hi⟩ := append_cons_inj (hsharp i) (hsharp i') hchars
  obtain ⟨-, hid⟩ := append_cons_inj (hsharp id) (hsharp id') hfront
  exact ⟨toString_nat_injective hid, toString_nat_injective hi⟩

lemma maxWeight_perm (h : nodes.Perm nodes') : maxWeight nodes = maxWeight nodes' := by
  apply h.foldl_eq'
  intro n _ n' _ m
  omega

lemma vnodeKeys_perm (h : nodes.Perm nodes') :
    (vnodeKeys vnodes nodes).Perm (vnodeKeys vnodes nodes') := by
  rw [vnodeKeys, vnodeKeys, maxWeight_perm h]
  exact h.flatMap_right _

lemma map_fst_ringEntries :
    (ringEntries hash vnodes nodes).map Prod.fst = (vnodeKeys vnodes nodes).map hash := by
  have hforget : ∀ f : UpstreamNodeDto → List Nat,
      nodes.zipIdx.flatMap (fun p => f p.1) = nodes.flatMap f := by
    intro f
    rw [← flatMap_map Prod.fst f, zipIdx_map_fst]
  rw [ringEntries, vnodeKeys, map_flatMap, map_flatMap, ← hforget]
  simp [Function.comp_def]

lemma mem_keys_buildRing :
    x ∈ (buildRing hash vnodes nodes).keys ↔ x ∈ (vnodeKeys vnodes nodes).map hash := by
  rw [buildRing, mem_keys_ofList, map_fst_ringEntries]

lemma keys_buildRing_perm (h : nodes.Perm nodes') :
    (buildRing hash vnodes nodes).keys = (buildRing hash vnodes nodes').keys := by
  apply keys_eq_of_mem_iff
  intro x
  rw [mem_keys_buildRing, mem_keys_buildRing]
  exact ((vnodeKeys_perm h).map hash).mem_iff

lemma node_of_mem_buildRing {idx : Nat} (h : (x, idx) ∈ (buildRing hash vnodes nodes).entries) :
    ∃ n i, nodes[idx]? = some n ∧ vnodeKey n.address n.id i ∈ vnodeKeys vnodes nodes ∧
      hash (vnodeKey n.address n.id i) = x := by
  obtain ⟨⟨n, idx'⟩, hn, hmem⟩ := mem_flatMap.mp (mem_of_mem_ofList h)
  obtain ⟨i, hi, heq⟩ := mem_map.mp hmem
  obtain ⟨rfl, rfl⟩ := Prod.mk.inj heq
  have hget : nodes[idx']? = some n := mk_mem_zipIdx_iff_getElem?.mp hn
  refine ⟨n, i, hget, ?_, rfl⟩
  exact mem_flatMap.mpr ⟨n, mem_of_getElem? hget, mem_map.mpr ⟨i, hi, rfl⟩⟩

variable (hash vnodes)

lemma buildRing_ne_nil (hne : nodes ≠ []) : (buildRing hash vnodes nodes).entries ≠ [] := by
  obtain ⟨n, rest, rfl⟩ := exists_cons_of_ne_nil hne
  have hkey : hash (vnodeKey n.address n.id 0) ∈ (buildRing hash vnodes (n :: rest)).keys := by
    refine mem_keys_buildRing.mpr (mem_map.mpr ⟨_, ?_, rfl⟩)
    refine mem_flatMap.mpr ⟨n, mem_cons_self, mem_map.mpr ⟨0, ?_, rfl⟩⟩
    simp [count]
  intro hnil
  simp [OrderedMap.keys, hnil] at hkey

lemma exists_position (hne : nodes ≠ []) (key : String) :
    ∃ (idx : Nat) (n : UpstreamNodeDto) (i : Nat),
    nodes[idx]? = some n ∧
    (∀ nodes', fromRing hash (buildRing hash vnodes nodes) nodes' key = nodes'[idx]?.map .ok) ∧
    vnodeKey n.address n.id i ∈ vnodeKeys vnodes nodes ∧
    ((buildRing hash vnodes nodes).clockwise (hash key)).map Prod.fst =
      some (hash (vnodeKey n.address n.id i)) := by
  have hring := buildRing_ne_nil hash vnodes hne
  obtain ⟨⟨x, idx⟩, hentry⟩ := exists_clockwise hring (hash key)
  obtain ⟨n, i, hn, hi, rfl⟩ := node_of_mem_buildRing (clockwise_mem hentry)
  refine ⟨idx, n, i, hn, ?_, hi, by rw [hentry]; rfl⟩
  intro nodes'
  rw [fromRing, if_neg (by simpa using hring), hentry]
  rfl

variable {hash vnodes} {n : UpstreamNodeDto}

lemma mem_of_fromRing {ring : Ring} {key : String} (h : fromRing hash ring nodes key = some (.ok n))
    : n ∈ nodes := by
  rw [fromRing] at h
  split at h
  · obtain ⟨m, hm, heq⟩ := map_eq_some_iff.mp h
    obtain rfl := Except.ok.inj heq
    exact mem_of_getElem? hm
  · obtain ⟨m, hm, heq⟩ := map_eq_some_iff.mp h
    obtain rfl := Except.ok.inj heq
    exact mem_of_getElem? hm

lemma mem_of_look {cache : Option RingCache} {c : HashCall}
    (h : look hash cache c = some (some (.ok n))) : n ∈ c.enabled := by
  unfold look at h
  split at h
  · cases h
  · cases hkey : c.hashKey with
    | none =>
      rw [hkey] at h
      obtain ⟨m, hm, heq⟩ := map_eq_some_iff.mp (some.inj h)
      obtain rfl := Except.ok.inj heq
      exact mem_of_getElem? hm
    | some key =>
      cases cache with
      | none => simp [hkey] at h
      | some cached =>
        simp only [hkey] at h
        split at h
        · exact mem_of_fromRing (some.inj h)
        · cases h

theorem owner_perm (hperm : nodes.Perm nodes') (hne : nodes ≠ [])
    (hdistinct : ∀ s ∈ vnodeKeys vnodes nodes, ∀ t ∈ vnodeKeys vnodes nodes,
      hash s = hash t → s = t) (key : String) : ∃ n n',
    fromRing hash (buildRing hash vnodes nodes) nodes key = some (.ok n) ∧
    fromRing hash (buildRing hash vnodes nodes') nodes' key = some (.ok n') ∧ n.id = n'.id := by
  have hne' : nodes' ≠ [] := fun hnil => hne (perm_nil.mp (hnil ▸ hperm))
  obtain ⟨idx, n, i, hn, hpos, hi, hfirst⟩ := exists_position hash vnodes hne key
  obtain ⟨idx', n', i', hn', hpos', hi', hfirst'⟩ := exists_position hash vnodes hne' key
  refine ⟨n, n', by simp [hpos, hn], by simp [hpos', hn'], ?_⟩
  -- the same key comes first on both rings
  rw [map_fst_clockwise] at hfirst hfirst'
  rw [← keys_buildRing_perm hperm, hfirst, some.injEq] at hfirst'
  exact (vnodeKey_inj (hdistinct _ hi _ ((vnodeKeys_perm hperm).mem_iff.mpr hi') hfirst')).1

variable (hash vnodes)

def undisturbed (c : HashCall) : Option (Result UpstreamNodeDto) :=
  if c.enabled = [] then some (.error (.upstreamNotFound "no enabled nodes"))
  else match c.hashKey with
    | none => c.enabled[0]?.map .ok
    | some key => fromRing hash (buildRing hash vnodes c.enabled) c.enabled key

variable {hash vnodes}

def callsOf (events : List HashEvent) : List HashCall :=
  events.filterMap fun
    | .call c  => some c
    | .store _ => none

def SameOrder (calls : List HashCall) : Prop :=
  ∀ c ∈ calls, ∀ d ∈ calls, c.hashKey.isSome → d.hashKey.isSome →
    signature c.enabled = signature d.enabled →
    c.enabled.map (fun n => (n.id, n.address, n.weight)) =
      d.enabled.map fun n => (n.id, n.address, n.weight)

section

variable (h : nodes.map (fun n => (n.id, n.address, n.weight)) =
  nodes'.map fun n => (n.id, n.address, n.weight))
include h

lemma maxWeight_congr : maxWeight nodes = maxWeight nodes' := by
  have hmax : ∀ nodes, maxWeight nodes = (nodes.map fun n : UpstreamNodeDto =>
      (n.id, n.address, n.weight)).foldl (fun m t => max m (max t.2.2 1)) 1 := by
    intro nodes
    rw [foldl_map]
    rfl
  rw [hmax, hmax, h]

lemma buildRing_congr :
    buildRing hash vnodes nodes = buildRing hash vnodes nodes' := by
  have hentries : ∀ nodes, ringEntries hash vnodes nodes =
      (nodes.map fun n : UpstreamNodeDto => (n.id, n.address, n.weight)).zipIdx.flatMap fun p =>
        (List.range (count vnodes p.1.2.2 (maxWeight nodes))).map fun i =>
          (hash (vnodeKey p.1.2.1 p.1.1 i), p.2) := by
    intro nodes
    simp [ringEntries, zipIdx_map, flatMap_map]
  rw [buildRing, buildRing, hentries, hentries, h, maxWeight_congr h]

end

/-- What holds after the calls: the ring in the cache was built for one of them, and every result
is the one of a call that nobody disturbs. -/
structure HashInv (hash : String → Nat) (vnodes : Nat) (calls : List HashCall)
    (s : HashState) : Prop where
  cache : ∀ cached ∈ s.cache, ∃ d ∈ calls, d.hashKey.isSome ∧
    cached.signature = signature d.enabled ∧ cached.ring = buildRing hash vnodes d.enabled
  building : ∀ c ∈ s.building, c ∈ calls ∧ c.enabled ≠ [] ∧ c.hashKey.isSome
  results : ∀ p ∈ s.results, p.2 = undisturbed hash vnodes p.1

section invariant

variable {calls calls' : List HashCall} {s : HashState} {c : HashCall} {key : String}

lemma undisturbed_of_key (hne : c.enabled ≠ []) (hkey : c.hashKey = some key) :
    undisturbed hash vnodes c =
      fromRing hash (buildRing hash vnodes c.enabled) c.enabled key := by
  simp [undisturbed, hne, hkey]

section

variable (h : HashInv hash vnodes calls s)
include h

lemma HashInv.mono (hsub : calls ⊆ calls') :
    HashInv hash vnodes calls' s where
  cache cached hcached := by
    obtain ⟨d, hd, hspec⟩ := h.cache cached hcached
    exact ⟨d, hsub hd, hspec⟩
  building c hc := (h.building c hc).imp_left (hsub ·)
  results := h.results

lemma HashInv.answer {r : Option (Result UpstreamNodeDto)}
    (hr : r = undisturbed hash vnodes c) :
    HashInv hash vnodes calls (s.answer c r) where
  cache := h.cache
  building := h.building
  results p hp := by
    obtain hp | rfl := by simpa [HashState.answer] using hp
    · exact h.results p hp
    · exact hr

lemma HashInv.build (hc : c ∈ calls) (hne : c.enabled ≠ []) (hkey : c.hashKey.isSome) :
    HashInv hash vnodes calls { s with building := s.building ++ [c] } where
  cache := h.cache
  building d hd := by
    obtain hd | rfl := by simpa using hd
    · exact h.building d hd
    · exact ⟨hc, hne, hkey⟩
  results := h.results

lemma HashInv.ring_eq (hsame : SameOrder calls) (hc : c ∈ calls) (hkey : c.hashKey.isSome)
    {cached : RingCache} (hcached : s.cache = some cached)
    (hsig : cached.signature = signature c.enabled) :
    cached.ring = buildRing hash vnodes c.enabled := by
  obtain ⟨d, hd, hdkey, hdsig, hring⟩ := h.cache cached hcached
  rw [hring]
  exact buildRing_congr (hsame d hd c hc hdkey hkey (hdsig.symm.trans hsig))

lemma HashInv.enter (hsame : SameOrder (calls ++ [c])) :
    HashInv hash vnodes (calls ++ [c]) (enter hash s c) := by
  have h := h.mono (subset_append_left calls [c])
  have hc : c ∈ calls ++ [c] := mem_append_right _ mem_cons_self
  unfold ConsistentHash.enter look
  by_cases hne : c.enabled = []
  · rw [if_pos hne]
    exact h.answer (by simp [undisturbed, hne])
  · rw [if_neg hne]
    cases hkey : c.hashKey with
    | none => exact h.answer (by simp [undisturbed, hne, hkey])
    | some key =>
      have hsome : c.hashKey.isSome := by rw [hkey]; rfl
      have hbuild := h.build hc hne hsome
      cases hcached : s.cache with
      | none => rwa [hcached] at hbuild
      | some cached =>
        rw [hcached] at hbuild
        by_cases hsig : cached.signature = signature c.enabled
        · dsimp only
          rw [if_pos hsig]
          apply h.answer
          rw [undisturbed_of_key hne hkey, h.ring_eq hsame hc hsome hcached hsig]
        · dsimp only
          rwa [if_neg hsig]

lemma HashInv.stored (hsame : SameOrder calls) (hc : c ∈ calls) (hkey : c.hashKey.isSome) :
    (stored hash vnodes s.cache c).signature = signature c.enabled ∧
      (stored hash vnodes s.cache c).ring = buildRing hash vnodes c.enabled := by
  cases hcached : s.cache with
  | none => exact ⟨rfl, rfl⟩
  | some cached =>
    by_cases hsig : cached.signature = signature c.enabled
    · have hring := h.ring_eq hsame hc hkey hcached hsig
      simp [ConsistentHash.stored, hsig, hring]
    · simp [ConsistentHash.stored, hsig]

lemma HashInv.finish (hsame : SameOrder calls) (hc : c ∈ calls) (hne : c.enabled ≠ [])
    (hkey : c.hashKey = some key) :
    HashInv hash vnodes calls (finish hash vnodes s c key) := by
  have hsome : c.hashKey.isSome := by rw [hkey]; rfl
  obtain ⟨hsig, hring⟩ := h.stored hsame hc hsome
  have hcache : HashInv hash vnodes calls
      { s with cache := some (ConsistentHash.stored hash vnodes s.cache c) } :=
    { cache := by
        rintro cached hcached
        obtain rfl := some.inj hcached
        exact ⟨c, hc, hsome, hsig, hring⟩
      building := h.building
      results := h.results }
  apply hcache.answer
  rw [undisturbed_of_key hne hkey, hring]

end

lemma HashInv.step {s' : HashState} {e : HashEvent} (h : HashInv hash vnodes calls s)
    (hsame : SameOrder (calls ++ callsOf [e])) (hstep : step hash vnodes s e = some s') :
    HashInv hash vnodes (calls ++ callsOf [e]) s' := by
  cases e with
  | call c =>
    obtain rfl := some.inj hstep
    exact h.enter hsame
  | store i =>
    simp only [ConsistentHash.step, bind_eq_bind, bind_eq_some_iff, some.injEq] at hstep
    obtain ⟨c, hbuilding, key, hkey, rfl⟩ := hstep
    obtain ⟨hc, hne, -⟩ := h.building c (mem_of_getElem? hbuilding)
    have hnil : calls ++ callsOf [.store i] = calls := append_nil calls
    rw [hnil] at hsame ⊢
    have hrest : HashInv hash vnodes calls { s with building := s.building.eraseIdx i } :=
      { cache := h.cache
        building := fun c hc => h.building c (mem_of_mem_eraseIdx hc)
        results := h.results }
    exact hrest.finish hsame hc hne hkey

theorem HashInv.run {events : List HashEvent} (hsame : SameOrder (callsOf events))
    (h : run (ConsistentHash.step hash vnodes) new events = some s) :
    HashInv hash vnodes (callsOf events) s := by
  refine history_induction
    (P := fun events s => SameOrder (callsOf events) → HashInv hash vnodes (callsOf events) s)
    ?_ ?_ h hsame
  · intro _
    exact ⟨by simp [new], by simp [new], by simp [new]⟩
  · intro events t e t' _ ih hstep hsame
    have happend : callsOf (events ++ [e]) = callsOf events ++ callsOf [e] :=
      filterMap_append
    rw [happend] at hsame ⊢
    refine (ih ?_).step hsame hstep
    intro c hc d hd
    exact hsame c (mem_append_left _ hc) d (mem_append_left _ hd)

lemma HashInv.exists_store (h : HashInv hash vnodes calls s) (hi : i < s.building.length) :
    ∃ s', ConsistentHash.step hash vnodes s (.store i) = some s' := by
  have hget : s.building[i]? = some s.building[i] := getElem?_eq_getElem hi
  obtain ⟨-, -, hsome⟩ := h.building _ (getElem_mem hi)
  obtain ⟨key, hkey⟩ := isSome_iff_exists.mp hsome
  simp [ConsistentHash.step, hget, hkey]

end invariant

end ConsistentHash

open ConsistentHash

/-- In runs that keep to one order for each signature, every call can finish, and two calls with the
same key and the same nodes get the same node. -/
theorem consistentHash_select_unique (hash : String → Nat) (vnodes : Nat)
    (events events' : List HashEvent) (s s' : HashState)
    (hrun : run (step hash vnodes) new events = some s)
    (hrun' : run (step hash vnodes) new events' = some s')
    (hsame : SameOrder (callsOf events)) (hsame' : SameOrder (callsOf events')) :
    (∀ i < s.building.length, ∃ t, step hash vnodes s (.store i) = some t) ∧
    ∀ p ∈ s.results, ∀ p' ∈ s'.results, p.1.enabled.Perm p'.1.enabled →
      (∀ x ∈ vnodeKeys vnodes p.1.enabled, ∀ y ∈ vnodeKeys vnodes p.1.enabled,
        hash x = hash y → x = y) →
      ∀ key, p.1.hashKey = some key → p'.1.hashKey = some key →
      ∃ r : Result Nat,
        p.2.map (Except.map (·.id)) = some r ∧ p'.2.map (Except.map (·.id)) = some r := by
  have hinv := HashInv.run hsame hrun
  have hinv' := HashInv.run hsame' hrun'
  refine ⟨fun i hi => hinv.exists_store hi, ?_⟩
  intro p hp p' hp' hperm hdistinct key hkey hkey'
  rw [hinv.results p hp, hinv'.results p' hp']
  by_cases hempty : p.1.enabled = []
  · have hempty' : p'.1.enabled = [] := nil_perm.mp (hempty ▸ hperm)
    exact ⟨.error (.upstreamNotFound "no enabled nodes"), by simp [undisturbed, hempty, Except.map],
      by simp [undisturbed, hempty', Except.map]⟩
  · have hempty' : p'.1.enabled ≠ [] := fun hnil => hempty (perm_nil.mp (hnil ▸ hperm))
    obtain ⟨n, n', hn, hn', hid⟩ := owner_perm hperm hempty hdistinct key
    rw [undisturbed_of_key hempty hkey, undisturbed_of_key hempty' hkey', hn, hn']
    exact ⟨.ok n.id, rfl, by rw [hid]; rfl⟩

def hashNodeA : UpstreamNodeDto := ⟨1, 1, "a:80", 1, true⟩

def hashNodeB : UpstreamNodeDto := ⟨2, 1, "b:80", 1, true⟩

def clientCall (nodes : List UpstreamNodeDto) : HashCall := ⟨nodes, some "10.0.0.9"⟩

def seaHash (text : String) : Nat :=
  if text = "a:80#1#0" then 15937927775510381249
  else if text = "b:80#2#0" then 17708989677081026181
  else 3907866722806761193

theorem consistentHash_select_unique_two_nodes :
    ∃ s s', run (step seaHash 1) new
        [.call (clientCall [hashNodeA, hashNodeB]), .store 0] = some s ∧
      run (step seaHash 1) new
        [.call (clientCall [hashNodeB, hashNodeA]), .store 0] = some s' ∧
      ∀ p ∈ s.results, ∀ p' ∈ s'.results, ∃ r : Result Nat,
        p.2.map (Except.map (·.id)) = some r ∧ p'.2.map (Except.map (·.id)) = some r := by
  refine ⟨_, _, rfl, rfl, ?_⟩
  have hsame : ∀ c, SameOrder (callsOf [.call c, .store 0]) := by
    intro c d hd d' hd' _ _ _
    obtain rfl : d = c := by simpa [callsOf] using hd
    obtain rfl : d' = d := by simpa [callsOf] using hd'
    rfl
  have huniq := (consistentHash_select_unique seaHash 1 _ _ _ _ rfl rfl
    (hsame (clientCall [hashNodeA, hashNodeB])) (hsame (clientCall [hashNodeB, hashNodeA]))).2
  intro p hp p' hp'
  obtain rfl := mem_singleton.mp hp
  obtain rfl := mem_singleton.mp hp'
  exact huniq _ mem_cons_self _ mem_cons_self (List.Perm.swap _ _ _) (by decide)
    "10.0.0.9" rfl rfl

lemma other_node_of_other_order (hash : String → Nat) (vnodes : Nat) : ∃ s r r',
    run (step hash vnodes) new [.call (clientCall [hashNodeA, hashNodeB]), .store 0,
      .call (clientCall [hashNodeB, hashNodeA])] = some s ∧
    s.results = [(clientCall [hashNodeA, hashNodeB], r), (clientCall [hashNodeB, hashNodeA], r')] ∧
    r.map (Except.map (·.id)) ≠ r'.map (Except.map (·.id)) := by
  -- the second call finds its signature, and with it the positions in the first list
  refine ⟨_, fromRing hash (buildRing hash vnodes [hashNodeA, hashNodeB]) [hashNodeA, hashNodeB] _,
    fromRing hash (buildRing hash vnodes [hashNodeA, hashNodeB]) [hashNodeB, hashNodeA] _,
    rfl, rfl, ?_⟩
  have hne : [hashNodeA, hashNodeB] ≠ [] := cons_ne_nil _ _
  obtain ⟨idx, n, i, hidx, hpos, -⟩ := exists_position hash vnodes hne "10.0.0.9"
  rw [hpos, hpos]
  match idx with
  | 0 => simp [Except.map, hashNodeA, hashNodeB]
  | 1 => simp [Except.map, hashNodeA, hashNodeB]
  | idx + 2 => simp at hidx

theorem consistentHash_select_follows_order :
    (∀ x ∈ vnodeKeys 1 [hashNodeA, hashNodeB], ∀ y ∈ vnodeKeys 1 [hashNodeA, hashNodeB],
      seaHash x = seaHash y → x = y) ∧
    ∃ s r r',
      run (step seaHash 1) new [.call (clientCall [hashNodeA, hashNodeB]), .store 0,
        .call (clientCall [hashNodeB, hashNodeA])] = some s ∧
      s.results = [(clientCall [hashNodeA, hashNodeB], r),
        (clientCall [hashNodeB, hashNodeA], r')] ∧
      r.map (Except.map (·.id)) ≠ r'.map (Except.map (·.id)) :=
  ⟨by decide, other_node_of_other_order seaHash 1⟩

end Conrogate
