import Conrogate.Core.Dto
import Conrogate.Core.Error
import Conrogate.Lib.Keyed
import Mathlib.Data.Finset.Card
import Mathlib.Data.List.AList

/-!
# Weighted round robin

The table holds the current weights of node lists under a signature of the list. Each `select` holds
its lock from the first to the last access; a panic inside poisons it.
-/

namespace Conrogate

open List Keyed Option AList

def i32 (x : Int) : Int := x.bmod 0x100000000

def maxStates : Nat := 1024

structure WeightedRoundRobin where
  states : AList fun _ : String => List Int
  poisoned : Bool

namespace WeightedRoundRobin

def new : WeightedRoundRobin where
  states := ∅
  poisoned := false

def enabled (nodes : List UpstreamNodeDto) : List UpstreamNodeDto :=
  nodes.filter fun n => n.enabled && 0 < n.weight

def signature (nodes : List UpstreamNodeDto) : String :=
  sortedJoin (nodes.map fun n => n.address ++ ":" ++ toString n.weight)

section turn

-- how the sums are stored
variable (wrap : Int → Int)

def totalWeight (nodes : List UpstreamNodeDto) : Int :=
  nodes.foldl (fun sum n => wrap (sum + n.weight)) 0

def addWeights : List Int → List UpstreamNodeDto → Option (List Int)
  | current, [] => some current
  | w :: current, n :: ns => (addWeights current ns).map (wrap (w + n.weight) :: ·)
  | [], _ :: _ => none

def laterMax (best : Option (Int × Nat)) (x : Int × Nat) : Option (Int × Nat) :=
  match best with
  | some b => if b.1 ≤ x.1 then some x else some b
  | none   => some x

def maxIdx (current : List Int) : Nat :=
  ((current.zipIdx.foldl laterMax none).map Prod.snd).getD 0

def turn (current : List Int) (nodes : List UpstreamNodeDto) :
    Option (List Int × UpstreamNodeDto) := do
  let current ← addWeights wrap current nodes
  let weight ← current[maxIdx current]?
  let node ← nodes[maxIdx current]?
  some (current.set (maxIdx current) (wrap (weight - totalWeight wrap nodes)), node)

def select (lb : WeightedRoundRobin) (nodes : List UpstreamNodeDto) :
    WeightedRoundRobin × Option (Result UpstreamNodeDto) :=
  let nodes := enabled nodes
  if nodes = [] then
    (lb, some (.error (.upstreamNotFound "no enabled weighted nodes")))
  else if lb.poisoned then (lb, none)
  else
    let sig := signature nodes
    let states := if maxStates ≤ lb.states.entries.length ∧ sig ∉ lb.states then ∅ else lb.states
    match turn wrap ((states.lookup sig).getD (replicate nodes.length 0)) nodes with
    | some (current, node) =>
      ({ states := states.insert sig current, poisoned := false }, some (.ok node))
    -- what the panic leaves in the table is behind the poisoned lock
    | none => ({ states := states, poisoned := true }, none)

end turn

end WeightedRoundRobin

structure WeightedCall where
  upstream : Nat
  nodes : List UpstreamNodeDto

def WeightedRoundRobin.selects (wrap : Int → Int) : WeightedRoundRobin → List WeightedCall →
    List (WeightedCall × Option (Result UpstreamNodeDto))
  | _, [] => []
  | lb, c :: cs => (c, (lb.select wrap c.nodes).2) :: selects wrap (lb.select wrap c.nodes).1 cs

namespace WeightedRoundRobin

/-! ### One turn -/

section turn

variable {wrap : Int → Int} {current current' : List Int} {nodes : List UpstreamNodeDto}
  {node : UpstreamNodeDto}

lemma length_addWeights (h : addWeights wrap current nodes = some current') :
    current'.length = current.length := by
  induction current, nodes using addWeights.induct generalizing current' with
  | case1 current => simp_all [addWeights]
  | case2 w current n ns ih =>
    obtain ⟨rest, hrest, rfl⟩ := map_eq_some_iff.mp h
    simp [ih hrest]
  | case3 n ns => simp [addWeights] at h

variable (wrap) in
lemma exists_addWeights (h : nodes.length ≤ current.length) :
    ∃ current', addWeights wrap current nodes = some current' := by
  induction current, nodes using addWeights.induct with
  | case1 current => exact ⟨current, by rw [addWeights]⟩
  | case2 w current n ns ih =>
    obtain ⟨rest, hrest⟩ := ih (by simpa using h)
    exact ⟨_, map_eq_some_iff.mpr ⟨rest, hrest, rfl⟩⟩
  | case3 n ns => simp at h

lemma maxIdx_lt (h : current ≠ []) : maxIdx current < current.length := by
  have hbest : ∀ b ∈ current.zipIdx.foldl laterMax none, b.2 < current.length := by
    refine foldlRecOn current.zipIdx laterMax
      (motive := fun best => ∀ b ∈ best, b.2 < current.length) ?_ ?_
    · simp
    · intro best hbest x hx b hb
      have hxlt : x.2 < current.length := by simpa using snd_lt_of_mem_zipIdx hx
      cases best with
      | none =>
        obtain rfl : x = b := by simpa [laterMax] using hb
        exact hxlt
      | some c =>
        have hb : (if c.1 ≤ x.1 then some x else some c) = some b := hb
        split at hb
        · obtain rfl : x = b := by simpa using hb
          exact hxlt
        · exact hbest b hb
  rw [maxIdx]
  cases hmax : current.zipIdx.foldl laterMax none with
  | none => simpa [length_pos_iff] using h
  | some b => simpa using hbest b (by simp [hmax])

lemma length_turn (h : turn wrap current nodes = some (current', node)) :
    current'.length = current.length := by
  simp only [turn, bind_eq_bind, bind_eq_some_iff, some.injEq, Prod.mk.injEq] at h
  obtain ⟨added, hadded, weight, hweight, n, hn, rfl, rfl⟩ := h
  rw [length_set, length_addWeights hadded]

variable (wrap) in
lemma exists_turn (hlen : current.length = nodes.length) (hne : nodes ≠ []) :
    ∃ current' node, turn wrap current nodes = some (current', node) := by
  obtain ⟨added, hadded⟩ := exists_addWeights wrap hlen.ge
  have hlen' : added.length = nodes.length := (length_addWeights hadded).trans hlen
  have hidx : maxIdx added < added.length :=
    maxIdx_lt (by rw [← length_pos_iff, hlen', length_pos_iff]; exact hne)
  have hidx' : maxIdx added < nodes.length := hlen' ▸ hidx
  simp [turn, hadded, getElem?_eq_getElem hidx, getElem?_eq_getElem hidx']

lemma mem_of_turn (h : turn wrap current nodes = some (current', node)) : node ∈ nodes := by
  simp only [turn, bind_eq_bind, bind_eq_some_iff, some.injEq, Prod.mk.injEq] at h
  obtain ⟨added, -, weight, -, n, hn, -, rfl⟩ := h
  exact mem_of_getElem? hn

lemma mem_of_select_eq_ok {lb : WeightedRoundRobin}
    (h : (lb.select wrap nodes).2 = some (.ok node)) :
    node ∈ nodes ∧ node.enabled = true := by
  have hmem : node ∈ enabled nodes := by
    rw [select] at h
    split at h
    · cases h
    · split at h
      · cases h
      · extract_lets sig states at h
        split at h
        · next current n hturn =>
          obtain rfl : n = node := by simpa using h
          exact mem_of_turn hturn
        · cases h
  obtain ⟨hnode, henabled⟩ := mem_filter.mp hmem
  rw [Bool.and_eq_true] at henabled
  exact ⟨hnode, henabled.1⟩

lemma turn_alone (hwrap : wrap 0 = 0) (n : UpstreamNodeDto) :
    turn wrap [0] [n] = some ([0], n) := by
  have hidx : ∀ w, maxIdx [w] = 0 := fun _ => rfl
  simp [turn, addWeights, totalWeight, hidx, hwrap]

end turn

/-! ### The table as independent states -/

section table

variable (wrap : Int → Int)

def machine : Keyed String (List Int) WeightedCall (Result UpstreamNodeDto) where
  idle c :=
    if enabled c.nodes = [] then some (.error (.upstreamNotFound "no enabled weighted nodes"))
    else none
  key c := signature (enabled c.nodes)
  start c := replicate (enabled c.nodes).length 0
  turn current c := (turn wrap current (enabled c.nodes)).map fun r => (r.1, .ok r.2)

/-- What a later `select` finds, unless the lock is poisoned. -/
def table (lb : WeightedRoundRobin) : Option (String → Option (List Int)) :=
  if lb.poisoned then none else some fun sig => lb.states.lookup sig

variable {wrap} {lb : WeightedRoundRobin} {c : WeightedCall} {cs : List WeightedCall}

variable (wrap) in
lemma machine_idle_eq_none : (machine wrap).idle c = none ↔ enabled c.nodes ≠ [] := by
  simp [machine]

lemma machine_turn (current : List Int) (c : WeightedCall) : (machine wrap).turn current c =
    (turn wrap current (enabled c.nodes)).map fun r => (r.1, .ok r.2) := rfl

lemma lookup_insert_eq_update (states : AList fun _ : String => List Int) (sig : String)
    (current : List Int) : (fun k => (states.insert sig current).lookup k) =
      Function.update (fun k => states.lookup k) sig (some current) := by
  funext k
  by_cases h : k = sig
  · subst h
    simp
  · simp [lookup_insert_ne h, Function.update_of_ne h]

lemma select_eq_next (hnodes : enabled c.nodes ≠ [])
    (hroom : ¬ (maxStates ≤ lb.states.entries.length ∧ signature (enabled c.nodes) ∉ lb.states)) :
    ((lb.select wrap c.nodes).1.table, (lb.select wrap c.nodes).2) =
      (machine wrap).next lb.table c := by
  have hidle := (machine_idle_eq_none wrap).mpr hnodes
  rw [select, if_neg hnodes]
  cases hpoisoned : lb.poisoned with
  | true => simp [table, hpoisoned, next_broken hidle]
  | false =>
    have htable : lb.table = some fun sig => lb.states.lookup sig := by simp [table, hpoisoned]
    have hread : (machine wrap).read c (fun sig => lb.states.lookup sig) =
        (lb.states.lookup (signature (enabled c.nodes))).getD
          (replicate (enabled c.nodes).length 0) := rfl
    rw [htable, next_some hidle, serve, hread, machine_turn]
    simp only [Bool.false_eq_true, if_false, if_neg hroom]
    cases turn wrap ((lb.states.lookup (signature (enabled c.nodes))).getD
        (replicate (enabled c.nodes).length 0)) (enabled c.nodes) with
    | none => simp [table]
    | some r => simp [table, lookup_insert_eq_update, machine]

def signatures (cs : List WeightedCall) : Finset String :=
  ((cs.filter fun c => enabled c.nodes ≠ []).map fun c => signature (enabled c.nodes)).toFinset

variable {sig : String}

lemma mem_signatures : sig ∈ signatures cs ↔
    ∃ c ∈ cs, enabled c.nodes ≠ [] ∧ signature (enabled c.nodes) = sig := by
  simp [signatures, and_assoc]

lemma signatures_subset {cs' : List WeightedCall} (h : cs ⊆ cs') :
    signatures cs ⊆ signatures cs' := by
  intro sig hsig
  obtain ⟨c, hc, hne, heq⟩ := mem_signatures.mp hsig
  exact mem_signatures.mpr ⟨c, h hc, hne, heq⟩

lemma mem_states_select (h : sig ∈ (lb.select wrap c.nodes).1.states) :
    sig ∈ lb.states ∨ enabled c.nodes ≠ [] ∧ sig = signature (enabled c.nodes) := by
  have hclear : ∀ p : Prop, [Decidable p] → sig ∈ (if p then ∅ else lb.states) →
      sig ∈ lb.states := by
    intro p _ hsig
    split at hsig
    · exact absurd hsig (notMem_empty sig)
    · exact hsig
  rw [select] at h
  split at h
  · exact .inl h
  · next hne =>
    split at h
    · exact .inl h
    · dsimp only at h
      split at h
      · obtain rfl | h := (mem_insert _).mp h
        · exact .inr ⟨hne, rfl⟩
        · exact .inl (hclear _ h)
      · exact .inl (hclear _ h)

variable {S : Finset String}

lemma room_of_keys (hkeys : ∀ k ∈ lb.states, k ∈ S) (hmem : sig ∈ S) (hS : S.card ≤ maxStates) :
    ¬ (maxStates ≤ lb.states.entries.length ∧ sig ∉ lb.states) := by
  rintro ⟨hfull, hnew⟩
  have hlt : lb.states.keys.toFinset.card < S.card := by
    refine Finset.card_lt_card ⟨fun k hk => hkeys k ?_, fun hsub => hnew ?_⟩
    · exact mem_keys.mpr (mem_toFinset.mp hk)
    · exact AList.mem_keys.mpr (mem_toFinset.mp (hsub hmem))
  rw [toFinset_card_of_nodup lb.states.keys_nodup, AList.keys, List.keys, length_map] at hlt
  omega

variable (wrap) in
lemma select_eq_next_of_fits (hS : S.card ≤ maxStates) (hkeys : ∀ k ∈ lb.states, k ∈ S)
    (hmem : enabled c.nodes ≠ [] → signature (enabled c.nodes) ∈ S) :
    ((lb.select wrap c.nodes).1.table, (lb.select wrap c.nodes).2) =
      (machine wrap).next lb.table c := by
  by_cases hnodes : enabled c.nodes = []
  · have hidle : (machine wrap).idle c = some (.error (.upstreamNotFound
        "no enabled weighted nodes")) := if_pos hnodes
    rw [next_idle hidle, select, if_pos hnodes]
  · exact select_eq_next hnodes (room_of_keys hkeys (hmem hnodes) hS)

theorem selects_eq_outputs (hS : S.card ≤ maxStates) (hkeys : ∀ k ∈ lb.states, k ∈ S)
    (hcs : signatures cs ⊆ S) :
    selects wrap lb cs = (machine wrap).outputs lb.table cs := by
  induction cs generalizing lb with
  | nil => rfl
  | cons c cs ih =>
    have hmem : enabled c.nodes ≠ [] → signature (enabled c.nodes) ∈ S := fun hne =>
      hcs (mem_signatures.mpr ⟨c, mem_cons_self, hne, rfl⟩)
    have hkeys' : ∀ k ∈ (lb.select wrap c.nodes).1.states, k ∈ S := by
      intro k hk
      obtain hk | ⟨hne, rfl⟩ := mem_states_select hk
      · exact hkeys k hk
      · exact hmem hne
    have hrest : signatures cs ⊆ S := (signatures_subset (subset_cons_self c cs)).trans hcs
    have hnext := select_eq_next_of_fits wrap hS hkeys hmem
    rw [selects, outputs, ← hnext, ih hkeys' hrest]

/-! ### Where the weights come from -/

/-- A vector that a call with nodes can work on after some calls: it is as long as the node list
of one of them with the same signature, and a single weight is zero. -/
def Grown (cs : List WeightedCall) (sig : String) (current : List Int) : Prop :=
  (∃ d ∈ cs, enabled d.nodes ≠ [] ∧ signature (enabled d.nodes) = sig ∧
    current.length = (enabled d.nodes).length) ∧
  (current.length = 1 → current = [0])

lemma Grown.append {current : List Int} (h : Grown cs sig current) (cs' : List WeightedCall) :
    Grown (cs ++ cs') sig current := by
  obtain ⟨⟨d, hd, hne, hsig, hlen⟩, hone⟩ := h
  exact ⟨⟨d, mem_append_left _ hd, hne, hsig, hlen⟩, hone⟩

def TableGrown (cs : List WeightedCall) (s : Option (String → Option (List Int))) : Prop :=
  ∀ t ∈ s, ∀ sig, ∀ current ∈ t sig, Grown cs sig current

lemma Grown.start (hne : enabled c.nodes ≠ []) :
    Grown (cs ++ [c]) ((machine wrap).key c) ((machine wrap).start c) := by
  refine ⟨⟨c, by simp, hne, rfl, by simp [machine]⟩, fun hone => ?_⟩
  simp only [machine, length_replicate] at hone ⊢
  simp [hone]

variable (wrap) in
lemma TableGrown.read {t : String → Option (List Int)} (h : TableGrown cs (some t))
    (hne : enabled c.nodes ≠ []) :
    Grown (cs ++ [c]) ((machine wrap).key c) ((machine wrap).read c t) := by
  rw [Keyed.read]
  cases hfound : t ((machine wrap).key c) with
  | none => exact Grown.start hne
  | some current => exact (h t rfl _ current hfound).append _

lemma Grown.turn (hwrap : wrap 0 = 0) {current current' : List Int} {nodes : List UpstreamNodeDto}
    {node : UpstreamNodeDto} (h : Grown cs sig current) (hne : nodes ≠ [])
    (hturn : turn wrap current nodes = some (current', node)) :
    Grown cs sig current' := by
  obtain ⟨⟨d, hd, hdne, hsig, hlen⟩, hone⟩ := h
  have hlen' := length_turn hturn
  refine ⟨⟨d, hd, hdne, hsig, hlen'.trans hlen⟩, fun hone' => ?_⟩
  rw [hone (hlen'.symm.trans hone')] at hturn
  match nodes with
  | [n] =>
    rw [turn_alone hwrap, some.injEq, Prod.mk.injEq] at hturn
    exact hturn.1.symm
  | n :: n' :: ns => simp [WeightedRoundRobin.turn, addWeights] at hturn

lemma TableGrown.next (hwrap : wrap 0 = 0) {s : Option (String → Option (List Int))}
    (h : TableGrown cs s) : TableGrown (cs ++ [c]) ((machine wrap).next s c).1 := by
  have hold : TableGrown (cs ++ [c]) s := fun t ht sig current hc =>
    (h t ht sig current hc).append _
  cases hidle : (machine wrap).idle c with
  | some o => rwa [next_idle hidle]
  | none =>
    have hne := (machine_idle_eq_none wrap).mp hidle
    cases s with
    | none => rwa [next_broken hidle]
    | some t =>
      rw [next_some hidle]
      intro t' ht' sig current hcurrent
      obtain ⟨r, hr, rfl⟩ := map_eq_some_iff.mp ht'
      obtain ⟨⟨current', node⟩, hturn, rfl⟩ := map_eq_some_iff.mp hr
      by_cases hsig : sig = (machine wrap).key c
      · subst hsig
        obtain rfl : current' = current := by simpa using hcurrent
        exact (h.read wrap hne).turn hwrap hne hturn
      · rw [Function.update_of_ne hsig] at hcurrent
        exact hold t rfl sig current hcurrent

/-! ### Selects of other upstreams -/

/-- No `select` of another upstream gets in the way of a later one of the upstream: it works on a
vector of the right length, and if the two have the same signature there is just one node. -/
def Apart (upstream : Nat) (cs : List WeightedCall) : Prop :=
  ∀ before c after, cs = before ++ c :: after → c.upstream ≠ upstream → enabled c.nodes ≠ [] →
    ∀ c' ∈ after, c'.upstream = upstream → enabled c'.nodes ≠ [] →
      (∀ d ∈ before, enabled d.nodes ≠ [] →
        signature (enabled d.nodes) = signature (enabled c.nodes) →
        (enabled d.nodes).length = (enabled c.nodes).length) ∧
      (signature (enabled c'.nodes) = signature (enabled c.nodes) →
        (enabled c.nodes).length = 1 ∧ (enabled c'.nodes).length = 1)

lemma read_alone {t : String → Option (List Int)} {c' : WeightedCall}
    (hone : (enabled c'.nodes).length = 1) (hkey : (machine wrap).key c' = (machine wrap).key c)
    (hread : (machine wrap).read c t = [0]) : (machine wrap).read c' t = [0] := by
  rw [Keyed.read] at hread ⊢
  rw [hkey]
  cases hfound : t ((machine wrap).key c) with
  | none => simp [machine, hone]
  | some current => simpa [hfound] using hread

lemma quiet_of_apart (hwrap : wrap 0 = 0) {a : Nat} {all : List WeightedCall} (hapart : Apart a all)
    {before : List WeightedCall} (hall : all = before ++ cs)
    {s : Option (String → Option (List Int))} (hs : TableGrown before s) :
    (machine wrap).Quiet (fun c => c.upstream == a) s cs := by
  induction cs generalizing before s with
  | nil => trivial
  | cons c cs ih =>
    refine ⟨?_, ih (by simp [hall]) (hs.next hwrap)⟩
    intro hother c' hc' hkeep hidle'
    cases hidle : (machine wrap).idle c with
    | some o => rw [next_idle hidle]
    | none =>
      cases s with
      | none => rw [next_broken hidle]
      | some t =>
        have hne := (machine_idle_eq_none wrap).mp hidle
        obtain ⟨hbefore, hsame⟩ := hapart before c cs hall (by simpa using hother) hne c' hc'
          (by simpa using hkeep) ((machine_idle_eq_none wrap).mp hidle')
        have hread := hs.read wrap hne
        have hlen : ((machine wrap).read c t).length = (enabled c.nodes).length := by
          obtain ⟨⟨d, hd, hdne, hdsig, hdlen⟩, -⟩ := hread
          obtain hd | rfl := by simpa using hd
          · exact hdlen.trans (hbefore d hd hdne hdsig)
          · exact hdlen
        obtain ⟨current, node, hturn⟩ := exists_turn wrap hlen hne
        have hturn' : (machine wrap).turn ((machine wrap).read c t) c =
            some (current, .ok node) := by simp [machine_turn, hturn]
        refine next_unseen hidle hturn' fun hkey => ?_
        obtain ⟨hone, hone'⟩ := hsame hkey
        have hcurrent : current = [0] :=
          (hread.turn hwrap hne hturn).2 ((length_turn hturn).trans (hlen.trans hone))
        rw [hcurrent]
        exact read_alone hone' hkey (hread.2 (hlen.trans hone))

end table

end WeightedRoundRobin

open WeightedRoundRobin

/-- Within the limit of the table, what is chosen for an upstream does not depend on the selects
of other upstreams that keep apart from it. -/
theorem weighted_selects_independent (upstream : Nat) (cs : List WeightedCall)
    (hfit : (signatures cs).card ≤ maxStates) (hapart : Apart upstream cs) :
    (selects i32 new cs).filter (fun r => r.1.upstream == upstream) =
      selects i32 new (cs.filter fun c => c.upstream == upstream) := by
  have hkeys : ∀ k ∈ new.states, k ∈ signatures cs := fun k hk => absurd hk (AList.notMem_empty k)
  have hsub : signatures (cs.filter fun c => c.upstream == upstream) ⊆ signatures cs :=
    signatures_subset (filter_subset_self cs)
  have hempty : TableGrown [] new.table := by
    intro t ht sig current hcurrent
    obtain rfl : (fun k => new.states.lookup k) = t := by simpa [table, new] using ht
    simp [new] at hcurrent
  have hquiet : (machine i32).Quiet (fun c => c.upstream == upstream) new.table cs :=
    quiet_of_apart (by decide) hapart rfl hempty
  rw [selects_eq_outputs hfit hkeys (Finset.Subset.refl _), selects_eq_outputs hfit hkeys hsub]
  exact Keyed.outputs_filter hquiet fun _ _ _ _ => rfl

def twoReplicas (upstream : Nat) (first second : String) : List UpstreamNodeDto :=
  [⟨2 * upstream, upstream, first, 1, true⟩, ⟨2 * upstream + 1, upstream, second, 1, true⟩]

theorem weighted_selects_independent_other_replicas :
    let cs : List WeightedCall := [⟨1, twoReplicas 1 "a:80" "b:80"⟩,
      ⟨2, twoReplicas 2 "c:80" "d:80"⟩, ⟨1, twoReplicas 1 "b:80" "a:80"⟩]
    (selects i32 new cs).filter (fun r => r.1.upstream == 1) =
      selects i32 new (cs.filter fun c => c.upstream == 1) := by
  intro cs
  refine weighted_selects_independent 1 cs (by decide) ?_
  intro before c after heq hc _ c' hc' hup _
  -- the second call is the only one of another upstream
  match before with
  | [] =>
    obtain ⟨rfl, rfl⟩ : _ = c ∧ _ = after := by simpa [cs] using heq
    exact absurd rfl hc
  | [d] =>
    obtain ⟨rfl, rfl, rfl⟩ : _ = d ∧ _ = c ∧ _ = after := by simpa [cs] using heq
    obtain rfl := mem_singleton.mp hc'
    exact ⟨by decide, by decide⟩
  | [d, d'] =>
    obtain ⟨-, -, -, rfl⟩ : _ = d ∧ _ = d' ∧ _ = c ∧ after = [] := by simpa [cs] using heq
    simp at hc'
  | d :: d' :: d'' :: rest => simp [cs] at heq

def chosenId : Option (Result UpstreamNodeDto) → Option Nat
  | some (.ok node) => some node.id
  | _ => none

theorem weighted_select_counts_for_other_upstream :
    let cs : List WeightedCall := [⟨2, twoReplicas 2 "a:80" "b:80"⟩,
      ⟨1, twoReplicas 1 "a:80" "b:80"⟩]
    (signatures cs).card ≤ maxStates ∧
      (selects i32 new cs).filter (fun r => r.1.upstream == 1) ≠
        selects i32 new (cs.filter fun c => c.upstream == 1) := by
  refine ⟨by decide, fun heq => ?_⟩
  have hids := congrArg (fun rs => rs.map fun r => chosenId r.2) heq
  revert hids
  decide

end Conrogate
