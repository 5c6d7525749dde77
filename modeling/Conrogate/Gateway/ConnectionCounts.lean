import Conrogate.Gateway.Selector

/-!
# The counts of the least connections

The counts are the numbers of selects that have not been released, as long as no select forgets an
address in use and a release finds the algorithm of its select.
-/

namespace Conrogate

open List SelectorState SelectStage Option Function Transition

def SelectStage.holds : SelectStage → Option (Nat × String)
  | .returned r (some (.ok node)) =>
    if r.algorithm = .leastConnections then some (node.upstreamId, node.address) else none
  | .releasing r node _ =>
    if r.algorithm = .leastConnections then some (node.upstreamId, node.address) else none
  | _ => none

def SelectorState.live (s : SelectorState) (upstream : Nat) (address : String) : Nat :=
  s.calls.countP (·.stage.holds = some (upstream, address))

def Selection.addresses (r : Selection) : List String :=
  (r.candidates.filter (·.enabled)).map (·.address)

/-- The nodes of the upstreams carry their ids. A select has all addresses of its upstream that are
in use among its candidates. A release finds the algorithm of the select. -/
def SelectorState.Orderly (s : SelectorState) : SelectorEvent → Prop
  | .loadUpstreams upstreams => ∀ up ∈ upstreams, ∀ n ∈ up.nodes, n.upstreamId = up.id
  | .balance i => ∀ call ∈ s.calls[i]?, ∀ r ∈ call.stage.selection,
    r.algorithm = .leastConnections → ∀ held ∈ s.calls.filterMap (·.stage.holds),
      some held.1 = call.route.upstreamId → held.2 ∈ r.addresses
  | .readAlgorithm i => ∀ call ∈ s.calls[i]?, ∀ r ∈ call.stage.selection,
    ((call.route.upstreamId.bind s.upstreams).map Prod.fst = some .leastConnections ↔
      r.algorithm = .leastConnections)
  | _ => True

instance (s : SelectorState) : (e : SelectorEvent) → Decidable (s.Orderly e)
  | .loadUpstreams upstreams =>
    inferInstanceAs (Decidable (∀ up ∈ upstreams, ∀ n ∈ up.nodes, n.upstreamId = up.id))
  | .balance i => inferInstanceAs (Decidable (∀ call ∈ s.calls[i]?, ∀ r ∈ call.stage.selection,
    r.algorithm = .leastConnections → ∀ held ∈ s.calls.filterMap (·.stage.holds),
      some held.1 = call.route.upstreamId → held.2 ∈ r.addresses))
  | .readAlgorithm i => inferInstanceAs (Decidable (∀ call ∈ s.calls[i]?,
    ∀ r ∈ call.stage.selection,
      ((call.route.upstreamId.bind s.upstreams).map Prod.fst = some .leastConnections ↔
        r.algorithm = .leastConnections)))
  | .mark _ | .begin _ _ | .check _ _ | .store _ | .release _ => isTrue trivial

structure SelectCall.Tidy (call : SelectCall) : Prop where
  nodes : ∀ r ∈ call.stage.selection, ∀ n, n ∈ r.nodes ∨ n ∈ call.stage.pending ∨
    (∃ c ∈ r.checks, c.node = n) → some n.upstreamId = call.route.upstreamId
  building : ∀ r, call.stage = .building r → r.algorithm ≠ .leastConnections
  releasing : ∀ r node algorithm, call.stage = .releasing r node algorithm →
    (algorithm = .leastConnections ↔ r.algorithm = .leastConnections)

/-- Each count is the number of selections not yet released. -/
structure Counted (s : SelectorState) : Prop where
  table : ∀ id entry, s.upstreams id = some entry → ∀ n ∈ entry.2, n.upstreamId = id
  calls : ∀ call ∈ s.calls, call.Tidy
  counts : ∀ u a, s.leastConnections.connections u a = s.live u a

lemma exists_of_loadUpstreams {upstreams : List UpstreamDto} {id : Nat}
    {entry : BalancerAlgorithm × List UpstreamNodeDto}
    (h : loadUpstreams upstreams id = some entry) :
    ∃ up ∈ upstreams, up.id = id ∧ entry = (up.algorithm, up.nodes) := by
  induction upstreams using List.reverseRecOn with
  | nil => cases h
  | append_singleton ups up ih =>
    rw [loadUpstreams, foldl_concat, ← loadUpstreams] at h
    by_cases hid : id = up.id
    · subst hid
      rw [update_self] at h
      exact ⟨up, by simp, rfl, (some.inj h).symm⟩
    · rw [update_of_ne hid] at h
      obtain ⟨up', hup', hspec⟩ := ih h
      exact ⟨up', mem_append_left _ hup', hspec⟩

variable {rest : List UpstreamNodeDto} {first : UpstreamNodeDto}

namespace LeastConnections

lemma connections_select (lb : LeastConnections) {nodes : List UpstreamNodeDto}
    (h : nodes.filter (·.enabled) = first :: rest) :
    ∃ selected ∈ first :: rest, (lb.select nodes).2 = .ok selected ∧
      ∀ u a, (lb.select nodes).1.connections u a = if u = first.upstreamId then
        lb.counts u (first :: rest) a + (if a = selected.address then 1 else 0)
        else lb.connections u a := by
  refine ⟨_, leastBusy_mem, by simp only [select, h]; rfl, ?_⟩
  intro u a
  simp only [select, h]
  by_cases hu : u = first.upstreamId
  · subst hu
    by_cases ha : a = (leastBusy (lb.counts first.upstreamId (first :: rest)) first rest).address
    · subst ha
      simp
    · simp [ha]
  · simp [hu]

lemma connections_release (lb : LeastConnections) (node : UpstreamNodeDto) (u : Nat) (a : String) :
    (lb.release node).connections u a = lb.connections u a -
      (decide (some (node.upstreamId, node.address) = some (u, a))).toNat := by
  simp only [release, some.injEq, Prod.mk.injEq]
  by_cases hu : u = node.upstreamId
  · subst hu
    by_cases ha : a = node.address
    · subst ha
      simp
    · simp [update_of_ne ha, Ne.symm ha]
  · simp [update_of_ne hu, Ne.symm hu]

end LeastConnections

section

variable {env : SelectorEnv} {s t : SelectorState} {e : SelectorEvent} {i : Nat}
  {call : SelectCall} {stage : SelectStage} {r : Selection}

lemma SelectStage.holds_returned_of_ne (h : r.algorithm ≠ .leastConnections)
    (result : Option (Result UpstreamNodeDto)) :
    (returned r result).holds = none := by
  rcases result with _ | _ | node
  · rfl
  · rfl
  · exact if_neg h

lemma live_move (hcall : s.calls[i]? = some call) (u : Nat) (a : String) :
    (s.move i call stage).live u a + (decide (call.stage.holds = some (u, a))).toNat =
      s.live u a + (decide (stage.holds = some (u, a))).toNat :=
  Calls.countP_set_add hcall

lemma live_move_of_eq (hcall : s.calls[i]? = some call) (heq : stage.holds = call.stage.holds)
    (u : Nat) (a : String) : (s.move i call stage).live u a = s.live u a := by
  have hlive : (s.move i call stage).live u a + _ = s.live u a + _ := live_move hcall u a
  rw [heq] at hlive
  omega

lemma Counted.move (h : Counted s) (hcall : s.calls[i]? = some call)
    (htidy : SelectCall.Tidy ⟨call.route, call.key, stage⟩)
    (heq : stage.holds = call.stage.holds) : Counted (s.move i call stage) where
  table := h.table
  calls := Calls.forall_mem_set h.calls htidy
  counts u a := by
    rw [live_move_of_eq hcall heq]
    exact h.counts u a

lemma SelectCall.Tidy.proceed (h : call.Tidy) (hr : call.stage.selection = some r)
    (hstage : stage.selection = some r) (hpending : stage.pending = [])
    (hbuilding : ∀ r, stage = .building r → r.algorithm ≠ .leastConnections)
    (hreleasing : ∀ r node algorithm, stage = .releasing r node algorithm →
      (algorithm = .leastConnections ↔ r.algorithm = .leastConnections)) :
    SelectCall.Tidy ⟨call.route, call.key, stage⟩ where
  nodes r' hr' n hn := by
    obtain rfl : r = r' := some.inj (hstage.symm.trans hr')
    rw [hpending] at hn
    exact h.nodes r hr n (hn.imp_right fun hn => .inr (hn.resolve_left not_mem_nil))
  building := hbuilding
  releasing := hreleasing

lemma Counted.tidy (h : Counted s) (hcall : s.calls[i]? = some call) : call.Tidy :=
  h.calls call (mem_of_getElem? hcall)

lemma SelectCall.Tidy.candidates (h : call.Tidy) (hr : call.stage.selection = some r)
    {n : UpstreamNodeDto} (hn : n ∈ r.candidates) : some n.upstreamId = call.route.upstreamId := by
  rw [Selection.candidates] at hn
  split at hn
  · exact h.nodes r hr n (.inl hn)
  · obtain ⟨c, hc, rfl⟩ := mem_map.mp hn
    exact h.nodes r hr c.node (.inr (.inr ⟨c, mem_of_mem_filter hc, rfl⟩))

lemma Counted.begin (h : Counted s) (route : RouteSnapshot) (key : Option String) :
    Counted { s with calls := s.calls ++ [⟨route, key, s.beginStage env route⟩] } where
  table := h.table
  calls := by
    rw [forall_mem_append]
    refine ⟨h.calls, ?_⟩
    intro call hcall
    obtain rfl := mem_singleton.mp hcall
    rw [beginStage]
    split
    · exact ⟨by simp [selection], by simp, by simp⟩
    · next id hid =>
      split
      · exact ⟨by simp [selection], by simp, by simp⟩
      · next algorithm nodes htable =>
        refine ⟨?_, by simp, by simp⟩
        intro r hr n hn
        obtain rfl := some.inj hr
        have hmem : n ∈ nodes := by
          obtain hn | hn | ⟨c, hc, -⟩ := hn
          · exact hn
          · simp only [pending] at hn
            split at hn
            · exact mem_of_mem_filter hn
            · cases hn
          · cases hc
        rw [hid, h.table id _ htable n hmem]
  counts u a := by
    have hholds : (s.beginStage env route).holds = none := by
      rw [beginStage]
      split
      · rfl
      · split <;> rfl
    rw [live, countP_append]
    simpa [hholds, live] using h.counts u a

section

variable (h : Counted s) (hcall : s.calls[i]? = some call)
include h hcall

lemma Counted.check {x : UpstreamNodeDto} (hstage : call.stage = .filtering r (x :: rest))
    {c : HealthCheck} (hc : c.node = x) :
    Counted (s.move i call (.filtering { r with checks := r.checks ++ [c] } rest)) := by
  have hr : call.stage.selection = some r := by rw [hstage]; rfl
  have hpending : call.stage.pending = x :: rest := by rw [hstage]; rfl
  refine h.move hcall ⟨?_, by simp, by simp⟩ (by rw [hstage]; rfl)
  intro r' hr' n hn
  obtain rfl := some.inj hr'
  apply (h.tidy hcall).nodes r hr n
  rw [hpending]
  obtain hn | hn | ⟨d, hd, rfl⟩ := hn
  · exact .inl hn
  · exact .inr (.inl (mem_cons_of_mem _ hn))
  · obtain hd | rfl := by simpa using hd
    · exact .inr (.inr ⟨d, hd, rfl⟩)
    · exact .inr (.inl (by simp [hc]))

lemma Counted.counts_eq (hr : call.stage.selection = some r)
    (halgorithm : r.algorithm = .leastConnections) (hok : s.Orderly (.balance i))
    (henabled : r.candidates.filter (·.enabled) = first :: rest) (a : String) :
    s.leastConnections.counts first.upstreamId (first :: rest) a = s.live first.upstreamId a := by
  rw [LeastConnections.counts]
  split
  · exact h.counts _ a
  · next hmissing =>
    symm
    rw [live, countP_eq_zero]
    intro call' hcall' hholds
    have hheld : (first.upstreamId, a) ∈ s.calls.filterMap (·.stage.holds) :=
      mem_filterMap.mpr ⟨call', hcall', by simpa using hholds⟩
    have hfirst : some first.upstreamId = call.route.upstreamId :=
      (h.tidy hcall).candidates hr (mem_of_mem_filter (henabled ▸ mem_cons_self))
    have hmem := hok call hcall r hr halgorithm _ hheld hfirst
    rw [Selection.addresses, henabled] at hmem
    exact hmissing hmem

lemma Counted.select (hstage : call.stage = .filtering r [])
    (halgorithm : r.algorithm = .leastConnections) (hok : s.Orderly (.balance i)) :
    Counted ({ s with leastConnections := (s.leastConnections.select r.candidates).1 }.move i call
      (.returned r (some (s.leastConnections.select r.candidates).2))) := by
  have htidy := h.tidy hcall
  have hr : call.stage.selection = some r := by rw [hstage]; rfl
  have hnone : call.stage.holds = none := by rw [hstage]; rfl
  refine ⟨h.table, Calls.forall_mem_set h.calls (htidy.proceed hr rfl rfl (by simp) (by simp)), ?_⟩
  intro u a
  have hlive : SelectorState.live (SelectorState.move { s with
      leastConnections := (s.leastConnections.select r.candidates).1 } i call
      (.returned r (some (s.leastConnections.select r.candidates).2))) u a + _ = s.live u a + _ :=
    live_move hcall u a
  rw [hnone] at hlive
  cases henabled : r.candidates.filter (·.enabled) with
  | nil =>
    have hselect : s.leastConnections.select r.candidates =
        (s.leastConnections, .error (.upstreamNotFound "no enabled nodes")) := by
      simp only [LeastConnections.select, henabled]
    rw [hselect] at hlive ⊢
    exact (h.counts u a).trans hlive.symm
  | cons first rest =>
    obtain ⟨selected, hmem, hselected, hcounts⟩ :=
      s.leastConnections.connections_select henabled
    have hupstream : ∀ n ∈ first :: rest, some n.upstreamId = call.route.upstreamId := by
      intro n hn
      exact htidy.candidates hr (mem_of_mem_filter (henabled ▸ hn))
    have hsame : selected.upstreamId = first.upstreamId := by
      have hfirst := hupstream first mem_cons_self
      exact some.inj ((hupstream selected hmem).trans hfirst.symm)
    have hholds : (returned r (some (.ok selected))).holds =
        some (first.upstreamId, selected.address) := by
      rw [← hsame]
      exact if_pos halgorithm
    rw [hselected, hholds] at hlive
    rw [hselected]
    refine (hcounts u a).trans ?_
    by_cases hu : u = first.upstreamId
    · subst hu
      rw [if_pos rfl, h.counts_eq hcall hr halgorithm hok henabled]
      by_cases ha : a = selected.address
      · simp_all
      · simp_all [Ne.symm ha]
    · rw [if_neg hu, h.counts u a]
      simp_all [Ne.symm hu]

end

variable (env s) in
lemma balance_of_ne (h : r.algorithm ≠ .leastConnections) (key : Option String) :
    (s.balance env key r).1.leastConnections = s.leastConnections ∧
      (s.balance env key r).2.holds = none ∧
      ∀ r' node algorithm, (s.balance env key r).2 ≠ .releasing r' node algorithm := by
  rw [balance]
  split
  · exact ⟨rfl, holds_returned_of_ne h _, by simp⟩
  · exact ⟨rfl, holds_returned_of_ne h _, by simp⟩
  · next halgorithm => exact absurd halgorithm h
  · split
    · exact ⟨rfl, holds_returned_of_ne h _, by simp⟩
    · exact ⟨rfl, rfl, by simp⟩

lemma Counted.balance (h : Counted s) (hcall : s.calls[i]? = some call)
    (hstage : call.stage = .filtering r []) (hok : s.Orderly (.balance i)) :
    Counted ((s.balance env call.key r).1.move i call (s.balance env call.key r).2) := by
  by_cases halgorithm : r.algorithm = .leastConnections
  · have hbalance : s.balance env call.key r =
        ({ s with leastConnections := (s.leastConnections.select r.candidates).1 },
          .returned r (some (s.leastConnections.select r.candidates).2)) := by
      simp only [SelectorState.balance, halgorithm]
    rw [hbalance]
    exact h.select hcall hstage halgorithm hok
  · have hr : call.stage.selection = some r := by rw [hstage]; rfl
    obtain ⟨hcalls, hupstreams, -, -⟩ := balance_frame env s call.key r
    obtain ⟨hlb, hholds, hreleasing⟩ := balance_of_ne env s halgorithm call.key
    obtain ⟨hselection, hpending, -⟩ := balance_sound env s call.key r
    have hcounted : Counted (s.balance env call.key r).1 :=
      { table := by rw [hupstreams]; exact h.table
        calls := by rw [hcalls]; exact h.calls
        counts := by
          intro u a
          rw [hlb, live, hcalls]
          exact h.counts u a }
    refine hcounted.move (hcalls ▸ hcall) ((h.tidy hcall).proceed hr hselection hpending ?_ ?_)
      (by rw [hholds, hstage]; rfl)
    · intro r' hbuilding
      rw [hbuilding] at hselection
      obtain rfl := some.inj hselection
      exact halgorithm
    · intro r' node algorithm hreleasing'
      exact absurd hreleasing' (hreleasing r' node algorithm)

lemma Counted.release (h : Counted s) (hcall : s.calls[i]? = some call) {node : UpstreamNodeDto}
    {algorithm : BalancerAlgorithm} (hstage : call.stage = .releasing r node algorithm) :
    Counted ((if algorithm = .leastConnections then
      { s with leastConnections := s.leastConnections.release node } else s).move i call
        (.released r node)) := by
  have htidy := h.tidy hcall
  have hr : call.stage.selection = some r := by rw [hstage]; rfl
  have hiff := htidy.releasing r node algorithm hstage
  have htidy' : SelectCall.Tidy ⟨call.route, call.key, .released r node⟩ :=
    htidy.proceed hr rfl rfl (by simp) (by simp)
  by_cases halgorithm : algorithm = .leastConnections
  · rw [if_pos halgorithm]
    have hholds : call.stage.holds = some (node.upstreamId, node.address) := by
      rw [hstage]
      exact if_pos (hiff.mp halgorithm)
    refine ⟨h.table, Calls.forall_mem_set h.calls htidy', ?_⟩
    intro u a
    have hlive : SelectorState.live (SelectorState.move { s with
        leastConnections := s.leastConnections.release node } i call (.released r node)) u a + _ =
        s.live u a + _ := live_move hcall u a
    refine (s.leastConnections.connections_release node u a).trans ?_
    rw [h.counts u a, ← hholds]
    have hnone : (released r node).holds = none := rfl
    rw [hnone] at hlive
    simp only [reduceCtorEq, decide_false, Bool.toNat_false, Nat.add_zero] at hlive
    omega
  · rw [if_neg halgorithm]
    have hother : r.algorithm ≠ .leastConnections := fun heq => halgorithm (hiff.mpr heq)
    refine h.move hcall htidy' ?_
    rw [hstage]
    exact (if_neg hother).symm

lemma Counted.step (h : Counted s) (hok : s.Orderly e) (hstep : selectorStep env s e = some t) :
    Counted t := by
  cases selectorMove_of_step hstep with
  | loadUpstreams upstreams =>
    refine ⟨?_, h.calls, h.counts⟩
    intro id entry hentry n hn
    obtain ⟨up, hup, rfl, rfl⟩ := exists_of_loadUpstreams hentry
    exact hok up hup n hn
  | mark m => exact ⟨h.table, h.calls, h.counts⟩
  | begin route key => exact h.begin route key
  | check hcall hchecker hstage => exact h.check hcall hstage rfl
  | balance hcall hstage => exact h.balance hcall hstage hok
  | @store i call r key hcall hstage hkey =>
    have htidy := h.tidy hcall
    have hcounted : Counted { s with
        ringCache := some (s.storeRing env ⟨r.candidates, call.key⟩ key).1 } :=
      ⟨h.table, h.calls, h.counts⟩
    refine hcounted.move hcall (htidy.proceed (by rw [hstage]; rfl) rfl rfl (by simp) (by simp)) ?_
    rw [hstage, holds_returned_of_ne (htidy.building r hstage)]
    rfl
  | @readAlgorithm i call r node algorithm nodes hcall hstage htable =>
    have hr : call.stage.selection = some r := by rw [hstage]; rfl
    have hiff := hok call hcall r hr
    rw [htable] at hiff
    refine h.move hcall ((h.tidy hcall).proceed hr rfl rfl (by simp) ?_) (by rw [hstage]; rfl)
    rintro r' node' algorithm' heq
    obtain ⟨rfl, rfl, rfl⟩ := releasing.inj heq
    simpa using hiff
  | @readNothing i call r node hcall hstage htable =>
    have hr : call.stage.selection = some r := by rw [hstage]; rfl
    have hother : r.algorithm ≠ .leastConnections := by
      have hiff := hok call hcall r hr
      rw [htable] at hiff
      exact fun heq => by simpa using hiff.mpr heq
    refine h.move hcall ((h.tidy hcall).proceed hr rfl rfl (by simp) (by simp)) ?_
    rw [hstage, holds_returned_of_ne hother]
    rfl
  | release hcall hstage => exact h.release hcall hstage

end

lemma counted_init : Counted .init where
  table _ _ h := by cases h
  calls _ h := by cases h
  counts _ _ := rfl

/-- In an orderly run, the count that a select uses for each of its nodes is the number of selects
of that address of that upstream that have not been released. -/
theorem leastConnections_counts_exact (env : SelectorEnv) (events : List SelectorEvent)
    (horderly : Meets (selectorStep env) SelectorState.Orderly .init events) :
    ∀ u e v, (u, e, v) ∈ trace (selectorStep env) .init events →
      ∀ i call r, e = .balance i → u.calls[i]? = some call → call.stage = .filtering r [] →
        r.algorithm = .leastConnections → ∀ first rest,
          r.candidates.filter (·.enabled) = first :: rest → ∀ node ∈ first :: rest,
            u.leastConnections.counts first.upstreamId (first :: rest) node.address =
              u.live node.upstreamId node.address := by
  refine forall_trace_of_meets (I := Counted) ?_ counted_init horderly
  intro s e t h hok hstep
  refine ⟨h.step hok hstep, ?_⟩
  rintro i call r rfl hcall hstage halgorithm first rest henabled node hnode
  have htidy := h.calls call (mem_of_getElem? hcall)
  have hr : call.stage.selection = some r := by rw [hstage]; rfl
  have hupstream : ∀ n ∈ first :: rest, some n.upstreamId = call.route.upstreamId := by
    intro n hn
    exact htidy.candidates hr (mem_of_mem_filter (henabled ▸ hn))
  have hsame : node.upstreamId = first.upstreamId :=
    Option.some.inj ((hupstream node hnode).trans (hupstream first mem_cons_self).symm)
  rw [hsame]
  exact h.counts_eq hcall hr halgorithm hok henabled node.address

theorem leastConnections_counts_exact_reuse : ∃ env events,
    Meets (selectorStep env) SelectorState.Orderly .init events ∧
    ∀ u e v, (u, e, v) ∈ trace (selectorStep env) .init events →
      ∀ i call r, e = .balance i → u.calls[i]? = some call → call.stage = .filtering r [] →
        r.algorithm = .leastConnections → ∀ first rest,
          r.candidates.filter (·.enabled) = first :: rest → ∀ node ∈ first :: rest,
            u.leastConnections.counts first.upstreamId (first :: rest) node.address =
              u.live node.upstreamId node.address :=
  ⟨⟨none, String.length, 160⟩,
    [.loadUpstreams [⟨1, "u", .leastConnections, true,
        [⟨1, 1, "a", 1, true⟩, ⟨2, 1, "b", 1, true⟩], 0, 0⟩],
      .begin ⟨1, .http, some 1, none, false, false, [], false⟩ none, .balance 0,
      .begin ⟨1, .http, some 1, none, false, false, [], false⟩ none, .balance 1,
      .readAlgorithm 0, .release 0,
      .begin ⟨1, .http, some 1, none, false, false, [], false⟩ none, .balance 2],
    by decide, leastConnections_counts_exact _ _ (by decide)⟩

/-- A node in use fails once, is passed over, which forgets its count, and recovers. The next
select takes it for idle. -/
theorem leastConnections_forgets_count : ∃ u call r,
    run (selectorStep ⟨some .default, String.length, 160⟩) .init
      [.loadUpstreams [⟨1, "u", .leastConnections, true,
          [⟨1, 1, "a", 1, true⟩, ⟨2, 1, "b", 1, true⟩], 0, 0⟩],
        .begin ⟨1, .http, some 1, none, false, false, [], false⟩ none, .check 0 0, .check 0 0,
        .balance 0, .mark (.failure 1 0),
        .begin ⟨1, .http, some 1, none, false, false, [], false⟩ none, .check 1 0, .check 1 0,
        .balance 1, .mark (.success 1),
        .begin ⟨1, .http, some 1, none, false, false, [], false⟩ none, .check 2 0, .check 2 0] =
      some u ∧
    u.calls[2]? = some call ∧ call.stage = .filtering r [] ∧ r.algorithm = .leastConnections ∧
    r.candidates.filter (·.enabled) = [⟨1, 1, "a", 1, true⟩, ⟨2, 1, "b", 1, true⟩] ∧
    u.leastConnections.counts 1 [⟨1, 1, "a", 1, true⟩, ⟨2, 1, "b", 1, true⟩] "a" = 0 ∧
    u.live 1 "a" = 1 :=
  ⟨_, _, _, rfl, rfl, rfl, rfl, rfl, rfl, rfl⟩

end Conrogate
