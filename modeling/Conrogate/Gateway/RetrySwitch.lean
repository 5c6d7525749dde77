import Conrogate.Gateway.Selector
import Conrogate.Protocol.Course
import Conrogate.Storage.Tables

/-!
# The retry switch of an upstream

`load_upstreams` keeps the algorithm and the nodes of an upstream. Its switch for retries does not
reach the selector or the retry loop.
-/

namespace Conrogate

open Logged Transition

variable {Net P : Type}

structure LoadedWithoutRetry (ups : List UpstreamDto) (row : UpstreamRow) (nodes : List NodeRow) :
    Prop where
  off : row.retryEnabled = false
  mem : row.toDto nodes ∈ ups
  loaded : loadUpstreams ups row.id =
    some (i16ToAlgorithm row.algorithm, nodes.map NodeRow.toDto)

def SelectorAnswers (env : SelectorEnv)
    (table : Nat → Option (BalancerAlgorithm × List UpstreamNodeDto)) (route : RouteSnapshot)
    (key : Option String) (node : UpstreamNodeDto) : Prop :=
  ∃ s events t i stage, s.calls = [] ∧ run (selectorStep env) s events = some t ∧
    t.calls[i]? = some ⟨route, key, stage⟩ ∧ stage.node = some node ∧
    ∀ u v, (u, .begin route key, v) ∈ trace (selectorStep env) s events →
      u.calls.length = i → u.upstreams = table

lemma SelectorAnswers.mem {env : SelectorEnv}
    {table : Nat → Option (BalancerAlgorithm × List UpstreamNodeDto)} {route : RouteSnapshot}
    {key : Option String} {node : UpstreamNodeDto} (h : SelectorAnswers env table route key node)
    {id : Nat} (hid : route.upstreamId = some id) {algorithm : BalancerAlgorithm}
    {nodes : List UpstreamNodeDto} (htable : table id = some (algorithm, nodes)) :
    node ∈ nodes := by
  obtain ⟨s, events, t, i, stage, hstart, hrun, hcall, hnode, hread⟩ := h
  have hsound := soundCalls_run hstart hrun i _ hcall
  obtain ⟨-, r, hr⟩ := SelectStage.pending_of_node hnode
  have hreadBy := hsound.read r hr
  have hmem := hreadBy.candidates_subset (hsound.node r hr node hnode).1
  obtain ⟨u, v, id', hbegin, hlength, hid', hentry⟩ := hreadBy.table
  obtain rfl : id' = id := Option.some.inj (hid'.symm.trans hid)
  rw [hread u v hbegin hlength, htable] at hentry
  obtain ⟨-, rfl⟩ := Prod.mk.inj (Option.some.inj hentry)
  exact hmem

def forwardsTo (nodes : List UpstreamNodeDto) (log : List Effect) : Nat :=
  (log.filterMap Effect.forwarded).countP (·.1 ∈ nodes)

namespace HttpProtocolHandler

variable (h : HttpProtocolHandler Net P) (env : ExchangeEnv)

def ForwardsAgain (req : HttpRequest) (m : RequestMeta) (route : RouteSnapshot) : Prop :=
  h.svc.isBlocked m.realIp = false ∧ ∃ ctx node uri,
    h.Reaches req m (some req.body) route ctx node uri ∧
    h.Repeats (canRetry req route) node (h.outRequest req m ctx route node uri (some req.body)) 0

/-- The gateway makes at most one attempt to forward a request to an upstream whose retries are
switched off, exactly when the request is streamed or nothing calls for a second attempt. -/
theorem forwards_at_most_once_iff {ups : List UpstreamDto} {row : UpstreamRow}
    {nodes : List NodeRow} (hoff : LoadedWithoutRetry ups row nodes) (selector : SelectorEnv)
    (route : RouteSnapshot) (hroute : route.upstreamId = some row.id)
    (hselect : ∀ key node, h.svc.selectUpstream route key = .ok node →
      SelectorAnswers selector (loadUpstreams ups) route key node)
    (req : HttpRequest) (clientIp : String) (matchInfo : RouteMatchInfo) :
    let m := h.buildRequestMeta env matchInfo req.headers clientIp
    let own := (row.toDto nodes).nodes
    (∀ preMatched, h.routeOf m preMatched = .ok route →
      (forwardsTo own (h.handle env req clientIp matchInfo preMatched).effects ≤ 1 ↔
        ¬ h.ForwardsAgain req m route)) ∧
    forwardsTo own (h.handleStream env req route clientIp matchInfo).effects ≤ 1 := by
  intro m own
  have hown : ∀ node, h.svc.selectUpstream route (some m.realIp) = .ok node → node ∈ own :=
    fun node hnode => (hselect _ node hnode).mem hroute hoff.loaded
  constructor
  · intro preMatched hmatched
    simp only [handle]
    rw [hmatched, forwardsTo]
    obtain ⟨ctx, node, uri, hwelcome, hreach, hforwarded⟩ | ⟨hno, hforwarded⟩ :=
      h.forwarded_conduct env req m (some req.body) route (h.forwardBuffered env req m)
        fun ctx node hcan => h.buildRequest_of_not_canForward hcan _
    · have hmem : node ∈ own := hown node hreach.balancer
      rw [hforwarded, h.forwarded_forwardBuffered env hreach, List.countP_replicate,
        if_pos (by simpa using hmem), Nat.succ_le_succ_iff, Nat.le_zero, lastAttempt_eq_zero_iff,
        not_iff_not]
      constructor
      · intro hrepeats
        exact ⟨hwelcome, ctx, node, uri, hreach, hrepeats⟩
      · rintro ⟨-, ctx', node', uri', hreach', hrepeats⟩
        obtain ⟨rfl, rfl, rfl⟩ := hreach.unique h hreach'
        exact hrepeats
    · rw [hforwarded]
      refine iff_of_true (Nat.zero_le 1) ?_
      rintro ⟨hwelcome, ctx, node, uri, hreach, -⟩
      exact hno hwelcome ctx node uri hreach
  · rw [handleStream, forwardsTo]
    obtain ⟨ctx, node, uri, hwelcome, hreach, hforwarded⟩ | ⟨hno, hforwarded⟩ :=
      h.forwarded_conduct env req m none route (h.forwardStreamed env req m)
        fun ctx node hcan => h.buildRequest_of_not_canForward hcan _
    · rw [hforwarded, h.forwarded_forwardStreamed env hreach]
      exact List.countP_le_length
    · rw [hforwarded]
      exact Nat.zero_le 1

def switchedOffRow : UpstreamRow := ⟨2, "u", 1, false, 0, 0, none⟩

def switchedOffNode : NodeRow := ⟨4, 2, "10.0.0.9:80", 1, true, 0, 0, none⟩

def switchedOff : List UpstreamDto := [switchedOffRow.toDto [switchedOffNode]]

lemma selectorAnswers_switchedOff (key : Option String) :
    SelectorAnswers ⟨none, String.length, 160⟩
      (loadUpstreams switchedOff) (openRoute true) key openNode := by
  refine ⟨.init, [.loadUpstreams switchedOff, .begin (openRoute true) key, .balance 0], _, 0, _,
    rfl, rfl, rfl, rfl, ?_⟩
  -- the table is loaded before the call begins
  rintro u v (_ | ⟨_, _ | ⟨_, _ | ⟨_, hmem⟩⟩⟩) -
  · rfl
  · cases hmem

theorem forwards_at_most_once_of_answer :
    let h := openHandler (.ok openNode) (.ok ⟨200, [], []⟩)
    let req := getRequest "/a" []
    LoadedWithoutRetry switchedOff switchedOffRow [switchedOffNode] ∧
    forwardsTo [switchedOffNode.toDto]
      (h.handle openEnv req "1.2.3.4" req.matchInfo (some (openRoute true))).effects ≤ 1 := by
  intro h req
  have hoff : LoadedWithoutRetry switchedOff switchedOffRow [switchedOffNode] :=
    ⟨rfl, List.mem_cons_self, rfl⟩
  refine ⟨hoff, ((h.forwards_at_most_once_iff openEnv hoff ⟨none, String.length, 160⟩
    (openRoute true) rfl ?_ req _ _).1 (some (openRoute true)) rfl).mpr ?_⟩
  · rintro key node hnode
    obtain rfl := Except.ok.inj hnode
    exact selectorAnswers_switchedOff key
  · rintro ⟨-, ctx, node, uri, -, hrepeats⟩
    cases hrepeats.outcome

/-- A `GET` that is answered with 500 is forwarded three times. -/
theorem forwards_thrice_despite_switch :
    let h := openHandler (.ok openNode) (.ok ⟨500, [], []⟩)
    let req := getRequest "/a" []
    LoadedWithoutRetry switchedOff switchedOffRow [switchedOffNode] ∧
    (∃ selector, SelectorAnswers selector (loadUpstreams switchedOff) (openRoute true)
      (some "1.2.3.4") openNode) ∧
    forwardsTo [switchedOffNode.toDto]
      (h.handle openEnv req "1.2.3.4" req.matchInfo (some (openRoute true))).effects = 3 :=
  ⟨⟨rfl, List.mem_cons_self, rfl⟩, ⟨_, selectorAnswers_switchedOff _⟩, rfl⟩

end HttpProtocolHandler

end Conrogate
