import Conrogate.Balancer.ConsistentHash
import Conrogate.Balancer.LeastConnections
import Conrogate.Balancer.RoundRobin
import Conrogate.Balancer.Weighted
import Conrogate.Gateway.Health
import Conrogate.Gateway.ReloadAttempt
import Conrogate.Lib.Calls

/-!
# Selecting an upstream node

A `select_upstream` reads the table, checks the nodes one after the other and asks the balancer, so
that other calls, reloads and results can come in between.
-/

namespace Conrogate

open List Option Transition ConsistentHash

structure SelectorEnv where
  checker : Option PassiveHealthChecker
  hash : String → Nat
  vnodes : Nat

structure HealthCheck where
  node : UpstreamNodeDto
  now : ℚ
  health : NodeHealth
  marks : List Mark

structure Selection where
  algorithm : BalancerAlgorithm
  nodes : List UpstreamNodeDto
  checks : List HealthCheck

namespace Selection

def healthy (r : Selection) : List UpstreamNodeDto :=
  (r.checks.filter (·.health = .healthy)).map (·.node)

def candidates (r : Selection) : List UpstreamNodeDto :=
  if r.healthy = [] then r.nodes else r.healthy

end Selection

/-- Where a call of `select_upstream` stands. -/
inductive SelectStage where
  | filtering (r : Selection) (rest : List UpstreamNodeDto)
  | building (r : Selection)
  | failed (e : ConrogateError)
  | returned (r : Selection) (result : Option (Result UpstreamNodeDto))
  | releasing (r : Selection) (node : UpstreamNodeDto) (algorithm : BalancerAlgorithm)
  | released (r : Selection) (node : UpstreamNodeDto)

open SelectStage

/-- A `select_upstream`, and the `release_node` that follows it. -/
structure SelectCall where
  route : RouteSnapshot
  key : Option String
  stage : SelectStage

/-- The balancers and the health marks that calls share. -/
structure SelectorState where
  upstreams : Nat → Option (BalancerAlgorithm × List UpstreamNodeDto)
  health : NodeStates
  marks : List Mark
  roundRobin : RoundRobin
  weighted : WeightedRoundRobin
  leastConnections : LeastConnections
  ringCache : Option RingCache
  calls : List SelectCall

inductive SelectorEvent where
  | loadUpstreams (upstreams : List UpstreamDto)
  | mark (m : Mark)
  | begin (route : RouteSnapshot) (key : Option String)
  | check (i : Nat) (now : ℚ)
  | balance (i : Nat)
  | store (i : Nat)
  | readAlgorithm (i : Nat)
  | release (i : Nat)

namespace SelectorState

def init : SelectorState where
  upstreams := fun _ => none
  health := fun _ => none
  marks := []
  roundRobin := .new
  weighted := .new
  leastConnections := .new
  ringCache := none
  calls := []

variable (env : SelectorEnv) (s : SelectorState)

def beginStage (route : RouteSnapshot) : SelectStage :=
  match route.upstreamId with
  | none    => .failed (.upstreamNotFound "route has no upstream")
  | some id => match s.upstreams id with
    | none => .failed (.upstreamNotFound s!"upstream {id}")
    | some (algorithm, nodes) =>
      .filtering ⟨algorithm, nodes, []⟩
        (if env.checker.isSome then nodes.filter (·.enabled) else [])

def balance (key : Option String) (r : Selection) : SelectorState × SelectStage :=
  match r.algorithm with
  | .roundRobin =>
    ({ s with roundRobin := (s.roundRobin.select r.candidates).1 },
      .returned r (some (s.roundRobin.select r.candidates).2))
  | .weightedRoundRobin =>
    ({ s with weighted := (s.weighted.select i32 r.candidates).1 },
      .returned r (s.weighted.select i32 r.candidates).2)
  | .leastConnections =>
    ({ s with leastConnections := (s.leastConnections.select r.candidates).1 },
      .returned r (some (s.leastConnections.select r.candidates).2))
  | .consistentHash => match look env.hash s.ringCache ⟨r.candidates, key⟩ with
    | some result => (s, .returned r result)
    | none => (s, .building r)

def storeRing (c : HashCall) (key : String) :
    RingCache × Option (Result UpstreamNodeDto) :=
  let cached := stored env.hash env.vnodes s.ringCache c
  (cached, fromRing env.hash cached.ring c.enabled key)

def move (i : Nat) (call : SelectCall) (stage : SelectStage) : SelectorState :=
  { s with calls := s.calls.set i { call with stage := stage } }

end SelectorState

open SelectorState

def selectorStep (env : SelectorEnv) (s : SelectorState) : SelectorEvent → Option SelectorState
  | .loadUpstreams upstreams => some { s with upstreams := loadUpstreams upstreams }
  | .mark m => some { s with health := s.health.mark m, marks := s.marks ++ [m] }
  | .begin route key => some { s with calls := s.calls ++ [⟨route, key, s.beginStage env route⟩] }
  | .check i now => do
    let call ← s.calls[i]?
    let hc ← env.checker
    match call.stage with
    | .filtering r (node :: rest) =>
      some (s.move i call (.filtering
        { r with checks := r.checks ++ [⟨node, now, hc.check s.health now node, s.marks⟩] } rest))
    | _ => none
  | .balance i => do
    let call ← s.calls[i]?
    match call.stage with
    | .filtering r [] =>
      some ((s.balance env call.key r).1.move i call (s.balance env call.key r).2)
    | _ => none
  | .store i => do
    let call ← s.calls[i]?
    match call.stage with
    | .building r =>
      let key ← HashCall.hashKey ⟨r.candidates, call.key⟩
      let result := s.storeRing env ⟨r.candidates, call.key⟩ key
      some ({ s with ringCache := some result.1 }.move i call (.returned r result.2))
    | _ => none
  | .readAlgorithm i => do
    let call ← s.calls[i]?
    match call.stage with
    | .returned r (some (.ok node)) =>
      match call.route.upstreamId.bind s.upstreams with
      | some (algorithm, _) => some (s.move i call (.releasing r node algorithm))
      | none => some (s.move i call (.released r node))
    | _ => none
  | .release i => do
    let call ← s.calls[i]?
    match call.stage with
    | .releasing r node algorithm =>
      -- only this balancer does anything on a release
      let released := if algorithm = .leastConnections then
        { s with leastConnections := s.leastConnections.release node } else s
      some (released.move i call (.released r node))
    | _ => none

/-! ### What a step can do -/

inductive SelectorMove (env : SelectorEnv) (s : SelectorState) :
    SelectorEvent → SelectorState → Prop where
  | loadUpstreams (upstreams : List UpstreamDto) :
    SelectorMove env s (.loadUpstreams upstreams) { s with upstreams := loadUpstreams upstreams }
  | mark (m : Mark) :
    SelectorMove env s (.mark m) { s with health := s.health.mark m, marks := s.marks ++ [m] }
  | begin (route : RouteSnapshot) (key : Option String) :
    SelectorMove env s (.begin route key)
      { s with calls := s.calls ++ [⟨route, key, s.beginStage env route⟩] }
  | check {i : Nat} {now : ℚ} {call : SelectCall} {hc : PassiveHealthChecker} {r : Selection}
      {node : UpstreamNodeDto} {rest : List UpstreamNodeDto} (hcall : s.calls[i]? = some call)
      (hchecker : env.checker = some hc) (hstage : call.stage = .filtering r (node :: rest)) :
    SelectorMove env s (.check i now) (s.move i call (.filtering
      { r with checks := r.checks ++ [⟨node, now, hc.check s.health now node, s.marks⟩] } rest))
  | balance {i : Nat} {call : SelectCall} {r : Selection} (hcall : s.calls[i]? = some call)
      (hstage : call.stage = .filtering r []) :
    SelectorMove env s (.balance i)
      ((s.balance env call.key r).1.move i call (s.balance env call.key r).2)
  | store {i : Nat} {call : SelectCall} {r : Selection} {key : String}
      (hcall : s.calls[i]? = some call) (hstage : call.stage = .building r)
      (hkey : HashCall.hashKey ⟨r.candidates, call.key⟩ = some key) :
    SelectorMove env s (.store i)
      ({ s with ringCache := some (s.storeRing env ⟨r.candidates, call.key⟩ key).1 }.move i call
        (.returned r (s.storeRing env ⟨r.candidates, call.key⟩ key).2))
  | readAlgorithm {i : Nat} {call : SelectCall} {r : Selection} {node : UpstreamNodeDto}
      {algorithm : BalancerAlgorithm} {nodes : List UpstreamNodeDto}
      (hcall : s.calls[i]? = some call) (hstage : call.stage = .returned r (some (.ok node)))
      (htable : call.route.upstreamId.bind s.upstreams = some (algorithm, nodes)) :
    SelectorMove env s (.readAlgorithm i) (s.move i call (.releasing r node algorithm))
  | readNothing {i : Nat} {call : SelectCall} {r : Selection} {node : UpstreamNodeDto}
      (hcall : s.calls[i]? = some call) (hstage : call.stage = .returned r (some (.ok node)))
      (htable : call.route.upstreamId.bind s.upstreams = none) :
    SelectorMove env s (.readAlgorithm i) (s.move i call (.released r node))
  | release {i : Nat} {call : SelectCall} {r : Selection} {node : UpstreamNodeDto}
      {algorithm : BalancerAlgorithm} (hcall : s.calls[i]? = some call)
      (hstage : call.stage = .releasing r node algorithm) :
    SelectorMove env s (.release i) ((if algorithm = .leastConnections then
      { s with leastConnections := s.leastConnections.release node } else s).move i call
        (.released r node))

lemma selectorMove_of_step {env : SelectorEnv} {s t : SelectorState} {e : SelectorEvent}
    (h : selectorStep env s e = some t) : SelectorMove env s e t := by
  cases e with
  | loadUpstreams upstreams =>
    obtain rfl := some.inj h
    exact .loadUpstreams upstreams
  | mark m =>
    obtain rfl := some.inj h
    exact .mark m
  | begin route key =>
    obtain rfl := some.inj h
    exact .begin route key
  | check i now =>
    simp only [selectorStep, bind_eq_bind, bind_eq_some_iff] at h
    obtain ⟨call, hcall, hc, hchecker, h⟩ := h
    split at h
    · next r node rest hstage =>
      obtain rfl := some.inj h
      exact .check hcall hchecker hstage
    · cases h
  | balance i =>
    obtain ⟨call, hcall, h⟩ := bind_eq_some_iff.mp h
    split at h
    · next r hstage =>
      obtain rfl := some.inj h
      exact .balance hcall hstage
    · cases h
  | store i =>
    obtain ⟨call, hcall, h⟩ := bind_eq_some_iff.mp h
    split at h
    · next r hstage =>
      obtain ⟨key, hkey, h⟩ := bind_eq_some_iff.mp h
      obtain rfl := some.inj h
      exact .store hcall hstage hkey
    · cases h
  | readAlgorithm i =>
    obtain ⟨call, hcall, h⟩ := bind_eq_some_iff.mp h
    split at h
    · next r node hstage =>
      split at h
      · next algorithm nodes htable =>
        obtain rfl := some.inj h
        exact .readAlgorithm hcall hstage htable
      · next htable =>
        obtain rfl := some.inj h
        exact .readNothing hcall hstage htable
    · cases h
  | release i =>
    obtain ⟨call, hcall, h⟩ := bind_eq_some_iff.mp h
    split at h
    · next r node algorithm hstage =>
      obtain rfl := some.inj h
      exact .release hcall hstage
    · cases h

/-! ### What a call knows -/

namespace SelectStage

def selection : SelectStage → Option Selection
  | filtering r _ | building r | returned r _ | releasing r _ _ | released r _ => some r
  | failed _ => none

def pending : SelectStage → List UpstreamNodeDto
  | filtering _ rest => rest
  | _ => []

def node : SelectStage → Option UpstreamNodeDto
  | returned _ (some (.ok node)) | releasing _ node _ | released _ node => some node
  | _ => none

end SelectStage

structure Selection.ReadBy (env : SelectorEnv)
    (steps : List (SelectorState × SelectorEvent × SelectorState)) (i : Nat) (call : SelectCall)
    (r : Selection) : Prop where
  table : ∃ u v id, (u, .begin call.route call.key, v) ∈ steps ∧ u.calls.length = i ∧
    call.route.upstreamId = some id ∧ u.upstreams id = some (r.algorithm, r.nodes)
  checks : ∀ c ∈ r.checks, c.node ∈ r.nodes ∧ c.node.enabled = true ∧
    ∃ hc ∈ env.checker, ∃ u v, (u, .check i c.now, v) ∈ steps ∧
      c.health = hc.check u.health c.now c.node ∧ c.marks = u.marks

structure SelectCall.Sound (env : SelectorEnv)
    (steps : List (SelectorState × SelectorEvent × SelectorState)) (i : Nat) (call : SelectCall) :
    Prop where
  read : ∀ r ∈ call.stage.selection, r.ReadBy env steps i call
  pending : ∀ r ∈ call.stage.selection, ∀ x ∈ call.stage.pending, x ∈ r.nodes ∧ x.enabled = true
  covered : env.checker.isSome → ∀ r ∈ call.stage.selection, ∀ x ∈ r.nodes, x.enabled = true →
    x ∈ call.stage.pending ∨ ∃ c ∈ r.checks, c.node = x
  node : ∀ r ∈ call.stage.selection, ∀ n ∈ call.stage.node, n ∈ r.candidates ∧ n.enabled = true

section sound

variable {env : SelectorEnv} {steps : List (SelectorState × SelectorEvent × SelectorState)}
  {i : Nat} {call : SelectCall} {r : Selection} {s t : SelectorState} {e : SelectorEvent}

lemma Selection.ReadBy.mono (h : r.ReadBy env steps i call)
    (step : SelectorState × SelectorEvent × SelectorState) :
    r.ReadBy env (steps ++ [step]) i call where
  table := by
    obtain ⟨u, v, id, hmem, hspec⟩ := h.table
    exact ⟨u, v, id, mem_append_left _ hmem, hspec⟩
  checks c hc := by
    obtain ⟨hnode, henabled, checker, hchecker, u, v, hmem, hspec⟩ := h.checks c hc
    exact ⟨hnode, henabled, checker, hchecker, u, v, mem_append_left _ hmem, hspec⟩

lemma SelectCall.Sound.mono (h : call.Sound env steps i)
    (step : SelectorState × SelectorEvent × SelectorState) :
    call.Sound env (steps ++ [step]) i where
  read r hr := (h.read r hr).mono step
  pending := h.pending
  covered := h.covered
  node := h.node

lemma SelectCall.Sound.proceed (h : call.Sound env steps i) (hr : call.stage.selection = some r)
    (hpending : call.stage.pending = []) {stage : SelectStage}
    (hstage : stage.selection = some r) (hstage' : stage.pending = [])
    (hnode : ∀ n ∈ stage.node, n ∈ r.candidates ∧ n.enabled = true) :
    SelectCall.Sound env steps i { call with stage := stage } where
  read r' hr' := by
    obtain rfl : r = r' := by simpa [hstage] using hr'
    have hread := h.read r hr
    exact ⟨hread.table, hread.checks⟩
  pending := by simp [hstage']
  covered hchecker r' hr' x hx henabled := by
    obtain rfl : r = r' := by simpa [hstage] using hr'
    have hcovered := h.covered hchecker r hr x hx henabled
    rw [hpending] at hcovered
    exact .inr (hcovered.resolve_left not_mem_nil)
  node r' hr' := by
    obtain rfl : r = r' := by simpa [hstage] using hr'
    exact hnode

lemma sound_begin (route : RouteSnapshot) (key : Option String) (hmem :
    (s, .begin route key, t) ∈ steps) :
    SelectCall.Sound env steps s.calls.length ⟨route, key, s.beginStage env route⟩ := by
  rw [beginStage]
  split
  · exact ⟨by simp [selection], by simp [selection],
      by simp [selection], by simp [selection]⟩
  · next id hid =>
    split
    · exact ⟨by simp [selection], by simp [selection],
        by simp [selection], by simp [selection]⟩
    · next algorithm nodes htable =>
      refine ⟨?_, ?_, ?_, by simp [node]⟩
      · rintro r hr
        obtain rfl := some.inj hr
        exact ⟨⟨s, t, id, hmem, rfl, hid, htable⟩, by simp⟩
      · rintro r hr x hx
        obtain rfl := some.inj hr
        simp only [pending] at hx
        split at hx
        · exact mem_filter.mp hx
        · cases hx
      · rintro hchecker r hr x hx henabled
        obtain rfl := some.inj hr
        refine .inl ?_
        simp only [pending, if_pos hchecker]
        exact mem_filter.mpr ⟨hx, henabled⟩

lemma sound_check {now : ℚ} {hc : PassiveHealthChecker} {x : UpstreamNodeDto}
    {rest : List UpstreamNodeDto} (h : call.Sound env steps i) (hchecker : env.checker = some hc)
    (hstage : call.stage = .filtering r (x :: rest)) (hmem : (s, .check i now, t) ∈ steps) :
    SelectCall.Sound env steps i ⟨call.route, call.key, .filtering
      { r with checks := r.checks ++ [⟨x, now, hc.check s.health now x, s.marks⟩] } rest⟩ := by
  have hr : call.stage.selection = some r := by rw [hstage]; rfl
  have hpending : call.stage.pending = x :: rest := by rw [hstage]; rfl
  have hx := h.pending r hr x (by simp [hpending])
  refine ⟨?_, ?_, ?_, by simp [node]⟩
  · rintro r' hr'
    obtain rfl := some.inj hr'
    refine ⟨(h.read r hr).table, ?_⟩
    intro c hc'
    obtain hc' | rfl := by simpa using hc'
    · exact (h.read r hr).checks c hc'
    · exact ⟨hx.1, hx.2, hc, hchecker, s, t, hmem, rfl, rfl⟩
  · rintro r' hr' y hy
    obtain rfl := some.inj hr'
    exact h.pending r hr y (by rw [hpending]; exact mem_cons_of_mem _ hy)
  · rintro hsome r' hr' y hy henabled
    obtain rfl := some.inj hr'
    obtain hy | ⟨c, hc', rfl⟩ := h.covered hsome r hr y hy henabled
    · rw [hpending] at hy
      obtain rfl | hy := mem_cons.mp hy
      · exact .inr ⟨_, mem_append_right _ mem_cons_self, rfl⟩
      · exact .inl hy
    · exact .inr ⟨c, mem_append_left _ hc', rfl⟩

lemma SelectStage.node_returned {result : Option (Result UpstreamNodeDto)}
    {P : UpstreamNodeDto → Prop} (h : ∀ n, result = some (.ok n) → P n) :
    ∀ n ∈ (returned r result).node, P n := by
  intro n hn
  rcases result with _ | _ | m
  · cases hn
  · cases hn
  · exact h n (by rw [some.inj hn])

variable (env) in
lemma balance_sound (s : SelectorState) (key : Option String) (r : Selection) :
    (s.balance env key r).2.selection = some r ∧ (s.balance env key r).2.pending = [] ∧
      ∀ n ∈ (s.balance env key r).2.node, n ∈ r.candidates ∧ n.enabled = true := by
  rw [balance]
  split
  · refine ⟨rfl, rfl, node_returned ?_⟩
    intro n hn
    exact RoundRobin.mem_of_select_eq_ok (some.inj hn)
  · refine ⟨rfl, rfl, node_returned ?_⟩
    intro n hn
    exact WeightedRoundRobin.mem_of_select_eq_ok hn
  · refine ⟨rfl, rfl, node_returned ?_⟩
    intro n hn
    exact LeastConnections.mem_of_select_eq_ok (some.inj hn)
  · split
    · next result hlook =>
      refine ⟨rfl, rfl, node_returned ?_⟩
      rintro n rfl
      exact mem_filter.mp (mem_of_look hlook)
    · exact ⟨rfl, rfl, by simp [node]⟩

lemma move_calls (s : SelectorState) (i : Nat) (call : SelectCall) (stage : SelectStage) :
    (s.move i call stage).calls = s.calls.set i ⟨call.route, call.key, stage⟩ := rfl

variable (env) in
lemma balance_frame (s : SelectorState) (key : Option String) (r : Selection) :
    (s.balance env key r).1.calls = s.calls ∧ (s.balance env key r).1.upstreams = s.upstreams ∧
      (s.balance env key r).1.health = s.health ∧ (s.balance env key r).1.marks = s.marks := by
  rw [balance]
  split
  · exact ⟨rfl, rfl, rfl, rfl⟩
  · exact ⟨rfl, rfl, rfl, rfl⟩
  · exact ⟨rfl, rfl, rfl, rfl⟩
  · split <;> exact ⟨rfl, rfl, rfl, rfl⟩

def SoundCalls (env : SelectorEnv)
    (steps : List (SelectorState × SelectorEvent × SelectorState)) (calls : List SelectCall) :
    Prop :=
  ∀ (i : Nat) (call : SelectCall), calls[i]? = some call → call.Sound env steps i

lemma SoundCalls.mono {calls : List SelectCall} (h : SoundCalls env steps calls)
    (step : SelectorState × SelectorEvent × SelectorState) :
    SoundCalls env (steps ++ [step]) calls :=
  fun i call hcall => (h i call hcall).mono step

lemma SoundCalls.set {calls : List SelectCall} (h : SoundCalls env steps calls)
    {call' : SelectCall} (hcall' : call'.Sound env steps i) :
    SoundCalls env steps (calls.set i call') := by
  intro j d hd
  obtain ⟨rfl, rfl⟩ | ⟨-, hd⟩ := Calls.getElem?_set_eq_some hd
  · exact hcall'
  · exact h j d hd

lemma SoundCalls.step (h : SoundCalls env steps s.calls) (hstep : selectorStep env s e = some t) :
    SoundCalls env (steps ++ [(s, e, t)]) t.calls := by
  have hmem : (s, e, t) ∈ steps ++ [(s, e, t)] := mem_append_right _ mem_cons_self
  have h := h.mono (s, e, t)
  cases selectorMove_of_step hstep with
  | loadUpstreams upstreams => exact h
  | mark m => exact h
  | begin route key =>
    intro i call hcall
    rw [getElem?_append] at hcall
    split at hcall
    · exact h i call hcall
    · next hlt =>
      rw [getElem?_singleton] at hcall
      split at hcall
      · next hi =>
        obtain rfl := some.inj hcall
        obtain rfl : i = s.calls.length := by omega
        exact sound_begin route key hmem
      · cases hcall
  | check hcall hchecker hstage => exact h.set (sound_check (h _ _ hcall) hchecker hstage hmem)
  | @balance i call r hcall hstage =>
    have hcall := h _ _ hcall
    obtain ⟨hr, hpending, hnode⟩ := balance_sound env s call.key r
    rw [move_calls, (balance_frame env s call.key r).1]
    exact h.set (hcall.proceed (by rw [hstage]; rfl) (by rw [hstage]; rfl) hr hpending hnode)
  | store hcall hstage hkey =>
    have hcall := h _ _ hcall
    refine h.set (hcall.proceed (by rw [hstage]; rfl) (by rw [hstage]; rfl) rfl rfl ?_)
    apply node_returned
    intro n hn
    exact mem_filter.mp (mem_of_fromRing hn)
  | readAlgorithm hcall hstage htable =>
    have hcall := h _ _ hcall
    have hr : _ = some _ := congrArg selection hstage
    refine h.set (hcall.proceed hr (by rw [hstage]; rfl) rfl rfl ?_)
    intro n hn
    exact hcall.node _ hr n (by rw [hstage]; exact hn)
  | readNothing hcall hstage htable =>
    have hcall := h _ _ hcall
    have hr : _ = some _ := congrArg selection hstage
    refine h.set (hcall.proceed hr (by rw [hstage]; rfl) rfl rfl ?_)
    intro n hn
    exact hcall.node _ hr n (by rw [hstage]; exact hn)
  | release hcall hstage =>
    have hcall := h _ _ hcall
    have hr : _ = some _ := congrArg selection hstage
    have hcalls : ∀ (p : Prop) [Decidable p] (lb : LeastConnections), (if p then
        { s with leastConnections := lb } else s).calls = s.calls := by
      intro p _ lb
      split <;> rfl
    rw [move_calls, hcalls]
    refine h.set (hcall.proceed hr (by rw [hstage]; rfl) rfl rfl ?_)
    intro n hn
    exact hcall.node _ hr n (by rw [hstage]; exact hn)

lemma soundCalls_run {events : List SelectorEvent} (hstart : s.calls = [])
    (hrun : run (selectorStep env) s events = some t) :
    SoundCalls env (trace (selectorStep env) s events) t.calls := by
  refine trace_induction (P := fun steps t => SoundCalls env steps t.calls) ?_ ?_ hrun
  · intro i call hcall
    simp [hstart] at hcall
  · intro steps u e v hu hstep
    exact hu.step hstep

lemma SelectStage.pending_of_node {stage : SelectStage} {n : UpstreamNodeDto}
    (h : stage.node = some n) : stage.pending = [] ∧ ∃ r, stage.selection = some r := by
  cases stage with
  | filtering r rest => cases h
  | building r => cases h
  | failed e => cases h
  | returned r result => exact ⟨rfl, r, rfl⟩
  | releasing r node algorithm => exact ⟨rfl, r, rfl⟩
  | released r node => exact ⟨rfl, r, rfl⟩

lemma Selection.mem_candidates {r : Selection} {n : UpstreamNodeDto} (h : n ∈ r.candidates)
    (hsome : ∃ c ∈ r.checks, c.health = .healthy) :
    ∃ c ∈ r.checks, c.node = n ∧ c.health = .healthy := by
  have hne : r.healthy ≠ [] := by
    obtain ⟨c, hc, hhealth⟩ := hsome
    have hmem : c ∈ r.checks.filter (·.health = .healthy) :=
      mem_filter.mpr ⟨hc, by simp [hhealth]⟩
    exact ne_nil_of_mem (mem_map_of_mem hmem)
  rw [candidates, if_neg hne] at h
  obtain ⟨c, hc, rfl⟩ := mem_map.mp h
  obtain ⟨hc, hhealth⟩ := mem_filter.mp hc
  exact ⟨c, hc, rfl, by simpa using hhealth⟩

lemma Selection.ReadBy.candidates_subset (h : r.ReadBy env steps i call) :
    r.candidates ⊆ r.nodes := by
  intro n hn
  rw [Selection.candidates] at hn
  split at hn
  · exact hn
  · obtain ⟨c, hc, rfl⟩ := mem_map.mp hn
    exact (h.checks c (mem_of_mem_filter hc)).1

end sound

/-- A node that `select_upstream` returns is an enabled node of the list that it has read. All
enabled nodes have been checked, and if a healthy one was found, the node is healthy. -/
theorem selected_node_enabled_and_healthy (env : SelectorEnv) (events : List SelectorEvent)
    (s t : SelectorState) (hstart : s.calls = [])
    (hrun : run (selectorStep env) s events = some t) (i : Nat) (call : SelectCall)
    (hcall : t.calls[i]? = some call) (node : UpstreamNodeDto)
    (hnode : call.stage.node = some node) :
    ∃ r, call.stage.selection = some r ∧
      r.ReadBy env (trace (selectorStep env) s events) i call ∧
      node ∈ r.nodes ∧ node.enabled = true ∧
      (env.checker.isSome → ∀ x ∈ r.nodes, x.enabled = true → ∃ c ∈ r.checks, c.node = x) ∧
      ((∃ c ∈ r.checks, c.health = .healthy) →
        ∃ c ∈ r.checks, c.node = node ∧ c.health = .healthy) := by
  have hsound := soundCalls_run hstart hrun i call hcall
  obtain ⟨hpending, r, hr⟩ := pending_of_node hnode
  have hread := hsound.read r hr
  obtain ⟨hcandidate, henabled⟩ := hsound.node r hr node hnode
  refine ⟨r, hr, hread, hread.candidates_subset hcandidate, henabled, ?_,
    Selection.mem_candidates hcandidate⟩
  intro hchecker x hx hxenabled
  have hcovered := hsound.covered hchecker r hr x hx hxenabled
  rw [hpending] at hcovered
  exact hcovered.resolve_left not_mem_nil

theorem selected_node_passes_over_failed : ∃ env events t call,
    run (selectorStep env) .init events = some t ∧ t.calls[0]? = some call ∧
    call.stage.node = some ⟨2, 1, "b", 1, true⟩ ∧
    ∃ r, call.stage.selection = some r ∧
      r.ReadBy env (trace (selectorStep env) .init events) 0 call ∧
      ⟨2, 1, "b", 1, true⟩ ∈ r.nodes ∧ (UpstreamNodeDto.mk 2 1 "b" 1 true).enabled = true ∧
      (env.checker.isSome → ∀ x ∈ r.nodes, x.enabled = true → ∃ c ∈ r.checks, c.node = x) ∧
      ((∃ c ∈ r.checks, c.health = .healthy) →
        ∃ c ∈ r.checks, c.node = ⟨2, 1, "b", 1, true⟩ ∧ c.health = .healthy) :=
  ⟨⟨some .default, String.length, 160⟩,
    [.loadUpstreams [⟨1, "u", .leastConnections, true,
        [⟨1, 1, "a", 1, true⟩, ⟨2, 1, "b", 1, true⟩], 0, 0⟩],
      .mark (.failure 1 0), .begin ⟨1, .http, some 1, none, false, false, [], false⟩ none,
      .check 0 1, .check 0 1, .balance 0], _, _, rfl, rfl, rfl,
    selected_node_enabled_and_healthy _ _ .init _ rfl rfl 0 _ rfl ⟨2, 1, "b", 1, true⟩ rfl⟩

/-! ### The turns of the round robin -/

def SelectorState.roundRobinCall (s : SelectorState) : SelectorEvent → Option RoundRobinCall
  | .balance i => do
    let call ← s.calls[i]?
    match call.stage with
    | .filtering r [] =>
      if r.algorithm = .roundRobin then some ⟨call.route.upstreamId.getD 0, r.candidates⟩ else none
    | _ => none
  | _ => none

/-- What the call that asked the balancer has been answered. -/
def SelectorState.answered (s : SelectorState) :
    SelectorEvent → Option (Result UpstreamNodeDto)
  | .balance i => s.calls[i]?.bind fun call => match call.stage with
    | .returned _ result => result
    | _ => none
  | _ => none

def roundRobinCalls (steps : List (SelectorState × SelectorEvent × SelectorState)) :
    List (RoundRobinCall × Option (Result UpstreamNodeDto)) :=
  steps.filterMap fun (u, e, v) => (u.roundRobinCall e).map fun c => (c, v.answered e)

lemma roundRobin_step {env : SelectorEnv} {s t : SelectorState} {e : SelectorEvent}
    (hstep : selectorStep env s e = some t) : match s.roundRobinCall e with
      | some c => t.roundRobin = (s.roundRobin.select c.nodes).1 ∧
        t.answered e = some (s.roundRobin.select c.nodes).2
      | none   => t.roundRobin = s.roundRobin := by
  cases selectorMove_of_step hstep with
  | loadUpstreams upstreams => rfl
  | mark m => rfl
  | begin route key => rfl
  | check hcall hchecker hstage => rfl
  | @balance i call r hcall hstage =>
    obtain ⟨hlt, -⟩ := List.getElem?_eq_some_iff.mp hcall
    simp only [roundRobinCall, hcall, bind_eq_bind, bind_some, hstage]
    cases halgorithm : r.algorithm with
    | roundRobin =>
      simp [balance, halgorithm, move, answered, hlt]
    | weightedRoundRobin => simp [balance, halgorithm, move]
    | leastConnections => simp [balance, halgorithm, move]
    | consistentHash =>
      simp only [balance, halgorithm, move, reduceCtorEq, if_false]
      split <;> rfl
  | store hcall hstage hkey => rfl
  | readAlgorithm hcall hstage htable => rfl
  | readNothing hcall hstage htable => rfl
  | release hcall hstage =>
    simp only [move, roundRobinCall]
    split <;> rfl

/-- In every run, the selects of all upstreams with round robin get what the one counter gives in
the order in which they ask the balancer. -/
theorem selects_roundRobinCalls (env : SelectorEnv) (events : List SelectorEvent)
    (s : SelectorState) :
    let calls := roundRobinCalls (trace (selectorStep env) s events)
    calls = (s.roundRobin.selects (calls.map Prod.fst)).map fun r => (r.1, some r.2) := by
  induction events generalizing s with
  | nil => rfl
  | cons e events ih =>
    rw [trace]
    cases hstep : selectorStep env s e with
    | none => rfl
    | some t =>
      have ih := ih t
      have hturn := roundRobin_step hstep
      cases hcall : s.roundRobinCall e with
      | none =>
        rw [hcall] at hturn
        rw [hturn] at ih
        simp only [roundRobinCalls, filterMap_cons, hcall, map_none]
        exact ih
      | some c =>
        obtain ⟨hcounter, hanswer⟩ : t.roundRobin = (s.roundRobin.select c.nodes).1 ∧
            t.answered e = some (s.roundRobin.select c.nodes).2 := by rwa [hcall] at hturn
        rw [hcounter] at ih
        simp only [roundRobinCalls, filterMap_cons, hcall, hanswer, map_some, map_cons,
          RoundRobin.selects]
        exact congrArg _ ih

end Conrogate
