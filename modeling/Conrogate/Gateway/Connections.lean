import Conrogate.Lib.Calls
import Conrogate.Lib.Transition

/-!
# Connections of the gateway

Every connection has a task that holds a permit until it ends. A WebSocket is forwarded by a second
task, and the upgrade ends the first one. Adaptive concurrency is off.
-/

namespace Conrogate

open List Calls

inductive ListenMode where
  | passthrough
  | tls
  | cleartext
deriving DecidableEq

inductive ConnTask where
  | waiting
  | serving
  | ended (served : Bool)
deriving DecidableEq

inductive WsTunnel where
  | none
  | awaiting
  | forwarding (notified : Bool)
  | done
deriving DecidableEq

structure ClientConn where
  task : ConnTask
  tunnel : WsTunnel
  upgraded : Bool
deriving DecidableEq

inductive ServerPhase where
  | accepting
  | draining
  | notified
  | returned
deriving DecidableEq

/-- The permits of the semaphore and the connections that hold them. -/
structure GatewayConns where
  phase : ServerPhase
  available : Nat
  taken : Nat
  returned : Nat
  conns : List ClientConn
deriving DecidableEq

inductive ServerEvent where
  | accept
  | acquire (i : Nat)
  | upgrade (i : Nat)
  | complete (i : Nat)
  | close (i : Nat)
  | start (i : Nat)
  | fail (i : Nat)
  | forward (i : Nat)
  | finish (i : Nat)
  | shutdown
  | notify
  | abort (i : Nat)
  | «return»
deriving DecidableEq

namespace GatewayConns

def start (maxConnections : Nat) : GatewayConns := ⟨.accepting, maxConnections, 0, 0, []⟩

variable (mode : ListenMode) (s : GatewayConns)

def set (i : Nat) (c : ClientConn) : GatewayConns := { s with conns := s.conns.set i c }

def endTask (i : Nat) (c : ClientConn) : GatewayConns :=
  match c.task with
  | .serving => { s with
    available := s.available + 1
    returned := s.returned + 1
    conns := s.conns.set i { c with task := .ended true } }
  | .waiting => s.set i { c with task := .ended false }
  | .ended _ => s

def notified (c : ClientConn) : ClientConn :=
  match c.tunnel with
  | .forwarding _ => { c with tunnel := .forwarding true }
  | _ => c

def hasEnded (c : ClientConn) : Bool :=
  match c.task with
  | .ended _ => true
  | _ => false

def step : ServerEvent → Option GatewayConns
  | .accept =>
    if s.phase = .accepting then some { s with conns := s.conns ++ [⟨.waiting, .none, false⟩] }
    else none
  | .acquire i => do
    let c ← s.conns[i]?
    if c.task = .waiting ∧ 0 < s.available then
      some { s with
        available := s.available - 1
        taken := s.taken + 1
        conns := s.conns.set i { c with task := .serving } }
    else none
  | .upgrade i => do
    let c ← s.conns[i]?
    if mode ≠ .passthrough ∧ c.task = .serving ∧ c.tunnel = .none then
      some (s.set i { c with tunnel := .awaiting })
    else none
  | .complete i => do
    let c ← s.conns[i]?
    if c.task = .serving ∧ c.tunnel = .awaiting then
      -- with TLS the connection is served without upgrades, and is not handed over
      some (s.endTask i { c with upgraded := mode = .cleartext })
    else none
  | .close i => do
    let c ← s.conns[i]?
    if c.task = .serving then some (s.endTask i c) else none
  | .start i => do
    let c ← s.conns[i]?
    if c.tunnel = .awaiting ∧ c.upgraded then
      some (s.set i { c with tunnel := .forwarding false })
    else none
  | .fail i => do
    let c ← s.conns[i]?
    if c.tunnel = .awaiting ∧ hasEnded c ∧ !c.upgraded then
      some (s.set i { c with tunnel := .done })
    else none
  | .forward i => do
    let c ← s.conns[i]?
    if c.tunnel = .forwarding false then some s else none
  | .finish i => do
    let c ← s.conns[i]?
    match c.tunnel with
    | .forwarding _ => some (s.set i { c with tunnel := .done })
    | _ => none
  | .shutdown => if s.phase = .accepting then some { s with phase := .draining } else none
  | .notify =>
    if s.phase = .draining then
      some { s with phase := .notified, conns := s.conns.map notified }
    else none
  | .abort i => do
    let c ← s.conns[i]?
    if s.phase = .notified ∧ !hasEnded c then some (s.endTask i c) else none
  | .return =>
    if s.phase = .notified ∧ s.conns.all hasEnded then some { s with phase := .returned } else none

/-- What each event of the server can do. -/
inductive Step (mode : ListenMode) (s : GatewayConns) : ServerEvent → GatewayConns → Prop
  | accept (hphase : s.phase = .accepting) :
      Step mode s .accept { s with conns := s.conns ++ [⟨.waiting, .none, false⟩] }
  | acquire (i : Nat) (c : ClientConn) (hc : s.conns[i]? = some c) (htask : c.task = .waiting)
      (hpos : 0 < s.available) : Step mode s (.acquire i)
        { s with
          available := s.available - 1
          taken := s.taken + 1
          conns := s.conns.set i { c with task := .serving } }
  | upgrade (i : Nat) (c : ClientConn) (hc : s.conns[i]? = some c) (htask : c.task = .serving)
      (htunnel : c.tunnel = .none) :
      Step mode s (.upgrade i) (s.set i { c with tunnel := .awaiting })
  | complete (i : Nat) (c : ClientConn) (hc : s.conns[i]? = some c) (htask : c.task = .serving)
      (htunnel : c.tunnel = .awaiting) : Step mode s (.complete i)
        { s with
          available := s.available + 1
          returned := s.returned + 1
          conns := s.conns.set i ⟨.ended true, c.tunnel, mode = .cleartext⟩ }
  | close (i : Nat) (c : ClientConn) (hc : s.conns[i]? = some c) (htask : c.task = .serving) :
      Step mode s (.close i)
        { s with
          available := s.available + 1
          returned := s.returned + 1
          conns := s.conns.set i { c with task := .ended true } }
  | start (i : Nat) (c : ClientConn) (hc : s.conns[i]? = some c) (htunnel : c.tunnel = .awaiting)
      (hupgraded : c.upgraded = true) :
      Step mode s (.start i) (s.set i { c with tunnel := .forwarding false })
  | fail (i : Nat) (c : ClientConn) (hc : s.conns[i]? = some c) (htunnel : c.tunnel = .awaiting)
      (hupgraded : c.upgraded = false) :
      Step mode s (.fail i) (s.set i { c with tunnel := .done })
  | forward (i : Nat) (c : ClientConn) (hc : s.conns[i]? = some c)
      (htunnel : c.tunnel = .forwarding false) : Step mode s (.forward i) s
  | finish (i : Nat) (c : ClientConn) (b : Bool) (hc : s.conns[i]? = some c)
      (htunnel : c.tunnel = .forwarding b) :
      Step mode s (.finish i) (s.set i { c with tunnel := .done })
  | shutdown (hphase : s.phase = .accepting) :
      Step mode s .shutdown { s with phase := .draining }
  | notify (hphase : s.phase = .draining) :
      Step mode s .notify { s with phase := .notified, conns := s.conns.map notified }
  | abortServing (i : Nat) (c : ClientConn) (hc : s.conns[i]? = some c)
      (hphase : s.phase = .notified) (htask : c.task = .serving) : Step mode s (.abort i)
        { s with
          available := s.available + 1
          returned := s.returned + 1
          conns := s.conns.set i { c with task := .ended true } }
  | abortWaiting (i : Nat) (c : ClientConn) (hc : s.conns[i]? = some c)
      (hphase : s.phase = .notified) (htask : c.task = .waiting) :
      Step mode s (.abort i) (s.set i { c with task := .ended false })
  | «return» (hphase : s.phase = .notified) (hall : ∀ c ∈ s.conns, hasEnded c = true) :
      Step mode s .return { s with phase := .returned }

variable {mode : ListenMode} {s t : GatewayConns} {e : ServerEvent}

lemma Step.of_step (h : s.step mode e = some t) : Step mode s e t := by
  cases e with
  | accept =>
    simp only [step, Option.ite_none_right_eq_some, Option.some.injEq] at h
    obtain ⟨hphase, rfl⟩ := h
    exact .accept hphase
  | acquire i =>
    obtain ⟨c, hc, ⟨htask, hpos⟩, rfl⟩ := guarded_eq_some.mp h
    exact .acquire i c hc htask hpos
  | upgrade i =>
    obtain ⟨c, hc, ⟨-, htask, htunnel⟩, rfl⟩ := guarded_eq_some.mp h
    exact .upgrade i c hc htask htunnel
  | complete i =>
    obtain ⟨c, hc, ⟨htask, htunnel⟩, rfl⟩ := guarded_eq_some.mp h
    simp only [endTask, htask]
    exact .complete i c hc htask htunnel
  | close i =>
    obtain ⟨c, hc, htask, rfl⟩ := guarded_eq_some.mp h
    simp only [endTask, htask]
    exact .close i c hc htask
  | start i =>
    obtain ⟨c, hc, ⟨htunnel, hupgraded⟩, rfl⟩ := guarded_eq_some.mp h
    exact .start i c hc htunnel hupgraded
  | fail i =>
    obtain ⟨c, hc, ⟨htunnel, -, hupgraded⟩, rfl⟩ := guarded_eq_some.mp h
    exact .fail i c hc htunnel (by simpa using hupgraded)
  | forward i =>
    obtain ⟨c, hc, htunnel, rfl⟩ := guarded_eq_some.mp h
    exact .forward i c hc htunnel
  | finish i =>
    simp only [step, Option.bind_eq_bind, Option.bind_eq_some_iff] at h
    obtain ⟨c, hc, h⟩ := h
    split at h
    · rename_i b htunnel
      cases h
      exact .finish i c b hc htunnel
    · cases h
  | shutdown =>
    simp only [step, Option.ite_none_right_eq_some, Option.some.injEq] at h
    obtain ⟨hphase, rfl⟩ := h
    exact .shutdown hphase
  | notify =>
    simp only [step, Option.ite_none_right_eq_some, Option.some.injEq] at h
    obtain ⟨hphase, rfl⟩ := h
    exact .notify hphase
  | abort i =>
    obtain ⟨c, hc, ⟨hphase, hended⟩, rfl⟩ := guarded_eq_some.mp h
    cases htask : c.task with
    | waiting =>
      simp only [endTask, htask]
      exact .abortWaiting i c hc hphase htask
    | serving =>
      simp only [endTask, htask]
      exact .abortServing i c hc hphase htask
    | ended b => simp [hasEnded, htask] at hended
  | «return» =>
    simp only [step, Option.ite_none_right_eq_some, Option.some.injEq, all_eq_true] at h
    obtain ⟨⟨hphase, hall⟩, rfl⟩ := h
    exact .return hphase hall

end GatewayConns

structure ClientConn.Inv (c : ClientConn) : Prop where
  waiting : c.task = .waiting → c.tunnel = .none
  upgraded : c.upgraded = true → c.task = .ended true
  forwarding : ∀ b, c.tunnel = .forwarding b → c.upgraded = true

namespace GatewayConns

variable {mode : ListenMode} {s t : GatewayConns} {e : ServerEvent}

lemma conns_inv_step (hs : ∀ c ∈ s.conns, c.Inv) (h : Step mode s e t) : ∀ c ∈ t.conns, c.Inv := by
  cases h with
  | accept =>
    intro c hc
    obtain hc | hc := mem_append.mp hc
    · exact hs c hc
    · obtain rfl := mem_singleton.mp hc
      exact ⟨fun _ => rfl, nofun, nofun⟩
  | acquire i c hc htask =>
    have hinv := hs c (mem_of_getElem? hc)
    refine forall_mem_set hs ⟨nofun, fun hup => ?_, hinv.forwarding⟩
    rw [hinv.upgraded hup] at htask
    cases htask
  | upgrade i c hc htask =>
    have hinv := hs c (mem_of_getElem? hc)
    refine forall_mem_set hs ⟨fun hwaiting => ?_, hinv.upgraded, nofun⟩
    rw [htask] at hwaiting
    cases hwaiting
  | complete i c hc htask htunnel =>
    refine forall_mem_set hs ⟨nofun, fun _ => rfl, fun b hb => ?_⟩
    rw [htunnel] at hb
    cases hb
  | close i c hc htask | abortServing i c hc hphase htask =>
    have hinv := hs c (mem_of_getElem? hc)
    exact forall_mem_set hs ⟨nofun, fun _ => rfl, hinv.forwarding⟩
  | start i c hc htunnel hupgraded =>
    have hinv := hs c (mem_of_getElem? hc)
    refine forall_mem_set hs ⟨fun hwaiting => ?_, hinv.upgraded, fun _ _ => hupgraded⟩
    rw [hinv.upgraded hupgraded] at hwaiting
    cases hwaiting
  | fail i c hc htunnel hupgraded =>
    have hinv := hs c (mem_of_getElem? hc)
    refine forall_mem_set hs ⟨fun hwaiting => ?_, hinv.upgraded, nofun⟩
    rw [hinv.waiting hwaiting] at htunnel
    cases htunnel
  | forward | shutdown | «return» => exact hs
  | finish i c b hc htunnel =>
    have hinv := hs c (mem_of_getElem? hc)
    refine forall_mem_set hs ⟨fun hwaiting => ?_, hinv.upgraded, nofun⟩
    rw [hinv.waiting hwaiting] at htunnel
    cases htunnel
  | notify =>
    intro c hc
    obtain ⟨d, hd, rfl⟩ := mem_map.mp hc
    have hinv := hs d hd
    rw [notified]
    split
    · rename_i b htunnel
      refine ⟨fun hwaiting => ?_, hinv.upgraded, fun _ _ => hinv.forwarding b htunnel⟩
      rw [hinv.waiting hwaiting] at htunnel
      cases htunnel
    · exact hinv
  | abortWaiting i c hc hphase htask =>
    have hinv := hs c (mem_of_getElem? hc)
    refine forall_mem_set hs ⟨nofun, fun hup => ?_, hinv.forwarding⟩
    rw [hinv.upgraded hup] at htask
    cases htask

end GatewayConns

end Conrogate
