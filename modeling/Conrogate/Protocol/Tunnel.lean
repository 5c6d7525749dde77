import Conrogate.Lib.Pipe
import Conrogate.Lib.Transition
import Conrogate.Protocol.Proxy

/-!
# The bytes of a TCP tunnel

`forward_tcp` runs `throttled_copy` in both directions in one task. A sink is closed only when both
loops have ended, or one has failed.
-/

namespace Conrogate

open List Pipe Option

def copyBufferSize : Nat := 8192

def sleepMicros (maxBytesPerSec : Option Nat) (n : Nat) : Option Nat :=
  match maxBytesPerSec with
  | none => none
  | some bps =>
    if bps = 0 then none
    else if n * 1000000 / bps > 0 then some (n * 1000000 / bps)
    else none

inductive CopyPhase where
  | reading
  | writing (n : Nat) (rest : List UInt8)
  | flushing (n : Nat)
  | sleeping (us : Nat)
  | done
deriving DecidableEq

open CopyPhase

def CopyPhase.pending : CopyPhase → List UInt8
  | .writing _ rest => rest
  | _ => []

/-- One direction of a tunnel. -/
structure Channel where
  source : Pipe UInt8
  phase : CopyPhase
  copied : Nat
  sink : Pipe UInt8

inductive ChannelEvent where
  | send (bytes : List UInt8)
  | close
  | read (n : Nat)
  | readEnd
  | write (n : Nat)
  | flush
  | wake
  | receive (n : Nat)
deriving DecidableEq

namespace ChannelEvent

def ofCopy : ChannelEvent → Bool
  | .read _ | .readEnd | .write _ | .flush | .wake => true
  | .send _ | .close | .receive _ => false

def internal : ChannelEvent → Bool
  | .send _ | .close => false
  | _ => true

end ChannelEvent

namespace Channel

def start : Channel := ⟨.empty, .reading, 0, .empty⟩

variable (maxBytesPerSec : Option Nat)

def step (c : Channel) : ChannelEvent → Option Channel
  | .send bytes =>
    if c.source.closed then none else some { c with source := c.source.write bytes }
  | .close => if c.source.closed then none else some { c with source := c.source.close }
  | .read n =>
    match c.phase with
    | .reading =>
      if n ≤ copyBufferSize then
        (c.source.take n).map fun (chunk, source) =>
          { c with source := source, phase := .writing n chunk, copied := c.copied + n }
      else none
    | _ => none
  | .readEnd =>
    match c.phase with
    | .reading => if c.source.atEnd then some { c with phase := .done } else none
    | _ => none
  | .write n =>
    match c.phase with
    | .writing m rest =>
      if 0 < n ∧ n ≤ rest.length then
        some { c with
          sink := c.sink.write (rest.take n)
          phase := if n = rest.length then .flushing m else .writing m (rest.drop n) }
      else none
    | _ => none
  | .flush =>
    match c.phase with
    | .flushing n =>
      match sleepMicros maxBytesPerSec n with
      | some us => some { c with phase := .sleeping us }
      | none    => some { c with phase := .reading }
    | _ => none
  | .wake =>
    match c.phase with
    | .sleeping _ => some { c with phase := .reading }
    | _ => none
  | .receive n => (c.sink.take n).map fun (_, sink) => { c with sink := sink }

end Channel

inductive Direction where
  | c2s
  | s2c
deriving DecidableEq

namespace Direction

def other : Direction → Direction
  | .c2s => .s2c
  | .s2c => .c2s

lemma forall_iff {P : Direction → Prop} : (∀ d, P d) ↔ P .c2s ∧ P .s2c :=
  ⟨fun h => ⟨h _, h _⟩, fun h d => by cases d; exacts [h.1, h.2]⟩

lemma forall_of_iff {P : Direction → Prop} (h : P .c2s ↔ P .s2c) {d : Direction} (hd : P d) :
    ∀ d, P d := by
  rw [forall_iff]
  cases d with
  | c2s => exact ⟨hd, h.mp hd⟩
  | s2c => exact ⟨h.mpr hd, hd⟩

end Direction

inductive ConnectFailure where
  | resolve (error : String)
  | timeout
  | connect (error : String)
deriving DecidableEq

def ConnectFailure.toError : ConnectFailure → ConrogateError
  | .resolve e => .upstreamConnectFailed ("DNS resolve: " ++ e)
  | .timeout   => .upstreamTimeout
  | .connect e => .upstreamConnectFailed e

/-- How far the connection to a tunnel port has come: `forward_tcp` connects, forwards and returns,
`handle` then releases the node, and the task of the connection ends and gives its permit back. -/
inductive ForwardStage where
  | connecting
  | forwarding
  | returned (result : Result TunnelStats)
  | released (result : Result TunnelStats)
  | ended (result : Result TunnelStats)

def ForwardStage.result : ForwardStage → Option (Result TunnelStats)
  | .connecting | .forwarding => none
  | .returned r | .released r | .ended r => some r

structure Tunnel where
  stage : ForwardStage
  channel : Direction → Channel

inductive TunnelEvent where
  | connected
  | connectFails (e : ConnectFailure)
  | channel (d : Direction) (e : ChannelEvent)
  | copyFails (d : Direction) (error : String)
  | join
  | release
  | «end»
deriving DecidableEq

namespace TunnelEvent

def internal : TunnelEvent → Bool
  | .connected | .join | .release | .end => true
  | .channel _ e => e.internal
  | .connectFails _ | .copyFails _ _ => false

/-- The steps of the two copies and what follows them, without any of a peer or the network. -/
def own : TunnelEvent → Bool
  | .channel _ e => e.ofCopy
  | .join | .release | .end => true
  | .connected | .connectFails _ | .copyFails _ _ => false

def failure : TunnelEvent → Bool
  | .connectFails _ | .copyFails _ _ => true
  | _ => false

end TunnelEvent

namespace Tunnel

def start : Tunnel := ⟨.connecting, fun _ => .start⟩

/-- `forward_tcp` returns; both write halves are dropped. -/
def finish (t : Tunnel) (result : Result TunnelStats) : Tunnel where
  stage := .returned result
  channel d := { t.channel d with sink := (t.channel d).sink.close }

def allows (t : Tunnel) (d : Direction) (e : ChannelEvent) : Bool :=
  match t.stage with
  | .connecting => d == .c2s && !e.ofCopy
  | .forwarding => true
  | _ => !e.ofCopy

def step (maxBytesPerSec : Option Nat) (t : Tunnel) : TunnelEvent → Option Tunnel
  | .connected =>
    match t.stage with
    | .connecting => some { t with stage := .forwarding }
    | _ => none
  | .connectFails e =>
    match t.stage with
    | .connecting => some (t.finish (.error e.toError))
    | _ => none
  | .channel d e =>
    if t.allows d e then
      ((t.channel d).step maxBytesPerSec e).map fun c =>
        { t with channel := Function.update t.channel d c }
    else none
  | .copyFails d error =>
    match t.stage, (t.channel d).phase with
    | .forwarding, .reading | .forwarding, .writing _ _ | .forwarding, .flushing _ =>
      some (t.finish (.error (.upstreamConnectFailed error)))
    | _, _ => none
  | .join =>
    match t.stage with
    | .forwarding =>
      if (t.channel .c2s).phase = .done ∧ (t.channel .s2c).phase = .done then
        some (t.finish (.ok ⟨(t.channel .s2c).copied, (t.channel .c2s).copied⟩))
      else none
    | _ => none
  | .release =>
    match t.stage with
    | .returned r => some { t with stage := .released r }
    | _ => none
  | .end =>
    match t.stage with
    | .released r => some { t with stage := .ended r }
    | _ => none

end Tunnel

/-! ### One direction -/

namespace Channel

variable {maxBytesPerSec : Option Nat} {c c' : Channel} {e : ChannelEvent}

inductive Step (c : Channel) : ChannelEvent → Channel → Prop
  | send (bytes : List UInt8) (hopen : c.source.closed = false) :
      Step c (.send bytes) { c with source := c.source.write bytes }
  | close (hopen : c.source.closed = false) : Step c .close { c with source := c.source.close }
  | read (n : Nat) (chunk : List UInt8) (source : Pipe UInt8) (hphase : c.phase = .reading)
      (htake : c.source.take n = some (chunk, source)) : Step c (.read n)
        { c with source := source, phase := .writing n chunk, copied := c.copied + n }
  | readEnd (hphase : c.phase = .reading) (hend : c.source.atEnd = true) :
      Step c .readEnd { c with phase := .done }
  | writeSome (n m : Nat) (rest : List UInt8) (hphase : c.phase = .writing m rest) (hpos : 0 < n)
      (hlt : n < rest.length) : Step c (.write n)
        { c with sink := c.sink.write (rest.take n), phase := .writing m (rest.drop n) }
  | writeLast (m : Nat) (rest : List UInt8) (hphase : c.phase = .writing m rest) :
      Step c (.write rest.length) { c with sink := c.sink.write rest, phase := .flushing m }
  | flush (n : Nat) (phase : CopyPhase) (hphase : c.phase = .flushing n)
      (hnext : phase = .reading ∨ ∃ us, phase = .sleeping us) :
      Step c .flush { c with phase := phase }
  | wake (us : Nat) (hphase : c.phase = .sleeping us) : Step c .wake { c with phase := .reading }
  | receive (n : Nat) (bytes : List UInt8) (sink : Pipe UInt8)
      (htake : c.sink.take n = some (bytes, sink)) : Step c (.receive n) { c with sink := sink }

lemma Step.of_step (h : c.step maxBytesPerSec e = some c') : Step c e c' := by
  cases e with
  | send bytes =>
    simp only [step, ite_none_left_eq_some, some.injEq] at h
    obtain ⟨hopen, rfl⟩ := h
    exact .send bytes (by simpa using hopen)
  | close =>
    simp only [step, ite_none_left_eq_some, some.injEq] at h
    obtain ⟨hopen, rfl⟩ := h
    exact .close (by simpa using hopen)
  | read n =>
    simp only [step] at h
    split at h
    · rename_i hphase
      simp only [ite_none_right_eq_some, map_eq_some_iff] at h
      obtain ⟨-, ⟨chunk, source⟩, htake, rfl⟩ := h
      exact .read n chunk source hphase htake
    · cases h
  | readEnd =>
    simp only [step] at h
    split at h
    · rename_i hphase
      simp only [ite_none_right_eq_some, some.injEq] at h
      obtain ⟨hend, rfl⟩ := h
      exact .readEnd hphase hend
    · cases h
  | write n =>
    simp only [step] at h
    split at h
    · rename_i m rest hphase
      simp only [ite_none_right_eq_some, some.injEq] at h
      obtain ⟨⟨hpos, hle⟩, rfl⟩ := h
      obtain rfl | hlt := hle.eq_or_lt
      · rw [if_pos rfl, take_length]
        exact .writeLast m rest hphase
      · rw [if_neg hlt.ne]
        exact .writeSome n m rest hphase hpos hlt
    · cases h
  | flush =>
    simp only [step] at h
    split at h
    · rename_i n hphase
      split at h
      · rename_i us _
        cases h
        exact .flush n _ hphase (.inr ⟨us, rfl⟩)
      · cases h
        exact .flush n _ hphase (.inl rfl)
    · cases h
  | wake =>
    simp only [step] at h
    split at h
    · rename_i us hphase
      cases h
      exact .wake us hphase
    · cases h
  | receive n =>
    simp only [step, map_eq_some_iff] at h
    obtain ⟨⟨bytes, sink⟩, htake, rfl⟩ := h
    exact .receive n bytes sink htake

/-- Nothing is lost or reordered on the way. -/
structure Inv (c : Channel) : Prop where
  content : c.source.received = c.sink.sent ++ c.phase.pending
  writing : ∀ n rest, c.phase = .writing n rest → rest ≠ []
  done : c.phase = .done → c.source.atEnd = true

lemma inv_start : start.Inv := ⟨rfl, nofun, nofun⟩

lemma Inv.step (hc : c.Inv) (h : Step c e c') : c'.Inv := by
  cases h with
  | send bytes hopen =>
    refine ⟨by simpa using hc.content, hc.writing, fun hdone => ?_⟩
    rw [(atEnd_iff.mp (hc.done hdone)).1] at hopen
    cases hopen
  | close hopen =>
    refine ⟨hc.content, hc.writing, fun hdone => ?_⟩
    rw [(atEnd_iff.mp (hc.done hdone)).1] at hopen
    cases hopen
  | read n chunk source hphase htake =>
    obtain ⟨hpos, hlength, -, -, hreceived, -⟩ := of_take htake
    have hcontent : c.source.received = c.sink.sent := by
      simpa [hphase, pending] using hc.content
    refine ⟨by rw [hreceived, hcontent]; rfl, ?_, nofun⟩
    intro m rest hrest
    cases hrest
    rintro rfl
    rw [← hlength] at hpos
    cases hpos
  | readEnd hphase hend =>
    refine ⟨?_, nofun, fun _ => hend⟩
    have hcontent := hc.content
    rwa [hphase] at hcontent
  | writeSome n m rest hphase hpos hlt =>
    have hcontent := hc.content
    rw [hphase, pending] at hcontent
    refine ⟨?_, ?_, nofun⟩
    · simp [hcontent, pending]
    · intro m' rest' hrest
      cases hrest
      simpa using hlt
  | writeLast m rest hphase =>
    have hcontent := hc.content
    rw [hphase, pending] at hcontent
    exact ⟨by simp [hcontent, pending], nofun, nofun⟩
  | flush n phase hphase hnext =>
    have hcontent := hc.content
    rw [hphase] at hcontent
    obtain rfl | ⟨us, rfl⟩ := hnext
    · exact ⟨hcontent, nofun, nofun⟩
    · exact ⟨hcontent, nofun, nofun⟩
  | wake us hphase =>
    have hcontent := hc.content
    rw [hphase] at hcontent
    exact ⟨hcontent, nofun, nofun⟩
  | receive n bytes sink htake =>
    obtain ⟨-, -, hsent, -⟩ := of_take htake
    exact ⟨by rw [hc.content, hsent], hc.writing, hc.done⟩

lemma Step.sink_closed (h : Step c e c') : c'.sink.closed = c.sink.closed := by
  cases h with
  | receive n bytes sink htake => exact (of_take htake).2.2.2.1
  | _ => rfl

lemma Step.source_closed (h : Step c e c') :
    c'.source.closed = true ↔ c.source.closed = true ∨ e = .close := by
  cases h with
  | read n chunk source hphase htake => simp [(of_take htake).2.2.2.1]
  | _ => simp

lemma Step.done (hc : c.phase = .done) (h : Step c e c') : c'.phase = .done := by
  cases h with
  | send | close | receive => exact hc
  | read | readEnd | writeSome | writeLast | flush | wake => simp_all

lemma Inv.received_isPrefix (hc : c.Inv) : c.sink.received <+: c.source.sent := by
  have hread : c.sink.sent <+: c.source.received := ⟨_, hc.content.symm⟩
  exact c.sink.received_isPrefix.trans (hread.trans c.source.received_isPrefix)

/-! ### The work that is left -/

end Channel

def CopyPhase.work : CopyPhase → Nat
  | .reading => 1
  | .writing _ rest => 4 + 2 * rest.length
  | .flushing _ => 3
  | .sleeping _ => 2
  | .done => 0

namespace Channel

variable {maxBytesPerSec : Option Nat} {c c' : Channel} {e : ChannelEvent}

def work (c : Channel) : Nat :=
  6 * c.source.unread.length + c.phase.work + c.sink.unread.length

lemma Step.work_lt (he : e.internal = true) (h : Step c e c') : c'.work < c.work := by
  cases h with
  | send => cases he
  | close => cases he
  | read n chunk source hphase htake =>
    obtain ⟨hpos, hlength, -, -, -, hunread⟩ := of_take htake
    simp only [work, hphase, CopyPhase.work, hunread, length_append]
    omega
  | readEnd hphase => simp [work, hphase, CopyPhase.work]
  | writeSome n m rest hphase hpos hlt =>
    simp only [work, hphase, CopyPhase.work, unread_write, length_append, length_take, length_drop]
    omega
  | writeLast m rest hphase =>
    simp only [work, hphase, CopyPhase.work, unread_write, length_append]
    omega
  | flush n phase hphase hnext =>
    obtain rfl | ⟨us, rfl⟩ := hnext <;> simp [work, hphase, CopyPhase.work]
  | wake us hphase => simp [work, hphase, CopyPhase.work]
  | receive n bytes sink htake =>
    obtain ⟨hpos, hlength, -, -, -, hunread⟩ := of_take htake
    simp only [work, hunread, length_append]
    omega

lemma quiet_copy (maxBytesPerSec : Option Nat) (hc : c.Inv)
    (h : ∀ e, e.ofCopy = true → c.step maxBytesPerSec e = none) :
    c.source.unread = [] ∧ c.phase.pending = [] ∧ (c.source.closed = true → c.phase = .done) := by
  cases hphase : c.phase with
  | reading =>
    have hunread : c.source.unread = [] := by
      by_contra hne
      obtain ⟨⟨chunk, source⟩, htake⟩ := exists_take hne
      have hread := h (.read 1) rfl
      simp [step, hphase, htake, copyBufferSize] at hread
    refine ⟨hunread, rfl, fun hclosed => ?_⟩
    have hend := h .readEnd rfl
    simp [step, hphase, atEnd_iff.mpr ⟨hclosed, hunread⟩] at hend
  | writing n rest =>
    have hwrite := h (.write rest.length) rfl
    have := length_pos_iff.mpr (hc.writing n rest hphase)
    simp [step, hphase, this] at hwrite
  | flushing n =>
    have hflush := h .flush rfl
    simp only [step, hphase] at hflush
    split at hflush <;> cases hflush
  | sleeping us =>
    have hwake := h .wake rfl
    simp [step, hphase] at hwake
  | done => exact ⟨(atEnd_iff.mp (hc.done hphase)).2, rfl, fun _ => rfl⟩

lemma quiet_receive (maxBytesPerSec : Option Nat)
    (h : ∀ n, c.step maxBytesPerSec (.receive n) = none) : c.sink.unread = [] := by
  by_contra hne
  obtain ⟨⟨bytes, sink⟩, htake⟩ := exists_take hne
  have hreceive := h 1
  simp [step, htake] at hreceive

lemma step_start (he : e.internal = true) : start.step maxBytesPerSec e = none := by
  have htake : ∀ n, (empty : Pipe UInt8).take n = none := fun n => take_eq_none rfl
  cases e with
  | send | close => cases he
  | read n => simp [step, start, htake]
  | receive n => simp [step, start, htake]
  | readEnd | write | flush | wake => rfl

lemma Inv.received_eq (hc : c.Inv) (hsource : c.source.unread = []) (hphase : c.phase.pending = [])
    (hsink : c.sink.unread = []) : c.sink.received = c.source.sent := by
  have hcontent := hc.content
  rw [hphase, append_nil, received_eq_sent hsource] at hcontent
  rw [received_eq_sent hsink, hcontent]

end Channel

end Conrogate
