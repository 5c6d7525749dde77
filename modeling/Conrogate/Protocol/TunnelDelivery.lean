import Conrogate.Protocol.Tunnel

/-!
# What arrives through a TCP tunnel

The end of a stream arrives only with the end of the other one. A peer that closes its side and one
that waits for the end of the request wait for ever.
-/

namespace Conrogate

open Transition Option Function TunnelEvent

namespace Tunnel

variable {maxBytesPerSec : Option Nat} {t u : Tunnel} {e : TunnelEvent} {events : List TunnelEvent}

inductive Step (t : Tunnel) : TunnelEvent → Tunnel → Prop
  | connected (hstage : t.stage = .connecting) : Step t .connected { t with stage := .forwarding }
  | connectFails (e : ConnectFailure) (hstage : t.stage = .connecting) :
      Step t (.connectFails e) (t.finish (.error e.toError))
  | channel (d : Direction) (e : ChannelEvent) (c : Channel) (hallows : t.allows d e = true)
      (hstep : (t.channel d).Step e c) :
      Step t (.channel d e) { t with channel := Function.update t.channel d c }
  | copyFails (d : Direction) (error : String) (hstage : t.stage = .forwarding) :
      Step t (.copyFails d error) (t.finish (.error (.upstreamConnectFailed error)))
  | join (hstage : t.stage = .forwarding) (hdone : ∀ d, (t.channel d).phase = .done) :
      Step t .join (t.finish (.ok ⟨(t.channel .s2c).copied, (t.channel .c2s).copied⟩))
  | release (r : Result TunnelStats) (hstage : t.stage = .returned r) :
      Step t .release { t with stage := .released r }
  | «end» (r : Result TunnelStats) (hstage : t.stage = .released r) :
      Step t .end { t with stage := .ended r }

lemma Step.of_step (h : t.step maxBytesPerSec e = some u) : Step t e u := by
  cases e with
  | connected =>
    simp only [step] at h
    split at h
    · rename_i hstage
      cases h
      exact .connected hstage
    · cases h
  | connectFails e =>
    simp only [step] at h
    split at h
    · rename_i hstage
      cases h
      exact .connectFails e hstage
    · cases h
  | channel d e =>
    simp only [step, ite_none_right_eq_some, map_eq_some_iff] at h
    obtain ⟨hallows, c, hc, rfl⟩ := h
    exact .channel d e c hallows (.of_step hc)
  | copyFails d error =>
    simp only [step] at h
    split at h
    case h_4 => cases h
    all_goals
      rename_i hstage _
      cases h
      exact .copyFails d error hstage
  | join =>
    simp only [step] at h
    split at h
    · rename_i hstage
      simp only [ite_none_right_eq_some, some.injEq] at h
      obtain ⟨hdone, rfl⟩ := h
      exact .join hstage (Direction.forall_iff.mpr hdone)
    · cases h
  | release =>
    simp only [step] at h
    split at h
    · rename_i r hstage
      cases h
      exact .release r hstage
    · cases h
  | «end» =>
    simp only [step] at h
    split at h
    · rename_i r hstage
      cases h
      exact .end r hstage
    · cases h

structure Inv (t : Tunnel) : Prop where
  channel : ∀ d, (t.channel d).Inv
  closed : ∀ d, (t.channel d).sink.closed = t.stage.result.isSome
  done : ∀ stats, t.stage.result = some (.ok stats) → ∀ d, (t.channel d).phase = .done

lemma inv_start : start.Inv := ⟨fun _ => Channel.inv_start, fun _ => rfl, nofun⟩

lemma Inv.finish (ht : t.Inv) {result : Result TunnelStats}
    (hdone : ∀ stats, result = .ok stats → ∀ d, (t.channel d).phase = .done) :
    (t.finish result).Inv where
  channel d := ⟨(ht.channel d).content, (ht.channel d).writing, (ht.channel d).done⟩
  closed _ := rfl
  done stats h := hdone stats (some.inj h)

lemma Inv.step (ht : t.Inv) (h : Step t e u) : u.Inv := by
  cases h with
  | connected hstage =>
    refine ⟨ht.channel, fun d => ?_, nofun⟩
    rw [ht.closed d, hstage]
    rfl
  | connectFails => exact ht.finish nofun
  | channel d e c hallows hstep =>
    refine ⟨?_, ?_, ?_⟩
    · refine (forall_update_iff t.channel (p := fun _ c => c.Inv)).mpr ?_
      exact ⟨(ht.channel d).step hstep, fun d' _ => ht.channel d'⟩
    · refine (forall_update_iff t.channel (p := fun _ c => c.sink.closed = _)).mpr ?_
      exact ⟨hstep.sink_closed.trans (ht.closed d), fun d' _ => ht.closed d'⟩
    · intro stats hresult
      refine (forall_update_iff t.channel (p := fun _ c => c.phase = _)).mpr ?_
      exact ⟨hstep.done (ht.done stats hresult d), fun d' _ => ht.done stats hresult d'⟩
  | copyFails => exact ht.finish nofun
  | join hstage hdone => exact ht.finish fun _ _ => hdone
  | release r hstage =>
    refine ⟨ht.channel, fun d => ?_, fun stats hok => ht.done stats ?_⟩
    · rw [ht.closed d, hstage]
      rfl
    · rw [hstage]
      exact hok
  | «end» r hstage =>
    refine ⟨ht.channel, fun d => ?_, fun stats hok => ht.done stats ?_⟩
    · rw [ht.closed d, hstage]
      rfl
    · rw [hstage]
      exact hok

lemma inv_of_run (h : run (step maxBytesPerSec) start events = some t) : t.Inv := by
  refine invariant ?_ inv_start h
  intro s a u hs hu
  exact hs.step (.of_step hu)

lemma Step.source_closed (h : Step t e u) (d : Direction) :
    (u.channel d).source.closed = true ↔
      (t.channel d).source.closed = true ∨ e = .channel d .close := by
  cases h with
  | channel d' e c hallows hstep =>
    obtain rfl | hne := eq_or_ne d d'
    · simp [hstep.source_closed]
    · simp [update_of_ne hne, hne.symm]
  | _ => simp [finish]

lemma closed_iff_of_run (h : run (step maxBytesPerSec) start events = some t)
    (d : Direction) : (t.channel d).source.closed = true ↔ .channel d .close ∈ events := by
  refine history_induction
    (P := fun events t => (t.channel d).source.closed = true ↔ .channel d .close ∈ events) ?_ ?_ h
  · simp [start, Channel.start, Pipe.empty]
  · intro events u e v _ ih hv
    rw [(Step.of_step hv).source_closed d, ih, List.mem_append, List.mem_singleton, eq_comm]

lemma ok_of_run (h : run (step maxBytesPerSec) start events = some t)
    (hok : ∀ e ∈ events, e.failure = false) {r : Result TunnelStats}
    (hr : t.stage.result = some r) : ∃ stats, r = .ok stats := by
  have hmeets : Meets (step maxBytesPerSec) (fun _ e => e.failure = false) start
      events := meets_of_forall fun e he _ => hok e he
  refine invariant_of_meets
    (I := fun t => ∀ r, t.stage.result = some r → ∃ stats, r = .ok stats) ?_ nofun hmeets h r hr
  intro s e u ih he hu r hr
  cases Step.of_step hu with
  | connected => cases hr
  | connectFails => cases he
  | channel => exact ih r hr
  | copyFails => cases he
  | join =>
    cases hr
    exact ⟨_, rfl⟩
  | release r' hstage | «end» r' hstage =>
    refine ih r ?_
    rw [hstage]
    exact hr

/-- A bound on the steps that are left. -/
def work (t : Tunnel) : Nat :=
  (t.channel .c2s).work + (t.channel .s2c).work +
    match t.stage with
    | .connecting => 4
    | .forwarding => 3
    | .returned _ => 2
    | .released _ => 1
    | .ended _    => 0

lemma Step.work_lt (he : e.internal = true) (h : Step t e u) : u.work < t.work := by
  cases h with
  | connected hstage => simp [work, hstage]
  | connectFails => cases he
  | channel d e c hallows hstep =>
    have hlt := hstep.work_lt he
    cases d <;> simp [work, hlt]
  | copyFails => cases he
  | join hstage hdone =>
    simp [work, hstage, finish, Channel.work]
  | release r hstage => simp [work, hstage]
  | «end» r hstage => simp [work, hstage]

lemma work_lt_of_step (he : e.internal = true) (h : t.step maxBytesPerSec e = some u) :
    u.work < t.work := (Step.of_step h).work_lt he

def Quiet (maxBytesPerSec : Option Nat) (t : Tunnel) : Prop :=
  Transition.Quiet (step maxBytesPerSec) internal t

lemma work_lt_of_own (he : e.own = true) (h : t.step maxBytesPerSec e = some u) :
    u.work < t.work := by
  refine work_lt_of_step ?_ h
  cases e with
  | channel d e => cases e <;> first | rfl | cases he
  | _ => first | rfl | cases he

/-- From every state, the tunnel takes at most `work` steps of its own, and some run of them leads
to a state in which it has none. -/
theorem own_steps_le_work (maxBytesPerSec : Option Nat) (t : Tunnel) :
    (∀ events u, (∀ e ∈ events, own e = true) →
      run (step maxBytesPerSec) t events = some u → events.length ≤ t.work) ∧
    ∃ events u, (∀ e ∈ events, own e = true) ∧
      run (step maxBytesPerSec) t events = some u ∧
      Transition.Quiet (step maxBytesPerSec) own u := by
  refine ⟨?_, exists_quiet (fun _ _ _ he h => work_lt_of_own he h) t⟩
  intro events u hown hrun
  have hlength := length_le_of_decreasing (fun _ _ _ he h => work_lt_of_own he h) hown hrun
  omega

lemma Quiet.channel {d : Direction} {e : ChannelEvent} (h : t.Quiet maxBytesPerSec)
    (he : e.internal = true) (hallows : t.allows d e = true) :
    (t.channel d).step maxBytesPerSec e = none := by
  have hnone := h (.channel d e) he
  simpa [step, hallows] using hnone

lemma Quiet.stage (h : t.Quiet maxBytesPerSec) :
    t.stage = .forwarding ∨ ∃ r, t.stage = .ended r := by
  cases hstage : t.stage with
  | connecting =>
    have hconnected := h .connected rfl
    simp [step, hstage] at hconnected
  | forwarding => exact .inl rfl
  | returned r =>
    have hrelease := h .release rfl
    simp [step, hstage] at hrelease
  | released r =>
    have hend := h .end rfl
    simp [step, hstage] at hend
  | ended r => exact .inr ⟨r, rfl⟩

lemma Quiet.sink_unread (h : t.Quiet maxBytesPerSec) (d : Direction) :
    (t.channel d).sink.unread = [] := by
  refine Channel.quiet_receive maxBytesPerSec fun n => h.channel rfl ?_
  obtain hstage | ⟨r, hstage⟩ := h.stage <;> simp [allows, hstage, ChannelEvent.ofCopy]

lemma Quiet.copy (ht : t.Inv) (h : t.Quiet maxBytesPerSec) (hstage : t.stage = .forwarding)
    (d : Direction) : (t.channel d).source.unread = [] ∧ (t.channel d).phase.pending = [] ∧
      ((t.channel d).source.closed = true → (t.channel d).phase = .done) := by
  refine Channel.quiet_copy maxBytesPerSec (ht.channel d) fun e he => ?_
  refine h.channel ?_ (by simp [allows, hstage])
  cases e <;> first | rfl | cases he

section

variable (ht : t.Inv) (h : t.Quiet maxBytesPerSec)
  (hok : ∀ r, t.stage.result = some r → ∃ stats, r = .ok stats)
include ht h hok

lemma Quiet.received (d : Direction) :
    (t.channel d).sink.received = (t.channel d).source.sent := by
  obtain hstage | ⟨r, hstage⟩ := h.stage
  · obtain ⟨hunread, hpending, -⟩ := h.copy ht hstage d
    exact (ht.channel d).received_eq hunread hpending (h.sink_unread d)
  · obtain ⟨stats, rfl⟩ := hok r (by rw [hstage]; rfl)
    have hdone := ht.done stats (by rw [hstage]; rfl) d
    have hend := Pipe.atEnd_iff.mp ((ht.channel d).done hdone)
    exact (ht.channel d).received_eq hend.2 (by rw [hdone]; rfl) (h.sink_unread d)

lemma Quiet.ended_iff :
    (∃ r, t.stage = .ended r) ↔ ∀ d, (t.channel d).source.closed = true := by
  constructor
  · rintro ⟨r, hstage⟩ d
    obtain ⟨stats, rfl⟩ := hok r (by rw [hstage]; rfl)
    have hdone := ht.done stats (by rw [hstage]; rfl) d
    exact (Pipe.atEnd_iff.mp ((ht.channel d).done hdone)).1
  · intro hclosed
    refine h.stage.resolve_left fun hstage => ?_
    have hjoin := h .join rfl
    have hdone : ∀ d, (t.channel d).phase = .done := fun d => (h.copy ht hstage d).2.2 (hclosed d)
    simp [step, hstage, hdone] at hjoin

end

/-- What a tunnel is for: the peers get what was sent to them, in order. Once the gateway has done
all that it can, they have got all of it and the end of it, and the tunnel has ended if one peer has
closed its side, and each that is at the end has. -/
structure Delivers (maxBytesPerSec : Option Nat) (t : Tunnel) : Prop where
  ordered : ∀ d, (t.channel d).sink.received <+: (t.channel d).source.sent
  complete : t.Quiet maxBytesPerSec → ∀ d,
    (t.channel d).sink.received = (t.channel d).source.sent
  endOfStream : t.Quiet maxBytesPerSec → ∀ d, (t.channel d).source.closed = true →
    (t.channel d).sink.atEnd = true
  ends : t.Quiet maxBytesPerSec → (∃ d, (t.channel d).source.closed = true) →
    (∀ d, (t.channel d.other).sink.atEnd = true → (t.channel d).source.closed = true) →
    ∃ r, t.stage = .ended r

/-- Without an error of the network, the tunnel comes to rest, and delivers what it should exactly
if both peers close or none does. -/
theorem delivers_iff (h : run (step maxBytesPerSec) start events = some t)
    (hok : ∀ e ∈ events, e.failure = false) :
    (∀ more u, (∀ e ∈ more, e.internal = true) →
      run (step maxBytesPerSec) t more = some u → more.length ≤ t.work) ∧
    (t.Delivers maxBytesPerSec ↔ (t.Quiet maxBytesPerSec →
      (.channel .c2s .close ∈ events ↔ .channel .s2c .close ∈ events))) := by
  have ht := inv_of_run h
  have hresult : ∀ r, t.stage.result = some r → ∃ stats, r = .ok stats :=
    fun r hr => ok_of_run h hok hr
  rw [← closed_iff_of_run h, ← closed_iff_of_run h]
  constructor
  · intro more u hmore hrun
    have hlength := length_le_of_decreasing
      (fun _ _ _ he hv => work_lt_of_step he hv) hmore hrun
    omega
  constructor
  · intro hdelivers hquiet
    have hend := hdelivers.endOfStream hquiet
    -- a peer at its end means that the tunnel has ended, and then both sides are closed
    have hboth : ∀ d, (t.channel d).source.closed = true →
        ∀ d', (t.channel d').source.closed = true := by
      intro d hclosed
      have hsink := (Pipe.atEnd_iff.mp (hend d hclosed)).1
      rw [ht.closed d] at hsink
      obtain hstage | hended := hquiet.stage
      · rw [hstage] at hsink
        cases hsink
      · exact (hquiet.ended_iff ht hresult).mp hended
    exact ⟨fun hc => hboth _ hc _, fun hc => hboth _ hc _⟩
  · intro hcond
    have hboth : t.Quiet maxBytesPerSec → ∀ d, (t.channel d).source.closed = true →
        ∀ d, (t.channel d).source.closed = true := by
      intro hquiet d hclosed
      exact Direction.forall_of_iff (P := fun d => (t.channel d).source.closed = true)
        (hcond hquiet) hclosed
    refine ⟨fun d => (ht.channel d).received_isPrefix, ?_, ?_, ?_⟩
    · exact fun hquiet => hquiet.received ht hresult
    · intro hquiet d hclosed
      obtain ⟨r, hstage⟩ := (hquiet.ended_iff ht hresult).mpr (hboth hquiet d hclosed)
      refine Pipe.atEnd_iff.mpr ⟨?_, hquiet.sink_unread d⟩
      rw [ht.closed d, hstage]
      rfl
    · rintro hquiet ⟨d, hclosed⟩ -
      exact (hquiet.ended_iff ht hresult).mpr (hboth hquiet d hclosed)

theorem delivers_both_close :
    let events : List TunnelEvent := [.channel .c2s (.send [1, 2]), .connected,
      .channel .c2s (.read 2), .channel .c2s (.write 1), .channel .c2s (.write 1),
      .channel .c2s .flush, .channel .c2s (.receive 2), .channel .c2s .close,
      .channel .c2s .readEnd, .channel .s2c .close, .channel .s2c .readEnd, .join, .release, .end]
    ∃ t, run (step none) start events = some t ∧ t.Delivers none := by
  intro events
  have hrun : (run (step none) start events).isSome = true := by decide
  obtain ⟨t, ht⟩ := isSome_iff_exists.mp hrun
  refine ⟨t, ht, ((delivers_iff ht (by decide)).2).mpr fun _ => ?_⟩
  decide

/-- The client has sent all, closed its side and waits for the answer; the upstream has got the
bytes and waits for their end. -/
theorem half_closed_tunnel_waits :
    let events : List TunnelEvent := [.channel .c2s (.send [1]), .connected, .channel .c2s .close,
      .channel .c2s (.read 1), .channel .c2s (.write 1), .channel .c2s .flush,
      .channel .c2s .readEnd, .channel .c2s (.receive 1)]
    ∃ t, run (step none) start events = some t ∧ t.Quiet none ∧
      (t.channel .c2s).source.closed = true ∧ (t.channel .c2s).sink.received = [1] ∧
      (∀ d, (t.channel d).sink.atEnd = false) ∧ t.stage = .forwarding := by
  intro events
  have hrun : (run (step none) start events).isSome = true := by decide
  refine ⟨_, (some_get hrun).symm, ?_, rfl, rfl, Direction.forall_iff.mpr ⟨rfl, rfl⟩, rfl⟩
  intro e he
  cases e with
  | connected | join | release | «end» => rfl
  | connectFails e => cases he
  | copyFails d error => cases he
  | channel d e =>
    suffices hnone : ((get _ hrun).channel d).step none e = none by
      rw [step, hnone, map_none, ite_self]
    cases d with
    | c2s =>
      cases e with
      | send | close => cases he
      | receive n => exact map_eq_none_iff.mpr (Pipe.take_eq_none rfl)
      | _ => rfl
    | s2c => exact Channel.step_start he

end Tunnel

end Conrogate
