import Conrogate.Gateway.Connections

/-!
# The end of `run_with_shutdown`

`notify_waiters` wakes the tunnels that wait for it, and the tasks of the connections are aborted. A
tunnel that gets its connection only later forwards on after the end.
-/

namespace Conrogate

open Transition GatewayConns

namespace GatewayConns

variable {mode : ListenMode} {s t : GatewayConns} {e : ServerEvent} {events : List ServerEvent}

/-- The broadcast is not missed: when it is made, no tunnel has a connection to take over, and hyper
hands none over after it. -/
def broadcastReaches (s : GatewayConns) : ServerEvent → Bool
  | .notify => s.conns.all fun c => !(c.tunnel = .awaiting && c.upgraded)
  | .complete _ => s.phase = .accepting || s.phase = .draining
  | _ => true

def isNotified (s : GatewayConns) : Prop := s.phase = .notified ∨ s.phase = .returned

structure TunnelQuiet (c : ClientConn) : Prop where
  awaiting : c.tunnel = .awaiting → c.upgraded = false
  forwarding : c.tunnel ≠ .forwarding false

structure AfterBroadcast (s : GatewayConns) : Prop where
  quiet : s.isNotified → ∀ c ∈ s.conns, TunnelQuiet c
  ended : s.phase = .returned → ∀ c ∈ s.conns, hasEnded c = true

lemma AfterBroadcast.set (hs : s.AfterBroadcast) {i : Nat} {c c' : ClientConn}
    (hc : s.conns[i]? = some c) (hphase : t.phase = s.phase) (ht : t.conns = s.conns.set i c')
    (hquiet : s.isNotified → TunnelQuiet c → TunnelQuiet c')
    (hended : hasEnded c = true → hasEnded c' = true) : t.AfterBroadcast := by
  have hmem := List.mem_of_getElem? hc
  refine ⟨fun hnotified => ?_, fun hreturned => ?_⟩
  · rw [isNotified, hphase] at hnotified
    rw [ht]
    exact Calls.forall_mem_set (hs.quiet hnotified)
      (hquiet hnotified (hs.quiet hnotified c hmem))
  · rw [hphase] at hreturned
    rw [ht]
    exact Calls.forall_mem_set (hs.ended hreturned) (hended (hs.ended hreturned c hmem))

lemma tunnelQuiet_notified {c : ClientConn} (hc : c.tunnel = .awaiting → c.upgraded = false) :
    TunnelQuiet (notified c) := by
  rw [notified]
  split
  · constructor
    · rintro ⟨⟩
    · rintro ⟨⟩
  · rename_i hforwarding
    exact ⟨hc, hforwarding false⟩

lemma AfterBroadcast.step (hs : s.AfterBroadcast) (hconns : ∀ c ∈ s.conns, c.Inv)
    (hok : s.broadcastReaches e = true) (h : Step mode s e t) : t.AfterBroadcast := by
  cases h with
  | accept hphase =>
    refine ⟨fun hnotified => ?_, fun hreturned => ?_⟩
    · rw [isNotified, hphase] at hnotified
      obtain h | h := hnotified <;> cases h
    · rw [hphase] at hreturned
      cases hreturned
  | acquire i c hc htask =>
    refine hs.set hc rfl rfl (fun _ hquiet => ⟨hquiet.awaiting, hquiet.forwarding⟩) ?_
    simp [hasEnded, htask]
  | upgrade i c hc htask =>
    refine hs.set hc rfl rfl (fun _ _ => ⟨fun _ => ?_, by rintro ⟨⟩⟩) id
    -- the connection is still served
    by_contra hupgraded
    have hended := (hconns c (List.mem_of_getElem? hc)).upgraded (by simpa using hupgraded)
    rw [hended] at htask
    cases htask
  | complete i c hc htask htunnel =>
    refine hs.set hc rfl rfl (fun hnotified _ => ?_) fun _ => rfl
    obtain hphase | hphase := hnotified <;> simp [broadcastReaches, hphase] at hok
  | close i c hc htask | abortServing i c hc hphase htask =>
    exact hs.set hc rfl rfl (fun _ hquiet => ⟨hquiet.awaiting, hquiet.forwarding⟩) fun _ => rfl
  | start i c hc htunnel hupgraded =>
    refine hs.set hc rfl rfl (fun _ hquiet => ?_) id
    rw [hquiet.awaiting htunnel] at hupgraded
    cases hupgraded
  | fail i c hc | finish i c b hc =>
    refine hs.set hc rfl rfl (fun _ _ => ⟨?_, ?_⟩) id
    · rintro ⟨⟩
    · rintro ⟨⟩
  | forward => exact hs
  | shutdown hphase =>
    refine ⟨fun hnotified => ?_, by rintro ⟨⟩⟩
    obtain h | h := hnotified <;> cases h
  | notify hphase =>
    refine ⟨fun _ c hc => ?_, by rintro ⟨⟩⟩
    obtain ⟨d, hd, rfl⟩ := List.mem_map.mp hc
    refine tunnelQuiet_notified fun htunnel => ?_
    simpa [htunnel] using List.all_eq_true.mp hok d hd
  | abortWaiting i c hc hphase htask =>
    exact hs.set hc rfl rfl (fun _ hquiet => ⟨hquiet.awaiting, hquiet.forwarding⟩) fun _ => rfl
  | «return» hphase hall =>
    exact ⟨fun _ => hs.quiet (.inl hphase), fun _ => hall⟩

end GatewayConns

end Conrogate
