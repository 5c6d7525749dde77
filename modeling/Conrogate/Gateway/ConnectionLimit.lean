import Conrogate.Gateway.Connections

/-!
# The limit on connections

The semaphore bounds the connections whose tasks are running, and every permit is given back. A
WebSocket gives its permit back with the upgrade, so its tunnel is served beyond the limit.
-/

namespace Conrogate

/-! ### Permits -/

namespace ClientConn

def held (c : ClientConn) : Bool :=
  match c.task with
  | .serving => true
  | _ => false

def gaveBack (c : ClientConn) : Bool :=
  match c.task with
  | .ended served => served
  | _ => false

def detached (c : ClientConn) : Bool :=
  c.upgraded && match c.tunnel with
    | .awaiting | .forwarding _ => true
    | .none | .done => false

def served (c : ClientConn) : Bool := c.held || c.detached

end ClientConn

namespace GatewayConns

open ClientConn Transition GatewayConns

def heldCount (s : GatewayConns) : Nat := s.conns.countP held

def detachedCount (s : GatewayConns) : Nat := s.conns.countP detached

def servedCount (s : GatewayConns) : Nat := s.conns.countP served

structure Permits (maxConnections : Nat) (s : GatewayConns) : Prop where
  available : s.available + s.heldCount = maxConnections
  taken : s.taken = s.heldCount + s.conns.countP gaveBack
  returned : s.returned = s.conns.countP gaveBack

variable {mode : ListenMode} {maxConnections : Nat} {s t : GatewayConns} {e : ServerEvent}
  {events : List ServerEvent}

lemma countP_map_notified {p : ClientConn → Bool} (hp : ∀ c, p (notified c) = p c) :
    (s.conns.map notified).countP p = s.conns.countP p := by
  rw [List.countP_map]
  exact List.countP_congr fun c _ => by rw [Function.comp_apply, hp]

lemma task_notified (c : ClientConn) : (notified c).task = c.task := by
  rw [notified]
  split <;> rfl

lemma detached_notified (c : ClientConn) : (notified c).detached = c.detached := by
  rw [notified]
  split
  · rename_i b htunnel
    simp [detached, htunnel]
  · rfl

lemma Permits.set (hs : s.Permits maxConnections) {i : Nat} {c c' : ClientConn}
    (hc : s.conns[i]? = some c) (ht : t.conns = s.conns.set i c')
    (havailable : t.available + c'.held.toNat = s.available + c.held.toNat)
    (htaken : t.taken + c.held.toNat + c.gaveBack.toNat =
      s.taken + c'.held.toNat + c'.gaveBack.toNat)
    (hreturned : t.returned + c.gaveBack.toNat = s.returned + c'.gaveBack.toNat) :
    t.Permits maxConnections := by
  obtain ⟨h1, h2, h3⟩ := hs
  have hheld : (s.conns.set i c').countP held + c.held.toNat = s.conns.countP held +
    c'.held.toNat := Calls.countP_set_add hc
  have hgave : (s.conns.set i c').countP gaveBack + c.gaveBack.toNat =
    s.conns.countP gaveBack + c'.gaveBack.toNat := Calls.countP_set_add hc
  rw [heldCount] at h1 h2
  refine ⟨?_, ?_, ?_⟩
  · rw [heldCount, ht]
    omega
  · rw [heldCount, ht]
    omega
  · rw [ht]
    omega

lemma Permits.step (hs : s.Permits maxConnections) (h : Step mode s e t) :
    t.Permits maxConnections := by
  cases h with
  | accept =>
    refine ⟨?_, ?_, ?_⟩
    · simpa [heldCount, held] using hs.available
    · simpa [heldCount, held, gaveBack] using hs.taken
    · simpa [gaveBack] using hs.returned
  | acquire i c hc htask hpos =>
    refine hs.set hc rfl ?_ ?_ ?_ <;> simp only [held, gaveBack, htask, Bool.toNat_true,
      Bool.toNat_false]
    omega
  | upgrade i c hc | start i c hc | fail i c hc | finish i c b hc =>
    exact hs.set hc rfl rfl rfl rfl
  | complete i c hc htask | close i c hc htask | abortServing i c hc hphase htask =>
    refine hs.set hc rfl ?_ ?_ ?_ <;> simp only [held, gaveBack, htask, Bool.toNat_true,
      Bool.toNat_false, Nat.add_zero]
  | forward => exact hs
  | shutdown | «return» => exact ⟨hs.available, hs.taken, hs.returned⟩
  | notify =>
    have hheld : ∀ c, (notified c).held = c.held := fun c => by rw [held, held, task_notified]
    have hgave : ∀ c, (notified c).gaveBack = c.gaveBack := fun c => by
      rw [gaveBack, gaveBack, task_notified]
    refine ⟨?_, ?_, ?_⟩
    · rw [heldCount, countP_map_notified hheld]
      exact hs.available
    · rw [heldCount, countP_map_notified hheld, countP_map_notified hgave]
      exact hs.taken
    · rw [countP_map_notified hgave]
      exact hs.returned
  | abortWaiting i c hc hphase htask =>
    refine hs.set hc rfl ?_ ?_ ?_ <;> simp only [GatewayConns.set, held, gaveBack, htask]

/-! ### The connections that are served -/

lemma served_toNat {c : ClientConn} (hc : c.Inv) :
    c.served.toNat = c.held.toNat + c.detached.toNat := by
  cases hup : c.upgraded with
  | false => simp [served, detached, hup]
  | true => simp [served, held, hc.upgraded hup]

lemma servedCount_eq (hs : ∀ c ∈ s.conns, c.Inv) :
    s.servedCount = s.heldCount + s.detachedCount := by
  rw [servedCount, heldCount, detachedCount]
  generalize s.conns = conns at hs
  induction conns with
  | nil => rfl
  | cons c conns ih =>
    have hrest := ih fun d hd => hs d (List.mem_cons_of_mem c hd)
    have hfirst := served_toNat (hs c List.mem_cons_self)
    have hcount : ∀ p : ClientConn → Bool,
        (c :: conns).countP p = conns.countP p + (p c).toNat := by
      intro p
      cases hp : p c <;> simp [hp]
    rw [hcount, hcount, hcount]
    omega

lemma servedCount_set_le {i : Nat} {c c' : ClientConn} (hc : s.conns[i]? = some c)
    (ht : t.conns = s.conns.set i c') (h : c'.served = true → c.served = true) :
    t.servedCount ≤ s.servedCount := by
  have hcount : (s.conns.set i c').countP served + c.served.toNat = s.conns.countP served +
    c'.served.toNat := Calls.countP_set_add hc
  have hle : c'.served.toNat ≤ c.served.toNat := by
    cases hc' : c'.served with
    | false => exact Nat.zero_le _
    | true => exact Nat.le_of_eq (congrArg Bool.toNat (h hc').symm)
  rw [servedCount, servedCount, ht]
  omega

lemma Step.served_le (h : Step mode s e t) (he : ∀ i, e ≠ .acquire i) :
    t.servedCount ≤ s.servedCount := by
  cases h with
  | accept => simp [servedCount, served, held, detached]
  | acquire i => exact absurd rfl (he i)
  | upgrade i c hc htask | complete i c hc htask | close i c hc htask
  | abortServing i c hc hphase htask =>
    refine servedCount_set_le hc rfl fun _ => ?_
    simp [served, held, htask]
  | start i c hc htunnel hupgraded =>
    refine servedCount_set_le hc rfl fun _ => ?_
    simp [served, detached, htunnel, hupgraded]
  | fail i c hc | finish i c b hc =>
    refine servedCount_set_le hc rfl fun h => ?_
    have hheld : c.held = true := by simpa [served, held, detached] using h
    simp [served, hheld]
  | forward | shutdown | «return» => exact Nat.le_refl _
  | notify =>
    refine Nat.le_of_eq (countP_map_notified fun c => ?_)
    rw [served, served, detached_notified, held, held, task_notified]
  | abortWaiting i c hc hphase htask =>
    refine servedCount_set_le hc rfl fun h => ?_
    have hdetached : c.detached = true := by simpa [served, held, detached] using h
    simp [served, hdetached]

lemma Step.served_acquire {i : Nat} (hs : ∀ c ∈ s.conns, c.Inv) (h : Step mode s (.acquire i) t) :
    t.servedCount = s.servedCount + 1 := by
  cases h with
  | acquire i c hc htask hpos =>
    have hcount : (s.conns.set i { c with task := .serving }).countP served + c.served.toNat =
      s.conns.countP served + 1 := Calls.countP_set_add hc
    have hinv := hs c (List.mem_of_getElem? hc)
    have hnot : c.served = false := by
      simp [served, held, detached, htask, hinv.waiting htask]
    rwa [hnot] at hcount

def roomFor (s : GatewayConns) : ServerEvent → Bool
  | .acquire _ => s.detachedCount < s.available
  | _ => true

lemma served_step (hs : ∀ c ∈ s.conns, c.Inv) (hpermits : s.Permits maxConnections)
    (hserved : s.servedCount ≤ maxConnections) (h : Step mode s e t) :
    t.servedCount ≤ maxConnections ↔ s.roomFor e = true := by
  by_cases he : ∃ i, e = .acquire i
  · obtain ⟨i, rfl⟩ := he
    have hnew := h.served_acquire hs
    have htotal := servedCount_eq hs
    have havailable := hpermits.available
    rw [roomFor, decide_eq_true_eq]
    omega
  · refine iff_of_true (Nat.le_trans (h.served_le fun i hi => he ⟨i, hi⟩) hserved) ?_
    cases e with
    | acquire i => exact absurd ⟨i, rfl⟩ he
    | _ => rfl

/-- All permits are accounted for. The clients that are served are never more than the limit
exactly if no connection takes a permit that a tunnel would need. -/
theorem served_within_limit_iff (mode : ListenMode) (maxConnections : Nat)
    (h : run (step mode) (start maxConnections) events = some t) :
    t.Permits maxConnections ∧
    (Always (step mode) (fun s => s.servedCount ≤ maxConnections)
        (start maxConnections) events ↔
      Meets (step mode) (fun s e => s.roomFor e = true)
        (start maxConnections) events) := by
  have hstart : (∀ c ∈ (start maxConnections).conns, c.Inv) ∧
      (start maxConnections).Permits maxConnections := ⟨nofun, rfl, rfl, rfl⟩
  have hinv : ∀ s e t, ((∀ c ∈ s.conns, c.Inv) ∧ s.Permits maxConnections) →
      step mode s e = some t → (∀ c ∈ t.conns, c.Inv) ∧ t.Permits maxConnections := by
    rintro s e t ⟨hconns, hpermits⟩ hstep
    exact ⟨conns_inv_step hconns (.of_step hstep), hpermits.step (.of_step hstep)⟩
  refine ⟨(invariant hinv hstart h).2, ?_⟩
  refine always_iff_meets hinv ?_ hstart (Nat.zero_le _) h
  rintro s e t - ⟨hconns, hpermits⟩ hserved hstep
  exact served_step hconns hpermits hserved (.of_step hstep)

theorem served_within_limit_two : ∃ t,
    run (step .cleartext) (start 2)
      [.accept, .acquire 0, .upgrade 0, .complete 0, .start 0, .accept, .acquire 1] = some t ∧
    t.servedCount = 2 ∧ t.Permits 2 ∧
    Always (step .cleartext) (fun s => s.servedCount ≤ 2) (start 2)
      [.accept, .acquire 0, .upgrade 0, .complete 0, .start 0, .accept, .acquire 1] := by
  have hrun : run (step .cleartext) (start 2)
      [.accept, .acquire 0, .upgrade 0, .complete 0, .start 0, .accept, .acquire 1] =
      some ⟨.accepting, 1, 2, 1,
        [⟨.ended true, .forwarding false, true⟩, ⟨.serving, .none, false⟩]⟩ := rfl
  obtain ⟨hpermits, hiff⟩ := served_within_limit_iff .cleartext 2 hrun
  exact ⟨_, hrun, rfl, hpermits, hiff.mpr (by decide)⟩

/-- With one permit, a tunnel and a new connection are served. -/
theorem tunnel_beyond_limit : ∃ t,
    run (step .cleartext) (start 1)
      [.accept, .acquire 0, .upgrade 0, .complete 0, .start 0, .accept, .acquire 1] = some t ∧
    t.conns = [⟨.ended true, .forwarding false, true⟩, ⟨.serving, .none, false⟩] ∧
    t.servedCount = 2 :=
  ⟨_, rfl, rfl, rfl⟩

end GatewayConns

end Conrogate
