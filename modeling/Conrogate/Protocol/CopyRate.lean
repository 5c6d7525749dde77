import Conrogate.Lib.Pacing
import Conrogate.Protocol.Tunnel

/-!
# The rate of a TCP tunnel

`throttled_copy` sleeps after every chunk, for a whole number of microseconds. What the division
cuts off is never slept, so the configured rate is kept exactly where nothing is cut off.
-/

namespace Conrogate

open Pacing List Transition Nat Channel.Step

/-- One direction of a tunnel with the times of its events, in microseconds, and the times at which
it has written. -/
structure TimedChannel where
  channel : Channel
  now : ℚ
  wakeAt : ℚ
  written : List (ℚ × Nat)

namespace TimedChannel

def start : TimedChannel := ⟨.start, 0, 0, []⟩

/-- Any time may pass before an event; a sleep lasts at least as long as it was told to. -/
def step (maxBytesPerSec : Option Nat) (s : TimedChannel) (e : ℚ × ChannelEvent) :
    Option TimedChannel :=
  if s.now ≤ e.1 ∧ (e.2 = .wake → s.wakeAt ≤ e.1) then
    (s.channel.step maxBytesPerSec e.2).map fun channel =>
      { channel
        now := e.1
        wakeAt := match e.2, channel.phase with
          | .flush, .sleeping us => e.1 + us
          | _, _ => s.wakeAt
        written := match e.2 with
          | .write n => s.written ++ [(e.1, n)]
          | _ => s.written }
  else none

/-- What is written of the chunk at hand. -/
def part : CopyPhase → Nat
  | .writing m rest => m - rest.length
  | .flushing m => m
  | _ => 0

def Sized : CopyPhase → Prop
  | .writing m rest => rest.length ≤ m ∧ m ≤ copyBufferSize
  | .flushing m => m ≤ copyBufferSize
  | _ => True

structure Fits (rate : ℚ) (s : TimedChannel) : Prop where
  sized : Sized s.channel.phase
  awake : s.wakeAt ≤ s.now ∨ ∃ us, s.channel.phase = .sleeping us
  paced : Paced rate copyBufferSize s.written s.now (max s.now s.wakeAt) (part s.channel.phase)

section

variable {rate : ℚ} {s : TimedChannel} {t : ℚ} (h : s.Fits rate) (hrate : 0 ≤ rate) (ht : s.now ≤ t)
include h hrate ht

lemma Fits.move {channel : Channel} (hpart : part channel.phase = part s.channel.phase)
    (hsized : Sized channel.phase) (hawake : s.wakeAt ≤ t ∨ ∃ us, channel.phase = .sleeping us) :
    Fits rate ⟨channel, t, s.wakeAt, s.written⟩ := by
  refine ⟨hsized, hawake, ?_⟩
  have hpaced := h.paced.wait hrate ht
  rwa [← max_assoc, max_eq_left ht, ← hpart] at hpaced

lemma Fits.paced_at (hawake : s.wakeAt ≤ t) :
    Paced rate copyBufferSize s.written t t (part s.channel.phase) := by
  have hpaced := h.paced.wait hrate ht
  rwa [← max_assoc, max_eq_left ht, max_eq_left hawake] at hpaced

end

section

variable {bps : Nat} (hpos : 0 < bps)
include hpos

lemma Fits.step {s s' : TimedChannel} {e : ℚ × ChannelEvent} (hdvd : bps ∣ 1000000)
    (h : s.Fits (bps / 1000000)) (hstep : s.step (some bps) e = some s') :
    s'.Fits (bps / 1000000) := by
  obtain ⟨t, e⟩ := e
  have hrate : (0 : ℚ) ≤ bps / 1000000 := by positivity
  simp only [TimedChannel.step, Option.ite_none_right_eq_some, Option.map_eq_some_iff] at hstep
  obtain ⟨⟨ht, hwake⟩, channel, hchannel, rfl⟩ := hstep
  -- what peers do leaves the loop where it is
  have hpeer : channel.phase = s.channel.phase →
      Fits (bps / 1000000) ⟨channel, t, s.wakeAt, s.written⟩ := by
    intro hphase
    refine h.move hrate ht (by rw [hphase]) (hphase ▸ h.sized) ?_
    exact h.awake.imp (·.trans ht) fun ⟨us, hus⟩ => ⟨us, hphase.trans hus⟩
  have hawake : (∀ us, s.channel.phase ≠ .sleeping us) → s.wakeAt ≤ t := fun hno =>
    h.awake.elim (·.trans ht) fun ⟨us, hus⟩ => absurd hus (hno us)
  cases e with
  | send _ | close | receive _ =>
    cases of_step hchannel
    exact hpeer rfl
  | read n =>
    simp only [Channel.step] at hchannel
    split at hchannel
    · rename_i hphase
      simp only [Option.ite_none_right_eq_some, Option.map_eq_some_iff] at hchannel
      obtain ⟨hn, ⟨chunk, source⟩, htake, rfl⟩ := hchannel
      have hlength : chunk.length = n := (Pipe.of_take htake).2.1
      refine h.move hrate ht ?_ ⟨hlength.le, hn⟩ (.inl (hawake (by simp [hphase])))
      simp [part, hphase, hlength]
    · cases hchannel
  | readEnd =>
    cases of_step hchannel with
    | readEnd hphase hend =>
      exact h.move hrate ht (by simp [part, hphase]) trivial (.inl (hawake (by simp [hphase])))
  | wake =>
    cases of_step hchannel with
    | wake us hphase =>
      exact h.move hrate ht (by simp [part, hphase]) trivial (.inl (hwake rfl))
  | write n =>
    simp only [Channel.step] at hchannel
    split at hchannel
    · rename_i m rest hphase
      obtain ⟨⟨hn, hrest⟩, rfl⟩ :=
        (Option.ite_none_right_eq_some.trans (and_congr_right' Option.some_inj)).mp hchannel
      have hnow := hawake (by simp [hphase])
      obtain ⟨hsize, hm⟩ : rest.length ≤ m ∧ m ≤ copyBufferSize := by
        have hsized := h.sized
        rwa [hphase] at hsized
      have hpaced := h.paced_at hrate ht hnow
      rw [hphase] at hpaced
      have hwritten := hpaced.write (n := n) hrate (by simp only [part]; omega)
      have hpart : part (if n = rest.length then .flushing m else .writing m (rest.drop n)) =
          m - rest.length + n := by
        split_ifs with hall <;> simp only [part, length_drop] <;> omega
      refine ⟨?_, .inl hnow, ?_⟩
      · dsimp only
        split_ifs
        · exact hm
        · exact ⟨by rw [length_drop]; omega, hm⟩
      · rw [max_eq_left hnow, hpart]
        exact hwritten
    · cases hchannel
  | flush =>
    simp only [Channel.step] at hchannel
    split at hchannel
    · rename_i m hphase
      have hnow := hawake (by simp [hphase])
      have hpaced := h.paced_at hrate ht hnow
      rw [hphase] at hpaced
      obtain ⟨k, hk⟩ := hdvd
      have hquot : m * 1000000 / bps = m * k := by
        rw [hk, Nat.mul_left_comm, Nat.mul_div_cancel_left _ hpos]
      have hpaid : (m : ℚ) = bps / 1000000 * (m * k : ℕ) := by
        have hk' : (1000000 : ℚ) = bps * k := by exact_mod_cast hk
        push_cast
        rw [div_mul_eq_mul_div, eq_div_iff (by norm_num), hk']
        ring
      simp only [sleepMicros, if_neg hpos.ne', hquot] at hchannel
      split_ifs at hchannel with hsleep
      · obtain rfl := Option.some.inj hchannel
        refine ⟨trivial, .inr ⟨_, rfl⟩, ?_⟩
        have hrest := hpaced.rest (cast_nonneg (m * k)) hpaid
        rwa [max_eq_right (le_add_of_nonneg_right (cast_nonneg _))]
      · obtain rfl := Option.some.inj hchannel
        have hk0 : k ≠ 0 := by
          rintro rfl
          simp at hk
        obtain rfl : m = 0 := by
          by_contra hm
          exact hsleep (mul_pos (pos_of_ne_zero hm) (pos_of_ne_zero hk0))
        refine ⟨trivial, .inl hnow, ?_⟩
        rwa [max_eq_left hnow]
    · cases hchannel

lemma exists_round {s : TimedChannel} (hphase : s.channel.phase = .reading)
    (hunread : 0 < s.channel.source.unread.length) :
    ∃ events s', run (step (some bps)) s events = some s' ∧
      s'.channel.phase = .reading ∧
      s'.channel.source.unread.length + 1 = s.channel.source.unread.length ∧
      s'.now = s.now + (1000000 / bps : ℕ) ∧ s'.written = s.written ++ [(s.now, 1)] := by
  obtain ⟨⟨chunk, source⟩, htake⟩ := Pipe.exists_take (length_pos_iff.mp hunread)
  obtain ⟨-, hlength, -, -, -, hrest⟩ := Pipe.of_take htake
  have hunread' : source.unread.length + 1 = s.channel.source.unread.length := by
    rw [hrest, length_append, hlength, add_comm]
  let read : Channel := { s.channel with
    source, phase := .writing 1 chunk, copied := s.channel.copied + 1 }
  let wrote : Channel := { read with sink := read.sink.write chunk, phase := .flushing 1 }
  have hread : s.step (some bps) (s.now, .read 1) = some ⟨read, s.now, s.wakeAt, s.written⟩ := by
    simp [step, Channel.step, hphase, htake, copyBufferSize, read]
  have hwrite : step (some bps) ⟨read, s.now, s.wakeAt, s.written⟩ (s.now, .write 1) =
      some ⟨wrote, s.now, s.wakeAt, s.written ++ [(s.now, 1)]⟩ := by
    have htaken : chunk.take 1 = chunk := take_of_length_le hlength.le
    simp [step, Channel.step, hlength, htaken, wrote, read]
  have hrun : ∀ {s' : TimedChannel} {l}, run (step (some bps))
      ⟨wrote, s.now, s.wakeAt, s.written ++ [(s.now, 1)]⟩ l = some s' → run
        (step (some bps)) s ((s.now, .read 1) :: (s.now, .write 1) :: l) = some s' := fun h =>
    run_cons_eq_some.mpr ⟨_, hread, run_cons_eq_some.mpr ⟨_, hwrite, h⟩⟩
  by_cases hquot : 1000000 / bps > 0
  · refine ⟨_, ⟨{ wrote with phase := .reading }, s.now + (1000000 / bps : ℕ),
      s.now + (1000000 / bps : ℕ), s.written ++ [(s.now, 1)]⟩,
      hrun (l := [(s.now, .flush), (s.now + (1000000 / bps : ℕ), .wake)]) ?_, rfl, hunread',
      rfl, rfl⟩
    simp [run, step, Channel.step, sleepMicros, hpos.ne', hquot, wrote]
  · refine ⟨_, ⟨{ wrote with phase := .reading }, s.now, s.wakeAt, s.written ++ [(s.now, 1)]⟩,
      hrun (l := [(s.now, .flush)]) ?_, rfl, hunread', ?_, rfl⟩
    · simp [run, step, Channel.step, sleepMicros, hpos.ne', hquot, wrote]
    · simp [Nat.eq_zero_of_not_pos hquot]

lemma exists_rounds (k : Nat) {s : TimedChannel} (hphase : s.channel.phase = .reading)
    (hunread : k ≤ s.channel.source.unread.length) :
    ∃ events s', run (step (some bps)) s events = some s' ∧
      ∀ a b, a ≤ s.now → s.now + k * (1000000 / bps : ℕ) ≤ b + (1000000 / bps : ℕ) →
        within a b s'.written = within a b s.written + k := by
  induction k generalizing s with
  | zero => exact ⟨[], s, rfl, fun a b _ _ => rfl⟩
  | succ k ih =>
    obtain ⟨events, s₁, hrun, hphase₁, hunread₁, hnow, hwritten⟩ :=
      exists_round hpos hphase (lt_of_lt_of_le (succ_pos k) hunread)
    obtain ⟨events', s₂, hrun', hk⟩ := ih hphase₁ (by omega)
    refine ⟨events ++ events', s₂, run_append_eq_some.mpr ⟨s₁, hrun, hrun'⟩, ?_⟩
    intro a b ha hb
    have hquot : (0 : ℚ) ≤ (1000000 / bps : ℕ) := cast_nonneg _
    have hkquot : (0 : ℚ) ≤ k * (1000000 / bps : ℕ) := by positivity
    push_cast [add_mul, one_mul] at hb
    rw [hk a b (by rw [hnow]; linarith) (by rw [hnow]; linarith), hwritten, within_concat,
      if_pos ⟨ha, by linarith⟩]
    omega

lemma exists_burst (k : Nat) :
    ∃ events s, run (step (some bps)) start events = some s ∧
      ∀ b : ℚ, k * (1000000 / bps : ℕ) ≤ b + (1000000 / bps : ℕ) → within 0 b s.written = k := by
  obtain ⟨events, s, hrun, hk⟩ := exists_rounds hpos k
    (s := ⟨{ Channel.start with source := Pipe.empty.write (List.replicate k 0) }, 0, 0, []⟩) rfl
    (by simp)
  refine ⟨(0, .send (List.replicate k 0)) :: events, s,
    run_cons_eq_some.mpr ⟨_, rfl, hrun⟩, fun b hb => ?_⟩
  rw [hk 0 b le_rfl (by rwa [zero_add])]
  exact zero_add k

end

end TimedChannel

open TimedChannel

/-- With a limit of `bps` bytes per second, no run writes more than that and one buffer in any
interval exactly if `bps` divides a million. -/
theorem tunnel_rate_iff (bps : Nat) (hpos : 0 < bps) :
    (∀ events s, run (step (some bps)) start events = some s →
      ∀ a T : ℚ, 0 ≤ T →
        (within a (a + T * 1000000) s.written : ℚ) ≤ bps * T + copyBufferSize) ↔
      bps ∣ 1000000 := by
  constructor
  · intro h
    by_contra hdvd
    have hlt : bps * (1000000 / bps) + 1 ≤ 1000000 := by
      have hle := Nat.mul_div_le 1000000 bps
      have hne : bps * (1000000 / bps) ≠ 1000000 := fun heq => hdvd ⟨_, heq.symm⟩
      omega
    obtain ⟨events, s, hrun, hk⟩ := exists_burst hpos (8192000000 + 1)
    have hbound := h events s hrun 0 (8192 * (1000000 / bps : ℕ)) (by positivity)
    rw [hk _ (by push_cast; linarith)] at hbound
    have hlt' : (bps : ℚ) * (1000000 / bps : ℕ) + 1 ≤ 1000000 := by exact_mod_cast hlt
    simp only [copyBufferSize] at hbound
    push_cast at hbound
    nlinarith
  · intro hdvd events s hrun a T hT
    have hfits : s.Fits (bps / 1000000) := by
      refine invariant (fun s e t h hstep => h.step hpos hdvd hstep) ?_ hrun
      refine ⟨trivial, .inl le_rfl, ⟨by simp [start], by simp [start], ?_, ?_⟩⟩
      · intro a ha b
        have hage : (0 : ℚ) ≤ 0 - a := sub_nonneg.mpr ha
        simp only [start, within, filter_nil, map_nil, sum_nil, max_self]
        positivity
      · intro a b hab
        have hlength := sub_nonneg.mpr hab
        simp only [start, within, filter_nil, map_nil, sum_nil]
        positivity
    have hbound := hfits.paced.bounded a (a + T * 1000000) (by linarith)
    calc (within a (a + T * 1000000) s.written : ℚ)
        ≤ bps / 1000000 * (a + T * 1000000 - a) + copyBufferSize := hbound
      _ = bps * T + copyBufferSize := by ring

theorem tunnel_rate_kept_at_1000 :
    1000 ∣ 1000000 ∧ ∀ events s, run (step (some 1000)) start events = some s →
      ∀ a T : ℚ, 0 ≤ T →
        (within a (a + T * 1000000) s.written : ℚ) ≤ (1000 : ℕ) * T + copyBufferSize :=
  ⟨by decide, (tunnel_rate_iff 1000 (by decide)).mpr (by decide)⟩

/-- With 1024 kbps, 8193 single bytes pass at once. -/
theorem tunnel_rate_ignored_for_small_reads :
    ∃ events s, run (step (some (1024 * 1024))) start events = some s ∧
      within 0 0 s.written = copyBufferSize + 1 := by
  obtain ⟨events, s, hrun, hk⟩ := exists_burst (show 0 < 1024 * 1024 by decide) 8193
  exact ⟨events, s, hrun, hk 0 (by norm_num)⟩

end Conrogate
