import Conrogate.Lib.Binary64
import Conrogate.Lib.Calls
import Conrogate.Lib.Transition
import Conrogate.Traffic.Limiter

/-!
# The retry budget

`RetryBudgetImpl`: two counters of a window, one of all requests and one of the retries among
them. A retry is granted while their quotient is below a ratio, or while the window has seen only
few requests. The counters are changed without a lock, so that a call is a sequence of atomic
steps, and the steps of all calls come in any order.
-/

namespace Conrogate

open List Binary64 Option Nat Calls Transition

structure RetryBudgetConfig where
  budgetRatio : ℚ
  window : ℚ
  minRequests : Nat
  ratio_pos : 0 < budgetRatio
  ratio_le_one : budgetRatio ≤ 1
  ratio_double : Binary64.round budgetRatio = budgetRatio

/-- `ratio >= budget_ratio`. Without requests the quotient is infinite, or not a number and then
not above anything. -/
def RetryBudgetConfig.Exhausted (config : RetryBudgetConfig) (total retries : Nat) : Prop :=
  if total = 0 then retries ≠ 0
  else config.budgetRatio ≤ Binary64.round (Binary64.round retries / Binary64.round total)

instance (config : RetryBudgetConfig) (total retries : Nat) :
    Decidable (config.Exhausted total retries) :=
  inferInstanceAs (Decidable (if total = 0 then _ else _))

inductive BudgetOp where
  | tryConsume
  | recordRequest

/-- A call between its atomic loads and stores. -/
inductive BudgetStage where
  | checkWindow (op : BudgetOp) (now : ℚ)
  | storeTotal (op : BudgetOp) (now : ℚ)
  | storeRetries (op : BudgetOp) (now : ℚ)
  | storeStart (op : BudgetOp) (now : ℚ)
  | loadTotal
  | loadRetries (total : Nat)
  | coldStart
  | exchange (total retries : Nat)
  | addTotal
  | addRequest
  | granted
  | refused
  | recorded

open BudgetStage

structure BudgetCounters where
  totalRequests : Nat
  retryRequests : Nat
  windowStart : ℚ
  locked : Bool

structure BudgetState where
  counters : BudgetCounters
  calls : List BudgetStage

inductive BudgetEvent where
  | enter (op : BudgetOp) (now : ℚ)
  | advance (i : Nat)

def BudgetState.init (now : ℚ) : BudgetState := ⟨⟨0, 0, now, false⟩, []⟩

def BudgetOp.main : BudgetOp → BudgetStage
  | tryConsume    => .loadTotal
  | recordRequest => .addRequest

def BudgetStage.act (config : RetryBudgetConfig) (m : BudgetCounters) :
    BudgetStage → Option (BudgetCounters × BudgetStage)
  | .checkWindow op now =>
    if m.locked then none
    else if durationSince now m.windowStart < config.window then some (m, op.main)
    else some ({ m with locked := true }, .storeTotal op now)
  | .storeTotal op now => some ({ m with totalRequests := 0 }, .storeRetries op now)
  | .storeRetries op now => some ({ m with retryRequests := 0 }, .storeStart op now)
  | .storeStart op now => some ({ m with windowStart := now, locked := false }, op.main)
  | .loadTotal => some (m, .loadRetries m.totalRequests)
  | .loadRetries total => some (m,
      if total < config.minRequests then .coldStart
      else if config.Exhausted total m.retryRequests then .refused
      else .exchange total m.retryRequests)
  | .coldStart => some ({ m with retryRequests := m.retryRequests + 1 }, .addTotal)
  | .exchange _ retries =>
    if m.retryRequests = retries then some ({ m with retryRequests := retries + 1 }, .addTotal)
    else some (m, .loadTotal)
  | .addTotal => some ({ m with totalRequests := m.totalRequests + 1 }, .granted)
  | .addRequest => some ({ m with totalRequests := m.totalRequests + 1 }, .recorded)
  | .granted | .refused | .recorded => none

def budgetStep (config : RetryBudgetConfig) (s : BudgetState) : BudgetEvent → Option BudgetState
  | .enter op now => some { s with calls := s.calls ++ [.checkWindow op now] }
  | .advance i => do
    let c ← s.calls[i]?
    let (counters, c') ← c.act config s.counters
    some ⟨counters, s.calls.set i c'⟩

/-! ### Conditions on a step -/

def BudgetStage.clock : BudgetStage → Option ℚ
  | checkWindow _ now => some now
  | _ => none

def BudgetStage.skipsCheck : BudgetStage → Bool
  | coldStart => true
  | _ => false

def InWindow (config : RetryBudgetConfig) (s : BudgetState) : BudgetEvent → Prop
  | .enter _ _ => True
  | .advance i => ∀ now ∈ s.calls[i]?.bind clock,
      durationSince now s.counters.windowStart < config.window

/-- An increment that follows no check finds a budget: fewer retries than the requests that are
not checked, or fewer than the ratio allows. And there are no more calls than a double can count. -/
def InBudget (config : RetryBudgetConfig) (s : BudgetState) : BudgetEvent → Prop
  | .enter _ _ => s.calls.length < 2 ^ 53
  | .advance i => s.calls[i]?.any skipsCheck →
      s.counters.retryRequests < config.minRequests ∨
        (s.counters.retryRequests : ℚ) < config.budgetRatio * s.counters.totalRequests

instance (config : RetryBudgetConfig) (s : BudgetState) : DecidablePred (InWindow config s)
  | .enter _ _ => .isTrue trivial
  | .advance i => inferInstanceAs (Decidable (∀ now ∈ s.calls[i]?.bind clock, _ < _))

instance (config : RetryBudgetConfig) (s : BudgetState) : DecidablePred (InBudget config s)
  | .enter _ _ => inferInstanceAs (Decidable (s.calls.length < 2 ^ 53))
  | .advance i => inferInstanceAs (Decidable (s.calls[i]?.any skipsCheck → _ ∨ _))

/-! ### What a step of a call can do -/

inductive BudgetMove (config : RetryBudgetConfig) (m : BudgetCounters) :
    BudgetStage → BudgetCounters → BudgetStage → Prop
  | inWindow (op : BudgetOp) (now : ℚ) : BudgetMove config m (.checkWindow op now) m op.main
  | loadTotal : BudgetMove config m .loadTotal m (.loadRetries m.totalRequests)
  | cold (total : Nat) : BudgetMove config m (.loadRetries total) m .coldStart
  | exhausted (total : Nat) : BudgetMove config m (.loadRetries total) m .refused
  | allowed (total : Nat) (hallowed : ¬ config.Exhausted total m.retryRequests) :
    BudgetMove config m (.loadRetries total) m (.exchange total m.retryRequests)
  | coldStart : BudgetMove config m .coldStart { m with retryRequests := m.retryRequests + 1 }
      .addTotal
  | exchanged (total : Nat) : BudgetMove config m (.exchange total m.retryRequests)
      { m with retryRequests := m.retryRequests + 1 } .addTotal
  | overtaken (total retries : Nat) : BudgetMove config m (.exchange total retries) m .loadTotal
  | addTotal : BudgetMove config m .addTotal { m with totalRequests := m.totalRequests + 1 }
      .granted
  | addRequest : BudgetMove config m .addRequest { m with totalRequests := m.totalRequests + 1 }
      .recorded

namespace BudgetStage

def Unlocked : BudgetStage → Prop
  | storeTotal .. | storeRetries .. | storeStart .. => False
  | _ => True

def returned : BudgetStage → Bool
  | granted | refused | recorded => true
  | _ => false

def consumed : BudgetStage → Bool
  | addTotal | granted => true
  | _ => false

def returnedOk : BudgetStage → Bool
  | granted => true
  | _ => false

def isRecorded : BudgetStage → Bool
  | recorded => true
  | _ => false

def totalled : BudgetStage → Bool
  | granted | recorded => true
  | _ => false

def counted : BudgetStage → Bool
  | addTotal | granted | recorded => true
  | _ => false

def Fresh (config : RetryBudgetConfig) (m : BudgetCounters) : BudgetStage → Prop
  | loadRetries total => total ≤ m.totalRequests
  | exchange total retries => total ≤ m.totalRequests ∧ ¬ config.Exhausted total retries
  | _ => True

end BudgetStage

variable {retries total : Nat}

section

variable {config : RetryBudgetConfig} {m m' : BudgetCounters} {c c' : BudgetStage}

lemma budgetMove_of_act (hc : c.Unlocked)
    (hwindow : ∀ now ∈ c.clock, durationSince now m.windowStart < config.window)
    (h : c.act config m = some (m', c')) : BudgetMove config m c m' c' := by
  cases c with
  | checkWindow op now =>
    rw [act, if_pos (hwindow now rfl)] at h
    split at h
    · cases h
    · cases h
      exact .inWindow op now
  | storeTotal op now => exact hc.elim
  | storeRetries op now => exact hc.elim
  | storeStart op now => exact hc.elim
  | loadTotal =>
    cases h
    exact .loadTotal
  | loadRetries total =>
    obtain ⟨rfl, rfl⟩ := Prod.mk.inj (some.inj h)
    split
    · exact .cold total
    · split
      · exact .exhausted total
      · next hallowed => exact .allowed total hallowed
  | coldStart =>
    cases h
    exact .coldStart
  | exchange total retries =>
    rw [act] at h
    split at h
    · next heq =>
      cases h
      subst heq
      exact .exchanged total
    · cases h
      exact .overtaken total retries
  | addTotal =>
    cases h
    exact .addTotal
  | addRequest =>
    cases h
    exact .addRequest
  | granted => cases h
  | refused => cases h
  | recorded => cases h

namespace BudgetMove

section

variable (h : BudgetMove config m c m' c')
include h

lemma unlocked : c'.Unlocked := by
  cases h with
  | inWindow op now => cases op <;> trivial
  | _ => trivial

lemma total_mono : m.totalRequests ≤ m'.totalRequests := by
  cases h with
  | addTotal | addRequest => exact le_succ _
  | _ => exact le_rfl

lemma counts :
    m'.retryRequests + c.consumed.toNat = m.retryRequests + c'.consumed.toNat ∧
    m'.totalRequests + c.totalled.toNat = m.totalRequests + c'.totalled.toNat := by
  cases h with
  | inWindow op now => cases op <;> exact ⟨rfl, rfl⟩
  | _ => exact ⟨rfl, rfl⟩

lemma fresh (hc : c.Fresh config m) :
    c'.Fresh config m' := by
  cases h with
  | inWindow op now => cases op <;> trivial
  | loadTotal => exact le_rfl
  | allowed total hallowed => exact ⟨hc, hallowed⟩
  | _ => trivial

lemma retries_cases :
    (m'.retryRequests = m.retryRequests ∧ c.counted.toNat ≤ c'.counted.toNat) ∨
    (m'.retryRequests = m.retryRequests + 1 ∧ c.counted = false ∧ c'.counted = true ∧
      (c = .coldStart ∨ ∃ total, c = .exchange total m.retryRequests)) := by
  cases h with
  | coldStart => exact .inr ⟨rfl, rfl, rfl, .inl rfl⟩
  | exchanged total => exact .inr ⟨rfl, rfl, rfl, .inr ⟨total, rfl⟩⟩
  | inWindow op now => exact .inl ⟨rfl, zero_le _⟩
  | addTotal => exact .inl ⟨rfl, le_rfl⟩
  | _ => exact .inl ⟨rfl, zero_le _⟩

end

end BudgetMove

lemma BudgetStage.Fresh.mono (hc : c.Fresh config m)
    (hle : m.totalRequests ≤ m'.totalRequests) : c.Fresh config m' := by
  cases c with
  | loadRetries total => exact hc.trans hle
  | exchange total retries => exact ⟨hc.1.trans hle, hc.2⟩
  | _ => trivial

lemma RetryBudgetConfig.lt_of_not_exhausted (htotal : total ≤ 2 ^ 53) (hretries : retries ≤ 2 ^ 53)
    (h : ¬ config.Exhausted total retries) :
    (retries : ℚ) < config.budgetRatio * (total + 1 : Nat) := by
  have hpos := config.ratio_pos
  rw [Exhausted, round_natCast htotal, round_natCast hretries] at h
  split at h
  · next hzero =>
    obtain rfl : retries = 0 := not_not.mp h
    subst hzero
    simpa using hpos
  · next hne =>
    -- rounding is monotone and does not move the ratio
    have hround : Binary64.round (retries / total) < Binary64.round config.budgetRatio := by
      rw [config.ratio_double]
      exact not_le.mp h
    have hquot : (retries / total : ℚ) < config.budgetRatio :=
      round_mono.reflect_lt hround
    have htotal' : (0 : ℚ) < total := cast_pos.mpr (pos_of_ne_zero hne)
    rw [div_lt_iff₀ htotal'] at hquot
    push_cast
    linarith

end

def RetryBudgetConfig.Within (config : RetryBudgetConfig) (total retries : Nat) : Prop :=
  retries ≤ config.minRequests ∨ (retries : ℚ) < config.budgetRatio * total + 1

instance (config : RetryBudgetConfig) (total retries : Nat) :
    Decidable (config.Within total retries) := inferInstanceAs (Decidable (_ ∨ _))

section

variable {config : RetryBudgetConfig} {s t : BudgetState} {e : BudgetEvent} {i : Nat}

lemma RetryBudgetConfig.Within.mono {total' : Nat} (h : config.Within total retries)
    (hle : total ≤ total') : config.Within total' retries := by
  obtain h | h := h
  · exact .inl h
  · right
    have hle' : (total : ℚ) ≤ total' := cast_le.mpr hle
    have := mul_le_mul_of_nonneg_left hle' config.ratio_pos.le
    linarith

lemma RetryBudgetConfig.within_succ
    (h : retries < config.minRequests ∨ (retries : ℚ) < config.budgetRatio * total) :
    config.Within total (retries + 1) := by
  obtain h | h := h
  · exact .inl h
  · right
    push_cast
    linarith

/-- No update has been lost. -/
structure BudgetState.Exact (config : RetryBudgetConfig) (s : BudgetState) : Prop where
  retries : s.counters.retryRequests = s.calls.countP (·.consumed)
  total : s.counters.totalRequests = s.calls.countP (·.totalled)
  unlocked : ∀ c ∈ s.calls, c.Unlocked
  fresh : ∀ c ∈ s.calls, c.Fresh config s.counters

structure BudgetState.Within (config : RetryBudgetConfig) (s : BudgetState) : Prop where
  few : s.calls.length ≤ 2 ^ 53
  bound : config.Within (s.calls.countP (·.counted)) s.counters.retryRequests

lemma budget_advance_eq_some (h : budgetStep config s (.advance i) = some t) :
    ∃ c counters c', s.calls[i]? = some c ∧ c.act config s.counters = some (counters, c') ∧
      t = ⟨counters, s.calls.set i c'⟩ := by
  simp only [budgetStep, bind_eq_bind, bind_eq_some_iff, some.injEq] at h
  obtain ⟨c, hc, ⟨counters, c'⟩, hact, rfl⟩ := h
  exact ⟨c, counters, c', hc, hact, rfl⟩

lemma budgetMove_of_advance (h : s.Exact config) (hwindow : InWindow config s (.advance i))
    (hstep : budgetStep config s (.advance i) = some t) :
    ∃ c counters c', s.calls[i]? = some c ∧ BudgetMove config s.counters c counters c' ∧
      t = ⟨counters, s.calls.set i c'⟩ := by
  obtain ⟨c, counters, c', hc, hact, rfl⟩ := budget_advance_eq_some hstep
  refine ⟨c, counters, c', hc, ?_, rfl⟩
  refine budgetMove_of_act (h.unlocked c (mem_of_getElem? hc)) ?_ hact
  intro now hnow
  exact hwindow now (by rwa [hc])

lemma BudgetState.Exact.step (h : s.Exact config) (hwindow : InWindow config s e)
    (hstep : budgetStep config s e = some t) : t.Exact config := by
  cases e with
  | enter op now =>
    obtain rfl := some.inj hstep
    refine ⟨?_, ?_, ?_, ?_⟩
    · simpa [consumed] using h.retries
    · simpa [totalled] using h.total
    · exact forall_mem_append.mpr ⟨h.unlocked, by simp [BudgetStage.Unlocked]⟩
    · exact forall_mem_append.mpr ⟨h.fresh, by simp [BudgetStage.Fresh]⟩
  | advance i =>
    obtain ⟨c, counters, c', hc, hmove, rfl⟩ := budgetMove_of_advance h hwindow hstep
    obtain ⟨hretries, htotal⟩ := hmove.counts
    refine ⟨counter_eq_countP hc h.retries hretries, counter_eq_countP hc h.total htotal,
      forall_mem_set h.unlocked hmove.unlocked, ?_⟩
    refine forall_mem_set ?_ (hmove.fresh (h.fresh c (mem_of_getElem? hc)))
    exact fun d hd => (h.fresh d hd).mono hmove.total_mono

lemma countP_totalled_le (calls : List BudgetStage) :
    calls.countP (·.totalled) ≤ calls.countP (·.counted) := by
  refine countP_mono_left fun c _ hc => ?_
  cases c <;> first | rfl | cases hc

lemma countP_totalled (calls : List BudgetStage) :
    calls.countP (·.totalled) = calls.countP (·.returnedOk) + calls.countP (·.isRecorded) := by
  induction calls with
  | nil => rfl
  | cons c calls ih =>
    have hc : (if c.totalled then 1 else 0) =
        (if c.returnedOk then 1 else 0) + (if c.isRecorded then 1 else 0) := by
      cases c <;> rfl
    rw [countP_cons, countP_cons, countP_cons, ih, hc, add_add_add_comm]

lemma BudgetState.Within.step (hexact : s.Exact config) (h : s.Within config)
    (hwindow : InWindow config s e) (hbudget : InBudget config s e)
    (hstep : budgetStep config s e = some t) : t.Within config := by
  cases e with
  | enter op now =>
    obtain rfl := some.inj hstep
    refine ⟨?_, ?_⟩
    · simpa using succ_le_of_lt hbudget
    · simpa [counted] using h.bound
  | advance i =>
    obtain ⟨c, counters, c', hc, hmove, rfl⟩ := budgetMove_of_advance hexact hwindow hstep
    have hcount : (s.calls.set i c').countP (·.counted) + c.counted.toNat =
        s.calls.countP (·.counted) + c'.counted.toNat := countP_set_add hc
    have hle := countP_totalled_le s.calls
    rw [← hexact.total] at hle
    refine ⟨by simpa using h.few, ?_⟩
    dsimp only
    obtain ⟨hsame, hcounted⟩ | ⟨hnew, hno, hyes, hwhy⟩ := hmove.retries_cases
    · rw [hsame]
      exact h.bound.mono (by omega)
    · rw [hnew]
      rw [hno, hyes, Bool.toNat_true, Bool.toNat_false] at hcount
      obtain rfl | ⟨total, rfl⟩ := hwhy
      · exact (config.within_succ (hbudget (by rw [hc]; rfl))).mono (by omega)
      · -- the check was made with a total that the counter has not fallen below
        obtain ⟨htotal, hallowed⟩ := hexact.fresh _ (mem_of_getElem? hc)
        have hfew := h.few
        have hretries : s.counters.retryRequests ≤ s.calls.length :=
          hexact.retries.trans_le countP_le_length
        have hcounted : s.calls.countP (·.counted) ≤ s.calls.length := countP_le_length
        have hroom := config.lt_of_not_exhausted (by omega) (by omega) hallowed
        exact (config.within_succ (.inr hroom)).mono (by omega)

lemma budget_exact_init (config : RetryBudgetConfig) (start : ℚ) :
    (BudgetState.init start).Exact config := by
  constructor <;> simp [BudgetState.init]

end

end Conrogate
