import Conrogate.Traffic.Adaptive

/-!
# The range of the adaptive limit

The limit is adjusted from samples that are used once. Between its bounds it stays only if the
greatest limit leaves room for a step and for a double.
-/

namespace Conrogate

open List AcquireStage Calls Option Nat Transition AdaptiveState AdaptiveConfig

/-! ### Conditions on a step -/

def LatencySample.IsWord (x : LatencySample) : Prop := x.millis < 2 ^ 64

/-- The numbers that the step computes are words. -/
def AcquireStage.Fits (config : AdaptiveConfig) (m : AdaptiveInner) : AcquireStage → Prop
  | .readOldLimit samples =>
    (∀ x ∈ samples, x.IsWord) ∧
    (config.Overloaded samples → ⌊config.decreased m.currentLimit⌋₊ < 2 ^ 64) ∧
    (¬ config.Overloaded samples → m.currentLimit + config.increaseStep < 2 ^ 64)
  | .exchange _ current => current + 1 < 2 ^ 64
  | .countAccepted => m.totalAccepted + 1 < 2 ^ 64
  | .countRejected => m.totalRejected + 1 < 2 ^ 64
  | _ => True

def NoOverflow (config : AdaptiveConfig) (s : AdaptiveState) : AdaptiveEvent → Prop
  | .advance i => ∀ c ∈ s.calls[i]?, c.Fits config s.inner
  | .drop _ => 0 < s.inner.inflight
  | _ => True

def Countable (s : AdaptiveState) : AdaptiveEvent → Prop
  | .enter _ => s.calls.length + 1 < 2 ^ 64
  | .recordLatency sample => sample.IsWord
  | _ => True

instance (s : AdaptiveState) : DecidablePred (Countable s)
  | .enter _ => inferInstanceAs (Decidable (_ < _))
  | .recordLatency x => inferInstanceAs (Decidable (x.millis < 2 ^ 64))
  | .advance _ => .isTrue trivial
  | .drop _ => .isTrue trivial

/-- The samples that the call has taken and not yet used. -/
def AcquireStage.batch : AcquireStage → Option (List LatencySample)
  | readOldLimit samples => some samples
  | _ => none

lemma AcquireMove.samples_or {config : AdaptiveConfig} {m m' : AdaptiveInner}
    {c c' : AcquireStage} (h : AcquireMove config m c m' c') :
    (c'.batch = none ∧ m'.windowSamples = m.windowSamples) ∨
    (c'.batch = some m.windowSamples ∧ m'.windowSamples = []) := by
  cases h with
  | noSamples hempty => exact .inl ⟨rfl, hempty.symm⟩
  | samples => exact .inr ⟨rfl, rfl⟩
  | _ => exact .inl ⟨rfl, rfl⟩

/-! ### The range of the limit -/

structure AdaptiveConfig.Roomy (config : AdaptiveConfig) : Prop where
  sum : config.maxLimit + config.increaseStep < 2 ^ 64
  double : Binary64.round config.maxLimit ≤ config.maxLimit

lemma AdaptiveConfig.Roomy.le_newLimit {config : AdaptiveConfig} (hroomy : config.Roomy)
    {oldLimit : Nat} (samples : List LatencySample) (hmin : config.minLimit ≤ oldLimit)
    (hmax : oldLimit ≤ config.maxLimit) : config.minLimit ≤ config.newLimit samples oldLimit := by
  rw [newLimit]
  split
  · exact le_max_right _ _
  · have hsum := hroomy.sum
    rw [mod_eq_of_lt (by omega)]
    exact le_min (hmin.trans (le_add_right _ _)) config.min_le_max

def AcquireStage.written : AcquireStage → Option Nat
  | writeLimit limit => some limit
  | _ => none

structure AdaptiveState.AboveMin (config : AdaptiveConfig) (s : AdaptiveState) : Prop where
  limit : config.minLimit ≤ s.inner.currentLimit
  written : ∀ c ∈ s.calls, ∀ limit ∈ c.written, config.minLimit ≤ limit

section

variable {config : AdaptiveConfig} {s t : AdaptiveState} {e : AdaptiveEvent}

lemma aboveMin_init (config : AdaptiveConfig) (start : ℚ) :
    (init config start).AboveMin config where
  limit := le_max_left _ _
  written := by simp [init]

lemma AdaptiveState.AboveMin.step (hroomy : config.Roomy) (hexact : s.Exact config.maxLimit)
    (h : s.AboveMin config) (hstep : adaptiveStep config s e = some t) : t.AboveMin config := by
  cases e with
  | enter now =>
    obtain rfl := some.inj hstep
    exact ⟨h.limit, forall_mem_append.mpr ⟨h.written, by simp [AcquireStage.written]⟩⟩
  | advance i =>
    obtain ⟨c, inner, c', hc, hmove, rfl⟩ := advance_eq_some hstep
    have hwritten := h.written c (mem_of_getElem? hc)
    cases hmove with
    | writeLimit limit =>
      exact ⟨hwritten limit rfl, forall_mem_set h.written (by simp [AcquireStage.written])⟩
    | adjust samples =>
      refine ⟨h.limit, forall_mem_set h.written ?_⟩
      intro limit hlimit
      cases hlimit
      exact hroomy.le_newLimit samples h.limit hexact.inner.limit
    | _ => exact ⟨h.limit, forall_mem_set h.written (by simp [AcquireStage.written])⟩
  | drop i =>
    obtain ⟨-, _, -, rfl⟩ := drop_eq_some hstep
    exact ⟨h.limit, forall_mem_set h.written (by simp [AcquireStage.written])⟩
  | recordLatency sample =>
    obtain rfl := some.inj hstep
    exact ⟨h.limit, h.written⟩

end

/-! ### No overflow -/

/-- There are fewer calls than words, and every latency is a word. -/
structure AdaptiveState.Counted (s : AdaptiveState) : Prop where
  few : s.calls.length < 2 ^ 64
  samples : ∀ x ∈ s.inner.windowSamples, x.IsWord
  batches : ∀ c ∈ s.calls, ∀ samples ∈ c.batch, ∀ x ∈ samples, x.IsWord

section

variable {config : AdaptiveConfig} {s t : AdaptiveState} {e : AdaptiveEvent} {i : Nat}
  {c : AcquireStage}

lemma AdaptiveState.counted_init (config : AdaptiveConfig) (start : ℚ) :
    (init config start).Counted := by
  constructor <;> simp [init]

lemma AdaptiveState.Counted.step (h : s.Counted) (hok : Countable s e)
    (hstep : adaptiveStep config s e = some t) : t.Counted := by
  cases e with
  | enter now =>
    obtain rfl := some.inj hstep
    refine ⟨?_, h.samples, forall_mem_append.mpr ⟨h.batches, by simp [batch]⟩⟩
    rw [length_append]
    exact hok
  | advance i =>
    obtain ⟨c, inner, c', hc, hmove, rfl⟩ := advance_eq_some hstep
    refine ⟨by simpa using h.few, ?_, forall_mem_set h.batches ?_⟩
    · rcases hmove.samples_or with ⟨-, heq⟩ | ⟨-, heq⟩
      · exact fun x hx => h.samples x (heq ▸ hx)
      · exact fun x hx => absurd (heq ▸ hx) not_mem_nil
    · intro samples hsamples
      rcases hmove.samples_or with ⟨hnone, -⟩ | ⟨hsome, -⟩
      · cases hnone.symm.trans hsamples
      · obtain rfl := some.inj (hsome.symm.trans hsamples)
        exact h.samples
  | drop i =>
    obtain ⟨-, _, -, rfl⟩ := drop_eq_some hstep
    exact ⟨by simpa using h.few, h.samples, forall_mem_set h.batches (by simp [batch])⟩
  | recordLatency sample =>
    obtain rfl := some.inj hstep
    refine ⟨h.few, ?_, h.batches⟩
    exact forall_mem_append.mpr ⟨h.samples, forall_mem_singleton.mpr hok⟩

/-- A call that has not returned leaves room in the total. -/
lemma AdaptiveState.Counted.total_lt (h : s.Counted) (hc : s.calls[i]? = some c)
    {p : AcquireStage → Bool} (hp : p c = false) : s.calls.countP p % 2 ^ 64 + 1 < 2 ^ 64 := by
  have hlt := countP_lt_length hc hp
  have hfew := h.few
  omega

lemma noOverflow_of_step (hroomy : config.Roomy) (hexact : s.Exact config.maxLimit)
    (h : s.Counted) (hstep : adaptiveStep config s e = some t) : NoOverflow config s e := by
  cases e with
  | enter now => trivial
  | advance i =>
    intro c hc
    cases c with
    | readOldLimit samples =>
      have hmax := hexact.inner.limit
      refine ⟨h.batches _ (mem_of_getElem? hc) samples rfl, fun _ => ?_, fun _ => ?_⟩
      · exact (floor_decreased_le hroomy.double hmax).trans_lt config.max_lt
      · exact (Nat.add_le_add_right hmax _).trans_lt hroomy.sum
    | exchange limit current =>
      obtain ⟨hlimit, hlt⟩ := hexact.calls _ (mem_of_getElem? hc)
      have hmax := config.max_lt
      rw [AcquireStage.Fits]
      omega
    | countAccepted =>
      rw [AcquireStage.Fits, hexact.accepted]
      exact h.total_lt hc rfl
    | countRejected =>
      rw [AcquireStage.Fits, hexact.rejected]
      exact h.total_lt hc rfl
    | _ => trivial
  | drop i =>
    obtain ⟨hc, -⟩ := drop_eq_some hstep
    rw [NoOverflow, hexact.inflight]
    exact countP_pos_of_getElem? hc rfl
  | recordLatency sample => trivial

end

/-! ### The samples of the windows -/

def recordedSamples (steps : List (AdaptiveState × AdaptiveEvent × AdaptiveState)) :
    List LatencySample :=
  steps.filterMap fun step => match step.2.1 with
    | .recordLatency sample => some sample
    | _ => none

def AdaptiveState.usedBatch (s : AdaptiveState) : AdaptiveEvent → Option (List LatencySample)
  | .advance i => s.calls[i]?.bind batch
  | _ => none

def usedBatches (steps : List (AdaptiveState × AdaptiveEvent × AdaptiveState)) :
    List (List LatencySample) :=
  steps.filterMap fun step => step.1.usedBatch step.2.1

/-- The samples so far, cut into the batches that were taken and the present window. A batch has
been used by one adjustment, or a call has yet to use it. -/
def Batched (steps : List (AdaptiveState × AdaptiveEvent × AdaptiveState)) (s : AdaptiveState) :
    Prop :=
  ∃ batches : List (List LatencySample),
    batches.flatten ++ s.inner.windowSamples = recordedSamples steps ∧
    (usedBatches steps ++ s.calls.filterMap batch).Perm batches

section

variable {config : AdaptiveConfig} {s t : AdaptiveState} {e : AdaptiveEvent}
  {steps : List (AdaptiveState × AdaptiveEvent × AdaptiveState)}

lemma recordedSamples_append (step : AdaptiveState × AdaptiveEvent × AdaptiveState)
    (h : ∀ sample, step.2.1 ≠ .recordLatency sample) :
    recordedSamples (steps ++ [step]) = recordedSamples steps := by
  obtain ⟨u, e, v⟩ := step
  cases e with
  | recordLatency sample => exact absurd rfl (h sample)
  | _ => simp [recordedSamples]

lemma usedBatches_append (u v : AdaptiveState) (e : AdaptiveEvent) :
    usedBatches (steps ++ [(u, e, v)]) = usedBatches steps ++ (u.usedBatch e).toList := by
  cases he : u.usedBatch e <;> simp [usedBatches, he]

lemma Batched.step (h : Batched steps s) (hstep : adaptiveStep config s e = some t) :
    Batched (steps ++ [(s, e, t)]) t := by
  obtain ⟨batches, hrecorded, hperm⟩ := h
  rw [Batched, usedBatches_append]
  cases e with
  | enter now =>
    obtain rfl := some.inj hstep
    rw [recordedSamples_append _ (by simp)]
    refine ⟨batches, hrecorded, ?_⟩
    have hpending : (s.calls ++ [checkWindow now]).filterMap batch =
        s.calls.filterMap batch := by
      rw [filterMap_append]
      exact append_nil _
    rw [hpending]
    simpa [usedBatch] using hperm
  | advance i =>
    obtain ⟨c, inner, c', hc, hmove, rfl⟩ := advance_eq_some hstep
    have hset : ((s.calls.set i c').filterMap batch ++ c.batch.toList).Perm
        (s.calls.filterMap batch ++ c'.batch.toList) := filterMap_set_perm hc
    have hused : s.usedBatch (.advance i) = c.batch := by
      rw [usedBatch, hc]
      rfl
    -- the batch that the call had is used now, and the one it has is taken
    have hmoved : (usedBatches steps ++ c.batch.toList ++
        (s.calls.set i c').filterMap batch).Perm (batches ++ c'.batch.toList) := by
      have hswap : (c.batch.toList ++ (s.calls.set i c').filterMap batch).Perm
          (s.calls.filterMap batch ++ c'.batch.toList) :=
        perm_append_comm.trans hset
      rw [append_assoc]
      refine (hswap.append_left _).trans ?_
      rw [← append_assoc]
      exact hperm.append_right _
    rw [recordedSamples_append _ (by simp), hused]
    refine ⟨batches ++ c'.batch.toList, ?_, hmoved⟩
    rw [← hrecorded, flatten_append, append_assoc]
    congr 1
    rcases hmove.samples_or with ⟨hnone, heq⟩ | ⟨hsome, heq⟩
    · simp [hnone, heq]
    · simp [hsome, heq]
  | drop i =>
    obtain ⟨hc, _, -, rfl⟩ := drop_eq_some hstep
    have hset : ((s.calls.set i .dropped).filterMap batch ++ []).Perm
        (s.calls.filterMap batch ++ []) := filterMap_set_perm hc
    rw [append_nil, append_nil] at hset
    rw [recordedSamples_append _ (by simp)]
    refine ⟨batches, hrecorded, ?_⟩
    exact (hset.append_left _).trans (by simpa [usedBatch] using hperm)
  | recordLatency sample =>
    obtain rfl := some.inj hstep
    refine ⟨batches, ?_, by simpa [usedBatch] using hperm⟩
    rw [← append_assoc, hrecorded]
    simp [recordedSamples]

end

end Conrogate
