import Conrogate.Traffic.Breaker

/-!
# Closing a half-open breaker

The breaker closes when `half_open_max` successes have been counted together; a call that finds the
window of the counts over starts them again.
-/

namespace Conrogate

open List Transition BreakerInner Option

namespace LocalBreaker

def InWindow (config : LocalBreakerConfig) (s : LocalBreaker) : LocalBreakerEvent → Prop
  | .advance _ => True
  | .allow | .recordSuccess | .recordFailure => ¬ s.inner.Expired config s.clock

instance (config : LocalBreakerConfig) (s : LocalBreaker) :
    (e : LocalBreakerEvent) → Decidable (s.InWindow config e)
  | .advance _ => isTrue trivial
  | .allow | .recordSuccess | .recordFailure =>
    inferInstanceAs (Decidable (¬ s.inner.Expired config s.clock))

def Streak (config : LocalBreakerConfig) (s : LocalBreaker) : List LocalBreakerEvent → Prop
  | [] => True
  | e :: es => ∀ t, breakerStep config s e = some t →
    Meets (breakerStep config) (InWindow config) t es

def counted (config : LocalBreakerConfig) (s : LocalBreaker) (e : LocalBreakerEvent) : Nat :=
  (if s.InWindow config e then s.inner.successCount else 0) + [e].count .recordSuccess

variable {config : LocalBreakerConfig} {s t u : LocalBreaker} {e : LocalBreakerEvent}
  {events : List LocalBreakerEvent}

lemma Streak.snoc (h : s.Streak config events)
    (hrun : run (breakerStep config) s events = some t) (he : t.InWindow config e) :
    s.Streak config (events ++ [e]) := by
  cases events with
  | nil => exact fun _ _ => meets_nil
  | cons first events =>
    intro v hv
    obtain ⟨v', hv', hrest⟩ := run_cons_eq_some.mp hrun
    obtain rfl : v' = v := some.inj (hv'.symm.trans hv)
    exact meets_append_singleton (h v' hv) hrest he

lemma successCount_refreshWindow (config : LocalBreakerConfig) (s : LocalBreaker)
    (he : ∀ d, e ≠ .advance d) : (s.inner.refreshWindow config s.clock).successCount =
      if s.InWindow config e then s.inner.successCount else 0 := by
  have hiff : s.InWindow config e ↔ ¬ s.inner.Expired config s.clock := by
    cases e with
    | advance d => exact absurd rfl (he d)
    | allow | recordSuccess | recordFailure => exact Iff.rfl
  by_cases hexpired : s.inner.Expired config s.clock
  · rw [if_neg (fun hin => hiff.mp hin hexpired), refreshWindow, if_pos hexpired]
  · rw [if_pos (hiff.mpr hexpired), refreshWindow_of_not_expired hexpired]

lemma step_of_halfOpen (hs : s.inner.state = .halfOpen) (he : e ≠ .recordFailure)
    (hstep : breakerStep config s e = some t) :
    (t.inner.state = .halfOpen ∧ t.inner.successCount = s.counted config e ∧
      (e = .recordSuccess → s.counted config e < config.halfOpenMax)) ∨
    (t.inner.state = .closed ∧ e = .recordSuccess ∧ config.halfOpenMax ≤ s.counted config e) := by
  obtain ⟨hsame, -, -, -⟩ := refreshWindow_spec config s.clock s.inner
  cases e with
  | advance d =>
    obtain ⟨-, rfl⟩ := eq_of_advance hstep
    exact .inl ⟨hs, by simp [counted, InWindow], by simp⟩
  | allow =>
    obtain rfl := some.inj hstep
    have hcount := successCount_refreshWindow (e := .allow) config s (by simp)
    have hend := allow_end config s.clock s.inner
    refine .inl ?_
    rw [proceed_inner]
    generalize s.inner.allow config s.clock = result at hend ⊢
    cases hend with
    | closed hstate => cases (hs.symm.trans hsame.symm).trans hstate
    | entered hstate | waiting hstate => cases (hs.symm.trans hsame.symm).trans hstate
    | probing hstate | full hstate => exact ⟨hstate, by simp [hcount, counted], by simp⟩
  | recordSuccess =>
    obtain rfl := some.inj hstep
    have hcount := successCount_refreshWindow (e := .recordSuccess) config s (by simp)
    have hcounted : s.counted config .recordSuccess =
        (s.inner.refreshWindow config s.clock).successCount + 1 := by
      rw [hcount, counted, count_singleton_self]
    rw [proceed_inner, recordSuccess, hcounted]
    by_cases hmax : config.halfOpenMax ≤ (s.inner.refreshWindow config s.clock).successCount + 1
    · rw [if_pos ⟨hsame.trans hs, hmax⟩]
      exact .inr ⟨rfl, rfl, hmax⟩
    · rw [if_neg fun h => hmax h.2]
      exact .inl ⟨hsame.trans hs, rfl, fun _ => not_le.mp hmax⟩
  | recordFailure => exact absurd rfl he

lemma step_of_closed (hs : s.inner.state = .closed) (he : e ≠ .recordFailure)
    (hstep : breakerStep config s e = some t) : t.inner.state = .closed := by
  obtain ⟨hsame, -, -, -⟩ := refreshWindow_spec config s.clock s.inner
  cases e with
  | advance d =>
    obtain ⟨-, rfl⟩ := eq_of_advance hstep
    exact hs
  | allow =>
    obtain rfl := some.inj hstep
    have hend := allow_end config s.clock s.inner
    rw [proceed_inner]
    generalize s.inner.allow config s.clock = result at hend ⊢
    cases hend with
    | closed hstate => exact hstate
    | entered hstate | waiting hstate | probing hstate | full hstate =>
      cases (hs.symm.trans hsame.symm).trans hstate
  | recordSuccess =>
    obtain rfl := some.inj hstep
    rw [proceed_inner, recordSuccess]
    split
    · rfl
    · exact hsame.trans hs
  | recordFailure => exact absurd rfl he

def Recovering (config : LocalBreakerConfig) (s : LocalBreaker) : Prop :=
  s.inner.state = .closed ∨
    s.inner.state = .halfOpen ∧ s.inner.successCount < max config.halfOpenMax 1

lemma Recovering.step (h : s.Recovering config) (he : e ≠ .recordFailure)
    (hstep : breakerStep config s e = some t) : t.Recovering config := by
  obtain hs | ⟨hs, hfew⟩ := h
  · exact .inl (step_of_closed hs he hstep)
  obtain ⟨ht, hcount, hmax⟩ | ⟨ht, -, -⟩ := step_of_halfOpen hs he hstep
  · refine .inr ⟨ht, ?_⟩
    rw [hcount]
    by_cases hsuccess : e = .recordSuccess
    · exact (hmax hsuccess).trans_le (le_max_left _ _)
    · have hle : s.counted config e ≤ s.inner.successCount := by
        rw [counted, count_eq_zero_of_not_mem (by simpa using Ne.symm hsuccess)]
        split <;> omega
      exact hle.trans_lt hfew
  · exact .inl ht

def HasStreak (config : LocalBreakerConfig) (s : LocalBreaker)
    (events : List LocalBreakerEvent) (n : Nat) : Prop :=
  ∃ before streak u, events = before ++ streak ∧
    run (breakerStep config) s before = some u ∧ u.Streak config streak ∧
    streak.count .recordSuccess = n

lemma HasStreak.snoc (h : s.HasStreak config events t.inner.successCount)
    (hrun : run (breakerStep config) s events = some t) :
    s.HasStreak config (events ++ [e]) (t.counted config e) := by
  obtain ⟨before, streak, u, rfl, hbefore, hstreak, hcount⟩ := h
  rw [counted]
  split
  · next hin =>
    obtain ⟨u', hu', hlater⟩ := run_append_eq_some.mp hrun
    obtain rfl : u' = u := some.inj (hu'.symm.trans hbefore)
    refine ⟨before, streak ++ [e], u', by simp, hbefore, hstreak.snoc hlater hin, ?_⟩
    rw [count_append, hcount]
  · refine ⟨before ++ streak, [e], t, rfl, hrun, fun _ _ => meets_nil, ?_⟩
    rw [Nat.zero_add]

def Explained (config : LocalBreakerConfig) (s : LocalBreaker)
    (events : List LocalBreakerEvent) (t : LocalBreaker) : Prop :=
  t.inner.state = .halfOpen ∧ s.HasStreak config events t.inner.successCount ∨
  t.inner.state = .closed ∧ ∃ ended rest n, events = ended ++ rest ∧
    max config.halfOpenMax 1 ≤ n ∧ s.HasStreak config ended n

lemma Explained.step (h : s.Explained config events t) (he : e ≠ .recordFailure)
    (hrun : run (breakerStep config) s events = some t)
    (hstep : breakerStep config t e = some u) : s.Explained config (events ++ [e]) u := by
  obtain ⟨ht, hstreak⟩ | ⟨ht, ended, rest, n, rfl, hn, hstreak⟩ := h
  · have hsnoc := hstreak.snoc (e := e) hrun
    obtain ⟨hu, hcount, -⟩ | ⟨hu, rfl, hmax⟩ := step_of_halfOpen ht he hstep
    · exact .inl ⟨hu, hcount ▸ hsnoc⟩
    · refine .inr ⟨hu, _, [], _, (append_nil _).symm, max_le hmax ?_, hsnoc⟩
      rw [counted, count_singleton_self]
      omega
  · exact .inr ⟨step_of_closed ht he hstep, ended, rest ++ [e], n, by simp, hn, hstreak⟩

lemma explained_run (hs : s.inner.state = .halfOpen) (hzero : s.inner.successCount = 0)
    (hfail : .recordFailure ∉ events)
    (hrun : run (breakerStep config) s events = some t) :
    s.Explained config events t := by
  refine history_induction (P := fun events t => .recordFailure ∉ events →
    s.Explained config events t) ?_ ?_ hrun hfail
  · intro _
    exact .inl ⟨hs, [], [], s, rfl, rfl, trivial, hzero.symm⟩
  · intro before u e v hu ih hv hfail
    rw [mem_append, mem_singleton, not_or] at hfail
    exact (ih hfail.1).step (Ne.symm hfail.2) hu hv

lemma closed_or_le_successCount (hs : s.Recovering config) (hfail : .recordFailure ∉ events)
    (hin : Meets (breakerStep config) (InWindow config) s events)
    (hrun : run (breakerStep config) s events = some t) :
    t.inner.state = .closed ∨ t.inner.state = .halfOpen ∧
      s.inner.successCount + events.count .recordSuccess ≤ t.inner.successCount := by
  refine history_induction (P := fun events t => .recordFailure ∉ events →
    Meets (breakerStep config) (InWindow config) s events →
    t.inner.state = .closed ∨ t.inner.state = .halfOpen ∧
      s.inner.successCount + events.count .recordSuccess ≤ t.inner.successCount)
    ?_ ?_ hrun hfail hin
  · intro _ _
    exact hs.imp_right fun h => ⟨h.1, le_rfl⟩
  · intro before u e v hu ih hv hfail hin
    rw [mem_append, mem_singleton, not_or] at hfail
    have he : u.InWindow config e := hin before e [] u rfl hu
    obtain hclosed | ⟨hhalf, hle⟩ := ih hfail.1 (meets_of_append hin)
    · exact .inl (step_of_closed hclosed (Ne.symm hfail.2) hv)
    obtain ⟨hv, hcount, -⟩ | ⟨hv, -, -⟩ := step_of_halfOpen hhalf (Ne.symm hfail.2) hv
    · refine .inr ⟨hv, ?_⟩
      rw [hcount, counted, if_pos he, count_append, ← Nat.add_assoc]
      exact Nat.add_le_add_right hle _
    · exact .inl hv

lemma meets_ne_recordFailure (hfail : .recordFailure ∉ events) :
    Meets (breakerStep config) (fun _ e => e ≠ .recordFailure) s events :=
  meets_of_forall fun _ he _ => ne_of_mem_of_not_mem he hfail

lemma recovering_run (hs : s.Recovering config) (hfail : .recordFailure ∉ events)
    (hrun : run (breakerStep config) s events = some t) : t.Recovering config :=
  invariant_of_meets (fun _ _ _ h he hstep => h.step he hstep) hs
    (meets_ne_recordFailure hfail) hrun

lemma closed_run (hs : s.inner.state = .closed) (hfail : .recordFailure ∉ events)
    (hrun : run (breakerStep config) s events = some t) : t.inner.state = .closed :=
  invariant_of_meets (I := fun s => s.inner.state = .closed)
    (fun _ _ _ h he hstep => step_of_closed h he hstep) hs (meets_ne_recordFailure hfail) hrun

lemma Streak.closes (h : s.Streak config events) (hs : s.Recovering config)
    (hfail : .recordFailure ∉ events)
    (hrun : run (breakerStep config) s events = some t)
    (hmax : max config.halfOpenMax 1 ≤ events.count .recordSuccess) :
    t.inner.state = .closed := by
  cases events with
  | nil =>
    rw [count_nil] at hmax
    omega
  | cons e events =>
    obtain ⟨v, hv, hrest⟩ := run_cons_eq_some.mp hrun
    rw [mem_cons, not_or] at hfail
    obtain ⟨he, hfail⟩ := hfail
    obtain hclosed | ⟨hhalf, -⟩ := id hs
    · exact closed_run (step_of_closed hclosed (Ne.symm he) hv) hfail hrest
    have hv' := hs.step (Ne.symm he) hv
    obtain ⟨-, hcount, -⟩ | ⟨hclosed, -, -⟩ := step_of_halfOpen hhalf (Ne.symm he) hv
    · obtain ht | ⟨ht, hle⟩ := closed_or_le_successCount hv' hfail (h v hv) hrest
      · exact ht
      · obtain ht' | ⟨-, hfew⟩ := recovering_run hv' hfail hrest
        · exact ht'
        · rw [← singleton_append, count_append] at hmax
          rw [hcount, counted] at hle
          omega
    · exact closed_run hclosed hfail hrest

end LocalBreaker

open LocalBreaker

/-- A half-open breaker that is told of no failure closes exactly if `half_open_max` successes, and
one at least, came in a streak in which no call finds the window of the counts over. -/
theorem halfOpen_closed_iff (config : LocalBreakerConfig) (s entered t : LocalBreaker)
    (later : List LocalBreakerEvent) (hopened : s.inner.state = .opened)
    (henter : breakerStep config s .allow = some entered)
    (hhalf : entered.inner.state = .halfOpen) (hfail : .recordFailure ∉ later)
    (hrun : run (breakerStep config) entered later = some t) :
    t.inner.state = .closed ↔ ∃ ended rest n, later = ended ++ rest ∧
      max config.halfOpenMax 1 ≤ n ∧ entered.HasStreak config ended n := by
  have hzero : entered.inner.successCount = 0 := by
    obtain rfl := Option.some.inj henter
    rw [proceed_inner] at hhalf ⊢
    exact BreakerInner.successCount_of_entered (by simp [hopened]) hhalf
  constructor
  · intro hclosed
    obtain ⟨hopen, -⟩ | ⟨-, hstreak⟩ := explained_run hhalf hzero hfail hrun
    · cases hopen.symm.trans hclosed
    · exact hstreak
  · rintro ⟨ended, rest, n, rfl, hmax, before, streak, u, rfl, hbefore, hstreak, rfl⟩
    obtain ⟨v, hv, hrest⟩ := run_append_eq_some.mp hrun
    obtain ⟨u', hu', hlater⟩ := run_append_eq_some.mp hv
    obtain rfl : u' = u := Option.some.inj (hu'.symm.trans hbefore)
    simp only [mem_append, not_or] at hfail
    have hstart : entered.Recovering config := .inr ⟨hhalf, by omega⟩
    have hu : u'.Recovering config := recovering_run hstart hfail.1.1 hbefore
    exact closed_run (hstreak.closes hu hfail.1.2 hlater hmax) hfail.2 hrest

theorem halfOpen_closed_two_successes :
    let config : LocalBreakerConfig := ⟨⟨10, 1 / 2, 1⟩, 30, 2⟩
    let s : LocalBreaker := ⟨⟨.opened, 1, 0, 30, some 0⟩, 30, 0, 0⟩
    ∃ entered ∈ breakerStep config s .allow, entered.inner.state = .halfOpen ∧
    ∃ t ∈ run (breakerStep config) entered [.recordSuccess, .advance 5, .recordSuccess],
      t.inner.state = .closed := by
  intro config s
  obtain ⟨entered, henter, hhalf, hmeets, t, hrun, -⟩ : ∃ entered ∈ breakerStep config s .allow,
      entered.inner.state = .halfOpen ∧
      Meets (breakerStep config) (InWindow config) entered
        [.recordSuccess, .advance 5, .recordSuccess] ∧
      ∃ t ∈ run (breakerStep config) entered [.recordSuccess, .advance 5, .recordSuccess],
        True := by
    decide +kernel
  refine ⟨entered, henter, hhalf, t, hrun, ?_⟩
  exact (halfOpen_closed_iff config s entered t _ rfl henter hhalf (by decide) hrun).mpr
    ⟨_, [], 2, (append_nil _).symm, le_rfl, [], _, entered, rfl, rfl,
      (meets_cons_iff.mp hmeets).2, by decide⟩

/-- The second success comes when the window of the first one is over. -/
theorem halfOpen_stays_after_max :
    (run (breakerStep ⟨⟨10, 1 / 2, 1⟩, 30, 2⟩) (.init 0)
      [.recordFailure, .advance 30, .allow, .recordSuccess, .advance 10, .recordSuccess]).map
        (fun s => (s.inner.state, s.inner.successCount)) = some (.halfOpen, 1) := by
  decide +kernel

end Conrogate
