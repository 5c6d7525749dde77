import Mathlib.Data.List.Induction

/-!
# Runs of a transition system

A system says what an event does to a state, or that it cannot happen there. A run is any list of
events that the system accepts, so concurrency is in the events.
-/

namespace Transition

open List Option

variable {σ α : Type*} {next : σ → α → Option σ} {s t u : σ} {a : α} {as bs : List α}

def run (next : σ → α → Option σ) (s : σ) (as : List α) : Option σ := as.foldlM next s

@[simp] lemma run_nil : run next s [] = some s := rfl

lemma run_cons_eq_some : run next s (a :: as) = some t ↔
    ∃ u, next s a = some u ∧ run next u as = some t := by
  simp [run, foldlM_cons, bind_eq_some_iff]

lemma run_append_eq_some : run next s (as ++ bs) = some t ↔
    ∃ u, run next s as = some u ∧ run next u bs = some t := by
  simp [run, foldlM_append, bind_eq_some_iff]

theorem history_induction {P : List α → σ → Prop} (start : P [] s)
    (step : ∀ as u a v, run next s as = some u → P as u → next u a = some v → P (as ++ [a]) v)
    (h : run next s as = some t) : P as t := by
  induction as using List.reverseRecOn generalizing t with
  | nil =>
    obtain rfl : s = t := by simpa using h
    exact start
  | append_singleton as a ih =>
    obtain ⟨u, hu, hlast⟩ := run_append_eq_some.mp h
    obtain ⟨v, hv, hnil⟩ := run_cons_eq_some.mp hlast
    obtain rfl : v = t := by simpa using hnil
    exact step as u a v hu (ih hu) hv

variable {I : σ → Prop}

theorem invariant (step : ∀ s a t, I s → next s a = some t → I t) (start : I s)
    (h : run next s as = some t) : I t := by
  refine history_induction (P := fun _ => I) start ?_ h
  intro _ u a v _ hu hv
  exact step u a v hu hv

def Meets (next : σ → α → Option σ) (ok : σ → α → Prop) (s : σ) (as : List α) : Prop :=
  ∀ before a after u, as = before ++ a :: after → run next s before = some u → ok u a

section

variable {ok : σ → α → Prop}

lemma meets_of_forall (h : ∀ a ∈ as, ∀ s, ok s a) : Meets next ok s as := by
  intro before a after u heq _
  apply h a
  rw [heq]
  exact mem_append_right _ mem_cons_self

lemma meets_nil : Meets next ok s [] := by
  intro before a after u heq _
  simp at heq

lemma meets_cons_iff : Meets next ok s (a :: as) ↔
    ok s a ∧ ∀ u, next s a = some u → Meets next ok u as := by
  constructor
  · intro h
    refine ⟨h [] a as s rfl rfl, ?_⟩
    intro u hu before b after w heq hw
    exact h (a :: before) b after w (by rw [heq]; rfl) (run_cons_eq_some.mpr ⟨u, hu, hw⟩)
  · rintro ⟨hok, hrest⟩ before b after w heq hw
    cases before with
    | nil =>
      obtain ⟨rfl, rfl⟩ := List.cons.inj heq
      obtain rfl : s = w := by simpa using hw
      exact hok
    | cons c before =>
      obtain ⟨rfl, rfl⟩ := List.cons.inj heq
      obtain ⟨u, hu, hw⟩ := run_cons_eq_some.mp hw
      exact hrest u hu before b after w rfl hw

lemma meets_cons (hok : ok s a) (hnext : next s a = some u) (hrest : Meets next ok u as) :
    Meets next ok s (a :: as) :=
  meets_cons_iff.mpr ⟨hok, fun _ hu => some.inj (hnext.symm.trans hu) ▸ hrest⟩

end

instance decidableMeets {ok : σ → α → Prop} [∀ s a, Decidable (ok s a)] :
    ∀ (s : σ) (as : List α), Decidable (Meets next ok s as)
  | _, [] => isTrue meets_nil
  | s, a :: as =>
    match hnext : next s a with
    | none   => decidable_of_iff (ok s a) (by simp [meets_cons_iff, hnext])
    | some u =>
      have : Decidable (Meets next ok u as) := decidableMeets u as
      decidable_of_iff (ok s a ∧ Meets next ok u as) (by simp [meets_cons_iff, hnext])

section

variable {ok : σ → α → Prop}

lemma meets_of_append (h : Meets next ok s (as ++ bs)) :
    Meets next ok s as := by
  intro before a after u heq hu
  exact h before a (after ++ bs) u (by simp [heq]) hu

lemma meets_append_singleton (h : Meets next ok s as) (hrun : run next s as = some u)
    (ha : ok u a) : Meets next ok s (as ++ [a]) := by
  intro before b after v heq hv
  obtain rfl | ⟨after, last, rfl⟩ := eq_nil_or_concat after
  · obtain ⟨rfl, hb⟩ := append_inj' heq rfl
    obtain rfl : a = b := by simpa using hb
    obtain rfl : u = v := some.inj (hrun.symm.trans hv)
    exact ha
  · rw [concat_eq_append, ← cons_append, ← append_assoc] at heq
    obtain ⟨heq, -⟩ := append_inj' heq rfl
    exact h before b after v heq hv

theorem invariant_of_meets (step : ∀ s a t, I s → ok s a → next s a = some t → I t) (start : I s)
    (hok : Meets next ok s as) (h : run next s as = some t) : I t := by
  have key : ∀ as t, run next s as = some t → Meets next ok s as → I t := by
    intro as t h
    refine history_induction (P := fun as t => Meets next ok s as → I t) (fun _ => start) ?_ h
    intro as u a v hu ih hv hmeets
    exact step u a v (ih (meets_of_append hmeets)) (hmeets as a [] u rfl hu) hv
  exact key as t h hok

end

lemma exists_next {before after : List α} (h : run next s (before ++ a :: after) = some t)
    (hu : run next s before = some u) : ∃ v, next u a = some v := by
  obtain ⟨u', hu', hrest⟩ := run_append_eq_some.mp h
  obtain rfl : u' = u := some.inj (hu'.symm.trans hu)
  obtain ⟨v, hv, -⟩ := run_cons_eq_some.mp hrest
  exact ⟨v, hv⟩

variable {ok : σ → α → Prop}

theorem meets_congr {ok' : σ → α → Prop} (inv : ∀ s a t, I s → next s a = some t → I t)
    (step : ∀ s a t, a ∈ as → I s → next s a = some t → (ok s a ↔ ok' s a)) (start : I s)
    (h : run next s as = some t) : Meets next ok s as ↔ Meets next ok' s as := by
  have key : ∀ before a after u, as = before ++ a :: after → run next s before = some u →
      (ok u a ↔ ok' u a) := by
    intro before a after u heq hu
    have hmem : a ∈ as := heq ▸ mem_append_right _ mem_cons_self
    obtain ⟨v, hv⟩ := exists_next (heq ▸ h) hu
    exact step u a v hmem (invariant inv start hu) hv
  constructor
  · intro hok before a after u heq hu
    exact (key before a after u heq hu).mp (hok before a after u heq hu)
  · intro hok before a after u heq hu
    exact (key before a after u heq hu).mpr (hok before a after u heq hu)

def Always (next : σ → α → Option σ) (P : σ → Prop) (s : σ) (as : List α) : Prop :=
  ∀ before after u, as = before ++ after → run next s before = some u → P u

/-- If a step keeps a property exactly when it meets a condition, the runs that keep it throughout
are those that meet the condition throughout. The invariant `I` holds anyway. -/
theorem always_iff_meets {P : σ → Prop} (inv : ∀ s a t, I s → next s a = some t → I t)
    (step : ∀ s a t, a ∈ as → I s → P s → next s a = some t → (P t ↔ ok s a)) (hI : I s) (hP : P s)
    (h : run next s as = some t) : Always next P s as ↔ Meets next ok s as := by
  constructor
  · intro halways before a after u heq hu
    have hmem : a ∈ as := heq ▸ mem_append_right _ mem_cons_self
    obtain ⟨v, hv⟩ := exists_next (heq ▸ h) hu
    have hlast : run next s (before ++ [a]) = some v :=
      run_append_eq_some.mpr ⟨u, hu, run_cons_eq_some.mpr ⟨v, hv, rfl⟩⟩
    have hnext := halways (before ++ [a]) after v (by simp [heq]) hlast
    exact (step u a v hmem (invariant inv hI hu) (halways before _ u heq hu) hv).mp hnext
  · intro hmeets before after u heq hu
    have hmeets' : Meets next (fun s a => a ∈ as ∧ ok s a) s before := by
      intro before' a after' v heq' hv
      have heq'' : as = before' ++ a :: (after' ++ after) := by simp [heq, heq']
      refine ⟨?_, hmeets before' a _ v heq'' hv⟩
      rw [heq'']
      exact mem_append_right _ mem_cons_self
    refine (invariant_of_meets (I := fun s => I s ∧ P s) ?_ ⟨hI, hP⟩ hmeets' hu).2
    rintro s a t ⟨hIs, hPs⟩ ⟨hmem, ha⟩ hnext
    exact ⟨inv s a t hIs hnext, (step s a t hmem hIs hPs hnext).mpr ha⟩

def trace (next : σ → α → Option σ) : σ → List α → List (σ × α × σ)
  | _, [] => []
  | s, a :: as => match next s a with
    | some t => (s, a, t) :: trace next t as
    | none   => []

lemma trace_append_singleton (hrun : run next s as = some t) (hnext : next t a = some u) :
    trace next s (as ++ [a]) = trace next s as ++ [(t, a, u)] := by
  induction as generalizing s with
  | nil =>
    obtain rfl : s = t := by simpa using hrun
    simp [trace, hnext]
  | cons b as ih =>
    obtain ⟨v, hv, hrest⟩ := run_cons_eq_some.mp hrun
    simp only [cons_append, trace, hv, ih hrest]

lemma of_mem_trace (h : (t, a, u) ∈ trace next s as) : ∃ before after,
    as = before ++ a :: after ∧ run next s before = some t ∧ next t a = some u := by
  induction as generalizing s with
  | nil => cases h
  | cons b as ih =>
    rw [trace] at h
    cases hnext : next s b with
    | none =>
      rw [hnext] at h
      cases h
    | some v =>
      rw [hnext] at h
      rcases mem_cons.mp h with heq | h
      · cases heq
        exact ⟨[], as, rfl, rfl, hnext⟩
      · obtain ⟨before, after, rfl, hrun, hstep⟩ := ih h
        exact ⟨b :: before, after, rfl, run_cons_eq_some.mpr ⟨v, hnext, hrun⟩, hstep⟩

/-- What holds of every step that meets a condition in a state with an invariant, holds of the
steps of the runs that meet it. -/
theorem forall_trace_of_meets {Q : σ → α → σ → Prop}
    (step : ∀ s a t, I s → ok s a → next s a = some t → I t ∧ Q s a t) (start : I s)
    (hok : Meets next ok s as) : ∀ t a u, (t, a, u) ∈ trace next s as → Q t a u := by
  intro t a u hmem
  obtain ⟨before, after, rfl, hrun, hnext⟩ := of_mem_trace hmem
  have hI : I t := by
    refine invariant_of_meets ?_ start (meets_of_append hok) hrun
    exact fun s a t hs ha ht => (step s a t hs ha ht).1
  exact (step t a u hI (hok before a after t rfl hrun) hnext).2

theorem trace_induction {P : List (σ × α × σ) → σ → Prop} (start : P [] s)
    (step : ∀ steps u a v, P steps u → next u a = some v → P (steps ++ [(u, a, v)]) v)
    (h : run next s as = some t) : P (trace next s as) t := by
  refine history_induction (P := fun as t => P (trace next s as) t) start ?_ h
  intro as u a v hu ih hv
  rw [trace_append_singleton hu hv]
  exact step _ u a v ih hv

theorem related {R : σ → σ → Prop} (refl : ∀ s, R s s) (trans : ∀ s t u, R s t → R t u → R s u)
    (step : ∀ s a t, next s a = some t → R s t) (h : run next s as = some t) : R s t := by
  refine history_induction (P := fun _ t => R s t) (refl s) ?_ h
  intro _ u a v _ hu hv
  exact trans s u v hu (step u a v hv)

theorem run_filterMap {τ β : Type*} {part : τ → β → Option τ} {f : σ → τ} {g : α → Option β}
    (own : ∀ s a t b, next s a = some t → g a = some b → part (f s) b = some (f t))
    (other : ∀ s a t, next s a = some t → g a = none → f t = f s)
    (h : run next s as = some t) : run part (f s) (as.filterMap g) = some (f t) := by
  induction as generalizing s with
  | nil =>
    obtain rfl : s = t := by simpa using h
    rfl
  | cons a as ih =>
    obtain ⟨u, hu, hrest⟩ := run_cons_eq_some.mp h
    cases hg : g a with
    | none =>
      rw [filterMap_cons_none hg, ← other s a u hu hg]
      exact ih hrest
    | some b =>
      rw [filterMap_cons_some hg]
      exact run_cons_eq_some.mpr ⟨f u, own s a u b hu hg, ih hrest⟩

def Quiet (next : σ → α → Option σ) (internal : α → Bool) (s : σ) : Prop :=
  ∀ a, internal a = true → next s a = none

section

variable {internal : α → Bool} {work : σ → Nat}
  (step : ∀ s a t, internal a = true → next s a = some t → work t < work s)
include step

theorem length_le_of_decreasing (hinternal : ∀ a ∈ as, internal a = true)
    (h : run next s as = some t) :
    as.length + work t ≤ work s := by
  induction as generalizing s with
  | nil =>
    obtain rfl : s = t := by simpa using h
    simp
  | cons a as ih =>
    obtain ⟨u, hu, hrest⟩ := run_cons_eq_some.mp h
    have hlt := step s a u (hinternal a mem_cons_self) hu
    have hle := ih (fun b hb => hinternal b (mem_cons_of_mem a hb)) hrest
    rw [length_cons]
    omega

theorem exists_quiet (s : σ) :
    ∃ as t, (∀ a ∈ as, internal a = true) ∧ run next s as = some t ∧ Quiet next internal t := by
  induction hwork : work s using Nat.strongRecOn generalizing s with
  | _ n ih =>
    by_cases hquiet : Quiet next internal s
    · exact ⟨[], s, by simp, rfl, hquiet⟩
    · simp only [Quiet, not_forall] at hquiet
      obtain ⟨a, ha, hnext⟩ := hquiet
      obtain ⟨u, hu⟩ := ne_none_iff_exists'.mp hnext
      obtain ⟨as, t, hinternal, hrun, ht⟩ := ih (work u) (hwork ▸ step s a u ha hu) u rfl
      refine ⟨a :: as, t, ?_, run_cons_eq_some.mpr ⟨u, hu, hrun⟩, ht⟩
      simpa [ha] using hinternal

end

end Transition
