import Conrogate.Lib.Transition

/-!
# Programs over a database

Outside a transaction a write takes effect at once; inside, at the commit, and reads see it before.
Calls interleave in any way, every statement can fail, and the answer to one that was executed can
be lost. An invariant of the store survives if the constraints enforce it, or if every program
checks before it writes and no other call comes in between.
-/

/-- What a write does, which stores the constraints admit, and the isolation. -/
structure Database (σ ω : Type) where
  apply : ω → σ → σ
  admits : σ → Bool
  repeatableRead : Bool

namespace Database

open List Transition Function

/-! ### Programs -/

/-- A program with results in `α` and errors in `ε`, by its next statement. Writes are made from
what the outside contributes, such as the time or a new id, and from the rows that are there. -/
inductive Program (σ ω ξ ε : Type) : Type → Type 1 where
  | done {α : Type} (result : Except ε α) : Program σ ω ξ ε α
  | read {α β : Type} (q : σ → β) (failed : Program σ ω ξ ε α) (k : β → Program σ ω ξ ε α) :
    Program σ ω ξ ε α
  | write {α : Type} (w : ξ → σ → ω) (failed : String → Program σ ω ξ ε α)
    (k : ξ → σ → Program σ ω ξ ε α) : Program σ ω ξ ε α
  | tx {α : Type} (p : Program σ ω ξ ε Unit) (failed : ε) (k : Program σ ω ξ ε α) :
    Program σ ω ξ ε α

variable {σ ω ξ ε π : Type}

namespace Program

variable {α β γ : Type}

def bind : Program σ ω ξ ε α → (α → Program σ ω ξ ε β) → Program σ ω ξ ε β
  | .done (.ok a), f => f a
  | .done (.error e), _ => .done (.error e)
  | .read q failed k, f => .read q (failed.bind f) fun b => (k b).bind f
  | .write w failed k, f => .write w (fun m => (failed m).bind f) fun x s => (k x s).bind f
  | .tx p failed k, f => .tx p failed (k.bind f)

instance : Monad (Program σ ω ξ ε) where
  pure a := .done (.ok a)
  bind := bind

def throw (e : ε) : Program σ ω ξ ε α := .done (.error e)

lemma bind_assoc (p : Program σ ω ξ ε α) (f : α → Program σ ω ξ ε β)
    (g : β → Program σ ω ξ ε γ) : p >>= f >>= g = p >>= fun a => f a >>= g := by
  change (p.bind f).bind g = p.bind fun a => (f a).bind g
  induction p with
  | done result => cases result <;> rfl
  | read q failed k ihf ih => simp only [bind, ihf, ih]
  | write w failed k ihf ih => simp only [bind, ihf, ih]
  | tx p failed k ihp ih => simp only [bind, ih]

end Program

variable (db : Database σ ω)

/-! ### Writes -/

def write (s : σ) (w : ω) : Option σ :=
  if db.admits (db.apply w s) then some (db.apply w s) else none

def commit (log : List ω) (s : σ) : Option σ := run db.write s log

def applyAll (log : List ω) (s : σ) : σ := log.foldl (fun s w => db.apply w s) s

section

variable {db} {s t : σ} {w : ω} {log : List ω}

lemma write_eq_some : db.write s w = some t ↔
    db.admits (db.apply w s) = true ∧ t = db.apply w s := by
  rw [write]
  split_ifs with h
  · simp [h, eq_comm]
  · simp [h]

lemma commit_append_singleton : db.commit (log ++ [w]) s = some t ↔
    ∃ u, db.commit log s = some u ∧ db.write u w = some t := by
  simp only [commit, run_append_eq_some, run_cons_eq_some,
    run_nil, Option.some.injEq, exists_eq_right]

lemma eq_applyAll_of_commit (h : db.commit log s = some t) : t = db.applyAll log s := by
  refine history_induction (P := fun log t => t = db.applyAll log s) rfl ?_ h
  intro log u w v _ hu hv
  rw [applyAll, foldl_append, ← applyAll.eq_1 db log, ← hu]
  exact (write_eq_some.mp hv).2

lemma admits_of_commit (h : db.commit log s = some t) : t = s ∨ db.admits t = true := by
  refine history_induction (P := fun _ t => t = s ∨ db.admits t = true) (.inl rfl) ?_ h
  intro _ u w v _ _ hv
  obtain ⟨hadmits, rfl⟩ := write_eq_some.mp hv
  exact .inr hadmits

end

/-! ### Calls -/

/-- A call under way. `seen` says, for each query of the call, that a store still gives the answer
that the query had. -/
inductive Call (σ ω ξ ε : Type) : Type 1 where
  | idle
  | plain (p : Program σ ω ξ ε Unit) (seen : List (σ → Prop))
  | tx (p : Program σ ω ξ ε Unit) (failed : ε) (rest : Program σ ω ξ ε Unit) (start : σ)
    (log : List ω) (seen : List (σ → Prop))

inductive Outcome where
  | answered
  | answerLost
  | notExecuted
deriving DecidableEq

namespace Call

def error (e : ε) : Call σ ω ξ ε := .plain (.done (.error e)) []

def Running : Call σ ω ξ ε → Bool
  | .idle | .plain (.done _) _ => false
  | _ => true

variable (x : ξ) (message : String) (store : σ)

def effect : Call σ ω ξ ε → σ
  | .plain (.write w _ _) _ => (db.write store (w x store)).getD store
  | .tx (.done (.ok _)) _ _ _ log _ => (db.commit log store).getD store
  | _ => store

def next : Call σ ω ξ ε → Call σ ω ξ ε
  | .plain (.read q _ k) seen =>
    .plain (k (q store)) (seen ++ [fun s => q s = q store])
  | .plain (.write w failed k) _ => match db.write store (w x store) with
    | some _ => .plain (k x store) []
    | none   => .plain (failed message) []
  | .plain (.tx p failed k) _ => .tx p failed k store [] []
  | .tx (.read q _ k) failed rest start log seen =>
    let view := db.applyAll log (if db.repeatableRead then start else store)
    .tx (k (q view)) failed rest start log (seen ++ [fun s => q (db.applyAll log s) = q view])
  | .tx (.write w refused k) failed rest start log seen =>
    let current := db.applyAll log store
    match db.write current (w x current) with
    | some _ => .tx (k x current) failed rest start (log ++ [w x current]) seen
    | none   => .tx (refused message) failed rest start log seen
  | .tx (.tx p _ k) failed rest start log seen =>
    .tx (p.bind fun _ => k) failed rest start log seen
  | .tx (.done (.ok _)) failed rest _ log _ => match db.commit log store with
    | some _ => .plain rest []
    | none   => error failed
  | .tx (.done (.error e)) _ _ _ _ _ => error e
  | c => c

def fail : Call σ ω ξ ε → Call σ ω ξ ε
  | .plain (.read _ failed _) seen => .plain failed seen
  | .plain (.write _ failed _) _ => .plain (failed message) []
  | .plain (.tx _ failed _) _ => error failed
  | .tx (.read _ failed _) e rest start log seen => .tx failed e rest start log seen
  | .tx (.write _ failed _) e rest start log seen => .tx (failed message) e rest start log seen
  | .tx (.tx _ e _) failed rest start log seen => .tx (.done (.error e)) failed rest start log seen
  | .tx (.done (.ok _)) failed _ _ _ _ => error failed
  | .tx (.done (.error e)) _ _ _ _ _ => error e
  | c => c

def Undisturbed : Call σ ω ξ ε → Prop
  | .plain (.write ..) seen => ∀ fact ∈ seen, fact store
  | .tx (.done (.ok _)) _ _ _ _ seen => ∀ fact ∈ seen, fact store
  | _ => True

end Call

/-! ### Interleavings -/

structure State (σ ω ξ ε : Type) where
  store : σ
  calls : Nat → Call σ ω ξ ε

def State.start (store : σ) : State σ ω ξ ε := ⟨store, fun _ => .idle⟩

/-- A call begins, or its next statement is executed. -/
inductive Event (π ξ : Type) where
  | begin (call : Nat) (op : π)
  | statement (call : Nat) (x : ξ) (outcome : Outcome) (message : String)

def Event.answered (call : Nat) (x : ξ) : Event π ξ := .statement call x .answered ""

variable (program : π → Program σ ω ξ ε Unit)

def step (s : State σ ω ξ ε) : Event π ξ → Option (State σ ω ξ ε)
  | .begin call op => match s.calls call with
    | .idle => some { s with calls := Function.update s.calls call (.plain (program op) []) }
    | _ => none
  | .statement call x outcome message =>
    let c := s.calls call
    if !c.Running then none
    else some
      { store := if outcome = .notExecuted then s.store else c.effect db x s.store
        calls := Function.update s.calls call
          (if outcome = .answered then c.next db x message s.store else c.fail message) }

def State.Undisturbed (s : State σ ω ξ ε) : Event π ξ → Prop
  | .begin .. => True
  | .statement call _ _ _ => (s.calls call).Undisturbed s.store

variable {call : Nat} {events : List (Event π ξ)}

section

variable {db program} {s t : State σ ω ξ ε} {e : Event π ξ}

lemma step_cases (h : db.step program s e = some t) :
    (∃ call op, e = .begin call op ∧ t.store = s.store ∧
      t.calls = update s.calls call (.plain (program op) [])) ∨
    ∃ call x outcome message, e = .statement call x outcome message ∧
      (t.store = s.store ∨ t.store = (s.calls call).effect db x s.store) ∧
      ((t.calls = update s.calls call ((s.calls call).next db x message s.store)) ∨
        t.calls = update s.calls call ((s.calls call).fail message)) := by
  cases e with
  | begin call op =>
    simp only [step] at h
    split at h
    · cases h
      exact .inl ⟨call, op, rfl, rfl, rfl⟩
    · cases h
  | statement call x outcome message =>
    simp only [step] at h
    split_ifs at h
    all_goals cases h
    · rename_i houtcome hanswered
      rw [houtcome] at hanswered
      cases hanswered
    · exact .inr ⟨call, x, outcome, message, rfl, .inl rfl, .inr rfl⟩
    · exact .inr ⟨call, x, outcome, message, rfl, .inr rfl, .inl rfl⟩
    · exact .inr ⟨call, x, outcome, message, rfl, .inr rfl, .inr rfl⟩

lemma forall_update {P : Call σ ω ξ ε → Prop} {calls : Nat → Call σ ω ξ ε} {c : Call σ ω ξ ε}
    (h : ∀ k, P (calls k)) (hc : P c) (k : Nat) :
    P (update calls call c k) :=
  (forall_update_iff calls fun _ => P).mpr ⟨hc, fun k _ => h k⟩ k

/-! ### What the constraints enforce -/

lemma Call.effect_admits (c : Call σ ω ξ ε) (x : ξ) (store : σ) :
    c.effect db x store = store ∨ db.admits (c.effect db x store) = true := by
  unfold effect
  split
  · cases hwrite : db.write store _ with
    | none => exact .inl rfl
    | some s =>
      obtain ⟨hadmits, rfl⟩ := write_eq_some.mp hwrite
      exact .inr hadmits
  · cases hcommit : db.commit _ store with
    | none => exact .inl rfl
    | some s => exact admits_of_commit hcommit
  · exact .inl rfl

theorem invariant_of_admits {I : σ → Prop} (hI : ∀ s, db.admits s = true → I s) (hstart : I s.store)
    (hrun : run (db.step program) s events = some t) : I t.store := by
  refine invariant (I := fun s : State σ ω ξ ε => I s.store) ?_ hstart hrun
  intro s e t hs hstep
  obtain ⟨_, _, -, hstore, -⟩ | ⟨call, x, _, _, -, hstore | hstore, -⟩ := step_cases hstep
  · exact hstore ▸ hs
  · exact hstore ▸ hs
  · rw [hstore]
    obtain hsame | hadmits := Call.effect_admits (s.calls call) x s.store
    · rwa [hsame]
    · exact hI _ hadmits

end

/-! ### What the programs keep -/

namespace Program

variable {α β : Type}

/-- Every write keeps `I`, given `K` and the answers of the queries since the last write. -/
def Keeps (I : σ → Prop) {α : Type} : Program σ ω ξ ε α → (σ → Prop) → Prop
  | .done _, _ => True
  | .read q failed k, K => failed.Keeps I K ∧ ∀ b, (k b).Keeps I fun s => K s ∧ q s = b
  | .write w failed k, K => (∀ x s₀ s, K s → I s → db.admits (db.apply (w x s₀) s) = true →
      I (db.apply (w x s₀) s)) ∧ (∀ m, (failed m).Keeps I fun _ => True) ∧
      ∀ x s₀, (k x s₀).Keeps I fun _ => True
  | .tx p _ k, _ => p.Keeps I (fun _ => True) ∧ k.Keeps I fun _ => True

variable {db} {I : σ → Prop} {p : Program σ ω ξ ε α} {K K' : σ → Prop}

lemma Keeps.mono (h : p.Keeps db I K) (hK : ∀ s, K' s → K s) : p.Keeps db I K' := by
  induction p generalizing K K' with
  | done result => trivial
  | read q failed k ihf ih =>
    exact ⟨ihf h.1 hK, fun b => ih b (h.2 b) fun s hs => ⟨hK s hs.1, hs.2⟩⟩
  | write w failed k ihf ih => exact ⟨fun x s₀ s hs => h.1 x s₀ s (hK s hs), h.2⟩
  | tx p failed k ihp ih => exact h

lemma Keeps.bind (h : p.Keeps db I K) {f : α → Program σ ω ξ ε β}
    (hf : ∀ a, (f a).Keeps db I fun _ => True) : (p >>= f).Keeps db I K := by
  induction p generalizing K with
  | done result =>
    cases result with
    | error e => trivial
    | ok a => exact (hf a).mono fun _ _ => trivial
  | read q failed k ihf ih => exact ⟨ihf h.1 hf, fun b => ih b (h.2 b) hf⟩
  | write w failed k ihf ih =>
    exact ⟨h.1, fun m => ihf m (h.2.1 m) hf, fun x s₀ => ih x s₀ (h.2.2 x s₀) hf⟩
  | tx p failed k ihp ih => exact ⟨h.1, ih h.2 hf⟩

lemma Keeps.foldlM {f : β → α → Program σ ω ξ ε β}
    (hf : ∀ b a, (f b a).Keeps db I fun _ => True) (as : List α) (b : β) :
    (as.foldlM f b).Keeps db I fun _ => True := by
  induction as generalizing b with
  | nil => trivial
  | cons a as ih =>
    rw [foldlM_cons]
    exact (hf b a).bind ih

lemma Keeps.forM {f : α → Program σ ω ξ ε PUnit}
    (hf : ∀ a, (f a).Keeps db I fun _ => True) (as : List α) :
    (as.forM f).Keeps db I fun _ => True := by
  induction as with
  | nil => trivial
  | cons a as ih => exact (hf a).bind fun _ => ih

end Program

def Call.Keeps (I : σ → Prop) : Call σ ω ξ ε → Prop
  | .idle => True
  | .plain p seen => p.Keeps db I fun s => ∀ fact ∈ seen, fact s
  | .tx p _ rest _ log seen => rest.Keeps db I (fun _ => True) ∧ ∃ K, p.Keeps db I K ∧
    (∀ s, (∀ fact ∈ seen, fact s) → K (db.applyAll log s)) ∧
    ∀ s t, (∀ fact ∈ seen, fact s) → I s → db.commit log s = some t → I t

variable {store : σ} {s : State σ ω ξ ε}

section

variable {db program} {I : σ → Prop}

namespace Call

variable {c : Call σ ω ξ ε} (h : c.Keeps db I)

include h

lemma Keeps.fail (message : String) : (c.fail message).Keeps db I := by
  unfold Call.fail
  split
  · exact h.1
  · exact (h.2.1 message).mono fun _ _ => trivial
  · trivial
  · obtain ⟨hrest, K, hp, hK, hlog⟩ := h
    exact ⟨hrest, K, hp.1, hK, hlog⟩
  · obtain ⟨hrest, K, hp, -, hlog⟩ := h
    exact ⟨hrest, _, hp.2.1 message, fun _ _ => trivial, hlog⟩
  · obtain ⟨hrest, -, -, -, hlog⟩ := h
    exact ⟨hrest, fun _ => True, trivial, fun _ _ => trivial, hlog⟩
  · trivial
  · trivial
  · exact h

lemma Keeps.next (x : ξ) (message : String) (store : σ) :
    (c.next db x message store).Keeps db I := by
  unfold Call.next
  split
  · -- a query outside a transaction
    rename_i q _ k seen
    refine (h.2 (q store)).mono ?_
    intro s hs
    rwa [forall_mem_append, forall_mem_singleton] at hs
  · -- a write outside a transaction
    split
    · exact (h.2.2 x _).mono fun _ _ => trivial
    · exact (h.2.1 message).mono fun _ _ => trivial
  · -- the begin of a transaction
    refine ⟨h.2, _, h.1, fun _ _ => trivial, ?_⟩
    intro s t _ hs hcommit
    cases hcommit
    exact hs
  · -- a query in a transaction
    obtain ⟨hrest, K, hp, hK, hlog⟩ := h
    refine ⟨hrest, _, hp.2 _, ?_, ?_⟩
    · intro s hs
      rw [forall_mem_append, forall_mem_singleton] at hs
      exact ⟨hK s hs.1, hs.2⟩
    · intro s t hs
      exact hlog s t (forall_mem_append.mp hs).1
  · -- a write in a transaction
    obtain ⟨hrest, K, hp, hK, hlog⟩ := h
    dsimp only
    split
    · refine ⟨hrest, _, hp.2.2 x _, fun _ _ => trivial, ?_⟩
      intro s t hs hI hcommit
      obtain ⟨u, hu, hlast⟩ := commit_append_singleton.mp hcommit
      obtain ⟨hadmits, rfl⟩ := write_eq_some.mp hlast
      refine hp.1 x _ u ?_ (hlog s u hs hI hu) hadmits
      rw [eq_applyAll_of_commit hu]
      exact hK s hs
    · exact ⟨hrest, _, hp.2.1 message, fun _ _ => trivial, hlog⟩
  · -- a transaction in a transaction
    obtain ⟨hrest, K, hp, -, hlog⟩ := h
    exact ⟨hrest, _, hp.1.bind fun _ => hp.2, fun _ _ => trivial, hlog⟩
  · -- the commit
    split
    · exact h.1.mono fun _ _ => trivial
    · trivial
  · trivial
  · exact h

lemma Keeps.effect (hI : I store) (hcall : c.Undisturbed store) (x : ξ) :
    I (c.effect db x store) := by
  unfold Call.effect
  split
  · rename_i w failed k seen
    cases hwrite : db.write store (w x store) with
    | none => exact hI
    | some s =>
      obtain ⟨hadmits, rfl⟩ := write_eq_some.mp hwrite
      exact h.1 x store store hcall hI hadmits
  · rename_i failed rest start log seen
    cases hcommit : db.commit log store with
    | none => exact hI
    | some s =>
      obtain ⟨-, _, -, -, hlog⟩ := h
      exact hlog store s hcall hI hcommit
  · exact hI

end Call

theorem invariant_of_undisturbed (hprogram : ∀ op, (program op).Keeps db I fun _ => True)
    (hstart : I store) (hok : Meets (db.step program) State.Undisturbed (State.start store) events)
    (hrun : run (db.step program) (State.start store) events = some s) :
    I s.store := by
  have hbegin : ∀ call, ((State.start store : State σ ω ξ ε).calls call).Keeps db I :=
    fun _ => trivial
  refine (invariant_of_meets
    (I := fun s : State σ ω ξ ε => I s.store ∧ ∀ call, (s.calls call).Keeps db I) ?_
    ⟨hstart, hbegin⟩ hok hrun).1
  rintro s e t ⟨hI, hcalls⟩ hundisturbed hstep
  obtain ⟨call, op, -, hstore, ht⟩ | ⟨call, x, outcome, message, rfl, hstore, ht⟩ :=
    step_cases hstep
  · refine ⟨hstore ▸ hI, ?_⟩
    rw [ht]
    exact forall_update hcalls ((hprogram op).mono fun _ _ => trivial)
  · constructor
    · obtain hstore | hstore := hstore
      · exact hstore ▸ hI
      · exact hstore ▸ (hcalls call).effect hI hundisturbed x
    · obtain ht | ht := ht
      · rw [ht]
        exact forall_update hcalls ((hcalls call).next x message s.store)
      · rw [ht]
        exact forall_update hcalls ((hcalls call).fail message)

end

/-! ### Programs that only read -/

def Program.ReadOnly {α : Type} : Program σ ω ξ ε α → Prop
  | .done _ => True
  | .read _ failed k => failed.ReadOnly ∧ ∀ b, (k b).ReadOnly
  | .write .. => False
  | .tx .. => False

def Call.ReadOnly : Call σ ω ξ ε → Prop
  | .idle => True
  | .plain p _ => p.ReadOnly
  | .tx .. => False

section

variable {db program} {c : Call σ ω ξ ε}

lemma Call.ReadOnly.fail (h : c.ReadOnly) (message : String) : (c.fail message).ReadOnly := by
  cases c with
  | idle => trivial
  | tx => exact h.elim
  | plain p seen =>
    cases p with
    | done result => trivial
    | read q failed k => exact h.1
    | write | tx => exact h.elim

lemma Call.ReadOnly.next (h : c.ReadOnly) (x : ξ) (message : String) (store : σ) :
    (c.next db x message store).ReadOnly := by
  cases c with
  | idle => trivial
  | tx => exact h.elim
  | plain p seen =>
    cases p with
    | done result => trivial
    | read q failed k => exact h.2 (q store)
    | write | tx => exact h.elim

lemma Call.ReadOnly.effect (h : c.ReadOnly) (x : ξ) (store : σ) : c.effect db x store = store := by
  cases c with
  | idle => rfl
  | tx => exact h.elim
  | plain p seen =>
    cases p with
    | done | read => rfl
    | write | tx => exact h.elim

theorem store_eq_of_readOnly (hprogram : ∀ call op, .begin call op ∈ events → (program op).ReadOnly)
    (hrun : run (db.step program) (State.start store) events = some s) :
    s.store = store := by
  have hok : Meets (db.step program)
      (fun _ e => ∀ call op, e = .begin call op → (program op).ReadOnly)
      (State.start store) events :=
    meets_of_forall fun e he _ call op heq => hprogram call op (heq ▸ he)
  have hidle : ∀ call, ((State.start store : State σ ω ξ ε).calls call).ReadOnly :=
    fun _ => trivial
  refine (invariant_of_meets
    (I := fun s : State σ ω ξ ε => s.store = store ∧ ∀ call, (s.calls call).ReadOnly) ?_
    ⟨rfl, hidle⟩ hok hrun).1
  rintro s e t ⟨hstore, hcalls⟩ hbegin hstep
  obtain ⟨call, op, rfl, hsame, ht⟩ | ⟨call, x, outcome, message, rfl, heffect, ht⟩ :=
    step_cases hstep
  · refine ⟨hsame.trans hstore, ?_⟩
    rw [ht]
    exact forall_update hcalls (hbegin call op rfl)
  · constructor
    · obtain heffect | heffect := heffect
      · exact heffect.trans hstore
      · rw [heffect, (hcalls call).effect, hstore]
    · obtain ht | ht := ht
      · rw [ht]
        exact forall_update hcalls ((hcalls call).next x message s.store)
      · rw [ht]
        exact forall_update hcalls ((hcalls call).fail message)

end

/-! ### The first write -/

/-- `s` becomes `u` at the first write of the program. -/
inductive FirstWrite {α : Type} (s u : σ) : Program σ ω ξ ε α → Prop where
  | write {w : ξ → σ → ω} {failed : String → Program σ ω ξ ε α}
    {k : ξ → σ → Program σ ω ξ ε α} (x : ξ) (hwrite : db.write s (w x s) = some u) :
    FirstWrite s u (.write w failed k)
  | read {β : Type} {q : σ → β} {failed : Program σ ω ξ ε α} {k : β → Program σ ω ξ ε α}
    (h : FirstWrite s u (k (q s))) : FirstWrite s u (.read q failed k)

lemma step_answered (h : (s.calls call).Running = true) (x : ξ) :
    db.step program s (.answered call x) = some
      { store := (s.calls call).effect db x s.store
        calls := update s.calls call ((s.calls call).next db x "" s.store) } := by
  simp [Event.answered, step, h]

section

variable {db program} {store u : σ}

lemma FirstWrite.bind {α β : Type} {p : Program σ ω ξ ε α} {f : α → Program σ ω ξ ε β}
    (h : FirstWrite db store u p) : FirstWrite db store u (p >>= f) := by
  induction h with
  | write x hwrite => exact .write x hwrite
  | read _ ih => exact .read ih

lemma FirstWrite.exists_statements [Nonempty ξ] {p : Program σ ω ξ ε Unit}
    (h : FirstWrite db store u p) {seen : List (σ → Prop)} (hstore : s.store = store)
    (hcall : s.calls call = .plain p seen) :
    ∃ (events : List (Event π ξ)) (t : State σ ω ξ ε), (∀ call op, .begin call op ∉ events) ∧
      run (db.step program) s events = some t ∧ t.store = u := by
  induction h generalizing s seen with
  | write x hwrite =>
    have hstep := step_answered db program (by rw [hcall]; rfl : (s.calls call).Running = true) x
    refine ⟨[_], _, ?_, run_cons_eq_some.mpr ⟨_, hstep, rfl⟩, ?_⟩
    · simp [Event.answered]
    · simp [hcall, hstore, Call.effect, hwrite]
  | @read β q failed k _ ih =>
    obtain ⟨x⟩ := ‹Nonempty ξ›
    have hstep := step_answered db program (by rw [hcall]; rfl : (s.calls call).Running = true) x
    rw [hcall, hstore] at hstep
    have hnext : (⟨store, update s.calls call
        (.plain (k (q store)) (seen ++ [fun s => q s = q store]))⟩ : State σ ω ξ ε).calls call =
        .plain (k (q store)) (seen ++ [fun s => q s = q store]) := update_self ..
    obtain ⟨events, t, hevents, hrun, ht⟩ := ih rfl hnext
    refine ⟨_ :: events, t, ?_, run_cons_eq_some.mpr ⟨_, hstep, hrun⟩, ht⟩
    simpa [Event.answered] using hevents

theorem FirstWrite.exists_run [Nonempty ξ] {op : π} (h : FirstWrite db store u (program op)) :
    ∃ events s, (∀ call op', .begin call op' ∈ events → op' = op) ∧
      run (db.step program) (State.start store) events = some s ∧ s.store = u := by
  have hbegun : (⟨store, update (fun _ => .idle) 0 (.plain (program op) [])⟩ :
      State σ ω ξ ε).calls 0 = .plain (program op) [] := rfl
  obtain ⟨events, t, hevents, hrun, ht⟩ := h.exists_statements rfl hbegun
  refine ⟨.begin 0 op :: events, t, ?_, run_cons_eq_some.mpr ⟨_, rfl, hrun⟩, ht⟩
  intro call op' hmem
  obtain heq | hmem := mem_cons.mp hmem
  · cases heq
    rfl
  · exact absurd hmem (hevents call op')

end

end Database
