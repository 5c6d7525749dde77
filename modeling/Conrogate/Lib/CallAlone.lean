import Conrogate.Lib.Database

/-!
# A call alone

What a program does while no other call writes, as a relation between the store before, the result
and the store after. A program for a part of a store does the same to that part of the whole store.
-/

namespace Database

variable {σ ω ξ ε : Type} (db : Database σ ω)

/-- A way in which a call can go, with what the outside has contributed to each of the writes that
have been executed. Of a call that returns an error, the list tells how far it has come. -/
def Executes {α : Type} : Program σ ω ξ ε α → σ → List ξ → Except ε α → σ → Prop
  | .done result, s, xs, r, t => xs = [] ∧ r = result ∧ t = s
  | .read q failed k, s, xs, r, t => Executes (k (q s)) s xs r t ∨ Executes failed s xs r t
  | .write w failed k, s, xs, r, t =>
    -- the answer to a write that was executed can be lost
    (∃ x u ys, xs = x :: ys ∧ db.write s (w x s) = some u ∧
      (Executes (k x s) u ys r t ∨ ∃ m, Executes (failed m) u ys r t)) ∨
    ∃ m, Executes (failed m) s xs r t
  | .tx p e k, s, xs, r, t =>
    (∃ u ys, Executes p s ys (.ok ()) u ∧
      ((∃ zs, xs = ys ++ zs ∧ Executes k u zs r t) ∨ xs = ys ∧ r = .error e ∧ t = u)) ∨
    -- rolled back, by the commit or by the program
    xs = [] ∧ t = s ∧ (r = .error e ∨ ∃ ys u e', Executes p s ys (.error e') u ∧ r = .error e')

def Runs {α : Type} (p : Program σ ω ξ ε α) (s : σ) (r : Except ε α) (t : σ) : Prop :=
  ∃ xs, db.Executes p s xs r t

/-- The run in which every statement is answered. `stamp` is what the outside contributes to a
write, and `message` what the database says to one that it refuses. -/
def Program.execute (stamp : (ξ → σ → ω) → σ → ξ) (message : String) {α : Type} :
    Program σ ω ξ ε α → σ → Except ε α × σ
  | .done result, s => (result, s)
  | .read q _ k, s => (k (q s)).execute stamp message s
  | .write w failed k, s => match db.write s (w (stamp w s) s) with
    | some t => (k (stamp w s) s).execute stamp message t
    | none   => (failed message).execute stamp message s
  | .tx p _ k, s => match p.execute stamp message s with
    | (.ok _, t)    => k.execute stamp message t
    | (.error e, _) => (.error e, s)

/-- Every write that the database admits leads from a store to a related one. -/
def Program.Within (R : σ → σ → Prop) {α : Type} : Program σ ω ξ ε α → Prop
  | .done _ => True
  | .read q failed k => failed.Within R ∧ ∀ s, (k (q s)).Within R
  | .write w failed k =>
    (∀ x s, db.admits (db.apply (w x s) s) = true → R s (db.apply (w x s) s)) ∧
      (∀ m, (failed m).Within R) ∧ ∀ x s, (k x s).Within R
  | .tx p _ k => p.Within R ∧ k.Within R

section

variable {db} {α β : Type} {R : σ → σ → Prop} {p : Program σ ω ξ ε α} {s t u : σ} {xs ys : List ξ}
  {r : Except ε α}

lemma Program.Within.bind (h : p.Within db R) {f : α → Program σ ω ξ ε β}
    (hf : ∀ a, (f a).Within db R) : (p >>= f).Within db R := by
  induction p with
  | done result =>
    cases result with
    | error e => trivial
    | ok a => exact hf a
  | read q failed k ihf ih => exact ⟨ihf h.1 hf, fun s => ih _ (h.2 s) hf⟩
  | write w failed k ihf ih =>
    exact ⟨h.1, fun m => ihf m (h.2.1 m) hf, fun x s => ih x s (h.2.2 x s) hf⟩
  | tx p failed k ihp ih => exact ⟨h.1, ih h.2 hf⟩

lemma Program.Within.forM {f : α → Program σ ω ξ ε PUnit} (hf : ∀ a, (f a).Within db R)
    (as : List α) : (as.forM f).Within db R := by
  induction as with
  | nil => trivial
  | cons a as ih => exact (hf a).bind fun _ => ih

lemma Program.ReadOnly.within (h : p.ReadOnly) : p.Within db R := by
  induction p with
  | done result => trivial
  | read q failed k ihf ih => exact ⟨ihf h.1, fun s => ih _ (h.2 _)⟩
  | write | tx => exact h.elim

theorem Executes.within [Std.Refl R] [IsTrans σ R] (h : db.Executes p s xs r t)
    (hp : p.Within db R) : R s t := by
  induction p generalizing s xs t with
  | done result =>
    obtain ⟨-, -, rfl⟩ := h
    exact refl_of R _
  | read q failed k ihf ih => exact h.elim (ih _ · (hp.2 s)) (ihf · hp.1)
  | write w failed k ihf ih =>
    obtain ⟨x, u, ys, -, hwrite, h⟩ | ⟨m, h⟩ := h
    · obtain ⟨hadmits, rfl⟩ := write_eq_some.mp hwrite
      refine trans_of R (hp.1 x s hadmits) ?_
      obtain h | ⟨m, h⟩ := h
      · exact ih x s h (hp.2.2 x s)
      · exact ihf m h (hp.2.1 m)
    · exact ihf m h (hp.2.1 m)
  | tx p failed k ihp ih =>
    obtain ⟨u, ys, hu, ⟨zs, -, h⟩ | ⟨-, -, rfl⟩⟩ | ⟨-, rfl, -⟩ := h
    · exact trans_of R (ihp hu hp.1) (ih h hp.2)
    · exact ihp hu hp.1
    · exact refl_of R _

lemma Executes.eq_of_nil (h : db.Executes p s [] r t) : t = s := by
  induction p generalizing s t with
  | done result => exact h.2.2
  | read q failed k ihf ih => exact h.elim (ih _) ihf
  | write w failed k ihf ih =>
    obtain ⟨x, u, ys, hnil, -⟩ | ⟨m, h⟩ := h
    · cases hnil
    · exact ihf m h
  | tx p failed k ihp ih =>
    obtain ⟨u, ys, hu, ⟨zs, hnil, h⟩ | ⟨rfl, -, rfl⟩⟩ | ⟨-, rfl, -⟩ := h
    · obtain ⟨rfl, rfl⟩ := List.append_eq_nil_iff.mp hnil.symm
      exact (ih h).trans (ihp hu)
    · exact ihp hu
    · rfl

lemma Executes.eq_nil_of_readOnly (h : db.Executes p s xs r t) (hp : p.ReadOnly) : xs = [] := by
  induction p with
  | done result => exact h.1
  | read q failed k ihf ih => exact h.elim (ih _ · (hp.2 _)) (ihf · hp.1)
  | write | tx => exact hp.elim

lemma Runs.eq_of_readOnly (h : db.Runs p s r t) (hp : p.ReadOnly) : t = s := by
  obtain ⟨xs, h⟩ := h
  obtain rfl := h.eq_nil_of_readOnly hp
  exact h.eq_of_nil

lemma Runs.keeps {I K : σ → Prop} (h : db.Runs p s r t) (hp : p.Keeps db I K) (hK : K s)
    (hs : I s) : I t := by
  obtain ⟨xs, h⟩ := h
  induction p generalizing s xs t K with
  | done result => exact h.2.2 ▸ hs
  | read q failed k ihf ih => exact h.elim (ih _ (hp.2 _) ⟨hK, rfl⟩ hs _) (ihf hp.1 hK hs _)
  | write w failed k ihf ih =>
    obtain ⟨x, u, ys, -, hwrite, h⟩ | ⟨m, h⟩ := h
    · obtain ⟨hadmits, rfl⟩ := write_eq_some.mp hwrite
      have hu := hp.1 x s s hK hs hadmits
      obtain h | ⟨m, h⟩ := h
      · exact ih x s (hp.2.2 x s) trivial hu _ h
      · exact ihf m (hp.2.1 m) trivial hu _ h
    · exact ihf m (hp.2.1 m) trivial hs _ h
  | tx p failed k ihp ih =>
    obtain ⟨u, ys, hu, ⟨zs, -, h⟩ | ⟨-, -, rfl⟩⟩ | ⟨-, rfl, -⟩ := h
    · exact ih hp.2 trivial (ihp hp.1 trivial hs _ hu) _ h
    · exact ihp hp.1 trivial hs _ hu
    · exact hs

/-! ### Sequences -/

variable {f : α → Program σ ω ξ ε β} {r' : Except ε β}

lemma Executes.bind {a : α} (hp : db.Executes p s xs (.ok a) u) (hf : db.Executes (f a) u ys r' t) :
    db.Executes (p >>= f) s (xs ++ ys) r' t := by
  induction p generalizing s xs with
  | done result =>
    obtain ⟨rfl, rfl, rfl⟩ := hp
    exact hf
  | read q failed k ihf ih => exact hp.imp (ih _ · hf) (ihf · hf)
  | write w failed k ihf ih =>
    obtain ⟨x, v, zs, rfl, hwrite, hp⟩ | ⟨m, hp⟩ := hp
    · exact .inl ⟨x, v, zs ++ ys, rfl, hwrite, hp.imp (ih x s · hf) fun ⟨m, hp⟩ => ⟨m, ihf m hp hf⟩⟩
    · exact .inr ⟨m, ihf m hp hf⟩
  | tx p failed k ihp ih =>
    obtain ⟨v, zs, hv, ⟨zs', rfl, hp⟩ | ⟨-, hr, -⟩⟩ | ⟨-, -, hr | ⟨_, _, _, -, hr⟩⟩ := hp
    · exact .inl ⟨v, zs, hv, .inl ⟨zs' ++ ys, List.append_assoc .., ih hp hf⟩⟩
    all_goals cases hr

lemma Executes.bind_error {e : ε} (h : db.Executes p s xs (.error e) t) :
    db.Executes (p >>= f) s xs (.error e) t := by
  induction p generalizing s xs with
  | done result =>
    obtain ⟨rfl, rfl, rfl⟩ := h
    exact ⟨rfl, rfl, rfl⟩
  | read q failed k ihf ih => exact h.imp (ih _) ihf
  | write w failed k ihf ih =>
    obtain ⟨x, v, ys, rfl, hwrite, h⟩ | ⟨m, h⟩ := h
    · exact .inl ⟨x, v, ys, rfl, hwrite, h.imp (ih x s) fun ⟨m, h⟩ => ⟨m, ihf m h⟩⟩
    · exact .inr ⟨m, ihf m h⟩
  | tx p failed k ihp ih =>
    obtain ⟨v, ys, hv, ⟨zs, rfl, h⟩ | ⟨rfl, hr, rfl⟩⟩ | ⟨rfl, rfl, hr | ⟨ys, v, e', hv, hr⟩⟩ := h
    · exact .inl ⟨v, ys, hv, .inl ⟨zs, rfl, ih h⟩⟩
    all_goals cases hr
    · exact .inl ⟨_, _, hv, .inr ⟨rfl, rfl, rfl⟩⟩
    · exact .inr ⟨rfl, rfl, .inl rfl⟩
    · exact .inr ⟨rfl, rfl, .inr ⟨ys, v, _, hv, rfl⟩⟩

/-- A sequence of two programs ends with an error of the first, or goes on to the second. -/
lemma executes_bind_cases (h : db.Executes (p >>= f) s xs r' t) :
    (∃ e, r' = .error e ∧ db.Executes p s xs (.error e) t) ∨
      ∃ a u ys zs, xs = ys ++ zs ∧ db.Executes p s ys (.ok a) u ∧ db.Executes (f a) u zs r' t := by
  induction p generalizing s xs with
  | done result =>
    cases result with
    | error e =>
      obtain ⟨rfl, rfl, rfl⟩ := h
      exact .inl ⟨e, rfl, rfl, rfl, rfl⟩
    | ok a => exact .inr ⟨a, s, [], xs, rfl, ⟨rfl, rfl, rfl⟩, h⟩
  | read q failed k ihf ih =>
    obtain h | h := h
    · obtain ⟨e, rfl, hp⟩ | ⟨a, u, ys, zs, rfl, hp, hf⟩ := ih _ h
      · exact .inl ⟨e, rfl, .inl hp⟩
      · exact .inr ⟨a, u, ys, zs, rfl, .inl hp, hf⟩
    · obtain ⟨e, rfl, hp⟩ | ⟨a, u, ys, zs, rfl, hp, hf⟩ := ihf h
      · exact .inl ⟨e, rfl, .inr hp⟩
      · exact .inr ⟨a, u, ys, zs, rfl, .inr hp, hf⟩
  | write w failed k ihf ih =>
    obtain ⟨x, v, ws, rfl, hwrite, h | ⟨m, h⟩⟩ | ⟨m, h⟩ := h
    · obtain ⟨e, rfl, hp⟩ | ⟨a, u, ys, zs, rfl, hp, hf⟩ := ih x s h
      · exact .inl ⟨e, rfl, .inl ⟨x, v, ws, rfl, hwrite, .inl hp⟩⟩
      · exact .inr ⟨a, u, x :: ys, zs, rfl, .inl ⟨x, v, ys, rfl, hwrite, .inl hp⟩, hf⟩
    · obtain ⟨e, rfl, hp⟩ | ⟨a, u, ys, zs, rfl, hp, hf⟩ := ihf m h
      · exact .inl ⟨e, rfl, .inl ⟨x, v, ws, rfl, hwrite, .inr ⟨m, hp⟩⟩⟩
      · exact .inr ⟨a, u, x :: ys, zs, rfl, .inl ⟨x, v, ys, rfl, hwrite, .inr ⟨m, hp⟩⟩, hf⟩
    · obtain ⟨e, rfl, hp⟩ | ⟨a, u, ys, zs, rfl, hp, hf⟩ := ihf m h
      · exact .inl ⟨e, rfl, .inr ⟨m, hp⟩⟩
      · exact .inr ⟨a, u, ys, zs, rfl, .inr ⟨m, hp⟩, hf⟩
  | tx p failed k ihp ih =>
    obtain ⟨v, ws, hv, ⟨vs, rfl, h⟩ | ⟨rfl, rfl, rfl⟩⟩ | ⟨rfl, rfl, rfl | ⟨ws, v, e', hv, rfl⟩⟩ := h
    · obtain ⟨e, rfl, hk⟩ | ⟨a, u, ys, zs, rfl, hk, hf⟩ := ih h
      · exact .inl ⟨e, rfl, .inl ⟨v, ws, hv, .inl ⟨vs, rfl, hk⟩⟩⟩
      · exact .inr ⟨a, u, ws ++ ys, zs, (List.append_assoc ..).symm,
          .inl ⟨v, ws, hv, .inl ⟨ys, rfl, hk⟩⟩, hf⟩
    · exact .inl ⟨_, rfl, .inl ⟨_, _, hv, .inr ⟨rfl, rfl, rfl⟩⟩⟩
    · exact .inl ⟨_, rfl, .inr ⟨rfl, rfl, .inl rfl⟩⟩
    · exact .inl ⟨_, rfl, .inr ⟨rfl, rfl, .inr ⟨ws, v, _, hv, rfl⟩⟩⟩

lemma Runs.bind {a : α} (hp : db.Runs p s (.ok a) u) (hf : db.Runs (f a) u r' t) :
    db.Runs (p >>= f) s r' t := by
  obtain ⟨xs, hp⟩ := hp
  obtain ⟨ys, hf⟩ := hf
  exact ⟨xs ++ ys, hp.bind hf⟩

lemma Runs.done : db.Runs (.done r : Program σ ω ξ ε α) s r s := ⟨[], rfl, rfl, rfl⟩

variable (db) in
theorem runs_execute (stamp : (ξ → σ → ω) → σ → ξ) (message : String) (p : Program σ ω ξ ε α)
    (s : σ) : db.Runs p s (p.execute db stamp message s).1 (p.execute db stamp message s).2 := by
  induction p generalizing s with
  | done result => exact .done
  | read q failed k ihf ih =>
    obtain ⟨xs, h⟩ := ih (q s) s
    exact ⟨xs, .inl h⟩
  | write w failed k ihf ih =>
    rw [Program.execute]
    cases hwrite : db.write s (w (stamp w s) s) with
    | some t =>
      obtain ⟨xs, h⟩ := ih (stamp w s) s t
      exact ⟨_ :: xs, .inl ⟨_, t, xs, rfl, hwrite, .inl h⟩⟩
    | none =>
      obtain ⟨xs, h⟩ := ihf message s
      exact ⟨xs, .inr ⟨message, h⟩⟩
  | tx p failed k ihp ih =>
    obtain ⟨xs, hp⟩ := ihp s
    rw [Program.execute]
    generalize p.execute db stamp message s = out at hp
    obtain ⟨_ | _, t⟩ := out
    · exact ⟨[], .inr ⟨rfl, rfl, .inr ⟨xs, t, _, hp, rfl⟩⟩⟩
    · obtain ⟨ys, hk⟩ := ih t
      exact ⟨xs ++ ys, .inl ⟨t, xs, hp, .inl ⟨ys, rfl, hk⟩⟩⟩

lemma runs_bind_ok {b : β} : db.Runs (p >>= f) s (.ok b) t ↔
    ∃ a u, db.Runs p s (.ok a) u ∧ db.Runs (f a) u (.ok b) t := by
  constructor
  · rintro ⟨xs, h⟩
    obtain ⟨e, he, -⟩ | ⟨a, u, ys, zs, -, hp, hf⟩ := executes_bind_cases h
    · cases he
    · exact ⟨a, u, ⟨ys, hp⟩, ⟨zs, hf⟩⟩
  · rintro ⟨a, u, hp, hf⟩
    exact hp.bind hf

lemma exists_runs_failing (p : Program σ ω ξ ε α) (s : σ) : ∃ r, db.Runs p s r s := by
  induction p with
  | done result => exact ⟨result, [], rfl, rfl, rfl⟩
  | read q failed k ihf ih =>
    obtain ⟨r, xs, h⟩ := ihf
    exact ⟨r, xs, .inr h⟩
  | write w failed k ihf ih =>
    obtain ⟨r, xs, h⟩ := ihf ""
    exact ⟨r, xs, .inr ⟨"", h⟩⟩
  | tx p failed k ihp ih => exact ⟨_, [], .inr ⟨rfl, rfl, .inl rfl⟩⟩

lemma Runs.exists_bind (h : db.Runs p s r t) (f : α → Program σ ω ξ ε β) :
    ∃ r', db.Runs (p >>= f) s r' t := by
  cases r with
  | error e =>
    obtain ⟨xs, h⟩ := h
    exact ⟨_, xs, h.bind_error⟩
  | ok a =>
    obtain ⟨r', hf⟩ := exists_runs_failing (f a) t
    exact ⟨r', h.bind hf⟩

end

/-! ### A part of the store -/

def Program.lift {σ' ω' : Type} (view : σ' → σ) (inj : ω → ω') {α : Type} :
    Program σ ω ξ ε α → Program σ' ω' ξ ε α
  | .done result => .done result
  | .read q failed k => .read (fun s => q (view s)) (failed.lift view inj) fun b =>
    (k b).lift view inj
  | .write w failed k => .write (fun x s => inj (w x (view s))) (fun m => (failed m).lift view inj)
    fun x s => (k x (view s)).lift view inj
  | .tx p failed k    => .tx (p.lift view inj) failed (k.lift view inj)

section

variable {db} {σ' ω' α : Type} {db' : Database σ' ω'} {view : σ' → σ} {inj : ω → ω'}
  {p : Program σ ω ξ ε α} (hview : ∀ w s, view (db'.apply (inj w) s) = db.apply w (view s))
  {xs : List ξ} {r : Except ε α}

include hview

lemma Program.Within.lift {R : σ → σ → Prop} (h : p.Within db R)
    (hadmits : ∀ s, db'.admits s = true → db.admits (view s) = true) :
    (p.lift view inj).Within db' fun s t => R (view s) (view t) := by
  induction p with
  | done result => trivial
  | read q failed k ihf ih => exact ⟨ihf h.1, fun s => ih _ (h.2 (view s))⟩
  | write w failed k ihf ih =>
    refine ⟨?_, fun m => ihf m (h.2.1 m), fun x s => ih x _ (h.2.2 x (view s))⟩
    intro x s hadmitted
    have hpart := hadmits _ hadmitted
    rw [hview] at hpart ⊢
    exact h.1 x (view s) hpart
  | tx p failed k ihp ih => exact ⟨ihp h.1, ih h.2⟩

theorem Executes.of_lift (hadmits : ∀ s, db'.admits s = true → db.admits (view s) = true)
    {s t : σ'} (h : db'.Executes (p.lift view inj) s xs r t) :
    db.Executes p (view s) xs r (view t) := by
  induction p generalizing s t xs with
  | done result =>
    obtain ⟨rfl, rfl, rfl⟩ := h
    exact ⟨rfl, rfl, rfl⟩
  | read q failed k ihf ih => exact h.imp (ih _) ihf
  | write w failed k ihf ih =>
    obtain ⟨x, u, ys, rfl, hw, h⟩ | ⟨m, h⟩ := h
    · obtain ⟨hadmitted, rfl⟩ := write_eq_some.mp hw
      have hpart := hadmits _ hadmitted
      rw [hview] at hpart
      exact .inl ⟨x, _, ys, rfl, write_eq_some.mpr ⟨hpart, hview _ s⟩,
        h.imp (ih x _) fun ⟨m, h⟩ => ⟨m, ihf m h⟩⟩
    · exact .inr ⟨m, ihf m h⟩
  | tx p failed k ihp ih =>
    obtain ⟨u, ys, hu, h⟩ | ⟨rfl, rfl, h⟩ := h
    · refine .inl ⟨view u, ys, ihp hu, h.imp (fun ⟨zs, hxs, h⟩ => ⟨zs, hxs, ih h⟩) ?_⟩
      rintro ⟨hxs, hr, rfl⟩
      exact ⟨hxs, hr, rfl⟩
    · exact .inr ⟨rfl, rfl, h.imp_right fun ⟨ys, u, e, hu, hr⟩ => ⟨ys, view u, e, ihp hu, hr⟩⟩

theorem Executes.lift (hadmits : ∀ w s, db'.admits s = true →
      db.admits (db.apply w (view s)) = true → db'.admits (db'.apply (inj w) s) = true)
    {s : σ'} {u : σ} (hs : db'.admits s = true) (h : db.Executes p (view s) xs r u) :
    ∃ t, db'.Executes (p.lift view inj) s xs r t ∧ view t = u ∧ db'.admits t = true := by
  induction p generalizing s u xs with
  | done result =>
    obtain ⟨rfl, rfl, rfl⟩ := h
    exact ⟨s, ⟨rfl, rfl, rfl⟩, rfl, hs⟩
  | read q failed k ihf ih =>
    obtain h | h := h
    · obtain ⟨t, ht, hrest⟩ := ih _ hs h
      exact ⟨t, .inl ht, hrest⟩
    · obtain ⟨t, ht, hrest⟩ := ihf hs h
      exact ⟨t, .inr ht, hrest⟩
  | write w failed k ihf ih =>
    obtain ⟨x, v, ys, rfl, hw, h⟩ | ⟨m, h⟩ := h
    · obtain ⟨hpart, rfl⟩ := write_eq_some.mp hw
      have hwhole := hadmits _ s hs hpart
      rw [← hview] at h
      have hwrite := write_eq_some.mpr ⟨hwhole, rfl⟩
      obtain h | ⟨m, h⟩ := h
      · obtain ⟨t, ht, hrest⟩ := ih x _ hwhole h
        exact ⟨t, .inl ⟨x, _, ys, rfl, hwrite, .inl ht⟩, hrest⟩
      · obtain ⟨t, ht, hrest⟩ := ihf m hwhole h
        exact ⟨t, .inl ⟨x, _, ys, rfl, hwrite, .inr ⟨m, ht⟩⟩, hrest⟩
    · obtain ⟨t, ht, hrest⟩ := ihf m hs h
      exact ⟨t, .inr ⟨m, ht⟩, hrest⟩
  | tx p failed k ihp ih =>
    obtain ⟨v, ys, hv, h⟩ | ⟨rfl, rfl, h⟩ := h
    · obtain ⟨v', hv', rfl, hadmitted⟩ := ihp hs hv
      obtain ⟨zs, hxs, h⟩ | ⟨hxs, hr, rfl⟩ := h
      · obtain ⟨t, ht, hrest⟩ := ih hadmitted h
        exact ⟨t, .inl ⟨v', ys, hv', .inl ⟨zs, hxs, ht⟩⟩, hrest⟩
      · exact ⟨v', .inl ⟨v', ys, hv', .inr ⟨hxs, hr, rfl⟩⟩, rfl, hadmitted⟩
    · refine ⟨s, .inr ⟨rfl, rfl, h.imp_right ?_⟩, rfl, hs⟩
      rintro ⟨ys, v, e, hv, hr⟩
      obtain ⟨v, hv, -⟩ := ihp hs hv
      exact ⟨ys, v, e, hv, hr⟩

end

end Database
