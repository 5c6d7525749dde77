import Mathlib.Data.List.Count

/-!
# Programs that leave a log

A program performs effects one after the other until it returns a value or an error. `Paired`:
whatever is opened is closed exactly once later.
-/

/-- A result with the effects that led to it. -/
structure Logged (ω ε α : Type) where
  effects : List ω
  result : Except ε α

namespace Logged

variable {ω ε α β : Type}

protected def bind (x : Logged ω ε α) (f : α → Logged ω ε β) : Logged ω ε β :=
  match x.result with
  | .ok a    => ⟨x.effects ++ (f a).effects, (f a).result⟩
  | .error e => ⟨x.effects, .error e⟩

instance : Monad (Logged ω ε) where
  pure a := ⟨[], .ok a⟩
  bind := Logged.bind

def emit (w : ω) : Logged ω ε Unit := ⟨[w], .ok ()⟩

def ofExcept (r : Except ε α) : Logged ω ε α := ⟨[], r⟩

def fail (e : ε) : Logged ω ε α := ⟨[], .error e⟩

variable {x : Logged ω ε α} {f : α → Logged ω ε β} {w : ω} {a : α} {e : ε}

@[simp] lemma effects_pure : (pure a : Logged ω ε α).effects = [] := rfl
@[simp] lemma result_pure : (pure a : Logged ω ε α).result = .ok a := rfl
@[simp] lemma effects_fail : (fail e : Logged ω ε α).effects = [] := rfl
@[simp] lemma result_fail : (fail e : Logged ω ε α).result = .error e := rfl
@[simp] lemma effects_emit : (emit w : Logged ω ε Unit).effects = [w] := rfl

lemma bind_of_ok (h : x.result = .ok a) :
    x >>= f = ⟨x.effects ++ (f a).effects, (f a).result⟩ := by
  change Logged.bind x f = _
  rw [Logged.bind, h]

lemma bind_of_error (h : x.result = .error e) : x >>= f = ⟨x.effects, .error e⟩ := by
  change Logged.bind x f = _
  rw [Logged.bind, h]

@[simp] lemma pure_bind (f : α → Logged ω ε β) : (pure a : Logged ω ε α) >>= f = f a := rfl

@[simp] lemma emit_bind (f : Unit → Logged ω ε β) :
    (emit w : Logged ω ε Unit) >>= f = ⟨w :: (f ()).effects, (f ()).result⟩ := rfl

section

variable (f : α → Logged ω ε β)

@[simp] lemma ofExcept_ok_bind :
    (ofExcept (.ok a) : Logged ω ε α) >>= f = f a := rfl

@[simp] lemma ofExcept_error_bind :
    (ofExcept (.error e) : Logged ω ε α) >>= f = fail e := rfl

@[simp] lemma fail_bind : (fail e : Logged ω ε α) >>= f = fail e := rfl

end

/-! ### What all effects of a program have in common -/

/-- Every effect of the program satisfies `P`, whichever way it returns. -/
def Always (P : ω → Prop) (x : Logged ω ε α) : Prop := ∀ w ∈ x.effects, P w

variable {P : ω → Prop}

lemma Always.pure : Always P (Pure.pure a : Logged ω ε α) := by simp [Always]

lemma Always.fail : Always P (Logged.fail e : Logged ω ε α) := by simp [Always]

lemma Always.ofExcept (r : Except ε α) : Always P (Logged.ofExcept r : Logged ω ε α) := by
  simp [Always, Logged.ofExcept]

lemma Always.emit (h : P w) : Always P (Logged.emit w : Logged ω ε Unit) := by
  simpa [Always] using h

lemma Always.bind (hx : Always P x) (hf : ∀ a, x.result = .ok a → Always P (f a)) :
    Always P (x >>= f) := by
  cases hres : x.result with
  | ok a =>
    rw [bind_of_ok hres]
    intro w hw
    rcases List.mem_append.mp hw with hw | hw
    · exact hx w hw
    · exact hf a hres w hw
  | error e =>
    rw [bind_of_error hres]
    exact hx

end Logged

/-! ### Resources -/

namespace Pairing

variable {ω κ : Type} [DecidableEq κ] (opens closes : ω → Option κ)

def Paired : List ω → Prop
  | [] => True
  | w :: log => (∀ k, opens w = some k → (log.filterMap closes).count k = 1) ∧ Paired log

variable {opens} {w : ω} {log : List ω} {k : κ}

lemma paired_append_iff (post : List ω) (h : ∀ w ∈ log, opens w = none) :
    Paired opens closes (log ++ post) ↔ Paired opens closes post := by
  induction log with
  | nil => rfl
  | cons w log ih =>
    have hw := h w List.mem_cons_self
    have hlog := ih fun v hv => h v (List.mem_cons_of_mem w hv)
    simp [Paired, hw, hlog]

lemma paired_of_opens_none (h : ∀ w ∈ log, opens w = none) : Paired opens closes log := by
  have := (paired_append_iff closes [] h).mpr trivial
  rwa [List.append_nil] at this

lemma paired_append_right_iff {post : List ω}
    (h : ∀ w ∈ post, opens w = none ∧ closes w = none) :
    Paired opens closes (log ++ post) ↔ Paired opens closes log := by
  induction log with
  | nil =>
    have := paired_of_opens_none closes fun w hw => (h w hw).1
    simp [Paired, this]
  | cons w log ih =>
    have hpost : post.filterMap closes = [] :=
      List.filterMap_eq_nil_iff.mpr fun w hw => (h w hw).2
    simp [Paired, ih, List.filterMap_append, hpost]

lemma paired_cons_iff (hw : opens w = some k) (h : ∀ v ∈ log, opens v = none) :
    Paired opens closes (w :: log) ↔ (log.filterMap closes).count k = 1 := by
  have := paired_of_opens_none closes h
  simp [Paired, hw, this]

end Pairing
