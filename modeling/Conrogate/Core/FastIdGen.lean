import Conrogate.Core.TraceId
import Mathlib.Data.Nat.Bitwise
import Mathlib.Data.List.Pairwise
import Mathlib.Tactic.IntervalCases

/-!
# The generator of identifiers

An identifier is the seed of the process, the clock and a counter that every call advances. As the
clock and the counter are cut to 36 and 20 bits, identifiers can repeat, but only after so many
calls in a millisecond or so much time.
-/

namespace Conrogate

open List Nat

/-! ### Identifiers -/

/-- The form of a UUID of version 4, with small letters. -/
structure IsUuidV4 (s : List Char) : Prop where
  length : s.length = 36
  hyphens : ∀ i ∈ [8, 13, 18, 23], s[i]? = some '-'
  digits : ∀ i ∉ [8, 13, 18, 23], ∀ c ∈ s[i]?, c ∈ hexChars
  version : s[14]? = some '4'
  variant : ∃ c ∈ ['8', '9', 'a', 'b'], s[19]? = some c

lemma beByte_lt (w i : Nat) : beByte w i < 256 := mod_lt _ (by decide)

lemma hexDigit_mem (n : Nat) : hexDigit n ∈ hexChars := by
  rw [hexDigit, getD_eq_getElem?_getD]
  cases hn : hexChars[n]? with
  | none => decide
  | some c => exact mem_of_getElem? hn

lemma hexDigit_inj : ∀ m < 16, ∀ n < 16, hexDigit m = hexDigit n → m = n := by decide +kernel

section

variable (seed now ctr : Nat)

lemma traceIdByte_lt (i : Nat) : traceIdByte seed now ctr i < 256 := by
  have hstamp : ∀ b < 256, (b &&& 0x0F ||| 0x40) < 256 ∧ (b &&& 0x3F ||| 0x80) < 256 := by
    decide +kernel
  simp only [traceIdByte, apply_ite (· < 256), beByte_lt, hstamp, ite_self]

lemma isUuidV4_generateTraceId : IsUuidV4 (generateTraceId seed now ctr).toList := by
  have hstamp : ∀ b < 256, hexDigit ((b &&& 0x0F ||| 0x40) / 16) = '4' ∧
      hexDigit ((b &&& 0x3F ||| 0x80) / 16) ∈ ['8', '9', 'a', 'b'] := by decide +kernel
  rw [generateTraceId, String.toList_ofList]
  refine ⟨rfl, by simp [range_succ], fun i hi c hc => ?_, ?_, ?_⟩
  · have hlt : i < 36 := (List.getElem?_eq_some_iff.mp hc).1
    interval_cases i
    all_goals first
      | exact absurd (by decide) hi
      | exact Option.some.inj hc ▸ hexDigit_mem _
  · exact congrArg some (hstamp _ (beByte_lt _ _)).1
  · exact ⟨_, (hstamp _ (beByte_lt _ _)).2, rfl⟩

lemma low_eq : ((now &&& 0xFFFFFFFFF) <<< 20 ||| (ctr &&& 0xFFFFF)) =
    now % 2 ^ 36 * 2 ^ 20 + ctr % 2 ^ 20 := by
  rw [and_two_pow_sub_one_eq_mod now 36, and_two_pow_sub_one_eq_mod ctr 20,
    ← shiftLeft_add_eq_or_of_lt (mod_lt _ (by decide)), shiftLeft_eq]

end

lemma forall_mem_of_flatMap_eq {α β : Type} {l : List α} {f g : α → List β}
    (hlen : ∀ a, (f a).length = (g a).length) (h : l.flatMap f = l.flatMap g) :
    ∀ a ∈ l, f a = g a := by
  induction l with
  | nil => simp
  | cons a l ih =>
    obtain ⟨hhead, htail⟩ := append_inj h (hlen a)
    exact forall_mem_cons.mpr ⟨hhead, ih htail⟩

variable {seed now now' ctr ctr' : Nat}

lemma traceIdByte_of_eq (h : generateTraceId seed now ctr = generateTraceId seed now' ctr')
    {i : Nat} (hi : i < 16) : traceIdByte seed now ctr i = traceIdByte seed now' ctr' i := by
  have hblock := forall_mem_of_flatMap_eq (by simp) (String.ofList_injective h) i
    (mem_range.mpr hi)
  rw [append_cancel_left_eq, List.cons.injEq, List.cons.injEq] at hblock
  have hlt := traceIdByte_lt seed now ctr i
  have hlt' := traceIdByte_lt seed now' ctr' i
  have hhigh := hexDigit_inj _ (by omega) _ (by omega) hblock.1
  have hlow := hexDigit_inj _ (by omega) _ (by omega) hblock.2.1
  omega

lemma generateTraceId_eq_iff : generateTraceId seed now ctr = generateTraceId seed now' ctr' ↔
    now % 2 ^ 36 = now' % 2 ^ 36 ∧ ctr % 2 ^ 20 = ctr' % 2 ^ 20 := by
  constructor
  · intro h
    have hbyte := fun i (hi : i < 16) => traceIdByte_of_eq h hi
    have h9 := hbyte 9 (by decide)
    have h10 := hbyte 10 (by decide)
    have h11 := hbyte 11 (by decide)
    have h12 := hbyte 12 (by decide)
    have h13 := hbyte 13 (by decide)
    have h14 := hbyte 14 (by decide)
    have h15 := hbyte 15 (by decide)
    simp [traceIdByte, low_eq, beByte] at h9 h10 h11 h12 h13 h14 h15
    omega
  · rintro ⟨hnow, hctr⟩
    have hbyte : ∀ i, traceIdByte seed now ctr i = traceIdByte seed now' ctr' i := fun i => by
      rw [traceIdByte, traceIdByte, low_eq, low_eq, hnow, hctr]
    simp only [generateTraceId, hbyte]

structure FastIdGen where
  seed : Nat
  counter : Nat

inductive IdCall where
  | generate
  | jitter (limit : Nat)

namespace FastIdGen

/-- `fetch_add` wraps around. -/
def advance (g : FastIdGen) : FastIdGen := { g with counter := (g.counter + 1) % 2 ^ 64 }

def generate (g : FastIdGen) (now : Nat) : String × FastIdGen :=
  (generateTraceId g.seed now g.counter, g.advance)

/-- There is no number below zero: the remainder panics, with the counter advanced. -/
def jitter (g : FastIdGen) (limit : Nat) : Option Nat × FastIdGen :=
  let x := ((g.seed ^^^ g.counter) + 0x9E3779B97F4A7C15) % 2 ^ 64
  let x := (x ^^^ x >>> 30) * 0xBF58476D1CE4E5B9 % 2 ^ 64
  let x := (x ^^^ x >>> 27) * 0x94D049BB133111EB % 2 ^ 64
  (if limit = 0 then none else some ((x ^^^ x >>> 31) % limit), g.advance)

/-- The identifiers that a run of calls makes, each call with the time of the clock. -/
def ids (g : FastIdGen) : List (Nat × IdCall) → List String
  | [] => []
  | (now, .generate) :: calls => (g.generate now).1 :: ids (g.generate now).2 calls
  | (_, .jitter limit) :: calls => ids (g.jitter limit).2 calls

lemma exists_of_mem_ids {g : FastIdGen} {calls : List (Nat × IdCall)} {id : String}
    (h : id ∈ g.ids calls) : ∃ before call after, calls = before ++ call :: after ∧
      id = generateTraceId g.seed call.1 (g.counter + before.length) := by
  induction calls generalizing g with
  | nil => cases h
  | cons first calls ih =>
    have hlater : id ∈ g.advance.ids calls → ∃ before call after,
        first :: calls = before ++ call :: after ∧
          id = generateTraceId g.seed call.1 (g.counter + before.length) := by
      intro h
      obtain ⟨before, call, after, rfl, rfl⟩ := ih h
      refine ⟨first :: before, call, after, rfl, generateTraceId_eq_iff.mpr ⟨rfl, ?_⟩⟩
      simp only [advance, length_cons]
      omega
    obtain ⟨now, _ | limit⟩ := first
    · obtain rfl | h := mem_cons.mp h
      · exact ⟨[], _, calls, rfl, rfl⟩
      · exact hlater h
    · exact hlater h

lemma nodup_ids {g : FastIdGen} {calls : List (Nat × IdCall)}
    (hclock : calls.Pairwise fun a b => a.1 ≤ b.1)
    (hspan : ∀ a ∈ calls, ∀ b ∈ calls, b.1 < a.1 + 2 ^ 36)
    (hfew : ∀ t, calls.countP (·.1 = t) < 2 ^ 20) : (g.ids calls).Nodup := by
  induction calls generalizing g with
  | nil => exact nodup_nil
  | cons first calls ih =>
    obtain ⟨hfirst, hafter⟩ := pairwise_cons.mp hclock
    have hrest : (g.advance.ids calls).Nodup := by
      refine ih hafter (fun a ha b hb => ?_) fun t => ?_
      · exact hspan a (mem_cons_of_mem _ ha) b (mem_cons_of_mem _ hb)
      · exact ((sublist_cons_self first calls).countP_le).trans_lt (hfew t)
    obtain ⟨now, _ | limit⟩ := first
    · refine nodup_cons.mpr ⟨fun hmem => ?_, hrest⟩
      obtain ⟨before, call, after, rfl, hid⟩ := exists_of_mem_ids hmem
      obtain ⟨htime, hcounter⟩ := generateTraceId_eq_iff.mp hid
      have hcall : call ∈ before ++ call :: after := by simp
      have hle := hfirst call hcall
      have hlt := hspan _ mem_cons_self call (mem_cons_of_mem _ hcall)
      have hsame : call.1 = now := by omega
      have hbefore : ∀ b ∈ before, b.1 = now := by
        intro b hb
        have hge := hfirst b (mem_append_left _ hb)
        have hle := (pairwise_append.mp hafter).2.2 b hb call mem_cons_self
        omega
      have hcount := hfew now
      rw [countP_cons, countP_append, countP_cons,
        countP_eq_length.mpr (by simpa using hbefore)] at hcount
      simp only [hsame, decide_true, if_true] at hcount
      simp only [generate, advance] at hcounter
      omega
    · exact hrest

end FastIdGen

open FastIdGen

/-- An identifier has the form of a UUID. With one seed, two are equal exactly if the clock and the
counter agree in the bits that are kept. So a run whose clock never goes back, lasts less than
`2 ^ 36` milliseconds and has fewer than `2 ^ 20` calls in each of them never repeats one. -/
theorem fastIdGen_unique (seed : Nat) :
    (∀ now ctr, IsUuidV4 (generateTraceId seed now ctr).toList) ∧
    (∀ now ctr now' ctr', generateTraceId seed now ctr = generateTraceId seed now' ctr' ↔
      now % 2 ^ 36 = now' % 2 ^ 36 ∧ ctr % 2 ^ 20 = ctr' % 2 ^ 20) ∧
    ∀ (counter : Nat) (calls : List (Nat × IdCall)), (calls.Pairwise fun a b => a.1 ≤ b.1) →
      (∀ a ∈ calls, ∀ b ∈ calls, b.1 < a.1 + 2 ^ 36) →
      (∀ t, calls.countP (·.1 = t) < 2 ^ 20) → (ids ⟨seed, counter⟩ calls).Nodup :=
  ⟨isUuidV4_generateTraceId seed, fun _ _ _ _ => generateTraceId_eq_iff,
    fun _ _ => nodup_ids⟩

end Conrogate
