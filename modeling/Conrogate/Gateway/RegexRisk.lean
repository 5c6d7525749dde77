import Conrogate.Gateway.HostMatch
import Mathlib.Algebra.Group.Nat.Even
import Mathlib.Data.List.DropRight
import Mathlib.Data.List.Infix

/-!
# Dangerous regular expressions

`has_redos_risk` looks for a backslash before a digit, whether it is escaped or not, and for nested
quantifiers only in patterns that have a group which begins with `.+`.
-/

namespace Conrogate

open List

def nestedForms : List String := ["(.+)+", "(.*)*", "(.+)*", "(.*)+"]

def HasNested (pattern : String) : Prop :=
  ∃ form ∈ nestedForms, form.toList <:+: pattern.toList

/-- A backslash stands before a digit, behind this text. -/
def BackslashAfter (pattern : String) (before : List Char) : Prop :=
  ∃ d after, pattern.toList = before ++ '\\' :: d :: after ∧ d.isDigit = true

/-- A backslash that is not escaped stands before a digit. -/
def HasBackreference (pattern : String) : Prop :=
  ∃ before, BackslashAfter pattern before ∧ Even (before.rtakeWhile (· == '\\')).length

lemma containsText_iff {s p : String} : containsText s p = true ↔ p.toList <:+: s.toList := by
  simp only [containsText, any_eq_true, mem_tails, isPrefixOf_iff_prefix,
    infix_iff_prefix_suffix, and_comm]

lemma hasNested_iff {pattern : String} : HasNested pattern ↔
    (containsText pattern "(.+)+" || containsText pattern "(.*)*" ||
      containsText pattern "(.+)*" || containsText pattern "(.*)+") = true := by
  simp only [HasNested, nestedForms, mem_cons, not_mem_nil, or_false, exists_eq_or_imp,
    exists_eq_left, Bool.or_eq_true, containsText_iff, or_assoc]

lemma hasBackreference_iff {bs : List UInt8} : hasBackreference bs = true ↔
    ∃ l d r, bs = l ++ 92 :: d :: r ∧ 48 ≤ d ∧ d ≤ 57 := by
  fun_induction hasBackreference bs with
  | case1 b c rest ih =>
    rw [Bool.or_eq_true, ih]
    constructor
    · rintro (h | ⟨l, d, r, h, hd⟩)
      · simp only [Bool.and_eq_true, beq_iff_eq, decide_eq_true_eq] at h
        exact ⟨[], c, rest, by rw [h.1]; rfl, h.2⟩
      · exact ⟨b :: l, d, r, by rw [h]; rfl, hd⟩
    · rintro ⟨l, d, r, h, hd⟩
      cases l with
      | nil =>
        cases h
        exact .inl (by simpa using hd)
      | cons a l =>
        obtain ⟨rfl, htail⟩ := List.cons.inj h
        exact .inr ⟨l, d, r, htail, hd⟩
  | case2 bs hshort =>
    simp only [Bool.false_eq_true, false_iff]
    rintro ⟨l, d, r, rfl, -⟩
    cases l with
    | nil => exact hshort _ _ _ rfl
    | cons a l => cases l <;> exact hshort _ _ _ rfl

lemma isDigit_iff {c : Char} : c.isDigit = true ↔ 48 ≤ c.toNat ∧ c.toNat ≤ 57 := by
  simp [Char.isDigit, UInt32.le_iff_toNat_le]

lemma digit_byte_iff {c : Char} (hc : c.toNat < 128) :
    48 ≤ UInt8.ofNat c.toNat ∧ UInt8.ofNat c.toNat ≤ 57 ↔ c.isDigit = true := by
  rw [UInt8.le_iff_toNat_le, UInt8.le_iff_toNat_le, UInt8.toNat_ofNat',
    Nat.mod_eq_of_lt (by omega), isDigit_iff]
  rfl

lemma hasBackreference_bytes (pattern : String) :
    hasBackreference (bytes pattern) = true ↔ ∃ before, BackslashAfter pattern before := by
  rw [hasBackreference_iff, bytes_eq_flatMap]
  constructor
  · rintro ⟨l, d, r, h, hd⟩
    obtain ⟨before, rest, hs, -, hrest⟩ :=
      exists_append_of_bytes_eq (c := '\\') (by decide) pattern.toList h
    cases rest with
    | nil => cases hrest
    | cons c after =>
      rw [flatMap_cons] at hrest
      have hascii : c.toNat < 128 := by
        by_contra hbig
        cases henc : String.utf8EncodeChar c with
        | nil => exact absurd (congrArg List.length henc) (by simp [c.utf8Size_pos.ne'])
        | cons b bs =>
          rw [henc, cons_append] at hrest
          obtain ⟨rfl, -⟩ := List.cons.inj hrest
          have hlarge := le_of_mem_utf8EncodeChar hbig (henc ▸ mem_cons_self)
          have hsmall : b.toNat ≤ 57 := UInt8.le_iff_toNat_le.mp hd.2
          omega
      rw [utf8EncodeChar_of_ascii hascii] at hrest
      obtain ⟨rfl, -⟩ := List.cons.inj hrest
      exact ⟨before, c, after, hs, (digit_byte_iff hascii).mp hd⟩
  · rintro ⟨before, d, after, h, hd⟩
    have hascii : d.toNat < 128 := lt_of_le_of_lt (isDigit_iff.mp hd).2 (by decide)
    refine ⟨before.flatMap String.utf8EncodeChar, .ofNat d.toNat,
      after.flatMap String.utf8EncodeChar, ?_, (digit_byte_iff hascii).mpr hd⟩
    rw [h, flatMap_append, flatMap_cons, flatMap_cons, utf8EncodeChar_of_ascii hascii]
    rfl

/-- What is refused: a backslash before a digit, and a nested form in a pattern with `(.+`. -/
def Refused (pattern : String) : Prop :=
  (∃ before, BackslashAfter pattern before) ∨
    "(.+".toList <:+: pattern.toList ∧ HasNested pattern

lemma hasRedosRisk_eq_true_iff {pattern : String} :
    hasRedosRisk pattern = true ↔ Refused pattern := by
  have hplus : "(.+".toList <:+: pattern.toList → "+".toList <:+: pattern.toList :=
    List.IsInfix.trans (by decide)
  rw [hasRedosRisk, Bool.or_eq_true, Bool.and_eq_true, Bool.and_eq_true, hasBackreference_bytes,
    ← hasNested_iff, containsText_iff, containsText_iff, and_iff_left_of_imp hplus, Refused]

/-- The verdict is the intended one exactly under these conditions: a pattern with a nested form has
a group that begins with `.+`, or a backslash before a digit; and in a pattern without one, such a
backslash is not escaped. -/
theorem hasRedosRisk_iff (pattern : String) :
    (hasRedosRisk pattern = true ↔ HasBackreference pattern ∨ HasNested pattern) ↔
      (HasNested pattern → "(.+".toList <:+: pattern.toList ∨
        ∃ before, BackslashAfter pattern before) ∧
      (¬ HasNested pattern → (∃ before, BackslashAfter pattern before) →
        HasBackreference pattern) := by
  have hback : HasBackreference pattern → ∃ before, BackslashAfter pattern before :=
    fun ⟨before, h, _⟩ => ⟨before, h⟩
  rw [hasRedosRisk_eq_true_iff, Refused]
  by_cases hnested : HasNested pattern
  · simp [hnested, or_comm]
  · simp only [hnested, and_false, or_false, not_false_eq_true, forall_true_left, false_imp_iff,
      true_and]
    exact ⟨fun h => h.mp, fun h => ⟨h, hback⟩⟩

theorem hasRedosRisk_misses_stars :
    HasNested "(.*)*" ∧ hasRedosRisk "(.*)*" = false :=
  ⟨⟨"(.*)*", by decide, infix_rfl⟩, by decide +kernel⟩

end Conrogate
