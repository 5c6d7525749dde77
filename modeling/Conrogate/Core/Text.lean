import Mathlib.Data.List.Sort
import Mathlib.Data.String.Basic

/-!
# Text

The operations of Rust's `str` and `char` that the gateway relies on. Where the source looks
at bytes, the model looks at the UTF-8 encoding of the string.
-/

namespace Conrogate

open List Nat

def isWhitespace (c : Char) : Bool :=
  let n := c.toNat
  (9 ≤ n && n ≤ 13) || n == 0x20 || n == 0x85 || n == 0xA0 || n == 0x1680 ||
    (0x2000 ≤ n && n ≤ 0x200A) || n == 0x2028 || n == 0x2029 || n == 0x202F ||
    n == 0x205F || n == 0x3000

def trim (s : List Char) : List Char :=
  ((s.dropWhile isWhitespace).reverse.dropWhile isWhitespace).reverse

def bytes (s : String) : List UInt8 := s.toUTF8.data.toList

def fromUtf8 (b : List UInt8) : Option String := String.fromUTF8? ⟨b.toArray⟩

def asciiLower (b : UInt8) : UInt8 :=
  if 65 ≤ b ∧ b ≤ 90 then b + 32 else b

def eqIgnoreCase (a b : List UInt8) : Bool :=
  a.map asciiLower == b.map asciiLower

def eqIgnoreAsciiCase (a b : String) : Bool :=
  eqIgnoreCase (bytes a) (bytes b)

def startsWith (s p : String) : Bool := p.toList.isPrefixOf s.toList

def containsText (s p : String) : Bool :=
  s.toList.tails.any fun t => p.toList.isPrefixOf t

def splitChar (c : Char) (s : List Char) : List (List Char) := s.splitOn c

def toAsciiLowercase (s : String) : String := String.ofList (s.toList.map Char.toLower)

def afterLast (c : Char) (s : List Char) : Option (List Char) :=
  if s.contains c then some (s.reverse.takeWhile (· != c)).reverse else none

def parseUnsigned (bound : Nat) (s : List Char) : Option Nat :=
  let digits := match s with
    | '+' :: rest => rest
    | _ => s
  if digits.isEmpty || !digits.all Char.isDigit then none
  else
    let n := digits.foldl (fun n d => 10 * n + (d.toNat - '0'.toNat)) 0
    if n ≤ bound then some n else none

def sortedJoin (parts : List String) : String :=
  "|".intercalate (parts.insertionSort (· ≤ ·))

lemma fromUtf8_eq_some_iff {b : List UInt8} {s : String} : fromUtf8 b = some s ↔ bytes s = b := by
  rw [fromUtf8, String.fromUTF8?, bytes]
  constructor
  · intro h
    split at h
    · obtain rfl := Option.some.inj h
      rfl
    · cases h
  · rintro rfl
    exact dif_pos s.isValidUTF8

lemma bytes_eq_flatMap (s : String) : bytes s = s.toList.flatMap String.utf8EncodeChar := by
  conv_lhs => rw [← String.ofList_toList (s := s)]
  rw [bytes, String.toUTF8, String.toByteArray_ofList, List.utf8Encode, data_toByteArray]

variable {c : Char}

lemma le_of_mem_utf8EncodeChar (hc : ¬ c.toNat < 128) {b : UInt8} (hb : b ∈ String.utf8EncodeChar c)
    : 128 ≤ b.toNat := by
  have hc' : ¬ c.val.toNat ≤ 127 := fun h => hc (lt_succ_of_le h)
  simp only [String.utf8EncodeChar, hc', if_false] at hb
  split_ifs at hb
  all_goals
    simp only [mem_cons, not_mem_nil, or_false] at hb
    rcases hb with rfl | rfl | rfl | rfl
  all_goals
    rw [UInt8.toNat_ofNat']
    omega

lemma bytes_of_ascii {s : String} (h : ∀ c ∈ s.toList, c.toNat < 128) :
    bytes s = s.toList.map fun c => UInt8.ofNat c.toNat := by
  rw [bytes_eq_flatMap, map_eq_flatMap]
  exact flatMap_congr fun c hc => if_pos (le_of_lt_succ (h c hc))

lemma ascii_of_bytes {s : String} (h : ∀ b ∈ bytes s, b.toNat < 128) :
    ∀ c ∈ s.toList, c.toNat < 128 := by
  intro c hc
  by_contra hbig
  have hlen : 0 < (String.utf8EncodeChar c).length := by
    rw [String.length_utf8EncodeChar]
    exact c.utf8Size_pos
  obtain ⟨b, hb⟩ := exists_mem_of_length_pos hlen
  have hmem : b ∈ bytes s := by
    rw [bytes_eq_flatMap]
    exact mem_flatMap.mpr ⟨c, hc, hb⟩
  exact absurd (h b hmem) (not_lt.mpr (le_of_mem_utf8EncodeChar hbig hb))

lemma splitChar_append_cons (c : Char) (s t : List Char) :
    splitChar c (s ++ c :: t) = splitChar c s ++ splitChar c t := by
  simp only [splitChar, List.splitOn]
  exact splitOnP_append_cons s t (by simp)

lemma mem_of_mem_splitChar {d : Char} {s part : List Char} (hpart : part ∈ splitChar c s)
    (hd : d ∈ part) : d ≠ c ∧ d ∈ s := by
  induction s generalizing part with
  | nil =>
    rw [splitChar, splitOn_nil, mem_singleton] at hpart
    rw [hpart] at hd
    cases hd
  | cons a s ih =>
    have later : ∀ {p}, p ∈ splitChar c s → d ∈ p → d ≠ c ∧ d ∈ a :: s :=
      fun hp hd => (ih hp hd).imp_right (mem_cons_of_mem a)
    obtain ⟨first, rest, hsplit⟩ := exists_cons_of_ne_nil (splitOn_ne_nil c s)
    rw [splitChar, splitOn_cons_eq_if_modifyHead] at hpart
    rw [splitChar, hsplit] at later
    rw [hsplit] at hpart
    split_ifs at hpart with ha
    · obtain rfl | hpart := mem_cons.mp hpart
      · cases hd
      · exact later hpart hd
    · obtain rfl | hpart := mem_cons.mp hpart
      · obtain rfl | hd := mem_cons.mp hd
        · exact ⟨by simpa using ha, mem_cons_self⟩
        · exact later mem_cons_self hd
      · exact later (mem_cons_of_mem first hpart) hd

lemma mem_of_mem_trim {s : List Char} (h : c ∈ trim s) : c ∈ s := by
  have hback := (dropWhile_sublist _).subset (mem_reverse.mp h)
  exact (dropWhile_sublist _).subset (mem_reverse.mp hback)

lemma append_cons_inj {s s' t t' : List Char} (ht : c ∉ t) (ht' : c ∉ t')
    (h : s ++ c :: t = s' ++ c :: t') : s = s' ∧ t = t' := by
  obtain ⟨r, rfl, hr⟩ | ⟨r, rfl, hr⟩ := append_eq_append_iff.mp h
  · cases r with
    | nil => simp_all
    | cons d r =>
      obtain ⟨-, rfl⟩ : c = d ∧ t = r ++ c :: t' := by simpa using hr
      simp at ht
  · cases r with
    | nil => simp_all
    | cons d r =>
      obtain ⟨-, rfl⟩ : c = d ∧ t' = r ++ c :: t := by simpa using hr
      simp at ht'

lemma cons_append_inj {s s' t t' : List Char} (hs : c ∉ s) (hs' : c ∉ s')
    (h : s ++ c :: t = s' ++ c :: t') : s = s' ∧ t = t' := by
  have hreverse := congrArg List.reverse h
  simp only [reverse_append, reverse_cons, append_assoc, singleton_append]
    at hreverse
  obtain ⟨ht, hs⟩ := append_cons_inj (by simpa using hs) (by simpa using hs') hreverse
  exact ⟨reverse_injective hs, reverse_injective ht⟩

lemma notMem_toString_of_not_isDigit (hc : c.isDigit = false) (n : Nat) :
    c ∉ (toString n).toList := by
  intro hmem
  rw [toString_eq_ofList_toDigits, String.toList_ofList] at hmem
  simp [isDigit_of_mem_toDigits (by decide) (by decide) hmem] at hc

lemma notMem_toString_int (hc : c.isDigit = false) (hminus : c ≠ '-') (w : Int) :
    c ∉ (toString w).toList := by
  cases w with
  | ofNat n => exact notMem_toString_of_not_isDigit hc n
  | negSucc n =>
    have htext : toString (Int.negSucc n) = "-" ++ toString (n + 1) := rfl
    rw [htext, String.toList_append, mem_append]
    rintro (hmem | hmem)
    · exact hminus (mem_singleton.mp hmem)
    · exact notMem_toString_of_not_isDigit hc (n + 1) hmem

lemma length_eq_of_sortedJoin_eq {parts parts' : List String}
    (hbar : ∀ p ∈ parts, '|' ∉ p.toList) (hbar' : ∀ p ∈ parts', '|' ∉ p.toList)
    (hne : parts ≠ []) (hne' : parts' ≠ []) (h : sortedJoin parts = sortedJoin parts') :
    parts.length = parts'.length := by
  have hsplit : ∀ ps : List String, (∀ p ∈ ps, '|' ∉ p.toList) → ps ≠ [] →
      (List.splitOn '|' (sortedJoin ps).toList).length = ps.length := by
    intro ps hps hne
    have hsorted : ∀ l ∈ (ps.insertionSort (· ≤ ·)).map String.toList, '|' ∉ l := by
      intro l hl
      obtain ⟨p, hp, rfl⟩ := mem_map.mp hl
      exact hps p ((mem_insertionSort _).mp hp)
    have hlen : ((ps.insertionSort (· ≤ ·)).map String.toList).length = ps.length := by
      rw [length_map, length_insertionSort]
    have hnil : (ps.insertionSort (· ≤ ·)).map String.toList ≠ [] := by
      rw [← length_pos_iff, hlen, length_pos_iff]
      exact hne
    have hbars : "|".toList = ['|'] := rfl
    rw [sortedJoin, String.toList_intercalate, hbars, splitOn_intercalate '|' hsorted hnil, hlen]
  rw [← hsplit parts hbar hne, ← hsplit parts' hbar' hne', h]

lemma toString_nat_injective {m n : Nat} (h : (toString m).toList = (toString n).toList) :
    m = n := by
  simp only [toString_eq_ofList_toDigits, String.toList_ofList] at h
  have hvalue := congrArg (ofDigitChars 10 · 0) h
  simpa [ofDigitChars_toDigits] using hvalue

end Conrogate
