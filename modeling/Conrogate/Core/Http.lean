import Conrogate.Core.Json
import Conrogate.Core.Text
import Mathlib.Data.List.TakeWhile

/-!
# Requests as the `http` crate presents them

A header value is a string of bytes; only some of them are text. A header map keeps several
values under one lower-case name, in the order in which they arrived.
-/

namespace Conrogate

open List

/-- A header value, not always text. -/
structure HeaderValue where
  bytes : List UInt8
deriving DecidableEq, Repr

variable {v : HeaderValue}

namespace HeaderValue

def isVisibleAscii (b : UInt8) : Bool := (32 ≤ b && b < 127) || b == 9

def text (v : HeaderValue) : List Char := v.bytes.map fun b => Char.ofNat b.toNat

def toStr (v : HeaderValue) : Option String :=
  if v.bytes.all isVisibleAscii then some (String.ofList v.text) else none

def isValidByte (b : UInt8) : Bool := (32 ≤ b && b != 127) || b == 9

def parse (s : String) : Option HeaderValue :=
  if (Conrogate.bytes s).all isValidByte then some ⟨Conrogate.bytes s⟩ else none

def ofString (s : String) : HeaderValue := ⟨Conrogate.bytes s⟩

variable {s : String}

lemma toStr_eq_some (h : v.toStr = some s) :
    s = String.ofList v.text := by
  rw [toStr] at h
  split_ifs at h
  exact (Option.some.inj h).symm

lemma toNat_lt_of_isVisibleAscii {b : UInt8} (h : isVisibleAscii b = true) : b.toNat < 128 := by
  simp only [isVisibleAscii, Bool.or_eq_true, Bool.and_eq_true, decide_eq_true_eq, beq_iff_eq,
    UInt8.le_iff_toNat_le, UInt8.lt_iff_toNat_lt] at h
  obtain ⟨-, h⟩ | rfl := h
  · exact h.trans (by decide)
  · decide

lemma all_isVisibleAscii_of_toStr (h : v.toStr = some s) :
    v.bytes.all isVisibleAscii = true := by
  by_contra hno
  rw [toStr, if_neg hno] at h
  cases h

lemma eq_of_toStr_ofString {t : String} (h : (ofString s).toStr = some t) : t = s := by
  have hvisible : (Conrogate.bytes s).all isVisibleAscii = true := all_isVisibleAscii_of_toStr h
  have hascii := ascii_of_bytes fun b hb =>
    toNat_lt_of_isVisibleAscii (all_eq_true.mp hvisible b hb)
  have hchars : (ofString s).text = s.toList := by
    rw [text, ofString, bytes_of_ascii hascii, map_map]
    conv_rhs => rw [← map_id s.toList]
    refine map_congr_left fun c hc => ?_
    have hc' : c.toNat < 256 := (hascii c hc).trans (by decide)
    simp [Nat.mod_eq_of_lt hc']
  rw [toStr_eq_some h, hchars, String.ofList_toList]

def IsVisible (c : Char) : Prop := (32 ≤ c.toNat ∧ c.toNat < 127) ∨ c.toNat = 9

lemma isVisible_of_toStr (h : v.toStr = some s) :
    ∀ c ∈ s.toList, IsVisible c := by
  have hvisible := all_isVisibleAscii_of_toStr h
  rw [toStr_eq_some h, String.toList_ofList]
  intro c hc
  obtain ⟨b, hb, rfl⟩ := mem_map.mp hc
  have hb' := all_eq_true.mp hvisible b hb
  have hlt := toNat_lt_of_isVisibleAscii hb'
  have hvalid : b.toNat.isValidChar := .inl (hlt.trans (by decide))
  have hchar : (Char.ofNat b.toNat).toNat = b.toNat := by
    rw [Char.ofNat, dif_pos hvalid]
    rfl
  simp only [isVisibleAscii, Bool.or_eq_true, Bool.and_eq_true, decide_eq_true_eq, beq_iff_eq,
    UInt8.le_iff_toNat_le, UInt8.lt_iff_toNat_lt] at hb'
  rw [IsVisible, hchar]
  obtain hb' | rfl := hb'
  · exact .inl hb'
  · exact .inr rfl

section

variable {s : String} (h : ∀ c ∈ s.toList, IsVisible c)
include h

lemma all_isVisibleAscii_of_isVisible :
    (Conrogate.bytes s).all isVisibleAscii = true := by
  have hascii : ∀ c ∈ s.toList, c.toNat < 128 := fun c hc => by
    rcases h c hc with hc | hc <;> omega
  rw [bytes_of_ascii hascii, all_map, all_eq_true]
  intro c hc
  have hbyte : (UInt8.ofNat c.toNat).toNat = c.toNat := by
    rw [UInt8.toNat_ofNat', Nat.mod_eq_of_lt ((hascii c hc).trans (by decide))]
  simp only [Function.comp, isVisibleAscii, Bool.or_eq_true, Bool.and_eq_true, decide_eq_true_eq,
    beq_iff_eq, UInt8.le_iff_toNat_le, UInt8.lt_iff_toNat_lt, ← UInt8.toNat_inj, hbyte]
  exact h c hc

lemma parse_of_isVisible :
    parse s = some (ofString s) := by
  refine if_pos (all_eq_true.mpr fun b hb => ?_)
  have hvisible := all_eq_true.mp (all_isVisibleAscii_of_isVisible h) b hb
  simp only [isVisibleAscii, isValidByte, Bool.or_eq_true, Bool.and_eq_true, decide_eq_true_eq,
    bne_iff_ne, beq_iff_eq] at hvisible ⊢
  exact hvisible.imp_left fun hb => ⟨hb.1, UInt8.ne_of_lt hb.2⟩

lemma toStr_ofString :
    (ofString s).toStr = some s := by
  have hsome : (ofString s).toStr = some (String.ofList (ofString s).text) :=
    if_pos (all_isVisibleAscii_of_isVisible h)
  rw [hsome, eq_of_toStr_ofString hsome]

end

lemma isVisible_toString (n : Nat) : ∀ c ∈ (toString n).toList, IsVisible c := by
  intro c hc
  have hdigit : c.isDigit = true := by
    by_contra hno
    exact notMem_toString_of_not_isDigit (Bool.eq_false_of_not_eq_true hno) n hc
  obtain ⟨hlow, hhigh⟩ : 48 ≤ c.toNat ∧ c.toNat ≤ 57 := by
    simpa [Char.isDigit, UInt32.le_iff_toNat_le] using hdigit
  exact .inl ⟨by omega, by omega⟩

end HeaderValue

abbrev HeaderMap := List (String × HeaderValue)

namespace HeaderMap

def get (headers : HeaderMap) (name : String) : Option HeaderValue :=
  (headers.find? fun p => p.1 == name).map (·.2)

def getAll (headers : HeaderMap) (name : String) : List HeaderValue :=
  (headers.filter fun p => p.1 == name).map (·.2)

def remove (headers : HeaderMap) (name : String) : HeaderMap :=
  headers.filter fun p => p.1 != name

def insert (headers : HeaderMap) (name : String) (v : HeaderValue) : HeaderMap :=
  headers.takeWhile (fun p => p.1 != name) ++ (name, v) ::
    remove (headers.dropWhile fun p => p.1 != name) name

def insertText (headers : HeaderMap) (name text : String) : HeaderMap :=
  match HeaderValue.parse text with
  | some v => headers.insert name v
  | none   => headers

lemma get_eq_head?_getAll (headers : HeaderMap) (name : String) :
    headers.get name = (headers.getAll name).head? := by
  simp [get, getAll, head?_map, head?_filter]

variable (headers : HeaderMap) {name other : String}

lemma getAll_append (more : HeaderMap) (name : String) :
    getAll (headers ++ more) name = getAll headers name ++ getAll more name := by
  rw [getAll, filter_append, map_append]
  rfl

lemma getAll_cons_self (name : String) (v : HeaderValue) :
    getAll ((name, v) :: headers) name = v :: getAll headers name := by
  simp [getAll]

lemma getAll_cons_of_ne (h : other ≠ name) (v : HeaderValue) :
    getAll ((other, v) :: headers) name = getAll headers name := by
  simp [getAll, h]

lemma getAll_remove_self (name : String) : (headers.remove name).getAll name = [] := by
  simp [getAll, remove]

lemma getAll_remove_of_ne (h : other ≠ name) :
    (headers.remove other).getAll name = headers.getAll name := by
  rw [getAll, remove, filter_filter, getAll]
  congr 2
  funext p
  by_cases hp : p.1 = name
  · simp [hp, h.symm]
  · simp [hp]

lemma getAll_insert_self (name : String) (v : HeaderValue) :
    (headers.insert name v).getAll name = [v] := by
  have hfront : getAll (headers.takeWhile fun p => p.1 != name) name = [] := by
    rw [getAll, map_eq_nil_iff, filter_eq_nil_iff]
    intro p hp
    have := mem_takeWhile_imp hp
    simpa using this
  rw [insert, getAll_append, hfront, getAll_cons_self, getAll_remove_self]
  rfl

lemma getAll_insert_of_ne (h : other ≠ name) (v : HeaderValue) :
    (headers.insert other v).getAll name = headers.getAll name := by
  rw [insert, getAll_append, getAll_cons_of_ne _ h, getAll_remove_of_ne _ h, ← getAll_append,
    takeWhile_append_dropWhile]

lemma getAll_insertText_of_ne (h : other ≠ name) (text : String) :
    (headers.insertText other text).getAll name = headers.getAll name := by
  rw [insertText]
  split
  · exact getAll_insert_of_ne headers h _
  · rfl

lemma getAll_foldl_remove (names : List String) (name : String) :
    (names.foldl remove headers).getAll name =
      if name ∈ names then [] else headers.getAll name := by
  induction names generalizing headers with
  | nil => simp
  | cons other names ih =>
    rw [foldl_cons, ih]
    by_cases hname : other = name
    · simp [hname, getAll_remove_self]
    · simp [getAll_remove_of_ne headers hname, Ne.symm hname]

lemma getAll_insertText_self {text : String} (h : HeaderValue.parse text = some v) (name : String) :
    (headers.insertText name text).getAll name = [v] := by
  rw [insertText, h]
  exact getAll_insert_self headers name v

lemma remove_eq_self (h : headers.getAll name = []) : headers.remove name = headers := by
  rw [getAll, map_eq_nil_iff, filter_eq_nil_iff] at h
  refine filter_eq_self.mpr fun p hp => ?_
  simpa using h p hp

lemma insert_eq_self (h : headers.getAll name = [v]) :
    headers.insert name v = headers := by
  induction headers with
  | nil => cases h
  | cons p headers ih =>
    obtain ⟨other, w⟩ := p
    by_cases hname : other = name
    · subst hname
      rw [getAll_cons_self] at h
      obtain ⟨rfl, hrest⟩ := List.cons.inj h
      have hremove : remove ((other, w) :: headers) other = headers := by
        rw [remove, filter_cons_of_neg (by simp)]
        exact remove_eq_self headers hrest
      rw [insert, takeWhile_cons_of_neg (by simp), dropWhile_cons_of_neg (by simp), hremove]
      rfl
    · rw [getAll_cons_of_ne headers hname] at h
      rw [insert, takeWhile_cons_of_pos (by simpa using hname),
        dropWhile_cons_of_pos (by simpa using hname), cons_append]
      exact congrArg _ (ih h)

end HeaderMap

structure Uri where
  path : String
  query : Option String
deriving DecidableEq, Repr

inductive Payload where
  | bytes (b : List UInt8)
  | json (v : Json)

structure HttpRequest where
  method : String
  uri : Uri
  pathAndQuery : Option String
  headers : HeaderMap
  body : List UInt8

structure HttpResponse where
  status : Nat
  headers : HeaderMap
  body : Payload

end Conrogate
