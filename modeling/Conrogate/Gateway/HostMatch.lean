import Conrogate.Gateway.Route

/-!
# Host patterns

`match_host` cuts the host at byte offsets. No cut panics, but the verdict depends on how a request
spells the host.
-/

namespace Conrogate

open List HeaderMap HeaderValue RouteMatchInfo

/-! ### Cutting a string at an ASCII character -/

lemma bytes_append (s t : String) : bytes (s ++ t) = bytes s ++ bytes t := by
  simp only [bytes_eq_flatMap, String.toList_append, flatMap_append]

lemma bytes_injective {s t : String} (h : bytes s = bytes t) : s = t :=
  Option.some.inj ((fromUtf8_eq_some_iff.mpr h).symm.trans (fromUtf8_eq_some_iff.mpr rfl))

lemma utf8EncodeChar_of_ascii {c : Char} (hc : c.toNat < 128) :
    String.utf8EncodeChar c = [UInt8.ofNat c.toNat] :=
  if_pos (Nat.le_of_lt_succ hc)

lemma exists_append_of_bytes_eq {c : Char} (hc : c.toNat < 128) (s : List Char)
    {l r : List UInt8} (h : s.flatMap String.utf8EncodeChar = l ++ UInt8.ofNat c.toNat :: r) :
    ∃ u v, s = u ++ c :: v ∧ u.flatMap String.utf8EncodeChar = l ∧
      v.flatMap String.utf8EncodeChar = r := by
  induction s generalizing l with
  | nil => simp at h
  | cons d s ih =>
    rw [flatMap_cons, append_eq_append_iff] at h
    have hlater : ∀ l', l = String.utf8EncodeChar d ++ l' →
        s.flatMap String.utf8EncodeChar = l' ++ UInt8.ofNat c.toNat :: r →
        ∃ u v, d :: s = u ++ c :: v ∧ u.flatMap String.utf8EncodeChar = l ∧
          v.flatMap String.utf8EncodeChar = r := by
      intro l' hl hs
      obtain ⟨u, v, rfl, hu, hv⟩ := ih hs
      exact ⟨d :: u, v, rfl, by rw [flatMap_cons, hu, hl], hv⟩
    obtain ⟨l', hl, hs⟩ | ⟨l', hd, hr⟩ := h
    · exact hlater l' hl hs
    · cases l' with
      | nil => exact hlater [] (by simpa using hd.symm) hr.symm
      | cons b l' =>
        obtain ⟨rfl, htail⟩ := List.cons.inj hr
        -- The byte is one of `d`, so `d` is the character.
        have hascii : d.toNat < 128 := by
          by_contra hbig
          have hle := le_of_mem_utf8EncodeChar hbig
            (hd ▸ mem_append_right l mem_cons_self)
          rw [UInt8.toNat_ofNat'] at hle
          omega
        rw [utf8EncodeChar_of_ascii hascii, singleton_eq_append_iff] at hd
        obtain ⟨rfl, hd⟩ | ⟨-, hd⟩ := hd
        · obtain ⟨hbyte, rfl⟩ := List.cons.inj hd
          have htoNat := congrArg UInt8.toNat hbyte
          rw [UInt8.toNat_ofNat', UInt8.toNat_ofNat'] at htoNat
          obtain rfl : c = d := Char.toNat_inj.mp (by omega)
          exact ⟨[], s, rfl, rfl, htail.symm⟩
        · cases hd

lemma exists_eq_of_bytes_eq {s : String} {l r : List UInt8} (h : bytes s = l ++ 46 :: r) :
    ∃ u v : String, s = u ++ "." ++ v ∧ bytes u = l ∧ bytes v = r := by
  rw [bytes_eq_flatMap] at h
  obtain ⟨u, v, hs, hu, hv⟩ := exists_append_of_bytes_eq (c := '.') (by decide) s.toList h
  refine ⟨String.ofList u, String.ofList v, ?_, ?_, ?_⟩
  · rw [← String.toList_inj]
    simp [hs]
  · rw [bytes_eq_flatMap, String.toList_ofList, hu]
  · rw [bytes_eq_flatMap, String.toList_ofList, hv]

lemma bytes_label (label rest : String) :
    bytes (label ++ "." ++ rest) = bytes label ++ 46 :: bytes rest := by
  rw [bytes_append, bytes_append, append_assoc]
  rfl

lemma dot_mem_bytes_iff (label : String) : 46 ∈ bytes label ↔ '.' ∈ label.toList := by
  constructor
  · intro h
    obtain ⟨l, r, hlr⟩ := append_of_mem h
    obtain ⟨u, v, rfl, -, -⟩ := exists_eq_of_bytes_eq hlr
    simp
  · intro h
    rw [bytes_eq_flatMap]
    exact mem_flatMap.mpr ⟨'.', h, by decide⟩

def isCharBoundary (s : List UInt8) (i : Nat) : Bool :=
  i == 0 || i == s.length || s[i]?.any fun b => b < 128 || 192 ≤ b

def sliceStr (s : List UInt8) (i j : Nat) : Option (List UInt8) :=
  if i ≤ j && isCharBoundary s i && isCharBoundary s j then some ((s.take j).drop i) else none

lemma isCharBoundary_append (u v : String) :
    isCharBoundary (bytes u ++ bytes v) (bytes u).length = true := by
  cases hv : v.toList with
  | nil => simp [isCharBoundary, bytes_eq_flatMap v, hv]
  | cons c cs =>
    have hhead : ∃ b rest, String.utf8EncodeChar c = b :: rest ∧ (b < 128 ∨ 192 ≤ b) := by
      simp only [String.utf8EncodeChar]
      split_ifs with hascii
      · refine ⟨_, _, rfl, .inl ?_⟩
        rw [UInt8.lt_iff_toNat_lt, UInt8.toNat_ofNat']
        exact lt_of_le_of_lt (Nat.mod_le _ _) (Nat.lt_succ_of_le hascii)
      all_goals
        refine ⟨_, _, rfl, .inr ?_⟩
        rw [UInt8.le_iff_toNat_le, UInt8.toNat_ofNat']
        change 192 ≤ _
        omega
    obtain ⟨b, rest, hc, hb⟩ := hhead
    simp [isCharBoundary, bytes_eq_flatMap v, hv, hc, hb]

/-! ### `match_host` -/

/-- `match_host` with every index and slice checked; `none` where it panics. -/
def matchHostChecked (pattern host : String) : Option Bool :=
  if eqIgnoreAsciiCase pattern host then some true
  else match bytes pattern with
    | 42 :: 46 :: suffix =>
      let h := bytes host
      let hlen := h.length
      let slen := suffix.length
      if hlen > slen + 1 then
        h[hlen - slen - 1]?.bind fun b =>
          if b == 46 then
            (sliceStr h 0 (hlen - slen - 1)).bind fun label =>
              if label.isEmpty || label.contains 46 then some false
              else (sliceStr h (hlen - slen) hlen).map (eqIgnoreCase suffix)
          else some false
      else some false
    | _ => some false

def IsLabelBefore (suffix host : String) : Prop :=
  ∃ label rest : String, host = label ++ "." ++ rest ∧ label ≠ "" ∧ '.' ∉ label.toList ∧
    eqIgnoreAsciiCase suffix rest = true

lemma eq_append_of_getElem? {h : List UInt8} {n : Nat} {b : UInt8} (hb : h[n]? = some b) :
    h = h.take n ++ b :: h.drop (n + 1) := by
  obtain ⟨hlt, rfl⟩ := List.getElem?_eq_some_iff.mp hb
  rw [← drop_eq_getElem_cons, take_append_drop]

lemma isCharBoundary_of_dot {host : String} {n : Nat} (hdot : (bytes host)[n]? = some 46) :
    isCharBoundary (bytes host) n = true ∧ isCharBoundary (bytes host) (n + 1) = true := by
  refine ⟨by simp [isCharBoundary, hdot], ?_⟩
  obtain ⟨hlt, -⟩ := List.getElem?_eq_some_iff.mp hdot
  obtain ⟨label, rest, hhost, hlabel, -⟩ := exists_eq_of_bytes_eq (eq_append_of_getElem? hdot)
  have hlen : (bytes (label ++ ".")).length = n + 1 := by
    rw [bytes_append, length_append, hlabel, length_take_of_le hlt.le]
    rfl
  have hboundary := isCharBoundary_append (label ++ ".") rest
  rwa [hlen, ← bytes_append, ← hhost] at hboundary

section Wildcard

variable {pattern host : String} {suffix : List UInt8}
  (hpattern : bytes pattern = 42 :: 46 :: suffix)
  (hne : ¬ eqIgnoreAsciiCase pattern host = true)
include hpattern hne

lemma matchHostChecked_wildcard :
    matchHostChecked pattern host = some (matchHost pattern host) := by
  simp only [matchHostChecked, matchHost, hpattern, if_neg hne]
  by_cases hlen : (bytes host).length > suffix.length + 1
  · obtain ⟨b, hb⟩ : ∃ b, (bytes host)[(bytes host).length - suffix.length - 1]? = some b :=
      ⟨_, getElem?_eq_getElem (by omega)⟩
    by_cases hdot : b = 46
    · subst hdot
      obtain ⟨hleft, hright⟩ := isCharBoundary_of_dot hb
      rw [Nat.sub_add_cancel (by omega)] at hright
      have hstart : isCharBoundary (bytes host) 0 = true := rfl
      have hend : isCharBoundary (bytes host) (bytes host).length = true := by simp [isCharBoundary]
      simp only [sliceStr, hleft, hright, hstart, hend, hlen, hb]
      split_ifs <;> simp_all
    · simp [hlen, hb, hdot]
  · simp [hlen]

lemma matchHost_wildcard_iff :
    matchHost pattern host = true ↔
      ∃ l r, bytes host = l ++ 46 :: r ∧ l ≠ [] ∧ 46 ∉ l ∧ eqIgnoreCase suffix r = true := by
  simp only [matchHost, hpattern, if_neg hne]
  constructor
  · intro h
    split_ifs at h with hcut hlabel
    simp only [Bool.and_eq_true, decide_eq_true_eq, beq_iff_eq] at hcut
    simp only [Bool.or_eq_true, List.isEmpty_iff, contains_iff_mem, not_or] at hlabel
    have hsplit := eq_append_of_getElem? hcut.2
    rw [Nat.sub_add_cancel (by omega)] at hsplit
    exact ⟨_, _, hsplit, hlabel.1, hlabel.2, h⟩
  · rintro ⟨l, r, hsplit, hl, hdot, hsame⟩
    have hlen : suffix.length = r.length := by
      simpa using congrArg List.length (eq_of_beq hsame)
    have hpos := length_pos_iff.mpr hl
    have htotal : (bytes host).length = l.length + 1 + r.length := by
      rw [hsplit, length_append, length_cons]
      omega
    rw [show (bytes host).length - suffix.length = l.length + 1 by omega, Nat.add_sub_cancel,
      if_pos (by simp [hsplit]; omega)]
    simp [hsplit, hl, hdot, hsame]

end Wildcard

lemma isLabelBefore_iff_bytes (suffix host : String) :
    IsLabelBefore suffix host ↔ ∃ l r, bytes host = l ++ 46 :: r ∧ l ≠ [] ∧ 46 ∉ l ∧
      eqIgnoreCase (bytes suffix) r = true := by
  constructor
  · rintro ⟨label, rest, rfl, hne, hdot, hsame⟩
    refine ⟨bytes label, bytes rest, bytes_label label rest, ?_, ?_, hsame⟩
    · exact fun h => hne (bytes_injective h)
    · rwa [dot_mem_bytes_iff]
  · rintro ⟨l, r, hbytes, hne, hdot, hsame⟩
    obtain ⟨label, rest, hhost, rfl, rfl⟩ := exists_eq_of_bytes_eq hbytes
    rw [dot_mem_bytes_iff] at hdot
    exact ⟨label, rest, hhost, fun h => hne (h ▸ rfl), hdot, hsame⟩

/-- The pattern is the host, or `*.` in front of all but its first label. -/
def Covers (pattern host : String) : Prop :=
  eqIgnoreAsciiCase pattern host = true ∨
    ∃ suffix, pattern = "*." ++ suffix ∧ IsLabelBefore suffix host

lemma bytes_pattern_cases (pattern : String) :
    (∃ suffix, pattern = "*." ++ suffix ∧ bytes pattern = 42 :: 46 :: bytes suffix) ∨
      ∀ suffix, bytes pattern ≠ 42 :: 46 :: suffix := by
  by_cases h : ∃ suffix, bytes pattern = 42 :: 46 :: suffix
  · obtain ⟨suffix, h⟩ := h
    obtain ⟨star, rest, hsplit, hstar, rfl⟩ := exists_eq_of_bytes_eq (l := [42]) h
    obtain rfl : star = "*" := bytes_injective hstar
    exact .inl ⟨rest, hsplit, h⟩
  · exact .inr (not_exists.mp h)

lemma matchHost_of_other {pattern host : String}
    (hother : ∀ suffix, bytes pattern ≠ 42 :: 46 :: suffix)
    (hne : ¬ eqIgnoreAsciiCase pattern host = true) : matchHost pattern host = false := by
  rw [matchHost, if_neg hne]
  split
  · exact absurd ‹_› (hother _)
  · rfl

lemma matchHostChecked_eq (pattern host : String) :
    matchHostChecked pattern host = some (matchHost pattern host) := by
  by_cases heq : eqIgnoreAsciiCase pattern host = true
  · simp [matchHostChecked, matchHost, heq]
  obtain ⟨suffix, -, hbytes⟩ | hother := bytes_pattern_cases pattern
  · exact matchHostChecked_wildcard hbytes heq
  · rw [matchHostChecked, if_neg heq, matchHost_of_other hother heq]
    split
    · exact absurd ‹_› (hother _)
    · rfl

lemma matchHost_iff_covers (pattern host : String) :
    matchHost pattern host = true ↔ Covers pattern host := by
  rw [Covers]
  by_cases heq : eqIgnoreAsciiCase pattern host = true
  · simp [matchHost, heq]
  obtain ⟨suffix, rfl, hbytes⟩ | hother := bytes_pattern_cases pattern
  · rw [matchHost_wildcard_iff hbytes heq, ← isLabelBefore_iff_bytes]
    simp [heq]
  · rw [matchHost_of_other hother heq]
    refine iff_of_false nofun ?_
    rintro (h | ⟨suffix, rfl, -⟩)
    · exact heq h
    · exact hother (bytes suffix) (bytes_append _ _)

/-- No index and no slice of `match_host` is out of range or inside a character, and what it
compares are labels. -/
theorem matchHost_iff_labels (pattern host : String) :
    matchHostChecked pattern host = some (matchHost pattern host) ∧
      (matchHost pattern host = true ↔ eqIgnoreAsciiCase pattern host = true ∨
        ∃ suffix, pattern = "*." ++ suffix ∧ IsLabelBefore suffix host) :=
  ⟨matchHostChecked_eq pattern host, matchHost_iff_covers pattern host⟩

/-! ### Spellings of one host -/

structure HostName where
  text : String
  visible : ∀ c ∈ text.toList, HeaderValue.IsVisible c

def HostName.authority (name : HostName) : Option (Fin 65536) → String
  | none => name.text
  | some port => name.text ++ (":" ++ toString port.val)

inductive HttpVersion where
  | http1
  | http2
deriving DecidableEq, Repr

def HttpVersion.headers (version : HttpVersion) (authority : String) (headers : HeaderMap) :
    HeaderMap :=
  match version with
  | .http1 => headers.insert "host" (.ofString authority)
  | .http2 => headers.remove "host"

lemma toStr_authority (name : HostName) (port : Option (Fin 65536)) :
    (ofString (name.authority port)).toStr = some (name.authority port) := by
  refine toStr_ofString fun c hc => ?_
  cases port with
  | none => exact name.visible c hc
  | some port =>
    rw [HostName.authority, String.toList_append, String.toList_append, mem_append,
      mem_append] at hc
    rcases hc with hc | hc | hc
    · exact name.visible c hc
    · obtain rfl := mem_singleton.mp hc
      exact .inl (by decide)
    · exact isVisible_toString _ c hc

section Spellings

variable (method : String) (uri : Uri) (headers : HeaderMap) (includeHeaders : Bool)

def hostHolds (host : Option String) (version : HttpVersion) (authority : String) : Bool :=
  matchHostCondition host
    (fromHttpRequest method uri (version.headers authority headers)
      includeHeaders).host

lemma hostHolds_http1 (pattern : String) (name : HostName) (port : Option (Fin 65536)) :
    hostHolds method uri headers includeHeaders (some pattern) .http1 (name.authority port) =
      matchHost pattern (name.authority port) := by
  simp [hostHolds, fromHttpRequest, HttpVersion.headers,
    get_eq_head?_getAll, getAll_insert_self, toStr_authority,
    matchHostCondition]

lemma hostHolds_http2 (pattern authority : String) :
    hostHolds method uri headers includeHeaders (some pattern) .http2 authority = false := by
  simp [hostHolds, fromHttpRequest, HttpVersion.headers,
    get_eq_head?_getAll, getAll_remove_self, matchHostCondition]

/-- The verdict depends on the name alone only where the pattern covers no spelling of it. -/
theorem hostHolds_spelling_free_iff (pattern : String) (name : HostName) :
    (∀ version version' port port',
      hostHolds method uri headers includeHeaders (some pattern) version (name.authority port) =
        hostHolds method uri headers includeHeaders (some pattern) version'
          (name.authority port')) ↔
      ∀ port, ¬ Covers pattern (name.authority port) := by
  simp only [← matchHost_iff_covers, Bool.not_eq_true]
  constructor
  · intro h port
    rw [← hostHolds_http1 method uri headers includeHeaders, h .http1 .http2 port port,
      hostHolds_http2]
  · intro h
    have hfalse : ∀ version port, hostHolds method uri headers includeHeaders (some pattern)
        version (name.authority port) = false := by
      intro version port
      cases version with
      | http1 => rw [hostHolds_http1, h]
      | http2 => exact hostHolds_http2 ..
    intro version version' port port'
    rw [hfalse, hfalse]

end Spellings

/-- The route of `a.example` is taken over HTTP/1.1, and neither over HTTP/2 nor with a port. -/
theorem hostHolds_depends_on_spelling :
    let name : HostName := ⟨"a.example", by simp [HeaderValue.IsVisible]⟩
    hostHolds "GET" ⟨"/", none⟩ [] false (some "a.example") .http1 (name.authority none) = true ∧
      hostHolds "GET" ⟨"/", none⟩ [] false (some "a.example") .http2 (name.authority none)
        = false ∧
      hostHolds "GET" ⟨"/", none⟩ [] false (some "a.example") .http1
        (name.authority (some 8080)) = false := by
  decide +kernel

end Conrogate
