import Conrogate.Core.Text
import Conrogate.Lib.Wire
import Mathlib

/-!
# The server name of a ClientHello

`extract_sni_from_client_hello` reads by position, through nested lengths that the client chooses.
It is compared with a reader of lists, and that with the format.
-/

namespace Conrogate

open Wire

/-! ### By position -/

def searchNames (body : List UInt8) (dataEnd p : Nat) : Checked (Option (Option String)) :=
  if p + 3 ≤ dataEnd then do
    let nameType ← index body p
    let hi ← index body (p + 1)
    let lo ← index body (p + 2)
    let nameLen := be16 hi lo
    if dataEnd < p + 3 + nameLen then return some none
    else if nameType = 0 then do
      let raw ← slice body (p + 3) (p + 3 + nameLen)
      match fromUtf8 raw with
      | none => return some none
      | some name =>
        if name ≠ "" then return some (some name)
        else searchNames body dataEnd (p + 3 + nameLen)
    else searchNames body dataEnd (p + 3 + nameLen)
  else return none
termination_by dataEnd - p
decreasing_by all_goals omega

def searchExtensions (body : List UInt8) (extEnd off : Nat) : Checked (Option String) :=
  if off + 4 ≤ extEnd then do
    let t₁ ← index body off
    let t₂ ← index body (off + 1)
    let l₁ ← index body (off + 2)
    let l₂ ← index body (off + 3)
    let dataEnd := min (off + 4 + be16 l₁ l₂) extEnd
    if be16 t₁ t₂ = 0 then
      if dataEnd < off + 4 + 2 then return none
      else do
        -- the length of the list, which is not used
        let _ ← index body (off + 4)
        let _ ← index body (off + 4 + 1)
        match ← searchNames body dataEnd (off + 4 + 2) with
        | some r => return r
        | none => searchExtensions body extEnd dataEnd
    else searchExtensions body extEnd dataEnd
  else return none
termination_by extEnd - off
decreasing_by all_goals omega

def searchBody (body : List UInt8) : Checked (Option String) := do
  if body.length < 34 then return none
  if body.length < 34 + 1 then return none
  let sessionLen ← index body 34
  let off := 34 + (1 + sessionLen.toNat)
  if body.length < off + 2 then return none
  let c₁ ← index body off
  let c₂ ← index body (off + 1)
  let off := off + (2 + be16 c₁ c₂)
  if body.length < off + 1 then return none
  let compLen ← index body off
  let off := off + (1 + compLen.toNat)
  if body.length < off + 2 then return none
  let e₁ ← index body off
  let e₂ ← index body (off + 1)
  let off := off + 2
  searchExtensions body (min (off + be16 e₁ e₂) body.length) off

def searchHandshake (hs : List UInt8) : Checked (Option String) := do
  if hs.length < 4 then return none
  let hsType ← index hs 0
  if hsType ≠ 0x01 then return none
  -- the length of the handshake message, which is not used
  let _ ← index hs 1
  let _ ← index hs 2
  let _ ← index hs 3
  let body ← slice hs 4 hs.length
  searchBody body

def extractSniFromClientHello (buf : List UInt8) : Checked (Option String) := do
  if buf.length < 5 then return none
  let recordType ← index buf 0
  if recordType ≠ 0x16 then return none
  let r₁ ← index buf 3
  let r₂ ← index buf 4
  let recordLen := be16 r₁ r₂
  if buf.length < 5 + recordLen then return none
  let hs ← slice buf 5 (5 + recordLen)
  searchHandshake hs

/-! ### As a reader of lists -/

def namesIn : List UInt8 → Option (Option String)
  | nameType :: hi :: lo :: rest =>
    if rest.length < be16 hi lo then some none
    else if nameType = 0 then
      match fromUtf8 (rest.take (be16 hi lo)) with
      | none => some none
      | some name => if name ≠ "" then some (some name) else namesIn (rest.drop (be16 hi lo))
    else namesIn (rest.drop (be16 hi lo))
  | _ => none
termination_by l => l.length
decreasing_by all_goals simp; omega

def serverNameIn : List UInt8 → Option (Option String)
  | _ :: _ :: entries => namesIn entries
  | _ => some none

def extensionsIn : List UInt8 → Option String
  | t₁ :: t₂ :: l₁ :: l₂ :: rest =>
    if be16 t₁ t₂ = 0 then
      match serverNameIn (rest.take (be16 l₁ l₂)) with
      | some r => r
      | none => extensionsIn (rest.drop (be16 l₁ l₂))
    else extensionsIn (rest.drop (be16 l₁ l₂))
  | _ => none
termination_by l => l.length
decreasing_by all_goals simp; omega

def blockSni : List UInt8 → Option String
  | e₁ :: e₂ :: tail => extensionsIn (tail.take (be16 e₁ e₂))
  | _ => none

def bodySni (body : List UInt8) : Option String := do
  let (_, rest) ← readVec8 (body.drop 34)
  let (_, rest) ← readVec16 rest
  let (_, rest) ← readVec8 rest
  blockSni rest

def handshakeSni : List UInt8 → Option String
  | hsType :: _ :: _ :: _ :: body => if hsType = 0x01 then bodySni body else none
  | _ => none

def sniOf : List UInt8 → Option String
  | recordType :: _ :: _ :: rest =>
    if recordType = 0x16 then (readVec16 rest).bind fun r => handshakeSni r.1 else none
  | _ => none

section

variable {body : List UInt8} {l : List UInt8}

lemma namesIn_of_length_lt (h : l.length < 3) : namesIn l = none := by
  match l with
  | [] => rw [namesIn]; simp
  | [_] => rw [namesIn]; simp
  | [_, _] => rw [namesIn]; simp
  | _ :: _ :: _ :: _ => exact absurd h (by simp)

lemma searchNames_eq {dataEnd : Nat} (h : dataEnd ≤ body.length) (p : Nat) :
    searchNames body dataEnd p = .ok (namesIn (window body p dataEnd)) := by
  induction hleft : dataEnd - p using Nat.strongRecOn generalizing p with
  | _ left ih =>
    rw [searchNames]
    by_cases hp : p + 3 ≤ dataEnd
    · obtain ⟨nameType, htype, hw⟩ : ∃ b, index body p = .ok b ∧
          window body p dataEnd = b :: window body (p + 1) dataEnd := window_eq_cons (by omega) h
      obtain ⟨hi, lo, hhi, hlo, hw'⟩ : ∃ a b, index body (p + 1) = .ok a ∧
          index body (p + 2) = .ok b ∧
          window body (p + 1) dataEnd = a :: b :: window body (p + 3) dataEnd :=
        window_eq_cons_cons (by omega) h
      have hnext : searchNames body dataEnd (p + 3 + be16 hi lo) =
          .ok (namesIn (window body (p + 3 + be16 hi lo) dataEnd)) :=
        ih (dataEnd - (p + 3 + be16 hi lo)) (by omega) _ rfl
      have hcond : dataEnd - (p + 3) < be16 hi lo ↔ dataEnd < p + 3 + be16 hi lo := by omega
      rw [if_pos hp, hw, hw', namesIn, length_window h]
      simp only [htype, hhi, hlo, ok_bind, hnext, drop_window, hcond]
      by_cases hlen : dataEnd < p + 3 + be16 hi lo
      · simp only [hlen, if_true]
        rfl
      · have hwithin : p + 3 + be16 hi lo ≤ dataEnd := not_lt.mp hlen
        simp only [hlen, if_false, take_window, min_eq_left hwithin,
          slice_eq_window (Nat.le_add_right (p + 3) _) (hwithin.trans h), ok_bind]
        split_ifs
        · cases fromUtf8 (window body (p + 3) (p + 3 + be16 hi lo)) with
          | none => rfl
          | some name =>
            simp only
            split_ifs <;> rfl
        · rfl
    · rw [if_neg hp, namesIn_of_length_lt (by rw [length_window h]; omega)]
      rfl

lemma extensionsIn_of_length_lt (h : l.length < 4) : extensionsIn l = none := by
  match l with
  | [] => rw [extensionsIn]; simp
  | [_] => rw [extensionsIn]; simp
  | [_, _] => rw [extensionsIn]; simp
  | [_, _, _] => rw [extensionsIn]; simp
  | _ :: _ :: _ :: _ :: _ => exact absurd h (by simp)

lemma searchExtensions_eq {extEnd : Nat} (h : extEnd ≤ body.length) (off : Nat) :
    searchExtensions body extEnd off = .ok (extensionsIn (window body off extEnd)) := by
  induction hleft : extEnd - off using Nat.strongRecOn generalizing off with
  | _ left ih =>
    rw [searchExtensions]
    by_cases hoff : off + 4 ≤ extEnd
    · obtain ⟨t₁, t₂, ht₁, ht₂, hw⟩ := window_eq_cons_cons (p := off) (by omega) h
      obtain ⟨l₁, l₂, hl₁, hl₂, hw'⟩ : ∃ a b, index body (off + 2) = .ok a ∧
          index body (off + 3) = .ok b ∧
          window body (off + 2) extEnd = a :: b :: window body (off + 4) extEnd :=
        window_eq_cons_cons (by omega) h
      set dataEnd := min (off + 4 + be16 l₁ l₂) extEnd with hdata
      have hend : dataEnd ≤ body.length := (min_le_right _ _).trans h
      have hnext : searchExtensions body extEnd dataEnd =
          .ok (extensionsIn (window body dataEnd extEnd)) :=
        ih (extEnd - dataEnd) (by omega) _ rfl
      have hdrop : window body (off + 4 + be16 l₁ l₂) extEnd = window body dataEnd extEnd := by
        obtain hle | hle := le_total (off + 4 + be16 l₁ l₂) extEnd
        · rw [hdata, min_eq_left hle]
        · rw [hdata, min_eq_right hle, window_eq_nil hle, window_eq_nil le_rfl]
      rw [if_pos hoff, hw, hw', extensionsIn]
      simp only [ht₁, ht₂, hl₁, hl₂, ok_bind, ← hdata, hnext, drop_window, take_window, hdrop]
      split_ifs with htype hshort
      · have hlen : (window body (off + 4) dataEnd).length < 2 := by
          rw [length_window hend]
          omega
        match window body (off + 4) dataEnd, hlen with
        | [], _ => rfl
        | [_], _ => rfl
      · obtain ⟨_, _, hx, hy, hwd⟩ := window_eq_cons_cons (not_lt.mp hshort) hend
        simp only [hx, hy, ok_bind, hwd, searchNames_eq hend, serverNameIn]
        cases namesIn (window body (off + 4 + 2) dataEnd) <;> rfl
      · rfl
    · rw [if_neg hoff, extensionsIn_of_length_lt (by rw [length_window h]; omega)]
      rfl

lemma blockSni_of_length_lt (h : l.length < 2) : blockSni l = none := by
  match l, h with
  | [], _ => rfl
  | [_], _ => rfl

lemma searchBlock_eq {off : Nat} (hoff : off + 2 ≤ body.length) :
    ∃ e₁ e₂, index body off = .ok e₁ ∧ index body (off + 1) = .ok e₂ ∧
      searchExtensions body (min (off + 2 + be16 e₁ e₂) body.length) (off + 2) =
        .ok (blockSni (body.drop off)) := by
  obtain ⟨e₁, e₂, he₁, he₂, hw⟩ := window_eq_cons_cons hoff (Nat.le_refl body.length)
  refine ⟨e₁, e₂, he₁, he₂, ?_⟩
  rw [searchExtensions_eq (min_le_right _ _), ← take_window, ← window_length, hw, blockSni]

lemma bodySni_eq (body : List UInt8) :
    bodySni body = (readVec8 (body.drop 34)).bind fun r => (readVec16 r.2).bind fun r =>
      (readVec8 r.2).bind fun r => blockSni r.2 :=
  rfl

lemma searchBody_eq (body : List UInt8) : searchBody body = .ok (bodySni body) := by
  rw [searchBody]
  by_cases hlen : body.length < 34 + 1
  · have hnone : bodySni body = none := by
      rw [bodySni_eq, readVec8_of_length_lt (by rw [List.length_drop]; omega)]
      rfl
    rw [hnone, if_pos hlen]
    split <;> rfl
  · rw [if_neg (by omega), if_neg hlen]
    obtain ⟨sessionLen, hsession, hrest⟩ := readVec8_bind (p := 34) (k := 2)
      (f := fun l => (readVec16 l).bind fun r => (readVec8 r.2).bind fun r => blockSni r.2)
      (fun l hl => by rw [readVec16_of_length_lt hl]; rfl) (not_lt.mp hlen)
    simp only [bodySni_eq, hrest, hsession, ok_bind]
    split_ifs with hciphers
    · rfl
    obtain ⟨c₁, c₂, hc₁, hc₂, hrest⟩ := readVec16_bind (k := 1)
      (f := fun l => (readVec8 l).bind fun r => blockSni r.2)
      (fun l hl => by rw [readVec8_of_length_lt hl]; rfl) (not_lt.mp hciphers)
    simp only [hrest, hc₁, hc₂, ok_bind]
    split_ifs with hcomp
    · rfl
    obtain ⟨compLen, hcompLen, hrest⟩ := readVec8_bind (k := 2) (f := blockSni)
      (fun _ => blockSni_of_length_lt) (not_lt.mp hcomp)
    simp only [hrest, hcompLen, ok_bind]
    split_ifs with hblock
    · rfl
    obtain ⟨e₁, e₂, he₁, he₂, hsearch⟩ := searchBlock_eq (not_lt.mp hblock)
    rw [he₁, he₂, ok_bind, ok_bind, hsearch]

lemma searchHandshake_eq (hs : List UInt8) :
    searchHandshake hs = .ok (handshakeSni hs) := by
  match hs with
  | [] => rfl
  | [_] => rfl
  | [_, _] => rfl
  | [_, _, _] => rfl
  | hsType :: _ :: _ :: _ :: body =>
    rw [searchHandshake, if_neg (by simp), slice_eq_window (by simp) le_rfl, window_length]
    change (if hsType ≠ 0x01 then _ else searchBody body) = _
    rw [searchBody_eq, handshakeSni]
    split_ifs <;> first | contradiction | rfl

lemma extractSniFromClientHello_eq (buf : List UInt8) :
    extractSniFromClientHello buf = .ok (sniOf buf) := by
  match buf with
  | [] => rfl
  | [_] => rfl
  | [_, _] => rfl
  | [_, _, _] =>
    rw [sniOf]
    split_ifs <;> rfl
  | [_, _, _, _] =>
    rw [sniOf]
    split_ifs <;> rfl
  | recordType :: v₁ :: v₂ :: r₁ :: r₂ :: rest =>
    rw [extractSniFromClientHello, if_neg (by simp)]
    change (if recordType ≠ 0x16 then _ else if rest.length + 5 < 5 + be16 r₁ r₂ then _ else _) = _
    rw [sniOf, readVec16]
    by_cases hrecord : recordType = 0x16
    · rw [if_neg (not_not.mpr hrecord), if_pos hrecord]
      split_ifs with h₁ h₂
      · rfl
      · omega
      · omega
      · have hw : window (recordType :: v₁ :: v₂ :: r₁ :: r₂ :: rest) 5 (5 + be16 r₁ r₂) =
            rest.take (be16 r₁ r₂) := by
          rw [window, Nat.add_comm]
          rfl
        rw [slice_eq_window (by simp) (by simp; omega), hw, ok_bind, searchHandshake_eq]
        rfl
    · rw [if_pos hrecord, if_neg hrecord]
      rfl

end

end Conrogate
