import Conrogate.Protocol.Tls

/-!
# The format of a ClientHello

The server name that the gateway reads from a message is the one in it; and whatever it reads from
other bytes stands there as a host name.
-/

namespace Conrogate

open Wire List Option

/-! ### Messages -/

inductive NameEntry where
  | hostName (name : String)
  | other (nameType : UInt8) (data : List UInt8) (type_ne : nameType ≠ 0)

inductive HelloExtension where
  | serverName (entries : List NameEntry)
  | other (t₁ t₂ : UInt8) (data : List UInt8) (type_ne : be16 t₁ t₂ ≠ 0)

open HelloExtension

namespace NameEntry

def encode : NameEntry → List UInt8
  | hostName name => 0 :: vec16 (bytes name)
  | other nameType data _ => nameType :: vec16 data

def hostName? : NameEntry → Option String
  | hostName name => if name ≠ "" then some name else none
  | other .. => none

end NameEntry

def firstHostName (entries : List NameEntry) : Option String :=
  entries.findSome? NameEntry.hostName?

namespace HelloExtension

def encode : HelloExtension → List UInt8
  | serverName entries => 0 :: 0 :: vec16 (vec16 (entries.flatMap NameEntry.encode))
  | other t₁ t₂ data _ => t₁ :: t₂ :: vec16 data

def hostName? : HelloExtension → Option String
  | serverName entries => firstHostName entries
  | other .. => none

end HelloExtension

structure HelloBody where
  head : List UInt8
  sessionId : List UInt8
  cipherSuites : List UInt8
  compressionMethods : List UInt8
  extensions : Option (List HelloExtension)

namespace HelloBody

def encodeExtensions (hello : HelloBody) : List UInt8 :=
  match hello.extensions with
  | none => []
  | some exts => vec16 (exts.flatMap encode)

def encode (hello : HelloBody) : List UInt8 :=
  hello.head ++ (vec8 hello.sessionId ++ (vec16 hello.cipherSuites ++
    (vec8 hello.compressionMethods ++ hello.encodeExtensions)))

def serverName (hello : HelloBody) : Option String :=
  (hello.extensions.getD []).findSome? hostName?

end HelloBody

structure ClientHello extends HelloBody where
  v₁ : UInt8
  v₂ : UInt8
  head_length : head.length = 34
  sessionId_lt : sessionId.length < 256
  compressionMethods_lt : compressionMethods.length < 256
  fits : 4 + toHelloBody.encode.length < 65536

namespace ClientHello

def encodeHandshake (hello : ClientHello) : List UInt8 :=
  0x01 :: UInt8.ofNat (hello.toHelloBody.encode.length / 65536) ::
    (be16Bytes hello.toHelloBody.encode.length ++ hello.toHelloBody.encode)

def encode (hello : ClientHello) : List UInt8 :=
  0x16 :: hello.v₁ :: hello.v₂ :: vec16 hello.encodeHandshake

end ClientHello

/-! ### Reading a message -/

section

variable {data more : List UInt8}

lemma namesIn_hostName (name : String) (h : (bytes name).length < 65536) :
    namesIn (0 :: (vec16 (bytes name) ++ more)) =
      if name ≠ "" then some (some name) else namesIn more := by
  simp only [vec16, be16Bytes, cons_append, nil_append]
  rw [namesIn, be16_ofNat h, if_neg (by simp), take_left, drop_left, if_pos rfl,
    fromUtf8_eq_some_iff.mpr rfl]

lemma namesIn_other {nameType : UInt8} (htype : nameType ≠ 0) (h : data.length < 65536) :
    namesIn (nameType :: (vec16 data ++ more)) = namesIn more := by
  simp only [vec16, be16Bytes, cons_append, nil_append]
  rw [namesIn, be16_ofNat h, if_neg (by simp), drop_left, if_neg htype]

lemma namesIn_flatMap (entries : List NameEntry)
    (h : (entries.flatMap NameEntry.encode).length < 65536) :
    namesIn (entries.flatMap NameEntry.encode) = (firstHostName entries).map some := by
  induction entries with
  | nil => exact namesIn_of_length_lt (by simp)
  | cons entry entries ih =>
    rw [flatMap_cons, length_append] at h
    have hrest := ih (by omega)
    cases entry with
    | hostName name =>
      have hname : (bytes name).length < 65536 := by
        simp only [NameEntry.encode, vec16, length_cons, length_append] at h
        omega
      rw [flatMap_cons, NameEntry.encode, cons_append, namesIn_hostName name hname,
        firstHostName, findSome?_cons, NameEntry.hostName?]
      split_ifs
      · rfl
      · exact hrest
    | other nameType data htype =>
      have hdata : data.length < 65536 := by
        simp only [NameEntry.encode, vec16, length_cons, length_append] at h
        omega
      rw [flatMap_cons, NameEntry.encode, cons_append, namesIn_other htype hdata,
        firstHostName, findSome?_cons, NameEntry.hostName?]
      exact hrest

lemma extensionsIn_serverName (h : data.length < 65536) :
    extensionsIn (0 :: 0 :: (vec16 data ++ more)) =
      (serverNameIn data).getD (extensionsIn more) := by
  simp only [vec16, be16Bytes, cons_append, nil_append]
  rw [extensionsIn, be16_ofNat h, take_left, drop_left, if_pos (by rfl)]
  cases serverNameIn data <;> rfl

lemma extensionsIn_other {t₁ t₂ : UInt8} (htype : be16 t₁ t₂ ≠ 0) (h : data.length < 65536) :
    extensionsIn (t₁ :: t₂ :: (vec16 data ++ more)) = extensionsIn more := by
  simp only [vec16, be16Bytes, cons_append, nil_append]
  rw [extensionsIn, be16_ofNat h, drop_left, if_neg htype]

lemma extensionsIn_flatMap (exts : List HelloExtension)
    (h : (exts.flatMap encode).length < 65536) :
    extensionsIn (exts.flatMap encode) =
      exts.findSome? hostName? := by
  induction exts with
  | nil => exact extensionsIn_of_length_lt (by simp)
  | cons ext exts ih =>
    rw [flatMap_cons, length_append] at h
    have hrest := ih (by omega)
    cases ext with
    | serverName entries =>
      have hlist : (vec16 (entries.flatMap NameEntry.encode)).length < 65536 := by
        simp only [encode, length_cons, vec16, length_append] at h ⊢
        omega
      have hentries : (entries.flatMap NameEntry.encode).length < 65536 := by
        simp only [vec16, length_append] at hlist
        omega
      rw [flatMap_cons, encode, cons_append, cons_append,
        extensionsIn_serverName hlist, findSome?_cons, hostName?, ← hrest]
      change (namesIn (entries.flatMap NameEntry.encode)).getD _ = _
      rw [namesIn_flatMap entries hentries]
      cases firstHostName entries <;> rfl
    | other t₁ t₂ data htype =>
      have hdata : data.length < 65536 := by
        simp only [encode, vec16, length_cons, length_append] at h
        omega
      rw [flatMap_cons, encode, cons_append, cons_append,
        extensionsIn_other htype hdata, findSome?_cons, hostName?]
      exact hrest

end

namespace ClientHello

variable (hello : ClientHello)

lemma blockSni_encodeExtensions : blockSni hello.encodeExtensions = hello.serverName := by
  have hfits := hello.fits
  rw [HelloBody.encode] at hfits
  rw [HelloBody.serverName]
  cases hexts : hello.extensions with
  | none =>
    rw [HelloBody.encodeExtensions, hexts]
    rfl
  | some exts =>
    rw [HelloBody.encodeExtensions, hexts] at hfits ⊢
    have hlen : (exts.flatMap HelloExtension.encode).length < 65536 := by
      simp only [length_append, vec16] at hfits
      omega
    simp only [vec16, be16Bytes, cons_append, nil_append, blockSni, be16_ofNat hlen, take_length]
    exact extensionsIn_flatMap exts hlen

lemma bodySni_encode : bodySni hello.toHelloBody.encode = hello.serverName := by
  have hfits := hello.fits
  have hciphers : hello.cipherSuites.length < 65536 := by
    simp only [HelloBody.encode, vec16, length_append] at hfits
    omega
  rw [bodySni_eq, HelloBody.encode, drop_left' hello.head_length,
    readVec8_append hello.sessionId_lt, bind_some, readVec16_append hciphers,
    bind_some, readVec8_append hello.compressionMethods_lt, bind_some]
  exact hello.blockSni_encodeExtensions

lemma encodeHandshake_lt : hello.encodeHandshake.length < 65536 := by
  have hfits := hello.fits
  simp only [encodeHandshake, length_cons, length_append, length_be16Bytes]
  omega

lemma sniOf_encode (trailing : List UInt8) :
    sniOf (hello.encode ++ trailing) = hello.serverName := by
  rw [encode, cons_append, cons_append, cons_append, sniOf, if_pos rfl,
    readVec16_append hello.encodeHandshake_lt, bind_some]
  exact hello.bodySni_encode

end ClientHello

/-! ### Where a name comes from -/

inductive HasHostName (raw : List UInt8) : List UInt8 → Prop where
  | here {more : List UInt8} : raw.length < 65536 → HasHostName raw (0 :: (vec16 raw ++ more))
  | later {nameType : UInt8} {data more : List UInt8} : data.length < 65536 →
      HasHostName raw more → HasHostName raw (nameType :: (vec16 data ++ more))

/-- The extensions of a block contain a server name extension with a host name. The data of an
extension ends with its length, or with the block. -/
inductive HasServerName (raw : List UInt8) : List UInt8 → Prop where
  | here {len : Nat} {tail : List UInt8} {a b : UInt8} {entries : List UInt8} : len < 65536 →
      tail.take len = a :: b :: entries → HasHostName raw entries →
      HasServerName raw (0 :: 0 :: (be16Bytes len ++ tail))
  | later {t₁ t₂ : UInt8} {data more : List UInt8} : data.length < 65536 →
      HasServerName raw more → HasServerName raw (t₁ :: t₂ :: (vec16 data ++ more))

def BodyNames (body raw : List UInt8) : Prop :=
  ∃ (head sessionId cipherSuites compressionMethods : List UInt8) (total : Nat)
    (tail : List UInt8),
    head.length = 34 ∧ sessionId.length < 256 ∧ cipherSuites.length < 65536 ∧
    compressionMethods.length < 256 ∧ total < 65536 ∧
    body = head ++ (vec8 sessionId ++ (vec16 cipherSuites ++
      (vec8 compressionMethods ++ (be16Bytes total ++ tail)))) ∧
    HasServerName raw (tail.take total)

def NamesHost (buf raw : List UInt8) : Prop :=
  ∃ (v₁ v₂ a b c : UInt8) (body rest : List UInt8), body.length + 4 < 65536 ∧
    buf = 0x16 :: v₁ :: v₂ :: (vec16 (0x01 :: a :: b :: c :: body) ++ rest) ∧ BodyNames body raw

section

variable {s : String}

lemma hasHostName_of_namesIn (l : List UInt8) (h : namesIn l = some (some s)) :
    HasHostName (bytes s) l := by
  fun_induction namesIn l with
  | case1 | case2 | case6 => cases h
  | case3 hi lo rest hlen name hname =>
    cases h
    have hraw := fromUtf8_eq_some_iff.mp hname
    rw [← vec16_take_append_drop (not_lt.mp hlen), ← hraw]
    exact .here (hraw ▸ length_take_be16_lt hi lo)
  | case4 hi lo rest hlen _ _ _ ih | case5 _ hi lo rest hlen _ ih =>
    rw [← vec16_take_append_drop (not_lt.mp hlen)]
    exact .later (length_take_be16_lt hi lo) (ih h)

lemma le_length_of_extensionsIn_drop {l : List UInt8} {n : Nat}
    (h : extensionsIn (l.drop n) = some s) : n ≤ l.length := by
  by_contra hlen
  rw [drop_eq_nil_of_le (not_le.mp hlen).le, extensionsIn_of_length_lt (by simp)] at h
  cases h

lemma hasServerName_of_extensionsIn (l : List UInt8) (h : extensionsIn l = some s) :
    HasServerName (bytes s) l := by
  fun_induction extensionsIn l with
  | case1 t₁ t₂ l₁ l₂ rest htype r hserver =>
    obtain ⟨rfl, rfl⟩ := be16_eq_zero htype
    cases h
    match hdata : rest.take (be16 l₁ l₂), hserver with
    | _ :: _ :: entries, hnames =>
      have hblock :=
        HasServerName.here (be16_lt l₁ l₂) hdata (hasHostName_of_namesIn entries hnames)
      rwa [be16Bytes_be16] at hblock
  | case2 t₁ t₂ l₁ l₂ rest _ _ ih | case3 t₁ t₂ l₁ l₂ rest _ ih =>
    rw [← vec16_take_append_drop (le_length_of_extensionsIn_drop h)]
    exact .later (length_take_be16_lt l₁ l₂) (ih h)
  | case4 => cases h

lemma bodyNames_of_bodySni {body : List UInt8} (h : bodySni body = some s) :
    BodyNames body (bytes s) := by
  rw [bodySni_eq] at h
  obtain ⟨⟨sessionId, rest₁⟩, hsession, h₁⟩ := bind_eq_some_iff.mp h
  obtain ⟨⟨cipherSuites, rest₂⟩, hciphers, h₂⟩ := bind_eq_some_iff.mp h₁
  obtain ⟨⟨compressionMethods, rest₃⟩, hcomp, hblock⟩ := bind_eq_some_iff.mp h₂
  obtain ⟨hsession_lt, hrest⟩ := readVec8_eq_some hsession
  obtain ⟨hciphers_lt, rfl⟩ := readVec16_eq_some hciphers
  obtain ⟨hcomp_lt, rfl⟩ := readVec8_eq_some hcomp
  have hhead : (body.take 34).length = 34 := by
    have hpos : (body.drop 34).length ≠ 0 := by
      rw [hrest]
      simp [vec8]
    rw [length_drop] at hpos
    rw [length_take]
    omega
  obtain _ | ⟨e₁, _ | ⟨e₂, tail⟩⟩ := rest₃
  · cases hblock
  · cases hblock
  · refine ⟨body.take 34, sessionId, cipherSuites, compressionMethods, be16 e₁ e₂, tail, hhead,
      hsession_lt, hciphers_lt, hcomp_lt, be16_lt e₁ e₂, ?_, hasServerName_of_extensionsIn _ hblock⟩
    rw [be16Bytes_be16]
    exact (take_append_drop 34 body).symm.trans (congrArg _ hrest)

lemma handshakeSni_eq_some {hs : List UInt8} (h : handshakeSni hs = some s) :
    ∃ a b c body, hs = 0x01 :: a :: b :: c :: body ∧ bodySni body = some s := by
  match hs, h with
  | hsType :: a :: b :: c :: body, h =>
    rw [handshakeSni] at h
    split_ifs at h with htype
    exact ⟨a, b, c, body, by rw [htype], h⟩

lemma namesHost_of_sniOf {buf : List UInt8} (h : sniOf buf = some s) :
    NamesHost buf (bytes s) := by
  match buf, h with
  | recordType :: v₁ :: v₂ :: rest, h =>
    rw [sniOf] at h
    split_ifs at h with hrecord
    obtain ⟨⟨hs, rest⟩, hhs, hhello⟩ := bind_eq_some_iff.mp h
    obtain ⟨hlen, rfl⟩ := readVec16_eq_some hhs
    obtain ⟨a, b, c, body, rfl, hbody⟩ := handshakeSni_eq_some hhello
    exact ⟨v₁, v₂, a, b, c, body, rest, hlen, by rw [hrecord], bodyNames_of_bodySni hbody⟩

end

/-- Extraction always returns. From the bytes of a message it returns the server name of the
message, whatever follows them. A name that it returns stands in the buffer as a host name. -/
theorem extractSniFromClientHello_correct (buf : List UInt8) (hello : ClientHello)
    (trailing : List UInt8) :
    (∃ r, extractSniFromClientHello buf = .ok r) ∧
    extractSniFromClientHello (hello.encode ++ trailing) = .ok hello.serverName ∧
    ∀ s, extractSniFromClientHello buf = .ok (some s) → NamesHost buf (bytes s) := by
  refine ⟨⟨sniOf buf, extractSniFromClientHello_eq buf⟩, ?_, ?_⟩
  · rw [extractSniFromClientHello_eq, hello.sniOf_encode]
  · intro s hs
    rw [extractSniFromClientHello_eq] at hs
    exact namesHost_of_sniOf (Except.ok.inj hs)

def sampleHello : ClientHello where
  head := 3 :: 3 :: List.replicate 32 0
  sessionId := [7]
  cipherSuites := [0x13, 0x01]
  compressionMethods := [0]
  extensions := some [.other 0 23 [] (by decide),
    .serverName [.hostName "", .other 1 [5] (by decide), .hostName "api"]]
  v₁ := 3
  v₂ := 1
  head_length := by decide
  sessionId_lt := by decide
  compressionMethods_lt := by decide
  fits := by decide

theorem extractSniFromClientHello_sampleHello :
    extractSniFromClientHello sampleHello.encode = .ok (some "api") ∧
      NamesHost sampleHello.encode (bytes "api") := by
  have h := extractSniFromClientHello_correct sampleHello.encode sampleHello []
  have hname : sampleHello.serverName = some "api" := by decide
  rw [append_nil, hname] at h
  exact ⟨h.2.1, h.2.2 "api" h.2.1⟩

end Conrogate
