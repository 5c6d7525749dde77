import Conrogate.Core.Text
import Conrogate.Lib.Reader
import Mathlib.Data.List.TakeWhile

/-!
# Addresses and networks

`std::net::IpAddr` with the parser of the standard library, and what the gateway uses of the
`ipnet` crate. The crate is a parameter; `IpNet` is one implementation of it.
-/

namespace Conrogate

open List Reader.Consumes Reader

inductive IpAddr where
  | v4 (a : BitVec 32)
  | v6 (a : BitVec 128)
deriving DecidableEq, Repr

/-! ### The parser of the standard library -/

def toDigit (radix : Nat) (c : Char) : Option Nat :=
  let d :=
    if '0' ≤ c ∧ c ≤ '9' then c.toNat - '0'.toNat
    else if 'a' ≤ c ∧ c ≤ 'z' then c.toNat - 'a'.toNat + 10
    else if 'A' ≤ c ∧ c ≤ 'Z' then c.toNat - 'A'.toNat + 10
    else radix
  if d < radix then some d else none

def readNumber (radix maxDigits : Nat) (allowZeroPrefix : Bool) (bound : Nat) (s : List Char) :
    Option (Nat × List Char) :=
  let digits := s.takeWhile fun c => (toDigit radix c).isSome
  let value := digits.foldl (fun n c => n * radix + (toDigit radix c).getD 0) 0
  if digits.length = 0 ∨ digits.length > maxDigits then none
  else if !allowZeroPrefix && digits.head? == some '0' && digits.length > 1 then none
  else if value < bound then some (value, s.dropWhile fun c => (toDigit radix c).isSome)
  else none

def readSeparator {β : Type} (sep : Char) (first : Bool) (r : List Char → Option (β × List Char)) :
    List Char → Option (β × List Char) :=
  if first then r else andThen (token sep) fun _ => r

def readOctet : List Char → Option (Nat × List Char) := readNumber 10 3 false 256

def readIpv4Addr : List Char → Option (BitVec 32 × List Char) :=
  andThen (readSeparator '.' true readOctet) fun a =>
  andThen (readSeparator '.' false readOctet) fun b =>
  andThen (readSeparator '.' false readOctet) fun c =>
  andThen (readSeparator '.' false readOctet) fun d =>
  succeed (BitVec.ofNat 32 (((a * 256 + b) * 256 + c) * 256 + d))

def readGroups : Nat → Bool → List Char → (List Nat × Bool) × List Char
  | 0, _, s => (([], false), s)
  | left + 1, first, s =>
    -- an embedded IPv4 address needs two groups
    match (if 0 < left then readSeparator ':' first readIpv4Addr s else none) with
    | some (a, rest) => (([a.toNat / 65536, a.toNat % 65536], true), rest)
    | none =>
      match readSeparator ':' first (readNumber 16 4 true 65536) s with
      | some (g, rest) =>
        let r := readGroups left false rest
        ((g :: r.1.1, r.1.2), r.2)
      | none => (([], false), s)

def ipv6OfGroups (groups : List Nat) : BitVec 128 :=
  BitVec.ofNat 128 (groups.foldl (fun n g => n * 65536 + g) 0)

def readIpv6Addr (s : List Char) : Option (BitVec 128 × List Char) :=
  let front := readGroups 8 true s
  if front.1.1.length = 8 then some (ipv6OfGroups front.1.1, front.2)
  else if front.1.2 then none
  else
    andThen (token ':') (fun _ =>
      andThen (token ':') fun _ rest =>
        let back := readGroups (8 - (front.1.1.length + 1)) true rest
        let zeros := List.replicate (8 - (front.1.1.length + back.1.1.length)) 0
        some (ipv6OfGroups (front.1.1 ++ zeros ++ back.1.1), back.2)) front.2

def parseIpAddr (s : List Char) : Option IpAddr :=
  complete (orElse
    (andThen readIpv4Addr fun a => succeed (.v4 a))
    (andThen readIpv6Addr fun a => succeed (.v6 a))) s

/-! ### The characters of an address -/

def IsAddrChar (c : Char) : Prop := (toDigit 16 c).isSome = true ∨ c = '.' ∨ c = ':'

lemma toDigit_mono {radix radix' : Nat} (h : radix ≤ radix') {c : Char}
    (hc : (toDigit radix c).isSome = true) : (toDigit radix' c).isSome = true := by
  simp only [toDigit, Option.isSome_ite] at hc ⊢
  split_ifs at hc ⊢
  -- a digit keeps its value, and what is none has the radix for a value
  · exact hc.trans_le h
  · exact hc.trans_le h
  · exact hc.trans_le h
  · exact absurd hc (lt_irrefl radix)

lemma consumes_readNumber {radix : Nat} (hr : radix ≤ 16) (maxDigits : Nat)
    (allowZeroPrefix : Bool) (bound : Nat) :
    Reader.Consumes IsAddrChar (readNumber radix maxDigits allowZeroPrefix bound) := by
  intro s v rest h
  simp only [readNumber] at h
  split_ifs at h
  cases h
  refine ⟨s.takeWhile fun c => (toDigit radix c).isSome, takeWhile_append_dropWhile.symm, ?_⟩
  intro c hc
  have hdigit : (toDigit radix c).isSome = true :=
    mem_takeWhile_imp (p := fun c => (toDigit radix c).isSome) hc
  exact .inl (toDigit_mono hr hdigit)

lemma consumes_readSeparator {β : Type} {sep : Char} (hsep : IsAddrChar sep) (first : Bool)
    {r : List Char → Option (β × List Char)} (hr : Reader.Consumes IsAddrChar r) :
    Reader.Consumes IsAddrChar (readSeparator sep first r) := by
  rw [readSeparator]
  split_ifs
  · exact hr
  · exact (token hsep).andThen fun _ => hr

lemma consumes_readIpv4Addr : Reader.Consumes IsAddrChar readIpv4Addr := by
  have hsep : ∀ first, Reader.Consumes IsAddrChar (readSeparator '.' first readOctet) :=
    fun first => consumes_readSeparator (.inr (.inl rfl)) first
      (consumes_readNumber (by decide) _ _ _)
  exact (hsep true).andThen fun a => (hsep false).andThen fun b => (hsep false).andThen fun c =>
    (hsep false).andThen fun d => succeed _

lemma readGroups_consumes (left : Nat) (first : Bool) (s : List Char) :
    ∃ read, s = read ++ (readGroups left first s).2 ∧ ∀ c ∈ read, IsAddrChar c := by
  have hcolon : IsAddrChar ':' := .inr (.inr rfl)
  induction left generalizing first s with
  | zero => exact ⟨[], rfl, by simp⟩
  | succ left ih =>
    simp only [readGroups]
    split
    · -- an embedded IPv4 address ends the run
      rename_i a rest ha
      split_ifs at ha
      exact consumes_readSeparator hcolon first consumes_readIpv4Addr s a rest ha
    · split
      · rename_i g rest hg
        obtain ⟨read₁, rfl, h₁⟩ := consumes_readSeparator hcolon first
          (consumes_readNumber le_rfl 4 true 65536) s g rest hg
        obtain ⟨read₂, hrest, h₂⟩ := ih false rest
        refine ⟨read₁ ++ read₂, by rw [append_assoc, ← hrest], ?_⟩
        intro c hc
        rcases mem_append.mp hc with hc | hc
        · exact h₁ c hc
        · exact h₂ c hc
      · exact ⟨[], rfl, by simp⟩

lemma consumes_readIpv6Addr : Reader.Consumes IsAddrChar readIpv6Addr := by
  have hcolon : IsAddrChar ':' := .inr (.inr rfl)
  intro s v rest h
  obtain ⟨read₁, hfront, h₁⟩ := readGroups_consumes 8 true s
  simp only [readIpv6Addr] at h
  split_ifs at h
  · cases h
    exact ⟨read₁, hfront, h₁⟩
  · have hback : Reader.Consumes IsAddrChar (andThen (token ':') (fun _ =>
        andThen (token ':') fun _ rest =>
          let back := readGroups (8 - ((readGroups 8 true s).1.1.length + 1)) true rest
          let zeros := List.replicate (8 - ((readGroups 8 true s).1.1.length + back.1.1.length)) 0
          some (ipv6OfGroups ((readGroups 8 true s).1.1 ++ zeros ++ back.1.1), back.2))) := by
      refine (token hcolon).andThen fun _ =>
        (token hcolon).andThen fun _ => ?_
      intro s' v' rest' h'
      cases h'
      exact readGroups_consumes _ true s'
    obtain ⟨read₂, hrest, h₂⟩ := hback _ v rest h
    refine ⟨read₁ ++ read₂, by rw [append_assoc, ← hrest, ← hfront], ?_⟩
    intro c hc
    rcases mem_append.mp hc with hc | hc
    · exact h₁ c hc
    · exact h₂ c hc

lemma isAddrChar_of_parseIpAddr {s : List Char} {a : IpAddr} (h : parseIpAddr s = some a) :
    ∀ c ∈ s, IsAddrChar c :=
  complete
    ((consumes_readIpv4Addr.andThen fun a => succeed (IpAddr.v4 a)).orElse
      (consumes_readIpv6Addr.andThen fun a => succeed (IpAddr.v6 a))) h

theorem slash_not_mem_of_parseIpAddr {s : List Char} {a : IpAddr} (h : parseIpAddr s = some a) :
    '/' ∉ s := by
  intro hslash
  rcases isAddrChar_of_parseIpAddr h '/' hslash with h | h | h
  · exact absurd h (by decide)
  · exact absurd h (by decide)
  · exact absurd h (by decide)

/-! ### The `ipnet` crate -/

/-- What the gateway uses of `ipnet`. -/
structure IpNetCrate (Net : Type) where
  fromStr : List Char → Option Net
  new : IpAddr → Nat → Option Net
  ofAddr : IpAddr → Net
  containsAddr : Net → IpAddr → Bool
  containsNet : Net → Net → Bool

/-- A network is written with a slash, and contains an address exactly if it contains the network
of that address alone. -/
structure IpNetCrate.Lawful {Net : Type} (net : IpNetCrate Net) : Prop where
  slash_mem_of_fromStr : ∀ s n, net.fromStr s = some n → '/' ∈ s
  containsNet_ofAddr : ∀ n a, net.containsNet n (net.ofAddr a) = net.containsAddr n a

/-- A network has addresses of one family only. -/
structure IpNetCrate.OneFamily {Net : Type} (net : IpNetCrate Net) : Prop where
  not_v6_of_v4 : ∀ n a b, net.containsAddr n (.v4 a) = true → net.containsAddr n (.v6 b) = false

def parseIpOrCidr {Net : Type} (net : IpNetCrate Net) (s : List Char) : Option Net :=
  match net.fromStr (trim s) with
  | some n => some n
  | none   => (parseIpAddr (trim s)).map net.ofAddr

def IpAddr.width : IpAddr → Nat
  | .v4 _ => 32
  | .v6 _ => 128

/-- An address with a prefix length that its family allows. -/
structure IpNet where
  addr : IpAddr
  len : Nat
  len_le : len ≤ addr.width
deriving DecidableEq

open IpNet

namespace IpNet

def new (a : IpAddr) (len : Nat) : Option IpNet :=
  if h : len ≤ a.width then some ⟨a, len, h⟩ else none

def ofAddr (a : IpAddr) : IpNet := ⟨a, a.width, le_rfl⟩

/-- An address of the standard library with a length of two digits at most, or of three for IPv6.
The crate reads octets with leading zeros too. -/
def fromStr (s : List Char) : Option IpNet :=
  match s.dropWhile (· != '/') with
  | _ :: mask => do
    let a ← parseIpAddr (s.takeWhile (· != '/'))
    let len ← complete
      (match a with
      | .v4 _ => readNumber 10 2 true 33
      | .v6 _ => readNumber 10 3 true 129) mask
    new a len
  | [] => none

def containsAddr (n : IpNet) (a : IpAddr) : Bool :=
  match n.addr, a with
  | .v4 x, .v4 y => x.toNat >>> (32 - n.len) == y.toNat >>> (32 - n.len)
  | .v6 x, .v6 y => x.toNat >>> (128 - n.len) == y.toNat >>> (128 - n.len)
  | _, _ => false

def containsNet (n m : IpNet) : Bool := n.len ≤ m.len && n.containsAddr m.addr

end IpNet

def ipNetCrate : IpNetCrate IpNet where
  fromStr := fromStr
  new := new
  ofAddr := ofAddr
  containsAddr := containsAddr
  containsNet := containsNet

lemma ipNetCrate_oneFamily : ipNetCrate.OneFamily where
  not_v6_of_v4 n a b h := by
    simp only [ipNetCrate, containsAddr] at h ⊢
    cases hn : n.addr with
    | v4 x => rfl
    | v6 x => simp [hn] at h

theorem ipNetCrate_lawful : ipNetCrate.Lawful where
  slash_mem_of_fromStr := by
    intro s n h
    simp only [ipNetCrate, fromStr] at h
    split at h
    · rename_i c mask hdrop
      have hc : c = '/' := by
        have := head?_dropWhile_not (fun c => c != '/') s
        rw [hdrop] at this
        simpa using this
      have hmem : c ∈ s.dropWhile (· != '/') := by
        rw [hdrop]
        exact mem_cons_self
      rw [← hc]
      exact (dropWhile_sublist _).subset hmem
    · cases h
  containsNet_ofAddr := by
    intro n a
    have hle := n.len_le
    simp only [ipNetCrate, containsNet, ofAddr]
    cases hn : n.addr <;> cases a <;> simp_all [containsAddr, IpAddr.width]

end Conrogate
