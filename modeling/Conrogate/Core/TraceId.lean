import Conrogate.Core.Http

/-!
# Trace identifiers

A request is traced under the `x-trace-id` of the client if that is usable, and otherwise under an
identifier that the gateway makes up.
-/

namespace Conrogate

open List

open HeaderValue (IsVisible)

/-! ### Identifiers of the gateway -/

def hexChars : List Char := "0123456789abcdef".toList

def hexDigit (n : Nat) : Char := hexChars.getD n '0'

def beByte (w i : Nat) : Nat := w / 256 ^ (7 - i) % 256

def traceIdByte (seed now ctr i : Nat) : Nat :=
  let low := (now &&& 0xFFFFFFFFF) <<< 20 ||| (ctr &&& 0xFFFFF)
  let b := if i < 8 then beByte seed i else beByte low (i - 8)
  if i = 6 then b &&& 0x0F ||| 0x40
  else if i = 8 then b &&& 0x3F ||| 0x80
  else b

def generateTraceId (seed now ctr : Nat) : String :=
  String.ofList ((List.range 16).flatMap fun i =>
    (if i ∈ [4, 6, 8, 10] then ['-'] else []) ++
      [hexDigit (traceIdByte seed now ctr i / 16), hexDigit (traceIdByte seed now ctr i % 16)])

def Generated (s : String) : Prop := ∃ seed now ctr, s = generateTraceId seed now ctr

lemma isVisible_hexDigit (n : Nat) : IsVisible (hexDigit n) := by
  have hall : (hexChars.all fun c => 32 ≤ c.toNat ∧ c.toNat < 127) = true := by decide +kernel
  rw [hexDigit, getD_eq_getElem?_getD]
  cases hn : hexChars[n]? with
  | none => exact .inl (by decide)
  | some c => exact .inl (by simpa using all_eq_true.mp hall c (mem_of_getElem? hn))

lemma Generated.isVisible {s : String} (h : Generated s) : ∀ c ∈ s.toList, IsVisible c := by
  obtain ⟨seed, now, ctr, rfl⟩ := h
  intro c hc
  rw [generateTraceId, String.toList_ofList, mem_flatMap] at hc
  obtain ⟨i, -, hc⟩ := hc
  rw [mem_append] at hc
  obtain hc | hc := hc
  · split_ifs at hc
    · rw [mem_singleton.mp hc]
      exact .inl (by decide)
    · cases hc
  · simp only [mem_cons, not_mem_nil, or_false] at hc
    obtain rfl | rfl := hc
    · exact isVisible_hexDigit _
    · exact isVisible_hexDigit _

/-! ### Identifiers of clients -/

def clientTraceId (headers : HeaderMap) : Option String :=
  ((headers.get "x-trace-id").bind HeaderValue.toStr).bind fun s =>
    if (trim s.toList).isEmpty then none else some (String.ofList (trim s.toList))

lemma isVisible_of_clientTraceId {headers : HeaderMap} {s : String}
    (h : clientTraceId headers = some s) : ∀ c ∈ s.toList, IsVisible c := by
  obtain ⟨text, htext, h⟩ := Option.bind_eq_some_iff.mp h
  obtain ⟨v, -, hv⟩ := Option.bind_eq_some_iff.mp htext
  split_ifs at h
  obtain rfl := Option.some.inj h
  intro c hc
  rw [String.toList_ofList] at hc
  exact HeaderValue.isVisible_of_toStr hv c (mem_of_mem_trim hc)

end Conrogate
