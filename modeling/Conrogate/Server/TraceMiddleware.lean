import Conrogate.Gateway.TraceId

/-!
# The trace middleware of the control plane

The middleware writes the identifier of a request into its response, into the header and into the
body. It takes the body out of the response to look into it, and puts back only what it changed.
-/

namespace Conrogate

open Option

variable {V : Type}

/-- What the middleware uses of `serde_json`; an object is the list of its members, with different
keys. -/
structure SerdeJson (V : Type) where
  fromSlice : List UInt8 → Option V
  toVec : V → List UInt8
  asObject : V → Option (List (String × V))
  object : List (String × V) → V
  string : String → V

structure ServerResponse where
  status : Nat
  headers : HeaderMap
  body : List UInt8

/-- `Map::insert` with a key that is there. -/
def replaceMember (members : List (String × V)) (key : String) (v : V) : List (String × V) :=
  members.map fun m => if m.1 = key then (key, v) else m

def rewriteEnvelopeTraceId (json : SerdeJson V) (body : List UInt8) (traceId : String) :
    Option (List UInt8) := do
  let value ← json.fromSlice body
  let members ← json.asObject value
  if (members.map (·.1)).contains "trace_id" then
    some (json.toVec (json.object (replaceMember members "trace_id" (json.string traceId))))
  else none

/-- What the handlers get: the request with the identifier in its headers, and the extension. -/
def traceMiddleware (json : SerdeJson V) (next : HttpRequest → String → ServerResponse)
    (req : HttpRequest) (generated : String) : ServerResponse :=
  let traceId := traceIdFromHeaders req.headers generated
  let resp := next { req with headers := req.headers.insertText "x-trace-id" traceId } traceId
  { resp with
    headers := resp.headers.insertText "x-trace-id" traceId
    -- `mem::take` has left nothing
    body := (rewriteEnvelopeTraceId json resp.body traceId).getD [] }

/-- The body is an object with these members, `trace_id` among them. -/
def IsEnvelope (json : SerdeJson V) (body : List UInt8) (members : List (String × V)) : Prop :=
  (json.fromSlice body).bind json.asObject = some members ∧ "trace_id" ∈ members.map (·.1)

lemma rewriteEnvelopeTraceId_eq_some {json : SerdeJson V} {body : List UInt8}
    {members : List (String × V)} (h : IsEnvelope json body members) (traceId : String) :
    rewriteEnvelopeTraceId json body traceId =
      some (json.toVec (json.object (replaceMember members "trace_id" (json.string traceId)))) := by
  obtain ⟨value, hvalue, hmembers⟩ := bind_eq_some_iff.mp h.1
  simp only [rewriteEnvelopeTraceId, hvalue, hmembers, bind_eq_bind, bind_some]
  exact if_pos (List.contains_iff_mem.mpr h.2)

lemma rewriteEnvelopeTraceId_eq_none {json : SerdeJson V} {body : List UInt8}
    (h : ¬ ∃ members, IsEnvelope json body members) (traceId : String) :
    rewriteEnvelopeTraceId json body traceId = none := by
  simp only [rewriteEnvelopeTraceId, bind_eq_bind, bind_eq_none_iff]
  intro value hvalue members hmembers
  refine if_neg fun hkey => h ⟨members, ?_, List.contains_iff_mem.mp hkey⟩
  rw [hvalue, bind_some, hmembers]

/-- Status and other headers are those of the inner response. Its body is rewritten as intended,
or else kept, exactly if it is an envelope or empty. -/
theorem traceMiddleware_keeps_iff (json : SerdeJson V)
    (next : HttpRequest → String → ServerResponse) (req : HttpRequest) (seed now ctr : Nat) :
    let traceId := traceIdFromHeaders req.headers (generateTraceId seed now ctr)
    let inner := next { req with headers := req.headers.insertText "x-trace-id" traceId } traceId
    let resp := traceMiddleware json next req (generateTraceId seed now ctr)
    (resp.status = inner.status ∧
      (∀ name, name ≠ "x-trace-id" → resp.headers.getAll name = inner.headers.getAll name) ∧
      resp.headers.getAll "x-trace-id" = [.ofString traceId] ∧
      (∀ members, IsEnvelope json inner.body members → resp.body =
        json.toVec (json.object (replaceMember members "trace_id" (json.string traceId)))) ∧
      ((¬ ∃ members, IsEnvelope json inner.body members) → resp.body = inner.body)) ↔
      (∃ members, IsEnvelope json inner.body members) ∨ inner.body = [] := by
  intro traceId inner resp
  have hparse : HeaderValue.parse traceId = some (.ofString traceId) :=
    parse_traceIdFromHeaders req.headers ⟨seed, now, ctr, rfl⟩
  have hother : ∀ name, name ≠ "x-trace-id" →
      resp.headers.getAll name = inner.headers.getAll name := fun name hne =>
    HeaderMap.getAll_insertText_of_ne _ hne.symm _
  have hself : resp.headers.getAll "x-trace-id" = [.ofString traceId] :=
    HeaderMap.getAll_insertText_self _ hparse _
  have hbody : resp.body = (rewriteEnvelopeTraceId json inner.body traceId).getD [] := rfl
  constructor
  · rintro ⟨-, -, -, -, hkept⟩
    by_cases henvelope : ∃ members, IsEnvelope json inner.body members
    · exact .inl henvelope
    · refine .inr ((hkept henvelope).symm.trans ?_)
      rw [hbody, rewriteEnvelopeTraceId_eq_none henvelope, Option.getD_none]
  · intro h
    refine ⟨rfl, hother, hself, fun members hmembers => ?_, fun hno => ?_⟩
    · rw [hbody, rewriteEnvelopeTraceId_eq_some hmembers, Option.getD_some]
    · rw [hbody, rewriteEnvelopeTraceId_eq_none hno, h.resolve_left hno, Option.getD_none]

/-- The OpenAPI document, or any other object without an identifier, is lost. -/
theorem traceMiddleware_drops_body :
    let json : SerdeJson (List UInt8) :=
      ⟨some, id, fun _ => some [], fun _ => bytes "\x7b\x7d", bytes⟩
    (traceMiddleware json (fun _ _ => ⟨200, [], bytes "\x7b\x7d"⟩)
      ⟨"GET", ⟨"/openapi.json", none⟩, none, [], []⟩ "id").body = [] := by
  decide +kernel

end Conrogate
