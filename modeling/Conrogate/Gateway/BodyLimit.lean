import Conrogate.Gateway.Dispatch
import Conrogate.Gateway.WebSocket

/-!
# The limit on the body of a request

`max_body_bytes` is kept in two ways. A body that passes through is only judged by its announced
length; a body that is read into memory is judged by its length once it has been read.
-/

namespace Conrogate

open List Dispatch

variable {Re Net P : Type}

inductive Framing where
  | contentLength
  | chunked
deriving DecidableEq

inductive BodyEnd where
  | complete
  | failed
  | timedOut

/-- The body of a request as `hyper` delivers it. Under `Content-Length` it is no longer than
announced. -/
structure IncomingBody (req : HttpRequest) where
  framing : Framing
  chunks : List (List UInt8)
  finish : BodyEnd
  wellFramed : framing = .contentLength →
    ∃ n, announcedLength req = some n ∧ chunks.flatten.length ≤ n

structure Delivery (Re Net P : Type) where
  rx : RegexCrate Re
  table : RouteTable Re
  maxBodyBytes : Nat
  h : HttpProtocolHandler Net P
  clientIp : String
  req : HttpRequest
  body : IncomingBody req
  upgraded : Bool

namespace Delivery

variable (d : Delivery Re Net P) (env : ExchangeEnv)

def head : DispatchStage := Dispatch.processHead d.rx d.maxBodyBytes d.req d.table

def received : List UInt8 := d.body.chunks.flatten

def outcome : BodyOutcome :=
  match d.body.finish with
  | .complete => .collected d.received.length
  | .failed   => .readError
  | .timedOut => .timedOut

def streamedExchange (route : RouteSnapshot) : HttpExchange Net P where
  h := d.h
  req := d.req
  clientIp := d.clientIp
  matchInfo := (d.table.matchHttpRequest d.rx d.req.method d.req.uri d.req.headers).2
  mode := .streamed route
  upgraded := d.upgraded

def bufferedExchange (preMatched : Option RouteSnapshot) (info : RouteMatchInfo) :
    HttpExchange Net P where
  h := d.h
  req := { d.req with body := d.received }
  clientIp := d.clientIp
  matchInfo := info
  mode := .buffered preMatched
  upgraded := d.upgraded

def exchange : Option (HttpExchange Net P) :=
  match d.head with
  | .streaming route => some (d.streamedExchange route)
  | .collecting preMatched info =>
    match Dispatch.afterBody d.maxBodyBytes preMatched info d.outcome with
    | .collected preMatched info => some (d.bufferedExchange preMatched info)
    | _ => none
  | _ => none

def log : List Effect := (d.exchange.map fun x => x.log env).getD []

def sentBytes (passed : Nat) : Effect → Nat
  | .forwardHttp _ out => (out.body.getD (d.body.chunks.take passed).flatten).length
  | _ => 0

def heldBytes (k : Nat) : Nat := (d.body.chunks.take k).flatten.length

/-- The limit holds: no request to an upstream carries more of the body, and a body that is read
exceeds it by no more than the chunk that has come last. -/
structure WithinLimit : Prop where
  sent : ∀ passed, ∀ w ∈ d.log env, d.sentBytes passed w ≤ d.maxBodyBytes
  held : ∀ preMatched info, d.head = .collecting preMatched info →
    ∀ k chunk, d.body.chunks[k]? = some chunk →
      d.heldBytes (k + 1) ≤ d.maxBodyBytes + chunk.length

def PassesThrough (route : RouteSnapshot) : Prop :=
  let m := (d.streamedExchange route).requestMeta env
  d.h.svc.isBlocked m.realIp = false ∧
    ∃ ctx node uri, d.h.Reaches d.req m none route ctx node uri

/-! ### A body in memory -/

lemma heldBytes_succ {k : Nat} {chunk : List UInt8} (h : d.body.chunks[k]? = some chunk) :
    d.heldBytes (k + 1) = d.heldBytes k + chunk.length := by
  obtain ⟨hk, rfl⟩ := List.getElem?_eq_some_iff.mp h
  rw [heldBytes, take_succ_eq_append_getElem hk, flatten_append, length_append,
    flatten_singleton, heldBytes]

lemma heldBytes_mono {j k : Nat} (h : j ≤ k) : d.heldBytes j ≤ d.heldBytes k := by
  obtain ⟨rest, hrest⟩ := take_prefix_take_left (l := d.body.chunks) h
  rw [heldBytes, heldBytes, ← hrest, flatten_append, length_append]
  exact Nat.le_add_right _ _

lemma heldBytes_le_received (k : Nat) : d.heldBytes k ≤ d.received.length := by
  have hall : d.heldBytes (max k d.body.chunks.length) = d.received.length := by
    rw [heldBytes, received, take_of_length_le (le_max_right _ _)]
  exact (d.heldBytes_mono (le_max_left k _)).trans hall.le

lemma held_iff :
    (∀ k chunk, d.body.chunks[k]? = some chunk →
      d.heldBytes (k + 1) ≤ d.maxBodyBytes + chunk.length) ↔
    d.heldBytes (d.body.chunks.length - 1) ≤ d.maxBodyBytes := by
  constructor
  · intro hheld
    cases hlast : d.body.chunks[d.body.chunks.length - 1]? with
    | none =>
      have hlen := List.getElem?_eq_none_iff.mp hlast
      have hnil : d.body.chunks.length = 0 := by omega
      simp [heldBytes, hnil]
    | some chunk =>
      have hle := hheld _ chunk hlast
      rw [d.heldBytes_succ hlast] at hle
      exact Nat.le_of_add_le_add_right hle
  · intro hle k chunk hchunk
    obtain ⟨hk, -⟩ := List.getElem?_eq_some_iff.mp hchunk
    rw [d.heldBytes_succ hchunk]
    exact Nat.add_le_add_right ((d.heldBytes_mono (Nat.le_pred_of_lt hk)).trans hle) _

/-! ### What upstreams get -/

section

variable {route : RouteSnapshot} (hhead : d.head = .streaming route)
include hhead

lemma received_le_of_contentLength (hframing : d.body.framing = .contentLength) :
    d.received.length ≤ d.maxBodyBytes := by
  obtain ⟨n, hn, hle⟩ := d.body.wellFramed hframing
  have hannounced : announcesTooMuch d.maxBodyBytes d.req ≠ true := by
    intro hmuch
    simp only [head, processHead, hmuch, if_true] at hhead
    split at hhead
    · cases hhead
    · split at hhead
      · split_ifs at hhead
      · cases hhead
  rw [announcesTooMuch, hn] at hannounced
  have hlimit : n ≤ d.maxBodyBytes := by simpa using hannounced
  exact hle.trans hlimit

lemma log_of_streaming :
    d.log env = (d.streamedExchange route).log env := by
  rw [log, exchange, hhead]
  rfl

lemma sent_of_streaming :
    (∀ passed, ∀ w ∈ d.log env, d.sentBytes passed w ≤ d.maxBodyBytes) ↔
      (d.body.framing = .chunked → d.PassesThrough env route →
        d.received.length ≤ d.maxBodyBytes) := by
  rw [d.log_of_streaming env hhead]
  constructor
  · rintro hsent - ⟨hwelcome, ctx, node, uri, hreach⟩
    have hmem := (d.streamedExchange route).forwardHttp_mem_respond env hwelcome rfl hreach
    have hle := hsent d.body.chunks.length _
      (((d.streamedExchange route).mem_log_iff env (by simp)).mpr hmem)
    rwa [sentBytes, take_length] at hle
  · intro hchunked passed w hw
    cases w with
    | forwardHttp node out =>
      obtain ⟨hwelcome, hbody, route', hroute, hreach⟩ :=
        (d.streamedExchange route).reaches_of_mem_log env hw
      obtain rfl : route = route' := Except.ok.inj hroute
      have hall : d.received.length ≤ d.maxBodyBytes := by
        cases hframing : d.body.framing with
        | contentLength => exact d.received_le_of_contentLength hhead hframing
        | chunked => exact hchunked hframing ⟨hwelcome, hreach⟩
      rw [sentBytes, hbody]
      exact (d.heldBytes_le_received passed).trans hall
    | _ => exact Nat.zero_le _

end

lemma sent_of_collecting {preMatched : Option RouteSnapshot} {info : RouteMatchInfo}
    (hhead : d.head = .collecting preMatched info) (passed : Nat) :
    ∀ w ∈ d.log env, d.sentBytes passed w ≤ d.maxBodyBytes := by
  intro w hw
  rw [log, exchange, hhead, outcome] at hw
  cases hfinish : d.body.finish with
  | failed =>
    rw [hfinish] at hw
    cases hw
  | timedOut =>
    rw [hfinish] at hw
    cases hw
  | complete =>
    by_cases hmuch : d.maxBodyBytes < d.received.length
    · simp [hfinish, afterBody, hmuch] at hw
    · simp only [hfinish, afterBody, hmuch, if_false] at hw
      replace hw : w ∈ (d.bufferedExchange preMatched info).log env := hw
      cases w with
      | forwardHttp node out =>
        obtain ⟨-, hbody, -⟩ := (d.bufferedExchange preMatched info).reaches_of_mem_log env hw
        rw [sentBytes, hbody]
        exact not_lt.mp hmuch
      | _ => exact Nat.zero_le _

/-- The limit holds exactly when a forwarded body of unknown length keeps to it by itself, and a
body that is read keeps to it up to its last chunk. -/
theorem within_limit_iff : d.WithinLimit env ↔
    (∀ route, d.head = .streaming route → d.body.framing = .chunked →
      d.PassesThrough env route → d.received.length ≤ d.maxBodyBytes) ∧
    (∀ preMatched info, d.head = .collecting preMatched info →
      d.heldBytes (d.body.chunks.length - 1) ≤ d.maxBodyBytes) := by
  constructor
  · rintro ⟨hsent, hheld⟩
    exact ⟨fun route hhead => (d.sent_of_streaming env hhead).mp hsent,
      fun preMatched info hhead => d.held_iff.mp (hheld preMatched info hhead)⟩
  · rintro ⟨hstream, hcollect⟩
    refine ⟨?_, fun preMatched info hhead => d.held_iff.mpr (hcollect preMatched info hhead)⟩
    cases hhead : d.head with
    | streaming route => exact (d.sent_of_streaming env hhead).mpr (hstream route hhead)
    | collecting preMatched info => exact fun passed => d.sent_of_collecting env hhead passed
    | _ =>
      intro passed w hw
      rw [log, exchange, hhead] at hw
      cases hw

def oneRoute : RouteTable Unit :=
  loadWithBindings noRegex [simpleRoute 2 .http "/" 1 []] [] fun _ => false

def postRequest : HttpRequest := ⟨"POST", ⟨"/a", none⟩, some "/a", [], []⟩

def onlyRoute : RouteSnapshot := ⟨2, .http, some 1, none, false, true, [], false⟩

lemma processHead_oneRoute : processHead noRegex 2 postRequest oneRoute = .streaming onlyRoute :=
  rfl

def chunkedDelivery (table : RouteTable Unit) (answer : Result ProxyResult)
    (chunks : List (List UInt8)) : Delivery Unit IpNet Unit :=
  ⟨noRegex, table, 2, openHandler (.ok openNode) answer, "1.2.3.4", postRequest,
    ⟨.chunked, chunks, .complete, nofun⟩, false⟩

/-- A limit of two bytes. A chunked body of three is forwarded as it comes, and one of four is
read to its end. -/
theorem body_exceeds_limit :
    let streamed := chunkedDelivery oneRoute (.ok ⟨200, [], []⟩) [[1, 2], [3]]
    let buffered := chunkedDelivery noRoutes (.ok ⟨200, [], []⟩) [[1], [2, 3], [4]]
    (∃ w ∈ streamed.log openEnv, streamed.sentBytes 2 w = 3) ∧ buffered.heldBytes 3 = 4 ∧
    ¬ streamed.WithinLimit openEnv ∧ ¬ buffered.WithinLimit openEnv := by
  intro streamed buffered
  have hsent : ∃ w ∈ streamed.log openEnv, streamed.sentBytes 2 w = 3 := by
    let x := streamed.streamedExchange onlyRoute
    have hreach : x.h.Reaches postRequest (x.requestMeta openEnv) none onlyRoute _ openNode _ :=
      ⟨⟨rfl, rfl, rfl⟩, rfl, rfl, rfl, rfl⟩
    have hmem := x.forwardHttp_mem_respond openEnv rfl rfl hreach
    rw [← x.mem_log_iff openEnv (by simp),
      ← streamed.log_of_streaming openEnv processHead_oneRoute] at hmem
    exact ⟨_, hmem, rfl⟩
  refine ⟨hsent, rfl, ?_, ?_⟩
  · rintro ⟨hlimit, -⟩
    obtain ⟨w, hw, hthree⟩ := hsent
    have hle := hlimit 2 w hw
    rw [hthree] at hle
    exact absurd hle (by decide)
  · rintro ⟨-, hheld⟩
    have hle := hheld none _ rfl 2 [4] rfl
    exact absurd hle (by decide)

end Delivery

end Conrogate
