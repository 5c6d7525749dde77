import Conrogate.Gateway.Route
import Conrogate.Protocol.ClientHello
import Conrogate.Protocol.Tcp

/-!
# TLS passthrough

The gateway looks once at what has arrived of the ClientHello, so it sees the server name only if
the message is there by then.
-/

namespace Conrogate

open Wire List

variable {P Re : Type}

def peekSize : Nat := 4096

def peek (arrived : List UInt8) : List UInt8 := arrived.take peekSize

def passthroughSni : Option (List UInt8) → Checked (Option String)
  | some buf => if 5 ≤ buf.length then extractSniFromClientHello buf else return none
  | none => return none

def passthroughConnection (listenAddr clientIp : String) (peeked : Option (List UInt8)) :
    Checked TcpConnection := do
  let sni ← passthroughSni peeked
  return ⟨listenAddr, sni, clientIp⟩

def passthroughRoute (rx : RegexCrate Re) (table : RouteTable Re) (listenAddr clientIp : String)
    (peeked : Option (List UInt8)) : Checked (Option RouteSnapshot) := do
  let conn ← passthroughConnection listenAddr clientIp peeked
  return table.matchRoute rx .tcpTunnel (.fromTunnel conn.listenAddr conn.sni)

def servePassthrough (tcpHandler : Option (TcpTunnelProtocolHandler P)) (env : ExchangeEnv)
    (listenAddr clientIp : String) (peeked : Option (List UInt8)) :
    Checked (Option (Handler Unit)) := do
  let conn ← passthroughConnection listenAddr clientIp peeked
  return tcpHandler.map fun t => t.handle env conn

/-- The segments in which a stream comes, and how many of them have come when `peek` returns: it
waits for the first. -/
structure Segmentation (stream : List UInt8) where
  segments : List (List UInt8)
  count : Nat
  flatten_segments : segments.flatten = stream
  segments_ne : ∀ segment ∈ segments, segment ≠ []
  count_pos : 0 < count
  count_le : count ≤ segments.length

open Segmentation

namespace Segmentation

variable {stream : List UInt8}

def arrived (d : Segmentation stream) : List UInt8 := (d.segments.take d.count).flatten

lemma peek_arrived (d : Segmentation stream) :
    peek d.arrived = stream.take (min peekSize d.arrived.length) := by
  have hsplit : stream = d.arrived ++ (d.segments.drop d.count).flatten := by
    rw [arrived, ← flatten_append, take_append_drop, d.flatten_segments]
  have harrived : d.arrived = stream.take d.arrived.length :=
    prefix_iff_eq_take.mp ⟨_, hsplit.symm⟩
  calc peek d.arrived
      = (stream.take d.arrived.length).take peekSize := congrArg (List.take peekSize) harrived
    _ = stream.take (min peekSize d.arrived.length) := take_take

def whole (stream : List UInt8) (h : stream ≠ []) : Segmentation stream where
  segments := [stream]
  count := 1
  flatten_segments := by simp
  segments_ne := by simpa using h
  count_pos := Nat.one_pos
  count_le := le_rfl

def cut (stream : List UInt8) (n : Nat) (h : 0 < n ∧ n < stream.length) : Segmentation stream where
  segments := [stream.take n, stream.drop n]
  count := 1
  flatten_segments := by simp
  segments_ne := by
    have hne : stream ≠ [] := List.ne_nil_of_length_pos (h.1.trans h.2)
    simp [hne, h.1.ne', h.2]
  count_pos := Nat.one_pos
  count_le := by simp

end Segmentation

section

variable {hello : ClientHello} {later stream : List UInt8}

lemma ClientHello.encode_ne_nil (hello : ClientHello) : hello.encode ≠ [] := cons_ne_nil _ _

lemma ClientHello.five_le_length_encode (hello : ClientHello) : 5 ≤ hello.encode.length := by
  simp [encode, vec16]

lemma ClientHello.sniOf_take {n : Nat} (hn : n < hello.encode.length) :
    sniOf (hello.encode.take n) = none := by
  rw [encode] at hn ⊢
  obtain _ | _ | _ | n := n
  · rfl
  · rfl
  · rfl
  · rw [take_succ_cons, take_succ_cons, take_succ_cons, sniOf, if_pos rfl,
      readVec16_take hello.encodeHandshake_lt (by simpa using hn)]
    rfl

lemma passthroughSni_peek (hstream : stream = hello.encode ++ later) (d : Segmentation stream)
    (hlen : hello.encode.length ≤ peekSize) :
    passthroughSni (some (peek d.arrived)) =
      .ok (if hello.encode.length ≤ d.arrived.length then hello.serverName else none) := by
  subst hstream
  by_cases hwhole : hello.encode.length ≤ d.arrived.length
  · have hmin : hello.encode.length ≤ min peekSize d.arrived.length := le_min hlen hwhole
    have hfive := hello.five_le_length_encode
    rw [passthroughSni, d.peek_arrived, take_append, take_of_length_le hmin,
      if_pos (by rw [length_append]; omega), if_pos hwhole, extractSniFromClientHello_eq,
      hello.sniOf_encode]
  · have hmin : min peekSize d.arrived.length = d.arrived.length := by omega
    rw [passthroughSni, d.peek_arrived, hmin, take_append_of_le_length (by omega),
      if_neg hwhole, extractSniFromClientHello_eq, ClientHello.sniOf_take (not_le.mp hwhole)]
    split_ifs <;> rfl

end

def hostTable (host : String) : RouteTable Re where
  routes := fun _ => some [{
    snapshot := ⟨1, .tcpTunnel, some 1, none, false, false, [], false⟩
    conditions := ⟨.prefixed "", none, some host, [], []⟩
    priority := 0
    compiled := ⟨none, [], []⟩ }]
  needsHeaders := fun _ => none

lemma isSome_matchRoute_hostTable (rx : RegexCrate Re) (host listenAddr : String)
    (sni : Option String) :
    ((hostTable host).matchRoute rx .tcpTunnel (.fromTunnel listenAddr sni)).isSome =
      sni.any (matchHost host) := by
  have hfind : ∀ sni, matchesConditions rx ⟨.prefixed "", none, some host, [], []⟩ ⟨none, [], []⟩
      (.fromTunnel listenAddr sni) = sni.any (matchHost host) := by
    intro sni
    cases sni <;> simp [matchesConditions, matchPath, startsWith, matchMethod, matchHostCondition,
      RouteMatchInfo.fromTunnel]
  simp only [RouteTable.matchRoute, hostTable, Option.bind_some, List.find?, hfind]
  cases sni.any (matchHost host) <;> rfl

lemma matchHost_self (host : String) : matchHost host host = true := by
  rw [matchHost, if_pos (by simp [eqIgnoreAsciiCase, eqIgnoreCase])]

end Conrogate
