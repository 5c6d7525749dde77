import Conrogate.Core.Text
import Conrogate.Lib.Delimited

/-!
# The upgrade with the upstream

`forward_websocket` reads the answer of the upstream in reads of 256 bytes, checks its status line,
and then copies to the client.
-/

namespace Conrogate

open Delimited List Option

def crlfcrlf : List UInt8 := [13, 10, 13, 10]

def handshakeReadSize : Nat := 256

def maxHandshakeBytes : Nat := 8192

def statusLine (response : List UInt8) : List UInt8 := response.takeWhile (· != 10)

def acceptsUpgrade (response : List UInt8) : Bool :=
  (bytes "HTTP/1.1 101").isPrefixOf (statusLine response) ||
  (bytes "HTTP/1.1 2").isPrefixOf (statusLine response) ||
  (bytes "HTTP/2 101").isPrefixOf (statusLine response) ||
  (bytes "HTTP/2 2").isPrefixOf (statusLine response)

def handshakeError : ReadError → String
  | .closed  => "upstream closed before accepting upgrade"
  | .tooLong => "upgrade response too large"

def copyToClient (bufferSize : Nat) (sizes : Nat → Nat) (c : Collected UInt8) :
    List (List UInt8) :=
  let headerEnd := ((firstAt crlfcrlf c.buffer).map (· + 4)).getD c.buffer.length
  let earlyFrames := c.buffer.drop headerEnd
  let early := if earlyFrames = [] then [] else [earlyFrames]
  early ++ readAll (max bufferSize 1) sizes c.reads c.rest

def forwardWebsocket (bufferSize : Nat) (sizes : Nat → Nat) (upstream : List UInt8) :
    Except String (List (List UInt8)) :=
  match readUntil crlfcrlf handshakeReadSize maxHandshakeBytes sizes 0 [] upstream with
  | .error e => .error (handshakeError e)
  | .ok c =>
    if acceptsUpgrade c.buffer then .ok (copyToClient bufferSize sizes c)
    else .error "upstream rejected websocket upgrade"

section

variable {bufferSize : Nat} {sizes : Nat → Nat} {upstream : List UInt8} {p : Nat}

lemma crlfcrlf_ne_nil : crlfcrlf ≠ [] := cons_ne_nil _ _

lemma acceptsUpgrade_append {buffer : List UInt8} (h : (firstAt crlfcrlf buffer).isSome = true)
    (rest : List UInt8) : acceptsUpgrade (buffer ++ rest) = acceptsUpgrade buffer := by
  obtain ⟨p, hp⟩ := isSome_iff_exists.mp h
  have hmem : 10 ∈ buffer := mem_of_firstAt hp (by decide)
  have hline : statusLine (buffer ++ rest) = statusLine buffer := by
    rw [statusLine, takeWhile_append, if_neg]
    · rfl
    · intro hlength
      have hall := takeWhile_eq_self_iff.mp ((List.takeWhile_prefix _).eq_of_length hlength)
      exact absurd (hall 10 hmem) (by decide)
  rw [acceptsUpgrade, acceptsUpgrade, hline]

lemma isOk_forwardWebsocket :
    (forwardWebsocket bufferSize sizes upstream).isOk =
      ((readUntil crlfcrlf handshakeReadSize maxHandshakeBytes sizes 0 [] upstream).isOk &&
        acceptsUpgrade upstream) := by
  rw [forwardWebsocket]
  cases hread : readUntil crlfcrlf handshakeReadSize maxHandshakeBytes sizes 0 [] upstream with
  | error e => rfl
  | ok c =>
    obtain ⟨happend, hsome⟩ := readUntil_eq_ok hread
    have haccepts := acceptsUpgrade_append hsome c.rest
    rw [happend, nil_append] at haccepts
    simp only [haccepts]
    cases acceptsUpgrade c.buffer <;> rfl

lemma flatten_copyToClient {c : Collected UInt8} (h : firstAt crlfcrlf c.buffer = some p) :
    (copyToClient bufferSize sizes c).flatten = (c.buffer ++ c.rest).drop (p + 4) := by
  have hend : p + 4 ≤ c.buffer.length := le_of_firstAt crlfcrlf_ne_nil h
  have hearly : (if c.buffer.drop (p + 4) = [] then [] else [c.buffer.drop (p + 4)]).flatten =
      c.buffer.drop (p + 4) := by
    split_ifs with hempty <;> simp [hempty]
  simp only [copyToClient, h, map_some, getD_some]
  rw [flatten_append, hearly, flatten_readAll, drop_append_of_le_length hend]

lemma flatten_forwardWebsocket {writes : List (List UInt8)}
    (h : forwardWebsocket bufferSize sizes upstream = .ok writes) :
    ∃ p, firstAt crlfcrlf upstream = some p ∧ writes.flatten = upstream.drop (p + 4) := by
  rw [forwardWebsocket] at h
  cases hread : readUntil crlfcrlf handshakeReadSize maxHandshakeBytes sizes 0 [] upstream with
  | error e =>
    rw [hread] at h
    cases h
  | ok c =>
    obtain ⟨happend, hsome⟩ := readUntil_eq_ok hread
    obtain ⟨p, hp⟩ := isSome_iff_exists.mp hsome
    have hupstream := firstAt_append crlfcrlf_ne_nil hp c.rest
    rw [happend] at hupstream
    refine ⟨p, hupstream, ?_⟩
    simp only [hread] at h
    split_ifs at h
    cases h
    rw [flatten_copyToClient hp, happend, nil_append]

end

def Borderline (upstream : List UInt8) : Prop :=
  acceptsUpgrade upstream = true ∧ ∃ p, firstAt crlfcrlf upstream = some p ∧
    maxHandshakeBytes + 1 < p + 4 ∧ p + 4 ≤ maxHandshakeBytes + handshakeReadSize

/-- The decision is the same for all reads just if the head of the answer does not end between 8194
and 8448 bytes. If it is accepted, the client gets what follows the head. -/
theorem upgrade_decision_iff (bufferSize : Nat) (upstream : List UInt8) :
    ((∀ s₁ s₂, (forwardWebsocket bufferSize s₁ upstream).isOk =
        (forwardWebsocket bufferSize s₂ upstream).isOk) ↔ ¬ Borderline upstream) ∧
    ∀ s writes, forwardWebsocket bufferSize s upstream = .ok writes →
      ∃ p, firstAt crlfcrlf upstream = some p ∧ writes.flatten = upstream.drop (p + 4) ∧
        ∀ j, (writes.take j).flatten <+: upstream.drop (p + 4) := by
  refine ⟨?_, ?_⟩
  · simp only [isOk_forwardWebsocket]
    cases haccepts : acceptsUpgrade upstream with
    | false => simp [Borderline, haccepts]
    | true =>
      simp only [Bool.and_true]
      cases hfirst : firstAt crlfcrlf upstream with
      | none =>
        have herror : ∀ s, (readUntil crlfcrlf handshakeReadSize maxHandshakeBytes s 0 []
            upstream).isOk = false := by
          intro s
          obtain ⟨e, he⟩ : ∃ e, readUntil crlfcrlf handshakeReadSize maxHandshakeBytes s 0 []
              upstream = .error e := readUntil_error_of_eq_none crlfcrlf_ne_nil hfirst
          rw [he]
          rfl
        simp [Borderline, hfirst, herror]
      | some p =>
        rw [isOk_readUntil_const_iff crlfcrlf_ne_nil (by decide) hfirst]
        have hborder : Borderline upstream ↔ maxHandshakeBytes + 1 < p + 4 ∧
            p + 4 ≤ maxHandshakeBytes + handshakeReadSize := by
          simp [Borderline, haccepts, hfirst]
        have hlength : crlfcrlf.length = 4 := rfl
        rw [hborder, hlength]
        omega
  · intro s writes hwrites
    obtain ⟨p, hp, hflatten⟩ := flatten_forwardWebsocket hwrites
    refine ⟨p, hp, hflatten, ?_⟩
    intro j
    rw [← hflatten]
    exact ⟨(writes.drop j).flatten, by rw [← flatten_append, take_append_drop]⟩

lemma acceptsUpgrade_101 (rest : List UInt8) :
    acceptsUpgrade (bytes "HTTP/1.1 101" ++ rest) = true := by
  have hline : bytes "HTTP/1.1 101" <+: statusLine (bytes "HTTP/1.1 101" ++ rest) := by
    rw [statusLine, takeWhile_append_of_pos (by decide +kernel)]
    exact prefix_append _ _
  simp [acceptsUpgrade, isPrefixOf_iff_prefix.mpr hline]

lemma firstAt_crlfcrlf_append {head : List UInt8} (h : ∀ b ∈ head, b ≠ 13) (rest : List UInt8) :
    firstAt crlfcrlf (head ++ (crlfcrlf ++ rest)) = some head.length := by
  have hhere : firstAt crlfcrlf (crlfcrlf ++ rest) = some 0 :=
    if_pos (prefix_append crlfcrlf rest)
  rw [firstAt_append_of_ne crlfcrlf_ne_nil, hhere]
  · simp
  · intro b hb
    simpa [crlfcrlf, eq_comm] using h b hb

theorem upgrade_decision_short :
    let upstream := bytes "HTTP/1.1 101" ++ (crlfcrlf ++ [0x81, 0x00])
    ∃ writes, forwardWebsocket 8192 (fun _ => 1) upstream = .ok writes ∧
      writes.flatten = [0x81, 0x00] := by
  intro upstream
  have hfirst : firstAt crlfcrlf upstream = some 12 :=
    firstAt_crlfcrlf_append (by decide +kernel) [0x81, 0x00]
  have hok : (forwardWebsocket 8192 (fun _ => 1) upstream).isOk = true := by
    obtain ⟨c, hc⟩ : ∃ c, readUntil crlfcrlf handshakeReadSize maxHandshakeBytes (fun _ => 1) 0 []
        upstream = .ok c := readUntil_ok_of_le crlfcrlf_ne_nil hfirst (by decide) (by decide)
    rw [isOk_forwardWebsocket, hc, acceptsUpgrade_101]
    rfl
  cases hwrites : forwardWebsocket 8192 (fun _ => 1) upstream with
  | error e =>
    rw [hwrites] at hok
    cases hok
  | ok writes =>
    obtain ⟨p, hp, hflatten, _⟩ := (upgrade_decision_iff 8192 upstream).2 _ _ hwrites
    rw [hfirst] at hp
    cases hp
    exact ⟨writes, rfl, hflatten.trans (by decide)⟩

/-- The head of this answer ends after 8194 bytes. It is accepted if a full read begins at 8192
bytes, and too large if the bytes are read one by one. -/
theorem upgrade_depends_on_reads :
    let upstream := (bytes "HTTP/1.1 101" ++ List.replicate 8178 32) ++ (crlfcrlf ++ [])
    (forwardWebsocket 8192 (fun k => if k < 8192 then 1 else 256) upstream).isOk = true ∧
    forwardWebsocket 8192 (fun _ => 1) upstream = .error "upgrade response too large" := by
  intro upstream
  have hhead : ∀ b ∈ bytes "HTTP/1.1 101" ++ List.replicate 8178 32, b ≠ 13 := by
    intro b hb
    rcases mem_append.mp hb with hb | hb
    · exact (by decide +kernel : ∀ b ∈ bytes "HTTP/1.1 101", b ≠ 13) b hb
    · rw [eq_of_mem_replicate hb]
      decide
  have hlength : (bytes "HTTP/1.1 101" ++ List.replicate 8178 32).length = 8190 := by
    rw [length_append, length_replicate]
    rfl
  have hfirst : firstAt crlfcrlf upstream = some 8190 :=
    (firstAt_crlfcrlf_append hhead []).trans (congrArg some hlength)
  have haccepts : acceptsUpgrade upstream = true := by
    rw [show upstream = _ from append_assoc _ _ _]
    exact acceptsUpgrade_101 _
  refine ⟨?_, ?_⟩
  · rw [isOk_forwardWebsocket, haccepts, Bool.and_true]
    exact isOk_readUntil_full crlfcrlf_ne_nil (by decide) hfirst (by decide) (by decide)
  · rw [forwardWebsocket, readUntil_one_each crlfcrlf_ne_nil (by decide) hfirst (by decide)]
    rfl

end Conrogate
