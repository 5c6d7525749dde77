import Conrogate.Core.Net
import Conrogate.Protocol.UpstreamUri
import Mathlib.Data.List.DropRight

/-!
# Where the connections to a node go

Requests go to the host and port of a URI that is built from the address of a node. WebSocket
tunnels and health probes take the address itself for a host and a port.
-/

namespace Conrogate

open List

def rsplitOnce (c : Char) : List Char → Option (List Char × List Char)
  | [] => none
  | a :: s =>
    match rsplitOnce c s with
    | some (l, r) => some (a :: l, r)
    | none => if a = c then some ([], s) else none

/-! ### The address as a host and a port -/

def unbracket (h : List Char) : List Char := h.tail.dropLast

def socketHost (h : List Char) : Option (List Char) :=
  match parseIpAddr h, parseIpAddr (unbracket h) with
  | some (.v4 _), _ => some h
  | _, some (.v6 _) => if h = '[' :: unbracket h ++ [']'] then some (unbracket h) else none
  | _, _ => none

/-- `SocketAddr::from_str`, without the zones that no URI has. -/
def parseSocketAddr (s : List Char) : Option (List Char × Nat) :=
  (rsplitOnce ':' s).bind fun (h, p) =>
    if p.all Char.isDigit then
      (parseUnsigned 65535 p).bind fun port => (socketHost h).map fun host => (host, port)
    else none

def lookupTarget (s : List Char) : Option (List Char × Nat) :=
  match parseSocketAddr s with
  | some target => some target
  | none =>
    (rsplitOnce ':' s).bind fun (h, p) => (parseUnsigned 65535 p).map fun port => (h, port)

def resolveTarget (addr : List Char) : Option (List Char × Nat) :=
  match rsplitOnce ':' addr with
  | none => lookupTarget addr
  | some (h, p) =>
    match parseSocketAddr addr with
    | some target => some target
    | none => lookupTarget (h ++ ':' :: p)

/-- The upstream of `forward_websocket`. -/
def websocketTarget (node : UpstreamNodeDto) : Option (List Char × Nat) :=
  resolveTarget node.address.toList

/-- The `TcpStream::connect` of `tcp_probe` and `http_probe`. -/
def probeTarget (node : UpstreamNodeDto) : Option (List Char × Nat) :=
  lookupTarget node.address.toList

/-! ### The address as a URI -/

/-- The host and the port that `hyper-util` dials for the authority of a URI. -/
structure UriDialer where
  host : List Char → List Char
  port : List Char → Option Nat

/-- User information and brackets are cut off; the port follows the last colon. -/
structure UriDialer.Lawful (dialer : UriDialer) : Prop where
  mem : ∀ authority, ∀ c ∈ dialer.host authority, c ≠ '@' ∧ (c ∈ authority ∨ c = ']')
  head : ∀ authority, (dialer.host authority).head? ≠ some '['
  last : ∀ authority, (dialer.host authority).getLast? ≠ some ']'
  colon : ∀ authority, '@' ∉ authority → authority.head? ≠ some '[' → ':' ∉ dialer.host authority
  plain : ∀ h p, '@' ∉ h ++ ':' :: p → ':' ∉ h → h.head? ≠ some '[' → h.getLast? ≠ some ']' →
    dialer.host (h ++ ':' :: p) = h
  brackets : ∀ ip p, '@' ∉ '[' :: ip ++ [']'] ++ ':' :: p → '[' ∉ ip → ']' ∉ ip →
    dialer.host ('[' :: ip ++ [']'] ++ ':' :: p) = ip
  port : ∀ h p, ':' ∉ p → dialer.port (h ++ ':' :: p) = parseUnsigned 65535 p

def httpTarget (dialer : UriDialer) (node : UpstreamNodeDto) (uri : ParsedUri) :
    Option (List Char × Nat) :=
  uri.authority.map fun authority =>
    let https := eqIgnoreAsciiCase (.ofList ((upstreamAddr node).toList.take 8)) "https://"
    (dialer.host authority.toList, (dialer.port authority.toList).getD (if https then 443 else 80))

/-- `Authority::host`; the parser has checked the brackets. -/
def uriHost (authority : List Char) : List Char :=
  let hostPort := ((rsplitOnce '@' authority).map Prod.snd).getD authority
  if hostPort.head? = some '[' then hostPort.takeWhile (· != ']') ++ [']']
  else hostPort.takeWhile (· != ':')

def dialedHost (authority : List Char) : List Char :=
  ((uriHost authority).dropWhile (· == '[')).rdropWhile (· == ']')

def sampleDialer : UriDialer where
  host := dialedHost
  port authority := (rsplitOnce ':' authority).bind fun (_, p) => parseUnsigned 65535 p

def delimiters : List Char := ":/?#@".toList

/-- A host and a port, and nothing else. -/
def IsHostPort (s : List Char) : Prop :=
  ∃ h p, s = h ++ ':' :: p ∧ (parseUnsigned 65535 p).isSome = true ∧
    ((∀ c ∈ h, c ∉ delimiters) ∧ h.head? ≠ some '[' ∧ h.getLast? ≠ some ']' ∨
      ∃ ip a, h = '[' :: ip ++ [']'] ∧ parseIpAddr ip = some (.v6 a) ∧ p.all Char.isDigit = true)

variable {a c : Char} {h ip l p s : List Char}

lemma rsplitOnce_eq_none (h : c ∉ s) : rsplitOnce c s = none := by
  induction s with
  | nil => rfl
  | cons a s ih =>
    rw [mem_cons, not_or] at h
    rw [rsplitOnce, ih h.2]
    exact if_neg (Ne.symm h.1)

lemma rsplitOnce_append {r : List Char} (hr : c ∉ r) (l : List Char) :
    rsplitOnce c (l ++ c :: r) = some (l, r) := by
  induction l with
  | nil => simp [rsplitOnce, rsplitOnce_eq_none hr]
  | cons a l ih => rw [cons_append, rsplitOnce, ih]

lemma exists_rsplitOnce (h : c ∈ s) :
    ∃ l r, rsplitOnce c s = some (l, r) ∧ s = l ++ c :: r ∧ c ∉ r := by
  obtain ⟨r, l, hs, hr⟩ := eq_append_cons_of_mem (mem_reverse.mpr h)
  have hsplit : s = l.reverse ++ c :: r.reverse := by simpa using congrArg reverse hs
  have hr : c ∉ r.reverse := by simpa using hr
  exact ⟨_, _, hsplit ▸ rsplitOnce_append hr _, hsplit, hr⟩

lemma of_rsplitOnce {r : List Char} (h : rsplitOnce c s = some (l, r)) :
    s = l ++ c :: r ∧ c ∉ r := by
  by_cases hmem : c ∈ s
  · obtain ⟨l', r', h', hs⟩ := exists_rsplitOnce hmem
    rw [h'] at h
    cases h
    exact hs
  · rw [rsplitOnce_eq_none hmem] at h
    cases h

lemma notMem_delimiters_of_parseUnsigned {bound n : Nat} (h : parseUnsigned bound p = some n) :
    ∀ c ∈ p, c ∉ delimiters := by
  suffices hdigit : ∀ c ∈ p, c = '+' ∨ c.isDigit = true by
    intro c hc hbad
    have hnone : ∀ c ∈ delimiters, c ≠ '+' ∧ c.isDigit = false := by simp [delimiters]
    obtain h | h := hdigit c hc
    · exact (hnone c hbad).1 h
    · exact absurd h (by simp [(hnone c hbad).2])
  intro c hc
  unfold parseUnsigned at h
  by_contra hno
  rw [if_pos] at h
  · cases h
  · rw [not_or] at hno
    refine Bool.or_eq_true_iff.mpr (.inr ?_)
    have hbad : ∀ digits : List Char, c ∈ digits → (!digits.all Char.isDigit) = true := by
      intro digits hmem
      simp only [Bool.not_eq_true', all_eq_false]
      exact ⟨c, hmem, hno.2⟩
    split
    · exact hbad _ ((mem_cons.mp hc).resolve_left hno.1)
    · exact hbad _ hc

section

variable {h p : List Char}

lemma of_socketHost {host : List Char} (hh : socketHost h = some host) : host = h ∨
    ∃ a, h = '[' :: host ++ [']'] ∧ parseIpAddr host = some (.v6 a) := by
  rw [socketHost] at hh
  split at hh
  · exact .inl (Option.some.inj hh).symm
  · rename_i hv6 _
    split_ifs at hh with hbrackets
    cases hh
    exact .inr ⟨_, hbrackets, hv6⟩
  · cases hh

def lookupHost (h p : List Char) : List Char :=
  if p.all Char.isDigit then (socketHost h).getD h else h

lemma lookupTarget_append {port : Nat} (hp : ':' ∉ p) (hport : parseUnsigned 65535 p = some port) :
    lookupTarget (h ++ ':' :: p) = some (lookupHost h p, port) := by
  rw [lookupTarget, parseSocketAddr, rsplitOnce_append hp]
  simp only [Option.bind_some, hport, lookupHost]
  split_ifs
  · cases socketHost h <;> rfl
  · rfl

lemma of_lookupTarget {host : List Char} {port : Nat} (hs : lookupTarget s = some (host, port)) :
    ∃ h p, s = h ++ ':' :: p ∧ ':' ∉ p ∧ parseUnsigned 65535 p = some port ∧
      host = lookupHost h p := by
  cases hsplit : rsplitOnce ':' s with
  | none =>
    rw [lookupTarget, parseSocketAddr, hsplit] at hs
    cases hs
  | some q =>
    obtain ⟨rfl, hp⟩ := of_rsplitOnce hsplit
    cases hport : parseUnsigned 65535 q.2 with
    | none =>
      simp only [lookupTarget, parseSocketAddr, hsplit, Option.bind_some, hport, Option.bind_none,
        ite_self, Option.map_none, reduceCtorEq] at hs
    | some port' =>
      rw [lookupTarget_append hp hport] at hs
      cases hs
      exact ⟨q.1, q.2, rfl, hp, hport, rfl⟩

lemma resolveTarget_eq (s : List Char) : resolveTarget s = lookupTarget s := by
  rw [resolveTarget]
  cases hsplit : rsplitOnce ':' s with
  | none => rfl
  | some q =>
    obtain ⟨rfl, -⟩ := of_rsplitOnce hsplit
    simp only [lookupTarget]
    split <;> simp_all

lemma lookupHost_cases : lookupHost h p = h ∨ ∃ a, h = '[' :: lookupHost h p ++ [']'] ∧
    parseIpAddr (lookupHost h p) = some (.v6 a) ∧ p.all Char.isDigit = true := by
  rw [lookupHost]
  split_ifs with hp
  · cases hh : socketHost h with
    | none => exact .inl rfl
    | some host =>
      obtain heq | ⟨a, hbrackets, hv6⟩ := of_socketHost hh
      · exact .inl heq
      · exact .inr ⟨a, hbrackets, hv6, hp⟩
  · exact .inl rfl

end

lemma mem_lookupHost (hc : c ∈ h) (hopen : c ≠ '[') (hclose : c ≠ ']') :
    c ∈ lookupHost h p := by
  obtain heq | ⟨a, heq, -⟩ := lookupHost_cases (h := h) (p := p)
  · rwa [heq]
  · generalize lookupHost h p = host at heq
    simpa [heq, hopen, hclose] using hc

lemma notMem_of_parseIpAddr {a : IpAddr} (h : parseIpAddr ip = some a) :
    ∀ c ∈ "/?#@[]".toList, c ∉ ip := by
  intro c hc hmem
  have hno : ∀ c ∈ "/?#@[]".toList, (toDigit 16 c).isSome = false ∧ c ≠ '.' ∧ c ≠ ':' := by
    simp [toDigit]
  obtain ⟨hdigit, hdot, hcolon⟩ := hno c hc
  obtain h | h | h := isAddrChar_of_parseIpAddr h c hmem
  · exact absurd h (by simp [hdigit])
  · exact hdot h
  · exact hcolon h

lemma lookupHost_of_brackets {a : BitVec 128} (h : parseIpAddr ip = some (.v6 a))
    (hp : p.all Char.isDigit = true) :
    lookupHost ('[' :: ip ++ [']']) p = ip := by
  have hnone : parseIpAddr ('[' :: ip ++ [']']) = none := by
    by_contra hsome
    obtain ⟨b, hb⟩ := Option.ne_none_iff_exists'.mp hsome
    exact notMem_of_parseIpAddr hb '[' (by decide) (by simp)
  have hunbracket : unbracket ('[' :: ip ++ [']']) = ip := by simp [unbracket]
  rw [lookupHost, if_pos hp, socketHost, hnone, hunbracket, h]
  simp

lemma dropWhile_eq_of_head? (h : l.head? ≠ some a) :
    l.dropWhile (· == a) = l := by
  cases l with
  | nil => rfl
  | cons b l =>
    refine dropWhile_cons_of_neg ?_
    simpa using h

lemma rdropWhile_eq_of_getLast? (h : l.getLast? ≠ some a) :
    l.rdropWhile (· == a) = l := by
  rw [rdropWhile, dropWhile_eq_of_head? (by rwa [head?_reverse]), reverse_reverse]

section

variable {authority : List Char} {c : Char}

lemma mem_of_mem_dialedHost (hc : c ∈ dialedHost authority) : c ∈ uriHost authority :=
  (dropWhile_sublist _).mem (( rdropWhile_prefix _ _).sublist.mem hc)

lemma mem_of_mem_uriHost (hc : c ∈ uriHost authority) : c ≠ '@' ∧ (c ∈ authority ∨ c = ']') := by
  set hostPort := ((rsplitOnce '@' authority).map Prod.snd).getD authority with hdef
  have hpart : ∀ c ∈ hostPort, c ≠ '@' ∧ c ∈ authority := by
    intro c hc
    cases hat : rsplitOnce '@' authority with
    | none =>
      rw [hdef, hat] at hc
      refine ⟨?_, hc⟩
      rintro rfl
      obtain ⟨l, r, hsome, -⟩ := exists_rsplitOnce hc
      exact Option.some_ne_none _ (hsome.symm.trans hat)
    | some q =>
      obtain ⟨hauth, hno⟩ := of_rsplitOnce hat
      rw [hdef, hat] at hc
      refine ⟨fun heq => hno (heq ▸ hc), ?_⟩
      rw [hauth]
      exact mem_append_right _ (mem_cons_of_mem _ hc)
  rw [uriHost, ← hdef] at hc
  split_ifs at hc
  · obtain hc | hc := mem_append.mp hc
    · exact (hpart c (( takeWhile_prefix _).mem hc)).imp_right .inl
    · rw [mem_singleton.mp hc]
      exact ⟨by decide, .inr rfl⟩
  · exact (hpart c (( takeWhile_prefix _).mem hc)).imp_right .inl

lemma head_dialedHost : (dialedHost authority).head? ≠ some '[' := by
  intro hhead
  obtain ⟨host, hhost⟩ := head?_eq_some_iff.mp hhead
  obtain ⟨t, ht⟩ := rdropWhile_prefix (· == ']') ((uriHost authority).dropWhile (· == '['))
  have hnot := head?_dropWhile_not (· == '[') (uriHost authority)
  rw [← ht, ← dialedHost, hhost] at hnot
  cases hnot

lemma getLast_dialedHost : (dialedHost authority).getLast? ≠ some ']' := by
  intro hlast
  obtain ⟨host, hhost⟩ := getLast?_eq_some_iff.mp hlast
  have hself : (dialedHost authority).rdropWhile (· == ']') = dialedHost authority :=
    rdropWhile_idempotent ..
  rw [hhost, rdropWhile_concat_pos _ _ _ rfl] at hself
  have hle := ( rdropWhile_prefix (· == ']') host).length_le
  rw [hself, length_append, length_singleton] at hle
  omega

lemma uriHost_of_head? (hat : '@' ∉ authority) (hhead : authority.head? ≠ some '[') :
    uriHost authority = authority.takeWhile (· != ':') := by
  rw [uriHost, rsplitOnce_eq_none hat]
  exact if_neg hhead

lemma notMem_dialedHost (hat : '@' ∉ authority) (hhead : authority.head? ≠ some '[') :
    ':' ∉ dialedHost authority := by
  intro hc
  have hc := mem_of_mem_dialedHost hc
  rw [uriHost_of_head? hat hhead] at hc
  simpa using mem_takeWhile_imp hc

lemma head?_append_cons {b : Char} (hne : b ≠ a) (hhead : h.head? ≠ some a) (p : List Char) :
    (h ++ b :: p).head? ≠ some a := by
  cases h with
  | nil => simpa using hne
  | cons c h => exact hhead

lemma dialedHost_of_plain (hat : '@' ∉ h ++ ':' :: p) (hcolon : ':' ∉ h)
    (hhead : h.head? ≠ some '[') (hlast : h.getLast? ≠ some ']') :
    dialedHost (h ++ ':' :: p) = h := by
  have htake : (h ++ ':' :: p).takeWhile (· != ':') = h := by
    rw [takeWhile_append_of_pos]
    · simp
    · exact fun c hc => bne_iff_ne.mpr fun heq => hcolon (heq ▸ hc)
  rw [dialedHost, uriHost_of_head? hat (head?_append_cons (by decide) hhead p), htake,
    dropWhile_eq_of_head? hhead, rdropWhile_eq_of_getLast? hlast]

lemma dialedHost_of_brackets (hat : '@' ∉ '[' :: ip ++ [']'] ++ ':' :: p)
    (hopen : '[' ∉ ip) (hclose : ']' ∉ ip) :
    dialedHost ('[' :: ip ++ [']'] ++ ':' :: p) = ip := by
  have htake : ('[' :: ip ++ [']'] ++ ':' :: p).takeWhile (· != ']') = '[' :: ip := by
    rw [append_assoc, takeWhile_append_of_pos]
    · simp
    · intro c hc
      obtain rfl | hc := mem_cons.mp hc
      · rfl
      · exact bne_iff_ne.mpr fun heq => hclose (heq ▸ hc)
  have hhead : (ip ++ [']']).head? ≠ some '[' :=
    head?_append_cons (by decide) (fun h => hopen (mem_of_head? h)) []
  rw [dialedHost, uriHost, rsplitOnce_eq_none hat, Option.map_none, Option.getD_none,
    if_pos (by rfl), htake, cons_append, dropWhile_cons_of_pos (by rfl),
    dropWhile_eq_of_head? hhead, rdropWhile_concat_pos _ _ _ rfl]
  exact rdropWhile_eq_of_getLast? fun h => hclose (mem_of_getLast? h)

lemma sampleDialer_lawful : sampleDialer.Lawful where
  mem _ _ hc := mem_of_mem_uriHost (mem_of_mem_dialedHost hc)
  head _ := head_dialedHost
  last _ := getLast_dialedHost
  colon _ := notMem_dialedHost
  plain _ _ := dialedHost_of_plain
  brackets _ _ := dialedHost_of_brackets
  port h p hp := by simp only [sampleDialer, rsplitOnce_append hp, Option.bind_some]

end

section

variable {node : UpstreamNodeDto}

lemma authority_of_plain (h : ∀ c ∈ node.address.toList, c ∈ delimiters → c = ':') :
    node.authority = node.address.toList ∧ '@' ∉ node.address.toList := by
  have hends : ∀ c ∈ node.address.toList, endsAuthority c = false := by
    intro c hc
    by_contra hno
    have hbad : c ∈ delimiters ∧ c ≠ ':' := by
      simp only [endsAuthority, Bool.not_eq_false, Bool.or_eq_true, beq_iff_eq] at hno
      obtain (rfl | rfl) | rfl := hno <;> decide
    exact hbad.2 (h c hc hbad.1)
  have hscheme : containsText node.address "://" = false := by
    by_contra hno
    simp only [containsText, Bool.not_eq_false, any_eq_true, mem_tails] at hno
    obtain ⟨t, hsuffix, hprefix⟩ := hno
    have hslash : '/' ∈ node.address.toList :=
      hsuffix.mem (( isPrefixOf_iff_prefix.mp hprefix).mem (by decide))
    exact absurd (hends '/' hslash) (by decide)
  have hlocation : node.location = node.address.toList := by
    rw [UpstreamNodeDto.location, upstreamAddr, hscheme, if_neg (by decide), String.toList_append]
    rfl
  refine ⟨?_, fun hat => absurd (h '@' hat (by decide)) (by decide)⟩
  rw [UpstreamNodeDto.authority, hlocation, takeWhile_eq_self_iff]
  intro c hc
  rw [hends c hc]
  rfl

lemma notMem_authority (hc : c ∈ node.authority) : endsAuthority c = false := by
  simpa using mem_takeWhile_imp hc

lemma authority_upstreamRequest {http : HttpCrate} (hhttp : http.SplitsUri) {client : Option String}
    {req out : OutRequest} (hbuild : buildUpstreamUri http node client = .ok req.uri)
    (hsend : upstreamRequest http node req = .ok out) :
    out.uri.authority = some (.ofList node.authority) := by
  have hagain := build_of_upstreamRequest hsend
  rw [pathAndQuery_of_build hhttp hbuild] at hagain
  rw [hhttp.authority _ _ _ (parse_of_build hagain) (afterFirst_uri node _), Option.getD_some,
    String.toList_ofList, takeWhile_location_append node
      (isPathAndQuery_pathAndQueryOf (head_dropWhile _))]

end

end Conrogate
