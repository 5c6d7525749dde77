import Conrogate.Core.Http
import Conrogate.Core.Net

/-!
# The client address behind trusted proxies

A trusted proxy appends the address it saw to `X-Forwarded-For`, so the client is the rightmost
entry that is no trusted proxy.
-/

namespace Conrogate

open List Option HeaderValue

variable {Net : Type} (net : IpNetCrate Net)

def compileTrustedProxies (list : List String) : List Net :=
  list.filterMap fun p =>
    match net.fromStr p.toList with
    | some cidr => some cidr
    | none => match parseIpAddr p.toList with
      | some (.v4 a) => net.new (.v4 a) 32
      | some (.v6 a) => net.new (.v6 a) 128
      | none => none

def isTrustedProxy (trusted : List Net) (ip : List Char) : Bool :=
  match parseIpAddr ip with
  | none => false
  | some addr => trusted.any fun cidr => net.containsAddr cidr addr

def lastUntrusted (trusted : List Net) (entries : List (List Char)) : Option (List Char) :=
  entries.reverse.find? fun ip => !isTrustedProxy net trusted ip

def resolveRealIp (trusted : List Net) (socketIp : String) (headers : HeaderMap) : String :=
  if trusted.isEmpty then socketIp
  else if !isTrustedProxy net trusted socketIp.toList then socketIp
  else match (headers.get "x-forwarded-for").bind toStr with
    | none => socketIp
    | some xff =>
      match lastUntrusted net trusted ((splitChar ',' xff.toList).map trim) with
      | some ip => String.ofList ip
      | none    => socketIp

/-! ### The reference -/

def forwardedEntries (lines : List HeaderValue) : List (List Char) :=
  match lines with
  | [] => []
  | _  => (splitChar ',' (List.intercalate [','] (lines.map text))).map trim

def referenceIp (trusted : List Net) (socketIp : String) (lines : List HeaderValue) : String :=
  if !isTrustedProxy net trusted socketIp.toList then socketIp
  else match lastUntrusted net trusted (forwardedEntries lines) with
    | some ip => String.ofList ip
    | none    => socketIp

/-- The first line alone settles the matter: it is text and the later lines have no untrusted
entry of their own, or only the one the first line ends with; or no line has any. -/
def FirstLineDecides (trusted : List Net) (socketIp : String) (lines : List HeaderValue) : Prop :=
  isTrustedProxy net trusted socketIp.toList = false ∨
  match lines with
  | [] => True
  | first :: later =>
    (first.toStr.isSome = true ∧
      (lastUntrusted net trusted (forwardedEntries later) = none ∨
        lastUntrusted net trusted (forwardedEntries later) =
          lastUntrusted net trusted (forwardedEntries [first]))) ∨
    (lastUntrusted net trusted (forwardedEntries later) = none ∧
      lastUntrusted net trusted (forwardedEntries [first]) = none)

/-! ### The resolved address as a header -/

lemma toNat_of_isAddrChar {c : Char} (h : IsAddrChar c) : 46 ≤ c.toNat ∧ c.toNat ≤ 122 := by
  obtain hdigit | rfl | rfl := h
  · have hbetween : ∀ lo hi : Char, lo ≤ c ∧ c ≤ hi → 46 ≤ lo.toNat → hi.toNat ≤ 122 →
        46 ≤ c.toNat ∧ c.toNat ≤ 122 := fun lo hi hc hlo hhi =>
      ⟨hlo.trans (UInt32.le_iff_toNat_le.mp hc.1), (UInt32.le_iff_toNat_le.mp hc.2).trans hhi⟩
    simp only [toDigit, isSome_ite] at hdigit
    split_ifs at hdigit with hnum hlower hupper
    · exact hbetween _ _ hnum (by decide) (by decide)
    · exact hbetween _ _ hlower (by decide) (by decide)
    · exact hbetween _ _ hupper (by decide) (by decide)
    · exact absurd hdigit (lt_irrefl 16)
  · decide
  · decide

lemma isVisible_of_isAddrChar {c : Char} (h : IsAddrChar c) : HeaderValue.IsVisible c := by
  obtain ⟨hlow, hhigh⟩ := toNat_of_isAddrChar h
  exact .inl ⟨by omega, by omega⟩

lemma trim_of_parseIpAddr {s : List Char} {a : IpAddr} (h : parseIpAddr s = some a) :
    trim s = s := by
  have hdrop : ∀ l : List Char, (∀ c ∈ l, IsAddrChar c) → l.dropWhile isWhitespace = l := by
    intro l hl
    cases l with
    | nil => rfl
    | cons c l =>
      obtain ⟨hlow, hhigh⟩ := toNat_of_isAddrChar (hl c mem_cons_self)
      refine dropWhile_cons_of_neg ?_
      simp only [isWhitespace, Bool.or_eq_true, Bool.and_eq_true, decide_eq_true_eq, beq_iff_eq]
      omega
  have hchars := isAddrChar_of_parseIpAddr h
  rw [trim, hdrop s hchars, hdrop _ (by simpa using hchars), reverse_reverse]

variable {socketIp : String}

lemma parse_resolveRealIp (trusted : List Net) {peer : IpAddr}
    (hpeer : parseIpAddr socketIp.toList = some peer) (headers : HeaderMap) :
    parse (resolveRealIp net trusted socketIp headers) =
      some (.ofString (resolveRealIp net trusted socketIp headers)) := by
  have hsocket : ∀ c ∈ socketIp.toList, HeaderValue.IsVisible c := fun c hc =>
    isVisible_of_isAddrChar (isAddrChar_of_parseIpAddr hpeer c hc)
  apply parse_of_isVisible
  rw [resolveRealIp]
  split_ifs
  · exact hsocket
  · exact hsocket
  · split
    · exact hsocket
    · next xff hxff =>
      split
      · next ip hip =>
        obtain ⟨v, -, hv⟩ := bind_eq_some_iff.mp hxff
        rw [String.toList_ofList]
        intro c hc
        have hmem := mem_of_find?_eq_some hip
        rw [mem_reverse] at hmem
        obtain ⟨part, hpart, rfl⟩ := mem_map.mp hmem
        exact isVisible_of_toStr hv c (mem_of_mem_splitChar hpart (mem_of_mem_trim hc)).2
      · exact hsocket

/-! ### Scanning -/

lemma lastUntrusted_append (trusted : List Net) (xs ys : List (List Char)) :
    lastUntrusted net trusted (xs ++ ys) =
      (lastUntrusted net trusted ys).or (lastUntrusted net trusted xs) := by
  simp only [lastUntrusted]
  rw [reverse_append, find?_append]

variable {net} in
lemma not_trusted_of_lastUntrusted {trusted : List Net} {entries : List (List Char)}
    {ip : List Char} (h : lastUntrusted net trusted entries = some ip) :
    isTrustedProxy net trusted ip = false := by
  have := find?_some h
  simpa using this

lemma lastUntrusted_append_of_untrusted {trusted : List Net} (xs : List (List Char))
    {tail : List (List Char)} {ip : List Char} (hip : ip ∈ tail)
    (hu : isTrustedProxy net trusted ip = false) :
    lastUntrusted net trusted (xs ++ tail) = lastUntrusted net trusted tail := by
  rw [lastUntrusted_append]
  cases h : lastUntrusted net trusted tail with
  | some e => rfl
  | none =>
    -- the scan of `tail` cannot miss `ip`
    have := find?_eq_none.mp h ip (mem_reverse.mpr hip)
    simp [hu] at this

lemma forwardedEntries_cons (first : HeaderValue) (later : List HeaderValue) :
    forwardedEntries (first :: later) = forwardedEntries [first] ++ forwardedEntries later := by
  cases later with
  | nil => simp [forwardedEntries]
  | cons second rest =>
    simp only [forwardedEntries, map_cons, intercalate_cons_cons, map_nil, intercalate_singleton]
    rw [append_assoc, singleton_append, splitChar_append_cons, map_append]

lemma lastUntrusted_cons (trusted : List Net) (first : HeaderValue) (later : List HeaderValue) :
    lastUntrusted net trusted (forwardedEntries (first :: later)) =
      (lastUntrusted net trusted (forwardedEntries later)).or
        (lastUntrusted net trusted (forwardedEntries [first])) := by
  rw [forwardedEntries_cons, lastUntrusted_append]

lemma resolveRealIp_of_trusted {trusted : List Net} {headers : HeaderMap}
    (hpeer : isTrustedProxy net trusted socketIp.toList = true) :
    resolveRealIp net trusted socketIp headers =
      match headers.getAll "x-forwarded-for" with
      | [] => socketIp
      | first :: _ =>
        if first.toStr.isSome then
          ((lastUntrusted net trusted (forwardedEntries [first])).map String.ofList).getD socketIp
        else socketIp := by
  have hne : trusted.isEmpty = false := by
    cases trusted with
    | nil =>
      rw [isTrustedProxy] at hpeer
      split at hpeer <;> simp at hpeer
    | cons => rfl
  rw [resolveRealIp, hne, hpeer, HeaderMap.get_eq_head?_getAll]
  cases headers.getAll "x-forwarded-for" with
  | nil => rfl
  | cons first later =>
    cases hstr : first.toStr with
    | none => simp [hstr]
    | some xff =>
      obtain rfl := toStr_eq_some hstr
      have hentries : (splitChar ',' (String.ofList first.text).toList).map trim =
          forwardedEntries [first] := by
        simp [forwardedEntries]
      simp only [Bool.false_eq_true, if_false, Bool.not_true, head?_cons, bind_some,
        hstr, isSome_some, if_true, hentries]
      cases lastUntrusted net trusted (forwardedEntries [first]) <;> rfl

/-! ### When the first line decides -/

variable {net} in
lemma lastUntrusted_ne_peer {trusted : List Net}
    (hpeer : isTrustedProxy net trusted socketIp.toList = true) {entries : List (List Char)}
    {ip : List Char} (h : lastUntrusted net trusted entries = some ip) :
    String.ofList ip ≠ socketIp := by
  rintro rfl
  rw [String.toList_ofList, not_trusted_of_lastUntrusted h] at hpeer
  cases hpeer

lemma resolveRealIp_eq_referenceIp_iff (trusted : List Net) (socketIp : String)
    (headers : HeaderMap) :
    resolveRealIp net trusted socketIp headers =
        referenceIp net trusted socketIp (headers.getAll "x-forwarded-for") ↔
      FirstLineDecides net trusted socketIp (headers.getAll "x-forwarded-for") := by
  cases hpeer : isTrustedProxy net trusted socketIp.toList with
  | false =>
    simp [resolveRealIp, referenceIp, FirstLineDecides, hpeer]
  | true =>
    rw [resolveRealIp_of_trusted net hpeer]
    simp only [referenceIp, FirstLineDecides, hpeer, Bool.not_true, Bool.false_eq_true, if_false,
      Bool.true_eq_false, false_or]
    cases headers.getAll "x-forwarded-for" with
    | nil => simp [forwardedEntries, lastUntrusted]
    | cons first later =>
      rw [lastUntrusted_cons]
      -- an untrusted entry, wherever it comes from, differs from the peer
      have hne : ∀ (ls : List HeaderValue) (ip : List Char),
          lastUntrusted net trusted (forwardedEntries ls) = some ip →
            String.ofList ip ≠ socketIp :=
        fun _ _ h => lastUntrusted_ne_peer hpeer h
      cases hA : lastUntrusted net trusted (forwardedEntries later) with
      | none =>
        cases hB : lastUntrusted net trusted (forwardedEntries [first]) with
        | none => simp [hA, hB]
        | some b =>
          have hb := hne _ _ hB
          cases hfirst : first.toStr <;> simp [hA, hB, hb.symm, hfirst]
      | some a =>
        have ha := hne _ _ hA
        cases hB : lastUntrusted net trusted (forwardedEntries [first]) with
        | none => cases hfirst : first.toStr <;> simp [hA, hB, ha.symm, hfirst]
        | some b =>
          cases hfirst : first.toStr with
          | none => simp [hA, ha.symm, hfirst]
          | some xff =>
            simp only [hA, hB, hfirst, isSome_some, if_true, map_some,
              getD_some, some_or, String.ofList_inj, reduceCtorEq, false_or,
              true_and, or_false, and_false, some.injEq]
            exact eq_comm

/-- The code resolves what the joined lines say exactly when the first line decides. Requests of
that kind with the same entries at the right, one of them untrusted, are resolved alike. -/
theorem resolveRealIp_correct_iff_first_line_decides (proxies : List String) (socketIp : String)
    (headers : HeaderMap) :
    (resolveRealIp net (compileTrustedProxies net proxies) socketIp headers =
        referenceIp net (compileTrustedProxies net proxies) socketIp
          (headers.getAll "x-forwarded-for") ↔
      FirstLineDecides net (compileTrustedProxies net proxies) socketIp
        (headers.getAll "x-forwarded-for")) ∧
    ∀ (headers' : HeaderMap) (before before' tail : List (List Char)) (client : List Char),
      FirstLineDecides net (compileTrustedProxies net proxies) socketIp
        (headers.getAll "x-forwarded-for") →
      FirstLineDecides net (compileTrustedProxies net proxies) socketIp
        (headers'.getAll "x-forwarded-for") →
      forwardedEntries (headers.getAll "x-forwarded-for") = before ++ tail →
      forwardedEntries (headers'.getAll "x-forwarded-for") = before' ++ tail →
      client ∈ tail →
      isTrustedProxy net (compileTrustedProxies net proxies) client = false →
      resolveRealIp net (compileTrustedProxies net proxies) socketIp headers =
        resolveRealIp net (compileTrustedProxies net proxies) socketIp headers' := by
  refine ⟨resolveRealIp_eq_referenceIp_iff net _ socketIp headers, ?_⟩
  intro headers' before before' tail client hd hd' he he' hmem hu
  rw [(resolveRealIp_eq_referenceIp_iff net _ socketIp headers).mpr hd,
    (resolveRealIp_eq_referenceIp_iff net _ socketIp headers').mpr hd']
  simp only [referenceIp]
  rw [he, he', lastUntrusted_append_of_untrusted net before hmem hu,
    lastUntrusted_append_of_untrusted net before' hmem hu]

theorem resolveRealIp_correct_one_line :
    let request : String → HeaderMap := fun s => [("x-forwarded-for", .ofString s)]
    resolveRealIp ipNetCrate (compileTrustedProxies ipNetCrate ["10.0.0.0/8"]) "10.0.0.1"
        (request "6.6.6.6, 1.2.3.4, 10.0.0.2") =
      resolveRealIp ipNetCrate (compileTrustedProxies ipNetCrate ["10.0.0.0/8"]) "10.0.0.1"
        (request "1.2.3.4, 10.0.0.2") := by
  intro request
  have hdecides : ∀ s, (ofString s).toStr.isSome = true →
      FirstLineDecides ipNetCrate (compileTrustedProxies ipNetCrate ["10.0.0.0/8"]) "10.0.0.1"
        ((request s).getAll "x-forwarded-for") := by
    intro s hs
    exact .inr (.inl ⟨hs, .inl rfl⟩)
  exact (resolveRealIp_correct_iff_first_line_decides ipNetCrate ["10.0.0.0/8"] "10.0.0.1"
    (request "6.6.6.6, 1.2.3.4, 10.0.0.2")).2 (request "1.2.3.4, 10.0.0.2")
    ["6.6.6.6".toList] [] ["1.2.3.4".toList, "10.0.0.2".toList] "1.2.3.4".toList
    (hdecides _ (by decide)) (hdecides _ (by decide)) (by decide) (by decide) (by simp)
    (by decide)

/-- The client sends a line of its own and the trusted proxy adds a second one: the code takes
the client's line, and the client chooses what it resolves to. -/
theorem resolveRealIp_takes_forged_line :
    let request : String → HeaderMap := fun s =>
      [("x-forwarded-for", .ofString s), ("x-forwarded-for", .ofString "1.2.3.4")]
    let trusted := compileTrustedProxies ipNetCrate ["10.0.0.0/8"]
    resolveRealIp ipNetCrate trusted "10.0.0.1" (request "6.6.6.6") = "6.6.6.6" ∧
    resolveRealIp ipNetCrate trusted "10.0.0.1" (request "7.7.7.7") = "7.7.7.7" ∧
    referenceIp ipNetCrate trusted "10.0.0.1" ((request "6.6.6.6").getAll "x-forwarded-for") =
      "1.2.3.4" := by
  decide

end Conrogate
