import Conrogate.Lib.Proc
import Conrogate.Protocol.Proxy
import Mathlib.Data.List.Infix

/-!
# The URI of a request to an upstream

The URI is built twice, by `build_upstream_uri` and by `forward_common`. An address that is more
than a scheme, a host and a port is then there twice.
-/

namespace Conrogate

open List UpstreamNodeDto

/-! ### URIs -/

def afterFirst (p : List Char) : List Char → Option (List Char)
  | [] => none
  | c :: cs => if p.isPrefixOf (c :: cs) then some ((c :: cs).drop p.length) else afterFirst p cs

def endsAuthority (c : Char) : Bool := c == '/' || c == '?' || c == '#'

def pathAndQueryOf (s : List Char) : List Char :=
  match s.takeWhile (· != '#') with
  | [] => ['/']
  | c :: q => c :: q

structure HttpCrate.SplitsUri (http : HttpCrate) : Prop where
  authority : ∀ text uri rest, http.parseUri text = .ok uri →
    afterFirst "://".toList text.toList = some rest →
    uri.authority = some (.ofList (rest.takeWhile (!endsAuthority ·)))
  pathAndQuery : ∀ text uri rest, http.parseUri text = .ok uri →
    afterFirst "://".toList text.toList = some rest →
    uri.pathAndQuery = some (.ofList (pathAndQueryOf (rest.dropWhile (!endsAuthority ·))))

/-! ### The request -/

def upstreamRequest (http : HttpCrate) (node : UpstreamNodeDto) (req : OutRequest) :
    Result OutRequest := do
  let uri ← buildUpstreamUri http node req.uri.pathAndQuery
  let _ ← (http.buildRequest req.method uri).mapError fun e =>
    .upstreamConnectFailed ("request build: " ++ e)
  .ok { req with uri := uri }

def UpstreamNodeDto.location (node : UpstreamNodeDto) : List Char :=
  (afterFirst "://".toList (upstreamAddr node).toList).getD []

def UpstreamNodeDto.authority (node : UpstreamNodeDto) : List Char :=
  node.location.takeWhile (!endsAuthority ·)

def UpstreamNodeDto.basePath (node : UpstreamNodeDto) : List Char :=
  node.location.dropWhile (!endsAuthority ·)

structure IsUriOf (http : HttpCrate) (node : UpstreamNodeDto) (pathAndQuery : String)
    (uri : ParsedUri) : Prop where
  text : http.parseUri (upstreamAddr node ++ pathAndQuery) = .ok uri
  authority : uri.authority = some (.ofList node.authority)
  pathAndQuery : uri.pathAndQuery = some (.ofList (node.basePath ++ pathAndQuery.toList))

def IsPathAndQuery (s : List Char) : Prop :=
  '#' ∉ s ∧ (s.head? = some '/' ∨ s.head? = some '?')

instance (s : List Char) : Decidable (IsPathAndQuery s) := inferInstanceAs (Decidable (_ ∧ _))

variable {p s : List Char} {rest : List Char}

lemma infix_of_afterFirst (h : afterFirst p s = some rest) : p <:+: s := by
  induction s with
  | nil => cases h
  | cons c cs ih =>
    rw [afterFirst] at h
    split_ifs at h with hp
    · exact ( isPrefixOf_iff_prefix.mp hp).isInfix
    · exact (ih h).trans (suffix_cons c cs).isInfix

lemma afterFirst_append (h : afterFirst p s = some rest) (t : List Char) :
    afterFirst p (s ++ t) = some (rest ++ t) := by
  induction s with
  | nil => cases h
  | cons c cs ih =>
    rw [afterFirst] at h
    rw [cons_append, afterFirst]
    split_ifs at h with hp
    · cases h
      have hshort := isPrefixOf_iff_prefix.mp hp
      have hlong : p.isPrefixOf (c :: (cs ++ t)) = true :=
        isPrefixOf_iff_prefix.mpr (hshort.trans (prefix_append (c :: cs) t))
      rw [if_pos hlong, ← cons_append, drop_append_of_le_length hshort.length_le]
    · -- the first occurrence is within `cs`, so none starts at `c`
      have hlength := (infix_of_afterFirst h).length_le
      rw [if_neg, ih h]
      intro hlong
      refine hp ( isPrefixOf_iff_prefix.mpr ?_)
      refine prefix_of_prefix_length_le ( isPrefixOf_iff_prefix.mp hlong)
        (prefix_append (c :: cs) t) ?_
      rw [length_cons]
      omega

lemma isSome_afterFirst (hp : p ≠ []) (h : s.tails.any (fun t => p.isPrefixOf t) = true) :
    (afterFirst p s).isSome = true := by
  induction s with
  | nil => simp [hp] at h
  | cons c cs ih =>
    rw [afterFirst]
    split_ifs with hhead
    · rfl
    · rw [tails_cons, any_cons, Bool.or_eq_true] at h
      exact ih (h.resolve_left hhead)

lemma afterFirst_upstreamAddr (node : UpstreamNodeDto) :
    afterFirst "://".toList (upstreamAddr node).toList = some node.location := by
  suffices hsome : (afterFirst "://".toList (upstreamAddr node).toList).isSome = true by
    obtain ⟨rest, hrest⟩ := Option.isSome_iff_exists.mp hsome
    rw [location, hrest]
    rfl
  rw [upstreamAddr]
  split_ifs with h
  · exact isSome_afterFirst (by decide) h
  · rw [String.toList_append]
    rfl

lemma pathAndQueryOf_eq (h : IsPathAndQuery s) : pathAndQueryOf s = s := by
  have hall : s.takeWhile (· != '#') = s := by
    rw [takeWhile_eq_self_iff]
    intro c hc
    exact bne_iff_ne.mpr fun heq => h.1 (heq ▸ hc)
  rw [pathAndQueryOf, hall]
  cases s with
  | nil => simp [IsPathAndQuery] at h
  | cons c cs => rfl

lemma isPathAndQuery_pathAndQueryOf (h : ∀ c ∈ s.head?, endsAuthority c = true) :
    IsPathAndQuery (pathAndQueryOf s) := by
  rw [pathAndQueryOf]
  cases hq : s.takeWhile (· != '#') with
  | nil => decide
  | cons c q =>
    refine ⟨fun hmem => ?_, ?_⟩
    · have htake : '#' ∈ s.takeWhile (· != '#') := by rwa [hq]
      simpa using mem_takeWhile_imp htake
    · obtain ⟨hne, t, rfl⟩ : c ≠ '#' ∧ ∃ t, s = c :: t := by
        cases s with
        | nil => cases hq
        | cons d t =>
          rw [takeWhile_cons] at hq
          split_ifs at hq with hd
          cases hq
          exact ⟨bne_iff_ne.mp hd, t, rfl⟩
      have hends := h c rfl
      simpa [endsAuthority, hne] using hends

section

variable {q : List Char} (node : UpstreamNodeDto) (hq : IsPathAndQuery q)
include hq

lemma dropWhile_location_append :
    (node.location ++ q).dropWhile (!endsAuthority ·) = node.basePath ++ q := by
  have hself : q.dropWhile (!endsAuthority ·) = q := by
    cases q with
    | nil => rfl
    | cons c q =>
      obtain ⟨-, h | h⟩ := hq <;> cases h <;> rfl
  rw [dropWhile_append, basePath]
  split_ifs with hempty
  · rw [hself, isEmpty_iff.mp hempty, nil_append]
  · rfl

lemma takeWhile_location_append :
    (node.location ++ q).takeWhile (!endsAuthority ·) = node.authority := by
  have hnil : q.takeWhile (!endsAuthority ·) = [] := by
    cases q with
    | nil => rfl
    | cons c q =>
      obtain ⟨-, h | h⟩ := hq <;> cases h <;> rfl
  rw [takeWhile_append, authority]
  split_ifs with hlength
  · rw [hnil, append_nil, ( takeWhile_prefix _).eq_of_length hlength]
  · rfl

end

section

variable {http : HttpCrate} {node : UpstreamNodeDto} {client : Option String} {uri : ParsedUri}

lemma parse_of_build (h : buildUpstreamUri http node client = .ok uri) :
    http.parseUri (upstreamAddr node ++ client.getD "/") = .ok uri := by
  rw [buildUpstreamUri] at h
  cases hparse : http.parseUri (upstreamAddr node ++ client.getD "/") with
  | error e =>
    rw [hparse] at h
    cases h
  | ok uri' =>
    rw [hparse] at h
    cases h
    rfl

lemma afterFirst_uri (node : UpstreamNodeDto) (text : String) :
    afterFirst "://".toList (upstreamAddr node ++ text).toList =
      some (node.location ++ text.toList) := by
  rw [String.toList_append, afterFirst_append (afterFirst_upstreamAddr node)]

lemma pathAndQuery_of_build (hhttp : http.SplitsUri)
    (h : buildUpstreamUri http node client = .ok uri) :
    uri.pathAndQuery = some (.ofList (pathAndQueryOf
      ((node.location ++ (client.getD "/").toList).dropWhile (!endsAuthority ·)))) :=
  hhttp.pathAndQuery _ _ _ (parse_of_build h) (afterFirst_uri node _)

lemma build_of_upstreamRequest {req out : OutRequest}
    (h : upstreamRequest http node req = .ok out) :
    buildUpstreamUri http node req.uri.pathAndQuery = .ok out.uri := by
  obtain ⟨uri, huri, hrest⟩ := Proc.bind_eq_ok.mp h
  obtain ⟨_, -, hout⟩ := Proc.bind_eq_ok.mp hrest
  cases hout
  exact huri

lemma head_dropWhile (s : List Char) :
    ∀ c ∈ (s.dropWhile (!endsAuthority ·)).head?, endsAuthority c = true := by
  intro c hc
  have hnot := head?_dropWhile_not (!endsAuthority ·) s
  rw [Option.mem_def.mp hc] at hnot
  simpa using hnot

lemma basePath_eq_nil {q : List Char} (hq : IsPathAndQuery (node.basePath ++ q))
    (h : pathAndQueryOf (node.basePath ++ pathAndQueryOf
      ((node.location ++ q).dropWhile (!endsAuthority ·))) = node.basePath ++ q) :
    node.basePath = [] := by
  by_contra hne
  have hdrop : (node.location ++ q).dropWhile (!endsAuthority ·) = node.basePath ++ q := by
    rw [dropWhile_append, if_neg]
    · rfl
    · rwa [List.isEmpty_iff]
  have htwice : IsPathAndQuery (node.basePath ++ (node.basePath ++ q)) := by
    obtain ⟨hmem, hhead⟩ := hq
    rw [mem_append, not_or] at hmem
    rw [head?_append_of_ne_nil _ hne] at hhead
    refine ⟨?_, ?_⟩
    · rw [mem_append, mem_append]
      rintro (hbase | hbase | hrest)
      · exact hmem.1 hbase
      · exact hmem.1 hbase
      · exact hmem.2 hrest
    · rwa [head?_append_of_ne_nil _ hne]
  rw [hdrop, pathAndQueryOf_eq hq, pathAndQueryOf_eq htwice] at h
  have hlength := congrArg List.length h
  simp only [length_append, Nat.add_eq_right, length_eq_zero_iff] at hlength
  exact hne hlength

end

def sampleHttpCrate : HttpCrate where
  parseUri text :=
    match afterFirst "://".toList text.toList with
    | some rest => .ok ⟨text, some (.ofList (rest.takeWhile (!endsAuthority ·))),
      some (.ofList (pathAndQueryOf (rest.dropWhile (!endsAuthority ·))))⟩
    | none => .error "invalid format"
  buildRequest _ _ := .ok ()
  buildResponse _ _ := .ok ()
  displayStatus := toString

lemma sampleHttpCrate_splitsUri : sampleHttpCrate.SplitsUri := by
  constructor <;>
  · intro text uri rest hparse hrest
    simp only [sampleHttpCrate, hrest] at hparse
    cases hparse
    rfl

end Conrogate
