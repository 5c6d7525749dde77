import Conrogate.Gateway.RegexRisk
import Conrogate.Lib.FirstMatch
import Mathlib.Data.List.Find

/-!
# The matcher agrees with its reference

Among the enabled HTTP routes whose expressions compile and whose conditions hold on the request,
the one with the highest priority and, on ties, the smallest id. The conditions are stated on the
URI, the header fields and the `Host` of the request, not on what the matcher collects from them.
-/

namespace Conrogate

open List Function RouteEntry RouteMatchInfo CompiledMatchers RouteTable

variable {Re : Type} (rx : RegexCrate Re)

/-! ### The conditions, declaratively -/

/-- The pattern is not refused as dangerous, and the crate compiles it. -/
def CompilesSafely (pattern : String) (re : Re) : Prop :=
  ¬ Refused pattern ∧ rx.new pattern = some re

def ValueHolds (op : MatchOp) (value v : String) : Prop :=
  match op with
  | .exact    => v = value
  | .prefixed => value.toList <+: v.toList
  | .regex    => ∃ re, CompilesSafely rx value re ∧ rx.isMatch re v = true
  | .notEmpty => v ≠ ""

def PathHolds (pm : PathMatch) (path : String) : Prop :=
  match pm with
  | .exact p => path = p
  | .prefixed p => p.toList <+: path.toList
  | .regex pattern => ∃ re, CompilesSafely rx pattern re ∧ rx.isMatch re path = true

/-- The query is a list of parameters between `&`, and one of them is `key=value`, or only the key
if the value is empty. -/
def HasParam (query key value : String) : Prop :=
  ∃ params : List (List Char), ['&'].intercalate params = query.toList ∧
    (∀ param ∈ params, '&' ∉ param) ∧ '=' ∉ key.toList ∧
    (key.toList ++ '=' :: value.toList ∈ params ∨ key.toList ∈ params ∧ value = "")

/-- Every condition that is configured holds on the request. One header field and one parameter
suffice for a condition where a name is there several times, and the first `Host` is the host. -/
structure ConditionsHold (c : RouteMatchConditions) (method : String) (uri : Uri)
    (headers : HeaderMap) : Prop where
  path : PathHolds rx c.path uri.path
  method : ∀ ms, c.methods = some ms → ∃ x ∈ ms, eqIgnoreAsciiCase x method = true
  host : ∀ pattern, c.host = some pattern →
    ∃ value h, headers.get "host" = some value ∧ value.toStr = some h ∧ Covers pattern h
  headers : ∀ hm ∈ c.headers, ∃ name value text, (name, value) ∈ headers ∧
    value.toStr = some text ∧ eqIgnoreAsciiCase name hm.key = true ∧
      ValueHolds rx hm.op hm.value text
  query : ∀ qm ∈ c.queryParams, ∃ q value, uri.query = some q ∧ HasParam q qm.key value ∧
    ValueHolds rx qm.op qm.value value

structure RegexesCompile (c : RouteMatchConditions) : Prop where
  path : ∀ pattern, c.path = .regex pattern → ∃ re, CompilesSafely rx pattern re
  headers : ∀ hm ∈ c.headers, hm.op = .regex → ∃ re, CompilesSafely rx hm.value re
  query : ∀ qm ∈ c.queryParams, qm.op = .regex → ∃ re, CompilesSafely rx qm.value re

structure Eligible (method : String) (uri : Uri) (headers : HeaderMap) (dto : RouteDto) :
    Prop where
  enabled : dto.enabled = true
  protocol : dto.protocol = .http
  compiles : RegexesCompile rx dto.matchConditions
  holds : ConditionsHold rx dto.matchConditions method uri headers

def RouteDto.Precedes (a b : RouteDto) : Prop :=
  b.priority < a.priority ∨ (a.priority = b.priority ∧ a.id < b.id)

def IsReferenceRoute (dtos : List RouteDto) (method : String) (uri : Uri) (headers : HeaderMap)
    (dto : RouteDto) : Prop :=
  dto ∈ dtos ∧ Eligible rx method uri headers dto ∧
    ∀ other ∈ dtos, Eligible rx method uri headers other → other ≠ dto → dto.Precedes other

/-! ### What the matcher collects from the request -/

lemma splitPair_eq_iff {param : List Char} {key value : String} :
    splitPair param = (key, value) ↔ '=' ∉ key.toList ∧
      (key.toList ++ '=' :: value.toList = param ∨ key.toList = param ∧ value = "") := by
  have hother : ∀ {l : List Char}, '=' ∉ l → ∀ c ∈ l, (c != '=') = true := by
    rintro l hl c hc
    simp only [bne_iff_ne, ne_eq]
    rintro rfl
    exact hl hc
  rw [splitPair, Prod.mk.injEq]
  constructor
  · rintro ⟨rfl, rfl⟩
    have hsplit := takeWhile_append_dropWhile (p := (· != '=')) (l := param)
    have hnot : '=' ∉ param.takeWhile (· != '=') := fun h => by simpa using mem_takeWhile_imp h
    refine ⟨by rwa [String.toList_ofList], ?_⟩
    cases hdrop : param.dropWhile (· != '=') with
    | nil =>
      rw [hdrop, append_nil] at hsplit
      exact .inr ⟨by rw [String.toList_ofList, hsplit], rfl⟩
    | cons c rest =>
      have hc : c = '=' := by
        simpa [hdrop] using head_dropWhile_not (· != '=') (l := param) (by simp [hdrop])
      rw [hdrop, hc] at hsplit
      exact .inl (by simpa using hsplit)
  · rintro ⟨hkey, rfl | ⟨rfl, rfl⟩⟩
    · rw [takeWhile_append_of_pos (hother hkey), dropWhile_append_of_pos (hother hkey)]
      simp
    · rw [takeWhile_eq_self_iff.mpr (hother hkey), dropWhile_eq_nil_iff.mpr (hother hkey)]
      simp

lemma mem_queryVec_iff {uri : Uri} {key value : String} :
    (key, value) ∈ queryVec uri ↔ ∃ q, uri.query = some q ∧ HasParam q key value := by
  rw [queryVec]
  cases uri.query with
  | none => simp
  | some q =>
    simp only [mem_map, splitPair_eq_iff, Option.some.injEq, exists_eq_left', HasParam]
    constructor
    · rintro ⟨param, hparam, hkey, h⟩
      refine ⟨splitChar '&' q.toList, intercalate_splitOn '&', ?_, hkey, ?_⟩
      · exact fun p hp hc => (mem_of_mem_splitChar hp hc).1 rfl
      · obtain rfl | ⟨rfl, hv⟩ := h
        · exact .inl hparam
        · exact .inr ⟨hparam, hv⟩
    · rintro ⟨params, hq, hsep, hkey, h⟩
      have hne : params ≠ [] := by
        rintro rfl
        simp at h
      rw [splitChar, ← hq, splitOn_intercalate '&' hsep hne]
      obtain h | ⟨h, hv⟩ := h
      · exact ⟨_, h, hkey, .inl rfl⟩
      · exact ⟨_, h, hkey, .inr ⟨rfl, hv⟩⟩

lemma mem_headerVec_iff {headers : HeaderMap} {name text : String} :
    (name, text) ∈ headerVec headers ↔
      ∃ value, (name, value) ∈ headers ∧ value.toStr = some text := by
  simp [headerVec, mem_filterMap]

/-! ### Compiled conditions decide the declarative ones -/

variable {rx} in
lemma compileSafe_eq_some_iff {pattern : String} {re : Re} :
    compileSafe rx pattern = some re ↔ CompilesSafely rx pattern re := by
  rw [compileSafe, CompilesSafely, ← hasRedosRisk_eq_true_iff]
  split_ifs with h <;> simp [h]

lemma validateRegexPatterns_iff (c : RouteMatchConditions) :
    validateRegexPatterns rx c = true ↔ RegexesCompile rx c := by
  have hsome : ∀ pattern, tryCompileRegex rx pattern = true ↔
      ∃ re, CompilesSafely rx pattern re := by
    simp only [tryCompileRegex, Option.isSome_iff_exists, compileSafe_eq_some_iff, implies_true]
  have hvalue : ∀ op value, (!(op == MatchOp.regex && !tryCompileRegex rx value)) = true ↔
      (op = .regex → ∃ re, CompilesSafely rx value re) := by
    intro op value
    cases op <;> simp [← hsome]
  simp only [validateRegexPatterns, Bool.and_eq_true, all_eq_true, hvalue]
  constructor
  · rintro ⟨⟨h₁, h₂⟩, h₃⟩
    refine ⟨?_, h₂, h₃⟩
    intro pattern hpath
    rw [hpath] at h₁
    exact (hsome pattern).mp h₁
  · rintro ⟨h₁, h₂, h₃⟩
    refine ⟨⟨?_, h₂⟩, h₃⟩
    cases hpath : c.path with
    | regex pattern => exact (hsome pattern).mpr (h₁ pattern hpath)
    | exact p => rfl
    | prefixed p => rfl

lemma matchValue_iff (op : MatchOp) (value : String) (sameKey : String → Bool)
    (pairs : List (String × String)) :
    matchValue rx op value (if op = .regex then compileSafe rx value else none) sameKey pairs
        = true ↔
      ∃ k v, (k, v) ∈ pairs ∧ sameKey k = true ∧ ValueHolds rx op value v := by
  cases op <;> simp [matchValue, ValueHolds, any_eq_true, Option.any_eq_true, startsWith,
    compileSafe_eq_some_iff]

lemma zipIdx_all_eq {α β : Type*} (test : α → Option β → Bool) (f : α → Option β) (l : List α) :
    (l.zipIdx.all fun (a, i) => test a ((l.map f)[i]?).join) = l.all fun a => test a (f a) := by
  have hjoin : ∀ a i, (a, i) ∈ l.zipIdx → ((l.map f)[i]?).join = f a := by
    intro a i h
    rw [getElem?_map, mem_zipIdx_iff_getElem?.mp h]
    rfl
  rw [Bool.eq_iff_iff, all_eq_true, all_eq_true]
  constructor
  · intro h a ha
    obtain ⟨i, hi⟩ := mem_iff_getElem?.mp ha
    have hz : (a, i) ∈ l.zipIdx := mem_zipIdx_iff_getElem?.mpr hi
    have := h (a, i) hz
    simp only [hjoin a i hz] at this
    exact this
  · rintro h ⟨a, i⟩ hz
    simp only [hjoin a i hz]
    exact h a (mem_of_getElem? (mem_zipIdx_iff_getElem?.mp hz))

theorem matchesConditions_iff (c : RouteMatchConditions) (method : String) (uri : Uri)
    (headers : HeaderMap) :
    matchesConditions rx c (compile rx c)
        (fromHttpRequest method uri headers true) = true ↔
      ConditionsHold rx c method uri headers := by
  have hpath : matchPath rx c.path uri.path (compile rx c).pathRegex = true ↔
      PathHolds rx c.path uri.path := by
    cases hp : c.path <;> simp [matchPath, PathHolds, compile, hp, startsWith,
      Option.any_eq_true, compileSafe_eq_some_iff]
  have hmethod : matchMethod c.methods (some method) = true ↔
      ∀ ms, c.methods = some ms → ∃ x ∈ ms, eqIgnoreAsciiCase x method = true := by
    cases c.methods <;> simp [matchMethod, any_eq_true]
  have hhost : matchHostCondition c.host ((headers.get "host").bind HeaderValue.toStr) = true ↔
      ∀ pattern, c.host = some pattern →
        ∃ value h, headers.get "host" = some value ∧ value.toStr = some h ∧ Covers pattern h := by
    cases c.host with
    | none => simp [matchHostCondition]
    | some pattern =>
      cases headers.get "host" with
      | none => simp [matchHostCondition]
      | some value => cases hv : value.toStr <;> simp [matchHostCondition, hv, matchHost_iff_covers]
  have hheaders := zipIdx_all_eq (fun hm => matchHeader rx hm (headerVec headers))
    (fun hm => if hm.op = .regex then compileSafe rx hm.value else none) c.headers
  have hquery := zipIdx_all_eq (fun qm => matchQuery rx qm (queryVec uri))
    (fun qm => if qm.op = .regex then compileSafe rx qm.value else none) c.queryParams
  simp only [matchesConditions, fromHttpRequest, Bool.and_eq_true, if_true]
  rw [hpath, hmethod, hhost]
  simp only [compile]
  rw [hheaders, hquery, all_eq_true, all_eq_true]
  simp only [matchHeader, matchQuery, matchValue_iff, beq_iff_eq, mem_headerVec_iff,
    mem_queryVec_iff]
  constructor
  · rintro ⟨⟨⟨⟨h₁, h₂⟩, h₃⟩, h₄⟩, h₅⟩
    refine ⟨h₁, h₂, h₃, ?_, ?_⟩
    · intro hm hmem
      obtain ⟨name, text, ⟨value, hvalue, htext⟩, hname, hholds⟩ := h₄ hm hmem
      exact ⟨name, value, text, hvalue, htext, hname, hholds⟩
    · intro qm hmem
      obtain ⟨_, value, ⟨q, hq, hparam⟩, rfl, hholds⟩ := h₅ qm hmem
      exact ⟨q, value, hq, hparam, hholds⟩
  · rintro ⟨h₁, h₂, h₃, h₄, h₅⟩
    refine ⟨⟨⟨⟨h₁, h₂⟩, h₃⟩, ?_⟩, ?_⟩
    · intro hm hmem
      obtain ⟨name, value, text, hvalue, htext, hname, hholds⟩ := h₄ hm hmem
      exact ⟨name, text, ⟨value, hvalue, htext⟩, hname, hholds⟩
    · intro qm hmem
      obtain ⟨q, value, hq, hparam, hholds⟩ := h₅ qm hmem
      exact ⟨_, value, ⟨q, hq, hparam⟩, rfl, hholds⟩

lemma matchesConditions_without_headers {c : RouteMatchConditions} (hc : c.headers.isEmpty = true)
    (compiled : CompiledMatchers Re) (method : String) (uri : Uri) (headers : HeaderMap)
    (b : Bool) :
    matchesConditions rx c compiled (fromHttpRequest method uri headers b) =
      matchesConditions rx c compiled (fromHttpRequest method uri headers true) := by
  have hnil : c.headers = [] := List.isEmpty_iff.mp hc
  simp [matchesConditions, fromHttpRequest, hnil]

/-! ### What the loop of `load_with_bindings` builds -/

def loadable (dto : RouteDto) : Bool :=
  dto.enabled && validateRegexPatterns rx dto.matchConditions

lemma groupBindings_eq (bindings : List PluginBindingDto) (id : Nat) :
    groupBindings bindings id = bindings.filter fun b => b.enabled && b.routeId == id := by
  have key : ∀ (bs : List PluginBindingDto) (m : Nat → List PluginBindingDto),
      bs.foldl (fun m b => if b.enabled then update m b.routeId (m b.routeId ++ [b])
        else m) m id = m id ++ bs.filter fun b => b.enabled && b.routeId == id := by
    intro bs
    induction bs with
    | nil => intro m; simp
    | cons b bs ih =>
      intro m
      rw [foldl_cons, ih]
      cases hb : b.enabled with
      | false => simp [hb]
      | true =>
        by_cases hid : b.routeId = id
        · subst hid
          simp [hb]
        · simp [hb, hid, update_of_ne (Ne.symm hid)]
  simpa [groupBindings] using key bindings (fun _ => [])

variable {rx} in
lemma loadStep_bindingMap {bodyRequired : String → Bool} {st : LoadState Re} {dto : RouteDto}
    {id : Nat} (h : id ≠ dto.id) :
    (loadStep rx bodyRequired st dto).bindingMap id = st.bindingMap id := by
  rw [loadStep]
  split_ifs
  · rfl
  · rfl
  · exact update_of_ne h _ _

lemma loadStep_routes (bodyRequired : String → Bool) (st : LoadState Re) (dto : RouteDto)
    (p : ProtocolId) :
    ((loadStep rx bodyRequired st dto).routes p).getD [] =
      (st.routes p).getD [] ++
        if loadable rx dto && dto.protocol == p then
          [ofDto rx bodyRequired dto (st.bindingMap dto.id)] else [] := by
  rw [loadStep]
  cases he : dto.enabled with
  | false => simp [loadable, he]
  | true =>
    cases hv : validateRegexPatterns rx dto.matchConditions with
    | false => simp [loadable, he, hv]
    | true =>
      by_cases hp : dto.protocol = p
      · subst hp
        simp [loadable, he, hv]
      · simp [loadable, he, hv, hp, update_of_ne (Ne.symm hp)]

lemma foldl_loadStep_routes (bodyRequired : String → Bool) (p : ProtocolId)
    (dtos : List RouteDto) (st : LoadState Re) (hid : (dtos.map (·.id)).Nodup) :
    ((dtos.foldl (loadStep rx bodyRequired) st).routes p).getD [] =
      (st.routes p).getD [] ++ (dtos.filter fun d => loadable rx d && d.protocol == p).map
        fun d => ofDto rx bodyRequired d (st.bindingMap d.id) := by
  induction dtos generalizing st with
  | nil => simp
  | cons dto dtos ih =>
    rw [map_cons, nodup_cons] at hid
    obtain ⟨hnot, hrest⟩ := hid
    rw [foldl_cons, ih _ hrest, loadStep_routes]
    -- the later routes have other ids, so their bindings are still where they were
    have hlater : ((dtos.filter fun d => loadable rx d && d.protocol == p).map fun d =>
          ofDto rx bodyRequired d
            ((loadStep rx bodyRequired st dto).bindingMap d.id)) =
        (dtos.filter fun d => loadable rx d && d.protocol == p).map fun d =>
          ofDto rx bodyRequired d (st.bindingMap d.id) := by
      apply map_congr_left
      intro d hd
      have hne : d.id ≠ dto.id := by
        intro heq
        exact hnot (mem_map.mpr ⟨d, (mem_filter.mp hd).1, heq⟩)
      rw [loadStep_bindingMap hne]
    rw [hlater, append_assoc]
    congr 1
    by_cases hl : (loadable rx dto && dto.protocol == p) = true
    · simp [hl]
    · simp [hl]

def RouteEntry.loaded (bindings : List PluginBindingDto) (bodyRequired : String → Bool)
    (dto : RouteDto) : RouteEntry Re :=
  ofDto rx bodyRequired dto
    (bindings.filter fun b => b.enabled && b.routeId == dto.id)

theorem loadWithBindings_routes (dtos : List RouteDto) (bindings : List PluginBindingDto)
    (bodyRequired : String → Bool) (hid : (dtos.map (·.id)).Nodup) (p : ProtocolId) :
    ((loadWithBindings rx dtos bindings bodyRequired).routes p).getD [] =
      ((dtos.filter fun d => loadable rx d && d.protocol == p).map
        (loaded rx bindings bodyRequired)).insertionSort le := by
  have hfold := foldl_loadStep_routes rx bodyRequired p dtos
    ⟨fun _ => none, groupBindings bindings⟩ hid
  simp only [groupBindings_eq, Option.getD_none, nil_append] at hfold
  have hmap : ∀ o : Option (List (RouteEntry Re)),
      (o.map (List.insertionSort le)).getD [] =
        (o.getD []).insertionSort le := by
    intro o
    cases o <;> rfl
  simp only [loadWithBindings]
  rw [hmap, hfold]
  rfl

/-! ### The order of the table -/

def RouteEntry.lt (a b : RouteEntry Re) : Prop :=
  b.priority < a.priority ∨ (a.priority = b.priority ∧ a.snapshot.id < b.snapshot.id)

lemma RouteEntry.lt_asymm (a b : RouteEntry Re) (h : a.lt b) : ¬ b.lt a := by
  simp only [lt] at *
  omega

instance : Std.Total (@le Re) where
  total a b := by
    simp only [le]
    omega

instance : IsTrans (RouteEntry Re) le where
  trans a b c := by
    simp only [le]
    omega

lemma pairwise_lt_insertionSort {entries : List (RouteEntry Re)}
    (hid : (entries.map (·.snapshot.id)).Nodup) :
    (entries.insertionSort le).Pairwise lt := by
  have hle := pairwise_insertionSort le entries
  have hne : (entries.insertionSort le).Pairwise
      fun a b => a.snapshot.id ≠ b.snapshot.id := by
    have := ((perm_insertionSort le entries).map (·.snapshot.id)).nodup_iff.mpr hid
    exact pairwise_map.mp this
  refine (hle.and hne).imp ?_
  rintro a b ⟨h, hab⟩
  rw [le] at h
  rw [lt]
  omega

/-! ### The reference -/

lemma RouteTable.matchRoute_eq (table : RouteTable Re) (p : ProtocolId) (info : RouteMatchInfo) :
    table.matchRoute rx p info = ((((table.routes p).getD []).find? fun e =>
      matchesConditions rx e.conditions e.compiled info).map (·.snapshot)) := by
  rw [matchRoute]
  cases table.routes p <;> rfl

lemma matchHttpRequest_eq (dtos : List RouteDto) (bindings : List PluginBindingDto)
    (bodyRequired : String → Bool) (method : String) (uri : Uri) (headers : HeaderMap) :
    ((loadWithBindings rx dtos bindings bodyRequired).matchHttpRequest rx method uri headers).1 =
      (loadWithBindings rx dtos bindings bodyRequired).matchRoute rx .http
        (fromHttpRequest method uri headers true) := by
  set table := loadWithBindings rx dtos bindings bodyRequired with htable
  have hneeds : (table.needsHeaders .http).getD false =
      ((table.routes .http).getD []).any fun e => !e.conditions.headers.isEmpty := by
    simp only [htable, loadWithBindings]
    cases ((dtos.foldl (loadStep rx bodyRequired)
      ⟨fun _ => none, groupBindings bindings⟩).routes .http) <;> rfl
  simp only [matchHttpRequest, matchRoute_eq]
  cases hb : (table.needsHeaders .http).getD false with
  | true => rfl
  | false =>
    rw [hneeds, any_eq_false] at hb
    congr 1
    apply find?_congr
    intro e he
    exact matchesConditions_without_headers rx (by simpa using hb e he) _ _ _ _ _

lemma eligible_iff (method : String) (uri : Uri) (headers : HeaderMap) (dto : RouteDto) :
    Eligible rx method uri headers dto ↔
      (loadable rx dto && dto.protocol == .http) = true ∧
        matchesConditions rx dto.matchConditions (compile rx dto.matchConditions)
          (fromHttpRequest method uri headers true) = true := by
  rw [matchesConditions_iff]
  simp only [loadable, Bool.and_eq_true, beq_iff_eq, validateRegexPatterns_iff]
  constructor
  · rintro ⟨h₁, h₂, h₃, h₄⟩
    exact ⟨⟨⟨h₁, h₃⟩, h₂⟩, h₄⟩
  · rintro ⟨⟨⟨h₁, h₃⟩, h₂⟩, h₄⟩
    exact ⟨h₁, h₂, h₃, h₄⟩

section

variable (dtos : List RouteDto) (bindings : List PluginBindingDto) (bodyRequired : String → Bool)
  (method : String) (uri : Uri) (headers : HeaderMap) (hid : (dtos.map (·.id)).Nodup)
include hid

lemma find?_loaded_iff (e : RouteEntry Re) :
    (((loadWithBindings rx dtos bindings bodyRequired).routes .http).getD []).find? (fun e =>
        matchesConditions rx e.conditions e.compiled
          (fromHttpRequest method uri headers true)) = some e ↔
      ∃ dto, IsReferenceRoute rx dtos method uri headers dto ∧
        e = loaded rx bindings bodyRequired dto := by
  have hsub : ((dtos.filter fun d => loadable rx d && d.protocol == .http).map (·.id)).Nodup :=
    hid.sublist (filter_sublist.map _)
  have hids : (((dtos.filter fun d => loadable rx d && d.protocol == .http).map
      (loaded rx bindings bodyRequired)).map (·.snapshot.id)).Nodup := by
    rw [map_map]
    exact hsub
  rw [loadWithBindings_routes rx dtos bindings bodyRequired hid,
    FirstMatch.find?_eq_some_iff lt_asymm (pairwise_lt_insertionSort hids)]
  constructor
  · rintro ⟨hmem, hmatch, hall⟩
    rw [mem_insertionSort] at hmem
    obtain ⟨dto, hdto, rfl⟩ := mem_map.mp hmem
    obtain ⟨hdto, hload⟩ := mem_filter.mp hdto
    refine ⟨dto, ⟨hdto, (eligible_iff rx method uri headers dto).mpr ⟨hload, hmatch⟩, ?_⟩, rfl⟩
    intro other hother helig hne
    obtain ⟨hload', hmatch'⟩ := (eligible_iff rx method uri headers other).mp helig
    apply hall (loaded rx bindings bodyRequired other) ?_ hmatch'
    · intro heq
      have hsame : other.id = dto.id := congrArg (·.snapshot.id) heq
      exact hne (inj_on_of_nodup_map hid hother hdto hsame)
    · rw [mem_insertionSort]
      exact mem_map_of_mem (mem_filter.mpr ⟨hother, hload'⟩)
  · rintro ⟨dto, ⟨hdto, helig, hfirst⟩, rfl⟩
    obtain ⟨hload, hmatch⟩ := (eligible_iff rx method uri headers dto).mp helig
    refine ⟨?_, hmatch, ?_⟩
    · rw [mem_insertionSort]
      exact mem_map_of_mem (mem_filter.mpr ⟨hdto, hload⟩)
    · intro y hy hmatch' hne
      rw [mem_insertionSort] at hy
      obtain ⟨other, hother, rfl⟩ := mem_map.mp hy
      obtain ⟨hother, hload'⟩ := mem_filter.mp hother
      have helig' := (eligible_iff rx method uri headers other).mpr ⟨hload', hmatch'⟩
      apply hfirst other hother helig'
      rintro rfl
      exact hne rfl

lemma matchHttpRequest_eq_some_iff (s : RouteSnapshot) :
    ((loadWithBindings rx dtos bindings bodyRequired).matchHttpRequest rx method uri headers).1 =
        some s ↔
      ∃ dto, IsReferenceRoute rx dtos method uri headers dto ∧
        s = (loaded rx bindings bodyRequired dto).snapshot := by
  rw [matchHttpRequest_eq, matchRoute_eq, Option.map_eq_some_iff]
  constructor
  · rintro ⟨e, he, rfl⟩
    obtain ⟨dto, hdto, rfl⟩ := (find?_loaded_iff rx _ _ _ _ _ _ hid e).mp he
    exact ⟨dto, hdto, rfl⟩
  · rintro ⟨dto, hdto, rfl⟩
    exact ⟨_, (find?_loaded_iff rx _ _ _ _ _ _ hid _).mpr ⟨dto, hdto, rfl⟩, rfl⟩

lemma matchHttpRequest_eq_none_iff :
    ((loadWithBindings rx dtos bindings bodyRequired).matchHttpRequest rx method uri headers).1 =
        none ↔
      ∀ dto ∈ dtos, ¬ Eligible rx method uri headers dto := by
  rw [matchHttpRequest_eq, matchRoute_eq, Option.map_eq_none_iff, find?_eq_none,
    loadWithBindings_routes rx dtos bindings bodyRequired hid]
  constructor
  · intro h dto hdto helig
    obtain ⟨hload, hmatch⟩ := (eligible_iff rx method uri headers dto).mp helig
    apply h (loaded rx bindings bodyRequired dto) ?_ hmatch
    rw [mem_insertionSort]
    exact mem_map_of_mem (mem_filter.mpr ⟨hdto, hload⟩)
  · intro h e he hmatch
    rw [mem_insertionSort] at he
    obtain ⟨dto, hdto, rfl⟩ := mem_map.mp he
    obtain ⟨hdto, hload⟩ := mem_filter.mp hdto
    exact h dto hdto ((eligible_iff rx method uri headers dto).mpr ⟨hload, hmatch⟩)

end

/-- `match_http_request` returns the reference route, or nothing if no route is eligible, and
the order in which the routes were given does not matter. -/
theorem matchHttpRequest_agrees_with_reference (dtos : List RouteDto)
    (bindings : List PluginBindingDto) (bodyRequired : String → Bool) (method : String)
    (uri : Uri) (headers : HeaderMap) (hid : (dtos.map (·.id)).Nodup) :
    (∀ s, ((loadWithBindings rx dtos bindings bodyRequired).matchHttpRequest rx method uri
        headers).1 = some s ↔
      ∃ dto, IsReferenceRoute rx dtos method uri headers dto ∧
        s = (loaded rx bindings bodyRequired dto).snapshot) ∧
    (((loadWithBindings rx dtos bindings bodyRequired).matchHttpRequest rx method uri
        headers).1 = none ↔ ∀ dto ∈ dtos, ¬ Eligible rx method uri headers dto) ∧
    (∀ dtos', dtos'.Perm dtos →
      ((loadWithBindings rx dtos' bindings bodyRequired).matchHttpRequest rx method uri
        headers).1 =
      ((loadWithBindings rx dtos bindings bodyRequired).matchHttpRequest rx method uri
        headers).1) := by
  refine ⟨matchHttpRequest_eq_some_iff rx dtos bindings bodyRequired method uri headers hid,
    matchHttpRequest_eq_none_iff rx dtos bindings bodyRequired method uri headers hid, ?_⟩
  intro dtos' hperm
  have hid' : (dtos'.map (·.id)).Nodup := (hperm.map (·.id)).nodup_iff.mpr hid
  have href : ∀ dto, IsReferenceRoute rx dtos' method uri headers dto ↔
      IsReferenceRoute rx dtos method uri headers dto := by
    intro dto
    simp only [IsReferenceRoute, hperm.mem_iff]
  apply Option.ext
  intro s
  rw [matchHttpRequest_eq_some_iff rx dtos' bindings bodyRequired method uri headers hid',
    matchHttpRequest_eq_some_iff rx dtos bindings bodyRequired method uri headers hid]
  simp only [href]

theorem matchHttpRequest_agrees_with_reference_two_routes :
    let conditions : RouteMatchConditions :=
      { path := .prefixed "/", methods := none, host := some "*.b.c",
        headers := [⟨"x-tenant", .notEmpty, ""⟩], queryParams := [⟨"v", .exact, "2"⟩] }
    let route : Nat → Int → RouteDto := fun id priority =>
      { id := id, name := "r", protocol := .http, matchConditions := conditions,
        priority := priority, upstreamId := none, hostHeader := none,
        allowRetryNonIdempotent := false, wsStripSensitiveHeaders := true, enabled := true,
        createdAt := 0, updatedAt := 0 }
    let rx : RegexCrate Unit := ⟨fun _ => none, fun _ _ => false⟩
    let uri : Uri := ⟨"/a", some "x&v=2"⟩
    let headers : HeaderMap := [("host", .ofString "a.b.c"), ("x-tenant", .ofString "t")]
    ([route 1 5, route 2 9].map (·.id)).Nodup ∧
    ∃ dto, IsReferenceRoute rx [route 1 5, route 2 9] "GET" uri headers dto ∧ dto.id = 2 := by
  intro conditions route rx uri headers
  have hid : ([route 1 5, route 2 9].map (·.id)).Nodup := by decide
  have hsome : (((loadWithBindings rx [route 1 5, route 2 9] [] fun _ => false).matchHttpRequest rx
      "GET" uri headers).1).map (·.id) = some 2 := by decide +kernel
  obtain ⟨s, hs, hs2⟩ := Option.map_eq_some_iff.mp hsome
  obtain ⟨dto, hdto, rfl⟩ := ((matchHttpRequest_agrees_with_reference rx _ [] (fun _ => false)
    "GET" uri headers hid).1 s).mp hs
  exact ⟨hid, dto, hdto, hs2⟩

end Conrogate
