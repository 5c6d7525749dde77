import Conrogate.Plugins.Framework
import Conrogate.Lib.Template

/-!
# The `header_rewrite` plugin

The placeholders are replaced one kind after the other, and the rules of a section come out of hash
maps in any order.
-/

namespace Conrogate

open List HeaderMap Template

/-! ### Placeholders -/

structure PlaceholderCtx where
  clientIp : String
  requestId : String
  traceId : String
  routeId : Nat
  method : String
  path : String

open PlaceholderCtx

def PlaceholderCtx.ofContext (ctx : PluginContext) : PlaceholderCtx where
  clientIp := ctx.clientIp
  requestId := ctx.requestId
  traceId := ctx.traceId
  routeId := ctx.routeId
  method := (ctx.http.map (·.method)).getD ""
  path := (ctx.http.map (·.path)).getD ""

def replace (s pattern value : String) : String :=
  .ofList (substitute id [(pattern.toList, value.toList)] 0 s.toList)

def resolveValue (raw : String) (ph : PlaceholderCtx) : String :=
  let s := replace raw "$client_ip" ph.clientIp
  let s := replace s "$request_id" ph.requestId
  let s := replace s "$trace_id" ph.traceId
  let s := replace s "$route_id" (toString ph.routeId)
  let s := replace s "$method" ph.method
  replace s "$path" ph.path

def placeholderNames : List (List Char) :=
  ["$client_ip".toList, "$request_id".toList, "$trace_id".toList, "$route_id".toList,
    "$method".toList, "$path".toList]

namespace PlaceholderCtx

variable (ph : PlaceholderCtx)

def values : List (List Char) :=
  [ph.clientIp.toList, ph.requestId.toList, ph.traceId.toList, (toString ph.routeId).toList,
    ph.method.toList, ph.path.toList]

def table : List (List Char × List Char) := placeholderNames.zip ph.values

/-- All placeholders of the configured text at once. -/
def substitute (raw : String) : String := .ofList (Template.substitute id ph.table 0 raw.toList)

/-- The table with letters that tell where they come from: the value of the placeholder `i` is
marked with `i + 1`. -/
def originTable : List (List Char × List (Char × Nat)) :=
  ph.table.mapIdx fun i e => (e.1, e.2.map (·, i + 1))

/-- The simultaneous substitution with the origin of each letter, `0` for the configured text. -/
def substituteOrigins (raw : String) : List (Char × Nat) :=
  Template.substitute Prod.fst ph.originTable 0 (raw.toList.map (·, 0))

/-- `resolve_value` with the origin of each letter. -/
def resolveOrigins (raw : String) : List (Char × Nat) :=
  sequential Prod.fst ph.originTable (raw.toList.map (·, 0))

end PlaceholderCtx

lemma apart_placeholderNames : Template.Apart placeholderNames where
  ne_nil := by decide
  nodup := by decide
  distinct := by decide
  tail := by decide

lemma toList_resolveValue (raw : String) (ph : PlaceholderCtx) :
    (resolveValue raw ph).toList = sequential id ph.table raw.toList := by
  simp [resolveValue, replace, sequential, table, placeholderNames,
    values]

namespace PlaceholderCtx

variable (ph : PlaceholderCtx)

lemma map_originTable : ph.originTable.map (fun e => (e.1, e.2.map Prod.fst)) = ph.table := by
  simp [originTable, table, values, placeholderNames, Function.comp_def]

lemma map_fst_originTable : ph.originTable.map Prod.fst = placeholderNames := by
  simp [originTable, table, values, placeholderNames]

lemma originTable_origin {i : Nat} {e : List Char × List (Char × Nat)}
    (he : ph.originTable[i]? = some e) : ∀ c ∈ e.2, c.2 = i + 1 := by
  rw [originTable, getElem?_mapIdx, Option.map_eq_some_iff] at he
  obtain ⟨_, -, rfl⟩ := he
  simp

end PlaceholderCtx

/-- Every letter of the result comes from where the simultaneous substitution has it from, so that
nothing that was inserted is expanded again, exactly if no placeholder comes about in the configured
text; then the result is that of the simultaneous substitution. -/
theorem resolveValue_verbatim_iff (raw : String) (ph : PlaceholderCtx) :
    (ph.resolveOrigins raw).map Prod.fst = (resolveValue raw ph).toList ∧
    (ph.substituteOrigins raw).map Prod.fst = (ph.substitute raw).toList ∧
    (ph.resolveOrigins raw = ph.substituteOrigins raw ↔
      Template.NoneArises id ph.table raw.toList) ∧
    (Template.NoneArises id ph.table raw.toList → resolveValue raw ph = ph.substitute raw) := by
  have hraw : (raw.toList.map fun c => (c, 0)).map Prod.fst = raw.toList := by
    simp [Function.comp_def]
  have hresolve : (ph.resolveOrigins raw).map Prod.fst = (resolveValue raw ph).toList := by
    rw [PlaceholderCtx.resolveOrigins, map_sequential, ph.map_originTable, hraw,
      toList_resolveValue]
  have hsubstitute : (ph.substituteOrigins raw).map Prod.fst = (ph.substitute raw).toList := by
    rw [PlaceholderCtx.substituteOrigins, map_substitute, ph.map_originTable, hraw,
      PlaceholderCtx.substitute, String.toList_ofList]
  have hiff : ph.resolveOrigins raw = ph.substituteOrigins raw ↔
      Template.NoneArises id ph.table raw.toList := by
    have hnone := noneArises_map Prod.fst ph.originTable (raw.toList.map fun c => (c, 0))
    rw [ph.map_originTable, hraw] at hnone
    rw [← hnone]
    refine sequential_eq_substitute_iff Prod.snd ?_ (by simp)
      fun i e => ph.originTable_origin
    rw [ph.map_fst_originTable]
    exact apart_placeholderNames
  refine ⟨hresolve, hsubstitute, hiff, fun hnone => ?_⟩
  rw [← String.toList_inj, ← hresolve, ← hsubstitute, hiff.mpr hnone]

/-- A request for the path `/admin` with the trace identifier `$path`. -/
def adminRequest : PluginContext :=
  { PluginContext.of "10.0.0.1" (some ⟨"GET", "/admin", fun _ => none, [], none⟩) with
    traceId := "$path" }

/-- A trace identifier that names a placeholder is replaced by the path. -/
theorem resolveValue_expands_traceId :
    (ofContext adminRequest).substitute "$trace_id" = "$path" ∧
      resolveValue "$trace_id" (.ofContext adminRequest) = "/admin" := by
  decide +kernel

/-! ### Rules -/

structure HeaderRewriteSection where
  set : List (String × String)
  add : List (String × String)
  remove : List String

structure HeaderRewriteConfig where
  request : HeaderRewriteSection
  response : HeaderRewriteSection

def isTokenChar (c : Char) : Bool := c.isAlphanum || "!#$%&'*+-.^_`|~".toList.contains c

def headerName (name : String) : Option String :=
  if name ≠ "" ∧ name.length ≤ 65535 ∧ name.toList.all isTokenChar then
    some (toAsciiLowercase name)
  else none

def resolveEntry (ph : PlaceholderCtx) (entry : String × String) : Option (String × HeaderValue) :=
  (headerName entry.1).bind fun n =>
    (HeaderValue.parse (resolveValue entry.2 ph)).map fun v => (n, v)

def applyEntries (ph : PlaceholderCtx) (rule : HeaderMap → String × HeaderValue → HeaderMap)
    (entries : List (String × String)) (headers : HeaderMap) : HeaderMap :=
  entries.foldl (fun headers entry =>
    match resolveEntry ph entry with
    | some e => rule headers e
    | none   => headers) headers

namespace HeaderRewriteSection

variable (rules : HeaderRewriteSection)

def validateSection (debug : String → String) : Result Unit := do
  for name in rules.set.map Prod.fst ++ rules.add.map Prod.fst ++ rules.remove do
    if (headerName name).isNone then
      throw (.pluginConfigInvalid s!"invalid header name: {name}")
  for value in rules.set.map Prod.snd ++ rules.add.map Prod.snd do
    if (HeaderValue.parse value).isNone then
      throw (.pluginConfigInvalid
        s!"invalid header value for {debug value}: contains CR/LF or control characters")

def removed (headers : HeaderMap) : HeaderMap :=
  rules.remove.foldl (fun headers name =>
    match headerName name with
    | some n => headers.remove n
    | none   => headers) headers

def applySection (headers : HeaderMap) (ph : PlaceholderCtx) : HeaderMap :=
  let headers := rules.removed headers
  let headers := applyEntries ph (fun headers e => headers.insert e.1 e.2) rules.set headers
  applyEntries ph (fun headers e => headers ++ [e]) rules.add headers

end HeaderRewriteSection

namespace HeaderRewriteConfig

variable (config : HeaderRewriteConfig) (ctx : PluginContext)

def beforeRequest : PluginContext × PluginOutcome :=
  ({ ctx with http := ctx.http.map fun http =>
      { http with headers := config.request.applySection http.headers (.ofContext ctx) } },
    .continue_)

def afterResponse (resp : PluginResponse) : PluginResponse :=
  { resp with headers := config.response.applySection resp.headers (.ofContext ctx) }

end HeaderRewriteConfig

/-- The rules that are not skipped and name one header give it one value. -/
def Agree (ph : PlaceholderCtx) (entries : List (String × String)) : Prop :=
  ∀ e ∈ entries, ∀ e' ∈ entries, ∀ n v v',
    resolveEntry ph e = some (n, v) → resolveEntry ph e' = some (n, v') → v = v'

def valuesFor (ph : PlaceholderCtx) (entries : List (String × String)) (name : String) :
    List HeaderValue :=
  HeaderMap.getAll (entries.filterMap (resolveEntry ph)) name

namespace HeaderMap

lemma getAll_foldl_insert (entries : HeaderMap) (headers : HeaderMap) (name : String) :
    (entries.foldl (fun headers e => headers.insert e.1 e.2) headers).getAll name =
      ((entries.getAll name).getLast?.map fun v => [v]).getD (headers.getAll name) := by
  induction entries using List.reverseRecOn with
  | nil => rfl
  | append_singleton entries e ih =>
    rw [foldl_append, foldl_cons, foldl_nil, getAll_append]
    by_cases hname : e.1 = name
    · subst hname
      rw [getAll_insert_self, getAll_cons_self, getAll]
      simp [getAll]
    · rw [getAll_insert_of_ne _ hname, ih, getAll_cons_of_ne _ hname]
      simp [getAll]

end HeaderMap

variable {name : String} {v : HeaderValue} {e : String × String}

section

variable {ph : PlaceholderCtx} {entries entries' : List (String × String)}

lemma mem_valuesFor : v ∈ valuesFor ph entries name ↔
    ∃ e ∈ entries, resolveEntry ph e = some (name, v) := by
  simp [valuesFor, getAll]

lemma valuesFor_append (name : String) : valuesFor ph (entries ++ entries') name =
    valuesFor ph entries name ++ valuesFor ph entries' name := by
  rw [valuesFor, filterMap_append, getAll_append, valuesFor, valuesFor]

lemma valuesFor_singleton (h : resolveEntry ph e = some (name, v)) :
    valuesFor ph [e] name = [v] := by
  simp [valuesFor, getAll, h]

lemma valuesFor_of_perm (h : Agree ph entries) (hperm : entries'.Perm entries) (name : String) :
    valuesFor ph entries' name = valuesFor ph entries name := by
  have hvalues : (valuesFor ph entries' name).Perm (valuesFor ph entries name) :=
    ((hperm.filterMap _).filter _).map _
  have hany : ∀ l : List HeaderValue, l.Pairwise fun _ _ => True := fun l =>
    pairwise_of_forall fun _ _ => trivial
  refine hvalues.eq_of_pairwise (fun v v' hv hv' _ _ => ?_) (hany _) (hany _)
  obtain ⟨e, he, hv⟩ := mem_valuesFor.mp hv
  obtain ⟨e', he', hv'⟩ := mem_valuesFor.mp hv'
  exact h e (hperm.subset he) e' he' name v v' hv hv'

end

namespace HeaderRewriteSection

variable (rules : HeaderRewriteSection) (headers : HeaderMap) (ph : PlaceholderCtx)

lemma getAll_applySection (name : String) : (rules.applySection headers ph).getAll name =
    ((valuesFor ph rules.set name).getLast?.map fun v => [v]).getD
      ((rules.removed headers).getAll name) ++ valuesFor ph rules.add name := by
  have hloop : ∀ rule entries headers, applyEntries ph rule entries headers =
      (entries.filterMap (resolveEntry ph)).foldl rule headers := by
    intro rule entries headers
    rw [applyEntries, foldl_filterMap]
    congr 1
    funext headers entry
    cases resolveEntry ph entry <;> rfl
  rw [applySection, hloop, hloop, foldl_append_eq_append, getAll_append,
    getAll_foldl_insert, ← flatMap_def, flatMap_singleton']
  rfl

variable {rules ph}

lemma getAll_applySection_set (h : resolveEntry ph e = some (name, v))
    (set : List (String × String)) :
    (applySection ⟨set ++ [e], rules.add, rules.remove⟩ headers ph).getAll name =
      v :: valuesFor ph rules.add name := by
  simp [getAll_applySection, valuesFor_append, valuesFor_singleton h]

variable (rules ph)

/-- The order of the rules does not matter exactly if rules of one kind that name the same header,
in whatever case, agree on its value. -/
theorem applySection_order_free_iff :
    (∀ set' add', set'.Perm rules.set → add'.Perm rules.add → ∀ headers : HeaderMap, ∀ name,
      (applySection ⟨set', add', rules.remove⟩ headers ph).getAll name =
        (rules.applySection headers ph).getAll name) ↔
      Agree ph rules.set ∧ Agree ph rules.add := by
  constructor
  · intro h
    refine ⟨fun e he e' he' n v v' hv hv' => ?_, fun e he e' he' n v v' hv hv' => ?_⟩
    -- the last of the rules that set a header decides its value
    · have hlast := fun e (he : e ∈ rules.set) =>
        h (rules.set.erase e ++ [e]) rules.add
          ((perm_append_singleton ..).trans (perm_cons_erase he).symm) (.refl _) [] n
      have heq := (hlast e he).trans (hlast e' he').symm
      rw [getAll_applySection_set _ hv, getAll_applySection_set _ hv'] at heq
      exact (List.cons.inj heq).1
    -- the first of the rules that add a header comes first among its values
    · have hfirst := fun e (he : e ∈ rules.add) =>
        h rules.set ([e] ++ rules.add.erase e) (.refl _) (perm_cons_erase he).symm [] n
      have heq := (hfirst e he).trans (hfirst e' he').symm
      simp only [getAll_applySection, valuesFor_append, valuesFor_singleton hv,
        valuesFor_singleton hv'] at heq
      exact (List.cons.inj (append_cancel_left heq)).1
  · rintro ⟨hset, hadd⟩ set' add' hset' hadd' headers name
    simp only [getAll_applySection, valuesFor_of_perm hset hset', valuesFor_of_perm hadd hadd']
    rfl

/-- An accepted section with a header in two spellings, in both hooks of the plugin. -/
theorem applySection_depends_on_order :
    let rules : HeaderRewriteSection := ⟨[("X-A", "1"), ("x-a", "2")], [], []⟩
    let config : HeaderRewriteConfig := ⟨rules, { rules with set := rules.set.reverse }⟩
    (∀ debug, rules.validateSection debug = .ok ()) ∧
      ((config.beforeRequest adminRequest).1.http.map fun http => http.headers.getAll "x-a") =
        some [.ofString "2"] ∧
      (config.afterResponse adminRequest ⟨200, [], []⟩).headers.getAll "x-a" =
        [.ofString "1"] :=
  ⟨fun _ => rfl, by decide +kernel, by decide +kernel⟩

end HeaderRewriteSection

end Conrogate
