import Conrogate.Core.Dto

/-!
# The route matcher

Each protocol has its own list of routes, sorted by priority; regular expressions are compiled when
the table is built. The `regex` crate is a parameter.
-/

namespace Conrogate

/-- What the matcher uses of the `regex` crate. -/
structure RegexCrate (Re : Type) where
  new : String → Option Re
  isMatch : Re → String → Bool

variable {Re : Type}

/-! ### Compiling regular expressions -/

def hasBackreference : List UInt8 → Bool
  | b :: c :: rest =>
    (b == 92 && (48 ≤ c && c ≤ 57)) || hasBackreference (c :: rest)
  | _ => false

def hasRedosRisk (pattern : String) : Bool :=
  hasBackreference (bytes pattern) ||
    (containsText pattern "(.+" && containsText pattern "+" &&
      (containsText pattern "(.+)+" || containsText pattern "(.*)*" ||
        containsText pattern "(.+)*" || containsText pattern "(.*)+"))

/-- `compile_safe`: patterns that look dangerous are not compiled at all. -/
def compileSafe (rx : RegexCrate Re) (pattern : String) : Option Re :=
  if hasRedosRisk pattern then none else rx.new pattern

def tryCompileRegex (rx : RegexCrate Re) (pattern : String) : Bool :=
  (compileSafe rx pattern).isSome

def validateRegexPatterns (rx : RegexCrate Re) (c : RouteMatchConditions) : Bool :=
  (match c.path with
    | .regex pattern => tryCompileRegex rx pattern
    | _ => true) &&
  (c.headers.all fun hm => !(hm.op == .regex && !tryCompileRegex rx hm.value)) &&
  (c.queryParams.all fun qm => !(qm.op == .regex && !tryCompileRegex rx qm.value))

structure CompiledMatchers (Re : Type) where
  pathRegex : Option Re
  headerRegexes : List (Option Re)
  queryRegexes : List (Option Re)

def CompiledMatchers.compile (rx : RegexCrate Re) (c : RouteMatchConditions) :
    CompiledMatchers Re where
  pathRegex := match c.path with
    | .regex pattern => compileSafe rx pattern
    | _ => none
  headerRegexes := c.headers.map fun hm =>
    if hm.op = .regex then compileSafe rx hm.value else none
  queryRegexes := c.queryParams.map fun qm =>
    if qm.op = .regex then compileSafe rx qm.value else none

/-! ### The table -/

structure RouteEntry (Re : Type) where
  snapshot : RouteSnapshot
  conditions : RouteMatchConditions
  priority : Int
  compiled : CompiledMatchers Re

structure RouteTable (Re : Type) where
  routes : ProtocolId → Option (List (RouteEntry Re))
  needsHeaders : ProtocolId → Option Bool

def RouteTable.empty : RouteTable Re := ⟨fun _ => none, fun _ => none⟩

def groupBindings (bindings : List PluginBindingDto) : Nat → List PluginBindingDto :=
  bindings.foldl
    (fun m b => if b.enabled then Function.update m b.routeId (m b.routeId ++ [b]) else m)
    (fun _ => [])

def RouteEntry.ofDto (rx : RegexCrate Re) (bodyRequired : String → Bool) (dto : RouteDto)
    (routeBindings : List PluginBindingDto) : RouteEntry Re where
  conditions := dto.matchConditions
  priority := dto.priority
  compiled := CompiledMatchers.compile rx dto.matchConditions
  snapshot :=
    { id := dto.id
      protocol := dto.protocol
      upstreamId := dto.upstreamId
      hostHeader := dto.hostHeader
      allowRetryNonIdempotent := dto.allowRetryNonIdempotent
      wsStripSensitiveHeaders := dto.wsStripSensitiveHeaders
      pluginChain := routeBindings
      requiresBody := routeBindings.any fun b => bodyRequired b.pluginName }

structure LoadState (Re : Type) where
  routes : ProtocolId → Option (List (RouteEntry Re))
  bindingMap : Nat → List PluginBindingDto

def loadStep (rx : RegexCrate Re) (bodyRequired : String → Bool) (st : LoadState Re)
    (dto : RouteDto) : LoadState Re :=
  if !dto.enabled then st
  else if !validateRegexPatterns rx dto.matchConditions then st
  else
    let entry := RouteEntry.ofDto rx bodyRequired dto (st.bindingMap dto.id)
    { routes := Function.update st.routes dto.protocol
        (some ((st.routes dto.protocol).getD [] ++ [entry]))
      bindingMap := Function.update st.bindingMap dto.id [] }

def RouteEntry.le (a b : RouteEntry Re) : Prop :=
  b.priority < a.priority ∨ (a.priority = b.priority ∧ a.snapshot.id ≤ b.snapshot.id)

instance (a b : RouteEntry Re) : Decidable (a.le b) :=
  inferInstanceAs (Decidable (_ ∨ _))

def loadWithBindings (rx : RegexCrate Re) (dtos : List RouteDto)
    (bindings : List PluginBindingDto) (bodyRequired : String → Bool) : RouteTable Re :=
  let st := dtos.foldl (loadStep rx bodyRequired) ⟨fun _ => none, groupBindings bindings⟩
  let routes := fun p => (st.routes p).map (List.insertionSort RouteEntry.le)
  { routes := routes
    needsHeaders := fun p => (routes p).map fun entries =>
      entries.any fun e => !e.conditions.headers.isEmpty }

/-! ### Matching one route -/

def matchPath (rx : RegexCrate Re) (pm : PathMatch) (requestPath : String)
    (regex : Option Re) : Bool :=
  match pm with
  | .exact p    => requestPath == p
  | .prefixed p => startsWith requestPath p
  | .regex _    => regex.any fun re => rx.isMatch re requestPath

def matchHost (pattern host : String) : Bool :=
  if eqIgnoreAsciiCase pattern host then true
  else match bytes pattern with
    | 42 :: 46 :: suffix =>
      let h := bytes host
      let hlen := h.length
      let slen := suffix.length
      if hlen > slen + 1 && h[hlen - slen - 1]? == some 46 then
        let label := h.take (hlen - slen - 1)
        if label.isEmpty || label.contains 46 then false
        else eqIgnoreCase suffix (h.drop (hlen - slen))
      else false
    | _ => false

def matchValue (rx : RegexCrate Re) (op : MatchOp) (value : String) (regex : Option Re)
    (sameKey : String → Bool) (pairs : List (String × String)) : Bool :=
  match op with
  | .exact    => pairs.any fun p => sameKey p.1 && p.2 == value
  | .prefixed => pairs.any fun p => sameKey p.1 && startsWith p.2 value
  | .regex    => pairs.any fun p => sameKey p.1 && regex.any fun re => rx.isMatch re p.2
  | .notEmpty => pairs.any fun p => sameKey p.1 && !p.2.isEmpty

def matchHeader (rx : RegexCrate Re) (hm : HeaderMatch) (headers : List (String × String))
    (regex : Option Re) : Bool :=
  matchValue rx hm.op hm.value regex (fun k => eqIgnoreAsciiCase k hm.key) headers

def matchQuery (rx : RegexCrate Re) (qm : QueryMatch) (params : List (String × String))
    (regex : Option Re) : Bool :=
  matchValue rx qm.op qm.value regex (fun k => k == qm.key) params

def matchMethod (methods : Option (List String)) (method : Option String) : Bool :=
  match methods with
  | none => true
  | some ms => match method with
    | some m => ms.any fun x => eqIgnoreAsciiCase x m
    | none   => false

def matchHostCondition (host : Option String) (infoHost : Option String) : Bool :=
  match host with
  | none => true
  | some pattern => match infoHost with
    | some h => matchHost pattern h
    | none   => false

def matchesConditions (rx : RegexCrate Re) (c : RouteMatchConditions)
    (compiled : CompiledMatchers Re) (info : RouteMatchInfo) : Bool :=
  matchPath rx c.path info.path compiled.pathRegex &&
  matchMethod c.methods info.method &&
  matchHostCondition c.host info.host &&
  (c.headers.zipIdx.all fun (hm, i) =>
    matchHeader rx hm info.headers (compiled.headerRegexes[i]?).join) &&
  (c.queryParams.zipIdx.all fun (qm, i) =>
    matchQuery rx qm info.queryParams (compiled.queryRegexes[i]?).join)

/-! ### Searching the table -/

def RouteTable.matchRoute (rx : RegexCrate Re) (table : RouteTable Re) (protocol : ProtocolId)
    (info : RouteMatchInfo) : Option RouteSnapshot :=
  (table.routes protocol).bind fun entries =>
    (entries.find? fun e => matchesConditions rx e.conditions e.compiled info).map (·.snapshot)

def RouteTable.matchHttpRequest (rx : RegexCrate Re) (table : RouteTable Re) (method : String)
    (uri : Uri) (headers : HeaderMap) : Option RouteSnapshot × RouteMatchInfo :=
  let needsHeaders := (table.needsHeaders .http).getD false
  let info := RouteMatchInfo.fromHttpRequest method uri headers needsHeaders
  (table.matchRoute rx .http info, info)

end Conrogate
