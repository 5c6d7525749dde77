import Conrogate.Gateway.RouteReference
import Conrogate.Lib.Transition
import Conrogate.Protocol.Http

/-!
# A request on its way to its route

`process` looks for the route before the body is read, and `handle` looks again if there was none.
The route table can be replaced in between.
-/

namespace Conrogate

open List Option Transition RouteMatchInfo RouteTable

variable {Re : Type}

inductive BodyOutcome where
  | collected (length : Nat)
  | readError
  | timedOut

inductive DispatchStage where
  | arrived
  | streaming (route : RouteSnapshot)
  | collecting (preMatched : Option RouteSnapshot) (info : RouteMatchInfo)
  | collected (preMatched : Option RouteSnapshot) (info : RouteMatchInfo)
  | routed (found : Result RouteSnapshot)
  | answered (status : Nat)

/-- A request and the route table that reloads swap under it. -/
structure Dispatch (Re : Type) where
  table : RouteTable Re
  installed : List (RouteTable Re)
  stage : DispatchStage

open Dispatch

inductive DispatchEvent where
  | swap (dtos : List RouteDto) (bindings : List PluginBindingDto) (bodyRequired : String → Bool)
  | matchRequest
  | readBody (outcome : BodyOutcome)
  | handle (blocked : Bool)

def Dispatch.start (table : RouteTable Re) : Dispatch Re where
  table := table
  installed := [table]
  stage := .arrived

def RouteTable.isEmpty (table : RouteTable Re) : Bool :=
  [ProtocolId.http, .webSocket, .tcpTunnel].all fun p => ((table.routes p).getD []).isEmpty

def probeStatus (table : RouteTable Re) (req : HttpRequest) : Option Nat :=
  if req.method == "GET" && req.uri.path == "/healthz" then some 200
  else if req.method == "GET" && req.uri.path == "/readyz" then
    some (if table.isEmpty then 503 else 200)
  else none

def announcedLength (req : HttpRequest) : Option Nat :=
  ((req.headers.get "content-length").bind HeaderValue.toStr).bind fun s =>
    parseUnsigned 0xFFFFFFFFFFFFFFFF s.toList

def announcesTooMuch (maxBodyBytes : Nat) (req : HttpRequest) : Bool :=
  (announcedLength req).any (maxBodyBytes < ·)

section

variable (rx : RegexCrate Re) (maxBodyBytes : Nat) (req : HttpRequest)

def Dispatch.processHead (table : RouteTable Re) : DispatchStage :=
  match probeStatus table req with
  | some status => .answered status
  | none =>
    let matched := table.matchHttpRequest rx req.method req.uri req.headers
    match matched.1 with
    | some route =>
      if route.requiresBody then .collecting matched.1 matched.2
      else if announcesTooMuch maxBodyBytes req then .answered 413
      else .streaming route
    | none => .collecting none matched.2

def Dispatch.afterBody (preMatched : Option RouteSnapshot) (info : RouteMatchInfo) :
    BodyOutcome → DispatchStage
  | .collected length =>
    if maxBodyBytes < length then .answered 413 else .collected preMatched info
  | .readError => .answered 400
  | .timedOut  => .answered 408

/-- The route in `handle`: the one that was found before, or the one found now. -/
def findRoute (table : RouteTable Re) (preMatched : Option RouteSnapshot)
    (info : RouteMatchInfo) : Result RouteSnapshot :=
  match preMatched with
  | some route => .ok route
  | none => match table.matchRoute rx .http info with
    | some route => .ok route
    | none => .error (.routeNotFound info.path)

def dispatchStep (s : Dispatch Re) : DispatchEvent → Option (Dispatch Re)
  | .swap dtos bindings bodyRequired =>
    let table := loadWithBindings rx dtos bindings bodyRequired
    some { s with table := table, installed := s.installed ++ [table] }
  | .matchRequest => match s.stage with
    | .arrived => some { s with stage := processHead rx maxBodyBytes req s.table }
    | _ => none
  | .readBody outcome => match s.stage with
    | .collecting preMatched info =>
      some { s with stage := afterBody maxBodyBytes preMatched info outcome }
    | _ => none
  | .handle blocked => match s.stage with
    | .streaming route =>
      some { s with stage := if blocked then .answered 403 else .routed (.ok route) }
    | .collected preMatched info => some
      { s with
        stage := if blocked then .answered 403
          else .routed (findRoute rx s.table preMatched info) }
    | _ => none

def fullInfo : RouteMatchInfo :=
  fromHttpRequest req.method req.uri req.headers true

def firstMatch (table : RouteTable Re) : Result RouteSnapshot :=
  findRoute rx table none (fullInfo req)

end

/-! ### Tables that were loaded -/

section loaded

variable (rx : RegexCrate Re)

/-- A table that `load_with_bindings` has built. -/
def RouteTable.Loaded (table : RouteTable Re) : Prop :=
  ∃ dtos bindings bodyRequired, table = loadWithBindings rx dtos bindings bodyRequired

variable {rx} {table : RouteTable Re} {p : ProtocolId}

lemma RouteTable.Loaded.protocol (h : table.Loaded rx) {e : RouteEntry Re}
    (he : e ∈ (table.routes p).getD []) : e.snapshot.protocol = p := by
  obtain ⟨dtos, bindings, bodyRequired, rfl⟩ := h
  have hfold : ∀ e ∈ ((dtos.foldl (loadStep rx bodyRequired)
      ⟨fun _ => none, groupBindings bindings⟩).routes p).getD [], e.snapshot.protocol = p := by
    refine List.foldlRecOn dtos (loadStep rx bodyRequired)
      (motive := fun st => ∀ e ∈ (st.routes p).getD [], e.snapshot.protocol = p) ?_ ?_
    · simp
    · intro st hst dto _ e he
      rw [loadStep_routes, mem_append] at he
      obtain he | he := he
      · exact hst e he
      · split at he
        · next hload =>
          obtain rfl := mem_singleton.mp he
          exact beq_iff_eq.mp (Bool.and_eq_true_iff.mp hload).2
        · simp at he
  simp only [loadWithBindings] at he
  cases hroutes : (dtos.foldl (loadStep rx bodyRequired)
      ⟨fun _ => none, groupBindings bindings⟩).routes p with
  | none => simp [hroutes] at he
  | some entries =>
    rw [hroutes] at hfold he
    exact hfold e ((mem_insertionSort RouteEntry.le).mp he)

lemma RouteTable.Loaded.matchRoute_protocol (h : table.Loaded rx) {info : RouteMatchInfo}
    {route : RouteSnapshot} (hroute : table.matchRoute rx p info = some route) :
    route.protocol = p := by
  rw [matchRoute_eq, map_eq_some_iff] at hroute
  obtain ⟨e, he, rfl⟩ := hroute
  exact h.protocol (mem_of_find?_eq_some he)

lemma RouteTable.Loaded.matchHttpRequest_fst (h : table.Loaded rx) (req : HttpRequest) :
    (table.matchHttpRequest rx req.method req.uri req.headers).1 =
      table.matchRoute rx .http (fullInfo req) := by
  obtain ⟨dtos, bindings, bodyRequired, rfl⟩ := h
  exact matchHttpRequest_eq rx dtos bindings bodyRequired req.method req.uri req.headers

end loaded

/-! ### Searching without headers -/

lemma matchesConditions_of_headers (rx : RegexCrate Re) {c : RouteMatchConditions}
    (hc : c.headers ≠ []) (compiled : CompiledMatchers Re) (method : String) (uri : Uri)
    (headers : HeaderMap) :
    matchesConditions rx c compiled (fromHttpRequest method uri headers false) =
      false := by
  obtain ⟨hm, rest, hcons⟩ := exists_cons_of_ne_nil hc
  have hfalse : ∀ regex, matchHeader rx hm [] regex = false := by
    intro regex
    cases hop : hm.op <;> simp [matchHeader, matchValue, hop]
  simp [matchesConditions, fromHttpRequest, hcons, hfalse]

lemma matchesConditions_false_eq (rx : RegexCrate Re) (e : RouteEntry Re) (req : HttpRequest) :
    matchesConditions rx e.conditions e.compiled
        (fromHttpRequest req.method req.uri req.headers false) =
      (e.conditions.headers.isEmpty &&
        matchesConditions rx e.conditions e.compiled (fullInfo req)) := by
  cases hc : e.conditions.headers.isEmpty with
  | true =>
    rw [matchesConditions_without_headers rx hc]
    rfl
  | false =>
    rw [matchesConditions_of_headers rx (by simpa using hc)]
    rfl

def RouteTable.httpEntries (table : RouteTable Re) : List (RouteEntry Re) :=
  (table.routes .http).getD []

/-- A search with the given information is as good as one with all headers: they are all there,
or the first route that takes the request asks for none, or no route that asks for none takes
it. -/
def LookupSafe (rx : RegexCrate Re) (req : HttpRequest) (table : RouteTable Re)
    (info : RouteMatchInfo) : Prop :=
  info = fullInfo req ∨
  (∀ e, (table.httpEntries.find? fun e =>
    matchesConditions rx e.conditions e.compiled (fullInfo req)) = some e →
      e.conditions.headers = []) ∨
  ∀ e ∈ table.httpEntries, e.conditions.headers = [] →
    matchesConditions rx e.conditions e.compiled (fullInfo req) = false

lemma find?_and {α : Type*} {p q : α → Bool} {l : List α}
    (h : ∀ a, l.find? p = some a → q a = true) :
    (l.find? fun a => q a && p a) = l.find? p := by
  induction l with
  | nil => rfl
  | cons a l ih =>
    cases hp : p a with
    | true =>
      have hq : q a = true := h a (by simp [hp])
      simp [hp, hq]
    | false =>
      have hrest : ∀ b, l.find? p = some b → q b = true := fun b hb => h b (by simpa [hp] using hb)
      simpa [hp] using ih hrest

variable {table : RouteTable Re}

lemma LookupSafe.matchRoute {rx : RegexCrate Re} {req : HttpRequest} {b : Bool}
    (h : LookupSafe rx req table (fromHttpRequest req.method req.uri req.headers b)) :
    table.matchRoute rx .http (fromHttpRequest req.method req.uri req.headers b) =
        table.matchRoute rx .http (fullInfo req) ∨
      table.matchRoute rx .http (fromHttpRequest req.method req.uri req.headers b) =
        none := by
  cases b with
  | true => exact .inl rfl
  | false =>
    obtain hfull | hfirst | hnone := h
    · exact .inl (by rw [hfull])
    · left
      rw [matchRoute_eq, matchRoute_eq]
      simp only [matchesConditions_false_eq]
      rw [find?_and]
      intro e he
      simpa using hfirst e he
    · right
      rw [matchRoute_eq, map_eq_none_iff, find?_eq_none]
      intro e he
      rw [matchesConditions_false_eq]
      simpa using hnone e he

/-! ### What is known on the way -/

section invariant

variable (rx : RegexCrate Re) (maxBodyBytes : Nat) (req : HttpRequest)

def DispatchStage.Sound (Q : List (RouteTable Re) → Result RouteSnapshot → Prop)
    (installed : List (RouteTable Re)) : DispatchStage → Prop
  | .arrived | .answered _ => True
  | .streaming route => ∃ table ∈ installed, table.matchRoute rx .http (fullInfo req) = some route
  | .collecting preMatched info | .collected preMatched info =>
    (∃ table ∈ installed, table.matchRoute rx .http (fullInfo req) = preMatched) ∧
      ∃ b, info = fromHttpRequest req.method req.uri req.headers b
  | .routed found => Q installed found

structure DispatchInv (Q : List (RouteTable Re) → Result RouteSnapshot → Prop)
    (s : Dispatch Re) : Prop where
  current : s.table ∈ s.installed
  loaded : ∀ table ∈ s.installed, table.Loaded rx
  stage : s.stage.Sound rx req Q s.installed

variable {rx maxBodyBytes req}
  {Q : List (RouteTable Re) → Result RouteSnapshot → Prop} {s s' : Dispatch Re}

lemma DispatchInv.start (h : table.Loaded rx) :
    DispatchInv rx req Q (start table) where
  current := mem_singleton.mpr rfl
  loaded := by
    intro t ht
    obtain rfl := mem_singleton.mp ht
    exact h
  stage := trivial

lemma DispatchStage.Sound.append (hmono : ∀ ts found table, Q ts found → Q (ts ++ [table]) found)
    {installed : List (RouteTable Re)} {stage : DispatchStage} (table : RouteTable Re)
    (h : stage.Sound rx req Q installed) : stage.Sound rx req Q (installed ++ [table]) := by
  have hmem : ∀ o : Option RouteSnapshot,
      (∃ t ∈ installed, t.matchRoute rx .http (fullInfo req) = o) →
      ∃ t ∈ installed ++ [table], t.matchRoute rx .http (fullInfo req) = o := by
    rintro o ⟨t, ht, heq⟩
    exact ⟨t, mem_append_left _ ht, heq⟩
  cases stage with
  | arrived => trivial
  | answered status => trivial
  | streaming route => exact hmem _ h
  | collecting preMatched info => exact ⟨hmem _ h.1, h.2⟩
  | collected preMatched info => exact ⟨hmem _ h.1, h.2⟩
  | routed found => exact hmono _ _ _ h

lemma DispatchInv.processHead (h : DispatchInv rx req Q s) :
    (Dispatch.processHead rx maxBodyBytes req s.table).Sound rx req Q s.installed := by
  have hfst := (h.loaded _ h.current).matchHttpRequest_fst req
  have hsnd : (s.table.matchHttpRequest rx req.method req.uri req.headers).2 =
      fromHttpRequest req.method req.uri req.headers
        ((s.table.needsHeaders .http).getD false) := rfl
  dsimp only [Dispatch.processHead]
  cases probeStatus s.table req with
  | some status => trivial
  | none =>
    dsimp only
    cases hmatched : (s.table.matchHttpRequest rx req.method req.uri req.headers).1 with
    | none => exact ⟨⟨s.table, h.current, by rw [← hfst, hmatched]⟩, _, hsnd⟩
    | some route =>
      have hfound : ∃ t ∈ s.installed, t.matchRoute rx .http (fullInfo req) = some route :=
        ⟨s.table, h.current, by rw [← hfst, hmatched]⟩
      dsimp only
      split_ifs
      · exact ⟨hfound, _, hsnd⟩
      · trivial
      · exact hfound

lemma DispatchInv.step (hmono : ∀ ts found table, Q ts found → Q (ts ++ [table]) found)
    (hstream : ∀ table ∈ s.installed, ∀ route,
      table.matchRoute rx .http (fullInfo req) = some route → Q s.installed (.ok route))
    {e : DispatchEvent}
    (hfind : ∀ b, s.stage = .collected none
        (fromHttpRequest req.method req.uri req.headers b) → e = .handle false →
      (∃ table ∈ s.installed, table.matchRoute rx .http (fullInfo req) = none) →
      Q s.installed (findRoute rx s.table none
        (fromHttpRequest req.method req.uri req.headers b)))
    (h : DispatchInv rx req Q s) (hstep : dispatchStep rx maxBodyBytes req s e = some s') :
    DispatchInv rx req Q s' := by
  cases e with
  | swap dtos bindings bodyRequired =>
    obtain rfl := some.inj hstep
    refine ⟨mem_append_right _ mem_cons_self, ?_, h.stage.append hmono _⟩
    intro table htable
    obtain htable | rfl := by simpa using htable
    · exact h.loaded table htable
    · exact ⟨dtos, bindings, bodyRequired, rfl⟩
  | matchRequest =>
    cases hstage : s.stage <;>
      simp only [dispatchStep, hstage, reduceCtorEq, some.injEq] at hstep
    subst hstep
    exact ⟨h.current, h.loaded, h.processHead⟩
  | readBody outcome =>
    have hsound := h.stage
    cases hstage : s.stage <;>
      simp only [dispatchStep, hstage, reduceCtorEq, some.injEq] at hstep
    subst hstep
    rw [hstage] at hsound
    refine ⟨h.current, h.loaded, ?_⟩
    cases outcome with
    | collected length =>
      dsimp only [afterBody]
      split_ifs
      · trivial
      · exact hsound
    | readError => trivial
    | timedOut => trivial
  | handle blocked =>
    have hsound := h.stage
    cases hstage : s.stage with
    | streaming route =>
      simp only [dispatchStep, hstage, some.injEq] at hstep
      rw [hstage] at hsound
      obtain ⟨table, htable, hroute⟩ := hsound
      subst hstep
      refine ⟨h.current, h.loaded, ?_⟩
      cases blocked with
      | true => trivial
      | false => exact hstream table htable route hroute
    | collected preMatched info =>
      simp only [dispatchStep, hstage, some.injEq] at hstep
      rw [hstage] at hsound
      obtain ⟨⟨table, htable, hroute⟩, b, rfl⟩ := hsound
      subst hstep
      refine ⟨h.current, h.loaded, ?_⟩
      cases blocked with
      | true => trivial
      | false =>
        cases preMatched with
        | some route => exact hstream table htable route hroute
        | none => exact hfind b hstage rfl ⟨table, htable, hroute⟩
    | arrived => simp [dispatchStep, hstage] at hstep
    | collecting preMatched info => simp [dispatchStep, hstage] at hstep
    | routed found => simp [dispatchStep, hstage] at hstep
    | answered status => simp [dispatchStep, hstage] at hstep

end invariant

/-! ### The route that is used -/

/-- If every late lookup is safe, the route a request is handled with is the first match, with all
headers, of one table that was in place during the request. -/
theorem route_used_is_first_match (rx : RegexCrate Re) (maxBodyBytes : Nat) (req : HttpRequest)
    (dtos : List RouteDto) (bindings : List PluginBindingDto) (bodyRequired : String → Bool)
    (events : List DispatchEvent) (s : Dispatch Re) (found : Result RouteSnapshot)
    (hrun : run (dispatchStep rx maxBodyBytes req)
      (.start (loadWithBindings rx dtos bindings bodyRequired)) events = some s)
    (hsafe : Meets (dispatchStep rx maxBodyBytes req)
      (fun s e => ∀ info, s.stage = .collected none info → e = .handle false →
        LookupSafe rx req s.table info)
      (.start (loadWithBindings rx dtos bindings bodyRequired)) events)
    (hrouted : s.stage = .routed found) :
    ∃ table ∈ s.installed, found = firstMatch rx req table := by
  have hinv : DispatchInv rx req (fun tables found => ∃ table ∈ tables,
      found = firstMatch rx req table) s := by
    refine invariant_of_meets ?_ (.start ⟨dtos, bindings, bodyRequired, rfl⟩) hsafe hrun
    intro t e t' ht hok hstep
    refine ht.step ?_ ?_ ?_ hstep
    · rintro tables found table ⟨table', htable', rfl⟩
      exact ⟨table', mem_append_left _ htable', rfl⟩
    · intro table htable route hroute
      exact ⟨table, htable, by simp [firstMatch, findRoute, hroute]⟩
    · rintro b hstage he ⟨table, htable, hnone⟩
      obtain hfull | hmiss := (hok _ hstage he).matchRoute
      · exact ⟨t.table, ht.current, by rw [firstMatch, findRoute, findRoute, hfull]; rfl⟩
      · exact ⟨table, htable, by simp only [firstMatch, findRoute, hmiss, hnone]; rfl⟩
  have hsound := hinv.stage
  rwa [hrouted] at hsound

def simpleRoute (id : Nat) (protocol : ProtocolId) (path : String) (priority : Int)
    (headers : List HeaderMatch) : RouteDto where
  id := id
  name := "r"
  protocol := protocol
  matchConditions :=
    { path := .prefixed path, methods := none, host := none, headers := headers, queryParams := [] }
  priority := priority
  upstreamId := some 1
  hostHeader := none
  allowRetryNonIdempotent := false
  wsStripSensitiveHeaders := true
  enabled := true
  createdAt := 0
  updatedAt := 0

def noRegex : RegexCrate Unit := ⟨fun _ => none, fun _ _ => false⟩

def tenantRequest : HttpRequest where
  method := "GET"
  uri := ⟨"/a", none⟩
  pathAndQuery := some "/a"
  headers := [("x-tenant", .ofString "t")]
  body := []

def noRoutes : RouteTable Unit := loadWithBindings noRegex [] [] fun _ => false

def swapEvents (dtos : List RouteDto) : List DispatchEvent :=
  [.matchRequest, .swap dtos [] fun _ => false, .readBody (.collected 0), .handle false]

lemma run_swapEvents (dtos : List RouteDto) :
    let table := loadWithBindings noRegex dtos [] fun _ => false
    let info := fromHttpRequest "GET" ⟨"/a", none⟩ tenantRequest.headers false
    run (dispatchStep noRegex 1024 tenantRequest) (.start noRoutes) (swapEvents dtos) =
      some ⟨table, [noRoutes, table], .routed (findRoute noRegex table none info)⟩ := by
  rfl

theorem route_used_is_first_match_after_swap :
    ∃ s found, run (dispatchStep noRegex 1024 tenantRequest) (.start noRoutes)
        (swapEvents [simpleRoute 2 .http "/" 1 []]) = some s ∧ s.stage = .routed found ∧
      ∃ table ∈ s.installed, found = firstMatch noRegex tenantRequest table := by
  have hrun := run_swapEvents [simpleRoute 2 .http "/" 1 []]
  refine ⟨_, _, hrun, rfl, route_used_is_first_match noRegex 1024 tenantRequest [] []
    (fun _ => false) _ _ _ hrun ?_ rfl⟩
  refine meets_cons (by simp) rfl (meets_cons (by simp) rfl (meets_cons (by simp) rfl ?_))
  refine meets_cons ?_ rfl meets_nil
  -- the only route of the new table asks for no headers
  intro info _ _
  right; left
  intro e he
  obtain rfl := Option.some.inj he
  rfl

theorem route_used_is_first_match_of_no_table :
    ∃ s found, run (dispatchStep noRegex 1024 tenantRequest) (.start noRoutes)
        (swapEvents [simpleRoute 1 .http "/" 10 [⟨"x-tenant", .notEmpty, ""⟩],
          simpleRoute 2 .http "/" 1 []]) = some s ∧ s.stage = .routed found ∧
      ∀ table ∈ s.installed, found ≠ firstMatch noRegex tenantRequest table := by
  refine ⟨_, _, run_swapEvents _, rfl, ?_⟩
  intro table htable heq
  have hid := congrArg (fun found => found.toOption.map (·.id)) heq
  obtain rfl | rfl := by simpa using htable
  · revert hid
    decide
  · revert hid
    decide

lemma protocol_of_routed (rx : RegexCrate Re) (maxBodyBytes : Nat) (req : HttpRequest)
    (htable : table.Loaded rx) {events : List DispatchEvent} {s : Dispatch Re}
    {route : RouteSnapshot}
    (hrun : run (dispatchStep rx maxBodyBytes req) (.start table) events = some s)
    (hrouted : s.stage = .routed (.ok route)) : route.protocol = .http := by
  have hinv : DispatchInv rx req (fun _ found => ∀ route, found = .ok route →
      route.protocol = .http) s := by
    refine invariant ?_ (.start htable) hrun
    intro t e t' ht hstep
    refine ht.step ?_ ?_ ?_ hstep
    · intro _ found _ hfound
      exact hfound
    · rintro table htable route hroute _ ⟨⟩
      exact (ht.loaded table htable).matchRoute_protocol hroute
    · intro b _ _ _ route hroute
      rw [findRoute] at hroute
      cases hmatch : t.table.matchRoute rx .http
          (fromHttpRequest req.method req.uri req.headers b) with
      | none => simp [hmatch] at hroute
      | some found =>
        obtain rfl : found = route := by simpa [hmatch] using hroute
        exact (ht.loaded _ ht.current).matchRoute_protocol hmatch
  have hsound := hinv.stage
  rw [hrouted] at hsound
  exact hsound route rfl

/-! ### Routes for WebSocket -/

def RouteDto.Takes (rx : RegexCrate Re) (req : HttpRequest) (dto : RouteDto) : Prop :=
  dto.enabled = true ∧ ConditionsHold rx dto.matchConditions req.method req.uri req.headers

structure IsFirstWebsocketRoute (rx : RegexCrate Re) (dtos : List RouteDto) (req : HttpRequest)
    (dto : RouteDto) : Prop where
  mem : dto ∈ dtos
  protocol : dto.protocol = .webSocket
  takes : dto.Takes rx req
  first : ∀ other ∈ dtos, other.protocol = .http ∨ other.protocol = .webSocket →
    other.Takes rx req → ¬ other.Precedes dto

def Serves (rx : RegexCrate Re) (maxBodyBytes : Nat) (req : HttpRequest) (table : RouteTable Re)
    (dto : RouteDto) : Prop :=
  ∃ events s route,
    run (dispatchStep rx maxBodyBytes req) (.start table) events = some s ∧
    s.installed = [table] ∧ s.stage = .routed (.ok route) ∧
    route.id = dto.id ∧ route.protocol = dto.protocol

lemma not_serves_webSocket (rx : RegexCrate Re) (maxBodyBytes : Nat) (req : HttpRequest)
    (htable : table.Loaded rx) {dto : RouteDto} (hdto : dto.protocol = .webSocket) :
    ¬ Serves rx maxBodyBytes req table dto := by
  rintro ⟨events, s, route, hrun, -, hrouted, -, hprotocol⟩
  have hhttp := protocol_of_routed rx maxBodyBytes req htable hrun hrouted
  rw [hprotocol, hdto] at hhttp
  simp at hhttp

/-- A WebSocket request is served with the WebSocket route it belongs to only if there is no such
route: whatever happens, a request is handled with a route for HTTP. -/
theorem websocket_route_served_iff (rx : RegexCrate Re) (maxBodyBytes : Nat) (req : HttpRequest)
    (dtos : List RouteDto) (bindings : List PluginBindingDto) (bodyRequired : String → Bool) :
    ((isUpgradeRequest req.method req.headers = true →
        ∀ dto, IsFirstWebsocketRoute rx dtos req dto →
          Serves rx maxBodyBytes req (loadWithBindings rx dtos bindings bodyRequired) dto) ↔
      (isUpgradeRequest req.method req.headers = true →
        ∀ dto, ¬ IsFirstWebsocketRoute rx dtos req dto)) ∧
    ∀ events s route, run (dispatchStep rx maxBodyBytes req)
        (.start (loadWithBindings rx dtos bindings bodyRequired)) events = some s →
      s.stage = .routed (.ok route) → route.protocol = .http := by
  have htable : (loadWithBindings rx dtos bindings bodyRequired).Loaded rx :=
    ⟨dtos, bindings, bodyRequired, rfl⟩
  constructor
  · constructor
    · intro hserved hupgrade dto hfirst
      exact not_serves_webSocket rx maxBodyBytes req htable hfirst.protocol
        (hserved hupgrade dto hfirst)
    · intro hnone hupgrade dto hfirst
      exact absurd hfirst (hnone hupgrade dto)
  · intro events s route hrun hrouted
    exact protocol_of_routed rx maxBodyBytes req htable hrun hrouted

def websocketHandshake : HttpRequest where
  method := "GET"
  uri := ⟨"/ws", none⟩
  pathAndQuery := some "/ws"
  headers := [("upgrade", .ofString "websocket"), ("connection", .ofString "Upgrade")]
  body := []

theorem websocket_route_not_served :
    let dto := simpleRoute 1 .webSocket "/ws" 0 []
    isUpgradeRequest websocketHandshake.method websocketHandshake.headers = true ∧
    IsFirstWebsocketRoute noRegex [dto] websocketHandshake dto ∧
    ¬ Serves noRegex 1024 websocketHandshake
      (loadWithBindings noRegex [dto] [] fun _ => false) dto := by
  intro dto
  refine ⟨by decide, ⟨mem_cons_self, rfl, ⟨rfl, ?_⟩, ?_⟩,
    not_serves_webSocket noRegex 1024 websocketHandshake ⟨_, _, _, rfl⟩ rfl⟩
  · refine ⟨prefix_rfl, ?_, ?_, ?_, ?_⟩ <;> simp [dto, simpleRoute]
  · intro other hother _ _ hprecedes
    obtain rfl := mem_singleton.mp hother
    simp [RouteDto.Precedes] at hprecedes

end Conrogate
