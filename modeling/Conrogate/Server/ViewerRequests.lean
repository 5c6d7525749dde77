import Conrogate.Server.Api

/-!
# What viewers can change

Every handler that checks the role before it writes refuses a viewer. The handlers of the reports
check no role.
-/

namespace Conrogate

open Database ControlProgram List ControlPlane EventRow Transition

def ControlProgram.MetricsBatch.accepted (batch : MetricsBatch) : Bool :=
  !batch.metrics.isEmpty && decide (batch.metrics.length ≤ reportBatchLimit) &&
    (batch.bucketSec == 10 || batch.bucketSec == 60)

def eventsAccepted (batch : List EventRow) : Bool :=
  !batch.isEmpty && decide (batch.length ≤ reportBatchLimit)

variable {Net : Type} {api : Api Net} {req : HttpRequest} {params : List String}

def Api.reports (api : Api Net) (req : HttpRequest) : Bool :=
  match api.route req with
  | some (.receiveHeartbeat, _) => (api.body api.heartbeat req).isSome
  | some (.receiveMetrics, _) => (api.body api.metricsBatch req).any MetricsBatch.accepted
  | some (.receiveEvents, _) => (api.body api.eventsBatch req).any eventsAccepted
  | _ => false

/-! ### Requests that only read -/

lemma receiveMetrics_readOnly {batch : MetricsBatch} (h : batch.accepted = false) :
    (receiveMetrics batch).ReadOnly := by
  rw [receiveMetrics]
  split_ifs with hlength hbucket
  · trivial
  · trivial
  · -- only the empty batch is left
    have hempty : batch.metrics = [] := by
      simp only [MetricsBatch.accepted] at h
      by_contra hne
      simp_all
    rw [hempty]
    trivial

variable {batch : List EventRow}

lemma receiveEvents_readOnly (h : eventsAccepted batch = false) :
    (receiveEvents batch).ReadOnly := by
  rw [receiveEvents]
  split_ifs with hlength
  · trivial
  · have hempty : batch = [] := by
      simp only [eventsAccepted] at h
      by_contra hne
      simp_all
    rw [hempty]
    trivial

lemma ApiHandler.readOnly_of_viewer {handler : ApiHandler} {call : ServiceCall} {caller : Caller}
    (hroute : api.route req = some (handler, params)) (hreports : api.reports req = false)
    (hcall : handler.extract api params req = some call) :
    (requireRole .viewer handler.required (call.program api caller)).ReadOnly := by
  rw [Api.reports, hroute] at hreports
  cases handler with
  | receiveHeartbeat =>
    obtain ⟨hb, hbody, -⟩ := Option.bind_eq_some_iff.mp hcall
    rw [hbody] at hreports
    cases hreports
  | receiveMetrics =>
    obtain ⟨batch, hbody, hbatch⟩ := Option.bind_eq_some_iff.mp hcall
    cases hbatch
    rw [hbody] at hreports
    exact receiveMetrics_readOnly hreports
  | receiveEvents =>
    obtain ⟨batch, hbody, hbatch⟩ := Option.bind_eq_some_iff.mp hcall
    cases hbatch
    rw [hbody] at hreports
    exact receiveEvents_readOnly hreports
  | verifyToken | listRoutes | getRoute | listUpstreams | getUpstream | getUpstreamRouteBindings
  | listPluginBindings | listConfigVersions | diffConfig | queryMetrics | overviewMetrics
  | insightsOverview | insightsQps | insightsLatency | insightsStatusCodes | insightsTopRoutes
  | queryEvents | queryAuditLogs | listNodes | listIpBlacklist | listPlugins =>
    cases hcall
    exact ⟨trivial, fun _ => trivial⟩
  | createRoute | updateRoute | patchRoute | deleteRoute | createUpstream | updateUpstream
  | patchUpstream | deleteUpstream | bindPlugin | updatePluginBinding | unbindPlugin
  | publishConfig | rollbackConfig | createIpBlacklist | deleteIpBlacklist | activatePlugin
  | disablePlugin | deletePlugin =>
    trivial

lemma Api.readOnly_of_viewer {operator : String}
    (hviewer : authMiddleware api.auth req.headers = some (.viewer, operator))
    (hreports : api.reports req = false) : (api.program req).ReadOnly := by
  rw [Api.program, Api.serve]
  cases hroute : api.route req with
  | none =>
    dsimp only
    split_ifs
    · exact ⟨trivial, fun _ => trivial⟩
    · trivial
  | some target =>
    obtain ⟨handler, params⟩ := target
    dsimp only
    rw [hviewer]
    cases hcall : handler.extract api params req with
    | none => trivial
    | some call => exact ApiHandler.readOnly_of_viewer hroute hreports hcall

/-! ### Reports -/

lemma nodup_insertEvent {events : List EventRow} (h : (events.filterMap unique).Nodup)
    (e : EventRow) : ((insertEvent events e).filterMap unique).Nodup := by
  rw [insertEvent]
  split_ifs with hdup
  · exact h
  · rw [filterMap_append]
    cases hunique : e.unique with
    | none => simpa [hunique] using h
    | some key =>
      have hnew : key ∉ events.filterMap unique := by
        intro hmem
        obtain ⟨r, hr, hkey⟩ := mem_filterMap.mp hmem
        apply hdup
        simp only [hunique, Option.isSome_some, Bool.true_and, any_eq_true, beq_iff_eq]
        exact ⟨r, hr, hkey⟩
      rw [filterMap_cons_some hunique, filterMap_nil, ← concat_eq_append]
      exact h.concat hnew

lemma insertEvent_ne_nil (events : List EventRow) (e : EventRow) : insertEvent events e ≠ [] := by
  rw [insertEvent]
  split_ifs with hdup
  · rintro rfl
    simp at hdup
  · simp

lemma nodup_foldl_insertEvent (batch : List EventRow) {events : List EventRow}
    (h : (events.filterMap unique).Nodup) :
    ((batch.foldl insertEvent events).filterMap unique).Nodup := by
  induction batch generalizing events with
  | nil => exact h
  | cons e batch ih => exact ih (nodup_insertEvent h e)

lemma foldl_insertEvent_ne_nil (hbatch : batch ≠ []) (events : List EventRow) :
    batch.foldl insertEvent events ≠ [] := by
  rw [← dropLast_append_getLast hbatch, foldl_append]
  exact insertEvent_ne_nil _ _

section

variable {backend : DatabaseBackend}

lemma write_empty {w : ControlPlane → ControlPlane} (h : (w .empty).Admitted backend) :
    backend.controlPlane.write .empty w = some (w .empty) :=
  write_eq_some.mpr ⟨DatabaseBackend.controlPlane_admits_iff.mpr h, rfl⟩

section

variable (backend : DatabaseBackend)

lemma receiveHeartbeat_writes (hb : Heartbeat) :
    ∃ t ≠ .empty, FirstWrite backend.controlPlane .empty t (receiveHeartbeat hb) := by
  refine ⟨_, ?_, .read (.write ⟨0, 0⟩ (write_empty ?_))⟩
  · exact fun h => cons_ne_nil _ _ (congrArg nodeApplications h)
  · exact { empty_admitted backend with nodeApplications := nodup_singleton _ }

lemma receiveMetrics_writes {batch : MetricsBatch} (h : batch.accepted = true) :
    ∃ t ≠ .empty, FirstWrite backend.controlPlane .empty t (receiveMetrics batch) := by
  simp only [MetricsBatch.accepted, Bool.and_eq_true, Bool.not_eq_true', decide_eq_true_eq,
    Bool.or_eq_true, beq_iff_eq] at h
  obtain ⟨⟨hne, hlength⟩, hbucket⟩ := h
  rw [receiveMetrics, if_neg (by omega), if_neg (by omega)]
  cases hmetrics : batch.metrics with
  | nil => simp [hmetrics] at hne
  | cons row rows =>
    refine ⟨_, ?_, FirstWrite.bind (.read (.write ⟨0, 0⟩ (write_empty ?_)))⟩
    · exact fun h => cons_ne_nil _ _ (congrArg metrics h)
    · refine { empty_admitted backend with metrics := ?_ }
      show ([row].filterMap MetricRow.unique).Nodup
      cases hunique : row.unique <;> simp [hunique]

lemma receiveEvents_writes (h : eventsAccepted batch = true) :
    ∃ t ≠ .empty, FirstWrite backend.controlPlane .empty t (receiveEvents batch) := by
  simp only [eventsAccepted, Bool.and_eq_true, Bool.not_eq_true', decide_eq_true_eq] at h
  obtain ⟨hne, hlength⟩ := h
  have hbatch : batch ≠ [] := by
    rintro rfl
    cases hne
  have hdeduped : batch.foldl insertEvent [] ≠ [] := foldl_insertEvent_ne_nil hbatch []
  rw [receiveEvents, if_neg (by omega)]
  dsimp only
  rw [if_neg (by simpa using hdeduped)]
  refine ⟨_, ?_, .write ⟨0, 0⟩ (write_empty ?_)⟩
  · exact fun h => foldl_insertEvent_ne_nil hdeduped [] (congrArg events h)
  · refine { empty_admitted backend with events := ?_ }
    exact nodup_foldl_insertEvent _ nodup_nil

lemma Api.firstWrite_of_viewer {operator : String}
    (hviewer : authMiddleware api.auth req.headers = some (.viewer, operator))
    (hreports : api.reports req = true) :
    ∃ t ≠ .empty, FirstWrite backend.controlPlane .empty t (api.program req) := by
  rw [Api.reports] at hreports
  rw [Api.program, Api.serve]
  split at hreports
  · rename_i params hroute
    obtain ⟨hb, hbody⟩ := Option.isSome_iff_exists.mp hreports
    rw [hroute, hviewer]
    simp only [ApiHandler.extract, hbody]
    exact receiveHeartbeat_writes backend hb
  · rename_i params hroute
    obtain ⟨batch, hbody, hbatch⟩ := (Option.any_eq_true _ _).mp hreports
    rw [hroute, hviewer]
    simp only [ApiHandler.extract, hbody]
    exact receiveMetrics_writes backend hbatch
  · rename_i params hroute
    obtain ⟨batch, hbody, hbatch⟩ := (Option.any_eq_true _ _).mp hreports
    rw [hroute, hviewer]
    simp only [ApiHandler.extract, hbody]
    exact receiveEvents_writes backend hbatch
  · cases hreports

end

/-- Requests of viewers never change a table exactly if none of them is a report that is accepted.
-/
theorem Api.viewers_change_nothing (api : Api Net) (backend : DatabaseBackend)
    {requests : Set HttpRequest}
    (hviewers : ∀ req ∈ requests, ∃ operator,
      authMiddleware api.auth req.headers = some (.viewer, operator)) :
    (∀ s events t, (∀ call req, .begin call req ∈ events → req ∈ requests) →
      run (api.step backend) (.start s) events = some t → t.store = s) ↔
      ∀ req ∈ requests, api.reports req = false := by
  constructor
  · intro hsame req hreq
    by_contra hreports
    obtain ⟨operator, hviewer⟩ := hviewers req hreq
    obtain ⟨u, hne, hwrite⟩ := firstWrite_of_viewer backend hviewer (eq_true_of_ne_false hreports)
    have : Nonempty Stamp := ⟨⟨0, 0⟩⟩
    obtain ⟨events, t, hevents, hrun, rfl⟩ := hwrite.exists_run
    refine hne (hsame .empty events t ?_ hrun)
    intro call req' hmem
    exact hevents call req' hmem ▸ hreq
  · intro hreports s events t hevents hrun
    refine store_eq_of_readOnly ?_ hrun
    intro call req hmem
    obtain ⟨operator, hviewer⟩ := hviewers req (hevents call req hmem)
    exact readOnly_of_viewer hviewer (hreports req (hevents call req hmem))

def sampleApi : Api Unit where
  authToken := "alice:key1:operator, key2"
  apiPrefix := "/api/v1"
  hash _ := ""
  net := ⟨fun _ => none, fun _ _ => none, fun _ => (), fun _ _ => false, fun _ _ => false⟩
  traceId _ := "t1"
  percentDecode := some
  json _ := some (.obj [("gate_id", .str "gate1"), ("version", .num 3), ("timestamp", .num 40)])
  publishQuery _ := some (none, none)
  createRoute _ := none
  matchConditions _ := none
  createUpstream _ := none
  algorithm _ := none
  node _ := none
  bindPlugin _ := none
  updatePluginBinding _ := none
  createIpBlacklist _ := none
  heartbeat j := do
    let ms ← j.members ["gate_id", "version", "timestamp"]
    some ⟨← (Json.field ms "gate_id").bind Json.asStr, ← (Json.field ms "version").bind Json.asU64,
      ← (Json.field ms "timestamp").bind Json.asU64⟩
  metricsBatch _ := none
  eventsBatch _ := none

def tokenRequest (token method path : String) : HttpRequest :=
  ⟨method, ⟨path, none⟩, some path, [("authorization", .ofString ("Bearer " ++ token))], []⟩

def viewerRequest : String → String → HttpRequest := tokenRequest "key2"

lemma authMiddleware_viewerRequest (method path : String) :
    authMiddleware sampleApi.auth (viewerRequest method path).headers =
      some (.viewer, "unknown") := by
  change authMiddleware sampleApi.auth [("authorization", .ofString "Bearer key2")] = _
  decide +kernel

theorem Api.viewers_change_nothing_delete :
    let store : ControlPlane := { ControlPlane.empty with
      blacklist := [⟨1, "10.0.0.1", none, none, none, 0⟩] }
    let list := viewerRequest "GET" "/api/v1/security/ip_blacklist"
    let delete := viewerRequest "DELETE" "/api/v1/security/ip_blacklist/1"
    let events := [.begin 0 list, .begin 1 delete, .answered 0 ⟨0, 0⟩]
    ∃ t, run (sampleApi.step .postgres) (.start store) events = some t ∧ t.store = store := by
  intro store list delete events
  have hviewers : ∀ req ∈ ({list, delete} : Set HttpRequest), ∃ operator,
      authMiddleware sampleApi.auth req.headers = some (.viewer, operator) := by
    rintro req (rfl | rfl) <;> exact ⟨"unknown", authMiddleware_viewerRequest _ _⟩
  have hreports : ∀ req ∈ ({list, delete} : Set HttpRequest), sampleApi.reports req = false := by
    rintro req (rfl | rfl) <;> decide +kernel
  obtain ⟨t, hrun⟩ : ∃ t, run (sampleApi.step .postgres) (.start store) events = some t :=
    Option.isSome_iff_exists.mp (by decide +kernel)
  refine ⟨t, hrun, ?_⟩
  refine (viewers_change_nothing sampleApi .postgres hviewers).mpr hreports store events t ?_ hrun
  intro call req hmem
  simp only [events, Event.answered, mem_cons, Event.begin.injEq, reduceCtorEq, not_mem_nil,
    or_false] at hmem
  exact hmem.imp And.right And.right

/-- The heartbeat of a viewer registers a node. -/
theorem Api.viewer_heartbeat_stored :
    authMiddleware sampleApi.auth (viewerRequest "POST" "/api/v1/reports/heartbeat").headers =
      some (.viewer, "unknown") ∧
    ∃ t ∈ run (sampleApi.step .postgres) (.start .empty)
        [.begin 0 (viewerRequest "POST" "/api/v1/reports/heartbeat"), .answered 0 ⟨50, 1⟩,
          .answered 0 ⟨51, 1⟩],
      t.store.nodeApplications = [⟨1, "gate1", 3, 51, 40, 51⟩] :=
  ⟨authMiddleware_viewerRequest _ _, by decide +kernel⟩

end

end Conrogate
