import Conrogate.Core.Net
import Conrogate.Lib.CallAlone
import Conrogate.Server.Service
import Conrogate.Storage.Metrics

/-!
# The control plane, statement by statement

A failure of the audit log is only logged. What queries return, the details in the audit log and the
configuration cache are left out.
-/

namespace Conrogate

open SoftTable Database PluginBindingRepoImpl UpstreamRepoImpl

/-! ### The other tables -/

inductive PluginStatus where
  | installed
  | active
  | disabled
  | uninstalled
deriving DecidableEq

inductive PluginKind where
  | native
  | wasm
deriving DecidableEq

structure IpBlacklistRow where
  id : Nat
  ipOrCidr : String
  reason : Option String
  expiresAt : Option Time
  createdBy : Option String
  createdAt : Time
deriving DecidableEq

structure NodeApplicationRow where
  id : Nat
  gateId : String
  version : Nat
  appliedAt : Time
  lastSeen : Time
  updatedAt : Time
deriving DecidableEq

structure InstalledPluginRow where
  name : String
  kind : PluginKind
  status : PluginStatus
  deletedAt : Option Time
deriving DecidableEq

structure AuditLogRow where
  ts : Time
  operator : Option String
  action : String
  resource : String
  resourceId : Option Nat
  traceId : Option String
deriving DecidableEq

structure ControlPlane extends ControlState where
  blacklist : List IpBlacklistRow
  metrics : List MetricRow
  events : List EventRow
  nodeApplications : List NodeApplicationRow
  plugins : List InstalledPluginRow
  auditLogs : List AuditLogRow

def ControlPlane.empty : ControlPlane := ⟨.init, [], [], [], [], [], []⟩

/-- The columns of `uk_metric_aggregate`; a route that is `NULL` is different from every other. -/
def MetricRow.unique (row : MetricRow) : Option (Time × Nat × Nat × String) :=
  row.routeId.map fun routeId => (row.ts, row.bucketSec, routeId, row.gateId)

def EventRow.unique (e : EventRow) : Option (String × Time × String) :=
  e.traceId.map fun traceId => (traceId, e.ts, e.eventType)

/-- What the migrations make a backend enforce. -/
@[mk_iff]
structure ControlPlane.Admitted (backend : DatabaseBackend) (s : ControlPlane) : Prop where
  tables : s.tables.Admitted backend
  versions : (s.versions.map (·.version)).Nodup
  blacklist : (s.blacklist.map (·.ipOrCidr)).Nodup
  metrics : (s.metrics.filterMap MetricRow.unique).Nodup
  events : (s.events.filterMap EventRow.unique).Nodup
  nodeApplications : (s.nodeApplications.map (·.gateId)).Nodup

instance (backend : DatabaseBackend) (s : ControlPlane) : Decidable (s.Admitted backend) :=
  decidable_of_iff' _ (s.admitted_iff backend)

def DatabaseBackend.controlPlane (backend : DatabaseBackend) :
    Database ControlPlane (ControlPlane → ControlPlane) where
  apply w s := w s
  admits s := s.Admitted backend
  repeatableRead := backend ≠ .postgres

lemma DatabaseBackend.controlPlane_admits_iff {backend : DatabaseBackend} {s : ControlPlane} :
    backend.controlPlane.admits s = true ↔ s.Admitted backend :=
  decide_eq_true_iff

lemma ControlPlane.empty_admitted (backend : DatabaseBackend) :
    ControlPlane.empty.Admitted backend := by
  cases backend <;> decide

abbrev ControlProgram : Type → Type 1 :=
  Program ControlPlane (ControlPlane → ControlPlane) Stamp ConrogateError

namespace ControlProgram

variable {α β : Type}

def ask (q : ControlPlane → β) : ControlProgram β :=
  .read q (.done (.error .databaseInternal)) fun b => .done (.ok b)

def exec (failed : String → ConrogateError) (w : Stamp → ControlPlane → ControlPlane) :
    ControlProgram Stamp :=
  .write (fun x _ => w x) (fun message => .done (.error (failed message)))
    fun x _ => .done (.ok x)

def onTables (p : TableProgram α) : ControlProgram α :=
  p.lift (·.tables) fun w s => { s with tables := w.apply s.tables }

structure Caller where
  operator : String
  trace : String

/-- `AuditService::log`: the call goes on when the insert fails. -/
def auditLog (caller : Caller) (action resource : String) (resourceId : Option Nat) :
    ControlProgram Unit :=
  .write
    (fun x _ s => { s with auditLogs := s.auditLogs ++
      [⟨x.now, some caller.operator, action, resource, resourceId, some caller.trace⟩] })
    (fun _ => .done (.ok ())) fun _ _ => .done (.ok ())

variable (caller : Caller)

/-- Most calls of the service are one of a repository, and then an entry in the audit log. -/
def audited (action resource : String) (p : TableProgram α) (id : α → Option Nat) :
    ControlProgram α := do
  let a ← onTables p
  auditLog caller action resource (id a)
  pure a

/-! ### Routes and upstreams -/

def createRoute (dto : CreateRouteDto) : ControlProgram RouteDto :=
  audited caller "create" "route" (RouteRepoImpl.create dto) (some ·.id)

def updateRoute (dto : UpdateRouteDto) : ControlProgram RouteDto :=
  audited caller "update" "route" (RouteRepoImpl.update dto) (some ·.id)

def deleteRoute (id : Nat) : ControlProgram Unit :=
  audited caller "delete" "route" (RouteRepoImpl.softDelete id) fun _ => some id

def createUpstream (dto : CreateUpstreamDto) : ControlProgram UpstreamDto :=
  audited caller "create" "upstream" (create dto) (some ·.id)

def updateUpstream (dto : UpdateUpstreamDto) : ControlProgram UpstreamDto :=
  audited caller "update" "upstream" (update dto) (some ·.id)

def deleteUpstream (id : Nat) : ControlProgram Unit := do
  let bindings ← ask fun s => UpstreamRepoImpl.listRouteBindings id s.tables
  let names := ", ".intercalate (bindings.map (·.2))
  if bindings ≠ [] then
    .throw (.conflict
      s!"upstream is bound by {bindings.length} route(s): {names}; unbind first before deleting")
  else audited caller "delete" "upstream" (softDelete id) fun _ => some id

/-! ### Plugin bindings -/

def bindPlugin (routeId : Nat) (dto : BindPluginDto) : ControlProgram PluginBindingDto :=
  audited caller "bind" "plugin_binding" (bind routeId dto) (some ·.id)

def unbindPlugin (routeId : Nat) (pluginName : String) : ControlProgram Unit :=
  audited caller "unbind" "plugin_binding" (unbind routeId pluginName)
    fun _ => none

def updatePluginBinding (routeId : Nat) (pluginName : String) (dto : UpdatePluginBindingDto) :
    ControlProgram PluginBindingDto :=
  audited caller "update" "plugin_binding" (update routeId pluginName dto)
    (some ·.id)

/-! ### Configuration versions -/

def insertVersion (new : NewConfigVersion) : ControlProgram ConfigVersionRow := do
  let row (x : Stamp) := { new with createdAt := x.now }.toRow x.id
  let x ← exec .dataMapping fun x s => { s with versions := s.versions ++ [row x] }
  pure (row x)

def publishConfig (hash : ConfigSnapshot → String) (baseVersion : Nat) (remark : Option String) :
    ControlProgram ConfigVersionRow := do
  let routes ← ask fun s => s.tables.listEnabled
  let models ← ask fun s => live s.tables.upstreams
  let upstreams ← models.mapM fun m => ask fun s => m.toDto (s.tables.loadNodes m.id)
  let bindings ← routes.mapM fun r => ask fun s => s.tables.listByRoute r.id
  let snapshot := ⟨routes, upstreams, bindings.flatten⟩
  match ← ask fun s =>
      publishRead hash s.versions ⟨baseVersion, snapshot, some caller.operator, remark⟩ 0 with
  | .error e => .throw e
  | .ok new  =>
    let row ← insertVersion new
    auditLog caller "publish" "config_version" (some row.version)
    pure row

def rollbackConfig (targetVersion : Nat) : ControlProgram ConfigVersionRow := do
  let req : RollbackRequest := ⟨targetVersion, some caller.operator⟩
  match ← ask fun s => rollbackTarget s.versions req with
  | .error e => .throw e
  | .ok row  =>
    onTables (ConfigVersionRepoImpl.applySnapshot row.snapshotContent)
    match ← ask fun s => rollbackTarget s.versions req with
    | .error e   => .throw e
    | .ok target =>
      let new ← ask fun s => rollbackRead s.versions req target 0
      let row ← insertVersion new
      auditLog caller "rollback" "config_version" (some row.version)
      pure row

/-! ### Installed plugins -/

def updateWhere {ρ : Type} (p : ρ → Bool) (set : ρ → ρ) (rows : List ρ) : List ρ :=
  rows.map fun r => if p r then set r else r

def isPlugin (name : String) (m : InstalledPluginRow) : Bool := m.name == name && m.deletedAt.isNone

def updatePluginStatus (name : String) (status : PluginStatus) : ControlProgram Unit := do
  let _ ← exec internal fun _ s => { s with
    plugins := updateWhere (isPlugin name) (fun m => { m with status := status }) s.plugins }
  auditLog caller "update_status" "plugin" none

def deletePlugin (name : String) : ControlProgram Unit := do
  match ← ask fun s => s.plugins.find? (isPlugin name) with
  | none => .throw (.pluginNotFound name)
  | some plugin =>
    if plugin.kind = .native then .throw (.badRequest "内置插件不可卸载")
    else
      let _ ← exec internal fun x s => { s with
        plugins := updateWhere (isPlugin name) (fun m => { m with deletedAt := some x.now })
          s.plugins }
      auditLog caller "delete" "plugin" none

/-! ### The blacklist -/

structure CreateIpBlacklistDto where
  ipOrCidr : String
  reason : Option String
  expiresInSeconds : Option Nat

/-- `DateTime::MAX_UTC`; times count milliseconds from `DateTime::MIN_UTC`. -/
def maxTime : Time := 16544868105599999

/-- `now + Duration::seconds(secs as i64)`; `none` where one of the two panics. -/
def addSeconds (now : Time) (secs : Nat) : Option Time :=
  let s : Int := if secs < 2 ^ 63 then secs else secs - 2 ^ 64
  let t := now + s * 1000
  if -9223372036854775 ≤ s ∧ s ≤ 9223372036854775 ∧ 0 ≤ t ∧ t ≤ maxTime then some t.toNat else none

def expiresAt (now : Time) : Option Nat → Option (Option Time)
  | none => some none
  | some secs => (addSeconds now secs).map some

/-- A call that panics writes nothing. -/
def writeBlacklist (secs : Option Nat) (failed : String → ConrogateError)
    (set : Stamp → Option Time → List IpBlacklistRow → List IpBlacklistRow) :
    ControlProgram Stamp := do
  let x ← exec failed fun x s => match expiresAt x.now secs with
    | none => s
    | some expires => { s with blacklist := set x expires s.blacklist }
  if (expiresAt x.now secs).isNone then .throw .databaseInternal else pure x

def upsertBlacklist (dto : CreateIpBlacklistDto) : ControlProgram Nat := do
  match ← ask fun s => s.blacklist.find? (·.ipOrCidr == dto.ipOrCidr) with
  | some m =>
    let _ ← writeBlacklist dto.expiresInSeconds internal fun _ expires => updateWhere (·.id == m.id)
      fun r => { r with reason := dto.reason, expiresAt := expires }
    pure m.id
  | none =>
    let x ← writeBlacklist dto.expiresInSeconds .dataMapping fun x expires rows => rows ++
      [⟨x.id, dto.ipOrCidr, dto.reason, expires, some caller.operator, x.now⟩]
    pure x.id

/-- The checks of `create_ip_blacklist`, and what it hands on to `upsert`. -/
def checkIpBlacklist {Net : Type} (net : IpNetCrate Net) (dto : CreateIpBlacklistDto) :
    Result CreateIpBlacklistDto :=
  let ipOrCidr := trim dto.ipOrCidr.toList
  if (parseIpOrCidr net ipOrCidr).isNone then
    .error (.badRequest s!"非法 IP 或 CIDR: {String.ofList ipOrCidr}")
  else if dto.expiresInSeconds = some 0 then
    .error (.badRequest "expires_in_seconds 必须大于 0")
  else
    let reason := (dto.reason.map fun r => String.ofList (trim r.toList)).filter (· ≠ "")
    .ok ⟨String.ofList ipOrCidr, reason, dto.expiresInSeconds⟩

def createIpBlacklist {Net : Type} (net : IpNetCrate Net) (dto : CreateIpBlacklistDto) :
    ControlProgram Unit :=
  match checkIpBlacklist net dto with
  | .error e => .throw e
  | .ok dto  => do
    let id ← upsertBlacklist caller dto
    auditLog caller "create" "ip_blacklist" (some id)

def deleteIpBlacklist (id : Nat) : ControlProgram Unit :=
  .write (fun _ _ s => { s with blacklist := s.blacklist.filter (·.id != id) })
    (fun _ => .throw .databaseInternal) fun _ s =>
      if s.blacklist.any (·.id == id) then auditLog caller "delete" "ip_blacklist" (some id)
      else .throw (.notFound "blacklist entry not found")

/-! ### Reports -/

structure Heartbeat where
  gateId : String
  version : Nat
  timestamp : Time

structure MetricsBatch where
  bucketSec : Nat
  metrics : List MetricRow

def reportBatchLimit : Nat := 1000

def batchTooLarge (n : Nat) : ConrogateError :=
  .badRequest s!"批量上报超过上限 {reportBatchLimit} 条，实际 {n} 条"

def receiveHeartbeat (hb : Heartbeat) : ControlProgram Unit := do
  match ← ask fun s => s.nodeApplications.find? (·.gateId == hb.gateId) with
  | some m =>
    let set (now : Time) (r : NodeApplicationRow) :=
      { r with version := hb.version, lastSeen := hb.timestamp, updatedAt := now }
    let _ ← exec .dataMapping fun x s => { s with
      nodeApplications := updateWhere (·.id == m.id) (set x.now) s.nodeApplications }
  | none =>
    let _ ← exec .dataMapping fun x s => { s with nodeApplications := s.nodeApplications ++
      [⟨x.id, hb.gateId, hb.version, x.now, hb.timestamp, x.now⟩] }

def upsertMetric (row : MetricRow) : ControlProgram Unit := do
  let found ← ask fun s => s.metrics.any row.isRowOf
  if found then
    let _ ← exec internal fun _ s => { s with
      metrics := updateWhere row.isRowOf (fun _ => row) s.metrics }
  else
    let _ ← exec .dataMapping fun _ s => { s with metrics := s.metrics ++ [row] }

def receiveMetrics (batch : MetricsBatch) : ControlProgram Unit :=
  if batch.metrics.length > reportBatchLimit then .throw (batchTooLarge batch.metrics.length)
  else if batch.bucketSec ≠ 10 ∧ batch.bucketSec ≠ 60 then
    .throw (.badRequest s!"bucket_sec 仅支持 10/60，实际 {batch.bucketSec}")
  else batch.metrics.forM upsertMetric

def insertEvent (events : List EventRow) (e : EventRow) : List EventRow :=
  if e.unique.isSome && events.any (·.unique == e.unique) then events else events ++ [e]

/-- `receive_events`. What is twice in the batch or stored already is left out. -/
def receiveEvents (batch : List EventRow) : ControlProgram Unit :=
  if batch.length > reportBatchLimit then .throw (batchTooLarge batch.length)
  else
    let deduped := batch.foldl insertEvent []
    if deduped.isEmpty then pure ()
    else do
      let _ ← exec .dataMapping fun _ s => { s with
        events := deduped.foldl insertEvent s.events }

end ControlProgram

end Conrogate
