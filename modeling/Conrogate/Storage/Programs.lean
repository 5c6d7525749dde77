import Conrogate.Lib.Database
import Conrogate.Lib.RowWrite
import Conrogate.Storage.Snapshot

/-!
# The repositories, statement by statement

The calls of the repositories are single statements without a transaction; `apply_snapshot` is one.
What the database refuses depends on the backend.
-/

namespace Conrogate

open SoftTable Database

/-! ### Statements -/

inductive TableWrite where
  | routes (w : RowWrite RouteRow)
  | upstreams (w : RowWrite UpstreamRow)
  | nodes (w : RowWrite NodeRow)
  | bindings (w : RowWrite BindingRow)

def TableWrite.apply (t : Tables) : TableWrite → Tables
  | .routes w => { t with routes := w.apply t.routes }
  | .upstreams w => { t with upstreams := w.apply t.upstreams }
  | .nodes w => { t with nodes := w.apply t.nodes }
  | .bindings w => { t with bindings := w.apply t.bindings }

def DatabaseBackend.database (backend : DatabaseBackend) : Database Tables TableWrite where
  apply w t := w.apply t
  admits t := t.Admitted backend
  repeatableRead := backend ≠ .postgres

lemma DatabaseBackend.admits_iff {backend : DatabaseBackend} {t : Tables} :
    backend.database.admits t = true ↔ t.Admitted backend :=
  decide_eq_true_iff

/-- What a write gets from outside: the time and the id of a new row. -/
structure Stamp where
  now : Time
  id : Nat

abbrev TableProgram : Type → Type 1 := Program Tables TableWrite Stamp ConrogateError

section Statements

variable {β : Type}

def ask (q : Tables → β) : TableProgram β :=
  .read q (.done (.error .databaseInternal)) fun b => .done (.ok b)

def exec (failed : String → ConrogateError) (w : Stamp → Tables → TableWrite) :
    TableProgram (Stamp × Tables) :=
  .write w (fun message => .done (.error (failed message)))
    fun x t => .done (.ok (x, (w x t).apply t))

def internal (_ : String) : ConrogateError := .databaseInternal

end Statements

/-! ### Routes -/

def UpdateRouteDto.writeTo (dto : UpdateRouteDto) (now : Time) (m : RouteRow) : RouteRow :=
  { m with
    name := dto.name.getD m.name
    matchConditions := dto.matchConditions <|> m.matchConditions
    priority := dto.priority.getD m.priority
    upstreamId := dto.upstreamId <|> m.upstreamId
    hostHeader := dto.hostHeader <|> m.hostHeader
    allowRetryNonIdempotent := dto.allowRetryNonIdempotent.getD m.allowRetryNonIdempotent
    wsStripSensitiveHeaders := dto.wsStripSensitiveHeaders.getD m.wsStripSensitiveHeaders
    enabled := dto.enabled.getD m.enabled
    updatedAt := now }

namespace RouteRepoImpl

def create (dto : CreateRouteDto) : TableProgram RouteDto := do
  let dup ← ask fun t => (select (·.name == dto.name) t.routes).length
  if dup > 0 then .throw (.conflict s!"route name '{dto.name}' already exists")
  else
    let (x, _) ← exec .dataMapping fun x _ => .routes (.insert (dto.toRow x.now x.id))
    match (dto.toRow x.now x.id).toDto with
    | some route => pure route
    | none => .throw (.dataMapping "insert returned no model")

/-- The check of a new name in `update`; the name that was read is not checked. -/
def checkName (dto : UpdateRouteDto) (m : RouteRow) : TableProgram Unit :=
  match dto.name with
  | none => pure ()
  | some name =>
    if name = m.name then pure ()
    else do
      let dup ← ask fun t =>
        (select (fun r => r.name == name && r.id != dto.id) t.routes).length
      if dup > 0 then .throw (.conflict s!"route name '{name}' already exists") else pure ()

def update (dto : UpdateRouteDto) : TableProgram RouteDto := do
  match ← ask fun t => selectOne (·.id == dto.id) t.routes with
  | none   => .throw (.notFound s!"route {dto.id}")
  | some m =>
    checkName dto m
    let (_, t) ← exec .dataMapping fun x _ => .routes (.update m.id (dto.writeTo x.now))
    match (t.routes.find? (·.id == m.id)).bind RouteRow.toDto with
    | some route => pure route
    | none => .throw (.dataMapping "update returned no model")

/-- The bindings of the route stay. -/
def softDelete (id : Nat) : TableProgram Unit := do
  let _ ← exec internal fun x t => .routes (deleteWhere x.now (·.id == id) t.routes)

end RouteRepoImpl

/-! ### Upstreams -/

def UpdateUpstreamDto.writeTo (dto : UpdateUpstreamDto) (now : Time) (m : UpstreamRow) :
    UpstreamRow :=
  { m with
    name := dto.name.getD m.name
    algorithm := (dto.algorithm.map algorithmToI16).getD m.algorithm
    retryEnabled := dto.retryEnabled.getD m.retryEnabled
    updatedAt := now }

namespace UpstreamRepoImpl

def insertNodes (failed : String → ConrogateError) (upstreamId : Nat)
    (nodes : List CreateUpstreamNodeDto) : TableProgram Unit :=
  nodes.forM fun n => do
    let _ ← exec failed fun x _ => .nodes (.insert (n.toRow x.now upstreamId x.id))

def replaceNodes (failed : String → ConrogateError) (upstreamId : Nat)
    (nodes : List CreateUpstreamNodeDto) : TableProgram Unit := do
  let _ ← exec internal fun x t =>
    .nodes (deleteWhere x.now (·.upstreamId == upstreamId) t.nodes)
  insertNodes failed upstreamId nodes

def create (dto : CreateUpstreamDto) : TableProgram UpstreamDto := do
  let (x, _) ← exec .dataMapping fun x _ => .upstreams (.insert (dto.toRow x.now x.id))
  insertNodes .dataMapping x.id dto.nodes
  let nodes ← ask fun t => t.loadNodes x.id
  pure ((dto.toRow x.now x.id).toDto nodes)

/-- The end of `update`, with the row that its first write has returned. -/
def updated (id : Nat) (model : Option UpstreamRow) : TableProgram UpstreamDto := do
  let nodes ← ask fun t => t.loadNodes id
  match model with
  | some model => pure (model.toDto nodes)
  | none => .throw (.dataMapping "update returned no model")

def update (dto : UpdateUpstreamDto) : TableProgram UpstreamDto := do
  match ← ask fun t => selectOne (·.id == dto.id) t.upstreams with
  | none   => .throw (.notFound s!"upstream {dto.id}")
  | some m =>
    let (_, t) ← exec .dataMapping fun x _ => .upstreams (.update m.id (dto.writeTo x.now))
    match dto.nodes with
    | none => pure ()
    | some nodes => replaceNodes .dataMapping m.id nodes
    updated m.id (t.upstreams.find? (·.id == m.id))

def softDelete (id : Nat) : TableProgram Unit := do
  let _ ← exec internal fun x t => .upstreams (deleteWhere x.now (·.id == id) t.upstreams)
  let _ ← exec internal fun x t => .nodes (deleteWhere x.now (·.upstreamId == id) t.nodes)

def listRouteBindings (id : Nat) (t : Tables) : List (Nat × String) :=
  (select (·.upstreamId == some id) t.routes).map fun m => (m.id, m.name)

end UpstreamRepoImpl

open UpstreamRepoImpl

/-! ### Plugin bindings -/

def UpdatePluginBindingDto.writeTo (dto : UpdatePluginBindingDto) (now : Time) (m : BindingRow) :
    BindingRow :=
  { m with
    config := dto.config.getD m.config
    order := dto.order.getD m.order
    blocking := dto.blocking.getD m.blocking
    enabled := dto.enabled.getD m.enabled
    updatedAt := now }

def PluginBindingRepoImpl.isBinding (routeId : Nat) (pluginName : String) (m : BindingRow) : Bool :=
  m.routeId == routeId && m.pluginName == pluginName

def Tables.findBinding (t : Tables) (routeId : Nat) (pluginName : String) : Option BindingRow :=
  selectOne (PluginBindingRepoImpl.isBinding routeId pluginName) t.bindings

namespace PluginBindingRepoImpl

def bind (routeId : Nat) (dto : BindPluginDto) : TableProgram PluginBindingDto := do
  let dup ← ask fun t => (select (isBinding routeId dto.pluginName) t.bindings).length
  if dup > 0 then
    .throw (.conflict s!"plugin '{dto.pluginName}' already bound to route {routeId}")
  else
    let (x, _) ← exec .dataMapping fun x _ => .bindings (.insert (dto.toRow x.now routeId x.id))
    pure (dto.toRow x.now routeId x.id).toDto

def update (routeId : Nat) (pluginName : String) (dto : UpdatePluginBindingDto) :
    TableProgram PluginBindingDto := do
  match ← ask fun t => t.findBinding routeId pluginName with
  | none   => .throw (.notFound s!"binding route={routeId} plugin={pluginName}")
  | some m =>
    let (_, t) ← exec .dataMapping fun x _ => .bindings (.update m.id (dto.writeTo x.now))
    match t.bindings.find? (·.id == m.id) with
    | some model => pure model.toDto
    | none => .throw (.dataMapping "update returned no model")

def unbind (routeId : Nat) (pluginName : String) : TableProgram Unit := do
  let _ ← exec internal fun x t =>
    .bindings (deleteWhere x.now (isBinding routeId pluginName) t.bindings)

end PluginBindingRepoImpl

/-! ### Writing a snapshot back -/

namespace ConfigVersionRepoImpl

def upsertUpstream (ids : IdMap) (up : UpstreamDto) : TableProgram IdMap := do
  match ← ask fun t => selectOne (·.name == up.name) t.upstreams with
  | some m =>
    let _ ← exec internal fun x _ => .upstreams (.update m.id (up.writeTo x.now))
    UpstreamRepoImpl.replaceNodes internal m.id (up.nodes.map (·.toCreate))
    pure (Function.update ids up.id (some m.id))
  | none =>
    let (x, _) ← exec internal fun x _ => .upstreams (.insert (up.toCreate.toRow x.now x.id))
    pure (Function.update ids up.id (some x.id))

def dropUpstreams (upstreams : List UpstreamDto) : TableProgram Unit := do
  let current ← ask fun t => live t.upstreams
  let gone := current.filter fun m => !(upstreams.map (·.name)).contains m.name
  gone.forM fun m => do
    let _ ← exec internal fun x _ => .upstreams (.delete x.now [m.id])
    let _ ← exec internal fun x t => .nodes (deleteWhere x.now (·.upstreamId == m.id) t.nodes)

def upsertRoute (upstreams : List UpstreamDto) (upstreamIds : IdMap) (ids : IdMap)
    (r : RouteDto) : TableProgram IdMap := do
  let upstreamId := remapUpstream upstreams upstreamIds r
  match ← ask fun t => selectOne (·.name == r.name) t.routes with
  | some m =>
    let _ ← exec internal fun x _ => .routes (.update m.id (r.writeTo x.now upstreamId))
    pure (Function.update ids r.id (some m.id))
  | none =>
    let (x, _) ← exec internal fun x _ =>
      .routes (.insert ((r.toCreate upstreamId).toRow x.now x.id))
    pure (Function.update ids r.id (some x.id))

def dropRoutes (routes : List RouteDto) : TableProgram Unit := do
  let current ← ask fun t => select (·.enabled) t.routes
  let gone := (current.filter fun m => !(routes.map (·.name)).contains m.name).map (·.id)
  gone.forM fun id => do
    let _ ← exec internal fun x _ => .routes (.delete x.now [id])
  gone.forM fun id => do
    let _ ← exec internal fun x t => .bindings (deleteWhere x.now (·.routeId == id) t.bindings)

def upsertBinding (routeIds : IdMap) (desired : List (Nat × String)) (b : PluginBindingDto) :
    TableProgram (List (Nat × String)) :=
  match routeIds b.routeId with
  | none => .throw (.dataMapping s!"binding route {b.routeId} not found in snapshot routes")
  | some routeId => do
    match ← ask fun t => t.findBinding routeId b.pluginName with
    | some m =>
      let _ ← exec internal fun x _ => .bindings (.update m.id (b.writeTo x.now))
    | none =>
      let _ ← exec internal fun x _ => .bindings (.insert (b.toCreate.toRow x.now routeId x.id))
    pure ((routeId, b.pluginName) :: desired)

def dropBindings (routes : List RouteDto) (routeIds : IdMap) (desired : List (Nat × String)) :
    TableProgram Unit :=
  (routes.filterMap fun r => routeIds r.id).forM fun routeId => do
    let current ← ask fun t => select (·.routeId == routeId) t.bindings
    (current.filter fun m => !desired.contains (routeId, m.pluginName)).forM fun m => do
      let _ ← exec internal fun x _ => .bindings (.delete x.now [m.id])

def writeBack (snapshot : ConfigSnapshot) : TableProgram Unit := do
  let upstreamIds ← snapshot.upstreams.foldlM upsertUpstream fun _ => none
  dropUpstreams snapshot.upstreams
  let routeIds ← snapshot.routes.foldlM (upsertRoute snapshot.upstreams upstreamIds) fun _ => none
  dropRoutes snapshot.routes
  let desired ← snapshot.pluginBindings.foldlM (upsertBinding routeIds) []
  dropBindings snapshot.routes routeIds desired

def applySnapshot (snapshot : ConfigSnapshot) : TableProgram Unit :=
  .tx (writeBack snapshot) .databaseInternal (pure ())

end ConfigVersionRepoImpl

/-! ### Operations -/

inductive RepoOp where
  | createRoute (dto : CreateRouteDto)
  | updateRoute (dto : UpdateRouteDto)
  | deleteRoute (id : Nat)
  | createUpstream (dto : CreateUpstreamDto)
  | updateUpstream (dto : UpdateUpstreamDto)
  | deleteUpstream (id : Nat)
  | bind (routeId : Nat) (dto : BindPluginDto)
  | updateBinding (routeId : Nat) (pluginName : String) (dto : UpdatePluginBindingDto)
  | unbind (routeId : Nat) (pluginName : String)
  | applySnapshot (snapshot : ConfigSnapshot)

def RepoOp.program : RepoOp → TableProgram Unit
  | .createRoute dto => do let _ ← RouteRepoImpl.create dto
  | .updateRoute dto => do let _ ← RouteRepoImpl.update dto
  | .deleteRoute id => RouteRepoImpl.softDelete id
  | .createUpstream dto => do let _ ← create dto
  | .updateUpstream dto => do let _ ← update dto
  | .deleteUpstream id => softDelete id
  | .bind routeId dto => do let _ ← PluginBindingRepoImpl.bind routeId dto
  | .updateBinding routeId pluginName dto => do
    let _ ← PluginBindingRepoImpl.update routeId pluginName dto
  | .unbind routeId pluginName => PluginBindingRepoImpl.unbind routeId pluginName
  | .applySnapshot snapshot    => ConfigVersionRepoImpl.applySnapshot snapshot

def repoStep (backend : DatabaseBackend) :
    State Tables TableWrite Stamp ConrogateError → Event RepoOp Stamp →
      Option (State Tables TableWrite Stamp ConrogateError) :=
  backend.database.step RepoOp.program

end Conrogate
