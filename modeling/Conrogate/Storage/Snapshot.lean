import Conrogate.Core.Error
import Conrogate.Lib.Upsert
import Conrogate.Storage.Tables

/-!
# Writing a snapshot back

`apply_snapshot` matches upstreams and routes by name, bindings by route and plugin; the rest is
deleted. Ids are translated on the way.
-/

namespace Conrogate

open SoftTable

abbrev IdMap := Nat → Option Nat

section Apply

variable (now : Time)

/-! ### Upstreams -/

def UpstreamNodeDto.toCreate (n : UpstreamNodeDto) : CreateUpstreamNodeDto :=
  ⟨n.address, some n.weight, some n.enabled⟩

def UpstreamDto.toCreate (up : UpstreamDto) : CreateUpstreamDto :=
  ⟨up.name, up.algorithm, some up.retryEnabled, up.nodes.map (·.toCreate)⟩

def UpstreamDto.writeTo (up : UpstreamDto) (m : UpstreamRow) : UpstreamRow :=
  { m with
    algorithm := algorithmToI16 up.algorithm
    retryEnabled := up.retryEnabled
    updatedAt := now }

def replaceNodes (upstreamId : Nat) (nodes : List UpstreamNodeDto) (rows : List NodeRow) :
    List NodeRow :=
  insertAll (nodes.map fun n => n.toCreate.toRow now upstreamId)
    (softDelete now (·.upstreamId == upstreamId) rows)

def upsertUpstream (s : Tables × IdMap) (up : UpstreamDto) : Tables × IdMap :=
  match selectOne (·.name == up.name) s.1.upstreams with
  | some m =>
    ({ s.1 with
        upstreams := update m.id (up.writeTo now) s.1.upstreams
        nodes := replaceNodes now m.id up.nodes s.1.nodes },
      Function.update s.2 up.id (some m.id))
  | none =>
    ({ s.1 with upstreams := insert (up.toCreate.toRow now) s.1.upstreams },
      Function.update s.2 up.id (some (freshId s.1.upstreams)))

def upsertUpstreams (t : Tables) (upstreams : List UpstreamDto) : Tables × IdMap :=
  upstreams.foldl (upsertUpstream now) (t, fun _ => none)

def dropUpstreams (upstreams : List UpstreamDto) (t : Tables) : Tables :=
  let names := upstreams.map (·.name)
  let gone := (select (fun m => !names.contains m.name) t.upstreams).map (·.id)
  { t with
    upstreams := softDelete now (fun m => gone.contains m.id) t.upstreams
    nodes := softDelete now (fun n => gone.contains n.upstreamId) t.nodes }

/-! ### Routes -/

def remapUpstream (upstreams : List UpstreamDto) (upstreamIds : IdMap) (r : RouteDto) :
    Option Nat :=
  r.upstreamId.bind fun sid =>
    (upstreams.find? fun u => u.id == sid).bind fun u => upstreamIds u.id

def RouteDto.writeTo (r : RouteDto) (upstreamId : Option Nat) (m : RouteRow) : RouteRow :=
  { m with
    protocol := protocolToI16 r.protocol
    matchConditions := some r.matchConditions
    priority := r.priority
    upstreamId := upstreamId
    hostHeader := r.hostHeader
    allowRetryNonIdempotent := r.allowRetryNonIdempotent
    wsStripSensitiveHeaders := r.wsStripSensitiveHeaders
    enabled := r.enabled
    updatedAt := now }

def RouteDto.toCreate (r : RouteDto) (upstreamId : Option Nat) : CreateRouteDto where
  name := r.name
  protocol := r.protocol
  matchConditions := r.matchConditions
  priority := some r.priority
  upstreamId := upstreamId
  hostHeader := r.hostHeader
  allowRetryNonIdempotent := some r.allowRetryNonIdempotent
  wsStripSensitiveHeaders := some r.wsStripSensitiveHeaders
  enabled := some r.enabled

def upsertRoute (upstreams : List UpstreamDto) (upstreamIds : IdMap) (s : Tables × IdMap)
    (r : RouteDto) : Tables × IdMap :=
  let upstreamId := remapUpstream upstreams upstreamIds r
  match selectOne (·.name == r.name) s.1.routes with
  | some m =>
    ({ s.1 with routes := update m.id (r.writeTo now upstreamId) s.1.routes },
      Function.update s.2 r.id (some m.id))
  | none =>
    ({ s.1 with routes := insert ((r.toCreate upstreamId).toRow now) s.1.routes },
      Function.update s.2 r.id (some (freshId s.1.routes)))

def upsertRoutes (snapshot : ConfigSnapshot) (upstreamIds : IdMap) (t : Tables) :
    Tables × IdMap :=
  snapshot.routes.foldl (upsertRoute now snapshot.upstreams upstreamIds) (t, fun _ => none)

def dropRoutes (routes : List RouteDto) (t : Tables) : Tables :=
  let names := routes.map (·.name)
  let gone := (select (fun m => m.enabled && !names.contains m.name) t.routes).map (·.id)
  { t with
    routes := softDelete now (fun m => gone.contains m.id) t.routes
    bindings := softDelete now (fun b => gone.contains b.routeId) t.bindings }

/-! ### Bindings -/

def PluginBindingDto.writeTo (b : PluginBindingDto) (m : BindingRow) : BindingRow :=
  { m with
    config := b.config
    order := b.order
    blocking := b.blocking
    enabled := b.enabled
    updatedAt := now }

def PluginBindingDto.toCreate (b : PluginBindingDto) : BindPluginDto :=
  ⟨b.pluginName, b.config, some b.order, some b.blocking, some b.enabled⟩

/-- The fifth loop, for one binding; `desired` collects the keys that are to stay. -/
def upsertBinding (routeIds : IdMap) (s : List BindingRow × List (Nat × String))
    (b : PluginBindingDto) :
    Result (List BindingRow × List (Nat × String)) :=
  match routeIds b.routeId with
  | none => .error (.dataMapping s!"binding route {b.routeId} not found in snapshot routes")
  | some routeId =>
    let rows := match selectOne (fun m => m.routeId == routeId && m.pluginName == b.pluginName)
        s.1 with
      | some m => update m.id (b.writeTo now) s.1
      | none   => insert (b.toCreate.toRow now routeId) s.1
    .ok (rows, (routeId, b.pluginName) :: s.2)

def dropBindings (routes : List RouteDto) (routeIds : IdMap) (desired : List (Nat × String))
    (rows : List BindingRow) : List BindingRow :=
  let kept := routes.filterMap fun r => routeIds r.id
  softDelete now (fun m => kept.contains m.routeId && !desired.contains (m.routeId, m.pluginName))
    rows

def upstreamIdMap (snapshot : ConfigSnapshot) (t : Tables) : IdMap :=
  (upsertUpstreams now t snapshot.upstreams).2

def applyUpstreams (snapshot : ConfigSnapshot) (t : Tables) : Tables :=
  dropUpstreams now snapshot.upstreams (upsertUpstreams now t snapshot.upstreams).1

def routeIdMap (snapshot : ConfigSnapshot) (t : Tables) : IdMap :=
  (upsertRoutes now snapshot (upstreamIdMap now snapshot t) (applyUpstreams now snapshot t)).2

def applyRoutes (snapshot : ConfigSnapshot) (t : Tables) : Tables :=
  dropRoutes now snapshot.routes
    (upsertRoutes now snapshot (upstreamIdMap now snapshot t) (applyUpstreams now snapshot t)).1

def applySnapshot (snapshot : ConfigSnapshot) (t : Tables) : Result Tables := do
  let routeIds := routeIdMap now snapshot t
  let done := applyRoutes now snapshot t
  let (rows, desired) ← snapshot.pluginBindings.foldlM (upsertBinding now routeIds)
    (done.bindings, [])
  .ok { done with bindings := dropBindings now snapshot.routes routeIds desired rows }

end Apply

/-! ### What a snapshot says -/

structure NodeView where
  address : String
  weight : Int
  enabled : Bool
deriving DecidableEq

structure UpstreamView where
  id : Option Nat
  name : String
  algorithm : BalancerAlgorithm
  retryEnabled : Bool
  nodes : Multiset NodeView

structure RouteView where
  id : Option Nat
  name : String
  protocol : ProtocolId
  matchConditions : RouteMatchConditions
  priority : Int
  upstreamId : Option (Option Nat)
  hostHeader : Option String
  allowRetryNonIdempotent : Bool
  wsStripSensitiveHeaders : Bool
  enabled : Bool

structure BindingView where
  routeId : Option Nat
  pluginName : String
  config : Json
  order : Int
  blocking : Bool
  enabled : Bool

structure SnapshotView where
  routes : Multiset RouteView
  upstreams : Multiset UpstreamView
  bindings : Multiset BindingView

def UpstreamNodeDto.view (n : UpstreamNodeDto) : NodeView := ⟨n.address, n.weight, n.enabled⟩

def UpstreamDto.view (upstreamIds : IdMap) (up : UpstreamDto) : UpstreamView where
  id := upstreamIds up.id
  name := up.name
  algorithm := up.algorithm
  retryEnabled := up.retryEnabled
  nodes := up.nodes.map (·.view)

def RouteDto.view (upstreamIds routeIds : IdMap) (r : RouteDto) : RouteView where
  id := routeIds r.id
  name := r.name
  protocol := r.protocol
  matchConditions := r.matchConditions
  priority := r.priority
  upstreamId := r.upstreamId.map upstreamIds
  hostHeader := r.hostHeader
  allowRetryNonIdempotent := r.allowRetryNonIdempotent
  wsStripSensitiveHeaders := r.wsStripSensitiveHeaders
  enabled := r.enabled

def PluginBindingDto.view (routeIds : IdMap) (b : PluginBindingDto) : BindingView where
  routeId := routeIds b.routeId
  pluginName := b.pluginName
  config := b.config
  order := b.order
  blocking := b.blocking
  enabled := b.enabled

def ConfigSnapshot.view (upstreamIds routeIds : IdMap) (s : ConfigSnapshot) : SnapshotView where
  routes := s.routes.map (·.view upstreamIds routeIds)
  upstreams := s.upstreams.map (·.view upstreamIds)
  bindings := s.pluginBindings.map (·.view routeIds)

end Conrogate
