import Conrogate.Core.Dto
import Conrogate.Lib.RowWrite

/-!
# The business tables

Enumerations are stored as numbers, and the match conditions of a route as JSON, which may fail to
read back.
-/

namespace Conrogate

open SoftTable List

def protocolToI16 : ProtocolId → Int
  | .http => 1
  | .webSocket => 2
  | .tcpTunnel => 3

def i16ToProtocol (v : Int) : ProtocolId :=
  if v = 2 then .webSocket else if v = 3 then .tcpTunnel else .http

def algorithmToI16 : BalancerAlgorithm → Int
  | .roundRobin => 1
  | .weightedRoundRobin => 2
  | .leastConnections => 3
  | .consistentHash => 4

def i16ToAlgorithm (v : Int) : BalancerAlgorithm :=
  if v = 2 then .weightedRoundRobin else if v = 3 then .leastConnections
  else if v = 4 then .consistentHash else .roundRobin

@[simp] lemma i16ToProtocol_protocolToI16 (p : ProtocolId) :
    i16ToProtocol (protocolToI16 p) = p := by
  cases p <;> rfl

@[simp] lemma i16ToAlgorithm_algorithmToI16 (a : BalancerAlgorithm) :
    i16ToAlgorithm (algorithmToI16 a) = a := by
  cases a <;> rfl

structure RouteRow where
  id : Nat
  name : String
  protocol : Int
  matchConditions : Option RouteMatchConditions
  priority : Int
  upstreamId : Option Nat
  hostHeader : Option String
  allowRetryNonIdempotent : Bool
  wsStripSensitiveHeaders : Bool
  enabled : Bool
  createdAt : Time
  updatedAt : Time
  deletedAt : Option Time
deriving DecidableEq

open RouteRow

structure UpstreamRow where
  id : Nat
  name : String
  algorithm : Int
  retryEnabled : Bool
  createdAt : Time
  updatedAt : Time
  deletedAt : Option Time
deriving DecidableEq

structure NodeRow where
  id : Nat
  upstreamId : Nat
  address : String
  weight : Int
  enabled : Bool
  createdAt : Time
  updatedAt : Time
  deletedAt : Option Time
deriving DecidableEq

structure BindingRow where
  id : Nat
  routeId : Nat
  pluginName : String
  config : Json
  order : Int
  blocking : Bool
  enabled : Bool
  createdAt : Time
  updatedAt : Time
  deletedAt : Option Time

open BindingRow

instance : SoftRow RouteRow where
  rowId := id
  deletedAt := deletedAt
  delete now r := { r with deletedAt := some now }
  rowId_delete _ _ := rfl
  deletedAt_delete _ _ := rfl

instance : SoftRow UpstreamRow where
  rowId := UpstreamRow.id
  deletedAt := UpstreamRow.deletedAt
  delete now r := { r with deletedAt := some now }
  rowId_delete _ _ := rfl
  deletedAt_delete _ _ := rfl

instance : SoftRow NodeRow where
  rowId := NodeRow.id
  deletedAt := NodeRow.deletedAt
  delete now r := { r with deletedAt := some now }
  rowId_delete _ _ := rfl
  deletedAt_delete _ _ := rfl

instance : SoftRow BindingRow where
  rowId := id
  deletedAt := deletedAt
  delete now r := { r with deletedAt := some now }
  rowId_delete _ _ := rfl
  deletedAt_delete _ _ := rfl

/-- `route_model_to_dto`: fails when the match conditions do not read back. -/
def RouteRow.toDto (m : RouteRow) : Option RouteDto :=
  m.matchConditions.map fun conditions =>
    { id := m.id
      name := m.name
      protocol := i16ToProtocol m.protocol
      matchConditions := conditions
      priority := m.priority
      upstreamId := m.upstreamId
      hostHeader := m.hostHeader
      allowRetryNonIdempotent := m.allowRetryNonIdempotent
      wsStripSensitiveHeaders := m.wsStripSensitiveHeaders
      enabled := m.enabled
      createdAt := m.createdAt
      updatedAt := m.updatedAt }

def NodeRow.toDto (m : NodeRow) : UpstreamNodeDto where
  id := m.id
  upstreamId := m.upstreamId
  address := m.address
  weight := m.weight
  enabled := m.enabled

def UpstreamRow.toDto (m : UpstreamRow) (nodes : List NodeRow) : UpstreamDto where
  id := m.id
  name := m.name
  algorithm := i16ToAlgorithm m.algorithm
  retryEnabled := m.retryEnabled
  nodes := nodes.map NodeRow.toDto
  createdAt := m.createdAt
  updatedAt := m.updatedAt

def BindingRow.toDto (m : BindingRow) : PluginBindingDto where
  id := m.id
  routeId := m.routeId
  pluginName := m.pluginName
  config := m.config
  order := m.order
  blocking := m.blocking
  enabled := m.enabled

/-! ### New rows -/

def CreateRouteDto.toRow (dto : CreateRouteDto) (now : Time) (id : Nat) : RouteRow where
  id := id
  name := dto.name
  protocol := protocolToI16 dto.protocol
  matchConditions := some dto.matchConditions
  priority := dto.priority.getD 10
  upstreamId := dto.upstreamId
  hostHeader := dto.hostHeader
  allowRetryNonIdempotent := dto.allowRetryNonIdempotent.getD false
  wsStripSensitiveHeaders := dto.wsStripSensitiveHeaders.getD false
  enabled := dto.enabled.getD true
  createdAt := now
  updatedAt := now
  deletedAt := none

def CreateUpstreamDto.toRow (dto : CreateUpstreamDto) (now : Time) (id : Nat) : UpstreamRow where
  id := id
  name := dto.name
  algorithm := algorithmToI16 dto.algorithm
  retryEnabled := dto.retryEnabled.getD true
  createdAt := now
  updatedAt := now
  deletedAt := none

def CreateUpstreamNodeDto.toRow (dto : CreateUpstreamNodeDto) (now : Time) (upstreamId id : Nat) :
    NodeRow where
  id := id
  upstreamId := upstreamId
  address := dto.address
  weight := dto.weight.getD 1
  enabled := dto.enabled.getD true
  createdAt := now
  updatedAt := now
  deletedAt := none

def BindPluginDto.toRow (dto : BindPluginDto) (now : Time) (routeId id : Nat) : BindingRow where
  id := id
  routeId := routeId
  pluginName := dto.pluginName
  config := dto.config
  order := dto.order.getD 0
  blocking := dto.blocking.getD false
  enabled := dto.enabled.getD true
  createdAt := now
  updatedAt := now
  deletedAt := none

/-! ### The database -/

/-- The tables that routing is configured in. -/
structure Tables where
  routes : List RouteRow
  upstreams : List UpstreamRow
  nodes : List NodeRow
  bindings : List BindingRow

def Tables.empty : Tables := ⟨[], [], [], []⟩

/-! ### The schema -/

inductive DatabaseBackend where
  | mySql
  | postgres
  | sqlite
deriving DecidableEq

section Unique

variable {ρ κ : Type} [SoftRow ρ]

/-- MySQL has no conditions on an index. -/
def DatabaseBackend.Unique : DatabaseBackend → (ρ → κ) → List ρ → Prop
  | .mySql => UniqueDeleted
  | .postgres | .sqlite => UniqueLive

instance [DecidableEq κ] (key : ρ → κ) (rows : List ρ) :
    ∀ backend : DatabaseBackend, Decidable (backend.Unique key rows)
  | .mySql => inferInstanceAs (Decidable (UniqueDeleted key rows))
  | .postgres | .sqlite => inferInstanceAs (Decidable (UniqueLive key rows))

end Unique

def BindingRow.key (b : BindingRow) : Nat × String := (b.routeId, b.pluginName)

/-- What the migrations make a backend enforce: primary keys, foreign keys, and the unique indexes
of `routes` and `route_plugin_bindings`. -/
@[mk_iff]
structure Tables.Admitted (backend : DatabaseBackend) (t : Tables) : Prop where
  routeIds : (t.routes.map (·.id)).Nodup
  upstreamIds : (t.upstreams.map (·.id)).Nodup
  nodeIds : (t.nodes.map (·.id)).Nodup
  bindingIds : (t.bindings.map (·.id)).Nodup
  routeNames : backend.Unique RouteRow.name t.routes
  bindingKeys : backend.Unique BindingRow.key t.bindings
  nodeUpstreams : ∀ n ∈ t.nodes, n.upstreamId ∈ t.upstreams.map (·.id)
  routeUpstreams : ∀ r ∈ t.routes, ∀ i ∈ r.upstreamId, i ∈ t.upstreams.map (·.id)
  bindingRoutes : ∀ b ∈ t.bindings, b.routeId ∈ t.routes.map (·.id)

instance (backend : DatabaseBackend) (t : Tables) : Decidable (t.Admitted backend) :=
  decidable_of_iff' _ (t.admitted_iff backend)

/-- The unique indexes are on the live rows. -/
abbrev Tables.WellFormed (t : Tables) : Prop := t.Admitted .sqlite

lemma Tables.empty_wellFormed : empty.WellFormed := by decide

/-! ### Queries -/

namespace Tables

variable (t : Tables)

def listEnabled : List RouteDto :=
  ((select (·.enabled) t.routes).insertionSort fun a b => a.priority ≥ b.priority).filterMap
    toDto

def loadNodes (upstreamId : Nat) : List NodeRow := select (·.upstreamId == upstreamId) t.nodes

def listAll : List UpstreamDto :=
  (live t.upstreams).map fun m => m.toDto (t.loadNodes m.id)

def listByRoute (routeId : Nat) : List PluginBindingDto :=
  ((select (fun b => b.routeId == routeId && b.enabled) t.bindings).insertionSort
    fun a b => a.order ≤ b.order).map toDto

def collect : ConfigSnapshot where
  routes := t.listEnabled
  upstreams := t.listAll
  pluginBindings := t.listEnabled.flatMap fun r => t.listByRoute r.id

end Tables

/-! ### What is collected -/

lemma RouteRow.toDto_eq_some {m : RouteRow} {r : RouteDto} (h : m.toDto = some r) :
    r.id = m.id ∧ r.name = m.name ∧ r.enabled = m.enabled := by
  obtain ⟨conditions, -, rfl⟩ := Option.map_eq_some_iff.mp h
  exact ⟨rfl, rfl, rfl⟩

namespace Tables

variable (t : Tables)

lemma listEnabled_perm :
    t.listEnabled.Perm ((select (·.enabled) t.routes).filterMap toDto) :=
  (perm_insertionSort _ _).filterMap _

lemma listByRoute_perm (i : Nat) : (t.listByRoute i).Perm
    (((select (·.enabled) t.bindings).filter (·.routeId == i)).map toDto) := by
  refine ((perm_insertionSort _ _).map _).trans (.of_eq ?_)
  rw [select, select, filter_filter]

lemma routeId_of_mem_listByRoute {i : Nat} {b : PluginBindingDto} (hb : b ∈ t.listByRoute i) :
    b.routeId = i := by
  obtain ⟨m, hm, rfl⟩ := mem_map.mp ((t.listByRoute_perm i).mem_iff.mp hb)
  exact beq_iff_eq.mp (mem_filter.mp hm).2

variable {t}

lemma nodup_listEnabled (hids : (t.routes.map (·.id)).Nodup) :
    (t.listEnabled.map (·.id)).Nodup := by
  have hsub : (select (·.enabled) t.routes).Sublist t.routes :=
    filter_sublist.trans filter_sublist
  rw [(t.listEnabled_perm.map (·.id)).nodup_iff]
  refine (map_filterMap_sublist (h := RouteRow.id) ?_ _).nodup ((hsub.map _).nodup hids)
  exact fun m r hr => (RouteRow.toDto_eq_some hr).1

lemma collect_pluginBindings_perm (hids : (t.listEnabled.map (·.id)).Nodup) :
    t.collect.pluginBindings.Perm (((select (·.enabled) t.bindings).filter fun b =>
      (t.listEnabled.map (·.id)).contains b.routeId).map toDto) := by
  have hbyId : t.collect.pluginBindings = (t.listEnabled.map (·.id)).flatMap t.listByRoute := by
    rw [flatMap_map]
    rfl
  rw [hbyId]
  refine (List.Perm.flatMap_left _ fun i _ => t.listByRoute_perm i).trans ?_
  rw [← map_flatMap]
  exact (flatMap_filter_perm routeId hids _).map _

lemma exists_of_mem_collect {b : PluginBindingDto} (hb : b ∈ t.collect.pluginBindings) :
    ∃ m ∈ live t.bindings, m.enabled = true ∧ m.toDto = b := by
  obtain ⟨r, -, hb⟩ := mem_flatMap.mp hb
  obtain ⟨m, hm, hdto⟩ := mem_map.mp ((t.listByRoute_perm r.id).mem_iff.mp hb)
  obtain ⟨hlive, henabled⟩ := mem_filter.mp (mem_filter.mp hm).1
  exact ⟨m, hlive, henabled, hdto⟩

end Tables

structure ConfigSnapshot.Coherent (s : ConfigSnapshot) : Prop where
  upstreamIds : (s.upstreams.map (·.id)).Nodup
  routeIds : (s.routes.map (·.id)).Nodup
  routeNames : (s.routes.map (·.name)).Nodup
  routesEnabled : ∀ r ∈ s.routes, r.enabled = true
  bindingKeys : (s.pluginBindings.map fun b => (b.routeId, b.pluginName)).Nodup
  bindingRoutes : ∀ b ∈ s.pluginBindings, b.routeId ∈ s.routes.map (·.id)
  bindingsEnabled : ∀ b ∈ s.pluginBindings, b.enabled = true

lemma Tables.WellFormed.collect_coherent {t : Tables} (h : t.WellFormed) : t.collect.Coherent := by
  have hids := nodup_listEnabled h.routeIds
  have hbindings := collect_pluginBindings_perm hids
  refine ⟨?_, hids, ?_, ?_, ?_, ?_, ?_⟩
  · show ((t.listAll).map (·.id)).Nodup
    rw [Tables.listAll, map_map]
    exact (filter_sublist.map _).nodup h.upstreamIds
  · show (t.listEnabled.map (·.name)).Nodup
    rw [(t.listEnabled_perm.map (·.name)).nodup_iff]
    refine (map_filterMap_sublist (h := name) ?_ _).nodup
      ((filter_sublist.map _).nodup h.routeNames)
    exact fun m r hr => (toDto_eq_some hr).2.1
  · intro r hr
    obtain ⟨m, hm, hdto⟩ := mem_filterMap.mp (t.listEnabled_perm.mem_iff.mp hr)
    rw [(toDto_eq_some hdto).2.2]
    exact (mem_filter.mp hm).2
  · rw [(hbindings.map _).nodup_iff, map_map]
    have hrows : (select (·.enabled) t.bindings).Sublist (live t.bindings) := filter_sublist
    exact ((filter_sublist.trans hrows).map _).nodup h.bindingKeys
  · intro b hb
    obtain ⟨m, hm, rfl⟩ := mem_map.mp (hbindings.mem_iff.mp hb)
    exact contains_iff_mem.mp (mem_filter.mp hm).2
  · intro b hb
    obtain ⟨m, hm, rfl⟩ := mem_map.mp (hbindings.mem_iff.mp hb)
    exact (mem_filter.mp (mem_filter.mp hm).1).2

end Conrogate
