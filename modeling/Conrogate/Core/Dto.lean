import Conrogate.Core.Protocol

/-!
# Data transfer objects

The records the control plane, the storage layer and the data plane exchange.
-/

namespace Conrogate

abbrev Time := Nat

inductive BalancerAlgorithm where
  | roundRobin
  | weightedRoundRobin
  | leastConnections
  | consistentHash
deriving DecidableEq, Repr

/-! ### Routes -/

structure RouteDto where
  id : Nat
  name : String
  protocol : ProtocolId
  matchConditions : RouteMatchConditions
  priority : Int
  upstreamId : Option Nat
  hostHeader : Option String
  allowRetryNonIdempotent : Bool
  wsStripSensitiveHeaders : Bool
  enabled : Bool
  createdAt : Time
  updatedAt : Time
deriving DecidableEq, Repr

structure CreateRouteDto where
  name : String
  protocol : ProtocolId
  matchConditions : RouteMatchConditions
  priority : Option Int
  upstreamId : Option Nat
  hostHeader : Option String
  allowRetryNonIdempotent : Option Bool
  wsStripSensitiveHeaders : Option Bool
  enabled : Option Bool
deriving DecidableEq, Repr

structure UpdateRouteDto where
  id : Nat
  name : Option String
  matchConditions : Option RouteMatchConditions
  priority : Option Int
  upstreamId : Option Nat
  hostHeader : Option String
  allowRetryNonIdempotent : Option Bool
  wsStripSensitiveHeaders : Option Bool
  enabled : Option Bool
deriving DecidableEq, Repr

/-! ### Upstreams -/

structure UpstreamNodeDto where
  id : Nat
  upstreamId : Nat
  address : String
  weight : Int
  enabled : Bool
deriving DecidableEq, Repr

structure UpstreamDto where
  id : Nat
  name : String
  algorithm : BalancerAlgorithm
  retryEnabled : Bool
  nodes : List UpstreamNodeDto
  createdAt : Time
  updatedAt : Time
deriving DecidableEq, Repr

structure CreateUpstreamNodeDto where
  address : String
  weight : Option Int
  enabled : Option Bool
deriving DecidableEq, Repr

structure CreateUpstreamDto where
  name : String
  algorithm : BalancerAlgorithm
  retryEnabled : Option Bool
  nodes : List CreateUpstreamNodeDto
deriving DecidableEq, Repr

structure UpdateUpstreamDto where
  id : Nat
  name : Option String
  algorithm : Option BalancerAlgorithm
  retryEnabled : Option Bool
  nodes : Option (List CreateUpstreamNodeDto)
deriving DecidableEq, Repr

/-! ### Plugin bindings -/

structure PluginBindingDto where
  id : Nat
  routeId : Nat
  pluginName : String
  config : Json
  order : Int
  blocking : Bool
  enabled : Bool
deriving Repr

structure BindPluginDto where
  pluginName : String
  config : Json
  order : Option Int
  blocking : Option Bool
  enabled : Option Bool
deriving Repr

structure UpdatePluginBindingDto where
  config : Option Json
  order : Option Int
  blocking : Option Bool
  enabled : Option Bool
deriving Repr

/-! ### Configuration snapshots -/

/-- What a configuration version stores. -/
structure ConfigSnapshot where
  routes : List RouteDto
  upstreams : List UpstreamDto
  pluginBindings : List PluginBindingDto
deriving Repr

/-- A route as the data plane keeps it. -/
structure RouteSnapshot where
  id : Nat
  protocol : ProtocolId
  upstreamId : Option Nat
  hostHeader : Option String
  allowRetryNonIdempotent : Bool
  wsStripSensitiveHeaders : Bool
  pluginChain : List PluginBindingDto
  requiresBody : Bool
deriving Repr

end Conrogate
