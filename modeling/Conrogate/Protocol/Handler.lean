import Conrogate.Core.Telemetry
import Conrogate.Lib.Logged
import Conrogate.Plugins.Framework
import Conrogate.Protocol.Proxy

/-!
# What protocol handlers work with

The answers of the services are functions of what is asked, since no request asks the same twice.
What a handler does to the world is its log of `Effect`s.
-/

namespace Conrogate

open List

structure ServiceContext (P : Type) where
  lookupRoute : ProtocolId → RouteMatchInfo → Result (Option RouteSnapshot)
  selectUpstream : RouteSnapshot → Option String → Result UpstreamNodeDto
  checkRateLimit : (routeId : Nat) → (clientIp : String) → Result Unit
  checkCircuitBreaker : (routeId nodeId : Nat) → Result Unit
  routePlugins : (routeId : Nat) → List P
  executeBeforeRequest : PluginContext → List P →
    Result (PluginOutcome × PluginContext)
  executeAfterResponse : PluginContext → PluginResponse → List P →
    Result (PluginContext × PluginResponse)
  executeOnConnect : PluginContext → List P →
    Result (PluginOutcome × PluginContext)
  isBlocked : (ip : String) → Bool
  gateId : String

/-- What an exchange leaves behind in the gateway. -/
inductive Effect where
  | selected (routeId : Nat) (node : UpstreamNodeDto)
  | releaseNode (routeId : Nat) (node : UpstreamNodeDto)
  | admitted (routeId nodeId : Nat)
  | recordResult (routeId nodeId : Nat) (success : Bool)
  | recordMetric (row : MetricRow)
  | recordEvent (row : EventRow)
  | recordRequest
  | tryConsume (granted : Bool)
  | forwardHttp (node : UpstreamNodeDto) (req : OutRequest)
  | forwardTcp (node : UpstreamNodeDto) (maxBytesPerSec : Option Nat)
  | forwardWebsocket (upstreamAddr : String) (req : HttpRequest)
  | onDisconnect (ctx : PluginContext)

open Effect

/-- A handler that returns early with a `ConrogateError`. -/
abbrev Handler (α : Type) := Logged Effect ConrogateError α

structure ExchangeEnv where
  requestId : String
  traceId : String
  latencyMs : Nat
  metricTs : Time
  eventTs : Time

def ExchangeEnv.latencyU32 (env : ExchangeEnv) : Nat := min env.latencyMs 4294967295

namespace Effect

def takesNode : Effect → Option (Nat × UpstreamNodeDto)
  | selected routeId node => some (routeId, node)
  | _ => none

def returnsNode : Effect → Option (Nat × UpstreamNodeDto)
  | releaseNode routeId node => some (routeId, node)
  | _ => none

def takesAdmission : Effect → Option (Nat × Nat)
  | admitted routeId nodeId => some (routeId, nodeId)
  | _ => none

def reportsResult : Effect → Option (Nat × Nat)
  | recordResult routeId nodeId _ => some (routeId, nodeId)
  | _ => none

def Neutral (w : Effect) : Prop :=
  w.takesNode = none ∧ w.returnsNode = none ∧ w.takesAdmission = none ∧ w.reportsResult = none

@[simp] lemma neutral_recordMetric (row : MetricRow) : (recordMetric row).Neutral :=
  ⟨rfl, rfl, rfl, rfl⟩

@[simp] lemma neutral_recordEvent (row : EventRow) : (recordEvent row).Neutral :=
  ⟨rfl, rfl, rfl, rfl⟩

@[simp] lemma neutral_recordRequest : recordRequest.Neutral := ⟨rfl, rfl, rfl, rfl⟩

@[simp] lemma neutral_tryConsume (granted : Bool) : (tryConsume granted).Neutral :=
  ⟨rfl, rfl, rfl, rfl⟩

@[simp] lemma neutral_forwardHttp (node : UpstreamNodeDto) (req : OutRequest) :
    (forwardHttp node req).Neutral := ⟨rfl, rfl, rfl, rfl⟩

@[simp] lemma neutral_forwardTcp (node : UpstreamNodeDto) (rate : Option Nat) :
    (forwardTcp node rate).Neutral := ⟨rfl, rfl, rfl, rfl⟩

@[simp] lemma neutral_forwardWebsocket (addr : String) (req : HttpRequest) :
    (forwardWebsocket addr req).Neutral := ⟨rfl, rfl, rfl, rfl⟩

@[simp] lemma neutral_onDisconnect (ctx : PluginContext) : (onDisconnect ctx).Neutral :=
  ⟨rfl, rfl, rfl, rfl⟩

end Effect

open Pairing

def Balanced (log : List Effect) : Prop :=
  Paired takesNode returnsNode log ∧
  Paired takesAdmission reportsResult log

variable {log : List Effect}

lemma balanced_of_neutral (h : ∀ w ∈ log, w.Neutral) : Balanced log :=
  ⟨paired_of_opens_none _ fun w hw => (h w hw).1, paired_of_opens_none _ fun w hw => (h w hw).2.2.1⟩

lemma balanced_append_iff {post : List Effect} (h : ∀ w ∈ post, w.Neutral) :
    Balanced (log ++ post) ↔ Balanced log := by
  simp only [Balanced]
  rw [paired_append_right_iff _ fun w hw => ⟨(h w hw).1, (h w hw).2.1⟩,
    paired_append_right_iff _ fun w hw => (h w hw).2.2]

def Returns (routeId : Nat) (node : UpstreamNodeDto) (log : List Effect) : Prop :=
  ∃ before success after, (∀ w ∈ before, w.Neutral) ∧ (∀ w ∈ after, w.Neutral) ∧
    log = before ++ .recordResult routeId node.id success :: .releaseNode routeId node :: after

lemma Returns.append {routeId : Nat} {node : UpstreamNodeDto} (h : Returns routeId node log)
    (before : List Effect) (hb : ∀ w ∈ before, w.Neutral) :
    Returns routeId node (before ++ log) := by
  obtain ⟨front, success, after, hfront, hafter, rfl⟩ := h
  refine ⟨before ++ front, success, after, ?_, hafter, by simp⟩
  rw [forall_mem_append]
  exact ⟨hb, hfront⟩

section

variable {log : List Effect} (routeId : Nat) (node : UpstreamNodeDto)

lemma not_balanced_of_refused (h : ∀ w ∈ log, w.Neutral) :
    ¬ Balanced (.selected routeId node :: log) := by
  rintro ⟨hnode, -⟩
  have hcount := (hnode.1 (routeId, node) rfl)
  rw [filterMap_eq_nil_iff.mpr fun w hw => (h w hw).2.1] at hcount
  cases hcount

lemma not_balanced_of_admitted (h : ∀ w ∈ log, w.Neutral) :
    ¬ Balanced (.selected routeId node :: .admitted routeId node.id :: log) := by
  rintro ⟨-, -, hadmission, -⟩
  have hcount := hadmission (routeId, node.id) rfl
  rw [filterMap_eq_nil_iff.mpr fun w hw => (h w hw).2.2.2] at hcount
  cases hcount

lemma balanced_of_returns (h : Returns routeId node log) :
    Balanced (.selected routeId node :: .admitted routeId node.id :: log) := by
  obtain ⟨before, success, after, hb, ha, rfl⟩ := h
  have hopens : ∀ w ∈ before ++ .recordResult routeId node.id success ::
      .releaseNode routeId node :: after, w.takesNode = none ∧ w.takesAdmission = none := by
    intro w hw
    simp only [mem_append, mem_cons] at hw
    rcases hw with hw | rfl | rfl | hw
    · exact ⟨(hb w hw).1, (hb w hw).2.2.1⟩
    · exact ⟨rfl, rfl⟩
    · exact ⟨rfl, rfl⟩
    · exact ⟨(ha w hw).1, (ha w hw).2.2.1⟩
  have htake : (selected routeId node).takesNode = some (routeId, node) := rfl
  have hadmit : (admitted routeId node.id).takesAdmission = some (routeId, node.id) := rfl
  have hselected : ∀ w ∈ [selected routeId node], w.takesAdmission = none := by
    simp [takesAdmission]
  constructor
  · refine (paired_cons_iff _ htake ?_).mpr ?_
    · intro w hw
      rcases mem_cons.mp hw with rfl | hw
      · rfl
      · exact (hopens w hw).1
    · simp [returnsNode, filterMap_append, filterMap_cons,
        filterMap_eq_nil_iff.mpr fun w hw => (hb w hw).2.1,
        filterMap_eq_nil_iff.mpr fun w hw => (ha w hw).2.1]
  · refine (paired_append_iff _ _ hselected).mpr
      ((paired_cons_iff _ hadmit fun w hw => (hopens w hw).2).mpr ?_)
    simp [reportsResult, filterMap_append, filterMap_cons,
      filterMap_eq_nil_iff.mpr fun w hw => (hb w hw).2.2.2,
      filterMap_eq_nil_iff.mpr fun w hw => (ha w hw).2.2.2]

end

end Conrogate
