import Conrogate.Core.Dto
import Mathlib.Data.Rat.Defs

/-!
# Telemetry

The rows the data plane reports: one metric sample for a request or a session, and audit events.
-/

namespace Conrogate

/-- A sample (`bucketSec = 0`) or the sums of a bucket. -/
structure MetricRow where
  ts : Time
  bucketSec : Nat
  routeId : Option Nat
  gateId : String
  qps : Nat
  totalRequests : Nat
  avgLatencyMs : ℚ
  p50Ms : Nat
  p90Ms : Nat
  p99Ms : Nat
  status2xx : Nat
  status3xx : Nat
  status4xx : Nat
  status5xx : Nat
  sessions : Nat
  bytesIn : Nat
  bytesOut : Nat
deriving DecidableEq

def MetricRow.rawSample (ts : Time) (gateId : String) (routeId : Option Nat) (latencyMs : ℚ)
    (p50Ms p90Ms p99Ms status2xx status3xx status4xx status5xx sessions bytesIn bytesOut : Nat) :
    MetricRow where
  ts := ts
  bucketSec := 0
  routeId := routeId
  gateId := gateId
  qps := 0
  totalRequests := 1
  avgLatencyMs := latencyMs
  p50Ms := p50Ms
  p90Ms := p90Ms
  p99Ms := p99Ms
  status2xx := status2xx
  status3xx := status3xx
  status4xx := status4xx
  status5xx := status5xx
  sessions := sessions
  bytesIn := bytesIn
  bytesOut := bytesOut

structure EventRow where
  ts : Time
  eventType : String
  routeId : Option Nat
  upstreamId : Option Nat
  traceId : Option String
  detail : Json

end Conrogate
