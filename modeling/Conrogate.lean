import Conrogate.Balancer.Overflow
import Conrogate.Balancer.RingRemoval
import Conrogate.Cli.ConfigLoad
import Conrogate.Core.FastIdGen
import Conrogate.Gateway.BodyMode
import Conrogate.Gateway.ClientIsolation
import Conrogate.Gateway.ConnectionCounts
import Conrogate.Gateway.ConnectionLimit
import Conrogate.Gateway.Exclusion
import Conrogate.Gateway.HealthHysteresis
import Conrogate.Gateway.IdleTimeout
import Conrogate.Gateway.MetricSums
import Conrogate.Gateway.Metrics
import Conrogate.Gateway.Passthrough
import Conrogate.Gateway.Percentile
import Conrogate.Gateway.RetrySwitch
import Conrogate.Gateway.Shutdown
import Conrogate.Plugins.Cors
import Conrogate.Plugins.HeaderRewrite
import Conrogate.Plugins.JwksCache
import Conrogate.Plugins.Pipeline
import Conrogate.Protocol.CopyRate
import Conrogate.Protocol.NodeTarget
import Conrogate.Protocol.RetryCounts
import Conrogate.Protocol.TunnelDelivery
import Conrogate.Protocol.Upgrade
import Conrogate.Server.BlacklistTerm
import Conrogate.Server.CacheOrder
import Conrogate.Server.Rollback
import Conrogate.Server.RollbackFailure
import Conrogate.Server.TraceMiddleware
import Conrogate.Server.UpdateRequests
import Conrogate.Storage.Diff
import Conrogate.Storage.PublishConflict
import Conrogate.Storage.UpstreamAtomicity
import Conrogate.Traffic.AdaptiveLimits
import Conrogate.Traffic.BreakerRecovery
import Conrogate.Traffic.LocalRate
import Conrogate.Traffic.RetryBudget
import Conrogate.Traffic.ScriptExpiry
import Conrogate.Traffic.SlidingWindow
