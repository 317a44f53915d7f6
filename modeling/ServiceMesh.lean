import ServiceMesh.Logic.Transducer
import ServiceMesh.Logic.Pool
import ServiceMesh.CircuitBreaker.Basic
import ServiceMesh.CircuitBreaker.History
import ServiceMesh.CircuitBreaker.Refinement
import ServiceMesh.CircuitBreaker.Tasks
import ServiceMesh.CircuitBreaker.Cooldown
import ServiceMesh.Logic.Stale
import ServiceMesh.CircuitBreaker.Transitions
import ServiceMesh.CircuitBreaker.Wedged
import ServiceMesh.CircuitBreaker.Trip
import ServiceMesh.CircuitBreaker.Recovery
import ServiceMesh.Connection.Basic
import ServiceMesh.Logic.Wrapping
import ServiceMesh.Connection.Permits
import ServiceMesh.Logic.Fluid
import ServiceMesh.IpAddr
import ServiceMesh.RateLimit.Bucket
import ServiceMesh.RateLimit.Admission
import ServiceMesh.RateLimit.Limiter
import ServiceMesh.RateLimit.PerClient
import ServiceMesh.Logic.Accounts
import ServiceMesh.RateLimit.Tasks
import ServiceMesh.RateLimit.Cleanup
import ServiceMesh.RateLimit.Spend
import ServiceMesh.RateLimit.Rejection
import ServiceMesh.RateLimit.Eviction
import ServiceMesh.Logic.StableSort
import ServiceMesh.Router.Basic
import ServiceMesh.Router.Selection
import ServiceMesh.Router.Rewrite
import ServiceMesh.Logic.Query
import ServiceMesh.Router.Tasks
import ServiceMesh.Router.Cache
import ServiceMesh.RateLimit.Forwarded
import ServiceMesh.Transport.Basic
import ServiceMesh.Transport.Stats
import ServiceMesh.Transport.Availability
import ServiceMesh.Transport.Choice
import ServiceMesh.Logic.Loop
import ServiceMesh.Retry.Basic
import ServiceMesh.Retry.Execute
import ServiceMesh.Retry.Delay
import ServiceMesh.Proxy.Config
import ServiceMesh.Logic.Checks
import ServiceMesh.Proxy.Validate
import ServiceMesh.Proxy.Shutdown
import ServiceMesh.Metrics.Basic
import ServiceMesh.Metrics.BreakerState
import ServiceMesh.Proxy.Service
import ServiceMesh.Proxy.Accounting
import ServiceMesh.Logic.RoundRobin
import ServiceMesh.Transport.Tasks
import ServiceMesh.Fairness
import ServiceMesh.Logic.Supply
import ServiceMesh.RateLimit.Throughput
import ServiceMesh.RateLimit.Clients
import ServiceMesh.RateLimit.RetryAfter
import ServiceMesh.Logic.Past
import ServiceMesh.Transport.Interleaved
import ServiceMesh.Logic.Component
import ServiceMesh.Transport.Endpoint
import ServiceMesh.Transport.Clusters
import ServiceMesh.Transport.Routing
import ServiceMesh.Transport.Breakers
import ServiceMesh.Transport.Books
import ServiceMesh.Metrics.Series
import ServiceMesh.Proxy.Traffic
import ServiceMesh.Proxy.Orderly
import ServiceMesh.Router.Editing
import ServiceMesh.Retry.Session
import ServiceMesh.Transport.Resting
import ServiceMesh.CircuitBreaker.Healing
