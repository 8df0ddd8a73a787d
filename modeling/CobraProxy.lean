import CobraProxy.Proofs.Downstream
import CobraProxy.Proofs.Leases
import CobraProxy.Proofs.Directory
import CobraProxy.Proofs.Authorization
import CobraProxy.Proofs.Revocation
import CobraProxy.Proofs.Rotation
import CobraProxy.Proofs.Quota
import CobraProxy.Proofs.Usage
import CobraProxy.Proofs.RequestRate
import CobraProxy.Proofs.Tunnels
import CobraProxy.Proofs.DataCap
import CobraProxy.Proofs.Sessions
import CobraProxy.Proofs.Reservations
import CobraProxy.Proofs.Periods
import CobraProxy.Proofs.Checkpoints
import CobraProxy.Proofs.Isolation
import CobraProxy.Proofs.Materials
import CobraProxy.Proofs.Authorities
import CobraProxy.Proofs.Breaker
import CobraProxy.Proofs.Development
import CobraProxy.Proofs.Filters
import CobraProxy.Proofs.Heads
import CobraProxy.Proofs.Hop
import CobraProxy.Proofs.Cache
import CobraProxy.Proofs.CacheResponses
import CobraProxy.Proofs.Pipeline
import CobraProxy.Proofs.Drain
import CobraProxy.Proofs.TunnelCopy
import CobraProxy.Proofs.LimitedTunnel
import CobraProxy.Proofs.Connect
import CobraProxy.Proofs.RetryTokens
import CobraProxy.Proofs.Connections
