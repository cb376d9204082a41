import QuDAG.Dag.VotingHistory
import QuDAG.Dag.SampleDistance
import QuDAG.Dag.SelectTips
import QuDAG.Dag.TotalOrder
import QuDAG.Dag.ForkOutcome
import QuDAG.Dag.Agreement
import QuDAG.Dag.Convergence
import QuDAG.Exchange.TransferLocks
import QuDAG.Exchange.Checkpoint
import QuDAG.Exchange.SnapshotSize
import QuDAG.Exchange.ContributorCap
import QuDAG.Exchange.FeeRate
import QuDAG.Exchange.Finalization
import QuDAG.Exchange.Authorization
import QuDAG.Exchange.VertexIdentity
import QuDAG.Exchange.Cadence
import QuDAG.Exchange.Deferral
import QuDAG.Exchange.GracePeriod
import QuDAG.Exchange.ConfigRoundTrip
import QuDAG.Exchange.Footprint
import QuDAG.Mcp.Auth
import QuDAG.Integrations.FederationOrder
import QuDAG.Integrations.SignedReceipts
import QuDAG.Integrations.Polling
import QuDAG.Integrations.AgentBbs
import QuDAG.Integrations.VectorBookkeeping
import QuDAG.Protocol.Deadlines
import QuDAG.Protocol.KeyAgreement
import QuDAG.Vault.Traversal
import QuDAG.Vault.LabelIntegrity
import QuDAG.Vault.ImportLosses
import QuDAG.Dag.StorageDag
import QuDAG.Dag.GraphCapacity
import QuDAG.Dag.ConcurrentUpdates
import QuDAG.Dag.FinalityCount
import QuDAG.Protocol.Migration
import QuDAG.Network.HalfOpen
import QuDAG.Network.OpeningRule
import QuDAG.Network.TrafficResistance
import QuDAG.Network.BucketIndex
import QuDAG.Network.Chunking
import QuDAG.Network.Relay
import QuDAG.Network.Reputation
import QuDAG.Network.SizeNormalization
import QuDAG.Network.BackPressure
import QuDAG.Network.Multiplexer
import QuDAG.Network.DarkBinding
import QuDAG.Network.DarkMaps
import QuDAG.Network.AddressRotation
import QuDAG.Crypto.Hqc
import QuDAG.Network.ConnectionLocks
import QuDAG.Network.RecordSignature
import QuDAG.Protocol.VersionSelection
import QuDAG.Network.PeerEligibility
import QuDAG.Network.CircuitSelection
import QuDAG.Integrations.EventStream
import QuDAG.Protocol.RpcServer
import QuDAG.Crypto.MlDsaRounding
import QuDAG.Network.SecureTransport
import QuDAG.Protocol.BackupAnswers
