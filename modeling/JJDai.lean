import JJDai.Lib.Dict
import JJDai.Lib.FirstFound
import JJDai.Lib.Text
import JJDai.Lib.Number
import JJDai.Lib.NumberOrder
import JJDai.Lib.FloatOrder
import JJDai.Lib.HashTree
import JJDai.Lib.HashTreeComplete
import JJDai.Lib.HashTreeInclusion
import JJDai.Lib.HashTreeSound
import JJDai.Lib.HashTreeUnique
import JJDai.Lib.Hex
import JJDai.Lib.Run
import JJDai.Lib.Json
import JJDai.Lib.JsonText
import JJDai.Lib.JsonNumber
import JJDai.Lib.JsonRoundTrip
import JJDai.Lib.LastWrite
import JJDai.Lib.Leb128
import JJDai.Lib.Ranking
import JJDai.Lib.Shrinkage
import JJDai.Lib.Timeline
import JJDai.Lib.Transaction
import JJDai.Primitive.Python
import JJDai.Primitive.Durable
import JJDai.Primitive.Builtins
import JJDai.Primitive.Canonical
import JJDai.Primitive.CanonicalOrder
import JJDai.Primitive.Crypto
import JJDai.Primitive.CanonicalText
import JJDai.Primitive.CanonicalUnique
import JJDai.Primitive.CanonicalValue
import JJDai.Primitive.Plane
import JJDai.Primitive.Witness
import JJDai.Primitive.ChainVerification
import JJDai.Primitive.Merkle
import JJDai.Primitive.Consistency
import JJDai.Primitive.CrashSafety
import JJDai.Primitive.PlaneBound
import JJDai.Primitive.DurableText
import JJDai.Primitive.Segments
import JJDai.Primitive.PlaneAccepts
import JJDai.Primitive.WritableRecord
import JJDai.Primitive.Ledger
import JJDai.Primitive.EventLog
import JJDai.Primitive.Inclusion
import JJDai.Primitive.JournaledStore
import JJDai.Primitive.ReadBack
import JJDai.Primitive.PersistedChain
import JJDai.Primitive.ReservedRuns
import JJDai.Primitive.SaltedAppend
import JJDai.Primitive.VerifiedRecord
import JJDai.Replication.Envelope
import JJDai.Replication.Certificate
import JJDai.Replication.Store
import JJDai.Replication.Peers
import JJDai.Replication.Segments
import JJDai.Replication.Session
import JJDai.Replication.Reload
import JJDai.Replication.PeerEvidence
import JJDai.Replication.Recovery
import JJDai.Replication.Accusation
import JJDai.Replication.HonestOrigin
import JJDai.Replication.RecoveryComplete
import JJDai.Replication.Coverage
import JJDai.Replication.CatchUp
import JJDai.Replication.Equivocation
import JJDai.Replication.Links
import JJDai.Replication.Membership
import JJDai.Replication.Quorum
import JJDai.Replication.QuorumTracker
import JJDai.Replication.RequestAuth
import JJDai.Replication.Supply
import JJDai.Daemon.ReceiveRoot
import JJDai.Daemon.Acknowledgement
import JJDai.Daemon.ConnectionCeiling
import JJDai.Daemon.KeepAlive
import JJDai.Daemon.RootRace
import JJDai.Entanglement.Judgment
import JJDai.Entanglement.Blame
import JJDai.Entanglement.HonestHistory
import JJDai.Entanglement.Issuance
import JJDai.Entanglement.IssuanceInclusion
import JJDai.Challenge.Round
import JJDai.Challenge.Deeds
import JJDai.Challenge.Conviction
import JJDai.Challenge.Evidence
import JJDai.Challenge.Majority
import JJDai.Challenge.Order
import JJDai.Governance.Containment
import JJDai.Governance.Replay
import JJDai.Governance.Calls
import JJDai.Governance.Erasure
import JJDai.Governance.Corroboration
import JJDai.Governance.FalseContainment
import JJDai.Verification.Schema
import JJDai.Verification.Verdict
import JJDai.Verification.SchemaText
import JJDai.Verification.BuiltSchema
import JJDai.Verification.CrossVerify
import JJDai.Verification.SealedVerdict
import JJDai.Verification.ReAudit
import JJDai.Verification.Independence
import JJDai.Verification.TypedBoundary
import JJDai.Verification.VerdictQuorum
import JJDai.Anchoring.Scheduler
import JJDai.Anchoring.Ratchet
import JJDai.Anchoring.Readiness
import JJDai.Anchoring.FalseGreen
import JJDai.Anchoring.Restart
import JJDai.Anchoring.DeadBackend
import JJDai.Reputation.Registry
import JJDai.Reputation.Weights
import JJDai.Reputation.History
import JJDai.Reputation.Direction
import JJDai.Reputation.Agreement
import JJDai.Reputation.Idle
import JJDai.Reputation.JournalAudit
import JJDai.Routing.Diversity
import JJDai.Routing.Selection
import JJDai.Kernel.Viveka
import JJDai.Kernel.Deliberation
import JJDai.Kernel.Karma
import JJDai.Kernel.Intents
import JJDai.Kernel.KarmaAudit
import JJDai.Kernel.Smriti
import JJDai.Kernel.MemoryTransport
import JJDai.Kernel.MemorySplice
import JJDai.Kernel.Rollback
import JJDai.Provenance.WeightAttestation
import JJDai.Release.Registry
import JJDai.Release.Statement
import JJDai.Release.External
import JJDai.Release.Attestation
import JJDai.Release.Lifecycle
import JJDai.Release.Publication
import JJDai.Release.Renewal
import JJDai.Release.TwoKeys
import JJDai.Release.Standing
import JJDai.Release.Authorizer
import JJDai.Kernel.Toolset
import JJDai.Kernel.WasmPure
import JJDai.Kernel.WasmGrammar
import JJDai.Kernel.WasmExact
import JJDai.Knowledge.RagStore
import JJDai.Knowledge.PlaneH
import JJDai.Knowledge.Lifecycle
import JJDai.Knowledge.ProvedChunks
import JJDai.Knowledge.Witnessed
import JJDai.Knowledge.KeptStore
import JJDai.Knowledge.BestEligible
import JJDai.Provenance.ModelManifest
import JJDai.Provenance.ArtifactBinding
import JJDai.Kernel.Capture
import JJDai.Kernel.CompleteOrRefused
import JJDai.Lib.Nucleus
import JJDai.Verification.Reachability
import JJDai.Verification.SampledReachable
import JJDai.Knowledge.Recall
import JJDai.Lib.Grouping
import JJDai.Primitive.WitnessReader
import JJDai.Release.DebtGate
import JJDai.Release.ScopeLaw
import JJDai.Anchoring.Keccak256
import JJDai.Anchoring.ReceiptBinding
import JJDai.Governance.Provisional
import JJDai.Lib.Admission
import JJDai.Lib.AsciiText
import JJDai.Lib.CounterStream
import JJDai.Primitive.Multisig
import JJDai.Provenance.ComposedManifest
import JJDai.Provenance.Reloading
import JJDai.Runtime.SaltVault
import JJDai.Runtime.VaultReopens
import JJDai.Verification.Verifiers
import JJDai.Primitive.Uniqueness
import JJDai.Runtime.Recovery
import JJDai.Runtime.Restoration
