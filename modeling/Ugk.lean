import Ugk.ForStd.Json
import Ugk.ForStd.JsonRoundTrip
import Ugk.ForStd.JsonTree
import Ugk.ForStd.Proc
import Ugk.ForStd.Stepwise
import Ugk.ForStd.Saga
import Ugk.ForStd.Traverse
import Ugk.ForStd.Chain
import Ugk.ForStd.Closure
import Ugk.ForStd.Climb
import Ugk.ForStd.PairTree
import Ugk.ForStd.KeyTable
import Ugk.ForStd.Pending
import Ugk.ForStd.FirstBy
import Ugk.Native.PyValue
import Ugk.Native.EffectSurface
import Ugk.Native.EffectModes
import Ugk.Native.Outcome
import Ugk.Native.Authority
import Ugk.Native.Store
import Ugk.Native.Warrant
import Ugk.Native.Kernel
import Ugk.Native.NamespaceGovernance
import Ugk.Native.Readers
import Ugk.Native.ExternalEffects
import Ugk.Native.EpochPrune
import Ugk.Native.Continuation
import Ugk.Native.Decision
import Ugk.Native.Execute
import Ugk.Native.Compensation
import Ugk.Native.Reconciliation
import Ugk.Native.EffectTrail
import Ugk.Native.NamespaceOps
import Ugk.Native.Deferral
import Ugk.Native.Will
import Ugk.Native.Csh
import Ugk.Native.Amendment
import Ugk.Spec.CanonicalJson
import Ugk.Spec.Body
import Ugk.Spec.Write
import Ugk.Spec.ReadBack
import Ugk.Spec.Linkage
import Ugk.Spec.Merkle
import Ugk.Spec.Acceptance
import Ugk.Spec.Sample
import Ugk.Spec.HonestChain
import Ugk.Spec.Tamper
import Ugk.Spec.History
import Ugk.Spec.Durable
import Ugk.Spec.Transaction
import Ugk.Spec.StoreRun
import Ugk.Spec.Inclusion
import Ugk.Spec.Faithful
import Ugk.Spec.Written
import Ugk.Spec.EffectColumns
import Ugk.Spec.NamespaceFold
import Ugk.Spec.TraceVector
import Ugk.Spec.Decision
import Ugk.Spec.Prune
import Ugk.Spec.Horizon
import Ugk.Spec.EffectRuns
import Ugk.Spec.NamespaceGates
import Ugk.Spec.Reload
import Ugk.Spec.Finality
import Ugk.Spec.Amendment
import Ugk.Spec.TerminalOutcome
import Ugk.Spec.LegendReads
import Ugk.Spec.Persistence
import Ugk.Spec.StructuralLinkage
import Ugk.Spec.Will
import Ugk.Spec.Compensation
import Ugk.Native.Oracle
import Ugk.Spec.Independence
import Ugk.Spec.Scopes
import Ugk.Native.BridgeBinding
import Ugk.Spec.BridgeBinding
import Ugk.Native.CkCanon
import Ugk.Native.TierLedger
import Ugk.Spec.CkCanon
import Ugk.Spec.TierLedger
import Ugk.Native.ReleaseBundle
import Ugk.Spec.ReleaseBundle
import Ugk.Native.ProofModelB
import Ugk.Native.ProofCache
import Ugk.Spec.ProofModelB
import Ugk.Spec.ProofCache
import Ugk.Native.Witness
import Ugk.Spec.Witness
import Ugk.ForStd.AdjacentSort
import Ugk.Native.Scheduler
import Ugk.Spec.Scheduler
import Ugk.Native.IntentStore
import Ugk.Spec.IntentStore
import Ugk.Native.CapabilitySufficiency
import Ugk.Spec.CapabilitySufficiency
import Ugk.Native.Rpc
import Ugk.Spec.Rpc
import Ugk.Spec.CkValue
import Ugk.Native.Dispatch
import Ugk.Spec.Dispatch
import Ugk.ForStd.Tables
import Ugk.Native.AuditSession
import Ugk.Spec.AuditSession
import Ugk.Spec.Frontier
import Ugk.Spec.EffectModes
import Ugk.Native.A1Verifier
import Ugk.Spec.A1Verifier
import Ugk.Native.AuthorityGraph
import Ugk.Spec.AuthorityGraph
import Ugk.Spec.Succession
import Ugk.Native.WarrantStore
import Ugk.Spec.WarrantStore
import Ugk.ForStd.JsonPretty
import Ugk.Native.AmendmentArchive
import Ugk.Spec.AmendmentArchive
import Ugk.Native.ProjectionRegistry
import Ugk.Spec.ProjectionRegistry
import Ugk.Spec.DispatchBinding
import Ugk.ForStd.Edwards
import Ugk.ForStd.ModularPower
import Ugk.Native.Ed25519
import Ugk.Spec.EdwardsPoints
import Ugk.Spec.Ed25519
import Ugk.Native.Issuance
import Ugk.Spec.Issuance
import Ugk.Spec.HonestFinality
import Ugk.Native.AmendmentLedger
import Ugk.Spec.AmendmentLedger
import Ugk.Spec.Accrual
import Ugk.Spec.ReceiptLaw
import Ugk.Spec.Mediation
import Ugk.ForStd.Callback
import Ugk.Spec.EffectOrder
