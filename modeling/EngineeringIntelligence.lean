import EngineeringIntelligence.Framework.Effect
import EngineeringIntelligence.Framework.Fallible
import EngineeringIntelligence.Framework.Find
import EngineeringIntelligence.Framework.Joined
import EngineeringIntelligence.Framework.Json
import EngineeringIntelligence.Framework.JsonText
import EngineeringIntelligence.Framework.JsonReader
import EngineeringIntelligence.Framework.JsonMentions
import EngineeringIntelligence.Framework.OData
import EngineeringIntelligence.Framework.PyJson
import EngineeringIntelligence.Framework.PyWire
import EngineeringIntelligence.Framework.Retry
import EngineeringIntelligence.Framework.Run
import EngineeringIntelligence.Framework.Journal
import EngineeringIntelligence.Framework.Course
import EngineeringIntelligence.Framework.Sorted
import EngineeringIntelligence.Framework.Table
import EngineeringIntelligence.CompanyBrain.Model
import EngineeringIntelligence.Framework.Text
import EngineeringIntelligence.Framework.Timestamp
import EngineeringIntelligence.Framework.UtcTime
import EngineeringIntelligence.Framework.VersionedCell
import EngineeringIntelligence.Framework.PopSearch
import EngineeringIntelligence.Ingestion.Models
import EngineeringIntelligence.CompanyBrain.Projector
import EngineeringIntelligence.Ingestion.Catalog
import EngineeringIntelligence.Ingestion.Index
import EngineeringIntelligence.Ingestion.Chunkers
import EngineeringIntelligence.Ingestion.KnowledgePipeline
import EngineeringIntelligence.Ingestion.CheckoutIds
import EngineeringIntelligence.Ingestion.ChunkContent
import EngineeringIntelligence.Ingestion.DefinitionLines
import EngineeringIntelligence.Ingestion.Pipeline
import EngineeringIntelligence.Ingestion.DeadLetters
import EngineeringIntelligence.Ingestion.PushEvents
import EngineeringIntelligence.Ingestion.Reconciliation
import EngineeringIntelligence.Ingestion.Convergence
import EngineeringIntelligence.Orchestration.Jobs
import EngineeringIntelligence.Orchestration.Attempts
import EngineeringIntelligence.Orchestration.Runner
import EngineeringIntelligence.Orchestration.Leases
import EngineeringIntelligence.Orchestration.OnceOnly
import EngineeringIntelligence.PrGuardian.Contracts
import EngineeringIntelligence.PrGuardian.Config
import EngineeringIntelligence.PrGuardian.EffectiveConfig
import EngineeringIntelligence.PrGuardian.Shadow
import EngineeringIntelligence.PrGuardian.Enforcement
import EngineeringIntelligence.PrGuardian.ShadowNormal
import EngineeringIntelligence.PrGuardian.Evaluation
import EngineeringIntelligence.PrGuardian.Conclusion
import EngineeringIntelligence.PrGuardian.CommentRoundTrip
import EngineeringIntelligence.PrGuardian.Publisher
import EngineeringIntelligence.PrGuardian.KillSwitch
import EngineeringIntelligence.PrGuardian.PublisherTarget
import EngineeringIntelligence.PrGuardian.StickyComment
import EngineeringIntelligence.PrGuardian.StickyRuns
import EngineeringIntelligence.PrGuardian.ContextRadius
import EngineeringIntelligence.PrGuardian.ContextVersion
import EngineeringIntelligence.Remediation.Catalog
import EngineeringIntelligence.Remediation.ConcurrencyLock
import EngineeringIntelligence.Remediation.LockRuns
import EngineeringIntelligence.Remediation.Policy
import EngineeringIntelligence.Remediation.Certification
import EngineeringIntelligence.Remediation.Executor
import EngineeringIntelligence.Remediation.MaterialInputs
import EngineeringIntelligence.Remediation.OpaPolicy
import EngineeringIntelligence.Remediation.ExecutionSafety
import EngineeringIntelligence.Remediation.EvaluatedLoop
import EngineeringIntelligence.Remediation.Exclusion
import EngineeringIntelligence.Remediation.TruthfulResult
import EngineeringIntelligence.Resilience.BreakerRuns
import EngineeringIntelligence.Resilience.L4Eligibility
import EngineeringIntelligence.State.AuditLog
import EngineeringIntelligence.State.AuditChain
import EngineeringIntelligence.State.AuditReplay
import EngineeringIntelligence.State.Lifecycle
import EngineeringIntelligence.State.Store
import EngineeringIntelligence.CompanyBrain.Store
import EngineeringIntelligence.CompanyBrain.Memory
import EngineeringIntelligence.CompanyBrain.Rows
import EngineeringIntelligence.CompanyBrain.RowTrips
import EngineeringIntelligence.CompanyBrain.EvidencePairs
import EngineeringIntelligence.CompanyBrain.Lifecycle
import EngineeringIntelligence.CompanyBrain.AuditTrail
import EngineeringIntelligence.CompanyBrain.Snapshot
import EngineeringIntelligence.CompanyBrain.Description
import EngineeringIntelligence.CompanyBrain.Isolation
import EngineeringIntelligence.CompanyBrain.Plan
import EngineeringIntelligence.CompanyBrain.Calls
import EngineeringIntelligence.CompanyBrain.Projections
import EngineeringIntelligence.CompanyBrain.Governed
import EngineeringIntelligence.CompanyBrain.View
import EngineeringIntelligence.CompanyBrain.Materialized
import EngineeringIntelligence.CompanyBrain.Delivery
import EngineeringIntelligence.CompanyBrain.WorldModel
import EngineeringIntelligence.CompanyBrain.Integrity
import EngineeringIntelligence.CompanyBrain.ProjectionLimits
import EngineeringIntelligence.CompanyBrain.FileDeletion
import EngineeringIntelligence.CompanyBrain.Scope
import EngineeringIntelligence.CompanyBrain.BlastRadius
import EngineeringIntelligence.CompanyBrain.Conflicts
import EngineeringIntelligence.CompanyBrain.DecisionContext
import EngineeringIntelligence.CompanyBrain.ArtifactOutbox
import EngineeringIntelligence.CompanyBrain.EvidenceReceipts
import EngineeringIntelligence.CompanyBrain.Corrections
import EngineeringIntelligence.CompanyBrain.CorrectionRetries
import EngineeringIntelligence.CompanyBrain.OutboxDue
import EngineeringIntelligence.CompanyBrain.OutboxRuns
import EngineeringIntelligence.CompanyBrain.PacketSelection
import EngineeringIntelligence.CompanyBrain.Withheld
import EngineeringIntelligence.CompanyBrain.Disclosure
import EngineeringIntelligence.CompanyBrain.Presentation
import EngineeringIntelligence.CompanyBrain.PacketAccounts
import EngineeringIntelligence.ControlPlane.Remediation
import EngineeringIntelligence.ControlPlane.WorkflowLaw
import EngineeringIntelligence.ControlPlane.ApprovalBinding
import EngineeringIntelligence.ControlPlane.ApprovalUse
import EngineeringIntelligence.Ingestion.SearchAccess
import EngineeringIntelligence.Ingestion.FilterSafety
import EngineeringIntelligence.PrGuardian.Publication
import EngineeringIntelligence.PrGuardian.PublicationRuns
import EngineeringIntelligence.Product.DurableSelfHealing
import EngineeringIntelligence.State.CosmosStore
import EngineeringIntelligence.State.CosmosAudit
import EngineeringIntelligence.State.LifecycleJournal
import EngineeringIntelligence.State.StoreRefinement
import EngineeringIntelligence.Orchestration.LifecycleBridge
import EngineeringIntelligence.Orchestration.RemediationActivities
import EngineeringIntelligence.Orchestration.BridgeRetries
import EngineeringIntelligence.Orchestration.AuditIds
import EngineeringIntelligence.Orchestration.MutationFlag
import EngineeringIntelligence.Orchestration.RemediationWorkflow
import EngineeringIntelligence.Orchestration.ActionGates
import EngineeringIntelligence.Orchestration.ApprovalSignals
import EngineeringIntelligence.Product.SelfHealingRuns
import EngineeringIntelligence.State.CosmosRefinement
import EngineeringIntelligence.Orchestration.RemediationRuns
import EngineeringIntelligence.Orchestration.RecordedEvents
import EngineeringIntelligence.State.CosmosAuditChain
import EngineeringIntelligence.State.CosmosAppends
import EngineeringIntelligence.State.ConditionalPuts
import EngineeringIntelligence.CompanyBrain.OptimisticWrites
import EngineeringIntelligence.State.StoreAgreement
import EngineeringIntelligence.Orchestration.RecordedRuns
import EngineeringIntelligence.Intelligence.Graph
import EngineeringIntelligence.Intelligence.Risk
import EngineeringIntelligence.Topology.Projections
import EngineeringIntelligence.Topology.Ownership
import EngineeringIntelligence.Validation.EvidenceRecords
import EngineeringIntelligence.Validation.ProductionReadiness
import EngineeringIntelligence.Validation.EvidenceTrip
import EngineeringIntelligence.Validation.ReadinessOrder
import EngineeringIntelligence.Feedback.PromotionRoundTrip
import EngineeringIntelligence.Framework.JsonLimits
import EngineeringIntelligence.PrGuardian.ArchitectureCoverage
import EngineeringIntelligence.PrGuardian.ArtifactBytes
import EngineeringIntelligence.Framework.Regex
import EngineeringIntelligence.Intelligence.ManifestLocality
import EngineeringIntelligence.Intelligence.Checkout
import EngineeringIntelligence.Feedback.OutcomeAgreement
import EngineeringIntelligence.Product.RunbookAgreement
import EngineeringIntelligence.Product.RevertRanges
import EngineeringIntelligence.Intelligence.RiskCalibration
import EngineeringIntelligence.Validation.SoakSpans
import EngineeringIntelligence.Validation.PerformanceTargets
import EngineeringIntelligence.Feedback.ShadowFingerprint
