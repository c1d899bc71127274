import MemoryGuard.OrderedDict
import MemoryGuard.Guarded
import MemoryGuard.DependencyGraph
import MemoryGuard.JsonText
import MemoryGuard.ContentHash
import MemoryGuard.Models
import MemoryGuard.Artifacts
import MemoryGuard.Aggregate
import MemoryGuard.Core
import MemoryGuard.SourceModels
import MemoryGuard.SourceState
import MemoryGuard.SourceGuard
import MemoryGuard.SourceService
import MemoryGuard.Floors
import MemoryGuard.Transactions
import MemoryGuard.TaskCommands
import MemoryGuard.CaseCommands
import MemoryGuard.SourceCommands
import MemoryGuard.PartnerCommands
import MemoryGuard.Traces
import MemoryGuard.Calls
import MemoryGuard.Closure
import MemoryGuard.Policy
import MemoryGuard.Filing
import MemoryGuard.EvidenceEffects
import MemoryGuard.TaskEffects
import MemoryGuard.CaseEffects
import MemoryGuard.Effects
import MemoryGuard.Growth
import MemoryGuard.Upkeep
import MemoryGuard.Lifecycle
import MemoryGuard.History
import MemoryGuard.Frame
import MemoryGuard.ReviewGate
import MemoryGuard.Reconsideration
import MemoryGuard.Basis
import MemoryGuard.Freshness
import MemoryGuard.Causes
import MemoryGuard.Independence
import MemoryGuard.Integrity
import MemoryGuard.Heads
import MemoryGuard.Progress
import MemoryGuard.Completion
import MemoryGuard.Crew
import MemoryGuard.Permanence
import MemoryGuard.CanonicalText
import MemoryGuard.IsoText
import MemoryGuard.JsonReading
import MemoryGuard.Observations
import MemoryGuard.Observing
import MemoryGuard.Pollution
import MemoryGuard.Races
import MemoryGuard.Decisions
import MemoryGuard.Persistence
import MemoryGuard.AgentRules
import MemoryGuard.SecureHash
import MemoryGuard.Writes
import MemoryGuard.Custody
import MemoryGuard.Anchoring
import MemoryGuard.Grounds
import MemoryGuard.ReviewPlans
import MemoryGuard.Ingress
import MemoryGuard.Isolation
import MemoryGuard.LastingReports
import MemoryGuard.Sourcing
import MemoryGuard.ReviewPath
import MemoryGuard.Raising
import MemoryGuard.Deciding
import MemoryGuard.Advertised
import MemoryGuard.Grouping
import MemoryGuard.Disagreement
import MemoryGuard.AgentAuthority
import MemoryGuard.Precedents
import MemoryGuard.AcpHistory
import MemoryGuard.PartnerReview
import MemoryGuard.Loops
import MemoryGuard.Hex
import MemoryGuard.AuditContract
import MemoryGuard.BaseAnchor
import MemoryGuard.Exports
import MemoryGuard.Worklist
import MemoryGuard.JsonScanner
import MemoryGuard.StrictJson
import MemoryGuard.Framing
import MemoryGuard.RateLimit
import MemoryGuard.ReadOnlyMcp
import MemoryGuard.BodyLimit
import MemoryGuard.Demands
import MemoryGuard.Attempts
import MemoryGuard.Finalizing
import MemoryGuard.Recovery
import MemoryGuard.Agency
import MemoryGuard.PlanGates
import MemoryGuard.Vetoes
import MemoryGuard.RunStories
import MemoryGuard.RunValidity
import MemoryGuard.Inspectable
import MemoryGuard.StoredAmounts
import MemoryGuard.ProofAnchor
import MemoryGuard.StoppedActions
import MemoryGuard.ResolvedEvidence
