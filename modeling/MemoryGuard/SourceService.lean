import MemoryGuard.SourceGuard

/-!
Case-specific evidence gates. The context of a case is recomputed whenever a
report is written, handed off, accepted or used for a resolution, and the gates
compare it with what the report recorded.
-/
namespace MemoryGuard.SourceService

open OrderedDict Guarded JsonText ContentHash Models Artifacts Aggregate Core SourceModels
open SourceState SourceGuard

/-- The connector configuration of a running service. `resource` is how the
adapter of a source normalises a requested resource, or refuses it. -/
structure EvidenceDesk where
  config : ConnectorConfig
  resource : SourceSpec → String → Scope → Except CaseworkError String

def EvidenceDesk.specs (desk : EvidenceDesk) : Dict Identifier SourceSpec := desk.config.specs

def allowedSpec (desk : EvidenceDesk) (actor : Actor) (source_id : Identifier) (scope : Scope) :
    Except CaseworkError SourceSpec := do
  let spec ← fetch (desk.specs.get? source_id) ⟨"SOURCE_NOT_ALLOWED", 403⟩
  ensure (spec.tenant_id = actor.tenant_id ∧ scope.subject_id ∈ actor.subjects ∧
    scope.subject_id ∈ spec.subjects) ⟨"SOURCE_NOT_ALLOWED", 403⟩
  return spec

variable [Sha256]

def policy (desk : EvidenceDesk) (state : Workspace) (case : RiskCase) :
    Option ScopeEvidencePolicy :=
  desk.config.policies.find? (fun p =>
    p.tenant_id = state.tenant_id ∧ scopeKey p.scope = scopeKey case.scope)

/-- `if self.evidence_desk: self.evidence_desk.remember_policy(...)`. -/
def deskRemembers (desk : Option EvidenceDesk) (state : Workspace) (case : RiskCase)
    (source_ids : List Identifier) : Except CaseworkError Workspace :=
  match desk with
  | none => return state
  | some d => rememberPolicy state case.case_id (policy d state case) source_ids

section Context

omit [Sha256] in
def factSignals (r : SourceReceipt) : List Signal :=
  (if r.observed.facts.get? "state" = some (.str "open") then
    [⟨r.source_id, "ISSUE_REMAINS_OPEN", none⟩] else []) ++
  (if r.observed.facts.get? "transaction_succeeded" = some (.bool false) then
    [⟨r.source_id, "TRANSACTION_REVERTED", none⟩] else [])

def conflictSignal (c : SourceConflict) : Signal :=
  ⟨c.source_ids.headD "", "SOURCE_CONFLICT", some (digest "source-conflict" c.toJson)⟩

omit [Sha256] in
def summary (r : SourceReceipt) : ReceiptSummary :=
  ⟨r.receipt_id, r.source_id, r.receipt_root, r.observed.facts, r.expires_at,
    r.observed.provenance⟩

omit [Sha256] in
/-- The independence groups that count: those of the required sources, or of
all sources where none is required. -/
def coveringGroups (required : List Identifier) (receipts : List SourceReceipt) :
    List Identifier :=
  let relevant := if required = [] then receipts
    else receipts.filter (fun r => r.source_id ∈ required)
  (relevant.map SourceReceipt.independence_group).dedup

def context (desk : EvidenceDesk) (state : Workspace) (case_id : Identifier) (time : Instant) :
    Except CaseworkError EvidenceContext := do
  let case ← item state.cases case_id
  let pol := policy desk state case
  let floor ← effectivePolicy state case.case_id pol
  let (receipts, rejected) ← currentReceipts state case_id time desk.specs
  let conflicts := sourceConflicts receipts
  let got := receipts.map SourceReceipt.source_id
  let required := floor.required_sources
  let missing := required.filter (fun s => s ∉ got)
  let groups := coveringGroups required receipts
  -- A stale head or a conflicting claim never counts as merely optional evidence.
  let ready : Bool := rejected.isEmpty ∧ conflicts.isEmpty ∧ missing.isEmpty ∧
    floor.min_independence_groups ≤ groups.length
  let result : EvidenceContext := {
    case_id := case_id
    case_version := case.version
    review_signals := receipts.flatMap factSignals ++
      missing.map (fun s => ⟨s, "MISSING_REQUIRED_SOURCE", none⟩) ++
      rejected.map (fun r => ⟨r.source_id, r.reason, none⟩) ++ conflicts.map conflictSignal
    required_sources := required
    missing_sources := missing
    declared_independence_groups := groups.length
    coverage_complete := ready
    source_conflicts := conflicts
    resolution_requires_sources := required ≠ [] ∨ pol.isSome
    source_obligations := some floor
    policy_hash := digest "scope-evidence-policy" ((pol.map ScopeEvidencePolicy.toJson).getD (.obj []))
    receipts := receipts.map summary
    rejected := rejected
    bundle_root := "" }
  return { result with bundle_root := digest "evidence-bundle" (object result.body) }

/-- No context where no policy is configured and no evidence was ever used. -/
def reportContext (desk : EvidenceDesk) (state : Workspace) (case_id : Identifier)
    (time : Instant) : Except CaseworkError (Option EvidenceContext) := do
  let case ← item state.cases case_id
  if (policy desk state case).isNone ∧ ¬ HasObligations state case_id then
    return none
  let value ← context desk state case_id time
  return some value

end Context

section Gates

omit [Sha256] in
def inspections (report : Report) : List TraceEvent :=
  report.trace.filter (fun e => e.tool = "evidence.inspect")

omit [Sha256] in
def requireDesk (state : Workspace) (case_id : Identifier) (desk : Option EvidenceDesk)
    (report : Option Report) : Except CaseworkError Unit :=
  ensure (¬ (desk.isNone ∧ ((∃ r ∈ report, inspections r ≠ []) ∨ HasObligations state case_id)))
    ⟨"SOURCE_GUARD_UNAVAILABLE", 503⟩

def validateReport (desk : EvidenceDesk) (state : Workspace) (case : RiskCase) (report : Report)
    (time : Instant) : Except CaseworkError Unit := do
  match ← reportContext desk state case.case_id time with
  | none => return ()
  | some value =>
    ensure ((inspections report).map TraceEvent.output_hash =
      [some (digest "tool-output" value.toJson)]) (conflict "SOURCE_REPORT_STALE")
    ensure (value.source_conflicts.isEmpty) (conflict "SOURCE_CONFLICT")
    ensure value.coverage_complete (conflict "SOURCE_COVERAGE_REQUIRED")

def resolution (desk : EvidenceDesk) (state : Workspace) (case : RiskCase)
    (evidence_digest : Digest) (time : Instant) : Except CaseworkError Unit := do
  match ← reportContext desk state case.case_id time with
  | none => return ()
  | some value =>
    ensure (value.source_conflicts.isEmpty) (conflict "SOURCE_CONFLICT")
    ensure (value.coverage_complete ∧ evidence_digest = value.bundle_root)
      (conflict "CURRENT_EVIDENCE_BUNDLE_REQUIRED")

end Gates

end MemoryGuard.SourceService
