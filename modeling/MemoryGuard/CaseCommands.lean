import MemoryGuard.TaskCommands

/-!
The commands on risk cases: opening and reopening, notes, investigations,
handoffs and resolution. An investigation spans several transactions; its
commit is given the workspace it started from and what the planner answered.
-/
namespace MemoryGuard.CaseCommands

open OrderedDict Guarded JsonText ContentHash Models Artifacts Aggregate Core SourceModels
open SourceState SourceGuard SourceService Transactions TaskCommands

variable [Sha256]

section Risks

variable (svc : Service) (env : Environment) (actor : Actor) (cmd : Command)

omit [Sha256] in
/-- Store the current record of a case and append it to the history. -/
def recordCase (state : Workspace) (case : RiskCase) (history : List RiskCase) : Workspace :=
  { state with
    cases := state.cases.set case.case_id case
    case_history := state.case_history.set case.case_id (history ++ [case]) }

/-- A new case at version 1, with what its policy demands remembered and every
task that the risk reaches suspended. -/
def openRisk (state : Workspace) (case : RiskCase) (reason : String) :
    Except CaseworkError (Workspace × List Identifier) := do
  let state ← deskRemembers svc.evidence_desk (recordCase state case []) case []
  return invalidate state case.scope (caseRef case.case_id case.version) reason

omit [Sha256] in
def newCase (scope : Scope) (kind : RiskKind) (evidence_digest : Digest) (seq : ℕ) : RiskCase :=
  ⟨env.fresh "case", scope, kind, 1, .opened, actor.actor_id, seq, evidence_digest, none, none, none⟩

def openCaseChange (scope : Scope) (kind : RiskKind) (evidence_digest : Digest) : Change :=
  fun state seq => do
    ensure (state.cases.size < 500) ⟨"CASE_CAPACITY_REACHED", 413⟩
    let case := newCase env actor scope kind evidence_digest seq
    let (state, impacted) ← openRisk svc state case "NEW_RISK"
    return (state, .caseOpened case impacted)

def openCase (scope : Scope) (kind : RiskKind) (evidence_digest : Digest) :
    Except CaseworkError Transaction := do
  authorize actor operators (some scope.subject_id)
  return {
    actor := actor
    command := cmd
    name := "case.open"
    payload := [("scope", scope.toJson), ("kind", .str kind.text),
      ("evidence_digest", .str evidence_digest)]
    change := openCaseChange svc env actor scope kind evidence_digest }

omit [Sha256] in
def reopened (case : RiskCase) (actor_id : Identifier) (seq : ℕ) (evidence_digest : Digest) :
    RiskCase :=
  { case with
    status := .opened
    version := case.version + 1
    opened_by := actor_id
    opened_seq := seq
    evidence_digest := evidence_digest
    resolution := none
    resolved_by := none
    resolved_seq := none }

def reopenCaseChange (case_id : Identifier) (evidence_digest : Digest) : Change :=
  fun state seq => do
    let case ← findCase state actor case_id
    ensure (case.status = .resolved) (conflict "CASE_ALREADY_OPEN")
    let case := reopened case actor.actor_id seq evidence_digest
    let history ← item state.case_history case_id
    let state ← deskRemembers svc.evidence_desk (recordCase state case history) case []
    let (state, impacted) := invalidate state case.scope (caseRef case_id case.version)
      "RISK_REOPENED"
    return (state, .caseReopened case impacted)

def reopenCase (case_id : Identifier) (evidence_digest : Digest) :
    Except CaseworkError Transaction := do
  authorize actor operators none
  return {
    actor := actor
    command := cmd
    name := "case.reopen"
    payload := [("case_id", .str case_id), ("evidence_digest", .str evidence_digest)]
    change := reopenCaseChange svc actor case_id evidence_digest }

/-- Only the digest of a note is kept. -/
def quarantineNote (scope : Scope) (text : String) : Except CaseworkError Transaction := do
  authorize actor operators (some scope.subject_id)
  let text_hash := digest "untrusted-text" (.str text)
  return {
    actor := actor
    command := cmd
    name := "note.quarantine"
    payload := [("scope", scope.toJson), ("text_hash", .str text_hash)]
    change := fun state _ => return (state, .noteQuarantined text_hash) }

end Risks

section Investigations

variable (svc : Service) (env : Environment) (actor : Actor) (cmd : Command)
  (case_id : Identifier) (snapshot : Workspace)

def attemptId : String :=
  "investigation_" ++ shortDigest 40 "investigation-attempt"
    (texts [actor.actor_id, cmd.idempotency_key])

/-- What an investigation captures from the workspace it starts from. -/
structure Inquiry where
  case : RiskCase
  basis : Digest
  external : Option EvidenceContext

/-- A stored answer, or a change to run in a transaction. -/
inductive Prepared
  | answered (response : Response)
  | transaction (tx : Transaction)

/-- The part of `investigate` before the planner is called. -/
def openInvestigation : Except CaseworkError (Response ⊕ Inquiry) := do
  authorize actor [.investigator] none
  validateWorkspace snapshot
  ensure (snapshot.tenant_id = actor.tenant_id) ⟨"TENANT_BINDING_FAILED", 503⟩
  let case ← findCase snapshot actor case_id
  let request_hash := requestHash actor cmd.session_id "case.investigate"
    [("case_id", .str case_id)]
  match snapshot.idempotency.get? (idempotencyKey actor.actor_id cmd.idempotency_key) with
  | some previous =>
    ensure (previous.request_hash = request_hash) (conflict "IDEMPOTENCY_CONFLICT")
    return .inl { previous.response with replayed := true, historical_only := true }
  | none =>
    match snapshot.artifacts.get? (attemptId actor cmd) with
    | some (.attempt prior) =>
      ensure (prior.request_hash = request_hash) (conflict "IDEMPOTENCY_CONFLICT")
      throw (conflict "INVESTIGATION_IN_PROGRESS_OR_UNCERTAIN")
    | some _ => throw (conflict "IDEMPOTENCY_CONFLICT")
    | none => pure ()
    ensure (snapshot.revision = cmd.expected_revision) (conflict "REVISION_CONFLICT")
    ensure (case.status = .opened) (conflict "CASE_NOT_OPEN")
    requireDesk snapshot case_id svc.evidence_desk none
    let basis ← investigationBasis snapshot case_id
    let external ← match svc.evidence_desk with
      | none => pure none
      | some desk => reportContext desk snapshot case_id (env.clock .external)
    match external with
    | none => pure ()
    | some context =>
      ensure (context.source_conflicts.isEmpty) (conflict "SOURCE_CONFLICT")
      ensure context.coverage_complete (conflict "SOURCE_COVERAGE_REQUIRED")
    return .inr ⟨case, basis, external⟩

def reserveAttemptChange (basis : Digest) : Change := fun state _ => do
  let live ← findCase state actor case_id
  ensure (live.status = .opened) (conflict "STALE_INVESTIGATION")
  let current ← investigationBasis state case_id
  ensure (current = basis) (conflict "STALE_INVESTIGATION")
  let attempt : InvestigationAttempt := {
    case_id := case_id
    attempt_id := attemptId actor cmd
    basis_hash := basis
    operator_id := actor.actor_id
    request_hash := requestHash actor cmd.session_id "case.investigate"
      [("case_id", .str case_id)]
    state := .pending
    requested_at := env.clock .requested
    report_id := none
    completed_at := none }
  return ({ state with artifacts := state.artifacts.set attempt.attempt_id (.attempt attempt) },
    .attemptReserved attempt.attempt_id)

/-- The claim that precedes a call of the planner. -/
def reserveAttempt : Except CaseworkError Prepared := do
  match ← openInvestigation svc env actor cmd case_id snapshot with
  | .inl response => return .answered response
  | .inr inquiry => return .transaction {
      actor := actor
      command := ⟨"claim_" ++ shortDigest 40 "investigation-claim" (.str cmd.idempotency_key),
        cmd.session_id, cmd.expected_revision⟩
      name := "investigation.reserve"
      payload := [("case_id", .str case_id), ("attempt_id", .str (attemptId actor cmd))]
      change := reserveAttemptChange env actor cmd case_id inquiry.basis
      relevant_basis := some (case_id, inquiry.basis) }

/-- What the planner led to: nothing when none is configured, a failure after
it may have named tools, or a plan whose receipt was bound to the request. -/
inductive Planning
  | deterministic
  | degraded (requested : List String)
  | remote (requested : List String) (receipt : Json)

omit [Sha256] in
def Planning.status : Planning → PlannerStatus
  | .deterministic => .deterministic
  | .degraded _ => .degraded
  | .remote _ _ => .remote

omit [Sha256] in
/-- The optional tools that run; a failed planner loses them. -/
def Planning.requested : Planning → List String
  | .deterministic => ["precedent.lookup"]
  | .degraded _ => []
  | .remote requested _ => requested

omit [Sha256] in
def Planning.named : Planning → List String
  | .deterministic => []
  | .degraded requested => requested
  | .remote requested _ => requested

omit [Sha256] in
def Planning.receipt : Planning → Option Json
  | .remote _ receipt => some receipt
  | _ => none

omit [Sha256] in
def mandatoryTools (external : Option EvidenceContext) : List String :=
  ["case.inspect", "dependencies.trace"] ++
    (if external.isSome then ["evidence.inspect"] else [])

omit [Sha256] in
def optionalTools : List String := ["precedent.lookup"]

/-- The open cases of every scope that an affected task depends on. -/
def relatedCases (impacted : List Identifier) : Except CaseworkError (List Identifier) := do
  let closures ← impacted.mapM (ancestors snapshot)
  return openCases snapshot (closures.flatMap (closureScopes snapshot))

/-- The trace entry of a tool that ran. -/
def toolEvent (basis : Digest) (name : String) (output : Json) (count : ℕ) : TraceEvent :=
  .succeeded name (digest "tool-input" (object [("case_id", .str case_id), ("basis", .str basis)]))
    (digest "tool-output" output) count

/-- The report of an investigation, computed from the captured workspace. -/
def draftReport (inquiry : Inquiry) (planning : Planning) : Except CaseworkError Report := do
  let impacted := affectedTasks snapshot inquiry.case.scope
  let related ← relatedCases snapshot impacted
  let precedents ← activePrecedents snapshot case_id
  let refs := if related = [] then [case_id] else related
  let looked_up := decide ("precedent.lookup" ∈ planning.requested)
  let inspected := match inquiry.external with
    | none => []
    | some context =>
      [toolEvent case_id inquiry.basis "evidence.inspect" context.toJson context.receipts.length]
  let lookups := if looked_up then
      [toolEvent case_id inquiry.basis "precedent.lookup"
        (object [("precedent_ids", texts precedents)]) precedents.length]
    else []
  let registered := mandatoryTools inquiry.external ++ optionalTools
  let suppressed := planning.named.filter (fun name => name ∉ registered)
  let draft : Report := {
    report_id := env.fresh "report"
    case_id := case_id
    case_version := inquiry.case.version
    investigator_id := actor.actor_id
    basis_hash := inquiry.basis
    case_refs := refs
    affected_tasks := impacted
    precedent_ids := if looked_up then precedents else []
    trace :=
      [toolEvent case_id inquiry.basis "case.inspect" (object [("case_ids", texts refs)]) refs.length,
        toolEvent case_id inquiry.basis "dependencies.trace"
          (object [("affected_tasks", texts impacted)]) impacted.length] ++
      inspected ++ lookups ++
      suppressed.map (fun name => .suppressed (digest "suppressed-tool" (.str name)))
    model_receipt := planning.receipt
    planner_status := planning.status
    report_root := "" }
  return { draft with report_root := digest "investigation" (object draft.body) }

def reportSourcesKey (report_id : Identifier) : Digest :=
  digest "report-sources-key" (.str report_id)

omit [Sha256] in
/-- Close the pending attempt of a planned investigation. -/
def completeAttempt (attempt_id : String) (report_id : Identifier) (state : Workspace) :
    Except CaseworkError Workspace :=
  match state.artifacts.get? attempt_id with
  | some (.attempt attempt) => do
    ensure (attempt.state = .pending) (conflict "INVESTIGATION_ATTEMPT_CHANGED")
    let attempt := { attempt with
      state := .completed
      report_id := some report_id
      completed_at := some (env.clock .completed) }
    return { state with artifacts := state.artifacts.set attempt_id (.attempt attempt) }
  | _ => throw (conflict "INVESTIGATION_ATTEMPT_CHANGED")

/-- The bundle is stored next to the report that inspected it. -/
def storeBundle (report : Report) (external : Option EvidenceContext) (state : Workspace) :
    Workspace :=
  match external with
  | none => state
  | some context =>
    let bundle : ReportBundle := ⟨report.report_id, report.case_id, report.report_root, context⟩
    { state with artifacts :=
        state.artifacts.set (reportSourcesKey report.report_id) (.reportBundle bundle) }

def investigateChange (report : Report) (external : Option EvidenceContext) (planned : Bool) :
    Change := fun state _ => do
  let case ← item state.cases case_id
  match external, svc.evidence_desk with
  | none, _ => pure ()
  | some _, none => throw backendUnavailable
  | some _, some desk => validateReport desk state case report (env.clock .report)
  let state := { state with reports := state.reports.set report.report_id report }
  let state ← if planned then completeAttempt env (attemptId actor cmd) report.report_id state
    else pure state
  return (storeBundle report external state, .investigated report
    (if report.precedent_ids ≠ [] then "REVIEW_PRIOR_REMEDIATION"
      else "COLLECT_AND_REVIEW_EVIDENCE"))

/-- The commit that ends `investigate`. -/
def investigate (planning : Planning) : Except CaseworkError Prepared := do
  match ← openInvestigation svc env actor cmd case_id snapshot with
  | .inl response => return .answered response
  | .inr inquiry =>
    let report ← draftReport env actor case_id snapshot inquiry planning
    return .transaction {
      actor := actor
      command := cmd
      name := "case.investigate"
      payload := [("case_id", .str case_id)]
      change := investigateChange svc env actor cmd case_id report inquiry.external
        (planning.status ≠ .deterministic)
      relevant_basis := some (case_id, inquiry.basis) }

end Investigations

section Reviews

variable (svc : Service) (env : Environment) (actor : Actor) (cmd : Command)

/-- `_valid_report`: a report of the current version of an open case whose
basis and evidence are still what they were. -/
def validReport (state : Workspace) (case : RiskCase) (report_id : Identifier) :
    Except CaseworkError Report := do
  let report ← fetch (state.reports.get? report_id) ⟨"REPORT_NOT_FOUND", 404⟩
  ensure (report.case_id = case.case_id) ⟨"REPORT_NOT_FOUND", 404⟩
  ensure (report.case_version = case.version ∧ case.status = .opened)
    (conflict "STALE_INVESTIGATION")
  let basis ← investigationBasis state case.case_id
  ensure (report.basis_hash = basis) (conflict "STALE_INVESTIGATION")
  requireDesk state case.case_id svc.evidence_desk (some report)
  match svc.evidence_desk with
  | none => pure ()
  | some desk => validateReport desk state case report (env.clock .report)
  return report

omit [Sha256] in
/-- A registered reviewer of the tenant and subject who is neither the
investigator nor the one who opened the case. -/
def Independent (case : RiskCase) (reviewer : Actor) : Prop :=
  reviewer.tenant_id = actor.tenant_id ∧ reviewer.role = .reviewer ∧
    case.scope.subject_id ∈ reviewer.subjects ∧ reviewer.actor_id ≠ actor.actor_id ∧
    reviewer.actor_id ≠ case.opened_by

omit [Sha256] in
instance (case : RiskCase) (reviewer : Actor) : Decidable (Independent actor case reviewer) := by
  unfold Independent
  infer_instance

def handoffChange (case_id report_id reviewer_id : Identifier) : Change := fun state _ => do
  let case ← findCase state actor case_id
  let report ← validReport svc env state case report_id
  let reviewer ← fetch (svc.actors.get? reviewer_id) ⟨"INDEPENDENT_REVIEWER_REQUIRED", 403⟩
  ensure (Independent actor case reviewer) ⟨"INDEPENDENT_REVIEWER_REQUIRED", 403⟩
  ensure (report.investigator_id = actor.actor_id) ⟨"REPORT_OWNER_MISMATCH", 403⟩
  let handoff : Handoff := ⟨env.fresh "handoff", report.report_id, case_id, case.version,
    reviewer.actor_id, actor.actor_id, false⟩
  return ({ state with handoffs := state.handoffs.set handoff.handoff_id handoff },
    .handedOff handoff)

def handoff (case_id report_id reviewer_id : Identifier) : Except CaseworkError Transaction := do
  authorize actor [.investigator] none
  return {
    actor := actor
    command := cmd
    name := "case.handoff"
    payload := [("case_id", .str case_id), ("report_id", .str report_id),
      ("reviewer_id", .str reviewer_id)]
    change := handoffChange svc env actor case_id report_id reviewer_id }

def acceptHandoffChange (handoff_id : Identifier) : Change := fun state _ => do
  let handoff ← fetch (state.handoffs.get? handoff_id) ⟨"HANDOFF_NOT_FOUND", 404⟩
  ensure (handoff.reviewer_id = actor.actor_id) ⟨"HANDOFF_NOT_FOUND", 404⟩
  let case ← findCase state actor handoff.case_id
  let _ ← validReport svc env state case handoff.report_id
  ensure (handoff.case_version = case.version) (conflict "STALE_HANDOFF")
  let handoff := { handoff with accepted := true }
  return ({ state with handoffs := state.handoffs.set handoff_id handoff },
    .handoffAccepted handoff)

def acceptHandoff (handoff_id : Identifier) : Except CaseworkError Transaction := do
  authorize actor [.reviewer] none
  return {
    actor := actor
    command := cmd
    name := "handoff.accept"
    payload := [("handoff_id", .str handoff_id)]
    change := acceptHandoffChange svc env actor handoff_id }

end Reviews

section Resolutions

variable (svc : Service) (env : Environment) (actor : Actor) (cmd : Command)

omit [Sha256] in
def resolvedCase (case : RiskCase) (resolution : Resolution) (actor_id : Identifier) (seq : ℕ) :
    RiskCase :=
  { case with
    status := .resolved
    version := case.version + 1
    resolution := some resolution
    resolved_by := some actor_id
    resolved_seq := some seq }

def resolutionLinkKey (case_id : Identifier) (version : ℕ) : Digest :=
  digest "resolution-link" (.arr [.str case_id, nat version])

/-- Bind the review and the evidence bundle into future task bases, where the
report was made with one. -/
def linkResolution (state : Workspace) (case : RiskCase) (report : Report) (handoff_id : Identifier)
    (evidence_digest : Digest) (seq : ℕ) : Workspace :=
  if state.artifacts.Has (reportSourcesKey report.report_id) then
    let proof : ResolutionProof := ⟨case.case_id, case.version, report.report_id,
      report.report_root, handoff_id, evidence_digest, actor.actor_id, seq⟩
    { state with artifacts :=
        state.artifacts.set (resolutionLinkKey case.case_id case.version) (.resolutionProof proof) }
  else state

/-- One round of the taint loop. A resolution revives nothing and clears no
other taint. -/
def settleTask (token : String) (state : Workspace) (key : Identifier) :
    Except CaseworkError Workspace := do
  let _ ← item state.tasks key
  let state := { state with tasks := state.tasks.adjust [key] (fun t =>
    { t with taints := t.taints.set token "RECONSIDER_REQUIRED" }) }
  let observed ← policyResult state key (env.clock (.impact key)) false
  return { state with tasks := state.tasks.adjust [key] (fun t =>
    { t with status := if observed.verdict = .deny then .deny else .needsHuman }) }

omit [Sha256] in
/-- An accepted handoff of this case to the acting reviewer, who is neither the
one who opened it nor the investigator. -/
def Acknowledged (case_id : Identifier) (case : RiskCase) (handoff : Handoff) : Prop :=
  handoff.case_id = case_id ∧ handoff.accepted ∧ handoff.reviewer_id = actor.actor_id ∧
    actor.actor_id ≠ case.opened_by ∧ actor.actor_id ≠ handoff.investigator_id

omit [Sha256] in
instance (case_id : Identifier) (case : RiskCase) (handoff : Handoff) :
    Decidable (Acknowledged actor case_id case handoff) := by
  unfold Acknowledged
  infer_instance

def resolveChange (case_id handoff_id : Identifier) (resolution : Resolution)
    (evidence_digest : Digest) : Change := fun state seq => do
  let case ← findCase state actor case_id
  let handoff ← fetch (state.handoffs.get? handoff_id)
    ⟨"ACKNOWLEDGED_INDEPENDENT_REVIEW_REQUIRED", 403⟩
  ensure (Acknowledged actor case_id case handoff)
    ⟨"ACKNOWLEDGED_INDEPENDENT_REVIEW_REQUIRED", 403⟩
  let report ← validReport svc env state case handoff.report_id
  ensure (handoff.case_version = case.version) (conflict "STALE_HANDOFF")
  match svc.evidence_desk with
  | none => pure ()
  | some desk => SourceService.resolution desk state case evidence_digest (env.clock .resolution)
  let case := resolvedCase case resolution actor.actor_id seq
  let history ← item state.case_history case_id
  let state := linkResolution actor state case report handoff.handoff_id evidence_digest seq
  let state ← deskRemembers svc.evidence_desk (recordCase state case history) case []
  let impacted := affectedTasks state case.scope
  let state ← impacted.foldlM (settleTask env (resolutionRef case_id case.version)) state
  let lesson_id := env.fresh "lesson"
  let lesson : Lesson := {
    scope_key := scopeKey case.scope
    kind := case.kind
    case_id := case_id
    case_version := some case.version
    resolved_seq := some seq
    report_id := report.report_id
    resolution := resolution
    reviewer_id := actor.actor_id
    evidence_digest := evidence_digest }
  return ({ state with lessons := state.lessons.set lesson_id lesson },
    .caseResolved case impacted lesson_id)

def resolve (case_id handoff_id : Identifier) (resolution : Resolution)
    (evidence_digest : Digest) : Except CaseworkError Transaction := do
  authorize actor [.reviewer] none
  return {
    actor := actor
    command := cmd
    name := "case.resolve"
    payload := [("case_id", .str case_id), ("handoff_id", .str handoff_id),
      ("resolution", .str resolution.text), ("evidence_digest", .str evidence_digest)]
    change := resolveChange svc env actor case_id handoff_id resolution evidence_digest }

end Resolutions

end MemoryGuard.CaseCommands
