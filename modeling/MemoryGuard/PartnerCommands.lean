import MemoryGuard.SourceCommands

/-!
The commands around outside parties: signed incidents, review plans for a
partner's job market, and audit anchors. They open risks or keep records;
none of them resolves a case or decides a task.
-/
namespace MemoryGuard.PartnerCommands

open OrderedDict Guarded JsonText ContentHash Models Artifacts Aggregate Core SourceModels
open SourceState SourceGuard SourceService Transactions TaskCommands CaseCommands

variable [Sha256]

section Incidents

/-- A delivery as it arrives. `authentication` is the outcome of the checks of
its headers, signature and body, and `raw_sha256` the hash of its bytes. -/
structure Delivery where
  source_id : Identifier
  delivery_id : String
  kind : RiskKind
  evidence_digest : Digest
  raw_sha256 : Digest
  authentication : Except CaseworkError Unit

variable (svc : Service) (env : Environment)

def incidentReceipt (actor : Actor) (delivery : Delivery) (case_id : Identifier) :
    IncidentReceipt where
  case_id := case_id
  source_id := delivery.source_id
  source_actor := actor.actor_id
  received_at := env.clock .received
  payload_sha256 := delivery.raw_sha256
  delivery_id_hash := digest "delivery" (.str delivery.delivery_id)

def ingestChange (actor : Actor) (spec : IncidentSpec) (delivery : Delivery) : Change :=
  fun state seq => do
    ensure (state.cases.size < 500) ⟨"CASE_CAPACITY_REACHED", 413⟩
    let case := newCase env actor spec.scope delivery.kind delivery.evidence_digest seq
    let (state, affected) ← openRisk svc state case "SIGNED_INCIDENT"
    let record := incidentReceipt env actor delivery case.case_id
    return ({ state with artifacts :=
        state.artifacts.set (env.fresh "incident") (.incident record) },
      .incidentIngested case.case_id affected record)

/-- `handle`, run against the current revision. -/
def ingest (incidents : List IncidentSpec) (delivery : Delivery) (expected_revision : ℕ) :
    Except CaseworkError Transaction := do
  let spec ← fetch (incidents.find? (fun s => s.source_id = delivery.source_id))
    ⟨"INCIDENT_NOT_ACCEPTED", 403⟩
  delivery.authentication
  let actor ← item svc.actors spec.actor_id
  return {
    actor := actor
    command := ⟨"incident_" ++ shortDigest 48 "incident-key"
        (texts [delivery.source_id, delivery.delivery_id]),
      "ingress_" ++ shortDigest 40 "incident-source" (.str delivery.source_id),
      expected_revision⟩
    name := "incident.ingest"
    payload := [("source_id", .str delivery.source_id),
      ("delivery_id_hash", .str (digest "delivery" (.str delivery.delivery_id))),
      ("scope", spec.scope.toJson), ("kind", .str delivery.kind.text),
      ("evidence_digest", .str delivery.evidence_digest),
      ("payload_sha256", .str delivery.raw_sha256)]
    change := ingestChange svc env actor spec delivery }

end Incidents

section ReviewPlans

variable (svc : Service) (partner : Option VirtualsSpec) (env : Environment) (actor : Actor)
  (cmd : Command)

omit [Sha256] in
/-- `_allowed`. -/
def allowedPartner (case : RiskCase) : Except CaseworkError VirtualsSpec := do
  let spec ← fetch partner ⟨"ACP_REVIEW_NOT_CONFIGURED_FOR_SCOPE", 403⟩
  ensure (actor.tenant_id = spec.tenant_id ∧ case.scope.subject_id ∈ spec.subjects ∧
    case.scope.subject_id ∈ actor.subjects) ⟨"ACP_REVIEW_NOT_CONFIGURED_FOR_SCOPE", 403⟩
  return spec

/-- `_current`: why a plan is not current, empty when it is. -/
def planFaults (spec : VirtualsSpec) (state : Workspace) (case : RiskCase) (plan : ReviewPlan) :
    List String :=
  listed (plan.partner_spec_hash ≠ partnerHash spec) "ACP_CONFIG_CHANGED" ++
  listed (plan.expires_at ≤ env.clock .planExpiry) "ACP_PLAN_EXPIRED" ++
  listed (case.version ≠ plan.case_version ∨ case.status ≠ .opened) "ACP_CASE_CHANGED" ++
  match validReport svc env state case plan.report_id with
  | .ok report => listed (report.basis_hash ≠ plan.basis_hash) "ACP_BASIS_CHANGED"
  | .error e => [e.code]

omit [Sha256] in
def planOf (state : Workspace) (report_id : Identifier) : Option ReviewPlan :=
  state.artifacts.values.findSome? (fun a => match a with
    | .reviewPlan p => if p.report_id = report_id then some p else none
    | _ => none)

def requirements (plan_id : Identifier) (case : RiskCase) (report : Report)
    (bundle_root : Option Digest) : Json :=
  object ([("schema_version", .str "memoryguard-review-request/1"), ("request_id", .str plan_id),
    ("case_version", nat case.version), ("risk_kind", .str case.kind.text),
    ("scope_digest", .str (scopeKey case.scope)), ("report_root", .str report.report_root),
    ("basis_hash", .str report.basis_hash), ("evidence_digest", .str case.evidence_digest),
    ("no_resolution_authority", .bool true)] ++ strField "source_bundle_root" bundle_root)

def newPlan (spec : VirtualsSpec) (case_id : Identifier) (case : RiskCase) (report : Report)
    (bundle_root : Option Digest) : ReviewPlan :=
  let plan_id := env.fresh "acpreview"
  let required := requirements plan_id case report bundle_root
  { plan_id := plan_id
    case_id := case_id
    case_version := case.version
    report_id := report.report_id
    basis_hash := report.basis_hash
    requirements := required
    request_hash := digest "acp-requirements" required
    provider_address := spec.provider_address.toLower
    client_address := spec.client_address.toLower
    chain_id := spec.chain_id
    offering_name := spec.offering_name
    max_budget_micros := spec.max_budget_micros
    partner_spec_hash := partnerHash spec
    expires_at := env.clock .planCreated + seconds spec.ttl_seconds
    state := .operatorActionRequired
    bound_job_id := none
    observations := [] }

def preparePlanChange (case_id report_id : Identifier) : Change := fun state _ => do
  let case ← findCase state actor case_id
  let spec ← allowedPartner partner actor case
  let report ← validReport svc env state case report_id
  ensure (report.investigator_id = actor.actor_id) ⟨"REPORT_OWNER_MISMATCH", 403⟩
  match (planOf state report_id).filter (fun p =>
      p.partner_spec_hash = partnerHash spec ∧ env.clock .planFreshness < p.expires_at) with
  | some existing => return (state, .planPrepared existing true)
  | none =>
    let bundle_root ← match svc.evidence_desk with
      | none => pure none
      | some desk => do
        let value ← context desk state case_id (env.clock .planCreated)
        pure (some value.bundle_root)
    let plan := newPlan env spec case_id case report bundle_root
    return ({ state with artifacts := state.artifacts.set plan.plan_id (.reviewPlan plan) },
      .planPrepared plan false)

def preparePlan (case_id report_id : Identifier) : Except CaseworkError Transaction := do
  authorize actor [.investigator] none
  return {
    actor := actor
    command := cmd
    name := "acp.prepare"
    payload := [("case_id", .str case_id), ("report_id", .str report_id)]
    change := preparePlanChange svc partner env actor case_id report_id }

omit [Sha256] in
/-- What is kept of a history read: its result, or the code of its failure. The
reader looks up numerals only. -/
def verificationOf (job_id : String) (history : Except String (List (String × Json))) :
    List (String × Json) :=
  match if IsJobId job_id then history else .error "ACP_JOB_ID_INVALID" with
  | .ok fields => fields
  | .error code => [("job_id", .str job_id), ("state", .str "QUERY_FAILED"), ("error", .str code),
      ("complete_review_observed", .bool false), ("authoritative", .bool false),
      ("executable", .bool false)]

omit [Sha256] in
/-- A plan after one more look at the history of its job. A failed look binds
nothing. -/
def observedPlan (record : ReviewPlan) (job_id : String)
    (history : Except String (List (String × Json))) : ReviewPlan :=
  let verification := verificationOf job_id history
  let failed : Bool := payloadText verification "state" = some "QUERY_FAILED"
  { record with
    bound_job_id := if failed then record.bound_job_id else some job_id
    state := if failed then .queryFailed else .historyObserved
    observations := record.observations ++
      [object (verification ++ [("observed_at", (env.clock .observed).toJson)])] }

omit [Sha256] in
/-- Whether an artifact is another plan of the chain that is bound to the job. -/
def bindsJob (spec : VirtualsSpec) (plan_id : Identifier) (job_id : String) : Artifact → Bool
  | .reviewPlan p => decide (p.bound_job_id = some job_id ∧ p.plan_id ≠ plan_id ∧
      p.chain_id = spec.chain_id)
  | _ => false

omit [Sha256] in
def storedPlan (state : Workspace) (plan_id : Identifier) : Option ReviewPlan :=
  match state.artifacts.get? plan_id with
  | some (.reviewPlan p) => some p
  | _ => none

def verifyPlanChange (spec : VirtualsSpec) (plan : ReviewPlan) (plan_id : Identifier)
    (job_id : String) (history : Except String (List (String × Json))) : Change :=
  fun state _ => do
    let record ← fetch (storedPlan state plan_id) (conflict "ACP_PLAN_CHANGED")
    ensure (record.request_hash = plan.request_hash) (conflict "ACP_PLAN_CHANGED")
    ensure (∀ bound ∈ record.bound_job_id, bound ≠ "" → bound = job_id)
      (conflict "ACP_JOB_ALREADY_BOUND")
    -- A second plan cannot claim the same external job for another purpose.
    ensure (¬ state.artifacts.values.any (bindsJob spec plan_id job_id))
      (conflict "ACP_JOB_REUSED")
    let record := observedPlan env record job_id history
    let state := { state with artifacts := state.artifacts.set plan_id (.reviewPlan record) }
    let case ← findCase state actor record.case_id
    let reasons := planFaults svc env spec state case record
    return (state, .planVerified (object (verificationOf job_id history)) reasons.isEmpty reasons
      case.status)

/-- `verify`: the inspected workspace, then the commit of what the reader saw. A
retry is looked up in the inspected workspace; one that is stored later is found
when the transaction is run. -/
def verifyPlan (snapshot : Workspace) (plan_id : Identifier) (job_id : String)
    (history : Except String (List (String × Json))) : Except CaseworkError Prepared := do
  authorize actor [.investigator, .reviewer] none
  validateWorkspace snapshot
  ensure (snapshot.tenant_id = actor.tenant_id) ⟨"TENANT_BINDING_FAILED", 503⟩
  let plan ← fetch (storedPlan snapshot plan_id) ⟨"ACP_PLAN_NOT_FOUND", 404⟩
  let case ← findCase snapshot actor plan.case_id
  let spec ← allowedPartner partner actor case
  ensure (plan.partner_spec_hash = partnerHash spec) (conflict "ACP_CONFIG_CHANGED")
  ensure (∀ bound ∈ plan.bound_job_id, bound ≠ "" → bound = job_id)
    (conflict "ACP_JOB_ALREADY_BOUND")
  let payload := [("case_id", Json.str plan.case_id), ("plan_id", .str plan_id),
    ("job_id", .str job_id)]
  match snapshot.idempotency.get? (idempotencyKey actor.actor_id cmd.idempotency_key) with
  | some previous =>
    ensure (previous.request_hash = requestHash actor cmd.session_id "acp.verify" payload)
      (conflict "IDEMPOTENCY_CONFLICT")
    return .answered { previous.response with replayed := true, historical_only := true }
  | none =>
    ensure (snapshot.revision = cmd.expected_revision) (conflict "REVISION_CONFLICT")
    return .transaction {
      actor := actor
      command := cmd
      name := "acp.verify"
      payload := payload
      change := verifyPlanChange svc env actor spec plan plan_id job_id history }

end ReviewPlans

section Anchors

variable (svc : Service) (env : Environment) (actor : Actor) (cmd : Command)

omit [Sha256] in
def prepareAnchorChange (adapter : AnchorAdapter) (task_id decision_id : Identifier) : Change :=
  fun state _ => do
    let task ← findTask state actor task_id
    let decision ← fetch (state.decisions.get? decision_id) ⟨"DECISION_NOT_FOUND", 404⟩
    ensure (decision.task_id = task_id) ⟨"DECISION_NOT_FOUND", 404⟩
    let plan ← adapter.plan decision.proof_root decision.memory_revision task.intent.scope.chain_id
    let record : AuditAnchor := ⟨env.fresh "anchor", task_id, decision_id, plan,
      ⟨"NOT_SUBMITTED", none, []⟩, none, none, none⟩
    return ({ state with artifacts := state.artifacts.set record.anchor_id (.anchor record) },
      .anchorPrepared record)

omit [Sha256] in
def prepareAnchor (task_id decision_id : Identifier) : Except CaseworkError Transaction := do
  authorize actor [.reviewer] none
  let adapter ← fetch svc.anchor ⟨"BASE_AUDIT_ANCHOR_NOT_CONFIGURED", 503⟩
  return {
    actor := actor
    command := cmd
    name := "anchor.prepare"
    payload := [("task_id", .str task_id), ("decision_id", .str decision_id)]
    change := prepareAnchorChange env actor adapter task_id decision_id }

omit [Sha256] in
def storedAnchor (state : Workspace) (anchor_id : Identifier) : Option AuditAnchor :=
  match state.artifacts.get? anchor_id with
  | some (.anchor a) => some a
  | _ => none

omit [Sha256] in
/-- The transaction an anchor is already bound to; an empty text is none. -/
def knownTransaction (record : AuditAnchor) : Option String :=
  (record.bound_tx_hash.filter (· ≠ "")).or (record.verification.tx_hash.filter (· ≠ ""))

omit [Sha256] in
/-- A weaker recheck never downgrades a verified fact. -/
def observeVerification (record : AuditAnchor) (tx_hash : String) (verified : Verification) :
    AuditAnchor :=
  let old := record.verification
  let record := { record with bound_tx_hash := some tx_hash }
  if old.state = "VERIFIED" then
    let record := { record with last_verified := some old }
    if verified.state = "VERIFIED" then { record with verification := verified }
    else { record with last_verification_attempt := some verified }
  else { record with verification := verified }

def verifyAnchorChange (plan : AnchorPlan) (anchor_id tx_hash : String) (verified : Verification) :
    Change := fun state _ => do
  let record ← fetch (storedAnchor state anchor_id) (conflict "ANCHOR_REQUEST_CHANGED")
  ensure (record.plan = plan) (conflict "ANCHOR_REQUEST_CHANGED")
  ensure (∀ known ∈ knownTransaction record, known.toLower = tx_hash)
    (conflict "ANCHOR_TRANSACTION_ALREADY_BOUND")
  let record := observeVerification record tx_hash verified
  let state := { state with artifacts := state.artifacts.set anchor_id (.anchor record) }
  let task ← item state.tasks record.task_id
  let decision ← item state.decisions record.decision_id
  let basis ← taskBasis state task.task_id
  return (state, .anchorVerified record
    (task.current_decision_id ≠ some decision.decision_id ∨ decision.basis_hash ≠ basis))

/-- `verify_anchor`: the checked workspace, then the commit of what the chain
answered about a hash; a check that raises commits nothing. -/
def verifyAnchor (snapshot : Workspace) (anchor_id tx_hash : String)
    (verified : Except CaseworkError Verification) : Except CaseworkError Prepared := do
  authorize actor [.reviewer] none
  let _ ← fetch svc.anchor ⟨"BASE_AUDIT_ANCHOR_NOT_CONFIGURED", 503⟩
  validateWorkspace snapshot
  ensure (snapshot.tenant_id = actor.tenant_id) ⟨"TENANT_BINDING_FAILED", 503⟩
  let record ← fetch (storedAnchor snapshot anchor_id) ⟨"ANCHOR_REQUEST_NOT_FOUND", 404⟩
  let _ ← findTask snapshot actor record.task_id
  let normalized := tx_hash.toLower
  ensure (∀ known ∈ knownTransaction record, known.toLower = normalized)
    (conflict "ANCHOR_TRANSACTION_ALREADY_BOUND")
  let payload := [("task_id", Json.str record.task_id), ("anchor_id", .str anchor_id),
    ("tx_hash", .str normalized)]
  match snapshot.idempotency.get? (idempotencyKey actor.actor_id cmd.idempotency_key) with
  | some previous =>
    ensure (previous.request_hash = requestHash actor cmd.session_id "anchor.verify" payload)
      (conflict "IDEMPOTENCY_CONFLICT")
    return .answered { previous.response with replayed := true, historical_only := true }
  | none =>
    ensure (snapshot.revision = cmd.expected_revision) (conflict "REVISION_CONFLICT")
    -- The adapter asks the chain about a hash only.
    ensure (IsHash normalized) ⟨"INVALID_TRANSACTION_HASH", 422⟩
    let verified ← verified
    return .transaction {
      actor := actor
      command := cmd
      name := "anchor.verify"
      payload := payload
      change := verifyAnchorChange record.plan anchor_id normalized verified }

end Anchors

end MemoryGuard.PartnerCommands
