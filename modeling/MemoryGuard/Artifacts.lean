import MemoryGuard.Hex
import MemoryGuard.Models

/-!
The records kept in the artifact map of a workspace. The map is keyed by text
and holds one record per kind; which kind a record is decides how every reader
treats it. Flags that are written as a constant (`authority`, `executable` and
the like) appear in the JSON values only.
-/
namespace MemoryGuard.Artifacts

open OrderedDict JsonText ContentHash Models

section Names

/-- `HASH.fullmatch`. -/
def IsHash (text : String) : Prop :=
  match text.toList with
  | '0' :: 'x' :: digits => digits.length = 64 ∧ digits.all fun c => (Hex.digitValue c).isSome
  | _ => False

instance (text : String) : Decidable (IsHash text) := by
  unfold IsHash
  split <;> infer_instance

/-- `re.fullmatch(r"[1-9][0-9]{0,29}", job_id)`. -/
def IsJobId (job_id : String) : Prop :=
  match job_id.toList with
  | [] => False
  | c :: rest => c ∈ "123456789".toList ∧ rest.length ≤ 29 ∧
    rest.all fun d => d ∈ "0123456789".toList

instance (job_id : String) : Decidable (IsJobId job_id) :=
  match h : job_id.toList with
  | [] => isFalse (by simp [IsJobId, h])
  | c :: rest => decidable_of_iff (c ∈ "123456789".toList ∧ rest.length ≤ 29 ∧
      rest.all fun d => d ∈ "0123456789".toList) (by simp [IsJobId, h])

theorem IsHash.ne_empty {text : String} (h : IsHash text) : text ≠ "" := by
  rintro rfl
  exact h

theorem IsJobId.ne_empty {job_id : String} (h : IsJobId job_id) : job_id ≠ "" := by
  rintro rfl
  exact h

end Names

structure Escalation where
  artifact_id : Digest
  task_id : Identifier
  decision_id : Identifier
  proof_root : Digest
  reason_codes : List String
  active_blockers : List Identifier
  created_at : Instant

/-- The one artifact that has no `kind`. -/
structure ReviewArtifact where
  artifact_id : Digest
  task_id : Identifier
  decision_id : Identifier
  proof_root : Digest

structure ResolutionProof where
  case_id : Identifier
  case_version : ℕ
  report_id : Identifier
  report_root : Digest
  handoff_id : Identifier
  evidence_digest : Digest
  reviewer_id : Identifier
  event_seq : ℕ

inductive AttemptState
  | pending
  | completed
  deriving DecidableEq, Repr

structure InvestigationAttempt where
  case_id : Identifier
  attempt_id : String
  basis_hash : Digest
  operator_id : Identifier
  request_hash : Digest
  state : AttemptState
  requested_at : Instant
  report_id : Option Identifier
  completed_at : Option Instant

/-- What the stored evidence obliges every later review of a case to require. -/
structure Obligations where
  required_sources : List Identifier
  min_independence_groups : ℕ
  configured_policy_required : Bool
  deriving DecidableEq

structure PolicyGuard where
  case_id : Identifier
  floor : Obligations
  configured_sources : List Identifier

inductive FetchState
  | pending
  | observed
  | failed
  | stale
  deriving DecidableEq, Repr

def FetchState.text : FetchState → String
  | .pending => "PENDING"
  | .observed => "OBSERVED"
  | .failed => "FAILED"
  | .stale => "STALE"

structure SourceRequest where
  request_id : String
  case_id : Identifier
  case_version : ℕ
  source_id : Identifier
  source_spec_hash : Digest
  resource : String
  state : FetchState
  reserved_at : Instant
  actor_id : Identifier
  finished_at : Option Instant
  error : Option String
  receipt_id : Option Identifier

/-- Points to the latest reserved request for a source and to its outcome. -/
structure SourceHead where
  case_id : Identifier
  case_version : ℕ
  source_id : Identifier
  request_id : String
  state : FetchState
  receipt_id : Option Identifier

/-- The bounded envelope an adapter returns. -/
structure Observation where
  facts : Dict String Json
  payload_sha256 : Digest
  provenance : String
  external_calls : ℕ
  claim_boundary : String

structure SourceReceipt where
  receipt_id : Identifier
  case_id : Identifier
  case_version : ℕ
  source_id : Identifier
  source_spec_hash : Digest
  independence_group : Identifier
  resource : String
  fetched_at : Instant
  expires_at : Instant
  observed : Observation
  receipt_root : Digest

structure Signal where
  source_id : Identifier
  code : String
  conflict_id : Option Digest

structure SourceConflict where
  resource_digest : Digest
  field : String
  source_ids : List Identifier
  value_digests : List Digest

structure ReceiptSummary where
  receipt_id : Identifier
  source_id : Identifier
  receipt_root : Digest
  facts : Dict String Json
  expires_at : Instant
  provenance : String

structure Rejection where
  source_id : Identifier
  reason : String

/-- The evidence of a case as one review sees it. Bundles written by older
versions have no `source_obligations`. -/
structure EvidenceContext where
  case_id : Identifier
  case_version : ℕ
  review_signals : List Signal
  required_sources : List Identifier
  missing_sources : List Identifier
  declared_independence_groups : ℕ
  coverage_complete : Bool
  source_conflicts : List SourceConflict
  resolution_requires_sources : Bool
  source_obligations : Option Obligations
  policy_hash : Digest
  receipts : List ReceiptSummary
  rejected : List Rejection
  bundle_root : Digest

structure ReportBundle where
  report_id : Identifier
  case_id : Identifier
  report_root : Digest
  bundle : EvidenceContext

structure SourceQuery where
  source_id : Identifier
  resource : String

/-- Missions planned by older versions have no origin. -/
structure Mission where
  mission_id : String
  origin_session_id : Option Identifier
  origin_idempotency_key : Option Identifier
  case_id : Identifier
  case_version : ℕ
  created_seq : ℕ
  planned_queries : List SourceQuery
  reviewer_id : Option Identifier
  source_policy_hashes : Dict Identifier Digest
  operator_id : Identifier

inductive PlanState
  | operatorActionRequired
  | historyObserved
  | queryFailed
  deriving DecidableEq, Repr

def PlanState.text : PlanState → String
  | .operatorActionRequired => "OPERATOR_ACTION_REQUIRED"
  | .historyObserved => "HISTORY_OBSERVED"
  | .queryFailed => "QUERY_FAILED"

structure ReviewPlan where
  plan_id : Identifier
  case_id : Identifier
  case_version : ℕ
  report_id : Identifier
  basis_hash : Digest
  requirements : Json
  request_hash : Digest
  provider_address : String
  client_address : String
  chain_id : Chain
  offering_name : String
  max_budget_micros : ℕ
  partner_spec_hash : Digest
  expires_at : Instant
  state : PlanState
  bound_job_id : Option String
  observations : List Json

structure AnchorPlan where
  chain_id : Chain
  contract : String
  data : String
  proof_root : Digest
  memory_version : ℕ
  expected_attester : String
  deriving DecidableEq

/-- The answer of an anchor check; `details` are the fields no command reads. -/
structure Verification where
  state : String
  tx_hash : Option String
  details : List (String × Json)

structure AuditAnchor where
  anchor_id : Identifier
  task_id : Identifier
  decision_id : Identifier
  plan : AnchorPlan
  verification : Verification
  bound_tx_hash : Option String
  last_verified : Option Verification
  last_verification_attempt : Option Verification

structure IncidentReceipt where
  case_id : Identifier
  source_id : Identifier
  source_actor : Identifier
  received_at : Instant
  payload_sha256 : Digest
  delivery_id_hash : Digest

inductive Artifact
  | escalation (a : Escalation)
  | review (a : ReviewArtifact)
  | resolutionProof (a : ResolutionProof)
  | attempt (a : InvestigationAttempt)
  | policyGuard (a : PolicyGuard)
  | request (a : SourceRequest)
  | head (a : SourceHead)
  | receipt (a : SourceReceipt)
  | reportBundle (a : ReportBundle)
  | mission (a : Mission)
  | reviewPlan (a : ReviewPlan)
  | anchor (a : AuditAnchor)
  | incident (a : IncidentReceipt)

/-- `value.get("case_id")`. -/
def Artifact.case_id : Artifact → Option Identifier
  | .escalation _ => none
  | .review _ => none
  | .resolutionProof a => some a.case_id
  | .attempt a => some a.case_id
  | .policyGuard a => some a.case_id
  | .request a => some a.case_id
  | .head a => some a.case_id
  | .receipt a => some a.case_id
  | .reportBundle a => some a.case_id
  | .mission a => some a.case_id
  | .reviewPlan a => some a.case_id
  | .anchor _ => none
  | .incident a => some a.case_id

section JsonValues

/-- A field that is written only when it has a value. -/
def written (key : String) : Option Json → List (String × Json)
  | none => []
  | some v => [(key, v)]

def strField (key : String) (o : Option String) : List (String × Json) :=
  written key (o.map .str)

def Escalation.toJson (a : Escalation) : Json :=
  object [("artifact_id", .str a.artifact_id), ("kind", .str "OPERATOR_ESCALATION"),
    ("type", .str "NON_EXECUTABLE_OPERATOR_ESCALATION"), ("task_id", .str a.task_id),
    ("decision_id", .str a.decision_id), ("proof_root", .str a.proof_root),
    ("reason_codes", texts a.reason_codes), ("active_blockers", texts a.active_blockers),
    ("created_at", a.created_at.toJson), ("executable", .bool false)]

def ReviewArtifact.toJson (a : ReviewArtifact) : Json :=
  object [("artifact_id", .str a.artifact_id), ("task_id", .str a.task_id),
    ("decision_id", .str a.decision_id), ("proof_root", .str a.proof_root),
    ("type", .str "NON_EXECUTABLE_HUMAN_REVIEW"), ("executable", .bool false)]

def ResolutionProof.toJson (a : ResolutionProof) : Json :=
  object [("kind", .str "CASE_RESOLUTION_PROOF"), ("case_id", .str a.case_id),
    ("case_version", nat a.case_version), ("report_id", .str a.report_id),
    ("report_root", .str a.report_root), ("handoff_id", .str a.handoff_id),
    ("evidence_digest", .str a.evidence_digest), ("reviewer_id", .str a.reviewer_id),
    ("event_seq", nat a.event_seq), ("executable", .bool false)]

def AttemptState.text : AttemptState → String
  | .pending => "PENDING"
  | .completed => "COMPLETED"

def InvestigationAttempt.toJson (a : InvestigationAttempt) : Json :=
  object ([("kind", .str "INVESTIGATION_ATTEMPT"), ("case_id", .str a.case_id),
    ("attempt_id", .str a.attempt_id), ("basis_hash", .str a.basis_hash),
    ("operator_id", .str a.operator_id), ("request_hash", .str a.request_hash),
    ("state", .str a.state.text), ("requested_at", a.requested_at.toJson),
    ("executable", .bool false)] ++ strField "report_id" a.report_id ++
    written "completed_at" (a.completed_at.map Instant.toJson))

def Obligations.fields (o : Obligations) : List (String × Json) :=
  [("required_sources", texts o.required_sources),
    ("min_independence_groups", nat o.min_independence_groups),
    ("configured_policy_required", .bool o.configured_policy_required)]

def PolicyGuard.toJson (a : PolicyGuard) : Json :=
  object ([("kind", .str "SOURCE_POLICY_GUARD"), ("case_id", .str a.case_id)] ++ a.floor.fields ++
    [("configured_sources", texts a.configured_sources), ("authority", .bool false),
      ("executable", .bool false)])

def SourceRequest.toJson (a : SourceRequest) : Json :=
  object ([("kind", .str "SOURCE_REQUEST"), ("request_id", .str a.request_id),
    ("case_id", .str a.case_id), ("case_version", nat a.case_version),
    ("source_id", .str a.source_id), ("source_spec_hash", .str a.source_spec_hash),
    ("resource", .str a.resource), ("state", .str a.state.text),
    ("reserved_at", a.reserved_at.toJson), ("actor_id", .str a.actor_id)] ++
    (match a.finished_at with
      | none => []
      | some t => [("finished_at", t.toJson), ("error", optional .str a.error)]) ++
    strField "receipt_id" a.receipt_id)

/-- Every field but `kind`. -/
def SourceHead.fields (a : SourceHead) : List (String × Json) :=
  [("case_id", .str a.case_id), ("case_version", nat a.case_version),
    ("source_id", .str a.source_id), ("request_id", .str a.request_id),
    ("state", .str a.state.text)] ++ strField "receipt_id" a.receipt_id

def SourceHead.toJson (a : SourceHead) : Json :=
  object (("kind", .str "SOURCE_HEAD") :: a.fields)

def factsJson (facts : Dict String Json) : Json := object facts.entries

def Observation.fields (o : Observation) : List (String × Json) :=
  [("facts", factsJson o.facts), ("payload_sha256", .str o.payload_sha256),
    ("provenance", .str o.provenance), ("external_calls", nat o.external_calls),
    ("claim_boundary", .str o.claim_boundary)]

/-- Every field but the receipt root, which is their digest. -/
def SourceReceipt.body (a : SourceReceipt) : List (String × Json) :=
  [("kind", .str "SOURCE_RECEIPT"), ("receipt_id", .str a.receipt_id),
    ("case_id", .str a.case_id), ("case_version", nat a.case_version),
    ("source_id", .str a.source_id), ("source_spec_hash", .str a.source_spec_hash),
    ("independence_group", .str a.independence_group), ("resource", .str a.resource),
    ("fetched_at", a.fetched_at.toJson), ("expires_at", a.expires_at.toJson)] ++
    a.observed.fields ++ [("authoritative", .bool false), ("executable", .bool false)]

def SourceReceipt.toJson (a : SourceReceipt) : Json :=
  object (a.body ++ [("receipt_root", .str a.receipt_root)])

def Signal.toJson (s : Signal) : Json :=
  object ([("source_id", .str s.source_id), ("code", .str s.code)] ++
    strField "conflict_id" s.conflict_id)

def SourceConflict.toJson (c : SourceConflict) : Json :=
  object [("resource_digest", .str c.resource_digest), ("field", .str c.field),
    ("source_ids", texts c.source_ids), ("value_digests", texts c.value_digests),
    ("reason", .str "SOURCE_CONFLICT")]

def ReceiptSummary.toJson (r : ReceiptSummary) : Json :=
  object [("receipt_id", .str r.receipt_id), ("source_id", .str r.source_id),
    ("receipt_root", .str r.receipt_root), ("facts", factsJson r.facts),
    ("expires_at", r.expires_at.toJson), ("provenance", .str r.provenance)]

def Rejection.toJson (r : Rejection) : Json :=
  object [("source_id", .str r.source_id), ("reason", .str r.reason)]

def Obligations.toJson (o : Obligations) : Json := object o.fields

/-- Every field but the bundle root, which is their digest. -/
def EvidenceContext.body (c : EvidenceContext) : List (String × Json) :=
  [("case_id", .str c.case_id), ("case_version", nat c.case_version),
    ("review_signals", .arr (c.review_signals.map Signal.toJson)),
    ("required_sources", texts c.required_sources), ("missing_sources", texts c.missing_sources),
    ("declared_independence_groups", nat c.declared_independence_groups),
    ("coverage_complete", .bool c.coverage_complete),
    ("source_conflicts", .arr (c.source_conflicts.map SourceConflict.toJson)),
    ("resolution_requires_sources", .bool c.resolution_requires_sources),
    ("policy_hash", .str c.policy_hash), ("receipts", .arr (c.receipts.map ReceiptSummary.toJson)),
    ("rejected", .arr (c.rejected.map Rejection.toJson)), ("authority", .bool false),
    ("scope", .str ("Configured groups are declarations, not proof of independent people or " ++
      "fact truth"))] ++
    written "source_obligations" (c.source_obligations.map Obligations.toJson)

def EvidenceContext.toJson (c : EvidenceContext) : Json :=
  object (("bundle_root", .str c.bundle_root) :: c.body)

def ReportBundle.toJson (a : ReportBundle) : Json :=
  object [("kind", .str "REPORT_EVIDENCE_BUNDLE"), ("report_id", .str a.report_id),
    ("case_id", .str a.case_id), ("report_root", .str a.report_root),
    ("bundle", a.bundle.toJson), ("authoritative", .bool false)]

def SourceQuery.toJson (q : SourceQuery) : Json :=
  object [("source_id", .str q.source_id), ("resource", .str q.resource)]

def Mission.toJson (a : Mission) : Json :=
  object ([("kind", .str "EVIDENCE_MISSION"), ("mission_id", .str a.mission_id),
    ("case_id", .str a.case_id), ("case_version", nat a.case_version),
    ("created_seq", nat a.created_seq),
    ("planned_queries", .arr (a.planned_queries.map SourceQuery.toJson)),
    ("reviewer_id", optional .str a.reviewer_id),
    ("source_policy_hashes", object (a.source_policy_hashes.map (fun _ h => .str h)).entries),
    ("operator_id", .str a.operator_id), ("executable", .bool false),
    ("resolution_performed", .bool false)] ++
    strField "origin_session_id" a.origin_session_id ++
    strField "origin_idempotency_key" a.origin_idempotency_key)

def ReviewPlan.toJson (a : ReviewPlan) : Json :=
  object ([("kind", .str "ACP_REVIEW_PLAN"), ("plan_id", .str a.plan_id),
    ("case_id", .str a.case_id), ("case_version", nat a.case_version),
    ("report_id", .str a.report_id), ("basis_hash", .str a.basis_hash),
    ("requirements", a.requirements), ("request_hash", .str a.request_hash),
    ("provider_address", .str a.provider_address), ("client_address", .str a.client_address),
    ("chain_id", nat a.chain_id.id), ("offering_name", .str a.offering_name),
    ("max_budget_micros", nat a.max_budget_micros), ("budget_enforced_by_server", .bool false),
    ("partner_spec_hash", .str a.partner_spec_hash), ("expires_at", a.expires_at.toJson),
    ("state", .str a.state.text), ("bound_job_id", optional .str a.bound_job_id),
    ("authority", .bool false), ("executable", .bool false), ("partner_bonus_claimed", .bool false)] ++
    written "observations" (if a.observations = [] then none else some (.arr a.observations)))

def AnchorPlan.toJson (p : AnchorPlan) : Json :=
  object [("chain_id", nat p.chain_id.id), ("to", .str p.contract), ("value", .str "0x0"),
    ("data", .str p.data), ("proof_root", .str p.proof_root),
    ("memory_version", nat p.memory_version), ("expected_attester", .str p.expected_attester),
    ("audit_only", .bool true), ("human_wallet_confirmation_required", .bool true)]

def Verification.toJson (v : Verification) : Json :=
  object (("state", .str v.state) :: (strField "tx_hash" v.tx_hash ++ v.details))

def AuditAnchor.toJson (a : AuditAnchor) : Json :=
  object ([("anchor_id", .str a.anchor_id), ("kind", .str "AUDIT_ANCHOR"),
    ("task_id", .str a.task_id), ("decision_id", .str a.decision_id), ("plan", a.plan.toJson),
    ("verification", a.verification.toJson)] ++ strField "bound_tx_hash" a.bound_tx_hash ++
    written "last_verified" (a.last_verified.map Verification.toJson) ++
    written "last_verification_attempt" (a.last_verification_attempt.map Verification.toJson))

def IncidentReceipt.toJson (a : IncidentReceipt) : Json :=
  object [("kind", .str "INCIDENT_RECEIPT"), ("case_id", .str a.case_id),
    ("source_id", .str a.source_id), ("source_actor", .str a.source_actor),
    ("received_at", a.received_at.toJson), ("payload_sha256", .str a.payload_sha256),
    ("delivery_id_hash", .str a.delivery_id_hash), ("authentication", .str "HMAC_VERIFIED"),
    ("truth_verified", .bool false), ("executable", .bool false)]

def Artifact.toJson : Artifact → Json
  | .escalation a => a.toJson
  | .review a => a.toJson
  | .resolutionProof a => a.toJson
  | .attempt a => a.toJson
  | .policyGuard a => a.toJson
  | .request a => a.toJson
  | .head a => a.toJson
  | .receipt a => a.toJson
  | .reportBundle a => a.toJson
  | .mission a => a.toJson
  | .reviewPlan a => a.toJson
  | .anchor a => a.toJson
  | .incident a => a.toJson

end JsonValues

end MemoryGuard.Artifacts
