import MemoryGuard.Artifacts

/-!
The aggregate that is stored for a tenant: every map of records, the audit
chain and the answers already given. The results of the commands are part of
it, because an answer is kept and returned to an exact retry.
-/
namespace MemoryGuard.Aggregate

open OrderedDict JsonText ContentHash Models Artifacts

/-- What a committed command returns, one constructor for each command. -/
inductive Result
  | initialized
  | baselineSet (baseline_key : Digest) (version : ℕ) (affected_tasks : List Identifier)
  | taskRegistered (task : Task) (decision : Decision)
  | taskDecided (decision : Decision) (supersedes : Option Identifier)
      (taints_remaining : List String)
  | caseOpened (case : RiskCase) (affected_tasks : List Identifier)
  | caseReopened (case : RiskCase) (affected_tasks : List Identifier)
  | noteQuarantined (text_hash : Digest)
  | attemptReserved (attempt_id : String)
  | investigated (report : Report) (next_step : String)
  | handedOff (handoff : Handoff)
  | handoffAccepted (handoff : Handoff)
  | caseResolved (case : RiskCase) (affected_tasks : List Identifier) (lesson_id : Identifier)
  | reviewPrepared (artifact : ReviewArtifact)
  | anchorPrepared (anchor : AuditAnchor)
  | anchorVerified (anchor : AuditAnchor) (historical_proof : Bool)
  | sourceReserved (request_id : String)
  | sourceCached (request_id : String) (receipt : SourceReceipt)
  | sourceFinished (request_id : String) (state : FetchState) (error : Option String)
      (receipt : Option SourceReceipt) (external_calls : Option ℕ)
  | missionPlanned (mission : Mission)
  | missionResumed (mission_id : String) (session_changed : Bool)
  | incidentIngested (case_id : Identifier) (affected_tasks : List Identifier)
      (receipt : IncidentReceipt)
  | planPrepared (plan : ReviewPlan) (already_prepared : Bool)
  | planVerified (verification : Json) (current : Bool) (invalid_reasons : List String)
      (case_status : CaseStatus)

def Result.fields : Result → List (String × Json)
  | .initialized => [("state", .str "INITIALIZED")]
  | .baselineSet key version affected =>
    [("baseline_key", .str key), ("version", nat version), ("affected_tasks", texts affected),
      ("source", .str "configured_operator_attestation")]
  | .taskRegistered task decision => [("task", task.toJson), ("decision", decision.toJson)]
  | .taskDecided decision supersedes remaining =>
    [("decision", decision.toJson), ("supersedes", optional .str supersedes),
      ("taints_remaining", texts remaining)]
  | .caseOpened case affected =>
    [("case", case.toJson), ("affected_tasks", texts affected),
      ("authority", .str "configured_operator_attestation")]
  | .caseReopened case affected => [("case", case.toJson), ("affected_tasks", texts affected)]
  | .noteQuarantined textHash =>
    [("status", .str "QUARANTINED"), ("text_hash", .str textHash), ("authority", .bool false),
      ("model_received_raw_text", .bool false)]
  | .attemptReserved attemptId => [("attempt_id", .str attemptId), ("state", .str "PENDING")]
  | .investigated report nextStep => [("report", report.toJson), ("next_step", .str nextStep)]
  | .handedOff handoff => [("handoff", handoff.toJson)]
  | .handoffAccepted handoff => [("handoff", handoff.toJson)]
  | .caseResolved case affected lessonId =>
    [("case", case.toJson), ("affected_tasks", texts affected), ("lesson_id", .str lessonId),
      ("requires_explicit_reconsideration", .bool true)]
  | .reviewPrepared artifact => [("artifact", artifact.toJson)]
  | .anchorPrepared anchor =>
    [("anchor", anchor.toJson), ("audit_only", .bool true), ("payment_authorized", .bool false)]
  | .anchorVerified anchor historical =>
    [("anchor", anchor.toJson), ("historical_proof", .bool historical), ("audit_only", .bool true),
      ("payment_authorized", .bool false)]
  | .sourceReserved requestId =>
    [("request_id", .str requestId), ("state", .str "PENDING"), ("external_calls", nat 0)]
  | .sourceCached requestId receipt =>
    [("request_id", .str requestId), ("state", .str "CACHE_HIT"), ("receipt", receipt.toJson),
      ("external_calls", nat 0), ("memory_saved_fetch", .bool true)]
  | .sourceFinished requestId state error receipt calls =>
    [("request_id", .str requestId), ("state", .str state.text), ("error", optional .str error),
      ("receipt", optional SourceReceipt.toJson receipt), ("external_calls", optional nat calls),
      ("no_external_retry", .bool true)]
  | .missionPlanned mission => [("mission", mission.toJson)]
  | .missionResumed missionId changed =>
    [("mission_id", .str missionId), ("resume_signal_recorded", .bool true),
      ("session_changed", .bool changed), ("no_restart_claim", .bool true)]
  | .incidentIngested caseId affected receipt =>
    [("case_id", .str caseId), ("affected_tasks", texts affected), ("receipt", receipt.toJson)]
  | .planPrepared plan true => [("plan", plan.toJson), ("already_prepared", .bool true)]
  | .planPrepared plan false =>
    [("plan", plan.toJson),
      ("note", .str "Creating/funding/completing remains an explicit external operator action")]
  | .planVerified verification current reasons status =>
    [("verification", verification), ("current", .bool current), ("invalid_reasons", texts reasons),
      ("partner_bonus_claimed", .bool false), ("case_status_unchanged", .str status.text),
      ("resolution_performed", .bool false)]

def Result.toJson (r : Result) : Json := object r.fields

/-- The tasks a result lists as affected by the command. -/
def Result.affected_tasks : Result → List Identifier
  | .baselineSet _ _ affected => affected
  | .caseOpened _ affected => affected
  | .caseReopened _ affected => affected
  | .caseResolved _ affected _ => affected
  | .incidentIngested _ affected _ => affected
  | _ => []

structure Event where
  seq : ℕ
  occurred_at : Instant
  actor_id : Identifier
  role : Role
  command : String
  request_hash : Digest
  result_hash : Digest
  previous_hash : Digest
  event_hash : Digest

/-- Every field but the event hash, which is their digest. -/
def Event.body (e : Event) : List (String × Json) :=
  [("seq", nat e.seq), ("at", e.occurred_at.toJson), ("actor_id", .str e.actor_id),
    ("role", .str e.role.text), ("command", .str e.command),
    ("request_hash", .str e.request_hash), ("result_hash", .str e.result_hash),
    ("previous_hash", .str e.previous_hash)]

def Event.toJson (e : Event) : Json := object (e.body ++ [("event_hash", .str e.event_hash)])

/-- `replayed` and `historical_only` are set on an answer that was stored by an
earlier commit. -/
structure Response where
  result : Result
  revision : ℕ
  event_hash : Digest
  replayed : Bool
  historical_only : Bool

def Response.toJson (r : Response) : Json :=
  object (r.result.fields ++ [("revision", nat r.revision), ("event_hash", .str r.event_hash),
    ("executable", .bool false), ("replayed", .bool r.replayed)] ++
    (if r.historical_only then [("historical_only", .bool true)] else []))

structure IdempotencyEntry where
  request_hash : Digest
  response : Response

def IdempotencyEntry.toJson (e : IdempotencyEntry) : Json :=
  object [("request_hash", .str e.request_hash), ("response", e.response.toJson)]

structure Workspace where
  tenant_id : Identifier
  revision : ℕ
  baselines : Dict Digest Baseline
  cases : Dict Identifier RiskCase
  case_history : Dict Identifier (List RiskCase)
  baseline_history : Dict Digest (List Baseline)
  tasks : Dict Identifier Task
  decisions : Dict Identifier Decision
  reports : Dict Identifier Report
  handoffs : Dict Identifier Handoff
  lessons : Dict Identifier Lesson
  artifacts : Dict String Artifact
  audit : List Event
  idempotency : Dict Digest IdempotencyEntry
  state_root : Digest

/-- `Workspace(tenant_id=...)`. -/
def Workspace.blank (tenant_id : Identifier) : Workspace where
  tenant_id := tenant_id
  revision := 0
  baselines := .empty
  cases := .empty
  case_history := .empty
  baseline_history := .empty
  tasks := .empty
  decisions := .empty
  reports := .empty
  handoffs := .empty
  lessons := .empty
  artifacts := .empty
  audit := []
  idempotency := .empty
  state_root := ""

def dictJson {α : Type*} (f : α → Json) (d : Dict String α) : Json :=
  object (d.map (fun _ v => f v)).entries

/-- `state.model_dump(mode="json", exclude="state_root")`. -/
def statePayload (w : Workspace) : Json :=
  object [("schema_version", .str "memoryguard-casework/2"), ("tenant_id", .str w.tenant_id),
    ("revision", nat w.revision), ("baselines", dictJson Baseline.toJson w.baselines),
    ("cases", dictJson RiskCase.toJson w.cases),
    ("case_history", dictJson (fun h => .arr (h.map RiskCase.toJson)) w.case_history),
    ("baseline_history", dictJson (fun h => .arr (h.map Baseline.toJson)) w.baseline_history),
    ("tasks", dictJson Task.toJson w.tasks), ("decisions", dictJson Decision.toJson w.decisions),
    ("reports", dictJson Report.toJson w.reports),
    ("handoffs", dictJson Handoff.toJson w.handoffs),
    ("lessons", dictJson Lesson.toJson w.lessons),
    ("artifacts", dictJson Artifact.toJson w.artifacts),
    ("audit", .arr (w.audit.map Event.toJson)),
    ("idempotency", dictJson IdempotencyEntry.toJson w.idempotency)]

end MemoryGuard.Aggregate
