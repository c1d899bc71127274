import MemoryGuard.ContentHash

/-!
The stored records of a casework workspace and the JSON values by which they
are digested. Field names are those of the models they describe. Closed sets
of texts are enumerations, and an instant is a number of microseconds.
-/
namespace MemoryGuard.Models

open OrderedDict JsonText ContentHash

abbrev Identifier := String

abbrev Instant := ℤ

def seconds (n : ℕ) : Instant := n * 1000000

def minutes (n : ℕ) : Instant := seconds (60 * n)

def Instant.toJson (t : Instant) : Json := int t

/-- An amount in cents, within the bounds every request is checked against. -/
structure Minor where
  value : ℕ
  positive : 0 < value
  bounded : value ≤ 100000000
  deriving DecidableEq

inductive Verdict
  | ready
  | deny
  | needsHuman
  deriving DecidableEq, Repr

def Verdict.text : Verdict → String
  | .ready => "READY"
  | .deny => "DENY"
  | .needsHuman => "NEEDS_HUMAN"

inductive TaskStatus
  | ready
  | deny
  | needsHuman
  | suspended
  deriving DecidableEq, Repr

def TaskStatus.text : TaskStatus → String
  | .ready => "READY"
  | .deny => "DENY"
  | .needsHuman => "NEEDS_HUMAN"
  | .suspended => "SUSPENDED"

/-- `task.status = verdict`. -/
def Verdict.status : Verdict → TaskStatus
  | .ready => .ready
  | .deny => .deny
  | .needsHuman => .needsHuman

inductive Role
  | owner
  | investigator
  | reviewer
  | viewer
  deriving DecidableEq, Repr

def Role.text : Role → String
  | .owner => "owner"
  | .investigator => "investigator"
  | .reviewer => "reviewer"
  | .viewer => "viewer"

inductive Chain
  | base
  | baseSepolia
  deriving DecidableEq, Repr

def Chain.id : Chain → ℕ
  | .base => 8453
  | .baseSepolia => 84532

inductive RiskKind
  | dispute
  | revocation
  deriving DecidableEq, Repr

def RiskKind.text : RiskKind → String
  | .dispute => "dispute"
  | .revocation => "revocation"

inductive CaseStatus
  | opened
  | resolved
  deriving DecidableEq, Repr

def CaseStatus.text : CaseStatus → String
  | .opened => "OPEN"
  | .resolved => "RESOLVED"

inductive Resolution
  | resolved
  | falsePositiveVerified
  | remediationVerified
  deriving DecidableEq, Repr

def Resolution.text : Resolution → String
  | .resolved => "resolved"
  | .falsePositiveVerified => "false_positive_verified"
  | .remediationVerified => "remediation_verified"

/-- Constructed from the server's credential registry, never from a request. -/
structure Actor where
  actor_id : Identifier
  tenant_id : Identifier
  role : Role
  subjects : List Identifier

structure Scope where
  subject_id : Identifier
  chain_id : Chain
  target : String
  method : String
  deriving DecidableEq

def Scope.toJson (s : Scope) : Json :=
  object [("subject_id", .str s.subject_id), ("chain_id", nat s.chain_id.id),
    ("target", .str s.target), ("method", .str s.method)]

/-- Amounts are cents of US dollars; there is no other currency. -/
structure Intent where
  scope : Scope
  amount_minor : Minor
  deriving DecidableEq

def Intent.fields (i : Intent) : List (String × Json) :=
  [("scope", i.scope.toJson), ("amount_minor", nat i.amount_minor.value), ("currency", .str "USD")]

def Intent.toJson (i : Intent) : Json := object i.fields

structure Baseline where
  scope : Scope
  version : ℕ
  limit_minor : Minor
  expires_at : Instant
  actor_id : Identifier
  event_seq : ℕ
  deriving DecidableEq

def Baseline.toJson (b : Baseline) : Json :=
  object [("scope", b.scope.toJson), ("version", nat b.version),
    ("limit_minor", nat b.limit_minor.value), ("expires_at", b.expires_at.toJson),
    ("actor_id", .str b.actor_id), ("event_seq", nat b.event_seq)]

structure RiskCase where
  case_id : Identifier
  scope : Scope
  kind : RiskKind
  version : ℕ
  status : CaseStatus
  opened_by : Identifier
  opened_seq : ℕ
  evidence_digest : Digest
  resolution : Option Resolution
  resolved_by : Option Identifier
  resolved_seq : Option ℕ
  deriving DecidableEq

def RiskCase.toJson (c : RiskCase) : Json :=
  object [("case_id", .str c.case_id), ("scope", c.scope.toJson), ("kind", .str c.kind.text),
    ("version", nat c.version), ("status", .str c.status.text), ("opened_by", .str c.opened_by),
    ("opened_seq", nat c.opened_seq), ("evidence_digest", .str c.evidence_digest),
    ("resolution", optional (fun r => .str r.text) c.resolution),
    ("resolved_by", optional .str c.resolved_by), ("resolved_seq", optional nat c.resolved_seq)]

structure Task where
  task_id : Identifier
  intent : Intent
  depends_on : List Identifier
  taints : Dict String String
  status : TaskStatus
  current_decision_id : Option Identifier

def Task.toJson (t : Task) : Json :=
  object [("task_id", .str t.task_id), ("intent", t.intent.toJson),
    ("depends_on", texts t.depends_on),
    ("taints", object (t.taints.map (fun _ reason => .str reason)).entries),
    ("status", .str t.status.text), ("current_decision_id", optional .str t.current_decision_id)]

/-- `executable` is the constant false. -/
structure Decision where
  decision_id : Identifier
  task_id : Identifier
  verdict : Verdict
  reason_codes : List String
  causal_refs : List String
  active_blockers : List Identifier
  action_fingerprint : Digest
  basis_hash : Digest
  memory_revision : ℕ
  session_id : Identifier
  runtime_id : Identifier
  process_id : ℕ
  build_commit : String
  created_at : Instant
  expires_at : Instant
  tool : String
  proof_root : Digest

/-- Every field but the proof root, which is their digest. -/
def Decision.body (d : Decision) : List (String × Json) :=
  [("decision_id", .str d.decision_id), ("task_id", .str d.task_id),
    ("verdict", .str d.verdict.text), ("reason_codes", texts d.reason_codes),
    ("causal_refs", texts d.causal_refs), ("active_blockers", texts d.active_blockers),
    ("action_fingerprint", .str d.action_fingerprint), ("basis_hash", .str d.basis_hash),
    ("memory_revision", nat d.memory_revision), ("session_id", .str d.session_id),
    ("runtime_id", .str d.runtime_id), ("process_id", nat d.process_id),
    ("build_commit", .str d.build_commit), ("created_at", d.created_at.toJson),
    ("expires_at", d.expires_at.toJson), ("tool", .str d.tool), ("executable", .bool false)]

def Decision.toJson (d : Decision) : Json := object (d.body ++ [("proof_root", .str d.proof_root)])

/-- One step of an investigation: a registered tool that ran, or a request for
an unregistered one that was suppressed. -/
inductive TraceEvent
  | succeeded (tool : String) (input_hash output_hash : Digest) (result_count : ℕ)
  | suppressed (request_hash : Digest)

def TraceEvent.tool : TraceEvent → String
  | .succeeded tool _ _ _ => tool
  | .suppressed _ => "unregistered"

def TraceEvent.output_hash : TraceEvent → Option Digest
  | .succeeded _ _ output _ => some output
  | .suppressed _ => none

def TraceEvent.toJson : TraceEvent → Json
  | .succeeded tool input output count =>
    object [("tool", .str tool), ("phase", .str "SUCCEEDED"), ("input_hash", .str input),
      ("output_hash", .str output), ("result_count", nat count)]
  | .suppressed request =>
    object [("tool", .str "unregistered"), ("phase", .str "SUPPRESSED"),
      ("request_hash", .str request)]

inductive PlannerStatus
  | deterministic
  | remote
  | degraded
  deriving DecidableEq, Repr

def PlannerStatus.text : PlannerStatus → String
  | .deterministic => "DETERMINISTIC"
  | .remote => "REMOTE"
  | .degraded => "DEGRADED"

/-- `raw_text_received_by_model` and `authoritative` are the constant false. -/
structure Report where
  report_id : Identifier
  case_id : Identifier
  case_version : ℕ
  investigator_id : Identifier
  basis_hash : Digest
  case_refs : List Identifier
  affected_tasks : List Identifier
  precedent_ids : List Identifier
  trace : List TraceEvent
  model_receipt : Option Json
  planner_status : PlannerStatus
  report_root : Digest

/-- Every field but the report root, which is their digest. -/
def Report.body (r : Report) : List (String × Json) :=
  [("report_id", .str r.report_id), ("case_id", .str r.case_id),
    ("case_version", nat r.case_version), ("investigator_id", .str r.investigator_id),
    ("basis_hash", .str r.basis_hash), ("case_refs", texts r.case_refs),
    ("affected_tasks", texts r.affected_tasks), ("precedent_ids", texts r.precedent_ids),
    ("trace", .arr (r.trace.map TraceEvent.toJson)),
    ("model_receipt", optional id r.model_receipt), ("planner_status", .str r.planner_status.text),
    ("raw_text_received_by_model", .bool false), ("authoritative", .bool false)]

def Report.toJson (r : Report) : Json := object (r.body ++ [("report_root", .str r.report_root)])

structure Handoff where
  handoff_id : Identifier
  report_id : Identifier
  case_id : Identifier
  case_version : ℕ
  reviewer_id : Identifier
  investigator_id : Identifier
  accepted : Bool

def Handoff.toJson (h : Handoff) : Json :=
  object [("handoff_id", .str h.handoff_id), ("report_id", .str h.report_id),
    ("case_id", .str h.case_id), ("case_version", nat h.case_version),
    ("reviewer_id", .str h.reviewer_id), ("investigator_id", .str h.investigator_id),
    ("accepted", .bool h.accepted)]

/-- Lessons written before versions were bound have no `case_version`. -/
structure Lesson where
  scope_key : Digest
  kind : RiskKind
  case_id : Identifier
  case_version : Option ℕ
  resolved_seq : Option ℕ
  report_id : Identifier
  resolution : Resolution
  reviewer_id : Identifier
  evidence_digest : Digest

def Lesson.toJson (l : Lesson) : Json :=
  object [("scope_key", .str l.scope_key), ("kind", .str l.kind.text), ("case_id", .str l.case_id),
    ("case_version", optional nat l.case_version), ("resolved_seq", optional nat l.resolved_seq),
    ("report_id", .str l.report_id), ("resolution", .str l.resolution.text),
    ("reviewer_id", .str l.reviewer_id), ("evidence_digest", .str l.evidence_digest),
    ("authority", .bool false)]

section Injectivity

/-- The JSON value of a record determines the record. -/
theorem Scope.toJson_injective : Function.Injective Scope.toJson := by
  intro s t h
  unfold Scope.toJson at h
  have hfields := object_inj h rfl
  have hchain : ∀ c c' : Chain, c.id = c'.id → c = c' := by
    intro c c' hc
    cases c <;> cases c' <;> simp_all [Chain.id]
  cases s
  cases t
  simp only [List.cons.injEq, Prod.mk.injEq, Json.str.injEq, nat_inj, true_and, and_true]
    at hfields
  obtain ⟨rfl, hc, rfl, rfl⟩ := hfields
  rw [hchain _ _ hc]

theorem Minor.ext_value {a b : Minor} (h : a.value = b.value) : a = b := by
  cases a
  cases b
  simp_all

theorem Intent.toJson_injective : Function.Injective Intent.toJson := by
  intro i j h
  unfold Intent.toJson at h
  have hfields := object_inj h rfl
  cases i
  cases j
  simp only [fields, List.cons.injEq, Prod.mk.injEq, nat_inj, true_and, and_true] at hfields
  obtain ⟨hscope, hamount⟩ := hfields
  rw [Scope.toJson_injective hscope, Minor.ext_value hamount]

theorem Baseline.toJson_injective : Function.Injective Baseline.toJson := by
  intro b c h
  unfold Baseline.toJson at h
  have hfields := object_inj h rfl
  cases b
  cases c
  simp only [List.cons.injEq, Prod.mk.injEq, Json.str.injEq, nat_inj, Instant.toJson, int_inj,
    true_and, and_true] at hfields
  obtain ⟨hscope, rfl, hlimit, rfl, rfl, rfl⟩ := hfields
  rw [Scope.toJson_injective hscope, Minor.ext_value hlimit]

theorem RiskKind.text_injective : Function.Injective RiskKind.text := by
  intro k l h
  cases k <;> cases l <;> simp_all [RiskKind.text]

theorem CaseStatus.text_injective : Function.Injective CaseStatus.text := by
  intro k l h
  cases k <;> cases l <;> simp_all [CaseStatus.text]

theorem TaskStatus.text_injective : Function.Injective TaskStatus.text := by
  intro k l h
  cases k <;> cases l <;> simp_all [TaskStatus.text]

theorem Resolution.text_injective : Function.Injective Resolution.text := by
  intro k l h
  cases k <;> cases l <;> simp_all [Resolution.text]

theorem RiskCase.toJson_injective : Function.Injective RiskCase.toJson := by
  intro c d h
  unfold RiskCase.toJson at h
  have hfields := object_inj h rfl
  have hresolution : Function.Injective (fun r : Resolution => Json.str r.text) :=
    fun r s hrs => Resolution.text_injective (Json.str.inj hrs)
  cases c
  cases d
  simp only [List.cons.injEq, Prod.mk.injEq, Json.str.injEq, nat_inj, optional_str_inj,
    optional_nat_inj, optional_inj hresolution (by simp), true_and, and_true] at hfields
  obtain ⟨rfl, hscope, hkind, rfl, hstatus, rfl, rfl, rfl, rfl, rfl, rfl⟩ := hfields
  rw [Scope.toJson_injective hscope, RiskKind.text_injective hkind,
    CaseStatus.text_injective hstatus]

end Injectivity

end MemoryGuard.Models
