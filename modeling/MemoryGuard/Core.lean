import MemoryGuard.Aggregate
import MemoryGuard.DependencyGraph

/-!
The functions every gate is made of: the dependency closure of a task, the
tasks a scope reaches, the digest of everything a decision rests on, and the
policy that turns stored memory and a clock value into a verdict. They read
the workspace and never change it.
-/
namespace MemoryGuard.Core

open OrderedDict Guarded DependencyGraph JsonText ContentHash Models Artifacts Aggregate

structure CaseworkError where
  code : String
  status : ℕ
  deriving DecidableEq, Repr

def conflict (code : String) : CaseworkError := ⟨code, 409⟩

/-- Any other exception inside a store transaction leaves it as this error. -/
def backendUnavailable : CaseworkError := ⟨"MEMORY_BACKEND_UNAVAILABLE", 503⟩

/-- `d[k]`. -/
def item {α : Type} (d : Dict String α) (k : String) : Except CaseworkError α :=
  fetch (d.get? k) backendUnavailable

variable [Sha256]

def scopeKey (scope : Scope) : Digest := digest "scope" scope.toJson

omit [Sha256] in
def authorize (actor : Actor) (roles : List Role) (subject : Option Identifier) :
    Except CaseworkError Unit :=
  ensure (actor.role ∈ roles ∧ ∀ s ∈ subject, s ∈ actor.subjects) ⟨"FORBIDDEN", 403⟩

def stateRoot (state : Workspace) : Digest := digest "workspace" (statePayload state)

/-- `seal(state)`. -/
def sealed (state : Workspace) : Workspace := { state with state_root := stateRoot state }

section Validation

omit [Sha256] in
/-- The previous hash of the first event. -/
def genesis : Digest := String.ofList (List.replicate 64 '0')

/-- Events are numbered from `seq` on and each is bound to the one before. -/
def Chained : ℕ → Digest → List Event → Prop
  | _, _, [] => True
  | seq, previous, event :: rest =>
    event.seq = seq ∧ event.previous_hash = previous ∧
      event.event_hash = digest "event" (object event.body) ∧
      Chained (seq + 1) event.event_hash rest

instance decidableChained : ∀ (seq : ℕ) (previous : Digest) (events : List Event),
    Decidable (Chained seq previous events)
  | _, _, [] => instDecidableTrue
  | seq, _, event :: rest =>
    have := decidableChained (seq + 1) event.event_hash rest
    inferInstanceAs (Decidable (_ ∧ _ ∧ _ ∧ _))

omit [Sha256] in
/-- Every current record ends its history, whose versions are 1, 2, 3, ... -/
def Recorded {α : Type} (version : α → ℕ) (current : Dict String α)
    (history : Dict String (List α)) : Prop :=
  ∀ e ∈ current.entries, ((history.get? e.1).getD []).getLast? = some e.2 ∧
    ((history.get? e.1).getD []).map version = List.range' 1 (version e.2)

instance {α : Type} [DecidableEq α] (version : α → ℕ) (current : Dict String α)
    (history : Dict String (List α)) : Decidable (Recorded version current history) := by
  unfold Recorded
  infer_instance

def validateWorkspace (state : Workspace) : Except CaseworkError Unit := do
  ensure (state.state_root = stateRoot state) ⟨"MEMORY_INTEGRITY_FAILED", 503⟩
  ensure (Chained 1 genesis state.audit) ⟨"AUDIT_INTEGRITY_FAILED", 503⟩
  ensure (state.audit.length = state.revision) ⟨"MEMORY_REVISION_INVALID", 503⟩
  ensure (Recorded RiskCase.version state.cases state.case_history)
    ⟨"CASE_HISTORY_INTEGRITY_FAILED", 503⟩
  ensure (Recorded Baseline.version state.baselines state.baseline_history)
    ⟨"BASELINE_HISTORY_INTEGRITY_FAILED", 503⟩
  ensure (∀ e ∈ state.decisions.entries, e.1 = e.2.decision_id ∧
      e.2.proof_root = digest "decision" (object e.2.body)) ⟨"DECISION_INTEGRITY_FAILED", 503⟩
  ensure (∀ e ∈ state.reports.entries, e.1 = e.2.report_id ∧
      e.2.report_root = digest "investigation" (object e.2.body)) ⟨"REPORT_INTEGRITY_FAILED", 503⟩

end Validation

section Graph

omit [Sha256]

def dependsOn (state : Workspace) (key : Identifier) : Option (List Identifier) :=
  (state.tasks.get? key).map Task.depends_on

def sortedParents (state : Workspace) (key : Identifier) : Option (List Identifier) :=
  (dependsOn state key).map sorted

/-- The full transitive closure, dependencies first. Missing nodes and cycles
are errors; a path longer than the number of tasks has a cycle. -/
def ancestors (state : Workspace) (task_id : Identifier) : Except CaseworkError (List Identifier) :=
  match walk (sortedParents state) (state.tasks.size + 1) [] [] task_id with
  | .ok ordered => .ok ordered
  | .error .cycle => .error ⟨"DEPENDENCY_CYCLE", 503⟩
  | .error .missing => .error ⟨"DEPENDENCY_MISSING", 503⟩

end Graph

/-- The tasks that have the scope themselves. -/
def scopedTasks (state : Workspace) (wanted : Digest) : List Identifier :=
  (state.tasks.entries.filter (fun e => scopeKey e.2.intent.scope = wanted)).map Prod.fst

/-- Fixed-point propagation over exact scoped edges. -/
def affectedTasks (state : Workspace) (scope : Scope) : List Identifier :=
  sorted (spread state.tasks.keys (dependsOn state) state.tasks.size
    (scopedTasks state (scopeKey scope)))

section Basis

omit [Sha256] in
def closureTasks (state : Workspace) (closure : List Identifier) : List (Identifier × Task) :=
  closure.filterMap (fun key => (state.tasks.get? key).map (fun t => (key, t)))

def closureScopes (state : Workspace) (closure : List Identifier) : List Digest :=
  (closureTasks state closure).map (fun e => scopeKey e.2.intent.scope)

omit [Sha256] in
/-- The latest decision of the task itself is left out to avoid self-reference. -/
def basisEntry (task_id key : Identifier) (task : Task) : Json :=
  object [("intent", task.intent.toJson), ("depends_on", texts task.depends_on),
    ("parent_decision", if key = task_id then .null else optional .str task.current_decision_id),
    ("parent_status", if key = task_id then .null else .str task.status.text)]

omit [Sha256] in
def relevantBaselines (state : Workspace) (scopes : List Digest) : List (Digest × Baseline) :=
  state.baselines.entries.filter (fun e => e.1 ∈ scopes)

def relevantCases (state : Workspace) (scopes : List Digest) : List (Identifier × RiskCase) :=
  state.cases.entries.filter (fun e => scopeKey e.2.scope ∈ scopes)

omit [Sha256] in
def resolutionLinks (state : Workspace) (case_ids : List Identifier) :
    List (String × ResolutionProof) :=
  state.artifacts.entries.filterMap (fun e =>
    match e.2 with
    | .resolutionProof p => if p.case_id ∈ case_ids then some (e.1, p) else none
    | _ => none)

def basisBody (state : Workspace) (task_id : Identifier) (closure : List Identifier) : Json :=
  let scopes := closureScopes state closure
  let cases := relevantCases state scopes
  let links := resolutionLinks state (cases.map Prod.fst)
  object ([("tasks", object ((closureTasks state closure).map
        (fun e => (e.1, basisEntry task_id e.1 e.2)))),
      ("baselines", object ((relevantBaselines state scopes).map (fun e => (e.1, e.2.toJson)))),
      ("cases", object (cases.map (fun e => (e.1, e.2.toJson))))] ++
    (if links.isEmpty then []
      else [("resolution_evidence", object (links.map (fun e => (e.1, e.2.toJson))))]))

def taskBasis (state : Workspace) (task_id : Identifier) : Except CaseworkError Digest := do
  let closure ← ancestors state task_id
  return digest "task-basis" (basisBody state task_id closure)

/-- Whether a lesson is a version-bound, still resolved lesson of another case
with the scope and the kind of the current one. -/
def Guides (state : Workspace) (case_id : Identifier) (current : RiskCase) (lesson : Lesson) :
    Prop :=
  ∃ source ∈ state.cases.get? lesson.case_id, source.case_id ≠ case_id ∧
    source.status = .resolved ∧ lesson.case_version = some source.version ∧
    lesson.resolved_seq = source.resolved_seq ∧ lesson.scope_key = scopeKey current.scope ∧
    lesson.kind = current.kind

instance (state : Workspace) (case_id : Identifier) (current : RiskCase) (lesson : Lesson) :
    Decidable (Guides state case_id current lesson) := by
  unfold Guides
  infer_instance

def activePrecedents (state : Workspace) (case_id : Identifier) :
    Except CaseworkError (List Identifier) := do
  let current ← item state.cases case_id
  return sorted ((state.lessons.entries.filter
    (fun e => Guides state case_id current e.2)).map Prod.fst)

end Basis

section Policy

structure PolicyResult where
  verdict : Verdict
  reason_codes : List String
  causal_refs : List String
  active_blockers : List Identifier
  deriving DecidableEq

section Provenance

omit [Sha256]

def caseRef (key : Identifier) (version : ℕ) : String := "case:" ++ key ++ ":v" ++ toString version

def resolutionRef (key : Identifier) (version : ℕ) : String :=
  "resolution:" ++ key ++ ":v" ++ toString version

def baselineRef (key : Digest) (version : ℕ) : String :=
  "baseline:" ++ key ++ ":v" ++ toString version

def blockerRefs (state : Workspace) (blockers : List Identifier) : List String :=
  blockers.filterMap (fun key => (state.cases.get? key).map (fun c => caseRef key c.version))

def needsHuman (reason : String) (causal : List String) : PolicyResult :=
  ⟨.needsHuman, [reason], causal, []⟩

/-- The decision a task points to. -/
def currentDecision (state : Workspace) (task : Task) : Option Decision :=
  state.decisions.get? (task.current_decision_id.getD "")

end Provenance

def openCases (state : Workspace) (scopes : List Digest) : List Identifier :=
  sorted ((state.cases.entries.filter
    (fun e => e.2.status = .opened ∧ scopeKey e.2.scope ∈ scopes)).map Prod.fst)

def resolvedRefs (state : Workspace) (scopes : List Digest) : List String :=
  sorted ((state.cases.entries.filter
    (fun e => e.2.status = .resolved ∧ scopeKey e.2.scope ∈ scopes)).map
      (fun e => resolutionRef e.1 e.2.version))

/-- Walk the closure until a baseline stands in the way. Returns the reason, if
there is one, and the causal references gathered on the way. -/
def reviewBaselines (state : Workspace) (time : Instant) :
    List (Identifier × Task) → List String → Option String × List String
  | [], causal => (none, causal)
  | (_, candidate) :: rest, causal =>
    match state.baselines.get? (scopeKey candidate.intent.scope) with
    | none => (some "BASELINE_MISSING", causal)
    | some baseline =>
      let causal := causal ++ [baselineRef (scopeKey baseline.scope) baseline.version]
      if baseline.expires_at ≤ time then (some "BASELINE_EXPIRED", causal)
      else if candidate.intent.amount_minor.value > baseline.limit_minor.value then
        (some "LIMIT_EXCEEDED", causal)
      else reviewBaselines state time rest causal

/-- A dependency whose own proof is READY, unexpired and still bound to memory. -/
def ParentProven (state : Workspace) (time : Instant) (key : Identifier) (parent : Task) : Prop :=
  parent.status = .ready ∧ parent.taints.isEmpty ∧
    ∃ previous ∈ currentDecision state parent, previous.verdict = .ready ∧
      previous.task_id = key ∧ time < previous.expires_at ∧
      taskBasis state key = .ok previous.basis_hash

instance (state : Workspace) (time : Instant) (key : Identifier) (parent : Task) :
    Decidable (ParentProven state time key parent) := by
  unfold ParentProven
  infer_instance

/-- The policy on a task and its closure, in the order of its checks. -/
def judge (state : Workspace) (task_id : Identifier) (time : Instant) (explicit_review : Bool)
    (task : Task) (closure : List Identifier) : PolicyResult :=
  let scopes := closureScopes state closure
  let blockers := openCases state scopes
  -- Resolved facts remain causal provenance.
  let causal := blockerRefs state blockers ++ resolvedRefs state scopes
  if blockers ≠ [] then ⟨.deny, ["OPEN_RISK_RECALLED"], causal, blockers⟩
  else match reviewBaselines state time (closureTasks state closure) causal with
    | (some reason, causal) => needsHuman reason causal
    | (none, causal) =>
      if ¬ ∀ e ∈ closureTasks state closure, e.1 ≠ task_id → ParentProven state time e.1 e.2 then
        needsHuman "DEPENDENCY_REVIEW_REQUIRED" causal
      else if ¬ task.taints.isEmpty ∧ ¬ explicit_review then
        needsHuman "EXPLICIT_RECONSIDERATION_REQUIRED" causal
      else ⟨.ready, ["CURRENT_POLICY_PASSED", "HUMAN_CONFIRMATION_STILL_REQUIRED"], causal, []⟩

def policyResult (state : Workspace) (task_id : Identifier) (time : Instant)
    (explicit_review : Bool) : Except CaseworkError PolicyResult := do
  let task ← item state.tasks task_id
  let closure ← ancestors state task_id
  return judge state task_id time explicit_review task closure

structure Validity where
  current_proof_valid : Bool
  review_preparable : Bool
  effective_verdict : Verdict
  effective_reason_codes : List String
  active_blockers : List Identifier
  proof_invalid_reasons : List String
  deriving DecidableEq

omit [Sha256] in
/-- A reason that is listed when its condition holds. -/
def listed (c : Prop) [Decidable c] (reason : String) : List String := if c then [reason] else []

/-- Re-evaluate time and policy; a hash check alone is not a live capability. -/
def decisionValidity (state : Workspace) (task_id : Identifier) (time : Instant) :
    Except CaseworkError Validity := do
  let task ← item state.tasks task_id
  let current ← policyResult state task_id time false
  let basis ← taskBasis state task_id
  let invalid := match currentDecision state task with
    | none => ["DECISION_MISSING"]
    | some decision =>
      listed (decision.expires_at ≤ time) "DECISION_EXPIRED" ++
      listed (decision.basis_hash ≠ basis) "MEMORY_BASIS_CHANGED" ++
      listed (task.status ≠ decision.verdict.status) "TASK_STATUS_CHANGED" ++
      listed (decision.verdict ≠ current.verdict ∨
        sorted decision.reason_codes ≠ sorted current.reason_codes) "CURRENT_POLICY_CHANGED"
  return {
    current_proof_valid := invalid.isEmpty
    review_preparable := invalid.isEmpty ∧ current.verdict = .ready
    effective_verdict := current.verdict
    effective_reason_codes := current.reason_codes
    active_blockers := current.active_blockers
    proof_invalid_reasons := invalid }

omit [Sha256] in
/-- The bounds that the decision of one ancestor sets. -/
def decisionLimit (state : Workspace) (task : Task) : List Instant :=
  ((currentDecision state task).map Decision.expires_at).toList

def baselineLimit (state : Workspace) (task : Task) : List Instant :=
  ((state.baselines.get? (scopeKey task.intent.scope)).map Baseline.expires_at).toList

/-- A child's proof cannot outlive a required baseline or an ancestor's proof. -/
def readyExpiry (state : Workspace) (task_id : Identifier) (time default_expiry : Instant) :
    Except CaseworkError Instant := do
  let closure ← ancestors state task_id
  let limits := (closureTasks state closure).flatMap (fun e =>
    baselineLimit state e.2 ++ if e.1 = task_id then [] else decisionLimit state e.2)
  let result := limits.foldl min default_expiry
  ensure (time < result) (conflict "READY_BASIS_EXPIRED")
  return result

end Policy

end MemoryGuard.Core
