import MemoryGuard.Transactions

/-!
The commands on baselines, tasks and prepared reviews. Each has its change, the
part that runs on the loaded workspace, and the request that authorises it and
hands the change to the transaction.
-/
namespace MemoryGuard.TaskCommands

open OrderedDict Guarded JsonText ContentHash Models Artifacts Aggregate Core SourceService
open Transactions

def operators : List Role := [.owner, .investigator]

variable [Sha256]

omit [Sha256] in
def bootstrap (actor : Actor) (cmd : Command) : Except CaseworkError Transaction := do
  authorize actor [.owner] none
  return {
    actor := actor
    command := cmd
    name := "bootstrap"
    payload := []
    change := fun state _ => return (state, .initialized)
    bootstrap := true }

omit [Sha256] in
def taint (token reason : String) (task : Task) : Task :=
  { task with taints := task.taints.set token reason, status := .suspended }

/-- `_invalidate`. -/
def invalidate (state : Workspace) (scope : Scope) (token reason : String) :
    Workspace × List Identifier :=
  let impacted := affectedTasks state scope
  ({ state with tasks := state.tasks.adjust impacted (taint token reason) }, impacted)

section Baselines

variable (actor : Actor) (scope : Scope) (limit_minor : Minor) (expires_at : Instant)

def setBaselineChange : Change := fun state seq =>
  let key := scopeKey scope
  let version := match state.baselines.get? key with
    | some previous => previous.version + 1
    | none => 1
  let baseline : Baseline := ⟨scope, version, limit_minor, expires_at, actor.actor_id, seq⟩
  let state := { state with
    baselines := state.baselines.set key baseline
    baseline_history := state.baseline_history.set key
      ((state.baseline_history.get? key).getD [] ++ [baseline]) }
  let (state, impacted) := invalidate state scope (baselineRef key version)
    "BASELINE_CHANGED_REVIEW_REQUIRED"
  return (state, .baselineSet key version impacted)

def setBaseline (env : Environment) (cmd : Command) : Except CaseworkError Transaction := do
  authorize actor [.owner] (some scope.subject_id)
  ensure (env.clock .admission < expires_at) ⟨"BASELINE_MUST_EXPIRE_IN_FUTURE", 422⟩
  return {
    actor := actor
    command := cmd
    name := "baseline.set"
    payload := [("scope", scope.toJson), ("limit_minor", nat limit_minor.value),
      ("expires_at", expires_at.toJson)]
    change := setBaselineChange actor scope limit_minor expires_at }

end Baselines

section Decisions

/-- Every blocker taints the task under its then-current version. -/
def taintBlockers (state : Workspace) (blockers : List Identifier) (taints : Dict String String) :
    Dict String String :=
  (blockerRefs state blockers).foldl (fun ts ref => ts.set ref "OPEN_RISK") taints

def actionFingerprint (tenant_id : Identifier) (intent : Intent) : Digest :=
  digest "action" (object (("tenant_id", .str tenant_id) :: intent.fields))

def proven (draft : Decision) : Decision :=
  { draft with proof_root := digest "decision" (object draft.body) }

def escalationKey (task_id decision_id : Identifier) : Digest :=
  digest "escalation-artifact" (texts [task_id, decision_id])

def escalation (decision : Decision) : Escalation where
  artifact_id := escalationKey decision.task_id decision.decision_id
  task_id := decision.task_id
  decision_id := decision.decision_id
  proof_root := decision.proof_root
  reason_codes := decision.reason_codes
  active_blockers := decision.active_blockers
  created_at := decision.created_at

variable (svc : Service) (env : Environment) (actor : Actor) (cmd : Command)

omit [Sha256] in
/-- The task after its decision. Only an explicit review that ends in READY
clears what taints it. -/
def decidedTask (state : Workspace) (task : Task) (decision : Decision) (explicit_review : Bool) :
    Task :=
  { task with
    taints := if explicit_review ∧ decision.verdict = .ready then .empty
      else taintBlockers state decision.active_blockers task.taints
    status := decision.verdict.status
    current_decision_id := some decision.decision_id }

omit [Sha256] in
def storeTask (state : Workspace) (task : Task) : Workspace :=
  { state with tasks := state.tasks.set task.task_id task }

/-- The decision that the policy and the clock yield for a task. -/
def makeDecision (state : Workspace) (task : Task) (revision : ℕ) (explicit_review : Bool) :
    Except CaseworkError Decision := do
  let time := env.clock .decision
  let result ← policyResult state task.task_id time explicit_review
  let basis ← taskBasis state task.task_id
  let default_expiry := time + minutes 10
  let expires_at ← if result.verdict = .ready then
      readyExpiry state task.task_id time default_expiry
    else pure default_expiry
  return proven {
    decision_id := env.fresh "decision"
    task_id := task.task_id
    verdict := result.verdict
    reason_codes := result.reason_codes
    causal_refs := sorted result.causal_refs.dedup
    active_blockers := result.active_blockers
    action_fingerprint := actionFingerprint actor.tenant_id task.intent
    basis_hash := basis
    memory_revision := revision
    session_id := cmd.session_id
    runtime_id := svc.runtime_id
    process_id := svc.process_id
    build_commit := svc.build_commit
    created_at := time
    expires_at := expires_at
    tool := if result.verdict = .ready then "human_review.prepare"
      else "operator_escalation.create"
    proof_root := "" }

/-- The workspace with the decision, an escalation unless it is READY, and the
task it was made for. -/
def storeDecision (state : Workspace) (task : Task) (decision : Decision)
    (explicit_review : Bool) : Workspace :=
  let state := { state with
    decisions := state.decisions.set decision.decision_id decision
    artifacts := if decision.verdict = .ready then state.artifacts
      else state.artifacts.set (escalationKey task.task_id decision.decision_id)
        (.escalation (escalation decision)) }
  storeTask state (decidedTask state task decision explicit_review)

/-- `_decision`. -/
def decide (state : Workspace) (task : Task) (revision : ℕ) (explicit_review : Bool) :
    Except CaseworkError (Workspace × Decision) := do
  let decision ← makeDecision svc env actor cmd state task revision explicit_review
  return (storeDecision state task decision explicit_review, decision)

/-- A dependency the actor may see, of the subject of the new task. -/
def checkParent (state : Workspace) (intent : Intent) (parent_id : Identifier) :
    Except CaseworkError Unit := do
  let parent ← findTask state actor parent_id
  ensure (parent.intent.scope.subject_id = intent.scope.subject_id)
    ⟨"CROSS_SUBJECT_DEPENDENCY_FORBIDDEN", 403⟩

def registerTaskChange (intent : Intent) (depends_on : List Identifier) : Change :=
  fun state seq => do
    ensure (state.tasks.size < 250) ⟨"TASK_CAPACITY_REACHED", 413⟩
    ensure depends_on.Nodup ⟨"DUPLICATE_DEPENDENCY", 422⟩
    depends_on.forM (checkParent actor state intent)
    let task : Task := ⟨env.fresh "task", intent, sorted depends_on, .empty, .needsHuman, none⟩
    let (state, decision) ← decide svc env actor cmd (storeTask state task) task seq false
    let task ← item state.tasks task.task_id
    return (state, .taskRegistered task decision)

def registerTask (intent : Intent) (depends_on : List Identifier) :
    Except CaseworkError Transaction := do
  authorize actor operators (some intent.scope.subject_id)
  return {
    actor := actor
    command := cmd
    name := "task.register"
    payload := [("intent", intent.toJson), ("depends_on", texts depends_on)]
    change := registerTaskChange svc env actor cmd intent depends_on }

def evaluateChange (task_id : Identifier) (reconsider : Bool) : Change := fun state seq => do
  let task ← findTask state actor task_id
  let (state, decision) ← decide svc env actor cmd state task seq reconsider
  let decided ← item state.tasks task_id
  return (state, .taskDecided decision task.current_decision_id (sorted decided.taints.keys))

def evaluate (task_id : Identifier) (reconsider : Bool) : Except CaseworkError Transaction := do
  authorize actor (if reconsider then [.reviewer] else operators ++ [.reviewer]) none
  return {
    actor := actor
    command := cmd
    name := if reconsider then "task.reconsider" else "task.evaluate"
    payload := [("task_id", .str task_id)]
    change := evaluateChange svc env actor cmd task_id reconsider }

end Decisions

section Reviews

variable (env : Environment) (actor : Actor) (cmd : Command) (task_id decision_id : Identifier)

def reviewKey : Digest := digest "review-artifact" (texts [task_id, decision_id])

def prepareReviewChange : Change := fun state _ => do
  let task ← findTask state actor task_id
  let decision ← fetch (state.decisions.get? decision_id) (conflict "DECISION_SUPERSEDED")
  ensure (decision.task_id = task_id ∧ task.current_decision_id = some decision_id)
    (conflict "DECISION_SUPERSEDED")
  let current ← policyResult state task_id (env.clock .reviewPolicy) false
  ensure (task.status = .ready ∧ decision.verdict = .ready ∧ current.verdict = .ready ∧
    env.clock .reviewExpiry < decision.expires_at) (conflict "STALE_OR_BLOCKED_REVIEW")
  let basis ← taskBasis state task_id
  ensure (decision.basis_hash = basis) (conflict "STALE_OR_BLOCKED_REVIEW")
  let artifact : ReviewArtifact :=
    ⟨reviewKey task_id decision_id, task_id, decision_id, decision.proof_root⟩
  return ({ state with artifacts := state.artifacts.set artifact.artifact_id (.review artifact) },
    .reviewPrepared artifact)

def prepareReview : Except CaseworkError Transaction := do
  authorize actor (operators ++ [.reviewer]) none
  return {
    actor := actor
    command := cmd
    name := "review.prepare"
    payload := [("task_id", .str task_id), ("decision_id", .str decision_id)]
    change := prepareReviewChange env actor task_id decision_id }

end Reviews

end MemoryGuard.TaskCommands
