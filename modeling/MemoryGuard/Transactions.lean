import MemoryGuard.SourceService

/-!
The one way into the store. A command is authorised outside, then runs inside a
transaction: load and validate, recheck scopes, answer an exact retry from the
stored responses, check the precondition, change, append the audit event,
remember the response, seal, validate and save. An error at any point leaves
the stored workspace as it was.
-/
namespace MemoryGuard.Transactions

open OrderedDict Guarded JsonText ContentHash Models Artifacts Aggregate Core SourceModels
open SourceState SourceService

/-- The places where a command reads the clock. -/
inductive Reading
  | admission
  | event
  | decision
  | replayPolicy
  | replayExpiry
  | reviewPolicy
  | reviewExpiry
  | report
  | resolution
  | impact (task_id : Identifier)
  | external
  | requested
  | completed
  | receipts
  | reserved
  | finished
  | received
  | planFreshness
  | planCreated
  | planExpiry
  | observed
  deriving DecidableEq

/-- What the surroundings answer while a command runs: clock values, and the
digits of the fresh identifiers it draws, at most one for each kind. -/
structure Environment where
  clock : Reading → Instant
  uuid : String → String

def Environment.fresh (env : Environment) (stem : String) : Identifier :=
  newId stem (env.uuid stem)

structure Command where
  idempotency_key : Identifier
  session_id : Identifier
  expected_revision : ℕ

/-- The anchor adapter of a service, as far as commands call it. -/
structure AnchorAdapter where
  plan : Digest → ℕ → Chain → Except CaseworkError AnchorPlan

/-- A running service. `fits` is whether the store takes the workspace. -/
structure Service where
  actors : Dict Identifier Actor
  evidence_desk : Option EvidenceDesk
  anchor : Option AnchorAdapter
  build_commit : String
  runtime_id : Identifier
  process_id : ℕ
  fits : Workspace → Bool

/-- The change a command makes, given the workspace and the next sequence number. -/
abbrev Change := Workspace → ℕ → Except CaseworkError (Workspace × Result)

structure Transaction where
  actor : Actor
  command : Command
  name : String
  payload : List (String × Json)
  change : Change
  bootstrap : Bool := false
  relevant_basis : Option (Identifier × Digest) := none

/-- `payload[key]` where the value is a text. -/
def payloadText (payload : List (String × Json)) (key : String) : Option String :=
  match payload.lookup key with
  | some (.str s) => some s
  | _ => none

/-- `_task`: a task the actor may see. -/
def findTask (state : Workspace) (actor : Actor) (task_id : Identifier) :
    Except CaseworkError Task := do
  let task ← fetch (state.tasks.get? task_id) ⟨"TASK_NOT_FOUND", 404⟩
  ensure (task.intent.scope.subject_id ∈ actor.subjects) ⟨"TASK_NOT_FOUND", 404⟩
  return task

/-- `_case`: a case the actor may see. -/
def findCase (state : Workspace) (actor : Actor) (case_id : Identifier) :
    Except CaseworkError RiskCase := do
  let case ← fetch (state.cases.get? case_id) ⟨"CASE_NOT_FOUND", 404⟩
  ensure (case.scope.subject_id ∈ actor.subjects) ⟨"CASE_NOT_FOUND", 404⟩
  return case

variable [Sha256]

/-- The expected revision is a precondition, not part of the request. -/
def requestHash (actor : Actor) (session_id : Identifier) (name : String)
    (payload : List (String × Json)) : Digest :=
  digest "command" (object [("command", .str name), ("actor", .str actor.actor_id),
    ("session", .str session_id), ("payload", object payload)])

def idempotencyKey (actor_id key : Identifier) : Digest :=
  digest "idempotency-key" (texts [actor_id, key])

def Transaction.fingerprint (tx : Transaction) : Digest :=
  requestHash tx.actor tx.command.session_id tx.name tx.payload

def Transaction.key (tx : Transaction) : Digest :=
  idempotencyKey tx.actor.actor_id tx.command.idempotency_key

/-- The stored workspace, or an empty one for a bootstrap. -/
def loaded (store : Option Workspace) (tx : Transaction) : Except CaseworkError Workspace :=
  match store with
  | some state => return state
  | none => do
    ensure tx.bootstrap ⟨"MEMORY_WORKSPACE_MISSING", 503⟩
    return sealed (Workspace.blank tx.actor.tenant_id)

omit [Sha256] in
/-- Scope permissions are rechecked before an old response is returned. -/
def recheckScopes (state : Workspace) (tx : Transaction) : Except CaseworkError Unit := do
  match payloadText tx.payload "task_id" with
  | none => pure ()
  | some task_id => let _ ← findTask state tx.actor task_id
  match payloadText tx.payload "case_id" with
  | none => pure ()
  | some case_id => let _ ← findCase state tx.actor case_id
  if tx.name = "handoff.accept" then
    let handoff_id ← fetch (payloadText tx.payload "handoff_id") backendUnavailable
    let known ← fetch (state.handoffs.get? handoff_id) ⟨"HANDOFF_NOT_FOUND", 404⟩
    ensure (known.reviewer_id = tx.actor.actor_id) ⟨"HANDOFF_NOT_FOUND", 404⟩
    let _ ← findCase state tx.actor known.case_id

/-- What is rechecked before an old prepared review is shown again. -/
def recheckReview (env : Environment) (state : Workspace) (tx : Transaction) :
    Except CaseworkError Unit := do
  let task_id ← fetch (payloadText tx.payload "task_id") backendUnavailable
  let decision_id ← fetch (payloadText tx.payload "decision_id") backendUnavailable
  let task ← findTask state tx.actor task_id
  let current ← policyResult state task.task_id (env.clock .replayPolicy) false
  let decision ← fetch (state.decisions.get? decision_id) (conflict "STALE_OR_BLOCKED_REVIEW")
  ensure (task.current_decision_id = some decision.decision_id ∧ current.verdict = .ready ∧
    env.clock .replayExpiry < decision.expires_at) (conflict "STALE_OR_BLOCKED_REVIEW")
  let basis ← taskBasis state task.task_id
  ensure (decision.basis_hash = basis) (conflict "STALE_OR_BLOCKED_REVIEW")

/-- The stored answer to an exact retry. -/
def replay (env : Environment) (state : Workspace) (tx : Transaction)
    (previous : IdempotencyEntry) : Except CaseworkError Response := do
  ensure (previous.request_hash = tx.fingerprint) (conflict "IDEMPOTENCY_CONFLICT")
  if tx.name = "review.prepare" then recheckReview env state tx
  return { previous.response with replayed := true, historical_only := true }

/-- The precondition of a new command. -/
def preconditions (state : Workspace) (tx : Transaction) : Except CaseworkError Unit := do
  match tx.relevant_basis with
  | none =>
    ensure (state.revision = tx.command.expected_revision) (conflict "REVISION_CONFLICT")
  | some (case_id, expected) =>
    ensure (state.cases.Has case_id) (conflict "STALE_INVESTIGATION")
    let basis ← investigationBasis state case_id
    ensure (basis = expected) (conflict "STALE_INVESTIGATION")
  ensure (¬ (tx.bootstrap ∧ state.revision ≠ 0)) (conflict "WORKSPACE_ALREADY_EXISTS")
  ensure (state.revision < 5000) ⟨"WORKSPACE_CAPACITY_REACHED", 413⟩

/-- The audit event of a change; `state` is the workspace before it. -/
def auditEvent (env : Environment) (state : Workspace) (tx : Transaction) (result : Result) :
    Event :=
  let draft : Event := {
    seq := state.revision + 1
    occurred_at := env.clock .event
    actor_id := tx.actor.actor_id
    role := tx.actor.role
    command := tx.name
    request_hash := tx.fingerprint
    result_hash := digest "command-result" result.toJson
    previous_hash := (state.audit.getLast?.map Event.event_hash).getD genesis
    event_hash := "" }
  { draft with event_hash := digest "event" (object draft.body) }

def answer (event : Event) (result : Result) : Response :=
  ⟨result, event.seq, event.event_hash, false, false⟩

/-- A changed workspace with its event, the remembered response and the seal. -/
def recorded (env : Environment) (state changed : Workspace) (tx : Transaction) (result : Result) :
    Workspace :=
  let event := auditEvent env state tx result
  sealed { changed with
    revision := state.revision + 1
    audit := state.audit ++ [event]
    idempotency := state.idempotency.set tx.key ⟨tx.fingerprint, answer event result⟩ }

def save (svc : Service) (state : Workspace) : Except CaseworkError Unit := do
  validateWorkspace state
  ensure (svc.fits state) ⟨"WORKSPACE_CAPACITY_REACHED", 413⟩

/-- `_mutate`. A replayed answer leaves the store as it is. -/
def mutate (svc : Service) (env : Environment) (store : Option Workspace) (tx : Transaction) :
    Except CaseworkError (Option Workspace × Response) := do
  let state ← loaded store tx
  validateWorkspace state
  ensure (state.tenant_id = tx.actor.tenant_id) ⟨"TENANT_BINDING_FAILED", 503⟩
  recheckScopes state tx
  match state.idempotency.get? tx.key with
  | some previous =>
    let response ← replay env state tx previous
    return (store, response)
  | none =>
    preconditions state tx
    let (changed, result) ← tx.change state (state.revision + 1)
    let next := recorded env state changed tx result
    save svc next
    return (some next, answer (auditEvent env state tx result) result)

end MemoryGuard.Transactions
