import MemoryGuard.CaseCommands

/-!
The commands that acquire evidence: the reservation and the completion of a
source read, and missions over several sources. A network read happens between
the two transactions; the desk that made the reservation also completes it.
-/
namespace MemoryGuard.SourceCommands

open OrderedDict Guarded JsonText ContentHash Models Artifacts Aggregate Core SourceModels
open SourceState SourceGuard SourceService Transactions TaskCommands CaseCommands

variable [Sha256]

/-- `self.remember_policy` of a desk. -/
def remember (desk : EvidenceDesk) (state : Workspace) (case : RiskCase)
    (source_ids : List Identifier) : Except CaseworkError Workspace :=
  rememberPolicy state case.case_id (policy desk state case) source_ids

section Collection

variable (desk : EvidenceDesk) (env : Environment) (actor : Actor) (cmd : Command)
  (case_id source_id : Identifier) (requested : String) (snapshot : Workspace)

def fetchId : String :=
  "fetch_" ++ shortDigest 32 "fetch-id"
    (texts [actor.tenant_id, actor.actor_id, cmd.idempotency_key])

/-- What a collection captures before its first transaction. -/
structure Acquisition where
  case : RiskCase
  spec : SourceSpec
  resource : String

def openCollection : Except CaseworkError Acquisition := do
  authorize actor operators none
  validateWorkspace snapshot
  ensure (snapshot.tenant_id = actor.tenant_id) ⟨"TENANT_BINDING_FAILED", 503⟩
  let case ← findCase snapshot actor case_id
  let spec ← allowedSpec desk actor source_id case.scope
  let resource ← desk.resource spec requested case.scope
  return ⟨case, spec, resource⟩

omit [Sha256] in
/-- The reservations made so far for a source of a case. -/
def reservationCount (state : Workspace) (case_id source_id : Identifier) : ℕ :=
  (state.artifacts.values.filter (fun a => match a with
    | .request q => decide (q.case_id = case_id ∧ q.source_id = source_id)
    | _ => false)).length

def pendingRequest (acq : Acquisition) (version : ℕ) : SourceRequest where
  request_id := fetchId actor cmd
  case_id := case_id
  case_version := version
  source_id := acq.spec.source_id
  source_spec_hash := specHash acq.spec
  resource := acq.resource
  state := .pending
  reserved_at := env.clock .reserved
  actor_id := actor.actor_id
  finished_at := none
  error := none
  receipt_id := none

def pendingHead (acq : Acquisition) (version : ℕ) : SourceHead :=
  ⟨case_id, version, acq.spec.source_id, fetchId actor cmd, .pending, none⟩

/-- A new reservation displaces the head of its source. -/
def storeReservation (acq : Acquisition) (version : ℕ) (state : Workspace) : Workspace :=
  let requests := state.artifacts.set (fetchId actor cmd)
    (.request (pendingRequest env actor cmd case_id acq version))
  let head := pendingHead actor cmd case_id acq version
  { state with artifacts := requests.set (sourceKey case_id acq.spec.source_id) (.head head) }

def reserveChange (acq : Acquisition) (force_refresh : Bool) : Change := fun state _ => do
  let current ← findCase state actor case_id
  ensure (current.status = .opened ∧ current.version = acq.case.version)
    (conflict "SOURCE_CASE_CHANGED")
  let state ← remember desk state current [acq.spec.source_id]
  let (receipts, _) ← currentReceipts state case_id (env.clock .receipts) desk.specs
  let cached := receipts.find?
    (fun r => r.source_id = acq.spec.source_id ∧ r.resource = acq.resource)
  match cached, force_refresh with
  | some receipt, false => return (state, .sourceCached (fetchId actor cmd) receipt)
  | _, _ =>
    ensure (reservationCount state case_id acq.spec.source_id < acq.spec.max_attempts_per_case)
      ⟨"SOURCE_READ_BUDGET_EXHAUSTED", 429⟩
    return (storeReservation env actor cmd case_id acq current.version state,
      .sourceReserved (fetchId actor cmd))

/-- The first transaction of `collect`. -/
def reserveSource (force_refresh : Bool) : Except CaseworkError Transaction := do
  let acq ← openCollection desk actor case_id source_id requested snapshot
  return {
    actor := actor
    command := cmd
    name := "source.reserve"
    payload := [("case_id", .str case_id), ("source_id", .str acq.spec.source_id),
      ("resource", .str acq.resource), ("force_refresh", .bool force_refresh)]
    change := reserveChange desk env actor cmd case_id acq force_refresh }

/-- An error code, or the bounded observation of the adapter. -/
abbrev Fetched := Except String Observation

omit [Sha256] in
def errorOf : Fetched → Option String
  | .ok _ => none
  | .error code => some code

omit [Sha256] in
def observedOf : Fetched → Option Observation
  | .ok o => some o
  | .error _ => none

def sealedReceipt (draft : SourceReceipt) : SourceReceipt :=
  { draft with receipt_root := receiptRoot draft }

def newReceipt (acq : Acquisition) (observed : Observation) : SourceReceipt :=
  sealedReceipt {
    receipt_id := env.fresh "source"
    case_id := case_id
    case_version := acq.case.version
    source_id := acq.spec.source_id
    source_spec_hash := specHash acq.spec
    independence_group := acq.spec.independence_group
    resource := acq.resource
    fetched_at := env.clock .finished
    expires_at := env.clock .finished + seconds acq.spec.ttl_seconds
    observed := observed
    receipt_root := "" }

omit [Sha256] in
/-- Whether the head of the source still points to the request. -/
def pointed (head : Option Artifact) (request_id : String) : Option SourceHead :=
  match head with
  | some (.head h) => if h.request_id = request_id then some h else none
  | _ => none

omit [Sha256] in
def finalState (stale : Bool) (fetched : Fetched) : FetchState :=
  if stale then .stale else match fetched with
    | .ok _ => .observed
    | .error _ => .failed

/-- The receipt is kept even when it came too late to be used. -/
def storeReceipt (receipt : Option SourceReceipt) (state : Workspace) : Workspace :=
  match receipt with
  | none => state
  | some r => { state with artifacts := state.artifacts.set r.receipt_id (.receipt r) }

def finishChange (acq : Acquisition) (request_id : String) (fetched : Fetched) : Change :=
  fun state _ => do
    let pending ← match state.artifacts.get? request_id with
      | some (.request q) => pure q
      | _ => throw (conflict "SOURCE_REQUEST_NOT_PENDING")
    ensure (pending.state = .pending) (conflict "SOURCE_REQUEST_NOT_PENDING")
    let current ← findCase state actor case_id
    let key := sourceKey case_id acq.spec.source_id
    let head := pointed (state.artifacts.get? key) request_id
    let stale : Bool := current.version ≠ acq.case.version ∨ current.status ≠ .opened ∨ head.isNone
    let receipt := (observedOf fetched).map (newReceipt env case_id acq)
    let receipt_id := receipt.map SourceReceipt.receipt_id
    let finished : SourceRequest := { pending with
      state := finalState stale fetched
      finished_at := some (env.clock .finished)
      error := errorOf fetched
      receipt_id := receipt_id.or pending.receipt_id }
    let state := storeReceipt receipt
      { state with artifacts := state.artifacts.set request_id (.request finished) }
    let state := match head with
      | none => state
      | some h =>
        let moved : SourceHead := { h with
          state := finished.state
          receipt_id := receipt_id.or h.receipt_id }
        { state with artifacts := state.artifacts.set key (.head moved) }
    return (state, .sourceFinished request_id finished.state (errorOf fetched) receipt
      ((observedOf fetched).map Observation.external_calls))

def fetchedJson (fetched : Fetched) : Json :=
  .arr [optional (fun o => object o.fields) (observedOf fetched), optional .str (errorOf fetched)]

/-- The second transaction of `collect`. It runs against the current revision. -/
def finishSource (fetched : Fetched) (expected_revision : ℕ) :
    Except CaseworkError Transaction := do
  let acq ← openCollection desk actor case_id source_id requested snapshot
  let request_id := fetchId actor cmd
  return {
    actor := actor
    command := ⟨"done_" ++ shortDigest 32 "fetch-id"
        (texts [actor.tenant_id, actor.actor_id, cmd.idempotency_key]),
      cmd.session_id, expected_revision⟩
    name := "source.finish"
    payload := [("case_id", .str case_id), ("request_id", .str request_id),
      ("result_digest", .str (digest "source-result" (fetchedJson fetched)))]
    change := finishChange env actor case_id acq request_id fetched }

end Collection

section Missions

variable (desk : EvidenceDesk) (svc : Service) (actor : Actor) (cmd : Command)
  (case_id : Identifier) (queries : List SourceQuery) (reviewer_id : Option Identifier)

def missionId : String :=
  "mission_" ++ shortDigest 40 "mission-id"
    (texts [actor.tenant_id, actor.actor_id, cmd.idempotency_key])

/-- Every queried source is allowed and takes the resource; its spec is bound. -/
def bindQuery (case : RiskCase) (hashes : Dict Identifier Digest) (query : SourceQuery) :
    Except CaseworkError (Dict Identifier Digest) := do
  let spec ← allowedSpec desk actor query.source_id case.scope
  let _ ← desk.resource spec query.resource case.scope
  return hashes.set spec.source_id (specHash spec)

omit [Sha256] in
def checkMissionReviewer (case : RiskCase) : Except CaseworkError Unit :=
  match reviewer_id with
  | none => pure ()
  | some id => do
    let reviewer ← fetch (svc.actors.get? id) ⟨"MISSION_REVIEWER_NOT_ALLOWED", 403⟩
    ensure (Independent actor case reviewer) ⟨"MISSION_REVIEWER_NOT_ALLOWED", 403⟩

def planMissionChange : Change := fun state seq => do
  let case ← findCase state actor case_id
  ensure (case.status = .opened) (conflict "CASE_NOT_OPEN")
  let hashes ← queries.foldlM (bindQuery desk actor case) .empty
  checkMissionReviewer svc actor reviewer_id case
  let state ← remember desk state case hashes.keys
  let mission : Mission := {
    mission_id := missionId actor cmd
    origin_session_id := some cmd.session_id
    origin_idempotency_key := some cmd.idempotency_key
    case_id := case_id
    case_version := case.version
    created_seq := seq
    planned_queries := queries
    reviewer_id := reviewer_id
    source_policy_hashes := hashes
    operator_id := actor.actor_id }
  return ({ state with artifacts := state.artifacts.set mission.mission_id (.mission mission) },
    .missionPlanned mission)

/-- The first transaction of `mission`. -/
def planMission : Except CaseworkError Transaction := do
  authorize actor [.investigator] none
  ensure (queries.map SourceQuery.source_id).Nodup ⟨"MISSION_DUPLICATE_SOURCE", 422⟩
  return {
    actor := actor
    command := cmd
    name := "mission.plan"
    payload := [("case_id", .str case_id), ("queries", .arr (queries.map SourceQuery.toJson)),
      ("reviewer_id", optional .str reviewer_id)]
    change := planMissionChange desk svc actor cmd case_id queries reviewer_id }

omit [Sha256] in
def resumeChange (record : Mission) (mission_id : String) : Change := fun state _ => do
  let live ← match state.artifacts.get? mission_id with
    | some (.mission m) => pure m
    | _ => throw (conflict "MISSION_PLAN_CHANGED")
  ensure (live.toJson = record.toJson) (conflict "MISSION_PLAN_CHANGED")
  let case ← findCase state actor record.case_id
  ensure (case.status = .opened ∧ case.version = record.case_version)
    (conflict "MISSION_CASE_CHANGED")
  return (state, .missionResumed mission_id (some cmd.session_id ≠ record.origin_session_id))

/-- The first transaction of `resume_mission`. -/
def resumeMission (snapshot : Workspace) (mission_id : String) :
    Except CaseworkError Transaction := do
  authorize actor [.investigator] none
  validateWorkspace snapshot
  ensure (snapshot.tenant_id = actor.tenant_id) ⟨"TENANT_BINDING_FAILED", 503⟩
  let record ← match snapshot.artifacts.get? mission_id with
    | some (.mission m) => pure m
    | _ => throw ⟨"MISSION_NOT_FOUND", 404⟩
  let _ ← findCase snapshot actor record.case_id
  ensure (record.operator_id = actor.actor_id) ⟨"MISSION_OWNER_MISMATCH", 403⟩
  ensure (record.origin_idempotency_key.isSome ∧ record.origin_session_id.isSome)
    (conflict "LEGACY_MISSION_REQUIRES_NEW_PLAN")
  return {
    actor := actor
    command := cmd
    name := "mission.resume"
    payload := [("case_id", .str record.case_id), ("mission_id", .str mission_id)]
    change := resumeChange actor cmd record mission_id }

end Missions

end MemoryGuard.SourceCommands
