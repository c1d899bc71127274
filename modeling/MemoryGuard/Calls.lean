import MemoryGuard.PartnerCommands
import MemoryGuard.Traces

/-!
Everything that can be asked of a service, and the runs of one tenant's store.
A call is executed by whichever process holds the store, with whatever actors
and connectors that process was started with, so every step carries its own
service. A call that fails leaves the store as it was and is no step. Calls
that span transactions appear once for each of them and carry the workspace
they read at the beginning, which is one that was stored before.
-/
namespace MemoryGuard.Calls

open OrderedDict Guarded JsonText ContentHash Models Artifacts Aggregate Core SourceModels
open SourceService Transactions TaskCommands CaseCommands SourceCommands PartnerCommands Traces

inductive Call
  | bootstrap (actor : Actor) (cmd : Command)
  | setBaseline (actor : Actor) (cmd : Command) (scope : Scope) (limit_minor : Minor)
      (expires_at : Instant)
  | registerTask (actor : Actor) (cmd : Command) (intent : Intent) (depends_on : List Identifier)
  | evaluate (actor : Actor) (cmd : Command) (task_id : Identifier) (reconsider : Bool)
  | openCase (actor : Actor) (cmd : Command) (scope : Scope) (kind : RiskKind)
      (evidence_digest : Digest)
  | reopenCase (actor : Actor) (cmd : Command) (case_id : Identifier) (evidence_digest : Digest)
  | quarantineNote (actor : Actor) (cmd : Command) (scope : Scope) (text : String)
  | reserveAttempt (actor : Actor) (cmd : Command) (case_id : Identifier) (snapshot : Workspace)
  | investigate (actor : Actor) (cmd : Command) (case_id : Identifier) (snapshot : Workspace)
      (planning : Planning)
  | handoff (actor : Actor) (cmd : Command) (case_id report_id reviewer_id : Identifier)
  | acceptHandoff (actor : Actor) (cmd : Command) (handoff_id : Identifier)
  | resolve (actor : Actor) (cmd : Command) (case_id handoff_id : Identifier)
      (resolution : Resolution) (evidence_digest : Digest)
  | prepareReview (actor : Actor) (cmd : Command) (task_id decision_id : Identifier)
  | prepareAnchor (actor : Actor) (cmd : Command) (task_id decision_id : Identifier)
  | verifyAnchor (actor : Actor) (cmd : Command) (snapshot : Workspace) (anchor_id : Identifier)
      (tx_hash : String) (verified : Except CaseworkError Verification)
  | reserveSource (actor : Actor) (cmd : Command) (desk : EvidenceDesk)
      (case_id source_id : Identifier) (resource : String) (snapshot : Workspace)
      (force_refresh : Bool)
  | finishSource (actor : Actor) (cmd : Command) (desk : EvidenceDesk)
      (case_id source_id : Identifier) (resource : String) (snapshot : Workspace)
      (fetched : Fetched) (expected_revision : ℕ)
  | planMission (actor : Actor) (cmd : Command) (desk : EvidenceDesk) (case_id : Identifier)
      (queries : List SourceQuery) (reviewer_id : Option Identifier)
  | resumeMission (actor : Actor) (cmd : Command) (snapshot : Workspace) (mission_id : String)
  | ingest (incidents : List IncidentSpec) (delivery : Delivery) (expected_revision : ℕ)
  | preparePlan (actor : Actor) (cmd : Command) (partner : Option VirtualsSpec)
      (case_id report_id : Identifier)
  | verifyPlan (actor : Actor) (cmd : Command) (partner : Option VirtualsSpec)
      (snapshot : Workspace) (plan_id : Identifier) (job_id : String)
      (history : Except String (List (String × Json)))

/-- The workspace a call read before its transaction. -/
def Call.snapshot : Call → Option Workspace
  | .reserveAttempt _ _ _ snapshot => some snapshot
  | .investigate _ _ _ snapshot _ => some snapshot
  | .verifyAnchor _ _ snapshot _ _ _ => some snapshot
  | .reserveSource _ _ _ _ _ _ snapshot _ => some snapshot
  | .finishSource _ _ _ _ _ _ snapshot _ _ => some snapshot
  | .resumeMission _ _ snapshot _ => some snapshot
  | .verifyPlan _ _ _ snapshot _ _ _ => some snapshot
  | _ => none

variable [Sha256]

def inTransaction (request : Except CaseworkError Transaction) : Except CaseworkError Prepared := do
  let tx ← request
  return .transaction tx

/-- Authorisation and everything else that happens before the transaction. -/
def Call.prepare (svc : Service) (env : Environment) : Call → Except CaseworkError Prepared
  | .bootstrap actor cmd => inTransaction (TaskCommands.bootstrap actor cmd)
  | .setBaseline actor cmd scope limit_minor expires_at =>
    inTransaction (TaskCommands.setBaseline actor scope limit_minor expires_at env cmd)
  | .registerTask actor cmd intent depends_on =>
    inTransaction (TaskCommands.registerTask svc env actor cmd intent depends_on)
  | .evaluate actor cmd task_id reconsider =>
    inTransaction (TaskCommands.evaluate svc env actor cmd task_id reconsider)
  | .openCase actor cmd scope kind evidence_digest =>
    inTransaction (CaseCommands.openCase svc env actor cmd scope kind evidence_digest)
  | .reopenCase actor cmd case_id evidence_digest =>
    inTransaction (CaseCommands.reopenCase svc actor cmd case_id evidence_digest)
  | .quarantineNote actor cmd scope text =>
    inTransaction (CaseCommands.quarantineNote actor cmd scope text)
  | .reserveAttempt actor cmd case_id snapshot =>
    CaseCommands.reserveAttempt svc env actor cmd case_id snapshot
  | .investigate actor cmd case_id snapshot planning =>
    CaseCommands.investigate svc env actor cmd case_id snapshot planning
  | .handoff actor cmd case_id report_id reviewer_id =>
    inTransaction (CaseCommands.handoff svc env actor cmd case_id report_id reviewer_id)
  | .acceptHandoff actor cmd handoff_id =>
    inTransaction (CaseCommands.acceptHandoff svc env actor cmd handoff_id)
  | .resolve actor cmd case_id handoff_id resolution evidence_digest =>
    inTransaction
      (CaseCommands.resolve svc env actor cmd case_id handoff_id resolution evidence_digest)
  | .prepareReview actor cmd task_id decision_id =>
    inTransaction (TaskCommands.prepareReview env actor cmd task_id decision_id)
  | .prepareAnchor actor cmd task_id decision_id =>
    inTransaction (PartnerCommands.prepareAnchor svc env actor cmd task_id decision_id)
  | .verifyAnchor actor cmd snapshot anchor_id tx_hash verified =>
    PartnerCommands.verifyAnchor svc actor cmd snapshot anchor_id tx_hash verified
  | .reserveSource actor cmd desk case_id source_id resource snapshot force_refresh =>
    inTransaction (SourceCommands.reserveSource desk env actor cmd case_id source_id resource
      snapshot force_refresh)
  | .finishSource actor cmd desk case_id source_id resource snapshot fetched expected_revision =>
    inTransaction (SourceCommands.finishSource desk env actor cmd case_id source_id resource
      snapshot fetched expected_revision)
  | .planMission actor cmd desk case_id queries reviewer_id =>
    inTransaction (SourceCommands.planMission desk svc actor cmd case_id queries reviewer_id)
  | .resumeMission actor cmd snapshot mission_id =>
    inTransaction (SourceCommands.resumeMission actor cmd snapshot mission_id)
  | .ingest incidents delivery expected_revision =>
    inTransaction (PartnerCommands.ingest svc env incidents delivery expected_revision)
  | .preparePlan actor cmd partner case_id report_id =>
    inTransaction (PartnerCommands.preparePlan svc partner env actor cmd case_id report_id)
  | .verifyPlan actor cmd partner snapshot plan_id job_id history =>
    PartnerCommands.verifyPlan svc partner env actor cmd snapshot plan_id job_id history

def exec (svc : Service) (env : Environment) (store : Option Workspace) (call : Call) :
    Except CaseworkError (Option Workspace × Response) := do
  match ← call.prepare svc env with
  | .answered response => return (store, response)
  | .transaction tx => mutate svc env store tx

/-- One executed call. -/
structure Step where
  svc : Service
  env : Environment
  call : Call
  pre : Option Workspace
  post : Option Workspace
  response : Response

/-- The identifiers that a command draws are new to every map of the workspace. -/
structure Fresh (env : Environment) (state : Workspace) : Prop where
  cases : ∀ stem, state.cases.get? (env.fresh stem) = none
  tasks : ∀ stem, state.tasks.get? (env.fresh stem) = none
  decisions : ∀ stem, state.decisions.get? (env.fresh stem) = none
  reports : ∀ stem, state.reports.get? (env.fresh stem) = none
  handoffs : ∀ stem, state.handoffs.get? (env.fresh stem) = none
  lessons : ∀ stem, state.lessons.get? (env.fresh stem) = none
  artifacts : ∀ stem, state.artifacts.get? (env.fresh stem) = none

/-- A step that changed the store, as opposed to one that repeated an answer. -/
def Step.Committed (s : Step) : Prop := s.response.replayed = false

/-- The incident sources of an ingress act for an operator of their subject; an
ingress that fails this check is not built. -/
def Installed (svc : Service) (incidents : List IncidentSpec) : Prop :=
  ∀ spec ∈ incidents, ∃ actor, svc.actors.get? spec.actor_id = some actor ∧
    authorize actor operators (some spec.scope.subject_id) = .ok ()

/-- What a call rests on: the workspace it read was stored, and one that spans
transactions goes on from its own earlier ones. -/
structure Grounded (steps : List Step) (svc : Service) (call : Call) : Prop where
  observed : ∀ w, call.snapshot = some w → ∃ t ∈ steps, t.post = some w
  claimed : ∀ actor cmd case_id snapshot planning,
    call = .investigate actor cmd case_id snapshot planning → planning.status ≠ .deterministic →
      ∃ t ∈ steps, t.Committed ∧ t.call = .reserveAttempt actor cmd case_id snapshot
  reserved : ∀ actor cmd desk case_id source_id resource snapshot fetched expected_revision,
    call = .finishSource actor cmd desk case_id source_id resource snapshot fetched
      expected_revision →
      ∃ t ∈ steps, t.Committed ∧ (∃ request_id, t.response.result = .sourceReserved request_id) ∧
        ∃ force_refresh, t.call = .reserveSource actor cmd desk case_id source_id resource
          snapshot force_refresh
  installed : ∀ incidents delivery expected_revision,
    call = .ingest incidents delivery expected_revision → Installed svc incidents

structure Allowed (steps : List Step) (s : Step) : Prop extends
    Grounded steps s.svc s.call where
  fresh : ∀ state, s.pre = some state → Fresh s.env state
  executed : exec s.svc s.env s.pre s.call = .ok (s.post, s.response)

/-- The store of one tenant. -/
def casework : System (Option Workspace) Step where
  init := none
  pre := Step.pre
  post := Step.post
  allowed := Allowed

/-- A workspace that some run leaves in the store. -/
def Reachable (state : Workspace) : Prop := ∃ steps, Run casework steps (some state)

end MemoryGuard.Calls
