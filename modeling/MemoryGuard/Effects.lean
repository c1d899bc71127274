import MemoryGuard.CaseEffects

/-!
One step of a run, read backwards. A step repeats a stored answer and leaves
the store alone, or it commits: its change ran on the stored workspace, and
what that change did is one of a few effects. Later proofs go by these effects
and never unfold a command.
-/
namespace MemoryGuard.Effects

open OrderedDict Guarded DependencyGraph JsonText ContentHash Models Artifacts Aggregate Core
open Closure SourceModels SourceState SourceGuard SourceService Transactions TaskCommands
open CaseCommands SourceCommands PartnerCommands Traces Calls Floors Filing
open EvidenceEffects TaskEffects CaseEffects

variable [Sha256]

section Steps

/-- A step that committed, with the workspace it ran on, its transaction and
what its change made. -/
structure Commits (s : Step) (w : Workspace) (tx : Transaction) (m : Workspace)
    (result : Result) : Prop where
  prepared : s.call.prepare s.svc s.env = .ok (.transaction tx)
  loaded : loaded s.pre tx = .ok w
  valid : validateWorkspace w = .ok ()
  tenant : w.tenant_id = tx.actor.tenant_id
  new : w.idempotency.get? tx.key = none
  changed : tx.change w (w.revision + 1) = .ok (m, result)
  saved : save s.svc (recorded s.env w m tx result) = .ok ()
  post : s.post = some (recorded s.env w m tx result)
  response : s.response = answer (auditEvent s.env w tx result) result

/-- A step that repeated the answer of an earlier commit. -/
structure Replays (s : Step) (w : Workspace) (tx : Transaction) (previous : IdempotencyEntry) :
    Prop where
  prepared : s.call.prepare s.svc s.env = .ok (.transaction tx)
  loaded : loaded s.pre tx = .ok w
  stored : w.idempotency.get? tx.key = some previous
  replayed : replay s.env w tx previous = .ok s.response
  post : s.post = s.pre

theorem replay_replayed {env : Environment} {w : Workspace} {tx : Transaction}
    {previous : IdempotencyEntry} {response : Response}
    (h : replay env w tx previous = .ok response) : response.replayed = true := by
  simp only [replay, bind_eq_ok] at h
  obtain ⟨_, _, h⟩ := h
  split at h
  · simp only [bind_eq_ok, pure_eq_ok] at h
    obtain ⟨_, _, rfl⟩ := h
    rfl
  · simp only [pure_eq_ok] at h
    exact h ▸ rfl

/-- An executed step commits, replays a stored answer, or was answered before
any transaction. -/
theorem exec_cases {s : Step} (h : exec s.svc s.env s.pre s.call = .ok (s.post, s.response)) :
    (∃ w tx m result, Commits s w tx m result) ∨ (∃ w tx previous, Replays s w tx previous) ∨
      (s.call.prepare s.svc s.env = .ok (.answered s.response) ∧ s.post = s.pre) := by
  simp only [exec, bind_eq_ok] at h
  obtain ⟨prepared, hprepared, h⟩ := h
  cases prepared with
  | answered response =>
    simp only [pure_eq_ok, Prod.mk.injEq] at h
    obtain ⟨hpost, rfl⟩ := h
    exact Or.inr (Or.inr ⟨hprepared, hpost.symm⟩)
  | transaction tx =>
    simp only [mutate, bind_eq_ok, ensure_eq_ok] at h
    obtain ⟨w, hloaded, _, hvalid, _, htenant, _, _, h⟩ := h
    split at h
    · rename_i previous hprevious
      simp only [bind_eq_ok, pure_eq_ok, Prod.mk.injEq] at h
      obtain ⟨response, hreplay, hpost, rfl⟩ := h
      exact Or.inr (Or.inl ⟨w, tx, previous, hprepared, hloaded, hprevious, hreplay, hpost.symm⟩)
    · rename_i hnew
      simp only [bind_eq_ok, pure_eq_ok, Prod.mk.injEq] at h
      obtain ⟨_, _, ⟨m, result⟩, hchange, _, hsave, hpost, hresponse⟩ := h
      exact Or.inl ⟨w, tx, m, result, hprepared, hloaded, hvalid, htenant, hnew, hchange, hsave,
        hpost.symm, hresponse.symm⟩

theorem openInvestigation_answered {svc : Service} {env : Environment} {actor : Actor}
    {cmd : Command} {case_id : Identifier} {snapshot : Workspace} {response : Response}
    (h : openInvestigation svc env actor cmd case_id snapshot = .ok (.inl response)) :
    response.replayed = true := by
  simp only [openInvestigation, bind_eq_ok] at h
  obtain ⟨_, _, _, _, _, _, case, _, h⟩ := h
  split at h
  · simp only [bind_eq_ok, pure_eq_ok, Sum.inl.injEq] at h
    obtain ⟨_, _, rfl⟩ := h
    rfl
  · split at h
    · simp only [bind_eq_ok, throw_ne_ok, false_and, and_false, exists_false] at h
    · simp only [bind_eq_ok, throw_ne_ok, false_and, exists_false] at h
    · simp only [bind_eq_ok] at h
      obtain ⟨_, _, _, _, _, _, basis, _, h⟩ := h
      split at h
      · simp only [pure_bind, pure_eq_ok, reduceCtorEq] at h
      · simp only [bind_eq_ok] at h
        obtain ⟨external, _, h⟩ := h
        split at h
        · simp only [pure_eq_ok, reduceCtorEq] at h
        · simp only [bind_eq_ok, pure_eq_ok, reduceCtorEq, and_false, exists_false] at h

omit [Sha256] in
theorem inTransaction_ok {request : Except CaseworkError Transaction} {p : Prepared}
    (h : inTransaction request = .ok p) : ∃ tx, request = .ok tx ∧ p = .transaction tx := by
  simp only [inTransaction, bind_eq_ok, pure_eq_ok] at h
  obtain ⟨tx, hrequest, rfl⟩ := h
  exact ⟨tx, hrequest, rfl⟩

theorem reserveAttempt_ok {svc : Service} {env : Environment} {actor : Actor} {cmd : Command}
    {case_id : Identifier} {snapshot : Workspace} {p : Prepared}
    (h : reserveAttempt svc env actor cmd case_id snapshot = .ok p) :
    (∃ response, p = .answered response ∧ response.replayed = true) ∨
      ∃ inquiry command payload relevant, p = .transaction ⟨actor, command, "investigation.reserve",
        payload, reserveAttemptChange env actor cmd case_id inquiry, false, relevant⟩ := by
  simp only [reserveAttempt, bind_eq_ok] at h
  obtain ⟨opened, hopened, h⟩ := h
  split at h
  · simp only [pure_eq_ok] at h
    exact Or.inl ⟨_, h.symm, openInvestigation_answered hopened⟩
  · simp only [pure_eq_ok] at h
    exact Or.inr ⟨_, _, _, _, h.symm⟩

theorem investigate_ok {svc : Service} {env : Environment} {actor : Actor} {cmd : Command}
    {case_id : Identifier} {snapshot : Workspace} {planning : Planning} {p : Prepared}
    (h : investigate svc env actor cmd case_id snapshot planning = .ok p) :
    (∃ response, p = .answered response ∧ response.replayed = true) ∨
      ∃ inquiry report, Captured svc env snapshot case_id inquiry ∧
        draftReport env actor case_id snapshot inquiry planning = .ok report ∧
        p = .transaction ⟨actor, cmd, "case.investigate", [("case_id", .str case_id)],
          investigateChange svc env actor cmd case_id report inquiry.external
            (planning.status ≠ .deterministic), false, some (case_id, inquiry.basis)⟩ := by
  simp only [investigate, bind_eq_ok] at h
  obtain ⟨opened, hopened, h⟩ := h
  split at h
  · simp only [pure_eq_ok] at h
    exact Or.inl ⟨_, h.symm, openInvestigation_answered hopened⟩
  · simp only [bind_eq_ok, pure_eq_ok] at h
    obtain ⟨report, hreport, h⟩ := h
    exact Or.inr ⟨_, report, openInvestigation_ok hopened, hreport, h.symm⟩

theorem verifyPlan_ok {svc : Service} {env : Environment} {actor : Actor} {cmd : Command}
    {partner : Option SourceModels.VirtualsSpec} {snapshot : Workspace} {plan_id : Identifier}
    {job_id : String} {history : Except String (List (String × Json))} {p : Prepared}
    (h : verifyPlan svc partner env actor cmd snapshot plan_id job_id history = .ok p) :
    (∃ response, p = .answered response ∧ response.replayed = true) ∨
      ∃ spec plan payload, p = .transaction ⟨actor, cmd, "acp.verify", payload,
        verifyPlanChange svc env actor spec plan plan_id job_id history, false, none⟩ := by
  simp only [verifyPlan, bind_eq_ok] at h
  obtain ⟨_, _, _, _, _, _, plan, _, case, _, spec, _, _, _, _, _, h⟩ := h
  split at h
  · simp only [bind_eq_ok, pure_eq_ok] at h
    obtain ⟨_, _, h⟩ := h
    exact Or.inl ⟨_, h.symm, rfl⟩
  · simp only [bind_eq_ok, pure_eq_ok] at h
    obtain ⟨_, _, h⟩ := h
    exact Or.inr ⟨spec, plan, _, h.symm⟩

theorem verifyAnchor_ok {svc : Service} {actor : Actor} {cmd : Command} {snapshot : Workspace}
    {anchor_id tx_hash : String} {verified : Except CaseworkError Verification} {p : Prepared}
    (h : verifyAnchor svc actor cmd snapshot anchor_id tx_hash verified = .ok p) :
    (∃ response, p = .answered response ∧ response.replayed = true) ∨
      ∃ plan seen payload, p = .transaction ⟨actor, cmd, "anchor.verify", payload,
        verifyAnchorChange plan anchor_id tx_hash.toLower seen, false, none⟩ := by
  simp only [verifyAnchor, bind_eq_ok] at h
  obtain ⟨_, _, _, _, _, _, _, _, record, _, task, _, _, _, h⟩ := h
  split at h
  · simp only [bind_eq_ok, pure_eq_ok] at h
    obtain ⟨_, _, h⟩ := h
    exact Or.inl ⟨_, h.symm, rfl⟩
  · simp only [bind_eq_ok, pure_eq_ok] at h
    obtain ⟨_, _, _, _, seen, _, h⟩ := h
    exact Or.inr ⟨_, seen, _, h.symm⟩

/-- An answer given before any transaction repeats a stored one. -/
theorem answered_replayed {svc : Service} {env : Environment} {call : Call} {response : Response}
    (h : call.prepare svc env = .ok (.answered response)) : response.replayed = true := by
  have hplain : ∀ request, inTransaction request ≠ .ok (.answered response) := by
    intro request hrequest
    obtain ⟨tx, _, htx⟩ := inTransaction_ok hrequest
    cases htx
  have hopt : ∀ {q : Prop}, (∃ r, Prepared.answered response = .answered r ∧ r.replayed = true) ∨ q →
      (q → response.replayed = true) → response.replayed = true := by
    rintro q (⟨r, hr, hreplayed⟩ | hq) hrest
    · cases hr
      exact hreplayed
    · exact hrest hq
  cases call with
  | reserveAttempt actor cmd case_id snapshot =>
    refine hopt (reserveAttempt_ok h) ?_
    rintro ⟨_, _, _, _, htx⟩
    cases htx
  | investigate actor cmd case_id snapshot planning =>
    refine hopt (investigate_ok h) ?_
    rintro ⟨_, _, _, _, htx⟩
    cases htx
  | verifyAnchor actor cmd snapshot anchor_id tx_hash verified =>
    refine hopt (verifyAnchor_ok h) ?_
    rintro ⟨_, _, _, htx⟩
    cases htx
  | verifyPlan actor cmd partner snapshot plan_id job_id history =>
    refine hopt (verifyPlan_ok h) ?_
    rintro ⟨_, _, _, htx⟩
    cases htx
  | _ => exact absurd h (hplain _)

/-- A step that did not commit left the store as it was. -/
theorem committed_cases {s : Step}
    (h : exec s.svc s.env s.pre s.call = .ok (s.post, s.response)) :
    (s.Committed ∧ ∃ w tx m result, Commits s w tx m result) ∨ (¬ s.Committed ∧ s.post = s.pre) := by
  unfold Step.Committed
  rcases exec_cases h with ⟨w, tx, m, result, hc⟩ | ⟨w, tx, previous, hr⟩ | ⟨ha, hpost⟩
  · refine Or.inl ⟨?_, w, tx, m, result, hc⟩
    rw [hc.response]
    rfl
  · exact Or.inr ⟨by simp [replay_replayed hr.replayed], hr.post⟩
  · exact Or.inr ⟨by simp [answered_replayed ha], hpost⟩

end Steps

section Effects

/-- The calls that neither decide a task nor change what is known of a scope. -/
def Plain : Call → Prop
  | .setBaseline .. => False
  | .registerTask .. => False
  | .evaluate .. => False
  | .openCase .. => False
  | .reopenCase .. => False
  | .resolve .. => False
  | .ingest .. => False
  | _ => True

/-- What a commit of a call makes of the workspace, before it is recorded. -/
inductive Effect (svc : Service) (env : Environment) (w : Workspace) : Call → Workspace → Result → Prop
  | filed {call : Call} {m : Workspace} {r : Result} (plain : Plain call)
      (none : r.affected_tasks = [])
      (files : Files w m) : Effect svc env w call m r
  | reserved {actor : Actor} {cmd : Command} {desk : EvidenceDesk}
      {case_id source_id : Identifier} {resource : String} {snapshot : Workspace}
      {force_refresh : Bool} {m : Workspace} {r : Result} {q : SourceRequest} {head : SourceHead}
      (none : r.affected_tasks = []) (reserves : Reserves actor cmd w m q head)
      (case : q.case_id = case_id) (source : q.source_id = source_id) :
      Effect svc env w (.reserveSource actor cmd desk case_id source_id resource snapshot
        force_refresh) m r
  | investigated {actor : Actor} {cmd : Command} {case_id : Identifier} {snapshot : Workspace}
      {planning : Planning} {m : Workspace} {r : Result} {inquiry : Inquiry} {report : Report}
      (none : r.affected_tasks = []) (captured : Captured svc env snapshot case_id inquiry)
      (drafted : draftReport env actor case_id snapshot inquiry planning = .ok report)
      (investigates : Investigates w m report inquiry.external) :
      Effect svc env w (.investigate actor cmd case_id snapshot planning) m r
  | handedOff {actor : Actor} {cmd : Command} {case_id report_id reviewer_id : Identifier}
      {m : Workspace} {r : Result} {h : Handoff} (none : r.affected_tasks = [])
      (handsOff : HandsOff w m h) :
      Effect svc env w (.handoff actor cmd case_id report_id reviewer_id) m r
  | accepted {actor : Actor} {cmd : Command} {handoff_id : Identifier} {m : Workspace}
      {r : Result} {h : Handoff} (none : r.affected_tasks = [])
      (accepts : Accepts w m handoff_id h) :
      Effect svc env w (.acceptHandoff actor cmd handoff_id) m r
  | evaluated {actor : Actor} {cmd : Command} {task_id : Identifier} {reconsider : Bool}
      {m : Workspace} {r : Result} {task : Task} {d : Decision} (none : r.affected_tasks = [])
      (role : reconsider = true → actor.role = .reviewer) (tenant : actor.tenant_id = w.tenant_id)
      (about : task.task_id = task_id)
      (decides : Decides env actor (w.revision + 1) w m task reconsider d) :
      Effect svc env w (.evaluate actor cmd task_id reconsider) m r
  | registered {actor : Actor} {cmd : Command} {intent : Intent} {depends_on : List Identifier}
      {m : Workspace} {r : Result} {task : Task} {d : Decision} (none : r.affected_tasks = [])
      (tenant : actor.tenant_id = w.tenant_id) (intends : task.intent = intent)
      (new : NewTask w task)
      (decides : Decides env actor (w.revision + 1) (storeTask w task) m task false d) :
      Effect svc env w (.registerTask actor cmd intent depends_on) m r
  | baselineSet {actor : Actor} {cmd : Command} {scope : Scope} {limit_minor : Minor}
      {expires_at : Instant} {m : Workspace} {r : Result} {b : Baseline}
      (affected : r.affected_tasks = affectedTasks w scope)
      (sets : SetsBaseline (w.revision + 1) scope w m b) :
      Effect svc env w (.setBaseline actor cmd scope limit_minor expires_at) m r
  | opened {actor : Actor} {cmd : Command} {scope : Scope} {kind : RiskKind}
      {evidence_digest : Digest} {m : Workspace} {r : Result} {c : RiskCase}
      (affected : r.affected_tasks = affectedTasks w scope) (about : c.scope = scope)
      (opens : OpensCase (w.revision + 1) w m c) :
      Effect svc env w (.openCase actor cmd scope kind evidence_digest) m r
  | ingested {incidents : List IncidentSpec} {delivery : Delivery} {expected_revision : ℕ}
      {m : Workspace} {r : Result} {spec : IncidentSpec} {c : RiskCase}
      (accepted : incidents.find? (fun s => s.source_id = delivery.source_id) = some spec)
      (affected : r.affected_tasks = affectedTasks w spec.scope) (about : c.scope = spec.scope)
      (opens : OpensCase (w.revision + 1) w m c) :
      Effect svc env w (.ingest incidents delivery expected_revision) m r
  | reopened {actor : Actor} {cmd : Command} {case_id : Identifier} {evidence_digest : Digest}
      {m : Workspace} {r : Result} {old c : RiskCase}
      (affected : r.affected_tasks = affectedTasks w old.scope)
      (reopens : ReopensCase (w.revision + 1) w m case_id old c) :
      Effect svc env w (.reopenCase actor cmd case_id evidence_digest) m r
  | resolved {actor : Actor} {cmd : Command} {case_id handoff_id : Identifier}
      {resolution : Resolution} {evidence_digest : Digest} {m : Workspace} {r : Result}
      {old : RiskCase} {handoff : Handoff} {report : Report}
      (affected : r.affected_tasks = affectedTasks w old.scope)
      (resolves : ResolvesCase svc env actor (w.revision + 1) w m case_id handoff_id resolution
        evidence_digest old handoff report) :
      Effect svc env w (.resolve actor cmd case_id handoff_id resolution evidence_digest) m r

omit [Sha256] in
theorem inTransaction_transaction {request : Except CaseworkError Transaction} {tx : Transaction}
    (h : inTransaction request = .ok (.transaction tx)) : request = .ok tx := by
  obtain ⟨tx', hrequest, htx⟩ := inTransaction_ok h
  cases htx
  exact hrequest

/-- A change that succeeds for a new request has one of the effects. -/
theorem effect_of_change [CollisionFree] {svc : Service} {env : Environment} {call : Call}
    {w m : Workspace} {tx : Transaction} {result : Result}
    (hp : call.prepare svc env = .ok (.transaction tx)) (htenant : w.tenant_id = tx.actor.tenant_id)
    (hnew : w.idempotency.get? tx.key = none)
    (h : tx.change w (w.revision + 1) = .ok (m, result)) (ha : Archived w) (hk : TasksKept w)
    (hfresh : Fresh env w) : Effect svc env w call m result := by
  cases call with
  | bootstrap actor cmd =>
    have hp := inTransaction_transaction hp
    simp only [TaskCommands.bootstrap, bind_eq_ok, pure_eq_ok] at hp
    obtain ⟨_, _, rfl⟩ := hp
    simp only [pure_eq_ok, Prod.mk.injEq] at h
    obtain ⟨rfl, rfl⟩ := h
    exact .filed trivial rfl (.unchanged _)
  | setBaseline actor cmd scope limit_minor expires_at =>
    have hp := inTransaction_transaction hp
    simp only [setBaseline, bind_eq_ok, pure_eq_ok] at hp
    obtain ⟨_, _, _, _, rfl⟩ := hp
    obtain ⟨haffected, b, hb⟩ := setBaselineChange_effect h
    exact .baselineSet haffected hb
  | registerTask actor cmd intent depends_on =>
    have hp := inTransaction_transaction hp
    simp only [registerTask, bind_eq_ok, pure_eq_ok] at hp
    obtain ⟨_, _, rfl⟩ := hp
    obtain ⟨hnone, task, d, _, hintent, hid, hnewTask, hdecides⟩ :=
      registerTaskChange_effect (hfresh.tasks "task") h
    exact .registered hnone htenant.symm hintent hnewTask hdecides
  | evaluate actor cmd task_id reconsider =>
    have hp := inTransaction_transaction hp
    simp only [evaluate, authorize, bind_eq_ok, ensure_eq_ok, pure_eq_ok] at hp
    obtain ⟨_, ⟨hrole, _⟩, rfl⟩ := hp
    obtain ⟨hnone, task, d, _, habout, hdecides⟩ := evaluateChange_effect hk h
    refine .evaluated hnone ?_ htenant.symm habout hdecides
    rintro rfl
    simpa using hrole
  | openCase actor cmd scope kind evidence_digest =>
    have hp := inTransaction_transaction hp
    simp only [openCase, bind_eq_ok, pure_eq_ok] at hp
    obtain ⟨_, _, rfl⟩ := hp
    obtain ⟨haffected, hopens⟩ := openCaseChange_effect ha (hfresh.cases "case") h
    exact .opened haffected rfl hopens
  | reopenCase actor cmd case_id evidence_digest =>
    have hp := inTransaction_transaction hp
    simp only [reopenCase, bind_eq_ok, pure_eq_ok] at hp
    obtain ⟨_, _, rfl⟩ := hp
    obtain ⟨old, c, haffected, hreopens⟩ := reopenCaseChange_effect ha h
    exact .reopened haffected hreopens
  | quarantineNote actor cmd scope text =>
    have hp := inTransaction_transaction hp
    simp only [quarantineNote, bind_eq_ok, pure_eq_ok] at hp
    obtain ⟨_, _, rfl⟩ := hp
    simp only [pure_eq_ok, Prod.mk.injEq] at h
    obtain ⟨rfl, rfl⟩ := h
    exact .filed trivial rfl (.unchanged _)
  | reserveAttempt actor cmd case_id snapshot =>
    rcases reserveAttempt_ok hp with ⟨_, htx, _⟩ | ⟨inquiry, _, _, _, htx⟩
    · cases htx
    · cases htx
      obtain ⟨hfiles, hnone⟩ := reserveAttemptChange_files (w.revision + 1) h
      exact .filed trivial hnone hfiles
  | investigate actor cmd case_id snapshot planning =>
    rcases investigate_ok hp with ⟨_, htx, _⟩ | ⟨inquiry, report, hcaptured, hreport, htx⟩
    · cases htx
    · cases htx
      obtain ⟨hnone, hinv⟩ :=
        investigateChange_effect (w.revision + 1) ha (hfresh.reports "report") hcaptured hreport h
      exact .investigated hnone hcaptured hreport hinv
  | handoff actor cmd case_id report_id reviewer_id =>
    have hp := inTransaction_transaction hp
    simp only [handoff, bind_eq_ok, pure_eq_ok] at hp
    obtain ⟨_, _, rfl⟩ := hp
    obtain ⟨hnone, _, hhands⟩ := handoffChange_effect (w.revision + 1) (hfresh.handoffs "handoff") h
    exact .handedOff hnone hhands
  | acceptHandoff actor cmd handoff_id =>
    have hp := inTransaction_transaction hp
    simp only [acceptHandoff, bind_eq_ok, pure_eq_ok] at hp
    obtain ⟨_, _, rfl⟩ := hp
    obtain ⟨hnone, _, haccepts⟩ := acceptHandoffChange_effect (w.revision + 1) h
    exact .accepted hnone haccepts
  | resolve actor cmd case_id handoff_id resolution evidence_digest =>
    have hp := inTransaction_transaction hp
    simp only [resolve, bind_eq_ok, pure_eq_ok] at hp
    obtain ⟨_, _, rfl⟩ := hp
    obtain ⟨old, handoff, report, haffected, hresolves⟩ := resolveChange_effect ha h
    exact .resolved haffected hresolves
  | prepareReview actor cmd task_id decision_id =>
    have hp := inTransaction_transaction hp
    simp only [prepareReview, bind_eq_ok, pure_eq_ok] at hp
    obtain ⟨_, _, rfl⟩ := hp
    obtain ⟨hfiles, hnone⟩ := prepareReviewChange_files (w.revision + 1) h
    exact .filed trivial hnone hfiles
  | prepareAnchor actor cmd task_id decision_id =>
    have hp := inTransaction_transaction hp
    simp only [prepareAnchor, bind_eq_ok, pure_eq_ok] at hp
    obtain ⟨_, _, _, _, rfl⟩ := hp
    obtain ⟨hfiles, hnone⟩ := prepareAnchorChange_files (w.revision + 1) h
    exact .filed trivial hnone hfiles
  | verifyAnchor actor cmd snapshot anchor_id tx_hash verified =>
    rcases verifyAnchor_ok hp with ⟨_, htx, _⟩ | ⟨plan, seen, _, htx⟩
    · cases htx
    · cases htx
      obtain ⟨hfiles, hnone⟩ := verifyAnchorChange_files (w.revision + 1) ha.filed h
      exact .filed trivial hnone hfiles
  | reserveSource actor cmd desk case_id source_id resource snapshot force_refresh =>
    have hp := inTransaction_transaction hp
    simp only [reserveSource, bind_eq_ok, pure_eq_ok] at hp
    obtain ⟨acq, hacq, rfl⟩ := hp
    have hunused : ∀ q, w.artifacts.get? (fetchId actor cmd) ≠ some (.request q) := by
      intro q hq
      obtain ⟨e, he⟩ := ha.requested actor cmd q hq
      exact absurd (hnew.symm.trans he) (by simp)
    obtain ⟨hnone, hfiles | ⟨q, head, hreserves, hcase, hsource⟩⟩ :=
      reserveChange_effect (w.revision + 1) ha hunused h
    · exact .filed trivial hnone hfiles
    · exact .reserved hnone hreserves hcase (hsource.trans (openCollection_ok hacq))
  | finishSource actor cmd desk case_id source_id resource snapshot fetched expected_revision =>
    have hp := inTransaction_transaction hp
    simp only [finishSource, bind_eq_ok, pure_eq_ok] at hp
    obtain ⟨acq, _, rfl⟩ := hp
    obtain ⟨hfiles, hnone⟩ := finishChange_files (w.revision + 1) ha (hfresh.artifacts "source") h
    exact .filed trivial hnone hfiles
  | planMission actor cmd desk case_id queries reviewer_id =>
    have hp := inTransaction_transaction hp
    simp only [planMission, bind_eq_ok, pure_eq_ok] at hp
    obtain ⟨_, _, _, _, rfl⟩ := hp
    obtain ⟨hfiles, hnone⟩ := planMissionChange_files (w.revision + 1) ha h
    exact .filed trivial hnone hfiles
  | resumeMission actor cmd snapshot mission_id =>
    have hp := inTransaction_transaction hp
    simp only [resumeMission, bind_eq_ok] at hp
    obtain ⟨_, _, _, _, _, _, hp⟩ := hp
    split at hp
    · simp only [pure_bind, bind_eq_ok, pure_eq_ok] at hp
      obtain ⟨_, _, _, _, _, _, rfl⟩ := hp
      obtain ⟨hfiles, hnone⟩ := resumeChange_files (w.revision + 1) h
      exact .filed trivial hnone hfiles
    · simp only [bind_eq_ok, throw_ne_ok, false_and, exists_false] at hp
  | ingest incidents delivery expected_revision =>
    have hp := inTransaction_transaction hp
    simp only [ingest, bind_eq_ok, fetch_eq_ok, pure_eq_ok] at hp
    obtain ⟨spec, hspec, _, _, actor, _, rfl⟩ := hp
    obtain ⟨haffected, _, hopens⟩ := ingestChange_effect ha (hfresh.cases "case") h
    exact .ingested hspec haffected rfl hopens
  | preparePlan actor cmd partner case_id report_id =>
    have hp := inTransaction_transaction hp
    simp only [preparePlan, bind_eq_ok, pure_eq_ok] at hp
    obtain ⟨_, _, rfl⟩ := hp
    obtain ⟨hfiles, hnone⟩ := preparePlanChange_files (w.revision + 1) h
    exact .filed trivial hnone hfiles
  | verifyPlan actor cmd partner snapshot plan_id job_id history =>
    rcases verifyPlan_ok hp with ⟨_, htx, _⟩ | ⟨spec, plan, _, htx⟩
    · cases htx
    · cases htx
      obtain ⟨hfiles, hnone⟩ := verifyPlanChange_files (w.revision + 1) ha.filed h
      exact .filed trivial hnone hfiles

theorem effect_of_commits [CollisionFree] {s : Step} {w m : Workspace} {tx : Transaction}
    {result : Result} (hc : Commits s w tx m result) (ha : Archived w) (hk : TasksKept w)
    (hfresh : Fresh s.env w) : Effect s.svc s.env w s.call m result :=
  effect_of_change hc.prepared hc.tenant hc.new hc.changed ha hk hfresh

end Effects

end MemoryGuard.Effects
