import MemoryGuard.Frame
import MemoryGuard.Standing

/-!
The review gate. A review artifact is shown when it is prepared and again when
the same command is retried, and the two paths check different things. What the
second leaves out follows from the stored answer: it was given for a decision
that was READY, and a decision never changes. So both paths leave the same
guarantees at the moment of the answer.
-/
namespace MemoryGuard.ReviewGate

open OrderedDict Guarded DependencyGraph JsonText ContentHash Models Artifacts Aggregate Core
open Closure Policy Transactions TaskCommands CaseCommands SourceCommands PartnerCommands
open Traces Calls Filing EvidenceEffects TaskEffects CaseEffects Effects Growth Upkeep
open Lifecycle History Frame Standing

section Names

/-- The name under which a call is recorded. -/
def commandName : Call → String
  | .bootstrap .. => "bootstrap"
  | .setBaseline .. => "baseline.set"
  | .registerTask .. => "task.register"
  | .evaluate _ _ _ reconsider => if reconsider then "task.reconsider" else "task.evaluate"
  | .openCase .. => "case.open"
  | .reopenCase .. => "case.reopen"
  | .quarantineNote .. => "note.quarantine"
  | .reserveAttempt .. => "investigation.reserve"
  | .investigate .. => "case.investigate"
  | .handoff .. => "case.handoff"
  | .acceptHandoff .. => "handoff.accept"
  | .resolve .. => "case.resolve"
  | .prepareReview .. => "review.prepare"
  | .prepareAnchor .. => "anchor.prepare"
  | .verifyAnchor .. => "anchor.verify"
  | .reserveSource .. => "source.reserve"
  | .finishSource .. => "source.finish"
  | .planMission .. => "mission.plan"
  | .resumeMission .. => "mission.resume"
  | .ingest .. => "incident.ingest"
  | .preparePlan .. => "acp.prepare"
  | .verifyPlan .. => "acp.verify"

/-- Only a review preparation has its name. -/
theorem prepareReview_of_name {call : Call} (h : commandName call = "review.prepare") :
    ∃ actor cmd task_id decision_id, call = .prepareReview actor cmd task_id decision_id := by
  cases call with
  | prepareReview actor cmd task_id decision_id => exact ⟨actor, cmd, task_id, decision_id, rfl⟩
  | evaluate actor cmd task_id reconsider => cases reconsider <;> simp [commandName] at h
  | _ => simp [commandName] at h

variable [Sha256]

theorem prepare_name {svc : Service} {env : Environment} {call : Call} {tx : Transaction}
    (h : call.prepare svc env = .ok (.transaction tx)) : tx.name = commandName call := by
  cases call with
  | reserveAttempt actor cmd case_id snapshot =>
    rcases reserveAttempt_ok h with ⟨_, htx, _⟩ | ⟨_, _, _, _, htx⟩
    · cases htx
    · cases htx
      rfl
  | investigate actor cmd case_id snapshot planning =>
    rcases investigate_ok h with ⟨_, htx, _⟩ | ⟨_, _, _, _, htx⟩
    · cases htx
    · cases htx
      rfl
  | verifyAnchor actor cmd snapshot anchor_id tx_hash verified =>
    rcases verifyAnchor_ok h with ⟨_, htx, _⟩ | ⟨_, _, _, htx⟩
    · cases htx
    · cases htx
      rfl
  | verifyPlan actor cmd partner snapshot plan_id job_id history =>
    rcases verifyPlan_ok h with ⟨_, htx, _⟩ | ⟨_, _, _, htx⟩
    · cases htx
    · cases htx
      rfl
  | resumeMission actor cmd snapshot mission_id =>
    have h := inTransaction_transaction h
    simp only [resumeMission, bind_eq_ok] at h
    obtain ⟨_, _, _, _, _, _, h⟩ := h
    split at h
    · simp only [pure_bind, bind_eq_ok, pure_eq_ok] at h
      obtain ⟨_, _, _, _, _, _, rfl⟩ := h
      rfl
    · simp only [bind_eq_ok, throw_ne_ok, false_and, exists_false] at h
  | bootstrap actor cmd =>
    have h := inTransaction_transaction h
    simp only [TaskCommands.bootstrap, bind_eq_ok, pure_eq_ok] at h
    obtain ⟨_, _, rfl⟩ := h
    rfl
  | setBaseline actor cmd scope limit_minor expires_at =>
    have h := inTransaction_transaction h
    simp only [setBaseline, bind_eq_ok, pure_eq_ok] at h
    obtain ⟨_, _, _, _, rfl⟩ := h
    rfl
  | prepareAnchor actor cmd task_id decision_id =>
    have h := inTransaction_transaction h
    simp only [prepareAnchor, bind_eq_ok, pure_eq_ok] at h
    obtain ⟨_, _, _, _, rfl⟩ := h
    rfl
  | planMission actor cmd desk case_id queries reviewer_id =>
    have h := inTransaction_transaction h
    simp only [planMission, bind_eq_ok, pure_eq_ok] at h
    obtain ⟨_, _, _, _, rfl⟩ := h
    rfl
  | ingest incidents delivery expected_revision =>
    have h := inTransaction_transaction h
    simp only [ingest, bind_eq_ok, pure_eq_ok] at h
    obtain ⟨_, _, _, _, _, _, rfl⟩ := h
    rfl
  | _ =>
    have h := inTransaction_transaction h
    simp only [registerTask, evaluate, openCase, reopenCase, quarantineNote, handoff,
      acceptHandoff, resolve, prepareReview, reserveSource, finishSource, preparePlan,
      bind_eq_ok, pure_eq_ok] at h
    obtain ⟨_, _, rfl⟩ := h
    rfl

end Names

section Answers

variable [Sha256]

def reviewPayload (task_id decision_id : Identifier) : List (String × Json) :=
  [("task_id", .str task_id), ("decision_id", .str decision_id)]

/-- Every stored answer to a review was given for a READY decision of the task. -/
def Answered (w : Workspace) : Prop :=
  ∀ key entry actor session_id task_id decision_id, w.idempotency.get? key = some entry →
    entry.request_hash =
      requestHash actor session_id "review.prepare" (reviewPayload task_id decision_id) →
    ∃ d, w.decisions.get? decision_id = some d ∧ d.task_id = task_id ∧ d.verdict = .ready

/-- What a new preparation checks. -/
theorem prepareReviewChange_ok (seq : ℕ) {env : Environment} {actor : Actor}
    {task_id decision_id : Identifier} {w m : Workspace} {result : Result}
    (h : prepareReviewChange env actor task_id decision_id w seq = .ok (m, result)) :
    ∃ task d r, w.tasks.get? task_id = some task ∧ w.decisions.get? decision_id = some d ∧
      d.task_id = task_id ∧ task.current_decision_id = some decision_id ∧
      policyResult w task_id (env.clock .reviewPolicy) false = .ok r ∧ r.verdict = .ready ∧
      d.verdict = .ready ∧ env.clock .reviewExpiry < d.expires_at ∧
      taskBasis w task_id = .ok d.basis_hash ∧ m.tasks = w.tasks ∧
      m.decisions = w.decisions := by
  simp only [prepareReviewChange, bind_eq_ok, fetch_eq_ok, ensure_eq_ok, pure_eq_ok,
    Prod.mk.injEq] at h
  obtain ⟨task, htask, d, hd, _, ⟨hof, hcurrent⟩, r, hr, _, ⟨_, hverdict, hpolicy, hexpiry⟩,
    basis, hbasis, _, hsame, rfl, _⟩ := h
  exact ⟨task, d, r, findTask_ok htask, hd, hof, hcurrent, hr, hpolicy, hverdict, hexpiry,
    hsame ▸ hbasis, rfl, rfl⟩

/-- What a repeated preparation checks. -/
theorem recheckReview_ok {env : Environment} {w : Workspace} {tx : Transaction}
    (task_id decision_id : Identifier) {u : Unit}
    (hpayload : tx.payload = reviewPayload task_id decision_id) (hk : TasksKept w)
    (h : recheckReview env w tx = .ok u) :
    ∃ task d r, w.tasks.get? task_id = some task ∧ w.decisions.get? decision_id = some d ∧
      task.current_decision_id = some d.decision_id ∧
      policyResult w task_id (env.clock .replayPolicy) false = .ok r ∧ r.verdict = .ready ∧
      env.clock .replayExpiry < d.expires_at ∧ taskBasis w task_id = .ok d.basis_hash := by
  have htask_id : payloadText tx.payload "task_id" = some task_id := by
    rw [hpayload]
    rfl
  have hdecision_id : payloadText tx.payload "decision_id" = some decision_id := by
    rw [hpayload]
    rfl
  simp only [recheckReview, htask_id, hdecision_id, bind_eq_ok, fetch_eq_ok, ensure_eq_ok,
    Option.some.injEq] at h
  obtain ⟨_, rfl, _, rfl, task, htask, r, hr, d, hd, _, ⟨hcurrent, hpolicy, hexpiry⟩, basis,
    hbasis, hsame⟩ := h
  have hget := findTask_ok htask
  rw [hk.keyed _ _ hget] at hr hbasis
  exact ⟨task, d, r, hget, hd, hcurrent, hr, hpolicy, hexpiry, hsame ▸ hbasis⟩

variable [CollisionFree]

theorem requestHash_inj {actor actor' : Actor} {session_id session_id' : Identifier}
    {name name' : String} {payload payload' : List (String × Json)}
    (h : requestHash actor session_id name payload =
      requestHash actor' session_id' name' payload') :
    name = name' ∧ object payload = object payload' := by
  unfold requestHash at h
  simp only [digest_inj, true_and] at h
  have hfields := object_inj h rfl
  simp only [List.cons.injEq, Prod.mk.injEq, Json.str.injEq, true_and, and_true] at hfields
  exact ⟨hfields.1, hfields.2.2.2⟩

omit [Sha256] [CollisionFree] in
theorem reviewPayload_inj {t t' d d' : Identifier}
    (h : object (reviewPayload t d) = object (reviewPayload t' d')) : t = t' ∧ d = d' := by
  have hfields := object_inj h rfl
  simpa [reviewPayload] using hfields

theorem happened_answered {s : Step} {w m : Workspace} {tx : Transaction} {result : Result}
    (h : Happened s w tx m result) (hw : Answered w) :
    Answered (recorded s.env w m tx result) := by
  intro key entry actor session_id task_id decision_id hentry hhash
  rw [recorded_idempotency] at hentry
  split at hentry
  · cases hentry
    obtain ⟨hname, hpayload⟩ := requestHash_inj hhash
    rw [prepare_name h.commits.prepared] at hname
    obtain ⟨actor', cmd, t, id, hcall⟩ := prepareReview_of_name hname
    have hp := h.commits.prepared
    rw [hcall] at hp
    have hp := inTransaction_transaction hp
    simp only [prepareReview, bind_eq_ok, pure_eq_ok] at hp
    obtain ⟨_, _, rfl⟩ := hp
    obtain ⟨rfl, rfl⟩ := reviewPayload_inj hpayload
    obtain ⟨_, d, _, _, hd, hof, _, _, _, hverdict, _, _, _, hdecisions⟩ :=
      prepareReviewChange_ok (w.revision + 1) h.commits.changed
    exact ⟨d, (congrArg (fun x => x.get? id) hdecisions).trans hd, hof, hverdict⟩
  · obtain ⟨d, hd, hof, hverdict⟩ :=
      hw key entry actor session_id task_id decision_id hentry hhash
    exact ⟨d, (happened_grows h).decisions _ d hd, hof, hverdict⟩

theorem answered_of_run {steps : List Step} {st : Option Workspace}
    (h : Run casework steps st) : ∀ w, st = some w → Answered w := by
  refine invariant_of_run Answered ?_ ?_ h
  · intro tenant_id key entry _ _ _ _ hentry
    simp [sealed, Workspace.blank] at hentry
  · exact fun s w tx m result hh hw => happened_answered hh hw

end Answers

section Gate

variable [Sha256]

/-- The current decision of a task is READY, unexpired and bound to its basis. -/
structure Proven (w : Workspace) (time : Instant) (a : Identifier) (task : Task)
    (id : Identifier) : Prop where
  current : task.current_decision_id = some id
  decision : ∃ d, w.decisions.get? id = some d ∧ d.task_id = a ∧ d.verdict = .ready ∧
    time < d.expires_at ∧ taskBasis w a = .ok d.basis_hash

/-- What an answer to a review preparation guarantees of the stored workspace. -/
structure Gate (w : Workspace) (time : Instant) (t id : Identifier) : Prop where
  proven : ∃ task, w.tasks.get? t = some task ∧ task.taints.entries = [] ∧
    Proven w time t task id
  unblocked : ∀ k c a task, w.cases.get? k = some c → c.status = .opened → ReliesOn w t a →
    w.tasks.get? a = some task → c.scope ≠ task.intent.scope
  covered : ∀ a task, ReliesOn w t a → w.tasks.get? a = some task →
    ∃ b, w.baselines.get? (scopeKey task.intent.scope) = some b ∧
      b.scope = task.intent.scope ∧ time < b.expires_at ∧
      task.intent.amount_minor.value ≤ b.limit_minor.value
  parents : ∀ a task, ReliesOn w t a → a ≠ t → w.tasks.get? a = some task →
    task.status = .ready ∧ task.taints.entries = [] ∧ ∃ id, Proven w time a task id

variable {w : Workspace} {time : Instant} {t id : Identifier} {task : Task} {d : Decision}

theorem parentProven_proven {a : Identifier} (hw : Shaped w) (h : ParentProven w time a task) :
    ∃ id, Proven w time a task id := by
  obtain ⟨_, _, d, hd, hverdict, hof, hexpiry, hbasis⟩ := h
  have hd : currentDecision w task = some d := hd
  unfold currentDecision at hd
  cases hcurrent : task.current_decision_id with
  | none =>
    rw [hcurrent] at hd
    exact absurd rfl (hw.decisions _ _ hd).2
  | some id =>
    rw [hcurrent] at hd
    exact ⟨id, hcurrent, d, hd, hof, hverdict, hexpiry, hbasis⟩

variable [CollisionFree]

theorem gate_of_ready (hw : Shaped w) (ht : w.tasks.get? t = some task)
    (hproven : Proven w time t task id) {r : PolicyResult}
    (hr : policyResult w t time false = .ok r) (hready : r.verdict = .ready) :
    Gate w time t id := by
  obtain ⟨task', closure, ht', hclosure, rfl⟩ := policyResult_ok hr
  rw [ht] at ht'
  cases ht'
  obtain ⟨hunblocked, hcovered, hparents, hclean⟩ := judge_ready_iff.mp hready
  have hmem : ∀ a atask, ReliesOn w t a → w.tasks.get? a = some atask →
      (a, atask) ∈ closureTasks w closure :=
    fun a atask ha hget => mem_closureTasks.mpr ⟨(mem_ancestors hclosure).mpr ha, hget⟩
  refine ⟨⟨task, ht, ?_, hproven⟩, ?_, ?_, ?_⟩
  · simpa [Dict.isEmpty] using hclean
  · intro k c a atask hc hopen ha hget hscope
    exact unblocked_of_openCases hclosure hunblocked k c hc hopen
      ⟨a, atask, ha, hget, congrArg scopeKey hscope.symm⟩
  · intro a atask ha hget
    obtain ⟨b, hb, hexpiry, hlimit⟩ := hcovered _ (hmem a atask ha hget)
    exact ⟨b, hb, (scopeKey_inj.mp (hw.baselines _ _ hb)).symm, hexpiry, hlimit⟩
  · intro a atask ha hne hget
    have hparent := hparents _ (hmem a atask ha hget) hne
    refine ⟨hparent.1, ?_, parentProven_proven hw hparent⟩
    simpa [Dict.isEmpty] using hparent.2.1

variable {steps : List Step} {s : Step} {actor : Actor} {cmd : Command}

/-- A new preparation: what its change checked still holds after it is recorded. -/
theorem gate_of_happened {tx : Transaction} {m : Workspace} {result : Result}
    (hrun : Run casework steps s.pre) (hnow : Allowed steps s)
    (hcall : s.call = .prepareReview actor cmd t id)
    (hclock : ∀ reading, s.env.clock reading = time) (hh : Happened s w tx m result) :
    Gate (recorded s.env w m tx result) time t id := by
  have hp := hh.commits.prepared
  rw [hcall] at hp
  have hp := inTransaction_transaction hp
  simp only [prepareReview, bind_eq_ok, pure_eq_ok] at hp
  obtain ⟨_, _, rfl⟩ := hp
  obtain ⟨task, d, r, ht, hd, hof, hcurrent, hr, hpolicy, hverdict, hexpiry, hbasis, _,
    hdecisions⟩ := prepareReviewChange_ok (w.revision + 1) hh.commits.changed
  rw [hclock] at hr hexpiry
  have hpre : s.pre = some w := by
    rcases hh.before with hpre | ⟨_, tenant_id, rfl⟩
    · exact hpre
    · simp [sealed, Workspace.blank] at ht
  have hun : Unrelated w s.call t := by
    rw [hcall]
    constructor <;> simp [decidedId, disturbedScope]
  have hrecall := step_sameRecall hrun hnow hpre hh.commits.post ht hun
  refine gate_of_ready (happened_kept hh).toShaped
    (by rw [hrecall.tasks t (dependsOn_self w t), ht]) ⟨hcurrent, d, ?_, hof, hverdict, hexpiry, ?_⟩
    ((hrecall.policyResult_eq hh.kept.tasks ht time false).trans hr) hpolicy
  · exact (congrArg (fun x => x.get? id) hdecisions).trans hd
  · exact (hrecall.basis_eq hh.kept.tasks ht).trans hbasis

/-- A repeated preparation: what is not rechecked held when the answer was stored. -/
theorem gate_of_replays {tx : Transaction} {previous : IdempotencyEntry}
    (hrun : Run casework steps s.pre) (hcall : s.call = .prepareReview actor cmd t id)
    (hclock : ∀ reading, s.env.clock reading = time) (hr : Replays s w tx previous) :
    s.post = some w ∧ Gate w time t id := by
  have hp := hr.prepared
  rw [hcall] at hp
  have hp := inTransaction_transaction hp
  simp only [prepareReview, bind_eq_ok, pure_eq_ok] at hp
  obtain ⟨_, _, rfl⟩ := hp
  have hpre : s.pre = some w := by
    rcases loaded_cases hr.loaded with hpre | ⟨_, tenant_id, rfl⟩
    · exact hpre
    · have hstored := hr.stored
      simp [sealed, Workspace.blank] at hstored
  have hkept := kept_of_run hrun w hpre
  have hreplayed := hr.replayed
  simp only [replay, bind_eq_ok, ensure_eq_ok, if_true, pure_eq_ok] at hreplayed
  obtain ⟨_, hhash, _, hrecheck, _⟩ := hreplayed
  obtain ⟨task, d, r, ht, hd, hcurrent, hpolicy, hready, hexpiry, hbasis⟩ :=
    recheckReview_ok t id rfl hkept.tasks hrecheck
  rw [hclock] at hpolicy hexpiry
  obtain ⟨d', hd', hof, hverdict⟩ :=
    answered_of_run hrun w hpre _ previous actor cmd.session_id t id hr.stored hhash
  rw [hd] at hd'
  cases hd'
  rw [(hkept.decisions id d hd).1] at hcurrent
  exact ⟨hr.post.trans hpre, gate_of_ready hkept.toShaped ht
    ⟨hcurrent, d, hd, hof, hverdict, hexpiry, hbasis⟩ hpolicy hready⟩

/-- A review preparation shows its artifact, new or stored, only when the gate
holds in the stored workspace at that moment. -/
theorem review_gate_sound
    (hrun : Run casework steps s.pre) (hnow : Allowed steps s)
    (hcall : s.call = .prepareReview actor cmd t id)
    (hclock : ∀ reading, s.env.clock reading = time) :
    ∃ w, s.post = some w ∧ Gate w time t id := by
  rcases exec_cases hnow.executed with ⟨w, tx, m, result, hc⟩ | ⟨w, tx, previous, hr⟩ | ⟨ha, _⟩
  · have hh := happened_of_commits (kept_of_run hrun) hnow hc
    exact ⟨_, hc.post, gate_of_happened hrun hnow hcall hclock hh⟩
  · exact ⟨w, gate_of_replays hrun hcall hclock hr⟩
  · rw [hcall] at ha
    obtain ⟨tx, _, htx⟩ := inTransaction_ok ha
    cases htx

omit [Sha256] [CollisionFree] in
theorem payment_passes_gate : letI := spelling
    ∃ (steps : List Step) (s : Step) (actor : Actor) (cmd : Command) (t id : Identifier)
      (time : Instant) (w : Workspace), Run casework steps s.pre ∧ Allowed steps s ∧
      s.call = .prepareReview actor cmd t id ∧ (∀ reading, s.env.clock reading = time) ∧
      s.post = some w ∧ Gate w time t id := by
  let _ := spelling
  have := spelling_collisionFree
  obtain ⟨steps, w, task, d, h⟩ := Crew.exists_started
  obtain ⟨cmd, s, m, result, hs, _⟩ := Completion.can_prepareReview h.opened (by omega) h.proves
    (by rw [h.intent]; rfl) (by rw [h.intent]; exact h.clear)
  have hrun : Run casework steps s.pre := hs.pre ▸ h.opened.run
  obtain ⟨w', hpost, hgate⟩ := review_gate_sound hrun hs.now hs.call hs.clock
  exact ⟨steps, s, _, cmd, _, _, _, w', hrun, hs.now, hs.call, hs.clock, hpost, hgate⟩

end Gate

end MemoryGuard.ReviewGate
