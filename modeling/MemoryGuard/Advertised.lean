import MemoryGuard.ReviewGate
import MemoryGuard.Raising

/-!
The gate that is advertised and the gate that is enforced. Three predicates are
written separately: the validity of a decision that an overview shows, what a new
preparation of a review checks, and what a repeated one checks. They agree on
every stored workspace, since a READY decision always gives the same reasons, and
a task without taints has the status of its decision.
-/
namespace MemoryGuard.Advertised

open OrderedDict Guarded DependencyGraph JsonText ContentHash Models Artifacts Aggregate Core
open Closure Policy Transactions TaskCommands CaseCommands Traces Calls Filing EvidenceEffects
open TaskEffects CaseEffects Effects Growth Upkeep Lifecycle History Integrity Standing
open Progress ReviewGate
open Raising (Current)

variable [Sha256]

section Upright

/-- The reasons of every READY verdict. -/
def readyReasons : List String := ["CURRENT_POLICY_PASSED", "HUMAN_CONFIRMATION_STILL_REQUIRED"]

/-- READY decisions give the same reasons, and a task without taints has the
status of its decision. -/
structure Upright (w : Workspace) : Prop where
  reasons : ∀ k d, w.decisions.get? k = some d → d.verdict = .ready → d.reason_codes = readyReasons
  status : ∀ t task id d, w.tasks.get? t = some task → task.taints.isEmpty →
    task.current_decision_id = some id → w.decisions.get? id = some d →
    task.status = d.verdict.status

variable {w m : Workspace} {env : Environment}

omit [Sha256] in
theorem upright_congr (htasks : m.tasks = w.tasks) (hdecisions : m.decisions = w.decisions)
    (hw : Upright w) : Upright m := by
  constructor
  · rw [hdecisions]
    exact hw.reasons
  · rw [htasks, hdecisions]
    exact hw.status

theorem unsettles_upright {scope : Scope} {seq : ℕ} (h : Unsettles seq w m scope)
    (hw : Upright w) : Upright m := by
  constructor
  · rw [h.decisions]
    exact hw.reasons
  · intro t task id d ht hclean hid hd
    rw [h.decisions] at hd
    obtain ⟨old, hold, ⟨_, rfl⟩ | ⟨_, hsuspends⟩⟩ := disturbs_task h.toDisturbs ht
    · exact hw.status t task id d hold hclean hid hd
    · rw [hsuspends.tainted] at hclean
      cases hclean

omit [Sha256] in
/-- A new task has no decision yet. -/
theorem enlists_upright {w1 : Workspace} {task : Task} (h : Enlists w w1 task) (hw : Upright w) :
    Upright w1 := by
  rcases h with rfl | ⟨new, rfl⟩
  · exact hw
  · refine ⟨hw.reasons, ?_⟩
    intro t task' id d ht hclean hid hd
    rw [storeTask_get?] at ht
    split at ht
    · cases ht
      rw [new.undecided] at hid
      cases hid
    · exact hw.status t task' id d ht hclean hid hd

theorem decides_upright {actor : Actor} {seq : ℕ} {task : Task} {explicit_review : Bool}
    {d : Decision} (h : Decides env actor seq w m task explicit_review d) (hshaped : Shaped w)
    (hfresh : w.decisions.get? (env.fresh "decision") = none) (hw : Upright w) : Upright m := by
  constructor
  · intro k d' hd hready
    rw [decides_decisions h, Dict.get?_set] at hd
    split at hd
    · cases hd
      obtain ⟨r, hr, hverdict, hreasons, _⟩ := h.judged.policy
      obtain ⟨task', closure, _, _, rfl⟩ := policyResult_ok hr
      rw [hverdict] at hready
      rw [hreasons]
      exact judge_reasons (judge_ready_iff.mp hready)
    · exact hw.reasons k d' hd hready
  · intro t task' id d' ht hclean hid hd
    rw [decides_task h] at ht
    split at ht
    · cases ht
      cases hid
      rw [decides_decisions h, Dict.get?_set_self] at hd
      cases hd
      rfl
    · obtain ⟨old, hold, _⟩ := hshaped.current t task' id ht hid
      have hkept := decides_kept h hfresh hold
      rw [hd] at hkept
      cases hkept
      exact hw.status t task' id d' ht hclean hid hold

theorem outline_upright {call : Call} (h : Outline env w call m) (hkept : Kept w)
    (hfresh : Fresh env w) (hw : Upright w) : Upright m := by
  cases h with
  | quiet h => exact upright_congr h.tasks h.decisions hw
  | unsettled unsettles => exact unsettles_upright unsettles hw
  | decided requests _ decides =>
    have enlists := requests_enlists requests
    refine decides_upright decides (enlists_shaped enlists hkept.toShaped) ?_
      (enlists_upright enlists hw)
    rw [(enlists_known enlists).1]
    exact hfresh.decisions "decision"

theorem upright_of_run [CollisionFree] {steps : List Step} {st : Option Workspace}
    (h : Run casework steps st) : ∀ w, st = some w → Upright w := by
  refine invariant_of_run Upright ?_ ?_ h
  · intro tenant_id
    constructor <;> simp [sealed, Workspace.blank]
  · intro s w tx m result hh hw
    have hm := outline_upright (effect_outline hh.effect hh.kept.stamped) hh.kept hh.fresh hw
    exact upright_congr (w := m) rfl rfl hm

end Upright

section Gates

variable {w : Workspace} {t id : Identifier} {time : Instant} {task : Task}

/-- The validity of the task's decision says that its review can be prepared. -/
def Offered (w : Workspace) (t id : Identifier) (time : Instant) : Prop :=
  ∃ task v, w.tasks.get? t = some task ∧ task.current_decision_id = some id ∧
    decisionValidity w t time = .ok v ∧ v.review_preparable = true

/-- What the three gates have in common. -/
structure Open (w : Workspace) (t id : Identifier) (time : Instant) (task : Task) (d : Decision) :
    Prop where
  current : task.current_decision_id = some id
  stored : w.decisions.get? id = some d
  policy : ∃ r, policyResult w t time false = .ok r ∧ r.verdict = .ready
  unexpired : time < d.expires_at
  basis : taskBasis w t = .ok d.basis_hash

theorem judge_clean {closure : List Identifier}
    (h : (judge w t time false task closure).verdict = .ready) : task.taints.isEmpty :=
  (judge_ready_iff.mp h).clean.resolve_right (by simp)

omit [Sha256] in
theorem listed_eq_nil {c : Prop} [Decidable c] {reason : String} : listed c reason = [] ↔ ¬ c := by
  by_cases hc : c <;> simp [listed, hc]

/-- The advertised gate is open when the current decision is READY and standing. -/
theorem offered_iff (ht : w.tasks.get? t = some task) (hw : Upright w) :
    Offered w t id time ↔
      ∃ d, Open w t id time task d ∧ task.status = .ready ∧ d.verdict = .ready := by
  constructor
  · rintro ⟨task', v, ht', hid, hv, hpreparable⟩
    rw [ht] at ht'
    cases ht'
    simp only [decisionValidity, item, ht, bind_eq_ok, fetch_eq_ok, Option.some.injEq,
      exists_eq_left', pure_eq_ok] at hv
    obtain ⟨r, hr, basis, hbasis, rfl⟩ := hv
    obtain ⟨hvalid, hready⟩ := of_decide_eq_true hpreparable
    cases hd : w.decisions.get? id with
    | none => simp [currentDecision, hid, hd] at hvalid
    | some d =>
      simp only [currentDecision, hid, Option.getD_some, hd, List.isEmpty_iff,
        List.append_eq_nil_iff, listed_eq_nil, not_le, not_not, ne_eq, not_or] at hvalid
      obtain ⟨⟨⟨hlive, hsame⟩, hstatus⟩, hverdict, _⟩ := hvalid
      rw [hverdict, hready] at hstatus
      exact ⟨d, ⟨hid, hd, ⟨r, hr, hready⟩, hlive, hsame ▸ hbasis⟩, hstatus, hverdict.trans hready⟩
  · rintro ⟨d, ⟨hid, hd, ⟨r, hr, hready⟩, hlive, hbasis⟩, hstatus, hverdict⟩
    obtain ⟨task', closure, ht', _, rfl⟩ := policyResult_ok hr
    rw [ht] at ht'
    cases ht'
    have hreasons : d.reason_codes = _ :=
      (hw.reasons id d hd hverdict).trans (judge_reasons (judge_ready_iff.mp hready)).symm
    refine ⟨task, _, ht, hid, bind_eq_ok.mpr ⟨task, fetch_eq_ok.mpr ht, bind_eq_ok.mpr
      ⟨_, hr, bind_eq_ok.mpr ⟨_, hbasis, rfl⟩⟩⟩, ?_⟩
    have hstatus' : task.status = d.verdict.status := by
      rw [hstatus, hverdict]
      rfl
    simp only [currentDecision, hid, Option.getD_some, hd, hready, hverdict, hreasons, hstatus',
      listed, not_le.mpr hlive, ne_eq, not_true_eq_false, or_self, if_false, List.append_nil,
      List.isEmpty_nil, and_self, decide_true]

variable {env : Environment} {actor : Actor} {seq : ℕ}

variable (seq) in
/-- A new preparation goes through the same gate. -/
theorem prepareReview_iff (ht : w.tasks.get? t = some task)
    (hsubject : task.intent.scope.subject_id ∈ actor.subjects)
    (hclock : ∀ reading, env.clock reading = time) (hw : Shaped w) :
    (∃ r, prepareReviewChange env actor t id w seq = .ok r) ↔
      ∃ d, Open w t id time task d ∧ task.status = .ready ∧ d.verdict = .ready := by
  have hfind : findTask w actor t = .ok task := bind_eq_ok.mpr
    ⟨task, fetch_eq_ok.mpr ht, bind_eq_ok.mpr ⟨(), ensure_eq_ok.mpr hsubject, rfl⟩⟩
  constructor
  · rintro ⟨⟨m, result⟩, h⟩
    simp only [prepareReviewChange, hfind, hclock, bind_eq_ok, fetch_eq_ok, ensure_eq_ok,
      Except.ok.injEq, exists_eq_left'] at h
    obtain ⟨d, hd, _, ⟨_, hid⟩, r, hr, _, ⟨hstatus, hverdict, hready, hlive⟩, basis, hbasis, _,
      hsame, _⟩ := h
    exact ⟨d, ⟨hid, hd, ⟨r, hr, hready⟩, hlive, hsame ▸ hbasis⟩, hstatus, hverdict⟩
  · rintro ⟨d, ⟨hid, hd, ⟨r, hr, hready⟩, hlive, hbasis⟩, hstatus, hverdict⟩
    obtain ⟨d', hd', hof⟩ := hw.current t task id ht hid
    rw [hd] at hd'
    cases hd'
    have hr' : policyResult w t (env.clock .reviewPolicy) false = .ok r := hclock _ ▸ hr
    have hlive' : env.clock .reviewExpiry < d.expires_at := hclock _ ▸ hlive
    exact bind_total hfind (fetch_total hd (ensure_total ⟨hof, hid⟩ (bind_total hr'
      (ensure_total ⟨hstatus, hverdict, hready, hlive'⟩ (bind_total hbasis
        (ensure_total rfl ⟨_, rfl⟩))))))

variable (env) in
/-- What a repeated preparation checks, apart from the answer that is stored. -/
theorem recheckReview_iff (tx : Transaction) (hactor : tx.actor = actor)
    (hpayload : tx.payload = reviewPayload t id) (ht : w.tasks.get? t = some task)
    (hsubject : task.intent.scope.subject_id ∈ actor.subjects)
    (hclock : ∀ reading, env.clock reading = time) (hw : Shaped w) :
    recheckReview env w tx = .ok () ↔ ∃ d, Open w t id time task d := by
  have hfind : findTask w tx.actor t = .ok task := bind_eq_ok.mpr
    ⟨task, fetch_eq_ok.mpr ht, bind_eq_ok.mpr ⟨(), ensure_eq_ok.mpr (hactor ▸ hsubject), rfl⟩⟩
  have htask_id : payloadText tx.payload "task_id" = some t := by
    rw [hpayload]
    rfl
  have hdecision_id : payloadText tx.payload "decision_id" = some id := by
    rw [hpayload]
    rfl
  have hkeyed := hw.tasks.keyed _ _ ht
  simp only [recheckReview, htask_id, hdecision_id, hclock, bind_eq_ok, fetch_eq_ok,
    ensure_eq_ok, Option.some.injEq, exists_eq_left', hfind, Except.ok.injEq, hkeyed, exists_const]
  constructor
  · rintro ⟨r, hr, d, hd, ⟨hid, hready, hlive⟩, basis, hbasis, hsame⟩
    rw [(hw.decisions id d hd).1] at hid
    exact ⟨d, hid, hd, ⟨r, hr, hready⟩, hlive, hsame ▸ hbasis⟩
  · rintro ⟨d, hid, hd, ⟨r, hr, hready⟩, hlive, hbasis⟩
    refine ⟨r, hr, d, hd, ⟨?_, hready, hlive⟩, d.basis_hash, hbasis, rfl⟩
    rw [(hw.decisions id d hd).1]
    exact hid

/-- For a decision that was once READY, the common checks imply the others. -/
theorem open_ready {d : Decision} (h : Open w t id time task d)
    (ht : w.tasks.get? t = some task) (hw : Upright w) (hverdict : d.verdict = .ready) :
    task.status = .ready := by
  obtain ⟨r, hr, hready⟩ := h.policy
  obtain ⟨task', closure, ht', _, rfl⟩ := policyResult_ok hr
  rw [ht] at ht'
  cases ht'
  rw [hw.status t task id d ht (judge_clean hready) h.current h.stored, hverdict]
  rfl

end Gates

section Answers

variable {svc : Service} {env : Environment} {w : Workspace} {t id : Identifier} {time : Instant}
  {task : Task} {actor : Actor} {cmd : Command}

/-- The store carries out a call and answers it for the first time. -/
def Accepted (svc : Service) (env : Environment) (w : Workspace) (call : Call) : Prop :=
  ∃ m response, exec svc env (some w) call = .ok (some m, response) ∧ response.replayed = false

/-- A stored answer, as it is shown again. -/
def historical (response : Response) : Response :=
  { response with replayed := true, historical_only := true }

/-- The actor may prepare the review of the task. -/
structure Authorised (w : Workspace) (actor : Actor) (task : Task) : Prop where
  role : actor.role ∈ operators ++ [.reviewer]
  tenant : w.tenant_id = actor.tenant_id
  subject : task.intent.scope.subject_id ∈ actor.subjects

def reviewTransaction (env : Environment) (actor : Actor) (cmd : Command) (t id : Identifier) :
    Transaction where
  actor := actor
  command := cmd
  name := "review.prepare"
  payload := reviewPayload t id
  change := prepareReviewChange env actor t id

theorem reviewScopes (h : Authorised w actor task) (ht : w.tasks.get? t = some task) :
    recheckScopes w (reviewTransaction env actor cmd t id) = .ok () := by
  have hfind : findTask w actor t = .ok task := bind_eq_ok.mpr
    ⟨task, fetch_eq_ok.mpr ht, bind_eq_ok.mpr ⟨(), ensure_eq_ok.mpr h.subject, rfl⟩⟩
  simp [recheckScopes, reviewTransaction, reviewPayload, payloadText, List.lookup_cons, hfind, bind,
    Except.bind]

theorem review_prepared (h : Authorised w actor task) :
    (Call.prepareReview actor cmd t id).prepare svc env =
      .ok (.transaction (reviewTransaction env actor cmd t id)) := by
  have hauthorized : authorize actor (operators ++ [.reviewer]) none = .ok () := by
    simp [authorize, ensure, h.role]
  simp only [Call.prepare, inTransaction, prepareReview, hauthorized, bind, Except.bind]
  rfl

variable [CollisionFree] {steps : List Step} (hrun : Run casework steps (some w))
  (ht : w.tasks.get? t = some task) (h : Authorised w actor task)
include hrun ht h

/-- A new preparation is accepted when the gate is advertised. -/
theorem accepted_iff (hclock : ∀ reading, env.clock reading = time) (hnew : Current w env actor cmd)
    (hroom : exec svc env (some w) (.prepareReview actor cmd t id) ≠ .error full) :
    Accepted svc env w (.prepareReview actor cmd t id) ↔ Offered w t id time := by
  have hshaped := (kept_of_run hrun w rfl).toShaped
  have hasks : Asks svc env (.prepareReview actor cmd t id)
      (reviewTransaction env actor cmd t id) w :=
    ⟨review_prepared h, h.tenant, reviewScopes h ht, hnew.new, ⟨rfl, rfl⟩, hnew.revision, hnew.fresh⟩
  rw [offered_iff ht (upright_of_run hrun w rfl),
    ← prepareReview_iff (w.revision + 1) ht h.subject hclock hshaped]
  constructor
  · rintro ⟨m, response, hexec, _⟩
    by_contra hnone
    have hlimit := revision_lt_of_room hrun hasks hroom
    rw [exec_of_asks hrun hasks hlimit, bind_eq_ok] at hexec
    obtain ⟨r, hr, _⟩ := hexec
    exact hnone ⟨r, hr⟩
  · intro hchange
    obtain ⟨m, result, _, hexec, _⟩ :=
      exec_commits hrun hasks (grounded_of_standalone rfl) hchange hroom
    exact ⟨_, _, hexec, rfl⟩

/-- The answer to a committed preparation is shown again when the gate is advertised. -/
theorem answered_iff {entry : IdempotencyEntry} (hclock : ∀ reading, env.clock reading = time)
    (hentry : w.idempotency.get? (idempotencyKey actor.actor_id cmd.idempotency_key) = some entry)
    (hhash : entry.request_hash =
      requestHash actor cmd.session_id "review.prepare" (reviewPayload t id)) :
    exec svc env (some w) (.prepareReview actor cmd t id) =
      .ok (some w, historical entry.response) ↔ Offered w t id time := by
  have hkept := kept_of_run hrun w rfl
  have hupright := upright_of_run hrun w rfl
  have hvalid := validateWorkspace_ok hkept.toShaped (coherent_of_run hrun w rfl)
  have hexec : exec svc env (some w) (.prepareReview actor cmd t id) = (do
      recheckReview env w (reviewTransaction env actor cmd t id)
      return (some w, historical entry.response)) := by
    have hloaded : loaded (some w) (reviewTransaction env actor cmd t id) = .ok w := rfl
    have hstored : w.idempotency.get? (reviewTransaction env actor cmd t id).key = some entry :=
      hentry
    have hsame : entry.request_hash = (reviewTransaction env actor cmd t id).fingerprint := hhash
    have htenant : w.tenant_id = (reviewTransaction env actor cmd t id).actor.tenant_id := h.tenant
    have hname : (reviewTransaction env actor cmd t id).name = "review.prepare" := rfl
    have hscopes : recheckScopes w (reviewTransaction env actor cmd t id) = .ok () :=
      reviewScopes h ht
    simp only [exec, review_prepared h, mutate, hloaded, hvalid, htenant, hscopes, hstored,
      replay, hsame, hname, ensure, if_true, bind, Except.bind]
    cases recheckReview env w (reviewTransaction env actor cmd t id) <;> rfl
  rw [hexec, offered_iff ht hupright]
  have hrecheck := recheckReview_iff env (reviewTransaction env actor cmd t id)
    rfl rfl ht h.subject hclock hkept.toShaped
  constructor
  · intro hanswer
    obtain ⟨_, hpassed, _⟩ := bind_eq_ok.mp hanswer
    obtain ⟨d, hopen⟩ := hrecheck.mp hpassed
    obtain ⟨d', hd', _, hverdict⟩ := answered_of_run hrun w rfl _ entry actor cmd.session_id t id
      hentry hhash
    rw [hopen.stored] at hd'
    cases hd'
    exact ⟨d, hopen, open_ready hopen ht hupright hverdict, hverdict⟩
  · rintro ⟨d, hopen, _⟩
    rw [hrecheck.mpr ⟨d, hopen⟩]
    rfl

omit ht h in
/-- The answer to a committed preparation stays in the store. -/
theorem answer_stored {s : Step} (hs : s ∈ steps) (hcommitted : s.Committed)
    (hcall : s.call = .prepareReview actor cmd t id) :
    w.idempotency.get? (idempotencyKey actor.actor_id cmd.idempotency_key) =
      some ⟨requestHash actor cmd.session_id "review.prepare" (reviewPayload t id), s.response⟩ := by
  obtain ⟨before, after, rfl⟩ := List.append_of_mem hs
  obtain ⟨hbefore, hnow, hafter⟩ := hrun.at_step
  rcases step_cases hbefore hnow with ⟨_, w0, tx, m, result, hh⟩ | ⟨hrepeated, _⟩
  · have hp := hh.commits.prepared
    rw [hcall] at hp
    have hp := inTransaction_transaction hp
    simp only [prepareReview, bind_eq_ok, pure_eq_ok] at hp
    obtain ⟨_, _, rfl⟩ := hp
    have hlater : Run casework ((before ++ [s]) ++ after) (some w) := by simpa using hrun
    obtain ⟨w', hw', hkeeps⟩ := Permanence.run_retains hafter hlater _ hh.commits.post
    cases hw'
    refine hkeeps.idempotency _ _ ?_
    rw [recorded_idempotency, hh.commits.response]
    exact if_pos rfl
  · exact absurd hcommitted hrepeated

/-- The validity that is shown for a task says exactly whether its review can be
prepared now, and the answer to an earlier preparation is shown again exactly
when a new one would be accepted. -/
theorem advertised_gate_is_enforced (id : Identifier) (time : Instant) :
    (∀ svc env cmd, (∀ reading, env.clock reading = time) → Current w env actor cmd →
      exec svc env (some w) (.prepareReview actor cmd t id) ≠ .error full →
      (Accepted svc env w (.prepareReview actor cmd t id) ↔ Offered w t id time)) ∧
    ∀ s ∈ steps, ∀ before old, s.Committed → s.call = .prepareReview before old t id →
      before.actor_id = actor.actor_id →
      ∀ svc env cmd, (∀ reading, env.clock reading = time) →
        cmd.idempotency_key = old.idempotency_key → cmd.session_id = old.session_id →
      ∀ svc' env' cmd', (∀ reading, env'.clock reading = time) → Current w env' actor cmd' →
        exec svc' env' (some w) (.prepareReview actor cmd' t id) ≠ .error full →
      (exec svc env (some w) (.prepareReview actor cmd t id) =
          .ok (some w, historical s.response) ↔
        Accepted svc' env' w (.prepareReview actor cmd' t id)) := by
  constructor
  · intro svc env cmd hclock hnew hroom
    exact accepted_iff hrun ht h hclock hnew hroom
  · intro s hs before old hcommitted hcall hactor svc env cmd hclock hkey hsession svc' env' cmd'
      hclock' hnew hroom
    have hstored := answer_stored hrun hs hcommitted hcall
    rw [hactor, ← hkey] at hstored
    have hhash : requestHash before old.session_id "review.prepare" (reviewPayload t id) =
        requestHash actor cmd.session_id "review.prepare" (reviewPayload t id) := by
      unfold requestHash
      rw [hactor, hsession]
    rw [accepted_iff hrun ht h hclock' hnew hroom]
    exact answered_iff hrun ht h hclock hstored hhash

omit [Sha256] [CollisionFree] hrun ht h in
theorem payment_review_advertised : letI := spelling
    ∃ steps w t task actor id time svc env cmd old, ∃ s ∈ steps, Run casework steps (some w) ∧
      w.tasks.get? t = some task ∧ Authorised w actor task ∧ Current w env actor cmd ∧
      Accepted svc env w (.prepareReview actor cmd t id) ∧ Offered w t id time ∧
      s.Committed ∧ s.call = .prepareReview actor old t id ∧
      exec svc env (some w) (.prepareReview actor old t id) =
        .ok (some w, historical s.response) := by
  let _ := spelling
  have := spelling_collisionFree
  obtain ⟨steps, w, task, d, h⟩ := Crew.exists_started
  have hscope : task.intent.scope.subject_id = Crew.crew.subject_id := by
    rw [h.intent]
    rfl
  obtain ⟨old, s, m, result, hs, _, hchange⟩ := Completion.can_prepareReview h.opened (by omega)
    h.proves hscope (by rw [h.intent]; exact h.clear)
  have hkept := kept_of_run h.opened.run w rfl
  have hsubject : task.intent.scope.subject_id ∈ Crew.reviewer.subjects := by
    rw [hscope]
    simp [Crew.crew, Crew.reviewer]
  -- the gate is open before the first preparation, and the preparation leaves it open
  have hbefore : Offered w task.task_id d.decision_id 0 :=
    (offered_iff h.proves.stored (upright_of_run h.opened.run w rfl)).mpr
      ((prepareReview_iff _ h.proves.stored hsubject hs.clock hkept.toShaped).mp ⟨_, hchange⟩)
  obtain ⟨tx, hh⟩ := hs.happened
  have hpost := hh.commits.post
  have hrun := hs.run h.opened.run
  rw [hpost] at hrun
  have hrevision : (recorded s.env w m tx result).revision = 4 :=
    congrArg (· + 1) h.opened.revision
  have htenant := (happened_grows hh).tenant.trans h.opened.tenant
  generalize recorded s.env w m tx result = w' at hpost hrun hrevision htenant
  have hprior : Run casework steps s.pre := hs.pre ▸ h.opened.run
  have hun : Frame.Unrelated w s.call task.task_id := by
    rw [hs.call]
    constructor <;> simp [Frame.decidedId, Frame.disturbedScope]
  have hrecall := Frame.step_sameRecall hprior hs.now hs.pre hpost h.proves.stored hun
  have ht : w'.tasks.get? task.task_id = some task := by
    rw [hrecall.tasks _ (dependsOn_self w _), h.proves.stored]
  have hafter : Offered w' task.task_id d.decision_id 0 := by
    obtain ⟨task', v, ht', hid, hv, hpreparable⟩ := hbefore
    rw [h.proves.stored] at ht'
    cases ht'
    refine ⟨task, v, ht, hid, ?_, hpreparable⟩
    rw [hrecall.decisionValidity_eq hkept.tasks h.proves.stored]
    exact hv
  have hauthorised : Authorised w' Crew.reviewer task := ⟨by decide, htenant, hsubject⟩
  obtain ⟨env, hfresh, hclock⟩ := exists_environment w' 0
  obtain ⟨cmd, _, hcurrent, hnew⟩ := exists_command w' Crew.reviewer "session"
  have hcurrent : Current w' env Crew.reviewer cmd := ⟨htenant, hnew, hcurrent.symm, hfresh⟩
  have hlimit : w'.revision < 5000 := by omega
  have hchange' := (prepareReview_iff (w'.revision + 1) ht hsubject hclock
    (kept_of_run hrun w' rfl).toShaped).mpr ((offered_iff ht (upright_of_run hrun w' rfl)).mp hafter)
  have hasks : Asks Crew.crew.svc env
      (.prepareReview Crew.reviewer cmd task.task_id d.decision_id)
      (reviewTransaction env Crew.reviewer cmd task.task_id d.decision_id) w' :=
    ⟨review_prepared hauthorised, htenant, reviewScopes hauthorised ht, hnew, ⟨rfl, rfl⟩,
      hcurrent.revision, hfresh⟩
  have hroom := room_of_fits hrun hasks hlimit Crew.crew.fits hchange'
  obtain ⟨hfirst, hagain⟩ := advertised_gate_is_enforced hrun ht hauthorised d.decision_id 0
  have haccepted := (hfirst _ env cmd hclock hcurrent hroom).mpr hafter
  have hanswered := (hagain s (by simp) Crew.reviewer old hs.committed hs.call rfl Crew.crew.svc env
    old hclock rfl rfl _ env cmd hclock hcurrent hroom).mpr haccepted
  exact ⟨_, w', _, task, Crew.reviewer, _, 0, _, env, cmd, old, s, by simp, hrun, ht, hauthorised,
    hcurrent, haccepted, hafter, hs.committed, hs.call, hanswered⟩

end Answers

end MemoryGuard.Advertised
