import MemoryGuard.Advertised
import MemoryGuard.Deciding
import MemoryGuard.Frame
import MemoryGuard.Reconsideration

/-!
The recovery of a task. Its plan lists what the task depends on, each with the
next step to take. The first open step can always be taken, and a task is done
when everything it depends on is. Where no case is open and all baselines cover
their tasks, reconsidering the tasks in the order of the plan makes every one of
them READY, and the review of the task can be prepared.
-/
namespace MemoryGuard.Recovery

open OrderedDict Guarded DependencyGraph JsonText ContentHash Models Artifacts Aggregate Core
open Closure Policy Transactions TaskCommands Traces Calls TaskEffects Effects Growth Upkeep
open Lifecycle History Integrity Progress Frame Deciding Advertised
open Reconsideration (Stores decides_stores)
open Raising (Current)
open Ingress (load)

variable [Sha256]

section Plans

/-- `next_step`, in the words that its texts begin with. -/
inductive NextStep
  | noReviewNeeded
  | investigateCases
  | ownerReview
  | reviewAncestors
  | explicitReconsideration
  deriving DecidableEq

/-- The reasons that only the owner of a baseline or of a request can answer. -/
def ownerReasons : List String := ["BASELINE_MISSING", "BASELINE_EXPIRED", "LIMIT_EXCEEDED"]

def nextStep (validity : Validity) : NextStep :=
  if validity.review_preparable then .noReviewNeeded
  else if validity.active_blockers ≠ [] then .investigateCases
  else if ∃ x ∈ ownerReasons, x ∈ validity.effective_reason_codes then .ownerReview
  else if "DEPENDENCY_REVIEW_REQUIRED" ∈ validity.effective_reason_codes then .reviewAncestors
  else .explicitReconsideration

structure RecoveryRow where
  task_id : Identifier
  required_predecessors : List Identifier
  next_step : NextStep
  validity : Validity

structure RecoveryPlan where
  task_id : Identifier
  memory_revision : ℕ
  basis_hash : Digest
  as_of : Instant
  ordered_steps : List RecoveryRow
  read_only : Bool
  executable : Bool
  note : String

def recoveryRow (state : Workspace) (time : Instant) (key : Identifier) :
    Except CaseworkError RecoveryRow := do
  let task ← item state.tasks key
  let validity ← decisionValidity state key time
  return ⟨key, task.depends_on, nextStep validity, validity⟩

/-- `recovery_plan`. -/
def recoveryPlan (state : Workspace) (task_id : Identifier) (time : Instant) :
    Except CaseworkError RecoveryPlan := do
  let closure ← ancestors state task_id
  let rows ← closure.mapM (recoveryRow state time)
  let basis ← taskBasis state task_id
  return {
    task_id := task_id
    memory_revision := state.revision
    basis_hash := basis
    as_of := time
    ordered_steps := rows
    read_only := true
    executable := false
    note := "Refresh after each command. This checklist never resolves risks or grants authority." }

/-- `READERS`. -/
def readers : List Role := [.owner, .investigator, .reviewer, .viewer]

/-- `recovery`, at a time. -/
def recovery (store : Option Workspace) (actor : Actor) (task_id : Identifier) (time : Instant) :
    Except CaseworkError RecoveryPlan := do
  authorize actor readers none
  let state ← load store actor.tenant_id
  let _ ← findTask state actor task_id
  recoveryPlan state task_id time

end Plans

section Proven

variable {w m : Workspace} {t key : Identifier} {time : Instant} {task : Models.Task}
  {closure sub done rest : List Identifier}

/-- Nothing stands in the way of a task but, of what it depends on, the tasks
that are not yet done. -/
structure Recovered (w : Workspace) (time : Instant) (t : Identifier)
    (closure done : List Identifier) : Prop where
  stored : t ∈ w.tasks.keys
  ordered : ancestors w t = .ok closure
  unblocked : openCases w (closureScopes w closure) = []
  covered : ∀ e ∈ closureTasks w closure, Covered w time e.2
  proven : ∀ a ∈ done, ∀ task, w.tasks.get? a = some task → ParentProven w time a task

omit [Sha256] in
theorem topological_closure (h : ancestors w t = .ok closure) :
    Topological (dependsOn w) closure :=
  topological_sortedParents.mp (topological_walk _ (walk_of_ancestors h))

omit [Sha256] in
/-- What a task of the closure depends on comes before it. -/
theorem before_of_relies (h : ancestors w t = .ok (done ++ key :: rest)) {a : Identifier}
    (ha : ReliesOn w key a) (hne : a ≠ key) : a ∈ done := by
  have hlater : Topological (dependsOn w) (done ++ [key]) := by
    intro before x after hsplit
    refine topological_closure h before x (after ++ rest) ?_
    rw [show done ++ key :: rest = (done ++ [key]) ++ rest by simp, hsplit]
    simp
  have hmem := hlater.reaches (List.mem_append_right _ List.mem_cons_self) ha
  rcases List.mem_append.mp hmem with hbefore | hself
  · exact hbefore
  · exact absurd (List.mem_singleton.mp hself) hne

omit [Sha256] in
/-- The tasks before a task of the closure do not depend on it. -/
theorem not_relies_back (h : ancestors w t = .ok (done ++ key :: rest)) {a : Identifier}
    (ha : a ∈ done) : ¬ ReliesOn w a key := by
  have hearlier : Topological (dependsOn w) done := by
    intro before x after hsplit
    refine topological_closure h before x (after ++ key :: rest) ?_
    rw [hsplit]
    simp
  intro hback
  have hnodup := nodup_ancestors h
  exact (List.nodup_append.mp hnodup).2.2 key (hearlier.reaches ha hback) key List.mem_cons_self rfl

/-- A task of the closure passes once all that it depends on is done. -/
theorem Recovered.passes (h : Recovered w time t closure done) (hkey : key ∈ closure)
    (hsub : ancestors w key = .ok sub) (hdone : ∀ a ∈ sub, a ≠ key → a ∈ done)
    (explicit_review : Bool) (hclean : task.taints.isEmpty ∨ explicit_review) :
    Passes w key time explicit_review task sub := by
  have hinside : ∀ a ∈ sub, a ∈ closure := by
    intro a ha
    have hreach := (mem_ancestors hsub).mp ha
    exact (mem_ancestors h.ordered).mpr (Reaches.trans ((mem_ancestors h.ordered).mp hkey) hreach)
  refine ⟨?_, ?_, ?_, hclean⟩
  · rw [List.eq_nil_iff_forall_not_mem]
    intro k hk
    obtain ⟨c, hc, hopen, hscope⟩ := mem_openCases.mp hk
    obtain ⟨a, atask, ha, hget, hsame⟩ := mem_closureScopes.mp hscope
    have hblocked : k ∈ openCases w (closureScopes w closure) := mem_openCases.mpr
      ⟨c, hc, hopen, mem_closureScopes.mpr ⟨a, atask, hinside a ha, hget, hsame⟩⟩
    rw [h.unblocked] at hblocked
    cases hblocked
  · rintro ⟨a, atask⟩ he
    obtain ⟨ha, hget⟩ := mem_closureTasks.mp he
    exact h.covered (a, atask) (mem_closureTasks.mpr ⟨hinside a ha, hget⟩)
  · rintro ⟨a, atask⟩ he hne
    obtain ⟨ha, hget⟩ := mem_closureTasks.mp he
    exact h.proven a (hdone a ha hne) atask hget

end Proven

section Preparable

variable {w : Workspace} {t key : Identifier} {time : Instant} {task : Models.Task}
  {closure sub : List Identifier}

/-- The validity of a task's decision says that its review can be prepared. -/
def Preparable (w : Workspace) (time : Instant) (key : Identifier) : Prop :=
  ∃ v, decisionValidity w key time = .ok v ∧ v.review_preparable = true

theorem offered_of_preparable (hw : Shaped w) (ht : w.tasks.get? key = some task)
    (h : Preparable w time key) : ∃ id, Offered w key id time := by
  obtain ⟨v, hv, hpreparable⟩ := h
  cases hid : task.current_decision_id with
  | some id => exact ⟨id, task, v, ht, hid, hv, hpreparable⟩
  | none =>
    simp only [decisionValidity, item, ht, bind_eq_ok, fetch_eq_ok, Option.some.injEq,
      exists_eq_left', pure_eq_ok] at hv
    obtain ⟨r, _, basis, _, rfl⟩ := hv
    have hnone : currentDecision w task = none := by
      unfold currentDecision
      rw [hid]
      cases hd : w.decisions.get? "" with
      | none => exact hd
      | some d => exact absurd rfl (hw.decisions _ d hd).2
    simp [hnone] at hpreparable

/-- A task is proven as a parent exactly when its policy passes and its review
can be prepared. -/
theorem preparable_iff (hw : Shaped w) (hup : Upright w) (ht : w.tasks.get? key = some task)
    (hsub : ancestors w key = .ok sub) :
    Preparable w time key ↔ ParentProven w time key task ∧ Passes w key time false task sub := by
  have hpolicy := policyResult_eq time false ht hsub
  constructor
  · intro h
    obtain ⟨id, hoffered⟩ := offered_of_preparable hw ht h
    obtain ⟨d, ⟨hid, hd, ⟨r, hr, hready⟩, hlive, hbasis⟩, hstatus, hverdict⟩ :=
      (offered_iff ht hup).mp hoffered
    rw [hpolicy] at hr
    cases hr
    have hpasses := judge_ready_iff.mp hready
    obtain ⟨d', hd', habout⟩ := hw.current key task id ht hid
    rw [hd] at hd'
    cases hd'
    refine ⟨⟨hstatus, judge_clean hready, d, ?_, hverdict, habout, hlive, hbasis⟩, hpasses⟩
    simp [currentDecision, hid, hd]
  · rintro ⟨⟨hstatus, _, d, hcurrent, hverdict, _, hlive, hbasis⟩, hpasses⟩
    cases hid : task.current_decision_id with
    | none =>
      simp only [currentDecision, hid, Option.getD_none, Option.mem_def] at hcurrent
      exact absurd rfl (hw.decisions _ d hcurrent).2
    | some id =>
      simp only [currentDecision, hid, Option.getD_some, Option.mem_def] at hcurrent
      have hopen : Open w key id time task d :=
        ⟨hid, hcurrent, ⟨_, hpolicy, judge_ready_iff.mpr hpasses⟩, hlive, hbasis⟩
      obtain ⟨_, v, _, _, hv, hpreparable⟩ := (offered_iff ht hup).mpr ⟨d, hopen, hstatus, hverdict⟩
      exact ⟨v, hv, hpreparable⟩

/-- When everything is done, every review of the closure can be prepared. -/
theorem Recovered.preparable (h : Recovered w time t closure closure) (hw : Shaped w)
    (hup : Upright w) (hkey : key ∈ closure) (ht : w.tasks.get? key = some task) :
    Preparable w time key := by
  obtain ⟨sub, hsub⟩ := hw.tasks.ancestors_of_get? ht
  have hproven := h.proven key hkey task ht
  refine (preparable_iff hw hup ht hsub).mpr ⟨hproven, ?_⟩
  refine h.passes hkey hsub ?_ false (Or.inl hproven.2.1)
  intro a ha _
  have hreach := (mem_ancestors hsub).mp ha
  exact (mem_ancestors h.ordered).mpr (Reaches.trans ((mem_ancestors h.ordered).mp hkey) hreach)

/-- The last task of a closure can only be done after all the others. -/
theorem recovered_of_preparable (hw : Shaped w) (hup : Upright w)
    (hclosure : ancestors w t = .ok closure) (ht : w.tasks.get? t = some task)
    (h : Preparable w time t) : Recovered w time t closure closure := by
  obtain ⟨hproven, hpasses⟩ := (preparable_iff hw hup ht hclosure).mp h
  refine ⟨Dict.mem_keys_of_get? ht, hclosure, hpasses.unblocked, hpasses.covered, ?_⟩
  intro a ha atask hget
  by_cases hself : a = t
  · subst hself
    rw [ht] at hget
    cases hget
    exact hproven
  · exact hpasses.parents (a, atask) (mem_closureTasks.mpr ⟨ha, hget⟩) hself

end Preparable

section Steps

variable {w : Workspace} {t key : Identifier} {time : Instant} {task : Models.Task}
  {closure sub : List Identifier} {row : RecoveryRow} {rows : List RecoveryRow}

/-- The reasons that the review of baselines can give. -/
theorem reviewBaselines_reason {l : List (Identifier × Models.Task)} {causal : List String}
    {reason : String} (h : (reviewBaselines w time l causal).1 = some reason) :
    reason ∈ ownerReasons := by
  induction l generalizing causal with
  | nil => cases h
  | cons e rest ih =>
    obtain ⟨a, candidate⟩ := e
    unfold reviewBaselines at h
    cases hb : w.baselines.get? (scopeKey candidate.intent.scope) with
    | none =>
      rw [hb] at h
      cases h
      simp [ownerReasons]
    | some b =>
      rw [hb] at h
      by_cases hexpired : b.expires_at ≤ time
      · simp only [hexpired, if_true, Option.some.injEq] at h
        simp [ownerReasons, ← h]
      · by_cases hlimit : candidate.intent.amount_minor.value > b.limit_minor.value
        · simp only [hexpired, hlimit, if_true, if_false, Option.some.injEq] at h
          simp [ownerReasons, ← h]
        · simp only [hexpired, hlimit, if_false] at h
          exact ih h

/-- A verdict asks for the review of ancestors only while one of them is not proven. -/
theorem judge_dependency (h : "DEPENDENCY_REVIEW_REQUIRED" ∈
    (judge w key time false task sub).reason_codes) :
    ∃ e ∈ closureTasks w sub, e.1 ≠ key ∧ ¬ ParentProven w time e.1 e.2 := by
  by_contra hnone
  have hproven : ∀ e ∈ closureTasks w sub, e.1 ≠ key → ParentProven w time e.1 e.2 := by
    intro e he hne
    by_contra hnot
    exact hnone ⟨e, he, hne, hnot⟩
  unfold judge at h
  by_cases hb : openCases w (closureScopes w sub) = []
  · simp only [hb, ne_eq, not_true_eq_false, if_false] at h
    split at h
    · rename_i reason causal hreason
      have howner := reviewBaselines_reason (congrArg Prod.fst hreason)
      simp only [needsHuman, List.mem_singleton] at h
      subst h
      simp [ownerReasons] at howner
    · rw [if_neg (not_not.mpr hproven)] at h
      split at h
      · simp [needsHuman] at h
      · simp at h
  · simp [hb] at h

theorem recoveryRow_ok (h : recoveryRow w time key = .ok row) :
    row.task_id = key ∧ decisionValidity w key time = .ok row.validity ∧
      row.next_step = nextStep row.validity := by
  simp only [recoveryRow, bind_eq_ok, pure_eq_ok] at h
  obtain ⟨task, _, v, hv, rfl⟩ := h
  exact ⟨rfl, hv, rfl⟩

omit [Sha256] in
theorem nextStep_done {v : Validity} :
    nextStep v = .noReviewNeeded ↔ v.review_preparable = true := by
  unfold nextStep
  split
  · simp_all
  · rename_i hnot
    simp only [hnot, Bool.false_eq_true, iff_false]
    split
    · simp
    · split
      · simp
      · split <;> simp

theorem done_iff (h : recoveryRow w time key = .ok row) :
    row.next_step = .noReviewNeeded ↔ Preparable w time key := by
  obtain ⟨_, hv, hstep⟩ := recoveryRow_ok h
  rw [hstep, nextStep_done]
  constructor
  · exact fun hp => ⟨_, hv, hp⟩
  · rintro ⟨v, hv', hp⟩
    rw [hv] at hv'
    cases hv'
    exact hp

omit [Sha256] in
theorem nextStep_ancestors {v : Validity} (h : nextStep v = .reviewAncestors) :
    "DEPENDENCY_REVIEW_REQUIRED" ∈ v.effective_reason_codes := by
  unfold nextStep at h
  split at h
  · cases h
  · split at h
    · cases h
    · split at h
      · cases h
      · split at h
        · assumption
        · cases h

theorem recoveryRow_total (hk : TasksKept w) (ht : w.tasks.get? key = some task) (time : Instant) :
    ∃ row, recoveryRow w time key = .ok row := by
  obtain ⟨sub, hsub⟩ := hk.ancestors_of_get? ht
  have hvalidity : ∃ v, decisionValidity w key time = .ok v :=
    fetch_total ht (bind_total (policyResult_eq time false ht hsub)
      (bind_total (taskBasis_eq hsub) ⟨_, rfl⟩))
  obtain ⟨v, hv⟩ := hvalidity
  exact fetch_total ht (bind_total hv ⟨_, rfl⟩)

/-- A row that asks for the review of ancestors comes after an open one. -/
theorem open_before {done rest : List Identifier} (hw : Shaped w) (hup : Upright w)
    (hclosure : ancestors w t = .ok (done ++ key :: rest)) (hrow : recoveryRow w time key = .ok row)
    (hstep : row.next_step = .reviewAncestors) : ∃ a ∈ done, ¬ Preparable w time a := by
  obtain ⟨_, hvalidity, hnext⟩ := recoveryRow_ok hrow
  have hreason := nextStep_ancestors (hnext.symm.trans hstep)
  simp only [decisionValidity, bind_eq_ok, pure_eq_ok] at hvalidity
  obtain ⟨task, _, r, hr, basis, _, hv⟩ := hvalidity
  obtain ⟨task', sub, ht, hsub, rfl⟩ := policyResult_ok hr
  rw [← hv] at hreason
  obtain ⟨⟨a, atask⟩, he, hne, hunproven⟩ := judge_dependency hreason
  obtain ⟨ha, hget⟩ := mem_closureTasks.mp he
  refine ⟨a, before_of_relies hclosure ((mem_ancestors hsub).mp ha) hne, ?_⟩
  intro hpreparable
  obtain ⟨asub, hasub⟩ := hw.tasks.ancestors_of_get? hget
  exact hunproven ((preparable_iff hw hup hget hasub).mp hpreparable).1

variable [CollisionFree] {steps : List Step}

theorem recovery_ok {actor : Actor} {plan : RecoveryPlan} (hrun : Run casework steps (some w))
    (ht : w.tasks.get? t = some task) (htenant : w.tenant_id = actor.tenant_id)
    (hsubject : task.intent.scope.subject_id ∈ actor.subjects)
    (hplan : recoveryPlan w t time = .ok plan) : recovery (some w) actor t time = .ok plan := by
  have hauthorized : authorize actor readers none = .ok () := by
    have hrole : actor.role ∈ readers := by
      cases actor.role <;> simp [readers]
    simp [authorize, ensure, hrole]
  have hvalid := validateWorkspace_ok (kept_of_run hrun w rfl).toShaped (coherent_of_run hrun w rfl)
  have hload : load (some w) actor.tenant_id = .ok w := bind_eq_ok.mpr ⟨w, rfl, bind_eq_ok.mpr
    ⟨(), hvalid, bind_eq_ok.mpr ⟨(), ensure_eq_ok.mpr htenant, rfl⟩⟩⟩
  have hfind : findTask w actor t = .ok task := bind_eq_ok.mpr
    ⟨task, fetch_eq_ok.mpr ht, bind_eq_ok.mpr ⟨(), ensure_eq_ok.mpr hsubject, rfl⟩⟩
  exact bind_eq_ok.mpr ⟨(), hauthorized, bind_eq_ok.mpr ⟨w, hload, bind_eq_ok.mpr
    ⟨task, hfind, hplan⟩⟩⟩

/-- A stored task has a plan, with the row of each task of its closure. -/
theorem exists_plan (hrun : Run casework steps (some w)) (ht : w.tasks.get? t = some task)
    (time : Instant) :
    ∃ plan closure, recoveryPlan w t time = .ok plan ∧ ancestors w t = .ok closure ∧
      plan.ordered_steps.map RecoveryRow.task_id = closure ∧
      ∀ r ∈ plan.ordered_steps, recoveryRow w time r.task_id = .ok r := by
  have hw := (kept_of_run hrun w rfl).toShaped
  obtain ⟨closure, hclosure⟩ := hw.tasks.ancestors_of_get? ht
  obtain ⟨rows, hrows⟩ : ∃ rows, closure.mapM (recoveryRow w time) = .ok rows := by
    refine mapM_total ?_
    intro a ha
    obtain ⟨atask, hget⟩ := hw.tasks.stored_task ((mem_ancestors hclosure).mp ha) ht
    exact recoveryRow_total hw.tasks hget time
  have hall := mapM_eq_ok.mp hrows
  refine ⟨_, closure, bind_eq_ok.mpr ⟨closure, hclosure, bind_eq_ok.mpr ⟨rows, hrows,
    bind_eq_ok.mpr ⟨_, taskBasis_eq hclosure, rfl⟩⟩⟩, hclosure, ?_, ?_⟩
  · clear hclosure hrows
    induction hall with
    | nil => rfl
    | cons hrow _ ih => exact congrArg₂ List.cons (recoveryRow_ok hrow).1 ih
  · clear hclosure hrows
    induction hall with
    | nil => simp
    | cons hrow _ ih =>
      exact List.forall_mem_cons.mpr ⟨(recoveryRow_ok hrow).1.symm ▸ hrow, ih⟩

/-- The first open row does not ask for the review of another one first. -/
theorem first_open_actionable {before after : List RecoveryRow} (hrun : Run casework steps (some w))
    (hclosure : ancestors w t = .ok ((before ++ row :: after).map RecoveryRow.task_id))
    (hrows : ∀ r ∈ before ++ row :: after, recoveryRow w time r.task_id = .ok r)
    (hdone : ∀ r ∈ before, r.next_step = .noReviewNeeded) : row.next_step ≠ .reviewAncestors := by
  intro hstep
  rw [List.map_append, List.map_cons] at hclosure
  obtain ⟨a, ha, hopen⟩ := open_before (kept_of_run hrun w rfl).toShaped
    (upright_of_run hrun w rfl) hclosure (hrows row (by simp)) hstep
  obtain ⟨r, hr, rfl⟩ := List.mem_map.mp ha
  exact hopen ((done_iff (hrows r (by simp [hr]))).mp (hdone r hr))

/-- Every stored task has a recovery plan, with one row for each task of its
closure, dependencies first, and whoever may see the task is shown it. A row is
open until the review of its task can be prepared, and the first open row can be
acted on. None is open exactly when the review of the task can be prepared. -/
theorem recovery_plan_sound (hrun : Run casework steps (some w))
    (ht : w.tasks.get? t = some task) (time : Instant) :
    ∃ plan closure, recoveryPlan w t time = .ok plan ∧ ancestors w t = .ok closure ∧
      plan.ordered_steps.map RecoveryRow.task_id = closure ∧ closure.Nodup ∧
      Topological (dependsOn w) closure ∧
      (∀ actor, w.tenant_id = actor.tenant_id → task.intent.scope.subject_id ∈ actor.subjects →
        recovery (some w) actor t time = .ok plan) ∧
      (∀ r ∈ plan.ordered_steps, r.next_step = .noReviewNeeded ↔ Preparable w time r.task_id) ∧
      (∀ before row after, plan.ordered_steps = before ++ row :: after →
        (∀ r ∈ before, r.next_step = .noReviewNeeded) → row.next_step ≠ .reviewAncestors) ∧
      ((∀ r ∈ plan.ordered_steps, r.next_step = .noReviewNeeded) ↔ Preparable w time t) := by
  have hw := (kept_of_run hrun w rfl).toShaped
  have hup := upright_of_run hrun w rfl
  obtain ⟨plan, closure, hplan, hclosure, hids, hrow⟩ := exists_plan hrun ht time
  refine ⟨plan, closure, hplan, hclosure, hids, nodup_ancestors hclosure,
    topological_closure hclosure, fun actor htenant hsubject =>
      recovery_ok hrun ht htenant hsubject hplan, fun r hr => done_iff (hrow r hr), ?_, ?_⟩
  · intro before row after hsplit hdone
    rw [hsplit] at hids hrow
    exact first_open_actionable hrun (hids ▸ hclosure) hrow hdone
  · constructor
    · intro hdone
      have hlast : t ∈ closure := (mem_ancestors hclosure).mpr (dependsOn_self w t)
      rw [← hids] at hlast
      obtain ⟨r, hr, hid⟩ := List.mem_map.mp hlast
      exact hid ▸ (done_iff (hrow r hr)).mp (hdone r hr)
    · intro hpreparable r hr
      have hrecovered := recovered_of_preparable hw hup hclosure ht hpreparable
      have hmem : r.task_id ∈ closure := hids ▸ List.mem_map_of_mem hr
      obtain ⟨atask, hget⟩ := hw.tasks.stored_task ((mem_ancestors hclosure).mp hmem) ht
      exact (done_iff (hrow r hr)).mpr (hrecovered.preparable hw hup hmem hget)

end Steps

section Reconsidering

variable [CollisionFree] {w m : Workspace} {t key : Identifier} {time : Instant}
  {env : Environment} {actor : Actor} {seq : ℕ} {task : Models.Task} {d : Decision}
  {closure done rest : List Identifier}

/-- The next task of a closure is reconsidered: its decision is READY, and the
task is done too. -/
theorem Recovered.next (h : Recovered w time t closure done)
    (hsplit : closure = done ++ key :: rest) (hkey : task.task_id = key)
    (hd : Decides env actor seq w m task true d) (hclock : env.clock .decision = time)
    (hw : Shaped w) (hstamped : Stamped seq w)
    (hfresh : w.decisions.get? (env.fresh "decision") = none) :
    d.verdict = .ready ∧ Recovered m time t closure (done ++ [key]) := by
  subst hkey
  have hcreated : d.created_at = time := hd.created.trans hclock
  have hmem : task.task_id ∈ closure := by
    rw [hsplit]
    simp
  obtain ⟨sub, hsub⟩ := hw.tasks.ancestors_of_get? hd.known
  have hpasses : Passes w task.task_id time true task sub := by
    refine h.passes hmem hsub ?_ true (Or.inr rfl)
    intro a ha hne
    exact before_of_relies (hsplit ▸ h.ordered) ((mem_ancestors hsub).mp ha) hne
  have hready : d.verdict = .ready := by
    obtain ⟨r, hr, hverdict, _⟩ := hd.judged.policy
    rw [hcreated, policyResult_eq time true hd.known hsub] at hr
    cases hr
    exact hverdict.trans (judge_ready_iff.mpr hpasses)
  have hgrows := decides_grows hd hfresh hstamped
  obtain ⟨hcases, hbaselines⟩ := decides_facts hd
  obtain ⟨ttask, ht⟩ := Dict.exists_get?_of_mem_keys h.stored
  have hscopes := hgrows.closureScopes_eq hw.tasks ht h.ordered
  refine ⟨hready, ?_, hgrows.ancestors_eq hw.tasks ht h.ordered, ?_, ?_, ?_⟩
  · rw [decides_keys hd]
    exact h.stored
  · rw [hscopes, ← h.unblocked]
    unfold openCases
    rw [hcases]
  · rintro ⟨a, atask'⟩ he
    obtain ⟨ha, hget'⟩ := mem_closureTasks.mp he
    obtain ⟨atask, hget⟩ := hw.tasks.stored_task ((mem_ancestors h.ordered).mp ha) ht
    obtain ⟨atask'', hget'', hintent, _⟩ := hgrows.tasks a atask hget
    rw [hget'] at hget''
    cases hget''
    have hcovered := h.covered (a, atask) (mem_closureTasks.mpr ⟨ha, hget⟩)
    unfold Covered at hcovered ⊢
    rw [hbaselines, hintent]
    exact hcovered
  · intro a ha atask' hget'
    by_cases hself : a = task.task_id
    · subst hself
      rw [decides_task hd, if_pos rfl] at hget'
      cases hget'
      refine ⟨?_, ?_, d, decides_current hd, hready, hd.judged.task_id, ?_,
        Completion.decides_basis hd hw hstamped hfresh⟩
      · simp [decidedTask, hready, Verdict.status]
      · simp [decidedTask, hready, Dict.isEmpty, Dict.empty]
      · rw [← hcreated]
        exact decides_unexpired hd
    · have hdone : a ∈ done := by
        rcases List.mem_append.mp ha with hbefore | hlast
        · exact hbefore
        · exact absurd (List.mem_singleton.mp hlast) hself
      have hget : w.tasks.get? a = some atask' := (decides_other hd hself).symm.trans hget'
      have hbeyond := not_relies_back (hsplit ▸ h.ordered) hdone
      have hrecall := decides_sameRecall hd hw hfresh hbeyond
      have hproven := h.proven a hdone atask' hget
      unfold ParentProven at hproven ⊢
      rwa [hrecall.decisions a atask' (dependsOn_self w a) hget, hrecall.basis_eq hw.tasks hget]

end Reconsidering

section Reviewing

variable [CollisionFree] {steps : List Step} {w : Workspace} {t : Identifier} {time : Instant}
  {closure done rest : List Identifier}

/-- A task that a reviewer has reconsidered. -/
structure Review where
  svc : Service
  env : Environment
  actor : Actor
  cmd : Command
  task_id : Identifier

def Review.call (r : Review) : Call := .evaluate r.actor r.cmd r.task_id true

/-- A review that the store has room for, by a reviewer who may see the task. -/
structure Fit (time : Instant) (r : Review) (w : Workspace) : Prop where
  role : r.actor.role = .reviewer
  subject : ∃ task, w.tasks.get? r.task_id = some task ∧
    task.intent.scope.subject_id ∈ r.actor.subjects
  clock : r.env.clock .decision = time
  current : Current w r.env r.actor r.cmd
  room : exec r.svc r.env (some w) r.call ≠ .error full

/-- The step of a review, which stores a READY decision of the task. -/
structure Reconsidered (s : Step) (r : Review) : Prop where
  svc : s.svc = r.svc
  env : s.env = r.env
  call : s.call = r.call
  committed : s.Committed
  ready : ∃ d, Stores s d ∧ d.task_id = r.task_id ∧ d.verdict = .ready

omit [CollisionFree] in
theorem recovered_recorded {env : Environment} {w m : Workspace} {tx : Transaction}
    {result : Result} (h : Recovered m time t closure done) :
    Recovered (recorded env w m tx result) time t closure done :=
  ⟨h.stored, h.ordered, h.unblocked, h.covered, h.proven⟩

def Review.transaction (r : Review) : Transaction where
  actor := r.actor
  command := r.cmd
  name := "task.reconsider"
  payload := [("task_id", .str r.task_id)]
  change := evaluateChange r.svc r.env r.actor r.cmd r.task_id true

omit [CollisionFree] in
theorem review_asks {r : Review} {task : Models.Task} (hrole : r.actor.role = .reviewer)
    (ht : w.tasks.get? r.task_id = some task)
    (hsubject : task.intent.scope.subject_id ∈ r.actor.subjects)
    (hcurrent : Current w r.env r.actor r.cmd) : Asks r.svc r.env r.call r.transaction w := by
  have hauthorized : authorize r.actor [.reviewer] none = .ok () := by
    simp [authorize, ensure, hrole]
  have hfind : findTask w r.actor r.task_id = .ok task := bind_eq_ok.mpr
    ⟨task, fetch_eq_ok.mpr ht, bind_eq_ok.mpr ⟨(), ensure_eq_ok.mpr hsubject, rfl⟩⟩
  refine ⟨?_, hcurrent.tenant, ?_, hcurrent.new, ⟨rfl, rfl⟩, hcurrent.revision, hcurrent.fresh⟩
  · simp only [Review.call, Call.prepare, inTransaction, evaluate, if_true, hauthorized, bind,
      Except.bind]
    rfl
  · simp [Review.transaction, recheckScopes, payloadText, List.lookup_cons, hfind, bind,
      Except.bind]

/-- The next review of a closure goes through. -/
theorem review_next {r : Review} (hrun : Run casework steps (some w)) (hfit : Fit time r w)
    (h : Recovered w time t closure done) (hsplit : closure = done ++ r.task_id :: rest) :
    ∃ s w', Run casework (steps ++ [s]) (some w') ∧ w'.revision = w.revision + 1 ∧
      Reconsidered s r ∧ Recovered w' time t closure (done ++ [r.task_id]) := by
  have hkept := kept_of_run hrun w rfl
  obtain ⟨task, ht, hsubject⟩ := hfit.subject
  have hasks := review_asks hfit.role ht hsubject hfit.current
  obtain ⟨m, result, hchange, _, hlater, hh⟩ := exec_commits hrun hasks
    (grounded_of_standalone rfl) (evaluateChange_total hkept.tasks ht hsubject) hfit.room
  obtain ⟨_, task', d, _, habout, hd⟩ := evaluateChange_effect hkept.tasks hchange
  have hstamped : Stamped (w.revision + 1) w := hkept.stamped.mono (by omega)
  obtain ⟨hready, hrecovered⟩ := h.next (hsplit.trans (by rw [habout])) rfl hd hfit.clock
    hkept.toShaped hstamped (hfit.current.fresh.decisions "decision")
  refine ⟨_, _, hlater, rfl, ⟨rfl, rfl, rfl, rfl, d, decides_stores hh hd, ?_, hready⟩, ?_⟩
  · rw [hd.judged.task_id, habout]
  · rw [← habout]
    exact recovered_recorded hrecovered

/-- Reviews of all tasks of a closure, in its order, each fit for the workspace
that the earlier ones left. -/
def AllFit (before : List Step) (time : Instant) (reviews : List Review) : Prop :=
  ∀ done r rest more w, reviews = done ++ r :: rest → Run casework (before ++ more) (some w) →
    List.Forall₂ Reconsidered more done → Fit time r w

theorem reviews_recover {before : List Step} {reviews : List Review}
    (hrun : Run casework before (some w)) (h : Recovered w time t closure [])
    (hkeys : reviews.map Review.task_id = closure) (hfit : AllFit before time reviews) :
    ∀ done rest, reviews = done ++ rest → ∃ more w', Run casework (before ++ more) (some w') ∧
      List.Forall₂ Reconsidered more done ∧
      Recovered w' time t closure (done.map Review.task_id) := by
  intro done
  induction done using List.reverseRecOn with
  | nil =>
    intro rest _
    exact ⟨[], w, by simpa using hrun, .nil, h⟩
  | append_singleton done r ih =>
    intro rest hsplit
    have hsplit' : reviews = done ++ r :: rest := by simpa using hsplit
    obtain ⟨more, w1, hrun1, hdone, h1⟩ := ih (r :: rest) hsplit'
    have hclosure : closure = done.map Review.task_id ++ r.task_id :: rest.map Review.task_id := by
      rw [← hkeys, hsplit', List.map_append, List.map_cons]
    obtain ⟨s, w2, hrun2, _, hs, h2⟩ := review_next hrun1
      (hfit done r rest more w1 hsplit' hrun1 hdone) h1 hclosure
    refine ⟨more ++ [s], w2, by simpa using hrun2, ?_, by simpa using h2⟩
    exact List.rel_append hdone (.cons hs .nil)

/-- When everything is done, the review of the task can be prepared, and its
preparation is accepted. -/
theorem Recovered.offers (h : Recovered w time t closure closure)
    (hrun : Run casework steps (some w)) : (∀ key ∈ closure, Preparable w time key) ∧
      ∀ task, w.tasks.get? t = some task → ∃ id, task.current_decision_id = some id ∧
        ∀ svc env actor cmd, Authorised w actor task → (∀ reading, env.clock reading = time) →
          Current w env actor cmd →
          exec svc env (some w) (.prepareReview actor cmd t id) ≠ .error full →
          Accepted svc env w (.prepareReview actor cmd t id) := by
  have hw := (kept_of_run hrun w rfl).toShaped
  have hup := upright_of_run hrun w rfl
  have hpreparable : ∀ key ∈ closure, Preparable w time key := by
    intro key hkey
    obtain ⟨ttask, ht⟩ := Dict.exists_get?_of_mem_keys h.stored
    obtain ⟨task, hget⟩ := hw.tasks.stored_task ((mem_ancestors h.ordered).mp hkey) ht
    exact h.preparable hw hup hkey hget
  refine ⟨hpreparable, ?_⟩
  intro task ht
  have hself : t ∈ closure := (mem_ancestors h.ordered).mpr (dependsOn_self w t)
  obtain ⟨id, hoffered⟩ := offered_of_preparable hw ht (hpreparable t hself)
  obtain ⟨d, hopen, _⟩ := (offered_iff ht hup).mp hoffered
  refine ⟨id, hopen.current, ?_⟩
  intro svc env actor cmd hauthorised hclock hcurrent hroom
  exact (accepted_iff hrun ht hauthorised hclock hcurrent hroom).mpr hoffered

/-- Where no case of a task's closure is open and every task of it is covered by
a baseline, reconsidering the closure in its order succeeds: each command stores
a READY decision, and afterwards every review of the closure can be prepared. -/
theorem recovery_completes {before : List Step} {reviews : List Review}
    (hrun : Run casework before (some w)) (hclosure : ancestors w t = .ok closure)
    (hstored : t ∈ w.tasks.keys) (hunblocked : openCases w (closureScopes w closure) = [])
    (hcovered : ∀ e ∈ closureTasks w closure, Covered w time e.2)
    (hkeys : reviews.map Review.task_id = closure) (hfit : AllFit before time reviews) :
    ∃ more w', Run casework (before ++ more) (some w') ∧
      List.Forall₂ Reconsidered more reviews ∧ (∀ key ∈ closure, Preparable w' time key) ∧
      ∀ task, w'.tasks.get? t = some task → ∃ id, task.current_decision_id = some id ∧
        ∀ svc env actor cmd, Authorised w' actor task → (∀ reading, env.clock reading = time) →
          Current w' env actor cmd →
          exec svc env (some w') (.prepareReview actor cmd t id) ≠ .error full →
          Accepted svc env w' (.prepareReview actor cmd t id) := by
  have hnone : Recovered w time t closure [] :=
    ⟨hstored, hclosure, hunblocked, hcovered, fun a ha => absurd ha List.not_mem_nil⟩
  obtain ⟨more, w', hlater, hall, hrecovered⟩ :=
    reviews_recover hrun hnone hkeys hfit reviews [] (List.append_nil _).symm
  rw [hkeys] at hrecovered
  exact ⟨more, w', hlater, hall, hrecovered.offers hlater⟩

/-- What a reachable workspace offers a task that was stopped. Its recovery plan
never starts with the review of other tasks. Where no case is open and all
baselines cover their tasks, the reviews of the whole closure, in its order and at
one time, all go through and leave the task ready to be prepared. -/
theorem recovery_is_complete {before : List Step} (hrun : Run casework before (some w)) :
    (∀ t task time, w.tasks.get? t = some task → ∃ plan, recoveryPlan w t time = .ok plan ∧
      ∀ done row rest, plan.ordered_steps = done ++ row :: rest →
        (∀ r ∈ done, r.next_step = .noReviewNeeded) → row.next_step ≠ .reviewAncestors) ∧
    ∀ t task time closure reviews, w.tasks.get? t = some task → ancestors w t = .ok closure →
      (∀ k c, w.cases.get? k = some c → c.status = .opened →
        ∀ a ∈ closure, ∀ atask, w.tasks.get? a = some atask → c.scope ≠ atask.intent.scope) →
      (∀ a ∈ closure, ∀ atask, w.tasks.get? a = some atask → Covered w time atask) →
      reviews.map Review.task_id = closure → AllFit before time reviews →
      ∃ more w', Run casework (before ++ more) (some w') ∧
        List.Forall₂ Reconsidered more reviews ∧ (∀ key ∈ closure, Preparable w' time key) ∧
        ∀ task, w'.tasks.get? t = some task → ∃ id, task.current_decision_id = some id ∧
          ∀ svc env actor cmd, Authorised w' actor task → (∀ reading, env.clock reading = time) →
            Current w' env actor cmd →
            exec svc env (some w') (.prepareReview actor cmd t id) ≠ .error full →
            Accepted svc env w' (.prepareReview actor cmd t id) := by
  constructor
  · intro t task time ht
    obtain ⟨plan, closure, hplan, hclosure, hids, hrows⟩ := exists_plan hrun ht time
    refine ⟨plan, hplan, ?_⟩
    intro done row rest hsplit hdone
    rw [hsplit] at hids hrows
    exact first_open_actionable hrun (hids ▸ hclosure) hrows hdone
  · intro t task time closure reviews ht hclosure hquiet hcovered hkeys hfit
    have hnone : Recovered w time t closure [] := by
      refine ⟨Dict.mem_keys_of_get? ht, hclosure, ?_, ?_, fun a ha => absurd ha List.not_mem_nil⟩
      · rw [List.eq_nil_iff_forall_not_mem]
        intro k hk
        obtain ⟨c, hc, hopen, hscope⟩ := mem_openCases.mp hk
        obtain ⟨a, atask, ha, hget, hsame⟩ := mem_closureScopes.mp hscope
        exact hquiet k c hc hopen a ha atask hget (scopeKey_inj.mp hsame.symm)
      · rintro ⟨a, atask⟩ he
        obtain ⟨ha, hget⟩ := mem_closureTasks.mp he
        exact hcovered a ha atask hget
    obtain ⟨more, w', hlater, hall, hrecovered⟩ :=
      reviews_recover hrun hnone hkeys hfit reviews [] (List.append_nil _).symm
    rw [hkeys] at hrecovered
    exact ⟨more, w', hlater, hall, hrecovered.offers hlater⟩

end Reviewing

section Payment

variable [CollisionFree] {steps : List Step} {w : Workspace} {task child : Models.Task}

/-- A payment that was stopped, after its dispute is resolved, and a second one
that was registered as depending on it. -/
structure Waiting (steps : List Step) (w : Workspace) (task child : Models.Task) : Prop where
  opened : Staffing.Open Crew.crew steps w 9
  stored : w.tasks.get? task.task_id = some task
  alone : task.depends_on = []
  intent : task.intent = Crew.payment
  stopped : task.status ≠ .ready
  known : w.tasks.get? child.task_id = some child
  depends_on : child.depends_on = [task.task_id]
  child_intent : child.intent = Crew.payment
  distinct : child.task_id ≠ task.task_id
  clear : Completion.Clear w 0 Crew.payment

theorem exists_waiting : ∃ steps w task child, Waiting steps w task child := by
  obtain ⟨before, w0, task0, d0, h⟩ := Crew.exists_started
  obtain ⟨si, w1, task1, c, hd⟩ := Crew.exists_disputed h
  obtain ⟨done, s, w', w2, hr⟩ := Crew.exists_resolved h hd
  obtain ⟨task, hstored, halone, hintent⟩ := hr.stored
  have hkept := kept_of_run hr.opened.run w2 rfl
  have hid : task.task_id = task0.task_id := hkept.tasks.keyed _ _ hstored
  rw [← hid] at hstored
  have hsubject : task.intent.scope.subject_id ∈ Crew.owner.subjects := by
    rw [hintent]
    decide
  have hparent : ∀ p ∈ [task.task_id], checkParent Crew.owner w2 Crew.payment p = .ok () := by
    rw [List.forall_mem_singleton]
    have hfind : findTask w2 Crew.owner task.task_id = .ok task := bind_eq_ok.mpr
      ⟨task, fetch_eq_ok.mpr hstored, bind_eq_ok.mpr ⟨(), ensure_eq_ok.mpr hsubject, rfl⟩⟩
    exact bind_eq_ok.mpr ⟨task, hfind, ensure_eq_ok.mpr (by rw [hintent])⟩
  obtain ⟨cmd, s', m, result, hs, hfresh, hchange⟩ := Staffing.can_register 0 hr.opened (by omega)
    (show Crew.payment.scope.subject_id = Crew.crew.subject_id from rfl)
    (by have := hr.size; have := h.room; omega) (List.nodup_singleton _) hparent
  simp only [registerTaskChange, TaskCommands.decide, bind_eq_ok, pure_eq_ok, Prod.mk.injEq]
    at hchange
  obtain ⟨_, _, _, _, _, _, ⟨w3, d⟩, ⟨d, hdecided, rfl, rfl⟩, decided, _, rfl, rfl⟩ := hchange
  have hnew : w2.tasks.get? (s'.env.fresh "task") = none := hfresh.tasks "task"
  have hne : s'.env.fresh "task" ≠ task.task_id := by
    intro heq
    rw [heq, hstored] at hnew
    cases hnew
  obtain ⟨tx, hpost, hopen⟩ := hr.opened.next hs rfl
  refine ⟨_, _, task, _, hopen, ?_, halone, hintent, hr.stopped task (hid ▸ hstored),
    Dict.get?_set_self .., rfl, rfl, hne, ?_⟩
  · exact (Dict.get?_set_of_ne _ _ hne).trans ((Dict.get?_set_of_ne _ _ hne).trans hstored)
  · exact ⟨hr.clear.covered, hr.clear.unblocked⟩

/-- The stopped payment comes before the one that depends on it. -/
theorem Waiting.ordered (h : Waiting steps w task child) :
    ancestors w child.task_id = .ok [task.task_id, child.task_id] := by
  have hk := (kept_of_run h.opened.run w rfl).tasks
  obtain ⟨closure, hclosure⟩ := hk.ancestors_of_get? h.known
  have hedge : ReliesOn w child.task_id task.task_id :=
    Relation.ReflTransGen.single (edge_iff.mpr ⟨child, h.known, by simp [h.depends_on]⟩)
  have honly : ∀ a ∈ closure, a = child.task_id ∨ a = task.task_id := by
    intro a ha
    rcases Relation.ReflTransGen.cases_head ((mem_ancestors hclosure).mp ha) with
      rfl | ⟨p, he, hp⟩
    · exact Or.inl rfl
    · obtain ⟨other, hother, hmem⟩ := edge_iff.mp he
      rw [h.known] at hother
      cases hother
      rw [h.depends_on, List.mem_singleton] at hmem
      subst hmem
      exact Or.inr (Completion.dependsOn_alone h.stored h.alone hp)
  obtain ⟨done, rest, hsplit⟩ := List.append_of_mem
    ((mem_ancestors hclosure).mpr (dependsOn_self w child.task_id))
  rw [hsplit] at hclosure honly
  have hnodup := nodup_ancestors hclosure
  have hmem : task.task_id ∈ done := before_of_relies hclosure hedge h.distinct.symm
  obtain ⟨hdone, hrest, hapart⟩ := List.nodup_append.mp hnodup
  have hfirst : done = [task.task_id] := by
    refine List.perm_singleton.mp ((List.perm_ext_iff_of_nodup hdone (List.nodup_singleton _)).mpr
      fun a => ⟨fun ha => ?_, fun ha => List.mem_singleton.mp ha ▸ hmem⟩)
    rcases honly a (List.mem_append_left _ ha) with rfl | rfl
    · exact absurd rfl (hapart _ ha _ List.mem_cons_self)
    · exact List.mem_singleton_self _
  have hlast : rest = [] := by
    rw [List.eq_nil_iff_forall_not_mem]
    intro a ha
    rcases honly a (List.mem_append_right _ (List.mem_cons_of_mem _ ha)) with rfl | rfl
    · exact (List.nodup_cons.mp hrest).1 ha
    · exact hapart _ hmem _ (List.mem_cons_of_mem _ ha) rfl
  rw [hfirst, hlast] at hsplit hclosure
  exact hclosure

omit [CollisionFree] in
theorem Waiting.both (h : Waiting steps w task child) {e : Identifier × Models.Task}
    (he : e ∈ closureTasks w [task.task_id, child.task_id]) : e.2.intent = Crew.payment := by
  obtain ⟨hmem, hget⟩ := mem_closureTasks.mp he
  rcases List.mem_pair.mp hmem with hkey | hkey
  · rw [hkey, h.stored] at hget
    cases hget
    exact h.intent
  · rw [hkey, h.known] at hget
    cases hget
    exact h.child_intent

/-- Nothing stands in the way of the payment but the one it depends on. -/
theorem Waiting.recovered (h : Waiting steps w task child) :
    Recovered w 0 child.task_id [task.task_id, child.task_id] [] := by
  refine ⟨Dict.mem_keys_of_get? h.known, h.ordered, ?_, ?_, fun a ha => absurd ha List.not_mem_nil⟩
  · rw [List.eq_nil_iff_forall_not_mem]
    intro k hk
    obtain ⟨c, hc, hopen, hscope⟩ := mem_openCases.mp hk
    obtain ⟨a, atask, ha, hget, hsame⟩ := mem_closureScopes.mp hscope
    have hintent := h.both (mem_closureTasks.mpr ⟨ha, hget⟩)
    exact h.clear.unblocked k c hc hopen (by rw [← hsame, ← hintent])
  · intro e he
    unfold Covered
    rw [h.both he]
    exact h.clear.covered

omit [Sha256] [CollisionFree] in
/-- The plan of a payment that depends on a stopped one: the first row is open. -/
theorem waiting_plan : letI := spelling
    ∃ (steps : List Step) (w : Workspace) (task child : Models.Task) (plan : RecoveryPlan),
      Run casework steps (some w) ∧ recoveryPlan w child.task_id 0 = .ok plan ∧
      plan.ordered_steps.map RecoveryRow.task_id = [task.task_id, child.task_id] ∧
      (∃ row rest, plan.ordered_steps = row :: rest ∧ row.next_step ≠ .noReviewNeeded ∧
        row.next_step ≠ .reviewAncestors) ∧ ¬ Preparable w 0 child.task_id := by
  let _ := spelling
  have := spelling_collisionFree
  obtain ⟨steps, w, task, child, h⟩ := exists_waiting
  have hw := (kept_of_run h.opened.run w rfl).toShaped
  have hup := upright_of_run h.opened.run w rfl
  obtain ⟨plan, closure, hplan, hclosure, hids, _, _, _, hopen, hfirst, _⟩ :=
    recovery_plan_sound h.opened.run h.known 0
  rw [h.ordered] at hclosure
  cases hclosure
  have hstopped : ¬ Preparable w 0 task.task_id := by
    intro hpreparable
    obtain ⟨sub, hsub⟩ := hw.tasks.ancestors_of_get? h.stored
    exact h.stopped ((preparable_iff hw hup h.stored hsub).mp hpreparable).1.1
  have hblocked : ¬ Preparable w 0 child.task_id := by
    intro hpreparable
    have hrecovered := recovered_of_preparable hw hup h.ordered h.known hpreparable
    exact h.stopped (hrecovered.proven _ List.mem_cons_self task h.stored).1
  refine ⟨steps, w, task, child, plan, h.opened.run, hplan, hids, ?_, hblocked⟩
  obtain ⟨row, rest, hrows, hid, _⟩ := List.map_eq_cons_iff.mp hids
  have hfirstOpen : row.next_step ≠ .noReviewNeeded := by
    intro hready
    exact hstopped (hid ▸ (hopen row (hrows ▸ List.mem_cons_self)).mp hready)
  exact ⟨row, rest, hrows, hfirstOpen, hfirst [] row rest hrows (by simp)⟩

/-- A reviewer can reconsider a payment while the store has room. -/
theorem exists_fit {t : Identifier} {n : ℕ} (h : Staffing.Open Crew.crew steps w n)
    (hn : n < 5000) (ht : w.tasks.get? t = some task) (hintent : task.intent = Crew.payment) :
    ∃ r : Review, r.task_id = t ∧ Fit 0 r w := by
  obtain ⟨env, hfresh, hclock⟩ := exists_environment w 0
  obtain ⟨cmd, _, hrevision, hnew⟩ := exists_command w Crew.reviewer "session"
  let r : Review := ⟨Crew.deskless, env, Crew.reviewer, cmd, t⟩
  have hsubject : task.intent.scope.subject_id ∈ Crew.reviewer.subjects := by
    rw [hintent]
    exact Crew.crew.reviews.subject
  have hcurrent : Current w env Crew.reviewer cmd :=
    ⟨h.tenant.trans Crew.crew.reviews.tenant.symm, hnew, hrevision.symm, hfresh⟩
  have hasks : Asks r.svc r.env r.call r.transaction w := review_asks rfl ht hsubject hcurrent
  refine ⟨r, rfl, rfl, ⟨task, ht, hsubject⟩, hclock _, hcurrent, ?_⟩
  refine room_of_fits h.run hasks (by rw [h.revision]; exact hn) (fun _ => rfl) ?_
  exact evaluateChange_total (kept_of_run h.run w rfl).tasks ht hsubject

omit [CollisionFree] in
/-- A review is carried out in one way only. -/
theorem Reconsidered.same {s s' : Step} {r : Review} {st st' : Option Workspace}
    (h : Reconsidered s r) (h' : Reconsidered s' r) (hrun : Run casework (steps ++ [s]) st)
    (hrun' : Run casework (steps ++ [s']) st') : st = st' := by
  obtain ⟨hpre, hnow, rfl⟩ := hrun.snoc
  obtain ⟨hpre', hnow', rfl⟩ := hrun'.snoc
  have hsame : s.pre = s'.pre := hpre.unique hpre'
  have hexec := hnow.executed
  have hexec' := hnow'.executed
  rw [h.svc, h.env, h.call] at hexec
  rw [h'.svc, h'.env, h'.call, ← hsame, hexec] at hexec'
  exact congrArg Prod.fst (Except.ok.inj hexec')

omit [CollisionFree] in
/-- Of two reviews each is fit in its turn. -/
theorem allFit_pair {before : List Step} {s : Step} {r r' : Review} {w w' : Workspace}
    (hrun : Run casework before (some w)) (hfit : Fit 0 r w)
    (hlater : Run casework (before ++ [s]) (some w')) (hs : Reconsidered s r)
    (hfit' : Fit 0 r' w') : AllFit before 0 [r, r'] := by
  intro done next rest more w1 hsplit hrun1 hdone
  cases hdone with
  | nil =>
    cases hsplit
    rw [List.append_nil] at hrun1
    cases hrun1.unique hrun
    exact hfit
  | cons hs' hmore =>
    cases hmore with
    | nil =>
      cases hsplit
      cases hs'.same hs hrun1 hlater
      exact hfit'
    | cons _ _ =>
      have hlength := congrArg List.length hsplit
      simp at hlength

/-- The reviews of the stopped payment and of the one that depends on it. -/
theorem Waiting.exists_fits (h : Waiting steps w task child) : ∃ reviews : List Review,
    reviews.map Review.task_id = [task.task_id, child.task_id] ∧ AllFit steps 0 reviews := by
  obtain ⟨r, hkey, hfit⟩ := exists_fit h.opened (by omega) h.stored h.intent
  have hsplit : [task.task_id, child.task_id] = [] ++ r.task_id :: [child.task_id] := by
    rw [hkey]
    rfl
  obtain ⟨s, w1, hrun1, hrevision, hs, _⟩ := review_next h.opened.run hfit h.recovered hsplit
  obtain ⟨_, hw1, hgrows⟩ := run_extends h.opened.run hrun1 w rfl
  cases hw1
  obtain ⟨child1, hknown, hintent, _⟩ := hgrows.tasks _ _ h.known
  have hopen1 : Staffing.Open Crew.crew (steps ++ [s]) w1 10 :=
    ⟨hrun1, hgrows.tenant.trans h.opened.tenant, by rw [hrevision, h.opened.revision]⟩
  obtain ⟨r1, hkey1, hfit1⟩ := exists_fit hopen1 (by omega) hknown (hintent.trans h.child_intent)
  exact ⟨[r, r1], by simp [hkey, hkey1], allFit_pair h.opened.run hfit hrun1 hs hfit1⟩

omit [Sha256] [CollisionFree] in
/-- A stopped payment and the one that depends on it are reconsidered in turn. -/
theorem waiting_recovers : letI := spelling
    ∃ (before more : List Step) (w w' : Workspace) (task child : Models.Task),
      Run casework before (some w) ∧ task.status ≠ .ready ∧
      w.tasks.get? task.task_id = some task ∧
      ancestors w child.task_id = .ok [task.task_id, child.task_id] ∧
      Run casework (before ++ more) (some w') ∧ more.length = 2 ∧
      Preparable w' 0 task.task_id ∧ Preparable w' 0 child.task_id := by
  let _ := spelling
  have := spelling_collisionFree
  obtain ⟨steps, w, task, child, h⟩ := exists_waiting
  obtain ⟨reviews, hkeys, hfits⟩ := h.exists_fits
  obtain ⟨more, w', hrun, hall, hpreparable, _⟩ := recovery_completes h.opened.run h.ordered
    h.recovered.stored h.recovered.unblocked h.recovered.covered hkeys hfits
  have hlength : more.length = 2 := by
    rw [hall.length_eq, ← List.length_map Review.task_id, hkeys]
    rfl
  exact ⟨steps, more, w, w', task, child, h.opened.run, h.stopped, h.stored, h.ordered, hrun,
    hlength, hpreparable _ (by simp), hpreparable _ (by simp)⟩

omit [Sha256] [CollisionFree] in
/-- The payment that waits for a stopped one: its plan does not start with a
review of others, and two reviews leave it ready to be prepared. -/
theorem waiting_is_complete : letI := spelling
    ∃ (before more : List Step) (w w' : Workspace) (child child' : Models.Task)
      (plan : RecoveryPlan) (id : Identifier),
      Run casework before (some w) ∧ recoveryPlan w child.task_id 0 = .ok plan ∧
      (∀ row rest, plan.ordered_steps = row :: rest → row.next_step ≠ .reviewAncestors) ∧
      Run casework (before ++ more) (some w') ∧ more.length = 2 ∧
      w'.tasks.get? child.task_id = some child' ∧ child'.current_decision_id = some id ∧
      Preparable w' 0 child.task_id := by
  let _ := spelling
  have := spelling_collisionFree
  obtain ⟨steps, w, task, child, h⟩ := exists_waiting
  obtain ⟨reviews, hkeys, hfits⟩ := h.exists_fits
  obtain ⟨hplans, hreviews⟩ := recovery_is_complete h.opened.run
  obtain ⟨plan, hplan, hfirst⟩ := hplans child.task_id child 0 h.known
  have hquiet : ∀ k c, w.cases.get? k = some c → c.status = .opened →
      ∀ a ∈ [task.task_id, child.task_id], ∀ atask, w.tasks.get? a = some atask →
        c.scope ≠ atask.intent.scope := by
    intro k c hc hopen a ha atask hget hsame
    have hintent := h.both (mem_closureTasks.mpr ⟨ha, hget⟩)
    exact h.clear.unblocked k c hc hopen (by rw [hsame, ← hintent])
  have hcovered : ∀ a ∈ [task.task_id, child.task_id], ∀ atask, w.tasks.get? a = some atask →
      Covered w 0 atask :=
    fun a ha atask hget => h.recovered.covered (a, atask) (mem_closureTasks.mpr ⟨ha, hget⟩)
  obtain ⟨more, w', hrun, hall, hpreparable, hoffers⟩ :=
    hreviews child.task_id child 0 _ reviews h.known h.ordered hquiet hcovered hkeys hfits
  have hlength : more.length = 2 := by
    rw [hall.length_eq, ← List.length_map Review.task_id, hkeys]
    rfl
  obtain ⟨_, hw', hgrows⟩ := run_extends h.opened.run hrun w rfl
  cases hw'
  obtain ⟨child', hknown, _⟩ := hgrows.tasks _ _ h.known
  obtain ⟨id, hcurrent, _⟩ := hoffers child' hknown
  exact ⟨steps, more, w, w', child, child', plan, id, h.opened.run, hplan,
    fun row rest hrows => hfirst [] row rest hrows (by simp), hrun, hlength, hknown, hcurrent,
    hpreparable _ (by simp)⟩

end Payment

end MemoryGuard.Recovery
