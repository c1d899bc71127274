import MemoryGuard.Frame
import MemoryGuard.Standing

/-!
A decision that has just been stored is current. Storing it changes the status,
the taints and the decision of the task itself, and nothing the policy reads of
the rest of its closure; so the policy, asked again without the reviewer's word,
says the same. A READY decision ends with the first of its grounds to end.
-/
namespace MemoryGuard.Deciding

open OrderedDict Guarded DependencyGraph JsonText ContentHash Models Artifacts Aggregate Core
open Closure Policy Transactions TaskCommands CaseCommands Traces Calls Filing EvidenceEffects
open TaskEffects CaseEffects Effects Growth Upkeep Lifecycle History Integrity Standing Frame
open Progress

variable [Sha256]

section Rejudging

variable {w m : Workspace} {t : Identifier} {time : Instant} {explicit_review : Bool} {task : Task}
  {closure : List Identifier}

/-- The baselines are compared with the intents of the tasks only. -/
theorem reviewBaselines_congr (hbaselines : m.baselines = w.baselines) (time : Instant) :
    ∀ (l l' : List (Identifier × Task)) (causal : List String),
      l.map (fun e => e.2.intent) = l'.map (fun e => e.2.intent) →
      reviewBaselines m time l causal = reviewBaselines w time l' causal := by
  intro l
  induction l with
  | nil =>
    intro l' causal h
    rw [List.map_nil, eq_comm, List.map_eq_nil_iff] at h
    rw [h]
    rfl
  | cons e rest ih =>
    intro l' causal h
    cases l' with
    | nil => simp at h
    | cons e' rest' =>
      simp only [List.map_cons, List.cons.injEq] at h
      obtain ⟨hintent, hrest⟩ := h
      rw [reviewBaselines, reviewBaselines, hbaselines, hintent]
      cases w.baselines.get? (scopeKey e'.2.intent.scope) with
      | none => rfl
      | some b => simp only [ih rest' _ hrest]

/-- A READY verdict clears the task and any other keeps its taints: so the policy
comes to the same result without an explicit review. -/
theorem judge_settled (task task' : Task)
    (hclear : Passes w t time explicit_review task closure → task'.taints.isEmpty = true)
    (hkept : openCases w (closureScopes w closure) = [] →
      ¬ Passes w t time explicit_review task closure → task'.taints = task.taints) :
    judge w t time false task' closure = judge w t time explicit_review task closure := by
  by_cases hblocked : openCases w (closureScopes w closure) = []
  · by_cases hpasses : Passes w t time explicit_review task closure
    · have hagain : Passes w t time false task' closure :=
        ⟨hblocked, hpasses.covered, hpasses.parents, Or.inl (hclear hpasses)⟩
      unfold judge
      simp only [hblocked, ne_eq, not_true_eq_false, if_false]
      split
      · rfl
      · have hstopped : ¬ (¬ task.taints.isEmpty ∧ ¬ explicit_review) :=
          fun h => hpasses.clean.elim h.1 h.2
        have hstopped' : ¬ (¬ task'.taints.isEmpty ∧ ¬ false = true) :=
          fun h => h.1 (hclear hpasses)
        rw [if_neg hstopped, if_neg hstopped']
    · have htaints := hkept hblocked hpasses
      unfold judge
      simp only [hblocked, ne_eq, not_true_eq_false, if_false, htaints]
      split
      · rfl
      · rename_i causal hcovered
        have hcovered := (reviewBaselines_eq_none _).mp (congrArg Prod.fst hcovered)
        split
        · rfl
        · rename_i hparents
          have hstopped : ¬ task.taints.isEmpty ∧ ¬ explicit_review := by
            by_contra hclean
            refine hpasses ⟨hblocked, hcovered, not_not.mp hparents, ?_⟩
            by_cases hempty : task.taints.isEmpty
            · exact Or.inl hempty
            · exact Or.inr (by_contra fun hexplicit => hclean ⟨hempty, hexplicit⟩)
          rw [if_pos hstopped, if_pos ⟨hstopped.1, by simp⟩]
  · unfold judge
    simp only [hblocked, ne_eq, not_false_eq_true, if_true]

end Rejudging

section Stored

variable [CollisionFree] {w m : Workspace} {env : Environment} {actor : Actor} {seq : ℕ}
  {task : Task} {explicit_review : Bool} {d : Decision} {closure : List Identifier}
  (h : Decides env actor seq w m task explicit_review d)
include h

omit [CollisionFree] in
theorem decides_facts : m.cases = w.cases ∧ m.baselines = w.baselines := by
  rw [h.stored]
  exact ⟨rfl, rfl⟩

omit [CollisionFree] in
theorem decides_other {a : Identifier} (hne : a ≠ task.task_id) :
    m.tasks.get? a = w.tasks.get? a := by
  rw [decides_task h, if_neg (Ne.symm hne)]

omit [CollisionFree] in
theorem decides_intents (closure : List Identifier) :
    (closureTasks m closure).map (fun e => e.2.intent) =
      (closureTasks w closure).map (fun e => e.2.intent) := by
  unfold closureTasks
  rw [List.map_filterMap, List.map_filterMap]
  apply List.filterMap_congr
  intro a _
  by_cases ha : a = task.task_id
  · subst ha
    rw [decides_task h, if_pos rfl, h.known]
    rfl
  · rw [decides_other h ha]

variable (hw : Shaped w) (hfresh : w.decisions.get? (env.fresh "decision") = none)
include hw hfresh

/-- The other tasks of the closure are as proven as before. -/
theorem decides_parents (hclosure : ancestors w task.task_id = .ok closure) (time : Instant) :
    (∀ e ∈ closureTasks m closure, e.1 ≠ task.task_id → ParentProven m time e.1 e.2) ↔
      ∀ e ∈ closureTasks w closure, e.1 ≠ task.task_id → ParentProven w time e.1 e.2 := by
  have hsame : ∀ a atask, a ∈ closure → a ≠ task.task_id → w.tasks.get? a = some atask →
      (ParentProven m time a atask ↔ ParentProven w time a atask) := by
    intro a atask ha hne hget
    have hbeyond := hw.tasks.not_back ((mem_ancestors hclosure).mp ha) hne
    have hrecall := decides_sameRecall h hw hfresh hbeyond
    unfold ParentProven
    rw [hrecall.decisions a atask (dependsOn_self w a) hget, hrecall.basis_eq hw.tasks hget]
  constructor
  · rintro hall ⟨a, atask⟩ he hne
    obtain ⟨ha, hget⟩ := mem_closureTasks.mp he
    have hstored := (decides_other h hne).trans hget
    exact (hsame a atask ha hne hget).mp (hall _ (mem_closureTasks.mpr ⟨ha, hstored⟩) hne)
  · rintro hall ⟨a, atask⟩ he hne
    obtain ⟨ha, hget⟩ := mem_closureTasks.mp he
    have hstored := (decides_other h hne).symm.trans hget
    exact (hsame a atask ha hne hstored).mpr (hall _ (mem_closureTasks.mpr ⟨ha, hstored⟩) hne)

variable (hstamped : Stamped seq w)
include hstamped

/-- The policy reads the same after the decision is stored, but for the taints. -/
theorem decides_judge (hclosure : ancestors w task.task_id = .ok closure) (time : Instant)
    (explicit_review' : Bool) (task' : Task) :
    judge m task.task_id time explicit_review' task' closure =
      judge w task.task_id time explicit_review' task' closure := by
  obtain ⟨hcases, hbaselines⟩ := decides_facts h
  have hgrows := decides_grows h hfresh hstamped
  have hscopes := hgrows.closureScopes_eq hw.tasks h.known hclosure
  have hopen : openCases m (closureScopes w closure) = openCases w (closureScopes w closure) := by
    unfold openCases
    rw [hcases]
  have hresolved : resolvedRefs m (closureScopes w closure) =
      resolvedRefs w (closureScopes w closure) := by
    unfold resolvedRefs
    rw [hcases]
  have hrefs : ∀ blockers, blockerRefs m blockers = blockerRefs w blockers := by
    intro blockers
    unfold blockerRefs
    rw [hcases]
  unfold judge
  simp only [hscopes, hopen, hresolved, hrefs,
    reviewBaselines_congr hbaselines time _ _ _ (decides_intents h closure),
    decides_parents h hw hfresh hclosure time]

/-- The policy on the stored result, without an explicit review. -/
theorem decides_policy : ∃ r, policyResult m task.task_id d.created_at false = .ok r ∧
    d.verdict = r.verdict ∧ d.reason_codes = r.reason_codes ∧
    d.active_blockers = r.active_blockers := by
  obtain ⟨r, hr, hverdict, hreasons, hblockers, _⟩ := h.judged.policy
  obtain ⟨task', closure, ht', hclosure, rfl⟩ := policyResult_ok hr
  rw [h.known] at ht'
  cases ht'
  have hgrows := decides_grows h hfresh hstamped
  have hstored : m.tasks.get? task.task_id = some (decidedTask w task d explicit_review) := by
    rw [decides_task h, if_pos rfl]
  have hagain := policyResult_eq d.created_at false hstored
    (hgrows.ancestors_eq hw.tasks h.known hclosure)
  rw [decides_judge h hw hfresh hstamped hclosure, judge_settled task] at hagain
  · exact ⟨_, hagain, hverdict, hreasons, hblockers⟩
  · intro hpasses
    have hready : d.verdict = .ready := hverdict.trans (judge_ready_iff.mpr hpasses)
    by_cases hexplicit : explicit_review = true
    · simp [decidedTask, hready, hexplicit, Dict.isEmpty, Dict.empty]
    · have hnone : d.active_blockers = [] := by
        rw [hblockers, judge_blockers, hpasses.unblocked]
      simp only [decidedTask, hexplicit, Bool.false_eq_true, false_and, if_false, hnone]
      exact hpasses.clean.resolve_right hexplicit
  · intro hunblocked hfails
    have hother : d.verdict ≠ .ready := fun hready =>
      hfails (judge_ready_iff.mp (hverdict.symm.trans hready))
    have hnone : d.active_blockers = [] := by
      rw [hblockers, judge_blockers, hunblocked]
    simp only [decidedTask, hother, and_false, if_false, hnone]
    rfl

omit [CollisionFree] hw hfresh hstamped in
/-- A decision is made to last. -/
theorem decides_unexpired : d.created_at < d.expires_at := by
  by_cases hready : d.verdict = .ready
  · have hexpiry := h.judged.expiry hready
    simp only [readyExpiry, bind_eq_ok, ensure_eq_ok, pure_eq_ok] at hexpiry
    obtain ⟨_, _, _, hlt, hexpires⟩ := hexpiry
    exact hexpires ▸ hlt
  · rw [h.judged.otherwise hready]
    exact lt_add_of_pos_right _ (by decide)

/-- A stored decision is valid at the moment it was made. -/
theorem decides_valid : ∃ v, decisionValidity m task.task_id d.created_at = .ok v ∧
    v.current_proof_valid = true ∧ v.effective_verdict = d.verdict ∧
    v.effective_reason_codes = d.reason_codes := by
  obtain ⟨r, hr, hverdict, hreasons, _⟩ := decides_policy h hw hfresh hstamped
  have hbasis := Completion.decides_basis h hw hstamped hfresh
  have hstored : m.tasks.get? task.task_id = some (decidedTask w task d explicit_review) := by
    rw [decides_task h, if_pos rfl]
  have hcurrent := decides_current h
  have hlive := not_le.mpr (decides_unexpired h)
  have hstatus : (decidedTask w task d explicit_review).status = d.verdict.status := rfl
  refine ⟨_, bind_eq_ok.mpr ⟨_, fetch_eq_ok.mpr hstored, bind_eq_ok.mpr ⟨r, hr,
    bind_eq_ok.mpr ⟨d.basis_hash, hbasis, rfl⟩⟩⟩, ?_, hverdict.symm, hreasons.symm⟩
  simp only [hcurrent, listed, hlive, hstatus, hverdict, hreasons, ne_eq, not_true_eq_false, or_self,
    if_false, List.append_nil, List.isEmpty_nil]

end Stored

section Bounds

variable [CollisionFree] {w m : Workspace} {env : Environment} {actor : Actor} {seq : ℕ}
  {task : Task} {explicit_review : Bool} {d : Decision} {t : Identifier} {created : Instant}

/-- The moments at which a READY decision of a task may have to end. -/
def Bounds (w : Workspace) (t : Identifier) (created : Instant) : Set Instant :=
  {x | x = created + minutes 10 ∨ ∃ a task, ReliesOn w t a ∧ w.tasks.get? a = some task ∧
    ((∃ b, w.baselines.get? (scopeKey task.intent.scope) = some b ∧ b.expires_at = x) ∨
      (a ≠ t ∧ ∃ d, currentDecision w task = some d ∧ d.expires_at = x))}

omit [Sha256] [CollisionFree] in
theorem isLeast_foldl_min (l : List Instant) (start : Instant) :
    IsLeast {x | x = start ∨ x ∈ l} (l.foldl min start) := by
  induction l generalizing start with
  | nil =>
    refine ⟨Or.inl rfl, ?_⟩
    rintro x (rfl | hx)
    · exact le_refl _
    · cases hx
  | cons y rest ih =>
    obtain ⟨hmem, hleast⟩ := ih (min start y)
    rw [List.foldl_cons]
    refine ⟨?_, ?_⟩
    · rcases hmem with hmin | hmem
      · rcases min_choice start y with hstart | hy
        · exact Or.inl (hmin.trans hstart)
        · exact Or.inr (List.mem_cons.mpr (Or.inl (hmin.trans hy)))
      · exact Or.inr (List.mem_cons_of_mem y hmem)
    · rintro x (rfl | hx)
      · exact (hleast (Or.inl rfl)).trans (min_le_left _ _)
      · rcases List.mem_cons.mp hx with rfl | hx
        · exact (hleast (Or.inl rfl)).trans (min_le_right _ _)
        · exact hleast (Or.inr hx)

omit [CollisionFree] in
/-- The expiry of a READY decision is the first of its bounds. -/
theorem readyExpiry_isLeast {expires_at : Instant}
    (h : readyExpiry w t created (created + minutes 10) = .ok expires_at) :
    IsLeast (Bounds w t created) expires_at := by
  simp only [readyExpiry, bind_eq_ok, pure_eq_ok] at h
  obtain ⟨closure, hclosure, _, _, rfl⟩ := h
  have hleast := isLeast_foldl_min ((closureTasks w closure).flatMap (fun e =>
    baselineLimit w e.2 ++ if e.1 = t then [] else decisionLimit w e.2)) (created + minutes 10)
  have hlimits : ∀ x, x ∈ ((closureTasks w closure).flatMap (fun e =>
      baselineLimit w e.2 ++ if e.1 = t then [] else decisionLimit w e.2)) ↔
      ∃ a task, ReliesOn w t a ∧ w.tasks.get? a = some task ∧
        ((∃ b, w.baselines.get? (scopeKey task.intent.scope) = some b ∧ b.expires_at = x) ∨
          (a ≠ t ∧ ∃ d, currentDecision w task = some d ∧ d.expires_at = x)) := by
    intro x
    have hbaseline : ∀ task, x ∈ baselineLimit w task ↔
        ∃ b, w.baselines.get? (scopeKey task.intent.scope) = some b ∧ b.expires_at = x := by
      intro task
      simp [baselineLimit]
    have hdecision : ∀ task, x ∈ decisionLimit w task ↔
        ∃ d, currentDecision w task = some d ∧ d.expires_at = x := by
      intro task
      simp [decisionLimit]
    simp only [List.mem_flatMap, Prod.exists, mem_closureTasks, mem_ancestors hclosure,
      List.mem_append, hbaseline, and_assoc]
    constructor
    · rintro ⟨a, task, ha, hget, hb | hd⟩
      · exact ⟨a, task, ha, hget, Or.inl hb⟩
      · by_cases hself : a = t
        · simp [hself] at hd
        · rw [if_neg hself, hdecision] at hd
          exact ⟨a, task, ha, hget, Or.inr ⟨hself, hd⟩⟩
    · rintro ⟨a, task, ha, hget, hb | ⟨hself, hd⟩⟩
      · exact ⟨a, task, ha, hget, Or.inl hb⟩
      · refine ⟨a, task, ha, hget, Or.inr ?_⟩
        rw [if_neg hself, hdecision]
        exact hd
  simp only [hlimits] at hleast
  exact hleast

/-- Storing a decision moves none of the bounds of its task. -/
theorem decides_bounds (h : Decides env actor seq w m task explicit_review d) (hw : Shaped w)
    (hfresh : w.decisions.get? (env.fresh "decision") = none) (hstamped : Stamped seq w)
    (created : Instant) : Bounds m task.task_id created = Bounds w task.task_id created := by
  obtain ⟨_, hbaselines⟩ := decides_facts h
  have hgrows := decides_grows h hfresh hstamped
  have hrelies : ∀ a, ReliesOn m task.task_id a ↔ ReliesOn w task.task_id a :=
    fun a => hgrows.dependsOn_iff hw.tasks h.known
  ext x
  unfold Bounds
  simp only [Set.mem_ofPred_eq, hrelies, hbaselines]
  refine or_congr Iff.rfl (exists_congr fun a => ?_)
  by_cases ha : a = task.task_id
  · subst ha
    simp [decides_task h, h.known, decidedTask]
  · rw [decides_other h ha]
    refine exists_congr fun atask => ?_
    constructor
    · rintro ⟨hr, hget, hx⟩
      have hrecall := decides_sameRecall h hw hfresh (hw.tasks.not_back hr ha)
      rw [hrecall.decisions a atask (dependsOn_self w a) hget] at hx
      exact ⟨hr, hget, hx⟩
    · rintro ⟨hr, hget, hx⟩
      have hrecall := decides_sameRecall h hw hfresh (hw.tasks.not_back hr ha)
      rw [← hrecall.decisions a atask (dependsOn_self w a) hget] at hx
      exact ⟨hr, hget, hx⟩

end Bounds

section Refusals

variable {w : Workspace} {svc : Service} {env : Environment} {actor : Actor} {cmd : Command}
  {tx : Transaction} {task : Task}

/-- The error of a proof whose bounds are all reached. -/
def basisExpired : CaseworkError := conflict "READY_BASIS_EXPIRED"

omit [Sha256] in
theorem findTask_refusal {t : Identifier} : findTask w actor t ≠ .error basisExpired := by
  simp [findTask, bind_eq_error, ensure_eq_error, fetch_eq_error, basisExpired, conflict, pure,
    Except.pure]

omit [Sha256] in
theorem findCase_refusal {c : Identifier} : findCase w actor c ≠ .error basisExpired := by
  simp [findCase, bind_eq_error, ensure_eq_error, fetch_eq_error, basisExpired, conflict, pure,
    Except.pure]

omit [Sha256] in
theorem ancestors_refusal {t : Identifier} : ancestors w t ≠ .error basisExpired := by
  unfold ancestors
  split <;> simp [basisExpired, conflict]

theorem taskBasis_refusal {t : Identifier} : taskBasis w t ≠ .error basisExpired := by
  simp [taskBasis, bind_eq_error, ancestors_refusal, pure, Except.pure]

theorem policyResult_refusal {t : Identifier} {time : Instant} {explicit_review : Bool} :
    policyResult w t time explicit_review ≠ .error basisExpired := by
  have hitem : backendUnavailable ≠ basisExpired := by decide
  simp [policyResult, item, bind_eq_error, fetch_eq_error, ancestors_refusal, hitem, pure,
    Except.pure]

theorem validateWorkspace_refusal : validateWorkspace w ≠ .error basisExpired := by
  simp [validateWorkspace, bind_eq_error, ensure_eq_error, basisExpired, conflict]

/-- A READY verdict leaves its proof some time, as every bound lies ahead. -/
theorem makeDecision_refusal {seq : ℕ} {explicit_review : Bool} :
    makeDecision svc env actor cmd w task seq explicit_review ≠ .error basisExpired := by
  intro h
  simp only [makeDecision, bind_eq_error, policyResult_refusal, taskBasis_refusal, false_or] at h
  obtain ⟨r, hr, basis, _, h⟩ := h
  obtain ⟨task', closure, ht', hclosure, rfl⟩ := policyResult_ok hr
  split at h
  · rename_i hready
    have hpasses := judge_ready_iff.mp hready
    have hlater : env.clock .decision < env.clock .decision + minutes 10 :=
      lt_add_of_pos_right _ (by decide)
    obtain ⟨expires_at, hexpires⟩ := readyExpiry_total hclosure hpasses hlater
    rw [hexpires] at h
    simp [bind_eq_error, pure, Except.pure] at h
  · simp [bind_eq_error, pure, Except.pure] at h

theorem decide_refusal {seq : ℕ} {explicit_review : Bool} :
    TaskCommands.decide svc env actor cmd w task seq explicit_review ≠ .error basisExpired := by
  simp [TaskCommands.decide, bind_eq_error, makeDecision_refusal, pure, Except.pure]

/-- The changes that make a decision. -/
theorem evaluateChange_refusal {t : Identifier} {reconsider : Bool} {seq : ℕ} :
    evaluateChange svc env actor cmd t reconsider w seq ≠ .error basisExpired := by
  have hitem : backendUnavailable ≠ basisExpired := by decide
  simp [evaluateChange, item, bind_eq_error, fetch_eq_error, findTask_refusal, decide_refusal,
    hitem, pure, Except.pure]

omit [Sha256] in
theorem checkParents_refusal {intent : Intent} (l : List Identifier) :
    forM l (checkParent actor w intent) ≠ .error basisExpired := by
  have hforbidden : (⟨"CROSS_SUBJECT_DEPENDENCY_FORBIDDEN", 403⟩ : CaseworkError) ≠
      basisExpired := by decide
  induction l with
  | nil => simp [pure, Except.pure]
  | cons p rest ih =>
    rw [List.forM_cons]
    simp [checkParent, bind_eq_error, ensure_eq_error, findTask_refusal, hforbidden, ih]

theorem registerTaskChange_refusal {intent : Intent} {depends_on : List Identifier} {seq : ℕ} :
    registerTaskChange svc env actor cmd intent depends_on w seq ≠ .error basisExpired := by
  have hitem : backendUnavailable ≠ basisExpired := by decide
  have hfull : (⟨"TASK_CAPACITY_REACHED", 413⟩ : CaseworkError) ≠ basisExpired := by decide
  have htwice : (⟨"DUPLICATE_DEPENDENCY", 422⟩ : CaseworkError) ≠ basisExpired := by decide
  simp [registerTaskChange, item, bind_eq_error, ensure_eq_error, fetch_eq_error,
    checkParents_refusal, decide_refusal, hitem, hfull, htwice, pure, Except.pure]

omit [Sha256] in
theorem recheckScopes_refusal : recheckScopes w tx ≠ .error basisExpired := by
  have hitem : backendUnavailable ≠ basisExpired := by decide
  have hunknown : (⟨"HANDOFF_NOT_FOUND", 404⟩ : CaseworkError) ≠ basisExpired := by decide
  unfold recheckScopes
  split <;> split <;> split <;>
    simp [bind_eq_error, ensure_eq_error, fetch_eq_error, findTask_refusal, findCase_refusal,
      hitem, hunknown, pure, Except.pure]

theorem replay_refusal {previous : IdempotencyEntry} :
    replay env w tx previous ≠ .error basisExpired := by
  have hitem : backendUnavailable ≠ basisExpired := by decide
  have hstale : conflict "STALE_OR_BLOCKED_REVIEW" ≠ basisExpired := by decide
  have hother : conflict "IDEMPOTENCY_CONFLICT" ≠ basisExpired := by decide
  have hreview : recheckReview env w tx ≠ .error basisExpired := by
    simp [recheckReview, bind_eq_error, ensure_eq_error, fetch_eq_error, findTask_refusal,
      policyResult_refusal, taskBasis_refusal, hitem, hstale]
  unfold replay
  split <;> simp [bind_eq_error, ensure_eq_error, hother, hreview, pure, Except.pure]

/-- The transaction itself does not raise the error, so only its change can. -/
theorem mutate_refusal {st : Option Workspace} (hbasis : tx.relevant_basis = none)
    (hchange : ∀ w seq, tx.change w seq ≠ .error basisExpired) :
    mutate svc env st tx ≠ .error basisExpired := by
  have hloaded : loaded st tx ≠ .error basisExpired := by
    have hmissing : (⟨"MEMORY_WORKSPACE_MISSING", 503⟩ : CaseworkError) ≠ basisExpired := by
      decide
    unfold loaded
    split <;> simp [bind_eq_error, ensure_eq_error, hmissing, pure, Except.pure]
  have htenant : (⟨"TENANT_BINDING_FAILED", 503⟩ : CaseworkError) ≠ basisExpired := by decide
  have hfull : (⟨"WORKSPACE_CAPACITY_REACHED", 413⟩ : CaseworkError) ≠ basisExpired := by decide
  have hrevision : conflict "REVISION_CONFLICT" ≠ basisExpired := by decide
  have hexists : conflict "WORKSPACE_ALREADY_EXISTS" ≠ basisExpired := by decide
  have hpreconditions : ∀ w, preconditions w tx ≠ .error basisExpired := by
    intro w
    simp [preconditions, hbasis, bind_eq_error, ensure_eq_error, hfull, hrevision, hexists]
  have hsave : ∀ w, save svc w ≠ .error basisExpired := by
    intro w
    simp [save, bind_eq_error, ensure_eq_error, validateWorkspace_refusal, hfull]
  intro h
  simp only [mutate, bind_eq_error, ensure_eq_error, hloaded, validateWorkspace_refusal,
    htenant, recheckScopes_refusal, and_false, false_or] at h
  obtain ⟨w, _, _, _, _, _, _, _, h⟩ := h
  split at h
  · simp [bind_eq_error, replay_refusal, pure, Except.pure] at h
  · simp [bind_eq_error, hpreconditions, hchange, hsave, pure, Except.pure] at h

/-- A request that makes a decision. -/
def Decisive : Call → Prop
  | .registerTask _ _ _ _ => True
  | .evaluate _ _ _ _ => True
  | _ => False

omit [Sha256] in
theorem authorize_refusal {roles : List Role} {subject : Option Identifier} :
    authorize actor roles subject ≠ .error basisExpired := by
  have hforbidden : (⟨"FORBIDDEN", 403⟩ : CaseworkError) ≠ basisExpired := by decide
  simp [authorize, ensure_eq_error, hforbidden]

theorem transaction_refusal {st : Option Workspace} (call : Call)
    {request : Except CaseworkError Transaction} (hprepare : call.prepare svc env =
      inTransaction request) (hrequest : request ≠ .error basisExpired)
    (hmutate : ∀ tx, request = .ok tx → mutate svc env st tx ≠ .error basisExpired) :
    exec svc env st call ≠ .error basisExpired := by
  unfold exec
  rw [hprepare]
  cases request with
  | error e =>
    intro h
    have herror : e = basisExpired := Except.error.inj h
    exact hrequest (congrArg Except.error herror)
  | ok tx => exact hmutate tx rfl

/-- No request that makes a decision finds its basis expired. -/
theorem exec_refusal {st : Option Workspace} {call : Call} (hcall : Decisive call) :
    exec svc env st call ≠ .error basisExpired := by
  cases call with
  | registerTask actor cmd intent depends_on =>
    refine transaction_refusal (.registerTask actor cmd intent depends_on) rfl ?_ ?_
    · simp [registerTask, bind_eq_error, authorize_refusal, pure, Except.pure]
    · intro tx htx
      simp only [registerTask, bind_eq_ok, pure_eq_ok] at htx
      obtain ⟨_, _, rfl⟩ := htx
      exact mutate_refusal rfl (fun _ _ => registerTaskChange_refusal)
  | evaluate actor cmd t reconsider =>
    refine transaction_refusal (.evaluate actor cmd t reconsider) rfl ?_ ?_
    · simp [evaluate, bind_eq_error, authorize_refusal, pure, Except.pure]
    · intro tx htx
      simp only [evaluate, bind_eq_ok, pure_eq_ok] at htx
      obtain ⟨_, _, rfl⟩ := htx
      exact mutate_refusal rfl (fun _ _ => evaluateChange_refusal)
  | _ => exact hcall.elim

end Refusals

section Fresh

variable [CollisionFree] {steps : List Step} {st : Option Workspace} {w m : Workspace}
  {svc : Service} {env : Environment} {actor : Actor} {seq : ℕ} {tx : Transaction}
  {result : Result}

/-- The task that a request decides on. -/
def decidesOn (env : Environment) : Call → Identifier
  | .evaluate _ _ t _ => t
  | _ => env.fresh "task"

/-- A decision that its task points to and that decision_validity confirms. -/
structure Confirmed (w : Workspace) (d : Decision) (time : Instant) : Prop where
  current : ∃ task, w.tasks.get? d.task_id = some task ∧
    task.current_decision_id = some d.decision_id
  stored : w.decisions.get? d.decision_id = some d
  valid : ∃ v, decisionValidity w d.task_id time = .ok v ∧ v.current_proof_valid = true ∧
    v.effective_verdict = d.verdict ∧ v.effective_reason_codes = d.reason_codes

/-- A decision that ends with the first of its bounds, after it was made. -/
structure Bounded (w : Workspace) (d : Decision) : Prop where
  lives : d.created_at < d.expires_at
  least : IsLeast (Bounds w d.task_id d.created_at) d.expires_at

/-- What the answer to a decisive request reports. -/
def Rules (env : Environment) (m : Workspace) (call : Call) (result : Result) : Prop :=
  ∃ d, ruling result = some d ∧ d.task_id = decidesOn env call ∧
    d.created_at = env.clock .decision ∧ Confirmed m d (env.clock .decision) ∧
    (d.verdict = .ready → Bounded m d)

theorem decides_confirmed {w1 : Workspace} {task : Task} {explicit_review : Bool} {d : Decision}
    (h : Decides env actor seq w1 m task explicit_review d) (hw : Shaped w1)
    (hfresh : w1.decisions.get? (env.fresh "decision") = none) (hstamped : Stamped seq w1) :
    Confirmed m d d.created_at ∧ (d.verdict = .ready → Bounded m d) := by
  have hid := h.judged.task_id
  have hstored := decides_current h
  refine ⟨⟨?_, ?_, ?_⟩, ?_⟩
  · exact ⟨_, by rw [hid, decides_task h, if_pos rfl], rfl⟩
  · rw [decides_decisions h]
    exact Dict.get?_set_self ..
  · rw [hid]
    exact decides_valid h hw hfresh hstamped
  · intro hready
    refine ⟨decides_unexpired h, ?_⟩
    rw [hid, decides_bounds h hw hfresh hstamped]
    exact readyExpiry_isLeast (h.judged.expiry hready)

/-- A decisive request that goes through reports what it decided. -/
theorem decisive_rules {call : Call} (hcall : Decisive call) (hw : Kept w) (hfresh : Fresh env w)
    (hp : call.prepare svc env = .ok (.transaction tx))
    (h : tx.change w (w.revision + 1) = .ok (m, result)) : Rules env m call result := by
  have hstamped := hw.stamped.mono (Nat.le_succ w.revision)
  have hdecision := hfresh.decisions "decision"
  cases call with
  | registerTask actor cmd intent depends_on =>
    have hp := inTransaction_transaction hp
    simp only [registerTask, bind_eq_ok, pure_eq_ok] at hp
    obtain ⟨_, _, rfl⟩ := hp
    obtain ⟨_, task, d, hruling, _, hid, hnew, hdecides⟩ :=
      registerTaskChange_effect (hfresh.tasks "task") h
    have hconfirmed := decides_confirmed hdecides (newTask_shaped hw.toShaped hnew) hdecision
      ⟨hstamped.baselines, hstamped.cases, hstamped.decisions⟩
    rw [hdecides.created] at hconfirmed
    exact ⟨d, hruling, hdecides.judged.task_id.trans hid, hdecides.created, hconfirmed⟩
  | evaluate actor cmd t reconsider =>
    have hp := inTransaction_transaction hp
    simp only [evaluate, bind_eq_ok, pure_eq_ok] at hp
    obtain ⟨_, _, rfl⟩ := hp
    obtain ⟨_, task, d, hruling, hid, hdecides⟩ := evaluateChange_effect hw.tasks h
    have hconfirmed := decides_confirmed hdecides hw.toShaped hdecision hstamped
    rw [hdecides.created] at hconfirmed
    exact ⟨d, hruling, hdecides.judged.task_id.trans hid, hdecides.created, hconfirmed⟩
  | _ => exact hcall.elim

omit [CollisionFree] in
theorem recorded_rules {call : Call} (hm : TasksKept m) (h : Rules env m call result) :
    Rules env (recorded env w m tx result) call result := by
  obtain ⟨d, hruling, hon, hcreated, ⟨⟨task, ht, hcurrent⟩, hstored, v, hv⟩, hbounded⟩ := h
  have hrecall : SameRecall m (recorded env w m tx result) d.task_id :=
    recorded_sameRecall (sameRecall_refl m d.task_id)
  refine ⟨d, hruling, hon, hcreated, ⟨⟨task, ht, hcurrent⟩, hstored, v, ?_, hv.2⟩, ?_⟩
  · rw [hrecall.decisionValidity_eq hm ht]
    exact hv.1
  · intro hready
    exact ⟨(hbounded hready).lives, (hbounded hready).least⟩

/-- Whatever it says, a decision that was just made is current, its proof is
valid at that moment and repeats its verdict and reasons, and a READY one ends
with the first of its bounds. No request for a decision finds the basis of a
READY verdict expired. -/
theorem fresh_decisions_are_current (hrun : Run casework steps st) :
    (∀ s, s.pre = st → Allowed steps s → s.Committed → Decisive s.call →
      ∃ m, s.post = some m ∧ Rules s.env m s.call s.response.result) ∧
    ∀ svc env call, Decisive call → exec svc env st call ≠ .error (conflict "READY_BASIS_EXPIRED") := by
  constructor
  · intro s hpre hnow hcommitted hcall
    subst hpre
    rcases step_cases hrun hnow with ⟨_, w, tx, m, result, hh⟩ | ⟨hrepeated, _⟩
    · refine ⟨_, hh.commits.post, ?_⟩
      have hrules := decisive_rules hcall hh.kept hh.fresh hh.commits.prepared hh.commits.changed
      have hshaped := (effect_keeps hh.effect hh.kept hh.fresh).1
      rw [hh.commits.response]
      exact recorded_rules hshaped.tasks hrules
    · exact absurd hcommitted hrepeated
  · exact fun svc env call hcall => exec_refusal hcall

omit [Sha256] [CollisionFree] in
theorem payment_decision_current : letI := spelling
    ∃ steps s m, Run casework steps s.pre ∧ Allowed steps s ∧ Decisive s.call ∧
      s.post = some m ∧ Rules s.env m s.call s.response.result ∧
      exec s.svc s.env s.pre s.call ≠ .error (conflict "READY_BASIS_EXPIRED") := by
  let _ := spelling
  have := spelling_collisionFree
  obtain ⟨steps, w, task, d, h⟩ := Crew.exists_started
  have hscope : task.intent.scope.subject_id = Crew.crew.subject_id := by
    rw [h.intent]
    rfl
  obtain ⟨cmd, s, _, w', _, hcall, hpre, hpost, hopen, hcommitted, _⟩ :=
    Completion.evaluate_decides h.opened (by omega) h.proves.stored hscope false 0
  have hdecisive : Decisive s.call := by
    rw [hcall]
    trivial
  have hnow := hopen.run.snoc.2.1
  obtain ⟨hrules, hnever⟩ := fresh_decisions_are_current h.opened.run
  obtain ⟨m, hm, hruled⟩ := hrules s hpre hnow hcommitted hdecisive
  have hrun : Run casework steps s.pre := hpre ▸ h.opened.run
  exact ⟨steps, s, m, hrun, hnow, hdecisive, hm, hruled, hpre ▸ hnever s.svc s.env s.call hdecisive⟩

end Fresh

end MemoryGuard.Deciding
