import MemoryGuard.Closure

/-!
What the verdict of the policy means, and what it depends on. READY is the
conjunction of five conditions; DENY is the presence of a blocker. Two
workspaces that recall the same for a task give it the same basis, the same
verdict at every time and the same validity.
-/
namespace MemoryGuard.Policy

open OrderedDict Guarded DependencyGraph JsonText ContentHash Models Artifacts Aggregate Core
open Closure

variable [Sha256]

section Verdicts

variable {state : Workspace} {t : Identifier} {time : Instant} {explicit_review : Bool}
  {task : Task} {closure : List Identifier}

/-- A baseline for the scope that is unexpired and high enough. -/
def Covered (state : Workspace) (time : Instant) (task : Task) : Prop :=
  ∃ b, state.baselines.get? (scopeKey task.intent.scope) = some b ∧ time < b.expires_at ∧
    task.intent.amount_minor.value ≤ b.limit_minor.value

theorem reviewBaselines_eq_none {l : List (Identifier × Task)} (causal : List String) :
    (reviewBaselines state time l causal).1 = none ↔ ∀ e ∈ l, Covered state time e.2 := by
  induction l generalizing causal with
  | nil => simp [reviewBaselines]
  | cons e rest ih =>
    obtain ⟨key, candidate⟩ := e
    rw [List.forall_mem_cons]
    unfold reviewBaselines Covered
    cases hb : state.baselines.get? (scopeKey candidate.intent.scope) with
    | none => simp
    | some b =>
      by_cases hexp : b.expires_at ≤ time
      · simp [hexp, Int.not_lt.mpr hexp]
      · by_cases hlim : candidate.intent.amount_minor.value > b.limit_minor.value
        · simp [hexp, hlim]
        · simp only [hexp, hlim, if_false, ih, Option.some.injEq, exists_eq_left']
          have hlt : time < b.expires_at := Int.not_le.mp hexp
          have hle : candidate.intent.amount_minor.value ≤ b.limit_minor.value := by omega
          simp only [hlt, hle, and_self, true_and]
          rfl

/-- The conditions of a READY verdict. -/
structure Passes (state : Workspace) (t : Identifier) (time : Instant) (explicit_review : Bool)
    (task : Task) (closure : List Identifier) : Prop where
  unblocked : openCases state (closureScopes state closure) = []
  covered : ∀ e ∈ closureTasks state closure, Covered state time e.2
  parents : ∀ e ∈ closureTasks state closure, e.1 ≠ t → ParentProven state time e.1 e.2
  clean : task.taints.isEmpty ∨ explicit_review

theorem judge_deny_iff : (judge state t time explicit_review task closure).verdict = .deny ↔
    openCases state (closureScopes state closure) ≠ [] := by
  unfold judge
  by_cases hb : openCases state (closureScopes state closure) = []
  · simp only [hb, ne_eq, not_true_eq_false, if_false, iff_false]
    split
    · simp [needsHuman]
    · split
      · simp [needsHuman]
      · split <;> simp [needsHuman]
  · simp [hb]

theorem judge_ready_iff : (judge state t time explicit_review task closure).verdict = .ready ↔
    Passes state t time explicit_review task closure := by
  constructor
  · intro h
    unfold judge at h
    by_cases hb : openCases state (closureScopes state closure) = []
    · simp only [hb, ne_eq, not_true_eq_false, if_false] at h
      split at h
      · simp [needsHuman] at h
      · rename_i causal hcovered
        split at h
        · simp [needsHuman] at h
        · rename_i hparents
          split at h
          · simp [needsHuman] at h
          · rename_i hclean
            refine ⟨hb, ?_, not_not.mp hparents, ?_⟩
            · exact (reviewBaselines_eq_none _).mp (by rw [hcovered])
            · by_cases htaints : task.taints.isEmpty
              · exact Or.inl htaints
              · right
                by_contra hexplicit
                exact hclean ⟨htaints, hexplicit⟩
    · simp [hb] at h
  · intro h
    unfold judge
    simp only [h.unblocked, ne_eq, not_true_eq_false, if_false]
    split
    · rename_i reason causal hreason
      have hnone := (reviewBaselines_eq_none (blockerRefs state [] ++
        resolvedRefs state (closureScopes state closure))).mpr h.covered
      simp [hreason] at hnone
    · have hclean : ¬ (¬ task.taints.isEmpty ∧ ¬ explicit_review) := fun hc =>
        h.clean.elim hc.1 hc.2
      rw [if_neg (not_not.mpr h.parents), if_neg hclean]

theorem judge_blockers : (judge state t time explicit_review task closure).active_blockers =
    openCases state (closureScopes state closure) := by
  unfold judge
  by_cases hb : openCases state (closureScopes state closure) = []
  · simp only [hb, ne_eq, not_true_eq_false, if_false]
    split
    · simp [needsHuman]
    · split
      · simp [needsHuman]
      · split <;> simp [needsHuman]
  · simp [hb]

/-- A READY verdict always gives the same reasons. -/
theorem judge_reasons (h : Passes state t time explicit_review task closure) :
    (judge state t time explicit_review task closure).reason_codes =
      ["CURRENT_POLICY_PASSED", "HUMAN_CONFIRMATION_STILL_REQUIRED"] := by
  have hready := judge_ready_iff.mpr h
  unfold judge at hready ⊢
  simp only [h.unblocked, ne_eq, not_true_eq_false, if_false] at hready ⊢
  split at hready
  · simp [needsHuman] at hready
  · split at hready
    · simp [needsHuman] at hready
    · rename_i hparents
      rw [if_neg hparents]
      split at hready
      · simp [needsHuman] at hready
      · rename_i hclean
        rw [if_neg hclean]

theorem policyResult_eq (time : Instant) (explicit_review : Bool)
    (htask : state.tasks.get? t = some task)
    (hclosure : ancestors state t = .ok closure) :
    policyResult state t time explicit_review =
      .ok (judge state t time explicit_review task closure) := by
  simp [policyResult, item, htask, fetch, hclosure, bind, Except.bind, pure, Except.pure]

theorem policyResult_ok {r : PolicyResult} (h : policyResult state t time explicit_review = .ok r) :
    ∃ task closure, state.tasks.get? t = some task ∧ ancestors state t = .ok closure ∧
      r = judge state t time explicit_review task closure := by
  simp only [policyResult, item, bind_eq_ok, fetch_eq_ok, pure_eq_ok] at h
  obtain ⟨task, htask, closure, hclosure, rfl⟩ := h
  exact ⟨task, closure, htask, hclosure, rfl⟩

theorem taskBasis_eq (hclosure : ancestors state t = .ok closure) :
    taskBasis state t = .ok (digest "task-basis" (basisBody state t closure)) := by
  simp [taskBasis, hclosure, bind, Except.bind, pure, Except.pure]

end Verdicts

section Agreement

variable {w w' : Workspace} {t : Identifier}

/-- Two workspaces recall the same for a task: the closure with its current
decisions, and the baselines, cases and resolution links of its scopes. -/
structure SameRecall (w w' : Workspace) (t : Identifier) : Prop where
  size : w.tasks.size ≤ w'.tasks.size
  tasks : ∀ a, ReliesOn w t a → w'.tasks.get? a = w.tasks.get? a
  decisions : ∀ a task, ReliesOn w t a → w.tasks.get? a = some task →
    currentDecision w' task = currentDecision w task
  baselines : ∀ key, (∃ scope, key = scopeKey scope ∧ Touches w t scope) →
    w'.baselines.get? key = w.baselines.get? key
  relevant : ∀ scopes : List Digest,
    (∀ key ∈ scopes, ∃ scope, key = scopeKey scope ∧ Touches w t scope) →
    relevantBaselines w' scopes = relevantBaselines w scopes ∧
      relevantCases w' scopes = relevantCases w scopes ∧
      resolutionLinks w' ((relevantCases w scopes).map Prod.fst) =
        resolutionLinks w ((relevantCases w scopes).map Prod.fst)

namespace SameRecall

/-- What a task recalls covers what its dependencies recall. -/
theorem ancestor (h : SameRecall w w' t) {a : Identifier} (ha : ReliesOn w t a) :
    SameRecall w w' a := by
  have htouch : ∀ scope, Touches w a scope → Touches w t scope := by
    rintro scope ⟨b, task, hb, hget, hkey⟩
    exact ⟨b, task, Reaches.trans ha hb, hget, hkey⟩
  refine ⟨h.size, fun b hb => h.tasks b (Reaches.trans ha hb),
    fun b task hb => h.decisions b task (Reaches.trans ha hb), ?_, ?_⟩
  · rintro key ⟨scope, rfl, hs⟩
    exact h.baselines _ ⟨scope, rfl, htouch scope hs⟩
  · intro scopes hscopes
    apply h.relevant
    intro key hkey
    obtain ⟨scope, rfl, hs⟩ := hscopes key hkey
    exact ⟨scope, rfl, htouch scope hs⟩

variable {closure : List Identifier}

theorem ancestors_eq (h : SameRecall w w' t) (hok : ancestors w t = .ok closure) :
    ancestors w' t = .ok closure := by
  apply ancestors_mono h.size _ hok
  intro a ha
  unfold dependsOn
  rw [h.tasks a ha]

theorem closureTasks_eq (h : SameRecall w w' t) (hok : ancestors w t = .ok closure) :
    closureTasks w' closure = closureTasks w closure := by
  unfold closureTasks
  apply List.filterMap_congr
  intro a ha
  rw [h.tasks a ((mem_ancestors hok).mp ha)]

theorem closureScopes_eq (h : SameRecall w w' t) (hok : ancestors w t = .ok closure) :
    closureScopes w' closure = closureScopes w closure := by
  unfold closureScopes
  rw [h.closureTasks_eq hok]

theorem scopes_touch (hok : ancestors w t = .ok closure) :
    ∀ key ∈ closureScopes w closure, ∃ scope, key = scopeKey scope ∧ Touches w t scope := by
  intro key hkey
  obtain ⟨a, task, ha, hget, rfl⟩ := mem_closureScopes.mp hkey
  exact ⟨task.intent.scope, rfl, a, task, (mem_ancestors hok).mp ha, hget, rfl⟩

theorem relevant_eq (h : SameRecall w w' t) (hok : ancestors w t = .ok closure) :
    relevantBaselines w' (closureScopes w closure) = relevantBaselines w (closureScopes w closure) ∧
      relevantCases w' (closureScopes w closure) = relevantCases w (closureScopes w closure) ∧
      resolutionLinks w' ((relevantCases w (closureScopes w closure)).map Prod.fst) =
        resolutionLinks w ((relevantCases w (closureScopes w closure)).map Prod.fst) :=
  h.relevant _ (scopes_touch hok)

theorem basisBody_eq (h : SameRecall w w' t) (hok : ancestors w t = .ok closure) :
    basisBody w' t closure = basisBody w t closure := by
  obtain ⟨hbaselines, hcases, hlinks⟩ := h.relevant_eq hok
  unfold basisBody
  simp only [h.closureScopes_eq hok, h.closureTasks_eq hok, hbaselines, hcases, hlinks]

theorem taskBasis_eq (h : SameRecall w w' t) (hok : ancestors w t = .ok closure) :
    taskBasis w' t = taskBasis w t := by
  rw [Policy.taskBasis_eq hok, Policy.taskBasis_eq (h.ancestors_eq hok), h.basisBody_eq hok]

omit [Sha256] in
/-- The open cases of some scopes, read off the relevant cases. -/
theorem openCases_eq_relevant [Sha256] (state : Workspace) (scopes : List Digest) :
    openCases state scopes = sorted (((relevantCases state scopes).filter
      (fun e => e.2.status = .opened)).map Prod.fst) := by
  unfold openCases relevantCases
  rw [List.filter_filter]
  congr 2
  apply List.filter_congr
  intro e _
  simp [Bool.decide_and]

omit [Sha256] in
theorem resolvedRefs_eq_relevant [Sha256] (state : Workspace) (scopes : List Digest) :
    resolvedRefs state scopes = sorted (((relevantCases state scopes).filter
      (fun e => e.2.status = .resolved)).map (fun e => resolutionRef e.1 e.2.version)) := by
  unfold resolvedRefs relevantCases
  rw [List.filter_filter]
  congr 2
  apply List.filter_congr
  intro e _
  simp [Bool.decide_and]

theorem openCases_eq (h : SameRecall w w' t) (hok : ancestors w t = .ok closure) :
    openCases w' (closureScopes w closure) = openCases w (closureScopes w closure) := by
  rw [openCases_eq_relevant, openCases_eq_relevant, (h.relevant_eq hok).2.1]

theorem case_eq (h : SameRecall w w' t) (hok : ancestors w t = .ok closure) {k : Identifier}
    (hk : k ∈ openCases w (closureScopes w closure)) : w'.cases.get? k = w.cases.get? k := by
  obtain ⟨c, hget, hopen, hscope⟩ := mem_openCases.mp hk
  have hmem : (k, c) ∈ relevantCases w' (closureScopes w closure) := by
    rw [(h.relevant_eq hok).2.1]
    exact List.mem_filter.mpr ⟨Dict.get?_eq_some_iff.mp hget, by simpa using hscope⟩
  rw [hget]
  exact Dict.get?_eq_some_iff.mpr (List.mem_filter.mp hmem).1

theorem blockerRefs_eq (h : SameRecall w w' t) (hok : ancestors w t = .ok closure) :
    blockerRefs w' (openCases w (closureScopes w closure)) =
      blockerRefs w (openCases w (closureScopes w closure)) := by
  unfold blockerRefs
  apply List.filterMap_congr
  intro k hk
  rw [h.case_eq hok hk]

theorem reviewBaselines_eq (h : SameRecall w w' t) (hok : ancestors w t = .ok closure)
    (time : Instant) (causal : List String) :
    reviewBaselines w' time (closureTasks w closure) causal =
      reviewBaselines w time (closureTasks w closure) causal := by
  have hkeys : ∀ e ∈ closureTasks w closure, w'.baselines.get? (scopeKey e.2.intent.scope) =
      w.baselines.get? (scopeKey e.2.intent.scope) := by
    rintro ⟨a, task⟩ he
    obtain ⟨ha, hget⟩ := mem_closureTasks.mp he
    exact h.baselines _ ⟨task.intent.scope, rfl, a, task, (mem_ancestors hok).mp ha, hget, rfl⟩
  generalize closureTasks w closure = l at hkeys
  induction l generalizing causal with
  | nil => rfl
  | cons e rest ih =>
    obtain ⟨a, task⟩ := e
    rw [List.forall_mem_cons] at hkeys
    unfold reviewBaselines
    rw [hkeys.1]
    cases w.baselines.get? (scopeKey task.intent.scope) with
    | none => rfl
    | some b => simp only [ih _ hkeys.2]

theorem parentProven_iff (h : SameRecall w w' t) (hk : TasksKept w)
    (hok : ancestors w t = .ok closure) {time : Instant} {e : Identifier × Task}
    (he : e ∈ closureTasks w closure) :
    ParentProven w' time e.1 e.2 ↔ ParentProven w time e.1 e.2 := by
  obtain ⟨ha, hget⟩ := mem_closureTasks.mp he
  have hreach := (mem_ancestors hok).mp ha
  have hdecision := h.decisions e.1 e.2 hreach hget
  have hbasis : taskBasis w' e.1 = taskBasis w e.1 := by
    have hsub := h.ancestor hreach
    obtain ⟨sub, hsubok⟩ := hk.ancestors_of_get? hget
    exact hsub.taskBasis_eq hsubok
  unfold ParentProven
  rw [hdecision, hbasis]

theorem judge_eq (h : SameRecall w w' t) (hk : TasksKept w) (hok : ancestors w t = .ok closure)
    (time : Instant) (explicit_review : Bool) (task : Task) :
    judge w' t time explicit_review task closure = judge w t time explicit_review task closure := by
  have hparents : (∀ e ∈ closureTasks w closure, e.1 ≠ t → ParentProven w' time e.1 e.2) ↔
      ∀ e ∈ closureTasks w closure, e.1 ≠ t → ParentProven w time e.1 e.2 := by
    constructor
    · exact fun hall e he hne => (h.parentProven_iff hk hok he).mp (hall e he hne)
    · exact fun hall e he hne => (h.parentProven_iff hk hok he).mpr (hall e he hne)
  unfold judge
  simp only [h.closureScopes_eq hok, h.closureTasks_eq hok, h.openCases_eq hok,
    h.blockerRefs_eq hok, h.reviewBaselines_eq hok, hparents,
    resolvedRefs_eq_relevant, (h.relevant_eq hok).2.1]

variable {task : Task}

theorem policyResult_eq (h : SameRecall w w' t) (hk : TasksKept w)
    (ht : w.tasks.get? t = some task) (time : Instant) (explicit_review : Bool) :
    policyResult w' t time explicit_review = policyResult w t time explicit_review := by
  obtain ⟨closure, hok⟩ := hk.ancestors_of_get? ht
  have ht' : w'.tasks.get? t = some task := by rw [h.tasks t (dependsOn_self w t), ht]
  rw [Policy.policyResult_eq _ _ ht' (h.ancestors_eq hok), Policy.policyResult_eq _ _ ht hok,
    h.judge_eq hk hok]

theorem basis_eq (h : SameRecall w w' t) (hk : TasksKept w) (ht : w.tasks.get? t = some task) :
    taskBasis w' t = taskBasis w t := by
  obtain ⟨closure, hok⟩ := hk.ancestors_of_get? ht
  exact h.taskBasis_eq hok

theorem decisionValidity_eq (h : SameRecall w w' t) (hk : TasksKept w)
    (ht : w.tasks.get? t = some task) (time : Instant) :
    decisionValidity w' t time = decisionValidity w t time := by
  have ht' : w'.tasks.get? t = some task := by rw [h.tasks t (dependsOn_self w t), ht]
  unfold decisionValidity
  rw [h.policyResult_eq hk ht, h.basis_eq hk ht]
  simp only [item, ht, ht', fetch, bind, Except.bind,
    h.decisions t task (dependsOn_self w t) ht]

end SameRecall

end Agreement

end MemoryGuard.Policy
