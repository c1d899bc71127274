import MemoryGuard.Basis
import MemoryGuard.Staffing

/-!
The life of a risk can be completed. A task becomes READY, a case on its scope
stops it, the case is investigated, handed off, accepted and resolved, and an
explicit reconsideration makes the task READY again.
-/
namespace MemoryGuard.Completion

open OrderedDict Guarded DependencyGraph JsonText ContentHash Models Artifacts Aggregate Core
open Closure Policy SourceModels SourceState SourceGuard SourceService Transactions TaskCommands
open CaseCommands Traces Calls Filing EvidenceEffects TaskEffects CaseEffects Effects Growth
open Upkeep Lifecycle History Integrity Heads Progress Basis Staffing

variable [Sha256]

section Standing

variable {w m : Workspace} {t : Identifier} {task : Models.Task} {time : Instant}

/-- What a task without dependencies needs of the store. -/
structure Clear (w : Workspace) (time : Instant) (intent : Intent) : Prop where
  covered : ∃ b, w.baselines.get? (scopeKey intent.scope) = some b ∧ time < b.expires_at ∧
    intent.amount_minor.value ≤ b.limit_minor.value
  unblocked : ∀ k c, w.cases.get? k = some c → c.status = .opened →
    scopeKey c.scope ≠ scopeKey intent.scope

omit [Sha256] in
theorem dependsOn_alone (ht : w.tasks.get? t = some task) (halone : task.depends_on = [])
    {a : Identifier} (ha : ReliesOn w t a) : a = t := by
  rcases Relation.ReflTransGen.cases_head ha with rfl | ⟨p, he, _⟩
  · rfl
  · obtain ⟨task', ht', hp⟩ := edge_iff.mp he
    rw [ht] at ht'
    cases ht'
    simp [halone] at hp

/-- A task without dependencies passes when its scope is clear. -/
theorem passes_alone (explicit_review : Bool) (ht : w.tasks.get? t = some task)
    (halone : task.depends_on = []) (hclear : Clear w time task.intent)
    (hclean : task.taints.isEmpty ∨ explicit_review) {closure : List Identifier}
    (hclosure : ancestors w t = .ok closure) : Passes w t time explicit_review task closure := by
  have honly : ∀ e ∈ closureTasks w closure, e = (t, task) := by
    rintro ⟨a, atask⟩ he
    obtain ⟨ha, hget⟩ := mem_closureTasks.mp he
    have hself := dependsOn_alone ht halone ((mem_ancestors hclosure).mp ha)
    subst hself
    rw [ht] at hget
    cases hget
    rfl
  refine ⟨?_, ?_, ?_, hclean⟩
  · rw [List.eq_nil_iff_forall_not_mem]
    intro k hk
    obtain ⟨c, hc, hopen, hscope⟩ := mem_openCases.mp hk
    obtain ⟨a, atask, ha, hget, hkey⟩ := mem_closureScopes.mp hscope
    have hentry := honly (a, atask) (mem_closureTasks.mpr ⟨ha, hget⟩)
    cases hentry
    exact hclear.unblocked k c hc hopen hkey.symm
  · intro e he
    rw [honly e he]
    exact hclear.covered
  · intro e he hne
    rw [honly e he] at hne
    exact absurd rfl hne

/-- A decision of a clear task is READY. -/
theorem judged_ready {explicit_review : Bool} {d : Decision}
    (h : Judged w task explicit_review d) (ht : w.tasks.get? task.task_id = some task)
    (halone : task.depends_on = []) (hclear : Clear w d.created_at task.intent)
    (hclean : task.taints.isEmpty ∨ explicit_review) : d.verdict = .ready := by
  obtain ⟨r, hr, hverdict, _⟩ := h.policy
  obtain ⟨task', closure, ht', hclosure, rfl⟩ := policyResult_ok hr
  rw [ht] at ht'
  cases ht'
  rw [hverdict]
  exact judge_ready_iff.mpr (passes_alone _ ht halone hclear hclean hclosure)

/-- A decision does not change the basis it was made on. -/
theorem decides_basis [CollisionFree] {env : Environment} {actor : Actor} {seq : ℕ}
    {explicit_review : Bool} {d : Decision} (h : Decides env actor seq w m task explicit_review d)
    (hw : Shaped w) (hstamped : Stamped seq w)
    (hfresh : w.decisions.get? (env.fresh "decision") = none) :
    taskBasis m task.task_id = .ok d.basis_hash := by
  have hgrows := decides_grows h hfresh hstamped
  obtain ⟨closure, hclosure⟩ := hw.tasks.ancestors_of_get? h.known
  have hlinks : ∀ ids, resolutionLinks m ids = resolutionLinks w ids := by
    intro ids
    rw [resolutionLinks_eq, resolutionLinks_eq, (decides_artifacts h).links hw.filed]
  have hcases : m.cases = w.cases := by
    rw [h.stored]
    rfl
  have hbaselines : m.baselines = w.baselines := by
    rw [h.stored]
    rfl
  refine ((taskBasis_eq_iff hw.tasks h.known hgrows hclosure).mpr ⟨?_, ?_, ?_, ?_⟩).trans
    h.judged.basis
  · intro a _ hne atask atask' hget hget'
    rw [decides_task h, if_neg (Ne.symm hne), hget] at hget'
    cases hget'
    exact ⟨rfl, rfl⟩
  · rw [hbaselines]
    exact fun _ _ => rfl
  · rw [hcases]
    exact fun _ _ _ => Iff.rfl
  · intro k p c _ _
    have hsame := congrArg ((k, p) ∈ ·) (hlinks [p.case_id])
    simpa [mem_resolutionLinks] using hsame

/-- A stored task whose current decision is READY, bound and unexpired. -/
structure Proves (w : Workspace) (time : Instant) (task : Models.Task) (d : Decision) : Prop where
  stored : w.tasks.get? task.task_id = some task
  alone : task.depends_on = []
  clean : task.taints.isEmpty = true
  status : task.status = .ready
  current : task.current_decision_id = some d.decision_id
  decision : w.decisions.get? d.decision_id = some d
  about : d.task_id = task.task_id
  verdict : d.verdict = .ready
  created : d.created_at = time
  unexpired : time < d.expires_at
  basis : taskBasis w task.task_id = .ok d.basis_hash

theorem decides_proves [CollisionFree] {env : Environment} {actor : Actor} {seq : ℕ} {explicit_review : Bool}
    {d : Decision} (h : Decides env actor seq w m task explicit_review d) (hw : Shaped w)
    (hstamped : Stamped seq w) (hfresh : w.decisions.get? (env.fresh "decision") = none)
    (hclock : env.clock .decision = time) (halone : task.depends_on = [])
    (hclear : Clear w time task.intent) (hclean : task.taints.isEmpty ∨ explicit_review) :
    ∃ task', Proves m time task' d ∧ task'.task_id = task.task_id ∧ task'.intent = task.intent := by
  have hcreated : d.created_at = time := h.created.trans hclock
  have hready := judged_ready h.judged h.known halone (hcreated ▸ hclear) hclean
  obtain ⟨hblockers, closure, hclosure, hpasses⟩ := judged_passes h.judged h.known hready
  refine ⟨decidedTask w task d explicit_review, ?_, rfl, rfl⟩
  have hbasis := decides_basis h hw hstamped hfresh
  refine ⟨?_, halone, ?_, ?_, rfl, ?_, h.judged.task_id, hready, hcreated, ?_, hbasis⟩
  · rw [decides_task h]
    exact if_pos rfl
  · rcases hclean with hempty | hexplicit
    · simp only [decidedTask, hready, hblockers, and_true]
      split
      · rfl
      · exact hempty
    · simp [decidedTask, hready, hexplicit, Dict.isEmpty, Dict.empty]
  · simp [decidedTask, hready, Verdict.status]
  · rw [decides_decisions h]
    exact Dict.get?_set_self ..
  · have hexpiry := h.judged.expiry hready
    simp only [readyExpiry, bind_eq_ok, ensure_eq_ok, pure_eq_ok] at hexpiry
    obtain ⟨_, _, _, hlt, hexpires⟩ := hexpiry
    rw [← hexpires, ← hcreated]
    exact hlt

end Standing

section Beginning

variable [CollisionFree] (staff : Staff)

/-- The store that the staff start from. -/
theorem can_bootstrap (time : Instant) : ∃ s w, Open staff [s] w 1 ∧ s.post = some w ∧ w.tasks = .empty ∧
    w.cases = .empty ∧ w.baselines = .empty ∧ w.artifacts = .empty := by
  let blank : Workspace := sealed (.blank staff.owner.tenant_id)
  obtain ⟨env, hfresh, hclock⟩ := exists_environment blank time
  obtain ⟨cmd, _, hrevision, hnew⟩ := exists_command blank staff.owner "session"
  let tx : Transaction := ⟨staff.owner, cmd, "bootstrap", [], fun state _ => return (state, .initialized),
    true, none⟩
  have hauthorized := authorize_ok [.owner] staff.owns (by simp) none (by simp)
  have hprepared : (Call.bootstrap staff.owner cmd).prepare staff.svc env = .ok (.transaction tx) := by
    simp only [Call.prepare, inTransaction, TaskCommands.bootstrap, hauthorized, bind, Except.bind]
    rfl
  have hadmit : preconditions blank tx = .ok () := by
    have hzero : cmd.expected_revision = 0 := hrevision
    simp [preconditions, tx, hzero, blank, sealed, Workspace.blank, ensure, bind, Except.bind]
  have hadmitted : Admitted staff.svc env (.bootstrap staff.owner cmd) none tx blank :=
    ⟨hprepared, rfl, rfl, rfl, hnew, hadmit, hfresh⟩
  have hchanged : tx.change blank (blank.revision + 1) = .ok (blank, .initialized) := rfl
  obtain ⟨hnext, hh⟩ := run_commits Run.start hadmitted hchanged
    (staff.fits _) (grounded_of_standalone rfl)
  exact ⟨_, _, ⟨hnext, staff.owns.tenant, rfl⟩, rfl, rfl, rfl, rfl, rfl⟩

variable {staff} {time : Instant} {steps : List Step} {w : Workspace} {n : ℕ}

variable (time) in
/-- A live baseline clears a scope that has no open case. -/
theorem baseline_clears (h : Open staff steps w n) (hroom : n < 5000) (intent : Intent)
    (hscope : intent.scope.subject_id = staff.subject_id) (expires_at : Instant)
    (hlive : time < expires_at)
    (hunblocked : ∀ k c, w.cases.get? k = some c → c.status = .opened →
      scopeKey c.scope ≠ scopeKey intent.scope) :
    ∃ cmd s w', s.call = .setBaseline staff.owner cmd intent.scope intent.amount_minor expires_at ∧
      s.pre = some w ∧ s.post = some w' ∧ Open staff (steps ++ [s]) w' (n + 1) ∧
      s.Committed ∧ s.response.result.affected_tasks = affectedTasks w intent.scope ∧
      Clear w' time intent ∧ w'.tasks.keys = w.tasks.keys ∧ w'.cases = w.cases ∧
      w'.artifacts = w.artifacts := by
  obtain ⟨cmd, s, m, result, hs, _, hchange⟩ := can_setBaseline time h hroom hscope
    intent.amount_minor hlive
  simp only [setBaselineChange, pure_eq_ok, Prod.mk.injEq] at hchange
  obtain ⟨rfl, hresult⟩ := hchange
  obtain ⟨tx, hpost, hopen⟩ := h.next hs rfl
  refine ⟨cmd, s, _, hs.call, hs.pre, hpost, hopen, hs.committed, ?_, ⟨?_, hunblocked⟩, ?_, rfl,
    rfl⟩
  · rw [hs.result, ← hresult]
    rfl
  · exact ⟨_, Dict.get?_set_self .., hlive, le_refl _⟩
  · exact Dict.keys_adjust ..

/-- A task whose scope is clear is READY as soon as it is registered. -/
theorem register_ready (h : Open staff steps w n) (hroom : n < 5000) (intent : Intent)
    (hscope : intent.scope.subject_id = staff.subject_id) (hsize : w.tasks.size < 250)
    (hclear : Clear w time intent) :
    ∃ cmd s w' task d, s.call = .registerTask staff.owner cmd intent [] ∧ s.pre = some w ∧
      s.post = some w' ∧ Open staff (steps ++ [s]) w' (n + 1) ∧ s.Committed ∧
      Proves w' time task d ∧ task.intent = intent ∧ w.tasks.get? task.task_id = none ∧
      w.decisions.get? d.decision_id = none ∧
      d.action_fingerprint = actionFingerprint staff.owner.tenant_id intent ∧
      w'.tasks.size ≤ w.tasks.size + 1 ∧ w'.cases = w.cases ∧ w'.artifacts = w.artifacts ∧
      w'.baselines = w.baselines := by
  obtain ⟨cmd, s, m, result, hs, hfresh, hchange⟩ :=
    can_register time h hroom hscope hsize List.nodup_nil (by simp)
  have hkept := kept_of_run h.run w rfl
  simp only [registerTaskChange, TaskCommands.decide, bind_eq_ok, pure_eq_ok, Prod.mk.injEq]
    at hchange
  obtain ⟨_, _, _, _, _, _, ⟨w1, d⟩, ⟨d, hd, rfl, rfl⟩, decided, _, rfl, rfl⟩ := hchange
  obtain ⟨hjudged, hdecision, hfingerprint, hstamp, hcreated, hproof⟩ := makeDecision_ok hd
  let task : Models.Task :=
    ⟨s.env.fresh "task", intent, sorted [], .empty, .needsHuman, none⟩
  have hnew : NewTask w task := newTask_of_parents (hfresh.tasks "task")
    (show ∀ p ∈ [], checkParent staff.owner w intent p = .ok () by simp)
  have hdecides : Decides s.env staff.owner (w.revision + 1) (storeTask w task)
      (storeDecision (storeTask w task) task d false) task false d :=
    ⟨Dict.get?_set_self .., hjudged, hdecision, hfingerprint, hstamp, hcreated, hproof, rfl⟩
  have hstamped : Stamped (w.revision + 1) (storeTask w task) :=
    have hmono : Stamped (w.revision + 1) w := hkept.stamped.mono (by omega)
    ⟨hmono.baselines, hmono.cases, hmono.decisions⟩
  obtain ⟨task', hproves, hid, hintent⟩ := decides_proves hdecides
    (newTask_shaped hkept.toShaped hnew) hstamped (hfresh.decisions "decision") (hs.clock _) rfl
    ⟨hclear.covered, hclear.unblocked⟩ (Or.inl rfl)
  obtain ⟨tx, hpost, hopen⟩ := h.next hs rfl
  have hsizes : (storeDecision (storeTask w task) task d false).tasks.size ≤ w.tasks.size + 1 := by
    have hkeys := congrArg List.length (decides_keys hdecides)
    rw [← Dict.size_eq_keys, ← Dict.size_eq_keys] at hkeys
    have hset := Dict.size_set_le w.tasks task.task_id task
    change _ = (w.tasks.set task.task_id task).size at hkeys
    omega
  have hartifacts : (storeDecision (storeTask w task) task d false).artifacts = w.artifacts :=
    if_pos hproves.verdict
  refine ⟨cmd, s, _, task', d, hs.call, hs.pre, hpost, hopen, hs.committed, ?_, hintent, ?_, ?_,
    hfingerprint, hsizes, rfl, hartifacts, rfl⟩
  · exact ⟨hproves.stored, hproves.alone, hproves.clean, hproves.status, hproves.current,
      hproves.decision, hproves.about, hproves.verdict, hproves.created, hproves.unexpired,
      hproves.basis⟩
  · rw [hid]
    exact hnew.fresh
  · rw [hdecision]
    exact hfresh.decisions "decision"

end Beginning

section Settlement

variable [CollisionFree] {staff : Staff} {steps : List Step} {w : Workspace}
  {n : ℕ}

omit [Sha256] [CollisionFree] in
theorem free_of_empty {case_id : Identifier} (h : w.artifacts = .empty) :
    ¬ HasObligations w case_id := by
  simp [HasObligations, obligations, caseArtifacts, h, Dict.values, Dict.empty, sorted]

/-- A risk on a scope opens a case that can be reviewed, and affects every task
the scope reaches. -/
theorem open_risk (h : Open staff steps w n) (hroom : n < 5000) (scope : Scope)
    (hscope : scope.subject_id = staff.subject_id) (hsize : w.cases.size < 500)
    (hempty : w.artifacts = .empty) (kind : RiskKind) (evidence_digest : Digest) :
    ∃ cmd s w' c, s.call = .openCase staff.owner cmd scope kind evidence_digest ∧
      s.pre = some w ∧ s.post = some w' ∧ Open staff (steps ++ [s]) w' (n + 1) ∧ s.Committed ∧
      s.response.result.affected_tasks = affectedTasks w scope ∧ (c.scope = scope ∧ c.kind = kind) ∧
      c.opened_by = staff.owner.actor_id ∧ Reviewable staff w' c.case_id c ∧
      w.cases.get? c.case_id = none ∧ Disturbs w w' scope ∧
      w'.cases = w.cases.set c.case_id c ∧ w'.baselines = w.baselines ∧ w'.artifacts = .empty := by
  obtain ⟨cmd, s, m, result, hs, hfresh, hchange⟩ := can_openCase 0 h hroom hscope
    kind evidence_digest hsize
  simp only [openCaseChange, openRisk, staff.desk, deskRemembers, bind_eq_ok, pure_bind,
    pure_eq_ok, Prod.mk.injEq] at hchange
  obtain ⟨_, _, hm, hresult⟩ := hchange
  let c := newCase s.env staff.owner scope kind evidence_digest (w.revision + 1)
  have hdisturbs := invalidate_disturbs (w := w) scope (caseRef c.case_id c.version) "NEW_RISK"
    (show (recordCase w c []).tasks = w.tasks from rfl) rfl rfl rfl rfl
  have htenant : m.tenant_id = w.tenant_id := by
    rw [← hm]
    rfl
  obtain ⟨tx, hpost, hopen⟩ := h.next hs htenant
  have hcases : m.cases = w.cases.set c.case_id c := by
    rw [← hm]
    rfl
  have hartifacts : m.artifacts = .empty := by
    rw [← hm]
    exact hempty
  have hd := hdisturbs.1
  rw [show (invalidate (recordCase w c []) scope (caseRef c.case_id c.version) "NEW_RISK").1 = m
    from hm] at hd
  refine ⟨cmd, s, _, c, hs.call, hs.pre, hpost, hopen, hs.committed, ?_, ⟨rfl, rfl⟩, rfl,
    ⟨?_, hscope, rfl, free_of_empty hartifacts⟩, hfresh.cases "case", ?_, hcases, ?_, hartifacts⟩
  · rw [hs.result, ← hresult]
    exact hdisturbs.2
  · change m.cases.get? c.case_id = some c
    rw [hcases]
    exact Dict.get?_set_self ..
  · exact ⟨hd.tenant, hd.keys, hd.beyond, hd.reached, hd.decisions, hd.reports, hd.handoffs⟩
  · change m.baselines = w.baselines
    rw [← hm]
    rfl

/-- What an investigation and the review of its report leave alone. -/
structure SameCore (w w' : Workspace) : Prop where
  tasks : w'.tasks = w.tasks
  decisions : w'.decisions = w.decisions
  baselines : w'.baselines = w.baselines
  cases : w'.cases = w.cases
  artifacts : w'.artifacts = w.artifacts
  lessons : w'.lessons = w.lessons

omit [Sha256] [CollisionFree] in
theorem SameCore.trans {w' w'' : Workspace} (h : SameCore w w') (h' : SameCore w' w'') :
    SameCore w w'' :=
  ⟨h'.tasks.trans h.tasks, h'.decisions.trans h.decisions, h'.baselines.trans h.baselines,
    h'.cases.trans h.cases, h'.artifacts.trans h.artifacts, h'.lessons.trans h.lessons⟩

omit [CollisionFree] in
theorem SameCore.recorded {w' : Workspace} (h : SameCore w w') (env : Environment)
    (state : Workspace) (tx : Transaction) (result : Result) :
    SameCore w (recorded env state w' tx result) :=
  ⟨h.tasks, h.decisions, h.baselines, h.cases, h.artifacts, h.lessons⟩

omit [CollisionFree] in
theorem SameCore.basis {w' : Workspace} (h : SameCore w w') (case_id : Identifier) :
    investigationBasis w' case_id = investigationBasis w case_id := by
  obtain ⟨htasks, hdecisions, hbaselines, hcases, hartifacts, hlessons⟩ := h
  cases w
  cases w'
  simp only at htasks hdecisions hbaselines hcases hartifacts hlessons
  subst htasks hdecisions hbaselines hcases hartifacts hlessons
  rfl

omit [Sha256] [CollisionFree] in
theorem reviewable_core {case_id : Identifier} {case : RiskCase} {w' : Workspace}
    (hc : Reviewable staff w case_id case) (h : SameCore w w') :
    Reviewable staff w' case_id case := by
  refine ⟨h.cases ▸ hc.stored, hc.subject, hc.opened, ?_⟩
  unfold HasObligations obligations caseArtifacts
  rw [h.artifacts]
  exact hc.free

omit [CollisionFree] in
theorem reported_core {case : RiskCase} {report : Report} {w' : Workspace}
    (hr : Reported staff w case report) (h : SameCore w w') (hreports : w'.reports = w.reports) :
    Reported staff w' case report := by
  refine ⟨hreports ▸ hr.stored, hr.case_id, hr.version, ?_, hr.inspected, hr.investigator⟩
  rw [h.basis]
  exact hr.basis

theorem investigate_case (h : Open staff steps w n) (hroom : n < 5000) {case : RiskCase}
    (hc : Reviewable staff w case.case_id case) (hstored : ∃ t ∈ steps, t.post = some w)
    (hempty : w.artifacts = .empty) :
    ∃ s w' report, s.post = some w' ∧ Open staff (steps ++ [s]) w' (n + 1) ∧ SameCore w w' ∧
      Reported staff w' case report := by
  obtain ⟨cmd, s, m, result, hs, hfresh, hchange⟩ := can_investigate 0 h hroom hc
    hstored (by simp [hempty])
  simp only [bind_eq_ok] at hchange
  obtain ⟨basis, hbasis, report, hreport, hchange⟩ := hchange
  obtain ⟨hid, hcase, hversion, hinvestigator, hhash, hinspected⟩ := draftReport_ok hreport
  simp only [investigateChange, Bool.false_eq_true, if_false, bind_eq_ok, pure_bind, pure_eq_ok,
    Prod.mk.injEq] at hchange
  obtain ⟨_, _, hm, _⟩ := hchange
  have hcore : SameCore w m := by
    rw [← hm]
    exact ⟨rfl, rfl, rfl, rfl, rfl, rfl⟩
  have hstoredReport : m.reports.get? report.report_id = some report := by
    rw [← hm]
    exact Dict.get?_set_self ..
  have htenant : m.tenant_id = w.tenant_id := by
    rw [← hm]
    rfl
  obtain ⟨tx, hpost, hopen⟩ := h.next hs htenant
  have hcore' := hcore.recorded s.env w tx result
  refine ⟨s, _, report, hpost, hopen, hcore', hstoredReport, hcase, hversion, ?_, ?_, hinvestigator⟩
  · rw [hcore'.basis, hbasis, hhash]
  · simpa using hinspected

/-- A handoff of the report of a case, from one who investigated to one who reviews. -/
structure HandedTo (w : Workspace) (investigator reviewer : Actor) (case : RiskCase)
    (report : Report) (handoff : Handoff) : Prop where
  stored : w.handoffs.get? handoff.handoff_id = some handoff
  case_id : handoff.case_id = case.case_id
  report_id : handoff.report_id = report.report_id
  version : handoff.case_version = case.version
  reviewer : handoff.reviewer_id = reviewer.actor_id
  investigator : handoff.investigator_id = investigator.actor_id

theorem handoff_report (h : Open staff steps w n) (hroom : n < 5000) {case : RiskCase}
    {report : Report} (hc : Reviewable staff w case.case_id case)
    (hr : Reported staff w case report) (hopener : case.opened_by = staff.owner.actor_id) :
    ∃ s w' handoff, s.post = some w' ∧ Open staff (steps ++ [s]) w' (n + 1) ∧ SameCore w w' ∧
      Reported staff w' case report ∧
      HandedTo w' staff.investigator staff.reviewer case report handoff := by
  obtain ⟨cmd, s, m, result, hs, hfresh, hchange⟩ := can_handoff 0 h hroom hc hr hopener
  have hsubject : case.scope.subject_id ∈ staff.investigator.subjects :=
    hc.subject ▸ staff.investigates.subject
  simp only [handoffChange, findCase_total hc.stored hsubject, hr.valid hc, fetch, staff.known,
    bind_eq_ok, Except.ok.injEq, exists_eq_left', pure_eq_ok, Prod.mk.injEq] at hchange
  obtain ⟨_, _, _, _, rfl, _⟩ := hchange
  obtain ⟨tx, hpost, hopen⟩ := h.next hs rfl
  let handoff : Handoff := ⟨s.env.fresh "handoff", report.report_id, case.case_id, case.version,
    staff.reviewer.actor_id, staff.investigator.actor_id, false⟩
  have hcore : SameCore w (recorded s.env w
      { w with handoffs := w.handoffs.set handoff.handoff_id handoff } tx result) :=
    ⟨rfl, rfl, rfl, rfl, rfl, rfl⟩
  exact ⟨s, _, handoff, hpost, hopen, hcore, reported_core hr hcore rfl, Dict.get?_set_self .., rfl, rfl,
    rfl, rfl, rfl⟩

theorem accept_handoff (h : Open staff steps w n) (hroom : n < 5000) {case : RiskCase}
    {report : Report} {handoff : Handoff} (hc : Reviewable staff w case.case_id case)
    (hr : Reported staff w case report)
    (hh : HandedTo w staff.investigator staff.reviewer case report handoff) :
    ∃ s w' accepted, s.post = some w' ∧ Open staff (steps ++ [s]) w' (n + 1) ∧ SameCore w w' ∧
      Reported staff w' case report ∧
      HandedTo w' staff.investigator staff.reviewer case report accepted ∧
      accepted.accepted = true := by
  obtain ⟨cmd, s, m, result, hs, hfresh, hchange⟩ := can_accept 0 h hroom hc hr hh.stored
    hh.case_id hh.report_id hh.version hh.reviewer
  have hsubject : case.scope.subject_id ∈ staff.reviewer.subjects :=
    hc.subject ▸ staff.reviews.subject
  have hfind : findCase w staff.reviewer handoff.case_id = .ok case := by
    rw [hh.case_id]
    exact findCase_total hc.stored hsubject
  have hvalid : validReport staff.svc s.env w case handoff.report_id = .ok report := by
    rw [hh.report_id]
    exact hr.valid hc
  simp only [acceptHandoffChange, hh.stored, fetch, hfind, hvalid, bind_eq_ok, Except.ok.injEq,
    exists_eq_left', pure_eq_ok, Prod.mk.injEq] at hchange
  obtain ⟨_, _, _, _, rfl, _⟩ := hchange
  obtain ⟨tx, hpost, hopen⟩ := h.next hs rfl
  have hcore : SameCore w { w with
      handoffs := w.handoffs.set handoff.handoff_id { handoff with accepted := true } } :=
    ⟨rfl, rfl, rfl, rfl, rfl, rfl⟩
  have hcore' := hcore.recorded s.env w tx result
  exact ⟨s, _, { handoff with accepted := true }, hpost, hopen, hcore', reported_core hr hcore' rfl,
    ⟨Dict.get?_set_self .., hh.case_id, hh.report_id, hh.version, hh.reviewer, hh.investigator⟩,
    rfl⟩

theorem resolve_case (h : Open staff steps w n) (hroom : n < 5000) {case : RiskCase}
    {report : Report} {handoff : Handoff} (hc : Reviewable staff w case.case_id case)
    (hopener : case.opened_by = staff.owner.actor_id) (hr : Reported staff w case report)
    (hh : HandedTo w staff.investigator staff.reviewer case report handoff)
    (haccepted : handoff.accepted = true)
    (resolution : Resolution) (evidence_digest : Digest) :
    ∃ cmd s w', s.call = .resolve staff.reviewer cmd case.case_id handoff.handoff_id resolution
        evidence_digest ∧ s.pre = some w ∧ s.post = some w' ∧
      Open staff (steps ++ [s]) w' (n + 1) ∧ s.Committed ∧ Disturbs w w' case.scope ∧
      w'.baselines = w.baselines ∧ w'.cases = w.cases.set case.case_id
        (resolvedCase case resolution staff.reviewer.actor_id (w.revision + 1)) := by
  have hack : Acknowledged staff.reviewer case.case_id case handoff := by
    refine ⟨hh.case_id, haccepted, hh.reviewer, ?_, ?_⟩
    · rw [hopener]
      exact staff.apart
    · rw [hh.investigator]
      exact staff.independent
  obtain ⟨cmd, s, m, result, hs, hfresh, hchange⟩ := can_resolve 0 h hroom hc hr
    hh.stored hack hh.report_id hh.version resolution evidence_digest
  have heffect := hs.effect
  cases heffect with
  | filed plain => exact absurd plain (by simp [Plain])
  | @resolved _ _ _ _ _ _ _ _ old _ _ _ resolves =>
    have hold := resolves.known
    rw [hc.stored] at hold
    cases hold
    obtain ⟨start, _, writes⟩ := resolves.writes
    obtain ⟨tx, hpost, hopen⟩ := h.next hs writes.disturbs.tenant
    have hd := writes.disturbs
    exact ⟨cmd, s, _, hs.call, hs.pre, hpost, hopen, hs.committed,
      ⟨hd.tenant, hd.keys, hd.beyond, hd.reached, hd.decisions, hd.reports, hd.handoffs⟩,
      writes.baselines, writes.cases⟩

/-- A case that can be reviewed is reviewed and resolved in four steps. -/
theorem review_case (h : Open staff steps w n) (hroom : n + 3 < 5000) {case : RiskCase}
    (hc : Reviewable staff w case.case_id case) (hstored : ∃ t ∈ steps, t.post = some w)
    (hempty : w.artifacts = .empty) (hopener : case.opened_by = staff.owner.actor_id)
    (resolution : Resolution) (evidence_digest : Digest) :
    ∃ done cmd handoff_id s w0 w', SameCore w w0 ∧
      s.call = .resolve staff.reviewer cmd case.case_id handoff_id resolution evidence_digest ∧
      s.pre = some w0 ∧ s.post = some w' ∧ Open staff (steps ++ done ++ [s]) w' (n + 4) ∧
      s.Committed ∧ Disturbs w0 w' case.scope ∧ w'.baselines = w.baselines ∧
      w'.cases = w.cases.set case.case_id
        (resolvedCase case resolution staff.reviewer.actor_id (n + 4)) := by
  obtain ⟨s1, w1, report, _, hopen1, hcore1, hr1⟩ :=
    investigate_case h (by omega) hc hstored hempty
  have hc1 := reviewable_core hc hcore1
  obtain ⟨s2, w2, handoff, _, hopen2, hcore2, hr2, hh2⟩ :=
    handoff_report hopen1 (by omega) hc1 hr1 hopener
  have hc2 := reviewable_core hc1 hcore2
  obtain ⟨s3, w3, accepted, _, hopen3, hcore3, hr3, hh3, haccepted⟩ :=
    accept_handoff hopen2 (by omega) hc2 hr2 hh2
  have hc3 := reviewable_core hc2 hcore3
  obtain ⟨cmd, s4, w4, hcall, hpre, hpost, hopen4, hcommitted, hdisturbs, hbaselines, hcases⟩ :=
    resolve_case hopen3 (by omega) hc3 hopener hr3 hh3 haccepted resolution evidence_digest
  have hcore := (hcore1.trans hcore2).trans hcore3
  refine ⟨[s1, s2, s3], cmd, accepted.handoff_id, s4, w3, w4, hcore, hcall, hpre, hpost, ?_,
    hcommitted, hdisturbs, hbaselines.trans hcore.baselines, ?_⟩
  · simpa using hopen4
  · rw [hcases, hcore.cases, hopen3.revision]

end Settlement

section Rulings

variable [CollisionFree] {staff : Staff} {steps : List Step} {w : Workspace} {n : ℕ}
  {time : Instant} {task : Models.Task}

/-- The reviewer has a stored task decided. -/
theorem evaluate_decides (h : Open staff steps w n) (hroom : n < 5000) {t : Identifier}
    (ht : w.tasks.get? t = some task) (hscope : task.intent.scope.subject_id = staff.subject_id)
    (reconsider : Bool) (time : Instant) :
    ∃ cmd s m w' d, s.call = .evaluate staff.reviewer cmd t reconsider ∧ s.pre = some w ∧
      s.post = some w' ∧ Open staff (steps ++ [s]) w' (n + 1) ∧ s.Committed ∧
      (∃ tx result, w' = recorded s.env w m tx result) ∧ Fresh s.env w ∧
      s.env.clock .decision = time ∧
      Decides s.env staff.reviewer (w.revision + 1) w m task reconsider d := by
  have hkeyed := (kept_of_run h.run w rfl).tasks.keyed _ _ ht
  obtain ⟨cmd, s, m, result, hs, hfresh, _⟩ := can_evaluate time h hroom ht hscope
    reconsider
  have heffect := hs.effect
  cases heffect with
  | filed plain => exact absurd plain (by simp [Plain])
  | @evaluated _ _ _ _ _ _ task' d _ _ _ about decides =>
    have hknown := decides.known
    rw [about, ht] at hknown
    cases hknown
    have htenant : m.tenant_id = w.tenant_id := by
      rw [decides.stored]
      rfl
    obtain ⟨tx, hpost, hopen⟩ := h.next hs htenant
    exact ⟨cmd, s, m, _, d, hs.call, hs.pre, hpost, hopen, hs.committed, ⟨tx, result, rfl⟩, hfresh,
      hs.clock _, decides⟩

omit [CollisionFree] in
/-- A task that an open case touches is denied. -/
theorem decides_denied {m : Workspace} {env : Environment} {actor : Actor} {seq : ℕ}
    {explicit_review : Bool} {d : Decision} {k : Identifier} {c : RiskCase}
    (h : Decides env actor seq w m task explicit_review d)
    (hc : w.cases.get? k = some c) (hopened : c.status = .opened)
    (htouches : Touches w task.task_id c.scope) : d.verdict = .deny := by
  obtain ⟨r, hr, hverdict, _⟩ := h.judged.policy
  obtain ⟨task', closure, _, hclosure, rfl⟩ := policyResult_ok hr
  rw [hverdict]
  refine judge_deny_iff.mpr (List.ne_nil_of_mem (mem_openCases.mpr ⟨c, hc, hopened, ?_⟩))
  exact (scopeKey_mem_closureScopes hclosure).mpr htouches

/-- A proven task can be prepared for review. -/
theorem can_prepareReview (h : Open staff steps w n) (hroom : n < 5000) {d : Decision}
    (hproves : Proves w time task d) (hscope : task.intent.scope.subject_id = staff.subject_id)
    (hclear : Clear w time task.intent) :
    Does staff time steps w
      (fun cmd => .prepareReview staff.reviewer cmd task.task_id d.decision_id)
      (fun env _ => prepareReviewChange env staff.reviewer task.task_id d.decision_id) := by
  have hsubject : task.intent.scope.subject_id ∈ staff.reviewer.subjects :=
    hscope ▸ staff.reviews.subject
  have hauthorized := authorize_ok (operators ++ [.reviewer]) staff.reviews (by simp) none
    (by simp)
  have hfind : findTask w staff.reviewer task.task_id = .ok task := bind_eq_ok.mpr
    ⟨task, fetch_eq_ok.mpr hproves.stored, bind_eq_ok.mpr ⟨(), ensure_eq_ok.mpr hsubject, rfl⟩⟩
  refine can_do (fun env cmd => ⟨staff.reviewer, cmd, "review.prepare",
      [("task_id", .str task.task_id), ("decision_id", .str d.decision_id)],
      prepareReviewChange env staff.reviewer task.task_id d.decision_id, false, none⟩)
    h.run (h.tenant.trans staff.reviews.tenant.symm) (h.revision ▸ hroom) staff.fits ?_
    (fun _ => rfl) (fun _ _ => ⟨rfl, rfl⟩) (fun _ _ => ⟨rfl, rfl⟩) ?_ ?_
  · intro env cmd _
    simp only [Call.prepare, inTransaction, prepareReview, hauthorized, bind, Except.bind]
    rfl
  · intro _ _
    simp [recheckScopes, payloadText, List.lookup_cons, hfind, bind, Except.bind]
  · intro env cmd _ hclock
    have hk := (kept_of_run h.run w rfl).tasks
    obtain ⟨closure, hclosure⟩ := hk.ancestors_of_get? hproves.stored
    have hpasses := passes_alone false hproves.stored hproves.alone hclear
      (Or.inl hproves.clean) hclosure
    have hpolicy : policyResult w task.task_id time false = .ok (judge w task.task_id time false task
        closure) := by
      simp [policyResult, hclosure, item, fetch, hproves.stored, bind, Except.bind, pure, Except.pure]
    have hready := judge_ready_iff.mpr hpasses
    simp [prepareReviewChange, hfind, hproves.decision, hproves.about, hproves.current, hpolicy,
      hproves.status, hproves.verdict, hready, hproves.unexpired, hproves.basis, hclock, fetch,
      ensure, bind, Except.bind, pure, Except.pure]

end Rulings

end MemoryGuard.Completion
