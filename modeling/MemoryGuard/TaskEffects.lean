import MemoryGuard.EvidenceEffects

/-!
What the commands on tasks and baselines leave behind. A decision changes one
task and nothing another task is judged by. A change of what is known about a
scope takes the standing of every task that the scope reaches, and of no other.
-/
namespace MemoryGuard.TaskEffects

open OrderedDict Guarded DependencyGraph JsonText ContentHash Models Artifacts Aggregate Core
open Closure Policy Transactions TaskCommands Calls Filing EvidenceEffects

section Standing

/-- A task that loses its standing keeps everything but its status and taints. -/
structure Suspends (t t' : Task) : Prop where
  task_id : t'.task_id = t.task_id
  intent : t'.intent = t.intent
  depends_on : t'.depends_on = t.depends_on
  current : t'.current_decision_id = t.current_decision_id
  status : t'.status ≠ .ready
  tainted : t'.taints.isEmpty = false

theorem Suspends.trans {t t' t'' : Task} (h : Suspends t t') (h' : Suspends t' t'') :
    Suspends t t'' :=
  ⟨h'.task_id.trans h.task_id, h'.intent.trans h.intent, h'.depends_on.trans h.depends_on,
    h'.current.trans h.current, h'.status, h'.tainted⟩

theorem isEmpty_set {d : Dict String String} {k v : String} : (d.set k v).isEmpty = false := by
  have hmem : k ∈ (d.set k v).keys := Dict.mem_keys_set.mpr (Or.inl rfl)
  unfold Dict.isEmpty
  cases hentries : (d.set k v).entries with
  | nil => simp [Dict.keys, hentries] at hmem
  | cons e rest => rfl

theorem suspends_taint (token reason : String) (t : Task) : Suspends t (taint token reason t) :=
  ⟨rfl, rfl, rfl, rfl, by simp [taint], isEmpty_set⟩

end Standing

variable [Sha256]

/-- The tasks that a scope reaches lose their standing. No other task changes,
and no decision does. -/
structure Disturbs (w m : Workspace) (scope : Scope) : Prop where
  tenant : m.tenant_id = w.tenant_id
  keys : m.tasks.keys = w.tasks.keys
  beyond : ∀ k, ¬ Touches w k scope → m.tasks.get? k = w.tasks.get? k
  reached : ∀ k t, Touches w k scope → w.tasks.get? k = some t →
    ∃ t', m.tasks.get? k = some t' ∧ Suspends t t'
  decisions : m.decisions = w.decisions
  reports : m.reports = w.reports
  handoffs : m.handoffs = w.handoffs

section Scopes

variable {w w1 m : Workspace} {scope : Scope}

theorem touches_congr (h : w1.tasks = w.tasks) {t : Identifier} :
    Touches w1 t scope ↔ Touches w t scope := by
  unfold Touches ReliesOn dependsOn
  rw [h]

theorem affectedTasks_congr (h : w1.tasks = w.tasks) :
    affectedTasks w1 scope = affectedTasks w scope := by
  unfold affectedTasks scopedTasks dependsOn
  rw [h]

theorem invalidate_disturbs (scope : Scope) (token reason : String) (h : w1.tasks = w.tasks)
    (htenant : w1.tenant_id = w.tenant_id) (hdecisions : w1.decisions = w.decisions)
    (hreports : w1.reports = w.reports) (hhandoffs : w1.handoffs = w.handoffs) :
    Disturbs w (invalidate w1 scope token reason).1 scope ∧
      (invalidate w1 scope token reason).2 = affectedTasks w scope := by
  have hget : ∀ k, (w1.tasks.adjust (affectedTasks w1 scope) (taint token reason)).get? k =
      if k ∈ affectedTasks w scope then (w.tasks.get? k).map (taint token reason)
      else w.tasks.get? k := by
    intro k
    rw [Dict.get?_adjust, affectedTasks_congr h, h]
  refine ⟨⟨htenant, ?_, ?_, ?_, hdecisions, hreports, hhandoffs⟩, affectedTasks_congr h⟩
  · change (w1.tasks.adjust _ _).keys = _
    rw [Dict.keys_adjust, h]
  · intro k hk
    exact (hget k).trans (if_neg (fun hmem => hk (mem_affectedTasks.mp hmem)))
  · intro k t hk ht
    refine ⟨taint token reason t, (hget k).trans ?_, suspends_taint token reason t⟩
    rw [if_pos (mem_affectedTasks.mpr hk), ht]
    rfl

end Scopes

section Baselines

variable {w m : Workspace} {seq : ℕ} {result : Result} {actor : Actor} {scope : Scope}
  {limit_minor : Minor} {expires_at : Instant}

/-- A baseline of a scope is set. -/
structure SetsBaseline (seq : ℕ) (scope : Scope) (w m : Workspace) (b : Baseline) : Prop where
  about : b.scope = scope
  stamp : b.event_seq = seq
  baselines : m.baselines = w.baselines.set (scopeKey scope) b
  cases : m.cases = w.cases
  artifacts : m.artifacts = w.artifacts
  version : b.version = match w.baselines.get? (scopeKey scope) with
    | some previous => previous.version + 1
    | none => 1
  history : m.baseline_history = w.baseline_history.set (scopeKey scope)
    ((w.baseline_history.get? (scopeKey scope)).getD [] ++ [b])
  case_history : m.case_history = w.case_history
  lessons : m.lessons = w.lessons
  disturbs : Disturbs w m scope

theorem setBaselineChange_effect
    (h : setBaselineChange actor scope limit_minor expires_at w seq = .ok (m, result)) :
    result.affected_tasks = affectedTasks w scope ∧ ∃ b, SetsBaseline seq scope w m b := by
  simp only [setBaselineChange, pure_eq_ok, Prod.mk.injEq] at h
  obtain ⟨rfl, rfl⟩ := h
  refine ⟨rfl, _, rfl, rfl, rfl, rfl, rfl, rfl, rfl, rfl, rfl, ?_⟩
  refine (invalidate_disturbs (w := w) _ _ _ ?_ ?_ ?_ ?_ ?_).1 <;> rfl

end Baselines

section Decisions

variable {svc : Service} {env : Environment} {actor : Actor} {cmd : Command} {w m : Workspace}
  {task : Task} {seq : ℕ} {explicit_review : Bool} {d : Decision} {result : Result}

/-- What a decision of a task says, given the workspace it was made in. -/
structure Judged (w : Workspace) (task : Task) (explicit_review : Bool) (d : Decision) : Prop where
  task_id : d.task_id = task.task_id
  policy : ∃ r, policyResult w task.task_id d.created_at explicit_review = .ok r ∧
    d.verdict = r.verdict ∧ d.reason_codes = r.reason_codes ∧
    d.active_blockers = r.active_blockers ∧ d.causal_refs = sorted r.causal_refs.dedup
  basis : taskBasis w task.task_id = .ok d.basis_hash
  expiry : d.verdict = .ready →
    readyExpiry w task.task_id d.created_at (d.created_at + minutes 10) = .ok d.expires_at
  otherwise : d.verdict ≠ .ready → d.expires_at = d.created_at + minutes 10

/-- A READY decision is one the policy passed. -/
theorem judged_passes {task : Task} {explicit_review : Bool} {d : Decision}
    (h : Judged w task explicit_review d) (ht : w.tasks.get? task.task_id = some task)
    (hready : d.verdict = .ready) : d.active_blockers = [] ∧
      ∃ closure, ancestors w task.task_id = .ok closure ∧
        Passes w task.task_id d.created_at explicit_review task closure := by
  obtain ⟨r, hr, hverdict, _, hblockers, _⟩ := h.policy
  obtain ⟨task', closure, ht', hclosure, rfl⟩ := policyResult_ok hr
  rw [ht] at ht'
  cases ht'
  have hpasses := judge_ready_iff.mp (hverdict ▸ hready)
  refine ⟨?_, closure, hclosure, hpasses⟩
  rw [hblockers, judge_blockers, hpasses.unblocked]

theorem makeDecision_ok
    (h : makeDecision svc env actor cmd w task seq explicit_review = .ok d) :
    Judged w task explicit_review d ∧ d.decision_id = env.fresh "decision" ∧
      d.action_fingerprint = actionFingerprint actor.tenant_id task.intent ∧
      d.memory_revision = seq ∧ d.created_at = env.clock .decision ∧
      d.proof_root = digest "decision" (object d.body) := by
  simp only [makeDecision, bind_eq_ok] at h
  obtain ⟨r, hr, basis, hbasis, h⟩ := h
  split at h
  · rename_i hready
    simp only [bind_eq_ok, pure_eq_ok] at h
    obtain ⟨expires_at, hexpires, rfl⟩ := h
    exact ⟨⟨rfl, ⟨r, hr, rfl, rfl, rfl, rfl⟩, hbasis, fun _ => hexpires, fun h => absurd hready h⟩,
      rfl, rfl, rfl, rfl, rfl⟩
  · rename_i hready
    simp only [pure_bind, pure_eq_ok] at h
    subst h
    exact ⟨⟨rfl, ⟨r, hr, rfl, rfl, rfl, rfl⟩, hbasis, fun hv => absurd hv hready, fun _ => rfl⟩, rfl,
      rfl, rfl, rfl, rfl⟩

/-- A decision is made in `w` for a stored task and kept. -/
structure Decides (env : Environment) (actor : Actor) (seq : ℕ) (w m : Workspace) (task : Task)
    (explicit_review : Bool) (d : Decision) : Prop where
  known : w.tasks.get? task.task_id = some task
  judged : Judged w task explicit_review d
  decision_id : d.decision_id = env.fresh "decision"
  fingerprint : d.action_fingerprint = actionFingerprint actor.tenant_id task.intent
  stamp : d.memory_revision = seq
  created : d.created_at = env.clock .decision
  proof : d.proof_root = digest "decision" (object d.body)
  stored : m = storeDecision w task d explicit_review

omit [Sha256] in
/-- The decision that an answer reports. -/
def ruling : Result → Option Decision
  | .taskRegistered _ d => some d
  | .taskDecided d _ _ => some d
  | _ => none

theorem evaluateChange_effect {task_id : Identifier} (hk : TasksKept w)
    (h : evaluateChange svc env actor cmd task_id explicit_review w seq = .ok (m, result)) :
    result.affected_tasks = [] ∧ ∃ task d, ruling result = some d ∧ task.task_id = task_id ∧
      Decides env actor seq w m task explicit_review d := by
  simp only [evaluateChange, TaskCommands.decide, bind_eq_ok, pure_eq_ok, Prod.mk.injEq] at h
  obtain ⟨task, htask, ⟨w1, d⟩, ⟨d, hd, rfl, rfl⟩, decided, _, rfl, rfl⟩ := h
  have hget := findTask_ok htask
  have hid := hk.keyed _ _ hget
  obtain ⟨hjudged, hdecision, hfingerprint, hstamp, hcreated, hproof⟩ := makeDecision_ok hd
  exact ⟨rfl, task, d, rfl, hid, hid ▸ hget, hjudged, hdecision, hfingerprint, hstamp, hcreated,
    hproof, rfl⟩

/-- A new task, as it is stored before its first decision. -/
structure NewTask (w : Workspace) (task : Task) : Prop where
  fresh : w.tasks.get? task.task_id = none
  depends_on : ∀ p ∈ task.depends_on, ∃ parent, w.tasks.get? p = some parent
  clean : task.taints = .empty
  status : task.status = .needsHuman
  undecided : task.current_decision_id = none

omit [Sha256] in
theorem newTask_of_parents {intent : Intent} {depends_on : List Identifier} {key : Identifier}
    (hfresh : w.tasks.get? key = none)
    (hparents : ∀ p ∈ depends_on, checkParent actor w intent p = .ok ()) :
    NewTask w ⟨key, intent, sorted depends_on, .empty, .needsHuman, none⟩ := by
  refine ⟨hfresh, ?_, rfl, rfl, rfl⟩
  intro p hp
  have hparent := hparents p (mem_sorted.mp hp)
  simp only [checkParent, bind_eq_ok] at hparent
  obtain ⟨parent, hparent, _⟩ := hparent
  exact ⟨parent, findTask_ok hparent⟩

theorem registerTaskChange_effect {intent : Intent} {depends_on : List Identifier}
    (hfresh : w.tasks.get? (env.fresh "task") = none)
    (h : registerTaskChange svc env actor cmd intent depends_on w seq = .ok (m, result)) :
    result.affected_tasks = [] ∧ ∃ task d, ruling result = some d ∧ task.intent = intent ∧
      task.task_id = env.fresh "task" ∧ NewTask w task ∧
      Decides env actor seq (storeTask w task) m task false d := by
  simp only [registerTaskChange, TaskCommands.decide, bind_eq_ok, forM_eq_ok, pure_eq_ok, Prod.mk.injEq] at h
  obtain ⟨_, _, _, _, _, hparents, ⟨w1, d⟩, ⟨d, hd, rfl, rfl⟩, decided, _, rfl, rfl⟩ := h
  obtain ⟨hjudged, hdecision, hfingerprint, hstamp, hcreated, hproof⟩ := makeDecision_ok hd
  refine ⟨rfl, ⟨env.fresh "task", intent, sorted depends_on, .empty, .needsHuman, none⟩, d, rfl,
    rfl, rfl, newTask_of_parents hfresh hparents, Dict.get?_set_self .., hjudged, hdecision,
    hfingerprint, hstamp, hcreated, hproof, rfl⟩

end Decisions

end MemoryGuard.TaskEffects
