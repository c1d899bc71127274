import MemoryGuard.Reconsideration
import MemoryGuard.Frame

/-!
A DENY names its causes. The blockers of a DENY are the cases that were open on
the scopes of the closure when it was made. From then on, as long as no case is
opened or reopened on those scopes, the policy denies the task exactly while one
of the named blockers is still open.
-/
namespace MemoryGuard.Causes

open OrderedDict Guarded DependencyGraph JsonText ContentHash Models Artifacts Aggregate Core
open Closure Policy SourceModels Transactions TaskCommands CaseCommands Traces Calls Filing
open EvidenceEffects TaskEffects CaseEffects Effects Growth Upkeep Lifecycle History Frame
open Standing Reconsideration

variable [Sha256]

section Raising

/-- The scope on which a call opens or reopens a case, where it does. -/
def raisedScope (w : Workspace) : Call → Option Scope
  | .openCase _ _ scope _ _ => some scope
  | .reopenCase _ _ case_id _ => (w.cases.get? case_id).map RiskCase.scope
  | .ingest incidents delivery _ =>
    (incidents.find? (fun s => s.source_id = delivery.source_id)).map IncidentSpec.scope
  | _ => none

/-- A call that opens or reopens a case on a scope of the closure of a task. -/
def Raises (w : Workspace) (call : Call) (t : Identifier) : Prop :=
  ∃ scope a task, raisedScope w call = some scope ∧ ReliesOn w t a ∧
    w.tasks.get? a = some task ∧ task.intent.scope = scope

variable {svc : Service} {env : Environment} {w m : Workspace} {call : Call} {result : Result}
  {k : Identifier} {c : RiskCase}

/-- A case that is open after an event was so before, or the event raised it. -/
theorem effect_opens (h : Effect svc env w call m result) (hc : m.cases.get? k = some c)
    (hopen : c.status = .opened) : w.cases.get? k = some c ∨ raisedScope w call = some c.scope := by
  have hsame : m.cases = w.cases → w.cases.get? k = some c ∨ raisedScope w call = some c.scope :=
    fun hcases => Or.inl (hcases ▸ hc)
  cases h with
  | filed _ _ files => exact hsame files.cases
  | reserved _ reserves => exact hsame reserves.cases
  | investigated _ _ _ investigates => exact hsame investigates.cases
  | handedOff _ handsOff => exact hsame handsOff.cases
  | accepted _ accepts => exact hsame accepts.cases
  | evaluated _ _ _ _ decides =>
    apply hsame
    rw [decides.stored]
    rfl
  | registered _ _ _ _ decides =>
    apply hsame
    rw [decides.stored]
    rfl
  | baselineSet _ sets => exact hsame sets.cases
  | opened _ about opens =>
    rw [writesCase_get? opens.writes] at hc
    split at hc
    · cases hc
      exact Or.inr (congrArg some about.symm)
    · exact Or.inl hc
  | ingested accepted _ about opens =>
    rw [writesCase_get? opens.writes] at hc
    split at hc
    · cases hc
      right
      simp [raisedScope, accepted, about]
    · exact Or.inl hc
  | reopened _ reopens =>
    rw [writesCase_get? reopens.writes] at hc
    split at hc
    · cases hc
      obtain ⟨_, _, hrenewed⟩ := reopens.renewed
      right
      rw [hrenewed]
      simp [raisedScope, reopens.known, reopened]
    · exact Or.inl hc
  | resolved _ resolves =>
    obtain ⟨start, _, writes⟩ := resolves.writes
    rw [writesCase_get? writes] at hc
    split at hc
    · cases hc
      cases hopen
    · exact Or.inl hc

end Raising

section Blockers

variable {w m : Workspace} {t : Identifier} {task : Task} {blockers : List Identifier}

/-- The open cases that touch a task are among its blockers, which touch it. -/
structure Blocked (w : Workspace) (t : Identifier) (blockers : List Identifier) : Prop where
  stored : ∃ task, w.tasks.get? t = some task
  within : ∀ k c, w.cases.get? k = some c → c.status = .opened → Touches w t c.scope →
    k ∈ blockers
  touching : ∀ k ∈ blockers, ∃ c, w.cases.get? k = some c ∧ Touches w t c.scope

/-- Such a task is denied exactly while one of its blockers is open. -/
theorem blocked_deny_iff (h : Blocked w t blockers) (hk : TasksKept w) (time : Instant)
    (explicit_review : Bool) :
    ∃ r, policyResult w t time explicit_review = .ok r ∧
      (r.verdict = .deny ↔ ∃ k ∈ blockers, ∃ c, w.cases.get? k = some c ∧ c.status = .opened) := by
  obtain ⟨task, ht⟩ := h.stored
  obtain ⟨closure, hclosure⟩ := hk.ancestors_of_get? ht
  refine ⟨_, policyResult_eq _ _ ht hclosure, ?_⟩
  rw [judge_deny_iff]
  constructor
  · intro hne
    obtain ⟨k, hmem⟩ := List.exists_mem_of_ne_nil _ hne
    obtain ⟨c, hc, hopen, hkey⟩ := mem_openCases.mp hmem
    have htouch := (scopeKey_mem_closureScopes hclosure).mp hkey
    exact ⟨k, h.within k c hc hopen htouch, c, hc, hopen⟩
  · rintro ⟨k, hmem, c, hc, hopen⟩
    obtain ⟨c', hc', htouch⟩ := h.touching k hmem
    rw [hc] at hc'
    cases hc'
    have hblocker : k ∈ openCases w (closureScopes w closure) :=
      mem_openCases.mpr ⟨c, hc, hopen, (scopeKey_mem_closureScopes hclosure).mpr htouch⟩
    exact List.ne_nil_of_mem hblocker

variable {env : Environment} {actor : Actor} {seq : ℕ} {explicit_review : Bool} {d : Decision}

theorem judge_deny_causal {state : Workspace} {time : Instant} {closure : List Identifier}
    (h : openCases state (closureScopes state closure) ≠ []) :
    (judge state t time explicit_review task closure).causal_refs =
      blockerRefs state (openCases state (closureScopes state closure)) ++
        resolvedRefs state (closureScopes state closure) := by
  unfold judge
  simp [h]

/-- A DENY names the open cases that touch its task, each with its version. -/
theorem judged_blockers (h : Judged w task explicit_review d)
    (ht : w.tasks.get? task.task_id = some task) (hdeny : d.verdict = .deny) :
    d.active_blockers.Nodup ∧
      (∀ k, k ∈ d.active_blockers ↔ ∃ c, w.cases.get? k = some c ∧ c.status = .opened ∧
        Touches w task.task_id c.scope) ∧
      ∀ k ∈ d.active_blockers, ∃ c, w.cases.get? k = some c ∧
        caseRef k c.version ∈ d.causal_refs := by
  obtain ⟨r, hr, hverdict, _, hblockers, hcausal⟩ := h.policy
  obtain ⟨task', closure, ht', hclosure, rfl⟩ := policyResult_ok hr
  rw [ht] at ht'
  cases ht'
  rw [hdeny] at hverdict
  have hne := judge_deny_iff.mp hverdict.symm
  rw [judge_blockers] at hblockers
  rw [judge_deny_causal hne] at hcausal
  have hmem : ∀ k, k ∈ d.active_blockers ↔ ∃ c, w.cases.get? k = some c ∧ c.status = .opened ∧
      Touches w task.task_id c.scope := by
    intro k
    rw [hblockers, mem_openCases]
    simp only [scopeKey_mem_closureScopes hclosure]
  refine ⟨hblockers ▸ nodup_openCases _, hmem, ?_⟩
  intro k hk
  obtain ⟨c, hc, _⟩ := (hmem k).mp hk
  refine ⟨c, hc, ?_⟩
  rw [hcausal, mem_sorted, List.mem_dedup]
  apply List.mem_append_left
  exact List.mem_filterMap.mpr ⟨k, hblockers ▸ hk, by rw [hc]; rfl⟩

end Blockers

section Runs

variable [CollisionFree] {steps : List Step} {s : Step} {t : Identifier}
  {blockers : List Identifier}

def BlockedIn (st : Option Workspace) (t : Identifier) (blockers : List Identifier) : Prop :=
  ∃ w, st = some w ∧ Blocked w t blockers

/-- Without a new open case the blockers of a task stay what they are. -/
theorem step_blocked (hrun : Run casework steps s.pre) (hnow : Allowed steps s)
    (hquiet : s.Committed → ∀ w, s.pre = some w → ¬ Raises w s.call t)
    (h : BlockedIn s.pre t blockers) : BlockedIn s.post t blockers := by
  obtain ⟨w, hpre, hblocked⟩ := h
  rcases step_cases hrun hnow with ⟨hcommitted, w0, tx, m, result, hh⟩ | ⟨_, hsame⟩
  · have hw := happened_on hh hpre
    subst hw
    have hgrows := happened_grows hh
    obtain ⟨task, ht⟩ := hblocked.stored
    have htouches : ∀ scope, Touches (recorded s.env w0 m tx result) t scope ↔
        Touches w0 t scope := fun scope => hgrows.touches_iff hh.kept.tasks ht
    obtain ⟨task', ht', _⟩ := hgrows.tasks t task ht
    refine ⟨_, hh.commits.post, ⟨task', ht'⟩, ?_, ?_⟩
    · intro k c hc hopen htouch
      rw [htouches] at htouch
      rcases effect_opens hh.effect hc hopen with hold | hraised
      · exact hblocked.within k c hold hopen htouch
      · obtain ⟨a, atask, ha, hget, hscope⟩ := touches_iff_scope.mp htouch
        exact absurd ⟨c.scope, a, atask, hraised, ha, hget, hscope⟩
          (hquiet hcommitted w0 hpre)
    · intro k hk
      obtain ⟨c, hc, htouch⟩ := hblocked.touching k hk
      obtain ⟨c', hc', hscope, _⟩ := hgrows.cases k c hc
      refine ⟨c', hc', ?_⟩
      rw [htouches, hscope]
      exact htouch
  · exact ⟨w, hsame.trans hpre, hblocked⟩

/-- The step that stored a decision of a run. -/
theorem exists_stores {w : Workspace} (hrun : Run casework steps (some w)) {id : Identifier}
    {d : Decision} (hd : w.decisions.get? id = some d) :
    ∃ before s after, steps = before ++ s :: after ∧ Run casework before s.pre ∧
      Allowed before s ∧ Stores s d := by
  have hid := ((kept_of_run hrun w rfl).decisions id d hd).1
  subst hid
  obtain ⟨done, s, rest, hsplit, hbefore, hnow, hnew, hold⟩ :=
    Run.broken (S := casework)
      (fun st => ∀ w, st = some w → w.decisions.get? d.decision_id ≠ some d) Run.start
      (fun w hw => by cases hw) hrun (fun hnone => hnone w rfl hd)
  refine ⟨done, s, rest, hsplit, hbefore, hnow, ?_, hnew⟩
  have hex : ∃ w, s.post = some w ∧ w.decisions.get? d.decision_id = some d := by
    by_contra hnot
    exact hold (fun w hpost hget => hnot ⟨w, hpost, hget⟩)
  exact hex

/-- What a stored DENY says of the workspace it was made in. -/
theorem stores_deny (hrun : Run casework steps s.pre) (hnow : Allowed steps s) {d : Decision}
    (hstores : Stores s d) (hdeny : d.verdict = .deny) :
    ∃ w0 w1, s.pre = some w0 ∧ s.post = some w1 ∧ w1.cases = w0.cases ∧
      d.active_blockers.Nodup ∧
      (∀ k, k ∈ d.active_blockers ↔ ∃ c, w1.cases.get? k = some c ∧ c.status = .opened ∧
        Touches w1 d.task_id c.scope) ∧
      (∀ k ∈ d.active_blockers, ∃ c, w1.cases.get? k = some c ∧
        caseRef k c.version ∈ d.causal_refs) ∧
      ∃ task, w1.tasks.get? d.task_id = some task := by
  obtain ⟨w, tx, m, result, w', actor, task, explicit_review, hh, requests, _, decides⟩ :=
    stores_decided hrun hnow hstores
  have enlists := requests_enlists requests
  have hcases' := (enlists_known enlists).2.2.1
  have hmcases : m.cases = w'.cases := by
    rw [decides.stored]
    rfl
  obtain ⟨hnodup, hblockers, hcausal⟩ := judged_blockers decides.judged decides.known hdeny
  have hgrows := decided_grows enlists decides hh.kept.stamped hh.fresh
  have hk := (enlists_shaped enlists hh.kept.toShaped).tasks
  have hpre : s.pre = some w := by
    rcases hh.before with hpre | ⟨_, tenant_id, rfl⟩
    · exact hpre
    · obtain ⟨k, hk⟩ : ∃ k, k ∈ d.active_blockers := by
        obtain ⟨r, hr, hverdict, _, hactive, _⟩ := decides.judged.policy
        obtain ⟨_, closure, _, _, rfl⟩ := policyResult_ok hr
        rw [hdeny] at hverdict
        rw [hactive, judge_blockers]
        exact List.exists_mem_of_ne_nil _ (judge_deny_iff.mp hverdict.symm)
      obtain ⟨c, hc, _⟩ := (hblockers k).mp hk
      rw [hcases'] at hc
      simp [sealed, Workspace.blank] at hc
  have htouches : ∀ scope, Touches (recorded s.env w m tx result) d.task_id scope ↔
      Touches w' task.task_id scope := by
    intro scope
    rw [decides.judged.task_id]
    exact (touches_congr rfl).trans (hgrows.touches_iff hk decides.known)
  have hpostcases : (recorded s.env w m tx result).cases = w'.cases := hmcases
  refine ⟨w, _, hpre, hh.commits.post, hpostcases.trans hcases', hnodup, ?_, ?_, ?_⟩
  · intro k
    rw [hblockers, hpostcases]
    simp only [htouches]
  · rw [hpostcases]
    exact hcausal
  · obtain ⟨task', ht', _⟩ := hgrows.tasks _ _ decides.known
    exact ⟨task', by rw [decides.judged.task_id]; exact ht'⟩

/-- A stored DENY names as its blockers exactly the cases that were open on the
scopes of its closure when it was stored, each with its version among its causes.
As long as no case is opened or reopened on those scopes, the policy denies the
task at any time, and any evaluation stores a DENY, exactly while one of the
blockers is open. -/
theorem deny_causes {w : Workspace} (hrun : Run casework steps (some w)) {id : Identifier}
    {d : Decision} (hd : w.decisions.get? id = some d) (hdeny : d.verdict = .deny) :
    ∃ before s after w0 w1, steps = before ++ s :: after ∧ s.pre = some w0 ∧
      s.post = some w1 ∧ Stores s d ∧ d.active_blockers.Nodup ∧
      (∀ k, k ∈ d.active_blockers ↔ ∃ c a task, w0.cases.get? k = some c ∧
        c.status = .opened ∧ ReliesOn w1 d.task_id a ∧ w1.tasks.get? a = some task ∧
        task.intent.scope = c.scope) ∧
      (∀ k ∈ d.active_blockers, ∃ c, w0.cases.get? k = some c ∧
        caseRef k c.version ∈ d.causal_refs) ∧
      ((∀ s' ∈ after, s'.Committed → ∀ v, s'.pre = some v → ¬ Raises v s'.call d.task_id) →
        (∀ time explicit_review, ∃ r, policyResult w d.task_id time explicit_review = .ok r ∧
          (r.verdict = .deny ↔ ∃ k ∈ d.active_blockers, ∃ c, w.cases.get? k = some c ∧
            c.status = .opened)) ∧
        ∀ s' d', Allowed steps s' → s'.pre = some w → decidedId s'.call = some d.task_id →
          Stores s' d' → d'.task_id = d.task_id ∧
            (d'.verdict = .deny ↔ ∃ k ∈ d.active_blockers, ∃ c, w.cases.get? k = some c ∧
              c.status = .opened)) := by
  obtain ⟨before, s, after, rfl, hbefore, hnow, hstores⟩ := exists_stores hrun hd
  obtain ⟨w0, w1, hpre, hpost, hcases, hnodup, hblockers, hcausal, hstored⟩ :=
    stores_deny hbefore hnow hstores hdeny
  refine ⟨before, s, after, w0, w1, rfl, hpre, hpost, hstores, hnodup, ?_, ?_, ?_⟩
  · intro k
    rw [hblockers, hcases]
    simp only [touches_iff_scope]
    constructor
    · rintro ⟨c, hc, hopen, a, task, ha, hget, hscope⟩
      exact ⟨c, a, task, hc, hopen, ha, hget, hscope⟩
    · rintro ⟨c, a, task, hc, hopen, ha, hget, hscope⟩
      exact ⟨c, hc, hopen, a, task, ha, hget, hscope⟩
  · rw [← hcases]
    exact hcausal
  · intro hquiet
    have hfirst : BlockedIn s.post d.task_id d.active_blockers := by
      refine ⟨w1, hpost, hstored, ?_, ?_⟩
      · exact fun k c hc hopen htouch => (hblockers k).mpr ⟨c, hc, hopen, htouch⟩
      · intro k hk
        obtain ⟨c, hc, _, htouch⟩ := (hblockers k).mp hk
        exact ⟨c, hc, htouch⟩
    have hmid := hrun.at_step.2.2
    have hassoc : before ++ s :: after = (before ++ [s]) ++ after := by simp
    have hrun' := hrun
    rw [hassoc] at hrun'
    have hlast : BlockedIn (some w) d.task_id d.active_blockers := by
      refine Run.since (S := casework) (fun st => BlockedIn st d.task_id d.active_blockers)
        hmid hfirst ?_ hrun'
      intro done s' rest hsplit hrun hnow hin
      exact step_blocked hrun hnow (hquiet s' (by simp [hsplit])) hin
    obtain ⟨w', hw', hblocked⟩ := hlast
    cases hw'
    have hkept := kept_of_run hrun w rfl
    refine ⟨blocked_deny_iff hblocked hkept.tasks, ?_⟩
    intro s' d' hnow' hpre' hdecided hstores'
    have hrun'' : Run casework (before ++ s :: after) s'.pre := hpre' ▸ hrun
    obtain ⟨w2, tx, m, result, w3, actor, task, explicit_review, hh, requests, _, decides⟩ :=
      stores_decided hrun'' hnow' hstores'
    have hw2 := happened_on hh hpre'
    subst hw2
    generalize s'.call = call at hdecided requests
    cases requests with
    | registered new => cases hdecided
    | evaluated role =>
      simp only [decidedId, Option.some.injEq] at hdecided
      obtain ⟨r, hr, hverdict, _⟩ := decides.judged.policy
      obtain ⟨r', hr', hiff⟩ :=
        blocked_deny_iff hblocked hkept.tasks d'.created_at explicit_review
      rw [← hdecided, hr] at hr'
      cases hr'
      refine ⟨decides.judged.task_id.trans hdecided, ?_⟩
      rw [hverdict]
      exact hiff

omit [Sha256] [CollisionFree] in
theorem payment_denied_for_dispute : letI := spelling
    ∃ (steps : List Step) (w : Workspace) (id : Identifier) (d : Decision),
      Run casework steps (some w) ∧ w.decisions.get? id = some d ∧ d.verdict = .deny ∧
      ∃ before s after w0 w1, steps = before ++ s :: after ∧ s.pre = some w0 ∧
        s.post = some w1 ∧ Stores s d ∧ d.active_blockers.Nodup ∧
        ∀ k, k ∈ d.active_blockers ↔ ∃ c a task, w0.cases.get? k = some c ∧
          c.status = .opened ∧ ReliesOn w1 d.task_id a ∧ w1.tasks.get? a = some task ∧
          task.intent.scope = c.scope := by
  let _ := spelling
  have := spelling_collisionFree
  obtain ⟨before, w, task, _, h⟩ := Crew.exists_started
  obtain ⟨s, w1, task1, c, hd⟩ := Crew.exists_disputed h
  have hintent := hd.suspends.intent.trans h.intent
  obtain ⟨cmd, _, m, w2, d, _, _, hpost, hopen, _, ⟨tx, result, hw2⟩, _, _, hdecides⟩ :=
    Completion.evaluate_decides hd.opened (by omega) hd.suspended (by rw [hintent]; rfl) false 0
  have hdeny : d.verdict = .deny := Completion.decides_denied hdecides hd.reviewable.stored
    hd.reviewable.opened ⟨_, task1, dependsOn_self .., hdecides.known, by rw [hd.scope, hintent]; rfl⟩
  have hm : m.decisions.get? d.decision_id = some d := by
    rw [decides_decisions hdecides]
    exact Dict.get?_set_self ..
  have hstored : w2.decisions.get? d.decision_id = some d := by
    rw [hw2]
    exact hm
  obtain ⟨_, _, _, w3, w4, hsplit, hpre, hpost', hstores, hnodup, hblockers, _⟩ :=
    deny_causes hopen.run hstored hdeny
  exact ⟨_, w2, _, d, hopen.run, hstored, hdeny, _, _, _, w3, w4, hsplit, hpre, hpost', hstores,
    hnodup, hblockers⟩

end Runs

end MemoryGuard.Causes
