import MemoryGuard.Standing

/-!
A task that was stopped stays stopped until a reviewer reconsiders it. Whatever
lists the task as affected, and every DENY of it, leaves a taint on it. Every
event keeps the taint but a READY reconsideration, and no other event can make
a READY decision about a tainted task.
-/
namespace MemoryGuard.Reconsideration

open OrderedDict Guarded DependencyGraph JsonText ContentHash Models Artifacts Aggregate Core
open Closure Policy Transactions TaskCommands CaseCommands Traces Calls Filing
open EvidenceEffects TaskEffects CaseEffects Effects Growth Upkeep Lifecycle History Standing

variable [Sha256]

section Stores

/-- A decision is in the store after the step and was not before. -/
structure Stores (s : Step) (d : Decision) : Prop where
  after : ∃ w, s.post = some w ∧ w.decisions.get? d.decision_id = some d
  before : ∀ w, s.pre = some w → w.decisions.get? d.decision_id ≠ some d

/-- A READY reconsideration of a task by a reviewer. -/
structure Reconsiders (s : Step) (t : Identifier) : Prop where
  committed : s.Committed
  command : ∃ actor cmd, s.call = .evaluate actor cmd t true ∧ actor.role = .reviewer
  decision : ∃ d, Stores s d ∧ d.task_id = t ∧ d.verdict = .ready

/-- A step that lists the task as affected, or that stores a DENY of it. -/
def Stops (s : Step) (t : Identifier) : Prop :=
  (s.Committed ∧ t ∈ s.response.result.affected_tasks) ∨
    ∃ d, Stores s d ∧ d.task_id = t ∧ d.verdict = .deny

variable {w m : Workspace} {env : Environment} {call : Call} {d : Decision}

/-- A decision that an event adds is the one it made. -/
theorem outline_decision (h : Outline env w call m) (hd : m.decisions.get? d.decision_id = some d)
    (hnew : w.decisions.get? d.decision_id ≠ some d) :
    ∃ w1 actor task explicit_review, Requests w call actor task explicit_review w1 ∧
      actor.tenant_id = w.tenant_id ∧
      Decides env actor (w.revision + 1) w1 m task explicit_review d := by
  cases h with
  | quiet h => exact absurd (h.decisions ▸ hd) hnew
  | unsettled unsettles => exact absurd (unsettles.decisions ▸ hd) hnew
  | @decided w1 actor task explicit_review d' requests tenant decides =>
    rw [decides_decisions decides, (enlists_known (requests_enlists requests)).1,
      Dict.get?_set] at hd
    split at hd
    · cases hd
      exact ⟨w1, actor, task, explicit_review, requests, tenant, decides⟩
    · exact absurd hd hnew

/-- A decision that an event makes was not there before. -/
theorem decides_stores {s : Step} {tx : Transaction} {result : Result} {w1 : Workspace}
    {actor : Actor} {seq : ℕ} {task : Task} {explicit_review : Bool}
    (hh : Happened s w tx m result) (h : Decides s.env actor seq w1 m task explicit_review d) :
    Stores s d := by
  have hfresh : w.decisions.get? d.decision_id = none := by
    rw [h.decision_id]
    exact hh.fresh.decisions "decision"
  refine ⟨⟨_, hh.commits.post, ?_⟩, ?_⟩
  · change m.decisions.get? d.decision_id = some d
    rw [decides_decisions h]
    exact Dict.get?_set_self ..
  · intro w' hpre hd
    have hw := happened_on hh hpre
    subst hw
    rw [hfresh] at hd
    cases hd

variable [CollisionFree] {steps : List Step} {s : Step}

theorem stores_decided (hrun : Run casework steps s.pre) (hnow : Allowed steps s)
    (h : Stores s d) : ∃ w tx m result w1 actor task explicit_review,
      Happened s w tx m result ∧ Requests w s.call actor task explicit_review w1 ∧
        actor.tenant_id = w.tenant_id ∧
        Decides s.env actor (w.revision + 1) w1 m task explicit_review d := by
  obtain ⟨w', hpost, hd⟩ := h.after
  rcases step_cases hrun hnow with ⟨_, w, tx, m, result, hh⟩ | ⟨_, hsame⟩
  · rw [hh.commits.post] at hpost
    cases hpost
    have hnew : w.decisions.get? d.decision_id ≠ some d := by
      rcases hh.before with hpre | ⟨_, tenant_id, rfl⟩
      · exact h.before w hpre
      · simp [sealed, Workspace.blank]
    obtain ⟨w1, actor, task, explicit_review, hdecided⟩ :=
      outline_decision (effect_outline hh.effect hh.kept.stamped) hd hnew
    exact ⟨w, tx, m, result, w1, actor, task, explicit_review, hh, hdecided⟩
  · exact absurd hd (h.before w' (hsame.symm.trans hpost))

end Stores

section Taints

def Tainted (w : Workspace) (t : Identifier) : Prop :=
  ∃ task, w.tasks.get? t = some task ∧ task.taints.isEmpty = false

def TaintedIn (st : Option Workspace) (t : Identifier) : Prop := ∃ w, st = some w ∧ Tainted w t

omit [Sha256] in
theorem taintRefs_kept {refs : List String} {taints : Dict String String}
    (h : taints.isEmpty = false) :
    (refs.foldl (fun ts ref => ts.set ref "OPEN_RISK") taints).isEmpty = false := by
  induction refs generalizing taints with
  | nil => exact h
  | cons ref rest ih => exact ih isEmpty_set

omit [Sha256] in
/-- A stored blocker leaves its taint. -/
theorem taintBlockers_of_mem {state : Workspace} {blockers : List Identifier} {k : Identifier}
    {c : RiskCase} {taints : Dict String String} (hk : k ∈ blockers)
    (hc : state.cases.get? k = some c) : (taintBlockers state blockers taints).isEmpty = false := by
  have hmem : caseRef k c.version ∈ blockerRefs state blockers :=
    List.mem_filterMap.mpr ⟨k, hk, by rw [hc]; rfl⟩
  obtain ⟨before, after, hsplit⟩ := List.append_of_mem hmem
  unfold taintBlockers
  rw [hsplit, List.foldl_append, List.foldl_cons]
  exact taintRefs_kept isEmpty_set

variable {w m : Workspace} {t : Identifier} {scope : Scope}

omit [Sha256] in
/-- What depends on anything but itself is stored. -/
theorem dependsOn_stored {a : Identifier} (h : ReliesOn w t a) {task : Task}
    (ha : w.tasks.get? a = some task) : ∃ task, w.tasks.get? t = some task := by
  rcases Relation.ReflTransGen.cases_head h with rfl | ⟨p, hedge, _⟩
  · exact ⟨task, ha⟩
  · obtain ⟨ttask, ht, _⟩ := edge_iff.mp hedge
    exact ⟨ttask, ht⟩

theorem disturbs_tainted_of_touches (h : Disturbs w m scope) (htouch : Touches w t scope) :
    Tainted m t := by
  obtain ⟨a, atask, ha, hget, _⟩ := id htouch
  obtain ⟨task, ht⟩ := dependsOn_stored ha hget
  obtain ⟨task', ht', hsuspends⟩ := h.reached t task htouch ht
  exact ⟨task', ht', hsuspends.tainted⟩

theorem disturbs_tainted (h : Disturbs w m scope) (ht : Tainted w t) : Tainted m t := by
  obtain ⟨task, hget, htaints⟩ := ht
  by_cases htouch : Touches w t scope
  · exact disturbs_tainted_of_touches h htouch
  · exact ⟨task, by rw [h.beyond t htouch, hget], htaints⟩

variable {svc : Service} {env : Environment} {call : Call} {result : Result}

/-- Whatever an event lists as affected is tainted by it. -/
theorem effect_affected (h : Effect svc env w call m result) (ht : t ∈ result.affected_tasks) :
    Tainted m t := by
  have hnone : result.affected_tasks = [] → Tainted m t := by
    intro hnone
    rw [hnone] at ht
    exact absurd ht List.not_mem_nil
  have htouch : ∀ scope, result.affected_tasks = affectedTasks w scope → Touches w t scope :=
    fun scope haffected => mem_affectedTasks.mp (haffected ▸ ht)
  cases h with
  | filed _ none => exact hnone none
  | reserved none => exact hnone none
  | investigated none => exact hnone none
  | handedOff none => exact hnone none
  | accepted none => exact hnone none
  | evaluated none => exact hnone none
  | registered none => exact hnone none
  | baselineSet affected sets =>
    exact disturbs_tainted_of_touches sets.disturbs (htouch _ affected)
  | opened affected about opens =>
    exact disturbs_tainted_of_touches opens.writes.disturbs (htouch _ (about ▸ affected))
  | ingested _ affected about opens =>
    exact disturbs_tainted_of_touches opens.writes.disturbs (htouch _ (about ▸ affected))
  | @reopened _ _ _ _ _ _ old c affected reopens =>
    have hscope : c.scope = old.scope := by
      obtain ⟨_, _, hc⟩ := reopens.renewed
      rw [hc]
      rfl
    exact disturbs_tainted_of_touches reopens.writes.disturbs (htouch _ (hscope ▸ affected))
  | resolved affected resolves =>
    obtain ⟨start, _, writes⟩ := resolves.writes
    exact disturbs_tainted_of_touches writes.disturbs (htouch _ affected)

variable {w1 : Workspace} {actor : Actor} {seq : ℕ} {task : Task} {explicit_review : Bool}
  {d : Decision}

/-- A DENY taints the task it is about. -/
theorem decides_tainted_of_deny (h : Decides env actor seq w1 m task explicit_review d)
    (hdeny : d.verdict = .deny) : Tainted m task.task_id := by
  obtain ⟨r, hr, hverdict, _, hblockers, _⟩ := h.judged.policy
  obtain ⟨task', closure, _, _, rfl⟩ := policyResult_ok hr
  rw [hdeny] at hverdict
  rw [judge_blockers] at hblockers
  obtain ⟨k, hk⟩ := List.exists_mem_of_ne_nil _ (judge_deny_iff.mp hverdict.symm)
  obtain ⟨c, hc, _⟩ := mem_openCases.mp hk
  refine ⟨_, by rw [decides_task h, if_pos rfl], ?_⟩
  have hne : ¬ (explicit_review = true ∧ d.verdict = .ready) := by simp [hdeny]
  simp only [decidedTask, if_neg hne]
  exact taintBlockers_of_mem (hblockers ▸ hk) hc

/-- A READY decision of a tainted task is a reconsideration. -/
theorem decides_explicit_of_tainted (h : Decides env actor seq w1 m task explicit_review d)
    (htaints : task.taints.isEmpty = false) (hready : d.verdict = .ready) :
    explicit_review = true := by
  obtain ⟨_, _, _, hpasses⟩ := judged_passes h.judged h.known hready
  rcases hpasses.clean with hclean | hexplicit
  · rw [htaints] at hclean
    cases hclean
  · exact hexplicit

/-- Other decisions leave the taints of a task. -/
theorem decides_tainted (h : Decides env actor seq w1 m task explicit_review d)
    (hplain : ¬ (explicit_review = true ∧ d.verdict = .ready ∧ task.task_id = t))
    (ht : Tainted w1 t) : Tainted m t := by
  obtain ⟨ttask, hget, htaints⟩ := ht
  by_cases hid : task.task_id = t
  · refine ⟨_, by rw [decides_task h, if_pos hid], ?_⟩
    have hne : ¬ (explicit_review = true ∧ d.verdict = .ready) :=
      fun hboth => hplain ⟨hboth.1, hboth.2, hid⟩
    have hsame : task = ttask := by
      have hknown := h.known
      rw [hid, hget] at hknown
      exact (Option.some.inj hknown).symm
    simp only [decidedTask, if_neg hne]
    exact taintRefs_kept (hsame ▸ htaints)
  · exact ⟨ttask, by rw [decides_task h, if_neg hid, hget], htaints⟩

end Taints

section Runs

variable [CollisionFree] {steps : List Step} {s : Step} {t : Identifier}

omit [Sha256] [CollisionFree] in
theorem enlists_tainted {w w1 : Workspace} {task : Task} (h : Enlists w w1 task)
    (ht : Tainted w t) : Tainted w1 t ∧ (NewTask w task → task.task_id ≠ t) := by
  obtain ⟨ttask, hget, htaints⟩ := ht
  have hother : NewTask w task → task.task_id ≠ t := by
    rintro new rfl
    rw [new.fresh] at hget
    cases hget
  refine ⟨?_, hother⟩
  rcases h with rfl | ⟨new, rfl⟩
  · exact ⟨ttask, hget, htaints⟩
  · exact ⟨ttask, by rw [storeTask_get?, if_neg (hother new), hget], htaints⟩

omit [CollisionFree] in
/-- A step that decides a tainted task READY is a reconsideration of it. -/
theorem reconsiders_of_decides {w m w1 : Workspace} {tx : Transaction} {result : Result}
    {actor : Actor} {task : Task} {explicit_review : Bool} {d : Decision}
    (hh : Happened s w tx m result) (hcommitted : s.Committed)
    (requests : Requests w s.call actor task explicit_review w1)
    (decides : Decides s.env actor (w.revision + 1) w1 m task explicit_review d)
    (hready : d.verdict = .ready) (ht : Tainted w task.task_id) :
    Reconsiders s task.task_id := by
  obtain ⟨⟨ttask, hget, htaints⟩, hother⟩ := enlists_tainted (requests_enlists requests) ht
  rw [decides.known] at hget
  cases hget
  have hexplicit := decides_explicit_of_tainted decides htaints hready
  generalize hcall : s.call = call at requests
  cases requests with
  | evaluated role =>
    subst hexplicit
    exact ⟨hcommitted, ⟨actor, _, hcall, role rfl⟩, d, decides_stores hh decides,
      decides.judged.task_id, hready⟩
  | registered new => exact absurd rfl (hother new)

/-- Every step keeps the taint of a task but a READY reconsideration of it. -/
theorem step_tainted (hrun : Run casework steps s.pre) (hnow : Allowed steps s)
    (ht : TaintedIn s.pre t) : TaintedIn s.post t ∨ Reconsiders s t := by
  obtain ⟨w, hpre, htainted⟩ := ht
  rcases step_cases hrun hnow with ⟨hcommitted, w0, tx, m, result, hh⟩ | ⟨_, hsame⟩
  · have hw := happened_on hh hpre
    subst hw
    have hpost : ∀ hm : Tainted m t, TaintedIn s.post t :=
      fun hm => ⟨_, hh.commits.post, hm⟩
    cases effect_outline hh.effect hh.kept.stamped with
    | quiet h =>
      left
      apply hpost
      obtain ⟨task, hget, htaints⟩ := htainted
      exact ⟨task, by rw [h.tasks, hget], htaints⟩
    | unsettled unsettles => exact Or.inl (hpost (disturbs_tainted unsettles.toDisturbs htainted))
    | @decided w1 actor task explicit_review d requests tenant decides =>
      by_cases hboth : explicit_review = true ∧ d.verdict = .ready ∧ task.task_id = t
      · right
        obtain ⟨_, hready, rfl⟩ := hboth
        exact reconsiders_of_decides hh hcommitted requests decides hready htainted
      · left
        apply hpost
        have hmid := (enlists_tainted (requests_enlists requests) htainted).1
        exact decides_tainted decides hboth hmid
  · exact Or.inl ⟨w, hsame.trans hpre, htainted⟩

/-- A step that stops a task leaves it tainted. -/
theorem stops_tainted (hrun : Run casework steps s.pre) (hnow : Allowed steps s)
    (h : Stops s t) : TaintedIn s.post t := by
  rcases h with ⟨hcommitted, haffected⟩ | ⟨d, hstores, rfl, hdeny⟩
  · rcases step_cases hrun hnow with ⟨_, w, tx, m, result, hh⟩ | ⟨hnot, _⟩
    · rw [hh.commits.response] at haffected
      have htainted : Tainted m t := effect_affected hh.effect haffected
      exact ⟨_, hh.commits.post, htainted⟩
    · exact absurd hcommitted hnot
  · obtain ⟨w, tx, m, result, w1, actor, task, explicit_review, hh, _, _, decides⟩ :=
      stores_decided hrun hnow hstores
    have htainted := decides_tainted_of_deny decides hdeny
    rw [← decides.judged.task_id] at htainted
    exact ⟨_, hh.commits.post, htainted⟩

/-- A step that makes a tainted task READY, or stores a READY decision of it,
is a reconsideration. -/
theorem reconsiders_of_ready (hrun : Run casework steps s.pre) (hnow : Allowed steps s)
    (ht : TaintedIn s.pre t)
    (hready : (∃ d, Stores s d ∧ d.task_id = t ∧ d.verdict = .ready) ∨
      ∃ w task, s.post = some w ∧ w.tasks.get? t = some task ∧ task.status = .ready) :
    Reconsiders s t := by
  rcases hready with ⟨d, hstores, rfl, hverdict⟩ | ⟨w, task, hpost, hget, hstatus⟩
  · obtain ⟨w, tx, m, result, w1, actor, task, explicit_review, hh, requests, _, decides⟩ :=
      stores_decided hrun hnow hstores
    obtain ⟨w', hpre, htainted⟩ := ht
    have hcommitted : s.Committed := by
      unfold Step.Committed
      rw [hh.commits.response]
      rfl
    have hw := happened_on hh hpre
    subst hw
    rw [decides.judged.task_id] at htainted ⊢
    exact reconsiders_of_decides hh hcommitted requests decides hverdict htainted
  · rcases step_tainted hrun hnow ht with ⟨w', hpost', task', hget', htaints⟩ | hreconsiders
    · rw [hpost] at hpost'
      cases hpost'
      rw [hget] at hget'
      cases hget'
      have hrun' : Run casework (steps ++ [s]) s.post := Run.next hrun hnow
      have hentitled := readyEntitled_of_run hrun' w hpost t task hget hstatus
      rw [hentitled.untainted] at htaints
      cases htaints
    · exact hreconsiders

/-- Where a step stopped a task and a later step stores a READY decision of it,
or makes it READY, a reviewer's READY reconsideration of it happened in between
or is that later step. -/
theorem no_resurrection {before mid after : List Step} {si sj : Step} {st : Option Workspace}
    (hrun : Run casework (before ++ si :: (mid ++ sj :: after)) st) (hstop : Stops si t)
    (hready : (∃ d, Stores sj d ∧ d.task_id = t ∧ d.verdict = .ready) ∨
      ∃ w task, sj.post = some w ∧ w.tasks.get? t = some task ∧ task.status = .ready) :
    ∃ sk ∈ mid ++ [sj], Reconsiders sk t := by
  by_contra hnone
  have hfirst := hrun.at_step
  have hassoc : before ++ si :: (mid ++ sj :: after) = (before ++ [si] ++ mid) ++ sj :: after := by
    simp
  rw [hassoc] at hrun
  have hlast := hrun.at_step
  have hmid : TaintedIn sj.pre t := by
    refine Run.since (S := casework) (fun st => TaintedIn st t) hfirst.2.2
      (stops_tainted hfirst.1 hfirst.2.1 hstop) ?_ hlast.1
    intro done s rest hsplit hrun hnow hpre
    rcases step_tainted hrun hnow hpre with htainted | hreconsiders
    · exact htainted
    · exact absurd ⟨s, by simp [hsplit], hreconsiders⟩ hnone
  have hreconsiders := reconsiders_of_ready hlast.1 hlast.2.1 hmid hready
  exact hnone ⟨sj, by simp, hreconsiders⟩

omit [Sha256] [CollisionFree] in
theorem payment_reconsidered : letI := spelling
    ∃ (before mid : List Step) (si sj sk : Step) (st : Option Workspace) (t : Identifier)
      (d : Decision), Run casework (before ++ si :: (mid ++ sj :: [])) st ∧ Stops si t ∧
      Stores sj d ∧ d.task_id = t ∧ d.verdict = .ready ∧ sk ∈ mid ++ [sj] ∧ Reconsiders sk t := by
  let _ := spelling
  have := spelling_collisionFree
  obtain ⟨before, w, task, _, h⟩ := Crew.exists_started
  obtain ⟨si, w1, task1, c, hd⟩ := Crew.exists_disputed h
  obtain ⟨done, s, w0, w2, hr⟩ := Crew.exists_resolved h hd
  obtain ⟨task2, hstored, halone, hintent⟩ := hr.stored
  obtain ⟨cmd, sj, m, w3, d, hcall, hpre, hpost, hopen, hcommitted, ⟨tx, result, hw3⟩, hfresh,
    hclock, hdecides⟩ := Completion.evaluate_decides hr.opened (by omega) hstored
      (by rw [hintent]; rfl) true 0
  have hready : d.verdict = .ready := Completion.judged_ready hdecides.judged hdecides.known halone
    (by rw [hdecides.created, hclock, hintent]; exact hr.clear) (Or.inr rfl)
  have hstores : Stores sj d := by
    refine ⟨⟨w3, hpost, ?_⟩, ?_⟩
    · have hm : m.decisions.get? d.decision_id = some d := by
        rw [decides_decisions hdecides]
        exact Dict.get?_set_self ..
      rw [hw3]
      exact hm
    · intro v hv
      rw [hpre] at hv
      cases hv
      rw [hdecides.decision_id, hfresh.decisions "decision"]
      simp
  have hof : d.task_id = task.task_id := by
    have hkeyed := (kept_of_run hr.opened.run w2 rfl).tasks.keyed _ _ hstored
    rw [hdecides.judged.task_id, hkeyed]
  have hstops : Stops si task.task_id := Or.inl ⟨hd.committed, hd.affected⟩
  have hrun : Run casework (before ++ si :: ((done ++ [s]) ++ sj :: [])) (some w3) := by
    simpa using hopen.run
  obtain ⟨sk, hmem, hreconsiders⟩ :=
    no_resurrection hrun hstops (Or.inl ⟨d, hstores, hof, hready⟩)
  exact ⟨before, _, si, sj, sk, _, _, d, hrun, hstops, hstores, hof, hready, hmem, hreconsiders⟩

end Runs

end MemoryGuard.Reconsideration
