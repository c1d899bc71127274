import MemoryGuard.Causes
import MemoryGuard.Isolation

/-!
An action outlives its tasks: its fingerprint names the tenant and the intent, so
whoever registers the intent again has a second task for the same action. A risk
taints the tasks that carry the action when it is opened, and a registration under
an open risk taints the new task. A registration after the risk is resolved taints
nothing, and its decision can be READY although nobody reconsidered the action.
-/
namespace MemoryGuard.StoppedActions

open OrderedDict Guarded DependencyGraph JsonText ContentHash Models Artifacts Aggregate Core
open Closure Policy Transactions TaskCommands Traces Calls Filing TaskEffects CaseEffects Effects
open Growth Upkeep Lifecycle History Standing Reconsideration Causes

variable [Sha256]

section Actions

/-- The scope of the risk that a call opens. -/
def riskScope : Call → Option Scope
  | .openCase _ _ scope _ _ => some scope
  | .ingest incidents delivery _ =>
      (incidents.find? (fun s => s.source_id = delivery.source_id)).map (fun spec => spec.scope)
  | _ => none

omit [Sha256] in
theorem riskScope_plain {call : Call} (h : Plain call) : riskScope call = none := by
  cases call <;> first | rfl | exact False.elim h

/-- A stored task of the action. -/
def Carries (w : Workspace) (F : Digest) (t : Identifier) : Prop :=
  ∃ task, w.tasks.get? t = some task ∧ actionFingerprint w.tenant_id task.intent = F

/-- A risk is opened on the scope of a stored task of the action. -/
structure StopsAction (s : Step) (F : Digest) : Prop where
  committed : s.Committed
  carried : ∃ scope w t task, riskScope s.call = some scope ∧ s.pre = some w ∧
    w.tasks.get? t = some task ∧ task.intent.scope = scope ∧
    actionFingerprint w.tenant_id task.intent = F

/-- A READY reconsideration of a task of the action by a reviewer. -/
structure ReconsidersAction (s : Step) (F : Digest) : Prop where
  committed : s.Committed
  command : ∃ actor cmd t, s.call = .evaluate actor cmd t true ∧ actor.role = .reviewer
  decision : ∃ d, Stores s d ∧ d.action_fingerprint = F ∧ d.verdict = .ready

/-- The task is registered while no open case lies on its scope or on one that its
dependencies rely on. -/
structure Reenters (s : Step) (t : Identifier) : Prop where
  registered : ∃ d, Stores s d ∧ d.task_id = t
  unblocked : ∃ actor cmd intent depends_on, s.call = .registerTask actor cmd intent depends_on ∧
    ∀ w, s.pre = some w → ∀ k c, w.cases.get? k = some c → c.status = .opened →
      scopeKey c.scope ≠ scopeKey intent.scope ∧ ∀ p ∈ depends_on, ¬ Touches w p c.scope

end Actions

section Events

variable {w m w1 : Workspace} {s : Step} {tx : Transaction} {result : Result} {actor : Actor}
  {seq : ℕ} {env : Environment} {task : Task} {explicit_review : Bool} {d : Decision} {F : Digest}
  {t : Identifier}

/-- A new task is touched by what touches its scope or a task it depends on. -/
theorem newTask_touches (hk : TasksKept w) (new : NewTask w task) (scope : Scope)
    (h : scopeKey scope = scopeKey task.intent.scope ∨ ∃ p ∈ task.depends_on, Touches w p scope) :
    Touches (storeTask w task) task.task_id scope := by
  have hself : (storeTask w task).tasks.get? task.task_id = some task := Dict.get?_set_self ..
  rcases h with hkey | ⟨p, hp, htouches⟩
  · exact ⟨task.task_id, task, dependsOn_self .., hself, hkey.symm⟩
  · obtain ⟨parent, hparent⟩ := new.depends_on p hp
    obtain ⟨a, atask, ha, hget, hkey⟩ :=
      ((newTask_grows new).touches_iff hk hparent).mpr htouches
    have hedge : Edge (dependsOn (storeTask w task)) task.task_id p :=
      edge_iff.mpr ⟨task, hself, hp⟩
    exact ⟨a, atask, Relation.ReflTransGen.head hedge ha, hget, hkey⟩

variable [CollisionFree] {steps : List Step}

theorem actionFingerprint_inj {tenant_id tenant_id' : Identifier} {i j : Intent} :
    actionFingerprint tenant_id i = actionFingerprint tenant_id' j ↔
      tenant_id = tenant_id' ∧ i = j := by
  constructor
  · intro h
    have hbody := object_inj (digest_inj.mp h).2 rfl
    simp only [List.cons.injEq, Prod.mk.injEq, Json.str.injEq, true_and] at hbody
    exact ⟨hbody.1, Intent.toJson_injective (congrArg object hbody.2)⟩
  · rintro ⟨rfl, rfl⟩
    rfl

omit [CollisionFree] in
/-- A registration under an open risk is denied. -/
theorem registered_cases {cmd : Command} {depends_on : List Identifier}
    (hh : Happened s w tx m result)
    (hcall : s.call = .registerTask actor cmd task.intent depends_on) (new : NewTask w task)
    (decides : Decides s.env actor (w.revision + 1) (storeTask w task) m task false d) :
    d.verdict = .deny ∨ Reenters s task.task_id := by
  by_cases hblocked : ∃ k c, w.cases.get? k = some c ∧ c.status = .opened ∧
      Touches (storeTask w task) task.task_id c.scope
  · obtain ⟨k, c, hc, hopen, htouches⟩ := hblocked
    exact Or.inl (Completion.decides_denied decides (k := k) hc hopen htouches)
  · right
    refine ⟨⟨d, decides_stores hh decides, decides.judged.task_id⟩, actor, cmd, task.intent,
      depends_on, hcall, ?_⟩
    intro w' hpre k c hc hopen
    have hw := happened_on hh hpre
    subst hw
    have hprepared := hh.commits.prepared
    rw [hcall] at hprepared
    have hprepared := inTransaction_transaction hprepared
    simp only [registerTask, bind_eq_ok, pure_eq_ok] at hprepared
    obtain ⟨_, _, rfl⟩ := hprepared
    obtain ⟨_, hothers⟩ := Isolation.registerTaskChange_kin hh.commits.changed
    have hstored := decides_task decides task.task_id
    rw [if_pos rfl] at hstored
    have hsorted : task.depends_on = sorted depends_on := by
      rcases hothers _ _ hstored with hold | ⟨_, hdepends⟩
      · rw [new.fresh] at hold
        cases hold
      · exact hdepends
    have htouches := newTask_touches hh.kept.tasks new c.scope
    refine ⟨fun hkey => ?_, fun p hp hreaches => ?_⟩
    · exact hblocked ⟨k, c, hc, hopen, htouches (Or.inl hkey)⟩
    · have hparent : p ∈ task.depends_on := by
        rw [hsorted]
        exact mem_sorted.mpr hp
      exact hblocked ⟨k, c, hc, hopen, htouches (Or.inr ⟨p, hparent, hreaches⟩)⟩

end Events

section Runs

variable [CollisionFree] {steps : List Step} {s : Step} {F : Digest} {t : Identifier}
  {d : Decision}

/-- The task, where it is stored and carries the action, is tainted. -/
def Held (F : Digest) (t : Identifier) (st : Option Workspace) : Prop :=
  ∀ w, st = some w → Carries w F t → Tainted w t

omit [CollisionFree] in
/-- Nothing changes what a stored task carries. -/
theorem carries_of_grows {w m : Workspace} {task : Task} (h : Grows w m) (hm : Carries m F t)
    (ht : w.tasks.get? t = some task) : Carries w F t := by
  obtain ⟨task', ht', hF⟩ := hm
  obtain ⟨task'', hget, hintent, _⟩ := h.tasks t task ht
  rw [ht'] at hget
  cases hget
  exact ⟨task, ht, by rw [← hintent, ← h.tenant, hF]⟩

omit [CollisionFree] in
theorem carries_grown {w m : Workspace} (h : Grows w m) (hw : Carries w F t) : Carries m F t := by
  obtain ⟨task, ht, hF⟩ := hw
  obtain ⟨task', ht', hintent, _⟩ := h.tasks t task ht
  exact ⟨task', ht', by rw [hintent, h.tenant, hF]⟩

/-- Opening a risk on the action taints every task that carries it. -/
theorem stopsAction_held (hrun : Run casework steps s.pre) (hnow : Allowed steps s)
    (h : StopsAction s F) : Held F t s.post := by
  obtain ⟨scope, w, t0, task0, hscope, hpre, _, hin, hF⟩ := h.carried
  rcases step_cases hrun hnow with ⟨_, w', tx, m, result, hh⟩ | ⟨hnot, _⟩
  · have hw := happened_on hh hpre
    subst hw
    intro w2 hw2 hcarries
    rw [hh.commits.post] at hw2
    cases hw2
    have hdisturbs : Disturbs w' m scope → Tainted m t := by
      intro hdisturbs
      obtain ⟨task', ht', hF'⟩ := hcarries
      have hmem := Dict.mem_keys_of_get? ht'
      change t ∈ m.tasks.keys at hmem
      rw [hdisturbs.keys] at hmem
      obtain ⟨task, ht⟩ := Dict.exists_get?_of_mem_keys hmem
      obtain ⟨_, htask, hsame⟩ := carries_of_grows (happened_grows hh) ⟨task', ht', hF'⟩ ht
      rw [← hF, actionFingerprint_inj] at hsame
      exact disturbs_tainted_of_touches hdisturbs
        ⟨t, _, dependsOn_self .., htask, by rw [hsame.2, hin]⟩
    have heffect := hh.effect
    generalize s.call = call at hscope heffect
    cases heffect with
    | opened _ about opens =>
      cases hscope
      exact hdisturbs (about ▸ opens.writes.disturbs)
    | ingested accepted _ about opens =>
      simp only [riskScope, accepted, Option.map_some, Option.some.injEq] at hscope
      rw [← hscope, ← about] at hdisturbs
      exact hdisturbs opens.writes.disturbs
    | filed plain _ _ =>
      rw [riskScope_plain plain] at hscope
      cases hscope
    | _ => cases hscope
  · exact absurd h.committed hnot

/-- A reconsideration of a task reconsiders the action that it carries. -/
theorem reconsidersAction_of_reconsiders (hrun : Run casework steps s.pre)
    (hnow : Allowed steps s) (h : Reconsiders s t) {w : Workspace} (hpost : s.post = some w)
    (hcarries : Carries w F t) : ReconsidersAction s F := by
  obtain ⟨actor, cmd, hcall, hrole⟩ := h.command
  obtain ⟨d, hstores, rfl, hready⟩ := h.decision
  refine ⟨h.committed, ⟨actor, cmd, _, hcall, hrole⟩, d, hstores, ?_, hready⟩
  obtain ⟨w0, tx, m, result, w1, actor', task, explicit_review, hh, _, htenant, decides⟩ :=
    stores_decided hrun hnow hstores
  rw [hh.commits.post] at hpost
  cases hpost
  obtain ⟨task', ht', hF⟩ := hcarries
  change m.tasks.get? d.task_id = some task' at ht'
  rw [decides_task decides, if_pos decides.judged.task_id.symm] at ht'
  cases ht'
  rw [decides.fingerprint, htenant, ← hF, (happened_grows hh).tenant]
  rfl

/-- Every step holds the task but a READY reconsideration of the action and a
registration of the task that no open risk meets. -/
theorem step_held (hrun : Run casework steps s.pre) (hnow : Allowed steps s)
    (h : Held F t s.pre) : Held F t s.post ∨ ReconsidersAction s F ∨ Reenters s t := by
  by_contra hnone
  push Not at hnone
  obtain ⟨hheld, hreconsiders, hreenters⟩ := hnone
  apply hheld
  intro w' hpost hcarries
  rcases step_cases hrun hnow with ⟨_, w, tx, m, result, hh⟩ | ⟨_, hsame⟩
  · have hm : w' = recorded s.env w m tx result := by
      rw [hh.commits.post] at hpost
      exact (Option.some.inj hpost).symm
    cases hget : w.tasks.get? t with
    | some task =>
      have hpre : s.pre = some w := by
        rcases hh.before with hpre | ⟨_, tenant_id, rfl⟩
        · exact hpre
        · cases hget
      have hold := carries_of_grows (hm ▸ happened_grows hh) hcarries hget
      rcases step_tainted hrun hnow ⟨w, hpre, h w hpre hold⟩ with ⟨w2, hw2, htainted⟩ | hagain
      · rw [hpost] at hw2
        cases hw2
        exact htainted
      · exact absurd (reconsidersAction_of_reconsiders hrun hnow hagain hpost hcarries)
          hreconsiders
    | none =>
      -- Only a registration stores a task under a new key.
      subst hm
      obtain ⟨task', ht', _⟩ := hcarries
      change m.tasks.get? t = some task' at ht'
      cases effect_outline hh.effect hh.kept.stamped with
      | quiet hquiet =>
        rw [hquiet.tasks, hget] at ht'
        cases ht'
      | unsettled hunsettles =>
        have hmem := Dict.mem_keys_of_get? ht'
        rw [hunsettles.keys] at hmem
        obtain ⟨old, hold⟩ := Dict.exists_get?_of_mem_keys hmem
        rw [hget] at hold
        cases hold
      | @decided w1 actor task explicit_review d requests _ decides =>
        generalize hcall : s.call = call at requests
        obtain ⟨old, hold, _⟩ := decides_tasks decides t task' ht'
        cases requests with
        | evaluated _ =>
          rw [hget] at hold
          cases hold
        | registered new =>
          have htask : task.task_id = t := by
            rw [storeTask_get?] at hold
            by_contra hne
            rw [if_neg hne, hget] at hold
            cases hold
          subst htask
          rcases registered_cases hh hcall new decides with hdeny | hagain
          · have htainted : Tainted m task.task_id := decides_tainted_of_deny decides hdeny
            exact htainted
          · exact absurd hagain hreenters
  · rw [hsame] at hpost
    exact h w' hpost hcarries

/-- A READY decision of a held task is a reconsideration of its action, or the task
is registered with it. -/
theorem ready_of_held (hrun : Run casework steps s.pre) (hnow : Allowed steps s)
    (h : Held F d.task_id s.pre) (hstores : Stores s d) (hF : d.action_fingerprint = F)
    (hready : d.verdict = .ready) : ReconsidersAction s F ∨ Reenters s d.task_id := by
  obtain ⟨w, tx, m, result, w1, actor, task, explicit_review, hh, requests, htenant, decides⟩ :=
    stores_decided hrun hnow hstores
  have hid := decides.judged.task_id
  have hcarried : actionFingerprint w.tenant_id task.intent = F := by
    rw [← htenant, ← decides.fingerprint, hF]
  generalize hcall : s.call = call at requests
  cases requests with
  | evaluated role =>
    left
    have hknown := decides.known
    have hpre : s.pre = some w := by
      rcases hh.before with hpre | ⟨_, tenant_id, rfl⟩
      · exact hpre
      · cases hknown
    have htainted : Tainted w d.task_id :=
      h w hpre ⟨task, by rw [hid, hknown], hcarried⟩
    have hagain := reconsiders_of_ready hrun hnow ⟨w, hpre, htainted⟩
      (Or.inl ⟨d, hstores, rfl, hready⟩)
    refine reconsidersAction_of_reconsiders hrun hnow hagain hh.commits.post ?_
    exact carries_grown (happened_grows hh) ⟨task, by rw [hid, hknown], hcarried⟩
  | registered new =>
    right
    rcases registered_cases hh hcall new decides with hdeny | hagain
    · rw [hready] at hdeny
      cases hdeny
    · rw [hid]
      exact hagain

/-- Where a risk was opened on an action and a READY decision of the action is stored
later, a reviewer's READY reconsideration of the action happened in between or is that
later step, as long as no task of the action that nobody had reconsidered was registered
since with no open risk behind it. -/
theorem stopped_action_reconsidered {before mid after : List Step} {si sj : Step}
    {st : Option Workspace} (hrun : Run casework (before ++ si :: (mid ++ sj :: after)) st)
    (hstop : StopsAction si F) (hstores : Stores sj d) (hF : d.action_fingerprint = F)
    (hready : d.verdict = .ready)
    (hclear : ∀ done s rest, mid ++ [sj] = done ++ s :: rest → Reenters s d.task_id →
      ∃ sk ∈ done, ReconsidersAction sk F) :
    ∃ sk ∈ mid ++ [sj], ReconsidersAction sk F := by
  by_contra hnone
  have hout : ∀ done s rest, mid ++ [sj] = done ++ s :: rest →
      ¬ ReconsidersAction s F ∧ ¬ Reenters s d.task_id := by
    intro done s rest hsplit
    refine ⟨fun hagain => hnone ⟨s, by simp [hsplit], hagain⟩, fun hreenters => ?_⟩
    obtain ⟨sk, hmem, hagain⟩ := hclear done s rest hsplit hreenters
    exact hnone ⟨sk, by simp [hsplit, hmem], hagain⟩
  have hfirst := hrun.at_step
  have hassoc : before ++ si :: (mid ++ sj :: after) = (before ++ [si] ++ mid) ++ sj :: after := by
    simp
  rw [hassoc] at hrun
  have hlast := hrun.at_step
  have hheld : Held F d.task_id sj.pre := by
    refine Run.since (S := casework) (Held F d.task_id) hfirst.2.2
      (stopsAction_held hfirst.1 hfirst.2.1 hstop) ?_ hlast.1
    intro done s rest hsplit hrun hnow hpre
    obtain ⟨hplain, hnew⟩ := hout done s (rest ++ [sj]) (by simp [hsplit])
    rcases step_held hrun hnow hpre with hheld | hagain | hreenters
    · exact hheld
    · exact absurd hagain hplain
    · exact absurd hreenters hnew
  obtain ⟨hplain, hnew⟩ := hout mid sj [] rfl
  rcases ready_of_held hlast.1 hlast.2.1 hheld hstores hF hready with hagain | hreenters
  · exact hplain hagain
  · exact hnew hreenters

end Runs

section Payments

variable [CollisionFree] {steps done : List Step} {w w0 : Workspace} {s : Step}

/-- No decision is stored where the decisions stay the same. -/
theorem undecided_between (hrun : Run casework steps (some w))
    (hlater : Run casework (steps ++ done) (some w0)) (hsame : w0.decisions = w.decisions)
    (hs : s ∈ done) (d : Decision) : ¬ Stores s d := by
  intro hstores
  obtain ⟨early, late, rfl⟩ := List.append_of_mem hs
  obtain ⟨w1, hpost, hd⟩ := hstores.after
  have hstep : Run casework ((steps ++ early) ++ s :: late) (some w0) := by
    simpa using hlater
  obtain ⟨hpre, _, hat⟩ := hstep.at_step
  have htail : Run casework ((steps ++ early ++ [s]) ++ late) (some w0) := by
    simpa using hlater
  obtain ⟨w0', hw0, hgrown⟩ := run_extends hat htail w1 hpost
  cases hw0
  have hfirst : w.decisions.get? d.decision_id = some d := hsame ▸ hgrown.decisions _ _ hd
  obtain ⟨w2, hw2, hgrows⟩ := run_extends hrun hpre w rfl
  exact hstores.before w2 hw2 (hgrows.decisions _ _ hfirst)

/-- While the crew reviews the dispute nothing is decided. -/
theorem review_undecided {si : Step} {w1 w2 : Workspace} {task task1 : Models.Task}
    {c : RiskCase} (hd : Crew.Disputed steps si w w1 task task1 c)
    (hr : Crew.Resolved (steps ++ [si]) done s w w0 w2 task c) {sk : Step} (hmem : sk ∈ done)
    (d : Decision) : ¬ Stores sk d := by
  obtain ⟨hlater, _, _⟩ := hr.opened.run.snoc
  have hpre : Run casework (steps ++ [si] ++ done) (some w0) := hr.pre ▸ hlater
  exact undecided_between hd.opened.run hpre (hr.undecided.trans hd.decisions.symm) hmem d

omit [CollisionFree] in
/-- The step that opens the dispute stops the action of the payment. -/
theorem disputed_stops {si : Step} {w1 : Workspace} {task task1 : Models.Task} {c : RiskCase}
    {d : Decision} (h : Crew.Started steps w task d)
    (hd : Crew.Disputed steps si w w1 task task1 c) :
    StopsAction si (actionFingerprint Crew.owner.tenant_id Crew.payment) := by
  obtain ⟨cmd, hopened⟩ := hd.called
  refine ⟨hd.committed, Crew.transfers, w, task.task_id, task, ?_, hd.pre, h.proves.stored, ?_, ?_⟩
  · rw [hopened]
    rfl
  · rw [h.intent]
    rfl
  · rw [h.intent, h.opened.tenant]
    rfl

omit [Sha256] [CollisionFree] in
/-- A payment is stopped by a dispute, the dispute is resolved, and the owner registers
the same payment again: its READY decision is stored and nobody reconsidered anything. -/
theorem payment_reentered : letI := spelling
    ∃ (before mid : List Step) (si sj : Step) (st : Option Workspace) (F : Digest) (d : Decision),
      Run casework (before ++ si :: (mid ++ sj :: [])) st ∧ StopsAction si F ∧
      (∃ cmd, si.call = .openCase Crew.owner cmd Crew.transfers .dispute Crew.evidence) ∧
      (∃ cmd, sj.call = .registerTask Crew.owner cmd Crew.payment []) ∧
      Stores sj d ∧ d.action_fingerprint = F ∧ d.verdict = .ready ∧
      ∀ sk ∈ mid ++ [sj], ¬ ReconsidersAction sk F := by
  let _ := spelling
  have := spelling_collisionFree
  obtain ⟨before, w, task, _, h⟩ := Crew.exists_started
  obtain ⟨si, w1, task1, c, hd⟩ := Crew.exists_disputed h
  obtain ⟨done, s, w0, w2, hr⟩ := Crew.exists_resolved h hd
  obtain ⟨cmd, sj, w3, task3, d, hcall, hpre, hpost, hopen, _, hproves, _, _, hfresh,
    hfingerprint, _⟩ := Completion.register_ready hr.opened (by omega) Crew.payment rfl
      (by have hroom := h.room; have hsize := hr.size; omega) hr.clear
  obtain ⟨cmd0, hopened⟩ := hd.called
  obtain ⟨cmd2, handoff_id, hresolved⟩ := hr.called
  have hstops := disputed_stops h hd
  have hstores : Stores sj d := by
    refine ⟨⟨w3, hpost, hproves.decision⟩, ?_⟩
    intro v hv
    rw [hpre] at hv
    cases hv
    rw [hfresh]
    simp
  refine ⟨before, done ++ [s], si, sj, some w3, _, d, ?_, hstops, ⟨cmd0, hopened⟩,
    ⟨cmd, hcall⟩, hstores, ?_, hproves.verdict, ?_⟩
  · simpa using hopen.run
  · exact hfingerprint
  · intro sk hmem hagain
    rcases List.mem_append.mp hmem with hmem | hmem
    · rcases List.mem_append.mp hmem with hmem | hmem
      · obtain ⟨d', hstores', _⟩ := hagain.decision
        exact review_undecided hd hr hmem d' hstores'
      · obtain rfl := List.mem_singleton.mp hmem
        obtain ⟨actor, cmd', t, hcall', _⟩ := hagain.command
        rw [hresolved] at hcall'
        cases hcall'
    · obtain rfl := List.mem_singleton.mp hmem
      obtain ⟨actor, cmd', t, hcall', _⟩ := hagain.command
      rw [hcall] at hcall'
      cases hcall'

/-- The reviewer reconsiders the payment after the dispute is resolved. -/
theorem exists_reconsidered {w2 : Workspace} {task : Models.Task} {c : RiskCase}
    (hr : Crew.Resolved steps done s w w0 w2 task c) :
    ∃ sr w3, Staffing.Open Crew.crew (steps ++ done ++ [s] ++ [sr]) w3 9 ∧
      ReconsidersAction sr (actionFingerprint Crew.owner.tenant_id Crew.payment) ∧
      (∃ cmd t, sr.call = .evaluate Crew.reviewer cmd t true) ∧ w3.tasks.size = w2.tasks.size ∧
      w3.cases = w2.cases ∧ w3.baselines = w2.baselines := by
  obtain ⟨task2, hstored, halone, hintent⟩ := hr.stored
  obtain ⟨cmd, sr, m, w3, d, hcall, hpre, hpost, hopen, hcommitted, ⟨tx, result, rfl⟩, hfresh,
    hclock, hdecides⟩ := Completion.evaluate_decides hr.opened (by omega) hstored
      (by rw [hintent]; rfl) true 0
  have hready : d.verdict = .ready := Completion.judged_ready hdecides.judged hdecides.known halone
    (by rw [hdecides.created, hclock, hintent]; exact hr.clear) (Or.inr rfl)
  have hm : m.decisions.get? d.decision_id = some d := by
    rw [decides_decisions hdecides]
    exact Dict.get?_set_self ..
  have hstores : Stores sr d := by
    refine ⟨⟨_, hpost, hm⟩, ?_⟩
    intro v hv
    rw [hpre] at hv
    cases hv
    rw [hdecides.decision_id, hfresh.decisions "decision"]
    simp
  have hkeys : m.tasks.size = w2.tasks.size := by
    rw [Dict.size_eq_keys, Dict.size_eq_keys, decides_keys hdecides]
  refine ⟨sr, _, hopen, ⟨hcommitted, ⟨_, cmd, _, hcall, rfl⟩, d, hstores, ?_, hready⟩,
    ⟨cmd, _, hcall⟩, hkeys, ?_, ?_⟩
  · rw [hdecides.fingerprint, hintent]
    rfl
  · change m.cases = w2.cases
    rw [hdecides.stored]
    rfl
  · change m.baselines = w2.baselines
    rw [hdecides.stored]
    rfl

omit [Sha256] [CollisionFree] in
/-- The payment is reconsidered after the dispute is resolved, and then registered again. -/
theorem payment_action_reconsidered : letI := spelling
    ∃ (before mid : List Step) (si sj sk : Step) (st : Option Workspace) (F : Digest)
      (d : Decision), Run casework (before ++ si :: (mid ++ sj :: [])) st ∧ StopsAction si F ∧
      Stores sj d ∧ d.action_fingerprint = F ∧ d.verdict = .ready ∧ Reenters sj d.task_id ∧
      sk ∈ mid ++ [sj] ∧ ReconsidersAction sk F := by
  let _ := spelling
  have := spelling_collisionFree
  obtain ⟨before, w, task, _, h⟩ := Crew.exists_started
  obtain ⟨si, w1, task1, c, hd⟩ := Crew.exists_disputed h
  obtain ⟨done, s, w0, w2, hr⟩ := Crew.exists_resolved h hd
  obtain ⟨sr, w3, hopen1, hagain, hevaluates, hsize, hcases, hbaselines⟩ := exists_reconsidered hr
  have hclear : Completion.Clear w3 0 Crew.payment :=
    ⟨hbaselines ▸ hr.clear.covered, hcases ▸ hr.clear.unblocked⟩
  obtain ⟨cmd, sj, w4, task3, d, hcall, hpre, hpost, hopen, _, hproves, _, _, hfresh,
    hfingerprint, _⟩ := Completion.register_ready hopen1 (by omega) Crew.payment rfl
      (by have hroom := h.room; have hsame := hr.size; omega) hclear
  have hstores : Stores sj d := by
    refine ⟨⟨w4, hpost, hproves.decision⟩, ?_⟩
    intro v hv
    rw [hpre] at hv
    cases hv
    rw [hfresh]
    simp
  have hreenters : Reenters sj d.task_id := by
    refine ⟨⟨d, hstores, rfl⟩, _, cmd, _, _, hcall, ?_⟩
    intro v hv k k' hk hopened
    rw [hpre] at hv
    cases hv
    exact ⟨hclear.unblocked k k' hk hopened, by simp⟩
  have hrun : Run casework (before ++ si :: ((done ++ [s] ++ [sr]) ++ sj :: [])) (some w4) := by
    simpa using hopen.run
  have hstops := disputed_stops h hd
  -- Of all the steps only the last one registers a task.
  have hfirst : ∀ t ∈ done ++ [s] ++ [sr], ¬ Reenters t d.task_id := by
    intro t hmem hnew
    obtain ⟨_, _, _, _, hcall', _⟩ := hnew.unblocked
    rcases List.mem_append.mp hmem with hmem | hmem
    · rcases List.mem_append.mp hmem with hmem | hmem
      · obtain ⟨d', hstores', _⟩ := hnew.registered
        exact review_undecided hd hr hmem d' hstores'
      · obtain rfl := List.mem_singleton.mp hmem
        obtain ⟨_, _, hresolved⟩ := hr.called
        rw [hresolved] at hcall'
        cases hcall'
    · obtain rfl := List.mem_singleton.mp hmem
      obtain ⟨_, _, hevaluated⟩ := hevaluates
      rw [hevaluated] at hcall'
      cases hcall'
  have hclear : ∀ early t rest, done ++ [s] ++ [sr] ++ [sj] = early ++ t :: rest →
      Reenters t d.task_id → ∃ sk ∈ early,
        ReconsidersAction sk (actionFingerprint Crew.owner.tenant_id Crew.payment) := by
    intro early t rest hsplit hnew
    rcases List.eq_nil_or_concat rest with rfl | ⟨rest, x, rfl⟩
    · obtain ⟨rfl, _⟩ := List.append_inj' hsplit rfl
      exact ⟨sr, by simp, hagain⟩
    · rw [List.concat_eq_append, ← List.cons_append, ← List.append_assoc] at hsplit
      obtain ⟨hsplit, _⟩ := List.append_inj' hsplit rfl
      exact absurd hnew (hfirst t (by rw [hsplit]; simp))
  obtain ⟨sk, hmem, hreconsiders⟩ :=
    stopped_action_reconsidered hrun hstops hstores hfingerprint hproves.verdict hclear
  exact ⟨before, _, si, sj, sk, _, _, d, hrun, hstops, hstores, hfingerprint, hproves.verdict,
    hreenters, hmem, hreconsiders⟩

end Payments

end MemoryGuard.StoppedActions
