import MemoryGuard.Completion

/-!
One tenant at work. A payment becomes READY; a dispute over its scope stops it,
and is reviewed and resolved. Elsewhere a second subject's rent becomes READY and
is disputed. Each stage is a run of the casework.
-/
namespace MemoryGuard.Crew

open OrderedDict Guarded DependencyGraph JsonText ContentHash Models Artifacts Aggregate Core
open Closure Policy Transactions TaskCommands CaseCommands Traces Calls Filing EvidenceEffects
open TaskEffects CaseEffects Effects Growth Upkeep History Progress Staffing Completion

section People

def owner : Actor := ⟨"owner", "tenant", .owner, ["subject"]⟩

def investigator : Actor := ⟨"investigator", "tenant", .investigator, ["subject"]⟩

def reviewer : Actor := ⟨"reviewer", "tenant", .reviewer, ["subject"]⟩

def deskless : Service where
  actors := Dict.empty.set "reviewer" reviewer
  evidence_desk := none
  anchor := none
  build_commit := ""
  runtime_id := "runtime"
  process_id := 1
  fits := fun _ => true

def crew : Staff where
  svc := deskless
  tenant_id := "tenant"
  subject_id := "subject"
  owner := owner
  investigator := investigator
  reviewer := reviewer
  desk := rfl
  fits := fun _ => rfl
  owns := ⟨rfl, rfl, by simp [owner]⟩
  investigates := ⟨rfl, rfl, by simp [investigator]⟩
  reviews := ⟨rfl, rfl, by simp [reviewer]⟩
  known := Dict.get?_set_self ..
  apart := by simp [owner, reviewer]
  independent := by simp [investigator, reviewer]

def transfers : Scope := ⟨"subject", .base, "0x0000000000000000000000000000000000000001", "transfer"⟩

def approvals : Scope := ⟨"subject", .base, "0x0000000000000000000000000000000000000001", "approve"⟩

theorem one_bounded : 1 ≤ 100000000 := by omega

def payment : Intent := ⟨transfers, ⟨1, Nat.one_pos, one_bounded⟩⟩

/-- The owner of a second subject's tasks. -/
def neighbour : Actor := ⟨"neighbour", "tenant", .owner, ["neighbour"]⟩

def auditor : Actor := ⟨"auditor", "tenant", .reviewer, ["neighbour"]⟩

/-- Those who work for the second subject. -/
def neighbours : Staff where
  svc := { deskless with actors := Dict.empty.set "auditor" auditor }
  tenant_id := "tenant"
  subject_id := "neighbour"
  owner := neighbour
  investigator := ⟨"assistant", "tenant", .investigator, ["neighbour"]⟩
  reviewer := auditor
  desk := rfl
  fits := fun _ => rfl
  owns := ⟨rfl, rfl, by simp [neighbour]⟩
  investigates := ⟨rfl, rfl, by simp⟩
  reviews := ⟨rfl, rfl, by simp [auditor]⟩
  known := Dict.get?_set_self ..
  apart := by simp [neighbour, auditor]
  independent := by simp [auditor]

def rents : Scope := ⟨"neighbour", .base, "0x0000000000000000000000000000000000000001", "transfer"⟩

def rent : Intent := ⟨rents, ⟨1, Nat.one_pos, one_bounded⟩⟩

def evidence : Digest := "0000000000000000000000000000000000000000000000000000000000000000"

end People

variable [Sha256] [CollisionFree]

/-- A run at whose end the payment is READY and no risk was ever recorded. -/
structure Started (steps : List Step) (w : Workspace) (task : Models.Task) (d : Decision) :
    Prop where
  opened : Open crew steps w 3
  stored : ∃ s ∈ steps, s.post = some w
  proves : Proves w 0 task d
  intent : task.intent = payment
  clear : Clear w 0 payment
  cases : w.cases = .empty
  artifacts : w.artifacts = .empty
  room : w.tasks.size ≤ 1

theorem exists_started : ∃ steps w task d, Started steps w task d := by
  obtain ⟨s1, w1, hopen1, _, htasks1, hcases1, _, hartifacts1⟩ := can_bootstrap crew 0
  have hunblocked : ∀ k c, w1.cases.get? k = some c → c.status = .opened →
      scopeKey c.scope ≠ scopeKey payment.scope := by
    intro k c hc
    rw [hcases1] at hc
    simp at hc
  obtain ⟨cmd2, s2, w2, _, _, hpost2, hopen2, _, _, hclear2, hkeys2, hcases2, hartifacts2⟩ :=
    baseline_clears 0 hopen1 (by omega) payment rfl 1
      (by simp) hunblocked
  have hsize2 : w2.tasks.size = 0 := by
    rw [Dict.size_eq_keys, hkeys2, htasks1]
    rfl
  obtain ⟨cmd3, s3, w3, task, d, _, _, hpost3, hopen3, _, hproves, hintent, _, _, _, hsize3,
    hcases3, hartifacts3, hbaselines3⟩ :=
    register_ready hopen2 (by omega) payment rfl (by omega) hclear2
  refine ⟨_, w3, task, d, hopen3, ⟨s3, by simp, hpost3⟩, hproves, hintent, ?_, ?_, ?_, by omega⟩
  · obtain ⟨covered, unblocked⟩ := hclear2
    exact ⟨hbaselines3 ▸ covered, hcases3 ▸ unblocked⟩
  · rw [hcases3, hcases2, hcases1]
  · rw [hartifacts3, hartifacts2, hartifacts1]

/-- The payment is stopped by a dispute that can be reviewed. -/
structure Disputed (steps : List Step) (s : Step) (w w' : Workspace) (task task' : Models.Task)
    (c : RiskCase) : Prop where
  pre : s.pre = some w
  post : s.post = some w'
  opened : Open crew (steps ++ [s]) w' 4
  committed : s.Committed
  called : ∃ cmd, s.call = .openCase owner cmd transfers .dispute evidence
  affected : task.task_id ∈ s.response.result.affected_tasks
  suspended : w'.tasks.get? task.task_id = some task'
  suspends : Suspends task task'
  scope : c.scope = transfers
  kind : c.kind = .dispute
  opener : c.opened_by = owner.actor_id
  reviewable : Reviewable crew w' c.case_id c
  cases : w'.cases = Dict.empty.set c.case_id c
  baselines : w'.baselines = w.baselines
  keys : w'.tasks.keys = w.tasks.keys
  decisions : w'.decisions = w.decisions
  artifacts : w'.artifacts = .empty

variable {steps : List Step} {w : Workspace} {task : Models.Task} {d : Decision}

theorem exists_disputed (h : Started steps w task d) :
    ∃ s w' task' c, Disputed steps s w w' task task' c := by
  obtain ⟨cmd, s, w', c, hcall, hpre, hpost, hopen, hcommitted, haffected, ⟨hscope, hkind⟩, hopener, hc, _,
    hdisturbs, hcases, hbaselines, hartifacts⟩ := open_risk h.opened (by omega) transfers
      rfl (by simp [h.cases, Dict.size, Dict.empty]) h.artifacts .dispute evidence
  have htouches : Touches w task.task_id transfers :=
    ⟨task.task_id, task, dependsOn_self .., h.proves.stored, by rw [h.intent]; rfl⟩
  obtain ⟨task', hstored, hsuspends⟩ := hdisturbs.reached _ _ htouches h.proves.stored
  refine ⟨s, w', task', c, hpre, hpost, hopen, hcommitted, ⟨cmd, hcall⟩, ?_, hstored, hsuspends,
    hscope, hkind, hopener, hc, ?_, hbaselines, hdisturbs.keys, hdisturbs.decisions, hartifacts⟩
  · rw [haffected]
    exact mem_affectedTasks.mpr htouches
  · rw [hcases, h.cases]

/-- A risk on another scope than the payment's can be recorded. -/
theorem Started.other_risk (h : Started steps w task d) :
    ∃ cmd s w', s.call = .openCase owner cmd approvals .dispute evidence ∧ s.pre = some w ∧
      s.post = some w' ∧ Allowed steps s ∧ s.Committed := by
  obtain ⟨cmd, s, w', c, hcall, hpre, hpost, hopen, hcommitted, _⟩ :=
    open_risk h.opened (by omega) approvals rfl
      (by simp [h.cases, Dict.size, Dict.empty]) h.artifacts .dispute evidence
  exact ⟨cmd, s, w', hcall, hpre, hpost, hopen.run.snoc.2.1, hcommitted⟩

/-- The dispute has been reviewed and resolved. -/
structure Resolved (steps done : List Step) (s : Step) (w w0 w' : Workspace) (task : Models.Task)
    (c : RiskCase) : Prop where
  opened : Open crew (steps ++ done ++ [s]) w' 8
  called : ∃ cmd handoff_id,
    s.call = .resolve reviewer cmd c.case_id handoff_id .remediationVerified evidence
  pre : s.pre = some w0
  post : s.post = some w'
  committed : s.Committed
  stored : ∃ task', w'.tasks.get? task.task_id = some task' ∧ task'.depends_on = [] ∧
    task'.intent = payment
  stopped : ∀ task', w'.tasks.get? task.task_id = some task' → task'.status ≠ .ready
  size : w'.tasks.size = w.tasks.size
  undecided : w0.decisions = w.decisions
  clear : Clear w' 0 payment
  cases : w'.cases.get? c.case_id = some (resolvedCase c .remediationVerified reviewer.actor_id 8)

theorem exists_resolved {s : Step} {w' : Workspace} {task' : Models.Task} {c : RiskCase}
    (h : Started steps w task d) (hd : Disputed steps s w w' task task' c) :
    ∃ done s' w0 w'', Resolved (steps ++ [s]) done s' w w0 w'' task c := by
  obtain ⟨done, cmd, handoff_id, s', w0, w'', hcore, hcall, hpre, hpost, hopen, hcommitted,
    hdisturbs, hbaselines, hcases⟩ := review_case hd.opened (by omega) hd.reviewable
      ⟨s, by simp, hd.post⟩ hd.artifacts hd.opener .remediationVerified evidence
  have hstored : w0.tasks.get? task.task_id = some task' := by
    rw [hcore.tasks, hd.suspended]
  have hintent : task'.intent = payment := hd.suspends.intent.trans h.intent
  have halone : task'.depends_on = [] := hd.suspends.depends_on.trans h.proves.alone
  have htouches : Touches w0 task.task_id c.scope :=
    ⟨task.task_id, task', dependsOn_self .., hstored, by rw [hintent, hd.scope]; rfl⟩
  obtain ⟨task'', hstored'', hsuspends⟩ := hdisturbs.reached _ _ htouches hstored
  refine ⟨done, s', w0, w'', hopen, ⟨cmd, handoff_id, hcall⟩, hpre, hpost, hcommitted,
    ⟨task'', hstored'', hsuspends.depends_on.trans halone, hsuspends.intent.trans hintent⟩, ?_, ?_,
    hcore.decisions.trans hd.decisions, ⟨?_, ?_⟩, ?_⟩
  · intro other hother
    rw [hstored''] at hother
    cases hother
    exact hsuspends.status
  · rw [Dict.size_eq_keys, Dict.size_eq_keys, hdisturbs.keys, hcore.tasks, hd.keys]
  · rw [hbaselines, hd.baselines]
    exact h.clear.covered
  · intro k k' hk hopened
    rw [hcases, hd.cases] at hk
    simp only [Dict.get?_set] at hk
    split at hk
    · cases hk
      cases hopened
    · simp at hk
  · rw [hcases]
    exact Dict.get?_set_self ..

/-- Next to the payment another subject's rent is READY, until its owner opens a
dispute over it. -/
structure Neighboured (steps : List Step) (s : Step) (w w' : Workspace) (task due : Models.Task) :
    Prop where
  run : Run casework steps (some w)
  now : Allowed steps s
  pre : s.pre = some w
  post : s.post = some w'
  called : ∃ cmd, s.call = .openCase neighbour cmd rents .dispute evidence
  paid : w.tasks.get? task.task_id = some task
  paid_intent : task.intent = payment
  stored : w.tasks.get? due.task_id = some due
  intent : due.intent = rent
  ready : due.status = .ready
  disputed : ∃ due', w'.tasks.get? due.task_id = some due' ∧ Suspends due due'

theorem exists_neighboured : ∃ steps s w w' task due, Neighboured steps s w w' task due := by
  obtain ⟨steps, w, task, d, h⟩ := exists_started
  have hopen : Open neighbours steps w 3 := ⟨h.opened.run, h.opened.tenant, h.opened.revision⟩
  have hunblocked : ∀ k c, w.cases.get? k = some c → c.status = .opened →
      scopeKey c.scope ≠ scopeKey rents := by
    intro k c hc
    rw [h.cases] at hc
    simp at hc
  obtain ⟨_, s1, w1, _, _, _, hopen1, _, _, hclear1, hkeys1, hcases1, hartifacts1⟩ :=
    baseline_clears 0 hopen (by omega) rent rfl 1 (by simp) hunblocked
  have hsize1 : w1.tasks.size < 250 := by
    have hroom := h.room
    rw [Dict.size_eq_keys, hkeys1, ← Dict.size_eq_keys]
    omega
  obtain ⟨_, s2, w2, due, _, _, _, _, hopen2, _, hproves, hintent, _, _, _, _, hcases2, hartifacts2,
    _⟩ := register_ready hopen1 (by omega) rent rfl hsize1 hclear1
  have hcases : w2.cases = .empty := by rw [hcases2, hcases1, h.cases]
  obtain ⟨cmd, s3, w3, c, hcall, hpre, hpost, hopen3, _, _, _, _, _, _, hdisturbs, _⟩ :=
    open_risk hopen2 (by omega) rents rfl (by simp [hcases, Dict.size, Dict.empty])
      (by rw [hartifacts2, hartifacts1, h.artifacts]) .dispute evidence
  have hlater : Run casework (steps ++ ([s1] ++ [s2])) (some w2) := by
    rw [← List.append_assoc]
    exact hopen2.run
  obtain ⟨_, hw2, hgrows⟩ := run_extends h.opened.run hlater w rfl
  cases hw2
  obtain ⟨task', htask', hsame, _⟩ := hgrows.tasks _ _ h.proves.stored
  have hid : task'.task_id = task.task_id :=
    (kept_of_run hopen2.run w2 rfl).tasks.keyed _ _ htask'
  have htouches : Touches w2 due.task_id rents :=
    ⟨due.task_id, due, dependsOn_self .., hproves.stored, by rw [hintent]; rfl⟩
  exact ⟨_, s3, w2, w3, task', due, hopen2.run, hopen3.run.snoc.2.1, hpre, hpost, ⟨cmd, hcall⟩,
    hid.symm ▸ htask', hsame.trans h.intent, hproves.stored, hintent, hproves.status,
    hdisturbs.reached _ _ htouches hproves.stored⟩

end MemoryGuard.Crew
