import MemoryGuard.Crew

/-!
What READY stands for at any time. Every event is of one of three kinds: it
leaves tasks and knowledge alone, decides one task, or changes what is known of
one scope and suspends all that the scope touches. So a task that is READY is
untainted, has a READY decision of its own and no open case in its closure.
-/
namespace MemoryGuard.Standing

open OrderedDict Guarded DependencyGraph JsonText ContentHash Models Artifacts Aggregate Core
open Closure Policy Transactions TaskCommands CaseCommands Traces Calls Filing
open EvidenceEffects TaskEffects CaseEffects Effects Growth Upkeep Lifecycle History

variable [Sha256]

section Outlines

/-- What is known of a scope changes, with the stamp of the event. -/
structure Unsettles (seq : ℕ) (w m : Workspace) (scope : Scope) : Prop extends
    Disturbs w m scope where
  baselines : ∀ k b, m.baselines.get? k = some b →
    w.baselines.get? k = some b ∨ (b.scope = scope ∧ b.event_seq = seq)
  cases : ∀ k c, m.cases.get? k = some c →
    w.cases.get? k = some c ∨ (c.scope = scope ∧ caseStamp c = seq)
  stamped : (∃ b, m.baselines.get? (scopeKey scope) = some b ∧ b.event_seq = seq) ∨
    ∃ k c, m.cases.get? k = some c ∧ c.scope = scope ∧ caseStamp c = seq

/-- The workspace a task is decided in: the stored one, or that with the new task. -/
def Enlists (w w1 : Workspace) (task : Task) : Prop :=
  w1 = w ∨ (NewTask w task ∧ w1 = storeTask w task)

/-- A call that has a task decided in `w1`: an evaluation, or a reviewer's
reconsideration, of a stored task, or the registration of a new one. -/
inductive Requests (w : Workspace) : Call → Actor → Task → Bool → Workspace → Prop
  | evaluated {actor : Actor} {cmd : Command} {task : Task} {reconsider : Bool}
      (role : reconsider = true → actor.role = .reviewer) :
      Requests w (.evaluate actor cmd task.task_id reconsider) actor task reconsider w
  | registered {actor : Actor} {cmd : Command} {task : Task} {depends_on : List Identifier}
      (new : NewTask w task) :
      Requests w (.registerTask actor cmd task.intent depends_on) actor task false
        (storeTask w task)

omit [Sha256] in
theorem requests_enlists {w w1 : Workspace} {call : Call} {actor : Actor} {task : Task}
    {explicit_review : Bool} (h : Requests w call actor task explicit_review w1) :
    Enlists w w1 task := by
  cases h with
  | evaluated role => exact Or.inl rfl
  | registered new => exact Or.inr ⟨new, rfl⟩

/-- An event, as far as tasks, decisions, baselines and cases are concerned. -/
inductive Outline (env : Environment) (w : Workspace) (call : Call) (m : Workspace) : Prop
  | quiet (h : Quiet w m)
  | decided {w1 : Workspace} {actor : Actor} {task : Task} {explicit_review : Bool} {d : Decision}
      (requests : Requests w call actor task explicit_review w1)
      (tenant : actor.tenant_id = w.tenant_id)
      (decides : Decides env actor (w.revision + 1) w1 m task explicit_review d)
  | unsettled {scope : Scope} (unsettles : Unsettles (w.revision + 1) w m scope)

variable {w m : Workspace} {scope : Scope} {seq : ℕ}

theorem setsBaseline_unsettles {b : Baseline} (h : SetsBaseline seq scope w m b) :
    Unsettles seq w m scope where
  toDisturbs := h.disturbs
  baselines := by
    intro k b' hb
    rw [setsBaseline_get? h] at hb
    split at hb
    · cases hb
      exact Or.inr ⟨h.about, h.stamp⟩
    · exact Or.inl hb
  cases := by
    rw [h.cases]
    exact fun _ _ hc => Or.inl hc
  stamped := Or.inl ⟨b, by rw [setsBaseline_get? h, if_pos rfl], h.stamp⟩

theorem writesCase_unsettles {c : RiskCase} {start : Dict String Artifact}
    (h : WritesCase w m c start) (hstamp : caseStamp c = seq) : Unsettles seq w m c.scope where
  toDisturbs := h.disturbs
  baselines := by
    rw [h.baselines]
    exact fun _ _ hb => Or.inl hb
  cases := by
    intro k c' hc
    rw [writesCase_get? h] at hc
    split at hc
    · cases hc
      exact Or.inr ⟨rfl, hstamp⟩
    · exact Or.inl hc
  stamped := Or.inr ⟨c.case_id, c, by rw [writesCase_get? h, if_pos rfl], rfl, hstamp⟩

theorem opensCase_unsettles {c : RiskCase} (h : OpensCase seq w m c) :
    Unsettles seq w m c.scope :=
  writesCase_unsettles h.writes (by simp [caseStamp, h.stamp, h.unresolved])

theorem reopensCase_unsettles {case_id : Identifier} {old c : RiskCase}
    (h : ReopensCase seq w m case_id old c) : Unsettles seq w m old.scope := by
  obtain ⟨actor_id, evidence_digest, hc⟩ := h.renewed
  have hstamp : caseStamp c = seq := by rw [hc, caseStamp_reopened]
  have hscope : c.scope = old.scope := by
    rw [hc]
    rfl
  exact hscope ▸ writesCase_unsettles h.writes hstamp

theorem resolvesCase_unsettles {svc : Service} {env : Environment} {actor : Actor}
    {case_id handoff_id : Identifier} {resolution : Resolution} {evidence_digest : Digest}
    {old : RiskCase} {handoff : Handoff} {report : Report} (hw : Stamped seq w)
    (h : ResolvesCase svc env actor seq w m case_id handoff_id resolution evidence_digest old
      handoff report) : Unsettles seq w m old.scope := by
  obtain ⟨start, _, writes⟩ := h.writes
  have hstamp := caseStamp_resolved old resolution actor.actor_id (hw.cases _ _ h.known)
  have hunsettles := writesCase_unsettles writes hstamp
  exact hunsettles

theorem effect_outline {svc : Service} {env : Environment} {call : Call} {result : Result}
    (h : Effect svc env w call m result) (hw : Stamped w.revision w) : Outline env w call m := by
  have hstamped : Stamped (w.revision + 1) w := hw.mono (by omega)
  cases h with
  | filed _ _ files => exact .quiet files.toQuiet
  | reserved _ reserves => exact .quiet reserves.toQuiet
  | investigated _ _ _ investigates => exact .quiet investigates.toQuiet
  | handedOff _ handsOff => exact .quiet handsOff.toQuiet
  | accepted _ accepts => exact .quiet accepts.toQuiet
  | evaluated _ role tenant about decides =>
    subst about
    exact .decided (.evaluated role) tenant decides
  | registered _ tenant intends new decides =>
    subst intends
    exact .decided (.registered new) tenant decides
  | baselineSet _ sets => exact .unsettled (setsBaseline_unsettles sets)
  | opened _ _ opens => exact .unsettled (opensCase_unsettles opens)
  | ingested _ _ _ opens => exact .unsettled (opensCase_unsettles opens)
  | reopened _ reopens => exact .unsettled (reopensCase_unsettles reopens)
  | resolved _ resolves => exact .unsettled (resolvesCase_unsettles hstamped resolves)

/-- A new task is judged in a workspace of the shape of the stored one. -/
theorem enlists_shaped {w1 : Workspace} {task : Task} (h : Enlists w w1 task) (hw : Shaped w) :
    Shaped w1 := by
  rcases h with rfl | ⟨new, rfl⟩
  · exact hw
  · exact newTask_shaped hw new

omit [Sha256] in
theorem enlists_known {w1 : Workspace} {task : Task} (h : Enlists w w1 task) :
    w1.decisions = w.decisions ∧ w1.baselines = w.baselines ∧ w1.cases = w.cases ∧
      w1.artifacts = w.artifacts := by
  rcases h with rfl | ⟨_, rfl⟩
  · exact ⟨rfl, rfl, rfl, rfl⟩
  · exact ⟨rfl, rfl, rfl, rfl⟩

omit [Sha256] in
theorem enlists_stamped {w1 : Workspace} {task : Task} (h : Enlists w w1 task)
    (hw : Stamped seq w) : Stamped seq w1 := by
  obtain ⟨hdecisions, hbaselines, hcases, _⟩ := enlists_known h
  exact ⟨hbaselines ▸ hw.baselines, hcases ▸ hw.cases, hdecisions ▸ hw.decisions⟩

/-- Deciding loses nothing, from the stored workspace or from that with the new task. -/
theorem decided_grows {env : Environment} {w1 : Workspace} {actor : Actor} {task : Task}
    {explicit_review : Bool} {d : Decision} (enlists : Enlists w w1 task)
    (decides : Decides env actor (w.revision + 1) w1 m task explicit_review d)
    (hw : Stamped w.revision w) (hfresh : Fresh env w) : Grows w1 m := by
  have hstamped := enlists_stamped enlists (hw.mono (Nat.le_succ _))
  refine decides_grows decides ?_ hstamped
  rw [(enlists_known enlists).1]
  exact hfresh.decisions "decision"

end Outlines

section Ready

/-- What a READY task has to show. -/
structure Entitled (w : Workspace) (t : Identifier) (task : Task) : Prop where
  untainted : task.taints.isEmpty
  decided : ∃ id d, task.current_decision_id = some id ∧ w.decisions.get? id = some d ∧
    d.task_id = t ∧ d.verdict = .ready
  unblocked : ∀ k c, w.cases.get? k = some c → c.status = .opened → ¬ Touches w t c.scope

def ReadyEntitled (w : Workspace) : Prop :=
  ∀ t task, w.tasks.get? t = some task → task.status = .ready → Entitled w t task

variable {w m : Workspace} {env : Environment}

theorem quiet_readyEntitled (h : Quiet w m) (hw : ReadyEntitled w) : ReadyEntitled m := by
  intro t task ht hready
  rw [h.tasks] at ht
  obtain ⟨untainted, decided, unblocked⟩ := hw t task ht hready
  refine ⟨untainted, h.decisions ▸ decided, ?_⟩
  rw [h.cases]
  intro k c hc hopen htouch
  exact unblocked k c hc hopen ((touches_congr h.tasks).mp htouch)

theorem unsettles_readyEntitled {scope : Scope} {seq : ℕ} (h : Unsettles seq w m scope)
    (hgrows : Grows w m) (hk : TasksKept w) (hw : ReadyEntitled w) : ReadyEntitled m := by
  intro t task ht hready
  obtain ⟨task', ht', ⟨hbeyond, rfl⟩ | ⟨_, hsuspends⟩⟩ := disturbs_task h.toDisturbs ht
  · obtain ⟨untainted, decided, unblocked⟩ := hw t task ht' hready
    refine ⟨untainted, h.decisions ▸ decided, ?_⟩
    intro k c hc hopen htouch
    rw [hgrows.touches_iff hk ht'] at htouch
    rcases h.cases k c hc with hold | ⟨rfl, _⟩
    · exact unblocked k c hold hopen htouch
    · exact hbeyond htouch
  · exact absurd hready hsuspends.status

/-- The new task has no standing, and the others keep theirs. -/
theorem enlists_readyEntitled {w1 : Workspace} {task : Task} (h : Enlists w w1 task)
    (hk : TasksKept w) (hw : ReadyEntitled w) : ReadyEntitled w1 := by
  rcases h with rfl | ⟨new, rfl⟩
  · exact hw
  · intro t t' ht hready
    rw [storeTask_get?] at ht
    split at ht
    · cases ht
      rw [new.status] at hready
      cases hready
    · obtain ⟨untainted, decided, unblocked⟩ := hw t t' ht hready
      refine ⟨untainted, decided, ?_⟩
      intro k c hc hopen htouch
      exact unblocked k c hc hopen (((newTask_grows new).touches_iff hk ht).mp htouch)

/-- Nothing open touches a task whose closure has no open case. -/
theorem unblocked_of_openCases {t : Identifier} {closure : List Identifier}
    (hclosure : ancestors w t = .ok closure)
    (h : openCases w (closureScopes w closure) = []) (k : Identifier) (c : RiskCase)
    (hc : w.cases.get? k = some c) (hopen : c.status = .opened) : ¬ Touches w t c.scope := by
  intro htouch
  have hmem : k ∈ openCases w (closureScopes w closure) :=
    mem_openCases.mpr ⟨c, hc, hopen, (scopeKey_mem_closureScopes hclosure).mpr htouch⟩
  simp [h] at hmem

variable {actor : Actor} {seq : ℕ} {task : Task} {explicit_review : Bool} {d : Decision}

theorem decides_touches (h : Decides env actor seq w m task explicit_review d) (hk : TasksKept w)
    (hgrows : Grows w m) {t : Identifier} {t' : Task} (ht : m.tasks.get? t = some t')
    {scope : Scope} : Touches m t scope ↔ Touches w t scope := by
  obtain ⟨old, hold, _⟩ := decides_tasks h t t' ht
  exact hgrows.touches_iff hk hold

theorem decides_readyEntitled (h : Decides env actor seq w m task explicit_review d)
    (hfresh : w.decisions.get? (env.fresh "decision") = none) (hk : TasksKept w)
    (hgrows : Grows w m) (hw : ReadyEntitled w) : ReadyEntitled m := by
  intro t t' ht hready
  have htouches : ∀ scope, Touches m t scope ↔ Touches w t scope :=
    fun scope => decides_touches h hk hgrows ht
  have hcases : m.cases = w.cases := by
    rw [h.stored]
    rfl
  simp only [decides_task h] at ht
  split at ht
  · rename_i hid
    cases ht
    have hverdict : d.verdict = .ready := by
      cases hv : d.verdict with
      | ready => rfl
      | deny => simp [decidedTask, hv, Verdict.status] at hready
      | needsHuman => simp [decidedTask, hv, Verdict.status] at hready
    obtain ⟨hblockers, closure, hclosure, hpasses⟩ := judged_passes h.judged h.known hverdict
    refine ⟨?_, ⟨d.decision_id, d, rfl, ?_, ?_, hverdict⟩, ?_⟩
    · rcases hpasses.clean with hclean | hexplicit
      · simp only [decidedTask, hverdict, hblockers, taintBlockers, and_true]
        split
        · rfl
        · exact hclean
      · simp [decidedTask, hverdict, hexplicit, Dict.isEmpty, Dict.empty]
    · rw [decides_decisions h]
      exact Dict.get?_set_self ..
    · rw [h.judged.task_id, hid]
    · intro k c hc hopen htouch
      rw [hcases] at hc
      rw [htouches, ← hid] at htouch
      exact unblocked_of_openCases hclosure hpasses.unblocked k c hc hopen htouch
  · obtain ⟨untainted, ⟨id, d', hcurrent, hd', hof, hverdict⟩, unblocked⟩ := hw t t' ht hready
    refine ⟨untainted, ⟨id, d', hcurrent, decides_kept h hfresh hd', hof, hverdict⟩, ?_⟩
    intro k c hc hopen htouch
    rw [hcases] at hc
    exact unblocked k c hc hopen ((htouches _).mp htouch)

theorem outline_readyEntitled {call : Call} (h : Outline env w call m) (hw : Kept w) (hfresh : Fresh env w)
    (hgrows : Grows w m) (hready : ReadyEntitled w) : ReadyEntitled m := by
  cases h with
  | quiet h => exact quiet_readyEntitled h hready
  | unsettled unsettles => exact unsettles_readyEntitled unsettles hgrows hw.tasks hready
  | decided requests _ decides =>
    have enlists := requests_enlists requests
    have hw1 := enlists_shaped enlists hw.toShaped
    refine decides_readyEntitled decides ?_ hw1.tasks
      (decided_grows enlists decides hw.stamped hfresh)
      (enlists_readyEntitled enlists hw.tasks hready)
    rw [(enlists_known enlists).1]
    exact hfresh.decisions "decision"

end Ready

section Runs

variable [CollisionFree] {steps : List Step}

/-- A step that happened in a run, after the steps before it. -/
structure Occurs (steps : List Step) (s : Step) (w : Workspace) (tx : Transaction)
    (m : Workspace) (result : Result) : Prop extends Happened s w tx m result where
  ran : Run casework steps s.pre
  now : Allowed steps s

/-- What every event of a run and the empty workspace satisfy holds of every
stored workspace. -/
theorem invariant_of_events (P : Workspace → Prop)
    (hblank : ∀ tenant_id, P (sealed (Workspace.blank tenant_id)))
    (hstep : ∀ steps s w tx m result, Occurs steps s w tx m result → P w →
      P (recorded s.env w m tx result)) {st : Option Workspace} (h : Run casework steps st) :
    ∀ w, st = some w → P w := by
  refine Run.invariant (S := casework) (fun st => ∀ w, st = some w → P w) ?_ ?_ h
  · intro w hw
    cases hw
  · intro steps s hrun hnow hpre w hw
    have hw : s.post = some w := hw
    rcases step_cases hrun hnow with ⟨_, w0, tx, m, result, hh⟩ | ⟨_, hsame⟩
    · rw [hh.commits.post] at hw
      cases hw
      refine hstep steps s w0 tx m result ⟨hh, hrun, hnow⟩ ?_
      rcases hh.before with hbefore | ⟨_, tenant_id, rfl⟩
      · exact hpre w0 hbefore
      · exact hblank tenant_id
    · exact hpre w (hsame.symm.trans hw)

theorem invariant_of_run (P : Workspace → Prop)
    (hblank : ∀ tenant_id, P (sealed (Workspace.blank tenant_id)))
    (hstep : ∀ s w tx m result, Happened s w tx m result → P w →
      P (recorded s.env w m tx result)) {st : Option Workspace} (h : Run casework steps st) :
    ∀ w, st = some w → P w :=
  invariant_of_events P hblank
    (fun _ s w tx m result ho => hstep s w tx m result ho.toHappened) h

omit [CollisionFree] in
/-- A workspace that was stored ends an initial part of the run. -/
theorem stored_before {st : Option Workspace} (h : Run casework steps st) {w : Workspace}
    (hw : ∃ t ∈ steps, t.post = some w) :
    ∃ before after, steps = before ++ after ∧ Run casework before (some w) := by
  obtain ⟨t, ht, hpost⟩ := hw
  obtain ⟨before, after, rfl⟩ := List.append_of_mem ht
  refine ⟨before ++ [t], after, by simp, ?_⟩
  have hrun := h.at_step.2.2
  rw [show casework.post t = some w from hpost] at hrun
  exact hrun

/-- A step either leaves the stored workspace alone or is an event on it. -/
theorem between_cases {s : Step} {w m : Workspace} (hrun : Run casework steps s.pre)
    (hnow : Allowed steps s) (hpre : s.pre = some w) (hpost : s.post = some m) :
    m = w ∨ ∃ tx m' result, Occurs steps s w tx m' result ∧ m = recorded s.env w m' tx result := by
  rcases step_cases hrun hnow with ⟨_, w0, tx, m', result, hh⟩ | ⟨_, hsame⟩
  · have heq := happened_on hh hpre
    subst heq
    have hm := hh.commits.post
    rw [hpost] at hm
    exact Or.inr ⟨tx, m', result, ⟨hh, hrun, hnow⟩, Option.some.inj hm⟩
  · rw [hpre, hpost] at hsame
    exact Or.inl (Option.some.inj hsame)

/-- A relation that every event respects holds between any two stored workspaces
of a run. -/
theorem related_of_events (R : Workspace → Workspace → Prop) (hrefl : ∀ w, R w w)
    (htrans : ∀ w w' w'', R w w' → R w' w'' → R w w'')
    (hstep : ∀ steps s w tx m result, Occurs steps s w tx m result → s.pre = some w →
      R w (recorded s.env w m tx result)) {before after : List Step} {w : Workspace}
    {st : Option Workspace} (hmid : Run casework before (some w))
    (h : Run casework (before ++ after) st) : ∃ w', st = some w' ∧ R w w' := by
  refine Run.since (S := casework) (fun st => ∃ w', st = some w' ∧ R w w') hmid
    ⟨w, rfl, hrefl w⟩ ?_ h
  intro done s rest _ hrun hnow hpre
  obtain ⟨w1, hw1, hR⟩ := hpre
  have hw1 : s.pre = some w1 := hw1
  rcases step_cases hrun hnow with ⟨_, w0, tx, m, result, hh⟩ | ⟨_, hsame⟩
  · have heq := happened_on hh hw1
    subst heq
    exact ⟨_, hh.commits.post, htrans _ _ _ hR (hstep _ s w0 tx m result ⟨hh, hrun, hnow⟩ hw1)⟩
  · exact ⟨w1, hsame.trans hw1, hR⟩

theorem readyEntitled_of_run {st : Option Workspace} (h : Run casework steps st) :
    ∀ w, st = some w → ReadyEntitled w := by
  refine invariant_of_run ReadyEntitled ?_ ?_ h
  · intro tenant_id t task ht
    simp [sealed, Workspace.blank] at ht
  · intro s w tx m result hh hw
    have hm := outline_readyEntitled (effect_outline hh.effect hh.kept.stamped) hh.kept hh.fresh
      (effect_keeps hh.effect hh.kept hh.fresh).2.2 hw
    intro t task ht hready
    obtain ⟨untainted, decided, unblocked⟩ := hm t task ht hready
    exact ⟨untainted, decided, unblocked⟩

/-- A stored task that is READY has no taint, points to a READY decision of its
own, and no open case has the scope of anything it depends on. -/
theorem no_ready_under_open_risk {w : Workspace} (h : Reachable w) {t : Identifier} {task : Task}
    (ht : w.tasks.get? t = some task) (hready : task.status = .ready) :
    task.taints.entries = [] ∧
      (∃ id d, task.current_decision_id = some id ∧ w.decisions.get? id = some d ∧
        d.task_id = t ∧ d.verdict = .ready) ∧
      ∀ k c a ancestor, w.cases.get? k = some c → c.status = .opened → ReliesOn w t a →
        w.tasks.get? a = some ancestor → c.scope ≠ ancestor.intent.scope := by
  obtain ⟨steps, hrun⟩ := h
  obtain ⟨untainted, decided, unblocked⟩ := readyEntitled_of_run hrun w rfl t task ht hready
  refine ⟨?_, decided, ?_⟩
  · simpa [Dict.isEmpty] using untainted
  · intro k c a ancestor hc hopen ha hget hscope
    exact unblocked k c hc hopen ⟨a, ancestor, ha, hget, congrArg scopeKey hscope.symm⟩

omit [Sha256] [CollisionFree] in
theorem ready_payment_entitled : letI := spelling
    ∃ w t task, Reachable w ∧ w.tasks.get? t = some task ∧ task.status = .ready ∧
      task.taints.entries = [] ∧ ∃ id d, task.current_decision_id = some id ∧
        w.decisions.get? id = some d ∧ d.task_id = t ∧ d.verdict = .ready := by
  let _ := spelling
  have := spelling_collisionFree
  obtain ⟨steps, w, task, d, h⟩ := Crew.exists_started
  have hreachable : Reachable w := ⟨steps, h.opened.run⟩
  obtain ⟨untainted, decided, _⟩ :=
    no_ready_under_open_risk hreachable h.proves.stored h.proves.status
  exact ⟨w, _, task, hreachable, h.proves.stored, h.proves.status, untainted, decided⟩

end Runs

end MemoryGuard.Standing
