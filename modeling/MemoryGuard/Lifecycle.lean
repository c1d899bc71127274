import MemoryGuard.Upkeep

/-!
Decisions, registrations and disturbances keep the shape of a workspace too.
With that, every state of every run is well shaped and extends every state
before it.
-/
namespace MemoryGuard.Lifecycle

open OrderedDict Guarded DependencyGraph JsonText ContentHash Models Artifacts Aggregate Core
open Closure Policy SourceModels SourceState SourceGuard SourceService Transactions TaskCommands
open CaseCommands SourceCommands Traces Calls Floors Filing EvidenceEffects TaskEffects
open CaseEffects Effects Growth Upkeep

section Tasks

variable {w m : Workspace}

/-- The graph is kept where the keys and every task's dependencies are. -/
theorem tasksKept_of_keys (hk : TasksKept w) (hkeys : m.tasks.keys = w.tasks.keys)
    (htask : ∀ k t', m.tasks.get? k = some t' → ∃ t, w.tasks.get? k = some t ∧
      t'.task_id = t.task_id ∧ t'.depends_on = t.depends_on) : TasksKept m := by
  have hdeps : dependsOn m = dependsOn w := by
    funext k
    unfold dependsOn
    cases hget : m.tasks.get? k with
    | some t' =>
      obtain ⟨t, ht, _, hd⟩ := htask k t' hget
      simp [ht, hd]
    | none =>
      have hnone : w.tasks.get? k = none := by
        rw [Dict.get?_eq_none_iff, ← hkeys]
        exact Dict.get?_eq_none_iff.mp hget
      simp [hnone]
  refine ⟨?_, by rw [hdeps, hkeys]; exact hk.ordered⟩
  intro k t' hget
  obtain ⟨t, ht, hid, _⟩ := htask k t' hget
  rw [hid, hk.keyed k t ht]

theorem storeTask_keys_new {task : Task} (hfresh : w.tasks.get? task.task_id = none) :
    (storeTask w task).tasks.keys = w.tasks.keys ++ [task.task_id] := by
  change (w.tasks.set task.task_id task).keys = _
  unfold Dict.keys
  rw [Dict.entries_set_of_fresh hfresh]
  simp

theorem storeTask_get? (task : Task) (k : Identifier) :
    (storeTask w task).tasks.get? k = if task.task_id = k then some task else w.tasks.get? k :=
  Dict.get?_set ..

theorem newTask_tasksKept {task : Task} (hk : TasksKept w) (hnew : NewTask w task) :
    TasksKept (storeTask w task) := by
  have hother : ∀ k ∈ w.tasks.keys, dependsOn (storeTask w task) k = dependsOn w k := by
    intro k hmem
    have hne : task.task_id ≠ k := by
      rintro rfl
      exact Dict.get?_eq_none_iff.mp hnew.fresh hmem
    unfold dependsOn
    rw [storeTask_get?, if_neg hne]
  constructor
  · intro k t ht
    rw [storeTask_get?] at ht
    split at ht
    · cases ht
      assumption
    · exact hk.keyed k t ht
  · rw [storeTask_keys_new hnew.fresh]
    refine Topological.concat ?_ (?_ : _ = some task.depends_on) ?_
    · intro before x after hsplit
      obtain ⟨ps, hps, hmem⟩ := hk.ordered before x after hsplit
      exact ⟨ps, by rw [hother x (by rw [hsplit]; simp), hps], hmem⟩
    · unfold dependsOn
      rw [storeTask_get?, if_pos rfl]
      rfl
    · intro p hp
      obtain ⟨parent, hparent⟩ := hnew.depends_on p hp
      exact Dict.mem_keys_of_get? hparent

theorem newTask_grows {task : Task} (hnew : NewTask w task) : Grows w (storeTask w task) := by
  have hget : ∀ k t, w.tasks.get? k = some t → (storeTask w task).tasks.get? k = some t := by
    intro k t ht
    rw [storeTask_get?, if_neg, ht]
    rintro rfl
    rw [hnew.fresh] at ht
    cases ht
  refine ⟨rfl, ?_, ?_, fun _ _ hd => hd, ?_, fun _ b hb => ⟨b, hb, le_refl _⟩,
    fun _ c hc => ⟨c, hc, rfl, le_refl _⟩, fun _ _ hr => hr, fun _ h hh => ⟨h, hh, Or.inl rfl⟩⟩
  · have hkeys := congrArg List.length (storeTask_keys_new hnew.fresh)
    simp only [Dict.keys, List.length_map, List.length_append, List.length_singleton] at hkeys
    unfold Dict.size
    omega
  · exact fun k t ht => ⟨t, hget k t ht, rfl, rfl⟩
  · exact fun k t d ht hd => ⟨t, d, hget k t ht, hd, le_refl _⟩

end Tasks

variable [Sha256]

section Registration

variable {w : Workspace} {task : Task}

theorem newTask_shaped (hw : Shaped w) (hnew : NewTask w task) : Shaped (storeTask w task) where
  tasks := newTask_tasksKept hw.tasks hnew
  cases := hw.cases
  baselines := hw.baselines
  decisions := hw.decisions
  reports := hw.reports
  handoffs := hw.handoffs
  filed := hw.filed
  recent := hw.recent
  bundled := hw.bundled
  current := by
    intro t task' id ht hid
    rw [storeTask_get?] at ht
    split at ht
    · cases ht
      rw [hnew.undecided] at hid
      cases hid
    · exact hw.current t task' id ht hid

end Registration

section Decisions

variable {env : Environment} {actor : Actor} {seq : ℕ} {w m : Workspace} {task : Task}
  {explicit_review : Bool} {d : Decision} (h : Decides env actor seq w m task explicit_review d)
include h

/-- Every other task stays, and the decided one points to its decision. -/
theorem decides_task (k : Identifier) : m.tasks.get? k =
    if task.task_id = k then some (decidedTask w task d explicit_review) else w.tasks.get? k := by
  rw [h.stored]
  exact Dict.get?_set ..

theorem decides_keys : m.tasks.keys = w.tasks.keys := by
  rw [h.stored]
  exact Dict.keys_set_of_known (Dict.mem_keys_of_get? h.known)

theorem decides_decisions : m.decisions = w.decisions.set d.decision_id d := by
  rw [h.stored]
  rfl

theorem decides_tasks (k : Identifier) (t' : Task) (ht' : m.tasks.get? k = some t') :
    ∃ t, w.tasks.get? k = some t ∧ t'.task_id = t.task_id ∧ t'.depends_on = t.depends_on ∧
      t'.intent = t.intent := by
  rw [decides_task h] at ht'
  split at ht'
  · rename_i hk
    subst hk
    cases ht'
    exact ⟨task, h.known, rfl, rfl, rfl⟩
  · exact ⟨t', ht', rfl, rfl, rfl⟩

theorem decides_artifacts : Refiled w.artifacts m.artifacts := by
  have hart : m.artifacts = if d.verdict = .ready then w.artifacts
      else w.artifacts.set (escalationKey task.task_id d.decision_id)
        (.escalation (escalation d)) := by
    rw [h.stored]
    rfl
  rw [hart]
  split
  · exact .refl
  · refine .single ?_ trivial
    change escalationKey task.task_id d.decision_id = escalationKey d.task_id d.decision_id
    rw [h.judged.task_id]

variable (hfresh : w.decisions.get? (env.fresh "decision") = none)
include hfresh

theorem decides_kept {k : Identifier} {d' : Decision} (hd : w.decisions.get? k = some d') :
    m.decisions.get? k = some d' := by
  rw [decides_decisions h, Dict.get?_set_of_ne, hd]
  rw [h.decision_id]
  rintro rfl
  rw [hfresh] at hd
  cases hd

theorem decides_shaped [CollisionFree] (hw : Shaped w) : Shaped m where
  tasks := by
    refine tasksKept_of_keys hw.tasks (decides_keys h) ?_
    intro k t' ht'
    obtain ⟨t, ht, hid, hdeps, _⟩ := decides_tasks h k t' ht'
    exact ⟨t, ht, hid, hdeps⟩
  cases := by
    rw [h.stored]
    exact hw.cases
  baselines := by
    rw [h.stored]
    exact hw.baselines
  decisions := by
    intro k d' hd
    rw [decides_decisions h, Dict.get?_set] at hd
    split at hd
    · rename_i hk
      cases hd
      refine ⟨hk, ?_⟩
      rw [← hk, h.decision_id]
      intro hempty
      have hlen := congrArg String.length hempty
      simp [Environment.fresh, newId, String.length_append] at hlen
    · exact hw.decisions k d' hd
  reports := by
    rw [h.stored]
    exact hw.reports
  handoffs := by
    rw [h.stored]
    exact hw.handoffs
  filed := (decides_artifacts h).filed hw.filed
  recent := refiled_recent (decides_artifacts h) hw.filed hw.recent
  bundled := by
    intro key b hb
    obtain ⟨r, hr⟩ := hw.bundled key b (((decides_artifacts h).bundle_iff hw.filed).mp hb)
    exact ⟨r, by rw [h.stored]; exact hr⟩
  current := by
    intro t task' id ht hid
    rw [decides_task h] at ht
    split at ht
    · rename_i hk
      cases ht
      cases hid
      refine ⟨d, ?_, by rw [h.judged.task_id, hk]⟩
      rw [decides_decisions h]
      exact Dict.get?_set_self ..
    · obtain ⟨d', hd', htask⟩ := hw.current t task' id ht hid
      exact ⟨d', decides_kept h hfresh hd', htask⟩

omit hfresh in
theorem decides_current : currentDecision m (decidedTask w task d explicit_review) = some d := by
  unfold currentDecision
  rw [decides_decisions h]
  exact Dict.get?_set_self ..

theorem decides_grows (hstamped : Stamped seq w) : Grows w m where
  tenant := by
    rw [h.stored]
    rfl
  size := by
    have hkeys := congrArg List.length (decides_keys h)
    simp only [Dict.keys, List.length_map] at hkeys
    unfold Dict.size
    omega
  tasks := by
    intro k t ht
    rw [decides_task h]
    split
    · rename_i hk
      subst hk
      rw [h.known] at ht
      cases ht
      exact ⟨_, rfl, rfl, rfl⟩
    · exact ⟨t, ht, rfl, rfl⟩
  decisions := fun _ _ hd => decides_kept h hfresh hd
  current := by
    intro k t d' ht hd
    rw [decides_task h]
    split
    · refine ⟨_, d, rfl, decides_current h, ?_⟩
      rw [h.stamp]
      exact hstamped.decisions _ d' hd
    · exact ⟨t, d', ht, decides_kept h hfresh hd, le_refl _⟩
  baselines := by
    rw [h.stored]
    exact fun _ b hb => ⟨b, hb, le_refl _⟩
  cases := by
    rw [h.stored]
    exact fun _ c hc => ⟨c, hc, rfl, le_refl _⟩
  reports := by
    rw [h.stored]
    exact fun _ _ hr => hr
  handoffs := by
    rw [h.stored]
    exact fun _ hd hh => ⟨hd, hh, Or.inl rfl⟩

omit hfresh in
theorem decides_stamped (hstamped : Stamped seq w) : Stamped seq m := by
  refine ⟨?_, ?_, ?_⟩
  · rw [h.stored]
    exact hstamped.baselines
  · rw [h.stored]
    exact hstamped.cases
  · intro k d' hd
    rw [decides_decisions h, Dict.get?_set] at hd
    split at hd
    · cases hd
      exact h.stamp.le
    · exact hstamped.decisions k d' hd

end Decisions

section Disturbances

variable {w m : Workspace} {scope : Scope} (h : Disturbs w m scope)
include h

theorem disturbs_task {k : Identifier} {t' : Task} (ht' : m.tasks.get? k = some t') :
    ∃ t, w.tasks.get? k = some t ∧
      ((¬ Touches w k scope ∧ t' = t) ∨ (Touches w k scope ∧ Suspends t t')) := by
  have hmem : k ∈ w.tasks.keys := h.keys ▸ Dict.mem_keys_of_get? ht'
  obtain ⟨t, ht⟩ := Dict.exists_get?_of_mem_keys hmem
  refine ⟨t, ht, ?_⟩
  by_cases htouch : Touches w k scope
  · obtain ⟨t1, ht1, hs⟩ := h.reached k t htouch ht
    rw [ht'] at ht1
    cases ht1
    exact Or.inr ⟨htouch, hs⟩
  · rw [h.beyond k htouch, ht] at ht'
    cases ht'
    exact Or.inl ⟨htouch, rfl⟩

theorem disturbs_get {k : Identifier} {t : Task} (ht : w.tasks.get? k = some t) :
    ∃ t', m.tasks.get? k = some t' ∧ t'.intent = t.intent ∧ t'.depends_on = t.depends_on ∧
      t'.current_decision_id = t.current_decision_id := by
  by_cases htouch : Touches w k scope
  · obtain ⟨t', ht', hs⟩ := h.reached k t htouch ht
    exact ⟨t', ht', hs.intent, hs.depends_on, hs.current⟩
  · exact ⟨t, by rw [h.beyond k htouch, ht], rfl, rfl, rfl⟩

theorem disturbs_shaped (hw : Shaped w)
    (hcases : ∀ k c, m.cases.get? k = some c → c.case_id = k)
    (hbaselines : ∀ k b, m.baselines.get? k = some b → k = scopeKey b.scope)
    (hfiled : Filed m.artifacts) (hrecent : ∀ a ∈ m.artifacts.values, Recent a)
    (hbundles : ∀ key b, m.artifacts.get? key = some (.reportBundle b) →
      w.artifacts.get? key = some (.reportBundle b)) : Shaped m where
  tasks := by
    refine tasksKept_of_keys hw.tasks h.keys ?_
    intro k t' ht'
    obtain ⟨t, ht, ⟨_, rfl⟩ | ⟨_, hs⟩⟩ := disturbs_task h ht'
    · exact ⟨t', ht, rfl, rfl⟩
    · exact ⟨t, ht, hs.task_id, hs.depends_on⟩
  cases := hcases
  baselines := hbaselines
  decisions := h.decisions ▸ hw.decisions
  reports := h.reports ▸ hw.reports
  handoffs := h.handoffs ▸ hw.handoffs
  filed := hfiled
  recent := hrecent
  bundled := by
    intro key b hb
    rw [h.reports]
    exact hw.bundled key b (hbundles key b hb)
  current := by
    intro k t' id ht' hid
    rw [h.decisions]
    obtain ⟨t, ht, ⟨_, rfl⟩ | ⟨_, hs⟩⟩ := disturbs_task h ht'
    · exact hw.current k t' id ht hid
    · exact hw.current k t id ht (hs.current ▸ hid)

theorem disturbs_grows
    (hbaselines : ∀ k b, w.baselines.get? k = some b →
      ∃ b', m.baselines.get? k = some b' ∧ b.event_seq ≤ b'.event_seq)
    (hcases : ∀ k c, w.cases.get? k = some c → ∃ c', m.cases.get? k = some c' ∧
      c'.scope = c.scope ∧ caseStamp c ≤ caseStamp c') : Grows w m where
  tenant := h.tenant
  size := by
    have hkeys := congrArg List.length h.keys
    simp only [Dict.keys, List.length_map] at hkeys
    unfold Dict.size
    omega
  tasks := by
    intro k t ht
    obtain ⟨t', ht', hintent, hdeps, _⟩ := disturbs_get h ht
    exact ⟨t', ht', hintent, hdeps⟩
  decisions := by
    rw [h.decisions]
    exact fun _ _ hd => hd
  current := by
    intro k t d ht hd
    obtain ⟨t', ht', _, _, hcurrent⟩ := disturbs_get h ht
    refine ⟨t', d, ht', ?_, le_refl _⟩
    rw [currentDecision_congr h.decisions]
    unfold currentDecision
    rw [hcurrent]
    exact hd
  baselines := hbaselines
  cases := hcases
  reports := by
    rw [h.reports]
    exact fun _ _ hr => hr
  handoffs := by
    rw [h.handoffs]
    exact fun _ hd hh => ⟨hd, hh, Or.inl rfl⟩

end Disturbances

section Baselines

variable {w m : Workspace} {scope : Scope} {b : Baseline} {seq : ℕ}
  (h : SetsBaseline seq scope w m b)
include h

theorem setsBaseline_get? (k : Digest) : m.baselines.get? k =
    if scopeKey scope = k then some b else w.baselines.get? k := by
  rw [h.baselines, Dict.get?_set]

theorem setsBaseline_shaped (hw : Shaped w) : Shaped m := by
  refine disturbs_shaped h.disturbs hw ?_ ?_ ?_ ?_ ?_
  · rw [h.cases]
    exact hw.cases
  · intro k b' hb
    rw [setsBaseline_get? h] at hb
    split at hb
    · cases hb
      rw [h.about]
      exact Eq.symm (by assumption)
    · exact hw.baselines k b' hb
  · rw [h.artifacts]
    exact hw.filed
  · rw [h.artifacts]
    exact hw.recent
  · rw [h.artifacts]
    exact fun _ _ hb => hb

theorem setsBaseline_grows (hstamped : Stamped seq w) : Grows w m := by
  refine disturbs_grows h.disturbs ?_ ?_
  · intro k b' hb
    rw [setsBaseline_get? h]
    split
    · refine ⟨b, rfl, ?_⟩
      rw [h.stamp]
      exact hstamped.baselines k b' hb
    · exact ⟨b', hb, le_refl _⟩
  · rw [h.cases]
    exact fun _ c hc => ⟨c, hc, rfl, le_refl _⟩

theorem setsBaseline_stamped (hstamped : Stamped seq w) : Stamped seq m := by
  refine ⟨?_, ?_, ?_⟩
  · intro k b' hb
    rw [setsBaseline_get? h] at hb
    split at hb
    · cases hb
      exact h.stamp.le
    · exact hstamped.baselines k b' hb
  · rw [h.cases]
    exact hstamped.cases
  · rw [h.disturbs.decisions]
    exact hstamped.decisions

end Baselines

section Cases

variable {w m : Workspace} {c : RiskCase} {start : Dict String Artifact} {seq : ℕ}
  (h : WritesCase w m c start)
include h

theorem writesCase_get? (k : Identifier) : m.cases.get? k =
    if c.case_id = k then some c else w.cases.get? k := by
  rw [h.cases, Dict.get?_set]

theorem writesCase_shaped [CollisionFree] (hw : Shaped w) (hfiled : Filed start)
    (hbundles : ∀ key b, start.get? key = some (.reportBundle b) →
      w.artifacts.get? key = some (.reportBundle b)) : Shaped m := by
  have hback : ∀ key b, m.artifacts.get? key = some (.reportBundle b) →
      w.artifacts.get? key = some (.reportBundle b) :=
    fun key b hb => hbundles key b ((h.artifacts.bundle_iff hfiled).mp hb)
  refine disturbs_shaped h.disturbs hw ?_ ?_ (h.artifacts.filed hfiled)
    (recent_of_bundles hw.recent hback) hback
  · intro k c' hc
    rw [writesCase_get? h] at hc
    split at hc
    · cases hc
      assumption
    · exact hw.cases k c' hc
  · rw [h.baselines]
    exact hw.baselines

theorem writesCase_grows
    (hold : ∀ old, w.cases.get? c.case_id = some old →
      c.scope = old.scope ∧ caseStamp old ≤ caseStamp c) : Grows w m := by
  refine disturbs_grows h.disturbs ?_ ?_
  · rw [h.baselines]
    exact fun _ b hb => ⟨b, hb, le_refl _⟩
  · intro k c' hc
    rw [writesCase_get? h]
    split
    · rename_i hk
      subst hk
      exact ⟨c, rfl, hold c' hc⟩
    · exact ⟨c', hc, rfl, le_refl _⟩

theorem writesCase_stamped (hstamped : Stamped seq w) (hstamp : caseStamp c ≤ seq) :
    Stamped seq m := by
  refine ⟨?_, ?_, ?_⟩
  · rw [h.baselines]
    exact hstamped.baselines
  · intro k c' hc
    rw [writesCase_get? h] at hc
    split at hc
    · cases hc
      exact hstamp
    · exact hstamped.cases k c' hc
  · rw [h.disturbs.decisions]
    exact hstamped.decisions

end Cases

section Stamps

variable {w : Workspace} {seq : ℕ}

omit [Sha256] in
theorem caseStamp_reopened (old : RiskCase) (actor_id : Identifier) (evidence_digest : Digest) :
    caseStamp (reopened old actor_id seq evidence_digest) = seq := by
  simp [caseStamp, reopened]

omit [Sha256] in
theorem caseStamp_resolved (old : RiskCase) (resolution : Resolution) (actor_id : Identifier)
    (hold : caseStamp old ≤ seq) :
    caseStamp (resolvedCase old resolution actor_id seq) = seq := by
  have hle : old.opened_seq ≤ seq := le_trans (le_max_left _ _) hold
  simp [caseStamp, resolvedCase, hle]

theorem linked_bundles [CollisionFree] {case_id : Identifier} {version : ℕ}
    {start : Dict String Artifact} (hl : Linked w case_id version seq start) (hw : Shaped w)
    {key : String} {b : ReportBundle} :
    start.get? key = some (.reportBundle b) ↔ w.artifacts.get? key = some (.reportBundle b) := by
  rcases hl with rfl | ⟨p, hcase, hversion, _, rfl⟩
  · rfl
  · refine bundle_set_iff hw.filed ?_ (by simp [drawer])
    change _ = resolutionLinkKey p.case_id p.case_version
    rw [hcase, hversion]

end Stamps

end MemoryGuard.Lifecycle
