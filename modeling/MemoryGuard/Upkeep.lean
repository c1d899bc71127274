import MemoryGuard.Growth

/-!
The shape that every command keeps: records are stored under their own
identifiers, artifacts are filed where they belong, a task points to a decision
of its own, and nothing is stamped with an event that has not happened yet.
-/
namespace MemoryGuard.Upkeep

open OrderedDict Guarded DependencyGraph JsonText ContentHash Models Artifacts Aggregate Core
open Closure Policy SourceModels SourceState SourceGuard SourceService Transactions TaskCommands
open CaseCommands SourceCommands Calls Floors Filing EvidenceEffects TaskEffects CaseEffects
open Effects Growth

variable [Sha256]

/-- What does not depend on the revision. -/
structure Shaped (w : Workspace) : Prop where
  tasks : TasksKept w
  cases : ∀ k c, w.cases.get? k = some c → c.case_id = k
  baselines : ∀ k b, w.baselines.get? k = some b → k = scopeKey b.scope
  decisions : ∀ k d, w.decisions.get? k = some d → d.decision_id = k ∧ k ≠ ""
  reports : ∀ k r, w.reports.get? k = some r → r.report_id = k
  handoffs : ∀ k h, w.handoffs.get? k = some h → h.handoff_id = k
  filed : Filed w.artifacts
  recent : ∀ a ∈ w.artifacts.values, Recent a
  bundled : ∀ key b, w.artifacts.get? key = some (.reportBundle b) →
    ∃ r, w.reports.get? b.report_id = some r
  current : ∀ t task id, w.tasks.get? t = some task → task.current_decision_id = some id →
    ∃ d, w.decisions.get? id = some d ∧ d.task_id = t

/-- Nothing is stamped later than event `n`. -/
structure Stamped (n : ℕ) (w : Workspace) : Prop where
  baselines : ∀ k b, w.baselines.get? k = some b → b.event_seq ≤ n
  cases : ∀ k c, w.cases.get? k = some c → caseStamp c ≤ n
  decisions : ∀ k d, w.decisions.get? k = some d → d.memory_revision ≤ n

structure Kept (w : Workspace) : Prop extends Shaped w where
  stamped : Stamped w.revision w
  requested : ∀ actor cmd q, w.artifacts.get? (fetchId actor cmd) = some (.request q) →
    ∃ e, w.idempotency.get? (idempotencyKey actor.actor_id cmd.idempotency_key) = some e

theorem Kept.archived {w : Workspace} (h : Kept w) : Archived w :=
  ⟨h.filed, h.recent, h.bundled, h.requested⟩

theorem kept_blank (tenant_id : Identifier) : Kept (sealed (Workspace.blank tenant_id)) where
  tasks := ⟨by simp [sealed, Workspace.blank], topological_nil⟩
  cases := by simp [sealed, Workspace.blank]
  baselines := by simp [sealed, Workspace.blank]
  decisions := by simp [sealed, Workspace.blank]
  reports := by simp [sealed, Workspace.blank]
  handoffs := by simp [sealed, Workspace.blank]
  filed := by simp [sealed, Workspace.blank, Filed]
  recent := by simp [sealed, Workspace.blank, Dict.values, Dict.empty]
  bundled := by simp [sealed, Workspace.blank]
  current := by simp [sealed, Workspace.blank]
  stamped := ⟨by simp [sealed, Workspace.blank], by simp [sealed, Workspace.blank],
    by simp [sealed, Workspace.blank]⟩
  requested := by simp [sealed, Workspace.blank]

omit [Sha256] in
theorem Stamped.mono {n n' : ℕ} {w : Workspace} (h : Stamped n w) (hle : n ≤ n') :
    Stamped n' w :=
  ⟨fun k b hb => (h.baselines k b hb).trans hle, fun k c hc => (h.cases k c hc).trans hle,
    fun k d hd => (h.decisions k d hd).trans hle⟩

section Quiet

variable {w m : Workspace}

omit [Sha256] in
theorem quiet_stamped {n : ℕ} (h : Quiet w m) (hw : Stamped n w) : Stamped n m :=
  ⟨h.baselines ▸ hw.baselines, h.cases ▸ hw.cases, h.decisions ▸ hw.decisions⟩

omit [Sha256] in
theorem tasksKept_congr (h : m.tasks = w.tasks) (hw : TasksKept w) : TasksKept m := by
  have hdeps : dependsOn m = dependsOn w := by
    unfold dependsOn
    rw [h]
  exact ⟨h ▸ hw.keyed, by rw [hdeps, h]; exact hw.ordered⟩

theorem quiet_shaped (h : Quiet w m) (hw : Shaped w)
    (hreports : ∀ k r, m.reports.get? k = some r → r.report_id = k)
    (hhandoffs : ∀ k h, m.handoffs.get? k = some h → h.handoff_id = k)
    (hfiled : Filed m.artifacts) (hrecent : ∀ a ∈ m.artifacts.values, Recent a)
    (hbundled : ∀ key b, m.artifacts.get? key = some (.reportBundle b) →
      ∃ r, m.reports.get? b.report_id = some r) : Shaped m where
  tasks := tasksKept_congr h.tasks hw.tasks
  cases := h.cases ▸ hw.cases
  baselines := h.baselines ▸ hw.baselines
  decisions := h.decisions ▸ hw.decisions
  reports := hreports
  handoffs := hhandoffs
  filed := hfiled
  recent := hrecent
  bundled := hbundled
  current := by
    rw [h.tasks, h.decisions]
    exact hw.current

omit [Sha256] in
theorem currentDecision_congr (h : m.decisions = w.decisions) (t : Task) :
    currentDecision m t = currentDecision w t := by
  unfold currentDecision
  rw [h]

omit [Sha256] in
theorem quiet_grows (h : Quiet w m)
    (hreports : ∀ k r, w.reports.get? k = some r → m.reports.get? k = some r)
    (hhandoffs : ∀ k h, w.handoffs.get? k = some h →
      ∃ h', m.handoffs.get? k = some h' ∧ Forwarded h h') : Grows w m where
  tenant := h.tenant
  size := by rw [h.tasks]
  tasks := by
    rw [h.tasks]
    exact fun _ t ht => ⟨t, ht, rfl, rfl⟩
  decisions := by
    rw [h.decisions]
    exact fun _ _ hd => hd
  current := by
    intro k t d ht hd
    exact ⟨t, d, by rw [h.tasks, ht], by rw [currentDecision_congr h.decisions, hd], le_refl _⟩
  baselines := by
    rw [h.baselines]
    exact fun _ b hb => ⟨b, hb, le_refl _⟩
  cases := by
    rw [h.cases]
    exact fun _ c hc => ⟨c, hc, rfl, le_refl _⟩
  reports := hreports
  handoffs := hhandoffs

end Quiet

section Evidence

variable [CollisionFree] {w m : Workspace}

theorem files_shaped (h : Files w m) (hw : Shaped w) : Shaped m := by
  refine quiet_shaped h.toQuiet hw ?_ ?_ (h.artifacts.filed hw.filed)
    (refiled_recent h.artifacts hw.filed hw.recent) ?_
  · rw [h.reports]
    exact hw.reports
  · rw [h.handoffs]
    exact hw.handoffs
  · intro key b hb
    rw [h.reports]
    exact hw.bundled key b ((h.artifacts.bundle_iff hw.filed).mp hb)

omit [CollisionFree] in
theorem files_grows (h : Files w m) : Grows w m := by
  refine quiet_grows h.toQuiet ?_ ?_
  · rw [h.reports]
    exact fun _ _ hr => hr
  · rw [h.handoffs]
    exact fun _ hd hh => ⟨hd, hh, Or.inl rfl⟩

/-- What a reservation files. -/
structure Reserved (w m : Workspace) (q : SourceRequest) (head : SourceHead)
    (mid : Dict String Artifact) : Prop where
  refiled : Refiled w.artifacts mid
  filed : Filed mid
  request : Fits q.request_id (.request q)
  requested : Filed (mid.set q.request_id (.request q))
  pointed : Fits (sourceKey q.case_id q.source_id) (.head head)
  new : ∀ p, mid.get? q.request_id ≠ some (.request p)
  artifacts : m.artifacts =
    (mid.set q.request_id (.request q)).set (sourceKey q.case_id q.source_id) (.head head)

omit [CollisionFree] in
theorem reserves_artifacts {actor : Actor} {cmd : Command} {q : SourceRequest} {head : SourceHead}
    (h : Reserves actor cmd w m q head) (hw : Shaped w) : ∃ mid, Reserved w m q head mid := by
  obtain ⟨mid, hmid, hnew, hm⟩ := h.artifacts
  have hfiled := hmid.filed hw.filed
  have hrequest : Fits q.request_id (.request q) :=
    ⟨rfl, h.request_id ▸ fetchId_named actor cmd⟩
  refine ⟨mid, hmid, hfiled, hrequest, hfiled.set hrequest, ?_, hnew, hm⟩
  change _ = sourceKey head.case_id head.source_id
  rw [h.case_id, h.source_id]

theorem Reserved.bundle_iff {q : SourceRequest} {head : SourceHead} {mid : Dict String Artifact}
    (h : Reserved w m q head mid) (hw : Shaped w) {key : String} {b : ReportBundle} :
    m.artifacts.get? key = some (.reportBundle b) ↔
      w.artifacts.get? key = some (.reportBundle b) := by
  rw [h.artifacts, bundle_set_iff h.requested h.pointed (by simp [drawer]),
    bundle_set_iff h.filed h.request (by simp [drawer]), h.refiled.bundle_iff hw.filed]

omit [Sha256] [CollisionFree] in
theorem recent_of_bundles (hw : ∀ a ∈ w.artifacts.values, Recent a)
    (h : ∀ key b, m.artifacts.get? key = some (.reportBundle b) →
      w.artifacts.get? key = some (.reportBundle b)) : ∀ a ∈ m.artifacts.values, Recent a := by
  intro a ha
  obtain ⟨key, hkey⟩ := Dict.exists_get?_of_mem_values ha
  cases a with
  | reportBundle b => exact hw _ (Dict.mem_values_of_get? (h key b hkey))
  | _ => trivial

theorem reserves_shaped {actor : Actor} {cmd : Command} {q : SourceRequest} {head : SourceHead}
    (h : Reserves actor cmd w m q head) (hw : Shaped w) : Shaped m := by
  obtain ⟨mid, hr⟩ := reserves_artifacts h hw
  refine quiet_shaped h.toQuiet hw ?_ ?_ ?_
    (recent_of_bundles hw.recent (fun key b => (hr.bundle_iff hw).mp)) ?_
  · rw [h.reports]
    exact hw.reports
  · rw [h.handoffs]
    exact hw.handoffs
  · rw [hr.artifacts]
    exact hr.requested.set hr.pointed
  · intro key b hb
    rw [h.reports]
    exact hw.bundled key b ((hr.bundle_iff hw).mp hb)

omit [CollisionFree] in
theorem reserves_grows {actor : Actor} {cmd : Command} {q : SourceRequest} {head : SourceHead}
    (h : Reserves actor cmd w m q head) : Grows w m := by
  refine quiet_grows h.toQuiet ?_ ?_
  · rw [h.reports]
    exact fun _ _ hr => hr
  · rw [h.handoffs]
    exact fun _ hd hh => ⟨hd, hh, Or.inl rfl⟩

/-- The bundle of a new report has a key of its own. -/
theorem bundle_fresh (hw : Shaped w) {r : Report} (hfresh : w.reports.get? r.report_id = none)
    {mid : Dict String Artifact} (hmid : Refiled w.artifacts mid) :
    mid.get? (reportSourcesKey r.report_id) = none := by
  cases hget : mid.get? (reportSourcesKey r.report_id) with
  | none => rfl
  | some a =>
    have hfits := hmid.filed hw.filed _ _ hget
    have hdrawer : drawer a = .hashed "report-sources-key" :=
      inDrawer_unique (drawer_plain a) trivial hfits.inDrawer ⟨_, rfl⟩
    cases a with
    | reportBundle b =>
      have hkey : reportSourcesKey r.report_id = reportSourcesKey b.report_id := hfits
      simp only [reportSourcesKey, digest_inj, Json.str.injEq, true_and] at hkey
      obtain ⟨r', hr'⟩ := hw.bundled _ _ ((hmid.bundle_iff hw.filed).mp hget)
      rw [← hkey, hfresh] at hr'
      cases hr'
    | _ => simp [drawer] at hdrawer

/-- A bundle after an investigation was there before, or it is the report's own. -/
theorem investigates_bundle {r : Report} {external : Option EvidenceContext}
    (h : Investigates w m r external) (hw : Filed w.artifacts) {key : String} {b : ReportBundle}
    (hb : m.artifacts.get? key = some (.reportBundle b)) :
    w.artifacts.get? key = some (.reportBundle b) ∨
      ∃ context ∈ external, b = bundleOf r context := by
  obtain ⟨mid, hmid, hm⟩ := h.artifacts
  rw [hm] at hb
  cases external with
  | none => exact Or.inl ((hmid.bundle_iff hw).mp hb)
  | some context =>
    simp only [Dict.get?_set] at hb
    split at hb
    · cases hb
      exact Or.inr ⟨context, rfl, rfl⟩
    · exact Or.inl ((hmid.bundle_iff hw).mp hb)

theorem investigates_shaped {r : Report} {external : Option EvidenceContext}
    (h : Investigates w m r external) (hw : Shaped w) : Shaped m := by
  obtain ⟨mid, hmid, hm⟩ := h.artifacts
  have hfiled := hmid.filed hw.filed
  have hkept : ∀ k r', w.reports.get? k = some r' → m.reports.get? k = some r' := by
    intro k r' hr'
    rw [h.reports, Dict.get?_set_of_ne, hr']
    rintro rfl
    rw [h.fresh] at hr'
    cases hr'
  refine quiet_shaped h.toQuiet hw ?_ ?_ ?_ ?_ ?_
  · intro k r' hr'
    rw [h.reports, Dict.get?_set] at hr'
    split at hr'
    · cases hr'
      assumption
    · exact hw.reports k r' hr'
  · rw [h.handoffs]
    exact hw.handoffs
  · rw [hm]
    cases external with
    | none => exact hfiled
    | some context => exact hfiled.set rfl
  · intro a ha
    obtain ⟨key, hkey⟩ := Dict.exists_get?_of_mem_values ha
    cases a with
    | reportBundle b =>
      rcases investigates_bundle h hw.filed hkey with hb | ⟨context, hcontext, rfl⟩
      · exact hw.recent _ (Dict.mem_values_of_get? hb)
      · exact h.recorded context hcontext
    | _ => trivial
  · intro key b hb
    rcases investigates_bundle h hw.filed hb with hb | ⟨context, _, rfl⟩
    · obtain ⟨r', hr'⟩ := hw.bundled key b hb
      exact ⟨r', hkept _ _ hr'⟩
    · exact ⟨r, by rw [h.reports]; exact Dict.get?_set_self ..⟩

omit [CollisionFree] in
theorem investigates_grows {r : Report} {external : Option EvidenceContext}
    (h : Investigates w m r external) : Grows w m := by
  refine quiet_grows h.toQuiet ?_ ?_
  · intro k r' hr'
    rw [h.reports, Dict.get?_set_of_ne, hr']
    rintro rfl
    rw [h.fresh] at hr'
    cases hr'
  · rw [h.handoffs]
    exact fun _ hd hh => ⟨hd, hh, Or.inl rfl⟩

end Evidence

section Handoffs

variable {w m : Workspace} {h : Handoff}

theorem handsOff_shaped (hm : HandsOff w m h) (hw : Shaped w) : Shaped m := by
  refine quiet_shaped hm.toQuiet hw ?_ ?_ ?_ ?_ ?_
  · rw [hm.reports]
    exact hw.reports
  · intro k h' hh
    rw [hm.handoffs, Dict.get?_set] at hh
    split at hh
    · cases hh
      assumption
    · exact hw.handoffs k h' hh
  · rw [hm.artifacts]
    exact hw.filed
  · rw [hm.artifacts]
    exact hw.recent
  · rw [hm.artifacts, hm.reports]
    exact hw.bundled

omit [Sha256] in
theorem handsOff_grows (hm : HandsOff w m h) : Grows w m := by
  refine quiet_grows hm.toQuiet ?_ ?_
  · rw [hm.reports]
    exact fun _ _ hr => hr
  · intro k h' hh
    refine ⟨h', ?_, Or.inl rfl⟩
    rw [hm.handoffs, Dict.get?_set_of_ne, hh]
    rintro rfl
    rw [hm.fresh] at hh
    cases hh

theorem accepts_shaped {handoff_id : Identifier} (hm : Accepts w m handoff_id h)
    (hw : Shaped w) : Shaped m := by
  refine quiet_shaped hm.toQuiet hw ?_ ?_ ?_ ?_ ?_
  · rw [hm.reports]
    exact hw.reports
  · intro k h' hh
    rw [hm.handoffs, Dict.get?_set] at hh
    split at hh
    · rename_i hk
      cases hh
      exact (hw.handoffs _ _ hm.known).trans hk
    · exact hw.handoffs k h' hh
  · rw [hm.artifacts]
    exact hw.filed
  · rw [hm.artifacts]
    exact hw.recent
  · rw [hm.artifacts, hm.reports]
    exact hw.bundled

omit [Sha256] in
theorem accepts_grows {handoff_id : Identifier} (hm : Accepts w m handoff_id h) : Grows w m := by
  refine quiet_grows hm.toQuiet ?_ ?_
  · rw [hm.reports]
    exact fun _ _ hr => hr
  · intro k h' hh
    rw [hm.handoffs, Dict.get?_set]
    split
    · rename_i hk
      subst hk
      rw [hm.known] at hh
      cases hh
      exact ⟨_, rfl, Or.inr rfl⟩
    · exact ⟨h', hh, Or.inl rfl⟩

end Handoffs

end MemoryGuard.Upkeep
