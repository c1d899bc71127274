import MemoryGuard.TaskEffects

/-!
What opening, reopening and resolving a case leave behind. Each writes one case
record, disturbs the scope of that case and raises its policy guard; only a
resolution also files a link to its review.
-/
namespace MemoryGuard.CaseEffects

open OrderedDict Guarded DependencyGraph JsonText ContentHash Models Artifacts Aggregate Core
open Closure SourceModels SourceState SourceGuard SourceService Transactions TaskCommands
open CaseCommands PartnerCommands Calls Floors Filing EvidenceEffects TaskEffects

variable [Sha256] {w m : Workspace} {seq : ℕ} {result : Result} {svc : Service}
  {env : Environment} {actor : Actor}

section Raising

/-- A case record is written, its scope disturbed, and what is filed is filed
by ordinary writes over `start`. -/
structure WritesCase (w m : Workspace) (c : RiskCase) (start : Dict String Artifact) : Prop where
  cases : m.cases = w.cases.set c.case_id c
  baselines : m.baselines = w.baselines
  artifacts : Refiled start m.artifacts
  disturbs : Disturbs w m c.scope

/-- A case record ends its history. -/
structure LogsCase (w m : Workspace) (c : RiskCase) (past : List RiskCase) : Prop where
  case_history : m.case_history = w.case_history.set c.case_id (past ++ [c])
  baseline_history : m.baseline_history = w.baseline_history

theorem openRisk_writes [CollisionFree] {case : RiskCase} {reason : String}
    {affected : List Identifier} (ha : Archived w)
    (h : openRisk svc w case reason = .ok (m, affected)) :
    affected = affectedTasks w case.scope ∧ LogsCase w m case [] ∧ m.lessons = w.lessons ∧
      WritesCase w m case w.artifacts := by
  simp only [openRisk, bind_eq_ok] at h
  obtain ⟨w1, hremember, h⟩ := h
  obtain ⟨artifacts, hrefiled, rfl⟩ := refiled_of_deskRemembers (w := recordCase w case [])
    ha.filed ha.recent hremember
  simp only [pure_eq_ok] at h
  have hdisturbs := invalidate_disturbs (w := w) case.scope (caseRef case.case_id case.version) reason
    (show (refile (recordCase w case []) artifacts).tasks = w.tasks from rfl) rfl rfl rfl rfl
  rw [h] at hdisturbs
  obtain ⟨hm, _⟩ := Prod.mk.inj h
  refine ⟨hdisturbs.2, ?_, ?_, ?_, ?_, ?_, hdisturbs.1⟩
  · rw [← hm]
    exact ⟨rfl, rfl⟩
  · rw [← hm]
    rfl
  · rw [← hm]
    rfl
  · rw [← hm]
    rfl
  · rw [← hm]
    exact hrefiled

/-- A case is opened. -/
structure OpensCase (seq : ℕ) (w m : Workspace) (c : RiskCase) : Prop where
  fresh : w.cases.get? c.case_id = none
  opened : c.status = .opened
  version : c.version = 1
  stamp : c.opened_seq = seq
  unresolved : c.resolved_seq = none
  logs : LogsCase w m c []
  lessons : m.lessons = w.lessons
  writes : WritesCase w m c w.artifacts

theorem openCaseChange_effect [CollisionFree] {scope : Scope} {kind : RiskKind}
    {evidence_digest : Digest} (ha : Archived w)
    (hfresh : w.cases.get? (env.fresh "case") = none)
    (h : openCaseChange svc env actor scope kind evidence_digest w seq = .ok (m, result)) :
    result.affected_tasks = affectedTasks w scope ∧
      OpensCase seq w m (newCase env actor scope kind evidence_digest seq) := by
  simp only [openCaseChange, bind_eq_ok, pure_eq_ok, Prod.mk.injEq] at h
  obtain ⟨_, _, ⟨m', affected⟩, hopen, rfl, rfl⟩ := h
  obtain ⟨haffected, hlogs, hlessons, hwrites⟩ := openRisk_writes ha hopen
  exact ⟨haffected, hfresh, rfl, rfl, rfl, rfl, hlogs, hlessons, hwrites⟩

/-- The tasks that a new risk reaches are suspended under its name. -/
theorem openRisk_tasks [CollisionFree] {case : RiskCase} {reason : String}
    {affected : List Identifier} (ha : Archived w)
    (h : openRisk svc w case reason = .ok (m, affected)) :
    m.tasks = w.tasks.adjust (affectedTasks w case.scope)
      (taint (caseRef case.case_id case.version) reason) := by
  simp only [openRisk, bind_eq_ok] at h
  obtain ⟨w1, hremember, h⟩ := h
  obtain ⟨artifacts, _, rfl⟩ := refiled_of_deskRemembers (w := recordCase w case [])
    ha.filed ha.recent hremember
  simp only [pure_eq_ok] at h
  rw [← (Prod.mk.inj h).1]
  rfl

theorem ingestChange_effect [CollisionFree] {spec : SourceModels.IncidentSpec}
    {delivery : Delivery} (ha : Archived w) (hfresh : w.cases.get? (env.fresh "case") = none)
    (h : ingestChange svc env actor spec delivery w seq = .ok (m, result)) :
    result.affected_tasks = affectedTasks w spec.scope ∧
      m.tasks = w.tasks.adjust (affectedTasks w spec.scope)
        (taint (caseRef (env.fresh "case") 1) "SIGNED_INCIDENT") ∧
      OpensCase seq w m
        (newCase env actor spec.scope delivery.kind delivery.evidence_digest seq) := by
  simp only [ingestChange, bind_eq_ok, pure_eq_ok, Prod.mk.injEq] at h
  obtain ⟨_, _, ⟨m', affected⟩, hopen, rfl, rfl⟩ := h
  obtain ⟨haffected, hlogs, hlessons, hwrites⟩ := openRisk_writes ha hopen
  have htasks := openRisk_tasks ha hopen
  refine ⟨haffected, htasks, hfresh, rfl, rfl, rfl, rfl,
    ⟨hlogs.case_history, hlogs.baseline_history⟩, hlessons, hwrites.cases, hwrites.baselines, ?_, ?_⟩
  · exact hwrites.artifacts.set (k := env.fresh "incident") ⟨_, rfl⟩ trivial
  · exact ⟨hwrites.disturbs.tenant, hwrites.disturbs.keys, hwrites.disturbs.beyond,
      hwrites.disturbs.reached, hwrites.disturbs.decisions, hwrites.disturbs.reports,
      hwrites.disturbs.handoffs⟩

/-- A resolved case is reopened. -/
structure ReopensCase (seq : ℕ) (w m : Workspace) (case_id : Identifier) (old c : RiskCase) :
    Prop where
  known : w.cases.get? case_id = some old
  resolved : old.status = .resolved
  renewed : ∃ actor_id evidence_digest, c = reopened old actor_id seq evidence_digest
  logs : ∃ past, w.case_history.get? case_id = some past ∧ LogsCase w m c past
  lessons : m.lessons = w.lessons
  writes : WritesCase w m c w.artifacts

theorem reopenCaseChange_effect [CollisionFree] {case_id : Identifier} {evidence_digest : Digest}
    (ha : Archived w)
    (h : reopenCaseChange svc actor case_id evidence_digest w seq = .ok (m, result)) :
    ∃ old c, result.affected_tasks = affectedTasks w old.scope ∧
      ReopensCase seq w m case_id old c := by
  simp only [reopenCaseChange, bind_eq_ok, ensure_eq_ok] at h
  obtain ⟨old, hold, _, hresolved, history, hhistory, w1, hremember, h⟩ := h
  obtain ⟨artifacts, hrefiled, rfl⟩ := refiled_of_deskRemembers
    (w := recordCase w (reopened old actor.actor_id seq evidence_digest) history)
    ha.filed ha.recent hremember
  simp only [pure_eq_ok, Prod.mk.injEq] at h
  obtain ⟨rfl, rfl⟩ := h
  refine ⟨old, reopened old actor.actor_id seq evidence_digest, ?_, findCase_ok hold, hresolved,
    ⟨_, _, rfl⟩, ⟨history, fetch_eq_ok.mp hhistory, rfl, rfl⟩, rfl, rfl, rfl, hrefiled, ?_⟩
  · exact affectedTasks_congr rfl
  · refine (invalidate_disturbs (w := w) _ _ _ ?_ ?_ ?_ ?_ ?_).1 <;> rfl

end Raising

section Settling

/-- All that a settled task keeps, over everything but the tasks. -/
def Retasked (s s' : Workspace) : Prop := s' = { s with tasks := s'.tasks }

omit [Sha256] in
theorem Retasked.trans {s s' s'' : Workspace} (h : Retasked s s') (h' : Retasked s' s'') :
    Retasked s s'' := by
  unfold Retasked at *
  rw [h', h]

theorem settleTask_ok {token : String} {s s' : Workspace} {key : Identifier}
    (h : settleTask env token s key = .ok s') :
    Retasked s s' ∧ s'.tasks.keys = s.tasks.keys ∧
      (∀ k, k ≠ key → s'.tasks.get? k = s.tasks.get? k) ∧
      ∀ t, s.tasks.get? key = some t → ∃ t', s'.tasks.get? key = some t' ∧ Suspends t t' := by
  simp only [settleTask, bind_eq_ok, pure_eq_ok] at h
  obtain ⟨_, _, observed, _, rfl⟩ := h
  refine ⟨rfl, ?_, ?_, ?_⟩
  · simp only [Dict.keys_adjust]
  · intro k hk
    simp only [Dict.get?_adjust, List.mem_singleton, hk, if_false]
  · intro t ht
    simp only [Dict.get?_adjust, List.mem_singleton, if_true, ht, Option.map_some,
      Option.some.injEq, exists_eq_left']
    refine ⟨rfl, rfl, rfl, rfl, ?_, isEmpty_set⟩
    simp only
    split <;> simp

/-- The taint loop suspends the listed tasks and changes no other. -/
theorem settleTasks_ok {token : String} {l : List Identifier} {s s' : Workspace}
    (h : l.foldlM (settleTask env token) s = .ok s') :
    Retasked s s' ∧ s'.tasks.keys = s.tasks.keys ∧
      (∀ k, k ∉ l → s'.tasks.get? k = s.tasks.get? k) ∧
      ∀ k t, k ∈ l → s.tasks.get? k = some t →
        ∃ t', s'.tasks.get? k = some t' ∧ Suspends t t' := by
  induction l generalizing s with
  | nil =>
    simp only [List.foldlM_nil, pure_eq_ok] at h
    subst h
    exact ⟨rfl, rfl, fun _ _ => rfl, by simp⟩
  | cons key rest ih =>
    simp only [List.foldlM_cons, bind_eq_ok] at h
    obtain ⟨s1, hfirst, hrest⟩ := h
    obtain ⟨hre1, hkeys1, hother1, hkey1⟩ := settleTask_ok hfirst
    obtain ⟨hre2, hkeys2, hother2, hrest2⟩ := ih hrest
    refine ⟨hre1.trans hre2, hkeys2.trans hkeys1, ?_, ?_⟩
    · intro k hk
      simp only [List.mem_cons, not_or] at hk
      rw [hother2 k hk.2, hother1 k hk.1]
    · intro k t hk ht
      by_cases heq : k = key
      · subst heq
        obtain ⟨t1, ht1, hs1⟩ := hkey1 t ht
        by_cases hmem : k ∈ rest
        · obtain ⟨t2, ht2, hs2⟩ := hrest2 k t1 hmem ht1
          exact ⟨t2, ht2, hs1.trans hs2⟩
        · exact ⟨t1, by rw [hother2 k hmem, ht1], hs1⟩
      · have hmem : k ∈ rest := (List.mem_cons.mp hk).resolve_left heq
        exact hrest2 k t hmem (by rw [hother1 k heq, ht])

end Settling

section Resolving

/-- The link of a review to the task bases, where there is one. -/
def Linked (w : Workspace) (case_id : Identifier) (version seq : ℕ)
    (start : Dict String Artifact) : Prop :=
  start = w.artifacts ∨ ∃ p : ResolutionProof, p.case_id = case_id ∧ p.case_version = version ∧
    p.event_seq = seq ∧
    start = w.artifacts.set (resolutionLinkKey case_id version) (.resolutionProof p)

/-- A lesson of the resolution that a case record stands for. -/
structure Teaches (case_id : Identifier) (c : RiskCase) (l : Lesson) : Prop where
  case_id : l.case_id = case_id
  version : l.case_version = some c.version
  resolved : l.resolved_seq = c.resolved_seq
  scope : l.scope_key = scopeKey c.scope
  kind : l.kind = c.kind

/-- An open case is resolved after an accepted review of its current version. -/
structure ResolvesCase (svc : Service) (env : Environment) (actor : Actor) (seq : ℕ)
    (w m : Workspace) (case_id handoff_id : Identifier) (resolution : Resolution)
    (evidence_digest : Digest) (old : RiskCase) (handoff : Handoff) (report : Report) : Prop where
  known : w.cases.get? case_id = some old
  handedOff : w.handoffs.get? handoff_id = some handoff
  acknowledged : Acknowledged actor case_id old handoff
  stands : Stands svc env w old handoff.report_id report
  version : handoff.case_version = old.version
  evidence : ∀ desk, svc.evidence_desk = some desk →
    SourceService.resolution desk w old evidence_digest (env.clock .resolution) = .ok ()
  logs : ∃ past, w.case_history.get? case_id = some past ∧
    LogsCase w m (resolvedCase old resolution actor.actor_id seq) past
  lessons : ∃ lesson, m.lessons = w.lessons.set (env.fresh "lesson") lesson ∧
    Teaches case_id (resolvedCase old resolution actor.actor_id seq) lesson
  writes : ∃ start, Linked w old.case_id (old.version + 1) seq start ∧
    WritesCase w m (resolvedCase old resolution actor.actor_id seq) start

theorem linkResolution_ok (w : Workspace) (seq : ℕ) (actor : Actor) (case : RiskCase)
    (report : Report) (handoff_id : Identifier) (evidence_digest : Digest) :
    ∃ start, Linked w case.case_id case.version seq start ∧
      linkResolution actor w case report handoff_id evidence_digest seq = refile w start := by
  unfold linkResolution
  split
  · exact ⟨_, Or.inr ⟨_, rfl, rfl, rfl, rfl⟩, rfl⟩
  · exact ⟨_, Or.inl rfl, rfl⟩

omit [Sha256] in
theorem recent_set {d : Dict String Artifact} {key : String} {a : Artifact}
    (h : ∀ b ∈ d.values, Recent b) (ha : Recent a) : ∀ b ∈ (d.set key a).values, Recent b := by
  intro b hb
  obtain ⟨k, hk⟩ := Dict.exists_get?_of_mem_values hb
  rw [Dict.get?_set] at hk
  split at hk
  · cases hk
    exact ha
  · exact h b (Dict.mem_values_of_get? hk)

theorem Linked.filed {case_id : Identifier} {version : ℕ} {start : Dict String Artifact}
    (h : Linked w case_id version seq start) (hw : Filed w.artifacts) : Filed start := by
  rcases h with rfl | ⟨p, hcase, hversion, _, rfl⟩
  · exact hw
  · refine hw.set ?_
    change _ = resolutionLinkKey p.case_id p.case_version
    rw [hcase, hversion]

theorem Linked.recent {case_id : Identifier} {version : ℕ} {start : Dict String Artifact}
    (h : Linked w case_id version seq start) (hw : ∀ a ∈ w.artifacts.values, Recent a) :
    ∀ a ∈ start.values, Recent a := by
  rcases h with rfl | ⟨p, _, _, _, rfl⟩
  · exact hw
  · exact recent_set (a := .resolutionProof p) hw trivial

/-- The record, the guard and the taint loop of a resolution. -/
theorem settled_writes [CollisionFree] {start : Dict String Artifact} {c : RiskCase}
    {history : List RiskCase} {token : String} {w2 w3 : Workspace} (hfiled : Filed start)
    (hrecent : ∀ a ∈ start.values, Recent a)
    (hremember : deskRemembers svc.evidence_desk (recordCase (refile w start) c history) c [] =
      .ok w2)
    (hsettle : (affectedTasks w2 c.scope).foldlM (settleTask env token) w2 = .ok w3) :
    affectedTasks w2 c.scope = affectedTasks w c.scope ∧ w3.lessons = w.lessons ∧
      ∀ lessons, LogsCase w { w3 with lessons := lessons } c history ∧
        WritesCase w { w3 with lessons := lessons } c start := by
  obtain ⟨artifacts, hrefiled, rfl⟩ := refiled_of_deskRemembers
    (w := recordCase (refile w start) c history) hfiled hrecent hremember
  obtain ⟨hre, hkeys, hother, hreached⟩ := settleTasks_ok hsettle
  have haffected : affectedTasks (refile (recordCase (refile w start) c history) artifacts)
      c.scope = affectedTasks w c.scope := affectedTasks_congr rfl
  rw [haffected] at hother hreached
  rw [show w3 = _ from hre] at hkeys hother hreached ⊢
  refine ⟨haffected, rfl, fun lessons => ?_⟩
  refine ⟨⟨rfl, rfl⟩, rfl, rfl, hrefiled, rfl, hkeys, ?_, ?_, rfl, rfl, rfl⟩
  · exact fun k hk => hother k (fun hmem => hk (mem_affectedTasks.mp hmem))
  · exact fun k t hk ht => hreached k t (mem_affectedTasks.mpr hk) ht

theorem resolveChange_effect [CollisionFree] {case_id handoff_id : Identifier}
    {resolution : Resolution} {evidence_digest : Digest} (ha : Archived w)
    (h : resolveChange svc env actor case_id handoff_id resolution evidence_digest w seq =
      .ok (m, result)) :
    ∃ old handoff report, result.affected_tasks = affectedTasks w old.scope ∧
      ResolvesCase svc env actor seq w m case_id handoff_id resolution evidence_digest
        old handoff report := by
  simp only [resolveChange, bind_eq_ok, fetch_eq_ok, ensure_eq_ok] at h
  obtain ⟨old, hold, handoff, hhandoff, _, hack, report, hreport, _, hversion, h⟩ := h
  have hstands := validReport_ok hreport
  obtain ⟨start, hlinked, hlink⟩ := linkResolution_ok w seq actor
    (resolvedCase old resolution actor.actor_id seq) report handoff.handoff_id evidence_digest
  rw [hlink] at h
  have hdone : ∀ history w2 w3 lesson, w.case_history.get? case_id = some history →
      deskRemembers svc.evidence_desk (recordCase (refile w start)
        (resolvedCase old resolution actor.actor_id seq) history)
        (resolvedCase old resolution actor.actor_id seq) [] = .ok w2 →
      (affectedTasks w2 old.scope).foldlM
        (settleTask env (resolutionRef case_id (old.version + 1))) w2 = .ok w3 →
      { w3 with lessons := w3.lessons.set (env.fresh "lesson") lesson } = m →
      Teaches case_id (resolvedCase old resolution actor.actor_id seq) lesson →
      result.affected_tasks = affectedTasks w2 old.scope →
      (∀ desk, svc.evidence_desk = some desk →
        SourceService.resolution desk w old evidence_digest (env.clock .resolution) = .ok ()) →
      ∃ old handoff report, result.affected_tasks = affectedTasks w old.scope ∧
        ResolvesCase svc env actor seq w m case_id handoff_id resolution evidence_digest
          old handoff report := by
    rintro history w2 w3 lesson hhistory hremember hsettle rfl hteaches hresult hevidence
    obtain ⟨haffected, hlessons, hwrites⟩ := settled_writes (w := w)
      (c := resolvedCase old resolution actor.actor_id seq) (hlinked.filed ha.filed)
      (hlinked.recent ha.recent) hremember hsettle
    exact ⟨old, handoff, report, hresult.trans haffected, findCase_ok hold, hhandoff, hack,
      hstands, hversion, hevidence, ⟨history, hhistory, (hwrites _).1⟩,
      ⟨lesson, by rw [hlessons], hteaches⟩, start, hlinked, (hwrites _).2⟩
  split at h
  · rename_i hdesk
    simp only [bind_eq_ok, pure_eq_ok, Prod.mk.injEq] at h
    obtain ⟨history, hhistory, w2, hremember, w3, hsettle, hm, rfl⟩ := h
    exact hdone history w2 w3 _ (fetch_eq_ok.mp hhistory) hremember hsettle hm
      ⟨rfl, rfl, rfl, rfl, rfl⟩ rfl (by simp [hdesk])
  · rename_i desk hdesk
    simp only [bind_eq_ok, pure_eq_ok, Prod.mk.injEq] at h
    obtain ⟨_, hevidence, history, hhistory, w2, hremember, w3, hsettle, hm, rfl⟩ := h
    refine hdone history w2 w3 _ (fetch_eq_ok.mp hhistory) hremember hsettle hm
      ⟨rfl, rfl, rfl, rfl, rfl⟩ rfl ?_
    intro d hd
    rw [hdesk] at hd
    cases hd
    exact hevidence

end Resolving

end MemoryGuard.CaseEffects
