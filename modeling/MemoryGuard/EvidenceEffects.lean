import MemoryGuard.Filing

/-!
What the commands that judge nothing leave behind. All of them keep tasks,
decisions, baselines and cases as they are. Most only file by ordinary writes;
a reservation points the head of a source to a new request, and an
investigation adds a report together with the evidence it inspected.
-/
namespace MemoryGuard.EvidenceEffects

open OrderedDict Guarded DependencyGraph JsonText ContentHash Models Artifacts Aggregate Core
open SourceModels SourceState SourceGuard SourceService Transactions TaskCommands CaseCommands
open SourceCommands PartnerCommands Calls Floors Filing

variable [Sha256]

/-- What later reservations and investigations rely on. -/
structure Archived (w : Workspace) : Prop where
  filed : Filed w.artifacts
  recent : ∀ a ∈ w.artifacts.values, Recent a
  bundled : ∀ key b, w.artifacts.get? key = some (.reportBundle b) →
    ∃ r, w.reports.get? b.report_id = some r
  requested : ∀ actor cmd q, w.artifacts.get? (fetchId actor cmd) = some (.request q) →
    ∃ e, w.idempotency.get? (idempotencyKey actor.actor_id cmd.idempotency_key) = some e

/-- The histories and the lessons stay. -/
structure SameLogs (w m : Workspace) : Prop where
  case_history : m.case_history = w.case_history
  baseline_history : m.baseline_history = w.baseline_history
  lessons : m.lessons = w.lessons

/-- Nothing a task is judged by changes, but for what is filed. -/
structure Quiet (w m : Workspace) : Prop where
  tenant : m.tenant_id = w.tenant_id
  tasks : m.tasks = w.tasks
  decisions : m.decisions = w.decisions
  baselines : m.baselines = w.baselines
  cases : m.cases = w.cases
  logs : SameLogs w m

/-- A command that only files. -/
structure Files (w m : Workspace) : Prop extends Quiet w m where
  reports : m.reports = w.reports
  handoffs : m.handoffs = w.handoffs
  artifacts : Refiled w.artifacts m.artifacts

def refile (w : Workspace) (artifacts : Dict String Artifact) : Workspace :=
  { w with artifacts := artifacts }

theorem Files.unchanged (w : Workspace) : Files w w :=
  ⟨⟨rfl, rfl, rfl, rfl, rfl, ⟨rfl, rfl, rfl⟩⟩, rfl, rfl, .refl⟩

theorem Files.of_refiled {w : Workspace} {artifacts : Dict String Artifact}
    (h : Refiled w.artifacts artifacts) : Files w (refile w artifacts) :=
  ⟨⟨rfl, rfl, rfl, rfl, rfl, ⟨rfl, rfl, rfl⟩⟩, rfl, rfl, h⟩

section Names

/-- Identifiers derived from a request carry the stem of their kind. -/
theorem attemptId_named (actor : Actor) (cmd : Command) :
    ∃ x, attemptId actor cmd = newId "investigation" x := ⟨_, rfl⟩

theorem fetchId_named (actor : Actor) (cmd : Command) : ∃ x, fetchId actor cmd = newId "fetch" x :=
  ⟨_, rfl⟩

theorem missionId_named (actor : Actor) (cmd : Command) :
    ∃ x, missionId actor cmd = newId "mission" x := ⟨_, rfl⟩

end Names

section Guards

variable [CollisionFree] {w w' : Workspace} {case_id : Identifier}

theorem refiled_recent {d e : Dict String Artifact} (h : Refiled d e) (hd : Filed d)
    (hrecent : ∀ a ∈ d.values, Recent a) : ∀ a ∈ e.values, Recent a := by
  intro a ha
  obtain ⟨key, hkey⟩ := Dict.exists_get?_of_mem_values ha
  cases a with
  | reportBundle b => exact hrecent _ (Dict.mem_values_of_get? ((h.bundle_iff hd).mp hkey))
  | _ => trivial

/-- A guard is only ever raised. -/
theorem refiled_of_rememberPolicy {policy : Option ScopeEvidencePolicy}
    {source_ids : List Identifier} (hfiled : Filed w.artifacts)
    (hrecent : ∀ a ∈ w.artifacts.values, Recent a)
    (h : rememberPolicy w case_id policy source_ids = .ok w') :
    ∃ artifacts, Refiled w.artifacts artifacts ∧ w' = refile w artifacts := by
  rcases rememberPolicy_ok h with ⟨rfl, _⟩ | ⟨guard, hcase, hfloor, _, _, hdemanding, rfl⟩
  · exact ⟨_, .refl, rfl⟩
  · refine ⟨_, Refiled.single ?_ ?_, rfl⟩
    · subst hcase
      rfl
    · refine ⟨?_, hdemanding⟩
      intro p hp
      have hkey : guardKey p.case_id = guardKey case_id := (hfiled _ _ hp).symm
      have hsame : p.case_id = case_id := by simpa [guardKey] using hkey
      have hle := owedTo_le_obligations case_id hrecent (Dict.mem_values_of_get? hp)
      simp only [owedTo, Artifact.case_id, hsame, if_true] at hle
      exact le_trans hle hfloor

theorem refiled_of_deskRemembers {desk : Option EvidenceDesk} {case : RiskCase}
    {source_ids : List Identifier} (hfiled : Filed w.artifacts)
    (hrecent : ∀ a ∈ w.artifacts.values, Recent a)
    (h : deskRemembers desk w case source_ids = .ok w') :
    ∃ artifacts, Refiled w.artifacts artifacts ∧ w' = refile w artifacts := by
  unfold deskRemembers at h
  split at h
  · simp only [pure_eq_ok] at h
    exact ⟨_, .refl, h.symm⟩
  · exact refiled_of_rememberPolicy hfiled hrecent h

end Guards

section Notes

variable {w m : Workspace} {seq : ℕ} {result : Result}

variable (seq) in
theorem prepareReviewChange_files {env : Environment} {actor : Actor}
    {task_id decision_id : Identifier}
    (h : prepareReviewChange env actor task_id decision_id w seq = .ok (m, result)) :
    Files w m ∧ result.affected_tasks = [] := by
  simp only [prepareReviewChange, bind_eq_ok, pure_eq_ok, Prod.mk.injEq] at h
  obtain ⟨task, _, decision, _, _, _, current, _, _, _, basis, _, _, _, rfl, rfl⟩ := h
  exact ⟨.of_refiled (.single rfl trivial), rfl⟩

variable (seq) in
theorem reserveAttemptChange_files {env : Environment} {actor : Actor} {cmd : Command}
    {case_id : Identifier} {basis : Digest}
    (h : reserveAttemptChange env actor cmd case_id basis w seq = .ok (m, result)) :
    Files w m ∧ result.affected_tasks = [] := by
  simp only [reserveAttemptChange, bind_eq_ok, pure_eq_ok, Prod.mk.injEq] at h
  obtain ⟨live, _, _, _, current, _, _, _, rfl, rfl⟩ := h
  exact ⟨.of_refiled (.single ⟨rfl, attemptId_named actor cmd⟩ trivial), rfl⟩

variable (seq) in
theorem prepareAnchorChange_files {env : Environment} {actor : Actor} {adapter : AnchorAdapter}
    {task_id decision_id : Identifier}
    (h : prepareAnchorChange env actor adapter task_id decision_id w seq = .ok (m, result)) :
    Files w m ∧ result.affected_tasks = [] := by
  simp only [prepareAnchorChange, bind_eq_ok, pure_eq_ok, Prod.mk.injEq] at h
  obtain ⟨task, _, decision, _, _, _, plan, _, rfl, rfl⟩ := h
  exact ⟨.of_refiled (.single ⟨rfl, _, rfl⟩ trivial), rfl⟩

variable (seq) in
theorem verifyAnchorChange_files {plan : AnchorPlan} {anchor_id tx_hash : String}
    {verified : Verification} (hfiled : Filed w.artifacts)
    (h : verifyAnchorChange plan anchor_id tx_hash verified w seq = .ok (m, result)) :
    Files w m ∧ result.affected_tasks = [] := by
  simp only [verifyAnchorChange, bind_eq_ok, fetch_eq_ok, pure_eq_ok, Prod.mk.injEq] at h
  obtain ⟨record, hrecord, _, _, _, _, task, _, decision, _, basis, _, rfl, rfl⟩ := h
  have hget : w.artifacts.get? anchor_id = some (.anchor record) := by
    unfold storedAnchor at hrecord
    split at hrecord
    · cases hrecord
      assumption
    · cases hrecord
  refine ⟨.of_refiled (.single ?_ trivial), rfl⟩
  have hid : (observeVerification record tx_hash verified).anchor_id = record.anchor_id := by
    by_cases hold : record.verification.state = "VERIFIED"
    · by_cases hnew : verified.state = "VERIFIED" <;> simp [observeVerification, hold, hnew]
    · simp [observeVerification, hold]
  have hfits := hfiled _ _ hget
  exact ⟨hid ▸ hfits.1, hfits.2⟩

variable (seq) in
theorem preparePlanChange_files {svc : Service} {partner : Option VirtualsSpec}
    {env : Environment} {actor : Actor} {case_id report_id : Identifier}
    (h : preparePlanChange svc partner env actor case_id report_id w seq = .ok (m, result)) :
    Files w m ∧ result.affected_tasks = [] := by
  simp only [preparePlanChange, bind_eq_ok] at h
  obtain ⟨case, _, spec, _, report, _, _, _, h⟩ := h
  split at h
  · simp only [pure_eq_ok, Prod.mk.injEq] at h
    obtain ⟨rfl, rfl⟩ := h
    exact ⟨.unchanged _, rfl⟩
  · split at h
    · simp only [pure_bind, pure_eq_ok, Prod.mk.injEq] at h
      obtain ⟨rfl, rfl⟩ := h
      exact ⟨.of_refiled (.single ⟨rfl, _, rfl⟩ trivial), rfl⟩
    · simp only [bind_eq_ok, pure_eq_ok, Prod.mk.injEq] at h
      obtain ⟨value, _, root, _, rfl, rfl⟩ := h
      exact ⟨.of_refiled (.single ⟨rfl, _, rfl⟩ trivial), rfl⟩

variable (seq) in
theorem verifyPlanChange_files {svc : Service} {env : Environment} {actor : Actor}
    {spec : VirtualsSpec} {plan : ReviewPlan} {plan_id : Identifier} {job_id : String}
    {history : Except String (List (String × Json))} (hfiled : Filed w.artifacts)
    (h : verifyPlanChange svc env actor spec plan plan_id job_id history w seq =
      .ok (m, result)) : Files w m ∧ result.affected_tasks = [] := by
  simp only [verifyPlanChange, bind_eq_ok, fetch_eq_ok, pure_eq_ok, Prod.mk.injEq] at h
  obtain ⟨record, hrecord, _, _, _, _, _, _, case, _, rfl, rfl⟩ := h
  have hget : w.artifacts.get? plan_id = some (.reviewPlan record) := by
    unfold storedPlan at hrecord
    split at hrecord
    · cases hrecord
      assumption
    · cases hrecord
  have hfits : Fits plan_id (.reviewPlan record) := hfiled _ _ hget
  exact ⟨.of_refiled (.single hfits trivial), rfl⟩

variable (seq) in
theorem resumeChange_files {actor : Actor} {cmd : Command} {record : Mission}
    {mission_id : String} (h : resumeChange actor cmd record mission_id w seq = .ok (m, result)) :
    Files w m ∧ result.affected_tasks = [] := by
  simp only [resumeChange] at h
  split at h
  · simp only [pure_bind, bind_eq_ok, pure_eq_ok, Prod.mk.injEq] at h
    obtain ⟨_, _, case, _, _, _, rfl, rfl⟩ := h
    exact ⟨.unchanged _, rfl⟩
  · simp only [bind_eq_ok, throw_ne_ok, false_and, exists_false] at h

variable (seq) in
theorem planMissionChange_files [CollisionFree] {desk : EvidenceDesk} {svc : Service}
    {actor : Actor} {cmd : Command} {case_id : Identifier} {queries : List SourceQuery}
    {reviewer_id : Option Identifier} (ha : Archived w)
    (h : planMissionChange desk svc actor cmd case_id queries reviewer_id w seq =
      .ok (m, result)) : Files w m ∧ result.affected_tasks = [] := by
  simp only [planMissionChange, bind_eq_ok, pure_eq_ok, Prod.mk.injEq] at h
  obtain ⟨case, _, _, _, hashes, _, _, _, w1, hremember, rfl, rfl⟩ := h
  obtain ⟨artifacts, hrefiled, rfl⟩ := refiled_of_rememberPolicy ha.filed ha.recent hremember
  exact ⟨.of_refiled (hrefiled.trans (.single ⟨rfl, missionId_named actor cmd⟩ trivial)), rfl⟩

end Notes

section Acquisition

variable {w m : Workspace} {seq : ℕ} {result : Result}

/-- A reservation: a request under a new key, and the head of its source that
points to it. -/
structure Reserves (actor : Actor) (cmd : Command) (w m : Workspace) (q : SourceRequest)
    (h : SourceHead) : Prop extends Quiet w m where
  reports : m.reports = w.reports
  handoffs : m.handoffs = w.handoffs
  request_id : q.request_id = fetchId actor cmd
  points : h.request_id = q.request_id
  case_id : h.case_id = q.case_id
  source_id : h.source_id = q.source_id
  artifacts : ∃ mid, Refiled w.artifacts mid ∧ (∀ p, mid.get? q.request_id ≠ some (.request p)) ∧
    m.artifacts = (mid.set q.request_id (.request q)).set (sourceKey q.case_id q.source_id) (.head h)

omit [Sha256] in
theorem specs_source_id {c : ConnectorConfig} {source_id : Identifier} {spec : SourceSpec}
    (h : c.specs.get? source_id = some spec) : spec.source_id = source_id := by
  unfold ConnectorConfig.specs at h
  have hkeyed : ∀ (l : List SourceSpec) (d : Dict Identifier SourceSpec),
      (∀ k s, d.get? k = some s → s.source_id = k) →
      ∀ k s, (l.foldl (fun d s => d.set s.source_id s) d).get? k = some s → s.source_id = k := by
    intro l
    induction l with
    | nil => exact fun d hd => hd
    | cons a rest ih =>
      intro d hd
      apply ih
      intro k s hs
      rw [Dict.get?_set] at hs
      split at hs
      · cases hs
        assumption
      · exact hd k s hs
  exact hkeyed c.sources .empty (by simp) source_id spec h

theorem openCollection_ok {desk : EvidenceDesk} {actor : Actor} {case_id source_id : Identifier}
    {requested : String} {snapshot : Workspace} {acq : Acquisition}
    (h : openCollection desk actor case_id source_id requested snapshot = .ok acq) :
    acq.spec.source_id = source_id := by
  simp only [openCollection, allowedSpec, bind_eq_ok, fetch_eq_ok, pure_eq_ok] at h
  obtain ⟨_, _, _, _, _, _, case, _, spec, ⟨spec', hspec, _, _, rfl⟩, resource, _, rfl⟩ := h
  exact specs_source_id hspec

variable (seq) in
theorem reserveChange_effect [CollisionFree] {desk : EvidenceDesk} {env : Environment}
    {actor : Actor} {cmd : Command} {case_id : Identifier} {acq : Acquisition}
    {force_refresh : Bool} (ha : Archived w)
    (hnew : ∀ p, w.artifacts.get? (fetchId actor cmd) ≠ some (.request p))
    (h : reserveChange desk env actor cmd case_id acq force_refresh w seq = .ok (m, result)) :
    result.affected_tasks = [] ∧ (Files w m ∨ ∃ q head, Reserves actor cmd w m q head ∧
      q.case_id = case_id ∧ q.source_id = acq.spec.source_id) := by
  simp only [reserveChange, bind_eq_ok] at h
  obtain ⟨current, _, _, _, w1, hremember, ⟨receipts, rejected⟩, _, h⟩ := h
  obtain ⟨artifacts, hrefiled, rfl⟩ := refiled_of_rememberPolicy ha.filed ha.recent hremember
  split at h
  · simp only [pure_eq_ok, Prod.mk.injEq] at h
    obtain ⟨rfl, rfl⟩ := h
    exact ⟨rfl, Or.inl (.of_refiled hrefiled)⟩
  · simp only [bind_eq_ok, pure_eq_ok, Prod.mk.injEq] at h
    obtain ⟨_, _, rfl, rfl⟩ := h
    refine ⟨rfl, Or.inr ⟨pendingRequest env actor cmd case_id acq current.version,
      pendingHead actor cmd case_id acq current.version, ?_, rfl, rfl⟩⟩
    refine ⟨⟨rfl, rfl, rfl, rfl, rfl, ⟨rfl, rfl, rfl⟩⟩, rfl, rfl, rfl, rfl, rfl, rfl, artifacts,
      hrefiled, ?_, rfl⟩
    intro p hp
    obtain ⟨q, hq⟩ := hrefiled.request_of hp
    exact hnew q hq

omit [Sha256] in
theorem pointed_eq_some {old : Option Artifact} {request_id : String} {h : SourceHead}
    (hp : pointed old request_id = some h) : old = some (.head h) ∧ h.request_id = request_id := by
  unfold pointed at hp
  split at hp
  · split at hp
    · cases hp
      exact ⟨rfl, by assumption⟩
    · cases hp
  · cases hp

section Finishing

variable {env : Environment} {case_id request_id : String} {acq : Acquisition}
  {observed : Option Observation} {pending finished : SourceRequest}
  (hfits : Fits request_id (.request pending))
  (hpending : w.artifacts.get? request_id = some (.request pending))
  (hid : finished.request_id = pending.request_id) (hcase : finished.case_id = pending.case_id)
  (hsource : finished.source_id = pending.source_id)
  (hfresh : w.artifacts.get? (env.fresh "source") = none)
include hfits hpending hid hcase hsource hfresh

variable (case_id acq observed) in
/-- The finished request and its receipt are ordinary writes, and no head moves. -/
theorem storeReceipt_refiled : ∃ mid, Refiled w.artifacts mid ∧
    storeReceipt (observed.map (newReceipt env case_id acq))
      (refile w (w.artifacts.set request_id (.request finished))) = refile w mid ∧
    ∀ key head, w.artifacts.get? key = some (.head head) → mid.get? key = some (.head head) := by
  have hrequest : Refiled w.artifacts (w.artifacts.set request_id (.request finished)) :=
    .single ⟨hfits.1.trans hid.symm, hfits.2⟩ ⟨pending, hpending, hcase.symm, hsource.symm⟩
  have hother : ∀ key head, w.artifacts.get? key = some (.head head) →
      (w.artifacts.set request_id (.request finished)).get? key = some (.head head) := by
    intro key head hkey
    have hne : request_id ≠ key := by
      rintro rfl
      rw [hpending] at hkey
      cases hkey
    rw [Dict.get?_set_of_ne _ _ hne, hkey]
  cases observed with
  | none => exact ⟨_, hrequest, rfl, hother⟩
  | some o =>
    have hne : ∀ key a, w.artifacts.get? key = some a → key ≠ env.fresh "source" := by
      rintro key a hkey rfl
      rw [hfresh] at hkey
      cases hkey
    refine ⟨_, hrequest.set (k := env.fresh "source")
      (a := .receipt (newReceipt env case_id acq o)) ⟨rfl, _, rfl⟩ ?_, rfl, ?_⟩
    · change Dict.get? _ _ = none
      rw [Dict.get?_set_of_ne _ _ (hne _ _ hpending), hfresh]
    · intro key head hkey
      rw [Dict.get?_set_of_ne _ _ (hne _ _ hkey).symm, hother key head hkey]

theorem storeReceipt_files : Files w (storeReceipt (observed.map (newReceipt env case_id acq))
    (refile w (w.artifacts.set request_id (.request finished)))) := by
  obtain ⟨mid, hrefiled, heq, _⟩ :=
    storeReceipt_refiled case_id acq observed hfits hpending hid hcase hsource hfresh
  rw [heq]
  exact .of_refiled hrefiled

/-- So is the head with its outcome, as long as it points to the same request. -/
theorem moveHead_files {key : String} {head moved : SourceHead} (hkey : Fits key (.head moved))
    (hget : w.artifacts.get? key = some (.head head)) (hpoints : head.request_id = moved.request_id) :
    let stored := storeReceipt (observed.map (newReceipt env case_id acq))
      (refile w (w.artifacts.set request_id (.request finished)))
    Files w (refile stored (stored.artifacts.set key (.head moved))) := by
  intro stored
  obtain ⟨mid, hrefiled, heq, hkept⟩ :=
    storeReceipt_refiled case_id acq observed hfits hpending hid hcase hsource hfresh
  rw [show stored = refile w mid from heq]
  exact .of_refiled (hrefiled.set hkey ⟨head, hkept key head hget, hpoints⟩)

end Finishing

variable (seq) in
theorem finishChange_files {env : Environment} {actor : Actor} {case_id request_id : String}
    {acq : Acquisition} {fetched : Fetched} (ha : Archived w)
    (hfresh : w.artifacts.get? (env.fresh "source") = none)
    (h : finishChange env actor case_id acq request_id fetched w seq = .ok (m, result)) :
    Files w m ∧ result.affected_tasks = [] := by
  simp only [finishChange] at h
  split at h
  · rename_i pending hpending
    simp only [pure_bind, bind_eq_ok, pure_eq_ok, Prod.mk.injEq] at h
    obtain ⟨_, _, current, _, rfl, rfl⟩ := h
    refine ⟨?_, rfl⟩
    have hfits : Fits request_id (.request pending) := ha.filed _ _ hpending
    split
    · exact storeReceipt_files hfits hpending rfl rfl rfl hfresh
    · rename_i head hhead
      obtain ⟨hkey, _⟩ := pointed_eq_some hhead
      have hhead : Fits _ (.head head) := ha.filed _ _ hkey
      refine moveHead_files hfits hpending ?_ ?_ ?_ hfresh ?_ hkey ?_
      · rfl
      · rfl
      · rfl
      · exact hhead
      · rfl
  · simp only [bind_eq_ok, throw_ne_ok, false_and, exists_false] at h

end Acquisition

section Investigations

variable {w m : Workspace} {seq : ℕ} {result : Result} {svc : Service} {env : Environment}
  {actor : Actor} {cmd : Command} {case_id : Identifier} {snapshot : Workspace}

/-- The bundle an investigation stores next to its report. -/
def bundleOf (r : Report) (context : EvidenceContext) : ReportBundle :=
  ⟨r.report_id, r.case_id, r.report_root, context⟩

/-- An investigation: a new report, and the bundle it inspected if there is one. -/
structure Investigates (w m : Workspace) (r : Report) (external : Option EvidenceContext) : Prop
    extends Quiet w m where
  handoffs : m.handoffs = w.handoffs
  fresh : w.reports.get? r.report_id = none
  reports : m.reports = w.reports.set r.report_id r
  root : r.report_root = digest "investigation" (object r.body)
  recorded : ∀ context ∈ external, context.source_obligations.isSome
  inspected : (inspections r).map TraceEvent.output_hash =
    (external.map (fun context => some (digest "tool-output" context.toJson))).toList
  artifacts : ∃ mid, Refiled w.artifacts mid ∧ m.artifacts = match external with
    | none => mid
    | some context => mid.set (reportSourcesKey r.report_id) (.reportBundle (bundleOf r context))

/-- What an investigation captured from the workspace it started from. -/
structure Captured (svc : Service) (env : Environment) (snapshot : Workspace)
    (case_id : Identifier) (inquiry : Inquiry) : Prop where
  case : snapshot.cases.get? case_id = some inquiry.case
  opened : inquiry.case.status = .opened
  basis : investigationBasis snapshot case_id = .ok inquiry.basis
  without : svc.evidence_desk = none → inquiry.external = none
  external : ∀ desk, svc.evidence_desk = some desk →
    reportContext desk snapshot case_id (env.clock .external) = .ok inquiry.external

omit [Sha256] in
theorem findCase_ok {c : RiskCase} (h : findCase w actor case_id = .ok c) :
    w.cases.get? case_id = some c := by
  simp only [findCase, bind_eq_ok, fetch_eq_ok, pure_eq_ok] at h
  obtain ⟨c', hc, _, _, rfl⟩ := h
  exact hc

omit [Sha256] in
theorem findTask_ok {task_id : Identifier} {t : Task} (h : findTask w actor task_id = .ok t) :
    w.tasks.get? task_id = some t := by
  simp only [findTask, bind_eq_ok, fetch_eq_ok, pure_eq_ok] at h
  obtain ⟨t', ht, _, _, rfl⟩ := h
  exact ht

/-- How the context of a case comes about. -/
structure ContextOf (desk : EvidenceDesk) (w : Workspace) (case_id : Identifier) (time : Instant)
    (value : EvidenceContext) (case : RiskCase) (floor : Obligations)
    (receipts : List SourceReceipt) : Prop where
  stored : w.cases.get? case_id = some case
  effective : effectivePolicy w case.case_id (policy desk w case) = .ok floor
  current : currentReceipts w case_id time desk.specs = .ok (receipts, value.rejected)
  recorded : value.source_obligations = some floor
  required : value.required_sources = floor.required_sources
  conflicts : value.source_conflicts = sourceConflicts receipts
  complete : value.coverage_complete = true ↔ value.rejected = [] ∧
    value.source_conflicts = [] ∧
    (∀ s ∈ floor.required_sources, s ∈ receipts.map SourceReceipt.source_id) ∧
    floor.min_independence_groups ≤ (coveringGroups floor.required_sources receipts).length

theorem context_ok {desk : EvidenceDesk} {time : Instant} {value : EvidenceContext}
    (h : context desk w case_id time = .ok value) :
    ∃ case floor receipts, ContextOf desk w case_id time value case floor receipts := by
  simp only [context, item, bind_eq_ok, fetch_eq_ok, pure_eq_ok] at h
  obtain ⟨case, hcase, floor, hfloor, ⟨receipts, rejected⟩, hcurrent, rfl⟩ := h
  refine ⟨case, floor, receipts, hcase, hfloor, hcurrent, rfl, rfl, rfl, ?_⟩
  simp [List.isEmpty_iff, List.filter_eq_nil_iff]

theorem reportContext_some {desk : EvidenceDesk} {time : Instant} {value : EvidenceContext}
    (h : reportContext desk w case_id time = .ok (some value)) :
    context desk w case_id time = .ok value := by
  simp only [reportContext, item, bind_eq_ok, fetch_eq_ok] at h
  obtain ⟨case, _, h⟩ := h
  split at h
  · simp only [pure_eq_ok, reduceCtorEq] at h
  · simp only [bind_eq_ok, pure_eq_ok, Option.some.injEq] at h
    obtain ⟨v, hv, rfl⟩ := h
    exact hv

theorem openInvestigation_ok {inquiry : Inquiry}
    (h : openInvestigation svc env actor cmd case_id snapshot = .ok (.inr inquiry)) :
    Captured svc env snapshot case_id inquiry := by
  simp only [openInvestigation, bind_eq_ok] at h
  obtain ⟨_, _, _, _, _, _, case, hcase, h⟩ := h
  split at h
  · simp only [bind_eq_ok, pure_eq_ok, reduceCtorEq, and_false, exists_false] at h
  · split at h
    · simp only [bind_eq_ok, throw_ne_ok, false_and, and_false, exists_false] at h
    · simp only [bind_eq_ok, throw_ne_ok, false_and, exists_false] at h
    · simp only [bind_eq_ok, ensure_eq_ok] at h
      obtain ⟨_, _, _, hopen, _, _, basis, hbasis, h⟩ := h
      split at h
      · rename_i hdesk
        simp only [pure_bind, pure_eq_ok, Sum.inr.injEq] at h
        subst h
        exact ⟨findCase_ok hcase, hopen, hbasis, fun _ => rfl, by simp [hdesk]⟩
      · rename_i desk hdesk
        simp only [bind_eq_ok] at h
        obtain ⟨external, hexternal, h⟩ := h
        have hinquiry : inquiry = ⟨case, basis, external⟩ := by
          split at h
          · simp only [pure_eq_ok, Sum.inr.injEq] at h
            exact h.symm
          · simp only [bind_eq_ok, pure_eq_ok, Sum.inr.injEq] at h
            obtain ⟨_, _, _, _, h⟩ := h
            exact h.symm
        subst hinquiry
        refine ⟨findCase_ok hcase, hopen, hbasis, by simp [hdesk], ?_⟩
        intro d hd
        rw [hdesk] at hd
        cases hd
        exact hexternal

theorem draftReport_root {inquiry : Inquiry} {planning : Planning} {r : Report}
    (h : draftReport env actor case_id snapshot inquiry planning = .ok r) :
    r.report_root = digest "investigation" (object r.body) := by
  simp only [draftReport, bind_eq_ok, pure_eq_ok] at h
  obtain ⟨related, _, precedents, _, rfl⟩ := h
  rfl

/-- A draft names the version it looked at and inspects the captured evidence. -/
theorem draftReport_ok {inquiry : Inquiry} {planning : Planning} {r : Report}
    (h : draftReport env actor case_id snapshot inquiry planning = .ok r) :
    r.report_id = env.fresh "report" ∧ r.case_id = case_id ∧
      r.case_version = inquiry.case.version ∧ r.investigator_id = actor.actor_id ∧
      r.basis_hash = inquiry.basis ∧
      (inspections r).map TraceEvent.output_hash =
        (inquiry.external.map (fun context =>
          some (digest "tool-output" context.toJson))).toList := by
  simp only [draftReport, bind_eq_ok, pure_eq_ok] at h
  obtain ⟨related, _, precedents, _, rfl⟩ := h
  refine ⟨rfl, rfl, rfl, rfl, rfl, ?_⟩
  have hsuppressed : ∀ names : List String, (names.map fun name =>
      TraceEvent.suppressed (digest "suppressed-tool" (.str name))).filter
        (fun e => e.tool = "evidence.inspect") = [] := by
    intro names
    simp [List.filter_eq_nil_iff, TraceEvent.tool]
  cases inquiry.external with
  | none =>
    simp only [inspections, List.filter_append, hsuppressed]
    split <;> simp [toolEvent, TraceEvent.tool]
  | some context =>
    simp only [inspections, List.filter_append, hsuppressed]
    split <;> simp [toolEvent, TraceEvent.tool, TraceEvent.output_hash]

theorem completeAttempt_refiled {attempt_id : String} {report_id : Identifier}
    (hfiled : Filed w.artifacts) (h : completeAttempt env attempt_id report_id w = .ok m) :
    ∃ mid, Refiled w.artifacts mid ∧ m = refile w mid := by
  unfold completeAttempt at h
  split at h
  · rename_i attempt hattempt
    simp only [bind_eq_ok, pure_eq_ok] at h
    obtain ⟨_, _, rfl⟩ := h
    have hfits : Fits attempt_id (.attempt attempt) := hfiled _ _ hattempt
    refine ⟨_, Refiled.single ?_ ?_, rfl⟩
    · exact hfits
    · trivial
  · simp only [throw_ne_ok] at h

variable (seq) in
theorem investigateChange_effect {report : Report} {inquiry : Inquiry} {planned : Bool}
    {planning : Planning} (ha : Archived w)
    (hfresh : w.reports.get? (env.fresh "report") = none)
    (hcaptured : Captured svc env snapshot case_id inquiry)
    (hreport : draftReport env actor case_id snapshot inquiry planning = .ok report)
    (h : investigateChange svc env actor cmd case_id report inquiry.external planned w seq =
      .ok (m, result)) :
    result.affected_tasks = [] ∧ Investigates w m report inquiry.external := by
  obtain ⟨hid, _, _, _, _, hinspected⟩ := draftReport_ok hreport
  have hroot := draftReport_root hreport
  have hrecorded : ∀ context ∈ inquiry.external, context.source_obligations.isSome := by
    intro context hcontext
    cases hdesk : svc.evidence_desk with
    | none => simp [hcaptured.without hdesk] at hcontext
    | some desk =>
      have hok := hcaptured.external desk hdesk
      rw [Option.mem_def.mp hcontext] at hok
      obtain ⟨case, floor, receipts, hcontext⟩ := context_ok (reportContext_some hok)
      simp [hcontext.recorded]
  have hrest : ∀ w1 mid, Refiled w.artifacts mid →
      w1 = refile { w with reports := w.reports.set report.report_id report } mid →
      Investigates w (storeBundle report inquiry.external w1) report inquiry.external := by
    rintro w1 mid hmid rfl
    cases hexternal : inquiry.external with
    | none => exact ⟨⟨rfl, rfl, rfl, rfl, rfl, ⟨rfl, rfl, rfl⟩⟩, rfl, hid ▸ hfresh, rfl, hroot, by simp,
        hexternal ▸ hinspected, mid, hmid, rfl⟩
    | some context => exact ⟨⟨rfl, rfl, rfl, rfl, rfl, ⟨rfl, rfl, rfl⟩⟩, rfl, hid ▸ hfresh, rfl, hroot,
        hexternal ▸ hrecorded, hexternal ▸ hinspected, mid, hmid, rfl⟩
  have hdone : ∀ w1, (∃ mid, Refiled w.artifacts mid ∧
      w1 = refile { w with reports := w.reports.set report.report_id report } mid) →
      storeBundle report inquiry.external w1 = m ∧
        Result.investigated report (if report.precedent_ids ≠ [] then "REVIEW_PRIOR_REMEDIATION"
          else "COLLECT_AND_REVIEW_EVIDENCE") = result →
      result.affected_tasks = [] ∧ Investigates w m report inquiry.external := by
    rintro w1 ⟨mid, hmid, hw1⟩ ⟨rfl, rfl⟩
    exact ⟨rfl, hrest w1 mid hmid hw1⟩
  have hattempt : ∀ w1, completeAttempt env (attemptId actor cmd) report.report_id
      { w with reports := w.reports.set report.report_id report } = .ok w1 → _ :=
    fun w1 hw1 => completeAttempt_refiled
      (w := { w with reports := w.reports.set report.report_id report }) ha.filed hw1
  simp only [investigateChange, bind_eq_ok] at h
  obtain ⟨case, _, h⟩ := h
  split at h
  · split at h
    · simp only [bind_eq_ok, pure_eq_ok, Prod.mk.injEq] at h
      obtain ⟨w1, hw1, hm⟩ := h
      exact hdone w1 (hattempt w1 hw1) hm
    · simp only [pure_bind, pure_eq_ok, Prod.mk.injEq] at h
      exact hdone _ ⟨_, .refl, rfl⟩ h
  · simp only [bind_eq_ok, throw_ne_ok, false_and, exists_false] at h
  · simp only [bind_eq_ok] at h
    obtain ⟨_, _, h⟩ := h
    split at h
    · simp only [bind_eq_ok, pure_eq_ok, Prod.mk.injEq] at h
      obtain ⟨w1, hw1, hm⟩ := h
      exact hdone w1 (hattempt w1 hw1) hm
    · simp only [pure_bind, pure_eq_ok, Prod.mk.injEq] at h
      exact hdone _ ⟨_, .refl, rfl⟩ h

section Handoffs

/-- A report that still stands for the current version of an open case. -/
structure Stands (svc : Service) (env : Environment) (w : Workspace) (case : RiskCase)
    (report_id : Identifier) (report : Report) : Prop where
  stored : w.reports.get? report_id = some report
  case_id : report.case_id = case.case_id
  version : report.case_version = case.version
  opened : case.status = .opened
  basis : investigationBasis w case.case_id = .ok report.basis_hash
  present : requireDesk w case.case_id svc.evidence_desk (some report) = .ok ()
  evidence : ∀ desk, svc.evidence_desk = some desk →
    validateReport desk w case report (env.clock .report) = .ok ()

theorem validReport_ok {case : RiskCase} {report_id : Identifier} {report : Report}
    (h : validReport svc env w case report_id = .ok report) :
    Stands svc env w case report_id report := by
  simp only [validReport, bind_eq_ok, fetch_eq_ok, ensure_eq_ok] at h
  obtain ⟨report', hstored, _, hcase, _, ⟨hversion, hopen⟩, basis, hbasis, _, hhash, _, hdesk, h⟩ := h
  split at h
  · rename_i hnone
    simp only [pure_eq_ok] at h
    subst h
    exact ⟨hstored, hcase, hversion, hopen, hhash ▸ hbasis, hdesk, by simp [hnone]⟩
  · rename_i desk hsome
    simp only [bind_eq_ok, pure_eq_ok] at h
    obtain ⟨_, hvalid, rfl⟩ := h
    refine ⟨hstored, hcase, hversion, hopen, hhash ▸ hbasis, hdesk, ?_⟩
    intro d hd
    rw [hsome] at hd
    cases hd
    exact hvalid

/-- A handoff of a report of the current version to a reviewer. -/
structure HandsOff (w m : Workspace) (h : Handoff) : Prop extends Quiet w m where
  reports : m.reports = w.reports
  artifacts : m.artifacts = w.artifacts
  fresh : w.handoffs.get? h.handoff_id = none
  handoffs : m.handoffs = w.handoffs.set h.handoff_id h
  report : ∃ key r case, w.reports.get? key = some r ∧ r.report_id = h.report_id ∧
    w.cases.get? h.case_id = some case ∧ r.case_id = case.case_id ∧
    r.case_version = h.case_version ∧ r.investigator_id = h.investigator_id

variable (seq) in
theorem handoffChange_effect {report_id reviewer_id : Identifier}
    (hfresh : w.handoffs.get? (env.fresh "handoff") = none)
    (h : handoffChange svc env actor case_id report_id reviewer_id w seq = .ok (m, result)) :
    result.affected_tasks = [] ∧ ∃ handoff, HandsOff w m handoff := by
  simp only [handoffChange, bind_eq_ok, ensure_eq_ok, pure_eq_ok, Prod.mk.injEq] at h
  obtain ⟨case, hcase, report, hreport, reviewer, _, _, _, _, howner, rfl, rfl⟩ := h
  have hstands := validReport_ok hreport
  refine ⟨rfl, ⟨env.fresh "handoff", report.report_id, case_id, case.version, reviewer.actor_id,
    actor.actor_id, false⟩, ⟨rfl, rfl, rfl, rfl, rfl, ⟨rfl, rfl, rfl⟩⟩, rfl, rfl, hfresh, rfl, ?_⟩
  exact ⟨report_id, report, case, hstands.stored, rfl, findCase_ok hcase, hstands.case_id,
    hstands.version, howner⟩

/-- The acceptance of a handoff. -/
structure Accepts (w m : Workspace) (handoff_id : Identifier) (h : Handoff) : Prop
    extends Quiet w m where
  reports : m.reports = w.reports
  artifacts : m.artifacts = w.artifacts
  known : w.handoffs.get? handoff_id = some h
  handoffs : m.handoffs = w.handoffs.set handoff_id { h with accepted := true }

variable (seq) in
theorem acceptHandoffChange_effect {handoff_id : Identifier}
    (h : acceptHandoffChange svc env actor handoff_id w seq = .ok (m, result)) :
    result.affected_tasks = [] ∧ ∃ handoff, Accepts w m handoff_id handoff := by
  simp only [acceptHandoffChange, bind_eq_ok, fetch_eq_ok, pure_eq_ok, Prod.mk.injEq] at h
  obtain ⟨handoff, hknown, _, _, case, _, report, _, _, _, rfl, rfl⟩ := h
  exact ⟨rfl, handoff, ⟨rfl, rfl, rfl, rfl, rfl, ⟨rfl, rfl, rfl⟩⟩, rfl, rfl, hknown, rfl⟩

end Handoffs

end Investigations

end MemoryGuard.EvidenceEffects
