import MemoryGuard.Progress

/-!
Steps that go through. An owner, an investigator and a reviewer work at a
service without a desk; for each of their commands there is a step of the run
that commits it, once the store meets what the command checks.
-/
namespace MemoryGuard.Staffing

open OrderedDict Guarded DependencyGraph JsonText ContentHash Models Artifacts Aggregate Core
open Closure Policy SourceModels SourceState SourceGuard SourceService Transactions TaskCommands
open CaseCommands Traces Calls Filing EvidenceEffects TaskEffects CaseEffects Effects Growth
open Upkeep Lifecycle History Integrity Heads Progress

variable [Sha256]

section Going

variable {svc : Service} {steps : List Step} {w : Workspace} {actor : Actor} {time : Instant}

/-- A step that commits a call at a time. -/
structure Goes (svc : Service) (time : Instant) (steps : List Step) (w : Workspace) (call : Call)
    (s : Step) (m : Workspace) (result : Result) : Prop where
  service : s.svc = svc
  call : s.call = call
  pre : s.pre = some w
  clock : ∀ reading, s.env.clock reading = time
  now : Allowed steps s
  happened : ∃ tx, Happened s w tx m result

theorem Goes.run {call : Call} {s : Step} {m : Workspace} {result : Result}
    (h : Goes svc time steps w call s m result) (hrun : Run casework steps (some w)) :
    Run casework (steps ++ [s]) s.post := by
  have hpre : Run casework steps (casework.pre s) := by
    rw [show casework.pre s = s.pre from rfl, h.pre]
    exact hrun
  exact .next (S := casework) (s := s) hpre h.now

theorem Goes.effect {call : Call} {s : Step} {m : Workspace} {result : Result}
    (h : Goes svc time steps w call s m result) : Effect svc s.env w call m result := by
  obtain ⟨tx, hh⟩ := h.happened
  have heffect := hh.effect
  rw [h.service, h.call] at heffect
  exact heffect

theorem Goes.committed {call : Call} {s : Step} {m : Workspace} {result : Result}
    (h : Goes svc time steps w call s m result) : s.Committed := by
  obtain ⟨tx, hh⟩ := h.happened
  unfold Step.Committed
  rw [hh.commits.response]
  rfl

theorem Goes.result {call : Call} {s : Step} {m : Workspace} {result : Result}
    (h : Goes svc time steps w call s m result) : s.response.result = result := by
  obtain ⟨tx, hh⟩ := h.happened
  rw [hh.commits.response]
  rfl

theorem Goes.post {call : Call} {s : Step} {m : Workspace} {result : Result}
    (h : Goes svc time steps w call s m result) :
    ∃ tx, s.post = some (recorded s.env w m tx result) := by
  obtain ⟨tx, hh⟩ := h.happened
  exact ⟨tx, hh.commits.post⟩

variable [CollisionFree]

theorem goes_of_admitted {env : Environment} {call : Call} {tx : Transaction} {m : Workspace}
    {result : Result} (hrun : Run casework steps (some w))
    (h : Admitted svc env call (some w) tx w)
    (hchange : tx.change w (w.revision + 1) = .ok (m, result))
    (hfits : ∀ state, svc.fits state = true) (hclock : ∀ reading, env.clock reading = time)
    (hgrounded : Grounded steps svc call) :
    ∃ s, s.env = env ∧ Goes svc time steps w call s m result := by
  obtain ⟨hnext, hh⟩ := run_commits hrun h hchange (hfits _) hgrounded
  exact ⟨_, rfl, rfl, rfl, rfl, hclock, hnext.snoc.2.1, tx, hh⟩

/-- A request on the current revision goes through when its change does. -/
theorem can_do {call : Command → Call} (tx : Environment → Command → Transaction)
    (hrun : Run casework steps (some w)) (htenant : w.tenant_id = actor.tenant_id)
    (hroom : w.revision < 5000) (hfits : ∀ state, svc.fits state = true)
    (hprepared : ∀ env cmd, (∀ reading, env.clock reading = time) →
      (call cmd).prepare svc env = .ok (.transaction (tx env cmd)))
    (halone : ∀ cmd, Standalone (call cmd))
    (hactor : ∀ env cmd, (tx env cmd).actor = actor ∧ (tx env cmd).command = cmd)
    (hplain : ∀ env cmd, (tx env cmd).bootstrap = false ∧ (tx env cmd).relevant_basis = none)
    (hscopes : ∀ env cmd, recheckScopes w (tx env cmd) = .ok ())
    (hchange : ∀ env cmd, Fresh env w → (∀ reading, env.clock reading = time) →
      ∃ r, (tx env cmd).change w (w.revision + 1) = .ok r) :
    ∃ cmd s m result, Goes svc time steps w (call cmd) s m result ∧ Fresh s.env w ∧
      (tx s.env cmd).change w (w.revision + 1) = .ok (m, result) := by
  obtain ⟨env, hfresh, hclock⟩ := exists_environment w time
  obtain ⟨cmd, _, hrevision, hnew⟩ := exists_command w actor "session"
  obtain ⟨⟨m, result⟩, hm⟩ := hchange env cmd hfresh hclock
  obtain ⟨hact, hcmd⟩ := hactor env cmd
  obtain ⟨hboot, hbasis⟩ := hplain env cmd
  have hadmit : preconditions w (tx env cmd) = .ok () := by
    simp [preconditions, hbasis, hboot, hcmd, hrevision, hroom, ensure, bind, Except.bind]
  have hadmitted : Admitted svc env (call cmd) (some w) (tx env cmd) w := by
    refine ⟨hprepared env cmd hclock, rfl, ?_, hscopes env cmd, ?_, hadmit, hfresh⟩
    · rw [hact, htenant]
    · unfold Transaction.key
      rw [hact, hcmd]
      exact hnew
  obtain ⟨s, rfl, hs⟩ := goes_of_admitted hrun hadmitted hm hfits hclock
    (grounded_of_standalone (halone cmd))
  exact ⟨cmd, s, m, result, hs, hfresh, hm⟩

end Going

section Staffing

/-- An actor of a tenant who holds a role and may act on a subject. -/
structure Employed (a : Actor) (role : Role) (tenant_id subject_id : Identifier) : Prop where
  role : a.role = role
  tenant : a.tenant_id = tenant_id
  subject : subject_id ∈ a.subjects

/-- The people of a tenant who can carry a case from its opening to its
resolution, and a service without a desk that knows the reviewer. -/
structure Staff where
  svc : Service
  tenant_id : Identifier
  subject_id : Identifier
  owner : Actor
  investigator : Actor
  reviewer : Actor
  desk : svc.evidence_desk = none
  fits : ∀ state, svc.fits state = true
  owns : Employed owner .owner tenant_id subject_id
  investigates : Employed investigator .investigator tenant_id subject_id
  reviews : Employed reviewer .reviewer tenant_id subject_id
  known : svc.actors.get? reviewer.actor_id = some reviewer
  apart : reviewer.actor_id ≠ owner.actor_id
  independent : reviewer.actor_id ≠ investigator.actor_id

variable [CollisionFree] (staff : Staff) {steps : List Step} {w : Workspace} {time : Instant}

/-- Where the staff can work: the store of their tenant, with room left. -/
structure Open (steps : List Step) (w : Workspace) (n : ℕ) : Prop where
  run : Run casework steps (some w)
  tenant : w.tenant_id = staff.tenant_id
  revision : w.revision = n

variable {staff} {n : ℕ}

omit [CollisionFree] in
theorem Open.next {call : Call} {s : Step} {m : Workspace} {result : Result}
    (h : Open staff steps w n) (hs : Goes staff.svc time steps w call s m result)
    (htenant : m.tenant_id = w.tenant_id) :
    ∃ tx, s.post = some (recorded s.env w m tx result) ∧
      Open staff (steps ++ [s]) (recorded s.env w m tx result) (n + 1) := by
  obtain ⟨tx, hpost⟩ := hs.post
  refine ⟨tx, hpost, hpost ▸ hs.run h.run, htenant.trans h.tenant, ?_⟩
  change w.revision + 1 = n + 1
  rw [h.revision]

omit [Sha256] [CollisionFree] in
theorem authorize_ok {a : Actor} {role : Role} (roles : List Role)
    {tenant_id subject_id : Identifier} (h : Employed a role tenant_id subject_id)
    (hrole : role ∈ roles) (subject : Option Identifier)
    (hsubject : ∀ s ∈ subject, s = subject_id) : authorize a roles subject = .ok () := by
  refine ensure_eq_ok.mpr ⟨h.role ▸ hrole, ?_⟩
  intro s hs
  rw [hsubject s hs]
  exact h.subject

/-- What a call does to the workspace when the staff make it at a time. -/
abbrev Does (staff : Staff) (time : Instant) (steps : List Step) (w : Workspace)
    (call : Command → Call) (change : Environment → Command → Change) : Prop :=
  ∃ cmd s m result, Goes staff.svc time steps w (call cmd) s m result ∧ Fresh s.env w ∧
    change s.env cmd w (w.revision + 1) = .ok (m, result)

variable (time) in
theorem can_setBaseline (h : Open staff steps w n) (hroom : n < 5000) {scope : Scope}
    (hscope : scope.subject_id = staff.subject_id) (limit_minor : Minor) {expires_at : Instant}
    (hlive : time < expires_at) :
    Does staff time steps w
      (fun cmd => .setBaseline staff.owner cmd scope limit_minor expires_at)
      (fun _ _ => setBaselineChange staff.owner scope limit_minor expires_at) := by
  have hauthorized := authorize_ok [.owner] staff.owns (by simp)
    (some scope.subject_id) (by simp [hscope])
  refine can_do (fun _ cmd => ⟨staff.owner, cmd, "baseline.set",
      [("scope", scope.toJson), ("limit_minor", nat limit_minor.value),
        ("expires_at", expires_at.toJson)],
      setBaselineChange staff.owner scope limit_minor expires_at, false, none⟩)
    h.run (h.tenant.trans staff.owns.tenant.symm) (h.revision ▸ hroom) staff.fits ?_ (fun _ => rfl)
    (fun _ _ => ⟨rfl, rfl⟩) (fun _ _ => ⟨rfl, rfl⟩) (fun _ _ => rfl) (fun _ _ _ _ => ⟨_, rfl⟩)
  intro env cmd hclock
  simp only [Call.prepare, inTransaction, setBaseline, hauthorized, hclock, hlive, ensure,
    if_true, bind, Except.bind]
  rfl

variable (time) in
theorem can_register (h : Open staff steps w n) (hroom : n < 5000) {intent : Intent}
    (hscope : intent.scope.subject_id = staff.subject_id) (hsize : w.tasks.size < 250)
    {depends_on : List Identifier} (hnodup : depends_on.Nodup)
    (hparents : ∀ p ∈ depends_on, checkParent staff.owner w intent p = .ok ()) :
    Does staff time steps w (fun cmd => .registerTask staff.owner cmd intent depends_on)
      (fun env cmd => registerTaskChange staff.svc env staff.owner cmd intent depends_on) := by
  have hauthorized := authorize_ok operators staff.owns (by simp [operators])
    (some intent.scope.subject_id) (by simp [hscope])
  refine can_do (fun env cmd => ⟨staff.owner, cmd, "task.register",
      [("intent", intent.toJson), ("depends_on", texts depends_on)],
      registerTaskChange staff.svc env staff.owner cmd intent depends_on, false, none⟩)
    h.run (h.tenant.trans staff.owns.tenant.symm) (h.revision ▸ hroom) staff.fits ?_ (fun _ => rfl)
    (fun _ _ => ⟨rfl, rfl⟩) (fun _ _ => ⟨rfl, rfl⟩) (fun _ _ => rfl) ?_
  · intro env cmd _
    simp only [Call.prepare, inTransaction, registerTask, hauthorized, bind, Except.bind]
    rfl
  · intro env cmd hfresh _
    exact registerTaskChange_total (kept_of_run h.run w rfl).tasks hsize (hfresh.tasks "task")
      hnodup hparents

variable (time) in
theorem can_evaluate (h : Open staff steps w n) (hroom : n < 5000) {t : Identifier}
    {task : Models.Task} (ht : w.tasks.get? t = some task)
    (hscope : task.intent.scope.subject_id = staff.subject_id) (reconsider : Bool) :
    Does staff time steps w (fun cmd => .evaluate staff.reviewer cmd t reconsider)
      (fun env cmd => evaluateChange staff.svc env staff.reviewer cmd t reconsider) := by
  have hsubject : task.intent.scope.subject_id ∈ staff.reviewer.subjects :=
    hscope ▸ staff.reviews.subject
  have hauthorized := authorize_ok
    (if reconsider then [.reviewer] else operators ++ [.reviewer]) staff.reviews
    (by cases reconsider <;> simp) none (by simp)
  have hfind : findTask w staff.reviewer t = .ok task := bind_eq_ok.mpr ⟨task, fetch_eq_ok.mpr ht,
    bind_eq_ok.mpr ⟨(), ensure_eq_ok.mpr hsubject, rfl⟩⟩
  refine can_do (fun env cmd => ⟨staff.reviewer, cmd,
      if reconsider then "task.reconsider" else "task.evaluate", [("task_id", .str t)],
      evaluateChange staff.svc env staff.reviewer cmd t reconsider, false, none⟩)
    h.run (h.tenant.trans staff.reviews.tenant.symm) (h.revision ▸ hroom) staff.fits ?_ (fun _ => rfl)
    (fun _ _ => ⟨rfl, rfl⟩) (fun _ _ => ⟨rfl, rfl⟩) ?_ ?_
  · intro env cmd _
    simp only [Call.prepare, inTransaction, evaluate, hauthorized, bind, Except.bind]
    rfl
  · intro _ _
    cases reconsider <;> simp [recheckScopes, payloadText, List.lookup_cons, hfind, bind, Except.bind]
  · intro env cmd _ _
    exact evaluateChange_total (kept_of_run h.run w rfl).tasks ht hsubject

variable (time) in
theorem can_openCase (h : Open staff steps w n) (hroom : n < 5000) {scope : Scope}
    (hscope : scope.subject_id = staff.subject_id) (kind : RiskKind) (evidence_digest : Digest)
    (hsize : w.cases.size < 500) :
    Does staff time steps w (fun cmd => .openCase staff.owner cmd scope kind evidence_digest)
      (fun env _ => openCaseChange staff.svc env staff.owner scope kind evidence_digest) := by
  have hauthorized := authorize_ok operators staff.owns (by simp [operators])
    (some scope.subject_id) (by simp [hscope])
  refine can_do (fun env cmd => ⟨staff.owner, cmd, "case.open",
      [("scope", scope.toJson), ("kind", .str kind.text), ("evidence_digest", .str evidence_digest)],
      openCaseChange staff.svc env staff.owner scope kind evidence_digest, false, none⟩)
    h.run (h.tenant.trans staff.owns.tenant.symm) (h.revision ▸ hroom) staff.fits ?_
    (fun _ => rfl) (fun _ _ => ⟨rfl, rfl⟩) (fun _ _ => ⟨rfl, rfl⟩) (fun _ _ => rfl) ?_
  · intro env cmd _
    simp only [Call.prepare, inTransaction, openCase, hauthorized, bind, Except.bind]
    rfl
  · intro env cmd _ _
    exact openCaseChange_total (kept_of_run h.run w rfl).filed (Or.inl staff.desk) hsize

/-- What makes a case ready for the review of its reports. -/
structure Reviewable (staff : Staff) (w : Workspace) (case_id : Identifier) (case : RiskCase) :
    Prop where
  stored : w.cases.get? case_id = some case
  subject : case.scope.subject_id = staff.subject_id
  opened : case.status = .opened
  free : ¬ HasObligations w case_id

variable (time) in
theorem can_investigate (h : Open staff steps w n) (hroom : n < 5000) {case_id : Identifier}
    {case : RiskCase} (hc : Reviewable staff w case_id case) (hstored : ∃ t ∈ steps, t.post = some w)
    (hnoattempts : ∀ actor cmd, w.artifacts.get? (attemptId actor cmd) = none) :
    Does staff time steps w
      (fun cmd => .investigate staff.investigator cmd case_id w .deterministic)
      (fun env cmd state seq => do
        let basis ← investigationBasis w case_id
        let report ← draftReport env staff.investigator case_id w ⟨case, basis, none⟩ .deterministic
        investigateChange staff.svc env staff.investigator cmd case_id report none false state seq) := by
  have hkept := kept_of_run h.run w rfl
  have hvalid := validateWorkspace_ok hkept.toShaped (coherent_of_run h.run w rfl)
  have hsubject : case.scope.subject_id ∈ staff.investigator.subjects :=
    hc.subject ▸ staff.investigates.subject
  have htenant := h.tenant.trans staff.investigates.tenant.symm
  obtain ⟨env, hfresh, hclock⟩ := exists_environment w time
  obtain ⟨cmd, _, hrevision, hnew⟩ := exists_command w staff.investigator "session"
  obtain ⟨basis, hbasis, hopened⟩ := openInvestigation_total staff.svc env cmd hkept hvalid
    staff.investigates.role htenant hc.stored hsubject hc.opened staff.desk hc.free hnew (hnoattempts _ _) hrevision.symm
  obtain ⟨report, hreport⟩ := draftReport_total env staff.investigator
    basis .deterministic hkept hc.stored
  obtain ⟨⟨m, result⟩, hm⟩ := investigateChange_total staff.svc env
    staff.investigator cmd (w.revision + 1) report hc.stored
  let tx : Transaction := ⟨staff.investigator, cmd, "case.investigate", [("case_id", .str case_id)],
    investigateChange staff.svc env staff.investigator cmd case_id report none false, false,
    some (case_id, basis)⟩
  have hprepared : (Call.investigate staff.investigator cmd case_id w .deterministic).prepare
      staff.svc env = .ok (.transaction tx) := by
    simp only [Call.prepare, investigate, hopened, hreport, bind, Except.bind]
    rfl
  have hadmit : preconditions w tx = .ok () := by
    have hlt : w.revision < 5000 := h.revision ▸ hroom
    have hhas : w.cases.Has case_id := by simp [Dict.Has, hc.stored]
    simp [preconditions, tx, hhas, hbasis, hlt, ensure, bind, Except.bind]
  have hscopes : recheckScopes w tx = .ok () := by
    simp [recheckScopes, tx, payloadText, List.lookup_cons, findCase_total hc.stored hsubject, bind,
      Except.bind, pure, Except.pure]
  obtain ⟨s, rfl, hs⟩ := goes_of_admitted h.run
    ⟨hprepared, rfl, htenant, hscopes, hnew, hadmit, hfresh⟩ hm staff.fits hclock
    (grounded_of_observed rfl rfl hstored)
  refine ⟨cmd, s, m, result, hs, hfresh, ?_⟩
  exact bind_eq_ok.mpr ⟨basis, hbasis, bind_eq_ok.mpr ⟨report, hreport, hm⟩⟩

/-- A report of the case by the investigator that nothing has outdated. -/
structure Reported (staff : Staff) (w : Workspace) (case : RiskCase) (report : Report) : Prop where
  stored : w.reports.get? report.report_id = some report
  case_id : report.case_id = case.case_id
  version : report.case_version = case.version
  basis : investigationBasis w case.case_id = .ok report.basis_hash
  inspected : inspections report = []
  investigator : report.investigator_id = staff.investigator.actor_id

omit [CollisionFree] in
theorem Reported.valid {env : Environment} {case : RiskCase} {report : Report}
    (h : Reported staff w case report) (hc : Reviewable staff w case.case_id case) :
    validReport staff.svc env w case report.report_id = .ok report :=
  validReport_total h.stored h.case_id h.version hc.opened h.basis staff.desk h.inspected hc.free

variable (time) in
theorem can_handoff (h : Open staff steps w n) (hroom : n < 5000) {case : RiskCase}
    {report : Report} (hc : Reviewable staff w case.case_id case)
    (hr : Reported staff w case report) (hopener : case.opened_by = staff.owner.actor_id) :
    Does staff time steps w
      (fun cmd => .handoff staff.investigator cmd case.case_id report.report_id
        staff.reviewer.actor_id)
      (fun env _ => handoffChange staff.svc env staff.investigator case.case_id report.report_id
        staff.reviewer.actor_id) := by
  have hsubject : case.scope.subject_id ∈ staff.investigator.subjects :=
    hc.subject ▸ staff.investigates.subject
  have hauthorized := authorize_ok [.investigator] staff.investigates (by simp) none
    (by simp)
  have hindependent : Independent staff.investigator case staff.reviewer := by
    refine ⟨staff.reviews.tenant.trans staff.investigates.tenant.symm, staff.reviews.role,
      hc.subject ▸ staff.reviews.subject, staff.independent, ?_⟩
    rw [hopener]
    exact staff.apart
  refine can_do (fun env cmd => ⟨staff.investigator, cmd, "case.handoff",
      [("case_id", .str case.case_id), ("report_id", .str report.report_id),
        ("reviewer_id", .str staff.reviewer.actor_id)],
      handoffChange staff.svc env staff.investigator case.case_id report.report_id
        staff.reviewer.actor_id, false, none⟩)
    h.run (h.tenant.trans staff.investigates.tenant.symm) (h.revision ▸ hroom) staff.fits ?_
    (fun _ => rfl) (fun _ _ => ⟨rfl, rfl⟩) (fun _ _ => ⟨rfl, rfl⟩) ?_ ?_
  · intro env cmd _
    simp only [Call.prepare, inTransaction, handoff, hauthorized, bind, Except.bind]
    rfl
  · intro _ _
    simp [recheckScopes, payloadText, List.lookup_cons, findCase_total hc.stored hsubject, bind,
      Except.bind, pure, Except.pure]
  · intro env cmd _ _
    exact handoffChange_total (w.revision + 1) hc.stored hsubject (hr.valid hc) staff.known
      hindependent hr.investigator

variable (time) in
theorem can_accept (h : Open staff steps w n) (hroom : n < 5000) {case : RiskCase}
    {report : Report} {handoff : Handoff} (hc : Reviewable staff w case.case_id case)
    (hr : Reported staff w case report)
    (hh : w.handoffs.get? handoff.handoff_id = some handoff)
    (hcase : handoff.case_id = case.case_id) (hreport : handoff.report_id = report.report_id)
    (hversion : handoff.case_version = case.version)
    (hreviewer : handoff.reviewer_id = staff.reviewer.actor_id) :
    Does staff time steps w (fun cmd => .acceptHandoff staff.reviewer cmd handoff.handoff_id)
      (fun env _ => acceptHandoffChange staff.svc env staff.reviewer handoff.handoff_id) := by
  have hsubject : case.scope.subject_id ∈ staff.reviewer.subjects :=
    hc.subject ▸ staff.reviews.subject
  have hauthorized := authorize_ok [.reviewer] staff.reviews (by simp) none (by simp)
  have hfind : findCase w staff.reviewer handoff.case_id = .ok case := by
    rw [hcase]
    exact findCase_total hc.stored hsubject
  refine can_do (fun env cmd => ⟨staff.reviewer, cmd, "handoff.accept",
      [("handoff_id", .str handoff.handoff_id)],
      acceptHandoffChange staff.svc env staff.reviewer handoff.handoff_id, false, none⟩)
    h.run (h.tenant.trans staff.reviews.tenant.symm) (h.revision ▸ hroom) staff.fits ?_
    (fun _ => rfl) (fun _ _ => ⟨rfl, rfl⟩) (fun _ _ => ⟨rfl, rfl⟩) ?_ ?_
  · intro env cmd _
    simp only [Call.prepare, inTransaction, acceptHandoff, hauthorized, bind, Except.bind]
    rfl
  · intro _ _
    simp [recheckScopes, payloadText, List.lookup_cons, fetch, hh, hreviewer, hfind, ensure, bind,
      Except.bind, pure, Except.pure]
  · intro env cmd _ _
    have hvalid : validReport staff.svc env w case handoff.report_id = .ok report := by
      rw [hreport]
      exact hr.valid hc
    exact acceptHandoffChange_total (w.revision + 1) hh hreviewer (hcase ▸ hc.stored) hsubject
      hvalid hversion

variable (time) in
theorem can_resolve (h : Open staff steps w n) (hroom : n < 5000) {case : RiskCase}
    {report : Report} {handoff : Handoff} (hc : Reviewable staff w case.case_id case)
    (hr : Reported staff w case report)
    (hh : w.handoffs.get? handoff.handoff_id = some handoff)
    (hack : Acknowledged staff.reviewer case.case_id case handoff)
    (hreport : handoff.report_id = report.report_id)
    (hversion : handoff.case_version = case.version) (resolution : Resolution)
    (evidence_digest : Digest) :
    Does staff time steps w
      (fun cmd => .resolve staff.reviewer cmd case.case_id handoff.handoff_id resolution
        evidence_digest)
      (fun env _ => resolveChange staff.svc env staff.reviewer case.case_id handoff.handoff_id
        resolution evidence_digest) := by
  have hsubject : case.scope.subject_id ∈ staff.reviewer.subjects :=
    hc.subject ▸ staff.reviews.subject
  have hauthorized := authorize_ok [.reviewer] staff.reviews (by simp) none (by simp)
  refine can_do (fun env cmd => ⟨staff.reviewer, cmd, "case.resolve",
      [("case_id", .str case.case_id), ("handoff_id", .str handoff.handoff_id),
        ("resolution", .str resolution.text), ("evidence_digest", .str evidence_digest)],
      resolveChange staff.svc env staff.reviewer case.case_id handoff.handoff_id resolution
        evidence_digest, false, none⟩)
    h.run (h.tenant.trans staff.reviews.tenant.symm) (h.revision ▸ hroom) staff.fits ?_
    (fun _ => rfl) (fun _ _ => ⟨rfl, rfl⟩) (fun _ _ => ⟨rfl, rfl⟩) ?_ ?_
  · intro env cmd _
    simp only [Call.prepare, inTransaction, resolve, hauthorized, bind, Except.bind]
    rfl
  · intro _ _
    simp [recheckScopes, payloadText, List.lookup_cons, findCase_total hc.stored hsubject, bind,
      Except.bind, pure, Except.pure]
  · intro env cmd _ _
    have hvalid : validReport staff.svc env w case handoff.report_id = .ok report := by
      rw [hreport]
      exact hr.valid hc
    exact resolveChange_total (kept_of_run h.run w rfl) (coherent_of_run h.run w rfl) hc.stored
      hsubject hh hack hvalid hversion
      (fun desk hdesk => absurd (staff.desk.symm.trans hdesk) (by simp))
      (fun _ _ _ => by simp only [staff.desk, deskRemembers]; exact ⟨_, rfl⟩)

end Staffing

end MemoryGuard.Staffing
