import MemoryGuard.Sourcing

/-!
A review is never in its own way. The handoff of a report and its acceptance
touch neither the report nor what it rests on, so until a receipt of its bundle
expires the report stands at every step up to the resolution.
-/
namespace MemoryGuard.ReviewPath

open OrderedDict Guarded DependencyGraph JsonText ContentHash Models Artifacts Aggregate Core
open Closure Policy SourceModels SourceState SourceGuard SourceService Transactions TaskCommands
open CaseCommands Traces Calls Filing Floors EvidenceEffects TaskEffects CaseEffects Effects
open Growth Upkeep Lifecycle History Standing Integrity Heads Grounds Bundles Progress
open LastingReports
open Completion (HandedTo)

variable [Sha256] {w m : Workspace} {case_id : Identifier}

section Reviewing

variable [CollisionFree] {steps : List Step} {s : Step} {snapshot : Workspace} {actor : Actor}
  {cmd : Command} {planning : Planning} {svc : Service} {env : Environment}

omit [CollisionFree] in
/-- Nothing was committed between the reading of an investigation and its end but
its own claim. -/
def Undisturbed (steps : List Step) (s : Step) (actor : Actor) (cmd : Command)
    (case_id : Identifier) (snapshot : Workspace) : Prop :=
  s.pre = some snapshot ∨ ∃ t ∈ steps, t.call = .reserveAttempt actor cmd case_id snapshot ∧
    t.pre = some snapshot ∧ t.post = s.pre

omit [CollisionFree] in
theorem quiet_recorded {tx : Transaction} {result : Result} {w' : Workspace} (h : Quiet w m) :
    Quiet w (recorded env w' m tx result) :=
  ⟨h.tenant, h.tasks, h.decisions, h.baselines, h.cases, h.logs.case_history,
    h.logs.baseline_history, h.logs.lessons⟩

theorem sameFile_of_undisturbed (hrun : Run casework steps s.pre) (hpre : s.pre = some w)
    (h : Undisturbed steps s actor cmd case_id snapshot) (id : Identifier) :
    SameFile snapshot w id ∧ ∃ before, Run casework before (some snapshot) := by
  rcases h with hsame | ⟨t, ht, hcall, htpre, htpost⟩
  · have heq : w = snapshot := Option.some.inj (hpre.symm.trans hsame)
    subst heq
    exact ⟨.refl w id, steps, hpre ▸ hrun⟩
  · obtain ⟨before, after, rfl⟩ := List.append_of_mem ht
    obtain ⟨hran, hnow, _⟩ := hrun.at_step
    have hread : Run casework before (some snapshot) := htpre ▸ hran
    refine ⟨?_, before, hread⟩
    rcases between_cases hran hnow htpre (htpost.trans hpre) with rfl | ⟨tx, m, result, ho, rfl⟩
    · exact .refl w id
    · have hp := ho.commits.prepared
      rw [hcall] at hp
      rcases reserveAttempt_ok hp with ⟨_, hanswered, _⟩ | ⟨basis, command, payload, relevant, htx⟩
      · cases hanswered
      · cases htx
        have hfile := reserveAttemptChange_file (snapshot.revision + 1)
          (kept_of_run hread snapshot rfl).filed ho.commits.changed id
        have hquiet : Quiet m m := ⟨rfl, rfl, rfl, rfl, rfl, ⟨rfl, rfl, rfl⟩⟩
        exact hfile.trans (.of_quiet (quiet_recorded hquiet) rfl)

/-- A review under way: a report that stands, and the investigator who made it. -/
structure Review (desk : Option EvidenceDesk) (since : Instant) (steps : List Step) (w : Workspace)
    (actor : Actor) (case : RiskCase) (report : Report) (external : Option EvidenceContext) : Prop
    extends Lasting desk since w case report external where
  run : Run casework steps (some w)
  tenant : w.tenant_id = actor.tenant_id
  role : actor.role = .investigator
  subject : case.scope.subject_id ∈ actor.subjects
  owner : report.investigator_id = actor.actor_id
  bundled : ∀ v ∈ external, w.artifacts.get? (reportSourcesKey report.report_id) =
    some (.reportBundle (bundleOf report v))

theorem review_of_investigate (hrun : Run casework (steps ++ [s]) (some w))
    (hcall : s.call = .investigate actor cmd case_id snapshot planning) (hcommitted : s.Committed)
    (halone : Undisturbed steps s actor cmd case_id snapshot) :
    ∃ case report next external, s.response.result = .investigated report next ∧
      case.case_id = case_id ∧ snapshot.cases.get? case_id = some case ∧
      (∀ desk, s.svc.evidence_desk = some desk →
        reportContext desk snapshot case_id (s.env.clock .external) = .ok external) ∧
      Review s.svc.evidence_desk (s.env.clock .external) (steps ++ [s]) w actor case report
        external := by
  obtain ⟨hran, hnow, hw⟩ := hrun.snoc
  have hran : Run casework steps s.pre := hran
  have hnow : Allowed steps s := hnow
  have hw : some w = s.post := hw
  rcases step_cases hran hnow with ⟨_, w0, tx, m, result, hh⟩ | ⟨hno, _⟩
  · have hpre : s.pre = some w0 := by
      rcases hh.before with hbefore | ⟨hnone, _⟩
      · exact hbefore
      · rcases halone with hsome | ⟨t, ht, _, htpre, htpost⟩
        · rw [hnone] at hsome
          cases hsome
        · obtain ⟨before, after, rfl⟩ := List.append_of_mem ht
          obtain ⟨htran, htnow, _⟩ := hran.at_step
          obtain ⟨w', hw', _⟩ := step_extends htran htnow snapshot htpre
          rw [htpost, hnone] at hw'
          cases hw'
    obtain ⟨hfile, before, hread⟩ := sameFile_of_undisturbed hran hpre halone case_id
    have hp := hh.commits.prepared
    rw [hcall] at hp
    simp only [Call.prepare, investigate, bind_eq_ok] at hp
    obtain ⟨opened, hopened, hp⟩ := hp
    cases opened with
    | inl response => simp only [pure_eq_ok, reduceCtorEq] at hp
    | inr inquiry =>
      simp only [bind_eq_ok, pure_eq_ok, Prepared.transaction.injEq] at hp
      obtain ⟨report, hdrafted, rfl⟩ := hp
      have hcaptured := openInvestigation_ok hopened
      have hcleared := openInvestigation_cleared hopened
      have hsnapshot := (kept_of_run hread snapshot rfl).toShaped
      obtain ⟨hlasting, ⟨next, rfl⟩, hbundle⟩ := investigateChange_lasting (w0.revision + 1)
        hsnapshot hcaptured hcleared hdrafted hfile hh.kept.archived (hh.fresh.reports _) hh.commits.changed
      rw [hh.commits.post] at hw
      cases hw
      refine ⟨inquiry.case, report, next, inquiry.external, ?_, hsnapshot.cases _ _ hcaptured.case,
        hcaptured.case, hcaptured.external, ?_, hrun, ?_, hcleared.role, hcleared.subject,
        (draftReport_ok hdrafted).2.2.2.1, hbundle⟩
      · rw [hh.commits.response]
        rfl
      · exact hlasting.later (quiet_recorded ⟨rfl, rfl, rfl, rfl, rfl, ⟨rfl, rfl, rfl⟩⟩) rfl rfl
      · exact (happened_grows hh).tenant.trans hh.commits.tenant
  · exact absurd hcommitted hno

/-- A new request of an actor on the current revision, made in time to a service with
the desk of the review. -/
structure OnTime (desk : Option EvidenceDesk) (since : Instant) (w : Workspace) (report : Report)
    (svc : Service) (env : Environment) (actor : Actor) (cmd : Command) : Prop where
  desk : svc.evidence_desk = desk
  fresh : Fresh env w
  new : w.idempotency.get? (idempotencyKey actor.actor_id cmd.idempotency_key) = none
  revision : cmd.expected_revision = w.revision
  since : ∀ reading, since ≤ env.clock reading
  live : ∀ b, w.artifacts.get? (reportSourcesKey report.report_id) = some (.reportBundle b) →
    ∀ r ∈ b.bundle.receipts, ∀ reading, env.clock reading < r.expires_at

variable {desk : Option EvidenceDesk} {since : Instant} {case : RiskCase} {report : Report}
  {external : Option EvidenceContext} {reviewer : Actor}

omit [CollisionFree] in
theorem Review.inTime {asker : Actor} (h : Review desk since steps w actor case report external)
    (hask : OnTime desk since w report svc env asker cmd) (reading : Reading) :
    InTime since external (env.clock reading) :=
  ⟨hask.since reading, fun v hv r hr => hask.live _ (h.bundled v hv) r hr reading⟩

omit [CollisionFree] in
/-- The review goes on after a request that only moves handoffs. -/
theorem Review.next {call : Call} {tx : Transaction} {result : Result}
    {handoffs : Dict Identifier Handoff} (h : Review desk since steps w actor case report external)
    (hrun : Run casework (steps ++ [committing svc env call (some w) tx w
      { w with handoffs := handoffs } result])
      (some (recorded env w { w with handoffs := handoffs } tx result))) :
    Review desk since (steps ++ [committing svc env call (some w) tx w
      { w with handoffs := handoffs } result])
      (recorded env w { w with handoffs := handoffs } tx result) actor case report external :=
  ⟨h.toLasting.later (quiet_recorded ⟨rfl, rfl, rfl, rfl, rfl, ⟨rfl, rfl, rfl⟩⟩) rfl rfl, hrun,
    h.tenant, h.role, h.subject, h.owner, h.bundled⟩

/-- A call that is carried out unless the store is full, and what it leads to. -/
def Succeeds (svc : Service) (env : Environment) (w : Workspace) (call : Call)
    (P : Workspace → Result → Prop) : Prop :=
  exec svc env (some w) call ≠ .error full →
    ∃ m response, exec svc env (some w) call = .ok (some m, response) ∧
      response.replayed = false ∧ P m response.result

/-- A call on the current revision whose change is this one and succeeds. -/
def Ready (svc : Service) (env : Environment) (w : Workspace) (call : Call) (change : Change) :
    Prop :=
  ∃ tx, tx.change = change ∧ Asks svc env call tx w ∧ ∃ r, change w (w.revision + 1) = .ok r

theorem Ready.succeeds {call : Call} {change : Change} {P : Workspace → Result → Prop}
    (h : Ready svc env w call change) (hrun : Run casework steps (some w))
    (hgrounded : Grounded steps svc call)
    (hP : ∀ tx m result, tx.change = change → change w (w.revision + 1) = .ok (m, result) →
      Run casework (steps ++ [committing svc env call (some w) tx w m result])
        (some (recorded env w m tx result)) →
      Happened (committing svc env call (some w) tx w m result) w tx m result →
      P (recorded env w m tx result) result) : Succeeds svc env w call P := by
  intro hroom
  obtain ⟨tx, rfl, hasks, hchange⟩ := h
  obtain ⟨m, result, hm, hexec, hnext, hh⟩ := exec_commits hrun hasks hgrounded hchange hroom
  exact ⟨_, _, hexec, rfl, hP tx m result rfl hm hnext hh⟩

theorem Ready.room {call : Call} {change : Change} (h : Ready svc env w call change)
    (hrun : Run casework steps (some w)) (hlimit : w.revision < 5000)
    (hfits : ∀ w, svc.fits w = true) : exec svc env (some w) call ≠ .error full := by
  obtain ⟨tx, rfl, hasks, hchange⟩ := h
  exact room_of_fits hrun hasks hlimit hfits hchange

omit [CollisionFree] in
theorem handoff_ready (h : Review desk since steps w actor case report external)
    (hask : OnTime desk since w report svc env actor cmd)
    (hknown : svc.actors.get? reviewer.actor_id = some reviewer)
    (hindependent : Independent actor case reviewer) :
    Ready svc env w (.handoff actor cmd case.case_id report.report_id reviewer.actor_id)
      (handoffChange svc env actor case.case_id report.report_id reviewer.actor_id) := by
  have hauthorized : authorize actor [.investigator] none = .ok () := by
    simp [authorize, h.role]
  have hvalid := h.valid hask.desk (h.inTime hask .report)
  refine ⟨⟨actor, cmd, "case.handoff", [("case_id", .str case.case_id),
    ("report_id", .str report.report_id), ("reviewer_id", .str reviewer.actor_id)], _, false, none⟩,
    rfl, ⟨?_, h.tenant, ?_, hask.new, ⟨rfl, rfl⟩, hask.revision.symm, hask.fresh⟩, ?_⟩
  · simp only [Call.prepare, inTransaction, handoff, hauthorized, bind, Except.bind]
    rfl
  · simp [recheckScopes, payloadText, List.lookup_cons, findCase_total h.stored h.subject, bind,
      Except.bind, pure, Except.pure]
  · exact handoffChange_total (w.revision + 1) h.stored h.subject hvalid hknown hindependent
      h.owner

theorem handoff_goes (h : Review desk since steps w actor case report external)
    (hask : OnTime desk since w report svc env actor cmd)
    (hknown : svc.actors.get? reviewer.actor_id = some reviewer)
    (hindependent : Independent actor case reviewer) :
    Succeeds svc env w (.handoff actor cmd case.case_id report.report_id reviewer.actor_id)
      (fun m result => ∃ handoff steps, result = .handedOff handoff ∧
        m.revision = w.revision + 1 ∧ m.cases = w.cases ∧
        Review desk since steps m actor case report external ∧
        HandedTo m actor reviewer case report handoff) := by
  have hvalid := h.valid hask.desk (h.inTime hask .report)
  refine (handoff_ready h hask hknown hindependent).succeeds h.run (grounded_of_standalone rfl) ?_
  intro tx m result _ hm hnext _
  simp only [handoffChange, findCase_total h.stored h.subject, hvalid, bind_eq_ok, fetch_eq_ok,
    ensure_eq_ok, pure_eq_ok, Prod.mk.injEq, Except.ok.injEq, exists_eq_left'] at hm
  obtain ⟨known, hreviewer, _, _, _, _, rfl, rfl⟩ := hm
  have hsame : known = reviewer := Option.some.inj (hreviewer.symm.trans hknown)
  subst hsame
  refine ⟨_, _, rfl, rfl, rfl, h.next hnext, ?_⟩
  exact ⟨Dict.get?_set_self .., rfl, rfl, rfl, rfl, rfl⟩

omit [CollisionFree] in
theorem accept_ready {handoff : Handoff} (h : Review desk since steps w actor case report external)
    (hask : OnTime desk since w report svc env reviewer cmd)
    (hindependent : Independent actor case reviewer)
    (hhanded : HandedTo w actor reviewer case report handoff) :
    Ready svc env w (.acceptHandoff reviewer cmd handoff.handoff_id)
      (acceptHandoffChange svc env reviewer handoff.handoff_id) := by
  obtain ⟨htenant, hrole, hsubject, _, _⟩ := hindependent
  have hauthorized : authorize reviewer [.reviewer] none = .ok () := by
    simp [authorize, hrole]
  have hvalid := h.valid hask.desk (h.inTime hask .report)
  have hstored : w.cases.get? handoff.case_id = some case := by
    rw [hhanded.case_id, h.stored]
  rw [← hhanded.report_id] at hvalid
  refine ⟨⟨reviewer, cmd, "handoff.accept", [("handoff_id", .str handoff.handoff_id)], _, false,
    none⟩, rfl, ⟨?_, h.tenant.trans htenant.symm, ?_, hask.new, ⟨rfl, rfl⟩, hask.revision.symm,
    hask.fresh⟩, ?_⟩
  · simp only [Call.prepare, inTransaction, acceptHandoff, hauthorized, bind, Except.bind]
    rfl
  · simp [recheckScopes, payloadText, List.lookup_cons, fetch, hhanded.stored, hhanded.reviewer,
      findCase_total hstored hsubject, ensure, bind, Except.bind, pure, Except.pure]
  · exact acceptHandoffChange_total (w.revision + 1) hhanded.stored hhanded.reviewer hstored
      hsubject hvalid hhanded.version

theorem accept_goes {handoff : Handoff} (h : Review desk since steps w actor case report external)
    (hask : OnTime desk since w report svc env reviewer cmd)
    (hindependent : Independent actor case reviewer)
    (hhanded : HandedTo w actor reviewer case report handoff) :
    Succeeds svc env w (.acceptHandoff reviewer cmd handoff.handoff_id)
      (fun m result => ∃ steps, result = .handoffAccepted { handoff with accepted := true } ∧
        m.revision = w.revision + 1 ∧ m.cases = w.cases ∧
        Review desk since steps m actor case report external ∧
        HandedTo m actor reviewer case report { handoff with accepted := true }) := by
  refine (accept_ready h hask hindependent hhanded).succeeds h.run (grounded_of_standalone rfl) ?_
  intro tx m result _ hm hnext _
  simp only [acceptHandoffChange, bind_eq_ok, fetch_eq_ok, pure_eq_ok, Prod.mk.injEq] at hm
  obtain ⟨known, hknown, _, _, _, _, _, _, _, _, rfl, rfl⟩ := hm
  have hsame : known = handoff := Option.some.inj (hknown.symm.trans hhanded.stored)
  subst hsame
  refine ⟨_, rfl, rfl, rfl, h.next hnext, ?_⟩
  exact ⟨Dict.get?_set_self .., hhanded.case_id, hhanded.report_id, hhanded.version,
    hhanded.reviewer, hhanded.investigator⟩

theorem resolve_ready {handoff : Handoff} {evidence_digest : Digest} (resolution : Resolution)
    (h : Review desk since steps w actor case report external)
    (hask : OnTime desk since w report svc env reviewer cmd)
    (hindependent : Independent actor case reviewer)
    (hhanded : HandedTo w actor reviewer case report handoff) (haccepted : handoff.accepted = true)
    (hdigest : ∀ b, w.artifacts.get? (reportSourcesKey report.report_id) =
      some (.reportBundle b) → evidence_digest = b.bundle.bundle_root) :
    Ready svc env w
      (.resolve reviewer cmd case.case_id handoff.handoff_id resolution evidence_digest)
      (resolveChange svc env reviewer case.case_id handoff.handoff_id resolution
        evidence_digest) := by
  obtain ⟨htenant, hrole, hsubject, hother, hopener⟩ := hindependent
  have hauthorized : authorize reviewer [.reviewer] none = .ok () := by
    simp [authorize, hrole]
  have hvalid := h.valid hask.desk (h.inTime hask .report)
  have hkept := kept_of_run h.run w rfl
  have hdigest : ∀ v ∈ external, evidence_digest = v.bundle_root :=
    fun v hv => hdigest _ (h.bundled v hv)
  have hack : Acknowledged reviewer case.case_id case handoff :=
    ⟨hhanded.case_id, haccepted, hhanded.reviewer, hopener, hhanded.investigator ▸ hother⟩
  rw [← hhanded.report_id] at hvalid
  refine ⟨⟨reviewer, cmd, "case.resolve", [("case_id", .str case.case_id),
    ("handoff_id", .str handoff.handoff_id), ("resolution", .str resolution.text),
    ("evidence_digest", .str evidence_digest)], _, false, none⟩, rfl,
    ⟨?_, h.tenant.trans htenant.symm, ?_, hask.new, ⟨rfl, rfl⟩, hask.revision.symm, hask.fresh⟩, ?_⟩
  · simp only [Call.prepare, inTransaction, resolve, hauthorized, bind, Except.bind]
    rfl
  · simp [recheckScopes, payloadText, List.lookup_cons, findCase_total h.stored hsubject, bind,
      Except.bind, pure, Except.pure]
  · exact resolveChange_total hkept (coherent_of_run h.run w rfl) h.stored hsubject
      hhanded.stored hack hvalid hhanded.version
      (fun d hd => h.resolution (hask.desk.symm.trans hd) (h.inTime hask .resolution) hdigest)
      (fun past start hlinked => hask.desk ▸ h.remembers hkept.filed (h.inTime hask .resolution)
        hlinked rfl rfl)

theorem resolve_goes {handoff : Handoff} {resolution : Resolution} {evidence_digest : Digest}
    (h : Review desk since steps w actor case report external)
    (hask : OnTime desk since w report svc env reviewer cmd)
    (hindependent : Independent actor case reviewer)
    (hhanded : HandedTo w actor reviewer case report handoff) (haccepted : handoff.accepted = true)
    (hdigest : ∀ b, w.artifacts.get? (reportSourcesKey report.report_id) =
      some (.reportBundle b) → evidence_digest = b.bundle.bundle_root) :
    Succeeds svc env w
      (.resolve reviewer cmd case.case_id handoff.handoff_id resolution evidence_digest)
      (fun m _ => ∃ c, m.cases.get? case.case_id = some c ∧ c.status = .resolved ∧
        c.version = case.version + 1) := by
  refine (resolve_ready resolution h hask hindependent hhanded haccepted hdigest).succeeds h.run
    (grounded_of_standalone rfl) ?_
  intro tx m result _ _ _ hh
  have heffect : Effect svc env w
    (.resolve reviewer cmd case.case_id handoff.handoff_id resolution evidence_digest) m result :=
    hh.effect
  cases heffect with
  | filed plain _ _ => exact absurd plain id
  | resolved _ resolves =>
    obtain ⟨start, _, hwrites⟩ := resolves.writes
    have hsame := Option.some.inj (resolves.known.symm.trans h.stored)
    subst hsame
    refine ⟨resolvedCase _ resolution reviewer.actor_id (w.revision + 1), ?_, rfl, rfl⟩
    change m.cases.get? _ = _
    rw [hwrites.cases]
    exact Dict.get?_set_self ..

/-- A handoff of a report to an eligible reviewer, its acceptance and the resolution
of the case go through when nothing else comes in between. -/
def ReviewSucceeds (desk : Option EvidenceDesk) (since : Instant) (w : Workspace) (actor : Actor)
    (case : RiskCase) (report : Report) : Prop :=
  ∀ svc env cmd reviewer, OnTime desk since w report svc env actor cmd →
    svc.actors.get? reviewer.actor_id = some reviewer → Independent actor case reviewer →
    Succeeds svc env w (.handoff actor cmd case.case_id report.report_id reviewer.actor_id)
      fun w1 result => ∃ handoff, result = .handedOff handoff ∧
        ∀ svc env cmd, OnTime desk since w1 report svc env reviewer cmd →
          Succeeds svc env w1 (.acceptHandoff reviewer cmd handoff.handoff_id) fun w2 _ =>
            ∀ svc env cmd resolution evidence_digest,
              OnTime desk since w2 report svc env reviewer cmd →
              (∀ b, w2.artifacts.get? (reportSourcesKey report.report_id) = some (.reportBundle b) →
                evidence_digest = b.bundle.bundle_root) →
              Succeeds svc env w2
                (.resolve reviewer cmd case.case_id handoff.handoff_id resolution evidence_digest)
                fun w3 _ => ∃ c, w3.cases.get? case.case_id = some c ∧ c.status = .resolved

theorem Review.succeeds (h : Review desk since steps w actor case report external) :
    ReviewSucceeds desk since w actor case report := by
  intro svc env cmd reviewer hask hknown hindependent hroom
  obtain ⟨w1, response, hexec, hnew, handoff, steps1, hresult, _, _, h1, hhanded⟩ :=
    handoff_goes h hask hknown hindependent hroom
  refine ⟨w1, response, hexec, hnew, handoff, hresult, ?_⟩
  intro svc env cmd hask hroom
  obtain ⟨w2, response, hexec, hnew, steps2, _, _, _, h2, haccepted⟩ :=
    accept_goes h1 hask hindependent hhanded hroom
  refine ⟨w2, response, hexec, hnew, ?_⟩
  intro svc env cmd resolution evidence_digest hask hdigest hroom
  obtain ⟨w3, response, hexec, hnew, c, hc, hresolved, _⟩ :=
    resolve_goes h2 hask hindependent haccepted rfl hdigest hroom
  exact ⟨w3, response, hexec, hnew, c, hc, hresolved⟩

/-- The report on the evidence of a case starts a review with a bundle. -/
theorem review_of_examined {before after : Workspace} {c : RiskCase} {value : EvidenceContext}
    (h : Sourcing.Examined steps s before after c cmd value) :
    ∃ report next, s.response.result = .investigated report next ∧
      Review (some (Sourcing.desk [Sourcing.demand])) 0 (steps ++ [s]) after Crew.investigator c
        report (some value) := by
  obtain ⟨case, report, next, external, hresult, _, hstored, hexternal, hreview⟩ :=
    review_of_investigate h.run h.call h.committed (Or.inl h.pre)
  have hsame : case = c := Option.some.inj (hstored.symm.trans h.stored)
  subst hsame
  have hcaptured := hexternal (Sourcing.desk [Sourcing.demand]) (by rw [h.service]; rfl)
  rw [h.clock, h.shown] at hcaptured
  have hsome : external = some value := (Except.ok.inj hcaptured).symm
  rw [h.service, h.clock, hsome] at hreview
  exact ⟨report, next, hresult, hreview⟩

end Reviewing

section Closing

open Sourcing Crew

variable [CollisionFree] {steps : List Step} {c : RiskCase} {report : Report}
  {value : EvidenceContext}

/-- Anyone can make a request in time for the review. -/
theorem exists_onTime (actor : Actor)
    (h : Review (some (desk [demand])) 0 steps w investigator c report (some value))
    (hlive : ∀ r ∈ value.receipts, 0 < r.expires_at) :
    ∃ env cmd, OnTime (some (desk [demand])) 0 w report (connected [demand]) env actor cmd := by
  obtain ⟨env, hfresh, hclock⟩ := exists_environment w 0
  obtain ⟨cmd, _, hrevision, hnew⟩ := exists_command w actor "session"
  refine ⟨env, cmd, rfl, hfresh, hnew, hrevision, ?_, ?_⟩
  · intro reading
    rw [hclock]
  · intro b hb r hr reading
    have hsame := (h.bundled value rfl).symm.trans hb
    cases hsame
    rw [hclock]
    exact hlive r hr

/-- The resolution that ends a review, and the workspaces before and after it. -/
structure Concluded (steps : List Step) (s : Step) (before after : Workspace) (c : RiskCase)
    (report : Report) (value : EvidenceContext) : Prop where
  review : Review (some (desk [demand])) 0 steps before investigator c report (some value)
  run : Run casework (steps ++ [s]) (some after)
  committed : s.Committed
  pre : s.pre = some before
  service : s.svc = connected [demand]
  call : ∃ cmd handoff_id, s.call = .resolve reviewer cmd c.case_id handoff_id
    .remediationVerified value.bundle_root
  occurs : ∃ tx m result, Standing.Occurs steps s before tx m result ∧
    after = recorded s.env before m tx result

theorem review_concludes
    (h : Review (some (desk [demand])) 0 steps w investigator c report (some value))
    (hlive : ∀ r ∈ value.receipts, 0 < r.expires_at) (hscope : c.scope = transfers)
    (hopener : reviewer.actor_id ≠ c.opened_by) (hroom : w.revision + 4 < 5000) :
    ∃ steps' s before after, Concluded steps' s before after c report value ∧
      before.revision = w.revision + 2 ∧ before.cases = w.cases := by
  have hindependent : Independent investigator c reviewer :=
    ⟨rfl, rfl, by rw [hscope]; simp [transfers, reviewer], by simp [reviewer, investigator], hopener⟩
  have hknown : (connected [demand]).actors.get? reviewer.actor_id = some reviewer :=
    Dict.get?_set_self ..
  have hfits : ∀ w, (connected [demand]).fits w = true := fun _ => rfl
  obtain ⟨env, cmd, hask⟩ := exists_onTime investigator h hlive
  obtain ⟨w1, _, _, _, handoff, steps1, _, hrevision1, hcases1, h1, hhanded⟩ :=
    handoff_goes h hask hknown hindependent
      ((handoff_ready h hask hknown hindependent).room h.run (by omega) hfits)
  obtain ⟨env1, cmd1, hask1⟩ := exists_onTime reviewer h1 hlive
  obtain ⟨w2, _, _, _, steps2, _, hrevision2, hcases2, h2, haccepted⟩ :=
    accept_goes h1 hask1 hindependent hhanded
      ((accept_ready h1 hask1 hindependent hhanded).room h1.run (by omega) hfits)
  obtain ⟨env2, cmd2, hask2⟩ := exists_onTime reviewer h2 hlive
  have hdigest : ∀ b, w2.artifacts.get? (reportSourcesKey report.report_id) =
      some (.reportBundle b) → value.bundle_root = b.bundle.bundle_root := by
    intro b hb
    have hsame := (h2.bundled value rfl).symm.trans hb
    cases hsame
    rfl
  have hready := resolve_ready .remediationVerified h2 hask2 hindependent haccepted rfl hdigest
  have hgoes := hready.succeeds
    (P := fun m _ => ∃ s, Concluded steps2 s w2 m c report value) h2.run
    (grounded_of_standalone rfl) (by
    intro tx m result _ _ hnext hh
    exact ⟨_, h2, hnext, rfl, rfl, rfl, ⟨cmd2, handoff.handoff_id, rfl⟩, tx, m, result,
      ⟨hh, h2.run, hnext.snoc.2.1⟩, rfl⟩)
  obtain ⟨m, _, _, _, s, hconcluded⟩ := hgoes (hready.room h2.run (by omega) hfits)
  exact ⟨steps2, s, w2, m, hconcluded, by omega, hcases2.trans hcases1⟩

/-- A case that was resolved with the tracker's evidence, and still owes it. -/
structure Settled (steps : List Step) (w : Workspace) (case_id : Identifier) (c : RiskCase) :
    Prop where
  run : Run casework steps (some w)
  tenant : w.tenant_id = "tenant"
  revision : w.revision < 5000
  size : w.cases.size ≤ 1
  stored : w.cases.get? case_id = some c
  resolved : c.status = .resolved
  scope : c.scope = transfers
  owes : (obligations w case_id).configured_policy_required = true

theorem settled_of_concluded {s : Step} {before after : Workspace}
    (h : Concluded steps s before after c report value) (hscope : c.scope = transfers)
    (hrequired : bundleRequires value = true) (hroom : before.revision + 1 < 5000)
    (hsize : before.cases.size ≤ 1) :
    ∃ c', Settled (steps ++ [s]) after c.case_id c' := by
  obtain ⟨tx, m, result, hoccurs, rfl⟩ := h.occurs
  obtain ⟨cmd, handoff_id, hcall⟩ := h.call
  have hh := hoccurs.toHappened
  have hkept : m.artifacts.get? (reportSourcesKey report.report_id) =
      some (.reportBundle (bundleOf report value)) := by
    refine Custody.kept_of_occurs hoccurs (h.review.bundled value rfl) ?_
    rw [hcall]
    change drawer _ ∉ [.hashed "resolution-link", .hashed "source-policy-guard"]
    simp [drawer]
  have heffect := hh.effect
  rw [hcall] at heffect
  cases heffect with
  | filed plain _ _ => exact absurd plain id
  | resolved _ resolves =>
    obtain ⟨start, _, hwrites⟩ := resolves.writes
    have hsame := Option.some.inj (resolves.known.symm.trans h.review.stored)
    subst hsame
    refine ⟨resolvedCase _ .remediationVerified reviewer.actor_id (before.revision + 1), h.run, ?_,
      hroom, ?_, ?_, rfl, hscope, ?_⟩
    · exact (happened_grows hh).tenant.trans h.review.tenant
    · change m.cases.size ≤ 1
      rw [hwrites.cases, Dict.size_set_of_known]
      · exact hsize
      · exact Dict.mem_keys_of_get? h.review.stored
    · change m.cases.get? _ = _
      rw [hwrites.cases]
      exact Dict.get?_set_self ..
    · have hrecent := (kept_of_run h.run _ rfl).recent
      refine (owedTo_le_obligations _ hrecent (Dict.mem_values_of_get? hkept)).2.2 ?_
      rw [owedTo, if_pos]
      · exact hrequired
      · exact congrArg some h.review.about

/-- A review on the tracker's evidence is concluded. -/
theorem exists_concluded : ∃ steps s before after c report value,
    Concluded steps s before after c report value ∧ c.scope = transfers ∧
      bundleRequires value = true ∧ before.revision + 1 < 5000 ∧ before.cases.size ≤ 1 := by
  obtain ⟨steps, s, before, w, c, cmd, value, h⟩ := exists_examined
  obtain ⟨report, _, _, hreview⟩ := review_of_examined h
  have hopener : reviewer.actor_id ≠ c.opened_by := by
    rw [h.opener]
    simp [reviewer, owner]
  obtain ⟨steps', s', before', after, hconcluded, hrevision, hcases⟩ :=
    review_concludes hreview h.live h.scope hopener h.revision
  have hroom := h.revision
  exact ⟨steps', s', before', after, c, report, value, hconcluded, h.scope, h.required, by omega,
    hcases ▸ h.size⟩

/-- Such a case exists. -/
theorem exists_settled : ∃ steps w case_id c, Settled steps w case_id c := by
  obtain ⟨steps, s, before, after, c, report, value, h, hscope, hrequired, hroom, hsize⟩ :=
    exists_concluded
  obtain ⟨c', hsettled⟩ := settled_of_concluded h hscope hrequired hroom hsize
  exact ⟨_, after, _, c', hsettled⟩

end Closing

end MemoryGuard.ReviewPath
