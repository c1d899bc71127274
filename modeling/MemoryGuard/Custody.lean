import MemoryGuard.Standing
import MemoryGuard.Writes

/-!
Who may file what. An artifact is about a task or a case, and stays about it for
as long as its key is in use. Every kind of artifact is filed by few calls, and
a call files only about what its actor is entitled to, or continues a record
that is already there.
-/
namespace MemoryGuard.Custody

open OrderedDict Guarded JsonText ContentHash Models Artifacts Aggregate Core SourceModels
open SourceState SourceGuard SourceService Transactions TaskCommands CaseCommands
open SourceCommands PartnerCommands Traces Calls Floors Filing EvidenceEffects TaskEffects
open CaseEffects Effects Growth Upkeep Lifecycle History Standing Writes

section Matters

inductive Matter
  | task (id : Identifier)
  | case (id : Identifier)
  deriving DecidableEq

/-- What an artifact is about. -/
def matter : Artifact → Matter
  | .escalation a => .task a.task_id
  | .review a => .task a.task_id
  | .resolutionProof a => .case a.case_id
  | .attempt a => .case a.case_id
  | .policyGuard a => .case a.case_id
  | .request a => .case a.case_id
  | .head a => .case a.case_id
  | .receipt a => .case a.case_id
  | .reportBundle a => .case a.case_id
  | .mission a => .case a.case_id
  | .reviewPlan a => .case a.case_id
  | .anchor a => .task a.task_id
  | .incident a => .case a.case_id

/-- The subject of the matter is one of the actor's. -/
def Entitled (w : Workspace) (actor : Actor) : Matter → Prop
  | .task id => ∃ t, w.tasks.get? id = some t ∧ t.intent.scope.subject_id ∈ actor.subjects
  | .case id => ∃ c, w.cases.get? id = some c ∧ c.scope.subject_id ∈ actor.subjects

variable {w m : Workspace} {actor : Actor} {id : Identifier}

theorem entitled_of_findCase {c : RiskCase} (h : findCase w actor id = .ok c) :
    Entitled w actor (.case id) := by
  simp only [findCase, bind_eq_ok, fetch_eq_ok, ensure_eq_ok, pure_eq_ok] at h
  obtain ⟨c', hc, _, hsubject, _⟩ := h
  exact ⟨c', hc, hsubject⟩

theorem entitled_of_findTask {t : Task} (h : findTask w actor id = .ok t) :
    Entitled w actor (.task id) := by
  simp only [findTask, bind_eq_ok, fetch_eq_ok, ensure_eq_ok, pure_eq_ok] at h
  obtain ⟨t', ht, _, hsubject, _⟩ := h
  exact ⟨t', ht, hsubject⟩

theorem entitled_congr (htasks : m.tasks = w.tasks) (hcases : m.cases = w.cases) {x : Matter} :
    Entitled m actor x ↔ Entitled w actor x := by
  cases x with
  | task id => simp only [Entitled, htasks]
  | case id => simp only [Entitled, hcases]

/-- Records keep their subjects, so an entitlement is kept too. -/
theorem entitled_of_grows (h : Grows w m) {x : Matter} (hx : Entitled w actor x) :
    Entitled m actor x := by
  cases x with
  | task id =>
    obtain ⟨t, ht, hsubject⟩ := hx
    obtain ⟨t', ht', hintent, _⟩ := h.tasks id t ht
    exact ⟨t', ht', hintent ▸ hsubject⟩
  | case id =>
    obtain ⟨c, hc, hsubject⟩ := hx
    obtain ⟨c', hc', hscope, _⟩ := h.cases id c hc
    exact ⟨c', hc', hscope ▸ hsubject⟩

end Matters

section Permission

/-- The kinds of artifacts that a call files. -/
def filed : Call → List Drawer
  | .registerTask .. => [.hashed "escalation-artifact"]
  | .evaluate .. => [.hashed "escalation-artifact"]
  | .openCase .. => [.hashed "source-policy-guard"]
  | .reopenCase .. => [.hashed "source-policy-guard"]
  | .reserveAttempt .. => [.named "investigation"]
  | .investigate .. => [.named "investigation", .hashed "report-sources-key"]
  | .resolve .. => [.hashed "resolution-link", .hashed "source-policy-guard"]
  | .prepareReview .. => [.hashed "review-artifact"]
  | .prepareAnchor .. => [.named "anchor"]
  | .verifyAnchor .. => [.named "anchor"]
  | .reserveSource .. => [.hashed "source-policy-guard", .named "fetch", .hashed "source-head"]
  | .finishSource .. => [.named "fetch", .named "source", .hashed "source-head"]
  | .planMission .. => [.hashed "source-policy-guard", .named "mission"]
  | .ingest .. => [.hashed "source-policy-guard", .named "incident"]
  | .preparePlan .. => [.named "acpreview"]
  | .verifyPlan .. => [.named "acpreview"]
  | _ => []

/-- The kinds that a call files under new keys. -/
def begun : Call → List Drawer
  | .investigate .. => [.hashed "report-sources-key"]
  | .finishSource .. => [.named "source"]
  | .verifyAnchor .. => []
  | .verifyPlan .. => []
  | call => filed call

theorem filed_of_begun {call : Call} {e : Drawer} (h : e ∈ begun call) : e ∈ filed call := by
  cases call with
  | investigate => simp only [begun, List.mem_singleton] at h; simp [filed, h]
  | finishSource => simp only [begun, List.mem_singleton] at h; simp [filed, h]
  | verifyAnchor => simp [begun] at h
  | verifyPlan => simp [begun] at h
  | _ => exact h

variable [Sha256]

/-- The record of an earlier call that a call goes on with. -/
def continued : Call → Option String
  | .investigate actor cmd _ _ planning =>
    if planning.status = .deterministic then none else some (attemptId actor cmd)
  | .finishSource actor cmd .. => some (fetchId actor cmd)
  | .verifyAnchor _ _ _ anchor_id .. => some anchor_id
  | _ => none

/-- What a call may put over `old`. -/
structure Put (m : Workspace) (actor : Actor) (call : Call) (k : String) (old : Option Artifact)
    (a : Artifact) : Prop where
  fits : Fits k a
  suits : drawer a ∈ filed call
  begins : old = none → drawer a ∈ begun call
  same : ∀ b, old = some b → matter b = matter a
  entitled : Entitled m actor (matter a) ∨ (continued call = some k ∧ old.isSome)

/-- The kinds whose key says what they are about. -/
def keyed : List Drawer :=
  [.hashed "escalation-artifact", .hashed "review-artifact", .hashed "resolution-link",
    .hashed "source-policy-guard", .hashed "source-head"]

variable [CollisionFree] {w m : Workspace} {actor : Actor} {call : Call} {k : String}
  {a b : Artifact} {d : Dict String Artifact}

theorem matter_of_fits (hb : Fits k b) (ha : Fits k a) (hkeyed : drawer a ∈ keyed) :
    matter b = matter a := by
  have hkind := hb.drawer_eq ha
  cases a with
  | escalation a =>
    cases b with
    | escalation b =>
      have hkey : escalationKey b.task_id b.decision_id = escalationKey a.task_id a.decision_id :=
        hb.symm.trans ha
      simp only [escalationKey, digest_inj, true_and, texts_inj, List.cons.injEq, and_true] at hkey
      simp [matter, hkey.1]
    | _ => simp [drawer] at hkind
  | review a =>
    cases b with
    | review b =>
      have hkey : reviewKey b.task_id b.decision_id = reviewKey a.task_id a.decision_id :=
        hb.symm.trans ha
      simp only [reviewKey, digest_inj, true_and, texts_inj, List.cons.injEq, and_true] at hkey
      simp [matter, hkey.1]
    | _ => simp [drawer] at hkind
  | resolutionProof a =>
    cases b with
    | resolutionProof b =>
      have hkey : resolutionLinkKey b.case_id b.case_version =
          resolutionLinkKey a.case_id a.case_version := hb.symm.trans ha
      simp only [resolutionLinkKey, digest_inj, true_and, Json.arr.injEq, List.cons.injEq,
        Json.str.injEq] at hkey
      simp [matter, hkey.1]
    | _ => simp [drawer] at hkind
  | policyGuard a =>
    cases b with
    | policyGuard b =>
      have hkey : guardKey b.case_id = guardKey a.case_id := hb.symm.trans ha
      simp only [guardKey, digest_inj, true_and, Json.str.injEq] at hkey
      simp [matter, hkey]
    | _ => simp [drawer] at hkind
  | head a =>
    cases b with
    | head b =>
      have hkey : sourceKey b.case_id b.source_id = sourceKey a.case_id a.source_id :=
        hb.symm.trans ha
      simp only [sourceKey, digest_inj, true_and, texts_inj, List.cons.injEq, and_true] at hkey
      simp [matter, hkey.1]
    | _ => simp [drawer] at hkind
  | _ => simp [drawer, keyed] at hkeyed

theorem put_of_keyed (hd : Filed d) (fits : Fits k a) (hkeyed : drawer a ∈ keyed)
    (begins : drawer a ∈ begun call) (hentitled : Entitled m actor (matter a)) :
    Put m actor call k (d.get? k) a :=
  ⟨fits, filed_of_begun begins, fun _ => begins,
    fun b hb => matter_of_fits (hd k b hb) fits hkeyed, Or.inl hentitled⟩

omit [CollisionFree] in
theorem put_of_fresh (hnew : d.get? k = none) (fits : Fits k a)
    (begins : drawer a ∈ begun call) (hentitled : Entitled m actor (matter a)) :
    Put m actor call k (d.get? k) a :=
  ⟨fits, filed_of_begun begins, fun _ => begins, by simp [hnew], Or.inl hentitled⟩

omit [CollisionFree] in
theorem put_of_known (hb : d.get? k = some b) (fits : Fits k a) (suits : drawer a ∈ filed call)
    (hsame : matter b = matter a) (hentitled : Entitled m actor (matter a) ∨ continued call = some k) :
    Put m actor call k (d.get? k) a := by
  rw [hb]
  refine ⟨fits, suits, by simp, ?_, hentitled.imp_right (fun h => ⟨h, rfl⟩)⟩
  intro b' hb'
  cases hb'
  exact hsame

/-- An identifier under which no artifact of its kind is stored is free. -/
theorem free_of_named {stem : String} (hd : Filed d) (hstem : '_' ∉ stem.toList)
    (hk : ∃ x, k = newId stem x) (hnone : ∀ b, d.get? k = some b → drawer b ≠ .named stem) :
    d.get? k = none := by
  cases hget : d.get? k with
  | none => rfl
  | some b =>
    have hkind := inDrawer_unique (e := .named stem) (drawer_plain b) hstem (hd k b hget).inDrawer hk
    exact absurd hkind (hnone b hget)

end Permission

section Records

variable {w m : Workspace} {key : String}

theorem storedAnchor_eq_some {a : AuditAnchor} :
    storedAnchor w key = some a ↔ w.artifacts.get? key = some (.anchor a) := by
  unfold storedAnchor
  cases hget : w.artifacts.get? key with
  | none => simp
  | some b => cases b <;> simp

theorem storedPlan_eq_some {p : ReviewPlan} :
    storedPlan w key = some p ↔ w.artifacts.get? key = some (.reviewPlan p) := by
  unfold storedPlan
  cases hget : w.artifacts.get? key with
  | none => simp
  | some b => cases b <;> simp

@[simp] theorem observeVerification_anchor_id (r : AuditAnchor) (tx : String) (v : Verification) :
    (observeVerification r tx v).anchor_id = r.anchor_id := by
  simp only [observeVerification]
  split <;> [split; skip] <;> rfl

@[simp] theorem observeVerification_task_id (r : AuditAnchor) (tx : String) (v : Verification) :
    (observeVerification r tx v).task_id = r.task_id := by
  simp only [observeVerification]
  split <;> [split; skip] <;> rfl

variable [Sha256] {svc : Service} {env : Environment} {actor : Actor} {seq : ℕ} {result : Result}

variable (seq) in
/-- What a verification does to the record of an anchor. -/
theorem verifyAnchorChange_ok {plan : AnchorPlan} {anchor_id tx_hash : String}
    {seen : Verification}
    (h : verifyAnchorChange plan anchor_id tx_hash seen w seq = .ok (m, result)) :
    ∃ r, w.artifacts.get? anchor_id = some (.anchor r) ∧ r.plan = plan ∧
      (∀ known ∈ knownTransaction r, known.toLower = tx_hash) ∧
      m = refile w (w.artifacts.set anchor_id (.anchor (observeVerification r tx_hash seen))) := by
  simp only [verifyAnchorChange, bind_eq_ok, fetch_eq_ok, ensure_eq_ok, pure_eq_ok,
    Prod.mk.injEq] at h
  obtain ⟨r, hr, _, hplan, _, hknown, _, _, _, _, _, _, hm, _⟩ := h
  exact ⟨r, storedAnchor_eq_some.mp hr, hplan, hknown, hm.symm⟩

variable (seq) in
/-- What a preparation files, if it does not find a plan to reuse. -/
theorem preparePlanChange_ok {partner : Option VirtualsSpec} {case_id report_id : Identifier}
    (h : preparePlanChange svc partner env actor case_id report_id w seq = .ok (m, result)) :
    ∃ case spec report, findCase w actor case_id = .ok case ∧
      allowedPartner partner actor case = .ok spec ∧
      validReport svc env w case report_id = .ok report ∧
      ((∃ p, planOf w report_id = some p ∧ p.partner_spec_hash = partnerHash spec ∧
          env.clock .planFreshness < p.expires_at ∧ m = w ∧ result = .planPrepared p true) ∨
        (∀ p, planOf w report_id = some p → p.partner_spec_hash = partnerHash spec →
          p.expires_at ≤ env.clock .planFreshness) ∧
        ∃ root, m = refile w (w.artifacts.set (env.fresh "acpreview")
            (.reviewPlan (newPlan env spec case_id case report root))) ∧
          result = .planPrepared (newPlan env spec case_id case report root) false) := by
  simp only [preparePlanChange, bind_eq_ok] at h
  obtain ⟨case, hcase, spec, hspec, report, hreport, _, _, h⟩ := h
  refine ⟨case, spec, report, hcase, hspec, hreport, ?_⟩
  split at h
  · rename_i existing hexisting
    simp only [pure_eq_ok, Prod.mk.injEq] at h
    obtain ⟨hfound, hlive⟩ := Option.filter_eq_some_iff.mp hexisting
    simp only [decide_eq_true_eq] at hlive
    exact Or.inl ⟨existing, hfound, hlive.1, hlive.2, h.1.symm, h.2.symm⟩
  · rename_i hnone
    refine Or.inr ⟨?_, ?_⟩
    · intro p hp hhash
      rw [hp] at hnone
      by_contra hlive
      simp [Option.filter, hhash, not_le.mp hlive] at hnone
    · split at h
      · simp only [pure_bind, pure_eq_ok, Prod.mk.injEq] at h
        exact ⟨none, h.1.symm, h.2.symm⟩
      · simp only [bind_eq_ok, pure_eq_ok, Prod.mk.injEq] at h
        obtain ⟨value, _, root, rfl, hm, hresult⟩ := h
        exact ⟨_, hm.symm, hresult.symm⟩

variable (seq) in
/-- What a verification does to the record of a plan. -/
theorem verifyPlanChange_ok {spec : VirtualsSpec} {plan : ReviewPlan} {plan_id : Identifier}
    {job_id : String} {history : Except String (List (String × Json))}
    (h : verifyPlanChange svc env actor spec plan plan_id job_id history w seq =
      .ok (m, result)) :
    ∃ p case, w.artifacts.get? plan_id = some (.reviewPlan p) ∧
      p.request_hash = plan.request_hash ∧
      (∀ bound ∈ p.bound_job_id, bound ≠ "" → bound = job_id) ∧
      (∀ a ∈ w.artifacts.values, bindsJob spec plan_id job_id a = false) ∧
      findCase w actor p.case_id = .ok case ∧
      m = refile w (w.artifacts.set plan_id (.reviewPlan (observedPlan env p job_id history))) := by
  simp only [verifyPlanChange, bind_eq_ok, fetch_eq_ok, ensure_eq_ok, pure_eq_ok,
    Prod.mk.injEq] at h
  obtain ⟨p, hp, _, hrequest, _, hbound, _, hfree, case, hcase, hm, _⟩ := h
  refine ⟨p, case, storedPlan_eq_some.mp hp, hrequest, hbound, ?_, hcase, hm.symm⟩
  simpa using hfree

end Records

section Changes

variable [Sha256] [CollisionFree] {svc : Service} {env : Environment} {w m : Workspace}
  {actor : Actor} {cmd : Command} {call : Call} {seq : ℕ} {result : Result}

/-- A policy guard is about its case. -/
theorem rememberPolicy_wrote {w w' : Workspace} {case_id : Identifier}
    {policy : Option ScopeEvidencePolicy} {source_ids : List Identifier} (hfiled : Filed w.artifacts)
    (hsuits : .hashed "source-policy-guard" ∈ begun call)
    (hentitled : Entitled m actor (.case case_id))
    (h : rememberPolicy w case_id policy source_ids = .ok w') :
    Wrote (Put m actor call) w.artifacts w'.artifacts := by
  rcases rememberPolicy_ok h with ⟨rfl, _⟩ | ⟨guard, hcase, _, _, _, _, rfl⟩
  · exact .refl
  · subst hcase
    exact .single (put_of_keyed (a := .policyGuard guard) hfiled rfl (by simp [drawer, keyed])
      hsuits hentitled)

variable (call) in
theorem deskRemembers_wrote {desk : Option EvidenceDesk} {w w' : Workspace} {case : RiskCase}
    {source_ids : List Identifier} (hfiled : Filed w.artifacts)
    (hsuits : .hashed "source-policy-guard" ∈ begun call)
    (hentitled : Entitled m actor (.case case.case_id))
    (h : deskRemembers desk w case source_ids = .ok w') :
    Wrote (Put m actor call) w.artifacts w'.artifacts := by
  unfold deskRemembers at h
  split at h
  · simp only [pure_eq_ok] at h
    exact h ▸ .refl
  · exact rememberPolicy_wrote hfiled hsuits hentitled h

theorem decides_wrote {task : Task} {explicit_review : Bool} {d : Decision}
    (hfiled : Filed w.artifacts) (hsuits : .hashed "escalation-artifact" ∈ begun call)
    (hentitled : Entitled m actor (.task task.task_id))
    (h : Decides env actor seq w m task explicit_review d) :
    Wrote (Put m actor call) w.artifacts m.artifacts := by
  have hart : m.artifacts = if d.verdict = .ready then w.artifacts
      else w.artifacts.set (escalationKey task.task_id d.decision_id)
        (.escalation (escalation d)) := by
    rw [h.stored]
    rfl
  rw [hart]
  split
  · exact .refl
  · refine .single (put_of_keyed hfiled ?_ (by simp [drawer, keyed]) hsuits ?_)
    · change escalationKey task.task_id d.decision_id = escalationKey d.task_id d.decision_id
      rw [h.judged.task_id]
    · change Entitled m actor (.task d.task_id)
      rw [h.judged.task_id]
      exact hentitled

/-- Nothing else is touched. -/
theorem rememberPolicy_other {w w' : Workspace} {case_id : Identifier}
    {policy : Option ScopeEvidencePolicy} {source_ids : List Identifier} {stem uuid : String}
    (h : rememberPolicy w case_id policy source_ids = .ok w') :
    w'.artifacts.get? (newId stem uuid) = w.artifacts.get? (newId stem uuid) := by
  rcases rememberPolicy_ok h with ⟨rfl, _⟩ | ⟨guard, _, _, _, _, _, rfl⟩
  · rfl
  · exact Dict.get?_set_of_ne _ _ digest_ne_newId

theorem deskRemembers_other {desk : Option EvidenceDesk} {w w' : Workspace} {case : RiskCase}
    {source_ids : List Identifier} {stem uuid : String}
    (h : deskRemembers desk w case source_ids = .ok w') :
    w'.artifacts.get? (newId stem uuid) = w.artifacts.get? (newId stem uuid) := by
  unfold deskRemembers at h
  split at h
  · simp only [pure_eq_ok] at h
    rw [h]
  · exact rememberPolicy_other h

omit [CollisionFree] in
theorem wrote_congr {m' : Workspace} {d e : Dict String Artifact} (htasks : m'.tasks = m.tasks)
    (hcases : m'.cases = m.cases) (h : Wrote (Put m actor call) d e) :
    Wrote (Put m' actor call) d e := by
  refine h.mono fun k old a hput => ?_
  exact ⟨hput.fits, hput.suits, hput.begins, hput.same,
    hput.entitled.imp_left (entitled_congr htasks hcases).mpr⟩

variable (call) in
/-- The artifacts of a risk that is raised on a subject of the actor. -/
theorem openRisk_wrote {case : RiskCase} {reason : String} {affected : List Identifier}
    (ha : Archived w) (hsuits : .hashed "source-policy-guard" ∈ begun call)
    (hsubject : case.scope.subject_id ∈ actor.subjects)
    (h : openRisk svc w case reason = .ok (m, affected)) :
    Entitled m actor (.case case.case_id) ∧ Wrote (Put m actor call) w.artifacts m.artifacts ∧
      ∀ stem uuid, m.artifacts.get? (newId stem uuid) = w.artifacts.get? (newId stem uuid) := by
  have hcases := (openRisk_writes ha h).2.2.2.cases
  have hentitled : Entitled m actor (.case case.case_id) :=
    ⟨case, by rw [hcases]; exact Dict.get?_set_self .., hsubject⟩
  simp only [openRisk, bind_eq_ok, pure_eq_ok] at h
  obtain ⟨w1, hremember, h⟩ := h
  have hwrote := deskRemembers_wrote (w := recordCase w case []) call ha.filed hsuits hentitled
    hremember
  have hart : m.artifacts = w1.artifacts := by rw [← (Prod.mk.inj h).1]
  refine ⟨hentitled, hart ▸ hwrote, ?_⟩
  intro stem uuid
  rw [hart]
  exact deskRemembers_other (w := recordCase w case []) hremember

theorem openCaseChange_wrote {scope : Scope} {kind : RiskKind} {evidence_digest : Digest}
    (ha : Archived w) (hsubject : scope.subject_id ∈ actor.subjects)
    (h : openCaseChange svc env actor scope kind evidence_digest w seq = .ok (m, result)) :
    Wrote (Put m actor (.openCase actor cmd scope kind evidence_digest)) w.artifacts
      m.artifacts := by
  simp only [openCaseChange, bind_eq_ok, pure_eq_ok, Prod.mk.injEq] at h
  obtain ⟨_, _, ⟨m', affected⟩, hopen, rfl, _⟩ := h
  exact (openRisk_wrote _ ha (by simp [begun, filed]) hsubject hopen).2.1

theorem ingestChange_wrote {incidents : List IncidentSpec} {spec : IncidentSpec}
    {delivery : Delivery} {expected_revision : ℕ} (ha : Archived w) (hfresh : Fresh env w)
    (hsubject : spec.scope.subject_id ∈ actor.subjects)
    (h : ingestChange svc env actor spec delivery w seq = .ok (m, result)) :
    Wrote (Put m actor (.ingest incidents delivery expected_revision)) w.artifacts
      m.artifacts := by
  simp only [ingestChange, bind_eq_ok, pure_eq_ok, Prod.mk.injEq] at h
  obtain ⟨_, _, ⟨m', affected⟩, hopen, hm, _⟩ := h
  obtain ⟨hentitled, hwrote, hother⟩ :=
    openRisk_wrote (.ingest incidents delivery expected_revision) ha (by simp [begun, filed])
      hsubject hopen
  have htasks : m.tasks = m'.tasks := hm ▸ rfl
  have hcases : m.cases = m'.cases := hm ▸ rfl
  have hart : m.artifacts = m'.artifacts.set (env.fresh "incident")
      (.incident (incidentReceipt env actor delivery (env.fresh "case"))) := hm ▸ rfl
  rw [hart]
  refine (wrote_congr htasks hcases hwrote).set (put_of_fresh ?_ ?_ ?_ ?_)
  · exact (hother _ _).trans (hfresh.artifacts "incident")
  · exact ⟨_, rfl⟩
  · simp [begun, filed, drawer]
  · exact (entitled_congr htasks hcases).mpr hentitled

theorem reopenCaseChange_wrote {case_id : Identifier} {evidence_digest : Digest}
    (hw : Kept w) (hgrows : Grows w m)
    (h : reopenCaseChange svc actor case_id evidence_digest w seq = .ok (m, result)) :
    Wrote (Put m actor (.reopenCase actor cmd case_id evidence_digest)) w.artifacts
      m.artifacts := by
  simp only [reopenCaseChange, bind_eq_ok] at h
  obtain ⟨old, hold, _, _, history, _, w1, hremember, h⟩ := h
  have hentitled := entitled_of_grows hgrows (entitled_of_findCase hold)
  have hid : old.case_id = case_id := hw.cases _ _ (findCase_ok hold)
  have hwrote := deskRemembers_wrote
    (w := recordCase w (reopened old actor.actor_id seq evidence_digest) history)
    (.reopenCase actor cmd case_id evidence_digest) hw.filed (by simp [begun, filed])
    (hid ▸ hentitled) hremember
  simp only [pure_eq_ok, Prod.mk.injEq] at h
  have hart : m.artifacts = w1.artifacts := by
    rw [← h.1]
    rfl
  rw [hart]
  exact hwrote

theorem evaluateChange_wrote {task_id : Identifier} {reconsider : Bool} (hw : Kept w)
    (hgrows : Grows w m)
    (h : evaluateChange svc env actor cmd task_id reconsider w seq = .ok (m, result)) :
    Wrote (Put m actor (.evaluate actor cmd task_id reconsider)) w.artifacts m.artifacts := by
  obtain ⟨_, task, d, _, hid, hdecides⟩ := evaluateChange_effect hw.tasks h
  simp only [evaluateChange, bind_eq_ok] at h
  obtain ⟨task', htask', _⟩ := h
  have hentitled := entitled_of_grows hgrows (entitled_of_findTask htask')
  exact decides_wrote hw.filed (by simp [begun, filed]) (hid ▸ hentitled) hdecides

theorem registerTaskChange_wrote {intent : Intent} {depends_on : List Identifier} (hw : Kept w)
    (hfresh : Fresh env w) (hsubject : intent.scope.subject_id ∈ actor.subjects)
    (h : registerTaskChange svc env actor cmd intent depends_on w seq = .ok (m, result)) :
    Wrote (Put m actor (.registerTask actor cmd intent depends_on)) w.artifacts m.artifacts := by
  obtain ⟨_, task, d, _, hintent, _, _, hdecides⟩ :=
    registerTaskChange_effect (hfresh.tasks "task") h
  refine decides_wrote (w := storeTask w task) hw.filed (by simp [begun, filed]) ?_ hdecides
  refine ⟨decidedTask (storeTask w task) task d false, ?_, ?_⟩
  · rw [decides_task hdecides, if_pos rfl]
  · change task.intent.scope.subject_id ∈ actor.subjects
    rw [hintent]
    exact hsubject

variable (seq) in
theorem prepareReviewChange_wrote {task_id decision_id : Identifier} (hw : Kept w)
    (hgrows : Grows w m)
    (h : prepareReviewChange env actor task_id decision_id w seq = .ok (m, result)) :
    Wrote (Put m actor (.prepareReview actor cmd task_id decision_id)) w.artifacts
      m.artifacts := by
  simp only [prepareReviewChange, bind_eq_ok, pure_eq_ok, Prod.mk.injEq] at h
  obtain ⟨task, htask, _, _, _, _, _, _, _, _, _, _, _, _, hm, _⟩ := h
  have hentitled := entitled_of_grows hgrows (entitled_of_findTask htask)
  rw [← hm] at hentitled ⊢
  refine .single (put_of_keyed hw.filed ?_ ?_ ?_ hentitled)
  · rfl
  · simp [drawer, keyed]
  · simp [begun, filed, drawer]

variable (seq) in
omit [CollisionFree] in
theorem prepareAnchorChange_wrote {adapter : AnchorAdapter} {task_id decision_id : Identifier}
    (hfresh : Fresh env w) (hgrows : Grows w m)
    (h : prepareAnchorChange env actor adapter task_id decision_id w seq = .ok (m, result)) :
    Wrote (Put m actor (.prepareAnchor actor cmd task_id decision_id)) w.artifacts
      m.artifacts := by
  simp only [prepareAnchorChange, bind_eq_ok, pure_eq_ok, Prod.mk.injEq] at h
  obtain ⟨task, htask, _, _, _, _, plan, _, hm, _⟩ := h
  have hentitled := entitled_of_grows hgrows (entitled_of_findTask htask)
  rw [← hm] at hentitled ⊢
  refine .single (put_of_fresh (hfresh.artifacts "anchor") ?_ ?_ hentitled)
  · exact ⟨rfl, _, rfl⟩
  · simp [begun, filed, drawer]

variable (seq) in
omit [CollisionFree] in
theorem verifyAnchorChange_wrote {snapshot : Workspace} {plan : AnchorPlan}
    {anchor_id tx_hash normalized : String} {verified : Except CaseworkError Verification}
    {seen : Verification} (hw : Kept w)
    (h : verifyAnchorChange plan anchor_id normalized seen w seq = .ok (m, result)) :
    Wrote (Put m actor (.verifyAnchor actor cmd snapshot anchor_id tx_hash verified))
      w.artifacts m.artifacts := by
  obtain ⟨r, hr, _, _, hm⟩ := verifyAnchorChange_ok _ h
  have hfits := hw.filed _ _ hr
  rw [hm]
  refine .single (put_of_known hr ?_ ?_ ?_ (Or.inr rfl))
  · exact ⟨by rw [observeVerification_anchor_id]; exact hfits.1, hfits.2⟩
  · simp [filed, drawer]
  · simp [matter]

variable (seq) in
omit [CollisionFree] in
theorem reserveAttemptChange_wrote {case_id : Identifier} {snapshot : Workspace} {basis : Digest}
    (hgrows : Grows w m) (hfree : w.artifacts.get? (attemptId actor cmd) = none)
    (h : reserveAttemptChange env actor cmd case_id basis w seq = .ok (m, result)) :
    Wrote (Put m actor (.reserveAttempt actor cmd case_id snapshot)) w.artifacts
      m.artifacts := by
  simp only [reserveAttemptChange, bind_eq_ok, pure_eq_ok, Prod.mk.injEq] at h
  obtain ⟨live, hlive, _, _, _, _, _, _, hm, _⟩ := h
  have hentitled := entitled_of_grows hgrows (entitled_of_findCase hlive)
  rw [← hm] at hentitled ⊢
  refine .single (put_of_fresh hfree ?_ ?_ hentitled)
  · exact ⟨rfl, attemptId_named actor cmd⟩
  · simp [begun, filed, drawer]

omit [CollisionFree] in
/-- The completion continues an attempt. -/
theorem completeAttempt_wrote {attempt_id : String} {report_id : Identifier} {w1 : Workspace}
    (hfiled : Filed w.artifacts) (hsuits : .named "investigation" ∈ filed call)
    (hcontinues : continued call = some attempt_id)
    (h : completeAttempt env attempt_id report_id w = .ok w1) :
    Wrote (Put m actor call) w.artifacts w1.artifacts := by
  unfold completeAttempt at h
  split at h
  · rename_i attempt hattempt
    simp only [bind_eq_ok, pure_eq_ok] at h
    obtain ⟨_, _, rfl⟩ := h
    have hfits : Fits attempt_id (.attempt attempt) := hfiled _ _ hattempt
    exact .single (put_of_known hattempt hfits hsuits rfl (Or.inr hcontinues))
  · simp only [throw_ne_ok] at h

/-- The bundle is about the case of its report. -/
theorem storeBundle_wrote {report : Report} (external : Option EvidenceContext) {w1 : Workspace}
    (hw : Shaped w) (hnew : w.reports.get? report.report_id = none)
    (hrefiled : Refiled w.artifacts w1.artifacts)
    (hsuits : .hashed "report-sources-key" ∈ begun call)
    (hentitled : Entitled m actor (.case report.case_id))
    (hwrote : Wrote (Put m actor call) w.artifacts w1.artifacts) :
    Wrote (Put m actor call) w.artifacts (storeBundle report external w1).artifacts := by
  cases external with
  | none => exact hwrote
  | some context =>
    refine hwrote.set (put_of_fresh ?_ ?_ ?_ ?_)
    · exact bundle_fresh hw hnew hrefiled
    · rfl
    · exact hsuits
    · exact hentitled

variable (seq) in
theorem investigateChange_wrote {case_id : Identifier} {snapshot : Workspace}
    {external : Option EvidenceContext} {planning : Planning} {report : Report}
    (hw : Kept w) (hnew : w.reports.get? report.report_id = none)
    (hentitled : Entitled m actor (.case report.case_id))
    (h : investigateChange svc env actor cmd case_id report external
      (planning.status ≠ .deterministic) w seq = .ok (m, result)) :
    Wrote (Put m actor (.investigate actor cmd case_id snapshot planning)) w.artifacts
      m.artifacts := by
  have hdone : ∀ w1, Refiled w.artifacts w1.artifacts →
      Wrote (Put m actor (.investigate actor cmd case_id snapshot planning)) w.artifacts
        w1.artifacts → storeBundle report external w1 = m →
      Wrote (Put m actor (.investigate actor cmd case_id snapshot planning)) w.artifacts
        m.artifacts := by
    intro w1 hrefiled hwrote hm
    have hall := storeBundle_wrote external hw.toShaped hnew hrefiled
      (by simp [begun]) hentitled hwrote
    rwa [hm] at hall
  have hattempt : ∀ w1, planning.status ≠ .deterministic →
      completeAttempt env (attemptId actor cmd) report.report_id
        { w with reports := w.reports.set report.report_id report } = .ok w1 →
      storeBundle report external w1 = m →
      Wrote (Put m actor (.investigate actor cmd case_id snapshot planning)) w.artifacts
        m.artifacts := by
    intro w1 hplanned hw1 hm
    have hwrote : Wrote (Put m actor (.investigate actor cmd case_id snapshot planning))
        w.artifacts w1.artifacts :=
      completeAttempt_wrote (w := { w with reports := w.reports.set report.report_id report })
        hw.filed (by simp [filed]) (by simp [continued, hplanned]) hw1
    obtain ⟨mid, hmid, rfl⟩ := completeAttempt_refiled
      (w := { w with reports := w.reports.set report.report_id report }) hw.filed hw1
    exact hdone _ hmid hwrote hm
  simp only [investigateChange, bind_eq_ok] at h
  obtain ⟨case, _, h⟩ := h
  split at h
  · split at h
    · rename_i hplanned
      simp only [bind_eq_ok, pure_eq_ok, Prod.mk.injEq] at h
      obtain ⟨w1, hw1, hm, _⟩ := h
      exact hattempt w1 (by simpa using hplanned) hw1 hm
    · simp only [pure_bind, pure_eq_ok, Prod.mk.injEq] at h
      exact hdone { w with reports := w.reports.set report.report_id report } .refl .refl h.1
  · simp only [bind_eq_ok, throw_ne_ok, false_and, exists_false] at h
  · simp only [bind_eq_ok] at h
    obtain ⟨_, _, h⟩ := h
    split at h
    · rename_i hplanned
      simp only [bind_eq_ok, pure_eq_ok, Prod.mk.injEq] at h
      obtain ⟨w1, hw1, hm, _⟩ := h
      exact hattempt w1 (by simpa using hplanned) hw1 hm
    · simp only [pure_bind, pure_eq_ok, Prod.mk.injEq] at h
      exact hdone { w with reports := w.reports.set report.report_id report } .refl .refl h.1

theorem linked_wrote {case_id : Identifier} {version : ℕ} {start : Dict String Artifact}
    (hfiled : Filed w.artifacts) (hsuits : .hashed "resolution-link" ∈ begun call)
    (hentitled : Entitled m actor (.case case_id)) (h : Linked w case_id version seq start) :
    Wrote (Put m actor call) w.artifacts start := by
  rcases h with rfl | ⟨p, rfl, rfl, _, rfl⟩
  · exact .refl
  · refine .single (put_of_keyed hfiled ?_ ?_ hsuits hentitled)
    · rfl
    · simp [drawer, keyed]

theorem resolveChange_wrote {case_id handoff_id : Identifier} {resolution : Resolution}
    {evidence_digest : Digest} (hw : Kept w) (hgrows : Grows w m)
    (h : resolveChange svc env actor case_id handoff_id resolution evidence_digest w seq =
      .ok (m, result)) :
    Wrote (Put m actor (.resolve actor cmd case_id handoff_id resolution evidence_digest))
      w.artifacts m.artifacts := by
  simp only [resolveChange, bind_eq_ok] at h
  obtain ⟨old, hold, handoff, _, _, _, report, _, _, _, h⟩ := h
  have hid : old.case_id = case_id := hw.cases _ _ (findCase_ok hold)
  have hentitled : Entitled m actor (.case old.case_id) :=
    hid ▸ entitled_of_grows hgrows (entitled_of_findCase hold)
  obtain ⟨start, hlinked, hlink⟩ := linkResolution_ok w seq actor
    (resolvedCase old resolution actor.actor_id seq) report handoff.handoff_id evidence_digest
  rw [hlink] at h
  have hdone : ∀ history w2 w3, deskRemembers svc.evidence_desk (recordCase (refile w start)
        (resolvedCase old resolution actor.actor_id seq) history)
        (resolvedCase old resolution actor.actor_id seq) [] = .ok w2 →
      (affectedTasks w2 old.scope).foldlM
        (settleTask env (resolutionRef case_id (old.version + 1))) w2 = .ok w3 →
      w3.artifacts = m.artifacts →
      Wrote (Put m actor (.resolve actor cmd case_id handoff_id resolution evidence_digest))
        w.artifacts m.artifacts := by
    intro history w2 w3 hremember hsettle hm
    have hart : w3.artifacts = w2.artifacts := by rw [(settleTasks_ok hsettle).1]
    have hlast := deskRemembers_wrote
      (w := recordCase (refile w start) (resolvedCase old resolution actor.actor_id seq) history)
      (.resolve actor cmd case_id handoff_id resolution evidence_digest)
      (hlinked.filed hw.filed) (by simp [begun, filed]) hentitled hremember
    rw [← hm, hart]
    exact (linked_wrote hw.filed (by simp [begun, filed]) hentitled hlinked).trans hlast
  split at h
  · simp only [bind_eq_ok, pure_eq_ok, Prod.mk.injEq] at h
    obtain ⟨history, _, w2, hremember, w3, hsettle, hm, _⟩ := h
    exact hdone history w2 w3 hremember hsettle (hm ▸ rfl)
  · simp only [bind_eq_ok, pure_eq_ok, Prod.mk.injEq] at h
    obtain ⟨_, _, history, _, w2, hremember, w3, hsettle, hm, _⟩ := h
    exact hdone history w2 w3 hremember hsettle (hm ▸ rfl)

variable (seq) in
theorem reserveChange_wrote {desk : EvidenceDesk} {case_id source_id : Identifier}
    {resource : String} {snapshot : Workspace} {acq : Acquisition} {force_refresh : Bool}
    (hw : Kept w) (hgrows : Grows w m) (hfree : w.artifacts.get? (fetchId actor cmd) = none)
    (h : reserveChange desk env actor cmd case_id acq force_refresh w seq = .ok (m, result)) :
    Wrote (Put m actor (.reserveSource actor cmd desk case_id source_id resource snapshot
      force_refresh)) w.artifacts m.artifacts := by
  simp only [reserveChange, bind_eq_ok] at h
  obtain ⟨current, hcurrent, _, _, w1, hremember, ⟨receipts, rejected⟩, _, h⟩ := h
  have hid : current.case_id = case_id := hw.cases _ _ (findCase_ok hcurrent)
  have hentitled := entitled_of_grows hgrows (entitled_of_findCase hcurrent)
  have hguard : Wrote (Put m actor (.reserveSource actor cmd desk case_id source_id resource
      snapshot force_refresh)) w.artifacts w1.artifacts :=
    rememberPolicy_wrote hw.filed (by simp [begun, filed]) (hid ▸ hentitled) hremember
  have hfiled : Filed w1.artifacts := by
    obtain ⟨artifacts, hrefiled, rfl⟩ := refiled_of_rememberPolicy hw.filed hw.recent hremember
    exact hrefiled.filed hw.filed
  have hrequest : Fits (fetchId actor cmd)
      (.request (pendingRequest env actor cmd case_id acq current.version)) :=
    ⟨rfl, fetchId_named actor cmd⟩
  have hfree : w1.artifacts.get? (fetchId actor cmd) = none := by
    obtain ⟨x, hx⟩ := fetchId_named actor cmd
    rw [hx] at hfree ⊢
    exact (rememberPolicy_other hremember).trans hfree
  split at h
  · simp only [pure_eq_ok, Prod.mk.injEq] at h
    rw [← h.1]
    rw [← h.1] at hguard
    exact hguard
  · simp only [bind_eq_ok, pure_eq_ok, Prod.mk.injEq] at h
    obtain ⟨_, _, hm, _⟩ := h
    have hart : m.artifacts = (w1.artifacts.set (fetchId actor cmd)
        (.request (pendingRequest env actor cmd case_id acq current.version))).set
          (sourceKey case_id acq.spec.source_id)
          (.head (pendingHead actor cmd case_id acq current.version)) := by
      rw [← hm]
      rfl
    rw [hart]
    refine (hguard.set (put_of_fresh hfree hrequest ?_ ?_)).set
      (put_of_keyed (hfiled.set hrequest) rfl ?_ ?_ ?_)
    · simp [begun, filed, drawer]
    · exact hentitled
    · simp [drawer, keyed]
    · simp [begun, filed, drawer]
    · exact hentitled

variable (call) in
omit [CollisionFree] in
/-- The receipt of a finished read is new. -/
theorem storeReceipt_wrote {case_id : Identifier} (acq : Acquisition)
    (observed : Option Observation) (w1 : Workspace)
    (hfree : w1.artifacts.get? (env.fresh "source") = none)
    (hsuits : .named "source" ∈ begun call) (hentitled : Entitled m actor (.case case_id)) :
    (∀ key a, w1.artifacts.get? key = some a →
      (storeReceipt (observed.map (newReceipt env case_id acq)) w1).artifacts.get? key = some a) ∧
      Wrote (Put m actor call) w1.artifacts
        (storeReceipt (observed.map (newReceipt env case_id acq)) w1).artifacts := by
  cases observed with
  | none => exact ⟨fun _ _ ha => ha, .refl⟩
  | some o =>
    have hfits : Fits (env.fresh "source") (.receipt (newReceipt env case_id acq o)) :=
      ⟨rfl, _, rfl⟩
    refine ⟨?_, .single (put_of_fresh hfree hfits hsuits hentitled)⟩
    intro key a ha
    have hne : env.fresh "source" ≠ key := by
      rintro rfl
      rw [hfree] at ha
      cases ha
    exact (Dict.get?_set_of_ne _ _ hne).trans ha

variable (seq) in
/-- The request continues its reservation; its receipt and the head are about the case. -/
theorem finishChange_wrote {desk : EvidenceDesk} {case_id source_id : Identifier}
    {resource : String} {snapshot : Workspace} {acq : Acquisition} {fetched : Fetched}
    {expected_revision : ℕ} (hw : Kept w) (hfresh : Fresh env w) (hgrows : Grows w m)
    (h : finishChange env actor case_id acq (fetchId actor cmd) fetched w seq =
      .ok (m, result)) :
    Wrote (Put m actor (.finishSource actor cmd desk case_id source_id resource snapshot fetched
      expected_revision)) w.artifacts m.artifacts := by
  simp only [finishChange] at h
  split at h
  · rename_i pending hpending
    simp only [pure_bind, bind_eq_ok, pure_eq_ok, Prod.mk.injEq] at h
    obtain ⟨_, _, current, hcurrent, hm, _⟩ := h
    have hentitled := entitled_of_grows hgrows (entitled_of_findCase hcurrent)
    have hfits : Fits (fetchId actor cmd) (.request pending) := hw.filed _ _ hpending
    have hreceipt : ∀ q : SourceRequest, q.request_id = pending.request_id →
        q.case_id = pending.case_id →
        (∀ key h, w.artifacts.get? key = some (.head h) →
          (storeReceipt ((observedOf fetched).map (newReceipt env case_id acq))
            (refile w (w.artifacts.set (fetchId actor cmd) (.request q)))).artifacts.get? key =
              some (.head h)) ∧
        Wrote (Put m actor (.finishSource actor cmd desk case_id source_id resource snapshot
          fetched expected_revision)) w.artifacts
          (storeReceipt ((observedOf fetched).map (newReceipt env case_id acq))
            (refile w (w.artifacts.set (fetchId actor cmd) (.request q)))).artifacts := by
      intro q hid hcase
      have hq : Fits (fetchId actor cmd) (.request q) := ⟨hfits.1.trans hid.symm, hfits.2⟩
      have hput : Put m actor (.finishSource actor cmd desk case_id source_id resource snapshot
          fetched expected_revision) (fetchId actor cmd) (w.artifacts.get? (fetchId actor cmd)) (.request q) :=
        put_of_known hpending hq (by simp [filed, drawer]) (by simp [matter, hcase])
          (Or.inr rfl)
      have hne : fetchId actor cmd ≠ env.fresh "source" := by
        intro heq
        rw [heq, hfresh.artifacts "source"] at hpending
        cases hpending
      have hfree : (w.artifacts.set (fetchId actor cmd) (.request q)).get? (env.fresh "source") = none := by
        rw [Dict.get?_set_of_ne _ _ hne, hfresh.artifacts "source"]
      obtain ⟨hother, hwrote⟩ := storeReceipt_wrote
        (.finishSource actor cmd desk case_id source_id resource snapshot fetched
          expected_revision) acq (observedOf fetched)
        (refile w (w.artifacts.set (fetchId actor cmd) (.request q))) hfree (by simp [begun]) hentitled
      refine ⟨?_, (Wrote.single hput).trans hwrote⟩
      intro key h hkey
      refine hother key _ ((Dict.get?_set_of_ne _ _ ?_).trans hkey)
      intro heq
      rw [← heq, hpending] at hkey
      cases hkey
    have hart := (congrArg Workspace.artifacts hm).symm
    rw [hart]
    split
    · refine (hreceipt _ ?_ ?_).2 <;> rfl
    · rename_i head hhead
      obtain ⟨hkey, _⟩ := pointed_eq_some hhead
      have hfitsHead : Fits (sourceKey case_id acq.spec.source_id) (.head head) :=
        hw.filed _ _ hkey
      have hcase : head.case_id = case_id := by
        have hkeys : sourceKey case_id acq.spec.source_id = sourceKey head.case_id head.source_id :=
          hfitsHead
        simp only [sourceKey, digest_inj, true_and, texts_inj, List.cons.injEq, and_true] at hkeys
        exact hkeys.1.symm
      refine (hreceipt _ ?_ ?_).2.set
        (put_of_known ((hreceipt _ ?_ ?_).1 _ head hkey) ?_ ?_ ?_ (Or.inl ?_))
      · rfl
      · rfl
      · rfl
      · rfl
      · exact hfitsHead
      · simp [filed, drawer]
      · rfl
      · exact hcase ▸ hentitled
  · simp only [bind_eq_ok, throw_ne_ok, false_and, exists_false] at h

theorem planMissionChange_wrote {desk : EvidenceDesk} {case_id : Identifier}
    {queries : List SourceQuery} {reviewer_id : Option Identifier} (hw : Kept w)
    (hgrows : Grows w m) (hfree : w.artifacts.get? (missionId actor cmd) = none)
    (h : planMissionChange desk svc actor cmd case_id queries reviewer_id w seq =
      .ok (m, result)) :
    Wrote (Put m actor (.planMission actor cmd desk case_id queries reviewer_id)) w.artifacts
      m.artifacts := by
  simp only [planMissionChange, bind_eq_ok, pure_eq_ok, Prod.mk.injEq] at h
  obtain ⟨case, hcase, _, _, hashes, _, _, _, w1, hremember, hm, _⟩ := h
  have hid : case.case_id = case_id := hw.cases _ _ (findCase_ok hcase)
  have hentitled := entitled_of_grows hgrows (entitled_of_findCase hcase)
  have hguard : Wrote (Put m actor (.planMission actor cmd desk case_id queries reviewer_id))
      w.artifacts w1.artifacts :=
    rememberPolicy_wrote hw.filed (by simp [begun, filed]) (hid ▸ hentitled) hremember
  have hfree : w1.artifacts.get? (missionId actor cmd) = none := by
    obtain ⟨x, hx⟩ := missionId_named actor cmd
    rw [hx] at hfree ⊢
    exact (rememberPolicy_other hremember).trans hfree
  rw [← hm] at hguard hentitled ⊢
  refine hguard.set (put_of_fresh hfree ?_ ?_ hentitled)
  · exact ⟨rfl, missionId_named actor cmd⟩
  · simp [begun, filed, drawer]

variable (seq) in
omit [CollisionFree] in
theorem preparePlanChange_wrote {partner : Option VirtualsSpec} {case_id report_id : Identifier}
    (hfresh : Fresh env w) (hgrows : Grows w m)
    (h : preparePlanChange svc partner env actor case_id report_id w seq = .ok (m, result)) :
    Wrote (Put m actor (.preparePlan actor cmd partner case_id report_id)) w.artifacts
      m.artifacts := by
  obtain ⟨case, spec, report, hcase, _, _, ⟨_, _, _, _, rfl, _⟩ | ⟨_, root, hm, _⟩⟩ :=
    preparePlanChange_ok seq h
  · exact .refl
  · have hentitled := entitled_of_grows hgrows (entitled_of_findCase hcase)
    rw [hm] at hentitled ⊢
    refine .single (put_of_fresh (hfresh.artifacts "acpreview") ?_ ?_ hentitled)
    · exact ⟨rfl, _, rfl⟩
    · simp [begun, filed, drawer]

variable (seq) in
omit [CollisionFree] in
theorem verifyPlanChange_wrote {partner : Option VirtualsSpec} {snapshot : Workspace}
    {spec : VirtualsSpec} {plan : ReviewPlan} {plan_id : Identifier} {job_id : String}
    {history : Except String (List (String × Json))} (hw : Kept w) (hgrows : Grows w m)
    (h : verifyPlanChange svc env actor spec plan plan_id job_id history w seq =
      .ok (m, result)) :
    Wrote (Put m actor (.verifyPlan actor cmd partner snapshot plan_id job_id history))
      w.artifacts m.artifacts := by
  obtain ⟨p, case, hp, _, _, _, hcase, hm⟩ := verifyPlanChange_ok seq h
  have hentitled := entitled_of_grows hgrows (entitled_of_findCase hcase)
  have hfits := hw.filed _ _ hp
  rw [hm] at hentitled ⊢
  exact .single (put_of_known hp hfits (by simp [filed, drawer]) rfl (Or.inl hentitled))

end Changes

section Steps

variable [Sha256]

/-- The key under which the claim that precedes a planned investigation is remembered. -/
def claimKey (actor : Actor) (cmd : Command) : Digest :=
  idempotencyKey actor.actor_id
    ("claim_" ++ shortDigest 40 "investigation-claim" (.str cmd.idempotency_key))

/-- What is stored under an identifier derived from a request was stored by an
answered request. -/
structure Claimed (w : Workspace) : Prop where
  attempts : ∀ actor cmd a, w.artifacts.get? (attemptId actor cmd) = some (.attempt a) →
    ∃ e, w.idempotency.get? (claimKey actor cmd) = some e
  missions : ∀ actor cmd a, w.artifacts.get? (missionId actor cmd) = some (.mission a) →
    ∃ e, w.idempotency.get? (idempotencyKey actor.actor_id cmd.idempotency_key) = some e

variable [CollisionFree] {svc : Service} {env : Environment} {w m : Workspace} {call : Call}
  {tx : Transaction} {result : Result}

omit [CollisionFree] in
theorem rechecked_of_commits {s : Step}
    (h : exec s.svc s.env s.pre s.call = .ok (s.post, s.response))
    (hc : Commits s w tx m result) : recheckScopes w tx = .ok () := by
  simp only [exec, hc.prepared, mutate, hc.loaded, bind_eq_ok, Except.ok.injEq,
    exists_eq_left'] at h
  obtain ⟨_, _, _, _, u, hscopes, _⟩ := h
  exact hscopes

omit [Sha256] [CollisionFree] in
/-- A request that names a case is rechecked for it. -/
theorem entitled_of_recheck {case_id : Identifier} (h : recheckScopes w tx = .ok ())
    (hpayload : payloadText tx.payload "case_id" = some case_id) :
    Entitled w tx.actor (.case case_id) := by
  simp only [recheckScopes, hpayload] at h
  split at h
  · simp only [bind_eq_ok] at h
    obtain ⟨case, hcase, _⟩ := h
    exact entitled_of_findCase hcase
  · simp only [bind_eq_ok] at h
    obtain ⟨_, _, case, hcase, _⟩ := h
    exact entitled_of_findCase hcase

/-- An identifier derived from a request that is new is free. -/
theorem attempt_free {actor : Actor} {cmd : Command} (hw : Kept w) (hclaimed : Claimed w)
    (hnew : w.idempotency.get? (claimKey actor cmd) = none) :
    w.artifacts.get? (attemptId actor cmd) = none := by
  refine free_of_named hw.filed (by simp) (attemptId_named actor cmd) ?_
  intro b hb hkind
  cases b with
  | attempt a =>
    obtain ⟨e, he⟩ := hclaimed.attempts actor cmd a hb
    rw [hnew] at he
    cases he
  | _ => simp [drawer] at hkind

theorem mission_free {actor : Actor} {cmd : Command} (hw : Kept w) (hclaimed : Claimed w)
    (hnew : w.idempotency.get? (idempotencyKey actor.actor_id cmd.idempotency_key) = none) :
    w.artifacts.get? (missionId actor cmd) = none := by
  refine free_of_named hw.filed (by simp) (missionId_named actor cmd) ?_
  intro b hb hkind
  cases b with
  | mission a =>
    obtain ⟨e, he⟩ := hclaimed.missions actor cmd a hb
    rw [hnew] at he
    cases he
  | _ => simp [drawer] at hkind

theorem fetch_free {actor : Actor} {cmd : Command} (hw : Kept w)
    (hnew : w.idempotency.get? (idempotencyKey actor.actor_id cmd.idempotency_key) = none) :
    w.artifacts.get? (fetchId actor cmd) = none := by
  refine free_of_named hw.filed (by simp) (fetchId_named actor cmd) ?_
  intro b hb hkind
  cases b with
  | request q =>
    obtain ⟨e, he⟩ := hw.requested actor cmd q hb
    rw [hnew] at he
    cases he
  | _ => simp [drawer] at hkind

omit [CollisionFree] in
/-- The transaction of a claim, and the key it is remembered under. -/
theorem reserveAttempt_transaction {actor : Actor} {cmd : Command} {case_id : Identifier}
    {snapshot : Workspace}
    (h : reserveAttempt svc env actor cmd case_id snapshot = .ok (.transaction tx)) :
    tx.actor = actor ∧ tx.key = claimKey actor cmd ∧
      ∃ basis, tx.change = reserveAttemptChange env actor cmd case_id basis := by
  simp only [reserveAttempt, bind_eq_ok] at h
  obtain ⟨opened, _, h⟩ := h
  split at h
  · simp only [pure_eq_ok, reduceCtorEq] at h
  · simp only [pure_eq_ok, Prepared.transaction.injEq] at h
    subst h
    exact ⟨rfl, rfl, _, rfl⟩

/-- A change that succeeds for a new request files what its actor may file. -/
theorem wrote_of_change (hp : call.prepare svc env = .ok (.transaction tx))
    (hnew : w.idempotency.get? tx.key = none) (hscopes : recheckScopes w tx = .ok ())
    (h : tx.change w (w.revision + 1) = .ok (m, result)) (hw : Kept w) (hclaimed : Claimed w)
    (hfresh : Fresh env w) (hgrows : Grows w m)
    (hinstalled : ∀ incidents delivery n, call = .ingest incidents delivery n →
      Installed svc incidents) : Wrote (Put m tx.actor call) w.artifacts m.artifacts := by
  cases call with
  | bootstrap actor cmd =>
    have hp := inTransaction_transaction hp
    simp only [TaskCommands.bootstrap, bind_eq_ok, pure_eq_ok] at hp
    obtain ⟨_, _, rfl⟩ := hp
    simp only [pure_eq_ok, Prod.mk.injEq] at h
    rw [← h.1]
    exact .refl
  | setBaseline actor cmd scope limit_minor expires_at =>
    have hp := inTransaction_transaction hp
    simp only [setBaseline, bind_eq_ok, pure_eq_ok] at hp
    obtain ⟨_, _, _, _, rfl⟩ := hp
    obtain ⟨_, b, hb⟩ := setBaselineChange_effect h
    rw [hb.artifacts]
    exact .refl
  | registerTask actor cmd intent depends_on =>
    have hp := inTransaction_transaction hp
    simp only [registerTask, authorize, bind_eq_ok, ensure_eq_ok, pure_eq_ok] at hp
    obtain ⟨_, ⟨_, hsubject⟩, rfl⟩ := hp
    exact registerTaskChange_wrote hw hfresh (hsubject _ rfl) h
  | evaluate actor cmd task_id reconsider =>
    have hp := inTransaction_transaction hp
    simp only [evaluate, bind_eq_ok, pure_eq_ok] at hp
    obtain ⟨_, _, rfl⟩ := hp
    exact evaluateChange_wrote hw hgrows h
  | openCase actor cmd scope kind evidence_digest =>
    have hp := inTransaction_transaction hp
    simp only [openCase, authorize, bind_eq_ok, ensure_eq_ok, pure_eq_ok] at hp
    obtain ⟨_, ⟨_, hsubject⟩, rfl⟩ := hp
    exact openCaseChange_wrote hw.archived (hsubject _ rfl) h
  | reopenCase actor cmd case_id evidence_digest =>
    have hp := inTransaction_transaction hp
    simp only [reopenCase, bind_eq_ok, pure_eq_ok] at hp
    obtain ⟨_, _, rfl⟩ := hp
    exact reopenCaseChange_wrote hw hgrows h
  | quarantineNote actor cmd scope text =>
    have hp := inTransaction_transaction hp
    simp only [quarantineNote, bind_eq_ok, pure_eq_ok] at hp
    obtain ⟨_, _, rfl⟩ := hp
    simp only [pure_eq_ok, Prod.mk.injEq] at h
    rw [← h.1]
    exact .refl
  | reserveAttempt actor cmd case_id snapshot =>
    obtain ⟨hactor, hkey, basis, hchange⟩ := reserveAttempt_transaction hp
    rw [hchange] at h
    rw [hactor]
    exact reserveAttemptChange_wrote (w.revision + 1) hgrows
      (attempt_free hw hclaimed (hkey ▸ hnew)) h
  | investigate actor cmd case_id snapshot planning =>
    rcases investigate_ok hp with ⟨_, htx, _⟩ | ⟨inquiry, report, _, hreport, htx⟩
    · cases htx
    · cases htx
      obtain ⟨hid, hcase, _⟩ := draftReport_ok hreport
      refine investigateChange_wrote (w.revision + 1) hw ?_ ?_ h
      · rw [hid]
        exact hfresh.reports "report"
      · rw [hcase]
        exact entitled_of_grows hgrows (entitled_of_recheck hscopes rfl)
  | handoff actor cmd case_id report_id reviewer_id =>
    have hp := inTransaction_transaction hp
    simp only [handoff, bind_eq_ok, pure_eq_ok] at hp
    obtain ⟨_, _, rfl⟩ := hp
    obtain ⟨_, _, hhands⟩ := handoffChange_effect (w.revision + 1) (hfresh.handoffs "handoff") h
    rw [hhands.artifacts]
    exact .refl
  | acceptHandoff actor cmd handoff_id =>
    have hp := inTransaction_transaction hp
    simp only [acceptHandoff, bind_eq_ok, pure_eq_ok] at hp
    obtain ⟨_, _, rfl⟩ := hp
    obtain ⟨_, _, haccepts⟩ := acceptHandoffChange_effect (w.revision + 1) h
    rw [haccepts.artifacts]
    exact .refl
  | resolve actor cmd case_id handoff_id resolution evidence_digest =>
    have hp := inTransaction_transaction hp
    simp only [resolve, bind_eq_ok, pure_eq_ok] at hp
    obtain ⟨_, _, rfl⟩ := hp
    exact resolveChange_wrote hw hgrows h
  | prepareReview actor cmd task_id decision_id =>
    have hp := inTransaction_transaction hp
    simp only [prepareReview, bind_eq_ok, pure_eq_ok] at hp
    obtain ⟨_, _, rfl⟩ := hp
    exact prepareReviewChange_wrote (w.revision + 1) hw hgrows h
  | prepareAnchor actor cmd task_id decision_id =>
    have hp := inTransaction_transaction hp
    simp only [prepareAnchor, bind_eq_ok, pure_eq_ok] at hp
    obtain ⟨_, _, _, _, rfl⟩ := hp
    exact prepareAnchorChange_wrote (w.revision + 1) hfresh hgrows h
  | verifyAnchor actor cmd snapshot anchor_id tx_hash verified =>
    rcases verifyAnchor_ok hp with ⟨_, htx, _⟩ | ⟨plan, seen, _, htx⟩
    · cases htx
    · cases htx
      exact verifyAnchorChange_wrote (w.revision + 1) hw h
  | reserveSource actor cmd desk case_id source_id resource snapshot force_refresh =>
    have hp := inTransaction_transaction hp
    simp only [reserveSource, bind_eq_ok, pure_eq_ok] at hp
    obtain ⟨acq, _, rfl⟩ := hp
    exact reserveChange_wrote (w.revision + 1) hw hgrows (fetch_free hw hnew) h
  | finishSource actor cmd desk case_id source_id resource snapshot fetched expected_revision =>
    have hp := inTransaction_transaction hp
    simp only [finishSource, bind_eq_ok, pure_eq_ok] at hp
    obtain ⟨acq, _, rfl⟩ := hp
    exact finishChange_wrote (w.revision + 1) hw hfresh hgrows h
  | planMission actor cmd desk case_id queries reviewer_id =>
    have hp := inTransaction_transaction hp
    simp only [planMission, bind_eq_ok, pure_eq_ok] at hp
    obtain ⟨_, _, _, _, rfl⟩ := hp
    exact planMissionChange_wrote hw hgrows (mission_free hw hclaimed hnew) h
  | resumeMission actor cmd snapshot mission_id =>
    have hp := inTransaction_transaction hp
    simp only [resumeMission, bind_eq_ok] at hp
    obtain ⟨_, _, _, _, _, _, hp⟩ := hp
    split at hp
    · simp only [pure_bind, bind_eq_ok, pure_eq_ok] at hp
      obtain ⟨_, _, _, _, _, _, rfl⟩ := hp
      simp only [resumeChange] at h
      split at h
      · simp only [pure_bind, bind_eq_ok, pure_eq_ok, Prod.mk.injEq] at h
        obtain ⟨_, _, _, _, _, _, hm, _⟩ := h
        rw [← hm]
        exact .refl
      · simp only [bind_eq_ok, throw_ne_ok, false_and, exists_false] at h
    · simp only [bind_eq_ok, throw_ne_ok, false_and, exists_false] at hp
  | ingest incidents delivery expected_revision =>
    have hp := inTransaction_transaction hp
    simp only [ingest, item, bind_eq_ok, fetch_eq_ok, pure_eq_ok] at hp
    obtain ⟨spec, hspec, _, _, actor, hactor, rfl⟩ := hp
    obtain ⟨actor', hactor', hauthorized⟩ :=
      hinstalled _ _ _ rfl spec (List.mem_of_find?_eq_some hspec)
    rw [hactor] at hactor'
    cases hactor'
    simp only [authorize, ensure_eq_ok] at hauthorized
    exact ingestChange_wrote hw.archived hfresh (hauthorized.2 _ rfl) h
  | preparePlan actor cmd partner case_id report_id =>
    have hp := inTransaction_transaction hp
    simp only [preparePlan, bind_eq_ok, pure_eq_ok] at hp
    obtain ⟨_, _, rfl⟩ := hp
    exact preparePlanChange_wrote (w.revision + 1) hfresh hgrows h
  | verifyPlan actor cmd partner snapshot plan_id job_id history =>
    rcases verifyPlan_ok hp with ⟨_, htx, _⟩ | ⟨spec, plan, _, htx⟩
    · cases htx
    · cases htx
      exact verifyPlanChange_wrote (w.revision + 1) hw hgrows h

theorem attemptId_inj {actor actor' : Actor} {cmd cmd' : Command}
    (h : attemptId actor cmd = attemptId actor' cmd') :
    actor.actor_id = actor'.actor_id ∧ cmd.idempotency_key = cmd'.idempotency_key := by
  have hseam : '_' ∉ "investigation".toList := by simp
  have hstem := (newId_stem_inj hseam hseam h).2
  have hshort := (shortDigest_inj (by decide)).mp hstem
  simpa only [texts_inj, true_and, List.cons.injEq, and_true] using hshort

theorem missionId_inj {actor actor' : Actor} {cmd cmd' : Command}
    (h : missionId actor cmd = missionId actor' cmd') :
    actor.actor_id = actor'.actor_id ∧ cmd.idempotency_key = cmd'.idempotency_key := by
  have hseam : '_' ∉ "mission".toList := by simp
  have hstem := (newId_stem_inj hseam hseam h).2
  have hshort := (shortDigest_inj (by decide)).mp hstem
  simp only [texts_inj, true_and, List.cons.injEq, and_true] at hshort
  exact hshort.2

/-- A new attempt is that of a claim, a new mission that of its plan. -/
theorem claimed_of_happened {s : Step} (h : Happened s w tx m result) (hclaimed : Claimed w)
    (hwrote : Wrote (Put m tx.actor s.call) w.artifacts m.artifacts) :
    Claimed (recorded s.env w m tx result) := by
  have hkept : ∀ key e, w.idempotency.get? key = some e →
      ∃ e', (recorded s.env w m tx result).idempotency.get? key = some e' := by
    intro key e he
    rw [recorded_idempotency]
    split
    · exact ⟨_, rfl⟩
    · exact ⟨e, he⟩
  have hown : ∃ e, (recorded s.env w m tx result).idempotency.get? tx.key = some e := by
    rw [recorded_idempotency, if_pos rfl]
    exact ⟨_, rfl⟩
  have hfiled : ∀ k a, m.artifacts.get? k = some a → Fits k a :=
    hwrote.all (fun _ _ _ hput _ => hput.fits) h.kept.filed
  constructor
  · intro actor cmd a ha
    have ha : m.artifacts.get? (attemptId actor cmd) = some (.attempt a) := ha
    cases hold : w.artifacts.get? (attemptId actor cmd) with
    | some b =>
      have hkind := (h.kept.filed _ _ hold).drawer_eq (hfiled _ _ ha)
      cases b with
      | attempt b =>
        obtain ⟨e, he⟩ := hclaimed.attempts actor cmd b hold
        exact hkept _ e he
      | _ => simp [drawer] at hkind
    | none =>
      obtain ⟨b, hput⟩ := hwrote.begun hold ha
      have hkind := hput.begins rfl
      rw [hput.fits.drawer_eq (hfiled _ _ ha)] at hkind
      have hp := h.commits.prepared
      cases hcall : s.call with
      | reserveAttempt actor' cmd' case_id snapshot =>
        rw [hcall] at hp
        obtain ⟨_, hkey, basis, hchange⟩ := reserveAttempt_transaction hp
        have hchanged := h.commits.changed
        simp only [hchange, reserveAttemptChange, bind_eq_ok, pure_eq_ok, Prod.mk.injEq] at hchanged
        obtain ⟨_, _, _, _, _, _, _, _, hm, _⟩ := hchanged
        rw [← hm] at ha
        have hsame : attemptId actor' cmd' = attemptId actor cmd := by
          by_contra hne
          have hother := (Dict.get?_set_of_ne w.artifacts _ hne).symm.trans ha
          rw [hold] at hother
          cases hother
        obtain ⟨hactor, hcmd⟩ := attemptId_inj hsame
        rw [hkey] at hown
        unfold claimKey at hown ⊢
        rw [← hactor, ← hcmd]
        exact hown
      | _ => simp [hcall, begun, filed, drawer] at hkind
  · intro actor cmd a ha
    have ha : m.artifacts.get? (missionId actor cmd) = some (.mission a) := ha
    cases hold : w.artifacts.get? (missionId actor cmd) with
    | some b =>
      have hkind := (h.kept.filed _ _ hold).drawer_eq (hfiled _ _ ha)
      cases b with
      | mission b =>
        obtain ⟨e, he⟩ := hclaimed.missions actor cmd b hold
        exact hkept _ e he
      | _ => simp [drawer] at hkind
    | none =>
      obtain ⟨b, hput⟩ := hwrote.begun hold ha
      have hkind := hput.begins rfl
      rw [hput.fits.drawer_eq (hfiled _ _ ha)] at hkind
      have hp := h.commits.prepared
      cases hcall : s.call with
      | planMission actor' cmd' desk case_id queries reviewer_id =>
        rw [hcall] at hp
        have hp := inTransaction_transaction hp
        simp only [planMission, bind_eq_ok, pure_eq_ok] at hp
        obtain ⟨_, _, _, _, rfl⟩ := hp
        have hchanged := h.commits.changed
        simp only [planMissionChange, bind_eq_ok, pure_eq_ok, Prod.mk.injEq] at hchanged
        obtain ⟨_, _, _, _, _, _, _, _, w1, hremember, hm, _⟩ := hchanged
        rw [← hm] at ha
        have hsame : missionId actor' cmd' = missionId actor cmd := by
          by_contra hne
          have hother := (Dict.get?_set_of_ne w1.artifacts _ hne).symm.trans ha
          obtain ⟨x, hx⟩ := missionId_named actor cmd
          rw [hx] at hother hold
          rw [rememberPolicy_other hremember, hold] at hother
          cases hother
        obtain ⟨hactor, hcmd⟩ := missionId_inj hsame
        rw [← hactor, ← hcmd]
        exact hown
      | _ => simp [hcall, begun, filed, drawer] at hkind

end Steps

section Runs

variable [Sha256] [CollisionFree] {steps : List Step} {s : Step} {w m : Workspace}
  {tx : Transaction} {result : Result}

theorem wrote_of_occurs (h : Occurs steps s w tx m result) (hclaimed : Claimed w) :
    Wrote (Put m tx.actor s.call) w.artifacts m.artifacts :=
  wrote_of_change h.commits.prepared h.commits.new
    (rechecked_of_commits h.now.executed h.commits) h.commits.changed h.kept hclaimed h.fresh
    (effect_keeps h.effect h.kept h.fresh).2.2 h.now.installed

theorem claimed_of_run {st : Option Workspace} (h : Run casework steps st) :
    ∀ w, st = some w → Claimed w := by
  refine invariant_of_events Claimed ?_ ?_ h
  · intro tenant_id
    constructor <;> simp [sealed, Workspace.blank]
  · intro steps s w tx m result ho hw
    exact claimed_of_happened ho.toHappened hw (wrote_of_occurs ho hw)

/-- Every event files by what its actor may file. -/
theorem occurs_wrote (h : Occurs steps s w tx m result) :
    Wrote (Put m tx.actor s.call) w.artifacts m.artifacts := by
  refine wrote_of_occurs h ?_
  rcases h.before with hpre | ⟨_, tenant_id, rfl⟩
  · exact claimed_of_run h.ran w hpre
  · constructor <;> simp [sealed, Workspace.blank]

/-- What a call does not file stays as it is. -/
theorem kept_of_occurs (h : Occurs steps s w tx m result) {k : String} {b : Artifact}
    (hb : w.artifacts.get? k = some b) (hkind : drawer b ∉ filed s.call) :
    m.artifacts.get? k = some b := by
  have hkeeps := (occurs_wrote h).keeps
    (R := fun k b a => Fits k b → drawer b ∉ filed s.call → a = b) (fun _ _ _ _ => rfl) ?_ ?_ hb
  · obtain ⟨a, ha, hR⟩ := hkeeps
    rw [ha, hR (h.kept.filed _ _ hb) hkind]
  · intro k b b' b'' hfirst hsecond hfits hother
    have hsame := hfirst hfits hother
    subst hsame
    exact hsecond hfits hother
  · intro k b a hput hfits hother
    rw [hfits.drawer_eq hput.fits] at hother
    exact absurd hput.suits hother

/-- What a call does not file was there before. -/
theorem stored_of_occurs (h : Occurs steps s w tx m result) {k : String} {a : Artifact}
    (ha : m.artifacts.get? k = some a) (hkind : drawer a ∉ filed s.call) :
    w.artifacts.get? k = some a :=
  (occurs_wrote h).stored_of (P := fun a => drawer a ∉ filed s.call)
    (fun _ _ _ hput hother => hother hput.suits) ha hkind

end Runs

end MemoryGuard.Custody
