import MemoryGuard.Bundles

/-!
Reports that stand. What an investigation stores, its report, its bundle and the
record of its attempt, changes nothing that investigations rest on, and the
bundle asks only for the evidence it shows. So a new report stands, and goes on
standing while its case's file stays the same and no receipt of it expires.
-/
namespace MemoryGuard.LastingReports

open OrderedDict Guarded DependencyGraph JsonText ContentHash Models Artifacts Aggregate Core
open Closure Policy SourceModels SourceState SourceGuard SourceService Transactions TaskCommands
open CaseCommands Traces Calls Filing Floors EvidenceEffects TaskEffects CaseEffects Effects
open Growth Upkeep Lifecycle History Standing Integrity Heads Grounds Bundles Progress
open Completion (HandedTo)

variable [Sha256] {w m : Workspace} {case_id : Identifier}

section Files

/-- Two workspaces in which a case rests on the same evidence and owes the same. -/
structure SameFile (w m : Workspace) (case_id : Identifier) : Prop extends SameGrounds w m where
  tenant : m.tenant_id = w.tenant_id
  owes : obligations m case_id = obligations w case_id
  guard : storedGuard m case_id = storedGuard w case_id
  receipts : ∀ key r, w.artifacts.get? key = some (.receipt r) →
    m.artifacts.get? key = some (.receipt r)
  requests : ∀ key q, w.artifacts.get? key = some (.request q) →
    m.artifacts.get? key = some (.request q)

theorem SameFile.refl (w : Workspace) (case_id : Identifier) : SameFile w w case_id :=
  ⟨.refl w, rfl, rfl, rfl, fun _ _ h => h, fun _ _ h => h⟩

theorem SameFile.trans {w' : Workspace} (h : SameFile w w' case_id) (h' : SameFile w' m case_id) :
    SameFile w m case_id :=
  ⟨h.toSameGrounds.trans h'.toSameGrounds, h'.tenant.trans h.tenant, h'.owes.trans h.owes,
    h'.guard.trans h.guard, fun key r hr => h'.receipts key r (h.receipts key r hr),
    fun key q hq => h'.requests key q (h.requests key q hq)⟩

/-- Reports and handoffs are no part of the file. -/
theorem SameFile.of_quiet (h : Quiet w m) (hartifacts : m.artifacts = w.artifacts) :
    SameFile w m case_id := by
  refine ⟨⟨h.tasks, h.cases, h.baselines, h.logs.lessons, ?_, ?_⟩, h.tenant, ?_, ?_, ?_, ?_⟩
  · intro ids
    unfold resolutionLinks
    rw [hartifacts]
  · intro case_id
    unfold evidenceHeads
    rw [h.cases, hartifacts]
  · unfold obligations caseArtifacts
    rw [hartifacts]
  · unfold storedGuard
    rw [hartifacts]
  · intro key r hr
    rw [hartifacts, hr]
  · intro key q hq
    rw [hartifacts, hq]

variable [CollisionFree] {k : String} {a : Artifact}

omit [CollisionFree] in
/-- What stands in another drawer is not overwritten. -/
theorem kept_of_filed [CollisionFree] {d : Dict String Artifact} (hd : Filed d) (fits : Fits k a)
    {key : String} {old : Artifact} (hold : d.get? key = some old) (hkind : drawer old ≠ drawer a) :
    (d.set k a).get? key = some old := by
  have hne : k ≠ key := by
    rintro rfl
    exact hkind (hd.drawer_eq hold fits)
  rw [Dict.get?_set_of_ne _ _ hne, hold]

theorem storedGuard_of_filed (fits : Fits k a) (hkind : drawer a ≠ .hashed "source-policy-guard")
    (case_id : Identifier) :
    storedGuard (refile w (w.artifacts.set k a)) case_id = storedGuard w case_id := by
  have hne : k ≠ guardKey case_id := by
    rintro rfl
    have hguard : InDrawer (guardKey case_id) (.hashed "source-policy-guard") := ⟨_, rfl⟩
    exact hkind (inDrawer_unique (drawer_plain a) trivial fits.inDrawer hguard)
  unfold storedGuard
  simp only [refile, Dict.get?_set_of_ne _ _ hne]

/-- What is neither a link nor read for obligations leaves every file alone. -/
theorem sameFile_of_filed (hw : Filed w.artifacts) (fits : Fits k a)
    (hlink : drawer a ≠ .hashed "resolution-link") (hkind : drawer a ∉ obliging) :
    SameFile w (refile w (w.artifacts.set k a)) case_id := by
  simp only [obliging, List.mem_cons, List.not_mem_nil, or_false, not_or] at hkind
  obtain ⟨hguard, hrequest, hhead, hreceipt, hbundle⟩ := hkind
  refine ⟨sameGrounds_of_filed hw fits hlink hhead, rfl, ?_, storedGuard_of_filed fits hguard _,
    ?_, ?_⟩
  · exact obligations_of_filed hw fits (by simp [obliging, *]) case_id
  · intro key r hr
    exact kept_of_filed hw fits hr (by simpa [drawer] using Ne.symm hreceipt)
  · intro key q hq
    exact kept_of_filed hw fits hq (by simpa [drawer] using Ne.symm hrequest)

end Files

section Contexts

variable {desk : EvidenceDesk} {time : Instant} {value : EvidenceContext} {case : RiskCase}

/-- Whether a case needs a context. -/
def Demands (desk : EvidenceDesk) (w : Workspace) (case_id : Identifier) (case : RiskCase) : Prop :=
  policy desk w case ≠ none ∨ HasObligations w case_id

theorem reportContext_none_iff (hc : w.cases.get? case_id = some case) :
    reportContext desk w case_id time = .ok none ↔ ¬ Demands desk w case_id case := by
  simp only [reportContext, item, hc, fetch, bind, Except.bind, Demands, not_or, not_not,
    Option.isNone_iff_eq_none]
  split
  · rename_i hfree
    simpa [pure, Except.pure] using hfree
  · rename_i hdemands
    refine ⟨fun h => ?_, fun h => absurd h hdemands⟩
    cases hcontext : context desk w case_id time with
    | error e => simp [hcontext] at h
    | ok value => simp [hcontext, pure, Except.pure] at h

theorem reportContext_of_demands (hc : w.cases.get? case_id = some case)
    (hdemands : Demands desk w case_id case) (h : context desk w case_id time = .ok value) :
    reportContext desk w case_id time = .ok (some value) := by
  have hsome : ¬ ((policy desk w case).isNone = true ∧ ¬ HasObligations w case_id) := by
    rw [Option.isNone_iff_eq_none]
    rcases hdemands with hpolicy | hobliged
    · exact fun hnone => hpolicy hnone.1
    · exact fun hnone => hnone.2 hobliged
  simp only [reportContext, item, hc, fetch, hsome, h, bind, Except.bind]
  rfl

theorem demands_of_reportContext (hc : w.cases.get? case_id = some case)
    (h : reportContext desk w case_id time = .ok (some value)) : Demands desk w case_id case := by
  by_contra hfree
  rw [(reportContext_none_iff hc).mpr hfree] at h
  cases h

/-- The evidence of a case is computed from its workspace's cases and artifacts. -/
theorem reportContext_congr (htenant : m.tenant_id = w.tenant_id) (hcases : m.cases = w.cases)
    (hartifacts : m.artifacts = w.artifacts) :
    reportContext desk m case_id time = reportContext desk w case_id time := by
  obtain ⟨⟩ := w
  obtain ⟨⟩ := m
  dsimp only at htenant hcases hartifacts
  subst htenant hcases hartifacts
  rfl

theorem effectivePolicy_of_reportContext {external : Option EvidenceContext}
    (hc : w.cases.get? case_id = some case) (hid : case.case_id = case_id)
    (h : reportContext desk w case_id time = .ok external) :
    ∃ floor, effectivePolicy w case_id (policy desk w case) = .ok floor := by
  cases external with
  | none =>
    have hfree := (reportContext_none_iff hc).mp h
    simp only [Demands, not_or, not_not, HasObligations] at hfree
    obtain ⟨hpolicy, _, hconfigured⟩ := hfree
    refine ensure_total ?_ (ensure_total ?_ ⟨_, rfl⟩)
    · exact fun hboth => hconfigured hboth.1
    · simp [hpolicy]
  | some value =>
    obtain ⟨case', floor, _, hcontext⟩ := context_ok (reportContext_some h)
    have hsame := hc.symm.trans hcontext.stored
    cases hsame
    exact ⟨floor, hid ▸ hcontext.effective⟩

end Contexts

section Standing

variable {svc : Service} {env : Environment} {desk : Option EvidenceDesk} {since time : Instant}
  {case : RiskCase} {report : Report} {external : Option EvidenceContext}

/-- From a moment on, and before any of the evidence expires. -/
def InTime (since : Instant) (external : Option EvidenceContext) (time : Instant) : Prop :=
  since ≤ time ∧ ∀ v ∈ external, ∀ r ∈ v.receipts, time < r.expires_at

/-- A report on an open case, made with the evidence that the case still has. -/
structure Lasting (desk : Option EvidenceDesk) (since : Instant) (w : Workspace) (case : RiskCase)
    (report : Report) (external : Option EvidenceContext) : Prop where
  stored : w.cases.get? case.case_id = some case
  opened : case.status = .opened
  reported : w.reports.get? report.report_id = some report
  about : report.case_id = case.case_id
  version : report.case_version = case.version
  basis : investigationBasis w case.case_id = .ok report.basis_hash
  inspected : (inspections report).map TraceEvent.output_hash =
    (external.map (fun context => some (digest "tool-output" context.toJson))).toList
  without : desk = none → external = none ∧ ¬ HasObligations w case.case_id
  evidence : ∀ d, desk = some d → ∀ time, InTime since external time →
    reportContext d w case.case_id time = .ok external
  sound : ∀ v ∈ external, v.source_conflicts = [] ∧ v.coverage_complete = true

/-- What neither files nor reports leaves a report standing. -/
theorem Lasting.later (h : Lasting desk since w case report external) (hquiet : Quiet w m)
    (hreports : m.reports = w.reports) (hartifacts : m.artifacts = w.artifacts) :
    Lasting desk since m case report external := by
  have hfile : SameFile w m case.case_id := .of_quiet hquiet hartifacts
  have hobliged : HasObligations m case.case_id ↔ HasObligations w case.case_id := by
    unfold HasObligations
    rw [hfile.owes]
  refine ⟨?_, h.opened, ?_, h.about, h.version, ?_, h.inspected, ?_, ?_, h.sound⟩
  · rw [hquiet.cases, h.stored]
  · rw [hreports, h.reported]
  · rw [hfile.investigationBasis_eq, h.basis]
  · rw [hobliged]
    exact h.without
  · intro d hd time htime
    rw [reportContext_congr hquiet.tenant hquiet.cases hartifacts]
    exact h.evidence d hd time htime

/-- Recomputing the evidence finds what the report inspected. -/
theorem Lasting.validate {d : EvidenceDesk} (h : Lasting desk since w case report external)
    (hdesk : desk = some d) (htime : InTime since external time) :
    validateReport d w case report time = .ok () := by
  have hcontext := h.evidence d hdesk time htime
  cases external with
  | none =>
    simp only [validateReport, hcontext, bind, Except.bind]
    rfl
  | some value =>
    obtain ⟨hconflicts, hcomplete⟩ := h.sound value rfl
    have hinspected : (inspections report).map TraceEvent.output_hash =
        [some (digest "tool-output" value.toJson)] := h.inspected
    simp only [validateReport, hcontext, hinspected, hconflicts, hcomplete, ensure,
      List.isEmpty_nil, if_true, bind, Except.bind]

/-- The report passes every check that is made of it. -/
theorem Lasting.valid (h : Lasting desk since w case report external)
    (hdesk : svc.evidence_desk = desk) (htime : InTime since external (env.clock .report)) :
    validReport svc env w case report.report_id = .ok report := by
  have hpresent : requireDesk w case.case_id svc.evidence_desk (some report) = .ok () := by
    refine ensure_eq_ok.mpr ?_
    rintro ⟨hnone, hneeded⟩
    have hnone : desk = none := by
      rw [← hdesk]
      simpa using hnone
    obtain ⟨hexternal, hfree⟩ := h.without hnone
    have hnever : inspections report = [] := by
      simpa [hexternal] using h.inspected
    rcases hneeded with ⟨r, hr, hinspected⟩ | hobliged
    · cases hr
      exact hinspected hnever
    · exact hfree hobliged
  cases hd : svc.evidence_desk with
  | none =>
    rw [hd] at hpresent
    simp only [validReport, h.reported, h.about, h.version, h.opened, h.basis, hpresent, hd, fetch,
      ensure, and_self, if_true, bind, Except.bind]
    rfl
  | some d =>
    have hvalidated := h.validate (hdesk.symm.trans hd) htime
    rw [hd] at hpresent
    simp only [validReport, h.reported, h.about, h.version, h.opened, h.basis, hpresent, hd, fetch,
      ensure, and_self, if_true, hvalidated, bind, Except.bind]
    rfl

/-- The evidence suffices for a resolution that names its bundle. -/
theorem Lasting.resolution {d : EvidenceDesk} {evidence_digest : Digest}
    (h : Lasting desk since w case report external) (hdesk : desk = some d)
    (htime : InTime since external time)
    (hdigest : ∀ v ∈ external, evidence_digest = v.bundle_root) :
    SourceService.resolution d w case evidence_digest time = .ok () := by
  have hcontext := h.evidence d hdesk time htime
  cases external with
  | none =>
    simp only [SourceService.resolution, hcontext, bind, Except.bind]
    rfl
  | some value =>
    obtain ⟨hconflicts, hcomplete⟩ := h.sound value rfl
    have hroot := hdigest value rfl
    simp only [SourceService.resolution, hcontext, hroot, hconflicts, hcomplete, ensure,
      List.isEmpty_nil, and_self, if_true, bind, Except.bind]

variable [CollisionFree] {seq : ℕ}

/-- The policy of the case can still be remembered when the resolution is linked. -/
theorem Lasting.remembers {resolved : RiskCase} {past : List RiskCase}
    {start : Dict String Artifact} (h : Lasting desk since w case report external)
    (hw : Filed w.artifacts) (htime : InTime since external time)
    (hlinked : Linked w case.case_id (case.version + 1) seq start)
    (hid : resolved.case_id = case.case_id) (hscope : resolved.scope = case.scope) :
    ∃ w', deskRemembers desk (recordCase (refile w start) resolved past) resolved [] = .ok w' := by
  cases desk with
  | none => exact ⟨_, rfl⟩
  | some d =>
    obtain ⟨floor, hfloor⟩ := effectivePolicy_of_reportContext h.stored rfl
      (h.evidence d rfl time htime)
    have hfile : obligations (refile w start) case.case_id = obligations w case.case_id ∧
        storedGuard (refile w start) case.case_id = storedGuard w case.case_id := by
      rcases hlinked with rfl | ⟨p, hcase, hversion, _, rfl⟩
      · exact ⟨rfl, rfl⟩
      · have fits : Fits (resolutionLinkKey case.case_id (case.version + 1))
            (.resolutionProof p) := by
          change _ = resolutionLinkKey p.case_id p.case_version
          rw [hcase, hversion]
        exact ⟨obligations_of_filed hw fits (by simp [obliging, drawer]) _,
          storedGuard_of_filed fits (by simp [drawer]) _⟩
    have hpolicy : policy d (recordCase (refile w start) resolved past) resolved =
        policy d w case := by
      unfold policy
      rw [hscope]
      rfl
    have hstored : effectivePolicy (recordCase (refile w start) resolved past) case.case_id
        (policy d w case) = .ok floor := by
      rw [← hfloor]
      have howes : obligations (recordCase (refile w start) resolved past) case.case_id =
          obligations w case.case_id := hfile.1
      have hguard : storedGuard (recordCase (refile w start) resolved past) case.case_id =
          storedGuard w case.case_id := hfile.2
      simp only [effectivePolicy, howes, hguard]
    simp only [deskRemembers, hpolicy, hid]
    refine bind_total hstored ?_
    dsimp only
    split
    · exact ⟨_, rfl⟩
    · exact ⟨_, rfl⟩

end Standing

section Investigating

variable {svc : Service} {env : Environment} {actor : Actor} {cmd : Command} {snapshot : Workspace}
  {inquiry : Inquiry} {planning : Planning} {report : Report} {seq : ℕ} {result : Result}

/-- What an investigation made sure of before it captured anything. -/
structure Cleared (svc : Service) (actor : Actor) (snapshot : Workspace) (case_id : Identifier)
    (inquiry : Inquiry) : Prop where
  role : actor.role = .investigator
  tenant : snapshot.tenant_id = actor.tenant_id
  subject : inquiry.case.scope.subject_id ∈ actor.subjects
  present : requireDesk snapshot case_id svc.evidence_desk none = .ok ()
  sound : ∀ v ∈ inquiry.external, v.source_conflicts = [] ∧ v.coverage_complete = true

theorem openInvestigation_cleared
    (h : openInvestigation svc env actor cmd case_id snapshot = .ok (.inr inquiry)) :
    Cleared svc actor snapshot case_id inquiry := by
  simp only [openInvestigation, authorize, bind_eq_ok, ensure_eq_ok] at h
  obtain ⟨_, ⟨hrole, _⟩, _, _, _, htenant, case, hcase, h⟩ := h
  have hsubject : case.scope.subject_id ∈ actor.subjects := by
    simp only [findCase, bind_eq_ok, fetch_eq_ok, ensure_eq_ok, pure_eq_ok] at hcase
    obtain ⟨_, _, _, hsubject, rfl⟩ := hcase
    exact hsubject
  have hrole : actor.role = .investigator := by simpa using hrole
  split at h
  · simp only [bind_eq_ok, pure_eq_ok, reduceCtorEq, and_false, exists_false] at h
  · split at h
    · simp only [bind_eq_ok, throw_ne_ok, false_and, and_false, exists_false] at h
    · simp only [bind_eq_ok, throw_ne_ok, false_and, exists_false] at h
    · simp only [bind_eq_ok] at h
      obtain ⟨_, _, _, _, _, hpresent, basis, _, h⟩ := h
      have hplain : (pure (.inr ⟨case, basis, none⟩) : Except CaseworkError (Response ⊕ Inquiry)) =
          .ok (.inr inquiry) → Cleared svc actor snapshot case_id inquiry := by
        intro hok
        simp only [pure_eq_ok, Sum.inr.injEq] at hok
        subst hok
        exact ⟨hrole, htenant, hsubject, hpresent, by simp⟩
      split at h
      · exact hplain h
      · simp only [bind_eq_ok] at h
        obtain ⟨external, _, h⟩ := h
        cases external with
        | none => exact hplain h
        | some context =>
          simp only [bind_eq_ok, ensure_eq_ok, pure_eq_ok, Sum.inr.injEq] at h
          obtain ⟨_, hconflicts, _, hcomplete, rfl⟩ := h
          refine ⟨hrole, htenant, hsubject, hpresent, ?_⟩
          intro v hv
          cases hv
          exact ⟨by simpa using hconflicts, hcomplete⟩

variable [CollisionFree]

/-- A bundle is read for obligations, and for nothing else. -/
theorem sameEvidence_bundled {bundle : ReportBundle} {key : String}
    (hfile : SameFile snapshot w case_id) (hw : Filed w.artifacts)
    (fits : Fits key (.reportBundle bundle)) :
    SameEvidence snapshot (refile w (w.artifacts.set key (.reportBundle bundle))) case_id := by
  have hgrounds := sameGrounds_of_filed hw fits (by simp [drawer]) (by simp [drawer])
  refine ⟨hfile.tenant, ?_, ?_, ?_, ?_⟩
  · exact congrArg (fun cases => cases.get? case_id) hfile.cases
  · exact (hgrounds.heads case_id).trans (hfile.heads case_id)
  · intro k r hr
    exact kept_of_filed hw fits (hfile.receipts k r hr) (by simp [drawer])
  · intro k q hq
    exact kept_of_filed hw fits (hfile.requests k q hq) (by simp [drawer])

omit [Sha256] [CollisionFree] in
/-- An artifact under a new key adds what it demands, and takes nothing away. -/
theorem obligations_added {k : String} {a : Artifact} {floor : Obligations}
    (hrecent : ∀ b ∈ w.artifacts.values, Recent b) (ha : Recent a)
    (hnew : w.artifacts.get? k = none) (howes : obligations w case_id ≤ floor)
    (howed : owedTo case_id a ≤ floor) :
    obligations w case_id ≤ obligations (refile w (w.artifacts.set k a)) case_id ∧
      obligations (refile w (w.artifacts.set k a)) case_id ≤ floor := by
  have hrecents : ∀ b ∈ (w.artifacts.set k a).values, Recent b := recent_set hrecent ha
  constructor
  · have hcovers : Covers w.artifacts (w.artifacts.set k a) := by
      refine Covers.set ?_
      intro old hold
      rw [hnew] at hold
      cases hold
    exact hcovers.obligations_le hrecent hrecents case_id
  · refine (obligations_le_iff hrecents).mpr ?_
    intro b hb
    obtain ⟨key, hkey⟩ := Dict.exists_get?_of_mem_values hb
    change (w.artifacts.set k a).get? key = some b at hkey
    rw [Dict.get?_set] at hkey
    split at hkey
    · cases hkey
      exact howed
    · have hold := owedTo_le_obligations case_id hrecent (Dict.mem_values_of_get? hkey)
      exact le_trans hold howes

/-- Storing the bundle makes the case owe nothing that its context did not demand,
so the context is the same until a receipt expires. -/
theorem reportContext_bundled {d : EvidenceDesk} {value : EvidenceContext} {case : RiskCase}
    {since time : Instant} (hrecent : ∀ a ∈ snapshot.artifacts.values, Recent a)
    (hfile : SameFile snapshot w case_id) (hw : Filed w.artifacts)
    (hw' : ∀ a ∈ w.artifacts.values, Recent a)
    (hnew : w.artifacts.get? (reportSourcesKey report.report_id) = none)
    (hc : snapshot.cases.get? case_id = some case) (hid : case.case_id = case_id)
    (hvalue : reportContext d snapshot case_id since = .ok (some value))
    (hcomplete : value.coverage_complete = true) (htime : InTime since (some value) time) :
    reportContext d (storeBundle report (some value) w) case_id time = .ok (some value) := by
  let key := reportSourcesKey report.report_id
  let bundle := Artifact.reportBundle (bundleOf report value)
  let stored := refile w (w.artifacts.set key bundle)
  have hstored : storeBundle report (some value) w = stored := rfl
  have fits : Fits key bundle := rfl
  have hcontext := reportContext_some hvalue
  obtain ⟨case', floor, receipts, hof⟩ := context_ok hcontext
  have hsame : case' = case := Option.some.inj (hof.stored.symm.trans hc)
  subst hsame
  obtain ⟨receipts', hcurrent', hshown⟩ := context_receipts hcontext
  have hreceipts : receipts' = receipts := congrArg Prod.fst
    (Except.ok.inj (hcurrent'.symm.trans hof.current))
  subst hreceipts
  have hevidence : SameEvidence snapshot stored case_id := sameEvidence_bundled hfile hw fits
  have hbundle : owedTo case_id bundle ≤ floor :=
    owedTo_bundle_le hrecent hof hid hcomplete hshown rfl
  have hrecorded : Recent bundle := by
    change value.source_obligations.isSome
    rw [hof.recorded]
    rfl
  have howes : obligations w case_id ≤ floor := by
    rw [hfile.owes]
    exact hid ▸ (effectivePolicy_ok hof.effective).1
  obtain ⟨hgrown, hwithin⟩ := obligations_added (k := key) hw' hrecorded hnew howes hbundle
  rw [hfile.owes] at hgrown
  have hguard : storedGuard stored case_id = storedGuard snapshot case_id := by
    rw [← hfile.guard]
    exact storedGuard_of_filed fits (by simp [drawer, bundle]) _
  have hlive : ∀ r ∈ receipts', time < r.expires_at := by
    intro r hr
    have hsummary : summary r ∈ value.receipts := hshown ▸ List.mem_map_of_mem hr
    exact htime.2 value rfl (summary r) hsummary
  have hlater := context_later hcontext hof hid hcomplete hevidence hgrown hwithin hguard
    htime.1 hlive
  rw [hstored]
  refine reportContext_of_demands (hevidence.cases.trans hc) ?_ hlater
  rcases demands_of_reportContext hc hvalue with hpolicy | hobliged
  · left
    rw [policy_congr (w := snapshot) (m := stored) hfile.tenant]
    exact hpolicy
  · right
    rcases hobliged with hsources | hconfigured
    · obtain ⟨s, hs⟩ := List.exists_mem_of_ne_nil _ hsources
      exact Or.inl (List.ne_nil_of_mem (hgrown.1 s hs))
    · exact Or.inr (hgrown.2.2 hconfigured)

/-- What an investigation stores leaves its own report standing. -/
theorem lasting_of_captured (hs : Shaped snapshot)
    (hcaptured : Captured svc env snapshot case_id inquiry)
    (hcleared : Cleared svc actor snapshot case_id inquiry)
    (hdrafted : draftReport env actor case_id snapshot inquiry planning = .ok report)
    (hfile : SameFile snapshot w case_id) (hw : Filed w.artifacts)
    (hrecent : ∀ a ∈ w.artifacts.values, Recent a)
    (hnew : w.artifacts.get? (reportSourcesKey report.report_id) = none)
    (hreported : w.reports.get? report.report_id = some report) :
    Lasting svc.evidence_desk (env.clock .external) (storeBundle report inquiry.external w)
      inquiry.case report inquiry.external := by
  obtain ⟨_, habout, hversion, _, hbasis, hinspected⟩ := draftReport_ok hdrafted
  have hid : inquiry.case.case_id = case_id := hs.cases _ _ hcaptured.case
  have hgrounds : SameGrounds snapshot (storeBundle report inquiry.external w) := by
    cases inquiry.external with
    | none => exact hfile.toSameGrounds
    | some value =>
      have fits : Fits (reportSourcesKey report.report_id)
        (.reportBundle (bundleOf report value)) := rfl
      exact hfile.toSameGrounds.trans
        (sameGrounds_of_filed hw fits (by simp [drawer]) (by simp [drawer]))
  refine ⟨?_, hcaptured.opened, ?_, habout.trans hid.symm, hversion, ?_, hinspected, ?_, ?_,
    hcleared.sound⟩
  · rw [hgrounds.cases, hid, hcaptured.case]
  · cases inquiry.external with
    | none => exact hreported
    | some value => exact hreported
  · rw [hgrounds.investigationBasis_eq, hid, hcaptured.basis, hbasis]
  · intro hnone
    have hwithout := hcaptured.without hnone
    refine ⟨hwithout, ?_⟩
    have hpresent := ensure_eq_ok.mp hcleared.present
    simp only [hnone, Option.isNone_none, true_and, not_or] at hpresent
    rw [hwithout, hid]
    have howes := hfile.owes
    change ¬ HasObligations w case_id
    unfold HasObligations
    rw [howes]
    exact hpresent.2
  · intro d hd time htime
    have hexternal := hcaptured.external d hd
    rw [hid]
    cases hvalue : inquiry.external with
    | some value =>
      rw [hvalue] at hexternal htime
      exact reportContext_bundled hs.recent hfile hw hrecent hnew hcaptured.case hid hexternal
        (hcleared.sound value (by rw [hvalue]; rfl)).2 htime
    | none =>
      rw [hvalue] at hexternal
      have hfree := (reportContext_none_iff hcaptured.case).mp hexternal
      have hcase : w.cases.get? case_id = some inquiry.case := by
        rw [hfile.cases, hcaptured.case]
      refine (reportContext_none_iff (w := w) hcase).mpr ?_
      unfold Demands HasObligations at hfree ⊢
      rw [policy_congr hfile.tenant, hfile.owes]
      exact hfree

variable (seq) in
theorem reserveAttemptChange_file {basis : Digest} (hw : Filed w.artifacts)
    (h : reserveAttemptChange env actor cmd case_id basis w seq = .ok (m, result))
    (id : Identifier) : SameFile w m id := by
  simp only [reserveAttemptChange, bind_eq_ok, pure_eq_ok, Prod.mk.injEq] at h
  obtain ⟨live, _, _, _, current, _, _, _, rfl, _⟩ := h
  exact sameFile_of_filed hw ⟨rfl, attemptId_named actor cmd⟩ (by simp [drawer])
    (by simp [obliging, drawer])

/-- Completing the attempt touches no file and no bundle. -/
theorem completeAttempt_file {attempt_id : String} {report_id : Identifier}
    (hw : Filed w.artifacts) (hrecent : ∀ a ∈ w.artifacts.values, Recent a)
    (h : completeAttempt env attempt_id report_id w = .ok m) :
    SameFile w m case_id ∧ m.reports = w.reports ∧ Filed m.artifacts ∧
      (∀ a ∈ m.artifacts.values, Recent a) ∧
      ∀ key, w.artifacts.get? key = none → m.artifacts.get? key = none := by
  unfold completeAttempt at h
  split at h
  · rename_i attempt hattempt
    simp only [bind_eq_ok, pure_eq_ok] at h
    obtain ⟨_, _, rfl⟩ := h
    have fits : Fits attempt_id (.attempt attempt) := hw _ _ hattempt
    refine ⟨sameFile_of_filed hw ?_ (by simp [drawer]) (by simp [obliging, drawer]), rfl,
      hw.set ?_, recent_set hrecent trivial, ?_⟩
    · exact fits
    · exact fits
    · intro key hkey
      have hne : attempt_id ≠ key := by
        rintro rfl
        rw [hattempt] at hkey
        cases hkey
      exact (Dict.get?_set_of_ne _ _ hne).trans hkey
  · simp only [throw_ne_ok] at h

/-- A new report has no bundle yet. -/
theorem bundle_unfiled {report_id : Identifier} (ha : Archived w)
    (hfresh : w.reports.get? report_id = none) :
    w.artifacts.get? (reportSourcesKey report_id) = none := by
  cases hold : w.artifacts.get? (reportSourcesKey report_id) with
  | none => rfl
  | some a =>
    exfalso
    have fits := ha.filed _ _ hold
    have hkind : drawer a = .hashed "report-sources-key" :=
      inDrawer_unique (drawer_plain a) trivial fits.inDrawer ⟨_, rfl⟩
    cases a with
    | reportBundle b =>
      have hkey : reportSourcesKey report_id = reportSourcesKey b.report_id := fits
      simp only [reportSourcesKey, digest_inj, Json.str.injEq, true_and] at hkey
      obtain ⟨r, hr⟩ := ha.bundled _ b hold
      rw [← hkey, hfresh] at hr
      cases hr
    | _ => simp [drawer] at hkind

omit [CollisionFree] in
/-- The report is written, the attempt closed where there was one, and the bundle
stored. -/
theorem investigateChange_ok {external : Option EvidenceContext} {planned : Bool}
    (h : investigateChange svc env actor cmd case_id report external planned w seq =
      .ok (m, result)) :
    ∃ done next, (if planned then completeAttempt env (attemptId actor cmd) report.report_id
        { w with reports := w.reports.set report.report_id report }
      else pure { w with reports := w.reports.set report.report_id report }) = .ok done ∧
      m = storeBundle report external done ∧ result = .investigated report next := by
  simp only [investigateChange, bind_eq_ok] at h
  obtain ⟨case, _, h⟩ := h
  cases planned with
  | true =>
    simp only [if_true] at h ⊢
    split at h
    · simp only [bind_eq_ok, pure_eq_ok, Prod.mk.injEq] at h
      obtain ⟨done, hok, rfl, rfl⟩ := h
      exact ⟨done, _, hok, rfl, rfl⟩
    · simp only [bind_eq_ok, throw_ne_ok, false_and, exists_false] at h
    · simp only [bind_eq_ok, pure_eq_ok, Prod.mk.injEq] at h
      obtain ⟨_, _, done, hok, rfl, rfl⟩ := h
      exact ⟨done, _, hok, rfl, rfl⟩
  | false =>
    simp only [Bool.false_eq_true, if_false] at h ⊢
    split at h
    · simp only [pure_bind, pure_eq_ok, Prod.mk.injEq] at h
      exact ⟨_, _, rfl, h.1.symm, h.2.symm⟩
    · simp only [bind_eq_ok, throw_ne_ok, false_and, exists_false] at h
    · simp only [pure_bind, bind_eq_ok, pure_eq_ok, Prod.mk.injEq] at h
      obtain ⟨_, _, hm, hresult⟩ := h
      exact ⟨_, _, rfl, hm.symm, hresult.symm⟩

variable (seq) in
/-- A committed investigation leaves a report that stands, next to its bundle. -/
theorem investigateChange_lasting {planned : Bool} (hs : Shaped snapshot)
    (hcaptured : Captured svc env snapshot case_id inquiry)
    (hcleared : Cleared svc actor snapshot case_id inquiry)
    (hdrafted : draftReport env actor case_id snapshot inquiry planning = .ok report)
    (hfile : SameFile snapshot w case_id) (ha : Archived w)
    (hfresh : w.reports.get? (env.fresh "report") = none)
    (h : investigateChange svc env actor cmd case_id report inquiry.external planned w seq =
      .ok (m, result)) :
    Lasting svc.evidence_desk (env.clock .external) m inquiry.case report inquiry.external ∧
      (∃ next, result = .investigated report next) ∧
      ∀ v ∈ inquiry.external, m.artifacts.get? (reportSourcesKey report.report_id) =
        some (.reportBundle (bundleOf report v)) := by
  have hnew := bundle_unfiled ha ((draftReport_ok hdrafted).1 ▸ hfresh)
  let filing := { w with reports := w.reports.set report.report_id report }
  have hreported : filing.reports.get? report.report_id = some report := Dict.get?_set_self ..
  have hsame : SameFile snapshot filing case_id :=
    hfile.trans (.of_quiet (w := w) (m := filing) ⟨rfl, rfl, rfl, rfl, rfl, ⟨rfl, rfl, rfl⟩⟩ rfl)
  obtain ⟨done, next, hok, rfl, rfl⟩ := investigateChange_ok h
  have hdone : SameFile snapshot done case_id ∧ done.reports = filing.reports ∧
      Filed done.artifacts ∧ (∀ a ∈ done.artifacts.values, Recent a) ∧
      done.artifacts.get? (reportSourcesKey report.report_id) = none := by
    split at hok
    · have hcompleted : SameFile filing done case_id ∧ _ :=
        completeAttempt_file (w := filing) ha.filed ha.recent hok
      obtain ⟨hclosed, hreports, hfiled, hrecent, hkept⟩ := hcompleted
      exact ⟨hsame.trans hclosed, hreports, hfiled, hrecent, hkept _ hnew⟩
    · cases hok
      exact ⟨hsame, rfl, ha.filed, ha.recent, hnew⟩
  obtain ⟨hstays, hreports, hfiled, hrecent, hunfiled⟩ := hdone
  refine ⟨lasting_of_captured hs hcaptured hcleared hdrafted hstays hfiled hrecent hunfiled
    (hreports ▸ hreported), ⟨next, rfl⟩, ?_⟩
  intro v hv
  rw [Option.mem_def.mp hv]
  exact Dict.get?_set_self ..

end Investigating

end MemoryGuard.LastingReports
