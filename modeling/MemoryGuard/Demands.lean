import MemoryGuard.ReviewPath

/-!
What a case is obliged to only grows. Every command covers the artifacts that
demand something, whatever connectors it runs with, and a command that puts down
a policy leaves the case obliged to all of it.
-/
namespace MemoryGuard.Demands

open OrderedDict Guarded JsonText ContentHash Models Artifacts Aggregate Core SourceModels
open SourceState SourceGuard SourceService Transactions TaskCommands CaseCommands
open SourceCommands PartnerCommands Traces Calls Floors Filing EvidenceEffects TaskEffects
open CaseEffects
open Lifecycle Effects Growth Upkeep History Integrity Heads Standing Custody

variable [Sha256] [CollisionFree]

section Covering

variable {w m : Workspace} {d : Dict String Artifact}

omit [Sha256] [CollisionFree] in
/-- A write over nothing, or over an artifact that demands nothing. -/
theorem covers_set_of_idle {key : String} {a : Artifact}
    (h : ∀ old, d.get? key = some old → owed old = nothing) : Covers d (d.set key a) := by
  refine Covers.set ?_
  intro old hold c
  refine le_trans (owedTo_le_owed c old) ?_
  rw [h old hold]
  exact nothing_le _

/-- A reservation displaces the head of its source and no more. -/
theorem reserved_covers {q : SourceRequest} {head : SourceHead} {mid : Dict String Artifact}
    (h : Reserved w m q head mid) (hcase : head.case_id = q.case_id)
    (hsource : head.source_id = q.source_id) : Covers mid m.artifacts := by
  have hrequest : Covers mid (mid.set q.request_id (.request q)) := by
    refine Covers.set ?_
    intro old hold
    have hkind := h.filed.drawer_eq hold h.request
    cases old with
    | request p => exact absurd hold (h.new p)
    | _ => simp [drawer] at hkind
  have hhead : Covers (mid.set q.request_id (.request q)) m.artifacts := by
    rw [h.artifacts]
    refine Covers.set ?_
    intro old hold c
    have hkind := h.requested.drawer_eq hold h.pointed
    cases old with
    | head p =>
      have hkey : sourceKey p.case_id p.source_id = sourceKey q.case_id q.source_id :=
        (h.requested _ _ hold).symm
      simp only [sourceKey, digest_inj, true_and, texts_inj, List.cons.injEq, and_true] at hkey
      simp [owedTo, owed, Artifact.case_id, hkey.1, hkey.2, hcase, hsource]
    | _ => simp [drawer] at hkind
  exact hrequest.trans hhead

theorem investigates_covers {r : Report} {external : Option EvidenceContext}
    (h : Investigates w m r external) (hw : Shaped w) : Covers w.artifacts m.artifacts := by
  obtain ⟨mid, hmid, hm⟩ := h.artifacts
  have hcovers := hmid.covers hw.filed
  rw [hm]
  cases external with
  | none => exact hcovers
  | some context =>
    refine hcovers.trans (covers_set_of_idle ?_)
    intro old hold
    rw [bundle_fresh hw h.fresh hmid] at hold
    cases hold

theorem linked_covers {case_id : Identifier} {version seq : ℕ}
    {start : Dict String Artifact} (h : Linked w case_id version seq start)
    (hw : Filed w.artifacts) : Covers w.artifacts start := by
  rcases h with rfl | ⟨p, hcase, hversion, _, rfl⟩
  · exact Covers.refl _
  · refine covers_set_of_idle ?_
    intro old hold
    have hfits : Fits (resolutionLinkKey case_id version) (.resolutionProof p) := by
      change _ = resolutionLinkKey p.case_id p.case_version
      rw [hcase, hversion]
    have hkind := hw.drawer_eq hold hfits
    cases old with
    | resolutionProof p => rfl
    | _ => simp [drawer] at hkind

variable {svc : Service} {env : Environment} {call : Call} {result : Result}

/-- Every command covers what is stored. -/
theorem effect_covers (h : Effect svc env w call m result) (hw : Kept w) :
    Covers w.artifacts m.artifacts := by
  have hfiled : Filed w.artifacts := hw.filed
  cases h with
  | filed _ _ files => exact files.artifacts.covers hfiled
  | reserved _ reserves =>
    obtain ⟨mid, hreserved⟩ := reserves_artifacts reserves hw.toShaped
    exact (hreserved.refiled.covers hfiled).trans
      (reserved_covers hreserved reserves.case_id reserves.source_id)
  | investigated _ _ _ investigates => exact investigates_covers investigates hw.toShaped
  | handedOff _ handsOff => exact handsOff.artifacts ▸ Covers.refl _
  | accepted _ accepts => exact accepts.artifacts ▸ Covers.refl _
  | evaluated _ _ _ _ decides => exact (decides_artifacts decides).covers hfiled
  | registered _ _ _ _ decides => exact (decides_artifacts decides).covers hfiled
  | baselineSet _ sets => exact sets.artifacts ▸ Covers.refl _
  | opened _ _ opens => exact opens.writes.artifacts.covers hfiled
  | ingested _ _ _ opens => exact opens.writes.artifacts.covers hfiled
  | reopened _ reopens => exact reopens.writes.artifacts.covers hfiled
  | resolved _ resolves =>
    obtain ⟨start, hlinked, writes⟩ := resolves.writes
    exact (linked_covers hlinked hfiled).trans (writes.artifacts.covers (hlinked.filed hfiled))

end Covering

section Remembering

/-- A case is obliged to everything that a desk configures for its scope. -/
def Binds (desk : EvidenceDesk) (w : Workspace) (case : RiskCase) : Prop :=
  ∀ p ∈ policy desk w case, demanded p ≤ obligations w case.case_id

variable {svc : Service} {env : Environment} {desk : EvidenceDesk} {w w' m : Workspace}
  {case c : RiskCase} {seq : ℕ} {result : Result}

omit [CollisionFree] in
/-- What binds a case goes on to bind it while its obligations grow. -/
theorem Binds.of_le (h : Binds desk w case) (htenant : m.tenant_id = w.tenant_id)
    (hid : c.case_id = case.case_id) (hscope : c.scope = case.scope)
    (hle : obligations w case.case_id ≤ obligations m case.case_id) : Binds desk m c := by
  intro p hp
  have hsame : policy desk m c = policy desk w case := by
    simp only [policy, htenant, hscope]
  rw [hid]
  exact le_trans (h p (hsame ▸ hp)) hle

omit [CollisionFree] in
/-- Writes that leave the artifacts alone bind as before. -/
theorem Binds.of_eq (h : Binds desk w case) (htenant : m.tenant_id = w.tenant_id)
    (hartifacts : m.artifacts = w.artifacts) : Binds desk m case := by
  refine h.of_le htenant rfl rfl ?_
  have hsame : obligations m case.case_id = obligations w case.case_id := by
    simp only [obligations, caseArtifacts, hartifacts]
  exact hsame ▸ le_refl _

omit [CollisionFree] in
/-- The guard that is put down demands the whole of the policy. -/
theorem rememberPolicy_binds {source_ids : List Identifier}
    (hrecent : ∀ a ∈ w.artifacts.values, Recent a)
    (h : rememberPolicy w case.case_id (policy desk w case) source_ids = .ok w') :
    Binds desk w' case := by
  rcases rememberPolicy_ok h with ⟨rfl, hnone, _⟩ | ⟨guard, hcase, _, hpolicy, _, _, rfl⟩
  · intro p hp
    rw [hnone] at hp
    cases hp
  · intro p hp
    let guarded : Workspace :=
      { w with artifacts := w.artifacts.set (guardKey case.case_id) (.policyGuard guard) }
    have hrecent' : ∀ a ∈ guarded.artifacts.values, Recent a := recent_set hrecent trivial
    have hstored : (w.artifacts.set (guardKey case.case_id) (.policyGuard guard)).get?
        (guardKey case.case_id) = some (.policyGuard guard) := Dict.get?_set_self ..
    have hle : owedTo case.case_id (.policyGuard guard) ≤ obligations guarded case.case_id :=
      owedTo_le_obligations case.case_id hrecent' (Dict.mem_values_of_get? hstored)
    simp only [owedTo, Artifact.case_id, hcase, if_true] at hle
    exact le_trans (hpolicy p hp) hle

omit [CollisionFree] in
theorem deskRemembers_binds {source_ids : List Identifier} (hdesk : svc.evidence_desk = some desk)
    (hrecent : ∀ a ∈ w.artifacts.values, Recent a)
    (h : deskRemembers svc.evidence_desk w case source_ids = .ok w') : Binds desk w' case := by
  rw [hdesk] at h
  exact rememberPolicy_binds hrecent h

omit [CollisionFree] in
theorem openRisk_binds {reason : String} {affected : List Identifier}
    (hdesk : svc.evidence_desk = some desk) (hrecent : ∀ a ∈ w.artifacts.values, Recent a)
    (h : openRisk svc w case reason = .ok (m, affected)) : Binds desk m case := by
  simp only [openRisk, bind_eq_ok, pure_eq_ok] at h
  obtain ⟨w1, hremember, h⟩ := h
  have hbinds := deskRemembers_binds (w := recordCase w case []) hdesk hrecent hremember
  rw [← (Prod.mk.inj h).1]
  exact hbinds.of_eq rfl rfl

omit [CollisionFree] in
theorem openCaseChange_binds {actor : Actor} {scope : Scope} {kind : RiskKind}
    {evidence_digest : Digest} (hdesk : svc.evidence_desk = some desk)
    (hrecent : ∀ a ∈ w.artifacts.values, Recent a)
    (h : openCaseChange svc env actor scope kind evidence_digest w seq = .ok (m, result)) :
    Binds desk m (newCase env actor scope kind evidence_digest seq) := by
  simp only [openCaseChange, bind_eq_ok, pure_eq_ok, Prod.mk.injEq] at h
  obtain ⟨_, _, ⟨m', affected⟩, hopen, rfl, rfl⟩ := h
  exact openRisk_binds hdesk hrecent hopen

/-- The receipt of an incident is filed after the guard. -/
theorem ingestChange_binds {actor : Actor} {spec : IncidentSpec} {delivery : Delivery}
    (hdesk : svc.evidence_desk = some desk) (ha : Archived w)
    (h : ingestChange svc env actor spec delivery w seq = .ok (m, result)) :
    Binds desk m (newCase env actor spec.scope delivery.kind delivery.evidence_digest seq) := by
  simp only [ingestChange, bind_eq_ok, pure_eq_ok, Prod.mk.injEq] at h
  obtain ⟨_, _, ⟨m', affected⟩, hopen, rfl, rfl⟩ := h
  obtain ⟨_, _, _, hwrites⟩ := openRisk_writes ha hopen
  refine (openRisk_binds hdesk ha.recent hopen).of_le rfl rfl rfl ?_
  have hfiled : Filed m'.artifacts := hwrites.artifacts.filed ha.filed
  have hrefiled : Refiled m'.artifacts (m'.artifacts.set (env.fresh "incident")
      (.incident (incidentReceipt env actor delivery (env.fresh "case")))) :=
    .single ⟨_, rfl⟩ trivial
  have hrecent := refiled_recent hwrites.artifacts ha.filed ha.recent
  exact (hrefiled.covers hfiled).obligations_le hrecent
    (refiled_recent hrefiled hfiled hrecent) _

omit [CollisionFree] in
theorem reopenCaseChange_binds {actor : Actor} {case_id : Identifier} {evidence_digest : Digest}
    (hdesk : svc.evidence_desk = some desk) (hrecent : ∀ a ∈ w.artifacts.values, Recent a)
    (h : reopenCaseChange svc actor case_id evidence_digest w seq = .ok (m, result)) :
    ∃ old, w.cases.get? case_id = some old ∧
      Binds desk m (reopened old actor.actor_id seq evidence_digest) := by
  simp only [reopenCaseChange, bind_eq_ok, pure_eq_ok, Prod.mk.injEq] at h
  obtain ⟨old, hold, _, _, history, _, w1, hremember, rfl, rfl⟩ := h
  have hbinds := deskRemembers_binds
    (w := recordCase w (reopened old actor.actor_id seq evidence_digest) history) hdesk hrecent
    hremember
  exact ⟨old, findCase_ok hold, hbinds.of_eq rfl rfl⟩

omit [CollisionFree] in
/-- Neither the taint loop nor the lesson touches what is filed. -/
theorem resolveChange_binds {actor : Actor} {case_id handoff_id : Identifier}
    {resolution : Resolution} {evidence_digest : Digest} (hdesk : svc.evidence_desk = some desk)
    (ha : Archived w)
    (h : resolveChange svc env actor case_id handoff_id resolution evidence_digest w seq =
      .ok (m, result)) :
    ∃ old, w.cases.get? case_id = some old ∧
      Binds desk m (resolvedCase old resolution actor.actor_id seq) := by
  simp only [resolveChange, hdesk, bind_eq_ok, fetch_eq_ok, pure_eq_ok, Prod.mk.injEq] at h
  obtain ⟨old, hold, handoff, _, _, _, report, _, _, _, _, _, history, _, w2, hremember, w3,
    hsettle, rfl, rfl⟩ := h
  obtain ⟨start, hlinked, hlink⟩ := linkResolution_ok w seq actor
    (resolvedCase old resolution actor.actor_id seq) report handoff.handoff_id evidence_digest
  rw [hlink] at hremember
  have hbinds := rememberPolicy_binds (w := recordCase (refile w start)
    (resolvedCase old resolution actor.actor_id seq) history) (hlinked.recent ha.recent) hremember
  have hretasked := (settleTasks_ok hsettle).1
  refine ⟨old, findCase_ok hold, hbinds.of_eq ?_ ?_⟩
  · rw [show w3 = _ from hretasked]
  · rw [show w3 = _ from hretasked]

/-- A reservation files a request and a head after the guard, or nothing. -/
theorem reserveChange_binds {actor : Actor} {cmd : Command} {case_id : Identifier}
    {acq : Acquisition} {force_refresh : Bool} (hw : Kept w)
    (hnew : ∀ p, w.artifacts.get? (fetchId actor cmd) ≠ some (.request p))
    (h : reserveChange desk env actor cmd case_id acq force_refresh w seq = .ok (m, result)) :
    ∃ current, w.cases.get? case_id = some current ∧ Binds desk m current := by
  simp only [reserveChange, bind_eq_ok] at h
  obtain ⟨current, hcurrent, _, _, w1, hremember, ⟨receipts, rejected⟩, _, h⟩ := h
  have hbinds := rememberPolicy_binds hw.recent hremember
  obtain ⟨artifacts, hrefiled, rfl⟩ := refiled_of_rememberPolicy hw.filed hw.recent hremember
  have hfiled : Filed artifacts := hrefiled.filed hw.filed
  have hrecent := refiled_recent hrefiled hw.filed hw.recent
  refine ⟨current, findCase_ok hcurrent, ?_⟩
  split at h
  · simp only [pure_eq_ok, Prod.mk.injEq] at h
    exact h.1 ▸ hbinds
  · simp only [bind_eq_ok, pure_eq_ok, Prod.mk.injEq] at h
    obtain ⟨_, _, rfl, rfl⟩ := h
    have hrequest : Fits (fetchId actor cmd)
        (.request (pendingRequest env actor cmd case_id acq current.version)) :=
      ⟨rfl, fetchId_named actor cmd⟩
    have hreserved : Reserved (refile w artifacts)
        (storeReservation env actor cmd case_id acq current.version (refile w artifacts))
        (pendingRequest env actor cmd case_id acq current.version)
        (pendingHead actor cmd case_id acq current.version) artifacts := by
      refine ⟨.refl, hfiled, hrequest, hfiled.set hrequest, rfl, ?_, rfl⟩
      intro p hp
      obtain ⟨q, hq⟩ := hrefiled.request_of hp
      exact hnew q hq
    refine hbinds.of_le rfl rfl rfl ?_
    refine (reserved_covers hreserved rfl rfl).obligations_le hrecent ?_ _
    exact recent_set (recent_set hrecent trivial) trivial

/-- A mission is filed after the guard. -/
theorem planMissionChange_binds {actor : Actor} {cmd : Command} {case_id : Identifier}
    {queries : List SourceQuery} {reviewer_id : Option Identifier} (ha : Archived w)
    (h : planMissionChange desk svc actor cmd case_id queries reviewer_id w seq =
      .ok (m, result)) :
    ∃ current, w.cases.get? case_id = some current ∧ Binds desk m current := by
  simp only [planMissionChange, bind_eq_ok, pure_eq_ok, Prod.mk.injEq] at h
  obtain ⟨current, hcurrent, _, _, hashes, _, _, _, w1, hremember, hm, rfl⟩ := h
  have hbinds := rememberPolicy_binds ha.recent hremember
  obtain ⟨artifacts, hrefiled, rfl⟩ := refiled_of_rememberPolicy ha.filed ha.recent hremember
  have hfiled : Filed artifacts := hrefiled.filed ha.filed
  have hrecent := refiled_recent hrefiled ha.filed ha.recent
  have hmission : Refiled artifacts m.artifacts := by
    rw [← hm]
    exact .single ⟨rfl, missionId_named actor cmd⟩ trivial
  refine ⟨current, findCase_ok hcurrent, hbinds.of_le (hm ▸ rfl) rfl rfl ?_⟩
  exact (hmission.covers hfiled).obligations_le hrecent
    (refiled_recent hmission hfiled hrecent) _

omit [CollisionFree] in
/-- The bundle of an investigation records what was demanded when it started. -/
theorem investigates_binds {actor : Actor} {case_id : Identifier} {snapshot : Workspace}
    {planning : Planning} {inquiry : Inquiry} {report : Report}
    (hdesk : svc.evidence_desk = some desk)
    (hrecent : ∀ a ∈ m.artifacts.values, Recent a)
    (hcaptured : Captured svc env snapshot case_id inquiry)
    (hdrafted : draftReport env actor case_id snapshot inquiry planning = .ok report)
    (h : Investigates w m report inquiry.external) :
    ∀ p ∈ policy desk snapshot inquiry.case, demanded p ≤ obligations m case_id := by
  intro p hp
  have hexternal := hcaptured.external desk hdesk
  obtain ⟨mid, hmid, hm⟩ := h.artifacts
  have hcase := (draftReport_ok hdrafted).2.1
  cases hvalue : inquiry.external with
  | none =>
    rw [hvalue] at hexternal
    simp only [reportContext, item, bind_eq_ok, fetch_eq_ok] at hexternal
    obtain ⟨c, hc, hexternal⟩ := hexternal
    rw [hcaptured.case] at hc
    cases hc
    split at hexternal
    · rename_i hnone
      rw [Option.isNone_iff_eq_none] at hnone
      rw [hnone.1] at hp
      cases hp
    · simp only [bind_eq_ok, pure_eq_ok, reduceCtorEq, and_false, exists_false] at hexternal
  | some value =>
    rw [hvalue] at hexternal hm
    obtain ⟨c, floor, receipts, hcontext⟩ := context_ok (reportContext_some hexternal)
    have hc := hcontext.stored
    rw [hcaptured.case] at hc
    cases hc
    obtain ⟨_, hpolicy, hconfigured⟩ := effectivePolicy_ok hcontext.effective
    have hneeded : floor.configured_policy_required = true := (hpolicy p hp).2.2 rfl
    have hstored : m.artifacts.get? (reportSourcesKey report.report_id) =
        some (.reportBundle (bundleOf report value)) := by
      rw [hm]
      exact Dict.get?_set_self ..
    have hle := owedTo_le_obligations case_id hrecent (Dict.mem_values_of_get? hstored)
    simp only [owedTo, Artifact.case_id, bundleOf, hcase, if_true] at hle
    refine le_trans (le_trans (hpolicy p hp) ?_) hle
    simp only [owed, bundleRequires, hcontext.recorded, hneeded, if_true, Option.map_some,
      Option.getD_some, hcontext.required]
    exact ⟨fun s hs => List.mem_append_left _ hs, le_refl _, fun _ => rfl⟩

/-- The calls that put down what is configured for a case: the desk that
configures it and the case. -/
inductive Remembers (svc : Service) (env : Environment) (desk : EvidenceDesk) :
    Call → Identifier → Prop
  | opened {actor : Actor} {cmd : Command} {scope : Scope} {kind : RiskKind}
      {evidence_digest : Digest} (hdesk : svc.evidence_desk = some desk) :
      Remembers svc env desk (.openCase actor cmd scope kind evidence_digest) (env.fresh "case")
  | ingested {incidents : List IncidentSpec} {delivery : Delivery} {expected_revision : ℕ}
      (hdesk : svc.evidence_desk = some desk) :
      Remembers svc env desk (.ingest incidents delivery expected_revision) (env.fresh "case")
  | reopened {actor : Actor} {cmd : Command} {case_id : Identifier} {evidence_digest : Digest}
      (hdesk : svc.evidence_desk = some desk) :
      Remembers svc env desk (.reopenCase actor cmd case_id evidence_digest) case_id
  | resolved {actor : Actor} {cmd : Command} {case_id handoff_id : Identifier}
      {resolution : Resolution} {evidence_digest : Digest}
      (hdesk : svc.evidence_desk = some desk) :
      Remembers svc env desk (.resolve actor cmd case_id handoff_id resolution evidence_digest)
        case_id
  | investigated {actor : Actor} {cmd : Command} {case_id : Identifier} {snapshot : Workspace}
      {planning : Planning} (hdesk : svc.evidence_desk = some desk) :
      Remembers svc env desk (.investigate actor cmd case_id snapshot planning) case_id
  | reserved {actor : Actor} {cmd : Command} {case_id source_id : Identifier} {resource : String}
      {snapshot : Workspace} {force_refresh : Bool} :
      Remembers svc env desk
        (.reserveSource actor cmd desk case_id source_id resource snapshot force_refresh) case_id
  | planned {actor : Actor} {cmd : Command} {case_id : Identifier} {queries : List SourceQuery}
      {reviewer_id : Option Identifier} :
      Remembers svc env desk (.planMission actor cmd desk case_id queries reviewer_id) case_id

end Remembering

section Keeping

/-- A guard or a bundle of a case: what is stored under a configured policy. -/
inductive Keeps (case_id : Identifier) : Artifact → Prop
  | guard {g : PolicyGuard} (hcase : g.case_id = case_id) : Keeps case_id (.policyGuard g)
  | bundle {b : ReportBundle} (hcase : b.case_id = case_id) : Keeps case_id (.reportBundle b)

/-- What `d'` keeps beside `d` is kept for the cases of `P`. -/
def KeepsFor (P : Identifier → Prop) (d d' : Dict String Artifact) : Prop :=
  ∀ key a case_id, Keeps case_id a → d'.get? key = some a → d.get? key = some a ∨ P case_id

variable {P Q : Identifier → Prop} {d d' d'' : Dict String Artifact}

omit [Sha256] [CollisionFree] in
theorem KeepsFor.refl (P : Identifier → Prop) (d : Dict String Artifact) : KeepsFor P d d :=
  fun _ _ _ _ hstored => Or.inl hstored

omit [Sha256] [CollisionFree] in
theorem KeepsFor.trans (h : KeepsFor P d d') (h' : KeepsFor P d' d'') : KeepsFor P d d'' := by
  intro key a case_id hkeeps hstored
  rcases h' key a case_id hkeeps hstored with hmid | hfor
  · exact h key a case_id hkeeps hmid
  · exact Or.inr hfor

omit [Sha256] [CollisionFree] in
theorem KeepsFor.mono (h : KeepsFor P d d') (hsub : ∀ case_id, P case_id → Q case_id) :
    KeepsFor Q d d' :=
  fun key a case_id hkeeps hstored => (h key a case_id hkeeps hstored).imp_right (hsub case_id)

omit [Sha256] [CollisionFree] in
theorem KeepsFor.set {key : String} {a : Artifact} (h : ∀ case_id, Keeps case_id a → P case_id) :
    KeepsFor P d (d.set key a) := by
  intro k b case_id hkeeps hstored
  rw [Dict.get?_set] at hstored
  split at hstored
  · cases hstored
    exact Or.inr (h case_id hkeeps)
  · exact Or.inl hstored

variable {svc : Service} {env : Environment} {desk : EvidenceDesk} {w w' m : Workspace}
  {case : RiskCase} {case_id : Identifier} {seq : ℕ} {result : Result} {actor : Actor}
  {source_ids : List Identifier}

omit [CollisionFree] in
theorem rememberPolicy_keeps {policy : Option ScopeEvidencePolicy}
    (h : rememberPolicy w case_id policy source_ids = .ok w') :
    KeepsFor (fun c => c = case_id) w.artifacts w'.artifacts := by
  rcases rememberPolicy_ok h with ⟨rfl, _⟩ | ⟨guard, hcase, _, _, _, _, rfl⟩
  · exact .refl _ _
  · refine .set ?_
    rintro c ⟨hc⟩
    exact hc.symm.trans hcase

/-- Some desk is configured, and the case is this one. -/
def Configured (svc : Service) (case_id c : Identifier) : Prop :=
  (∃ desk, svc.evidence_desk = some desk) ∧ c = case_id

omit [CollisionFree] in
theorem deskRemembers_keeps (h : deskRemembers svc.evidence_desk w case source_ids = .ok w') :
    KeepsFor (Configured svc case.case_id) w.artifacts w'.artifacts := by
  cases hdesk : svc.evidence_desk with
  | none =>
    rw [hdesk] at h
    simp only [deskRemembers, pure_eq_ok] at h
    exact h ▸ .refl _ _
  | some desk =>
    rw [hdesk] at h
    exact (rememberPolicy_keeps h).mono fun c hc => ⟨⟨desk, hdesk⟩, hc⟩

omit [CollisionFree] in
theorem openRisk_keeps {reason : String} {affected : List Identifier}
    (h : openRisk svc w case reason = .ok (m, affected)) :
    KeepsFor (Configured svc case.case_id) w.artifacts m.artifacts := by
  simp only [openRisk, bind_eq_ok, pure_eq_ok] at h
  obtain ⟨w1, hremember, h⟩ := h
  have hkeeps := deskRemembers_keeps (w := recordCase w case []) hremember
  exact (Prod.mk.inj h).1 ▸ hkeeps

omit [CollisionFree] in
theorem openCaseChange_keeps {scope : Scope} {kind : RiskKind} {evidence_digest : Digest}
    (h : openCaseChange svc env actor scope kind evidence_digest w seq = .ok (m, result)) :
    KeepsFor (Configured svc (env.fresh "case")) w.artifacts m.artifacts := by
  simp only [openCaseChange, bind_eq_ok, pure_eq_ok, Prod.mk.injEq] at h
  obtain ⟨_, _, ⟨m', affected⟩, hopen, rfl, rfl⟩ := h
  exact openRisk_keeps hopen

omit [CollisionFree] in
theorem ingestChange_keeps {spec : IncidentSpec} {delivery : Delivery}
    (h : ingestChange svc env actor spec delivery w seq = .ok (m, result)) :
    KeepsFor (Configured svc (env.fresh "case")) w.artifacts m.artifacts := by
  simp only [ingestChange, bind_eq_ok, pure_eq_ok, Prod.mk.injEq] at h
  obtain ⟨_, _, ⟨m', affected⟩, hopen, rfl, rfl⟩ := h
  refine (openRisk_keeps hopen).trans (.set ?_)
  rintro c ⟨⟩

omit [CollisionFree] in
theorem reopenCaseChange_keeps {evidence_digest : Digest} (hw : Kept w)
    (h : reopenCaseChange svc actor case_id evidence_digest w seq = .ok (m, result)) :
    KeepsFor (Configured svc case_id) w.artifacts m.artifacts := by
  simp only [reopenCaseChange, bind_eq_ok, pure_eq_ok, Prod.mk.injEq] at h
  obtain ⟨old, hold, _, _, history, _, w1, hremember, rfl, rfl⟩ := h
  have hkeeps := deskRemembers_keeps
    (w := recordCase w (reopened old actor.actor_id seq evidence_digest) history) hremember
  exact hw.cases case_id old (findCase_ok hold) ▸ hkeeps

omit [CollisionFree] in
theorem resolveChange_keeps {handoff_id : Identifier} {resolution : Resolution}
    {evidence_digest : Digest} (hw : Kept w)
    (h : resolveChange svc env actor case_id handoff_id resolution evidence_digest w seq =
      .ok (m, result)) :
    KeepsFor (Configured svc case_id) w.artifacts m.artifacts := by
  simp only [resolveChange, bind_eq_ok, fetch_eq_ok, ensure_eq_ok] at h
  obtain ⟨old, hold, handoff, _, _, _, report, _, _, _, h⟩ := h
  obtain ⟨start, hlinked, hlink⟩ := linkResolution_ok w seq actor
    (resolvedCase old resolution actor.actor_id seq) report handoff.handoff_id evidence_digest
  rw [hlink] at h
  have hstart : KeepsFor (Configured svc case_id) w.artifacts start := by
    rcases hlinked with rfl | ⟨p, _, _, _, rfl⟩
    · exact .refl _ _
    · refine .set ?_
      rintro c ⟨⟩
  -- The taint loop and the lesson leave what is filed.
  have hdone : ∀ history w2 w3 lessons, deskRemembers svc.evidence_desk
        (recordCase (refile w start) (resolvedCase old resolution actor.actor_id seq) history)
        (resolvedCase old resolution actor.actor_id seq) [] = .ok w2 →
      (affectedTasks w2 old.scope).foldlM
        (settleTask env (resolutionRef case_id (old.version + 1))) w2 = .ok w3 →
      { w3 with lessons := lessons } = m →
      KeepsFor (Configured svc case_id) w.artifacts m.artifacts := by
    rintro history w2 w3 lessons hremember hsettle rfl
    have hkeeps := deskRemembers_keeps hremember
    have hretasked := (settleTasks_ok hsettle).1
    rw [show w3 = _ from hretasked]
    exact hstart.trans (hw.cases case_id old (findCase_ok hold) ▸ hkeeps)
  cases hdesk : svc.evidence_desk with
  | none =>
    simp only [hdesk, bind_eq_ok, pure_eq_ok, Prod.mk.injEq] at h
    obtain ⟨history, _, w2, hremember, w3, hsettle, hm, _⟩ := h
    exact hdone history w2 w3 _ (hdesk ▸ hremember) hsettle hm
  | some desk =>
    simp only [hdesk, bind_eq_ok, pure_eq_ok, Prod.mk.injEq] at h
    obtain ⟨_, _, history, _, w2, hremember, w3, hsettle, hm, _⟩ := h
    exact hdone history w2 w3 _ (hdesk ▸ hremember) hsettle hm

omit [CollisionFree] in
theorem reserveChange_keeps {cmd : Command} {acq : Acquisition} {force_refresh : Bool}
    (hw : Kept w)
    (h : reserveChange desk env actor cmd case_id acq force_refresh w seq = .ok (m, result)) :
    KeepsFor (fun c => c = case_id) w.artifacts m.artifacts := by
  simp only [reserveChange, bind_eq_ok] at h
  obtain ⟨current, hcurrent, _, _, w1, hremember, ⟨receipts, rejected⟩, _, h⟩ := h
  have hkeeps := rememberPolicy_keeps hremember
  rw [hw.cases case_id current (findCase_ok hcurrent)] at hkeeps
  split at h
  · simp only [pure_eq_ok, Prod.mk.injEq] at h
    exact h.1 ▸ hkeeps
  · simp only [bind_eq_ok, pure_eq_ok, Prod.mk.injEq] at h
    obtain ⟨_, _, rfl, rfl⟩ := h
    refine hkeeps.trans (.trans (.set ?_) (.set ?_))
    · rintro c ⟨⟩
    · rintro c ⟨⟩

omit [CollisionFree] in
theorem planMissionChange_keeps {cmd : Command} {queries : List SourceQuery}
    {reviewer_id : Option Identifier} (hw : Kept w)
    (h : planMissionChange desk svc actor cmd case_id queries reviewer_id w seq =
      .ok (m, result)) :
    KeepsFor (fun c => c = case_id) w.artifacts m.artifacts := by
  simp only [planMissionChange, bind_eq_ok, pure_eq_ok, Prod.mk.injEq] at h
  obtain ⟨current, hcurrent, _, _, hashes, _, _, _, w1, hremember, rfl, rfl⟩ := h
  have hkeeps := rememberPolicy_keeps hremember
  rw [hw.cases case_id current (findCase_ok hcurrent)] at hkeeps
  refine hkeeps.trans (.set ?_)
  rintro c ⟨⟩

end Keeping

section Growing

variable {steps : List Step} {s : Step} {w m : Workspace} {tx : Transaction} {result : Result}

/-- What an event leaves a case obliged to. -/
theorem obligations_of_happened (h : Happened s w tx m result) (case_id : Identifier) :
    obligations w case_id ≤ obligations (recorded s.env w m tx result) case_id := by
  have heffect := effect_covers h.effect h.kept
  have hcovers : Covers w.artifacts (recorded s.env w m tx result).artifacts := heffect
  exact hcovers.obligations_le h.kept.recent (happened_kept h).recent case_id

/-- From one stored workspace of a run to a later one, obligations only grow. -/
theorem obligations_of_run {before after : List Step} {st : Option Workspace}
    (hmid : Run casework before (some w)) (h : Run casework (before ++ after) st) :
    ∃ w', st = some w' ∧ ∀ case_id, obligations w case_id ≤ obligations w' case_id := by
  refine related_of_events (fun w w' => ∀ case_id, obligations w case_id ≤ obligations w' case_id)
    ?_ ?_ ?_ hmid h
  · exact fun w case_id => le_refl _
  · exact fun a b c hab hbc case_id => le_trans (hab case_id) (hbc case_id)
  · exact fun _ s w tx m result ho _ => obligations_of_happened ho.toHappened

/-- The case that a call read before its transaction is still there. -/
theorem case_since (h : Occurs steps s w tx m result) {snapshot : Workspace} {case_id : Identifier}
    {c : RiskCase} (hread : s.call.snapshot = some snapshot)
    (hc : snapshot.cases.get? case_id = some c) :
    ∃ old, w.cases.get? case_id = some old ∧ m.tenant_id = snapshot.tenant_id ∧
      old.scope = c.scope := by
  obtain ⟨before, after, hsteps, hmid⟩ := stored_before h.ran (h.now.observed snapshot hread)
  obtain ⟨w0, hw0, hgrows⟩ := run_extends hmid (hsteps ▸ h.ran) snapshot rfl
  have heq := happened_on h.toHappened hw0
  subst heq
  obtain ⟨old, hold, hscope, _⟩ := hgrows.cases case_id c hc
  have htenant : m.tenant_id = w.tenant_id := (happened_grows h.toHappened).tenant
  exact ⟨old, hold, htenant.trans hgrows.tenant, hscope⟩

omit [CollisionFree] in
/-- The obligations of the recorded workspace are those of the change. -/
theorem Binds.recorded {env : Environment} {desk : EvidenceDesk} {c c' : RiskCase}
    (h : Binds desk m c) (hid : c'.case_id = c.case_id) (hscope : c'.scope = c.scope) :
    Binds desk (recorded env w m tx result) c' :=
  h.of_le rfl hid hscope (le_refl _)

/-- A call that remembers a policy leaves its case obliged to it. -/
theorem remembers_binds {desk : EvidenceDesk} {case_id : Identifier}
    (h : Occurs steps s w tx m result) (hr : Remembers s.svc s.env desk s.call case_id) :
    ∃ c, (recorded s.env w m tx result).cases.get? case_id = some c ∧
      Binds desk (recorded s.env w m tx result) c := by
  obtain ⟨svc, env, call, pre, post, response⟩ := s
  have hprepared := h.commits.prepared
  have hchanged := h.commits.changed
  have hkept := h.kept
  have hgrows := happened_grows h.toHappened
  have hafter := happened_kept h.toHappened
  simp only at hprepared hchanged hr hgrows hafter ⊢
  -- The case is stored under the same scope before and after the call.
  have hstays : ∀ old c, w.cases.get? case_id = some old → Binds desk m c →
      c.case_id = old.case_id → c.scope = old.scope →
      ∃ c, (recorded env w m tx result).cases.get? case_id = some c ∧
        Binds desk (recorded env w m tx result) c := by
    intro old c hold hbinds hid hscope
    obtain ⟨c', hc', hscope', _⟩ := hgrows.cases case_id old hold
    refine ⟨c', hc', hbinds.recorded ?_ (hscope'.trans hscope.symm)⟩
    rw [hafter.cases case_id c' hc', hid, hkept.cases case_id old hold]
  cases hr with
  | @opened actor cmd scope kind evidence_digest hdesk =>
    have hp := inTransaction_transaction hprepared
    simp only [openCase, bind_eq_ok, pure_eq_ok] at hp
    obtain ⟨_, _, rfl⟩ := hp
    have hopens := (openCaseChange_effect hkept.archived (h.fresh.cases "case") hchanged).2
    have hbinds := openCaseChange_binds hdesk hkept.recent hchanged
    refine ⟨_, ?_, hbinds.recorded rfl rfl⟩
    have hcases : m.cases = _ := hopens.writes.cases
    change m.cases.get? _ = _
    rw [hcases]
    exact Dict.get?_set_self ..
  | @ingested incidents delivery expected_revision hdesk =>
    have hp := inTransaction_transaction hprepared
    simp only [ingest, bind_eq_ok, fetch_eq_ok, pure_eq_ok] at hp
    obtain ⟨spec, _, _, _, actor, _, rfl⟩ := hp
    have hopens := (ingestChange_effect hkept.archived (h.fresh.cases "case") hchanged).2.2
    have hbinds := ingestChange_binds hdesk hkept.archived hchanged
    refine ⟨_, ?_, hbinds.recorded rfl rfl⟩
    have hcases : m.cases = _ := hopens.writes.cases
    change m.cases.get? _ = _
    rw [hcases]
    exact Dict.get?_set_self ..
  | reopened hdesk =>
    have hp := inTransaction_transaction hprepared
    simp only [reopenCase, bind_eq_ok, pure_eq_ok] at hp
    obtain ⟨_, _, rfl⟩ := hp
    obtain ⟨old, hold, hbinds⟩ := reopenCaseChange_binds hdesk hkept.recent hchanged
    exact hstays old _ hold hbinds rfl rfl
  | resolved hdesk =>
    have hp := inTransaction_transaction hprepared
    simp only [resolve, bind_eq_ok, pure_eq_ok] at hp
    obtain ⟨_, _, rfl⟩ := hp
    obtain ⟨old, hold, hbinds⟩ := resolveChange_binds hdesk hkept.archived hchanged
    exact hstays old _ hold hbinds rfl rfl
  | @investigated actor cmd _ snapshot planning hdesk =>
    rcases investigate_ok hprepared with ⟨response, htx, _⟩ | ⟨inquiry, report, hcaptured,
      hdrafted, htx⟩
    · cases htx
    · cases htx
      have hinvestigates := (investigateChange_effect (w.revision + 1) hkept.archived
        (h.fresh.reports "report") hcaptured hdrafted hchanged).2
      have hdemanded := investigates_binds (m := m) hdesk hafter.recent hcaptured hdrafted
        hinvestigates
      obtain ⟨old, hold, hstarted⟩ := case_since h rfl hcaptured.case
      refine hstays old old hold ?_ rfl rfl
      have hid := hkept.cases case_id old hold
      intro p hp
      refine hid ▸ hdemanded p ?_
      simpa only [policy, hstarted.1, hstarted.2] using hp
  | reserved =>
    have hp := inTransaction_transaction hprepared
    simp only [reserveSource, bind_eq_ok, pure_eq_ok] at hp
    obtain ⟨acq, _, rfl⟩ := hp
    have hnew := fetch_free hkept h.commits.new
    obtain ⟨old, hold, hbinds⟩ := reserveChange_binds (m := m) hkept (by simp [hnew])
      (show reserveChange desk env _ _ case_id acq _ w (w.revision + 1) = _ from hchanged)
    exact hstays old _ hold hbinds rfl rfl
  | planned =>
    have hp := inTransaction_transaction hprepared
    simp only [planMission, bind_eq_ok, pure_eq_ok] at hp
    obtain ⟨_, _, _, _, rfl⟩ := hp
    obtain ⟨old, hold, hbinds⟩ := planMissionChange_binds hkept.archived hchanged
    exact hstays old _ hold hbinds rfl rfl

/-- What a call has remembered binds its case in every later state. -/
theorem binds_on {after : List Step} {desk : EvidenceDesk} {case_id : Identifier}
    {st : Option Workspace} (h : Occurs steps s w tx m result)
    (hr : Remembers s.svc s.env desk s.call case_id)
    (hrun : Run casework (steps ++ s :: after) st) :
    ∃ w' c, st = some w' ∧ w'.cases.get? case_id = some c ∧ Binds desk w' c := by
  obtain ⟨c, hc, hbinds⟩ := remembers_binds h hr
  have hmid : Run casework (steps ++ [s]) (some (recorded s.env w m tx result)) := by
    rw [← h.commits.post]
    exact hrun.at_step.2.2
  have hall : Run casework ((steps ++ [s]) ++ after) st := by simpa using hrun
  obtain ⟨w', hw', hgrow⟩ := obligations_of_run hmid hall
  obtain ⟨w'', hw'', hgrows⟩ := run_extends hmid hall _ rfl
  rw [hw'] at hw''
  cases hw''
  obtain ⟨c', hc', hscope, _⟩ := hgrows.cases case_id c hc
  have hid := (kept_of_run hmid _ rfl).cases case_id c hc
  have hid' := (kept_of_run hall w' hw').cases case_id c' hc'
  exact ⟨w', c', hw', hc', hbinds.of_le hgrows.tenant (hid'.trans hid.symm) hscope
    (hgrow c.case_id)⟩

/-- Only the calls that remember a policy put down what is kept under one. -/
theorem keeps_of_occurs (h : Occurs steps s w tx m result) :
    KeepsFor (fun case_id => ∃ desk, Remembers s.svc s.env desk s.call case_id) w.artifacts
      m.artifacts := by
  have hsame : (∀ a case_id, Keeps case_id a → drawer a ∉ filed s.call) →
      KeepsFor (fun case_id => ∃ desk, Remembers s.svc s.env desk s.call case_id) w.artifacts
        m.artifacts :=
    fun hother key a case_id hkeeps hstored =>
      Or.inl (stored_of_occurs h hstored (hother a case_id hkeeps))
  obtain ⟨svc, env, call, pre, post, response⟩ := s
  have hprepared := h.commits.prepared
  have hchanged := h.commits.changed
  have hkept := h.kept
  simp only at hprepared hchanged hsame ⊢
  cases call with
  | openCase actor cmd scope kind evidence_digest =>
    have hp := inTransaction_transaction hprepared
    simp only [openCase, bind_eq_ok, pure_eq_ok] at hp
    obtain ⟨_, _, rfl⟩ := hp
    refine (openCaseChange_keeps hchanged).mono ?_
    rintro c ⟨⟨desk, hdesk⟩, rfl⟩
    exact ⟨desk, .opened hdesk⟩
  | ingest incidents delivery expected_revision =>
    have hp := inTransaction_transaction hprepared
    simp only [ingest, bind_eq_ok, fetch_eq_ok, pure_eq_ok] at hp
    obtain ⟨spec, _, _, _, actor, _, rfl⟩ := hp
    refine (ingestChange_keeps hchanged).mono ?_
    rintro c ⟨⟨desk, hdesk⟩, rfl⟩
    exact ⟨desk, .ingested hdesk⟩
  | reopenCase actor cmd case_id evidence_digest =>
    have hp := inTransaction_transaction hprepared
    simp only [reopenCase, bind_eq_ok, pure_eq_ok] at hp
    obtain ⟨_, _, rfl⟩ := hp
    refine (reopenCaseChange_keeps hkept hchanged).mono ?_
    rintro c ⟨⟨desk, hdesk⟩, rfl⟩
    exact ⟨desk, .reopened hdesk⟩
  | resolve actor cmd case_id handoff_id resolution evidence_digest =>
    have hp := inTransaction_transaction hprepared
    simp only [resolve, bind_eq_ok, pure_eq_ok] at hp
    obtain ⟨_, _, rfl⟩ := hp
    refine (resolveChange_keeps hkept hchanged).mono ?_
    rintro c ⟨⟨desk, hdesk⟩, rfl⟩
    exact ⟨desk, .resolved hdesk⟩
  | investigate actor cmd case_id snapshot planning =>
    rcases investigate_ok hprepared with ⟨response, htx, _⟩ | ⟨inquiry, report, hcaptured,
      hdrafted, htx⟩
    · cases htx
    · cases htx
      have hinvestigates := (investigateChange_effect (w.revision + 1) hkept.archived
        (h.fresh.reports "report") hcaptured hdrafted hchanged).2
      intro key a c hkeeps hstored
      cases hkeeps with
      | guard hcase => exact Or.inl (stored_of_occurs h hstored (by simp [drawer, filed]))
      | bundle hcase =>
        rcases investigates_bundle hinvestigates hkept.filed hstored with hb | ⟨context, hcontext,
          rfl⟩
        · exact Or.inl hb
        · right
          have hc : c = case_id := hcase.symm.trans (draftReport_ok hdrafted).2.1
          cases hdesk : svc.evidence_desk with
          | none => simp [hcaptured.without hdesk] at hcontext
          | some desk => exact ⟨desk, hc ▸ .investigated hdesk⟩
  | reserveSource actor cmd desk case_id source_id resource snapshot force_refresh =>
    have hp := inTransaction_transaction hprepared
    simp only [reserveSource, bind_eq_ok, pure_eq_ok] at hp
    obtain ⟨acq, _, rfl⟩ := hp
    have hreserved : reserveChange desk env actor cmd case_id acq force_refresh w
        (w.revision + 1) = .ok (m, result) := hchanged
    refine (reserveChange_keeps hkept hreserved).mono ?_
    rintro c rfl
    exact ⟨desk, .reserved⟩
  | planMission actor cmd desk case_id queries reviewer_id =>
    have hp := inTransaction_transaction hprepared
    simp only [planMission, bind_eq_ok, pure_eq_ok] at hp
    obtain ⟨_, _, _, _, rfl⟩ := hp
    refine (planMissionChange_keeps hkept hchanged).mono ?_
    rintro c rfl
    exact ⟨desk, .planned⟩
  | _ =>
    refine hsame ?_
    rintro a c (_ | _) <;> simp [drawer, filed]

/-- Obligations only grow from one stored workspace of a run to a later one,
and whatever is configured then, a policy that is accepted demands them all. -/
theorem obligations_only_grow {before after : List Step} {st : Option Workspace}
    (hmid : Run casework before (some w)) (h : Run casework (before ++ after) st) :
    ∃ w', st = some w' ∧ ∀ case_id, obligations w case_id ≤ obligations w' case_id ∧
      ∀ policy effective, effectivePolicy w' case_id policy = .ok effective →
        obligations w case_id ≤ effective ∧ ∀ p ∈ policy, demanded p ≤ effective := by
  obtain ⟨w', hw', hgrow⟩ := obligations_of_run hmid h
  refine ⟨w', hw', fun case_id => ⟨hgrow case_id, ?_⟩⟩
  intro policy effective heffective
  obtain ⟨hstored, hpolicy, _⟩ := effectivePolicy_ok heffective
  exact ⟨le_trans (hgrow case_id) hstored, hpolicy⟩

/-- Once a call has remembered a policy for a case, the case is obliged to the
whole of it in every later state. -/
theorem remembered_policy_binds {before after : List Step} {desk : EvidenceDesk}
    {case_id : Identifier} {st : Option Workspace}
    (h : Run casework (before ++ s :: after) st) (hcommitted : s.Committed)
    (hr : Remembers s.svc s.env desk s.call case_id) :
    ∃ w c, st = some w ∧ w.cases.get? case_id = some c ∧ Binds desk w c := by
  obtain ⟨hpre, hnow, _⟩ := h.at_step
  rcases step_cases hpre hnow with ⟨_, w, tx, m, result, hh⟩ | ⟨hrepeated, _⟩
  · exact binds_on ⟨hh, hpre, hnow⟩ hr h
  · exact absurd hcommitted hrepeated

/-- A step that stores a guard or a bundle of the case. -/
def Stores (s : Step) (case_id : Identifier) : Prop :=
  ∃ w key a, s.post = some w ∧ w.artifacts.get? key = some a ∧ Keeps case_id a ∧
    ∀ w0, s.pre = some w0 → w0.artifacts.get? key ≠ some a

/-- What is stored under a configured policy is stored by a call that remembers it. -/
theorem remembers_of_stores {case_id : Identifier} (hrun : Run casework steps s.pre)
    (hnow : Allowed steps s) (h : Stores s case_id) :
    s.Committed ∧ ∃ desk, Remembers s.svc s.env desk s.call case_id := by
  obtain ⟨w', key, a, hpost, hstored, hkeeps, hnew⟩ := h
  rcases step_cases hrun hnow with ⟨hcommitted, w, tx, m, result, hh⟩ | ⟨_, hsame⟩
  · refine ⟨hcommitted, ?_⟩
    rw [hh.commits.post] at hpost
    cases hpost
    rcases keeps_of_occurs ⟨hh, hrun, hnow⟩ key a case_id hkeeps hstored with hbefore | hremembers
    · rcases hh.before with hpre | ⟨_, tenant_id, rfl⟩
      · exact absurd hbefore (hnew w hpre)
      · simp [sealed, Workspace.blank] at hbefore
    · exact hremembers
  · exact absurd hstored (hnew w' (hsame ▸ hpost))

/-- What a case owes never shrinks and bounds every policy that is accepted, and
whatever is stored under a configured policy leaves the case obliged to it. -/
theorem obligations_never_shrink {before after : List Step} {st : Option Workspace}
    (hmid : Run casework before (some w)) (h : Run casework (before ++ after) st) :
    ∃ w', st = some w' ∧
      (∀ case_id, obligations w case_id ≤ obligations w' case_id ∧
        ∀ policy effective, effectivePolicy w' case_id policy = .ok effective →
          obligations w' case_id ≤ effective ∧ ∀ p ∈ policy, demanded p ≤ effective) ∧
      ∀ s ∈ before ++ after, ∀ case_id,
        (Stores s case_id → s.Committed ∧ ∃ desk, Remembers s.svc s.env desk s.call case_id) ∧
        (s.Committed → ∀ desk, Remembers s.svc s.env desk s.call case_id →
          ∃ c, w'.cases.get? case_id = some c ∧ Binds desk w' c) := by
  obtain ⟨w', hw', hgrow⟩ := obligations_of_run hmid h
  refine ⟨w', hw', fun case_id => ⟨hgrow case_id, ?_⟩, ?_⟩
  · intro policy effective heffective
    obtain ⟨hstored, hpolicy, _⟩ := effectivePolicy_ok heffective
    exact ⟨hstored, hpolicy⟩
  · intro s hs case_id
    obtain ⟨earlier, later, hsplit⟩ := List.mem_iff_append.mp hs
    have hrun : Run casework (earlier ++ s :: later) st := hsplit ▸ h
    obtain ⟨hpre, hnow, _⟩ := hrun.at_step
    refine ⟨remembers_of_stores hpre hnow, ?_⟩
    intro hcommitted desk hr
    rcases step_cases hpre hnow with ⟨_, w0, tx, m, result, hh⟩ | ⟨hrepeated, _⟩
    · obtain ⟨w1, c, hw1, hc, hbinds⟩ := binds_on ⟨hh, hpre, hnow⟩ hr hrun
      rw [hw'] at hw1
      cases hw1
      exact ⟨c, hc, hbinds⟩
    · exact absurd hcommitted hrepeated

end Growing

section Asking

omit [Sha256] [CollisionFree]

/-- A case whose tracker was asked for evidence, and read after that. -/
structure AskedAndRead [Sha256] (before : List Step) (ask read : Step) (w w' : Workspace)
    (c : RiskCase) : Prop where
  asked : Run casework (before ++ [ask]) (some w)
  read : Run casework ((before ++ [ask]) ++ [read]) (some w')
  committed : ask.Committed
  remembers : Remembers ask.svc ask.env (Sourcing.desk [Sourcing.demand]) ask.call c.case_id
  owes : demanded Sourcing.demand ≤ obligations w c.case_id
  tenant : w'.tenant_id = "tenant"
  stored : w'.cases.get? c.case_id = some c
  scope : c.scope = Crew.transfers

theorem exists_askedAndRead [Sha256] [CollisionFree] :
    ∃ before ask read w w' c, AskedAndRead before ask read w w' c := by
  obtain ⟨steps, w, task, d, hstarted⟩ := Crew.exists_started
  obtain ⟨s, w', task', c, hd⟩ := Crew.exists_disputed hstarted
  have hpristine : Sourcing.Pristine w' c :=
    ⟨hd.reviewable.stored, hd.reviewable.opened, hd.scope, hd.opened.tenant, hd.artifacts⟩
  have hrun := hd.opened.run
  have hrevision := hd.opened.revision
  have hvalid := validateWorkspace_ok (kept_of_run hrun w' rfl).toShaped
    (coherent_of_run hrun w' rfl)
  have hread : ∃ t ∈ steps ++ [s], t.post = some w' := ⟨s, by simp, hd.post⟩
  obtain ⟨asked, s1, hdone, hdiffers, hs1⟩ := Sourcing.can_ask hrun (by omega) hread hpristine
  have hremembers : Remembers s1.svc s1.env (Sourcing.desk [Sourcing.demand]) s1.call
      c.case_id := by
    rw [hs1.call]
    exact .reserved
  obtain ⟨tx1, hh1⟩ := hs1.happened
  have hpost1 := hh1.commits.post
  have hrun1 := hs1.run hrun
  obtain ⟨c1, hc1, hbinds⟩ := remembers_binds ⟨hh1, hs1.pre ▸ hrun, hs1.now⟩ hremembers
  rw [hpost1] at hrun1
  have hstored := hd.reviewable.stored
  have hsame : c1 = c := Option.some.inj (hc1.symm.trans hstored)
  subst hsame
  obtain ⟨s2, tx2, result2, hs2, hpost2, _⟩ :=
    Sourcing.can_read hrun1 (by omega) hread hpristine hvalid hdone hdiffers hs1 hpost1
  have hrun2 := hs2.run hrun1
  rw [hpost2] at hrun2
  refine ⟨_, s1, s2, _, _, c1, hrun1, hrun2, hs1.committed, hremembers, ?_, ?_, ?_, hd.scope⟩
  · exact hbinds _ (Sourcing.desk_policy hd.opened.tenant hd.scope)
  · exact hd.opened.tenant
  · exact hstored

/-- The tracker's case goes on to owe what it owed when the tracker was asked. -/
theorem asked_case_still_owes : letI := spelling
    ∃ before after w w' case_id, Run casework before (some w) ∧
      Run casework (before ++ after) (some w') ∧ demanded Sourcing.demand ≤ obligations w case_id ∧
      obligations w case_id ≤ obligations w' case_id := by
  let _ := spelling
  have := spelling_collisionFree
  obtain ⟨before, ask, read, w, w', c, h⟩ := exists_askedAndRead
  obtain ⟨w1, hw1, hgrow⟩ := obligations_only_grow h.asked h.read
  cases hw1
  exact ⟨_, _, w, w', c.case_id, h.asked, h.read, h.owes, (hgrow c.case_id).1⟩

theorem asked_policy_binds : letI := spelling
    ∃ before ask read w' c, Run casework (before ++ ask :: [read]) (some w') ∧ ask.Committed ∧
      policy (Sourcing.desk [Sourcing.demand]) w' c = some Sourcing.demand ∧
      demanded Sourcing.demand ≤ obligations w' c.case_id := by
  let _ := spelling
  have := spelling_collisionFree
  obtain ⟨before, ask, read, w, w', c, h⟩ := exists_askedAndRead
  have hrun : Run casework (before ++ ask :: [read]) (some w') := by
    simpa using h.read
  obtain ⟨w1, c1, hw1, hc1, hbinds⟩ := remembered_policy_binds hrun h.committed h.remembers
  cases hw1
  have hsame : c1 = c := Option.some.inj (hc1.symm.trans h.stored)
  subst hsame
  have hpolicy := Sourcing.desk_policy h.tenant h.scope
  exact ⟨before, ask, read, w', c1, hrun, h.committed, hpolicy, hbinds _ hpolicy⟩

/-- The tracker's case owes the tracker when it was read, for it was asked. -/
theorem read_case_owes_tracker : letI := spelling
    ∃ before ask read w w' c, Run casework (before ++ [ask]) (some w) ∧
      Run casework ((before ++ [ask]) ++ [read]) (some w') ∧ ask.Committed ∧
      w'.cases.get? c.case_id = some c ∧ obligations w c.case_id ≤ obligations w' c.case_id ∧
      Binds (Sourcing.desk [Sourcing.demand]) w' c ∧
      demanded Sourcing.demand ≤ obligations w' c.case_id := by
  let _ := spelling
  have := spelling_collisionFree
  obtain ⟨before, ask, read, w, w', c, h⟩ := exists_askedAndRead
  obtain ⟨w1, hw1, hgrow, hstores⟩ := obligations_never_shrink h.asked h.read
  cases hw1
  obtain ⟨c1, hc1, hbinds⟩ := (hstores ask (by simp) c.case_id).2 h.committed _ h.remembers
  have hsame : c1 = c := Option.some.inj (hc1.symm.trans h.stored)
  subst hsame
  exact ⟨before, ask, read, w, w', c1, h.asked, h.read, h.committed, hc1, (hgrow _).1, hbinds,
    hbinds _ (Sourcing.desk_policy h.tenant h.scope)⟩

end Asking

end MemoryGuard.Demands
