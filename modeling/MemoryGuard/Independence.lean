import MemoryGuard.Standing

/-!
A resolved case was resolved by an independent reviewer. A handoff always names
a stored report of the same case, version and investigator, and neither is ever
changed but for the acceptance; so what the resolution checked can still be read
off any later workspace.
-/
namespace MemoryGuard.Independence

open OrderedDict Guarded DependencyGraph JsonText ContentHash Models Artifacts Aggregate Core
open Closure SourceState Transactions TaskCommands CaseCommands Traces Calls Filing
open EvidenceEffects TaskEffects CaseEffects Effects Growth Upkeep Lifecycle History Standing

variable [Sha256]

section Handoffs

/-- A handoff is about a stored report of its case, version and investigator. -/
def Handed (w : Workspace) : Prop :=
  ∀ id h, w.handoffs.get? id = some h → ∃ r, w.reports.get? h.report_id = some r ∧
    r.case_id = h.case_id ∧ r.case_version = h.case_version ∧
    r.investigator_id = h.investigator_id

variable {svc : Service} {env : Environment} {w m : Workspace} {call : Call} {result : Result}

theorem handsOff_handed {h : Handoff} (hands : HandsOff w m h) (hw : Shaped w)
    (hhanded : Handed w) : Handed m := by
  intro id h' hget
  rw [hands.handoffs, Dict.get?_set] at hget
  rw [hands.reports]
  split at hget
  · cases hget
    obtain ⟨key, r, case, hr, hid, hcase, hof, hversion, hinvestigator⟩ := hands.report
    refine ⟨r, ?_, ?_, hversion, hinvestigator⟩
    · rw [← hid, hw.reports key r hr]
      exact hr
    · rw [hof, hw.cases _ _ hcase]
  · exact hhanded id h' hget

omit [Sha256] in
theorem accepts_handed {handoff_id : Identifier} {h : Handoff}
    (accepts : Accepts w m handoff_id h) (hhanded : Handed w) : Handed m := by
  intro id h' hget
  rw [accepts.handoffs, Dict.get?_set] at hget
  rw [accepts.reports]
  split at hget
  · cases hget
    exact hhanded handoff_id h accepts.known
  · exact hhanded id h' hget

/-- Handoffs change with their own two commands only. -/
theorem effect_handed (h : Effect svc env w call m result) (hw : Shaped w) (hgrows : Grows w m)
    (hhanded : Handed w) : Handed m := by
  have hsame : m.handoffs = w.handoffs → Handed m := by
    intro hhandoffs id h' hget
    obtain ⟨r, hr, hof⟩ := hhanded id h' (hhandoffs ▸ hget)
    exact ⟨r, hgrows.reports _ _ hr, hof⟩
  cases h with
  | filed _ _ files => exact hsame files.handoffs
  | reserved _ reserves => exact hsame reserves.handoffs
  | investigated _ _ _ investigates => exact hsame investigates.handoffs
  | handedOff _ handsOff => exact handsOff_handed handsOff hw hhanded
  | accepted _ accepts => exact accepts_handed accepts hhanded
  | evaluated _ _ _ _ decides => exact hsame (by rw [decides.stored]; rfl)
  | registered _ _ _ _ decides => exact hsame (by rw [decides.stored]; rfl)
  | baselineSet _ sets => exact hsame sets.disturbs.handoffs
  | opened _ _ opens => exact hsame opens.writes.disturbs.handoffs
  | ingested _ _ _ opens => exact hsame opens.writes.disturbs.handoffs
  | reopened _ reopens => exact hsame reopens.writes.disturbs.handoffs
  | resolved _ resolves =>
    obtain ⟨_, _, writes⟩ := resolves.writes
    exact hsame writes.disturbs.handoffs

theorem handed_of_run [CollisionFree] {steps : List Step} {st : Option Workspace}
    (h : Run casework steps st) : ∀ w, st = some w → Handed w := by
  refine invariant_of_run Handed ?_ ?_ h
  · intro tenant_id id h hget
    simp [sealed, Workspace.blank] at hget
  · intro s w tx m result hh hw
    obtain ⟨_, _, hgrows⟩ := effect_keeps hh.effect hh.kept hh.fresh
    have hm := effect_handed hh.effect hh.kept.toShaped hgrows hw
    exact hm

end Handoffs

section Resolutions

variable {svc : Service} {env : Environment} {w m : Workspace} {call : Call} {result : Result}
  {k : Identifier} {c : RiskCase}

/-- A call that resolves one case, with all that it checks. -/
inductive Resolves (svc : Service) (env : Environment) (w m : Workspace) (k : Identifier)
    (c : RiskCase) : Call → Prop
  | mk {actor : Actor} {cmd : Command} {handoff_id : Identifier} {resolution : Resolution}
      {evidence_digest : Digest} {old : RiskCase} {handoff : Handoff} {report : Report}
      (resolves : ResolvesCase svc env actor (w.revision + 1) w m k handoff_id resolution
        evidence_digest old handoff report)
      (record : c = resolvedCase old resolution actor.actor_id (w.revision + 1)) :
      Resolves svc env w m k c (.resolve actor cmd k handoff_id resolution evidence_digest)

theorem resolves_known (h : Resolves svc env w m k c call) :
    ∃ old, w.cases.get? k = some old := by
  cases h with
  | mk resolves record => exact ⟨_, resolves.known⟩

/-- A case that is resolved after an event was so before, or the event resolved it. -/
theorem effect_resolves (h : Effect svc env w call m result) (hw : Shaped w)
    (hc : m.cases.get? k = some c) (hresolved : c.status = .resolved) :
    w.cases.get? k = some c ∨ Resolves svc env w m k c call := by
  have hsame : m.cases = w.cases → w.cases.get? k = some c ∨ Resolves svc env w m k c call :=
    fun hcases => Or.inl (hcases ▸ hc)
  have hopens : ∀ {c' : RiskCase}, OpensCase (w.revision + 1) w m c' →
      w.cases.get? k = some c ∨ Resolves svc env w m k c call := by
    intro c' opens
    rw [writesCase_get? opens.writes] at hc
    split at hc
    · cases hc
      rw [opens.opened] at hresolved
      cases hresolved
    · exact Or.inl hc
  cases h with
  | filed _ _ files => exact hsame files.cases
  | reserved _ reserves => exact hsame reserves.cases
  | investigated _ _ _ investigates => exact hsame investigates.cases
  | handedOff _ handsOff => exact hsame handsOff.cases
  | accepted _ accepts => exact hsame accepts.cases
  | evaluated _ _ _ _ decides => exact hsame (by rw [decides.stored]; rfl)
  | registered _ _ _ _ decides => exact hsame (by rw [decides.stored]; rfl)
  | baselineSet _ sets => exact hsame sets.cases
  | opened _ _ opens => exact hopens opens
  | ingested _ _ _ opens => exact hopens opens
  | reopened _ reopens =>
    rw [writesCase_get? reopens.writes] at hc
    split at hc
    · cases hc
      obtain ⟨_, _, hrenewed⟩ := reopens.renewed
      rw [hrenewed] at hresolved
      cases hresolved
    · exact Or.inl hc
  | @resolved actor _ case_id _ resolution _ _ _ old _ _ _ resolves =>
    obtain ⟨_, _, writes⟩ := resolves.writes
    rw [writesCase_get? writes] at hc
    split at hc
    · rename_i hid
      have hkeyed : old.case_id = case_id := hw.cases _ _ resolves.known
      have hk : case_id = k := hkeyed.symm.trans hid
      subst hk
      cases hc
      exact Or.inr (.mk resolves rfl)
    · exact Or.inl hc

end Resolutions

section Runs

variable [CollisionFree] {steps : List Step}

/-- What a resolution leaves behind for good: the accepted handoff of the case to
the one who resolved it, and the report it is about. -/
structure Reviewed (w : Workspace) (k : Identifier) (c : RiskCase) (h : Handoff)
    (report : Report) : Prop where
  handed : w.handoffs.get? h.handoff_id = some h
  case_id : h.case_id = c.case_id
  accepted : h.accepted = true
  version : h.case_version + 1 = c.version
  reviewer : c.resolved_by = some h.reviewer_id
  opener : h.reviewer_id ≠ c.opened_by
  investigator : h.reviewer_id ≠ h.investigator_id
  reported : w.reports.get? h.report_id = some report
  report_case : report.case_id = c.case_id
  report_version : report.case_version + 1 = c.version
  report_investigator : report.investigator_id = h.investigator_id

omit [CollisionFree] in
theorem resolves_reviewed {svc : Service} {env : Environment} {w m : Workspace} {k : Identifier}
    {c : RiskCase} {call : Call} (h : Resolves svc env w m k c call) (hw : Shaped w)
    (hhanded : Handed w) : ∃ handoff report, Reviewed w k c handoff report ∧
      investigationBasis w k = .ok report.basis_hash := by
  cases h with
  | @mk actor cmd handoff_id resolution evidence_digest old handoff report resolves record =>
    obtain ⟨hcase, haccepted, hreviewer, hopener, hinvestigator⟩ := resolves.acknowledged
    have hstands := resolves.stands
    have hkeyed := hw.cases _ _ resolves.known
    obtain ⟨r, hr, _, _, hrinvestigator⟩ := hhanded _ _ resolves.handedOff
    rw [hstands.stored] at hr
    cases hr
    subst record
    refine ⟨handoff, report, ⟨?_, ?_, haccepted, ?_, ?_, ?_, ?_, hstands.stored,
      hstands.case_id, ?_, hrinvestigator⟩, ?_⟩
    · rw [hw.handoffs _ _ resolves.handedOff]
      exact resolves.handedOff
    · exact hcase.trans hkeyed.symm
    · exact congrArg (· + 1) resolves.version
    · exact congrArg some hreviewer.symm
    · rw [hreviewer]
      exact hopener
    · rw [hreviewer]
      exact hinvestigator
    · exact congrArg (· + 1) hstands.version
    · exact hkeyed ▸ hstands.basis

omit [Sha256] [CollisionFree] in
theorem Reviewed.grows {w m : Workspace} {k : Identifier} {c : RiskCase} {h : Handoff}
    {report : Report} (hr : Reviewed w k c h report) (hgrows : Grows w m) :
    Reviewed m k c h report := by
  obtain ⟨h', hh', hforwarded⟩ := hgrows.handoffs _ _ hr.handed
  have hsame : h' = h := by
    rcases hforwarded with hsame | haccepted
    · exact hsame
    · rw [haccepted]
      have hdone := hr.accepted
      cases h
      simp only at hdone
      rw [hdone]
  exact { hr with
    handed := hsame ▸ hh'
    reported := hgrows.reports _ _ hr.reported }

theorem step_resolves {s : Step} {w : Workspace} {k : Identifier} {c : RiskCase}
    (hrun : Run casework steps s.pre) (hnow : Allowed steps s) (hpost : s.post = some w)
    (hc : w.cases.get? k = some c) (hresolved : c.status = .resolved)
    (hnew : ∀ w0, s.pre = some w0 → w0.cases.get? k ≠ some c) :
    ∃ w0 tx m result, Happened s w0 tx m result ∧ Resolves s.svc s.env w0 m k c s.call := by
  rcases step_cases hrun hnow with ⟨_, w0, tx, m, result, hh⟩ | ⟨_, hsame⟩
  · refine ⟨w0, tx, m, result, hh, ?_⟩
    rw [hh.commits.post] at hpost
    cases hpost
    rcases effect_resolves hh.effect hh.kept.toShaped hc hresolved with hold | hresolves
    · rcases hh.before with hpre | ⟨_, tenant_id, rfl⟩
      · exact absurd hold (hnew w0 hpre)
      · simp [sealed, Workspace.blank] at hold
    · exact hresolves
  · exact absurd hc (hnew w (hsame.symm.trans hpost))

/-- Every resolved case was resolved by a step that checked a review of it by
another reviewer, on the basis the case had at that moment; the review is still
in the store. No other command resolves a case. -/
theorem resolved_independently {w : Workspace} (hrun : Run casework steps (some w)) :
    (∀ k c, w.cases.get? k = some c → c.status = .resolved →
      ∃ before s after w0 h report, steps = before ++ s :: after ∧ s.Committed ∧
        s.pre = some w0 ∧ w0.cases.get? k ≠ some c ∧
        (∃ w1, s.post = some w1 ∧ w1.cases.get? k = some c) ∧
        (∃ actor cmd handoff_id resolution evidence_digest,
          s.call = .resolve actor cmd k handoff_id resolution evidence_digest) ∧
        investigationBasis w0 k = .ok report.basis_hash ∧ Reviewed w k c h report) ∧
    ∀ before s after w0 w1 k old c, steps = before ++ s :: after → s.pre = some w0 →
      s.post = some w1 → w0.cases.get? k = some old → old.status ≠ .resolved →
      w1.cases.get? k = some c → c.status = .resolved →
      ∃ actor cmd handoff_id resolution evidence_digest,
        s.call = .resolve actor cmd k handoff_id resolution evidence_digest := by
  constructor
  · intro k c hc hresolved
    obtain ⟨before, s, after, hsplit, hbefore, hnow, hnew, hdone⟩ :=
      Run.broken (S := casework)
        (fun st => ∀ w, st = some w → w.cases.get? k ≠ some c) Run.start
        (fun w hw => by cases hw) hrun (fun hnone => hnone w rfl hc)
    have hex : ∃ w1, s.post = some w1 ∧ w1.cases.get? k = some c := by
      by_contra hnot
      exact hdone (fun w1 hpost hget => hnot ⟨w1, hpost, hget⟩)
    obtain ⟨w1, hpost, hc1⟩ := hex
    obtain ⟨w0, tx, m, result, hh, hresolves⟩ :=
      step_resolves hbefore hnow hpost hc1 hresolved hnew
    have hpre : s.pre = some w0 := by
      rcases hh.before with hpre | ⟨_, tenant_id, rfl⟩
      · exact hpre
      · obtain ⟨old, hknown⟩ := resolves_known hresolves
        simp [sealed, Workspace.blank] at hknown
    have hbefore' : Run casework before s.pre := hbefore
    obtain ⟨h, report, hreviewed, hbasis⟩ :=
      resolves_reviewed hresolves hh.kept.toShaped (handed_of_run hbefore' w0 hpre)
    have hgrows : Grows w0 w := by
      obtain ⟨w', hw', hgrows⟩ := run_extends hbefore' (hsplit ▸ hrun) w0 hpre
      cases hw'
      exact hgrows
    have hcall : ∃ actor cmd handoff_id resolution evidence_digest,
        s.call = .resolve actor cmd k handoff_id resolution evidence_digest := by
      generalize s.call = call at hresolves
      cases hresolves with
      | mk resolves record => exact ⟨_, _, _, _, _, rfl⟩
    have hcommitted : s.Committed := by
      unfold Step.Committed
      rw [hh.commits.response]
      rfl
    exact ⟨before, s, after, w0, h, report, hsplit, hcommitted, hpre, hnew w0 hpre,
      ⟨w1, hpost, hc1⟩, hcall, hbasis, hreviewed.grows hgrows⟩
  · intro before s after w0 w1 k old c hsplit hpre hpost hold hopen hc hresolved
    obtain ⟨hbefore, hnow, _⟩ := Run.at_step (hsplit ▸ hrun)
    have hnew : ∀ w, s.pre = some w → w.cases.get? k ≠ some c := by
      intro w hw hget
      rw [hpre] at hw
      cases hw
      rw [hold] at hget
      cases hget
      exact hopen hresolved
    obtain ⟨_, _, _, _, _, hresolves⟩ := step_resolves hbefore hnow hpost hc hresolved hnew
    generalize s.call = call at hresolves
    cases hresolves with
    | mk resolves record => exact ⟨_, _, _, _, _, rfl⟩

omit [Sha256] [CollisionFree] in
theorem dispute_resolved_independently : letI := spelling
    ∃ (steps : List Step) (w : Workspace) (k : Identifier) (c : RiskCase),
      Run casework steps (some w) ∧ w.cases.get? k = some c ∧ c.status = .resolved ∧
      ∃ before s after w0 h report, steps = before ++ s :: after ∧ s.Committed ∧
        s.pre = some w0 ∧ investigationBasis w0 k = .ok report.basis_hash ∧
        Reviewed w k c h report := by
  let _ := spelling
  have := spelling_collisionFree
  obtain ⟨steps, w, task, d, h⟩ := Crew.exists_started
  obtain ⟨s, w1, task1, c, hd⟩ := Crew.exists_disputed h
  obtain ⟨done, s', w0, w2, hr⟩ := Crew.exists_resolved h hd
  have hresolved : (resolvedCase c .remediationVerified Crew.reviewer.actor_id 8).status = .resolved :=
    rfl
  obtain ⟨before, t, after, v, handoff, report, hsplit, hcommitted, hpre, _, _, _, hbasis, hreviewed⟩ :=
    (resolved_independently hr.opened.run).1 _ _ hr.cases hresolved
  exact ⟨_, w2, _, _, hr.opened.run, hr.cases, hresolved, before, t, after, v, handoff, report,
    hsplit, hcommitted, hpre, hbasis, hreviewed⟩

end Runs

end MemoryGuard.Independence
