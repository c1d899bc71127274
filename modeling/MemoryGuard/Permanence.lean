import MemoryGuard.Crew

/-!
What the store never loses. A later workspace has every record of an earlier
one: histories and the audit trail grow at their end, lessons and answers stay,
and a handoff can only come to be accepted.
-/
namespace MemoryGuard.Permanence

open OrderedDict Guarded JsonText ContentHash Models Artifacts Aggregate Core Closure
open Transactions Traces Calls Filing Effects Growth Upkeep Lifecycle History Integrity

variable [Sha256]

section Keeping

/-- A later workspace keeps all that an earlier one recorded, in its place. -/
structure AppendOnly (w w' : Workspace) : Prop extends Appends w w' where
  audit : w.audit <+: w'.audit
  decisions : ∀ k d, w.decisions.get? k = some d → w'.decisions.get? k = some d
  reports : ∀ k r, w.reports.get? k = some r → w'.reports.get? k = some r
  idempotency : ∀ k e, w.idempotency.get? k = some e → w'.idempotency.get? k = some e
  handoffs : ∀ k h, w.handoffs.get? k = some h → ∃ h', w'.handoffs.get? k = some h' ∧ Forwarded h h'

omit [Sha256] in
theorem AppendOnly.refl (w : Workspace) : AppendOnly w w where
  toAppends := sameLogs_appends ⟨rfl, rfl, rfl⟩
  audit := List.prefix_refl _
  decisions := fun _ _ hd => hd
  reports := fun _ _ hr => hr
  idempotency := fun _ _ he => he
  handoffs := fun _ h hh => ⟨h, hh, Or.inl rfl⟩

omit [Sha256] in
theorem AppendOnly.trans {w w' w'' : Workspace} (h : AppendOnly w w') (h' : AppendOnly w' w'') :
    AppendOnly w w'' where
  case_history := h.case_history.trans h'.case_history
  baseline_history := h.baseline_history.trans h'.baseline_history
  lessons := fun k l hl => h'.lessons k l (h.lessons k l hl)
  audit := h.audit.trans h'.audit
  decisions := fun k d hd => h'.decisions k d (h.decisions k d hd)
  reports := fun k r hr => h'.reports k r (h.reports k r hr)
  idempotency := fun k e he => h'.idempotency k e (h.idempotency k e he)
  handoffs := by
    intro k hd hh
    obtain ⟨h1, hh1, hf1⟩ := h.handoffs k hd hh
    obtain ⟨h2, hh2, hf2⟩ := h'.handoffs k h1 hh1
    exact ⟨h2, hh2, hf1.trans hf2⟩

end Keeping

variable [CollisionFree]

section Runs

variable {steps : List Step} {s : Step}

theorem happened_appendOnly {w m : Workspace} {tx : Transaction} {result : Result}
    (hh : Happened s w tx m result) (hcoherent : Coherent w) :
    AppendOnly w (recorded s.env w m tx result) := by
  have happends := (effect_proved hh.effect hh.kept hcoherent.toProved hh.fresh).2
  have hgrows := happened_grows hh
  refine ⟨⟨happends.case_history, happends.baseline_history, happends.lessons⟩, ?_,
    hgrows.decisions, hgrows.reports, ?_, hgrows.handoffs⟩
  · exact List.prefix_append w.audit [auditEvent s.env w tx result]
  · intro k e he
    have hne : tx.key ≠ k := by
      rintro rfl
      rw [hh.commits.new] at he
      cases he
    rw [recorded_idempotency, if_neg hne, he]

/-- Every stored state of the store keeps what an earlier one recorded. -/
def Retains (st st' : Option Workspace) : Prop :=
  ∀ w, st = some w → ∃ w', st' = some w' ∧ AppendOnly w w'

theorem step_retains (hrun : Run casework steps s.pre) (hnow : Allowed steps s) :
    Retains s.pre s.post := by
  intro w hw
  rcases step_cases hrun hnow with ⟨_, w0, tx, m, result, hh⟩ | ⟨_, hsame⟩
  · have hwhich := happened_on hh hw
    subst hwhich
    exact ⟨_, hh.commits.post, happened_appendOnly hh (coherent_of_run hrun _ hw)⟩
  · exact ⟨w, hsame.trans hw, AppendOnly.refl w⟩

theorem run_retains {before after : List Step} {mid st : Option Workspace}
    (hmid : Run casework before mid) (h : Run casework (before ++ after) st) :
    Retains mid st := by
  refine Run.related Retains ?_ ?_ (fun steps s hrun hnow => step_retains hrun hnow) hmid h
  · exact fun st w hw => ⟨w, hw, AppendOnly.refl w⟩
  · intro a b c hab hbc w hw
    obtain ⟨w', hw', hkeeps⟩ := hab w hw
    obtain ⟨w'', hw'', hkeeps'⟩ := hbc w' hw'
    exact ⟨w'', hw'', hkeeps.trans hkeeps'⟩

/-- The store holds valid workspaces only, takes every change that succeeds,
and forgets nothing. -/
theorem sealed_append_only {before after : List Step} {mid st : Option Workspace}
    (hmid : Run casework before mid) (h : Run casework (before ++ after) st) :
    (∀ w, st = some w → validateWorkspace w = .ok ()) ∧ TakesChanges st ∧ Retains mid st := by
  refine ⟨?_, takesChanges_of_run h, run_retains hmid h⟩
  intro w hw
  exact validateWorkspace_ok (kept_of_run h w hw).toShaped (coherent_of_run h w hw)

omit [Sha256] [CollisionFree] in
theorem dispute_sealed : letI := spelling
    ∃ (before after : List Step) (mid st : Option Workspace), Run casework before mid ∧
      Run casework (before ++ after) st ∧ mid ≠ none ∧ after ≠ [] ∧
      (∀ w, st = some w → validateWorkspace w = .ok ()) ∧ TakesChanges st ∧ Retains mid st := by
  let _ := spelling
  have := spelling_collisionFree
  obtain ⟨steps, w, task, d, h⟩ := Crew.exists_started
  obtain ⟨s, w', task', c, hd⟩ := Crew.exists_disputed h
  have hseal := sealed_append_only h.opened.run hd.opened.run
  exact ⟨steps, [s], _, _, h.opened.run, hd.opened.run, by simp, by simp, hseal⟩

end Runs

end MemoryGuard.Permanence
