import MemoryGuard.Crew
import MemoryGuard.Custody
import MemoryGuard.Grounds
import MemoryGuard.ReviewGate

/-!
Review plans for the partner's job market. A plan keeps what it was prepared
with; a verification adds what it saw of the job and, unless the look failed,
binds the plan to the job. The job is claimed inside the commit, against every
plan of the same chain, so two plans that ask for one job cannot both have it.
-/
namespace MemoryGuard.ReviewPlans

open OrderedDict Guarded JsonText ContentHash Models Artifacts Aggregate Core SourceModels
open SourceService Transactions TaskCommands CaseCommands SourceCommands PartnerCommands Traces
open Calls Filing EvidenceEffects Effects Growth Upkeep History Progress Staffing Standing
open ReviewGate Writes Custody

section Records

/-- A plan as it was prepared. -/
def terms (p : ReviewPlan) : ReviewPlan :=
  { p with state := .operatorActionRequired, bound_job_id := none, observations := [] }

/-- The same plan later: its terms stay, and so does the job once it is bound. -/
structure Follows (p p' : ReviewPlan) : Prop where
  same : terms p' = terms p
  bound : ∀ job_id, p.bound_job_id = some job_id → p'.bound_job_id = some job_id

theorem Follows.refl (p : ReviewPlan) : Follows p p := ⟨rfl, fun _ h => h⟩

theorem Follows.trans {p p' p'' : ReviewPlan} (h : Follows p p') (h' : Follows p' p'') :
    Follows p p'' :=
  ⟨h'.same.trans h.same, fun job_id hb => h'.bound job_id (h.bound job_id hb)⟩

/-- What is read off the terms of a plan does not change. -/
theorem eq_of_terms {α : Type*} {p p' : ReviewPlan} (h : terms p' = terms p) (f : ReviewPlan → α)
    (hf : ∀ p, f (terms p) = f p) : f p' = f p := by
  rw [← hf p', h, hf p]

/-- Whether the history of a job could not be read. -/
def Failed (job_id : String) (history : Except String (List (String × Json))) : Prop :=
  payloadText (verificationOf job_id history) "state" = some "QUERY_FAILED"

variable {env : Environment} {p : ReviewPlan} {job_id : String}
  {history : Except String (List (String × Json))}

theorem observedPlan_of_failed (h : Failed job_id history) :
    (observedPlan env p job_id history).bound_job_id = p.bound_job_id := by
  simp [observedPlan, show payloadText (verificationOf job_id history) "state" = _ from h]

theorem isJobId_of_read (h : ¬ Failed job_id history) : IsJobId job_id := by
  by_contra hjob
  apply h
  unfold Failed verificationOf
  rw [if_neg hjob]
  rfl

variable (env p job_id history) in
theorem observedPlan_bound :
    (observedPlan env p job_id history).bound_job_id = p.bound_job_id ∨
      IsJobId job_id ∧ (observedPlan env p job_id history).bound_job_id = some job_id := by
  by_cases h : Failed job_id history
  · exact Or.inl (observedPlan_of_failed h)
  · have hread : ¬ payloadText (verificationOf job_id history) "state" = some "QUERY_FAILED" := h
    exact Or.inr ⟨isJobId_of_read h, by simp [observedPlan, hread]⟩

/-- A verification goes on with the plan, if the plan is not bound to another job. -/
theorem observedPlan_follows (hnumbered : p.bound_job_id ≠ some "")
    (hknown : ∀ bound ∈ p.bound_job_id, bound ≠ "" → bound = job_id) :
    Follows p (observedPlan env p job_id history) := by
  refine ⟨rfl, ?_⟩
  intro bound hbound
  rcases observedPlan_bound env p job_id history with hsame | ⟨_, hjob⟩
  · rw [hsame, hbound]
  · have hne : bound ≠ "" := fun hempty => hnumbered (hempty ▸ hbound)
    rw [hjob, hknown bound hbound hne]

end Records

section Steps

variable [Sha256] [CollisionFree] {svc : Service} {env : Environment} {actor : Actor}
  {cmd : Command} {w m : Workspace}

theorem chain_of_partnerHash {spec spec' : VirtualsSpec} (h : partnerHash spec = partnerHash spec') :
    spec.chain_id = spec'.chain_id := by
  simp only [partnerHash, digest_inj, true_and] at h
  have hfields := object_inj h rfl
  simp only [List.cons.injEq, Prod.mk.injEq, true_and] at hfields
  have hid : spec.chain_id.id = spec'.chain_id.id := nat_inj.mp hfields.2.2.1
  cases hs : spec.chain_id with
  | base =>
    cases hs' : spec'.chain_id with
    | base => rfl
    | baseSepolia => simp [hs, hs', Chain.id] at hid
  | baseSepolia =>
    cases hs' : spec'.chain_id with
    | base => simp [hs, hs', Chain.id] at hid
    | baseSepolia => rfl

omit [CollisionFree] in
/-- A verification of a plan repeats an answer, or commits what it saw of the job
under the specification the plan was prepared with. -/
theorem verifyPlan_cases {partner : Option VirtualsSpec} {snapshot : Workspace}
    {plan_id : Identifier} {job_id : String} {history : Except String (List (String × Json))}
    {tx : Transaction}
    (h : verifyPlan svc partner env actor cmd snapshot plan_id job_id history =
      .ok (.transaction tx)) :
    ∃ spec plan, snapshot.artifacts.get? plan_id = some (.reviewPlan plan) ∧
      plan.partner_spec_hash = partnerHash spec ∧
      tx.change = verifyPlanChange svc env actor spec plan plan_id job_id history := by
  simp only [verifyPlan, bind_eq_ok, fetch_eq_ok, ensure_eq_ok] at h
  obtain ⟨_, _, _, _, _, _, plan, hplan, _, _, spec, _, _, hhash, _, _, h⟩ := h
  refine ⟨spec, plan, storedPlan_eq_some.mp hplan, hhash, ?_⟩
  split at h
  · simp only [bind_eq_ok, pure_eq_ok, reduceCtorEq, and_false, exists_false] at h
  · simp only [bind_eq_ok, pure_eq_ok, Prepared.transaction.injEq] at h
    obtain ⟨_, _, rfl⟩ := h
    rfl

/-- What an event does to the plans. -/
inductive PlanEvent (s : Step) (w m : Workspace) : Prop
  | kept (same : ∀ k p, m.artifacts.get? k = some (.reviewPlan p) ↔
      w.artifacts.get? k = some (.reviewPlan p))
  | prepared {actor : Actor} {cmd : Command} {spec : VirtualsSpec} {case_id : Identifier}
      {case : RiskCase} {report : Report} {root : Option Digest}
      (call : s.call = .preparePlan actor cmd (some spec) case_id report.report_id)
      (stale : ∀ p, planOf w report.report_id = some p → p.partner_spec_hash = partnerHash spec →
        p.expires_at ≤ s.env.clock .planFreshness)
      (artifacts : m.artifacts = w.artifacts.set (s.env.fresh "acpreview")
        (.reviewPlan (newPlan s.env spec case_id case report root)))
  | verified {actor : Actor} {cmd : Command} {partner : Option VirtualsSpec}
      {snapshot : Workspace} {plan_id : Identifier} {job_id : String}
      {history : Except String (List (String × Json))} {spec : VirtualsSpec} {plan p : ReviewPlan}
      (call : s.call = .verifyPlan actor cmd partner snapshot plan_id job_id history)
      (read : snapshot.artifacts.get? plan_id = some (.reviewPlan plan))
      (configured : plan.partner_spec_hash = partnerHash spec)
      (stored : w.artifacts.get? plan_id = some (.reviewPlan p))
      (known : ∀ bound ∈ p.bound_job_id, bound ≠ "" → bound = job_id)
      (free : ∀ a ∈ w.artifacts.values, bindsJob spec plan_id job_id a = false)
      (artifacts : m.artifacts = w.artifacts.set plan_id
        (.reviewPlan (observedPlan s.env p job_id history)))

variable {steps : List Step} {s : Step} {tx : Transaction} {result : Result}

theorem planEvent_of_occurs (h : Occurs steps s w tx m result) : PlanEvent s w m := by
  by_cases hother : Drawer.named "acpreview" ∈ filed s.call
  · have hp := h.commits.prepared
    have hchanged := h.commits.changed
    cases hcall : s.call with
    | preparePlan actor cmd partner case_id report_id =>
      rw [hcall] at hp
      have hp := inTransaction_transaction hp
      simp only [preparePlan, bind_eq_ok, pure_eq_ok] at hp
      obtain ⟨_, _, rfl⟩ := hp
      obtain ⟨case, spec, report, _, hspec, hreport, ⟨_, _, _, _, rfl, _⟩ | ⟨hstale, root, hm, _⟩⟩ :=
        preparePlanChange_ok (w.revision + 1) hchanged
      · exact .kept (fun _ _ => Iff.rfl)
      · have hid : report.report_id = report_id :=
          h.kept.reports _ _ (validReport_ok hreport).stored
        subst hid
        have hpartner : partner = some spec := by
          simp only [allowedPartner, bind_eq_ok, fetch_eq_ok, pure_eq_ok] at hspec
          obtain ⟨_, hpartner, _, _, rfl⟩ := hspec
          exact hpartner
        subst hpartner
        exact .prepared hcall hstale (congrArg Workspace.artifacts hm)
    | verifyPlan actor cmd partner snapshot plan_id job_id history =>
      rw [hcall] at hp
      obtain ⟨spec, plan, hread, hhash, hchange⟩ := verifyPlan_cases hp
      rw [hchange] at hchanged
      obtain ⟨p, case, hstored, _, hknown, hfree, _, hm⟩ := verifyPlanChange_ok (w.revision + 1) hchanged
      exact .verified hcall hread hhash hstored hknown hfree (congrArg Workspace.artifacts hm)
    | _ => simp [hcall, filed] at hother
  · refine .kept (fun k p => ⟨?_, ?_⟩)
    · intro hp
      exact stored_of_occurs h hp hother
    · intro hp
      exact kept_of_occurs h hp hother

/-- No plan is bound to the empty text, which a verification takes for no job. -/
def Numbered (w : Workspace) : Prop :=
  ∀ k p, w.artifacts.get? k = some (.reviewPlan p) → p.bound_job_id ≠ some ""

omit [Sha256] [CollisionFree] in
theorem numbered_blank (tenant_id : Identifier) : Numbered (Workspace.blank tenant_id) := by
  intro k p hp
  simp [Workspace.blank] at hp

omit [CollisionFree] in
theorem PlanEvent.numbered (h : PlanEvent s w m) (hw : Numbered w) : Numbered m := by
  intro k p hp
  cases h with
  | kept same => exact hw k p ((same k p).mp hp)
  | prepared call stale artifacts =>
    rw [artifacts, Dict.get?_set] at hp
    split at hp
    · cases hp
      intro hempty
      cases hempty
    · exact hw k p hp
  | @verified _ _ _ _ plan_id job_id history _ _ old call read configured stored known free
      artifacts =>
    rw [artifacts, Dict.get?_set] at hp
    split at hp
    · cases hp
      rcases observedPlan_bound s.env old job_id history with hsame | ⟨hjob, hbound⟩
      · rw [hsame]
        exact hw plan_id old stored
      · rw [hbound]
        exact fun hempty => hjob.ne_empty (Option.some.inj hempty)
    · exact hw k p hp

theorem numbered_of_run {st : Option Workspace} (h : Run casework steps st) :
    ∀ w, st = some w → Numbered w :=
  invariant_of_events Numbered numbered_blank
    (fun _ _ _ _ _ _ ho hw => (planEvent_of_occurs ho).numbered hw) h

omit [CollisionFree] in
theorem PlanEvent.follows (h : PlanEvent s w m) (hfresh : Fresh s.env w) (hw : Numbered w)
    {k : String} {p : ReviewPlan} (hp : w.artifacts.get? k = some (.reviewPlan p)) :
    ∃ p', m.artifacts.get? k = some (.reviewPlan p') ∧ Follows p p' := by
  cases h with
  | kept same => exact ⟨p, (same k p).mpr hp, Follows.refl p⟩
  | prepared call stale artifacts =>
    have hne : s.env.fresh "acpreview" ≠ k := by
      intro heq
      rw [← heq, hfresh.artifacts "acpreview"] at hp
      cases hp
    rw [artifacts]
    exact ⟨p, (Dict.get?_set_of_ne _ _ hne).trans hp, Follows.refl p⟩
  | @verified _ _ _ _ plan_id _ _ _ _ _ call read configured stored known free artifacts =>
    rw [artifacts]
    by_cases hk : plan_id = k
    · subst hk
      rw [stored] at hp
      cases hp
      exact ⟨_, Dict.get?_set_self .., observedPlan_follows (hw plan_id _ stored) known⟩
    · exact ⟨p, (Dict.get?_set_of_ne _ _ hk).trans hp, Follows.refl p⟩

theorem followed_of_run {before after : List Step} {st : Option Workspace} {k : String}
    {p : ReviewPlan} (hmid : Run casework before (some w))
    (h : Run casework (before ++ after) st) (hp : w.artifacts.get? k = some (.reviewPlan p)) :
    ∃ w' p', st = some w' ∧ w'.artifacts.get? k = some (.reviewPlan p') ∧ Follows p p' := by
  have hlater := related_of_events
    (fun w m => ∀ k p, w.artifacts.get? k = some (.reviewPlan p) →
      ∃ p', m.artifacts.get? k = some (.reviewPlan p') ∧ Follows p p') ?_ ?_ ?_ hmid h
  · obtain ⟨w', hst, hall⟩ := hlater
    obtain ⟨p', hp', hfollows⟩ := hall k p hp
    exact ⟨w', p', hst, hp', hfollows⟩
  · exact fun w k p hp => ⟨p, hp, Follows.refl p⟩
  · intro w w' w'' hfirst hsecond k p hp
    obtain ⟨p', hp', hfollows⟩ := hfirst k p hp
    obtain ⟨p'', hp'', hfollows'⟩ := hsecond k p' hp'
    exact ⟨p'', hp'', hfollows.trans hfollows'⟩
  · intro steps s w tx m result ho hpre k p hp
    exact (planEvent_of_occurs ho).follows ho.fresh (numbered_of_run ho.ran w hpre) hp

end Steps

section Jobs

variable [Sha256] [CollisionFree] {steps : List Step} {s : Step} {w m : Workspace}
  {tx : Transaction} {result : Result}

/-- Every plan has the chain of the specification it was prepared with, and no
two plans of a chain are bound to the same job. -/
structure Exclusive (w : Workspace) : Prop where
  priced : ∀ k p, w.artifacts.get? k = some (.reviewPlan p) →
    ∃ spec, p.partner_spec_hash = partnerHash spec ∧ p.chain_id = spec.chain_id
  single : ∀ k k' p p' job_id, w.artifacts.get? k = some (.reviewPlan p) →
    w.artifacts.get? k' = some (.reviewPlan p') → p.chain_id = p'.chain_id →
    p.bound_job_id = some job_id → p'.bound_job_id = some job_id → k = k'

omit [CollisionFree] in
theorem exclusive_blank (tenant_id : Identifier) :
    Exclusive (sealed (Workspace.blank tenant_id)) := by
  constructor <;> simp [sealed, Workspace.blank]

/-- The plan that a verification goes on with is the one it has read. -/
theorem read_follows (h : Occurs steps s w tx m result) {actor : Actor} {cmd : Command}
    {partner : Option VirtualsSpec} {snapshot : Workspace} {plan_id : Identifier} {job_id : String}
    {history : Except String (List (String × Json))} {plan p : ReviewPlan}
    (hcall : s.call = .verifyPlan actor cmd partner snapshot plan_id job_id history)
    (hread : snapshot.artifacts.get? plan_id = some (.reviewPlan plan))
    (hstored : w.artifacts.get? plan_id = some (.reviewPlan p)) : Follows plan p := by
  have hpre : s.pre = some w := by
    rcases h.before with hpre | ⟨_, tenant_id, rfl⟩
    · exact hpre
    · simp [sealed, Workspace.blank] at hstored
  have hobserved := h.now.observed snapshot (by rw [hcall]; rfl)
  obtain ⟨before, after, rfl, hmid⟩ := stored_before h.ran hobserved
  obtain ⟨w', p', hw', hp', hfollows⟩ := followed_of_run hmid h.ran hread
  rw [hpre] at hw'
  cases hw'
  rw [hstored] at hp'
  cases hp'
  exact hfollows

/-- No other plan of its chain is bound to the job that a verification asks for. -/
theorem alone_of_free {spec : VirtualsSpec} {plan_id k : Identifier} {job_id : String}
    {p p' : ReviewPlan} (hw : Exclusive w) (hfiled : Filed w.artifacts)
    (hstored : w.artifacts.get? plan_id = some (.reviewPlan p))
    (hconfigured : p.partner_spec_hash = partnerHash spec)
    (hfree : ∀ a ∈ w.artifacts.values, bindsJob spec plan_id job_id a = false)
    (hp' : w.artifacts.get? k = some (.reviewPlan p')) (hchain : p'.chain_id = p.chain_id)
    (hbound : p'.bound_job_id = some job_id) : k = plan_id := by
  obtain ⟨spec', hhash, hpriced⟩ := hw.priced _ _ hstored
  have hspec : spec'.chain_id = spec.chain_id := chain_of_partnerHash (hhash.symm.trans hconfigured)
  have hbinds := hfree _ (Dict.mem_values_of_get? hp')
  have hid : k = p'.plan_id := (hfiled _ _ hp').1
  by_contra hne
  rw [hid] at hne
  simp [bindsJob, hbound, hne, hchain, hpriced, hspec] at hbinds

theorem exclusive_of_occurs (h : Occurs steps s w tx m result) (hw : Exclusive w) :
    Exclusive m := by
  have hevent := planEvent_of_occurs h
  cases hevent with
  | kept same =>
    constructor
    · intro k p hp
      exact hw.priced k p ((same k p).mp hp)
    · intro k k' p p' job_id hp hp'
      exact hw.single k k' p p' job_id ((same k p).mp hp) ((same k' p').mp hp')
  | @prepared _ _ spec _ _ _ _ call stale artifacts =>
    constructor
    · intro k p hp
      rw [artifacts, Dict.get?_set] at hp
      split at hp
      · cases hp
        exact ⟨spec, rfl, rfl⟩
      · exact hw.priced k p hp
    · intro k k' p p' job_id hp hp' hchain hbound hbound'
      rw [artifacts, Dict.get?_set] at hp hp'
      split at hp
      · cases hp
        cases hbound
      · split at hp'
        · cases hp'
          cases hbound'
        · exact hw.single k k' p p' job_id hp hp' hchain hbound hbound'
  | @verified _ _ _ _ plan_id asked history spec plan old call read configured stored known free
      artifacts =>
    have hfollows := read_follows h call read stored
    have hconfigured : old.partner_spec_hash = partnerHash spec :=
      (eq_of_terms hfollows.same ReviewPlan.partner_spec_hash (fun _ => rfl)).trans configured
    -- The plan that is verified against any other one.
    have hother : ∀ k p job_id, k ≠ plan_id → w.artifacts.get? k = some (.reviewPlan p) →
        p.chain_id = old.chain_id → p.bound_job_id = some job_id →
        (observedPlan s.env old asked history).bound_job_id ≠ some job_id := by
      intro k p job_id hne hp hchain hbound hnew
      rcases observedPlan_bound s.env old asked history with hsame | ⟨_, hjob⟩
      · rw [hsame] at hnew
        exact hne (hw.single k plan_id p old job_id hp stored hchain hbound hnew)
      · rw [hjob] at hnew
        cases hnew
        exact hne (alone_of_free hw h.kept.filed stored hconfigured free hp hchain hbound)
    constructor
    · intro k p hp
      rw [artifacts, Dict.get?_set] at hp
      split at hp
      · cases hp
        exact hw.priced plan_id old stored
      · exact hw.priced k p hp
    · intro k k' p p' job_id hp hp' hchain hbound hbound'
      rw [artifacts, Dict.get?_set] at hp hp'
      split at hp
      · rename_i hk
        split at hp'
        · rename_i hk'
          exact hk.symm.trans hk'
        · rename_i hk'
          cases hp
          exact absurd hbound (hother k' p' job_id (Ne.symm hk') hp' hchain.symm hbound')
      · rename_i hk
        split at hp'
        · cases hp'
          exact absurd hbound' (hother k p job_id (Ne.symm hk) hp hchain hbound)
        · exact hw.single k k' p p' job_id hp hp' hchain hbound hbound'

theorem exclusive_of_run {st : Option Workspace} (h : Run casework steps st) :
    ∀ w, st = some w → Exclusive w := by
  refine invariant_of_events Exclusive exclusive_blank ?_ h
  intro steps s w tx m result ho hw
  have hm := exclusive_of_occurs ho hw
  exact ⟨hm.priced, hm.single⟩

/-- The calls on review plans. -/
def OnPlan : Call → Prop
  | .preparePlan .. => True
  | .verifyPlan .. => True
  | _ => False

omit [CollisionFree] in
theorem onPlan_files (h : Occurs steps s w tx m result) (hcall : OnPlan s.call) : Files w m := by
  have heffect := h.effect
  cases hs : s.call with
  | preparePlan =>
    rw [hs] at heffect
    cases heffect with
    | filed _ _ files => exact files
  | verifyPlan =>
    rw [hs] at heffect
    cases heffect with
    | filed _ _ files => exact files
  | _ => simp [hs, OnPlan] at hcall

/-- A look at a job that failed binds nothing. -/
theorem failed_binds_nothing (h : Occurs steps s w tx m result) {actor : Actor} {cmd : Command}
    {partner : Option VirtualsSpec} {snapshot : Workspace} {plan_id : Identifier} {job_id : String}
    {history : Except String (List (String × Json))}
    (hcall : s.call = .verifyPlan actor cmd partner snapshot plan_id job_id history)
    (hfailed : Failed job_id history) {k : String} {p' : ReviewPlan}
    (hp' : m.artifacts.get? k = some (.reviewPlan p')) :
    ∃ p, w.artifacts.get? k = some (.reviewPlan p) ∧ p'.bound_job_id = p.bound_job_id := by
  have hevent := planEvent_of_occurs h
  cases hevent with
  | kept same => exact ⟨p', (same k p').mp hp', rfl⟩
  | prepared call =>
    rw [hcall] at call
    cases call
  | @verified _ _ _ _ plan_id' _ _ _ _ old call read configured stored known free artifacts =>
    rw [hcall] at call
    cases call
    rw [artifacts, Dict.get?_set] at hp'
    split at hp'
    · rename_i hk
      cases hp'
      exact ⟨old, hk ▸ stored, observedPlan_of_failed hfailed⟩
    · exact ⟨p', hp', rfl⟩

/-- In every run no two plans of a chain are bound to the same job, a plan stays
bound to its job, a failed look at a job binds nothing, and no call on plans
changes a case, a task, a decision, a report or a handoff. -/
theorem job_serves_one_plan {before after : List Step} {w' : Workspace}
    (hmid : Run casework before (some w)) (hrun : Run casework (before ++ after) (some w')) :
    (∀ k k' p p' job_id, w'.artifacts.get? k = some (.reviewPlan p) →
      w'.artifacts.get? k' = some (.reviewPlan p') → p.chain_id = p'.chain_id →
      p.bound_job_id = some job_id → p'.bound_job_id = some job_id → k = k') ∧
    (∀ k p job_id, w.artifacts.get? k = some (.reviewPlan p) → p.bound_job_id = some job_id →
      ∃ p', w'.artifacts.get? k = some (.reviewPlan p') ∧ p'.bound_job_id = some job_id) ∧
    (∀ steps s actor cmd partner snapshot plan_id job_id history w m, Run casework steps s.pre →
      Allowed steps s → s.call = .verifyPlan actor cmd partner snapshot plan_id job_id history →
      Failed job_id history → s.pre = some w → s.post = some m →
      ∀ k p', m.artifacts.get? k = some (.reviewPlan p') →
        ∃ p, w.artifacts.get? k = some (.reviewPlan p) ∧ p'.bound_job_id = p.bound_job_id) ∧
    (∀ steps s w m, Run casework steps s.pre → Allowed steps s → OnPlan s.call →
      s.pre = some w → s.post = some m →
      m.cases = w.cases ∧ m.case_history = w.case_history ∧ m.tasks = w.tasks ∧
        m.decisions = w.decisions ∧ m.reports = w.reports ∧ m.handoffs = w.handoffs) := by
  refine ⟨(exclusive_of_run hrun w' rfl).single, ?_, ?_, ?_⟩
  · intro k p job_id hp hbound
    obtain ⟨w1, p', hw1, hp', hfollows⟩ := followed_of_run hmid hrun hp
    cases hw1
    exact ⟨p', hp', hfollows.bound job_id hbound⟩
  · intro steps s actor cmd partner snapshot plan_id job_id history w m hrun hnow hcall hfailed
      hpre hpost k p' hp'
    rcases between_cases hrun hnow hpre hpost with rfl | ⟨tx, m', result, ho, rfl⟩
    · exact ⟨p', hp', rfl⟩
    · exact failed_binds_nothing ho hcall hfailed hp'
  · intro steps s w m hrun hnow hcall hpre hpost
    rcases between_cases hrun hnow hpre hpost with rfl | ⟨tx, m', result, ho, rfl⟩
    · exact ⟨rfl, rfl, rfl, rfl, rfl, rfl⟩
    · have hfiles := onPlan_files ho hcall
      exact ⟨hfiles.cases, hfiles.logs.case_history, hfiles.tasks, hfiles.decisions,
        hfiles.reports, hfiles.handoffs⟩

end Jobs

section Renewal

variable [Sha256]

/-- A plan that a specification still honours. -/
def Live (spec : VirtualsSpec) (time : Instant) (p : ReviewPlan) : Prop :=
  p.partner_spec_hash = partnerHash spec ∧ time < p.expires_at

/-- No report has two plans that the specification honours at a time. -/
def OneLive (spec : VirtualsSpec) (time : Instant) (w : Workspace) : Prop :=
  ∀ k k' p p', w.artifacts.get? k = some (.reviewPlan p) →
    w.artifacts.get? k' = some (.reviewPlan p') → p.report_id = p'.report_id →
    Live spec time p → Live spec time p' → k = k'

/-- A preparation that went through with a new idempotency key. -/
def Prepares (s : Step) : Prop :=
  s.Committed ∧ ∃ actor cmd partner case_id report_id,
    s.call = .preparePlan actor cmd partner case_id report_id

/-- The clock does not go back, within a preparation or from one to the next. -/
structure Ticking (steps : List Step) : Prop where
  within : ∀ s ∈ steps, Prepares s → s.env.clock .planFreshness ≤ s.env.clock .planCreated
  across : steps.Pairwise (fun s s' => Prepares s → Prepares s' →
    s.env.clock .planCreated ≤ s'.env.clock .planFreshness)

/-- When a preparation is made while a plan of the report is honoured, the first
plan of the report in the order of the map is one. -/
def FindsLive (s : Step) : Prop :=
  ∀ actor cmd spec case_id report_id w, s.call = .preparePlan actor cmd (some spec) case_id report_id →
    s.pre = some w →
    (∃ k p, w.artifacts.get? k = some (.reviewPlan p) ∧ p.report_id = report_id ∧
      Live spec (s.env.clock .planFreshness) p) →
    ∃ p, planOf w report_id = some p ∧ Live spec (s.env.clock .planFreshness) p

/-- The moments from the end of a run on. -/
def After (steps : List Step) (time : Instant) : Prop :=
  ∀ s ∈ steps, Prepares s → s.env.clock .planCreated ≤ time

variable {steps : List Step} {s : Step} {w m : Workspace} {spec : VirtualsSpec} {time : Instant}

omit [Sha256] in
theorem ticking_init (h : Ticking (steps ++ [s])) :
    Ticking steps ∧ (Prepares s → s.env.clock .planFreshness ≤ s.env.clock .planCreated ∧
      After steps (s.env.clock .planFreshness)) := by
  obtain ⟨hbefore, _, hacross⟩ := List.pairwise_append.mp h.across
  refine ⟨⟨fun t ht => h.within t (by simp [ht]), hbefore⟩, ?_⟩
  intro hs
  refine ⟨h.within s (by simp) hs, ?_⟩
  intro t ht hprepares
  exact hacross t ht s (by simp) hprepares hs

omit [Sha256] in
theorem planOf_eq_some {report_id : Identifier} {p : ReviewPlan} (h : planOf w report_id = some p) :
    p.report_id = report_id ∧ ∃ k, w.artifacts.get? k = some (.reviewPlan p) := by
  unfold planOf at h
  obtain ⟨a, ha, hfound⟩ := List.exists_of_findSome?_eq_some h
  cases a with
  | reviewPlan q =>
    simp only [Option.ite_none_right_eq_some, Option.some.injEq] at hfound
    obtain ⟨hreport, rfl⟩ := hfound
    exact ⟨hreport, Dict.exists_get?_of_mem_values ha⟩
  | _ => simp at hfound

theorem Live.mono {time' : Instant} {p : ReviewPlan} (h : Live spec time p) (hle : time' ≤ time) :
    Live spec time' p :=
  ⟨h.1, lt_of_le_of_lt hle h.2⟩

variable [CollisionFree] {tx : Transaction} {result : Result}

/-- An event that makes no second plan beside a live one. -/
theorem oneLive_of_occurs (h : Occurs steps s w tx m result) (hfinds : Prepares s → FindsLive s)
    (hw : OneLive spec time w) (hnow : Prepares s → s.env.clock .planFreshness ≤ time) :
    OneLive spec time m := by
  have hevent := planEvent_of_occurs h
  cases hevent with
  | kept same =>
    intro k k' p p' hp hp'
    exact hw k k' p p' ((same k p).mp hp) ((same k' p').mp hp')
  | @prepared actor cmd spec' case_id case report root call stale artifacts =>
    have hprepares : Prepares s := by
      refine ⟨?_, _, _, _, _, _, call⟩
      unfold Step.Committed
      rw [h.commits.response]
      rfl
    have hle := hnow hprepares
    -- Nothing of this report is live, so the new plan is alone.
    have hnone : ∀ k p, w.artifacts.get? k = some (.reviewPlan p) →
        p.report_id = report.report_id → partnerHash spec = partnerHash spec' →
        ¬ Live spec time p := by
      intro k p hp hreport hspec hlive
      have hpre : s.pre = some w := by
        rcases h.before with hpre | ⟨_, tenant_id, rfl⟩
        · exact hpre
        · simp [sealed, Workspace.blank] at hp
      obtain ⟨first, hfirst, hhash, hexpiry⟩ := hfinds hprepares actor cmd spec' case_id
        report.report_id w call hpre ⟨k, p, hp, hreport, hlive.1.trans hspec,
          lt_of_le_of_lt hle hlive.2⟩
      exact absurd hexpiry (not_lt.mpr (stale first hfirst hhash))
    intro k k' p p' hp hp' hreport hlive hlive'
    rw [artifacts, Dict.get?_set] at hp hp'
    split at hp
    · rename_i hk
      cases hp
      split at hp'
      · rename_i hk'
        exact hk.symm.trans hk'
      · exact absurd hlive' (hnone k' p' hp' hreport.symm hlive.1.symm)
    · split at hp'
      · cases hp'
        exact absurd hlive (hnone k p hp hreport hlive'.1.symm)
      · exact hw k k' p p' hp hp' hreport hlive hlive'
  | @verified _ _ _ _ plan_id _ _ _ _ old call read configured stored known free artifacts =>
    have hold : ∀ k p, m.artifacts.get? k = some (.reviewPlan p) →
        ∃ q, w.artifacts.get? k = some (.reviewPlan q) ∧ terms p = terms q := by
      intro k p hp
      rw [artifacts, Dict.get?_set] at hp
      split at hp
      · rename_i hk
        cases hp
        exact ⟨old, hk ▸ stored, rfl⟩
      · exact ⟨p, hp, rfl⟩
    have hlive : ∀ {q p}, terms p = terms q → Live spec time p → Live spec time q := by
      intro q p hterms hp
      have hhash := eq_of_terms hterms ReviewPlan.partner_spec_hash (fun _ => rfl)
      have hexpiry := eq_of_terms hterms ReviewPlan.expires_at (fun _ => rfl)
      exact ⟨hhash ▸ hp.1, hexpiry ▸ hp.2⟩
    intro k k' p p' hp hp' hreport hp_live hp'_live
    obtain ⟨q, hq, hterms⟩ := hold k p hp
    obtain ⟨q', hq', hterms'⟩ := hold k' p' hp'
    refine hw k k' q q' hq hq' ?_ (hlive hterms hp_live) (hlive hterms' hp'_live)
    rw [← eq_of_terms hterms ReviewPlan.report_id (fun _ => rfl),
      ← eq_of_terms hterms' ReviewPlan.report_id (fun _ => rfl), hreport]

/-- At the end of a run in which every preparation finds the live plan, if there
is one, no report has two. -/
theorem oneLive_of_run {st : Option Workspace} (h : Run casework steps st) :
    Ticking steps → (∀ s ∈ steps, Prepares s → FindsLive s) → ∀ w, st = some w → ∀ time,
      After steps time → OneLive spec time w := by
  induction h with
  | start =>
    intro _ _ w hw
    cases hw
  | @next steps s before now ih =>
    intro hticking hfinds w hw time hafter
    obtain ⟨hinit, hlast⟩ := ticking_init hticking
    have hbefore : After steps time := fun t ht => hafter t (by simp [ht])
    have hearlier : ∀ w0, s.pre = some w0 → OneLive spec time w0 := fun w0 hw0 =>
      ih hinit (fun t ht => hfinds t (by simp [ht])) w0 hw0 time hbefore
    have hpost : s.post = some w := hw
    rcases step_cases before now with ⟨_, w0, tx, m, result, hh⟩ | ⟨_, hsame⟩
    · rw [hh.commits.post] at hpost
      cases hpost
      have hw0 : OneLive spec time w0 := by
        rcases hh.before with hpre | ⟨_, tenant_id, rfl⟩
        · exact hearlier w0 hpre
        · intro k k' p p' hp
          simp [sealed, Workspace.blank] at hp
      have hm := oneLive_of_occurs ⟨hh, before, now⟩ (hfinds s (by simp)) hw0
        (fun hs => le_trans (hlast hs).1 (hafter s (by simp) hs))
      exact hm
    · exact hearlier w (hsame.symm.trans hpost)

/-- In every run in which the clock does not go back and each preparation made
while the report has a live plan finds a live plan first, there is at every
moment at most one live plan of a report, and such a preparation returns it. -/
theorem one_live_plan (hrun : Run casework steps (some w)) (hticking : Ticking steps)
    (hfinds : ∀ s ∈ steps, Prepares s → FindsLive s) (spec : VirtualsSpec) :
    (∀ time, After steps time → OneLive spec time w) ∧
    (∀ before s after actor cmd case_id report_id w0 k p, steps = before ++ s :: after →
      s.call = .preparePlan actor cmd (some spec) case_id report_id → s.Committed →
      s.pre = some w0 → w0.artifacts.get? k = some (.reviewPlan p) → p.report_id = report_id →
      Live spec (s.env.clock .planFreshness) p →
      s.response.result = .planPrepared p true ∧
        ∃ m, s.post = some m ∧ m.artifacts = w0.artifacts) := by
  refine ⟨oneLive_of_run hrun hticking hfinds w rfl, ?_⟩
  intro before s after actor cmd case_id report_id w0 k p hsteps hcall hcommitted hpre hp hreport
    hlive
  subst hsteps
  have hprepares : Prepares s := ⟨hcommitted, actor, cmd, some spec, case_id, report_id, hcall⟩
  have hmem : s ∈ before ++ s :: after := by simp
  obtain ⟨first, hfirst, hfirstLive⟩ := hfinds s hmem hprepares actor cmd spec case_id report_id w0
    hcall hpre ⟨k, p, hp, hreport, hlive⟩
  obtain ⟨hfirstReport, k', hstored⟩ := planOf_eq_some hfirst
  obtain ⟨hran, hnow, _⟩ := hrun.at_step
  -- The first live plan is the only one.
  have hinit : Ticking (before ++ [s]) := by
    refine ⟨fun t ht => hticking.within t ?_, ?_⟩
    · simp only [List.mem_append, List.mem_singleton] at ht
      rcases ht with ht | rfl
      · simp [ht]
      · exact hmem
    · refine hticking.across.sublist ?_
      simp
  obtain ⟨hticking', hlast⟩ := ticking_init hinit
  have hone : OneLive spec (s.env.clock .planFreshness) w0 :=
    oneLive_of_run hran hticking' (fun t ht => hfinds t (by simp [ht])) w0 hpre _ (hlast hprepares).2
  have hkey := hone k k' p first hp hstored (hreport.trans hfirstReport.symm) hlive hfirstLive
  subst hkey
  rw [hp] at hstored
  cases hstored
  rcases step_cases hran hnow with ⟨_, w1, tx, m, result, hh⟩ | ⟨hrepeated, _⟩
  · have heq := happened_on hh hpre
    subst heq
    have hprepared := hh.commits.prepared
    have hchanged := hh.commits.changed
    rw [hcall] at hprepared
    have hprepared := inTransaction_transaction hprepared
    simp only [preparePlan, bind_eq_ok, pure_eq_ok] at hprepared
    obtain ⟨_, _, rfl⟩ := hprepared
    obtain ⟨case, spec', report, _, hspec, _, hcases⟩ := preparePlanChange_ok (w1.revision + 1) hchanged
    have hsame : spec' = spec := by
      simp only [allowedPartner, bind_eq_ok, fetch_eq_ok, pure_eq_ok, Option.some.injEq] at hspec
      obtain ⟨_, rfl, _, _, rfl⟩ := hspec
      rfl
    subst hsame
    rcases hcases with ⟨found, hfound, _, _, hm, hresult⟩ | ⟨hstale, _⟩
    · rw [hfirst] at hfound
      cases hfound
      have hartifacts : m.artifacts = w1.artifacts := congrArg Workspace.artifacts hm
      refine ⟨?_, _, hh.commits.post, hartifacts⟩
      rw [hh.commits.response]
      exact hresult
    · exact absurd (hstale p hfirst hlive.1) (not_le.mpr hlive.2)
  · exact absurd hcommitted hrepeated

end Renewal

section Market

/-- The market of the crew: a plan is good for a minute. -/
def market : VirtualsSpec where
  tenant_id := "tenant"
  subjects := ["subject"]
  chain_id := .baseSepolia
  client_address := "0x0000000000000000000000000000000000000001"
  provider_address := "0x0000000000000000000000000000000000000002"
  offering_name := "review"
  max_budget_micros := 100000
  cli_executable := "/opt/acp"
  cli_sha256 := Crew.evidence
  cli_home := "/var/acp"
  ttl_seconds := 60

variable [Sha256] [CollisionFree]

/-- A case of the crew with a report, ready for a review plan. -/
structure Reviewing (steps : List Step) (w : Workspace) (n : ℕ) (case : RiskCase)
    (report : Report) : Prop where
  opened : Open Crew.crew steps w n
  stored : ∃ t ∈ steps, t.post = some w
  reviewable : Reviewable Crew.crew w case.case_id case
  reported : Reported Crew.crew w case report

variable {steps : List Step} {w : Workspace} {n : ℕ} {case : RiskCase} {report : Report}

theorem exists_reviewing : ∃ steps w case report,
    Reviewing steps w 5 case report ∧ w.artifacts = .empty := by
  obtain ⟨steps, w, task, d, h⟩ := Crew.exists_started
  obtain ⟨s, w1, task', c, hd⟩ := Crew.exists_disputed h
  obtain ⟨s', w2, report, hpost, hopen, hcore, hreported⟩ :=
    Completion.investigate_case hd.opened (by omega) hd.reviewable ⟨s, by simp, hd.post⟩ hd.artifacts
  exact ⟨_, w2, c, report, ⟨hopen, ⟨s', by simp, hpost⟩, Completion.reviewable_core hd.reviewable hcore,
    hreported⟩, hcore.artifacts.trans hd.artifacts⟩

/-- A plan on file is nothing that a review of the case rests on. -/
theorem Reviewing.planned {s : Step} {w' : Workspace} {k : String} {p : ReviewPlan}
    (h : Reviewing steps w n case report) (hopen : Open Crew.crew (steps ++ [s]) w' (n + 1))
    (hpost : s.post = some w') (fits : Fits k (.reviewPlan p))
    (hm : ∃ env tx result,
      w' = recorded env w (refile w (w.artifacts.set k (.reviewPlan p))) tx result) :
    Reviewing (steps ++ [s]) w' (n + 1) case report := by
  obtain ⟨env, tx, result, rfl⟩ := hm
  have hfiled := (kept_of_run h.opened.run w rfl).filed
  have hgrounds := Grounds.sameGrounds_of_filed hfiled fits (by simp [drawer]) (by simp [drawer])
  have hobligations := Grounds.obligations_of_filed hfiled fits
    (by simp [drawer, Grounds.obliging]) case.case_id
  obtain ⟨stored, subject, opened, free⟩ := h.reviewable
  obtain ⟨known, case_id, version, basis, inspected, investigator⟩ := h.reported
  refine ⟨hopen, ⟨s, by simp, hpost⟩, ⟨stored, subject, opened, ?_⟩, known, case_id, version, ?_,
    inspected, investigator⟩
  · unfold SourceGuard.HasObligations at free ⊢
    rw [← hobligations] at free
    exact free
  · exact (hgrounds.investigationBasis_eq case.case_id).trans basis

/-- A preparation that makes a new plan. -/
structure Makes (time : Instant) (steps : List Step) (s : Step) (w w' : Workspace) (n : ℕ)
    (case : RiskCase) (report : Report) (k : String) (p : ReviewPlan) : Prop where
  next : Reviewing (steps ++ [s]) w' (n + 1) case report
  clock : ∀ reading, s.env.clock reading = time
  prepares : Prepares s
  pre : s.pre = some w
  call : ∃ cmd, s.call =
    .preparePlan Crew.investigator cmd (some market) case.case_id report.report_id
  artifacts : w'.artifacts = w.artifacts.set k (.reviewPlan p)
  free : w.artifacts.get? k = none
  case_id : p.case_id = case.case_id
  report_id : p.report_id = report.report_id
  hash : p.partner_spec_hash = partnerHash market
  expires_at : p.expires_at = time + seconds 60
  unbound : p.bound_job_id = none

omit [CollisionFree] in
theorem Makes.stored {time : Instant} {s : Step} {w' : Workspace} {k : String} {p : ReviewPlan}
    (h : Makes time steps s w w' n case report k p) :
    w'.artifacts.get? k = some (.reviewPlan p) := by
  rw [h.artifacts]
  exact Dict.get?_set_self ..

omit [CollisionFree] in
theorem Reviewing.served (h : Reviewing steps w n case report) :
    findCase w Crew.investigator case.case_id = .ok case ∧
      allowedPartner (some market) Crew.investigator case = .ok market := by
  have hsubject : case.scope.subject_id = "subject" := h.reviewable.subject
  refine ⟨findCase_total h.reviewable.stored
    (h.reviewable.subject ▸ Crew.crew.investigates.subject), ?_⟩
  simp [allowedPartner, market, Crew.investigator, hsubject, fetch, ensure, bind, Except.bind,
    pure, Except.pure]

/-- A preparation whose change goes through is committed. -/
theorem can_prepare (time : Instant) (h : Reviewing steps w n case report) (hroom : n < 5000)
    (hchange : ∀ env : Environment, (∀ reading, env.clock reading = time) →
      ∃ done, preparePlanChange Crew.deskless (some market) env Crew.investigator case.case_id
        report.report_id w (w.revision + 1) = .ok done) :
    ∃ cmd s m result, Goes Crew.deskless time steps w
      (.preparePlan Crew.investigator cmd (some market) case.case_id report.report_id) s m result ∧
      Fresh s.env w ∧ preparePlanChange Crew.deskless (some market) s.env Crew.investigator
        case.case_id report.report_id w (w.revision + 1) = .ok (m, result) := by
  refine can_do (fun env cmd => ⟨Crew.investigator, cmd, "acp.prepare",
      [("case_id", .str case.case_id), ("report_id", .str report.report_id)],
      preparePlanChange Crew.deskless (some market) env Crew.investigator case.case_id
        report.report_id, false, none⟩)
    h.opened.run h.opened.tenant (h.opened.revision ▸ hroom) (fun _ => rfl)
    (fun _ _ _ => rfl) (fun _ => rfl) (fun _ _ => ⟨rfl, rfl⟩) (fun _ _ => ⟨rfl, rfl⟩) ?_
    (fun env cmd _ hclock => hchange env hclock)
  intro env cmd
  simp [recheckScopes, payloadText, List.lookup_cons, h.served.1, bind, Except.bind, pure,
    Except.pure]

/-- A plan of the report that is live is handed out once more. -/
theorem can_findPlan {time : Instant} {p : ReviewPlan} (h : Reviewing steps w n case report)
    (hroom : n < 5000) (hp : planOf w report.report_id = some p) (hlive : Live market time p) :
    ∃ s w', Run casework (steps ++ [s]) (some w') ∧ w'.artifacts = w.artifacts ∧
      (∀ reading, s.env.clock reading = time) ∧ Prepares s ∧ s.pre = some w ∧
      (∃ cmd, s.call =
        .preparePlan Crew.investigator cmd (some market) case.case_id report.report_id) ∧
      s.response.result = .planPrepared p true := by
  have hfound : ∀ env : Environment, (∀ reading, env.clock reading = time) →
      preparePlanChange Crew.deskless (some market) env Crew.investigator case.case_id
        report.report_id w (w.revision + 1) = .ok (w, .planPrepared p true) := by
    intro env hclock
    have hfilter : (planOf w report.report_id).filter (fun p =>
        p.partner_spec_hash = partnerHash market ∧ env.clock .planFreshness < p.expires_at) =
          some p := by
      rw [Option.filter_eq_some_iff, hclock]
      exact ⟨hp, decide_eq_true hlive⟩
    refine bind_eq_ok.mpr ⟨case, h.served.1, bind_eq_ok.mpr ⟨market, h.served.2, bind_eq_ok.mpr
      ⟨report, h.reported.valid h.reviewable, bind_eq_ok.mpr
      ⟨(), ensure_eq_ok.mpr h.reported.investigator, ?_⟩⟩⟩⟩
    rw [hfilter]
    rfl
  obtain ⟨cmd, s, m, result, hs, _, hm⟩ :=
    can_prepare time h hroom (fun env hclock => ⟨_, hfound env hclock⟩)
  rw [hfound s.env hs.clock] at hm
  simp only [Except.ok.injEq, Prod.mk.injEq] at hm
  obtain ⟨rfl, rfl⟩ := hm
  obtain ⟨tx, hpost⟩ := hs.post
  obtain ⟨_, hh⟩ := hs.happened
  refine ⟨s, recorded s.env w w tx _, hpost ▸ hs.run h.opened.run, rfl, hs.clock,
    ⟨hs.committed, _, _, _, _, _, hs.call⟩, hs.pre, ⟨cmd, hs.call⟩, ?_⟩
  rw [hh.commits.response]
  rfl

/-- A plan is made when the first one of the report, if there is one, has expired. -/
theorem can_preparePlan (time : Instant) (h : Reviewing steps w n case report) (hroom : n < 5000)
    (hstale : ∀ p, planOf w report.report_id = some p → p.expires_at ≤ time) :
    ∃ s w' k p, Makes time steps s w w' n case report k p := by
  obtain ⟨hcase, hspec⟩ := h.served
  have hnone : ∀ env : Environment, (∀ reading, env.clock reading = time) →
      (planOf w report.report_id).filter (fun p =>
        p.partner_spec_hash = partnerHash market ∧ env.clock .planFreshness < p.expires_at) =
          none := by
    intro env hclock
    rw [Option.filter_eq_none_iff]
    intro p hp
    simp [hclock, hstale p hp]
  have hchange : ∀ env : Environment, (∀ reading, env.clock reading = time) →
      preparePlanChange Crew.deskless (some market) env Crew.investigator case.case_id
        report.report_id w (w.revision + 1) =
      .ok (refile w (w.artifacts.set (env.fresh "acpreview")
          (.reviewPlan (newPlan env market case.case_id case report none))),
        .planPrepared (newPlan env market case.case_id case report none) false) := by
    intro env hclock
    refine bind_eq_ok.mpr ⟨case, hcase, bind_eq_ok.mpr ⟨market, hspec, bind_eq_ok.mpr
      ⟨report, h.reported.valid h.reviewable, bind_eq_ok.mpr
      ⟨(), ensure_eq_ok.mpr h.reported.investigator, ?_⟩⟩⟩⟩
    rw [hnone env hclock]
    rfl
  obtain ⟨cmd, s, m, result, hs, hfresh, hm⟩ :=
    can_prepare time h hroom (fun env hclock => ⟨_, hchange env hclock⟩)
  rw [hchange s.env hs.clock] at hm
  simp only [Except.ok.injEq, Prod.mk.injEq] at hm
  obtain ⟨rfl, _⟩ := hm
  obtain ⟨tx, hpost, hopen⟩ := h.opened.next hs rfl
  have hfits : Fits (s.env.fresh "acpreview")
      (.reviewPlan (newPlan s.env market case.case_id case report none)) := ⟨rfl, _, rfl⟩
  refine ⟨s, _, _, _, h.planned hopen hpost hfits ⟨s.env, tx, result, rfl⟩, hs.clock,
    ⟨hs.committed, _, _, _, _, _, hs.call⟩, hs.pre, ⟨cmd, hs.call⟩, rfl,
    hfresh.artifacts "acpreview", rfl, rfl, rfl, ?_, rfl⟩
  change s.env.clock .planCreated + seconds 60 = time + seconds 60
  rw [hs.clock]

omit [Sha256] [CollisionFree] in
theorem planOf_empty (h : w.artifacts = .empty) (report_id : Identifier) :
    planOf w report_id = none := by
  unfold planOf
  rw [h]
  rfl

omit [Sha256] [CollisionFree] in
/-- A new plan comes after those on file. -/
theorem planOf_set {w' : Workspace} {k : String} {p : ReviewPlan} {report_id : Identifier}
    (hw' : w'.artifacts = w.artifacts.set k (.reviewPlan p)) (hfree : w.artifacts.get? k = none)
    (hp : p.report_id = report_id) :
    planOf w' report_id = (planOf w report_id).or (some p) := by
  unfold planOf Dict.values
  rw [hw', Dict.entries_set_of_fresh hfree, List.map_append, List.findSome?_append]
  simp [hp]

/-- Where nothing is filed, no plan was ever prepared. -/
theorem no_prepares (hrun : Run casework steps (some w)) (hempty : w.artifacts = .empty) :
    ∀ s ∈ steps, ¬ Prepares s := by
  rintro s hs ⟨hcommitted, actor, cmd, partner, case_id, report_id, hcall⟩
  obtain ⟨before, after, rfl⟩ := List.append_of_mem hs
  have hsplit : before ++ s :: after = (before ++ [s]) ++ after := by simp
  obtain ⟨hran, hnow, hmid⟩ := hrun.at_step
  rcases step_cases hran hnow with ⟨_, w0, tx, m, result, hh⟩ | ⟨hrepeated, _⟩
  · have hchanged := hh.commits.changed
    have hprepared := hh.commits.prepared
    rw [hcall] at hprepared
    have hprepared := inTransaction_transaction hprepared
    simp only [preparePlan, bind_eq_ok, pure_eq_ok] at hprepared
    obtain ⟨_, _, rfl⟩ := hprepared
    have hfiled : ∃ k p, m.artifacts.get? k = some (.reviewPlan p) := by
      obtain ⟨_, _, _, _, _, _, ⟨found, hfound, _, _, rfl, _⟩ | ⟨_, root, rfl, _⟩⟩ :=
        preparePlanChange_ok (w0.revision + 1) hchanged
      · obtain ⟨_, k, hk⟩ := planOf_eq_some hfound
        exact ⟨k, found, hk⟩
      · exact ⟨_, _, Dict.get?_set_self ..⟩
    obtain ⟨k, p, hp⟩ := hfiled
    have hstored := hmid
    rw [show casework.post s = s.post from rfl, hh.commits.post] at hstored
    rw [hsplit] at hrun
    obtain ⟨w', p', hw', hp', _⟩ := followed_of_run hstored hrun hp
    cases hw'
    simp [hempty] at hp'
  · exact absurd hcommitted hrepeated

/-- Three preparations: the second after the first plan has expired, the third
while the second plan is live but behind the expired one. -/
theorem exists_third_plan : ∃ steps w, Run casework steps (some w) ∧ Ticking steps ∧
    (∀ s ∈ steps, Prepares s → ∃ cmd case_id report_id,
      s.call = .preparePlan Crew.investigator cmd (some market) case_id report_id) ∧
    After steps (seconds 60) ∧ ¬ OneLive market (seconds 60) w := by
  obtain ⟨steps, w, case, report, h, hempty⟩ := exists_reviewing
  have hquiet := no_prepares h.opened.run hempty
  have hnone := planOf_empty hempty report.report_id
  obtain ⟨s1, w1, k1, p1, h1⟩ := can_preparePlan 0 h (by omega) (by simp [hnone])
  have hfirst1 : planOf w1 report.report_id = some p1 := by
    rw [planOf_set h1.artifacts h1.free h1.report_id, hnone, Option.none_or]
  have hstale : p1.expires_at ≤ seconds 60 := by
    rw [h1.expires_at]
    simp
  obtain ⟨s2, w2, k2, p2, h2⟩ :=
    can_preparePlan (seconds 60) h1.next (by omega) (by simp [hfirst1, hstale])
  have hfirst2 : planOf w2 report.report_id = some p1 := by
    rw [planOf_set h2.artifacts h2.free h2.report_id, hfirst1, Option.some_or]
  obtain ⟨s3, w3, k3, p3, h3⟩ :=
    can_preparePlan (seconds 60) h2.next (by omega) (by simp [hfirst2, hstale])
  have hmem : ∀ s ∈ steps ++ [s1] ++ [s2] ++ [s3], Prepares s → s = s1 ∨ s = s2 ∨ s = s3 := by
    intro s hs hprepares
    simp only [List.mem_append, List.mem_singleton] at hs
    rcases hs with ((hs | hs) | hs) | hs
    · exact absurd hprepares (hquiet s hs)
    · exact Or.inl hs
    · exact Or.inr (Or.inl hs)
    · exact Or.inr (Or.inr hs)
  have hpositive : (0 : Instant) ≤ seconds 60 := by decide
  refine ⟨_, w3, h3.next.opened.run, ⟨?_, ?_⟩, ?_, ?_, ?_⟩
  · intro s hs hprepares
    rcases hmem s hs hprepares with rfl | rfl | rfl
    · simp [h1.clock]
    · simp [h2.clock]
    · simp [h3.clock]
  · have hearlier : ∀ t ∈ steps, ∀ t', Prepares t → Prepares t' →
        t.env.clock .planCreated ≤ t'.env.clock .planFreshness :=
      fun t ht t' hprepares _ => absurd hprepares (hquiet t ht)
    have hpairs : (steps ++ [s1, s2, s3]).Pairwise (fun s s' => Prepares s → Prepares s' →
        s.env.clock .planCreated ≤ s'.env.clock .planFreshness) := by
      refine List.pairwise_append.mpr ⟨?_, ?_, fun t ht t' _ => hearlier t ht t'⟩
      · exact List.pairwise_of_forall_mem_list (fun t ht t' _ => hearlier t ht t')
      · simp [h1.clock, h2.clock, h3.clock, hpositive]
    simpa using hpairs
  · intro s hs hprepares
    rcases hmem s hs hprepares with rfl | rfl | rfl
    · exact ⟨_, _, _, h1.call.choose_spec⟩
    · exact ⟨_, _, _, h2.call.choose_spec⟩
    · exact ⟨_, _, _, h3.call.choose_spec⟩
  · intro s hs hprepares
    rcases hmem s hs hprepares with rfl | rfl | rfl
    · simpa [h1.clock] using hpositive
    · simp [h2.clock]
    · simp [h3.clock]
  · intro hone
    have hne : k3 ≠ k2 := by
      intro heq
      have hfree := h3.free
      rw [heq, h2.stored] at hfree
      cases hfree
    have hsecond : w3.artifacts.get? k2 = some (.reviewPlan p2) := by
      rw [h3.artifacts, Dict.get?_set_of_ne _ _ hne]
      exact h2.stored
    have hlive : seconds 60 < seconds 60 + seconds 60 := by decide
    exact hne (hone k3 k2 p3 p2 h3.stored hsecond (h3.report_id.trans h2.report_id.symm)
      ⟨h3.hash, h3.expires_at ▸ hlive⟩ ⟨h2.hash, h2.expires_at ▸ hlive⟩)

omit [Sha256] [CollisionFree] in
theorem third_plan_payable : letI := spelling
    ∃ steps w, Run casework steps (some w) ∧ Ticking steps ∧
      (∀ s ∈ steps, Prepares s → ∃ cmd case_id report_id,
        s.call = .preparePlan Crew.investigator cmd (some market) case_id report_id) ∧
      After steps (seconds 60) ∧ ¬ OneLive market (seconds 60) w := by
  let _ := spelling
  have := spelling_collisionFree
  exact exists_third_plan

omit [Sha256] [CollisionFree] in
/-- Two preparations: the second one is handed the plan of the first. -/
theorem first_plan_live : letI := spelling
    ∃ steps s w k p, Run casework (steps ++ [s]) (some w) ∧ Ticking (steps ++ [s]) ∧
      (∀ t ∈ steps ++ [s], Prepares t → FindsLive t) ∧
      w.artifacts.get? k = some (.reviewPlan p) ∧ Live market 0 p ∧ OneLive market 0 w ∧
      Prepares s ∧ s.response.result = .planPrepared p true := by
  let _ := spelling
  have := spelling_collisionFree
  obtain ⟨steps, w, case, report, h, hempty⟩ := exists_reviewing
  have hquiet := no_prepares h.opened.run hempty
  have hnone := planOf_empty hempty report.report_id
  obtain ⟨s1, w1, k, p, h1⟩ := can_preparePlan 0 h (by omega) (by simp [hnone])
  have hfirst : planOf w1 report.report_id = some p := by
    rw [planOf_set h1.artifacts h1.free h1.report_id, hnone, Option.none_or]
  have hlive : Live market 0 p := ⟨h1.hash, by rw [h1.expires_at]; decide⟩
  obtain ⟨s2, w2, hrun, hartifacts, hclock, hprepares2, hpre2, ⟨cmd2, hcall2⟩, hresult⟩ :=
    can_findPlan h1.next (by omega) hfirst hlive
  have hmem : ∀ t ∈ steps ++ [s1] ++ [s2], Prepares t → t = s1 ∨ t = s2 := by
    intro t ht hprepares
    simp only [List.mem_append, List.mem_singleton] at ht
    rcases ht with (ht | ht) | ht
    · exact absurd hprepares (hquiet t ht)
    · exact Or.inl ht
    · exact Or.inr ht
  have hzero : ∀ t ∈ steps ++ [s1] ++ [s2], Prepares t → ∀ reading, t.env.clock reading = 0 := by
    intro t ht hprepares
    rcases hmem t ht hprepares with rfl | rfl
    · exact h1.clock
    · exact hclock
  have hticking : Ticking (steps ++ [s1] ++ [s2]) := by
    refine ⟨fun t ht hprepares => by rw [hzero t ht hprepares, hzero t ht hprepares], ?_⟩
    refine List.pairwise_of_forall_mem_list (fun t ht t' ht' hprepares hprepares' => ?_)
    rw [hzero t ht hprepares, hzero t' ht' hprepares']
  have hfinds : ∀ t ∈ steps ++ [s1] ++ [s2], Prepares t → FindsLive t := by
    intro t ht hprepares actor cmd spec case_id report_id w0 hcall hpre hstored
    rcases hmem t ht hprepares with rfl | rfl
    · rw [h1.pre] at hpre
      cases hpre
      obtain ⟨_, _, hp, _⟩ := hstored
      simp [hempty] at hp
    · rw [hpre2] at hpre
      cases hpre
      rw [hcall2] at hcall
      cases hcall
      exact ⟨p, hfirst, by rw [hclock]; exact hlive⟩
  have hafter : After (steps ++ [s1] ++ [s2]) 0 := fun t ht hprepares =>
    (hzero t ht hprepares _).le
  have hstored : w2.artifacts.get? k = some (.reviewPlan p) := hartifacts ▸ h1.stored
  obtain ⟨hone, hreused⟩ := one_live_plan hrun hticking hfinds market
  refine ⟨_, s2, w2, k, p, hrun, hticking, hfinds, hstored, hlive, hone 0 hafter, hprepares2, ?_⟩
  exact (hreused (steps ++ [s1]) s2 [] Crew.investigator cmd2 case.case_id report.report_id w1 k p
    rfl hcall2 hprepares2.1 hpre2 h1.stored h1.report_id (by rw [hclock]; exact hlive)).1

/-- A plan is verified for a job that no other plan has, whatever the reader says,
if it is not bound to another one. -/
theorem can_verifyPlan {k : String} {p : ReviewPlan} (history : Except String (List (String × Json)))
    (h : Reviewing steps w n case report) (hroom : n < 5000)
    (hp : w.artifacts.get? k = some (.reviewPlan p)) (hcase : p.case_id = case.case_id)
    (hhash : p.partner_spec_hash = partnerHash market)
    (hknown : ∀ bound ∈ p.bound_job_id, bound ≠ "" → bound = "1")
    (hfree : ∀ a ∈ w.artifacts.values, bindsJob market k "1" a = false) :
    ∃ s w', Reviewing (steps ++ [s]) w' (n + 1) case report ∧
      w'.artifacts = w.artifacts.set k (.reviewPlan (observedPlan s.env p "1" history)) := by
  have hkept := kept_of_run h.opened.run w rfl
  have hvalid := Integrity.validateWorkspace_ok hkept.toShaped
    (Integrity.coherent_of_run h.opened.run w rfl)
  have htenant : w.tenant_id = Crew.investigator.tenant_id := h.opened.tenant
  have hfind : findCase w Crew.investigator p.case_id = .ok case := by
    rw [hcase]
    exact h.served.1
  obtain ⟨env, hfresh, hclock⟩ := exists_environment w 0
  obtain ⟨cmd, _, hrevision, hnew⟩ := exists_command w Crew.investigator "session"
  have hstored : storedPlan w k = some p := storedPlan_eq_some.mpr hp
  let tx : Transaction := ⟨Crew.investigator, cmd, "acp.verify",
    [("case_id", .str p.case_id), ("plan_id", .str k), ("job_id", .str "1")],
    verifyPlanChange Crew.deskless env Crew.investigator market p k "1" history, false, none⟩
  have hprepared : (Call.verifyPlan Crew.investigator cmd (some market) w k "1" history).prepare
      Crew.deskless env = .ok (.transaction tx) := by
    simp only [Call.prepare, verifyPlan, hvalid, htenant, hstored, hfind, h.served.2, hhash,
      hnew, hrevision, fetch, ensure, bind, Except.bind]
    rw [if_pos hknown]
    rfl
  have hscopes : recheckScopes w tx = .ok () := by
    simp [recheckScopes, tx, payloadText, List.lookup_cons, hfind, bind, Except.bind, pure, Except.pure]
  have hadmit : preconditions w tx = .ok () := by
    simp [preconditions, tx, hrevision, h.opened.revision, hroom, ensure, bind, Except.bind]
  have hchange : ∃ result, tx.change w (w.revision + 1) =
      .ok (refile w (w.artifacts.set k (.reviewPlan (observedPlan env p "1" history))), result) := by
    have hnone : ¬ w.artifacts.values.any (bindsJob market k "1") := by
      simpa using hfree
    exact ⟨_, bind_eq_ok.mpr ⟨p, fetch_eq_ok.mpr hstored, bind_eq_ok.mpr
      ⟨(), ensure_eq_ok.mpr rfl, bind_eq_ok.mpr ⟨(), ensure_eq_ok.mpr hknown, bind_eq_ok.mpr
      ⟨(), ensure_eq_ok.mpr hnone, bind_eq_ok.mpr ⟨case, hfind, rfl⟩⟩⟩⟩⟩⟩
  obtain ⟨result, hchange⟩ := hchange
  obtain ⟨s, rfl, hs⟩ := goes_of_admitted h.opened.run
    ⟨hprepared, rfl, htenant, hscopes, hnew, hadmit, hfresh⟩ hchange (fun _ => rfl) hclock
    (grounded_of_observed trivial rfl h.stored)
  obtain ⟨tx', hpost, hopen⟩ := h.opened.next hs rfl
  have hfits : Fits k (.reviewPlan (observedPlan s.env p "1" history)) :=
    show Fits k (.reviewPlan p) from hkept.filed k _ hp
  exact ⟨s, _, h.planned hopen hpost hfits ⟨s.env, tx', result, rfl⟩, rfl⟩

/-- A history in which the job was read. -/
def seenJob : Except String (List (String × Json)) := .ok [("state", .str "completed")]

/-- A history that could not be read. -/
def lostJob : Except String (List (String × Json)) := .error "ACP_QUERY_UNAVAILABLE"

omit [Sha256] [CollisionFree] in
/-- A plan that has seen its job stays bound to it when a later look fails. -/
theorem seen_job_stays : letI := spelling
    ∃ before later w w' k p, Run casework before (some w) ∧
      Run casework (before ++ [later]) (some w') ∧ w.artifacts.get? k = some (.reviewPlan p) ∧
      p.bound_job_id = some "1" ∧
      ∃ p', w'.artifacts.get? k = some (.reviewPlan p') ∧ p'.bound_job_id = some "1" ∧
        p'.state = .queryFailed := by
  let _ := spelling
  have := spelling_collisionFree
  obtain ⟨steps, w, case, report, h, hempty⟩ := exists_reviewing
  obtain ⟨s, w1, k, p, h'⟩ := can_preparePlan 0 h (by omega) (by simp [planOf_empty hempty])
  have halone : ∀ (m : Workspace) (q : ReviewPlan), q.plan_id = k →
      (∀ key a, m.artifacts.get? key = some a → a = .reviewPlan q) →
      ∀ a ∈ m.artifacts.values, bindsJob market k "1" a = false := by
    intro m q hid hm a ha
    obtain ⟨key, hkey⟩ := Dict.exists_get?_of_mem_values ha
    rw [hm key a hkey]
    simp [bindsJob, hid]
  have honly1 : ∀ key a, w1.artifacts.get? key = some a → a = .reviewPlan p := by
    intro key a ha
    rw [h'.artifacts, Dict.get?_set] at ha
    split at ha
    · exact (Option.some.inj ha).symm
    · simp [hempty] at ha
  have hid : p.plan_id = k := ((kept_of_run h'.next.opened.run w1 rfl).filed k _ h'.stored).1.symm
  obtain ⟨s', w2, h2, hw2⟩ := can_verifyPlan seenJob h'.next (by omega) h'.stored h'.case_id
    h'.hash (by simp [h'.unbound]) (halone w1 p hid honly1)
  have hp2 : w2.artifacts.get? k = some (.reviewPlan (observedPlan s'.env p "1" seenJob)) := by
    rw [hw2]
    exact Dict.get?_set_self ..
  have hbound : (observedPlan s'.env p "1" seenJob).bound_job_id = some "1" := rfl
  have honly2 : ∀ key a, w2.artifacts.get? key = some a →
      a = .reviewPlan (observedPlan s'.env p "1" seenJob) := by
    intro key a ha
    rw [hw2, Dict.get?_set] at ha
    split at ha
    · exact (Option.some.inj ha).symm
    · rename_i hne
      rw [h'.artifacts, Dict.get?_set_of_ne _ _ hne] at ha
      simp [hempty] at ha
  obtain ⟨s'', w3, h3, hw3⟩ := can_verifyPlan lostJob h2 (by omega) hp2 h'.case_id h'.hash
    (by simp [hbound]) (halone w2 (observedPlan s'.env p "1" seenJob) hid honly2)
  have hp3 : w3.artifacts.get? k = some (.reviewPlan
      (observedPlan s''.env (observedPlan s'.env p "1" seenJob) "1" lostJob)) := by
    rw [hw3]
    exact Dict.get?_set_self ..
  obtain ⟨p', hp', hbound'⟩ :=
    (job_serves_one_plan h2.opened.run h3.opened.run).2.1 k _ "1" hp2 hbound
  rw [hp3] at hp'
  cases hp'
  exact ⟨_, s'', w2, w3, k, _, h2.opened.run, h3.opened.run, hp2, hbound, _, hp3, hbound', rfl⟩

end Market

end MemoryGuard.ReviewPlans
