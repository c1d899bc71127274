import MemoryGuard.Grounds
import MemoryGuard.Standing

/-!
Evidence that is stored asks for nothing new. The bundle of a report demands
what its context was computed to demand, so a context that is computed again
from the workspace with the bundle is the same context, as long as none of its
receipts has expired.
-/
namespace MemoryGuard.Bundles

open OrderedDict Guarded JsonText ContentHash Models Artifacts Aggregate Core SourceModels
open SourceState SourceGuard SourceService CaseCommands Floors Filing EvidenceEffects Heads
open Upkeep Grounds

variable [Sha256] {w m : Workspace} {case_id : Identifier}

section Demands

/-- Obligations that grow within what is demanded anyway change no demand. -/
theorem effectivePolicy_stable {policy : Option ScopeEvidencePolicy} {floor : Obligations}
    (h : effectivePolicy w case_id policy = .ok floor)
    (hgrown : obligations w case_id ≤ obligations m case_id)
    (hwithin : obligations m case_id ≤ floor)
    (hguard : storedGuard m case_id = storedGuard w case_id) :
    effectivePolicy m case_id policy = .ok floor := by
  simp only [effectivePolicy, bind_eq_ok, ensure_eq_ok, pure_eq_ok] at h
  obtain ⟨_, hremoved, _, hweakened, rfl⟩ := h
  obtain ⟨hids, hgroups, hconfigured⟩ := hgrown
  obtain ⟨hids', hgroups', hconfigured'⟩ := hwithin
  have hsources : sorted ((obligations m case_id).required_sources ++ requiredBy policy).dedup =
      sorted ((obligations w case_id).required_sources ++ requiredBy policy).dedup := by
    apply sorted_dedup_eq
    intro s
    constructor
    · intro hs
      rcases List.mem_append.mp hs with hs | hs
      · simpa using hids' s hs
      · exact List.mem_append_right _ hs
    · intro hs
      rcases List.mem_append.mp hs with hs | hs
      · exact List.mem_append_left _ (hids s hs)
      · exact List.mem_append_right _ hs
  have hlevel : max (obligations m case_id).min_independence_groups (groupsBy policy) =
      max (obligations w case_id).min_independence_groups (groupsBy policy) := by
    dsimp only at hgroups'
    omega
  have hrequired : (policy.isSome || (obligations m case_id).configured_policy_required) =
      (policy.isSome || (obligations w case_id).configured_policy_required) := by
    rw [Bool.eq_iff_iff]
    constructor
    · intro hr
      rcases Bool.or_eq_true_iff.mp hr with hp | hc
      · simp [hp]
      · exact hconfigured' hc
    · intro hr
      rcases Bool.or_eq_true_iff.mp hr with hp | hc
      · simp [hp]
      · simp [hconfigured hc]
  have hkept : ¬ ((obligations m case_id).configured_policy_required = true ∧
      policy.isNone = true) := by
    rintro ⟨hc, hnone⟩
    have hc' := hconfigured' hc
    have hsome : policy.isSome = false := by
      cases policy with
      | none => rfl
      | some p => cases hnone
    simp only [hsome, Bool.false_or] at hc'
    exact hremoved ⟨hc', hnone⟩
  unfold effectivePolicy
  dsimp only
  rw [hguard, hsources, hlevel, hrequired]
  exact bind_eq_ok.mpr ⟨(), ensure_eq_ok.mpr hkept,
    bind_eq_ok.mpr ⟨(), ensure_eq_ok.mpr hweakened, rfl⟩⟩

end Demands

section Receipts

variable {case : RiskCase} {time time' : Instant} {specs : Dict Identifier SourceSpec}
  {source_id : Identifier} {head : SourceHead} {r r' : SourceReceipt}

/-- The reads of the evidence of a case are the same in two workspaces. -/
structure SameEvidence (w m : Workspace) (case_id : Identifier) : Prop where
  tenant : m.tenant_id = w.tenant_id
  cases : m.cases.get? case_id = w.cases.get? case_id
  heads : evidenceHeads m case_id = evidenceHeads w case_id
  receipts : ∀ key r, w.artifacts.get? key = some (.receipt r) →
    m.artifacts.get? key = some (.receipt r)
  requests : ∀ key q, w.artifacts.get? key = some (.request q) →
    m.artifacts.get? key = some (.request q)

/-- What makes the receipt of a head usable. -/
structure Usable (w : Workspace) (case_id : Identifier) (case : RiskCase) (time : Instant)
    (specs : Dict Identifier SourceSpec) (source_id : Identifier) (head : SourceHead)
    (r : SourceReceipt) (spec : SourceSpec) (q : SourceRequest) : Prop where
  observed : head.state = .observed
  stored : w.artifacts.get? (head.receipt_id.getD "") = some (.receipt r)
  bound : BoundReceipt case_id case source_id head r
  configured : specs.get? source_id = some spec
  allowed : AllowedSpec w case r spec
  asked : w.artifacts.get? head.request_id = some (.request q)
  request : BoundRequest case_id case source_id r spec q
  timely : PlausibleTimes time r spec
  live : time < r.expires_at
  root : r.receipt_root = receiptRoot r

theorem usableReceipt_eq_ok : usableReceipt w case_id case time specs source_id head = .ok r ↔
    ∃ spec q, Usable w case_id case time specs source_id head r spec q := by
  constructor
  · intro h
    simp only [usableReceipt, bind_eq_ok, fetch_eq_ok, ensure_eq_ok] at h
    obtain ⟨_, hobserved, stored, hstored, h⟩ := h
    split at h
    · simp only [pure_bind, bind_eq_ok, fetch_eq_ok, ensure_eq_ok] at h
      obtain ⟨_, hbound, spec, hspec, _, hallowed, h⟩ := h
      split at h
      · rename_i q hq
        simp only [bind_eq_ok, ensure_eq_ok, pure_eq_ok] at h
        obtain ⟨_, hrequest, _, htimely, _, hlive, _, hroot, rfl⟩ := h
        exact ⟨spec, q, hobserved, hstored, hbound, hspec, hallowed, hq, hrequest, htimely,
          hlive, hroot⟩
      · simp only [bind_eq_ok, throw_ne_ok, false_and, exists_false] at h
    · simp only [bind_eq_ok, throw_ne_ok, false_and, exists_false] at h
  · rintro ⟨spec, q, h⟩
    simp only [usableReceipt, h.observed, h.stored, h.bound, h.configured, h.allowed, h.asked,
      h.request, h.timely, h.live, h.root, ensure, fetch, if_true, bind, Except.bind, pure,
      Except.pure]

/-- A receipt can be used until it expires. -/
theorem usableReceipt_later (hsame : SameEvidence w m case_id) (hle : time ≤ time')
    (h : usableReceipt w case_id case time specs source_id head = .ok r)
    (hlive : time' < r.expires_at) :
    usableReceipt m case_id case time' specs source_id head = .ok r := by
  obtain ⟨spec, q, hu⟩ := usableReceipt_eq_ok.mp h
  refine usableReceipt_eq_ok.mpr ⟨spec, q, hu.observed, hsame.receipts _ _ hu.stored, hu.bound,
    hu.configured, ?_, hsame.requests _ _ hu.asked, hu.request, ?_, hlive, hu.root⟩
  · exact ⟨hu.allowed.1.trans hsame.tenant.symm, hu.allowed.2⟩
  · exact ⟨hu.timely.1.trans hle, hu.timely.2⟩

theorem usableReceipt_unique (h : usableReceipt w case_id case time specs source_id head = .ok r)
    (h' : usableReceipt w case_id case time' specs source_id head = .ok r') : r = r' := by
  obtain ⟨_, _, hu⟩ := usableReceipt_eq_ok.mp h
  obtain ⟨_, _, hu'⟩ := usableReceipt_eq_ok.mp h'
  have hsame := hu.stored.symm.trans hu'.stored
  cases hsame
  rfl

/-- Where no head is rejected, each is settled by its receipt. -/
theorem currentReceipts_settled {receipts : List SourceReceipt}
    (h : currentReceipts w case_id time specs = .ok (receipts, [])) :
    ∃ heads, evidenceHeads w case_id = .ok heads ∧ ∃ case, w.cases.get? case_id = some case ∧
      List.Forall₂ (fun e r => usableReceipt w case_id case time specs e.1 e.2 = .ok r)
        (byKey heads.entries) receipts := by
  simp only [currentReceipts, item, bind_eq_ok, fetch_eq_ok, pure_eq_ok, Prod.mk.injEq] at h
  obtain ⟨heads, hheads, case, hcase, rfl, hrejected⟩ := h
  refine ⟨heads, hheads, case, hcase, ?_⟩
  generalize byKey heads.entries = l at hrejected ⊢
  induction l with
  | nil => exact .nil
  | cons e rest ih =>
    cases hu : usableReceipt w case_id case time specs e.1 e.2 with
    | error reason => simp [hu] at hrejected
    | ok r =>
      simp only [List.map_cons, hu, List.filterMap_cons] at hrejected ⊢
      exact .cons hu (ih hrejected)

theorem currentReceipts_of_settled {heads : Dict Identifier SourceHead}
    {receipts : List SourceReceipt} (hheads : evidenceHeads w case_id = .ok heads)
    (hcase : w.cases.get? case_id = some case)
    (h : List.Forall₂ (fun e r => usableReceipt w case_id case time specs e.1 e.2 = .ok r)
      (byKey heads.entries) receipts) :
    currentReceipts w case_id time specs = .ok (receipts, []) := by
  simp only [currentReceipts, item, bind_eq_ok, fetch_eq_ok, pure_eq_ok, Prod.mk.injEq]
  refine ⟨heads, hheads, case, hcase, ?_⟩
  generalize byKey heads.entries = l at h
  induction h with
  | nil => exact ⟨rfl, rfl⟩
  | cons hu _ ih => simpa [hu, Except.toOption] using ih

/-- The receipts of a case stay the current ones until one expires. -/
theorem currentReceipts_later {receipts : List SourceReceipt} (hsame : SameEvidence w m case_id)
    (hle : time ≤ time') (h : currentReceipts w case_id time specs = .ok (receipts, []))
    (hlive : ∀ r ∈ receipts, time' < r.expires_at) :
    currentReceipts m case_id time' specs = .ok (receipts, []) := by
  obtain ⟨heads, hheads, case, hcase, hall⟩ := currentReceipts_settled h
  refine currentReceipts_of_settled (hsame.heads.trans hheads) (hsame.cases.trans hcase) ?_
  clear h
  generalize byKey heads.entries = l at hall
  induction hall with
  | nil => exact .nil
  | cons hu _ ih =>
    have hfirst := usableReceipt_later hsame hle hu (hlive _ List.mem_cons_self)
    exact .cons hfirst (ih fun r hr => hlive r (List.mem_cons_of_mem _ hr))

theorem currentReceipts_unique {receipts receipts' : List SourceReceipt}
    (h : currentReceipts w case_id time specs = .ok (receipts, []))
    (h' : currentReceipts w case_id time' specs = .ok (receipts', [])) : receipts = receipts' := by
  obtain ⟨heads, hheads, case, hcase, hall⟩ := currentReceipts_settled h
  obtain ⟨heads', hheads', case', hcase', hall'⟩ := currentReceipts_settled h'
  have hheads_eq := hheads.symm.trans hheads'
  have hcase_eq := hcase.symm.trans hcase'
  cases hheads_eq
  cases hcase_eq
  -- At whatever time a head is read, it has one receipt.
  let Settles : Identifier × SourceHead → SourceReceipt → Prop := fun e r =>
    ∃ t, usableReceipt w case_id case t specs e.1 e.2 = .ok r
  have hunique : Relator.RightUnique Settles := by
    rintro e r r' ⟨t, hr⟩ ⟨t', hr'⟩
    exact usableReceipt_unique hr hr'
  exact List.right_unique_forall₂' hunique (hall.imp fun e r hr => ⟨time, hr⟩)
    (hall'.imp fun e r hr => ⟨time', hr⟩)

end Receipts

section Contexts

variable {desk : EvidenceDesk} {time time' : Instant} {value value' : EvidenceContext}

theorem policy_congr (h : m.tenant_id = w.tenant_id) (case : RiskCase) :
    policy desk m case = policy desk w case := by
  unfold policy
  rw [h]

/-- A complete context is determined by the stored evidence and what is demanded. -/
theorem context_of_same {case : RiskCase} {floor : Obligations} {receipts : List SourceReceipt}
    (hcontext : context desk w case_id time = .ok value) (htenant : m.tenant_id = w.tenant_id)
    (hcase : w.cases.get? case_id = some case) (hcase' : m.cases.get? case_id = some case)
    (hfloor : effectivePolicy w case.case_id (policy desk w case) = .ok floor)
    (hfloor' : effectivePolicy m case.case_id (policy desk w case) = .ok floor)
    (hcurrent : currentReceipts w case_id time desk.specs = .ok (receipts, []))
    (hcurrent' : currentReceipts m case_id time' desk.specs = .ok (receipts, [])) :
    context desk m case_id time' = .ok value := by
  rw [← hcontext]
  simp only [context, item, hcase, hcase', fetch, hfloor, hcurrent, policy_congr htenant, hfloor',
    hcurrent', bind, Except.bind]

/-- What a context shows of the receipts it counts. -/
theorem context_receipts (h : context desk w case_id time = .ok value) :
    ∃ receipts, currentReceipts w case_id time desk.specs = .ok (receipts, value.rejected) ∧
      value.receipts = receipts.map summary := by
  simp only [context, bind_eq_ok, pure_eq_ok] at h
  obtain ⟨_, _, _, _, ⟨receipts, rejected⟩, hcurrent, rfl⟩ := h
  exact ⟨receipts, hcurrent, rfl⟩

theorem currentReceipts_stored {specs : Dict Identifier SourceSpec} {receipts : List SourceReceipt}
    (h : currentReceipts w case_id time specs = .ok (receipts, [])) {r : SourceReceipt}
    (hr : r ∈ receipts) : r.case_id = case_id ∧ .receipt r ∈ w.artifacts.values := by
  obtain ⟨heads, _, case, _, hall⟩ := currentReceipts_settled h
  clear h
  generalize byKey heads.entries = l at hall
  induction hall with
  | nil => cases hr
  | cons hu _ ih =>
    rcases List.mem_cons.mp hr with rfl | hr
    · obtain ⟨_, _, hu⟩ := usableReceipt_eq_ok.mp hu
      exact ⟨hu.bound.1, Dict.mem_values_of_get? hu.stored⟩
    · exact ih hr

/-- The bundle of a complete context demands no more than the context did. -/
theorem owedTo_bundle_le {case : RiskCase} {floor : Obligations} {receipts : List SourceReceipt}
    {b : ReportBundle} (hrecent : ∀ a ∈ w.artifacts.values, Recent a)
    (hcontext : ContextOf desk w case_id time value case floor receipts)
    (hid : case.case_id = case_id) (hcomplete : value.coverage_complete = true)
    (hshown : value.receipts = receipts.map summary) (hbundle : b.bundle = value) :
    owedTo case_id (.reportBundle b) ≤ floor := by
  have hrejected := (hcontext.complete.mp hcomplete).1
  have hcurrent := hcontext.current
  rw [hrejected] at hcurrent
  have hdemands : obligations w case_id ≤ floor := hid ▸ (effectivePolicy_ok hcontext.effective).1
  have hsources : ∀ r ∈ receipts, r.source_id ∈ floor.required_sources := by
    intro r hr
    obtain ⟨hcase, hstored⟩ := currentReceipts_stored hcurrent hr
    have howed := le_trans (owedTo_le_obligations case_id hrecent hstored) hdemands
    have hof : (Artifact.receipt r).case_id = some case_id := congrArg some hcase
    rw [owedTo, if_pos hof] at howed
    exact howed.1 r.source_id (by simp [owed])
  have hrequires : bundleRequires value = floor.configured_policy_required := by
    unfold bundleRequires
    rw [hcontext.recorded]
  refine le_trans (owedTo_le_owed case_id _) ⟨?_, ?_, ?_⟩
  · intro s hs
    simp only [owed, hbundle, hcontext.required, hshown, List.map_map] at hs
    rcases List.mem_append.mp hs with hs | hs
    · exact hs
    · obtain ⟨r, hr, rfl⟩ := List.mem_map.mp hs
      exact hsources r hr
  · simp only [owed, hbundle, hcontext.recorded, Option.map_some, Option.getD_some]
    split
    · exact le_refl _
    · exact Nat.zero_le _
  · intro hc
    simpa only [owed, hbundle, hrequires] using hc

/-- A complete context is computed again from grown evidence, until a receipt
expires. -/
theorem context_later {case : RiskCase} {floor : Obligations} {receipts : List SourceReceipt}
    (hvalue : context desk w case_id time = .ok value)
    (hcontext : ContextOf desk w case_id time value case floor receipts)
    (hid : case.case_id = case_id) (hcomplete : value.coverage_complete = true)
    (hsame : SameEvidence w m case_id) (hgrown : obligations w case_id ≤ obligations m case_id)
    (hwithin : obligations m case_id ≤ floor)
    (hguard : storedGuard m case_id = storedGuard w case_id)
    (hle : time ≤ time') (hlive : ∀ r ∈ receipts, time' < r.expires_at) :
    context desk m case_id time' = .ok value := by
  have hrejected := (hcontext.complete.mp hcomplete).1
  have hcurrent := hcontext.current
  rw [hrejected] at hcurrent
  have hcase' : m.cases.get? case_id = some case := hsame.cases.trans hcontext.stored
  refine context_of_same hvalue hsame.tenant hcontext.stored hcase' hcontext.effective ?_ hcurrent
    (currentReceipts_later hsame hle hcurrent hlive)
  rw [← hid] at hgrown hwithin hguard
  exact effectivePolicy_stable hcontext.effective hgrown hwithin hguard

/-- At any two times at which the evidence of a case is complete it is the same. -/
theorem context_unique (hvalue : context desk w case_id time = .ok value)
    (hcomplete : value.coverage_complete = true)
    (hvalue' : context desk w case_id time' = .ok value')
    (hcomplete' : value'.coverage_complete = true) : value = value' := by
  obtain ⟨case, floor, receipts, hcontext⟩ := context_ok hvalue
  obtain ⟨case', floor', receipts', hcontext'⟩ := context_ok hvalue'
  have hcurrent := hcontext.current
  rw [(hcontext.complete.mp hcomplete).1] at hcurrent
  have hcurrent' := hcontext'.current
  rw [(hcontext'.complete.mp hcomplete').1] at hcurrent'
  have hreceipts := currentReceipts_unique hcurrent hcurrent'
  subst hreceipts
  have hlater := context_of_same hvalue rfl hcontext.stored hcontext.stored hcontext.effective
    hcontext.effective hcurrent hcurrent'
  exact Except.ok.inj (hlater.symm.trans hvalue')

end Contexts

end MemoryGuard.Bundles
