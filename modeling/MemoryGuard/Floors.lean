import MemoryGuard.SourceService
import Mathlib.Data.List.Dedup

/-!
Obligations are ordered by what they demand, and those of a case are the least
that cover what each of its artifacts demands. That is all later proofs need to
know of the loop that gathers them. Remembering a policy yields a guard that
covers the stored obligations, the policy and the named sources.
-/
namespace MemoryGuard.Floors

open OrderedDict Guarded ContentHash Models Artifacts Aggregate Core SourceModels SourceState SourceGuard

/-- A loop of joins is below a bound when its start and everything joined are. -/
theorem foldl_le_iff {σ α β : Type*} [LE β] (value : σ → β) (owed : α → β)
    (join : σ → α → σ) (l : List α) (bound : β)
    (hjoin : ∀ s, ∀ a ∈ l, value (join s a) ≤ bound ↔ value s ≤ bound ∧ owed a ≤ bound) (s : σ) :
    value (l.foldl join s) ≤ bound ↔ value s ≤ bound ∧ ∀ a ∈ l, owed a ≤ bound := by
  induction l generalizing s with
  | nil => simp
  | cons a rest ih =>
    rw [List.foldl_cons, ih (fun s b hb => hjoin s b (List.mem_cons_of_mem _ hb)),
      hjoin s a List.mem_cons_self, List.forall_mem_cons]
    exact and_assoc

section Order

/-- Weaker obligations demand no source, group or policy that stronger ones do not. -/
instance : LE Obligations where
  le o p := (∀ s ∈ o.required_sources, s ∈ p.required_sources) ∧
    o.min_independence_groups ≤ p.min_independence_groups ∧
    (o.configured_policy_required = true → p.configured_policy_required = true)

theorem le_def {o p : Obligations} : o ≤ p ↔
    (∀ s ∈ o.required_sources, s ∈ p.required_sources) ∧
      o.min_independence_groups ≤ p.min_independence_groups ∧
      (o.configured_policy_required = true → p.configured_policy_required = true) := Iff.rfl

instance : Preorder Obligations where
  le_refl o := ⟨fun _ h => h, le_refl _, fun h => h⟩
  le_trans o p q h h' :=
    ⟨fun s hs => h'.1 s (h.1 s hs), le_trans h.2.1 h'.2.1, fun hc => h'.2.2 (h.2.2 hc)⟩

def nothing : Obligations := ⟨[], 0, false⟩

theorem nothing_le (o : Obligations) : nothing ≤ o := by
  refine ⟨?_, Nat.zero_le _, ?_⟩
  · simp [nothing]
  · simp [nothing]

/-- Some source or some policy is required. -/
def Demanding (o : Obligations) : Prop :=
  o.required_sources ≠ [] ∨ o.configured_policy_required = true

/-- What a configured policy demands. -/
def demanded (p : ScopeEvidencePolicy) : Obligations :=
  ⟨p.required_sources, p.min_independence_groups, true⟩

end Order

section Contributions

def total (floor : Floor) : Obligations :=
  ⟨sorted floor.ids.dedup, floor.groups, floor.configured⟩

/-- Whether a bundle makes a configured policy necessary. -/
def bundleRequires (bundle : EvidenceContext) : Bool :=
  match bundle.source_obligations with
  | some recorded => recorded.configured_policy_required
  | none => bundle.resolution_requires_sources

/-- What a single artifact obliges a case to. -/
def owed : Artifact → Obligations
  | .policyGuard g => g.floor
  | .request r => ⟨[r.source_id], 0, false⟩
  | .head r => ⟨[r.source_id], 0, false⟩
  | .receipt r => ⟨[r.source_id], 0, false⟩
  | .reportBundle b =>
    ⟨b.bundle.required_sources ++ b.bundle.receipts.map ReceiptSummary.source_id,
      if bundleRequires b.bundle then
        (b.bundle.source_obligations.map Obligations.min_independence_groups).getD 0 else 0,
      bundleRequires b.bundle⟩
  | _ => nothing

/-- Every bundle that the service stores records its obligations. -/
def Recent : Artifact → Prop
  | .reportBundle b => b.bundle.source_obligations.isSome
  | _ => True

theorem total_le {floor : Floor} {o : Obligations} : total floor ≤ o ↔
    (∀ s ∈ floor.ids, s ∈ o.required_sources) ∧ floor.groups ≤ o.min_independence_groups ∧
      (floor.configured = true → o.configured_policy_required = true) := by
  simp [total, le_def]

theorem oblige_le_iff {floor : Floor} {a : Artifact} {o : Obligations} (h : Recent a) :
    total (oblige floor a) ≤ o ↔ total floor ≤ o ∧ owed a ≤ o := by
  rw [total_le, total_le, le_def]
  cases a with
  | policyGuard g =>
    simp only [oblige, owed, List.mem_append, or_imp, forall_and, max_le_iff, Bool.or_eq_true]
    tauto
  | request r => simp [oblige, owed, or_imp, forall_and]; tauto
  | head r => simp [oblige, owed, or_imp, forall_and]; tauto
  | receipt r => simp [oblige, owed, or_imp, forall_and]; tauto
  | reportBundle b =>
    obtain ⟨recorded, hrecorded⟩ := Option.isSome_iff_exists.mp h
    simp only [oblige, obligeBundle, owed, bundleRequires, hrecorded]
    by_cases hreq : recorded.configured_policy_required = true
    · simp only [hreq, if_true, List.mem_append, or_imp, forall_and, max_le_iff, Option.map_some,
        Option.getD_some]
      tauto
    · simp only [hreq, Bool.false_eq_true, if_false, List.mem_append, or_imp, forall_and,
        Nat.zero_le]
      tauto
  | _ => simp [oblige, owed, nothing]

/-- What an artifact obliges one case to. -/
def owedTo (case_id : Identifier) (a : Artifact) : Obligations :=
  if a.case_id = some case_id then owed a else nothing

theorem owedTo_le_owed (case_id : Identifier) (a : Artifact) : owedTo case_id a ≤ owed a := by
  unfold owedTo
  split
  · exact le_refl _
  · exact nothing_le _

/-- The obligations of a case are the least upper bound of what is owed to it. -/
theorem obligations_le_iff {state : Workspace} {case_id : Identifier} {o : Obligations}
    (h : ∀ a ∈ state.artifacts.values, Recent a) :
    obligations state case_id ≤ o ↔ ∀ a ∈ state.artifacts.values, owedTo case_id a ≤ o := by
  have hfold := foldl_le_iff total owed oblige (caseArtifacts state case_id) o
    (fun s a ha => oblige_le_iff (h a (List.mem_filter.mp ha).1)) ⟨[], 0, false⟩
  have hstart : total ⟨[], 0, false⟩ ≤ o := nothing_le o
  change total _ ≤ o ↔ _
  rw [hfold]
  constructor
  · rintro ⟨_, hall⟩ a ha
    unfold owedTo
    split
    · rename_i hcase
      exact hall a (List.mem_filter.mpr ⟨ha, by simpa using hcase⟩)
    · exact nothing_le _
  · intro hall
    refine ⟨hstart, ?_⟩
    intro a ha
    obtain ⟨hmem, hcase⟩ := List.mem_filter.mp ha
    have hle := hall a hmem
    rwa [owedTo, if_pos (by simpa using hcase)] at hle

theorem owedTo_le_obligations {state : Workspace} (case_id : Identifier)
    (h : ∀ a ∈ state.artifacts.values, Recent a) {a : Artifact} (ha : a ∈ state.artifacts.values) :
    owedTo case_id a ≤ obligations state case_id :=
  (obligations_le_iff h).mp (le_refl _) a ha

end Contributions

section Memory

variable [Sha256] {state state' : Workspace} {case_id : Identifier}
  {policy : Option ScopeEvidencePolicy} {source_ids : List Identifier}

/-- An accepted policy demands at least what is stored and what is configured. -/
theorem effectivePolicy_ok {effective : Obligations}
    (h : effectivePolicy state case_id policy = .ok effective) :
    obligations state case_id ≤ effective ∧ (∀ p ∈ policy, demanded p ≤ effective) ∧
      effective.configured_policy_required =
        (policy.isSome || (obligations state case_id).configured_policy_required) := by
  simp only [effectivePolicy, bind_eq_ok, ensure_eq_ok, pure_eq_ok] at h
  obtain ⟨_, _, _, _, rfl⟩ := h
  refine ⟨⟨?_, ?_, ?_⟩, ?_, rfl⟩
  · intro s hs
    simp [hs]
  · exact le_max_left _ _
  · intro hc
    simp [hc]
  · intro p hp
    cases Option.mem_def.mp hp
    refine ⟨?_, ?_, ?_⟩
    · intro s hs
      have hs' : s ∈ p.required_sources := hs
      simp [requiredBy, hs']
    · exact le_max_right _ _
    · intro _
      rfl

/-- Remembering leaves the workspace as it is, or writes a guard that demands
something and covers the stored obligations, the policy and the named sources. -/
theorem rememberPolicy_ok (h : rememberPolicy state case_id policy source_ids = .ok state') :
    (state' = state ∧ policy = none ∧ source_ids = [] ∧
        (obligations state case_id).configured_policy_required = false) ∨
      ∃ guard : PolicyGuard, guard.case_id = case_id ∧ obligations state case_id ≤ guard.floor ∧
        (∀ p ∈ policy, demanded p ≤ guard.floor) ∧
        (∀ s ∈ source_ids, s ∈ guard.floor.required_sources) ∧ Demanding guard.floor ∧
        state' = { state with
          artifacts := state.artifacts.set (guardKey case_id) (.policyGuard guard) } := by
  simp only [rememberPolicy, bind_eq_ok] at h
  obtain ⟨effective, heffective, h⟩ := h
  obtain ⟨hstored, hpolicy, hconfigured⟩ := effectivePolicy_ok heffective
  split at h
  · rename_i hnone
    left
    simp only [pure_eq_ok] at h
    rw [hconfigured] at hnone
    obtain ⟨hids, hconf⟩ := hnone
    rw [sorted_eq_nil, List.dedup_eq_nil, List.append_eq_nil_iff] at hids
    simp only [Bool.or_eq_true, not_or, Option.isSome_iff_ne_none, ne_eq, not_not,
      Bool.not_eq_true] at hconf
    exact ⟨h.symm, hconf.1, hids.2, hconf.2⟩
  · rename_i hsome
    right
    simp only [pure_eq_ok] at h
    refine ⟨_, rfl, ?_, ?_, ?_, ?_, h.symm⟩
    · exact ⟨fun s hs => by simp [hstored.1 s hs], hstored.2.1, hstored.2.2⟩
    · exact fun p hp => ⟨fun s hs => by simp [(hpolicy p hp).1 s hs], (hpolicy p hp).2.1,
        (hpolicy p hp).2.2⟩
    · intro s hs
      simp [hs]
    · simpa only [Demanding, ne_eq, not_and_or, not_not] using hsome

end Memory

end MemoryGuard.Floors
