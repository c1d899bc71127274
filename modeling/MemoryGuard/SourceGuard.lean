import MemoryGuard.SourceState

/-!
Durable source obligations. What a case must show before it is resolved is
recomputed from the stored artifacts, so a policy that disappears from the
configuration is not evidence that the risk disappeared.
-/
namespace MemoryGuard.SourceGuard

open OrderedDict Guarded JsonText ContentHash Models Artifacts Aggregate Core SourceModels

/-- The obligations gathered so far; the sources are a set. -/
structure Floor where
  ids : List Identifier
  groups : ℕ
  configured : Bool

/-- Bundles of older versions did not store their threshold; one group is all
that can be inferred from them. -/
def obligeBundle (bundle : EvidenceContext) (floor : Floor) : Floor :=
  let ids := floor.ids ++ bundle.required_sources ++ bundle.receipts.map ReceiptSummary.source_id
  let required := match bundle.source_obligations with
    | some recorded => recorded.configured_policy_required
    | none => bundle.resolution_requires_sources
  let groups := match bundle.source_obligations with
    | some recorded => recorded.min_independence_groups
    | none => if ids.isEmpty then 0 else 1
  if required then ⟨ids, max floor.groups groups, true⟩ else ⟨ids, floor.groups, floor.configured⟩

def oblige (floor : Floor) : Artifact → Floor
  | .policyGuard g =>
    ⟨floor.ids ++ g.floor.required_sources, max floor.groups g.floor.min_independence_groups,
      floor.configured || g.floor.configured_policy_required⟩
  | .request r => { floor with ids := floor.ids ++ [r.source_id] }
  | .head r => { floor with ids := floor.ids ++ [r.source_id] }
  | .receipt r => { floor with ids := floor.ids ++ [r.source_id] }
  | .reportBundle b => obligeBundle b.bundle floor
  | _ => floor

/-- The artifacts that name the case. -/
def caseArtifacts (state : Workspace) (case_id : Identifier) : List Artifact :=
  state.artifacts.values.filter (fun a => a.case_id = some case_id)

def obligations (state : Workspace) (case_id : Identifier) : Obligations :=
  let floor := (caseArtifacts state case_id).foldl oblige ⟨[], 0, false⟩
  ⟨sorted floor.ids.dedup, floor.groups, floor.configured⟩

def HasObligations (state : Workspace) (case_id : Identifier) : Prop :=
  (obligations state case_id).required_sources ≠ [] ∨
    (obligations state case_id).configured_policy_required

instance (state : Workspace) (case_id : Identifier) : Decidable (HasObligations state case_id) := by
  unfold HasObligations
  infer_instance

variable [Sha256]

def guardKey (case_id : Identifier) : Digest := digest "source-policy-guard" (.str case_id)

def storedGuard (state : Workspace) (case_id : Identifier) : Option PolicyGuard :=
  match state.artifacts.get? (guardKey case_id) with
  | some (.policyGuard g) => some g
  | _ => none

omit [Sha256] in
/-- Explicit configured requirements cannot be weakened by a configuration edit. -/
def Weakened (guard : PolicyGuard) (policy : ScopeEvidencePolicy) : Prop :=
  guard.floor.configured_policy_required ∧
    (¬ (∀ s ∈ guard.configured_sources, s ∈ policy.required_sources) ∨
      policy.min_independence_groups < guard.floor.min_independence_groups)

omit [Sha256] in
instance (guard : PolicyGuard) (policy : ScopeEvidencePolicy) :
    Decidable (Weakened guard policy) := by
  unfold Weakened
  infer_instance

omit [Sha256] in
def requiredBy : Option ScopeEvidencePolicy → List Identifier
  | none => []
  | some policy => policy.required_sources

omit [Sha256] in
def groupsBy : Option ScopeEvidencePolicy → ℕ
  | none => 0
  | some policy => policy.min_independence_groups

def effectivePolicy (state : Workspace) (case_id : Identifier)
    (policy : Option ScopeEvidencePolicy) : Except CaseworkError Obligations := do
  let floor := obligations state case_id
  ensure (¬ (floor.configured_policy_required ∧ policy.isNone)) (conflict "SOURCE_POLICY_REMOVED")
  ensure (∀ p ∈ policy, ∀ g ∈ storedGuard state case_id, ¬ Weakened g p)
    (conflict "SOURCE_POLICY_WEAKENED")
  return {
    required_sources := sorted (floor.required_sources ++ requiredBy policy).dedup
    min_independence_groups := max floor.min_independence_groups (groupsBy policy)
    configured_policy_required := policy.isSome || floor.configured_policy_required }

def rememberPolicy (state : Workspace) (case_id : Identifier)
    (policy : Option ScopeEvidencePolicy) (source_ids : List Identifier) :
    Except CaseworkError Workspace := do
  let effective ← effectivePolicy state case_id policy
  let floor := { effective with
    required_sources := sorted (effective.required_sources ++ source_ids).dedup }
  if floor.required_sources = [] ∧ ¬ floor.configured_policy_required then
    return state
  let previous := match storedGuard state case_id with
    | some g => g.configured_sources
    | none => []
  let guard : PolicyGuard := {
    case_id := case_id
    floor := floor
    configured_sources := sorted (previous ++ requiredBy policy).dedup }
  return { state with artifacts := state.artifacts.set (guardKey case_id) (.policyGuard guard) }

end MemoryGuard.SourceGuard
