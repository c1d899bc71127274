import MemoryGuard.SourceModels

/-!
Reading the stored evidence of a case: the current head of every source, the
receipts that may still be used, and the disagreements between them. A failed
or unfinished fetch displaces an older snapshot; it is never silently reused.
-/
namespace MemoryGuard.SourceState

open OrderedDict Guarded JsonText ContentHash Models Artifacts Aggregate Core SourceModels

variable [Sha256]

def sourceKey (case_id source_id : Identifier) : Digest :=
  digest "source-head" (texts [case_id, source_id])

omit [Sha256] in
/-- One round of collecting heads. Two current heads for one source are
ambiguous; the order of the map never picks one of them. -/
def collectHead (case_id : Identifier) (version : ℕ) (result : Dict Identifier SourceHead) :
    Artifact → Except CaseworkError (Dict Identifier SourceHead)
  | .head h =>
    if h.case_id = case_id ∧ h.case_version = version then do
      ensure (¬ result.Has h.source_id) ⟨"SOURCE_CONFLICT", 503⟩
      return result.set h.source_id h
    else return result
  | _ => return result

omit [Sha256] in
def evidenceHeads (state : Workspace) (case_id : Identifier) :
    Except CaseworkError (Dict Identifier SourceHead) := do
  let case ← item state.cases case_id
  state.artifacts.values.foldlM (collectHead case_id case.version) .empty

omit [Sha256] in
def evidenceBasis (state : Workspace) (case_id : Identifier) :
    Except CaseworkError (List (String × Json)) := do
  let heads ← evidenceHeads state case_id
  return (byKey heads.entries).map (fun e => (e.1, object e.2.fields))

section Conflicts

omit [Sha256]

/-- Fields that are expected to move between two observations. -/
def volatileFactFields : List String := ["updated_at", "confirmations"]

/-- For every resource and field, the sources that state each value. A value
stands for its canonical text, which determines it. -/
abbrev Claims := Dict (String × String) (Dict Json (List Identifier))

variable (lower : String → String)

def addClaim (receipt : SourceReceipt) (claims : Claims) (fact : String × Json) : Claims :=
  if fact.1 ∈ volatileFactFields then claims
  else
    let key := (lower receipt.resource, fact.1)
    let values := (claims.get? key).getD .empty
    claims.set key (values.set fact.2 ((values.get? fact.2).getD [] ++ [receipt.source_id]))

def gatherClaims (receipts : List SourceReceipt) : Claims :=
  receipts.foldl (fun claims r => r.observed.facts.entries.foldl (addClaim lower r) claims) .empty

def claimOrder (a b : (String × String) × Dict Json (List Identifier)) : Prop :=
  a.1.1 < b.1.1 ∨ (a.1.1 = b.1.1 ∧ a.1.2 ≤ b.1.2)

instance : DecidableRel claimOrder := fun a b => by
  unfold claimOrder
  infer_instance

end Conflicts

/-- What is reported of one resource and field, if there are two values. -/
def claimConflict (e : (String × String) × Dict Json (List Identifier)) : Option SourceConflict :=
  if e.2.size ≤ 1 then none
  else some {
    resource_digest := digest "source-conflict-resource" (.str e.1.1)
    field := e.1.2
    source_ids := sorted e.2.values.flatten.dedup
    value_digests := sorted (e.2.keys.map
      (fun v => digest "source-conflict-value" (.str (encoded v)))) }

/-- Same-resource disagreements, without the disagreeing values. `lower` is the
lower case of a text. -/
def conflictsAmong (lower : String → String) (receipts : List SourceReceipt) :
    List SourceConflict :=
  ((gatherClaims lower receipts).entries.insertionSort claimOrder).filterMap claimConflict

/-- `source_conflicts` on the resources of adapters, which are plain ASCII. -/
def sourceConflicts (receipts : List SourceReceipt) : List SourceConflict :=
  conflictsAmong String.toLower receipts

section Receipts

variable (state : Workspace) (case_id : Identifier) (case : RiskCase) (time : Instant)
  (specs : Dict Identifier SourceSpec) (source_id : Identifier) (head : SourceHead)

omit [Sha256] in
def BoundReceipt (r : SourceReceipt) : Prop :=
  r.case_id = case_id ∧ r.case_version = case.version ∧ r.source_id = source_id ∧
    head.receipt_id = some r.receipt_id

def AllowedSpec (r : SourceReceipt) (spec : SourceSpec) : Prop :=
  spec.tenant_id = state.tenant_id ∧ case.scope.subject_id ∈ spec.subjects ∧
    r.source_spec_hash = specHash spec

omit [Sha256] in
def BoundRequest (r : SourceReceipt) (spec : SourceSpec) (q : SourceRequest) : Prop :=
  q.state = .observed ∧ q.case_id = case_id ∧ q.source_id = source_id ∧
    q.case_version = case.version ∧ q.receipt_id = some r.receipt_id ∧
    q.resource = r.resource ∧ q.source_spec_hash = r.source_spec_hash ∧
    r.independence_group = spec.independence_group

omit [Sha256] in
def PlausibleTimes (r : SourceReceipt) (spec : SourceSpec) : Prop :=
  r.fetched_at ≤ time ∧ r.fetched_at < r.expires_at ∧
    r.expires_at ≤ r.fetched_at + seconds spec.ttl_seconds

omit [Sha256] in
instance (r : SourceReceipt) : Decidable (BoundReceipt case_id case source_id head r) := by
  unfold BoundReceipt
  infer_instance

instance (r : SourceReceipt) (spec : SourceSpec) : Decidable (AllowedSpec state case r spec) := by
  unfold AllowedSpec
  infer_instance

omit [Sha256] in
instance (r : SourceReceipt) (spec : SourceSpec) (q : SourceRequest) :
    Decidable (BoundRequest case_id case source_id r spec q) := by
  unfold BoundRequest
  infer_instance

omit [Sha256] in
instance (r : SourceReceipt) (spec : SourceSpec) : Decidable (PlausibleTimes time r spec) := by
  unfold PlausibleTimes
  infer_instance

def receiptRoot (r : SourceReceipt) : Digest := digest "source-receipt" (object r.body)

/-- The receipt a head points to, or the first reason not to use it. -/
def usableReceipt : Except String SourceReceipt := do
  ensure (head.state = .observed) "SOURCE_NOT_OBSERVED"
  let stored ← fetch (state.artifacts.get? (head.receipt_id.getD "")) "SOURCE_NOT_OBSERVED"
  let receipt ← match stored with
    | .receipt r => pure r
    | _ => throw "SOURCE_RECEIPT_BINDING_INVALID"
  ensure (BoundReceipt case_id case source_id head receipt) "SOURCE_RECEIPT_BINDING_INVALID"
  let spec ← fetch (specs.get? source_id) "SOURCE_POLICY_CHANGED"
  ensure (AllowedSpec state case receipt spec) "SOURCE_POLICY_CHANGED"
  let request ← match state.artifacts.get? head.request_id with
    | some (.request q) => pure q
    | _ => throw "SOURCE_REQUEST_BINDING_INVALID"
  ensure (BoundRequest case_id case source_id receipt spec request) "SOURCE_REQUEST_BINDING_INVALID"
  ensure (PlausibleTimes time receipt spec) "SOURCE_FRESHNESS_INVALID"
  ensure (time < receipt.expires_at) "SOURCE_EXPIRED"
  ensure (receipt.receipt_root = receiptRoot receipt) "SOURCE_RECEIPT_CORRUPT"
  return receipt

/-- The accepted receipts and the rejected sources, in the order of the sources. -/
def currentReceipts : Except CaseworkError (List SourceReceipt × List Rejection) := do
  let heads ← evidenceHeads state case_id
  let case ← item state.cases case_id
  let outcomes := (byKey heads.entries).map (fun e =>
    (e.1, usableReceipt state case_id case time specs e.1 e.2))
  return (outcomes.filterMap (fun o => o.2.toOption),
    outcomes.filterMap (fun o => match o.2 with
      | .ok _ => none
      | .error reason => some ⟨o.1, reason⟩))

end Receipts

/-- What an investigation rests on: the case, the basis of every task the risk
reaches, the lessons that may guide it and the current source heads. -/
def investigationBasis (state : Workspace) (case_id : Identifier) :
    Except CaseworkError Digest := do
  let case ← item state.cases case_id
  let affected ← (affectedTasks state case.scope).mapM (fun key => do
    let basis ← taskBasis state key
    return (key, Json.str basis))
  let precedents ← activePrecedents state case_id
  let lessons := precedents.filterMap
    (fun key => (state.lessons.get? key).map (fun l => (key, l.toJson)))
  let external ← evidenceBasis state case_id
  return digest "investigation-basis" (object ([("case", case.toJson),
    ("affected", object affected), ("precedents", object lessons)] ++
    (if external.isEmpty then [] else [("external_evidence", object external)])))

end MemoryGuard.SourceState
