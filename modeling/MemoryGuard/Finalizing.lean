import MemoryGuard.Decisions
import MemoryGuard.Pollution
import MemoryGuard.Traces

/-!
Finalization of decisions. A decision is finalized locally, or its proof root is
anchored by a transaction that the user's wallet sends and an adapter verifies.
What is stored of a finalization only moves forward and stays with the first
transaction it was bound to, and a READY decision is answered for only while its
subject's memory is the one that was read for it.
-/
namespace MemoryGuard.Finalizing

open OrderedDict JsonText Guarded ContentHash CanonicalText IsoText JsonReading Numbers
open Observations PaymentPolicy Observing Decisions Traces
open Pollution (Blocks denied_iff vendorPayment)

section Values

structure AnchorPlan where
  chain_id : ℤ
  network : String
  contract : String
  to_address : String
  data : String
  value : String
  proof_root : Digest
  deriving DecidableEq

structure AnchorVerification where
  state : AnchorState
  tx_hash : Option String
  chain_id : Option ℤ
  contract : Option String
  block_number : Option ℤ
  reason_codes : List String
  deriving DecidableEq

structure FinalizationResult where
  decision_id : String
  verdict : Verdict
  state : AnchorState
  proof_root : Digest
  executable : Bool
  anchor_plan : Option AnchorPlan
  anchor_verification : Option AnchorVerification
  reason_codes : List String
  deriving DecidableEq

def AnchorPlan.body (p : AnchorPlan) : List (String × Json) :=
  [("chain_id", int p.chain_id), ("network", .str p.network), ("contract", .str p.contract),
    ("to", .str p.to_address), ("data", .str p.data), ("value", .str p.value),
    ("proof_root", .str p.proof_root)]

/-- `AnchorPlan.to_dict`. -/
def AnchorPlan.toJson (p : AnchorPlan) : Json := object p.body

def AnchorVerification.body (v : AnchorVerification) : List (String × Json) :=
  [("state", .str v.state.text), ("tx_hash", JsonText.optional .str v.tx_hash),
    ("chain_id", JsonText.optional int v.chain_id),
    ("contract", JsonText.optional .str v.contract),
    ("block_number", JsonText.optional int v.block_number),
    ("reason_codes", texts v.reason_codes)]

/-- `AnchorVerification.to_dict`. -/
def AnchorVerification.toJson (v : AnchorVerification) : Json := object v.body

def FinalizationResult.body (r : FinalizationResult) : List (String × Json) :=
  [("decision_id", .str r.decision_id), ("verdict", .str r.verdict.text),
    ("state", .str r.state.text), ("proof_root", .str r.proof_root),
    ("executable", .bool r.executable),
    ("anchor_plan", JsonText.optional AnchorPlan.toJson r.anchor_plan),
    ("anchor_verification", JsonText.optional AnchorVerification.toJson r.anchor_verification),
    ("reason_codes", texts r.reason_codes)]

/-- `FinalizationResult.to_dict`. -/
def FinalizationResult.toJson (r : FinalizationResult) : Json := object r.body

end Values

section Reading

variable [Interpreter]

/-- `int(data[k]) if data.get(k) is not None else None`. -/
def intOrNone (k : String) (data : Json) : Except GuardError (Option ℤ) :=
  match field k data with
  | none => return none
  | some .null => return none
  | some v => do
    let n ← intOf v
    return some n

/-- `from_dict(dict(v)) if v else None`, of `data.get(k)`. -/
def nested {α : Type} (ofJson : Json → Except GuardError α) (k : String) (data : Json) :
    Except GuardError (Option α) :=
  match (field k data).filter truthy with
  | none => return none
  | some v => do
    let fields ← dictOf v
    let a ← ofJson fields
    return some a

/-- `AnchorPlan.from_dict`. -/
def AnchorPlan.ofJson (data : Json) : Except GuardError AnchorPlan := do
  return {
    chain_id := ← intOf (← required "chain_id" data)
    network := ← textAt "network" data
    contract := ← textAt "contract" data
    to_address := ← textAt "to" data
    data := ← textAt "data" data
    value := ← textAt "value" data
    proof_root := ← textAt "proof_root" data }

/-- `AnchorVerification.from_dict`. -/
def AnchorVerification.ofJson (data : Json) : Except GuardError AnchorVerification := do
  return {
    state := ← AnchorState.ofText (← textAt "state" data)
    tx_hash := (field "tx_hash" data).bind textOrNone
    chain_id := ← intOrNone "chain_id" data
    contract := (field "contract" data).bind textOrNone
    block_number := ← intOrNone "block_number" data
    reason_codes := ← textsAt "reason_codes" data }

/-- `FinalizationResult.from_dict`. -/
def FinalizationResult.ofJson (data : Json) : Except GuardError FinalizationResult := do
  return {
    decision_id := ← textAt "decision_id" data
    verdict := ← Verdict.ofText (← textAt "verdict" data)
    state := ← AnchorState.ofText (← textAt "state" data)
    proof_root := ← textAt "proof_root" data
    executable := boolOf (← required "executable" data)
    anchor_plan := ← nested AnchorPlan.ofJson "anchor_plan" data
    anchor_verification := ← nested AnchorVerification.ofJson "anchor_verification" data
    reason_codes := ← textsAt "reason_codes" data }

omit [Interpreter] in
/-- A text that is not empty. -/
def supplied (text : Option String) : Option String := text.filter (fun s => s ≠ "")

/-- A verification as it is read back: empty texts are none. -/
def AnchorVerification.reread (v : AnchorVerification) : AnchorVerification :=
  { v with tx_hash := supplied v.tx_hash, contract := supplied v.contract }

def FinalizationResult.reread (r : FinalizationResult) : FinalizationResult :=
  { r with anchor_verification := r.anchor_verification.map AnchorVerification.reread }

theorem textOrNone_supplied (o : Option String) :
    textOrNone (JsonText.optional .str o) = supplied o := by
  cases o with
  | none => rfl
  | some s =>
    by_cases hs : s = ""
    · subst hs
      rfl
    · unfold textOrNone JsonText.optional supplied
      simp [truthy, strOf, hs, Option.filter]

theorem intOrNone_of {k : String} {data : Json} {o : Option ℤ}
    (h : field k data = some (JsonText.optional int o)) : intOrNone k data = .ok o := by
  unfold intOrNone
  rw [h]
  cases o with
  | none => rfl
  | some n =>
    change (do let m ← intOf (int n); pure (some m)) = _
    rw [intOf_int, ok_bind]
    rfl

omit [Interpreter] in
theorem truthy_object {l : List (String × Json)} (h : l ≠ []) : truthy (object l) = true := by
  have hlength : (byKey l).length = l.length := List.length_insertionSort ..
  have hne : byKey l ≠ [] := by
    intro hnil
    rw [hnil] at hlength
    exact h (List.length_eq_zero_iff.mp hlength.symm)
  cases hb : byKey l with
  | nil => exact absurd hb hne
  | cons a rest => simp [truthy, object, hb]

omit [Interpreter] in
theorem nested_of {α β : Type} {ofJson : Json → Except GuardError α}
    {b : β → List (String × Json)} {k : String} {data : Json} {o : Option β} {read : β → α}
    (h : field k data = some (JsonText.optional (fun v => object (b v)) o))
    (hne : ∀ v, b v ≠ []) (hread : ∀ v, ofJson (object (b v)) = .ok (read v)) :
    nested ofJson k data = .ok (o.map read) := by
  unfold nested
  rw [h]
  cases o with
  | none => rfl
  | some v =>
    have hfilter : (some (JsonText.optional (fun v => object (b v)) (some v))).filter truthy =
        some (object (b v)) := by
      simp [JsonText.optional, Option.filter, truthy_object (hne v)]
    rw [hfilter]
    change (do let fields ← dictOf (object (b v)); let a ← ofJson fields; pure (some a)) = _
    rw [show dictOf (object (b v)) = .ok (object (b v)) from rfl, ok_bind, hread, ok_bind]
    rfl

theorem AnchorPlan.ofJson_toJson (p : AnchorPlan) : ofJson p.toJson = .ok p := by
  have hkeys : (p.body.map Prod.fst).Nodup := by simp [body]
  have hfield : ∀ k, field k p.toJson = Dict.find k p.body := field_object hkeys
  have htext : ∀ {k s}, Dict.find k p.body = some (.str s) → textAt k p.toJson = .ok s :=
    fun hk => textAt_of (by rw [hfield, hk])
  have hchain : required "chain_id" p.toJson = .ok (int p.chain_id) := required_of (hfield _)
  unfold ofJson
  simp only [hchain, intOf_int, htext (k := "network") rfl, htext (k := "contract") rfl,
    htext (k := "to") rfl, htext (k := "data") rfl, htext (k := "value") rfl,
    htext (k := "proof_root") rfl, ok_bind]
  rfl

theorem AnchorVerification.ofJson_toJson (v : AnchorVerification) :
    ofJson v.toJson = .ok v.reread := by
  have hkeys : (v.body.map Prod.fst).Nodup := by simp [body]
  have hfield : ∀ k, field k v.toJson = Dict.find k v.body := field_object hkeys
  have hstate : textAt "state" v.toJson = .ok v.state.text := textAt_of (hfield _)
  have htx : (field "tx_hash" v.toJson).bind textOrNone = supplied v.tx_hash := by
    rw [hfield]
    exact textOrNone_supplied _
  have hcontract : (field "contract" v.toJson).bind textOrNone = supplied v.contract := by
    rw [hfield]
    exact textOrNone_supplied _
  have hchain : intOrNone "chain_id" v.toJson = .ok v.chain_id := intOrNone_of (hfield _)
  have hblock : intOrNone "block_number" v.toJson = .ok v.block_number := intOrNone_of (hfield _)
  have hreasons : textsAt "reason_codes" v.toJson = .ok v.reason_codes := textsAt_of (hfield _)
  unfold ofJson
  simp only [hstate, AnchorState.ofText_text, htx, hcontract, hchain, hblock, hreasons, ok_bind]
  rfl

/-- A finalization is read back from its body. -/
theorem FinalizationResult.ofJson_toJson (r : FinalizationResult) :
    ofJson r.toJson = .ok r.reread := by
  have hkeys : (r.body.map Prod.fst).Nodup := by simp [body]
  have hfield : ∀ k, field k r.toJson = Dict.find k r.body := field_object hkeys
  have htext : ∀ {k s}, Dict.find k r.body = some (.str s) → textAt k r.toJson = .ok s :=
    fun hk => textAt_of (by rw [hfield, hk])
  have hexecutable : required "executable" r.toJson = .ok (.bool r.executable) :=
    required_of (hfield _)
  have hplan : nested AnchorPlan.ofJson "anchor_plan" r.toJson = .ok r.anchor_plan := by
    have hread : nested AnchorPlan.ofJson "anchor_plan" r.toJson = .ok (r.anchor_plan.map id) :=
      nested_of (b := AnchorPlan.body) (hfield _) (by simp [AnchorPlan.body])
        AnchorPlan.ofJson_toJson
    simpa using hread
  have hverification : nested AnchorVerification.ofJson "anchor_verification" r.toJson =
      .ok (r.anchor_verification.map AnchorVerification.reread) :=
    nested_of (b := AnchorVerification.body) (hfield _) (by simp [AnchorVerification.body])
      AnchorVerification.ofJson_toJson
  have hreasons : textsAt "reason_codes" r.toJson = .ok r.reason_codes := textsAt_of (hfield _)
  unfold ofJson
  simp only [htext (k := "decision_id") rfl, htext (k := "verdict") rfl, Verdict.ofText_text,
    htext (k := "state") rfl, AnchorState.ofText_text, htext (k := "proof_root") rfl, hexecutable,
    hplan, hverification, hreasons, ok_bind]
  rfl

end Reading

section Finalization

/-- The bodies that the memory keeps of subjects, decisions and finalizations. -/
structure Vault where
  subjects : Dict Digest Json
  decisions : Dict Digest Json
  finalizations : Dict Digest Json

def Vault.blank : Vault := ⟨.empty, .empty, .empty⟩

/-- The states in which a verification is kept, and binds its transaction. -/
def Binding (state : AnchorState) : Prop := state = .pending ∨ state = .verified

instance (state : AnchorState) : Decidable (Binding state) :=
  inferInstanceAs (Decidable (_ ∨ _))

/-- The anchor adapter of a guard. It does not confirm another transaction than
the one it was asked about. -/
structure AnchorPort where
  plan : DecisionDraft → Except GuardError (Option AnchorPlan)
  verify : DecisionDraft → String → Except GuardError AnchorVerification
  names : ∀ d h v, verify d h = .ok v → Binding v.state → v.tx_hash = some h

/-- `DisabledAnchorAdapter`. -/
def disabledAnchor : AnchorPort where
  plan _ := .ok none
  verify _ _ := .ok ⟨.failed, none, none, none, none, ["base_anchor_not_configured"]⟩
  names := by
    intro d h v hv hbinding
    cases hv
    rcases hbinding with hstate | hstate
    · cases hstate
    · cases hstate

/-- The states that no call moves on from. -/
def Terminal (state : AnchorState) : Prop :=
  state = .verified ∨ state = .localFinalized ∨ state = .failed

instance (state : AnchorState) : Decidable (Terminal state) :=
  inferInstanceAs (Decidable (_ ∨ _))

/-- The transaction of a finalization. -/
def FinalizationResult.transaction (r : FinalizationResult) : Option String :=
  r.anchor_verification.bind AnchorVerification.tx_hash

/-- Whether a stored finalization belongs to a decision. -/
def Matches (r : FinalizationResult) (d : DecisionDraft) : Prop :=
  r.decision_id = d.decision_id ∧ r.verdict = d.verdict ∧ r.proof_root = d.proof_root

instance (r : FinalizationResult) (d : DecisionDraft) : Decidable (Matches r d) :=
  inferInstanceAs (Decidable (_ ∧ _))

/-- What a stored finalization answers, if it does. -/
def answerExisting (decision : DecisionDraft) (existing : FinalizationResult)
    (tx : Option String) : Except GuardError (Option FinalizationResult) := do
  ensure (Matches existing decision)
    (.integrity "stored finalization does not match decision proof")
  if Terminal existing.state then
    ensure (¬ (existing.state = .verified ∧ tx.isSome ∧ tx ≠ existing.transaction))
      (.finalization "decision is already verified with a different transaction")
    return some existing
  ensure (¬ (existing.state = .pending ∧ tx.isSome ∧
      ∃ v ∈ existing.anchor_verification, tx ≠ v.tx_hash))
    (.finalization "pending finalization is bound to a different transaction")
  return if tx.isNone then some existing else none

def answerStored (decision : DecisionDraft) (stored : Option FinalizationResult)
    (tx : Option String) : Except GuardError (Option FinalizationResult) :=
  match stored with
  | none => return none
  | some existing => answerExisting decision existing tx

/-- The result of a verification. Nothing is executed, also when it succeeds. -/
def confirmed (decision : DecisionDraft) (verification : AnchorVerification) :
    FinalizationResult where
  decision_id := decision.decision_id
  verdict := decision.verdict
  state := verification.state
  proof_root := decision.proof_root
  executable := false
  anchor_plan := none
  anchor_verification := some verification
  reason_codes := verification.reason_codes ++
    (if decision.verdict = .ready ∧ verification.state = .verified then
      ["execution_adapter_not_implemented"] else [])

/-- A result that no verification stands behind. -/
def unverified (decision : DecisionDraft) (plan : Option AnchorPlan) (state : AnchorState)
    (reason_codes : List String) : FinalizationResult where
  decision_id := decision.decision_id
  verdict := decision.verdict
  state := state
  proof_root := decision.proof_root
  executable := false
  anchor_plan := plan
  anchor_verification := none
  reason_codes := reason_codes

/-- The result of a call without a transaction. -/
def planned (decision : DecisionDraft) (plan : Option AnchorPlan) : FinalizationResult :=
  if plan.isSome then
    unverified decision plan .confirmationRequired ["user_wallet_confirmation_required"]
  else if decision.verdict = .ready then
    unverified decision none .failed ["base_anchor_required_before_ready_can_finalize"]
  else
    unverified decision none .localFinalized
      ["deny_or_review_finalized_locally", "base_anchor_not_configured"]

variable [Unicode] [Interpreter] [Sha256]

/-- `_key`. -/
def entityKey (value : String) : Digest := domainHash "sibyl-key" (.str value)

def Vault.subject (vault : Vault) (ref : Digest) : Option Json :=
  vault.subjects.get? (entityKey ref)

def loadDecision (vault : Vault) (decision_id : String) :
    Except GuardError (Option DecisionDraft) :=
  match vault.decisions.get? (entityKey decision_id) with
  | none => return none
  | some body => do
    let decision ← DecisionDraft.ofJson body
    return some decision

def loadFinalization (vault : Vault) (decision_id : String) :
    Except GuardError (Option FinalizationResult) :=
  match vault.finalizations.get? (entityKey decision_id) with
  | none => return none
  | some body => do
    let result ← FinalizationResult.ofJson body
    return some result

omit [Interpreter] in
def saveDecision (vault : Vault) (decision : DecisionDraft) : Vault :=
  { vault with
    decisions := vault.decisions.set (entityKey decision.decision_id) decision.toJson }

omit [Interpreter] in
def saveFinalization (vault : Vault) (result : FinalizationResult) : Vault :=
  { vault with
    finalizations := vault.finalizations.set (entityKey result.decision_id) result.toJson }

/-- A READY decision is finalized on the memory that it was made on. -/
def checkCurrent (vault : Vault) (decision : DecisionDraft) : Except GuardError Unit := do
  let loaded ← loadSubject (vault.subject decision.subject_ref)
  let current ← fetch loaded
    (.finalization "decision subject memory is no longer available")
  validateSubject current
  ensure (current.version = decision.memory_version ∧ current.memory_root = decision.memory_root)
    (.finalization "subject memory changed after READY draft; decide again before finalization")

/-- The stored decision, where it may still be finalized. -/
def finalizable (guard : Guard) (now : DateTime) (vault : Vault) (decision_id : String) :
    Except GuardError DecisionDraft := do
  validateMachineIdentifier "decision_id" decision_id
  let loaded ← loadDecision vault decision_id
  let decision ← fetch loaded (.notFound "decision was not found")
  validateDecision decision
  ensure (now.instant < decision.expires_at.instant)
    (.finalization "decision draft expired; decide again")
  ensure (decision.policy_hash = guard.policy_hash)
    (.finalization "decision policy changed; decide again before finalization")
  if decision.verdict = .ready then checkCurrent vault decision
  return decision

/-- `finalize`. -/
def finalize (guard : Guard) (anchor : AnchorPort) (now : DateTime) (vault : Vault)
    (decision_id : String) (confirmation_tx_hash : Option String) :
    Except GuardError (Vault × FinalizationResult) := do
  let decision ← finalizable guard now vault decision_id
  let tx := supplied confirmation_tx_hash
  let stored ← loadFinalization vault decision_id
  match ← answerStored decision stored tx with
  | some result => return (vault, result)
  | none =>
    match tx with
    | some h => do
      let verification ← anchor.verify decision h
      let result := confirmed decision verification
      -- A failed verification is reported and not kept.
      return (if Binding verification.state then saveFinalization vault result else vault, result)
    | none => do
      let plan ← anchor.plan decision
      let result := planned decision plan
      return (saveFinalization vault result, result)

/-- `inspect_finalization`. -/
def inspectFinalization (vault : Vault) (decision_id : String) :
    Except GuardError FinalizationResult := do
  validateMachineIdentifier "decision_id" decision_id
  let loaded ← loadDecision vault decision_id
  let decision ← fetch loaded (.notFound "decision was not found")
  validateDecision decision
  let stored ← loadFinalization vault decision_id
  let result ← fetch stored (.notFound "decision has not been finalized")
  ensure (Matches result decision)
    (.integrity "stored finalization does not match decision proof")
  return result

end Finalization

section Cases

variable [Unicode] [Interpreter] [Sha256] {guard : Guard} {anchor : AnchorPort} {now : DateTime}
  {vault vault' : Vault} {decision_id : String} {tx : Option String}
  {decision : DecisionDraft} {result : FinalizationResult}

/-- A decision that passed the checks of a finalization. -/
structure Finalizable (guard : Guard) (now : DateTime) (vault : Vault) (decision_id : String)
    (decision : DecisionDraft) : Prop where
  loaded : loadDecision vault decision_id = .ok (some decision)
  unexpired : now.instant < decision.expires_at.instant
  policy : decision.policy_hash = guard.policy_hash
  current : decision.verdict = .ready → ∃ subject,
    loadSubject (vault.subject decision.subject_ref) = .ok (some subject) ∧
      subject.version = decision.memory_version ∧ subject.memory_root = decision.memory_root

theorem finalizable_ok (h : finalizable guard now vault decision_id = .ok decision) :
    Finalizable guard now vault decision_id decision := by
  simp only [finalizable, bind_eq_ok, fetch_eq_ok, ensure_eq_ok] at h
  obtain ⟨_, _, loaded, hload, d, rfl, _, _, _, hlive, _, hpolicy, h⟩ := h
  by_cases hready : d.verdict = .ready
  · simp only [hready, if_true, checkCurrent, bind_eq_ok, fetch_eq_ok, ensure_eq_ok,
      pure_eq_ok] at h
    obtain ⟨_, ⟨loaded, hsubject, subject, rfl, _, _, hversion, hroot⟩, rfl⟩ := h
    exact ⟨hload, hlive, hpolicy, fun _ => ⟨subject, hsubject, hversion, hroot⟩⟩
  · simp only [hready, if_false, pure_eq_ok] at h
    subst h
    exact ⟨hload, hlive, hpolicy, fun hr => absurd hr hready⟩

/-- A stored finalization that a call goes on from. -/
structure Continues (existing : FinalizationResult) (decision : DecisionDraft) (h : String) :
    Prop where
  fits : Matches existing decision
  unfinished : ¬ Terminal existing.state
  bound : existing.state = .pending → ∀ v ∈ existing.anchor_verification, v.tx_hash = some h

omit [Unicode] [Interpreter] [Sha256] in
theorem answerExisting_some {existing : FinalizationResult}
    (h : answerExisting decision existing tx = .ok (some result)) :
    result = existing ∧ Matches existing decision := by
  simp only [answerExisting, bind_eq_ok, ensure_eq_ok] at h
  obtain ⟨_, hfits, h⟩ := h
  split at h
  · simp only [bind_eq_ok, pure_eq_ok, Option.some.injEq] at h
    obtain ⟨_, _, rfl⟩ := h
    exact ⟨rfl, hfits⟩
  · simp only [bind_eq_ok, pure_eq_ok] at h
    obtain ⟨_, _, h⟩ := h
    split at h
    · cases h
      exact ⟨rfl, hfits⟩
    · cases h

omit [Unicode] [Interpreter] [Sha256] in
theorem answerExisting_none {existing : FinalizationResult}
    (h : answerExisting decision existing tx = .ok none) :
    ∃ hash, tx = some hash ∧ Continues existing decision hash := by
  simp only [answerExisting, bind_eq_ok, ensure_eq_ok] at h
  obtain ⟨_, hfits, h⟩ := h
  split at h
  · simp only [bind_eq_ok, pure_eq_ok, reduceCtorEq, and_false, exists_false] at h
  · rename_i hopen
    simp only [bind_eq_ok, ensure_eq_ok, pure_eq_ok] at h
    obtain ⟨_, hbound, h⟩ := h
    cases tx with
    | none => simp at h
    | some hash =>
      refine ⟨hash, rfl, hfits, hopen, ?_⟩
      intro hpending v hv
      by_contra hne
      exact hbound ⟨hpending, rfl, v, hv, fun heq => hne heq.symm⟩

omit [Unicode] [Interpreter] [Sha256] in
/-- A stored finalization answers a call without a transaction. -/
theorem answerExisting_kept {decision : DecisionDraft} {existing : FinalizationResult}
    (hfits : Matches existing decision) :
    answerExisting decision existing none = .ok (some existing) := by
  unfold answerExisting
  rw [(ensure_eq_ok (u := ())).mpr hfits, ok_bind]
  split
  · rw [(ensure_eq_ok (u := ())).mpr (by simp), ok_bind]
    rfl
  · rw [(ensure_eq_ok (u := ())).mpr (by simp), ok_bind]
    rfl

/-- What a call does to a decision that may be finalized. -/
inductive Finalizes (anchor : AnchorPort) (vault : Vault) (decision_id : String)
    (decision : DecisionDraft) : Vault → FinalizationResult → Prop
  | stored {result : FinalizationResult}
      (loaded : loadFinalization vault decision_id = .ok (some result))
      (fits : Matches result decision) :
      Finalizes anchor vault decision_id decision vault result
  | verified {hash : String} {verification : AnchorVerification} (given : hash ≠ "")
      (verifies : anchor.verify decision hash = .ok verification)
      (before : ∀ existing, loadFinalization vault decision_id = .ok (some existing) →
        Continues existing decision hash) :
      Finalizes anchor vault decision_id decision
        (if Binding verification.state then saveFinalization vault (confirmed decision verification)
          else vault) (confirmed decision verification)
  | planned {plan : Option AnchorPlan} (new : loadFinalization vault decision_id = .ok none)
      (plans : anchor.plan decision = .ok plan) :
      Finalizes anchor vault decision_id decision
        (saveFinalization vault (Finalizing.planned decision plan))
        (Finalizing.planned decision plan)

omit [Unicode] [Interpreter] [Sha256] in
theorem supplied_eq_some {hash : String} (h : supplied tx = some hash) : hash ≠ "" := by
  unfold supplied at h
  simp only [Option.filter_eq_some_iff] at h
  simpa using h.2

theorem finalize_cases
    (h : finalize guard anchor now vault decision_id tx = .ok (vault', result)) :
    ∃ decision, Finalizable guard now vault decision_id decision ∧
      Finalizes anchor vault decision_id decision vault' result := by
  simp only [finalize, bind_eq_ok] at h
  obtain ⟨decision, hfinalizable, existing, hexisting, answered, hanswered, h⟩ := h
  refine ⟨decision, finalizable_ok hfinalizable, ?_⟩
  cases answered with
  | some r =>
    simp only [pure_eq_ok, Prod.mk.injEq] at h
    obtain ⟨rfl, rfl⟩ := h
    cases existing with
    | none => simp only [answerStored, pure_eq_ok, reduceCtorEq] at hanswered
    | some e =>
      obtain ⟨rfl, hfits⟩ := answerExisting_some hanswered
      exact .stored hexisting hfits
  | none =>
    cases htx : supplied tx with
    | some hash =>
      rw [htx] at h hanswered
      simp only [bind_eq_ok, pure_eq_ok, Prod.mk.injEq] at h
      obtain ⟨verification, hverifies, rfl, rfl⟩ := h
      refine .verified (supplied_eq_some htx) hverifies ?_
      intro e he
      rw [hexisting] at he
      cases he
      obtain ⟨hash', hsame, hcontinues⟩ := answerExisting_none hanswered
      cases hsame
      exact hcontinues
    | none =>
      rw [htx] at h hanswered
      simp only [bind_eq_ok, pure_eq_ok, Prod.mk.injEq] at h
      obtain ⟨plan, hplans, rfl, rfl⟩ := h
      cases existing with
      | none => exact .planned hexisting hplans
      | some e =>
        obtain ⟨hash', hsame, _⟩ := answerExisting_none hanswered
        cases hsame

end Cases

section Calls

/-- What can be asked of a payment guard, with what its surroundings answer. -/
inductive GuardCall
  | observe (around : Surroundings) (observation : Observation)
  | decide (guard : Guard) (around : DecisionSurroundings) (intent : PaymentIntent)
  | finalize (guard : Guard) (anchor : AnchorPort) (now : DateTime) (decision_id : String)
      (tx : Option String)
  | inspect (decision_id : String)

inductive Answer
  | observed (receipt : ObservationReceipt)
  | decided (decision : DecisionDraft)
  | finalized (result : FinalizationResult)

variable [Unicode] [Interpreter] [Sha256]

omit [Interpreter] in
def Vault.keepSubject (vault : Vault) (ref : Digest) (body : Option Json) : Vault :=
  match body with
  | none => vault
  | some b => { vault with subjects := vault.subjects.set (entityKey ref) b }

def serveCall (vault : Vault) : GuardCall → Except GuardError (Vault × Answer)
  | .observe around observation => do
    let ref := subjectRef observation.subject_id
    let (body, receipt) ← observe around (vault.subject ref) observation
    return (vault.keepSubject ref body, .observed receipt)
  | .decide guard around intent => do
    let decision ← decideIntent guard around (vault.subject (subjectRef intent.subject_id)) intent
    return (saveDecision vault decision, .decided decision)
  | .finalize guard anchor now decision_id tx => do
    let (vault, result) ← finalize guard anchor now vault decision_id tx
    return (vault, .finalized result)
  | .inspect decision_id => do
    let result ← inspectFinalization vault decision_id
    return (vault, .finalized result)

structure GuardStep where
  call : GuardCall
  pre : Vault
  post : Vault
  answered : Answer

/-- The calls that one memory serves, from guards of any configuration. A call
that fails leaves the memory as it is and is no step. -/
def guarding : System Vault GuardStep where
  init := .blank
  pre := GuardStep.pre
  post := GuardStep.post
  allowed _ s := serveCall s.pre s.call = .ok (s.post, s.answered)

end Calls

section Progress

/-- The states that may follow one another. -/
def Precedes (state state' : AnchorState) : Prop :=
  state = state' ∨ state = .confirmationRequired ∧ Binding state' ∨
    state = .pending ∧ state' = .verified

theorem Precedes.trans {a b c : AnchorState} (h : Precedes a b) (h' : Precedes b c) :
    Precedes a c := by
  unfold Precedes Binding at *
  rcases h with rfl | ⟨rfl, hb⟩ | ⟨rfl, rfl⟩
  · exact h'
  · rcases h' with rfl | ⟨rfl, hc⟩ | ⟨rfl, rfl⟩
    · exact Or.inr (Or.inl ⟨rfl, hb⟩)
    · exact Or.inr (Or.inl ⟨rfl, hc⟩)
    · exact Or.inr (Or.inl ⟨rfl, Or.inr rfl⟩)
  · rcases h' with rfl | ⟨h', _⟩ | ⟨h', _⟩
    · exact Or.inr (Or.inr ⟨rfl, rfl⟩)
    · cases h'
    · cases h'

/-- A finalization moves on: it stays with its decision and with the transaction
it is bound to, and once it is in a terminal state it stays as it is. -/
structure Moves (r r' : FinalizationResult) : Prop where
  decision_id : r'.decision_id = r.decision_id
  verdict : r'.verdict = r.verdict
  proof_root : r'.proof_root = r.proof_root
  state : Precedes r.state r'.state
  terminal : Terminal r.state → r' = r
  bound : Binding r.state → r'.transaction = r.transaction

theorem Moves.refl (r : FinalizationResult) : Moves r r :=
  ⟨rfl, rfl, rfl, Or.inl rfl, fun _ => rfl, fun _ => rfl⟩

theorem Precedes.binding {a b : AnchorState} (h : Precedes a b) (ha : Binding a) : Binding b := by
  unfold Precedes Binding at *
  rcases h with rfl | ⟨rfl, hb⟩ | ⟨_, rfl⟩
  · exact ha
  · exact hb
  · exact Or.inr rfl

theorem Moves.trans {r r' r'' : FinalizationResult} (h : Moves r r') (h' : Moves r' r'') :
    Moves r r'' where
  decision_id := h'.decision_id.trans h.decision_id
  verdict := h'.verdict.trans h.verdict
  proof_root := h'.proof_root.trans h.proof_root
  state := h.state.trans h'.state
  terminal := by
    intro hterminal
    have hsame := h.terminal hterminal
    subst hsame
    exact h'.terminal hterminal
  bound := fun hbound => (h'.bound (h.state.binding hbound)).trans (h.bound hbound)

/-- What every stored finalization says. -/
structure Sound (r : FinalizationResult) : Prop where
  begun : r.state ≠ .notConfigured
  inert : r.executable = false
  binds : Binding r.state → r.transaction.isSome
  local_only : r.state = .localFinalized → r.verdict ≠ .ready
  failed_ready : r.state = .failed → r.verdict = .ready

variable {decision : DecisionDraft} {plan : Option AnchorPlan} {verification : AnchorVerification}
  {hash : String}

/-- What a call without a transaction comes to. -/
theorem planned_cases (decision : DecisionDraft) (plan : Option AnchorPlan) :
    ∃ kept state reasons, planned decision plan = unverified decision kept state reasons ∧
      (state = .confirmationRequired ∨ state = .failed ∧ decision.verdict = .ready ∨
        state = .localFinalized ∧ decision.verdict ≠ .ready) := by
  unfold planned
  by_cases hplan : plan.isSome = true
  · exact ⟨_, _, _, if_pos hplan, Or.inl rfl⟩
  · rw [if_neg hplan]
    by_cases hready : decision.verdict = .ready
    · exact ⟨_, _, _, if_pos hready, Or.inr (Or.inl ⟨rfl, hready⟩)⟩
    · exact ⟨_, _, _, if_neg hready, Or.inr (Or.inr ⟨rfl, hready⟩)⟩

theorem planned_unverified : (planned decision plan).anchor_verification = none := by
  obtain ⟨kept, state, reasons, heq, _⟩ := planned_cases decision plan
  rw [heq]
  rfl

theorem planned_reread : (planned decision plan).reread = planned decision plan := by
  obtain ⟨kept, state, reasons, heq, _⟩ := planned_cases decision plan
  rw [heq]
  rfl

theorem planned_sound : Sound (planned decision plan) := by
  obtain ⟨kept, state, reasons, heq, hstate⟩ := planned_cases decision plan
  rw [heq]
  rcases hstate with rfl | ⟨rfl, hready⟩ | ⟨rfl, hready⟩
  · constructor <;> simp [unverified, Binding]
  · constructor <;> simp [unverified, Binding, hready]
  · constructor <;> simp [unverified, Binding, hready]

theorem planned_matches : Matches (planned decision plan) decision := by
  obtain ⟨kept, state, reasons, heq, _⟩ := planned_cases decision plan
  rw [heq]
  exact ⟨rfl, rfl, rfl⟩

theorem supplied_of_ne (h : hash ≠ "") : supplied (some hash) = some hash := by
  simp [supplied, Option.filter, h]

theorem confirmed_transaction (hnamed : verification.tx_hash = some hash) (hne : hash ≠ "") :
    (confirmed decision verification).reread.transaction = some hash := by
  change supplied verification.tx_hash = some hash
  rw [hnamed, supplied_of_ne hne]

theorem confirmed_sound (hbinding : Binding verification.state)
    (hnamed : verification.tx_hash = some hash) (hne : hash ≠ "") :
    Sound (confirmed decision verification).reread where
  begun := by
    intro h
    have hstate : verification.state = .notConfigured := h
    rw [hstate] at hbinding
    simp [Binding] at hbinding
  inert := rfl
  binds := by
    intro _
    rw [confirmed_transaction hnamed hne]
    rfl
  local_only := by
    intro h
    have hstate : verification.state = .localFinalized := h
    rw [hstate] at hbinding
    simp [Binding] at hbinding
  failed_ready := by
    intro h
    have hstate : verification.state = .failed := h
    rw [hstate] at hbinding
    simp [Binding] at hbinding

/-- A verification that is kept moves on what is stored. -/
theorem confirmed_moves {existing : FinalizationResult} (hsound : Sound existing)
    (hcontinues : Continues existing decision hash) (hbinding : Binding verification.state)
    (hnamed : verification.tx_hash = some hash) (hne : hash ≠ "") :
    Moves existing (confirmed decision verification).reread := by
  obtain ⟨hid, hverdict, hroot⟩ := hcontinues.fits
  refine ⟨hid.symm, hverdict.symm, hroot.symm, ?_, fun ht => absurd ht hcontinues.unfinished, ?_⟩
  · change Precedes existing.state verification.state
    have hopen := hcontinues.unfinished
    have hbegun := hsound.begun
    unfold Terminal at hopen
    unfold Precedes
    cases hstate : existing.state with
    | confirmationRequired => exact Or.inr (Or.inl ⟨rfl, hbinding⟩)
    | pending =>
      rcases hbinding with hpending | hverified
      · exact Or.inl hpending.symm
      · exact Or.inr (Or.inr ⟨rfl, hverified⟩)
    | _ => simp [hstate] at hopen hbegun
  · intro hbound
    rw [confirmed_transaction hnamed hne]
    have hpending : existing.state = .pending := by
      rcases hbound with hpending | hverified
      · exact hpending
      · exact absurd (Or.inl hverified) hcontinues.unfinished
    have hsome := hsound.binds hbound
    unfold FinalizationResult.transaction at hsome ⊢
    cases hv : existing.anchor_verification with
    | none => simp [hv] at hsome
    | some v => exact (hcontinues.bound hpending v hv).symm

end Progress

section Keeping

variable [Unicode] [Interpreter] [Sha256] {vault vault' : Vault} {call : GuardCall}
  {answered : Answer} {decision_id : String} {r : FinalizationResult} {d : DecisionDraft}

/-- What a memory keeps: each decision and each finalization under the key of its
decision, and no finalization that promises too much. -/
structure Kept (vault : Vault) : Prop where
  decision : ∀ k body, vault.decisions.get? k = some body →
    ∃ d : DecisionDraft, body = d.toJson ∧ k = entityKey d.decision_id
  finalization : ∀ k body, vault.finalizations.get? k = some body →
    ∃ r : FinalizationResult, body = r.toJson ∧ k = entityKey r.decision_id ∧ Sound r.reread

omit [Interpreter] in
theorem kept_blank : Kept .blank :=
  ⟨fun _ _ h => (by cases h), fun _ _ h => (by cases h)⟩

theorem decision_loaded {written : DecisionDraft}
    (hbody : vault.decisions.get? (entityKey decision_id) = some written.toJson)
    (hload : loadDecision vault decision_id = .ok (some d)) :
    ∃ amount, d = written.reread amount := by
  unfold loadDecision at hload
  rw [hbody] at hload
  simp only [DecisionDraft.ofJson_toJson, bind_eq_ok, pure_eq_ok, Option.some.injEq] at hload
  obtain ⟨_, hread, rfl⟩ := hload
  cases hfloat : floatOf (.num written.intent.amount_usd) with
  | error e =>
    rw [hfloat] at hread
    cases hread
  | ok amount =>
    rw [hfloat] at hread
    cases hread
    exact ⟨amount, rfl⟩

theorem Kept.decision_read (h : Kept vault)
    (hload : loadDecision vault decision_id = .ok (some d)) :
    (∃ body, vault.decisions.get? (entityKey decision_id) = some body) ∧
      entityKey d.decision_id = entityKey decision_id := by
  cases hbody : vault.decisions.get? (entityKey decision_id) with
  | none =>
    unfold loadDecision at hload
    rw [hbody] at hload
    cases hload
  | some body =>
    obtain ⟨written, rfl, hk⟩ := h.decision _ _ hbody
    obtain ⟨amount, rfl⟩ := decision_loaded hbody hload
    exact ⟨⟨_, rfl⟩, hk.symm⟩

theorem loadFinalization_written (h : vault.finalizations.get? (entityKey decision_id) =
    some r.toJson) : loadFinalization vault decision_id = .ok (some r.reread) := by
  unfold loadFinalization
  rw [h]
  change (do let result ← FinalizationResult.ofJson r.toJson; pure (some result)) = _
  rw [FinalizationResult.ofJson_toJson, ok_bind]
  rfl

theorem Kept.finalization_read (h : Kept vault)
    (hload : loadFinalization vault decision_id = .ok (some r)) :
    ∃ written : FinalizationResult,
      vault.finalizations.get? (entityKey decision_id) = some written.toJson ∧
      r = written.reread ∧ Sound r := by
  cases hbody : vault.finalizations.get? (entityKey decision_id) with
  | none =>
    unfold loadFinalization at hload
    rw [hbody] at hload
    cases hload
  | some body =>
    obtain ⟨written, rfl, _, hsound⟩ := h.finalization _ _ hbody
    rw [loadFinalization_written hbody] at hload
    cases hload
    exact ⟨written, rfl, rfl, hsound⟩

omit [Unicode] [Interpreter] [Sha256] in
theorem reread_of_toJson {r' : FinalizationResult} (h : r.toJson = r'.toJson) :
    r.reread = r'.reread := by
  let _ := strictInterpreter
  have hread := FinalizationResult.ofJson_toJson r
  rw [h, FinalizationResult.ofJson_toJson] at hread
  exact (Except.ok.inj hread).symm

/-- What is stored of every finalization moved on. -/
def Onward (vault vault' : Vault) : Prop :=
  ∀ k body, vault.finalizations.get? k = some body → ∃ r r' : FinalizationResult,
    body = r.toJson ∧ vault'.finalizations.get? k = some r'.toJson ∧ Moves r.reread r'.reread

omit [Interpreter] in
theorem Kept.onward_refl (h : Kept vault) : Onward vault vault := by
  intro k body hbody
  obtain ⟨r, rfl, _⟩ := h.finalization k body hbody
  exact ⟨r, r, rfl, hbody, Moves.refl _⟩

omit [Interpreter] in
theorem Kept.save_decision (h : Kept vault) : Kept (saveDecision vault d) := by
  refine ⟨?_, h.finalization⟩
  intro k body hbody
  rw [saveDecision, Dict.get?_set] at hbody
  split at hbody
  · rename_i hk
    cases hbody
    exact ⟨d, rfl, hk.symm⟩
  · exact h.decision k body hbody

omit [Interpreter] in
theorem Kept.save_finalization (h : Kept vault) (hsound : Sound r.reread) :
    Kept (saveFinalization vault r) := by
  refine ⟨h.decision, ?_⟩
  intro k body hbody
  rw [saveFinalization, Dict.get?_set] at hbody
  split at hbody
  · rename_i hk
    cases hbody
    exact ⟨r, rfl, hk.symm, hsound⟩
  · exact h.finalization k body hbody

omit [Interpreter] in
/-- A finalization that is saved over another one moves it on. -/
theorem Kept.onward_save (h : Kept vault)
    (hmoves : ∀ written : FinalizationResult,
      vault.finalizations.get? (entityKey r.decision_id) = some written.toJson →
      Moves written.reread r.reread) : Onward vault (saveFinalization vault r) := by
  intro k body hbody
  obtain ⟨written, rfl, _, _⟩ := h.finalization k body hbody
  rw [saveFinalization, Dict.get?_set]
  by_cases hk : entityKey r.decision_id = k
  · subst hk
    exact ⟨written, r, rfl, if_pos rfl, hmoves written hbody⟩
  · exact ⟨written, written, rfl, (if_neg hk).trans hbody, Moves.refl _⟩

/-- What a call to finalize answers of the memory that it leaves. -/
structure Answers (vault' : Vault) (decision_id : String) (r : FinalizationResult) : Prop where
  inert : r.executable = false
  kept : r.anchor_verification = none ∨ Binding r.state → ∃ written : FinalizationResult,
    vault'.finalizations.get? (entityKey decision_id) = some written.toJson ∧
      r.reread = written.reread

omit [Unicode] [Interpreter] [Sha256] in
theorem supplied_supplied (text : Option String) : supplied (supplied text) = supplied text := by
  simp [supplied]

omit [Unicode] [Interpreter] [Sha256] in
theorem reread_reread (r : FinalizationResult) : r.reread.reread = r.reread := by
  cases hv : r.anchor_verification with
  | none => simp [FinalizationResult.reread, hv]
  | some v => simp [FinalizationResult.reread, AnchorVerification.reread, hv, supplied_supplied]

theorem Kept.answers_read (h : Kept vault)
    (hload : loadFinalization vault decision_id = .ok (some r)) : Answers vault decision_id r := by
  obtain ⟨written, hwritten, rfl, hsound⟩ := h.finalization_read hload
  exact ⟨hsound.inert, fun _ => ⟨written, hwritten, reread_reread written⟩⟩

theorem finalizes_kept {anchor : AnchorPort} {decision : DecisionDraft} (hkept : Kept vault)
    (hid : entityKey decision.decision_id = entityKey decision_id)
    (h : Finalizes anchor vault decision_id decision vault' r) :
    Kept vault' ∧ Onward vault vault' ∧ Answers vault' decision_id r := by
  cases h with
  | stored hload hfits => exact ⟨hkept, hkept.onward_refl, hkept.answers_read hload⟩
  | @verified hash verification hgiven hverifies hbefore =>
    by_cases hbinding : Binding verification.state
    · rw [if_pos hbinding]
      have hnamed := anchor.names decision hash verification hverifies hbinding
      refine ⟨hkept.save_finalization (confirmed_sound hbinding hnamed hgiven),
        hkept.onward_save ?_, rfl, fun _ => ⟨_, ?_, rfl⟩⟩
      · intro written hwritten
        have hload : loadFinalization vault decision_id = .ok (some written.reread) :=
          loadFinalization_written (hid ▸ hwritten)
        obtain ⟨_, _, _, hsound⟩ := hkept.finalization_read hload
        exact confirmed_moves hsound (hbefore _ hload) hbinding hnamed hgiven
      · rw [← hid]
        exact Dict.get?_set_self ..
    · rw [if_neg hbinding]
      refine ⟨hkept, hkept.onward_refl, rfl, ?_⟩
      rintro (hnone | hbound)
      · cases hnone
      · exact absurd hbound hbinding
  | @planned plan hnew hplans =>
    obtain ⟨hsame, _, _⟩ : Matches (planned decision plan) decision := planned_matches
    have hsound : Sound (planned decision plan).reread := by
      rw [planned_reread]
      exact planned_sound
    refine ⟨hkept.save_finalization hsound, hkept.onward_save ?_, planned_sound.inert,
      fun _ => ⟨_, ?_, rfl⟩⟩
    · intro written hwritten
      rw [hsame, hid] at hwritten
      rw [loadFinalization_written hwritten] at hnew
      cases hnew
    · rw [← hid, ← hsame]
      exact Dict.get?_set_self ..

/-- The decision whose finalization a call asks for. -/
def GuardCall.about : GuardCall → Option String
  | .finalize _ _ _ decision_id _ => some decision_id
  | .inspect decision_id => some decision_id
  | .observe _ _ => none
  | .decide _ _ _ => none

theorem inspect_read (h : inspectFinalization vault decision_id = .ok r) :
    loadFinalization vault decision_id = .ok (some r) := by
  simp only [inspectFinalization, bind_eq_ok, fetch_eq_ok, pure_eq_ok] at h
  obtain ⟨_, _, _, _, _, _, _, _, stored, hload, result, rfl, _, _, rfl⟩ := h
  exact hload

/-- A call without a transaction that is made again answers the same. -/
theorem finalize_again {guard : Guard} {anchor : AnchorPort} {now : DateTime} (hkept : Kept vault)
    (h : finalize guard anchor now vault decision_id none = .ok (vault', r)) :
    finalize guard anchor now vault' decision_id none = .ok (vault', r) := by
  have hfirst := h
  simp only [finalize, bind_eq_ok] at h
  obtain ⟨decision, hfinalizable, stored, hstored, answered, hanswered, h⟩ := h
  cases answered with
  | some result =>
    simp only [pure_eq_ok, Prod.mk.injEq] at h
    obtain ⟨rfl, rfl⟩ := h
    exact hfirst
  | none =>
    have hnone : supplied none = none := rfl
    rw [hnone] at h
    simp only [bind_eq_ok, pure_eq_ok, Prod.mk.injEq] at h
    obtain ⟨plan, _, rfl, rfl⟩ := h
    have hsame : finalizable guard now (saveFinalization vault (planned decision plan))
        decision_id = .ok decision := hfinalizable
    obtain ⟨hid, _⟩ : Matches (planned decision plan) decision := planned_matches
    have hkey := (hkept.decision_read (finalizable_ok hfinalizable).loaded).2
    have hload : loadFinalization (saveFinalization vault (planned decision plan)) decision_id =
        .ok (some (planned decision plan)) := by
      have hbody : (saveFinalization vault (planned decision plan)).finalizations.get?
          (entityKey decision_id) = some (planned decision plan).toJson := by
        rw [← hkey, ← hid]
        exact Dict.get?_set_self ..
      rw [loadFinalization_written hbody, planned_reread]
    unfold finalize
    simp only [hsame, hload, ok_bind, answerStored, hnone, answerExisting_kept planned_matches]
    rfl

theorem about_of_finalized (h : serveCall vault call = .ok (vault', .finalized r)) :
    ∃ decision_id, call.about = some decision_id := by
  cases call with
  | observe around observation =>
    simp only [serveCall, bind_eq_ok, pure_eq_ok, Prod.mk.injEq] at h
    obtain ⟨⟨body, receipt⟩, _, _, hanswered⟩ := h
    cases hanswered
  | decide guard around intent =>
    simp only [serveCall, bind_eq_ok, pure_eq_ok, Prod.mk.injEq] at h
    obtain ⟨decision, _, _, hanswered⟩ := h
    cases hanswered
  | finalize guard anchor now decision_id tx => exact ⟨decision_id, rfl⟩
  | inspect decision_id => exact ⟨decision_id, rfl⟩

/-- What one call does to what is kept of finalizations. -/
theorem serve_kept (hkept : Kept vault) (h : serveCall vault call = .ok (vault', answered)) :
    Kept vault' ∧ Onward vault vault' ∧
      ∀ decision_id r, call.about = some decision_id → answered = .finalized r →
        Answers vault' decision_id r := by
  cases call with
  | observe around observation =>
    simp only [serveCall, bind_eq_ok, pure_eq_ok, Prod.mk.injEq] at h
    obtain ⟨⟨body, receipt⟩, _, rfl, rfl⟩ := h
    have hframe : (vault.keepSubject (subjectRef observation.subject_id) body).decisions =
          vault.decisions ∧
        (vault.keepSubject (subjectRef observation.subject_id) body).finalizations =
          vault.finalizations := by
      cases body with
      | none => exact ⟨rfl, rfl⟩
      | some b => exact ⟨rfl, rfl⟩
    refine ⟨⟨hframe.1 ▸ hkept.decision, hframe.2 ▸ hkept.finalization⟩, ?_,
      fun _ _ habout => by cases habout⟩
    unfold Onward
    rw [hframe.2]
    exact hkept.onward_refl
  | decide guard around intent =>
    simp only [serveCall, bind_eq_ok, pure_eq_ok, Prod.mk.injEq] at h
    obtain ⟨decision, _, rfl, rfl⟩ := h
    exact ⟨hkept.save_decision, hkept.onward_refl, fun _ _ habout => by cases habout⟩
  | finalize guard anchor now id tx =>
    simp only [serveCall, bind_eq_ok, pure_eq_ok, Prod.mk.injEq] at h
    obtain ⟨⟨next, result⟩, hfinalize, rfl, rfl⟩ := h
    obtain ⟨decision, hfinalizable, hfinalizes⟩ := finalize_cases hfinalize
    obtain ⟨_, hid⟩ := hkept.decision_read hfinalizable.loaded
    obtain ⟨hkept', honward, hanswers⟩ := finalizes_kept hkept hid hfinalizes
    refine ⟨hkept', honward, ?_⟩
    intro decision_id r habout hr
    cases habout
    cases hr
    exact hanswers
  | inspect id =>
    simp only [serveCall, bind_eq_ok, pure_eq_ok, Prod.mk.injEq] at h
    obtain ⟨result, hinspect, rfl, rfl⟩ := h
    refine ⟨hkept, hkept.onward_refl, ?_⟩
    intro decision_id r habout hr
    cases habout
    cases hr
    exact hkept.answers_read (inspect_read hinspect)

end Keeping

section Runs

variable [Unicode] [Interpreter] [Sha256] {steps before after more : List GuardStep}
  {s : GuardStep} {vault vault' : Vault} {decision_id : String} {r : FinalizationResult}

theorem kept_of_run (hrun : Run guarding steps vault) : Kept vault :=
  Run.invariant Kept kept_blank (fun _ _ _ hnow hkept => (serve_kept hkept hnow).1) hrun

omit [Unicode] [Interpreter] [Sha256] in
theorem Onward.trans {vault'' : Vault} (h : Onward vault vault') (h' : Onward vault' vault'') :
    Onward vault vault'' := by
  intro k body hbody
  obtain ⟨r, r', hr, hr', hmoves⟩ := h k body hbody
  obtain ⟨q, r'', hq, hr'', hmoves'⟩ := h' k _ hr'
  exact ⟨r, r'', hr, hr'', hmoves.trans (reread_of_toJson hq ▸ hmoves')⟩

/-- Finalizations only move on while a run goes on. -/
theorem onward_of_run (hmid : Run guarding before vault)
    (hrun : Run guarding (before ++ after) vault') : Onward vault vault' := by
  refine Run.since (fun later => Onward vault later) hmid (kept_of_run hmid).onward_refl ?_ hrun
  intro done s rest _ hbefore hnow honward
  exact honward.trans (serve_kept (kept_of_run hbefore) hnow).2.1

/-- What is answered about a finalization allows no execution. Unless it reports
a verification that failed, it is kept: at any later time the stored finalization
is of the same decision and proof, in the same state or a later one, and bound to
the same transaction if one was bound. -/
theorem answered_finalization_stands (hrun : Run guarding (before ++ s :: after) vault)
    (habout : s.call.about = some decision_id) (hanswered : s.answered = .finalized r) :
    r.executable = false ∧ (r.anchor_verification = none ∨ Binding r.state →
      ∃ r', loadFinalization vault decision_id = .ok (some r') ∧ Sound r' ∧ Moves r.reread r') := by
  obtain ⟨hpre, hnow, hpost⟩ := hrun.at_step
  obtain ⟨_, _, hanswers⟩ := serve_kept (kept_of_run hpre) hnow
  have hanswer := hanswers decision_id r habout hanswered
  refine ⟨hanswer.inert, ?_⟩
  intro hheld
  obtain ⟨written, hwritten, hsame⟩ := hanswer.kept hheld
  have hlater : Run guarding ((before ++ [s]) ++ after) vault := by
    rwa [List.append_assoc, List.singleton_append]
  obtain ⟨q, r', hq, hr', hmoves⟩ := onward_of_run hpost hlater _ _ hwritten
  have hload := loadFinalization_written hr'
  obtain ⟨_, _, _, hsound⟩ := (kept_of_run hrun).finalization_read hload
  exact ⟨r'.reread, hload, hsound, by rwa [hsame, reread_of_toJson hq]⟩

end Runs

section Memories

variable [Unicode] [Interpreter] [Sha256] {vault vault' : Vault} {call : GuardCall}
  {answered : Answer} {b b' b'' : Option Json}

/-- The stored memory of a subject is the same, or its version is a later one. -/
def Grown (b b' : Option Json) : Prop :=
  b' = b ∨ ∃ loaded m, loadSubject b = .ok loaded ∧ b' = some (SubjectMemory.toJson m) ∧
    (loaded.map SubjectMemory.version).getD 0 < m.version

omit [Unicode] [Sha256] in
theorem loadSubject_version {m : SubjectMemory} {loaded : Option SubjectMemory}
    (h : loadSubject (some m.toJson) = .ok loaded) :
    (loaded.map SubjectMemory.version).getD 0 = m.version := by
  have hkeys : ([("schema_version", Json.str "1.0"), ("subject_ref", .str m.subject_ref),
      ("version", int m.version), ("memory_root", .str m.memory_root),
      ("observations", .arr (m.observations.map StoredObservation.toJson)),
      ("updated_at", .str (isoformat m.updated_at))].map Prod.fst).Nodup := by simp
  have hversion : required "version" m.toJson = .ok (int m.version) :=
    required_of (field_object hkeys _)
  simp only [loadSubject, SubjectMemory.ofJson, hversion, ok_bind, intOf_int, bind_eq_ok,
    pure_eq_ok] at h
  obtain ⟨_, ⟨_, _, _, _, _, _, _, _, _, _, _, _, rfl⟩, rfl⟩ := h
  rfl

omit [Unicode] [Sha256] in
theorem Grown.trans (h : Grown b b') (h' : Grown b' b'') : Grown b b'' := by
  rcases h with rfl | ⟨loaded, m, hload, rfl, hlt⟩
  · exact h'
  · rcases h' with rfl | ⟨loaded', m', hload', rfl, hlt'⟩
    · exact Or.inr ⟨loaded, m, hload, rfl, hlt⟩
    · rw [loadSubject_version hload'] at hlt'
      exact Or.inr ⟨loaded, m', hload, rfl, hlt.trans hlt'⟩

omit [Unicode] [Sha256] in
/-- A memory of the same version is the same memory. -/
theorem Grown.same {around : Surroundings} {ref : Digest} {subject : SubjectMemory}
    {current : SubjectMemory} (h : Grown b b') (hbefore : currentMemory around ref b = .ok current)
    (hafter : loadSubject b' = .ok (some subject)) (hversion : subject.version = current.version) :
    b' = b := by
  rcases h with rfl | ⟨loaded, m, hload, rfl, hlt⟩
  · rfl
  · have hsubject := loadSubject_version hafter
    simp only [currentMemory, hload, ok_bind, pure_eq_ok] at hbefore
    subst hbefore
    cases loaded with
    | none =>
      simp only [Option.map_none, Option.getD_none, emptyMemory] at hlt hversion
      simp only [Option.map_some, Option.getD_some] at hsubject
      omega
    | some current =>
      simp only [Option.map_some, Option.getD_some] at hlt hversion hsubject
      omega

theorem observe_grown {around : Surroundings} {observation : Observation}
    {receipt : ObservationReceipt} (h : observe around b observation = .ok (b', receipt)) :
    Grown b b' := by
  obtain ⟨current, classification, hcurrent, _, _, hcases⟩ := observe_cases h
  rcases hcases with rfl | ⟨_, rfl⟩
  · exact Or.inl rfl
  · simp only [currentMemory, bind_eq_ok, pure_eq_ok] at hcurrent
    obtain ⟨loaded, hload, rfl⟩ := hcurrent
    refine Or.inr ⟨loaded, _, hload, rfl, ?_⟩
    change (loaded.map SubjectMemory.version).getD 0 < (loaded.getD _).version + 1
    cases loaded with
    | none =>
      change (0 : ℤ) < 0 + 1
      omega
    | some m =>
      change m.version < m.version + 1
      omega

theorem serve_subjects (h : serveCall vault call = .ok (vault', answered)) (k : Digest) :
    Grown (vault.subjects.get? k) (vault'.subjects.get? k) := by
  cases call with
  | observe around observation =>
    simp only [serveCall, bind_eq_ok, pure_eq_ok, Prod.mk.injEq] at h
    obtain ⟨⟨body, receipt⟩, hobserve, rfl, rfl⟩ := h
    cases body with
    | none => exact Or.inl rfl
    | some body =>
      change Grown _ ((vault.subjects.set _ body).get? k)
      rw [Dict.get?_set]
      by_cases hk : entityKey (subjectRef observation.subject_id) = k
      · rw [if_pos hk]
        subst hk
        exact observe_grown hobserve
      · rw [if_neg hk]
        exact Or.inl rfl
  | decide guard around intent =>
    simp only [serveCall, bind_eq_ok, pure_eq_ok, Prod.mk.injEq] at h
    obtain ⟨decision, _, rfl, rfl⟩ := h
    exact Or.inl rfl
  | finalize guard anchor now id tx =>
    simp only [serveCall, bind_eq_ok, pure_eq_ok, Prod.mk.injEq] at h
    obtain ⟨⟨next, result⟩, hfinalize, rfl, rfl⟩ := h
    obtain ⟨decision, _, hfinalizes⟩ := finalize_cases hfinalize
    cases hfinalizes with
    | stored => exact Or.inl rfl
    | verified =>
      split
      · exact Or.inl rfl
      · exact Or.inl rfl
    | planned => exact Or.inl rfl
  | inspect id =>
    simp only [serveCall, bind_eq_ok, pure_eq_ok, Prod.mk.injEq] at h
    obtain ⟨result, _, rfl, rfl⟩ := h
    exact Or.inl rfl

end Memories

section Currency

variable [Unicode] [Interpreter] [Sha256] {steps before after more : List GuardStep}
  {s : GuardStep} {vault vault' : Vault} {call : GuardCall} {answered : Answer}
  {decision_id : String} {tx : Option String} {r : FinalizationResult}

/-- A step that decides. -/
structure Decides (t : GuardStep) (guard : Guard) (around : DecisionSurroundings)
    (intent : PaymentIntent) (d : DecisionDraft) : Prop where
  asked : t.call = .decide guard around intent
  answered : t.answered = .decided d

theorem serve_decisions (h : serveCall vault call = .ok (vault', answered)) :
    vault'.decisions = vault.decisions ∨ ∃ guard around intent d,
      call = .decide guard around intent ∧ answered = .decided d ∧
        vault'.decisions = vault.decisions.set (entityKey d.decision_id) d.toJson := by
  cases call with
  | observe around observation =>
    simp only [serveCall, bind_eq_ok, pure_eq_ok, Prod.mk.injEq] at h
    obtain ⟨⟨body, receipt⟩, _, rfl, rfl⟩ := h
    cases body with
    | none => exact Or.inl rfl
    | some body => exact Or.inl rfl
  | decide guard around intent =>
    simp only [serveCall, bind_eq_ok, pure_eq_ok, Prod.mk.injEq] at h
    obtain ⟨decision, _, rfl, rfl⟩ := h
    exact Or.inr ⟨guard, around, intent, decision, rfl, rfl, rfl⟩
  | finalize guard anchor now id tx =>
    simp only [serveCall, bind_eq_ok, pure_eq_ok, Prod.mk.injEq] at h
    obtain ⟨⟨next, result⟩, hfinalize, rfl, rfl⟩ := h
    obtain ⟨decision, _, hfinalizes⟩ := finalize_cases hfinalize
    cases hfinalizes with
    | stored => exact Or.inl rfl
    | verified =>
      split
      · exact Or.inl rfl
      · exact Or.inl rfl
    | planned => exact Or.inl rfl
  | inspect id =>
    simp only [serveCall, bind_eq_ok, pure_eq_ok, Prod.mk.injEq] at h
    obtain ⟨result, _, rfl, rfl⟩ := h
    exact Or.inl rfl

/-- Every stored decision was made by an earlier step. -/
theorem decided_of_stored (hrun : Run guarding steps vault) {k : Digest} {body : Json}
    (h : vault.decisions.get? k = some body) : ∃ before t after guard around intent d,
      steps = before ++ t :: after ∧ Decides t guard around intent d ∧ body = d.toJson := by
  induction hrun with
  | start => cases h
  | @next steps s hbefore hnow ih =>
    have hearlier : (guarding.pre s).decisions.get? k = some body →
        ∃ before t after guard around intent d, steps ++ [s] = before ++ t :: after ∧
          Decides t guard around intent d ∧ body = d.toJson := by
      intro hpre
      obtain ⟨before, t, after, guard, around, intent, d, hsteps, hdecides, hbody⟩ := ih hpre
      exact ⟨before, t, after ++ [s], guard, around, intent, d, by simp [hsteps], hdecides, hbody⟩
    rcases serve_decisions hnow with hsame | ⟨guard, around, intent, d, hcall, hanswered, hset⟩
    · exact hearlier (hsame ▸ h)
    · change s.post.decisions.get? k = some body at h
      rw [hset, Dict.get?_set] at h
      by_cases hk : entityKey d.decision_id = k
      · rw [if_pos hk] at h
        cases h
        exact ⟨steps, s, [], guard, around, intent, d, rfl, ⟨hcall, hanswered⟩, rfl⟩
      · rw [if_neg hk] at h
        exact hearlier h

/-- The memories of all subjects only grow. -/
theorem grown_of_run (hmid : Run guarding before vault)
    (hrun : Run guarding (before ++ after) vault') (k : Digest) :
    Grown (vault.subjects.get? k) (vault'.subjects.get? k) := by
  refine Run.since (fun later => Grown (vault.subjects.get? k) (later.subjects.get? k)) hmid
    (Or.inl rfl) ?_ hrun
  intro done s rest _ hbefore hnow hgrown
  exact hgrown.trans (serve_subjects hnow k)

omit [Unicode] [Interpreter] [Sha256] in
theorem instant_reread (d : DateTime) : (JsonReading.reread d).instant = d.instant := by
  by_cases haware : d.Aware
  · rw [reread_of_aware haware]
  · have hnone : d.offset = none := by simpa [DateTime.Aware] using haware
    rw [JsonReading.reread, if_neg haware]
    unfold DateTime.instant DateTime.inUtc
    simp only [hnone, Option.map_some, Option.map_none, Option.getD_some, Option.getD_none]
    rfl

theorem finalizes_verdict {anchor : AnchorPort} {decision : DecisionDraft}
    (h : Finalizes anchor vault decision_id decision vault' r) :
    r.verdict = decision.verdict ∧ r.proof_root = decision.proof_root := by
  cases h with
  | stored hload hfits => exact hfits.2
  | verified => exact ⟨rfl, rfl⟩
  | planned hnew hplans => exact planned_matches.2

/-- A call to finalize answers for a decision that passed the checks. -/
theorem finalizes_of_step {guard : Guard} {anchor : AnchorPort} {now : DateTime}
    (hnow : serveCall s.pre s.call = .ok (s.post, s.answered))
    (hcall : s.call = .finalize guard anchor now decision_id tx)
    (hanswered : s.answered = .finalized r) : ∃ decision,
      Finalizable guard now s.pre decision_id decision ∧
        Finalizes anchor s.pre decision_id decision s.post r := by
  rw [hcall] at hnow
  simp only [serveCall, bind_eq_ok, pure_eq_ok, Prod.mk.injEq] at hnow
  obtain ⟨⟨next, result⟩, hfinalize, rfl, hresult⟩ := hnow
  rw [hanswered] at hresult
  cases hresult
  exact finalize_cases hfinalize

/-- What a READY decision rests on that passes the checks: it was made by an
earlier step of the run, and the memory that is stored is the one this step read. -/
structure Rests (steps : List GuardStep) (vault : Vault) (guard : Guard) (now : DateTime)
    (decision : DecisionDraft) (intent : PaymentIntent) (d : DecisionDraft) : Prop where
  made : ∃ before t after made around amount, steps = before ++ t :: after ∧
    Decides t made around intent d ∧ made.policy_hash = guard.policy_hash ∧
    decision = d.reread amount ∧
    decideIntent made around (t.pre.subject (subjectRef intent.subject_id)) intent = .ok d ∧
    vault.subject (subjectRef intent.subject_id) = t.pre.subject (subjectRef intent.subject_id) ∧
    ∃ subject, loadSubject (vault.subject (subjectRef intent.subject_id)) = .ok (some subject) ∧
      currentMemory around.toSurroundings (subjectRef intent.subject_id)
        (t.pre.subject (subjectRef intent.subject_id)) = .ok subject
  policy : decision.policy_hash = guard.policy_hash
  unexpired : now.instant < decision.expires_at.instant

theorem rests_of_finalizable {guard : Guard} {now : DateTime} {decision : DecisionDraft}
    (hrun : Run guarding steps vault) (h : Finalizable guard now vault decision_id decision)
    (hready : decision.verdict = .ready) :
    ∃ intent d, Rests steps vault guard now decision intent d := by
  obtain ⟨⟨body, hbody⟩, _⟩ := (kept_of_run hrun).decision_read h.loaded
  obtain ⟨before, t, after, made, around, intent, d, rfl, hdecides, rfl⟩ :=
    decided_of_stored hrun hbody
  obtain ⟨amount, hamount⟩ := decision_loaded hbody h.loaded
  obtain ⟨hstart, hthen, _⟩ := hrun.at_step
  change serveCall t.pre t.call = .ok (t.post, t.answered) at hthen
  rw [hdecides.asked, hdecides.answered] at hthen
  simp only [serveCall, bind_eq_ok, pure_eq_ok, Prod.mk.injEq, Answer.decided.injEq] at hthen
  obtain ⟨_, hdecide, _, rfl⟩ := hthen
  obtain ⟨_, current, result, expires_at, hcurrent, _, _, _, hdraft⟩ := decideIntent_eq_ok.mp hdecide
  obtain ⟨subject, hsubject, hversion, _⟩ := h.current hready
  have hpolicy := h.policy
  rw [hamount] at hsubject hversion hpolicy
  rw [hdraft] at hsubject hversion hpolicy
  have hsame : vault.subject (subjectRef intent.subject_id) =
      t.pre.subject (subjectRef intent.subject_id) :=
    (grown_of_run hstart hrun _).same hcurrent hsubject hversion
  have hloaded : loadSubject (vault.subject (subjectRef intent.subject_id)) = .ok (some subject) :=
    hsubject
  have hmemory : current = subject := by
    rw [← hsame, currentMemory, hloaded] at hcurrent
    cases hcurrent
    rfl
  subst hmemory
  exact ⟨intent, _, ⟨before, t, after, made, around, amount, rfl, hdecides, hpolicy, hamount,
    hdecide, hsame, current, hloaded, hcurrent⟩, h.policy, h.unexpired⟩

/-- A finalization that is answered for a READY decision: the decision was made
earlier, under the same policy, and has not expired; the memory of its subject is
the one it was made on, and in it nothing denies the payment. -/
theorem ready_answer_current {guard : Guard} {anchor : AnchorPort} {now : DateTime}
    (hrun : Run guarding (steps ++ [s]) vault)
    (hcall : s.call = .finalize guard anchor now decision_id tx)
    (hanswered : s.answered = .finalized r) (hready : r.verdict = .ready) :
    ∃ before t after made around intent d, steps = before ++ t :: after ∧
      Decides t made around intent d ∧ d.verdict = .ready ∧ d.proof_root = r.proof_root ∧
      made.policy_hash = guard.policy_hash ∧ now.instant < d.expires_at.instant ∧
      s.pre.subject (subjectRef intent.subject_id) =
        t.pre.subject (subjectRef intent.subject_id) ∧
      ∃ subject, loadSubject (s.pre.subject (subjectRef intent.subject_id)) = .ok (some subject) ∧
        ∀ item ∈ subject.observations, ¬ Blocks intent item := by
  obtain ⟨hpre, hnow, _⟩ := hrun.snoc
  obtain ⟨decision, hfinalizable, hfinalizes⟩ := finalizes_of_step hnow hcall hanswered
  obtain ⟨hverdict, hroot⟩ := finalizes_verdict hfinalizes
  obtain ⟨intent, d, ⟨before, t, after, made, around, amount, hsteps, hdecides, hpolicy, rfl,
    hdecide, hsame, subject, hsubject, hcurrent⟩, _, hunexpired⟩ :=
    rests_of_finalizable hpre hfinalizable (hverdict.symm.trans hready)
  rw [show DecisionDraft.expires_at _ = JsonReading.reread d.expires_at from rfl,
    instant_reread] at hunexpired
  have hallowed : d.verdict = .ready := hverdict.symm.trans hready
  refine ⟨before, t, after, made, around, intent, d, hsteps, hdecides, hallowed, hroot.symm,
    hpolicy, hunexpired, hsame, subject, hsubject, ?_⟩
  intro item hitem hblocks
  obtain ⟨_, current, result, expires_at, hread, _, hresult, _, rfl⟩ :=
    decideIntent_eq_ok.mp hdecide
  rw [hcurrent] at hread
  cases hread
  have hdeny : result.verdict = .deny := (denied_iff hresult).mpr ⟨item, hitem, hblocks⟩
  have hallowed : result.verdict = .ready := hallowed
  rw [hallowed] at hdeny
  cases hdeny

/-- The finalizations of a run. What is stored only moves on, and keeps to its
transaction. An answer for a READY decision comes while the decision and its policy
are in force, on the memory that the decision was made on. Nothing is executed. -/
theorem finalizations_only_move_on (hmid : Run guarding before vault)
    (hrun : Run guarding (before ++ after) vault') :
    (∀ decision_id r, loadFinalization vault decision_id = .ok (some r) → Sound r ∧
      ∃ r', loadFinalization vault' decision_id = .ok (some r') ∧ Sound r' ∧ Moves r r') ∧
    ∀ earlier s later r, before ++ after = earlier ++ s :: later → s.answered = .finalized r →
      r.executable = false ∧
      ∀ guard anchor now decision_id tx, s.call = .finalize guard anchor now decision_id tx →
        ∃ decision, loadDecision s.pre decision_id = .ok (some decision) ∧
          r.verdict = decision.verdict ∧ (decision.verdict = .ready →
            ∃ intent d, Rests earlier s.pre guard now decision intent d) := by
  constructor
  · intro decision_id r hload
    obtain ⟨written, hwritten, rfl, hsound⟩ := (kept_of_run hmid).finalization_read hload
    obtain ⟨q, r', hq, hr', hmoves⟩ := onward_of_run hmid hrun _ _ hwritten
    have hlater := loadFinalization_written hr'
    obtain ⟨_, _, _, hsound'⟩ := (kept_of_run hrun).finalization_read hlater
    exact ⟨hsound, r'.reread, hlater, hsound', by rwa [reread_of_toJson hq]⟩
  · intro earlier s later r hsteps hanswered
    rw [hsteps] at hrun
    obtain ⟨hpre, hnow, _⟩ := hrun.at_step
    obtain ⟨_, _, hanswers⟩ := serve_kept (kept_of_run hpre) hnow
    change serveCall s.pre s.call = .ok (s.post, s.answered) at hnow
    obtain ⟨decision_id, habout⟩ := about_of_finalized (hanswered ▸ hnow)
    refine ⟨(hanswers decision_id r habout hanswered).inert, ?_⟩
    intro guard anchor now decision_id tx hcall
    obtain ⟨decision, hfinalizable, hfinalizes⟩ := finalizes_of_step hnow hcall hanswered
    refine ⟨decision, hfinalizable.loaded, (finalizes_verdict hfinalizes).1, ?_⟩
    exact fun hready => rests_of_finalizable hpre hfinalizable hready

/-- A decision that was just made passes the checks of its finalization. -/
theorem finalizable_decided {guard : Guard} {around : DecisionSurroundings} {now : DateTime}
    {intent : PaymentIntent} {d : DecisionDraft} {amount : Numeral} {store : Option Json}
    (hdecide : decideIntent guard around store intent = .ok d)
    (hname : validateMachineIdentifier "decision_id" d.decision_id = .ok ())
    (hamount : floatOf (.num d.intent.amount_usd) = .ok amount) (hread : d.reread amount = d)
    (hlive : now.instant < d.expires_at.instant)
    (hcurrent : d.verdict = .ready → checkCurrent (saveDecision vault d) d = .ok ()) :
    finalizable guard now (saveDecision vault d) d.decision_id = .ok d := by
  have hload : loadDecision (saveDecision vault d) d.decision_id = .ok (some d) := by
    have hbody : (saveDecision vault d).decisions.get? (entityKey d.decision_id) =
        some d.toJson := Dict.get?_set_self ..
    unfold loadDecision
    rw [hbody]
    change (do let decision ← DecisionDraft.ofJson d.toJson; pure (some decision)) = _
    rw [DecisionDraft.ofJson_toJson, hamount]
    change Except.ok (some (d.reread amount)) = _
    rw [hread]
  have hpolicy : d.policy_hash = guard.policy_hash := by
    obtain ⟨_, _, _, _, _, _, _, _, rfl⟩ := decideIntent_eq_ok.mp hdecide
    rfl
  unfold finalizable
  rw [hname, hload, ok_bind, ok_bind, fetch_eq_ok.mpr rfl, ok_bind, decided_valid hdecide, ok_bind,
    (ensure_eq_ok (u := ())).mpr hlive, ok_bind, (ensure_eq_ok (u := ())).mpr hpolicy, ok_bind]
  by_cases hready : d.verdict = .ready
  · rw [if_pos hready, hcurrent hready]
    rfl
  · rw [if_neg hready]
    rfl

theorem unfinalized_decided {d : DecisionDraft}
    (hnew : vault.finalizations.get? (entityKey d.decision_id) = none) :
    loadFinalization (saveDecision vault d) d.decision_id = .ok none := by
  unfold loadFinalization
  change (match vault.finalizations.get? _ with | none => _ | some body => _) = _
  rw [hnew]
  rfl

/-- The first call for a decision, without a transaction. -/
theorem finalize_first {guard : Guard} (anchor : AnchorPort) {now : DateTime} {d : DecisionDraft}
    {plan : Option AnchorPlan} (hfinalizable : finalizable guard now vault decision_id = .ok d)
    (hnew : loadFinalization vault decision_id = .ok none) (hplan : anchor.plan d = .ok plan) :
    finalize guard anchor now vault decision_id none =
      .ok (saveFinalization vault (planned d plan), planned d plan) := by
  unfold finalize
  simp only [hfinalizable, hnew, ok_bind, answerStored]
  change (do let plan ← anchor.plan d; pure _) = _
  rw [hplan]
  rfl

/-- The first call for a decision, with a transaction. -/
theorem finalize_verified {guard : Guard} (anchor : AnchorPort) {now : DateTime}
    {d : DecisionDraft} {tx_hash : String} {verification : AnchorVerification}
    (hfinalizable : finalizable guard now vault decision_id = .ok d)
    (hnew : loadFinalization vault decision_id = .ok none)
    (htx : supplied (some tx_hash) = some tx_hash)
    (hverify : anchor.verify d tx_hash = .ok verification) :
    finalize guard anchor now vault decision_id (some tx_hash) =
      .ok (if Binding verification.state then saveFinalization vault (confirmed d verification)
        else vault, confirmed d verification) := by
  unfold finalize
  simp only [hfinalizable, hnew, ok_bind, answerStored, htx]
  change (do let verification ← anchor.verify d tx_hash; pure _) = _
  rw [hverify]
  rfl

/-- A decision that was just made is finalized. -/
theorem finalize_decided {guard : Guard} {anchor : AnchorPort} {around : DecisionSurroundings}
    {now : DateTime} {intent : PaymentIntent} {subject : SubjectMemory} {d : DecisionDraft}
    {amount : Numeral} {plan : Option AnchorPlan}
    (hdecide : decideIntent guard around (vault.subject (subjectRef intent.subject_id)) intent =
      .ok d)
    (hsubject : loadSubject (vault.subject (subjectRef intent.subject_id)) = .ok (some subject))
    (hname : validateMachineIdentifier "decision_id" d.decision_id = .ok ())
    (hamount : floatOf (.num d.intent.amount_usd) = .ok amount) (hread : d.reread amount = d)
    (hlive : now.instant < d.expires_at.instant)
    (hnew : vault.finalizations.get? (entityKey d.decision_id) = none)
    (hplan : anchor.plan d = .ok plan) :
    finalize guard anchor now (saveDecision vault d) d.decision_id none =
      .ok (saveFinalization (saveDecision vault d) (planned d plan), planned d plan) := by
  have hcurrent : checkCurrent (saveDecision vault d) d = .ok () := by
    obtain ⟨_, current, result, expires_at, hcurrent, hwhole, _, _, rfl⟩ :=
      decideIntent_eq_ok.mp hdecide
    have hsame : current = subject := by
      rw [currentMemory, hsubject] at hcurrent
      cases hcurrent
      rfl
    subst hsame
    unfold checkCurrent
    change (do
      let loaded ← loadSubject (vault.subject (subjectRef intent.subject_id))
      let subject ← fetch loaded
        (.finalization "decision subject memory is no longer available")
      validateSubject subject
      ensure (subject.version = current.version ∧ subject.memory_root = current.memory_root) _) = _
    simp only [hsubject, ok_bind, fetch_eq_ok.mpr (rfl : some current = some current), hwhole]
    exact ensure_eq_ok.mpr ⟨trivial, trivial⟩
  have hfinalizable : finalizable guard now (saveDecision vault d) d.decision_id = .ok d :=
    finalizable_decided hdecide hname hamount hread hlive fun _ => hcurrent
  exact finalize_first anchor hfinalizable (unfinalized_decided hnew) hplan

/-- A decision that is made and finalized in two calls. -/
theorem run_finalized {guard : Guard} {anchor : AnchorPort} {around : DecisionSurroundings}
    {now : DateTime} {intent : PaymentIntent} {d : DecisionDraft} {tx : Option String}
    (hrun : Run guarding steps vault)
    (hdecide : decideIntent guard around (vault.subject (subjectRef intent.subject_id)) intent =
      .ok d)
    (hfinalize : finalize guard anchor now (saveDecision vault d) d.decision_id tx =
      .ok (vault', result)) : ∃ t s, Run guarding ((steps ++ [t]) ++ [s]) s.post ∧
      t.call = .decide guard around intent ∧
      s.call = .finalize guard anchor now d.decision_id tx ∧ s.answered = .finalized result := by
  let t : GuardStep :=
    ⟨.decide guard around intent, vault, saveDecision vault d, .decided d⟩
  let s : GuardStep :=
    ⟨.finalize guard anchor now d.decision_id tx, saveDecision vault d, vault', .finalized result⟩
  have ht : serveCall t.pre t.call = .ok (t.post, t.answered) := by
    simp only [t, serveCall, hdecide, ok_bind]
    rfl
  have hs : serveCall s.pre s.call = .ok (s.post, s.answered) := by
    simp only [s, serveCall, hfinalize, ok_bind]
    rfl
  have hmade : Run guarding (steps ++ [t]) t.post := .next hrun ht
  exact ⟨t, s, .next hmade hs, rfl, rfl, rfl⟩

end Currency

section Specimen

/-- A baseline for payments to the vendor. -/
def approval : Observation where
  subject_id := "vendor-0001"
  session_id := "session-0001"
  kind := .baselineApproved
  source_id := "ledger"
  facts := ⟨[("target", .text "0x00000000000000000000000000000000000000Aa"),
    ("chain_id", .integer 84532), ("method", .text "transfer"),
    ("max_amount_usd", .finite (pointZero 100))], by decide⟩
  raw_text := none
  evidence_mode := .demoFixture
  idempotency_key := "approval-key-1"
  observed_at := noon (some .utc)

def approvedFacts : Json :=
  object [("target", .str "0x00000000000000000000000000000000000000aa"),
    ("chain_id", int 84532), ("method", .str "transfer"), ("max_amount_usd", .num (pointZero 100))]

def paymentGuard : Guard := ⟨"policy", 600⟩

/-- After the baseline is observed, the payment is READY. -/
theorem exists_decided :
    letI := spelling
    letI := asciiTables
    letI := strictInterpreter
    ∃ (steps : List GuardStep) (vault : Vault) (around : DecisionSurroundings)
      (memory : SubjectMemory) (d : DecisionDraft),
      Run guarding steps vault ∧
      loadSubject (vault.subject (subjectRef vendorPayment.subject_id)) = .ok (some memory) ∧
      decideIntent paymentGuard around (vault.subject (subjectRef vendorPayment.subject_id))
        vendorPayment = .ok d ∧
      (∀ k, vault.finalizations.get? k = none) ∧ d.verdict = .ready ∧
      d.reread (pointZero 75) = d ∧ d.decision_id = newId "dec" "00000002" ∧
      d.intent.amount_usd = pointZero 75 ∧
      (noon (some .utc)).instant < d.expires_at.instant := by
  let _ := spelling
  let _ := asciiTables
  let _ := strictInterpreter
  have := spelling_nonempty
  have hcheck : checkObservation approval = .ok () := by decide +kernel
  have hclass : classifyObservation approval =
    .ok ⟨.accepted, approvedFacts, [], ["structured_fact_accepted"]⟩ := by decide +kernel
  have hintent : checkIntent vendorPayment = .ok () := by decide +kernel
  let around : Surroundings := ⟨"00000001", noon none⟩
  let deciding : DecisionSurroundings := ⟨⟨"00000002", noon none⟩, "nonce", 0⟩
  let ref := subjectRef approval.subject_id
  let item := storedObservation around approval
    ⟨.accepted, approvedFacts, [], ["structured_fact_accepted"]⟩ zeroHash
  let memory := extendMemory (emptyMemory around ref) around item
  let seen := Vault.blank.keepSubject ref (some memory.toJson)
  have hitems : memory.observations = [item] := rfl
  have hwell : ∀ item ∈ memory.observations, item.Wellformed := by
    rw [hitems]
    exact List.forall_mem_singleton.mpr (stored_wellformed hclass)
  have hreread : memory.reread = memory := rfl
  have hvalid : validateSubject memory = .ok () := validate_extend validate_empty stored_continues
  have hsubject : loadSubject (seen.subject ref) = .ok (some memory) := by
    have hbody : seen.subject ref = some memory.toJson := Dict.get?_set_self ..
    rw [hbody, loadSubject_written hwell, hreread]
  obtain ⟨receipt, hobserve⟩ : ∃ receipt, observe around none approval =
      .ok (some memory.toJson, receipt) :=
    observe_new hcheck rfl (rfl : _ = emptyMemory around ref) validate_empty rfl hclass
      (fun _ hitem => absurd hitem List.not_mem_nil)
  let result : PolicyDecision := ⟨.ready,
    ["trusted_baseline_recalled", "human_confirmation_still_required"], [item.observation_id]⟩
  have hresult : decidePayment vendorPayment 0 [item] = .ok result := by decide +kernel
  have hcurrent : currentMemory around ref (seen.subject ref) = .ok memory := by
    rw [currentMemory, hsubject]
    rfl
  obtain ⟨expires_at, hexpires, hlater, haware⟩ : ∃ expires_at ∈
      deciding.utcNow.addSeconds paymentGuard.decision_ttl,
      (noon (some .utc)).instant < expires_at.instant ∧ expires_at.Aware := by
    decide +kernel
  let decision := draftOf paymentGuard deciding vendorPayment memory result expires_at
  have hdecide : decideIntent paymentGuard deciding (seen.subject ref) vendorPayment =
      .ok decision :=
    decideIntent_eq_ok.mpr ⟨hintent, memory, result, expires_at, hcurrent, hvalid, hresult,
      hexpires, rfl⟩
  have hread : decision.reread (pointZero 75) = decision := by
    have hexpiry : JsonReading.reread expires_at = expires_at := reread_of_aware haware
    unfold DecisionDraft.reread
    rw [show decision.expires_at = expires_at from rfl, hexpiry]
    rfl
  have hfirst : serveCall Vault.blank (.observe around approval) =
      .ok (seen, .observed receipt) := by
    change (do
      let (body, receipt) ← observe around none approval
      pure (Vault.blank.keepSubject ref body, Answer.observed receipt)) = _
    rw [hobserve]
    rfl
  let first : GuardStep := ⟨.observe around approval, .blank, seen, .observed receipt⟩
  have hrun : Run guarding ([] ++ [first]) (guarding.post first) := .next .start hfirst
  exact ⟨_, seen, deciding, memory, decision, hrun, hsubject, hdecide, fun _ => rfl, rfl, hread,
    rfl, rfl, hlater⟩

/-- Without a baseline the payment is left to its reviewers. -/
structure Undecided [Unicode] [Interpreter] [Sha256] (deciding : DecisionSurroundings)
    (d : DecisionDraft) : Prop where
  decided : decideIntent paymentGuard deciding
    (Vault.blank.subject (subjectRef vendorPayment.subject_id)) vendorPayment = .ok d
  verdict : d.verdict = .needsHuman
  read : d.reread (pointZero 75) = d
  amount : d.intent.amount_usd = pointZero 75
  root : ∃ data, d.proof_root = Sha256.hexdigest data
  version : d.memory_version = 0
  chain : d.intent.chain_id = 84532
  name : d.decision_id = newId "dec" "00000001"
  live : (noon (some .utc)).instant < d.expires_at.instant

/-- The payment may be finalized as soon as it is decided. -/
theorem Undecided.finalizable [Unicode] [Interpreter] [Sha256] {deciding : DecisionSurroundings}
    {d : DecisionDraft} (h : Undecided deciding d) :
    Finalizing.finalizable paymentGuard (noon (some .utc)) (saveDecision Vault.blank d)
      d.decision_id = .ok d := by
  have hname : validateMachineIdentifier "decision_id" d.decision_id = .ok () := by
    rw [h.name]
    decide +kernel
  have hfloat : floatOf (.num d.intent.amount_usd) = .ok (pointZero 75) := by
    rw [h.amount]
    exact floatOf_floating (integer_pointZero 75)
  have hleft : d.verdict ≠ .ready := by
    rw [h.verdict]
    decide
  exact finalizable_decided h.decided hname hfloat h.read h.live fun hready => absurd hready hleft

/-- How a payment is decided for a subject that nothing is remembered of. -/
theorem decide_blank [Unicode] [Interpreter] [Sha256] {guard : Guard}
    {deciding : DecisionSurroundings} {payment : PaymentIntent} {result : PolicyDecision}
    {expires_at : DateTime} (hcheck : checkIntent payment = .ok ())
    (hresult : decidePayment payment deciding.recalled [] = .ok result)
    (hexpires : deciding.utcNow.addSeconds guard.decision_ttl = some expires_at) :
    decideIntent guard deciding (Vault.blank.subject (subjectRef payment.subject_id)) payment =
      .ok (draftOf guard deciding payment
        (emptyMemory deciding.toSurroundings (subjectRef payment.subject_id)) result expires_at) :=
  decideIntent_eq_ok.mpr ⟨hcheck, _, result, expires_at, rfl, validate_empty, hresult, hexpires, rfl⟩

theorem exists_undecided [Sha256] :
    letI := asciiTables
    letI := strictInterpreter
    ∃ (deciding : DecisionSurroundings) (d : DecisionDraft), Undecided deciding d := by
  let _ := asciiTables
  let _ := strictInterpreter
  let deciding : DecisionSurroundings := ⟨⟨"00000001", noon none⟩, "nonce", 0⟩
  have hintent : checkIntent vendorPayment = .ok () := by decide +kernel
  obtain ⟨result, hresult, hverdict⟩ : ∃ result, decidePayment vendorPayment 0 [] = .ok result ∧
      result.verdict = .needsHuman := ⟨_, rfl, rfl⟩
  obtain ⟨expires_at, hexpires, hlater, haware⟩ : ∃ expires_at ∈
      deciding.utcNow.addSeconds paymentGuard.decision_ttl,
      (noon (some .utc)).instant < expires_at.instant ∧ expires_at.Aware := by
    decide +kernel
  refine ⟨deciding, _, decide_blank hintent hresult hexpires, hverdict, ?_, rfl, ⟨_, rfl⟩, rfl, rfl,
    rfl, hlater⟩
  have hexpiry : JsonReading.reread expires_at = expires_at := reread_of_aware haware
  unfold DecisionDraft.reread
  rw [show DecisionDraft.expires_at (draftOf _ _ _ _ _ _) = expires_at from rfl, hexpiry]
  rfl

theorem exists_ready :
    letI := spelling
    letI := asciiTables
    letI := strictInterpreter
    ∃ (before : List GuardStep) (s : GuardStep) (r : FinalizationResult) (id : String),
      Run guarding (before ++ [s]) s.post ∧
      s.call = .finalize paymentGuard disabledAnchor (noon (some .utc)) id none ∧
      s.answered = .finalized r ∧ r.verdict = .ready ∧ r.anchor_verification = none := by
  let _ := spelling
  let _ := asciiTables
  let _ := strictInterpreter
  obtain ⟨steps, vault, around, memory, d, hrun, hsubject, hdecide, hnew, hready, hread, hid,
    hamount, hlater⟩ := exists_decided
  have hname : validateMachineIdentifier "decision_id" d.decision_id = .ok () := by
    rw [hid]
    decide +kernel
  have hfloat : floatOf (.num d.intent.amount_usd) = .ok (pointZero 75) := by
    rw [hamount]
    decide +kernel
  have hplan : disabledAnchor.plan d = .ok none := rfl
  obtain ⟨t, s, hboth, _, hcall, hanswered⟩ := run_finalized hrun hdecide
    (finalize_decided hdecide hsubject hname hfloat hread hlater (hnew _) hplan)
  exact ⟨_, s, _, _, hboth, hcall, hanswered, planned_matches.2.1.trans hready,
    planned_unverified⟩

/-- The decision is finalized, and asked for once more. -/
theorem approved_payment_moves_on :
    letI := spelling
    letI := asciiTables
    letI := strictInterpreter
    ∃ (before : List GuardStep) (s t : GuardStep) (r r' : FinalizationResult) (id : String),
      Run guarding (before ++ [s] ++ [t]) t.post ∧
      t.call = .finalize paymentGuard disabledAnchor (noon (some .utc)) id none ∧
      t.answered = .finalized r ∧ r.verdict = .ready ∧ r.executable = false ∧
      loadFinalization t.post id = .ok (some r') ∧ Moves r.reread r' ∧
      ∃ decision intent d, Rests (before ++ [s]) t.pre paymentGuard (noon (some .utc)) decision
        intent d := by
  let _ := spelling
  let _ := asciiTables
  let _ := strictInterpreter
  obtain ⟨before, s, r, id, hrun, hcall, hanswered, hready, hunverified⟩ := exists_ready
  obtain ⟨hpre, hnow, _⟩ := hrun.at_step
  change serveCall s.pre s.call = .ok (s.post, s.answered) at hnow
  rw [hcall, hanswered] at hnow
  simp only [serveCall, bind_eq_ok, pure_eq_ok, Prod.mk.injEq, Answer.finalized.injEq] at hnow
  obtain ⟨⟨next, result⟩, hfinalize, rfl, rfl⟩ := hnow
  have hagain := finalize_again (kept_of_run hpre) hfinalize
  let t : GuardStep :=
    ⟨.finalize paymentGuard disabledAnchor (noon (some .utc)) id none, s.post, s.post,
      .finalized result⟩
  have ht : serveCall t.pre t.call = .ok (t.post, t.answered) := by
    simp only [t, serveCall, hagain, ok_bind]
    rfl
  have hboth : Run guarding ((before ++ [s]) ++ [t]) t.post := .next hrun ht
  obtain ⟨written, hwritten, hreread⟩ := ((serve_kept (kept_of_run hrun) ht).2.2 id result rfl
    rfl).kept (Or.inl hunverified)
  obtain ⟨hmoves, hanswers⟩ := finalizations_only_move_on hrun hboth
  obtain ⟨_, r', hload, _, hmoved⟩ := hmoves id _ (loadFinalization_written hwritten)
  obtain ⟨hinert, hrests⟩ := hanswers (before ++ [s]) t [] result rfl rfl
  obtain ⟨decision, _, hverdict, hground⟩ := hrests _ _ _ _ _ rfl
  obtain ⟨intent, d, hrest⟩ := hground (hverdict.symm.trans hready)
  exact ⟨before, s, t, result, r', id, hboth, rfl, rfl, hready, hinert, hload, hreread ▸ hmoved,
    decision, intent, d, hrest⟩

theorem approved_payment_stands :
    letI := spelling
    letI := asciiTables
    letI := strictInterpreter
    ∃ (s : GuardStep) (r r' : FinalizationResult) (id : String),
      s.call.about = some id ∧ s.answered = .finalized r ∧ r.executable = false ∧
      loadFinalization s.post id = .ok (some r') ∧ Moves r.reread r' := by
  let _ := spelling
  let _ := asciiTables
  let _ := strictInterpreter
  obtain ⟨before, s, r, id, hrun, hcall, hanswered, _, hunverified⟩ := exists_ready
  have habout : s.call.about = some id := by
    rw [hcall]
    rfl
  obtain ⟨hinert, hstands⟩ := answered_finalization_stands hrun habout hanswered
  obtain ⟨r', hload, _, hmoves⟩ := hstands (Or.inl hunverified)
  exact ⟨s, r, r', id, habout, hanswered, hinert, hload, hmoves⟩

theorem approved_payment_current :
    letI := spelling
    letI := asciiTables
    letI := strictInterpreter
    ∃ (s : GuardStep) (r : FinalizationResult) (intent : PaymentIntent) (subject : SubjectMemory),
      s.answered = .finalized r ∧ r.verdict = .ready ∧
      loadSubject (s.pre.subject (subjectRef intent.subject_id)) = .ok (some subject) ∧
      ∀ item ∈ subject.observations, ¬ Blocks intent item := by
  let _ := spelling
  let _ := asciiTables
  let _ := strictInterpreter
  obtain ⟨before, s, r, id, hrun, hcall, hanswered, hready, _⟩ := exists_ready
  obtain ⟨_, _, _, _, _, intent, _, _, _, _, _, _, _, _, subject, hsubject, hnothing⟩ :=
    ready_answer_current hrun hcall hanswered hready
  exact ⟨s, r, intent, subject, hanswered, hready, hsubject, hnothing⟩

end Specimen

end MemoryGuard.Finalizing
