import MemoryGuard.Observing

/-!
Decision drafts: what they are, the hashes they carry, and how they are read
back from their stored bodies. An amount is read back as a float, so a draft
about an integer amount is not read back as it was.
-/
namespace MemoryGuard.Decisions

open OrderedDict JsonText Guarded ContentHash CanonicalText IsoText JsonReading Numbers
open Observations PaymentPolicy Observing

section Values

inductive AnchorState
  | notConfigured
  | localFinalized
  | confirmationRequired
  | pending
  | verified
  | failed
  deriving DecidableEq, Repr

def AnchorState.text : AnchorState → String
  | .notConfigured => "not_configured"
  | .localFinalized => "local_finalized"
  | .confirmationRequired => "confirmation_required"
  | .pending => "pending"
  | .verified => "verified"
  | .failed => "failed"

def AnchorState.ofText : String → Except GuardError AnchorState :=
  member [.notConfigured, .localFinalized, .confirmationRequired, .pending, .verified, .failed]
    AnchorState.text

theorem AnchorState.text_injective : Function.Injective AnchorState.text := by
  intro a b
  cases a <;> cases b <;> simp [AnchorState.text]

theorem AnchorState.ofText_text (s : AnchorState) : ofText s.text = .ok s :=
  member_text text_injective (by cases s <;> simp)

structure DecisionDraft where
  decision_id : String
  subject_ref : Digest
  session_id : String
  verdict : Verdict
  reason_codes : List String
  causal_memory_ids : List String
  cross_session : Bool
  memory_version : ℤ
  memory_root : Digest
  policy_hash : Digest
  intent : PaymentIntent
  intent_hash : Digest
  proof_root : Digest
  nonce : String
  created_at : DateTime
  expires_at : DateTime
  anchor_state : AnchorState
  deriving DecidableEq

def intentBody (i : PaymentIntent) : List (String × Json) :=
  [("subject_id", .str i.subject_id), ("session_id", .str i.session_id),
    ("chain_id", int i.chain_id), ("target", .str i.target), ("method", .str i.method),
    ("amount_usd", .num i.amount_usd), ("idempotency_key", .str i.idempotency_key),
    ("evidence_mode", .str i.evidence_mode.text),
    ("created_at", .str (isoformat i.created_at))]

/-- `PaymentIntent.to_dict`. -/
def intentJson (i : PaymentIntent) : Json := object (intentBody i)

def DecisionDraft.body (d : DecisionDraft) : List (String × Json) :=
  [("schema_version", .str "1.0"), ("decision_id", .str d.decision_id),
    ("subject_ref", .str d.subject_ref), ("session_id", .str d.session_id),
    ("verdict", .str d.verdict.text), ("reason_codes", texts d.reason_codes),
    ("causal_memory_ids", texts d.causal_memory_ids), ("cross_session", .bool d.cross_session),
    ("memory_version", int d.memory_version), ("memory_root", .str d.memory_root),
    ("policy_hash", .str d.policy_hash), ("intent", intentJson d.intent),
    ("intent_hash", .str d.intent_hash), ("proof_root", .str d.proof_root),
    ("nonce", .str d.nonce), ("created_at", .str (isoformat d.created_at)),
    ("expires_at", .str (isoformat d.expires_at)), ("anchor_state", .str d.anchor_state.text),
    ("executable", .bool false)]

/-- `DecisionDraft.to_dict`. -/
def DecisionDraft.toJson (d : DecisionDraft) : Json := object d.body

end Values

section Hashes

variable [Unicode] [Sha256]

/-- `intent_hash_payload`. -/
def intentHashPayload (i : PaymentIntent) : List (String × Json) :=
  [("subject_ref", .str i.subject_id), ("chain_id", int i.chain_id),
    ("target", .str (Unicode.lower i.target)), ("method", .str i.method),
    ("amount_usd", .num i.amount_usd), ("evidence_mode", .str i.evidence_mode.text)]

/-- `compute_intent_hash`. -/
def computeIntentHash (i : PaymentIntent) : Digest :=
  domainHash "intent" (object (intentHashPayload i))

/-- `compute_decision_proof_root`. -/
def computeDecisionProofRoot (d : DecisionDraft) : Digest :=
  domainHash "decision-proof" (object [("decision_id", .str d.decision_id),
    ("subject_ref", .str d.subject_ref), ("session_id", .str d.session_id),
    ("verdict", .str d.verdict.text), ("reason_codes", texts d.reason_codes),
    ("causal_memory_ids", texts d.causal_memory_ids), ("cross_session", .bool d.cross_session),
    ("memory_version", int d.memory_version), ("memory_root", .str d.memory_root),
    ("policy_hash", .str d.policy_hash), ("intent_hash", .str d.intent_hash),
    ("nonce", .str d.nonce), ("created_at", .str (isoformat d.created_at)),
    ("expires_at", .str (isoformat d.expires_at))])

/-- `validate_decision`. -/
def validateDecision (d : DecisionDraft) : Except GuardError Unit := do
  ensure (d.intent.subject_id = d.subject_ref)
    (.integrity "decision intent subject does not match subject reference")
  ensure (d.intent.session_id = d.session_id)
    (.integrity "decision intent session does not match decision session")
  ensure (computeIntentHash d.intent = d.intent_hash)
    (.integrity "decision intent hash mismatch")
  ensure (computeDecisionProofRoot d = d.proof_root)
    (.integrity "decision proof root mismatch")

theorem validateDecision_ok {d : DecisionDraft} : validateDecision d = .ok () ↔
    d.intent.subject_id = d.subject_ref ∧ d.intent.session_id = d.session_id ∧
      computeIntentHash d.intent = d.intent_hash ∧ computeDecisionProofRoot d = d.proof_root := by
  simp only [validateDecision, bind_eq_ok, ensure_eq_ok]
  constructor
  · rintro ⟨_, hsubject, _, hsession, _, hintent, hroot⟩
    exact ⟨hsubject, hsession, hintent, hroot⟩
  · rintro ⟨hsubject, hsession, hintent, hroot⟩
    exact ⟨(), hsubject, (), hsession, (), hintent, hroot⟩

end Hashes

section Reading

variable [Interpreter]

/-- The intent of a stored decision. -/
def intentOfJson (subject_ref : Json) (data : Json) : Except GuardError PaymentIntent := do
  return {
    subject_id := strOf ((field "subject_id" data).getD subject_ref)
    session_id := ← textAt "session_id" data
    chain_id := ← intOf (← required "chain_id" data)
    target := ← textAt "target" data
    method := ← textAt "method" data
    amount_usd := ← floatOf (← required "amount_usd" data)
    idempotency_key := ← textAt "idempotency_key" data
    evidence_mode := ← EvidenceMode.ofText (← textAt "evidence_mode" data)
    created_at := ← parseTime (← required "created_at" data) }

/-- `DecisionDraft.from_dict`. -/
def DecisionDraft.ofJson (data : Json) : Except GuardError DecisionDraft := do
  let intent_data ← dictOf (← required "intent" data)
  let intent ← intentOfJson (← required "subject_ref" data) intent_data
  return {
    decision_id := ← textAt "decision_id" data
    subject_ref := ← textAt "subject_ref" data
    session_id := ← textAt "session_id" data
    verdict := ← Verdict.ofText (← textAt "verdict" data)
    reason_codes := ← textsAt "reason_codes" data
    causal_memory_ids := ← textsAt "causal_memory_ids" data
    cross_session := boolOf (← required "cross_session" data)
    memory_version := ← intOf (← required "memory_version" data)
    memory_root := ← textAt "memory_root" data
    policy_hash := ← textAt "policy_hash" data
    intent := intent
    intent_hash := ← textAt "intent_hash" data
    proof_root := ← textAt "proof_root" data
    nonce := ← textAt "nonce" data
    created_at := ← parseTime (← required "created_at" data)
    expires_at := ← parseTime (← required "expires_at" data)
    anchor_state := ← AnchorState.ofText
      (strOf ((field "anchor_state" data).getD (.str "not_configured"))) }

/-- An intent as it is read back, with its amount as a float. -/
def rereadIntent (i : PaymentIntent) (amount : Numeral) : PaymentIntent :=
  { i with amount_usd := amount, created_at := reread i.created_at }

/-- A decision as it is read back. -/
def DecisionDraft.reread (d : DecisionDraft) (amount : Numeral) : DecisionDraft :=
  { d with
    intent := rereadIntent d.intent amount
    created_at := JsonReading.reread d.created_at
    expires_at := JsonReading.reread d.expires_at }

omit [Interpreter] in
theorem required_of {k : String} {data v : Json} (h : field k data = some v) :
    required k data = .ok v := fetch_eq_ok.mpr h

theorem intentOfJson_intentJson (ref : Json) (i : PaymentIntent) :
    intentOfJson ref (intentJson i) = rereadIntent i <$> floatOf (.num i.amount_usd) := by
  have hkeys : ((intentBody i).map Prod.fst).Nodup := by simp [intentBody]
  have hfield : ∀ k, field k (intentJson i) = Dict.find k (intentBody i) := field_object hkeys
  have htext : ∀ {k s}, Dict.find k (intentBody i) = some (.str s) →
      textAt k (intentJson i) = .ok s := fun hk => textAt_of (by rw [hfield, hk])
  have hneeded : ∀ {k v}, Dict.find k (intentBody i) = some v →
      required k (intentJson i) = .ok v := fun hk => required_of (by rw [hfield, hk])
  have hsubject : field "subject_id" (intentJson i) = some (.str i.subject_id) := hfield _
  unfold intentOfJson
  simp only [hsubject, htext (k := "session_id") rfl, hneeded (k := "chain_id") rfl,
    htext (k := "target") rfl, htext (k := "method") rfl, hneeded (k := "amount_usd") rfl,
    htext (k := "idempotency_key") rfl, htext (k := "evidence_mode") rfl,
    hneeded (k := "created_at") rfl, intOf_int, EvidenceMode.ofText_text, parseTime_isoformat,
    ok_bind]
  cases floatOf (.num i.amount_usd) with
  | error e => rfl
  | ok amount => rfl

/-- A decision is read back from its body when its amount has a float. -/
theorem DecisionDraft.ofJson_toJson (d : DecisionDraft) :
    ofJson d.toJson = d.reread <$> floatOf (.num d.intent.amount_usd) := by
  have hkeys : (d.body.map Prod.fst).Nodup := by simp [body]
  have hfield : ∀ k, field k d.toJson = Dict.find k d.body := field_object hkeys
  have htext : ∀ {k s}, Dict.find k d.body = some (.str s) → textAt k d.toJson = .ok s :=
    fun hk => textAt_of (by rw [hfield, hk])
  have hneeded : ∀ {k v}, Dict.find k d.body = some v → required k d.toJson = .ok v :=
    fun hk => required_of (by rw [hfield, hk])
  have htexts : ∀ {k l}, Dict.find k d.body = some (texts l) → textsAt k d.toJson = .ok l :=
    fun hk => textsAt_of (by rw [hfield, hk])
  have hanchor : field "anchor_state" d.toJson = some (.str d.anchor_state.text) := hfield _
  have hdict : dictOf (intentJson d.intent) = .ok (intentJson d.intent) := rfl
  unfold ofJson
  simp only [hneeded (k := "intent") rfl, hdict, hneeded (k := "subject_ref") rfl,
    intentOfJson_intentJson, htext (k := "decision_id") rfl, htext (k := "subject_ref") rfl,
    htext (k := "session_id") rfl, htext (k := "verdict") rfl, Verdict.ofText_text,
    htexts (k := "reason_codes") rfl, htexts (k := "causal_memory_ids") rfl,
    hneeded (k := "cross_session") rfl, hneeded (k := "memory_version") rfl, intOf_int,
    htext (k := "memory_root") rfl, htext (k := "policy_hash") rfl,
    htext (k := "intent_hash") rfl, htext (k := "proof_root") rfl, htext (k := "nonce") rfl,
    hneeded (k := "created_at") rfl, hneeded (k := "expires_at") rfl, parseTime_isoformat,
    hanchor, Option.getD_some, strOf, AnchorState.ofText_text, ok_bind]
  cases floatOf (.num d.intent.amount_usd) with
  | error e => rfl
  | ok amount => rfl

end Reading

section Deciding

/-- A configured payment guard. -/
structure Guard where
  policy_hash : Digest
  decision_ttl : ℕ

/-- What the surroundings answer while a decision is made; `recalled` is the
clock when baselines are checked. -/
structure DecisionSurroundings extends Surroundings where
  nonce : String
  recalled : ℤ

/-- What is checked of an intent before the memory is read. -/
def checkIntent (intent : PaymentIntent) : Except GuardError Unit := do
  validateIdentifier "subject_id" intent.subject_id 3 200
  validateMachineIdentifier "session_id" intent.session_id
  validateMachineIdentifier "idempotency_key" intent.idempotency_key
  validateIdentifier "method" intent.method 1 120
  ensure (isMethod intent.method) (.value "method must be a stable machine identifier")
  ensure (intent.chain_id = 8453 ∨ intent.chain_id = 84532)
    (.value "MemoryGuard contest flow only supports Base chain 8453 or 84532")
  ensure (isEvmAddress intent.target) (.value "target must be a 20-byte EVM address")
  ensure (0 < value intent.amount_usd ∧ value intent.amount_usd ≤ 1000000)
    (.value "amount_usd must be in (0, 1,000,000]")

variable [Unicode] [Interpreter] [Sha256]

/-- The intent that a decision keeps: the subject by its reference. -/
def safeIntent (intent : PaymentIntent) : PaymentIntent :=
  { intent with
    subject_id := subjectRef intent.subject_id
    target := Unicode.lower intent.target }

def draftOf (guard : Guard) (around : DecisionSurroundings) (intent : PaymentIntent)
    (subject : SubjectMemory) (result : PolicyDecision) (expires_at : DateTime) : DecisionDraft :=
  let decision : DecisionDraft := {
    decision_id := newId "dec" around.uuid
    subject_ref := subjectRef intent.subject_id
    session_id := intent.session_id
    verdict := result.verdict
    reason_codes := result.reason_codes
    causal_memory_ids := result.causal_memory_ids
    cross_session := subject.observations.any fun item =>
      item.observation_id ∈ result.causal_memory_ids && item.session_id ≠ intent.session_id
    memory_version := subject.version
    memory_root := subject.memory_root
    policy_hash := guard.policy_hash
    intent := safeIntent intent
    intent_hash := computeIntentHash (safeIntent intent)
    proof_root := ""
    nonce := around.nonce
    created_at := around.utcNow
    expires_at := expires_at
    anchor_state := .notConfigured }
  { decision with proof_root := computeDecisionProofRoot decision }

/-- `decide`. -/
def decideIntent (guard : Guard) (around : DecisionSurroundings) (store : Option Json)
    (intent : PaymentIntent) : Except GuardError DecisionDraft := do
  checkIntent intent
  let subject ← currentMemory around.toSurroundings (subjectRef intent.subject_id) store
  validateSubject subject
  let result ← decidePayment intent around.recalled subject.observations
  let expires_at ← fetch (around.utcNow.addSeconds guard.decision_ttl) (.raised "OverflowError")
  let decision := draftOf guard around intent subject result expires_at
  validateDecision decision
  return decision

variable {guard : Guard} {around : DecisionSurroundings} {store : Option Json}
  {intent : PaymentIntent}

omit [Interpreter] in
theorem validate_draft {subject : SubjectMemory} {result : PolicyDecision} {expires_at : DateTime} :
    validateDecision (draftOf guard around intent subject result expires_at) = .ok () :=
  validateDecision_ok.mpr ⟨rfl, rfl, rfl, rfl⟩

theorem decideIntent_eq_ok {decision : DecisionDraft} :
    decideIntent guard around store intent = .ok decision ↔
      checkIntent intent = .ok () ∧ ∃ subject result expires_at,
        currentMemory around.toSurroundings (subjectRef intent.subject_id) store = .ok subject ∧
        validateSubject subject = .ok () ∧
        decidePayment intent around.recalled subject.observations = .ok result ∧
        around.utcNow.addSeconds guard.decision_ttl = some expires_at ∧
        decision = draftOf guard around intent subject result expires_at := by
  simp only [decideIntent, bind_eq_ok, fetch_eq_ok, pure_eq_ok]
  constructor
  · rintro ⟨_, hcheck, subject, hsubject, _, hvalid, result, hresult, expires_at, hexpires, _, _,
      rfl⟩
    exact ⟨hcheck, subject, result, expires_at, hsubject, hvalid, hresult, hexpires, rfl⟩
  · rintro ⟨hcheck, subject, result, expires_at, hsubject, hvalid, hresult, hexpires, rfl⟩
    exact ⟨(), hcheck, subject, hsubject, (), hvalid, result, hresult, expires_at, hexpires, (),
      validate_draft, rfl⟩

theorem decided_valid {decision : DecisionDraft}
    (h : decideIntent guard around store intent = .ok decision) :
    validateDecision decision = .ok () := by
  obtain ⟨_, subject, result, expires_at, _, _, _, _, rfl⟩ := decideIntent_eq_ok.mp h
  exact validate_draft

end Deciding

end MemoryGuard.Decisions
