import MemoryGuard.JsonReading

/-!
Observations as they are received and as they are stored, the memory of a
subject, and the chain of hashes that ties it together. Stored values are read
back from their bodies; all fields but the date-times come back as they were.
-/
namespace MemoryGuard.Observations

open OrderedDict JsonText Guarded ContentHash CanonicalText IsoText JsonReading

section Values

inductive EvidenceMode
  | demoFixture
  | callerSupplied
  | identityVerified
  | baseTestnet
  | baseMainnet
  deriving DecidableEq, Repr

def EvidenceMode.text : EvidenceMode → String
  | .demoFixture => "demo_fixture"
  | .callerSupplied => "caller_supplied"
  | .identityVerified => "identity_verified"
  | .baseTestnet => "base_testnet"
  | .baseMainnet => "base_mainnet"

def EvidenceMode.ofText : String → Except GuardError EvidenceMode :=
  member [.demoFixture, .callerSupplied, .identityVerified, .baseTestnet, .baseMainnet]
    EvidenceMode.text

inductive ObservationKind
  | baselineApproved
  | disputeOpened
  | targetRevoked
  | vendorNote
  deriving DecidableEq, Repr

def ObservationKind.text : ObservationKind → String
  | .baselineApproved => "baseline_approved"
  | .disputeOpened => "dispute_opened"
  | .targetRevoked => "target_revoked"
  | .vendorNote => "vendor_note"

def ObservationKind.ofText : String → Except GuardError ObservationKind :=
  member [.baselineApproved, .disputeOpened, .targetRevoked, .vendorNote] ObservationKind.text

inductive ObservationStatus
  | accepted
  | partiallyAccepted
  | quarantined
  | reviewRequired
  deriving DecidableEq, Repr

def ObservationStatus.text : ObservationStatus → String
  | .accepted => "accepted"
  | .partiallyAccepted => "partially_accepted"
  | .quarantined => "quarantined"
  | .reviewRequired => "review_required"

def ObservationStatus.ofText : String → Except GuardError ObservationStatus :=
  member [.accepted, .partiallyAccepted, .quarantined, .reviewRequired] ObservationStatus.text

theorem EvidenceMode.ofText_text (m : EvidenceMode) : ofText m.text = .ok m :=
  member_text (by intro a b; cases a <;> cases b <;> simp [EvidenceMode.text])
    (by cases m <;> simp)

theorem ObservationKind.ofText_text (k : ObservationKind) : ofText k.text = .ok k :=
  member_text (by intro a b; cases a <;> cases b <;> simp [ObservationKind.text])
    (by cases k <;> simp)

theorem ObservationStatus.ofText_text (s : ObservationStatus) : ofText s.text = .ok s :=
  member_text (by intro a b; cases a <;> cases b <;> simp [ObservationStatus.text])
    (by cases s <;> simp)

/-- The value of a fact. A float is given by its shortest text unless it is
infinite or no number; `other` is none, a list or a dictionary. -/
inductive Fact
  | text (s : String)
  | flag (b : Bool)
  | integer (n : ℤ)
  | finite (x : Numeral)
  | nonfinite
  | other
  deriving DecidableEq

structure Observation where
  subject_id : String
  session_id : String
  kind : ObservationKind
  source_id : String
  facts : Dict String Fact
  raw_text : Option String
  evidence_mode : EvidenceMode
  idempotency_key : String
  observed_at : DateTime

structure StoredObservation where
  observation_id : String
  subject_ref : Digest
  session_id : String
  kind : ObservationKind
  source_id : Digest
  evidence_mode : EvidenceMode
  status : ObservationStatus
  accepted_facts : Json
  quarantined_fields : List String
  reason_codes : List String
  raw_text_hash : Option Digest
  idempotency_key : String
  observed_at : DateTime
  previous_hash : Digest
  observation_hash : Digest
  deriving DecidableEq

structure SubjectMemory where
  subject_ref : Digest
  version : ℤ
  memory_root : Digest
  observations : List StoredObservation
  updated_at : DateTime

inductive Verdict
  | ready
  | deny
  | needsHuman
  | memoryUnavailable
  deriving DecidableEq, Repr

def Verdict.text : Verdict → String
  | .ready => "ready"
  | .deny => "deny"
  | .needsHuman => "needs_human"
  | .memoryUnavailable => "memory_unavailable"

def Verdict.ofText : String → Except GuardError Verdict :=
  member [.ready, .deny, .needsHuman, .memoryUnavailable] Verdict.text

theorem Verdict.ofText_text (v : Verdict) : ofText v.text = .ok v :=
  member_text (by intro a b; cases a <;> cases b <;> simp [Verdict.text]) (by cases v <;> simp)

/-- A payment that is asked about. An amount is an integer or a float. -/
structure PaymentIntent where
  subject_id : String
  session_id : String
  chain_id : ℤ
  target : String
  method : String
  amount_usd : Numeral
  idempotency_key : String
  evidence_mode : EvidenceMode
  created_at : DateTime
  deriving DecidableEq

/-- `item.accepted_facts.get(k)`. -/
def StoredObservation.fact (item : StoredObservation) (k : String) : Option Json :=
  field k item.accepted_facts

def StoredObservation.body (item : StoredObservation) : List (String × Json) :=
  [("observation_id", .str item.observation_id), ("subject_ref", .str item.subject_ref),
    ("session_id", .str item.session_id), ("kind", .str item.kind.text),
    ("source_id", .str item.source_id), ("evidence_mode", .str item.evidence_mode.text),
    ("status", .str item.status.text), ("accepted_facts", item.accepted_facts),
    ("quarantined_fields", texts item.quarantined_fields),
    ("reason_codes", texts item.reason_codes),
    ("raw_text_hash", JsonText.optional .str item.raw_text_hash),
    ("idempotency_key", .str item.idempotency_key),
    ("observed_at", .str (isoformat item.observed_at)),
    ("previous_hash", .str item.previous_hash)]

/-- `StoredObservation.to_dict`. -/
def StoredObservation.toJson (item : StoredObservation) : Json :=
  object (item.body ++ [("observation_hash", .str item.observation_hash)])

/-- `SubjectMemory.to_dict`. -/
def SubjectMemory.toJson (m : SubjectMemory) : Json :=
  object [("schema_version", .str "1.0"), ("subject_ref", .str m.subject_ref),
    ("version", int m.version), ("memory_root", .str m.memory_root),
    ("observations", .arr (m.observations.map StoredObservation.toJson)),
    ("updated_at", .str (isoformat m.updated_at))]

end Values

section Reading

variable [Interpreter]

/-- `tuple(data.get(k, ()))`, of texts. -/
def textsAt (k : String) (data : Json) : Except GuardError (List String) := do
  let items ← itemsOf ((field k data).getD (.arr []))
  return items.map strOf

/-- `str(data[k])`. -/
def textAt (k : String) (data : Json) : Except GuardError String := do
  let v ← required k data
  return strOf v

/-- `StoredObservation.from_dict`. -/
def StoredObservation.ofJson (data : Json) : Except GuardError StoredObservation := do
  return {
    observation_id := ← textAt "observation_id" data
    subject_ref := ← textAt "subject_ref" data
    session_id := ← textAt "session_id" data
    kind := ← ObservationKind.ofText (← textAt "kind" data)
    source_id := ← textAt "source_id" data
    evidence_mode := ← EvidenceMode.ofText (← textAt "evidence_mode" data)
    status := ← ObservationStatus.ofText (← textAt "status" data)
    accepted_facts := ← dictOf ((field "accepted_facts" data).getD (object []))
    quarantined_fields := ← textsAt "quarantined_fields" data
    reason_codes := ← textsAt "reason_codes" data
    raw_text_hash := ((field "raw_text_hash" data).bind textOrNone)
    idempotency_key := ← textAt "idempotency_key" data
    observed_at := ← parseTime (← required "observed_at" data)
    previous_hash := ← textAt "previous_hash" data
    observation_hash := ← textAt "observation_hash" data }

/-- `SubjectMemory.from_dict`. -/
def SubjectMemory.ofJson (data : Json) : Except GuardError SubjectMemory := do
  return {
    subject_ref := ← textAt "subject_ref" data
    version := ← intOf (← required "version" data)
    memory_root := ← textAt "memory_root" data
    observations := ← (← itemsOf ((field "observations" data).getD (.arr []))).mapM
      StoredObservation.ofJson
    updated_at := ← parseTime (← required "updated_at" data) }

/-- An observation as it is read back. -/
def StoredObservation.reread (item : StoredObservation) : StoredObservation :=
  { item with observed_at := JsonReading.reread item.observed_at }

def SubjectMemory.reread (m : SubjectMemory) : SubjectMemory :=
  { m with
    observations := m.observations.map StoredObservation.reread
    updated_at := JsonReading.reread m.updated_at }

/-- What every stored observation meets: its facts are a dictionary and a hash
of a text is not empty. -/
structure StoredObservation.Wellformed (item : StoredObservation) : Prop where
  facts : ∃ fields, item.accepted_facts = .obj fields
  text : item.raw_text_hash ≠ some ""

omit [Interpreter] in
theorem StoredObservation.Wellformed.reread {item : StoredObservation} (h : item.Wellformed) :
    item.reread.Wellformed := ⟨h.facts, h.text⟩

omit [Interpreter] in
theorem StoredObservation.reread_of_aware {item : StoredObservation} (h : item.observed_at.Aware) :
    item.reread = item := by
  unfold reread
  rw [JsonReading.reread_of_aware h]

omit [Interpreter] in
/-- Reading a second time changes nothing more. -/
theorem StoredObservation.reread_reread (item : StoredObservation) :
    item.reread.reread = item.reread :=
  reread_of_aware (aware_reread _)

theorem textsAt_of {k : String} {data : Json} {l : List String} (h : field k data = some (texts l)) :
    textsAt k data = .ok l := by
  unfold textsAt
  rw [h]
  exact congrArg Except.ok (map_strOf l)

theorem textAt_of {k : String} {data : Json} {s : String} (h : field k data = some (.str s)) :
    textAt k data = .ok s := by
  unfold textAt required
  rw [h]
  rfl

/-- A stored observation is read back from its body. -/
theorem StoredObservation.ofJson_toJson {item : StoredObservation} (h : item.Wellformed) :
    ofJson item.toJson = .ok item.reread := by
  obtain ⟨fields, hfacts⟩ := h.facts
  have hkeys : ((item.body ++ [("observation_hash", Json.str item.observation_hash)]).map
      Prod.fst).Nodup := by simp [body]
  have hfield : ∀ k, field k item.toJson =
      Dict.find k (item.body ++ [("observation_hash", .str item.observation_hash)]) :=
    field_object hkeys
  have htext : ∀ {k s}, Dict.find k (item.body ++
      [("observation_hash", .str item.observation_hash)]) = some (.str s) →
      textAt k item.toJson = .ok s := fun hk => textAt_of (by rw [hfield, hk])
  have hquarantined : textsAt "quarantined_fields" item.toJson = .ok item.quarantined_fields :=
    textsAt_of (hfield _)
  have hreasons : textsAt "reason_codes" item.toJson = .ok item.reason_codes :=
    textsAt_of (hfield _)
  have hraw : (field "raw_text_hash" item.toJson).bind textOrNone = item.raw_text_hash := by
    rw [hfield]
    exact textOrNone_optional h.text
  have hobserved : required "observed_at" item.toJson = .ok (.str (isoformat item.observed_at)) := by
    rw [required, hfield]
    rfl
  have hdict : dictOf ((field "accepted_facts" item.toJson).getD (object [])) =
      .ok item.accepted_facts := by
    rw [hfield]
    change dictOf item.accepted_facts = _
    rw [hfacts, dictOf]
  unfold ofJson
  simp only [htext (k := "observation_id") rfl, htext (k := "subject_ref") rfl,
    htext (k := "session_id") rfl, htext (k := "kind") rfl, htext (k := "source_id") rfl,
    htext (k := "evidence_mode") rfl, htext (k := "status") rfl,
    htext (k := "idempotency_key") rfl, htext (k := "previous_hash") rfl,
    htext (k := "observation_hash") rfl, hquarantined, hreasons, hraw, hobserved, hdict,
    EvidenceMode.ofText_text, ObservationKind.ofText_text, ObservationStatus.ofText_text,
    parseTime_isoformat, ok_bind]
  rfl

/-- The memory of a subject is read back from its body. -/
theorem SubjectMemory.ofJson_toJson {m : SubjectMemory}
    (h : ∀ item ∈ m.observations, item.Wellformed) : ofJson m.toJson = .ok m.reread := by
  have hkeys : ([("schema_version", Json.str "1.0"), ("subject_ref", .str m.subject_ref),
      ("version", int m.version), ("memory_root", .str m.memory_root),
      ("observations", .arr (m.observations.map StoredObservation.toJson)),
      ("updated_at", .str (isoformat m.updated_at))].map Prod.fst).Nodup := by simp
  have hfield := field_object hkeys
  have href : textAt "subject_ref" m.toJson = .ok m.subject_ref := textAt_of (hfield _)
  have hroot : textAt "memory_root" m.toJson = .ok m.memory_root := textAt_of (hfield _)
  have hversion : required "version" m.toJson = .ok (int m.version) := fetch_eq_ok.mpr (hfield _)
  have hupdated : required "updated_at" m.toJson = .ok (.str (isoformat m.updated_at)) :=
    fetch_eq_ok.mpr (hfield _)
  have hitems : itemsOf ((field "observations" m.toJson).getD (.arr [])) =
      .ok (m.observations.map StoredObservation.toJson) := by
    rw [show field "observations" m.toJson = _ from hfield _]
    rfl
  have hobservations : (m.observations.map StoredObservation.toJson).mapM StoredObservation.ofJson =
      .ok (m.observations.map StoredObservation.reread) := by
    refine mapM_eq_ok.mpr ?_
    rw [List.forall₂_map_left_iff, List.forall₂_map_right_iff]
    exact List.forall₂_same.mpr fun item hitem => StoredObservation.ofJson_toJson (h item hitem)
  unfold ofJson
  simp only [href, hversion, hroot, hitems, hobservations, hupdated, intOf_int,
    parseTime_isoformat, ok_bind]
  rfl

end Reading

section Chain

variable [Unicode] [Sha256]

/-- `compute_observation_hash`. -/
def computeObservationHash (item : StoredObservation) : Digest :=
  domainHash "observation" (object item.body)

/-- The loop of `validate_subject`, from the hash of the observation before. -/
def validateChain (subject_ref : Digest) : Digest → List StoredObservation →
    Except GuardError Digest
  | previous, [] => return previous
  | previous, item :: rest => do
    ensure (item.subject_ref = subject_ref) (.integrity "cross-subject observation detected")
    ensure (item.previous_hash = previous) (.integrity "observation hash chain is broken")
    let expected := computeObservationHash item
    ensure (item.observation_hash = expected) (.integrity "observation content hash mismatch")
    validateChain subject_ref expected rest

/-- `validate_subject`. -/
def validateSubject (subject : SubjectMemory) : Except GuardError Unit := do
  ensure (subject.version = subject.observations.length)
    (.integrity "memory version does not match observation count")
  let previous ← validateChain subject.subject_ref zeroHash subject.observations
  ensure (subject.memory_root = previous) (.integrity "subject memory root mismatch")

/-- An observation that continues a chain that ended in `previous`. -/
structure StoredObservation.Continues (item : StoredObservation) (subject_ref previous : Digest) :
    Prop where
  subject : item.subject_ref = subject_ref
  link : item.previous_hash = previous
  hash : item.observation_hash = computeObservationHash item

theorem validateChain_cons {subject_ref previous last : Digest} {item : StoredObservation}
    {rest : List StoredObservation} :
    validateChain subject_ref previous (item :: rest) = .ok last ↔
      item.Continues subject_ref previous ∧
        validateChain subject_ref item.observation_hash rest = .ok last := by
  simp only [validateChain, bind_eq_ok, ensure_eq_ok]
  constructor
  · rintro ⟨_, hsubject, _, hlink, _, hhash, hrest⟩
    exact ⟨⟨hsubject, hlink, hhash⟩, hhash ▸ hrest⟩
  · rintro ⟨⟨hsubject, hlink, hhash⟩, hrest⟩
    exact ⟨(), hsubject, (), hlink, (), hhash, hhash ▸ hrest⟩

theorem validateChain_snoc {subject_ref previous last : Digest} {item : StoredObservation}
    {l : List StoredObservation} :
    validateChain subject_ref previous (l ++ [item]) = .ok last ↔
      ∃ mid, validateChain subject_ref previous l = .ok mid ∧ item.Continues subject_ref mid ∧
        last = item.observation_hash := by
  induction l generalizing previous with
  | nil =>
    rw [List.nil_append, validateChain_cons]
    simp only [validateChain, pure_eq_ok, exists_eq_left', eq_comm (a := item.observation_hash)]
  | cons x rest ih =>
    rw [List.cons_append, validateChain_cons, ih]
    constructor
    · rintro ⟨hx, mid, hmid, hitem⟩
      exact ⟨mid, validateChain_cons.mpr ⟨hx, hmid⟩, hitem⟩
    · rintro ⟨mid, hmid, hitem⟩
      obtain ⟨hx, hrest⟩ := validateChain_cons.mp hmid
      exact ⟨hx, mid, hrest, hitem⟩

theorem validateSubject_ok {subject : SubjectMemory} :
    validateSubject subject = .ok () ↔ subject.version = subject.observations.length ∧
      validateChain subject.subject_ref zeroHash subject.observations =
        .ok subject.memory_root := by
  simp only [validateSubject, bind_eq_ok, ensure_eq_ok]
  constructor
  · rintro ⟨_, hversion, previous, hchain, hroot⟩
    exact ⟨hversion, hroot ▸ hchain⟩
  · rintro ⟨hversion, hchain⟩
    exact ⟨(), hversion, _, hchain, rfl⟩

/-- What is read back of an observation without an offset has another hash. -/
theorem hash_reread_ne [CollisionFree] [PlainAscii] {item : StoredObservation}
    (h : ¬ item.observed_at.Aware) :
    computeObservationHash item.reread ≠ computeObservationHash item := by
  intro hhash
  have hbody := (domainHash_inj.mp hhash).2
  have htime : ∀ i : StoredObservation, ("observed_at", Json.str (isoformat i.observed_at)) ∈
      i.body := by
    intro i
    simp [StoredObservation.body]
  have hfield := normalize_field hbody (by simp [StoredObservation.body]) (htime _) (htime _)
  simp only [CanonicalText.normalize, Json.str.injEq, PlainAscii.nfc_ascii _ (ascii_isoformat _)] at hfield
  exact h (reread_eq_iff.mp (isoformat_injective hfield))

end Chain

end MemoryGuard.Observations
