import MemoryGuard.PaymentPolicy

/-!
One subject's memory in the store, and the observations that are written to it.
An observation is checked, classified and linked to the last one; a key that
was used before gets its old receipt, or a conflict if the request differs.
The memory is read back from the stored body at every call.
-/
namespace MemoryGuard.Observing

open OrderedDict JsonText Guarded ContentHash CanonicalText IsoText JsonReading Observations
open PaymentPolicy

/-- What the surroundings answer while a call runs. -/
structure Surroundings where
  uuid : String
  now : DateTime

/-- `utc_now()`. -/
def Surroundings.utcNow (around : Surroundings) : DateTime := around.now.inUtc

structure ObservationReceipt where
  observation_id : String
  status : ObservationStatus
  accepted_fields : List String
  quarantined_fields : List String
  reason_codes : List String
  memory_version : ℤ
  memory_root : Digest
  evidence_mode : EvidenceMode
  observed_at : DateTime

section Checks

/-- `_validate_identifier`. -/
def validateIdentifier (name s : String) (minimum maximum : ℕ) : Except GuardError Unit := do
  ensure (minimum ≤ (strip s).length ∧ (strip s).length ≤ maximum)
    (.value (name ++ " length must be in [" ++ toString minimum ++ ", " ++ toString maximum ++ "]"))
  ensure (s.toList.all fun c => 32 ≤ c.toNat) (.value (name ++ " cannot contain control characters"))

/-- `_validate_machine_identifier`. -/
def validateMachineIdentifier (name s : String) : Except GuardError Unit := do
  validateIdentifier name s 8 128
  ensure (isMachine 0 none s) (.value (name ++ " must be a stable machine identifier"))

/-- What is checked of an observation before the memory is read. -/
def checkObservation (observation : Observation) : Except GuardError Unit := do
  validateIdentifier "subject_id" observation.subject_id 3 200
  validateMachineIdentifier "session_id" observation.session_id
  validateIdentifier "source_id" observation.source_id 3 200
  validateMachineIdentifier "idempotency_key" observation.idempotency_key
  ensure ((suppliedText observation).all fun text => text.length ≤ 10000)
    (.value "raw_text exceeds 10,000 characters")

end Checks

variable [Unicode] [Interpreter] [Sha256]

section Store

/-- `SubjectMemory.empty`. -/
def emptyMemory (around : Surroundings) (ref : Digest) : SubjectMemory :=
  ⟨ref, 0, zeroHash, [], around.utcNow⟩

omit [Unicode] [Sha256] in
/-- `load_subject`, from the body that is stored for the subject. -/
def loadSubject (store : Option Json) : Except GuardError (Option SubjectMemory) :=
  match store with
  | none => return none
  | some body => do
    let subject ← SubjectMemory.ofJson body
    return some subject

/-- `load_subject(ref) or SubjectMemory.empty(ref)`. -/
def currentMemory (around : Surroundings) (ref : Digest) (store : Option Json) :
    Except GuardError SubjectMemory := do
  let loaded ← loadSubject store
  return loaded.getD (emptyMemory around ref)

omit [Unicode] [Sha256] in
/-- The version check of `commit_observation`. -/
def checkVersion (store : Option Json) (previous_version : ℤ) : Except GuardError Unit := do
  let current ← loadSubject store
  ensure ((current.map SubjectMemory.version).getD 0 = previous_version)
    (.conflict "subject memory version changed before commit")

end Store

section Writing

/-- `domain_hash("source", source_id)`. -/
def sourceHash (source_id : String) : Digest := domainHash "source" (.str source_id)

def rawTextHash (observation : Observation) : Option Digest :=
  (suppliedText observation).map textHash

/-- The stored form of a classified observation, with its hash. -/
def storedObservation (around : Surroundings) (observation : Observation)
    (classification : ObservationClassification) (previous_hash : Digest) : StoredObservation :=
  let stored : StoredObservation := {
    observation_id := newId "obs" around.uuid
    subject_ref := subjectRef observation.subject_id
    session_id := observation.session_id
    kind := observation.kind
    source_id := sourceHash observation.source_id
    evidence_mode := observation.evidence_mode
    status := classification.status
    accepted_facts := classification.accepted_facts
    quarantined_fields := classification.quarantined_fields
    reason_codes := classification.reason_codes
    raw_text_hash := rawTextHash observation
    idempotency_key := observation.idempotency_key
    observed_at := observation.observed_at
    previous_hash := previous_hash
    observation_hash := "" }
  { stored with observation_hash := computeObservationHash stored }

/-- `current.memory_root if current.version else ZERO_HASH`. -/
def lastHash (current : SubjectMemory) : Digest :=
  if current.version ≠ 0 then current.memory_root else zeroHash

def extendMemory (current : SubjectMemory) (around : Surroundings)
    (stored : StoredObservation) : SubjectMemory where
  subject_ref := stored.subject_ref
  version := current.version + 1
  memory_root := stored.observation_hash
  observations := current.observations ++ [stored]
  updated_at := around.utcNow

/-- `_receipt`. -/
def receiptOf (item : StoredObservation) (subject : SubjectMemory) : ObservationReceipt where
  observation_id := item.observation_id
  status := item.status
  accepted_fields := match item.accepted_facts with
    | .obj fields => sorted (fields.map Prod.fst)
    | _ => []
  quarantined_fields := item.quarantined_fields
  reason_codes := item.reason_codes
  memory_version := subject.version
  memory_root := subject.memory_root
  evidence_mode := item.evidence_mode
  observed_at := item.observed_at

/-- Whether a key was used before for the same request. -/
def SameRequest (observation : Observation) (classification : ObservationClassification)
    (duplicate : StoredObservation) : Prop :=
  duplicate.kind = observation.kind ∧ duplicate.source_id = sourceHash observation.source_id ∧
    duplicate.evidence_mode = observation.evidence_mode ∧
    duplicate.accepted_facts = classification.accepted_facts ∧
    duplicate.quarantined_fields = classification.quarantined_fields ∧
    duplicate.reason_codes = classification.reason_codes ∧
    duplicate.raw_text_hash = rawTextHash observation

instance (observation : Observation) (classification : ObservationClassification)
    (duplicate : StoredObservation) :
    Decidable (SameRequest observation classification duplicate) := by
  unfold SameRequest
  infer_instance

/-- What a call does after it has read the memory: it answers from the memory,
or it goes on to write. -/
inductive Plan
  | answer (receipt : ObservationReceipt)
  | write (previous_version : ℤ) (updated : SubjectMemory) (stored : StoredObservation)

/-- `observe`, between the two accesses to the store. -/
def planObservation (around : Surroundings) (observation : Observation) (current : SubjectMemory) :
    Except GuardError Plan := do
  validateSubject current
  let classification ← classifyObservation observation
  match current.observations.find? fun item =>
      item.idempotency_key = observation.idempotency_key with
  | some duplicate =>
    ensure (SameRequest observation classification duplicate)
      (.conflict "idempotency key was already used for a different observation")
    return .answer (receiptOf duplicate current)
  | none =>
    let stored := storedObservation around observation classification (lastHash current)
    let updated := extendMemory current around stored
    validateSubject updated
    return .write current.version updated stored

/-- A call of `observe` up to its first write. -/
def readPlan (around : Surroundings) (store : Option Json) (observation : Observation) :
    Except GuardError Plan := do
  checkObservation observation
  let current ← currentMemory around (subjectRef observation.subject_id) store
  planObservation around observation current

/-- `observe`. A call that fails leaves the store as it is. -/
def observe (around : Surroundings) (store : Option Json) (observation : Observation) :
    Except GuardError (Option Json × ObservationReceipt) := do
  match ← readPlan around store observation with
  | .answer receipt => return (store, receipt)
  | .write previous_version updated stored =>
    checkVersion store previous_version
    return (some updated.toJson, receiptOf stored updated)

end Writing

section Outcomes

variable {around : Surroundings} {observation : Observation}
  {classification : ObservationClassification} {previous ref : Digest}

omit [Sha256] in
theorem classified_facts {classification : ObservationClassification}
    (h : classifyObservation observation = .ok classification) :
    ∃ fields, classification.accepted_facts = .obj fields := by
  simp only [classifyObservation, bind_eq_ok, pure_eq_ok] at h
  obtain ⟨facts, _, rfl⟩ := h
  exact ⟨_, rfl⟩

theorem stored_wellformed [NonemptyDigest]
    (h : classifyObservation observation = .ok classification) :
    (storedObservation around observation classification previous).Wellformed where
  facts := classified_facts h
  text := by
    intro heq
    obtain ⟨text, _, hhash⟩ := Option.map_eq_some_iff.mp heq
    exact domainHash_ne_empty _ _ hhash

omit [Interpreter] in
theorem stored_continues :
    (storedObservation around observation classification previous).Continues
      (subjectRef observation.subject_id) previous := ⟨rfl, rfl, rfl⟩

omit [Interpreter] in
theorem validate_empty : validateSubject (emptyMemory around ref) = .ok () :=
  validateSubject_ok.mpr ⟨rfl, rfl⟩

omit [Interpreter] in
/-- In a valid memory the last hash is the root, also when there is none yet. -/
theorem lastHash_eq {current : SubjectMemory} (h : validateSubject current = .ok ()) :
    lastHash current = current.memory_root := by
  obtain ⟨hversion, hchain⟩ := validateSubject_ok.mp h
  unfold lastHash
  by_cases hzero : current.version = 0
  · have hlength : current.observations.length = 0 := by omega
    rw [List.length_eq_zero_iff.mp hlength, validateChain, pure_eq_ok] at hchain
    rw [if_neg (by simpa using hzero), hchain]
  · rw [if_pos hzero]

omit [Interpreter] in
/-- A valid memory stays valid when an observation is added to it. -/
theorem validate_extend {current : SubjectMemory} {stored : StoredObservation}
    (h : validateSubject current = .ok ())
    (hstored : stored.Continues current.subject_ref (lastHash current)) :
    validateSubject (extendMemory current around stored) = .ok () := by
  obtain ⟨hversion, hchain⟩ := validateSubject_ok.mp h
  rw [lastHash_eq h] at hstored
  refine validateSubject_ok.mpr ⟨?_, ?_⟩
  · simp only [extendMemory, List.length_append, List.length_singleton, hversion]
    norm_cast
  · change validateChain stored.subject_ref zeroHash (current.observations ++ [stored]) = _
    rw [hstored.subject]
    exact validateChain_snoc.mpr ⟨_, hchain, hstored, rfl⟩

/-- What a call plans: an answer from the memory, or one more observation. -/
theorem readPlan_cases {store : Option Json} {plan : Plan}
    (h : readPlan around store observation = .ok plan) :
    ∃ current classification, currentMemory around (subjectRef observation.subject_id) store =
        .ok current ∧ validateSubject current = .ok () ∧
      classifyObservation observation = .ok classification ∧
      ((∃ duplicate ∈ current.observations,
          duplicate.idempotency_key = observation.idempotency_key ∧
          SameRequest observation classification duplicate ∧
          plan = .answer (receiptOf duplicate current)) ∨
        (∀ item ∈ current.observations, item.idempotency_key ≠ observation.idempotency_key) ∧
          ∃ stored, stored = storedObservation around observation classification
              (lastHash current) ∧
            plan = .write current.version (extendMemory current around stored) stored) := by
  simp only [readPlan, planObservation, bind_eq_ok] at h
  obtain ⟨_, _, current, hcurrent, _, hvalid, classification, hclass, hplan⟩ := h
  refine ⟨current, classification, hcurrent, hvalid, hclass, ?_⟩
  cases hfind : current.observations.find? (fun item =>
      decide (item.idempotency_key = observation.idempotency_key)) with
  | some duplicate =>
    rw [hfind] at hplan
    simp only [bind_eq_ok, ensure_eq_ok, pure_eq_ok] at hplan
    obtain ⟨_, hsame, hplan⟩ := hplan
    have hkey := List.find?_some hfind
    exact Or.inl ⟨duplicate, List.mem_of_find?_eq_some hfind, of_decide_eq_true hkey, hsame,
      hplan.symm⟩
  | none =>
    rw [hfind] at hplan
    simp only [bind_eq_ok, pure_eq_ok] at hplan
    obtain ⟨_, _, hplan⟩ := hplan
    refine Or.inr ⟨?_, _, rfl, hplan.symm⟩
    intro item hitem hkey
    exact absurd (decide_eq_true hkey) (List.find?_eq_none.mp hfind item hitem)

/-- A call that ends well answered from the memory or added one observation. -/
theorem observe_cases {store store' : Option Json} {receipt : ObservationReceipt}
    (h : observe around store observation = .ok (store', receipt)) :
    ∃ current classification, currentMemory around (subjectRef observation.subject_id) store =
        .ok current ∧ validateSubject current = .ok () ∧
      classifyObservation observation = .ok classification ∧
      (store' = store ∨
        (∀ item ∈ current.observations, item.idempotency_key ≠ observation.idempotency_key) ∧
          store' = some (extendMemory current around
            (storedObservation around observation classification (lastHash current))).toJson) := by
  simp only [observe, bind_eq_ok] at h
  obtain ⟨plan, hplan, hend⟩ := h
  obtain ⟨current, classification, hcurrent, hvalid, hclass, hcases⟩ := readPlan_cases hplan
  refine ⟨current, classification, hcurrent, hvalid, hclass, ?_⟩
  rcases hcases with ⟨duplicate, _, _, _, rfl⟩ | ⟨hnew, stored, rfl, rfl⟩
  · simp only [pure_eq_ok, Prod.mk.injEq] at hend
    exact Or.inl hend.1.symm
  · simp only [bind_eq_ok, pure_eq_ok, Prod.mk.injEq] at hend
    obtain ⟨_, _, hstore, _⟩ := hend
    exact Or.inr ⟨hnew, hstore.symm⟩

/-- A call with a new key goes on to write. -/
theorem readPlan_new {store : Option Json} {current : SubjectMemory}
    (hcheck : checkObservation observation = .ok ())
    (hread : currentMemory around (subjectRef observation.subject_id) store = .ok current)
    (hvalid : validateSubject current = .ok ())
    (href : current.subject_ref = subjectRef observation.subject_id)
    (hclass : classifyObservation observation = .ok classification)
    (hkey : ∀ item ∈ current.observations, item.idempotency_key ≠ observation.idempotency_key) :
    readPlan around store observation = .ok (.write current.version
      (extendMemory current around
        (storedObservation around observation classification (lastHash current)))
      (storedObservation around observation classification (lastHash current))) := by
  have hfind : current.observations.find? (fun item =>
      decide (item.idempotency_key = observation.idempotency_key)) = none := by
    rw [List.find?_eq_none]
    exact fun item hitem => by simpa using hkey item hitem
  have hextended : validateSubject (extendMemory current around
      (storedObservation around observation classification (lastHash current))) = .ok () :=
    validate_extend hvalid (href ▸ stored_continues)
  unfold readPlan planObservation
  simp only [hcheck, hread, hvalid, hclass, hfind, hextended, ok_bind]
  rfl

/-- A call with a new key is answered and adds its observation. -/
theorem observe_new {store : Option Json} {loaded : Option SubjectMemory} {current : SubjectMemory}
    (hcheck : checkObservation observation = .ok ()) (hload : loadSubject store = .ok loaded)
    (hcurrent : loaded.getD (emptyMemory around (subjectRef observation.subject_id)) = current)
    (hvalid : validateSubject current = .ok ())
    (href : current.subject_ref = subjectRef observation.subject_id)
    (hclass : classifyObservation observation = .ok classification)
    (hkey : ∀ item ∈ current.observations, item.idempotency_key ≠ observation.idempotency_key) :
    ∃ receipt, observe around store observation =
      .ok (some (extendMemory current around
        (storedObservation around observation classification (lastHash current))).toJson,
        receipt) := by
  have hread : currentMemory around (subjectRef observation.subject_id) store = .ok current := by
    unfold currentMemory
    rw [hload, ok_bind, hcurrent]
    rfl
  have hplan := readPlan_new hcheck hread hvalid href hclass hkey
  have hversion : checkVersion store current.version = .ok () := by
    unfold checkVersion
    rw [hload, ok_bind, ensure_eq_ok, ← hcurrent]
    cases loaded <;> rfl
  unfold observe
  simp only [hplan, hversion, ok_bind]
  exact ⟨_, rfl⟩

/-- The first call on a subject writes version one. -/
theorem readPlan_first (hcheck : checkObservation observation = .ok ())
    (hclass : classifyObservation observation = .ok classification) :
    readPlan around none observation = .ok (.write 0
      (extendMemory (emptyMemory around (subjectRef observation.subject_id)) around
        (storedObservation around observation classification zeroHash))
      (storedObservation around observation classification zeroHash)) := by
  have hlast : lastHash (emptyMemory around (subjectRef observation.subject_id)) = zeroHash :=
    lastHash_eq validate_empty
  rw [← hlast]
  exact readPlan_new hcheck rfl validate_empty rfl hclass
    (fun _ hitem => absurd hitem List.not_mem_nil)

end Outcomes

section Runs

/-- A call of `observe` with what its surroundings answer. -/
structure Request where
  around : Surroundings
  observation : Observation

/-- The store after a call; a call that fails changes nothing. -/
def serve (store : Option Json) (request : Request) : Option Json :=
  match observe request.around store request.observation with
  | .ok (store', _) => store'
  | .error _ => store

theorem serve_of_ok {store store' : Option Json} {request : Request} {receipt : ObservationReceipt}
    (h : observe request.around store request.observation = .ok (store', receipt)) :
    serve store request = store' := by
  unfold serve
  rw [h]

def serveAll (requests : List Request) : Option Json := requests.foldl serve none

/-- The observations that are loaded from a store. -/
def remembered (store : Option Json) : List StoredObservation :=
  match loadSubject store with
  | .ok (some subject) => subject.observations
  | _ => []

/-- A store that holds a written memory, whose observations are read back as `l`. -/
inductive Holds : Option Json → List StoredObservation → Prop
  | empty : Holds none []
  | written (m : SubjectMemory) (wellformed : ∀ item ∈ m.observations, item.Wellformed) :
    Holds (some m.toJson) (m.observations.map StoredObservation.reread)

variable {store : Option Json} {l : List StoredObservation}

omit [Unicode] [Sha256] in
theorem loadSubject_written {m : SubjectMemory} (h : ∀ item ∈ m.observations, item.Wellformed) :
    loadSubject (some m.toJson) = .ok (some m.reread) := by
  unfold loadSubject
  simp only [SubjectMemory.ofJson_toJson h, ok_bind]
  rfl

omit [Unicode] [Sha256] in
theorem Holds.remembered_eq (h : Holds store l) : remembered store = l := by
  cases h with
  | empty => rfl
  | written m hwell =>
    unfold remembered
    rw [loadSubject_written hwell]
    rfl

omit [Unicode] [Sha256] in
theorem Holds.current {around : Surroundings} {ref : Digest} {current : SubjectMemory}
    (h : Holds store l) (hcurrent : currentMemory around ref store = .ok current) :
    current.observations = l := by
  cases h with
  | empty =>
    simp only [currentMemory, loadSubject, bind_eq_ok, pure_eq_ok, exists_eq_left'] at hcurrent
    exact hcurrent ▸ rfl
  | written m hwell =>
    simp only [currentMemory, loadSubject_written hwell, bind_eq_ok, pure_eq_ok,
      Except.ok.injEq, exists_eq_left'] at hcurrent
    exact hcurrent ▸ rfl

omit [Unicode] [Sha256] [Interpreter] in
theorem Holds.wellformed (h : Holds store l) : ∀ item ∈ l, item.Wellformed := by
  cases h with
  | empty => exact fun _ hitem => absurd hitem List.not_mem_nil
  | written m hwell =>
    intro item hitem
    obtain ⟨original, horiginal, rfl⟩ := List.mem_map.mp hitem
    exact (hwell original horiginal).reread

omit [Unicode] [Sha256] [Interpreter] in
theorem Holds.map_reread (h : Holds store l) : l.map StoredObservation.reread = l := by
  cases h with
  | empty => rfl
  | written m hwell =>
    rw [List.map_map]
    exact List.map_congr_left fun item _ => item.reread_reread

omit [Unicode] [Sha256] [Interpreter] in
theorem Holds.wellformed_extended {m : SubjectMemory} {stored : StoredObservation}
    (h : Holds store l) (hstored : stored.Wellformed) (hm : m.observations = l ++ [stored]) :
    ∀ item ∈ m.observations, item.Wellformed := by
  intro item hitem
  rw [hm] at hitem
  rcases List.mem_append.mp hitem with hitem | hitem
  · exact h.wellformed item hitem
  · rw [List.mem_singleton.mp hitem]
    exact hstored

omit [Unicode] [Sha256] [Interpreter] in
/-- A memory whose observations are `l` and a new one, once it is stored. -/
theorem Holds.extended {m : SubjectMemory} {stored : StoredObservation} (h : Holds store l)
    (hstored : stored.Wellformed) (hm : m.observations = l ++ [stored]) :
    Holds (some m.toJson) (l ++ [stored.reread]) := by
  have hread := Holds.written m (h.wellformed_extended hstored hm)
  rwa [hm, List.map_append, h.map_reread, List.map_singleton] at hread

/-- An observation that is read back as one that a call of `observe` wrote. -/
def Produced (request : Request) (item : StoredObservation) : Prop :=
  ∃ classification previous, classifyObservation request.observation = .ok classification ∧
    item = (storedObservation request.around request.observation classification previous).reread

variable [NonemptyDigest]

/-- A call leaves the store as it is or adds one observation to it. -/
theorem Holds.serve (h : Holds store l) (request : Request) :
    Observing.serve store request = store ∨
      ∃ item, Produced request item ∧ Holds (Observing.serve store request) (l ++ [item]) := by
  unfold Observing.serve
  cases hobserve : observe request.around store request.observation with
  | error e => exact Or.inl rfl
  | ok answer =>
    obtain ⟨store', receipt⟩ := answer
    obtain ⟨current, classification, hcurrent, _, hclass, hcases⟩ := observe_cases hobserve
    rcases hcases with hsame | ⟨_, hwritten⟩
    · exact Or.inl hsame
    · right
      have hl := h.current hcurrent
      refine ⟨_, ⟨classification, lastHash current, hclass, rfl⟩, ?_⟩
      dsimp only
      rw [hwritten]
      refine h.extended (stored_wellformed hclass) ?_
      rw [extendMemory, hl]

theorem Holds.serveAll (h : Holds store l) (requests : List Request) :
    ∃ more, Holds (requests.foldl Observing.serve store) (l ++ more) ∧
      ∀ item ∈ more, ∃ request ∈ requests, Produced request item := by
  induction requests generalizing store l with
  | nil => exact ⟨[], by simpa using h, fun _ hitem => absurd hitem List.not_mem_nil⟩
  | cons request rest ih =>
    rcases h.serve request with hsame | ⟨item, hitem, hnext⟩
    · obtain ⟨more, hmore, hproduced⟩ := ih h
      refine ⟨more, by rwa [List.foldl_cons, hsame], fun item hitem => ?_⟩
      obtain ⟨r, hr, hpr⟩ := hproduced item hitem
      exact ⟨r, List.mem_cons_of_mem _ hr, hpr⟩
    · obtain ⟨more, hmore, hproduced⟩ := ih hnext
      refine ⟨item :: more, by simpa using hmore, fun other hother => ?_⟩
      rcases List.mem_cons.mp hother with rfl | hother
      · exact ⟨request, List.mem_cons_self, hitem⟩
      · obtain ⟨r, hr, hpr⟩ := hproduced other hother
        exact ⟨r, List.mem_cons_of_mem _ hr, hpr⟩

/-- Every observation in a store was written by a call on it. -/
theorem remembered_produced (requests : List Request) :
    ∀ item ∈ remembered (serveAll requests), ∃ request ∈ requests, Produced request item := by
  obtain ⟨more, hholds, hproduced⟩ := Holds.empty.serveAll requests
  rwa [serveAll, hholds.remembered_eq]

/-- Later calls only add to what is remembered. -/
theorem remembered_append (requests more : List Request) :
    ∃ added, remembered (serveAll (requests ++ more)) =
      remembered (serveAll requests) ++ added := by
  obtain ⟨l, hholds, _⟩ := Holds.empty.serveAll requests
  obtain ⟨added, hlater, _⟩ := hholds.serveAll more
  refine ⟨added, ?_⟩
  unfold serveAll
  rw [List.foldl_append, hlater.remembered_eq, hholds.remembered_eq]

omit [NonemptyDigest] in
theorem serveAll_first {around : Surroundings} {observation : Observation}
    {classification : ObservationClassification} (hcheck : checkObservation observation = .ok ())
    (hclass : classifyObservation observation = .ok classification) :
    serveAll [⟨around, observation⟩] = some (extendMemory
      (emptyMemory around (subjectRef observation.subject_id)) around
      (storedObservation around observation classification zeroHash)).toJson := by
  have hobserve : observe around none observation = .ok (some (extendMemory
      (emptyMemory around (subjectRef observation.subject_id)) around
      (storedObservation around observation classification zeroHash)).toJson, receiptOf
        (storedObservation around observation classification zeroHash) (extendMemory
          (emptyMemory around (subjectRef observation.subject_id)) around
          (storedObservation around observation classification zeroHash))) := by
    unfold observe
    rw [readPlan_first hcheck hclass, ok_bind]
    rfl
  rw [serveAll, List.foldl_cons, List.foldl_nil]
  exact serve_of_ok hobserve

/-- What is remembered after the first observation of a subject. -/
theorem remembered_first {around : Surroundings} {observation : Observation}
    {classification : ObservationClassification} (hcheck : checkObservation observation = .ok ())
    (hclass : classifyObservation observation = .ok classification) :
    remembered (serveAll [⟨around, observation⟩]) =
      [(storedObservation around observation classification zeroHash).reread] := by
  have hholds := Holds.empty.extended (stored_wellformed hclass)
    (m := extendMemory (emptyMemory around (subjectRef observation.subject_id)) around
      (storedObservation around observation classification zeroHash)) rfl
  rw [serveAll_first hcheck hclass, hholds.remembered_eq, List.nil_append]

end Runs

section Specimen

omit [Unicode] [Interpreter] [Sha256] in
theorem noon_ranges :
    12 < 24 ∧ (1 ≤ 2026 ∧ 2026 ≤ 9999) ∧ (1 ≤ 9 ∧ 9 ≤ 12) ∧ 1 ≤ 1 ∧ 1 ≤ daysInMonth 2026 9 := by
  decide

/-- Noon of the first of September. -/
def noon (offset : Option Offset) : DateTime where
  year := 2026
  month := 9
  day := 1
  clock := ⟨12, 0, 0, 0, noon_ranges.1, Clock.midnight.minute_lt, Clock.midnight.second_lt,
    Clock.midnight.microsecond_lt⟩
  offset := offset
  year_range := noon_ranges.2.1
  month_range := noon_ranges.2.2.1
  day_range := noon_ranges.2.2.2

/-- A dispute about a vendor, with a free text or none. -/
def openDispute (text : Option String) (observed_at : DateTime) : Observation where
  subject_id := "vendor-0001"
  session_id := "session-0001"
  kind := .disputeOpened
  source_id := "ledger"
  facts := ⟨[("target", .text "0x00000000000000000000000000000000000000Aa"),
    ("dispute_id", .text "dispute-1"), ("status", .text "open")], by decide⟩
  raw_text := text
  evidence_mode := .demoFixture
  idempotency_key := "dispute-key-1"
  observed_at := observed_at

def disputeFacts : Json :=
  object [("target", .str "0x00000000000000000000000000000000000000aa"),
    ("dispute_id", .str "dispute-1"), ("status", .str "open")]

omit [Unicode] [Interpreter] [Sha256] in
theorem openDispute_checked (observed_at : DateTime) :
    checkObservation (openDispute none observed_at) = .ok () := by
  have hnoon : checkObservation (openDispute none (noon none)) = .ok () := by decide +kernel
  exact hnoon

omit [Unicode] [Interpreter] [Sha256] in
theorem openDispute_classified (observed_at : DateTime) :
    letI := asciiTables
    letI := strictInterpreter
    classifyObservation (openDispute none observed_at) =
      .ok ⟨.accepted, disputeFacts, [], ["structured_fact_accepted"]⟩ := by
  let _ := asciiTables
  let _ := strictInterpreter
  have hnoon : classifyObservation (openDispute none (noon none)) =
      .ok ⟨.accepted, disputeFacts, [], ["structured_fact_accepted"]⟩ := by decide +kernel
  exact hnoon

end Specimen

end MemoryGuard.Observing
