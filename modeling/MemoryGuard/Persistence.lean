import MemoryGuard.Decisions

/-!
What becomes of a memory that is written and read back. An observation whose
date-time carries an offset is read back as it was, so its hash still fits; one
without an offset is read back in UTC, and from then on the whole memory of the
subject is refused.
-/
namespace MemoryGuard.Persistence

open OrderedDict JsonText Guarded ContentHash CanonicalText IsoText JsonReading Observations
open PaymentPolicy Observing Decisions

variable [Unicode] [Interpreter] [Sha256]

section Errors

/-- An exception that is not about integrity. -/
def Foreign (e : GuardError) : Prop := ∀ message, e ≠ .integrity message

omit [Unicode] [Interpreter] [Sha256] in
theorem validateIdentifier_error {name s : String} {minimum maximum : ℕ} {e : GuardError}
    (h : validateIdentifier name s minimum maximum = .error e) : Foreign e := by
  simp only [validateIdentifier, bind_eq_error, ensure_eq_error] at h
  rcases h with ⟨_, rfl⟩ | ⟨_, _, _, rfl⟩
  · exact fun _ => GuardError.noConfusion
  · exact fun _ => GuardError.noConfusion

omit [Unicode] [Interpreter] [Sha256] in
theorem validateMachineIdentifier_error {name s : String} {e : GuardError}
    (h : validateMachineIdentifier name s = .error e) : Foreign e := by
  simp only [validateMachineIdentifier, bind_eq_error, ensure_eq_error] at h
  rcases h with h | ⟨_, _, _, rfl⟩
  · exact validateIdentifier_error h
  · exact fun _ => GuardError.noConfusion

omit [Unicode] [Interpreter] [Sha256] in
theorem checkObservation_error {observation : Observation} {e : GuardError}
    (h : checkObservation observation = .error e) : Foreign e := by
  simp only [checkObservation, bind_eq_error, ensure_eq_error] at h
  rcases h with h | ⟨_, _, h | ⟨_, _, h | ⟨_, _, h | ⟨_, _, _, rfl⟩⟩⟩⟩
  · exact validateIdentifier_error h
  · exact validateMachineIdentifier_error h
  · exact validateIdentifier_error h
  · exact validateMachineIdentifier_error h
  · exact fun _ => GuardError.noConfusion

omit [Unicode] [Interpreter] [Sha256] in
theorem checkIntent_error {intent : PaymentIntent} {e : GuardError}
    (h : checkIntent intent = .error e) : Foreign e := by
  simp only [checkIntent, bind_eq_error, ensure_eq_error] at h
  rcases h with h | ⟨_, _, h | ⟨_, _, h | ⟨_, _, h | ⟨_, _, ⟨_, rfl⟩ | ⟨_, _, ⟨_, rfl⟩ |
    ⟨_, _, ⟨_, rfl⟩ | ⟨_, _, _, rfl⟩⟩⟩⟩⟩⟩⟩
  · exact validateIdentifier_error h
  · exact validateMachineIdentifier_error h
  · exact validateMachineIdentifier_error h
  · exact validateIdentifier_error h
  · exact fun _ => GuardError.noConfusion
  · exact fun _ => GuardError.noConfusion
  · exact fun _ => GuardError.noConfusion
  · exact fun _ => GuardError.noConfusion

omit [Unicode] [Interpreter] [Sha256] in
theorem fetch_error {α : Type} {o : Option α} {name : String} {e : GuardError}
    (h : fetch o (.raised name) = .error e) : Foreign e := by
  obtain ⟨_, rfl⟩ := fetch_eq_error.mp h
  exact fun _ => GuardError.noConfusion

omit [Unicode] [Interpreter] [Sha256] in
theorem floatOfInt_error {n : ℤ} {e : GuardError} (h : floatOfInt n = .error e) : Foreign e := by
  unfold floatOfInt at h
  split at h
  · cases h
  · cases h
    exact fun _ => GuardError.noConfusion

omit [Unicode] [Sha256] in
theorem floatOf_error {v : Json} {e : GuardError} (h : floatOf v = .error e) : Foreign e := by
  unfold floatOf at h
  split at h
  · split at h
    · exact floatOfInt_error h
    · cases h
  · cases h
  · exact fetch_error h
  · cases h
    exact fun _ => GuardError.noConfusion

omit [Sha256] in
theorem validateFact_error {kind : ObservationKind} {key : String} {v : Fact} {e : GuardError}
    (h : validateFact kind key v = .error e) : Foreign e := by
  unfold validateFact at h
  split at h
  · split at h <;> cases h
  · split at h <;> cases h
  · split at h <;> cases h
  · split at h
    · rw [bind_eq_error] at h
      rcases h with h | ⟨_, _, h⟩
      · exact floatOfInt_error h
      · cases h
    · cases h
    · cases h
  · split at h
    · split at h
      · cases h
      · split at h
        · rw [bind_eq_error] at h
          rcases h with h | ⟨_, _, h⟩
          · exact fetch_error h
          · cases h
        · cases h
    · cases h
  · cases h
  · split at h <;> cases h
  · split at h <;> cases h
  · cases h

omit [Sha256] in
theorem classify_error {observation : Observation} {e : GuardError}
    (h : classifyObservation observation = .error e) : Foreign e := by
  simp only [classifyObservation, bind_eq_error] at h
  rcases h with h | ⟨_, _, h⟩
  · refine foldlM_error Foreign ?_ _ _ e h
    intro sorted fact e' he'
    unfold sortFact at he'
    split at he'
    · rw [bind_eq_error] at he'
      rcases he' with he' | ⟨check, _, he'⟩
      · exact validateFact_error he'
      · cases check <;> cases he'
    · cases he'
  · cases h

omit [Unicode] [Sha256] in
theorem covers_error {intent : PaymentIntent} {now : ℤ} {item : StoredObservation} {e : GuardError}
    (h : covers intent now item = .error e) : Foreign e := by
  rw [covers, bind_eq_error] at h
  rcases h with h | ⟨limit, _, h⟩
  · exact floatOf_error h
  · split at h
    · cases h
    · rw [bind_eq_error] at h
      rcases h with h | ⟨parsed, _, h⟩
      · exact fetch_error h
      · cases h

omit [Sha256] in
theorem decidePayment_error {intent : PaymentIntent} {now : ℤ} {l : List StoredObservation}
    {e : GuardError} (h : decidePayment intent now l = .error e) : Foreign e := by
  unfold decidePayment at h
  split at h
  · cases h
  · split at h
    · cases h
    · rw [bind_eq_error] at h
      rcases h with h | ⟨valid, _, h⟩
      · refine foldlM_error Foreign ?_ _ _ e h
        intro kept item e' he'
        rw [keepValid, bind_eq_error] at he'
        rcases he' with he' | ⟨here, _, he'⟩
        · exact covers_error he'
        · cases he'
      · split at h <;> cases h

end Errors

section Intact

/-- Whether `observe` takes an observation whose key is new. -/
def Admissible (observation : Observation) : Prop :=
  (checkObservation observation).isOk ∧ (classifyObservation observation).isOk

instance (observation : Observation) : Decidable (Admissible observation) := by
  unfold Admissible
  infer_instance

/-- The observations that are written, after one more is received. -/
def commit (kept : List Observation) (observation : Observation) : List Observation :=
  if Admissible observation ∧
      observation.idempotency_key ∉ kept.map Observation.idempotency_key then
    kept ++ [observation]
  else kept

/-- Of the observations that are received, those that are written: the first
admissible one of each key. -/
def committed (observations : List Observation) : List Observation := observations.foldl commit []

/-- One more call: what is stored after it, and the keys of the calls that were
answered, each once. -/
def answer (state : Option Json × List String) (request : Request) : Option Json × List String :=
  let key := request.observation.idempotency_key
  (serve state.1 request,
    if (observe request.around state.1 request.observation).isOk ∧ key ∉ state.2 then
      state.2 ++ [key]
    else state.2)

def acceptedKeys (requests : List Request) : List String := (requests.foldl answer (none, [])).2

/-- A memory that is read back as it was written, with one observation for each key. -/
inductive Intact (ref : Digest) : List String → Option Json → Prop
  | empty : Intact ref [] none
  | written (m : SubjectMemory) (valid : validateSubject m = .ok ()) (subject : m.subject_ref = ref)
    (wellformed : ∀ item ∈ m.observations, item.Wellformed)
    (aware : ∀ item ∈ m.observations, item.observed_at.Aware) :
    Intact ref (m.observations.map StoredObservation.idempotency_key) (some m.toJson)

variable {ref : Digest} {keys : List String} {store : Option Json}

/-- What is loaded of an intact memory. -/
theorem Intact.load (h : Intact ref keys store) (around : Surroundings) :
    ∃ loaded current, loadSubject store = .ok loaded ∧
      loaded.getD (emptyMemory around ref) = current ∧ validateSubject current = .ok () ∧
      current.subject_ref = ref ∧
      current.observations.map StoredObservation.idempotency_key = keys ∧
      (∀ item ∈ current.observations, item.Wellformed) ∧
      ∀ item ∈ current.observations, item.observed_at.Aware := by
  cases h with
  | empty =>
    exact ⟨none, _, rfl, rfl, validate_empty, rfl, rfl,
      fun _ hitem => absurd hitem List.not_mem_nil, fun _ hitem => absurd hitem List.not_mem_nil⟩
  | written m hvalid hsubject hwell haware =>
    have hsame : m.observations.map StoredObservation.reread = m.observations := by
      conv_rhs => rw [← List.map_id m.observations]
      exact List.map_congr_left fun item hitem =>
        StoredObservation.reread_of_aware (haware item hitem)
    have hreread : validateSubject m.reread = .ok () := by
      obtain ⟨hversion, hchain⟩ := validateSubject_ok.mp hvalid
      refine validateSubject_ok.mpr ⟨?_, ?_⟩
      · rw [SubjectMemory.reread, hsame]
        exact hversion
      · rw [SubjectMemory.reread, hsame]
        exact hchain
    refine ⟨some m.reread, m.reread, loadSubject_written hwell, rfl, hreread, hsubject, ?_, ?_, ?_⟩
    · rw [SubjectMemory.reread, hsame]
    · rw [SubjectMemory.reread, hsame]
      exact hwell
    · rw [SubjectMemory.reread, hsame]
      exact haware

omit [Sha256] in
theorem admissible_iff {observation : Observation} : Admissible observation ↔
    checkObservation observation = .ok () ∧
      ∃ classification, classifyObservation observation = .ok classification := by
  unfold Admissible
  cases checkObservation observation with
  | error e => simp [Except.isOk, Except.toBool]
  | ok u =>
    cases classifyObservation observation with
    | error e => simp [Except.isOk, Except.toBool]
    | ok c => simp [Except.isOk, Except.toBool]

/-- Only admissible observations are answered. -/
theorem admissible_of_ok {around : Surroundings} {observation : Observation}
    {answer : Option Json × ObservationReceipt}
    (h : observe around store observation = .ok answer) : Admissible observation := by
  simp only [observe, readPlan, planObservation, bind_eq_ok] at h
  obtain ⟨_, ⟨_, hcheck, _, _, _, _, classification, hclass, _⟩, _⟩ := h
  exact admissible_iff.mpr ⟨hcheck, classification, hclass⟩

omit [Unicode] [Interpreter] [Sha256] in
theorem mem_keys_iff {l : List StoredObservation} {key : String} :
    key ∉ l.map StoredObservation.idempotency_key ↔ ∀ item ∈ l, item.idempotency_key ≠ key := by
  simp only [List.mem_map, not_exists, not_and]

variable [NonemptyDigest]

/-- An admissible observation with a new key is written, any other one is not. -/
theorem Intact.serve (h : Intact ref keys store) (request : Request)
    (href : subjectRef request.observation.subject_id = ref) :
    (Admissible request.observation ∧ request.observation.idempotency_key ∉ keys →
      request.observation.observed_at.Aware →
      (observe request.around store request.observation).isOk ∧
        Intact ref (keys ++ [request.observation.idempotency_key])
          (Observing.serve store request)) ∧
    (¬ (Admissible request.observation ∧ request.observation.idempotency_key ∉ keys) →
      Observing.serve store request = store) := by
  obtain ⟨loaded, current, hload, hcurrent, hvalid, hsubject, hkeys, hwell, haware⟩ :=
    h.load request.around
  constructor
  · rintro ⟨hadmissible, hnew⟩ hoffset
    obtain ⟨hcheck, classification, hclass⟩ := admissible_iff.mp hadmissible
    obtain ⟨receipt, hobserve⟩ := observe_new hcheck hload (href ▸ hcurrent) hvalid
      (href ▸ hsubject) hclass (mem_keys_iff.mp (hkeys ▸ hnew))
    have hnext : Observing.serve store request = some (extendMemory current request.around
        (storedObservation request.around request.observation classification
          (lastHash current))).toJson := serve_of_ok hobserve
    rw [hnext, hobserve]
    refine ⟨rfl, ?_⟩
    have hstored : (storedObservation request.around request.observation classification
        (lastHash current)).Wellformed := stored_wellformed hclass
    have hwritten : Intact ref ((current.observations ++ [storedObservation request.around
        request.observation classification (lastHash current)]).map
          StoredObservation.idempotency_key) _ :=
      .written (extendMemory current request.around (storedObservation request.around
        request.observation classification (lastHash current)))
        (validate_extend hvalid (hsubject.trans href.symm ▸ stored_continues)) href ?_ ?_
    · rwa [List.map_append, hkeys] at hwritten
    · exact List.forall_mem_append.mpr ⟨hwell, List.forall_mem_singleton.mpr hstored⟩
    · exact List.forall_mem_append.mpr ⟨haware, List.forall_mem_singleton.mpr hoffset⟩
  · intro hnot
    unfold Observing.serve
    cases hobserve : observe request.around store request.observation with
    | error e => rfl
    | ok answer =>
      obtain ⟨current', classification, hcurrent', _, _, hcases⟩ := observe_cases hobserve
      rcases hcases with hsame | ⟨hnew, _⟩
      · exact hsame
      · refine absurd ⟨admissible_of_ok hobserve, ?_⟩ hnot
        have hread : currentMemory request.around ref store = .ok current := by
          unfold currentMemory
          rw [hload, ok_bind, hcurrent]
          rfl
        rw [href, hread] at hcurrent'
        cases hcurrent'
        rw [← hkeys]
        exact mem_keys_iff.mpr hnew

omit [Sha256] [NonemptyDigest] in
theorem mem_commit_of_mem {observations kept : List Observation} {o : Observation} (h : o ∈ kept) :
    o ∈ observations.foldl commit kept := by
  induction observations generalizing kept with
  | nil => exact h
  | cons next rest ih =>
    rw [List.foldl_cons]
    apply ih
    unfold commit
    split
    · exact List.mem_append_left _ h
    · exact h

omit [NonemptyDigest] in
theorem answer_new {request : Request}
    (h : (observe request.around store request.observation).isOk ∧
      request.observation.idempotency_key ∉ keys) :
    answer (store, keys) request =
      (Observing.serve store request, keys ++ [request.observation.idempotency_key]) := by
  rw [answer, if_pos h]

omit [NonemptyDigest] in
theorem answer_known {request : Request}
    (h : ¬ ((observe request.around store request.observation).isOk ∧
      request.observation.idempotency_key ∉ keys)) :
    answer (store, keys) request = (Observing.serve store request, keys) := by
  rw [answer, if_neg h]

/-- A memory stays intact while what is written carries an offset. -/
theorem Intact.run (requests : List Request) {kept : List Observation}
    (h : Intact ref (kept.map Observation.idempotency_key) store)
    (hrefs : ∀ request ∈ requests, subjectRef request.observation.subject_id = ref)
    (haware : ∀ o ∈ (requests.map Request.observation).foldl commit kept, o.observed_at.Aware) :
    Intact ref (((requests.map Request.observation).foldl commit kept).map
        Observation.idempotency_key) (requests.foldl Observing.serve store) ∧
      (requests.foldl answer (store, kept.map Observation.idempotency_key)).2 =
        ((requests.map Request.observation).foldl commit kept).map Observation.idempotency_key := by
  induction requests generalizing kept store with
  | nil => exact ⟨h, rfl⟩
  | cons request rest ih =>
    have href := hrefs request List.mem_cons_self
    have hrest := fun r hr => hrefs r (List.mem_cons_of_mem _ hr)
    obtain ⟨hwrite, hkeep⟩ := h.serve request href
    rw [List.map_cons, List.foldl_cons, List.foldl_cons] at *
    by_cases hnew : Admissible request.observation ∧
        request.observation.idempotency_key ∉ kept.map Observation.idempotency_key
    · have hcommit : commit kept request.observation = kept ++ [request.observation] := if_pos hnew
      rw [hcommit] at haware ⊢
      have hoffset := haware request.observation (mem_commit_of_mem (by simp))
      obtain ⟨hanswered, hintact⟩ := hwrite hnew hoffset
      have hkeys : kept.map Observation.idempotency_key ++ [request.observation.idempotency_key] =
          (kept ++ [request.observation]).map Observation.idempotency_key := by
        rw [List.map_append, List.map_singleton]
      rw [List.foldl_cons, answer_new ⟨hanswered, hnew.2⟩, hkeys]
      rw [hkeys] at hintact
      exact ih hintact hrest haware
    · have hcommit : commit kept request.observation = kept := if_neg hnew
      rw [hcommit] at haware ⊢
      have hsame := hkeep hnew
      have hnot : ¬ ((observe request.around store request.observation).isOk = true ∧
          request.observation.idempotency_key ∉ kept.map Observation.idempotency_key) := by
        rintro ⟨hok, hkey⟩
        cases hobserve : observe request.around store request.observation with
        | error e =>
          rw [hobserve] at hok
          cases hok
        | ok answered => exact hnew ⟨admissible_of_ok hobserve, hkey⟩
      rw [List.foldl_cons, answer_known hnot, hsame]
      exact ih h hrest haware

end Intact

section Survival

/-- A memory that no later call is refused for. -/
structure Survives (ref : Digest) (keys : List String) (store : Option Json) : Prop where
  loads : ∃ loaded, loadSubject store = .ok loaded ∧
    (∀ m ∈ loaded, validateSubject m = .ok ()) ∧
    ((loaded.map SubjectMemory.observations).getD []).map StoredObservation.idempotency_key = keys
  observes : ∀ (around : Surroundings) (observation : Observation),
    subjectRef observation.subject_id = ref →
      ∀ message, observe around store observation ≠ .error (.integrity message)
  decides : ∀ (guard : Guard) (around : DecisionSurroundings) (intent : PaymentIntent),
    subjectRef intent.subject_id = ref →
      ∀ message, decideIntent guard around store intent ≠ .error (.integrity message)

variable {ref : Digest} {keys : List String} {store : Option Json}

theorem Intact.current (h : Intact ref keys store) (around : Surroundings) :
    ∃ current, currentMemory around ref store = .ok current ∧ validateSubject current = .ok () ∧
      current.subject_ref = ref := by
  obtain ⟨loaded, current, hload, hcurrent, hvalid, hsubject, _⟩ := h.load around
  refine ⟨current, ?_, hvalid, hsubject⟩
  unfold currentMemory
  rw [hload, ok_bind, hcurrent]
  rfl

theorem Intact.observe_error (h : Intact ref keys store) {around : Surroundings}
    {observation : Observation} (href : subjectRef observation.subject_id = ref) {e : GuardError}
    (herror : observe around store observation = .error e) : Foreign e := by
  obtain ⟨current, hcurrent, hvalid, hsubject⟩ := h.current around
  obtain ⟨loaded, _, hload, _⟩ := h.load around
  rw [observe, bind_eq_error] at herror
  rcases herror with herror | ⟨plan, _, herror⟩
  · rw [readPlan, bind_eq_error] at herror
    rcases herror with herror | ⟨_, _, herror⟩
    · exact checkObservation_error herror
    · rw [href, hcurrent, ok_bind, planObservation, hvalid, ok_bind, bind_eq_error] at herror
      rcases herror with herror | ⟨classification, _, herror⟩
      · exact classify_error herror
      · split at herror
        · rw [bind_eq_error, ensure_eq_error] at herror
          rcases herror with ⟨_, rfl⟩ | ⟨_, _, herror⟩
          · exact fun _ => GuardError.noConfusion
          · cases herror
        · have hextended : validateSubject (extendMemory current around (storedObservation around
              observation classification (lastHash current))) = .ok () :=
            validate_extend hvalid (hsubject.trans href.symm ▸ stored_continues)
          dsimp only at herror
          rw [hextended] at herror
          cases herror
  · split at herror
    · cases herror
    · rw [bind_eq_error] at herror
      rcases herror with herror | ⟨_, _, herror⟩
      · rw [checkVersion, hload, ok_bind, ensure_eq_error] at herror
        obtain ⟨_, rfl⟩ := herror
        exact fun _ => GuardError.noConfusion
      · cases herror

theorem Intact.decide_error (h : Intact ref keys store) {guard : Guard}
    {around : DecisionSurroundings} {intent : PaymentIntent}
    (href : subjectRef intent.subject_id = ref) {e : GuardError}
    (herror : decideIntent guard around store intent = .error e) : Foreign e := by
  obtain ⟨current, hcurrent, hvalid, _⟩ := h.current around.toSurroundings
  rw [decideIntent, bind_eq_error] at herror
  rcases herror with herror | ⟨_, _, herror⟩
  · exact checkIntent_error herror
  · rw [href, hcurrent, ok_bind, hvalid, ok_bind, bind_eq_error] at herror
    rcases herror with herror | ⟨result, _, herror⟩
    · exact decidePayment_error herror
    · rw [bind_eq_error] at herror
      rcases herror with herror | ⟨expires_at, _, herror⟩
      · exact fetch_error herror
      · dsimp only at herror
        rw [validate_draft] at herror
        cases herror

theorem Intact.survives (h : Intact ref keys store) : Survives ref keys store where
  loads := by
    obtain ⟨loaded, current, hload, hcurrent, hvalid, _, hkeys, _⟩ := h.load ⟨"", noon none⟩
    refine ⟨loaded, hload, ?_, ?_⟩
    · intro m hm
      rw [Option.mem_def] at hm
      rw [hm, Option.getD_some] at hcurrent
      exact hcurrent ▸ hvalid
    · cases loaded with
      | none => rw [← hkeys, ← hcurrent]; rfl
      | some m => rw [← hkeys, ← hcurrent]; rfl
  observes := fun _ _ href message herror => h.observe_error href herror message rfl
  decides := fun _ _ _ href message herror => h.decide_error href herror message rfl

/-- When every observation that is written carries an offset, the memory of a
subject is read back, with one observation for each accepted key in the order
of the calls, and no call is refused for its integrity. -/
theorem memory_survives [NonemptyDigest] (ref : Digest) (requests : List Request)
    (hrefs : ∀ request ∈ requests, subjectRef request.observation.subject_id = ref)
    (haware : ∀ observation ∈ committed (requests.map Request.observation),
      observation.observed_at.Aware) :
    Survives ref (acceptedKeys requests) (serveAll requests) := by
  have hempty : Intact ref (([] : List Observation).map Observation.idempotency_key) none := .empty
  obtain ⟨hintact, hkeys⟩ := hempty.run requests hrefs haware
  have hall := hintact.survives
  rwa [← hkeys] at hall

omit [Unicode] [Interpreter] [Sha256] in
theorem dispute_survives :
    letI := spelling
    letI := asciiTables
    letI := strictInterpreter
    Admissible (openDispute none (noon (some .utc))) ∧
      Survives (subjectRef "vendor-0001")
        (acceptedKeys [⟨⟨"1", noon none⟩, openDispute none (noon (some .utc))⟩])
        (serveAll [⟨⟨"1", noon none⟩, openDispute none (noon (some .utc))⟩]) := by
  let _ := spelling
  let _ := asciiTables
  let _ := strictInterpreter
  have := spelling_nonempty
  have hadmissible : Admissible (openDispute none (noon (some .utc))) :=
    admissible_iff.mpr ⟨openDispute_checked _, _, openDispute_classified _⟩
  have hcommitted : committed [openDispute none (noon (some .utc))] =
      [openDispute none (noon (some .utc))] := by
    rw [committed, List.foldl_cons, List.foldl_nil, commit, if_pos ⟨hadmissible, List.not_mem_nil⟩,
      List.nil_append]
  refine ⟨hadmissible, memory_survives _ _ ?_ ?_⟩
  · intro request hrequest
    rw [List.mem_singleton.mp hrequest]
    rfl
  · intro observation hobservation
    rw [List.map_singleton, hcommitted] at hobservation
    rw [List.mem_singleton.mp hobservation]
    rfl

/-- A first observation without an offset makes the memory unreadable. -/
theorem naive_unreadable [NonemptyDigest] [CollisionFree] [PlainAscii] {around : Surroundings}
    {observation : Observation} (hadmissible : Admissible observation)
    (hnaive : ¬ observation.observed_at.Aware) (ref : Digest) (keys : List String) :
    ¬ Survives ref keys (serveAll [⟨around, observation⟩]) := by
  obtain ⟨hcheck, classification, hclass⟩ := admissible_iff.mp hadmissible
  intro hsurvives
  obtain ⟨loaded, hload, hvalid, _⟩ := hsurvives.loads
  have hwell : ∀ item ∈ (extendMemory (emptyMemory around (subjectRef observation.subject_id))
      around (storedObservation around observation classification zeroHash)).observations,
      item.Wellformed :=
    Holds.empty.wellformed_extended (stored_wellformed hclass) rfl
  have hwritten : serveAll [⟨around, observation⟩] = _ := serveAll_first hcheck hclass
  rw [hwritten, loadSubject_written hwell] at hload
  cases hload
  have hchain := (validateSubject_ok.mp (hvalid _ rfl)).2
  obtain ⟨hitem, _⟩ := validateChain_cons.mp hchain
  exact hash_reread_ne hnaive hitem.hash.symm

omit [Unicode] [Interpreter] [Sha256] in
theorem naive_dispute_lost :
    letI := spelling
    letI := asciiTables
    letI := strictInterpreter
    ¬ ∀ requests : List Request,
      (∀ request ∈ requests,
        subjectRef request.observation.subject_id = subjectRef "vendor-0001") →
      Survives (subjectRef "vendor-0001") (acceptedKeys requests) (serveAll requests) := by
  let _ := spelling
  let _ := asciiTables
  let _ := strictInterpreter
  have := spelling_nonempty
  have := spelling_collisionFree
  have := asciiTables_plain
  intro hall
  have hadmissible : Admissible (openDispute none (noon none)) :=
    admissible_iff.mpr ⟨openDispute_checked (noon none), _, openDispute_classified (noon none)⟩
  have hnaive : ¬ (openDispute none (noon none)).observed_at.Aware := by decide
  have hsurvives := hall [⟨⟨"1", noon none⟩, openDispute none (noon none)⟩] (by
    intro request hrequest
    rw [List.mem_singleton.mp hrequest]
    rfl)
  exact naive_unreadable hadmissible hnaive _ _ hsurvives

end Survival

end MemoryGuard.Persistence
