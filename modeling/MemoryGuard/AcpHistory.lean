import MemoryGuard.Ingress
import MemoryGuard.JsonReading
import MemoryGuard.Loops

/-!
The reader of a job's history. What the command line tool returns is checked
against the reviewed contract, its status is derived once more from the system
events, and the messages are searched for the request and for the provider's
review. Entries are read one by one; an entry of a third party changes nothing.
-/
namespace MemoryGuard.AcpHistory

open OrderedDict Guarded JsonText ContentHash CanonicalText JsonReading Numbers Models Core
open Artifacts (IsJobId)
open SourceModels JsonBodies Loops

/-- How a read ends when it fails: with an error of its own, or with the
exception of a membership test of a list or dictionary. -/
inductive Fault
  | casework (e : CaseworkError)
  | typeError
  deriving DecidableEq

section Values

/-- What a set or dictionary can be asked for. -/
def Hashable : Option Json → Prop
  | some (.arr _) => False
  | some (.obj _) => False
  | _ => True

instance (v : Option Json) : Decidable (Hashable v) := by
  unfold Hashable
  split <;> infer_instance

def IsText (members : List String) (v : Option Json) : Prop := ∃ s ∈ members, v = some (.str s)

instance (members : List String) (v : Option Json) : Decidable (IsText members v) := by
  unfold IsText
  infer_instance

/-- `v in members`, for a set of texts. -/
def isIn (members : List String) (v : Option Json) : Except Fault Bool := do
  ensure (Hashable v) .typeError
  return IsText members v

/-- `v`, where `type(v) is int`. -/
def wholeNumber : Option Json → Option ℤ
  | some (.num n) => integer n
  | _ => none

end Values

section Reader

variable [Sha256] [Interpreter] [Unicode] (loads : String → Option Json) (spec : VirtualsSpec)

def statuses : List String :=
  ["open", "budget_set", "funded", "submitted", "completed", "rejected", "expired"]

omit [Sha256] [Unicode] in
/-- The history is one of the job that was asked for, on the configured chain. -/
def Addressed (job_id : String) (data : Json) : Prop :=
  field "protocol" data = some (.str "v2") ∧ strOf ((field "jobId" data).getD .null) = job_id ∧
    (field "chainId" data).bind numeric = some (spec.chain_id.id : ℚ)

instance (job_id : String) (data : Json) : Decidable (Addressed spec job_id data) := by
  unfold Addressed
  infer_instance

def entriesOf (data : Json) : Option (List Json) :=
  match field "entries" data with
  | some (.arr entries) => some entries
  | _ => none

/-- The entries of a history that meets the contract. -/
def accepted (job_id : String) (data : Json) : Except Fault (List Json) := do
  let mismatch := Fault.casework ⟨"ACP_V2_HISTORY_CONTRACT_MISMATCH", 502⟩
  ensure (Addressed spec job_id data) mismatch
  let known ← isIn statuses (field "status" data)
  ensure (known = true) mismatch
  let entries ← fetch (entriesOf data) mismatch
  ensure (entries.length ≤ 1000 ∧
    wholeNumber (field "entryCount" data) = some (entries.length : ℤ)) mismatch
  return entries

def phaseMap : List (String × String) :=
  [("job.created", "open"), ("budget.set", "budget_set"), ("job.funded", "funded"),
    ("job.submitted", "submitted"), ("job.completed", "completed"),
    ("job.rejected", "rejected"), ("job.expired", "expired")]

/-- The event of a system entry. -/
def systemEvent (entry : Json) : Option Json :=
  if field "kind" entry = some (.str "system") then
    match field "event" entry with
    | some (.obj fields) => some (.obj fields)
    | _ => none
  else none

/-- The phase that the type of an event stands for. -/
def phaseNamed : Option Json → Option String
  | some (.str type) => phaseMap.lookup type
  | _ => none

/-- One entry of the first pass, which derives the status. -/
def derive (derived : String) (entry : Json) : Except Fault String :=
  match systemEvent entry with
  | some event => do
    ensure (Hashable (field "type" event)) .typeError
    return (phaseNamed (field "type" event)).getD derived
  | none => return derived

/-- The address a message comes from, in lower case. -/
def sender (entry : Json) : String := Unicode.lower (strOf ((field "from" entry).getD (.str "")))

/-- The JSON object that a message carries as its content. -/
def messageOf (entry : Json) : Option Json := do
  guard (field "kind" entry = some (.str "message"))
  let .str content ← field "content" entry | none
  guard (content.length ≤ 32000)
  let .obj fields ← strictJson loads 32000 (utf8 content) | none
  return .obj fields

def keysOf : Json → List String
  | .obj fields => fields.map Prod.fst
  | _ => []

def reviewKeys : List String :=
  ["schema_version", "request_hash", "recommendation", "finding_codes"]

def recommendations : List String := ["KEEP_BLOCKED", "MORE_EVIDENCE", "REVIEW_COMPLETED"]

def findingCodes : List String :=
  ["SOURCE_CONFLICT", "INSUFFICIENT_EVIDENCE", "STALE_SOURCE", "CONSISTENT_SNAPSHOTS",
    "MANUAL_REVIEW_REQUIRED"]

/-- A review of this request, by its keys and its hash. -/
def Answers (wanted : Digest) (message : Json) : Prop :=
  (∀ k ∈ keysOf message, k ∈ reviewKeys) ∧ (∀ k ∈ reviewKeys, k ∈ keysOf message) ∧
    field "request_hash" message = some (.str wanted)

instance (wanted : Digest) (message : Json) : Decidable (Answers wanted message) := by
  unfold Answers
  infer_instance

def Findings : Option Json → Prop
  | some (.arr codes) => codes.length ≤ 12 ∧ ∀ x ∈ codes, IsText findingCodes (some x)
  | _ => False

instance (v : Option Json) : Decidable (Findings v) := by
  unfold Findings
  split <;> infer_instance

/-- The checks of a review, in the order of the source. -/
def checkReview (wanted : Digest) (message : Json) : Except Fault Bool :=
  if Answers wanted message then do
    let known ← isIn recommendations (field "recommendation" message)
    return known ∧ Findings (field "finding_codes" message)
  else return false

/-- What the second pass has found so far. -/
structure Reading where
  bound : Bool
  reviews : List Json
  invalid_review : Bool

/-- A message of the client that states this request. -/
def Binds (wanted : Digest) (entry message : Json) : Prop :=
  sender entry = Unicode.lower spec.client_address ∧
    field "contentType" entry = some (.str "requirement") ∧
    digest "acp-requirements" message = wanted

/-- A message of the provider that calls itself a review. -/
def Reviews (entry message : Json) : Prop :=
  sender entry = Unicode.lower spec.provider_address ∧
    field "schema_version" message = some (.str "memoryguard-review/1")

instance (wanted : Digest) (entry message : Json) :
    Decidable (Binds spec wanted entry message) := by
  unfold Binds
  infer_instance

instance (entry message : Json) : Decidable (Reviews spec entry message) := by
  unfold Reviews
  infer_instance

/-- One entry of the second pass. -/
def readEntry (wanted : Digest) (acc : Reading) (entry : Json) : Except Fault Reading :=
  match messageOf loads entry with
  | none => return acc
  | some message =>
    let acc := if Binds spec wanted entry message then { acc with bound := true } else acc
    if Reviews spec entry message then do
      let valid ← checkReview wanted message
      return if valid then { acc with reviews := acc.reviews ++ [message] }
        else { acc with invalid_review := true }
    else return acc

/-- What a read returns; the other fields are the same for every history. -/
structure HistoryResult where
  job_id : String
  chain_id : Chain
  status : String
  request_hash : Digest
  history_digest : Digest
  review : Option Json
  deriving DecidableEq

def HistoryResult.provider_message_bound (r : HistoryResult) : Bool := r.review.isSome

def HistoryResult.complete_review_observed (r : HistoryResult) : Bool :=
  r.status = "completed" ∧ r.review.isSome

def HistoryResult.fields (r : HistoryResult) : List (String × Json) :=
  [("job_id", .str r.job_id), ("chain_id", nat r.chain_id.id), ("protocol", .str "v2"),
    ("status", .str r.status), ("request_hash", .str r.request_hash),
    ("history_digest", .str r.history_digest),
    ("provider_message_bound", .bool r.provider_message_bound),
    ("review", r.review.getD .null),
    ("complete_review_observed", .bool r.complete_review_observed),
    ("cost_verified", .bool false), ("onchain_receipt_verified", .bool false),
    ("provenance", .str "ACP_CLI_HISTORY_BOUND"), ("authoritative", .bool false),
    ("executable", .bool false)]

/-- `history`. Here `answer` is what the command line tool came back with. -/
def history (job_id : String) (requirements : Json) (answer : Except CaseworkError Json) :
    Except Fault HistoryResult := do
  ensure (IsJobId job_id) (.casework ⟨"ACP_JOB_ID_INVALID", 422⟩)
  let data ← answer.mapError .casework
  let entries ← accepted spec job_id data
  let derived ← entries.foldlM derive "open"
  ensure (field "status" data = some (.str derived))
    (.casework ⟨"ACP_STATUS_HISTORY_MISMATCH", 502⟩)
  let wanted := digest "acp-requirements" requirements
  let found ← entries.foldlM (readEntry loads spec wanted) ⟨false, [], false⟩
  ensure (found.bound = true) (.casework ⟨"ACP_REQUIREMENTS_NOT_BOUND", 409⟩)
  ensure (found.invalid_review = false) (.casework ⟨"ACP_REVIEW_PAYLOAD_INVALID", 502⟩)
  ensure ((found.reviews.map (digest "acp-review-message")).dedup.length ≤ 1)
    (.casework ⟨"ACP_PROVIDER_REVIEW_CONFLICT", 409⟩)
  return ⟨job_id, spec.chain_id, derived, wanted, digest "acp-history" data,
    found.reviews.getLast?⟩

end Reader

section Passes

/-- A system entry whose type cannot be looked up. -/
def Unreadable (entry : Json) : Prop :=
  ∃ event ∈ systemEvent entry, ¬ Hashable (field "type" event)

instance (entry : Json) : Decidable (Unreadable entry) := by
  unfold Unreadable
  infer_instance

/-- The phase that an entry reports. -/
def recognised (entry : Json) : Option String :=
  (systemEvent entry).bind fun event => phaseNamed (field "type" event)

def lastPhase (entries : List Json) : String :=
  (entries.filterMap recognised).getLast?.getD "open"

theorem derive_eq (derived : String) (entry : Json) : derive derived entry =
    if Unreadable entry then .error .typeError else .ok ((recognised entry).getD derived) := by
  unfold derive Unreadable recognised
  obtain hnone | ⟨event, hsome⟩ := Option.eq_none_or_eq_some (systemEvent entry)
  · simp [hnone, pure, Except.pure]
  · by_cases hevent : Hashable (field "type" event)
    · simp [hsome, ensure, hevent, pure, Except.pure, bind, Except.bind]
    · simp [hsome, ensure, hevent, bind, Except.bind]

/-- The first pass. -/
theorem derive_pass (entries : List Json) : entries.foldlM derive "open" =
    if ∃ entry ∈ entries, Unreadable entry then .error .typeError
    else .ok (lastPhase entries) := by
  rw [foldlM_guarded derive_eq, foldl_getD]
  rfl

variable [Sha256] [Interpreter] [Unicode] (loads : String → Option Json) (spec : VirtualsSpec)
  (wanted : Digest)

/-- A review that is checked up to its recommendation, which cannot be looked up. -/
def Untestable (entry : Json) : Prop :=
  ∃ message ∈ messageOf loads entry, Reviews spec entry message ∧ Answers wanted message ∧
    ¬ Hashable (field "recommendation" message)

instance (entry : Json) : Decidable (Untestable loads spec wanted entry) := by
  unfold Untestable
  infer_instance

def Valid (message : Json) : Prop :=
  Answers wanted message ∧ IsText recommendations (field "recommendation" message) ∧
    Findings (field "finding_codes" message)

instance (message : Json) : Decidable (Valid wanted message) := by
  unfold Valid
  infer_instance

/-- Whether an entry is the client's statement of the request. -/
def Bound (entry : Json) : Prop :=
  ∃ message ∈ messageOf loads entry, Binds spec wanted entry message

instance (entry : Json) : Decidable (Bound loads spec wanted entry) := by
  unfold Bound
  infer_instance

/-- The review that an entry carries. -/
def reviewOf (entry : Json) : Option Json :=
  (messageOf loads entry).filter fun message => Reviews spec entry message

def noted (acc : Reading) (entry : Json) : Reading where
  bound := acc.bound || decide (Bound loads spec wanted entry)
  reviews := acc.reviews ++ ((reviewOf loads spec entry).filter (Valid wanted ·)).toList
  invalid_review := acc.invalid_review ||
    (reviewOf loads spec entry).any (¬ Valid wanted ·)

variable {loads : String → Option Json} {spec : VirtualsSpec} {wanted : Digest}

omit [Sha256] [Interpreter] [Unicode] in
theorem checkReview_eq (message : Json) : checkReview wanted message =
    if Answers wanted message ∧ ¬ Hashable (field "recommendation" message) then .error .typeError
    else .ok (decide (Valid wanted message)) := by
  unfold checkReview isIn Valid
  by_cases hanswers : Answers wanted message
  · by_cases hhashable : Hashable (field "recommendation" message)
    · simp [ensure, hanswers, hhashable, pure, Except.pure, bind, Except.bind]
    · simp [ensure, hanswers, hhashable, bind, Except.bind]
  · simp [hanswers, pure, Except.pure]

theorem readEntry_eq (acc : Reading) (entry : Json) : readEntry loads spec wanted acc entry =
    if Untestable loads spec wanted entry then .error .typeError
    else .ok (noted loads spec wanted acc entry) := by
  obtain ⟨bound, reviews, invalid⟩ := acc
  unfold readEntry Untestable noted Bound reviewOf
  obtain hnone | ⟨message, hsome⟩ := Option.eq_none_or_eq_some (messageOf loads entry)
  · simp [hnone, pure, Except.pure]
  by_cases hreviews : Reviews spec entry message
  · by_cases htrips : Answers wanted message ∧ ¬ Hashable (field "recommendation" message)
    · simp [hsome, checkReview_eq, htrips, hreviews, bind, Except.bind]
    · by_cases hbinds : Binds spec wanted entry message <;>
        by_cases hvalid : Valid wanted message <;>
          simp [hsome, checkReview_eq, htrips, hreviews, hbinds, hvalid, pure, Except.pure, bind,
            Except.bind, Option.filter]
  · by_cases hbinds : Binds spec wanted entry message <;>
      simp [hsome, hreviews, hbinds, pure, Except.pure, Option.filter]

theorem foldl_noted (entries : List Json) (acc : Reading) :
    entries.foldl (noted loads spec wanted) acc =
      { bound := acc.bound || entries.any (Bound loads spec wanted ·)
        reviews := acc.reviews ++
          (entries.filterMap (reviewOf loads spec)).filter (Valid wanted ·)
        invalid_review := acc.invalid_review ||
          (entries.filterMap (reviewOf loads spec)).any (¬ Valid wanted ·) } := by
  induction entries generalizing acc with
  | nil => simp
  | cons entry entries ih =>
    rw [List.foldl_cons, ih]
    unfold noted
    cases hreview : reviewOf loads spec entry with
    | none => simp [hreview, Bool.or_assoc]
    | some message =>
      by_cases hvalid : Valid wanted message <;>
        simp [hreview, hvalid, Bool.or_assoc, Option.filter]

/-- The second pass. -/
theorem reading_pass (entries : List Json) :
    entries.foldlM (readEntry loads spec wanted) ⟨false, [], false⟩ =
      if ∃ entry ∈ entries, Untestable loads spec wanted entry then .error .typeError
      else .ok {
        bound := entries.any (Bound loads spec wanted ·)
        reviews := (entries.filterMap (reviewOf loads spec)).filter (Valid wanted ·)
        invalid_review := (entries.filterMap (reviewOf loads spec)).any (¬ Valid wanted ·) } := by
  rw [foldlM_guarded readEntry_eq, foldl_noted]
  rfl

end Passes

section Contract

variable [Interpreter] {spec : VirtualsSpec} {job_id status : String} {data : Json}
  {entries : List Json}

/-- A history that meets the contract, with its status and its entries. -/
structure Contract (spec : VirtualsSpec) (job_id : String) (data : Json) (status : String)
    (entries : List Json) : Prop where
  addressed : Addressed spec job_id data
  stated : field "status" data = some (.str status)
  known : status ∈ statuses
  held : field "entries" data = some (.arr entries)
  few : entries.length ≤ 1000
  counted : wholeNumber (field "entryCount" data) = some (entries.length : ℤ)

omit [Interpreter] in
theorem entriesOf_eq_some : entriesOf data = some entries ↔
    field "entries" data = some (.arr entries) := by
  unfold entriesOf
  constructor
  · intro h
    split at h
    · rename_i l hl
      cases h
      exact hl
    · cases h
  · intro h
    rw [h]

omit [Interpreter] in
theorem isIn_eq_true {members : List String} {v : Option Json} :
    isIn members v = .ok true ↔ IsText members v := by
  simp only [isIn, bind_eq_ok, ensure_eq_ok, pure_eq_ok, decide_eq_true_eq]
  constructor
  · rintro ⟨_, _, h⟩
    exact h
  · intro h
    refine ⟨(), ?_, h⟩
    obtain ⟨s, _, rfl⟩ := h
    trivial

omit [Interpreter] in
theorem isIn_eq_error {members : List String} {v : Option Json} {e : Fault} :
    isIn members v = .error e ↔ ¬ Hashable v ∧ e = .typeError := by
  simp only [isIn, bind_eq_error, ensure_eq_error, ensure_eq_ok]
  constructor
  · rintro (⟨h, rfl⟩ | ⟨_, _, h⟩)
    · exact ⟨h, rfl⟩
    · cases h
  · rintro ⟨h, rfl⟩
    exact Or.inl ⟨h, rfl⟩

theorem accepted_eq_ok : accepted spec job_id data = .ok entries ↔
    ∃ status, Contract spec job_id data status entries := by
  simp only [accepted, bind_eq_ok, ensure_eq_ok, fetch_eq_ok, pure_eq_ok, entriesOf_eq_some]
  constructor
  · rintro ⟨_, haddressed, known, hknown, _, rfl, l, hentries, _, ⟨hfew, hcounted⟩, rfl⟩
    obtain ⟨status, hmem, hstatus⟩ := isIn_eq_true.mp hknown
    exact ⟨status, haddressed, hstatus, hmem, hentries, hfew, hcounted⟩
  · rintro ⟨status, h⟩
    exact ⟨(), h.addressed, true, isIn_eq_true.mpr ⟨status, h.known, h.stated⟩, (), rfl, entries,
      h.held, (), ⟨h.few, h.counted⟩, rfl⟩

/-- The contract is checked without an exception unless the status cannot be
looked up. -/
theorem accepted_eq_typeError : accepted spec job_id data = .error .typeError ↔
    Addressed spec job_id data ∧ ¬ Hashable (field "status" data) := by
  simp only [accepted, bind_eq_error, ensure_eq_error, ensure_eq_ok, fetch_eq_error, isIn_eq_error,
    reduceCtorEq, and_false, false_or, and_true]
  constructor
  · rintro ⟨_, haddressed, hstatus | ⟨_, _, _, _, _, _, _, _, h⟩⟩
    · exact ⟨haddressed, hstatus⟩
    · cases h
  · rintro ⟨haddressed, hstatus⟩
    exact ⟨(), haddressed, Or.inl hstatus⟩

end Contract

section ThirdParties

variable [Sha256] [Interpreter] [Unicode] {loads : String → Option Json} {spec : VirtualsSpec}
  {job_id : String} {requirements data data' : Json} {entries entries' : List Json}

omit [Sha256] in
/-- A message of neither party, whatever letter case its address is in. -/
def Foreign (spec : VirtualsSpec) (entry : Json) : Prop :=
  field "kind" entry = some (.str "message") ∧
    sender entry ≠ Unicode.lower spec.client_address ∧
    sender entry ≠ Unicode.lower spec.provider_address

instance (entry : Json) : Decidable (Foreign spec entry) := by
  unfold Foreign
  infer_instance

omit [Sha256] in
/-- One history is the other with foreign messages put in or left out, and with
the number of entries adjusted. -/
structure Padded (spec : VirtualsSpec) (data data' : Json) (entries entries' : List Json) :
    Prop where
  held : field "entries" data = some (.arr entries)
  held' : field "entries" data' = some (.arr entries')
  others : ∀ k, k ≠ "entries" → k ≠ "entryCount" → field k data' = field k data
  own : entries'.filter (¬ Foreign spec ·) = entries.filter (¬ Foreign spec ·)
  counted : wholeNumber (field "entryCount" data') =
    (wholeNumber (field "entryCount" data)).map (· + (entries'.length - entries.length : ℤ))
  few : entries.length ≤ 1000
  few' : entries'.length ≤ 1000

/-- The same failure, or the same result but for the digest of the history. -/
def Alike (x y : Except Fault HistoryResult) : Prop :=
  x.map (fun r => { r with history_digest := "" }) =
    y.map (fun r => { r with history_digest := "" })

omit [Sha256] in
theorem derive_foreign {entry : Json} (h : Foreign spec entry) (derived : String) :
    derive derived entry = .ok derived := by
  have hkind : systemEvent entry = none := by
    unfold systemEvent
    rw [if_neg]
    rw [h.1]
    simp
  unfold derive
  rw [hkind]
  rfl

variable (loads) in
theorem readEntry_foreign (wanted : Digest) {entry : Json} (h : Foreign spec entry)
    (acc : Reading) : readEntry loads spec wanted acc entry = .ok acc := by
  unfold readEntry
  split
  · rfl
  · rename_i message _
    have hbinds : ¬ Binds spec wanted entry message := fun hb => h.2.1 hb.1
    have hreviews : ¬ Reviews spec entry message := fun hr => h.2.2 hr.1
    simp only [hbinds, hreviews, if_false]
    rfl

omit [Sha256] in
/-- A loop that foreign messages do not touch ends alike on both histories. -/
theorem Padded.pass {σ : Type} {f : σ → Json → Except Fault σ}
    (h : Padded spec data data' entries entries')
    (hforeign : ∀ s entry, Foreign spec entry → f s entry = .ok s) (s : σ) :
    entries'.foldlM f s = entries.foldlM f s := by
  have hinert : ∀ s entry, decide (¬ Foreign spec entry) = false → f s entry = .ok s := by
    intro s entry hentry
    exact hforeign s entry (by simpa using hentry)
  rw [← foldlM_filter_of_inert hinert entries', h.own, foldlM_filter_of_inert hinert entries]

variable (job_id) in
omit [Sha256] in
theorem Padded.accepted (h : Padded spec data data' entries entries') :
    (accepted spec job_id data = .ok entries ∧ accepted spec job_id data' = .ok entries') ∨
      ∃ e, accepted spec job_id data = .error e ∧ accepted spec job_id data' = .error e := by
  have haddressed : Addressed spec job_id data' ↔ Addressed spec job_id data := by
    unfold Addressed
    rw [h.others "protocol" (by decide) (by decide), h.others "jobId" (by decide) (by decide),
      h.others "chainId" (by decide) (by decide)]
  have hcount : wholeNumber (field "entryCount" data') = some (entries'.length : ℤ) ↔
      wholeNumber (field "entryCount" data) = some (entries.length : ℤ) := by
    rw [h.counted]
    cases wholeNumber (field "entryCount" data) with
    | none => simp
    | some n =>
      simp only [Option.map_some, Option.some.injEq]
      omega
  have hentries := entriesOf_eq_some.mpr h.held
  have hentries' := entriesOf_eq_some.mpr h.held'
  unfold AcpHistory.accepted
  simp only [haddressed, h.others "status" (by decide) (by decide), hentries, hentries']
  by_cases ha : Addressed spec job_id data
  · cases hknown : isIn statuses (field "status" data) with
    | error e => exact Or.inr ⟨e, by simp [ensure, ha, bind, Except.bind], by
        simp [ensure, ha, bind, Except.bind]⟩
    | ok known =>
      by_cases hk : known = true
      · by_cases hc : wholeNumber (field "entryCount" data) = some (entries.length : ℤ)
        · left
          have hc' := hcount.mpr hc
          simp [ensure, fetch, ha, hk, hc, hc', h.few, h.few', bind, Except.bind, pure, Except.pure]
        · right
          have hc' : ¬ wholeNumber (field "entryCount" data') = some (entries'.length : ℤ) :=
            fun hc' => hc (hcount.mp hc')
          simp [ensure, fetch, ha, hk, hc, hc', bind, Except.bind]
      · right
        simp [ensure, ha, hk, bind, Except.bind]
  · right
    simp [ensure, ha, bind, Except.bind]

omit [Sha256] [Interpreter] [Unicode] in
theorem alike_bind {α : Type} {x : Except Fault α} {f g : α → Except Fault HistoryResult}
    (h : ∀ a, Alike (f a) (g a)) : Alike (x >>= f) (x >>= g) := by
  cases x with
  | error e => rfl
  | ok a => exact h a

/-- Foreign messages neither hide nor fake nor block anything. -/
theorem Padded.alike (h : Padded spec data data' entries entries') :
    Alike (history loads spec job_id requirements (.ok data'))
      (history loads spec job_id requirements (.ok data)) := by
  unfold history
  refine alike_bind fun _ => ?_
  simp only [Except.mapError, ok_bind]
  obtain ⟨hok, hok'⟩ | ⟨e, herror, herror'⟩ := h.accepted job_id
  · have hderive := h.pass (fun s entry hf => derive_foreign hf s) "open"
    have hread := h.pass (fun s entry hf => readEntry_foreign loads
      (digest "acp-requirements" requirements) hf s) ⟨false, [], false⟩
    rw [hok, hok', ok_bind, ok_bind, hderive, hread, h.others "status" (by decide) (by decide)]
    exact alike_bind fun _ => alike_bind fun _ => alike_bind fun _ => alike_bind fun _ =>
      alike_bind fun _ => alike_bind fun _ => rfl
  · rw [herror, herror']
    rfl

/-- The type of a system entry, if it is one that the phases know. -/
def knownType (entry : Json) : Option String :=
  (systemEvent entry).bind fun event =>
    match field "type" event with
    | some (.str type) => if type ∈ phaseMap.map Prod.fst then some type else none
    | _ => none

def phaseOf (type : String) : String := (phaseMap.lookup type).getD ""

omit [Sha256] [Interpreter] [Unicode] in
theorem recognised_eq (entry : Json) : recognised entry = (knownType entry).map phaseOf := by
  unfold recognised knownType
  cases systemEvent entry with
  | none => rfl
  | some event =>
    rw [Option.bind_some, Option.bind_some]
    unfold phaseNamed
    split
    · rename_i type htype
      split
      · rename_i hknown
        have hall : ∀ t ∈ phaseMap.map Prod.fst, phaseMap.lookup t = some (phaseOf t) := by decide
        rw [hall type hknown, Option.map_some]
      · rename_i hunknown
        rw [Option.map_none, List.lookup_eq_none_iff]
        intro e he
        rw [bne_iff_ne]
        rintro rfl
        exact hunknown (List.mem_map_of_mem he)
    · rfl

omit [Sha256] [Interpreter] [Unicode] in
/-- A job is completed only by the event that says so. -/
theorem lastPhase_completed (h : lastPhase entries = "completed") :
    (entries.filterMap knownType).getLast? = some "job.completed" := by
  have hmap : entries.filterMap recognised = (entries.filterMap knownType).map phaseOf := by
    rw [List.map_filterMap]
    exact List.filterMap_congr fun entry _ => recognised_eq entry
  unfold lastPhase at h
  rw [hmap, List.getLast?_map] at h
  cases hlast : (entries.filterMap knownType).getLast? with
  | none => simp [hlast] at h
  | some type =>
    obtain ⟨entry, _, hentry⟩ := List.mem_filterMap.mp (List.mem_of_getLast? hlast)
    have hknown : type ∈ phaseMap.map Prod.fst := by
      unfold knownType at hentry
      obtain ⟨event, _, hevent⟩ := Option.bind_eq_some_iff.mp hentry
      split at hevent
      · split at hevent
        · rename_i hmem
          cases hevent
          exact hmem
        · cases hevent
      · cases hevent
    have hall : ∀ t ∈ phaseMap.map Prod.fst, phaseOf t = "completed" → t = "job.completed" := by
      decide
    rw [hlast, Option.map_some, Option.getD_some] at h
    rw [hall type hknown h]

/-- What a complete review rests on: the last known event completed the job, the
client stated the request, and every review of the provider is valid, bound to
the request and the same. -/
structure Complete (loads : String → Option Json) (spec : VirtualsSpec) (wanted : Digest)
    (entries : List Json) (review : Option Json) : Prop where
  completed : (entries.filterMap knownType).getLast? = some "job.completed"
  bound : ∃ entry ∈ entries, Bound loads spec wanted entry
  observed : review.isSome
  reviews : ∀ entry ∈ entries, ∀ message ∈ reviewOf loads spec entry,
    Valid wanted message ∧ review = some message

/-- When a read succeeds, and with what. -/
theorem history_eq_ok {r : HistoryResult} :
    history loads spec job_id requirements (.ok data) = .ok r ↔
      IsJobId job_id ∧ ∃ entries, Contract spec job_id data (lastPhase entries) entries ∧
        (∀ entry ∈ entries, ¬ Unreadable entry) ∧
        (∀ entry ∈ entries,
          ¬ Untestable loads spec (digest "acp-requirements" requirements) entry) ∧
        (∃ entry ∈ entries, Bound loads spec (digest "acp-requirements" requirements) entry) ∧
        (∀ message ∈ entries.filterMap (reviewOf loads spec),
          Valid (digest "acp-requirements" requirements) message) ∧
        ((entries.filterMap (reviewOf loads spec)).map
          (digest "acp-review-message")).dedup.length ≤ 1 ∧
        r = ⟨job_id, spec.chain_id, lastPhase entries, digest "acp-requirements" requirements,
          digest "acp-history" data, (entries.filterMap (reviewOf loads spec)).getLast?⟩ := by
  simp only [history, bind_eq_ok, ensure_eq_ok, derive_pass, reading_pass, Except.mapError,
    pure_eq_ok, Except.ok.injEq]
  constructor
  · rintro ⟨_, hjob, _, rfl, entries, haccepted, derived, hderived, _, hstatus, found, hfound, _,
      hbound, _, hinvalid, _, honce, rfl⟩
    obtain ⟨status, hcontract⟩ := accepted_eq_ok.mp haccepted
    split at hderived
    · cases hderived
    rename_i hreadable
    cases hderived
    split at hfound
    · cases hfound
    rename_i htestable
    cases hfound
    have hvalid : ∀ message ∈ entries.filterMap (reviewOf loads spec),
        Valid (digest "acp-requirements" requirements) message := by
      intro message hm
      have hnone := List.any_eq_false.mp hinvalid message hm
      exact of_decide_eq_true (by simpa using hnone)
    have hreviews := List.filter_eq_self.mpr fun message hm => decide_eq_true (hvalid message hm)
    dsimp only at honce ⊢
    rw [hreviews] at honce ⊢
    have hsame : status = lastPhase entries := by
      rw [hcontract.stated] at hstatus
      simpa using hstatus
    exact ⟨hjob, entries, hsame ▸ hcontract, fun entry he h => hreadable ⟨entry, he, h⟩,
      fun entry he h => htestable ⟨entry, he, h⟩, by simpa using hbound, hvalid, honce, rfl⟩
  · rintro ⟨hjob, entries, hcontract, hreadable, htestable, hbound, hvalid, honce, rfl⟩
    have hreviews := List.filter_eq_self.mpr fun message hm => decide_eq_true (hvalid message hm)
    have hinvalid : (entries.filterMap (reviewOf loads spec)).any
        (¬ Valid (digest "acp-requirements" requirements) ·) = false := by
      rw [List.any_eq_false]
      intro message hm
      simp [hvalid message hm]
    refine ⟨(), hjob, data, rfl, entries, accepted_eq_ok.mpr ⟨_, hcontract⟩, lastPhase entries, ?_,
      (), hcontract.stated, ⟨true, entries.filterMap (reviewOf loads spec), false⟩, ?_, (), rfl,
      (), rfl, (), honce, rfl⟩
    · rw [if_neg]
      rintro ⟨entry, he, h⟩
      exact hreadable entry he h
    · rw [if_neg]
      · rw [hreviews, hinvalid]
        have hany : entries.any
            (Bound loads spec (digest "acp-requirements" requirements) ·) = true := by
          simpa using hbound
        rw [hany]
      · rintro ⟨entry, he, h⟩
        exact htestable entry he h

theorem complete_of_history [CollisionFree] {r : HistoryResult}
    (h : history loads spec job_id requirements (.ok data) = .ok r)
    (hcomplete : r.complete_review_observed = true) :
    ∃ entries, field "entries" data = some (.arr entries) ∧
      Complete loads spec (digest "acp-requirements" requirements) entries r.review := by
  obtain ⟨_, entries, hcontract, _, _, hbound, hvalid, honce, rfl⟩ := history_eq_ok.mp h
  simp only [HistoryResult.complete_review_observed, decide_eq_true_eq] at hcomplete
  obtain ⟨hcompleted, hreview⟩ := hcomplete
  refine ⟨entries, hcontract.held, lastPhase_completed hcompleted, hbound, hreview, ?_⟩
  intro entry hentry message hmessage
  have hmem : message ∈ entries.filterMap (reviewOf loads spec) :=
    List.mem_filterMap.mpr ⟨entry, hentry, hmessage⟩
  obtain ⟨last, hlast⟩ := Option.isSome_iff_exists.mp hreview
  have hsame := eq_of_dedup_length_le_one honce (List.mem_map_of_mem hmem)
    (List.mem_map_of_mem (List.mem_of_getLast? hlast))
  refine ⟨hvalid message hmem, ?_⟩
  rw [hlast, (digest_inj.mp hsame).2]

variable (loads spec job_id requirements) in
/-- Whatever third parties write into a history and wherever, a read of it ends
the same; and a review it reports as complete rests on what the two parties
wrote alone. -/
theorem third_parties_ignored [CollisionFree] :
    (∀ data data' entries entries', Padded spec data data' entries entries' →
      Alike (history loads spec job_id requirements (.ok data'))
        (history loads spec job_id requirements (.ok data))) ∧
    ∀ data r, history loads spec job_id requirements (.ok data) = .ok r →
      r.complete_review_observed = true → ∃ entries, field "entries" data = some (.arr entries) ∧
        Complete loads spec (digest "acp-requirements" requirements) entries r.review :=
  ⟨fun _ _ _ _ h => h.alike, fun _ _ h => complete_of_history h⟩

/-- The parties of an example. -/
def parties : VirtualsSpec :=
  ⟨"tenant", ["subject"], .baseSepolia, "0xA1", "0xB2", "review", 1, "", "", "", 60⟩

def message (from_address contentType content : String) : Json :=
  .obj [("content", .str content), ("contentType", .str contentType), ("from", .str from_address),
    ("kind", .str "message")]

def request : Json := .obj [("request_id", .str "r")]

def requestText : String := "\x7b\"request_id\":\"r\"\x7d"

def verdict (wanted : Digest) : Json :=
  .obj [("finding_codes", .arr [.str "STALE_SOURCE"]), ("recommendation", .str "KEEP_BLOCKED"),
    ("request_hash", .str wanted), ("schema_version", .str "memoryguard-review/1")]

/-- The text of a verdict before the hash of the request. -/
def verdictHead : String := "\x7b\"schema_version\":\"memoryguard-review/1\",\"request_hash\":\""

/-- The text of a verdict after it. -/
def verdictTail : String :=
  "\",\"recommendation\":\"KEEP_BLOCKED\",\"finding_codes\":[\"STALE_SOURCE\"]\x7d"

def verdictText (wanted : Digest) : String := verdictHead ++ (wanted ++ verdictTail)

/-- A request, its answer and the end of the job. -/
def dialogue (wanted : Digest) : List Json :=
  [message "0xa1" "requirement" requestText, message "0xb2" "text" (verdictText wanted),
    .obj [("event", .obj [("type", .str "job.completed")]), ("kind", .str "system")]]

/-- A completed job with these entries. -/
def jobHistory (entries : List Json) : Json :=
  .obj [("chainId", nat 84532), ("entries", .arr entries), ("entryCount", nat entries.length),
    ("jobId", .str "42"), ("protocol", .str "v2"), ("status", .str "completed")]

omit [Sha256] [Interpreter] [Unicode] in
theorem messageOf_message {from_address contentType content : String}
    {fields : List (String × Json)}
    (hlength : content.length ≤ 32000)
    (hread : strictJson loads 32000 (utf8 content) = some (.obj fields)) :
    messageOf loads (message from_address contentType content) = some (.obj fields) := by
  simp [messageOf, message, field, Dict.find, hlength, hread]

omit [Sha256] [Interpreter] [Unicode] in
theorem request_read :
    strictJson (parser unprinted standardLimits) 32000 (utf8 requestText) = some request := by
  have hloads : JsonScanner.loads JsonScanner.plainHooks standardLimits requestText.toList =
      .ok (.dict [(JsonScanner.text "request_id", .str (JsonScanner.text "r"))]) := by
    decide +kernel
  rw [strictJson_of_loads (by decide +kernel) hloads (by decide +kernel)]
  decide +kernel

omit [Sha256] [Interpreter] [Unicode] in
theorem verdict_read : letI := spelling
    let wanted := digest "acp-requirements" request
    (verdictText wanted).length ≤ 1000 ∧
      strictJson (parser unprinted standardLimits) 32000 (utf8 (verdictText wanted)) =
        some (verdict wanted) := by
  let _ := spelling
  intro wanted
  have hwanted : wanted.toList = (preimage "acp-requirements" request).map spell :=
    String.toList_ofList
  have htext : (verdictText wanted).toList = verdictHead.toList ++
      ((preimage "acp-requirements" request).map spell ++ verdictTail.toList) := by
    rw [verdictText, String.toList_append, String.toList_append, hwanted]
  have hloads : JsonScanner.loads JsonScanner.plainHooks standardLimits (verdictText wanted).toList =
      .ok (.dict [(JsonScanner.text "schema_version", .str (JsonScanner.text "memoryguard-review/1")),
        (JsonScanner.text "request_hash", .str (JsonScanner.text wanted)),
        (JsonScanner.text "recommendation", .str (JsonScanner.text "KEEP_BLOCKED")),
        (JsonScanner.text "finding_codes",
          .list [.str (JsonScanner.text "STALE_SOURCE")])]) := by
    have hhash : JsonScanner.text wanted =
        ((preimage "acp-requirements" request).map spell).map JsonScanner.codePoint :=
      congrArg (List.map JsonScanner.codePoint) hwanted
    rw [htext, hhash]
    decide +kernel
  have hlength : (verdictText wanted).toList.length ≤ 1000 := by
    rw [htext]
    decide +kernel
  refine ⟨by rwa [← String.length_toList], ?_⟩
  have hsize := length_utf8_le (verdictText wanted)
  rw [strictJson_of_loads (by omega) hloads (by decide +kernel)]
  decide +kernel

omit [Sha256] [Interpreter] [Unicode] in
theorem dialogue_reviews : letI := spelling; letI := strictInterpreter; letI := asciiTables
    let loads := parser unprinted standardLimits
    let wanted := digest "acp-requirements" request
    messageOf loads (message "0xa1" "requirement" requestText) = some request ∧
      messageOf loads (message "0xb2" "text" (verdictText wanted)) = some (verdict wanted) ∧
      (dialogue wanted).filterMap (reviewOf loads parties) = [verdict wanted] := by
  let _ := spelling
  let _ := strictInterpreter
  let _ := asciiTables
  intro loads wanted
  have hask : messageOf loads (message "0xa1" "requirement" requestText) = some request :=
    messageOf_message (by decide +kernel) request_read
  obtain ⟨hlength, hread⟩ := verdict_read
  have hanswer : messageOf loads (message "0xb2" "text" (verdictText wanted)) =
      some (verdict wanted) := messageOf_message (hlength.trans (by decide)) hread
  have hsender : sender (message "0xb2" "text" (verdictText wanted)) =
      Unicode.lower parties.provider_address := by decide +kernel
  have hreviews : Reviews parties (message "0xb2" "text" (verdictText wanted)) (verdict wanted) :=
    ⟨hsender, rfl⟩
  have hnot : ¬ Reviews parties (message "0xa1" "requirement" requestText) request :=
    fun h => by simpa [request, field, Dict.find] using h.2
  refine ⟨hask, hanswer, ?_⟩
  unfold dialogue
  rw [List.filterMap_cons_none, List.filterMap_cons_some, List.filterMap_cons_none]
  · rfl
  · rfl
  · unfold reviewOf
    rw [hanswer, Option.filter_some, if_pos (by simpa using hreviews)]
  · unfold reviewOf
    rw [hask, Option.filter_some, if_neg (by simpa using hnot)]

omit [Sha256] [Interpreter] [Unicode] in
theorem dialogue_read : letI := spelling; letI := strictInterpreter; letI := asciiTables
    let wanted := digest "acp-requirements" request
    history (parser unprinted standardLimits) parties "42" request
        (.ok (jobHistory (dialogue wanted))) =
      .ok ⟨"42", .baseSepolia, "completed", wanted,
        digest "acp-history" (jobHistory (dialogue wanted)), some (verdict wanted)⟩ := by
  let _ := spelling
  let _ := strictInterpreter
  let _ := asciiTables
  intro wanted
  obtain ⟨hask, hanswer, hreviews⟩ := dialogue_reviews
  have hphase : lastPhase (dialogue wanted) = "completed" := by decide +kernel
  have hcontract : Contract parties "42" (jobHistory (dialogue wanted)) "completed"
      (dialogue wanted) := ⟨by decide +kernel, rfl, by decide, rfl, by decide, by decide +kernel⟩
  have hreadable : ∀ entry ∈ dialogue wanted, ¬ Unreadable entry := by decide +kernel
  have hvalid : Valid wanted (verdict wanted) := by
    refine ⟨⟨?_, ?_, rfl⟩, ⟨"KEEP_BLOCKED", by decide, rfl⟩, ?_⟩
    · simp [keysOf, verdict, reviewKeys]
    · simp [keysOf, verdict, reviewKeys]
    · simp [verdict, field, Dict.find, Findings, IsText, findingCodes]
  have hsender : sender (message "0xa1" "requirement" requestText) =
      Unicode.lower parties.client_address := by decide +kernel
  refine history_eq_ok.mpr ⟨by decide, dialogue wanted, hphase ▸ hcontract, hreadable, ?_, ?_, ?_,
    ?_, ?_⟩
  · rintro entry hentry ⟨m, hm, hby, _, hunhashable⟩
    have hmem : m ∈ (dialogue wanted).filterMap
        (reviewOf (parser unprinted standardLimits) parties) :=
      List.mem_filterMap.mpr ⟨entry, hentry, Option.filter_eq_some_iff.mpr
        ⟨hm, decide_eq_true hby⟩⟩
    rw [hreviews, List.mem_singleton] at hmem
    subst hmem
    exact hunhashable trivial
  · exact ⟨_, List.mem_cons_self .., request, hask, hsender, rfl, rfl⟩
  · rw [hreviews]
    simpa using hvalid
  · rw [hreviews]
    simp
  · rw [hreviews, hphase]
    rfl

omit [Sha256] [Interpreter] [Unicode] in
/-- A stranger who claims the job is done and reviewed is not heard. -/
theorem stranger_ignored : letI := spelling; letI := strictInterpreter; letI := asciiTables
    let loads := parser unprinted standardLimits
    let wanted := digest "acp-requirements" request
    let stranger := message "0xC3" "text" (verdictText wanted)
    ∃ r entries, history loads parties "42" request (.ok (jobHistory (dialogue wanted))) = .ok r ∧
      Complete loads parties wanted entries r.review ∧
      Alike (history loads parties "42" request (.ok (jobHistory (stranger :: dialogue wanted))))
        (.ok r) := by
  let _ := spelling
  let _ := strictInterpreter
  let _ := asciiTables
  have := spelling_collisionFree
  intro loads wanted stranger
  obtain ⟨hsame, hcomplete⟩ := third_parties_ignored loads parties "42" request
  have hpadded : Padded parties (jobHistory (dialogue wanted))
      (jobHistory (stranger :: dialogue wanted)) (dialogue wanted)
      (stranger :: dialogue wanted) := by
    refine ⟨rfl, rfl, ?_, by decide +kernel, by decide +kernel, by decide, by decide⟩
    intro k hentries hcount
    simp [field, jobHistory, Dict.find, Ne.symm hentries, Ne.symm hcount]
  obtain ⟨entries, _, hc⟩ := hcomplete _ _ dialogue_read rfl
  exact ⟨_, entries, dialogue_read, hc, dialogue_read ▸ hsame _ _ _ _ hpadded⟩

end ThirdParties

section Exceptions

variable [Sha256] [Interpreter] [Unicode] {loads : String → Option Json} {spec : VirtualsSpec}
  {job_id : String} {requirements data : Json}

/-- What the reader looks up in its sets is no list or dictionary, as far as the
checks before let it come to that: the status, the type of a system event, and
the recommendation of a review of this request. -/
structure Sound (loads : String → Option Json) (spec : VirtualsSpec) (job_id : String)
    (requirements data : Json) : Prop where
  status : Addressed spec job_id data → Hashable (field "status" data)
  events : ∀ status entries, Contract spec job_id data status entries →
    ∀ entry ∈ entries, ¬ Unreadable entry
  reviews : ∀ status entries, Contract spec job_id data status entries →
    status = lastPhase entries → ∀ entry ∈ entries,
      ¬ Untestable loads spec (digest "acp-requirements" requirements) entry

omit [Sha256] [Unicode] in
theorem Contract.unique {status status' : String} {entries entries' : List Json}
    (h : Contract spec job_id data status entries)
    (h' : Contract spec job_id data status' entries') : status' = status ∧ entries' = entries := by
  have hstated := h'.stated.symm.trans h.stated
  have hheld := h'.held.symm.trans h.held
  simp only [Option.some.injEq, Json.str.injEq, Json.arr.injEq] at hstated hheld
  exact ⟨hstated, hheld⟩

variable (loads spec requirements data) in
/-- The only way for a read to end with another exception. -/
theorem history_eq_typeError (hjob : IsJobId job_id) :
    history loads spec job_id requirements (.ok data) = .error .typeError ↔
      ¬ Sound loads spec job_id requirements data := by
  simp only [history, bind_eq_error, ensure_eq_error, ensure_eq_ok, derive_pass, reading_pass,
    Except.mapError, Except.ok.injEq, accepted_eq_typeError]
  constructor
  · rintro (⟨hnot, _⟩ | ⟨_, _, h | ⟨_, rfl, h⟩⟩) hsound
    · exact hnot hjob
    · cases h
    rcases h with ⟨haddressed, hstatus⟩ | ⟨entries, haccepted, h⟩
    · exact hstatus (hsound.status haddressed)
    obtain ⟨status, hcontract⟩ := accepted_eq_ok.mp haccepted
    rcases h with h | ⟨derived, hderived, h⟩
    · split at h
      · rename_i hunreadable
        obtain ⟨entry, he, hentry⟩ := hunreadable
        exact hsound.events _ _ hcontract entry he hentry
      · cases h
    split at hderived
    · cases hderived
    cases hderived
    rcases h with ⟨_, h⟩ | ⟨_, hstatus, h⟩
    · cases h
    have hsame : status = lastPhase entries := by
      rw [hcontract.stated] at hstatus
      simpa using hstatus
    rcases h with h | ⟨found, _, h⟩
    · split at h
      · rename_i huntestable
        obtain ⟨entry, he, hentry⟩ := huntestable
        exact hsound.reviews _ _ hcontract hsame entry he hentry
      · cases h
    · simp [pure, Except.pure] at h
  · intro hnot
    refine Or.inr ⟨(), hjob, Or.inr ⟨data, rfl, ?_⟩⟩
    by_cases hstatus : Addressed spec job_id data → Hashable (field "status" data)
    · -- the contract is met, or the history is sound
      have hmet : ∃ status entries, Contract spec job_id data status entries := by
        by_contra hunmet
        exact hnot ⟨hstatus, fun status entries hc => absurd ⟨status, entries, hc⟩ hunmet,
          fun status entries hc => absurd ⟨status, entries, hc⟩ hunmet⟩
      obtain ⟨status, entries, hcontract⟩ := hmet
      refine Or.inr ⟨entries, accepted_eq_ok.mpr ⟨status, hcontract⟩, ?_⟩
      by_cases hunreadable : ∃ entry ∈ entries, Unreadable entry
      · exact Or.inl (if_pos hunreadable)
      have huntestable : status = lastPhase entries ∧ ∃ entry ∈ entries,
          Untestable loads spec (digest "acp-requirements" requirements) entry := by
        by_contra hnone
        refine hnot ⟨hstatus, ?_, ?_⟩
        · intro status' entries' hc' entry he hentry
          obtain ⟨_, rfl⟩ := hcontract.unique hc'
          exact hunreadable ⟨entry, he, hentry⟩
        · intro status' entries' hc' hsame entry he hentry
          obtain ⟨rfl, rfl⟩ := hcontract.unique hc'
          exact hnone ⟨hsame, entry, he, hentry⟩
      obtain ⟨rfl, huntestable⟩ := huntestable
      exact Or.inr ⟨lastPhase entries, if_neg hunreadable, Or.inr ⟨(), hcontract.stated,
        Or.inl (if_pos huntestable)⟩⟩
    · push Not at hstatus
      exact Or.inl hstatus

end Exceptions

end MemoryGuard.AcpHistory
