import MemoryGuard.Decisions

/-!
The runs of the payment agent: a decision, the trace of what the tools did, and
the artifacts they left. A run is stored as one body with a hash of it, and all
of it but the order of the artifacts is read back as it was.
-/
namespace MemoryGuard.AgentRuns

open OrderedDict JsonText Guarded ContentHash CanonicalText IsoText JsonReading Numbers
open Observations Decisions

section Values

inductive AgentState
  | awaitFinalize
  | blockAndEscalate
  | awaitHumanReview
  | haltMemoryUnavailable
  | blockAndRedecide
  | haltActionUnavailable
  | degradedSafeOnly
  | cancelled
  | anchorVerified
  deriving DecidableEq, Repr

def AgentState.text : AgentState → String
  | .awaitFinalize => "await_finalize"
  | .blockAndEscalate => "block_and_escalate"
  | .awaitHumanReview => "await_human_review"
  | .haltMemoryUnavailable => "halt_memory_unavailable"
  | .blockAndRedecide => "block_and_redecide"
  | .haltActionUnavailable => "halt_action_unavailable"
  | .degradedSafeOnly => "degraded_safe_only"
  | .cancelled => "cancelled"
  | .anchorVerified => "anchor_verified"

def AgentState.ofText : String → Except GuardError AgentState :=
  member [.awaitFinalize, .blockAndEscalate, .awaitHumanReview, .haltMemoryUnavailable,
    .blockAndRedecide, .haltActionUnavailable, .degradedSafeOnly, .cancelled, .anchorVerified]
    AgentState.text

inductive ToolPhase
  | considered
  | called
  | succeeded
  | failed
  | suppressed
  deriving DecidableEq, Repr

def ToolPhase.text : ToolPhase → String
  | .considered => "considered"
  | .called => "called"
  | .succeeded => "succeeded"
  | .failed => "failed"
  | .suppressed => "suppressed"

def ToolPhase.ofText : String → Except GuardError ToolPhase :=
  member [.considered, .called, .succeeded, .failed, .suppressed] ToolPhase.text

theorem AgentState.ofText_text (s : AgentState) : ofText s.text = .ok s :=
  member_text (by intro a b; cases a <;> cases b <;> simp [AgentState.text]) (by cases s <;> simp)

theorem ToolPhase.ofText_text (p : ToolPhase) : ofText p.text = .ok p :=
  member_text (by intro a b; cases a <;> cases b <;> simp [ToolPhase.text]) (by cases p <;> simp)

/-- The fields of a dictionary, by their keys. -/
abbrev Fields := List (String × Json)

structure ToolEvent where
  sequence : ℤ
  tool : String
  phase : ToolPhase
  reason_code : String
  input_hash : Digest
  output_hash : Option Digest
  occurred_at : DateTime
  deriving DecidableEq

structure AgentRun where
  run_id : String
  request_hash : Digest
  runtime_instance_id : String
  state : AgentState
  decision : DecisionDraft
  action_fingerprint : Digest
  explanation : String
  operator_steps : List String
  planning_degraded : Bool
  model_kind : String
  model_receipt : Option Fields
  model_requested_safe_tools : List String
  tool_trace : List ToolEvent
  artifacts : Fields
  anchor_state : AnchorState
  executable : Bool
  created_at : DateTime
  updated_at : DateTime
  schema_version : String
  deriving DecidableEq

def ToolEvent.body (e : ToolEvent) : Fields :=
  [("sequence", int e.sequence), ("tool", .str e.tool), ("phase", .str e.phase.text),
    ("reason_code", .str e.reason_code), ("input_hash", .str e.input_hash),
    ("output_hash", JsonText.optional .str e.output_hash),
    ("occurred_at", .str (isoformat e.occurred_at))]

/-- `ToolEvent.to_dict`. -/
def ToolEvent.toJson (e : ToolEvent) : Json := object e.body

def AgentRun.body (r : AgentRun) : Fields :=
  [("schema_version", .str r.schema_version), ("run_id", .str r.run_id),
    ("request_hash", .str r.request_hash),
    ("runtime_instance_id", .str r.runtime_instance_id), ("state", .str r.state.text),
    ("verdict", .str r.decision.verdict.text), ("decision", r.decision.toJson),
    ("decision_id", .str r.decision.decision_id),
    ("action_fingerprint", .str r.action_fingerprint),
    ("cross_session", .bool r.decision.cross_session),
    ("causal_memory_ids", texts r.decision.causal_memory_ids),
    ("explanation", .str r.explanation),
    ("explanation_source", .str "deterministic_authoritative_copy"),
    ("raw_model_output_persisted", .bool false), ("operator_steps", texts r.operator_steps),
    ("planning_degraded", .bool r.planning_degraded), ("model_kind", .str r.model_kind),
    ("model_receipt", JsonText.optional .obj r.model_receipt),
    ("model_requested_safe_tools", texts r.model_requested_safe_tools),
    ("tool_trace", .arr (r.tool_trace.map ToolEvent.toJson)),
    ("artifacts", object r.artifacts), ("proof_root", .str r.decision.proof_root),
    ("anchor_state", .str r.anchor_state.text), ("executable", .bool r.executable),
    ("created_at", .str (isoformat r.created_at)), ("updated_at", .str (isoformat r.updated_at))]

/-- `AgentRun.to_dict`. -/
def AgentRun.toJson (r : AgentRun) : Json := object r.body

end Values

section Reading

variable [Interpreter]

/-- `ToolEvent.from_dict`. -/
def ToolEvent.ofJson (data : Json) : Except GuardError ToolEvent := do
  return {
    sequence := ← intOf (← required "sequence" data)
    tool := ← textAt "tool" data
    phase := ← ToolPhase.ofText (← textAt "phase" data)
    reason_code := ← textAt "reason_code" data
    input_hash := ← textAt "input_hash" data
    output_hash := textOrNone ((field "output_hash" data).getD .null)
    occurred_at := ← parseTime (← required "occurred_at" data) }

/-- The fields of `data[k]`, if it is a dictionary. -/
def dictAt (k : String) (data : Json) : Option Fields :=
  match field k data with
  | some (.obj fields) => some fields
  | _ => none

/-- `dict(data.get(k, {}))`. -/
def fieldsAt (k : String) (data : Json) : Except GuardError Fields :=
  match field k data with
  | none => .ok []
  | some (.obj fields) => .ok fields
  | some _ => .error (.raised "TypeError")

/-- `AgentRun.from_dict`. -/
def AgentRun.ofJson (data : Json) : Except GuardError AgentRun := do
  let decision ← DecisionDraft.ofJson (← dictOf (← required "decision" data))
  let events ← itemsOf ((field "tool_trace" data).getD (.arr []))
  let tool_trace ← events.mapM fun item => do ToolEvent.ofJson (← dictOf item)
  return {
    run_id := ← textAt "run_id" data
    request_hash := ← textAt "request_hash" data
    runtime_instance_id := ← textAt "runtime_instance_id" data
    state := ← AgentState.ofText (← textAt "state" data)
    decision := decision
    action_fingerprint := ← textAt "action_fingerprint" data
    explanation := ← textAt "explanation" data
    operator_steps := ← textsAt "operator_steps" data
    planning_degraded := boolOf ((field "planning_degraded" data).getD (.bool false))
    model_kind := ← textAt "model_kind" data
    model_receipt := dictAt "model_receipt" data
    model_requested_safe_tools := ← textsAt "model_requested_safe_tools" data
    tool_trace := tool_trace
    artifacts := ← fieldsAt "artifacts" data
    anchor_state := ← AnchorState.ofText
      (strOf ((field "anchor_state" data).getD (.str "not_configured")))
    executable := boolOf (← required "executable" data)
    created_at := ← parseTime (← required "created_at" data)
    updated_at := ← parseTime (← required "updated_at" data)
    schema_version := strOf ((field "schema_version" data).getD (.str "1.0")) }

/-- An event as it is read back. -/
def ToolEvent.reread (e : ToolEvent) : ToolEvent :=
  { e with occurred_at := JsonReading.reread e.occurred_at }

/-- A run as it is read back, with the amount of its intent as a float and its
artifacts by their names. -/
def AgentRun.reread (r : AgentRun) (amount : Numeral) : AgentRun :=
  { r with
    decision := r.decision.reread amount
    tool_trace := r.tool_trace.map ToolEvent.reread
    artifacts := byKey r.artifacts
    created_at := JsonReading.reread r.created_at
    updated_at := JsonReading.reread r.updated_at }

theorem ToolEvent.ofJson_toJson {e : ToolEvent} (h : e.output_hash ≠ some "") :
    ofJson e.toJson = .ok e.reread := by
  have hkeys : (e.body.map Prod.fst).Nodup := by simp [body]
  have hfield : ∀ k, field k e.toJson = Dict.find k e.body := field_object hkeys
  have htext : ∀ {k s}, Dict.find k e.body = some (.str s) → textAt k e.toJson = .ok s :=
    fun hk => textAt_of (by rw [hfield, hk])
  have hneeded : ∀ {k v}, Dict.find k e.body = some v → required k e.toJson = .ok v :=
    fun hk => required_of (by rw [hfield, hk])
  have houtput : field "output_hash" e.toJson = some (JsonText.optional .str e.output_hash) :=
    hfield _
  unfold ofJson
  simp only [hneeded (k := "sequence") rfl, intOf_int, htext (k := "tool") rfl,
    htext (k := "phase") rfl, ToolPhase.ofText_text, htext (k := "reason_code") rfl,
    htext (k := "input_hash") rfl, houtput, Option.getD_some, textOrNone_optional h,
    hneeded (k := "occurred_at") rfl, parseTime_isoformat, ok_bind]
  rfl

theorem mapM_toJson {l : List ToolEvent} (h : ∀ e ∈ l, e.output_hash ≠ some "") :
    (l.map ToolEvent.toJson).mapM (fun item => do ToolEvent.ofJson (← dictOf item)) =
      .ok (l.map ToolEvent.reread) := by
  rw [mapM_eq_ok, List.forall₂_map_left_iff, List.forall₂_map_right_iff, List.forall₂_same]
  intro e he
  have hdict : dictOf e.toJson = .ok e.toJson := rfl
  rw [hdict, ok_bind]
  exact ToolEvent.ofJson_toJson (h e he)

/-- A run is read back from its body when the amount of its intent has a float. -/
theorem AgentRun.ofJson_toJson {r : AgentRun} (h : ∀ e ∈ r.tool_trace, e.output_hash ≠ some "") :
    ofJson r.toJson = r.reread <$> floatOf (.num r.decision.intent.amount_usd) := by
  have hkeys : (r.body.map Prod.fst).Nodup := by simp [body]
  have hfield : ∀ k, field k r.toJson = Dict.find k r.body := field_object hkeys
  have htext : ∀ {k s}, Dict.find k r.body = some (.str s) → textAt k r.toJson = .ok s :=
    fun hk => textAt_of (by rw [hfield, hk])
  have hneeded : ∀ {k v}, Dict.find k r.body = some v → required k r.toJson = .ok v :=
    fun hk => required_of (by rw [hfield, hk])
  have htexts : ∀ {k l}, Dict.find k r.body = some (texts l) → textsAt k r.toJson = .ok l :=
    fun hk => textsAt_of (by rw [hfield, hk])
  have hdict : dictOf r.decision.toJson = .ok r.decision.toJson := rfl
  have htrace : field "tool_trace" r.toJson = some (.arr (r.tool_trace.map ToolEvent.toJson)) :=
    hfield _
  have hdegraded : field "planning_degraded" r.toJson = some (.bool r.planning_degraded) :=
    hfield _
  have hreceipt : dictAt "model_receipt" r.toJson = r.model_receipt := by
    have hvalue : field "model_receipt" r.toJson = some (JsonText.optional .obj r.model_receipt) :=
      hfield _
    unfold dictAt
    rw [hvalue]
    cases r.model_receipt <;> rfl
  have hartifacts : fieldsAt "artifacts" r.toJson = .ok (byKey r.artifacts) := by
    have hvalue : field "artifacts" r.toJson = some (object r.artifacts) := hfield _
    unfold fieldsAt
    rw [hvalue]
    rfl
  have hanchor : field "anchor_state" r.toJson = some (.str r.anchor_state.text) := hfield _
  have hversion : field "schema_version" r.toJson = some (.str r.schema_version) := hfield _
  unfold ofJson
  simp only [hneeded (k := "decision") rfl, hdict, DecisionDraft.ofJson_toJson, htrace,
    Option.getD_some, itemsOf, mapM_toJson h, htext (k := "run_id") rfl,
    htext (k := "request_hash") rfl, htext (k := "runtime_instance_id") rfl,
    htext (k := "state") rfl, AgentState.ofText_text, htext (k := "action_fingerprint") rfl,
    htext (k := "explanation") rfl, htexts (k := "operator_steps") rfl, hdegraded,
    htext (k := "model_kind") rfl, hreceipt, htexts (k := "model_requested_safe_tools") rfl,
    hartifacts, hanchor, strOf, AnchorState.ofText_text, hneeded (k := "executable") rfl,
    hneeded (k := "created_at") rfl, hneeded (k := "updated_at") rfl, parseTime_isoformat,
    hversion, ok_bind]
  cases floatOf (.num r.decision.intent.amount_usd) with
  | error e => rfl
  | ok amount => rfl

end Reading

end MemoryGuard.AgentRuns
