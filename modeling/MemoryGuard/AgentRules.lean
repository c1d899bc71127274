import MemoryGuard.AgentRuns

/-!
What a verdict allows the agent to do, and what is checked of a run whenever it
is saved for the first time, inspected or taken up again.
-/
namespace MemoryGuard.AgentRules

open OrderedDict JsonText Guarded ContentHash CanonicalText JsonReading
open Observations Decisions AgentRuns

section Tools

def reviewTool : String := "human_review.prepare"

def escalationTool : String := "operator_escalation.create"

def briefTool : String := "causal_evidence_brief.prepare"

def registeredTools : List String := [reviewTool, escalationTool, briefTool]

def prepareTool : String := "proof_anchor.prepare"

def verifyTool : String := "proof_anchor.verify"

def receiptTool : String := "model.receipt"

/-- What the agent itself does under names of its own. -/
def ownTools : List String :=
  ["memoryguard.decide", "model.plan", receiptTool, "agent.cancel", prepareTool, verifyTool]

def knownTools : List String := ownTools ++ registeredTools

structure Authorization where
  base_state : AgentState
  allowed_tools : List String
  mandatory_tool : String
  deriving DecidableEq

/-- `_authorization`. -/
def authorization : Verdict → Authorization
  | .ready => ⟨.awaitFinalize, [reviewTool, briefTool], reviewTool⟩
  | .deny => ⟨.blockAndEscalate, [escalationTool, briefTool], escalationTool⟩
  | _ => ⟨.awaitHumanReview, [escalationTool, briefTool], escalationTool⟩

/-- `_operator_copy`. -/
def operatorCopy (state : AgentState) (planning_degraded : Bool) : String × List String :=
  let copy : String × List String := match state with
    | .haltActionUnavailable =>
      ("The safe-action Adapter was unavailable, so the Agent stopped without " ++
        "claiming that a review or escalation artifact was created.",
        ["Restore the Sibyl safety-action Adapter and start a new Agent run."])
    | .awaitFinalize =>
      ("MemoryGuard recalled a matching trusted baseline. The Agent prepared " ++
        "a non-executable review card and did not gain payment authority.",
        ["Review the causal memory and proof before any external action."])
    | .blockAndEscalate =>
      ("MemoryGuard recalled a dispute or revocation. The Agent suppressed " ++
        "review preparation and created a non-executable escalation case.",
        ["Investigate the causal memory IDs; do not perform the requested action."])
    | _ =>
      ("MemoryGuard did not grant an automated path. The Agent created a " ++
        "non-executable operator review case.",
        ["Obtain new trusted evidence and start a new Agent run."])
  if planning_degraded then
    (copy.1 ++ " The external planning model was unavailable.", copy.2)
  else copy

end Tools

section Identity

variable [Unicode] [Sha256]

def requestPayload (ref : Digest) (i : PaymentIntent) : Json :=
  object [("subject_ref", .str ref), ("session_id", .str i.session_id),
    ("chain_id", int i.chain_id), ("target", .str (Unicode.lower i.target)),
    ("method", .str i.method), ("amount_usd", .num i.amount_usd),
    ("evidence_mode", .str i.evidence_mode.text), ("idempotency_key", .str i.idempotency_key)]

/-- `_request_hash`. -/
def requestHash (goal : PaymentIntent) : Digest :=
  domainHash "agent-request" (requestPayload (subjectRef goal.subject_id) goal)

/-- `_stored_request_hash`. -/
def storedRequestHash (d : DecisionDraft) : Digest :=
  domainHash "agent-request" (requestPayload d.subject_ref d.intent)

def actionPayload (ref : Digest) (i : PaymentIntent) : Json :=
  object [("subject_ref", .str ref), ("chain_id", int i.chain_id),
    ("target", .str (Unicode.lower i.target)), ("method", .str i.method),
    ("amount_usd", .num i.amount_usd), ("evidence_mode", .str i.evidence_mode.text)]

/-- `_action_fingerprint` of a goal. -/
def actionFingerprint (goal : PaymentIntent) : Digest :=
  domainHash "agent-action" (actionPayload (subjectRef goal.subject_id) goal)

/-- `_action_fingerprint` of a decision. -/
def storedActionFingerprint (d : DecisionDraft) : Digest :=
  domainHash "agent-action" (actionPayload d.intent.subject_id d.intent)

def runName (ref key : String) : String :=
  "run_" ++ Sha256.leading 20
    (domainHash "agent-run" (object [("subject_ref", .str ref), ("key", .str key)]))

/-- `_run_id`. -/
def runId (goal : PaymentIntent) : String :=
  runName (subjectRef goal.subject_id) goal.idempotency_key

/-- `_stored_run_id`. -/
def storedRunId (d : DecisionDraft) : String := runName d.subject_ref d.intent.idempotency_key

/-- `_model_context`. -/
def modelContext (d : DecisionDraft) (state : AgentState) : Json :=
  object [("state", .str state.text), ("verdict", .str d.verdict.text),
    ("reason_codes", texts d.reason_codes), ("causal_memory_ids", texts d.causal_memory_ids),
    ("cross_session", .bool d.cross_session), ("chain_id", int d.intent.chain_id),
    ("target_hash", .str (domainHash "agent-model-target" (.str d.intent.target))),
    ("method", .str d.intent.method), ("amount_usd", .num d.intent.amount_usd),
    ("evidence_mode", .str d.intent.evidence_mode.text)]

/-- The hash of what the planning model is given. -/
def contextHash (context : Json) (allowed_tools : List String) : Digest :=
  domainHash "agent-model-context"
    (object [("context", context), ("allowed_tools", texts allowed_tools)])

def toolInputHash (tool : String) (value : Json) : Digest :=
  domainHash ("agent-tool-input:" ++ tool) value

def toolOutputHash (tool : String) (value : Json) : Digest :=
  domainHash ("agent-tool-output:" ++ tool) value

def receiptInput (run_id : String) (model_context_hash : String) : Json :=
  object [("run_id", .str run_id), ("model_context_hash", .str model_context_hash)]

def actionId (domain : String) (decision_id : String) : String :=
  "act_" ++ Sha256.leading 20 (domainHash domain (.str decision_id))

/-- The action identifiers that a decision's artifacts carry. -/
def expectedActionId (decision_id : String) (name : String) : Option String :=
  if name = reviewTool then some (actionId "review-action" decision_id)
  else if name = escalationTool then some (actionId "escalation-action" decision_id)
  else if name = briefTool then some (actionId "evidence-brief-action" decision_id)
  else none

end Identity

section Conditions

/-- 64 hexadecimal digits. -/
def IsDigest (s : String) : Prop :=
  s.length = 64 ∧ s.toList.all fun c => c ∈ "0123456789abcdef".toList

instance (s : String) : Decidable (IsDigest s) := by
  unfold IsDigest
  infer_instance

/-- The states that a run with a given base state can be in. -/
def validStates (base_state : AgentState) : List AgentState :=
  [base_state, .haltActionUnavailable, .degradedSafeOnly, .blockAndRedecide] ++
    if base_state ≠ .blockAndEscalate then [.cancelled] else []

/-- The text under a key, empty if there is none. -/
def textIn (fields : Fields) (k : String) : String :=
  match Dict.find k fields with
  | some (.str s) => s
  | _ => ""

def requiredStrings : List String :=
  ["backend", "configured_model", "resolved_model", "generation_id", "completion_sha256",
    "model_context_hash", "completed_at"]

def receiptEvents (trace : List ToolEvent) : List ToolEvent :=
  trace.filter fun event => event.tool = receiptTool

def planEvents (trace : List ToolEvent) : List ToolEvent :=
  trace.filter fun event => event.tool = "model.plan" ∧ event.phase = .succeeded

variable [Unicode] [Sha256]

/-- The one event that binds a receipt to the trace, right after the plan. -/
def ReceiptBound (r : AgentRun) (receipt : Fields) (context_hash : Digest) : Prop :=
  match receiptEvents r.tool_trace, planEvents r.tool_trace with
  | [event], [plan] =>
    event.phase = .succeeded ∧ event.reason_code = "non_secret_provider_receipt" ∧
      event.input_hash = toolInputHash receiptTool (receiptInput r.run_id context_hash) ∧
      event.output_hash = some (toolOutputHash receiptTool (.obj receipt)) ∧
      event.sequence = plan.sequence + 1
  | _, _ => False

instance (r : AgentRun) (receipt : Fields) (context_hash : Digest) :
    Decidable (ReceiptBound r receipt context_hash) := by
  unfold ReceiptBound
  split <;> infer_instance

/-- `isinstance(v, dict)`. -/
def IsDict : Json → Prop
  | .obj _ => True
  | _ => False

instance (v : Json) : Decidable (IsDict v) := by
  cases v <;> unfold IsDict <;> infer_instance

/-- Whether some event of the trace put out a value. -/
def PutOut (trace : List ToolEvent) (tool : String) (phases : List ToolPhase) (value : Json) :
    Prop :=
  ∃ event ∈ trace, event.tool = tool ∧ event.phase ∈ phases ∧
    event.output_hash = some (toolOutputHash tool value)

instance (trace : List ToolEvent) (tool : String) (phases : List ToolPhase) (value : Json) :
    Decidable (PutOut trace tool phases value) := by
  unfold PutOut
  infer_instance

/-- The artifact that the state of the anchor is read from. -/
def proofArtifact (artifacts : Fields) : Option Json :=
  match (Dict.find verifyTool artifacts).filter truthy with
  | some v => some v
  | none => (Dict.find prepareTool artifacts).filter truthy

end Conditions

section Validation

variable [Unicode] [Sha256]

/-- What is checked of every event. -/
def checkEvent (r : AgentRun) (event : ToolEvent) : Except GuardError Unit := do
  ensure (IsDigest event.input_hash ∧ ∀ hash ∈ event.output_hash, IsDigest hash)
    (.integrity "Agent run trace hash is invalid")
  ensure (event.tool ∈ knownTools ∨
      event.phase = .suppressed ∧ event.reason_code = "tool_not_registered")
    (.integrity "Agent run trace contains an executable unknown tool")
  ensure (event.tool ∈ registeredTools → event.phase ∈ [.called, .succeeded] →
      event.tool ∈ (authorization r.decision.verdict).allowed_tools)
    (.integrity "Agent run called a verdict-forbidden tool")
  ensure (event.tool = briefTool → event.phase ∈ [.called, .succeeded] →
      event.tool ∈ r.model_requested_safe_tools)
    (.integrity "Agent run called an unrequested optional tool")
  ensure (event.tool ∈ [prepareTool, verifyTool] →
      event.phase ∈ [.called, .succeeded, .failed] → event.tool ∈ r.artifacts.map Prod.fst)
    (.integrity "Agent run anchor trace has no artifact")

/-- What is checked of a receipt of the planning model. -/
def checkReceipt (r : AgentRun) (receipt : Fields) : Except GuardError Unit := do
  let granted := authorization r.decision.verdict
  let expected := contextHash (modelContext r.decision granted.base_state) granted.allowed_tools
  ensure (∀ k ∈ requiredStrings, textIn receipt k ≠ "")
    (.integrity "Agent run model receipt is incomplete")
  ensure (IsDigest (textIn receipt "completion_sha256"))
    (.integrity "Agent run model receipt hash is invalid")
  ensure (textIn receipt "backend" = r.model_kind ∧
      Dict.find "live_call_verified" receipt = some (.bool true) ∧
      Dict.find "structured_output_validated" receipt = some (.bool true) ∧
      Dict.find "production_reliability_claimed" receipt = some (.bool false))
    (.integrity "Agent run model receipt boundary is invalid")
  ensure (textIn receipt "model_context_hash" = expected)
    (.integrity "Agent run model receipt context is invalid")
  ensure (ReceiptBound r receipt expected)
    (.integrity "Agent run model receipt is not trace-bound")

/-- What is checked of the planning model's part in a run. -/
def checkPlanning (production : Bool) (r : AgentRun) : Except GuardError Unit :=
  if r.schema_version = "1.0" then
    ensure (r.model_receipt = none ∧ receiptEvents r.tool_trace = [])
      (.integrity "legacy Agent run contains a model receipt")
  else do
    ensure (¬ (r.planning_degraded ∧ r.model_receipt ≠ none))
      (.integrity "degraded Agent run contains a model receipt")
    match r.model_receipt with
    | some receipt => checkReceipt r receipt
    | none =>
      ensure (receiptEvents r.tool_trace = [])
        (.integrity "Agent run has a receipt trace without a receipt")
      ensure (¬ (production ∧ ¬ r.planning_degraded))
        (.integrity "production Agent run is missing its model receipt")

/-- What is checked of every artifact. -/
def checkArtifact (r : AgentRun) (entry : String × Json) : Except GuardError Unit := do
  ensure (IsDict entry.2) (.integrity "Agent run artifact is invalid")
  ensure (∀ v ∈ field "decision_id" entry.2, truthy v → v = .str r.decision.decision_id)
    (.integrity "Agent run artifact references another decision")
  ensure (field "executable" entry.2 = some (.bool false))
    (.integrity "Agent run artifact gained execution authority")
  ensure (∀ id ∈ expectedActionId r.decision.decision_id entry.1,
      field "action_id" entry.2 = some (.str id))
    (.integrity "Agent run safety action receipt is invalid")
  ensure (entry.1 ∈ registeredTools → PutOut r.tool_trace entry.1 [.succeeded] entry.2)
    (.integrity "Agent run safety action trace is invalid")

/-- What is checked of the anchor. -/
def checkAnchor (r : AgentRun) : Except GuardError Unit :=
  match proofArtifact r.artifacts with
  | some artifact => do
    ensure (field "state" artifact = some (.str r.anchor_state.text))
      (.integrity "Agent run anchor state does not match its artifact")
    ensure (field "proof_root" artifact = some (.str r.decision.proof_root))
      (.integrity "Agent run anchor proof root is invalid")
    let tool := if verifyTool ∈ r.artifacts.map Prod.fst then verifyTool else prepareTool
    ensure (PutOut r.tool_trace tool [.succeeded, .failed] artifact)
      (.integrity "Agent run anchor trace is invalid")
  | none =>
    ensure (r.anchor_state = .notConfigured)
      (.integrity "Agent run anchor state has no artifact")

/-- `_validate_run`. -/
def validateRun (production : Bool) (r : AgentRun) : Except GuardError Unit := do
  validateDecision r.decision
  ensure (r.run_id = storedRunId r.decision ∧ r.request_hash = storedRequestHash r.decision)
    (.integrity "Agent run identity does not match its request")
  ensure (¬ r.executable ∧ r.action_fingerprint = storedActionFingerprint r.decision)
    (.integrity "Agent run action boundary is invalid")
  ensure (r.tool_trace.map ToolEvent.sequence =
      (List.range r.tool_trace.length).map fun n => (n : ℤ) + 1)
    (.integrity "Agent run tool trace sequence is invalid")
  ensure (production → r.model_kind = "remote_structured_model")
    (.integrity "production Agent run did not use the remote model")
  let granted := authorization r.decision.verdict
  ensure (r.state ∈ validStates granted.base_state)
    (.integrity "Agent run state does not match its decision")
  ensure (∀ tool ∈ r.model_requested_safe_tools, tool ∈ granted.allowed_tools)
    (.integrity "Agent run contains an unauthorized model tool")
  r.tool_trace.forM (checkEvent r)
  ensure (r.schema_version ∈ ["1.0", "1.1"])
    (.integrity "Agent run schema version is unsupported")
  checkPlanning production r
  ensure (∀ name ∈ r.artifacts.map Prod.fst,
      name ∈ registeredTools ++ [prepareTool, verifyTool])
    (.integrity "Agent run contains an unknown artifact")
  ensure (r.state ≠ .haltActionUnavailable →
      granted.mandatory_tool ∈ r.artifacts.map Prod.fst)
    (.integrity "Agent run is missing its mandatory safety artifact")
  ensure (briefTool ∈ r.artifacts.map Prod.fst → briefTool ∈ r.model_requested_safe_tools)
    (.integrity "Agent run brief was not requested by the model")
  r.artifacts.forM (checkArtifact r)
  checkAnchor r
  let copy_state :=
    if r.state = .haltActionUnavailable then .haltActionUnavailable else granted.base_state
  ensure (operatorCopy copy_state r.planning_degraded = (r.explanation, r.operator_steps))
    (.integrity "Agent operator copy was modified")

end Validation

section Soundness

variable [Unicode] [Sha256]

/-- An event that passes its checks. -/
structure SoundEvent (r : AgentRun) (event : ToolEvent) : Prop where
  input : IsDigest event.input_hash
  output : ∀ hash ∈ event.output_hash, IsDigest hash
  known : event.tool ∈ knownTools ∨
    event.phase = .suppressed ∧ event.reason_code = "tool_not_registered"
  allowed : event.tool ∈ registeredTools → event.phase ∈ [.called, .succeeded] →
    event.tool ∈ (authorization r.decision.verdict).allowed_tools
  requested : event.tool = briefTool → event.phase ∈ [.called, .succeeded] →
    event.tool ∈ r.model_requested_safe_tools
  anchored : event.tool ∈ [prepareTool, verifyTool] →
    event.phase ∈ [.called, .succeeded, .failed] → event.tool ∈ r.artifacts.map Prod.fst

/-- An artifact that passes its checks. -/
structure SoundArtifact (r : AgentRun) (entry : String × Json) : Prop where
  dict : IsDict entry.2
  decision : ∀ v ∈ field "decision_id" entry.2, truthy v → v = .str r.decision.decision_id
  inert : field "executable" entry.2 = some (.bool false)
  action : ∀ id ∈ expectedActionId r.decision.decision_id entry.1,
    field "action_id" entry.2 = some (.str id)
  traced : entry.1 ∈ registeredTools → PutOut r.tool_trace entry.1 [.succeeded] entry.2

/-- A run that passes all checks. -/
structure ValidRun (production : Bool) (r : AgentRun) : Prop where
  decision : validateDecision r.decision = .ok ()
  run_id : r.run_id = storedRunId r.decision
  request : r.request_hash = storedRequestHash r.decision
  inert : r.executable = false
  action : r.action_fingerprint = storedActionFingerprint r.decision
  sequence : r.tool_trace.map ToolEvent.sequence =
    (List.range r.tool_trace.length).map fun n => (n : ℤ) + 1
  remote : production → r.model_kind = "remote_structured_model"
  state : r.state ∈ validStates (authorization r.decision.verdict).base_state
  tools : ∀ tool ∈ r.model_requested_safe_tools,
    tool ∈ (authorization r.decision.verdict).allowed_tools
  events : ∀ event ∈ r.tool_trace, SoundEvent r event
  version : r.schema_version ∈ ["1.0", "1.1"]
  planning : checkPlanning production r = .ok ()
  names : ∀ name ∈ r.artifacts.map Prod.fst, name ∈ registeredTools ++ [prepareTool, verifyTool]
  mandatory : r.state ≠ .haltActionUnavailable →
    (authorization r.decision.verdict).mandatory_tool ∈ r.artifacts.map Prod.fst
  brief : briefTool ∈ r.artifacts.map Prod.fst → briefTool ∈ r.model_requested_safe_tools
  artifacts : ∀ entry ∈ r.artifacts, SoundArtifact r entry
  anchor : checkAnchor r = .ok ()
  copied : operatorCopy (if r.state = .haltActionUnavailable then .haltActionUnavailable
      else (authorization r.decision.verdict).base_state) r.planning_degraded =
    (r.explanation, r.operator_steps)

variable {production : Bool} {r : AgentRun}

omit [Unicode] [Sha256] in
theorem checkEvent_ok {event : ToolEvent} : checkEvent r event = .ok () ↔ SoundEvent r event := by
  simp only [checkEvent, bind_eq_ok, ensure_eq_ok]
  constructor
  · rintro ⟨_, ⟨hinput, houtput⟩, _, hknown, _, hallowed, _, hrequested, hanchored⟩
    exact ⟨hinput, houtput, hknown, hallowed, hrequested, hanchored⟩
  · intro h
    exact ⟨(), ⟨h.input, h.output⟩, (), h.known, (), h.allowed, (), h.requested, h.anchored⟩

theorem checkArtifact_ok {entry : String × Json} :
    checkArtifact r entry = .ok () ↔ SoundArtifact r entry := by
  simp only [checkArtifact, bind_eq_ok, ensure_eq_ok]
  constructor
  · rintro ⟨_, hdict, _, hdecision, _, hinert, _, haction, htraced⟩
    exact ⟨hdict, hdecision, hinert, haction, htraced⟩
  · intro h
    exact ⟨(), h.dict, (), h.decision, (), h.inert, (), h.action, h.traced⟩

theorem validateRun_ok : validateRun production r = .ok () ↔ ValidRun production r := by
  simp only [validateRun, bind_eq_ok, ensure_eq_ok, forM_eq_ok, checkEvent_ok, checkArtifact_ok,
    Bool.not_eq_true]
  constructor
  · rintro ⟨_, hdecision, _, ⟨hid, hrequest⟩, _, ⟨hinert, haction⟩, _, hsequence, _, hremote, _,
      hstate, _, htools, _, hevents, _, hversion, _, hplanning, _, hnames, _, hmandatory, _,
      hbrief, _, hartifacts, _, hanchor, hcopied⟩
    exact ⟨hdecision, hid, hrequest, hinert, haction, hsequence, hremote, hstate, htools, hevents,
      hversion, hplanning, hnames, hmandatory, hbrief, hartifacts, hanchor, hcopied⟩
  · intro h
    exact ⟨(), h.decision, (), ⟨h.run_id, h.request⟩, (), ⟨h.inert, h.action⟩, (), h.sequence, (),
      h.remote, (), h.state, (), h.tools, (), h.events, (), h.version, (), h.planning, (), h.names,
      (), h.mandatory, (), h.brief, (), h.artifacts, (), h.anchor, h.copied⟩

end Soundness

end MemoryGuard.AgentRules
