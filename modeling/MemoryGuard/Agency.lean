import MemoryGuard.AgentAuthority
import MemoryGuard.Finalizing

/-!
The payment agent. A run decides, asks the planning model for a plan, takes the
safety actions that the verdict allows, and is kept in a ledger; a person can
cancel it or take it up again to anchor its decision. The model's plan, the
failures of the stores, the anchor and the clocks are whatever they are.
-/
namespace MemoryGuard.Agency

open OrderedDict JsonText Guarded ContentHash CanonicalText IsoText JsonReading Numbers
open Observations PaymentPolicy Observing Decisions AgentRuns AgentRules AgentAuthority
open Finalizing Traces

section Values

structure ModelPlan where
  explanation : String
  operator_steps : List String
  requested_tools : List String
  model_receipt : Option Fields

/-- `_fallback_plan`. -/
def fallbackPlan : ModelPlan where
  explanation := "The external planning model was unavailable. MemoryGuard's verdict " ++
    "remains authoritative, and only the deterministic non-payment safety step was retained."
  operator_steps := ["Review the authoritative reason codes and causal memory IDs."]
  requested_tools := []
  model_receipt := none

structure AgentHumanSignal where
  kind : String
  confirmation_tx_hash : Option String

/-- An agent with its guard. One in production has the remote model; another one
is not built. -/
structure MemoryGuardAgent where
  guard : Guard
  anchor : AnchorPort
  model_kind : String
  runtime_instance_id : String
  production : Bool
  remote : production = true → model_kind = "remote_structured_model"

/-- The class of an exception. -/
def className : GuardError → String
  | .integrity _ => "MemoryIntegrityError"
  | .conflict _ => "MemoryConflictError"
  | .unavailable _ => "MemoryBackendUnavailable"
  | .notFound _ => "DecisionNotFoundError"
  | .finalization _ => "FinalizationError"
  | .value _ => "ValueError"
  | .raised name => name

/-- A failure of the backend at a write, which is done all the same or not. -/
structure Outage where
  written : Bool
  name : String

/-- What the guard remembers, the safety actions, and the ledger of runs. -/
structure Stores where
  memory : Vault
  actions : Dict Digest Json
  ledger : Dict Digest Json

def Stores.blank : Stores := ⟨.blank, .empty, .empty⟩

end Values

section Traces

/-- What is noted in a trace. -/
structure Note where
  tool : String
  phase : ToolPhase
  reason : String
  input : Json
  output : Option Json

variable [Unicode] [Sha256]

def Note.event (note : Note) (sequence : ℤ) (occurred_at : DateTime) : ToolEvent where
  sequence := sequence
  tool := note.tool
  phase := note.phase
  reason_code := note.reason
  input_hash := toolInputHash note.tool note.input
  output_hash := note.output.map (toolOutputHash note.tool)
  occurred_at := occurred_at

/-- `_Trace.add`. -/
def add (clock : ℕ → DateTime) (trace : List ToolEvent) (note : Note) : List ToolEvent :=
  trace ++ [note.event (trace.length + 1) (clock trace.length).inUtc]

def record (clock : ℕ → DateTime) (trace : List ToolEvent) (notes : List Note) : List ToolEvent :=
  notes.foldl (add clock) trace

end Traces

section Actions

variable [Unicode] [Sha256]

/-- `_review_receipt`. -/
def reviewReceipt (d : DecisionDraft) : Json :=
  object [("action_id", .str (actionId "review-action" d.decision_id)),
    ("kind", .str "non_executable_human_review_card"), ("decision_id", .str d.decision_id),
    ("verdict", .str d.verdict.text), ("proof_root", .str d.proof_root),
    ("expires_at", .str (isoformat d.expires_at)),
    ("required_gate", .str "human_review_before_any_external_action"),
    ("executable", .bool false)]

/-- `_escalation_receipt`. -/
def escalationReceipt (d : DecisionDraft) : Json :=
  object [("action_id", .str (actionId "escalation-action" d.decision_id)),
    ("kind", .str "operator_escalation_case"),
    ("case_ref", .str (domainHash "agent-escalation" (.str d.decision_id))),
    ("decision_id", .str d.decision_id), ("verdict", .str d.verdict.text),
    ("reason_codes", texts d.reason_codes), ("causal_memory_ids", texts d.causal_memory_ids),
    ("executable", .bool false)]

/-- `_brief_receipt`. -/
def briefReceipt (d : DecisionDraft) : Json :=
  object [("action_id", .str (actionId "evidence-brief-action" d.decision_id)),
    ("kind", .str "causal_evidence_brief"), ("decision_id", .str d.decision_id),
    ("verdict", .str d.verdict.text), ("reason_codes", texts d.reason_codes),
    ("causal_memory_ids", texts d.causal_memory_ids), ("memory_version", int d.memory_version),
    ("memory_root", .str d.memory_root), ("proof_root", .str d.proof_root),
    ("executable", .bool false)]

/-- `SibylSafetyActionAdapter._key`. -/
def actionKey (action_id : String) : Digest := domainHash "sibyl-safe-action-key" (.str action_id)

def actionsDown (o : Outage) : GuardError :=
  .unavailable ("Sibyl safety action failed: " ++ o.name)

/-- `_save`: what is kept under an action's identifier stays as it is. -/
def saveAction (outage : Option Outage) (actions : Dict Digest Json) (action_id : String)
    (receipt : Json) : Dict Digest Json × Except GuardError Json :=
  match actions.get? (actionKey action_id), outage with
  | some _, some o => (actions, .error (actionsDown o))
  | some existing, none =>
    -- Receipts hold no floats, so that equal ones are the same.
    if existing ≠ receipt then
      (actions, .error (.value "safety action id was reused with different content"))
    else (actions, .ok existing)
  | none, some o =>
    (if o.written then actions.set (actionKey action_id) receipt else actions,
      .error (actionsDown o))
  | none, none => (actions.set (actionKey action_id) receipt, .ok receipt)

/-- `_call_action`. -/
def callAction (outage : Option Outage) (actions : Dict Digest Json) (tool : String)
    (d : DecisionDraft) : Dict Digest Json × Except GuardError Json :=
  if tool = reviewTool then
    saveAction outage actions (actionId "review-action" d.decision_id) (reviewReceipt d)
  else if tool = escalationTool then
    saveAction outage actions (actionId "escalation-action" d.decision_id) (escalationReceipt d)
  else if tool = briefTool then
    saveAction outage actions (actionId "evidence-brief-action" d.decision_id) (briefReceipt d)
  else (actions, .error (.value "tool is not registered"))

/-- Where the loop over the registered tools stands. -/
structure Turns where
  notes : List Note
  actions : Dict Digest Json
  artifacts : Fields
  action_failed : Bool

/-- One turn of the loop. -/
def turn (requested : List String) (outages : String → Option Outage) (d : DecisionDraft)
    (t : Turns) (tool : String) : Turns :=
  let granted := authorization d.verdict
  let input := object [("decision_id", .str d.decision_id), ("verdict", .str d.verdict.text)]
  let considered : Note := ⟨tool, .considered, "closed_tool_registry", input, none⟩
  if tool ∉ granted.allowed_tools then
    { t with notes := t.notes ++
        [considered, ⟨tool, .suppressed, "verdict_" ++ d.verdict.text, input, none⟩] }
  else if tool ≠ granted.mandatory_tool ∧ tool ∉ requested then
    { t with notes := t.notes ++
        [considered, ⟨tool, .suppressed, "not_requested_by_model", input, none⟩] }
  else
    let call_reason := if tool = granted.mandatory_tool then "mandatory_safety_action"
      else "requested_by_model_and_authorized"
    let called : Note := ⟨tool, .called, call_reason, input, none⟩
    match callAction (outages tool) t.actions tool d with
    | (actions, .ok artifact) =>
      { t with
        notes := t.notes ++ [considered, called,
          ⟨tool, .succeeded, "persisted_by_safe_action_adapter", input, some artifact⟩]
        actions := actions
        artifacts := Dict.put tool artifact t.artifacts }
    | (actions, .error e) =>
      { t with
        notes := t.notes ++ [considered, called,
          ⟨tool, .failed, "safe_action_failed_" ++ className e, input, none⟩]
        actions := actions
        action_failed := true }

def takeTurns (requested : List String) (outages : String → Option Outage) (d : DecisionDraft)
    (actions : Dict Digest Json) : Turns :=
  registeredTools.foldl (turn requested outages d) ⟨[], actions, [], false⟩

end Actions

section Ledger

variable [Unicode] [Interpreter] [Sha256]

omit [Interpreter] in
/-- `SibylAgentRunAdapter._key`. -/
def runKey (run_id : String) : Digest := domainHash "sibyl-agent-run-key" (.str run_id)

omit [Interpreter] in
def envelope (r : AgentRun) : Json :=
  object [("schema_version", .str "1.0"), ("run", r.toJson),
    ("run_hash", .str (domainHash "agent-run-ledger" r.toJson))]

/-- `load`. -/
def loadRun (ledger : Dict Digest Json) (run_id : String) : Except GuardError (Option AgentRun) :=
  match ledger.get? (runKey run_id) with
  | none => return none
  | some row => do
    let envelope ← dictOf row
    let run_body ← dictOf (← required "run" envelope)
    ensure (field "run_hash" envelope = some (.str (domainHash "agent-run-ledger" run_body)))
      (.unavailable "Sibyl Agent run ledger integrity check failed")
    let run ← AgentRun.ofJson run_body
    return some run

omit [Interpreter] in
/-- `save`. -/
def saveRun (outage : Option Outage) (stores : Stores) (r : AgentRun) :
    Stores × Except GuardError AgentRun :=
  let saved := { stores with ledger := stores.ledger.set (runKey r.run_id) (envelope r) }
  match outage with
  | none => (saved, .ok r)
  | some o => (if o.written then saved else stores,
      .error (.unavailable ("Sibyl Agent run ledger failed: " ++ o.name)))

/-- `inspect`. -/
def inspectRun (production : Bool) (ledger : Dict Digest Json) (run_id : String) :
    Except GuardError AgentRun := do
  let loaded ← loadRun ledger run_id
  let run ← fetch loaded (.notFound "Agent run was not found")
  validateRun production run
  return run

end Ledger

section Running

/-- What the surroundings of a run answer; the clock is read for every event. -/
structure RunSurroundings where
  deciding : DecisionSurroundings
  plan : Except GuardError ModelPlan
  outages : String → Option Outage
  clock : ℕ → DateTime
  now : DateTime
  saving : Option Outage

variable [Unicode] [Interpreter] [Sha256]

omit [Interpreter] in
def decisionNotes (d : DecisionDraft) (action_fingerprint : Digest) : List Note :=
  let payload := object [("action_fingerprint", .str action_fingerprint)]
  [⟨"memoryguard.decide", .considered, "mandatory_authority", payload, none⟩,
    ⟨"memoryguard.decide", .called, "mandatory_authority", payload, none⟩,
    ⟨"memoryguard.decide", .succeeded, "verdict_" ++ d.verdict.text, payload,
      some (object [("decision_id", .str d.decision_id), ("proof_root", .str d.proof_root)])⟩]

/-- `str(model_receipt.get("model_context_hash", ""))`. -/
def receiptContext (receipt : Fields) : String :=
  strOf ((Dict.find "model_context_hash" receipt).getD (.str ""))

def planNotes (run_id : String) (context : Json) (plan : Except GuardError ModelPlan) :
    List Note :=
  let considered : Note := ⟨"model.plan", .considered, "bounded_planning", context, none⟩
  let called : Note := ⟨"model.plan", .called, "bounded_planning", context, none⟩
  match plan with
  | .error e =>
    [considered, called,
      ⟨"model.plan", .failed, "planning_failed_" ++ className e, context, none⟩]
  | .ok p =>
    [considered, called,
      ⟨"model.plan", .succeeded, "structured_plan_received", context,
        some (object [("requested_tools", texts p.requested_tools),
          ("explanation_hash", .str (domainHash "model-explanation" (.str p.explanation)))])⟩] ++
    match p.model_receipt with
    | none => []
    | some receipt => [⟨receiptTool, .succeeded, "non_secret_provider_receipt",
        receiptInput run_id (receiptContext receipt), some (.obj receipt)⟩]

omit [Unicode] [Interpreter] [Sha256] in
/-- The requested tools that are not registered, in order. -/
def unknownTools (requested : List String) : List String :=
  sortedSet (requested.filter fun tool => tool ∉ registeredTools)

omit [Unicode] [Interpreter] [Sha256] in
def unknownNotes (d : DecisionDraft) (requested : List String) : List Note :=
  (unknownTools requested).map fun tool =>
    ⟨tool, .suppressed, "tool_not_registered", object [("decision_id", .str d.decision_id)], none⟩

omit [Unicode] [Interpreter] [Sha256] in
/-- The plan that is followed. -/
def planned (plan : Except GuardError ModelPlan) : ModelPlan :=
  match plan with
  | .ok p => p
  | .error _ => fallbackPlan

def newRun (agent : MemoryGuardAgent) (around : RunSurroundings) (goal : PaymentIntent)
    (d : DecisionDraft) (t : Turns) : AgentRun :=
  let granted := authorization d.verdict
  let plan := planned around.plan
  let planning_degraded := !around.plan.isOk
  let copy := operatorCopy
    (if t.action_failed then .haltActionUnavailable else granted.base_state) planning_degraded
  { run_id := runId goal
    request_hash := requestHash goal
    runtime_instance_id := agent.runtime_instance_id
    state := if t.action_failed then .haltActionUnavailable
      else if planning_degraded then .degradedSafeOnly else granted.base_state
    decision := d
    action_fingerprint := actionFingerprint goal
    explanation := copy.1
    operator_steps := copy.2
    planning_degraded := planning_degraded
    model_kind := agent.model_kind
    model_receipt := plan.model_receipt
    model_requested_safe_tools :=
      plan.requested_tools.filter fun tool => tool ∈ granted.allowed_tools
    tool_trace := record around.clock [] (decisionNotes d (actionFingerprint goal) ++
      planNotes (runId goal) (modelContext d granted.base_state) around.plan ++
      unknownNotes d plan.requested_tools ++ t.notes)
    artifacts := t.artifacts
    anchor_state := .notConfigured
    executable := false
    created_at := around.now.inUtc
    updated_at := around.now.inUtc
    schema_version := "1.1" }

/-- `run`. What was decided and done before a failure stays. -/
def run (agent : MemoryGuardAgent) (around : RunSurroundings) (stores : Stores)
    (goal : PaymentIntent) : Stores × Except GuardError AgentRun :=
  match loadRun stores.ledger (runId goal) with
  | .error e => (stores, .error e)
  | .ok (some existing) => (stores, do
      validateRun agent.production existing
      ensure (existing.request_hash = requestHash goal)
        (.conflict "Agent idempotency key was reused for a different request")
      return existing)
  | .ok none =>
    match decideIntent agent.guard around.deciding
        (stores.memory.subject (subjectRef goal.subject_id)) goal with
    | .error e => (stores, .error e)
    | .ok d =>
      let t := takeTurns (planned around.plan).requested_tools around.outages d stores.actions
      let stores := { stores with memory := saveDecision stores.memory d, actions := t.actions }
      let r := newRun agent around goal d t
      match validateRun agent.production r with
      | .error e => (stores, .error e)
      | .ok () => saveRun around.saving stores r

end Running

section Resuming

/-- What the surroundings answer when a run is taken up again. -/
structure ResumeSurroundings where
  finalized : DateTime
  clock : ℕ → DateTime
  now : DateTime
  saving : Option Outage

/-- The states in which a signal to cancel changes nothing. -/
def settledStates : List AgentState :=
  [.blockAndEscalate, .haltActionUnavailable, .degradedSafeOnly, .blockAndRedecide, .cancelled]

/-- The states that a run does not go on from. -/
def stoppedStates : List AgentState :=
  [.cancelled, .haltActionUnavailable, .degradedSafeOnly, .blockAndRedecide]

variable [Unicode] [Interpreter] [Sha256]

omit [Interpreter] in
def cancelled (around : ResumeSurroundings) (r : AgentRun) : AgentRun :=
  let payload := object [("run_id", .str r.run_id)]
  { r with
    state := .cancelled
    tool_trace := record around.clock r.tool_trace
      [⟨"agent.cancel", .considered, "human_cancel_signal", payload, none⟩,
        ⟨"agent.cancel", .called, "human_cancel_signal", payload, none⟩,
        ⟨"agent.cancel", .succeeded, "run_cancelled", payload, some payload⟩]
    updated_at := around.now.inUtc }

omit [Interpreter] in
/-- A run after a tool of the anchor has answered. -/
def anchored (around : ResumeSurroundings) (r : AgentRun) (tool signal : String) (payload : Json)
    (phase : ToolPhase) (reason : String) (state : AnchorState) (artifact : Json) : AgentRun :=
  { r with
    tool_trace := record around.clock r.tool_trace
      [⟨tool, .considered, signal, payload, none⟩, ⟨tool, .called, signal, payload, none⟩,
        ⟨tool, phase, reason, payload, some artifact⟩]
    anchor_state := state
    artifacts := Dict.put tool artifact r.artifacts
    updated_at := around.now.inUtc
    executable := false }

omit [Interpreter] in
def prepared (around : ResumeSurroundings) (r : AgentRun) (result : FinalizationResult) :
    AgentRun :=
  anchored around r prepareTool "human_request"
    (object [("decision_id", .str r.decision.decision_id)])
    (if result.state = .failed then .failed else .succeeded)
    ("anchor_" ++ result.state.text) result.state result.toJson

def observedPayload (r : AgentRun) (tx : String) : Json :=
  object [("decision_id", .str r.decision.decision_id), ("tx_hash", .str tx)]

omit [Interpreter] in
def observedAnchor (around : ResumeSurroundings) (r : AgentRun) (tx : String)
    (result : FinalizationResult) : AgentRun :=
  anchored around r verifyTool "human_wallet_signal" (observedPayload r tx)
    (if result.state = .pending ∨ result.state = .verified then .succeeded else .failed)
    ("anchor_" ++ result.state.text) result.state result.toJson

def refusal (r : AgentRun) : Json :=
  object [("decision_id", .str r.decision.decision_id), ("state", .str "failed"),
    ("proof_root", .str r.decision.proof_root),
    ("reason_codes", texts ["decision_requires_fresh_recall"]), ("executable", .bool false)]

omit [Interpreter] in
/-- A run whose decision is out of date must be decided again. -/
def refused (around : ResumeSurroundings) (r : AgentRun) (tx : String) (e : GuardError) :
    AgentRun :=
  { anchored around r verifyTool "human_wallet_signal" (observedPayload r tx) .failed
      ("decision_requires_recall_" ++ className e) .failed (refusal r) with
    state := .blockAndRedecide }

/-- The transaction that the artifact of a verified run names. -/
def verifiedTransaction (r : AgentRun) : Option Json := do
  let verified ← Dict.find verifyTool r.artifacts
  let verification ← (field "anchor_verification" verified).filter truthy
  field "tx_hash" verification

def unknownSignal : GuardError :=
  .value "resume accepts only cancel, prepare_anchor, or anchor_transaction_observed"

/-- `resume`. -/
def resume (agent : MemoryGuardAgent) (around : ResumeSurroundings) (stores : Stores)
    (run_id : String) (signal : AgentHumanSignal) : Stores × Except GuardError AgentRun :=
  match inspectRun agent.production stores.ledger run_id with
  | .error e => (stores, .error e)
  | .ok r =>
    if signal.kind = "cancel" then
      if r.state ∈ settledStates then (stores, .ok r)
      else saveRun around.saving stores (cancelled around r)
    else if r.state ∈ stoppedStates then
      (stores, .error (.value "this Agent run cannot continue"))
    else if signal.kind = "prepare_anchor" then
      match finalize agent.guard agent.anchor around.finalized stores.memory
          r.decision.decision_id none with
      | .error e => (stores, .error e)
      | .ok (memory, result) =>
        saveRun around.saving { stores with memory := memory } (prepared around r result)
    else if signal.kind ≠ "anchor_transaction_observed" then (stores, .error unknownSignal)
    else match supplied signal.confirmation_tx_hash with
      | none => (stores, .error unknownSignal)
      | some tx =>
        if r.anchor_state = .verified then
          (stores, if verifiedTransaction r = some (.str tx) then .ok r else
            .error (.value "Agent run is already anchored by a different transaction"))
        else match finalize agent.guard agent.anchor around.finalized stores.memory
            r.decision.decision_id (some tx) with
          | .error (.finalization message) =>
            saveRun around.saving stores (refused around r tx (.finalization message))
          | .error e => (stores, .error e)
          | .ok (memory, result) =>
            saveRun around.saving { stores with memory := memory }
              (observedAnchor around r tx result)

end Resuming

section Calls

/-- What can be asked of an agent and of the guard that it shares a memory with. -/
inductive AgentCall
  | guard (call : GuardCall)
  | run (agent : MemoryGuardAgent) (around : RunSurroundings) (goal : PaymentIntent)
  | inspect (agent : MemoryGuardAgent) (run_id : String)
  | resume (agent : MemoryGuardAgent) (around : ResumeSurroundings) (run_id : String)
      (signal : AgentHumanSignal)

inductive Reply
  | guard (answer : Answer)
  | run (r : AgentRun)

variable [Unicode] [Interpreter] [Sha256]

def serve (stores : Stores) : AgentCall → Stores × Except GuardError Reply
  | .guard call =>
    match serveCall stores.memory call with
    | .ok (memory, answer) => ({ stores with memory := memory }, .ok (.guard answer))
    | .error e => (stores, .error e)
  | .run agent around goal =>
    let (stores, answer) := run agent around stores goal
    (stores, Reply.run <$> answer)
  | .inspect agent run_id =>
    (stores, Reply.run <$> inspectRun agent.production stores.ledger run_id)
  | .resume agent around run_id signal =>
    let (stores, answer) := resume agent around stores run_id signal
    (stores, Reply.run <$> answer)

/-- The identifier of the decision that a call of the guard may make. -/
def drawnBy : GuardCall → Option String
  | .decide _ around _ => some (newId "dec" around.uuid)
  | _ => none

def AgentCall.drawn : AgentCall → Option String
  | .guard call => drawnBy call
  | .run _ around _ => some (newId "dec" around.deciding.uuid)
  | _ => none

/-- Whether a call goes to an agent in production. -/
def AgentCall.production : AgentCall → Bool
  | .guard _ => false
  | .run agent _ _ => agent.production
  | .inspect agent _ => agent.production
  | .resume agent _ _ _ => agent.production

structure AgentStep where
  call : AgentCall
  pre : Stores
  post : Stores
  answered : Except GuardError Reply

/-- The calls that one set of stores serves, from agents of any configuration.
Every decision gets an identifier that no decision had before. -/
def agency : System Stores AgentStep where
  init := .blank
  pre := AgentStep.pre
  post := AgentStep.post
  allowed _ s := serve s.pre s.call = (s.post, s.answered) ∧
    ∀ id, s.call.drawn = some id → s.pre.memory.decisions.get? (entityKey id) = none

end Calls

section Recording

variable [Unicode] [Sha256] {clock : ℕ → DateTime} {trace : List ToolEvent} {notes : List Note}

theorem record_prefix : trace <+: record clock trace notes := by
  induction notes generalizing trace with
  | nil => exact List.prefix_refl _
  | cons note rest ih => exact (List.prefix_append ..).trans ih

/-- An event of a trace was there before or stands for one of the notes. -/
theorem mem_record {event : ToolEvent} (h : event ∈ record clock trace notes) :
    event ∈ trace ∨ ∃ note ∈ notes, ∃ n at', event = note.event n (DateTime.inUtc at') := by
  induction notes generalizing trace with
  | nil => exact Or.inl h
  | cons note rest ih =>
    rcases ih h with hold | ⟨note', hnote, n, at', heq⟩
    · rcases List.mem_append.mp hold with hold | hnew
      · exact Or.inl hold
      · exact Or.inr ⟨note, List.mem_cons_self, _, _, List.mem_singleton.mp hnew⟩
    · exact Or.inr ⟨note', List.mem_cons_of_mem _ hnote, n, at', heq⟩

theorem event_mem_record (clock : ℕ → DateTime) (trace : List ToolEvent) {note : Note}
    (h : note ∈ notes) : ∃ n at', note.event n at' ∈ record clock trace notes := by
  induction notes generalizing trace with
  | nil => simp at h
  | cons first rest ih =>
    rcases List.mem_cons.mp h with rfl | h
    · have hhere : note.event (trace.length + 1) (clock trace.length).inUtc ∈
          add clock trace note := List.mem_append_right _ (List.mem_singleton.mpr rfl)
      have hlonger : add clock trace note <+: record clock (add clock trace note) rest :=
        record_prefix
      exact ⟨_, _, hlonger.subset hhere⟩
    · exact ih (add clock trace first) h

/-- The events of a trace are numbered from one. -/
def Numbered (trace : List ToolEvent) : Prop :=
  trace.map ToolEvent.sequence = (List.range trace.length).map fun n => (n : ℤ) + 1

theorem record_numbered (h : Numbered trace) : Numbered (record clock trace notes) := by
  induction notes generalizing trace with
  | nil => exact h
  | cons note rest ih =>
    apply ih
    unfold Numbered at h ⊢
    simp only [add, List.map_append, h, List.length_append, List.length_singleton,
      List.range_succ, List.map_singleton, List.bind_eq_flatMap, List.flatMap_append]
    rfl

theorem record_filter {p : ToolEvent → Bool}
    (h : ∀ note ∈ notes, ∀ n at', p (note.event n at') = false) :
    (record clock trace notes).filter p = trace.filter p := by
  induction notes generalizing trace with
  | nil => rfl
  | cons note rest ih =>
    have hrest : (record clock (add clock trace note) rest).filter p =
        (add clock trace note).filter p :=
      ih fun note' hnote => h note' (List.mem_cons_of_mem _ hnote)
    change (record clock (add clock trace note) rest).filter p = _
    rw [hrest, add, List.filter_append]
    simp [h note List.mem_cons_self]

end Recording

section Rereading

variable [Interpreter]

omit [Interpreter] in
theorem reread_decision (d : DecisionDraft) (amount : Numeral) :
    (d.reread amount).reread amount = d.reread amount := by
  simp only [DecisionDraft.reread, rereadIntent, reread_of_aware (aware_reread _)]

/-- A decision, as it is or as it is read back. -/
def SameDecision (d d' : DecisionDraft) : Prop :=
  d' = d ∨ ∃ amount, floatOf (.num d.intent.amount_usd) = .ok amount ∧ d' = d.reread amount

theorem SameDecision.reread {d d' : DecisionDraft} {amount : Numeral} (h : SameDecision d d')
    (hamount : floatOf (.num d'.intent.amount_usd) = .ok amount) :
    SameDecision d (d'.reread amount) := by
  rcases h with rfl | ⟨first, hfirst, rfl⟩
  · exact Or.inr ⟨amount, hamount, rfl⟩
  · have hagain : floatOf (.num first) = .ok amount := hamount
    rw [floatOf_floatOf hfirst] at hagain
    cases hagain
    exact Or.inr ⟨amount, hfirst, reread_decision d amount⟩

theorem SameDecision.trans {d d' d'' : DecisionDraft} (h : SameDecision d d')
    (h' : SameDecision d' d'') : SameDecision d d'' := by
  rcases h' with rfl | ⟨amount, hamount, rfl⟩
  · exact h
  · exact h.reread hamount

end Rereading

section Rows

variable [Unicode] [Interpreter] [Sha256] {ledger : Dict Digest Json} {run_id : String}
  {r w : AgentRun}

omit [Interpreter] in
theorem field_envelope (k : String) : field k (envelope w) = Dict.find k
    [("schema_version", .str "1.0"), ("run", w.toJson),
      ("run_hash", .str (domainHash "agent-run-ledger" w.toJson))] :=
  field_object (by simp) k

/-- A row of the ledger gives the run back as it is read. -/
theorem loadRun_row (hrow : ledger.get? (runKey run_id) = some (envelope w))
    (hhashes : ∀ e ∈ w.tool_trace, e.output_hash ≠ some "") :
    loadRun ledger run_id = (fun amount => some (w.reread amount)) <$>
      floatOf (.num w.decision.intent.amount_usd) := by
  have hrun : required "run" (envelope w) = .ok w.toJson := required_of (field_envelope "run")
  have hhash : field "run_hash" (envelope w) =
      some (.str (domainHash "agent-run-ledger" w.toJson)) := field_envelope "run_hash"
  have hdict : dictOf (envelope w) = .ok (envelope w) := rfl
  have hbody : dictOf w.toJson = .ok w.toJson := rfl
  unfold loadRun
  rw [hrow]
  simp only [hdict, hrun, hbody, ok_bind, AgentRun.ofJson_toJson hhashes]
  rw [(ensure_eq_ok (u := ())).mpr hhash, ok_bind]
  cases floatOf (.num w.decision.intent.amount_usd) with
  | error e => rfl
  | ok amount => rfl

end Rows

section Cases

variable [Unicode] [Interpreter] [Sha256] {stores stores' : Stores} {call : AgentCall}
  {answered : Except GuardError Reply}

/-- The run that a call comes to save, with the memory and the actions it leaves. -/
inductive Saves (stores : Stores) :
    AgentCall → Vault → Dict Digest Json → AgentRun → Prop
  | new {agent : MemoryGuardAgent} {around : RunSurroundings} {goal : PaymentIntent}
      {d : DecisionDraft} {t : Turns} (absent : loadRun stores.ledger (runId goal) = .ok none)
      (decides : decideIntent agent.guard around.deciding
        (stores.memory.subject (subjectRef goal.subject_id)) goal = .ok d)
      (takes : t = takeTurns (planned around.plan).requested_tools around.outages d stores.actions)
      (valid : validateRun agent.production (newRun agent around goal d t) = .ok ()) :
      Saves stores (.run agent around goal) (saveDecision stores.memory d) t.actions
        (newRun agent around goal d t)
  | cancelled {agent : MemoryGuardAgent} {around : ResumeSurroundings} {run_id : String}
      {signal : AgentHumanSignal} {r : AgentRun} (kind : signal.kind = "cancel")
      (inspected : inspectRun agent.production stores.ledger run_id = .ok r)
      (unsettled : r.state ∉ settledStates) :
      Saves stores (.resume agent around run_id signal) stores.memory stores.actions
        (cancelled around r)
  | prepared {agent : MemoryGuardAgent} {around : ResumeSurroundings} {run_id : String}
      {signal : AgentHumanSignal} {r : AgentRun} {memory : Vault} {result : FinalizationResult}
      (kind : signal.kind = "prepare_anchor")
      (inspected : inspectRun agent.production stores.ledger run_id = .ok r)
      (going : r.state ∉ stoppedStates)
      (finalizes : finalize agent.guard agent.anchor around.finalized stores.memory
        r.decision.decision_id none = .ok (memory, result)) :
      Saves stores (.resume agent around run_id signal) memory stores.actions
        (prepared around r result)
  | refused {agent : MemoryGuardAgent} {around : ResumeSurroundings} {run_id : String}
      {signal : AgentHumanSignal} {r : AgentRun} {tx message : String}
      (kind : signal.kind = "anchor_transaction_observed")
      (inspected : inspectRun agent.production stores.ledger run_id = .ok r)
      (going : r.state ∉ stoppedStates) (unverified : r.anchor_state ≠ .verified) :
      Saves stores (.resume agent around run_id signal) stores.memory stores.actions
        (refused around r tx (.finalization message))
  | observed {agent : MemoryGuardAgent} {around : ResumeSurroundings} {run_id : String}
      {signal : AgentHumanSignal} {r : AgentRun} {tx : String} {memory : Vault}
      {result : FinalizationResult} (kind : signal.kind = "anchor_transaction_observed")
      (inspected : inspectRun agent.production stores.ledger run_id = .ok r)
      (going : r.state ∉ stoppedStates) (unverified : r.anchor_state ≠ .verified)
      (finalizes : finalize agent.guard agent.anchor around.finalized stores.memory
        r.decision.decision_id (some tx) = .ok (memory, result)) :
      Saves stores (.resume agent around run_id signal) memory stores.actions
        (observedAnchor around r tx result)

/-- The ledger after a run was saved in it. -/
def filed (ledger : Dict Digest Json) (r : AgentRun) : Dict Digest Json :=
  ledger.set (runKey r.run_id) (envelope r)

/-- What is left of a call that comes to save a run. -/
structure Saved (stores' : Stores) (answered : Except GuardError Reply) (ledger : Dict Digest Json)
    (memory : Vault) (actions : Dict Digest Json) (r : AgentRun) : Prop where
  remembers : stores'.memory = memory
  acts : stores'.actions = actions
  files : stores'.ledger = filed ledger r ∨ stores'.ledger = ledger
  answers : ∀ reply, answered = .ok reply → reply = .run r ∧ stores'.ledger = filed ledger r

omit [Interpreter] in
theorem saveRun_saved {outage : Option Outage} {r : AgentRun} {answer : Except GuardError AgentRun}
    (h : saveRun outage stores r = (stores', answer)) :
    Saved stores' (Reply.run <$> answer) stores.ledger stores.memory stores.actions r := by
  cases outage with
  | none =>
    cases h
    refine ⟨rfl, rfl, Or.inl rfl, ?_⟩
    intro reply hreply
    cases hreply
    exact ⟨rfl, rfl⟩
  | some o =>
    simp only [saveRun, Prod.mk.injEq] at h
    obtain ⟨rfl, rfl⟩ := h
    have herror : ∀ reply, Reply.run <$> (Except.error (GuardError.unavailable
        ("Sibyl Agent run ledger failed: " ++ o.name)) : Except GuardError AgentRun) ≠
        .ok reply := by
      intro reply hreply
      cases hreply
    by_cases hwritten : o.written = true
    · rw [if_pos hwritten]
      exact ⟨rfl, rfl, Or.inl rfl, fun reply hreply => absurd hreply (herror reply)⟩
    · rw [if_neg hwritten]
      exact ⟨rfl, rfl, Or.inr rfl, fun reply hreply => absurd hreply (herror reply)⟩

/-- The memory stays as it is, or is left by one call of the guard. -/
def Remembers (call : AgentCall) (memory memory' : Vault) : Prop :=
  memory' = memory ∨ ∃ asked answer, serveCall memory asked = .ok (memory', answer) ∧
    ∀ id, drawnBy asked = some id → call.drawn = some id

/-- What is left of a call that saves no run: a run that it answers is one that
was inspected. -/
structure Unsaved (stores : Stores) (call : AgentCall) (stores' : Stores)
    (answered : Except GuardError Reply) : Prop where
  ledger : stores'.ledger = stores.ledger
  remembers : Remembers call stores.memory stores'.memory
  answers : ∀ r, answered = .ok (.run r) →
    ∃ run_id, inspectRun call.production stores.ledger run_id = .ok r

theorem inspectRun_ok {production : Bool} {ledger : Dict Digest Json} {run_id : String}
    {r : AgentRun} : inspectRun production ledger run_id = .ok r ↔
      loadRun ledger run_id = .ok (some r) ∧ validateRun production r = .ok () := by
  simp only [inspectRun, bind_eq_ok, fetch_eq_ok, pure_eq_ok]
  constructor
  · rintro ⟨_, hload, _, rfl, _, hvalid, rfl⟩
    exact ⟨hload, hvalid⟩
  · intro h
    exact ⟨_, h.1, r, rfl, (), h.2, rfl⟩

omit [Unicode] [Interpreter] [Sha256] in
theorem run_map_ok {answer : Except GuardError AgentRun} {r : AgentRun}
    (h : Reply.run <$> answer = .ok (.run r)) : answer = .ok r := by
  cases answer with
  | error e => cases h
  | ok r' =>
    cases h
    rfl

theorem remembers_decision {agent : MemoryGuardAgent} {around : RunSurroundings}
    {goal : PaymentIntent} {d : DecisionDraft} {memory : Vault}
    (h : decideIntent agent.guard around.deciding
      (memory.subject (subjectRef goal.subject_id)) goal = .ok d) :
    Remembers (.run agent around goal) memory (saveDecision memory d) := by
  refine Or.inr ⟨.decide agent.guard around.deciding goal, .decided d, ?_, fun id hid => hid⟩
  simp only [serveCall, h, ok_bind]
  rfl

theorem remembers_finalization {call : AgentCall} {guard : Guard} {anchor : AnchorPort}
    {now : DateTime} {decision_id : String} {tx : Option String} {memory memory' : Vault}
    {result : FinalizationResult}
    (h : finalize guard anchor now memory decision_id tx = .ok (memory', result)) :
    Remembers call memory memory' := by
  refine Or.inr ⟨.finalize guard anchor now decision_id tx, .finalized result, ?_,
    fun id hid => by cases hid⟩
  simp only [serveCall, h, ok_bind]
  rfl

theorem Saves.remembers {memory : Vault} {actions : Dict Digest Json} {r : AgentRun}
    (h : Saves stores call memory actions r) : Remembers call stores.memory memory := by
  cases h with
  | new absent decides takes valid => exact remembers_decision decides
  | cancelled kind inspected unsettled => exact Or.inl rfl
  | prepared kind inspected going finalizes => exact remembers_finalization finalizes
  | refused kind inspected going unverified => exact Or.inl rfl
  | observed kind inspected going unverified finalizes => exact remembers_finalization finalizes

theorem serve_run {agent : MemoryGuardAgent} {around : RunSurroundings} {goal : PaymentIntent}
    {answer : Except GuardError AgentRun} (h : run agent around stores goal = (stores', answer)) :
    serve stores (.run agent around goal) = (stores', Reply.run <$> answer) := by
  simp only [serve, h]

theorem serve_resume {agent : MemoryGuardAgent} {around : ResumeSurroundings} {run_id : String}
    {signal : AgentHumanSignal} {answer : Except GuardError AgentRun}
    (h : resume agent around stores run_id signal = (stores', answer)) :
    serve stores (.resume agent around run_id signal) = (stores', Reply.run <$> answer) := by
  simp only [serve, h]

theorem run_cases {agent : MemoryGuardAgent} {around : RunSurroundings} {goal : PaymentIntent}
    {answer : Except GuardError AgentRun} (h : run agent around stores goal = (stores', answer)) :
    Unsaved stores (.run agent around goal) stores' (Reply.run <$> answer) ∨
      ∃ memory actions r, Saves stores (.run agent around goal) memory actions r ∧
      Saved stores' (Reply.run <$> answer) stores.ledger memory actions r := by
  unfold run at h
  split at h
  · cases h
    exact Or.inl ⟨rfl, Or.inl rfl, fun r hr => by cases hr⟩
  · rename_i existing hload
    simp only [Prod.mk.injEq] at h
    obtain ⟨rfl, rfl⟩ := h
    refine Or.inl ⟨rfl, Or.inl rfl, ?_⟩
    intro r hr
    have hanswer := run_map_ok hr
    simp only [bind_eq_ok, pure_eq_ok] at hanswer
    obtain ⟨_, hvalid, _, _, rfl⟩ := hanswer
    exact ⟨runId goal, inspectRun_ok.mpr ⟨hload, hvalid⟩⟩
  · rename_i hload
    split at h
    · cases h
      exact Or.inl ⟨rfl, Or.inl rfl, fun r hr => by cases hr⟩
    · rename_i d hdecide
      dsimp only at h
      split at h
      · cases h
        exact Or.inl ⟨rfl, remembers_decision hdecide, fun r hr => by cases hr⟩
      · rename_i hvalid
        exact Or.inr ⟨_, _, _, .new hload hdecide rfl hvalid, saveRun_saved h⟩

theorem resume_cases {agent : MemoryGuardAgent} {around : ResumeSurroundings} {run_id : String}
    {signal : AgentHumanSignal} {answer : Except GuardError AgentRun}
    (h : resume agent around stores run_id signal = (stores', answer)) :
    Unsaved stores (.resume agent around run_id signal) stores' (Reply.run <$> answer) ∨
      ∃ memory actions r, Saves stores (.resume agent around run_id signal) memory actions r ∧
      Saved stores' (Reply.run <$> answer) stores.ledger memory actions r := by
  have hrefused : ∀ e, stores' = stores → answer = .error e →
      Unsaved stores (.resume agent around run_id signal) stores' (Reply.run <$> answer) := by
    intro e hs he
    subst hs he
    exact ⟨rfl, Or.inl rfl, fun r hr => by cases hr⟩
  unfold resume at h
  split at h
  · simp only [Prod.mk.injEq] at h
    exact Or.inl (hrefused _ h.1.symm h.2.symm)
  · rename_i r hinspect
    have hunchanged : stores' = stores → answer = .ok r →
        Unsaved stores (.resume agent around run_id signal) stores' (Reply.run <$> answer) := by
      intro hs ha
      subst hs ha
      refine ⟨rfl, Or.inl rfl, ?_⟩
      intro r' hr'
      cases hr'
      exact ⟨_, hinspect⟩
    by_cases hcancel : signal.kind = "cancel"
    · rw [if_pos hcancel] at h
      by_cases hsettled : r.state ∈ settledStates
      · rw [if_pos hsettled] at h
        simp only [Prod.mk.injEq] at h
        exact Or.inl (hunchanged h.1.symm h.2.symm)
      · rw [if_neg hsettled] at h
        exact Or.inr ⟨_, _, _, .cancelled hcancel hinspect hsettled, saveRun_saved h⟩
    · rw [if_neg hcancel] at h
      by_cases hstopped : r.state ∈ stoppedStates
      · rw [if_pos hstopped] at h
        simp only [Prod.mk.injEq] at h
        exact Or.inl (hrefused _ h.1.symm h.2.symm)
      · rw [if_neg hstopped] at h
        by_cases hprepare : signal.kind = "prepare_anchor"
        · rw [if_pos hprepare] at h
          split at h
          · simp only [Prod.mk.injEq] at h
            exact Or.inl (hrefused _ h.1.symm h.2.symm)
          · rename_i memory result hfinalize
            exact Or.inr ⟨_, _, _, .prepared hprepare hinspect hstopped hfinalize,
              saveRun_saved h⟩
        · rw [if_neg hprepare] at h
          by_cases hobserved : signal.kind = "anchor_transaction_observed"
          · rw [if_neg (not_not.mpr hobserved)] at h
            split at h
            · simp only [Prod.mk.injEq] at h
              exact Or.inl (hrefused _ h.1.symm h.2.symm)
            · rename_i tx htx
              by_cases hverified : r.anchor_state = .verified
              · rw [if_pos hverified] at h
                simp only [Prod.mk.injEq] at h
                by_cases hsame : verifiedTransaction r = some (.str tx)
                · rw [if_pos hsame] at h
                  exact Or.inl (hunchanged h.1.symm h.2.symm)
                · rw [if_neg hsame] at h
                  exact Or.inl (hrefused _ h.1.symm h.2.symm)
              · rw [if_neg hverified] at h
                split at h
                · exact Or.inr ⟨_, _, _, .refused hobserved hinspect hstopped hverified,
                    saveRun_saved h⟩
                · simp only [Prod.mk.injEq] at h
                  exact Or.inl (hrefused _ h.1.symm h.2.symm)
                · rename_i memory result hfinalize
                  exact Or.inr ⟨_, _, _,
                    .observed hobserved hinspect hstopped hverified hfinalize, saveRun_saved h⟩
          · rw [if_pos hobserved] at h
            simp only [Prod.mk.injEq] at h
            exact Or.inl (hrefused _ h.1.symm h.2.symm)

/-- Every call saves a run or leaves the ledger as it is. -/
theorem serve_cases (h : serve stores call = (stores', answered)) :
    Unsaved stores call stores' answered ∨ ∃ memory actions r,
      Saves stores call memory actions r ∧
      Saved stores' answered stores.ledger memory actions r := by
  cases call with
  | guard asked =>
    left
    simp only [serve] at h
    cases hasked : serveCall stores.memory asked with
    | error e =>
      rw [hasked] at h
      cases h
      exact ⟨rfl, Or.inl rfl, fun r hr => by cases hr⟩
    | ok left' =>
      rw [hasked] at h
      cases h
      exact ⟨rfl, Or.inr ⟨asked, _, hasked, fun id hid => hid⟩, fun r hr => by cases hr⟩
  | run agent around goal =>
    simp only [serve, Prod.mk.injEq] at h
    obtain ⟨rfl, rfl⟩ := h
    exact run_cases rfl
  | inspect agent run_id =>
    simp only [serve, Prod.mk.injEq] at h
    obtain ⟨rfl, rfl⟩ := h
    exact Or.inl ⟨rfl, Or.inl rfl, fun r hr => ⟨_, run_map_ok hr⟩⟩
  | resume agent around run_id signal =>
    simp only [serve, Prod.mk.injEq] at h
    obtain ⟨rfl, rfl⟩ := h
    exact resume_cases rfl

theorem serve_remembers (h : serve stores call = (stores', answered)) :
    Remembers call stores.memory stores'.memory := by
  rcases serve_cases h with hunsaved | ⟨memory, actions, r, hsaves, hsaved⟩
  · exact hunsaved.remembers
  · rw [hsaved.remembers]
    exact hsaves.remembers

end Cases

end MemoryGuard.Agency
