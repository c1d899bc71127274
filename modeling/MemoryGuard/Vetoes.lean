import MemoryGuard.PlanGates

/-!
What the outcome of the planning model can change. Two runs for one goal that
differ in nothing but that outcome agree on all that the verdict decides, if both
are answered. Whether they are is up to the two outcomes: a model that asks for
its receipt as a tool, or whose receipt does not fit, keeps its run from being
saved.
-/
namespace MemoryGuard.Vetoes

open OrderedDict JsonText Guarded ContentHash CanonicalText IsoText JsonReading Numbers
open Observations PaymentPolicy Observing Decisions AgentRuns AgentRules AgentAuthority
open Finalizing Traces Agency PlanGates
open Pollution (vendorPayment)

section Mandatory

variable [Unicode] [Sha256] (requested : List String) (outages : String → Option Outage)
  {d : DecisionDraft} {t : Turns} {tool name : String} {actions : Dict Digest Json}

/-- A turn leaves what the other tools left. -/
theorem turn_other (h : tool ≠ name) :
    Dict.find name (turn requested outages d t tool).artifacts = Dict.find name t.artifacts := by
  unfold turn
  dsimp only
  split
  · rfl
  · split
    · rfl
    · split
      · exact (Dict.find_put ..).trans (if_neg h)
      · rfl

/-- The turn of a tool that the verdict forbids leaves everything. -/
theorem turn_forbidden (h : tool ∉ (authorization d.verdict).allowed_tools) :
    (turn requested outages d t tool).artifacts = t.artifacts ∧
      (turn requested outages d t tool).actions = t.actions := by
  unfold turn
  dsimp only
  rw [if_pos h]
  exact ⟨rfl, rfl⟩

theorem turn_mandatory (hnone : Dict.find (authorization d.verdict).mandatory_tool t.artifacts =
    none) :
    Dict.find (authorization d.verdict).mandatory_tool
        (turn requested outages d t (authorization d.verdict).mandatory_tool).artifacts =
      (callAction (outages (authorization d.verdict).mandatory_tool) t.actions
        (authorization d.verdict).mandatory_tool d).2.toOption := by
  have hallowed : (authorization d.verdict).mandatory_tool ∈
      (authorization d.verdict).allowed_tools := by
    cases d.verdict <;> simp [authorization]
  unfold turn
  dsimp only
  rw [if_neg (not_not.mpr hallowed), if_neg fun hskipped => hskipped.1 rfl]
  split
  · rename_i actions artifact hcall
    rw [hcall]
    exact (Dict.find_put ..).trans (if_pos rfl)
  · rename_i actions e hcall
    rw [hcall]
    exact hnone

/-- What the mandatory tool leaves does not depend on the tools that are asked for. -/
theorem takeTurns_mandatory :
    Dict.find (authorization d.verdict).mandatory_tool
        (takeTurns requested outages d actions).artifacts =
      (callAction (outages (authorization d.verdict).mandatory_tool) actions
        (authorization d.verdict).mandatory_tool d).2.toOption := by
  have hbrief : briefTool ≠ (authorization d.verdict).mandatory_tool := brief_optional _
  have hdistinct : escalationTool ≠ reviewTool := by decide
  obtain ⟨start, hstart⟩ : ∃ start : Turns, start = ⟨[], actions, [], false⟩ := ⟨_, rfl⟩
  have hturns : takeTurns requested outages d actions =
      turn requested outages d (turn requested outages d (turn requested outages d start
        reviewTool) escalationTool) briefTool := hstart ▸ rfl
  rw [hturns, turn_other requested outages hbrief]
  by_cases hready : d.verdict = .ready
  · have hmandatory : (authorization d.verdict).mandatory_tool = reviewTool := by
      rw [hready]
      rfl
    have hfirst := turn_mandatory requested outages (t := start) (d := d) (hstart ▸ rfl)
    rw [hmandatory] at hfirst ⊢
    rw [turn_other requested outages hdistinct, hfirst, hstart]
  · have hmandatory : (authorization d.verdict).mandatory_tool = escalationTool := by
      cases hverdict : d.verdict <;> simp_all [authorization]
    have hforbidden : reviewTool ∉ (authorization d.verdict).allowed_tools := by
      rw [reviewTool_allowed]
      exact hready
    obtain ⟨hartifacts, hactions⟩ := turn_forbidden requested outages (t := start) hforbidden
    have hsecond := turn_mandatory requested outages
      (t := turn requested outages d start reviewTool) (d := d) (hartifacts ▸ hstart ▸ rfl)
    rw [hmandatory] at hsecond ⊢
    rw [hsecond, hactions, hstart]

end Mandatory

section Outcomes

variable [Unicode] [Interpreter] [Sha256] {agent : MemoryGuardAgent} {around : RunSurroundings}
  {stores : Stores} {goal : PaymentIntent} {d : DecisionDraft}
  {plan : Except GuardError ModelPlan} {t : Turns}

/-- The events of a tool that is noted and not called. -/
def Suppressed (event : ToolEvent) : Prop :=
  event.phase = .suppressed ∧ event.reason_code = "tool_not_registered"

/-- A run that is answered and saved when the planning model comes to `plan`. -/
structure Answers (agent : MemoryGuardAgent) (around : RunSurroundings) (stores : Stores)
    (goal : PaymentIntent) (plan : Except GuardError ModelPlan) (r : AgentRun) : Prop where
  answered : (run agent { around with plan := plan } stores goal).2 = .ok r
  saved : (run agent { around with plan := plan } stores goal).1.ledger = filed stores.ledger r
  authorised : Authorised r
  noted : ∀ tool ∈ (planned plan).requested_tools, tool ∉ registeredTools →
    ∃ event ∈ r.tool_trace, event.tool = tool ∧ Suppressed event
  uncalled : ∀ tool ∈ (planned plan).requested_tools, tool ∉ registeredTools →
    tool ∉ ["memoryguard.decide", "model.plan", receiptTool] →
    ∀ event ∈ r.tool_trace, event.tool = tool → Suppressed event

/-- What the verdict decides of two runs. -/
structure Agree (r r' : AgentRun) : Prop where
  verdict : r'.decision.verdict = r.decision.verdict
  reason_codes : r'.decision.reason_codes = r.decision.reason_codes
  causal_memory_ids : r'.decision.causal_memory_ids = r.decision.causal_memory_ids
  action_fingerprint : r'.action_fingerprint = r.action_fingerprint
  mandatory : Dict.find (authorization r.decision.verdict).mandatory_tool r'.artifacts =
    Dict.find (authorization r.decision.verdict).mandatory_tool r.artifacts
  executable : r.executable = false ∧ r'.executable = false

/-- An acceptable plan is answered with the run that is built on it. -/
theorem answers_of_acceptable [HexDigest] [PlainAscii]
    (habsent : loadRun stores.ledger (runId goal) = .ok none)
    (hdecide : decideIntent agent.guard around.deciding
      (stores.memory.subject (subjectRef goal.subject_id)) goal = .ok d)
    (hsaving : around.saving = none) (haccept : Acceptable agent d plan)
    (ht : t = takeTurns (planned plan).requested_tools around.outages d stores.actions) :
    Answers agent around stores goal plan (newRun agent { around with plan := plan } goal d t) := by
  have hturned : Turned (planned plan).requested_tools d registeredTools t :=
    ht ▸ takeTurns_turned
  have hvalid := (newRun_valid_iff agent { around with plan := plan } (decided_on hdecide)
    hturned).mpr haccept
  have hrun : run agent { around with plan := plan } stores goal = saveRun none
      ⟨saveDecision stores.memory d, t.actions, stores.ledger⟩
      (newRun agent { around with plan := plan } goal d t) := by
    rw [← hsaving]
    exact run_accepted habsent hdecide ht hvalid
  refine ⟨?_, ?_, valid_authorised (validateRun_ok.mp hvalid), ?_, ?_⟩
  · rw [hrun]
    rfl
  · rw [hrun]
    rfl
  · intro tool hrequested hunregistered
    have hnote : (⟨tool, .suppressed, "tool_not_registered",
        object [("decision_id", .str d.decision_id)], none⟩ : Note) ∈
        unknownNotes d (planned plan).requested_tools :=
      List.mem_map.mpr ⟨tool, mem_unknownTools.mpr ⟨hrequested, hunregistered⟩, rfl⟩
    obtain ⟨n, at', hevent⟩ := event_mem_record around.clock []
      (List.mem_append_left t.notes
        (List.mem_append_right (openingNotes { around with plan := plan } goal d) hnote))
    exact ⟨_, hevent, rfl, rfl, rfl⟩
  · intro tool hrequested hunregistered hother
    refine record_all (by simp) ?_
    intro note hnote n at' htool
    have hname : note.tool = tool := htool
    rcases List.mem_append.mp hnote with hnote | hturn
    · rcases List.mem_append.mp hnote with hopening | hunknown
      · exact absurd (hname ▸ opening_notes hopening) hother
      · exact (unknown_note hunknown).2.2
    · exact absurd (hname ▸ (hturned.notes note hturn).1) hunregistered

/-- What is not acceptable is not answered. -/
theorem acceptable_of_answered [HexDigest] [PlainAscii]
    (habsent : loadRun stores.ledger (runId goal) = .ok none)
    (hdecide : decideIntent agent.guard around.deciding
      (stores.memory.subject (subjectRef goal.subject_id)) goal = .ok d) {r : AgentRun}
    (hanswered : (run agent { around with plan := plan } stores goal).2 = .ok r) :
    Acceptable agent d plan := by
  obtain ⟨t, ht⟩ : ∃ t, t = takeTurns (planned plan).requested_tools around.outages d
    stores.actions := ⟨_, rfl⟩
  cases hcheck : validateRun agent.production
      (newRun agent { around with plan := plan } goal d t) with
  | error e =>
    have hrefused : run agent { around with plan := plan } stores goal = _ :=
      run_refused habsent hdecide ht hcheck
    rw [hrefused] at hanswered
    cases hanswered
  | ok u =>
    have hturned : Turned (planned plan).requested_tools d registeredTools t :=
      ht ▸ takeTurns_turned
    exact (newRun_valid_iff agent { around with plan := plan } (decided_on hdecide) hturned).mp
      hcheck

/-- The outcome of the planning model only matters to a goal that is decided for the
first time. There, two outcomes are both answered, and with runs that agree, if and
only if both are acceptable. -/
theorem outcomes_agree_iff [HexDigest] [PlainAscii] (agent : MemoryGuardAgent)
    (around : RunSurroundings) (stores : Stores) (goal : PaymentIntent)
    (p q : Except GuardError ModelPlan) (hsaving : around.saving = none) :
    ((∀ d, loadRun stores.ledger (runId goal) = .ok none → decideIntent agent.guard around.deciding
        (stores.memory.subject (subjectRef goal.subject_id)) goal ≠ .ok d) →
      run agent { around with plan := p } stores goal =
        run agent { around with plan := q } stores goal) ∧
    ∀ d, loadRun stores.ledger (runId goal) = .ok none → decideIntent agent.guard around.deciding
        (stores.memory.subject (subjectRef goal.subject_id)) goal = .ok d →
      ((∃ r r', Answers agent around stores goal p r ∧ Answers agent around stores goal q r' ∧
        Agree r r') ↔ Acceptable agent d p ∧ Acceptable agent d q) := by
  constructor
  · intro hundecided
    unfold run
    cases hload : loadRun stores.ledger (runId goal) with
    | error e => rfl
    | ok existing =>
      cases existing with
      | some r => rfl
      | none =>
        cases hdecide : decideIntent agent.guard around.deciding
            (stores.memory.subject (subjectRef goal.subject_id)) goal with
        | error e => rfl
        | ok d => exact absurd hdecide (hundecided d hload)
  · intro d habsent hdecide
    constructor
    · intro h
      obtain ⟨r, r', hp, hq, _⟩ := h
      exact ⟨acceptable_of_answered habsent hdecide hp.answered,
        acceptable_of_answered habsent hdecide hq.answered⟩
    · intro h
      obtain ⟨hp, hq⟩ := h
      refine ⟨_, _, answers_of_acceptable habsent hdecide hsaving hp rfl,
        answers_of_acceptable habsent hdecide hsaving hq rfl, rfl, rfl, rfl, rfl, ?_, rfl, rfl⟩
      exact (takeTurns_mandatory ..).trans (takeTurns_mandatory ..).symm

end Outcomes

section Specimen

/-- An agent in production. -/
def remoteAgent : MemoryGuardAgent :=
  ⟨paymentGuard, disabledAnchor, "remote_structured_model", "runtime", true, fun _ => rfl⟩

/-- A model that gives no answer in time. -/
def silent : Except GuardError ModelPlan := .error (.raised "ReadTimeout")

/-- A model that asks for its own receipt as a tool. -/
def meddling : Except GuardError ModelPlan :=
  .ok ⟨"Review the payment.", [], [receiptTool], none⟩

variable [Unicode] [Sha256] {d : DecisionDraft}

/-- The receipt that the remote adapter attaches to a plan. The provider names the
generation, or leaves it out. -/
def receiptOf (d : DecisionDraft) (generation_id : Json) : Fields :=
  [("schema_version", .str "1.0"), ("backend", .str "remote_structured_model"),
    ("configured_model", .str "planner"), ("resolved_model", .str "planner"),
    ("generation_id", generation_id), ("completion_sha256", .str (Sha256.hexdigest [123, 125])),
    ("model_context_hash", .str (expectedContext d)), ("live_call_verified", .bool true),
    ("structured_output_validated", .bool true), ("service_tier", .str "configured_remote"),
    ("production_reliability_claimed", .bool false),
    ("completed_at", .str "2026-09-01T12:00:00+00:00")]

/-- A model that asks for a payment and for the evidence brief. -/
def eager (d : DecisionDraft) (generation_id : Json) : Except GuardError ModelPlan :=
  .ok ⟨"Pay the vendor.", ["Approve the payment."], ["payment_execution", briefTool],
    some (receiptOf d generation_id)⟩

theorem eager_acceptable [HexDigest] : Acceptable remoteAgent d (eager d (.str "gen-1")) := by
  have := HexDigest.nonempty
  have hunasked : receiptTool ∉ ["payment_execution", briefTool] := by decide
  have hcompletion : Sha256.hexdigest [123, 125] ≠ "" := NonemptyDigest.nonempty _ (by simp)
  have hcontext : expectedContext d ≠ "" := domainHash_ne_empty _ _
  refine ⟨hunasked, ?_, ⟨HexDigest.length _, HexDigest.digits _⟩, rfl, rfl, rfl, rfl, rfl⟩
  intro k hk
  simp only [requiredStrings, List.mem_cons, List.not_mem_nil, or_false] at hk
  rcases hk with rfl | rfl | rfl | rfl | rfl | rfl | rfl
  all_goals simp [textIn, receiptOf, Dict.find, hcompletion, hcontext]

theorem meddling_unacceptable : ¬ Acceptable localAgent d meddling :=
  fun h => h.1 List.mem_cons_self

theorem unnamed_unacceptable : ¬ Acceptable remoteAgent d (eager d .null) := by
  intro h
  have hcomplete := h.2.complete "generation_id" (by decide)
  exact hcomplete rfl

variable [Interpreter] {deciding : DecisionSurroundings} {agent : MemoryGuardAgent}
  {plan : Except GuardError ModelPlan}

/-- The payment comes to the agent for the first time and is left to its reviewers. -/
structure Asked (agent : MemoryGuardAgent) (deciding : DecisionSurroundings)
    (d : DecisionDraft) : Prop where
  absent : loadRun Stores.blank.ledger (runId vendorPayment) = .ok none
  decided : decideIntent agent.guard (calm deciding).deciding
    (Stores.blank.memory.subject (subjectRef vendorPayment.subject_id)) vendorPayment = .ok d
  saving : (calm deciding).saving = none

theorem asked_of_undecided (h : Undecided deciding d) :
    Asked remoteAgent deciding d ∧ Asked localAgent deciding d :=
  ⟨⟨rfl, h.decided, rfl⟩, ⟨rfl, h.decided, rfl⟩⟩

theorem Asked.silent_answered [HexDigest] [PlainAscii] (h : Asked agent deciding d) :
    ∃ r, Answers agent (calm deciding) .blank vendorPayment silent r :=
  ⟨_, answers_of_acceptable h.absent h.decided h.saving trivial rfl⟩

theorem Asked.unanswered [HexDigest] [PlainAscii] (h : Asked agent deciding d)
    (hrefused : ¬ Acceptable agent d plan) (r : AgentRun) :
    (run agent { calm deciding with plan := plan } .blank vendorPayment).2 ≠ .ok r :=
  fun hr => hrefused (acceptable_of_answered h.absent h.decided hr)

omit [Unicode] [Sha256] [Interpreter] in
/-- A production run is answered where the model is silent, and not where the
provider leaves the generation out. A local one is not answered where the model
asks for its receipt. -/
theorem model_keeps_run_from_being_saved :
    letI := asciiTables
    letI := SecureHash.secureHash
    letI := strictInterpreter
    ∃ (deciding : DecisionSurroundings) (d : DecisionDraft) (r r' : AgentRun),
      Answers remoteAgent (calm deciding) .blank vendorPayment silent r ∧
      (∀ w, (run remoteAgent { calm deciding with plan := eager d .null } .blank
        vendorPayment).2 ≠ .ok w) ∧
      Answers localAgent (calm deciding) .blank vendorPayment silent r' ∧
      ∀ w, (run localAgent { calm deciding with plan := meddling } .blank
        vendorPayment).2 ≠ .ok w := by
  let _ := asciiTables
  let _ := SecureHash.secureHash
  let _ := strictInterpreter
  have := SecureHash.secureHash_hex
  have := asciiTables_plain
  obtain ⟨deciding, d, h⟩ := exists_undecided
  obtain ⟨hremote, hlocal⟩ := asked_of_undecided h
  obtain ⟨r, hr⟩ := hremote.silent_answered
  obtain ⟨r', hr'⟩ := hlocal.silent_answered
  exact ⟨deciding, d, r, r', hr, hremote.unanswered unnamed_unacceptable, hr',
    hlocal.unanswered meddling_unacceptable⟩

omit [Unicode] [Sha256] [Interpreter] in
/-- A silent model and one that asks for the payment make no difference. -/
theorem eager_model_agrees :
    letI := asciiTables
    letI := SecureHash.secureHash
    letI := strictInterpreter
    ∃ (deciding : DecisionSurroundings) (d : DecisionDraft) (r r' : AgentRun),
      Answers remoteAgent (calm deciding) .blank vendorPayment silent r ∧
      Answers remoteAgent (calm deciding) .blank vendorPayment (eager d (.str "gen-1")) r' ∧
      Agree r r' := by
  let _ := asciiTables
  let _ := SecureHash.secureHash
  let _ := strictInterpreter
  have := SecureHash.secureHash_hex
  have := asciiTables_plain
  obtain ⟨deciding, d, h⟩ := exists_undecided
  obtain ⟨hremote, _⟩ := asked_of_undecided h
  obtain ⟨_, hagree⟩ := outcomes_agree_iff remoteAgent (calm deciding) .blank vendorPayment silent
    (eager d (.str "gen-1")) hremote.saving
  obtain ⟨r, r', hboth⟩ := (hagree d hremote.absent hremote.decided).mpr
    ⟨trivial, eager_acceptable⟩
  exact ⟨deciding, d, r, r', hboth⟩

end Specimen

end MemoryGuard.Vetoes
