import MemoryGuard.Agency

/-!
What the agent's own validation makes of the runs that the agent builds. No
outage of a safety action and no failure of the planning model keeps a run from
being saved. Only a plan can: one that asks for the receipt as a tool, or whose
receipt is missing in production or does not fit what the model was given.
-/
namespace MemoryGuard.PlanGates

open OrderedDict JsonText Guarded ContentHash CanonicalText IsoText JsonReading Numbers
open Observations PaymentPolicy Observing Decisions AgentRuns AgentRules AgentAuthority
open Finalizing Traces Agency
open Pollution (vendorPayment)

section Plans

variable [Unicode] [Sha256]

/-- The hash of what the planning model is given on a decision. -/
def expectedContext (d : DecisionDraft) : Digest :=
  contextHash (modelContext d (authorization d.verdict).base_state)
    (authorization d.verdict).allowed_tools

/-- A receipt of the planning model that fits a decision. -/
structure ReceiptFits (model_kind : String) (d : DecisionDraft) (receipt : Fields) : Prop where
  complete : ∀ k ∈ requiredStrings, textIn receipt k ≠ ""
  digest : IsDigest (textIn receipt "completion_sha256")
  backend : textIn receipt "backend" = model_kind
  live : Dict.find "live_call_verified" receipt = some (.bool true)
  structured : Dict.find "structured_output_validated" receipt = some (.bool true)
  unclaimed : Dict.find "production_reliability_claimed" receipt = some (.bool false)
  context : textIn receipt "model_context_hash" = expectedContext d

/-- A plan that does not keep its run from being saved. -/
def Acceptable (agent : MemoryGuardAgent) (d : DecisionDraft) : Except GuardError ModelPlan → Prop
  | .error _ => True
  | .ok p => receiptTool ∉ p.requested_tools ∧
    match p.model_receipt with
    | none => agent.production = false
    | some receipt => ReceiptFits agent.model_kind d receipt

end Plans

section Identity

variable [Unicode] [Sha256]

omit [Sha256] in
/-- Addresses are ASCII, so that they are lowered once. -/
theorem lower_address [PlainAscii] {s : String} (h : isEvmAddress s) :
    Unicode.lower (Unicode.lower s) = Unicode.lower s := by
  have hdigits : "0123456789abcdefABCDEF".toList.all (fun c => c.toNat < 128) = true := by
    decide +kernel
  have hascii : Ascii s := by
    unfold isEvmAddress at h
    split at h
    · rename_i l hl
      intro c hc
      rw [hl] at hc
      have hall := (of_decide_eq_true h).2
      rcases List.mem_cons.mp hc with rfl | hc
      · decide
      · rcases List.mem_cons.mp hc with rfl | hc
        · decide
        · have hdigit := of_decide_eq_true (List.all_eq_true.mp hall c hc)
          exact of_decide_eq_true (List.all_eq_true.mp hdigits c hdigit)
    · cases h
  have hlowered : Ascii (asciiLower s) := by
    intro c hc
    rw [asciiLower, String.toList_ofList] at hc
    obtain ⟨c', hc', rfl⟩ := List.mem_map.mp hc
    exact (toLower_ascii (hascii c' hc')).2
  rw [PlainAscii.lower_ascii s hascii, PlainAscii.lower_ascii _ hlowered]
  unfold asciiLower
  rw [String.toList_ofList, List.map_map]
  congr 1
  apply List.map_congr_left
  exact fun c hc => (toLower_ascii (hascii c hc)).1

variable [Interpreter] {guard : Guard} {around : DecisionSurroundings} {store : Option Json}
  {goal : PaymentIntent} {d : DecisionDraft}

/-- A decision is on the goal that it was made for. -/
structure DecidesOn (goal : PaymentIntent) (d : DecisionDraft) : Prop where
  valid : validateDecision d = .ok ()
  run_id : runId goal = storedRunId d
  request : requestHash goal = storedRequestHash d
  action : actionFingerprint goal = storedActionFingerprint d

theorem decided_on [PlainAscii] (h : decideIntent guard around store goal = .ok d) :
    DecidesOn goal d := by
  have hvalid := decided_valid h
  obtain ⟨hcheck, subject, result, expires_at, _, _, _, _, rfl⟩ := decideIntent_eq_ok.mp h
  have haddress : isEvmAddress goal.target = true := by
    simp only [checkIntent, bind_eq_ok, ensure_eq_ok] at hcheck
    obtain ⟨_, _, _, _, _, _, _, _, _, _, _, _, _, htarget, _⟩ := hcheck
    exact htarget
  have hlower := lower_address haddress
  refine ⟨hvalid, rfl, ?_, ?_⟩
  · unfold requestHash storedRequestHash requestPayload
    simp only [draftOf, safeIntent, hlower]
  · unfold actionFingerprint storedActionFingerprint actionPayload
    simp only [draftOf, safeIntent, hlower]

end Identity

section Turning

variable [Unicode] [Sha256] {requested : List String} {outages : String → Option Outage}
  {d : DecisionDraft} {t : Turns} {tool : String} {actions actions' : Dict Digest Json}
  {outage : Option Outage} {artifact : Json}

/-- What a registered tool leaves. -/
def artifactOf (tool : String) (d : DecisionDraft) : Json :=
  if tool = reviewTool then reviewReceipt d
  else if tool = escalationTool then escalationReceipt d
  else briefReceipt d

theorem saveAction_ok {action_id : String} {receipt : Json}
    (h : saveAction outage actions action_id receipt = (actions', .ok artifact)) :
    artifact = receipt := by
  unfold saveAction at h
  split at h
  · simp at h
  · rename_i existing _
    by_cases hsame : existing = receipt
    · rw [if_neg (not_not.mpr hsame)] at h
      cases h
      exact hsame
    · rw [if_pos hsame] at h
      simp at h
  · simp at h
  · cases h
    rfl

theorem callAction_ok (h : callAction outage actions tool d = (actions', .ok artifact)) :
    artifact = artifactOf tool d := by
  unfold callAction at h
  unfold artifactOf
  by_cases hreview : tool = reviewTool
  · rw [if_pos hreview] at h ⊢
    exact saveAction_ok h
  · rw [if_neg hreview] at h ⊢
    by_cases hescalation : tool = escalationTool
    · rw [if_pos hescalation] at h ⊢
      exact saveAction_ok h
    · rw [if_neg hescalation] at h ⊢
      by_cases hbrief : tool = briefTool
      · rw [if_pos hbrief] at h
        exact saveAction_ok h
      · rw [if_neg hbrief] at h
        simp at h

/-- A tool that the loop calls. -/
def Taken (requested : List String) (d : DecisionDraft) (tool : String) : Prop :=
  tool ∈ (authorization d.verdict).allowed_tools ∧
    (tool = (authorization d.verdict).mandatory_tool ∨ tool ∈ requested)

/-- Where the loop stands after the tools in `done`. -/
structure Turned (requested : List String) (d : DecisionDraft) (done : List String) (t : Turns) :
    Prop where
  keys : (t.artifacts.map Prod.fst).Nodup
  notes : ∀ note ∈ t.notes, note.tool ∈ done ∧
    (note.phase ∈ [.called, .succeeded] → Taken requested d note.tool)
  artifacts : ∀ name v, (name, v) ∈ t.artifacts → name ∈ done ∧ Taken requested d name ∧
    v = artifactOf name d ∧ ∃ note ∈ t.notes, note.tool = name ∧ note.phase = .succeeded ∧
      note.output = some v
  mandatory : t.action_failed = false → (authorization d.verdict).mandatory_tool ∈ done →
    (authorization d.verdict).mandatory_tool ∈ t.artifacts.map Prod.fst

theorem Turned.mono {done : List String} {notes : List Note} (h : Turned requested d done t)
    (hnotes : ∀ note ∈ notes, note.tool = tool ∧
      (note.phase ∈ [.called, .succeeded] → Taken requested d tool))
    (actions : Dict Digest Json) (failed : Bool)
    (hfailed : failed = false → t.action_failed = false)
    (hmandatory : failed = false → tool ≠ (authorization d.verdict).mandatory_tool) :
    Turned requested d (done ++ [tool]) ⟨t.notes ++ notes, actions, t.artifacts, failed⟩ := by
  refine ⟨h.keys, ?_, ?_, ?_⟩
  · intro note hnote
    rcases List.mem_append.mp hnote with hold | hnew
    · obtain ⟨hdone, htaken⟩ := h.notes note hold
      exact ⟨List.mem_append_left _ hdone, htaken⟩
    · obtain ⟨rfl, htaken⟩ := hnotes note hnew
      exact ⟨List.mem_append_right _ (List.mem_singleton.mpr rfl), htaken⟩
  · intro name v hmem
    obtain ⟨hdone, htaken, hv, note, hnote, hput⟩ := h.artifacts name v hmem
    exact ⟨List.mem_append_left _ hdone, htaken, hv, note, List.mem_append_left _ hnote, hput⟩
  · intro hok hdone
    rcases List.mem_append.mp hdone with hold | hnew
    · exact h.mandatory (hfailed hok) hold
    · exact absurd (List.mem_singleton.mp hnew).symm (hmandatory hok)

theorem Turned.next {done : List String} (h : Turned requested d done t) (hnew : tool ∉ done) :
    Turned requested d (done ++ [tool]) (turn requested outages d t tool) := by
  unfold turn
  by_cases hallowed : tool ∈ (authorization d.verdict).allowed_tools
  · rw [if_neg (not_not.mpr hallowed)]
    by_cases hskipped : tool ≠ (authorization d.verdict).mandatory_tool ∧ tool ∉ requested
    · rw [if_pos hskipped]
      apply h.mono _ _ _ id (fun _ => hskipped.1)
      intro note hnote
      simp only [List.mem_cons, List.not_mem_nil, or_false] at hnote
      rcases hnote with rfl | rfl
      · exact ⟨rfl, fun hphase => by simp at hphase⟩
      · exact ⟨rfl, fun hphase => by simp at hphase⟩
    · rw [if_neg hskipped]
      have htaken : Taken requested d tool := by
        refine ⟨hallowed, ?_⟩
        by_contra hneither
        exact hskipped ⟨fun h => hneither (Or.inl h), fun h => hneither (Or.inr h)⟩
      dsimp only
      split
      · rename_i actions artifact hcall
        have hartifact := callAction_ok hcall
        have hput : (tool, artifact) ∈ Dict.put tool artifact t.artifacts := by
          have hfind : Dict.find tool (Dict.put tool artifact t.artifacts) = some artifact := by
            rw [Dict.find_put, if_pos rfl]
          exact Dict.mem_of_find hfind
        have hfresh : tool ∉ t.artifacts.map Prod.fst := by
          intro hmem
          obtain ⟨⟨name, v⟩, hentry, rfl⟩ := List.mem_map.mp hmem
          exact hnew (h.artifacts name v hentry).1
        refine ⟨Dict.nodup_put _ _ _ h.keys, ?_, ?_, ?_⟩
        · intro note hnote
          rcases List.mem_append.mp hnote with hold | hnote
          · obtain ⟨hdone, hphase⟩ := h.notes note hold
            exact ⟨List.mem_append_left _ hdone, hphase⟩
          · have htool : note.tool = tool := by
              simp only [List.mem_cons, List.not_mem_nil, or_false] at hnote
              rcases hnote with rfl | rfl | rfl <;> rfl
            rw [htool]
            exact ⟨List.mem_append_right _ (List.mem_singleton.mpr rfl), fun _ => htaken⟩
        · intro name v hmem
          rw [Dict.put_of_fresh _ _ _ hfresh] at hmem
          rcases List.mem_append.mp hmem with hold | hmem
          · obtain ⟨hdone, hthis, hv, note, hnote, hput⟩ := h.artifacts name v hold
            exact ⟨List.mem_append_left _ hdone, hthis, hv, note, List.mem_append_left _ hnote,
              hput⟩
          · cases List.mem_singleton.mp hmem
            exact ⟨List.mem_append_right _ (List.mem_singleton.mpr rfl), htaken, hartifact, _,
              List.mem_append_right _ (List.mem_cons_of_mem _ (List.mem_cons_of_mem _
                List.mem_cons_self)), rfl, rfl, rfl⟩
        · intro hok hdone
          rcases List.mem_append.mp hdone with hold | hthis
          · have hmem := h.mandatory hok hold
            exact (Dict.mem_keys_put tool artifact _ t.artifacts).mpr (Or.inr hmem)
          · rw [List.mem_singleton.mp hthis]
            exact List.mem_map_of_mem hput
      · rename_i actions e hcall
        apply h.mono _ _ _ (fun hfalse => by cases hfalse) (fun hfalse => by cases hfalse)
        intro note hnote
        refine ⟨?_, fun _ => htaken⟩
        simp only [List.mem_cons, List.not_mem_nil, or_false] at hnote
        rcases hnote with rfl | rfl | rfl <;> rfl
  · rw [if_pos hallowed]
    have hother : tool ≠ (authorization d.verdict).mandatory_tool := by
      rintro rfl
      apply hallowed
      cases d.verdict <;> simp [authorization]
    apply h.mono _ _ _ id (fun _ => hother)
    intro note hnote
    simp only [List.mem_cons, List.not_mem_nil, or_false] at hnote
    rcases hnote with rfl | rfl
    · exact ⟨rfl, fun hphase => by simp at hphase⟩
    · exact ⟨rfl, fun hphase => by simp at hphase⟩

theorem Turned.rest {done tools : List String} (h : Turned requested d done t)
    (hnodup : (done ++ tools).Nodup) :
    Turned requested d (done ++ tools) (tools.foldl (turn requested outages d) t) := by
  induction tools generalizing done t with
  | nil =>
    rw [List.append_nil]
    exact h
  | cons tool rest ih =>
    have hnew : tool ∉ done := by
      intro hmem
      exact List.disjoint_of_nodup_append hnodup hmem List.mem_cons_self
    have hsplit : done ++ tool :: rest = (done ++ [tool]) ++ rest := by simp
    rw [hsplit] at hnodup ⊢
    exact ih (h.next hnew) hnodup

/-- What the loop over the registered tools comes to. -/
theorem takeTurns_turned :
    Turned requested d registeredTools (takeTurns requested outages d actions) := by
  have hstart : Turned requested d [] ⟨[], actions, [], false⟩ :=
    ⟨List.nodup_nil, fun note hnote => by simp at hnote, fun name v hmem => by simp at hmem,
      fun _ hdone => by simp at hdone⟩
  have hnodup : ([] ++ registeredTools).Nodup := by decide
  exact hstart.rest hnodup

end Turning

section Tracing

variable [Unicode] [Interpreter] [Sha256] {agent : MemoryGuardAgent} {around : RunSurroundings}
  {goal : PaymentIntent} {d : DecisionDraft} {t : Turns} {requested : List String}
  {clock : ℕ → DateTime}

omit [Interpreter] in
theorem record_all {P : ToolEvent → Prop} {clock : ℕ → DateTime} {trace : List ToolEvent}
    {notes : List Note} (htrace : ∀ e ∈ trace, P e)
    (hnotes : ∀ note ∈ notes, ∀ n at', P (note.event n (DateTime.inUtc at'))) :
    ∀ e ∈ record clock trace notes, P e := by
  intro e he
  rcases mem_record he with hold | ⟨note, hnote, n, at', rfl⟩
  · exact htrace e hold
  · exact hnotes note hnote n at'

omit [Interpreter] in
theorem event_digest [HexDigest] (note : Note) (n : ℤ) (at' : DateTime) :
    IsDigest (note.event n at').input_hash ∧
      ∀ hash ∈ (note.event n at').output_hash, IsDigest hash := by
  have hdigest : ∀ domain v, IsDigest (domainHash domain v) :=
    fun domain v => ⟨HexDigest.length _, HexDigest.digits _⟩
  refine ⟨hdigest _ _, ?_⟩
  intro hash hhash
  cases ho : note.output with
  | none => simp [Note.event, ho] at hhash
  | some v =>
    simp only [Note.event, ho, Option.map_some, Option.mem_def, Option.some.injEq] at hhash
    subst hhash
    exact hdigest _ _

omit [Interpreter] in
theorem record_append (trace : List ToolEvent) (notes later : List Note) :
    record clock trace (notes ++ later) = record clock (record clock trace notes) later :=
  List.foldl_append

omit [Interpreter] in
theorem record_length (trace : List ToolEvent) (notes : List Note) :
    (record clock trace notes).length = trace.length + notes.length := by
  induction notes generalizing trace with
  | nil => rfl
  | cons note rest ih =>
    change (record clock (add clock trace note) rest).length = _
    rw [ih, add, List.length_append, List.length_singleton, List.length_cons]
    omega

omit [Interpreter] in
theorem record_pair (trace : List ToolEvent) (first second : Note) :
    record clock trace [first, second] =
      trace ++ [first.event (trace.length + 1) (clock trace.length).inUtc,
        second.event (trace.length + 2) (clock (trace.length + 1)).inUtc] := by
  simp [record, add, add_assoc]

omit [Unicode] [Interpreter] [Sha256] in
theorem mem_unknownTools {tool : String} :
    tool ∈ unknownTools requested ↔ tool ∈ requested ∧ tool ∉ registeredTools := by
  unfold unknownTools sortedSet
  rw [mem_sorted, List.mem_dedup, List.mem_filter, decide_eq_true_eq]

omit [Unicode] [Interpreter] [Sha256] in
/-- A tool that is not registered is noted and never called. -/
theorem unknown_note {note : Note} (h : note ∈ unknownNotes d requested) :
    note.tool ∈ requested ∧ note.tool ∉ registeredTools ∧ note.phase = .suppressed ∧
      note.reason = "tool_not_registered" := by
  obtain ⟨tool, htool, rfl⟩ := List.mem_map.mp h
  obtain ⟨hrequested, hunregistered⟩ := mem_unknownTools.mp htool
  exact ⟨hrequested, hunregistered, rfl, rfl⟩

/-- The notes of a run up to its plan. -/
def openingNotes (around : RunSurroundings) (goal : PaymentIntent) (d : DecisionDraft) :
    List Note :=
  decisionNotes d (actionFingerprint goal) ++
    planNotes (runId goal) (modelContext d (authorization d.verdict).base_state) around.plan

/-- What is looked for in a trace and is not among its later notes is in the opening. -/
theorem newRun_filter {p : ToolEvent → Bool}
    (hunknown : ∀ note ∈ unknownNotes d (planned around.plan).requested_tools,
      ∀ n at', p (note.event n at') = false)
    (hturned : ∀ note ∈ t.notes, ∀ n at', p (note.event n at') = false) :
    (newRun agent around goal d t).tool_trace.filter p =
      (record around.clock [] (openingNotes around goal d)).filter p := by
  change (record around.clock [] (openingNotes around goal d ++
    unknownNotes d (planned around.plan).requested_tools ++ t.notes)).filter p = _
  rw [record_append, record_filter hturned, record_append, record_filter hunknown]

variable {receipt : Fields} {p : ModelPlan}

/-- Without a receipt there is no event of one in the opening. -/
theorem opening_receipts_none (hplan : (planned around.plan).model_receipt = none) :
    receiptEvents (record around.clock [] (openingNotes around goal d)) = [] := by
  unfold receiptEvents
  rw [record_filter, List.filter_nil]
  have hother : ∀ tool ∈ ["memoryguard.decide", "model.plan"], tool ≠ receiptTool := by decide
  intro note hnote n at'
  refine decide_eq_false (hother note.tool ?_)
  unfold openingNotes decisionNotes planNotes at hnote
  cases hanswer : around.plan with
  | error e =>
    simp only [hanswer, List.mem_append, List.mem_cons, List.not_mem_nil, or_false] at hnote
    rcases hnote with (rfl | rfl | rfl) | rfl | rfl | rfl <;> simp
  | ok p =>
    rw [hanswer] at hplan
    have hnone : p.model_receipt = none := hplan
    simp only [hanswer, hnone, List.append_nil, List.mem_append, List.mem_cons, List.not_mem_nil,
      or_false] at hnote
    rcases hnote with (rfl | rfl | rfl) | rfl | rfl | rfl <;> simp

/-- With a receipt its event is the seventh, right after that of the plan. -/
theorem opening_receipts_some (goal : PaymentIntent) (d : DecisionDraft)
    (hplan : around.plan = .ok p) (hreceipt : p.model_receipt = some receipt) : ∃ planEvent at',
      receiptEvents (record around.clock [] (openingNotes around goal d)) =
        [Note.event ⟨receiptTool, .succeeded, "non_secret_provider_receipt",
          receiptInput (runId goal) (receiptContext receipt), some (.obj receipt)⟩ 7 at'] ∧
      planEvents (record around.clock [] (openingNotes around goal d)) = [planEvent] ∧
      planEvent.sequence = 6 := by
  let context := modelContext d (authorization d.verdict).base_state
  let early : List Note := decisionNotes d (actionFingerprint goal) ++
    [⟨"model.plan", .considered, "bounded_planning", context, none⟩,
      ⟨"model.plan", .called, "bounded_planning", context, none⟩]
  let planNote : Note := ⟨"model.plan", .succeeded, "structured_plan_received", context,
    some (object [("requested_tools", texts p.requested_tools),
      ("explanation_hash", .str (domainHash "model-explanation" (.str p.explanation)))])⟩
  let receiptNote : Note := ⟨receiptTool, .succeeded, "non_secret_provider_receipt",
    receiptInput (runId goal) (receiptContext receipt), some (.obj receipt)⟩
  have hopening : openingNotes around goal d = early ++ [planNote, receiptNote] := by
    unfold openingNotes planNotes
    rw [hplan]
    dsimp only
    rw [hreceipt]
    rfl
  have hearly : ∀ note ∈ early, note.tool ≠ receiptTool ∧
      ¬ (note.tool = "model.plan" ∧ note.phase = .succeeded) := by
    intro note hnote
    simp only [early, decisionNotes, List.cons_append, List.nil_append, List.mem_cons,
      List.not_mem_nil, or_false] at hnote
    rcases hnote with rfl | rfl | rfl | rfl | rfl <;> simp [receiptTool]
  have hlength : (record around.clock [] early).length = 5 := record_length _ _
  rw [hopening, record_append, record_pair, hlength]
  have hother : "model.plan" ≠ receiptTool := by decide
  refine ⟨planNote.event 6 (around.clock 5).inUtc, (around.clock 6).inUtc, ?_, ?_, rfl⟩
  · unfold receiptEvents
    rw [List.filter_append, record_filter]
    · simp [planNote, receiptNote, Note.event, hother]
    · exact fun note hnote n at' => decide_eq_false (hearly note hnote).1
  · unfold planEvents
    rw [List.filter_append, record_filter]
    · simp [planNote, receiptNote, Note.event, hother.symm]
    · exact fun note hnote n at' => decide_eq_false (hearly note hnote).2

end Tracing

section Planning

variable [Unicode] [Interpreter] [Sha256] {agent : MemoryGuardAgent} {around : RunSurroundings}
  {goal : PaymentIntent} {d : DecisionDraft} {t : Turns}

theorem planEvents_newRun
    (hturned : Turned (planned around.plan).requested_tools d registeredTools t) :
    planEvents (newRun agent around goal d t).tool_trace =
      planEvents (record around.clock [] (openingNotes around goal d)) := by
  unfold planEvents
  apply newRun_filter
  · intro note hnote n at'
    obtain ⟨_, _, hphase, _⟩ := unknown_note hnote
    apply decide_eq_false
    intro hplan
    have hsucceeded : note.phase = .succeeded := hplan.2
    rw [hphase] at hsucceeded
    cases hsucceeded
  · intro note hnote n at'
    apply decide_eq_false
    intro hplan
    have htool : "model.plan" ∈ registeredTools := hplan.1 ▸ (hturned.notes note hnote).1
    exact absurd htool (by decide)

theorem receiptEvents_newRun (agent : MemoryGuardAgent) (goal : PaymentIntent)
    (hturned : Turned (planned around.plan).requested_tools d registeredTools t)
    (hunasked : receiptTool ∉ (planned around.plan).requested_tools) :
    receiptEvents (newRun agent around goal d t).tool_trace =
      receiptEvents (record around.clock [] (openingNotes around goal d)) := by
  unfold receiptEvents
  apply newRun_filter
  · intro note hnote n at'
    apply decide_eq_false
    intro hreceipt
    have htool : note.tool = receiptTool := hreceipt
    exact hunasked (htool ▸ (unknown_note hnote).1)
  · intro note hnote n at'
    apply decide_eq_false
    intro hreceipt
    have htool : note.tool = receiptTool := hreceipt
    have hregistered := (hturned.notes note hnote).1
    rw [htool] at hregistered
    exact absurd hregistered (by decide)

/-- A plan that asks for the receipt as a tool leaves an event in its name. -/
theorem asked_receipt_event (agent : MemoryGuardAgent) (goal : PaymentIntent) (d : DecisionDraft)
    (t : Turns) (hasked : receiptTool ∈ (planned around.plan).requested_tools) :
    ∃ event ∈ receiptEvents (newRun agent around goal d t).tool_trace,
      event.phase = .suppressed := by
  have hunregistered : receiptTool ∉ registeredTools := by decide
  let note : Note := ⟨receiptTool, .suppressed, "tool_not_registered",
    object [("decision_id", .str d.decision_id)], none⟩
  have hnote : note ∈ unknownNotes d (planned around.plan).requested_tools :=
    List.mem_map.mpr ⟨receiptTool, mem_unknownTools.mpr ⟨hasked, hunregistered⟩, rfl⟩
  obtain ⟨n, at', hevent⟩ := event_mem_record around.clock []
    (List.mem_append_left t.notes (List.mem_append_right (openingNotes around goal d) hnote))
  exact ⟨_, List.mem_filter.mpr ⟨hevent, decide_eq_true rfl⟩, rfl⟩

omit [Interpreter] in
theorem checkReceipt_ok {r : AgentRun} {receipt : Fields} : checkReceipt r receipt = .ok () ↔
    ReceiptFits r.model_kind r.decision receipt ∧
      ReceiptBound r receipt (expectedContext r.decision) := by
  simp only [checkReceipt, bind_eq_ok, ensure_eq_ok]
  constructor
  · intro h
    obtain ⟨_, hcomplete, _, hdigest, _, ⟨hbackend, hlive, hstructured, hunclaimed⟩, _, hcontext,
      hbound⟩ := h
    exact ⟨⟨hcomplete, hdigest, hbackend, hlive, hstructured, hunclaimed, hcontext⟩, hbound⟩
  · intro h
    obtain ⟨hfits, hbound⟩ := h
    exact ⟨(), hfits.complete, (), hfits.digest, (),
      ⟨hfits.backend, hfits.live, hfits.structured, hfits.unclaimed⟩, (), hfits.context, hbound⟩

omit [Unicode] [Interpreter] [Sha256] in
theorem find_of_textIn {fields : Fields} {k s : String} (h : textIn fields k = s) (hs : s ≠ "") :
    Dict.find k fields = some (.str s) := by
  unfold textIn at h
  split at h
  · rename_i s' hfind
    rw [hfind, h]
  · exact absurd h.symm hs

/-- A receipt that fits is bound to the trace unless it was asked for as a tool. -/
theorem receipt_bound_iff [HexDigest] (agent : MemoryGuardAgent) (goal : PaymentIntent)
    {p : ModelPlan} {receipt : Fields}
    (hturned : Turned (planned around.plan).requested_tools d registeredTools t)
    (hplan : around.plan = .ok p) (hreceipt : p.model_receipt = some receipt)
    (hcontext : textIn receipt "model_context_hash" = expectedContext d) :
    ReceiptBound (newRun agent around goal d t) receipt (expectedContext d) ↔
      receiptTool ∉ p.requested_tools := by
  have := HexDigest.nonempty
  have hplanned : (planned around.plan).requested_tools = p.requested_tools := by
    rw [hplan]
    rfl
  obtain ⟨planEvent, at', hreceipts, hplans, hsixth⟩ :=
    opening_receipts_some goal d hplan hreceipt
  unfold ReceiptBound
  rw [planEvents_newRun hturned, hplans]
  by_cases hasked : receiptTool ∈ p.requested_tools
  · refine iff_of_false ?_ (not_not.mpr hasked)
    obtain ⟨event, hevent, hsuppressed⟩ := asked_receipt_event agent goal d t (hplanned ▸ hasked)
    split
    · rename_i found plan hfound _
      rw [hfound] at hevent
      cases List.mem_singleton.mp hevent
      intro hbound
      have hsucceeded := hbound.1
      rw [hsuppressed] at hsucceeded
      cases hsucceeded
    · exact id
  · refine iff_of_true ?_ hasked
    have hgiven : receiptContext receipt = expectedContext d := by
      unfold receiptContext
      rw [find_of_textIn hcontext (domainHash_ne_empty _ _)]
      rfl
    rw [receiptEvents_newRun agent goal hturned (hplanned ▸ hasked), hreceipts]
    refine ⟨rfl, rfl, ?_, rfl, ?_⟩
    · rw [← hgiven]
      rfl
    · rw [hsixth]
      rfl

/-- The part of the planning model is in order if and only if its plan is acceptable. -/
theorem newRun_planning_iff [HexDigest]
    (hturned : Turned (planned around.plan).requested_tools d registeredTools t) :
    checkPlanning agent.production (newRun agent around goal d t) = .ok () ↔
      Acceptable agent d around.plan := by
  have hversion : (newRun agent around goal d t).schema_version ≠ "1.0" := by
    change "1.1" ≠ "1.0"
    decide
  have hreceipts := receiptEvents_newRun agent goal hturned
  unfold checkPlanning
  rw [if_neg hversion]
  cases hplan : around.plan with
  | error e =>
    have hfallback : planned around.plan = fallbackPlan := by
      rw [hplan]
      rfl
    have hdegraded : (newRun agent around goal d t).planning_degraded = true := by
      change (!around.plan.isOk) = true
      rw [hplan]
      rfl
    have hreceipt : (newRun agent around goal d t).model_receipt = none := by
      change (planned around.plan).model_receipt = none
      rw [hfallback]
      rfl
    have hunasked : receiptTool ∉ (planned around.plan).requested_tools := by
      rw [hfallback]
      exact List.not_mem_nil
    rw [hreceipt, hdegraded, hreceipts hunasked, opening_receipts_none hreceipt]
    simp [Acceptable, ensure]
  | ok p =>
    have hplanned : planned around.plan = p := by
      rw [hplan]
      rfl
    have hdegraded : (newRun agent around goal d t).planning_degraded = false := by
      change (!around.plan.isOk) = false
      rw [hplan]
      rfl
    have hreceipt : (newRun agent around goal d t).model_receipt = p.model_receipt := by
      change (planned around.plan).model_receipt = p.model_receipt
      rw [hplanned]
    rw [hreceipt, hdegraded]
    cases hp : p.model_receipt with
    | none =>
      have hevents : receiptEvents (newRun agent around goal d t).tool_trace = [] ↔
          receiptTool ∉ p.requested_tools := by
        constructor
        · intro hempty hasked
          obtain ⟨event, hevent, _⟩ := asked_receipt_event agent goal d t (hplanned.symm ▸ hasked)
          rw [hempty] at hevent
          exact List.not_mem_nil hevent
        · intro hunasked
          rw [hreceipts (hplanned.symm ▸ hunasked)]
          exact opening_receipts_none (hplanned.symm ▸ hp)
      simp [Acceptable, hp, hevents, bind_eq_ok]
    | some receipt =>
      have hbound := receipt_bound_iff agent goal hturned hplan hp
      simp only [Acceptable, hp, bind_eq_ok, ensure_eq_ok, checkReceipt_ok]
      constructor
      · intro h
        obtain ⟨_, _, hfits, htrace⟩ := h
        exact ⟨(hbound hfits.context).mp htrace, hfits⟩
      · intro h
        obtain ⟨hunasked, hfits⟩ := h
        exact ⟨(), by simp, hfits, (hbound hfits.context).mpr hunasked⟩

end Planning

section Gate

variable [Unicode] [Interpreter] [Sha256] {agent : MemoryGuardAgent} {around : RunSurroundings}
  {goal : PaymentIntent} {d : DecisionDraft} {t : Turns} {stores : Stores}

theorem opening_notes {note : Note} (h : note ∈ openingNotes around goal d) :
    note.tool ∈ ["memoryguard.decide", "model.plan", receiptTool] := by
  unfold openingNotes decisionNotes planNotes at h
  cases hanswer : around.plan with
  | error e =>
    simp only [hanswer, List.mem_append, List.mem_cons, List.not_mem_nil, or_false] at h
    rcases h with (rfl | rfl | rfl) | rfl | rfl | rfl <;> simp
  | ok p =>
    cases hreceipt : p.model_receipt with
    | none =>
      simp only [hanswer, hreceipt, List.append_nil, List.mem_append, List.mem_cons,
        List.not_mem_nil, or_false] at h
      rcases h with (rfl | rfl | rfl) | rfl | rfl | rfl <;> simp
    | some receipt =>
      simp only [hanswer, hreceipt, List.mem_append, List.mem_cons, List.not_mem_nil,
        or_false] at h
      rcases h with (rfl | rfl | rfl) | (rfl | rfl | rfl) | rfl <;> simp

omit [Unicode] [Interpreter] [Sha256] in
theorem brief_optional (v : Verdict) : briefTool ≠ (authorization v).mandatory_tool := by
  cases v <;> decide

/-- Every event of a run that the agent builds passes its checks. -/
theorem newRun_events [HexDigest]
    (hturned : Turned (planned around.plan).requested_tools d registeredTools t) :
    ∀ event ∈ (newRun agent around goal d t).tool_trace,
      SoundEvent (newRun agent around goal d t) event := by
  have hown : ∀ tool ∈ ["memoryguard.decide", "model.plan", receiptTool], tool ∈ knownTools ∧
      tool ∉ registeredTools ∧ tool ≠ briefTool ∧ tool ∉ [prepareTool, verifyTool] := by decide
  have hregistered : ∀ tool ∈ registeredTools, tool ∈ knownTools ∧
      tool ∉ [prepareTool, verifyTool] := by decide
  have hbrief : briefTool ∈ registeredTools := by decide
  refine record_all (by simp) ?_
  intro note hnote n at'
  obtain ⟨hinput, houtput⟩ := event_digest note n (DateTime.inUtc at')
  rcases List.mem_append.mp hnote with hnote | hturn
  · rcases List.mem_append.mp hnote with hopening | hunknown
    · obtain ⟨hknown, hother, hbrief', hanchor⟩ := hown _ (opening_notes hopening)
      exact ⟨hinput, houtput, Or.inl hknown, fun hthis => absurd hthis hother,
        fun hthis => absurd hthis hbrief', fun hthis => absurd hthis hanchor⟩
    · obtain ⟨_, hother, hphase, hreason⟩ := unknown_note hunknown
      have hsuppressed : (note.event n (DateTime.inUtc at')).phase = .suppressed := hphase
      refine ⟨hinput, houtput, Or.inr ⟨hphase, hreason⟩, fun hthis => absurd hthis hother, ?_, ?_⟩
      · intro hthis
        have htool : note.tool = briefTool := hthis
        exact absurd (htool ▸ hbrief) hother
      · intro _ hcalled
        rw [hsuppressed] at hcalled
        simp at hcalled
  · obtain ⟨htool, htaken⟩ := hturned.notes note hturn
    obtain ⟨hknown, hanchor⟩ := hregistered _ htool
    refine ⟨hinput, houtput, Or.inl hknown, fun _ hcalled => (htaken hcalled).1, ?_,
      fun hthis => absurd hthis hanchor⟩
    intro hthis hcalled
    have hname : note.tool = briefTool := hthis
    obtain ⟨hallowed, hasked⟩ := htaken hcalled
    have hrequested : note.tool ∈ (planned around.plan).requested_tools := by
      refine hasked.resolve_left ?_
      rw [hname]
      exact brief_optional _
    exact List.mem_filter.mpr ⟨hrequested, decide_eq_true hallowed⟩

omit [Interpreter] in
/-- What a registered tool leaves is a receipt of its own action on the decision. -/
theorem artifactOf_fields {name : String} (hname : name ∈ registeredTools) :
    IsDict (artifactOf name d) ∧
      field "decision_id" (artifactOf name d) = some (.str d.decision_id) ∧
      field "executable" (artifactOf name d) = some (.bool false) ∧
      ∀ id ∈ expectedActionId d.decision_id name,
        field "action_id" (artifactOf name d) = some (.str id) := by
  have hescalation : escalationTool ≠ reviewTool := by decide
  have hbrief : briefTool ≠ reviewTool ∧ briefTool ≠ escalationTool := by decide
  unfold artifactOf expectedActionId
  simp only [registeredTools, List.mem_cons, List.not_mem_nil, or_false] at hname
  rcases hname with rfl | rfl | rfl
  · rw [if_pos rfl, if_pos rfl]
    refine ⟨trivial, field_object (by simp) "decision_id", field_object (by simp) "executable", ?_⟩
    intro id hid
    cases hid
    exact field_object (by simp) "action_id"
  · rw [if_neg hescalation, if_pos rfl, if_neg hescalation, if_pos rfl]
    refine ⟨trivial, field_object (by simp) "decision_id", field_object (by simp) "executable", ?_⟩
    intro id hid
    cases hid
    exact field_object (by simp) "action_id"
  · rw [if_neg hbrief.1, if_neg hbrief.2, if_neg hbrief.1, if_neg hbrief.2, if_pos rfl]
    refine ⟨trivial, field_object (by simp) "decision_id", field_object (by simp) "executable", ?_⟩
    intro id hid
    cases hid
    exact field_object (by simp) "action_id"

/-- Every artifact of a run that the agent builds passes its checks. -/
theorem newRun_artifacts
    (hturned : Turned (planned around.plan).requested_tools d registeredTools t) :
    ∀ entry ∈ (newRun agent around goal d t).artifacts,
      SoundArtifact (newRun agent around goal d t) entry := by
  intro entry hentry
  obtain ⟨name, v⟩ := entry
  obtain ⟨hname, _, rfl, note, hnote, rfl, hphase, houtput⟩ := hturned.artifacts name v hentry
  obtain ⟨hdict, hdecision, hinert, haction⟩ := artifactOf_fields (d := d) hname
  refine ⟨hdict, ?_, hinert, haction, ?_⟩
  · intro x hx _
    rw [hdecision] at hx
    cases hx
    rfl
  · intro _
    obtain ⟨n, at', hevent⟩ := event_mem_record around.clock [] (List.mem_append_right
      (openingNotes around goal d ++ unknownNotes d (planned around.plan).requested_tools) hnote)
    refine ⟨_, hevent, rfl, List.mem_singleton.mpr hphase, ?_⟩
    change note.output.map (toolOutputHash note.tool) = _
    rw [houtput]
    rfl

theorem newRun_state : (newRun agent around goal d t).state ∈
    validStates (authorization d.verdict).base_state := by
  change (if t.action_failed then AgentState.haltActionUnavailable
    else if !around.plan.isOk then .degradedSafeOnly else (authorization d.verdict).base_state) ∈ _
  by_cases hfailed : t.action_failed = true
  · rw [if_pos hfailed]
    simp [validStates]
  · rw [if_neg hfailed]
    by_cases hdegraded : (!around.plan.isOk) = true
    · rw [if_pos hdegraded]
      simp [validStates]
    · rw [if_neg hdegraded]
      exact List.mem_append_left _ List.mem_cons_self

/-- A new run is halted if and only if a safety action failed. -/
theorem newRun_halts :
    (newRun agent around goal d t).state = .haltActionUnavailable ↔ t.action_failed = true := by
  have hlive : (authorization d.verdict).base_state ≠ .haltActionUnavailable := by
    cases d.verdict <;> decide
  change (if t.action_failed then AgentState.haltActionUnavailable
    else if !around.plan.isOk then .degradedSafeOnly
    else (authorization d.verdict).base_state) = _ ↔ _
  by_cases hfailed : t.action_failed = true
  · rw [if_pos hfailed]
    exact iff_of_true rfl hfailed
  · rw [if_neg hfailed]
    refine iff_of_false ?_ hfailed
    by_cases hdegraded : (!around.plan.isOk) = true
    · rw [if_pos hdegraded]
      decide
    · rw [if_neg hdegraded]
      exact hlive

/-- A run that the agent builds is valid if and only if its plan is acceptable:
nothing else that it does, and no outage, is refused. -/
theorem newRun_valid_iff [HexDigest] (agent : MemoryGuardAgent) (around : RunSurroundings)
    (hdecides : DecidesOn goal d)
    (hturned : Turned (planned around.plan).requested_tools d registeredTools t) :
    validateRun agent.production (newRun agent around goal d t) = .ok () ↔
      Acceptable agent d around.plan := by
  rw [validateRun_ok]
  constructor
  · exact fun h => (newRun_planning_iff hturned).mp h.planning
  · intro haccept
    have hnames : ∀ name ∈ t.artifacts.map Prod.fst, name ∈ registeredTools := by
      intro name hname
      obtain ⟨artifact, hmem⟩ := exists_artifact (r := newRun agent around goal d t) hname
      exact (hturned.artifacts name artifact hmem).1
    have hmandatory := mandatoryTool_registered d.verdict
    refine ⟨hdecides.valid, hdecides.run_id, hdecides.request, rfl, hdecides.action,
      record_numbered rfl, agent.remote, ?_, ?_, newRun_events hturned, List.mem_cons_of_mem _
      (List.mem_singleton.mpr rfl), (newRun_planning_iff hturned).mpr haccept,
      fun name hname => List.mem_append_left _ (hnames name hname), ?_, ?_,
      newRun_artifacts hturned, ?_, ?_⟩
    · exact newRun_state
    · exact fun tool htool => of_decide_eq_true (List.mem_filter.mp htool).2
    · intro hstate
      apply hturned.mandatory _ hmandatory
      by_contra hfailed
      exact hstate (newRun_halts.mpr (Bool.not_eq_false _ ▸ hfailed))
    · intro hbrief
      obtain ⟨artifact, hmem⟩ := exists_artifact (r := newRun agent around goal d t) hbrief
      obtain ⟨_, ⟨hallowed, hasked⟩, _⟩ := hturned.artifacts _ artifact hmem
      exact List.mem_filter.mpr
        ⟨hasked.resolve_left (brief_optional _), decide_eq_true hallowed⟩
    · have hnone : proofArtifact t.artifacts = none := by
        cases hproof : proofArtifact t.artifacts with
        | none => rfl
        | some artifact =>
          obtain ⟨name, hname, hfind⟩ := proofArtifact_mem hproof
          have hregistered := hnames name (List.mem_map_of_mem (Dict.mem_of_find hfind))
          have hanchors : ∀ name ∈ [prepareTool, verifyTool], name ∉ registeredTools := by decide
          exact absurd hregistered (hanchors name hname)
      unfold checkAnchor
      rw [show (newRun agent around goal d t).artifacts = t.artifacts from rfl, hnone]
      exact ensure_eq_ok.mpr rfl
    · change operatorCopy (if (newRun agent around goal d t).state = .haltActionUnavailable then
        .haltActionUnavailable else (authorization d.verdict).base_state) _ = operatorCopy
        (if t.action_failed then .haltActionUnavailable else (authorization d.verdict).base_state) _
      rw [if_congr newRun_halts rfl rfl]
      rfl

/-- What follows a decision on a goal that has no run, if the new run is valid. -/
theorem run_accepted (habsent : loadRun stores.ledger (runId goal) = .ok none)
    (hdecide : decideIntent agent.guard around.deciding
      (stores.memory.subject (subjectRef goal.subject_id)) goal = .ok d)
    (ht : t = takeTurns (planned around.plan).requested_tools around.outages d stores.actions)
    (hvalid : validateRun agent.production (newRun agent around goal d t) = .ok ()) :
    run agent around stores goal = saveRun around.saving
      ⟨saveDecision stores.memory d, t.actions, stores.ledger⟩ (newRun agent around goal d t) := by
  subst ht
  unfold run
  simp only [habsent, hdecide, hvalid]

theorem run_refused {e : GuardError} (habsent : loadRun stores.ledger (runId goal) = .ok none)
    (hdecide : decideIntent agent.guard around.deciding
      (stores.memory.subject (subjectRef goal.subject_id)) goal = .ok d)
    (ht : t = takeTurns (planned around.plan).requested_tools around.outages d stores.actions)
    (hrefused : validateRun agent.production (newRun agent around goal d t) = .error e) :
    run agent around stores goal =
      (⟨saveDecision stores.memory d, t.actions, stores.ledger⟩, .error e) := by
  subst ht
  unfold run
  simp only [habsent, hdecide, hrefused]

/-- A goal that is decided for the first time is answered with a run if and only
if the plan for it is acceptable, whichever safety actions fail. The decision is
kept in either case, also when there is no run. -/
theorem run_goes_through_iff [HexDigest] [PlainAscii] (agent : MemoryGuardAgent)
    (around : RunSurroundings) (habsent : loadRun stores.ledger (runId goal) = .ok none)
    (hdecide : decideIntent agent.guard around.deciding
      (stores.memory.subject (subjectRef goal.subject_id)) goal = .ok d)
    (hsaving : around.saving = none) :
    ((∃ r, (run agent around stores goal).2 = .ok r) ↔ Acceptable agent d around.plan) ∧
      (run agent around stores goal).1.memory = saveDecision stores.memory d ∧
      (¬ Acceptable agent d around.plan →
        (run agent around stores goal).1.ledger = stores.ledger) := by
  let t := takeTurns (planned around.plan).requested_tools around.outages d stores.actions
  have hvalid : validateRun agent.production (newRun agent around goal d t) = .ok () ↔ _ :=
    newRun_valid_iff agent around (decided_on hdecide) takeTurns_turned
  by_cases haccept : Acceptable agent d around.plan
  · rw [run_accepted habsent hdecide (rfl : t = _) (hvalid.mpr haccept), hsaving]
    exact ⟨iff_of_true ⟨_, rfl⟩ haccept, rfl, fun hrefused => absurd haccept hrefused⟩
  · cases hcheck : validateRun agent.production (newRun agent around goal d t) with
    | error e =>
      rw [run_refused habsent hdecide (rfl : t = _) hcheck]
      refine ⟨iff_of_false ?_ haccept, rfl, fun _ => rfl⟩
      intro h
      obtain ⟨r, hr⟩ := h
      cases hr
    | ok u => exact absurd (hvalid.mp hcheck) haccept

end Gate

section Specimen

/-- An agent without a remote model. -/
def localAgent : MemoryGuardAgent :=
  ⟨paymentGuard, disabledAnchor, "local", "runtime", false, fun h => absurd h Bool.false_ne_true⟩

/-- Surroundings in which nothing fails and the model asks for no tool. -/
def calm (deciding : DecisionSurroundings) : RunSurroundings :=
  ⟨deciding, .ok ⟨"", [], [], none⟩, fun _ => none, fun _ => noon (some .utc), noon (some .utc),
    none⟩

theorem quiet_plan_goes_through :
    letI := asciiTables
    letI := SecureHash.secureHash
    letI := strictInterpreter
    ∃ (deciding : DecisionSurroundings) (r : AgentRun),
      (run localAgent (calm deciding) .blank vendorPayment).2 = .ok r := by
  let _ := asciiTables
  let _ := SecureHash.secureHash
  let _ := strictInterpreter
  have := SecureHash.secureHash_hex
  have := asciiTables_plain
  obtain ⟨deciding, d, h⟩ := exists_undecided
  have hdecide : decideIntent localAgent.guard (calm deciding).deciding (Stores.blank.memory.subject
      (subjectRef vendorPayment.subject_id)) vendorPayment = .ok d := h.decided
  have haccept : Acceptable localAgent d (calm deciding).plan := ⟨List.not_mem_nil, rfl⟩
  obtain ⟨r, hr⟩ := (run_goes_through_iff localAgent (calm deciding) rfl hdecide rfl).1.mpr haccept
  exact ⟨deciding, r, hr⟩

end Specimen

end MemoryGuard.PlanGates
