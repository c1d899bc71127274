import MemoryGuard.RunStories

/-!
Which runs are still valid after they were taken up, and what authority they
have. A run that is saved again is not checked, so that what it was taken up for
decides: only a preparation of the anchor after a verification of another state
leaves a run that no agent takes up again.
-/
namespace MemoryGuard.RunValidity

open OrderedDict JsonText Guarded ContentHash CanonicalText IsoText JsonReading Numbers
open Observations PaymentPolicy Observing Decisions AgentRuns AgentRules AgentAuthority
open Finalizing Traces Agency PlanGates RunStories
open Pollution (vendorPayment)

section Validity

variable [Unicode] [Sha256] {production : Bool} {r w : AgentRun}

/-- The part of the planning model is judged by its own events. -/
theorem checkPlanning_congr (hschema : w.schema_version = r.schema_version)
    (hdegraded : w.planning_degraded = r.planning_degraded)
    (hreceipt : w.model_receipt = r.model_receipt) (hkind : w.model_kind = r.model_kind)
    (hdecision : w.decision = r.decision) (hid : w.run_id = r.run_id)
    (hreceipts : receiptEvents w.tool_trace = receiptEvents r.tool_trace)
    (hplans : planEvents w.tool_trace = planEvents r.tool_trace)
    (h : checkPlanning production r = .ok ()) : checkPlanning production w = .ok () := by
  unfold checkPlanning at h ⊢
  rw [hschema, hdegraded, hreceipt, hreceipts]
  by_cases hversion : r.schema_version = "1.0"
  · rw [if_pos hversion] at h ⊢
    exact h
  · rw [if_neg hversion] at h ⊢
    cases hr : r.model_receipt with
    | none =>
      rw [hr] at h
      exact h
    | some receipt =>
      rw [hr] at h
      simp only [checkReceipt, bind_eq_ok, ensure_eq_ok] at h ⊢
      rw [hkind, hdecision]
      obtain ⟨u, hu, a, ha, b, hb, c, hc, e, he, hbound⟩ := h
      refine ⟨u, hu, a, ha, b, hb, c, hc, e, he, ?_⟩
      unfold ReceiptBound at hbound ⊢
      rw [hreceipts, hplans, hid]
      exact hbound

theorem putOut_mono {trace trace' : List ToolEvent} {tool : String} {phases : List ToolPhase}
    {v : Json} (h : PutOut trace tool phases v) (hsub : trace ⊆ trace') :
    PutOut trace' tool phases v := by
  obtain ⟨event, hevent, hput⟩ := h
  exact ⟨event, hsub hevent, hput⟩

/-- How a run that was taken up differs from the one before. -/
structure TakenUp (r w : AgentRun) : Prop where
  same : w = { r with
    state := w.state, tool_trace := w.tool_trace, artifacts := w.artifacts
    anchor_state := w.anchor_state, updated_at := w.updated_at }
  recorded : ∃ clock notes, w.tool_trace = record clock r.tool_trace notes ∧
    ∀ note ∈ notes, note.tool ∈ ["agent.cancel", prepareTool, verifyTool] ∧
      (note.tool ∈ [prepareTool, verifyTool] → note.tool ∈ w.artifacts.map Prod.fst)
  state : w.state ∈ validStates (authorization r.decision.verdict).base_state
  going : r.state ≠ .haltActionUnavailable ∧ w.state ≠ .haltActionUnavailable
  kept : ∀ name ∈ r.artifacts.map Prod.fst, name ∈ w.artifacts.map Prod.fst
  artifacts : ∀ e ∈ w.artifacts, e ∈ r.artifacts ∨ e.1 ∈ [prepareTool, verifyTool] ∧ IsDict e.2 ∧
    field "decision_id" e.2 = some (.str r.decision.decision_id) ∧
    field "executable" e.2 = some (.bool false)

/-- A valid run that was taken up is valid when its anchor is. -/
theorem TakenUp.valid [HexDigest] (h : TakenUp r w) (hvalid : ValidRun production r)
    (hanchor : checkAnchor w = .ok ()) : ValidRun production w := by
  obtain ⟨clock, notes, htrace, hnotes⟩ := h.recorded
  have hdecision : w.decision = r.decision := by rw [h.same]
  have htools : ∀ note ∈ notes, note.tool ≠ receiptTool ∧ note.tool ≠ "model.plan" := by
    have hother : ∀ tool ∈ ["agent.cancel", prepareTool, verifyTool],
        tool ≠ receiptTool ∧ tool ≠ "model.plan" := by decide
    exact fun note hnote => hother _ (hnotes note hnote).1
  have hreceipts : receiptEvents w.tool_trace = receiptEvents r.tool_trace := by
    unfold receiptEvents
    rw [htrace, record_filter]
    intro note hnote n at'
    exact decide_eq_false (htools note hnote).1
  have hplans : planEvents w.tool_trace = planEvents r.tool_trace := by
    unfold planEvents
    rw [htrace, record_filter]
    intro note hnote n at'
    exact decide_eq_false fun hplan => (htools note hnote).2 hplan.1
  have hexpected : ∀ name ∈ [prepareTool, verifyTool],
      expectedActionId r.decision.decision_id name = none ∧ name ∉ registeredTools := by
    intro name hname
    simp only [List.mem_cons, List.not_mem_nil, or_false] at hname
    rcases hname with rfl | rfl
    · simp [expectedActionId, registeredTools, prepareTool, reviewTool, escalationTool, briefTool]
    · simp [expectedActionId, registeredTools, verifyTool, reviewTool, escalationTool, briefTool]
  have hsubset : r.tool_trace ⊆ w.tool_trace := htrace ▸ record_prefix.subset
  have hback : ∀ name ∈ registeredTools, name ∈ w.artifacts.map Prod.fst →
      name ∈ r.artifacts.map Prod.fst := by
    intro name hname hmem
    obtain ⟨e, he, rfl⟩ := List.mem_map.mp hmem
    rcases h.artifacts e he with hold | ⟨htool, _⟩
    · exact List.mem_map_of_mem hold
    · exact absurd hname (hexpected _ htool).2
  refine ⟨hdecision ▸ hvalid.decision, ?_, ?_, ?_, ?_, ?_, ?_, hdecision ▸ h.state, ?_, ?_, ?_, ?_,
    ?_, ?_, ?_, ?_, hanchor, ?_⟩
  · rw [h.same]
    exact hvalid.run_id
  · rw [h.same]
    exact hvalid.request
  · rw [h.same]
    exact hvalid.inert
  · rw [h.same]
    exact hvalid.action
  · rw [htrace]
    exact record_numbered hvalid.sequence
  · rw [h.same]
    exact hvalid.remote
  · rw [h.same]
    exact hvalid.tools
  · rw [htrace]
    refine record_all ?_ ?_
    · intro event hevent
      have hold := hvalid.events event hevent
      have hrequested : w.model_requested_safe_tools = r.model_requested_safe_tools := by
        rw [h.same]
      exact ⟨hold.input, hold.output, hold.known, hdecision ▸ hold.allowed,
        hrequested ▸ hold.requested, fun htool hphase => h.kept _ (hold.anchored htool hphase)⟩
    · intro note hnote n at'
      obtain ⟨htool, hmem⟩ := hnotes note hnote
      obtain ⟨hinput, houtput⟩ := event_digest note n (DateTime.inUtc at')
      have hfacts : ∀ tool ∈ ["agent.cancel", prepareTool, verifyTool],
          tool ∈ knownTools ∧ tool ∉ registeredTools ∧ tool ≠ briefTool := by decide
      obtain ⟨hknown, hunregistered, hbrief⟩ := hfacts _ htool
      exact ⟨hinput, houtput, Or.inl hknown, fun hregistered => absurd hregistered hunregistered,
        fun hthis => absurd hthis hbrief, fun hanchors _ => hmem hanchors⟩
  · rw [h.same]
    exact hvalid.version
  · exact checkPlanning_congr (by rw [h.same]) (by rw [h.same]) (by rw [h.same]) (by rw [h.same])
      hdecision (by rw [h.same]) hreceipts hplans hvalid.planning
  · intro name hname
    obtain ⟨e, he, rfl⟩ := List.mem_map.mp hname
    rcases h.artifacts e he with hold | ⟨htool, _⟩
    · exact hvalid.names _ (List.mem_map_of_mem hold)
    · exact List.mem_append_right _ htool
  · intro _
    rw [hdecision]
    exact h.kept _ (hvalid.mandatory h.going.1)
  · intro hbrief
    have hold := hvalid.brief (hback _ (by simp [registeredTools]) hbrief)
    rw [h.same]
    exact hold
  · intro e he
    rcases h.artifacts e he with hold | ⟨htool, hdict, hid, hinert⟩
    · have hsound := hvalid.artifacts e hold
      refine ⟨hsound.dict, hdecision ▸ hsound.decision, hsound.inert, hdecision ▸ hsound.action, ?_⟩
      exact fun hregistered => putOut_mono (hsound.traced hregistered) hsubset
    · obtain ⟨hnone, hunregistered⟩ := hexpected _ htool
      refine ⟨hdict, ?_, hinert, ?_, fun hregistered => absurd hregistered hunregistered⟩
      · intro v hv _
        rw [hid] at hv
        cases hv
        rw [hdecision]
      · intro id hmem
        rw [hdecision, hnone] at hmem
        cases hmem
  · have hcopied := hvalid.copied
    rw [if_neg h.going.1] at hcopied
    rw [if_neg h.going.2, h.same]
    exact hcopied

end Validity

section Reordering

variable [Unicode] [Sha256] {production : Bool} {r : AgentRun} {artifacts : Fields}

omit [Unicode] [Sha256] in
theorem names_congr {l l' : Fields} (h : ∀ e, e ∈ l ↔ e ∈ l') (name : String) :
    name ∈ l.map Prod.fst ↔ name ∈ l'.map Prod.fst := by
  simp only [List.mem_map, h]

/-- The order of its artifacts does not matter to a run. -/
theorem valid_reordered (hmem : ∀ e, e ∈ artifacts ↔ e ∈ r.artifacts)
    (hfind : ∀ k, Dict.find k artifacts = Dict.find k r.artifacts) (h : ValidRun production r) :
    ValidRun production { r with artifacts := artifacts } := by
  have hnames := names_congr hmem
  have hanchor : checkAnchor { r with artifacts := artifacts } = checkAnchor r := by
    have hproof : proofArtifact artifacts = proofArtifact r.artifacts := by
      unfold proofArtifact
      rw [hfind, hfind]
    have htool : (if verifyTool ∈ artifacts.map Prod.fst then verifyTool else prepareTool) =
        if verifyTool ∈ r.artifacts.map Prod.fst then verifyTool else prepareTool := by
      by_cases hverify : verifyTool ∈ r.artifacts.map Prod.fst
      · rw [if_pos hverify, if_pos ((hnames _).mpr hverify)]
      · rw [if_neg hverify, if_neg fun hin => hverify ((hnames _).mp hin)]
    unfold checkAnchor
    simp only [hproof, htool]
  refine ⟨h.decision, h.run_id, h.request, h.inert, h.action, h.sequence, h.remote, h.state,
    h.tools, ?_, h.version, h.planning, ?_, ?_, ?_, ?_, hanchor.trans h.anchor, h.copied⟩
  · intro event hevent
    have hsound := h.events event hevent
    exact ⟨hsound.input, hsound.output, hsound.known, hsound.allowed, hsound.requested,
      fun htool hphase => (hnames _).mpr (hsound.anchored htool hphase)⟩
  · exact fun name hname => h.names name ((hnames _).mp hname)
  · exact fun hstate => (hnames _).mpr (h.mandatory hstate)
  · exact fun hbrief => h.brief ((hnames _).mp hbrief)
  · intro e he
    have hsound := h.artifacts e ((hmem e).mp he)
    exact ⟨hsound.dict, hsound.decision, hsound.inert, hsound.action, hsound.traced⟩

theorem valid_byKey_iff (hkeys : (r.artifacts.map Prod.fst).Nodup) :
    ValidRun production { r with artifacts := byKey r.artifacts } ↔ ValidRun production r := by
  have hmem : ∀ e, e ∈ byKey r.artifacts ↔ e ∈ r.artifacts := fun _ => mem_byKey
  have hfind : ∀ k, Dict.find k (byKey r.artifacts) = Dict.find k r.artifacts := find_byKey hkeys
  constructor
  · intro h
    exact valid_reordered (r := { r with artifacts := byKey r.artifacts })
      (fun e => (hmem e).symm) (fun k => (hfind k).symm) h
  · exact valid_reordered hmem hfind

end Reordering

section Anchoring

theorem mem_put {l : Fields} {k : String} {v : Json} {e : String × Json}
    (h : e ∈ Dict.put k v l) : e = (k, v) ∨ e ∈ l := by
  induction l with
  | nil => exact Or.inl (List.mem_singleton.mp h)
  | cons f rest ih =>
    obtain ⟨k', v'⟩ := f
    by_cases hk : k' = k
    · rw [Dict.put, if_pos hk] at h
      exact (List.mem_cons.mp h).imp id (List.mem_cons_of_mem _)
    · rw [Dict.put, if_neg hk] at h
      rcases List.mem_cons.mp h with rfl | h
      · exact Or.inr List.mem_cons_self
      · exact (ih h).imp id (List.mem_cons_of_mem _)

variable [Unicode] [Sha256] {production : Bool} {r : AgentRun} {around : ResumeSurroundings}
  {tool signal reason : String} {payload artifact : Json} {phase : ToolPhase} {state : AnchorState}
  {next : AgentState}

/-- What a run keeps of its anchor: an answer about its own decision. -/
structure Answered (r : AgentRun) (state : AnchorState) (artifact : Json) : Prop where
  dict : IsDict artifact
  decision : field "decision_id" artifact = some (.str r.decision.decision_id)
  inert : field "executable" artifact = some (.bool false)
  state : field "state" artifact = some (.str state.text)
  root : field "proof_root" artifact = some (.str r.decision.proof_root)

theorem anchored_taken_up (hvalid : ValidRun production r) (going : r.state ∉ stoppedStates)
    (htool : tool ∈ [prepareTool, verifyTool]) (hanswered : Answered r state artifact)
    (hnext : next ∈ validStates (authorization r.decision.verdict).base_state)
    (hlive : next ≠ .haltActionUnavailable) : TakenUp r
      { anchored around r tool signal payload phase reason state artifact with state := next } where
  same := by
    have hinert := hvalid.inert
    simp only [anchored]
    rw [← hinert]
  recorded := by
    refine ⟨_, _, rfl, ?_⟩
    intro note hnote
    have hthis : note.tool = tool := by
      simp only [List.mem_cons, List.not_mem_nil, or_false] at hnote
      rcases hnote with rfl | rfl | rfl <;> rfl
    rw [hthis]
    exact ⟨List.mem_cons_of_mem _ htool, fun _ => (Dict.mem_keys_put ..).mpr (Or.inl rfl)⟩
  state := hnext
  going := by
    refine ⟨?_, hlive⟩
    intro hhalt
    exact going (by simp [hhalt, stoppedStates])
  kept := fun name hname => (Dict.mem_keys_put ..).mpr (Or.inr hname)
  artifacts := by
    intro e he
    rcases mem_put he with rfl | hold
    · exact Or.inr ⟨htool, hanswered.dict, hanswered.decision, hanswered.inert⟩
    · exact Or.inl hold

omit [Unicode] [Sha256] in
theorem truthy_of_field {k : String} {v x : Json} (h : field k v = some x) : truthy v = true := by
  cases v with
  | obj fields =>
    cases fields with
    | nil => simp [field, Dict.find] at h
    | cons f rest => rfl
  | _ => simp [field] at h

theorem checkAnchor_some (hproof : proofArtifact r.artifacts = some artifact)
    (htool : (if verifyTool ∈ r.artifacts.map Prod.fst then verifyTool else prepareTool) = tool) :
    checkAnchor r = .ok () ↔ field "state" artifact = some (.str r.anchor_state.text) ∧
      field "proof_root" artifact = some (.str r.decision.proof_root) ∧
      PutOut r.tool_trace tool [.succeeded, .failed] artifact := by
  unfold checkAnchor
  rw [hproof]
  simp only [bind_eq_ok, ensure_eq_ok, htool]
  constructor
  · intro h
    obtain ⟨_, hstate, _, hroot, hput⟩ := h
    exact ⟨hstate, hroot, hput⟩
  · intro h
    exact ⟨(), h.1, (), h.2.1, h.2.2⟩

theorem recorded_put_out {clock : ℕ → DateTime} {trace : List ToolEvent} {first second : Note}
    (hphase : phase ∈ [.succeeded, .failed]) : PutOut
      (record clock trace [first, second, ⟨tool, phase, reason, payload, some artifact⟩]) tool
      [.succeeded, .failed] artifact := by
  have hlast : (⟨tool, phase, reason, payload, some artifact⟩ : Note) ∈
      [first, second, ⟨tool, phase, reason, payload, some artifact⟩] :=
    List.mem_cons_of_mem _ (List.mem_cons_of_mem _ List.mem_cons_self)
  obtain ⟨n, at', hmem⟩ := event_mem_record clock trace hlast
  exact ⟨_, hmem, rfl, hphase, rfl⟩

/-- After a verification the anchor is in order. -/
theorem verify_anchor_ok (hanswered : Answered r state artifact)
    (hphase : phase ∈ [.succeeded, .failed]) : checkAnchor
      { anchored around r verifyTool signal payload phase reason state artifact with
        state := next } = .ok () := by
  have hfind : Dict.find verifyTool (Dict.put verifyTool artifact r.artifacts) = some artifact :=
    (Dict.find_put ..).trans (if_pos rfl)
  have hproof : proofArtifact (Dict.put verifyTool artifact r.artifacts) = some artifact := by
    unfold proofArtifact
    rw [hfind]
    simp [Option.filter, truthy_of_field hanswered.inert]
  have hmem : verifyTool ∈ (Dict.put verifyTool artifact r.artifacts).map Prod.fst :=
    (Dict.mem_keys_put ..).mpr (Or.inl rfl)
  exact (checkAnchor_some hproof (if_pos hmem)).mpr
    ⟨hanswered.state, hanswered.root, recorded_put_out hphase⟩

/-- After a preparation it is when no verification says otherwise. -/
theorem prepare_anchor_iff (hvalid : ValidRun production r) (hanswered : Answered r state artifact)
    (hphase : phase ∈ [.succeeded, .failed]) : checkAnchor
      (anchored around r prepareTool signal payload phase reason state artifact) = .ok () ↔
      ∀ v, Dict.find verifyTool r.artifacts = some v →
        field "state" v = some (.str state.text) := by
  have hne : prepareTool ≠ verifyTool := by decide
  have hverify : Dict.find verifyTool (Dict.put prepareTool artifact r.artifacts) =
      Dict.find verifyTool r.artifacts := (Dict.find_put ..).trans (if_neg hne)
  have hprepare : Dict.find prepareTool (Dict.put prepareTool artifact r.artifacts) =
      some artifact := (Dict.find_put ..).trans (if_pos rfl)
  have hnames : verifyTool ∈ (Dict.put prepareTool artifact r.artifacts).map Prod.fst ↔
      verifyTool ∈ r.artifacts.map Prod.fst := by
    rw [Dict.mem_keys_put]
    exact ⟨fun h => h.resolve_left (Ne.symm hne), Or.inr⟩
  cases hfind : Dict.find verifyTool r.artifacts with
  | none =>
    have hproof : proofArtifact (Dict.put prepareTool artifact r.artifacts) = some artifact := by
      unfold proofArtifact
      rw [hverify, hprepare, hfind]
      simp [Option.filter, truthy_of_field hanswered.inert]
    have habsent : verifyTool ∉ r.artifacts.map Prod.fst := Dict.find_eq_none_iff.mp hfind
    refine iff_of_true ?_ (fun v hv => by cases hv)
    exact (checkAnchor_some hproof (if_neg fun h => habsent (hnames.mp h))).mpr
      ⟨hanswered.state, hanswered.root, recorded_put_out hphase⟩
  | some v =>
    have hentry : (verifyTool, v) ∈ r.artifacts := Dict.mem_of_find hfind
    have htruthy : truthy v = true := truthy_of_field (hvalid.artifacts _ hentry).inert
    have hmem : verifyTool ∈ r.artifacts.map Prod.fst := List.mem_map_of_mem hentry
    have hbefore : proofArtifact r.artifacts = some v := by
      unfold proofArtifact
      rw [hfind]
      simp [Option.filter, htruthy]
    have hproof : proofArtifact (Dict.put prepareTool artifact r.artifacts) = some v := by
      unfold proofArtifact
      rw [hverify, hfind]
      simp [Option.filter, htruthy]
    obtain ⟨_, hroot, hput⟩ := (checkAnchor_some hbefore (if_pos hmem)).mp hvalid.anchor
    rw [checkAnchor_some hproof (if_pos (hnames.mpr hmem))]
    constructor
    · intro h w hw
      cases hw
      exact h.1
    · exact fun h => ⟨h v rfl, hroot, putOut_mono hput record_prefix.subset⟩

end Anchoring

section Decided

variable [Unicode] [Interpreter] [Sha256] {memory memory' : Vault} {stores stores' : Stores}
  {call : AgentCall} {answered : Except GuardError Reply} {r : AgentRun} {d : DecisionDraft}
  {steps : List AgentStep}

omit [Interpreter] in
/-- The memory has the decision that a run was made on. -/
def DecidedIn (memory : Vault) (d : DecisionDraft) : Prop :=
  ∃ kept : DecisionDraft, memory.decisions.get? (entityKey d.decision_id) = some kept.toJson ∧
    kept.decision_id = d.decision_id ∧ kept.verdict = d.verdict ∧ kept.proof_root = d.proof_root

theorem finalizes_matches {anchor : AnchorPort} {decision_id : String} {result : FinalizationResult}
    (h : Finalizes anchor memory decision_id d memory' result) : Matches result d := by
  cases h with
  | stored loaded fits => exact fits
  | verified given verifies before => exact ⟨rfl, rfl, rfl⟩
  | planned new plans => exact planned_matches

omit [Unicode] [Interpreter] [Sha256] in
theorem field_result (result : FinalizationResult) (k : String) :
    field k result.toJson = Dict.find k result.body :=
  field_object (by simp [FinalizationResult.body]) k

/-- What the guard answers to the agent is about the decision of the run. -/
theorem finalize_answered {guard : Guard} {anchor : AnchorPort} {now : DateTime}
    {tx : Option String} {result : FinalizationResult} (hkept : Kept memory)
    (hdecided : DecidedIn memory r.decision)
    (h : finalize guard anchor now memory r.decision.decision_id tx = .ok (memory', result)) :
    Answered r result.state result.toJson := by
  obtain ⟨decision, hfinalizable, hfinalizes⟩ := finalize_cases h
  obtain ⟨kept, hbody, hid, hverdict, hroot⟩ := hdecided
  obtain ⟨amount, rfl⟩ := decision_loaded hbody hfinalizable.loaded
  obtain ⟨hsame, _, hproof⟩ := finalizes_matches hfinalizes
  have hname : result.decision_id = r.decision.decision_id := hsame.trans hid
  have hkey : entityKey (kept.reread amount).decision_id = entityKey r.decision.decision_id :=
    congrArg entityKey hid
  obtain ⟨_, _, hanswers⟩ := finalizes_kept hkept hkey hfinalizes
  refine ⟨trivial, ?_, ?_, field_result result "state", ?_⟩
  · rw [field_result, ← hname]
    rfl
  · rw [field_result, ← hanswers.inert]
    rfl
  · rw [field_result, ← (hproof.trans hroot : result.proof_root = r.decision.proof_root)]
    rfl

omit [Unicode] [Interpreter] [Sha256] in
theorem refusal_answered : Answered r .failed (refusal r) where
  dict := trivial
  decision := field_object (by simp) "decision_id"
  inert := field_object (by simp) "executable"
  state := field_object (by simp) "state"
  root := field_object (by simp) "proof_root"

/-- A call that draws a new identifier leaves the decisions of the memory. -/
theorem remembers_decided (hdecided : DecidedIn memory d) (h : Remembers call memory memory')
    (hfresh : ∀ id, call.drawn = some id → memory.decisions.get? (entityKey id) = none) :
    DecidedIn memory' d := by
  obtain ⟨kept, hbody, hsame⟩ := hdecided
  rcases h with rfl | ⟨asked, answer, hasked, hdrawn⟩
  · exact ⟨kept, hbody, hsame⟩
  · refine ⟨kept, ?_, hsame⟩
    cases asked with
    | observe around observation =>
      simp only [serveCall, bind_eq_ok, pure_eq_ok, Prod.mk.injEq] at hasked
      obtain ⟨⟨body, receipt⟩, _, rfl, _⟩ := hasked
      cases body with
      | none => exact hbody
      | some b => exact hbody
    | decide guard around intent =>
      simp only [serveCall, bind_eq_ok, pure_eq_ok, Prod.mk.injEq] at hasked
      obtain ⟨decision, hdecide, rfl, _⟩ := hasked
      obtain ⟨_, subject, result, expires_at, _, _, _, _, rfl⟩ := decideIntent_eq_ok.mp hdecide
      have hnew := hfresh _ (hdrawn _ rfl)
      have hne : entityKey (newId "dec" around.uuid) ≠ entityKey d.decision_id := by
        intro heq
        rw [heq, hbody] at hnew
        cases hnew
      exact (Dict.get?_set_of_ne _ _ hne).trans hbody
    | finalize guard anchor now decision_id tx =>
      simp only [serveCall, bind_eq_ok, pure_eq_ok, Prod.mk.injEq] at hasked
      obtain ⟨⟨next, result⟩, hfinalize, rfl, _⟩ := hasked
      obtain ⟨decision, _, hfinalizes⟩ := finalize_cases hfinalize
      cases hfinalizes with
      | stored loaded fits => exact hbody
      | @verified hash verification given verifies before =>
        by_cases hbinding : Binding verification.state
        · rw [if_pos hbinding]
          exact hbody
        · rw [if_neg hbinding]
          exact hbody
      | planned new plans => exact hbody
    | inspect decision_id =>
      simp only [serveCall, bind_eq_ok, pure_eq_ok, Prod.mk.injEq] at hasked
      obtain ⟨_, _, rfl, _⟩ := hasked
      exact hbody

theorem remembers_kept (hkept : Kept memory) (h : Remembers call memory memory') :
    Kept memory' := by
  rcases h with rfl | ⟨asked, answer, hasked, _⟩
  · exact hkept
  · exact (serve_kept hkept hasked).1

/-- The memory has the decisions that the runs of the ledger were made on. -/
structure Backed (stores : Stores) : Prop where
  kept : Kept stores.memory
  rows : ∀ k row, stores.ledger.get? k = some row → ∃ w, row = envelope w ∧
    k = runKey w.run_id ∧ Filed w ∧ DecidedIn stores.memory w.decision

omit [Interpreter] in
theorem Backed.ordered (h : Backed stores) : Ordered stores.ledger := by
  intro k row hrow
  obtain ⟨w, hw, hk, hfiled, _⟩ := h.rows k row hrow
  exact ⟨w, hw, hk, hfiled⟩

/-- A run that is read of the ledger is one that the memory backs. -/
theorem Backed.load (h : Backed stores) {run_id : String}
    (hload : loadRun stores.ledger run_id = .ok (some r)) : ∃ w amount, InLedger stores.ledger w ∧
      floatOf (.num w.decision.intent.amount_usd) = .ok amount ∧ r = w.reread amount ∧
      runKey run_id = runKey w.run_id ∧ DecidedIn stores.memory r.decision := by
  cases hrow : stores.ledger.get? (runKey run_id) with
  | none =>
    unfold loadRun at hload
    rw [hrow] at hload
    cases hload
  | some row =>
    obtain ⟨w, rfl, hkey, hfiled, hdecided⟩ := h.rows _ _ hrow
    have hw : InLedger stores.ledger w := ⟨hkey ▸ hrow, hfiled⟩
    obtain ⟨amount, hamount, rfl⟩ := hw.read hkey hload
    exact ⟨w, amount, hw, hamount, rfl, hkey, hdecided⟩

theorem saves_decided (hbacked : Backed stores) {actions : Dict Digest Json}
    (h : Saves stores call memory' actions r)
    (hfresh : ∀ id, call.drawn = some id → stores.memory.decisions.get? (entityKey id) = none) :
    DecidedIn memory' r.decision := by
  have hthrough : ∀ {run_id production r'}, inspectRun production stores.ledger run_id = .ok r' →
      DecidedIn memory' r'.decision := by
    intro run_id production r' hinspected
    obtain ⟨w, amount, _, _, _, _, hdecided⟩ := hbacked.load (inspectRun_ok.mp hinspected).1
    exact remembers_decided hdecided h.remembers hfresh
  cases h with
  | new absent decides takes valid => exact ⟨_, Dict.get?_set_self .., rfl, rfl, rfl⟩
  | cancelled kind inspected unsettled =>
    have hdecided := hthrough inspected
    exact hdecided
  | prepared kind inspected going finalizes =>
    have hdecided := hthrough inspected
    exact hdecided
  | refused kind inspected going unverified =>
    have hdecided := hthrough inspected
    exact hdecided
  | observed kind inspected going unverified finalizes =>
    have hdecided := hthrough inspected
    exact hdecided

theorem serve_backed [NonemptyDigest] (hbacked : Backed stores)
    (hfresh : ∀ id, call.drawn = some id → stores.memory.decisions.get? (entityKey id) = none)
    (h : serve stores call = (stores', answered)) : Backed stores' := by
  have hremembers := serve_remembers h
  have hold : ∀ k row, stores.ledger.get? k = some row → ∃ w, row = envelope w ∧
      k = runKey w.run_id ∧ Filed w ∧ DecidedIn stores'.memory w.decision := by
    intro k row hrow
    obtain ⟨w, hw, hk, hfiled, hdecided⟩ := hbacked.rows k row hrow
    exact ⟨w, hw, hk, hfiled, remembers_decided hdecided hremembers hfresh⟩
  refine ⟨remembers_kept hbacked.kept hremembers, ?_⟩
  rcases serve_cases h with hunsaved | ⟨memory, actions, w, hsaves, hsaved⟩
  · rw [hunsaved.ledger]
    exact hold
  · rcases hsaved.files with hledger | hledger
    · rw [hledger]
      intro k row hrow
      rw [filed, Dict.get?_set] at hrow
      by_cases hk : runKey w.run_id = k
      · rw [if_pos hk] at hrow
        cases hrow
        refine ⟨w, rfl, hk.symm, (filed_continued hbacked.ordered (saves_origin hsaves)).2.2, ?_⟩
        rw [hsaved.remembers]
        exact saves_decided hbacked hsaves hfresh
      · rw [if_neg hk] at hrow
        exact hold k row hrow
    · rw [hledger]
      exact hold

theorem backed_of_run [NonemptyDigest] (hrun : Run agency steps stores) : Backed stores := by
  have hstart : Backed .blank := ⟨kept_blank, fun k row hrow => by cases hrow⟩
  refine Run.invariant Backed hstart ?_ hrun
  intro done s _ hnow hbacked
  exact serve_backed hbacked hnow.2 hnow.1

end Decided

section Resumed

variable [Unicode] [Interpreter] [Sha256] {stores stores' : Stores} {call : AgentCall}
  {memory : Vault} {actions : Dict Digest Json} {answered : Except GuardError Reply}
  {r w : AgentRun} {steps before after : List AgentStep} {s : AgentStep}

/-- What a run that was taken up says of its anchor: a verification that it has is
of the state that it is in. -/
def Agrees (w : AgentRun) : Prop :=
  ∀ v, Dict.find verifyTool w.artifacts = some v →
    field "state" v = some (.str w.anchor_state.text)

omit [Interpreter] in
theorem cancelled_taken_up {production : Bool} {around : ResumeSurroundings}
    (hvalid : ValidRun production r) (hopen : r.state ∈ [.awaitFinalize, .awaitHumanReview]) :
    TakenUp r (cancelled around r) where
  same := rfl
  recorded := by
    refine ⟨_, _, rfl, ?_⟩
    intro note hnote
    have hthis : note.tool = "agent.cancel" := by
      simp only [List.mem_cons, List.not_mem_nil, or_false] at hnote
      rcases hnote with rfl | rfl | rfl <;> rfl
    rw [hthis]
    exact ⟨List.mem_cons_self, fun hmem => absurd hmem (by decide)⟩
  state := by
    have hstate := hvalid.state
    have hcancelled : ∀ v : Verdict, r.state ∈ validStates (authorization v).base_state →
        AgentState.cancelled ∈ validStates (authorization v).base_state := by
      intro v hv
      simp only [List.mem_cons, List.not_mem_nil, or_false] at hopen
      rcases hopen with hs | hs <;> cases v <;> rw [hs] at hv <;> revert hv <;> decide
    exact hcancelled _ hstate
  going := by
    simp only [List.mem_cons, List.not_mem_nil, or_false] at hopen
    refine ⟨?_, fun hhalt => by cases hhalt⟩
    rcases hopen with hs | hs <;> simp [hs]
  kept := fun name hname => hname
  artifacts := fun e he => Or.inl he

omit [Interpreter] in
theorem cancelled_anchor_ok {production : Bool} {around : ResumeSurroundings}
    (hvalid : ValidRun production r) : checkAnchor (cancelled around r) = .ok () := by
  have hanchor := hvalid.anchor
  cases hproof : proofArtifact r.artifacts with
  | none =>
    unfold checkAnchor at hanchor ⊢
    have hsame : proofArtifact (cancelled around r).artifacts = none := hproof
    rw [hproof] at hanchor
    rw [hsame]
    exact hanchor
  | some artifact =>
    obtain ⟨hstate, hroot, hput⟩ := (checkAnchor_some hproof rfl).mp hanchor
    have hlonger : r.tool_trace ⊆ (cancelled around r).tool_trace := record_prefix.subset
    exact (checkAnchor_some (r := cancelled around r) hproof rfl).mpr
      ⟨hstate, hroot, putOut_mono hput hlonger⟩

omit [Unicode] [Interpreter] [Sha256] in
theorem unsettled_open {v : Verdict} {state : AgentState}
    (hvalid : state ∈ validStates (authorization v).base_state) (h : state ∉ settledStates) :
    state ∈ [.awaitFinalize, .awaitHumanReview] := by
  cases v <;> cases state <;> simp_all [validStates, authorization, settledStates]

omit [Unicode] [Interpreter] [Sha256] in
theorem redecide_valid (v : Verdict) :
    AgentState.blockAndRedecide ∈ validStates (authorization v).base_state := by
  cases v <;> decide

omit [Interpreter] in
/-- A preparation leaves the verification of a run. -/
theorem prepared_verification {around : ResumeSurroundings} {result : FinalizationResult} :
    Dict.find verifyTool (prepared around r result).artifacts =
      Dict.find verifyTool r.artifacts := by
  have hother : prepareTool ≠ verifyTool := by decide
  exact (Dict.find_put ..).trans (if_neg hother)

/-- Whatever is saved of a valid run is valid, but for a preparation after a
verification of another state. -/
theorem resumed_valid_iff [HexDigest] {agent : MemoryGuardAgent} {around : ResumeSurroundings}
    {run_id : String} {signal : AgentHumanSignal} (hbacked : Backed stores)
    (h : Saves stores (.resume agent around run_id signal) memory actions w) :
    ∃ r, inspectRun agent.production stores.ledger run_id = .ok r ∧ w.run_id = r.run_id ∧
      w.decision = r.decision ∧ ∀ production, ValidRun production r →
        (ValidRun production w ↔ (signal.kind = "prepare_anchor" → Agrees w)) := by
  have hneither : ∀ kind : String, kind ≠ "prepare_anchor" → signal.kind = kind →
      ∀ production, ValidRun production w → (ValidRun production w ↔
        (signal.kind = "prepare_anchor" → Agrees w)) := by
    intro kind hne hkind production hvalid
    exact iff_of_true hvalid fun hthis => absurd (hkind.symm.trans hthis) hne
  have hgoing : ∀ r : AgentRun, r.state ∉ stoppedStates → r.state ≠ .haltActionUnavailable := by
    intro r hr hhalt
    exact hr (by simp [hhalt, stoppedStates])
  have hphase : ∀ c : Prop, [Decidable c] → ∀ a ∈ [ToolPhase.succeeded, .failed],
      ∀ b ∈ [ToolPhase.succeeded, .failed],
      (if c then a else b) ∈ [ToolPhase.succeeded, .failed] := by
    intro c _ a ha b hb
    by_cases hc : c
    · rwa [if_pos hc]
    · rwa [if_neg hc]
  cases h with
  | @cancelled _ _ _ _ r kind inspected unsettled =>
    refine ⟨r, inspected, rfl, rfl, fun production hvalid => ?_⟩
    have hopen := unsettled_open hvalid.state unsettled
    exact hneither "cancel" (by decide) kind production
      ((cancelled_taken_up hvalid hopen).valid hvalid (cancelled_anchor_ok hvalid))
  | @prepared _ _ _ _ r _ result kind inspected going finalizes =>
    obtain ⟨_, _, _, _, _, _, hdecided⟩ := hbacked.load (inspectRun_ok.mp inspected).1
    have hanswered := finalize_answered hbacked.kept hdecided finalizes
    refine ⟨r, inspected, rfl, rfl, fun production hvalid => ?_⟩
    have htaken : TakenUp r (prepared around r result) :=
      anchored_taken_up hvalid going (by decide) hanswered hvalid.state (hgoing r going)
    have hanchor : checkAnchor (prepared around r result) = .ok () ↔
        Agrees (prepared around r result) := by
      unfold Agrees
      rw [prepared_verification]
      exact prepare_anchor_iff hvalid hanswered (hphase _ _ (by decide) _ (by decide))
    constructor
    · exact fun h _ => hanchor.mp h.anchor
    · exact fun h => htaken.valid hvalid (hanchor.mpr (h kind))
  | @refused _ _ _ _ r tx message kind inspected going unverified =>
    refine ⟨r, inspected, rfl, rfl, fun production hvalid => ?_⟩
    exact hneither "anchor_transaction_observed" (by decide) kind production
      ((anchored_taken_up hvalid going (by decide) refusal_answered (redecide_valid _)
        (by decide)).valid hvalid (verify_anchor_ok refusal_answered (by decide)))
  | @observed _ _ _ _ r tx _ result kind inspected going unverified finalizes =>
    obtain ⟨_, _, _, _, _, _, hdecided⟩ := hbacked.load (inspectRun_ok.mp inspected).1
    have hanswered := finalize_answered hbacked.kept hdecided finalizes
    refine ⟨r, inspected, rfl, rfl, fun production hvalid => ?_⟩
    exact hneither "anchor_transaction_observed" (by decide) kind production
      ((anchored_taken_up hvalid going (by decide) hanswered hvalid.state
        (hgoing r going)).valid hvalid (verify_anchor_ok hanswered
          (hphase _ _ (by decide) _ (by decide))))

/-- A run that was taken up is read back from its row as it is. -/
theorem resumed_row_loads [NonemptyDigest] {agent : MemoryGuardAgent}
    {around : ResumeSurroundings} {run_id : String} {signal : AgentHumanSignal}
    {ledger : Dict Digest Json} (hbacked : Backed stores)
    (h : Saves stores (.resume agent around run_id signal) memory actions w) {r : AgentRun}
    (hinspected : inspectRun agent.production stores.ledger run_id = .ok r)
    (hdecision : w.decision = r.decision)
    (hrow : ledger.get? (runKey w.run_id) = some (envelope w)) :
    loadRun ledger w.run_id = .ok (some { w with artifacts := byKey w.artifacts }) ∧
      (w.artifacts.map Prod.fst).Nodup := by
  obtain ⟨v, a, _, ha, rfl, _, _⟩ := hbacked.load (inspectRun_ok.mp hinspected).1
  have hfiled := (filed_continued hbacked.ordered (saves_origin h)).2.2
  have hamount : floatOf (.num w.decision.intent.amount_usd) = .ok a := by
    rw [hdecision]
    exact floatOf_floatOf ha
  have hreread : w.decision.reread a = w.decision := by
    rw [hdecision]
    exact reread_decision v.decision a
  exact ⟨hfiled.load hrow hamount hreread, hfiled.keys⟩

theorem loadRun_congr {ledger : Dict Digest Json} {run_id run_id' : String}
    (h : runKey run_id = runKey run_id') : loadRun ledger run_id = loadRun ledger run_id' := by
  unfold loadRun
  rw [h]

omit [Interpreter] in
theorem valid_agrees {production : Bool} (h : ValidRun production r) : Agrees r := by
  intro v hv
  have hentry : (verifyTool, v) ∈ r.artifacts := Dict.mem_of_find hv
  have hproof : proofArtifact r.artifacts = some v := by
    unfold proofArtifact
    rw [hv]
    simp [Option.filter, truthy_of_field (h.artifacts _ hentry).inert]
  exact ((checkAnchor_some hproof rfl).mp h.anchor).1

/-- A run that is answered when it is taken up can be inspected and taken up again
if and only if it was not prepared for the anchor while it had a verification of
another state. -/
theorem resumed_run_inspects_iff [HexDigest] {agent : MemoryGuardAgent}
    {around : ResumeSurroundings} {run_id : String} {signal : AgentHumanSignal}
    (hrun : Run agency (before ++ [s]) stores) (hcall : s.call = .resume agent around run_id signal)
    (hanswered : s.answered = .ok (.run r)) :
    (∃ r', inspectRun agent.production stores.ledger r.run_id = .ok r') ↔
      (signal.kind = "prepare_anchor" → Agrees r) := by
  have := HexDigest.nonempty
  obtain ⟨hpre, hnow, rfl⟩ := hrun.snoc
  have hbacked := backed_of_run hpre
  have hserve := hnow.1
  rw [hcall] at hserve
  rcases serve_cases hserve with hunsaved | ⟨memory, actions, w, hsaves, hsaved⟩
  · obtain ⟨id, hinspected⟩ := hunsaved.answers r hanswered
    obtain ⟨hload, hvalid⟩ := inspectRun_ok.mp hinspected
    obtain ⟨v, amount, hv, _, rfl, hkey, _⟩ := hbacked.load hload
    have hagain : loadRun (agency.post s).ledger v.run_id = .ok (some (v.reread amount)) := by
      change loadRun s.post.ledger v.run_id = _
      rw [hunsaved.ledger, ← loadRun_congr hkey]
      exact hload
    exact iff_of_true ⟨_, inspectRun_ok.mpr ⟨hagain, hvalid⟩⟩
      fun _ => valid_agrees (validateRun_ok.mp hvalid)
  · obtain ⟨hsame, hledger⟩ := hsaved.answers _ hanswered
    cases hsame
    obtain ⟨r₀, hinspected, _, hdecision, hiff⟩ := resumed_valid_iff hbacked hsaves
    have hvalid := validateRun_ok.mp (inspectRun_ok.mp hinspected).2
    have hrow : s.post.ledger.get? (runKey r.run_id) = some (envelope r) := by
      rw [hledger]
      exact Dict.get?_set_self ..
    obtain ⟨hload, hkeys⟩ := resumed_row_loads hbacked hsaves hinspected hdecision hrow
    rw [← hiff _ hvalid, ← valid_byKey_iff hkeys, ← validateRun_ok]
    constructor
    · intro h
      obtain ⟨r', hr'⟩ := h
      obtain ⟨hread, hvalid⟩ := inspectRun_ok.mp hr'
      rw [show loadRun (agency.post s).ledger r.run_id = _ from hload] at hread
      cases hread
      exact hvalid
    · exact fun h => ⟨_, inspectRun_ok.mpr ⟨hload, h⟩⟩

omit [Interpreter] in
/-- A valid run that was taken up is authorised, also where it is not valid. -/
theorem TakenUp.authorised {production : Bool} (h : TakenUp r w) (hvalid : ValidRun production r)
    (hanchor : w.anchor_state ≠ .notConfigured → ∃ name ∈ [prepareTool, verifyTool], ∃ artifact,
      Dict.find name w.artifacts = some artifact ∧
        field "proof_root" artifact = some (.str w.decision.proof_root)) : Authorised w := by
  have hbefore := valid_authorised hvalid
  have hdecision : w.decision = r.decision := by rw [h.same]
  have hrequested : w.model_requested_safe_tools = r.model_requested_safe_tools := by rw [h.same]
  obtain ⟨clock, notes, htrace, hnotes⟩ := h.recorded
  have hplain : ∀ tool ∈ ["agent.cancel", prepareTool, verifyTool],
      tool ∈ knownTools ∧ tool ∉ registeredTools := by decide
  have hanchors : ∀ tool ∈ [prepareTool, verifyTool], tool ∉ registeredTools := by decide
  have hentry : ∀ e ∈ w.artifacts, e.1 ∈ registeredTools → e ∈ r.artifacts := by
    intro e he hregistered
    rcases h.artifacts e he with hold | ⟨htool, _⟩
    · exact hold
    · exact absurd hregistered (hanchors _ htool)
  have hname : ∀ name ∈ registeredTools, name ∈ w.artifacts.map Prod.fst →
      name ∈ r.artifacts.map Prod.fst := by
    intro name hregistered hmem
    obtain ⟨artifact, he⟩ := exists_artifact hmem
    exact List.mem_map_of_mem (hentry _ he hregistered)
  refine ⟨?_, ?_, ?_, ?_, ?_, ?_, ?_, ?_, hanchor⟩
  · rw [h.same]
    exact hbefore.inert
  · rw [hdecision]
    exact fun hmem => hbefore.review (hname _ (by simp [registeredTools]) hmem)
  · rw [hdecision]
    exact fun hmem => hbefore.escalation (hname _ (by simp [registeredTools]) hmem)
  · rw [hrequested]
    exact fun hmem => hbefore.brief (hname _ (by simp [registeredTools]) hmem)
  · intro e he
    rw [hdecision]
    rcases h.artifacts e he with hold | ⟨_, _, hid, hinert⟩
    · exact hbefore.artifacts e hold
    · refine ⟨hinert, ?_⟩
      intro v hv _
      rw [hid] at hv
      exact (Option.some.inj hv).symm
  · rw [htrace]
    refine record_all hbefore.unknown ?_
    exact fun note hnote _ _ hunknown => absurd (hplain _ (hnotes note hnote).1).1 hunknown
  · rw [htrace, hdecision]
    refine record_all hbefore.forbidden ?_
    exact fun note hnote _ _ hregistered => absurd hregistered (hplain _ (hnotes note hnote).1).2
  · intro _
    rw [hdecision]
    have hregistered := mandatoryTool_registered r.decision.verdict
    obtain ⟨artifact, he⟩ := exists_artifact (h.kept _ (hvalid.mandatory h.going.1))
    obtain ⟨event, hevent, hput⟩ := artifact_traced hvalid hregistered (hentry _ he hregistered)
    exact ⟨artifact, he, event, htrace ▸ record_prefix.subset hevent, hput⟩

omit [Interpreter] in
/-- The anchor of a run that got an answer is of its decision. -/
theorem anchored_root {around : ResumeSurroundings} {tool signal reason : String}
    {payload artifact : Json} {phase : ToolPhase} {state : AnchorState} {next : AgentState}
    (htool : tool ∈ [prepareTool, verifyTool]) (hanswered : Answered r state artifact) :
    ∃ name ∈ [prepareTool, verifyTool], ∃ found, Dict.find name
      { anchored around r tool signal payload phase reason state artifact with
        state := next }.artifacts = some found ∧
      field "proof_root" found = some (.str r.decision.proof_root) :=
  ⟨tool, htool, artifact, (Dict.find_put ..).trans (if_pos rfl), hanswered.root⟩

/-- Whatever a call comes to save is authorised by the verdict of its decision. -/
theorem saves_authorised [HexDigest] (hbacked : Backed stores)
    (h : Saves stores call memory actions w) : Authorised w := by
  have hgoing : ∀ r : AgentRun, r.state ∉ stoppedStates → r.state ≠ .haltActionUnavailable := by
    intro r hr hhalt
    exact hr (by simp [hhalt, stoppedStates])
  have hprepare : prepareTool ∈ [prepareTool, verifyTool] := by decide
  have hverify : verifyTool ∈ [prepareTool, verifyTool] := by decide
  cases h with
  | new absent decides takes valid => exact valid_authorised (validateRun_ok.mp valid)
  | cancelled kind inspected unsettled =>
    have hvalid := validateRun_ok.mp (inspectRun_ok.mp inspected).2
    have hopen := unsettled_open hvalid.state unsettled
    have hanchor := validRun_anchor hvalid
    exact (cancelled_taken_up hvalid hopen).authorised hvalid hanchor
  | @prepared _ _ _ _ r _ result kind inspected going finalizes =>
    have hvalid := validateRun_ok.mp (inspectRun_ok.mp inspected).2
    obtain ⟨_, _, _, _, _, _, hdecided⟩ := hbacked.load (inspectRun_ok.mp inspected).1
    have hanswered := finalize_answered hbacked.kept hdecided finalizes
    exact (anchored_taken_up hvalid going hprepare hanswered hvalid.state
      (hgoing r going)).authorised hvalid fun _ => anchored_root hprepare hanswered
  | refused kind inspected going unverified =>
    have hvalid := validateRun_ok.mp (inspectRun_ok.mp inspected).2
    exact (anchored_taken_up hvalid going hverify refusal_answered (redecide_valid _)
      (by decide)).authorised hvalid fun _ => anchored_root hverify refusal_answered
  | @observed _ _ _ _ r tx _ result kind inspected going unverified finalizes =>
    have hvalid := validateRun_ok.mp (inspectRun_ok.mp inspected).2
    obtain ⟨_, _, _, _, _, _, hdecided⟩ := hbacked.load (inspectRun_ok.mp inspected).1
    have hanswered := finalize_answered hbacked.kept hdecided finalizes
    exact (anchored_taken_up hvalid going hverify hanswered hvalid.state
      (hgoing r going)).authorised hvalid fun _ => anchored_root hverify hanswered

/-- Every run that the ledger keeps and every run that is answered is authorised
by the verdict of its decision, whatever the planning model asks for, whatever
fails, and however often runs are taken up again. -/
theorem agency_authorised [HexDigest] (hrun : Run agency steps stores) :
    (∀ k row, stores.ledger.get? k = some row → ∃ w, row = envelope w ∧ Authorised w) ∧
      ∀ s ∈ steps, ∀ r, s.answered = .ok (.run r) → Authorised r := by
  have := HexDigest.nonempty
  refine ⟨?_, ?_⟩
  · have hstep : ∀ done s, Run agency done s.pre → agency.allowed done s →
        (∀ k row, s.pre.ledger.get? k = some row → ∃ w, row = envelope w ∧ Authorised w) →
        ∀ k row, s.post.ledger.get? k = some row → ∃ w, row = envelope w ∧ Authorised w := by
      intro done s hpre hnow hall k row hrow
      rcases serve_cases hnow.1 with hunsaved | ⟨memory, actions, w, hsaves, hsaved⟩
      · rw [hunsaved.ledger] at hrow
        exact hall k row hrow
      · rcases hsaved.files with hledger | hledger
        · rw [hledger, filed, Dict.get?_set] at hrow
          by_cases hk : runKey w.run_id = k
          · rw [if_pos hk] at hrow
            exact ⟨w, (Option.some.inj hrow).symm, saves_authorised (backed_of_run hpre) hsaves⟩
          · rw [if_neg hk] at hrow
            exact hall k row hrow
        · rw [hledger] at hrow
          exact hall k row hrow
    exact Run.invariant (fun stores : Stores => ∀ k row, stores.ledger.get? k = some row →
      ∃ w, row = envelope w ∧ Authorised w) (fun k row hrow => by cases hrow) hstep hrun
  · intro s hs r hanswered
    obtain ⟨before, after, rfl⟩ := List.append_of_mem hs
    obtain ⟨hpre, hnow, _⟩ := hrun.at_step
    rcases serve_cases hnow.1 with hunsaved | ⟨memory, actions, w, hsaves, hsaved⟩
    · obtain ⟨id, hinspected⟩ := hunsaved.answers r hanswered
      exact valid_authorised (validateRun_ok.mp (inspectRun_ok.mp hinspected).2)
    · obtain ⟨hsame, _⟩ := hsaved.answers _ hanswered
      cases hsame
      exact saves_authorised (backed_of_run hpre) hsaves

end Resumed

section Specimen

variable [Unicode] [Interpreter] [Sha256] {deciding : DecisionSurroundings} {d : DecisionDraft}
  {stores : Stores} {agent : MemoryGuardAgent} {around : ResumeSurroundings} {run_id : String}
  {r : AgentRun}

theorem resume_cancel (hinspect : inspectRun agent.production stores.ledger run_id = .ok r)
    (hopen : r.state ∉ settledStates) (hsaving : around.saving = none) :
    resume agent around stores run_id ⟨"cancel", none⟩ =
      (⟨stores.memory, stores.actions, filed stores.ledger (cancelled around r)⟩,
        .ok (cancelled around r)) := by
  unfold resume
  rw [hinspect]
  dsimp only
  rw [if_pos rfl, if_neg hopen, hsaving]
  rfl

/-- The run of a payment that waits for its review, as it is inspected. -/
structure Waits (d : DecisionDraft) (t : AgentStep) (r : AgentRun) : Prop where
  ran : Run agency ([] ++ [t]) t.post
  remembered : t.post.memory = saveDecision Vault.blank d
  inspected : inspectRun localAgent.production t.post.ledger r.run_id = .ok r
  state : r.state = .awaitHumanReview
  anchor : r.anchor_state = .notConfigured
  decision : r.decision = d

theorem exists_waiting [HexDigest] [PlainAscii] (h : Undecided deciding d) :
    ∃ t r, Waits d t r := by
  obtain ⟨t, r, hrun, _, hmemory, hledger, hfiled, hvalid, hstate, hdecision, hanchor⟩ :=
    exists_answered_run h.decided h.verdict
  have hrow : t.post.ledger.get? (runKey r.run_id) = some (envelope r) := by
    rw [hledger]
    exact Dict.get?_set_self ..
  have hfloat : floatOf (.num r.decision.intent.amount_usd) = .ok (pointZero 75) := by
    rw [hdecision, h.amount]
    exact floatOf_floating (integer_pointZero 75)
  have hread : r.decision.reread (pointZero 75) = r.decision := by
    rw [hdecision]
    exact h.read
  exact ⟨t, { r with artifacts := byKey r.artifacts }, hrun, hmemory,
    inspectRun_ok.mpr ⟨hfiled.load hrow hfloat hread,
      validateRun_ok.mpr ((valid_byKey_iff hfiled.keys).mpr (validateRun_ok.mp hvalid))⟩,
    hstate, hanchor, hdecision⟩

/-- A person cancels the run that waits for a review. -/
theorem exists_cancelled_run [HexDigest] [PlainAscii] (h : Undecided deciding d)
    (around : ResumeSurroundings) (hsaving : around.saving = none) :
    ∃ (t s : AgentStep) (r : AgentRun) (run_id : String), Run agency ([t] ++ [s]) s.post ∧
      s.call = .resume localAgent around run_id ⟨"cancel", none⟩ ∧
      s.answered = .ok (.run r) ∧ r.state = .cancelled := by
  obtain ⟨t, r, hwaits⟩ := exists_waiting h
  have hopen : r.state ∉ settledStates := by
    rw [hwaits.state]
    decide
  have hcancel : resume localAgent around t.post r.run_id _ = _ :=
    resume_cancel hwaits.inspected hopen hsaving
  let s : AgentStep := ⟨.resume localAgent around r.run_id ⟨"cancel", none⟩, t.post,
    ⟨t.post.memory, t.post.actions, filed t.post.ledger (cancelled around r)⟩,
    .ok (.run (cancelled around r))⟩
  exact ⟨t, s, _, r.run_id, .next hwaits.ran ⟨serve_resume hcancel, fun id hid => by cases hid⟩,
    rfl, rfl, rfl⟩

omit [Unicode] [Interpreter] [Sha256] in
theorem cancelled_payment_inspects :
    letI := asciiTables
    letI := SecureHash.secureHash
    letI := strictInterpreter
    ∃ (s : AgentStep) (r r' : AgentRun), s.answered = .ok (.run r) ∧ r.state = .cancelled ∧
      inspectRun false s.post.ledger r.run_id = .ok r' := by
  let _ := asciiTables
  let _ := SecureHash.secureHash
  let _ := strictInterpreter
  have := SecureHash.secureHash_hex
  have := asciiTables_plain
  obtain ⟨deciding, d, h⟩ := exists_undecided
  let around : ResumeSurroundings :=
    ⟨noon (some .utc), fun _ => noon (some .utc), noon (some .utc), none⟩
  obtain ⟨t, s, r, run_id, hrun, hcall, hanswered, hstate⟩ :=
    exists_cancelled_run h around rfl
  have hkind : "cancel" ≠ "prepare_anchor" := by decide
  obtain ⟨r', hr'⟩ := (resumed_run_inspects_iff hrun hcall hanswered).mpr
    fun hprepare => absurd hprepare hkind
  exact ⟨s, r, r', hanswered, hstate, hr'⟩

omit [Unicode] [Interpreter] [Sha256] in
theorem cancelled_payment_authorised :
    letI := asciiTables
    letI := SecureHash.secureHash
    letI := strictInterpreter
    ∃ (s : AgentStep) (r : AgentRun), s.answered = .ok (.run r) ∧ r.state = .cancelled ∧
      Authorised r := by
  let _ := asciiTables
  let _ := SecureHash.secureHash
  let _ := strictInterpreter
  have := SecureHash.secureHash_hex
  have := asciiTables_plain
  obtain ⟨deciding, d, h⟩ := exists_undecided
  let around : ResumeSurroundings :=
    ⟨noon (some .utc), fun _ => noon (some .utc), noon (some .utc), none⟩
  obtain ⟨t, s, r, run_id, hrun, _, hanswered, hstate⟩ :=
    exists_cancelled_run h around rfl
  have hlast : s ∈ [t] ++ [s] := List.mem_append_right _ (List.mem_singleton.mpr rfl)
  exact ⟨s, r, hanswered, hstate, (agency_authorised hrun).2 s hlast r hanswered⟩

end Specimen

end MemoryGuard.RunValidity
