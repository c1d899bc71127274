import MemoryGuard.RunValidity

/-!
How long a run stays open to inspection. Whether a run that is saved again is
valid is decided before it is saved: a preparation of the anchor must find the
decision in the state that the run was verified in. While every step keeps to
that, a run that could once be inspected can always be inspected.
-/
namespace MemoryGuard.Inspectable

open OrderedDict JsonText Guarded ContentHash CanonicalText IsoText JsonReading Numbers
open Observations PaymentPolicy Observing Decisions AgentRuns AgentRules AgentAuthority
open Finalizing Traces Agency PlanGates RunStories RunValidity
open Pollution (vendorPayment)

section Standing

/-- The state of a decision that is finalized for the first time and without a
transaction. -/
def openState (d : DecisionDraft) (plan : Option AnchorPlan) : AnchorState :=
  if plan.isSome then .confirmationRequired
  else if d.verdict = .ready then .failed
  else .localFinalized

theorem planned_state (d : DecisionDraft) (plan : Option AnchorPlan) :
    (Finalizing.planned d plan).state = openState d plan := by
  unfold Finalizing.planned openState
  split
  · rfl
  · split
    · rfl
    · rfl

variable [Unicode] [Interpreter] [Sha256] {guard : Guard} {anchor : AnchorPort} {now : DateTime}
  {vault vault' : Vault} {decision_id : String} {result : FinalizationResult}

/-- The state in which a decision stands while no transaction is named for it. -/
inductive Stands (anchor : AnchorPort) (vault : Vault) (decision_id : String)
    (d : DecisionDraft) : AnchorState → Prop
  | stored {existing : FinalizationResult}
      (loaded : loadFinalization vault decision_id = .ok (some existing)) :
      Stands anchor vault decision_id d existing.state
  | opened {plan : Option AnchorPlan} (new : loadFinalization vault decision_id = .ok none)
      (plans : anchor.plan d = .ok plan) : Stands anchor vault decision_id d (openState d plan)

/-- A call without a transaction answers in the state in which the decision stands. -/
theorem finalize_stands
    (h : finalize guard anchor now vault decision_id none = .ok (vault', result)) :
    ∃ d, loadDecision vault decision_id = .ok (some d) ∧
      ∀ state, Stands anchor vault decision_id d state ↔ state = result.state := by
  have hnone : supplied none = none := rfl
  simp only [finalize, hnone, bind_eq_ok] at h
  obtain ⟨d, hfinalizable, stored, hstored, answered, hanswered, h⟩ := h
  refine ⟨d, (finalizable_ok hfinalizable).loaded, ?_⟩
  intro state
  cases stored with
  | some existing =>
    cases answered with
    | some answer =>
      obtain ⟨rfl, _⟩ := answerExisting_some hanswered
      simp only [pure_eq_ok, Prod.mk.injEq] at h
      obtain ⟨_, rfl⟩ := h
      constructor
      · intro hstands
        cases hstands with
        | stored loaded =>
          rw [hstored] at loaded
          cases loaded
          rfl
        | opened new plans =>
          rw [hstored] at new
          cases new
      · rintro rfl
        exact .stored hstored
    | none =>
      obtain ⟨hash, hsame, _⟩ := answerExisting_none hanswered
      cases hsame
  | none =>
    cases hanswered
    simp only [bind_eq_ok, pure_eq_ok, Prod.mk.injEq] at h
    obtain ⟨plan, hplans, _, rfl⟩ := h
    rw [planned_state]
    constructor
    · intro hstands
      cases hstands with
      | stored loaded =>
        rw [hstored] at loaded
        cases loaded
      | opened new plans =>
        rw [hplans] at plans
        cases plans
        rfl
    · rintro rfl
      exact .opened hstored hplans

end Standing

section Agreeing

variable [Unicode] [Interpreter] [Sha256] {memory : Vault} {actions : Dict Digest Json}
  {r w : AgentRun} {s : AgentStep} {agent : MemoryGuardAgent} {around : ResumeSurroundings}
  {run_id : String} {signal : AgentHumanSignal}

/-- The step does not prepare the anchor of a run that has a verification of
another state than the one in which its decision stands. -/
def AnchorAgrees (s : AgentStep) : Prop :=
  ∀ agent around run_id signal r v d, s.call = .resume agent around run_id signal →
    signal.kind = "prepare_anchor" → inspectRun agent.production s.pre.ledger run_id = .ok r →
    Dict.find verifyTool r.artifacts = some v →
    loadDecision s.pre.memory r.decision.decision_id = .ok (some d) →
    Stands agent.anchor s.pre.memory r.decision.decision_id d r.anchor_state

omit [Unicode] [Interpreter] [Sha256] in
theorem text_inj {a b : AnchorState} (h : a.text = b.text) : a = b := by
  have hread := AnchorState.ofText_text a
  rw [h, AnchorState.ofText_text b] at hread
  exact (Except.ok.inj hread).symm

theorem saved_agrees_iff (hcall : s.call = .resume agent around run_id signal)
    (h : Saves s.pre (.resume agent around run_id signal) memory actions w) :
    (signal.kind = "prepare_anchor" → Agrees w) ↔ AnchorAgrees s := by
  by_cases hprepare : signal.kind = "prepare_anchor"
  · cases h with
    | cancelled kind => exact absurd (kind.symm.trans hprepare) (by decide)
    | refused kind => exact absurd (kind.symm.trans hprepare) (by decide)
    | observed kind => exact absurd (kind.symm.trans hprepare) (by decide)
    | @prepared _ _ _ _ r _ result kind inspected going finalizes =>
      obtain ⟨d, hloaded, hstands⟩ := finalize_stands finalizes
      have hagrees := valid_agrees (validateRun_ok.mp (inspectRun_ok.mp inspected).2)
      constructor
      · intro hafter agent' around' run_id' signal' r' v d' hcall' _ hinspected hv hd
        cases hcall.symm.trans hcall'
        rw [inspected] at hinspected
        cases hinspected
        rw [hloaded] at hd
        cases hd
        have hbefore := hagrees v hv
        have hsame := hafter kind v (prepared_verification.trans hv)
        rw [hbefore] at hsame
        simp only [Option.some.injEq, Json.str.injEq] at hsame
        exact (hstands _).mpr (text_inj hsame)
      · intro hbefore _ v hv
        have hv := prepared_verification.symm.trans hv
        have hstate := (hstands _).mp
          (hbefore agent around run_id signal r v d hcall kind inspected hv hloaded)
        rw [hagrees v hv, hstate]
        rfl
  · refine iff_of_true (fun hthis => absurd hthis hprepare) ?_
    intro agent' around' run_id' signal' r' v d hcall' hthis
    cases hcall.symm.trans hcall'
    exact absurd hthis hprepare

end Agreeing

section Runs

variable [Unicode] [Interpreter] [Sha256] [HexDigest] {before after steps : List AgentStep}
  {mid stores : Stores} {s : AgentStep} {memory : Vault} {actions : Dict Digest Json}
  {w : AgentRun}

/-- What a call saves over a run that can be inspected can be inspected too. -/
theorem saved_inspects {call : AgentCall} {ledger : Dict Digest Json} {production : Bool}
    {run_id : String} {r : AgentRun} (hbacked : Backed s.pre) (hcall : s.call = call)
    (h : Saves s.pre call memory actions w) (hagrees : AnchorAgrees s)
    (hkey : runKey w.run_id = runKey run_id)
    (hrow : ledger.get? (runKey w.run_id) = some (envelope w))
    (hinspected : inspectRun production s.pre.ledger run_id = .ok r) :
    ∃ r', inspectRun production ledger run_id = .ok r' := by
  have := HexDigest.nonempty
  obtain ⟨hload, hvalid⟩ := inspectRun_ok.mp hinspected
  cases call with
  | guard => cases h
  | inspect => cases h
  | run agent around goal =>
    cases h with
    | new absent =>
      rw [loadRun_congr (show runKey (runId goal) = runKey run_id from hkey), hload] at absent
      cases absent
  | resume agent around id signal =>
    obtain ⟨v, hv, hid, hdecision, hiff⟩ := resumed_valid_iff hbacked h
    obtain ⟨u, amount, _, _, rfl, hu, _⟩ := hbacked.load (inspectRun_ok.mp hv).1
    have hsame : runKey id = runKey run_id := by
      rw [hid] at hkey
      exact hu.trans hkey
    have hthis := (inspectRun_ok.mp hv).1
    rw [loadRun_congr hsame, hload] at hthis
    cases hthis
    obtain ⟨hagain, hkeys⟩ := resumed_row_loads hbacked h hv hdecision hrow
    rw [loadRun_congr hkey] at hagain
    have hw := (hiff production (validateRun_ok.mp hvalid)).mpr
      ((saved_agrees_iff hcall h).mpr hagrees)
    exact ⟨_, inspectRun_ok.mpr ⟨hagain, validateRun_ok.mpr ((valid_byKey_iff hkeys).mpr hw)⟩⟩

/-- A run that can be inspected can be inspected after a step that agrees. -/
theorem step_inspects {production : Bool} {run_id : String} (hbacked : Backed s.pre)
    (hnow : agency.allowed steps s) (hagrees : AnchorAgrees s)
    (h : ∃ r, inspectRun production s.pre.ledger run_id = .ok r) :
    ∃ r, inspectRun production s.post.ledger run_id = .ok r := by
  rcases serve_cases hnow.1 with hunsaved | ⟨memory, actions, w, hsaves, hsaved⟩
  · rw [hunsaved.ledger]
    exact h
  · rcases hsaved.files with hledger | hledger
    · by_cases hkey : runKey w.run_id = runKey run_id
      · obtain ⟨r, hr⟩ := h
        have hrow : s.post.ledger.get? (runKey w.run_id) = some (envelope w) := by
          rw [hledger]
          exact Dict.get?_set_self ..
        exact saved_inspects hbacked rfl hsaves hagrees hkey hrow hr
      · have hsame : loadRun s.post.ledger run_id = loadRun s.pre.ledger run_id := by
          unfold loadRun
          rw [hledger, filed, Dict.get?_set_of_ne _ _ hkey]
        obtain ⟨r, hr⟩ := h
        obtain ⟨hload, hvalid⟩ := inspectRun_ok.mp hr
        exact ⟨r, inspectRun_ok.mpr ⟨hsame.trans hload, hvalid⟩⟩
    · rw [hledger]
      exact h

/-- A run that is saved when it is taken up is valid if and only if the step
agrees. While the steps agree, whatever could be inspected still can. -/
theorem resumed_runs_stay_valid (hmid : Run agency before mid)
    (hrun : Run agency (before ++ after) stores) :
    (∀ s ∈ before ++ after, ∀ agent around run_id signal,
      s.call = .resume agent around run_id signal → ∀ k row, s.post.ledger.get? k = some row →
      s.pre.ledger.get? k ≠ some row →
        ∃ w, row = envelope w ∧ (validateRun agent.production w = .ok () ↔ AnchorAgrees s)) ∧
    ((∀ s ∈ after, AnchorAgrees s) → ∀ production run_id r,
      inspectRun production mid.ledger run_id = .ok r →
        ∃ r', inspectRun production stores.ledger run_id = .ok r') := by
  have := HexDigest.nonempty
  constructor
  · intro s hs agent around run_id signal hcall k row hrow hnew
    obtain ⟨earlier, later, hsteps⟩ := List.append_of_mem hs
    obtain ⟨hpre, hnow, _⟩ := (hsteps ▸ hrun).at_step
    rcases serve_cases hnow.1 with hunsaved | ⟨memory, actions, w, hsaves, hsaved⟩
    · exact absurd (hunsaved.ledger ▸ hrow) hnew
    · rcases hsaved.files with hledger | hledger
      · rw [hledger, filed, Dict.get?_set] at hrow
        by_cases hk : runKey w.run_id = k
        · rw [if_pos hk] at hrow
          rw [hcall] at hsaves
          obtain ⟨r, hinspected, _, _, hiff⟩ := resumed_valid_iff (backed_of_run hpre) hsaves
          have hvalid := validateRun_ok.mp (inspectRun_ok.mp hinspected).2
          refine ⟨w, (Option.some.inj hrow).symm, ?_⟩
          rw [validateRun_ok, hiff _ hvalid]
          exact saved_agrees_iff hcall hsaves
        · rw [if_neg hk] at hrow
          exact absurd hrow hnew
      · exact absurd (hledger ▸ hrow) hnew
  · intro hagrees production run_id r hinspected
    refine Run.since (fun later : Stores =>
      ∃ r', inspectRun production later.ledger run_id = .ok r') hmid ⟨r, hinspected⟩ ?_ hrun
    intro done s rest hafter hbefore hnow h
    exact step_inspects (backed_of_run hbefore) hnow (hagrees s (by simp [hafter])) h

end Runs

section Specimen

/-- A wallet that answers at once, and a ledger that fails at no write. -/
def prompt : ResumeSurroundings :=
  ⟨noon (some .utc), fun _ => noon (some .utc), noon (some .utc), none⟩

variable [Unicode] [Interpreter] [Sha256] {deciding : DecisionSurroundings} {d : DecisionDraft}
  {stores : Stores} {agent : MemoryGuardAgent} {around : ResumeSurroundings} {run_id tx : String}
  {memory : Vault} {result : FinalizationResult} {r : AgentRun}

theorem resume_prepared (hinspect : inspectRun agent.production stores.ledger run_id = .ok r)
    (hgoing : r.state ∉ stoppedStates) (hsaving : around.saving = none)
    (hfinalize : finalize agent.guard agent.anchor around.finalized stores.memory
      r.decision.decision_id none = .ok (memory, result)) :
    resume agent around stores run_id ⟨"prepare_anchor", none⟩ =
      (⟨memory, stores.actions, filed stores.ledger (prepared around r result)⟩,
        .ok (prepared around r result)) := by
  have hcancel : "prepare_anchor" ≠ "cancel" := by decide
  unfold resume
  rw [hinspect]
  dsimp only
  rw [if_neg hcancel, if_neg hgoing, if_pos rfl, hfinalize, hsaving]
  rfl

theorem resume_observed (hinspect : inspectRun agent.production stores.ledger run_id = .ok r)
    (hgoing : r.state ∉ stoppedStates) (hunverified : r.anchor_state ≠ .verified)
    (htx : supplied (some tx) = some tx) (hsaving : around.saving = none)
    (hfinalize : finalize agent.guard agent.anchor around.finalized stores.memory
      r.decision.decision_id (some tx) = .ok (memory, result)) :
    resume agent around stores run_id ⟨"anchor_transaction_observed", some tx⟩ =
      (⟨memory, stores.actions, filed stores.ledger (observedAnchor around r tx result)⟩,
        .ok (observedAnchor around r tx result)) := by
  have hcancel : "anchor_transaction_observed" ≠ "cancel" := by decide
  have hprepare : "anchor_transaction_observed" ≠ "prepare_anchor" := by decide
  unfold resume
  rw [hinspect]
  dsimp only
  rw [if_neg hcancel, if_neg hgoing, if_neg hprepare, if_neg (not_not.mpr rfl), htx]
  dsimp only
  rw [if_neg hunverified, hfinalize, hsaving]
  rfl

/-- The transaction that the payer names. -/
def sentTransaction : String :=
  "0x1111111111111111111111111111111111111111111111111111111111111111"

/-- The run of a payment after no transaction could be confirmed for it. -/
structure Unconfirmed (d : DecisionDraft) (t u : AgentStep) (r : AgentRun) (v : Json) :
    Prop where
  ran : Run agency ([t] ++ [u]) u.post
  before : ∃ r', inspectRun localAgent.production u.pre.ledger r.run_id = .ok r'
  asked : u.call = .resume localAgent prompt r.run_id
    ⟨"anchor_transaction_observed", some sentTransaction⟩
  remembered : u.post.memory = saveDecision Vault.blank d
  inspected : inspectRun localAgent.production u.post.ledger r.run_id = .ok r
  state : r.state = .awaitHumanReview
  decision : r.decision = d
  verification : Dict.find verifyTool r.artifacts = some v
  failed : field "state" v = some (.str "failed")

theorem exists_unconfirmed [HexDigest] [PlainAscii] (h : Undecided deciding d) :
    ∃ t u r v, Unconfirmed d t u r v := by
  have := HexDigest.nonempty
  obtain ⟨t, r, hwaits⟩ := exists_waiting h
  have htx : supplied (some sentTransaction) = some sentTransaction := rfl
  obtain ⟨result, hresult, hfinalize⟩ : ∃ result : FinalizationResult, result.state = .failed ∧
      finalize localAgent.guard localAgent.anchor prompt.finalized t.post.memory
        r.decision.decision_id (some sentTransaction) =
          .ok (saveDecision Vault.blank d, result) := by
    rw [hwaits.remembered, hwaits.decision]
    exact ⟨_, rfl, finalize_verified disabledAnchor h.finalizable
      (unfinalized_decided rfl) htx rfl⟩
  have hgoing : r.state ∉ stoppedStates := by
    rw [hwaits.state]
    decide
  have hunverified : r.anchor_state ≠ .verified := by
    rw [hwaits.anchor]
    decide
  have hresume := resume_observed hwaits.inspected hgoing hunverified htx rfl hfinalize
  obtain ⟨w, hw⟩ : ∃ w, w = observedAnchor prompt r sentTransaction result := ⟨_, rfl⟩
  let u : AgentStep := ⟨.resume localAgent prompt r.run_id
    ⟨"anchor_transaction_observed", some sentTransaction⟩, t.post,
    ⟨saveDecision Vault.blank d, t.post.actions, filed t.post.ledger w⟩, .ok (.run w)⟩
  rw [← hw] at hresume
  have hran : Run agency ([t] ++ [u]) u.post :=
    .next hwaits.ran ⟨serve_resume hresume, fun id hid => by cases hid⟩
  have hsaves : Saves t.post (.resume localAgent prompt r.run_id
      ⟨"anchor_transaction_observed", some sentTransaction⟩) (saveDecision Vault.blank d)
      t.post.actions w :=
    hw ▸ .observed rfl hwaits.inspected hgoing hunverified hfinalize
  have hbacked := backed_of_run hwaits.ran
  obtain ⟨r', hinspected, hid, hdecision, hiff⟩ := resumed_valid_iff hbacked hsaves
  have hvalid := (hiff _ (validateRun_ok.mp (inspectRun_ok.mp hinspected).2)).mpr
    fun hkind => absurd hkind (by decide)
  have hrow : u.post.ledger.get? (runKey w.run_id) = some (envelope w) := Dict.get?_set_self ..
  obtain ⟨hload, hkeys⟩ := resumed_row_loads hbacked hsaves hinspected hdecision hrow
  have hrun_id : w.run_id = r.run_id := hw ▸ rfl
  refine ⟨t, u, { w with artifacts := byKey w.artifacts }, result.toJson, hran, ⟨r, ?_⟩, ?_, rfl,
    inspectRun_ok.mpr ⟨hload, validateRun_ok.mpr ((valid_byKey_iff hkeys).mpr hvalid)⟩, ?_, ?_,
    ?_, ?_⟩
  · exact hrun_id ▸ hwaits.inspected
  · exact hrun_id ▸ rfl
  · exact hw ▸ hwaits.state
  · exact hw ▸ hwaits.decision
  · rw [show AgentRun.artifacts _ = byKey w.artifacts from rfl, find_byKey hkeys, hw]
    exact (Dict.find_put ..).trans (if_pos rfl)
  · rw [field_result, ← show AnchorState.failed.text = "failed" from rfl, ← hresult]
    rfl

/-- A run that is prepared for the anchor after that is saved and lost. -/
theorem exists_lost [HexDigest] [PlainAscii] (h : Undecided deciding d) {t u : AgentStep}
    {v : Json} (hu : Unconfirmed d t u r v) : ∃ (s : AgentStep) (w : AgentRun),
      Run agency (([t] ++ [u]) ++ [s]) s.post ∧ s.pre = u.post ∧
      s.call = .resume localAgent prompt r.run_id ⟨"prepare_anchor", none⟩ ∧
      s.post.ledger.get? (runKey r.run_id) = some (envelope w) ∧
      validateRun localAgent.production w ≠ .ok () ∧
      ∀ r', inspectRun localAgent.production s.post.ledger r.run_id ≠ .ok r' := by
  have := HexDigest.nonempty
  obtain ⟨memory, result, hresult, hfinalize⟩ : ∃ memory result,
      result.state = .localFinalized ∧ finalize localAgent.guard localAgent.anchor
        prompt.finalized u.post.memory r.decision.decision_id none = .ok (memory, result) := by
    rw [hu.remembered, hu.decision]
    refine ⟨_, _, ?_, finalize_first disabledAnchor h.finalizable
      (unfinalized_decided rfl) rfl⟩
    rw [planned_state]
    simp [openState, h.verdict]
  have hgoing : r.state ∉ stoppedStates := by
    rw [hu.state]
    decide
  have hresume := resume_prepared hu.inspected hgoing rfl hfinalize
  obtain ⟨w, hw⟩ : ∃ w, w = prepared prompt r result := ⟨_, rfl⟩
  rw [← hw] at hresume
  let s : AgentStep := ⟨.resume localAgent prompt r.run_id ⟨"prepare_anchor", none⟩, u.post,
    ⟨memory, u.post.actions, filed u.post.ledger w⟩, .ok (.run w)⟩
  have hsaves : Saves u.post (.resume localAgent prompt r.run_id ⟨"prepare_anchor", none⟩) memory
      u.post.actions w := hw ▸ .prepared rfl hu.inspected hgoing hfinalize
  have hbacked := backed_of_run hu.ran
  obtain ⟨r', hinspected, hid, hdecision, hiff⟩ := resumed_valid_iff hbacked hsaves
  have hinvalid : ¬ ValidRun localAgent.production w := by
    intro hvalid
    have hagrees := (hiff _ (validateRun_ok.mp (inspectRun_ok.mp hinspected).2)).mp hvalid rfl v
      (by rw [hw]; exact prepared_verification.trans hu.verification)
    rw [hu.failed, hw] at hagrees
    change some (Json.str "failed") = some (Json.str result.state.text) at hagrees
    rw [hresult] at hagrees
    exact absurd hagrees (by decide)
  have hrow : s.post.ledger.get? (runKey w.run_id) = some (envelope w) := Dict.get?_set_self ..
  obtain ⟨hload, hkeys⟩ := resumed_row_loads hbacked hsaves hinspected hdecision hrow
  have hlost : ∀ q, inspectRun localAgent.production s.post.ledger w.run_id ≠ .ok q := by
    intro q hq
    obtain ⟨hread, hok⟩ := inspectRun_ok.mp hq
    rw [hload] at hread
    cases hread
    exact hinvalid ((valid_byKey_iff hkeys).mp (validateRun_ok.mp hok))
  have hrun_id : w.run_id = r.run_id := hw ▸ rfl
  rw [hrun_id] at hlost hrow
  exact ⟨s, w, .next hu.ran ⟨serve_resume hresume, fun id hid => by cases hid⟩, rfl, rfl, hrow,
    fun hok => hinvalid (validateRun_ok.mp hok), hlost⟩

omit [Unicode] [Interpreter] [Sha256] in
/-- The anchor of the run is prepared after no transaction could be confirmed, and
the run that is saved then can never be inspected again. -/
theorem prepared_run_is_lost :
    letI := asciiTables
    letI := SecureHash.secureHash
    letI := strictInterpreter
    ∃ (t u s : AgentStep) (run_id : String) (w : AgentRun),
      Run agency (([t] ++ [u]) ++ [s]) s.post ∧ s.pre = u.post ∧
      u.call = .resume localAgent prompt run_id
        ⟨"anchor_transaction_observed", some sentTransaction⟩ ∧
      s.call = .resume localAgent prompt run_id ⟨"prepare_anchor", none⟩ ∧
      (∃ r, inspectRun localAgent.production s.pre.ledger run_id = .ok r) ∧
      s.post.ledger.get? (runKey run_id) = some (envelope w) ∧
      validateRun localAgent.production w ≠ .ok () ∧
      ∀ r, inspectRun localAgent.production s.post.ledger run_id ≠ .ok r := by
  let _ := asciiTables
  let _ := SecureHash.secureHash
  let _ := strictInterpreter
  have := SecureHash.secureHash_hex
  have := asciiTables_plain
  obtain ⟨deciding, d, h⟩ := exists_undecided
  obtain ⟨t, u, r, v, hu⟩ := exists_unconfirmed h
  obtain ⟨s, w, hrun, hpre, hcall, hrow, hinvalid, hlost⟩ := exists_lost h hu
  exact ⟨t, u, s, r.run_id, w, hrun, hpre, hu.asked, hcall, ⟨r, hpre ▸ hu.inspected⟩, hrow,
    hinvalid, hlost⟩

omit [Unicode] [Interpreter] [Sha256] in
/-- While no anchor is prepared the run can be inspected. -/
theorem unconfirmed_run_inspects :
    letI := asciiTables
    letI := SecureHash.secureHash
    letI := strictInterpreter
    ∃ (t u : AgentStep) (run_id : String) (r : AgentRun), Run agency ([t] ++ [u]) u.post ∧
      u.call = .resume localAgent prompt run_id
        ⟨"anchor_transaction_observed", some sentTransaction⟩ ∧
      inspectRun localAgent.production u.post.ledger run_id = .ok r := by
  let _ := asciiTables
  let _ := SecureHash.secureHash
  let _ := strictInterpreter
  have := SecureHash.secureHash_hex
  have := asciiTables_plain
  obtain ⟨deciding, d, h⟩ := exists_undecided
  obtain ⟨t, u, r, v, hu⟩ := exists_unconfirmed h
  obtain ⟨hpre, _, _⟩ := hu.ran.snoc
  obtain ⟨r₀, hbefore⟩ := hu.before
  have hagrees : ∀ s ∈ [u], AnchorAgrees s := by
    intro s hs agent around run_id signal r v d hcall hkind
    rw [List.mem_singleton.mp hs, hu.asked] at hcall
    cases hcall
    exact absurd hkind (by decide)
  obtain ⟨_, hstays⟩ := resumed_runs_stay_valid hpre hu.ran
  obtain ⟨r', hr'⟩ := hstays hagrees _ _ _ hbefore
  exact ⟨t, u, r.run_id, r', hu.ran, hu.asked, hr'⟩

end Specimen

end MemoryGuard.Inspectable
