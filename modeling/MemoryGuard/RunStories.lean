import MemoryGuard.PlanGates

/-!
What the ledger keeps of a run while calls go on. A run is never lost and never
decided again: it stays the same run on the same decision, with the safety
actions that it had, and it moves only to states that stop it.
-/
namespace MemoryGuard.RunStories

open OrderedDict JsonText Guarded ContentHash CanonicalText IsoText JsonReading Numbers
open Observations PaymentPolicy Observing Decisions AgentRuns AgentRules AgentAuthority
open Finalizing Traces Agency PlanGates
open Pollution (vendorPayment)

section Stories

/-- The states that a run may go on to. -/
def StateMoves (s s' : AgentState) : Prop :=
  s' = s ∨ s ∈ [.awaitFinalize, .awaitHumanReview] ∧ s' = .cancelled ∨
    s ∈ [.awaitFinalize, .awaitHumanReview, .blockAndEscalate] ∧ s' = .blockAndRedecide

theorem StateMoves.trans {a b c : AgentState} (h : StateMoves a b) (h' : StateMoves b c) :
    StateMoves a c := by
  unfold StateMoves at *
  rcases h with rfl | ⟨ha, rfl⟩ | ⟨ha, rfl⟩
  · exact h'
  · rcases h' with rfl | ⟨hb, _⟩ | ⟨hb, _⟩
    · exact Or.inr (Or.inl ⟨ha, rfl⟩)
    · simp at hb
    · simp at hb
  · rcases h' with rfl | ⟨hb, _⟩ | ⟨hb, _⟩
    · exact Or.inr (Or.inr ⟨ha, rfl⟩)
    · simp at hb
    · simp at hb

theorem StateMoves.stopped {a b : AgentState} (h : StateMoves a b) (ha : a ∈ stoppedStates) :
    b = a := by
  unfold StateMoves at h
  rcases h with rfl | ⟨hopen, _⟩ | ⟨hopen, _⟩
  · rfl
  · cases a <;> simp [stoppedStates] at ha hopen
  · cases a <;> simp [stoppedStates] at ha hopen

variable [Interpreter] {r w v : AgentRun} {amount : Numeral}

/-- A run that goes on from another one: it is the same run on the same decision,
with the safety actions it had, and a trace that only grew; once it has stopped it
stays as it is. -/
structure Follows (r w : AgentRun) : Prop where
  same : w = { r with
    state := w.state, decision := w.decision, tool_trace := w.tool_trace, artifacts := w.artifacts
    anchor_state := w.anchor_state, updated_at := w.updated_at }
  decision : SameDecision r.decision w.decision
  trace : r.tool_trace <+: w.tool_trace
  tools : ∀ name ∈ registeredTools, Dict.find name w.artifacts = Dict.find name r.artifacts
  states : StateMoves r.state w.state
  stopped : r.state ∈ stoppedStates → w.tool_trace = r.tool_trace ∧
    w.anchor_state = r.anchor_state ∧
    ∀ name, Dict.find name w.artifacts = Dict.find name r.artifacts

theorem Follows.refl (r : AgentRun) : Follows r r :=
  ⟨rfl, Or.inl rfl, List.prefix_refl _, fun _ _ => rfl, Or.inl rfl,
    fun _ => ⟨rfl, rfl, fun _ => rfl⟩⟩

theorem Follows.trans (h : Follows r v) (h' : Follows v w) : Follows r w where
  same := by
    have hsame := h'.same
    rw [h.same] at hsame
    exact hsame
  decision := h.decision.trans h'.decision
  trace := h.trace.trans h'.trace
  tools := fun name hname => (h'.tools name hname).trans (h.tools name hname)
  states := h.states.trans h'.states
  stopped := by
    intro hstopped
    obtain ⟨htrace, hanchor, hfind⟩ := h.stopped hstopped
    obtain ⟨htrace', hanchor', hfind'⟩ := h'.stopped (h.states.stopped hstopped ▸ hstopped)
    exact ⟨htrace'.trans htrace, hanchor'.trans hanchor,
      fun name => (hfind' name).trans (hfind name)⟩

/-- What a run is like that is kept in the ledger. -/
structure Filed (w : AgentRun) : Prop where
  keys : (w.artifacts.map Prod.fst).Nodup
  hashes : ∀ e ∈ w.tool_trace, e.output_hash ≠ some ""
  times : ∀ e ∈ w.tool_trace, e.occurred_at.Aware
  created : w.created_at.Aware
  updated : w.updated_at.Aware

omit [Interpreter] in
theorem Filed.reread_eq (h : Filed w) (amount : Numeral) : w.reread amount =
    { w with decision := w.decision.reread amount, artifacts := byKey w.artifacts } := by
  have htrace : w.tool_trace.map ToolEvent.reread = w.tool_trace := by
    have hall : ∀ e ∈ w.tool_trace, e.reread = e := by
      intro e he
      unfold ToolEvent.reread
      rw [reread_of_aware (h.times e he)]
    rw [List.map_congr_left hall, List.map_id']
  unfold AgentRun.reread
  rw [htrace, reread_of_aware h.created, reread_of_aware h.updated]

omit [Interpreter] in
theorem find_byKey {l : Fields} (h : (l.map Prod.fst).Nodup) (k : String) :
    Dict.find k (byKey l) = Dict.find k l := field_object h k

omit [Interpreter] in
theorem Filed.reread (h : Filed w) (amount : Numeral) : Filed (w.reread amount) := by
  rw [h.reread_eq]
  have hperm : (byKey w.artifacts).Perm w.artifacts := List.perm_insertionSort ..
  exact ⟨(hperm.map _).nodup_iff.mpr h.keys, h.hashes, h.times, h.created, h.updated⟩

/-- A run that is read back goes on from the one that was kept. -/
theorem Filed.follows (h : Filed w)
    (hamount : floatOf (.num w.decision.intent.amount_usd) = .ok amount) :
    Follows w (w.reread amount) := by
  rw [h.reread_eq]
  exact ⟨rfl, Or.inr ⟨amount, hamount, rfl⟩, List.prefix_refl _,
    fun name _ => find_byKey h.keys name, Or.inl rfl,
    fun _ => ⟨rfl, rfl, find_byKey h.keys⟩⟩

/-- So does what is read later from what is read now. -/
theorem Follows.reread {a b : Numeral} (h : Follows v w) (hv : Filed v) (hw : Filed w)
    (ha : floatOf (.num v.decision.intent.amount_usd) = .ok a)
    (hb : floatOf (.num w.decision.intent.amount_usd) = .ok b) :
    Follows (v.reread a) (w.reread b) := by
  have hthere := h.trans (hw.follows hb)
  have hhere := hv.follows ha
  have hdecision : (w.reread b).decision = (v.reread a).decision := by
    change w.decision.reread b = v.decision.reread a
    rcases h.decision with heq | ⟨a', ha', heq⟩
    · rw [heq] at hb ⊢
      rw [ha] at hb
      cases hb
      rfl
    · rw [ha] at ha'
      cases ha'
      rw [heq] at hb ⊢
      have hagain : floatOf (.num a) = .ok b := hb
      rw [floatOf_floatOf ha] at hagain
      cases hagain
      exact reread_decision v.decision a
  have hfind : ∀ name, Dict.find name (v.reread a).artifacts = Dict.find name v.artifacts := by
    intro name
    rw [hv.reread_eq]
    exact find_byKey hv.keys name
  have htrace : (v.reread a).tool_trace = v.tool_trace := by rw [hv.reread_eq]
  refine ⟨?_, Or.inl hdecision, htrace ▸ hthere.trace, ?_, hthere.states, ?_⟩
  · have hsame := hthere.same
    rw [hsame]
    have hback := hhere.same
    rw [hback]
  · intro name hname
    rw [hthere.tools name hname, hfind]
  · intro hstopped
    obtain ⟨htrace', hanchor, hfind'⟩ := hthere.stopped hstopped
    exact ⟨htrace'.trans htrace.symm, hanchor, fun name => (hfind' name).trans (hfind name).symm⟩

end Stories

section Saving

variable [Unicode] [Interpreter] [Sha256] {stores : Stores} {call : AgentCall} {memory : Vault}
  {actions : Dict Digest Json} {r w : AgentRun} {around : ResumeSurroundings}

omit [Interpreter] in
theorem event_hash [NonemptyDigest] (note : Note) (n : ℤ) (at' : DateTime) :
    (note.event n at').output_hash ≠ some "" := by
  cases ho : note.output with
  | none => simp [Note.event, ho]
  | some v =>
    intro h
    have heq : some (toolOutputHash note.tool v) = some "" := by
      rw [← h]
      simp [Note.event, ho]
    exact domainHash_ne_empty _ _ (Option.some.inj heq)

/-- A run whose decision is read as it is loses no more than the order of its artifacts. -/
theorem Filed.load {ledger : Dict Digest Json} {amount : Numeral} (h : Filed r)
    (hrow : ledger.get? (runKey r.run_id) = some (envelope r))
    (hamount : floatOf (.num r.decision.intent.amount_usd) = .ok amount)
    (hread : r.decision.reread amount = r.decision) :
    loadRun ledger r.run_id = .ok (some { r with artifacts := byKey r.artifacts }) := by
  rw [loadRun_row hrow h.hashes, hamount]
  change Except.ok (some (r.reread amount)) = _
  rw [h.reread_eq, hread]

omit [Interpreter] in
/-- A run stays in form when its trace is recorded on. -/
theorem Filed.record [NonemptyDigest] (h : Filed r) (clock : ℕ → DateTime) (notes : List Note)
    (hw : w.tool_trace = record clock r.tool_trace notes)
    (hkeys : (w.artifacts.map Prod.fst).Nodup) (hcreated : w.created_at = r.created_at)
    (hupdated : w.updated_at.Aware) : Filed w := by
  refine ⟨hkeys, ?_, ?_, hcreated ▸ h.created, hupdated⟩
  · rw [hw]
    exact record_all h.hashes fun note _ n at' => event_hash note n _
  · rw [hw]
    exact record_all h.times fun _ _ _ _ => rfl

theorem newRun_filed [NonemptyDigest] {agent : MemoryGuardAgent} {around : RunSurroundings}
    {goal : PaymentIntent} {d : DecisionDraft} {t : Turns}
    (hkeys : (t.artifacts.map Prod.fst).Nodup) : Filed (newRun agent around goal d t) where
  keys := hkeys
  hashes := record_all (by simp) fun note _ n at' => event_hash note n _
  times := record_all (by simp) fun _ _ _ _ => rfl
  created := rfl
  updated := rfl

omit [Unicode] [Interpreter] [Sha256] in
theorem validStates_open {v : Verdict} {s : AgentState}
    (h : s ∈ validStates (authorization v).base_state) :
    s ∈ [.awaitFinalize, .awaitHumanReview, .blockAndEscalate] ∨ s ∈ stoppedStates := by
  cases v <;> cases s <;> simp_all [validStates, authorization, stoppedStates]

theorem anchored_follows {production : Bool} (hvalid : ValidRun production r) (tool signal : String)
    (payload : Json) (phase : ToolPhase) (reason : String) (state : AnchorState) (artifact : Json)
    (going : r.state ∉ stoppedStates) (htool : tool ∉ registeredTools) (next : AgentState)
    (hnext : StateMoves r.state next) : Follows r
      { anchored around r tool signal payload phase reason state artifact with state := next } := by
  refine ⟨?_, Or.inl rfl, record_prefix, ?_, hnext, fun hstopped => absurd hstopped going⟩
  · have hinert := hvalid.inert
    simp only [anchored]
    rw [← hinert]
  · intro name hname
    have hne : tool ≠ name := by
      rintro rfl
      exact htool hname
    exact (Dict.find_put _ _ _ _).trans (if_neg hne)

/-- What a call that saves a run goes on from: nothing, or a run that it inspected. -/
inductive Origin (ledger : Dict Digest Json) (w : AgentRun) : Prop
  | new (absent : ledger.get? (runKey w.run_id) = none) (filed : Filed w)
      (inert : w.executable = false)
  | resumed {production : Bool} {run_id : String} {r : AgentRun}
      (inspected : inspectRun production ledger run_id = .ok r) (follows : Follows r w)
      (filed : Filed r → Filed w)

theorem loadRun_none {ledger : Dict Digest Json} {run_id : String}
    (h : loadRun ledger run_id = .ok none) : ledger.get? (runKey run_id) = none := by
  unfold loadRun at h
  split at h
  · rename_i hnone
    exact hnone
  · simp only [bind_eq_ok, pure_eq_ok, reduceCtorEq, and_false, exists_false] at h

theorem saves_origin [NonemptyDigest] (h : Saves stores call memory actions w) :
    Origin stores.ledger w := by
  have hprepare : prepareTool ∉ registeredTools := by decide
  have hverify : verifyTool ∉ registeredTools := by decide
  cases h with
  | new absent decides takes valid =>
    rw [takes]
    exact .new (loadRun_none absent) (newRun_filed takeTurns_turned.keys) rfl
  | @cancelled agent around run_id signal r kind inspected unsettled =>
    have hvalid := validateRun_ok.mp (inspectRun_ok.mp inspected).2
    have hopen : r.state ∈ [.awaitFinalize, .awaitHumanReview] := by
      have hstate := validStates_open hvalid.state
      cases hs : r.state <;> simp_all [settledStates, stoppedStates]
    have hgoing : r.state ∉ stoppedStates := by
      intro hstopped
      cases hs : r.state <;> simp_all [stoppedStates]
    refine .resumed inspected ⟨rfl, Or.inl rfl, record_prefix, fun _ _ => rfl,
      Or.inr (Or.inl ⟨hopen, rfl⟩), fun hstopped => absurd hstopped hgoing⟩ ?_
    exact fun hfiled => hfiled.record _ _ rfl hfiled.keys rfl rfl
  | @prepared agent around run_id signal r memory result kind inspected going finalizes =>
    have hvalid := validateRun_ok.mp (inspectRun_ok.mp inspected).2
    refine .resumed inspected (anchored_follows hvalid _ _ _ _ _ _ _ going hprepare r.state
      (Or.inl rfl)) ?_
    exact fun hfiled => hfiled.record _ _ rfl (Dict.nodup_put _ _ _ hfiled.keys) rfl rfl
  | @refused agent around run_id signal r tx message kind inspected going unverified =>
    have hvalid := validateRun_ok.mp (inspectRun_ok.mp inspected).2
    have hopen := (validStates_open hvalid.state).resolve_right going
    refine .resumed inspected (anchored_follows hvalid _ _ _ _ _ _ _ going hverify .blockAndRedecide
      (Or.inr (Or.inr ⟨hopen, rfl⟩))) ?_
    exact fun hfiled => hfiled.record _ _ rfl (Dict.nodup_put _ _ _ hfiled.keys) rfl rfl
  | @observed agent around run_id signal r tx memory result kind inspected going unverified
      finalizes =>
    have hvalid := validateRun_ok.mp (inspectRun_ok.mp inspected).2
    refine .resumed inspected (anchored_follows hvalid _ _ _ _ _ _ _ going hverify r.state
      (Or.inl rfl)) ?_
    exact fun hfiled => hfiled.record _ _ rfl (Dict.nodup_put _ _ _ hfiled.keys) rfl rfl

end Saving

section Continuity

variable [Unicode] [Interpreter] [Sha256] {steps before after : List AgentStep} {s : AgentStep}
  {stores stores' : Stores} {ledger ledger' : Dict Digest Json} {call : AgentCall} {r w : AgentRun}
  {answered : Except GuardError Reply}

/-- What is kept under a key of the ledger is the run of that name. -/
def Ordered (ledger : Dict Digest Json) : Prop :=
  ∀ k row, ledger.get? k = some row → ∃ w, row = envelope w ∧ k = runKey w.run_id ∧ Filed w

/-- A run that the ledger has. -/
structure InLedger (ledger : Dict Digest Json) (w : AgentRun) : Prop where
  row : ledger.get? (runKey w.run_id) = some (envelope w)
  filed : Filed w

/-- Every run of one ledger goes on in another one. -/
def Continued (ledger ledger' : Dict Digest Json) : Prop :=
  ∀ w, InLedger ledger w → ∃ w', InLedger ledger' w' ∧ Follows w w'

theorem Continued.refl (ledger : Dict Digest Json) : Continued ledger ledger :=
  fun w h => ⟨w, h, Follows.refl w⟩

theorem Continued.trans {ledger'' : Dict Digest Json} (h : Continued ledger ledger')
    (h' : Continued ledger' ledger'') : Continued ledger ledger'' := by
  intro w hw
  obtain ⟨v, hv, hfollows⟩ := h w hw
  obtain ⟨u, hu, hfollows'⟩ := h' v hv
  exact ⟨u, hu, hfollows.trans hfollows'⟩

omit [Unicode] [Sha256] in
theorem Follows.run_id (h : Follows r w) : w.run_id = r.run_id := by
  rw [h.same]

/-- A run is read from the row that it is kept in. -/
theorem InLedger.read (h : InLedger ledger w) {run_id : String}
    (hkey : runKey run_id = runKey w.run_id) (hload : loadRun ledger run_id = .ok (some r)) :
    ∃ amount, floatOf (.num w.decision.intent.amount_usd) = .ok amount ∧ r = w.reread amount := by
  rw [loadRun_row (hkey ▸ h.row) h.filed.hashes] at hload
  cases hfloat : floatOf (.num w.decision.intent.amount_usd) with
  | error e =>
    rw [hfloat] at hload
    cases hload
  | ok amount =>
    rw [hfloat] at hload
    cases hload
    exact ⟨amount, rfl, rfl⟩

omit [Interpreter] in
theorem Ordered.row (h : Ordered ledger) {k : Digest} {row : Json}
    (hrow : ledger.get? k = some row) : ∃ w, InLedger ledger w ∧ k = runKey w.run_id := by
  obtain ⟨w, rfl, rfl, hfiled⟩ := h k row hrow
  exact ⟨w, ⟨hrow, hfiled⟩, rfl⟩

/-- What is read of a ledger is a run that it has. -/
theorem Ordered.load (h : Ordered ledger) {run_id : String}
    (hload : loadRun ledger run_id = .ok (some r)) : ∃ w amount, InLedger ledger w ∧
      floatOf (.num w.decision.intent.amount_usd) = .ok amount ∧ r = w.reread amount ∧
      runKey run_id = runKey w.run_id := by
  cases hrow : ledger.get? (runKey run_id) with
  | none =>
    unfold loadRun at hload
    rw [hrow] at hload
    cases hload
  | some row =>
    obtain ⟨w, hw, hkey⟩ := h.row hrow
    obtain ⟨amount, hamount, hread⟩ := hw.read hkey hload
    exact ⟨w, amount, hw, hamount, hread, hkey⟩

/-- A run that is saved over another one goes on from it. -/
theorem filed_continued (hordered : Ordered ledger) (horigin : Origin ledger w) :
    Ordered (filed ledger w) ∧ Continued ledger (filed ledger w) ∧ Filed w := by
  have hfiled : Filed w := by
    cases horigin with
    | new absent hfiled inert => exact hfiled
    | resumed inspected follows hfiled =>
      obtain ⟨v, amount, hv, _, rfl, _⟩ := hordered.load (inspectRun_ok.mp inspected).1
      exact hfiled (hv.filed.reread amount)
  refine ⟨?_, ?_, hfiled⟩
  · intro k row hrow
    rw [filed, Dict.get?_set] at hrow
    by_cases hk : runKey w.run_id = k
    · rw [if_pos hk] at hrow
      cases hrow
      exact ⟨w, rfl, hk.symm, hfiled⟩
    · rw [if_neg hk] at hrow
      exact hordered k row hrow
  · intro v hv
    by_cases hk : runKey w.run_id = runKey v.run_id
    · have hhere : InLedger (filed ledger w) w := ⟨Dict.get?_set_self .., hfiled⟩
      cases horigin with
      | new absent _ inert =>
        rw [hk, hv.row] at absent
        cases absent
      | @resumed production run_id r inspected follows _ =>
        obtain ⟨u, b, hu, _, rfl, hkey⟩ := hordered.load (inspectRun_ok.mp inspected).1
        have hname : w.run_id = u.run_id := follows.run_id
        have hkeys : runKey run_id = runKey v.run_id := by rw [hkey, ← hname, hk]
        obtain ⟨a, ha, hread⟩ := hv.read hkeys (inspectRun_ok.mp inspected).1
        rw [hread] at follows
        exact ⟨w, hhere, (hv.filed.follows ha).trans follows⟩
    · refine ⟨v, ⟨?_, hv.filed⟩, Follows.refl v⟩
      rw [filed, Dict.get?_set_of_ne _ _ hk]
      exact hv.row

/-- What one call does to the ledger. -/
theorem serve_continued [NonemptyDigest] (hordered : Ordered stores.ledger)
    (h : serve stores call = (stores', answered)) :
    Ordered stores'.ledger ∧ Continued stores.ledger stores'.ledger ∧
      ∀ r, answered = .ok (.run r) → (∃ v amount, InLedger stores'.ledger v ∧
        floatOf (.num v.decision.intent.amount_usd) = .ok amount ∧ r = v.reread amount) ∨
        InLedger stores'.ledger r := by
  rcases serve_cases h with hunsaved | ⟨memory, actions, w, hsaves, hsaved⟩
  · rw [hunsaved.ledger]
    refine ⟨hordered, Continued.refl _, ?_⟩
    intro r hr
    obtain ⟨run_id, hinspected⟩ := hunsaved.answers r hr
    obtain ⟨v, amount, hv, hamount, hread, _⟩ := hordered.load (inspectRun_ok.mp hinspected).1
    exact Or.inl ⟨v, amount, hv, hamount, hread⟩
  · obtain ⟨hordered', hcontinued, hfiled⟩ := filed_continued hordered (saves_origin hsaves)
    have hanswers : ∀ r, answered = .ok (.run r) → InLedger stores'.ledger r := by
      intro r hr
      obtain ⟨hsame, hledger⟩ := hsaved.answers _ hr
      cases hsame
      rw [hledger]
      exact ⟨Dict.get?_set_self .., hfiled⟩
    rcases hsaved.files with hledger | hledger
    · rw [hledger] at hanswers ⊢
      exact ⟨hordered', hcontinued, fun r hr => Or.inr (hanswers r hr)⟩
    · rw [hledger] at hanswers ⊢
      exact ⟨hordered, Continued.refl _, fun r hr => Or.inr (hanswers r hr)⟩

theorem ordered_of_run [NonemptyDigest] (hrun : Run agency steps stores) :
    Ordered stores.ledger := by
  have hstart : Ordered Stores.blank.ledger := fun k row hrow => by cases hrow
  refine Run.invariant (fun stores : Stores => Ordered stores.ledger) hstart ?_ hrun
  intro done s _ hnow hordered
  exact (serve_continued hordered hnow.1).1

/-- Runs only go on while the calls do. -/
theorem continued_of_run [NonemptyDigest] {mid : Stores} (hmid : Run agency before mid)
    (hrun : Run agency (before ++ after) stores) : Continued mid.ledger stores.ledger := by
  refine Run.since (fun later : Stores => Continued mid.ledger later.ledger) hmid
    (Continued.refl _) ?_ hrun
  intro done s rest _ hbefore hnow hcontinued
  exact hcontinued.trans (serve_continued (ordered_of_run hbefore) hnow.1).2.1

/-- A run that an agent answers is never lost and never decided again: whatever
the ledger gives back of it at any later time goes on from it. -/
theorem run_story_continues [NonemptyDigest] (hrun : Run agency (before ++ s :: after) stores)
    (hanswered : s.answered = .ok (.run r)) :
    stores.ledger.Has (runKey r.run_id) ∧
      ∀ r', loadRun stores.ledger r.run_id = .ok (some r') → Follows r r' := by
  obtain ⟨hpre, hnow, hpost⟩ := hrun.at_step
  obtain ⟨_, _, hanswers⟩ := serve_continued (ordered_of_run hpre) hnow.1
  have hlater : Run agency ((before ++ [s]) ++ after) stores := by
    rwa [List.append_assoc, List.singleton_append]
  have hcontinued := continued_of_run hpost hlater
  rcases hanswers r hanswered with ⟨v, a, hv, ha, rfl⟩ | hr
  · obtain ⟨w, hw, hfollows⟩ := hcontinued v hv
    have hname : w.run_id = v.run_id := hfollows.run_id
    have hrow : stores.ledger.get? (runKey v.run_id) = some (envelope w) := hname ▸ hw.row
    refine ⟨?_, ?_⟩
    · change (stores.ledger.get? (runKey v.run_id)).isSome = true
      rw [hrow]
      rfl
    · intro r' hload
      obtain ⟨b, hb, rfl⟩ := hw.read (congrArg runKey hname.symm) hload
      exact hfollows.reread hv.filed hw.filed ha hb
  · obtain ⟨w, hw, hfollows⟩ := hcontinued r hr
    have hname : w.run_id = r.run_id := hfollows.run_id
    have hrow : stores.ledger.get? (runKey r.run_id) = some (envelope w) := hname ▸ hw.row
    refine ⟨?_, ?_⟩
    · change (stores.ledger.get? (runKey r.run_id)).isSome = true
      rw [hrow]
      rfl
    · intro r' hload
      obtain ⟨b, hb, rfl⟩ := hw.read (congrArg runKey hname.symm) hload
      exact hfollows.trans (hw.filed.follows hb)

end Continuity

section Specimen

variable [Unicode] [Interpreter] [Sha256] {deciding : DecisionSurroundings} {d : DecisionDraft}

omit [Interpreter] in
theorem calm_done (hverdict : d.verdict = .needsHuman) :
    (takeTurns [] (calm deciding).outages d .empty).action_failed = false := by
  simp [takeTurns, registeredTools, turn, hverdict, authorization, reviewTool, escalationTool,
    briefTool, callAction, saveAction, calm]

/-- A payment is answered with a run that waits for a review. -/
theorem calm_run [HexDigest] [PlainAscii] {payment : PaymentIntent}
    (hdecide : decideIntent paymentGuard deciding
      (Stores.blank.memory.subject (subjectRef payment.subject_id)) payment = .ok d)
    (hverdict : d.verdict = .needsHuman) : ∃ actions r,
      run localAgent (calm deciding) .blank payment =
        (⟨saveDecision .blank d, actions, filed .empty r⟩, .ok r) ∧
      Filed r ∧ validateRun false r = .ok () ∧ r.state = .awaitHumanReview ∧ r.decision = d ∧
      r.anchor_state = .notConfigured := by
  have := HexDigest.nonempty
  obtain ⟨t, ht⟩ : ∃ t, t = takeTurns [] (calm deciding).outages d .empty := ⟨_, rfl⟩
  have hturned : Turned [] d registeredTools t := ht ▸ takeTurns_turned
  obtain ⟨r, hr⟩ : ∃ r, r = newRun localAgent (calm deciding) payment d t := ⟨_, rfl⟩
  have hvalid := (newRun_valid_iff localAgent (calm deciding) (decided_on hdecide) hturned).mpr
    ⟨List.not_mem_nil, rfl⟩
  have hrun : run localAgent (calm deciding) .blank payment = _ :=
    run_accepted rfl hdecide ht hvalid
  rw [← hr] at hrun hvalid
  refine ⟨t.actions, r, hrun, hr ▸ newRun_filed hturned.keys, hvalid, ?_, hr ▸ rfl, hr ▸ rfl⟩
  rw [hr]
  change (if t.action_failed then AgentState.haltActionUnavailable
    else (authorization d.verdict).base_state) = _
  rw [ht, calm_done hverdict, hverdict]
  rfl

theorem exists_answered_run [HexDigest] [PlainAscii] (hdecide : decideIntent paymentGuard deciding
      (Stores.blank.memory.subject (subjectRef vendorPayment.subject_id)) vendorPayment = .ok d)
    (hverdict : d.verdict = .needsHuman) : ∃ (s : AgentStep) (r : AgentRun),
      Run agency ([] ++ [s]) s.post ∧ s.answered = .ok (.run r) ∧
      s.post.memory = saveDecision Vault.blank d ∧ s.post.ledger = filed .empty r ∧ Filed r ∧
      validateRun false r = .ok () ∧ r.state = .awaitHumanReview ∧ r.decision = d ∧
      r.anchor_state = .notConfigured := by
  obtain ⟨actions, r, hrun, hknown⟩ := calm_run hdecide hverdict
  let s : AgentStep := ⟨.run localAgent (calm deciding) vendorPayment, .blank,
    ⟨saveDecision .blank d, actions, filed .empty r⟩, .ok (.run r)⟩
  exact ⟨s, r, .next .start ⟨serve_run hrun, fun _ _ => rfl⟩, rfl, rfl, rfl, hknown⟩

omit [Unicode] [Interpreter] [Sha256] in
theorem answered_payment_continues :
    letI := asciiTables
    letI := SecureHash.secureHash
    letI := strictInterpreter
    ∃ (s : AgentStep) (r : AgentRun), s.answered = .ok (.run r) ∧
      s.post.ledger.Has (runKey r.run_id) ∧
      ∀ r', loadRun s.post.ledger r.run_id = .ok (some r') → Follows r r' := by
  let _ := asciiTables
  let _ := SecureHash.secureHash
  let _ := strictInterpreter
  have := SecureHash.secureHash_hex
  have := HexDigest.nonempty
  have := asciiTables_plain
  obtain ⟨deciding, d, h⟩ := exists_undecided
  obtain ⟨s, r, hrun, hanswered, _⟩ := exists_answered_run h.decided h.verdict
  exact ⟨s, r, hanswered, run_story_continues hrun hanswered⟩

end Specimen

end MemoryGuard.RunStories
