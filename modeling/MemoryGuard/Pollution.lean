import MemoryGuard.Observing

/-!
What the policy of the payment guard does not listen to. Observations of
unverified callers and notes of vendors have no effect on a decision, and
neither has any free text; a denial stays whatever is observed later.
-/
namespace MemoryGuard.Pollution

open OrderedDict JsonText Guarded ContentHash CanonicalText IsoText JsonReading Observations
open PaymentPolicy Observing

/-- An observation that can bear on a decision. -/
def Authoritative (item : StoredObservation) : Prop :=
  item.evidence_mode ≠ .callerSupplied ∧ item.kind ≠ .vendorNote

instance (item : StoredObservation) : Decidable (Authoritative item) := by
  unfold Authoritative
  infer_instance

theorem authoritative_of_active {mode : EvidenceMode} {item : StoredObservation}
    (h : ActiveForMode mode item) (hkind : item.kind ≠ .vendorNote) : Authoritative item := by
  refine ⟨fun hmode => ?_, hkind⟩
  have hmodes := h.2
  rw [hmode] at hmodes
  split at hmodes
  · exact absurd hmodes (by decide)
  · exact absurd hmodes (by decide)

variable [Unicode] [Interpreter]
  {intent : PaymentIntent} {now : ℤ} {l l' : List StoredObservation}

section Filtering

/-- A decision depends on the authoritative observations alone. -/
theorem decide_filter (intent : PaymentIntent) (now : ℤ) (l : List StoredObservation) :
    decidePayment intent now (l.filter Authoritative) = decidePayment intent now l := by
  have hconcerns : ∀ {kind : ObservationKind} {item : StoredObservation}, kind ≠ .vendorNote →
      Concerns intent kind item → Authoritative item := by
    intro kind item hkind h
    exact authoritative_of_active h.1 (h.2.1 ▸ hkind)
  have hrevocations : revocations intent (l.filter Authoritative) = revocations intent l := by
    unfold revocations
    rw [List.filter_filter]
    refine List.filter_congr fun item _ => ?_
    by_cases h : Concerns intent .targetRevoked item
    · simp [h, hconcerns (by decide) h]
    · simp [h]
  have hdisputes : disputes intent (l.filter Authoritative) = disputes intent l := by
    unfold disputes
    rw [List.filter_filter]
    refine List.filter_congr fun item _ => ?_
    by_cases h : Concerns intent .disputeOpened item
    · simp [h, hconcerns (by decide) h]
    · simp [h]
  have hbaselines : baselines intent (l.filter Authoritative) = baselines intent l := by
    unfold baselines
    rw [List.filter_filter]
    refine List.filter_congr fun item _ => ?_
    by_cases h : Concerns intent .baselineApproved item
    · simp [h, hconcerns (by decide) h]
    · simp [h]
  unfold decidePayment
  rw [hrevocations, hdisputes, hbaselines]

end Filtering

section Texts

/-- Observations that say the same to the policy. -/
structure SameEvidence (item item' : StoredObservation) : Prop where
  id : item.observation_id = item'.observation_id
  kind : item.kind = item'.kind
  mode : item.evidence_mode = item'.evidence_mode
  facts : item.accepted_facts = item'.accepted_facts
  active : (item.status = .accepted ∨ item.status = .partiallyAccepted) ↔
    (item'.status = .accepted ∨ item'.status = .partiallyAccepted)

omit [Unicode] [Interpreter] in
theorem SameEvidence.fact {item item' : StoredObservation} (h : SameEvidence item item')
    (k : String) : item.fact k = item'.fact k := by
  unfold StoredObservation.fact
  rw [h.facts]

theorem SameEvidence.lowerFact {item item' : StoredObservation} (h : SameEvidence item item')
    (k default : String) : PaymentPolicy.lowerFact item k default =
      PaymentPolicy.lowerFact item' k default := by
  unfold PaymentPolicy.lowerFact
  rw [h.fact]

theorem SameEvidence.concerns {item item' : StoredObservation} (h : SameEvidence item item')
    (kind : ObservationKind) : Concerns intent kind item ↔ Concerns intent kind item' := by
  unfold Concerns ActiveForMode
  rw [h.active, h.mode, h.kind, h.lowerFact]

omit [Unicode] in
theorem SameEvidence.covers {item item' : StoredObservation} (h : SameEvidence item item') :
    PaymentPolicy.covers intent now item = PaymentPolicy.covers intent now item' := by
  unfold PaymentPolicy.covers
  rw [h.fact, h.fact]

omit [Unicode] [Interpreter] in
theorem map_ids (h : List.Forall₂ SameEvidence l l') :
    l.map StoredObservation.observation_id = l'.map StoredObservation.observation_id := by
  induction h with
  | nil => rfl
  | cons hitem _ ih => rw [List.map_cons, List.map_cons, hitem.id, ih]

omit [Unicode] in
variable (intent now) in
/-- Two loops over the same evidence keep the same evidence, or fail alike. -/
theorem keepValid_same (h : List.Forall₂ SameEvidence l l') {valid valid' : List StoredObservation}
    (hvalid : List.Forall₂ SameEvidence valid valid') :
    (∃ e, l.foldlM (keepValid intent now) valid = .error e ∧
      l'.foldlM (keepValid intent now) valid' = .error e) ∨
    ∃ kept kept', l.foldlM (keepValid intent now) valid = .ok kept ∧
      l'.foldlM (keepValid intent now) valid' = .ok kept' ∧ List.Forall₂ SameEvidence kept kept' := by
  induction h generalizing valid valid' with
  | nil => exact Or.inr ⟨valid, valid', rfl, rfl, hvalid⟩
  | @cons item item' rest rest' hitem _ ih =>
    rw [List.foldlM_cons, List.foldlM_cons]
    unfold keepValid
    rw [← hitem.covers]
    cases PaymentPolicy.covers intent now item with
    | error e => exact Or.inl ⟨e, rfl, rfl⟩
    | ok here =>
      cases here with
      | false => exact ih hvalid
      | true => exact ih (List.rel_append hvalid (.cons hitem .nil))

/-- The same evidence leads to the same decision. -/
theorem decide_same (h : List.Forall₂ SameEvidence l l') :
    decidePayment intent now l = decidePayment intent now l' := by
  have hfilter : ∀ {p : StoredObservation → Bool},
      (∀ {item item'}, SameEvidence item item' → (p item ↔ p item')) →
      List.Forall₂ SameEvidence (l.filter p) (l'.filter p) := by
    intro p hp
    exact List.rel_filter (fun _ _ hsame => hp hsame) h
  have hrevocations : List.Forall₂ SameEvidence (revocations intent l) (revocations intent l') :=
    hfilter fun hsame => by simp only [decide_eq_true_eq, hsame.concerns]
  have hdisputes : List.Forall₂ SameEvidence (disputes intent l) (disputes intent l') :=
    hfilter fun hsame => by simp only [decide_eq_true_eq, hsame.concerns, hsame.lowerFact]
  have hbaselines : List.Forall₂ SameEvidence (baselines intent l) (baselines intent l') :=
    hfilter fun hsame => by simp only [decide_eq_true_eq, hsame.concerns, hsame.fact]
  have hnil : ∀ {m m' : List StoredObservation}, List.Forall₂ SameEvidence m m' →
      (m ≠ [] ↔ m' ≠ []) := by
    intro m m' hm
    cases hm with
    | nil => exact Iff.rfl
    | cons _ _ => exact ⟨fun _ => List.cons_ne_nil _ _, fun _ => List.cons_ne_nil _ _⟩
  unfold decidePayment PolicyDecision.denied
  simp only [hnil hrevocations, hnil hdisputes, map_ids hrevocations, map_ids hdisputes]
  rcases keepValid_same intent now hbaselines .nil with
    ⟨e, he, he'⟩ | ⟨kept, kept', hkept, hkept', hsame⟩
  · rw [he, he']
  · have hlast : kept.getLast?.map StoredObservation.observation_id =
        kept'.getLast?.map StoredObservation.observation_id := by
      rw [← List.getLast?_map, ← List.getLast?_map, map_ids hsame]
    rw [hkept, hkept', ok_bind, ok_bind]
    cases hend : kept.getLast? with
    | none =>
      cases hend' : kept'.getLast? with
      | none => rfl
      | some item' => simp [hend, hend'] at hlast
    | some item =>
      cases hend' : kept'.getLast? with
      | none => simp [hend, hend'] at hlast
      | some item' =>
        simp only [hend, hend', Option.map_some, Option.some.injEq] at hlast
        simp only [hlast]

/-- An observation with another free text, or none. -/
def withText (observation : Observation) (text : Option String) : Observation :=
  { observation with raw_text := text }

omit [Unicode] [Interpreter] in
theorem accepted_setAside (observation : Observation) (facts : SortedFacts) :
    (setAsideNote observation (setAsideUnverified observation
      (setAsideText observation facts))).accepted =
      if observation.kind = .vendorNote ∨ observation.evidence_mode ∉ trustedModes then []
      else facts.accepted := by
  have htext : (setAsideText observation facts).accepted = facts.accepted := by
    unfold setAsideText
    split <;> rfl
  have hunverified : (setAsideUnverified observation (setAsideText observation facts)).accepted =
      if observation.evidence_mode ∉ trustedModes then [] else facts.accepted := by
    unfold setAsideUnverified
    rw [← htext]
    by_cases hmode : observation.evidence_mode ∈ trustedModes
    · simp [hmode]
    · by_cases hnil : (setAsideText observation facts).accepted = []
      · simp [hmode, hnil]
      · simp [hmode, hnil]
  unfold setAsideNote
  by_cases hkind : observation.kind = .vendorNote
  · simp [hkind]
  · simp [hkind, hunverified]

omit [Unicode] [Interpreter] in
/-- An observation is active when some of its facts are accepted. -/
theorem statusOf_active {observation : Observation} {facts : SortedFacts} :
    (statusOf observation facts = .accepted ∨ statusOf observation facts = .partiallyAccepted) ↔
      facts.accepted ≠ [] := by
  unfold statusOf
  by_cases hnil : facts.accepted = []
  · simp only [hnil, ne_eq, not_true_eq_false, false_and, if_false]
    split <;> simp
  · by_cases hquarantined : facts.quarantined = []
    · simp [hnil, hquarantined]
    · simp [hnil, hquarantined]

/-- The free text of an observation changes neither the facts that are accepted
nor whether there are any. -/
theorem classify_withText {observation : Observation} {text : Option String}
    {classification classification' : ObservationClassification}
    (h : classifyObservation observation = .ok classification)
    (h' : classifyObservation (withText observation text) = .ok classification') :
    classification.accepted_facts = classification'.accepted_facts ∧
      ((classification.status = .accepted ∨ classification.status = .partiallyAccepted) ↔
        (classification'.status = .accepted ∨ classification'.status = .partiallyAccepted)) := by
  simp only [classifyObservation, bind_eq_ok, pure_eq_ok] at h h'
  obtain ⟨facts, hfacts, rfl⟩ := h
  obtain ⟨facts', hfacts', rfl⟩ := h'
  have hsame : facts = facts' := Except.ok.inj (hfacts.symm.trans hfacts')
  subst hsame
  have haccepted := accepted_setAside observation facts
  have haccepted' := accepted_setAside (withText observation text) facts
  have heq := haccepted.trans haccepted'.symm
  refine ⟨congrArg object heq, ?_⟩
  rw [statusOf_active, statusOf_active, heq]

variable [Sha256]

/-- Two observations that were written with the same identifier for requests
that differ at most in an admissible free text. -/
def Retexted (item item' : StoredObservation) : Prop :=
  ∃ around observation text, checkObservation observation = .ok () ∧
    checkObservation (withText observation text) = .ok () ∧
    Produced ⟨around, observation⟩ item ∧ Produced ⟨around, withText observation text⟩ item'

theorem Retexted.same {item item' : StoredObservation} (h : Retexted item item') :
    SameEvidence item item' := by
  obtain ⟨around, observation, text, _, _, ⟨c, p, hc, rfl⟩, ⟨c', p', hc', rfl⟩⟩ := h
  obtain ⟨hfacts, hactive⟩ := classify_withText hc hc'
  exact ⟨rfl, rfl, rfl, hfacts, hactive⟩

end Texts

section Denials

/-- An observation that denies. -/
def Blocks (intent : PaymentIntent) (item : StoredObservation) : Prop :=
  Concerns intent .targetRevoked item ∨
    Concerns intent .disputeOpened item ∧ lowerFact item "status" "open" ≠ "resolved"

/-- A decision denies exactly when some observation does. -/
theorem denied_iff {decision : PolicyDecision} (h : decidePayment intent now l = .ok decision) :
    decision.verdict = .deny ↔ ∃ item ∈ l, Blocks intent item := by
  have hrevocations : revocations intent l ≠ [] ↔ ∃ item ∈ l, Concerns intent .targetRevoked item := by
    simp [revocations, List.filter_eq_nil_iff]
  have hdisputes : disputes intent l ≠ [] ↔ ∃ item ∈ l, Concerns intent .disputeOpened item ∧
      lowerFact item "status" "open" ≠ "resolved" := by
    simp [disputes, List.filter_eq_nil_iff]
  have hblocks : (∃ item ∈ l, Blocks intent item) ↔
      revocations intent l ≠ [] ∨ disputes intent l ≠ [] := by
    rw [hrevocations, hdisputes, ← exists_or]
    simp only [Blocks, and_or_left]
  rw [hblocks]
  unfold decidePayment at h
  by_cases hr : revocations intent l ≠ []
  · rw [if_pos hr, pure_eq_ok] at h
    exact ⟨fun _ => Or.inl hr, fun _ => h ▸ rfl⟩
  · rw [if_neg hr] at h
    by_cases hd : disputes intent l ≠ []
    · rw [if_pos hd, pure_eq_ok] at h
      exact ⟨fun _ => Or.inr hd, fun _ => h ▸ rfl⟩
    · rw [if_neg hd, bind_eq_ok] at h
      obtain ⟨valid, _, hvalid⟩ := h
      have hnot : decision.verdict ≠ .deny := by
        split at hvalid
        · rw [pure_eq_ok] at hvalid
          rw [← hvalid]
          intro hv
          cases hv
        · rw [pure_eq_ok] at hvalid
          rw [← hvalid]
          intro hv
          cases hv
      exact ⟨fun hv => absurd hv hnot, fun hv => absurd hv (not_or.mpr ⟨hr, hd⟩)⟩

theorem denied_of_blocks {item : StoredObservation} (hitem : item ∈ l) (h : Blocks intent item) :
    ∃ decision, decidePayment intent now l = .ok decision ∧ decision.verdict = .deny := by
  have hex : ∃ decision, decidePayment intent now l = .ok decision := by
    unfold decidePayment
    by_cases hr : revocations intent l ≠ []
    · exact ⟨_, if_pos hr⟩
    · by_cases hd : disputes intent l ≠ []
      · exact ⟨_, by rw [if_neg hr, if_pos hd]; rfl⟩
      · rcases h with h | h
        · exact absurd (List.ne_nil_of_mem (List.mem_filter.mpr ⟨hitem, decide_eq_true h⟩)) hr
        · exact absurd (List.ne_nil_of_mem (List.mem_filter.mpr ⟨hitem, decide_eq_true h⟩)) hd
  obtain ⟨decision, hdecision⟩ := hex
  exact ⟨decision, hdecision, (denied_iff hdecision).mpr ⟨item, hitem, h⟩⟩

theorem Blocks.of_target {intent' : PaymentIntent} {item : StoredObservation}
    (h : Blocks intent item) (htarget : Unicode.lower intent.target = Unicode.lower intent'.target)
    (hmode : intent.evidence_mode = intent'.evidence_mode) : Blocks intent' item := by
  unfold Blocks Concerns at h ⊢
  rwa [← htarget, ← hmode]

end Denials

variable [Sha256] [NonemptyDigest]

/-- Observations of unverified callers and vendor notes can be inserted and
removed, and free texts replaced, without any effect on a decision; a denial is
never taken back for its target. -/
theorem memory_pollution_resistant :
    (∀ (intent : PaymentIntent) (now : ℤ) (l l' : List StoredObservation),
      l.filter Authoritative = l'.filter Authoritative →
        decidePayment intent now l = decidePayment intent now l') ∧
    (∀ (intent : PaymentIntent) (now : ℤ) (l l' : List StoredObservation),
      List.Forall₂ Retexted l l' →
        decidePayment intent now l = decidePayment intent now l') ∧
    ∀ (requests more : List Request) (intent intent' : PaymentIntent) (now now' : ℤ)
      (decision : PolicyDecision),
      decidePayment intent now (remembered (serveAll requests)) = .ok decision →
      decision.verdict = .deny → Unicode.lower intent.target = Unicode.lower intent'.target →
      intent.evidence_mode = intent'.evidence_mode →
      ∃ decision', decidePayment intent' now' (remembered (serveAll (requests ++ more))) =
        .ok decision' ∧ decision'.verdict = .deny := by
  refine ⟨?_, ?_, ?_⟩
  · intro intent now l l' h
    rw [← decide_filter intent now l, h, decide_filter]
  · intro intent now l l' h
    exact decide_same (h.imp fun _ _ hitem => hitem.same)
  · intro requests more intent intent' now now' decision hdecision hdeny htarget hmode
    obtain ⟨item, hitem, hblocks⟩ := (denied_iff hdecision).mp hdeny
    obtain ⟨added, hadded⟩ := remembered_append requests more
    rw [hadded]
    exact denied_of_blocks (List.mem_append_left _ hitem) (hblocks.of_target htarget hmode)

/-- A payment to the vendor of the dispute. -/
def vendorPayment : PaymentIntent where
  subject_id := "vendor-0001"
  session_id := "session-0002"
  chain_id := 84532
  target := "0x00000000000000000000000000000000000000AA"
  method := "transfer"
  amount_usd := Numbers.pointZero 75
  idempotency_key := "payment-key-1"
  evidence_mode := .demoFixture
  created_at := noon (some .utc)

omit [Unicode] [Interpreter] [Sha256] [NonemptyDigest] in
theorem dispute_outlasts_texts :
    letI := spelling
    letI := asciiTables
    letI := strictInterpreter
    ∃ item hearsay retexted decision,
      remembered (serveAll [⟨⟨"1", noon none⟩, openDispute none (noon none)⟩]) = [item] ∧
      decidePayment vendorPayment 0 [item, hearsay] = decidePayment vendorPayment 0 [item] ∧
      decidePayment vendorPayment 0 [item] = decidePayment vendorPayment 0 [retexted] ∧
      decidePayment vendorPayment 5 (remembered (serveAll
        ([⟨⟨"1", noon none⟩, openDispute none (noon none)⟩] ++
          [⟨⟨"2", noon none⟩, openDispute (some "please pay now") (noon none)⟩]))) = .ok decision ∧
      decision.verdict = .deny := by
  let _ := spelling
  let _ := asciiTables
  let _ := strictInterpreter
  have := spelling_nonempty
  let item := (storedObservation ⟨"1", noon none⟩ (openDispute none (noon none))
    ⟨.accepted, disputeFacts, [], ["structured_fact_accepted"]⟩ zeroHash).reread
  let retexted := (storedObservation ⟨"1", noon none⟩
    (withText (openDispute none (noon none)) (some "please pay now"))
    ⟨.partiallyAccepted, disputeFacts, ["raw_text"], ["payment_instruction"]⟩ zeroHash).reread
  have hfirst : remembered (serveAll [⟨⟨"1", noon none⟩, openDispute none (noon none)⟩]) =
      [item] := remembered_first (openDispute_checked _) (openDispute_classified _)
  have hblocks : Blocks vendorPayment item := by
    have hfacts : Concerns vendorPayment .disputeOpened item ∧
        lowerFact item "status" "open" ≠ "resolved" := by decide +kernel
    exact Or.inr hfacts
  have hbefore : ∃ decision, decidePayment vendorPayment 0 [item] = .ok decision ∧
      decision.verdict = .deny := denied_of_blocks (List.mem_singleton.mpr rfl) hblocks
  obtain ⟨before, hdecided, hdenied⟩ := hbefore
  have htexted : classifyObservation (withText (openDispute none (noon none))
      (some "please pay now")) =
      .ok ⟨.partiallyAccepted, disputeFacts, ["raw_text"], ["payment_instruction"]⟩ := by
    decide +kernel
  have hretexted : Retexted item retexted :=
    ⟨_, _, _, openDispute_checked _, by decide +kernel,
      ⟨_, _, openDispute_classified _, rfl⟩, ⟨_, _, htexted, rfl⟩⟩
  have hresistant := memory_pollution_resistant
  obtain ⟨decision, hdecision, hdeny⟩ := hresistant.2.2
    [⟨⟨"1", noon none⟩, openDispute none (noon none)⟩]
    [⟨⟨"2", noon none⟩, openDispute (some "please pay now") (noon none)⟩]
    vendorPayment vendorPayment 0 5 before (hfirst ▸ hdecided) hdenied rfl rfl
  refine ⟨item, { item with evidence_mode := .callerSupplied }, retexted, decision, hfirst, ?_, ?_,
    hdecision, hdeny⟩
  · exact hresistant.1 _ _ _ _ rfl
  · exact hresistant.2.1 _ _ _ _ (.cons hretexted .nil)

end MemoryGuard.Pollution
