import MemoryGuard.RunValidity

/-!
What becomes of an amount that is stored. The hashes of a decision and of its run
are made of the amount that was asked for, and both are read back with a float. So
they outlast being stored when the amount is a float, and when it is an integer
they do not.
-/
namespace MemoryGuard.StoredAmounts

open OrderedDict JsonText Guarded ContentHash CanonicalText IsoText JsonReading Numbers
open Observations PaymentPolicy Observing Decisions AgentRuns AgentRules AgentAuthority
open Finalizing Agency PlanGates RunStories RunValidity
open Pollution (vendorPayment)

section Amounts

variable [Unicode] [Interpreter] [Sha256] {guard : Guard} {around : DecisionSurroundings}
  {store : Option Json} {goal : PaymentIntent} {d : DecisionDraft} {amount : Numeral}

/-- An integer amount and its float are hashed alike. -/
def Collides (goal : PaymentIntent) : Prop :=
  ∃ n, integer goal.amount_usd = some n ∧
    computeIntentHash (rereadIntent (safeIntent goal) (pointZero n)) =
      computeIntentHash (safeIntent goal)

theorem decided_amount (h : decideIntent guard around store goal = .ok d) :
    d.intent.amount_usd = goal.amount_usd := by
  obtain ⟨_, _, _, _, _, _, _, _, rfl⟩ := decideIntent_eq_ok.mp h
  rfl

/-- The amount that is read back for one that is decided. -/
theorem float_of_decided (h : decideIntent guard around store goal = .ok d) :
    ∃ amount, floatOf (.num goal.amount_usd) = .ok amount ∧
      (Floating goal.amount_usd → amount = goal.amount_usd) ∧
      ∀ n, integer goal.amount_usd = some n → amount = pointZero n := by
  cases hinteger : integer goal.amount_usd with
  | none => exact ⟨_, floatOf_floating hinteger, fun _ => rfl, by simp⟩
  | some n =>
    have hcheck := (decideIntent_eq_ok.mp h).1
    simp only [checkIntent, bind_eq_ok, ensure_eq_ok] at hcheck
    obtain ⟨_, _, _, _, _, _, _, _, _, _, _, _, _, _, hpositive, hbounded⟩ := hcheck
    rw [value_integer hinteger] at hpositive hbounded
    have hlow : 0 < n := by exact_mod_cast hpositive
    have hhigh : n ≤ 1000000 := by exact_mod_cast hbounded
    have hsmall : n.natAbs < 2 ^ 1024 - 2 ^ 970 := by
      have hroom : 1000000 < 2 ^ 1024 - 2 ^ 970 := by decide +kernel
      omega
    refine ⟨pointZero n, ?_, fun hfloat => ?_, fun m hm => ?_⟩
    · rw [floatOf_integer hinteger, floatOfInt, if_pos hsmall]
    · rw [hfloat] at hinteger
      cases hinteger
    · cases hm
      rfl

/-- Only the intent of a decision changes when it is read back. -/
theorem reread_decided (h : decideIntent guard around store goal = .ok d) (amount : Numeral) :
    d.reread amount = { d with intent := rereadIntent d.intent amount } := by
  obtain ⟨_, subject, result, expires_at, _, _, _, hexpires, rfl⟩ := decideIntent_eq_ok.mp h
  have hexpiry : JsonReading.reread expires_at = expires_at :=
    reread_of_aware (aware_addSeconds hexpires)
  unfold DecisionDraft.reread
  rw [show DecisionDraft.expires_at (draftOf _ _ _ _ _ _) = expires_at from rfl, hexpiry]
  rfl

/-- A decision that is read back is valid when its intent is hashed as before. -/
theorem reread_valid_iff (h : decideIntent guard around store goal = .ok d) (amount : Numeral) :
    validateDecision (d.reread amount) = .ok () ↔
      computeIntentHash (rereadIntent (safeIntent goal) amount) =
        computeIntentHash (safeIntent goal) := by
  rw [reread_decided h, validateDecision_ok]
  obtain ⟨_, subject, result, expires_at, _, _, _, _, rfl⟩ := decideIntent_eq_ok.mp h
  constructor
  · exact fun hvalid => hvalid.2.2.1
  · exact fun hhash => ⟨rfl, rfl, hhash, rfl⟩

theorem reread_collides (h : decideIntent guard around store goal = .ok d)
    (hamount : floatOf (.num goal.amount_usd) = .ok amount) :
    validateDecision (d.reread amount) = .ok () ↔ Floating goal.amount_usd ∨ Collides goal := by
  rw [reread_valid_iff h]
  obtain ⟨a, ha, hfloat, hinteger⟩ := float_of_decided h
  rw [hamount] at ha
  cases ha
  constructor
  · intro hhash
    cases hn : integer goal.amount_usd with
    | none => exact Or.inl hn
    | some n => exact Or.inr ⟨n, hn, hinteger n hn ▸ hhash⟩
  · rintro (hfloating | ⟨n, hn, hhash⟩)
    · rw [hfloat hfloating]
      rfl
    · rw [hinteger n hn]
      exact hhash

/-- How a decision is read back. -/
theorem decision_reads (hdecide : decideIntent guard around store goal = .ok d) :
    ∃ d', DecisionDraft.ofJson d.toJson = .ok d' ∧
      (validateDecision d' = .ok () ↔ Floating goal.amount_usd ∨ Collides goal) := by
  obtain ⟨amount, hamount, _⟩ := float_of_decided hdecide
  have hsame : floatOf (.num d.intent.amount_usd) = .ok amount :=
    (decided_amount hdecide).symm ▸ hamount
  refine ⟨d.reread amount, ?_, reread_collides hdecide hamount⟩
  rw [DecisionDraft.ofJson_toJson, hsame]
  rfl

end Amounts

section Runs

variable [Unicode] [Interpreter] [Sha256] {agent : MemoryGuardAgent} {around : RunSurroundings}
  {stores stores' : Stores} {goal : PaymentIntent} {r : AgentRun} {d : DecisionDraft} {t : Turns}
  {amount : Numeral}

/-- A goal is answered with the run that it has, or with a new one, which is kept. -/
theorem answered_cases (h : run agent around stores goal = (stores', .ok r)) :
    (stores' = stores ∧ loadRun stores.ledger (runId goal) = .ok (some r) ∧
      validateRun agent.production r = .ok () ∧ r.request_hash = requestHash goal) ∨
    loadRun stores.ledger (runId goal) = .ok none ∧ ∃ d t,
      decideIntent agent.guard around.deciding
        (stores.memory.subject (subjectRef goal.subject_id)) goal = .ok d ∧
      r = newRun agent around goal d t ∧ (t.artifacts.map Prod.fst).Nodup ∧
      validateRun agent.production r = .ok () ∧ stores'.ledger = filed stores.ledger r := by
  unfold run at h
  split at h
  · cases h
  · rename_i existing hload
    simp only [Prod.mk.injEq, bind_eq_ok, ensure_eq_ok, pure_eq_ok] at h
    obtain ⟨rfl, _, hvalid, _, hrequest, rfl⟩ := h
    exact Or.inl ⟨rfl, hload, hvalid, hrequest⟩
  · rename_i habsent
    split at h
    · cases h
    · rename_i d hdecide
      dsimp only at h
      split at h
      · cases h
      · rename_i hvalid
        obtain ⟨hsame, hledger⟩ := (saveRun_saved h).answers _ rfl
        cases hsame
        exact Or.inr ⟨habsent, d, _, hdecide, rfl, takeTurns_turned.keys, hvalid, hledger⟩

theorem loadRun_row_congr {ledger ledger' : Dict Digest Json} {run_id : String}
    (h : ledger'.get? (runKey run_id) = ledger.get? (runKey run_id)) :
    loadRun ledger' run_id = loadRun ledger run_id := by
  unfold loadRun
  rw [h]

/-- A goal whose run is valid is answered with it. -/
theorem run_repeated (hload : loadRun stores.ledger (runId goal) = .ok (some r))
    (hvalid : validateRun agent.production r = .ok ())
    (hrequest : r.request_hash = requestHash goal) :
    run agent around stores goal = (stores, .ok r) := by
  unfold run
  simp only [hload, hvalid, ok_bind, (ensure_eq_ok (u := ())).mpr hrequest]
  rfl

/-- A goal whose run is not valid is not answered. -/
theorem run_rejected (hload : loadRun stores.ledger (runId goal) = .ok (some r))
    (hinvalid : validateRun agent.production r ≠ .ok ()) (w : AgentRun) :
    (run agent around stores goal).2 ≠ .ok w := by
  unfold run
  simp only [hload]
  intro h
  simp only [bind_eq_ok] at h
  obtain ⟨_, hvalid, _⟩ := h
  exact hinvalid hvalid

omit [Interpreter] in
/-- No check of a run reads when its intent was made. -/
theorem validateRun_redated (production : Bool) (r : AgentRun) (at' : DateTime) :
    validateRun production { r with decision :=
      { r.decision with intent := { r.decision.intent with created_at := at' } } } =
      validateRun production r := rfl

/-- How a new run is read back from where it is kept. -/
theorem new_run_loads [NonemptyDigest] (hdecide : decideIntent agent.guard around.deciding
      (stores.memory.subject (subjectRef goal.subject_id)) goal = .ok d)
    (hkeys : (t.artifacts.map Prod.fst).Nodup)
    (hledger : stores'.ledger = filed stores.ledger (newRun agent around goal d t))
    (hamount : floatOf (.num goal.amount_usd) = .ok amount) :
    loadRun stores'.ledger (runId goal) = .ok (some { newRun agent around goal d t with
      decision := d.reread amount, artifacts := byKey t.artifacts }) := by
  have hfiled : Filed (newRun agent around goal d t) := newRun_filed hkeys
  have hrow : stores'.ledger.get? (runKey (runId goal)) =
      some (envelope (newRun agent around goal d t)) := by
    rw [hledger]
    exact Dict.get?_set_self ..
  have hsame : floatOf (.num (newRun agent around goal d t).decision.intent.amount_usd) =
      .ok amount := (congrArg (fun n => floatOf (.num n)) (decided_amount hdecide)).trans hamount
  rw [loadRun_row hrow hfiled.hashes, hsame]
  change Except.ok (some ((newRun agent around goal d t).reread amount)) = _
  rw [hfiled.reread_eq]
  rfl

/-- What an answered run is once it is read back, and that it answers its goal from
then on, whichever agent of the same kind is asked and whatever else is kept. -/
structure Survives (agent : MemoryGuardAgent) (ledger : Dict Digest Json) (goal : PaymentIntent)
    (r r' : AgentRun) : Prop where
  loads : loadRun ledger (runId goal) = .ok (some r')
  valid : validateRun agent.production r' = .ok ()
  run_id : r'.run_id = r.run_id
  request_hash : r'.request_hash = r.request_hash
  action_fingerprint : r'.action_fingerprint = r.action_fingerprint
  repeated : ∀ (agent' : MemoryGuardAgent) (around : RunSurroundings) (later : Stores),
    agent'.production = agent.production →
    later.ledger.get? (runKey (runId goal)) = ledger.get? (runKey (runId goal)) →
    run agent' around later goal = (later, .ok r')

/-- What an answered run is that is not valid once it is read back: nothing answers
its goal any more. -/
structure Lost (ledger : Dict Digest Json) (goal : PaymentIntent) (r' : AgentRun) : Prop where
  loads : loadRun ledger (runId goal) = .ok (some r')
  invalid : ∀ production, validateRun production r' ≠ .ok ()
  unanswered : ∀ (agent : MemoryGuardAgent) (around : RunSurroundings) (later : Stores)
    (w : AgentRun), later.ledger.get? (runKey (runId goal)) = ledger.get? (runKey (runId goal)) →
    (run agent around later goal).2 ≠ .ok w

theorem survives_of_valid {ledger : Dict Digest Json} {r' : AgentRun}
    (hload : loadRun ledger (runId goal) = .ok (some r'))
    (hvalid : validateRun agent.production r' = .ok ()) (hrun_id : r'.run_id = r.run_id)
    (hrequest : r'.request_hash = r.request_hash)
    (haction : r'.action_fingerprint = r.action_fingerprint)
    (hasked : r.request_hash = requestHash goal) : Survives agent ledger goal r r' := by
  refine ⟨hload, hvalid, hrun_id, hrequest, haction, ?_⟩
  intro agent' around later hsame hrow
  exact run_repeated ((loadRun_row_congr hrow).trans hload) (hsame ▸ hvalid)
    (hrequest.trans hasked)

/-- A run about a float outlasts being stored. -/
theorem float_run_survives [HexDigest] (hfloat : Floating goal.amount_usd)
    (h : run agent around stores goal = (stores', .ok r)) :
    ∃ r', Survives agent stores'.ledger goal r r' := by
  have := HexDigest.nonempty
  rcases answered_cases h with ⟨rfl, hload, hvalid, hrequest⟩ |
    ⟨_, d, t, hdecide, rfl, hkeys, hvalid, hledger⟩
  · exact ⟨r, survives_of_valid hload hvalid rfl rfl rfl hrequest⟩
  · have hload := new_run_loads hdecide hkeys hledger (floatOf_floating hfloat)
    obtain ⟨w, hw⟩ : ∃ w, w = { newRun agent around goal d t with
      decision := d.reread goal.amount_usd } := ⟨_, rfl⟩
    have hread : validateRun agent.production w = .ok () := by
      rw [hw, reread_decided hdecide, ← decided_amount hdecide]
      exact (validateRun_redated agent.production (newRun agent around goal d t)
        (JsonReading.reread d.intent.created_at)).trans hvalid
    have hordered : ValidRun agent.production { w with artifacts := byKey w.artifacts } :=
      (valid_byKey_iff (hw ▸ hkeys)).mpr (validateRun_ok.mp hread)
    rw [hw] at hordered
    exact ⟨_, survives_of_valid hload (validateRun_ok.mpr hordered) rfl rfl rfl rfl⟩

/-- A new run about an integer is lost as soon as it is stored. -/
theorem integer_run_lost [HexDigest] (hinteger : ¬ Floating goal.amount_usd)
    (hdistinct : ¬ Collides goal) (habsent : loadRun stores.ledger (runId goal) = .ok none)
    (h : run agent around stores goal = (stores', .ok r)) :
    ∃ r', Lost stores'.ledger goal r' := by
  have := HexDigest.nonempty
  rcases answered_cases h with ⟨_, hload, _⟩ | ⟨_, d, t, hdecide, rfl, hkeys, _, hledger⟩
  · rw [habsent] at hload
    cases hload
  · obtain ⟨amount, hamount, _⟩ := float_of_decided hdecide
    have hload := new_run_loads hdecide hkeys hledger hamount
    have hinvalid : ∀ production, validateRun production { newRun agent around goal d t with
        decision := d.reread amount, artifacts := byKey t.artifacts } ≠ .ok () := by
      intro production hvalid
      have hdecision := (validateRun_ok.mp hvalid).decision
      rcases (reread_collides hdecide hamount).mp hdecision with hfloat | hcollides
      · exact hinteger hfloat
      · exact hdistinct hcollides
    refine ⟨_, hload, hinvalid, ?_⟩
    intro agent' around' later w hrow
    exact run_rejected ((loadRun_row_congr hrow).trans hload) (hinvalid _) w

/-- Decisions and runs outlast being stored if and only if the amount of their goal is
a float. For an integer that takes a collision of the hash of its intent. -/
theorem survive_iff_float [HexDigest] (goal : PaymentIntent) :
    (∀ guard around store d, decideIntent guard around store goal = .ok d →
      ∃ d', DecisionDraft.ofJson d.toJson = .ok d' ∧
        (validateDecision d' = .ok () ↔ Floating goal.amount_usd ∨ Collides goal)) ∧
    (Floating goal.amount_usd → ∀ agent around stores stores' r,
      run agent around stores goal = (stores', .ok r) →
      ∃ r', Survives agent stores'.ledger goal r r') ∧
    (¬ Floating goal.amount_usd → ¬ Collides goal → ∀ agent around stores stores' r,
      loadRun stores.ledger (runId goal) = .ok none →
      run agent around stores goal = (stores', .ok r) → ∃ r', Lost stores'.ledger goal r') := by
  refine ⟨?_, ?_, ?_⟩
  · exact fun guard around store d => decision_reads
  · exact fun hfloat agent around stores stores' r => float_run_survives hfloat
  · exact fun hinteger hdistinct agent around stores stores' r =>
      integer_run_lost hinteger hdistinct

end Runs

section Specimen

/-- The payment with its amount as an integer. -/
def integerPayment : PaymentIntent := { vendorPayment with amount_usd := .ofInt 75 }

/-- The two amounts are hashed apart. -/
theorem integerPayment_distinct :
    letI := asciiTables
    letI := SecureHash.secureHash
    ¬ Collides integerPayment := by
  let _ := asciiTables
  let _ := SecureHash.secureHash
  rintro ⟨n, hn, hhash⟩
  have hamount : integer integerPayment.amount_usd = some 75 := integer_ofInt 75
  rw [hamount] at hn
  cases hn
  have hapart : computeIntentHash (rereadIntent (safeIntent integerPayment) (pointZero 75)) ≠
      computeIntentHash (safeIntent integerPayment) := by decide +kernel
  exact hapart hhash

theorem exists_integer_decision [Sha256] :
    letI := asciiTables
    letI := strictInterpreter
    ∃ (deciding : DecisionSurroundings) (d : DecisionDraft), d.verdict = .needsHuman ∧
      decideIntent paymentGuard deciding
        (Stores.blank.memory.subject (subjectRef integerPayment.subject_id)) integerPayment =
          .ok d := by
  let _ := asciiTables
  let _ := strictInterpreter
  let deciding : DecisionSurroundings := ⟨⟨"00000001", noon none⟩, "nonce", 0⟩
  have hcheck : checkIntent integerPayment = .ok () := by decide +kernel
  obtain ⟨result, hresult, hverdict⟩ : ∃ result,
      decidePayment integerPayment deciding.recalled [] = .ok result ∧
      result.verdict = .needsHuman := ⟨_, rfl, rfl⟩
  obtain ⟨expires_at, hexpires⟩ : ∃ expires_at,
      deciding.utcNow.addSeconds paymentGuard.decision_ttl = some expires_at :=
    Option.isSome_iff_exists.mp (by decide +kernel)
  exact ⟨deciding, _, hverdict, decide_blank hcheck hresult hexpires⟩

/-- The decision on the integer is not valid when it is read back, and the request
that was answered with a run is refused when it is repeated. -/
theorem integer_payment_lost :
    letI := asciiTables
    letI := SecureHash.secureHash
    letI := strictInterpreter
    ∃ (deciding : DecisionSurroundings) (d d' : DecisionDraft) (stores : Stores) (r : AgentRun),
      decideIntent paymentGuard deciding
        (Stores.blank.memory.subject (subjectRef integerPayment.subject_id)) integerPayment =
          .ok d ∧
      DecisionDraft.ofJson d.toJson = .ok d' ∧ validateDecision d' ≠ .ok () ∧
      run localAgent (calm deciding) .blank integerPayment = (stores, .ok r) ∧
      ∀ around w, (run localAgent around stores integerPayment).2 ≠ .ok w := by
  let _ := asciiTables
  let _ := SecureHash.secureHash
  let _ := strictInterpreter
  have := SecureHash.secureHash_hex
  have := asciiTables_plain
  have hinteger : ¬ Floating integerPayment.amount_usd := by
    intro hfloat
    rw [Floating, show integer integerPayment.amount_usd = some 75 from integer_ofInt 75] at hfloat
    cases hfloat
  obtain ⟨deciding, d, hverdict, hdecide⟩ := exists_integer_decision
  obtain ⟨d', hread, hvalid_iff⟩ := decision_reads hdecide
  obtain ⟨actions, r, hrun, _⟩ := calm_run hdecide hverdict
  obtain ⟨r', hlost⟩ := integer_run_lost hinteger integerPayment_distinct rfl hrun
  exact ⟨deciding, d, d', _, r, hdecide, hread,
    fun hvalid => (hvalid_iff.mp hvalid).elim hinteger integerPayment_distinct, hrun,
    fun around w => hlost.unanswered localAgent around _ w rfl⟩

/-- The payment of a float is answered with its run again. -/
theorem float_payment_survives :
    letI := asciiTables
    letI := SecureHash.secureHash
    letI := strictInterpreter
    ∃ (deciding : DecisionSurroundings) (d d' : DecisionDraft) (stores : Stores) (r r' : AgentRun),
      decideIntent paymentGuard deciding
        (Stores.blank.memory.subject (subjectRef vendorPayment.subject_id)) vendorPayment = .ok d ∧
      DecisionDraft.ofJson d.toJson = .ok d' ∧ validateDecision d' = .ok () ∧
      run localAgent (calm deciding) .blank vendorPayment = (stores, .ok r) ∧
      run localAgent (calm deciding) stores vendorPayment = (stores, .ok r') ∧
      r'.run_id = r.run_id := by
  let _ := asciiTables
  let _ := SecureHash.secureHash
  let _ := strictInterpreter
  have := SecureHash.secureHash_hex
  have := asciiTables_plain
  have hfloat : Floating vendorPayment.amount_usd := integer_pointZero 75
  obtain ⟨deciding, d, h⟩ := exists_undecided
  obtain ⟨hdecisions, hruns, _⟩ := survive_iff_float vendorPayment
  obtain ⟨d', hread, hvalid⟩ := hdecisions _ _ _ d h.decided
  obtain ⟨actions, r, hrun, _⟩ := calm_run h.decided h.verdict
  obtain ⟨r', hsurvives⟩ := hruns hfloat _ _ _ _ r hrun
  exact ⟨deciding, d, d', _, r, r', h.decided, hread, hvalid.mpr (Or.inl hfloat), hrun,
    hsurvives.repeated localAgent (calm deciding) _ rfl rfl, hsurvives.run_id⟩

end Specimen

end MemoryGuard.StoredAmounts
