import MemoryGuard.AcpHistory
import MemoryGuard.ReviewPlans

/-!
The verification of a review plan, with the reader it asks. The plan and the
revision are checked first, then the history of the job is read, and what was
read, or the code of its failure, is committed as an observation. An exception
of the reader that is not one of its own goes through to the caller.
-/
namespace MemoryGuard.PartnerReview

open OrderedDict Guarded JsonText ContentHash CanonicalText JsonReading Models Artifacts Aggregate
open Core SourceModels Transactions CaseCommands PartnerCommands Traces Calls Upkeep History
open Custody Effects EvidenceEffects Progress Staffing ReviewPlans JsonBodies AcpHistory

section Verification

variable [Sha256] [Interpreter] [Unicode]

/-- What is kept of a read that the service handles. -/
def kept (read : Except Fault HistoryResult) : Except String (List (String × Json)) :=
  match read with
  | .ok r => .ok r.fields
  | .error (.casework e) => .error e.code
  | .error .typeError => .error "TypeError"

/-- `verify`: the checks of the inspected workspace, the read, and the commit.
Here `answer` is what the command line tool came back with. -/
def verify (loads : String → Option Json) (spec : VirtualsSpec) (svc : Service) (env : Environment)
    (store : Option Workspace) (actor : Actor) (cmd : Command) (snapshot : Workspace)
    (plan_id : Identifier) (job_id : String) (answer : Except CaseworkError Json) :
    Except Fault (Option Workspace × Response) := do
  let requirements := ((storedPlan snapshot plan_id).map ReviewPlan.requirements).getD .null
  let read := history loads spec job_id requirements answer
  let prepared ← (verifyPlan svc (some spec) env actor cmd snapshot plan_id job_id
    (kept read)).mapError .casework
  match prepared with
  | .answered response => return (store, response)
  | .transaction tx =>
    ensure (read ≠ .error .typeError) .typeError
    (mutate svc env store tx).mapError .casework

/-- A result, or an error of the service's own. -/
def Typed {α : Type} (x : Except Fault α) : Prop :=
  (∃ a, x = .ok a) ∨ ∃ e, x = .error (.casework e)

/-- The plan has one observation more, of a history or of a failed query. -/
def Observed (w m : Workspace) (plan_id : Identifier) : Prop :=
  ∃ p p' seen, storedPlan w plan_id = some p ∧ storedPlan m plan_id = some p' ∧
    p'.observations = p.observations ++ [seen] ∧
    (p'.state = .historyObserved ∨ p'.state = .queryFailed)

/-- An observation is committed, or an error of the service's own is raised. -/
def Observes (w : Workspace) (plan_id : Identifier)
    (x : Except Fault (Option Workspace × Response)) : Prop :=
  (∃ m response, x = .ok (some m, response) ∧ Observed w m plan_id) ∨
    ∃ e, x = .error (.casework e)

variable {loads : String → Option Json} {spec : VirtualsSpec} {svc : Service} {env : Environment}
  {w : Workspace} {actor : Actor} {cmd : Command} {plan_id : Identifier} {job_id : String}
  {answer : Except CaseworkError Json} {plan : ReviewPlan}

omit [Interpreter] [Unicode] in
/-- A new request to verify a current plan, for its job, on the current revision. -/
structure Verifiable (spec : VirtualsSpec) (w : Workspace) (actor : Actor) (cmd : Command)
    (plan_id : Identifier) (job_id : String) (plan : ReviewPlan) : Prop where
  role : actor.role ∈ [Role.investigator, .reviewer]
  valid : validateWorkspace w = .ok ()
  tenant : w.tenant_id = actor.tenant_id
  stored : storedPlan w plan_id = some plan
  found : ∃ case, findCase w actor plan.case_id = .ok case ∧
    allowedPartner (some spec) actor case = .ok spec
  config : plan.partner_spec_hash = partnerHash spec
  job : ∀ bound ∈ plan.bound_job_id, bound ≠ "" → bound = job_id
  new : w.idempotency.get? (idempotencyKey actor.actor_id cmd.idempotency_key) = none
  revision : w.revision = cmd.expected_revision

variable (svc env) in
omit [Interpreter] [Unicode] in
theorem verifyPlan_ready (h : Verifiable spec w actor cmd plan_id job_id plan)
    (read : Except String (List (String × Json))) :
    ∃ tx, verifyPlan svc (some spec) env actor cmd w plan_id job_id read = .ok (.transaction tx) ∧
      tx.key = idempotencyKey actor.actor_id cmd.idempotency_key ∧
      tx.change = verifyPlanChange svc env actor spec plan plan_id job_id read := by
  obtain ⟨case, hcase, hspec⟩ := h.found
  have hrole : authorize actor [.investigator, .reviewer] none = .ok () := by
    simp [authorize, h.role]
  refine ⟨⟨actor, cmd, "acp.verify", [("case_id", .str plan.case_id), ("plan_id", .str plan_id),
    ("job_id", .str job_id)], verifyPlanChange svc env actor spec plan plan_id job_id read, false,
    none⟩, ?_, rfl, rfl⟩
  simp only [verifyPlan, hrole, h.valid, h.tenant, h.stored, hcase, hspec, h.config, h.new,
    h.revision, fetch, ensure, ok_bind, if_true]
  rw [if_pos h.job]
  rfl

omit [Interpreter] [Unicode] in
/-- What a commit of a verification leaves of the plan. -/
theorem mutate_observed {tx : Transaction} {read : Except String (List (String × Json))}
    {st : Option Workspace} {response : Response}
    (hnew : w.idempotency.get? tx.key = none)
    (hchange : tx.change = verifyPlanChange svc env actor spec plan plan_id job_id read)
    (h : mutate svc env (some w) tx = .ok (st, response)) :
    ∃ m, st = some m ∧ Observed w m plan_id := by
  simp only [mutate, loaded, bind_eq_ok, pure_eq_ok, ensure_eq_ok] at h
  obtain ⟨_, rfl, _, _, _, _, _, _, h⟩ := h
  rw [hnew] at h
  simp only [bind_eq_ok, pure_eq_ok, Prod.mk.injEq] at h
  obtain ⟨_, _, ⟨m, result⟩, hdone, _, _, hst, _⟩ := h
  rw [hchange] at hdone
  obtain ⟨p, _, hp, _, _, _, _, rfl⟩ := verifyPlanChange_ok _ hdone
  refine ⟨_, hst.symm, p, observedPlan env p job_id read, _, storedPlan_eq_some.mpr hp,
    storedPlan_eq_some.mpr (Dict.get?_set_self ..), rfl, ?_⟩
  unfold observedPlan
  dsimp only
  split
  · exact Or.inr rfl
  · exact Or.inl rfl

/-- The verification of a current plan fails with another exception just when
its reader does. -/
theorem verify_observes (h : Verifiable spec w actor cmd plan_id job_id plan) :
    Observes w plan_id (verify loads spec svc env (some w) actor cmd w plan_id job_id answer) ↔
      history loads spec job_id plan.requirements answer ≠ .error .typeError := by
  obtain ⟨tx, htx, hkey, hchange⟩ :=
    verifyPlan_ready svc env h
      (kept (history loads spec job_id plan.requirements answer))
  have hverify : verify loads spec svc env (some w) actor cmd w plan_id job_id answer =
      (do
        ensure (history loads spec job_id plan.requirements answer ≠ .error .typeError) .typeError
        (mutate svc env (some w) tx).mapError .casework) := by
    unfold verify
    rw [h.stored]
    dsimp only [Option.map_some, Option.getD_some]
    rw [htx]
    rfl
  rw [hverify]
  constructor
  · rintro hobserves hread
    rw [ensure, if_neg (not_not.mpr hread)] at hobserves
    rcases hobserves with ⟨_, _, h, _⟩ | ⟨_, h⟩
    · cases h
    · cases h
  · intro hread
    rw [ensure, if_pos hread, ok_bind]
    cases hmutate : mutate svc env (some w) tx with
    | error e => exact Or.inr ⟨e, rfl⟩
    | ok done =>
      obtain ⟨st, response⟩ := done
      obtain ⟨m, rfl, hobserved⟩ := mutate_observed (hkey ▸ h.new) hchange hmutate
      exact Or.inl ⟨m, response, rfl, hobserved⟩

omit [Sha256] [Interpreter] [Unicode] in
theorem typed_iff {α : Type} {x : Except Fault α} : Typed x ↔ x ≠ .error .typeError := by
  unfold Typed
  cases x with
  | ok a => simp
  | error e => cases e <;> simp

variable (loads spec) in
/-- A read of a job's history, and the verification that asks for it, end with a
result or an error of the service's own exactly when nothing in the history that
the reader looks up in its sets is a list or a dictionary. -/
theorem typed_iff_sound (hjob : IsJobId job_id) :
    (∀ requirements data, Typed (history loads spec job_id requirements (.ok data)) ↔
      Sound loads spec job_id requirements data) ∧
    ∀ svc env w actor cmd plan_id plan data, Verifiable spec w actor cmd plan_id job_id plan →
      (Observes w plan_id
          (verify loads spec svc env (some w) actor cmd w plan_id job_id (.ok data)) ↔
        Sound loads spec job_id plan.requirements data) := by
  constructor
  · intro requirements data
    rw [typed_iff, Ne, history_eq_typeError loads spec requirements data hjob, not_not]
  · intro svc env w actor cmd plan_id plan data h
    rw [verify_observes h, Ne, history_eq_typeError loads spec plan.requirements data hjob, not_not]

omit [Sha256] [Interpreter] [Unicode] in
/-- A status that is a list is looked up in the set of statuses all the same. -/
theorem listed_status_uncaught : letI := spelling; letI := strictInterpreter; letI := asciiTables
    let data := Json.obj [("chainId", nat 84532), ("entries", .arr []), ("entryCount", nat 0),
      ("jobId", .str "42"), ("protocol", .str "v2"), ("status", .arr [])]
    IsJobId "42" ∧ ¬ Typed (history (parser unprinted standardLimits) market "42" request
      (.ok data)) := by
  let _ := spelling
  let _ := strictInterpreter
  let _ := asciiTables
  intro data
  have hread : history (parser unprinted standardLimits) market "42" request (.ok data) =
      .error .typeError := by
    decide +kernel
  exact ⟨by decide, fun htyped => typed_iff.mp htyped hread⟩

/-- The end of a job, and the provider's review of another request. -/
def otherReview (wanted : Digest) : List Json :=
  [message market.provider_address "text" (verdictText wanted),
    .obj [("event", .obj [("type", .str "job.completed")]), ("kind", .str "system")]]

omit [Sha256] [Interpreter] [Unicode] in
theorem sound_otherReview (requirements : Json) :
    letI := spelling; letI := strictInterpreter; letI := asciiTables
    Sound (parser unprinted standardLimits) market "42" requirements
      (jobHistory (otherReview (digest "acp-requirements" request))) := by
  let _ := spelling
  let _ := strictInterpreter
  let _ := asciiTables
  let wanted := digest "acp-requirements" request
  have hheld : ∀ {status entries},
      Contract market "42" (jobHistory (otherReview wanted)) status entries →
        entries = otherReview wanted := by
    intro status entries h
    have hfield : field "entries" (jobHistory (otherReview wanted)) =
        some (.arr (otherReview wanted)) := rfl
    rw [h.held] at hfield
    simpa using hfield
  have hmessage : messageOf (parser unprinted standardLimits)
      (message market.provider_address "text" (verdictText wanted)) = some (verdict wanted) :=
    messageOf_message (verdict_read.1.trans (by decide)) verdict_read.2
  refine ⟨fun _ => trivial, ?_, ?_⟩
  · intro status entries h
    rw [hheld h]
    decide +kernel
  · intro status entries h _ entry hentry
    rw [hheld h, otherReview, List.mem_cons, List.mem_singleton] at hentry
    rintro ⟨m, hm, _, _, hunhashable⟩
    rcases hentry with rfl | rfl
    · rw [hmessage] at hm
      cases hm
      exact hunhashable trivial
    · cases hm

omit [Interpreter] [Unicode] in
theorem exists_verifiable [CollisionFree] : ∃ w cmd plan_id plan,
    Verifiable market w Crew.investigator cmd plan_id "42" plan := by
  obtain ⟨steps, w, case, report, h, hempty⟩ := exists_reviewing
  obtain ⟨s, w', k, p, h'⟩ := can_preparePlan 0 h (by omega) (by simp [planOf_empty hempty])
  obtain ⟨cmd, _, hrevision, hnew⟩ := exists_command w' Crew.investigator "session"
  have hkept := kept_of_run h'.next.opened.run w' rfl
  have hvalid := Integrity.validateWorkspace_ok hkept.toShaped
    (Integrity.coherent_of_run h'.next.opened.run w' rfl)
  have hcase : findCase w' Crew.investigator p.case_id = .ok case := by
    rw [h'.case_id]
    exact h'.next.served.1
  exact ⟨w', cmd, k, p, by decide, hvalid, h'.next.opened.tenant, storedPlan_eq_some.mpr h'.stored,
    ⟨case, hcase, h'.next.served.2⟩, h'.hash, by simp [h'.unbound], hnew, hrevision.symm⟩

omit [Sha256] [Interpreter] [Unicode] in
/-- The history of a completed job that answers another request is committed as a
failed query. -/
theorem other_review_observed : letI := spelling; letI := strictInterpreter; letI := asciiTables
    let data := jobHistory (otherReview (digest "acp-requirements" request))
    ∃ env w cmd plan_id plan, Verifiable market w Crew.investigator cmd plan_id "42" plan ∧
      Observes w plan_id (verify (parser unprinted standardLimits) market Crew.deskless env (some w)
        Crew.investigator cmd w plan_id "42" (.ok data)) := by
  let _ := spelling
  let _ := strictInterpreter
  let _ := asciiTables
  have := spelling_collisionFree
  intro data
  obtain ⟨w, cmd, plan_id, plan, h⟩ := exists_verifiable
  obtain ⟨env, _, _⟩ := exists_environment w 0
  obtain ⟨_, hobserves⟩ :=
    typed_iff_sound (parser unprinted standardLimits) market (show IsJobId "42" by decide)
  exact ⟨env, w, cmd, plan_id, plan, h,
    (hobserves Crew.deskless env w Crew.investigator cmd plan_id plan data h).mpr
      (sound_otherReview plan.requirements)⟩

end Verification

end MemoryGuard.PartnerReview
