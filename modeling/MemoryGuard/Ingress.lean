import MemoryGuard.IsoText
import MemoryGuard.JsonBodies
import MemoryGuard.Permanence
import MemoryGuard.ReviewGate
import MemoryGuard.SecureHash

/-!
The ingress of signed incidents. A delivery is authenticated, parsed and turned
into a command whose key and fingerprint are derived from it; the command is
retried against the current revision a few times. So a delivery opens at most
one case, its own, and touches no case that is already there.
-/
namespace MemoryGuard.Ingress

open OrderedDict Guarded JsonText JsonBodies ContentHash Models Artifacts Aggregate Core Closure
open IsoText SecureHash SourceModels SourceService Transactions TaskCommands CaseCommands SourceCommands
open PartnerCommands Traces Calls Filing EvidenceEffects TaskEffects CaseEffects Effects Growth
open Upkeep History Integrity Permanence ReviewGate Crew

section Parsing

structure IncidentBody where
  kind : RiskKind
  evidence_digest : Digest
  deriving DecidableEq

def hexDigits : List Char := "0123456789abcdef".toList

/-- The body of a delivery has these two fields and no other. -/
def readBody : Json → Option IncidentBody
  | .obj fields => do
    let .str kind ← fields.lookup "kind" | none
    let .str evidence_digest ← fields.lookup "evidence_digest" | none
    let kind ← [RiskKind.dispute, .revocation].find? (fun k => k.text = kind)
    guard (evidence_digest.length = 64 ∧ evidence_digest.toList.all (fun c => c ∈ hexDigits))
    guard (∀ f ∈ fields, f.1 = "kind" ∨ f.1 = "evidence_digest")
    return ⟨kind, evidence_digest⟩
  | _ => none

end Parsing

section Authentication

/-- A request to the ingress: its headers and the bytes of its body. -/
structure Message where
  source_id : Identifier
  timestamp : String
  delivery_id : String
  signature : String
  raw : Bytes

/-- The configured sources with the actors they act for and the secrets they
sign with. -/
structure IncidentIngress where
  specs : List IncidentSpec
  actors : Dict Identifier Actor
  secret : Identifier → String
  loads : String → Option Json

/-- The seconds that a timestamp of ten digits stands for. -/
def sentAt (timestamp : String) : Option ℕ :=
  match digits 10 timestamp.toList with
  | some (n, []) => some n
  | _ => none

def IsDeliveryId (s : String) : Prop :=
  8 ≤ s.length ∧ s.length ≤ 80 ∧ s.toList.all fun c => c.isAlphanum || c ∈ "_.:-".toList

def IsSignature (s : String) : Prop :=
  s.length = 71 ∧ s.toList.take 7 = "sha256=".toList ∧ (s.toList.drop 7).all fun c => c ∈ hexDigits

instance (s : String) : Decidable (IsDeliveryId s) := by
  unfold IsDeliveryId
  infer_instance

instance (s : String) : Decidable (IsSignature s) := by
  unfold IsSignature
  infer_instance

/-- The bytes that a source signs. -/
def Message.signed (msg : Message) : Bytes :=
  utf8 msg.timestamp ++ utf8 "." ++ utf8 msg.delivery_id ++ utf8 "." ++ msg.raw

variable (ingress : IncidentIngress) (msg : Message) (time : Instant)

def unauthenticated : CaseworkError := ⟨"INCIDENT_AUTHENTICATION_FAILED", 401⟩

def findSpec (source_id : Identifier) : Option IncidentSpec :=
  ingress.specs.find? fun s => s.source_id = source_id

/-- The part of `handle` before the command. -/
def authenticate : Except CaseworkError (IncidentSpec × IncidentBody) := do
  let spec ← fetch (findSpec ingress msg.source_id) ⟨"INCIDENT_NOT_ACCEPTED", 403⟩
  ensure (msg.raw.length ≤ 16384) ⟨"INCIDENT_NOT_ACCEPTED", 403⟩
  let sent ← fetch (sentAt msg.timestamp) unauthenticated
  ensure (IsDeliveryId msg.delivery_id ∧ IsSignature msg.signature) unauthenticated
  ensure (|time - seconds sent| ≤ seconds spec.max_clock_skew_seconds)
    ⟨"INCIDENT_TIMESTAMP_EXPIRED", 401⟩
  let secret := ingress.secret spec.source_id
  ensure (32 ≤ secret.length) ⟨"INCIDENT_SOURCE_UNAVAILABLE", 503⟩
  ensure (msg.signature = "sha256=" ++ hmacSha256 (utf8 secret) msg.signed) unauthenticated
  let body ← fetch ((strictJson ingress.loads 16384 msg.raw).bind readBody)
    ⟨"INCIDENT_SCHEMA_INVALID", 422⟩
  return (spec, body)

end Authentication

section Handling

variable [Sha256]

/-- What the command is made from. -/
def receive (ingress : IncidentIngress) (msg : Message) (time : Instant) : Delivery :=
  match authenticate ingress msg time with
  | .ok (_, body) => ⟨msg.source_id, msg.delivery_id, body.kind, body.evidence_digest,
      Sha256.hexdigest msg.raw, .ok ()⟩
  | .error e => ⟨msg.source_id, msg.delivery_id, .dispute, "", Sha256.hexdigest msg.raw, .error e⟩

/-- The command of a delivery, for a revision. -/
def request (ingress : IncidentIngress) (msg : Message) (time : Instant) (revision : ℕ) : Call :=
  .ingest ingress.specs (receive ingress msg time) revision

/-- One round of the retry loop: the store when its revision is read, and the
store when the command is run. -/
structure Meeting where
  env : Environment
  read : Option Workspace
  store : Option Workspace

/-- The surroundings of a command that was received at a time. -/
def received (env : Environment) (time : Instant) : Environment :=
  { env with clock := fun r => if r = .received then time else env.clock r }

/-- `_load`. -/
def load (store : Option Workspace) (tenant_id : Identifier) : Except CaseworkError Workspace := do
  let state ← fetch store ⟨"MEMORY_WORKSPACE_MISSING", 503⟩
  validateWorkspace state
  ensure (state.tenant_id = tenant_id) ⟨"TENANT_BINDING_FAILED", 503⟩
  return state

variable (ingress : IncidentIngress) (svc : Service) (msg : Message) (time : Instant)

/-- The retry loop: only a revision conflict is tried again. -/
def rounds (tenant_id : Identifier) :
    List Meeting → Except CaseworkError (Option Workspace × Response)
  | [] => .error ⟨"INCIDENT_CONTENTION", 409⟩
  | meeting :: rest => do
    let state ← load meeting.read tenant_id
    match exec svc (received meeting.env time) meeting.store
        (request ingress msg time state.revision) with
    | .ok answered => return answered
    | .error e => if e.code = "REVISION_CONFLICT" then rounds tenant_id rest else throw e

/-- `handle`, in the stores that its rounds meet. -/
def handle (meetings : ℕ → Meeting) : Except CaseworkError (Option Workspace × Response) := do
  let (spec, _) ← authenticate ingress msg time
  let actor ← item svc.actors spec.actor_id
  rounds ingress svc msg time actor.tenant_id ((List.range 4).map meetings)

end Handling

section Commands

variable [Sha256] {ingress : IncidentIngress} {svc : Service} {env : Environment} {msg : Message}
  {time : Instant} {revision : ℕ}

/-- The key that the deliveries of one name share. -/
def deliveryKey (source_id : Identifier) (delivery_id : String) : Identifier :=
  "incident_" ++ shortDigest 48 "incident-key" (texts [source_id, delivery_id])

def deliveryPayload (spec : IncidentSpec) (body : IncidentBody) (msg : Message) :
    List (String × Json) :=
  [("source_id", .str msg.source_id),
    ("delivery_id_hash", .str (digest "delivery" (.str msg.delivery_id))),
    ("scope", spec.scope.toJson), ("kind", .str body.kind.text),
    ("evidence_digest", .str body.evidence_digest),
    ("payload_sha256", .str (Sha256.hexdigest msg.raw))]

omit [Sha256] in
theorem authenticate_spec {spec : IncidentSpec} {body : IncidentBody}
    (h : authenticate ingress msg time = .ok (spec, body)) :
    findSpec ingress msg.source_id = some spec := by
  simp only [authenticate, bind_eq_ok, fetch_eq_ok, pure_eq_ok, Prod.mk.injEq] at h
  obtain ⟨spec', hspec, _, _, _, _, _, _, _, _, _, _, _, _, _, _, rfl, _⟩ := h
  exact hspec

theorem receive_ok {spec : IncidentSpec} {body : IncidentBody}
    (h : authenticate ingress msg time = .ok (spec, body)) :
    receive ingress msg time = ⟨msg.source_id, msg.delivery_id, body.kind, body.evidence_digest,
      Sha256.hexdigest msg.raw, .ok ()⟩ := by
  unfold receive
  rw [h]

/-- The command of an authenticated delivery. -/
structure Submits (ingress : IncidentIngress) (svc : Service) (env : Environment) (msg : Message)
    (time : Instant) (spec : IncidentSpec) (body : IncidentBody) (actor : Actor)
    (tx : Transaction) : Prop where
  authentic : authenticate ingress msg time = .ok (spec, body)
  configured : findSpec ingress msg.source_id = some spec
  acts : svc.actors.get? spec.actor_id = some actor
  sender : tx.actor = actor
  key : tx.command.idempotency_key = deliveryKey msg.source_id msg.delivery_id
  payload : tx.payload = deliveryPayload spec body msg
  plain : tx.bootstrap = false
  change : tx.change = ingestChange svc env actor spec (receive ingress msg time)

theorem submits_of_prepare {tx : Transaction}
    (h : (request ingress msg time revision).prepare svc env = .ok (.transaction tx)) :
    ∃ spec body actor, Submits ingress svc env msg time spec body actor tx := by
  have h := inTransaction_transaction h
  cases ha : authenticate ingress msg time with
  | error e =>
    simp only [ingest, receive, ha, bind_eq_ok, reduceCtorEq, false_and, and_false,
      exists_false] at h
  | ok found =>
    obtain ⟨spec, body⟩ := found
    have hspec := authenticate_spec ha
    simp only [ingest, receive_ok ha, bind_eq_ok, fetch_eq_ok, pure_eq_ok] at h
    obtain ⟨spec', hspec', _, _, actor, hactor, rfl⟩ := h
    have hsame : spec' = spec := Option.some.inj (hspec'.symm.trans hspec)
    subst hsame
    exact ⟨spec', body, actor, ha, hspec, fetch_eq_ok.mp hactor, rfl, rfl, rfl, rfl,
      by rw [receive_ok ha]⟩

/-- The command of an authentic delivery. -/
def submission (ingress : IncidentIngress) (svc : Service) (env : Environment) (msg : Message)
    (time : Instant) (revision : ℕ) (spec : IncidentSpec) (body : IncidentBody) (actor : Actor) :
    Transaction where
  actor := actor
  command := ⟨deliveryKey msg.source_id msg.delivery_id,
    "ingress_" ++ shortDigest 40 "incident-source" (.str msg.source_id), revision⟩
  name := "incident.ingest"
  payload := deliveryPayload spec body msg
  change := ingestChange svc env actor spec (receive ingress msg time)

theorem prepare_of_authentic {spec : IncidentSpec} {body : IncidentBody} {actor : Actor}
    (ha : authenticate ingress msg time = .ok (spec, body))
    (hactor : svc.actors.get? spec.actor_id = some actor) :
    (request ingress msg time revision).prepare svc env =
      .ok (.transaction (submission ingress svc env msg time revision spec body actor)) := by
  refine bind_eq_ok.mpr ⟨_, ?_, rfl⟩
  unfold ingest submission
  rw [receive_ok ha]
  refine bind_eq_ok.mpr ⟨spec, fetch_eq_ok.mpr (authenticate_spec ha), bind_eq_ok.mpr ⟨(), rfl, ?_⟩⟩
  exact bind_eq_ok.mpr ⟨actor, fetch_eq_ok.mpr hactor, rfl⟩

variable [CollisionFree] {svc' : Service} {env' : Environment} {msg' : Message} {time' : Instant}
  {spec spec' : IncidentSpec} {body body' : IncidentBody} {actor actor' : Actor}
  {tx tx' : Transaction}

omit [CollisionFree] in
/-- Deliveries of one name share their key. -/
theorem Submits.key_eq (h : Submits ingress svc env msg time spec body actor tx)
    (h' : Submits ingress svc' env' msg' time' spec' body' actor' tx')
    (hactors : svc'.actors = svc.actors) (hsource : msg'.source_id = msg.source_id)
    (hdelivery : msg'.delivery_id = msg.delivery_id) : tx'.key = tx.key := by
  have hspec : spec' = spec := by
    have hfound := h'.configured
    rw [hsource, h.configured] at hfound
    exact (Option.some.inj hfound).symm
  have hactor : actor' = actor := by
    have hacts := h'.acts
    rw [hactors, hspec, h.acts] at hacts
    exact (Option.some.inj hacts).symm
  unfold Transaction.key
  rw [h.sender, h'.sender, h.key, h'.key, hactor, hsource, hdelivery]

/-- The fingerprint of a delivery determines its bytes. -/
theorem Submits.raw_eq (h : Submits ingress svc env msg time spec body actor tx)
    (h' : Submits ingress svc' env' msg' time' spec' body' actor' tx')
    (hsame : tx'.fingerprint = tx.fingerprint) : msg'.raw = msg.raw := by
  obtain ⟨_, hpayload⟩ := requestHash_inj hsame
  rw [h.payload, h'.payload] at hpayload
  have hfields := object_inj hpayload rfl
  simp only [deliveryPayload, List.cons.injEq, Prod.mk.injEq, Json.str.injEq, true_and,
    and_true] at hfields
  exact CollisionFree.hexdigest_injective hfields.2.2.2.2.2

end Commands

section Rounds

variable [Sha256] {ingress : IncidentIngress} {svc : Service} {msg : Message} {time : Instant}

/-- A loop that answers does so in one of its rounds. -/
theorem attempts_ok {tenant_id : Identifier} {l : List Meeting}
    {answered : Option Workspace × Response}
    (h : rounds ingress svc msg time tenant_id l = .ok answered) :
    ∃ meeting ∈ l, ∃ revision, exec svc (received meeting.env time) meeting.store
      (request ingress msg time revision) = .ok answered := by
  induction l with
  | nil => cases h
  | cons meeting rest ih =>
    simp only [rounds, bind_eq_ok] at h
    obtain ⟨state, _, h⟩ := h
    split at h
    · rename_i done hexec
      simp only [pure_eq_ok] at h
      subst h
      exact ⟨meeting, List.mem_cons_self, state.revision, hexec⟩
    · split at h
      · obtain ⟨found, hfound, hexec⟩ := ih h
        exact ⟨found, List.mem_cons_of_mem _ hfound, hexec⟩
      · simp only [throw_ne_ok] at h

theorem handle_ok {meetings : ℕ → Meeting} {answered : Option Workspace × Response}
    (h : handle ingress svc msg time meetings = .ok answered) :
    ∃ n < 4, ∃ revision, exec svc (received (meetings n).env time) (meetings n).store
      (request ingress msg time revision) = .ok answered := by
  simp only [handle, bind_eq_ok] at h
  obtain ⟨_, _, _, _, h⟩ := h
  obtain ⟨meeting, hmeeting, hexec⟩ := attempts_ok h
  obtain ⟨n, hn, rfl⟩ := List.mem_map.mp hmeeting
  exact ⟨n, List.mem_range.mp hn, hexec⟩

/-- The step of a run in which a delivery is handled. -/
structure Handles (ingress : IncidentIngress) (msg : Message) (s : Step) : Prop where
  actors : s.svc.actors = ingress.actors
  call : ∃ revision, s.call = request ingress msg (s.env.clock .received) revision

end Rounds

section Runs

variable [Sha256] [CollisionFree] {ingress : IncidentIngress} {msg msg' : Message}
  {before later : List Step} {s : Step} {w m : Workspace} {tx : Transaction} {result : Result}

omit [CollisionFree] in
theorem submits_of_handles (h : Handles ingress msg s)
    (hp : s.call.prepare s.svc s.env = .ok (.transaction tx)) :
    ∃ spec body actor,
      Submits ingress s.svc s.env msg (s.env.clock .received) spec body actor tx := by
  obtain ⟨revision, hcall⟩ := h.call
  rw [hcall] at hp
  exact submits_of_prepare hp

/-- The answer of a committed step stays stored. -/
theorem answered_since (hnow : Run casework (before ++ [s]) s.post)
    (hh : Happened s w tx m result) {st : Option Workspace}
    (hlater : Run casework (before ++ s :: later) st) :
    ∃ w', st = some w' ∧ w'.idempotency.get? tx.key =
      some ⟨tx.fingerprint, answer (auditEvent s.env w tx result) result⟩ := by
  have hlater' : Run casework ((before ++ [s]) ++ later) st := by simpa using hlater
  obtain ⟨w', hw', hkeeps⟩ := run_retains hnow hlater' _ hh.commits.post
  refine ⟨w', hw', hkeeps.idempotency _ _ ?_⟩
  rw [recorded_idempotency, if_pos rfl]

omit [CollisionFree] in
/-- A name under which something else is stored is refused. -/
theorem exec_reused {svc : Service} {env : Environment} {time : Instant} {revision : ℕ}
    {answered : Option Workspace × Response}
    (hstored : ∀ spec body actor tx, Submits ingress svc env msg time spec body actor tx →
      ∃ entry, w.idempotency.get? tx.key = some entry ∧ entry.request_hash ≠ tx.fingerprint) :
    exec svc env (some w) (request ingress msg time revision) ≠ .ok answered := by
  intro hexec
  let s : Step := ⟨svc, env, request ingress msg time revision, some w, answered.1, answered.2⟩
  have hexec' : exec s.svc s.env s.pre s.call = .ok (s.post, s.response) := hexec
  rcases exec_cases hexec' with ⟨w0, tx, m, result, hc⟩ | ⟨w0, tx, previous, hr⟩ | ⟨ha, _⟩
  · obtain ⟨spec, body, actor, hsubmits⟩ := submits_of_prepare hc.prepared
    have hw : w0 = w := by
      rcases loaded_cases hc.loaded with hpre | ⟨hnone, _⟩
      · exact (Option.some.inj hpre).symm
      · cases hnone
    obtain ⟨entry, hget, _⟩ := hstored _ _ _ _ hsubmits
    have hnew := hc.new
    rw [hw, hget] at hnew
    cases hnew
  · obtain ⟨spec, body, actor, hsubmits⟩ := submits_of_prepare hr.prepared
    have hw : w0 = w := by
      rcases loaded_cases hr.loaded with hpre | ⟨hnone, _⟩
      · exact (Option.some.inj hpre).symm
      · cases hnone
    obtain ⟨entry, hget, hne⟩ := hstored _ _ _ _ hsubmits
    have hprevious := hr.stored
    rw [hw, hget] at hprevious
    cases hprevious
    have hreplayed := hr.replayed
    simp only [replay, bind_eq_ok, ensure_eq_ok] at hreplayed
    obtain ⟨_, hsame, _⟩ := hreplayed
    exact hne hsame
  · obtain ⟨_, _, htx⟩ := inTransaction_ok ha
    cases htx

/-- Of two deliveries of one name only the first commits. -/
theorem second_repeats {between after : List Step} {s' : Step} {st : Option Workspace}
    (hrun : Run casework (before ++ s :: (between ++ s' :: after)) st)
    (hs : Handles ingress msg s) (hs' : Handles ingress msg' s')
    (hsource : msg'.source_id = msg.source_id) (hdelivery : msg'.delivery_id = msg.delivery_id)
    (hcommitted : s.Committed) : ¬ s'.Committed := by
  intro hcommitted'
  obtain ⟨hbefore, hnow, hpost⟩ := hrun.at_step
  have hrun' : Run casework ((before ++ s :: between) ++ s' :: after) st := by simpa using hrun
  obtain ⟨hbefore', hnow', _⟩ := hrun'.at_step
  rcases step_cases hbefore hnow with ⟨_, w, tx, m, result, hh⟩ | ⟨hnot, _⟩
  · rcases step_cases hbefore' hnow' with ⟨_, w', tx', m', result', hh'⟩ | ⟨hnot, _⟩
    · obtain ⟨_, _, _, hsubmits⟩ := submits_of_handles hs hh.commits.prepared
      obtain ⟨_, _, _, hsubmits'⟩ := submits_of_handles hs' hh'.commits.prepared
      have hkey := hsubmits.key_eq hsubmits' (hs'.actors.trans hs.actors.symm) hsource hdelivery
      obtain ⟨stored, hstored, hget⟩ := answered_since hpost hh hbefore'
      have hw := happened_on hh' hstored
      have hnew := hh'.commits.new
      rw [hw, hkey, hget] at hnew
      cases hnew
    · exact hnot hcommitted'
  · exact hnot hcommitted

/-- Other bytes under the name of a delivery are refused from then on. -/
theorem reused_refused {svc : Service} {time : Instant} {meetings : ℕ → Meeting}
    (hrun : Run casework (before ++ [s]) s.post) (hs : Handles ingress msg s)
    (hcommitted : s.Committed) (hactors : svc.actors = ingress.actors)
    (hsource : msg'.source_id = msg.source_id) (hdelivery : msg'.delivery_id = msg.delivery_id)
    (hother : msg'.raw ≠ msg.raw)
    (hlater : ∀ n < 4, ∃ later, Run casework (before ++ s :: later) (meetings n).store) :
    ∃ e, handle ingress svc msg' time meetings = .error e := by
  cases hhandle : handle ingress svc msg' time meetings with
  | error e => exact ⟨e, rfl⟩
  | ok answered =>
    exfalso
    obtain ⟨n, hn, revision, hexec⟩ := handle_ok hhandle
    obtain ⟨later, hlater⟩ := hlater n hn
    obtain ⟨hbefore, hnow, _⟩ := hrun.at_step
    rcases step_cases hbefore hnow with ⟨_, w, tx, m, result, hh⟩ | ⟨hnot, _⟩
    · obtain ⟨_, _, _, hsubmits⟩ := submits_of_handles hs hh.commits.prepared
      obtain ⟨stored, hstored, hget⟩ := answered_since hrun hh hlater
      rw [hstored] at hexec
      refine exec_reused ?_ hexec
      intro spec body actor tx' hsubmits'
      have hkey := hsubmits.key_eq hsubmits' (hactors.trans hs.actors.symm) hsource hdelivery
      refine ⟨⟨tx.fingerprint, answer (auditEvent s.env w tx result) result⟩, ?_, ?_⟩
      · rw [hkey, hget]
      · intro hsame
        exact hother (hsubmits.raw_eq hsubmits' hsame.symm)
    · exact hnot hcommitted

omit [CollisionFree] in
/-- A delivery creates no workspace. -/
theorem stored_of_happened (hs : Handles ingress msg s) (hh : Happened s w tx m result) :
    s.pre = some w := by
  rcases hh.before with hpre | ⟨hnone, _⟩
  · exact hpre
  · exfalso
    obtain ⟨_, _, _, hsubmits⟩ := submits_of_handles hs hh.commits.prepared
    have hloaded := hh.commits.loaded
    rw [hnone] at hloaded
    simp only [loaded, hsubmits.plain, bind_eq_ok, ensure_eq_ok, Bool.false_eq_true, false_and,
      exists_false] at hloaded

/-- A delivery opens a case of its own over the scope of its source, and takes
the standing of every task that the scope reaches. -/
structure OpensOwn (ingress : IncidentIngress) (msg : Message) (w w' : Workspace) (c : RiskCase) :
    Prop where
  configured : ∃ spec, findSpec ingress msg.source_id = some spec ∧ c.scope = spec.scope
  fresh : w.cases.get? c.case_id = none
  opened : c.status = .opened
  version : c.version = 1
  cases : w'.cases = w.cases.set c.case_id c
  case_history : w'.case_history = w.case_history.set c.case_id [c]
  suspends : ∀ k t, Touches w k c.scope → w.tasks.get? k = some t →
    ∃ t', w'.tasks.get? k = some t' ∧ t'.status = .suspended ∧
      t'.taints.get? (caseRef c.case_id 1) = some "SIGNED_INCIDENT"

theorem opensOwn_of_happened (hs : Handles ingress msg s) (hh : Happened s w tx m result) :
    ∃ c, OpensOwn ingress msg w (recorded s.env w m tx result) c ∧ m.baselines = w.baselines ∧
      m.baseline_history = w.baseline_history := by
  obtain ⟨spec, body, actor, hsubmits⟩ := submits_of_handles hs hh.commits.prepared
  have hchanged := hh.commits.changed
  rw [hsubmits.change] at hchanged
  obtain ⟨_, htasks, hopens⟩ :=
    ingestChange_effect hh.kept.archived (hh.fresh.cases "case") hchanged
  refine ⟨_, ⟨⟨spec, hsubmits.configured, rfl⟩, hopens.fresh, hopens.opened, hopens.version,
    hopens.writes.cases, hopens.logs.case_history, ?_⟩, hopens.writes.baselines,
    hopens.logs.baseline_history⟩
  intro k t htouches ht
  have hget : m.tasks.get? k =
      some (taint (caseRef (s.env.fresh "case") 1) "SIGNED_INCIDENT" t) := by
    have hmem : k ∈ affectedTasks w spec.scope := mem_affectedTasks.mpr htouches
    rw [htasks, Dict.get?_adjust, if_pos hmem, ht]
    rfl
  exact ⟨_, hget, rfl, Dict.get?_set_self ..⟩

/-- Every case and every baseline that is there stays as it is. -/
structure Untouched (w w' : Workspace) : Prop where
  cases : ∀ k c, w.cases.get? k = some c → w'.cases.get? k = some c
  case_history : ∀ k past, w.case_history.get? k = some past → w'.case_history.get? k = some past
  baselines : w'.baselines = w.baselines
  baseline_history : w'.baseline_history = w.baseline_history

theorem untouched_of_handles {w' : Workspace} (hrun : Run casework before s.pre)
    (hnow : Allowed before s) (hs : Handles ingress msg s) (hpre : s.pre = some w)
    (hpost : s.post = some w') : Untouched w w' := by
  rcases step_cases hrun hnow with ⟨_, w0, tx, m, result, hh⟩ | ⟨_, hsame⟩
  · have hwhich := happened_on hh hpre
    subst hwhich
    obtain ⟨c, hown, hbaselines, hhistory⟩ := opensOwn_of_happened hs hh
    have hpost' := hh.commits.post
    rw [hpost] at hpost'
    cases hpost'
    refine ⟨?_, ?_, hbaselines, hhistory⟩
    · intro k k' hk
      have hne : c.case_id ≠ k := by
        rintro rfl
        rw [hown.fresh] at hk
        cases hk
      rw [hown.cases, Dict.get?_set, if_neg hne, hk]
    · intro k past hk
      have hne : c.case_id ≠ k := by
        rintro rfl
        rw [(coherent_of_run hrun _ hpre).cases.unwritten hown.fresh] at hk
        cases hk
      rw [hown.case_history, Dict.get?_set, if_neg hne, hk]
  · rw [hpre, hpost] at hsame
    cases hsame
    exact ⟨fun _ _ hk => hk, fun _ _ hk => hk, rfl, rfl⟩

/-- For a fixed ingress and every run: of the deliveries of one name at most one
commits, and other bytes under that name are refused from then on. A delivery
that commits opens its own case and stops what it reaches; no delivery touches
another case or a baseline. A call of the ingress that answers is one step, in
one of its four rounds. -/
theorem signed_incidents_open_once (ingress : IncidentIngress) :
    (∀ before s between s' after st msg msg',
      Run casework (before ++ s :: (between ++ s' :: after)) st → Handles ingress msg s →
      Handles ingress msg' s' → msg'.source_id = msg.source_id →
      msg'.delivery_id = msg.delivery_id → s.Committed → ¬ s'.Committed) ∧
    (∀ before s msg msg' svc time meetings, Run casework (before ++ [s]) s.post →
      Handles ingress msg s → s.Committed → svc.actors = ingress.actors →
      msg'.source_id = msg.source_id → msg'.delivery_id = msg.delivery_id →
      msg'.raw ≠ msg.raw →
      (∀ n < 4, ∃ later, Run casework (before ++ s :: later) (meetings n).store) →
      ∃ e, handle ingress svc msg' time meetings = .error e) ∧
    (∀ steps s msg, Run casework steps s.pre → Allowed steps s → Handles ingress msg s →
      s.Committed → ∃ w w' c, s.pre = some w ∧ s.post = some w' ∧ OpensOwn ingress msg w w' c) ∧
    (∀ steps s msg w w', Run casework steps s.pre → Allowed steps s → Handles ingress msg s →
      s.pre = some w → s.post = some w' → Untouched w w') ∧
    (∀ svc msg time meetings post response, svc.actors = ingress.actors →
      handle ingress svc msg time meetings = .ok (post, response) →
      ∃ n < 4, ∃ s, Handles ingress msg s ∧ s.svc = svc ∧
        s.env = received (meetings n).env time ∧ s.pre = (meetings n).store ∧ s.post = post ∧
        s.response = response ∧ exec s.svc s.env s.pre s.call = .ok (s.post, s.response)) := by
  refine ⟨?_, ?_, ?_, ?_, ?_⟩
  · intro before s between s' after st msg msg' hrun hs hs' hsource hdelivery hcommitted
    exact second_repeats hrun hs hs' hsource hdelivery hcommitted
  · intro before s msg msg' svc time meetings hrun hs hcommitted hactors hsource hdelivery hother
      hlater
    exact reused_refused hrun hs hcommitted hactors hsource hdelivery hother hlater
  · intro steps s msg hrun hnow hs hcommitted
    rcases step_cases hrun hnow with ⟨_, w, tx, m, result, hh⟩ | ⟨hnot, _⟩
    · obtain ⟨c, hown, _⟩ := opensOwn_of_happened hs hh
      exact ⟨w, _, c, stored_of_happened hs hh, hh.commits.post, hown⟩
    · exact absurd hcommitted hnot
  · intro steps s msg w w' hrun hnow hs hpre hpost
    exact untouched_of_handles hrun hnow hs hpre hpost
  · intro svc msg time meetings post response hactors hhandle
    obtain ⟨n, hn, revision, hexec⟩ := handle_ok hhandle
    refine ⟨n, hn, ⟨svc, received (meetings n).env time, request ingress msg time revision,
      (meetings n).store, post, response⟩, ⟨hactors, revision, ?_⟩, rfl, rfl, rfl, rfl, rfl, hexec⟩
    simp [received]

end Runs

section Deliveries

/-- What a source sends: the text of a body, at the first instant. -/
def notice : String :=
  "\x7b\"evidence_digest\":\"" ++ evidence ++ "\",\"kind\":\"dispute\"\x7d"

def noticeBody : Json := .obj [("evidence_digest", .str evidence), ("kind", .str "dispute")]

theorem notice_read :
    strictJson (parser unprinted standardLimits) 16384 (utf8 notice) = some noticeBody := by
  have hloads : JsonScanner.loads JsonScanner.plainHooks standardLimits notice.toList =
      .ok (.dict [(JsonScanner.text "evidence_digest", .str (JsonScanner.text evidence)),
        (JsonScanner.text "kind", .str (JsonScanner.text "dispute"))]) := by decide +kernel
  rw [strictJson_of_loads (by decide +kernel) hloads (by decide +kernel)]
  decide +kernel

def unsigned (delivery_id : String) : Message :=
  ⟨"source", "0000000000", delivery_id, "", utf8 notice⟩

def secretKey : String := "0123456789abcdef0123456789abcdef"

def signedNotice (delivery_id : String) : Message :=
  { unsigned delivery_id with
    signature := "sha256=" ++ hmacSha256 (utf8 secretKey) (unsigned delivery_id).signed }

def gate : Service := { deskless with actors := deskless.actors.set "owner" owner }

/-- One source, which acts for the owner. -/
def gateway : IncidentIngress where
  specs := [⟨"source", "owner", transfers, 120⟩]
  actors := gate.actors
  secret := fun _ => secretKey
  loads := parser unprinted standardLimits

theorem isSignature_of_hmac (key message : Bytes) :
    IsSignature ("sha256=" ++ hmacSha256 key message) := by
  have hlist : ("sha256=" ++ hmacSha256 key message).toList =
      "sha256=".toList ++ (hmacSha256 key message).toList := String.toList_append
  refine ⟨?_, ?_, ?_⟩
  · rw [String.length_append]
    unfold hmacSha256
    rw [length_sha256]
    rfl
  · rw [hlist]
    rfl
  · rw [hlist]
    exact sha256_digits _

theorem authenticate_notice {delivery_id : String} (h : IsDeliveryId delivery_id) :
    authenticate gateway (signedNotice delivery_id) 0 =
      .ok (⟨"source", "owner", transfers, 120⟩, ⟨.dispute, evidence⟩) := by
  have hbody : (strictJson gateway.loads 16384 (utf8 notice)).bind readBody =
      some ⟨.dispute, evidence⟩ := by
    rw [show gateway.loads = parser unprinted standardLimits from rfl, notice_read]
    decide +kernel
  have hsent : sentAt "0000000000" = some 0 := by decide +kernel
  have hsignature := isSignature_of_hmac (utf8 secretKey) (unsigned delivery_id).signed
  have hsize : (utf8 notice).length ≤ 16384 := by decide +kernel
  have hskew : |(0 : Instant) - seconds 0| ≤ seconds 120 := by decide
  have hsecret : 32 ≤ secretKey.length := by decide
  unfold authenticate
  refine bind_eq_ok.mpr ⟨_, fetch_eq_ok.mpr rfl, ?_⟩
  refine bind_eq_ok.mpr ⟨(), ensure_eq_ok.mpr hsize, ?_⟩
  refine bind_eq_ok.mpr ⟨0, fetch_eq_ok.mpr hsent, ?_⟩
  refine bind_eq_ok.mpr ⟨(), ensure_eq_ok.mpr ⟨h, hsignature⟩, ?_⟩
  refine bind_eq_ok.mpr ⟨(), ensure_eq_ok.mpr hskew, ?_⟩
  refine bind_eq_ok.mpr ⟨(), ensure_eq_ok.mpr hsecret, ?_⟩
  refine bind_eq_ok.mpr ⟨(), ensure_eq_ok.mpr rfl, ?_⟩
  exact bind_eq_ok.mpr ⟨_, fetch_eq_ok.mpr hbody, rfl⟩

variable [Sha256] [CollisionFree] {steps : List Step} {w : Workspace} {task : Models.Task}
  {d : Decision}

/-- A workspace holds at most one answer for each revision. -/
theorem answers_le {st : Option Workspace} (h : Run casework steps st) :
    ∀ w, st = some w → w.idempotency.size ≤ w.revision := by
  refine Standing.invariant_of_run _ ?_ ?_ h
  · intro tenant_id
    exact Nat.le_refl 0
  · intro s w tx m result hh hw
    have hle := Dict.size_set_le w.idempotency tx.key
      ⟨tx.fingerprint, answer (auditEvent s.env w tx result) result⟩
    change (w.idempotency.set tx.key _).size ≤ w.revision + 1
    omega

/-- Early in a run some name of a delivery is unused. -/
theorem exists_deliveryId (hsize : w.idempotency.size ≤ 72) :
    ∃ delivery_id, IsDeliveryId delivery_id ∧
      w.idempotency.get? (idempotencyKey "owner" (deliveryKey "source" delivery_id)) = none := by
  by_contra hnone
  let name : ℕ → String := fun n => String.ofList (List.replicate (8 + n) 'd')
  let key : ℕ → Digest := fun n => idempotencyKey "owner" (deliveryKey "source" (name n))
  have hname : ∀ n, n < 73 → IsDeliveryId (name n) := by
    intro n hn
    have hlength : (name n).length = 8 + n := by simp [name]
    refine ⟨by omega, by omega, ?_⟩
    simp only [name, String.toList_ofList, List.all_eq_true]
    intro c hc
    rw [List.eq_of_mem_replicate hc]
    decide
  have hinj : Function.Injective key := by
    intro n n' h
    have hkeys : deliveryKey "source" (name n) = deliveryKey "source" (name n') := by
      simpa [key, idempotencyKey, digest_inj, texts_inj] using h
    unfold deliveryKey at hkeys
    have hshort := String.toList_inj.mpr hkeys
    rw [String.toList_append, String.toList_append, List.append_right_inj] at hshort
    have hnames := (shortDigest_inj (by decide)).mp (String.toList_inj.mp hshort)
    simp only [texts_inj, true_and, List.cons.injEq, and_true] at hnames
    have hlist := congrArg List.length (String.ofList_injective hnames)
    simpa using hlist
  have hsub : (List.range 73).map key ⊆ w.idempotency.keys := by
    intro k hk
    obtain ⟨n, hn, rfl⟩ := List.mem_map.mp hk
    by_contra hout
    exact hnone ⟨name n, hname n (List.mem_range.mp hn), Dict.get?_eq_none_iff.mpr hout⟩
  have hnodup : ((List.range 73).map key).Nodup := List.nodup_range.map hinj
  have hlength := (List.subperm_of_subset hnodup hsub).length_le
  rw [List.length_map, List.length_range, ← Dict.size_eq_keys] at hlength
  omega

omit [Sha256] [CollisionFree] in
theorem grounded_of_installed {svc : Service} {incidents : List IncidentSpec} {delivery : Delivery}
    {revision : ℕ} (h : Installed svc incidents) :
    Grounded steps svc (.ingest incidents delivery revision) := by
  refine ⟨?_, ?_, ?_, ?_⟩
  · intro snapshot hsnapshot
    cases hsnapshot
  · intro _ _ _ _ _ hcall
    cases hcall
  · intro _ _ _ _ _ _ _ _ _ hcall
    cases hcall
  · intro _ _ _ hcall
    cases hcall
    exact h

omit [Sha256] [CollisionFree] in
theorem installed_gateway : Installed gate gateway.specs := by
  intro spec hspec
  rw [List.mem_singleton.mp hspec]
  exact ⟨owner, Dict.get?_set_self .., rfl⟩

/-- The notice is taken while the payment is READY. -/
theorem exists_noticed (h : Started steps w task d) :
    ∃ delivery_id s, s.pre = some w ∧ Allowed steps s ∧
      Handles gateway (signedNotice delivery_id) s ∧ s.Committed := by
  have hrevision := h.opened.revision
  have hsize := answers_le h.opened.run w rfl
  obtain ⟨delivery_id, hdelivery, hnew⟩ := exists_deliveryId (w := w) (by omega)
  obtain ⟨env, hfresh, hclock⟩ := Progress.exists_environment w 0
  have hauthentic := authenticate_notice hdelivery
  have hkept := kept_of_run h.opened.run w rfl
  have hactor : gate.actors.get? "owner" = some owner := Dict.get?_set_self ..
  have htenant : w.tenant_id = "tenant" := h.opened.tenant
  let msg := signedNotice delivery_id
  let spec : IncidentSpec := ⟨"source", "owner", transfers, 120⟩
  let tx := submission gateway gate env msg 0 w.revision spec ⟨.dispute, evidence⟩ owner
  have hadmitted : Progress.Admitted gate env (request gateway msg 0 w.revision) (some w) tx w := by
    refine ⟨prepare_of_authentic hauthentic hactor, rfl, htenant, ?_, hnew, ?_, hfresh⟩
    · rfl
    · have hroom : w.revision < 5000 := by omega
      simp [preconditions, tx, submission, hroom, ensure, bind, Except.bind]
  have hroom : w.cases.size < 500 := by simp [h.cases, Dict.size, Dict.empty]
  have hdeskless : gate.evidence_desk = none := rfl
  obtain ⟨⟨m, result⟩, hchange⟩ :=
    Progress.ingestChange_total (receive gateway msg 0) hkept.filed (Or.inl hdeskless) hroom
  obtain ⟨s, henv, hs⟩ := Staffing.goes_of_admitted h.opened.run hadmitted hchange (fun _ => rfl)
    hclock (grounded_of_installed installed_gateway)
  · refine ⟨delivery_id, s, hs.pre, hs.now, ⟨?_, w.revision, ?_⟩, hs.committed⟩
    · rw [hs.service]
      rfl
    · rw [hs.call, hs.clock]

omit [Sha256] [CollisionFree] in
/-- The notice stops the payment, and its name cannot be used for other bytes. -/
theorem notice_opens_once : letI := spelling
    ∃ steps s w w' c delivery_id task_id task', Run casework (steps ++ [s]) (some w') ∧
      Handles gateway (signedNotice delivery_id) s ∧ s.Committed ∧
      OpensOwn gateway (signedNotice delivery_id) w w' c ∧ Untouched w w' ∧
      w'.tasks.get? task_id = some task' ∧ task'.status = .suspended ∧
      ∀ raw meetings, raw ≠ utf8 notice → (∀ n < 4, (meetings n).store = some w') →
        ∃ e, handle gateway gate { signedNotice delivery_id with raw := raw } 0 meetings =
          .error e := by
  let _ := spelling
  have := spelling_collisionFree
  obtain ⟨steps, w, task, d, h⟩ := exists_started
  obtain ⟨delivery_id, s, hpre, hnow, hs, hcommitted⟩ := exists_noticed h
  obtain ⟨_, hrefused, hopens, huntouched, _⟩ := signed_incidents_open_once gateway
  have hbefore : Run casework steps s.pre := hpre ▸ h.opened.run
  obtain ⟨w0, w', c, hpre', hpost, hown⟩ := hopens steps s _ hbefore hnow hs hcommitted
  have hsame : w0 = w := Option.some.inj (hpre'.symm.trans hpre)
  subst hsame
  have hrun : Run casework (steps ++ [s]) s.post := .next (S := casework) hbefore hnow
  obtain ⟨spec, hspec, hscope⟩ := hown.configured
  have hspec' : spec.scope = transfers := by
    cases hspec
    rfl
  have htouches : Touches w0 task.task_id c.scope := by
    refine ⟨task.task_id, task, dependsOn_self .., h.proves.stored, ?_⟩
    rw [h.intent, hscope, hspec']
    rfl
  obtain ⟨task', htask', hsuspended, _⟩ := hown.suspends _ _ htouches h.proves.stored
  refine ⟨steps, s, w0, w', c, delivery_id, task.task_id, task', hpost ▸ hrun, hs, hcommitted, hown,
    huntouched steps s _ _ _ hbefore hnow hs hpre hpost, htask', hsuspended, ?_⟩
  intro raw meetings hraw hstore
  refine hrefused steps s _ _ gate 0 meetings hrun hs hcommitted rfl rfl rfl hraw ?_
  intro n hn
  rw [hstore n hn]
  exact ⟨[], hpost ▸ hrun⟩

end Deliveries

end MemoryGuard.Ingress
