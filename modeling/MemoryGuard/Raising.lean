import MemoryGuard.Isolation
import MemoryGuard.ReviewPath
import MemoryGuard.Ingress

/-!
Raising a risk. A new case, reported by an operator or by a signed incident, is
taken under every configuration, since nothing is yet owed to it. A resolved case
is reopened unless the policy that it was opened under has been removed from the
configuration or weakened in it, and then it is refused for that reason.
-/
namespace MemoryGuard.Raising

open OrderedDict Guarded DependencyGraph JsonText ContentHash Models Artifacts Aggregate Core
open Closure SourceModels SourceGuard SourceService Transactions TaskCommands CaseCommands
open PartnerCommands Traces Calls Filing EvidenceEffects TaskEffects CaseEffects Effects Growth
open Upkeep History Integrity Progress Custody Isolation Ingress ReviewPath

variable [Sha256] {w m : Workspace} {steps : List Step} {svc : Service} {env : Environment}
  {actor : Actor} {cmd : Command} {scope : Scope}

section Outcome

/-- An open case of a scope, none of whose tasks is READY. -/
structure Raised (m : Workspace) (case_id : Identifier) (scope : Scope) : Prop where
  opened : ∃ c, m.cases.get? case_id = some c ∧ c.scope = scope ∧ c.status = .opened
  stopped : ∀ t task, m.tasks.get? t = some task → Touches m t scope → task.status ≠ .ready

theorem stopped_of_disturbs (h : Disturbs w m scope) (hk : TasksKept w) (hgrows : Grows w m)
    {t : Identifier} {task : Models.Task} (ht : m.tasks.get? t = some task)
    (htouches : Touches m t scope) : task.status ≠ .ready := by
  have hmem := Dict.mem_keys_of_get? ht
  rw [h.keys] at hmem
  obtain ⟨old, hold⟩ := Dict.exists_get?_of_mem_keys hmem
  have hreach := (hgrows.touches_iff hk hold).mp htouches
  obtain ⟨task', ht', hsuspends⟩ := h.reached t old hreach hold
  rw [ht] at ht'
  cases ht'
  exact hsuspends.status

theorem raised_of_writes {c : RiskCase} {start : Dict String Artifact} (h : WritesCase w m c start)
    (hk : TasksKept w) (hgrows : Grows w m) (hopen : c.status = .opened) :
    Raised m c.case_id c.scope := by
  refine ⟨⟨c, ?_, rfl, hopen⟩, fun t task => stopped_of_disturbs h.disturbs hk hgrows⟩
  rw [h.cases]
  exact Dict.get?_set_self ..

omit [Sha256] in
/-- Nothing is filed yet for a case that is to be opened. -/
theorem unclaimed_of_fresh (h : Attached w) (hfresh : Fresh env w) :
    Unclaimed w (env.fresh "case") := by
  intro a ha hcase
  obtain ⟨k, hk⟩ := Dict.exists_get?_of_mem_values ha
  have hstored := h k a hk
  have habout : matter a = .case (env.fresh "case") := by
    cases a <;> simp_all [Artifact.case_id, matter]
  rw [habout] at hstored
  obtain ⟨c, hc⟩ := hstored
  rw [hfresh.cases] at hc
  cases hc

end Outcome

/-- A new request on the current revision, with identifiers that are new too. -/
structure Current (w : Workspace) (env : Environment) (actor : Actor) (cmd : Command) : Prop where
  tenant : w.tenant_id = actor.tenant_id
  new : w.idempotency.get? (idempotencyKey actor.actor_id cmd.idempotency_key) = none
  revision : w.revision = cmd.expected_revision
  fresh : Fresh env w

variable [CollisionFree]

section Opening

variable {kind : RiskKind} {evidence_digest : Digest}

theorem open_ready (hrun : Run casework steps (some w))
    (hauthorized : authorize actor operators (some scope.subject_id) = .ok ())
    (h : Current w env actor cmd) (hroom : w.cases.size < 500) :
    Ready svc env w (.openCase actor cmd scope kind evidence_digest)
      (openCaseChange svc env actor scope kind evidence_digest) := by
  refine ⟨⟨actor, cmd, "case.open", [("scope", scope.toJson), ("kind", .str kind.text),
    ("evidence_digest", .str evidence_digest)], _, false, none⟩, rfl,
    ⟨?_, h.tenant, rfl, h.new, ⟨rfl, rfl⟩, h.revision, h.fresh⟩, ?_⟩
  · simp only [Call.prepare, inTransaction, openCase, hauthorized, bind, Except.bind]
    rfl
  · have hunclaimed := unclaimed_of_fresh (attached_of_run hrun w rfl) h.fresh
    exact openCaseChange_total (kept_of_run hrun w rfl).filed (Or.inr hunclaimed) hroom

/-- A case is opened whatever the configuration. -/
theorem open_goes (hrun : Run casework steps (some w))
    (hauthorized : authorize actor operators (some scope.subject_id) = .ok ())
    (h : Current w env actor cmd) (hroom : w.cases.size < 500) :
    Succeeds svc env w (.openCase actor cmd scope kind evidence_digest)
      (fun m _ => ∃ case_id, w.cases.get? case_id = none ∧ Raised m case_id scope) := by
  have hready : Ready svc env w (.openCase actor cmd scope kind evidence_digest) _ :=
    open_ready hrun hauthorized h hroom
  refine hready.succeeds hrun (grounded_of_standalone rfl) ?_
  intro tx m result _ _ _ hh
  have heffect : Effect svc env w (.openCase actor cmd scope kind evidence_digest) m result :=
    hh.effect
  have hgrows := (effect_keeps heffect hh.kept hh.fresh).2.2
  cases heffect with
  | filed plain _ _ => exact absurd plain id
  | opened _ about opens =>
    subst about
    have hraised := raised_of_writes opens.writes hh.kept.tasks hgrows opens.opened
    exact ⟨_, opens.fresh, hraised.opened, hraised.stopped⟩

end Opening

section Ingesting

variable {ingress : IncidentIngress} {msg : Message} {time : Instant} {spec : IncidentSpec}
  {body : IncidentBody}

/-- The command of a delivery under a new name. -/
theorem ingest_ready (hrun : Run casework steps (some w))
    (hauthentic : authenticate ingress msg time = .ok (spec, body))
    (hactor : svc.actors.get? spec.actor_id = some actor)
    (htenant : w.tenant_id = actor.tenant_id)
    (hnew : w.idempotency.get?
      (idempotencyKey actor.actor_id (deliveryKey msg.source_id msg.delivery_id)) = none)
    (hfresh : Fresh env w) (hroom : w.cases.size < 500) :
    Ready svc (received env time) w (request ingress msg time w.revision)
      (ingestChange svc (received env time) actor spec (receive ingress msg time)) := by
  have hreceived : Fresh (received env time) w :=
    ⟨hfresh.cases, hfresh.tasks, hfresh.decisions, hfresh.reports, hfresh.handoffs,
      hfresh.lessons, hfresh.artifacts⟩
  refine ⟨submission ingress svc (received env time) msg time w.revision spec body actor, rfl,
    ⟨prepare_of_authentic hauthentic hactor, htenant, rfl, hnew, ⟨rfl, rfl⟩, rfl, hreceived⟩, ?_⟩
  have hunclaimed := unclaimed_of_fresh (attached_of_run hrun w rfl) hreceived
  exact ingestChange_total (receive ingress msg time) (kept_of_run hrun w rfl).filed
    (Or.inr hunclaimed) hroom

/-- A signed incident opens its case whatever the configuration. -/
theorem ingest_goes (hrun : Run casework steps (some w))
    (hinstalled : Installed svc ingress.specs)
    (hauthentic : authenticate ingress msg time = .ok (spec, body))
    (hactor : svc.actors.get? spec.actor_id = some actor)
    (htenant : w.tenant_id = actor.tenant_id)
    (hnew : w.idempotency.get?
      (idempotencyKey actor.actor_id (deliveryKey msg.source_id msg.delivery_id)) = none)
    (hfresh : Fresh env w) (hroom : w.cases.size < 500) :
    Succeeds svc (received env time) w (request ingress msg time w.revision)
      (fun m _ => ∃ case_id, w.cases.get? case_id = none ∧ Raised m case_id spec.scope) := by
  have hready := ingest_ready hrun hauthentic hactor htenant hnew hfresh hroom
  refine hready.succeeds hrun (grounded_of_installed hinstalled) ?_
  intro tx m result _ _ _ hh
  have heffect : Effect svc (received env time) w (request ingress msg time w.revision) m result :=
    hh.effect
  have hgrows := (effect_keeps heffect hh.kept hh.fresh).2.2
  have hspec := authenticate_spec hauthentic
  have hsource : (receive ingress msg time).source_id = msg.source_id := by
    rw [receive_ok hauthentic]
  unfold request at heffect
  cases heffect with
  | filed plain _ _ => exact absurd plain id
  | ingested accepted _ about opens =>
    rw [hsource] at accepted
    have hsame := Option.some.inj (accepted.symm.trans hspec)
    rw [hsame] at about
    have hraised := raised_of_writes opens.writes hh.kept.tasks hgrows opens.opened
    rw [about] at hraised
    exact ⟨_, opens.fresh, hraised.opened, hraised.stopped⟩

/-- The ingress of an authentic delivery is the first of its rounds, when no other
party interferes. -/
theorem handle_of_exec {meetings : ℕ → Meeting} (hrun : Run casework steps (some w))
    (hauthentic : authenticate ingress msg time = .ok (spec, body))
    (hactor : svc.actors.get? spec.actor_id = some actor)
    (htenant : w.tenant_id = actor.tenant_id)
    (hread : (meetings 0).read = some w) (hstore : (meetings 0).store = some w) :
    (∀ answered, exec svc (received (meetings 0).env time) (some w)
        (request ingress msg time w.revision) = .ok answered →
      handle ingress svc msg time meetings = .ok answered) ∧
    ∀ e, exec svc (received (meetings 0).env time) (some w)
        (request ingress msg time w.revision) = .error e → e.code ≠ "REVISION_CONFLICT" →
      handle ingress svc msg time meetings = .error e := by
  have hvalid := validateWorkspace_ok (kept_of_run hrun w rfl).toShaped (coherent_of_run hrun w rfl)
  have hload : load (meetings 0).read actor.tenant_id = .ok w := by
    rw [hread]
    exact bind_eq_ok.mpr ⟨w, fetch_eq_ok.mpr rfl, bind_eq_ok.mpr ⟨(), hvalid,
      bind_eq_ok.mpr ⟨(), ensure_eq_ok.mpr htenant, rfl⟩⟩⟩
  have hrounds : (List.range 4).map meetings =
      meetings 0 :: [meetings 1, meetings 2, meetings 3] := rfl
  constructor
  · intro answered hexec
    simp only [handle, hauthentic, item, hactor, fetch, bind, Except.bind, hrounds, rounds, hload,
      hstore, hexec]
    rfl
  · intro e hexec hcode
    simp only [handle, hauthentic, item, hactor, fetch, bind, Except.bind, hrounds, rounds, hload,
      hstore, hexec, hcode, if_false]
    rfl

end Ingesting

section Reopening

variable {case_id : Identifier} {case : RiskCase} {evidence_digest : Digest}

/-- The configuration still has the policy that a case was opened under, if there
was one, and has not weakened it. -/
def Upheld (svc : Service) (w : Workspace) (case_id : Identifier) (case : RiskCase) : Prop :=
  ∀ desk, svc.evidence_desk = some desk →
    ((obligations w case_id).configured_policy_required = true →
      (policy desk w case).isSome = true) ∧
    ∀ p ∈ policy desk w case, ∀ g ∈ storedGuard w case_id, ¬ Weakened g p

omit [CollisionFree] in
theorem effectivePolicy_of_upheld {desk : EvidenceDesk} (h : Upheld svc w case_id case)
    (hdesk : svc.evidence_desk = some desk) :
    ∃ floor, effectivePolicy w case_id (policy desk w case) = .ok floor := by
  obtain ⟨hpresent, hstrong⟩ := h desk hdesk
  refine ensure_total ?_ (ensure_total hstrong ⟨_, rfl⟩)
  rintro ⟨hrequired, hnone⟩
  have hsome := hpresent hrequired
  rw [Option.isNone_iff_eq_none.mp hnone] at hsome
  cases hsome

omit [CollisionFree] in
/-- A policy that is not upheld has been removed or weakened. -/
theorem effectivePolicy_of_not_upheld (h : ¬ Upheld svc w case_id case) :
    ∃ desk e, svc.evidence_desk = some desk ∧
      (e = conflict "SOURCE_POLICY_REMOVED" ∨ e = conflict "SOURCE_POLICY_WEAKENED") ∧
      effectivePolicy w case_id (policy desk w case) = .error e := by
  unfold Upheld at h
  push Not at h
  obtain ⟨desk, hdesk, h⟩ := h
  by_cases hremoved : (obligations w case_id).configured_policy_required = true ∧
      (policy desk w case).isNone = true
  · refine ⟨desk, conflict "SOURCE_POLICY_REMOVED", hdesk, Or.inl rfl, ?_⟩
    simp [effectivePolicy, ensure, hremoved, bind, Except.bind]
  · have hpresent : (obligations w case_id).configured_policy_required = true →
        (policy desk w case).isSome = true := by
      intro hrequired
      cases hpolicy : policy desk w case with
      | none => exact absurd ⟨hrequired, by simp [hpolicy]⟩ hremoved
      | some p => rfl
    obtain ⟨p, hp, g, hg, hweak⟩ := h hpresent
    have hweakened : ¬ ∀ p ∈ policy desk w case, ∀ g ∈ storedGuard w case_id, ¬ Weakened g p :=
      fun hall => hall p hp g hg hweak
    refine ⟨desk, conflict "SOURCE_POLICY_WEAKENED", hdesk, Or.inr rfl, ?_⟩
    simp only [effectivePolicy, ensure, hremoved, hweakened, not_false_eq_true, if_true, if_false,
      bind, Except.bind]

variable (svc evidence_digest) in
omit [CollisionFree] in
/-- The request to reopen a case, as it reaches the store. -/
theorem reopen_asks (h : Current w env actor cmd)
    (hauthorized : authorize actor operators none = .ok ())
    (hc : w.cases.get? case_id = some case)
    (hsubject : case.scope.subject_id ∈ actor.subjects) :
    ∃ tx, tx.change = reopenCaseChange svc actor case_id evidence_digest ∧
      Asks svc env (.reopenCase actor cmd case_id evidence_digest) tx w := by
  refine ⟨⟨actor, cmd, "case.reopen", [("case_id", .str case_id),
    ("evidence_digest", .str evidence_digest)], _, false, none⟩, rfl, ?_, h.tenant, ?_, h.new,
    ⟨rfl, rfl⟩, h.revision, h.fresh⟩
  · simp only [Call.prepare, inTransaction, reopenCase, hauthorized, bind, Except.bind]
    rfl
  · simp [recheckScopes, payloadText, List.lookup_cons, findCase_total hc hsubject, bind, Except.bind,
      pure, Except.pure]

variable (svc evidence_digest) in
/-- The change of a reopening comes down to remembering the policy. -/
theorem reopenCaseChange_eq (hrun : Run casework steps (some w))
    (hc : w.cases.get? case_id = some case) (hsubject : case.scope.subject_id ∈ actor.subjects)
    (hresolved : case.status = .resolved) :
    ∃ past, reopenCaseChange svc actor case_id evidence_digest w (w.revision + 1) = (do
      let next := reopened case actor.actor_id (w.revision + 1) evidence_digest
      let state ← deskRemembers svc.evidence_desk (recordCase w next past) next []
      let (state, impacted) := invalidate state next.scope (caseRef case_id next.version)
        "RISK_REOPENED"
      return (state, .caseReopened next impacted)) := by
  have hrecorded := ((coherent_of_run hrun w rfl).cases.recorded _
    (Dict.get?_eq_some_iff.mp hc)).1
  have hhistory : ∃ past, w.case_history.get? case_id = some past := by
    cases hpast : w.case_history.get? case_id with
    | some past => exact ⟨past, rfl⟩
    | none => simp [hpast] at hrecorded
  obtain ⟨past, hpast⟩ := hhistory
  refine ⟨past, ?_⟩
  simp only [reopenCaseChange, findCase_total hc hsubject, hresolved, item, hpast, fetch, ensure,
    if_true, bind, Except.bind]

variable (evidence_digest) in
omit [CollisionFree] in
/-- Remembering the policy of a reopened case fails only with the policy. -/
theorem remembers_reopened (past : List RiskCase) (seq : ℕ) {desk : EvidenceDesk}
    (hid : case.case_id = case_id) :
    (∀ floor, effectivePolicy w case_id (policy desk w case) = .ok floor → ∃ w',
      deskRemembers (some desk) (recordCase w (reopened case actor.actor_id seq evidence_digest) past)
        (reopened case actor.actor_id seq evidence_digest) [] = .ok w') ∧
    ∀ e, effectivePolicy w case_id (policy desk w case) = .error e →
      deskRemembers (some desk) (recordCase w (reopened case actor.actor_id seq evidence_digest) past)
        (reopened case actor.actor_id seq evidence_digest) [] = .error e := by
  subst hid
  constructor
  · intro floor hfloor
    have heffective : effectivePolicy
        (recordCase w (reopened case actor.actor_id seq evidence_digest) past) case.case_id
        (policy desk w case) = .ok floor := hfloor
    refine bind_total heffective ?_
    dsimp only
    split
    · exact ⟨_, rfl⟩
    · exact ⟨_, rfl⟩
  · intro e he
    have heffective : effectivePolicy
        (recordCase w (reopened case actor.actor_id seq evidence_digest) past) case.case_id
        (policy desk w case) = .error e := he
    change rememberPolicy _ case.case_id (policy desk w case) [] = .error e
    simp only [rememberPolicy, heffective, bind, Except.bind]

/-- A resolved case is reopened as long as its policy is upheld. -/
theorem reopen_goes (hrun : Run casework steps (some w)) (h : Current w env actor cmd)
    (hauthorized : authorize actor operators none = .ok ())
    (hc : w.cases.get? case_id = some case)
    (hsubject : case.scope.subject_id ∈ actor.subjects) (hresolved : case.status = .resolved)
    (hupheld : Upheld svc w case_id case) :
    Succeeds svc env w (.reopenCase actor cmd case_id evidence_digest)
      (fun m _ => Raised m case_id case.scope) := by
  have hid : case.case_id = case_id := (kept_of_run hrun w rfl).cases _ _ hc
  obtain ⟨tx, hchange, hasks⟩ := reopen_asks svc evidence_digest h hauthorized hc hsubject
  obtain ⟨past, hreopen⟩ := reopenCaseChange_eq svc evidence_digest hrun hc hsubject hresolved
  have htotal : ∃ r, reopenCaseChange svc actor case_id evidence_digest w (w.revision + 1) =
      .ok r := by
    rw [hreopen]
    cases hdesk : svc.evidence_desk with
    | none => exact ⟨_, rfl⟩
    | some desk =>
      obtain ⟨floor, hfloor⟩ := effectivePolicy_of_upheld hupheld hdesk
      obtain ⟨w', hw'⟩ := (remembers_reopened evidence_digest past _ hid).1 floor hfloor
      exact bind_total hw' ⟨_, rfl⟩
  have hready : Ready svc env w (.reopenCase actor cmd case_id evidence_digest) _ :=
    ⟨tx, hchange, hasks, htotal⟩
  refine hready.succeeds hrun (grounded_of_standalone rfl) ?_
  intro tx m result _ _ _ hh
  have heffect : Effect svc env w (.reopenCase actor cmd case_id evidence_digest) m result :=
    hh.effect
  have hgrows := (effect_keeps heffect hh.kept hh.fresh).2.2
  cases heffect with
  | filed plain _ _ => exact absurd plain id
  | reopened _ reopens =>
    have hsame := Option.some.inj (reopens.known.symm.trans hc)
    subst hsame
    obtain ⟨actor_id, digest, hnext⟩ := reopens.renewed
    subst hnext
    have hraised := raised_of_writes reopens.writes hh.kept.tasks hgrows rfl
    have hkey : (reopened _ actor_id (w.revision + 1) digest).case_id = case_id := hid
    rw [hkey] at hraised
    exact ⟨hraised.opened, hraised.stopped⟩

/-- A resolved case whose policy is not upheld is not reopened. -/
theorem reopen_refused (hrun : Run casework steps (some w)) (h : Current w env actor cmd)
    (hauthorized : authorize actor operators none = .ok ())
    (hc : w.cases.get? case_id = some case)
    (hsubject : case.scope.subject_id ∈ actor.subjects) (hresolved : case.status = .resolved)
    {desk : EvidenceDesk} {e : CaseworkError} (hdesk : svc.evidence_desk = some desk)
    (hpolicy : effectivePolicy w case_id (policy desk w case) = .error e)
    (hlimit : w.revision < 5000) :
    exec svc env (some w) (.reopenCase actor cmd case_id evidence_digest) = .error e := by
  have hid : case.case_id = case_id := (kept_of_run hrun w rfl).cases _ _ hc
  obtain ⟨tx, hchange, hasks⟩ := reopen_asks svc evidence_digest h hauthorized hc hsubject
  obtain ⟨past, hreopen⟩ := reopenCaseChange_eq svc evidence_digest hrun hc hsubject hresolved
  refine exec_fails hrun hasks hlimit ?_
  rw [hchange, hreopen, hdesk]
  simp only [(remembers_reopened evidence_digest past _ hid).2 e hpolicy, bind, Except.bind]

end Reopening

/-- Risks are raised under every configuration, except that a resolved case is not
reopened once its policy has been removed or weakened. -/
theorem risks_are_raised (hrun : Run casework steps (some w)) (hroom : w.cases.size < 500) :
    (∀ svc env actor cmd scope kind evidence_digest,
      authorize actor operators (some scope.subject_id) = .ok () → Current w env actor cmd →
      Succeeds svc env w (.openCase actor cmd scope kind evidence_digest)
        fun m _ => ∃ case_id, w.cases.get? case_id = none ∧ Raised m case_id scope) ∧
    (∀ ingress svc msg time meetings spec body actor, Installed svc ingress.specs →
      authenticate ingress msg time = .ok (spec, body) →
      svc.actors.get? spec.actor_id = some actor → w.tenant_id = actor.tenant_id →
      w.idempotency.get?
        (idempotencyKey actor.actor_id (deliveryKey msg.source_id msg.delivery_id)) = none →
      Fresh (meetings 0).env w → (meetings 0).read = some w → (meetings 0).store = some w →
      handle ingress svc msg time meetings ≠ .error full →
      ∃ m response, handle ingress svc msg time meetings = .ok (some m, response) ∧
        response.replayed = false ∧
        ∃ case_id, w.cases.get? case_id = none ∧ Raised m case_id spec.scope) ∧
    ∀ svc env actor cmd case_id case evidence_digest, Current w env actor cmd →
      authorize actor operators none = .ok () → w.cases.get? case_id = some case →
      case.scope.subject_id ∈ actor.subjects → case.status = .resolved →
      exec svc env (some w) (.reopenCase actor cmd case_id evidence_digest) ≠ .error full →
      (Upheld svc w case_id case → ∃ m response,
        exec svc env (some w) (.reopenCase actor cmd case_id evidence_digest) =
          .ok (some m, response) ∧ response.replayed = false ∧ Raised m case_id case.scope) ∧
      (¬ Upheld svc w case_id case → ∃ e,
        (e = conflict "SOURCE_POLICY_REMOVED" ∨ e = conflict "SOURCE_POLICY_WEAKENED") ∧
        exec svc env (some w) (.reopenCase actor cmd case_id evidence_digest) = .error e) := by
  refine ⟨?_, ?_, ?_⟩
  · intro svc env actor cmd scope kind evidence_digest hauthorized h
    exact open_goes hrun hauthorized h hroom
  · intro ingress svc msg time meetings spec body actor hinstalled hauthentic hactor htenant hnew
      hfresh hread hstore hfull
    obtain ⟨hdone, hfails⟩ := handle_of_exec hrun hauthentic hactor htenant hread hstore
    have hgoes := ingest_goes hrun hinstalled hauthentic hactor htenant hnew hfresh hroom
    obtain ⟨m, response, hexec, hnewly, hraised⟩ := hgoes (by
      intro hexec
      exact hfull (hfails full hexec (by simp [full])))
    exact ⟨m, response, hdone _ hexec, hnewly, hraised⟩
  · intro svc env actor cmd case_id case evidence_digest h hauthorized hc hsubject hresolved hfull
    constructor
    · intro hupheld
      exact reopen_goes hrun h hauthorized hc hsubject hresolved hupheld hfull
    · intro hlost
      obtain ⟨desk, e, hdesk, hcode, hpolicy⟩ := effectivePolicy_of_not_upheld hlost
      obtain ⟨tx, _, hasks⟩ := reopen_asks svc evidence_digest h hauthorized hc hsubject
      have hlimit := revision_lt_of_room hrun hasks hfull
      exact ⟨e, hcode,
        reopen_refused hrun h hauthorized hc hsubject hresolved hdesk hpolicy hlimit⟩

omit [Sha256] [CollisionFree] in
theorem settled_risks_are_raised : letI := spelling
    ∃ steps w, Run casework steps (some w) ∧ w.cases.size < 500 ∧
      ∀ svc env actor cmd scope kind evidence_digest,
        authorize actor operators (some scope.subject_id) = .ok () → Current w env actor cmd →
        Succeeds svc env w (.openCase actor cmd scope kind evidence_digest)
          fun m _ => ∃ case_id, w.cases.get? case_id = none ∧ Raised m case_id scope := by
  let _ := spelling
  have := spelling_collisionFree
  obtain ⟨steps, w, case_id, c, h⟩ := exists_settled
  have hsize := h.size
  have hroom : w.cases.size < 500 := by omega
  exact ⟨steps, w, h.run, hroom, (risks_are_raised h.run hroom).1⟩

omit [Sha256] [CollisionFree] in
/-- A case that was resolved under a policy is not reopened once the policy is gone. -/
theorem reopening_can_be_refused : letI := spelling
    ∃ steps w svc env cmd case_id case, Run casework steps (some w) ∧ w.cases.size < 500 ∧
      w.revision < 5000 ∧ (∀ w, svc.fits w = true) ∧ Current w env Crew.owner cmd ∧
      authorize Crew.owner operators none = .ok () ∧ w.cases.get? case_id = some case ∧
      case.scope.subject_id ∈ Crew.owner.subjects ∧ case.status = .resolved ∧
      exec svc env (some w) (.reopenCase Crew.owner cmd case_id Crew.evidence) =
        .error (conflict "SOURCE_POLICY_REMOVED") := by
  let _ := spelling
  have := spelling_collisionFree
  obtain ⟨steps, w, case_id, c, h⟩ := exists_settled
  have hsize := h.size
  obtain ⟨env, hfresh, _⟩ := exists_environment w 0
  obtain ⟨cmd, _, hrevision, hnew⟩ := exists_command w Crew.owner "session"
  have hcurrent : Current w env Crew.owner cmd := ⟨h.tenant, hnew, hrevision.symm, hfresh⟩
  have hsubject : c.scope.subject_id ∈ Crew.owner.subjects := by
    rw [h.scope]
    simp [Crew.transfers, Crew.owner]
  have hremoved : effectivePolicy w case_id (policy (Sourcing.desk []) w c) =
      .error (conflict "SOURCE_POLICY_REMOVED") := by
    have hnone : policy (Sourcing.desk []) w c = none := rfl
    rw [hnone]
    simp [effectivePolicy, ensure, h.owes, bind, Except.bind]
  refine ⟨steps, w, Sourcing.connected [], env, cmd, case_id, c, h.run, by omega, h.revision,
    fun _ => rfl, hcurrent, rfl, h.stored, hsubject, h.resolved, ?_⟩
  exact reopen_refused h.run hcurrent rfl h.stored hsubject h.resolved rfl hremoved h.revision

end MemoryGuard.Raising
