import MemoryGuard.CanonicalText
import MemoryGuard.Crew
import MemoryGuard.Custody
import MemoryGuard.ReviewGate

/-!
Audit anchors. The first verification of an anchor binds it to a transaction;
later ones can only repeat that transaction, and a weaker answer of the chain
never replaces a verified one. The chain is read between two transactions, so
the binding is checked against the workspace before the read and again against
the one the answer is stored in.
-/
namespace MemoryGuard.Anchoring

open OrderedDict Guarded JsonText ContentHash Models Artifacts Aggregate Core Policy Transactions
open TaskCommands CaseCommands SourceCommands PartnerCommands Traces Calls Filing
open EvidenceEffects Effects Growth Upkeep History Integrity Progress Staffing Standing ReviewGate
open Writes Custody

section LetterCase

theorem toLower_char (c : Char) : c.toLower.toLower = c.toLower := by
  by_cases hc : c.toNat < 128
  · exact (CanonicalText.toLower_ascii hc).1
  · have hsame : c.toLower = c := by
      unfold Char.toLower
      split
      · rename_i h
        have hle : c.toNat ≤ 90 := h.2
        omega
      · rfl
    rw [hsame, hsame]

theorem toLower_toLower (s : String) : s.toLower.toLower = s.toLower := by
  have hmap : ∀ s : String, s.toLower = s.map Char.toLower := fun _ => rfl
  apply String.toList_inj.mp
  simp only [hmap, String.toList_map, List.map_map]
  exact List.map_congr_left (fun c _ => toLower_char c)

end LetterCase

section Records

/-- What no later record of an anchor takes back. -/
structure Upholds (r r' : AuditAnchor) : Prop where
  plan : r'.plan = r.plan
  task_id : r'.task_id = r.task_id
  decision_id : r'.decision_id = r.decision_id
  bound : ∀ tx_hash, r.bound_tx_hash = some tx_hash → r'.bound_tx_hash = some tx_hash
  verified : r.verification.state = "VERIFIED" → r'.verification.state = "VERIFIED"

theorem Upholds.refl (r : AuditAnchor) : Upholds r r :=
  ⟨rfl, rfl, rfl, fun _ h => h, fun h => h⟩

theorem Upholds.trans {r r' r'' : AuditAnchor} (h : Upholds r r') (h' : Upholds r' r'') :
    Upholds r r'' :=
  ⟨h'.plan.trans h.plan, h'.task_id.trans h.task_id, h'.decision_id.trans h.decision_id,
    fun tx_hash hb => h'.bound tx_hash (h.bound tx_hash hb), fun hv => h'.verified (h.verified hv)⟩

/-- A bound transaction is a text in lower case, and not the empty one. -/
def Lowered (r : AuditAnchor) : Prop :=
  ∀ tx_hash ∈ r.bound_tx_hash, tx_hash.toLower = tx_hash ∧ tx_hash ≠ ""

/-- Only the bound transaction passes for the known one. -/
theorem Lowered.known {r : AuditAnchor} {tx_hash bound : String} (h : Lowered r)
    (hknown : ∀ known ∈ knownTransaction r, known.toLower = tx_hash)
    (hbound : r.bound_tx_hash = some bound) : bound = tx_hash := by
  obtain ⟨hlower, hne⟩ := h bound hbound
  rw [← hknown bound (by simp [knownTransaction, hbound, Option.filter, hne]), hlower]

theorem observeVerification_decision_id (r : AuditAnchor) (tx_hash : String)
    (seen : Verification) :
    (observeVerification r tx_hash seen).decision_id = r.decision_id := by
  simp only [observeVerification]
  split <;> [split; skip] <;> rfl

theorem observeVerification_bound (r : AuditAnchor) (tx_hash : String) (seen : Verification) :
    (observeVerification r tx_hash seen).bound_tx_hash = some tx_hash := by
  simp only [observeVerification]
  split <;> [split; skip] <;> rfl

/-- One more verification upholds what an anchor says. -/
theorem observeVerification_upholds {r : AuditAnchor} {tx_hash : String} (seen : Verification)
    (hlowered : Lowered r) (hknown : ∀ known ∈ knownTransaction r, known.toLower = tx_hash) :
    Upholds r (observeVerification r tx_hash seen) := by
  have hbound : ∀ known, r.bound_tx_hash = some known → known = tx_hash :=
    fun _ hk => hlowered.known hknown hk
  by_cases hold : r.verification.state = "VERIFIED"
  · by_cases hnew : seen.state = "VERIFIED"
    · simp only [observeVerification, if_pos hold, if_pos hnew]
      exact ⟨rfl, rfl, rfl, fun known hk => congrArg some (hbound known hk).symm, fun _ => hnew⟩
    · simp only [observeVerification, if_pos hold, if_neg hnew]
      exact ⟨rfl, rfl, rfl, fun known hk => congrArg some (hbound known hk).symm, fun _ => hold⟩
  · simp only [observeVerification, if_neg hold]
    exact ⟨rfl, rfl, rfl, fun known hk => congrArg some (hbound known hk).symm,
      fun h => absurd h hold⟩

end Records

section Steps

variable [Sha256] {svc : Service} {env : Environment} {actor : Actor} {cmd : Command}
  {w m : Workspace} {seq : ℕ} {result : Result}

omit [Sha256] in
theorem prepareAnchorChange_ok {adapter : AnchorAdapter} {task_id decision_id : Identifier}
    (h : prepareAnchorChange env actor adapter task_id decision_id w seq = .ok (m, result)) :
    ∃ r : AuditAnchor, r.bound_tx_hash = none ∧
      m = refile w (w.artifacts.set (env.fresh "anchor") (.anchor r)) := by
  simp only [prepareAnchorChange, bind_eq_ok, pure_eq_ok, Prod.mk.injEq] at h
  obtain ⟨_, _, decision, _, _, _, plan, _, hm, _⟩ := h
  exact ⟨_, rfl, hm.symm⟩

def anchorPayload (task_id anchor_id tx_hash : String) : List (String × Json) :=
  [("task_id", .str task_id), ("anchor_id", .str anchor_id), ("tx_hash", .str tx_hash)]

omit [Sha256] in
theorem anchorPayload_inj {t t' k k' tx tx' : String}
    (h : object (anchorPayload t k tx) = object (anchorPayload t' k' tx')) : k = k' ∧ tx = tx' := by
  have hfields := object_inj h rfl
  simp only [anchorPayload, List.cons.injEq, Prod.mk.injEq, Json.str.injEq, true_and,
    and_true] at hfields
  exact hfields.2

/-- A verification repeats an answer, or commits what the chain answered. -/
theorem verifyAnchor_cases {snapshot : Workspace} {anchor_id tx_hash : String}
    {verified : Except CaseworkError Verification} {p : Prepared}
    (h : verifyAnchor svc actor cmd snapshot anchor_id tx_hash verified = .ok p) :
    ∃ r, snapshot.artifacts.get? anchor_id = some (.anchor r) ∧
      ((∃ response previous, p = .answered response ∧
          snapshot.idempotency.get? (idempotencyKey actor.actor_id cmd.idempotency_key) =
            some previous ∧
          previous.request_hash = requestHash actor cmd.session_id "anchor.verify"
            (anchorPayload r.task_id anchor_id tx_hash.toLower)) ∨
        ∃ seen, IsHash tx_hash.toLower ∧ verified = .ok seen ∧
          p = .transaction ⟨actor, cmd, "anchor.verify",
            anchorPayload r.task_id anchor_id tx_hash.toLower,
            verifyAnchorChange r.plan anchor_id tx_hash.toLower seen, false, none⟩) := by
  simp only [verifyAnchor, bind_eq_ok, fetch_eq_ok] at h
  obtain ⟨_, _, _, _, _, _, _, _, r, hr, _, _, _, _, h⟩ := h
  refine ⟨r, storedAnchor_eq_some.mp hr, ?_⟩
  split at h
  · rename_i previous hprevious
    simp only [bind_eq_ok, ensure_eq_ok, pure_eq_ok] at h
    obtain ⟨_, hhash, h⟩ := h
    exact Or.inl ⟨_, previous, h.symm, hprevious, hhash⟩
  · simp only [bind_eq_ok, ensure_eq_ok, pure_eq_ok] at h
    obtain ⟨_, _, _, hhash, seen, hseen, h⟩ := h
    exact Or.inr ⟨seen, hhash, hseen, h.symm⟩

/-- Every record of an anchor is bound in lower case, and every remembered
verification left its record bound to the transaction it was asked for. -/
structure Anchored (w : Workspace) : Prop where
  lowered : ∀ k r, w.artifacts.get? k = some (.anchor r) → Lowered r
  bound : ∀ key entry actor session_id task_id anchor_id tx_hash,
    w.idempotency.get? key = some entry →
    entry.request_hash = requestHash actor session_id "anchor.verify"
      (anchorPayload task_id anchor_id tx_hash) →
    ∃ r, w.artifacts.get? anchor_id = some (.anchor r) ∧ r.bound_tx_hash = some tx_hash

theorem anchored_blank (tenant_id : Identifier) : Anchored (sealed (Workspace.blank tenant_id)) := by
  constructor <;> simp [sealed, Workspace.blank]

/-- What an event may do to the records of anchors. -/
structure Anchors (w m : Workspace) : Prop where
  upholds : ∀ k r, w.artifacts.get? k = some (.anchor r) →
    ∃ r', m.artifacts.get? k = some (.anchor r') ∧ Upholds r r'
  lowered : ∀ k r, m.artifacts.get? k = some (.anchor r) → Lowered r

variable (seq) in
omit [Sha256] in
theorem prepareAnchor_anchors {adapter : AnchorAdapter} {task_id decision_id : Identifier}
    (hfresh : Fresh env w) (hw : ∀ k r, w.artifacts.get? k = some (.anchor r) → Lowered r)
    (h : prepareAnchorChange env actor adapter task_id decision_id w seq = .ok (m, result)) :
    Anchors w m := by
  obtain ⟨new, hunbound, rfl⟩ := prepareAnchorChange_ok h
  constructor
  · intro k r hr
    have hne : env.fresh "anchor" ≠ k := by
      intro heq
      rw [← heq, hfresh.artifacts "anchor"] at hr
      cases hr
    exact ⟨r, (Dict.get?_set_of_ne _ _ hne).trans hr, Upholds.refl r⟩
  · intro k r hr
    simp only [refile, Dict.get?_set] at hr
    split at hr
    · cases hr
      intro tx_hash hbound
      simp [hunbound] at hbound
    · exact hw k r hr

variable (seq) in
theorem verifyAnchor_anchors {plan : AnchorPlan} {anchor_id tx_hash : String} {seen : Verification}
    (hw : ∀ k r, w.artifacts.get? k = some (.anchor r) → Lowered r)
    (hhash : IsHash tx_hash.toLower)
    (h : verifyAnchorChange plan anchor_id tx_hash.toLower seen w seq = .ok (m, result)) :
    Anchors w m ∧ ∃ r, m.artifacts.get? anchor_id = some (.anchor r) ∧
      r.bound_tx_hash = some tx_hash.toLower := by
  obtain ⟨old, hold, _, hknown, rfl⟩ := verifyAnchorChange_ok _ h
  have hupholds := observeVerification_upholds seen (hw _ _ hold) hknown
  refine ⟨⟨?_, ?_⟩, _, Dict.get?_set_self .., observeVerification_bound ..⟩
  · intro k r hr
    by_cases hk : anchor_id = k
    · subst hk
      rw [hold] at hr
      cases hr
      exact ⟨_, Dict.get?_set_self .., hupholds⟩
    · exact ⟨r, (Dict.get?_set_of_ne _ _ hk).trans hr, Upholds.refl r⟩
  · intro k r hr
    simp only [refile, Dict.get?_set] at hr
    split at hr
    · cases hr
      intro known hbound
      rw [observeVerification_bound] at hbound
      cases hbound
      exact ⟨toLower_toLower tx_hash, hhash.ne_empty⟩
    · exact hw k r hr

omit [Sha256] in
theorem verifyAnchor_of_name {call : Call} (h : commandName call = "anchor.verify") :
    ∃ actor cmd snapshot anchor_id tx_hash verified,
      call = .verifyAnchor actor cmd snapshot anchor_id tx_hash verified := by
  cases call with
  | verifyAnchor actor cmd snapshot anchor_id tx_hash verified =>
    exact ⟨actor, cmd, snapshot, anchor_id, tx_hash, verified, rfl⟩
  | evaluate actor cmd task_id reconsider => cases reconsider <;> simp [commandName] at h
  | _ => simp [commandName] at h

end Steps

section Runs

variable [Sha256] [CollisionFree] {steps : List Step} {s : Step} {w m : Workspace}
  {tx : Transaction} {result : Result}

theorem anchors_of_occurs (h : Occurs steps s w tx m result) (hw : Anchored w) : Anchors w m := by
  by_cases hother : Drawer.named "anchor" ∈ filed s.call
  · have hp := h.commits.prepared
    have hchanged := h.commits.changed
    cases hcall : s.call with
    | prepareAnchor actor cmd task_id decision_id =>
      rw [hcall] at hp
      have hp := inTransaction_transaction hp
      simp only [prepareAnchor, bind_eq_ok, pure_eq_ok] at hp
      obtain ⟨_, _, adapter, _, rfl⟩ := hp
      exact prepareAnchor_anchors (w.revision + 1) h.fresh hw.lowered hchanged
    | verifyAnchor actor cmd snapshot anchor_id tx_hash verified =>
      rw [hcall] at hp
      obtain ⟨_, _, ⟨_, _, htx, _⟩ | ⟨seen, hhash, _, htx⟩⟩ := verifyAnchor_cases hp
      · cases htx
      · cases htx
        exact (verifyAnchor_anchors (w.revision + 1) hw.lowered hhash hchanged).1
    | _ => simp [hcall, filed] at hother
  · constructor
    · intro k r hr
      exact ⟨r, kept_of_occurs h hr hother, Upholds.refl r⟩
    · intro k r hr
      exact hw.lowered k r (stored_of_occurs h hr hother)

theorem anchored_of_occurs (h : Occurs steps s w tx m result) (hw : Anchored w) :
    Anchored (recorded s.env w m tx result) := by
  have hanchors := anchors_of_occurs h hw
  refine ⟨hanchors.lowered, ?_⟩
  intro key entry actor session_id task_id anchor_id tx_hash hentry hhash
  rw [recorded_idempotency] at hentry
  split at hentry
  · cases hentry
    obtain ⟨hname, hpayload⟩ := requestHash_inj hhash
    rw [prepare_name h.commits.prepared] at hname
    obtain ⟨actor', cmd, snapshot, k, asked, verified, hcall⟩ := verifyAnchor_of_name hname
    have hp := h.commits.prepared
    rw [hcall] at hp
    obtain ⟨_, _, ⟨_, _, htx, _⟩ | ⟨seen, hasked, _, htx⟩⟩ := verifyAnchor_cases hp
    · cases htx
    · cases htx
      obtain ⟨rfl, rfl⟩ := anchorPayload_inj hpayload
      exact (verifyAnchor_anchors (w.revision + 1) hw.lowered hasked h.commits.changed).2
  · obtain ⟨r, hr, hbound⟩ :=
      hw.bound key entry actor session_id task_id anchor_id tx_hash hentry hhash
    obtain ⟨r', hr', hupholds⟩ := hanchors.upholds _ r hr
    exact ⟨r', hr', hupholds.bound _ hbound⟩

theorem anchored_of_run {st : Option Workspace} (h : Run casework steps st) :
    ∀ w, st = some w → Anchored w :=
  invariant_of_events Anchored anchored_blank
    (fun _ _ _ _ _ _ ho hw => anchored_of_occurs ho hw) h

/-- A record of an anchor is upheld until the end of the run. -/
theorem upheld_of_run {before after : List Step} {st : Option Workspace} {k : String}
    {r : AuditAnchor} (hmid : Run casework before (some w)) (h : Run casework (before ++ after) st)
    (hr : w.artifacts.get? k = some (.anchor r)) :
    ∃ w' r', st = some w' ∧ w'.artifacts.get? k = some (.anchor r') ∧ Upholds r r' := by
  have hlater := related_of_events
    (fun w m => ∀ k r, w.artifacts.get? k = some (.anchor r) →
      ∃ r', m.artifacts.get? k = some (.anchor r') ∧ Upholds r r') ?_ ?_ ?_ hmid h
  · obtain ⟨w', hst, hall⟩ := hlater
    obtain ⟨r', hr', hupholds⟩ := hall k r hr
    exact ⟨w', r', hst, hr', hupholds⟩
  · exact fun w k r hr => ⟨r, hr, Upholds.refl r⟩
  · intro w w' w'' hfirst hsecond k r hr
    obtain ⟨r', hr', hupholds⟩ := hfirst k r hr
    obtain ⟨r'', hr'', hupholds'⟩ := hsecond k r' hr'
    exact ⟨r'', hr'', hupholds.trans hupholds'⟩
  · intro steps s w tx m result ho hpre
    exact (anchors_of_occurs ho (anchored_of_run ho.ran w hpre)).upholds

section Repetition

variable {svc : Service} {env : Environment} {actor : Actor} {cmd : Command}
  {snapshot : Workspace} {k asked : String} {verified : Except CaseworkError Verification}
  {r : AuditAnchor}

omit [CollisionFree] in
/-- A verification that reaches the stored workspace commits only with the
transaction of the record, whatever it had read before. -/
theorem known_of_commits (hw : Anchored w) (hr : w.artifacts.get? k = some (.anchor r))
    (hcall : s.call = .verifyAnchor actor cmd snapshot k asked verified) (hpre : s.pre = some w)
    {w0 : Workspace} (hc : Commits s w0 tx m result) :
    ∀ bound, r.bound_tx_hash = some bound → bound = asked.toLower := by
  have hp := hc.prepared
  rw [hcall] at hp
  obtain ⟨_, _, ⟨_, _, htx, _⟩ | ⟨seen, _, _, htx⟩⟩ := verifyAnchor_cases hp
  · cases htx
  · cases htx
    have hw0 : w0 = w := by
      rcases loaded_cases hc.loaded with hstored | ⟨hnone, _⟩
      · rw [hpre] at hstored
        exact (Option.some.inj hstored).symm
      · rw [hpre] at hnone
        cases hnone
    subst hw0
    obtain ⟨r', hr', _, hknown, _⟩ := verifyAnchorChange_ok (w0.revision + 1) hc.changed
    rw [hr] at hr'
    cases hr'
    intro bound hbound
    exact (hw.lowered k r hr).known hknown hbound

/-- A verification that is answered from memory was committed before, so its
transaction is the one the record is bound to. -/
theorem bound_of_replays (h : Run casework steps (some w))
    (hr : w.artifacts.get? k = some (.anchor r))
    (hcall : s.call = .verifyAnchor actor cmd snapshot k asked verified) (hpre : s.pre = some w)
    {w0 : Workspace} {previous : IdempotencyEntry} (hrep : Replays s w0 tx previous) :
    r.bound_tx_hash = some asked.toLower := by
  have hp := hrep.prepared
  rw [hcall] at hp
  obtain ⟨_, _, ⟨_, _, htx, _⟩ | ⟨seen, _, _, htx⟩⟩ := verifyAnchor_cases hp
  · cases htx
  · cases htx
    have hw0 : w0 = w := by
      rcases loaded_cases hrep.loaded with hstored | ⟨hnone, _⟩
      · rw [hpre] at hstored
        exact (Option.some.inj hstored).symm
      · rw [hpre] at hnone
        cases hnone
    subst hw0
    have hreplayed := hrep.replayed
    simp only [replay, bind_eq_ok, ensure_eq_ok] at hreplayed
    obtain ⟨_, hhash, _⟩ := hreplayed
    obtain ⟨r', hr', hbound⟩ := (anchored_of_run h w0 rfl).bound _ _ _ _ _ _ _ hrep.stored hhash
    rw [hr] at hr'
    cases hr'
    exact hbound

/-- The same for an answer found in the workspace that was read first. -/
theorem bound_of_answered (h : Run casework steps (some w))
    (hr : w.artifacts.get? k = some (.anchor r)) (hread : ∃ t ∈ steps, t.post = some snapshot)
    {response : Response}
    (ha : verifyAnchor svc actor cmd snapshot k asked verified = .ok (.answered response)) :
    r.bound_tx_hash = some asked.toLower := by
  obtain ⟨_, _, ⟨_, previous, _, hprevious, hhash⟩ | ⟨seen, _, _, htx⟩⟩ := verifyAnchor_cases ha
  · obtain ⟨before, after, rfl, hmid⟩ := stored_before h hread
    obtain ⟨old, hold, hbound⟩ :=
      (anchored_of_run hmid snapshot rfl).bound _ _ _ _ _ _ _ hprevious hhash
    obtain ⟨w', r', hw', hr', hupholds⟩ := upheld_of_run hmid h hold
    cases hw'
    rw [hr] at hr'
    cases hr'
    exact hupholds.bound _ hbound
  · cases htx

/-- An anchor cannot be verified with a transaction it is not bound to, whatever
workspace of the run the verification has read. -/
theorem otherTransaction_fails {bound : String} (h : Run casework steps (some w))
    (hr : w.artifacts.get? k = some (.anchor r)) (hbound : r.bound_tx_hash = some bound)
    (hread : ∃ t ∈ steps, t.post = some snapshot) (hother : asked.toLower ≠ bound.toLower) :
    ∃ e, exec svc env (some w) (.verifyAnchor actor cmd snapshot k asked verified) = .error e := by
  cases hexec : exec svc env (some w) (.verifyAnchor actor cmd snapshot k asked verified) with
  | error e => exact ⟨e, rfl⟩
  | ok answer =>
    obtain ⟨post, response⟩ := answer
    have hanchored := anchored_of_run h w rfl
    have hlower : bound.toLower = bound := (hanchored.lowered k r hr bound hbound).1
    have hne : r.bound_tx_hash ≠ some asked.toLower := by
      rw [hbound, ← hlower]
      intro heq
      exact hother (Option.some.inj heq).symm
    let s : Step :=
      ⟨svc, env, .verifyAnchor actor cmd snapshot k asked verified, some w, post, response⟩
    have hs : exec s.svc s.env s.pre s.call = .ok (s.post, s.response) := hexec
    rcases exec_cases hs with ⟨w0, tx, m, result, hc⟩ | ⟨w0, tx, previous, hrep⟩ | ⟨ha, _⟩
    · have hsame := known_of_commits hanchored hr rfl rfl hc bound hbound
      exact absurd (hsame.symm.trans hlower.symm) hother
    · exact absurd (bound_of_replays h hr rfl rfl hrep) hne
    · exact absurd (bound_of_answered h hr hread ha) hne

end Repetition

/-- The calls on anchors. -/
def OnAnchor : Call → Prop
  | .prepareAnchor .. => True
  | .verifyAnchor .. => True
  | _ => False

omit [CollisionFree] in
theorem onAnchor_quiet (h : Occurs steps s w tx m result) (hcall : OnAnchor s.call) :
    Quiet w m := by
  have heffect := h.effect
  cases hs : s.call with
  | prepareAnchor =>
    rw [hs] at heffect
    cases heffect with
    | filed _ _ files => exact files.toQuiet
  | verifyAnchor =>
    rw [hs] at heffect
    cases heffect with
    | filed _ _ files => exact files.toQuiet
  | _ => simp [hs, OnAnchor] at hcall

omit [CollisionFree] in
/-- A check of the chain that raises leaves the store as it was. -/
theorem raised_keeps {svc : Service} {env : Environment} {st st' : Option Workspace} {actor : Actor}
    {cmd : Command} {snapshot : Workspace} {k asked : String} {e : CaseworkError}
    {response : Response}
    (h : exec svc env st (.verifyAnchor actor cmd snapshot k asked (.error e)) =
      .ok (st', response)) : st' = st := by
  have hs := exec_cases
    (s := ⟨svc, env, .verifyAnchor actor cmd snapshot k asked (.error e), st, st', response⟩) h
  have hnone : ∀ tx, Call.prepare svc env (.verifyAnchor actor cmd snapshot k asked (.error e)) ≠
      .ok (.transaction tx) := by
    intro tx hp
    obtain ⟨_, _, ⟨_, _, htx, _⟩ | ⟨seen, _, hseen, _⟩⟩ := verifyAnchor_cases hp
    · cases htx
    · cases hseen
  rcases hs with ⟨w0, tx, m, result, hc⟩ | ⟨w0, tx, previous, hrep⟩ | ⟨_, hsame⟩
  · exact absurd hc.prepared (hnone tx)
  · exact absurd hrep.prepared (hnone tx)
  · exact hsame

/-- The record of an anchor keeps its plan, task, decision, bound transaction and
verified state to the end of the run. Once it is bound, a verification with any
other transaction raises. A chain check that raises changes nothing, and no call
on anchors changes a task, a decision, a case or a baseline. -/
theorem anchor_binds_once {before after : List Step} {w' : Workspace} {k : String}
    {r : AuditAnchor} (hmid : Run casework before (some w))
    (hrun : Run casework (before ++ after) (some w'))
    (hr : w.artifacts.get? k = some (.anchor r)) :
    (∃ r', w'.artifacts.get? k = some (.anchor r') ∧ Upholds r r') ∧
    (∀ bound svc env actor cmd snapshot asked verified, r.bound_tx_hash = some bound →
      (∃ t ∈ before ++ after, t.post = some snapshot) → asked.toLower ≠ bound.toLower →
      ∃ e, exec svc env (some w') (.verifyAnchor actor cmd snapshot k asked verified) =
        .error e) ∧
    (∀ svc env st st' actor cmd snapshot k asked e response,
      exec svc env st (.verifyAnchor actor cmd snapshot k asked (.error e)) =
        .ok (st', response) → st' = st) ∧
    (∀ steps s w m, Run casework steps s.pre → Allowed steps s → OnAnchor s.call →
      s.pre = some w → s.post = some m →
      m.tasks = w.tasks ∧ m.decisions = w.decisions ∧ m.cases = w.cases ∧
        m.case_history = w.case_history ∧ m.baselines = w.baselines ∧
        m.baseline_history = w.baseline_history) := by
  obtain ⟨w1, r', hw1, hr', hupholds⟩ := upheld_of_run hmid hrun hr
  cases hw1
  refine ⟨⟨r', hr', hupholds⟩, ?_, ?_, ?_⟩
  · intro bound svc env actor cmd snapshot asked verified hbound hread hother
    exact otherTransaction_fails hrun hr' (hupholds.bound bound hbound) hread hother
  · intro svc env st st' actor cmd snapshot k asked e response h
    exact raised_keeps h
  · intro steps s w m hrun hnow hcall hpre hpost
    rcases between_cases hrun hnow hpre hpost with rfl | ⟨tx, m', result, ho, rfl⟩
    · exact ⟨rfl, rfl, rfl, rfl, rfl, rfl⟩
    · have hquiet := onAnchor_quiet ho hcall
      exact ⟨hquiet.tasks, hquiet.decisions, hquiet.cases, hquiet.logs.case_history,
        hquiet.baselines, hquiet.logs.baseline_history⟩

end Runs

section Specimen

def notary : AnchorAdapter where
  plan := fun root version chain => .ok ⟨chain, "0x1", "0x", root, version, "0x2"⟩

/-- The service of the crew, with an anchor adapter. -/
def notarized : Service := { Crew.deskless with anchor := some notary }

def minedHash : String := "0x5c504ed432cb51138bcf09aa5e8a410dd4a1e204ef84bfed1be16dfba1b22060"

def otherHash : String := "0x88df016429689c079f3b2f6ad39fa052532c56795b733da78a91ebe6a713944b"

def mined : Verification := ⟨"VERIFIED", some minedHash, []⟩

/-- The same transaction, seen with too few blocks on it. -/
def reorganized : Verification := ⟨"PENDING", some minedHash, []⟩

theorem minedHash_isHash : IsHash minedHash := by decide +kernel

theorem minedHash_lower : minedHash.toLower = minedHash := by
  apply String.toList_inj.mp
  rw [show minedHash.toLower = minedHash.map Char.toLower from rfl, String.toList_map]
  decide +kernel

theorem otherHash_other : otherHash.toLower ≠ minedHash.toLower := by
  intro h
  rw [minedHash_lower] at h
  have hlist := congrArg String.toList h
  rw [show otherHash.toLower = otherHash.map Char.toLower from rfl, String.toList_map] at hlist
  revert hlist
  decide +kernel

variable [Sha256] [CollisionFree] {steps : List Step} {w : Workspace} {task : Models.Task}
  {d : Decision}

/-- An anchor for the decision of the payment is prepared. -/
theorem can_prepareAnchor (h : Crew.Started steps w task d) :
    ∃ s w' k r, Run casework (steps ++ [s]) (some w') ∧ s.post = some w' ∧
      w'.tenant_id = "tenant" ∧ w'.revision = 4 ∧ w'.tasks = w.tasks ∧
      w'.decisions = w.decisions ∧ w'.artifacts.get? k = some (.anchor r) ∧
      r.task_id = task.task_id ∧ r.decision_id = d.decision_id ∧ knownTransaction r = none := by
  have htask : findTask w Crew.reviewer task.task_id = .ok task := by
    have hsubject : task.intent.scope.subject_id ∈ Crew.reviewer.subjects := by
      rw [h.intent]
      decide
    exact bind_eq_ok.mpr ⟨task, fetch_eq_ok.mpr h.proves.stored,
      bind_eq_ok.mpr ⟨(), ensure_eq_ok.mpr hsubject, rfl⟩⟩
  have hdone : ∃ cmd s m result, Goes notarized 0 steps w
      (.prepareAnchor Crew.reviewer cmd task.task_id d.decision_id) s m result ∧ Fresh s.env w ∧
      prepareAnchorChange s.env Crew.reviewer notary task.task_id d.decision_id w
        (w.revision + 1) = .ok (m, result) := by
    refine can_do (fun env cmd => ⟨Crew.reviewer, cmd, "anchor.prepare",
        [("task_id", .str task.task_id), ("decision_id", .str d.decision_id)],
        prepareAnchorChange env Crew.reviewer notary task.task_id d.decision_id, false, none⟩)
      h.opened.run h.opened.tenant (by rw [h.opened.revision]; omega) (fun _ => rfl)
      (fun _ _ _ => rfl) (fun _ => rfl) (fun _ _ => ⟨rfl, rfl⟩) (fun _ _ => ⟨rfl, rfl⟩) ?_ ?_
    · intro env cmd
      simp [recheckScopes, payloadText, List.lookup_cons, htask, bind, Except.bind]
    · intro env cmd _ _
      simp only [prepareAnchorChange, htask, h.proves.decision, h.proves.about, notary, fetch,
        ensure, if_true, bind, Except.bind]
      exact ⟨_, rfl⟩
  obtain ⟨cmd, s, m, result, hs, _, hm⟩ := hdone
  obtain ⟨tx, hpost⟩ := hs.post
  simp only [prepareAnchorChange, htask, h.proves.decision, h.proves.about, notary, fetch,
    ensure, if_true, bind, Except.bind, pure_eq_ok, Prod.mk.injEq] at hm
  obtain ⟨rfl, _⟩ := hm
  refine ⟨s, _, _, _, hpost ▸ hs.run h.opened.run, hpost, h.opened.tenant, ?_, rfl, rfl,
    Dict.get?_set_self .., rfl, rfl, rfl⟩
  exact congrArg (· + 1) h.opened.revision

/-- An anchor is verified with the mined transaction, whatever the chain says, if
no other one is known. -/
theorem can_verifyAnchor (seen : Verification) {k : String} {r : AuditAnchor}
    (hrun : Run casework steps (some w)) (hread : ∃ t ∈ steps, t.post = some w)
    (htenant : w.tenant_id = "tenant") (hroom : w.revision < 5000)
    (hr : w.artifacts.get? k = some (.anchor r))
    (hknown : ∀ known ∈ knownTransaction r, known.toLower = minedHash)
    (htask : findTask w Crew.reviewer r.task_id = .ok task)
    (hd : w.decisions.get? r.decision_id = some d) :
    ∃ s' w', Run casework (steps ++ [s']) (some w') ∧ s'.post = some w' ∧
      w'.tenant_id = w.tenant_id ∧ w'.revision = w.revision + 1 ∧ w'.tasks = w.tasks ∧
      w'.decisions = w.decisions ∧
      w'.artifacts.get? k = some (.anchor (observeVerification r minedHash seen)) := by
  have hkept := kept_of_run hrun w rfl
  have hvalid := validateWorkspace_ok hkept.toShaped (coherent_of_run hrun w rfl)
  obtain ⟨env, hfresh, hclock⟩ := exists_environment w 0
  obtain ⟨cmd, _, hrevision, hnew⟩ := exists_command w Crew.reviewer "session"
  have hget : w.tasks.get? r.task_id = some task := findTask_ok htask
  obtain ⟨closure, hclosure⟩ := hkept.tasks.ancestors_of_get? hget
  have hid : task.task_id = r.task_id := hkept.tasks.keyed _ _ hget
  rw [← hid] at hclosure
  let changed := refile w (w.artifacts.set k (.anchor (observeVerification r minedHash seen)))
  have hancestors : ancestors changed task.task_id = .ok closure :=
    (Closure.ancestors_congr rfl (fun _ _ => rfl)).trans hclosure
  have hbasis := taskBasis_eq hancestors
  let tx : Transaction := ⟨Crew.reviewer, cmd, "anchor.verify",
    anchorPayload r.task_id k minedHash, verifyAnchorChange r.plan k minedHash seen, false, none⟩
  have hstored : storedAnchor w k = some r := storedAnchor_eq_some.mpr hr
  have hprepared : (Call.verifyAnchor Crew.reviewer cmd w k minedHash (.ok seen)).prepare
      notarized env = .ok (.transaction tx) := by
    simp only [Call.prepare, verifyAnchor, hvalid, htenant, hstored, htask, hnew, hrevision,
      minedHash_lower, fetch, ensure, bind, Except.bind]
    rw [if_pos hknown, if_pos minedHash_isHash]
    rfl
  have hscopes : recheckScopes w tx = .ok () := by
    simp [recheckScopes, tx, anchorPayload, payloadText, List.lookup_cons, htask, bind, Except.bind]
  have hadmit : preconditions w tx = .ok () := by
    simp [preconditions, tx, hrevision, hroom, ensure, bind, Except.bind]
  have hchange : ∃ result, tx.change w (w.revision + 1) = .ok (changed, result) := by
    have hid' : (observeVerification r minedHash seen).decision_id = r.decision_id :=
      observeVerification_decision_id r minedHash seen
    have htasks : changed.tasks.get? r.task_id = some task := hid ▸ hget
    have hdecisions : changed.decisions.get? r.decision_id = some d := hd
    refine ⟨_, bind_eq_ok.mpr ⟨r, fetch_eq_ok.mpr hstored, bind_eq_ok.mpr
      ⟨(), ensure_eq_ok.mpr rfl, bind_eq_ok.mpr ⟨(), ensure_eq_ok.mpr hknown, bind_eq_ok.mpr
      ⟨task, fetch_eq_ok.mpr ?_, bind_eq_ok.mpr ⟨d, fetch_eq_ok.mpr ?_, bind_eq_ok.mpr
      ⟨_, hbasis, rfl⟩⟩⟩⟩⟩⟩⟩
    · rw [observeVerification_task_id]
      exact htasks
    · rw [hid']
      exact hdecisions
  obtain ⟨result, hchange⟩ := hchange
  obtain ⟨s', rfl, hs⟩ := goes_of_admitted hrun
    ⟨hprepared, rfl, htenant, hscopes, hnew, hadmit, hfresh⟩ hchange (fun _ => rfl) hclock
    (grounded_of_observed trivial rfl hread)
  obtain ⟨tx', hpost'⟩ := hs.post
  exact ⟨s', _, hpost' ▸ hs.run hrun, hpost', rfl, rfl, rfl, rfl, Dict.get?_set_self ..⟩

omit [Sha256] [CollisionFree] in
/-- A later check of the chain sees too few blocks: the anchor stays verified,
and it cannot be verified with another transaction. -/
theorem mined_anchor_stays : letI := spelling
    ∃ before later w w' k r, Run casework before (some w) ∧
      Run casework (before ++ [later]) (some w') ∧ w'.revision = w.revision + 1 ∧
      w.artifacts.get? k = some (.anchor r) ∧ r.bound_tx_hash = some minedHash ∧
      r.verification.state = "VERIFIED" ∧
      (∃ r', w'.artifacts.get? k = some (.anchor r') ∧ Upholds r r' ∧
        r'.last_verification_attempt = some reorganized) ∧
      ∀ env cmd, ∃ e, exec notarized env (some w')
        (.verifyAnchor Crew.reviewer cmd w' k otherHash (.ok mined)) = .error e := by
  let _ := spelling
  have := spelling_collisionFree
  obtain ⟨steps, w, task, d, h⟩ := Crew.exists_started
  obtain ⟨s, w1, k, r, hrun, hpost, htenant, hrevision, htasks, hdecisions, hr, htask, hd, hfree⟩ :=
    can_prepareAnchor h
  have hget : w1.tasks.get? r.task_id = some task := by
    rw [htasks, htask]
    exact h.proves.stored
  have hsubject : task.intent.scope.subject_id ∈ Crew.reviewer.subjects := by
    rw [h.intent]
    decide
  have hfind : ∀ m : Workspace, m.tasks = w1.tasks →
      findTask m Crew.reviewer r.task_id = .ok task := fun m hm =>
    bind_eq_ok.mpr ⟨task, fetch_eq_ok.mpr (hm ▸ hget),
      bind_eq_ok.mpr ⟨(), ensure_eq_ok.mpr hsubject, rfl⟩⟩
  have hdecision : w1.decisions.get? r.decision_id = some d := by
    rw [hdecisions, hd]
    exact h.proves.decision
  obtain ⟨s', w2, hrun2, hpost2, htenant2, hrevision2, htasks2, hdecisions2, hr2⟩ :=
    can_verifyAnchor mined hrun ⟨s, by simp, hpost⟩ htenant (by omega) hr
      (by simp [hfree]) (hfind w1 rfl) hdecision
  have hbound := observeVerification_bound r minedHash mined
  have hverified : (observeVerification r minedHash mined).verification = mined := by
    simp only [observeVerification, if_pos (show mined.state = "VERIFIED" from rfl)]
    split <;> rfl
  have hknown : ∀ known ∈ knownTransaction (observeVerification r minedHash mined),
      known.toLower = minedHash := by
    intro known hk
    simp only [knownTransaction, hbound, Option.filter, minedHash_isHash.ne_empty, ne_eq,
      not_false_eq_true, decide_true, if_true, Option.some_or, Option.mem_some_iff] at hk
    rw [← hk, minedHash_lower]
  obtain ⟨s'', w3, hrun3, hpost3, _, hrevision3, _, _, hr3⟩ :=
    can_verifyAnchor reorganized hrun2 ⟨s', by simp, hpost2⟩ (htenant2.trans htenant) (by omega) hr2
      hknown ((observeVerification_task_id r minedHash mined).symm ▸ hfind w2 htasks2)
      (by rw [observeVerification_decision_id, hdecisions2, hdecision])
  -- The record is verified by now, so the weaker answer is kept beside it.
  have hattempt : (observeVerification (observeVerification r minedHash mined) minedHash
      reorganized).last_verification_attempt = some reorganized := by
    rw [observeVerification.eq_1 (observeVerification r minedHash mined)]
    simp only [hverified, if_pos (show mined.state = "VERIFIED" from rfl),
      if_neg (show reorganized.state ≠ "VERIFIED" by decide)]
  obtain ⟨⟨r', hr', hupholds⟩, hother, _⟩ := anchor_binds_once hrun2 hrun3 hr2
  rw [hr3] at hr'
  cases hr'
  refine ⟨_, s'', w2, w3, k, _, hrun2, hrun3, hrevision3, hr2, hbound,
    congrArg Verification.state hverified, ⟨_, hr3, hupholds, hattempt⟩, fun env cmd => ?_⟩
  exact hother minedHash notarized env Crew.reviewer cmd w3 otherHash (.ok mined) hbound
    ⟨s'', by simp, hpost3⟩ otherHash_other

end Specimen

end MemoryGuard.Anchoring
