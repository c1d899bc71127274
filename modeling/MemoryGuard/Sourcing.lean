import MemoryGuard.Crew
import MemoryGuard.Custody
import MemoryGuard.LastingReports

/-!
A case with evidence. One issue tracker is configured and demanded for a dispute
over transfers. The investigator reads it, and what is read suffices for a report.
-/
namespace MemoryGuard.Sourcing

open OrderedDict Guarded DependencyGraph JsonText ContentHash Models Artifacts Aggregate Core
open Closure SourceModels SourceState SourceGuard SourceService Transactions TaskCommands
open CaseCommands SourceCommands Traces Calls Floors Filing EvidenceEffects TaskEffects
open CaseEffects Effects Growth Upkeep History Integrity Heads Progress Staffing Bundles
open LastingReports Crew

section Connectors

def issues : SourceSpec where
  source_id := "issues"
  kind := .githubIssue
  tenant_id := "tenant"
  subjects := ["subject"]
  independence_group := "github"
  repositories := ["owner/repository"]
  token_env := none
  rpc_url := none
  chain_id := .base
  ttl_seconds := 300
  min_confirmations := 3
  max_attempts_per_case := 20

/-- A dispute over transfers is resolved with the tracker's evidence. -/
def demand : ScopeEvidencePolicy := ⟨"tenant", transfers, ["issues"], 1⟩

/-- The tracker takes the name of an issue as it is. -/
def desk (policies : List ScopeEvidencePolicy) : EvidenceDesk :=
  ⟨⟨[issues], policies, []⟩, fun _ requested _ => .ok requested⟩

def connected (policies : List ScopeEvidencePolicy) : Service :=
  { deskless with evidence_desk := some (desk policies) }

def ticket : String := "owner/repository#1"

def closedIssue : Observation where
  facts := Dict.empty.set "state" (.str "closed")
  payload_sha256 := evidence
  provenance := "github_rest"
  external_calls := 1
  claim_boundary := "public issue state"

def acquisition (c : RiskCase) : Acquisition := ⟨c, issues, ticket⟩

def demandGuard (case_id : Identifier) : PolicyGuard :=
  ⟨case_id, ⟨["issues"], 1, true⟩, ["issues"]⟩

theorem desk_spec (policies : List ScopeEvidencePolicy) :
    (desk policies).specs.get? "issues" = some issues := rfl

theorem desk_policy [Sha256] {w : Workspace} {c : RiskCase} (htenant : w.tenant_id = "tenant")
    (hscope : c.scope = transfers) : policy (desk [demand]) w c = some demand := by
  simp [policy, desk, demand, htenant, hscope]

end Connectors

variable [Sha256] [CollisionFree] {steps : List Step} {w : Workspace} {c : RiskCase}

section Reserving

/-- What is filed once the tracker has been asked. -/
def askedFiles (env : Environment) (cmd : Command) (c : RiskCase) : Dict String Artifact :=
  let files := Dict.empty.set (guardKey c.case_id) (.policyGuard (demandGuard c.case_id))
  let files := files.set (fetchId investigator cmd)
    (.request (pendingRequest env investigator cmd c.case_id (acquisition c) c.version))
  files.set (sourceKey c.case_id "issues")
    (.head (pendingHead investigator cmd c.case_id (acquisition c) c.version))

omit [CollisionFree] in
theorem remember_demand (hempty : w.artifacts = .empty) (htenant : w.tenant_id = "tenant")
    (hscope : c.scope = transfers) :
    remember (desk [demand]) w c ["issues"] = .ok (refile w
      (Dict.empty.set (guardKey c.case_id) (.policyGuard (demandGuard c.case_id)))) := by
  have hunclaimed : Unclaimed w c.case_id := by
    intro a ha
    rw [hempty] at ha
    cases ha
  have hguard : storedGuard w c.case_id = none := by
    unfold storedGuard
    rw [hempty]
    rfl
  have heffective : effectivePolicy w c.case_id (some demand) = .ok ⟨["issues"], 1, true⟩ := by
    simp only [effectivePolicy, obligations_unclaimed hunclaimed, hguard]
    rfl
  simp only [remember, desk_policy htenant hscope, rememberPolicy, heffective, hguard, bind,
    Except.bind]
  rw [hempty]
  rfl

/-- The case is stored and open, and nothing has been filed for it. -/
structure Pristine (w : Workspace) (c : RiskCase) : Prop where
  stored : w.cases.get? c.case_id = some c
  opened : c.status = .opened
  scope : c.scope = transfers
  tenant : w.tenant_id = "tenant"
  empty : w.artifacts = .empty

omit [Sha256] [CollisionFree] in
theorem Pristine.find (h : Pristine w c) : findCase w investigator c.case_id = .ok c := by
  refine findCase_total h.stored ?_
  rw [h.scope]
  simp [transfers, investigator]

omit [CollisionFree] in
/-- The tracker may be read for the case. -/
theorem collection_opens (hvalid : validateWorkspace w = .ok ()) (h : Pristine w c) :
    openCollection (desk [demand]) investigator c.case_id "issues" ticket w =
      .ok (acquisition c) := by
  have hauthorized : authorize investigator operators none = .ok () := rfl
  have hallowed : allowedSpec (desk [demand]) investigator "issues" c.scope = .ok issues := by
    rw [h.scope]
    simp only [allowedSpec, desk_spec, fetch, bind, Except.bind]
    rfl
  have htenant : w.tenant_id = investigator.tenant_id := h.tenant
  simp only [openCollection, hauthorized, hvalid, htenant, h.find, hallowed, ensure, if_true, bind,
    Except.bind]
  rfl

omit [CollisionFree] in
theorem no_receipts (hfiled : Filed w.artifacts) (hstored : w.cases.get? c.case_id = some c)
    (hnone : ∀ k h, w.artifacts.get? k ≠ some (.head h)) (time : Instant)
    (specs : Dict Identifier SourceSpec) : currentReceipts w c.case_id time specs = .ok ([], []) := by
  obtain ⟨heads, hheads, hget⟩ := evidenceHeads_ok hfiled hstored
  have hentries : heads.entries = [] := by
    apply List.eq_nil_iff_forall_not_mem.mpr
    intro e he
    obtain ⟨hhead, _⟩ := (hget e.1 e.2).mp (Dict.get?_eq_some_iff.mpr he)
    exact hnone _ _ hhead
  simp only [currentReceipts, hheads, item, hstored, fetch, hentries, bind, Except.bind]
  rfl

omit [CollisionFree] in
/-- The reservation of a first read. -/
theorem reserveChange_first {env : Environment} {cmd : Command} (seq : ℕ) (h : Pristine w c) :
    reserveChange (desk [demand]) env investigator cmd c.case_id (acquisition c) false w seq =
      .ok (refile w (askedFiles env cmd c), .sourceReserved (fetchId investigator cmd)) := by
  let guarded := refile w
    (Dict.empty.set (guardKey c.case_id) (.policyGuard (demandGuard c.case_id)))
  have hremember : remember (desk [demand]) w c ["issues"] = .ok guarded :=
    remember_demand h.empty h.tenant h.scope
  have honly : ∀ k a, guarded.artifacts.get? k = some a →
      k = guardKey c.case_id ∧ a = .policyGuard (demandGuard c.case_id) := by
    intro k a ha
    change (Dict.empty.set (guardKey c.case_id) _).get? k = some a at ha
    rw [Dict.get?_set] at ha
    split at ha
    · rename_i hk
      cases ha
      exact ⟨hk.symm, rfl⟩
    · simp at ha
  have hfiled : Filed guarded.artifacts := by
    intro k a ha
    obtain ⟨rfl, rfl⟩ := honly k a ha
    rfl
  have hreceipts := no_receipts (w := guarded) hfiled h.stored (by
    intro k head hk
    obtain ⟨_, hhead⟩ := honly k _ hk
    cases hhead) (env.clock .receipts) (desk [demand]).specs
  have hattempts : reservationCount guarded c.case_id "issues" < 20 := by
    have hnone : reservationCount guarded c.case_id "issues" = 0 := rfl
    omega
  have hversion : c.version = (acquisition c).case.version := rfl
  have hsource : (acquisition c).spec.source_id = "issues" := rfl
  have hbudget : (acquisition c).spec.max_attempts_per_case = 20 := rfl
  simp only [reserveChange, h.find, h.opened, ← hversion, and_self, ensure, if_true, hsource,
    hremember, hreceipts, List.find?_nil, hbudget, hattempts, bind, Except.bind]
  rfl

/-- The key under which the end of a read is remembered. -/
def doneKey (actor : Actor) (cmd : Command) : Identifier :=
  "done_" ++ shortDigest 32 "fetch-id" (texts [actor.tenant_id, actor.actor_id, cmd.idempotency_key])

/-- An actor always has a key left for both halves of a read. -/
theorem exists_read_command (w : Workspace) (actor : Actor) :
    ∃ cmd : Command, cmd.expected_revision = w.revision ∧
      w.idempotency.get? (idempotencyKey actor.actor_id cmd.idempotency_key) = none ∧
      w.idempotency.get? (idempotencyKey actor.actor_id (doneKey actor cmd)) = none ∧
      cmd.idempotency_key ≠ doneKey actor cmd := by
  let cmd (n : ℕ) : Command := ⟨String.ofList (List.replicate n 'k'), "session", w.revision⟩
  let first (n : ℕ) : Digest := idempotencyKey actor.actor_id (cmd n).idempotency_key
  let second (n : ℕ) : Digest := idempotencyKey actor.actor_id (doneKey actor (cmd n))
  have hname : ∀ n n', (cmd n).idempotency_key = (cmd n').idempotency_key → n = n' := by
    intro n n' h
    have hlist := congrArg List.length (String.ofList_injective h)
    simpa using hlist
  have hfirst : Function.Injective first := by
    intro n n' h
    simp only [first, idempotencyKey, digest_inj, texts_inj, true_and, List.cons.injEq,
      and_true] at h
    exact hname n n' h
  have hsecond : Function.Injective second := by
    intro n n' h
    simp only [second, idempotencyKey, digest_inj, texts_inj, true_and, List.cons.injEq,
      and_true] at h
    have hlist := congrArg String.toList h
    simp only [doneKey, String.toList_append, List.append_right_inj] at hlist
    have hshort := (shortDigest_inj (by decide)).mp (String.toList_inj.mp hlist)
    simp only [texts_inj, true_and, List.cons.injEq, and_true] at hshort
    exact hname n n' hshort
  have hused := List.finite_toSet w.idempotency.keys
  have hfinite := (hused.preimage hfirst.injOn).union (hused.preimage hsecond.injOn)
  obtain ⟨n, hn⟩ := hfinite.exists_notMem
  simp only [Set.mem_union, Set.mem_preimage, Set.mem_ofPred_eq, not_or] at hn
  refine ⟨cmd n, rfl, Dict.get?_eq_none_iff.mpr hn.1, Dict.get?_eq_none_iff.mpr hn.2, ?_⟩
  intro hsame
  have hlist := congrArg String.toList hsame
  have hhead : (List.replicate n 'k').head? = some 'd' := by
    rw [← String.toList_ofList (l := List.replicate n 'k')]
    change (cmd n).idempotency_key.toList.head? = _
    rw [hlist, doneKey, String.toList_append]
    rfl
  cases n with
  | zero => simp at hhead
  | succ n => simp [List.replicate_succ] at hhead

/-- The tracker can be asked. -/
theorem can_ask (hrun : Run casework steps (some w)) (hlimit : w.revision < 5000)
    (hread : ∃ t ∈ steps, t.post = some w) (h : Pristine w c) :
    ∃ cmd s, w.idempotency.get? (idempotencyKey investigator.actor_id (doneKey investigator cmd)) =
        none ∧ cmd.idempotency_key ≠ doneKey investigator cmd ∧
      Goes (connected [demand]) 0 steps w (.reserveSource investigator cmd (desk [demand]) c.case_id
        "issues" ticket w false) s (refile w (askedFiles s.env cmd c))
        (.sourceReserved (fetchId investigator cmd)) := by
  obtain ⟨env, hfresh, hclock⟩ := exists_environment w 0
  obtain ⟨cmd, hrevision, hnew, hdone, hdiffers⟩ := exists_read_command w investigator
  have hvalid := validateWorkspace_ok (kept_of_run hrun w rfl).toShaped (coherent_of_run hrun w rfl)
  let tx : Transaction := ⟨investigator, cmd, "source.reserve", [("case_id", .str c.case_id),
    ("source_id", .str "issues"), ("resource", .str ticket), ("force_refresh", .bool false)],
    reserveChange (desk [demand]) env investigator cmd c.case_id (acquisition c) false, false, none⟩
  have hasks : Asks (connected [demand]) env (.reserveSource investigator cmd (desk [demand])
      c.case_id "issues" ticket w false) tx w := by
    refine ⟨?_, h.tenant, ?_, hnew, ⟨rfl, rfl⟩, hrevision.symm, hfresh⟩
    · simp only [Call.prepare, inTransaction, reserveSource, collection_opens hvalid h, bind,
        Except.bind]
      rfl
    · have hfind := h.find
      simp [recheckScopes, tx, payloadText, List.lookup_cons, hfind, bind, Except.bind, pure,
        Except.pure]
  have hgrounded : Grounded steps (connected [demand]) (.reserveSource investigator cmd
      (desk [demand]) c.case_id "issues" ticket w false) := grounded_of_observed trivial rfl hread
  obtain ⟨s, rfl, hs⟩ := goes_of_admitted hrun (hasks.admitted hlimit)
    (reserveChange_first (w.revision + 1) h) (fun _ => rfl) hclock hgrounded
  exact ⟨cmd, s, hdone, hdiffers, hs⟩

end Reserving

section Reading

/-- What is filed once the tracker has answered. -/
def readFiles (env env' : Environment) (cmd : Command) (c : RiskCase) : Dict String Artifact :=
  let files := (askedFiles env cmd c).set (fetchId investigator cmd)
    (.request { pendingRequest env investigator cmd c.case_id (acquisition c) c.version with
      state := .observed
      finished_at := some (env'.clock .finished)
      error := none
      receipt_id := some (env'.fresh "source") })
  let files := files.set (env'.fresh "source")
    (.receipt (newReceipt env' c.case_id (acquisition c) closedIssue))
  files.set (sourceKey c.case_id "issues")
    (.head { pendingHead investigator cmd c.case_id (acquisition c) c.version with
      state := .observed
      receipt_id := some (env'.fresh "source") })

theorem sourceKey_ne_fetchId (case_id source_id : Identifier) (actor : Actor) (cmd : Command) :
    sourceKey case_id source_id ≠ fetchId actor cmd := by
  obtain ⟨x, hx⟩ := fetchId_named actor cmd
  rw [hx]
  exact digest_ne_newId

theorem askedFiles_request (env : Environment) (cmd : Command) (c : RiskCase) :
    (askedFiles env cmd c).get? (fetchId investigator cmd) = some (.request
      (pendingRequest env investigator cmd c.case_id (acquisition c) c.version)) := by
  have hne := sourceKey_ne_fetchId c.case_id "issues" investigator cmd
  unfold askedFiles
  dsimp only
  rw [Dict.get?_set_of_ne _ _ hne, Dict.get?_set_self]

omit [CollisionFree] in
theorem askedFiles_head (env : Environment) (cmd : Command) (c : RiskCase) :
    (askedFiles env cmd c).get? (sourceKey c.case_id "issues") = some (.head
      (pendingHead investigator cmd c.case_id (acquisition c) c.version)) := by
  unfold askedFiles
  dsimp only
  rw [Dict.get?_set_self]

/-- The completion of a first read. -/
theorem finishChange_first (env env' : Environment) (cmd : Command) (seq : ℕ) {m : Workspace}
    (hstored : findCase m investigator c.case_id = .ok c) (hopen : c.status = .opened)
    (hfiles : m.artifacts = askedFiles env cmd c) :
    finishChange env' investigator c.case_id (acquisition c) (fetchId investigator cmd)
      (.ok closedIssue) m seq = .ok (refile m (readFiles env env' cmd c),
        .sourceFinished (fetchId investigator cmd) .observed none
          (some (newReceipt env' c.case_id (acquisition c) closedIssue)) (some 1)) := by
  have hrequest := askedFiles_request env cmd c
  have hhead := askedFiles_head env cmd c
  have hsource : (acquisition c).spec.source_id = "issues" := rfl
  have hversion : (acquisition c).case.version = c.version := rfl
  have hpoints : (pendingHead investigator cmd c.case_id (acquisition c) c.version).request_id =
      fetchId investigator cmd := rfl
  have hpending : (pendingRequest env investigator cmd c.case_id (acquisition c) c.version).state =
      .pending := rfl
  simp only [finishChange, hfiles, hrequest, hpending, hstored, hsource, hhead, pointed, hpoints,
    hopen, hversion, ensure, if_true, ne_eq, not_true_eq_false, Option.isNone_some,
    Bool.false_eq_true, or_self, decide_false, bind, Except.bind, pure, Except.pure]
  rfl

/-- The tracker can be read. -/
theorem can_read {cmd : Command} {s : Step} {w1 : Workspace}
    (hrun : Run casework (steps ++ [s]) (some w1)) (hlimit : w.revision + 1 < 5000)
    (hread : ∃ t ∈ steps, t.post = some w) (h : Pristine w c) (hvalid : validateWorkspace w = .ok ())
    (hdone : w.idempotency.get? (idempotencyKey investigator.actor_id (doneKey investigator cmd)) =
      none) (hdiffers : cmd.idempotency_key ≠ doneKey investigator cmd)
    (hs : Goes (connected [demand]) 0 steps w (.reserveSource investigator cmd (desk [demand])
      c.case_id "issues" ticket w false) s (refile w (askedFiles s.env cmd c))
      (.sourceReserved (fetchId investigator cmd))) (hpost : s.post = some w1) :
    ∃ s' tx' result', Goes (connected [demand]) 0 (steps ++ [s]) w1 (.finishSource investigator cmd
        (desk [demand]) c.case_id "issues" ticket w (.ok closedIssue) w1.revision) s'
        (refile w1 (readFiles s.env s'.env cmd c)) result' ∧
      s'.post = some (recorded s'.env w1 (refile w1 (readFiles s.env s'.env cmd c)) tx' result') ∧
      Fresh s'.env w1 := by
  obtain ⟨tx, hh⟩ := hs.happened
  have hw1 : w1 = recorded s.env w (refile w (askedFiles s.env cmd c)) tx
      (.sourceReserved (fetchId investigator cmd)) :=
    Option.some.inj (hpost.symm.trans hh.commits.post)
  have hkey : tx.key = idempotencyKey investigator.actor_id cmd.idempotency_key := by
    have hp := hh.commits.prepared
    rw [hs.call] at hp
    have hp := inTransaction_transaction hp
    simp only [reserveSource, bind_eq_ok, pure_eq_ok] at hp
    obtain ⟨_, _, rfl⟩ := hp
    rfl
  have hnew : w1.idempotency.get?
      (idempotencyKey investigator.actor_id (doneKey investigator cmd)) = none := by
    rw [hw1, recorded_idempotency, hkey, if_neg]
    · exact hdone
    · intro hsame
      simp only [idempotencyKey, digest_inj, texts_inj, true_and, List.cons.injEq, and_true] at hsame
      exact hdiffers hsame
  have hfind : findCase w1 investigator c.case_id = .ok c := by
    rw [hw1]
    exact h.find
  have hfiles : w1.artifacts = askedFiles s.env cmd c := by
    rw [hw1]
    rfl
  have hrevision : w1.revision = w.revision + 1 := by
    rw [hw1]
    rfl
  have htenant : w1.tenant_id = investigator.tenant_id := by
    rw [hw1]
    exact h.tenant
  obtain ⟨env, hfresh, hclock⟩ := exists_environment w1 0
  let tx' : Transaction := ⟨investigator, ⟨doneKey investigator cmd, cmd.session_id, w1.revision⟩,
    "source.finish", [("case_id", .str c.case_id), ("request_id", .str (fetchId investigator cmd)),
      ("result_digest", .str (digest "source-result" (fetchedJson (.ok closedIssue))))],
    finishChange env investigator c.case_id (acquisition c) (fetchId investigator cmd)
      (.ok closedIssue), false, none⟩
  have hasks : Asks (connected [demand]) env (.finishSource investigator cmd (desk [demand])
      c.case_id "issues" ticket w (.ok closedIssue) w1.revision) tx' w1 := by
    refine ⟨?_, htenant, ?_, hnew, ⟨rfl, rfl⟩, rfl, hfresh⟩
    · simp only [Call.prepare, inTransaction, finishSource, collection_opens hvalid h, bind,
        Except.bind]
      rfl
    · simp [recheckScopes, tx', payloadText, List.lookup_cons, hfind, bind, Except.bind, pure,
        Except.pure]
  have hgrounded : Grounded (steps ++ [s]) (connected [demand]) (.finishSource investigator cmd
      (desk [demand]) c.case_id "issues" ticket w (.ok closedIssue) w1.revision) := by
    refine ⟨?_, ?_, ?_, ?_⟩
    · intro snapshot hsnapshot
      cases hsnapshot
      obtain ⟨t, ht, hread⟩ := hread
      exact ⟨t, by simp [ht], hread⟩
    · intro _ _ _ _ _ hcall
      cases hcall
    · intro _ _ _ _ _ _ _ _ _ hcall
      cases hcall
      exact ⟨s, by simp, hs.committed, ⟨_, hs.result⟩, false, hs.call⟩
    · intro _ _ _ hcall
      cases hcall
  have hchange := finishChange_first s.env env cmd (w1.revision + 1)
    hfind h.opened hfiles
  obtain ⟨s', rfl, hs'⟩ := goes_of_admitted hrun (hasks.admitted (by omega)) hchange
    (fun _ => rfl) hclock hgrounded
  obtain ⟨tx'', hpost'⟩ := hs'.post
  exact ⟨s', tx'', _, hs', hpost', hfresh⟩

end Reading

section Evidence

variable {env env' : Environment} {cmd : Command}

def readRequest (env env' : Environment) (cmd : Command) (c : RiskCase) : SourceRequest :=
  { pendingRequest env investigator cmd c.case_id (acquisition c) c.version with
    state := .observed
    finished_at := some (env'.clock .finished)
    error := none
    receipt_id := some (env'.fresh "source") }

def readHead (env' : Environment) (cmd : Command) (c : RiskCase) : SourceHead :=
  { pendingHead investigator cmd c.case_id (acquisition c) c.version with
    state := .observed
    receipt_id := some (env'.fresh "source") }

def readReceipt (env' : Environment) (c : RiskCase) : SourceReceipt :=
  newReceipt env' c.case_id (acquisition c) closedIssue

theorem Fits.ne {k k' : String} {a b : Artifact} (ha : Fits k a) (hb : Fits k' b)
    (hkind : drawer a ≠ drawer b) : k ≠ k' := by
  rintro rfl
  exact hkind (ha.drawer_eq hb)

omit [CollisionFree] in
theorem readFits (env env' : Environment) (cmd : Command) (c : RiskCase) :
    Fits (guardKey c.case_id) (.policyGuard (demandGuard c.case_id)) ∧
      Fits (fetchId investigator cmd) (.request (readRequest env env' cmd c)) ∧
      Fits (env'.fresh "source") (.receipt (readReceipt env' c)) ∧
      Fits (sourceKey c.case_id "issues") (.head (readHead env' cmd c)) :=
  ⟨rfl, ⟨rfl, fetchId_named ..⟩, ⟨rfl, _, rfl⟩, rfl⟩

/-- What is filed is a guard, a request, a receipt and a head. -/
theorem readFiles_get? (env env' : Environment) (cmd : Command) (c : RiskCase) (k : String)
    (a : Artifact) : (readFiles env env' cmd c).get? k = some a ↔
      (k = guardKey c.case_id ∧ a = .policyGuard (demandGuard c.case_id)) ∨
      (k = fetchId investigator cmd ∧ a = .request (readRequest env env' cmd c)) ∨
      (k = env'.fresh "source" ∧ a = .receipt (readReceipt env' c)) ∨
      (k = sourceKey c.case_id "issues" ∧ a = .head (readHead env' cmd c)) := by
  obtain ⟨hguard, hrequest, hreceipt, hhead⟩ := readFits env env' cmd c
  have hgq := Fits.ne hguard hrequest (by simp [drawer])
  have hgr := Fits.ne hguard hreceipt (by simp [drawer])
  have hgh := Fits.ne hguard hhead (by simp [drawer])
  have hqr := Fits.ne hrequest hreceipt (by simp [drawer])
  have hqh := Fits.ne hrequest hhead (by simp [drawer])
  have hrh := Fits.ne hreceipt hhead (by simp [drawer])
  have hsets : readFiles env env' cmd c =
      (((askedFiles env cmd c).set (fetchId investigator cmd)
        (.request (readRequest env env' cmd c))).set (env'.fresh "source")
          (.receipt (readReceipt env' c))).set (sourceKey c.case_id "issues")
            (.head (readHead env' cmd c)) := rfl
  rw [hsets, Dict.get?_set, Dict.get?_set, Dict.get?_set]
  unfold askedFiles
  dsimp only
  rw [Dict.get?_set, Dict.get?_set, Dict.get?_set]
  by_cases hh : sourceKey c.case_id "issues" = k
  · subst hh
    simp [hgh.symm, hqh.symm, hrh.symm, eq_comm]
  · by_cases hr : env'.fresh "source" = k
    · subst hr
      simp [hh, hgr.symm, hqr.symm, Ne.symm hh, eq_comm]
    · by_cases hq : fetchId investigator cmd = k
      · subst hq
        simp [hh, hr, hgq.symm, Ne.symm hh, Ne.symm hr, eq_comm]
      · by_cases hg : guardKey c.case_id = k
        · subst hg
          simp [hh, hr, hq, Ne.symm hh, Ne.symm hr, Ne.symm hq, eq_comm]
        · simp [hh, hr, hq, hg, Ne.symm hh, Ne.symm hr, Ne.symm hq, Ne.symm hg]

/-- A workspace in which the tracker has been read for the case. -/
structure Evidenced (env env' : Environment) (cmd : Command) (w : Workspace) (c : RiskCase) :
    Prop where
  stored : w.cases.get? c.case_id = some c
  scope : c.scope = transfers
  tenant : w.tenant_id = "tenant"
  files : w.artifacts = readFiles env env' cmd c
  clock : ∀ reading, env'.clock reading = 0
  kept : Kept w

omit [CollisionFree] in
theorem single_conflictless (env' : Environment) (c : RiskCase) :
    sourceConflicts [readReceipt env' c] = [] := rfl

namespace Evidenced

variable (h : Evidenced env env' cmd w c)
include h

theorem get? (k : String) (a : Artifact) : w.artifacts.get? k = some a ↔
    (k = guardKey c.case_id ∧ a = .policyGuard (demandGuard c.case_id)) ∨
    (k = fetchId investigator cmd ∧ a = .request (readRequest env env' cmd c)) ∨
    (k = env'.fresh "source" ∧ a = .receipt (readReceipt env' c)) ∨
    (k = sourceKey c.case_id "issues" ∧ a = .head (readHead env' cmd c)) := by
  rw [h.files]
  exact readFiles_get? env env' cmd c k a

theorem heads : ∃ heads, evidenceHeads w c.case_id = .ok heads ∧
    byKey heads.entries = [("issues", readHead env' cmd c)] := by
  obtain ⟨heads, hheads, hget⟩ := evidenceHeads_ok h.kept.filed h.stored
  refine ⟨heads, hheads, ?_⟩
  have hmem : ∀ e, e ∈ heads.entries ↔ e = ("issues", readHead env' cmd c) := by
    rintro ⟨s, head⟩
    rw [← Dict.get?_eq_some_iff, hget s head]
    constructor
    · rintro ⟨hstored, _, rfl, _⟩
      have hcases := (h.get? _ _).mp hstored
      simp only [reduceCtorEq, and_false, false_or, Artifact.head.injEq] at hcases
      rw [hcases.2]
      rfl
    · intro he
      obtain ⟨rfl, rfl⟩ := Prod.mk.inj he
      exact ⟨(h.get? _ _).mpr (Or.inr (Or.inr (Or.inr ⟨rfl, rfl⟩))), rfl, rfl, rfl⟩
  have hperm : heads.entries.Perm [("issues", readHead env' cmd c)] := by
    rw [List.perm_ext_iff_of_nodup (List.Nodup.of_map _ heads.nodup) (List.nodup_singleton _)]
    intro e
    rw [hmem, List.mem_singleton]
  rw [List.perm_singleton.mp hperm]
  rfl

theorem usable : usableReceipt w c.case_id c 0 (desk [demand]).specs "issues"
    (readHead env' cmd c) = .ok (readReceipt env' c) := by
  have hfetched : (readReceipt env' c).fetched_at = 0 := h.clock .finished
  have hexpires : (readReceipt env' c).expires_at = 0 + seconds 300 :=
    congrArg (· + seconds 300) (h.clock .finished)
  refine usableReceipt_eq_ok.mpr ⟨issues, readRequest env env' cmd c, rfl, ?_, ⟨rfl, rfl, rfl, rfl⟩,
    rfl, ⟨h.tenant.symm, ?_, rfl⟩, ?_, ⟨rfl, rfl, rfl, rfl, rfl, rfl, rfl, rfl⟩, ⟨?_, ?_, ?_⟩, ?_, rfl⟩
  · exact (h.get? _ _).mpr (Or.inr (Or.inr (Or.inl ⟨rfl, rfl⟩)))
  · rw [h.scope]
    simp [transfers, issues]
  · exact (h.get? _ _).mpr (Or.inr (Or.inl ⟨rfl, rfl⟩))
  · rw [hfetched]
  · rw [hfetched, hexpires]
    decide
  · rw [hfetched, hexpires]
    rfl
  · rw [hexpires]
    decide

theorem receipts : currentReceipts w c.case_id 0 (desk [demand]).specs =
    .ok ([readReceipt env' c], []) := by
  obtain ⟨heads, hheads, hentries⟩ := h.heads
  simp only [currentReceipts, hheads, item, h.stored, fetch, hentries, List.map_cons, List.map_nil,
    h.usable, bind, Except.bind]
  rfl

/-- The tracker is all that is owed. -/
theorem owes : ∃ floor, effectivePolicy w c.case_id (some demand) = .ok floor ∧
    (∀ s ∈ floor.required_sources, s = "issues") ∧ floor.min_independence_groups ≤ 1 := by
  have hbound : obligations w c.case_id ≤ ⟨["issues"], 1, true⟩ := by
    refine (obligations_le_iff h.kept.recent).mpr ?_
    intro a ha
    obtain ⟨k, hk⟩ := Dict.exists_get?_of_mem_values ha
    refine le_trans (owedTo_le_owed _ a) ?_
    rcases (h.get? k a).mp hk with ⟨_, rfl⟩ | ⟨_, rfl⟩ | ⟨_, rfl⟩ | ⟨_, rfl⟩
    · exact le_refl _
    · exact ⟨fun s hs => hs, Nat.zero_le _, fun _ => rfl⟩
    · exact ⟨fun s hs => hs, Nat.zero_le _, fun _ => rfl⟩
    · exact ⟨fun s hs => hs, Nat.zero_le _, fun _ => rfl⟩
  have hguard : storedGuard w c.case_id = some (demandGuard c.case_id) := by
    unfold storedGuard
    rw [(h.get? _ _).mpr (Or.inl ⟨rfl, rfl⟩)]
  have hstrong : ¬ Weakened (demandGuard c.case_id) demand := by
    unfold Weakened
    simp [demandGuard, demand]
  refine ⟨⟨sorted ((obligations w c.case_id).required_sources ++ ["issues"]).dedup,
    max (obligations w c.case_id).min_independence_groups 1,
    true || (obligations w c.case_id).configured_policy_required⟩, ?_, ?_, ?_⟩
  · refine bind_eq_ok.mpr ⟨(), ensure_eq_ok.mpr (by simp), bind_eq_ok.mpr ⟨(), ?_, rfl⟩⟩
    refine ensure_eq_ok.mpr ?_
    intro p hp g hg
    rw [hguard] at hg
    cases hp
    cases hg
    exact hstrong
  · intro s hs
    rw [mem_sorted, List.mem_dedup, List.mem_append, List.mem_singleton] at hs
    rcases hs with hs | hs
    · exact List.mem_singleton.mp (hbound.1 s hs)
    · exact hs
  · exact max_le hbound.2.1 (le_refl 1)

/-- What was read covers what is owed. -/
theorem covered : ∃ value, reportContext (desk [demand]) w c.case_id 0 = .ok (some value) ∧
    value.source_conflicts = [] ∧ value.coverage_complete = true ∧
    bundleRequires value = true ∧ ∀ r ∈ value.receipts, 0 < r.expires_at := by
  obtain ⟨floor, hfloor, honly, hgroups⟩ := h.owes
  have hpolicy := desk_policy h.tenant h.scope
  have hcurrent := h.receipts
  have hdemands : Demands (desk [demand]) w c.case_id c := by
    left
    simp [hpolicy]
  have hcontext : ∃ value, context (desk [demand]) w c.case_id 0 = .ok value := by
    simp only [context, item, h.stored, fetch, hpolicy, hfloor, hcurrent, bind, Except.bind]
    exact ⟨_, rfl⟩
  obtain ⟨value, hvalue⟩ := hcontext
  obtain ⟨case, floor', receipts, hof⟩ := context_ok hvalue
  have hcase : case = c := Option.some.inj (hof.stored.symm.trans h.stored)
  subst hcase
  have hsame : floor' = floor :=
    Except.ok.inj ((hpolicy ▸ hof.effective).symm.trans hfloor)
  have hread := Except.ok.inj (hof.current.symm.trans hcurrent)
  simp only [Prod.mk.injEq] at hread
  obtain ⟨hreceipts, hrejected⟩ := hread
  have hconflicts : value.source_conflicts = [] := by
    rw [hof.conflicts, hreceipts, single_conflictless]
  have hrequires : bundleRequires value = true := by
    unfold bundleRequires
    simp [hof.recorded, (effectivePolicy_ok hof.effective).2.2, hpolicy]
  refine ⟨value, reportContext_of_demands h.stored hdemands hvalue, hconflicts, ?_, hrequires, ?_⟩
  · refine hof.complete.mpr ⟨hrejected, hconflicts, ?_, ?_⟩
    · intro s hs
      have hread : (readReceipt env' case).source_id = "issues" := rfl
      rw [hreceipts, honly s (hsame ▸ hs), List.map_singleton, hread]
      exact List.mem_singleton_self _
    · have hone : (coveringGroups floor'.required_sources receipts).length = 1 := by
        rw [hreceipts]
        unfold coveringGroups
        split
        · rfl
        · rename_i hnonempty
          obtain ⟨s, hs⟩ := List.exists_mem_of_ne_nil _ hnonempty
          have hissues : (readReceipt env' case).source_id ∈ floor'.required_sources := by
            have hsource : s = "issues" := honly s (hsame ▸ hs)
            show "issues" ∈ _
            rw [← hsource]
            exact hs
          simp [hissues]
      rw [hone, hsame]
      exact hgroups
  · intro r hr
    obtain ⟨receipts', hcurrent', hsummaries⟩ := context_receipts hvalue
    have hread' := Except.ok.inj (hcurrent'.symm.trans hcurrent)
    simp only [Prod.mk.injEq] at hread'
    rw [hsummaries, hread'.1, List.map_singleton, List.mem_singleton] at hr
    subst hr
    have hexpires : (readReceipt env' case).expires_at = 0 + seconds 300 :=
      congrArg (· + seconds 300) (h.clock .finished)
    change 0 < (readReceipt env' case).expires_at
    rw [hexpires]
    decide

end Evidenced

end Evidence

section Examining

variable {env env' : Environment} {asked : Command}

/-- The investigator can report on what was read. -/
theorem can_examine (hrun : Run casework steps (some w)) (hlimit : w.revision < 5000)
    (hread : ∃ t ∈ steps, t.post = some w) (hopen : c.status = .opened)
    (h : Evidenced env env' asked w c) :
    ∃ cmd s m result, Goes (connected [demand]) 0 steps w
      (.investigate investigator cmd c.case_id w .deterministic) s m result := by
  have hvalid := validateWorkspace_ok h.kept.toShaped (coherent_of_run hrun w rfl)
  have hsubject : c.scope.subject_id ∈ investigator.subjects := by
    rw [h.scope]
    simp [transfers, investigator]
  obtain ⟨environment, hfresh, hclock⟩ := exists_environment w 0
  obtain ⟨cmd, _, hrevision, hnew⟩ := exists_command w investigator "session"
  obtain ⟨value, hvalue, hconflicts, hcomplete, _, _⟩ := h.covered
  obtain ⟨basis, hbasis⟩ := investigationBasis_total h.kept.toShaped h.stored
  have hattempt : w.artifacts.get? (attemptId investigator cmd) = none := by
    refine Custody.free_of_named h.kept.filed (by simp) (attemptId_named investigator cmd) ?_
    intro b hb
    rcases (h.get? _ b).mp hb with ⟨_, rfl⟩ | ⟨_, rfl⟩ | ⟨_, rfl⟩ | ⟨_, rfl⟩ <;> simp [drawer]
  have hauthorized : authorize investigator [.investigator] none = .ok () := rfl
  have htenant : w.tenant_id = investigator.tenant_id := h.tenant
  have hpresent : requireDesk w c.case_id (some (desk [demand])) none = .ok () := by
    simp [requireDesk]
  have hconnected : (connected [demand]).evidence_desk = some (desk [demand]) := rfl
  have hopened : openInvestigation (connected [demand]) environment investigator cmd c.case_id w =
      .ok (.inr ⟨c, basis, some value⟩) := by
    simp only [openInvestigation, hauthorized, hvalid, htenant, findCase_total h.stored hsubject,
      hnew, hattempt, hrevision, hopen, hconnected, hpresent, hbasis, hclock, hvalue, hconflicts,
      hcomplete, List.isEmpty_nil, ensure, if_true, bind, Except.bind]
    rfl
  obtain ⟨related, hrelated⟩ := relatedCases_total h.kept.tasks c.scope
  obtain ⟨precedents, hprecedents⟩ := activePrecedents_total h.stored
  obtain ⟨report, hreport⟩ : ∃ r, draftReport environment investigator c.case_id w
      ⟨c, basis, some value⟩ .deterministic = .ok r :=
    bind_total hrelated (bind_total hprecedents ⟨_, rfl⟩)
  have hinspected : (inspections report).map TraceEvent.output_hash =
      [some (digest "tool-output" value.toJson)] := (draftReport_ok hreport).2.2.2.2.2
  have hstands : validateReport (desk [demand]) w c report (environment.clock .report) = .ok () := by
    simp only [validateReport, hclock, hvalue, hinspected, hconflicts, hcomplete, ensure,
      List.isEmpty_nil, if_true, bind, Except.bind]
  have hchange : ∃ r, investigateChange (connected [demand]) environment investigator cmd c.case_id
      report (some value) false w (w.revision + 1) = .ok r := by
    simp only [investigateChange, item, h.stored, fetch, hconnected, hstands, Bool.false_eq_true,
      if_false, bind, Except.bind, pure, Except.pure]
    exact ⟨_, rfl⟩
  obtain ⟨⟨m, result⟩, hm⟩ := hchange
  let tx : Transaction := ⟨investigator, cmd, "case.investigate", [("case_id", .str c.case_id)],
    investigateChange (connected [demand]) environment investigator cmd c.case_id report (some value)
      false, false, some (c.case_id, basis)⟩
  have hprepared : (Call.investigate investigator cmd c.case_id w .deterministic).prepare
      (connected [demand]) environment = .ok (.transaction tx) := by
    simp only [Call.prepare, investigate, hopened, hreport, bind, Except.bind]
    rfl
  have hadmit : preconditions w tx = .ok () := by
    have hhas : w.cases.Has c.case_id := by simp [Dict.Has, h.stored]
    simp [preconditions, tx, hhas, hbasis, hlimit, ensure, bind, Except.bind]
  have hscopes : recheckScopes w tx = .ok () := by
    simp [recheckScopes, tx, payloadText, List.lookup_cons, findCase_total h.stored hsubject, bind,
      Except.bind, pure, Except.pure]
  obtain ⟨s, rfl, hs⟩ := goes_of_admitted hrun
    ⟨hprepared, rfl, htenant, hscopes, hnew, hadmit, hfresh⟩ hm (fun _ => rfl) hclock
    (grounded_of_observed rfl rfl hread)
  exact ⟨cmd, s, m, result, hs⟩

/-- The investigator has reported on the evidence of a new case. -/
structure Examined (steps : List Step) (s : Step) (w w' : Workspace) (c : RiskCase) (cmd : Command)
    (value : EvidenceContext) : Prop where
  call : s.call = .investigate investigator cmd c.case_id w .deterministic
  service : s.svc = connected [demand]
  clock : ∀ reading, s.env.clock reading = 0
  pre : s.pre = some w
  committed : s.Committed
  run : Run casework (steps ++ [s]) (some w')
  stored : w.cases.get? c.case_id = some c
  shown : reportContext (desk [demand]) w c.case_id 0 = .ok (some value)
  live : ∀ r ∈ value.receipts, 0 < r.expires_at
  required : bundleRequires value = true
  scope : c.scope = transfers
  opener : c.opened_by = owner.actor_id
  revision : w'.revision + 4 < 5000
  size : w'.cases.size ≤ 1

theorem exists_examined : ∃ steps s w w' c cmd value, Examined steps s w w' c cmd value := by
  obtain ⟨steps, w, task, d, hstarted⟩ := exists_started
  obtain ⟨s, w', task', c, hd⟩ := exists_disputed hstarted
  have hpristine : Pristine w' c :=
    ⟨hd.reviewable.stored, hd.reviewable.opened, hd.scope, hd.opened.tenant, hd.artifacts⟩
  have hrun := hd.opened.run
  have hrevision := hd.opened.revision
  have hvalid := validateWorkspace_ok (kept_of_run hrun w' rfl).toShaped (coherent_of_run hrun w' rfl)
  have hread : ∃ t ∈ steps ++ [s], t.post = some w' := ⟨s, by simp, hd.post⟩
  obtain ⟨asked, s1, hdone, hdiffers, hs1⟩ := can_ask hrun (by omega) hread hpristine
  obtain ⟨tx1, hpost1⟩ := hs1.post
  have hrun1 := hs1.run hrun
  rw [hpost1] at hrun1
  obtain ⟨s2, tx2, result2, hs2, hpost2, _⟩ :=
    can_read hrun1 (by omega) hread hpristine hvalid hdone hdiffers hs1 hpost1
  have hrun2 := hs2.run hrun1
  rw [hpost2] at hrun2
  have hevidenced : ∃ w2, s2.post = some w2 ∧ w2.revision = w'.revision + 1 + 1 ∧
      w2.cases.size ≤ 1 ∧ Evidenced s1.env s2.env asked w2 c := by
    refine ⟨_, hpost2, rfl, ?_, ?_, hd.scope, ?_, ?_, hs2.clock, kept_of_run hrun2 _ rfl⟩
    · change w'.cases.size ≤ 1
      rw [hd.cases]
      exact Dict.size_set_le _ _ _
    · exact hd.reviewable.stored
    · exact hd.opened.tenant
    · rfl
  obtain ⟨w2, hnow, hrevision2, hsize, hevidenced⟩ := hevidenced
  rw [← hpost2, hnow] at hrun2
  obtain ⟨cmd3, s3, m3, result3, hs3⟩ := can_examine hrun2 (by omega)
    ⟨s2, by simp, hnow⟩ hd.reviewable.opened hevidenced
  obtain ⟨tx3, hpost3⟩ := hs3.post
  have hrun3 := hs3.run hrun2
  rw [hpost3] at hrun3
  have hsize3 : (recorded s3.env w2 m3 tx3 result3).cases.size ≤ 1 := by
    have hquiet : Quiet w2 m3 := by
      have heffect := hs3.effect
      cases heffect with
      | filed _ _ files => exact files.toQuiet
      | investigated _ _ _ investigates => exact investigates.toQuiet
    change m3.cases.size ≤ 1
    rw [hquiet.cases]
    exact hsize
  obtain ⟨value, hvalue, _, _, hrequires, hlive⟩ := hevidenced.covered
  exact ⟨_, s3, w2, _, c, cmd3, value, hs3.call, hs3.service, hs3.clock, hs3.pre, hs3.committed,
    hrun3, hevidenced.stored, hvalue, hlive, hrequires, hd.scope, hd.opener,
    (by change w2.revision + 1 + 4 < 5000; omega), hsize3⟩

end Examining

end MemoryGuard.Sourcing
