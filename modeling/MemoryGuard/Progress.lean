import MemoryGuard.Heads
import Mathlib.Data.Set.Finite.List

/-!
What can always be done next. A new request whose change succeeds commits,
because nothing that the store checks afterwards can fail but its size. A
decision is always reached, and where no desk is configured a case with no
source obligation can be opened, investigated, reviewed and resolved.
-/
namespace MemoryGuard.Progress

open OrderedDict Guarded DependencyGraph JsonText ContentHash Models Artifacts Aggregate Core
open Closure Policy SourceModels SourceState SourceGuard SourceService Transactions TaskCommands
open CaseCommands Traces Calls Filing EvidenceEffects TaskEffects CaseEffects Effects Growth
open Upkeep Lifecycle History Integrity Heads

section Names

/-- Some length is longer than every listed key. -/
theorem exists_longer (l : List String) : ∃ n, ∀ k ∈ l, k.length < n := by
  induction l with
  | nil => exact ⟨0, by simp⟩
  | cons key rest ih =>
    obtain ⟨n, hn⟩ := ih
    refine ⟨max (key.length + 1) n, ?_⟩
    intro k hk
    rcases List.mem_cons.mp hk with rfl | hk
    · omega
    · have hlt := hn k hk
      omega

theorem exists_fresh {α : Type*} (d : Dict String α) (l : List String) (hsub : d.keys ⊆ l) {n : ℕ}
    (hn : ∀ k ∈ l, k.length < n) (env : Environment)
    (huuid : ∀ stem, (env.uuid stem).length = n) (stem : String) :
    d.get? (env.fresh stem) = none := by
  rw [Dict.get?_eq_none_iff]
  intro hmem
  have hlt := hn _ (hsub hmem)
  simp only [Environment.fresh, newId, String.length_append, huuid] at hlt
  omega

/-- At every time some identifiers are new to the workspace. -/
theorem exists_environment (w : Workspace) (time : Instant) :
    ∃ env, Fresh env w ∧ ∀ reading, env.clock reading = time := by
  obtain ⟨n, hn⟩ := exists_longer (w.cases.keys ++ w.tasks.keys ++ w.decisions.keys ++
    w.reports.keys ++ w.handoffs.keys ++ w.lessons.keys ++ w.artifacts.keys)
  let env : Environment := ⟨fun _ => time, fun _ => String.ofList (List.replicate n 'f')⟩
  have huuid : ∀ stem, (env.uuid stem).length = n := by
    intro stem
    simp [env]
  refine ⟨env, ⟨?_, ?_, ?_, ?_, ?_, ?_, ?_⟩, fun _ => rfl⟩
  all_goals
    refine exists_fresh _ _ ?_ hn env huuid
    intro k hk
    simp [hk]

variable [Sha256] [CollisionFree]

/-- An actor always has a key left that no answer is stored under. -/
theorem exists_command (w : Workspace) (actor : Actor) (session_id : Identifier) :
    ∃ cmd : Command, cmd.session_id = session_id ∧ cmd.expected_revision = w.revision ∧
      w.idempotency.get? (idempotencyKey actor.actor_id cmd.idempotency_key) = none := by
  by_contra hnone
  have hused : ∀ n : ℕ, idempotencyKey actor.actor_id (String.ofList (List.replicate n 'k')) ∈
      {k | k ∈ w.idempotency.keys} := by
    intro n
    by_contra hn
    exact hnone ⟨⟨String.ofList (List.replicate n 'k'), session_id, w.revision⟩, rfl, rfl,
      Dict.get?_eq_none_iff.mpr hn⟩
  have hinj : Function.Injective
      (fun n => idempotencyKey actor.actor_id (String.ofList (List.replicate n 'k'))) := by
    intro n n' h
    simp only [idempotencyKey, digest_inj, texts_inj, true_and, List.cons.injEq, and_true] at h
    have hlist := String.ofList_injective h
    simpa using congrArg List.length hlist
  exact Set.infinite_of_injective_forall_mem hinj hused (List.finite_toSet w.idempotency.keys)

end Names

variable [Sha256]

section Committing

variable {svc : Service} {env : Environment} {call : Call} {st : Option Workspace}
  {tx : Transaction} {w m : Workspace} {result : Result}

/-- A new request that the store admits. -/
structure Admitted (svc : Service) (env : Environment) (call : Call) (st : Option Workspace)
    (tx : Transaction) (w : Workspace) : Prop where
  prepared : call.prepare svc env = .ok (.transaction tx)
  loaded : loaded st tx = .ok w
  tenant : w.tenant_id = tx.actor.tenant_id
  scopes : recheckScopes w tx = .ok ()
  new : w.idempotency.get? tx.key = none
  admits : preconditions w tx = .ok ()
  fresh : Fresh env w

/-- The step that commits a change. -/
def committing (svc : Service) (env : Environment) (call : Call) (st : Option Workspace)
    (tx : Transaction) (w m : Workspace) (result : Result) : Step where
  svc := svc
  env := env
  call := call
  pre := st
  post := some (recorded env w m tx result)
  response := answer (auditEvent env w tx result) result

theorem mutate_commits (hvalid : validateWorkspace w = .ok ())
    (hnext : validateWorkspace (recorded env w m tx result) = .ok ())
    (h : Admitted svc env call st tx w) (hchange : tx.change w (w.revision + 1) = .ok (m, result))
    (hfits : svc.fits (recorded env w m tx result) = true) :
    mutate svc env st tx =
      .ok (some (recorded env w m tx result), answer (auditEvent env w tx result) result) := by
  have hsave : save svc (recorded env w m tx result) = .ok () :=
    bind_eq_ok.mpr ⟨(), hnext, ensure_eq_ok.mpr hfits⟩
  simp only [mutate, h.loaded, hvalid, h.tenant, h.scopes, h.new, h.admits, hchange, hsave,
    ensure, if_true, bind, Except.bind]
  rfl

omit [Sha256] in
/-- The calls that do not go on from earlier ones, and do not come in from outside. -/
def SelfContained : Call → Prop
  | .ingest .. => False
  | .finishSource .. => False
  | .investigate _ _ _ _ planning => planning.status = .deterministic
  | _ => True

omit [Sha256] in
/-- Such a call rests on the workspace that it looked at, if any. -/
theorem grounded_of_selfContained {steps : List Step} {svc : Service} {call : Call}
    (h : SelfContained call)
    (hread : ∀ w, call.snapshot = some w → ∃ t ∈ steps, t.post = some w) :
    Grounded steps svc call := by
  refine ⟨hread, ?_, ?_, ?_⟩
  · intro _ _ _ _ _ hcall hplanned
    subst hcall
    exact absurd h hplanned
  · intro _ _ _ _ _ _ _ _ _ hcall
    subst hcall
    exact absurd h id
  · intro _ _ _ hcall
    subst hcall
    exact absurd h id

omit [Sha256] in
theorem grounded_of_observed {steps : List Step} {svc : Service} {call : Call} {w : Workspace}
    (h : SelfContained call) (hsnapshot : call.snapshot = some w)
    (hread : ∃ t ∈ steps, t.post = some w) : Grounded steps svc call := by
  apply grounded_of_selfContained h
  intro w' hw'
  rw [hsnapshot] at hw'
  cases hw'
  exact hread

omit [Sha256] in
/-- The calls that rest on no earlier step and on no ingress. -/
def Standalone : Call → Prop
  | .ingest .. => False
  | call => call.snapshot = none

omit [Sha256] in
theorem grounded_of_standalone {steps : List Step} {svc : Service} {call : Call}
    (h : Standalone call) : Grounded steps svc call := by
  apply grounded_of_selfContained
  · cases call <;> simp_all [Standalone, SelfContained, Call.snapshot]
  · intro w hw
    cases call <;> simp_all [Standalone, Call.snapshot]

/-- An admitted request whose change succeeds commits, where the store takes
the size of the result. -/
theorem run_commits [CollisionFree] {steps : List Step} (hrun : Run casework steps st)
    (h : Admitted svc env call st tx w) (hchange : tx.change w (w.revision + 1) = .ok (m, result))
    (hfits : svc.fits (recorded env w m tx result) = true)
    (hgrounded : Grounded steps svc call) :
    Run casework (steps ++ [committing svc env call st tx w m result])
        (some (recorded env w m tx result)) ∧
      Happened (committing svc env call st tx w m result) w tx m result := by
  obtain ⟨hkept, hcoherent⟩ := loaded_sound hrun h.loaded
  have hvalid := validateWorkspace_ok hkept.toShaped hcoherent
  have hnext := takesChanges_of_run hrun svc env call tx w m result h.prepared h.loaded h.tenant
    h.new h.fresh hchange
  have hmutate := mutate_commits hvalid hnext h hchange hfits
  have hexec : exec svc env st call =
      .ok (some (recorded env w m tx result), answer (auditEvent env w tx result) result) := by
    simp only [exec, h.prepared, bind, Except.bind]
    exact hmutate
  have hfresh : ∀ state, st = some state → Fresh env state := by
    rintro state rfl
    have hw : state = w := by
      simpa [loaded, pure, Except.pure] using h.loaded
    exact hw ▸ h.fresh
  have hnow : Allowed steps (committing svc env call st tx w m result) :=
    ⟨hgrounded, hfresh, hexec⟩
  have hcommits : Commits (committing svc env call st tx w m result) w tx m result :=
    ⟨h.prepared, h.loaded, hvalid, h.tenant, h.new, hchange,
      bind_eq_ok.mpr ⟨(), hnext, ensure_eq_ok.mpr hfits⟩, rfl, rfl⟩
  exact ⟨.next (S := casework) (s := committing svc env call st tx w m result) hrun hnow,
    happened_of_commits (kept_of_run hrun) hnow hcommits⟩

/-- The refusal of a store without room. -/
def full : CaseworkError := ⟨"WORKSPACE_CAPACITY_REACHED", 413⟩

/-- A new request on the current revision. -/
structure Asks (svc : Service) (env : Environment) (call : Call) (tx : Transaction)
    (w : Workspace) : Prop where
  prepared : call.prepare svc env = .ok (.transaction tx)
  tenant : w.tenant_id = tx.actor.tenant_id
  scopes : recheckScopes w tx = .ok ()
  new : w.idempotency.get? tx.key = none
  plain : tx.bootstrap = false ∧ tx.relevant_basis = none
  revision : w.revision = tx.command.expected_revision
  fresh : Fresh env w

theorem Asks.admitted (h : Asks svc env call tx w) (hlimit : w.revision < 5000) :
    Admitted svc env call (some w) tx w := by
  refine ⟨h.prepared, rfl, h.tenant, h.scopes, h.new, ?_, h.fresh⟩
  simp [preconditions, h.plain.1, h.plain.2, h.revision.symm, hlimit, ensure, bind, Except.bind]

section Asking

variable [CollisionFree] {steps : List Step} (hrun : Run casework steps (some w))
  (h : Asks svc env call tx w)
include hrun h

/-- What a new request on the current revision comes down to. -/
theorem exec_of_asks (hlimit : w.revision < 5000) : exec svc env (some w) call = (do
    let (m, result) ← tx.change w (w.revision + 1)
    save svc (recorded env w m tx result)
    return (some (recorded env w m tx result), answer (auditEvent env w tx result) result)) := by
  have hloaded : loaded (some w) tx = .ok w := rfl
  have hvalid := validateWorkspace_ok (kept_of_run hrun w rfl).toShaped (coherent_of_run hrun w rfl)
  simp only [exec, h.prepared, mutate, hloaded, hvalid, h.tenant, h.scopes, h.new,
    (h.admitted hlimit).admits, ensure, if_true, bind, Except.bind]

/-- A store that is not full is not at its last revision. -/
theorem revision_lt_of_room (hroom : exec svc env (some w) call ≠ .error full) :
    w.revision < 5000 := by
  by_contra hover
  apply hroom
  have hloaded : loaded (some w) tx = .ok w := rfl
  have hvalid := validateWorkspace_ok (kept_of_run hrun w rfl).toShaped (coherent_of_run hrun w rfl)
  simp only [exec, h.prepared, mutate, preconditions, hloaded, hvalid, h.tenant, h.scopes, h.new,
    h.plain.1, h.plain.2, h.revision.symm, ensure, hover, full, bind, Except.bind]
  rfl

/-- A request fails with the error of its change. -/
theorem exec_fails {e : CaseworkError} (hlimit : w.revision < 5000)
    (hchange : tx.change w (w.revision + 1) = .error e) :
    exec svc env (some w) call = .error e := by
  rw [exec_of_asks hrun h hlimit, hchange]
  rfl

/-- A service that takes any size is not full before the last revision. -/
theorem room_of_fits (hlimit : w.revision < 5000) (hfits : ∀ w, svc.fits w = true)
    (hchange : ∃ r, tx.change w (w.revision + 1) = .ok r) :
    exec svc env (some w) call ≠ .error full := by
  obtain ⟨⟨m, result⟩, hm⟩ := hchange
  have hnext := takesChanges_of_run hrun svc env call tx w m result h.prepared rfl h.tenant
    h.new h.fresh hm
  have hsave : save svc (recorded env w m tx result) = .ok () :=
    bind_eq_ok.mpr ⟨(), hnext, ensure_eq_ok.mpr (hfits _)⟩
  rw [exec_of_asks hrun h hlimit, hm]
  simp only [bind, Except.bind, hsave]
  intro hfull
  cases hfull

/-- A store with room carries out a new request whose change succeeds. -/
theorem exec_commits (hgrounded : Grounded steps svc call)
    (hchange : ∃ r, tx.change w (w.revision + 1) = .ok r)
    (hroom : exec svc env (some w) call ≠ .error full) :
    ∃ m result, tx.change w (w.revision + 1) = .ok (m, result) ∧
      exec svc env (some w) call =
        .ok (some (recorded env w m tx result), answer (auditEvent env w tx result) result) ∧
      Run casework (steps ++ [committing svc env call (some w) tx w m result])
        (some (recorded env w m tx result)) ∧
      Happened (committing svc env call (some w) tx w m result) w tx m result := by
  obtain ⟨⟨m, result⟩, hm⟩ := hchange
  have hlimit := revision_lt_of_room hrun h hroom
  have hexec := exec_of_asks hrun h hlimit
  have hnext := takesChanges_of_run hrun svc env call tx w m result h.prepared rfl h.tenant
    h.new h.fresh hm
  have hfits : svc.fits (recorded env w m tx result) = true := by
    by_contra hover
    apply hroom
    rw [hexec, hm]
    simp only [save, hnext, ensure, hover, bind, Except.bind]
    rfl
  have hsave : save svc (recorded env w m tx result) = .ok () :=
    bind_eq_ok.mpr ⟨(), hnext, ensure_eq_ok.mpr hfits⟩
  obtain ⟨hlater, hh⟩ := run_commits hrun (h.admitted hlimit) hm hfits hgrounded
  refine ⟨m, result, hm, ?_, hlater, hh⟩
  rw [hexec, hm]
  simp only [bind, Except.bind, hsave]
  rfl

end Asking

end Committing

section Decisions

variable {svc : Service} {env : Environment} {actor : Actor} {cmd : Command} {w : Workspace}
  {task : Task} {seq : ℕ} {explicit_review : Bool}

omit [Sha256] in
theorem lt_foldl_min {l : List Instant} {start time : Instant} (hstart : time < start)
    (hl : ∀ x ∈ l, time < x) : time < l.foldl min start := by
  induction l generalizing start with
  | nil => exact hstart
  | cons y rest ih =>
    rw [List.foldl_cons]
    apply ih
    · exact lt_min hstart (hl y List.mem_cons_self)
    · exact fun x hx => hl x (List.mem_cons_of_mem y hx)

/-- What a READY verdict rests on outlives the moment of the verdict. -/
theorem readyExpiry_total {t : Identifier} {closure : List Identifier} {time default_expiry : Instant}
    (hclosure : ancestors w t = .ok closure)
    (hpasses : Passes w t time explicit_review task closure) (hdefault : time < default_expiry) :
    ∃ expires_at, readyExpiry w t time default_expiry = .ok expires_at := by
  have hlimits : ∀ x ∈ (closureTasks w closure).flatMap (fun e =>
      baselineLimit w e.2 ++ if e.1 = t then [] else decisionLimit w e.2), time < x := by
    intro x hx
    obtain ⟨e, he, hx⟩ := List.mem_flatMap.mp hx
    rcases List.mem_append.mp hx with hbaseline | hdecision
    · obtain ⟨b, hb, hlive, _⟩ := hpasses.covered e he
      simp only [baselineLimit, hb, Option.map_some, Option.toList_some, List.mem_singleton]
        at hbaseline
      rw [hbaseline]
      exact hlive
    · by_cases hself : e.1 = t
      · simp [hself] at hdecision
      · obtain ⟨_, _, d, hd, _, _, hlive, _⟩ := hpasses.parents e he hself
        rw [if_neg hself, decisionLimit, Option.mem_def.mp hd] at hdecision
        simp only [Option.map_some, Option.toList_some, List.mem_singleton] at hdecision
        rw [hdecision]
        exact hlive
  refine ⟨_, bind_eq_ok.mpr ⟨closure, hclosure, bind_eq_ok.mpr ⟨(), ?_, rfl⟩⟩⟩
  exact ensure_eq_ok.mpr (lt_foldl_min hdefault hlimits)

variable (svc env actor cmd seq explicit_review) in
/-- A stored task always gets a decision. -/
theorem makeDecision_total (hk : TasksKept w) (ht : w.tasks.get? task.task_id = some task) :
    ∃ d, makeDecision svc env actor cmd w task seq explicit_review = .ok d := by
  obtain ⟨closure, hclosure⟩ := hk.ancestors_of_get? ht
  have hresult := policyResult_eq (env.clock .decision) explicit_review
    ht hclosure
  have hbasis := taskBasis_eq hclosure
  by_cases hready : (judge w task.task_id (env.clock .decision) explicit_review task closure).verdict
      = .ready
  · have hdefault : env.clock .decision < env.clock .decision + minutes 10 :=
      lt_add_of_pos_right _ (by decide)
    obtain ⟨expires_at, hexpires⟩ := readyExpiry_total hclosure (judge_ready_iff.mp hready) hdefault
    refine bind_total hresult (bind_total hbasis ?_)
    rw [if_pos hready]
    exact bind_total hexpires ⟨_, rfl⟩
  · refine bind_total hresult (bind_total hbasis ?_)
    rw [if_neg hready]
    exact ⟨_, rfl⟩

theorem evaluateChange_total {t : Identifier} (hk : TasksKept w) (ht : w.tasks.get? t = some task)
    (hsubject : task.intent.scope.subject_id ∈ actor.subjects) :
    ∃ r, evaluateChange svc env actor cmd t explicit_review w seq = .ok r := by
  have hid := hk.keyed t task ht
  have hfind : findTask w actor t = .ok task :=
    bind_eq_ok.mpr ⟨task, fetch_eq_ok.mpr ht, bind_eq_ok.mpr ⟨(), ensure_eq_ok.mpr hsubject, rfl⟩⟩
  obtain ⟨d, hd⟩ := makeDecision_total svc env actor cmd seq explicit_review hk (by rw [hid, ht])
  have hstored : (storeDecision w task d explicit_review).tasks.get? t =
      some (decidedTask w task d explicit_review) := by
    rw [← hid]
    exact Dict.get?_set_self ..
  refine bind_total hfind (bind_total (bind_eq_ok.mpr ⟨d, hd, rfl⟩) ?_)
  exact fetch_total hstored ⟨_, rfl⟩

/-- A task is always registered, where there is room and its parents are in order. -/
theorem registerTaskChange_total {intent : Intent} {depends_on : List Identifier}
    (hk : TasksKept w) (hroom : w.tasks.size < 250)
    (hfresh : w.tasks.get? (env.fresh "task") = none) (hnodup : depends_on.Nodup)
    (hparents : ∀ p ∈ depends_on, checkParent actor w intent p = .ok ()) :
    ∃ r, registerTaskChange svc env actor cmd intent depends_on w seq = .ok r := by
  let task : Task := ⟨env.fresh "task", intent, sorted depends_on, .empty, .needsHuman, none⟩
  have hnew : NewTask w task := newTask_of_parents hfresh hparents
  have hstored : (storeTask w task).tasks.get? task.task_id = some task := Dict.get?_set_self ..
  obtain ⟨d, hd⟩ := makeDecision_total svc env actor cmd seq false (newTask_tasksKept hk hnew) hstored
  have hdecided : (storeDecision (storeTask w task) task d false).tasks.get? task.task_id =
      some (decidedTask (storeTask w task) task d false) := Dict.get?_set_self ..
  refine ensure_total hroom (ensure_total hnodup ?_)
  have hchecked : depends_on.forM (checkParent actor w intent) = .ok () := forM_eq_ok.mpr hparents
  refine bind_total hchecked (bind_total (bind_eq_ok.mpr ⟨d, hd, rfl⟩) ?_)
  exact fetch_total hdecided ⟨_, rfl⟩

end Decisions

section Cases

variable {svc : Service} {env : Environment} {actor : Actor} {cmd : Command} {w : Workspace}
  {case_id : Identifier} {case : RiskCase} {seq : ℕ}

omit [Sha256] in
theorem findCase_total (hc : w.cases.get? case_id = some case)
    (hsubject : case.scope.subject_id ∈ actor.subjects) : findCase w actor case_id = .ok case :=
  bind_eq_ok.mpr ⟨case, fetch_eq_ok.mpr hc, bind_eq_ok.mpr ⟨(), ensure_eq_ok.mpr hsubject, rfl⟩⟩

/-- No artifact is about the case. -/
def Unclaimed (w : Workspace) (case_id : Identifier) : Prop :=
  ∀ a ∈ w.artifacts.values, a.case_id ≠ some case_id

omit [Sha256] in
theorem obligations_unclaimed (h : Unclaimed w case_id) : obligations w case_id = ⟨[], 0, false⟩ := by
  have hnone : caseArtifacts w case_id = [] := by
    unfold caseArtifacts
    rw [List.filter_eq_nil_iff]
    intro a ha
    simpa using h a ha
  simp [obligations, hnone, sorted]

theorem storedGuard_unclaimed [CollisionFree] (hfiled : Filed w.artifacts)
    (h : Unclaimed w case_id) : storedGuard w case_id = none := by
  unfold storedGuard
  split
  · rename_i g hg
    exfalso
    have hkey : guardKey case_id = guardKey g.case_id := hfiled _ _ hg
    simp only [guardKey, digest_inj, Json.str.injEq, true_and] at hkey
    exact h _ (Dict.mem_values_of_get? hg) (congrArg some hkey.symm)
  · rfl

/-- What a policy demands of a case without artifacts can be remembered. -/
theorem rememberPolicy_unclaimed [CollisionFree] (hfiled : Filed w.artifacts)
    (h : Unclaimed w case_id) (policy : Option ScopeEvidencePolicy) (source_ids : List Identifier) :
    ∃ w', rememberPolicy w case_id policy source_ids = .ok w' := by
  have hnone := storedGuard_unclaimed hfiled h
  have heffective : ∃ floor, effectivePolicy w case_id policy = .ok floor := by
    unfold effectivePolicy
    rw [obligations_unclaimed h, hnone]
    refine ensure_total (by simp) (ensure_total (by simp) ⟨_, rfl⟩)
  obtain ⟨floor, hfloor⟩ := heffective
  refine bind_total hfloor ?_
  dsimp only
  split
  · exact ⟨_, rfl⟩
  · exact ⟨_, rfl⟩

/-- A case without artifacts can be opened whatever the desk demands. -/
theorem openRisk_total [CollisionFree] (case : RiskCase) (reason : String)
    (hfiled : Filed w.artifacts)
    (hfree : svc.evidence_desk = none ∨ Unclaimed w case.case_id) :
    ∃ r, openRisk svc w case reason = .ok r := by
  have hremembers : ∃ w',
      deskRemembers svc.evidence_desk (recordCase w case []) case [] = .ok w' := by
    cases hdesk : svc.evidence_desk with
    | none => exact ⟨_, rfl⟩
    | some desk =>
      rw [hdesk] at hfree
      have hclear : Unclaimed w case.case_id := hfree.resolve_left (by simp)
      exact rememberPolicy_unclaimed (w := recordCase w case []) hfiled hclear _ _
  obtain ⟨w', hw'⟩ := hremembers
  exact bind_total hw' ⟨_, rfl⟩

theorem openCaseChange_total [CollisionFree] {scope : Scope} {kind : RiskKind}
    {evidence_digest : Digest} (hfiled : Filed w.artifacts)
    (hfree : svc.evidence_desk = none ∨ Unclaimed w (env.fresh "case"))
    (hroom : w.cases.size < 500) :
    ∃ r, openCaseChange svc env actor scope kind evidence_digest w seq = .ok r := by
  let case := newCase env actor scope kind evidence_digest seq
  obtain ⟨r, hr⟩ := openRisk_total case "NEW_RISK" hfiled hfree
  exact ensure_total hroom (bind_total hr ⟨_, rfl⟩)

theorem ingestChange_total [CollisionFree] {spec : IncidentSpec}
    (delivery : PartnerCommands.Delivery) (hfiled : Filed w.artifacts)
    (hfree : svc.evidence_desk = none ∨ Unclaimed w (env.fresh "case"))
    (hroom : w.cases.size < 500) :
    ∃ r, PartnerCommands.ingestChange svc env actor spec delivery w seq = .ok r := by
  let case := newCase env actor spec.scope delivery.kind delivery.evidence_digest seq
  obtain ⟨r, hr⟩ := openRisk_total case "SIGNED_INCIDENT" hfiled hfree
  exact ensure_total hroom (bind_total hr ⟨_, rfl⟩)

theorem relatedCases_total (hk : TasksKept w) (scope : Scope) :
    ∃ l, relatedCases w (affectedTasks w scope) = .ok l := by
  have hclosures : ∀ t ∈ affectedTasks w scope, ∃ closure, ancestors w t = .ok closure := by
    intro t ht
    obtain ⟨a, atask, hr, ha, _⟩ := mem_affectedTasks.mp ht
    obtain ⟨task, htask⟩ := reaches_stored hr ha
    exact hk.ancestors_of_get? htask
  obtain ⟨closures, hclosures⟩ := mapM_total hclosures
  exact bind_total hclosures ⟨_, rfl⟩

variable (svc env cmd) in
/-- What an investigation of an open case captures where no desk is configured. -/
theorem openInvestigation_total (hw : Kept w) (hvalid : validateWorkspace w = .ok ())
    (hrole : actor.role = .investigator) (htenant : w.tenant_id = actor.tenant_id)
    (hc : w.cases.get? case_id = some case) (hsubject : case.scope.subject_id ∈ actor.subjects)
    (hopen : case.status = .opened) (hdesk : svc.evidence_desk = none)
    (hfree : ¬ HasObligations w case_id)
    (hnew : w.idempotency.get? (idempotencyKey actor.actor_id cmd.idempotency_key) = none)
    (hattempt : w.artifacts.get? (attemptId actor cmd) = none)
    (hrevision : w.revision = cmd.expected_revision) :
    ∃ basis, investigationBasis w case_id = .ok basis ∧
      openInvestigation svc env actor cmd case_id w = .ok (.inr ⟨case, basis, none⟩) := by
  obtain ⟨basis, hbasis⟩ := investigationBasis_total hw.toShaped hc
  have hauthorized : authorize actor [.investigator] none = .ok () := by
    simp [authorize, hrole]
  have hpresent : requireDesk w case_id none none = .ok () := by
    simp [requireDesk, hfree]
  refine ⟨basis, hbasis, ?_⟩
  simp only [openInvestigation, hauthorized, hvalid, htenant, findCase_total hc hsubject, hnew,
    hattempt, hrevision, hopen, hpresent, hbasis, hdesk, ensure, if_true, bind, Except.bind]
  rfl

variable (env actor) in
theorem draftReport_total (basis : Digest) (planning : Planning) (hw : Kept w)
    (hc : w.cases.get? case_id = some case) :
    ∃ r, draftReport env actor case_id w ⟨case, basis, none⟩ planning = .ok r := by
  obtain ⟨related, hrelated⟩ := relatedCases_total hw.tasks case.scope
  obtain ⟨precedents, hprecedents⟩ := activePrecedents_total hc
  exact bind_total hrelated (bind_total hprecedents ⟨_, rfl⟩)

variable (svc env actor cmd seq) in
theorem investigateChange_total (report : Report) (hc : w.cases.get? case_id = some case) :
    ∃ r, investigateChange svc env actor cmd case_id report none false w seq = .ok r :=
  fetch_total hc ⟨_, rfl⟩

/-- A report with an unchanged basis stands where no desk is configured. -/
theorem validReport_total {report_id : Identifier} {report : Report}
    (hstored : w.reports.get? report_id = some report) (hcase : report.case_id = case.case_id)
    (hversion : report.case_version = case.version) (hopen : case.status = .opened)
    (hbasis : investigationBasis w case.case_id = .ok report.basis_hash)
    (hdesk : svc.evidence_desk = none) (hinspected : inspections report = [])
    (hfree : ¬ HasObligations w case.case_id) :
    validReport svc env w case report_id = .ok report := by
  have hpresent : requireDesk w case.case_id none (some report) = .ok () := by
    simp [requireDesk, hinspected, hfree]
  simp only [validReport, hstored, hcase, hversion, hopen, hbasis, hpresent, hdesk, fetch, ensure,
    and_self, if_true, bind, Except.bind]
  rfl

variable (seq) in
theorem handoffChange_total {report_id : Identifier} {report : Report} {reviewer : Actor}
    (hc : w.cases.get? case_id = some case) (hsubject : case.scope.subject_id ∈ actor.subjects)
    (hreport : validReport svc env w case report_id = .ok report)
    (hreviewer : svc.actors.get? reviewer.actor_id = some reviewer)
    (hindependent : Independent actor case reviewer)
    (howner : report.investigator_id = actor.actor_id) :
    ∃ r, handoffChange svc env actor case_id report_id reviewer.actor_id w seq = .ok r := by
  refine bind_total (findCase_total hc hsubject) (bind_total hreport ?_)
  exact fetch_total hreviewer (ensure_total hindependent (ensure_total howner ⟨_, rfl⟩))

variable (seq) in
theorem acceptHandoffChange_total {handoff_id : Identifier} {handoff : Handoff} {report : Report}
    (hh : w.handoffs.get? handoff_id = some handoff) (hreviewer : handoff.reviewer_id = actor.actor_id)
    (hc : w.cases.get? handoff.case_id = some case)
    (hsubject : case.scope.subject_id ∈ actor.subjects)
    (hreport : validReport svc env w case handoff.report_id = .ok report)
    (hversion : handoff.case_version = case.version) :
    ∃ r, acceptHandoffChange svc env actor handoff_id w seq = .ok r := by
  refine fetch_total hh (ensure_total hreviewer ?_)
  exact bind_total (findCase_total hc hsubject) (bind_total hreport
    (ensure_total hversion ⟨_, rfl⟩))

theorem settleTask_total (env : Environment) (token : String) {t : Identifier} {task : Task}
    (hk : TasksKept w) (ht : w.tasks.get? t = some task) : ∃ w', settleTask env token w t = .ok w' := by
  let tainted := w.tasks.adjust [t] (fun x =>
    { x with taints := x.taints.set token "RECONSIDER_REQUIRED" })
  have hkept : TasksKept { w with tasks := tainted } := by
    refine tasksKept_of_keys hk (Dict.keys_adjust ..) ?_
    intro k x hx
    rw [Dict.get?_adjust] at hx
    split at hx
    · obtain ⟨y, hy, rfl⟩ := Option.map_eq_some_iff.mp hx
      exact ⟨y, hy, rfl, rfl⟩
    · exact ⟨x, hx, rfl, rfl⟩
  have htask : tainted.get? t =
      some { task with taints := task.taints.set token "RECONSIDER_REQUIRED" } := by
    rw [Dict.get?_adjust, if_pos List.mem_cons_self, ht]
    rfl
  obtain ⟨closure, hclosure⟩ := hkept.ancestors_of_get? htask
  exact fetch_total ht (bind_total (policyResult_eq _ _ htask hclosure) ⟨_, rfl⟩)

theorem settleTask_tasksKept {token : String} {t : Identifier} {task : Task} {w' : Workspace}
    (hk : TasksKept w) (ht : w.tasks.get? t = some task) (h : settleTask env token w t = .ok w') :
    TasksKept w' := by
  obtain ⟨_, hkeys, hother, hself⟩ := settleTask_ok h
  obtain ⟨t', ht', hs⟩ := hself task ht
  refine tasksKept_of_keys hk hkeys ?_
  intro k x hx
  by_cases hkt : k = t
  · subst hkt
    rw [ht'] at hx
    cases hx
    exact ⟨task, ht, hs.task_id, hs.depends_on⟩
  · exact ⟨x, by rw [← hother k hkt, hx], rfl, rfl⟩

/-- The taint loop of a resolution always ends. -/
theorem settleTasks_total (env : Environment) (token : String) {l : List Identifier} (hk : TasksKept w)
    (hstored : ∀ t ∈ l, ∃ task, w.tasks.get? t = some task) :
    ∃ w', l.foldlM (settleTask env token) w = .ok w' := by
  refine foldlM_total (fun s => TasksKept s ∧ s.tasks.keys = w.tasks.keys) l w ⟨hk, rfl⟩ ?_
  rintro s t ht ⟨hs, hkeys⟩
  obtain ⟨task, htask⟩ := hstored t ht
  have hmem : t ∈ s.tasks.keys := hkeys ▸ Dict.mem_keys_of_get? htask
  obtain ⟨task', htask'⟩ := Dict.exists_get?_of_mem_keys hmem
  obtain ⟨s', hs'⟩ := settleTask_total env token hs htask'
  exact ⟨s', hs', settleTask_tasksKept hs htask' hs', (settleTask_ok hs').2.1.trans hkeys⟩

/-- Remembering a policy leaves the tasks. -/
theorem deskRemembers_tasks {desk : Option EvidenceDesk} {w w' : Workspace} {case : RiskCase}
    {source_ids : List Identifier} (h : deskRemembers desk w case source_ids = .ok w') :
    w'.tasks = w.tasks := by
  cases desk with
  | none =>
    cases h
    rfl
  | some d =>
    rcases Floors.rememberPolicy_ok h with ⟨rfl, _⟩ | ⟨guard, _, _, _, _, _, rfl⟩
    · rfl
    · rfl

/-- An acknowledged report that stands is enough to resolve its case, where the
evidence suffices and the policy of the case can be remembered. -/
theorem resolveChange_total [CollisionFree] {handoff_id : Identifier} {handoff : Handoff}
    {report : Report} {resolution : Resolution} {evidence_digest : Digest} (hw : Kept w)
    (hcoherent : Coherent w) (hc : w.cases.get? case_id = some case)
    (hsubject : case.scope.subject_id ∈ actor.subjects)
    (hh : w.handoffs.get? handoff_id = some handoff)
    (hack : Acknowledged actor case_id case handoff)
    (hreport : validReport svc env w case handoff.report_id = .ok report)
    (hversion : handoff.case_version = case.version)
    (hgate : ∀ desk, svc.evidence_desk = some desk →
      SourceService.resolution desk w case evidence_digest (env.clock .resolution) = .ok ())
    (hremembers : ∀ past start, Linked w case.case_id (case.version + 1) seq start →
      ∃ w', deskRemembers svc.evidence_desk
        (recordCase (refile w start) (resolvedCase case resolution actor.actor_id seq) past)
        (resolvedCase case resolution actor.actor_id seq) [] = .ok w') :
    ∃ r, resolveChange svc env actor case_id handoff_id resolution evidence_digest w seq =
      .ok r := by
  have hrecorded := (hcoherent.cases.recorded _ (Dict.get?_eq_some_iff.mp hc)).1
  have hhistory : ∃ past, w.case_history.get? case_id = some past := by
    cases hpast : w.case_history.get? case_id with
    | some past => exact ⟨past, rfl⟩
    | none => simp [hpast] at hrecorded
  obtain ⟨past, hpast⟩ := hhistory
  obtain ⟨start, hlinked, hlink⟩ := linkResolution_ok w seq actor
    (resolvedCase case resolution actor.actor_id seq) report handoff.handoff_id evidence_digest
  obtain ⟨written, hwritten⟩ := hremembers past start hlinked
  have htasks : written.tasks = w.tasks := by
    rw [deskRemembers_tasks hwritten]
    rfl
  have hstored : ∀ t ∈ affectedTasks written case.scope, ∃ task, written.tasks.get? t = some task := by
    intro t ht
    obtain ⟨a, atask, hr, ha, _⟩ := mem_affectedTasks.mp ht
    exact reaches_stored hr ha
  have hkept : TasksKept written := tasksKept_congr htasks hw.tasks
  obtain ⟨settled, hsettled⟩ := settleTasks_total env
    (resolutionRef case_id (case.version + 1)) hkept hstored
  refine bind_total (findCase_total hc hsubject) (fetch_total hh (ensure_total hack ?_))
  refine bind_total hreport (ensure_total hversion ?_)
  cases hdesk : svc.evidence_desk with
  | none =>
    simp only [hdesk] at hwritten ⊢
    refine fetch_total hpast ?_
    simp only [hlink]
    exact bind_total hwritten (bind_total hsettled ⟨_, rfl⟩)
  | some desk =>
    simp only [hdesk] at hwritten ⊢
    refine bind_total (hgate desk hdesk) (fetch_total hpast ?_)
    simp only [hlink]
    exact bind_total hwritten (bind_total hsettled ⟨_, rfl⟩)

end Cases

end MemoryGuard.Progress
