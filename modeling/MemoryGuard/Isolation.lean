import MemoryGuard.Anchoring
import MemoryGuard.Frame

/-!
What an actor can change. Every record belongs to the subject of its task or
case, and a task only ever depends on tasks of its own subject; so whatever a
command sets off along dependencies and scopes stays with the subjects that its
actor may act for.
-/
namespace MemoryGuard.Isolation

open OrderedDict Guarded DependencyGraph JsonText ContentHash Models Artifacts Aggregate Core
open Closure SourceModels SourceState SourceGuard SourceService Transactions TaskCommands
open CaseCommands SourceCommands PartnerCommands Traces Calls Filing EvidenceEffects TaskEffects
open CaseEffects Effects Growth Upkeep History Integrity Standing Writes Custody

section Differences

variable {κ α : Type*} [DecidableEq κ] {old new : κ → α → Prop} {d e : Dict κ α} {k : κ} {a : α}

/-- Two maps differ in entries of one's own only, those of the first as well as
those of the second. -/
def Within (old new : κ → α → Prop) (d e : Dict κ α) : Prop :=
  ∀ k, e.get? k = d.get? k ∨
    ((∀ a, d.get? k = some a → old k a) ∧ ∀ a, e.get? k = some a → new k a)

theorem Within.of_eq (h : e = d) : Within old new d e := by
  intro k
  left
  rw [h]

theorem Within.set (hold : ∀ b, d.get? k = some b → old k b) (hnew : new k a) :
    Within old new d (d.set k a) := by
  intro k'
  by_cases hk : k = k'
  · subst hk
    right
    refine ⟨hold, ?_⟩
    intro b hb
    rw [Dict.get?_set_self] at hb
    cases hb
    exact hnew
  · left
    exact Dict.get?_set_of_ne _ _ hk

theorem Within.mono {old' : κ → α → Prop} (h : Within old new d e)
    (hold : ∀ k a, d.get? k = some a → old k a → old' k a) : Within old' new d e := by
  intro k
  rcases h k with hsame | ⟨hbefore, hafter⟩
  · exact Or.inl hsame
  · exact Or.inr ⟨fun a ha => hold k a ha (hbefore a ha), hafter⟩

/-- What is not one's own is the same. -/
theorem Within.kept (h : Within old new d e) (ha : d.get? k = some a) (hother : ¬ old k a) :
    e.get? k = some a := by
  rcases h k with hsame | ⟨hbefore, _⟩
  · rw [hsame, ha]
  · exact absurd (hbefore a ha) hother

/-- Nothing comes in that is not one's own. -/
theorem Within.found (h : Within old new d e) (ha : e.get? k = some a) (hother : ¬ new k a) :
    d.get? k = some a := by
  rcases h k with hsame | ⟨_, hafter⟩
  · rw [← hsame, ha]
  · exact absurd (hafter a ha) hother

end Differences

section Kinship

def subjectOf (t : Models.Task) : Identifier := t.intent.scope.subject_id

/-- Tasks depend on tasks of their own subject. -/
def Kindred (w : Workspace) : Prop :=
  ∀ t task p, w.tasks.get? t = some task → p ∈ task.depends_on →
    ∃ parent, w.tasks.get? p = some parent ∧ subjectOf parent = subjectOf task

variable {w m : Workspace} {t a : Identifier} {task : Models.Task}

theorem Kindred.reaches (h : Kindred w) (hr : ReliesOn w t a)
    (ht : w.tasks.get? t = some task) :
    ∃ atask, w.tasks.get? a = some atask ∧ subjectOf atask = subjectOf task := by
  unfold ReliesOn Reaches at hr
  induction hr with
  | refl => exact ⟨task, ht, rfl⟩
  | tail _ hedge ih =>
    obtain ⟨btask, hb, hsame⟩ := ih
    obtain ⟨btask', hb', hp⟩ := edge_iff.mp hedge
    rw [hb] at hb'
    cases hb'
    obtain ⟨atask, ha, hparent⟩ := h _ _ _ hb hp
    exact ⟨atask, ha, hparent.trans hsame⟩

variable [Sha256] [CollisionFree]

/-- A risk reaches tasks of its own subject. -/
theorem Kindred.touches {scope : Scope} (h : Kindred w) (ht : w.tasks.get? t = some task)
    (htouches : Touches w t scope) : subjectOf task = scope.subject_id := by
  obtain ⟨a, atask, hr, ha, hkey⟩ := htouches
  obtain ⟨atask', ha', hsame⟩ := h.reaches hr ht
  rw [ha] at ha'
  cases ha'
  rw [← hsame, ← Frame.scopeKey_inj.mp hkey]
  rfl

omit [CollisionFree] in
/-- A new task depends on stored tasks of its own subject, and no other task is
touched. -/
theorem registerTaskChange_kin {svc : Service} {env : Environment} {actor : Actor} {cmd : Command}
    {intent : Intent} {depends_on : List Identifier} {seq : ℕ} {result : Result}
    (h : registerTaskChange svc env actor cmd intent depends_on w seq = .ok (m, result)) :
    (∀ p ∈ sorted depends_on, ∃ parent, w.tasks.get? p = some parent ∧
      subjectOf parent = intent.scope.subject_id) ∧
    ∀ k t, m.tasks.get? k = some t → w.tasks.get? k = some t ∨
      (t.intent = intent ∧ t.depends_on = sorted depends_on) := by
  simp only [registerTaskChange, TaskCommands.decide, bind_eq_ok, forM_eq_ok, pure_eq_ok,
    Prod.mk.injEq] at h
  obtain ⟨_, _, _, _, _, hparents, ⟨w1, d⟩, ⟨d, _, rfl, rfl⟩, decided, _, rfl, _⟩ := h
  constructor
  · intro p hp
    have hparent := hparents p (mem_sorted.mp hp)
    simp only [checkParent, bind_eq_ok, ensure_eq_ok] at hparent
    obtain ⟨parent, hfind, hsame⟩ := hparent
    exact ⟨parent, findTask_ok hfind, hsame⟩
  · intro k t ht
    change ((w.tasks.set (env.fresh "task") _).set (env.fresh "task") (decidedTask ..)).get? k =
      some t at ht
    rw [Dict.get?_set] at ht
    split at ht
    · cases ht
      exact Or.inr ⟨rfl, rfl⟩
    · rename_i hk
      rw [Dict.get?_set_of_ne _ _ hk] at ht
      exact Or.inl ht

/-- An event brings a task of kin, or keeps what every task is and depends on. -/
theorem kindred_of_occurs {steps : List Step} {s : Step} {tx : Transaction} {result : Result}
    (h : Occurs steps s w tx m result) (hw : Kindred w) : Kindred m := by
  have hgrows := (effect_keeps h.effect h.kept h.fresh).2.2
  have hstays : ∀ p parent, w.tasks.get? p = some parent →
      ∃ parent', m.tasks.get? p = some parent' ∧ subjectOf parent' = subjectOf parent := by
    intro p parent hp
    obtain ⟨parent', hp', hintent, _⟩ := hgrows.tasks p parent hp
    exact ⟨parent', hp', by unfold subjectOf; rw [hintent]⟩
  have hold : ∀ t old task p, w.tasks.get? t = some old → m.tasks.get? t = some task →
      p ∈ task.depends_on → ∃ parent, m.tasks.get? p = some parent ∧
        subjectOf parent = subjectOf task := by
    intro t old task p ht ht' hp
    obtain ⟨task', hm, hintent, hdepends⟩ := hgrows.tasks t old ht
    rw [ht'] at hm
    cases hm
    rw [hdepends] at hp
    obtain ⟨parent, hparent, hsame⟩ := hw t old p ht hp
    obtain ⟨parent', hparent', hkin⟩ := hstays p parent hparent
    refine ⟨parent', hparent', hkin.trans (hsame.trans ?_)⟩
    unfold subjectOf
    rw [hintent]
  intro t task p ht hp
  cases hget : w.tasks.get? t with
  | some old => exact hold t old task p hget ht hp
  | none =>
    -- Only a registration stores a task under a new key.
    have houtline := effect_outline h.effect h.kept.stamped
    cases houtline with
    | quiet hquiet =>
      rw [hquiet.tasks, hget] at ht
      cases ht
    | unsettled hunsettles =>
      have hmem := Dict.mem_keys_of_get? ht
      rw [hunsettles.keys] at hmem
      obtain ⟨old, hold⟩ := Dict.exists_get?_of_mem_keys hmem
      rw [hget] at hold
      cases hold
    | @decided w1 actor task' explicit_review d requests _ decides =>
      generalize hcall : s.call = call at requests
      cases requests with
      | evaluated _ =>
        obtain ⟨old, hold, _⟩ := Lifecycle.decides_tasks decides t task ht
        rw [hget] at hold
        cases hold
      | @registered _ cmd _ depends_on new =>
        have hprepared := h.commits.prepared
        rw [hcall] at hprepared
        have hprepared := inTransaction_transaction hprepared
        simp only [registerTask, bind_eq_ok, pure_eq_ok] at hprepared
        obtain ⟨_, _, rfl⟩ := hprepared
        obtain ⟨hparents, hothers⟩ := registerTaskChange_kin h.commits.changed
        rcases hothers t task ht with hw | ⟨hintent, hdepends⟩
        · rw [hget] at hw
          cases hw
        · rw [hdepends] at hp
          obtain ⟨parent, hparent, hsame⟩ := hparents p hp
          obtain ⟨parent', hparent', hkin⟩ := hstays p parent hparent
          refine ⟨parent', hparent', hkin.trans (hsame.trans ?_)⟩
          unfold subjectOf
          rw [hintent]

theorem kindred_of_run {steps : List Step} {st : Option Workspace} (h : Run casework steps st) :
    ∀ w, st = some w → Kindred w := by
  refine invariant_of_events Kindred ?_ ?_ h
  · intro tenant_id t task p ht
    simp [sealed, Workspace.blank] at ht
  · intro steps s w tx m result ho hw
    have hm : Kindred m := kindred_of_occurs ho hw
    exact hm

end Kinship

section Artifacts

variable [Sha256] [CollisionFree] {steps : List Step} {s : Step} {w m : Workspace}
  {tx : Transaction} {result : Result} {call : Call} {actor : Actor} {seq : ℕ}

omit [CollisionFree] in
/-- The writes of a call stay with its actor's matters, if the record that it goes
on with is one of them. -/
theorem within_of_wrote {d e : Dict String Artifact}
    (hcontinued : ∀ k b, continued call = some k → d.get? k = some b →
      Entitled m actor (matter b)) (h : Wrote (Put m actor call) d e) :
    Within (fun _ a => Entitled m actor (matter a)) (fun _ a => Entitled m actor (matter a))
      d e := by
  induction h with
  | refl => exact .of_eq rfl
  | @set now _ k a allowed ih =>
    have hentitled : Entitled m actor (matter a) := by
      rcases allowed.entitled with hown | ⟨hcont, hsome⟩
      · exact hown
      · obtain ⟨b, hb⟩ := Option.isSome_iff_exists.mp hsome
        rw [← allowed.same b hb]
        rcases ih k with hsame | ⟨_, hnow⟩
        · exact hcontinued k b hcont (hsame.symm.trans hb)
        · exact hnow b hb
    intro k'
    by_cases hk : k = k'
    · subst hk
      right
      refine ⟨?_, ?_⟩
      · intro b hb
        rcases ih k with hsame | ⟨hstart, _⟩
        · rw [allowed.same b (hsame.trans hb)]
          exact hentitled
        · exact hstart b hb
      · intro b hb
        rw [Dict.get?_set_self] at hb
        cases hb
        exact hentitled
    · rw [Dict.get?_set_of_ne _ _ hk]
      exact ih k'

/-- An artifact stays about what it is about. -/
theorem matter_of_run {before : List Step} (after : List Step) {st : Option Workspace}
    {k : String} {a : Artifact} (hmid : Run casework before (some w))
    (h : Run casework (before ++ after) st)
    (ha : w.artifacts.get? k = some a) :
    ∃ m b, st = some m ∧ m.artifacts.get? k = some b ∧ matter b = matter a := by
  have hlater := related_of_events
    (fun w m => ∀ k a, w.artifacts.get? k = some a →
      ∃ b, m.artifacts.get? k = some b ∧ matter b = matter a) ?_ ?_ ?_ hmid h
  · obtain ⟨m, hst, hall⟩ := hlater
    obtain ⟨b, hb, hsame⟩ := hall k a ha
    exact ⟨m, b, hst, hb, hsame⟩
  · exact fun w k a ha => ⟨a, ha, rfl⟩
  · intro w w' w'' hfirst hsecond k a ha
    obtain ⟨b, hb, hsame⟩ := hfirst k a ha
    obtain ⟨c, hc, hsame'⟩ := hsecond k b hb
    exact ⟨c, hc, hsame'.trans hsame⟩
  · intro steps s w tx m result ho _ k a ha
    exact (occurs_wrote ho).keeps (R := fun _ b a => matter a = matter b) (fun _ _ => rfl)
      (fun _ _ _ _ hfirst hsecond => hsecond.trans hfirst)
      (fun _ b a hput => (hput.same b rfl).symm) ha

omit [Sha256] [CollisionFree] in
/-- A request that names a task is rechecked for it. -/
theorem entitled_of_recheck_task {task_id : Identifier} (h : recheckScopes w tx = .ok ())
    (hpayload : payloadText tx.payload "task_id" = some task_id) :
    Entitled w tx.actor (.task task_id) := by
  simp only [recheckScopes, hpayload, bind_eq_ok] at h
  obtain ⟨task, htask, _⟩ := h
  exact entitled_of_findTask htask

/-- What a step of the run has filed is about the same at its end. -/
theorem matter_since {t : Step} {k : String} {case_id : Identifier} {b : Artifact}
    (hrun : Run casework steps (some w)) (ht : t ∈ steps) (hcommitted : t.Committed)
    (hfiled : ∀ before wt txt mt rt, Occurs before t wt txt mt rt →
      ∃ a, mt.artifacts.get? k = some a ∧ matter a = .case case_id)
    (hb : w.artifacts.get? k = some b) : matter b = .case case_id := by
  obtain ⟨before, after, rfl⟩ := List.append_of_mem ht
  obtain ⟨hran, hnow, hpost⟩ := hrun.at_step
  rcases step_cases hran hnow with ⟨_, wt, txt, mt, rt, hh⟩ | ⟨hno, _⟩
  · obtain ⟨a, ha, habout⟩ := hfiled before wt txt mt rt ⟨hh, hran, hnow⟩
    have hmid : Run casework (before ++ [t]) (some (recorded t.env wt mt txt rt)) := by
      rw [← hh.commits.post]
      exact hpost
    obtain ⟨w', b', hw', hb', hsame⟩ := matter_of_run after hmid (by simpa using hrun) ha
    cases hw'
    rw [hb] at hb'
    cases hb'
    rw [hsame, habout]
  · exact absurd hcommitted hno

variable (seq) in
/-- A new reservation is filed under the key of its request. -/
theorem reserveChange_reserved {desk : EvidenceDesk} {env : Environment} {cmd : Command}
    {case_id : Identifier} {acq : Acquisition} {force_refresh : Bool} {request_id : String}
    (h : reserveChange desk env actor cmd case_id acq force_refresh w seq =
      .ok (m, .sourceReserved request_id)) :
    ∃ a, m.artifacts.get? (fetchId actor cmd) = some a ∧ matter a = .case case_id := by
  simp only [reserveChange, bind_eq_ok] at h
  obtain ⟨current, _, _, _, w1, _, ⟨receipts, rejected⟩, _, h⟩ := h
  split at h
  · simp only [pure_eq_ok, Prod.mk.injEq, reduceCtorEq, and_false] at h
  · simp only [bind_eq_ok, pure_eq_ok, Prod.mk.injEq] at h
    obtain ⟨_, _, rfl, _⟩ := h
    have hne : sourceKey case_id acq.spec.source_id ≠ fetchId actor cmd := by
      obtain ⟨x, hx⟩ := fetchId_named actor cmd
      rw [hx]
      exact digest_ne_newId
    refine ⟨.request (pendingRequest env actor cmd case_id acq current.version), ?_, rfl⟩
    change Dict.get? (Dict.set _ _ _) _ = _
    rw [Dict.get?_set_of_ne _ _ hne]
    exact Dict.get?_set_self ..

/-- The record that a call goes on with is a matter of its actor. -/
theorem continued_entitled (h : Occurs steps s w tx m result) {k : String} {b : Artifact}
    (hk : continued s.call = some k) (hb : w.artifacts.get? k = some b) :
    Entitled w tx.actor (matter b) := by
  have hpre : s.pre = some w := by
    rcases h.before with hpre | ⟨_, tenant_id, rfl⟩
    · exact hpre
    · simp [sealed, Workspace.blank] at hb
  have hran : Run casework steps (some w) := hpre ▸ h.ran
  have hscopes := rechecked_of_commits h.now.executed h.commits
  have hp := h.commits.prepared
  generalize hcall : s.call = call at hk hp
  cases call with
  | verifyAnchor actor cmd snapshot anchor_id tx_hash verified =>
    cases hk
    obtain ⟨r, hr, ⟨_, _, htx, _⟩ | ⟨seen, _, _, htx⟩⟩ := Anchoring.verifyAnchor_cases hp
    · cases htx
    · cases htx
      have hread : ∃ t ∈ steps, t.post = some snapshot :=
        h.now.observed snapshot (by rw [hcall]; rfl)
      obtain ⟨before, after, rfl, hmid⟩ := stored_before hran hread
      obtain ⟨w', b', hw', hb', hsame⟩ := matter_of_run after hmid hran hr
      cases hw'
      rw [hb] at hb'
      cases hb'
      rw [hsame]
      exact entitled_of_recheck_task hscopes rfl
  | investigate actor cmd case_id snapshot planning =>
    by_cases hplanned : planning.status = .deterministic
    · simp [continued, hplanned] at hk
    · simp only [continued, hplanned, if_false, Option.some.injEq] at hk
      subst hk
      obtain ⟨t, ht, hcommitted, hclaim⟩ := h.now.claimed _ _ _ _ _ hcall hplanned
      have habout : matter b = .case case_id := by
        refine matter_since hran ht hcommitted ?_ hb
        intro before wt txt mt rt ho
        have hprepared := ho.commits.prepared
        rw [hclaim] at hprepared
        obtain ⟨_, _, basis, hchange⟩ := reserveAttempt_transaction hprepared
        have hchanged := ho.commits.changed
        rw [hchange] at hchanged
        simp only [reserveAttemptChange, bind_eq_ok, pure_eq_ok, Prod.mk.injEq] at hchanged
        obtain ⟨_, _, _, _, _, _, _, _, rfl, _⟩ := hchanged
        exact ⟨_, Dict.get?_set_self .., rfl⟩
      rcases investigate_ok hp with ⟨_, htx, _⟩ | ⟨inquiry, report, _, _, htx⟩
      · cases htx
      · cases htx
        rw [habout]
        exact entitled_of_recheck hscopes rfl
  | finishSource actor cmd desk case_id source_id resource snapshot fetched expected_revision =>
    cases hk
    obtain ⟨t, ht, hcommitted, ⟨request_id, hreserved⟩, force_refresh, hclaim⟩ :=
      h.now.reserved _ _ _ _ _ _ _ _ _ hcall
    have habout : matter b = .case case_id := by
      refine matter_since hran ht hcommitted ?_ hb
      intro before wt txt mt rt ho
      have hprepared := ho.commits.prepared
      rw [hclaim] at hprepared
      have hprepared := inTransaction_transaction hprepared
      simp only [reserveSource, bind_eq_ok, pure_eq_ok] at hprepared
      obtain ⟨acq, _, rfl⟩ := hprepared
      have hresult : rt = .sourceReserved request_id := by
        rw [ho.commits.response] at hreserved
        exact hreserved
      subst hresult
      exact reserveChange_reserved (wt.revision + 1) ho.commits.changed
    have hp := inTransaction_transaction hp
    simp only [finishSource, bind_eq_ok, pure_eq_ok] at hp
    obtain ⟨acq, _, rfl⟩ := hp
    rw [habout]
    exact entitled_of_recheck hscopes rfl
  | _ => simp [continued] at hk

end Artifacts

section Records

variable {w m : Workspace} {actor : Actor} {x : Matter}

/-- What a record is about is there. -/
def Stored (w : Workspace) : Matter → Prop
  | .task id => ∃ t, w.tasks.get? id = some t
  | .case id => ∃ c, w.cases.get? id = some c

theorem stored_of_entitled (h : Entitled w actor x) : Stored w x := by
  cases x with
  | task id =>
    obtain ⟨t, ht, _⟩ := h
    exact ⟨t, ht⟩
  | case id =>
    obtain ⟨c, hc, _⟩ := h
    exact ⟨c, hc⟩

theorem stored_of_grows (hgrows : Grows w m) (h : Stored w x) : Stored m x := by
  cases x with
  | task id =>
    obtain ⟨t, ht⟩ := h
    obtain ⟨t', ht', _⟩ := hgrows.tasks id t ht
    exact ⟨t', ht'⟩
  | case id =>
    obtain ⟨c, hc⟩ := h
    obtain ⟨c', hc', _⟩ := hgrows.cases id c hc
    exact ⟨c', hc'⟩

/-- Records keep their subjects, so an entitlement to what was there is no newer. -/
theorem entitled_before (hgrows : Grows w m) (hstored : Stored w x) (h : Entitled m actor x) :
    Entitled w actor x := by
  cases x with
  | task id =>
    obtain ⟨t, ht⟩ := hstored
    obtain ⟨t', ht', hintent, _⟩ := hgrows.tasks id t ht
    obtain ⟨t'', hm, hsubject⟩ := h
    rw [ht'] at hm
    cases hm
    rw [hintent] at hsubject
    exact ⟨t, ht, hsubject⟩
  | case id =>
    obtain ⟨c, hc⟩ := hstored
    obtain ⟨c', hc', hscope, _⟩ := hgrows.cases id c hc
    obtain ⟨c'', hm, hsubject⟩ := h
    rw [hc'] at hm
    cases hm
    rw [hscope] at hsubject
    exact ⟨c, hc, hsubject⟩

/-- Every artifact is about a stored task or case. -/
def Attached (w : Workspace) : Prop :=
  ∀ k a, w.artifacts.get? k = some a → Stored w (matter a)

variable [Sha256] [CollisionFree] {steps : List Step} {s : Step} {tx : Transaction}
  {result : Result}

theorem attached_of_occurs (h : Occurs steps s w tx m result) (hw : Attached w) : Attached m := by
  have hgrows := (effect_keeps h.effect h.kept h.fresh).2.2
  refine (occurs_wrote h).all (P := fun _ a => Stored m (matter a)) ?_ ?_
  · intro k b a hput hb
    rcases hput.entitled with hown | ⟨_, hsome⟩
    · exact stored_of_entitled hown
    · obtain ⟨b', hb'⟩ := Option.isSome_iff_exists.mp hsome
      rw [← hput.same b' hb']
      exact hb b' hb'
  · intro k a ha
    exact stored_of_grows hgrows (hw k a ha)

theorem attached_of_run {st : Option Workspace} (h : Run casework steps st) :
    ∀ w, st = some w → Attached w := by
  refine invariant_of_events Attached ?_ ?_ h
  · intro tenant_id k a ha
    simp [sealed, Workspace.blank] at ha
  · intro steps s w tx m result ho hw
    have hm : Attached m := attached_of_occurs ho hw
    exact hm

/-- The baselines of a history are baselines of its scope. -/
def Chronicled (w : Workspace) : Prop :=
  ∀ k l, w.baseline_history.get? k = some l → ∀ b ∈ l, scopeKey b.scope = k

omit [CollisionFree] in
/-- Only a new baseline lengthens a history of baselines. -/
theorem effect_baselineHistory {svc : Service} {env : Environment} {call : Call}
    (h : Effect svc env w call m result) : m.baseline_history = w.baseline_history ∨
      ∃ actor cmd scope limit_minor expires_at b,
        call = .setBaseline actor cmd scope limit_minor expires_at ∧
          SetsBaseline (w.revision + 1) scope w m b := by
  cases h with
  | filed _ _ files => exact Or.inl files.logs.baseline_history
  | reserved _ reserves => exact Or.inl reserves.logs.baseline_history
  | investigated _ _ _ investigates => exact Or.inl investigates.logs.baseline_history
  | handedOff _ handsOff => exact Or.inl handsOff.logs.baseline_history
  | accepted _ accepts => exact Or.inl accepts.logs.baseline_history
  | evaluated _ _ _ _ decides =>
    rw [decides.stored]
    exact Or.inl rfl
  | registered _ _ _ _ decides =>
    rw [decides.stored]
    exact Or.inl rfl
  | baselineSet _ sets => exact Or.inr ⟨_, _, _, _, _, _, rfl, sets⟩
  | opened _ _ opens => exact Or.inl opens.logs.baseline_history
  | ingested _ _ _ opens => exact Or.inl opens.logs.baseline_history
  | reopened _ reopens =>
    obtain ⟨_, _, hlogs⟩ := reopens.logs
    exact Or.inl hlogs.baseline_history
  | resolved _ resolves =>
    obtain ⟨_, _, hlogs⟩ := resolves.logs
    exact Or.inl hlogs.baseline_history

omit [CollisionFree] in
theorem chronicled_of_occurs (h : Occurs steps s w tx m result) (hw : Chronicled w) :
    Chronicled m := by
  rcases effect_baselineHistory h.effect with hsame | ⟨_, _, scope, _, _, b, _, hsets⟩
  · unfold Chronicled
    rw [hsame]
    exact hw
  · intro k l hl b' hb'
    rw [hsets.history, Dict.get?_set] at hl
    split at hl
    · rename_i hk
      cases hl
      rcases List.mem_append.mp hb' with hpast | hnew
      · cases hget : w.baseline_history.get? (scopeKey scope) with
        | none => simp [hget] at hpast
        | some past =>
          rw [hget] at hpast
          rw [← hk]
          exact hw _ past hget b' hpast
      · rw [List.mem_singleton.mp hnew, hsets.about, hk]
    · exact hw k l hl b' hb'

theorem chronicled_of_run {st : Option Workspace} (h : Run casework steps st) :
    ∀ w, st = some w → Chronicled w := by
  refine invariant_of_events Chronicled ?_ ?_ h
  · intro tenant_id k l hl
    simp [sealed, Workspace.blank] at hl
  · intro steps s w tx m result ho hw
    have hm : Chronicled m := chronicled_of_occurs ho hw
    exact hm

end Records

section Isolated

variable {actor : Actor} {w m : Workspace}

/-- Entries of two maps differ only where they are about matters of the actor. -/
def Own {κ α : Type*} [DecidableEq κ] (actor : Actor) (w m : Workspace) (about : κ → α → Matter)
    (d e : Dict κ α) : Prop :=
  Within (fun k a => Entitled w actor (about k a)) (fun k a => Entitled m actor (about k a)) d e

/-- Entries of two maps differ only where they carry a subject of the actor. -/
def OfSubjects {κ α : Type*} [DecidableEq κ] (actor : Actor) (subject : α → Identifier)
    (d e : Dict κ α) : Prop :=
  Within (fun _ a => subject a ∈ actor.subjects) (fun _ a => subject a ∈ actor.subjects) d e

/-- A change stays with the subjects of the actor. -/
structure Isolated (actor : Actor) (w m : Workspace) : Prop where
  tenant : m.tenant_id = w.tenant_id
  tasks : OfSubjects actor subjectOf w.tasks m.tasks
  cases : OfSubjects actor (fun c => c.scope.subject_id) w.cases m.cases
  case_history : Own actor w m (fun k _ => .case k) w.case_history m.case_history
  baselines : OfSubjects actor (fun b => b.scope.subject_id) w.baselines m.baselines
  baseline_history : Within (fun _ l => ∀ b ∈ l, b.scope.subject_id ∈ actor.subjects)
    (fun _ l => ∀ b ∈ l, b.scope.subject_id ∈ actor.subjects) w.baseline_history m.baseline_history
  decisions : Own actor w m (fun _ d => .task d.task_id) w.decisions m.decisions
  reports : Own actor w m (fun _ r => .case r.case_id) w.reports m.reports
  handoffs : Own actor w m (fun _ h => .case h.case_id) w.handoffs m.handoffs
  lessons : Own actor w m (fun _ l => .case l.case_id) w.lessons m.lessons
  artifacts : Own actor w m (fun _ a => matter a) w.artifacts m.artifacts

theorem Isolated.refl (actor : Actor) (w : Workspace) : Isolated actor w w :=
  ⟨rfl, .of_eq rfl, .of_eq rfl, .of_eq rfl, .of_eq rfl, .of_eq rfl, .of_eq rfl, .of_eq rfl,
    .of_eq rfl, .of_eq rfl, .of_eq rfl⟩

/-- A command that judges nothing. -/
theorem isolated_of_quiet (h : Quiet w m)
    (hreports : Own actor w m (fun _ r => .case r.case_id) w.reports m.reports)
    (hhandoffs : Own actor w m (fun _ h => .case h.case_id) w.handoffs m.handoffs)
    (hartifacts : Own actor w m (fun _ a => matter a) w.artifacts m.artifacts) :
    Isolated actor w m where
  tenant := h.tenant
  tasks := .of_eq h.tasks
  cases := .of_eq h.cases
  case_history := .of_eq h.logs.case_history
  baselines := .of_eq h.baselines
  baseline_history := .of_eq h.logs.baseline_history
  decisions := .of_eq h.decisions
  reports := hreports
  handoffs := hhandoffs
  lessons := .of_eq h.logs.lessons
  artifacts := hartifacts

variable [Sha256] [CollisionFree]

/-- The tasks that a risk reaches are of its subject. -/
theorem disturbs_tasks {scope : Scope} (hkin : Kindred w) (h : Disturbs w m scope)
    (hscope : scope.subject_id ∈ actor.subjects) : OfSubjects actor subjectOf w.tasks m.tasks := by
  intro k
  by_cases hk : Touches w k scope
  · cases hget : w.tasks.get? k with
    | none =>
      left
      cases hnew : m.tasks.get? k with
      | none => rfl
      | some t =>
        have hmem := Dict.mem_keys_of_get? hnew
        rw [h.keys] at hmem
        obtain ⟨t', ht'⟩ := Dict.exists_get?_of_mem_keys hmem
        rw [hget] at ht'
        cases ht'
    | some t =>
      right
      have hsubject := hkin.touches hget hk
      obtain ⟨t', ht', hsuspends⟩ := h.reached k t hk hget
      constructor
      · intro a ha
        cases ha
        rw [hsubject]
        exact hscope
      · intro a ha
        rw [ht'] at ha
        cases ha
        have hsame : subjectOf t' = subjectOf t := by
          unfold subjectOf
          rw [hsuspends.intent]
        rw [hsame, hsubject]
        exact hscope
  · exact Or.inl (h.beyond k hk)

/-- A case is written together with its history, and its scope is disturbed. -/
theorem isolated_of_writes {c : RiskCase} {start : Dict String Artifact} {past : List RiskCase}
    (hkin : Kindred w) (hcoherent : Coherent w) (hwrites : WritesCase w m c start)
    (hlogs : LogsCase w m c past)
    (hold : ∀ b, w.cases.get? c.case_id = some b → b.scope.subject_id ∈ actor.subjects)
    (hnew : c.scope.subject_id ∈ actor.subjects)
    (hlessons : Own actor w m (fun _ l => .case l.case_id) w.lessons m.lessons)
    (hartifacts : Own actor w m (fun _ a => matter a) w.artifacts m.artifacts) :
    Isolated actor w m where
  tenant := hwrites.disturbs.tenant
  tasks := disturbs_tasks hkin hwrites.disturbs hnew
  cases := by
    rw [hwrites.cases]
    exact Within.set hold hnew
  case_history := by
    rw [hlogs.case_history]
    apply Within.set
    · intro l hl
      obtain ⟨b, hb⟩ := hcoherent.cases.owned _ l hl
      exact ⟨b, hb, hold b hb⟩
    · refine ⟨c, ?_, hnew⟩
      rw [hwrites.cases, Dict.get?_set_self]
  baselines := .of_eq hwrites.baselines
  baseline_history := .of_eq hlogs.baseline_history
  decisions := .of_eq hwrites.disturbs.decisions
  reports := .of_eq hwrites.disturbs.reports
  handoffs := .of_eq hwrites.disturbs.handoffs
  lessons := hlessons
  artifacts := hartifacts

/-- A baseline is set for a scope of the actor. -/
theorem isolated_of_setsBaseline {seq : ℕ} {scope : Scope} {b : Baseline} (hkin : Kindred w)
    (hshaped : Shaped w) (hchronicled : Chronicled w) (h : SetsBaseline seq scope w m b)
    (hscope : scope.subject_id ∈ actor.subjects) : Isolated actor w m where
  tenant := h.disturbs.tenant
  tasks := disturbs_tasks hkin h.disturbs hscope
  cases := .of_eq h.cases
  case_history := .of_eq h.case_history
  baselines := by
    rw [h.baselines]
    apply Within.set
    · intro old hold
      show old.scope.subject_id ∈ actor.subjects
      rw [← Frame.scopeKey_inj.mp (hshaped.baselines _ _ hold)]
      exact hscope
    · show b.scope.subject_id ∈ actor.subjects
      rw [h.about]
      exact hscope
  baseline_history := by
    have hpast : ∀ l, w.baseline_history.get? (scopeKey scope) = some l →
        ∀ b ∈ l, b.scope.subject_id ∈ actor.subjects := by
      intro l hl old hold
      rw [Frame.scopeKey_inj.mp (hchronicled _ l hl old hold)]
      exact hscope
    rw [h.history]
    apply Within.set hpast
    intro old hold
    rcases List.mem_append.mp hold with hold | hold
    · cases hget : w.baseline_history.get? (scopeKey scope) with
      | none => simp [hget] at hold
      | some l =>
        rw [hget] at hold
        exact hpast l hget old hold
    · rw [List.mem_singleton.mp hold, h.about]
      exact hscope
  decisions := .of_eq h.disturbs.decisions
  reports := .of_eq h.disturbs.reports
  handoffs := .of_eq h.disturbs.handoffs
  lessons := .of_eq h.lessons
  artifacts := .of_eq h.artifacts

omit [CollisionFree] in
/-- A task is decided; a new one is stored first. -/
theorem isolated_of_decides {env : Environment} {seq : ℕ} {w1 : Workspace} {task : Models.Task}
    {explicit_review : Bool} {d : Decision} (h : Decides env actor seq w1 m task explicit_review d)
    (hfresh : Fresh env w) (henlists : Enlists w w1 task)
    (hsubject : subjectOf task ∈ actor.subjects)
    (hartifacts : Own actor w m (fun _ a => matter a) w.artifacts m.artifacts) :
    Isolated actor w m := by
  have hown : Entitled m actor (.task d.task_id) := by
    refine ⟨decidedTask w1 task d explicit_review, ?_, hsubject⟩
    rw [Lifecycle.decides_task h, h.judged.task_id, if_pos rfl]
  have hw1 : w1.tasks = w.tasks ∨ (NewTask w task ∧ w1.tasks = w.tasks.set task.task_id task) := by
    rcases henlists with rfl | ⟨hnew, rfl⟩
    · exact Or.inl rfl
    · exact Or.inr ⟨hnew, rfl⟩
  have hsame : w1.decisions = w.decisions := by
    rcases henlists with rfl | ⟨_, rfl⟩ <;> rfl
  have htasks : OfSubjects actor subjectOf w.tasks m.tasks := by
    intro k
    by_cases hk : task.task_id = k
    · right
      subst hk
      constructor
      · intro t ht
        have hknown := h.known
        rcases hw1 with hw1 | ⟨hnew, _⟩
        · rw [hw1, ht] at hknown
          cases hknown
          exact hsubject
        · rw [hnew.fresh] at ht
          cases ht
      · intro t ht
        rw [Lifecycle.decides_task h, if_pos rfl] at ht
        cases ht
        exact hsubject
    · left
      rw [Lifecycle.decides_task h, if_neg hk]
      rcases hw1 with hw1 | ⟨_, hw1⟩
      · rw [hw1]
      · rw [hw1, Dict.get?_set_of_ne _ _ hk]
  have hdecisions : Own actor w m (fun _ d => .task d.task_id) w.decisions m.decisions := by
    rw [Lifecycle.decides_decisions h, hsame]
    apply Within.set
    · intro old hold
      rw [h.decision_id, hfresh.decisions] at hold
      cases hold
    · exact hown
  have hrest : m.tenant_id = w.tenant_id ∧ m.cases = w.cases ∧ m.case_history = w.case_history ∧
      m.baselines = w.baselines ∧ m.baseline_history = w.baseline_history ∧
      m.reports = w.reports ∧ m.handoffs = w.handoffs ∧ m.lessons = w.lessons := by
    rw [h.stored]
    rcases henlists with rfl | ⟨_, rfl⟩ <;> exact ⟨rfl, rfl, rfl, rfl, rfl, rfl, rfl, rfl⟩
  obtain ⟨htenant, hcases, hhistory, hbaselines, hlimits, hreports, hhandoffs, hlessons⟩ := hrest
  exact ⟨htenant, htasks, .of_eq hcases, .of_eq hhistory, .of_eq hbaselines, .of_eq hlimits,
    hdecisions, .of_eq hreports, .of_eq hhandoffs, .of_eq hlessons, hartifacts⟩

end Isolated

section Events

variable [Sha256] [CollisionFree] {steps : List Step} {s : Step} {w m : Workspace}
  {tx : Transaction} {result : Result} {seq : ℕ}

theorem artifacts_own (h : Occurs steps s w tx m result) (hattached : Attached w) :
    Own tx.actor w m (fun _ a => matter a) w.artifacts m.artifacts := by
  have hgrows := (effect_keeps h.effect h.kept h.fresh).2.2
  have hwithin := within_of_wrote
    (fun k b hk hb => entitled_of_grows hgrows (continued_entitled h hk hb)) (occurs_wrote h)
  exact hwithin.mono (fun k a ha => entitled_before hgrows (hattached k a ha))

omit [CollisionFree] in
variable (seq) in
/-- The lesson of a resolution is about its case. -/
theorem resolveChange_lesson {svc : Service} {env : Environment} {actor : Actor}
    {case_id handoff_id : Identifier} {resolution : Resolution} {evidence_digest : Digest}
    (h : resolveChange svc env actor case_id handoff_id resolution evidence_digest w seq =
      .ok (m, result)) :
    ∃ l, m.lessons.get? (env.fresh "lesson") = some l ∧ l.case_id = case_id := by
  simp only [resolveChange, bind_eq_ok] at h
  obtain ⟨old, _, handoff, _, _, _, report, _, _, _, h⟩ := h
  split at h
  · simp only [bind_eq_ok, pure_eq_ok, Prod.mk.injEq] at h
    obtain ⟨history, _, w2, _, w3, _, hm, _⟩ := h
    rw [← hm]
    exact ⟨_, Dict.get?_set_self .., rfl⟩
  · simp only [bind_eq_ok, pure_eq_ok, Prod.mk.injEq] at h
    obtain ⟨_, _, history, _, w2, _, w3, _, hm, _⟩ := h
    rw [← hm]
    exact ⟨_, Dict.get?_set_self .., rfl⟩

omit [CollisionFree] in
variable (seq) in
/-- A new handoff is about the case that it was made for. -/
theorem handoffChange_case {svc : Service} {env : Environment} {actor : Actor}
    {case_id report_id reviewer_id k : Identifier} {h : Handoff}
    (hchanged : handoffChange svc env actor case_id report_id reviewer_id w seq = .ok (m, result))
    (hnew : w.handoffs.get? k = none) (hh : m.handoffs.get? k = some h) : h.case_id = case_id := by
  simp only [handoffChange, bind_eq_ok, pure_eq_ok, Prod.mk.injEq] at hchanged
  obtain ⟨_, _, _, _, _, _, _, _, _, _, hm, _⟩ := hchanged
  rw [← hm] at hh
  change Dict.get? (Dict.set _ _ _) _ = _ at hh
  rw [Dict.get?_set] at hh
  split at hh
  · cases hh
    rfl
  · rw [hnew] at hh
    cases hh

omit [Sha256] [CollisionFree] in
/-- An operator of a subject. -/
theorem subject_of_authorize {actor : Actor} {roles : List Role} {subject_id : Identifier}
    (h : authorize actor roles (some subject_id) = .ok ()) : subject_id ∈ actor.subjects := by
  simp only [authorize, ensure_eq_ok] at h
  exact h.2 _ rfl

omit [Sha256] [CollisionFree] in
theorem scope_of_entitled {actor : Actor} {case_id : Identifier} {c : RiskCase}
    (h : Entitled w actor (.case case_id)) (hc : w.cases.get? case_id = some c) :
    c.scope.subject_id ∈ actor.subjects := by
  obtain ⟨c', hc', hsubject⟩ := h
  rw [hc] at hc'
  cases hc'
  exact hsubject

/-- Every event stays with the subjects of its actor. -/
theorem isolated_of_occurs (h : Occurs steps s w tx m result) (hkin : Kindred w)
    (hattached : Attached w) (hchronicled : Chronicled w) (hcoherent : Coherent w) :
    Isolated tx.actor w m := by
  have hartifacts := artifacts_own h hattached
  have hgrows := (effect_keeps h.effect h.kept h.fresh).2.2
  have hscopes := rechecked_of_commits h.now.executed h.commits
  have hp := h.commits.prepared
  have hchanged := h.commits.changed
  have hkept := h.kept
  have hfresh := h.fresh
  have heffect := h.effect
  have hinstalled := h.now.installed
  generalize s.call = call at hp heffect hinstalled
  generalize s.env = env at hp heffect hfresh
  generalize s.svc = svc at hp heffect hinstalled
  clear h
  cases heffect with
  | filed _ _ files =>
    exact isolated_of_quiet files.toQuiet (.of_eq files.reports) (.of_eq files.handoffs) hartifacts
  | reserved _ reserves =>
    exact isolated_of_quiet reserves.toQuiet (.of_eq reserves.reports) (.of_eq reserves.handoffs)
      hartifacts
  | @investigated actor cmd case_id _ _ _ _ _ report _ _ drafted investigates =>
    rcases investigate_ok hp with ⟨_, htx, _⟩ | ⟨inquiry, report', _, _, htx⟩
    · cases htx
    · cases htx
      have hentitled := entitled_of_recheck hscopes rfl
      refine isolated_of_quiet investigates.toQuiet ?_ (.of_eq investigates.handoffs) hartifacts
      rw [investigates.reports]
      apply Within.set
      · intro old hold
        rw [investigates.fresh] at hold
        cases hold
      · have hown := entitled_of_grows hgrows hentitled
        show Entitled m actor (.case report.case_id)
        rw [(draftReport_ok drafted).2.1]
        exact hown
  | @handedOff actor cmd case_id report_id reviewer_id _ _ handoff _ handsOff =>
    have hp := inTransaction_transaction hp
    simp only [CaseCommands.handoff, bind_eq_ok, pure_eq_ok] at hp
    obtain ⟨_, _, rfl⟩ := hp
    have hentitled := entitled_of_recheck hscopes rfl
    have habout : handoff.case_id = case_id := by
      refine handoffChange_case (w.revision + 1) hchanged handsOff.fresh ?_
      rw [handsOff.handoffs]
      exact Dict.get?_set_self ..
    refine isolated_of_quiet handsOff.toQuiet (.of_eq handsOff.reports) ?_ hartifacts
    rw [handsOff.handoffs]
    apply Within.set
    · intro old hold
      rw [handsOff.fresh] at hold
      cases hold
    · show Entitled m actor (.case handoff.case_id)
      rw [habout]
      exact entitled_of_grows hgrows hentitled
  | @accepted actor cmd handoff_id _ _ handoff _ accepts =>
    have hp := inTransaction_transaction hp
    simp only [acceptHandoff, bind_eq_ok, pure_eq_ok] at hp
    obtain ⟨_, _, rfl⟩ := hp
    simp only [acceptHandoffChange, bind_eq_ok, fetch_eq_ok] at hchanged
    obtain ⟨known, hknown, _, _, case, hcase, _⟩ := hchanged
    rw [accepts.known] at hknown
    cases hknown
    have hentitled := entitled_of_findCase hcase
    refine isolated_of_quiet accepts.toQuiet (.of_eq accepts.reports) ?_ hartifacts
    rw [accepts.handoffs]
    apply Within.set
    · intro old hold
      rw [accepts.known] at hold
      cases hold
      exact hentitled
    · exact entitled_of_grows hgrows hentitled
  | @evaluated actor cmd task_id reconsider _ _ task d _ _ _ about decides =>
    have hp := inTransaction_transaction hp
    simp only [evaluate, bind_eq_ok, pure_eq_ok] at hp
    obtain ⟨_, _, rfl⟩ := hp
    obtain ⟨t, ht, hsubject⟩ := entitled_of_recheck_task hscopes rfl
    have hknown := decides.known
    rw [about, ht] at hknown
    cases hknown
    exact isolated_of_decides decides hfresh (Or.inl rfl) hsubject hartifacts
  | @registered actor cmd intent depends_on _ _ task d _ _ intends new decides =>
    have hp := inTransaction_transaction hp
    simp only [registerTask, bind_eq_ok, pure_eq_ok] at hp
    obtain ⟨_, hauthorized, rfl⟩ := hp
    refine isolated_of_decides decides hfresh (Or.inr ⟨new, rfl⟩) ?_ hartifacts
    unfold subjectOf
    rw [intends]
    exact subject_of_authorize hauthorized
  | @baselineSet actor cmd scope limit_minor expires_at _ _ b _ sets =>
    have hp := inTransaction_transaction hp
    simp only [setBaseline, bind_eq_ok, pure_eq_ok] at hp
    obtain ⟨_, hauthorized, _, _, rfl⟩ := hp
    exact isolated_of_setsBaseline hkin hkept.toShaped hchronicled sets
      (subject_of_authorize hauthorized)
  | @opened actor cmd scope kind evidence_digest _ _ c _ about opens =>
    have hp := inTransaction_transaction hp
    simp only [openCase, bind_eq_ok, pure_eq_ok] at hp
    obtain ⟨_, hauthorized, rfl⟩ := hp
    refine isolated_of_writes hkin hcoherent opens.writes opens.logs ?_ ?_ (.of_eq opens.lessons)
      hartifacts
    · simp [opens.fresh]
    · rw [about]
      exact subject_of_authorize hauthorized
  | @ingested incidents delivery expected_revision _ _ spec c accepted _ about opens =>
    have hp := inTransaction_transaction hp
    simp only [ingest, item, bind_eq_ok, fetch_eq_ok, pure_eq_ok] at hp
    obtain ⟨spec', hspec, _, _, actor, hactor, rfl⟩ := hp
    rw [accepted] at hspec
    cases hspec
    obtain ⟨actor', hactor', hauthorized⟩ :=
      hinstalled _ _ _ rfl spec (List.mem_of_find?_eq_some accepted)
    rw [hactor] at hactor'
    cases hactor'
    refine isolated_of_writes hkin hcoherent opens.writes opens.logs ?_ ?_ (.of_eq opens.lessons)
      hartifacts
    · simp [opens.fresh]
    · rw [about]
      exact subject_of_authorize hauthorized
  | @reopened actor cmd case_id evidence_digest _ _ old c _ reopens =>
    have hp := inTransaction_transaction hp
    simp only [reopenCase, bind_eq_ok, pure_eq_ok] at hp
    obtain ⟨_, _, rfl⟩ := hp
    have hsubject := scope_of_entitled (entitled_of_recheck hscopes rfl) reopens.known
    obtain ⟨actor_id, digest, hc⟩ := reopens.renewed
    obtain ⟨past, _, hlogs⟩ := reopens.logs
    have hknown : old.case_id = case_id := hkept.cases _ _ reopens.known
    have hid : c.case_id = case_id := by
      rw [hc]
      exact hknown
    refine isolated_of_writes hkin hcoherent reopens.writes hlogs ?_ ?_ (.of_eq reopens.lessons)
      hartifacts
    · intro b hb
      rw [hid, reopens.known] at hb
      cases hb
      exact hsubject
    · rw [hc]
      exact hsubject
  | @resolved actor cmd case_id handoff_id resolution evidence_digest _ _ old handoff report _
      resolves =>
    have hp := inTransaction_transaction hp
    simp only [resolve, bind_eq_ok, pure_eq_ok] at hp
    obtain ⟨_, _, rfl⟩ := hp
    have hentitled := entitled_of_recheck hscopes rfl
    have hsubject := scope_of_entitled hentitled resolves.known
    obtain ⟨past, _, hlogs⟩ := resolves.logs
    obtain ⟨start, _, hwrites⟩ := resolves.writes
    obtain ⟨lesson, hlesson, _⟩ := resolves.lessons
    have hid : old.case_id = case_id := hkept.cases _ _ resolves.known
    refine isolated_of_writes hkin hcoherent hwrites hlogs ?_ hsubject ?_ hartifacts
    · intro b hb
      change w.cases.get? old.case_id = some b at hb
      rw [hid, resolves.known] at hb
      cases hb
      exact hsubject
    · obtain ⟨l, hl, habout⟩ := resolveChange_lesson (w.revision + 1) hchanged
      rw [hlesson, Dict.get?_set_self] at hl
      cases hl
      rw [hlesson]
      apply Within.set
      · intro old' hold
        rw [hfresh.lessons] at hold
        cases hold
      · show Entitled m actor (.case lesson.case_id)
        rw [habout]
        exact entitled_of_grows hgrows hentitled

end Events

section Runs

/-- The actor that a call acts for. An incident source acts for the actor that it
is configured with. -/
def onBehalf (svc : Service) : Call → Option Actor
  | .bootstrap actor _ => some actor
  | .setBaseline actor .. => some actor
  | .registerTask actor .. => some actor
  | .evaluate actor .. => some actor
  | .openCase actor .. => some actor
  | .reopenCase actor .. => some actor
  | .quarantineNote actor .. => some actor
  | .reserveAttempt actor .. => some actor
  | .investigate actor .. => some actor
  | .handoff actor .. => some actor
  | .acceptHandoff actor .. => some actor
  | .resolve actor .. => some actor
  | .prepareReview actor .. => some actor
  | .prepareAnchor actor .. => some actor
  | .verifyAnchor actor .. => some actor
  | .reserveSource actor .. => some actor
  | .finishSource actor .. => some actor
  | .planMission actor .. => some actor
  | .resumeMission actor .. => some actor
  | .ingest incidents delivery _ => do
    let spec ← incidents.find? (fun s => s.source_id = delivery.source_id)
    svc.actors.get? spec.actor_id
  | .preparePlan actor .. => some actor
  | .verifyPlan actor .. => some actor

variable [Sha256]

theorem onBehalf_of_prepare {svc : Service} {env : Environment} {call : Call} {tx : Transaction}
    (h : call.prepare svc env = .ok (.transaction tx)) : onBehalf svc call = some tx.actor := by
  cases call with
  | reserveAttempt actor cmd case_id snapshot =>
    rcases reserveAttempt_ok h with ⟨_, htx, _⟩ | ⟨_, _, _, _, htx⟩
    · cases htx
    · cases htx
      rfl
  | investigate actor cmd case_id snapshot planning =>
    rcases investigate_ok h with ⟨_, htx, _⟩ | ⟨_, _, _, _, htx⟩
    · cases htx
    · cases htx
      rfl
  | verifyAnchor actor cmd snapshot anchor_id tx_hash verified =>
    rcases verifyAnchor_ok h with ⟨_, htx, _⟩ | ⟨_, _, _, htx⟩
    · cases htx
    · cases htx
      rfl
  | verifyPlan actor cmd partner snapshot plan_id job_id history =>
    rcases verifyPlan_ok h with ⟨_, htx, _⟩ | ⟨_, _, _, htx⟩
    · cases htx
    · cases htx
      rfl
  | resumeMission actor cmd snapshot mission_id =>
    have h := inTransaction_transaction h
    simp only [resumeMission, bind_eq_ok] at h
    obtain ⟨_, _, _, _, _, _, h⟩ := h
    split at h
    · simp only [pure_bind, bind_eq_ok, pure_eq_ok] at h
      obtain ⟨_, _, _, _, _, _, rfl⟩ := h
      rfl
    · simp only [bind_eq_ok, throw_ne_ok, false_and, exists_false] at h
  | bootstrap actor cmd =>
    have h := inTransaction_transaction h
    simp only [TaskCommands.bootstrap, bind_eq_ok, pure_eq_ok] at h
    obtain ⟨_, _, rfl⟩ := h
    rfl
  | setBaseline actor cmd scope limit_minor expires_at =>
    have h := inTransaction_transaction h
    simp only [setBaseline, bind_eq_ok, pure_eq_ok] at h
    obtain ⟨_, _, _, _, rfl⟩ := h
    rfl
  | prepareAnchor actor cmd task_id decision_id =>
    have h := inTransaction_transaction h
    simp only [prepareAnchor, bind_eq_ok, pure_eq_ok] at h
    obtain ⟨_, _, _, _, rfl⟩ := h
    rfl
  | planMission actor cmd desk case_id queries reviewer_id =>
    have h := inTransaction_transaction h
    simp only [planMission, bind_eq_ok, pure_eq_ok] at h
    obtain ⟨_, _, _, _, rfl⟩ := h
    rfl
  | ingest incidents delivery expected_revision =>
    have h := inTransaction_transaction h
    simp only [ingest, item, bind_eq_ok, fetch_eq_ok, pure_eq_ok] at h
    obtain ⟨spec, hspec, _, _, actor, hactor, rfl⟩ := h
    simp only [onBehalf, hspec]
    exact hactor
  | _ =>
    have h := inTransaction_transaction h
    simp only [registerTask, evaluate, openCase, reopenCase, quarantineNote, handoff,
      acceptHandoff, resolve, prepareReview, reserveSource, finishSource, preparePlan,
      bind_eq_ok, pure_eq_ok] at h
    obtain ⟨_, _, rfl⟩ := h
    rfl

variable [CollisionFree] {steps : List Step} {w : Workspace}

/-- A step stays with the subjects of the actor that it acts for. -/
theorem isolated_of_step {s : Step} {actor : Actor} (hrun : Run casework steps (some w))
    (hnow : Allowed steps s) (hpre : s.pre = some w) (hactor : onBehalf s.svc s.call = some actor) :
    ∃ m, s.post = some m ∧ Isolated actor w m := by
  have hran : Run casework steps s.pre := hpre ▸ hrun
  rcases step_cases hran hnow with ⟨_, w', tx, m, result, hh⟩ | ⟨_, hpost⟩
  · have hw : w' = w := by
      rcases hh.before with hsame | ⟨hnone, _⟩
      · rw [hpre] at hsame
        cases hsame
        rfl
      · rw [hpre] at hnone
        cases hnone
    subst hw
    rw [onBehalf_of_prepare hh.commits.prepared] at hactor
    cases hactor
    have hiso := isolated_of_occurs ⟨hh, hran, hnow⟩ (kindred_of_run hrun w' rfl)
      (attached_of_run hrun w' rfl) (chronicled_of_run hrun w' rfl) (coherent_of_run hrun w' rfl)
    exact ⟨_, hh.commits.post, hiso.tenant, hiso.tasks, hiso.cases, hiso.case_history,
      hiso.baselines, hiso.baseline_history, hiso.decisions, hiso.reports, hiso.handoffs,
      hiso.lessons, hiso.artifacts⟩
  · exact ⟨w, hpost.trans hpre, .refl actor w⟩

/-- Every command of an actor leaves all that is not about its subjects as it is.
Behind this stands that the closure of a task exists, has no cycle and stays with
the subject of the task, and so does whatever a risk reaches. -/
theorem subjects_are_isolated (hrun : Run casework steps (some w)) :
    (∀ s actor, Allowed steps s → s.pre = some w → onBehalf s.svc s.call = some actor →
      ∃ m, s.post = some m ∧ Isolated actor w m) ∧
    (∀ t task, w.tasks.get? t = some task → ∃ closure, ancestors w t = .ok closure ∧
      (∀ a, a ∈ closure ↔ ReliesOn w t a) ∧
      ∀ a ∈ closure, ∃ atask, w.tasks.get? a = some atask ∧ subjectOf atask = subjectOf task) ∧
    (∀ t p, Edge (dependsOn w) t p → ¬ ReliesOn w p t) ∧
    ∀ scope t task, w.tasks.get? t = some task → t ∈ affectedTasks w scope →
      subjectOf task = scope.subject_id := by
  have hkept := (kept_of_run hrun w rfl).tasks
  have hkin := kindred_of_run hrun w rfl
  refine ⟨fun s actor hnow hpre hactor => isolated_of_step hrun hnow hpre hactor, ?_, ?_, ?_⟩
  · intro t task ht
    obtain ⟨closure, hclosure⟩ := hkept.ancestors_of_get? ht
    refine ⟨closure, hclosure, fun a => mem_ancestors hclosure, ?_⟩
    intro a ha
    exact hkin.reaches ((mem_ancestors hclosure).mp ha) ht
  · intro t p hedge hback
    have hlt := hkept.rank_lt hedge
    rcases Reaches.rank_le (fun v p he => hkept.rank_lt he) hback with rfl | hle
    · omega
    · omega
  · intro scope t task ht haffected
    exact hkin.touches ht (mem_affectedTasks.mp haffected)

omit [Sha256] [CollisionFree] in
/-- A dispute over one subject's scope stops its task and leaves another's as it is. -/
theorem neighbours_are_isolated : letI := spelling
    ∃ steps s w w' payment due due', Crew.Neighboured steps s w w' payment due ∧
      w'.tasks.get? due.task_id = some due' ∧ Suspends due due' ∧
      w'.tasks.get? payment.task_id = some payment ∧
      ∃ closure, ancestors w due.task_id = .ok closure ∧ payment.task_id ∉ closure := by
  let _ := spelling
  have := spelling_collisionFree
  obtain ⟨steps, s, w, w', payment, due, h⟩ := Crew.exists_neighboured
  obtain ⟨due', hdue', hsuspends⟩ := h.disputed
  obtain ⟨hsteps, hclosures, _, _⟩ := subjects_are_isolated h.run
  have hactor : onBehalf s.svc s.call = some Crew.neighbour := by
    obtain ⟨cmd, hcall⟩ := h.called
    rw [hcall]
    rfl
  obtain ⟨m, hm, hisolated⟩ := hsteps s Crew.neighbour h.now h.pre hactor
  rw [h.post] at hm
  cases hm
  have hforeign : subjectOf payment ∉ Crew.neighbour.subjects := by
    rw [subjectOf, h.paid_intent]
    simp [Crew.neighbour, Crew.payment, Crew.transfers]
  obtain ⟨closure, hclosure, _, hkin⟩ := hclosures due.task_id due h.stored
  refine ⟨steps, s, w, w', payment, due, due', h, hdue', hsuspends,
    hisolated.tasks.kept h.paid hforeign, closure, hclosure, ?_⟩
  intro hmem
  obtain ⟨other, hother, hsubject⟩ := hkin _ hmem
  rw [h.paid] at hother
  cases hother
  rw [hsubject, subjectOf, h.intent] at hforeign
  exact hforeign (by simp [Crew.neighbour, Crew.rent, Crew.rents])

end Runs

end MemoryGuard.Isolation
