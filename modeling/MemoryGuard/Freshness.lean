import MemoryGuard.Basis
import MemoryGuard.ReviewGate

/-!
Why a basis digest is enough. Every stamp a decision rests on is older than the
decision, and later events stamp what they change with their own number. So a
digest that is still that of the decision shows that nothing below it has
happened since, and the checks of the policy hold now as they did then.
-/
namespace MemoryGuard.Freshness

open OrderedDict Guarded DependencyGraph JsonText ContentHash Models Artifacts Aggregate Core
open Closure Policy Transactions TaskCommands CaseCommands Traces Calls Filing
open EvidenceEffects TaskEffects CaseEffects Effects Growth Upkeep Lifecycle History Frame
open Standing ReviewGate Basis

variable [Sha256]

section Outdated

/-- Something a decision rests on has changed since. -/
inductive Outdated (w : Workspace) (t : Identifier) (d : Decision) : Prop
  | baseline {scope : Scope} {b : Baseline} (touches : Touches w t scope)
      (stored : w.baselines.get? (scopeKey scope) = some b)
      (later : d.memory_revision < b.event_seq)
  | case {k : Identifier} {c : RiskCase} (touches : Touches w t c.scope)
      (stored : w.cases.get? k = some c) (later : d.memory_revision < caseStamp c)
  | parent {a : Identifier} {task : Task} {d' : Decision} (below : ReliesOn w t a)
      (strict : a ≠ t) (stored : w.tasks.get? a = some task)
      (current : currentDecision w task = some d')
      (later : d.memory_revision < d'.memory_revision)

variable {w m : Workspace} {t : Identifier} {d : Decision} {task : Task}

/-- What is outdated stays outdated. -/
theorem outdated_grows (h : Outdated w t d) (hgrows : Grows w m) (hk : TasksKept w)
    (ht : w.tasks.get? t = some task) : Outdated m t d := by
  cases h with
  | baseline touches stored later =>
    obtain ⟨b', hb', hle⟩ := hgrows.baselines _ _ stored
    exact .baseline ((hgrows.touches_iff hk ht).mpr touches) hb' (by omega)
  | case touches stored later =>
    obtain ⟨c', hc', hscope, hle⟩ := hgrows.cases _ _ stored
    exact .case ((hgrows.touches_iff hk ht).mpr (hscope ▸ touches)) hc' (by omega)
  | parent below strict stored current later =>
    obtain ⟨task', d', ht', hd', hle⟩ := hgrows.current _ _ _ stored current
    exact .parent (hgrows.dependsOn_mono below) strict ht' hd' (by omega)

/-- A decision as it was made, in a workspace where nothing was stamped later. -/
structure MadeIn (w : Workspace) (task : Task) (explicit_review : Bool) (d : Decision) : Prop where
  shaped : Shaped w
  stamped : ∃ n, d.memory_revision = n + 1 ∧ Stamped n w
  known : w.tasks.get? d.task_id = some task
  judged : Judged w task explicit_review d

def Originated (w : Workspace) : Prop :=
  ∀ k d, w.decisions.get? k = some d →
    ∃ w1 task explicit_review, MadeIn w1 task explicit_review d ∧ Grows w1 w

theorem madeIn_basis {w1 : Workspace} {explicit_review : Bool}
    (h : MadeIn w1 task explicit_review d) : taskBasis w1 d.task_id = .ok d.basis_hash := by
  rw [h.judged.task_id]
  exact h.judged.basis

variable [CollisionFree]

/-- An outdated decision is not bound to the present basis. -/
theorem basis_ne_of_outdated {w1 : Workspace} {explicit_review : Bool} (hw : Shaped w)
    (hmade : MadeIn w1 task explicit_review d) (hgrows : Grows w1 w)
    (hout : Outdated w d.task_id d) : taskBasis w d.task_id ≠ .ok d.basis_hash := by
  intro hbasis
  obtain ⟨n, hrevision, hstamped⟩ := hmade.stamped
  have hk := hmade.shaped.tasks
  obtain ⟨closure, hclosure⟩ := hk.ancestors_of_get? hmade.known
  obtain ⟨hparents, hfacts⟩ := (taskBasis_eq_iff hk hmade.known hgrows hclosure).mp
    (hbasis.trans (madeIn_basis hmade).symm)
  cases hout with
  | @baseline scope b touches stored later =>
    have hkey := (scopeKey_mem_closureScopes hclosure).mpr
      ((hgrows.touches_iff hk hmade.known).mp touches)
    have hold := hstamped.baselines _ _ ((hfacts.baselines _ hkey).symm.trans stored)
    omega
  | @case k c touches stored later =>
    have hkey := (scopeKey_mem_closureScopes hclosure).mpr
      ((hgrows.touches_iff hk hmade.known).mp touches)
    have hold := hstamped.cases _ _ ((hfacts.cases k c hkey).mp stored)
    omega
  | @parent a atask d' below strict stored current later =>
    have hbelow := (hgrows.dependsOn_iff hk hmade.known).mp below
    obtain ⟨atask1, hget⟩ := hk.stored_task hbelow hmade.known
    obtain ⟨_, hcurrent⟩ :=
      hparents a ((mem_ancestors hclosure).mpr hbelow) strict atask1 atask hget stored
    unfold currentDecision at current
    rw [hcurrent] at current
    cases hid : atask1.current_decision_id with
    | none =>
      rw [hid] at current
      exact absurd rfl (hw.decisions _ _ current).2
    | some id =>
      rw [hid] at current
      obtain ⟨d1, hd1, _⟩ := hmade.shaped.current a atask1 id hget hid
      have hsame := (hgrows.decisions id d1 hd1).symm.trans current
      cases hsame
      have hold := hstamped.decisions id d' hd1
      omega

end Outdated

section Invariant

/-- A task whose current decision is READY is READY itself, or the decision is
outdated. -/
def Dated (w : Workspace) : Prop :=
  ∀ t task d, w.tasks.get? t = some task → currentDecision w task = some d →
    d.verdict = .ready → task.status = .ready ∨ Outdated w t d

variable {env : Environment} {w m : Workspace} {call : Call}

theorem unsettles_outdated {scope : Scope} (h : Unsettles (w.revision + 1) w m scope)
    {t : Identifier} {d : Decision} (htouch : Touches m t scope)
    (hd : d.memory_revision ≤ w.revision) : Outdated m t d := by
  rcases h.stamped with ⟨b, hb, hstamp⟩ | ⟨k, c, hc, rfl, hstamp⟩
  · exact .baseline htouch hb (by omega)
  · exact .case htouch hc (by omega)

theorem outline_dated (h : Outline env w call m) (hw : Kept w) (hfresh : Fresh env w)
    (hgrows : Grows w m) (hdated : Dated w) : Dated m := by
  have hold : ∀ t task d, w.tasks.get? t = some task → currentDecision w task = some d →
      d.verdict = .ready → task.status = .ready ∨ Outdated m t d := by
    intro t task d ht hd hready
    rcases hdated t task d ht hd hready with hstatus | hout
    · exact Or.inl hstatus
    · exact Or.inr (outdated_grows hout hgrows hw.tasks ht)
  cases h with
  | quiet h =>
    intro t task d ht hd hready
    rw [h.tasks] at ht
    rw [currentDecision_congr h.decisions] at hd
    exact hold t task d ht hd hready
  | @unsettled scope unsettles =>
    intro t task d ht hd hready
    rw [currentDecision_congr unsettles.decisions] at hd
    obtain ⟨told, htold, ⟨_, rfl⟩ | ⟨htouch, hsuspends⟩⟩ := disturbs_task unsettles.toDisturbs ht
    · exact hold t task d htold hd hready
    · right
      exact unsettles_outdated unsettles ((hgrows.touches_iff hw.tasks htold).mpr htouch)
        (hw.stamped.decisions _ _ hd)
  | @decided w1 actor dtask explicit_review d' requests _ decides =>
    have enlists := requests_enlists requests
    intro t task d ht hd hready
    rw [decides_task decides] at ht
    split at ht
    · cases ht
      rw [decides_current decides] at hd
      cases hd
      left
      simp [decidedTask, hready, Verdict.status]
    · rename_i hne
      have htold : w.tasks.get? t = some task := by
        rcases enlists with rfl | ⟨_, rfl⟩
        · exact ht
        · rwa [storeTask_get?, if_neg hne] at ht
      refine hold t task d htold ?_ hready
      unfold currentDecision at hd ⊢
      rw [decides_decisions decides, (enlists_known enlists).1, Dict.get?_set] at hd
      split at hd
      · rename_i hid
        exfalso
        cases hcurrent : task.current_decision_id with
        | none =>
          rw [hcurrent, decides.decision_id] at hid
          have hlen := congrArg String.length hid
          simp [Environment.fresh, newId, String.length_append] at hlen
        | some id =>
          rw [hcurrent] at hid
          obtain ⟨d1, hd1, _⟩ := hw.current t task id htold hcurrent
          have hnone := hfresh.decisions "decision"
          rw [← decides.decision_id, hid] at hnone
          exact absurd (hnone.symm.trans hd1) (by simp)
      · exact hd

theorem outline_originated (h : Outline env w call m) (hw : Kept w) (hfresh : Fresh env w)
    (hgrows : Grows w m) (horigin : Originated w) : Originated m := by
  have hold : ∀ k d, w.decisions.get? k = some d →
      ∃ w1 task explicit_review, MadeIn w1 task explicit_review d ∧ Grows w1 m := by
    intro k d hd
    obtain ⟨w1, task, explicit_review, hmade, hg⟩ := horigin k d hd
    exact ⟨w1, task, explicit_review, hmade, hg.trans hgrows⟩
  cases h with
  | quiet h =>
    intro k d hd
    rw [h.decisions] at hd
    exact hold k d hd
  | unsettled unsettles =>
    intro k d hd
    rw [unsettles.decisions] at hd
    exact hold k d hd
  | @decided w1 actor task explicit_review d' requests _ decides =>
    have enlists := requests_enlists requests
    intro k d hd
    rw [decides_decisions decides, (enlists_known enlists).1, Dict.get?_set] at hd
    split at hd
    · cases hd
      refine ⟨w1, task, explicit_review, ⟨enlists_shaped enlists hw.toShaped,
        ⟨w.revision, decides.stamp, enlists_stamped enlists hw.stamped⟩, ?_, decides.judged⟩,
        decided_grows enlists decides hw.stamped hfresh⟩
      rw [decides.judged.task_id]
      exact decides.known
    · exact hold k d hd

end Invariant

section Expiry

variable {w : Workspace} {t : Identifier} {closure : List Identifier}
  {time default_expiry expires_at : Instant}

omit [Sha256] in
theorem foldl_min_le (l : List Instant) (start : Instant) :
    l.foldl min start ≤ start ∧ ∀ x ∈ l, l.foldl min start ≤ x := by
  induction l generalizing start with
  | nil => simp
  | cons y rest ih =>
    obtain ⟨hstart, hrest⟩ := ih (min start y)
    rw [List.foldl_cons]
    refine ⟨hstart.trans (min_le_left _ _), ?_⟩
    intro x hx
    rcases List.mem_cons.mp hx with rfl | hx
    · exact hstart.trans (min_le_right _ _)
    · exact hrest x hx

/-- A READY decision expires no later than what it rests on. -/
theorem readyExpiry_le (h : readyExpiry w t time default_expiry = .ok expires_at)
    (hclosure : ancestors w t = .ok closure) {a : Identifier} {task : Task}
    (ha : (a, task) ∈ closureTasks w closure) :
    (∀ b, w.baselines.get? (scopeKey task.intent.scope) = some b → expires_at ≤ b.expires_at) ∧
      (a ≠ t → ∀ d, currentDecision w task = some d → expires_at ≤ d.expires_at) := by
  simp only [readyExpiry, hclosure, bind_eq_ok, Except.ok.injEq, exists_eq_left', ensure_eq_ok,
    pure_eq_ok] at h
  obtain ⟨_, _, rfl⟩ := h
  constructor
  · intro b hb
    apply (foldl_min_le _ _).2
    rw [List.mem_flatMap]
    refine ⟨(a, task), ha, List.mem_append_left _ ?_⟩
    simp [baselineLimit, hb]
  · intro hne d hd
    apply (foldl_min_le _ _).2
    rw [List.mem_flatMap]
    refine ⟨(a, task), ha, List.mem_append_right _ ?_⟩
    simp [decisionLimit, hd, hne]

end Expiry

section Sufficiency

variable [CollisionFree]

/-- What every stored workspace has that the proof of a task relies on. -/
structure Sound (w : Workspace) : Prop where
  shaped : Shaped w
  entitled : ReadyEntitled w
  dated : Dated w
  originated : Originated w

variable {w : Workspace} {time : Instant} {t id : Identifier} {task : Task}

/-- A task with a proof that is bound to the present memory is READY. -/
theorem proven_ready (hw : Sound w) (ht : w.tasks.get? t = some task)
    (h : Proven w time t task id) : task.status = .ready := by
  obtain ⟨d, hd, hof, hverdict, _, hbasis⟩ := h.decision
  have hcurrent : currentDecision w task = some d := by
    unfold currentDecision
    rw [h.current]
    exact hd
  rcases hw.dated t task d ht hcurrent hverdict with hstatus | hout
  · exact hstatus
  · obtain ⟨w1, task1, explicit_review, hmade, hgrows⟩ := hw.originated id d hd
    subst hof
    exact absurd hbasis (basis_ne_of_outdated hw.shaped hmade hgrows hout)

/-- Everything below such a task has such a proof too. -/
theorem proven_ancestor (hw : Sound w) (ht : w.tasks.get? t = some task)
    (h : Proven w time t task id) {a : Identifier} {atask : Task} (ha : ReliesOn w t a)
    (hne : a ≠ t) (hget : w.tasks.get? a = some atask) : ∃ aid, Proven w time a atask aid := by
  obtain ⟨d, hd, hof, hverdict, hexpiry, hbasis⟩ := h.decision
  obtain ⟨w1, task1, explicit_review, hmade, hgrows⟩ := hw.originated id d hd
  subst hof
  have hk := hmade.shaped.tasks
  have hsame := hbasis.trans (madeIn_basis hmade).symm
  obtain ⟨_, closure, hclosure, hpasses⟩ := judged_passes hmade.judged
    (by rw [← hmade.judged.task_id]; exact hmade.known) hverdict
  rw [← hmade.judged.task_id] at hclosure
  have ha1 := (hgrows.dependsOn_iff hk hmade.known).mp ha
  obtain ⟨atask1, hget1⟩ := hk.stored_task ha1 hmade.known
  have hmem := mem_closureTasks.mpr ⟨(mem_ancestors hclosure).mpr ha1, hget1⟩
  have hne1 : a ≠ task1.task_id := by
    rw [← hmade.judged.task_id]
    exact hne
  have hproven := hpasses.parents _ hmem hne1
  obtain ⟨aid, hcurrent, ad, had, haof, haverdict, _, habasis⟩ :=
    parentProven_proven hmade.shaped hproven
  obtain ⟨hparents, _⟩ := (taskBasis_eq_iff hk hmade.known hgrows hclosure).mp hsame
  obtain ⟨_, hcurrent'⟩ :=
    hparents a ((mem_ancestors hclosure).mpr ha1) hne atask1 atask hget1 hget
  have hlimit := (readyExpiry_le (hmade.judged.expiry hverdict)
    (by rw [← hmade.judged.task_id]; exact hclosure) hmem).2 hne1 ad
    (by rw [currentDecision, hcurrent]; exact had)
  refine ⟨aid, hcurrent'.trans hcurrent, ad, hgrows.decisions _ _ had, haof, haverdict,
    lt_of_lt_of_le hexpiry hlimit, ?_⟩
  rw [ancestor_basis_eq hk hmade.known hgrows hsame ha1]
  exact habasis

/-- The policy passes a task with such a proof. -/
theorem proven_passes (hw : Sound w) (ht : w.tasks.get? t = some task)
    (h : Proven w time t task id) : ∃ closure, ancestors w t = .ok closure ∧
      Passes w t time false task closure := by
  have hready := proven_ready hw ht h
  have hentitled := hw.entitled t task ht hready
  obtain ⟨d, hd, hof, hverdict, hexpiry, hbasis⟩ := h.decision
  obtain ⟨w1, task1, explicit_review, hmade, hgrows⟩ := hw.originated id d hd
  subst hof
  have hk := hmade.shaped.tasks
  obtain ⟨_, closure, hclosure1, hpasses⟩ := judged_passes hmade.judged
    (by rw [← hmade.judged.task_id]; exact hmade.known) hverdict
  have hexpires := hmade.judged.expiry hverdict
  rw [← hmade.judged.task_id] at hclosure1 hpasses hexpires
  have hclosure := hgrows.ancestors_eq hk hmade.known hclosure1
  have hscopes := hgrows.closureScopes_eq hk hmade.known hclosure1
  obtain ⟨_, hfacts⟩ := (taskBasis_eq_iff hk hmade.known hgrows hclosure1).mp
    (hbasis.trans (madeIn_basis hmade).symm)
  refine ⟨closure, hclosure, ?_, ?_, ?_, Or.inl hentitled.untainted⟩
  · rw [List.eq_nil_iff_forall_not_mem]
    intro k hmem
    obtain ⟨c, hc, hopen, hkey⟩ := mem_openCases.mp hmem
    exact hentitled.unblocked k c hc hopen ((scopeKey_mem_closureScopes hclosure).mp hkey)
  · rintro ⟨a, atask⟩ hmem
    obtain ⟨ha, hget⟩ := mem_closureTasks.mp hmem
    obtain ⟨atask1, hget1⟩ := hk.stored_task ((mem_ancestors hclosure1).mp ha) hmade.known
    have hmem1 := mem_closureTasks.mpr ⟨ha, hget1⟩
    obtain ⟨b, hb, _, hlimit⟩ := hpasses.covered _ hmem1
    have hb : w1.baselines.get? (scopeKey atask1.intent.scope) = some b := hb
    obtain ⟨atask', hget', hintent, _⟩ := hgrows.tasks a atask1 hget1
    rw [hget] at hget'
    cases hget'
    have hkey : scopeKey atask1.intent.scope ∈ closureScopes w1 closure :=
      mem_closureScopes.mpr ⟨a, atask1, ha, hget1, rfl⟩
    refine ⟨b, ?_, ?_, ?_⟩
    · change w.baselines.get? (scopeKey atask.intent.scope) = some b
      rw [hintent, hfacts.baselines _ hkey, hb]
    · exact lt_of_lt_of_le hexpiry ((readyExpiry_le hexpires hclosure1 hmem1).1 b hb)
    · change atask.intent.amount_minor.value ≤ b.limit_minor.value
      rw [hintent]
      exact hlimit
  · rintro ⟨a, atask⟩ hmem hne
    obtain ⟨ha, hget⟩ := mem_closureTasks.mp hmem
    obtain ⟨aid, haproven⟩ :=
      proven_ancestor hw ht h ((mem_ancestors hclosure).mp ha) hne hget
    have haready := proven_ready hw hget haproven
    obtain ⟨ad, had, haof, haverdict, haexpiry, habasis⟩ := haproven.decision
    refine ⟨haready, (hw.entitled a atask hget haready).untainted, ad, ?_, haverdict, haof,
      haexpiry, habasis⟩
    change currentDecision w atask = some ad
    unfold currentDecision
    rw [haproven.current]
    exact had

/-- A task with such a proof can be prepared for review. -/
theorem proven_preparable (hw : Sound w) (ht : w.tasks.get? t = some task)
    (h : Proven w time t task id) : (∃ r, policyResult w t time false = .ok r ∧
        r.verdict = .ready) ∧
      ∃ v, decisionValidity w t time = .ok v ∧ v.review_preparable = true := by
  have hready := proven_ready hw ht h
  obtain ⟨closure, hclosure, hpasses⟩ := proven_passes hw ht h
  have hpolicy := policyResult_eq time false ht hclosure
  have hverdict := judge_ready_iff.mpr hpasses
  refine ⟨⟨_, hpolicy, hverdict⟩, ?_⟩
  obtain ⟨d, hd, hof, hdverdict, hexpiry, hbasis⟩ := h.decision
  have hcurrent : currentDecision w task = some d := by
    unfold currentDecision
    rw [h.current]
    exact hd
  obtain ⟨w1, task1, explicit_review, hmade, _⟩ := hw.originated id d hd
  obtain ⟨r, hr, hrverdict, hreasons, _⟩ := hmade.judged.policy
  obtain ⟨_, _, _, _, rfl⟩ := policyResult_ok hr
  have hdreasons := hreasons.trans (judge_reasons (judge_ready_iff.mp (hrverdict ▸ hdverdict)))
  have hlive : ¬ d.expires_at ≤ time := not_le.mpr hexpiry
  unfold decisionValidity
  simp [item, ht, fetch, hpolicy, hbasis, hcurrent, listed, hlive, hready, hdverdict, hverdict,
    hdreasons, judge_reasons hpasses, Verdict.status, bind, Except.bind, pure, Except.pure]

end Sufficiency

section Runs

variable [CollisionFree] {steps : List Step}

omit [CollisionFree] in
theorem recorded_touches {env : Environment} {w m : Workspace} {tx : Transaction}
    {result : Result} {t : Identifier} {scope : Scope} :
    Touches (recorded env w m tx result) t scope ↔ Touches m t scope := touches_congr rfl

omit [CollisionFree] in
theorem recorded_outdated {env : Environment} {w m : Workspace} {tx : Transaction}
    {result : Result} {t : Identifier} {d : Decision} (h : Outdated m t d) :
    Outdated (recorded env w m tx result) t d := by
  cases h with
  | baseline touches stored later => exact .baseline (recorded_touches.mpr touches) stored later
  | case touches stored later => exact .case (recorded_touches.mpr touches) stored later
  | parent below strict stored current later => exact .parent below strict stored current later

theorem sound_of_run {st : Option Workspace} (h : Run casework steps st) :
    ∀ w, st = some w → Sound w := by
  intro w hw
  refine ⟨(kept_of_run h w hw).toShaped, readyEntitled_of_run h w hw, ?_, ?_⟩
  · refine invariant_of_run Dated ?_ ?_ h w hw
    · intro tenant_id t task d ht
      simp [sealed, Workspace.blank] at ht
    · intro s w tx m result hh hdated t task d ht hd hready
      have hm := outline_dated (effect_outline hh.effect hh.kept.stamped) hh.kept hh.fresh
        (effect_keeps hh.effect hh.kept hh.fresh).2.2 hdated
      rcases hm t task d ht hd hready with hstatus | hout
      · exact Or.inl hstatus
      · exact Or.inr (recorded_outdated hout)
  · refine invariant_of_run Originated ?_ ?_ h w hw
    · intro tenant_id k d hd
      simp [sealed, Workspace.blank] at hd
    · intro s w tx m result hh horigin k d hd
      have hm := outline_originated (effect_outline hh.effect hh.kept.stamped) hh.kept hh.fresh
        (effect_keeps hh.effect hh.kept hh.fresh).2.2 horigin
      obtain ⟨w1, task, explicit_review, hmade, hgrows⟩ := hm k d hd
      exact ⟨w1, task, explicit_review, hmade, recorded_grows hgrows⟩

/-- A call that decides something strictly below a task, or changes what is known
of a scope of its closure. -/
def Supersedes (w : Workspace) (call : Call) (t : Identifier) : Prop :=
  (∃ a, decidedId call = some a ∧ a ≠ t ∧ ReliesOn w t a) ∨
    ∃ scope a task, disturbedScope w call = some scope ∧ ReliesOn w t a ∧
      w.tasks.get? a = some task ∧ task.intent.scope = scope

omit [CollisionFree] in
theorem effect_unsettles {svc : Service} {env : Environment} {w m : Workspace} {call : Call}
    {result : Result} {scope : Scope} (h : Effect svc env w call m result) (hw : Kept w)
    (hscope : disturbedScope w call = some scope) : Unsettles (w.revision + 1) w m scope := by
  cases h with
  | filed plain => cases call <;> simp_all [Plain, disturbedScope]
  | reserved => cases hscope
  | investigated => cases hscope
  | handedOff => cases hscope
  | accepted => cases hscope
  | evaluated => cases hscope
  | registered => cases hscope
  | baselineSet _ sets =>
    cases hscope
    exact setsBaseline_unsettles sets
  | opened _ about opens =>
    cases hscope
    exact about ▸ opensCase_unsettles opens
  | ingested accepted _ about opens =>
    simp only [disturbedScope, accepted, Option.map_some, Option.some.injEq] at hscope
    exact hscope ▸ about ▸ opensCase_unsettles opens
  | reopened _ reopens =>
    simp only [disturbedScope, reopens.known, Option.map_some, Option.some.injEq] at hscope
    exact hscope ▸ reopensCase_unsettles reopens
  | resolved _ resolves =>
    simp only [disturbedScope, resolves.known, Option.map_some, Option.some.injEq] at hscope
    exact hscope ▸ resolvesCase_unsettles (hw.stamped.mono (Nat.le_succ _)) resolves

/-- An event below a task outdates every decision of the task. -/
theorem happened_outdated {s : Step} {w m : Workspace} {tx : Transaction} {result : Result}
    (hh : Happened s w tx m result) {t : Identifier} {task : Task} {d : Decision}
    (ht : w.tasks.get? t = some task) (hd : d.memory_revision ≤ w.revision)
    (hsupersedes : Supersedes w s.call t) : Outdated (recorded s.env w m tx result) t d := by
  have hgrows := (effect_keeps hh.effect hh.kept hh.fresh).2.2
  apply recorded_outdated
  rcases hsupersedes with ⟨a, hdecided, hne, hbelow⟩ | ⟨scope, a, atask, hscope, hbelow, hget, hof⟩
  · have heffect := hh.effect
    generalize s.call = call at hdecided heffect
    cases heffect with
    | filed plain => cases call <;> simp_all [Plain, decidedId]
    | evaluated _ _ _ about decides =>
      cases hdecided
      refine .parent (hgrows.dependsOn_mono hbelow) hne ?_ (decides_current decides) ?_
      · rw [decides_task decides, if_pos about]
      · have hstamp := decides.stamp
        omega
    | _ => cases hdecided
  · have htouch : Touches w t scope := ⟨a, atask, hbelow, hget, by rw [hof]⟩
    exact unsettles_outdated (effect_unsettles hh.effect hh.kept hscope)
      ((hgrows.touches_iff hh.kept.tasks ht).mpr htouch) hd

/-- An unexpired READY decision whose digest is the present basis shows that its
task is READY, that the policy passes it and that all it depends on can be
prepared for review. Once anything below the task has been decided again, or
anything has changed about a scope of its closure, no decision made before is
ever bound to the present basis again. -/
theorem basis_hash_sufficient {w : Workspace} (hrun : Run casework steps (some w)) :
    (∀ t task id d time, w.tasks.get? t = some task → task.current_decision_id = some id →
      w.decisions.get? id = some d → d.verdict = .ready → time < d.expires_at →
      taskBasis w t = .ok d.basis_hash →
      task.status = .ready ∧
        (∃ r, policyResult w t time false = .ok r ∧ r.verdict = .ready) ∧
        ∀ a, ReliesOn w t a →
          ∃ v, decisionValidity w a time = .ok v ∧ v.review_preparable = true) ∧
    ∀ before s after w0 id d, steps = before ++ s :: after → s.pre = some w0 →
      w0.decisions.get? id = some d → s.Committed → Supersedes w0 s.call d.task_id →
      taskBasis w d.task_id ≠ .ok d.basis_hash := by
  have hw := sound_of_run hrun w rfl
  constructor
  · intro t task id d time ht hcurrent hd hverdict hexpiry hbasis
    obtain ⟨d', hd', hof⟩ := hw.shaped.current t task id ht hcurrent
    rw [hd] at hd'
    cases hd'
    have hproven : Proven w time t task id := ⟨hcurrent, d, hd, hof, hverdict, hexpiry, hbasis⟩
    refine ⟨proven_ready hw ht hproven, (proven_preparable hw ht hproven).1, ?_⟩
    intro a ha
    by_cases hne : a = t
    · subst hne
      exact (proven_preparable hw ht hproven).2
    · obtain ⟨atask, hget⟩ := hw.shaped.tasks.stored_task ha ht
      obtain ⟨aid, haproven⟩ := proven_ancestor hw ht hproven ha hne hget
      exact (proven_preparable hw hget haproven).2
  · intro before s after w0 id d hsplit hpre hd hcommitted hsupersedes
    subst hsplit
    obtain ⟨hbefore, hnow, hafter⟩ := hrun.at_step
    have hbefore' : Run casework before s.pre := hbefore
    obtain ⟨w1, task1, explicit_review, hmade, hgrows⟩ :=
      (sound_of_run hbefore' w0 hpre).originated id d hd
    obtain ⟨task0, ht0, _⟩ := hgrows.tasks _ _ hmade.known
    rcases step_cases hbefore' hnow with ⟨_, w', tx, m, result, hh⟩ | ⟨hnot, _⟩
    · have hw' := happened_on hh hpre
      subst hw'
      have hout := happened_outdated hh ht0 (hh.kept.stamped.decisions id d hd) hsupersedes
      have hpost : casework.post s = some (recorded s.env w' m tx result) := hh.commits.post
      rw [hpost] at hafter
      rw [show before ++ s :: after = (before ++ [s]) ++ after by simp] at hrun
      obtain ⟨w2, hw2, hgrows2⟩ := run_extends hafter hrun _ rfl
      cases hw2
      have hgrows1 := happened_grows hh
      obtain ⟨task', ht', _⟩ := hgrows1.tasks _ _ ht0
      have hk := (happened_kept hh).tasks
      exact basis_ne_of_outdated hw.shaped hmade (hgrows.trans (hgrows1.trans hgrows2))
        (outdated_grows hout hgrows2 hk ht')
    · exact absurd hcommitted hnot

omit [Sha256] [CollisionFree] in
theorem payment_fresh_until_disputed : letI := spelling
    ∃ (steps : List Step) (s : Step) (w w' : Workspace) (t : Identifier) (task : Task)
      (d : Decision), Run casework (steps ++ [s]) (some w') ∧ Run casework steps (some w) ∧
      w.tasks.get? t = some task ∧ task.current_decision_id = some d.decision_id ∧
      w.decisions.get? d.decision_id = some d ∧ d.verdict = .ready ∧ 0 < d.expires_at ∧
      taskBasis w t = .ok d.basis_hash ∧ task.status = .ready ∧
      (∃ v, decisionValidity w t 0 = .ok v ∧ v.review_preparable = true) ∧
      s.Committed ∧ Supersedes w s.call d.task_id ∧ taskBasis w' d.task_id ≠ .ok d.basis_hash := by
  let _ := spelling
  have := spelling_collisionFree
  obtain ⟨steps, w, task, d, h⟩ := Crew.exists_started
  obtain ⟨s, w', task', c, hd⟩ := Crew.exists_disputed h
  have hp := h.proves
  obtain ⟨hready, _, hall⟩ := (basis_hash_sufficient h.opened.run).1 _ _ _ _ 0 hp.stored hp.current
    hp.decision hp.verdict hp.unexpired hp.basis
  obtain ⟨cmd, hcall⟩ := hd.called
  have hsupersedes : Supersedes w s.call d.task_id := by
    rw [hcall, hp.about]
    exact Or.inr ⟨_, _, _, rfl, dependsOn_self .., hp.stored, by rw [h.intent]; rfl⟩
  have hout := (basis_hash_sufficient hd.opened.run).2 steps s [] w _ d rfl hd.pre hp.decision
    hd.committed hsupersedes
  exact ⟨steps, s, w, w', _, task, d, hd.opened.run, h.opened.run, hp.stored, hp.current,
    hp.decision, hp.verdict, hp.unexpired, hp.basis, hready, hall _ (dependsOn_self ..),
    hd.committed, hsupersedes, hout⟩

end Runs

end MemoryGuard.Freshness
