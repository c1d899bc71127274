import MemoryGuard.Crew

/-!
Unrelated work is untouched. A command that decides nothing a task depends on,
and disturbs no scope of its closure, leaves all that the task recalls: so its
record, its basis, its verdict at every time and its validity stay the same.
-/
namespace MemoryGuard.Frame

open OrderedDict Guarded DependencyGraph JsonText ContentHash Models Artifacts Aggregate Core
open Closure Policy SourceModels SourceState SourceGuard SourceService Transactions TaskCommands
open CaseCommands SourceCommands PartnerCommands Traces Calls Floors Filing EvidenceEffects
open TaskEffects CaseEffects Effects Growth Upkeep Lifecycle History

variable [Sha256]

section Scopes

variable [CollisionFree] {w : Workspace} {t : Identifier} {scope : Scope}

@[simp] theorem scopeKey_inj {s s' : Scope} : scopeKey s = scopeKey s' ↔ s = s' := by
  unfold scopeKey
  rw [digest_inj]
  constructor
  · rintro ⟨_, h⟩
    exact Scope.toJson_injective h
  · rintro rfl
    exact ⟨rfl, rfl⟩

/-- A scope touches a task when it is the scope of something the task depends on. -/
theorem touches_iff_scope : Touches w t scope ↔
    ∃ a task, ReliesOn w t a ∧ w.tasks.get? a = some task ∧ task.intent.scope = scope := by
  unfold Touches
  simp only [scopeKey_inj]

end Scopes

section Recall

variable {w m : Workspace} {t : Identifier}

theorem touches_of_dependsOn {a : Identifier} {scope : Scope} (ha : ReliesOn w t a)
    (h : Touches w a scope) : Touches w t scope := by
  obtain ⟨b, task, hb, hget, hkey⟩ := h
  exact ⟨b, task, Reaches.trans ha hb, hget, hkey⟩

/-- Only links of other cases may be filed. -/
theorem quiet_sameRecall (h : Quiet w m)
    (hlinks : ∀ ids, resolutionLinks m ids = resolutionLinks w ids) : SameRecall w m t where
  size := by rw [h.tasks]
  tasks := fun a _ => by rw [h.tasks]
  decisions := fun _ task _ _ => currentDecision_congr h.decisions task
  baselines := fun key _ => by rw [h.baselines]
  relevant := by
    intro scopes _
    refine ⟨?_, ?_, hlinks _⟩
    · unfold relevantBaselines
      rw [h.baselines]
    · unfold relevantCases
      rw [h.cases]

theorem sameRecall_refl (w : Workspace) (t : Identifier) : SameRecall w w t :=
  ⟨le_refl _, fun _ _ => rfl, fun _ _ _ _ => rfl, fun _ _ => rfl, fun _ _ => ⟨rfl, rfl, rfl⟩⟩

theorem sameRecall_trans {w' : Workspace} (hgrows : Grows w w') (h : SameRecall w w' t)
    (h' : SameRecall w' m t) : SameRecall w m t := by
  have htouch : ∀ scope, Touches w t scope → Touches w' t scope := by
    rintro scope ⟨a, task, ha, hget, hkey⟩
    exact ⟨a, task, hgrows.dependsOn_mono ha, by rw [h.tasks a ha, hget], hkey⟩
  refine ⟨h.size.trans h'.size, ?_, ?_, ?_, ?_⟩
  · intro a ha
    rw [h'.tasks a (hgrows.dependsOn_mono ha), h.tasks a ha]
  · intro a task ha hget
    rw [h'.decisions a task (hgrows.dependsOn_mono ha) (by rw [h.tasks a ha, hget]),
      h.decisions a task ha hget]
  · rintro key ⟨scope, rfl, hs⟩
    rw [h'.baselines _ ⟨scope, rfl, htouch scope hs⟩, h.baselines _ ⟨scope, rfl, hs⟩]
  · intro scopes hscopes
    obtain ⟨hb, hc, hl⟩ := h.relevant scopes hscopes
    obtain ⟨hb', hc', hl'⟩ := h'.relevant scopes (by
      intro key hkey
      obtain ⟨scope, rfl, hs⟩ := hscopes key hkey
      exact ⟨scope, rfl, htouch scope hs⟩)
    rw [hc] at hl'
    exact ⟨hb'.trans hb, hc'.trans hc, hl'.trans hl⟩

variable [CollisionFree]

theorem refiled_links (h : Refiled w.artifacts m.artifacts) (hw : Filed w.artifacts)
    (ids : List Identifier) : resolutionLinks m ids = resolutionLinks w ids := by
  rw [resolutionLinks_eq, resolutionLinks_eq, h.links hw]

theorem files_sameRecall (h : Files w m) (hw : Shaped w) : SameRecall w m t :=
  quiet_sameRecall h.toQuiet (refiled_links h.artifacts hw.filed)

theorem reserves_sameRecall {actor : Actor} {cmd : Command} {q : SourceRequest} {head : SourceHead}
    (h : Reserves actor cmd w m q head) (hw : Shaped w) : SameRecall w m t := by
  obtain ⟨mid, hr⟩ := reserves_artifacts h hw
  refine quiet_sameRecall h.toQuiet (fun ids => ?_)
  rw [resolutionLinks_eq, resolutionLinks_eq, hr.artifacts,
    links_set hr.requested hr.pointed (by simp [drawer]),
    links_set hr.filed hr.request (by simp [drawer]), hr.refiled.links hw.filed]

theorem investigates_sameRecall {r : Report} {external : Option EvidenceContext}
    (h : Investigates w m r external) (hw : Shaped w) : SameRecall w m t := by
  obtain ⟨mid, hmid, hm⟩ := h.artifacts
  refine quiet_sameRecall h.toQuiet (fun ids => ?_)
  rw [resolutionLinks_eq, resolutionLinks_eq, hm, ← hmid.links hw.filed]
  cases external with
  | none => rfl
  | some context =>
    have hfits : Fits (reportSourcesKey r.report_id) (.reportBundle (bundleOf r context)) := rfl
    exact links_set (hmid.filed hw.filed) hfits (by simp [drawer]) ids

omit [CollisionFree] in
theorem handsOff_sameRecall {h : Handoff} (hm : HandsOff w m h) : SameRecall w m t := by
  refine quiet_sameRecall hm.toQuiet (fun ids => ?_)
  rw [resolutionLinks_eq, resolutionLinks_eq, hm.artifacts]

omit [CollisionFree] in
theorem accepts_sameRecall {handoff_id : Identifier} {h : Handoff}
    (hm : Accepts w m handoff_id h) : SameRecall w m t := by
  refine quiet_sameRecall hm.toQuiet (fun ids => ?_)
  rw [resolutionLinks_eq, resolutionLinks_eq, hm.artifacts]

end Recall

section Decisions

variable [CollisionFree] {env : Environment} {actor : Actor} {seq : ℕ} {w m : Workspace}
  {t : Identifier} {task : Task} {explicit_review : Bool} {d : Decision}

/-- A decision is seen by what depends on the decided task only. -/
theorem decides_sameRecall (h : Decides env actor seq w m task explicit_review d) (hw : Shaped w)
    (hfresh : w.decisions.get? (env.fresh "decision") = none)
    (hbeyond : ¬ ReliesOn w t task.task_id) : SameRecall w m t where
  size := by
    have hkeys := congrArg List.length (decides_keys h)
    simp only [Dict.keys, List.length_map] at hkeys
    unfold Dict.size
    omega
  tasks := by
    intro a ha
    rw [decides_task h, if_neg]
    rintro rfl
    exact hbeyond ha
  decisions := by
    intro a atask _ hget
    unfold currentDecision
    cases hcurrent : atask.current_decision_id with
    | some id =>
      obtain ⟨d', hd', _⟩ := hw.current a atask id hget hcurrent
      rw [Option.getD_some, decides_kept h hfresh hd', hd']
    | none =>
      have hne := ((decides_shaped h hfresh hw).decisions d.decision_id d (by
        rw [decides_decisions h]
        exact Dict.get?_set_self ..)).2
      rw [Option.getD_none, decides_decisions h, Dict.get?_set_of_ne _ _ hne]
  baselines := by
    rw [h.stored]
    exact fun _ _ => rfl
  relevant := by
    intro scopes _
    refine ⟨?_, ?_, refiled_links (decides_artifacts h) hw.filed _⟩
    · rw [h.stored]
      rfl
    · rw [h.stored]
      rfl

omit [CollisionFree] in
/-- A new task is nobody's dependency. -/
theorem newTask_sameRecall (hnew : NewTask w task) (hk : TasksKept w)
    (ht : t ∈ w.tasks.keys) : SameRecall w (storeTask w task) t where
  size := (newTask_grows hnew).size
  tasks := by
    intro a ha
    rw [storeTask_get?, if_neg]
    rintro rfl
    exact Dict.get?_eq_none_iff.mp hnew.fresh (hk.stored ha ht)
  decisions := fun _ _ _ _ => rfl
  baselines := fun _ _ => rfl
  relevant := fun _ _ => ⟨rfl, rfl, rfl⟩

end Decisions

section Disturbances

variable {w m : Workspace} {t : Identifier} {scope : Scope}

/-- A disturbance is seen by what the scope touches only. -/
theorem disturbs_sameRecall (h : Disturbs w m scope) (hbeyond : ¬ Touches w t scope)
    (hbaselines : ∀ k, k ≠ scopeKey scope → m.baselines.get? k = w.baselines.get? k)
    (hrelevant : ∀ scopes, scopeKey scope ∉ scopes →
      relevantBaselines m scopes = relevantBaselines w scopes ∧
        relevantCases m scopes = relevantCases w scopes ∧
        resolutionLinks m ((relevantCases w scopes).map Prod.fst) =
          resolutionLinks w ((relevantCases w scopes).map Prod.fst)) : SameRecall w m t where
  size := by
    have hkeys := congrArg List.length h.keys
    simp only [Dict.keys, List.length_map] at hkeys
    unfold Dict.size
    omega
  tasks := fun _ ha => h.beyond _ (fun htouch => hbeyond (touches_of_dependsOn ha htouch))
  decisions := fun _ task _ _ => currentDecision_congr h.decisions task
  baselines := by
    rintro key ⟨s, rfl, hs⟩
    apply hbaselines
    intro hkey
    obtain ⟨a, task, ha, hget, hscope⟩ := hs
    exact hbeyond ⟨a, task, ha, hget, hscope.trans hkey⟩
  relevant := by
    intro scopes hscopes
    apply hrelevant
    intro hmem
    obtain ⟨s, hkey, a, task, ha, hget, hscope⟩ := hscopes _ hmem
    exact hbeyond ⟨a, task, ha, hget, hscope.trans hkey.symm⟩

theorem setsBaseline_sameRecall {seq : ℕ} {b : Baseline} (h : SetsBaseline seq scope w m b)
    (hbeyond : ¬ Touches w t scope) : SameRecall w m t := by
  refine disturbs_sameRecall h.disturbs hbeyond ?_ ?_
  · intro k hk
    rw [setsBaseline_get? h, if_neg (Ne.symm hk)]
  · intro scopes hscopes
    refine ⟨?_, ?_, ?_⟩
    · unfold relevantBaselines
      rw [h.baselines]
      apply Dict.filter_set_of_rejected
      · simpa using hscopes
      · intro _ _
        simpa using hscopes
    · unfold relevantCases
      rw [h.cases]
    · rw [resolutionLinks_eq, resolutionLinks_eq, h.artifacts]

variable [CollisionFree] {c : RiskCase} {start : Dict String Artifact} {version seq : ℕ}

/-- The link of one case is none of the others'. -/
theorem linked_links (h : Linked w c.case_id version seq start) (hw : Filed w.artifacts)
    {ids : List Identifier} (hids : c.case_id ∉ ids) :
    start.entries.filterMap (linkEntry ids) = w.artifacts.entries.filterMap (linkEntry ids) := by
  rcases h with rfl | ⟨p, hcase, hversion, _, rfl⟩
  · rfl
  · have hfits : Fits (resolutionLinkKey c.case_id version) (.resolutionProof p) := by
      rw [← hcase, ← hversion]
      rfl
    apply Dict.filterMap_set_of_rejected
    · simp [linkEntry, hcase, hids]
    · intro old hold
      have hkind := hw.drawer_eq hold hfits
      have hkey := hw _ _ hold
      cases old with
      | resolutionProof p' =>
        have hsame : resolutionLinkKey c.case_id version =
            resolutionLinkKey p'.case_id p'.case_version := hkey
        simp only [resolutionLinkKey, digest_inj, true_and] at hsame
        have hcase' : p'.case_id = c.case_id := by
          simp only [Json.arr.injEq, List.cons.injEq, Json.str.injEq] at hsame
          exact hsame.1.symm
        simp [linkEntry, hcase', hids]
      | _ => simp [drawer] at hkind

variable (version seq) in
theorem writesCase_sameRecall (h : WritesCase w m c start)
    (hlinked : Linked w c.case_id version seq start) (hw : Shaped w)
    (hsame : ∀ old, w.cases.get? c.case_id = some old → old.scope = c.scope)
    (hbeyond : ¬ Touches w t c.scope) : SameRecall w m t := by
  refine disturbs_sameRecall h.disturbs hbeyond ?_ ?_
  · intro k _
    rw [h.baselines]
  · intro scopes hscopes
    have hrejected : ∀ old, w.cases.get? c.case_id = some old → scopeKey old.scope ∉ scopes := by
      intro old hold
      rwa [hsame old hold]
    refine ⟨?_, ?_, ?_⟩
    · unfold relevantBaselines
      rw [h.baselines]
    · unfold relevantCases
      rw [h.cases]
      apply Dict.filter_set_of_rejected
      · simpa using hscopes
      · simpa using hrejected
    · rw [resolutionLinks_eq, resolutionLinks_eq, h.artifacts.links (hlinked.filed hw.filed),
        linked_links hlinked hw.filed]
      intro hmem
      obtain ⟨⟨k, old⟩, hold, rfl⟩ := List.mem_map.mp hmem
      obtain ⟨hentry, hkey⟩ := List.mem_filter.mp hold
      exact hrejected old (Dict.get?_eq_some_iff.mpr hentry) (by simpa using hkey)

end Disturbances

section Commands

variable [CollisionFree]

/-- The scope whose risks or limits a call changes, where it changes any. -/
def disturbedScope (w : Workspace) : Call → Option Scope
  | .setBaseline _ _ scope _ _ => some scope
  | .openCase _ _ scope _ _ => some scope
  | .reopenCase _ _ case_id _ => (w.cases.get? case_id).map RiskCase.scope
  | .resolve _ _ case_id _ _ _ => (w.cases.get? case_id).map RiskCase.scope
  | .ingest incidents delivery _ =>
    (incidents.find? (fun s => s.source_id = delivery.source_id)).map IncidentSpec.scope
  | _ => none

/-- The task that a call decides again, where it decides one. -/
def decidedId : Call → Option Identifier
  | .evaluate _ _ task_id _ => some task_id
  | _ => none

/-- A call that decides nothing in the closure of a task and changes nothing
about a scope of that closure. -/
structure Unrelated (w : Workspace) (call : Call) (t : Identifier) : Prop where
  decides : ∀ a ∈ decidedId call, ¬ ReliesOn w t a
  disturbs : ∀ scope ∈ disturbedScope w call, ∀ a task, ReliesOn w t a →
    w.tasks.get? a = some task → task.intent.scope ≠ scope

theorem Unrelated.beyond {w : Workspace} {call : Call} {t : Identifier} {scope : Scope}
    (h : Unrelated w call t) (hscope : disturbedScope w call = some scope) :
    ¬ Touches w t scope := by
  intro htouch
  obtain ⟨a, task, ha, hget, hs⟩ := touches_iff_scope.mp htouch
  exact h.disturbs scope hscope a task ha hget hs

variable {svc : Service} {env : Environment} {w m : Workspace} {call : Call} {result : Result}
  {t : Identifier} {task : Task}

/-- Every effect leaves what an unrelated task recalls. -/
theorem effect_sameRecall (h : Effect svc env w call m result) (hw : Kept w)
    (hfresh : Fresh env w) (ht : w.tasks.get? t = some task) (hun : Unrelated w call t) :
    SameRecall w m t := by
  have hdecision := hfresh.decisions "decision"
  cases h with
  | filed _ _ files => exact files_sameRecall files hw.toShaped
  | reserved _ reserves => exact reserves_sameRecall reserves hw.toShaped
  | investigated _ _ _ investigates => exact investigates_sameRecall investigates hw.toShaped
  | handedOff _ handsOff => exact handsOff_sameRecall handsOff
  | accepted _ accepts => exact accepts_sameRecall accepts
  | evaluated _ _ _ about decides =>
    exact decides_sameRecall decides hw.toShaped hdecision (about ▸ hun.decides _ rfl)
  | @registered _ _ _ _ _ _ new_task _ _ _ _ new decides =>
    have hmid := newTask_shaped hw.toShaped new
    have hstored := Dict.mem_keys_of_get? ht
    refine sameRecall_trans (newTask_grows new) (newTask_sameRecall new hw.tasks hstored) ?_
    refine decides_sameRecall decides hmid hdecision ?_
    intro hreach
    rw [(newTask_grows new).dependsOn_iff hw.tasks ht] at hreach
    exact Dict.get?_eq_none_iff.mp new.fresh (hw.tasks.stored hreach hstored)
  | baselineSet _ sets => exact setsBaseline_sameRecall sets (hun.beyond rfl)
  | opened _ about opens =>
    refine writesCase_sameRecall 0 0 opens.writes (Or.inl rfl) hw.toShaped ?_
      (hun.beyond (about ▸ rfl))
    simp [opens.fresh]
  | ingested accepted _ about opens =>
    refine writesCase_sameRecall 0 0 opens.writes (Or.inl rfl) hw.toShaped ?_
      (hun.beyond ?_)
    · simp [opens.fresh]
    · simp [disturbedScope, accepted, about]
  | @reopened _ _ case_id _ _ _ old c _ reopens =>
    obtain ⟨actor_id, evidence_digest, hc⟩ := reopens.renewed
    have hkeyed : old.case_id = case_id := hw.cases _ _ reopens.known
    have hid : c.case_id = case_id := by
      rw [hc]
      exact hkeyed
    have hscope : c.scope = old.scope := by
      rw [hc]
      rfl
    refine writesCase_sameRecall 0 0 reopens.writes (Or.inl rfl) hw.toShaped
      ?_ (hun.beyond ?_)
    · intro old' hold'
      rw [hid, reopens.known] at hold'
      cases hold'
      exact hscope.symm
    · simp [disturbedScope, reopens.known, hscope]
  | @resolved actor _ case_id _ resolution _ _ _ old _ _ _ resolves =>
    obtain ⟨start, hlinked, writes⟩ := resolves.writes
    have hid : old.case_id = case_id := hw.cases _ _ resolves.known
    refine writesCase_sameRecall _ _ writes hlinked hw.toShaped ?_ (hun.beyond ?_)
    · intro old' hold'
      have hold' : w.cases.get? old.case_id = some old' := hold'
      rw [hid, resolves.known] at hold'
      cases hold'
      rfl
    · simp [disturbedScope, resolves.known, resolvedCase]

omit [CollisionFree] in
theorem recorded_sameRecall {start : Workspace} {tx : Transaction} (h : SameRecall start m t) :
    SameRecall start (recorded env w m tx result) t :=
  ⟨h.size, h.tasks, h.decisions, h.baselines, h.relevant⟩

/-- A step of a run leaves what an unrelated task recalls. -/
theorem step_sameRecall {steps : List Step} {s : Step} {w' : Workspace}
    (hrun : Run casework steps s.pre) (hnow : Allowed steps s) (hpre : s.pre = some w)
    (hpost : s.post = some w') (ht : w.tasks.get? t = some task) (hun : Unrelated w s.call t) :
    SameRecall w w' t := by
  rcases step_cases hrun hnow with ⟨_, w0, tx, m, result, hh⟩ | ⟨_, hsame⟩
  · have hw := happened_on hh hpre
    subst hw
    rw [hh.commits.post] at hpost
    cases hpost
    exact recorded_sameRecall (effect_sameRecall hh.effect hh.kept hh.fresh ht hun)
  · rw [hsame, hpre] at hpost
    cases hpost
    exact sameRecall_refl w t

/-- A command that decides nothing a task depends on, and changes nothing about
a scope of its closure, leaves the task, its basis, its verdict at every time
and its validity at every time as they were. -/
theorem unrelated_untouched {steps : List Step} {s : Step} {w' : Workspace}
    (hrun : Run casework steps s.pre) (hnow : Allowed steps s) (hpre : s.pre = some w)
    (hpost : s.post = some w') (ht : w.tasks.get? t = some task) (hun : Unrelated w s.call t) :
    w'.tasks.get? t = some task ∧ taskBasis w' t = taskBasis w t ∧
      (∀ time explicit_review,
        policyResult w' t time explicit_review = policyResult w t time explicit_review) ∧
      ∀ time, decisionValidity w' t time = decisionValidity w t time := by
  have hk : TasksKept w := (kept_of_run hrun w hpre).tasks
  have hrecall := step_sameRecall hrun hnow hpre hpost ht hun
  refine ⟨?_, hrecall.basis_eq hk ht, hrecall.policyResult_eq hk ht,
    hrecall.decisionValidity_eq hk ht⟩
  rw [hrecall.tasks t (dependsOn_self w t), ht]

omit [Sha256] [CollisionFree] in
theorem payment_untouched_by_approvals : letI := spelling
    ∃ (steps : List Step) (s : Step) (w w' : Workspace) (t : Identifier) (task : Task),
      Run casework steps s.pre ∧ Allowed steps s ∧ s.Committed ∧ s.pre = some w ∧
      s.post = some w' ∧ w.tasks.get? t = some task ∧ Unrelated w s.call t ∧
      w'.tasks.get? t = some task ∧ taskBasis w' t = taskBasis w t := by
  let _ := spelling
  have := spelling_collisionFree
  obtain ⟨steps, w, task, d, h⟩ := Crew.exists_started
  obtain ⟨cmd, s, w', hcall, hpre, hpost, hnow, hcommitted⟩ := h.other_risk
  have ht := h.proves.stored
  have hun : Unrelated w s.call task.task_id := by
    rw [hcall]
    constructor
    · simp [decidedId]
    · intro scope hscope a atask ha hget
      cases hscope
      have hself := Completion.dependsOn_alone ht h.proves.alone ha
      subst hself
      rw [ht] at hget
      cases hget
      rw [h.intent]
      simp [Crew.payment, Crew.transfers, Crew.approvals]
  have hrun : Run casework steps s.pre := hpre ▸ h.opened.run
  obtain ⟨hstored, hbasis, _, _⟩ := unrelated_untouched hrun hnow hpre hpost ht hun
  exact ⟨steps, s, w, w', _, task, hrun, hnow, hcommitted, hpre, hpost, ht, hun, hstored, hbasis⟩

end Commands

end MemoryGuard.Frame
