import MemoryGuard.Frame
import MemoryGuard.Standing

/-!
The lessons that may guide an investigation. A lesson is written by every
resolution and none is ever deleted, while cases are reopened and resolved again.
Lessons carry the version their case had then, and a version is never used twice;
so the lessons that still match are those of the standing resolutions, one each.
-/
namespace MemoryGuard.Precedents

open OrderedDict Guarded JsonText ContentHash Models Artifacts Aggregate Core Closure
open Transactions TaskCommands CaseCommands Traces Calls Filing EvidenceEffects TaskEffects
open CaseEffects Effects Growth Upkeep Lifecycle History Standing Frame

section Lessons

variable [Sha256] {w m : Workspace}

/-- The case that a call resolves or reopens. -/
def renewedCase : Call → Option Identifier
  | .resolve _ _ case_id _ _ _ => some case_id
  | .reopenCase _ _ case_id _ => some case_id
  | _ => none

/-- An event, as far as cases and lessons are concerned. -/
inductive Docket (w : Workspace) (call : Call) (m : Workspace) : Prop
  | aside (keeps : renewedCase call = none) (cases : m.cases = w.cases)
      (lessons : m.lessons = w.lessons)
  | opened {c : RiskCase} (keeps : renewedCase call = none)
      (fresh : w.cases.get? c.case_id = none) (status : c.status = .opened)
      (cases : m.cases = w.cases.set c.case_id c) (lessons : m.lessons = w.lessons)
  | reopened {case_id : Identifier} {old c : RiskCase} (renews : renewedCase call = some case_id)
      (known : w.cases.get? case_id = some old) (status : c.status = .opened)
      (version : c.version = old.version + 1) (cases : m.cases = w.cases.set case_id c)
      (lessons : m.lessons = w.lessons)
  | resolved {case_id k : Identifier} {old c : RiskCase} {lesson : Lesson}
      (called : ∃ actor cmd handoff_id resolution evidence_digest,
        call = .resolve actor cmd case_id handoff_id resolution evidence_digest)
      (known : w.cases.get? case_id = some old) (version : c.version = old.version + 1)
      (cases : m.cases = w.cases.set case_id c) (fresh : w.lessons.get? k = none)
      (lessons : m.lessons = w.lessons.set k lesson) (teaches : Teaches case_id c lesson)

theorem effect_docket {svc : Service} {env : Environment} {call : Call} {result : Result}
    (h : Effect svc env w call m result) (hkept : Kept w) (hfresh : Fresh env w) :
    Docket w call m := by
  cases h with
  | filed plain _ files =>
    refine .aside ?_ files.cases files.logs.lessons
    cases call <;> first | rfl | exact plain.elim
  | reserved _ reserves => exact .aside rfl reserves.cases reserves.logs.lessons
  | investigated _ _ _ investigates => exact .aside rfl investigates.cases investigates.logs.lessons
  | handedOff _ handsOff => exact .aside rfl handsOff.cases handsOff.logs.lessons
  | accepted _ accepts => exact .aside rfl accepts.cases accepts.logs.lessons
  | evaluated _ _ _ _ decides =>
    rw [decides.stored]
    exact .aside rfl rfl rfl
  | registered _ _ _ _ decides =>
    rw [decides.stored]
    exact .aside rfl rfl rfl
  | baselineSet _ sets => exact .aside rfl sets.cases sets.lessons
  | opened _ _ opens => exact .opened rfl opens.fresh opens.opened opens.writes.cases opens.lessons
  | ingested _ _ _ opens =>
    exact .opened rfl opens.fresh opens.opened opens.writes.cases opens.lessons
  | @reopened _ _ case_id _ _ _ old c _ reopens =>
    obtain ⟨actor_id, evidence_digest, hc⟩ := reopens.renewed
    have hid : c.case_id = case_id := by
      have hold : old.case_id = case_id := hkept.cases _ _ reopens.known
      rw [hc]
      exact hold
    exact .reopened rfl reopens.known (by rw [hc]; rfl) (by rw [hc]; rfl)
      (hid ▸ reopens.writes.cases) reopens.lessons
  | @resolved actor _ case_id _ resolution _ _ _ old _ _ _ resolves =>
    obtain ⟨start, _, writes⟩ := resolves.writes
    obtain ⟨lesson, hlessons, hteaches⟩ := resolves.lessons
    have hid : old.case_id = case_id := hkept.cases _ _ resolves.known
    have hcases := writes.cases
    rw [show (resolvedCase old resolution actor.actor_id (w.revision + 1)).case_id = case_id
      from hid] at hcases
    exact .resolved ⟨_, _, _, _, _, rfl⟩ resolves.known rfl hcases (hfresh.lessons "lesson")
      hlessons hteaches

/-- Lessons are bound to versions their cases have had, each to its own. -/
structure Taught (w : Workspace) : Prop where
  bound : ∀ k l, w.lessons.get? k = some l → ∃ c v, w.cases.get? l.case_id = some c ∧
    l.case_version = some v ∧ v ≤ c.version
  once : ∀ k k' l l', w.lessons.get? k = some l → w.lessons.get? k' = some l' →
    l.case_id = l'.case_id → l.case_version = l'.case_version → k = k'

omit [Sha256] in
/-- A case keeps its lessons when its version grows. -/
theorem taught_of_cases {case_id : Identifier} {c : RiskCase} (hw : Taught w)
    (hcases : m.cases = w.cases.set case_id c) (hlessons : m.lessons = w.lessons)
    (hversion : ∀ old, w.cases.get? case_id = some old → old.version ≤ c.version) : Taught m := by
  constructor
  · intro k l hl
    rw [hlessons] at hl
    obtain ⟨old, v, hold, hv, hle⟩ := hw.bound k l hl
    rw [hcases, Dict.get?_set]
    by_cases hid : case_id = l.case_id
    · subst hid
      exact ⟨c, v, if_pos rfl, hv, hle.trans (hversion old hold)⟩
    · exact ⟨old, v, by rw [if_neg hid, hold], hv, hle⟩
  · rw [hlessons]
    exact hw.once

theorem docket_taught {call : Call} (h : Docket w call m) (hw : Taught w) : Taught m := by
  cases h with
  | aside _ cases lessons =>
    constructor
    · rw [cases, lessons]
      exact hw.bound
    · rw [lessons]
      exact hw.once
  | opened _ fresh _ cases lessons =>
    refine taught_of_cases hw cases lessons ?_
    intro old hold
    rw [fresh] at hold
    cases hold
  | reopened _ known _ version cases lessons =>
    refine taught_of_cases hw cases lessons ?_
    intro old hold
    rw [known] at hold
    cases hold
    omega
  | @resolved case_id k old c lesson _ known version cases fresh lessons teaches =>
    -- the new lesson is bound to a version that no earlier one can have
    have hlater : ∀ k' l, w.lessons.get? k' = some l → l.case_id = case_id →
        l.case_version ≠ some c.version := by
      rintro k' l hl hid hv
      obtain ⟨old', v, hold', hv', hle⟩ := hw.bound k' l hl
      rw [hid, known] at hold'
      cases hold'
      rw [hv] at hv'
      cases hv'
      omega
    have hget : ∀ k' l, m.lessons.get? k' = some l →
        (k' = k ∧ l = lesson) ∨ w.lessons.get? k' = some l := by
      intro k' l hl
      rw [lessons, Dict.get?_set] at hl
      split at hl
      · rename_i hk
        cases hl
        exact Or.inl ⟨hk.symm, rfl⟩
      · exact Or.inr hl
    constructor
    · intro k' l hl
      rw [cases, Dict.get?_set]
      rcases hget k' l hl with ⟨rfl, rfl⟩ | hold
      · exact ⟨c, c.version, if_pos teaches.case_id.symm, teaches.version, le_refl _⟩
      · obtain ⟨old', v, hold', hv, hle⟩ := hw.bound k' l hold
        by_cases hid : case_id = l.case_id
        · rw [← hid, known] at hold'
          cases hold'
          exact ⟨c, v, if_pos hid, hv, by omega⟩
        · exact ⟨old', v, by rw [if_neg hid, hold'], hv, hle⟩
    · intro k1 k2 l1 l2 hl1 hl2 hid hversion
      rcases hget k1 l1 hl1 with ⟨rfl, rfl⟩ | hold1
      · rcases hget k2 l2 hl2 with ⟨rfl, rfl⟩ | hold2
        · rfl
        · exact absurd (hversion.symm.trans teaches.version)
            (hlater k2 l2 hold2 (hid.symm.trans teaches.case_id))
      · rcases hget k2 l2 hl2 with ⟨rfl, rfl⟩ | hold2
        · exact absurd (hversion.trans teaches.version)
            (hlater k1 l1 hold1 (hid.trans teaches.case_id))
        · exact hw.once k1 k2 l1 l2 hold1 hold2 hid hversion

/-- A lesson that the latest event of its case brought, a resolution. -/
def Latest (steps : List Step) (case_id k : Identifier) : Prop :=
  ∃ before s after, steps = before ++ s :: after ∧ s.Committed ∧
    (∃ actor cmd handoff_id resolution evidence_digest,
      s.call = .resolve actor cmd case_id handoff_id resolution evidence_digest) ∧
    (∃ w m lesson, s.pre = some w ∧ s.post = some m ∧ w.lessons.get? k = none ∧
      m.lessons.get? k = some lesson) ∧
    ∀ t ∈ after, t.Committed → renewedCase t.call ≠ some case_id

variable {steps : List Step} {s : Step} {id k : Identifier}

omit [Sha256] in
theorem latest_snoc (h : Latest steps id k)
    (hs : s.Committed → renewedCase s.call ≠ some id) : Latest (steps ++ [s]) id k := by
  obtain ⟨before, t, after, rfl, hcommitted, hcall, hbrings, hafter⟩ := h
  refine ⟨before, t, after ++ [s], by simp, hcommitted, hcall, hbrings, ?_⟩
  intro t' ht'
  rcases List.mem_append.mp ht' with ht' | ht'
  · exact hafter t' ht'
  · rw [List.mem_singleton.mp ht']
    exact hs

/-- The lesson that a resolved case has from its latest resolution. -/
def Represented (steps : List Step) (w : Workspace) (id : Identifier) (c : RiskCase) : Prop :=
  ∃ k l, w.lessons.get? k = some l ∧ Teaches id c l ∧ Latest steps id k

/-- Every resolved case is represented among the lessons. -/
structure Represents (steps : List Step) (w : Workspace) : Prop where
  taught : Taught w
  resolved : ∀ id c, w.cases.get? id = some c → c.status = .resolved → Represented steps w id c

theorem represents_blank (tenant_id : Identifier) :
    Represents steps (sealed (Workspace.blank tenant_id)) := by
  refine ⟨⟨?_, ?_⟩, ?_⟩
  · intro k l hl
    cases hl
  · intro k k' l l' hl
    cases hl
  · intro id c hc
    cases hc

theorem happened_represents {tx : Transaction} {result : Result}
    (hh : Happened s w tx m result) (hcommitted : s.Committed) (hw : Represents steps w) :
    Represents (steps ++ [s]) m := by
  have hdocket : Docket w s.call m := effect_docket hh.effect hh.kept hh.fresh
  refine ⟨docket_taught hdocket hw.taught, ?_⟩
  intro id c hc hstatus
  cases hdocket with
  | aside keeps cases lessons =>
    rw [cases] at hc
    obtain ⟨k, l, hl, hteaches, hlatest⟩ := hw.resolved id c hc hstatus
    exact ⟨k, l, lessons ▸ hl, hteaches, latest_snoc hlatest (by simp [keeps])⟩
  | opened keeps _ status cases lessons =>
    rw [cases, Dict.get?_set] at hc
    split at hc
    · cases hc
      rw [status] at hstatus
      cases hstatus
    · obtain ⟨k, l, hl, hteaches, hlatest⟩ := hw.resolved id c hc hstatus
      exact ⟨k, l, lessons ▸ hl, hteaches, latest_snoc hlatest (by simp [keeps])⟩
  | reopened renews _ status _ cases lessons =>
    rw [cases, Dict.get?_set] at hc
    split at hc
    · cases hc
      rw [status] at hstatus
      cases hstatus
    · rename_i hne
      obtain ⟨k, l, hl, hteaches, hlatest⟩ := hw.resolved id c hc hstatus
      exact ⟨k, l, lessons ▸ hl, hteaches, latest_snoc hlatest (by simp [renews, hne])⟩
  | @resolved case_id k old new lesson called known _ cases fresh lessons teaches =>
    rw [cases, Dict.get?_set] at hc
    split at hc
    · rename_i heq
      cases hc
      subst heq
      have hpre : s.pre = some w := by
        rcases hh.before with hpre | ⟨_, tenant_id, rfl⟩
        · exact hpre
        · cases known
      have hbrings : m.lessons.get? k = some lesson := by
        rw [lessons, Dict.get?_set_self]
      exact ⟨k, lesson, hbrings, teaches, steps, s, [], rfl, hcommitted, called,
        ⟨w, _, lesson, hpre, hh.commits.post, fresh, hbrings⟩, by simp⟩
    · rename_i hne
      obtain ⟨k', l, hl, hteaches, hlatest⟩ := hw.resolved id c hc hstatus
      have hkeys : k ≠ k' := by
        rintro rfl
        rw [fresh] at hl
        cases hl
      obtain ⟨_, _, _, _, _, hcall⟩ := called
      refine ⟨k', l, ?_, hteaches, latest_snoc hlatest (by simp [hcall, renewedCase, hne])⟩
      rw [lessons, Dict.get?_set_of_ne _ _ hkeys, hl]

variable [CollisionFree]

theorem represents_of_run {st : Option Workspace} (h : Run casework steps st) :
    ∀ w, st = some w → Represents steps w := by
  induction h with
  | start =>
    intro w hw
    cases hw
  | @next steps s before now ih =>
    intro w' hw'
    rcases step_cases before now with ⟨hcommitted, w, tx, m, result, hh⟩ | ⟨hrepeated, hpost⟩
    · have hw : Represents steps w := by
        rcases hh.before with hpre | ⟨_, tenant_id, rfl⟩
        · exact ih w hpre
        · exact represents_blank tenant_id
      have hm : Represents (steps ++ [s]) m := happened_represents hh hcommitted hw
      change s.post = some w' at hw'
      rw [hh.commits.post] at hw'
      cases hw'
      exact ⟨⟨hm.taught.bound, hm.taught.once⟩, hm.resolved⟩
    · change s.post = some w' at hw'
      rw [hpost] at hw'
      have hw := ih w' hw'
      refine ⟨hw.taught, ?_⟩
      intro id c hc hstatus
      obtain ⟨k, l, hl, hteaches, hlatest⟩ := hw.resolved id c hc hstatus
      exact ⟨k, l, hl, hteaches, latest_snoc hlatest (fun h => absurd h hrepeated)⟩

end Lessons

section Precedents

variable [Sha256] {steps : List Step} {w : Workspace} {case_id : Identifier} {c : RiskCase}

/-- Another case, resolved, of the same scope and kind. -/
def StandsBeside (w : Workspace) (case_id : Identifier) (c : RiskCase) (id : Identifier) : Prop :=
  id ≠ case_id ∧ ∃ source, w.cases.get? id = some source ∧ source.status = .resolved ∧
    source.scope = c.scope ∧ source.kind = c.kind

/-- A lesson that some other case of this scope and kind has from its latest
resolution, and that is bound to a version. -/
def Current (steps : List Step) (w : Workspace) (case_id : Identifier) (c : RiskCase)
    (k : Identifier) : Prop :=
  ∃ l, w.lessons.get? k = some l ∧ l.case_version ≠ none ∧ l.scope_key = scopeKey c.scope ∧
    l.kind = c.kind ∧ l.case_id ≠ case_id ∧ Latest steps l.case_id k

theorem activePrecedents_total (hc : w.cases.get? case_id = some c) :
    ∃ ks, activePrecedents w case_id = .ok ks ∧ ks.Nodup ∧
      ∀ k, k ∈ ks ↔ ∃ l, w.lessons.get? k = some l ∧ Guides w case_id c l := by
  refine ⟨_, by unfold activePrecedents item; rw [hc]; rfl, ?_, ?_⟩
  · rw [nodup_sorted]
    exact w.lessons.nodup.sublist (List.filter_sublist.map _)
  · intro k
    simp only [mem_sorted, List.mem_map, List.mem_filter, decide_eq_true_eq, Prod.exists,
      Dict.get?_eq_some_iff]
    constructor
    · rintro ⟨k', l, ⟨hl, hguides⟩, rfl⟩
      exact ⟨l, hl, hguides⟩
    · rintro ⟨l, hl, hguides⟩
      exact ⟨k, l, ⟨hl, hguides⟩, rfl⟩

variable [CollisionFree]

omit [CollisionFree] in
/-- A lesson of a standing resolution of another case of this scope and kind guides. -/
theorem guides_of_teaches {id : Identifier} {l : Lesson} {source : RiskCase}
    (hw : Kept w) (hsource : w.cases.get? id = some source) (hne : id ≠ case_id)
    (hstatus : source.status = .resolved) (hscope : source.scope = c.scope)
    (hkind : source.kind = c.kind) (h : Teaches id source l) : Guides w case_id c l := by
  refine ⟨source, ?_, ?_, hstatus, h.version, h.resolved, ?_, h.kind.trans hkind⟩
  · rw [h.case_id]
    exact hsource
  · rw [hw.cases _ _ hsource]
    exact hne
  · rw [h.scope, hscope]

/-- A lesson that guides is that of the standing resolution of its case. -/
theorem guides_represented {k : Identifier} {l : Lesson} (hw : Kept w) (hr : Represents steps w)
    (hl : w.lessons.get? k = some l) (h : Guides w case_id c l) :
    StandsBeside w case_id c l.case_id ∧ Latest steps l.case_id k := by
  obtain ⟨source, hsource, hne, hstatus, hversion, _, hscope, hkind⟩ := h
  obtain ⟨k', l', hl', hteaches, hlatest⟩ := hr.resolved _ _ hsource hstatus
  have hsame : k' = k :=
    hr.taught.once _ _ _ _ hl' hl hteaches.case_id (hteaches.version.trans hversion.symm)
  subst hsame
  rw [hl] at hl'
  cases hl'
  refine ⟨⟨?_, source, hsource, hstatus, ?_, hteaches.kind.symm.trans hkind⟩, hlatest⟩
  · rw [← hw.cases _ _ hsource]
    exact hne
  · exact scopeKey_inj.mp (hteaches.scope.symm.trans hscope)

/-- The active precedents of a case correspond one to one to the other resolved
cases of its scope and kind, each giving the lesson of its latest event, and no
lesson that is not of that sort is among them. -/
theorem active_precedents_standing (hrun : Run casework steps (some w))
    (hc : w.cases.get? case_id = some c) :
    ∃ ks, ∃ f : Identifier → Identifier, activePrecedents w case_id = .ok ks ∧ ks.Nodup ∧
      Set.BijOn f {id | StandsBeside w case_id c id} {k | k ∈ ks} ∧
      (∀ id, StandsBeside w case_id c id → Latest steps id (f id) ∧
        ∀ k ∈ ks, ∀ l, w.lessons.get? k = some l → (l.case_id = id ↔ k = f id)) ∧
      ∀ k ∈ ks, Current steps w case_id c k := by
  have hw := kept_of_run hrun w rfl
  have hr := represents_of_run hrun w rfl
  obtain ⟨ks, hks, hnodup, hmem⟩ := activePrecedents_total hc
  have hstands : ∀ id, StandsBeside w case_id c id → ∃ k, k ∈ ks ∧ ∃ l,
      w.lessons.get? k = some l ∧ l.case_id = id ∧ Latest steps id k := by
    rintro id ⟨hne, source, hsource, hstatus, hscope, hkind⟩
    obtain ⟨k, l, hl, hteaches, hlatest⟩ := hr.resolved _ _ hsource hstatus
    have hguides := guides_of_teaches hw hsource hne hstatus hscope hkind hteaches
    exact ⟨k, (hmem k).mpr ⟨l, hl, hguides⟩, l, hl, hteaches.case_id, hlatest⟩
  choose! f hf using hstands
  -- two precedents of one case are lessons of one version
  have honce : ∀ k ∈ ks, ∀ k' ∈ ks, ∀ l l', w.lessons.get? k = some l →
      w.lessons.get? k' = some l' → l.case_id = l'.case_id → k = k' := by
    intro k hk k' hk' l l' hl hl' hid
    obtain ⟨_, hget, source, hsource, _, _, hversion, _⟩ := (hmem k).mp hk
    obtain ⟨_, hget', source', hsource', _, _, hversion', _⟩ := (hmem k').mp hk'
    rw [hl] at hget
    cases hget
    rw [hl'] at hget'
    cases hget'
    rw [Option.mem_def, hid, Option.mem_def.mp hsource'] at hsource
    cases hsource
    exact hr.taught.once _ _ _ _ hl hl' hid (hversion.trans hversion'.symm)
  refine ⟨ks, f, hks, hnodup, ⟨?_, ?_, ?_⟩, ?_, ?_⟩
  · intro id hid
    exact (hf id hid).1
  · intro id hid id' hid' heq
    obtain ⟨_, l, hl, hcase, _⟩ := hf id hid
    obtain ⟨_, l', hl', hcase', _⟩ := hf id' hid'
    rw [heq, hl'] at hl
    cases hl
    exact hcase.symm.trans hcase'
  · intro k hk
    obtain ⟨l, hl, hguides⟩ := (hmem k).mp hk
    obtain ⟨hbeside, _⟩ := guides_represented hw hr hl hguides
    obtain ⟨hfk, l', hl', hcase, _⟩ := hf _ hbeside
    exact ⟨l.case_id, hbeside, honce _ hfk _ hk _ _ hl' hl hcase⟩
  · intro id hid
    obtain ⟨hfk, l', hl', hcase, hlatest⟩ := hf id hid
    refine ⟨hlatest, ?_⟩
    intro k hk l hl
    constructor
    · intro h
      exact honce _ hk _ hfk _ _ hl hl' (h.trans hcase.symm)
    · rintro rfl
      rw [hl'] at hl
      cases hl
      exact hcase
  · intro k hk
    obtain ⟨l, hl, hguides⟩ := (hmem k).mp hk
    obtain ⟨⟨hne, _⟩, hlatest⟩ := guides_represented hw hr hl hguides
    obtain ⟨source, _, _, _, hversion, _, hscope, hkind⟩ := hguides
    exact ⟨l, hl, by simp [hversion], hscope, hkind, hne, hlatest⟩

omit [Sha256] [CollisionFree] in
/-- A dispute that was reviewed guides the next one on the same scope. -/
theorem reviewed_dispute_guides : letI := spelling
    ∃ steps w case_id c id, Run casework steps (some w) ∧ w.cases.get? case_id = some c ∧
      StandsBeside w case_id c id ∧ ∃ ks k, activePrecedents w case_id = .ok ks ∧ k ∈ ks ∧
        Latest steps id k := by
  let _ := spelling
  have := spelling_collisionFree
  obtain ⟨steps, w, task, d, h⟩ := Crew.exists_started
  obtain ⟨s, w1, task', c, hd⟩ := Crew.exists_disputed h
  have hfirst : w1.cases.get? c.case_id = some c := by
    rw [hd.cases, Dict.get?_set_self]
  have hsize : w1.cases.size < 500 := by
    rw [hd.cases]
    exact lt_of_le_of_lt (Dict.size_set_le _ _ _) (by simp [Dict.size, Dict.empty])
  obtain ⟨_, s2, w2, c2, _, _, hpost2, hopen2, _, _, ⟨hscope2, hkind2⟩, hopener2, hreview2,
    hfresh2, _, hcases2, _, hempty2⟩ := Completion.open_risk hd.opened (by omega) Crew.transfers
      rfl hsize hd.artifacts .dispute Crew.evidence
  have hne : c2.case_id ≠ c.case_id := by
    intro heq
    rw [heq, hfirst] at hfresh2
    cases hfresh2
  obtain ⟨done, _, _, s3, _, w3, _, _, _, _, hopen3, _, _, _, hcases3⟩ :=
    Completion.review_case hopen2 (by omega) hreview2 ⟨s2, by simp, hpost2⟩ hempty2 hopener2
      .remediationVerified Crew.evidence
  have hc : w3.cases.get? c.case_id = some c := by
    rw [hcases3, Dict.get?_set_of_ne _ _ hne, hcases2, Dict.get?_set_of_ne _ _ hne, hfirst]
  have hresolved := Dict.get?_set_self w2.cases c2.case_id
    (resolvedCase c2 .remediationVerified Crew.crew.reviewer.actor_id (4 + 1 + 4))
  rw [← hcases3] at hresolved
  have hbeside : StandsBeside w3 c.case_id c c2.case_id :=
    ⟨hne, _, hresolved, rfl, hscope2.trans hd.scope.symm, hkind2.trans hd.kind.symm⟩
  obtain ⟨ks, f, hks, _, hbij, hlatest, _⟩ := active_precedents_standing hopen3.run hc
  exact ⟨_, w3, c.case_id, c, c2.case_id, hopen3.run, hc, hbeside, ks, f c2.case_id, hks,
    hbij.mapsTo hbeside, (hlatest _ hbeside).1⟩

end Precedents

end MemoryGuard.Precedents
