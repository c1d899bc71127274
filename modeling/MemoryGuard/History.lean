import MemoryGuard.Lifecycle

/-!
Whole runs of the store. Every stored workspace has the shape that commands
rely on, and extends every workspace that was stored before it. A step of a run
is either a repeated answer or an event with one of the known effects.
-/
namespace MemoryGuard.History

open OrderedDict Guarded JsonText ContentHash Models Artifacts Aggregate Core Closure
open SourceModels SourceState SourceGuard SourceService Transactions TaskCommands CaseCommands
open SourceCommands Traces Calls Floors Filing EvidenceEffects TaskEffects CaseEffects Effects
open Growth Upkeep Lifecycle

variable [Sha256]

section Recording

variable {env : Environment} {w m : Workspace} {tx : Transaction} {result : Result}

theorem recorded_shaped (h : Shaped m) : Shaped (recorded env w m tx result) :=
  ⟨tasksKept_congr (w := m) rfl h.tasks, h.cases, h.baselines, h.decisions, h.reports, h.handoffs, h.filed,
    h.recent, h.bundled, h.current⟩

theorem recorded_stamped {n : ℕ} (h : Stamped n m) : Stamped n (recorded env w m tx result) :=
  ⟨h.baselines, h.cases, h.decisions⟩

theorem recorded_grows {start : Workspace} (h : Grows start m) :
    Grows start (recorded env w m tx result) :=
  ⟨h.tenant, h.size, h.tasks, h.decisions, h.current, h.baselines, h.cases, h.reports, h.handoffs⟩

theorem recorded_idempotency (key : Digest) :
    (recorded env w m tx result).idempotency.get? key =
      if tx.key = key then some ⟨tx.fingerprint, answer (auditEvent env w tx result) result⟩
      else w.idempotency.get? key := Dict.get?_set ..

end Recording

section Effects

variable [CollisionFree] {svc : Service} {env : Environment} {w m : Workspace} {call : Call}
  {result : Result}

/-- Every effect keeps the shape, stamps nothing beyond its own event, and
loses nothing. -/
theorem effect_keeps (h : Effect svc env w call m result) (hw : Kept w) (hfresh : Fresh env w) :
    Shaped m ∧ Stamped (w.revision + 1) m ∧ Grows w m := by
  have hstamped : Stamped (w.revision + 1) w := hw.stamped.mono (by omega)
  have hdecision := hfresh.decisions "decision"
  cases h with
  | filed _ _ files =>
    exact ⟨files_shaped files hw.toShaped, quiet_stamped files.toQuiet hstamped,
      files_grows files⟩
  | reserved _ reserves =>
    exact ⟨reserves_shaped reserves hw.toShaped, quiet_stamped reserves.toQuiet hstamped,
      reserves_grows reserves⟩
  | investigated _ _ _ investigates =>
    exact ⟨investigates_shaped investigates hw.toShaped,
      quiet_stamped investigates.toQuiet hstamped, investigates_grows investigates⟩
  | handedOff _ handsOff =>
    exact ⟨handsOff_shaped handsOff hw.toShaped, quiet_stamped handsOff.toQuiet hstamped,
      handsOff_grows handsOff⟩
  | accepted _ accepts =>
    exact ⟨accepts_shaped accepts hw.toShaped, quiet_stamped accepts.toQuiet hstamped,
      accepts_grows accepts⟩
  | evaluated _ _ _ _ decides =>
    exact ⟨decides_shaped decides hdecision hw.toShaped, decides_stamped decides hstamped,
      decides_grows decides hdecision hstamped⟩
  | @registered _ _ _ _ _ _ task _ _ _ _ new decides =>
    have hmid : Stamped (w.revision + 1) (storeTask w task) :=
      ⟨hstamped.baselines, hstamped.cases, hstamped.decisions⟩
    exact ⟨decides_shaped decides hdecision (newTask_shaped hw.toShaped new),
      decides_stamped decides hmid,
      (newTask_grows new).trans (decides_grows decides hdecision hmid)⟩
  | baselineSet _ sets =>
    exact ⟨setsBaseline_shaped sets hw.toShaped, setsBaseline_stamped sets hstamped,
      setsBaseline_grows sets hstamped⟩
  | opened _ _ opens =>
    have hgrows := writesCase_grows opens.writes (by simp [opens.fresh])
    refine ⟨writesCase_shaped opens.writes hw.toShaped hw.filed (fun _ _ hb => hb),
      writesCase_stamped opens.writes hstamped ?_, hgrows⟩
    simp [caseStamp, opens.stamp, opens.unresolved]
  | ingested _ _ _ opens =>
    have hgrows := writesCase_grows opens.writes (by simp [opens.fresh])
    refine ⟨writesCase_shaped opens.writes hw.toShaped hw.filed (fun _ _ hb => hb),
      writesCase_stamped opens.writes hstamped ?_, hgrows⟩
    simp [caseStamp, opens.stamp, opens.unresolved]
  | @reopened _ _ case_id _ _ _ old c _ reopens =>
    obtain ⟨actor_id, evidence_digest, hc⟩ := reopens.renewed
    have hstamp : caseStamp c = w.revision + 1 := by rw [hc, caseStamp_reopened]
    refine ⟨writesCase_shaped reopens.writes hw.toShaped hw.filed (fun _ _ hb => hb),
      writesCase_stamped reopens.writes hstamped hstamp.le, writesCase_grows reopens.writes ?_⟩
    intro old' hold'
    have hkeyed : old.case_id = case_id := hw.cases _ _ reopens.known
    have hid : c.case_id = case_id := by
      rw [hc]
      exact hkeyed
    rw [hid, reopens.known] at hold'
    cases hold'
    refine ⟨by rw [hc]; rfl, ?_⟩
    rw [hstamp]
    exact hstamped.cases _ _ reopens.known
  | @resolved actor _ case_id _ resolution _ _ _ old _ _ _ resolves =>
    obtain ⟨start, hlinked, writes⟩ := resolves.writes
    have hold := hstamped.cases _ _ resolves.known
    have hstamp := caseStamp_resolved old resolution actor.actor_id hold
    refine ⟨writesCase_shaped writes hw.toShaped (hlinked.filed hw.filed)
      (fun _ _ hb => (linked_bundles hlinked hw.toShaped).mp hb),
      writesCase_stamped writes hstamped hstamp.le, writesCase_grows writes ?_⟩
    intro old' hold'
    have hkeyed : old.case_id = case_id := hw.cases _ _ resolves.known
    have hid : (resolvedCase old resolution actor.actor_id (w.revision + 1)).case_id = case_id :=
      hkeyed
    rw [hid, resolves.known] at hold'
    cases hold'
    exact ⟨rfl, by rw [hstamp]; exact hold⟩

omit [CollisionFree] in
/-- A request is stored by its reservation, under the key of its command. -/
theorem effect_requests (h : Effect svc env w call m result) (hw : Kept w) {key : String}
    {q : SourceRequest} (hq : m.artifacts.get? key = some (.request q)) :
    (∃ p, w.artifacts.get? key = some (.request p)) ∨
      ∃ actor cmd desk case_id source_id resource snapshot force_refresh,
        call = .reserveSource actor cmd desk case_id source_id resource snapshot force_refresh ∧
          key = fetchId actor cmd := by
  cases h with
  | filed _ _ files => exact Or.inl (files.artifacts.request_of hq)
  | @reserved actor cmd _ _ _ _ _ _ _ _ q' head _ reserves =>
    obtain ⟨mid, hr⟩ := reserves_artifacts reserves hw.toShaped
    rw [hr.artifacts, Dict.get?_set] at hq
    split at hq
    · cases hq
    · rw [Dict.get?_set] at hq
      split at hq
      · rename_i hk
        exact Or.inr ⟨actor, cmd, _, _, _, _, _, _, rfl, hk ▸ reserves.request_id⟩
      · exact Or.inl (hr.refiled.request_of hq)
  | investigated _ _ _ investigates =>
    obtain ⟨mid, hmid, hm⟩ := investigates.artifacts
    rw [hm] at hq
    split at hq
    · exact Or.inl (hmid.request_of hq)
    · rw [Dict.get?_set] at hq
      split at hq
      · cases hq
      · exact Or.inl (hmid.request_of hq)
  | handedOff _ handsOff => exact Or.inl ⟨q, handsOff.artifacts ▸ hq⟩
  | accepted _ accepts => exact Or.inl ⟨q, accepts.artifacts ▸ hq⟩
  | evaluated _ _ _ _ decides => exact Or.inl ((decides_artifacts decides).request_of hq)
  | registered _ _ _ _ decides => exact Or.inl ((decides_artifacts decides).request_of hq)
  | baselineSet _ sets => exact Or.inl ⟨q, sets.artifacts ▸ hq⟩
  | opened _ _ opens => exact Or.inl (opens.writes.artifacts.request_of hq)
  | ingested _ _ _ opens => exact Or.inl (opens.writes.artifacts.request_of hq)
  | reopened _ reopens => exact Or.inl (reopens.writes.artifacts.request_of hq)
  | resolved _ resolves =>
    obtain ⟨start, hlinked, writes⟩ := resolves.writes
    obtain ⟨p, hp⟩ := writes.artifacts.request_of hq
    rcases hlinked with rfl | ⟨link, _, _, _, rfl⟩
    · exact Or.inl ⟨p, hp⟩
    · rw [Dict.get?_set] at hp
      split at hp
      · cases hp
      · exact Or.inl ⟨p, hp⟩

end Effects

section Events

/-- A committed step of a run. -/
structure Happened (s : Step) (w : Workspace) (tx : Transaction) (m : Workspace)
    (result : Result) : Prop where
  commits : Commits s w tx m result
  before : s.pre = some w ∨ (s.pre = none ∧ ∃ tenant_id, w = sealed (Workspace.blank tenant_id))
  kept : Kept w
  fresh : Fresh s.env w
  effect : Effect s.svc s.env w s.call m result

theorem loaded_cases {store : Option Workspace} {tx : Transaction} {w : Workspace}
    (h : loaded store tx = .ok w) :
    store = some w ∨ (store = none ∧ ∃ tenant_id, w = sealed (Workspace.blank tenant_id)) := by
  unfold loaded at h
  cases store with
  | some state =>
    simp only [pure_eq_ok] at h
    exact Or.inl (congrArg some h)
  | none =>
    simp only [bind_eq_ok, pure_eq_ok] at h
    obtain ⟨_, _, rfl⟩ := h
    exact Or.inr ⟨rfl, _, rfl⟩

theorem fresh_blank (env : Environment) (tenant_id : Identifier) :
    Fresh env (sealed (Workspace.blank tenant_id)) := by
  constructor <;> simp [sealed, Workspace.blank]

variable [CollisionFree] {s : Step} {steps : List Step}

theorem happened_of_commits {w m : Workspace} {tx : Transaction} {result : Result}
    (hkept : ∀ w, s.pre = some w → Kept w) (hnow : Allowed steps s)
    (hc : Commits s w tx m result) : Happened s w tx m result := by
  have hbefore := loaded_cases hc.loaded
  have hkept' : Kept w ∧ Fresh s.env w := by
    rcases hbefore with hpre | ⟨_, tenant_id, rfl⟩
    · exact ⟨hkept w hpre, hnow.fresh w hpre⟩
    · exact ⟨kept_blank tenant_id, fresh_blank s.env tenant_id⟩
  exact ⟨hc, hbefore, hkept'.1, hkept'.2,
    effect_of_commits hc hkept'.1.archived hkept'.1.tasks hkept'.2⟩

theorem happened_kept {w m : Workspace} {tx : Transaction} {result : Result}
    (h : Happened s w tx m result) : Kept (recorded s.env w m tx result) := by
  obtain ⟨hshaped, hstamped, _⟩ := effect_keeps h.effect h.kept h.fresh
  refine ⟨recorded_shaped hshaped, recorded_stamped hstamped, ?_⟩
  intro actor cmd q hq
  rw [recorded_idempotency]
  split
  · exact ⟨_, rfl⟩
  · rename_i hkey
    rcases effect_requests h.effect h.kept hq with ⟨p, hp⟩ | hreserve
    · exact h.kept.requested actor cmd p hp
    · exfalso
      apply hkey
      obtain ⟨actor', cmd', desk, case_id, source_id, resource, snapshot, force_refresh, hcall,
        hid⟩ := hreserve
      have hp := h.commits.prepared
      rw [hcall] at hp
      have hp := inTransaction_transaction hp
      simp only [reserveSource, bind_eq_ok, pure_eq_ok] at hp
      obtain ⟨acq, _, rfl⟩ := hp
      have hsame := (List.append_right_inj "fetch_".toList).mp
        (by simpa [fetchId, String.toList_append] using congrArg String.toList hid)
      have hshort := (shortDigest_inj (by decide)).mp (String.toList_inj.mp hsame)
      simp only [texts_inj, true_and, List.cons.injEq, and_true] at hshort
      change idempotencyKey actor'.actor_id cmd'.idempotency_key = _
      rw [hshort.2.1, hshort.2.2]

theorem happened_grows {w m : Workspace} {tx : Transaction} {result : Result}
    (h : Happened s w tx m result) : Grows w (recorded s.env w m tx result) :=
  recorded_grows (effect_keeps h.effect h.kept h.fresh).2.2

omit [CollisionFree] in
/-- An event runs on the stored workspace, where there is one. -/
theorem happened_on {w m : Workspace} {tx : Transaction} {result : Result} {stored : Workspace}
    (h : Happened s w tx m result) (hpre : s.pre = some stored) : w = stored := by
  rcases h.before with hbefore | ⟨hnone, _⟩
  · rw [hpre] at hbefore
    exact (Option.some.inj hbefore).symm
  · rw [hpre] at hnone
    cases hnone

/-- The shape of the store after every run. -/
theorem kept_of_run {st : Option Workspace} (h : Run casework steps st) :
    ∀ w, st = some w → Kept w := by
  refine Run.invariant (S := casework) (fun st => ∀ w, st = some w → Kept w) ?_ ?_ h
  · intro w hw
    cases hw
  · intro steps s _ hnow hpre w hw
    rcases committed_cases hnow.executed with ⟨_, w0, tx, m, result, hc⟩ | ⟨_, hpost⟩
    · have hhappened := happened_of_commits hpre hnow hc
      have hw' : s.post = some w := hw
      rw [hc.post] at hw'
      cases hw'
      exact happened_kept hhappened
    · exact hpre w (hpost.symm.trans hw)

/-- A step of a run is an event or leaves the store as it was. -/
theorem step_cases (hrun : Run casework steps s.pre) (hnow : Allowed steps s) :
    (s.Committed ∧ ∃ w tx m result, Happened s w tx m result) ∨
      (¬ s.Committed ∧ s.post = s.pre) := by
  rcases committed_cases hnow.executed with ⟨hcommitted, w, tx, m, result, hc⟩ | hrepeated
  · exact Or.inl ⟨hcommitted, w, tx, m, result, happened_of_commits (kept_of_run hrun) hnow hc⟩
  · exact Or.inr hrepeated

/-- A later state of the store extends an earlier one. -/
def Extends (st st' : Option Workspace) : Prop :=
  ∀ w, st = some w → ∃ w', st' = some w' ∧ Grows w w'

theorem step_extends (hrun : Run casework steps s.pre) (hnow : Allowed steps s) :
    Extends s.pre s.post := by
  intro w hw
  rcases step_cases hrun hnow with ⟨_, w0, tx, m, result, hh⟩ | ⟨_, hpost⟩
  · rcases hh.before with hpre | ⟨hnone, _⟩
    · rw [hw] at hpre
      cases hpre
      exact ⟨_, hh.commits.post, happened_grows hh⟩
    · rw [hw] at hnone
      cases hnone
  · exact ⟨w, hpost.trans hw, Grows.refl w⟩

theorem run_extends {before after : List Step} {mid st : Option Workspace}
    (hmid : Run casework before mid) (h : Run casework (before ++ after) st) :
    Extends mid st := by
  refine Run.related Extends ?_ ?_ ?_ hmid h
  · exact fun st w hw => ⟨w, hw, Grows.refl w⟩
  · intro a b c hab hbc w hw
    obtain ⟨w', hw', hgrows⟩ := hab w hw
    obtain ⟨w'', hw'', hgrows'⟩ := hbc w' hw'
    exact ⟨w'', hw'', hgrows.trans hgrows'⟩
  · exact fun steps s hrun hnow => step_extends hrun hnow

end Events

end MemoryGuard.History
