import MemoryGuard.History

/-!
What a stored workspace commits to. Its audit chain and its histories only grow
at the end, each history ends in the current record and numbers its versions
from 1, and every decision and report carries its own digest. So validation
never rejects a workspace that a command produced.
-/
namespace MemoryGuard.Integrity

open OrderedDict Guarded JsonText ContentHash Models Artifacts Aggregate Core Closure
open SourceModels SourceState SourceGuard SourceService Transactions TaskCommands CaseCommands
open SourceCommands Traces Calls Floors Filing EvidenceEffects TaskEffects CaseEffects Effects
open Growth Upkeep Lifecycle History

section Ledgers

variable {α : Type} {version : α → ℕ} {current : Dict String α} {history : Dict String (List α)}

/-- Histories that end in the current records, and none without a record. -/
structure Ledger (version : α → ℕ) (current : Dict String α) (history : Dict String (List α)) :
    Prop where
  recorded : Recorded version current history
  owned : ∀ k past, history.get? k = some past → ∃ v, current.get? k = some v

theorem ledger_empty : Ledger version .empty .empty :=
  ⟨by simp [Recorded, Dict.empty], by simp⟩

/-- The history of a record, with the versions up to its own. -/
theorem Ledger.versions (h : Ledger version current history) {k : String} {v : α}
    (hv : current.get? k = some v) :
    ((history.get? k).getD []).map version = List.range' 1 (version v) :=
  (h.recorded (k, v) (Dict.get?_eq_some_iff.mp hv)).2

theorem Ledger.length (h : Ledger version current history) {k : String} {v : α}
    (hv : current.get? k = some v) : ((history.get? k).getD []).length = version v := by
  have hlength := congrArg List.length (h.versions hv)
  rw [List.length_map, List.length_range'] at hlength
  exact hlength

theorem Ledger.unwritten (h : Ledger version current history) {k : String}
    (hk : current.get? k = none) : history.get? k = none := by
  cases hpast : history.get? k with
  | none => rfl
  | some past =>
    obtain ⟨v, hv⟩ := h.owned k past hpast
    rw [hk] at hv
    cases hv

/-- A record with the next version is appended to its history. -/
theorem Ledger.append (h : Ledger version current history) {k : String} {v : α}
    (hv : version v = ((history.get? k).getD []).length + 1) :
    Ledger version (current.set k v)
      (history.set k ((history.get? k).getD [] ++ [v])) := by
  constructor
  · intro e he
    have hget : (current.set k v).get? e.1 = some e.2 := Dict.get?_eq_some_iff.mpr he
    rw [Dict.get?_set] at hget ⊢
    by_cases hk : k = e.1
    · rw [if_pos hk] at hget ⊢
      cases hget
      refine ⟨by simp, ?_⟩
      have hpast : ((history.get? k).getD []).map version =
          List.range' 1 ((history.get? k).getD []).length := by
        cases hold : current.get? k with
        | none => simp [h.unwritten hold]
        | some old => rw [h.versions hold, h.length hold]
      rw [Option.getD_some, List.map_append, hpast, hv, List.range'_1_concat]
      simp [hv, Nat.add_comm]
    · rw [if_neg hk] at hget ⊢
      exact h.recorded e (Dict.get?_eq_some_iff.mp hget)
  · intro k' past hpast
    rw [Dict.get?_set] at hpast ⊢
    by_cases hk : k = k'
    · exact ⟨v, if_pos hk⟩
    · rw [if_neg hk] at hpast ⊢
      exact h.owned k' past hpast

/-- Every list of `d` begins the list of `e` under its key. -/
def Lengthens (d e : Dict String (List α)) : Prop :=
  ∀ k past, d.get? k = some past → ∃ l, e.get? k = some l ∧ past <+: l

theorem Lengthens.refl (d : Dict String (List α)) : Lengthens d d :=
  fun _ past hpast => ⟨past, hpast, List.prefix_refl past⟩

theorem Lengthens.trans {d e f : Dict String (List α)} (h : Lengthens d e) (h' : Lengthens e f) :
    Lengthens d f := by
  intro k past hpast
  obtain ⟨l, hl, hprefix⟩ := h k past hpast
  obtain ⟨l', hl', hprefix'⟩ := h' k l hl
  exact ⟨l', hl', hprefix.trans hprefix'⟩

theorem lengthens_append (d : Dict String (List α)) (k : String) (v : α) :
    Lengthens d (d.set k ((d.get? k).getD [] ++ [v])) := by
  intro k' past hpast
  rw [Dict.get?_set]
  by_cases hk : k = k'
  · subst hk
    refine ⟨_, if_pos rfl, ?_⟩
    rw [hpast]
    exact List.prefix_append past [v]
  · exact ⟨past, by rw [if_neg hk, hpast], List.prefix_refl past⟩

end Ledgers

variable [Sha256]

section Chains

/-- The hash that the next event is bound to. -/
def tip (previous : Digest) (events : List Event) : Digest :=
  (events.getLast?.map Event.event_hash).getD previous

theorem chained_concat {seq : ℕ} {previous : Digest} {events : List Event} {e : Event}
    (h : Chained seq previous events) (hseq : e.seq = seq + events.length)
    (hprevious : e.previous_hash = tip previous events)
    (hhash : e.event_hash = digest "event" (object e.body)) :
    Chained seq previous (events ++ [e]) := by
  induction events generalizing seq previous with
  | nil => exact ⟨hseq, hprevious, hhash, trivial⟩
  | cons first rest ih =>
    obtain ⟨hs, hp, hh, hrest⟩ := h
    refine ⟨hs, hp, hh, ih hrest ?_ ?_⟩
    · rw [hseq, List.length_cons]
      omega
    · rw [hprevious]
      unfold tip
      cases rest with
      | nil => rfl
      | cons second rest =>
        rw [List.getLast?_cons_cons]
        cases hlast : (second :: rest).getLast? with
        | none => simp at hlast
        | some last => rfl

end Chains

/-- What validation reads of the records. -/
structure Proved (w : Workspace) : Prop where
  cases : Ledger RiskCase.version w.cases w.case_history
  baselines : Ledger Baseline.version w.baselines w.baseline_history
  decisions : ∀ k d, w.decisions.get? k = some d → d.proof_root = digest "decision" (object d.body)
  reports : ∀ k r, w.reports.get? k = some r →
    r.report_root = digest "investigation" (object r.body)

/-- The seal, the audit chain, numbered by the revision, and the records. -/
structure Coherent (w : Workspace) : Prop extends Proved w where
  rooted : w.state_root = stateRoot w
  chained : Chained 1 genesis w.audit
  counted : w.audit.length = w.revision

theorem coherent_blank (tenant_id : Identifier) :
    Coherent (sealed (Workspace.blank tenant_id)) where
  cases := ledger_empty
  baselines := ledger_empty
  decisions := by simp [sealed, Workspace.blank]
  reports := by simp [sealed, Workspace.blank]
  rooted := rfl
  chained := trivial
  counted := rfl

/-- What a command does to the histories and the lessons. -/
structure Appends (w m : Workspace) : Prop where
  case_history : Lengthens w.case_history m.case_history
  baseline_history : Lengthens w.baseline_history m.baseline_history
  lessons : ∀ k l, w.lessons.get? k = some l → m.lessons.get? k = some l

section Effects

variable {w m : Workspace}

omit [Sha256] in
theorem sameLogs_appends (h : SameLogs w m) : Appends w m := by
  refine ⟨?_, ?_, ?_⟩
  · rw [h.case_history]
    exact .refl _
  · rw [h.baseline_history]
    exact .refl _
  · rw [h.lessons]
    exact fun _ _ hl => hl

theorem quiet_proved (h : Quiet w m) (hw : Proved w)
    (hreports : ∀ k r, m.reports.get? k = some r →
      r.report_root = digest "investigation" (object r.body)) : Proved m := by
  refine ⟨?_, ?_, ?_, hreports⟩
  · rw [h.cases, h.logs.case_history]
    exact hw.cases
  · rw [h.baselines, h.logs.baseline_history]
    exact hw.baselines
  · rw [h.decisions]
    exact hw.decisions

theorem decides_proved {env : Environment} {actor : Actor} {seq : ℕ} {task : Task}
    {explicit_review : Bool} {d : Decision}
    (h : Decides env actor seq w m task explicit_review d) (hw : Proved w) :
    Proved m ∧ SameLogs w m := by
  have hm := h.stored
  refine ⟨⟨?_, ?_, ?_, ?_⟩, ?_⟩
  · rw [hm]
    exact hw.cases
  · rw [hm]
    exact hw.baselines
  · intro k d' hd
    rw [decides_decisions h, Dict.get?_set] at hd
    split at hd
    · cases hd
      exact h.proof
    · exact hw.decisions k d' hd
  · rw [hm]
    exact hw.reports
  · rw [hm]
    exact ⟨rfl, rfl, rfl⟩

theorem setsBaseline_proved {seq : ℕ} {scope : Scope} {b : Baseline}
    (h : SetsBaseline seq scope w m b) (hw : Proved w) : Proved m ∧ Appends w m := by
  have hversion : b.version =
      ((w.baseline_history.get? (scopeKey scope)).getD []).length + 1 := by
    rw [h.version]
    cases hold : w.baselines.get? (scopeKey scope) with
    | none => rw [hw.baselines.unwritten hold, Option.getD_none, List.length_nil]
    | some previous => rw [hw.baselines.length hold]
  refine ⟨⟨?_, ?_, ?_, ?_⟩, ?_, ?_, ?_⟩
  · rw [h.cases, h.case_history]
    exact hw.cases
  · rw [h.baselines, h.history]
    exact hw.baselines.append hversion
  · rw [h.disturbs.decisions]
    exact hw.decisions
  · rw [h.disturbs.reports]
    exact hw.reports
  · rw [h.case_history]
    exact .refl _
  · rw [h.history]
    exact lengthens_append _ _ _
  · rw [h.lessons]
    exact fun _ _ hl => hl

/-- A case record that carries the next version. -/
theorem writesCase_proved {c : RiskCase} {start : Dict String Artifact} {past : List RiskCase}
    (h : WritesCase w m c start) (hlogs : LogsCase w m c past) (hw : Proved w)
    (hpast : (w.case_history.get? c.case_id).getD [] = past)
    (hversion : c.version = past.length + 1)
    (hlessons : ∀ k l, w.lessons.get? k = some l → m.lessons.get? k = some l) :
    Proved m ∧ Appends w m := by
  subst hpast
  refine ⟨⟨?_, ?_, ?_, ?_⟩, ?_, ?_, hlessons⟩
  · rw [h.cases, hlogs.case_history]
    exact hw.cases.append hversion
  · rw [h.baselines, hlogs.baseline_history]
    exact hw.baselines
  · rw [h.disturbs.decisions]
    exact hw.decisions
  · rw [h.disturbs.reports]
    exact hw.reports
  · rw [hlogs.case_history]
    exact lengthens_append _ _ _
  · rw [hlogs.baseline_history]
    exact .refl _

theorem opensCase_proved {seq : ℕ} {c : RiskCase} (h : OpensCase seq w m c) (hw : Proved w) :
    Proved m ∧ Appends w m := by
  have hpast : (w.case_history.get? c.case_id).getD [] = [] := by
    rw [hw.cases.unwritten h.fresh, Option.getD_none]
  refine writesCase_proved h.writes h.logs hw hpast h.version ?_
  rw [h.lessons]
  exact fun _ _ hl => hl

/-- A changed record continues the history of the known one. -/
theorem renewed_proved {old c : RiskCase} {start : Dict String Artifact} {past : List RiskCase}
    (hold : w.cases.get? c.case_id = some old)
    (hpast : w.case_history.get? c.case_id = some past) (hversion : c.version = old.version + 1)
    (hwrites : WritesCase w m c start) (hlogs : LogsCase w m c past) (hw : Proved w)
    (hlessons : ∀ k l, w.lessons.get? k = some l → m.lessons.get? k = some l) :
    Proved m ∧ Appends w m := by
  have hlength := hw.cases.length hold
  rw [hpast, Option.getD_some] at hlength
  refine writesCase_proved hwrites hlogs hw ?_ ?_ hlessons
  · rw [hpast, Option.getD_some]
  · omega

theorem effect_proved [CollisionFree] {svc : Service} {env : Environment} {call : Call}
    {result : Result} (h : Effect svc env w call m result) (hkept : Kept w) (hw : Proved w)
    (hfresh : Fresh env w) : Proved m ∧ Appends w m := by
  cases h with
  | filed _ _ files =>
    exact ⟨quiet_proved files.toQuiet hw (files.reports ▸ hw.reports), sameLogs_appends files.logs⟩
  | reserved _ reserves =>
    exact ⟨quiet_proved reserves.toQuiet hw (reserves.reports ▸ hw.reports),
      sameLogs_appends reserves.logs⟩
  | investigated _ _ _ investigates =>
    refine ⟨quiet_proved investigates.toQuiet hw ?_, sameLogs_appends investigates.logs⟩
    intro k r hr
    rw [investigates.reports, Dict.get?_set] at hr
    split at hr
    · cases hr
      exact investigates.root
    · exact hw.reports k r hr
  | handedOff _ handsOff =>
    exact ⟨quiet_proved handsOff.toQuiet hw (handsOff.reports ▸ hw.reports),
      sameLogs_appends handsOff.logs⟩
  | accepted _ accepts =>
    exact ⟨quiet_proved accepts.toQuiet hw (accepts.reports ▸ hw.reports), sameLogs_appends accepts.logs⟩
  | evaluated _ _ _ _ decides =>
    obtain ⟨hproved, hlogs⟩ := decides_proved decides hw
    exact ⟨hproved, sameLogs_appends hlogs⟩
  | @registered _ _ _ _ _ _ task _ _ _ _ _ decides =>
    have hmid : Proved (storeTask w task) := ⟨hw.cases, hw.baselines, hw.decisions, hw.reports⟩
    obtain ⟨hproved, hlogs⟩ := decides_proved decides hmid
    have happends := sameLogs_appends hlogs
    exact ⟨hproved, happends.case_history, happends.baseline_history, happends.lessons⟩
  | baselineSet _ sets => exact setsBaseline_proved sets hw
  | opened _ _ opens => exact opensCase_proved opens hw
  | ingested _ _ _ opens => exact opensCase_proved opens hw
  | @reopened _ _ case_id _ _ _ old c _ reopens =>
    obtain ⟨actor_id, evidence_digest, hc⟩ := reopens.renewed
    obtain ⟨past, hpast, hlogs⟩ := reopens.logs
    have hold : old.case_id = case_id := hkept.cases _ _ reopens.known
    have hid : c.case_id = case_id := by
      rw [hc]
      exact hold
    have hversion : c.version = old.version + 1 := by rw [hc]; rfl
    refine renewed_proved (hid ▸ reopens.known) (hid ▸ hpast) hversion reopens.writes hlogs hw ?_
    rw [reopens.lessons]
    exact fun _ _ hl => hl
  | @resolved actor _ case_id _ resolution _ _ _ old _ _ _ resolves =>
    obtain ⟨past, hpast, hlogs⟩ := resolves.logs
    obtain ⟨start, _, writes⟩ := resolves.writes
    obtain ⟨lesson, hlesson, _⟩ := resolves.lessons
    have hold : old.case_id = case_id := hkept.cases _ _ resolves.known
    have hid : (resolvedCase old resolution actor.actor_id (w.revision + 1)).case_id = case_id :=
      hold
    refine renewed_proved (hid ▸ resolves.known) (hid ▸ hpast) rfl writes hlogs hw ?_
    intro k l hl
    rw [hlesson, Dict.get?_set_of_ne, hl]
    rintro rfl
    rw [hfresh.lessons] at hl
    cases hl

end Effects

section Recording

variable {env : Environment} {w m : Workspace} {tx : Transaction} {result : Result}

/-- A record that passed the change is chained to the audit trail. -/
theorem recorded_coherent (hm : Proved m) (hw : Coherent w) :
    Coherent (recorded env w m tx result) := by
  have hproved : Proved (recorded env w m tx result) :=
    ⟨hm.cases, hm.baselines, hm.decisions, hm.reports⟩
  refine ⟨hproved, rfl, ?_, ?_⟩
  · refine chained_concat hw.chained ?_ rfl rfl
    change w.revision + 1 = 1 + w.audit.length
    rw [hw.counted]
    omega
  · change (w.audit ++ [_]).length = w.revision + 1
    rw [List.length_append, hw.counted]
    rfl

theorem validateWorkspace_ok {state : Workspace} (hshaped : Shaped state) (h : Coherent state) :
    validateWorkspace state = .ok () := by
  have hdecisions : ∀ e ∈ state.decisions.entries, e.1 = e.2.decision_id ∧
      e.2.proof_root = digest "decision" (object e.2.body) := by
    intro e he
    have hget := Dict.get?_eq_some_iff.mpr he
    exact ⟨(hshaped.decisions _ _ hget).1.symm, h.decisions _ _ hget⟩
  have hreports : ∀ e ∈ state.reports.entries, e.1 = e.2.report_id ∧
      e.2.report_root = digest "investigation" (object e.2.body) := by
    intro e he
    have hget := Dict.get?_eq_some_iff.mpr he
    exact ⟨(hshaped.reports _ _ hget).symm, h.reports _ _ hget⟩
  simp only [validateWorkspace, bind_eq_ok, ensure_eq_ok, exists_const]
  exact ⟨h.rooted, h.chained, h.counted, h.cases.recorded, h.baselines.recorded, hdecisions, hreports⟩

end Recording

variable [CollisionFree]

section Runs

variable {steps : List Step} {s : Step}

/-- The records and the chain of the store after every run. -/
theorem coherent_of_run {st : Option Workspace} (h : Run casework steps st) :
    ∀ w, st = some w → Coherent w := by
  refine Run.invariant (S := casework) (fun st => ∀ w, st = some w → Coherent w) ?_ ?_ h
  · intro w hw
    cases hw
  · intro steps s hrun hnow hpre w hw
    have hpost : s.post = some w := hw
    rcases step_cases hrun hnow with ⟨_, w0, tx, m, result, hh⟩ | ⟨_, hsame⟩
    · rw [hh.commits.post] at hpost
      cases hpost
      have hbefore : Coherent w0 := by
        rcases hh.before with hstored | ⟨_, tenant_id, rfl⟩
        · exact hpre w0 hstored
        · exact coherent_blank tenant_id
      have hproved := effect_proved hh.effect hh.kept hbefore.toProved hh.fresh
      exact recorded_coherent hproved.1 hbefore
    · exact hpre w (hsame.symm.trans hpost)

/-- The workspace that a transaction loads after a run. -/
theorem loaded_sound {st : Option Workspace} {tx : Transaction} {w : Workspace}
    (hrun : Run casework steps st) (h : loaded st tx = .ok w) : Kept w ∧ Coherent w := by
  rcases loaded_cases h with hstored | ⟨_, tenant_id, rfl⟩
  · exact ⟨kept_of_run hrun w hstored, coherent_of_run hrun w hstored⟩
  · exact ⟨kept_blank tenant_id, coherent_blank tenant_id⟩

/-- Validation passes for whatever a change that succeeds is recorded as. -/
def TakesChanges (st : Option Workspace) : Prop :=
  ∀ (svc : Service) (env : Environment) (call : Call) (tx : Transaction) (w m : Workspace)
    (result : Result), call.prepare svc env = .ok (.transaction tx) → loaded st tx = .ok w →
    w.tenant_id = tx.actor.tenant_id → w.idempotency.get? tx.key = none → Fresh env w →
    tx.change w (w.revision + 1) = .ok (m, result) →
    validateWorkspace (recorded env w m tx result) = .ok ()

theorem takesChanges_of_run {st : Option Workspace} (hrun : Run casework steps st) :
    TakesChanges st := by
  intro svc env call tx w m result hprepared hloaded htenant hnew hfresh hchanged
  obtain ⟨hkept, hcoherent⟩ := loaded_sound hrun hloaded
  have heffect := effect_of_change hprepared htenant hnew hchanged hkept.archived hkept.tasks hfresh
  have hshaped := (effect_keeps heffect hkept hfresh).1
  have hproved := (effect_proved heffect hkept hcoherent.toProved hfresh).1
  exact validateWorkspace_ok (recorded_shaped hshaped) (recorded_coherent hproved hcoherent)

end Runs

end MemoryGuard.Integrity
