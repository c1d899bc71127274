import MemoryGuard.Integrity

/-!
The current heads of a case. Heads are filed under the case and the source they
are of, so no two of them are ambiguous: collecting them always succeeds, and
what it finds for a source is what is filed for it. Hence every stored case has
an investigation basis.
-/
namespace MemoryGuard.Heads

open OrderedDict Guarded DependencyGraph JsonText ContentHash Models Artifacts Aggregate Core
open Closure Policy SourceModels SourceState SourceGuard SourceService Filing EvidenceEffects Upkeep

variable [Sha256]

section Collecting

variable {case_id : Identifier} {version : ℕ}

/-- An entry that is the head of a source for the current version. -/
def HeadEntry (case_id : Identifier) (version : ℕ) (e : String × Artifact) (h : SourceHead) :
    Prop :=
  e = (sourceKey case_id h.source_id, .head h) ∧ h.case_id = case_id ∧ h.case_version = version

theorem headEntry_of_fits {e : String × Artifact} (hfits : Fits e.1 e.2) {h : SourceHead}
    (hhead : e.2 = .head h) (hcase : h.case_id = case_id) (hversion : h.case_version = version) :
    HeadEntry case_id version e h := by
  obtain ⟨key, a⟩ := e
  cases hhead
  refine ⟨?_, hcase, hversion⟩
  have hkey : key = sourceKey h.case_id h.source_id := hfits
  rw [hkey, hcase]

variable (case_id version) in
/-- Collecting over filed entries never meets a second head of a source. -/
theorem collectHeads_ok :
    ∀ (l : List (String × Artifact)) (acc : Dict Identifier SourceHead),
      (l.map Prod.fst).Nodup → (∀ e ∈ l, Fits e.1 e.2) →
      (∀ e ∈ l, ∀ h, HeadEntry case_id version e h → acc.get? h.source_id = none) →
      ∃ heads, (l.map Prod.snd).foldlM (collectHead case_id version) acc = .ok heads ∧
        ∀ s h, heads.get? s = some h ↔ acc.get? s = some h ∨
          ((∃ e ∈ l, HeadEntry case_id version e h) ∧ h.source_id = s)
  | [], acc, _, _, _ => ⟨acc, rfl, by simp⟩
  | e :: l, acc, hnodup, hfits, hnew => by
    rw [List.map_cons, List.nodup_cons] at hnodup
    have hfits' := fun e' he' => hfits e' (List.mem_cons_of_mem _ he')
    have hsame : (∀ h, ¬ HeadEntry case_id version e h) → ∃ heads,
        (l.map Prod.snd).foldlM (collectHead case_id version) acc = .ok heads ∧
        ∀ s h, heads.get? s = some h ↔ acc.get? s = some h ∨
          ((∃ e' ∈ e :: l, HeadEntry case_id version e' h) ∧ h.source_id = s) := by
      intro hnone
      obtain ⟨heads, hok, hget⟩ := collectHeads_ok l acc hnodup.2 hfits'
        (fun e' he' => hnew e' (List.mem_cons_of_mem _ he'))
      refine ⟨heads, hok, fun s h => ?_⟩
      rw [hget s h]
      simp only [List.mem_cons, exists_eq_or_imp, hnone h, false_or]
    rw [List.map_cons, List.foldlM_cons]
    by_cases hhead : ∃ h, e.2 = .head h ∧ h.case_id = case_id ∧ h.case_version = version
    · obtain ⟨h, ha, hcase, hversion⟩ := hhead
      have hentry := headEntry_of_fits (hfits e List.mem_cons_self) ha hcase hversion
      have hfree : acc.get? h.source_id = none := hnew e List.mem_cons_self h hentry
      have hstep : collectHead case_id version acc e.2 = .ok (acc.set h.source_id h) := by
        rw [ha]
        simp [collectHead, hcase, hversion, ensure, Dict.Has, hfree, bind, Except.bind, pure,
          Except.pure]
      have hkeys : ∀ e' ∈ l, ∀ h', HeadEntry case_id version e' h' → h'.source_id ≠ h.source_id := by
        intro e' he' h' hentry' hsource
        apply hnodup.1
        have hkey : e'.1 = e.1 := by rw [hentry'.1, hentry.1, hsource]
        exact hkey ▸ List.mem_map_of_mem he'
      obtain ⟨heads, hok, hget⟩ := collectHeads_ok l (acc.set h.source_id h) hnodup.2 hfits' (by
        intro e' he' h' hentry'
        rw [Dict.get?_set_of_ne _ _ (hkeys e' he' h' hentry').symm]
        exact hnew e' (List.mem_cons_of_mem _ he') h' hentry')
      refine ⟨heads, ?_, fun s h' => ?_⟩
      · rw [hstep]
        exact hok
      · have honly : HeadEntry case_id version e h' ↔ h' = h := by
          constructor
          · intro hentry'
            have hsame := congrArg Prod.snd (hentry'.1.symm.trans hentry.1)
            exact Artifact.head.inj hsame
          · rintro rfl
            exact hentry
        rw [hget s h', Dict.get?_set]
        simp only [List.mem_cons, exists_eq_or_imp, honly]
        by_cases hs : h.source_id = s
        · subst hs
          simp only [if_true, hfree, Option.some.injEq]
          constructor
          · rintro (rfl | ⟨⟨e', he', hentry'⟩, hsource⟩)
            · exact Or.inr ⟨Or.inl rfl, rfl⟩
            · exact absurd hsource (hkeys e' he' h' hentry')
          · rintro (hnone | ⟨rfl | hlater, hsource⟩)
            · cases hnone
            · exact Or.inl rfl
            · exact Or.inr ⟨hlater, hsource⟩
        · simp only [hs, if_false]
          constructor
          · rintro (hacc | ⟨hlater, hsource⟩)
            · exact Or.inl hacc
            · exact Or.inr ⟨Or.inr hlater, hsource⟩
          · rintro (hacc | ⟨rfl | hlater, hsource⟩)
            · exact Or.inl hacc
            · exact absurd hsource hs
            · exact Or.inr ⟨hlater, hsource⟩
    · have hstep : collectHead case_id version acc e.2 = .ok acc := by
        cases ha : e.2 with
        | head h =>
          have hother : ¬ (h.case_id = case_id ∧ h.case_version = version) :=
            fun hboth => hhead ⟨h, ha, hboth⟩
          simp [collectHead, hother, pure, Except.pure]
        | _ => rfl
      rw [hstep]
      exact hsame (fun h hentry => hhead ⟨h, by rw [hentry.1], hentry.2⟩)

end Collecting

section Heads

variable {w : Workspace} {case_id : Identifier} {c : RiskCase}

/-- The head of a source is the one filed for it, if it is of this version. -/
theorem evidenceHeads_ok (hfiled : Filed w.artifacts) (hc : w.cases.get? case_id = some c) :
    ∃ heads, evidenceHeads w case_id = .ok heads ∧ ∀ s h, heads.get? s = some h ↔
      w.artifacts.get? (sourceKey case_id s) = some (.head h) ∧ h.case_id = case_id ∧
        h.source_id = s ∧ h.case_version = c.version := by
  have hfits : ∀ e ∈ w.artifacts.entries, Fits e.1 e.2 :=
    fun e he => hfiled e.1 e.2 (Dict.get?_eq_some_iff.mpr he)
  obtain ⟨heads, hok, hget⟩ := collectHeads_ok case_id c.version
    w.artifacts.entries .empty w.artifacts.nodup hfits (by simp)
  refine ⟨heads, ?_, fun s h => ?_⟩
  · simp only [evidenceHeads, item, hc, fetch, bind, Except.bind]
    exact hok
  · rw [hget s h, Dict.get?_eq_some_iff (d := w.artifacts)]
    constructor
    · rintro (hempty | ⟨⟨e, he, hentry, hcase, hversion⟩, rfl⟩)
      · simp at hempty
      · exact ⟨hentry ▸ he, hcase, rfl, hversion⟩
    · rintro ⟨he, hcase, rfl, hversion⟩
      exact Or.inr ⟨⟨_, he, rfl, hcase, hversion⟩, rfl⟩

theorem evidenceBasis_total (hfiled : Filed w.artifacts) (hc : w.cases.get? case_id = some c) :
    ∃ basis, evidenceBasis w case_id = .ok basis := by
  obtain ⟨heads, hok, _⟩ := evidenceHeads_ok hfiled hc
  exact ⟨_, by simp only [evidenceBasis, hok, bind, Except.bind]; rfl⟩

omit [Sha256] in
theorem reaches_stored {t a : Identifier} {atask : Task} (hr : ReliesOn w t a)
    (ha : w.tasks.get? a = some atask) : ∃ task, w.tasks.get? t = some task := by
  rcases Relation.ReflTransGen.cases_head hr with rfl | ⟨p, he, _⟩
  · exact ⟨atask, ha⟩
  · obtain ⟨task, ht, _⟩ := edge_iff.mp he
    exact ⟨task, ht⟩

/-- An affected task is stored and has a basis. -/
theorem affected_basis (hk : TasksKept w) {scope : Scope} {t : Identifier}
    (ht : t ∈ affectedTasks w scope) : ∃ basis, taskBasis w t = .ok basis := by
  obtain ⟨a, atask, hr, ha, _⟩ := mem_affectedTasks.mp ht
  obtain ⟨task, htask⟩ := reaches_stored hr ha
  obtain ⟨closure, hclosure⟩ := hk.ancestors_of_get? htask
  exact ⟨_, taskBasis_eq hclosure⟩

theorem activePrecedents_total (hc : w.cases.get? case_id = some c) :
    ∃ l, activePrecedents w case_id = .ok l :=
  ⟨_, bind_eq_ok.mpr ⟨c, fetch_eq_ok.mpr hc, rfl⟩⟩

/-- Every stored case has an investigation basis. -/
theorem investigationBasis_total (hw : Shaped w) (hc : w.cases.get? case_id = some c) :
    ∃ basis, investigationBasis w case_id = .ok basis := by
  have haffected : ∀ key ∈ affectedTasks w c.scope, ∃ entry,
      (do
        let basis ← taskBasis w key
        return (key, Json.str basis) : Except CaseworkError (Identifier × Json)) = .ok entry := by
    intro key hkey
    obtain ⟨basis, hbasis⟩ := affected_basis hw.tasks hkey
    exact ⟨(key, .str basis), by rw [hbasis]; rfl⟩
  obtain ⟨affected, hmap⟩ := mapM_total haffected
  obtain ⟨precedents, hprecedents⟩ := activePrecedents_total hc
  obtain ⟨external, hexternal⟩ := evidenceBasis_total hw.filed hc
  exact ⟨_, bind_eq_ok.mpr ⟨c, fetch_eq_ok.mpr hc, bind_eq_ok.mpr ⟨affected, hmap,
    bind_eq_ok.mpr ⟨precedents, hprecedents, bind_eq_ok.mpr ⟨external, hexternal, rfl⟩⟩⟩⟩⟩

end Heads

end MemoryGuard.Heads
