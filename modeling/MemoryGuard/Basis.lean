import MemoryGuard.History

/-!
What the basis digest of a task determines. Between a workspace and a later one
the digest stays the same exactly when the baselines, the cases and the
resolution links of the closure are the same, and every task below keeps its
status and its decision. So an unchanged digest of a task leaves the digest of
everything it depends on unchanged.
-/
namespace MemoryGuard.Basis

open OrderedDict Guarded DependencyGraph JsonText ContentHash Models Artifacts Aggregate Core
open Closure Policy Filing Growth Upkeep

/-- The JSON value of a link determines the link. -/
theorem resolutionProof_injective : Function.Injective ResolutionProof.toJson := by
  intro p q h
  unfold ResolutionProof.toJson at h
  have hfields := object_inj h rfl
  cases p
  cases q
  simp only [List.cons.injEq, Prod.mk.injEq, Json.str.injEq, nat_inj, true_and, and_true]
    at hfields
  obtain ⟨rfl, rfl, rfl, rfl, rfl, rfl, rfl, rfl⟩ := hfields
  rfl

section Entries

/-- Picking from entries, under their keys, keeps the keys distinct. -/
theorem nodup_filterMap_keys {α β : Type*} {f : String × α → Option (String × β)}
    (hf : ∀ e y, f e = some y → y.1 = e.1) {l : List (String × α)}
    (h : (l.map Prod.fst).Nodup) : ((l.filterMap f).map Prod.fst).Nodup := by
  have hsub : ((l.filterMap f).map Prod.fst).Sublist (l.map Prod.fst) := by
    clear h
    induction l with
    | nil => exact List.Sublist.slnil
    | cons e rest ih =>
      cases he : f e with
      | none =>
        rw [List.filterMap_cons_none he]
        exact ih.cons _
      | some y =>
        rw [List.filterMap_cons_some he, List.map_cons, List.map_cons, hf e y he]
        exact ih.cons_cons _
  exact hsub.nodup h

theorem nodup_links (state : Workspace) (ids : List Identifier) :
    ((resolutionLinks state ids).map Prod.fst).Nodup := by
  rw [resolutionLinks_eq]
  refine nodup_filterMap_keys ?_ state.artifacts.nodup
  intro e y he
  unfold linkEntry at he
  split at he
  · split at he
    · cases he
      rfl
    · cases he
  · cases he

theorem mem_resolutionLinks {state : Workspace} {ids : List Identifier} {k : String}
    {p : ResolutionProof} : (k, p) ∈ resolutionLinks state ids ↔
      state.artifacts.get? k = some (.resolutionProof p) ∧ p.case_id ∈ ids := by
  rw [resolutionLinks_eq, List.mem_filterMap]
  constructor
  · rintro ⟨⟨k', a⟩, hmem, hentry⟩
    unfold linkEntry at hentry
    split at hentry
    · rename_i p' ha
      split at hentry
      · rename_i hid
        cases hentry
        have ha : a = .resolutionProof p := ha
        exact ⟨ha ▸ Dict.get?_eq_some_iff.mpr hmem, hid⟩
      · cases hentry
    · cases hentry
  · rintro ⟨hget, hid⟩
    refine ⟨(k, .resolutionProof p), Dict.get?_eq_some_iff.mp hget, ?_⟩
    simp [linkEntry, hid]

theorem mem_relevantBaselines {state : Workspace} {scopes : List Digest} {k : Digest}
    {b : Baseline} : (k, b) ∈ relevantBaselines state scopes ↔
      state.baselines.get? k = some b ∧ k ∈ scopes := by
  simp [relevantBaselines, Dict.get?_eq_some_iff]

theorem nodup_relevantBaselines (state : Workspace) (scopes : List Digest) :
    ((relevantBaselines state scopes).map Prod.fst).Nodup :=
  (List.filter_sublist.map Prod.fst).nodup state.baselines.nodup

variable [Sha256]

theorem nodup_relevantCases (state : Workspace) (scopes : List Digest) :
    ((relevantCases state scopes).map Prod.fst).Nodup :=
  (List.filter_sublist.map Prod.fst).nodup state.cases.nodup

theorem mem_relevantCases {state : Workspace} {scopes : List Digest} {k : Identifier}
    {c : RiskCase} : (k, c) ∈ relevantCases state scopes ↔
      state.cases.get? k = some c ∧ scopeKey c.scope ∈ scopes := by
  simp [relevantCases, Dict.get?_eq_some_iff]

theorem mem_relevantCases_keys {state : Workspace} {scopes : List Digest} {k : Identifier} :
    k ∈ (relevantCases state scopes).map Prod.fst ↔
      ∃ c, state.cases.get? k = some c ∧ scopeKey c.scope ∈ scopes := by
  rw [List.mem_map]
  constructor
  · rintro ⟨⟨k', c⟩, hmem, rfl⟩
    exact ⟨c, mem_relevantCases.mp hmem⟩
  · rintro ⟨c, hc⟩
    exact ⟨(k, c), mem_relevantCases.mpr hc, rfl⟩

end Entries

variable [Sha256]

section Facts

/-- Two workspaces hold the same facts about some scopes. -/
structure SameFacts (w m : Workspace) (scopes : List Digest) : Prop where
  baselines : ∀ key ∈ scopes, m.baselines.get? key = w.baselines.get? key
  cases : ∀ k c, scopeKey c.scope ∈ scopes →
    (m.cases.get? k = some c ↔ w.cases.get? k = some c)
  links : ∀ k p c, w.cases.get? p.case_id = some c → scopeKey c.scope ∈ scopes →
    (m.artifacts.get? k = some (.resolutionProof p) ↔
      w.artifacts.get? k = some (.resolutionProof p))

/-- Status and decision of every task of a closure but the one it belongs to. -/
def SameParents (w m : Workspace) (t : Identifier) (closure : List Identifier) : Prop :=
  ∀ a ∈ closure, a ≠ t → ∀ task task', w.tasks.get? a = some task →
    m.tasks.get? a = some task' →
      task'.status = task.status ∧ task'.current_decision_id = task.current_decision_id

variable {w m : Workspace} {scopes : List Digest}

theorem SameFacts.subset {sub : List Digest} (h : SameFacts w m scopes) (hsub : sub ⊆ scopes) :
    SameFacts w m sub where
  baselines := fun key hkey => h.baselines key (hsub hkey)
  cases := fun k c hc => h.cases k c (hsub hc)
  links := fun k p c hc hkey => h.links k p c hc (hsub hkey)

omit [Sha256] in
/-- The four objects a basis is made of; a last one that is left out is empty. -/
theorem object_body_inj {T T' B B' C C' : Json} {L L' : List (String × Json)} :
    object ([("tasks", T), ("baselines", B), ("cases", C)] ++
        (if L.isEmpty then [] else [("resolution_evidence", object L)])) =
      object ([("tasks", T'), ("baselines", B'), ("cases", C')] ++
        (if L'.isEmpty then [] else [("resolution_evidence", object L')])) ↔
      T = T' ∧ B = B' ∧ C = C' ∧ object L = object L' := by
  constructor
  · intro h
    have hkeys := mem_of_object_eq h
    cases L with
    | nil =>
      cases L' with
      | nil =>
        have hfields := object_inj h rfl
        simpa using hfields
      | cons e rest =>
        have hmem := (hkeys ("resolution_evidence", object (e :: rest))).mpr (by simp)
        simp at hmem
    | cons e rest =>
      cases L' with
      | nil =>
        have hmem := (hkeys ("resolution_evidence", object (e :: rest))).mp (by simp)
        simp at hmem
      | cons e' rest' =>
        have hfields := object_inj h rfl
        simpa using hfields
  · rintro ⟨rfl, rfl, rfl, hlinks⟩
    have hempty : L.isEmpty = L'.isEmpty := by
      have hkeys := mem_of_object_eq hlinks
      cases L with
      | nil =>
        cases L' with
        | nil => rfl
        | cons e rest => exact absurd ((hkeys e).mpr List.mem_cons_self) List.not_mem_nil
      | cons e rest =>
        cases L' with
        | nil => exact absurd ((hkeys e).mp List.mem_cons_self) List.not_mem_nil
        | cons e' rest' => rfl
    rw [hempty, hlinks]

theorem basisBody_eq_iff {t : Identifier} {closure : List Identifier}
    (hscopes : closureScopes m closure = closureScopes w closure) :
    basisBody m t closure = basisBody w t closure ↔
      object ((closureTasks m closure).map (fun e => (e.1, basisEntry t e.1 e.2))) =
          object ((closureTasks w closure).map (fun e => (e.1, basisEntry t e.1 e.2))) ∧
        SameFacts w m (closureScopes w closure) := by
  unfold basisBody
  rw [hscopes]
  generalize closureScopes w closure = scopes
  have hempty : ∀ l : List (String × ResolutionProof),
      (l.map (fun e => (e.1, e.2.toJson))).isEmpty = l.isEmpty := fun l => by simp
  simp only [← hempty]
  rw [object_body_inj,
    object_map_eq_iff Baseline.toJson_injective (nodup_relevantBaselines m scopes)
      (nodup_relevantBaselines w scopes),
    object_map_eq_iff RiskCase.toJson_injective (nodup_relevantCases m scopes)
      (nodup_relevantCases w scopes),
    object_map_eq_iff resolutionProof_injective (nodup_links m _) (nodup_links w _)]
  refine and_congr_right (fun _ => ?_)
  constructor
  · rintro ⟨hbaselines, hcases, hlinks⟩
    have hcases' : ∀ k c, scopeKey c.scope ∈ scopes →
        (m.cases.get? k = some c ↔ w.cases.get? k = some c) := by
      intro k c hc
      have hmem := hcases (k, c)
      rw [mem_relevantCases, mem_relevantCases] at hmem
      simpa [hc] using hmem
    refine ⟨?_, hcases', ?_⟩
    · intro key hkey
      have hmem : ∀ b, m.baselines.get? key = some b ↔ w.baselines.get? key = some b := by
        intro b
        have hmem := hbaselines (key, b)
        rw [mem_relevantBaselines, mem_relevantBaselines] at hmem
        simpa [hkey] using hmem
      exact Option.ext hmem
    · intro k p c hc hkey
      have hmem := hlinks (k, p)
      rw [mem_resolutionLinks, mem_resolutionLinks, mem_relevantCases_keys,
        mem_relevantCases_keys] at hmem
      have hid : ∃ c, w.cases.get? p.case_id = some c ∧ scopeKey c.scope ∈ scopes := ⟨c, hc, hkey⟩
      have hid' : ∃ c, m.cases.get? p.case_id = some c ∧ scopeKey c.scope ∈ scopes :=
        ⟨c, (hcases' _ c hkey).mpr hc, hkey⟩
      simpa [hid, hid'] using hmem
  · intro h
    have hids : ∀ k, (∃ c, m.cases.get? k = some c ∧ scopeKey c.scope ∈ scopes) ↔
        ∃ c, w.cases.get? k = some c ∧ scopeKey c.scope ∈ scopes := by
      intro k
      constructor
      · rintro ⟨c, hc, hkey⟩
        exact ⟨c, (h.cases k c hkey).mp hc, hkey⟩
      · rintro ⟨c, hc, hkey⟩
        exact ⟨c, (h.cases k c hkey).mpr hc, hkey⟩
    refine ⟨?_, ?_, ?_⟩
    · rintro ⟨key, b⟩
      rw [mem_relevantBaselines, mem_relevantBaselines]
      exact and_congr_left (fun hkey => by rw [h.baselines key hkey])
    · rintro ⟨k, c⟩
      rw [mem_relevantCases, mem_relevantCases]
      exact and_congr_left (fun hkey => h.cases k c hkey)
    · rintro ⟨k, p⟩
      rw [mem_resolutionLinks, mem_resolutionLinks, mem_relevantCases_keys,
        mem_relevantCases_keys, hids]
      refine and_congr_left (fun hid => ?_)
      obtain ⟨c, hc, hkey⟩ := hid
      exact h.links k p c hc hkey

end Facts

section Digests

variable [CollisionFree] {w m : Workspace} {t a : Identifier} {task : Task}
  {closure : List Identifier}

omit [Sha256] [CollisionFree] in
theorem basisEntry_inj {x : Identifier} {task' : Task} (hne : x ≠ t)
    (h : basisEntry t x task' = basisEntry t x task) :
    task'.status = task.status ∧ task'.current_decision_id = task.current_decision_id := by
  unfold basisEntry at h
  have hfields := object_inj h rfl
  simp only [if_neg hne, List.cons.injEq, Prod.mk.injEq, Json.str.injEq, optional_str_inj,
    true_and, and_true] at hfields
  exact ⟨TaskStatus.text_injective hfields.2.2.2, hfields.2.2.1⟩

/-- An unchanged basis: the same facts, and the same standing of every task below. -/
theorem taskBasis_eq_iff (hk : TasksKept w) (ht : w.tasks.get? t = some task)
    (hgrows : Grows w m) (hclosure : ancestors w t = .ok closure) :
    taskBasis m t = taskBasis w t ↔
      SameParents w m t closure ∧ SameFacts w m (closureScopes w closure) := by
  have hclosure' := hgrows.ancestors_eq hk ht hclosure
  have hscopes := hgrows.closureScopes_eq hk ht hclosure
  rw [taskBasis_eq hclosure, taskBasis_eq hclosure', Except.ok.injEq, digest_inj,
    basisBody_eq_iff hscopes]
  simp only [true_and]
  refine and_congr_left (fun _ => ?_)
  constructor
  · intro h x hx hne xtask xtask' hget hget'
    have hmem := (mem_of_object_eq h (x, basisEntry t x xtask')).mp
      (List.mem_map.mpr ⟨(x, xtask'), mem_closureTasks.mpr ⟨hx, hget'⟩, rfl⟩)
    obtain ⟨⟨y, ytask⟩, hy, heq⟩ := List.mem_map.mp hmem
    simp only [Prod.mk.injEq] at heq
    obtain ⟨rfl, hentry⟩ := heq
    obtain ⟨_, hyget⟩ := mem_closureTasks.mp hy
    rw [hget] at hyget
    cases hyget
    exact basisEntry_inj hne hentry.symm
  · intro h
    congr 1
    unfold closureTasks
    rw [List.map_filterMap, List.map_filterMap]
    apply List.filterMap_congr
    intro x hx
    obtain ⟨xtask, hget⟩ := hk.stored_task ((mem_ancestors hclosure).mp hx) ht
    obtain ⟨xtask', hget', hintent, hdeps⟩ := hgrows.tasks x xtask hget
    simp only [hget, hget', Option.map_some, Option.some.injEq, Prod.mk.injEq, true_and]
    unfold basisEntry
    by_cases hxt : x = t
    · simp [hxt, hintent, hdeps]
    · obtain ⟨hstatus, hcurrent⟩ := h x hx hxt xtask xtask' hget hget'
      simp [hintent, hdeps, hstatus, hcurrent]

/-- An unchanged basis of a task is one of everything it depends on. -/
theorem ancestor_basis_eq (hk : TasksKept w) (ht : w.tasks.get? t = some task)
    (hgrows : Grows w m) (hsame : taskBasis m t = taskBasis w t) (ha : ReliesOn w t a) :
    taskBasis m a = taskBasis w a := by
  obtain ⟨closure, hclosure⟩ := hk.ancestors_of_get? ht
  obtain ⟨atask, hget⟩ := hk.stored_task ha ht
  obtain ⟨sub, hsub⟩ := hk.ancestors_of_get? hget
  obtain ⟨hparents, hfacts⟩ := (taskBasis_eq_iff hk ht hgrows hclosure).mp hsame
  have hmem : ∀ x ∈ sub, x ∈ closure := fun x hx =>
    (mem_ancestors hclosure).mpr (Reaches.trans ha ((mem_ancestors hsub).mp hx))
  refine (taskBasis_eq_iff hk hget hgrows hsub).mpr ⟨?_, hfacts.subset ?_⟩
  · intro x hx hne
    refine hparents x (hmem x hx) ?_
    rintro rfl
    exact hk.not_back ((mem_ancestors hsub).mp hx) hne ha
  · intro key hkey
    obtain ⟨x, xtask, hx, hxget, hxkey⟩ := mem_closureScopes.mp hkey
    exact mem_closureScopes.mpr ⟨x, xtask, hmem x hx, hxget, hxkey⟩

end Digests

end MemoryGuard.Basis
