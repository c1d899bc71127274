import MemoryGuard.Core

/-!
The two traversals of the task graph on workspaces that the service keeps: the
closure of a task always exists and lists what the task depends on, and a scope
affects a task exactly when it is the scope of something in that closure.
-/
namespace MemoryGuard.Closure

open OrderedDict Guarded DependencyGraph ContentHash Models Artifacts Aggregate Core

/-- Zero or more dependency edges between stored tasks. -/
def ReliesOn (state : Workspace) : Identifier → Identifier → Prop := Reaches (dependsOn state)

/-- Tasks are stored under their identifiers, each after all it depends on. -/
structure TasksKept (state : Workspace) : Prop where
  keyed : ∀ k t, state.tasks.get? k = some t → t.task_id = k
  ordered : Topological (dependsOn state) state.tasks.keys

section Ancestors

variable {state : Workspace} {t a : Identifier} {closure : List Identifier}

theorem edge_sortedParents {v p : Identifier} :
    Edge (sortedParents state) v p ↔ Edge (dependsOn state) v p := by
  unfold Edge sortedParents
  cases dependsOn state v <;> simp

theorem reaches_sortedParents {v p : Identifier} :
    Reaches (sortedParents state) v p ↔ ReliesOn state v p := by
  unfold ReliesOn Reaches
  rw [show Edge (sortedParents state) = Edge (dependsOn state) from
    funext fun v => funext fun p => propext edge_sortedParents]

theorem topological_sortedParents {l : List Identifier} :
    Topological (sortedParents state) l ↔ Topological (dependsOn state) l := by
  have hdeps : ∀ x (before : List Identifier),
      (∃ ps, sortedParents state x = some ps ∧ ∀ p ∈ ps, p ∈ before) ↔
        ∃ ps, dependsOn state x = some ps ∧ ∀ p ∈ ps, p ∈ before := by
    intro x before
    unfold sortedParents
    cases dependsOn state x <;> simp
  simp only [Topological, hdeps]

theorem isSome_dependsOn {v : Identifier} :
    (dependsOn state v).isSome ↔ v ∈ state.tasks.keys := by
  rw [← Dict.has_iff_mem_keys]
  simp [Dict.Has, dependsOn]

theorem isSome_sortedParents {v : Identifier} :
    (sortedParents state v).isSome ↔ v ∈ state.tasks.keys := by
  rw [← isSome_dependsOn]
  simp [sortedParents]

theorem walk_of_ancestors (h : ancestors state t = .ok closure) :
    walk (sortedParents state) (state.tasks.size + 1) [] [] t = .ok closure := by
  unfold ancestors at h
  split at h
  · cases h
    assumption
  · cases h
  · cases h

theorem mem_ancestors (h : ancestors state t = .ok closure) :
    a ∈ closure ↔ ReliesOn state t a :=
  (mem_walk_iff _ (walk_of_ancestors h)).trans reaches_sortedParents

theorem nodup_ancestors (h : ancestors state t = .ok closure) : closure.Nodup :=
  nodup_walk _ (walk_of_ancestors h)

/-- A dependency graph is read at the nodes that a task reaches only. -/
theorem ancestors_congr {state' : Workspace} (hsize : state'.tasks.size = state.tasks.size)
    (h : ∀ a, ReliesOn state t a → dependsOn state' a = dependsOn state a) :
    ancestors state' t = ancestors state t := by
  have hwalk : walk (sortedParents state') (state.tasks.size + 1) [] [] t =
      walk (sortedParents state) (state.tasks.size + 1) [] [] t := by
    apply walk_congr
    intro a ha
    unfold sortedParents
    rw [h a (reaches_sortedParents.mp ha)]
  unfold ancestors
  rw [hsize, hwalk]

/-- The closure does not depend on how many other tasks there are. -/
theorem ancestors_mono {state' : Workspace} (hsize : state.tasks.size ≤ state'.tasks.size)
    (h : ∀ a, ReliesOn state t a → dependsOn state' a = dependsOn state a)
    (hok : ancestors state t = .ok closure) : ancestors state' t = .ok closure := by
  have hwalk := walk_mono _ _ (state'.tasks.size + 1) _ _ _ _ (by omega) (walk_of_ancestors hok)
  have hcongr : walk (sortedParents state') (state'.tasks.size + 1) [] [] t =
      walk (sortedParents state) (state'.tasks.size + 1) [] [] t := by
    apply walk_congr
    intro a ha
    unfold sortedParents
    rw [h a (reaches_sortedParents.mp ha)]
  unfold ancestors
  rw [hcongr, hwalk]

theorem edge_iff {v p : Identifier} :
    Edge (dependsOn state) v p ↔ ∃ task, state.tasks.get? v = some task ∧ p ∈ task.depends_on := by
  unfold Edge dependsOn
  cases state.tasks.get? v <;> simp

theorem dependsOn_self (state : Workspace) (t : Identifier) : ReliesOn state t t :=
  Reaches.refl t

namespace TasksKept

variable (hk : TasksKept state)
include hk

theorem rank_lt {v p : Identifier} (he : Edge (dependsOn state) v p) :
    state.tasks.keys.idxOf p < state.tasks.keys.idxOf v := by
  obtain ⟨task, hv, _⟩ := edge_iff.mp he
  exact hk.ordered.idxOf_lt state.tasks.nodup (Dict.mem_keys_of_get? hv) he

theorem stored (ha : ReliesOn state t a) (ht : t ∈ state.tasks.keys) :
    a ∈ state.tasks.keys := hk.ordered.reaches ht ha

theorem stored_task (ha : ReliesOn state t a) {task : Task}
    (ht : state.tasks.get? t = some task) : ∃ atask, state.tasks.get? a = some atask :=
  Dict.exists_get?_of_mem_keys (hk.stored ha (Dict.mem_keys_of_get? ht))

/-- The closure of a stored task exists. -/
theorem ancestors_total (ht : t ∈ state.tasks.keys) : ∃ closure, ancestors state t = .ok closure := by
  have hrank : ∀ v p, Edge (sortedParents state) v p →
      state.tasks.keys.idxOf p < state.tasks.keys.idxOf v :=
    fun v p he => hk.rank_lt (edge_sortedParents.mp he)
  have hclosed : ∀ x, Reaches (sortedParents state) t x → (sortedParents state x).isSome := by
    intro x hx
    obtain ⟨task, hx⟩ := Dict.exists_get?_of_mem_keys (hk.stored (reaches_sortedParents.mp hx) ht)
    simp [sortedParents, dependsOn, hx]
  have hlen : state.tasks.keys.idxOf t < state.tasks.size + 1 := by
    have hlt := List.idxOf_lt_length_of_mem ht
    have hsize : state.tasks.keys.length = state.tasks.size := by simp [Dict.keys, Dict.size]
    omega
  obtain ⟨closure, hwalk⟩ := walk_total _ hrank _ [] [] t hclosed hlen (by simp)
  exact ⟨closure, by rw [ancestors, hwalk]⟩

theorem ancestors_of_get? {task : Task} (ht : state.tasks.get? t = some task) :
    ∃ closure, ancestors state t = .ok closure := hk.ancestors_total (Dict.mem_keys_of_get? ht)

/-- A task other than `t` in the closure of `t` does not depend on `t`. -/
theorem not_back (ha : ReliesOn state t a) (hne : a ≠ t) : ¬ ReliesOn state a t := by
  intro hback
  have h1 := Reaches.rank_le (fun v p he => hk.rank_lt he) ha
  have h2 := Reaches.rank_le (fun v p he => hk.rank_lt he) hback
  rcases h1 with rfl | h1
  · exact hne rfl
  · rcases h2 with rfl | h2
    · exact hne rfl
    · omega

end TasksKept

end Ancestors

section Affected

variable [Sha256] {state : Workspace} {t : Identifier} {scope : Scope}

/-- Whether a scope is that of a task or of something the task depends on. -/
def Touches (state : Workspace) (t : Identifier) (scope : Scope) : Prop :=
  ∃ a task, ReliesOn state t a ∧ state.tasks.get? a = some task ∧
    scopeKey task.intent.scope = scopeKey scope

theorem mem_scopedTasks {wanted : Digest} :
    t ∈ scopedTasks state wanted ↔
      ∃ task, state.tasks.get? t = some task ∧ scopeKey task.intent.scope = wanted := by
  simp only [scopedTasks, List.mem_map, List.mem_filter, decide_eq_true_eq]
  constructor
  · rintro ⟨⟨k, task⟩, ⟨hmem, hscope⟩, rfl⟩
    exact ⟨task, Dict.get?_eq_some_iff.mpr hmem, hscope⟩
  · rintro ⟨task, hget, hscope⟩
    exact ⟨(t, task), ⟨Dict.get?_eq_some_iff.mp hget, hscope⟩, rfl⟩

/-- Propagation reaches exactly the tasks whose closure has the scope. -/
theorem mem_affectedTasks : t ∈ affectedTasks state scope ↔ Touches state t scope := by
  have hnodes : ∀ v, (dependsOn state v).isSome → v ∈ state.tasks.keys :=
    fun v hv => isSome_dependsOn.mp hv
  unfold affectedTasks
  rw [mem_sorted, mem_spread_iff hnodes (Dict.size_eq_keys state.tasks).ge]
  constructor
  · rintro ⟨s, hs, hr⟩
    obtain ⟨task, hget, hscope⟩ := mem_scopedTasks.mp hs
    exact ⟨s, task, hr, hget, hscope⟩
  · rintro ⟨a, task, hr, hget, hscope⟩
    exact ⟨a, mem_scopedTasks.mpr ⟨task, hget, hscope⟩, hr⟩

theorem nodup_affectedTasks : (affectedTasks state scope).Nodup := by
  unfold affectedTasks
  rw [nodup_sorted]
  apply nodup_spread state.tasks.nodup
  have hsub : (scopedTasks state (scopeKey scope)).Sublist state.tasks.keys :=
    List.filter_sublist.map Prod.fst
  exact hsub.nodup state.tasks.nodup

end Affected

section Members

variable {state : Workspace} {closure : List Identifier}

theorem mem_closureTasks {a : Identifier} {task : Task} :
    (a, task) ∈ closureTasks state closure ↔ a ∈ closure ∧ state.tasks.get? a = some task := by
  simp only [closureTasks, List.mem_filterMap, Option.map_eq_some_iff, Prod.mk.injEq]
  constructor
  · rintro ⟨k, hk, task', hget, rfl, rfl⟩
    exact ⟨hk, hget⟩
  · rintro ⟨ha, hget⟩
    exact ⟨a, ha, task, hget, rfl, rfl⟩

variable [Sha256]

theorem mem_closureScopes {key : Digest} :
    key ∈ closureScopes state closure ↔
      ∃ a task, a ∈ closure ∧ state.tasks.get? a = some task ∧ scopeKey task.intent.scope = key := by
  simp only [closureScopes, List.mem_map]
  constructor
  · rintro ⟨⟨a, task⟩, hmem, rfl⟩
    obtain ⟨ha, hget⟩ := mem_closureTasks.mp hmem
    exact ⟨a, task, ha, hget, rfl⟩
  · rintro ⟨a, task, ha, hget, rfl⟩
    exact ⟨(a, task), mem_closureTasks.mpr ⟨ha, hget⟩, rfl⟩

/-- The scopes of the closure are those whose risks reach the task. -/
theorem scopeKey_mem_closureScopes {t : Identifier} (h : ancestors state t = .ok closure)
    {scope : Scope} : scopeKey scope ∈ closureScopes state closure ↔ Touches state t scope := by
  rw [mem_closureScopes]
  constructor
  · rintro ⟨a, task, ha, hget, hkey⟩
    exact ⟨a, task, (mem_ancestors h).mp ha, hget, hkey⟩
  · rintro ⟨a, task, ha, hget, hkey⟩
    exact ⟨a, task, (mem_ancestors h).mpr ha, hget, hkey⟩

theorem mem_openCases {scopes : List Digest} {k : Identifier} :
    k ∈ openCases state scopes ↔
      ∃ c, state.cases.get? k = some c ∧ c.status = .opened ∧ scopeKey c.scope ∈ scopes := by
  simp only [openCases, mem_sorted, List.mem_map, List.mem_filter, decide_eq_true_eq]
  constructor
  · rintro ⟨⟨k, c⟩, ⟨hmem, hc⟩, rfl⟩
    exact ⟨c, Dict.get?_eq_some_iff.mpr hmem, hc⟩
  · rintro ⟨c, hget, hc⟩
    exact ⟨(k, c), ⟨Dict.get?_eq_some_iff.mp hget, hc⟩, rfl⟩

theorem nodup_openCases (scopes : List Digest) : (openCases state scopes).Nodup := by
  unfold openCases
  rw [nodup_sorted]
  exact (List.filter_sublist.map Prod.fst).nodup state.cases.nodup

end Members

section Duality

variable {state : Workspace} {t : Identifier}

/-- The closure fails exactly where a missing task or a cycle can be reached. -/
theorem ancestors_error_iff : (∃ e, ancestors state t = .error e) ↔
    ∃ a, ReliesOn state t a ∧ (state.tasks.get? a = none ∨ Cyclic (dependsOn state) a) := by
  have hedges : Edge (sortedParents state) = Edge (dependsOn state) :=
    funext fun v => funext fun p => propext edge_sortedParents
  have hnone : ∀ a, sortedParents state a = none ↔ state.tasks.get? a = none := by
    intro a
    simp [sortedParents, dependsOn]
  have hwalk : (∃ e, walk (sortedParents state) (state.tasks.keys.length + 1) [] [] t = .error e) ↔
      _ := walk_error_iff (fun v hv => isSome_sortedParents.mp hv)
  simp only [Reaches, Cyclic, hedges, hnone, ← Dict.size_eq_keys] at hwalk
  rw [ReliesOn, Reaches]
  simp only [Cyclic]
  rw [← hwalk]
  unfold ancestors
  constructor
  · rintro ⟨e, he⟩
    split at he
    · cases he
    · exact ⟨.cycle, by assumption⟩
    · exact ⟨.missing, by assumption⟩
  · rintro ⟨e, he⟩
    cases e <;> simp [he]

theorem getLast?_ancestors {closure : List Identifier} (h : ancestors state t = .ok closure) :
    closure.getLast? = some t :=
  getLast?_walk (walk_of_ancestors h)

theorem sorted_affectedTasks [Sha256] (scope : Scope) :
    (affectedTasks state scope).Pairwise (· < ·) := by
  have hsorted : (affectedTasks state scope).Pairwise (· ≤ ·) :=
    List.pairwise_insertionSort (· ≤ ·) _
  have hnodup : (affectedTasks state scope).Nodup := nodup_affectedTasks
  exact (hsorted.and hnodup).imp fun h => lt_of_le_of_ne h.1 h.2

/-- Both traversals end, on every graph, and say the same about scopes. -/
theorem closure_and_propagation_are_dual [Sha256] (state : Workspace) (t : Identifier)
    (scope : Scope) :
    (∃ result, affectedTasks state scope = sorted result ∧
      frontier state.tasks.keys (dependsOn state) result = [] ∧
      ∀ n, state.tasks.size ≤ n → spread state.tasks.keys (dependsOn state) n
        (scopedTasks state (scopeKey scope)) = result) ∧
    (affectedTasks state scope).Pairwise (· < ·) ∧
    (∀ a, a ∈ affectedTasks state scope ↔ Touches state a scope) ∧
    (∀ n, state.tasks.size < n → walk (sortedParents state) n [] [] t =
      walk (sortedParents state) (state.tasks.size + 1) [] [] t) ∧
    ((∃ e, ancestors state t = .error e) ↔
      ∃ a, ReliesOn state t a ∧ (state.tasks.get? a = none ∨ Cyclic (dependsOn state) a)) ∧
    ∀ closure, ancestors state t = .ok closure →
      (∀ a, a ∈ closure ↔ ReliesOn state t a) ∧ closure.Nodup ∧
      Topological (dependsOn state) closure ∧ closure.getLast? = some t ∧
      (t ∈ affectedTasks state scope ↔ ∃ a ∈ closure, ∃ task, state.tasks.get? a = some task ∧
        scopeKey task.intent.scope = scopeKey scope) := by
  have hrounds : (state.tasks.keys.filter
      (fun v => v ∉ scopedTasks state (scopeKey scope))).length ≤ state.tasks.size := by
    rw [Dict.size_eq_keys]
    exact List.length_filter_le _ _
  refine ⟨⟨_, rfl, frontier_spread _ _ hrounds, fun n hn => spread_stable _ hrounds hn⟩,
    sorted_affectedTasks scope, fun a => mem_affectedTasks, ?_, ancestors_error_iff, ?_⟩
  · intro n hn
    rw [Dict.size_eq_keys] at hn ⊢
    exact walk_stable (fun v hv => isSome_sortedParents.mp hv) t hn
  · intro closure h
    refine ⟨fun a => mem_ancestors h, nodup_ancestors h,
      topological_sortedParents.mp (topological_walk _ (walk_of_ancestors h)),
      getLast?_ancestors h, ?_⟩
    rw [mem_affectedTasks]
    constructor
    · rintro ⟨a, task, ha, hget, hscope⟩
      exact ⟨a, (mem_ancestors h).mpr ha, task, hget, hscope⟩
    · rintro ⟨a, ha, task, hget, hscope⟩
      exact ⟨a, task, (mem_ancestors h).mp ha, hget, hscope⟩

end Duality

end MemoryGuard.Closure
