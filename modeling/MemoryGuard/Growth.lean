import MemoryGuard.Effects

/-!
What a stored workspace never loses. Tasks keep their intents and dependencies,
decisions and reports are written once, and the stamps on what is known of a
scope only rise. So whatever a scope touches it touches for good, and a
decision can be compared with the workspace it was made in.
-/
namespace MemoryGuard.Growth

open OrderedDict Guarded DependencyGraph JsonText ContentHash Models Artifacts Aggregate Core
open Closure Policy Transactions TaskCommands CaseCommands Calls Filing
open EvidenceEffects TaskEffects CaseEffects Effects

/-- The last event that changed a case. -/
def caseStamp (c : RiskCase) : ℕ := max c.opened_seq (c.resolved_seq.getD 0)

/-- A handoff as it was, or accepted since. -/
def Forwarded (h h' : Handoff) : Prop := h' = h ∨ h' = { h with accepted := true }

theorem Forwarded.trans {h h' h'' : Handoff} (a : Forwarded h h') (b : Forwarded h' h'') :
    Forwarded h h'' := by
  unfold Forwarded at *
  rcases a with rfl | rfl
  · exact b
  · rcases b with rfl | rfl
    · exact Or.inr rfl
    · exact Or.inr rfl

structure Grows (w m : Workspace) : Prop where
  tenant : m.tenant_id = w.tenant_id
  size : w.tasks.size ≤ m.tasks.size
  tasks : ∀ k t, w.tasks.get? k = some t → ∃ t', m.tasks.get? k = some t' ∧
    t'.intent = t.intent ∧ t'.depends_on = t.depends_on
  decisions : ∀ k d, w.decisions.get? k = some d → m.decisions.get? k = some d
  current : ∀ k t d, w.tasks.get? k = some t → currentDecision w t = some d →
    ∃ t' d', m.tasks.get? k = some t' ∧ currentDecision m t' = some d' ∧
      d.memory_revision ≤ d'.memory_revision
  baselines : ∀ k b, w.baselines.get? k = some b →
    ∃ b', m.baselines.get? k = some b' ∧ b.event_seq ≤ b'.event_seq
  cases : ∀ k c, w.cases.get? k = some c → ∃ c', m.cases.get? k = some c' ∧
    c'.scope = c.scope ∧ caseStamp c ≤ caseStamp c'
  reports : ∀ k r, w.reports.get? k = some r → m.reports.get? k = some r
  handoffs : ∀ k h, w.handoffs.get? k = some h → ∃ h', m.handoffs.get? k = some h' ∧ Forwarded h h'

namespace Grows

theorem refl (w : Workspace) : Grows w w where
  tenant := rfl
  size := le_refl _
  tasks := fun _ t ht => ⟨t, ht, rfl, rfl⟩
  decisions := fun _ _ hd => hd
  current := fun _ t d ht hd => ⟨t, d, ht, hd, le_refl _⟩
  baselines := fun _ b hb => ⟨b, hb, le_refl _⟩
  cases := fun _ c hc => ⟨c, hc, rfl, le_refl _⟩
  reports := fun _ _ hr => hr
  handoffs := fun _ h hh => ⟨h, hh, Or.inl rfl⟩

theorem trans {w w' w'' : Workspace} (h : Grows w w') (h' : Grows w' w'') : Grows w w'' := by
  refine ⟨h'.tenant.trans h.tenant, h.size.trans h'.size, ?_, ?_, ?_, ?_, ?_, ?_, ?_⟩
  · intro k t ht
    obtain ⟨t1, ht1, hi1, hd1⟩ := h.tasks k t ht
    obtain ⟨t2, ht2, hi2, hd2⟩ := h'.tasks k t1 ht1
    exact ⟨t2, ht2, hi2.trans hi1, hd2.trans hd1⟩
  · exact fun k d hd => h'.decisions k d (h.decisions k d hd)
  · intro k t d ht hd
    obtain ⟨t1, d1, ht1, hd1, hle1⟩ := h.current k t d ht hd
    obtain ⟨t2, d2, ht2, hd2, hle2⟩ := h'.current k t1 d1 ht1 hd1
    exact ⟨t2, d2, ht2, hd2, hle1.trans hle2⟩
  · intro k b hb
    obtain ⟨b1, hb1, hle1⟩ := h.baselines k b hb
    obtain ⟨b2, hb2, hle2⟩ := h'.baselines k b1 hb1
    exact ⟨b2, hb2, hle1.trans hle2⟩
  · intro k c hc
    obtain ⟨c1, hc1, hs1, hle1⟩ := h.cases k c hc
    obtain ⟨c2, hc2, hs2, hle2⟩ := h'.cases k c1 hc1
    exact ⟨c2, hc2, hs2.trans hs1, hle1.trans hle2⟩
  · exact fun k r hr => h'.reports k r (h.reports k r hr)
  · intro k hd hh
    obtain ⟨h1, hh1, hf1⟩ := h.handoffs k hd hh
    obtain ⟨h2, hh2, hf2⟩ := h'.handoffs k h1 hh1
    exact ⟨h2, hh2, hf1.trans hf2⟩

section Graph

variable {w m : Workspace} (h : Grows w m) {t a : Identifier}
include h

theorem edge {v p : Identifier} (he : Edge (dependsOn w) v p) : Edge (dependsOn m) v p := by
  obtain ⟨task, hget, hp⟩ := edge_iff.mp he
  obtain ⟨task', hget', _, hdeps⟩ := h.tasks v task hget
  exact edge_iff.mpr ⟨task', hget', hdeps ▸ hp⟩

theorem edge_back {v p : Identifier} {task : Task} (hv : w.tasks.get? v = some task)
    (he : Edge (dependsOn m) v p) : Edge (dependsOn w) v p := by
  obtain ⟨task', hget', hp⟩ := edge_iff.mp he
  obtain ⟨task'', hget'', _, hdeps⟩ := h.tasks v task hv
  rw [hget'] at hget''
  cases hget''
  exact edge_iff.mpr ⟨task, hv, hdeps ▸ hp⟩

theorem dependsOn_mono (hr : ReliesOn w t a) : ReliesOn m t a := by
  unfold ReliesOn Reaches at *
  exact Relation.ReflTransGen.mono (fun _ _ he => h.edge he) _ _ hr

/-- A stored task depends on the same tasks ever after. -/
theorem dependsOn_iff (hk : TasksKept w) {task : Task} (ht : w.tasks.get? t = some task) :
    ReliesOn m t a ↔ ReliesOn w t a := by
  constructor
  · intro hr
    unfold ReliesOn Reaches at hr
    induction hr with
    | refl => exact dependsOn_self w t
    | tail _ he ih =>
      obtain ⟨vtask, hv⟩ := hk.stored_task ih ht
      exact Relation.ReflTransGen.tail ih (h.edge_back hv he)
  · exact h.dependsOn_mono

theorem ancestors_eq (hk : TasksKept w) {task : Task} (ht : w.tasks.get? t = some task)
    {closure : List Identifier} (hok : ancestors w t = .ok closure) :
    ancestors m t = .ok closure := by
  apply ancestors_mono h.size _ hok
  intro x hx
  obtain ⟨xtask, hxget⟩ := hk.stored_task hx ht
  obtain ⟨xtask', hxget', _, hdeps⟩ := h.tasks x xtask hxget
  simp [dependsOn, hxget, hxget', hdeps]

variable [Sha256] {scope : Scope}

theorem touches_iff (hk : TasksKept w) {task : Task} (ht : w.tasks.get? t = some task) :
    Touches m t scope ↔ Touches w t scope := by
  constructor
  · rintro ⟨x, xtask', hx, hget', hkey⟩
    have hx := (h.dependsOn_iff hk ht).mp hx
    obtain ⟨xtask, hget⟩ := hk.stored_task hx ht
    obtain ⟨xtask'', hget'', hintent, _⟩ := h.tasks x xtask hget
    rw [hget'] at hget''
    cases hget''
    exact ⟨x, xtask, hx, hget, hintent ▸ hkey⟩
  · rintro ⟨x, xtask, hx, hget, hkey⟩
    obtain ⟨xtask', hget', hintent, _⟩ := h.tasks x xtask hget
    exact ⟨x, xtask', h.dependsOn_mono hx, hget', by rw [hintent, hkey]⟩

theorem closureScopes_eq (hk : TasksKept w) {task : Task} (ht : w.tasks.get? t = some task)
    {closure : List Identifier} (hok : ancestors w t = .ok closure) :
    closureScopes m closure = closureScopes w closure := by
  have hget : ∀ x ∈ closure, (m.tasks.get? x).map (fun task => scopeKey task.intent.scope) =
      (w.tasks.get? x).map (fun task => scopeKey task.intent.scope) := by
    intro x hx
    obtain ⟨xtask, hxget⟩ := hk.stored_task ((mem_ancestors hok).mp hx) ht
    obtain ⟨xtask', hxget', hintent, _⟩ := h.tasks x xtask hxget
    simp [hxget, hxget', hintent]
  unfold closureScopes closureTasks
  rw [List.map_filterMap, List.map_filterMap]
  apply List.filterMap_congr
  intro x hx
  have hx := hget x hx
  simpa [Option.map_map, Function.comp_def] using hx

end Graph

end Grows

end MemoryGuard.Growth
