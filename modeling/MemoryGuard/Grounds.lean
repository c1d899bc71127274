import MemoryGuard.Frame
import MemoryGuard.Heads

/-!
What an investigation rests on, and what can be filed without changing it. An
investigation reads the resolution links of the cases around it and the current
source heads of its own; no other kind of artifact enters its basis. The
obligations of a case are read from guards, reads and report bundles.
-/
namespace MemoryGuard.Grounds

open OrderedDict Guarded DependencyGraph JsonText ContentHash Models Artifacts Aggregate Core
open Closure Policy SourceModels SourceState SourceGuard SourceService TaskCommands CaseCommands
open Filing EvidenceEffects Upkeep Frame

variable [Sha256] {w m : Workspace} {case_id : Identifier}

section Basis

/-- Two workspaces in which every investigation rests on the same. -/
structure SameGrounds (w m : Workspace) : Prop where
  tasks : m.tasks = w.tasks
  cases : m.cases = w.cases
  baselines : m.baselines = w.baselines
  lessons : m.lessons = w.lessons
  links : ∀ ids, resolutionLinks m ids = resolutionLinks w ids
  heads : ∀ case_id, evidenceHeads m case_id = evidenceHeads w case_id

omit [Sha256] in
theorem SameGrounds.refl (w : Workspace) : SameGrounds w w :=
  ⟨rfl, rfl, rfl, rfl, fun _ => rfl, fun _ => rfl⟩

omit [Sha256] in
theorem SameGrounds.trans {w' : Workspace} (h : SameGrounds w w') (h' : SameGrounds w' m) :
    SameGrounds w m :=
  ⟨h'.tasks.trans h.tasks, h'.cases.trans h.cases, h'.baselines.trans h.baselines,
    h'.lessons.trans h.lessons, fun ids => (h'.links ids).trans (h.links ids),
    fun case_id => (h'.heads case_id).trans (h.heads case_id)⟩

theorem SameGrounds.taskBasis_eq (h : SameGrounds w m) (t : Identifier) :
    taskBasis m t = taskBasis w t := by
  have hancestors : ancestors m t = ancestors w t :=
    ancestors_congr (by rw [h.tasks]) (fun a _ => by unfold dependsOn; rw [h.tasks])
  unfold taskBasis
  rw [hancestors]
  cases hok : ancestors w t with
  | error e => rfl
  | ok closure =>
    have htasks : closureTasks m closure = closureTasks w closure := by
      unfold closureTasks
      rw [h.tasks]
    have hscopes : closureScopes m closure = closureScopes w closure := by
      unfold closureScopes
      rw [htasks]
    have hcases : ∀ scopes, relevantCases m scopes = relevantCases w scopes := by
      intro scopes
      unfold relevantCases
      rw [h.cases]
    have hbaselines : ∀ scopes, relevantBaselines m scopes = relevantBaselines w scopes := by
      intro scopes
      unfold relevantBaselines
      rw [h.baselines]
    have hbody : basisBody m t closure = basisBody w t closure := by
      unfold basisBody
      simp only [htasks, hscopes, hcases, hbaselines, h.links]
    simp only [bind, Except.bind, hbody]

theorem SameGrounds.investigationBasis_eq (h : SameGrounds w m) (case_id : Identifier) :
    investigationBasis m case_id = investigationBasis w case_id := by
  have haffected : ∀ scope, affectedTasks m scope = affectedTasks w scope := by
    intro scope
    have hdepends : dependsOn m = dependsOn w := by
      unfold dependsOn
      rw [h.tasks]
    unfold affectedTasks scopedTasks
    rw [h.tasks, hdepends]
  have hprecedents : activePrecedents m case_id = activePrecedents w case_id := by
    unfold activePrecedents Guides
    simp only [h.cases, h.lessons]
  have hexternal : evidenceBasis m case_id = evidenceBasis w case_id := by
    unfold evidenceBasis
    rw [h.heads]
  unfold investigationBasis
  simp only [h.cases, haffected, h.taskBasis_eq, hprecedents, h.lessons, hexternal]

end Basis

section Reads

omit [Sha256]

/-- A loop that an element leaves alone can leave the element out. -/
theorem foldlM_filter_of_idle {α β : Type*} {ε : Type} (f : β → α → Except ε β) (p : α → Bool)
    (hidle : ∀ b a, p a = false → f b a = .ok b) (l : List α) (b : β) :
    l.foldlM f b = (l.filter p).foldlM f b := by
  rw [List.foldlM_filter]
  congr
  funext b a
  cases hp : p a with
  | true => rfl
  | false => exact hidle b a hp

theorem foldl_filter_of_idle {α β : Type*} (f : β → α → β) (p : α → Bool)
    (hidle : ∀ b a, p a = false → f b a = b) (l : List α) (b : β) :
    l.foldl f b = (l.filter p).foldl f b := by
  rw [List.foldl_filter]
  congr
  funext b a
  cases hp : p a with
  | true => rfl
  | false => exact hidle b a hp

def isHead (a : Artifact) : Bool := drawer a = .hashed "source-head"

theorem collectHead_idle {version : ℕ} {result : Dict Identifier SourceHead} {a : Artifact}
    (h : isHead a = false) : collectHead case_id version result a = .ok result := by
  cases a with
  | head a => simp [isHead, drawer] at h
  | _ => rfl

/-- The kinds from which obligations are read. -/
def obliging : List Drawer :=
  [.hashed "source-policy-guard", .named "fetch", .hashed "source-head", .named "source",
    .hashed "report-sources-key"]

def obliges (a : Artifact) : Bool := drawer a ∈ obliging

theorem oblige_idle {floor : Floor} {a : Artifact} (h : obliges a = false) :
    oblige floor a = floor := by
  cases a with
  | policyGuard a => simp [obliges, obliging, drawer] at h
  | request a => simp [obliges, obliging, drawer] at h
  | head a => simp [obliges, obliging, drawer] at h
  | receipt a => simp [obliges, obliging, drawer] at h
  | reportBundle a => simp [obliges, obliging, drawer] at h
  | _ => rfl

end Reads

section Filing

variable [CollisionFree] {k : String} {a : Artifact}

/-- The entries of other kinds do not change when an artifact is filed. -/
theorem entries_of_other (hw : Filed w.artifacts) (fits : Fits k a) (p : Artifact → Bool)
    (hkind : ∀ b, drawer b = drawer a → p b = false) :
    (w.artifacts.set k a).values.filter p = w.artifacts.values.filter p := by
  have hentries := Dict.filter_set_of_rejected (d := w.artifacts) (k := k) (v := a)
    (fun e => p e.2) (hkind a rfl) (fun b hb => hkind b (hw.drawer_eq hb fits))
  have hvalues : ∀ d : Dict String Artifact,
      d.values.filter p = (d.entries.filter (fun e => p e.2)).map Prod.snd := by
    intro d
    unfold Dict.values
    rw [List.filter_map]
    rfl
  rw [hvalues, hvalues, hentries]

/-- Filing neither a link nor a head leaves what investigations rest on. -/
theorem sameGrounds_of_filed (hw : Filed w.artifacts) (fits : Fits k a)
    (hlink : drawer a ≠ .hashed "resolution-link") (hhead : drawer a ≠ .hashed "source-head") :
    SameGrounds w (refile w (w.artifacts.set k a)) := by
  refine ⟨rfl, rfl, rfl, rfl, ?_, ?_⟩
  · intro ids
    rw [resolutionLinks_eq, resolutionLinks_eq]
    exact links_set hw fits hlink ids
  · intro case_id
    have hkind : ∀ b, drawer b = drawer a → isHead b = false := by
      intro b hb
      simp [isHead, hb, hhead]
    have hvalues := entries_of_other hw fits isHead hkind
    have hcollects : ∀ version,
        (w.artifacts.set k a).values.foldlM (collectHead case_id version) .empty =
          w.artifacts.values.foldlM (collectHead case_id version) .empty := by
      intro version
      rw [foldlM_filter_of_idle _ isHead (fun _ _ => collectHead_idle),
        foldlM_filter_of_idle _ isHead (fun _ _ => collectHead_idle) w.artifacts.values, hvalues]
    unfold evidenceHeads
    simp only [refile, hcollects]

theorem obligations_of_filed (hw : Filed w.artifacts) (fits : Fits k a)
    (hkind : drawer a ∉ obliging) (case_id : Identifier) :
    obligations (refile w (w.artifacts.set k a)) case_id = obligations w case_id := by
  have hother : ∀ b, drawer b = drawer a → obliges b = false := by
    intro b hb
    simp [obliges, hb, hkind]
  have hvalues := entries_of_other hw fits
    (fun b => obliges b && decide (b.case_id = some case_id)) (by simp +contextual [hother])
  have hcase : ∀ state : Workspace, (caseArtifacts state case_id).filter obliges =
      state.artifacts.values.filter (fun b => obliges b && decide (b.case_id = some case_id)) := by
    intro state
    unfold caseArtifacts
    rw [List.filter_filter]
  unfold obligations
  rw [foldl_filter_of_idle oblige obliges (fun _ _ => oblige_idle),
    foldl_filter_of_idle oblige obliges (fun _ _ => oblige_idle) (caseArtifacts w case_id),
    hcase, hcase]
  simp only [refile, hvalues]

end Filing

end MemoryGuard.Grounds
