import MemoryGuard.Demands
import MemoryGuard.Exports

/-!
What a resolution rests on. A case that owes evidence is resolved only with a
desk, on the evidence that its report recorded, and every required source has a
live receipt of the latest reservation made for it. For a head points to the
latest reservation of its source, whatever was reserved, cached or finished in
between.
-/
namespace MemoryGuard.ResolvedEvidence

open OrderedDict Guarded JsonText ContentHash Models Artifacts Aggregate Core SourceModels
open SourceState SourceGuard SourceService Transactions SourceCommands CaseCommands Traces Calls
open Floors Filing EvidenceEffects TaskEffects CaseEffects Lifecycle Effects Growth Upkeep History
open Integrity Heads Standing Custody Bundles LastingReports Exports JsonReading

variable [Sha256]

section Following

/-- What guards demand and where heads point: a new guard demands something, and
no head points elsewhere. -/
structure Follows (d e : Dict String Artifact) : Prop where
  guards : ∀ k g, e.get? k = some (.policyGuard g) →
    d.get? k = some (.policyGuard g) ∨ Demanding g.floor
  heads : ∀ k h, e.get? k = some (.head h) →
    ∃ p, d.get? k = some (.head p) ∧ p.request_id = h.request_id

variable {d e f : Dict String Artifact} {k : String} {a : Artifact}

omit [Sha256] in
theorem Follows.refl (d : Dict String Artifact) : Follows d d :=
  ⟨fun _ _ hg => Or.inl hg, fun _ h hh => ⟨h, hh, rfl⟩⟩

omit [Sha256] in
theorem Follows.trans (h : Follows d e) (h' : Follows e f) : Follows d f := by
  constructor
  · intro k g hg
    rcases h'.guards k g hg with hmid | hdemanding
    · exact h.guards k g hmid
    · exact Or.inr hdemanding
  · intro k head hhead
    obtain ⟨p, hp, hpoints⟩ := h'.heads k head hhead
    obtain ⟨p', hp', hpoints'⟩ := h.heads k p hp
    exact ⟨p', hp', hpoints'.trans hpoints⟩

omit [Sha256] in
theorem Follows.set (hguard : ∀ g, a = .policyGuard g → Demanding g.floor)
    (hhead : ∀ h, a = .head h → ∃ p, d.get? k = some (.head p) ∧ p.request_id = h.request_id) :
    Follows d (d.set k a) := by
  constructor
  · intro k' g hg
    rw [Dict.get?_set] at hg
    split at hg
    · exact Or.inr (hguard g (Option.some.inj hg))
    · exact Or.inl hg
  · intro k' h hh
    rw [Dict.get?_set] at hh
    split at hh
    · rename_i hk
      subst hk
      exact hhead h (Option.some.inj hh)
    · exact ⟨h, hh, rfl⟩

omit [Sha256] in
theorem follows_of_ordinary (plain : Ordinary (d.get? k) a) : Follows d (d.set k a) := by
  refine .set ?_ ?_
  · rintro g rfl
    exact plain.2
  · rintro h rfl
    exact plain

theorem refiled_follows (h : Refiled d e) : Follows d e := by
  induction h with
  | refl => exact .refl d
  | set _ _ plain ih => exact ih.trans (follows_of_ordinary plain)

variable [CollisionFree] {steps : List Step} {s : Step} {w m : Workspace} {tx : Transaction}
  {result : Result}

omit [CollisionFree] in
theorem linked_follows {case_id : Identifier} {version seq : ℕ} {start : Dict String Artifact}
    (h : Linked w case_id version seq start) : Follows w.artifacts start := by
  rcases h with rfl | ⟨p, _, _, _, rfl⟩
  · exact .refl _
  · exact .set (by rintro g ⟨⟩) (by rintro h ⟨⟩)

omit [CollisionFree] in
theorem investigates_follows {r : Report} {external : Option EvidenceContext}
    (h : Investigates w m r external) : Follows w.artifacts m.artifacts := by
  obtain ⟨mid, hmid, hm⟩ := h.artifacts
  rw [hm]
  cases external with
  | none => exact refiled_follows hmid
  | some context => exact (refiled_follows hmid).trans (.set (by rintro g ⟨⟩) (by rintro h ⟨⟩))

/-- Where a reservation leaves the heads: that of its source points to it. -/
structure Displaces (w m : Workspace) (case_id source_id request_id : Identifier) : Prop where
  guards : ∀ k g, m.artifacts.get? k = some (.policyGuard g) →
    w.artifacts.get? k = some (.policyGuard g) ∨ Demanding g.floor
  own : ∀ h, m.artifacts.get? (sourceKey case_id source_id) = some (.head h) →
    h.request_id = request_id
  heads : ∀ k h, k ≠ sourceKey case_id source_id → m.artifacts.get? k = some (.head h) →
    ∃ p, w.artifacts.get? k = some (.head p) ∧ p.request_id = h.request_id

theorem reserveChange_follows {desk : EvidenceDesk} {env : Environment} {actor : Actor}
    {cmd : Command} {case_id : Identifier} {acq : Acquisition} {force_refresh : Bool} {seq : ℕ}
    (ha : Archived w)
    (h : reserveChange desk env actor cmd case_id acq force_refresh w seq = .ok (m, result)) :
    (∃ r, result = .sourceCached (fetchId actor cmd) r ∧ Follows w.artifacts m.artifacts) ∨
      (result = .sourceReserved (fetchId actor cmd) ∧
        Displaces w m case_id acq.spec.source_id (fetchId actor cmd)) := by
  simp only [reserveChange, bind_eq_ok] at h
  obtain ⟨current, _, _, _, w1, hremember, ⟨receipts, rejected⟩, _, h⟩ := h
  obtain ⟨artifacts, hrefiled, rfl⟩ := refiled_of_rememberPolicy ha.filed ha.recent hremember
  have hfollows := refiled_follows hrefiled
  split at h
  · simp only [pure_eq_ok, Prod.mk.injEq] at h
    obtain ⟨rfl, rfl⟩ := h
    exact Or.inl ⟨_, rfl, hfollows⟩
  · simp only [bind_eq_ok, pure_eq_ok, Prod.mk.injEq] at h
    obtain ⟨_, _, rfl, rfl⟩ := h
    have hrequest : Follows artifacts (artifacts.set (fetchId actor cmd)
        (.request (pendingRequest env actor cmd case_id acq current.version))) :=
      .set (by rintro g ⟨⟩) (by rintro h ⟨⟩)
    have hbefore := hfollows.trans hrequest
    refine Or.inr ⟨rfl, ?_, ?_, ?_⟩
    · intro k g hg
      simp only [storeReservation, refile] at hg
      rw [Dict.get?_set] at hg
      split at hg
      · cases hg
      · exact hbefore.guards k g hg
    · intro h hh
      simp only [storeReservation, refile] at hh
      rw [Dict.get?_set_self] at hh
      cases hh
      rfl
    · intro k h hk hh
      simp only [storeReservation, refile] at hh
      rw [Dict.get?_set_of_ne _ _ (Ne.symm hk)] at hh
      exact hbefore.heads k h hh

omit [CollisionFree] in
/-- Only a reservation points a head elsewhere. -/
theorem effect_follows {svc : Service} {env : Environment} {call : Call}
    (h : Effect svc env w call m result)
    (hcall : ∀ actor cmd desk case_id source_id resource snapshot force_refresh,
      call ≠ .reserveSource actor cmd desk case_id source_id resource snapshot force_refresh) :
    Follows w.artifacts m.artifacts := by
  cases h with
  | filed _ _ files => exact refiled_follows files.artifacts
  | reserved _ _ => exact absurd rfl (hcall _ _ _ _ _ _ _ _)
  | investigated _ _ _ investigates => exact investigates_follows investigates
  | handedOff _ handsOff => exact handsOff.artifacts ▸ .refl _
  | accepted _ accepts => exact accepts.artifacts ▸ .refl _
  | evaluated _ _ _ _ decides => exact refiled_follows (decides_artifacts decides)
  | registered _ _ _ _ decides =>
    have hfollows := refiled_follows (decides_artifacts decides)
    exact hfollows
  | baselineSet _ sets => exact sets.artifacts ▸ .refl _
  | opened _ _ opens => exact refiled_follows opens.writes.artifacts
  | ingested _ _ _ opens => exact refiled_follows opens.writes.artifacts
  | reopened _ reopens => exact refiled_follows reopens.writes.artifacts
  | resolved _ resolves =>
    obtain ⟨start, hlinked, writes⟩ := resolves.writes
    exact (linked_follows hlinked).trans (refiled_follows writes.artifacts)

/-- A new reservation for a source of a case, with the request that it made. -/
def Reservation (s : Step) (case_id source_id request_id : Identifier) : Prop :=
  s.Committed ∧ s.response.result = .sourceReserved request_id ∧
    ∃ actor cmd desk resource snapshot force_refresh,
      s.call = .reserveSource actor cmd desk case_id source_id resource snapshot force_refresh

theorem sourceKey_inj {case_id case_id' source_id source_id' : Identifier}
    (h : sourceKey case_id source_id = sourceKey case_id' source_id') :
    case_id = case_id' ∧ source_id = source_id' := by
  simpa only [sourceKey, digest_inj, true_and, texts_inj, List.cons.injEq, and_true] using h

/-- After an event, a guard demands something if those before it did. -/
def Guarding (w : Workspace) : Prop :=
  ∀ k g, w.artifacts.get? k = some (.policyGuard g) → Demanding g.floor

/-- A head points to the reservation of this step, or to what it pointed to
before a step without one. -/
structure Redirects (s : Step) (w m : Workspace) : Prop where
  guards : Guarding w → Guarding m
  heads : ∀ case_id source_id h, m.artifacts.get? (sourceKey case_id source_id) = some (.head h) →
    Reservation s case_id source_id h.request_id ∨
      (∀ request_id, ¬ Reservation s case_id source_id request_id) ∧
        ∃ p, w.artifacts.get? (sourceKey case_id source_id) = some (.head p) ∧
          p.request_id = h.request_id

omit [CollisionFree] in
theorem redirects_of_follows (h : Follows w.artifacts m.artifacts)
    (hnone : ∀ case_id source_id request_id, ¬ Reservation s case_id source_id request_id) :
    Redirects s w m where
  guards hw k g hg := by
    rcases h.guards k g hg with hold | hnew
    · exact hw k g hold
    · exact hnew
  heads case_id source_id head hhead :=
    Or.inr ⟨hnone case_id source_id, h.heads _ head hhead⟩

theorem redirects_of_happened (h : Happened s w tx m result) (hcommitted : s.Committed) :
    Redirects s w m := by
  obtain ⟨svc, env, call, pre, post, response⟩ := s
  have hprepared := h.commits.prepared
  have hchanged := h.commits.changed
  have hresult : response.result = result := by
    rw [show response = _ from h.commits.response]
    rfl
  have hother : (∀ actor cmd desk case_id source_id resource snapshot force_refresh,
      call ≠ .reserveSource actor cmd desk case_id source_id resource snapshot force_refresh) →
      Redirects ⟨svc, env, call, pre, post, response⟩ w m := by
    intro hcall
    refine redirects_of_follows (effect_follows h.effect hcall) ?_
    rintro case_id source_id request_id ⟨_, _, actor, cmd, desk, resource, snapshot, force, heq⟩
    exact hcall _ _ _ _ _ _ _ _ heq
  cases call with
  | reserveSource actor cmd desk case_id source_id resource snapshot force_refresh =>
    have hp := inTransaction_transaction hprepared
    simp only [reserveSource, bind_eq_ok, pure_eq_ok] at hp
    obtain ⟨acq, hacq, rfl⟩ := hp
    have hsource := openCollection_ok hacq
    have hchange : reserveChange desk env actor cmd case_id acq force_refresh w
        (w.revision + 1) = .ok (m, result) := hchanged
    rcases reserveChange_follows h.kept.archived hchange with ⟨r, hcached, hfollows⟩ |
      ⟨hreserved, hdisplaces⟩
    · refine redirects_of_follows hfollows ?_
      rintro c source request_id ⟨_, hanswer, _⟩
      rw [show _ = _ from hanswer, hcached] at hresult
      cases hresult
    · rw [hsource] at hdisplaces
      have hreservation : Reservation
          ⟨svc, env, .reserveSource actor cmd desk case_id source_id resource snapshot force_refresh,
            pre, post, response⟩ case_id source_id (fetchId actor cmd) :=
        ⟨hcommitted, hresult.trans hreserved, actor, cmd, desk, resource, snapshot, force_refresh,
          rfl⟩
      refine ⟨?_, ?_⟩
      · intro hw k g hg
        rcases hdisplaces.guards k g hg with hold | hnew
        · exact hw k g hold
        · exact hnew
      · intro c source head hhead
        by_cases hkey : sourceKey c source = sourceKey case_id source_id
        · obtain ⟨rfl, rfl⟩ := sourceKey_inj hkey
          rw [hdisplaces.own head hhead]
          exact Or.inl hreservation
        · refine Or.inr ⟨?_, hdisplaces.heads _ head hkey hhead⟩
          rintro request_id ⟨_, _, _, _, _, _, _, _, heq⟩
          cases heq
          exact hkey rfl
  | _ => exact hother (by rintro _ _ _ _ _ _ _ _ ⟨⟩)

/-- The latest reservation for a source of a case in a run, and its request. -/
def Latest (steps : List Step) (case_id source_id request_id : Identifier) : Prop :=
  ∃ before s after, steps = before ++ s :: after ∧ Reservation s case_id source_id request_id ∧
    ∀ t ∈ after, ∀ request_id', ¬ Reservation t case_id source_id request_id'

omit [Sha256] [CollisionFree] in
theorem Latest.later {case_id source_id request_id : Identifier}
    (h : Latest steps case_id source_id request_id)
    (hnone : ∀ request_id', ¬ Reservation s case_id source_id request_id') :
    Latest (steps ++ [s]) case_id source_id request_id := by
  obtain ⟨before, t, after, rfl, hreserved, hlast⟩ := h
  refine ⟨before, t, after ++ [s], by simp, hreserved, ?_⟩
  intro t' ht'
  rcases List.mem_append.mp ht' with hbefore | hnow
  · exact hlast t' hbefore
  · rw [List.mem_singleton.mp hnow]
    exact hnone

/-- Every stored head points to the latest reservation for its source. -/
theorem latest_of_run {st : Option Workspace} (h : Run casework steps st) :
    ∀ w, st = some w → ∀ case_id source_id head,
      w.artifacts.get? (sourceKey case_id source_id) = some (.head head) →
        Latest steps case_id source_id head.request_id := by
  induction h with
  | start =>
    intro w hw
    cases hw
  | @next steps s hrun hnow ih =>
    intro w hw case_id source_id head hhead
    have hw : s.post = some w := hw
    rcases step_cases hrun hnow with ⟨hcommitted, w0, tx, m, result, hh⟩ | ⟨hno, hsame⟩
    · rw [hh.commits.post] at hw
      cases hw
      rcases (redirects_of_happened hh hcommitted).heads case_id source_id head hhead with
        hreserved | ⟨hnone, p, hp, hpoints⟩
      · exact ⟨steps, s, [], rfl, hreserved, by simp⟩
      · rcases hh.before with hbefore | ⟨_, tenant_id, rfl⟩
        · have hlatest := ih w0 hbefore case_id source_id p hp
          rw [hpoints] at hlatest
          exact hlatest.later hnone
        · simp [sealed, Workspace.blank] at hp
    · refine (ih w (hsame.symm.trans hw) case_id source_id head hhead).later ?_
      rintro request_id ⟨hcommitted, _⟩
      exact hno hcommitted

theorem guarding_of_run {st : Option Workspace} (h : Run casework steps st) :
    ∀ w, st = some w → Guarding w := by
  induction h with
  | start =>
    intro w hw
    cases hw
  | @next steps s hrun hnow ih =>
    intro w hw
    have hw : s.post = some w := hw
    rcases step_cases hrun hnow with ⟨hcommitted, w0, tx, m, result, hh⟩ | ⟨_, hsame⟩
    · rw [hh.commits.post] at hw
      cases hw
      refine (redirects_of_happened hh hcommitted).guards ?_
      rcases hh.before with hbefore | ⟨_, tenant_id, rfl⟩
      · exact ih w0 hbefore
      · intro k g hg
        simp [sealed, Workspace.blank] at hg
    · exact ih w (hsame.symm.trans hw)

end Following

section Owing

variable [CollisionFree] {w : Workspace} {case_id : Identifier}

/-- What obliges a case to evidence. A bundle does if it makes a configured
policy necessary. -/
inductive Obliging : Artifact → Prop
  | request (q : SourceRequest) : Obliging (.request q)
  | head (h : SourceHead) : Obliging (.head h)
  | receipt (r : SourceReceipt) : Obliging (.receipt r)
  | guard (g : PolicyGuard) : Obliging (.policyGuard g)
  | bundle {b : ReportBundle} (required : bundleRequires b.bundle = true) :
    Obliging (.reportBundle b)

/-- A source obligation of the case is stored. -/
def Owing (w : Workspace) (case_id : Identifier) : Prop :=
  ∃ a ∈ w.artifacts.values, a.case_id = some case_id ∧ Obliging a

omit [Sha256] [CollisionFree] in
theorem hasObligations_of_owing (hrecent : ∀ a ∈ w.artifacts.values, Recent a)
    (hguards : Guarding w) (h : Owing w case_id) : HasObligations w case_id := by
  obtain ⟨a, ha, hcase, hobliges⟩ := h
  have hle := owedTo_le_obligations case_id hrecent ha
  rw [owedTo, if_pos hcase] at hle
  have hsource : ∀ s, s ∈ (owed a).required_sources → HasObligations w case_id := by
    intro s hs
    left
    exact List.ne_nil_of_mem (hle.1 s hs)
  cases hobliges with
  | request q => exact hsource q.source_id (by simp [owed])
  | head h => exact hsource h.source_id (by simp [owed])
  | receipt r => exact hsource r.source_id (by simp [owed])
  | guard g =>
    obtain ⟨key, hkey⟩ := Dict.exists_get?_of_mem_values ha
    rcases hguards key g hkey with hsources | hconfigured
    · obtain ⟨s, hs⟩ := List.exists_mem_of_ne_nil _ hsources
      exact hsource s hs
    · exact Or.inr (hle.2.2 hconfigured)
  | bundle required => exact Or.inr (hle.2.2 required)

end Owing

section Backing

variable [CollisionFree] {steps : List Step} {desk : EvidenceDesk} {w : Workspace}
  {case : RiskCase} {time : Instant} {r : SourceReceipt} {receipts : List SourceReceipt}

/-- A receipt of a source that can be relied on at a time: it is live, of the
current version of the case and the current spec of the source, and answers the
latest reservation for it. -/
structure Backs (steps : List Step) (desk : EvidenceDesk) (w : Workspace) (case : RiskCase)
    (time : Instant) (source_id : Identifier) (r : SourceReceipt) : Prop where
  stored : w.artifacts.get? r.receipt_id = some (.receipt r)
  about : r.case_id = case.case_id ∧ r.source_id = source_id
  version : r.case_version = case.version
  live : time < r.expires_at
  configured : ∃ spec, desk.specs.get? source_id = some spec ∧
    r.source_spec_hash = specHash spec ∧ r.independence_group = spec.independence_group
  reserved : ∃ q, w.artifacts.get? q.request_id = some (.request q) ∧
    q.receipt_id = some r.receipt_id ∧ q.state = .observed ∧ q.case_version = case.version ∧
    Latest steps case.case_id source_id q.request_id

omit [CollisionFree] in
/-- Every accepted receipt is that of the head of a source. -/
theorem usable_of_mem {case_id : Identifier} {specs : Dict Identifier SourceSpec}
    {rejected : List Rejection} (h : currentReceipts w case_id time specs = .ok (receipts, rejected))
    (hr : r ∈ receipts) : ∃ heads case source_id head, evidenceHeads w case_id = .ok heads ∧
      w.cases.get? case_id = some case ∧ heads.get? source_id = some head ∧
      usableReceipt w case_id case time specs source_id head = .ok r := by
  simp only [currentReceipts, item, bind_eq_ok, fetch_eq_ok, pure_eq_ok, Prod.mk.injEq] at h
  obtain ⟨heads, hheads, case, hcase, rfl, _⟩ := h
  obtain ⟨o, ho, hr⟩ := List.mem_filterMap.mp hr
  obtain ⟨e, he, rfl⟩ := List.mem_map.mp ho
  refine ⟨heads, case, e.1, e.2, hheads, hcase, Dict.get?_eq_some_iff.mpr (mem_byKey.mp he), ?_⟩
  cases hu : usableReceipt w case_id case time specs e.1 e.2 with
  | ok r' =>
    rw [hu] at hr
    exact congrArg Except.ok (Option.some.inj hr)
  | error reason =>
    rw [hu] at hr
    cases hr

theorem backs_of_current {rejected : List Rejection} (h : Run casework steps (some w))
    (hc : w.cases.get? case.case_id = some case)
    (hcurrent : currentReceipts w case.case_id time desk.specs = .ok (receipts, rejected))
    (hr : r ∈ receipts) : Backs steps desk w case time r.source_id r := by
  have hfiled := (kept_of_run h w rfl).filed
  obtain ⟨heads, c, source_id, head, hheads, hc', hhead, hu⟩ := usable_of_mem hcurrent hr
  have hsame := Option.some.inj (hc'.symm.trans hc)
  subst hsame
  obtain ⟨spec, q, hu⟩ := usableReceipt_eq_ok.mp hu
  obtain ⟨hcase, hversion, hsource, hreceipt⟩ := hu.bound
  obtain ⟨heads', hheads', hget⟩ := evidenceHeads_ok hfiled hc
  have heq := Except.ok.inj (hheads'.symm.trans hheads)
  subst heq
  have hstored := (hget source_id head).mp hhead
  have hlatest := latest_of_run h w rfl c.case_id source_id head hstored.1
  have hasked : head.request_id = q.request_id := (hfiled _ _ hu.asked).1
  rw [hasked] at hlatest
  have hkept := hu.stored
  rw [hreceipt] at hkept
  refine ⟨hkept, ⟨hcase, rfl⟩, hversion, hu.live, ?_, ?_⟩
  · rw [hsource]
    exact ⟨spec, hu.configured, hu.allowed.2.2, hu.request.2.2.2.2.2.2.2⟩
  · rw [hsource]
    exact ⟨q, hasked ▸ hu.asked, hu.request.2.2.2.2.1, hu.request.1, hu.request.2.2.2.1, hlatest⟩

/-- The evidence of a case at a time, complete for all that the case owes and
all that is configured for it. -/
structure Rests (steps : List Step) (desk : EvidenceDesk) (w : Workspace) (case : RiskCase)
    (time : Instant) (value : EvidenceContext) : Prop where
  recomputed : context desk w case.case_id time = .ok value
  undisputed : value.source_conflicts = []
  accepted : value.rejected = []
  backed : ∀ source_id, source_id ∈ (obligations w case.case_id).required_sources ∨
    source_id ∈ requiredBy (policy desk w case) → ∃ r, Backs steps desk w case time source_id r
  independent : ∃ groups : List Identifier, groups.Nodup ∧
    (∀ group ∈ groups, ∃ source_id ∈ (obligations w case.case_id).required_sources,
      ∃ r, Backs steps desk w case time source_id r ∧ r.independence_group = group) ∧
    (obligations w case.case_id).min_independence_groups ≤ groups.length ∧
    groupsBy (policy desk w case) ≤ groups.length

theorem rests_of_context {value : EvidenceContext} (h : Run casework steps (some w))
    (hc : w.cases.get? case.case_id = some case)
    (hcontext : context desk w case.case_id time = .ok value)
    (hcomplete : value.coverage_complete = true) : Rests steps desk w case time value := by
  obtain ⟨c, floor, receipts, hof⟩ := context_ok hcontext
  have hsame := Option.some.inj (hof.stored.symm.trans hc)
  subst hsame
  obtain ⟨hrejected, hconflicts, hcovered, hgroups⟩ := hof.complete.mp hcomplete
  obtain ⟨hstored, hpolicy, _⟩ := effectivePolicy_ok hof.effective
  have hbacks : ∀ r ∈ receipts, Backs steps desk w c time r.source_id r :=
    fun r hr => backs_of_current h hc hof.current hr
  have hcurrent := hof.current
  rw [hrejected] at hcurrent
  have howed : ∀ r ∈ receipts, r.source_id ∈ (obligations w c.case_id).required_sources := by
    intro r hr
    obtain ⟨hcase, hmem⟩ := currentReceipts_stored hcurrent hr
    have hle := owedTo_le_obligations c.case_id (kept_of_run h w rfl).recent hmem
    have habout : (Artifact.receipt r).case_id = some c.case_id := congrArg some hcase
    rw [owedTo, if_pos habout] at hle
    exact hle.1 r.source_id (by simp [owed])
  refine ⟨hcontext, hconflicts, hrejected, ?_, coveringGroups floor.required_sources receipts,
    List.nodup_dedup _, ?_, le_trans hstored.2.1 hgroups, ?_⟩
  · intro source_id hrequired
    have hfloor : source_id ∈ floor.required_sources := by
      rcases hrequired with howes | hconfigured
      · exact hstored.1 _ howes
      · cases hp : policy desk w c with
        | none => simp [hp, requiredBy] at hconfigured
        | some p =>
          rw [hp] at hconfigured
          exact (hpolicy p hp).1 _ hconfigured
    obtain ⟨r, hr, rfl⟩ := List.mem_map.mp (hcovered source_id hfloor)
    exact ⟨r, hbacks r hr⟩
  · intro group hgroup
    simp only [coveringGroups, List.mem_dedup] at hgroup
    obtain ⟨r, hr, rfl⟩ := List.mem_map.mp hgroup
    have hr : r ∈ receipts := by
      split at hr
      · exact hr
      · exact (List.mem_filter.mp hr).1
    exact ⟨r.source_id, howed r hr, r, hbacks r hr, rfl⟩
  · cases hp : policy desk w c with
    | none => exact Nat.zero_le _
    | some p => exact le_trans (hpolicy p hp).2.1 hgroups

end Backing

section Resolving

variable [CollisionFree] {steps : List Step} {s : Step} {desk : EvidenceDesk} {w : Workspace}
  {case : RiskCase} {report : Report} {time : Instant} {evidence_digest : Digest}

omit [CollisionFree] in
/-- What both gates read of a case that needs evidence. -/
theorem reportContext_of_gate {external : Option EvidenceContext}
    (hc : w.cases.get? case.case_id = some case)
    (hdemands : Demands desk w case.case_id case)
    (h : reportContext desk w case.case_id time = .ok external) :
    ∃ value, external = some value ∧ context desk w case.case_id time = .ok value := by
  cases external with
  | none => exact absurd hdemands ((reportContext_none_iff hc).mp h)
  | some value => exact ⟨value, rfl, reportContext_some h⟩

omit [CollisionFree] in
theorem validateReport_ok (hc : w.cases.get? case.case_id = some case)
    (hdemands : Demands desk w case.case_id case)
    (h : validateReport desk w case report time = .ok ()) :
    ∃ value, context desk w case.case_id time = .ok value ∧
      (inspections report).map TraceEvent.output_hash =
        [some (digest "tool-output" value.toJson)] ∧ value.coverage_complete = true := by
  simp only [validateReport, bind_eq_ok] at h
  obtain ⟨external, hexternal, h⟩ := h
  obtain ⟨value, rfl, hvalue⟩ := reportContext_of_gate hc hdemands hexternal
  simp only [bind_eq_ok, ensure_eq_ok] at h
  obtain ⟨_, hinspected, _, _, hcomplete⟩ := h
  exact ⟨value, hvalue, hinspected, hcomplete⟩

omit [CollisionFree] in
theorem resolution_ok (hc : w.cases.get? case.case_id = some case)
    (hdemands : Demands desk w case.case_id case)
    (h : SourceService.resolution desk w case evidence_digest time = .ok ()) :
    ∃ value, context desk w case.case_id time = .ok value ∧
      value.coverage_complete = true ∧ evidence_digest = value.bundle_root := by
  simp only [SourceService.resolution, bind_eq_ok] at h
  obtain ⟨external, hexternal, h⟩ := h
  obtain ⟨value, rfl, hvalue⟩ := reportContext_of_gate hc hdemands hexternal
  simp only [bind_eq_ok, ensure_eq_ok] at h
  obtain ⟨_, _, hcomplete, hroot⟩ := h
  exact ⟨value, hvalue, hcomplete, hroot⟩

omit [Sha256] [CollisionFree] in
/-- The lists that a context shows are empty or not in every context written alike. -/
theorem shown_of_toJson {a b : EvidenceContext} (h : a.toJson = b.toJson) {k : String}
    (hk : k ≠ "bundle_root") {l l' : List Json} (ha : Dict.find k a.body = some (.arr l))
    (hb : Dict.find k b.body = some (.arr l')) (hnone : l' = []) : l = [] := by
  have hfield : field k a.toJson = field k b.toJson := congrArg (field k) h
  rw [EvidenceContext.toJson, (context_extended a).field_other hk, ha, EvidenceContext.toJson,
    (context_extended b).field_other hk, hb, hnone] at hfield
  simpa using hfield

omit [Sha256] [CollisionFree] in
theorem root_of_toJson {a b : EvidenceContext} (h : a.toJson = b.toJson) :
    a.bundle_root = b.bundle_root := by
  have hfield : field "bundle_root" a.toJson = field "bundle_root" b.toJson :=
    congrArg (field "bundle_root") h
  rw [EvidenceContext.toJson, (context_extended a).field_added, EvidenceContext.toJson,
    (context_extended b).field_added] at hfield
  simpa using hfield

/-- What a case that owes evidence is resolved on: a desk, the bundle of its
report, and the same evidence computed again, at both times it is looked at. -/
structure Evidenced (steps : List Step) (s : Step) (w : Workspace) (case : RiskCase)
    (report : Report) (evidence_digest : Digest) (desk : EvidenceDesk) (b : ReportBundle)
    (value : EvidenceContext) : Prop where
  present : s.svc.evidence_desk = some desk
  stored : w.artifacts.get? (reportSourcesKey report.report_id) = some (.reportBundle b)
  same : b.bundle.toJson = value.toJson
  root : evidence_digest = b.bundle.bundle_root
  undisputed : b.bundle.source_conflicts = []
  accepted : b.bundle.rejected = []
  reported : Rests steps desk w case (s.env.clock .report) value
  resolved : Rests steps desk w case (s.env.clock .resolution) value

theorem evidenced_of_gates {external : Option EvidenceContext}
    (h : Run casework steps (some w)) (hc : w.cases.get? case.case_id = some case)
    (hdesk : s.svc.evidence_desk = some desk) (hdemands : Demands desk w case.case_id case)
    (hholds : Holds w report external)
    (hreport : validateReport desk w case report (s.env.clock .report) = .ok ())
    (hresolution : SourceService.resolution desk w case evidence_digest
      (s.env.clock .resolution) = .ok ()) :
    ∃ b value, Evidenced steps s w case report evidence_digest desk b value := by
  obtain ⟨value, hvalue, hinspected, hcomplete⟩ := validateReport_ok hc hdemands hreport
  obtain ⟨value', hvalue', hcomplete', hroot⟩ := resolution_ok hc hdemands hresolution
  have hsame := context_unique hvalue hcomplete hvalue' hcomplete'
  subst hsame
  have hreported := rests_of_context h hc hvalue hcomplete
  have hresolved := rests_of_context h hc hvalue' hcomplete'
  rw [hholds.inspected] at hinspected
  cases external with
  | none => simp at hinspected
  | some recorded =>
    simp only [Option.map_some, Option.toList_some, List.cons.injEq, and_true, Option.some.injEq,
      digest_inj, true_and] at hinspected
    have hconflicts : recorded.source_conflicts.map SourceConflict.toJson = [] :=
      shown_of_toJson hinspected (k := "source_conflicts") (by decide) rfl rfl
        (by rw [hreported.undisputed]; rfl)
    have hrejected : recorded.rejected.map Rejection.toJson = [] :=
      shown_of_toJson hinspected (k := "rejected") (by decide) rfl rfl
        (by rw [hreported.accepted]; rfl)
    exact ⟨bundleOf report recorded, value, hdesk, hholds.filed, hinspected,
      hroot.trans (root_of_toJson hinspected).symm, List.map_eq_nil_iff.mp hconflicts,
      List.map_eq_nil_iff.mp hrejected, hreported, hresolved⟩

/-- Whenever a case that owes evidence is resolved, or one with a configured
policy, it is on the evidence of its report, which is still current and complete. -/
theorem resolution_evidenced {before after : List Step} {st : Option Workspace} {actor : Actor}
    {cmd : Command} {case_id handoff_id : Identifier} {resolution : Resolution}
    (h : Run casework (before ++ s :: after) st) (hcommitted : s.Committed)
    (hcall : s.call = .resolve actor cmd case_id handoff_id resolution evidence_digest) :
    ∃ w case handoff report, s.pre = some w ∧ w.cases.get? case_id = some case ∧
      case.case_id = case_id ∧ w.handoffs.get? handoff_id = some handoff ∧
      w.reports.get? handoff.report_id = some report ∧
      (Owing w case_id ∨ (∃ desk ∈ s.svc.evidence_desk, policy desk w case ≠ none) →
        ∃ desk b value, Evidenced before s w case report evidence_digest desk b value) := by
  obtain ⟨hpre, hnow, _⟩ := h.at_step
  rcases step_cases hpre hnow with ⟨_, w, tx, m, result, hh⟩ | ⟨hno, _⟩
  · have heffect := hh.effect
    rw [hcall] at heffect
    cases heffect with
    | filed plain _ _ => exact absurd plain id
    | @resolved _ _ _ _ _ _ _ _ case handoff report _ resolves =>
      have hknown := resolves.known
      have hid := hh.kept.cases _ _ hknown
      subst hid
      have hstored : s.pre = some w := by
        rcases hh.before with hbefore | ⟨_, tenant_id, rfl⟩
        · exact hbefore
        · simp [sealed, Workspace.blank] at hknown
      have hrun : Run casework before (some w) := hstored ▸ hpre
      refine ⟨w, case, handoff, report, hstored, hknown, rfl, resolves.handedOff,
        resolves.stands.stored, ?_⟩
      intro howing
      obtain ⟨external, _, hholds⟩ :=
        made_of_run hrun w rfl handoff.report_id report resolves.stands.stored
      have hobliged : Owing w case.case_id → HasObligations w case.case_id :=
        hasObligations_of_owing hh.kept.recent (guarding_of_run hrun w rfl)
      have hpresent := resolves.stands.present
      simp only [requireDesk, ensure_eq_ok] at hpresent
      cases hdesk : s.svc.evidence_desk with
      | none =>
        exfalso
        rcases howing with howing | ⟨desk, hsome, _⟩
        · exact hpresent ⟨by simp [hdesk], Or.inr (hobliged howing)⟩
        · simp [hdesk] at hsome
      | some desk =>
        have hdemands : Demands desk w case.case_id case := by
          rcases howing with howing | ⟨d, hsome, hpolicy⟩
          · exact Or.inr (hobliged howing)
          · rw [hdesk] at hsome
            cases Option.mem_def.mp hsome
            exact Or.inl hpolicy
        obtain ⟨b, value, hevidenced⟩ := evidenced_of_gates hrun hknown hdesk hdemands hholds
          (resolves.stands.evidence desk hdesk) (resolves.evidence desk hdesk)
        exact ⟨desk, b, value, hevidenced⟩
  · exact absurd hcommitted hno

omit [Sha256] [CollisionFree] in
/-- The tracker's case is resolved on what the tracker showed. -/
theorem tracker_resolution_evidenced : letI := spelling
    ∃ before s w case report evidence_digest desk b value,
      Run casework (before ++ [s]) s.post ∧ s.Committed ∧ s.pre = some w ∧
        Owing w case.case_id ∧
        Evidenced before s w case report evidence_digest desk b value := by
  let _ := spelling
  have := spelling_collisionFree
  obtain ⟨steps, s, before, after, c, report, value, h, _, hrequired, _⟩ :=
    ReviewPath.exists_concluded
  obtain ⟨cmd, handoff_id, hcall⟩ := h.call
  have hpost : some after = s.post := h.run.snoc.2.2
  have hrun : Run casework (steps ++ s :: []) s.post := hpost ▸ h.run
  have howing : Owing before c.case_id := by
    refine ⟨_, Dict.mem_values_of_get? (h.review.bundled value rfl), ?_, .bundle hrequired⟩
    exact congrArg some h.review.about
  obtain ⟨w, case, handoff, report', hpre, hc, hid, _, _, hevidenced⟩ :=
    resolution_evidenced hrun h.committed hcall
  have hsame : w = before := Option.some.inj (hpre.symm.trans h.pre)
  subst hsame
  rw [← hid] at howing hevidenced
  obtain ⟨desk, b, value', hresult⟩ := hevidenced (Or.inl howing)
  exact ⟨steps, s, w, case, report', _, desk, b, value', hrun, h.committed, hpre, howing, hresult⟩

end Resolving

end MemoryGuard.ResolvedEvidence
