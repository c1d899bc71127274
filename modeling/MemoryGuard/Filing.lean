import MemoryGuard.Calls
import MemoryGuard.Floors
import MemoryGuard.Policy

/-!
Where artifacts are filed. The key of an artifact is a digest under a domain of
its kind, or an identifier with a stem of its kind; so writing one kind never
overwrites another. Most writes are ordinary: they leave the resolution links
and the report bundles as they are, point no head elsewhere, and take nothing
from what a case is obliged to.
-/
namespace MemoryGuard.Filing

open OrderedDict Guarded DependencyGraph JsonText ContentHash Models Artifacts Aggregate Core
open SourceModels SourceState SourceGuard SourceService Transactions TaskCommands CaseCommands
open SourceCommands PartnerCommands Floors

/-- How the keys of a kind of artifact are formed. -/
inductive Drawer
  | hashed (domain : String)
  | named (stem : String)
  deriving DecidableEq

def drawer : Artifact → Drawer
  | .escalation _ => .hashed "escalation-artifact"
  | .review _ => .hashed "review-artifact"
  | .resolutionProof _ => .hashed "resolution-link"
  | .attempt _ => .named "investigation"
  | .policyGuard _ => .hashed "source-policy-guard"
  | .request _ => .named "fetch"
  | .head _ => .hashed "source-head"
  | .receipt _ => .named "source"
  | .reportBundle _ => .hashed "report-sources-key"
  | .mission _ => .named "mission"
  | .reviewPlan _ => .named "acpreview"
  | .anchor _ => .named "anchor"
  | .incident _ => .named "incident"

def Drawer.Plain : Drawer → Prop
  | .hashed _ => True
  | .named stem => '_' ∉ stem.toList

theorem drawer_plain (a : Artifact) : (drawer a).Plain := by
  cases a <;> simp [drawer, Drawer.Plain]

/-- The first underscore of an identifier ends its stem. -/
theorem newId_stem_inj {s s' u u' : String} (hs : '_' ∉ s.toList) (hs' : '_' ∉ s'.toList)
    (h : newId s u = newId s' u') : s = s' ∧ u = u' := by
  have hlist : s.toList ++ '_' :: u.toList = s'.toList ++ '_' :: u'.toList := by
    have := congrArg String.toList h
    simpa [newId, String.toList_append] using this
  rcases List.append_eq_append_iff.mp hlist with ⟨m, hm, hrest⟩ | ⟨m, hm, hrest⟩
  · cases m with
    | nil =>
      simp only [List.nil_append, List.cons.injEq, true_and, List.append_nil] at hm hrest
      exact ⟨(String.toList_inj.mp hm).symm, String.toList_inj.mp hrest⟩
    | cons b m =>
      simp only [List.cons_append, List.cons.injEq] at hrest
      exact absurd (by rw [hm, ← hrest.1]; simp) hs'
  · cases m with
    | nil =>
      simp only [List.nil_append, List.cons.injEq, true_and, List.append_nil] at hm hrest
      exact ⟨String.toList_inj.mp hm, (String.toList_inj.mp hrest).symm⟩
    | cons b m =>
      simp only [List.cons_append, List.cons.injEq] at hrest
      exact absurd (by rw [hm, ← hrest.1]; simp) hs

variable [Sha256]

def InDrawer (key : String) : Drawer → Prop
  | .hashed domain => ∃ payload, key = digest domain payload
  | .named stem => ∃ uuid, key = newId stem uuid

/-- Keys of different drawers differ. -/
theorem inDrawer_unique [CollisionFree] {key : String} {d e : Drawer} (hd : d.Plain)
    (he : e.Plain) (h : InDrawer key d) (h' : InDrawer key e) : d = e := by
  cases d with
  | hashed domain =>
    obtain ⟨p, rfl⟩ := h
    cases e with
    | hashed domain' =>
      obtain ⟨p', hp⟩ := h'
      rw [(digest_inj.mp hp).1]
    | named stem =>
      obtain ⟨u, hu⟩ := h'
      exact absurd hu digest_ne_newId
  | named stem =>
    obtain ⟨u, rfl⟩ := h
    cases e with
    | hashed domain =>
      obtain ⟨p, hp⟩ := h'
      exact absurd hp.symm digest_ne_newId
    | named stem' =>
      obtain ⟨u', hu⟩ := h'
      rw [(newId_stem_inj hd he hu).1]

/-- The key an artifact is filed under. -/
def Fits (key : String) : Artifact → Prop
  | .escalation a => key = escalationKey a.task_id a.decision_id
  | .review a => key = reviewKey a.task_id a.decision_id
  | .resolutionProof a => key = resolutionLinkKey a.case_id a.case_version
  | .attempt a => key = a.attempt_id ∧ ∃ x, key = newId "investigation" x
  | .policyGuard a => key = guardKey a.case_id
  | .request a => key = a.request_id ∧ ∃ x, key = newId "fetch" x
  | .head a => key = sourceKey a.case_id a.source_id
  | .receipt a => key = a.receipt_id ∧ ∃ x, key = newId "source" x
  | .reportBundle a => key = reportSourcesKey a.report_id
  | .mission a => key = a.mission_id ∧ ∃ x, key = newId "mission" x
  | .reviewPlan a => key = a.plan_id ∧ ∃ x, key = newId "acpreview" x
  | .anchor a => key = a.anchor_id ∧ ∃ x, key = newId "anchor" x
  | .incident _ => ∃ x, key = newId "incident" x

theorem Fits.inDrawer {key : String} {a : Artifact} (h : Fits key a) : InDrawer key (drawer a) := by
  cases a with
  | attempt a => exact h.2
  | request a => exact h.2
  | receipt a => exact h.2
  | mission a => exact h.2
  | reviewPlan a => exact h.2
  | anchor a => exact h.2
  | incident a => exact h
  | escalation a => exact ⟨_, h⟩
  | review a => exact ⟨_, h⟩
  | resolutionProof a => exact ⟨_, h⟩
  | policyGuard a => exact ⟨_, h⟩
  | head a => exact ⟨_, h⟩
  | reportBundle a => exact ⟨_, h⟩

theorem Fits.drawer_eq [CollisionFree] {key : String} {a b : Artifact} (ha : Fits key a)
    (hb : Fits key b) : drawer a = drawer b :=
  inDrawer_unique (drawer_plain a) (drawer_plain b) ha.inDrawer hb.inDrawer

/-- Every stored artifact is filed under its own key. -/
def Filed (artifacts : Dict String Artifact) : Prop :=
  ∀ key a, artifacts.get? key = some a → Fits key a

theorem Filed.set {artifacts : Dict String Artifact} (h : Filed artifacts) {key : String}
    {a : Artifact} (ha : Fits key a) : Filed (artifacts.set key a) := by
  intro k b hb
  rw [Dict.get?_set] at hb
  split at hb
  · cases hb
    subst k
    exact ha
  · exact h k b hb

section Writes

/-- What most commands may put over `old`. Resolution links, report bundles and
new reservations are each written by one command only. -/
def Ordinary (old : Option Artifact) : Artifact → Prop
  | .resolutionProof _ => False
  | .reportBundle _ => False
  | .policyGuard g => (∀ p, old = some (.policyGuard p) → p.floor ≤ g.floor) ∧ Demanding g.floor
  | .request q => ∃ p, old = some (.request p) ∧ p.case_id = q.case_id ∧ p.source_id = q.source_id
  | .head h => ∃ p, old = some (.head p) ∧ p.request_id = h.request_id
  | .receipt _ => old = none
  | _ => True

/-- A sequence of ordinary writes. -/
inductive Refiled (start : Dict String Artifact) : Dict String Artifact → Prop
  | refl : Refiled start start
  | set {now : Dict String Artifact} (h : Refiled start now) {k : String} {a : Artifact}
      (fits : Fits k a) (plain : Ordinary (now.get? k) a) : Refiled start (now.set k a)

theorem Refiled.single {start : Dict String Artifact} {key : String} {a : Artifact}
    (fits : Fits key a) (plain : Ordinary (start.get? key) a) : Refiled start (start.set key a) :=
  .set .refl fits plain

theorem Refiled.trans {d e f : Dict String Artifact} (h : Refiled d e) (h' : Refiled e f) :
    Refiled d f := by
  induction h' with
  | refl => exact h
  | set _ fits plain ih => exact .set ih fits plain

theorem Refiled.filed {d e : Dict String Artifact} (h : Refiled d e) (hd : Filed d) : Filed e := by
  induction h with
  | refl => exact hd
  | set _ fits _ ih => exact ih.set fits

variable [CollisionFree] {key : String} {a : Artifact}

/-- Two artifacts under one key are of one kind. -/
theorem Filed.drawer_eq {d : Dict String Artifact} (hd : Filed d) {old : Artifact}
    (hold : d.get? key = some old) (fits : Fits key a) : drawer old = drawer a :=
  (hd key old hold).drawer_eq fits

end Writes

section Links

/-- The resolution proof of some cases in one entry, if it has one. -/
def linkEntry (case_ids : List Identifier) (e : String × Artifact) :
    Option (String × ResolutionProof) :=
  match e.2 with
  | .resolutionProof p => if p.case_id ∈ case_ids then some (e.1, p) else none
  | _ => none

omit [Sha256] in
theorem resolutionLinks_eq (state : Workspace) (case_ids : List Identifier) :
    resolutionLinks state case_ids = state.artifacts.entries.filterMap (linkEntry case_ids) := rfl

omit [Sha256] in
theorem linkEntry_of_nolink {case_ids : List Identifier} {key : String} {a : Artifact}
    (h : drawer a ≠ .hashed "resolution-link") : linkEntry case_ids (key, a) = none := by
  cases a <;> simp_all [linkEntry, drawer]

omit [Sha256] in
theorem Ordinary.nolink {old : Option Artifact} {a : Artifact} (h : Ordinary old a) :
    drawer a ≠ .hashed "resolution-link" := by
  cases a with
  | resolutionProof a => exact absurd h id
  | _ => simp [drawer]

theorem links_set [CollisionFree] {artifacts : Dict String Artifact} (hfiled : Filed artifacts)
    {key : String} {a : Artifact} (fits : Fits key a)
    (nolink : drawer a ≠ .hashed "resolution-link") (case_ids : List Identifier) :
    (artifacts.set key a).entries.filterMap (linkEntry case_ids) =
      artifacts.entries.filterMap (linkEntry case_ids) := by
  apply Dict.filterMap_set_of_rejected
  · exact linkEntry_of_nolink nolink
  · intro b hb
    exact linkEntry_of_nolink (hfiled.drawer_eq hb fits ▸ nolink)

theorem Refiled.links [CollisionFree] {d e : Dict String Artifact} (h : Refiled d e)
    (hd : Filed d) (case_ids : List Identifier) :
    e.entries.filterMap (linkEntry case_ids) = d.entries.filterMap (linkEntry case_ids) := by
  induction h with
  | refl => rfl
  | set h fits plain ih => rw [links_set (h.filed hd) fits plain.nolink, ih]

end Links

section Evidence

variable [CollisionFree] {d e : Dict String Artifact} {key : String}

/-- A report bundle is overwritten by nothing but a report bundle. -/
theorem bundle_set_iff (hd : Filed d) {a : Artifact} (fits : Fits key a)
    (nobundle : drawer a ≠ .hashed "report-sources-key") {k : String} {b : ReportBundle} :
    (d.set key a).get? k = some (.reportBundle b) ↔ d.get? k = some (.reportBundle b) := by
  rw [Dict.get?_set]
  by_cases hk : key = k
  · subst hk
    simp only [if_true, Option.some.injEq]
    constructor
    · rintro rfl
      exact absurd rfl nobundle
    · intro hb
      exact absurd (hd.drawer_eq hb fits).symm nobundle
  · rw [if_neg hk]

omit [Sha256] [CollisionFree] in
theorem Ordinary.nobundle {old : Option Artifact} {a : Artifact} (h : Ordinary old a) :
    drawer a ≠ .hashed "report-sources-key" := by
  cases a with
  | reportBundle a => exact absurd h id
  | _ => simp [drawer]

theorem Refiled.bundle_iff (h : Refiled d e) (hd : Filed d) {b : ReportBundle} :
    e.get? key = some (.reportBundle b) ↔ d.get? key = some (.reportBundle b) := by
  induction h with
  | refl => rfl
  | set h fits plain ih => rw [bundle_set_iff (h.filed hd) fits plain.nobundle, ih]

omit [CollisionFree] in
theorem Refiled.request_of (h : Refiled d e) {q : SourceRequest}
    (he : e.get? key = some (.request q)) : ∃ p, d.get? key = some (.request p) := by
  induction h generalizing q with
  | refl => exact ⟨q, he⟩
  | set h fits plain ih =>
    rw [Dict.get?_set] at he
    split at he
    · rename_i hk
      subst hk
      cases he
      obtain ⟨p, hp, _⟩ := plain
      exact ih hp
    · exact ih he

omit [Sha256] [CollisionFree] in
/-- Every artifact is still there, or replaced by one that demands as much. -/
def Covers (d e : Dict String Artifact) : Prop :=
  ∀ key a, d.get? key = some a → ∃ b, e.get? key = some b ∧ ∀ c, owedTo c a ≤ owedTo c b

omit [Sha256] [CollisionFree] in
theorem Covers.refl (d : Dict String Artifact) : Covers d d :=
  fun _ a ha => ⟨a, ha, fun _ => le_refl _⟩

omit [Sha256] [CollisionFree] in
theorem Covers.trans {f : Dict String Artifact} (h : Covers d e) (h' : Covers e f) :
    Covers d f := by
  intro key a ha
  obtain ⟨b, hb, hab⟩ := h key a ha
  obtain ⟨b', hb', hbb'⟩ := h' key b hb
  exact ⟨b', hb', fun c => le_trans (hab c) (hbb' c)⟩

omit [Sha256] [CollisionFree] in
theorem Covers.set {a : Artifact}
    (h : ∀ old, d.get? key = some old → ∀ c, owedTo c old ≤ owedTo c a) :
    Covers d (d.set key a) := by
  intro k old hold
  by_cases hk : key = k
  · subst k
    exact ⟨a, Dict.get?_set_self .., h old hold⟩
  · exact ⟨old, by rw [Dict.get?_set_of_ne _ _ hk, hold], fun _ => le_refl _⟩

/-- An ordinary write demands at least what it overwrites. -/
theorem owedTo_le_of_ordinary {old a : Artifact} (hold : Fits key old) (fits : Fits key a)
    (plain : Ordinary (some old) a) (c : Identifier) : owedTo c old ≤ owedTo c a := by
  have hkind := hold.drawer_eq fits
  cases old with
  | policyGuard p =>
    cases a with
    | policyGuard g =>
      have hcase : p.case_id = g.case_id := by
        have hkey : guardKey p.case_id = guardKey g.case_id := hold.symm.trans fits
        simpa [guardKey] using hkey
      have hle := plain.1 p rfl
      unfold owedTo
      simp only [Artifact.case_id, hcase]
      by_cases hc : some g.case_id = some c
      · simp only [hc, if_true]
        exact hle
      · simp only [hc, if_false, le_refl]
    | _ => simp [drawer] at hkind
  | request p =>
    cases a with
    | request q =>
      obtain ⟨_, hp, hcase, hsource⟩ := plain
      cases hp
      simp [owedTo, owed, Artifact.case_id, hcase, hsource]
    | _ => simp [drawer] at hkind
  | head p =>
    cases a with
    | head h =>
      have hkey : sourceKey p.case_id p.source_id = sourceKey h.case_id h.source_id :=
        hold.symm.trans fits
      simp only [sourceKey, digest_inj, true_and, texts_inj, List.cons.injEq, and_true] at hkey
      simp [owedTo, owed, Artifact.case_id, hkey.1, hkey.2]
    | _ => simp [drawer] at hkind
  | receipt p =>
    cases a with
    | receipt r => simp [Ordinary] at plain
    | _ => simp [drawer] at hkind
  | reportBundle p =>
    cases a with
    | reportBundle b => exact absurd plain id
    | _ => simp [drawer] at hkind
  | _ =>
    unfold owedTo
    split
    · exact nothing_le _
    · exact nothing_le _

theorem Refiled.covers (h : Refiled d e) (hd : Filed d) : Covers d e := by
  induction h with
  | refl => exact Covers.refl _
  | set h fits plain ih =>
    refine ih.trans (Covers.set ?_)
    intro old hold
    exact owedTo_le_of_ordinary ((h.filed hd) _ old hold) fits (hold ▸ plain)

omit [Sha256] [CollisionFree] in
/-- What a case is obliged to only grows as long as artifacts are covered. -/
theorem Covers.obligations_le {w w' : Workspace} (h : Covers w.artifacts w'.artifacts)
    (hw : ∀ a ∈ w.artifacts.values, Recent a) (hw' : ∀ a ∈ w'.artifacts.values, Recent a)
    (c : Identifier) : obligations w c ≤ obligations w' c := by
  rw [obligations_le_iff hw]
  intro a ha
  obtain ⟨key, hkey⟩ := Dict.exists_get?_of_mem_values ha
  obtain ⟨b, hb, hab⟩ := h key a hkey
  exact le_trans (hab c) (owedTo_le_obligations _ hw' (Dict.mem_values_of_get? hb))

end Evidence

end MemoryGuard.Filing
