import MemoryGuard.Grouping
import MemoryGuard.SourceState

/-!
The disagreements between the sources of a case. Receipts are statements of
sources about the fields of a resource; a conflict is reported for exactly those
fields that two receipts give different values. The report depends on the set of
receipts only, so it may enter a digest that is compared later.
-/
namespace MemoryGuard.Disagreement

open OrderedDict JsonText ContentHash Models Artifacts SourceModels SourceState Grouping

variable (lower : String → String)

/-- A receipt gives a value to a field of a resource. -/
def States (r : SourceReceipt) (k : String × String) (v : Json) : Prop :=
  lower r.resource = k.1 ∧ k.2 ∉ volatileFactFields ∧ r.observed.facts.get? k.2 = some v

/-- Two receipts about one resource give one value to the fields they share. -/
def Agree (r r' : SourceReceipt) : Prop :=
  lower r.resource = lower r'.resource → ∀ field v v', field ∉ volatileFactFields →
    r.observed.facts.get? field = some v → r'.observed.facts.get? field = some v' →
    canonical v = canonical v'

/-- Two receipts give different values to a field of a resource. -/
def Disputed (receipts : List SourceReceipt) (k : String × String) : Prop :=
  ∃ r ∈ receipts, ∃ r' ∈ receipts, ∃ v v', States lower r k v ∧ States lower r' k v' ∧
    canonical v ≠ canonical v'

section Statements

/-- What a receipt states, by resource, field, value and source. -/
def statements (r : SourceReceipt) : List ((String × String) × Json × Identifier) :=
  (r.observed.facts.entries.filter (fun f => f.1 ∉ volatileFactFields)).map
    (fun f => ((lower r.resource, f.1), f.2, r.source_id))

variable {lower}

theorem mem_statements {r : SourceReceipt} {k : String × String} {v : Json} {s : Identifier} :
    (k, v, s) ∈ statements lower r ↔ States lower r k v ∧ r.source_id = s := by
  unfold statements States
  simp only [List.mem_map, List.mem_filter, decide_eq_true_eq, Prod.exists, Prod.mk.injEq]
  constructor
  · rintro ⟨field, v', ⟨hfact, hstable⟩, rfl, rfl, rfl⟩
    exact ⟨⟨rfl, hstable, Dict.get?_eq_some_iff.mpr hfact⟩, rfl⟩
  · rintro ⟨⟨hresource, hstable, hfact⟩, hsource⟩
    exact ⟨k.2, v, ⟨Dict.get?_eq_some_iff.mp hfact, hstable⟩, by rw [hresource], rfl, hsource⟩

/-- The claims are the statements, grouped. -/
theorem gatherClaims_eq (receipts : List SourceReceipt) :
    gatherClaims lower receipts = (receipts.flatMap (statements lower)).foldl tally .empty := by
  have hreceipt : ∀ (r : SourceReceipt) (facts : List (String × Json)) (claims : Claims),
      facts.foldl (addClaim lower r) claims =
        ((facts.filter (fun f => f.1 ∉ volatileFactFields)).map
          (fun f => ((lower r.resource, f.1), f.2, r.source_id))).foldl tally claims := by
    intro r facts
    induction facts with
    | nil => exact fun claims => rfl
    | cons f rest ih =>
      intro claims
      rw [List.foldl_cons, ih]
      by_cases hvolatile : f.1 ∈ volatileFactFields
      · simp [addClaim, hvolatile]
      · simp [addClaim, hvolatile, tally]
  unfold gatherClaims
  generalize (Dict.empty : Claims) = start
  induction receipts generalizing start with
  | nil => rfl
  | cons r rest ih =>
    rw [List.foldl_cons, List.flatMap_cons, List.foldl_append, ih, hreceipt]
    rfl

theorem claims_groups (receipts : List SourceReceipt) :
    Groups (receipts.flatMap (statements lower)) (gatherClaims lower receipts) := by
  rw [gatherClaims_eq]
  exact groups_foldl _

theorem mem_claims {receipts : List SourceReceipt} {k : String × String} {v : Json}
    {s : Identifier} : (k, v, s) ∈ receipts.flatMap (statements lower) ↔
      ∃ r ∈ receipts, States lower r k v ∧ r.source_id = s := by
  simp only [List.mem_flatMap, mem_statements]

end Statements

section Order

/-- Conflicts are listed by resource, then by field. -/
def keyOrder (k k' : String × String) : Prop := k.1 < k'.1 ∨ (k.1 = k'.1 ∧ k.2 ≤ k'.2)

instance : DecidableRel keyOrder := fun k k' => by
  unfold keyOrder
  infer_instance

instance : IsTrans (String × String) keyOrder where
  trans := by
    rintro a b c (hab | ⟨hab, hab'⟩) (hbc | ⟨hbc, hbc'⟩)
    · exact Or.inl (hab.trans hbc)
    · exact Or.inl (hbc ▸ hab)
    · exact Or.inl (hab ▸ hbc)
    · exact Or.inr ⟨hab.trans hbc, hab'.trans hbc'⟩

instance : Std.Total keyOrder where
  total := by
    intro a b
    rcases lt_trichotomy a.1 b.1 with hlt | heq | hgt
    · exact Or.inl (Or.inl hlt)
    · rcases le_total a.2 b.2 with hle | hle
      · exact Or.inl (Or.inr ⟨heq, hle⟩)
      · exact Or.inr (Or.inr ⟨heq.symm, hle⟩)
    · exact Or.inr (Or.inl hgt)

instance : Std.Antisymm keyOrder where
  antisymm := by
    rintro a b (hab | ⟨hab, hab'⟩) (hba | ⟨hba, hba'⟩)
    · exact absurd hba hab.asymm
    · exact absurd hab (hba ▸ lt_irrefl _)
    · exact absurd hba (hab ▸ lt_irrefl _)
    · exact Prod.ext hab (le_antisymm hab' hba')

end Order

variable [Sha256]

section Conflicts

variable {lower} {receipts : List SourceReceipt}

theorem conflictsAmong_eq : conflictsAmong lower receipts =
    (Grouping.listed keyOrder (gatherClaims lower receipts)).filterMap claimConflict := rfl

/-- The sources that state a value for a field of a resource. -/
def Sources (lower : String → String) (receipts : List SourceReceipt) (k : String × String)
    (id : Identifier) : Prop :=
  ∃ r ∈ receipts, (∃ v, States lower r k v) ∧ r.source_id = id

/-- What is reported of a disputed field. -/
structure Reports (lower : String → String) (receipts : List SourceReceipt) (k : String × String)
    (c : SourceConflict) : Prop where
  resource : c.resource_digest = digest "source-conflict-resource" (.str k.1)
  field : c.field = k.2
  once : c.source_ids.Nodup
  sources : ∀ id, id ∈ c.source_ids ↔ Sources lower receipts k id

variable {k : String × String} {values : Dict Json (List Identifier)}

theorem claimConflict_isSome (hk : (gatherClaims lower receipts).get? k = some values) :
    (claimConflict (k, values)).isSome ↔ Disputed lower receipts k := by
  have hdisputed := (claims_groups receipts).disputed_iff hk
  have hsome : (claimConflict (k, values)).isSome ↔ ¬ values.size ≤ 1 := by
    unfold claimConflict
    by_cases hsize : values.size ≤ 1 <;> simp [hsize]
  rw [hsome, hdisputed]
  simp only [mem_claims]
  constructor
  · rintro ⟨v, _, v', _, ⟨r, hr, hv, _⟩, ⟨r', hr', hv', _⟩, hne⟩
    exact ⟨r, hr, r', hr', v, v', hv, hv', fun h => hne (canonical_injective h)⟩
  · rintro ⟨r, hr, r', hr', v, v', hv, hv', hne⟩
    exact ⟨v, _, v', _, ⟨r, hr, hv, rfl⟩, ⟨r', hr', hv', rfl⟩, fun h => hne (congrArg _ h)⟩

theorem claimConflict_reports {c : SourceConflict}
    (hk : (gatherClaims lower receipts).get? k = some values)
    (hc : claimConflict (k, values) = some c) : Reports lower receipts k c := by
  unfold claimConflict at hc
  split at hc
  · cases hc
  · cases hc
    refine ⟨rfl, rfl, nodup_sorted.mpr (List.nodup_dedup _), ?_⟩
    intro id
    rw [mem_sorted, List.mem_dedup, (claims_groups receipts).mem_flatten hk]
    simp only [mem_claims]
    constructor
    · rintro ⟨v, r, hr, hv, hid⟩
      exact ⟨r, hr, ⟨v, hv⟩, hid⟩
    · rintro ⟨r, hr, ⟨v, hv⟩, hid⟩
      exact ⟨v, r, hr, hv, hid⟩

/-- The conflict that is reported of a resource and field, if there is one. -/
def conflictOf (lower : String → String) (receipts : List SourceReceipt) (k : String × String) :
    Option SourceConflict :=
  ((gatherClaims lower receipts).get? k).bind (fun values => claimConflict (k, values))

theorem conflictOf_isSome (hk : k ∈ (gatherClaims lower receipts).keys) :
    (conflictOf lower receipts k).isSome ↔ Disputed lower receipts k := by
  obtain ⟨values, hvalues⟩ := Dict.exists_get?_of_mem_keys hk
  unfold conflictOf
  rw [hvalues, Option.bind_some]
  exact claimConflict_isSome hvalues

omit [Sha256] in
theorem mem_keys_of_disputed (h : Disputed lower receipts k) :
    k ∈ (gatherClaims lower receipts).keys := by
  obtain ⟨r, hr, _, _, v, _, hv, _⟩ := h
  exact ((claims_groups receipts).subjects k).mpr ⟨v, r.source_id, mem_claims.mpr ⟨r, hr, hv, rfl⟩⟩

/-- The conflicts are those of the disputed fields, each reported once. -/
theorem conflicts_report (lower : String → String) (receipts : List SourceReceipt) :
    ∃ ks : List (String × String), ks.Nodup ∧ (∀ k, k ∈ ks ↔ Disputed lower receipts k) ∧
      List.Forall₂ (Reports lower receipts) ks (conflictsAmong lower receipts) := by
  have hperm := perm_listed keyOrder (gatherClaims lower receipts)
  have hselect := forall₂_filterMap (conflictOf lower receipts)
    ((Grouping.listed keyOrder (gatherClaims lower receipts)).map Prod.fst)
  have hconflicts : conflictsAmong lower receipts = _ :=
    conflictsAmong_eq.trans (filterMap_entries claimConflict _ (fun _ => mem_listed.mp))
  refine ⟨_, ((hperm.nodup_iff).mpr (gatherClaims lower receipts).nodup).filter
    (fun k => (conflictOf lower receipts k).isSome), ?_, ?_⟩
  · intro k
    rw [List.mem_filter, hperm.mem_iff]
    constructor
    · rintro ⟨hk, hsome⟩
      exact (conflictOf_isSome hk).mp hsome
    · intro hdisputed
      have hk := mem_keys_of_disputed hdisputed
      exact ⟨hk, (conflictOf_isSome hk).mpr hdisputed⟩
  · rw [hconflicts]
    refine hselect.imp ?_
    intro k c hc
    obtain ⟨values, hvalues, hc⟩ := Option.bind_eq_some_iff.mp hc
    exact claimConflict_reports hvalues hc

omit [Sha256] in
theorem agree_iff : (∀ r ∈ receipts, ∀ r' ∈ receipts, Agree lower r r') ↔
    ∀ k, ¬ Disputed lower receipts k := by
  constructor
  · rintro hagree k ⟨r, hr, r', hr', v, v', ⟨hresource, hstable, hv⟩, ⟨hresource', _, hv'⟩, hne⟩
    exact hne (hagree r hr r' hr' (hresource.trans hresource'.symm) k.2 v v' hstable hv hv')
  · intro hnone r hr r' hr' hresource field v v' hstable hv hv'
    by_contra hne
    exact hnone (lower r.resource, field)
      ⟨r, hr, r', hr', v, v', ⟨rfl, hstable, hv⟩, ⟨hresource.symm, hstable, hv'⟩, hne⟩

/-- Conflicts depend on the set of receipts, not on their order or number. -/
theorem conflicts_eq_of_same {receipts' : List SourceReceipt}
    (h : ∀ r, r ∈ receipts ↔ r ∈ receipts') :
    conflictsAmong lower receipts = conflictsAmong lower receipts' := by
  rw [conflictsAmong_eq, conflictsAmong_eq]
  refine (claims_groups receipts).report_eq keyOrder (claims_groups receipts') ?_ _ ?_
  · rintro ⟨k, v, s⟩
    simp only [mem_claims, h]
  · intro k values values' hkeys hsources
    have hperm : values.keys.Perm values'.keys :=
      (List.perm_ext_iff_of_nodup values.nodup values'.nodup).mpr hkeys
    have hsize : values.size = values'.size := by
      rw [Dict.size_eq_keys, Dict.size_eq_keys, hperm.length_eq]
    have hdigests := sorted_eq_of_perm
      (hperm.map (fun v => digest "source-conflict-value" (.str (encoded v))))
    unfold claimConflict
    simp only [hsize, sorted_dedup_eq hsources, hdigests]

end Conflicts

/-- No conflict is reported when any two receipts agree; otherwise each disputed
field of a resource is reported once, with exactly the sources that give it a
value; and the report is that of any other list of the same receipts. -/
theorem source_conflicts_exact (receipts : List SourceReceipt) :
    (conflictsAmong lower receipts = [] ↔
      ∀ r ∈ receipts, ∀ r' ∈ receipts, Agree lower r r') ∧
    (∃ ks : List (String × String), ks.Nodup ∧ (∀ k, k ∈ ks ↔ Disputed lower receipts k) ∧
      List.Forall₂ (Reports lower receipts) ks (conflictsAmong lower receipts)) ∧
    ∀ receipts', (∀ r, r ∈ receipts ↔ r ∈ receipts') →
      conflictsAmong lower receipts = conflictsAmong lower receipts' := by
  obtain ⟨ks, hnodup, hks, hreports⟩ := conflicts_report lower receipts
  refine ⟨?_, ⟨ks, hnodup, hks, hreports⟩, fun receipts' h => conflicts_eq_of_same h⟩
  rw [agree_iff]
  constructor
  · intro hnone k hdisputed
    rw [hnone, List.forall₂_nil_right_iff] at hreports
    have hk := (hks k).mpr hdisputed
    simp [hreports] at hk
  · intro hagree
    have hempty : ks = [] := by
      rw [List.eq_nil_iff_forall_not_mem]
      exact fun k hk => hagree k ((hks k).mp hk)
    rw [hempty, List.forall₂_nil_left_iff] at hreports
    exact hreports

omit [Sha256] in
/-- Two trackers that differ on the state of an issue are in conflict. -/
theorem tracker_conflict_exact : letI := spelling
    let issue := fun (id : Identifier) (state : String) => (⟨"receipt", "case", 1, id, "", id,
      "Owner/Repo#1", 0, 1, ⟨Dict.empty.set "state" (.str state), "", "", 1, ""⟩, ""⟩ : SourceReceipt)
    let receipts := [issue "a" "open", issue "b" "closed"]
    Disputed String.toLower receipts ("owner/repo#1", "state") ∧
      conflictsAmong String.toLower receipts ≠ [] ∧
      conflictsAmong String.toLower receipts = conflictsAmong String.toLower receipts.reverse := by
  let _ := spelling
  intro issue receipts
  obtain ⟨hnone, _, hsame⟩ := source_conflicts_exact String.toLower receipts
  have hdisputed : Disputed String.toLower receipts ("owner/repo#1", "state") :=
    ⟨issue "a" "open", by simp [receipts], issue "b" "closed", by simp [receipts], .str "open",
      .str "closed", ⟨by decide +kernel, by decide, rfl⟩, ⟨by decide +kernel, by decide, rfl⟩,
      fun h => by simpa using canonical_injective h⟩
  refine ⟨hdisputed, ?_, hsame _ (fun r => by simp [receipts, or_comm])⟩
  intro hempty
  exact agree_iff.mp (hnone.mp hempty) _ hdisputed

end MemoryGuard.Disagreement
