import MemoryGuard.OrderedDict
import Mathlib.Data.Finset.Card

/-!
Grouping a list of statements. Each statement says of a subject that some source
gives it a value; the statements are collected by subject and, under each subject,
by value. What is collected depends on the set of statements only, and a subject
is disputed when two values stand under it.
-/
namespace MemoryGuard.Grouping

open OrderedDict

universe u v w x

variable {κ : Type u} {ν : Type v} {σ : Type w} [DecidableEq κ] [DecidableEq ν]

/-- One statement is added to the groups. -/
def tally (groups : Dict κ (Dict ν (List σ))) (e : κ × ν × σ) : Dict κ (Dict ν (List σ)) :=
  let values := (groups.get? e.1).getD .empty
  groups.set e.1 (values.set e.2.1 ((values.get? e.2.1).getD [] ++ [e.2.2]))

/-- The groups hold the statements, under their subjects and values. -/
structure Groups (l : List (κ × ν × σ)) (groups : Dict κ (Dict ν (List σ))) : Prop where
  subjects : ∀ k, k ∈ groups.keys ↔ ∃ v s, (k, v, s) ∈ l
  values : ∀ k values, groups.get? k = some values → ∀ v, v ∈ values.keys ↔ ∃ s, (k, v, s) ∈ l
  sources : ∀ k values v ss, groups.get? k = some values → values.get? v = some ss →
    ∀ s, s ∈ ss ↔ (k, v, s) ∈ l

theorem groups_empty : Groups ([] : List (κ × ν × σ)) .empty := by
  refine ⟨?_, ?_, ?_⟩
  · simp [Dict.keys, Dict.empty]
  · intro k values h
    simp at h
  · intro k values v ss h
    simp at h

section Tally

variable {l : List (κ × ν × σ)} {groups : Dict κ (Dict ν (List σ))}

/-- What stands under a subject so far, nothing where there is no statement. -/
theorem Groups.under (h : Groups l groups) (k : κ) :
    (∀ v, v ∈ ((groups.get? k).getD .empty).keys ↔ ∃ s, (k, v, s) ∈ l) ∧
      ∀ v s, s ∈ ((((groups.get? k).getD .empty).get? v).getD []) ↔ (k, v, s) ∈ l := by
  cases hget : groups.get? k with
  | none =>
    have hnone : ∀ v s, (k, v, s) ∉ l := by
      intro v s hmem
      have hk := (h.subjects k).mpr ⟨v, s, hmem⟩
      rw [Dict.get?_eq_none_iff] at hget
      exact hget hk
    simp [Dict.keys, Dict.empty, Dict.get?, Dict.find, hnone]
  | some values =>
    refine ⟨h.values k values hget, ?_⟩
    intro v s
    rw [Option.getD_some]
    cases hv : values.get? v with
    | none =>
      rw [Dict.get?_eq_none_iff, h.values k values hget] at hv
      simp only [Option.getD_none, List.not_mem_nil, false_iff]
      exact fun hmem => hv ⟨s, hmem⟩
    | some ss => exact h.sources k values v ss hget hv s

/-- A statement changes the group of its subject and no other. -/
theorem groups_tally (h : Groups l groups) (e : κ × ν × σ) :
    Groups (l ++ [e]) (tally groups e) := by
  obtain ⟨k0, v0, s0⟩ := e
  obtain ⟨hvalues, hsources⟩ := h.under k0
  have hmem : ∀ k v s, (k, v, s) ∈ l ++ [(k0, v0, s0)] ↔
      (k, v, s) ∈ l ∨ (k = k0 ∧ v = v0 ∧ s = s0) := by
    intro k v s
    simp
  have hget : ∀ k, (tally groups (k0, v0, s0)).get? k = if k0 = k then
      some (((groups.get? k0).getD .empty).set v0
        (((((groups.get? k0).getD .empty).get? v0).getD []) ++ [s0])) else groups.get? k :=
    fun k => Dict.get?_set ..
  refine ⟨?_, ?_, ?_⟩
  · intro k
    unfold tally
    rw [Dict.mem_keys_set, h.subjects]
    simp only [hmem]
    constructor
    · rintro (rfl | ⟨v, s, hold⟩)
      · exact ⟨v0, s0, Or.inr ⟨rfl, rfl, rfl⟩⟩
      · exact ⟨v, s, Or.inl hold⟩
    · rintro ⟨v, s, hold | ⟨hk, _⟩⟩
      · exact Or.inr ⟨v, s, hold⟩
      · exact Or.inl hk
  · intro k values hk v
    rw [hget] at hk
    simp only [hmem]
    by_cases hself : k0 = k
    · rw [if_pos hself] at hk
      subst hself
      cases hk
      rw [Dict.mem_keys_set, hvalues]
      constructor
      · rintro (rfl | ⟨s, hold⟩)
        · exact ⟨s0, Or.inr ⟨rfl, rfl, rfl⟩⟩
        · exact ⟨s, Or.inl hold⟩
      · rintro ⟨s, hold | ⟨_, hv, _⟩⟩
        · exact Or.inr ⟨s, hold⟩
        · exact Or.inl hv
    · rw [if_neg hself] at hk
      rw [h.values k values hk]
      simp [Ne.symm hself]
  · intro k values v ss hk hv s
    rw [hget] at hk
    rw [hmem]
    by_cases hself : k0 = k
    · rw [if_pos hself] at hk
      subst hself
      cases hk
      rw [Dict.get?_set] at hv
      by_cases hsame : v0 = v
      · rw [if_pos hsame] at hv
        subst hsame
        cases hv
        rw [List.mem_append, hsources]
        simp
      · rw [if_neg hsame] at hv
        have hold := hsources v s
        rw [hv, Option.getD_some] at hold
        rw [hold]
        simp [Ne.symm hsame]
    · rw [if_neg hself] at hk
      rw [h.sources k values v ss hk hv]
      simp [Ne.symm hself]

end Tally

theorem groups_foldl (l : List (κ × ν × σ)) : Groups l (l.foldl tally .empty) := by
  have hall : ∀ (done rest : List (κ × ν × σ)) (groups : Dict κ (Dict ν (List σ))),
      Groups done groups → Groups (done ++ rest) (rest.foldl tally groups) := by
    intro done rest
    induction rest generalizing done with
    | nil =>
      intro groups h
      rw [List.append_nil]
      exact h
    | cons e rest ih =>
      intro groups h
      rw [List.foldl_cons, ← List.singleton_append, ← List.append_assoc]
      exact ih (done ++ [e]) _ (groups_tally h e)
  exact hall [] l .empty groups_empty

section Reports

variable {l l' : List (κ × ν × σ)} {groups groups' : Dict κ (Dict ν (List σ))}

omit [DecidableEq ν] in
/-- A dictionary has more than one key when two of its keys differ. -/
theorem one_lt_size_iff {α : Type*} (d : Dict κ α) :
    ¬ d.size ≤ 1 ↔ ∃ k ∈ d.keys, ∃ k' ∈ d.keys, k ≠ k' := by
  have hcard : d.keys.toFinset.card = d.size := by
    have hnodup : d.keys.Nodup := d.nodup
    rw [List.toFinset_card_of_nodup hnodup, Dict.size_eq_keys]
  rw [not_le, ← hcard, Finset.one_lt_card]
  simp only [List.mem_toFinset]

/-- The sources under a subject, whatever the value they give it. -/
theorem Groups.mem_flatten (h : Groups l groups) {k : κ} {values : Dict ν (List σ)}
    (hk : groups.get? k = some values) (s : σ) :
    s ∈ values.values.flatten ↔ ∃ v, (k, v, s) ∈ l := by
  rw [List.mem_flatten]
  constructor
  · rintro ⟨ss, hss, hs⟩
    obtain ⟨v, hv⟩ := Dict.exists_get?_of_mem_values hss
    exact ⟨v, (h.sources k values v ss hk hv s).mp hs⟩
  · rintro ⟨v, hmem⟩
    obtain ⟨ss, hss⟩ := Dict.exists_get?_of_mem_keys ((h.values k values hk v).mpr ⟨s, hmem⟩)
    exact ⟨ss, Dict.mem_values_of_get? hss, (h.sources k values v ss hk hss s).mpr hmem⟩

/-- A subject is disputed when two statements give it different values. -/
theorem Groups.disputed_iff (h : Groups l groups) {k : κ} {values : Dict ν (List σ)}
    (hk : groups.get? k = some values) :
    ¬ values.size ≤ 1 ↔ ∃ v s v' s', (k, v, s) ∈ l ∧ (k, v', s') ∈ l ∧ v ≠ v' := by
  rw [one_lt_size_iff]
  simp only [h.values k values hk]
  constructor
  · rintro ⟨v, ⟨s, hs⟩, v', ⟨s', hs'⟩, hne⟩
    exact ⟨v, s, v', s', hs, hs', hne⟩
  · rintro ⟨v, s, v', s', hs, hs', hne⟩
    exact ⟨v, ⟨s, hs⟩, v', ⟨s', hs'⟩, hne⟩

omit [DecidableEq ν] in
/-- Going through entries is going through their keys. -/
theorem filterMap_entries {α β : Type*} {d : Dict κ α} (f : κ × α → Option β) :
    ∀ entries : List (κ × α), (∀ e ∈ entries, e ∈ d.entries) →
      entries.filterMap f =
        (entries.map Prod.fst).filterMap (fun k => (d.get? k).bind (fun v => f (k, v))) := by
  intro entries hentries
  rw [List.filterMap_map]
  apply List.filterMap_congr
  rintro ⟨k, v⟩ he
  have hget := Dict.get?_eq_some_iff.mpr (hentries _ he)
  simp [hget]

/-- The entries of a dictionary, listed by their keys. -/
def listed {α : Type*} (le : κ → κ → Prop) [DecidableRel le] (d : Dict κ α) : List (κ × α) :=
  d.entries.insertionSort (fun a b => le a.1 b.1)

variable {le : κ → κ → Prop} [DecidableRel le]

omit [DecidableEq κ] [DecidableEq ν] in
theorem mem_listed {α : Type*} {d : Dict κ α} {e : κ × α} : e ∈ listed le d ↔ e ∈ d.entries :=
  List.mem_insertionSort _

variable (le)

omit [DecidableEq κ] [DecidableEq ν] in
theorem perm_listed {α : Type*} (d : Dict κ α) : ((listed le d).map Prod.fst).Perm d.keys :=
  (List.perm_insertionSort _ _).map Prod.fst

variable [IsTrans κ le] [Std.Total le] [Std.Antisymm le]

omit [DecidableEq κ] [DecidableEq ν] [Std.Antisymm le] in
theorem pairwise_listed {α : Type*} (d : Dict κ α) :
    ((listed le d).map Prod.fst).Pairwise le := by
  have htrans : IsTrans (κ × α) (fun a b => le a.1 b.1) :=
    ⟨fun a b c hab hbc => IsTrans.trans a.1 b.1 c.1 hab hbc⟩
  have htotal : Std.Total (fun a b : κ × α => le a.1 b.1) := ⟨fun a b => Std.Total.total a.1 b.1⟩
  rw [List.pairwise_map]
  exact List.pairwise_insertionSort _ _

omit [DecidableEq κ] [DecidableEq ν] in
/-- Dictionaries with the same keys are listed in the same order of keys. -/
theorem listed_keys_eq {α β : Type*} {d : Dict κ α} {e : Dict κ β}
    (h : ∀ k, k ∈ d.keys ↔ k ∈ e.keys) :
    (listed le d).map Prod.fst = (listed le e).map Prod.fst := by
  have hkeys : d.keys.Perm e.keys := (List.perm_ext_iff_of_nodup d.nodup e.nodup).mpr h
  have hperm := (perm_listed le d).trans (hkeys.trans (perm_listed le e).symm)
  exact hperm.eq_of_pairwise' (pairwise_listed le d) (pairwise_listed le e)

/-- A report that looks at the values and the sources of a group as sets is the
same for two lists of the same statements. -/
theorem Groups.report_eq {β : Type*} (h : Groups l groups) (h' : Groups l' groups')
    (hsame : ∀ e, e ∈ l ↔ e ∈ l') (f : κ × Dict ν (List σ) → Option β)
    (hf : ∀ k values values', (∀ v, v ∈ values.keys ↔ v ∈ values'.keys) →
      (∀ s, s ∈ values.values.flatten ↔ s ∈ values'.values.flatten) →
      f (k, values) = f (k, values')) :
    (listed le groups).filterMap f = (listed le groups').filterMap f := by
  have hkeys : ∀ k, k ∈ groups.keys ↔ k ∈ groups'.keys := by
    intro k
    rw [h.subjects, h'.subjects]
    simp only [hsame]
  rw [filterMap_entries (d := groups) f _ (fun e => mem_listed.mp),
    filterMap_entries (d := groups') f _ (fun e => mem_listed.mp), listed_keys_eq le hkeys]
  apply List.filterMap_congr
  intro k hk
  have hmem' : k ∈ groups'.keys := (perm_listed le groups').mem_iff.mp hk
  obtain ⟨values', hvalues'⟩ := Dict.exists_get?_of_mem_keys hmem'
  obtain ⟨values, hvalues⟩ := Dict.exists_get?_of_mem_keys ((hkeys k).mpr hmem')
  rw [hvalues, hvalues', Option.bind_some, Option.bind_some]
  apply hf
  · intro v
    rw [h.values k values hvalues, h'.values k values' hvalues']
    simp only [hsame]
  · intro s
    rw [h.mem_flatten hvalues, h'.mem_flatten hvalues']
    simp only [hsame]

end Reports

section Selecting

variable {α : Type*} {β : Type*}

/-- What is selected from a list, with what it was selected for. -/
theorem forall₂_filterMap (f : α → Option β) (l : List α) :
    List.Forall₂ (fun a b => f a = some b) (l.filter (fun a => (f a).isSome)) (l.filterMap f) := by
  induction l with
  | nil => exact .nil
  | cons a rest ih =>
    cases hf : f a with
    | none =>
      rw [List.filter_cons, List.filterMap_cons, hf]
      exact ih
    | some b =>
      rw [List.filter_cons, List.filterMap_cons, hf]
      exact .cons hf ih

end Selecting

end MemoryGuard.Grouping
