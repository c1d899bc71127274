import Mathlib.Data.List.Sort
import Mathlib.Data.List.Dedup
import Mathlib.Data.String.Basic

/-!
Insertion-ordered dictionaries with unique keys, as a scripting language has
them: writing a new key appends it, writing a known key keeps its place.
Lookups, writes, in-place updates and removals come with the equations by which
clients reason about them.
-/
namespace MemoryGuard.OrderedDict

/-- Unique keys are part of the value, so a lookup has at most one answer. -/
structure Dict (κ α : Type*) where
  entries : List (κ × α)
  nodup : (entries.map Prod.fst).Nodup

namespace Dict

variable {κ α β : Type*}

@[ext] theorem ext {d e : Dict κ α} (h : d.entries = e.entries) : d = e := by
  cases d
  cases e
  simp_all

instance [DecidableEq κ] [DecidableEq α] : DecidableEq (Dict κ α) := fun d e =>
  decidable_of_iff (d.entries = e.entries) ⟨ext, fun h => h ▸ rfl⟩

def empty : Dict κ α := ⟨[], List.nodup_nil⟩

instance : Inhabited (Dict κ α) := ⟨empty⟩

def keys (d : Dict κ α) : List κ := d.entries.map Prod.fst

def values (d : Dict κ α) : List α := d.entries.map Prod.snd

def size (d : Dict κ α) : ℕ := d.entries.length

def isEmpty (d : Dict κ α) : Bool := d.entries.isEmpty

variable [DecidableEq κ]

def find (k : κ) : List (κ × α) → Option α
  | [] => none
  | (k', v) :: rest => if k' = k then some v else find k rest

/-- `d.get(k)`, and `d[k]` where a missing key is an error. -/
def get? (d : Dict κ α) (k : κ) : Option α := find k d.entries

/-- `k in d`. -/
def Has (d : Dict κ α) (k : κ) : Prop := (d.get? k).isSome

instance (d : Dict κ α) (k : κ) : Decidable (d.Has k) := by
  unfold Has
  infer_instance

def put (k : κ) (v : α) : List (κ × α) → List (κ × α)
  | [] => [(k, v)]
  | (k', v') :: rest => if k' = k then (k, v) :: rest else (k', v') :: put k v rest

theorem mem_keys_put (k : κ) (v : α) (x : κ) (l : List (κ × α)) :
    x ∈ (put k v l).map Prod.fst ↔ x = k ∨ x ∈ l.map Prod.fst := by
  induction l with
  | nil => simp [put]
  | cons e rest ih =>
    obtain ⟨k', v'⟩ := e
    by_cases hk : k' = k
    · subst k'
      simp [put]
    · simp only [put, hk, if_false, List.map_cons, List.mem_cons, ih]
      tauto

theorem nodup_put (k : κ) (v : α) (l : List (κ × α)) (h : (l.map Prod.fst).Nodup) :
    ((put k v l).map Prod.fst).Nodup := by
  induction l with
  | nil => simp [put]
  | cons e rest ih =>
    obtain ⟨k', v'⟩ := e
    simp only [List.map_cons, List.nodup_cons] at h
    by_cases hk : k' = k
    · subst k'
      simpa [put] using h
    · simp only [put, hk, if_false, List.map_cons, List.nodup_cons, mem_keys_put]
      exact ⟨fun hmem => hmem.elim id h.1, ih h.2⟩

/-- `d[k] = v`. -/
def set (d : Dict κ α) (k : κ) (v : α) : Dict κ α :=
  ⟨put k v d.entries, nodup_put k v d.entries d.nodup⟩

omit [DecidableEq κ] in
theorem keys_mapIdx (f : κ → α → β) (l : List (κ × α)) :
    (l.map (fun e => (e.1, f e.1 e.2))).map Prod.fst = l.map Prod.fst := by
  simp [List.map_map, Function.comp_def]

/-- Rewrite every value in place. -/
def map (f : κ → α → β) (d : Dict κ α) : Dict κ β :=
  ⟨d.entries.map (fun e => (e.1, f e.1 e.2)), by rw [keys_mapIdx]; exact d.nodup⟩

/-- Rewrite in place the values stored under the listed keys. -/
def adjust (d : Dict κ α) (ks : List κ) (f : α → α) : Dict κ α :=
  d.map (fun k v => if k ∈ ks then f v else v)

theorem find_eq_some_iff (k : κ) (v : α) (l : List (κ × α)) (h : (l.map Prod.fst).Nodup) :
    find k l = some v ↔ (k, v) ∈ l := by
  induction l with
  | nil => simp [find]
  | cons e rest ih =>
    obtain ⟨k', v'⟩ := e
    simp only [List.map_cons, List.nodup_cons] at h
    by_cases hk : k' = k
    · subst k'
      have hnot : (k, v) ∉ rest := fun hmem =>
        h.1 (List.mem_map.mpr ⟨(k, v), hmem, rfl⟩)
      simp [find, hnot, eq_comm]
    · have hk' : k ≠ k' := Ne.symm hk
      simp [find, hk, hk', ih h.2]

/-- What is found stands in the list, whether or not its keys are distinct. -/
theorem mem_of_find {k : κ} {v : α} {l : List (κ × α)} (h : find k l = some v) : (k, v) ∈ l := by
  induction l with
  | nil => cases h
  | cons e rest ih =>
    by_cases hk : e.1 = k
    · simp only [find, if_pos hk, Option.some.injEq] at h
      rw [← hk, ← h]
      exact List.mem_cons_self
    · simp only [find, if_neg hk] at h
      exact List.mem_cons_of_mem _ (ih h)

theorem find_eq_none_iff {k : κ} {l : List (κ × α)} : find k l = none ↔ k ∉ l.map Prod.fst := by
  induction l with
  | nil => simp [find]
  | cons e rest ih =>
    by_cases hk : e.1 = k
    · simp [find, hk]
    · have hk' : k ≠ e.1 := Ne.symm hk
      simp [find, hk, hk', ih]

theorem get?_eq_some_iff {d : Dict κ α} {k : κ} {v : α} :
    d.get? k = some v ↔ (k, v) ∈ d.entries :=
  find_eq_some_iff k v d.entries d.nodup

theorem get?_eq_none_iff {d : Dict κ α} {k : κ} : d.get? k = none ↔ k ∉ d.keys := by
  constructor
  · intro h hmem
    obtain ⟨⟨k', v⟩, hv, rfl⟩ := List.mem_map.mp hmem
    rw [get?_eq_some_iff.mpr hv] at h
    cases h
  · intro h
    cases hget : d.get? k with
    | none => rfl
    | some v => exact absurd (List.mem_map.mpr ⟨(k, v), get?_eq_some_iff.mp hget, rfl⟩) h

theorem has_iff_mem_keys {d : Dict κ α} {k : κ} : d.Has k ↔ k ∈ d.keys := by
  unfold Has
  cases h : d.get? k with
  | none => simpa using get?_eq_none_iff.mp h
  | some v =>
    have hmem : k ∈ d.keys := List.mem_map.mpr ⟨(k, v), get?_eq_some_iff.mp h, rfl⟩
    simpa using hmem

theorem mem_keys_of_get? {d : Dict κ α} {k : κ} {v : α} (h : d.get? k = some v) :
    k ∈ d.keys :=
  List.mem_map.mpr ⟨(k, v), get?_eq_some_iff.mp h, rfl⟩

theorem exists_get?_of_mem_keys {d : Dict κ α} {k : κ} (h : k ∈ d.keys) :
    ∃ v, d.get? k = some v := by
  obtain ⟨⟨k', v⟩, hv, rfl⟩ := List.mem_map.mp h
  exact ⟨v, get?_eq_some_iff.mpr hv⟩

theorem mem_values_of_get? {d : Dict κ α} {k : κ} {v : α} (h : d.get? k = some v) :
    v ∈ d.values :=
  List.mem_map.mpr ⟨(k, v), get?_eq_some_iff.mp h, rfl⟩

theorem exists_get?_of_mem_values {d : Dict κ α} {v : α} (h : v ∈ d.values) :
    ∃ k, d.get? k = some v := by
  obtain ⟨⟨k, v'⟩, hv, rfl⟩ := List.mem_map.mp h
  exact ⟨k, get?_eq_some_iff.mpr hv⟩

@[simp] theorem get?_empty (k : κ) : (empty : Dict κ α).get? k = none := rfl

theorem find_put (k x : κ) (v : α) (l : List (κ × α)) :
    find x (put k v l) = if k = x then some v else find x l := by
  induction l with
  | nil => simp [put, find]
  | cons e rest ih =>
    obtain ⟨k', v'⟩ := e
    by_cases hk : k' = k
    · subst k'
      by_cases hx : k = x <;> simp [put, find, hx]
    · by_cases hx : k' = x
      · subst k'
        have hne : k ≠ x := Ne.symm hk
        simp [put, find, hk, hne]
      · simp [put, find, hk, hx, ih]

theorem get?_set (d : Dict κ α) (k x : κ) (v : α) :
    (d.set k v).get? x = if k = x then some v else d.get? x :=
  find_put k x v d.entries

@[simp] theorem get?_set_self (d : Dict κ α) (k : κ) (v : α) :
    (d.set k v).get? k = some v := by simp [get?_set]

theorem get?_set_of_ne (d : Dict κ α) {k x : κ} (v : α) (h : k ≠ x) :
    (d.set k v).get? x = d.get? x := by simp [get?_set, h]

theorem find_map (f : κ → α → β) (x : κ) (l : List (κ × α)) :
    find x (l.map (fun e => (e.1, f e.1 e.2))) = (find x l).map (f x) := by
  induction l with
  | nil => rfl
  | cons e rest ih =>
    obtain ⟨k', v'⟩ := e
    by_cases hx : k' = x
    · subst k'
      simp [find]
    · simp [find, hx, ih]

theorem get?_map (f : κ → α → β) (d : Dict κ α) (x : κ) :
    (d.map f).get? x = (d.get? x).map (f x) := find_map f x d.entries

theorem get?_adjust (d : Dict κ α) (ks : List κ) (f : α → α) (x : κ) :
    (d.adjust ks f).get? x = if x ∈ ks then (d.get? x).map f else d.get? x := by
  unfold adjust
  rw [get?_map]
  by_cases hx : x ∈ ks
  · simp [hx]
  · cases d.get? x <;> simp [hx]

theorem mem_keys_set {d : Dict κ α} {k x : κ} {v : α} :
    x ∈ (d.set k v).keys ↔ x = k ∨ x ∈ d.keys := mem_keys_put k v x d.entries

omit [DecidableEq κ] in
@[simp] theorem keys_map (f : κ → α → β) (d : Dict κ α) : (d.map f).keys = d.keys :=
  keys_mapIdx f d.entries

@[simp] theorem keys_adjust (d : Dict κ α) (ks : List κ) (f : α → α) :
    (d.adjust ks f).keys = d.keys := keys_map _ d

theorem put_of_fresh (k : κ) (v : α) (l : List (κ × α)) (h : k ∉ l.map Prod.fst) :
    put k v l = l ++ [(k, v)] := by
  induction l with
  | nil => rfl
  | cons e rest ih =>
    obtain ⟨k', v'⟩ := e
    simp only [List.map_cons, List.mem_cons, not_or] at h
    have hk : k' ≠ k := Ne.symm h.1
    simp [put, hk, ih h.2]

/-- A new key goes to the end. -/
theorem entries_set_of_fresh {d : Dict κ α} {k : κ} {v : α} (h : d.get? k = none) :
    (d.set k v).entries = d.entries ++ [(k, v)] :=
  put_of_fresh k v d.entries (get?_eq_none_iff.mp h)

theorem put_of_known (k : κ) (v : α) (l : List (κ × α)) (h : (l.map Prod.fst).Nodup)
    (hk : k ∈ l.map Prod.fst) :
    put k v l = l.map (fun e => (e.1, if e.1 = k then v else e.2)) := by
  induction l with
  | nil => simp at hk
  | cons e rest ih =>
    obtain ⟨k', v'⟩ := e
    simp only [List.map_cons, List.nodup_cons] at h
    by_cases hkk : k' = k
    · subst k'
      have hrest : rest.map (fun e => (e.1, if e.1 = k then v else e.2)) = rest := by
        conv_rhs => rw [← List.map_id rest]
        apply List.map_congr_left
        intro e he
        have hne : e.1 ≠ k := fun heq => h.1 (heq ▸ List.mem_map.mpr ⟨e, he, rfl⟩)
        simp [hne]
      simp [put, hrest]
    · have hmem : k ∈ rest.map Prod.fst := by
        simp only [List.map_cons, List.mem_cons] at hk
        exact hk.resolve_left (Ne.symm hkk)
      simp [put, hkk, ih h.2 hmem]

/-- A known key keeps its place. -/
theorem entries_set_of_known {d : Dict κ α} {k : κ} {v : α} (h : k ∈ d.keys) :
    (d.set k v).entries = d.entries.map (fun e => (e.1, if e.1 = k then v else e.2)) :=
  put_of_known k v d.entries d.nodup h

theorem keys_set_of_known {d : Dict κ α} {k : κ} {v : α} (h : k ∈ d.keys) :
    (d.set k v).keys = d.keys := by
  unfold keys
  rw [entries_set_of_known h]
  simp [List.map_map, Function.comp_def]

omit [DecidableEq κ] in
theorem size_eq_keys (d : Dict κ α) : d.size = d.keys.length := by
  unfold size keys
  rw [List.length_map]

theorem size_set_of_known {d : Dict κ α} {k : κ} {v : α} (h : k ∈ d.keys) :
    (d.set k v).size = d.size := by
  rw [size_eq_keys, size_eq_keys, keys_set_of_known h]

theorem size_set_le (d : Dict κ α) (k : κ) (v : α) : (d.set k v).size ≤ d.size + 1 := by
  by_cases hk : k ∈ d.keys
  · rw [size_set_of_known hk]
    omega
  · unfold size
    rw [entries_set_of_fresh (get?_eq_none_iff.mpr hk), List.length_append, List.length_singleton]

/-- Writing an entry that a selection rejects, over a rejected one if there is
one, leaves the selected entries as they were. -/
theorem filterMap_set_of_rejected {d : Dict κ α} {k : κ} {v : α} (f : κ × α → Option β)
    (hnew : f (k, v) = none) (hold : ∀ u, d.get? k = some u → f (k, u) = none) :
    (d.set k v).entries.filterMap f = d.entries.filterMap f := by
  change (put k v d.entries).filterMap f = d.entries.filterMap f
  have hold' : ∀ u, (k, u) ∈ d.entries → f (k, u) = none := fun u hu =>
    hold u (get?_eq_some_iff.mpr hu)
  generalize d.entries = l at hold'
  induction l with
  | nil => simp [put, hnew]
  | cons e rest ih =>
    obtain ⟨k', v'⟩ := e
    have hrest : ∀ u, (k, u) ∈ rest → f (k, u) = none := fun u hu =>
      hold' u (List.mem_cons_of_mem _ hu)
    by_cases hk : k' = k
    · subst k'
      have hv' : f (k, v') = none := hold' v' List.mem_cons_self
      simp [put, hnew, hv']
    · simp [put, hk, List.filterMap_cons, ih hrest]

theorem filter_set_of_rejected {d : Dict κ α} {k : κ} {v : α} (p : κ × α → Bool)
    (hnew : p (k, v) = false) (hold : ∀ u, d.get? k = some u → p (k, u) = false) :
    (d.set k v).entries.filter p = d.entries.filter p := by
  have hf := filterMap_set_of_rejected (d := d) (k := k) (v := v)
    (Option.guard fun e => p e) (by simp [Option.guard, hnew])
    (fun u hu => by simp [Option.guard, hold u hu])
  simpa only [List.filterMap_eq_filter] using hf

/-- `d.pop(k, None)`. -/
def erase (d : Dict κ α) (k : κ) : Dict κ α :=
  ⟨d.entries.filter fun e => e.1 ≠ k, d.nodup.sublist (List.filter_sublist.map _)⟩

theorem get?_erase (d : Dict κ α) (k x : κ) :
    (d.erase k).get? x = if x = k then none else d.get? x := by
  have hmem : ∀ v, (x, v) ∈ (d.erase k).entries ↔ (x, v) ∈ d.entries ∧ x ≠ k := by
    intro v
    simp [erase]
  by_cases hx : x = k
  · rw [if_pos hx]
    refine Option.eq_none_iff_forall_ne_some.mpr fun v hv => ?_
    exact ((hmem v).mp (get?_eq_some_iff.mp hv)).2 hx
  · rw [if_neg hx]
    ext v
    rw [get?_eq_some_iff, get?_eq_some_iff, hmem]
    exact and_iff_left hx

theorem keys_erase (d : Dict κ α) (k : κ) : (d.erase k).keys = d.keys.erase k := by
  unfold keys erase
  rw [List.Nodup.erase_eq_filter d.nodup, List.filter_map]
  congr 1
  refine List.filter_congr fun e _ => ?_
  by_cases he : e.1 = k <;> simp [he]

theorem size_erase_of_mem {d : Dict κ α} {k : κ} (h : k ∈ d.keys) :
    (d.erase k).size = d.size - 1 := by
  rw [size_eq_keys, size_eq_keys, keys_erase, List.length_erase_of_mem h]

theorem size_erase_le (d : Dict κ α) (k : κ) : (d.erase k).size ≤ d.size := by
  rw [size_eq_keys, size_eq_keys, keys_erase]
  exact List.length_erase_le

theorem get?_foldl_erase (ks : List κ) (d : Dict κ α) (x : κ) :
    (ks.foldl erase d).get? x = if x ∈ ks then none else d.get? x := by
  induction ks generalizing d with
  | nil => simp
  | cons k ks ih =>
    rw [List.foldl_cons, ih, get?_erase]
    by_cases hx : x = k <;> by_cases hks : x ∈ ks <;> simp [hx, hks]

theorem size_foldl_erase_le (ks : List κ) (d : Dict κ α) : (ks.foldl erase d).size ≤ d.size := by
  induction ks generalizing d with
  | nil => exact le_refl _
  | cons k ks ih => exact Nat.le_trans (ih (d.erase k)) (size_erase_le d k)

end Dict

/-- `sorted` on texts. -/
def sorted (l : List String) : List String := l.insertionSort (· ≤ ·)

@[simp] theorem mem_sorted {l : List String} {x : String} : x ∈ sorted l ↔ x ∈ l :=
  List.mem_insertionSort _

theorem nodup_sorted {l : List String} : (sorted l).Nodup ↔ l.Nodup :=
  (List.perm_insertionSort _ l).nodup_iff

@[simp] theorem sorted_eq_nil {l : List String} : sorted l = [] ↔ l = [] := by
  constructor
  · intro h
    have hp := List.perm_insertionSort (· ≤ ·) l
    rw [show l.insertionSort (· ≤ ·) = [] from h] at hp
    exact List.nil_perm.mp hp
  · rintro rfl
    rfl

/-- Sorting forgets the order of a list. -/
theorem sorted_eq_of_perm {l l' : List String} (h : l.Perm l') : sorted l = sorted l' := by
  have hsorted : ∀ x : List String, (sorted x).Pairwise (· ≤ ·) :=
    fun x => List.pairwise_insertionSort _ x
  have hperm : (sorted l).Perm (sorted l') :=
    (List.perm_insertionSort _ _).trans (h.trans (List.perm_insertionSort _ _).symm)
  exact hperm.eq_of_pairwise (fun a b _ _ => le_antisymm) (hsorted _) (hsorted _)

/-- A set of texts has one sorted list. -/
theorem sorted_dedup_eq {l l' : List String} (h : ∀ x, x ∈ l ↔ x ∈ l') :
    sorted l.dedup = sorted l'.dedup := by
  have hdedup : l.dedup.Perm l'.dedup := by
    rw [List.perm_ext_iff_of_nodup l.nodup_dedup l'.nodup_dedup]
    simpa using h
  exact sorted_eq_of_perm hdedup

/-- Entries listed by key, the order in which a canonical text has them. -/
def byKey {α : Type*} (l : List (String × α)) : List (String × α) :=
  l.insertionSort (fun a b => a.1 ≤ b.1)

@[simp] theorem mem_byKey {α : Type*} {l : List (String × α)} {e : String × α} :
    e ∈ byKey l ↔ e ∈ l := List.mem_insertionSort _

/-- Entries with different keys have one order by key. -/
theorem byKey_eq_of_perm {α : Type*} {l l' : List (String × α)} (h : l.Perm l')
    (hnodup : (l.map Prod.fst).Nodup) : byKey l = byKey l' := by
  have hsorted : ∀ x : List (String × α), (byKey x).Pairwise (fun a b => a.1 ≤ b.1) := by
    intro x
    have : IsTrans (String × α) (fun a b => a.1 ≤ b.1) := ⟨fun _ _ _ => le_trans⟩
    have : Std.Total (fun a b : String × α => a.1 ≤ b.1) := ⟨fun a b => le_total a.1 b.1⟩
    exact List.pairwise_insertionSort _ x
  have hperm : (byKey l).Perm (byKey l') :=
    (List.perm_insertionSort _ l).trans (h.trans (List.perm_insertionSort _ l').symm)
  refine List.Perm.eq_of_pairwise ?_ (hsorted l) (hsorted l') hperm
  intro a b ha hb hab hba
  have hbl : b ∈ l := h.mem_iff.mpr (mem_byKey.mp hb)
  exact List.inj_on_of_nodup_map hnodup (mem_byKey.mp ha) hbl (le_antisymm hab hba)

end MemoryGuard.OrderedDict
