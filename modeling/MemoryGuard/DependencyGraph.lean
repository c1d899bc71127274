import MemoryGuard.Guarded
import Mathlib.Logic.Relation
import Mathlib.Data.List.Nodup
import Mathlib.Data.Finset.Card
import Mathlib.Data.Finset.Dedup

/-!
Finite dependency graphs given by a partial map from nodes to the nodes they
depend on. The transitive closure of one node is collected depth first, with
a cycle check; a property is spread to all dependents by repeated rounds.
The two searches are dual: a node is reached by the spread from a set exactly
when its own closure meets the set.
-/
namespace MemoryGuard.DependencyGraph

open Guarded

variable {V : Type*}

inductive Fault
  | cycle
  | missing
  deriving DecidableEq, Repr

section Relations
variable (deps : V → Option (List V))

def Edge (v p : V) : Prop := ∃ ps, deps v = some ps ∧ p ∈ ps

/-- Zero or more dependency edges. -/
def Reaches : V → V → Prop := Relation.ReflTransGen (Edge deps)

/-- A node that depends on itself, through one edge or more. -/
def Cyclic (v : V) : Prop := Relation.TransGen (Edge deps) v v

/-- Each listed node comes after everything it depends on. -/
def Topological (l : List V) : Prop :=
  ∀ before x after, l = before ++ x :: after →
    ∃ ps, deps x = some ps ∧ ∀ p ∈ ps, p ∈ before

variable {deps}

theorem Reaches.refl (v : V) : Reaches deps v v := Relation.ReflTransGen.refl

theorem Reaches.trans {u v w : V} (h : Reaches deps u v) (h' : Reaches deps v w) :
    Reaches deps u w := Relation.ReflTransGen.trans h h'

theorem Reaches.head {u v w : V} (h : Edge deps u v) (h' : Reaches deps v w) :
    Reaches deps u w := Relation.ReflTransGen.head h h'

theorem topological_nil : Topological deps ([] : List V) := by
  intro before x after h
  simp at h

theorem Topological.concat {l : List V} {x : V} {ps : List V} (h : Topological deps l)
    (hx : deps x = some ps) (hps : ∀ p ∈ ps, p ∈ l) : Topological deps (l ++ [x]) := by
  intro before y after heq
  rcases List.eq_nil_or_concat after with rfl | ⟨after', z, rfl⟩
  · have hinj := List.append_inj' heq rfl
    obtain ⟨rfl, hy⟩ := hinj
    simp only [List.cons.injEq, and_true] at hy
    subst y
    exact ⟨ps, hx, hps⟩
  · have heq' : l ++ [x] = (before ++ y :: after') ++ [z] := by simpa using heq
    exact h before y after' (List.append_inj' heq' rfl).1

theorem Topological.closed {l : List V} (h : Topological deps l) {x p : V} (hx : x ∈ l)
    (he : Edge deps x p) : p ∈ l := by
  obtain ⟨before, after, rfl⟩ := List.append_of_mem hx
  obtain ⟨ps, hps, hmem⟩ := h before x after rfl
  obtain ⟨ps', hps', hp⟩ := he
  rw [hps] at hps'
  cases hps'
  exact List.mem_append_left _ (hmem p hp)

theorem Topological.reaches {l : List V} (h : Topological deps l) {x y : V} (hx : x ∈ l)
    (hr : Reaches deps x y) : y ∈ l := by
  induction hr with
  | refl => exact hx
  | tail _ he ih => exact h.closed ih he

/-- In a topological list without repetitions the position is a rank. -/
theorem Topological.idxOf_lt [DecidableEq V] {l : List V} (h : Topological deps l)
    (hn : l.Nodup) {x p : V} (hx : x ∈ l) (he : Edge deps x p) : l.idxOf p < l.idxOf x := by
  obtain ⟨before, after, rfl⟩ := List.append_of_mem hx
  obtain ⟨ps, hps, hmem⟩ := h before x after rfl
  obtain ⟨ps', hps', hp⟩ := he
  rw [hps] at hps'
  cases hps'
  have hnot : x ∉ before := fun hbefore =>
    (List.nodup_append.mp hn).2.2 x hbefore x List.mem_cons_self rfl
  rw [List.idxOf_append_of_mem (hmem p hp), List.idxOf_append_of_notMem hnot]
  have hlt := List.idxOf_lt_length_of_mem (hmem p hp)
  omega

theorem Topological.acyclic [DecidableEq V] {l : List V} (h : Topological deps l) (hn : l.Nodup)
    {x : V} (hx : x ∈ l) : ¬ Cyclic deps x := by
  have hrank : ∀ y, Relation.TransGen (Edge deps) x y → y ∈ l ∧ l.idxOf y < l.idxOf x := by
    intro y hy
    induction hy with
    | single he => exact ⟨h.closed hx he, h.idxOf_lt hn hx he⟩
    | tail _ he ih =>
      have hlt := h.idxOf_lt hn ih.1 he
      exact ⟨h.closed ih.1 he, by omega⟩
  intro hcycle
  have hlt := (hrank x hcycle).2
  omega

/-- Along edges of decreasing rank no node reaches itself through another. -/
theorem Reaches.rank_le {rank : V → ℕ} (hrank : ∀ v p, Edge deps v p → rank p < rank v)
    {u v : V} (h : Reaches deps u v) : u = v ∨ rank v < rank u := by
  induction h with
  | refl => exact Or.inl rfl
  | tail _ he ih =>
    have hlt := hrank _ _ he
    rcases ih with rfl | hle
    · exact Or.inr hlt
    · exact Or.inr (by omega)

end Relations

section Walk
variable [DecidableEq V] (deps : V → Option (List V))

/-- Depth-first collection. `visiting` holds the nodes on the current path,
`ordered` the finished ones, each after its dependencies. The depth allowance
is one more than the number of nodes, so a path that uses it up has a cycle. -/
def walk : ℕ → List V → List V → V → Except Fault (List V)
  | 0, _, _, _ => .error .cycle
  | n + 1, visiting, ordered, key =>
    if key ∈ visiting then .error .cycle
    else if key ∈ ordered then .ok ordered
    else match deps key with
      | none => .error .missing
      | some parents => do
        let ordered ← parents.foldlM (fun acc parent => walk n (key :: visiting) acc parent) ordered
        return ordered ++ [key]

theorem walk_zero_ne_ok {visiting ordered : List V} {key : V} {result : List V} :
    walk deps 0 visiting ordered key ≠ .ok result := by
  intro h
  cases h

/-- The two ways in which a walk ends well. -/
theorem walk_succ_eq_ok {n : ℕ} {visiting ordered : List V} {key : V} {result : List V} :
    walk deps (n + 1) visiting ordered key = .ok result ↔
      key ∉ visiting ∧ (key ∈ ordered ∧ result = ordered ∨
        key ∉ ordered ∧ ∃ parents mid, deps key = some parents ∧
          parents.foldlM (fun acc parent => walk deps n (key :: visiting) acc parent) ordered =
            .ok mid ∧ result = mid ++ [key]) := by
  rw [walk]
  by_cases hvisiting : key ∈ visiting
  · simp [hvisiting]
  by_cases hordered : key ∈ ordered
  · simp [hvisiting, hordered, eq_comm]
  cases hparents : deps key with
  | none => simp [hvisiting, hordered]
  | some parents =>
    simp only [if_neg hvisiting, if_neg hordered, bind_eq_ok, pure_eq_ok, Option.some.injEq]
    constructor
    · rintro ⟨mid, hmid, rfl⟩
      exact ⟨hvisiting, .inr ⟨hordered, parents, mid, rfl, hmid, rfl⟩⟩
    · rintro ⟨_, ⟨hmem, _⟩ | ⟨_, _, mid, rfl, hmid, rfl⟩⟩
      · exact absurd hmem hordered
      · exact ⟨mid, hmid, rfl⟩

/-- What a finished walk from `key` has added to the ordered nodes. -/
structure Walked (key : V) (visiting ordered result : List V) : Prop where
  extended : ∃ added, result = ordered ++ added
  mem : key ∈ result
  sound : ∀ x ∈ result, x ∈ ordered ∨ Reaches deps key x
  topological : Topological deps ordered → Topological deps result
  fresh : ordered.Nodup → (∀ x ∈ ordered, x ∉ visiting) →
    result.Nodup ∧ ∀ x ∈ result, x ∉ visiting
  last : key ∉ ordered → result.getLast? = some key

/-- What walking a list of nodes in turn has added. -/
structure WalkedAll (keys visiting ordered result : List V) : Prop where
  extended : ∃ added, result = ordered ++ added
  mem : ∀ key ∈ keys, key ∈ result
  sound : ∀ x ∈ result, x ∈ ordered ∨ ∃ key ∈ keys, Reaches deps key x
  topological : Topological deps ordered → Topological deps result
  fresh : ordered.Nodup → (∀ x ∈ ordered, x ∉ visiting) →
    result.Nodup ∧ ∀ x ∈ result, x ∉ visiting

omit [DecidableEq V] in
theorem walkedAll_of_walked {f : List V → V → Except Fault (List V)} {visiting : List V}
    (hf : ∀ ordered key result, f ordered key = .ok result →
      Walked deps key visiting ordered result) :
    ∀ (keys ordered result : List V), keys.foldlM f ordered = .ok result →
      WalkedAll deps keys visiting ordered result := by
  intro keys
  induction keys with
  | nil =>
    intro ordered result h
    simp only [List.foldlM_nil, pure_eq_ok] at h
    subst result
    exact ⟨⟨[], by simp⟩, by simp, fun x hx => Or.inl hx, id, fun h h' => ⟨h, h'⟩⟩
  | cons key keys ih =>
    intro ordered result h
    simp only [List.foldlM_cons, bind_eq_ok] at h
    obtain ⟨mid, hmid, hrest⟩ := h
    have hk := hf ordered key mid hmid
    have hks := ih mid result hrest
    obtain ⟨added, rfl⟩ := hk.extended
    obtain ⟨added', rfl⟩ := hks.extended
    refine ⟨⟨added ++ added', by simp⟩, ?_, ?_, ?_, ?_⟩
    · intro k hmem
      rcases List.mem_cons.mp hmem with rfl | hmem
      · exact List.mem_append_left _ hk.mem
      · exact hks.mem k hmem
    · intro x hx
      rcases hks.sound x hx with hx | ⟨k, hmem, hr⟩
      · rcases hk.sound x hx with hx | hr
        · exact Or.inl hx
        · exact Or.inr ⟨key, List.mem_cons_self, hr⟩
      · exact Or.inr ⟨k, List.mem_cons_of_mem _ hmem, hr⟩
    · exact fun ht => hks.topological (hk.topological ht)
    · intro hn hv
      obtain ⟨hn', hv'⟩ := hk.fresh hn hv
      exact hks.fresh hn' hv'

theorem walk_walked (n : ℕ) : ∀ (visiting ordered : List V) (key : V) (result : List V),
    walk deps n visiting ordered key = .ok result →
      Walked deps key visiting ordered result := by
  induction n with
  | zero => exact fun _ _ _ _ h => absurd h (walk_zero_ne_ok deps)
  | succ n ih =>
    intro visiting ordered key result h
    obtain ⟨hvisiting, ⟨hmem, rfl⟩ | ⟨hnot, parents, mid, hparents, hmid, rfl⟩⟩ :=
      (walk_succ_eq_ok deps).mp h
    · exact ⟨⟨[], by simp⟩, hmem, fun x hx => Or.inl hx, id,
        fun hn hv => ⟨hn, hv⟩, fun hnot => absurd hmem hnot⟩
    · have hall := walkedAll_of_walked deps
        (fun ordered k result => ih (key :: visiting) ordered k result) _ _ _ hmid
      obtain ⟨added, rfl⟩ := hall.extended
      refine ⟨⟨added ++ [key], by simp⟩, by simp, ?_, ?_, ?_, ?_⟩
      · intro x hx
        rcases List.mem_append.mp hx with hx | hx
        · rcases hall.sound x hx with hx | ⟨p, hp, hr⟩
          · exact Or.inl hx
          · exact Or.inr (Reaches.head ⟨parents, hparents, hp⟩ hr)
        · simp only [List.mem_singleton] at hx
          subst x
          exact Or.inr (Reaches.refl key)
      · intro ht
        exact (hall.topological ht).concat hparents hall.mem
      · intro hn hv
        have hv' : ∀ x ∈ ordered, x ∉ key :: visiting := by
          intro x hx hmem
          rcases List.mem_cons.mp hmem with rfl | hmem
          · exact hnot hx
          · exact hv x hx hmem
        obtain ⟨hnodup, hfree⟩ := hall.fresh hn hv'
        have hkey : key ∉ ordered ++ added := fun hmem =>
          hfree key hmem List.mem_cons_self
        refine ⟨?_, ?_⟩
        · rw [List.nodup_append]
          refine ⟨hnodup, List.nodup_singleton key, ?_⟩
          intro x hx y hy
          simp only [List.mem_singleton] at hy
          subst y
          exact fun heq => hkey (heq ▸ hx)
        · intro x hx hmem
          rcases List.mem_append.mp hx with hx | hx
          · exact hfree x hx (List.mem_cons_of_mem _ hmem)
          · simp only [List.mem_singleton] at hx
            exact hvisiting (hx ▸ hmem)
      · intro _
        simp

/-- A walk from scratch collects exactly the reachable nodes, once each,
in dependency order, the start last. -/
theorem mem_walk_iff {n : ℕ} {key x : V} {result : List V}
    (h : walk deps n [] [] key = .ok result) : x ∈ result ↔ Reaches deps key x := by
  have hw := walk_walked deps n [] [] key result h
  constructor
  · intro hx
    exact (hw.sound x hx).resolve_left (by simp)
  · intro hr
    exact (hw.topological topological_nil).reaches hw.mem hr

theorem nodup_walk {n : ℕ} {key : V} {result : List V}
    (h : walk deps n [] [] key = .ok result) : result.Nodup :=
  ((walk_walked deps n [] [] key result h).fresh List.nodup_nil (by simp)).1

theorem topological_walk {n : ℕ} {key : V} {result : List V}
    (h : walk deps n [] [] key = .ok result) : Topological deps result :=
  (walk_walked deps n [] [] key result h).topological topological_nil

/-- Where dependencies exist and strictly lower a rank, the walk succeeds. -/
theorem walk_total {rank : V → ℕ} (hrank : ∀ v p, Edge deps v p → rank p < rank v)
    (n : ℕ) : ∀ (visiting ordered : List V) (key : V),
      (∀ x, Reaches deps key x → (deps x).isSome) → rank key < n →
      (∀ s ∈ visiting, rank key < rank s) →
      ∃ result, walk deps n visiting ordered key = .ok result := by
  induction n with
  | zero =>
    intro visiting ordered key _ hn
    omega
  | succ n ih =>
    intro visiting ordered key hclosed hn hvisiting
    have hnot : key ∉ visiting := fun hmem => absurd (hvisiting key hmem) (by omega)
    by_cases hordered : key ∈ ordered
    · exact ⟨ordered, (walk_succ_eq_ok deps).mpr ⟨hnot, .inl ⟨hordered, rfl⟩⟩⟩
    · obtain ⟨parents, hparents⟩ := Option.isSome_iff_exists.mp
        (hclosed key (Reaches.refl key))
      have hloop : ∃ mid, parents.foldlM
          (fun acc parent => walk deps n (key :: visiting) acc parent) ordered = .ok mid := by
        apply foldlM_total (fun _ => True) parents ordered trivial
        intro acc p hp _
        have hedge : Edge deps key p := ⟨parents, hparents, hp⟩
        have hlt := hrank key p hedge
        obtain ⟨result, hresult⟩ := ih (key :: visiting) acc p
          (fun x hx => hclosed x (Reaches.head hedge hx)) (by omega) (by
            intro s hs
            rcases List.mem_cons.mp hs with rfl | hs
            · exact hlt
            · have := hvisiting s hs
              omega)
        exact ⟨result, hresult, trivial⟩
      obtain ⟨mid, hmid⟩ := hloop
      exact ⟨mid ++ [key], (walk_succ_eq_ok deps).mpr
        ⟨hnot, .inr ⟨hordered, parents, mid, hparents, hmid, rfl⟩⟩⟩

/-- A walk that succeeds does so with any larger allowance. -/
theorem walk_mono (n : ℕ) : ∀ (m : ℕ) (visiting ordered : List V) (key : V) (result : List V),
    n ≤ m → walk deps n visiting ordered key = .ok result →
      walk deps m visiting ordered key = .ok result := by
  induction n with
  | zero => exact fun _ _ _ _ _ _ h => absurd h (walk_zero_ne_ok deps)
  | succ n ih =>
    intro m visiting ordered key result hle h
    obtain ⟨m, rfl⟩ : ∃ k, m = k + 1 := ⟨m - 1, by omega⟩
    have hloop : ∀ (keys acc mid : List V),
        keys.foldlM (fun acc parent => walk deps n (key :: visiting) acc parent) acc = .ok mid →
        keys.foldlM (fun acc parent => walk deps m (key :: visiting) acc parent) acc = .ok mid := by
      intro keys
      induction keys with
      | nil => exact fun _ _ h => h
      | cons k keys ihk =>
        intro acc mid h
        simp only [List.foldlM_cons, bind_eq_ok] at h ⊢
        obtain ⟨t, ht, hrest⟩ := h
        exact ⟨t, ih m _ _ _ _ (by omega) ht, ihk t mid hrest⟩
    rw [walk_succ_eq_ok] at h ⊢
    obtain ⟨hvisiting, hended | ⟨hnot, parents, mid, hparents, hmid, hresult⟩⟩ := h
    · exact ⟨hvisiting, .inl hended⟩
    · exact ⟨hvisiting, .inr ⟨hnot, parents, mid, hparents, hloop _ _ _ hmid, hresult⟩⟩

/-- A walk reads the dependencies of reachable nodes only. -/
theorem walk_congr {deps' : V → Option (List V)} (n : ℕ) :
    ∀ (visiting ordered : List V) (key : V),
      (∀ x, Reaches deps key x → deps' x = deps x) →
      walk deps' n visiting ordered key = walk deps n visiting ordered key := by
  induction n with
  | zero => exact fun _ _ _ _ => rfl
  | succ n ih =>
    intro visiting ordered key hagree
    unfold walk
    rw [hagree key (Reaches.refl key)]
    cases hparents : deps key with
    | none => rfl
    | some parents =>
      have hloop : ∀ (keys acc : List V), (∀ p ∈ keys, p ∈ parents) →
          keys.foldlM (fun acc parent => walk deps' n (key :: visiting) acc parent) acc =
          keys.foldlM (fun acc parent => walk deps n (key :: visiting) acc parent) acc := by
        intro keys
        induction keys with
        | nil => exact fun _ _ => rfl
        | cons k keys ihk =>
          intro acc hk
          have hedge : Edge deps key k := ⟨parents, hparents, hk k List.mem_cons_self⟩
          have hwalk := ih (key :: visiting) acc k
            (fun x hx => hagree x (Reaches.head hedge hx))
          simp only [List.foldlM_cons, hwalk]
          congr 1
          funext t
          exact ihk t (fun p hp => hk p (List.mem_cons_of_mem _ hp))
      simp only [hloop parents ordered (fun p hp => hp)]

variable {nodes : List V} {deps}

omit [DecidableEq V] in
/-- A path of distinct nodes has no more nodes than there are. -/
theorem path_length_le (hnodes : ∀ v, (deps v).isSome → v ∈ nodes) {visiting : List V}
    (hpath : visiting.Nodup) (hin : ∀ s ∈ visiting, (deps s).isSome) :
    visiting.length ≤ nodes.length := by
  have hsub : visiting ⊆ nodes := fun s hs => hnodes s (hin s hs)
  exact (List.subperm_of_subset hpath hsub).length_le

/-- An allowance of one more than the number of nodes is never used up. -/
theorem walk_settled (hnodes : ∀ v, (deps v).isSome → v ∈ nodes) (n : ℕ) :
    ∀ (visiting ordered : List V) (key : V), visiting.Nodup →
      (∀ s ∈ visiting, (deps s).isSome) → nodes.length < n + visiting.length →
      walk deps (n + 1) visiting ordered key = walk deps n visiting ordered key := by
  induction n with
  | zero =>
    intro visiting ordered key hpath hin hroom
    have hle := path_length_le hnodes hpath hin
    omega
  | succ n ih =>
    intro visiting ordered key hpath hin hroom
    rw [walk, walk]
    split
    · rfl
    · rename_i hvisiting
      split
      · rfl
      · split
        · rfl
        · rename_i parents hparents
          have hin' : ∀ s ∈ key :: visiting, (deps s).isSome := by
            intro s hs
            rcases List.mem_cons.mp hs with rfl | hs
            · simp [hparents]
            · exact hin s hs
          have hstep : (fun acc parent => walk deps (n + 1) (key :: visiting) acc parent) =
              fun acc parent => walk deps n (key :: visiting) acc parent := by
            funext acc parent
            refine ih _ acc parent (List.nodup_cons.mpr ⟨hvisiting, hpath⟩) hin' ?_
            rw [List.length_cons]
            omega
          rw [hstep]

theorem walk_stable (hnodes : ∀ v, (deps v).isSome → v ∈ nodes) (key : V) {n : ℕ}
    (hn : nodes.length < n) :
    walk deps n [] [] key = walk deps (nodes.length + 1) [] [] key := by
  induction n, hn using Nat.le_induction with
  | base => rfl
  | succ n hle ih =>
    rw [walk_settled hnodes n [] [] key List.nodup_nil (by simp) (by simp; omega), ih]

open Classical in
/-- How many nodes a node depends on, itself left out unless it is on a cycle. -/
noncomputable def below (nodes : List V) (deps : V → Option (List V)) (v : V) : ℕ :=
  (nodes.toFinset.filter (fun x => Relation.TransGen (Edge deps) v x)).card

/-- Along an edge from a node on no cycle fewer nodes are below. -/
theorem below_lt (hnodes : ∀ v, (deps v).isSome → v ∈ nodes) {v p : V} (he : Edge deps v p)
    (hp : (deps p).isSome) (hacyclic : ¬ Cyclic deps p) : below nodes deps p < below nodes deps v := by
  classical
  apply Finset.card_lt_card
  rw [Finset.ssubset_iff_of_subset]
  · refine ⟨p, ?_, ?_⟩
    · simp only [Finset.mem_filter, List.mem_toFinset]
      exact ⟨hnodes p hp, .single he⟩
    · simp only [Finset.mem_filter, not_and]
      exact fun _ => hacyclic
  · intro x hx
    simp only [Finset.mem_filter, List.mem_toFinset] at hx ⊢
    exact ⟨hx.1, .head he hx.2⟩

variable (nodes deps) in
theorem below_le (v : V) : below nodes deps v ≤ nodes.length := by
  classical
  exact (Finset.card_filter_le _ _).trans (List.toFinset_card_le nodes)

/-- A walk finds everything there, or meets a missing node or a cycle. -/
theorem walk_complete (hnodes : ∀ v, (deps v).isSome → v ∈ nodes) {key : V}
    (hclosed : ∀ x, Reaches deps key x → (deps x).isSome)
    (hacyclic : ∀ x, Reaches deps key x → ¬ Cyclic deps x) :
    ∃ result, walk deps (nodes.length + 1) [] [] key = .ok result := by
  classical
  -- Only the nodes that can be reached count, so the others lose their edges.
  let near : V → Option (List V) := fun x => if Reaches deps key x then deps x else none
  have hnear : ∀ x, Reaches deps key x → near x = deps x := fun x hx => if_pos hx
  have hsound : ∀ v p, Edge near v p → Reaches deps key v ∧ Edge deps v p := by
    rintro v p ⟨ps, hps, hp⟩
    by_cases hv : Reaches deps key v
    · exact ⟨hv, ps, (hnear v hv) ▸ hps, hp⟩
    · simp [near, hv] at hps
  have hreach : ∀ x, Reaches near key x → Reaches deps key x := by
    intro x hx
    induction hx with
    | refl => exact Reaches.refl key
    | tail _ he _ => exact (hsound _ _ he).1.trans (Reaches.head (hsound _ _ he).2 (Reaches.refl _))
  have hrank : ∀ v p, Edge near v p → below nodes deps p < below nodes deps v := by
    intro v p he
    obtain ⟨hv, he⟩ := hsound v p he
    have hp : Reaches deps key p := hv.trans (Reaches.head he (Reaches.refl p))
    exact below_lt hnodes he (hclosed p hp) (hacyclic p hp)
  have hstored : ∀ x, Reaches near key x → (near x).isSome := by
    intro x hx
    rw [hnear x (hreach x hx)]
    exact hclosed x (hreach x hx)
  have hle := below_le deps nodes key
  obtain ⟨result, hwalk⟩ := walk_total near hrank (nodes.length + 1) [] [] key hstored (by omega)
    (by simp)
  exact ⟨result, (walk_congr deps (nodes.length + 1) [] [] key hnear) ▸ hwalk⟩

/-- A walk fails exactly where a missing node or a cycle can be reached. -/
theorem walk_error_iff (hnodes : ∀ v, (deps v).isSome → v ∈ nodes) {key : V} :
    (∃ e, walk deps (nodes.length + 1) [] [] key = .error e) ↔
      ∃ x, Reaches deps key x ∧ (deps x = none ∨ Cyclic deps x) := by
  constructor
  · rintro ⟨e, he⟩
    by_contra hnone
    push Not at hnone
    obtain ⟨result, hok⟩ := walk_complete hnodes
      (fun x hx => Option.isSome_iff_ne_none.mpr (hnone x hx).1) (fun x hx => (hnone x hx).2)
    rw [he] at hok
    cases hok
  · rintro ⟨x, hx, hbad⟩
    cases hwalk : walk deps (nodes.length + 1) [] [] key with
    | error e => exact ⟨e, rfl⟩
    | ok result =>
      have hmem := (mem_walk_iff deps hwalk).mpr hx
      have htop := topological_walk deps hwalk
      rcases hbad with hmissing | hcycle
      · obtain ⟨before, after, hsplit⟩ := List.append_of_mem hmem
        obtain ⟨ps, hps, _⟩ := htop before x after hsplit
        rw [hmissing] at hps
        cases hps
      · exact absurd hcycle (htop.acyclic (nodup_walk deps hwalk) hmem)

theorem getLast?_walk {n : ℕ} {key : V} {result : List V}
    (h : walk deps n [] [] key = .ok result) : result.getLast? = some key :=
  (walk_walked deps n [] [] key result h).last (by simp)

end Walk

section Spread
variable [DecidableEq V] (nodes : List V) (deps : V → Option (List V))

/-- The nodes outside `result` with a dependency inside it. -/
def frontier (result : List V) : List V :=
  nodes.filter (fun v => v ∉ result ∧ ∃ p ∈ (deps v).getD [], p ∈ result)

/-- Add the frontier until it is empty. -/
def spread : ℕ → List V → List V
  | 0, result => result
  | n + 1, result =>
    match frontier nodes deps result with
    | [] => result
    | added => spread n (result ++ added)

variable {nodes deps}

theorem spread_done {n : ℕ} {result : List V} (h : frontier nodes deps result = []) :
    spread nodes deps (n + 1) result = result := by
  unfold spread
  rw [h]

theorem spread_added {n : ℕ} {result : List V} (h : frontier nodes deps result ≠ []) :
    spread nodes deps (n + 1) result =
      spread nodes deps n (result ++ frontier nodes deps result) := by
  obtain ⟨a, added, hf⟩ := List.exists_cons_of_ne_nil h
  change (match frontier nodes deps result with
    | [] => result
    | added => spread nodes deps n (result ++ added)) = _
  rw [hf]

theorem mem_frontier {result : List V} {v : V} :
    v ∈ frontier nodes deps result ↔
      v ∈ nodes ∧ v ∉ result ∧ ∃ p, Edge deps v p ∧ p ∈ result := by
  unfold frontier Edge
  cases h : deps v <;> simp [h]

theorem subset_spread (n : ℕ) : ∀ (result : List V) {v : V}, v ∈ result →
    v ∈ spread nodes deps n result := by
  induction n with
  | zero => exact fun _ _ h => h
  | succ n ih =>
    intro result v h
    by_cases hf : frontier nodes deps result = []
    · exact (spread_done hf).symm ▸ h
    · exact (spread_added hf).symm ▸ ih _ (List.mem_append_left _ h)

theorem spread_sound (n : ℕ) : ∀ (result : List V) {v : V}, v ∈ spread nodes deps n result →
    ∃ s ∈ result, Reaches deps v s := by
  induction n with
  | zero => exact fun _ v h => ⟨v, h, Reaches.refl v⟩
  | succ n ih =>
    intro result v h
    by_cases hf : frontier nodes deps result = []
    · exact ⟨v, spread_done hf ▸ h, Reaches.refl v⟩
    · obtain ⟨s, hs, hr⟩ := ih _ (spread_added hf ▸ h)
      rcases List.mem_append.mp hs with hs | hs
      · exact ⟨s, hs, hr⟩
      · rw [mem_frontier] at hs
        obtain ⟨_, _, p, he, hp⟩ := hs
        exact ⟨p, hp, hr.trans (Reaches.head he (Reaches.refl p))⟩

/-- Every round that adds something leaves fewer nodes outside. -/
theorem outside_lt {result added : List V} {a : V} (hf : frontier nodes deps result = a :: added) :
    (nodes.filter (fun v => v ∉ result ++ a :: added)).length <
      (nodes.filter (fun v => v ∉ result)).length := by
  have ha : a ∈ frontier nodes deps result := by simp [hf]
  rw [mem_frontier] at ha
  obtain ⟨han, hanot, _⟩ := ha
  have hsub : nodes.filter (fun v => v ∉ result ++ a :: added) =
      (nodes.filter (fun v => v ∉ result)).filter (fun v => v ∉ a :: added) := by
    rw [List.filter_filter]
    apply List.filter_congr
    intro x _
    simp only [List.mem_append, not_or, Bool.decide_and]
    by_cases h1 : x ∈ result <;> by_cases h2 : x ∈ a :: added <;> simp [h1, h2]
  rw [hsub]
  apply List.length_filter_lt_length_iff_exists.mpr
  exact ⟨a, List.mem_filter.mpr ⟨han, by simpa using hanot⟩, by simp⟩

/-- After as many rounds as there are nodes outside, nothing is left to add. -/
theorem frontier_spread (n : ℕ) : ∀ (result : List V),
    (nodes.filter (fun v => v ∉ result)).length ≤ n →
      frontier nodes deps (spread nodes deps n result) = [] := by
  induction n with
  | zero =>
    intro result hlen
    have hempty := List.length_eq_zero_iff.mp (Nat.le_zero.mp hlen)
    apply List.eq_nil_iff_forall_not_mem.mpr
    intro v hv
    rw [mem_frontier] at hv
    obtain ⟨hnode, hnot, _⟩ := hv
    have hmem : v ∈ nodes.filter (fun v => v ∉ result) :=
      List.mem_filter.mpr ⟨hnode, decide_eq_true hnot⟩
    rw [hempty] at hmem
    cases hmem
  | succ n ih =>
    intro result hlen
    cases hf : frontier nodes deps result with
    | nil => exact (spread_done hf).symm ▸ hf
    | cons a added =>
      have hlt := outside_lt hf
      have hsome : frontier nodes deps result ≠ [] := by simp [hf]
      rw [spread_added hsome, hf]
      exact ih _ (by omega)

/-- The allowance covers the nodes still outside, so the spread is complete. -/
theorem spread_closed (hnodes : ∀ v, (deps v).isSome → v ∈ nodes) (n : ℕ) (result : List V)
    (hlen : (nodes.filter (fun v => v ∉ result)).length ≤ n) (v p : V) (he : Edge deps v p)
    (hp : p ∈ spread nodes deps n result) : v ∈ spread nodes deps n result := by
  by_contra hnot
  obtain ⟨ps, hps, hmem⟩ := he
  have hfront : v ∈ frontier nodes deps (spread nodes deps n result) := by
    rw [mem_frontier]
    exact ⟨hnodes v (by simp [hps]), hnot, p, ⟨ps, hps, hmem⟩, hp⟩
  rw [frontier_spread n result hlen] at hfront
  cases hfront

/-- More rounds change nothing. -/
theorem spread_stable {n m : ℕ} (result : List V)
    (hlen : (nodes.filter (fun v => v ∉ result)).length ≤ n) (hle : n ≤ m) :
    spread nodes deps m result = spread nodes deps n result := by
  have hstep : ∀ k (r : List V), frontier nodes deps (spread nodes deps k r) = [] →
      spread nodes deps (k + 1) r = spread nodes deps k r := by
    intro k
    induction k with
    | zero => exact fun r hr => spread_done hr
    | succ k ih =>
      intro r hr
      by_cases hf : frontier nodes deps r = []
      · rw [spread_done hf, spread_done hf]
      · rw [spread_added hf] at hr ⊢
        rw [spread_added hf]
        exact ih _ hr
  induction m, hle using Nat.le_induction with
  | base => rfl
  | succ m hle ih => rw [hstep m result (frontier_spread m result (by omega)), ih]

/-- Exactly the nodes from which a seed can be reached. -/
theorem mem_spread_iff (hnodes : ∀ v, (deps v).isSome → v ∈ nodes) {n : ℕ} {seeds : List V}
    (hn : nodes.length ≤ n) {v : V} :
    v ∈ spread nodes deps n seeds ↔ ∃ s ∈ seeds, Reaches deps v s := by
  constructor
  · exact spread_sound n seeds
  · rintro ⟨s, hs, hr⟩
    have hlen : (nodes.filter (fun v => v ∉ seeds)).length ≤ n :=
      Nat.le_trans (List.length_filter_le _ _) hn
    induction hr using Relation.ReflTransGen.head_induction_on with
    | refl => exact subset_spread n seeds hs
    | head he _ ih => exact spread_closed hnodes n seeds hlen _ _ he ih

theorem nodup_spread (hnodes : nodes.Nodup) (n : ℕ) : ∀ (result : List V), result.Nodup →
    (spread nodes deps n result).Nodup := by
  induction n with
  | zero => exact fun _ h => h
  | succ n ih =>
    intro result h
    by_cases hf : frontier nodes deps result = []
    · exact (spread_done hf).symm ▸ h
    · rw [spread_added hf]
      apply ih
      rw [List.nodup_append]
      refine ⟨h, hnodes.filter _, ?_⟩
      intro x hx y hy heq
      rw [mem_frontier] at hy
      exact hy.2.1 (heq ▸ hx)

end Spread

end MemoryGuard.DependencyGraph
