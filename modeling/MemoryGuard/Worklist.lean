import MemoryGuard.Guarded
import Mathlib.Algebra.BigOperators.Group.List.Basic
import Mathlib.Algebra.GroupWithZero.Nat
import Mathlib.Algebra.Order.BigOperators.Group.List

/-!
Exploring a tree by a list of pending nodes. A node is taken from the list,
visited and replaced by its children, until the list is empty or a visit
fails. The exploration visits every node once, so it ends, and it succeeds when
every node is in order, none is too deep and there are not too many.
-/
namespace MemoryGuard.Worklist

open Guarded

variable {ε α : Type} (children : α → List α)

/-- `b` lies `k` levels below `a`. -/
inductive Below : α → ℕ → α → Prop
  | self (a : α) : Below a 0 a
  | child {a c b : α} {k : ℕ} (hc : c ∈ children a) (hb : Below c k b) : Below a (k + 1) b

/-- What holds of every node of a tree. -/
def Everywhere (P : α → Prop) (a : α) : Prop := ∀ k b, Below children a k b → P b

/-- No node of a tree is more than `n` levels below its root. -/
def DepthAtMost (n : ℕ) (a : α) : Prop := ∀ k b, Below children a k b → k ≤ n

/-- The number of nodes, as a function on trees. -/
structure Counts (size : α → ℕ) : Prop where
  size_eq : ∀ a, size a = ((children a).map size).sum + 1

section Nodes

variable {children} {P Q : α → Prop} {a : α}

theorem everywhere_iff :
    Everywhere children P a ↔ P a ∧ ∀ c ∈ children a, Everywhere children P c := by
  constructor
  · intro h
    exact ⟨h 0 a (.self a), fun c hc k b hb => h (k + 1) b (.child hc hb)⟩
  · rintro ⟨ha, hchildren⟩ k b hb
    cases hb with
    | self => exact ha
    | child hc hb => exact hchildren _ hc _ _ hb

theorem everywhere_and :
    Everywhere children (fun b => P b ∧ Q b) a ↔
      Everywhere children P a ∧ Everywhere children Q a :=
  ⟨fun h => ⟨fun k b hb => (h k b hb).1, fun k b hb => (h k b hb).2⟩,
    fun h k b hb => ⟨h.1 k b hb, h.2 k b hb⟩⟩

theorem depthAtMost_succ_iff {n : ℕ} :
    DepthAtMost children (n + 1) a ↔ ∀ c ∈ children a, DepthAtMost children n c := by
  constructor
  · intro h c hc k b hb
    have hlevel := h (k + 1) b (.child hc hb)
    omega
  · intro h k b hb
    cases hb with
    | self => exact Nat.zero_le _
    | child hc hb => exact Nat.succ_le_succ (h _ hc _ _ hb)

theorem depthAtMost_zero_iff : DepthAtMost children 0 a ↔ children a = [] := by
  constructor
  · intro h
    rw [List.eq_nil_iff_forall_not_mem]
    intro c hc
    exact absurd (h 1 c (.child hc (.self c))) (by decide)
  · intro hnone k b hb
    cases hb with
    | self => exact le_refl 0
    | child hc _ =>
      rw [hnone] at hc
      exact absurd hc List.not_mem_nil

variable (children) in
/-- Whether a test succeeds at every node to a depth, with no node below. -/
def testsTo (p : α → Bool) : ℕ → α → Bool
  | 0, a => p a && (children a).isEmpty
  | n + 1, a => p a && (children a).all (testsTo p n)

theorem testsTo_iff {p : α → Bool} {n : ℕ} :
    testsTo children p n a = true ↔
      Everywhere children (fun b => p b = true) a ∧ DepthAtMost children n a := by
  induction n generalizing a with
  | zero =>
    rw [depthAtMost_zero_iff, everywhere_iff, testsTo, Bool.and_eq_true, List.isEmpty_iff]
    constructor
    · rintro ⟨ha, hnone⟩
      exact ⟨⟨ha, by simp [hnone]⟩, hnone⟩
    · exact fun ⟨⟨ha, _⟩, hnone⟩ => ⟨ha, hnone⟩
  | succ n ih =>
    simp only [testsTo, Bool.and_eq_true, List.all_eq_true, ih]
    rw [depthAtMost_succ_iff, everywhere_iff]
    exact ⟨fun ⟨ha, h⟩ => ⟨⟨ha, fun c hc => (h c hc).1⟩, fun c hc => (h c hc).2⟩,
      fun ⟨⟨ha, h⟩, hdepth⟩ => ⟨ha, fun c hc => ⟨h c hc, hdepth c hc⟩⟩⟩

/-- The children of a node lie one level less deep than the node allows. -/
theorem depthAtMost_sub_iff {n m : ℕ} :
    (m ≤ n ∧ DepthAtMost children (n - m) a) ↔
      m ≤ n ∧ ∀ c ∈ children a, m + 1 ≤ n ∧ DepthAtMost children (n - (m + 1)) c := by
  constructor
  · rintro ⟨hm, h⟩
    refine ⟨hm, fun c hc => ⟨?_, fun k b hb => ?_⟩⟩
    · have hlevel := h 1 c (.child hc (.self c))
      omega
    · have hlevel := h (k + 1) b (.child hc hb)
      omega
  · rintro ⟨hm, h⟩
    refine ⟨hm, fun k b hb => ?_⟩
    cases hb with
    | self => exact Nat.zero_le _
    | child hc hb =>
      obtain ⟨hroom, hdepth⟩ := h _ hc
      have hlevel := hdepth _ _ hb
      omega

end Nodes

section Exploration

variable {size : α → ℕ}

/-- The nodes that are still to be visited. -/
def total (size : α → ℕ) (pending : List (α × ℕ)) : ℕ := (pending.map fun p => size p.1).sum

/-- The children of a node with their depth, the last one first. -/
def pushed (a : α) (depth : ℕ) : List (α × ℕ) := (children a).reverse.map fun c => (c, depth + 1)

variable {children}

theorem total_pushed (hsize : Counts children size) (a : α) (depth : ℕ)
    (pending : List (α × ℕ)) :
    total size (pushed children a depth ++ pending) + 1 = total size ((a, depth) :: pending) := by
  have hchildren : ((pushed children a depth).map fun p => size p.1).sum =
      ((children a).map size).sum := by
    unfold pushed
    rw [List.map_map, List.map_reverse, List.sum_reverse]
    rfl
  unfold total
  rw [List.map_append, List.sum_append, hchildren, List.map_cons, List.sum_cons,
    hsize.size_eq a]
  omega

/-- `visit` is given the node, its depth and its number among the visited. -/
def explore (hsize : Counts children size) (visit : α → ℕ → ℕ → Except ε Unit) :
    List (α × ℕ) → ℕ → Except ε Unit
  | [], _ => .ok ()
  | (item, depth) :: pending, nodes => do
    visit item depth (nodes + 1)
    explore hsize visit (pushed children item depth ++ pending) (nodes + 1)
termination_by pending => total size pending
decreasing_by
  have h := total_pushed hsize item depth pending
  omega

variable (hsize : Counts children size) {visit : α → ℕ → ℕ → Except ε Unit} {Fine : α → Prop}
  {max_depth limit : ℕ}

/-- The pending trees are in order and within the bounds. -/
def Passes (children : α → List α) (Fine : α → Prop) (max_depth : ℕ)
    (pending : List (α × ℕ)) : Prop :=
  ∀ p ∈ pending, Everywhere children Fine p.1 ∧ p.2 ≤ max_depth ∧
    DepthAtMost children (max_depth - p.2) p.1

theorem passes_cons {item : α} {depth : ℕ} {pending : List (α × ℕ)} :
    Passes children Fine max_depth ((item, depth) :: pending) ↔
      (Fine item ∧ depth ≤ max_depth) ∧
        Passes children Fine max_depth (pushed children item depth ++ pending) := by
  have hpushed : ∀ p, p ∈ pushed children item depth ↔ p.1 ∈ children item ∧ p.2 = depth + 1 := by
    intro p
    unfold pushed
    simp only [List.mem_map, List.mem_reverse]
    constructor
    · rintro ⟨c, hc, rfl⟩
      exact ⟨hc, rfl⟩
    · rintro ⟨hc, hdepth⟩
      exact ⟨p.1, hc, by rw [← hdepth]⟩
  unfold Passes
  simp only [List.mem_cons, forall_eq_or_imp, List.mem_append]
  rw [depthAtMost_sub_iff, everywhere_iff]
  constructor
  · rintro ⟨⟨⟨hfine, hchildren⟩, hdepth, hbelow⟩, hrest⟩
    refine ⟨⟨hfine, hdepth⟩, fun p hp => ?_⟩
    rcases hp with hp | hp
    · obtain ⟨hc, heq⟩ := (hpushed p).mp hp
      rw [heq]
      exact ⟨hchildren _ hc, hbelow _ hc⟩
    · exact hrest p hp
  · rintro ⟨⟨hfine, hdepth⟩, hall⟩
    have hchild : ∀ c ∈ children item, _ := fun c hc =>
      hall (c, depth + 1) (Or.inl ((hpushed _).mpr ⟨hc, rfl⟩))
    exact ⟨⟨⟨hfine, fun c hc => (hchild c hc).1⟩, hdepth, fun c hc => (hchild c hc).2⟩,
      fun p hp => hall p (Or.inr hp)⟩

/-- An exploration succeeds when all that is pending is in order, none of it is
too deep and it does not exceed the limit. -/
theorem explore_ok_iff
    (hvisit : ∀ item depth nodes, visit item depth nodes = .ok () ↔
      (Fine item ∧ depth ≤ max_depth) ∧ nodes ≤ limit)
    (pending : List (α × ℕ)) (nodes : ℕ) (hnodes : nodes ≤ limit) :
    explore hsize visit pending nodes = .ok () ↔
      Passes children Fine max_depth pending ∧ nodes + total size pending ≤ limit := by
  induction pending, nodes using explore.induct hsize with
  | case1 nodes => simp [explore, Passes, total, hnodes]
  | case2 item depth pending nodes ih =>
    have htotal := total_pushed hsize item depth pending
    have hstep : explore hsize visit ((item, depth) :: pending) nodes = .ok () ↔
        visit item depth (nodes + 1) = .ok () ∧
          explore hsize visit (pushed children item depth ++ pending) (nodes + 1) = .ok () := by
      rw [explore, bind_eq_ok]
      exact ⟨fun ⟨_, hv, hrest⟩ => ⟨hv, hrest⟩, fun ⟨hv, hrest⟩ => ⟨(), hv, hrest⟩⟩
    rw [hstep, hvisit, passes_cons]
    by_cases hroom : nodes + 1 ≤ limit
    · rw [ih hroom]
      constructor
      · rintro ⟨⟨hitem, _⟩, hrest, hcount⟩
        exact ⟨⟨hitem, hrest⟩, by omega⟩
      · rintro ⟨⟨hitem, hrest⟩, hcount⟩
        exact ⟨⟨hitem, hroom⟩, hrest, by omega⟩
    · constructor
      · rintro ⟨⟨_, hle⟩, _⟩
        exact absurd hle hroom
      · rintro ⟨_, hcount⟩
        omega

/-- An exploration fails as one of its visits does. -/
theorem explore_raises {P : ε → Prop} (hvisit : ∀ item depth nodes, RaisesOnly P (visit item depth nodes))
    (pending : List (α × ℕ)) (nodes : ℕ) :
    RaisesOnly P (explore hsize visit pending nodes) := by
  induction pending, nodes using explore.induct hsize with
  | case1 nodes =>
    rw [explore]
    exact raisesOnly_ok ()
  | case2 item depth pending nodes ih =>
    rw [explore]
    exact raisesOnly_bind (hvisit _ _ _) fun _ => ih

end Exploration

end MemoryGuard.Worklist
