import Mathlib.Data.List.Dedup
import Mathlib.Data.List.Induction

/-!
Loops over a list as folds. A loop whose only failure depends on the item at
hand fails when some item does, and else computes what the loop without the
check computes. Items that change nothing can be left out. A loop that keeps
the last value it has seen ends with that value.
-/
namespace MemoryGuard.Loops

variable {ε : Type*} {σ α β : Type}

/-- A loop that stops at the items with a fault. -/
theorem foldlM_guarded {f : σ → α → Except ε σ} {next : σ → α → σ} {Faulty : α → Prop}
    [DecidablePred Faulty] {e : ε}
    (hf : ∀ s a, f s a = if Faulty a then .error e else .ok (next s a)) (l : List α) (s : σ) :
    l.foldlM f s = if ∃ a ∈ l, Faulty a then .error e else .ok (l.foldl next s) := by
  induction l generalizing s with
  | nil => simp [pure, Except.pure]
  | cons a l ih =>
    rw [List.foldlM_cons, hf]
    by_cases ha : Faulty a
    · have hany : ∃ b ∈ a :: l, Faulty b := ⟨a, List.mem_cons_self .., ha⟩
      rw [if_pos ha, if_pos hany]
      rfl
    · rw [if_neg ha]
      change l.foldlM f (next s a) = _
      rw [ih]
      simp only [List.mem_cons, exists_eq_or_imp, ha, false_or, List.foldl_cons]

/-- Items that leave every state as it is can be left out. -/
theorem foldlM_filter_of_inert {f : σ → α → Except ε σ} {p : α → Bool}
    (hinert : ∀ s a, p a = false → f s a = .ok s) (l : List α) (s : σ) :
    (l.filter p).foldlM f s = l.foldlM f s := by
  induction l generalizing s with
  | nil => rfl
  | cons a l ih =>
    cases ha : p a with
    | true =>
      rw [List.filter_cons_of_pos ha, List.foldlM_cons, List.foldlM_cons]
      exact congrArg _ (funext ih)
    | false =>
      rw [List.filter_cons_of_neg (by simp [ha]), List.foldlM_cons, hinert s a ha]
      exact ih s

/-- The last value that a list gives, if it gives any. -/
theorem foldl_getD (f : α → Option β) (l : List α) (s : β) :
    l.foldl (fun b a => (f a).getD b) s = (l.filterMap f).getLast?.getD s := by
  induction l using List.reverseRecOn with
  | nil => rfl
  | append_singleton l a ih =>
    rw [List.foldl_append, List.foldl_cons, List.foldl_nil, ih, List.filterMap_append]
    cases ha : f a with
    | none => simp [ha]
    | some b => simp [ha]

/-- Two values of a list that has no two different ones are the same. -/
theorem eq_of_dedup_length_le_one [DecidableEq α] {l : List α} (h : l.dedup.length ≤ 1) {a b : α}
    (ha : a ∈ l) (hb : b ∈ l) : a = b := by
  rw [← List.mem_dedup] at ha hb
  match hl : l.dedup with
  | [] => simp [hl] at ha
  | [c] =>
    rw [hl, List.mem_singleton] at ha hb
    rw [ha, hb]
  | c :: d :: rest =>
    rw [hl] at h
    simp at h

end MemoryGuard.Loops
