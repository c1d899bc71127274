import Mathlib.Data.List.Induction
import Mathlib.Tactic.ByContra

/-!
Runs of a system whose steps carry the states they lead from and to. What may
happen next can depend on everything that happened before. Invariants, frame
relations and "once established, until broken" facts are proved of single
steps and carried along a run by the rules below.
-/
namespace MemoryGuard.Traces

variable {State Step : Type*}

structure System (State Step : Type*) where
  init : State
  pre : Step → State
  post : Step → State
  allowed : List Step → Step → Prop

/-- A run, as the list of its steps, and the state it ends in. -/
inductive Run (S : System State Step) : List Step → State → Prop
  | start : Run S [] S.init
  | next {steps : List Step} {s : Step} (before : Run S steps (S.pre s))
      (now : S.allowed steps s) : Run S (steps ++ [s]) (S.post s)

variable {S : System State Step}

theorem Run.snoc {steps : List Step} {s : Step} {st : State}
    (h : Run S (steps ++ [s]) st) :
    Run S steps (S.pre s) ∧ S.allowed steps s ∧ st = S.post s := by
  generalize hall : steps ++ [s] = all at h
  cases h with
  | start => simp at hall
  | next before now =>
    obtain ⟨rfl, hs⟩ := List.append_inj' hall rfl
    simp only [List.cons.injEq, and_true] at hs
    subst s
    exact ⟨before, now, rfl⟩

theorem Run.nil {st : State} (h : Run S [] st) : st = S.init := by
  generalize hsteps : ([] : List Step) = steps at h
  cases h with
  | start => rfl
  | next before now => simp at hsteps

/-- Every step of a run was taken after the part of the run before it. -/
theorem Run.at_step {before after : List Step} {s : Step} {st : State}
    (h : Run S (before ++ s :: after) st) :
    Run S before (S.pre s) ∧ S.allowed before s ∧ Run S (before ++ [s]) (S.post s) := by
  induction after using List.reverseRecOn generalizing st with
  | nil =>
    obtain ⟨hrun, hnow, rfl⟩ := h.snoc
    exact ⟨hrun, hnow, h⟩
  | append_singleton after t ih =>
    rw [show before ++ s :: (after ++ [t]) = (before ++ s :: after) ++ [t] by simp] at h
    exact ih h.snoc.1

/-- The steps determine where a run ends. -/
theorem Run.unique {steps : List Step} {st st' : State} (h : Run S steps st)
    (h' : Run S steps st') : st = st' := by
  induction steps using List.reverseRecOn with
  | nil => rw [h.nil, h'.nil]
  | append_singleton steps s _ => rw [h.snoc.2.2, h'.snoc.2.2]

/-- What every step preserves holds after every run. -/
theorem Run.invariant (Inv : State → Prop) (hinit : Inv S.init)
    (hstep : ∀ steps s, Run S steps (S.pre s) → S.allowed steps s → Inv (S.pre s) →
      Inv (S.post s)) {steps : List Step} {st : State} (h : Run S steps st) : Inv st := by
  induction h with
  | start => exact hinit
  | next before now ih => exact hstep _ _ before now ih

/-- What holds at some point of a run and is preserved by every later step
still holds at the end. -/
theorem Run.since (P : State → Prop) {before after : List Step} {mid st : State}
    (hmid : Run S before mid) (hP : P mid)
    (hstep : ∀ done s rest, after = done ++ s :: rest → Run S (before ++ done) (S.pre s) →
      S.allowed (before ++ done) s → P (S.pre s) → P (S.post s))
    (h : Run S (before ++ after) st) : P st := by
  induction after using List.reverseRecOn generalizing st with
  | nil =>
    rw [List.append_nil] at h
    exact h.unique hmid ▸ hP
  | append_singleton after s ih =>
    rw [← List.append_assoc] at h
    obtain ⟨hrun, hnow, rfl⟩ := h.snoc
    refine hstep after s [] (by simp) hrun hnow (ih ?_ hrun)
    intro done t rest hafter
    exact hstep done t (rest ++ [s]) (by simp [hafter])

/-- A relation that every step keeps holds between any two states of a run. -/
theorem Run.related (R : State → State → Prop) (hrefl : ∀ st, R st st)
    (htrans : ∀ a b c, R a b → R b c → R a c)
    (hstep : ∀ steps s, Run S steps (S.pre s) → S.allowed steps s →
      R (S.pre s) (S.post s)) {before after : List Step} {mid st : State}
    (hmid : Run S before mid) (h : Run S (before ++ after) st) : R mid st :=
  Run.since (R mid) hmid (hrefl mid)
    (fun _ s _ _ hrun hnow hR => htrans _ _ _ hR (hstep _ s hrun hnow)) h

/-- Where a property holds at one point of a run and fails at a later one, some
step in between breaks it. -/
theorem Run.broken (P : State → Prop) {before after : List Step} {mid st : State}
    (hmid : Run S before mid) (hP : P mid) (h : Run S (before ++ after) st) (hend : ¬ P st) :
    ∃ done s rest, after = done ++ s :: rest ∧ Run S (before ++ done) (S.pre s) ∧
      S.allowed (before ++ done) s ∧ P (S.pre s) ∧ ¬ P (S.post s) := by
  by_contra hnone
  refine hend (Run.since P hmid hP ?_ h)
  intro done s rest hafter hrun hnow hpre
  by_contra hpost
  exact hnone ⟨done, s, rest, hafter, hrun, hnow, hpre, hpost⟩

end MemoryGuard.Traces
