import Mathlib.Logic.Basic
import Mathlib.Data.Option.Basic
import Mathlib.Data.List.Forall2

/-!
Computations that stop at the first failed check. A check is one line of a
do block; the equations below read a successful run backwards, so that a
proof recovers every check that was passed without unfolding the monad.
-/
namespace MemoryGuard.Guarded

universe u

variable {ε : Type*} {α β σ : Type u}

/-- Stop with `e` unless the condition holds. -/
def ensure (c : Prop) [Decidable c] (e : ε) : Except ε Unit :=
  if c then .ok () else .error e

/-- The looked-up value, or stop with `e`. -/
def fetch (o : Option α) (e : ε) : Except ε α :=
  match o with
  | some a => .ok a
  | none => .error e

@[simp] theorem bind_eq_ok {x : Except ε α} {f : α → Except ε β} {b : β} :
    x >>= f = .ok b ↔ ∃ a, x = .ok a ∧ f a = .ok b := by
  cases x with
  | error e =>
    constructor
    · intro h
      cases h
    · rintro ⟨a, ha, _⟩
      cases ha
  | ok a =>
    constructor
    · exact fun h => ⟨a, rfl, h⟩
    · rintro ⟨a', ha, hf⟩
      cases ha
      exact hf

theorem ok_bind {a : α} {f : α → Except ε β} : (Except.ok a >>= f) = f a := rfl

@[simp] theorem pure_eq_ok {a b : α} : (pure a : Except ε α) = .ok b ↔ a = b :=
  Except.ok.injEq a b ▸ Iff.rfl

@[simp] theorem throw_ne_ok {e : ε} {b : α} : (throw e : Except ε α) ≠ .ok b := by
  intro h
  cases h

@[simp] theorem ensure_eq_ok {c : Prop} [Decidable c] {e : ε} {u : Unit} :
    ensure c e = .ok u ↔ c := by
  unfold ensure
  by_cases hc : c <;> simp [hc]

@[simp] theorem fetch_eq_ok {o : Option α} {e : ε} {a : α} :
    fetch o e = .ok a ↔ o = some a := by
  cases o <;> simp [fetch]

theorem bind_eq_error {x : Except ε α} {f : α → Except ε β} {e : ε} :
    x >>= f = .error e ↔ x = .error e ∨ ∃ a, x = .ok a ∧ f a = .error e := by
  cases x with
  | error e' =>
    constructor
    · intro h
      cases h
      exact Or.inl rfl
    · rintro (h | ⟨a, ha, _⟩)
      · cases h
        rfl
      · cases ha
  | ok a =>
    constructor
    · exact fun h => Or.inr ⟨a, rfl, h⟩
    · rintro (h | ⟨a', ha, hf⟩)
      · cases h
      · cases ha
        exact hf

theorem ensure_eq_error {c : Prop} [Decidable c] {e e' : ε} :
    ensure c e = .error e' ↔ ¬ c ∧ e = e' := by
  unfold ensure
  by_cases hc : c <;> simp [hc]

theorem fetch_eq_error {o : Option α} {e e' : ε} :
    fetch o e = .error e' ↔ o = none ∧ e = e' := by
  cases o <;> simp [fetch]

/-- What is done with a result matters only for the results there are. -/
theorem bind_congr_ok {x : Except ε α} {f g : α → Except ε β} (h : ∀ a, x = .ok a → f a = g a) :
    x >>= f = x >>= g := by
  cases x with
  | error e => rfl
  | ok a => exact h a rfl

/-- A computation goes through when its first step and the rest do. -/
theorem bind_total {x : Except ε α} {f : α → Except ε β} {a : α} (hx : x = .ok a)
    (hf : ∃ b, f a = .ok b) : ∃ b, x >>= f = .ok b := by
  obtain ⟨b, hb⟩ := hf
  exact ⟨b, bind_eq_ok.mpr ⟨a, hx, hb⟩⟩

theorem ensure_total {γ : Type} {c : Prop} [Decidable c] {e : ε} {f : Unit → Except ε γ} (hc : c)
    (hf : ∃ b, f () = .ok b) : ∃ b, ensure c e >>= f = .ok b :=
  bind_total (ensure_eq_ok.mpr hc) hf

theorem fetch_total {o : Option α} {e : ε} {f : α → Except ε β} {a : α} (ho : o = some a)
    (hf : ∃ b, f a = .ok b) : ∃ b, fetch o e >>= f = .ok b :=
  bind_total (fetch_eq_ok.mpr ho) hf

/-- A loop of checks passes when every check does. -/
theorem forM_eq_ok {f : α → Except ε PUnit.{u + 1}} {l : List α} {x : PUnit.{u + 1}} :
    l.forM f = .ok x ↔ ∀ a ∈ l, f a = .ok ⟨⟩ := by
  induction l with
  | nil => simp [List.forM, pure, Except.pure]
  | cons a l ih =>
    change (f a >>= fun _ => l.forM f) = .ok x ↔ _
    simp only [bind_eq_ok, List.mem_cons, forall_eq_or_imp, ih]
    constructor
    · rintro ⟨_, ha, hl⟩
      exact ⟨ha, hl⟩
    · rintro ⟨ha, hl⟩
      exact ⟨_, ha, hl⟩

/-- A loop of checks fails as one of them does. -/
theorem forM_error {f : α → Except ε PUnit.{u + 1}} {l : List α} {e : ε}
    (h : l.forM f = .error e) : ∃ a ∈ l, f a = .error e := by
  induction l with
  | nil => cases h
  | cons a l ih =>
    change (f a >>= fun _ => l.forM f) = .error e at h
    rcases bind_eq_error.mp h with ha | ⟨_, _, hl⟩
    · exact ⟨a, List.mem_cons_self, ha⟩
    · obtain ⟨b, hb, hfail⟩ := ih hl
      exact ⟨b, List.mem_cons_of_mem _ hb, hfail⟩

section Raising

/-- What holds of every error that a computation can stop with. -/
def RaisesOnly (P : ε → Prop) (x : Except ε α) : Prop := ∀ e, x = .error e → P e

variable {P : ε → Prop}

theorem raisesOnly_ok (a : α) : RaisesOnly P (.ok a) := fun _ h => nomatch h

theorem raisesOnly_bind {x : Except ε α} {f : α → Except ε β} (hx : RaisesOnly P x)
    (hf : ∀ a, RaisesOnly P (f a)) : RaisesOnly P (x >>= f) := by
  intro e h
  rcases bind_eq_error.mp h with h | ⟨a, _, h⟩
  · exact hx e h
  · exact hf a e h

theorem raisesOnly_ensure {c : Prop} [Decidable c] {e : ε} (he : P e) :
    RaisesOnly P (ensure c e) := fun _ h => (ensure_eq_error.mp h).2 ▸ he

theorem raisesOnly_fetch {o : Option α} {e : ε} (he : P e) : RaisesOnly P (fetch o e) :=
  fun _ h => (fetch_eq_error.mp h).2 ▸ he

end Raising

/-- A loop fails only as one of its rounds does. -/
theorem foldlM_error {f : σ → α → Except ε σ} (P : ε → Prop)
    (hstep : ∀ s a e, f s a = .error e → P e) :
    ∀ (l : List α) (s : σ) (e : ε), l.foldlM f s = .error e → P e
  | [], s, e, h => by
    rw [List.foldlM_nil] at h
    cases h
  | a :: l, s, e, h => by
    rw [List.foldlM_cons, bind_eq_error] at h
    rcases h with h | ⟨t, _, h⟩
    · exact hstep s a e h
    · exact foldlM_error P hstep l t e h

/-- A traversal succeeds when every element does, with its results in order. -/
theorem mapM_eq_ok {f : α → Except ε β} {l : List α} {bs : List β} :
    l.mapM f = .ok bs ↔ List.Forall₂ (fun a b => f a = .ok b) l bs := by
  induction l generalizing bs with
  | nil =>
    rw [List.mapM_nil, pure_eq_ok, List.forall₂_nil_left_iff, eq_comm]
  | cons a l ih =>
    simp only [List.mapM_cons, bind_eq_ok, pure_eq_ok, List.forall₂_cons_left_iff, ih]
    constructor
    · rintro ⟨b, hb, rest, hrest, rfl⟩
      exact ⟨b, rest, hb, hrest, rfl⟩
    · rintro ⟨b, rest, hb, hrest, rfl⟩
      exact ⟨b, hb, rest, hrest, rfl⟩

theorem mapM_total {f : α → Except ε β} {l : List α} (h : ∀ a ∈ l, ∃ b, f a = .ok b) :
    ∃ bs, l.mapM f = .ok bs := by
  induction l with
  | nil => exact ⟨[], rfl⟩
  | cons a l ih =>
    obtain ⟨b, hb⟩ := h a List.mem_cons_self
    obtain ⟨bs, hbs⟩ := ih (fun a' ha' => h a' (List.mem_cons_of_mem _ ha'))
    exact ⟨b :: bs, mapM_eq_ok.mpr (.cons hb (mapM_eq_ok.mp hbs))⟩

/-- A loop whose every round succeeds on the states it can meet succeeds. -/
theorem foldlM_total {f : σ → α → Except ε σ} (P : σ → Prop) :
    ∀ (l : List α) (s : σ), P s →
      (∀ s a, a ∈ l → P s → ∃ s', f s a = .ok s' ∧ P s') → ∃ s', l.foldlM f s = .ok s'
  | [], s, _, _ => ⟨s, rfl⟩
  | a :: l, s, hs, hf => by
    obtain ⟨t, ht, hPt⟩ := hf s a List.mem_cons_self hs
    obtain ⟨s', hs'⟩ := foldlM_total P l t hPt
      (fun s a ha => hf s a (List.mem_cons_of_mem _ ha))
    exact ⟨s', by simp only [List.foldlM_cons, bind_eq_ok]; exact ⟨t, ht, hs'⟩⟩

end MemoryGuard.Guarded
