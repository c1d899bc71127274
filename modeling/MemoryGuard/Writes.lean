import MemoryGuard.OrderedDict

/-!
Sequences of writes to a dictionary, each allowed by what its key holds when it
is made. What every allowed write respects holds from the start of a sequence
to its end: a property of all entries, or a relation between the old and the
new value under one key.
-/
namespace MemoryGuard.Writes

open OrderedDict

variable {κ α : Type*} [DecidableEq κ]

/-- `now` comes from `start` by writes that `put` allows. It is asked for the
key, what the key holds at that moment, and the new value. -/
inductive Wrote (put : κ → Option α → α → Prop) (start : Dict κ α) : Dict κ α → Prop
  | refl : Wrote put start start
  | set {now : Dict κ α} (h : Wrote put start now) {k : κ} {a : α}
      (allowed : put k (now.get? k) a) : Wrote put start (now.set k a)

variable {put put' : κ → Option α → α → Prop} {d e f : Dict κ α} {k : κ} {a : α}

theorem Wrote.single (allowed : put k (d.get? k) a) : Wrote put d (d.set k a) :=
  .set .refl allowed

theorem Wrote.trans (h : Wrote put d e) (h' : Wrote put e f) : Wrote put d f := by
  induction h' with
  | refl => exact h
  | set _ allowed ih => exact .set ih allowed

/-- A weaker permission allows the same writes. -/
theorem Wrote.mono (h : Wrote put d e) (himp : ∀ k old a, put k old a → put' k old a) :
    Wrote put' d e := by
  induction h with
  | refl => exact .refl
  | set _ allowed ih => exact .set ih (himp _ _ _ allowed)

/-- A property that every write establishes, given it of what is overwritten. -/
theorem Wrote.all (h : Wrote put d e) {P : κ → α → Prop}
    (hput : ∀ k old a, put k old a → (∀ b, old = some b → P k b) → P k a)
    (hd : ∀ k b, d.get? k = some b → P k b) : ∀ k b, e.get? k = some b → P k b := by
  induction h with
  | refl => exact hd
  | set _ allowed ih =>
    intro k b hb
    rw [Dict.get?_set] at hb
    split at hb
    · rename_i hk
      subst hk
      cases hb
      exact hput _ _ _ allowed (fun b hb => ih _ b hb)
    · exact ih k b hb

/-- A stored value is related to whatever its key holds later. -/
theorem Wrote.keeps (h : Wrote put d e) {R : κ → α → α → Prop} (hrefl : ∀ k b, R k b b)
    (htrans : ∀ k b b' b'', R k b b' → R k b' b'' → R k b b'')
    (hput : ∀ k b a, put k (some b) a → R k b a) {b : α} (hb : d.get? k = some b) :
    ∃ a, e.get? k = some a ∧ R k b a := by
  induction h with
  | refl => exact ⟨b, hb, hrefl k b⟩
  | @set now _ k' a' allowed ih =>
    obtain ⟨c, hc, hR⟩ := ih
    by_cases hk : k' = k
    · subst hk
      refine ⟨a', Dict.get?_set_self .., ?_⟩
      rw [hc] at allowed
      exact htrans _ _ _ _ hR (hput _ _ _ allowed)
    · exact ⟨c, by rw [Dict.get?_set_of_ne _ _ hk, hc], hR⟩

/-- What is stored under a key that was free was begun by a write. -/
theorem Wrote.begun (h : Wrote put d e) (hd : d.get? k = none) (he : e.get? k = some a) :
    ∃ b, put k none b := by
  induction h generalizing a with
  | refl =>
    rw [hd] at he
    cases he
  | @set now _ k' a' allowed ih =>
    cases hnow : now.get? k with
    | some b => exact ih hnow
    | none =>
      by_cases hk : k' = k
      · subst hk
        rw [hnow] at allowed
        exact ⟨a', allowed⟩
      · rw [Dict.get?_set_of_ne _ _ hk, hnow] at he
        cases he

/-- What no write puts was there before. -/
theorem Wrote.stored_of (h : Wrote put d e) {P : α → Prop}
    (hput : ∀ k old a, put k old a → ¬ P a) (he : e.get? k = some a) (ha : P a) :
    d.get? k = some a := by
  induction h with
  | refl => exact he
  | set _ allowed ih =>
    rw [Dict.get?_set] at he
    split at he
    · cases he
      exact absurd ha (hput _ _ _ allowed)
    · exact ih he

end MemoryGuard.Writes
