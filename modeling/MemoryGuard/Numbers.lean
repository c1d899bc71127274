import MemoryGuard.JsonText
import Mathlib.Algebra.Order.Ring.Rat
import Mathlib.Data.List.TakeDrop
import Mathlib.Data.List.TakeWhile

/-!
The numbers that numerals write. An integer is one whose numeral has digits
only, after an optional sign; every other numeral is the shortest text of a
float, and floats are ordered as their texts are.
-/
namespace MemoryGuard.Numbers

open JsonText

section Integers

/-- The bytes of a list are checked one by one. -/
local instance (priority := high) (l : Bytes) (p : UInt8 → Prop) [DecidablePred p] :
    Decidable (∀ b ∈ l, p b) :=
  List.decidableBAll p l

/-- The number that a run of digits writes. -/
def digitsOf (l : Bytes) : Option ℕ :=
  if l ≠ [] ∧ ∀ b ∈ l, b ∈ utf8 "0123456789" then
    some (Nat.ofDigitChars 10 (l.map (fun b => Char.ofNat b.toNat)) 0)
  else none

def integer (n : Numeral) : Option ℤ :=
  match n.text with
  | 45 :: rest => (digitsOf rest).map fun k : ℕ => -(k : ℤ)
  | l => (digitsOf l).map fun k : ℕ => (k : ℤ)

/-- `isinstance(v, float)`. -/
def Floating (n : Numeral) : Prop := integer n = none

instance (n : Numeral) : Decidable (Floating n) := inferInstanceAs (Decidable (_ = none))

theorem digitsOf_decimal (n : ℕ) : digitsOf (decimal n) = some n := by
  unfold digitsOf
  rw [if_pos ⟨decimal_ne_nil n, fun _ => mem_decimal⟩, decimal_chars,
    Nat.ofDigitChars_ten_toDigits]

theorem integer_ofInt (n : ℤ) : integer (.ofInt n) = some n := by
  cases n with
  | ofNat n =>
    have hne : ∀ rest, decimal n ≠ 45 :: rest := by
      intro rest h
      have hmem : (45 : UInt8) ∈ decimal n := by simp [h]
      exact absurd (mem_decimal hmem) (by decide +kernel)
    unfold integer Numeral.ofInt
    dsimp only
    split
    · rename_i rest h
      exact absurd h (hne rest)
    · simp [digitsOf_decimal]
  | negSucc n =>
    unfold integer Numeral.ofInt
    simp [digitsOf_decimal, Int.negSucc_eq]

end Integers

section Floats

/-- The float next to an integer, as it is written up to ten to the sixteenth. -/
def pointZero (n : ℤ) : Numeral where
  text := (Numeral.ofInt n).text ++ [46, 48]
  nonempty := by simp
  valid := by
    intro b hb
    rcases List.mem_append.mp hb with hb | hb
    · exact (Numeral.ofInt n).valid b hb
    · have hall : ∀ c ∈ ([46, 48] : Bytes), c ∈ numeralBytes := by decide +kernel
      exact hall b hb

theorem integer_pointZero (n : ℤ) : integer (pointZero n) = none := by
  have hdot : ∀ l : Bytes, (46 : UInt8) ∈ l → digitsOf l = none := by
    intro l hl
    unfold digitsOf
    apply if_neg
    intro h
    exact absurd (h.2 46 hl) (by decide +kernel)
  have hmem : (46 : UInt8) ∈ (pointZero n).text := by simp [pointZero]
  unfold integer
  split
  · rename_i rest h
    rw [h] at hmem
    have hrest : (46 : UInt8) ∈ rest := by simpa using hmem
    rw [hdot rest hrest]
    rfl
  · rw [hdot _ hmem]
    rfl

def isDigit (b : UInt8) : Bool := 48 ≤ b ∧ b ≤ 57

def natural (l : Bytes) : ℕ := l.foldl (fun n b => 10 * n + (b.toNat - 48)) 0

/-- The exponent that stands behind the digits. -/
def exponent : Bytes → ℤ
  | [] => 0
  | _ :: 45 :: digits => -natural digits
  | _ :: 43 :: digits => natural digits
  | _ :: digits => natural digits

def fractionOf : Bytes → Bytes × Bytes
  | 46 :: rest => rest.span isDigit
  | rest => ([], rest)

def magnitude (l : Bytes) : ℚ :=
  let (whole, rest) := l.span isDigit
  let (fraction, rest) := fractionOf rest
  natural (whole ++ fraction) * (10 : ℚ) ^ (exponent rest - fraction.length)

/-- The number that a numeral writes. -/
def value (n : Numeral) : ℚ :=
  match n.text with
  | 45 :: rest => -magnitude rest
  | l => magnitude l

theorem isDigit_iff {b : UInt8} : isDigit b = true ↔ b ∈ utf8 "0123456789" := by
  have hall : (List.range 256).all (fun n => isDigit (UInt8.ofNat n) =
      decide (UInt8.ofNat n ∈ utf8 "0123456789")) = true := by decide +kernel
  have hb := List.all_eq_true.mp hall b.toNat (List.mem_range.mpr b.toNat_lt)
  rw [UInt8.ofNat_toNat] at hb
  rw [of_decide_eq_true hb, decide_eq_true_iff]

theorem natural_digits {l : Bytes} (h : ∀ b ∈ l, isDigit b = true) (n : ℕ) :
    l.foldl (fun n b => 10 * n + (b.toNat - 48)) n =
      Nat.ofDigitChars 10 (l.map (fun b => Char.ofNat b.toNat)) n := by
  induction l generalizing n with
  | nil => rfl
  | cons b l ih =>
    have hchar : (Char.ofNat b.toNat).toNat = b.toNat := by
      have hb : b.toNat < 256 := b.toNat_lt
      have hvalid : b.toNat.isValidChar := Or.inl (by omega)
      rw [Char.ofNat, dif_pos hvalid]
      rfl
    rw [List.foldl_cons, List.map_cons, Nat.ofDigitChars_cons, hchar]
    exact ih (fun b hb => h b (List.mem_cons_of_mem _ hb)) _

theorem span_digits {l : Bytes} (h : ∀ b ∈ l, isDigit b = true) : l.span isDigit = (l, []) := by
  rw [List.span_eq_takeWhile_dropWhile, List.takeWhile_eq_self_iff.mpr h,
    List.dropWhile_eq_nil_iff.mpr h]

theorem magnitude_digitsOf {l : Bytes} {n : ℕ} (h : digitsOf l = some n) : magnitude l = n := by
  unfold digitsOf at h
  split at h
  · rename_i hdigits
    have hall : ∀ b ∈ l, isDigit b = true := fun b hb => isDigit_iff.mpr (hdigits.2 b hb)
    have hnatural : natural l = n := (natural_digits hall 0).trans (Option.some.inj h)
    unfold magnitude
    rw [span_digits hall]
    simp only [fractionOf, exponent, List.append_nil, hnatural, List.length_nil, Nat.cast_zero,
      sub_zero, zpow_zero, mul_one]
  · cases h

/-- An integer's numeral writes the integer. -/
theorem value_integer {n : Numeral} {k : ℤ} (h : integer n = some k) : value n = k := by
  unfold integer at h
  unfold value
  split at h
  · obtain ⟨m, hm, rfl⟩ := Option.map_eq_some_iff.mp h
    simp [magnitude_digitsOf hm]
  · obtain ⟨m, hm, rfl⟩ := Option.map_eq_some_iff.mp h
    simp [magnitude_digitsOf hm]

end Floats

end MemoryGuard.Numbers
