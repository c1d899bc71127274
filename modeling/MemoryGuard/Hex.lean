import Mathlib.Data.List.Induction
import Mathlib.Tactic.Ring

/-!
Bytes in hexadecimal digits, and numbers as bytes of a fixed width, the most
significant first. Digits are written in lower case and read in either.
-/
namespace MemoryGuard.Hex

section Digits

def digit (n : ℕ) : Char := if n < 10 then Char.ofNat (48 + n) else Char.ofNat (87 + n)

/-- The value of a digit, in either letter case. -/
def digitValue (c : Char) : Option ℕ :=
  if 48 ≤ c.toNat ∧ c.toNat ≤ 57 then some (c.toNat - 48)
  else if 97 ≤ c.toNat ∧ c.toNat ≤ 102 then some (c.toNat - 87)
  else if 65 ≤ c.toNat ∧ c.toNat ≤ 70 then some (c.toNat - 55)
  else none

theorem digitValue_digit {n : ℕ} (h : n < 16) : digitValue (digit n) = some n := by
  have hall : (List.range 16).all (fun n => digitValue (digit n) = some n) = true := by decide
  exact of_decide_eq_true (List.all_eq_true.mp hall n (List.mem_range.mpr h))

theorem toNat_lt_of_digitValue {c : Char} {n : ℕ} (h : digitValue c = some n) :
    c.toNat < 103 ∧ n < 16 := by
  unfold digitValue at h
  split at h
  · cases h
    omega
  split at h
  · cases h
    omega
  split at h
  · cases h
    omega
  · cases h

/-- A digit is, but for its letter case, the one its value is written with. -/
theorem digit_of_digitValue {c : Char} {n : ℕ} (h : digitValue c = some n) :
    digit n = c.toLower := by
  have hall : (List.range 103).all (fun k => (digitValue (Char.ofNat k)).all
      (fun n => digit n = (Char.ofNat k).toLower)) = true := by decide +kernel
  have hc := List.all_eq_true.mp hall c.toNat (List.mem_range.mpr (toNat_lt_of_digitValue h).1)
  rw [Char.ofNat_toNat, h] at hc
  exact of_decide_eq_true hc

end Digits

section Bytes

def ofBytes (b : List UInt8) : List Char :=
  b.flatMap fun x => [digit (x.toNat / 16), digit (x.toNat % 16)]

def toBytes : List Char → Option (List UInt8)
  | [] => some []
  | [_] => none
  | h :: l :: rest => do
    let high ← digitValue h
    let low ← digitValue l
    let bytes ← toBytes rest
    return UInt8.ofNat (16 * high + low) :: bytes

theorem toBytes_pair (c d : Char) (rest : List Char) : toBytes (c :: d :: rest) =
    (digitValue c).bind fun high => (digitValue d).bind fun low => (toBytes rest).bind fun bytes =>
      some (UInt8.ofNat (16 * high + low) :: bytes) := rfl

theorem length_ofBytes (b : List UInt8) : (ofBytes b).length = 2 * b.length := by
  induction b with
  | nil => rfl
  | cons x b ih =>
    simp only [ofBytes, List.flatMap_cons, List.length_append, List.length_cons,
      List.length_nil] at ih ⊢
    omega

theorem halves (x : UInt8) : x.toNat / 16 < 16 ∧ x.toNat % 16 < 16 := by
  have hx : x.toNat < 256 := x.toNat_lt
  omega

theorem toBytes_ofBytes (b : List UInt8) : toBytes (ofBytes b) = some b := by
  induction b with
  | nil => rfl
  | cons x b ih =>
    have hx : 16 * (x.toNat / 16) + x.toNat % 16 = x.toNat := by omega
    simp only [ofBytes, List.flatMap_cons, List.cons_append, List.nil_append] at ih ⊢
    simp only [toBytes_pair, digitValue_digit (halves x).1, digitValue_digit (halves x).2, ih,
      Option.bind_some, hx, UInt8.ofNat_toNat]

theorem ofBytes_injective : Function.Injective ofBytes := by
  intro b b' h
  have hb := toBytes_ofBytes b
  rw [h, toBytes_ofBytes] at hb
  exact (Option.some.inj hb).symm

/-- What is read as bytes is, but for letter case, what the bytes are written as. -/
theorem ofBytes_of_toBytes : ∀ {cs : List Char} {b : List UInt8}, toBytes cs = some b →
    ofBytes b = cs.map Char.toLower
  | [], _, h => by
    cases h
    rfl
  | [_], _, h => by cases h
  | c :: d :: rest, _, h => by
    simp only [toBytes_pair, Option.bind_eq_some_iff] at h
    obtain ⟨high, hhigh, low, hlow, bytes, hbytes, h⟩ := h
    cases h
    have hvalue : (UInt8.ofNat (16 * high + low)).toNat = 16 * high + low := by
      have hh := (toNat_lt_of_digitValue hhigh).2
      have hl := (toNat_lt_of_digitValue hlow).2
      rw [UInt8.toNat_ofNat']
      omega
    have hl := (toNat_lt_of_digitValue hlow).2
    have hdiv : (16 * high + low) / 16 = high := by omega
    have hmod : (16 * high + low) % 16 = low := by omega
    have hrest := ofBytes_of_toBytes hbytes
    simp only [ofBytes, List.flatMap_cons, List.cons_append, List.nil_append, hvalue, hdiv, hmod,
      List.map_cons] at hrest ⊢
    rw [digit_of_digitValue hhigh, digit_of_digitValue hlow, hrest]

theorem length_of_toBytes {cs : List Char} {b : List UInt8} (h : toBytes cs = some b) :
    cs.length = 2 * b.length := by
  rw [← length_ofBytes, ofBytes_of_toBytes h, List.length_map]

/-- The first bytes are in the first digits. -/
theorem toBytes_take (n : ℕ) : ∀ {cs : List Char} {b : List UInt8}, toBytes cs = some b →
    toBytes (cs.take (2 * n)) = some (b.take n) := by
  induction n with
  | zero => exact fun _ => rfl
  | succ n ih =>
    intro cs b h
    rcases cs with _ | ⟨c, _ | ⟨d, rest⟩⟩
    · cases h
      rfl
    · cases h
    · simp only [toBytes_pair, Option.bind_eq_some_iff] at h
      obtain ⟨high, hhigh, low, hlow, bytes, hbytes, h⟩ := h
      cases h
      rw [show 2 * (n + 1) = 2 * n + 1 + 1 by ring]
      simp [toBytes_pair, hhigh, hlow, ih hbytes]

/-- The last bytes are in the last digits. -/
theorem toBytes_drop (n : ℕ) : ∀ {cs : List Char} {b : List UInt8}, toBytes cs = some b →
    toBytes (cs.drop (2 * n)) = some (b.drop n) := by
  induction n with
  | zero => simp
  | succ n ih =>
    intro cs b h
    rcases cs with _ | ⟨c, _ | ⟨d, rest⟩⟩
    · cases h
      rfl
    · cases h
    · simp only [toBytes_pair, Option.bind_eq_some_iff] at h
      obtain ⟨high, hhigh, low, hlow, bytes, hbytes, h⟩ := h
      cases h
      rw [show 2 * (n + 1) = 2 * n + 1 + 1 by ring]
      simpa using ih hbytes

/-- Digits in pairs can be read as bytes. -/
theorem exists_toBytes : ∀ {cs : List Char} {n : ℕ}, cs.length = 2 * n →
    (∀ c ∈ cs, (digitValue c).isSome) → ∃ b, toBytes cs = some b
  | [], _, _, _ => ⟨[], rfl⟩
  | [_], n, h, _ => by
    simp only [List.length_cons, List.length_nil] at h
    omega
  | c :: d :: rest, n, h, hall => by
    obtain ⟨high, hhigh⟩ := Option.isSome_iff_exists.mp (hall c (by simp))
    obtain ⟨low, hlow⟩ := Option.isSome_iff_exists.mp (hall d (by simp))
    have hlength : rest.length = 2 * (n - 1) := by
      simp only [List.length_cons] at h
      omega
    obtain ⟨bytes, hbytes⟩ := exists_toBytes hlength fun x hx => hall x (by simp [hx])
    refine ⟨UInt8.ofNat (16 * high + low) :: bytes, ?_⟩
    simp only [toBytes_pair, hhigh, hlow, hbytes, Option.bind_some]

theorem digits_ofBytes {b : List UInt8} {c : Char} (h : c ∈ ofBytes b) :
    ∃ n < 16, c = digit n := by
  obtain ⟨x, _, hc⟩ := List.mem_flatMap.mp h
  simp only [List.mem_cons, List.not_mem_nil, or_false] at hc
  rcases hc with rfl | rfl
  · exact ⟨_, (halves x).1, rfl⟩
  · exact ⟨_, (halves x).2, rfl⟩

end Bytes

section Numbers

/-- The number that bytes stand for, the most significant first. -/
def bigEndian (b : List UInt8) : ℕ := b.foldl (fun n x => 256 * n + x.toNat) 0

/-- A number in so many bytes. -/
def fixed : ℕ → ℕ → List UInt8
  | 0, _ => []
  | width + 1, n => fixed width (n / 256) ++ [UInt8.ofNat (n % 256)]

/-- A number in so many digits. -/
def fixedDigits : ℕ → ℕ → List Char
  | 0, _ => []
  | width + 1, n => fixedDigits width (n / 16) ++ [digit (n % 16)]

/-- The number that digits write. -/
def value (cs : List Char) : Option ℕ :=
  cs.foldlM (fun n c => (digitValue c).map (16 * n + ·)) 0

@[simp] theorem length_fixed (width n : ℕ) : (fixed width n).length = width := by
  induction width generalizing n with
  | zero => rfl
  | succ width ih => simp [fixed, ih]

theorem bigEndian_fixed {width n : ℕ} (h : n < 256 ^ width) : bigEndian (fixed width n) = n := by
  induction width generalizing n with
  | zero =>
    have hn : n = 0 := by simpa using h
    rw [hn]
    rfl
  | succ width ih =>
    have hdiv : n / 256 < 256 ^ width := by
      rw [Nat.div_lt_iff_lt_mul (by decide)]
      rwa [pow_succ] at h
    have hstep : bigEndian (fixed width (n / 256) ++ [UInt8.ofNat (n % 256)]) =
        256 * bigEndian (fixed width (n / 256)) + (UInt8.ofNat (n % 256)).toNat := by
      simp [bigEndian]
    rw [fixed, hstep, ih hdiv, UInt8.toNat_ofNat']
    omega

theorem fixedDigits_eq (width n : ℕ) : fixedDigits (2 * width) n = ofBytes (fixed width n) := by
  induction width generalizing n with
  | zero => rfl
  | succ width ih =>
    have hbyte : (UInt8.ofNat (n % 256)).toNat = n % 256 := by
      rw [UInt8.toNat_ofNat']
      omega
    have hhigh : n % 256 / 16 = n / 16 % 16 := by omega
    have hlow : n % 256 % 16 = n % 16 := by omega
    have hquot : n / 16 / 16 = n / 256 := by omega
    rw [show 2 * (width + 1) = 2 * width + 1 + 1 by ring]
    simp only [fixedDigits, fixed, hquot, ih]
    simp [ofBytes, hbyte, hhigh, hlow]

theorem value_append_digit (cs : List Char) (c : Char) :
    value (cs ++ [c]) = (value cs).bind fun n => (digitValue c).map (16 * n + ·) := by
  simp [value, List.foldlM_append]

theorem value_ofBytes (b : List UInt8) : value (ofBytes b) = some (bigEndian b) := by
  induction b using List.reverseRecOn with
  | nil => rfl
  | append_singleton b x ih =>
    have hofBytes : ofBytes (b ++ [x]) =
        ofBytes b ++ [digit (x.toNat / 16)] ++ [digit (x.toNat % 16)] := by
      simp [ofBytes]
    have hstep : bigEndian (b ++ [x]) = 256 * bigEndian b + x.toNat := by
      simp [bigEndian]
    rw [hofBytes, value_append_digit, value_append_digit, ih, digitValue_digit (halves x).1,
      digitValue_digit (halves x).2, hstep]
    simp only [Option.bind_some, Option.map_some, Option.some.injEq]
    omega

theorem digitValue_toLower (c : Char) : digitValue c.toLower = digitValue c := by
  by_cases hc : c.toNat < 128
  · have hall : (List.range 128).all (fun k => digitValue (Char.ofNat k).toLower =
        digitValue (Char.ofNat k)) = true := by decide +kernel
    have heq := of_decide_eq_true (List.all_eq_true.mp hall c.toNat (List.mem_range.mpr hc))
    rwa [Char.ofNat_toNat] at heq
  · have hsame : c.toLower = c := by
      unfold Char.toLower
      split
      · rename_i h
        have hle : c.toNat ≤ 90 := h.2
        omega
      · rfl
    rw [hsame]

/-- Letter case does not matter to the number that digits write. -/
theorem value_of_toBytes {cs : List Char} {b : List UInt8} (h : toBytes cs = some b) :
    value cs = some (bigEndian b) := by
  rw [← value_ofBytes, ofBytes_of_toBytes h, value, value, List.foldlM_map]
  simp only [digitValue_toLower]

end Numbers

end MemoryGuard.Hex
