import Mathlib.Tactic.Ring
import Mathlib.Data.Nat.Basic

/-!
Date-times and their ISO texts, as Python's `datetime` writes and reads them.
A date-time may carry an offset from UTC or not; one that does is recovered
from its text, and the texts of the two kinds differ.
-/
namespace MemoryGuard.IsoText

section Digits

/-- `n` in `width` decimal digits. -/
def pad : ℕ → ℕ → List Char
  | 0, _ => []
  | width + 1, n => Char.ofNat (48 + n / 10 ^ width % 10) :: pad width n

def digitValue (c : Char) : Option ℕ :=
  if 48 ≤ c.toNat ∧ c.toNat ≤ 57 then some (c.toNat - 48) else none

/-- The number that the next `width` digits write. -/
def digits : ℕ → List Char → Option (ℕ × List Char)
  | 0, rest => some (0, rest)
  | _ + 1, [] => none
  | width + 1, c :: rest => do
    let d ← digitValue c
    let (n, rest) ← digits width rest
    return (d * 10 ^ width + n, rest)

theorem toNat_digit {d : ℕ} (h : d < 10) : (Char.ofNat (48 + d)).toNat = 48 + d := by
  have hvalid : (48 + d).isValidChar := Or.inl (by omega)
  rw [Char.ofNat, dif_pos hvalid]
  rfl

theorem digitValue_digit {d : ℕ} (h : d < 10) : digitValue (Char.ofNat (48 + d)) = some d := by
  unfold digitValue
  rw [toNat_digit h, if_pos (by omega)]
  simp

theorem digits_pad (width n : ℕ) (rest : List Char) :
    digits width (pad width n ++ rest) = some (n % 10 ^ width, rest) := by
  induction width with
  | zero => simp [pad, digits, Nat.mod_one]
  | succ width ih =>
    have hdigit : n / 10 ^ width % 10 < 10 := Nat.mod_lt _ (by omega)
    have hsum : n / 10 ^ width % 10 * 10 ^ width + n % 10 ^ width = n % 10 ^ (width + 1) := by
      rw [Nat.mod_pow_succ]
      ring
    simp only [pad, List.cons_append, digits, digitValue_digit hdigit, ih, hsum,
      Option.bind_eq_bind, Option.bind_some, Option.pure_def]

/-- The digits that are written are read back. -/
theorem digits_pad_of_lt {width n : ℕ} (h : n < 10 ^ width) (rest : List Char) :
    digits width (pad width n ++ rest) = some (n, rest) := by
  rw [digits_pad, Nat.mod_eq_of_lt h]

theorem digit_of_mem_pad {width n : ℕ} {c : Char} (h : c ∈ pad width n) :
    48 ≤ c.toNat ∧ c.toNat ≤ 57 := by
  induction width with
  | zero => simp [pad] at h
  | succ width ih =>
    rcases List.mem_cons.mp h with rfl | hrest
    · have hdigit : n / 10 ^ width % 10 < 10 := Nat.mod_lt _ (by omega)
      rw [toNat_digit hdigit]
      omega
    · exact ih hrest

end Digits

section Values

/-- Hours, minutes, seconds and microseconds below a day. -/
structure Clock where
  hour : ℕ
  minute : ℕ
  second : ℕ
  microsecond : ℕ
  hour_lt : hour < 24
  minute_lt : minute < 60
  second_lt : second < 60
  microsecond_lt : microsecond < 1000000
  deriving DecidableEq

def clock? (hour minute second microsecond : ℕ) : Option Clock :=
  if h : hour < 24 ∧ minute < 60 ∧ second < 60 ∧ microsecond < 1000000 then
    some ⟨hour, minute, second, microsecond, h.1, h.2.1, h.2.2.1, h.2.2.2⟩
  else none

theorem clock?_self (c : Clock) : clock? c.hour c.minute c.second c.microsecond = some c :=
  dif_pos ⟨c.hour_lt, c.minute_lt, c.second_lt, c.microsecond_lt⟩

def Clock.midnight : Clock := ⟨0, 0, 0, 0, by omega, by omega, by omega, by omega⟩

/-- What a local time is ahead of UTC, less than a day either way. No offset is
the positive one. -/
structure Offset where
  negative : Bool
  ahead : Clock
  behind : negative = true → ahead ≠ .midnight
  deriving DecidableEq

/-- `_is_leap`. -/
def isLeap (year : ℕ) : Bool := year % 4 = 0 ∧ (year % 100 ≠ 0 ∨ year % 400 = 0)

/-- `_days_in_month`. -/
def daysInMonth (year month : ℕ) : ℕ :=
  if month = 2 ∧ isLeap year then 29
  else [31, 28, 31, 30, 31, 30, 31, 31, 30, 31, 30, 31].getD (month - 1) 0

theorem daysInMonth_le (year month : ℕ) : daysInMonth year month ≤ 31 := by
  unfold daysInMonth
  split
  · omega
  · rw [List.getD_eq_getElem?_getD]
    cases hdays : [31, 28, 31, 30, 31, 30, 31, 31, 30, 31, 30, 31][month - 1]? with
    | none => simp
    | some days =>
      have hall : ∀ days ∈ [31, 28, 31, 30, 31, 30, 31, 31, 30, 31, 30, 31], days ≤ 31 := by decide
      exact hall days (List.mem_of_getElem? hdays)

/-- A date of the calendar years 1 to 9999, a time of day, and an offset for a
date-time that carries one. -/
structure DateTime where
  year : ℕ
  month : ℕ
  day : ℕ
  clock : Clock
  offset : Option Offset
  year_range : 1 ≤ year ∧ year ≤ 9999
  month_range : 1 ≤ month ∧ month ≤ 12
  day_range : 1 ≤ day ∧ day ≤ daysInMonth year month
  deriving DecidableEq

def DateTime.Aware (d : DateTime) : Prop := d.offset.isSome

instance (d : DateTime) : Decidable d.Aware := inferInstanceAs (Decidable (_ = true))

def Offset.utc : Offset := ⟨false, .midnight, fun h => absurd h Bool.false_ne_true⟩

/-- `parsed.replace(tzinfo=UTC)`. -/
def DateTime.inUtc (d : DateTime) : DateTime := { d with offset := some .utc }

end Values

section Texts

def fraction (microsecond : ℕ) : List Char :=
  if microsecond = 0 then [] else '.' :: pad 6 microsecond

def Clock.short (c : Clock) : List Char := pad 2 c.hour ++ ':' :: pad 2 c.minute

def Clock.long (c : Clock) : List Char :=
  c.short ++ ':' :: (pad 2 c.second ++ fraction c.microsecond)

/-- Seconds of an offset are written only where there are any. -/
def Offset.text (o : Offset) : List Char :=
  (if o.negative then '-' else '+') ::
    (if o.ahead.second = 0 ∧ o.ahead.microsecond = 0 then o.ahead.short else o.ahead.long)

def offsetText : Option Offset → List Char
  | none => []
  | some o => o.text

def dateText (year month day : ℕ) : List Char :=
  pad 4 year ++ '-' :: (pad 2 month ++ '-' :: pad 2 day)

/-- `d.isoformat()`. -/
def isoformat (d : DateTime) : String :=
  String.ofList (dateText d.year d.month d.day ++ 'T' :: (d.clock.long ++ offsetText d.offset))

end Texts

section Reading

def readClock (l : List Char) : Option (Clock × List Char) := do
  let (hour, l) ← digits 2 l
  match l with
  | ':' :: l =>
    let (minute, l) ← digits 2 l
    match l with
    | ':' :: l =>
      let (second, l) ← digits 2 l
      match l with
      | '.' :: l =>
        let (microsecond, l) ← digits 6 l
        return (← clock? hour minute second microsecond, l)
      | l => return (← clock? hour minute second 0, l)
    | l => return (← clock? hour minute 0 0, l)
  | _ => none

def readOffset : List Char → Option (Option Offset)
  | [] => some none
  | '+' :: l => do
    let (ahead, []) ← readClock l | none
    return some ⟨false, ahead, fun h => absurd h Bool.false_ne_true⟩
  | '-' :: l => do
    let (ahead, []) ← readClock l | none
    if h : ahead = .midnight then return some .utc
    else return some ⟨true, ahead, fun _ => h⟩
  | _ => none

def dateTime? (year month day : ℕ) (clock : Clock) (offset : Option Offset) : Option DateTime :=
  if h : (1 ≤ year ∧ year ≤ 9999) ∧ (1 ≤ month ∧ month ≤ 12) ∧
      (1 ≤ day ∧ day ≤ daysInMonth year month) then
    some ⟨year, month, day, clock, offset, h.1, h.2.1, h.2.2⟩
  else none

/-- `datetime.fromisoformat` on the texts that `isoformat` writes. -/
def readIso (s : String) : Option DateTime := do
  let (year, '-' :: l) ← digits 4 s.toList | none
  let (month, '-' :: l) ← digits 2 l | none
  let (day, 'T' :: l) ← digits 2 l | none
  let (clock, l) ← readClock l
  dateTime? year month day clock (← readOffset l)

theorem readClock_long (c : Clock) {rest : List Char} (h : ∀ x ∈ rest.head?, x ≠ '.') :
    readClock (c.long ++ rest) = some (c, rest) := by
  have hhour : c.hour < 10 ^ 2 := by have := c.hour_lt; omega
  have hminute : c.minute < 10 ^ 2 := by have := c.minute_lt; omega
  have hsecond : c.second < 10 ^ 2 := by have := c.second_lt; omega
  have hmicro : c.microsecond < 10 ^ 6 := by have := c.microsecond_lt; omega
  have hclock := clock?_self c
  unfold readClock Clock.long Clock.short fraction
  by_cases hzero : c.microsecond = 0
  · rw [hzero] at hclock
    simp only [List.append_assoc, List.cons_append, digits_pad_of_lt hhour,
      digits_pad_of_lt hminute, digits_pad_of_lt hsecond, hzero, if_true, List.nil_append,
      Option.bind_eq_bind, Option.bind_some]
    split
    · exact absurd rfl (h '.' rfl)
    · simp [hclock]
  · simp [List.append_assoc, digits_pad_of_lt hhour, digits_pad_of_lt hminute,
      digits_pad_of_lt hsecond, digits_pad_of_lt hmicro, hzero, hclock]

theorem readClock_short (c : Clock) (hzero : c.second = 0 ∧ c.microsecond = 0) :
    readClock c.short = some (c, []) := by
  have hhour : c.hour < 10 ^ 2 := by have := c.hour_lt; omega
  have hminute : c.minute < 10 ^ 2 := by have := c.minute_lt; omega
  have hclock := clock?_self c
  rw [hzero.1, hzero.2] at hclock
  have hend := digits_pad_of_lt hminute []
  rw [List.append_nil] at hend
  unfold readClock Clock.short
  simp [digits_pad_of_lt hhour, hend, hclock]

theorem readOffset_text (o : Option Offset) : readOffset (offsetText o) = some o := by
  cases o with
  | none => rfl
  | some o =>
    obtain ⟨negative, ahead, hbehind⟩ := o
    have hlong : readClock (ahead.long ++ []) = some (ahead, []) := readClock_long ahead (by simp)
    rw [List.append_nil] at hlong
    unfold offsetText Offset.text
    by_cases hzero : ahead.second = 0 ∧ ahead.microsecond = 0
    · cases negative with
      | false => simp [hzero, readOffset, readClock_short ahead hzero]
      | true => simp [hzero, readOffset, readClock_short ahead hzero, hbehind rfl]
    · cases negative with
      | false => simp [hzero, readOffset, hlong]
      | true => simp [hzero, readOffset, hlong, hbehind rfl]

/-- A date-time is read back from its text. -/
theorem readIso_isoformat (d : DateTime) : readIso (isoformat d) = some d := by
  have hyear : d.year < 10 ^ 4 := by have := d.year_range; omega
  have hmonth : d.month < 10 ^ 2 := by have := d.month_range; omega
  have hday : d.day < 10 ^ 2 := by
    have := d.day_range
    have := daysInMonth_le d.year d.month
    omega
  have hhead : ∀ x ∈ (offsetText d.offset).head?, x ≠ '.' := by
    intro x hx
    cases hoffset : d.offset with
    | none => simp [hoffset, offsetText] at hx
    | some o =>
      simp only [hoffset, offsetText, Offset.text, List.head?_cons, Option.mem_def,
        Option.some.injEq] at hx
      subst hx
      split <;> decide
  have hbuilt : dateTime? d.year d.month d.day d.clock d.offset = some d :=
    dif_pos ⟨d.year_range, d.month_range, d.day_range⟩
  unfold readIso isoformat dateText
  simp [digits_pad_of_lt hyear, digits_pad_of_lt hmonth, digits_pad_of_lt hday,
    readClock_long d.clock hhead, readOffset_text, hbuilt]

theorem isoformat_injective : Function.Injective isoformat := by
  intro d d' h
  have hread := congrArg readIso h
  rw [readIso_isoformat, readIso_isoformat] at hread
  exact Option.some.inj hread

/-- The characters of a text of a date-time. -/
def isoChars : List Char := "0123456789-:+.T".toList

theorem mem_isoChars_of_digit {c : Char} (h : 48 ≤ c.toNat ∧ c.toNat ≤ 57) : c ∈ isoChars := by
  have hall : ∀ d < 10, Char.ofNat (48 + d) ∈ isoChars := by decide +kernel
  have hmem := hall (c.toNat - 48) (by omega)
  rwa [show 48 + (c.toNat - 48) = c.toNat by omega, Char.ofNat_toNat] at hmem

theorem mem_isoChars {d : DateTime} {c : Char} (h : c ∈ (isoformat d).toList) : c ∈ isoChars := by
  have hpad : ∀ {width n : ℕ}, c ∈ pad width n → c ∈ isoChars :=
    fun hc => mem_isoChars_of_digit (digit_of_mem_pad hc)
  have hfraction : ∀ {n : ℕ}, c ∈ fraction n → c ∈ isoChars := by
    intro n hc
    unfold fraction at hc
    split at hc
    · simp at hc
    · rcases List.mem_cons.mp hc with rfl | hc
      · decide
      · exact hpad hc
  have hshort : ∀ {k : Clock}, c ∈ k.short → c ∈ isoChars := by
    intro k hc
    rcases List.mem_append.mp hc with hc | hc
    · exact hpad hc
    · rcases List.mem_cons.mp hc with rfl | hc
      · decide
      · exact hpad hc
  have hlong : ∀ {k : Clock}, c ∈ k.long → c ∈ isoChars := by
    intro k hc
    rcases List.mem_append.mp hc with hc | hc
    · exact hshort hc
    · rcases List.mem_cons.mp hc with rfl | hc
      · decide
      · rcases List.mem_append.mp hc with hc | hc
        · exact hpad hc
        · exact hfraction hc
  simp only [isoformat, dateText, String.toList_ofList, List.mem_append, List.mem_cons] at h
  rcases h with (h | rfl | h | rfl | h) | rfl | h | h
  · exact hpad h
  · decide
  · exact hpad h
  · decide
  · exact hpad h
  · decide
  · exact hlong h
  · cases ho : d.offset with
    | none => simp [ho, offsetText] at h
    | some o =>
      simp only [ho, offsetText, Offset.text, List.mem_cons] at h
      rcases h with rfl | h
      · split <;> decide
      · split at h
        · exact hshort h
        · exact hlong h

end Reading

section Instants

def daysBeforeMonth (leap : Bool) (month : ℕ) : ℕ :=
  ([0, 31, 59, 90, 120, 151, 181, 212, 243, 273, 304, 334].getD (month - 1) 0) +
    (if month > 2 ∧ leap then 1 else 0)

/-- `_ymd2ord`: the days up to a date, from the first of January of year 1. -/
def ordinal (year month day : ℕ) : ℕ :=
  let y := year - 1
  y * 365 + y / 4 - y / 100 + y / 400 + daysBeforeMonth (isLeap year) month + day

/-- `_ord2ymd`. -/
def calendar (ordinal : ℕ) : ℕ × ℕ × ℕ :=
  let n := ordinal - 1
  let n400 := n / 146097
  let n := n % 146097
  let n100 := n / 36524
  let n := n % 36524
  let n4 := n / 1461
  let n := n % 1461
  let n1 := n / 365
  let n := n % 365
  let year := n400 * 400 + 1 + n100 * 100 + n4 * 4 + n1
  if n1 = 4 ∨ n100 = 4 then (year - 1, 12, 31)
  else
    let leap : Bool := n1 = 3 ∧ (n4 ≠ 24 ∨ n100 = 3)
    let month := (n + 50) / 32
    let month := if daysBeforeMonth leap month > n then month - 1 else month
    (year, month, n - daysBeforeMonth leap month + 1)

/-- Microseconds since midnight. -/
def Clock.micros (c : Clock) : ℤ :=
  ((c.hour * 60 + c.minute) * 60 + c.second) * 1000000 + c.microsecond

def Offset.micros (o : Offset) : ℤ := if o.negative then -o.ahead.micros else o.ahead.micros

def dayMicros : ℤ := 86400000000

/-- Microseconds of UTC since the day before year 1; a date-time without an
offset is read as UTC. -/
def DateTime.instant (d : DateTime) : ℤ :=
  ordinal d.year d.month d.day * dayMicros + d.clock.micros -
    (d.offset.map Offset.micros).getD 0

/-- The date-time in UTC at an instant; there is none outside the years 1 to 9999. -/
def utcAt (instant : ℤ) : Option DateTime :=
  let day := instant / dayMicros
  if 1 ≤ day ∧ day ≤ 3652059 then do
    let (year, month, date) := calendar day.toNat
    let micros := (instant % dayMicros).toNat
    let clock ← clock? (micros / 3600000000) (micros / 60000000 % 60) (micros / 1000000 % 60)
      (micros % 1000000)
    dateTime? year month date clock (some .utc)
  else none

/-- `d.astimezone(UTC)`. -/
def DateTime.toUtc (d : DateTime) : Option DateTime := utcAt d.instant

/-- `d + timedelta(seconds=n)`, of a date-time in UTC. -/
def DateTime.addSeconds (d : DateTime) (n : ℕ) : Option DateTime :=
  utcAt (d.instant + n * 1000000)

/-- What is added to is in UTC afterwards. -/
theorem aware_addSeconds {d e : DateTime} {n : ℕ} (h : d.addSeconds n = some e) : e.Aware := by
  unfold DateTime.addSeconds utcAt at h
  dsimp only at h
  split at h
  · simp only [Option.bind_eq_bind, Option.bind_eq_some_iff] at h
    obtain ⟨clock, _, hread⟩ := h
    unfold dateTime? at hread
    split at hread
    · cases hread
      rfl
    · cases hread
  · cases h

end Instants

end MemoryGuard.IsoText
