import MemoryGuard.CanonicalText
import MemoryGuard.Guarded
import MemoryGuard.IsoText
import MemoryGuard.Numbers

/-!
Reading stored JSON bodies back. A field of an object that was written with
unique keys is found under its key; texts, numbers, lists and date-times are
read as Python's constructors read them. What those constructors do with other
inputs is a parameter.
-/
namespace MemoryGuard.JsonReading

open OrderedDict JsonText Guarded IsoText CanonicalText Numbers

/-- The exceptions of the payment guard; `raised` is one of the interpreter's own. -/
inductive GuardError
  | integrity (message : String)
  | conflict (message : String)
  | unavailable (message : String)
  | notFound (message : String)
  | finalization (message : String)
  | value (message : String)
  | raised (name : String)
  deriving DecidableEq

/-- The constructors on texts that the service never writes: `fromisoformat` on
other forms, `int` and `float` of a text, `str` of a list or dictionary. -/
class Interpreter where
  isoOther : String → Option DateTime
  intText : String → Option ℤ
  floatText : String → Option Numeral
  repr : Json → String

/-- An interpreter that reads only what the service writes. -/
@[reducible] def strictInterpreter : Interpreter where
  isoOther _ := none
  intText _ := none
  floatText _ := none
  repr _ := ""

section Fields

/-- `body.get(k)`. -/
def field (k : String) : Json → Option Json
  | .obj fields => Dict.find k fields
  | _ => none

/-- `body[k]`. -/
def required (k : String) (v : Json) : Except GuardError Json :=
  fetch (field k v) (.raised "KeyError")

theorem field_object {l : List (String × Json)} (hkeys : (l.map Prod.fst).Nodup) (k : String) :
    field k (object l) = Dict.find k l := by
  have hperm : (byKey l).Perm l := List.perm_insertionSort _ l
  have hsorted : ((byKey l).map Prod.fst).Nodup := (hperm.map _).nodup_iff.mpr hkeys
  cases hfind : Dict.find k l with
  | none =>
    have hout : k ∉ l.map Prod.fst := Dict.find_eq_none_iff.mp hfind
    exact Dict.find_eq_none_iff.mpr fun hk => hout ((hperm.map _).mem_iff.mp hk)
  | some v =>
    have hmem : (k, v) ∈ l := (Dict.find_eq_some_iff _ _ _ hkeys).mp hfind
    exact (Dict.find_eq_some_iff _ _ _ hsorted).mpr (mem_byKey.mpr hmem)

end Fields

section Enumerations

variable {α : Type}

/-- The member of an enumeration with a given value. -/
def member (members : List α) (text : α → String) (s : String) : Except GuardError α :=
  fetch (members.find? fun a => text a = s) (.raised "ValueError")

theorem member_text {members : List α} {text : α → String} (hinj : Function.Injective text) {a : α}
    (ha : a ∈ members) : member members text (text a) = .ok a := by
  refine fetch_eq_ok.mpr ?_
  cases hfind : members.find? (fun b => text b = text a) with
  | none =>
    have hnot := List.find?_eq_none.mp hfind a ha
    exact absurd (decide_eq_true rfl) hnot
  | some b =>
    have hb := List.find?_some hfind
    rw [hinj (of_decide_eq_true hb)]

end Enumerations

section Scalars

/-- Whether a value counts as true. -/
def truthy : Json → Bool
  | .null => false
  | .bool b => b
  | .num n => value n ≠ 0
  | .str s => s ≠ ""
  | .arr items => !items.isEmpty
  | .obj fields => !fields.isEmpty

/-- The number that a value equals; truth values are numbers. -/
def numeric : Json → Option ℚ
  | .num n => some (value n)
  | .bool b => some (if b then 1 else 0)
  | _ => none

mutual

/-- `v == w`. -/
def equal : Json → Json → Bool
  | .arr vs, .arr ws => equalItems vs ws
  | .obj fs, .obj gs => equalFields fs gs
  | v, w =>
    match numeric v, numeric w with
    | some x, some y => x = y
    | none, none => v = w
    | _, _ => false

def equalItems : List Json → List Json → Bool
  | [], [] => true
  | v :: vs, w :: ws => equal v w && equalItems vs ws
  | _, _ => false

def equalFields : List (String × Json) → List (String × Json) → Bool
  | [], [] => true
  | (k, v) :: fs, (l, w) :: gs => k = l && equal v w && equalFields fs gs
  | _, _ => false

end

/-- `bool(v)`. -/
def boolOf (v : Json) : Bool := truthy v

/-- `dict(v)`. -/
def dictOf : Json → Except GuardError Json
  | .obj fields => .ok (.obj fields)
  | _ => .error (.raised "TypeError")

/-- `tuple(v)`, for a list. -/
def itemsOf : Json → Except GuardError (List Json)
  | .arr items => .ok items
  | _ => .error (.raised "TypeError")

variable [Interpreter]

/-- `str(v)`. -/
def strOf : Json → String
  | .null => "None"
  | .bool b => if b then "True" else "False"
  | .num n => String.ofList (n.text.map fun b => Char.ofNat b.toNat)
  | .str s => s
  | v => Interpreter.repr v

/-- `str(v) if v else None`. -/
def textOrNone (v : Json) : Option String := if truthy v then some (strOf v) else none

/-- `int(v)`. -/
def intOf : Json → Except GuardError ℤ
  | .num n => .ok ((integer n).getD (if value n < 0 then (value n).ceil else (value n).floor))
  | .bool b => .ok (if b then 1 else 0)
  | .str s => fetch (Interpreter.intText s) (.raised "ValueError")
  | _ => .error (.raised "TypeError")

/-- `float(n)` of an integer. What is larger than a float can hold is refused;
beyond two to the 53rd only the size of the result is used. -/
def floatOfInt (n : ℤ) : Except GuardError Numeral :=
  if n.natAbs < 2 ^ 1024 - 2 ^ 970 then .ok (pointZero n) else .error (.raised "OverflowError")

/-- `float(v)`. -/
def floatOf : Json → Except GuardError Numeral
  | .num n =>
    match integer n with
    | some k => floatOfInt k
    | none => .ok n
  | .bool b => .ok (pointZero (if b then 1 else 0))
  | .str s => fetch (Interpreter.floatText s) (.raised "ValueError")
  | _ => .error (.raised "TypeError")

theorem floatOf_integer {n : Numeral} {k : ℤ} (h : integer n = some k) :
    floatOf (.num n) = floatOfInt k := by
  simp only [floatOf, h]

theorem floatOf_floating {n : Numeral} (h : integer n = none) : floatOf (.num n) = .ok n := by
  simp only [floatOf, h]

/-- A float is read as itself. -/
theorem floatOf_floatOf {n y : Numeral} (h : floatOf (.num n) = .ok y) :
    floatOf (.num y) = .ok y := by
  apply floatOf_floating
  cases hn : integer n with
  | none =>
    rw [floatOf_floating hn] at h
    cases h
    exact hn
  | some k =>
    rw [floatOf_integer hn, floatOfInt] at h
    by_cases hsmall : k.natAbs < 2 ^ 1024 - 2 ^ 970
    · rw [if_pos hsmall] at h
      cases h
      exact integer_pointZero k
    · rw [if_neg hsmall] at h
      cases h

@[simp] theorem intOf_int (n : ℤ) : intOf (int n) = .ok n := by
  unfold intOf int
  simp only [integer_ofInt, Option.getD_some]

@[simp] theorem intOf_nat (n : ℕ) : intOf (nat n) = .ok (n : ℤ) := intOf_int n

theorem map_strOf (l : List String) : (l.map Json.str).map strOf = l := by
  rw [List.map_map]
  exact List.map_id l

theorem textOrNone_optional {o : Option String} (h : o ≠ some "") :
    textOrNone (JsonText.optional .str o) = o := by
  cases o with
  | none => rfl
  | some s =>
    have hs : s ≠ "" := fun heq => h (heq ▸ rfl)
    unfold textOrNone JsonText.optional
    simp [truthy, strOf, hs]

end Scalars

section Times

/-- `value.replace("Z", "+00:00")`. -/
def replaceZ (s : String) : String :=
  String.ofList (s.toList.flatMap fun c => if c = 'Z' then "+00:00".toList else [c])

variable [Interpreter]

/-- `datetime.fromisoformat`. -/
def fromisoformat (s : String) : Option DateTime :=
  (readIso s).orElse fun _ => Interpreter.isoOther s

/-- `_parse_time`: a date-time without an offset is taken as UTC. -/
def parseTime (v : Json) : Except GuardError DateTime :=
  match v with
  | .str text => do
    let parsed ← fetch (fromisoformat (replaceZ text)) (.raised "ValueError")
    return if parsed.Aware then parsed else parsed.inUtc
  | _ => .error (.raised "AttributeError")

omit [Interpreter] in
theorem replaceZ_isoformat (d : DateTime) : replaceZ (isoformat d) = isoformat d := by
  have hsame : ∀ l : List Char, 'Z' ∉ l →
      l.flatMap (fun c => if c = 'Z' then "+00:00".toList else [c]) = l := by
    intro l hl
    induction l with
    | nil => rfl
    | cons c rest ih =>
      have hc : c ≠ 'Z' := fun h => hl (h ▸ List.mem_cons_self)
      have hrest := ih (fun h => hl (List.mem_cons_of_mem _ h))
      rw [List.flatMap_cons, if_neg hc, hrest]
      rfl
  have hZ : 'Z' ∉ (isoformat d).toList := fun h => absurd (mem_isoChars h) (by decide)
  unfold replaceZ
  rw [hsame _ hZ, String.ofList_toList]

theorem fromisoformat_isoformat (d : DateTime) : fromisoformat (isoformat d) = some d := by
  unfold fromisoformat
  rw [readIso_isoformat]
  rfl

/-- What is read back of a date-time that was stored. -/
def reread (d : DateTime) : DateTime := if d.Aware then d else d.inUtc

theorem parseTime_isoformat (d : DateTime) : parseTime (.str (isoformat d)) = .ok (reread d) := by
  unfold parseTime
  simp only [bind_eq_ok, fetch_eq_ok, pure_eq_ok, replaceZ_isoformat, fromisoformat_isoformat,
    Option.some.injEq, exists_eq_left']
  rfl

omit [Interpreter] in
theorem reread_of_aware {d : DateTime} (h : d.Aware) : reread d = d := if_pos h

omit [Interpreter] in
theorem aware_reread (d : DateTime) : (reread d).Aware := by
  by_cases h : d.Aware
  · rwa [reread_of_aware h]
  · rw [reread, if_neg h]
    exact rfl

omit [Interpreter] in
/-- A date-time changes when it is stored without an offset. -/
theorem reread_eq_iff {d : DateTime} : reread d = d ↔ d.Aware := by
  constructor
  · intro h
    exact h ▸ aware_reread d
  · exact reread_of_aware

omit [Interpreter] in
/-- The texts of date-times are ASCII. -/
theorem ascii_isoformat (d : DateTime) : Ascii (isoformat d) := by
  intro c hc
  have hall : isoChars.all (fun x => x.toNat < 128) = true := by decide
  exact of_decide_eq_true (List.all_eq_true.mp hall c (mem_isoChars hc))

end Times

end MemoryGuard.JsonReading
