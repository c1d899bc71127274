import MemoryGuard.Guarded
import MemoryGuard.Worklist
import Mathlib.Algebra.Order.Ring.Rat
import Mathlib.Data.Nat.Digits.Defs

/-!
The JSON scanner of the standard library, with the two hooks by which a caller
decides what an object and a constant become. Texts are lists of code points,
so that an escape can put an unpaired surrogate into one. The scanner is given
as many steps as its text can need; its own limits are the depth to which it can
recurse and the number of digits that an integer may have.
-/
namespace MemoryGuard.JsonScanner

open Guarded Worklist

section Values

/-- Surrogates are code points, too. -/
abbrev CodePoint := Fin 0x110000

abbrev Text := List CodePoint

def codePoint (c : Char) : CodePoint :=
  ⟨c.toNat, c.valid.elim (fun h => Nat.lt_trans h (by decide)) fun h => h.2⟩

def text (s : String) : Text := s.toList.map codePoint

/-- A float by its literal. -/
structure Decimal where
  negative : Bool
  mantissa : ℕ
  exponent : ℤ
  deriving DecidableEq

def Decimal.value (x : Decimal) : ℚ :=
  (if x.negative then -1 else 1) * (x.mantissa * (10 : ℚ) ^ x.exponent)

/-- `math.isfinite`, of the float that is nearest to a literal. -/
def Decimal.IsFinite (x : Decimal) : Prop := |x.value| < 2 ^ 1024 - 2 ^ 970

instance (x : Decimal) : Decidable x.IsFinite := by
  unfold Decimal.IsFinite
  infer_instance

inductive Constant
  | nan
  | infinity
  | negativeInfinity
  deriving DecidableEq

/-- The values that JSON texts denote. The fields of a dictionary stand in their
order; whether a key is repeated depends on who has built the value. -/
inductive Value
  | null
  | bool (b : Bool)
  | int (n : ℤ)
  | float (x : Decimal)
  | constant (c : Constant)
  | str (s : Text)
  | list (items : List Value)
  | dict (fields : List (Text × Value))

namespace Value

def children : Value → List Value
  | .list items => items
  | .dict fields => fields.map Prod.snd
  | _ => []

mutual

/-- The number of nodes of a value. -/
def nodes : Value → ℕ
  | .list items => nodesItems items + 1
  | .dict fields => nodesFields fields + 1
  | _ => 1

def nodesItems : List Value → ℕ
  | [] => 0
  | v :: vs => nodes v + nodesItems vs

def nodesFields : List (Text × Value) → ℕ
  | [] => 0
  | (_, v) :: fs => nodes v + nodesFields fs

end

theorem nodesItems_eq (l : List Value) : nodesItems l = (l.map nodes).sum := by
  induction l with
  | nil => rfl
  | cons v vs ih => rw [nodesItems, List.map_cons, List.sum_cons, ih]

theorem nodesFields_eq (l : List (Text × Value)) :
    nodesFields l = ((l.map Prod.snd).map nodes).sum := by
  induction l with
  | nil => rfl
  | cons f fs ih => rw [nodesFields, List.map_cons, List.map_cons, List.sum_cons, ih]

theorem counts_nodes : Counts children nodes := by
  constructor
  intro v
  cases v with
  | list items => rw [nodes, nodesItems_eq, children]
  | dict fields => rw [nodes, nodesFields_eq, children]
  | _ => rfl

mutual

def same : Value → Value → Bool
  | .null, .null => true
  | .bool b, .bool c => b = c
  | .int n, .int k => n = k
  | .float x, .float y => x = y
  | .constant c, .constant d => c = d
  | .str s, .str t => s = t
  | .list vs, .list ws => sameItems vs ws
  | .dict fs, .dict gs => sameFields fs gs
  | _, _ => false

def sameItems : List Value → List Value → Bool
  | [], [] => true
  | v :: vs, w :: ws => same v w && sameItems vs ws
  | _, _ => false

def sameFields : List (Text × Value) → List (Text × Value) → Bool
  | [], [] => true
  | (k, v) :: fs, (k', w) :: gs => k = k' && same v w && sameFields fs gs
  | _, _ => false

end

mutual

theorem same_iff : ∀ v w : Value, same v w = true ↔ v = w
  | .null, w => by cases w <;> simp [same]
  | .bool b, w => by cases w <;> simp [same]
  | .int n, w => by cases w <;> simp [same]
  | .float x, w => by cases w <;> simp [same]
  | .constant c, w => by cases w <;> simp [same]
  | .str s, w => by cases w <;> simp [same]
  | .list vs, w => by cases w <;> simp [same, sameItems_iff vs]
  | .dict fs, w => by cases w <;> simp [same, sameFields_iff fs]

theorem sameItems_iff : ∀ vs ws : List Value, sameItems vs ws = true ↔ vs = ws
  | [], ws => by cases ws <;> simp [sameItems]
  | v :: vs, ws => by cases ws <;> simp [sameItems, same_iff v, sameItems_iff vs]

theorem sameFields_iff : ∀ fs gs : List (Text × Value), sameFields fs gs = true ↔ fs = gs
  | [], gs => by cases gs <;> simp [sameFields]
  | (k, v) :: fs, gs => by
    cases gs with
    | nil => simp [sameFields]
    | cons g gs => simp [sameFields, same_iff v, sameFields_iff fs, Prod.ext_iff]

end

instance : DecidableEq Value := fun v w => decidable_of_iff (same v w = true) (same_iff v w)

/-- The keys of a dictionary. -/
def keys : Value → List Text
  | .dict fields => fields.map Prod.fst
  | _ => []

def isObject : Value → Bool
  | .dict _ => true
  | _ => false

def isConstant : Value → Bool
  | .constant _ => true
  | _ => false

end Value

end Values

section Errors

/-- The exceptions that reading a text can end with. -/
inductive Raised
  | value (message : String)
  | unicode
  | decode
  | recursion
  deriving DecidableEq

/-- A Unicode error and a decoding error are value errors. -/
def Raised.IsValueError (e : Raised) : Prop := e ≠ .recursion

/-- How deep the scanner can recurse, and how many digits an integer may have. -/
structure Limits where
  recursion : ℕ
  digits : ℕ

/-- What objects and constants become. -/
structure Hooks where
  object_pairs_hook : List (Text × Value) → Except Raised Value
  parse_constant : Constant → Except Raised Value

end Errors

section Strings

/-- What stands between quotes: a character, or sixteen bits that are escaped. -/
inductive CodeUnit
  | char (c : CodePoint)
  | escaped (u : Fin 0x10000)
  deriving DecidableEq

def hexDigit (c : Char) : Option (Fin 16) :=
  if '0' ≤ c ∧ c ≤ '9' then some (Fin.ofNat 16 (c.toNat - 48))
  else if 'a' ≤ c ∧ c ≤ 'f' then some (Fin.ofNat 16 (c.toNat - 87))
  else if 'A' ≤ c ∧ c ≤ 'F' then some (Fin.ofNat 16 (c.toNat - 55))
  else none

/-- The four digits of an escape. -/
def hexEscape (a b c d : Char) : Option (Fin 0x10000) := do
  let a ← hexDigit a
  let b ← hexDigit b
  let c ← hexDigit c
  let d ← hexDigit d
  return ⟨a * 4096 + b * 256 + c * 16 + d, by omega⟩

def shortEscape (c : Char) : Option CodePoint :=
  match c with
  | '"' => some 34
  | '\\' => some 92
  | '/' => some 47
  | 'b' => some 8
  | 'f' => some 12
  | 'n' => some 10
  | 'r' => some 13
  | 't' => some 9
  | _ => none

/-- `scanstring`, behind the opening quote and before surrogates are joined. -/
def scanUnits : List Char → Except Raised (List CodeUnit × List Char)
  | [] => .error .decode
  | '"' :: rest => .ok ([], rest)
  | '\\' :: 'u' :: a :: b :: c :: d :: rest => do
    let u ← fetch (hexEscape a b c d) .decode
    let (units, rest) ← scanUnits rest
    return (.escaped u :: units, rest)
  | '\\' :: c :: rest => do
    let c ← fetch (shortEscape c) .decode
    let (units, rest) ← scanUnits rest
    return (.char c :: units, rest)
  | c :: rest => do
    ensure (32 ≤ c.toNat ∧ c ≠ '\\') .decode
    let (units, rest) ← scanUnits rest
    return (.char (codePoint c) :: units, rest)

def IsHigh (u : Fin 0x10000) : Prop := 0xD800 ≤ u.val ∧ u.val < 0xDC00

def IsLow (u : Fin 0x10000) : Prop := 0xDC00 ≤ u.val ∧ u.val < 0xE000

instance (u : Fin 0x10000) : Decidable (IsHigh u) := inferInstanceAs (Decidable (_ ∧ _))

instance (u : Fin 0x10000) : Decidable (IsLow u) := inferInstanceAs (Decidable (_ ∧ _))

/-- The code point of a surrogate pair. -/
def paired (u v : Fin 0x10000) : CodePoint :=
  ⟨0x10000 + u.val % 0x400 * 0x400 + v.val % 0x400, by omega⟩

/-- Only two escapes that stand together can be a pair. -/
def joined : List CodeUnit → Text
  | [] => []
  | .char c :: rest => c :: joined rest
  | .escaped u :: .escaped v :: rest =>
    if IsHigh u ∧ IsLow v then paired u v :: joined rest
    else u.castLE (by decide) :: joined (.escaped v :: rest)
  | .escaped u :: rest => u.castLE (by decide) :: joined rest

def scanString (l : List Char) : Except Raised (Text × List Char) := do
  let (units, rest) ← scanUnits l
  return (joined units, rest)

end Strings

section Numbers

def takeDigits (l : List Char) : List Char × List Char :=
  (l.takeWhile Char.isDigit, l.dropWhile Char.isDigit)

def natural (digits : List Char) : ℕ := Nat.ofDigitChars 10 digits 0

def takeMinus : List Char → Bool × List Char
  | '-' :: rest => (true, rest)
  | l => (false, l)

/-- The digits before the point: a zero, or digits that do not begin with one. -/
def takeInteger : List Char → Option (List Char × List Char)
  | '0' :: rest => some (['0'], rest)
  | c :: rest => if c.isDigit then some (takeDigits (c :: rest)) else none
  | [] => none

/-- A point counts only when a digit follows it. -/
def takeFraction : List Char → List Char × List Char
  | '.' :: rest =>
    match takeDigits rest with
    | ([], _) => ([], '.' :: rest)
    | taken => taken
  | l => ([], l)

def takeSign : List Char → Bool × List Char
  | '-' :: rest => (true, rest)
  | '+' :: rest => (false, rest)
  | l => (false, l)

def takeExponent : List Char → Option ℤ × List Char
  | [] => (none, [])
  | c :: rest =>
    if c = 'e' ∨ c = 'E' then
      let (negative, digits) := takeSign rest
      match takeDigits digits with
      | ([], _) => (none, c :: rest)
      | (ds, rest) => (some (if negative then -natural ds else natural ds), rest)
    else (none, c :: rest)

/-- A number without fraction and exponent is an integer. -/
def numberOf (limits : Limits) (negative : Bool) (digits fraction : List Char)
    (exponent : Option ℤ) : Except Raised Value :=
  if fraction = [] ∧ exponent = none then do
    ensure (digits.length ≤ limits.digits)
      (.value "Exceeds the limit for integer string conversion")
    return .int (if negative then -natural digits else natural digits)
  else
    return .float ⟨negative, natural (digits ++ fraction), exponent.getD 0 - fraction.length⟩

/-- A number at the beginning of a text, if there is one. -/
def scanNumber (limits : Limits) (l : List Char) : Option (Except Raised Value × List Char) := do
  let (negative, l) := takeMinus l
  let (digits, l) ← takeInteger l
  let (fraction, l) := takeFraction l
  let (exponent, l) := takeExponent l
  return (numberOf limits negative digits fraction exponent, l)

end Numbers

section Scanning

variable (hooks : Hooks) (limits : Limits)

def isBlank (c : Char) : Bool := c = ' ' ∨ c = '\t' ∨ c = '\n' ∨ c = '\r'

def skip (l : List Char) : List Char := l.dropWhile isBlank

def scanConstant : List Char → Option (Constant × List Char)
  | 'N' :: 'a' :: 'N' :: rest => some (.nan, rest)
  | 'I' :: 'n' :: 'f' :: 'i' :: 'n' :: 'i' :: 't' :: 'y' :: rest => some (.infinity, rest)
  | '-' :: 'I' :: 'n' :: 'f' :: 'i' :: 'n' :: 'i' :: 't' :: 'y' :: rest =>
    some (.negativeInfinity, rest)
  | _ => none

/-- A value that has no parts and is no constant, if the text begins with one. -/
def scanScalar (limits : Limits) : List Char → Option (Except Raised (Value × List Char))
  | '"' :: rest => some do
    let (s, rest) ← scanString rest
    return (.str s, rest)
  | 'n' :: 'u' :: 'l' :: 'l' :: rest => some (.ok (.null, rest))
  | 't' :: 'r' :: 'u' :: 'e' :: rest => some (.ok (.bool true, rest))
  | 'f' :: 'a' :: 'l' :: 's' :: 'e' :: rest => some (.ok (.bool false, rest))
  | l => (scanNumber limits l).map fun (number, rest) => do return (← number, rest)

/-- A value that has no parts. -/
def scanAtom (l : List Char) : Except Raised (Value × List Char) :=
  match scanScalar limits l with
  | some scanned => scanned
  | none => do
    let (constant, rest) ← fetch (scanConstant l) .decode
    return (← hooks.parse_constant constant, rest)

/-- One level deeper, or a recursion error. -/
def deeper : ℕ → Except Raised ℕ
  | 0 => .error .recursion
  | room + 1 => .ok room

/-- What stands behind a mark. -/
def behind (mark : Char) : List Char → Except Raised (List Char)
  | c :: rest => if c = mark then .ok rest else .error .decode
  | [] => .error .decode

/-- The parts between two brackets, none when the closing one comes at once. -/
def enclosed {γ : Type} (close : Char) (l : List Char)
    (parts : List Char → Except Raised (List γ × List Char)) :
    Except Raised (List γ × List Char) :=
  if l.head? = some close then .ok ([], l.tail) else parts l

/-- Behind a part: a comma and more parts, or the closing bracket. -/
def continued {γ : Type} (close : Char) (part : γ) (l : List Char)
    (parts : List Char → Except Raised (List γ × List Char)) :
    Except Raised (List γ × List Char) :=
  if l.head? = some ',' then do
    let (more, rest) ← parts (skip l.tail)
    return (part :: more, rest)
  else do
    let rest ← behind close l
    return ([part], rest)

mutual

/-- `scan_once`. -/
def scanOnce : ℕ → ℕ → List Char → Except Raised (Value × List Char)
  | 0, _, _ => .error .decode
  | fuel + 1, room, l =>
    if l.head? = some '{' then do
      let room ← deeper room
      let (pairs, rest) ← enclosed '}' (skip l.tail) (scanPairs fuel room)
      return (← hooks.object_pairs_hook pairs, rest)
    else if l.head? = some '[' then do
      let room ← deeper room
      let (items, rest) ← enclosed ']' (skip l.tail) (scanItems fuel room)
      return (.list items, rest)
    else scanAtom hooks limits l

/-- The pairs of an object, from the first quote on. -/
def scanPairs : ℕ → ℕ → List Char → Except Raised (List (Text × Value) × List Char)
  | 0, _, _ => .error .decode
  | fuel + 1, room, l => do
    let (key, rest) ← scanString (← behind '"' l)
    let (value, rest) ← scanOnce fuel room (skip (← behind ':' (skip rest)))
    continued '}' (key, value) (skip rest) (scanPairs fuel room)

/-- The items of an array, from the first one on. -/
def scanItems : ℕ → ℕ → List Char → Except Raised (List Value × List Char)
  | 0, _, _ => .error .decode
  | fuel + 1, room, l => do
    let (value, rest) ← scanOnce fuel room l
    continued ']' value (skip rest) (scanItems fuel room)

end

/-- `json.loads`, of a text that is given with its hooks. A byte order mark is
refused, and so is anything behind the value. -/
def loads (text : List Char) : Except Raised Value := do
  ensure (text.head? ≠ some (Char.ofNat 0xFEFF)) .decode
  let (value, rest) ← scanOnce hooks limits (2 * text.length + 1) limits.recursion (skip text)
  ensure (skip rest = []) .decode
  return value

/-- The hooks that keep what a text says. -/
def plainHooks : Hooks where
  object_pairs_hook pairs := .ok (.dict pairs)
  parse_constant c := .ok (.constant c)

end Scanning

section Hooks

variable {hooks : Hooks} {limits : Limits} {fuel room : ℕ} {l rest : List Char} {v : Value}

theorem scanOnce_ok_iff : scanOnce hooks limits (fuel + 1) room l = .ok (v, rest) ↔
    (l.head? = some '{' ∧ ∃ r, deeper room = .ok r ∧ ∃ pairs,
      enclosed '}' (skip l.tail) (scanPairs hooks limits fuel r) = .ok (pairs, rest) ∧
        hooks.object_pairs_hook pairs = .ok v) ∨
    (l.head? = some '[' ∧ ∃ r, deeper room = .ok r ∧ ∃ items,
      enclosed ']' (skip l.tail) (scanItems hooks limits fuel r) = .ok (items, rest) ∧
        .list items = v) ∨
    (l.head? ≠ some '{' ∧ l.head? ≠ some '[' ∧ scanAtom hooks limits l = .ok (v, rest)) := by
  rw [scanOnce]
  by_cases hobject : l.head? = some '{'
  · simp [hobject, -bind_pure_comp, -map_bind]
  · by_cases harray : l.head? = some '['
    · simp [harray, -bind_pure_comp]
    · simp [hobject, harray]

theorem scanPairs_ok_iff {pairs : List (Text × Value)} :
    scanPairs hooks limits (fuel + 1) room l = .ok (pairs, rest) ↔
      ∃ l', behind '"' l = .ok l' ∧ ∃ key l₁, scanString l' = .ok (key, l₁) ∧
        ∃ l₂, behind ':' (skip l₁) = .ok l₂ ∧
          ∃ value l₃, scanOnce hooks limits fuel room (skip l₂) = .ok (value, l₃) ∧
            continued '}' (key, value) (skip l₃) (scanPairs hooks limits fuel room) =
              .ok (pairs, rest) := by
  rw [scanPairs]
  simp

theorem scanItems_ok_iff {items : List Value} :
    scanItems hooks limits (fuel + 1) room l = .ok (items, rest) ↔
      ∃ value l', scanOnce hooks limits fuel room l = .ok (value, l') ∧
        continued ']' value (skip l') (scanItems hooks limits fuel room) = .ok (items, rest) := by
  rw [scanItems]
  simp

theorem enclosed_ok_iff {γ : Type} {close : Char}
    {parts : List Char → Except Raised (List γ × List Char)} {ps : List γ} :
    enclosed close l parts = .ok (ps, rest) ↔
      (l.head? = some close ∧ ps = [] ∧ l.tail = rest) ∨
        (l.head? ≠ some close ∧ parts l = .ok (ps, rest)) := by
  unfold enclosed
  by_cases h : l.head? = some close
  · simp [h, eq_comm]
  · simp [h]

theorem continued_ok_iff {γ : Type} {close : Char} {part : γ}
    {parts : List Char → Except Raised (List γ × List Char)} {ps : List γ} :
    continued close part l parts = .ok (ps, rest) ↔
      (l.head? = some ',' ∧ ∃ more, parts (skip l.tail) = .ok (more, rest) ∧ ps = part :: more) ∨
        (l.head? ≠ some ',' ∧ behind close l = .ok rest ∧ ps = [part]) := by
  unfold continued
  by_cases h : l.head? = some ','
  · simp [h, eq_comm (a := ps), -bind_pure_comp]
  · simp [h, eq_comm (a := ps), -bind_pure_comp]

/-- Hooks that refuse some of the objects and constants, and keep the others. -/
structure Refusing (hooks : Hooks) (Good : Value → Prop) : Prop where
  object : ∀ pairs v, hooks.object_pairs_hook pairs = .ok v ↔ .dict pairs = v ∧ Good v
  constant : ∀ c v, hooks.parse_constant c = .ok v ↔ .constant c = v ∧ Good v
  others : ∀ v : Value, v.isObject = false → v.isConstant = false → Good v

theorem refusing_plain : Refusing plainHooks fun _ => True where
  object pairs v := by simp [plainHooks]
  constant c v := by simp [plainHooks]
  others _ _ _ := trivial

theorem numberOf_atom {negative : Bool} {digits fraction : List Char} {exponent : Option ℤ}
    (h : numberOf limits negative digits fraction exponent = .ok v) :
    v.children = [] ∧ v.isObject = false ∧ v.isConstant = false := by
  unfold numberOf at h
  split at h
  · simp only [bind_eq_ok, pure_eq_ok] at h
    obtain ⟨_, _, rfl⟩ := h
    exact ⟨rfl, rfl, rfl⟩
  · cases h
    exact ⟨rfl, rfl, rfl⟩

theorem scanScalar_atom (hl : scanScalar limits l = some (.ok (v, rest))) :
    v.children = [] ∧ v.isObject = false ∧ v.isConstant = false := by
  unfold scanScalar at hl
  split at hl
  · have hok := Option.some.inj hl
    simp only [bind_eq_ok, pure_eq_ok, Prod.mk.injEq] at hok
    obtain ⟨_, _, rfl, _⟩ := hok
    exact ⟨rfl, rfl, rfl⟩
  · cases hl
    exact ⟨rfl, rfl, rfl⟩
  · cases hl
    exact ⟨rfl, rfl, rfl⟩
  · cases hl
    exact ⟨rfl, rfl, rfl⟩
  · obtain ⟨⟨number, l'⟩, hnumber, hok⟩ := Option.map_eq_some_iff.mp hl
    simp only [bind_eq_ok, pure_eq_ok, Prod.mk.injEq] at hok
    obtain ⟨_, hv, rfl, _⟩ := hok
    unfold scanNumber at hnumber
    simp only [Option.bind_eq_bind, Option.bind_eq_some_iff] at hnumber
    obtain ⟨_, _, heq⟩ := hnumber
    cases heq
    exact numberOf_atom hv

/-- The hooks of an atom only decide about constants. -/
theorem scanAtom_plain {Good : Value → Prop} (hhooks : Refusing hooks Good) :
    scanAtom hooks limits l = .ok (v, rest) ↔
      scanAtom plainHooks limits l = .ok (v, rest) ∧ v.children = [] ∧ Good v := by
  unfold scanAtom
  cases hscalar : scanScalar limits l with
  | some scanned =>
    constructor
    · rintro rfl
      obtain ⟨hchildren, hobject, hconstant⟩ := scanScalar_atom hscalar
      exact ⟨rfl, hchildren, hhooks.others v hobject hconstant⟩
    · exact fun h => h.1
  | none =>
    simp only [bind_eq_ok, fetch_eq_ok, pure_eq_ok, Prod.mk.injEq, Prod.exists, plainHooks,
      Except.ok.injEq, hhooks.constant]
    constructor
    · rintro ⟨c, l', hc, _, ⟨rfl, hgood⟩, rfl, rfl⟩
      exact ⟨⟨c, l', hc, _, rfl, rfl, rfl⟩, rfl, hgood⟩
    · rintro ⟨⟨c, l', hc, _, rfl, rfl, rfl⟩, _, hgood⟩
      exact ⟨c, l', hc, _, ⟨rfl, hgood⟩, rfl, rfl⟩

/-- One way to scan parts succeeds when another does and the parts are in order. -/
def Sifts {γ : Type} (parts parts' : List Char → Except Raised (List γ × List Char))
    (Q : γ → Prop) : Prop :=
  ∀ l ps rest, parts l = .ok (ps, rest) ↔ parts' l = .ok (ps, rest) ∧ ∀ p ∈ ps, Q p

section Sifting

variable {γ : Type} {parts parts' : List Char → Except Raised (List γ × List Char)} {Q : γ → Prop}
  {close : Char}

theorem enclosed_sifts (h : Sifts parts parts' Q) :
    Sifts (enclosed close · parts) (enclosed close · parts') Q := by
  intro l ps rest
  simp only [enclosed_ok_iff, h l ps rest]
  constructor
  · rintro (⟨hclose, rfl, hrest⟩ | ⟨hopen, hparts, hall⟩)
    · exact ⟨Or.inl ⟨hclose, rfl, hrest⟩, fun p hp => absurd hp List.not_mem_nil⟩
    · exact ⟨Or.inr ⟨hopen, hparts⟩, hall⟩
  · rintro ⟨⟨hclose, rfl, hrest⟩ | ⟨hopen, hparts⟩, hall⟩
    · exact Or.inl ⟨hclose, rfl, hrest⟩
    · exact Or.inr ⟨hopen, hparts, hall⟩

theorem continued_sifts (h : Sifts parts parts' Q) {part : γ} {ps : List γ} :
    (continued close part l parts = .ok (ps, rest) ∧ Q part) ↔
      continued close part l parts' = .ok (ps, rest) ∧ ∀ p ∈ ps, Q p := by
  simp only [continued_ok_iff, h _ _ rest]
  constructor
  · rintro ⟨⟨hcomma, more, ⟨hmore, hall⟩, rfl⟩ | ⟨hcomma, hclose, rfl⟩, hpart⟩
    · exact ⟨Or.inl ⟨hcomma, more, hmore, rfl⟩, List.forall_mem_cons.mpr ⟨hpart, hall⟩⟩
    · exact ⟨Or.inr ⟨hcomma, hclose, rfl⟩, List.forall_mem_singleton.mpr hpart⟩
  · rintro ⟨⟨hcomma, more, hmore, rfl⟩ | ⟨hcomma, hclose, rfl⟩, hall⟩
    · obtain ⟨hpart, hrest⟩ := List.forall_mem_cons.mp hall
      exact ⟨Or.inl ⟨hcomma, more, ⟨hmore, hrest⟩, rfl⟩, hpart⟩
    · exact ⟨Or.inr ⟨hcomma, hclose, rfl⟩, List.forall_mem_singleton.mp hall⟩

end Sifting

/-- Hooks that refuse some objects and constants let a text through when none of
those is found anywhere in its value. -/
theorem scan_plain {Good : Value → Prop} (hhooks : Refusing hooks Good) (fuel : ℕ) :
    (∀ room l v rest, scanOnce hooks limits fuel room l = .ok (v, rest) ↔
      scanOnce plainHooks limits fuel room l = .ok (v, rest) ∧
        Everywhere Value.children Good v) ∧
    (∀ room, Sifts (scanPairs hooks limits fuel room) (scanPairs plainHooks limits fuel room)
      fun p => Everywhere Value.children Good p.2) ∧
    (∀ room, Sifts (scanItems hooks limits fuel room) (scanItems plainHooks limits fuel room)
      (Everywhere Value.children Good)) := by
  induction fuel with
  | zero =>
    refine ⟨fun room l v rest => ?_, fun room l ps rest => ?_, fun room l ps rest => ?_⟩
    · simp [scanOnce]
    · simp [scanPairs]
    · simp [scanItems]
  | succ fuel ih =>
    obtain ⟨ihOnce, ihPairs, ihItems⟩ := ih
    refine ⟨fun room l v rest => ?_, fun room l ps rest => ?_, fun room l ps rest => ?_⟩
    · simp only [scanOnce_ok_iff, enclosed_sifts (ihPairs _) _ _ _,
        enclosed_sifts (ihItems _) _ _ _, scanAtom_plain hhooks, hhooks.object]
      constructor
      · rintro (⟨hhead, r, hr, pairs, ⟨hpairs, hall⟩, rfl, hgood⟩ |
          ⟨hhead, r, hr, items, ⟨hitems, hall⟩, rfl⟩ | ⟨hobject, harray, hatom, hchildren, hgood⟩)
        · refine ⟨Or.inl ⟨hhead, r, hr, pairs, hpairs, rfl⟩, everywhere_iff.mpr ⟨hgood, ?_⟩⟩
          intro c hc
          obtain ⟨p, hp, rfl⟩ := List.mem_map.mp hc
          exact hall p hp
        · exact ⟨Or.inr (Or.inl ⟨hhead, r, hr, items, hitems, rfl⟩),
            everywhere_iff.mpr ⟨hhooks.others _ rfl rfl, hall⟩⟩
        · refine ⟨Or.inr (Or.inr ⟨hobject, harray, hatom⟩), everywhere_iff.mpr ⟨hgood, ?_⟩⟩
          rw [hchildren]
          exact fun c hc => absurd hc List.not_mem_nil
      · rintro ⟨⟨hhead, r, hr, pairs, hpairs, hv⟩ | ⟨hhead, r, hr, items, hitems, rfl⟩ |
          ⟨hobject, harray, hatom⟩, hall⟩
        · cases hv
          obtain ⟨hgood, hchildren⟩ := everywhere_iff.mp hall
          refine Or.inl ⟨hhead, r, hr, pairs, ⟨hpairs, fun p hp => ?_⟩, rfl, hgood⟩
          exact hchildren p.2 (List.mem_map_of_mem hp)
        · obtain ⟨_, hchildren⟩ := everywhere_iff.mp hall
          exact Or.inr (Or.inl ⟨hhead, r, hr, items, ⟨hitems, hchildren⟩, rfl⟩)
        · have hgood := (everywhere_iff.mp hall).1
          have hleaf := ((scanAtom_plain refusing_plain).mp hatom).2.1
          exact Or.inr (Or.inr ⟨hobject, harray, hatom, hleaf, hgood⟩)
    · simp only [scanPairs_ok_iff, ihOnce]
      constructor
      · rintro ⟨l', hquote, key, l₁, hkey, l₂, hcolon, value, l₃, ⟨hvalue, hgood⟩, hrest⟩
        obtain ⟨hrest, hall⟩ := (continued_sifts (ihPairs room)).mp ⟨hrest, hgood⟩
        exact ⟨⟨l', hquote, key, l₁, hkey, l₂, hcolon, value, l₃, hvalue, hrest⟩, hall⟩
      · rintro ⟨⟨l', hquote, key, l₁, hkey, l₂, hcolon, value, l₃, hvalue, hrest⟩, hall⟩
        obtain ⟨hrest, hgood⟩ := (continued_sifts (ihPairs room)).mpr ⟨hrest, hall⟩
        exact ⟨l', hquote, key, l₁, hkey, l₂, hcolon, value, l₃, ⟨hvalue, hgood⟩, hrest⟩
    · simp only [scanItems_ok_iff, ihOnce]
      constructor
      · rintro ⟨value, l', ⟨hvalue, hgood⟩, hrest⟩
        obtain ⟨hrest, hall⟩ := (continued_sifts (ihItems room)).mp ⟨hrest, hgood⟩
        exact ⟨⟨value, l', hvalue, hrest⟩, hall⟩
      · rintro ⟨⟨value, l', hvalue, hrest⟩, hall⟩
        obtain ⟨hrest, hgood⟩ := (continued_sifts (ihItems room)).mpr ⟨hrest, hall⟩
        exact ⟨value, l', ⟨hvalue, hgood⟩, hrest⟩

theorem loads_ok_iff {text : List Char} : loads hooks limits text = .ok v ↔
    text.head? ≠ some (Char.ofNat 0xFEFF) ∧ ∃ rest,
      scanOnce hooks limits (2 * text.length + 1) limits.recursion (skip text) = .ok (v, rest) ∧
        skip rest = [] := by
  unfold loads
  simp only [bind_eq_ok, ensure_eq_ok, pure_eq_ok, Prod.exists, exists_const]
  constructor
  · rintro ⟨hmark, v', rest, hscan, hend, rfl⟩
    exact ⟨hmark, rest, hscan, hend⟩
  · rintro ⟨hmark, rest, hscan, hend⟩
    exact ⟨hmark, v, rest, hscan, hend, rfl⟩

theorem loads_plain {Good : Value → Prop} (hhooks : Refusing hooks Good) {text : List Char} :
    loads hooks limits text = .ok v ↔
      loads plainHooks limits text = .ok v ∧ Everywhere Value.children Good v := by
  simp only [loads_ok_iff, (scan_plain hhooks _).1]
  constructor
  · rintro ⟨hmark, rest, ⟨hscan, hall⟩, hend⟩
    exact ⟨⟨hmark, rest, hscan, hend⟩, hall⟩
  · rintro ⟨⟨hmark, rest, hscan, hend⟩, hall⟩
    exact ⟨hmark, rest, ⟨hscan, hall⟩, hend⟩

/-- What reads as an object begins with a brace. -/
theorem head_of_object {text : List Char} {fields : List (Text × Value)}
    (h : loads plainHooks limits text = .ok (.dict fields)) :
    (skip text).head? = some '{' := by
  obtain ⟨_, rest, hscan, _⟩ := loads_ok_iff.mp h
  rcases scanOnce_ok_iff.mp hscan with ⟨hhead, _⟩ | ⟨_, _, _, _, _, heq⟩ | ⟨_, _, hatom⟩
  · exact hhead
  · cases heq
  · unfold scanAtom at hatom
    cases hscalar : scanScalar limits (skip text) with
    | some scanned =>
      rw [hscalar] at hatom
      simp only at hatom
      rw [hatom] at hscalar
      exact absurd (scanScalar_atom hscalar).2.1 (by simp [Value.isObject])
    | none =>
      rw [hscalar] at hatom
      simp [plainHooks, -bind_pure_comp] at hatom

end Hooks

section Fuel

variable {hooks : Hooks} {limits : Limits} {fuel room : ℕ} {l rest : List Char} {v : Value}

theorem length_skip_le (l : List Char) : (skip l).length ≤ l.length :=
  (List.dropWhile_suffix isBlank).length_le

theorem behind_ok_iff {mark : Char} : behind mark l = .ok rest ↔ l = mark :: rest := by
  cases l with
  | nil => simp [behind]
  | cons c tail =>
    by_cases hc : c = mark
    · simp [behind, hc]
    · simp [behind, hc]

/-- A scan takes something from the front of its text. -/
def Shortens {γ : Type} (scan : List Char → Except Raised (γ × List Char)) : Prop :=
  ∀ l x rest, scan l = .ok (x, rest) → rest.length < l.length

theorem scanUnits_shortens : Shortens scanUnits := by
  intro l
  induction l using scanUnits.induct with
  | case1 =>
    intro units rest h
    simp [scanUnits] at h
  | case2 tail =>
    intro units rest h
    simp only [scanUnits, Except.ok.injEq, Prod.mk.injEq] at h
    rw [← h.2]
    exact Nat.lt_succ_self _
  | case3 a b c d tail ih =>
    intro units rest h
    rw [scanUnits] at h
    simp only [bind_eq_ok, pure_eq_ok, Prod.mk.injEq, Prod.exists] at h
    obtain ⟨_, _, _, rest', hscan, _, rfl⟩ := h
    have hshort := ih _ _ hscan
    simp only [List.length_cons]
    omega
  | case4 c tail hescape ih =>
    intro units rest h
    rw [scanUnits.eq_4 _ _ hescape] at h
    simp only [bind_eq_ok, pure_eq_ok, Prod.mk.injEq, Prod.exists] at h
    obtain ⟨_, _, _, rest', hscan, _, rfl⟩ := h
    have hshort := ih _ _ hscan
    simp only [List.length_cons]
    omega
  | case5 c tail hquote hescape hshortEscape ih =>
    intro units rest h
    rw [scanUnits.eq_5 _ _ hquote hescape hshortEscape] at h
    simp only [bind_eq_ok, pure_eq_ok, Prod.mk.injEq, Prod.exists] at h
    obtain ⟨_, _, _, rest', hscan, _, rfl⟩ := h
    have hshort := ih _ _ hscan
    simp only [List.length_cons]
    omega

theorem scanString_shortens : Shortens scanString := by
  intro l s rest h
  unfold scanString at h
  simp only [bind_eq_ok, pure_eq_ok, Prod.mk.injEq, Prod.exists] at h
  obtain ⟨units, rest', hscan, _, rfl⟩ := h
  exact scanUnits_shortens _ _ _ hscan

theorem takeDigits_length_le (l : List Char) : (takeDigits l).2.length ≤ l.length :=
  (List.dropWhile_suffix Char.isDigit).length_le

theorem takeInteger_shorter {digits : List Char} (h : takeInteger l = some (digits, rest)) :
    rest.length < l.length := by
  unfold takeInteger at h
  split at h
  · cases h
    exact Nat.lt_succ_self _
  · split at h
    · rename_i c tail _ hdigit
      have hrest : rest = tail.dropWhile Char.isDigit := by
        have hpair := congrArg Prod.snd (Option.some.inj h)
        simpa [takeDigits, List.dropWhile_cons_of_pos hdigit] using hpair.symm
      have hle := takeDigits_length_le tail
      rw [hrest, List.length_cons]
      exact Nat.lt_succ_of_le hle
    · cases h
  · cases h

theorem takeFraction_length_le (l : List Char) : (takeFraction l).2.length ≤ l.length := by
  unfold takeFraction
  split
  · rename_i tail
    have hle := takeDigits_length_le tail
    split
    · exact le_refl _
    · simp only [List.length_cons]
      omega
  · exact le_refl _

theorem takeSign_length_le (l : List Char) : (takeSign l).2.length ≤ l.length := by
  unfold takeSign
  split <;> simp

theorem takeMinus_length_le (l : List Char) : (takeMinus l).2.length ≤ l.length := by
  unfold takeMinus
  split <;> simp

theorem takeExponent_length_le (l : List Char) : (takeExponent l).2.length ≤ l.length := by
  unfold takeExponent
  split
  · exact le_refl _
  · rename_i c tail
    have hsign := takeSign_length_le tail
    have hdigits := takeDigits_length_le (takeSign tail).2
    split
    · simp only [List.length_cons]
      split
      · exact le_refl _
      · rename_i ds rest _ heq
        rw [heq] at hdigits
        simp only at hdigits ⊢
        omega
    · exact le_refl _

theorem scanNumber_shorter {number : Except Raised Value}
    (h : scanNumber limits l = some (number, rest)) : rest.length < l.length := by
  unfold scanNumber at h
  simp only [Option.bind_eq_bind, Option.bind_eq_some_iff] at h
  obtain ⟨⟨digits, l₁⟩, hinteger, heq⟩ := h
  cases heq
  have hminus := takeMinus_length_le l
  have hshort := takeInteger_shorter hinteger
  have hfraction := takeFraction_length_le l₁
  have hexponent := takeExponent_length_le (takeFraction l₁).2
  simp only at hshort ⊢
  omega

theorem scanScalar_shorter (h : scanScalar limits l = some (.ok (v, rest))) :
    rest.length < l.length := by
  unfold scanScalar at h
  split at h
  · have hok := Option.some.inj h
    simp only [bind_eq_ok, pure_eq_ok, Prod.mk.injEq, Prod.exists] at hok
    obtain ⟨s, rest', hscan, _, rfl⟩ := hok
    have hshort := scanString_shortens _ _ _ hscan
    simp only [List.length_cons]
    omega
  · cases h
    simp only [List.length_cons]
    omega
  · cases h
    simp only [List.length_cons]
    omega
  · cases h
    simp only [List.length_cons]
    omega
  · obtain ⟨⟨number, l'⟩, hnumber, hok⟩ := Option.map_eq_some_iff.mp h
    simp only [bind_eq_ok, pure_eq_ok, Prod.mk.injEq] at hok
    obtain ⟨_, _, _, rfl⟩ := hok
    exact scanNumber_shorter hnumber

theorem scanConstant_shorter {c : Constant} (h : scanConstant l = some (c, rest)) :
    rest.length < l.length := by
  unfold scanConstant at h
  split at h
  · cases h
    simp only [List.length_cons]
    omega
  · cases h
    simp only [List.length_cons]
    omega
  · cases h
    simp only [List.length_cons]
    omega
  · cases h

theorem scanAtom_shortens : Shortens (scanAtom hooks limits) := by
  intro l v rest h
  unfold scanAtom at h
  cases hscalar : scanScalar limits l with
  | some scanned =>
    rw [hscalar] at h
    simp only at h
    rw [h] at hscalar
    exact scanScalar_shorter hscalar
  | none =>
    rw [hscalar] at h
    simp only [bind_eq_ok, fetch_eq_ok, pure_eq_ok, Prod.mk.injEq, Prod.exists] at h
    obtain ⟨c, l', hconstant, _, _, _, rfl⟩ := h
    exact scanConstant_shorter hconstant

theorem enclosed_shorter {γ : Type} {close : Char} {ps : List γ}
    {parts : List Char → Except Raised (List γ × List Char)} (hparts : Shortens parts)
    (h : enclosed close l parts = .ok (ps, rest)) : rest.length ≤ l.length := by
  rcases enclosed_ok_iff.mp h with ⟨_, _, rfl⟩ | ⟨_, h⟩
  · simp
  · exact Nat.le_of_lt (hparts _ _ _ h)

theorem continued_shorter {γ : Type} {close : Char} {part : γ} {ps : List γ}
    {parts : List Char → Except Raised (List γ × List Char)} (hparts : Shortens parts)
    (h : continued close part l parts = .ok (ps, rest)) : rest.length ≤ l.length := by
  rcases continued_ok_iff.mp h with ⟨_, more, h, _⟩ | ⟨_, h, _⟩
  · have hshort := hparts _ _ _ h
    have hskip := length_skip_le l.tail
    have htail := List.length_tail (l := l)
    omega
  · rw [behind_ok_iff.mp h]
    exact Nat.le_succ _

/-- Every scan takes something, so the parts of a text are shorter than it. -/
theorem scan_shortens (hooks : Hooks) (limits : Limits) (fuel : ℕ) :
    (∀ room, Shortens (scanOnce hooks limits fuel room)) ∧
    (∀ room, Shortens (scanPairs hooks limits fuel room)) ∧
    (∀ room, Shortens (scanItems hooks limits fuel room)) := by
  induction fuel with
  | zero =>
    refine ⟨fun room l v rest h => ?_, fun room l ps rest h => ?_, fun room l ps rest h => ?_⟩
    · simp [scanOnce] at h
    · simp [scanPairs] at h
    · simp [scanItems] at h
  | succ fuel ih =>
    obtain ⟨ihOnce, ihPairs, ihItems⟩ := ih
    refine ⟨fun room l v rest h => ?_, fun room l ps rest h => ?_, fun room l ps rest h => ?_⟩
    · have hbracket : ∀ c, l.head? = some c → (skip l.tail).length < l.length := by
        intro c hc
        cases l with
        | nil => simp at hc
        | cons d tail => exact Nat.lt_succ_of_le (length_skip_le tail)
      rcases scanOnce_ok_iff.mp h with ⟨hhead, r, _, pairs, hpairs, _⟩ |
        ⟨hhead, r, _, items, hitems, _⟩ | ⟨_, _, hatom⟩
      · exact Nat.lt_of_le_of_lt (enclosed_shorter (ihPairs r) hpairs) (hbracket _ hhead)
      · exact Nat.lt_of_le_of_lt (enclosed_shorter (ihItems r) hitems) (hbracket _ hhead)
      · exact scanAtom_shortens _ _ _ hatom
    · obtain ⟨l', hquote, key, l₁, hkey, l₂, hcolon, value, l₃, hvalue, hrest⟩ :=
        scanPairs_ok_iff.mp h
      have hlength : l.length = l'.length + 1 := by rw [behind_ok_iff.mp hquote]; rfl
      have hcolonLength : (skip l₁).length = l₂.length + 1 := by
        rw [behind_ok_iff.mp hcolon]
        rfl
      have h₁ := scanString_shortens _ _ _ hkey
      have h₂ := length_skip_le l₁
      have h₃ := length_skip_le l₂
      have h₄ := ihOnce room _ _ _ hvalue
      have h₅ := length_skip_le l₃
      have h₆ := continued_shorter (ihPairs room) hrest
      omega
    · obtain ⟨value, l', hvalue, hrest⟩ := scanItems_ok_iff.mp h
      have h₁ := ihOnce room _ _ _ hvalue
      have h₂ := length_skip_le l'
      have h₃ := continued_shorter (ihItems room) hrest
      omega

theorem enclosed_congr {γ : Type} {close : Char}
    {parts parts' : List Char → Except Raised (List γ × List Char)} (h : parts l = parts' l) :
    enclosed close l parts = enclosed close l parts' := by
  unfold enclosed
  rw [h]

theorem continued_congr {γ : Type} {close : Char} {part : γ}
    {parts parts' : List Char → Except Raised (List γ × List Char)}
    (h : parts (skip l.tail) = parts' (skip l.tail)) :
    continued close part l parts = continued close part l parts' := by
  unfold continued
  rw [h]

/-- One step more changes nothing once there are two for each character. -/
theorem scan_fuel (hooks : Hooks) (limits : Limits) (fuel : ℕ) :
    (∀ room l, 2 * l.length < fuel →
      scanOnce hooks limits (fuel + 1) room l = scanOnce hooks limits fuel room l) ∧
    (∀ room l, 2 * l.length + 1 < fuel →
      scanPairs hooks limits (fuel + 1) room l = scanPairs hooks limits fuel room l) ∧
    (∀ room l, 2 * l.length + 1 < fuel →
      scanItems hooks limits (fuel + 1) room l = scanItems hooks limits fuel room l) := by
  induction fuel with
  | zero =>
    refine ⟨fun room l h => ?_, fun room l h => ?_, fun room l h => ?_⟩ <;>
    exact absurd h (Nat.not_lt_zero _)
  | succ fuel ih =>
    obtain ⟨ihOnce, ihPairs, ihItems⟩ := ih
    refine ⟨fun room l h => ?_, fun room l h => ?_, fun room l h => ?_⟩
    · have hbracket : ∀ c, l.head? = some c → 2 * (skip l.tail).length + 1 < fuel := by
        intro c hc
        cases l with
        | nil => simp at hc
        | cons d tail =>
          have hskip := length_skip_le tail
          simp only [List.length_cons, List.tail_cons] at h ⊢
          omega
      rw [scanOnce, scanOnce]
      by_cases hobject : l.head? = some '{'
      · rw [if_pos hobject, if_pos hobject]
        refine bind_congr_ok fun r _ => ?_
        rw [enclosed_congr (ihPairs r _ (hbracket _ hobject))]
      · rw [if_neg hobject, if_neg hobject]
        by_cases harray : l.head? = some '['
        · rw [if_pos harray, if_pos harray]
          refine bind_congr_ok fun r _ => ?_
          rw [enclosed_congr (ihItems r _ (hbracket _ harray))]
        · rw [if_neg harray, if_neg harray]
    · rw [scanPairs, scanPairs]
      refine bind_congr_ok fun l' hquote => ?_
      refine bind_congr_ok fun ⟨key, l₁⟩ hkey => ?_
      refine bind_congr_ok fun l₂ hcolon => ?_
      have hlength : l.length = l'.length + 1 := by rw [behind_ok_iff.mp hquote]; rfl
      have hcolonLength : (skip l₁).length = l₂.length + 1 := by
        rw [behind_ok_iff.mp hcolon]
        rfl
      have h₁ := scanString_shortens _ _ _ hkey
      have h₂ := length_skip_le l₁
      have h₃ := length_skip_le l₂
      rw [ihOnce room (skip l₂) (by omega)]
      refine bind_congr_ok fun ⟨value, l₃⟩ hvalue => ?_
      have h₄ := (scan_shortens hooks limits fuel).1 room _ _ _ hvalue
      have h₅ := length_skip_le l₃
      have h₆ := length_skip_le (skip l₃).tail
      have h₇ := List.length_tail (l := skip l₃)
      exact continued_congr (ihPairs room _ (by omega))
    · rw [scanItems, scanItems, ihOnce room l (by omega)]
      refine bind_congr_ok fun ⟨value, l'⟩ hvalue => ?_
      have h₁ := (scan_shortens hooks limits fuel).1 room _ _ _ hvalue
      have h₂ := length_skip_le l'
      have h₃ := length_skip_le (skip l').tail
      have h₄ := List.length_tail (l := skip l')
      exact continued_congr (ihItems room _ (by omega))

/-- The steps that `loads` takes are enough: with any number beyond them it reads
the same. -/
theorem scanOnce_enough (hooks : Hooks) (limits : Limits) (room : ℕ) {l : List Char}
    {fuel : ℕ} (h : 2 * l.length < fuel) :
    scanOnce hooks limits fuel room l = scanOnce hooks limits (2 * l.length + 1) room l := by
  induction fuel, h using Nat.le_induction with
  | base => rfl
  | succ fuel hfuel ih => rw [(scan_fuel hooks limits fuel).1 room l hfuel, ih]

end Fuel

end MemoryGuard.JsonScanner
