import MemoryGuard.OrderedDict
import Mathlib.Data.Nat.Basic

/-!
JSON values and their canonical text, as bytes: no blanks, the fields of an
object listed by key, only quotes, backslashes and control characters escaped.
The text determines the value. An object is stored with its fields in key
order, so two dictionaries that differ only in insertion order are one value.
-/
namespace MemoryGuard.JsonText

open OrderedDict

abbrev Bytes := List UInt8

/-- The UTF-8 encoding of a text. -/
def utf8 (s : String) : Bytes := s.toByteArray.data.toList

def numeralBytes : Bytes := utf8 "0123456789+-.eE"

/-- The text of a number. Every byte is one that numbers are written with. -/
structure Numeral where
  text : Bytes
  nonempty : text ≠ []
  valid : ∀ b ∈ text, b ∈ numeralBytes
  deriving DecidableEq

inductive Json
  | null
  | bool (b : Bool)
  | num (n : Numeral)
  | str (s : String)
  | arr (items : List Json)
  | obj (fields : List (String × Json))

def hexDigit (n : ℕ) : UInt8 := if n < 10 then UInt8.ofNat (48 + n) else UInt8.ofNat (87 + n)

/-- One byte of a text as it stands between quotes. -/
def escape (b : UInt8) : Bytes :=
  if b = 34 then [92, 34]
  else if b = 92 then [92, 92]
  else if b = 8 then [92, 98]
  else if b = 9 then [92, 116]
  else if b = 10 then [92, 110]
  else if b = 12 then [92, 102]
  else if b = 13 then [92, 114]
  else if b < 32 then [92, 117, 48, 48, hexDigit (b.toNat / 16), hexDigit (b.toNat % 16)]
  else [b]

def quoted (s : String) : Bytes := 34 :: ((utf8 s).flatMap escape ++ [34])

mutual

/-- `json.dumps` with sorted keys and no blanks. -/
def canonical : Json → Bytes
  | .null => utf8 "null"
  | .bool true => utf8 "true"
  | .bool false => utf8 "false"
  | .num n => n.text
  | .str s => quoted s
  | .arr [] => [91, 93]
  | .arr (v :: vs) => 91 :: (canonical v ++ moreItems vs)
  | .obj [] => [123, 125]
  | .obj ((k, v) :: fs) => 123 :: (quoted k ++ 58 :: (canonical v ++ moreFields fs))

def moreItems : List Json → Bytes
  | [] => [93]
  | v :: vs => 44 :: (canonical v ++ moreItems vs)

def moreFields : List (String × Json) → Bytes
  | [] => [125]
  | (k, v) :: fs => 44 :: (quoted k ++ 58 :: (canonical v ++ moreFields fs))

end

theorem utf8_injective : Function.Injective utf8 := by
  intro s t h
  unfold utf8 at h
  have harr : s.toByteArray.data = t.toByteArray.data := Array.toList_inj.mp h
  have hbytes : s.toByteArray = t.toByteArray := by
    cases hs : s.toByteArray
    cases ht : t.toByteArray
    simp_all
  exact String.toByteArray_inj.mp hbytes

section Escapes

/-- The bytes that are written as more than themselves. -/
def specials : Bytes := 34 :: 92 :: (List.range 32).map UInt8.ofNat

theorem escape_of_not_special {b : UInt8} (h : b ∉ specials) : escape b = [b] := by
  have hlt : ¬ b < 32 := by
    intro hb
    apply h
    have hmem : b.toNat ∈ List.range 32 := List.mem_range.mpr (UInt8.lt_iff_toNat_lt.mp hb)
    have heq : UInt8.ofNat b.toNat = b := by simp
    exact List.mem_cons_of_mem _ (List.mem_cons_of_mem _ (List.mem_map.mpr ⟨_, hmem, heq⟩))
  have hne : ∀ c : UInt8, c < 32 → b ≠ c := fun c hc heq => hlt (heq ▸ hc)
  have h34 : b ≠ 34 := fun heq => h (heq ▸ List.mem_cons_self)
  have h92 : b ≠ 92 := fun heq => h (heq ▸ List.mem_cons_of_mem _ List.mem_cons_self)
  simp [escape, h34, h92, hlt, hne 8 (by decide), hne 9 (by decide), hne 10 (by decide),
    hne 12 (by decide), hne 13 (by decide)]

theorem escape_head_of_special : ∀ b ∈ specials, (escape b).head? = some 92 := by
  decide +kernel

theorem escape_special_unique : ∀ b ∈ specials, ∀ c ∈ specials,
    escape b <+: escape c → b = c := by decide +kernel

theorem special_of_escape_head {b : UInt8} (h : (escape b).head? = some 92) :
    b ∈ specials := by
  by_contra hb
  rw [escape_of_not_special hb] at h
  simp only [List.head?_cons, Option.some.injEq] at h
  exact hb (h ▸ by decide)

/-- No escape is the beginning of another. -/
theorem escape_unique {b c : UInt8} (h : escape b <+: escape c) : b = c := by
  by_cases hb : b ∈ specials
  · by_cases hc : c ∈ specials
    · exact escape_special_unique b hb c hc h
    · exfalso
      obtain ⟨r, hr⟩ := h
      have hhead : (escape c).head? = some 92 := by
        have hb' := escape_head_of_special b hb
        rw [← hr]
        cases heq : escape b with
        | nil => simp [heq] at hb'
        | cons x xs => simpa [heq] using hb'
      exact hc (special_of_escape_head hhead)
  · rw [escape_of_not_special hb] at h
    obtain ⟨r, hr⟩ := h
    by_cases hc : c ∈ specials
    · have hhead := escape_head_of_special c hc
      rw [← hr] at hhead
      simp only [List.singleton_append, List.head?_cons, Option.some.injEq] at hhead
      exact absurd (hhead ▸ (by decide : (92 : UInt8) ∈ specials)) hb
    · rw [escape_of_not_special hc] at hr
      simp only [List.singleton_append, List.cons.injEq] at hr
      exact hr.1

theorem escape_head_ne_quote (b : UInt8) : (escape b).head? ≠ some 34 := by
  intro h
  by_cases hb : b ∈ specials
  · rw [escape_head_of_special b hb] at h
    simp at h
  · rw [escape_of_not_special hb] at h
    simp only [List.head?_cons, Option.some.injEq] at h
    exact hb (h ▸ by decide)

theorem escape_ne_nil (b : UInt8) : escape b ≠ [] := by
  by_cases hb : b ∈ specials
  · have h := escape_head_of_special b hb
    intro heq
    simp [heq] at h
  · simp [escape_of_not_special hb]

theorem escape_append {b c : UInt8} {r r' : Bytes} (h : escape b ++ r = escape c ++ r') :
    b = c ∧ r = r' := by
  have hbc : b = c := by
    rcases List.append_eq_append_iff.mp h with ⟨m, hm, _⟩ | ⟨m, hm, _⟩
    · exact escape_unique ⟨m, hm.symm⟩
    · exact (escape_unique ⟨m, hm.symm⟩).symm
  subst c
  exact ⟨rfl, List.append_cancel_left h⟩

theorem escaped_append : ∀ {s t r r' : Bytes},
    s.flatMap escape ++ 34 :: r = t.flatMap escape ++ 34 :: r' → s = t ∧ r = r'
  | [], [], r, r', h => by simpa using h
  | [], c :: t, r, r', h => by
    exfalso
    simp only [List.flatMap_nil, List.nil_append, List.flatMap_cons, List.append_assoc] at h
    apply escape_head_ne_quote c
    cases heq : escape c with
    | nil => exact absurd heq (escape_ne_nil c)
    | cons x xs =>
      rw [heq] at h
      simp only [List.cons_append, List.cons.injEq] at h
      simp [h.1]
  | b :: s, [], r, r', h => by
    exfalso
    simp only [List.flatMap_nil, List.nil_append, List.flatMap_cons, List.append_assoc] at h
    apply escape_head_ne_quote b
    cases heq : escape b with
    | nil => exact absurd heq (escape_ne_nil b)
    | cons x xs =>
      rw [heq] at h
      simp only [List.cons_append, List.cons.injEq] at h
      simp [h.1]
  | b :: s, c :: t, r, r', h => by
    simp only [List.flatMap_cons, List.append_assoc] at h
    obtain ⟨rfl, hrest⟩ := escape_append h
    obtain ⟨rfl, hr⟩ := escaped_append hrest
    exact ⟨rfl, hr⟩

theorem quoted_append {s t : String} {r r' : Bytes} (h : quoted s ++ r = quoted t ++ r') :
    s = t ∧ r = r' := by
  unfold quoted at h
  simp only [List.cons_append, List.cons.injEq, true_and, List.append_assoc,
    List.nil_append] at h
  obtain ⟨hst, hr⟩ := escaped_append h
  exact ⟨utf8_injective hst, hr⟩

end Escapes

section Injectivity

/-- What may follow a value: nothing, or the next item, or a closing bracket. -/
def Delimited (r : Bytes) : Prop := ∀ b ∈ r.head?, b ∈ ([44, 93, 125] : Bytes)

theorem delimited_nil : Delimited [] := by
  intro b hb
  simp at hb

theorem delimited_moreItems (vs : List Json) (r : Bytes) : Delimited (moreItems vs ++ r) := by
  intro b hb
  cases vs <;> simp_all [moreItems]

theorem delimited_moreFields (fs : List (String × Json)) (r : Bytes) :
    Delimited (moreFields fs ++ r) := by
  intro b hb
  cases fs <;> simp_all [moreFields]

theorem numeral_delimiter : ∀ b ∈ ([44, 93, 125] : Bytes), b ∉ numeralBytes := by decide +kernel

theorem numeral_append {n m : Numeral} {r r' : Bytes} (hr : Delimited r) (hr' : Delimited r')
    (h : n.text ++ r = m.text ++ r') : n = m ∧ r = r' := by
  have hstop : ∀ {k s x y : Bytes}, Delimited s → s = k ++ y → (∀ b ∈ x ++ k, b ∈ numeralBytes) →
      k = [] := by
    intro k s x y hs hk hall
    cases k with
    | nil => rfl
    | cons b k =>
      exact absurd (hall b (by simp)) (numeral_delimiter b (hs b (by simp [hk])))
  have htext : n.text = m.text := by
    rcases List.append_eq_append_iff.mp h with ⟨k, hm, hk⟩ | ⟨k, hn, hk⟩
    · have hnil := hstop hr hk (hm ▸ m.valid)
      simp [hm, hnil]
    · have hnil := hstop hr' hk (hn ▸ n.valid)
      simp [hn, hnil]
  have hnm : n = m := by
    cases n
    cases m
    simp_all
  subst m
  exact ⟨rfl, List.append_cancel_left h⟩

/-- The first byte of the text of a value. -/
def lead : Json → UInt8
  | .null => 110
  | .bool true => 116
  | .bool false => 102
  | .num n => n.text.head n.nonempty
  | .str _ => 34
  | .arr _ => 91
  | .obj _ => 123

theorem canonical_head (v : Json) (r : Bytes) : (canonical v ++ r).head? = some (lead v) := by
  cases v with
  | null => rfl
  | bool b => cases b <;> rfl
  | num n =>
    cases h : n.text with
    | nil => exact absurd h n.nonempty
    | cons b bs => simp [canonical, lead, h]
  | str s => rfl
  | arr items => cases items <;> rfl
  | obj fields => cases fields <;> rfl

theorem lead_num_ne (n : Numeral) {b : UInt8} (hb : b ∉ numeralBytes) : lead (.num n) ≠ b :=
  fun h => hb (h ▸ n.valid _ (List.head_mem n.nonempty))

theorem lead_ne_close (v : Json) : lead v ≠ 93 := by
  cases v with
  | num n => exact lead_num_ne n (by decide +kernel)
  | bool b => cases b <;> decide
  | _ => simp [lead]

/-- Numbers, and every other kind of value, are told apart by their first byte. -/
def kind : Json → ℕ
  | .null => 0
  | .bool true => 1
  | .bool false => 2
  | .num _ => 3
  | .str _ => 4
  | .arr _ => 5
  | .obj _ => 6

theorem kind_of_lead {v w : Json} (h : lead v = lead w) : kind v = kind w := by
  have hnum : ∀ (n : Numeral) (u : Json), lead (.num n) = lead u → kind u = 3 := by
    intro n u hu
    cases u with
    | num m => rfl
    | bool b => cases b <;> exact absurd hu (lead_num_ne n (by decide +kernel))
    | null => exact absurd hu (lead_num_ne n (by decide +kernel))
    | str s => exact absurd hu (lead_num_ne n (show 34 ∉ numeralBytes by decide +kernel))
    | arr items => exact absurd hu (lead_num_ne n (show 91 ∉ numeralBytes by decide +kernel))
    | obj fields => exact absurd hu (lead_num_ne n (show 123 ∉ numeralBytes by decide +kernel))
  cases v with
  | num n => exact (hnum n w h).symm
  | bool b =>
    cases w with
    | num m => exact hnum m _ h.symm
    | bool c => cases b <;> cases c <;> simp_all [lead, kind]
    | _ => cases b <;> simp [lead] at h
  | _ =>
    cases w with
    | num m => exact hnum m _ h.symm
    | bool c => cases c <;> simp [lead] at h
    | _ => first | rfl | simp [lead] at h

mutual

theorem canonical_append : ∀ (v w : Json) {r r' : Bytes}, Delimited r → Delimited r' →
    canonical v ++ r = canonical w ++ r' → v = w ∧ r = r' := by
  intro v w r r' hr hr' h
  have hkind : kind v = kind w := kind_of_lead (by
    have hhead := congrArg List.head? h
    rw [canonical_head, canonical_head] at hhead
    exact Option.some.inj hhead)
  match v, w with
  | .null, .null => exact ⟨rfl, List.append_cancel_left h⟩
  | .bool true, .bool true => exact ⟨rfl, List.append_cancel_left h⟩
  | .bool false, .bool false => exact ⟨rfl, List.append_cancel_left h⟩
  | .num n, .num m =>
    obtain ⟨rfl, hrest⟩ := numeral_append hr hr' h
    exact ⟨rfl, hrest⟩
  | .str s, .str t =>
    obtain ⟨rfl, hrest⟩ := quoted_append h
    exact ⟨rfl, hrest⟩
  | .arr [], .arr [] => exact ⟨rfl, List.append_cancel_left h⟩
  | .arr [], .arr (u :: us) =>
    exfalso
    have hhead := canonical_head u (moreItems us ++ r')
    have htail : (93 : UInt8) :: r = canonical u ++ (moreItems us ++ r') := by
      simpa [canonical] using h
    rw [← htail] at hhead
    exact lead_ne_close u (Option.some.inj hhead).symm
  | .arr (u :: us), .arr [] =>
    exfalso
    have hhead := canonical_head u (moreItems us ++ r)
    have htail : canonical u ++ (moreItems us ++ r) = (93 : UInt8) :: r' := by
      simpa [canonical] using h
    rw [htail] at hhead
    exact lead_ne_close u (Option.some.inj hhead).symm
  | .arr (u :: us), .arr (x :: xs) =>
    simp only [canonical, List.cons_append, List.cons.injEq, true_and, List.append_assoc] at h
    obtain ⟨rfl, hrest⟩ := canonical_append u x (delimited_moreItems us r)
      (delimited_moreItems xs r') h
    obtain ⟨rfl, hend⟩ := moreItems_append us xs hrest
    exact ⟨rfl, hend⟩
  | .obj [], .obj [] => exact ⟨rfl, List.append_cancel_left h⟩
  | .obj [], .obj ((k, u) :: fs) =>
    simp [canonical, quoted] at h
  | .obj ((k, u) :: fs), .obj [] =>
    simp [canonical, quoted] at h
  | .obj ((k, u) :: fs), .obj ((k', x) :: gs) =>
    simp only [canonical, List.cons_append, List.cons.injEq, true_and, List.append_assoc] at h
    obtain ⟨rfl, hrest⟩ := quoted_append h
    simp only [List.cons.injEq, true_and] at hrest
    obtain ⟨rfl, hfields⟩ := canonical_append u x (delimited_moreFields fs r)
      (delimited_moreFields gs r') hrest
    obtain ⟨rfl, hend⟩ := moreFields_append fs gs hfields
    exact ⟨rfl, hend⟩

theorem moreItems_append : ∀ (vs ws : List Json) {r r' : Bytes},
    moreItems vs ++ r = moreItems ws ++ r' → vs = ws ∧ r = r' := by
  intro vs ws r r' h
  match vs, ws with
  | [], [] => exact ⟨rfl, List.append_cancel_left h⟩
  | [], w :: ws => simp [moreItems] at h
  | v :: vs, [] => simp [moreItems] at h
  | v :: vs, w :: ws =>
    simp only [moreItems, List.cons_append, List.cons.injEq, true_and, List.append_assoc] at h
    obtain ⟨rfl, hrest⟩ := canonical_append v w (delimited_moreItems vs r)
      (delimited_moreItems ws r') h
    obtain ⟨rfl, hend⟩ := moreItems_append vs ws hrest
    exact ⟨rfl, hend⟩

theorem moreFields_append : ∀ (fs gs : List (String × Json)) {r r' : Bytes},
    moreFields fs ++ r = moreFields gs ++ r' → fs = gs ∧ r = r' := by
  intro fs gs r r' h
  match fs, gs with
  | [], [] => exact ⟨rfl, List.append_cancel_left h⟩
  | [], (k, v) :: gs => simp [moreFields] at h
  | (k, v) :: fs, [] => simp [moreFields] at h
  | (k, v) :: fs, (k', w) :: gs =>
    simp only [moreFields, List.cons_append, List.cons.injEq, true_and, List.append_assoc] at h
    obtain ⟨rfl, hrest⟩ := quoted_append h
    simp only [List.cons.injEq, true_and] at hrest
    obtain ⟨rfl, hfields⟩ := canonical_append v w (delimited_moreFields fs r)
      (delimited_moreFields gs r') hrest
    obtain ⟨rfl, hend⟩ := moreFields_append fs gs hfields
    exact ⟨rfl, hend⟩

end

theorem canonical_injective : Function.Injective canonical := fun v w h =>
  (canonical_append v w delimited_nil delimited_nil (by simpa using h)).1

instance : DecidableEq Json := fun v w =>
  decidable_of_iff (canonical v = canonical w) canonical_injective.eq_iff

end Injectivity

section Values

/-- `json.dumps(v)` as a text. -/
def encoded (v : Json) : String :=
  (String.fromUTF8? ⟨(canonical v).toArray⟩).getD ""

def digitByte (c : Char) : UInt8 := UInt8.ofNat c.toNat

def decimal (n : ℕ) : Bytes := (Nat.toDigits 10 n).map digitByte

theorem digitByte_of_isDigit {c : Char} (h : c.isDigit) :
    digitByte c ∈ utf8 "0123456789" ∧ Char.ofNat (digitByte c).toNat = c := by
  have hrange : 48 ≤ c.toNat ∧ c.toNat ≤ 57 := by
    simp only [Char.isDigit, Bool.and_eq_true, decide_eq_true_eq, ge_iff_le,
      UInt32.le_iff_toNat_le] at h
    exact h
  have hdigits : ∀ n ∈ List.range 10, UInt8.ofNat (48 + n) ∈ utf8 "0123456789" := by
    decide +kernel
  have hmem := hdigits (c.toNat - 48) (List.mem_range.mpr (by omega))
  rw [show 48 + (c.toNat - 48) = c.toNat by omega] at hmem
  have hsmall : (UInt8.ofNat c.toNat).toNat = c.toNat := by
    rw [UInt8.toNat_ofNat']
    omega
  exact ⟨hmem, by simp [digitByte, hsmall, Char.ofNat_toNat]⟩

theorem mem_decimal {n : ℕ} {b : UInt8} (h : b ∈ decimal n) : b ∈ utf8 "0123456789" := by
  obtain ⟨c, hc, rfl⟩ := List.mem_map.mp h
  exact (digitByte_of_isDigit (Nat.isDigit_of_mem_toDigits (by omega) (by omega) hc)).1

theorem decimal_ne_nil (n : ℕ) : decimal n ≠ [] := by
  simp [decimal, Nat.toDigits_ne_nil]

/-- The digits of a number, read back as characters. -/
theorem decimal_chars (n : ℕ) :
    (decimal n).map (fun b => Char.ofNat b.toNat) = Nat.toDigits 10 n := by
  unfold decimal
  rw [List.map_map]
  conv_rhs => rw [← List.map_id (Nat.toDigits 10 n)]
  apply List.map_congr_left
  intro c hc
  exact (digitByte_of_isDigit (Nat.isDigit_of_mem_toDigits (by omega) (by omega) hc)).2

theorem decimal_injective : Function.Injective decimal := by
  intro n m h
  have hdigits : Nat.toDigits 10 n = Nat.toDigits 10 m := by
    rw [← decimal_chars n, ← decimal_chars m, h]
  rw [← Nat.ofDigitChars_ten_toDigits (n := n), hdigits, Nat.ofDigitChars_ten_toDigits]

theorem digit_mem_numeralBytes : ∀ b ∈ utf8 "0123456789", b ∈ numeralBytes := by decide +kernel

def Numeral.ofInt : ℤ → Numeral
  | .ofNat n => ⟨decimal n, decimal_ne_nil n, fun _ hb => digit_mem_numeralBytes _ (mem_decimal hb)⟩
  | .negSucc n => ⟨45 :: decimal (n + 1), by simp, by
      intro b hb
      rcases List.mem_cons.mp hb with rfl | hb
      · decide +kernel
      · exact digit_mem_numeralBytes _ (mem_decimal hb)⟩

theorem Numeral.ofInt_injective : Function.Injective Numeral.ofInt := by
  have hminus : ∀ n : ℕ, ∀ rest : Bytes, decimal n ≠ 45 :: rest := by
    intro n rest h
    have hmem : (45 : UInt8) ∈ decimal n := by simp [h]
    exact absurd (mem_decimal hmem) (by decide +kernel)
  intro a b h
  cases a with
  | ofNat n =>
    cases b with
    | ofNat m =>
      simp only [Numeral.ofInt, Numeral.mk.injEq] at h
      rw [decimal_injective h]
    | negSucc m =>
      simp only [Numeral.ofInt, Numeral.mk.injEq] at h
      exact absurd h (hminus _ _)
  | negSucc n =>
    cases b with
    | ofNat m =>
      simp only [Numeral.ofInt, Numeral.mk.injEq] at h
      exact absurd h.symm (hminus _ _)
    | negSucc m =>
      simp only [Numeral.ofInt, Numeral.mk.injEq, List.cons.injEq, true_and] at h
      have hnm := decimal_injective h
      simp only [Nat.add_right_cancel_iff] at hnm
      rw [hnm]

def int (n : ℤ) : Json := .num (.ofInt n)

def nat (n : ℕ) : Json := int n

def texts (l : List String) : Json := .arr (l.map .str)

def optional {α : Type*} (f : α → Json) : Option α → Json
  | none => .null
  | some a => f a

/-- A dictionary; the order in which it was filled is forgotten. -/
def object (fields : List (String × Json)) : Json := .obj (byKey fields)

@[simp] theorem int_inj {a b : ℤ} : int a = int b ↔ a = b := by
  simp only [int, Json.num.injEq]
  exact Numeral.ofInt_injective.eq_iff

@[simp] theorem nat_inj {a b : ℕ} : nat a = nat b ↔ a = b :=
  int_inj.trans Int.ofNat_inj

@[simp] theorem texts_inj {l l' : List String} : texts l = texts l' ↔ l = l' := by
  simp only [texts, Json.arr.injEq]
  exact (List.map_injective_iff.mpr (fun _ _ h => Json.str.inj h)).eq_iff

theorem optional_inj {α : Type*} {f : α → Json} (hf : Function.Injective f)
    (hnull : ∀ a, f a ≠ .null) {o o' : Option α} : optional f o = optional f o' ↔ o = o' := by
  cases o with
  | none => cases o' <;> simp [optional, eq_comm (a := Json.null), hnull]
  | some a => cases o' <;> simp [optional, hnull, hf.eq_iff]

@[simp] theorem optional_str_inj {o o' : Option String} :
    optional .str o = optional .str o' ↔ o = o' :=
  optional_inj (fun _ _ h => Json.str.inj h) (by simp)

@[simp] theorem optional_nat_inj {o o' : Option ℕ} :
    optional nat o = optional nat o' ↔ o = o' :=
  optional_inj (fun _ _ h => nat_inj.mp h) (by simp [nat, int])

/-- Inserting by key puts entries with equal keys at equal places. -/
theorem orderedInsert_inj {α : Type*} {a b : String × α} {l l' : List (String × α)}
    (hab : a.1 = b.1) (hl : l.map Prod.fst = l'.map Prod.fst)
    (h : l.orderedInsert (fun a b => a.1 ≤ b.1) a = l'.orderedInsert (fun a b => a.1 ≤ b.1) b) :
    a = b ∧ l = l' := by
  induction l generalizing l' with
  | nil =>
    cases l' with
    | nil => simpa using h
    | cons x xs => simp at hl
  | cons y ys ih =>
    cases l' with
    | nil => simp at hl
    | cons x xs =>
      simp only [List.map_cons, List.cons.injEq] at hl
      simp only [List.orderedInsert_cons, hab, hl.1] at h
      split at h
      · simpa using h
      · simp only [List.cons.injEq] at h
        obtain ⟨rfl, hrest⟩ := ih hl.2 h.2
        exact ⟨rfl, by rw [h.1, hrest]⟩

theorem keys_orderedInsert {α : Type*} {a b : String × α} {l l' : List (String × α)}
    (hab : a.1 = b.1) (hl : l.map Prod.fst = l'.map Prod.fst) :
    (l.orderedInsert (fun a b => a.1 ≤ b.1) a).map Prod.fst =
      (l'.orderedInsert (fun a b => a.1 ≤ b.1) b).map Prod.fst := by
  induction l generalizing l' with
  | nil =>
    cases l' with
    | nil => simpa using hab
    | cons x xs => simp at hl
  | cons y ys ih =>
    cases l' with
    | nil => simp at hl
    | cons x xs =>
      simp only [List.map_cons, List.cons.injEq] at hl
      simp only [List.orderedInsert_cons, hab, hl.1]
      split
      · simp [hab, hl.1, hl.2]
      · simp [hl.1, ih hl.2]

theorem keys_byKey {α : Type*} : ∀ {l l' : List (String × α)},
    l.map Prod.fst = l'.map Prod.fst → (byKey l).map Prod.fst = (byKey l').map Prod.fst
  | [], [], _ => rfl
  | [], _ :: _, h => by simp at h
  | _ :: _, [], h => by simp at h
  | a :: l, b :: l', h => by
    simp only [List.map_cons, List.cons.injEq] at h
    exact keys_orderedInsert h.1 (keys_byKey h.2)

theorem byKey_inj {α : Type*} : ∀ {l l' : List (String × α)},
    l.map Prod.fst = l'.map Prod.fst → byKey l = byKey l' → l = l'
  | [], [], _, _ => rfl
  | [], _ :: _, h, _ => by simp at h
  | _ :: _, [], h, _ => by simp at h
  | a :: l, b :: l', hkeys, h => by
    simp only [List.map_cons, List.cons.injEq] at hkeys
    obtain ⟨rfl, hrest⟩ := orderedInsert_inj hkeys.1 (keys_byKey hkeys.2) h
    rw [byKey_inj hkeys.2 hrest]

/-- Objects written with the same fields agree field by field. -/
theorem object_inj {l l' : List (String × Json)} (h : object l = object l')
    (hkeys : l.map Prod.fst = l'.map Prod.fst) : l = l' := by
  simp only [object, Json.obj.injEq] at h
  exact byKey_inj hkeys h

/-- Equal objects have the same entries. -/
theorem mem_of_object_eq {l l' : List (String × Json)} (h : object l = object l')
    (e : String × Json) : e ∈ l ↔ e ∈ l' := by
  simp only [object, Json.obj.injEq] at h
  rw [← mem_byKey, h, mem_byKey]

/-- Objects written from the same kind of records agree when the records do. -/
theorem object_map_eq_iff {α : Type*} {f : α → Json} (hf : Function.Injective f)
    {l l' : List (String × α)} (hl : (l.map Prod.fst).Nodup) (hl' : (l'.map Prod.fst).Nodup) :
    object (l.map (fun e => (e.1, f e.2))) = object (l'.map (fun e => (e.1, f e.2))) ↔
      ∀ e, e ∈ l ↔ e ∈ l' := by
  have hentry : Function.Injective (fun e : String × α => (e.1, f e.2)) := by
    intro a b hab
    simp only [Prod.mk.injEq] at hab
    exact Prod.ext hab.1 (hf hab.2)
  constructor
  · intro h e
    have hmem := mem_of_object_eq h (e.1, f e.2)
    rw [List.mem_map_of_injective hentry, List.mem_map_of_injective hentry] at hmem
    exact hmem
  · intro h
    have hperm : l.Perm l' :=
      (List.perm_ext_iff_of_nodup (List.Nodup.of_map _ hl) (List.Nodup.of_map _ hl')).mpr h
    unfold object
    congr 1
    apply byKey_eq_of_perm (hperm.map _)
    simpa [Function.comp_def] using hl

end Values

end MemoryGuard.JsonText
