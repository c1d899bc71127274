import MemoryGuard.ContentHash
import MemoryGuard.StrictJson

/-!
The bodies of deliveries and messages. They are bytes, which the JSON boundary
reads; what it accepts is stored as a value, with its fields in order.
-/
namespace MemoryGuard.JsonBodies

open Guarded Worklist JsonText ContentHash JsonScanner

section Parsing

/-- Depth and number of values of something made of parts. -/
def within (parts : List (ℕ × ℕ)) : ℕ × ℕ :=
  ((parts.map fun p => p.1 + 1).foldl max 0, (parts.map Prod.snd).sum + 1)

mutual

/-- How deep a value is nested, and how many values it is made of. -/
def extent : Json → ℕ × ℕ
  | .arr items => within (extentItems items)
  | .obj fields => within (extentFields fields)
  | _ => (0, 1)

def extentItems : List Json → List (ℕ × ℕ)
  | [] => []
  | v :: vs => extent v :: extentItems vs

def extentFields : List (String × Json) → List (ℕ × ℕ)
  | [] => []
  | (_, v) :: fs => extent v :: extentFields fs

end

/-- `strict_json`. Here `loads` is the parser of the standard library with its
two hooks: it refuses a repeated key, a constant that is no number, a float
without a finite value and a lone surrogate. -/
def strictJson (loads : String → Option Json) (max_bytes : ℕ) (raw : Bytes) : Option Json := do
  guard (raw.length ≤ max_bytes)
  let text ← String.fromUTF8? ⟨raw.toArray⟩
  let value ← loads text
  guard ((extent value).1 ≤ 48 ∧ (extent value).2 ≤ 100000)
  return value

end Parsing

section Bodies

variable (repr : Decimal → Numeral) {limits : Limits} {raw : Bytes} {max_bytes : ℕ}

mutual

/-- A value as it is stored. A constant is never stored; the text of a float is a
parameter. -/
def toJson : Value → Json
  | .null => .null
  | .bool b => .bool b
  | .int n => int n
  | .float x => .num (repr x)
  | .constant _ => .null
  | .str s => .str (String.ofList (StrictJson.characters s))
  | .list items => .arr (toJsonItems items)
  | .dict fields => object (toJsonFields fields)

def toJsonItems : List Value → List Json
  | [] => []
  | v :: vs => toJson v :: toJsonItems vs

def toJsonFields : List (Text × Value) → List (String × Json)
  | [] => []
  | (k, v) :: fs => (String.ofList (StrictJson.characters k), toJson v) :: toJsonFields fs

end

/-- The parser of the ingress: what the boundary makes of a text. -/
def parser (limits : Limits) (text : String) : Option Json :=
  match StrictJson.strictJson limits (.bytes (utf8 text)) (utf8 text).length 48 with
  | .ok value => some (toJson repr value)
  | .error _ => none

/-- The limits that the standard library sets out with. -/
def standardLimits : Limits := ⟨1000, 4300⟩

/-- For texts without floats. -/
def unprinted : Decimal → Numeral := fun _ => .ofInt 0

variable {repr}

theorem parser_eq_some {text : String} {json : Json} : parser repr limits text = some json ↔
    ∃ value, StrictJson.strictJson limits (.bytes (utf8 text)) (utf8 text).length 48 = .ok value ∧
      toJson repr value = json := by
  unfold parser
  split
  · rename_i value hvalue
    simp [hvalue]
  · rename_i e herror
    simp [herror]

theorem utf8_eq (s : String) : utf8 s = s.toList.flatMap String.utf8EncodeChar := by
  unfold utf8
  rw [← String.utf8Encode_toList]
  simp [List.utf8Encode]

theorem length_utf8_le (s : String) : (utf8 s).length ≤ 4 * s.toList.length := by
  rw [utf8_eq, List.length_flatMap]
  refine List.sum_le_card_nsmul _ 4 ?_ |>.trans (by simp [Nat.mul_comm])
  intro n hn
  obtain ⟨c, _, rfl⟩ := List.mem_map.mp hn
  rw [String.length_utf8EncodeChar]
  exact c.utf8Size_le_four

theorem fromUTF8_utf8 (s : String) : String.fromUTF8? ⟨(utf8 s).toArray⟩ = some s := by
  have hbytes : (⟨(utf8 s).toArray⟩ : ByteArray) = s.toByteArray := by simp [utf8]
  unfold String.fromUTF8?
  rw [hbytes, dif_pos s.isValidUTF8]
  rfl

theorem utf8_of_fromUTF8 {text : String} (h : String.fromUTF8? ⟨raw.toArray⟩ = some text) :
    utf8 text = raw := by
  unfold String.fromUTF8? at h
  split at h
  · cases h
    rfl
  · cases h

theorem decode_ok_iff {cs : List Char} :
    StrictJson.decode raw = .ok cs ↔ ∃ text, utf8 text = raw ∧ text.toList = cs := by
  unfold StrictJson.decode
  simp only [bind_eq_ok, fetch_eq_ok, pure_eq_ok]
  constructor
  · rintro ⟨text, htext, rfl⟩
    exact ⟨text, utf8_of_fromUTF8 htext, rfl⟩
  · rintro ⟨text, rfl, rfl⟩
    exact ⟨text, fromUTF8_utf8 text, rfl⟩

end Bodies

section Extents

variable {repr : Decimal → Numeral} {limits : Limits} {raw : Bytes} {max_bytes : ℕ}

theorem extentItems_eq (l : List Json) : extentItems l = l.map extent := by
  induction l with
  | nil => rfl
  | cons v vs ih => rw [extentItems, List.map_cons, ih]

theorem extentFields_eq (l : List (String × Json)) :
    extentFields l = l.map fun f => extent f.2 := by
  induction l with
  | nil => rfl
  | cons f fs ih => rw [extentFields, List.map_cons, ih]

theorem foldl_max_le {l : List ℕ} {m n : ℕ} (hm : m ≤ n) (hl : ∀ k ∈ l, k ≤ n) :
    l.foldl max m ≤ n := by
  induction l generalizing m with
  | nil => exact hm
  | cons k l ih =>
    obtain ⟨hk, hrest⟩ := List.forall_mem_cons.mp hl
    exact ih (Nat.max_le.mpr ⟨hm, hk⟩) hrest

/-- What a value has as many nodes as, and is no deeper than. -/
def Measures (v : Value) (extent : ℕ × ℕ) : Prop :=
  extent.2 = v.nodes ∧ ∀ n, DepthAtMost Value.children n v → extent.1 ≤ n

theorem measures_leaf {v : Value} (h : v.children = []) : Measures v (0, 1) := by
  have hnodes := Value.counts_nodes.size_eq v
  rw [h] at hnodes
  exact ⟨hnodes.symm, fun n _ => Nat.zero_le n⟩

theorem measured_spec {vs : List Value} {parts : List (ℕ × ℕ)}
    (h : List.Forall₂ Measures vs parts) :
    parts.map Prod.snd = vs.map Value.nodes ∧ ∀ p ∈ parts, ∃ v ∈ vs, Measures v p := by
  induction h with
  | nil => simp
  | @cons v p vs parts hpart _ ih =>
    refine ⟨by rw [List.map_cons, List.map_cons, hpart.1, ih.1], ?_⟩
    refine List.forall_mem_cons.mpr ⟨⟨v, List.mem_cons_self, hpart⟩, fun q hq => ?_⟩
    obtain ⟨w, hw, hmeasures⟩ := ih.2 q hq
    exact ⟨w, List.mem_cons_of_mem _ hw, hmeasures⟩

/-- A value is measured by its parts, in any order. -/
theorem measures_within {v : Value} {parts parts' : List (ℕ × ℕ)}
    (hparts : List.Forall₂ Measures v.children parts) (hperm : parts'.Perm parts) :
    Measures v (within parts') := by
  obtain ⟨hsum, hmem⟩ := measured_spec hparts
  constructor
  · rw [Value.counts_nodes.size_eq v, ← hsum]
    exact congrArg (· + 1) (hperm.map Prod.snd).sum_eq
  · intro n hdepth
    obtain ⟨_, hchildren⟩ := depthAtMost_sub_iff.mp ⟨Nat.zero_le n, hdepth⟩
    refine foldl_max_le (Nat.zero_le n) fun k hk => ?_
    obtain ⟨p, hp, rfl⟩ := List.mem_map.mp hk
    obtain ⟨c, hc, hmeasures⟩ := hmem p (hperm.mem_iff.mp hp)
    obtain ⟨hroom, hbelow⟩ := hchildren c hc
    have hle := hmeasures.2 _ hbelow
    omega

mutual

theorem measures_toJson (repr : Decimal → Numeral) : ∀ v : Value, Measures v (extent (toJson repr v))
  | .null => measures_leaf rfl
  | .bool _ => measures_leaf rfl
  | .int _ => measures_leaf rfl
  | .float _ => measures_leaf rfl
  | .constant _ => measures_leaf rfl
  | .str _ => measures_leaf rfl
  | .list items => by
    rw [toJson, extent, extentItems_eq]
    exact measures_within (measures_items repr items) (List.Perm.refl _)
  | .dict fields => by
    rw [toJson, object, extent, extentFields_eq]
    exact measures_within (measures_fields repr fields) ((List.perm_insertionSort _ _).map _)

theorem measures_items (repr : Decimal → Numeral) : ∀ vs : List Value,
    List.Forall₂ Measures vs ((toJsonItems repr vs).map extent)
  | [] => .nil
  | v :: vs => .cons (measures_toJson repr v) (measures_items repr vs)

theorem measures_fields (repr : Decimal → Numeral) : ∀ fs : List (Text × Value),
    List.Forall₂ Measures (fs.map Prod.snd) ((toJsonFields repr fs).map fun f => extent f.2)
  | [] => .nil
  | (_, v) :: fs => .cons (measures_toJson repr v) (measures_fields repr fs)

end

/-- With its parser, the ingress reads a body through the boundary. -/
theorem strictJson_iff {json : Json} :
    strictJson (parser repr limits) max_bytes raw = some json ↔
      ∃ value, StrictJson.strictJson limits (.bytes raw) max_bytes 48 = .ok value ∧
        toJson repr value = json := by
  unfold strictJson
  simp only [Option.bind_eq_bind, Option.bind_eq_some_iff, parser_eq_some, Option.guard_eq_some']
  constructor
  · rintro ⟨_, hsize, text, htext, _, ⟨value, hvalue, rfl⟩, _, _, heq⟩
    cases heq
    obtain rfl := utf8_of_fromUTF8 htext
    have hwithin : (StrictJson.Raw.bytes (utf8 text)).Within max_bytes := hsize
    have haccepted := (StrictJson.strictJson_ok_iff (StrictJson.within_of_ok hvalue)).mp hvalue
    exact ⟨value, (StrictJson.strictJson_ok_iff hwithin).mpr haccepted, rfl⟩
  · rintro ⟨value, hvalue, rfl⟩
    have hsize := StrictJson.within_of_ok hvalue
    obtain ⟨⟨cs, hcs, hloads⟩, haccepted⟩ := (StrictJson.strictJson_ok_iff hsize).mp hvalue
    obtain ⟨text, rfl, _⟩ := decode_ok_iff.mp hcs
    obtain ⟨hnodes, hdepth⟩ := measures_toJson repr value
    refine ⟨(), hsize, text, fromUTF8_utf8 text, _, ⟨value, ?_, rfl⟩, (), ?_, rfl⟩
    · have hwithin : (StrictJson.Raw.bytes (utf8 text)).Within (utf8 text).length := le_refl _
      exact (StrictJson.strictJson_ok_iff hwithin).mpr ⟨⟨cs, hcs, hloads⟩, haccepted⟩
    · exact ⟨hdepth 48 haccepted.depth, hnodes ▸ haccepted.size⟩

/-- A text that the scanner reads as an acceptable value is read as that value. -/
theorem strictJson_of_loads {text : String} {value : Value} (hsize : (utf8 text).length ≤ max_bytes)
    (hloads : loads plainHooks limits text.toList = .ok value)
    (haccepted : StrictJson.Accepted 48 value) :
    strictJson (parser repr limits) max_bytes (utf8 text) = some (toJson repr value) := by
  have hreads : StrictJson.Reads limits (.bytes (utf8 text)) value :=
    ⟨text.toList, decode_ok_iff.mpr ⟨text, rfl, rfl⟩, hloads⟩
  have hwithin : (StrictJson.Raw.bytes (utf8 text)).Within max_bytes := hsize
  exact strictJson_iff.mpr
    ⟨value, (StrictJson.strictJson_ok_iff hwithin).mpr ⟨hreads, haccepted⟩, rfl⟩

end Extents

end MemoryGuard.JsonBodies
