import MemoryGuard.JsonScanner
import MemoryGuard.JsonText

/-!
The JSON boundary. A text is read with hooks that refuse a repeated key and a
constant, and the value is then explored for numbers that are not finite, texts
that have no encoding, and its depth and size.
-/
namespace MemoryGuard.StrictJson

open OrderedDict Guarded Worklist JsonText JsonScanner

section Encoding

/-- A text has an encoding when it has no surrogates. -/
def Encodable (s : Text) : Prop := ∀ c ∈ s, c.val.isValidChar

instance (s : Text) : Decidable (Encodable s) :=
  have (c : CodePoint) : Decidable c.val.isValidChar := inferInstanceAs (Decidable (_ ∨ _))
  List.decidableBAll (fun c : CodePoint => c.val.isValidChar) s

/-- The characters of an encodable text. -/
def characters (s : Text) : List Char := s.map fun c => Char.ofNat c.val

/-- `s.encode("utf-8", errors="strict")`. -/
def encode (s : Text) : Except Raised Bytes := do
  ensure (Encodable s) .unicode
  return utf8 (String.ofList (characters s))

/-- `b.decode("utf-8", errors="strict")`. -/
def decode (b : Bytes) : Except Raised (List Char) := do
  let s ← fetch (String.fromUTF8? ⟨b.toArray⟩) .unicode
  return s.toList

end Encoding

section Boundary

/-- What the boundary is called with. -/
inductive Raw
  | bytes (b : Bytes)
  | str (s : Text)
  | other

def tooLarge : Raised := .value "JSON exceeds size limit"

def nonFinite : Raised := .value "non-finite JSON number"

/-- The text of an input that is not too large. -/
def Raw.read (max_bytes : ℕ) : Raw → Except Raised (List Char)
  | .bytes b => do
    ensure (b.length ≤ max_bytes) tooLarge
    decode b
  | .str s => do
    let encoded ← encode s
    ensure (encoded.length ≤ max_bytes) tooLarge
    return characters s
  | .other => .error (.value "JSON input must be bytes or text")

/-- The hook for objects. -/
def pairs (items : List (Text × Value)) : Except Raised Value := do
  let out ← items.foldlM (fun (out : Dict Text Value) item => do
    ensure (¬ out.Has item.1) (Raised.value "duplicate JSON key")
    return out.set item.1 item.2) Dict.empty
  return .dict out.entries

def strictHooks : Hooks where
  object_pairs_hook := pairs
  parse_constant _ := .error nonFinite

/-- The exceptions of the parser, as the boundary passes them on. -/
def invalid : Except Raised Value → Except Raised Value
  | .ok value => .ok value
  | .error (.value message) => .error (.value message)
  | .error _ => .error (.value "invalid JSON")

/-- One round of the loop over the pending values. -/
def visit (max_depth : ℕ) (item : Value) (depth nodes : ℕ) : Except Raised Unit := do
  ensure (depth ≤ max_depth ∧ nodes ≤ 100000) (.value "JSON nesting/node limit")
  match item with
  | .float x => ensure x.IsFinite nonFinite
  | .constant _ => .error nonFinite
  | .str s => discard (encode s)
  | .dict fields => fields.forM fun field => discard (encode field.1)
  | _ => .ok ()

/-- `strict_json`. -/
def strictJson (limits : Limits) (raw : Raw) (max_bytes max_depth : ℕ) : Except Raised Value := do
  let text ← raw.read max_bytes
  let value ← invalid (loads strictHooks limits text)
  explore Value.counts_nodes (visit max_depth) [(value, 0)] 0
  return value

end Boundary

section Hooks

variable {limits : Limits} {v : Value}

theorem pairs_fold (items : List (Text × Value)) (out out' : Dict Text Value) :
    items.foldlM (fun (out : Dict Text Value) item => do
      ensure (¬ out.Has item.1) (Raised.value "duplicate JSON key")
      return out.set item.1 item.2) out = .ok out' ↔
      out'.entries = out.entries ++ items ∧ (out.keys ++ items.map Prod.fst).Nodup := by
  induction items generalizing out with
  | nil =>
    simp only [List.foldlM_nil, pure_eq_ok, List.append_nil, List.map_nil]
    exact ⟨fun h => ⟨by rw [h], out.nodup⟩, fun h => Dict.ext h.1.symm⟩
  | cons item items ih =>
    simp only [List.foldlM_cons, bind_eq_ok, ensure_eq_ok, pure_eq_ok, ih]
    have hkeys : ∀ h : ¬ out.Has item.1, (out.set item.1 item.2).entries = out.entries ++ [item] :=
      fun h => Dict.entries_set_of_fresh (by simpa [Dict.Has] using h)
    constructor
    · rintro ⟨_, ⟨_, hfresh, rfl⟩, hentries, hnodup⟩
      unfold Dict.keys at hnodup ⊢
      rw [hkeys hfresh] at hentries hnodup
      exact ⟨by simpa using hentries, by simpa using hnodup⟩
    · rintro ⟨hentries, hnodup⟩
      have hfresh : ¬ out.Has item.1 := by
        intro hhas
        have hmem : item.1 ∈ out.keys := by
          by_contra hout
          rw [Dict.Has, Dict.get?_eq_none_iff.mpr hout] at hhas
          cases hhas
        rw [List.nodup_append] at hnodup
        exact hnodup.2.2 _ hmem item.1 (by simp) rfl
      refine ⟨_, ⟨(), hfresh, rfl⟩, ?_, ?_⟩
      · rw [hkeys hfresh]
        simpa using hentries
      · unfold Dict.keys at hnodup ⊢
        rw [hkeys hfresh]
        simpa using hnodup

/-- The hook keeps an object as it is written, or finds a repeated key. -/
theorem pairs_ok_iff {items : List (Text × Value)} :
    pairs items = .ok v ↔ .dict items = v ∧ (items.map Prod.fst).Nodup := by
  unfold pairs
  simp only [bind_eq_ok, pairs_fold, pure_eq_ok]
  constructor
  · rintro ⟨out, ⟨hentries, hnodup⟩, rfl⟩
    exact ⟨by rw [hentries]; rfl, hnodup⟩
  · rintro ⟨rfl, hnodup⟩
    exact ⟨⟨items, hnodup⟩, ⟨rfl, hnodup⟩, rfl⟩

/-- No key is repeated in an object, and a constant is none of the values. -/
def Unambiguous (v : Value) : Prop := v.keys.Nodup ∧ v.isConstant = false

theorem refusing_strict : Refusing strictHooks Unambiguous where
  object items v := by
    unfold strictHooks Unambiguous
    rw [pairs_ok_iff]
    constructor
    · rintro ⟨rfl, hnodup⟩
      exact ⟨rfl, hnodup, rfl⟩
    · rintro ⟨rfl, hnodup, _⟩
      exact ⟨rfl, hnodup⟩
  constant c v := by
    unfold strictHooks Unambiguous
    constructor
    · intro h
      cases h
    · rintro ⟨rfl, _, hconstant⟩
      cases hconstant
  others v hobject hconstant := by
    refine ⟨?_, hconstant⟩
    cases v with
    | dict fields => cases hobject
    | _ => exact List.nodup_nil

end Hooks

section Acceptance

variable {limits : Limits} {raw : Raw} {max_bytes max_depth : ℕ} {v : Value}

/-- A number with a finite value, or no number at all. -/
def IsFinite : Value → Prop
  | .float x => x.IsFinite
  | .constant _ => False
  | _ => True

/-- The texts of a node, its keys when it is an object, have encodings. -/
def HasEncoding : Value → Prop
  | .str s => Encodable s
  | .dict fields => ∀ field ∈ fields, Encodable field.1
  | _ => True

/-- What is required of a value: of each of its nodes and of it as a whole. -/
structure Accepted (max_depth : ℕ) (v : Value) : Prop where
  distinct : Everywhere Value.children (fun n => n.keys.Nodup) v
  finite : Everywhere Value.children IsFinite v
  encodable : Everywhere Value.children HasEncoding v
  depth : DepthAtMost Value.children max_depth v
  size : v.nodes ≤ 100000

instance (v : Value) : Decidable (IsFinite v) :=
  match v with
  | .float x => inferInstanceAs (Decidable x.IsFinite)
  | .constant _ => .isFalse id
  | .null => .isTrue trivial
  | .bool _ => .isTrue trivial
  | .int _ => .isTrue trivial
  | .str _ => .isTrue trivial
  | .list _ => .isTrue trivial
  | .dict _ => .isTrue trivial

instance (v : Value) : Decidable (HasEncoding v) :=
  match v with
  | .str s => inferInstanceAs (Decidable (Encodable s))
  | .dict fields => List.decidableBAll (fun field : Text × Value => Encodable field.1) fields
  | .float _ => .isTrue trivial
  | .constant _ => .isTrue trivial
  | .null => .isTrue trivial
  | .bool _ => .isTrue trivial
  | .int _ => .isTrue trivial
  | .list _ => .isTrue trivial

theorem accepted_iff : Accepted max_depth v ↔ testsTo Value.children
    (fun n => decide (n.keys.Nodup ∧ IsFinite n ∧ HasEncoding n)) max_depth v = true ∧
      v.nodes ≤ 100000 := by
  rw [testsTo_iff]
  simp only [decide_eq_true_eq, everywhere_and]
  exact ⟨fun h => ⟨⟨⟨h.distinct, h.finite, h.encodable⟩, h.depth⟩, h.size⟩,
    fun ⟨⟨⟨hkeys, hfinite, hencodable⟩, hdepth⟩, hsize⟩ =>
      ⟨hkeys, hfinite, hencodable, hdepth, hsize⟩⟩

instance (max_depth : ℕ) (v : Value) : Decidable (Accepted max_depth v) :=
  decidable_of_iff _ accepted_iff.symm

/-- The input has a text, and the text is one of this value. -/
def Reads (limits : Limits) (raw : Raw) (v : Value) : Prop :=
  match raw with
  | .bytes b => ∃ text, decode b = .ok text ∧ loads plainHooks limits text = .ok v
  | .str s => Encodable s ∧ loads plainHooks limits (characters s) = .ok v
  | .other => False

/-- The input takes no more than so many bytes. -/
def Raw.Within (max_bytes : ℕ) : Raw → Prop
  | .bytes b => b.length ≤ max_bytes
  | .str s => (utf8 (String.ofList (characters s))).length ≤ max_bytes
  | .other => True

theorem encode_ok_iff {s : Text} {b : Bytes} :
    encode s = .ok b ↔ Encodable s ∧ utf8 (String.ofList (characters s)) = b := by
  unfold encode
  simp [-bind_pure_comp]

theorem discard_encode {s : Text} : discard (encode s) = .ok () ↔ Encodable s := by
  unfold encode
  by_cases hs : Encodable s
  · simp only [hs, ensure, if_true, iff_true]
    rfl
  · simp only [hs, ensure, if_false, iff_false]
    exact fun h => nomatch h

theorem encode_raises (s : Text) : RaisesOnly Raised.IsValueError (encode s) :=
  raisesOnly_bind (raisesOnly_ensure Raised.noConfusion) fun _ => raisesOnly_ok _

theorem discard_raises (s : Text) : RaisesOnly Raised.IsValueError (discard (encode s)) := by
  intro e h
  apply encode_raises s e
  cases hs : encode s with
  | error e' =>
    rw [hs] at h
    cases h
    rfl
  | ok b =>
    rw [hs] at h
    cases h

theorem visit_ok_iff (item : Value) (depth nodes : ℕ) : visit max_depth item depth nodes = .ok () ↔
    ((IsFinite item ∧ HasEncoding item) ∧ depth ≤ max_depth) ∧ nodes ≤ 100000 := by
  unfold visit
  simp only [bind_eq_ok, ensure_eq_ok]
  cases item with
  | float x =>
    simp only [ensure_eq_ok, IsFinite, HasEncoding, and_true, exists_const]
    tauto
  | constant c => simp [IsFinite]
  | str s =>
    simp only [discard_encode, IsFinite, HasEncoding, true_and, exists_const]
    tauto
  | dict fields =>
    simp only [forM_eq_ok, discard_encode, IsFinite, HasEncoding, true_and, exists_const]
    tauto
  | _ => simp [IsFinite, HasEncoding]

theorem visit_raises (item : Value) (depth nodes : ℕ) :
    RaisesOnly Raised.IsValueError (visit max_depth item depth nodes) := by
  unfold visit
  refine raisesOnly_bind (raisesOnly_ensure Raised.noConfusion) fun _ => ?_
  cases item with
  | float x => exact raisesOnly_ensure Raised.noConfusion
  | constant c => exact fun _ h => Except.error.inj h ▸ Raised.noConfusion
  | str s => exact discard_raises s
  | dict fields =>
    intro e h
    obtain ⟨field, _, hfield⟩ := forM_error h
    exact discard_raises field.1 e hfield
  | _ => exact raisesOnly_ok ()

/-- An input of the right size is read when it has a text. -/
theorem read_ok_iff (hsize : raw.Within max_bytes) :
    (∃ text, raw.read max_bytes = .ok text ∧ loads plainHooks limits text = .ok v) ↔
      Reads limits raw v := by
  unfold Raw.read Reads
  cases raw with
  | bytes b => simp only [bind_eq_ok, ensure_eq_ok, show b.length ≤ max_bytes from hsize, true_and,
      exists_const]
  | str s =>
    simp only [bind_eq_ok, ensure_eq_ok, encode_ok_iff, pure_eq_ok]
    constructor
    · rintro ⟨_, ⟨_, ⟨hs, _⟩, _, _, rfl⟩, hloads⟩
      exact ⟨hs, hloads⟩
    · rintro ⟨hs, hloads⟩
      exact ⟨_, ⟨_, ⟨hs, rfl⟩, (), hsize, rfl⟩, hloads⟩
  | other => simp

theorem read_raises : RaisesOnly Raised.IsValueError (raw.read max_bytes) := by
  unfold Raw.read
  cases raw with
  | bytes b =>
    exact raisesOnly_bind (raisesOnly_ensure Raised.noConfusion) fun _ =>
      raisesOnly_bind (raisesOnly_fetch Raised.noConfusion) fun _ => raisesOnly_ok _
  | str s =>
    exact raisesOnly_bind (encode_raises s) fun _ =>
      raisesOnly_bind (raisesOnly_ensure Raised.noConfusion) fun _ => raisesOnly_ok _
  | other => exact fun _ h => Except.error.inj h ▸ Raised.noConfusion

theorem invalid_ok_iff {read : Except Raised Value} : invalid read = .ok v ↔ read = .ok v := by
  unfold invalid
  split <;> simp

/-- The errors of the parser leave the boundary as value errors. -/
theorem invalid_raises (read : Except Raised Value) :
    RaisesOnly Raised.IsValueError (invalid read) := by
  unfold invalid
  split
  · exact raisesOnly_ok _
  · exact fun _ h => Except.error.inj h ▸ Raised.noConfusion
  · exact fun _ h => Except.error.inj h ▸ Raised.noConfusion

/-- The exploration of a value passes when its nodes are in order, none is too
deep and there are not too many. -/
theorem explore_value_iff :
    explore Value.counts_nodes (visit max_depth) [(v, 0)] 0 = .ok () ↔
      Everywhere Value.children IsFinite v ∧ Everywhere Value.children HasEncoding v ∧
        DepthAtMost Value.children max_depth v ∧ v.nodes ≤ 100000 := by
  rw [explore_ok_iff Value.counts_nodes visit_ok_iff [(v, 0)] 0 (Nat.zero_le _)]
  unfold Passes total
  simp only [List.forall_mem_singleton, Nat.zero_le, true_and, Nat.sub_zero, List.map_cons,
    List.map_nil, List.sum_singleton, Nat.zero_add, everywhere_and, and_assoc]

theorem strictJson_raises (limits : Limits) (raw : Raw) (max_bytes max_depth : ℕ) :
    RaisesOnly Raised.IsValueError (strictJson limits raw max_bytes max_depth) :=
  raisesOnly_bind read_raises fun _ => raisesOnly_bind (invalid_raises _) fun _ =>
    raisesOnly_bind (explore_raises _ visit_raises _ _) fun _ => raisesOnly_ok _

theorem strictJson_ok_iff (hsize : raw.Within max_bytes) :
    strictJson limits raw max_bytes max_depth = .ok v ↔
      Reads limits raw v ∧ Accepted max_depth v := by
  unfold strictJson
  simp only [bind_eq_ok, invalid_ok_iff, loads_plain refusing_strict, pure_eq_ok]
  constructor
  · rintro ⟨text, htext, value, ⟨hloads, hclear⟩, _, hexplore, rfl⟩
    obtain ⟨hdistinct, _⟩ := everywhere_and.mp hclear
    obtain ⟨hfinite, hencodable, hdepth, hnodes⟩ := explore_value_iff.mp hexplore
    exact ⟨(read_ok_iff hsize).mp ⟨text, htext, hloads⟩,
      ⟨hdistinct, hfinite, hencodable, hdepth, hnodes⟩⟩
  · rintro ⟨hreads, haccepted⟩
    obtain ⟨text, htext, hloads⟩ := (read_ok_iff hsize).mpr hreads
    have hconstant : Everywhere Value.children (fun n => n.isConstant = false) v := by
      intro k n hn
      have hfinite := haccepted.finite k n hn
      cases n with
      | constant c => exact hfinite.elim
      | _ => rfl
    exact ⟨text, htext, v, ⟨hloads, everywhere_and.mpr ⟨haccepted.distinct, hconstant⟩⟩, (),
      explore_value_iff.mpr ⟨haccepted.finite, haccepted.encodable, haccepted.depth,
        haccepted.size⟩, rfl⟩

theorem within_of_ok (h : strictJson limits raw max_bytes max_depth = .ok v) :
    raw.Within max_bytes := by
  unfold strictJson at h
  obtain ⟨text, htext, _⟩ := bind_eq_ok.mp h
  unfold Raw.read at htext
  cases raw with
  | bytes b =>
    obtain ⟨_, hsize, _⟩ := bind_eq_ok.mp htext
    have hle : b.length ≤ max_bytes := ensure_eq_ok.mp hsize
    exact hle
  | str s =>
    obtain ⟨encoded, hencoded, hrest⟩ := bind_eq_ok.mp htext
    obtain ⟨_, hsize, _⟩ := bind_eq_ok.mp hrest
    obtain ⟨_, rfl⟩ := encode_ok_iff.mp hencoded
    have hle : (utf8 (String.ofList (characters s))).length ≤ max_bytes := ensure_eq_ok.mp hsize
    exact hle
  | other => trivial

/-- The boundary returns what is read and accepted, and raises a value error when
there is no such value. Its loop ends, for it visits each node once. -/
theorem strictJson_accepts (limits : Limits) {raw : Raw} {max_bytes : ℕ} (max_depth : ℕ)
    (hsize : raw.Within max_bytes) :
    (∀ v, strictJson limits raw max_bytes max_depth = .ok v ↔
      Reads limits raw v ∧ Accepted max_depth v) ∧
    ((¬ ∃ v, Reads limits raw v ∧ Accepted max_depth v) →
      ∃ e, strictJson limits raw max_bytes max_depth = .error e ∧ e.IsValueError) := by
  refine ⟨fun v => strictJson_ok_iff hsize, fun hnone => ?_⟩
  cases hresult : strictJson limits raw max_bytes max_depth with
  | error e => exact ⟨e, rfl, strictJson_raises limits raw max_bytes max_depth e hresult⟩
  | ok v => exact absurd ⟨v, (strictJson_ok_iff hsize).mp hresult⟩ hnone

def flag : Value := .dict [(text "x", .bool true)]

theorem flag_accepted :
    strictJson ⟨1000, 4300⟩ (.str (text "\x7b\"x\":true\x7d")) 512000 48 = .ok flag := by
  have hsize : (Raw.str (text "\x7b\"x\":true\x7d")).Within 512000 := by
    unfold Raw.Within
    decide +kernel
  exact ((strictJson_accepts ⟨1000, 4300⟩ 48 hsize).1 flag).mpr
    ⟨⟨by decide +kernel, by decide +kernel⟩, by decide +kernel⟩

end Acceptance

end MemoryGuard.StrictJson
