import MemoryGuard.Ingress
import MemoryGuard.StrictJson

/-!
The framing of signed deliveries. The bytes that a source signs join a timestamp,
a delivery id and a body with full stops, and an id may contain full stops
itself. The parts are nevertheless determined: a timestamp has ten digits, and a
body that is accepted begins with a byte that no id contains.
-/
namespace MemoryGuard.Framing

open Guarded JsonText JsonScanner JsonBodies IsoText Models SourceModels Ingress

section Splitting

variable {α : Type}

/-- A word over some letters, followed by a separator that is one of them, ends
where the first other letter stands. -/
theorem split_unique {p : α → Bool} {sep : α} (hsep : p sep) {xs ys r r' : List α}
    (hx : ∀ a ∈ xs, p a) (hy : ∀ a ∈ ys, p a) (hr : ∀ a ∈ r.head?, p a = false)
    (hr' : ∀ a ∈ r'.head?, p a = false) (h : xs ++ sep :: r = ys ++ sep :: r') :
    xs = ys ∧ r = r' := by
  have hword : ∀ {zs s : List α}, (∀ a ∈ zs, p a) → (∀ a ∈ s.head?, p a = false) →
      (zs ++ sep :: s).takeWhile p = zs ++ [sep] := by
    intro zs s hz hs
    rw [List.takeWhile_append_of_pos hz, List.takeWhile_cons_of_pos hsep]
    cases s with
    | nil => rfl
    | cons a s => rw [List.takeWhile_cons_of_neg (by simp [hs a rfl])]
  have hsame : xs ++ [sep] = ys ++ [sep] := by
    rw [← hword hx hr, h, hword hy hr']
  have hxs : xs = ys := List.append_cancel_right hsame
  subst hxs
  exact ⟨rfl, (List.cons.inj (List.append_cancel_left h)).2⟩

end Splitting

section Encoding

/-- An ASCII character is one byte. -/
theorem encode_ascii {c : Char} (h : c.toNat < 128) :
    String.utf8EncodeChar c = [UInt8.ofNat c.toNat] := by
  have hsize : c.utf8Size = 1 := by
    unfold Char.utf8Size
    have hle : c.val ≤ 0x7f := by
      rw [UInt32.le_iff_toNat_le]
      exact Nat.le_of_lt_succ h
    simp [hle]
  rw [String.utf8EncodeChar_eq_singleton hsize]
  rfl

theorem utf8_ascii {s : String} (h : ∀ c ∈ s.toList, c.toNat < 128) :
    utf8 s = s.toList.map fun c => UInt8.ofNat c.toNat := by
  rw [utf8_eq, List.map_eq_flatMap]
  refine List.flatMap_congr fun c hc => ?_
  exact encode_ascii (h c hc)

/-- The first byte of a text that begins with an ASCII character. -/
theorem head_utf8 {s : String} {c : Char} {rest : List Char} (hs : s.toList = c :: rest)
    (hc : c.toNat < 128) : (utf8 s).head? = some (UInt8.ofNat c.toNat) := by
  rw [utf8_eq, hs, List.flatMap_cons, encode_ascii hc]
  rfl

end Encoding

section Headers

/-- The bytes of a delivery id. -/
def isIdByte (b : UInt8) : Bool :=
  (48 ≤ b ∧ b ≤ 57) ∨ (65 ≤ b ∧ b ≤ 90) ∨ (97 ≤ b ∧ b ≤ 122) ∨ b ∈ utf8 "_.:-"

theorem isIdByte_of_alphanum {c : Char} (h : c.isAlphanum) :
    c.toNat < 128 ∧ isIdByte (UInt8.ofNat c.toNat) := by
  have hrange : (48 ≤ c.toNat ∧ c.toNat ≤ 57) ∨ (65 ≤ c.toNat ∧ c.toNat ≤ 90) ∨
      (97 ≤ c.toNat ∧ c.toNat ≤ 122) := by
    delta Char.isAlphanum Char.isAlpha Char.isUpper Char.isLower Char.isDigit at h
    simp only [Bool.or_eq_true, Bool.and_eq_true, decide_eq_true_eq, ge_iff_le,
      UInt32.le_iff_toNat_le] at h
    rcases h with (h | h) | h
    · exact Or.inr (Or.inl h)
    · exact Or.inr (Or.inr h)
    · exact Or.inl h
  have hsmall : c.toNat < 128 := by omega
  have hbyte : (UInt8.ofNat c.toNat).toNat = c.toNat := by
    rw [UInt8.toNat_ofNat']
    omega
  refine ⟨hsmall, ?_⟩
  unfold isIdByte
  simp only [UInt8.le_iff_toNat_le, hbyte, decide_eq_true_eq]
  rcases hrange with hdigit | hupper | hlower
  · exact Or.inl hdigit
  · exact Or.inr (Or.inl hupper)
  · exact Or.inr (Or.inr (Or.inl hlower))

theorem idBytes {s : String} (h : IsDeliveryId s) {c : Char} (hc : c ∈ s.toList) :
    c.toNat < 128 ∧ isIdByte (UInt8.ofNat c.toNat) := by
  have hall := List.all_eq_true.mp h.2.2 c hc
  simp only [Bool.or_eq_true, decide_eq_true_eq] at hall
  rcases hall with hall | hmark
  · exact isIdByte_of_alphanum hall
  · have hmarks : ("_.:-".toList.all fun c =>
        decide (c.toNat < 128 ∧ isIdByte (UInt8.ofNat c.toNat))) = true := by
      decide +kernel
    exact of_decide_eq_true (List.all_eq_true.mp hmarks c hmark)

theorem digits_spec {width n : ℕ} {l rest : List Char} (h : digits width l = some (n, rest)) :
    ∃ ds, l = ds ++ rest ∧ ds.length = width ∧ ∀ c ∈ ds, 48 ≤ c.toNat ∧ c.toNat ≤ 57 := by
  induction width generalizing l n with
  | zero =>
    cases h
    exact ⟨[], rfl, rfl, by simp⟩
  | succ width ih =>
    cases l with
    | nil => cases h
    | cons c l =>
      simp only [digits, Option.bind_eq_bind, Option.bind_eq_some_iff] at h
      obtain ⟨d, hd, ⟨k, r⟩, hrest, heq⟩ := h
      cases heq
      obtain ⟨ds, rfl, hlength, hdigits⟩ := ih hrest
      have hc : 48 ≤ c.toNat ∧ c.toNat ≤ 57 := by
        unfold digitValue at hd
        by_contra hout
        rw [if_neg hout] at hd
        cases hd
      exact ⟨c :: ds, rfl, by rw [List.length_cons, hlength],
        List.forall_mem_cons.mpr ⟨hc, hdigits⟩⟩

/-- A timestamp takes ten bytes. -/
theorem length_timestamp {timestamp : String} (h : (sentAt timestamp).isSome) :
    (utf8 timestamp).length = 10 := by
  unfold sentAt at h
  split at h
  · rename_i n hdigits
    obtain ⟨ds, hlist, hlength, hall⟩ := digits_spec hdigits
    rw [List.append_nil] at hlist
    have hascii : ∀ c ∈ timestamp.toList, c.toNat < 128 := by
      intro c hc
      have hrange := hall c (hlist ▸ hc)
      omega
    rw [utf8_ascii hascii, List.length_map, hlist, hlength]
  · cases h

end Headers

section Bodies

variable {limits : Limits} {raw : Bytes}

/-- The first byte of an object is no byte of a delivery id. -/
theorem head_of_dict {pairs : List (Text × Value)}
    (h : StrictJson.Reads limits (.bytes raw) (.dict pairs)) :
    ∀ b ∈ raw.head?, isIdByte b = false := by
  obtain ⟨cs, hcs, hloads⟩ := h
  obtain ⟨text, rfl, rfl⟩ := decode_ok_iff.mp hcs
  have hhead := head_of_object hloads
  have hmarks : ([' ', '\t', '\n', '\r', '{'].all fun c =>
      decide (c.toNat < 128 ∧ isIdByte (UInt8.ofNat c.toNat) = false)) = true := by decide +kernel
  cases hlist : text.toList with
  | nil =>
    rw [hlist] at hhead
    cases hhead
  | cons c rest =>
    have hc : c ∈ [' ', '\t', '\n', '\r', '{'] := by
      rw [hlist] at hhead
      unfold skip at hhead
      by_cases hblank : isBlank c
      · have hmem : c = ' ' ∨ c = '\t' ∨ c = '\n' ∨ c = '\r' := of_decide_eq_true hblank
        rcases hmem with rfl | rfl | rfl | rfl <;> simp
      · rw [List.dropWhile_cons_of_neg (by simpa using hblank)] at hhead
        simp only [List.head?_cons, Option.some.injEq] at hhead
        simp [hhead]
    obtain ⟨hsmall, hbyte⟩ := of_decide_eq_true (List.all_eq_true.mp hmarks c hc)
    intro b hb
    rw [head_utf8 hlist hsmall] at hb
    cases hb
    exact hbyte

end Bodies

section Deliveries

/-- The timestamp and the delivery id have their patterns, and the boundary reads
the body as that of an incident. -/
structure Framed (repr : Decimal → Numeral) (limits : Limits) (msg : Message) : Prop where
  timestamp : (sentAt msg.timestamp).isSome
  delivery_id : IsDeliveryId msg.delivery_id
  body : ∃ value, StrictJson.strictJson limits (.bytes msg.raw) 16384 48 = .ok value ∧
    (readBody (toJson repr value)).isSome

variable {repr : Decimal → Numeral} {limits : Limits} {m m' : Message}

/-- What the ingress authenticates is framed. -/
theorem framed_of_authenticate {ingress : IncidentIngress} {time : Instant} {spec : IncidentSpec}
    {body : IncidentBody} (hloads : ingress.loads = parser repr limits)
    (h : authenticate ingress m time = .ok (spec, body)) : Framed repr limits m := by
  simp only [authenticate, hloads, bind_eq_ok, fetch_eq_ok, ensure_eq_ok, pure_eq_ok,
    Prod.mk.injEq] at h
  obtain ⟨_, _, _, _, n, hsent, _, ⟨hid, _⟩, _, _, _, _, _, _, body', hbody, _⟩ := h
  obtain ⟨json, hjson, hread⟩ := Option.bind_eq_some_iff.mp hbody
  obtain ⟨value, hvalue, rfl⟩ := strictJson_iff.mp hjson
  exact ⟨by rw [hsent]; rfl, hid, value, hvalue, by rw [hread]; rfl⟩

theorem Framed.head_raw (h : Framed repr limits m) : ∀ b ∈ m.raw.head?, isIdByte b = false := by
  obtain ⟨value, hvalue, hbody⟩ := h.body
  have hreads := ((StrictJson.strictJson_ok_iff (StrictJson.within_of_ok hvalue)).mp hvalue).1
  cases value with
  | dict pairs => exact head_of_dict hreads
  | _ => simp [toJson, int, readBody] at hbody

theorem Framed.idBytes (h : Framed repr limits m) : ∀ b ∈ utf8 m.delivery_id, isIdByte b := by
  have hascii : ∀ c ∈ m.delivery_id.toList, c.toNat < 128 := fun c hc =>
    (Framing.idBytes h.delivery_id hc).1
  rw [utf8_ascii hascii]
  intro b hb
  obtain ⟨c, hc, rfl⟩ := List.mem_map.mp hb
  exact (Framing.idBytes h.delivery_id hc).2

/-- The signed bytes determine the timestamp, the delivery id and the body. -/
theorem signed_eq_iff (h : Framed repr limits m) (h' : Framed repr limits m') :
    m.signed = m'.signed ↔
      m.timestamp = m'.timestamp ∧ m.delivery_id = m'.delivery_id ∧ m.raw = m'.raw := by
  have hdot : utf8 "." = [46] := by decide +kernel
  unfold Message.signed
  rw [hdot]
  simp only [List.append_assoc, List.singleton_append]
  constructor
  · intro hsigned
    have hlength : (utf8 m.timestamp).length = (utf8 m'.timestamp).length := by
      rw [length_timestamp h.timestamp, length_timestamp h'.timestamp]
    obtain ⟨htimestamp, hrest⟩ := List.append_inj hsigned hlength
    obtain ⟨_, hparts⟩ := List.cons.inj hrest
    obtain ⟨hid, hraw⟩ := split_unique (p := isIdByte) (by decide +kernel) h.idBytes h'.idBytes
      h.head_raw h'.head_raw hparts
    exact ⟨utf8_injective htimestamp, utf8_injective hid, hraw⟩
  · rintro ⟨htimestamp, hid, hraw⟩
    rw [htimestamp, hid, hraw]

theorem notice_framed {delivery_id : String} (h : IsDeliveryId delivery_id) :
    Framed unprinted standardLimits (unsigned delivery_id) where
  timestamp := by
    have hsent : (sentAt "0000000000").isSome := by decide +kernel
    exact hsent
  delivery_id := h
  body := by
    obtain ⟨value, hvalue, hjson⟩ := strictJson_iff.mp notice_read
    exact ⟨value, hvalue, by rw [hjson]; decide +kernel⟩

/-- A full stop in a delivery id does not move the border to the body. -/
theorem notices_differ :
    (unsigned "delivery").signed ≠ (unsigned "delivery.1").signed := by
  have hid : IsDeliveryId "delivery" := by decide +kernel
  have hid' : IsDeliveryId "delivery.1" := by decide +kernel
  intro h
  have hparts := (signed_eq_iff (notice_framed hid) (notice_framed hid')).mp h
  exact absurd hparts.2.1 (by decide +kernel)

end Deliveries

end MemoryGuard.Framing
