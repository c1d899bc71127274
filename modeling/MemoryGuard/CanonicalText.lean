import MemoryGuard.ContentHash

/-!
The canonical texts and digests of the payment guard. Texts are brought into
their composed normal form before they are hashed; the digest of a value
determines it up to that form. Normalisation and lower case are those of the
Unicode tables, of which only the ASCII part is used here.
-/
namespace MemoryGuard.CanonicalText

open OrderedDict JsonText ContentHash

/-- `unicodedata.normalize("NFC", s)` and `s.lower()`. -/
class Unicode where
  nfc : String → String
  lower : String → String

def Ascii (s : String) : Prop := ∀ c ∈ s.toList, c.toNat < 128

/-- The lower case of ASCII letters. -/
def asciiLower (s : String) : String := String.ofList (s.toList.map Char.toLower)

/-- ASCII texts are in normal form and have the usual lower case. -/
class PlainAscii [Unicode] : Prop where
  nfc_ascii : ∀ s, Ascii s → Unicode.nfc s = s
  lower_ascii : ∀ s, Ascii s → Unicode.lower s = asciiLower s

/-- The ASCII part of the tables. -/
@[reducible] def asciiTables : Unicode where
  nfc := id
  lower := asciiLower

theorem asciiTables_plain : @PlainAscii asciiTables := by
  let _ := asciiTables
  exact ⟨fun _ _ => rfl, fun _ _ => rfl⟩

theorem toLower_ascii {c : Char} (h : c.toNat < 128) :
    c.toLower.toLower = c.toLower ∧ c.toLower.toNat < 128 := by
  have hall : (List.range 128).all (fun n => (Char.ofNat n).toLower.toLower = (Char.ofNat n).toLower
      ∧ (Char.ofNat n).toLower.toNat < 128) = true := by decide +kernel
  have hc := of_decide_eq_true (List.all_eq_true.mp hall c.toNat (List.mem_range.mpr h))
  rwa [Char.ofNat_toNat] at hc

/-- The characters that `str.strip` removes and `\s` matches. -/
def isSpace (c : Char) : Bool :=
  c.toNat ∈ [9, 10, 11, 12, 13, 28, 29, 30, 31, 32, 133, 160, 5760, 8192, 8193, 8194, 8195, 8196,
    8197, 8198, 8199, 8200, 8201, 8202, 8232, 8233, 8239, 8287, 12288]

/-- `s.strip()`. -/
def strip (s : String) : String :=
  String.ofList ((s.toList.dropWhile isSpace).reverse.dropWhile isSpace).reverse

variable [Unicode]

mutual

/-- `_normalize`. -/
def normalize : Json → Json
  | .null => .null
  | .bool b => .bool b
  | .num n => .num n
  | .str s => .str (Unicode.nfc s)
  | .arr items => .arr (normalizeItems items)
  | .obj fields => .obj (normalizeFields fields)

def normalizeItems : List Json → List Json
  | [] => []
  | v :: vs => normalize v :: normalizeItems vs

def normalizeFields : List (String × Json) → List (String × Json)
  | [] => []
  | (k, v) :: fs => (k, normalize v) :: normalizeFields fs

end

theorem mem_normalizeFields {fields : List (String × Json)} {e : String × Json} :
    e ∈ normalizeFields fields ↔ ∃ v, (e.1, v) ∈ fields ∧ normalize v = e.2 := by
  induction fields with
  | nil => simp [normalizeFields]
  | cons f rest ih =>
    obtain ⟨k, v⟩ := f
    simp only [normalizeFields, List.mem_cons, ih]
    constructor
    · rintro (rfl | ⟨u, hu, he⟩)
      · exact ⟨v, Or.inl rfl, rfl⟩
      · exact ⟨u, Or.inr hu, he⟩
    · rintro ⟨u, hu | hu, he⟩
      · left
        obtain ⟨hk, rfl⟩ := Prod.mk.inj hu
        exact Prod.ext hk he.symm
      · exact Or.inr ⟨u, hu, he⟩

/-- Objects with one normal form have, under each key, values with one normal form. -/
theorem normalize_field {l l' : List (String × Json)} (h : normalize (object l) = normalize (object l'))
    (hkeys : (l'.map Prod.fst).Nodup) {k : String} {v v' : Json} (hv : (k, v) ∈ l)
    (hv' : (k, v') ∈ l') : normalize v = normalize v' := by
  simp only [object, normalize, Json.obj.injEq] at h
  have hmem : (k, normalize v) ∈ normalizeFields (byKey l') := by
    rw [← h]
    exact mem_normalizeFields.mpr ⟨v, mem_byKey.mpr hv, rfl⟩
  obtain ⟨u, hu, heq⟩ := mem_normalizeFields.mp hmem
  have hsame : u = v' := by
    have hpair := List.inj_on_of_nodup_map hkeys (mem_byKey.mp hu) hv' rfl
    exact (Prod.mk.inj hpair).2
  exact hsame ▸ heq.symm

section Hashing

variable [Sha256]

/-- The bytes that `domain_hash` feeds to the hash function. -/
def domainBytes (domain : String) (value : Json) : Bytes :=
  utf8 "proofops-memoryguard/v1:" ++ (utf8 domain ++ 0 :: canonical (normalize value))

/-- `domain_hash`. -/
def domainHash (domain : String) (value : Json) : Digest :=
  Sha256.hexdigest (domainBytes domain value)

/-- `ZERO_HASH`. -/
def zeroHash : Digest := "0000000000000000000000000000000000000000000000000000000000000000"

/-- `text_hash`. -/
def textHash (text : String) : Digest := domainHash "external-text" (.str (Unicode.nfc text))

/-- `subject_ref`. -/
def subjectRef (subject_id : String) : Digest :=
  domainHash "subject" (.str (Unicode.lower (strip subject_id)))

/-- A digest of something is some text. -/
class NonemptyDigest : Prop where
  nonempty : ∀ data, data ≠ [] → Sha256.hexdigest data ≠ ""

/-- A digest is written in 64 hexadecimal digits. -/
class HexDigest : Prop where
  length : ∀ data, (Sha256.hexdigest data).length = 64
  digits : ∀ data, (Sha256.hexdigest data).toList.all fun c => c ∈ "0123456789abcdef".toList

omit [Unicode] in
theorem HexDigest.nonempty [HexDigest] : NonemptyDigest := by
  refine ⟨fun data _ h => ?_⟩
  have hlength := HexDigest.length data
  rw [h] at hlength
  exact absurd hlength (by decide)

omit [Unicode] [Sha256] in
theorem spelling_nonempty : @NonemptyDigest spelling := by
  let _ := spelling
  refine ⟨fun data hdata h => hdata ?_⟩
  have hlist : data.map spell = [] := String.ofList_injective h
  exact List.map_eq_nil_iff.mp hlist

theorem domainHash_ne_empty [NonemptyDigest] (domain : String) (value : Json) :
    domainHash domain value ≠ "" :=
  NonemptyDigest.nonempty _ (by simp [domainBytes])

omit [Sha256] in
theorem domainBytes_inj {d d' : String} {v v' : Json} :
    domainBytes d v = domainBytes d' v' ↔ d = d' ∧ normalize v = normalize v' := by
  constructor
  · intro h
    unfold domainBytes at h
    have htail := List.append_cancel_left h
    obtain ⟨hd, hv⟩ := split_last (nul_notMem_canonical _) (nul_notMem_canonical _) htail
    exact ⟨utf8_injective hd, canonical_injective hv⟩
  · rintro ⟨rfl, hv⟩
    unfold domainBytes
    rw [hv]

theorem domainHash_inj [CollisionFree] {d d' : String} {v v' : Json} :
    domainHash d v = domainHash d' v' ↔ d = d' ∧ normalize v = normalize v' := by
  unfold domainHash
  rw [CollisionFree.hexdigest_injective.eq_iff, domainBytes_inj]

end Hashing

end MemoryGuard.CanonicalText
