import MemoryGuard.JsonText

/-!
Domain-separated digests of JSON values. The hash function is a parameter; a
result that needs it assumes that different inputs have different digests.
Fresh identifiers carry an underscore, which no hexadecimal digest has.
-/
namespace MemoryGuard.ContentHash

open JsonText

abbrev Digest := String

/-- `hashlib.sha256(data).hexdigest()` and the leading `n` characters of a digest. -/
class Sha256 where
  hexdigest : Bytes → String
  leading : ℕ → Digest → String

/-- The lengths that digests in identifiers are shortened to. -/
def shortLengths : List ℕ := [32, 40, 48]

/-- The idealised hash: no collisions, also among shortened digests. -/
class CollisionFree [Sha256] : Prop where
  hexdigest_injective : Function.Injective Sha256.hexdigest
  leading_injective : ∀ n ∈ shortLengths,
    Function.Injective fun data => Sha256.leading n (Sha256.hexdigest data)
  plain : ∀ data, '_' ∉ (Sha256.hexdigest data).toList

section Spelling

/-- Each byte spelled by a character of its own. -/
def spell (b : UInt8) : Char := Char.ofNat (256 + b.toNat)

theorem toNat_spell (b : UInt8) : (spell b).toNat = 256 + b.toNat := by
  have hb : b.toNat < 256 := b.toNat_lt
  have hvalid : (256 + b.toNat).isValidChar := Or.inl (by omega)
  unfold spell
  rw [Char.ofNat, dif_pos hvalid]
  rfl

theorem spell_injective : Function.Injective spell := by
  intro a b h
  have hnat := congrArg Char.toNat h
  rw [toNat_spell, toNat_spell] at hnat
  exact UInt8.toNat_inj.mp (by omega)

/-- An ideal hash exists: the one that spells out its input. -/
@[reducible] def spelling : Sha256 where
  hexdigest data := String.ofList (data.map spell)
  leading _ d := d

theorem spelling_collisionFree : @CollisionFree spelling := by
  let _ := spelling
  have hinjective : Function.Injective fun data : Bytes => String.ofList (data.map spell) := by
    intro data data' h
    exact List.map_injective_iff.mpr spell_injective (String.ofList_injective h)
  refine ⟨hinjective, fun _ _ => hinjective, ?_⟩
  · intro data h
    have hlist : '_' ∈ data.map spell := by
      rwa [show Sha256.hexdigest data = String.ofList (data.map spell) from rfl,
        String.toList_ofList] at h
    obtain ⟨b, _, hb⟩ := List.mem_map.mp hlist
    have hnat := congrArg Char.toNat hb
    rw [toNat_spell] at hnat
    have hunder : '_'.toNat = 95 := rfl
    omega

end Spelling

variable [Sha256]

def preimage (domain : String) (payload : Json) : Bytes :=
  utf8 "memoryguard-casework/v2" ++ 0 :: (utf8 domain ++ 0 :: canonical payload)

def digest (domain : String) (payload : Json) : Digest :=
  Sha256.hexdigest (preimage domain payload)

/-- `digest(domain, payload)[:n]`. -/
def shortDigest (n : ℕ) (domain : String) (payload : Json) : String :=
  Sha256.leading n (digest domain payload)

omit [Sha256] in
/-- `prefix_` followed by the hexadecimal digits of a new UUID. -/
def newId (stem uuid : String) : String := stem ++ "_" ++ uuid

section NulFree

omit [Sha256]

theorem nul_notMem_escape (b : UInt8) : 0 ∉ escape b := by
  by_cases hb : b ∈ specials
  · have hall : ∀ c ∈ specials, 0 ∉ escape c := by decide +kernel
    exact hall b hb
  · rw [escape_of_not_special hb]
    intro h
    simp only [List.mem_singleton] at h
    exact hb (h ▸ by decide)

theorem nul_notMem_quoted (s : String) : 0 ∉ quoted s := by
  intro h
  simp only [quoted, List.mem_cons, List.mem_append, List.mem_flatMap, List.not_mem_nil,
    or_false] at h
  rcases h with h | ⟨b, _, hb⟩ | h
  · exact absurd h (by decide)
  · exact nul_notMem_escape b hb
  · exact absurd h (by decide)

theorem nul_notMem_numeral (n : Numeral) : 0 ∉ n.text := fun h =>
  absurd (n.valid 0 h) (by decide +kernel)

mutual

theorem nul_notMem_canonical : ∀ v : Json, 0 ∉ canonical v
  | .null => by decide
  | .bool true => by decide
  | .bool false => by decide
  | .num n => by simpa [canonical] using nul_notMem_numeral n
  | .str s => by simpa [canonical] using nul_notMem_quoted s
  | .arr [] => by decide
  | .arr (v :: vs) => by
    simp [canonical, nul_notMem_canonical v, nul_notMem_moreItems vs]
  | .obj [] => by decide
  | .obj ((k, v) :: fs) => by
    simp [canonical, nul_notMem_quoted k, nul_notMem_canonical v, nul_notMem_moreFields fs]

theorem nul_notMem_moreItems : ∀ vs : List Json, 0 ∉ moreItems vs
  | [] => by decide
  | v :: vs => by
    simp [moreItems, nul_notMem_canonical v, nul_notMem_moreItems vs]

theorem nul_notMem_moreFields : ∀ fs : List (String × Json), 0 ∉ moreFields fs
  | [] => by decide
  | (k, v) :: fs => by
    simp [moreFields, nul_notMem_quoted k, nul_notMem_canonical v, nul_notMem_moreFields fs]

end

/-- The last separator of two equal byte strings is at one place. -/
theorem split_last {x x' y y' : Bytes} (hy : 0 ∉ y) (hy' : 0 ∉ y')
    (h : x ++ 0 :: y = x' ++ 0 :: y') : x = x' ∧ y = y' := by
  rcases List.append_eq_append_iff.mp h with ⟨m, rfl, hm⟩ | ⟨m, rfl, hm⟩
  · cases m with
    | nil => simpa using hm
    | cons b m =>
      simp only [List.cons_append, List.cons.injEq] at hm
      exact absurd (hm.2 ▸ by simp) hy
  · cases m with
    | nil => simpa [eq_comm] using hm
    | cons b m =>
      simp only [List.cons_append, List.cons.injEq] at hm
      exact absurd (hm.2 ▸ by simp) hy'

end NulFree

omit [Sha256] in
theorem preimage_inj {d d' : String} {p p' : Json} :
    preimage d p = preimage d' p' ↔ d = d' ∧ p = p' := by
  constructor
  · intro h
    unfold preimage at h
    have htail := List.append_cancel_left h
    simp only [List.cons.injEq, true_and] at htail
    obtain ⟨hd, hp⟩ := split_last (nul_notMem_canonical p) (nul_notMem_canonical p') htail
    exact ⟨utf8_injective hd, canonical_injective hp⟩
  · rintro ⟨rfl, rfl⟩
    rfl

section Collisions
variable [CollisionFree]

@[simp] theorem digest_inj {d d' : String} {p p' : Json} :
    digest d p = digest d' p' ↔ d = d' ∧ p = p' := by
  unfold digest
  rw [CollisionFree.hexdigest_injective.eq_iff, preimage_inj]

@[simp] theorem shortDigest_inj {n : ℕ} (hn : n ∈ shortLengths) {d d' : String} {p p' : Json} :
    shortDigest n d p = shortDigest n d' p' ↔ d = d' ∧ p = p' := by
  unfold shortDigest digest
  rw [(CollisionFree.leading_injective n hn).eq_iff, preimage_inj]

theorem digest_plain (d : String) (p : Json) : '_' ∉ (digest d p).toList :=
  CollisionFree.plain _

/-- A key with an underscore in it is no digest. -/
theorem digest_ne_of_underscore {d : String} {p : Json} {s : String} (h : '_' ∈ s.toList) :
    digest d p ≠ s := fun heq => digest_plain d p (heq ▸ h)

theorem digest_ne_newId {d stem uuid : String} {p : Json} : digest d p ≠ newId stem uuid :=
  digest_ne_of_underscore (by simp [newId, String.toList_append])

end Collisions

end MemoryGuard.ContentHash
