import MemoryGuard.CanonicalText
import Mathlib.Data.BitVec

/-!
SHA-256, over lists of bytes, with the digest written in hexadecimal digits.
-/
namespace MemoryGuard.SecureHash

open JsonText ContentHash CanonicalText

abbrev Word := BitVec 32

/-- The eight words that a block is mixed into. -/
structure Registers where
  a : Word
  b : Word
  c : Word
  d : Word
  e : Word
  f : Word
  g : Word
  h : Word

def Registers.words (r : Registers) : List Word := [r.a, r.b, r.c, r.d, r.e, r.f, r.g, r.h]

def Registers.add (r s : Registers) : Registers :=
  ⟨r.a + s.a, r.b + s.b, r.c + s.c, r.d + s.d, r.e + s.e, r.f + s.f, r.g + s.g, r.h + s.h⟩

def initial : Registers :=
  ⟨0x6a09e667, 0xbb67ae85, 0x3c6ef372, 0xa54ff53a, 0x510e527f, 0x9b05688c, 0x1f83d9ab, 0x5be0cd19⟩

def roundConstants : List Word :=
  [0x428a2f98, 0x71374491, 0xb5c0fbcf, 0xe9b5dba5, 0x3956c25b, 0x59f111f1, 0x923f82a4, 0xab1c5ed5,
    0xd807aa98, 0x12835b01, 0x243185be, 0x550c7dc3, 0x72be5d74, 0x80deb1fe, 0x9bdc06a7, 0xc19bf174,
    0xe49b69c1, 0xefbe4786, 0x0fc19dc6, 0x240ca1cc, 0x2de92c6f, 0x4a7484aa, 0x5cb0a9dc, 0x76f988da,
    0x983e5152, 0xa831c66d, 0xb00327c8, 0xbf597fc7, 0xc6e00bf3, 0xd5a79147, 0x06ca6351, 0x14292967,
    0x27b70a85, 0x2e1b2138, 0x4d2c6dfc, 0x53380d13, 0x650a7354, 0x766a0abb, 0x81c2c92e, 0x92722c85,
    0xa2bfe8a1, 0xa81a664b, 0xc24b8b70, 0xc76c51a3, 0xd192e819, 0xd6990624, 0xf40e3585, 0x106aa070,
    0x19a4c116, 0x1e376c08, 0x2748774c, 0x34b0bcb5, 0x391c0cb3, 0x4ed8aa4a, 0x5b9cca4f, 0x682e6ff3,
    0x748f82ee, 0x78a5636f, 0x84c87814, 0x8cc70208, 0x90befffa, 0xa4506ceb, 0xbef9a3f7, 0xc67178f2]

section Rounds

def lowSigma (x : Word) (m n shift : ℕ) : Word :=
  x.rotateRight m ^^^ x.rotateRight n ^^^ (x >>> shift)

def highSigma (x : Word) (m n k : ℕ) : Word :=
  x.rotateRight m ^^^ x.rotateRight n ^^^ x.rotateRight k

/-- The words of the message schedule, the last one first. -/
def extend : ℕ → List Word → List Word
  | 0, words => words
  | n + 1, words =>
    let next := lowSigma (words.getD 1 0) 17 19 10 + words.getD 6 0 +
      lowSigma (words.getD 14 0) 7 18 3 + words.getD 15 0
    extend n (next :: words)

def round (r : Registers) (k : Word × Word) : Registers :=
  let choice := (r.e &&& r.f) ^^^ (~~~ r.e &&& r.g)
  let majority := (r.a &&& r.b) ^^^ (r.a &&& r.c) ^^^ (r.b &&& r.c)
  let t1 := r.h + highSigma r.e 6 11 25 + choice + k.1 + k.2
  let t2 := highSigma r.a 2 13 22 + majority
  ⟨t1 + t2, r.a, r.b, r.c, r.d + t1, r.e, r.f, r.g⟩

/-- One block of sixteen words. -/
def compress (r : Registers) (block : List Word) : Registers :=
  let schedule := (extend 48 block.reverse).reverse
  r.add ((roundConstants.zip schedule).foldl round r)

end Rounds

section Blocks

/-- A number in so many bytes, the highest first. -/
def bigEndian : ℕ → ℕ → Bytes
  | 0, _ => []
  | n + 1, value => UInt8.ofNat (value >>> (8 * n)) :: bigEndian n value

/-- The message, a one bit, zeros, and the length in bits. -/
def padded (message : Bytes) : Bytes :=
  message ++ 128 :: (List.replicate ((119 - message.length % 64) % 64) 0 ++
    bigEndian 8 (8 * message.length))

def wordOf (bytes : Bytes) : Word :=
  BitVec.ofNat 32 (bytes.foldl (fun n b => 256 * n + b.toNat) 0)

def wordsOf : ℕ → Bytes → List Word
  | 0, _ => []
  | n + 1, bytes => wordOf (bytes.take 4) :: wordsOf n (bytes.drop 4)

def blocks : ℕ → Bytes → Registers → Registers
  | 0, _, r => r
  | n + 1, bytes, r => blocks n (bytes.drop 64) (compress r (wordsOf 16 bytes))

end Blocks

section Digest

def hexChar (n : ℕ) : Char := if n < 10 then Char.ofNat (48 + n) else Char.ofNat (87 + n)

/-- The last digits of a number, in base sixteen. -/
def hexText : ℕ → ℕ → List Char
  | 0, _ => []
  | n + 1, value => hexChar (value >>> (4 * n) % 16) :: hexText n value

/-- `sha256(data).hexdigest()`. -/
def sha256 (data : Bytes) : Digest :=
  let message := padded data
  let r := blocks (message.length / 64) message initial
  String.ofList (r.words.flatMap fun w => hexText 8 w.toNat)

@[reducible] def secureHash : Sha256 where
  hexdigest := sha256
  leading n digest := String.ofList (digest.toList.take n)

theorem length_hexText (n value : ℕ) : (hexText n value).length = n := by
  induction n with
  | zero => rfl
  | succ n ih => rw [hexText, List.length_cons, ih]

theorem hexChar_mem {n : ℕ} (h : n < 16) : hexChar n ∈ "0123456789abcdef".toList := by
  have hall : (List.range 16).all (fun k => hexChar k ∈ "0123456789abcdef".toList) = true := by
    decide +kernel
  exact of_decide_eq_true (List.all_eq_true.mp hall n (List.mem_range.mpr h))

theorem hexText_mem {n value : ℕ} {c : Char} (h : c ∈ hexText n value) :
    c ∈ "0123456789abcdef".toList := by
  induction n with
  | zero => cases h
  | succ n ih =>
    rw [hexText, List.mem_cons] at h
    rcases h with rfl | h
    · exact hexChar_mem (Nat.mod_lt _ (by omega))
    · exact ih h

theorem length_sha256 (data : Bytes) : (sha256 data).length = 64 := by
  unfold sha256
  simp only [String.length_ofList, List.length_flatMap, length_hexText, Registers.words,
    List.map_cons, List.map_nil, List.sum_cons, List.sum_nil]
  omega

theorem sha256_digits (data : Bytes) :
    (sha256 data).toList.all fun c => c ∈ "0123456789abcdef".toList := by
  unfold sha256
  rw [String.toList_ofList, List.all_eq_true]
  intro c hc
  obtain ⟨w, _, hw⟩ := List.mem_flatMap.mp hc
  exact decide_eq_true (hexText_mem hw)

theorem secureHash_hex : @HexDigest secureHash := by
  let _ := secureHash
  exact ⟨length_sha256, sha256_digits⟩

example : sha256 (utf8 "abc") =
    "ba7816bf8f01cfea414140de5dae2223b00361a396177a9cb410ff61f20015ad" := by decide +kernel

end Digest

section Codes

/-- `sha256(data).digest()`. -/
def digestBytes (data : Bytes) : Bytes :=
  let message := padded data
  let r := blocks (message.length / 64) message initial
  r.words.flatMap fun w => bigEndian 4 w.toNat

/-- The key of a code, as one block. -/
def keyBlock (key : Bytes) : Bytes :=
  let short := if 64 < key.length then digestBytes key else key
  short ++ List.replicate (64 - short.length) 0

/-- `hmac.new(key, message, sha256).hexdigest()`. -/
def hmacSha256 (key message : Bytes) : Digest :=
  sha256 ((keyBlock key).map (fun b => b ^^^ 0x5c) ++
    digestBytes ((keyBlock key).map (fun b => b ^^^ 0x36) ++ message))

example : hmacSha256 (utf8 "key") (utf8 "The quick brown fox jumps over the lazy dog") =
    "f7bc83f430538424b13298e6aa6fb143ef4d59a14946175997479dbc2d1a3cd8" := by decide +kernel

end Codes

end MemoryGuard.SecureHash
