import MemoryGuard.Hex
import MemoryGuard.Traces
import Mathlib.Logic.Function.Basic

/-!
The contract that keeps proof roots on chain. Each attester has a record of its
own for each root, with the version of the memory it was anchored at. A record
is written once; the same call again repeats the event, a call with another
version is refused.
-/
namespace MemoryGuard.AuditContract

open Traces

/-- So many bytes. -/
structure Word (n : ℕ) where
  bytes : List UInt8
  size : bytes.length = n
  deriving DecidableEq

@[ext] theorem Word.ext {n : ℕ} {v w : Word n} (h : v.bytes = w.bytes) : v = w := by
  cases v
  cases w
  cases h
  rfl

instance (n : ℕ) : Zero (Word n) := ⟨⟨List.replicate n 0, List.length_replicate⟩⟩

abbrev Address := Word 20

abbrev Bytes32 := Word 32

/-- `keccak256` of a text. -/
class Keccak where
  hash : String → Bytes32

section Abi

/-- An address as it stands in a topic. -/
def Address.padded (a : Address) : Bytes32 where
  bytes := List.replicate 12 0 ++ a.bytes
  size := by simp [a.size]

variable [Keccak]

def anchorSelector : List UInt8 := (Keccak.hash "anchor(bytes32,uint64)").bytes.take 4

def anchoredTopic : Bytes32 := Keccak.hash "MemoryProofAnchored(bytes32,address,uint64,uint64)"

/-- The arguments `(bytes32, uint64)` behind a selector. -/
def decode (data : List UInt8) : Option (Bytes32 × UInt64) :=
  if h : 68 ≤ data.length ∧ data.take 4 = anchorSelector then
    let version := Hex.bigEndian ((data.drop 36).take 32)
    if version < 2 ^ 64 then
      some (⟨(data.drop 4).take 32, by simp only [List.length_take, List.length_drop]; omega⟩,
        UInt64.ofNat version)
    else none
  else none

def encode (proofRoot : Bytes32) (memoryVersion : ℕ) : List UInt8 :=
  anchorSelector ++ proofRoot.bytes ++ Hex.fixed 32 memoryVersion

theorem length_anchorSelector : anchorSelector.length = 4 := by
  simp [anchorSelector, (Keccak.hash _).size]

/-- Arguments come out of a call as they went in. -/
theorem decode_encode (proofRoot : Bytes32) {memoryVersion : ℕ} (h : memoryVersion < 2 ^ 64) :
    decode (encode proofRoot memoryVersion) = some (proofRoot, UInt64.ofNat memoryVersion) := by
  have hselector := length_anchorSelector
  have hlength : (encode proofRoot memoryVersion).length = 68 := by
    simp [encode, hselector, proofRoot.size]
  have hfirst : (encode proofRoot memoryVersion).take 4 = anchorSelector := by
    rw [encode, List.append_assoc, List.take_left' hselector]
  have hroot : ((encode proofRoot memoryVersion).drop 4).take 32 = proofRoot.bytes := by
    rw [encode, List.append_assoc, List.drop_left' hselector, List.take_left' proofRoot.size]
  have hversion : ((encode proofRoot memoryVersion).drop 36).take 32 =
      Hex.fixed 32 memoryVersion := by
    rw [encode, List.drop_left' (by simp [hselector, proofRoot.size])]
    exact List.take_of_length_le (by simp)
  have hwide : memoryVersion < 256 ^ 32 := lt_trans h (by decide)
  have hsize : 68 ≤ (encode proofRoot memoryVersion).length ∧
      (encode proofRoot memoryVersion).take 4 = anchorSelector := ⟨hlength.ge, hfirst⟩
  unfold decode
  rw [dif_pos hsize]
  simp only [hversion, Hex.bigEndian_fixed hwide, if_pos h, Option.some.injEq, Prod.mk.injEq,
    and_true]
  exact Word.ext hroot

end Abi

section Contract

structure Anchor where
  memoryVersion : UInt64
  anchoredAt : UInt64
  deriving DecidableEq

/-- `mapping(address => mapping(bytes32 => Anchor))`. -/
abbrev Anchors := Address → Bytes32 → Anchor

inductive Revert
  | emptyProofRoot
  | emptyMemoryVersion
  | conflictingVersion
  /-- The call has another selector, arguments that cannot be decoded, or a value. -/
  | notCallable
  deriving DecidableEq

structure Log where
  address : Address
  topics : List Bytes32
  data : List UInt8

/-- A call of the contract in a block of this time. -/
structure Message where
  sender : Address
  value : ℕ
  data : List UInt8
  timestamp : ℕ

variable [Keccak] (deployed : Address)

/-- `emit MemoryProofAnchored`. -/
def anchored (sender : Address) (proofRoot : Bytes32) (record : Anchor) : Log where
  address := deployed
  topics := [anchoredTopic, proofRoot, Address.padded sender]
  data := Hex.fixed 32 record.memoryVersion.toNat ++ Hex.fixed 32 record.anchoredAt.toNat

/-- `anchor`. -/
def anchor (anchors : Anchors) (sender : Address) (timestamp : ℕ) (proofRoot : Bytes32)
    (memoryVersion : UInt64) : Except Revert (Anchors × Log) :=
  if proofRoot = 0 then .error .emptyProofRoot
  else if memoryVersion = 0 then .error .emptyMemoryVersion
  else
    let record := anchors sender proofRoot
    if record.memoryVersion ≠ 0 then
      if record.memoryVersion ≠ memoryVersion then .error .conflictingVersion
      else .ok (anchors, anchored deployed sender proofRoot
        { record with memoryVersion := memoryVersion })
    else
      let record : Anchor := ⟨memoryVersion, UInt64.ofNat timestamp⟩
      .ok (Function.update anchors sender (Function.update (anchors sender) proofRoot record),
        anchored deployed sender proofRoot record)

/-- A call message: the function takes no value. -/
def receive (anchors : Anchors) (msg : Message) : Except Revert (Anchors × Log) :=
  match decode msg.data with
  | some (proofRoot, memoryVersion) =>
    if msg.value = 0 then anchor deployed anchors msg.sender msg.timestamp proofRoot memoryVersion
    else .error .notCallable
  | none => .error .notCallable

/-- One call with its outcome. -/
structure Invocation where
  msg : Message
  pre : Anchors
  post : Anchors
  outcome : Except Revert Log

/-- A call that reverts leaves the records as they are. -/
structure Invokes (s : Invocation) : Prop where
  executed : match receive deployed s.pre s.msg with
    | .ok (anchors, log) => s.post = anchors ∧ s.outcome = .ok log
    | .error e => s.post = s.pre ∧ s.outcome = .error e

/-- The deployed contract. -/
def contract : System Anchors Invocation where
  init := fun _ _ => ⟨0, 0⟩
  pre := Invocation.pre
  post := Invocation.post
  allowed := fun _ s => Invokes deployed s

end Contract

section Records

variable [Keccak] {deployed : Address} {s : Invocation} {anchors anchors' : Anchors} {msg : Message}
  {log : Log} {a : Address} {r : Bytes32}

/-- What a call does that does not revert: it finds its version in the record of
the sender, or writes it into an empty one, and announces the record. -/
structure Anchored (deployed : Address) (anchors : Anchors) (msg : Message) (anchors' : Anchors)
    (log : Log) (proofRoot : Bytes32) (memoryVersion : UInt64) : Prop where
  decoded : decode msg.data = some (proofRoot, memoryVersion)
  version : (anchors' msg.sender proofRoot).memoryVersion = memoryVersion
  kept : ∀ a r, (anchors a r).memoryVersion ≠ 0 → anchors' a r = anchors a r
  others : ∀ a r, (a ≠ msg.sender ∨ r ≠ proofRoot) → anchors' a r = anchors a r
  log : log = anchored deployed msg.sender proofRoot (anchors' msg.sender proofRoot)

omit [Keccak] in
theorem update_apply (record : Anchor) (sender : Address) (proofRoot : Bytes32) (a : Address)
    (r : Bytes32) :
    Function.update anchors sender (Function.update (anchors sender) proofRoot record) a r =
      if a = sender ∧ r = proofRoot then record else anchors a r := by
  by_cases ha : a = sender
  · subst ha
    rw [Function.update_self, Function.update_apply]
    simp
  · rw [Function.update_of_ne ha, if_neg fun h => ha h.1]

theorem anchored_of_receive (h : receive deployed anchors msg = .ok (anchors', log)) :
    ∃ proofRoot memoryVersion,
      Anchored deployed anchors msg anchors' log proofRoot memoryVersion := by
  unfold receive at h
  split at h
  · rename_i proofRoot memoryVersion hdecoded
    split at h
    · unfold anchor at h
      split at h
      · cases h
      split at h
      · cases h
      dsimp only at h
      split at h
      · split at h
        · cases h
        · rename_i hsame
          rw [ne_eq, not_not] at hsame
          cases h
          exact ⟨proofRoot, memoryVersion, hdecoded, hsame, fun _ _ _ => rfl, fun _ _ _ => rfl,
            by rw [← hsame]⟩
      · rename_i hempty
        rw [ne_eq, not_not] at hempty
        cases h
        refine ⟨proofRoot, memoryVersion, hdecoded, ?_, ?_, ?_, ?_⟩
        · rw [update_apply, if_pos ⟨rfl, rfl⟩]
        · intro a r hset
          rw [update_apply, if_neg]
          rintro ⟨rfl, rfl⟩
          exact hset hempty
        · intro a r hother
          rw [update_apply, if_neg]
          rintro ⟨rfl, rfl⟩
          exact hother.elim (fun h => h rfl) fun h => h rfl
        · rw [update_apply, if_pos ⟨rfl, rfl⟩]
    · cases h
  · cases h

theorem invokes_cases (h : Invokes deployed s) :
    (∃ log proofRoot memoryVersion, s.outcome = .ok log ∧
      Anchored deployed s.pre s.msg s.post log proofRoot memoryVersion) ∨
    (∃ e, s.outcome = .error e) ∧ s.post = s.pre := by
  have hexecuted := h.executed
  split at hexecuted
  · rename_i anchors log hreceive
    obtain ⟨rfl, houtcome⟩ := hexecuted
    obtain ⟨proofRoot, memoryVersion, hdone⟩ := anchored_of_receive hreceive
    exact Or.inl ⟨log, proofRoot, memoryVersion, houtcome, hdone⟩
  · rename_i e _
    exact Or.inr ⟨⟨e, hexecuted.2⟩, hexecuted.1⟩

/-- A record that is written stays as it is. -/
theorem invokes_keeps (h : Invokes deployed s) (hset : (s.pre a r).memoryVersion ≠ 0) :
    s.post a r = s.pre a r := by
  rcases invokes_cases h with ⟨_, _, _, _, hdone⟩ | ⟨_, hpost⟩
  · exact hdone.kept a r hset
  · rw [hpost]

/-- A call reaches no record of another attester. -/
theorem invokes_foreign (h : Invokes deployed s) (hsender : s.msg.sender ≠ a) :
    s.post a = s.pre a := by
  rcases invokes_cases h with ⟨_, _, _, _, hdone⟩ | ⟨_, hpost⟩
  · exact funext fun r => hdone.others a r (Or.inl (Ne.symm hsender))
  · rw [hpost]

/-- A call of the attester that anchored the root at this version. -/
def AnchoredBy (a : Address) (r : Bytes32) (memoryVersion : UInt64) (s : Invocation) : Prop :=
  s.msg.sender = a ∧ decode s.msg.data = some (r, memoryVersion) ∧ ∃ log, s.outcome = .ok log

theorem invokes_origin (h : Invokes deployed s) :
    s.post a r = s.pre a r ∨ AnchoredBy a r (s.post a r).memoryVersion s := by
  rcases invokes_cases h with ⟨log, proofRoot, memoryVersion, houtcome, hdone⟩ | ⟨_, hpost⟩
  · by_cases hown : a = s.msg.sender ∧ r = proofRoot
    · obtain ⟨rfl, rfl⟩ := hown
      exact Or.inr ⟨rfl, hdone.version ▸ hdone.decoded, log, houtcome⟩
    · exact Or.inl (hdone.others a r (not_and_or.mp hown))
  · exact Or.inl (by rw [hpost])

variable {steps before after : List Invocation} {st mid : Anchors}

/-- Every record goes back to a call of its attester. -/
theorem records_of_run (h : Run (contract deployed) steps st) :
    ∀ a r, (st a r).memoryVersion ≠ 0 → ∃ s ∈ steps, AnchoredBy a r (st a r).memoryVersion s := by
  induction h with
  | start =>
    intro a r hset
    exact absurd rfl hset
  | @next steps s before now ih =>
    intro a r hset
    change (s.post a r).memoryVersion ≠ 0 at hset
    change ∃ t ∈ steps ++ [s], AnchoredBy a r (s.post a r).memoryVersion t
    rcases invokes_origin (a := a) (r := r) now with hsame | hnow
    · rw [hsame] at hset ⊢
      obtain ⟨t, ht, hanchored⟩ := ih a r hset
      exact ⟨t, List.mem_append_left _ ht, hanchored⟩
    · exact ⟨s, by simp, hnow⟩

theorem record_stays (hmid : Run (contract deployed) before mid)
    (h : Run (contract deployed) (before ++ after) st) (hset : (mid a r).memoryVersion ≠ 0) :
    st a r = mid a r := by
  refine Run.since (fun st => st a r = mid a r) hmid rfl ?_ h
  intro done s rest _ _ hnow hpre
  have hpre : s.pre a r = mid a r := hpre
  have hkept : s.post a r = s.pre a r := invokes_keeps hnow (hpre ▸ hset)
  exact hkept.trans hpre

variable (deployed) in
/-- A call for a root and a version, both not zero, reverts only on a record with
another version, and else announces this version. -/
theorem receive_encode (anchors : Anchors) (sender : Address) (timestamp : ℕ) {proofRoot : Bytes32}
    {memoryVersion : ℕ} (hroot : proofRoot ≠ 0) (hversion : 1 ≤ memoryVersion)
    (hbound : memoryVersion < 2 ^ 64) :
    ((anchors sender proofRoot).memoryVersion ≠ 0 ∧
      (anchors sender proofRoot).memoryVersion ≠ UInt64.ofNat memoryVersion ∧
      receive deployed anchors ⟨sender, 0, encode proofRoot memoryVersion, timestamp⟩ =
        .error .conflictingVersion) ∨
    ∃ anchors' record,
      receive deployed anchors ⟨sender, 0, encode proofRoot memoryVersion, timestamp⟩ =
        .ok (anchors', anchored deployed sender proofRoot record) ∧
      record.memoryVersion = UInt64.ofNat memoryVersion := by
  have hnonzero : UInt64.ofNat memoryVersion ≠ 0 := by
    intro hzero
    have hnat := congrArg UInt64.toNat hzero
    rw [UInt64.toNat_ofNat_of_lt' hbound] at hnat
    simp at hnat
    omega
  unfold receive
  simp only [decode_encode proofRoot hbound, if_true]
  unfold anchor
  simp only [hroot, hnonzero, if_false]
  by_cases hset : (anchors sender proofRoot).memoryVersion = 0
  · right
    simp only [hset, ne_eq, not_true_eq_false, if_false]
    exact ⟨_, _, rfl, rfl⟩
  · by_cases hsame : (anchors sender proofRoot).memoryVersion = UInt64.ofNat memoryVersion
    · right
      simp only [hsame, hnonzero, ne_eq, not_true_eq_false, not_false_eq_true, if_false, if_true]
      exact ⟨_, _, rfl, rfl⟩
    · left
      simp only [hset, hsame, ne_eq, not_false_eq_true, if_true, and_self]

end Records

end MemoryGuard.AuditContract
