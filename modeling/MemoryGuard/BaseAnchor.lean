import MemoryGuard.AuditContract
import MemoryGuard.Artifacts
import MemoryGuard.Core
import MemoryGuard.JsonReading

/-!
The adapter of the audit contract. It makes the call data that anchors a proof
root, and checks what a node answers about a transaction against it. Texts are
compared in lower case; every exception but the adapter's own errors ends a
check as unavailable.
-/
namespace MemoryGuard.BaseAnchor

open Guarded JsonText CanonicalText JsonReading Models Artifacts Core Traces AuditContract

section Adapter

/-- Bytes as JSON-RPC writes them. -/
def hexText (b : List UInt8) : String := "0x" ++ String.ofList (Hex.ofBytes b)

/-- `ADDRESS.fullmatch`, and the address that the text stands for. -/
def parseAddress (text : String) : Option Address :=
  match text.toList with
  | '0' :: 'x' :: digits =>
    (Hex.toBytes digits).bind fun b => if h : b.length = 20 then some ⟨b, h⟩ else none
  | _ => none

/-- The addresses are kept as bytes; their texts are in lower case. -/
structure BaseAuditAnchor where
  chain_id : Chain
  contract : Address
  expected_attester : Address
  confirmations : ℕ
  contract_ne : contract ≠ 0
  attester_ne : expected_attester ≠ 0
  bounded : 1 ≤ confirmations ∧ confirmations ≤ 128

/-- `BaseAuditAnchor(...)`. -/
def configure (chain_id : Chain) (contract expected_attester rpc_url : String)
    (confirmations : ℕ) : Except String BaseAuditAnchor :=
  match parseAddress contract, parseAddress expected_attester with
  | some contract, some attester =>
    if hne : contract ≠ 0 ∧ attester ≠ 0 then
      if hbounded : (1 ≤ confirmations ∧ confirmations ≤ 128) ∧
          rpc_url.startsWith "https://" = true then
        .ok ⟨chain_id, contract, attester, confirmations, hne.1, hne.2, hbounded.1⟩
      else .error "HTTPS RPC and bounded positive confirmations required"
    else .error "non-zero contract and attester addresses required"
  | _, _ => .error "non-zero contract and attester addresses required"

/-- `ROOT.fullmatch`. -/
def IsRoot (text : String) : Prop :=
  text.toList.length = 64 ∧ text.toList.all fun c => c ∈ "0123456789abcdef".toList

instance (text : String) : Decidable (IsRoot text) := by
  unfold IsRoot
  infer_instance

variable [Keccak] (adapter : BaseAuditAnchor)

/-- `plan`. -/
def BaseAuditAnchor.plan (proof_root : String) (memory_version : ℕ) (chain_id : Chain) :
    Except CaseworkError AnchorPlan := do
  ensure (IsRoot proof_root ∧ proof_root ≠ zeroHash ∧ (1 ≤ memory_version ∧
    memory_version < 2 ^ 64) ∧ chain_id = adapter.chain_id) ⟨"ANCHOR_PROOF_OR_CHAIN_INVALID", 422⟩
  return {
    chain_id := adapter.chain_id
    contract := hexText adapter.contract.bytes
    data := hexText anchorSelector ++ proof_root ++
      String.ofList (Hex.fixedDigits 64 memory_version)
    proof_root := proof_root
    memory_version := memory_version
    expected_attester := hexText adapter.expected_attester.bytes }

end Adapter

section Verifier

def unavailable : CaseworkError := ⟨"ANCHOR_VERIFICATION_UNAVAILABLE", 503⟩

/-- `v.get`, which only dictionaries have. -/
def dictionary : Json → Except CaseworkError Json
  | .obj fields => .ok (.obj fields)
  | _ => .error unavailable

def IsDictionary : Json → Prop
  | .obj _ => True
  | _ => False

instance : ∀ v : Json, Decidable (IsDictionary v)
  | .obj _ => isTrue trivial
  | .null | .bool _ | .num _ | .str _ | .arr _ => isFalse not_false

/-- What a loop over a value goes through. -/
def iterated : Json → Except CaseworkError (List Json)
  | .arr items => .ok items
  | .str s => .ok (s.toList.map fun c => .str (String.singleton c))
  | .obj fields => .ok (fields.map fun f => .str f.1)
  | _ => .error unavailable

/-- `int(text, 16)`. What texts in other forms stand for is a parameter: with a
sign, blanks or underscores, or with other digits. -/
def numeral16 (otherNumeral : String → Option ℤ) (text : String) : Option ℤ :=
  let digits := match text.toList with
    | '0' :: 'x' :: rest => rest
    | '0' :: 'X' :: rest => rest
    | all => all
  match digits, Hex.value digits with
  | _ :: _, some n => some n
  | _, _ => otherNumeral text

def int16 (otherNumeral : String → Option ℤ) : Json → Except CaseworkError ℤ
  | .str text => fetch (numeral16 otherNumeral text) unavailable
  | _ => .error unavailable

/-- `hex(n)`, for a positive number. -/
def hexNumber (n : ℤ) : String := "0x" ++ String.ofList (Nat.toDigits 16 n.toNat)

variable [Keccak] [Interpreter] [Unicode] (otherNumeral : String → Option ℤ)
  (adapter : BaseAuditAnchor)

omit [Keccak] in
/-- `str(v.get(k, "")).lower()`. -/
def lowered (v : Option Json) : String := Unicode.lower (strOf (v.getD (.str "")))

/-- The version in the first word of the data of an event. -/
def announcedVersion : Option Json → Option ℕ
  | some (.str text) =>
    match text.toList with
    | '0' :: 'x' :: digits =>
      if digits.length = 128 ∧ digits.all (fun c => (Hex.digitValue c).isSome) then
        Hex.value (digits.take 64)
      else none
    | _ => none
  | _ => none

/-- The attester as it stands in the topics of an event. -/
def attesterTopic : String :=
  "0x" ++ String.ofList ((Hex.ofBytes adapter.expected_attester.bytes).leftpad 64 '0')

/-- Whether a log is the event that a plan asks for. -/
def logMatches (plan : AnchorPlan) (log : Json) : Except CaseworkError Bool := do
  let log ← dictionary log
  if lowered (field "address" log) = hexText adapter.contract.bytes ∧
      ¬ truthy ((field "removed" log).getD (.bool false)) then
    let topics ← iterated ((field "topics" log).getD (.arr []))
    return topics.map (fun topic => Unicode.lower (strOf topic)) =
        [Unicode.lower (hexText anchoredTopic.bytes), "0x" ++ plan.proof_root,
          attesterTopic adapter] ∧
      announcedVersion (field "data" log) = some plan.memory_version
  else return false

omit [Keccak] in
/-- The receipt is one of this transaction, from the attester to the contract. -/
def checkReceipt (tx_hash : String) (receipt : Json) : Except CaseworkError Unit :=
  ensure (lowered (field "transactionHash" receipt) = Unicode.lower tx_hash ∧
    field "status" receipt = some (.str "0x1") ∧
    lowered (field "to" receipt) = hexText adapter.contract.bytes ∧
    lowered (field "from" receipt) = hexText adapter.expected_attester.bytes)
    ⟨"ANCHOR_RECEIPT_BINDING_FAILED", 422⟩

omit [Keccak] in
/-- The transaction is the call of the plan, without value, in the block of the receipt. -/
def checkTransaction (plan : AnchorPlan) (tx_hash : String) (receipt transaction : Json) :
    Except CaseworkError Unit := do
  let mismatch : CaseworkError := ⟨"ANCHOR_CALLDATA_OR_VALUE_MISMATCH", 422⟩
  ensure (IsDictionary transaction ∧
    lowered (field "hash" transaction) = Unicode.lower tx_hash ∧
    equal ((field "blockNumber" transaction).getD .null)
      ((field "blockNumber" receipt).getD .null) = true ∧
    lowered (field "blockHash" transaction) = lowered (field "blockHash" receipt) ∧
    lowered (field "to" transaction) = hexText adapter.contract.bytes ∧
    lowered (field "from" transaction) = hexText adapter.expected_attester.bytes ∧
    lowered (field "input" transaction) = Unicode.lower plan.data) mismatch
  let value ← int16 otherNumeral ((field "value" transaction).getD (.str "0x1"))
  ensure (value = 0) mismatch

/-- One of the logs of the receipt is the event of the plan. -/
def checkLogs (plan : AnchorPlan) (receipt : Json) : Except CaseworkError Unit := do
  let logs ← iterated ((field "logs" receipt).getD (.arr []))
  let matched ← logs.foldlM (fun matched log => do
    let hit ← logMatches adapter plan log
    return matched || hit) false
  ensure (matched = true) ⟨"ANCHOR_EVENT_MISMATCH", 422⟩

omit [Keccak] in
/-- The block of a receipt: its number and its hash. -/
def receiptBlock (receipt : Json) : Except CaseworkError (ℤ × String) := do
  let invalid : CaseworkError := ⟨"ANCHOR_BLOCK_INVALID", 422⟩
  let number ← fetch (field "blockNumber" receipt) unavailable
  let block_number ← int16 otherNumeral number
  let block_hash ← fetch (field "blockHash" receipt) unavailable
  ensure (0 < block_number) invalid
  match block_hash with
  | .str block_hash =>
    ensure (IsHash block_hash) invalid
    return (block_number, block_hash)
  | _ => throw unavailable

omit [Keccak] in
/-- The block is still the one of its number. -/
def checkCanonical (block_number : ℤ) (block_hash : String) (canonical : Json) :
    Except CaseworkError Unit := do
  let displaced : CaseworkError := ⟨"ANCHOR_BLOCK_NOT_CANONICAL", 409⟩
  ensure (truthy canonical = true) displaced
  let canonical ← dictionary canonical
  ensure (lowered (field "hash" canonical) = Unicode.lower block_hash) displaced
  let number ← int16 otherNumeral ((field "number" canonical).getD (.str "-1"))
  ensure (number = block_number) displaced

/-- `verify`. Here `rpc` is what a node answers to a request, or the failure of
the connection. -/
def BaseAuditAnchor.verify (plan : AnchorPlan) (tx_hash : String)
    (rpc : String → List Json → Except CaseworkError Json) (verified_at : String) :
    Except CaseworkError Verification := do
  ensure (IsHash tx_hash) ⟨"INVALID_TRANSACTION_HASH", 422⟩
  let expected_plan ← adapter.plan plan.proof_root plan.memory_version plan.chain_id
  ensure (expected_plan = plan) ⟨"ANCHOR_PLAN_TAMPERED", 503⟩
  let chain ← rpc "eth_chainId" []
  let chain_id ← int16 otherNumeral chain
  ensure (chain_id = adapter.chain_id.id) ⟨"ANCHOR_RPC_CHAIN_MISMATCH", 422⟩
  let receipt ← rpc "eth_getTransactionReceipt" [.str tx_hash]
  if receipt = .null then return ⟨"PENDING", some tx_hash, [("audit_only", .bool true)]⟩
  else
    let receipt ← dictionary receipt
    checkReceipt adapter tx_hash receipt
    let transaction ← rpc "eth_getTransactionByHash" [.str tx_hash]
    checkTransaction otherNumeral adapter plan tx_hash receipt transaction
    checkLogs adapter plan receipt
    let (block_number, block_hash) ← receiptBlock otherNumeral receipt
    let canonical ← rpc "eth_getBlockByNumber" [.str (hexNumber block_number), .bool false]
    checkCanonical otherNumeral block_number block_hash canonical
    let head ← rpc "eth_blockNumber" []
    let head_number ← int16 otherNumeral head
    let seen := head_number - block_number + 1
    if seen < adapter.confirmations then
      return ⟨"PENDING", some tx_hash, [("confirmations", int (max 0 seen)),
        ("audit_only", .bool true)]⟩
    else
      return ⟨"VERIFIED", some tx_hash, [("chain_id", nat adapter.chain_id.id),
        ("contract", .str (hexText adapter.contract.bytes)),
        ("attester", .str (hexText adapter.expected_attester.bytes)),
        ("block_number", int block_number), ("block_hash", .str block_hash),
        ("confirmations_at_verification", int seen),
        ("minimum_confirmations", nat adapter.confirmations),
        ("proof_root", .str plan.proof_root), ("memory_version", nat plan.memory_version),
        ("verified_at", .str verified_at), ("audit_only", .bool true),
        ("partner_bonus_awarded", .bool false), ("economic_action_authorized", .bool false)]⟩

end Verifier

section Texts

@[simp] theorem toList_hexText (b : List UInt8) :
    (hexText b).toList = '0' :: 'x' :: Hex.ofBytes b := by
  simp [hexText]

theorem hexText_injective : Function.Injective hexText := by
  intro b b' h
  have hlist := congrArg String.toList h
  simp only [toList_hexText, List.cons.injEq, true_and] at hlist
  exact Hex.ofBytes_injective hlist

/-- The bytes that a text stands for, in whatever letter case. -/
def bytesOf (text : String) : Option (List UInt8) :=
  match text.toList with
  | '0' :: 'x' :: digits => Hex.toBytes digits
  | _ => none

@[simp] theorem bytesOf_hexText (b : List UInt8) : bytesOf (hexText b) = some b := by
  unfold bytesOf
  rw [toList_hexText]
  exact Hex.toBytes_ofBytes b

theorem bytesOf_cases {text : String} {b : List UInt8} (h : bytesOf text = some b) :
    ∃ digits, text.toList = '0' :: 'x' :: digits ∧ Hex.toBytes digits = some b := by
  unfold bytesOf at h
  split at h
  · rename_i digits hlist
    exact ⟨digits, hlist, h⟩
  · cases h

variable [Unicode] [PlainAscii]

/-- Two texts of the same bytes differ in letter case only. -/
theorem lower_of_bytesOf {text : String} {b : List UInt8} (h : bytesOf text = some b) :
    Unicode.lower text = hexText b := by
  obtain ⟨digits, hlist, hdigits⟩ := bytesOf_cases h
  have hlower := Hex.ofBytes_of_toBytes hdigits
  have hascii : Ascii text := by
    intro c hc
    rw [hlist] at hc
    simp only [List.mem_cons] at hc
    rcases hc with rfl | rfl | hc
    · decide
    · decide
    · have hmem : c.toLower ∈ Hex.ofBytes b := hlower ▸ List.mem_map_of_mem hc
      obtain ⟨n, hn, hdigit⟩ := Hex.digits_ofBytes hmem
      have hsome : Hex.digitValue c = some n := by
        rw [← Hex.digitValue_toLower, hdigit, Hex.digitValue_digit hn]
      exact lt_trans (Hex.toNat_lt_of_digitValue hsome).1 (by decide)
  rw [PlainAscii.lower_ascii _ hascii]
  apply String.toList_inj.mp
  rw [asciiLower, String.toList_ofList, hlist, toList_hexText, hlower]
  rfl

theorem lower_hexText (b : List UInt8) : Unicode.lower (hexText b) = hexText b :=
  lower_of_bytesOf (bytesOf_hexText b)

omit [Unicode] [PlainAscii] in
theorem parseAddress_bytes {text : String} {a : Address} (h : parseAddress text = some a) :
    bytesOf text = some a.bytes := by
  unfold parseAddress at h
  unfold bytesOf
  split at h
  · obtain ⟨b, hb, h⟩ := Option.bind_eq_some_iff.mp h
    split at h
    · cases h
      exact hb
    · cases h
  · cases h

/-- The texts of the adapter are the configured ones in lower case. -/
theorem configure_texts {chain_id : Chain} {contract expected_attester rpc_url : String}
    {confirmations : ℕ} {adapter : BaseAuditAnchor}
    (h : configure chain_id contract expected_attester rpc_url confirmations = .ok adapter) :
    hexText adapter.contract.bytes = Unicode.lower contract ∧
      hexText adapter.expected_attester.bytes = Unicode.lower expected_attester := by
  unfold configure at h
  split at h
  · rename_i c a hcontract hattester
    split at h
    · split at h
      · cases h
        exact ⟨(lower_of_bytesOf (parseAddress_bytes hcontract)).symm,
          (lower_of_bytesOf (parseAddress_bytes hattester)).symm⟩
      · cases h
    · cases h
  · cases h

end Texts

section Plans

variable [Keccak] {adapter : BaseAuditAnchor} {proof_root : String} {memory_version : ℕ}
  {chain_id : Chain} {plan : AnchorPlan}

omit [Keccak] in
/-- The bytes of a root. -/
theorem root_bytes (h : IsRoot proof_root) (hne : proof_root ≠ zeroHash) :
    ∃ r : Bytes32, proof_root.toList = Hex.ofBytes r.bytes ∧ r ≠ 0 := by
  obtain ⟨hlength, hall⟩ := h
  have hdigits : ∀ c ∈ proof_root.toList, (Hex.digitValue c).isSome ∧ c.toLower = c := by
    intro c hc
    have hmem : c ∈ "0123456789abcdef".toList :=
      of_decide_eq_true (List.all_eq_true.mp hall c hc)
    have hlist : "0123456789abcdef".toList.all
        (fun c => (Hex.digitValue c).isSome ∧ c.toLower = c) = true := by decide
    exact of_decide_eq_true (List.all_eq_true.mp hlist c hmem)
  obtain ⟨b, hb⟩ := Hex.exists_toBytes (show proof_root.toList.length = 2 * 32 from hlength)
    fun c hc => (hdigits c hc).1
  have hsize : b.length = 32 := by
    have htwice := Hex.length_of_toBytes hb
    omega
  have hlower : proof_root.toList.map Char.toLower = proof_root.toList := by
    conv_rhs => rw [← List.map_id proof_root.toList]
    exact List.map_congr_left fun c hc => (hdigits c hc).2
  have hbytes : proof_root.toList = Hex.ofBytes b := by
    rw [Hex.ofBytes_of_toBytes hb, hlower]
  refine ⟨⟨b, hsize⟩, hbytes, ?_⟩
  intro hzero
  have hb : b = List.replicate 32 0 := congrArg Word.bytes hzero
  apply hne
  apply String.toList_inj.mp
  rw [hbytes, hb]
  decide

/-- What a plan is: the call of the contract with this root and version. -/
structure Plans (adapter : BaseAuditAnchor) (proof_root : String) (memory_version : ℕ)
    (plan : AnchorPlan) (r : Bytes32) : Prop where
  root : proof_root.toList = Hex.ofBytes r.bytes
  nonzero : r ≠ 0
  positive : 1 ≤ memory_version
  bounded : memory_version < 2 ^ 64
  data : plan.data = hexText (encode r memory_version)
  proof_root : plan.proof_root = proof_root
  memory_version : plan.memory_version = memory_version

theorem plan_spec (h : adapter.plan proof_root memory_version chain_id = .ok plan) :
    ∃ r, Plans adapter proof_root memory_version plan r := by
  simp only [BaseAuditAnchor.plan, bind_eq_ok, ensure_eq_ok, pure_eq_ok] at h
  obtain ⟨_, ⟨hroot, hne, ⟨hpositive, hbounded⟩, _⟩, rfl⟩ := h
  obtain ⟨r, hr, hnonzero⟩ := root_bytes hroot hne
  refine ⟨r, hr, hnonzero, hpositive, hbounded, ?_, rfl, rfl⟩
  apply String.toList_inj.mp
  have hdigits : Hex.fixedDigits 64 memory_version = Hex.ofBytes (Hex.fixed 32 memory_version) :=
    Hex.fixedDigits_eq 32 memory_version
  simp [hr, hdigits, encode, Hex.ofBytes]

end Plans

section Agreement

variable [Keccak] [Interpreter] [Unicode] [PlainAscii] {adapter : BaseAuditAnchor}
  {proof_root : String} {memory_version : ℕ} {plan : AnchorPlan} {r : Bytes32}

/-- How a node shows a log that is not removed. -/
structure Shows (log : Log) (entry : Json) : Prop where
  address : ∃ text, field "address" entry = some (.str text) ∧ bytesOf text = some log.address.bytes
  topics : ∃ texts : List String, field "topics" entry = some (.arr (texts.map .str)) ∧
    List.Forall₂ (fun text (topic : Bytes32) => bytesOf text = some topic.bytes) texts log.topics
  data : ∃ text, field "data" entry = some (.str text) ∧ bytesOf text = some log.data
  present : truthy ((field "removed" entry).getD (.bool false)) = false

omit [Keccak] [PlainAscii] in
theorem lowered_str (text : String) : lowered (some (.str text)) = Unicode.lower text := rfl

omit [Keccak] [Interpreter] [Unicode] [PlainAscii] in
theorem attesterTopic_eq :
    attesterTopic adapter = hexText (Address.padded adapter.expected_attester).bytes := by
  have hlength : (Hex.ofBytes adapter.expected_attester.bytes).length = 40 := by
    rw [Hex.length_ofBytes, adapter.expected_attester.size]
  have hzeros : Hex.ofBytes (List.replicate 12 0) = List.replicate 24 '0' := by decide
  have hpadded : Hex.ofBytes (Address.padded adapter.expected_attester).bytes =
      List.replicate 24 '0' ++ Hex.ofBytes adapter.expected_attester.bytes := by
    rw [← hzeros]
    simp [Address.padded, Hex.ofBytes]
  rw [attesterTopic, List.leftpad, hlength, hexText, hpadded]

omit [Keccak] [Interpreter] [Unicode] [PlainAscii] in
/-- The first word of the data of an event is its version. -/
theorem announcedVersion_anchored {text : String} {record : Anchor}
    (h : bytesOf text = some
      (Hex.fixed 32 record.memoryVersion.toNat ++ Hex.fixed 32 record.anchoredAt.toNat)) :
    announcedVersion (some (.str text)) = some record.memoryVersion.toNat := by
  obtain ⟨digits, hlist, hdigits⟩ := bytesOf_cases h
  have hlength : digits.length = 128 := by
    have htwice := Hex.length_of_toBytes hdigits
    simpa using htwice
  have hvalues : digits.all (fun c => (Hex.digitValue c).isSome) = true := by
    rw [List.all_eq_true]
    intro c hc
    have hmem := List.mem_map_of_mem (f := Char.toLower) hc
    rw [← Hex.ofBytes_of_toBytes hdigits] at hmem
    obtain ⟨n, hn, hdigit⟩ := Hex.digits_ofBytes hmem
    rw [← Hex.digitValue_toLower, hdigit, Hex.digitValue_digit hn]
    rfl
  have hfirst : Hex.toBytes (digits.take 64) =
      some (Hex.fixed 32 record.memoryVersion.toNat) := by
    have htake := Hex.toBytes_take 32 hdigits
    rwa [List.take_left' (Hex.length_fixed ..)] at htake
  have hwide : record.memoryVersion.toNat < 256 ^ 32 :=
    lt_trans record.memoryVersion.toNat_lt (by decide)
  unfold announcedVersion
  simp only [hlist]
  rw [if_pos ⟨hlength, hvalues⟩, Hex.value_of_toBytes hfirst, Hex.bigEndian_fixed hwide]

omit [Keccak] [Interpreter] in
theorem lower_topics {texts : List String} {topics : List Bytes32}
    (h : List.Forall₂ (fun text (topic : Bytes32) => bytesOf text = some topic.bytes) texts
      topics) : texts.map Unicode.lower = topics.map fun topic => hexText topic.bytes := by
  induction h with
  | nil => rfl
  | cons hfirst _ ih => rw [List.map_cons, List.map_cons, lower_of_bytesOf hfirst, ih]

/-- The event of the planned call passes the check of the log. -/
theorem logMatches_anchored {record : Anchor} {entry : Json}
    (h : Plans adapter proof_root memory_version plan r)
    (hversion : record.memoryVersion = UInt64.ofNat memory_version)
    (hshows : Shows (anchored adapter.contract adapter.expected_attester r record) entry) :
    logMatches adapter plan entry = .ok true := by
  obtain ⟨⟨address, haddress, haddress_bytes⟩, ⟨texts, htopics, htopics_bytes⟩,
    ⟨data, hdata, hdata_bytes⟩, hpresent⟩ := hshows
  have hdictionary : dictionary entry = .ok entry := by
    cases entry with
    | obj fields => rfl
    | _ => simp [field] at haddress
  have hlowers : texts.map Unicode.lower = [hexText anchoredTopic.bytes, hexText r.bytes,
      hexText (Address.padded adapter.expected_attester).bytes] := lower_topics htopics_bytes
  have hannounced : announcedVersion (field "data" entry) = some plan.memory_version := by
    rw [hdata, announcedVersion_anchored hdata_bytes, hversion, h.memory_version,
      UInt64.toNat_ofNat_of_lt' h.bounded]
  have hroot : hexText r.bytes = "0x" ++ plan.proof_root := by
    apply String.toList_inj.mp
    simp [h.proof_root, h.root]
  have hmapped : (texts.map Json.str).map (fun topic => Unicode.lower (strOf topic)) =
      texts.map Unicode.lower := by
    rw [List.map_map]
    rfl
  unfold logMatches
  rw [hdictionary, ok_bind, haddress, lowered_str, lower_of_bytesOf haddress_bytes, hpresent]
  simp only [anchored, Bool.false_eq_true, not_false_eq_true, and_self, if_true, htopics,
    Option.getD_some, iterated, ok_bind, hmapped, hlowers, hannounced, hroot, lower_hexText,
    attesterTopic_eq]
  rfl

omit [Interpreter] [Unicode] [PlainAscii] in
/-- The call data of a plan determines its root and its version. -/
theorem plans_unique {proof_root' : String} {memory_version' : ℕ} {plan' : AnchorPlan}
    {r' : Bytes32} (h : Plans adapter proof_root memory_version plan r)
    (h' : Plans adapter proof_root' memory_version' plan' r') (hdata : plan.data = plan'.data) :
    proof_root = proof_root' ∧ memory_version = memory_version' := by
  rw [h.data, h'.data] at hdata
  have hdecoded := congrArg decode (hexText_injective hdata)
  rw [decode_encode r h.bounded, decode_encode r' h'.bounded] at hdecoded
  simp only [Option.some.injEq, Prod.mk.injEq] at hdecoded
  obtain ⟨rfl, hversion⟩ := hdecoded
  have hnat := congrArg UInt64.toNat hversion
  rw [UInt64.toNat_ofNat_of_lt' h.bounded, UInt64.toNat_ofNat_of_lt' h'.bounded] at hnat
  exact ⟨String.toList_inj.mp (h.root.trans h'.root.symm), hnat⟩

/-- A verified transaction is the call of the plan. -/
theorem verify_input {otherNumeral : String → Option ℤ} {tx_hash verified_at : String}
    {rpc : String → List Json → Except CaseworkError Json} {v : Verification}
    (h : adapter.verify otherNumeral plan tx_hash rpc verified_at = .ok v)
    (hverified : v.state = "VERIFIED") :
    ∃ transaction r, rpc "eth_getTransactionByHash" [.str tx_hash] = .ok transaction ∧
      Plans adapter plan.proof_root plan.memory_version plan r ∧
      lowered (field "input" transaction) = plan.data := by
  simp only [BaseAuditAnchor.verify, bind_eq_ok, ensure_eq_ok] at h
  obtain ⟨_, _, expected, hplan, _, rfl, _, _, _, _, _, _, receipt, _, h⟩ := h
  obtain ⟨r, hr⟩ := plan_spec hplan
  split at h
  · cases h
    exact absurd hverified (by simp)
  · simp only [bind_eq_ok] at h
    obtain ⟨_, _, _, _, transaction, htransaction, _, hchecked, _⟩ := h
    simp only [checkTransaction, bind_eq_ok, ensure_eq_ok] at hchecked
    obtain ⟨_, ⟨_, _, _, _, _, _, hinput⟩, _⟩ := hchecked
    refine ⟨transaction, r, htransaction, hr, hinput.trans ?_⟩
    rw [hr.data, lower_hexText]

variable (adapter) in
/-- Plans, contract and verifier agree: the planned call decodes to what was
planned; it reverts only on another version of the root by the same attester;
the event of any other outcome passes the check of the log. Records stay as they
are and belong to their attester, and no transaction is verified for two plans. -/
theorem plan_contract_verifier_agree (otherNumeral : String → Option ℤ) :
    (∀ proof_root memory_version chain_id plan,
      adapter.plan proof_root memory_version chain_id = .ok plan →
      ∃ r calldata, hexText r.bytes = "0x" ++ proof_root ∧ bytesOf plan.data = some calldata ∧
        decode calldata = some (r, UInt64.ofNat memory_version) ∧
        (UInt64.ofNat memory_version).toNat = memory_version ∧
        ∀ steps st, Run (contract adapter.contract) steps st → ∀ timestamp,
          let outcome := receive adapter.contract st
            ⟨adapter.expected_attester, 0, calldata, timestamp⟩
          (∀ e, outcome = .error e → ∃ s ∈ steps, ∃ version ≠ UInt64.ofNat memory_version,
            AnchoredBy adapter.expected_attester r version s) ∧
          ∀ st' log, outcome = .ok (st', log) → ∀ entry, Shows log entry →
            logMatches adapter plan entry = .ok true) ∧
    (∀ before after mid st, Run (contract adapter.contract) before mid →
      Run (contract adapter.contract) (before ++ after) st → ∀ a r,
        (mid a r).memoryVersion ≠ 0 → st a r = mid a r) ∧
    (∀ s, Invokes adapter.contract s → ∀ a, s.msg.sender ≠ a → s.post a = s.pre a) ∧
    ∀ plan plan' tx_hash rpc verified_at verified_at' v v',
      adapter.verify otherNumeral plan tx_hash rpc verified_at = .ok v → v.state = "VERIFIED" →
      adapter.verify otherNumeral plan' tx_hash rpc verified_at' = .ok v' →
      v'.state = "VERIFIED" →
      plan.proof_root = plan'.proof_root ∧ plan.memory_version = plan'.memory_version := by
  refine ⟨?_, fun _ _ _ _ hmid hrun a r hset => record_stays hmid hrun hset,
    fun s hs a hsender => invokes_foreign hs hsender, ?_⟩
  · intro proof_root memory_version chain_id plan hplan
    obtain ⟨r, hr⟩ := plan_spec hplan
    have hroot : hexText r.bytes = "0x" ++ proof_root := by
      apply String.toList_inj.mp
      simp [hr.root]
    refine ⟨r, encode r memory_version, hroot, by rw [hr.data, bytesOf_hexText],
      decode_encode r hr.bounded, UInt64.toNat_ofNat_of_lt' hr.bounded, ?_⟩
    intro steps st hrun timestamp outcome
    obtain ⟨hset, hother, hreverts⟩ | ⟨st', record, hdone, hversion⟩ := receive_encode
      adapter.contract st adapter.expected_attester timestamp hr.nonzero hr.positive hr.bounded
    · constructor
      · intro e _
        obtain ⟨s, hs, hanchored⟩ := records_of_run hrun _ _ hset
        exact ⟨s, hs, _, hother, hanchored⟩
      · intro st' log hok
        rw [show outcome = _ from hreverts] at hok
        cases hok
    · constructor
      · intro e herror
        rw [show outcome = _ from hdone] at herror
        cases herror
      · intro st'' log hok entry hshows
        rw [show outcome = _ from hdone] at hok
        cases hok
        exact logMatches_anchored hr hversion hshows
  · intro plan plan' tx_hash rpc verified_at verified_at' v v' hv hverified hv' hverified'
    obtain ⟨transaction, r, htransaction, hr, hinput⟩ := verify_input hv hverified
    obtain ⟨transaction', r', htransaction', hr', hinput'⟩ := verify_input hv' hverified'
    rw [htransaction] at htransaction'
    cases htransaction'
    exact plans_unique hr hr' (hinput.symm.trans hinput')

/-- `keccak256` of the two signatures. -/
@[reducible] def signatures : Keccak where
  hash text :=
    if text = "anchor(bytes32,uint64)" then
      ⟨[219, 44, 74, 202, 135, 106, 245, 115, 143, 120, 185, 248, 200, 193, 167, 148, 84, 146, 184,
        166, 199, 22, 16, 206, 69, 195, 8, 47, 185, 107, 162, 150], rfl⟩
    else
      ⟨[252, 210, 120, 134, 61, 121, 170, 248, 44, 149, 207, 204, 196, 134, 200, 38, 156, 167, 174,
        108, 17, 17, 110, 132, 177, 180, 81, 174, 66, 165, 204, 72], rfl⟩

/-- An adapter of Base Sepolia. -/
def sepolia : BaseAuditAnchor where
  chain_id := .baseSepolia
  contract := ⟨List.replicate 20 17, rfl⟩
  expected_attester := ⟨List.replicate 20 34, rfl⟩
  confirmations := 2
  contract_ne := by decide
  attester_ne := by decide
  bounded := by decide

def someRoot : String := "aaaaaaaaaaaaaaaaaaaaaaaaaaaaaaaaaaaaaaaaaaaaaaaaaaaaaaaaaaaaaaaa"

omit [Keccak] [Interpreter] [Unicode] [PlainAscii] in
/-- The first call of a plan goes through, and its event is the one looked for. -/
theorem first_call_announced :
    letI := signatures; letI := strictInterpreter; letI := asciiTables
    ∃ plan calldata st' log, sepolia.plan someRoot 3 .baseSepolia = .ok plan ∧
      bytesOf plan.data = some calldata ∧
      receive sepolia.contract (fun _ _ => ⟨0, 0⟩) ⟨sepolia.expected_attester, 0, calldata, 1000⟩ =
        .ok (st', log) ∧ ∀ entry, Shows log entry → logMatches sepolia plan entry = .ok true := by
  let _ := signatures
  let _ := strictInterpreter
  let _ := asciiTables
  have := asciiTables_plain
  have hplan : ∃ plan, sepolia.plan someRoot 3 .baseSepolia = .ok plan := by
    have hvalid : IsRoot someRoot ∧ someRoot ≠ zeroHash ∧ (1 ≤ 3 ∧ 3 < 2 ^ 64) ∧
        Chain.baseSepolia = sepolia.chain_id := by decide +kernel
    exact ensure_total hvalid ⟨_, rfl⟩
  obtain ⟨plan, hplan⟩ := hplan
  obtain ⟨hagree, _⟩ := plan_contract_verifier_agree sepolia (fun _ => none)
  obtain ⟨r, calldata, _, hcalldata, _, _, hcall⟩ := hagree someRoot 3 .baseSepolia plan hplan
  obtain ⟨hreverts, hannounced⟩ := hcall [] _ Run.start 1000
  cases houtcome : receive sepolia.contract (fun _ _ => ⟨0, 0⟩)
      ⟨sepolia.expected_attester, 0, calldata, 1000⟩ with
  | error e =>
    obtain ⟨s, hs, _⟩ := hreverts e houtcome
    simp at hs
  | ok done => exact ⟨plan, calldata, done.1, done.2, hplan, hcalldata, houtcome,
      hannounced done.1 done.2 houtcome⟩

end Agreement

end MemoryGuard.BaseAnchor
