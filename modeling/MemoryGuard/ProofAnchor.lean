import MemoryGuard.BaseAnchor
import MemoryGuard.Finalizing

/-!
The anchors of the payment guard. A contract keeps one record for each proof
root, of whoever anchored it first. The adapter makes the call that anchors the
root of a decision, and looks for the event of this call in what a node answers
about a transaction; whatever fails on the way is the reason of a failed
verification. What it verifies is on chain and stays there.
-/
namespace MemoryGuard.ProofAnchor

open OrderedDict JsonText ContentHash Guarded CanonicalText JsonReading Observations Decisions
open Finalizing Traces
open Models (Chain)
open Artifacts (IsHash)
open AuditContract (Address Bytes32 Word Keccak Log Message anchorSelector anchoredTopic decode)
open BaseAnchor (hexText parseAddress lowered numeral16 bytesOf bytesOf_cases lower_of_bytesOf)

section Contract

structure Anchor where
  attester : Address
  memoryVersion : UInt64
  anchoredAt : UInt64
  deriving DecidableEq

/-- `mapping(bytes32 => Anchor)`. -/
abbrev Anchors := Bytes32 → Anchor

inductive Revert
  | emptyProofRoot
  | proofAlreadyAnchored
  /-- The call has another selector, arguments that cannot be decoded, or a value. -/
  | notCallable
  deriving DecidableEq

variable [Keccak] (deployed : Address)

/-- `emit MemoryProofAnchored`. -/
def anchored (proofRoot : Bytes32) (record : Anchor) : Log :=
  AuditContract.anchored deployed record.attester proofRoot
    ⟨record.memoryVersion, record.anchoredAt⟩

/-- `anchor`. -/
def anchor (anchors : Anchors) (sender : Address) (timestamp : ℕ) (proofRoot : Bytes32)
    (memoryVersion : UInt64) : Except Revert (Anchors × Log) :=
  if proofRoot = 0 then .error .emptyProofRoot
  else if (anchors proofRoot).attester ≠ 0 then .error .proofAlreadyAnchored
  else
    let record : Anchor := ⟨sender, memoryVersion, UInt64.ofNat timestamp⟩
    .ok (Function.update anchors proofRoot record, anchored deployed proofRoot record)

/-- A call message: the function takes no value. -/
def receive (anchors : Anchors) (msg : Message) : Except Revert (Anchors × Log) :=
  match decode msg.data with
  | some (proofRoot, memoryVersion) =>
    if msg.value = 0 then anchor deployed anchors msg.sender msg.timestamp proofRoot memoryVersion
    else .error .notCallable
  | none => .error .notCallable

/-- One call with its outcome. -/
structure Invocation where
  msg : Message
  pre : Anchors
  post : Anchors
  outcome : Except Revert Log

/-- Nobody calls from the zero address, and a call that reverts leaves the records
as they are. -/
structure Invokes (s : Invocation) : Prop where
  sender : s.msg.sender ≠ 0
  executed : match receive deployed s.pre s.msg with
    | .ok (anchors, log) => s.post = anchors ∧ s.outcome = .ok log
    | .error e => s.post = s.pre ∧ s.outcome = .error e

/-- The deployed contract. -/
def contract : System Anchors Invocation where
  init := fun _ => ⟨0, 0, 0⟩
  pre := Invocation.pre
  post := Invocation.post
  allowed := fun _ s => Invokes deployed s

end Contract

section Records

variable [Keccak] {deployed : Address} {anchors anchors' : Anchors} {msg : Message} {log : Log}
  {s : Invocation} {steps before after : List Invocation} {st mid : Anchors} {r : Bytes32}

/-- What a call does that does not revert: it writes the record of a root that had
none, and announces it. -/
structure Anchored (deployed : Address) (anchors : Anchors) (msg : Message) (anchors' : Anchors)
    (log : Log) (proofRoot : Bytes32) : Prop where
  decoded : decode msg.data = some (proofRoot, (anchors' proofRoot).memoryVersion)
  nonzero : proofRoot ≠ 0
  free : (anchors proofRoot).attester = 0
  attester : (anchors' proofRoot).attester = msg.sender
  others : ∀ r ≠ proofRoot, anchors' r = anchors r
  log : log = anchored deployed proofRoot (anchors' proofRoot)

theorem anchored_of_receive (h : receive deployed anchors msg = .ok (anchors', log)) :
    ∃ proofRoot, Anchored deployed anchors msg anchors' log proofRoot := by
  unfold receive at h
  split at h
  · rename_i proofRoot memoryVersion hdecoded
    split at h
    · unfold anchor at h
      split at h
      · cases h
      rename_i hnonzero
      split at h
      · cases h
      rename_i hfree
      rw [ne_eq, not_not] at hfree
      cases h
      refine ⟨proofRoot, ?_, hnonzero, hfree, ?_, ?_, ?_⟩
      · rw [Function.update_self]
        exact hdecoded
      · rw [Function.update_self]
      · exact fun r hr => Function.update_of_ne hr ..
      · rw [Function.update_self]
    · cases h
  · cases h

theorem invokes_cases (h : Invokes deployed s) :
    (∃ log proofRoot, s.outcome = .ok log ∧
      Anchored deployed s.pre s.msg s.post log proofRoot) ∨
    (∃ e, s.outcome = .error e) ∧ s.post = s.pre := by
  have hexecuted := h.executed
  split at hexecuted
  · rename_i anchors log hreceive
    obtain ⟨rfl, houtcome⟩ := hexecuted
    obtain ⟨proofRoot, hdone⟩ := anchored_of_receive hreceive
    exact Or.inl ⟨log, proofRoot, houtcome, hdone⟩
  · rename_i e _
    exact Or.inr ⟨⟨e, hexecuted.2⟩, hexecuted.1⟩

/-- A record that is written stays as it is. -/
theorem invokes_keeps (h : Invokes deployed s) (hset : (s.pre r).attester ≠ 0) :
    s.post r = s.pre r := by
  rcases invokes_cases h with ⟨_, proofRoot, _, hdone⟩ | ⟨_, hpost⟩
  · refine hdone.others r ?_
    rintro rfl
    exact hset hdone.free
  · rw [hpost]

theorem record_stays (hmid : Run (contract deployed) before mid)
    (h : Run (contract deployed) (before ++ after) st) (hset : (mid r).attester ≠ 0) :
    st r = mid r := by
  refine Run.since (fun st => st r = mid r) hmid rfl ?_ h
  intro done s rest _ _ hnow hpre
  have hpre : s.pre r = mid r := hpre
  have hkept : s.post r = s.pre r := invokes_keeps hnow (hpre ▸ hset)
  exact hkept.trans hpre

/-- A log of the contract is the event of a record, which its attester wrote. -/
structure Recorded (deployed : Address) (st : Anchors) (s : Invocation) (log : Log) (r : Bytes32) :
    Prop where
  log : log = anchored deployed r (st r)
  attester : (st r).attester = s.msg.sender
  written : (st r).attester ≠ 0
  decoded : decode s.msg.data = some (r, (st r).memoryVersion)

/-- What was announced is on record. -/
theorem recorded_of_run (h : Run (contract deployed) steps st) (hs : s ∈ steps)
    (houtcome : s.outcome = .ok log) : ∃ r, Recorded deployed st s log r := by
  obtain ⟨before, after, rfl⟩ := List.append_of_mem hs
  obtain ⟨_, hnow, hpost⟩ := h.at_step
  have hnow : Invokes deployed s := hnow
  rcases invokes_cases hnow with ⟨log', r, houtcome', hdone⟩ | ⟨⟨e, herror⟩, _⟩
  · rw [houtcome] at houtcome'
    cases houtcome'
    have hset : (s.post r).attester ≠ 0 := hdone.attester ▸ hnow.sender
    have hlater : Run (contract deployed) ((before ++ [s]) ++ after) st := by simpa using h
    have hstays : st r = s.post r := record_stays hpost hlater hset
    exact ⟨r, hstays ▸ hdone.log, hstays ▸ hdone.attester, hstays ▸ hset, hstays ▸ hdone.decoded⟩
  · rw [houtcome] at herror
    cases herror

variable (deployed) in
/-- A call for a root that is not zero goes through where the root has no record. -/
theorem receive_encode (anchors : Anchors) (sender : Address) (timestamp : ℕ)
    {memoryVersion : ℕ} (hroot : r ≠ 0) (hbound : memoryVersion < 2 ^ 64) :
    receive deployed anchors ⟨sender, 0, AuditContract.encode r memoryVersion, timestamp⟩ =
      if (anchors r).attester ≠ 0 then .error .proofAlreadyAnchored
      else
        let record : Anchor := ⟨sender, UInt64.ofNat memoryVersion, UInt64.ofNat timestamp⟩
        .ok (Function.update anchors r record, anchored deployed r record) := by
  unfold receive
  simp only [AuditContract.decode_encode r hbound, if_true]
  unfold anchor
  rw [if_neg hroot]

end Records

section Adapter

/-- The address of the contract is kept as bytes; its text is in lower case. -/
structure BaseAnchorAdapter where
  chain_id : Chain
  network : String
  contract : Address

/-- `BaseAnchorAdapter(...)`. -/
def configure (chain_id : ℤ) (network contract : String) : Except GuardError BaseAnchorAdapter := do
  let chain ← fetch ([Chain.base, Chain.baseSepolia].find? fun c => (c.id : ℤ) = chain_id)
    (.value "MemoryGuard Base anchor only supports chain 8453 or 84532")
  let address ← fetch (parseAddress contract)
    (.value "BASE_ANCHOR_ADDRESS must be a 20-byte EVM address")
  return ⟨chain, network, address⟩

/-- The blanks that `bytes.fromhex` passes over. -/
def blanks : List Char := [' ', '\t', '\n', '\r', '\x0b', '\x0c']

/-- `bytes.fromhex`. -/
def fromHex : List Char → Option (List UInt8)
  | [] => some []
  | [c] => if c ∈ blanks then some [] else none
  | c :: d :: rest =>
    if c ∈ blanks then fromHex (d :: rest)
    else do
      let high ← Hex.digitValue c
      let low ← Hex.digitValue d
      let bytes ← fromHex rest
      return UInt8.ofNat (16 * high + low) :: bytes

variable [Keccak] (adapter : BaseAnchorAdapter)

/-- `plan`. -/
def BaseAnchorAdapter.plan (decision : DecisionDraft) : Except GuardError AnchorPlan := do
  ensure (decision.intent.chain_id = adapter.chain_id.id)
    (.finalization "decision chain does not match configured Base anchor chain")
  let root ← fetch (fromHex decision.proof_root.toList) (.raised "ValueError")
  ensure (0 ≤ decision.memory_version ∧ decision.memory_version < 256 ^ 32)
    (.raised "OverflowError")
  return {
    chain_id := adapter.chain_id.id
    network := adapter.network
    contract := hexText adapter.contract.bytes
    to_address := hexText adapter.contract.bytes
    data := hexText (anchorSelector ++ root ++ Hex.fixed 32 decision.memory_version.toNat)
    value := "0x0"
    proof_root := decision.proof_root }

end Adapter

section Verification

/-- A node, as it answers requests or fails to. The texts of Python's own
exceptions, by operation and operand, and the numerals of `int(text, 16)` in other
forms are left open. -/
structure Node where
  post : String → List Json → Except String Json
  complaint : String → Json → String
  otherNumeral : String → Option ℤ

variable [Interpreter] [Unicode] (node : Node)

/-- `v.get`, which only dictionaries have. -/
def Node.dictionary : Json → Except String Json
  | .obj fields => .ok (.obj fields)
  | v => .error (node.complaint "get" v)

/-- What a loop over a value goes through. -/
def Node.iterated : Json → Except String (List Json)
  | .arr items => .ok items
  | .str s => .ok (s.toList.map fun c => .str (String.singleton c))
  | .obj fields => .ok (fields.map fun f => .str f.1)
  | v => .error (node.complaint "iter" v)

/-- `len`. -/
def Node.length : Json → Except String ℕ
  | .arr items => .ok items.length
  | .str s => .ok s.length
  | .obj fields => .ok fields.length
  | v => .error (node.complaint "len" v)

/-- The items of what can be indexed by numbers. -/
def Node.indexed : Json → Except String (List Json)
  | .arr items => .ok items
  | .str s => .ok (s.toList.map fun c => .str (String.singleton c))
  | v => .error (node.complaint "item" v)

/-- `int(str(v), 16)`. -/
def Node.int16 (v : Json) : Except String ℤ :=
  fetch (numeral16 node.otherNumeral (strOf v)) (node.complaint "int" v)

/-- `_rpc`. -/
def Node.rpc (method : String) (params : List Json) : Except String Json := do
  let body ← node.post method params
  let body ← node.dictionary body
  match (field "error" body).filter truthy with
  | none => return (field "result" body).getD .null
  | some e =>
    let e ← node.dictionary e
    let message := strOf ((field "message" e).getD (.str "Base RPC error"))
    throw (if message = "" then "RuntimeError" else message)

/-- `text.removeprefix("0x")[-40:]`. -/
def lastForty (text : String) : List Char :=
  let digits := match text.toList with
    | '0' :: 'x' :: rest => rest
    | all => all
  digits.drop (digits.length - 40)

variable [Keccak] (adapter : BaseAnchorAdapter) (decision : DecisionDraft)

/-- `_matches_anchor_event`. -/
def matchesAnchorEvent (receipt_from : String) (log : Json) : Except String Bool := do
  let log ← node.dictionary log
  let topics := (field "topics" log).getD (.arr [])
  let data := (strOf ((field "data" log).getD (.str ""))).toList
  if data.take 2 ≠ "0x".toList ∨ data.length < 66 then return false
  else
    let count ← node.length topics
    if count < 3 then return false
    else
      match numeral16 node.otherNumeral (String.ofList ((data.drop 2).take 64)) with
      | none => return false
      | some memory_version =>
        let topics ← node.indexed topics
        let topic := fun n => strOf (topics.getD n .null)
        return lowered (field "address" log) = hexText adapter.contract.bytes ∧
          Unicode.lower (topic 0) = Unicode.lower (hexText anchoredTopic.bytes) ∧
          Unicode.lower (topic 1) = Unicode.lower ("0x" ++ decision.proof_root) ∧
          Unicode.lower ("0x" ++ String.ofList (lastForty (topic 2))) = receipt_from ∧
          memory_version = decision.memory_version

/-- `any(...)`, which stops at the first event that matches. -/
def anyMatches (receipt_from : String) : List Json → Except String Bool
  | [] => .ok false
  | log :: rest => do
    let matched ← matchesAnchorEvent node adapter decision receipt_from log
    if matched then return true else anyMatches receipt_from rest

/-- What `verify` tries: the number of the block of a transaction that anchored
the decision, or nothing while there is no receipt. -/
def BaseAnchorAdapter.check (tx_hash : String) : Except String (Option ℤ) := do
  let chain ← node.rpc "eth_chainId" []
  let actual_chain ← node.int16 chain
  ensure (actual_chain = adapter.chain_id.id) "rpc_chain_mismatch"
  let receipt ← node.rpc "eth_getTransactionReceipt" [.str tx_hash]
  if receipt = .null then return none
  else
    let receipt ← node.dictionary receipt
    ensure (lowered (some ((field "status" receipt).getD (.str "0x0"))) = "0x1")
      "transaction_reverted"
    ensure (lowered (field "to" receipt) = hexText adapter.contract.bytes)
      "receipt_contract_mismatch"
    let receipt_from := lowered (field "from" receipt)
    ensure ((parseAddress receipt_from).isSome = true) "receipt_sender_missing_or_invalid"
    let logs ← node.iterated ((field "logs" receipt).getD (.arr []))
    let matched ← anyMatches node adapter decision receipt_from logs
    ensure (matched = true) "matching_root_version_and_attester_event_not_found"
    let number ← fetch (field "blockNumber" receipt) (node.complaint "blockNumber" receipt)
    let block_number ← node.int16 number
    return some block_number

omit [Interpreter] [Unicode] [Keccak] in
/-- An answer of the adapter always names the transaction. -/
def BaseAnchorAdapter.answer (state : AnchorState) (tx_hash : String) (block_number : Option ℤ)
    (reason : String) : AnchorVerification :=
  ⟨state, some tx_hash, some adapter.chain_id.id, some (hexText adapter.contract.bytes),
    block_number, [reason]⟩

/-- `verify`. -/
def BaseAnchorAdapter.verify (tx_hash : String) : AnchorVerification :=
  if decision.intent.chain_id ≠ adapter.chain_id.id then
    adapter.answer .failed tx_hash none "decision_chain_does_not_match_anchor_chain"
  else if ¬ IsHash tx_hash then adapter.answer .failed tx_hash none "invalid_transaction_hash"
  else
    match adapter.check node decision tx_hash with
    | .ok none => adapter.answer .pending tx_hash none "receipt_not_yet_available"
    | .ok (some block_number) => adapter.answer .verified tx_hash (some block_number)
        "base_receipt_root_memory_version_and_attester_verified"
    | .error reason => adapter.answer .failed tx_hash none reason

theorem verify_names (tx_hash : String) :
    (adapter.verify node decision tx_hash).tx_hash = some tx_hash := by
  unfold BaseAnchorAdapter.verify
  split
  · rfl
  split
  · rfl
  split <;> rfl

omit decision in
/-- The adapter as the guard uses it. -/
def BaseAnchorAdapter.port : AnchorPort where
  plan decision := (adapter.plan decision).map some
  verify decision tx_hash := .ok (adapter.verify node decision tx_hash)
  names := by
    intro decision tx_hash v hv _
    cases hv
    exact verify_names node adapter decision tx_hash

end Verification

section Shown

open BaseAnchor (Shows lowered_str lower_hexText)

variable [Interpreter] [Unicode] [Keccak] [PlainAscii] {node : Node} {adapter : BaseAnchorAdapter}
  {decision : DecisionDraft} {receipt_from : String} {r : Bytes32} {record : Anchor} {entry : Json}

omit [Interpreter] [Unicode] [Keccak] [PlainAscii] in
theorem numeral16_digits (otherNumeral : String → Option ℤ) {digits : List Char} {n : ℕ}
    (hne : digits ≠ []) (h : Hex.value digits = some n) :
    numeral16 otherNumeral (String.ofList digits) = some (n : ℤ) := by
  have hzero : Hex.digitValue '0' = some 0 := by decide
  have hlower : Hex.digitValue 'x' = none := by decide
  have hupper : Hex.digitValue 'X' = none := by decide
  unfold numeral16
  rw [String.toList_ofList]
  split
  · simp [Hex.value, hzero, hlower] at h
  · simp [Hex.value, hzero, hupper] at h
  · cases digits with
    | nil => exact absurd rfl hne
    | cons c rest => simp [h]

omit [Interpreter] [Unicode] [Keccak] [PlainAscii] in
/-- The last forty digits of a topic are the address in it. -/
theorem bytesOf_lastForty {text : String} {a : Address}
    (h : bytesOf text = some (Address.padded a).bytes) :
    bytesOf ("0x" ++ String.ofList (lastForty text)) = some a.bytes := by
  obtain ⟨digits, hlist, hdigits⟩ := bytesOf_cases h
  have hlength : digits.length = 64 := by
    rw [Hex.length_of_toBytes hdigits, (Address.padded a).size]
  have hlast : Hex.toBytes (digits.drop (2 * 12)) = some a.bytes := by
    rw [Hex.toBytes_drop 12 hdigits, Address.padded, List.drop_left' (by simp)]
  have hforty : lastForty text = digits.drop (2 * 12) := by
    unfold lastForty
    rw [hlist]
    simp [hlength]
  unfold bytesOf
  rw [hforty]
  simpa using hlast

/-- The check of an event of the contract compares its root, its attester and its
version. -/
theorem matches_shown (hshows : Shows (anchored adapter.contract r record) entry) :
    matchesAnchorEvent node adapter decision receipt_from entry =
      .ok (decide (hexText r.bytes = Unicode.lower ("0x" ++ decision.proof_root) ∧
        hexText record.attester.bytes = receipt_from ∧
        (record.memoryVersion.toNat : ℤ) = decision.memory_version)) := by
  obtain ⟨⟨address, haddress, haddress_bytes⟩, ⟨texts, htopics, htopics_bytes⟩,
    ⟨data, hdata, hdata_bytes⟩, _⟩ := hshows
  have hdictionary : node.dictionary entry = .ok entry := by
    cases entry with
    | obj fields => rfl
    | _ => simp [field] at haddress
  obtain ⟨digits, hlist, hdigits⟩ := bytesOf_cases hdata_bytes
  have hlength : digits.length = 128 := by
    rw [Hex.length_of_toBytes hdigits]
    simp [anchored, AuditContract.anchored]
  have hfirst : Hex.value (digits.take (2 * 32)) = some record.memoryVersion.toNat := by
    have hwide : record.memoryVersion.toNat < 256 ^ 32 :=
      lt_trans record.memoryVersion.toNat_lt (by decide)
    have htake := Hex.toBytes_take 32 hdigits
    rw [anchored, AuditContract.anchored, List.take_left' (Hex.length_fixed ..)] at htake
    rw [Hex.value_of_toBytes htake, Hex.bigEndian_fixed hwide]
  have hnumeral : numeral16 node.otherNumeral (String.ofList ((data.toList.drop 2).take 64)) =
      some (record.memoryVersion.toNat : ℤ) := by
    rw [hlist]
    refine numeral16_digits _ ?_ hfirst
    rw [← List.length_pos_iff]
    simp [hlength]
  simp only [anchored, AuditContract.anchored, List.forall₂_cons_right_iff,
    List.forall₂_nil_right_iff] at htopics_bytes
  obtain ⟨topic, _, htopic, ⟨root, _, hroot, ⟨attester, _, hattester, rfl, rfl⟩, rfl⟩, rfl⟩ :=
    htopics_bytes
  have hdata_length : ¬ (data.toList.take 2 ≠ "0x".toList ∨ data.toList.length < 66) := by
    rw [hlist]
    simp [hlength]
  have htext : ∀ text : String, strOf (.str text) = text := fun _ => rfl
  unfold matchesAnchorEvent
  rw [hdictionary]
  simp only [ok_bind, haddress, htopics, hdata, Option.getD_some, htext, if_neg hdata_length,
    hnumeral, Node.length, Node.indexed, List.map_cons, List.map_nil, List.length_cons,
    List.length_nil, List.getD_cons_zero, List.getD_cons_succ, lowered_str,
    lower_of_bytesOf haddress_bytes, lower_of_bytesOf htopic, lower_of_bytesOf hroot,
    lower_of_bytesOf (bytesOf_lastForty hattester), lower_hexText, anchored,
    AuditContract.anchored, true_and]
  rfl

end Shown

section Chain

open BaseAnchor (Shows lowered_str lower_hexText)

variable [Interpreter] [Unicode] [Keccak] {node : Node} {adapter : BaseAnchorAdapter}
  {decision : DecisionDraft} {tx_hash receipt_from : String} {entry : Json} {logs : List Json}
  {steps : List Invocation} {st : Anchors}

theorem anyMatches_true (h : anyMatches node adapter decision receipt_from logs = .ok true) :
    ∃ entry ∈ logs, matchesAnchorEvent node adapter decision receipt_from entry = .ok true := by
  induction logs with
  | nil => cases h
  | cons log rest ih =>
    simp only [anyMatches, bind_eq_ok] at h
    obtain ⟨matched, hmatched, h⟩ := h
    cases matched with
    | true => exact ⟨log, List.mem_cons_self, hmatched⟩
    | false =>
      obtain ⟨entry, hentry, hfound⟩ := ih h
      exact ⟨entry, List.mem_cons_of_mem _ hentry, hfound⟩

/-- A log that matches is one of the contract. -/
theorem matches_address
    (h : matchesAnchorEvent node adapter decision receipt_from entry = .ok true) :
    lowered (field "address" entry) = hexText adapter.contract.bytes := by
  simp only [matchesAnchorEvent, bind_eq_ok] at h
  obtain ⟨log, hlog, h⟩ := h
  have hsame : log = entry := by
    cases entry <;> cases hlog
    rfl
  subst hsame
  split at h
  · cases h
  · simp only [bind_eq_ok] at h
    obtain ⟨count, _, h⟩ := h
    split at h
    · cases h
    · split at h
      · cases h
      · simp only [bind_eq_ok, pure_eq_ok, decide_eq_true_eq] at h
        obtain ⟨_, _, haddress, _⟩ := h
        exact haddress

/-- What is found out before an answer says that a transaction is verified. -/
theorem verified_cases (h : (adapter.verify node decision tx_hash).state = .verified) :
    decision.intent.chain_id = adapter.chain_id.id ∧ IsHash tx_hash ∧ ∃ receipt logs entry,
      node.rpc "eth_getTransactionReceipt" [.str tx_hash] = .ok receipt ∧
      node.iterated ((field "logs" receipt).getD (.arr [])) = .ok logs ∧ entry ∈ logs ∧
      matchesAnchorEvent node adapter decision (lowered (field "from" receipt)) entry =
        .ok true := by
  unfold BaseAnchorAdapter.verify at h
  split at h
  · cases h
  rename_i hchain
  split at h
  · cases h
  rename_i hhash
  rw [ne_eq, not_not] at hchain
  rw [not_not] at hhash
  refine ⟨hchain, hhash, ?_⟩
  split at h
  · cases h
  · rename_i block_number hcheck
    simp only [BaseAnchorAdapter.check, bind_eq_ok] at hcheck
    obtain ⟨_, _, _, _, _, _, receipt, hreceipt, hcheck⟩ := hcheck
    split at hcheck
    · cases hcheck
    · simp only [bind_eq_ok, ensure_eq_ok] at hcheck
      obtain ⟨r, hr, _, _, _, _, _, _, logs, hlogs, _, hmatched, _, rfl, _⟩ := hcheck
      have hsame : r = receipt := by
        cases receipt <;> cases hr
        rfl
      subst hsame
      obtain ⟨entry, hentry, hmatches⟩ := anyMatches_true hmatched
      exact ⟨r, logs, entry, hreceipt, hlogs, hentry, hmatches⟩
  · cases h

end Chain

section Calls

open BaseAnchor (Shows lowered_str lower_hexText)

/-- Digits of bytes hold no blanks. -/
theorem fromHex_ofBytes (b : List UInt8) : fromHex (Hex.ofBytes b) = some b := by
  induction b with
  | nil => rfl
  | cons x rest ih =>
    have hblank : ∀ n < 16, Hex.digit n ∉ blanks := by
      have hall : (List.range 16).all (fun n => Hex.digit n ∉ blanks) = true := by decide
      exact fun n hn => of_decide_eq_true (List.all_eq_true.mp hall n (List.mem_range.mpr hn))
    obtain ⟨hhigh, hlow⟩ := Hex.halves x
    have hbyte : UInt8.ofNat (16 * (x.toNat / 16) + x.toNat % 16) = x := by
      rw [Nat.div_add_mod]
      exact UInt8.ofNat_toNat
    change fromHex (Hex.digit (x.toNat / 16) :: Hex.digit (x.toNat % 16) :: Hex.ofBytes rest) = _
    simp only [fromHex, hblank _ hhigh, if_false, Hex.digitValue_digit hhigh,
      Hex.digitValue_digit hlow, ih, Option.bind_eq_bind, Option.bind_some, hbyte]
    rfl

theorem parseAddress_hexText (a : Address) : parseAddress (hexText a.bytes) = some a := by
  unfold parseAddress
  rw [BaseAnchor.toList_hexText]
  simp [Hex.toBytes_ofBytes, a.size]

variable [Interpreter] [Unicode] [Keccak] [PlainAscii] {node : Node} {adapter : BaseAnchorAdapter}
  {decision : DecisionDraft} {tx_hash receipt_from : String} {r : Bytes32} {sender : Address}
  {plan : AnchorPlan} {log : Log} {entry : Json} {logs : List Json}

omit [Interpreter] [Unicode] [PlainAscii] in
/-- The call that is planned for a decision. -/
theorem plan_data (hplan : adapter.plan decision = .ok plan)
    (hroot : decision.proof_root.toList = Hex.ofBytes r.bytes) :
    decision.intent.chain_id = adapter.chain_id.id ∧ 0 ≤ decision.memory_version ∧
      plan.proof_root = decision.proof_root ∧
      plan.data = hexText (AuditContract.encode r decision.memory_version.toNat) := by
  simp only [BaseAnchorAdapter.plan, bind_eq_ok, ensure_eq_ok, fetch_eq_ok, pure_eq_ok, hroot,
    fromHex_ofBytes, Option.some.injEq] at hplan
  obtain ⟨_, hchain, _, rfl, _, ⟨hpositive, _⟩, rfl⟩ := hplan
  exact ⟨hchain, hpositive, rfl, rfl⟩

omit [PlainAscii] in
/-- The check of a log that a node writes as it should always ends. -/
theorem matches_total (hshows : Shows log entry) :
    ∃ b, matchesAnchorEvent node adapter decision receipt_from entry = .ok b := by
  obtain ⟨⟨address, haddress, _⟩, ⟨texts, htopics, _⟩, ⟨data, hdata, _⟩, _⟩ := hshows
  have hdictionary : node.dictionary entry = .ok entry := by
    cases entry with
    | obj fields => rfl
    | _ => simp [field] at haddress
  unfold matchesAnchorEvent
  rw [hdictionary]
  simp only [ok_bind, htopics, Option.getD_some, Node.length, Node.indexed]
  split
  · exact ⟨_, rfl⟩
  · split
    · exact ⟨_, rfl⟩
    · split <;> exact ⟨_, rfl⟩

omit [PlainAscii] in
theorem anyMatches_found (hall : ∀ entry ∈ logs, ∃ log, Shows log entry) (hentry : entry ∈ logs)
    (hmatches : matchesAnchorEvent node adapter decision receipt_from entry = .ok true) :
    anyMatches node adapter decision receipt_from logs = .ok true := by
  induction logs with
  | nil => cases hentry
  | cons first rest ih =>
    rw [List.forall_mem_cons] at hall
    obtain ⟨log, hlog⟩ := hall.1
    obtain ⟨b, hb⟩ : ∃ b, matchesAnchorEvent node adapter decision receipt_from first = .ok b :=
      matches_total hlog
    simp only [anyMatches, hb, ok_bind]
    cases b with
    | true => rfl
    | false =>
      rcases List.mem_cons.mp hentry with rfl | hlater
      · rw [hmatches] at hb
        cases hb
      · exact ih hall.2 hlater

/-- How a node reports on a transaction in which the sender called the contract
and this log was written. -/
structure Reports (node : Node) (adapter : BaseAnchorAdapter) (tx_hash : String) (sender : Address)
    (log : Log) (receipt : Json) (entries : List Json) : Prop where
  chain : ∃ chain, node.rpc "eth_chainId" [] = .ok chain ∧
    numeral16 node.otherNumeral (strOf chain) = some (adapter.chain_id.id : ℤ)
  answer : node.rpc "eth_getTransactionReceipt" [.str tx_hash] = .ok receipt
  status : field "status" receipt = some (.str "0x1")
  called : ∃ text, field "to" receipt = some (.str text) ∧
    bytesOf text = some adapter.contract.bytes
  sender : ∃ text, field "from" receipt = some (.str text) ∧ bytesOf text = some sender.bytes
  logs : field "logs" receipt = some (.arr entries)
  shown : ∀ entry ∈ entries, ∃ log, Shows log entry
  announced : ∃ entry ∈ entries, Shows log entry
  block : ∃ v n, field "blockNumber" receipt = some v ∧
    numeral16 node.otherNumeral (strOf v) = some n

variable (decision tx_hash) in
/-- The report of an event for a decision verifies its transaction. -/
theorem verify_reported {record : Anchor} {receipt : Json} {entries : List Json}
    (hchain : decision.intent.chain_id = adapter.chain_id.id) (hhash : IsHash tx_hash)
    (hroot : hexText r.bytes = Unicode.lower ("0x" ++ decision.proof_root))
    (hversion : (record.memoryVersion.toNat : ℤ) = decision.memory_version)
    (h : Reports node adapter tx_hash record.attester (anchored adapter.contract r record) receipt
      entries) : (adapter.verify node decision tx_hash).state = .verified := by
  obtain ⟨chain, hanswer, hnumber⟩ := h.chain
  obtain ⟨called, hto, hto_bytes⟩ := h.called
  obtain ⟨caller, hfrom, hfrom_bytes⟩ := h.sender
  obtain ⟨entry, hentry, hshows⟩ := h.announced
  obtain ⟨v, n, hblock, hblock_number⟩ := h.block
  have hascii : Ascii "0x1" := by
    intro c hc
    simp only [String.reduceToList, List.mem_cons, List.not_mem_nil, or_false] at hc
    rcases hc with rfl | rfl | rfl <;> decide
  have hstatus : lowered (some ((field "status" receipt).getD (.str "0x0"))) = "0x1" := by
    rw [h.status]
    exact (PlainAscii.lower_ascii "0x1" hascii).trans (by decide)
  have hcaller : lowered (field "from" receipt) = hexText record.attester.bytes := by
    rw [hfrom, lowered_str, lower_of_bytesOf hfrom_bytes]
  have hmatches : matchesAnchorEvent node adapter decision (hexText record.attester.bytes) entry =
      .ok true := by
    rw [matches_shown hshows, Except.ok.injEq, decide_eq_true_eq]
    exact ⟨hroot, rfl, hversion⟩
  have hdictionary : node.dictionary receipt = .ok receipt ∧ receipt ≠ .null := by
    have hstatus := h.status
    cases receipt with
    | obj fields => exact ⟨rfl, by simp⟩
    | _ => simp [field] at hstatus
  have hcheck : adapter.check node decision tx_hash = .ok (some n) := by
    unfold BaseAnchorAdapter.check
    simp only [hanswer, ok_bind, Node.int16, hnumber, fetch, ensure, if_true, h.answer,
      hdictionary.2, if_false, hdictionary.1, hstatus, hto, lowered_str,
      lower_of_bytesOf hto_bytes, hcaller, parseAddress_hexText, Option.isSome_some, h.logs,
      Option.getD_some, Node.iterated, anyMatches_found h.shown hentry hmatches, hblock,
      hblock_number]
    rfl
  unfold BaseAnchorAdapter.verify
  rw [if_neg (not_not.mpr hchain), if_neg (not_not.mpr hhash), hcheck]
  rfl

end Calls

section Reporting

open BaseAnchor (Shows)

/-- A log as a node writes it. -/
def shownLog (log : Log) : Json :=
  object [("address", .str (hexText log.address.bytes)),
    ("topics", .arr (log.topics.map fun topic => .str (hexText topic.bytes))),
    ("data", .str (hexText log.data))]

/-- The receipt of a transaction with one log. -/
def shownReceipt (deployed sender : Address) (log : Log) : Json :=
  object [("status", .str "0x1"), ("to", .str (hexText deployed.bytes)),
    ("from", .str (hexText sender.bytes)), ("logs", .arr [shownLog log]),
    ("blockNumber", .str "0x10")]

/-- A node of Base Sepolia that knows of one transaction. -/
def reporter (deployed sender : Address) (log : Log) : Node where
  post method _ := .ok (object [("result",
    if method = "eth_chainId" then .str "0x14a34" else shownReceipt deployed sender log)])
  complaint _ _ := ""
  otherNumeral _ := none

theorem shows_shownLog (log : Log) : Shows log (shownLog log) := by
  refine ⟨⟨_, field_object (by simp) "address", BaseAnchor.bytesOf_hexText _⟩,
    ⟨log.topics.map fun topic => hexText topic.bytes, ?_, ?_⟩,
    ⟨_, field_object (by simp) "data", BaseAnchor.bytesOf_hexText _⟩, ?_⟩
  · rw [List.map_map]
    exact field_object (by simp) "topics"
  · rw [List.forall₂_map_left_iff]
    exact List.forall₂_same.mpr fun topic _ => BaseAnchor.bytesOf_hexText _
  · have hremoved : field "removed" (shownLog log) = none := field_object (by simp) "removed"
    rw [hremoved]
    rfl

theorem numeral_chain (deployed sender : Address) (log : Log) :
    numeral16 (reporter deployed sender log).otherNumeral "0x14a34" = some 84532 := by
  change numeral16 (fun _ => none) "0x14a34" = some 84532
  decide +kernel

theorem numeral_block (deployed sender : Address) (log : Log) :
    numeral16 (reporter deployed sender log).otherNumeral "0x10" = some 16 := by
  change numeral16 (fun _ => none) "0x10" = some 16
  decide +kernel

theorem shownReceipt_logs (deployed sender : Address) (log : Log) :
    field "logs" (shownReceipt deployed sender log) = some (.arr [shownLog log]) :=
  field_object (by simp) "logs"

variable [Interpreter]

theorem rpc_result {node : Node} {method : String} {params : List Json} {v : Json}
    (h : node.post method params = .ok (object [("result", v)])) :
    node.rpc method params = .ok v := by
  have herror : field "error" (object [("result", v)]) = none := field_object (by simp) "error"
  have hresult : field "result" (object [("result", v)]) = some v :=
    field_object (by simp) "result"
  have hdictionary : node.dictionary (object [("result", v)]) = .ok (object [("result", v)]) := rfl
  unfold Node.rpc
  simp only [h, hdictionary, ok_bind, herror, Option.filter_none, hresult, Option.getD_some]
  rfl

theorem reporter_chain (deployed sender : Address) (log : Log) :
    (reporter deployed sender log).rpc "eth_chainId" [] = .ok (.str "0x14a34") :=
  rpc_result rfl

theorem reporter_receipt (deployed sender : Address) (log : Log) (params : List Json) :
    (reporter deployed sender log).rpc "eth_getTransactionReceipt" params =
      .ok (shownReceipt deployed sender log) :=
  rpc_result rfl

/-- The node reports as it should. -/
theorem reporter_reports [Unicode] {adapter : BaseAnchorAdapter}
    (hchain : adapter.chain_id = .baseSepolia) (sender : Address) (log : Log) (tx_hash : String) :
    Reports (reporter adapter.contract sender log) adapter tx_hash sender log
      (shownReceipt adapter.contract sender log) [shownLog log] where
  chain := ⟨_, reporter_chain .., hchain ▸ numeral_chain ..⟩
  answer := reporter_receipt ..
  status := field_object (by simp) "status"
  called := ⟨_, field_object (by simp) "to", BaseAnchor.bytesOf_hexText _⟩
  sender := ⟨_, field_object (by simp) "from", BaseAnchor.bytesOf_hexText _⟩
  logs := shownReceipt_logs ..
  shown := by
    rw [List.forall_mem_singleton]
    exact ⟨log, shows_shownLog log⟩
  announced := ⟨_, List.mem_cons_self, shows_shownLog log⟩
  block := ⟨_, 16, field_object (by simp) "blockNumber", numeral_block ..⟩

end Reporting

section Specimen

def sepolia : BaseAnchorAdapter := ⟨.baseSepolia, "base-sepolia", BaseAnchor.sepolia.contract⟩

def sender : Address := ⟨List.replicate 20 85, rfl⟩

def someRoot : Bytes32 := ⟨List.replicate 32 170, rfl⟩

def someHash : String := "0xbbbbbbbbbbbbbbbbbbbbbbbbbbbbbbbbbbbbbbbbbbbbbbbbbbbbbbbbbbbbbbbb"

/-- A decision of the guard, with a root of 32 bytes. -/
def approved : DecisionDraft where
  decision_id := "dec_00000001"
  subject_ref := "subject"
  session_id := "session-0002"
  verdict := .ready
  reason_codes := []
  causal_memory_ids := []
  cross_session := true
  memory_version := 3
  memory_root := "memory"
  policy_hash := "policy"
  intent := Pollution.vendorPayment
  intent_hash := "intent"
  proof_root := BaseAnchor.someRoot
  nonce := "nonce"
  created_at := Observing.noon none
  expires_at := Observing.noon (some .utc)
  anchor_state := .notConfigured

theorem sepolia_chain : sepolia.chain_id = .baseSepolia := rfl

theorem approved_chain : approved.intent.chain_id = sepolia.chain_id.id := rfl

theorem approved_root : approved.proof_root.toList = Hex.ofBytes someRoot.bytes := by
  decide +kernel

theorem someRoot_ne : someRoot ≠ 0 := by decide

theorem someHash_ok : IsHash someHash := by decide +kernel

theorem approved_bound : approved.memory_version < 2 ^ 64 := by
  change (3 : ℤ) < 2 ^ 64
  omega

theorem sender_ne : sender ≠ 0 := by decide

theorem exists_plan [Keccak] : ∃ plan, sepolia.plan approved = .ok plan := by
  have hroot : fromHex approved.proof_root.toList = some someRoot.bytes := by
    rw [approved_root, fromHex_ofBytes]
  exact ensure_total approved_chain
    (fetch_total hroot (ensure_total ⟨by decide, by decide⟩ ⟨_, rfl⟩))

end Specimen

section Finality

open BaseAnchor (Shows lower_hexText)

variable [Interpreter] [Unicode] [Keccak] {node : Node} {adapter : BaseAnchorAdapter}
  {decision : DecisionDraft} {tx_hash : String} {steps : List Invocation} {st : Anchors}
  {r : Bytes32} {plan : AnchorPlan}

/-- The planned call is refused only where its root is on record already. The
report of it verifies its transaction otherwise. -/
theorem planned_call_verifies [PlainAscii] (hplan : adapter.plan decision = .ok plan)
    (hroot : decision.proof_root.toList = Hex.ofBytes r.bytes) (hnonzero : r ≠ 0)
    (hbound : decision.memory_version < 2 ^ 64) :
    ∃ calldata, bytesOf plan.data = some calldata ∧ ∀ st sender timestamp,
      ((st r).attester ≠ 0 ∧ receive adapter.contract st ⟨sender, 0, calldata, timestamp⟩ =
        .error .proofAlreadyAnchored) ∨
      ((st r).attester = 0 ∧ ∃ st',
        receive adapter.contract st ⟨sender, 0, calldata, timestamp⟩ =
          .ok (st', anchored adapter.contract r (st' r)) ∧ (st' r).attester = sender ∧
        ∀ node tx_hash receipt entries, IsHash tx_hash →
          Reports node adapter tx_hash sender (anchored adapter.contract r (st' r)) receipt
            entries →
          (adapter.verify node decision tx_hash).state = .verified) := by
  obtain ⟨hchain, hpositive, _, hdata⟩ := plan_data hplan hroot
  have hnat : decision.memory_version.toNat < 2 ^ 64 := by omega
  refine ⟨AuditContract.encode r decision.memory_version.toNat, ?_, ?_⟩
  · rw [hdata, BaseAnchor.bytesOf_hexText]
  · intro st sender timestamp
    rw [receive_encode _ _ _ _ hnonzero hnat]
    by_cases hfree : (st r).attester = 0
    · right
      rw [if_neg (not_not.mpr hfree)]
      refine ⟨hfree, Function.update st r ⟨sender, UInt64.ofNat decision.memory_version.toNat,
        UInt64.ofNat timestamp⟩, ?_, ?_, ?_⟩
      · rw [Function.update_self]
      · rw [Function.update_self]
      · intro node tx_hash receipt entries hhash hreports
        let record : Anchor := ⟨sender, UInt64.ofNat decision.memory_version.toNat,
          UInt64.ofNat timestamp⟩
        have hreports : Reports node adapter tx_hash record.attester
            (anchored adapter.contract r record) receipt entries := by
          rwa [Function.update_self] at hreports
        refine verify_reported decision tx_hash hchain hhash ?_ ?_ hreports
        · have htext : "0x" ++ decision.proof_root = hexText r.bytes := by
            apply String.toList_inj.mp
            simp [hroot]
          rw [htext, lower_hexText]
        · rw [UInt64.toNat_ofNat_of_lt' hnat]
          omega
    · left
      exact ⟨hfree, if_pos hfree⟩

omit [Interpreter] [Unicode] [Keccak] in
/-- The first planned call is verified from its report, and the second is refused. -/
theorem first_call_verified :
    letI := BaseAnchor.signatures; letI := strictInterpreter; letI := asciiTables
    ∃ plan calldata st', sepolia.plan approved = .ok plan ∧ bytesOf plan.data = some calldata ∧
      receive sepolia.contract (fun _ => ⟨0, 0, 0⟩) ⟨sender, 0, calldata, 1000⟩ =
        .ok (st', anchored sepolia.contract someRoot (st' someRoot)) ∧
      (sepolia.verify (reporter sepolia.contract sender
        (anchored sepolia.contract someRoot (st' someRoot))) approved someHash).state = .verified ∧
      receive sepolia.contract st' ⟨sender, 0, calldata, 2000⟩ = .error .proofAlreadyAnchored := by
  let _ := BaseAnchor.signatures
  let _ := strictInterpreter
  let _ := asciiTables
  have := asciiTables_plain
  obtain ⟨plan, hplan⟩ := exists_plan
  obtain ⟨calldata, hcalldata, hcalls⟩ :=
    planned_call_verifies hplan approved_root someRoot_ne approved_bound
  rcases hcalls (fun _ => ⟨0, 0, 0⟩) sender 1000 with ⟨hset, _⟩ | ⟨_, st', hgoes, hsender, hverify⟩
  · exact (hset rfl).elim
  · have hset : (st' someRoot).attester ≠ 0 := by
      rw [hsender]
      exact sender_ne
    let log := anchored sepolia.contract someRoot (st' someRoot)
    have hverified := hverify (reporter sepolia.contract sender log) someHash
      (shownReceipt sepolia.contract sender log) [shownLog log] someHash_ok
      (reporter_reports sepolia_chain sender log someHash)
    refine ⟨plan, calldata, st', hplan, hcalldata, hgoes, hverified, ?_⟩
    rcases hcalls st' sender 2000 with ⟨_, hrefused⟩ | ⟨hfree, _⟩
    · exact hrefused
    · exact absurd hfree hset

/-- The logs of a contract that a node shows are events of calls that were made. -/
def Honest (node : Node) (deployed : Address) (steps : List Invocation) : Prop :=
  ∀ tx_hash receipt logs, node.rpc "eth_getTransactionReceipt" [.str tx_hash] = .ok receipt →
    node.iterated ((field "logs" receipt).getD (.arr [])) = .ok logs → ∀ entry ∈ logs,
      lowered (field "address" entry) = hexText deployed.bytes →
        ∃ s ∈ steps, ∃ log, s.outcome = .ok log ∧ Shows log entry

/-- A transaction that is verified for a decision anchored its root: the contract
has a record of it, with the version of the decision and the sender of the
transaction, by a call that was made for them. -/
theorem recorded_of_verified [PlainAscii] (hrun : Run (contract adapter.contract) steps st)
    (hnode : Honest node adapter.contract steps)
    (h : (adapter.verify node decision tx_hash).state = .verified) :
    ∃ r, hexText r.bytes = Unicode.lower ("0x" ++ decision.proof_root) ∧
      ((st r).memoryVersion.toNat : ℤ) = decision.memory_version ∧
      (∃ receipt, node.rpc "eth_getTransactionReceipt" [.str tx_hash] = .ok receipt ∧
        lowered (field "from" receipt) = hexText (st r).attester.bytes) ∧
      ∃ s ∈ steps, ∃ log, Recorded adapter.contract st s log r := by
  obtain ⟨_, _, receipt, logs, entry, hreceipt, hlogs, hentry, hmatches⟩ := verified_cases h
  obtain ⟨s, hs, log, houtcome, hshows⟩ :=
    hnode tx_hash receipt logs hreceipt hlogs entry hentry (matches_address hmatches)
  obtain ⟨r, hrecorded⟩ := recorded_of_run hrun hs houtcome
  rw [hrecorded.log] at hshows
  rw [matches_shown hshows, Except.ok.injEq, decide_eq_true_eq] at hmatches
  obtain ⟨hroot, hattester, hversion⟩ := hmatches
  exact ⟨r, hroot, hversion, ⟨receipt, hreceipt, hattester.symm⟩, s, hs, log, hrecorded⟩

end Finality

section Guards

variable [Interpreter] [Unicode] [Sha256] [Keccak] {adapter : BaseAnchorAdapter}
  {steps : List Invocation} {st : Anchors} {vault vault' : Vault} {call : GuardCall}
  {answered : Answer} {guarded : List GuardStep} {result : FinalizationResult}
  {decision_id : String}

omit [Sha256] in
/-- A call asks the adapter, at a node that is honest about the contract. -/
def Trusted (adapter : BaseAnchorAdapter) (steps : List Invocation) (call : GuardCall) : Prop :=
  ∀ guard anchor now decision_id tx, call = .finalize guard anchor now decision_id tx →
    ∃ node : Node, anchor = adapter.port node ∧ Honest node adapter.contract steps

omit [Interpreter] [Sha256] in
/-- A proof root has a record, by a call that was made for it. -/
def OnChain (deployed : Address) (steps : List Invocation) (st : Anchors) (proof_root : Digest) :
    Prop :=
  ∃ r : Bytes32, hexText r.bytes = Unicode.lower ("0x" ++ proof_root) ∧
    ∃ s ∈ steps, ∃ log, Recorded deployed st s log r

omit [Interpreter] [Sha256] in
/-- The roots of the finalizations that are kept as verified are on chain. -/
def KeptOnChain (deployed : Address) (steps : List Invocation) (st : Anchors) (vault : Vault) :
    Prop :=
  ∀ k (r : FinalizationResult), vault.finalizations.get? k = some r.toJson →
    r.state = .verified → OnChain deployed steps st r.proof_root

theorem KeptOnChain.read {deployed : Address} (h : KeptOnChain deployed steps st vault)
    (hkept : Kept vault) (hload : loadFinalization vault decision_id = .ok (some result))
    (hverified : result.state = .verified) : OnChain deployed steps st result.proof_root := by
  obtain ⟨written, hwritten, rfl, _⟩ := hkept.finalization_read hload
  exact h _ written hwritten hverified

omit [Interpreter] in
theorem KeptOnChain.save {deployed : Address} (h : KeptOnChain deployed steps st vault)
    (hnew : result.state = .verified → OnChain deployed steps st result.proof_root) :
    KeptOnChain deployed steps st (saveFinalization vault result) := by
  intro k r hr hverified
  rw [saveFinalization, Dict.get?_set] at hr
  split at hr
  · have hsame : result.reread = r.reread := reread_of_toJson (Option.some.inj hr)
    have hstate : result.reread.state = r.reread.state := by rw [hsame]
    have hroot : result.reread.proof_root = r.reread.proof_root := by rw [hsame]
    change result.proof_root = r.proof_root at hroot
    rw [← hroot]
    exact hnew (hstate.trans hverified)
  · exact h k r hr hverified

/-- One call keeps only such finalizations as verified, and answers no others. -/
theorem serve_onChain [PlainAscii] (hchain : Run (contract adapter.contract) steps st)
    (htrusted : Trusted adapter steps call) (hkept : Kept vault)
    (honchain : KeptOnChain adapter.contract steps st vault)
    (h : serveCall vault call = .ok (vault', answered)) :
    KeptOnChain adapter.contract steps st vault' ∧
      ∀ result, answered = .finalized result → result.state = .verified →
        OnChain adapter.contract steps st result.proof_root := by
  cases call with
  | observe around observation =>
    simp only [serveCall, bind_eq_ok, pure_eq_ok, Prod.mk.injEq] at h
    obtain ⟨⟨body, receipt⟩, _, rfl, rfl⟩ := h
    refine ⟨?_, fun _ hfinalized => by cases hfinalized⟩
    cases body with
    | none => exact honchain
    | some b => exact honchain
  | decide guard around intent =>
    simp only [serveCall, bind_eq_ok, pure_eq_ok, Prod.mk.injEq] at h
    obtain ⟨decision, _, rfl, rfl⟩ := h
    exact ⟨honchain, fun _ hfinalized => by cases hfinalized⟩
  | finalize guard anchor now id tx =>
    simp only [serveCall, bind_eq_ok, pure_eq_ok, Prod.mk.injEq] at h
    obtain ⟨⟨next, r⟩, hfinalize, rfl, rfl⟩ := h
    obtain ⟨node, rfl, hnode⟩ := htrusted _ _ _ _ _ rfl
    obtain ⟨decision, _, hfinalizes⟩ := finalize_cases hfinalize
    cases hfinalizes with
    | stored hload _ =>
      refine ⟨honchain, ?_⟩
      intro result hanswered hverified
      cases hanswered
      exact honchain.read hkept hload hverified
    | @verified hash verification _ hverifies _ =>
      cases hverifies
      have hnew : (adapter.verify node decision hash).state = .verified →
          OnChain adapter.contract steps st decision.proof_root := by
        intro hverified
        obtain ⟨r, hroot, _, _, hrecorded⟩ := recorded_of_verified hchain hnode hverified
        exact ⟨r, hroot, hrecorded⟩
      refine ⟨?_, ?_⟩
      · split
        · exact honchain.save hnew
        · exact honchain
      · intro result hanswered hverified
        cases hanswered
        exact hnew hverified
    | planned _ _ =>
      have hopen : ∀ plan, (planned decision plan).state ≠ .verified := by
        intro plan
        unfold planned
        split
        · simp [unverified]
        · split <;> simp [unverified]
      refine ⟨honchain.save fun hverified => absurd hverified (hopen _), ?_⟩
      intro result hanswered hverified
      cases hanswered
      exact absurd hverified (hopen _)
  | inspect id =>
    simp only [serveCall, bind_eq_ok, pure_eq_ok, Prod.mk.injEq] at h
    obtain ⟨r, hinspect, rfl, rfl⟩ := h
    refine ⟨honchain, ?_⟩
    intro result hanswered hverified
    cases hanswered
    exact honchain.read hkept (inspect_read hinspect) hverified

theorem keptOnChain_of_run [PlainAscii] (hchain : Run (contract adapter.contract) steps st)
    (hrun : Run guarding guarded vault) (htrusted : ∀ s ∈ guarded, Trusted adapter steps s.call) :
    KeptOnChain adapter.contract steps st vault := by
  induction hrun with
  | start =>
    intro k r hr
    cases hr
  | @next done s before now ih =>
    have hearlier := ih fun t ht => htrusted t (List.mem_append_left _ ht)
    exact (serve_onChain hchain (htrusted s (by simp)) (kept_of_run before) hearlier now).1

/-- Where a guard asks one adapter at honest nodes, whatever is ever answered as
verified is on chain: the contract has the record of its proof root, which a call
for this root wrote, and the record stays as it is. -/
theorem verified_finalizations_on_chain [PlainAscii] {before after : List GuardStep} {s : GuardStep}
    (hrun : Run guarding (before ++ s :: after) vault)
    (hchain : Run (contract adapter.contract) steps st)
    (htrusted : ∀ t ∈ before ++ s :: after, Trusted adapter steps t.call)
    (hanswered : s.answered = .finalized result) (hverified : result.state = .verified) :
    ∃ r, hexText r.bytes = Unicode.lower ("0x" ++ result.proof_root) ∧
      (∃ t ∈ steps, t.msg.sender = (st r).attester ∧
        decode t.msg.data = some (r, (st r).memoryVersion)) ∧
      ∀ later st', Run (contract adapter.contract) (steps ++ later) st' → st' r = st r := by
  obtain ⟨hpre, hnow, _⟩ := hrun.at_step
  have hkept := keptOnChain_of_run hchain hpre fun t ht => htrusted t (List.mem_append_left _ ht)
  obtain ⟨r, hroot, t, ht, log, hrecorded⟩ := (serve_onChain hchain (htrusted s (by simp))
    (kept_of_run hpre) hkept hnow).2 result hanswered hverified
  refine ⟨r, hroot, ⟨t, ht, hrecorded.attester.symm, hrecorded.decoded⟩, ?_⟩
  intro later st' hlater
  exact record_stays hchain hlater hrecorded.written

end Guards

section Confirmed

open BaseAnchor (lower_hexText)
open Pollution (vendorPayment)
open Observing (validateMachineIdentifier)

/-- All digests are one root of 32 bytes. -/
@[reducible] def sameDigest : Sha256 where
  hexdigest _ := BaseAnchor.someRoot
  leading n d := String.ofList (d.toList.take n)

variable [Interpreter] [Unicode] [Keccak]

omit [Keccak] in
/-- The only log that the node shows is one that was written. -/
theorem reporter_honest {deployed sender : Address} {log : Log} {s : Invocation}
    {steps : List Invocation} (hs : s ∈ steps) (houtcome : s.outcome = .ok log) :
    Honest (reporter deployed sender log) deployed steps := by
  intro tx_hash receipt logs hreceipt hlogs entry hentry _
  rw [reporter_receipt, Except.ok.injEq] at hreceipt
  subst hreceipt
  rw [shownReceipt_logs] at hlogs
  cases hlogs
  rw [List.mem_singleton.mp hentry]
  exact ⟨s, hs, log, houtcome, shows_shownLog log⟩

omit [Interpreter] [Unicode] in
/-- The root is anchored by the first call of a run. -/
theorem exists_anchored (memoryVersion : ℕ) (hbound : memoryVersion < 2 ^ 64) :
    ∃ (s : Invocation) (record : Anchor) (st : Anchors), Run (contract sepolia.contract) [s] st ∧
      s.outcome = .ok (anchored sepolia.contract someRoot record) ∧ record.attester = sender ∧
      record.memoryVersion.toNat = memoryVersion := by
  let record : Anchor := ⟨sender, UInt64.ofNat memoryVersion, UInt64.ofNat 1000⟩
  let st : Anchors := Function.update (fun _ => ⟨0, 0, 0⟩) someRoot record
  let msg : Message := ⟨sender, 0, AuditContract.encode someRoot memoryVersion, 1000⟩
  let log := anchored sepolia.contract someRoot record
  let s : Invocation := ⟨msg, fun _ => ⟨0, 0, 0⟩, st, .ok log⟩
  have hreceive : receive sepolia.contract s.pre msg = .ok (st, log) :=
    receive_encode sepolia.contract _ sender 1000 someRoot_ne hbound
  have hnow : Invokes sepolia.contract s := by
    refine ⟨sender_ne, ?_⟩
    rw [show s.msg = msg from rfl, hreceive]
    exact ⟨rfl, rfl⟩
  have hstart : Run (contract sepolia.contract) [] s.pre := .start
  exact ⟨s, record, st, .next (S := contract sepolia.contract) hstart hnow, rfl, rfl,
    UInt64.toNat_ofNat_of_lt' hbound⟩

/-- The report of a call for the root verifies a decision with this root. -/
theorem reported_verified [PlainAscii] {decision : DecisionDraft} {record : Anchor}
    (hchain : decision.intent.chain_id = 84532) (hroot : decision.proof_root = BaseAnchor.someRoot)
    (hversion : (record.memoryVersion.toNat : ℤ) = decision.memory_version)
    (hattester : record.attester = sender) :
    (sepolia.verify (reporter sepolia.contract sender (anchored sepolia.contract someRoot record))
      decision someHash).state = .verified := by
  have htext : hexText someRoot.bytes = Unicode.lower ("0x" ++ decision.proof_root) := by
    have happroved : "0x" ++ decision.proof_root = hexText someRoot.bytes := by
      apply String.toList_inj.mp
      rw [hroot]
      exact congrArg ('0' :: 'x' :: ·) approved_root
    rw [happroved, lower_hexText]
  have hreports := reporter_reports sepolia_chain sender
    (anchored sepolia.contract someRoot record) someHash
  rw [← hattester] at hreports ⊢
  exact verify_reported decision someHash hchain someHash_ok htext hversion hreports

omit [Interpreter] [Unicode] [Keccak] in
/-- A payment that is left to its reviewers is confirmed, and stays on chain. -/
theorem confirmed_payment_on_chain :
    letI := BaseAnchor.signatures; letI := strictInterpreter; letI := asciiTables
    letI := sameDigest
    ∃ (guarded : List GuardStep) (s : GuardStep) (result : FinalizationResult)
      (steps : List Invocation) (st : Anchors) (r : Bytes32),
      Run guarding (guarded ++ [s]) s.post ∧ Run (contract sepolia.contract) steps st ∧
      s.answered = .finalized result ∧ result.state = .verified ∧
      hexText r.bytes = Unicode.lower ("0x" ++ result.proof_root) ∧
      (∃ t ∈ steps, t.msg.sender = (st r).attester ∧
        decode t.msg.data = some (r, (st r).memoryVersion)) ∧
      ∀ later st', Run (contract sepolia.contract) (steps ++ later) st' → st' r = st r := by
  let _ := BaseAnchor.signatures
  let _ := strictInterpreter
  let _ := asciiTables
  let _ := sameDigest
  have := asciiTables_plain
  obtain ⟨around, d, h⟩ := exists_undecided
  obtain ⟨call, record, st, hchain, houtcome, hattester, hversion⟩ :=
    exists_anchored 0 (by decide)
  let node := reporter sepolia.contract sender (anchored sepolia.contract someRoot record)
  have hroot : d.proof_root = BaseAnchor.someRoot := by
    obtain ⟨_, hdigest⟩ := h.root
    exact hdigest
  have hverified : (sepolia.verify node d someHash).state = .verified := by
    refine reported_verified h.chain hroot ?_ hattester
    rw [hversion, h.version]
    rfl
  have hconfirmed := finalize_verified (sepolia.port node) h.finalizable
    (unfinalized_decided rfl) (rfl : supplied (some someHash) = some someHash) rfl
  rw [if_pos (.inr hverified)] at hconfirmed
  obtain ⟨t, s, hrun, htcall, hscall, hanswered⟩ := run_finalized .start h.decided hconfirmed
  have hhonest : Honest node sepolia.contract [call] :=
    reporter_honest (List.mem_singleton_self call) houtcome
  have htrusted : ∀ u ∈ [t] ++ s :: [], Trusted sepolia [call] u.call := by
    intro u hu guard anchor now decision_id tx hu'
    rcases List.mem_cons.mp hu with rfl | hu
    · rw [htcall] at hu'
      cases hu'
    · rw [List.mem_singleton.mp hu, hscall] at hu'
      cases hu'
      exact ⟨node, rfl, hhonest⟩
  obtain ⟨r, hshown, hmade, hstays⟩ :=
    verified_finalizations_on_chain hrun hchain htrusted hanswered hverified
  exact ⟨[t], s, _, [call], st, r, hrun, hchain, hanswered, hverified, hshown, hmade, hstays⟩

end Confirmed
end MemoryGuard.ProofAnchor
