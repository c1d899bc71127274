import MemoryGuard.AgentRules
import MemoryGuard.SecureHash

/-!
What a validated run of the payment agent stands for. Validation never asks
whether an artifact suits the verdict. That it does follows from three checks
together: every artifact of a registered tool needs an event that put it out,
such an event needs the permission of the verdict, and the verdict permits the
review to a READY decision and the escalation to every other.
-/
namespace MemoryGuard.AgentAuthority

open OrderedDict JsonText Guarded ContentHash CanonicalText IsoText JsonReading
open Observations Decisions AgentRuns AgentRules
open Observing (noon)

section Table

variable {v : Verdict}

theorem reviewTool_allowed : reviewTool ∈ (authorization v).allowed_tools ↔ v = .ready := by
  cases v <;> simp [authorization, reviewTool, escalationTool, briefTool]

theorem escalationTool_allowed :
    escalationTool ∈ (authorization v).allowed_tools ↔ v ≠ .ready := by
  cases v <;> simp [authorization, reviewTool, escalationTool, briefTool]

theorem mandatoryTool_registered (v : Verdict) :
    (authorization v).mandatory_tool ∈ registeredTools := by
  cases v <;> simp [authorization, registeredTools]

end Table

variable [Unicode] [Sha256] {production : Bool} {r : AgentRun}

section Artifacts

omit [Unicode] [Sha256] in
theorem exists_artifact {name : String} (h : name ∈ r.artifacts.map Prod.fst) :
    ∃ artifact, (name, artifact) ∈ r.artifacts := by
  obtain ⟨⟨name', artifact⟩, hmem, rfl⟩ := List.mem_map.mp h
  exact ⟨artifact, hmem⟩

/-- An artifact of a registered tool was put out by a successful event. -/
theorem artifact_traced (h : ValidRun production r) {name : String} {artifact : Json}
    (hname : name ∈ registeredTools) (hmem : (name, artifact) ∈ r.artifacts) :
    ∃ event ∈ r.tool_trace, event.tool = name ∧ event.phase = .succeeded ∧
      event.output_hash = some (toolOutputHash name artifact) := by
  obtain ⟨event, hevent, htool, hphase, houtput⟩ := (h.artifacts _ hmem).traced hname
  exact ⟨event, hevent, htool, List.mem_singleton.mp hphase, houtput⟩

/-- So the verdict allows the tool. -/
theorem artifact_allowed (h : ValidRun production r) {name : String}
    (hname : name ∈ registeredTools) (hmem : name ∈ r.artifacts.map Prod.fst) :
    name ∈ (authorization r.decision.verdict).allowed_tools := by
  obtain ⟨artifact, hartifact⟩ := exists_artifact hmem
  obtain ⟨event, hevent, rfl, hphase, _⟩ := artifact_traced h hname hartifact
  exact (h.events event hevent).allowed hname (by simp [hphase])

omit [Unicode] [Sha256] in
theorem proofArtifact_mem {artifacts : Fields} {artifact : Json}
    (h : proofArtifact artifacts = some artifact) :
    ∃ name ∈ [prepareTool, verifyTool], Dict.find name artifacts = some artifact := by
  unfold proofArtifact at h
  split at h
  · rename_i v hv
    cases h
    exact ⟨verifyTool, by simp, (Option.filter_eq_some_iff.mp hv).1⟩
  · exact ⟨prepareTool, by simp, (Option.filter_eq_some_iff.mp h).1⟩

end Artifacts

/-- What a run may claim, given the verdict of its decision. -/
structure Authorised (r : AgentRun) : Prop where
  inert : r.executable = false
  review : reviewTool ∈ r.artifacts.map Prod.fst → r.decision.verdict = .ready
  escalation : escalationTool ∈ r.artifacts.map Prod.fst → r.decision.verdict ≠ .ready
  brief : briefTool ∈ r.artifacts.map Prod.fst → briefTool ∈ r.model_requested_safe_tools
  artifacts : ∀ e ∈ r.artifacts, field "executable" e.2 = some (.bool false) ∧
    ∀ v, field "decision_id" e.2 = some v → truthy v = true → v = .str r.decision.decision_id
  unknown : ∀ event ∈ r.tool_trace, event.tool ∉ knownTools → event.phase = .suppressed
  forbidden : ∀ event ∈ r.tool_trace, event.tool ∈ registeredTools →
    event.tool ∉ (authorization r.decision.verdict).allowed_tools →
    event.phase ≠ .called ∧ event.phase ≠ .succeeded
  mandatory : r.state ≠ .haltActionUnavailable →
    ∃ artifact, ((authorization r.decision.verdict).mandatory_tool, artifact) ∈ r.artifacts ∧
      ∃ event ∈ r.tool_trace, event.tool = (authorization r.decision.verdict).mandatory_tool ∧
        event.phase = .succeeded ∧ event.output_hash =
          some (toolOutputHash (authorization r.decision.verdict).mandatory_tool artifact)
  anchor : r.anchor_state ≠ .notConfigured → ∃ name ∈ [prepareTool, verifyTool], ∃ artifact,
    Dict.find name r.artifacts = some artifact ∧
      field "proof_root" artifact = some (.str r.decision.proof_root)

theorem validRun_anchor (h : ValidRun production r) (hanchor : r.anchor_state ≠ .notConfigured) :
    ∃ name ∈ [prepareTool, verifyTool], ∃ artifact, Dict.find name r.artifacts = some artifact ∧
      field "proof_root" artifact = some (.str r.decision.proof_root) := by
  have hchecked := h.anchor
  unfold checkAnchor at hchecked
  split at hchecked
  · rename_i artifact hartifact
    simp only [bind_eq_ok, ensure_eq_ok] at hchecked
    obtain ⟨_, _, _, hroot, _⟩ := hchecked
    obtain ⟨name, hname, hfind⟩ := proofArtifact_mem hartifact
    exact ⟨name, hname, artifact, hfind, hroot⟩
  · exact absurd (ensure_eq_ok.mp hchecked) hanchor

theorem valid_authorised (hvalid : ValidRun production r) : Authorised r := by
  refine ⟨hvalid.inert, ?_, ?_, hvalid.brief, ?_, ?_, ?_, ?_, validRun_anchor hvalid⟩
  · intro hmem
    exact reviewTool_allowed.mp (artifact_allowed hvalid (by simp [registeredTools]) hmem)
  · intro hmem
    exact escalationTool_allowed.mp (artifact_allowed hvalid (by simp [registeredTools]) hmem)
  · intro e he
    have hsound := hvalid.artifacts e he
    exact ⟨hsound.inert, fun v hv => hsound.decision v hv⟩
  · intro event hevent hunknown
    exact ((hvalid.events event hevent).known.resolve_left hunknown).1
  · intro event hevent hregistered hforbidden
    have hallowed := (hvalid.events event hevent).allowed hregistered
    constructor
    · intro hcalled
      exact hforbidden (hallowed (by simp [hcalled]))
    · intro hsucceeded
      exact hforbidden (hallowed (by simp [hsucceeded]))
  · intro hstate
    obtain ⟨artifact, hmem⟩ := exists_artifact (hvalid.mandatory hstate)
    exact ⟨artifact, hmem, artifact_traced hvalid (mandatoryTool_registered _) hmem⟩

/-- Every run that validation accepts is authorised by its verdict. -/
theorem validated_run_authorised (h : validateRun production r = .ok ()) : Authorised r :=
  valid_authorised (validateRun_ok.mp h)

section Example

def invoice : PaymentIntent :=
  ⟨"subject", "session", 8453, "target", "transfer", .ofInt 1, "key", .demoFixture, noon (some .utc)⟩

/-- A READY decision on the invoice. -/
def readyDraft : DecisionDraft :=
  let draft : DecisionDraft := ⟨"decision", "subject", "session", .ready, [], [], true, 1, "", "",
    invoice, computeIntentHash invoice, "", "", noon (some .utc), noon (some .utc),
    .notConfigured⟩
  { draft with proof_root := computeDecisionProofRoot draft }

def reviewCard : Json :=
  .obj [("decision_id", .str "decision"), ("executable", .bool false),
    ("action_id", .str (actionId "review-action" "decision"))]

/-- The run that prepared the review of the invoice. -/
def reviewRun : AgentRun where
  run_id := storedRunId readyDraft
  request_hash := storedRequestHash readyDraft
  runtime_instance_id := "runtime"
  state := .awaitFinalize
  decision := readyDraft
  action_fingerprint := storedActionFingerprint readyDraft
  explanation := (operatorCopy .awaitFinalize false).1
  operator_steps := (operatorCopy .awaitFinalize false).2
  planning_degraded := false
  model_kind := "local"
  model_receipt := none
  model_requested_safe_tools := []
  tool_trace := [⟨1, reviewTool, .succeeded, "mandatory", toolInputHash reviewTool .null,
    some (toolOutputHash reviewTool reviewCard), noon (some .utc)⟩]
  artifacts := [(reviewTool, reviewCard)]
  anchor_state := .notConfigured
  executable := false
  created_at := noon (some .utc)
  updated_at := noon (some .utc)
  schema_version := "1.0"

theorem reviewRun_valid [HexDigest] : validateRun false reviewRun = .ok () := by
  have hdigest : ∀ domain v, IsDigest (domainHash domain v) :=
    fun domain v => ⟨HexDigest.length _, HexDigest.digits _⟩
  have hknown : reviewTool ∈ knownTools := by decide
  have hallowed : reviewTool ∈ (authorization .ready).allowed_tools := by decide
  have hbrief : reviewTool ≠ briefTool := by decide
  have hanchor : reviewTool ∉ [prepareTool, verifyTool] := by decide
  have hstate : .awaitFinalize ∈ validStates (authorization .ready).base_state := by decide
  have hversion : "1.0" ∈ ["1.0", "1.1"] := by decide
  have hnames : ∀ name ∈ [reviewTool], name ∈ registeredTools ++ [prepareTool, verifyTool] := by
    decide
  have hevent : ∀ event ∈ reviewRun.tool_trace, SoundEvent reviewRun event := by
    intro event hevent
    cases List.mem_singleton.mp hevent
    exact ⟨hdigest _ _, fun hash hhash => by cases hhash; exact hdigest _ _, Or.inl hknown,
      fun _ _ => hallowed, fun h => absurd h hbrief, fun h => absurd h hanchor⟩
  have hartifact : ∀ entry ∈ reviewRun.artifacts, SoundArtifact reviewRun entry := by
    intro entry hentry
    cases List.mem_singleton.mp hentry
    refine ⟨trivial, fun v hv _ => ?_, rfl, fun id hid => ?_, fun _ => ?_⟩
    · cases hv
      rfl
    · cases hid
      rfl
    · exact ⟨_, List.mem_singleton.mpr rfl, rfl, List.mem_singleton.mpr rfl, rfl⟩
  rw [validateRun_ok]
  exact ⟨validateDecision_ok.mpr ⟨rfl, rfl, rfl, rfl⟩, rfl, rfl, rfl, rfl, rfl, by simp,
    hstate, by simp [reviewRun], hevent, hversion, rfl, hnames,
    fun _ => List.mem_singleton.mpr rfl, fun h => absurd (List.mem_singleton.mp h).symm hbrief,
    hartifact, rfl, rfl⟩

end Example

omit [Unicode] [Sha256] in
theorem review_run_authorised : letI := asciiTables
    letI := SecureHash.secureHash
    validateRun false reviewRun = .ok () ∧ Authorised reviewRun ∧
      reviewTool ∈ reviewRun.artifacts.map Prod.fst := by
  let _ := asciiTables
  let _ := SecureHash.secureHash
  have := SecureHash.secureHash_hex
  exact ⟨reviewRun_valid, validated_run_authorised reviewRun_valid, by simp [reviewRun]⟩

end MemoryGuard.AgentAuthority
