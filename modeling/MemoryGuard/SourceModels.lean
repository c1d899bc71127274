import MemoryGuard.Core

/-!
Server-owned source policy: which sources an operator has configured, for whom
they may be read, and what a scope demands before one of its cases is resolved.
Requests never carry any of it, and it may differ after every restart.
-/
namespace MemoryGuard.SourceModels

open OrderedDict JsonText ContentHash Models

inductive SourceKind
  | githubIssue
  | baseTransaction
  deriving DecidableEq, Repr

def SourceKind.text : SourceKind → String
  | .githubIssue => "github_issue"
  | .baseTransaction => "base_transaction"

/-- Two sources operated by one organization share an independence group. -/
structure SourceSpec where
  source_id : Identifier
  kind : SourceKind
  tenant_id : Identifier
  subjects : List Identifier
  independence_group : Identifier
  repositories : List String
  token_env : Option String
  rpc_url : Option String
  chain_id : Chain
  ttl_seconds : ℕ
  min_confirmations : ℕ
  max_attempts_per_case : ℕ

def SourceSpec.toJson (s : SourceSpec) : Json :=
  object [("source_id", .str s.source_id), ("kind", .str s.kind.text),
    ("tenant_id", .str s.tenant_id), ("subjects", texts s.subjects),
    ("independence_group", .str s.independence_group), ("repositories", texts s.repositories),
    ("token_env", optional .str s.token_env), ("rpc_url", optional .str s.rpc_url),
    ("chain_id", nat s.chain_id.id), ("ttl_seconds", nat s.ttl_seconds),
    ("min_confirmations", nat s.min_confirmations),
    ("max_attempts_per_case", nat s.max_attempts_per_case)]

/-- Evidence is necessary for a resolution, never sufficient to authorize it. -/
structure ScopeEvidencePolicy where
  tenant_id : Identifier
  scope : Scope
  required_sources : List Identifier
  min_independence_groups : ℕ

def ScopeEvidencePolicy.toJson (p : ScopeEvidencePolicy) : Json :=
  object [("tenant_id", .str p.tenant_id), ("scope", p.scope.toJson),
    ("required_sources", texts p.required_sources),
    ("min_independence_groups", nat p.min_independence_groups),
    ("require_for_resolution", .bool true)]

structure IncidentSpec where
  source_id : Identifier
  actor_id : Identifier
  scope : Scope
  max_clock_skew_seconds : ℕ

structure VirtualsSpec where
  tenant_id : Identifier
  subjects : List Identifier
  chain_id : Chain
  client_address : String
  provider_address : String
  offering_name : String
  max_budget_micros : ℕ
  cli_executable : String
  cli_sha256 : Digest
  cli_home : String
  ttl_seconds : ℕ

def VirtualsSpec.toJson (s : VirtualsSpec) : Json :=
  object [("tenant_id", .str s.tenant_id), ("subjects", texts s.subjects),
    ("chain_id", nat s.chain_id.id), ("client_address", .str s.client_address),
    ("provider_address", .str s.provider_address), ("offering_name", .str s.offering_name),
    ("max_budget_micros", nat s.max_budget_micros), ("cli_executable", .str s.cli_executable),
    ("cli_sha256", .str s.cli_sha256), ("cli_home", .str s.cli_home),
    ("ttl_seconds", nat s.ttl_seconds)]

structure ConnectorConfig where
  sources : List SourceSpec
  policies : List ScopeEvidencePolicy
  incidents : List IncidentSpec

/-- `specs` of a desk: the configured sources by their identifier. -/
def ConnectorConfig.specs (c : ConnectorConfig) : Dict Identifier SourceSpec :=
  c.sources.foldl (fun d s => d.set s.source_id s) .empty

variable [Sha256]

def specHash (s : SourceSpec) : Digest := digest "source-spec" s.toJson

def partnerHash (s : VirtualsSpec) : Digest := digest "virtuals-spec" s.toJson

end MemoryGuard.SourceModels
