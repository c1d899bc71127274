import MemoryGuard.Ingress
import MemoryGuard.JsonReading
import MemoryGuard.ReviewPath

/-!
The export of a stored report and the script that checks an exported value
offline. The script recomputes the hashes from the value alone. What a run
stores passes it, and what passes it under the root of a stored report is that
report, with the evidence its investigation inspected.
-/
namespace MemoryGuard.Exports

open OrderedDict Guarded JsonText ContentHash Models Artifacts Aggregate Core SourceModels
open SourceState SourceGuard SourceService Transactions CaseCommands Calls Traces Filing
open EvidenceEffects TaskEffects CaseEffects Lifecycle Effects Growth Upkeep History Standing
open Integrity JsonReading
open Ingress (load)

section Verifying

/-- `v[k]`. -/
def subscript (k : String) : Json → Except GuardError Json
  | .obj fields => fetch (Dict.find k fields) (.raised "KeyError")
  | _ => throw (.raised "TypeError")

/-- `v.items()`. -/
def fieldsOf : Json → Except GuardError (List (String × Json))
  | .obj fields => .ok fields
  | _ => throw (.raised "AttributeError")

/-- `v.get(k)`. -/
def optionally (k : String) (v : Json) : Except GuardError Json := do
  let fields ← fieldsOf v
  return (Dict.find k fields).getD .null

/-- The values that a loop over `v` goes through. -/
def iterated : Json → Except GuardError (List Json)
  | .arr items => .ok items
  | .obj fields => .ok (fields.map fun e => .str e.1)
  | .str s => .ok (s.toList.map fun c => .str (String.singleton c))
  | _ => throw (.raised "TypeError")

/-- The fields of a dictionary other than the one with a given key. -/
def without (name : String) (fields : List (String × Json)) : List (String × Json) :=
  fields.filter fun e => e.1 ≠ name

/-- The traced steps that inspected evidence. -/
def inspecting (steps : List Json) : Except GuardError (List Json) :=
  steps.foldlM (fun found step => do
    let tool ← optionally "tool" step
    return if equal tool (.str "evidence.inspect") then found ++ [step] else found) []

variable [Sha256]

/-- A dictionary carries the digest of its other fields under `name`. -/
def checkRoot (domain name message : String) (v : Json) : Except GuardError Unit := do
  let root ← subscript name v
  let fields ← fieldsOf v
  ensure (equal root (.str (digest domain (object (without name fields))))) (.value message)

omit [Sha256] in
/-- `record[k] != report[k]`, as a check. -/
def checkBound (k : String) (record report : Json) : Except GuardError Unit := do
  let bound ← subscript k record
  let named ← subscript k report
  ensure (equal bound named) (.value "source report binding mismatch")

omit [Sha256] in
def bareVerdict : Json :=
  object [("report_consistent", .bool true), ("source_bundle_present", .bool false),
    ("independent_authenticity", .bool false)]

omit [Sha256] in
def boundVerdict : Json :=
  object [("report_consistent", .bool true), ("source_bundle_present", .bool true),
    ("trace_bound", .bool true), ("independent_authenticity", .bool false),
    ("freshness_reverified", .bool false), ("executable", .bool false)]

/-- The only inspection of the report hashed the bundle. -/
def checkTrace (report bundle : Json) : Except GuardError Unit := do
  let trace ← subscript "trace" report
  let steps ← iterated trace
  match ← inspecting steps with
  | [event] => do
    let output ← subscript "output_hash" event
    ensure (equal output (.str (digest "tool-output" bundle)))
      (.value "report tool trace mismatch")
  | _ => throw (.value "report tool trace mismatch")

/-- `verify` of the script. -/
def verify (value : Json) : Except GuardError Json := do
  let schema ← optionally "schema_version" value
  ensure (equal schema (.str "casework-report-export/1")) (.value "unsupported export")
  let report ← subscript "report" value
  let record ← optionally "source_snapshot" value
  checkRoot "investigation" "report_root" "report hash mismatch" report
  if record = .null then
    return bareVerdict
  checkBound "report_id" record report
  checkBound "case_id" record report
  checkBound "report_root" record report
  let bundle ← subscript "bundle" record
  checkRoot "evidence-bundle" "bundle_root" "source bundle hash mismatch" bundle
  checkTrace report bundle
  return boundVerdict

end Verifying

section Reading

variable {k name : String} {v x : Json} {fields : List (String × Json)}

@[simp] theorem subscript_eq_ok : subscript k v = .ok x ↔ field k v = some x := by
  cases v <;> simp [subscript, field]

@[simp] theorem fieldsOf_eq_ok : fieldsOf v = .ok fields ↔ v = .obj fields := by
  cases v <;> simp [fieldsOf]

theorem optionally_eq_ok : optionally k v = .ok x ↔
    ∃ fields, v = .obj fields ∧ (Dict.find k fields).getD .null = x := by
  simp only [optionally, bind_eq_ok, fieldsOf_eq_ok, pure_eq_ok]

theorem optionally_object {l : List (String × Json)} (hkeys : (l.map Prod.fst).Nodup) :
    optionally k (object l) = .ok ((Dict.find k l).getD .null) := by
  refine optionally_eq_ok.mpr ⟨byKey l, rfl, ?_⟩
  rw [← field_object hkeys]
  rfl

/-- A text equals no other value. -/
@[simp] theorem equal_str {s : String} : equal v (.str s) = true ↔ v = .str s := by
  cases v <;> simp [equal, numeric]

theorem find_without (h : k ≠ name) : Dict.find k (without name fields) = Dict.find k fields := by
  induction fields with
  | nil => rfl
  | cons e fields ih =>
    by_cases he : e.1 = name
    · have hk : e.1 ≠ k := fun heq => h (heq.symm.trans he)
      have hskip : without name (e :: fields) = without name fields := by simp [without, he]
      rw [hskip, ih, Dict.find, if_neg hk]
    · have hkeep : without name (e :: fields) = e :: without name fields := by simp [without, he]
      rw [hkeep, Dict.find, Dict.find, ih]

/-- A dictionary is one field and the others. -/
structure Extended (all : List (String × Json)) (name : String) (x : Json)
    (body : List (String × Json)) : Prop where
  perm : all.Perm ((name, x) :: body)
  new : name ∉ body.map Prod.fst
  keys : (body.map Prod.fst).Nodup

namespace Extended

variable {all body : List (String × Json)} (h : Extended all name x body)
include h

theorem nodup : (all.map Prod.fst).Nodup := by
  rw [(h.perm.map Prod.fst).nodup_iff, List.map_cons, List.nodup_cons]
  exact ⟨h.new, h.keys⟩

theorem field_added : field name (object all) = some x := by
  rw [field_object h.nodup]
  exact (Dict.find_eq_some_iff _ _ _ h.nodup).mpr (h.perm.mem_iff.mpr List.mem_cons_self)

theorem field_other (hk : k ≠ name) : field k (object all) = Dict.find k body := by
  have hcons : (((name, x) :: body).map Prod.fst).Nodup := (h.perm.map _).nodup_iff.mp h.nodup
  have hsame : object all = object ((name, x) :: body) :=
    congrArg Json.obj (byKey_eq_of_perm h.perm h.nodup)
  rw [hsame, field_object hcons, Dict.find, if_neg (Ne.symm hk)]

/-- The other fields, as they were hashed. -/
theorem without_added : object (without name (byKey all)) = object body := by
  have hrest : without name ((name, x) :: body) = body := by
    have hall : ∀ e ∈ body, decide (e.1 ≠ name) = true := by
      intro e he
      have hne : e.1 ≠ name := fun heq => h.new (heq ▸ List.mem_map_of_mem he)
      exact decide_eq_true hne
    unfold without
    rw [List.filter_cons_of_neg (by simp), List.filter_eq_self.mpr hall]
  have hperm : (without name (byKey all)).Perm (without name ((name, x) :: body)) :=
    ((List.perm_insertionSort _ all).trans h.perm).filter _
  rw [hrest] at hperm
  exact congrArg Json.obj (byKey_eq_of_perm hperm ((hperm.map _).nodup_iff.mpr h.keys))

end Extended

variable [Sha256] {domain message : String}

theorem checkRoot_eq_ok : checkRoot domain name message v = .ok () ↔
    ∃ fields, v = .obj fields ∧
      Dict.find name fields = some (.str (digest domain (object (without name fields)))) := by
  unfold checkRoot
  simp only [bind_eq_ok, subscript_eq_ok, fieldsOf_eq_ok, ensure_eq_ok, equal_str]
  constructor
  · rintro ⟨root, hroot, fields, rfl, rfl⟩
    exact ⟨fields, rfl, hroot⟩
  · rintro ⟨fields, rfl, hroot⟩
    exact ⟨_, hroot, fields, rfl, rfl⟩

/-- A dictionary that was given its root passes. -/
theorem checkRoot_complete {all body : List (String × Json)} {root : Digest}
    (h : Extended all name (.str root) body) (hroot : root = digest domain (object body)) :
    checkRoot domain name message (object all) = .ok () := by
  refine checkRoot_eq_ok.mpr ⟨byKey all, rfl, ?_⟩
  rw [h.without_added, ← hroot]
  exact h.field_added

/-- A dictionary that passes under the root of another has its fields. -/
theorem checkRoot_sound [CollisionFree] {all body : List (String × Json)} {root : Digest}
    (h : Extended all name (.str root) body) (hroot : root = digest domain (object body))
    (hcheck : checkRoot domain name message v = .ok ()) (hv : field name v = some (.str root)) :
    ∀ k, field k v = field k (object all) := by
  obtain ⟨fields, rfl, hfind⟩ := checkRoot_eq_ok.mp hcheck
  have hsame : object (without name fields) = object body := by
    rw [show Dict.find name fields = some (.str root) from hv, hroot] at hfind
    simp only [Option.some.injEq, Json.str.injEq, digest_inj, true_and] at hfind
    exact hfind.symm
  have hkeys : ((without name fields).map Prod.fst).Nodup := by
    have hbody : ((byKey body).map Prod.fst).Nodup :=
      ((List.perm_insertionSort _ body).map _).nodup_iff.mpr h.keys
    have hbyKey : byKey (without name fields) = byKey body := Json.obj.inj hsame
    rw [← hbyKey] at hbody
    exact ((List.perm_insertionSort _ (without name fields)).map _).nodup_iff.mp hbody
  intro k
  by_cases hk : k = name
  · rw [hk, hv, h.field_added]
  · have hfields : field k (.obj fields) = Dict.find k (without name fields) :=
      (find_without hk).symm
    rw [hfields, h.field_other hk, ← field_object hkeys, hsame, field_object h.keys]

end Reading

section Bodies

variable (r : Report) (context : EvidenceContext)

theorem report_extended : Extended (r.body ++ [("report_root", .str r.report_root)])
    "report_root" (.str r.report_root) r.body where
  perm := List.perm_append_singleton _ _
  new := by simp [Report.body]
  keys := by simp [Report.body]

theorem context_extended : Extended (("bundle_root", .str context.bundle_root) :: context.body)
    "bundle_root" (.str context.bundle_root) context.body where
  perm := List.Perm.refl _
  new := by
    cases hobliged : context.source_obligations <;>
      simp [EvidenceContext.body, written, hobliged]
  keys := by
    cases hobliged : context.source_obligations <;>
      simp [EvidenceContext.body, written, hobliged]

theorem report_field {k : String} (hk : k ≠ "report_root") :
    field k r.toJson = Dict.find k r.body := (report_extended r).field_other hk

theorem output_of_event (e : TraceEvent) :
    field "output_hash" e.toJson = e.output_hash.map Json.str := by
  cases e with
  | succeeded tool input output count =>
    unfold TraceEvent.toJson
    rw [field_object (by simp)]
    simp [Dict.find, TraceEvent.output_hash]
  | suppressed request =>
    unfold TraceEvent.toJson
    rw [field_object (by simp)]
    simp [Dict.find, TraceEvent.output_hash]

theorem tool_of_event (e : TraceEvent) : optionally "tool" e.toJson = .ok (.str e.tool) := by
  cases e with
  | succeeded tool input output count =>
    unfold TraceEvent.toJson
    rw [optionally_object (by simp)]
    simp [Dict.find, TraceEvent.tool]
  | suppressed request =>
    unfold TraceEvent.toJson
    rw [optionally_object (by simp)]
    simp [Dict.find, TraceEvent.tool]

/-- The script finds the inspections of a report. -/
theorem inspecting_trace :
    inspecting (r.trace.map TraceEvent.toJson) = .ok ((inspections r).map TraceEvent.toJson) := by
  have hfrom : ∀ (trace : List TraceEvent) (found : List Json),
      (trace.map TraceEvent.toJson).foldlM (fun found step => do
        let tool ← optionally "tool" step
        return if equal tool (.str "evidence.inspect") then found ++ [step] else found) found =
        (.ok (found ++ (trace.filter fun e => e.tool = "evidence.inspect").map TraceEvent.toJson) :
          Except GuardError _) := by
    intro trace
    induction trace with
    | nil => simp [pure, Except.pure]
    | cons e trace ih =>
      intro found
      rw [List.map_cons, List.foldlM_cons, tool_of_event]
      change List.foldlM _ (if equal (.str e.tool) (.str "evidence.inspect") then _ else _) _ = _
      rw [ih]
      by_cases he : e.tool = "evidence.inspect"
      · simp [he]
      · simp [he]
  have htrace := hfrom r.trace []
  rwa [List.nil_append] at htrace

end Bodies

section Checks

variable [Sha256] {r : Report} {context : EvidenceContext} {value report record verdict : Json}

/-- What the script checks of the trace of a report. -/
theorem checkTrace_eq_ok {bundle : Json}
    (htrace : field "trace" report = some (.arr (r.trace.map TraceEvent.toJson))) :
    checkTrace report bundle = .ok () ↔
      (inspections r).map TraceEvent.output_hash = [some (digest "tool-output" bundle)] := by
  unfold checkTrace
  simp only [bind_eq_ok, subscript_eq_ok, htrace, Option.some.injEq, exists_eq_left', iterated,
    Except.ok.injEq, inspecting_trace]
  match inspections r with
  | [] => simp
  | [e] =>
    simp only [List.map_cons, List.map_nil, bind_eq_ok, subscript_eq_ok, ensure_eq_ok, equal_str,
      output_of_event, List.cons.injEq, and_true]
    cases e.output_hash with
    | none => simp
    | some output => simp
  | e :: e' :: rest => simp

omit [Sha256] in
theorem checkBound_eq_ok {k : String} : checkBound k record report = .ok () ↔
    ∃ x y, field k record = some x ∧ field k report = some y ∧ equal x y := by
  simp only [checkBound, bind_eq_ok, subscript_eq_ok, ensure_eq_ok]
  constructor
  · rintro ⟨x, hx, y, hy, hsame⟩
    exact ⟨x, y, hx, hy, hsame⟩
  · rintro ⟨x, y, hx, hy, hsame⟩
    exact ⟨x, hx, y, hy, hsame⟩

/-- What a source snapshot that is accepted with a report holds. -/
structure Snapshot (report record : Json) : Prop where
  report_id : checkBound "report_id" record report = .ok ()
  case_id : checkBound "case_id" record report = .ok ()
  report_root : checkBound "report_root" record report = .ok ()
  bundle : ∃ bundle, field "bundle" record = some bundle ∧
    checkRoot "evidence-bundle" "bundle_root" "source bundle hash mismatch" bundle = .ok () ∧
    checkTrace report bundle = .ok ()

/-- What the script has checked of a value that it accepts. -/
structure Accepted (value verdict report record : Json) : Prop where
  schema : optionally "schema_version" value = .ok (.str "casework-report-export/1")
  reported : field "report" value = some report
  recorded : optionally "source_snapshot" value = .ok record
  rooted : checkRoot "investigation" "report_root" "report hash mismatch" report = .ok ()
  snapshot : if record = .null then verdict = bareVerdict
    else Snapshot report record ∧ verdict = boundVerdict

theorem verify_eq_ok : verify value = .ok verdict ↔
    ∃ report record, Accepted value verdict report record := by
  simp only [verify, bind_eq_ok, ensure_eq_ok, subscript_eq_ok, equal_str]
  constructor
  · rintro ⟨_, hschema, _, rfl, report, hreport, record, hrecord, _, hroot, h⟩
    refine ⟨report, record, hschema, hreport, hrecord, hroot, ?_⟩
    by_cases hnull : record = .null
    · rw [if_pos hnull, pure_eq_ok] at h
      rw [if_pos hnull, h]
    · rw [if_neg hnull] at h ⊢
      simp only [bind_eq_ok, subscript_eq_ok, pure_eq_ok] at h
      obtain ⟨_, hid, _, hcase, _, hbound, bundle, hbundle, _, hvalid, _, htrace, rfl⟩ := h
      exact ⟨⟨hid, hcase, hbound, bundle, hbundle, hvalid, htrace⟩, rfl⟩
  · rintro ⟨report, record, hschema, hreport, hrecord, hroot, h⟩
    refine ⟨_, hschema, (), rfl, report, hreport, record, hrecord, (), hroot, ?_⟩
    by_cases hnull : record = .null
    · rw [if_pos hnull] at h
      rw [if_pos hnull, h]
      rfl
    · rw [if_neg hnull] at h ⊢
      obtain ⟨⟨hid, hcase, hbound, bundle, hbundle, hvalid, htrace⟩, rfl⟩ := h
      simp only [bind_eq_ok, subscript_eq_ok, pure_eq_ok]
      exact ⟨(), hid, (), hcase, (), hbound, bundle, hbundle, (), hvalid, (), htrace, trivial⟩

omit [Sha256] in
theorem report_trace : field "trace" r.toJson = some (.arr (r.trace.map TraceEvent.toJson)) := by
  rw [report_field r (by decide)]
  simp [Report.body, Dict.find]

/-- What passes under the root of a report is that report, with the bundle that
its only inspection hashed. -/
theorem verify_sound [CollisionFree]
    (hroot : r.report_root = digest "investigation" (object r.body))
    (h : verify value = .ok verdict) (hreport : field "report" value = some report)
    (hcarries : field "report_root" report = some (.str r.report_root)) :
    (∀ k, field k report = field k r.toJson) ∧
      ∀ record, field "source_snapshot" value = some record → record ≠ .null →
        ∃ bundle, field "bundle" record = some bundle ∧
          (inspections r).map TraceEvent.output_hash = [some (digest "tool-output" bundle)] := by
  obtain ⟨report', record', hschema, hreport', hrecord, hcheck, hsnapshot⟩ := verify_eq_ok.mp h
  rw [hreport] at hreport'
  cases hreport'
  have hsame := checkRoot_sound (report_extended r) hroot hcheck hcarries
  refine ⟨hsame, ?_⟩
  intro record hfield hnull
  obtain ⟨fields, rfl, hget⟩ := optionally_eq_ok.mp hrecord
  rw [show Dict.find "source_snapshot" fields = some record from hfield, Option.getD_some] at hget
  subst hget
  rw [if_neg hnull] at hsnapshot
  obtain ⟨bundle, hbundle, _, htrace⟩ := hsnapshot.1.bundle
  refine ⟨bundle, hbundle, ?_⟩
  rwa [checkTrace_eq_ok ((hsame "trace").trans report_trace)] at htrace

end Checks

section Exporting

variable [Sha256] (svc : Service) (env : Environment) (store : Option Workspace) (actor : Actor)
  (report_id : Identifier)

omit [Sha256] in
/-- Whether a check raises no `CaseworkError`; any other exception goes on. -/
def succeeds {α : Type} : Except CaseworkError α → Except CaseworkError Bool
  | .ok _ => .ok true
  | .error e => if e = backendUnavailable then .error e else .ok false

omit [Sha256] in
/-- The answer to an export. -/
def reportExport (report : Report) (bundle : Option Artifact) (current : Bool) :
    List (String × Json) :=
  [("schema_version", .str "casework-report-export/1"), ("report", report.toJson),
    ("source_snapshot", optional Artifact.toJson bundle), ("current", .bool current),
    ("scope", .str ("Hashes verify internal consistency, not external truth or " ++
      "independently authenticated authorship")), ("executable", .bool false)]

/-- `export_report`. -/
def exportReport : Except CaseworkError Json := do
  authorize actor [.owner, .investigator, .reviewer, .viewer] none
  let state ← load store actor.tenant_id
  let report ← fetch (state.reports.get? report_id) ⟨"REPORT_NOT_FOUND", 404⟩
  let case ← findCase state actor report.case_id
  let bundle := state.artifacts.get? (reportSourcesKey report_id)
  let current ← succeeds (validReport svc env state case report_id)
  return object (reportExport report bundle current)

end Exporting

section Answers

variable [Sha256] {svc : Service} {env : Environment} {w : Workspace} {case_id : Identifier}
  {c : RiskCase}

theorem currentReceipts_total (hw : Shaped w) (hc : w.cases.get? case_id = some c) (time : Instant)
    (specs : Dict Identifier SourceSpec) :
    ∃ found, currentReceipts w case_id time specs = .ok found := by
  obtain ⟨heads, hheads, _⟩ := Heads.evidenceHeads_ok hw.filed hc
  exact bind_total hheads (fetch_total hc ⟨_, rfl⟩)

/-- The context of a stored case is made, or refused for its policy. -/
theorem context_answers (hw : Shaped w) (hc : w.cases.get? case_id = some c)
    (desk : EvidenceDesk) (time : Instant) :
    context desk w case_id time ≠ .error backendUnavailable := by
  obtain ⟨found, hfound⟩ := currentReceipts_total hw hc time desk.specs
  have hpolicy : ∀ pol, effectivePolicy w c.case_id pol ≠ .error backendUnavailable := by
    simp [effectivePolicy, bind_eq_error, ensure_eq_error, conflict, backendUnavailable, pure,
      Except.pure]
  simp [context, item, hc, bind_eq_error, fetch, hpolicy, hfound, pure, Except.pure]

theorem reportContext_answers (hw : Shaped w) (hc : w.cases.get? case_id = some c)
    (desk : EvidenceDesk) (time : Instant) :
    reportContext desk w case_id time ≠ .error backendUnavailable := by
  intro h
  simp only [reportContext, item, hc, fetch, ok_bind] at h
  split at h
  · cases h
  · simp [bind_eq_error, context_answers hw hc, pure, Except.pure] at h

variable (svc env) in
/-- A check of a stored report fails with an error of the casework only. -/
theorem validReport_answers (hw : Shaped w) (hc : w.cases.get? c.case_id = some c)
    (report_id : Identifier) : validReport svc env w c report_id ≠ .error backendUnavailable := by
  obtain ⟨basis, hbasis⟩ := Heads.investigationBasis_total hw hc
  have hmissing : (⟨"REPORT_NOT_FOUND", 404⟩ : CaseworkError) ≠ backendUnavailable := by decide
  have hstale : conflict "STALE_INVESTIGATION" ≠ backendUnavailable := by decide
  have hguard : (⟨"SOURCE_GUARD_UNAVAILABLE", 503⟩ : CaseworkError) ≠ backendUnavailable := by
    decide
  have hevidence : ∀ desk r, validateReport desk w c r (env.clock .report) ≠
      .error backendUnavailable := by
    intro desk r h
    simp only [validateReport, bind_eq_error, reportContext_answers hw hc, false_or] at h
    obtain ⟨o, _, h⟩ := h
    cases o with
    | none => cases h
    | some value =>
      simp [bind_eq_error, ensure_eq_error, conflict, backendUnavailable] at h
  intro h
  simp only [validReport, bind_eq_error, fetch_eq_error, ensure_eq_error, hbasis, requireDesk,
    hmissing, hstale, hguard, and_false, false_or, reduceCtorEq] at h
  obtain ⟨r, _, _, _, _, _, _, _, _, _, _, _, h⟩ := h
  cases hdesk : svc.evidence_desk with
  | none => simp [hdesk, pure, Except.pure] at h
  | some desk =>
    simp [hdesk, bind_eq_error, hevidence, pure, Except.pure] at h

omit [Sha256] in
theorem succeeds_total {α : Type} {x : Except CaseworkError α} (h : x ≠ .error backendUnavailable) :
    ∃ b, succeeds x = .ok b := by
  cases x with
  | ok a => exact ⟨true, rfl⟩
  | error e =>
    have he : e ≠ backendUnavailable := fun heq => h (by rw [heq])
    exact ⟨false, if_neg he⟩

end Answers

section Agreement

variable [Sha256] {svc : Service} {env : Environment} {w : Workspace} {actor : Actor}
  {report_id : Identifier} {r : Report} {external : Option EvidenceContext} {value : Json}

theorem context_root {desk : EvidenceDesk} {case_id : Identifier} {time : Instant}
    {context : EvidenceContext} (h : SourceService.context desk w case_id time = .ok context) :
    context.bundle_root = digest "evidence-bundle" (object context.body) := by
  simp only [SourceService.context, item, bind_eq_ok, fetch_eq_ok, pure_eq_ok] at h
  obtain ⟨case, _, floor, _, ⟨receipts, rejected⟩, _, rfl⟩ := h
  rfl

/-- A stored report with the evidence it was made with, if there was any. -/
structure Holds (w : Workspace) (r : Report) (external : Option EvidenceContext) : Prop where
  root : r.report_root = digest "investigation" (object r.body)
  inspected : (inspections r).map TraceEvent.output_hash =
    (external.map fun context => some (digest "tool-output" context.toJson)).toList
  hashed : ∀ context ∈ external,
    context.bundle_root = digest "evidence-bundle" (object context.body)
  filed : w.artifacts.get? (reportSourcesKey r.report_id) =
    external.map fun context => .reportBundle (bundleOf r context)

/-- What the script answers to an export. -/
def verdictOf (external : Option EvidenceContext) : Json :=
  if external.isSome then boundVerdict else bareVerdict

omit [Sha256] in
theorem verdictOf_present : field "source_bundle_present" (verdictOf external) =
    some (.bool external.isSome) := by
  cases external with
  | none =>
    change field _ bareVerdict = _
    unfold bareVerdict
    rw [field_object (by simp)]
    rfl
  | some context =>
    change field _ boundVerdict = _
    unfold boundVerdict
    rw [field_object (by simp)]
    rfl

omit [Sha256] in
theorem bundle_field (context : EvidenceContext) {k : String} :
    field k (bundleOf r context).toJson = Dict.find k [("kind", .str "REPORT_EVIDENCE_BUNDLE"),
      ("report_id", .str r.report_id), ("case_id", .str r.case_id),
      ("report_root", .str r.report_root), ("bundle", context.toJson),
      ("authoritative", .bool false)] :=
  field_object (by simp) k

theorem snapshot_accepted {context : EvidenceContext} (h : Holds w r (some context)) :
    Snapshot r.toJson (bundleOf r context).toJson where
  report_id := by
    refine checkBound_eq_ok.mpr ⟨.str r.report_id, .str r.report_id, ?_, ?_, by simp⟩
    · rw [bundle_field]
      rfl
    · rw [report_field r (by decide)]
      rfl
  case_id := by
    refine checkBound_eq_ok.mpr ⟨.str r.case_id, .str r.case_id, ?_, ?_, by simp⟩
    · rw [bundle_field]
      rfl
    · rw [report_field r (by decide)]
      rfl
  report_root := by
    refine checkBound_eq_ok.mpr ⟨.str r.report_root, .str r.report_root, ?_, ?_, by simp⟩
    · rw [bundle_field]
      rfl
    · exact (report_extended r).field_added
  bundle := by
    refine ⟨context.toJson, ?_, ?_, ?_⟩
    · rw [bundle_field]
      rfl
    · exact checkRoot_complete (context_extended context) (h.hashed context rfl)
    · exact (checkTrace_eq_ok report_trace).mpr h.inspected

/-- The script accepts the export of a report that is stored with its evidence. -/
theorem verify_complete (h : Holds w r external) (current : Bool) :
    verify (object (reportExport r (w.artifacts.get? (reportSourcesKey r.report_id)) current)) =
      .ok (verdictOf external) := by
  refine verify_eq_ok.mpr ⟨r.toJson,
    optional Artifact.toJson (w.artifacts.get? (reportSourcesKey r.report_id)), ?_, ?_, ?_, ?_, ?_⟩
  · rw [optionally_object (by simp [reportExport])]
    rfl
  · rw [field_object (by simp [reportExport])]
    rfl
  · rw [optionally_object (by simp [reportExport])]
    rfl
  · exact checkRoot_complete (report_extended r) h.root
  · rw [h.filed]
    cases external with
    | none => rfl
    | some context =>
      have hsome : (bundleOf r context).toJson ≠ .null := by
        simp [ReportBundle.toJson, object]
      change if (bundleOf r context).toJson = .null then _ else _
      rw [if_neg hsome]
      exact ⟨snapshot_accepted h, rfl⟩

theorem exportReport_ok (h : exportReport svc env (some w) actor report_id = .ok value) :
    ∃ r current, w.reports.get? report_id = some r ∧
      value = object (reportExport r (w.artifacts.get? (reportSourcesKey report_id)) current) := by
  simp only [exportReport, load, bind_eq_ok, fetch_eq_ok, ensure_eq_ok, pure_eq_ok] at h
  obtain ⟨_, _, state, ⟨_, hload, _, _, _, _, rfl⟩, r, hr, case, _, current, _, rfl⟩ := h
  cases hload
  exact ⟨r, current, hr, rfl⟩

end Agreement

section Origins

variable [Sha256] [CollisionFree] {svc : Service} {env : Environment} {w m : Workspace}
  {call : Call} {result : Result} {report_id : Identifier} {r : Report}

/-- The call of an investigation that wrote a report on some evidence. -/
inductive Investigation (svc : Service) (env : Environment) (w m : Workspace) (r : Report)
    (external : Option EvidenceContext) : Call → Prop
  | mk {actor : Actor} {cmd : Command} {case_id : Identifier} {snapshot : Workspace}
      {planning : Planning} {inquiry : Inquiry}
      (captured : Captured svc env snapshot case_id inquiry)
      (drafted : draftReport env actor case_id snapshot inquiry planning = .ok r)
      (evidence : inquiry.external = external) (writes : Investigates w m r external) :
      Investigation svc env w m r external (.investigate actor cmd case_id snapshot planning)

omit [CollisionFree] in
theorem Investigation.investigates {external : Option EvidenceContext}
    (h : Investigation svc env w m r external call) : Investigates w m r external := by
  cases h
  assumption

/-- Nothing is written over the bundle of a report, nor is one added to it. -/
theorem bundle_kept {d e : Dict String Artifact} (hd : Filed d) (he : Filed e)
    (h : ∀ b, e.get? (reportSourcesKey report_id) = some (.reportBundle b) ↔
      d.get? (reportSourcesKey report_id) = some (.reportBundle b)) :
    e.get? (reportSourcesKey report_id) = d.get? (reportSourcesKey report_id) := by
  have honly : ∀ artifacts, Filed artifacts → ∀ a,
      artifacts.get? (reportSourcesKey report_id) = some a → ∃ b, a = .reportBundle b := by
    intro artifacts hfiled a ha
    have hdrawer : drawer a = .hashed "report-sources-key" :=
      inDrawer_unique (drawer_plain a) trivial (hfiled _ _ ha).inDrawer ⟨_, rfl⟩
    cases a with
    | reportBundle b => exact ⟨b, rfl⟩
    | _ => simp [drawer] at hdrawer
  obtain hnone | ⟨a, ha⟩ := Option.eq_none_or_eq_some (d.get? (reportSourcesKey report_id))
  · obtain hnone' | ⟨a', ha'⟩ := Option.eq_none_or_eq_some (e.get? (reportSourcesKey report_id))
    · rw [hnone, hnone']
    · obtain ⟨b, rfl⟩ := honly e he a' ha'
      rw [(h b).mp ha'] at hnone
      cases hnone
  · obtain ⟨b, rfl⟩ := honly d hd a ha
    rw [ha, (h b).mpr ha]

/-- A command either writes the report of an investigation or keeps every report
with its bundle. -/
theorem effect_reports (h : Effect svc env w call m result) (hw : Kept w) (hm : Filed m.artifacts)
    (hr : m.reports.get? report_id = some r) :
    (w.reports.get? report_id = some r ∧ m.artifacts.get? (reportSourcesKey report_id) =
      w.artifacts.get? (reportSourcesKey report_id)) ∨
      ∃ external, Investigation svc env w m r external call := by
  have hfiled : Filed w.artifacts := hw.filed
  have hkept : m.reports = w.reports → (∀ b,
      m.artifacts.get? (reportSourcesKey report_id) = some (.reportBundle b) ↔
        w.artifacts.get? (reportSourcesKey report_id) = some (.reportBundle b)) →
      w.reports.get? report_id = some r ∧ m.artifacts.get? (reportSourcesKey report_id) =
        w.artifacts.get? (reportSourcesKey report_id) := by
    intro hreports hbundles
    exact ⟨hreports ▸ hr, bundle_kept hfiled hm hbundles⟩
  cases h with
  | filed _ _ files =>
    exact Or.inl (hkept files.reports fun b => files.artifacts.bundle_iff hfiled)
  | reserved _ reserves =>
    obtain ⟨mid, hreserved⟩ := reserves_artifacts reserves hw.toShaped
    exact Or.inl (hkept reserves.reports fun b => hreserved.bundle_iff hw.toShaped)
  | @investigated actor cmd case_id snapshot planning _ _ inquiry report _ captured drafted
      investigates =>
    by_cases hid : report_id = report.report_id
    · subst hid
      rw [investigates.reports, Dict.get?_set_self] at hr
      cases hr
      exact Or.inr ⟨_, .mk captured drafted rfl investigates⟩
    · rw [investigates.reports, Dict.get?_set_of_ne _ _ (Ne.symm hid)] at hr
      refine Or.inl ⟨hr, bundle_kept hfiled hm fun b => ?_⟩
      obtain ⟨mid, hmid, hset⟩ := investigates.artifacts
      have hkeys : reportSourcesKey report.report_id ≠ reportSourcesKey report_id := by
        simp only [reportSourcesKey, ne_eq, digest_inj, Json.str.injEq, true_and]
        exact Ne.symm hid
      rw [← hmid.bundle_iff hfiled, hset]
      cases inquiry.external with
      | none => rfl
      | some context => rw [Dict.get?_set_of_ne _ _ hkeys]
  | handedOff _ handsOff =>
    exact Or.inl (hkept handsOff.reports fun b => by rw [handsOff.artifacts])
  | accepted _ accepts =>
    exact Or.inl (hkept accepts.reports fun b => by rw [accepts.artifacts])
  | evaluated _ _ _ _ decides =>
    exact Or.inl (hkept (by rw [decides.stored]; rfl)
      fun b => (decides_artifacts decides).bundle_iff hfiled)
  | registered _ _ _ _ decides =>
    exact Or.inl (hkept (by rw [decides.stored]; rfl)
      fun b => (decides_artifacts decides).bundle_iff hfiled)
  | baselineSet _ sets =>
    exact Or.inl (hkept sets.disturbs.reports fun b => by rw [sets.artifacts])
  | opened _ _ opens =>
    exact Or.inl (hkept opens.writes.disturbs.reports
      fun b => opens.writes.artifacts.bundle_iff hfiled)
  | ingested _ _ _ opens =>
    exact Or.inl (hkept opens.writes.disturbs.reports
      fun b => opens.writes.artifacts.bundle_iff hfiled)
  | reopened _ reopens =>
    exact Or.inl (hkept reopens.writes.disturbs.reports
      fun b => reopens.writes.artifacts.bundle_iff hfiled)
  | resolved _ resolves =>
    obtain ⟨start, hlinked, writes⟩ := resolves.writes
    refine Or.inl (hkept writes.disturbs.reports fun b => ?_)
    rw [writes.artifacts.bundle_iff (hlinked.filed hfiled), linked_bundles hlinked hw.toShaped]

/-- An investigation stores its report with the evidence it inspected. -/
theorem investigation_holds {external : Option EvidenceContext}
    (h : Investigation svc env w m r external call) (hw : Shaped w) : Holds m r external := by
  obtain @⟨actor, cmd, case_id, snapshot, planning, inquiry, hcaptured, _, rfl, hwrites⟩ := h
  obtain ⟨mid, hmid, hset⟩ := hwrites.artifacts
  refine ⟨hwrites.root, hwrites.inspected, ?_, ?_⟩
  · intro context hcontext
    cases hdesk : svc.evidence_desk with
    | none => simp [hcaptured.without hdesk] at hcontext
    | some desk =>
      have hreport := hcaptured.external desk hdesk
      rw [Option.mem_def.mp hcontext] at hreport
      exact context_root (reportContext_some hreport)
  · rw [hset]
    cases inquiry.external with
    | none => exact bundle_fresh hw hwrites.fresh hmid
    | some context => exact Dict.get?_set_self ..

variable {steps : List Step}

/-- The investigation of a run that made a report, and the evidence that its
`evidence.inspect` step hashed, if it had any. -/
def Made (steps : List Step) (r : Report) (external : Option EvidenceContext) : Prop :=
  ∃ before s w m tx result, before ++ [s] <+: steps ∧ Occurs before s w tx m result ∧
    Investigation s.svc s.env w m r external s.call

omit [CollisionFree] in
theorem Made.later {external : Option EvidenceContext} (h : Made steps r external)
    (s : Step) : Made (steps ++ [s]) r external := by
  obtain ⟨before, t, w, m, tx, result, hplace, hoccurs, hinvestigation⟩ := h
  exact ⟨before, t, w, m, tx, result, hplace.trans (List.prefix_append _ _), hoccurs,
    hinvestigation⟩

omit [CollisionFree] in
theorem Holds.of_same {external : Option EvidenceContext} (h : Holds w r external)
    (hsame : m.artifacts.get? (reportSourcesKey r.report_id) =
      w.artifacts.get? (reportSourcesKey r.report_id)) : Holds m r external :=
  ⟨h.root, h.inspected, h.hashed, hsame.trans h.filed⟩

/-- Every stored report was made by an investigation of the run, and is stored
with the evidence of that investigation. -/
theorem made_of_run {st : Option Workspace} (h : Run casework steps st) :
    ∀ w, st = some w → ∀ report_id r, w.reports.get? report_id = some r →
      ∃ external, Made steps r external ∧ Holds w r external := by
  induction h with
  | start =>
    intro w hw
    cases hw
  | @next steps s hrun hnow ih =>
    intro w hw report_id r hr
    have hw : s.post = some w := hw
    rcases step_cases hrun hnow with ⟨_, w0, tx, m, result, hh⟩ | ⟨_, hsame⟩
    · rw [hh.commits.post] at hw
      cases hw
      have hfiled := (effect_keeps hh.effect hh.kept hh.fresh).1.filed
      rcases effect_reports hh.effect hh.kept hfiled hr with ⟨hold, hbundle⟩ | ⟨external, hmade⟩
      · rcases hh.before with hbefore | ⟨_, tenant_id, rfl⟩
        · obtain ⟨external, hmade, hholds⟩ := ih w0 hbefore report_id r hold
          have hid := hh.kept.reports _ _ hold
          subst hid
          exact ⟨external, hmade.later s, hholds.of_same hbundle⟩
        · simp [sealed, Workspace.blank] at hold
      · have hholds : Holds (recorded s.env w0 m tx result) r external :=
          (investigation_holds hmade hh.kept.toShaped).of_same rfl
        exact ⟨external, ⟨steps, s, w0, m, tx, result, List.prefix_refl _, ⟨hh, hrun, hnow⟩, hmade⟩,
          hholds⟩
    · obtain ⟨external, hmade, hholds⟩ := ih w (hsame.symm.trans hw) report_id r hr
      exact ⟨external, hmade.later s, hholds⟩

/-- The case of a stored report is stored. -/
theorem case_of_made {external : Option EvidenceContext} (h : Run casework steps (some w))
    (hmade : Made steps r external) : ∃ c, w.cases.get? r.case_id = some c := by
  obtain ⟨before, s, w0, m, tx, result, ⟨after, hplace⟩, hoccurs, hinvestigation⟩ := hmade
  generalize hcall : s.call = call at hinvestigation
  obtain @⟨actor, cmd, case_id, snapshot, planning, inquiry, hcaptured, hdrafted, _, _⟩ :=
    hinvestigation
  obtain ⟨_, hcase, _⟩ := draftReport_ok hdrafted
  obtain ⟨t, ht, hpost⟩ := hoccurs.now.observed snapshot (by rw [hcall]; rfl)
  have hmem : t ∈ steps := by
    rw [← hplace]
    simp [ht]
  obtain ⟨first, rest, rfl, hfirst⟩ := stored_before h ⟨t, hmem, hpost⟩
  obtain ⟨w', hw', hgrows⟩ := run_extends hfirst h snapshot rfl
  cases hw'
  obtain ⟨c, hc, _⟩ := hgrows.cases _ _ hcaptured.case
  exact ⟨c, hcase ▸ hc⟩

end Origins

section Exchange

variable [Sha256] [CollisionFree] {steps : List Step} {w : Workspace} {report_id : Identifier}
  {r : Report} {external : Option EvidenceContext}

/-- Dictionaries are equal when every key has the same value in both. -/
def SameFields (v v' : Json) : Prop := ∀ k, field k v = field k v'

/-- Who can see a case can export its reports. -/
theorem exportReport_total (h : Run casework steps (some w))
    (hr : w.reports.get? report_id = some r) {c : RiskCase}
    (hc : w.cases.get? r.case_id = some c) (svc : Service) (env : Environment) {actor : Actor}
    (hrole : actor.role ∈ [.owner, .investigator, .reviewer, .viewer])
    (htenant : w.tenant_id = actor.tenant_id) (hsubject : c.scope.subject_id ∈ actor.subjects) :
    ∃ value, exportReport svc env (some w) actor report_id = .ok value := by
  have hw := (kept_of_run h w rfl).toShaped
  have hauthorized : authorize actor [.owner, .investigator, .reviewer, .viewer] none = .ok () :=
    if_pos ⟨hrole, by simp⟩
  have hload : load (some w) actor.tenant_id = .ok w := by
    have hvalid := validateWorkspace_ok hw (coherent_of_run h w rfl)
    simp [load, fetch, hvalid, ensure, htenant, bind, Except.bind, pure, Except.pure]
  have hid : w.cases.get? c.case_id = some c := by rw [hw.cases _ _ hc, hc]
  obtain ⟨current, hcurrent⟩ := succeeds_total
    (validReport_answers svc env hw hid report_id)
  refine bind_total hauthorized (bind_total hload (fetch_total hr ?_))
  exact bind_total (Progress.findCase_total hc hsubject) (bind_total hcurrent ⟨_, rfl⟩)

/-- The export of a stored report passes the script, which tells whether the report was
made with evidence; and what passes with the root of the report is the report, with the
evidence that its investigation inspected. -/
theorem exports_agree (h : Run casework steps (some w))
    (hr : w.reports.get? report_id = some r) : ∃ external, Made steps r external ∧
      (∃ c, w.cases.get? r.case_id = some c ∧ ∀ (svc : Service) (env : Environment) (actor : Actor),
        actor.role ∈ [.owner, .investigator, .reviewer, .viewer] → w.tenant_id = actor.tenant_id →
          c.scope.subject_id ∈ actor.subjects →
            ∃ value, exportReport svc env (some w) actor report_id = .ok value) ∧
      (∀ svc env actor value, exportReport svc env (some w) actor report_id = .ok value →
        ∃ verdict, verify value = .ok verdict ∧
          field "source_bundle_present" verdict = some (.bool external.isSome)) ∧
      ∀ value verdict report, verify value = .ok verdict → field "report" value = some report →
        field "report_root" report = some (.str r.report_root) →
          SameFields report r.toJson ∧
            ∀ record, field "source_snapshot" value = some record → record ≠ .null →
              ∃ context ∈ external, field "bundle" record = some context.toJson := by
  obtain ⟨external, hmade, hholds⟩ := made_of_run h w rfl report_id r hr
  obtain ⟨c, hc⟩ := case_of_made h hmade
  refine ⟨external, hmade, ⟨c, hc, ?_⟩, ?_, ?_⟩
  · intro svc env actor hrole htenant hsubject
    exact exportReport_total h hr hc svc env hrole htenant hsubject
  · intro svc env actor value hvalue
    obtain ⟨r', current, hr', rfl⟩ := exportReport_ok hvalue
    rw [hr] at hr'
    cases hr'
    have hid := (kept_of_run h w rfl).reports _ _ hr
    subst hid
    exact ⟨verdictOf external, verify_complete hholds current, verdictOf_present⟩
  · intro value verdict report hverify hreport hcarries
    obtain ⟨hsame, hbundle⟩ := verify_sound hholds.root hverify hreport hcarries
    refine ⟨hsame, ?_⟩
    intro record hrecord hnull
    obtain ⟨bundle, hfield, hhashed⟩ := hbundle record hrecord hnull
    rw [hholds.inspected] at hhashed
    cases external with
    | none => simp at hhashed
    | some context =>
      simp only [Option.map_some, Option.toList_some, List.cons.injEq, and_true, Option.some.injEq,
        digest_inj, true_and] at hhashed
      exact ⟨context, rfl, hhashed ▸ hfield⟩

omit [Sha256] [CollisionFree] in
/-- The owner exports a report that was made with the evidence of a tracker. -/
theorem evidenced_export_accepted : letI := spelling
    ∃ steps w report_id r context value verdict, Run casework steps (some w) ∧
      w.reports.get? report_id = some r ∧ Made steps r (some context) ∧
      exportReport (Sourcing.connected [Sourcing.demand]) ⟨fun _ => 0, fun s => s⟩ (some w)
        Crew.owner report_id = .ok value ∧
      verify value = .ok verdict ∧ field "source_bundle_present" verdict = some (.bool true) := by
  let _ := spelling
  have := spelling_collisionFree
  obtain ⟨_, _, _, w, c, _, value, h⟩ := Sourcing.exists_examined
  obtain ⟨report, _, _, hreview⟩ := ReviewPath.review_of_examined h
  have hrun := hreview.run
  have hr := hreview.reported
  obtain ⟨external, hmade, ⟨c', hc', hexports⟩, haccepts, _⟩ := exports_agree hrun hr
  have hcase : c' = c := by
    rw [hreview.about, hreview.stored] at hc'
    exact (Option.some.inj hc').symm
  have hsubject : c'.scope.subject_id ∈ Crew.owner.subjects := by
    rw [hcase, h.scope]
    simp [Crew.transfers, Crew.owner]
  obtain ⟨exported, hexported⟩ := hexports (Sourcing.connected [Sourcing.demand])
    ⟨fun _ => 0, fun s => s⟩ Crew.owner (by simp [Crew.owner]) hreview.tenant hsubject
  obtain ⟨verdict, hverdict, hpresent⟩ := haccepts _ _ _ _ hexported
  have hinspected : (inspections report).map TraceEvent.output_hash =
      (external.map fun context => some (digest "tool-output" context.toJson)).toList := by
    obtain ⟨_, _, _, _, _, _, _, _, hinvestigation⟩ := hmade
    exact hinvestigation.investigates.inspected
  rw [hreview.inspected] at hinspected
  cases external with
  | none => simp at hinspected
  | some context =>
    exact ⟨_, w, _, report, context, exported, verdict, hrun, hr, hmade, hexported, hverdict,
      hpresent⟩

end Exchange

end MemoryGuard.Exports
