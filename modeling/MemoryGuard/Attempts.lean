import MemoryGuard.Permanence

/-!
Commands over a store whose writes can fail. The write that ends a transaction
is stored, or it raises, before the workspace was stored or after it; whoever
asked then knows neither. Retries under one key are carried out at most once
and agree in what they answer, and a schedule of calls leaves nothing in the
store that calls without such failures do not leave.
-/
namespace MemoryGuard.Attempts

open OrderedDict Guarded JsonText ContentHash Models Artifacts Aggregate Core Closure
open Transactions Traces Calls Filing Effects Growth Upkeep Lifecycle History

section Writes

/-- What becomes of the write of a transaction. A process that dies there is one
whose write raised. -/
inductive Write
  | stored
  | raised (kept : Bool)

def writeUncertain : CaseworkError := ⟨"MEMORY_WRITE_UNCERTAIN", 503⟩

/-- The store and the answer that a transaction leaves. Only an answer that is
not replayed comes after a write. -/
def settle (write : Write) (store : Option Workspace) :
    Except CaseworkError (Option Workspace × Response) →
      Option Workspace × Except CaseworkError Response
  | .error e => (store, .error e)
  | .ok (next, response) =>
    if response.replayed then (store, .ok response)
    else match write with
      | .stored => (next, .ok response)
      | .raised true => (next, .error writeUncertain)
      | .raised false => (store, .error writeUncertain)

theorem settle_cases {write : Write} {store post : Option Workspace}
    {ran : Except CaseworkError (Option Workspace × Response)}
    {answered : Except CaseworkError Response} (h : settle write store ran = (post, answered)) :
    (∃ next response, ran = .ok (next, response) ∧ response.replayed = false ∧ post = next ∧
        (answered = .ok response ∨ answered = .error writeUncertain)) ∨
      (∃ next response, ran = .ok (next, response) ∧ response.replayed = true ∧ post = store ∧
        answered = .ok response) ∨
      (post = store ∧ ∃ e, answered = .error e ∧ (ran = .error e ∨ e = writeUncertain)) := by
  unfold settle at h
  split at h
  · rename_i e
    cases h
    exact Or.inr (Or.inr ⟨rfl, e, rfl, Or.inl rfl⟩)
  · rename_i next response
    split at h
    · rename_i hreplayed
      cases h
      exact Or.inr (Or.inl ⟨next, response, rfl, hreplayed, rfl, rfl⟩)
    · rename_i hreplayed
      have hnew : response.replayed = false := by simpa using hreplayed
      cases write with
      | stored =>
        cases h
        exact Or.inl ⟨post, response, rfl, hnew, rfl, Or.inl rfl⟩
      | raised kept =>
        cases kept with
        | true =>
          cases h
          exact Or.inl ⟨post, response, rfl, hnew, rfl, Or.inr rfl⟩
        | false =>
          cases h
          exact Or.inr (Or.inr ⟨rfl, writeUncertain, rfl, Or.inr rfl⟩)

end Writes

section Commands

variable [Sha256]

/-- A command that some process asks for, and what it comes to. -/
structure Attempt where
  svc : Service
  env : Environment
  tx : Transaction
  write : Write
  pre : Option Workspace
  post : Option Workspace
  answered : Except CaseworkError Response

/-- Commands of any actors and processes over the store of one tenant, in the
order in which they hold its lock. -/
def attempting : System (Option Workspace) Attempt where
  init := none
  pre := Attempt.pre
  post := Attempt.post
  allowed _ a := settle a.write a.pre (mutate a.svc a.env a.pre a.tx) = (a.post, a.answered)

def revisionOf : Option Workspace → ℕ
  | none => 0
  | some w => w.revision

def auditOf : Option Workspace → List Event
  | none => []
  | some w => w.audit

def answersOf : Option Workspace → Dict Digest IdempotencyEntry
  | none => .empty
  | some w => w.idempotency

theorem loaded_view {store : Option Workspace} {tx : Transaction} {w : Workspace}
    (h : loaded store tx = .ok w) :
    w.revision = revisionOf store ∧ w.audit = auditOf store ∧ w.idempotency = answersOf store := by
  rcases loaded_cases h with rfl | ⟨rfl, tenant_id, rfl⟩
  · exact ⟨rfl, rfl, rfl⟩
  · exact ⟨rfl, rfl, rfl⟩

/-- The command was carried out on `w`, where its key was new. -/
structure Carried (a : Attempt) (w m : Workspace) (result : Result) : Prop where
  loaded : loaded a.pre a.tx = .ok w
  new : w.idempotency.get? a.tx.key = none
  admitted : preconditions w a.tx = .ok ()
  changed : a.tx.change w (w.revision + 1) = .ok (m, result)
  post : a.post = some (recorded a.env w m a.tx result)
  answered : a.answered = .ok (answer (auditEvent a.env w a.tx result) result) ∨
    a.answered = .error writeUncertain

/-- The command was answered from the store. -/
structure Repeated (a : Attempt) (w : Workspace) (previous : IdempotencyEntry)
    (response : Response) : Prop where
  loaded : loaded a.pre a.tx = .ok w
  stored : w.idempotency.get? a.tx.key = some previous
  replayed : replay a.env w a.tx previous = .ok response
  post : a.post = a.pre
  answered : a.answered = .ok response

theorem mutate_cases {svc : Service} {env : Environment} {store next : Option Workspace}
    {tx : Transaction} {response : Response} (h : mutate svc env store tx = .ok (next, response)) :
    (∃ w m result, loaded store tx = .ok w ∧ w.idempotency.get? tx.key = none ∧
        preconditions w tx = .ok () ∧ tx.change w (w.revision + 1) = .ok (m, result) ∧
        next = some (recorded env w m tx result) ∧
        response = answer (auditEvent env w tx result) result) ∨
      ∃ w previous, loaded store tx = .ok w ∧ w.idempotency.get? tx.key = some previous ∧
        replay env w tx previous = .ok response ∧ next = store := by
  simp only [mutate, bind_eq_ok] at h
  obtain ⟨w, hloaded, _, _, _, _, _, _, h⟩ := h
  split at h
  · rename_i previous hprevious
    simp only [bind_eq_ok, pure_eq_ok, Prod.mk.injEq] at h
    obtain ⟨response', hreplay, rfl, rfl⟩ := h
    exact Or.inr ⟨w, previous, hloaded, hprevious, hreplay, rfl⟩
  · rename_i hnew
    simp only [bind_eq_ok, pure_eq_ok, Prod.mk.injEq] at h
    obtain ⟨_, hadmitted, ⟨m, result⟩, hchange, _, _, rfl, rfl⟩ := h
    exact Or.inl ⟨w, m, result, hloaded, hnew, hadmitted, hchange, rfl, rfl⟩

/-- A command is carried out, answered from the store, or refused without a trace. -/
theorem attempt_cases {steps : List Attempt} {a : Attempt} (h : attempting.allowed steps a) :
    (∃ w m result, Carried a w m result) ∨ (∃ w previous response, Repeated a w previous response) ∨
      (a.post = a.pre ∧ ∃ e, a.answered = .error e) := by
  rcases settle_cases h with ⟨next, response, hran, hnew, hpost, hanswered⟩ |
    ⟨next, response, hran, hreplayed, hpost, hanswered⟩ | ⟨hpost, e, hanswered, _⟩
  · rcases mutate_cases hran with ⟨w, m, result, hloaded, hfree, hadmitted, hchanged, hnext,
      hresponse⟩ | ⟨w, previous, hloaded, hstored, hreplay, hnext⟩
    · subst hresponse
      exact Or.inl ⟨w, m, result, hloaded, hfree, hadmitted, hchanged, hpost.trans hnext,
        hanswered⟩
    · rw [replay_replayed hreplay] at hnew
      cases hnew
  · rcases mutate_cases hran with ⟨w, m, result, _, _, _, _, _, hresponse⟩ |
      ⟨w, previous, hloaded, hstored, hreplay, hnext⟩
    · subst hresponse
      cases hreplayed
    · exact Or.inr (Or.inl ⟨w, previous, response, hloaded, hstored, hreplay, hpost, hanswered⟩)
  · exact Or.inr (Or.inr ⟨hpost, e, hanswered⟩)

end Commands

section Accounts

variable [Sha256]

/-- Whether an attempt moved the store on to its next event. -/
def Attempt.committed (a : Attempt) : Bool := decide (revisionOf a.post ≠ revisionOf a.pre)

/-- What a caller retries under. -/
def Attempt.retryKey (a : Attempt) : Identifier × Identifier :=
  (a.tx.actor.actor_id, a.tx.command.idempotency_key)

/-- The actor, the command and the request of an attempt, as its event has them. -/
def Attempt.signed (a : Attempt) : Identifier × String × Digest :=
  (a.tx.actor.actor_id, a.tx.name, a.tx.fingerprint)

omit [Sha256] in
def signedBy (e : Event) : Identifier × String × Digest := (e.actor_id, e.command, e.request_hash)

/-- Whether the expected revision is the precondition of an attempt. -/
def Attempt.expects (a : Attempt) : Bool := a.committed && a.tx.relevant_basis.isNone

omit [Sha256] in
/-- Equal answers, apart from the marks of a replayed one. -/
structure SameAnswer (r r' : Response) : Prop where
  result : r.result = r'.result
  revision : r.revision = r'.revision
  event_hash : r.event_hash = r'.event_hash

omit [Sha256] in
theorem SameAnswer.refl (r : Response) : SameAnswer r r := ⟨rfl, rfl, rfl⟩

omit [Sha256] in
theorem SameAnswer.join {r r' s : Response} (h : SameAnswer r s) (h' : SameAnswer r' s) :
    SameAnswer r r' :=
  ⟨h.result.trans h'.result.symm, h.revision.trans h'.revision.symm,
    h.event_hash.trans h'.event_hash.symm⟩

theorem key_of_retryKey {a b : Attempt} (h : a.retryKey = b.retryKey) : a.tx.key = b.tx.key := by
  simp only [Attempt.retryKey, Prod.mk.injEq] at h
  simp only [Transaction.key, h.1, h.2]

variable {a : Attempt} {w m : Workspace} {result : Result}

theorem Carried.revisions (h : Carried a w m result) :
    revisionOf a.post = revisionOf a.pre + 1 := by
  rw [h.post, ← (loaded_view h.loaded).1]
  rfl

theorem Carried.committed (h : Carried a w m result) : a.committed = true := by
  have hnext := h.revisions
  simp only [Attempt.committed, decide_eq_true_eq]
  omega

omit [Sha256] in
theorem not_committed (h : a.post = a.pre) : a.committed = false := by
  simp [Attempt.committed, h]

theorem Carried.audit (h : Carried a w m result) :
    auditOf a.post = auditOf a.pre ++ [auditEvent a.env w a.tx result] := by
  rw [h.post, ← (loaded_view h.loaded).2.1]
  rfl

theorem Carried.answers (h : Carried a w m result) :
    answersOf a.post = (answersOf a.pre).set a.tx.key
      ⟨a.tx.fingerprint, answer (auditEvent a.env w a.tx result) result⟩ := by
  rw [h.post, ← (loaded_view h.loaded).2.2]
  rfl

theorem Carried.free (h : Carried a w m result) : (answersOf a.pre).get? a.tx.key = none := by
  rw [← (loaded_view h.loaded).2.2]
  exact h.new

theorem Carried.says (h : Carried a w m result) {r : Response} (hr : a.answered = .ok r) :
    r = answer (auditEvent a.env w a.tx result) result := by
  rcases h.answered with hok | herror
  · exact Except.ok.inj (hr.symm.trans hok)
  · rw [hr] at herror
    cases herror

/-- The precondition that was checked is the expected revision. -/
theorem Carried.expected (h : Carried a w m result) (hnone : a.tx.relevant_basis = none) :
    revisionOf a.pre = a.tx.command.expected_revision := by
  have hadmitted := h.admitted
  simp only [preconditions, hnone, bind_eq_ok, ensure_eq_ok] at hadmitted
  obtain ⟨_, hrevision, _⟩ := hadmitted
  rw [← (loaded_view h.loaded).1]
  exact hrevision

theorem Repeated.says {previous : IdempotencyEntry} {response : Response}
    (h : Repeated a w previous response) :
    (answersOf a.pre).get? a.tx.key = some previous ∧
      previous.request_hash = a.tx.fingerprint ∧ SameAnswer response previous.response := by
  rw [← (loaded_view h.loaded).2.2]
  have hreplayed := h.replayed
  simp only [replay, bind_eq_ok, ensure_eq_ok] at hreplayed
  obtain ⟨_, hhash, hreplayed⟩ := hreplayed
  refine ⟨h.stored, hhash, ?_⟩
  split at hreplayed
  · simp only [bind_eq_ok, pure_eq_ok] at hreplayed
    obtain ⟨_, _, rfl⟩ := hreplayed
    exact ⟨rfl, rfl, rfl⟩
  · simp only [pure_eq_ok] at hreplayed
    exact hreplayed ▸ ⟨rfl, rfl, rfl⟩

end Accounts

section Runs

variable [Sha256] {steps : List Attempt} {st : Option Workspace}

/-- The attempts of a run that went into the audit trail. -/
def committed (steps : List Attempt) : List Attempt := steps.filter Attempt.committed

/-- What the store and the callers hold agrees on what was carried out. -/
structure Accounted (steps : List Attempt) (st : Option Workspace) : Prop where
  revision : revisionOf st = (auditOf st).length
  audit : (auditOf st).map signedBy = (committed steps).map Attempt.signed
  spent : ∀ a ∈ committed steps, ∃ e, (answersOf st).get? a.tx.key = some e ∧
    e.request_hash = a.tx.fingerprint
  once : ((committed steps).map Attempt.retryKey).Nodup
  answered : ∀ a ∈ steps, ∀ r, a.answered = .ok r → ∃ e,
    (answersOf st).get? a.tx.key = some e ∧ e.request_hash = a.tx.fingerprint ∧
      SameAnswer r e.response
  backed : ∀ key e, (answersOf st).get? key = some e → ∃ event ∈ auditOf st,
    event.request_hash = e.request_hash ∧ event.seq = e.response.revision ∧
      event.event_hash = e.response.event_hash
  ordered : ((steps.filter Attempt.expects).map (·.tx.command.expected_revision)).Pairwise (· < ·)
  passed : ∀ a ∈ steps, a.expects = true → a.tx.command.expected_revision < revisionOf st

theorem accounted_nil : Accounted [] none where
  revision := rfl
  audit := rfl
  spent := by simp [committed]
  once := by simp [committed]
  answered := by simp
  backed := by simp [answersOf]
  ordered := by simp
  passed := by simp

/-- An attempt that leaves the store alone is accounted for by its answer. -/
theorem Accounted.same {a : Attempt} (h : Accounted steps a.pre) (hpost : a.post = a.pre)
    (hanswered : ∀ r, a.answered = .ok r → ∃ e, (answersOf a.pre).get? a.tx.key = some e ∧
      e.request_hash = a.tx.fingerprint ∧ SameAnswer r e.response) :
    Accounted (steps ++ [a]) a.post := by
  have hnot := not_committed hpost
  have hcommitted : committed (steps ++ [a]) = committed steps := by
    simp [committed, List.filter_append, hnot]
  have hexpects : (steps ++ [a]).filter Attempt.expects = steps.filter Attempt.expects := by
    simp [List.filter_append, Attempt.expects, hnot]
  rw [hpost]
  refine ⟨h.revision, hcommitted ▸ h.audit, hcommitted ▸ h.spent, hcommitted ▸ h.once, ?_,
    h.backed, hexpects ▸ h.ordered, ?_⟩
  · intro b hb r hr
    rcases List.mem_append.mp hb with hold | hnew
    · exact h.answered b hold r hr
    · cases List.mem_singleton.mp hnew
      exact hanswered r hr
  · intro b hb hexpect
    rcases List.mem_append.mp hb with hold | hnew
    · exact h.passed b hold hexpect
    · cases List.mem_singleton.mp hnew
      simp [Attempt.expects, hnot] at hexpect

/-- A command that is carried out adds its event and its answer to the accounts. -/
theorem Accounted.carried {a : Attempt} {w m : Workspace} {result : Result}
    (h : Accounted steps a.pre) (hc : Carried a w m result) : Accounted (steps ++ [a]) a.post := by
  have hyes := hc.committed
  have hcommitted : committed (steps ++ [a]) = committed steps ++ [a] := by
    simp [committed, List.filter_append, hyes]
  -- Whatever was answered under another key before still is.
  have hkept : ∀ key e, (answersOf a.pre).get? key = some e →
      (answersOf a.post).get? key = some e := by
    intro key e he
    have hne : a.tx.key ≠ key := by
      rintro rfl
      rw [hc.free] at he
      cases he
    rw [hc.answers, Dict.get?_set_of_ne _ _ hne, he]
  have hnow : (answersOf a.post).get? a.tx.key =
      some ⟨a.tx.fingerprint, answer (auditEvent a.env w a.tx result) result⟩ := by
    rw [hc.answers]
    exact Dict.get?_set_self ..
  refine ⟨?_, ?_, ?_, ?_, ?_, ?_, ?_, ?_⟩
  · rw [hc.revisions, hc.audit, h.revision, List.length_append]
    rfl
  · rw [hc.audit, hcommitted, List.map_append, List.map_append, h.audit]
    rfl
  · intro b hb
    rw [hcommitted] at hb
    rcases List.mem_append.mp hb with hold | hnew
    · obtain ⟨e, he, hhash⟩ := h.spent b hold
      exact ⟨e, hkept _ e he, hhash⟩
    · cases List.mem_singleton.mp hnew
      exact ⟨_, hnow, rfl⟩
  · rw [hcommitted, List.map_append, List.map_singleton, List.nodup_append]
    refine ⟨h.once, by simp, ?_⟩
    intro key hkey key' hkey' heq
    obtain ⟨b, hb, rfl⟩ := List.mem_map.mp hkey
    rw [List.mem_singleton.mp hkey'] at heq
    obtain ⟨e, he, _⟩ := h.spent b hb
    rw [key_of_retryKey heq, hc.free] at he
    cases he
  · intro b hb r hr
    rcases List.mem_append.mp hb with hold | hnew
    · obtain ⟨e, he, hsame⟩ := h.answered b hold r hr
      exact ⟨e, hkept _ e he, hsame⟩
    · cases List.mem_singleton.mp hnew
      exact ⟨_, hnow, rfl, hc.says hr ▸ SameAnswer.refl _⟩
  · intro key e he
    rw [hc.answers, Dict.get?_set] at he
    split at he
    · cases he
      exact ⟨_, by rw [hc.audit]; simp, rfl, rfl, rfl⟩
    · obtain ⟨event, hevent, hbacks⟩ := h.backed key e he
      exact ⟨event, by rw [hc.audit]; exact List.mem_append_left _ hevent, hbacks⟩
  · rw [List.filter_append, List.map_append, List.pairwise_append]
    refine ⟨h.ordered, ?_, ?_⟩
    · simp only [List.filter_cons, List.filter_nil]
      split <;> simp
    · intro n hn n' hn'
      obtain ⟨b, hb, rfl⟩ := List.mem_map.mp hn
      obtain ⟨b', hb', rfl⟩ := List.mem_map.mp hn'
      obtain ⟨hbmem, hbexpects⟩ := List.mem_filter.mp hb
      obtain ⟨hmem', hexpects'⟩ := List.mem_filter.mp hb'
      cases List.mem_singleton.mp hmem'
      have hbefore := h.passed b hbmem hbexpects
      simp only [Attempt.expects, Bool.and_eq_true, Option.isNone_iff_eq_none] at hexpects'
      have hhere := hc.expected hexpects'.2
      omega
  · intro b hb hexpect
    rw [hc.revisions]
    rcases List.mem_append.mp hb with hold | hnew
    · have hbefore := h.passed b hold hexpect
      omega
    · cases List.mem_singleton.mp hnew
      simp only [Attempt.expects, Bool.and_eq_true, Option.isNone_iff_eq_none] at hexpect
      have hhere := hc.expected hexpect.2
      omega

theorem accounted_of_run (h : Run attempting steps st) : Accounted steps st := by
  induction h with
  | start => exact accounted_nil
  | next hrun hnow ih =>
    rcases attempt_cases hnow with ⟨w, m, result, hc⟩ | ⟨w, previous, response, hr⟩ |
      ⟨hpost, e, herror⟩
    · exact ih.carried hc
    · refine ih.same hr.post ?_
      intro r hanswer
      rw [hr.answered] at hanswer
      cases hanswer
      obtain ⟨hstored, hhash, hsame⟩ := hr.says
      exact ⟨previous, hstored, hhash, hsame⟩
    · refine ih.same hpost ?_
      intro r hanswer
      rw [herror] at hanswer
      cases hanswer

/-- Everyone who is answered under a key is told the same. -/
theorem Accounted.agree (h : Accounted steps st) {a b : Attempt} (ha : a ∈ steps) (hb : b ∈ steps)
    (hkey : a.retryKey = b.retryKey) {r r' : Response} (hr : a.answered = .ok r)
    (hr' : b.answered = .ok r') : SameAnswer r r' := by
  obtain ⟨e, he, _, hsame⟩ := h.answered a ha r hr
  obtain ⟨e', he', _, hsame'⟩ := h.answered b hb r' hr'
  rw [key_of_retryKey hkey, he'] at he
  cases he
  exact hsame.join hsame'

theorem Accounted.counted (h : Accounted steps st) :
    (auditOf st).length = (committed steps).length := by
  have hlength := congrArg List.length h.audit
  simpa using hlength

/-- The audit trail has the commands that were carried out, each key at most
once, and everyone who was answered under a key was told the same, which the
trail bears out. -/
theorem exactly_once (h : Run attempting steps st) :
    (auditOf st).map signedBy = (committed steps).map Attempt.signed ∧
      ((committed steps).map Attempt.retryKey).Nodup ∧
      (∀ a ∈ steps, ∀ b ∈ steps, a.retryKey = b.retryKey →
        ∀ r r', a.answered = .ok r → b.answered = .ok r' → SameAnswer r r') ∧
      ∀ a ∈ steps, ∀ r, a.answered = .ok r → ∃ event ∈ auditOf st,
        event.request_hash = a.tx.fingerprint ∧ event.seq = r.revision ∧
          event.event_hash = r.event_hash := by
  have haccounts := accounted_of_run h
  refine ⟨haccounts.audit, haccounts.once,
    fun a ha b hb hkey r r' hr hr' => haccounts.agree ha hb hkey hr hr', ?_⟩
  intro a ha r hr
  obtain ⟨e, he, hhash, hsame⟩ := haccounts.answered a ha r hr
  obtain ⟨event, hevent, hrequest, hseq, hroot⟩ := haccounts.backed _ e he
  exact ⟨event, hevent, hrequest.trans hhash, hseq.trans hsame.revision.symm,
    hroot.trans hsame.event_hash.symm⟩

/-- Every attempt of a run was made after the attempts before it. -/
theorem attempted {a : Attempt} (h : Run attempting steps st) (ha : a ∈ steps) :
    (∃ w m result, Carried a w m result) ∨ (∃ w previous response, Repeated a w previous response) ∨
      (a.post = a.pre ∧ ∃ e, a.answered = .error e) := by
  obtain ⟨before, after, rfl⟩ := List.append_of_mem ha
  exact attempt_cases h.at_step.2.1

/-- A command that names the revision it expects is carried out there. -/
theorem expected_of_run {a : Attempt} (h : Run attempting steps st) (ha : a ∈ steps)
    (hexpects : a.expects = true) : revisionOf a.pre = a.tx.command.expected_revision := by
  simp only [Attempt.expects, Bool.and_eq_true, Option.isNone_iff_eq_none] at hexpects
  rcases attempted h ha with ⟨w, m, result, hc⟩ | ⟨w, previous, response, hr⟩ | ⟨hpost, _⟩
  · exact hc.expected hexpects.2
  · rw [not_committed hr.post] at hexpects
    cases hexpects.1
  · rw [not_committed hpost] at hexpects
    cases hexpects.1

/-- A command that fails leaves the store alone, or complete. -/
theorem failed_of_run {a : Attempt} {e : CaseworkError} (h : Run attempting steps st)
    (ha : a ∈ steps) (he : a.answered = .error e) : a.post = a.pre ∨ (e = writeUncertain ∧
      ∃ w m result, loaded a.pre a.tx = .ok w ∧
        a.tx.change w (w.revision + 1) = .ok (m, result) ∧
        a.post = some (recorded a.env w m a.tx result)) := by
  rcases attempted h ha with ⟨w, m, result, hc⟩ | ⟨w, previous, response, hr⟩ | ⟨hpost, _⟩
  · rcases hc.answered with hok | herror
    · rw [he] at hok
      cases hok
    · rw [he] at herror
      cases herror
      exact Or.inr ⟨rfl, w, m, result, hc.loaded, hc.changed, hc.post⟩
  · exact Or.inl hr.post
  · exact Or.inl hpost

/-- The revision counts the commands that were carried out. Those that name the
revision they expect are carried out in its order, each on the state it names,
and a command that fails leaves the store alone, or complete when its write is
uncertain. -/
theorem no_lost_update (h : Run attempting steps st) :
    revisionOf st = (auditOf st).length ∧ revisionOf st = (committed steps).length ∧
      ((steps.filter Attempt.expects).map (·.tx.command.expected_revision)).Pairwise (· < ·) ∧
      (∀ a ∈ steps, a.expects = true → revisionOf a.pre = a.tx.command.expected_revision) ∧
      ∀ a ∈ steps, ∀ e, a.answered = .error e → a.post = a.pre ∨ (e = writeUncertain ∧
        ∃ w m result, loaded a.pre a.tx = .ok w ∧
          a.tx.change w (w.revision + 1) = .ok (m, result) ∧
          a.post = some (recorded a.env w m a.tx result)) := by
  have haccounts := accounted_of_run h
  exact ⟨haccounts.revision, haccounts.revision.trans haccounts.counted, haccounts.ordered,
    fun a ha => expected_of_run h ha, fun a ha e => failed_of_run h ha⟩

end Runs

section Reuse

variable [Sha256]

/-- What a command answers once its key is spent on another request: an error,
and no other error than the conflict once the checks before it pass. -/
def RefusesReuse (a : Attempt) : Prop :=
  (∃ e, a.answered = .error e) ∧ ∀ w, loaded a.pre a.tx = .ok w → validateWorkspace w = .ok () →
    w.tenant_id = a.tx.actor.tenant_id → recheckScopes w a.tx = .ok () →
      a.answered = .error (conflict "IDEMPOTENCY_CONFLICT")

/-- What a command asks for: its name, the session it comes from and its payload. -/
def Attempt.request (a : Attempt) : String × Identifier × Json :=
  (a.tx.name, a.tx.command.session_id, object a.tx.payload)

theorem fingerprint_eq_iff [CollisionFree] {a b : Attempt}
    (hactor : b.tx.actor.actor_id = a.tx.actor.actor_id) :
    b.tx.fingerprint = a.tx.fingerprint ↔ b.request = a.request := by
  constructor
  · intro h
    simp only [Transaction.fingerprint, requestHash, digest_inj, true_and] at h
    have hfields := object_inj h rfl
    simp only [List.cons.injEq, Prod.mk.injEq, Json.str.injEq, true_and, and_true] at hfields
    simp only [Attempt.request, Prod.mk.injEq]
    exact ⟨hfields.1, hfields.2.2⟩
  · intro h
    simp only [Attempt.request, Prod.mk.injEq] at h
    simp only [Transaction.fingerprint, requestHash, h.1, h.2.1, h.2.2, hactor]

/-- Once a command was carried out under a key, no other is: the same request is
answered from the store or refused, and another one is refused. -/
theorem spent_of_run {before between after : List Attempt} {a b : Attempt}
    {st : Option Workspace} (h : Run attempting (before ++ a :: (between ++ b :: after)) st)
    (ha : a.committed = true) (hkey : b.retryKey = a.retryKey) :
    b.post = b.pre ∧ (b.tx.fingerprint ≠ a.tx.fingerprint → RefusesReuse b) ∧
      ∀ r, b.answered = .ok r → b.tx.fingerprint = a.tx.fingerprint ∧ r.replayed = true := by
  have hrun : Run attempting ((before ++ a :: between) ++ b :: after) st := by simpa using h
  obtain ⟨hpre, hnow, _⟩ := hrun.at_step
  have haccounts := accounted_of_run hpre
  have hmem : a ∈ committed (before ++ a :: between) := by
    simp [committed, ha]
  obtain ⟨e, he, hhash⟩ := haccounts.spent a hmem
  have he : (answersOf b.pre).get? b.tx.key = some e := by
    rw [key_of_retryKey hkey]
    exact he
  rcases attempt_cases hnow with ⟨w, m, result, hc⟩ | ⟨w, previous, response, hr⟩ |
    ⟨hpost, error, herror⟩
  · rw [hc.free] at he
    cases he
  · obtain ⟨hstored, hsame, _⟩ := hr.says
    rw [he] at hstored
    cases hstored
    have hfingerprint : b.tx.fingerprint = a.tx.fingerprint := hsame.symm.trans hhash
    refine ⟨hr.post, fun hne => absurd hfingerprint hne, ?_⟩
    intro r hanswer
    rw [hr.answered] at hanswer
    cases hanswer
    exact ⟨hfingerprint, replay_replayed hr.replayed⟩
  · refine ⟨hpost, ?_, ?_⟩
    · intro hne
      refine ⟨⟨error, herror⟩, ?_⟩
      intro w hloaded hvalid htenant hscopes
      have hconflict : mutate b.svc b.env b.pre b.tx =
          .error (conflict "IDEMPOTENCY_CONFLICT") := by
        have hstored : w.idempotency.get? b.tx.key = some e := by
          rw [(loaded_view hloaded).2.2]
          exact he
        have hother : e.request_hash ≠ b.tx.fingerprint := fun heq => hne (heq.symm.trans hhash)
        simp [mutate, hloaded, hvalid, htenant, hscopes, hstored, replay, ensure, hother, bind,
          Except.bind]
      have hsettled : settle b.write b.pre (mutate b.svc b.env b.pre b.tx) =
          (b.post, b.answered) := hnow
      rw [hconflict] at hsettled
      exact (Prod.mk.inj hsettled).2.symm
    · intro r hanswer
      rw [herror] at hanswer
      cases hanswer

theorem spent_key [CollisionFree] {before between after : List Attempt} {a b : Attempt}
    {st : Option Workspace} (h : Run attempting (before ++ a :: (between ++ b :: after)) st)
    (ha : a.committed = true) (hkey : b.retryKey = a.retryKey) :
    b.post = b.pre ∧ (b.request ≠ a.request → RefusesReuse b) ∧
      ∀ r, b.answered = .ok r → b.request = a.request ∧ r.replayed = true := by
  rw [ne_eq, ← fingerprint_eq_iff (Prod.mk.inj hkey).1]
  exact spent_of_run h ha hkey

/-- Commands are carried out exactly once and as a whole, whatever becomes of the
writes: each key has one event at most and one answer, a spent key carries out
nothing more, a command that fails changes nothing unless it is stored complete,
and each command that names a revision is carried out on that one. -/
theorem commands_exactly_once [CollisionFree] {steps : List Attempt} {st : Option Workspace}
    (h : Run attempting steps st) :
    (auditOf st).map signedBy = (committed steps).map Attempt.signed ∧
      ((committed steps).map Attempt.retryKey).Nodup ∧
      (∀ a ∈ steps, ∀ b ∈ steps, a.retryKey = b.retryKey →
        ∀ r r', a.answered = .ok r → b.answered = .ok r' → SameAnswer r r') ∧
      (∀ before a between b after, steps = before ++ a :: (between ++ b :: after) →
        a.committed = true → b.retryKey = a.retryKey →
          b.post = b.pre ∧ (b.request ≠ a.request → RefusesReuse b)) ∧
      (∀ a ∈ steps, ∀ e, a.answered = .error e → a.post = a.pre ∨ (e = writeUncertain ∧
        ∃ w m result, loaded a.pre a.tx = .ok w ∧
          a.tx.change w (w.revision + 1) = .ok (m, result) ∧
          a.post = some (recorded a.env w m a.tx result))) ∧
      revisionOf st = (auditOf st).length ∧ revisionOf st = (committed steps).length ∧
      (∀ a ∈ steps, a.committed = true → a.tx.relevant_basis = none →
        revisionOf a.pre = a.tx.command.expected_revision) ∧
      ((steps.filter Attempt.expects).map (·.tx.command.expected_revision)).Pairwise (· < ·) := by
  have haccounts := accounted_of_run h
  refine ⟨haccounts.audit, haccounts.once,
    fun a ha b hb hkey r r' hr hr' => haccounts.agree ha hb hkey hr hr', ?_,
    fun a ha e => failed_of_run h ha, haccounts.revision,
    haccounts.revision.trans haccounts.counted, ?_, haccounts.ordered⟩
  · rintro before a between b after rfl ha hkey
    obtain ⟨hsame, hrefused, _⟩ := spent_of_run h ha hkey
    exact ⟨hsame, fun hne => hrefused fun heq =>
      hne ((fingerprint_eq_iff (Prod.mk.inj hkey).1).mp heq)⟩
  · intro a ha hcommitted hnone
    exact expected_of_run h ha (by simp [Attempt.expects, hcommitted, hnone])

end Reuse

section Refinement

variable [Sha256]

/-- A call that some process makes of the service, over a write that can fail. -/
structure Trial where
  svc : Service
  env : Environment
  call : Call
  write : Write
  pre : Option Workspace
  post : Option Workspace
  answered : Except CaseworkError Response

/-- An answer that was not repeated, given to whoever made the call. -/
def Trial.Answers (t : Trial) (r : Response) : Prop := t.answered = .ok r ∧ r.replayed = false

/-- What a call rests on: the workspace it read was in the store, and a process
goes on from a transaction only when that answered. -/
structure Justified (trials : List Trial) (svc : Service) (call : Call) : Prop where
  observed : ∀ w, call.snapshot = some w → ∃ t ∈ trials, t.post = some w
  claimed : ∀ actor cmd case_id snapshot planning,
    call = .investigate actor cmd case_id snapshot planning → planning.status ≠ .deterministic →
      ∃ t ∈ trials, (∃ r, t.Answers r) ∧ t.call = .reserveAttempt actor cmd case_id snapshot
  reserved : ∀ actor cmd desk case_id source_id resource snapshot fetched expected_revision,
    call = .finishSource actor cmd desk case_id source_id resource snapshot fetched
      expected_revision →
      ∃ t ∈ trials, (∃ r request_id, t.Answers r ∧ r.result = .sourceReserved request_id) ∧
        ∃ force_refresh, t.call = .reserveSource actor cmd desk case_id source_id resource
          snapshot force_refresh
  installed : ∀ incidents delivery expected_revision,
    call = .ingest incidents delivery expected_revision → Installed svc incidents

structure Tried (trials : List Trial) (t : Trial) : Prop extends
    Justified trials t.svc t.call where
  fresh : ∀ state, t.pre = some state → Fresh t.env state
  settled : settle t.write t.pre (exec t.svc t.env t.pre t.call) = (t.post, t.answered)

/-- The store of one tenant whose writes can fail. -/
def uncertain : System (Option Workspace) Trial where
  init := none
  pre := Trial.pre
  post := Trial.post
  allowed := Tried

/-- The steps of the service that a list of trials comes to. -/
structure Comes (trials : List Trial) (steps : List Step) : Prop where
  calls : (steps.map Step.call).Sublist (trials.map Trial.call)
  stored : ∀ t ∈ trials, ∀ w, t.post = some w → ∃ s ∈ steps, s.post = some w
  answers : ∀ t ∈ trials, ∀ r, t.answered = .ok r →
    ∃ s ∈ steps, s.svc = t.svc ∧ s.call = t.call ∧ s.pre = t.pre ∧ s.post = t.post ∧ s.response = r

omit [Sha256] in
theorem Comes.grounded {trials : List Trial} {steps : List Step} {svc : Service} {call : Call}
    (h : Comes trials steps) (hj : Justified trials svc call) : Grounded steps svc call where
  observed := by
    intro w hw
    obtain ⟨t, ht, hpost⟩ := hj.observed w hw
    exact h.stored t ht w hpost
  claimed := by
    intro actor cmd case_id snapshot planning hcall hplanned
    obtain ⟨t, ht, ⟨r, hanswered, hnew⟩, htcall⟩ :=
      hj.claimed actor cmd case_id snapshot planning hcall hplanned
    obtain ⟨s, hs, _, hscall, _, _, hresponse⟩ := h.answers t ht r hanswered
    exact ⟨s, hs, by rw [Step.Committed, hresponse, hnew], hscall.trans htcall⟩
  reserved := by
    intro actor cmd desk case_id source_id resource snapshot fetched expected_revision hcall
    obtain ⟨t, ht, ⟨r, request_id, ⟨hanswered, hnew⟩, hresult⟩, force_refresh, htcall⟩ :=
      hj.reserved actor cmd desk case_id source_id resource snapshot fetched expected_revision
        hcall
    obtain ⟨s, hs, _, hscall, _, _, hresponse⟩ := h.answers t ht r hanswered
    exact ⟨s, hs, by rw [Step.Committed, hresponse, hnew],
      ⟨request_id, by rw [hresponse, hresult]⟩, force_refresh, hscall.trans htcall⟩
  installed := hj.installed

omit [Sha256] in
/-- A trial that leaves the store alone and gets no answer comes to nothing. -/
theorem Comes.idle {trials : List Trial} {steps : List Step} {t : Trial}
    (h : Comes trials steps) (hpost : ∀ w, t.post = some w → ∃ s ∈ steps, s.post = some w)
    (hanswered : ∃ e, t.answered = .error e) : Comes (trials ++ [t]) steps := by
  obtain ⟨e, herror⟩ := hanswered
  refine ⟨?_, ?_, ?_⟩
  · rw [List.map_append]
    exact h.calls.trans (List.sublist_append_left _ _)
  · intro u hu w hw
    rcases List.mem_append.mp hu with hold | hnew
    · exact h.stored u hold w hw
    · cases List.mem_singleton.mp hnew
      exact hpost w hw
  · intro u hu r hr
    rcases List.mem_append.mp hu with hold | hnew
    · exact h.answers u hold r hr
    · cases List.mem_singleton.mp hnew
      rw [herror] at hr
      cases hr

omit [Sha256] in
/-- A trial that is stored or answered comes to a step. -/
theorem Comes.step {trials : List Trial} {steps : List Step} {t : Trial} {response : Response}
    (h : Comes trials steps) (hanswered : ∀ r, t.answered = .ok r → r = response) :
    Comes (trials ++ [t]) (steps ++ [⟨t.svc, t.env, t.call, t.pre, t.post, response⟩]) := by
  refine ⟨?_, ?_, ?_⟩
  · rw [List.map_append, List.map_append]
    exact h.calls.append (List.Sublist.refl _)
  · intro u hu w hw
    rcases List.mem_append.mp hu with hold | hnew
    · obtain ⟨s, hs, hpost⟩ := h.stored u hold w hw
      exact ⟨s, List.mem_append_left _ hs, hpost⟩
    · cases List.mem_singleton.mp hnew
      exact ⟨_, List.mem_append_right _ (List.mem_singleton.mpr rfl), hw⟩
  · intro u hu r hr
    rcases List.mem_append.mp hu with hold | hnew
    · obtain ⟨s, hs, hsame⟩ := h.answers u hold r hr
      exact ⟨s, List.mem_append_left _ hs, hsame⟩
    · cases List.mem_singleton.mp hnew
      exact ⟨_, List.mem_append_right _ (List.mem_singleton.mpr rfl), rfl, rfl, rfl, rfl,
        (hanswered r hr).symm⟩

/-- The workspace in the store was put there by the last step that left it. -/
theorem stored_of_run {steps : List Step} {w : Workspace} (h : Run casework steps (some w)) :
    ∃ s ∈ steps, s.post = some w := by
  cases steps using List.reverseRecOn with
  | nil => cases h.nil
  | append_singleton before s _ =>
    exact ⟨s, by simp, h.snoc.2.2.symm⟩

/-- Whatever calls over uncertain writes leave in the store and answer, some of
the same calls in the same order leave and answer where every write is certain. -/
theorem uncertain_refines {trials : List Trial} {st : Option Workspace}
    (h : Run uncertain trials st) : ∃ steps, Run casework steps st ∧ Comes trials steps := by
  induction h with
  | start => exact ⟨[], .start, ⟨by simp, by simp, by simp⟩⟩
  | @next trials t hrun hnow ih =>
    obtain ⟨steps, hsteps, hcomes⟩ := ih
    have htried : Tried trials t := hnow
    have hsteps : Run casework steps t.pre := hsteps
    have hgrounded := hcomes.grounded htried.toJustified
    have hgoes : ∀ response, exec t.svc t.env t.pre t.call = .ok (t.post, response) →
        (∀ r, t.answered = .ok r → r = response) →
        ∃ steps, Run casework steps t.post ∧ Comes (trials ++ [t]) steps := by
      intro response hexec hanswered
      have hnow : Allowed steps ⟨t.svc, t.env, t.call, t.pre, t.post, response⟩ :=
        ⟨hgrounded, htried.fresh, hexec⟩
      exact ⟨_, .next (S := casework) (s := ⟨t.svc, t.env, t.call, t.pre, t.post, response⟩)
        hsteps hnow, hcomes.step hanswered⟩
    rcases settle_cases htried.settled with ⟨next, response, hran, _, hpost, hanswered⟩ |
      ⟨next, response, hran, hreplayed, hpost, hanswered⟩ | ⟨hpost, e, herror, _⟩
    · subst hpost
      refine hgoes response hran ?_
      intro r hr
      rcases hanswered with hok | herror
      · exact Except.ok.inj (hr.symm.trans hok)
      · rw [hr] at herror
        cases herror
    · have hnext : next = t.pre := by
        rcases committed_cases (s := ⟨t.svc, t.env, t.call, t.pre, next, response⟩) hran with
          ⟨hcommitted, _⟩ | ⟨_, hsame⟩
        · rw [Step.Committed, hreplayed] at hcommitted
          cases hcommitted
        · exact hsame
      refine hgoes response (by rw [hran, hnext, hpost]) ?_
      intro r hr
      exact Except.ok.inj (hr.symm.trans hanswered)
    · refine ⟨steps, ?_, hcomes.idle ?_ ⟨e, herror⟩⟩
      · change Run casework steps t.post
        rw [hpost]
        exact hsteps
      · intro w hw
        rw [hpost] at hw
        rw [hw] at hsteps
        exact stored_of_run hsteps

end Refinement

section Interrupted

/-- The same command again, after an attempt of it. -/
def Attempt.again [Sha256] (a : Attempt) : Attempt :=
  let settled := settle .stored a.post (mutate a.svc a.env a.post a.tx)
  ⟨a.svc, a.env, a.tx, .stored, a.post, settled.1, settled.2⟩

theorem exists_first [Sha256] [CollisionFree] :
    ∃ s w tx m result, Allowed [] s ∧ s.pre = none ∧ Commits s w tx m result := by
  obtain ⟨s, w, hopen, hpost, _⟩ := Completion.can_bootstrap Crew.crew 0
  have hrun : Run casework ([] ++ [s]) (some w) := hopen.run
  obtain ⟨hnil, hnow, _⟩ := hrun.snoc
  have hpre : s.pre = none := hnil.nil
  rcases committed_cases hnow.executed with ⟨_, w', tx, m, result, hc⟩ | ⟨_, hsame⟩
  · exact ⟨s, w', tx, m, result, hnow, hpre, hc⟩
  · rw [hpost, hpre] at hsame
    cases hsame

/-- A first command whose write was stored and raised, and its retry. -/
theorem exists_retried [Sha256] [CollisionFree] :
    ∃ a : Attempt, a.answered = .error writeUncertain ∧ a.committed = true ∧
      Run attempting [a, a.again] a.again.post := by
  obtain ⟨s, w, tx, m, result, hnow, hpre, hc⟩ := exists_first
  have hran : mutate s.svc s.env s.pre tx = .ok (s.post, s.response) := by
    have hexec := hnow.executed
    simp only [exec, hc.prepared, bind_eq_ok, Except.ok.injEq] at hexec
    obtain ⟨_, rfl, hmutate⟩ := hexec
    exact hmutate
  let a : Attempt := ⟨s.svc, s.env, tx, .raised true, s.pre, s.post, .error writeUncertain⟩
  have hcarried : Carried a w m result := by
    rcases mutate_cases hran with ⟨w', m', result', hloaded, hnew, hadmitted, hchanged, _⟩ |
      ⟨w', previous, hloaded, hstored, _⟩
    · have hsame : w' = w := Except.ok.inj (hloaded.symm.trans hc.loaded)
      subst hsame
      exact ⟨hloaded, hnew, hadmitted, hc.changed, hc.post, Or.inr rfl⟩
    · have hsame : w' = w := Except.ok.inj (hloaded.symm.trans hc.loaded)
      subst hsame
      rw [hc.new] at hstored
      cases hstored
  have hallowed : attempting.allowed [] a := by
    change settle (.raised true) s.pre (mutate s.svc s.env s.pre tx) = _
    rw [hran, hc.response]
    rfl
  have hstart : Run attempting [] a.pre := by
    rw [show a.pre = none from hpre]
    exact .start
  have hfirst : Run attempting ([] ++ [a]) a.post := .next (S := attempting) hstart hallowed
  refine ⟨a, rfl, hcarried.committed, ?_⟩
  have hagain : attempting.allowed [a] a.again := rfl
  exact .next hfirst hagain

/-- The retry of an uncertain first command finds it carried out. -/
theorem retried_once : letI := spelling
    ∃ a : Attempt, a.answered = .error writeUncertain ∧ Run attempting [a, a.again] a.again.post ∧
      (auditOf a.again.post).map signedBy = (committed [a, a.again]).map Attempt.signed ∧
      ((committed [a, a.again]).map Attempt.retryKey).Nodup := by
  let _ := spelling
  have := spelling_collisionFree
  obtain ⟨a, hanswered, _, hrun⟩ := exists_retried
  obtain ⟨haudit, honce, _⟩ := exactly_once hrun
  exact ⟨a, hanswered, hrun, haudit, honce⟩

theorem retried_not_lost : letI := spelling
    ∃ a : Attempt, a.answered = .error writeUncertain ∧ Run attempting [a, a.again] a.again.post ∧
      revisionOf a.again.post = (committed [a, a.again]).length := by
  let _ := spelling
  have := spelling_collisionFree
  obtain ⟨a, hanswered, _, hrun⟩ := exists_retried
  exact ⟨a, hanswered, hrun, (no_lost_update hrun).2.1⟩

theorem retried_unchanged : letI := spelling
    ∃ a : Attempt, a.committed = true ∧ Run attempting [a, a.again] a.again.post ∧
      a.again.post = a.post := by
  let _ := spelling
  have := spelling_collisionFree
  obtain ⟨a, _, hcommitted, hrun⟩ := exists_retried
  have hwhole : Run attempting ([] ++ a :: ([] ++ a.again :: [])) a.again.post := hrun
  have hspent := spent_key hwhole hcommitted rfl
  exact ⟨a, hcommitted, hrun, hspent.1⟩

/-- Of an uncertain first command and its retry one is carried out, and the store
holds it. -/
theorem retried_exactly_once : letI := spelling
    ∃ a : Attempt, a.answered = .error writeUncertain ∧ Run attempting [a, a.again] a.again.post ∧
      (auditOf a.again.post).map signedBy = (committed [a, a.again]).map Attempt.signed ∧
      a.again.post = a.post ∧ revisionOf a.again.post = (committed [a, a.again]).length := by
  let _ := spelling
  have := spelling_collisionFree
  obtain ⟨a, hanswered, hcommitted, hrun⟩ := exists_retried
  obtain ⟨haudit, _, _, hspent, _, _, hcount, _⟩ := commands_exactly_once hrun
  exact ⟨a, hanswered, hrun, haudit, (hspent [] a [] a.again [] rfl hcommitted rfl).1, hcount⟩

/-- A first call whose write was stored and raised is a step all the same. -/
theorem interrupted_refines : letI := spelling
    ∃ t : Trial, t.answered = .error writeUncertain ∧ t.post ≠ t.pre ∧ Run uncertain [t] t.post ∧
      ∃ steps, Run casework steps t.post ∧ Comes [t] steps := by
  let _ := spelling
  have := spelling_collisionFree
  obtain ⟨s, w, tx, m, result, hnow, hpre, hc⟩ := exists_first
  let t : Trial :=
    ⟨s.svc, s.env, s.call, .raised true, s.pre, s.post, .error writeUncertain⟩
  have hgrounded := hnow.toGrounded
  have htried : Tried [] t := by
    refine ⟨⟨?_, ?_, ?_, hgrounded.installed⟩, hnow.fresh, ?_⟩
    · intro w hw
      obtain ⟨t, ht, _⟩ := hgrounded.observed w hw
      cases ht
    · intro actor cmd case_id snapshot planning hcall hplanned
      obtain ⟨t, ht, _⟩ := hgrounded.claimed actor cmd case_id snapshot planning hcall hplanned
      cases ht
    · intro actor cmd desk case_id source_id resource snapshot fetched expected_revision hcall
      obtain ⟨t, ht, _⟩ := hgrounded.reserved actor cmd desk case_id source_id resource snapshot
        fetched expected_revision hcall
      cases ht
    · change settle (.raised true) s.pre (exec s.svc s.env s.pre s.call) = _
      rw [hnow.executed, hc.response]
      rfl
  have hstart : Run uncertain [] t.pre := by
    rw [show t.pre = none from hpre]
    exact .start
  have hrun : Run uncertain ([] ++ [t]) t.post := .next (S := uncertain) hstart htried
  refine ⟨t, rfl, ?_, hrun, uncertain_refines hrun⟩
  rw [show t.post = _ from hc.post, show t.pre = none from hpre]
  simp

end Interrupted

end MemoryGuard.Attempts
