import MemoryGuard.Observing
import Mathlib.Data.List.Induction
import Mathlib.Logic.Function.Basic

/-!
Several instances of the payment guard that observe on one subject. Every
access to the store is a step of its own, and an instance runs one call at a
time: it reads the memory, reads it once more to check the version, writes an
event, and writes the memory. Nothing ties the check to the last write, so an
observation is kept only while no other instance writes in between.
-/
namespace MemoryGuard.Races

open OrderedDict JsonText Guarded ContentHash CanonicalText IsoText JsonReading Observations
open PaymentPolicy Observing

/-- A call that has read the memory and goes on to write. -/
structure Call where
  request : Request
  previous_version : ℤ
  updated : SubjectMemory
  stored : StoredObservation

/-- How far the call of an instance is. -/
inductive Phase
  | idle
  | planned (call : Call)
  | checked (call : Call)
  | logged (call : Call)

def Phase.call : Phase → Option Call
  | .idle => none
  | .planned call => some call
  | .checked call => some call
  | .logged call => some call

/-- The store, the phase of each instance, and the receipts returned so far. -/
structure Race (ι : Type) where
  store : Option Json
  phase : ι → Phase
  answered : List (Request × ObservationReceipt)

/-- An instance takes its next step, or its call dies. -/
inductive Move (ι : Type)
  | start (i : ι) (request : Request)
  | check (i : ι)
  | log (i : ι)
  | write (i : ι)
  | fail (i : ι)

variable {ι : Type} [DecidableEq ι]

def Race.goto (s : Race ι) (i : ι) (p : Phase) : Race ι :=
  { s with phase := Function.update s.phase i p }

def Race.answer (s : Race ι) (i : ι) (request : Request) (receipt : ObservationReceipt) : Race ι :=
  { s.goto i .idle with answered := s.answered ++ [(request, receipt)] }

variable [Unicode] [Interpreter] [Sha256]

/-- One step, and the exception it ends a call with. -/
def act (s : Race ι) : Move ι → Race ι × Option GuardError
  | .start i request =>
    match s.phase i with
    | .idle =>
      match readPlan request.around s.store request.observation with
      | .ok (.answer receipt) => (s.answer i request receipt, none)
      | .ok (.write previous_version updated stored) =>
        (s.goto i (.planned ⟨request, previous_version, updated, stored⟩), none)
      | .error e => (s, some e)
    | _ => (s, none)
  | .check i =>
    match s.phase i with
    | .planned call =>
      match checkVersion s.store call.previous_version with
      | .ok () => (s.goto i (.checked call), none)
      | .error e => (s.goto i .idle, some e)
    | _ => (s, none)
  | .log i =>
    match s.phase i with
    | .checked call => (s.goto i (.logged call), none)
    | _ => (s, none)
  | .write i =>
    match s.phase i with
    | .logged call =>
      ({ s.answer i call.request (receiptOf call.stored call.updated) with
          store := some call.updated.toJson }, none)
    | _ => (s, none)
  | .fail i => (s.goto i .idle, some (.unavailable "Sibyl Memory operation failed"))

def quiet : Race ι := ⟨none, fun _ => .idle, []⟩

def race (moves : List (Move ι)) : Race ι := moves.foldl (fun s m => (act s m).1) quiet

/-- The version of the memory that a store holds. -/
def storedVersion (store : Option Json) : ℤ :=
  match loadSubject store with
  | .ok (some subject) => subject.version
  | _ => 0

/-- The observation of a request with a receipt is in a memory. -/
def Present (l : List StoredObservation) (answer : Request × ObservationReceipt) : Prop :=
  ∃ item ∈ l, item.observation_id = answer.2.observation_id ∧
    item.idempotency_key = answer.1.observation.idempotency_key ∧
    ∃ classification, classifyObservation answer.1.observation = .ok classification ∧
      SameRequest answer.1.observation classification item

/-- What is known of a call while the memory is `l`: it adds one observation to
what it has read, the beginning of `l`. -/
structure Call.Planned (call : Call) (base l : List StoredObservation) : Prop where
  start : base <+: l
  version : call.previous_version = base.length
  observations : call.updated.observations = base ++ [call.stored]
  updated_version : call.updated.version = base.length + 1
  wellformed : call.stored.Wellformed
  present : Present [call.stored.reread] (call.request, receiptOf call.stored call.updated)

/-- The state of a race in which nothing was lost. -/
structure Consistent (s : Race ι) (l : List StoredObservation) : Prop where
  holds : Holds s.store l
  version : storedVersion s.store = l.length
  calls : ∀ i call, (s.phase i).call = some call → ∃ base, call.Planned base l
  answered : ∀ answer ∈ s.answered, Present l answer

section Steps

variable {s : Race ι} {l : List StoredObservation}

omit [Interpreter] [Unicode] [Sha256] in
@[simp] theorem phase_goto_self (s : Race ι) (i : ι) (p : Phase) : (s.goto i p).phase i = p := by
  unfold Race.goto
  exact Function.update_self i p s.phase

omit [Interpreter] [Unicode] [Sha256] in
theorem phase_goto_of_ne (s : Race ι) {i j : ι} (p : Phase) (h : j ≠ i) :
    (s.goto i p).phase j = s.phase j := by
  unfold Race.goto
  exact Function.update_of_ne h p s.phase

theorem Present.mono {l' : List StoredObservation} {answer : Request × ObservationReceipt}
    (h : Present l answer) (hsub : l ⊆ l') : Present l' answer := by
  obtain ⟨item, hitem, hrest⟩ := h
  exact ⟨item, hsub hitem, hrest⟩

theorem Call.Planned.later {call : Call} {base l' : List StoredObservation}
    (h : call.Planned base l) (hl : l <+: l') : call.Planned base l' :=
  { h with start := h.start.trans hl }

/-- A call whose version is that of the memory has read all of it. -/
theorem Call.Planned.base_eq {call : Call} {base : List StoredObservation}
    (h : call.Planned base l) (hversion : call.previous_version = l.length) : base = l := by
  have hlength : (base.length : ℤ) = l.length := h.version.symm.trans hversion
  exact h.start.eq_of_length (by exact_mod_cast hlength)

omit [DecidableEq ι] in
theorem consistent_quiet : Consistent (quiet : Race ι) [] where
  holds := .empty
  version := rfl
  calls := fun _ _ h => nomatch h
  answered := fun _ h => absurd h List.not_mem_nil

omit [Unicode] [Sha256] in
theorem storedVersion_written {m : SubjectMemory} (h : ∀ item ∈ m.observations, item.Wellformed) :
    storedVersion (some m.toJson) = m.version := by
  unfold storedVersion
  rw [loadSubject_written h]
  rfl

omit [Unicode] [Sha256] in
/-- The version check of a call, on a store that can be read. -/
theorem checkVersion_eq {store : Option Json} {version : ℤ} (h : Holds store l) :
    checkVersion store version = if storedVersion store = version then .ok ()
      else .error (.conflict "subject memory version changed before commit") := by
  unfold checkVersion storedVersion
  cases h with
  | empty => rfl
  | written m hwell =>
    rw [loadSubject_written hwell]
    rfl

/-- The steps that leave the store alone move one instance. -/
theorem Consistent.goto (h : Consistent s l) {i : ι} {p : Phase}
    (hp : ∀ call, p.call = some call → ∃ base, call.Planned base l) :
    Consistent (s.goto i p) l where
  holds := h.holds
  version := h.version
  calls := by
    intro j call hcall
    by_cases hj : j = i
    · rw [hj, phase_goto_self] at hcall
      exact hp call hcall
    · rw [phase_goto_of_ne s p hj] at hcall
      exact h.calls j call hcall
  answered := h.answered

theorem Consistent.idle (h : Consistent s l) (i : ι) : Consistent (s.goto i .idle) l :=
  h.goto fun _ hcall => nomatch hcall

theorem Consistent.answer (h : Consistent s l) {i : ι} {request : Request}
    {receipt : ObservationReceipt} (hpresent : Present l (request, receipt)) :
    Consistent (s.answer i request receipt) l where
  holds := h.holds
  version := h.version
  calls := (h.idle i).calls
  answered := by
    intro answer hanswer
    rcases List.mem_append.mp hanswer with hanswer | hanswer
    · exact h.answered answer hanswer
    · rw [List.mem_singleton.mp hanswer]
      exact hpresent

variable [NonemptyDigest]

omit [DecidableEq ι] in
/-- What a call plans, from what it reads. -/
theorem Consistent.read (h : Consistent s l) {request : Request} {plan : Plan}
    (hplan : readPlan request.around s.store request.observation = .ok plan) :
    (∃ receipt, plan = .answer receipt ∧ Present l (request, receipt)) ∨
      ∃ previous_version updated stored, plan = .write previous_version updated stored ∧
        Call.Planned ⟨request, previous_version, updated, stored⟩ l l := by
  obtain ⟨current, classification, hcurrent, hvalid, hclass, hcases⟩ := readPlan_cases hplan
  have hl := h.holds.current hcurrent
  have hversion := (validateSubject_ok.mp hvalid).1
  rw [hl] at hversion
  rcases hcases with ⟨duplicate, hmem, hkey, hsame, rfl⟩ | ⟨_, stored, hstored, rfl⟩
  · exact Or.inl ⟨_, rfl, duplicate, hl ▸ hmem, rfl, hkey, classification, hclass, hsame⟩
  · refine Or.inr ⟨_, _, _, rfl, ?_⟩
    refine {
      start := List.prefix_rfl
      version := hversion
      observations := congrArg (· ++ [stored]) hl
      updated_version := congrArg (· + 1) hversion
      wellformed := hstored ▸ stored_wellformed hclass
      present := ⟨stored.reread, List.mem_singleton.mpr rfl, rfl, ?_, classification, hclass, ?_⟩
    }
    · rw [hstored]
      rfl
    · rw [hstored]
      exact ⟨rfl, rfl, rfl, rfl, rfl, rfl, rfl⟩

omit [NonemptyDigest] in
/-- A write on the version that the call has read adds its observation. -/
theorem Consistent.write (h : Consistent s l) {i : ι} {call : Call}
    (hphase : (s.phase i).call = some call)
    (hundisturbed : storedVersion s.store = call.previous_version) :
    Consistent { s.answer i call.request (receiptOf call.stored call.updated) with
      store := some call.updated.toJson } (l ++ [call.stored.reread]) := by
  obtain ⟨base, hplanned⟩ := h.calls i call hphase
  have hbase : base = l := hplanned.base_eq (hundisturbed ▸ h.version)
  subst hbase
  have hlater : base <+: base ++ [call.stored.reread] := List.prefix_append _ _
  refine {
    holds := h.holds.extended hplanned.wellformed hplanned.observations
    version := ?_
    calls := ?_
    answered := ?_
  }
  · dsimp only
    rw [storedVersion_written (h.holds.wellformed_extended hplanned.wellformed
      hplanned.observations), hplanned.updated_version]
    simp
  · intro j other hother
    obtain ⟨base', hother'⟩ := (h.idle i).calls j other hother
    exact ⟨base', hother'.later hlater⟩
  · intro answer hanswer
    rcases List.mem_append.mp hanswer with hanswer | hanswer
    · exact (h.answered answer hanswer).mono hlater.subset
    · rw [List.mem_singleton.mp hanswer]
      exact hplanned.present.mono (List.subset_append_right _ _)

/-- A move that does not write over what others wrote. -/
def Undisturbed (s : Race ι) (m : Move ι) : Prop :=
  ∀ i call, m = .write i → s.phase i = .logged call →
    storedVersion s.store = call.previous_version

/-- One step of a race keeps everything that was answered. -/
theorem Consistent.act (h : Consistent s l) (m : Move ι) (hm : Undisturbed s m) :
    ∃ more, Consistent (act s m).1 (l ++ more) := by
  have hsame : ∀ {t : Race ι}, Consistent t l → ∃ more, Consistent t (l ++ more) :=
    fun ht => ⟨[], by rwa [List.append_nil]⟩
  cases m with
  | start i request =>
    cases hphase : s.phase i with
    | idle =>
      cases hplan : readPlan request.around s.store request.observation with
      | error e =>
        simp only [Races.act, hphase, hplan]
        exact hsame h
      | ok plan =>
        rcases h.read hplan with ⟨receipt, rfl, hpresent⟩ | ⟨v, updated, stored, rfl, hplanned⟩
        · simp only [Races.act, hphase, hplan]
          exact hsame (h.answer hpresent)
        · simp only [Races.act, hphase, hplan]
          refine hsame (h.goto ?_)
          intro call hcall
          cases hcall
          exact ⟨l, hplanned⟩
    | planned call => simpa only [Races.act, hphase] using hsame h
    | checked call => simpa only [Races.act, hphase] using hsame h
    | logged call => simpa only [Races.act, hphase] using hsame h
  | check i =>
    cases hphase : s.phase i with
    | planned call =>
      have hcall := h.calls i call (by rw [hphase]; rfl)
      cases hcheck : checkVersion s.store call.previous_version with
      | error e =>
        simp only [Races.act, hphase, hcheck]
        exact hsame (h.idle i)
      | ok _ =>
        simp only [Races.act, hphase, hcheck]
        refine hsame (h.goto ?_)
        intro other hother
        cases hother
        exact hcall
    | idle => simpa only [Races.act, hphase] using hsame h
    | checked call => simpa only [Races.act, hphase] using hsame h
    | logged call => simpa only [Races.act, hphase] using hsame h
  | log i =>
    cases hphase : s.phase i with
    | checked call =>
      have hcall := h.calls i call (by rw [hphase]; rfl)
      simp only [Races.act, hphase]
      refine hsame (h.goto ?_)
      intro other hother
      cases hother
      exact hcall
    | idle => simpa only [Races.act, hphase] using hsame h
    | planned call => simpa only [Races.act, hphase] using hsame h
    | logged call => simpa only [Races.act, hphase] using hsame h
  | write i =>
    cases hphase : s.phase i with
    | logged call =>
      simp only [Races.act, hphase]
      exact ⟨_, h.write (by rw [hphase]; rfl) (hm i call rfl hphase)⟩
    | idle => simpa only [Races.act, hphase] using hsame h
    | planned call => simpa only [Races.act, hphase] using hsame h
    | checked call => simpa only [Races.act, hphase] using hsame h
  | fail i => exact hsame (h.idle i)

end Steps

section Runs

theorem race_snoc (moves : List (Move ι)) (m : Move ι) :
    race (moves ++ [m]) = (act (race moves) m).1 := by
  unfold race
  rw [List.foldl_append, List.foldl_cons, List.foldl_nil]

/-- No write of the run is on another version than its call has read. -/
def AllUndisturbed (moves : List (Move ι)) : Prop :=
  ∀ before m after, moves = before ++ m :: after → Undisturbed (race before) m

theorem AllUndisturbed.before {moves after : List (Move ι)} (h : AllUndisturbed (moves ++ after)) :
    AllUndisturbed moves := by
  intro before m rest hmoves
  exact h before m (rest ++ after) (by rw [hmoves, List.append_assoc, List.cons_append])

theorem AllUndisturbed.snoc {moves : List (Move ι)} {m : Move ι} (h : AllUndisturbed moves)
    (hm : Undisturbed (race moves) m) : AllUndisturbed (moves ++ [m]) := by
  intro before m' after hsplit
  rcases List.eq_nil_or_concat after with rfl | ⟨rest, last, rfl⟩
  · obtain ⟨rfl, hlast⟩ := List.append_inj' hsplit rfl
    cases hlast
    exact hm
  · rw [List.concat_eq_append, ← List.cons_append, ← List.append_assoc] at hsplit
    exact h before m' rest (List.append_inj' hsplit rfl).1

variable [NonemptyDigest]

/-- What is consistent at some point of an undisturbed run is extended by its rest. -/
theorem Consistent.run {before : List (Move ι)} {l : List StoredObservation}
    (h : Consistent (race before) l) (after : List (Move ι))
    (hmoves : AllUndisturbed (before ++ after)) :
    ∃ more, Consistent (race (before ++ after)) (l ++ more) := by
  induction after using List.reverseRecOn with
  | nil => exact ⟨[], by simpa using h⟩
  | append_singleton after m ih =>
    rw [← List.append_assoc] at hmoves ⊢
    obtain ⟨more, hmore⟩ := ih hmoves.before
    obtain ⟨added, hadded⟩ := hmore.act m (hmoves _ m [] rfl)
    exact ⟨more ++ added, by rwa [race_snoc, ← List.append_assoc]⟩

theorem consistent_race {moves : List (Move ι)} (hmoves : AllUndisturbed moves) :
    ∃ l, Consistent (race moves) l := by
  have hstart : Consistent (race ([] : List (Move ι))) [] := consistent_quiet
  obtain ⟨l, hl⟩ := hstart.run moves hmoves
  exact ⟨_, hl⟩

/-- In a run whose writes are undisturbed, an observation with a receipt stays
in the memory, each write adds to what is stored, and a call whose memory is
out of date at its check is refused. -/
theorem observations_kept (moves : List (Move ι)) (hmoves : AllUndisturbed moves) :
    (∀ before after, moves = before ++ after → ∀ answer ∈ (race before).answered,
      Present (remembered (race moves).store) answer) ∧
    (∀ before i after call, moves = before ++ .write i :: after →
      (race before).phase i = .logged call →
      call.updated.observations = remembered (race before).store ++ [call.stored]) ∧
    ∀ before i after call, moves = before ++ .check i :: after →
      (race before).phase i = .planned call →
      call.updated.observations ≠ remembered (race before).store ++ [call.stored] →
      (act (race before) (.check i)).2 =
        some (.conflict "subject memory version changed before commit") := by
  refine ⟨?_, ?_, ?_⟩
  · rintro before after rfl answer hanswer
    obtain ⟨l, hl⟩ := consistent_race hmoves.before
    obtain ⟨more, hmore⟩ := hl.run after hmoves
    rw [hmore.holds.remembered_eq]
    exact (hl.answered answer hanswer).mono (List.subset_append_left _ _)
  · rintro before i after call rfl hphase
    obtain ⟨l, hl⟩ := consistent_race hmoves.before
    obtain ⟨base, hplanned⟩ := hl.calls i call (by rw [hphase]; rfl)
    have hversion := hmoves before _ after rfl i call rfl hphase
    have hbase : base = l := hplanned.base_eq (hversion ▸ hl.version)
    rw [hl.holds.remembered_eq, ← hbase, hplanned.observations]
  · rintro before i after call rfl hphase hother
    obtain ⟨l, hl⟩ := consistent_race hmoves.before
    obtain ⟨base, hplanned⟩ := hl.calls i call (by rw [hphase]; rfl)
    have hversion : storedVersion (race before).store ≠ call.previous_version := by
      intro heq
      have hbase : base = l := hplanned.base_eq (heq ▸ hl.version)
      rw [hl.holds.remembered_eq, ← hbase, hplanned.observations] at hother
      exact hother rfl
    simp only [Races.act, hphase, checkVersion_eq hl.holds, if_neg hversion]

end Runs

section Overlaps

variable {request request' : Request}
  {classification classification' : ObservationClassification}

/-- What a first call goes on to write. -/
def firstCall (request : Request) (classification : ObservationClassification) : Call :=
  let stored := storedObservation request.around request.observation classification zeroHash
  ⟨request, 0, extendMemory
    (emptyMemory request.around (subjectRef request.observation.subject_id)) request.around stored,
    stored⟩

/-- What a call goes on to write when it has read a memory. -/
def laterCall (request : Request) (classification : ObservationClassification)
    (current : SubjectMemory) : Call :=
  let stored := storedObservation request.around request.observation classification
    (lastHash current)
  ⟨request, current.version, extendMemory current request.around stored, stored⟩

/-- Two calls that read the same memory, of which the first goes on to its write. -/
def contended (request request' : Request) : List (Move Bool) :=
  [.start true request, .start false request', .check true, .log true]

/-- The second call is refused at its check, and is made once more. -/
def retried (request' : Request) : List (Move Bool) :=
  [.check false, .start false request', .check false, .log false]

/-- Both observations are written, one after the other. -/
def inTurn (request request' : Request) : List (Move Bool) :=
  contended request request' ++ [.write true] ++ retried request' ++ [.write false]

/-- Two calls that both check before either writes. -/
def overlapping (request request' : Request) : List (Move Bool) :=
  [.start true request, .start false request', .check true, .check false, .log true, .log false,
    .write true, .write false]

theorem plan_first (hcheck : checkObservation request.observation = .ok ())
    (hclass : classifyObservation request.observation = .ok classification) :
    readPlan request.around none request.observation = .ok (.write 0
      (firstCall request classification).updated (firstCall request classification).stored) :=
  readPlan_first hcheck hclass

omit [Unicode] [Sha256] in
theorem check_first : checkVersion none 0 = .ok () := rfl

variable (request request') in
/-- The second of two overlapping calls writes over what the first one wrote. -/
theorem race_overlapping (hcheck : checkObservation request.observation = .ok ())
    (hclass : classifyObservation request.observation = .ok classification)
    (hcheck' : checkObservation request'.observation = .ok ())
    (hclass' : classifyObservation request'.observation = .ok classification') :
    (race (overlapping request request')).store =
        some (firstCall request' classification').updated.toJson ∧
      (request, receiptOf (firstCall request classification).stored
        (firstCall request classification).updated) ∈
          (race (overlapping request request')).answered := by
  simp [race, overlapping, act, quiet, Race.goto, Race.answer, plan_first hcheck hclass,
    plan_first hcheck' hclass', check_first]

/-- The plan of a call that reads what a first call on the subject has written. -/
theorem plan_later [NonemptyDigest]
    (hclass : classifyObservation request.observation = .ok classification)
    (haware : request.observation.observed_at.Aware)
    (hcheck' : checkObservation request'.observation = .ok ())
    (hclass' : classifyObservation request'.observation = .ok classification')
    (hsubject : request'.observation.subject_id = request.observation.subject_id)
    (hkey : request.observation.idempotency_key ≠ request'.observation.idempotency_key) :
    let first := (firstCall request classification).updated
    readPlan request'.around (some first.toJson) request'.observation = .ok (.write 1
      (laterCall request' classification' first.reread).updated
      (laterCall request' classification' first.reread).stored) := by
  intro first
  have hread : first.observations.map StoredObservation.reread = first.observations :=
    congrArg (fun item => [item]) (StoredObservation.reread_of_aware haware)
  have hwell : ∀ item ∈ first.observations, item.Wellformed :=
    Holds.empty.wellformed_extended (stored_wellformed hclass) rfl
  have hextended : validateSubject first = .ok () := by
    have hempty : validateSubject (emptyMemory request.around (subjectRef
        request.observation.subject_id)) = .ok () := validate_empty
    refine validate_extend hempty ?_
    rw [lastHash_eq validate_empty]
    exact stored_continues
  have hvalid : validateSubject first.reread = .ok () := by
    obtain ⟨hversion, hchain⟩ := validateSubject_ok.mp hextended
    refine validateSubject_ok.mpr ⟨?_, ?_⟩
    · change first.version = ((first.observations.map StoredObservation.reread).length : ℤ)
      rw [hread, hversion]
    · change validateChain first.subject_ref zeroHash
        (first.observations.map StoredObservation.reread) = _
      rw [hread, hchain]
      rfl
  have hcurrent : currentMemory request'.around (subjectRef request'.observation.subject_id)
      (some first.toJson) = .ok first.reread := by
    unfold currentMemory
    rw [loadSubject_written hwell]
    rfl
  have hnew : ∀ item ∈ first.reread.observations,
      item.idempotency_key ≠ request'.observation.idempotency_key := by
    intro item hitem
    change item ∈ first.observations.map StoredObservation.reread at hitem
    rw [hread] at hitem
    rw [List.mem_singleton.mp hitem]
    exact hkey
  exact readPlan_new hcheck' hcurrent hvalid (congrArg subjectRef hsubject.symm) hclass' hnew

theorem AllUndisturbed.idle {moves rest : List (Move ι)} (h : AllUndisturbed moves)
    (hrest : ∀ i, Move.write i ∉ rest) : AllUndisturbed (moves ++ rest) := by
  induction rest using List.reverseRecOn with
  | nil => simpa using h
  | append_singleton rest m ih =>
    rw [← List.append_assoc]
    refine (ih fun i hi => hrest i (by simp [hi])).snoc ?_
    rintro i call rfl
    exact absurd (List.mem_append_right _ List.mem_cons_self) (hrest i)

variable (request request') in
/-- The calls of two instances that are written in turn, the second one after it
was refused. -/
theorem race_inTurn [NonemptyDigest] (hcheck : checkObservation request.observation = .ok ())
    (hclass : classifyObservation request.observation = .ok classification)
    (haware : request.observation.observed_at.Aware)
    (hcheck' : checkObservation request'.observation = .ok ())
    (hclass' : classifyObservation request'.observation = .ok classification')
    (hsubject : request'.observation.subject_id = request.observation.subject_id)
    (hkey : request.observation.idempotency_key ≠ request'.observation.idempotency_key) :
    AllUndisturbed (inTurn request request') ∧
      (race (contended request request' ++ [.write true])).phase false =
        .planned (firstCall request' classification') ∧
      remembered (race (contended request request' ++ [.write true])).store =
        [(firstCall request classification).stored.reread] ∧
      ((race (inTurn request request')).answered.map Prod.fst = [request, request']) := by
  let first := firstCall request classification
  let later := laterCall request' classification' first.updated.reread
  have hwell : ∀ item ∈ first.updated.observations, item.Wellformed :=
    Holds.empty.wellformed_extended (stored_wellformed hclass) rfl
  have hholds := Holds.written first.updated hwell
  have hversion : storedVersion (some first.updated.toJson) = 1 := storedVersion_written hwell
  have hrefused : checkVersion (some first.updated.toJson) 0 =
      .error (.conflict "subject memory version changed before commit") := by
    rw [checkVersion_eq hholds, hversion, if_neg (by decide)]
  have haccepted : checkVersion (some first.updated.toJson) 1 = .ok () := by
    rw [checkVersion_eq hholds, hversion, if_pos rfl]
  have hplan := plan_later hclass haware hcheck' hclass' hsubject hkey
  have hfirst : (race (contended request request')).phase true = .logged first ∧
      (race (contended request request')).store = none := by
    simp [race, contended, act, quiet, Race.goto, plan_first hcheck hclass,
      plan_first hcheck' hclass', check_first, first, firstCall]
  have hwritten : (race (contended request request' ++ [.write true])).phase false =
        .planned (firstCall request' classification') ∧
      (race (contended request request' ++ [.write true])).store = some first.updated.toJson := by
    simp [race, contended, act, quiet, Race.goto, Race.answer, plan_first hcheck hclass,
      plan_first hcheck' hclass', check_first, first, firstCall]
  have hretried : (race (contended request request' ++ [.write true] ++ retried request')).phase
        false = .logged later ∧
      (race (contended request request' ++ [.write true] ++ retried request')).store =
        some first.updated.toJson ∧
      (race (contended request request' ++ [.write true] ++ retried request')).answered =
        [(request, receiptOf first.stored first.updated)] := by
    simp [race, contended, retried, act, quiet, Race.goto, Race.answer, plan_first hcheck hclass,
      plan_first hcheck' hclass', check_first, hrefused, haccepted, hplan, first]
    rfl
  have hnothing : AllUndisturbed ([] : List (Move Bool)) := by
    intro before m after hmoves
    simp at hmoves
  have hundisturbed : AllUndisturbed (inTurn request request') := by
    have hstart : AllUndisturbed (contended request request') :=
      hnothing.idle (by simp)
    refine ((hstart.snoc ?_).idle (by simp [retried])).snoc ?_
    · intro i call hm hphase
      cases hm
      rw [hfirst.1] at hphase
      cases hphase
      rw [hfirst.2]
      rfl
    · intro i call hm hphase
      cases hm
      rw [hretried.1] at hphase
      cases hphase
      rw [hretried.2.1, hversion]
      rfl
  refine ⟨hundisturbed, hwritten.1, ?_, ?_⟩
  · rw [hwritten.2, hholds.remembered_eq]
    rfl
  · rw [inTurn, race_snoc]
    simp only [act, hretried.1, Race.answer, Race.goto, hretried.2.2]
    rfl

def disputeRequest : Request := ⟨⟨"1", noon none⟩, openDispute none (noon (some .utc))⟩

/-- The dispute under another key. -/
def repeatedDispute : Observation :=
  { openDispute none (noon (some .utc)) with idempotency_key := "dispute-key-2" }

def repeatedRequest : Request := ⟨⟨"2", noon none⟩, repeatedDispute⟩

omit [DecidableEq ι] [Unicode] [Interpreter] [Sha256] in
theorem repeatedDispute_checked : checkObservation repeatedDispute = .ok () := by decide +kernel

omit [DecidableEq ι] [Unicode] [Interpreter] [Sha256] in
/-- Two instances observe disputes at the same time. The second is refused at its
check and tries again, and both observations are kept. -/
theorem disputes_kept_in_turn :
    letI := spelling
    letI := asciiTables
    letI := strictInterpreter
    ∃ moves : List (Move Bool), AllUndisturbed moves ∧
      (∃ before after, moves = before ++ .check false :: after ∧
        (act (race before) (.check false)).2 =
          some (.conflict "subject memory version changed before commit")) ∧
      ∀ request ∈ [disputeRequest, repeatedRequest], ∃ answer ∈ (race moves).answered,
        answer.1 = request ∧ Present (remembered (race moves).store) answer := by
  let _ := spelling
  let _ := asciiTables
  let _ := strictInterpreter
  have := spelling_nonempty
  obtain ⟨hundisturbed, hphase, hstored, hanswered⟩ := race_inTurn disputeRequest repeatedRequest
    (openDispute_checked (noon (some .utc))) (openDispute_classified (noon (some .utc)))
    (by decide) repeatedDispute_checked (openDispute_classified (noon (some .utc))) rfl (by decide)
  obtain ⟨hkept, _, hrefused⟩ := observations_kept _ hundisturbed
  have hsplit : inTurn disputeRequest repeatedRequest =
      (contended disputeRequest repeatedRequest ++ [.write true]) ++ .check false ::
        ([.start false repeatedRequest, .check false, .log false] ++ [.write false]) := rfl
  refine ⟨_, hundisturbed, ⟨_, _, hsplit, hrefused _ false _ _ hsplit hphase ?_⟩, ?_⟩
  · rw [hstored]
    intro h
    simpa [firstCall, extendMemory, emptyMemory] using congrArg List.length h
  · intro request hrequest
    rw [← hanswered] at hrequest
    obtain ⟨answer, hanswer, rfl⟩ := List.mem_map.mp hrequest
    exact ⟨answer, hanswer, rfl, hkept _ [] (List.append_nil _).symm answer hanswer⟩

omit [DecidableEq ι] [Unicode] [Interpreter] [Sha256] in
theorem overlap_loses_dispute :
    letI := spelling
    letI := asciiTables
    letI := strictInterpreter
    ¬ ∀ (moves before after : List (Move Bool)), moves = before ++ after →
      ∀ answer ∈ (race before).answered, Present (remembered (race moves).store) answer := by
  let _ := spelling
  let _ := asciiTables
  let _ := strictInterpreter
  have := spelling_nonempty
  intro hkept
  have hclass' : classifyObservation repeatedDispute =
      .ok ⟨.accepted, disputeFacts, [], ["structured_fact_accepted"]⟩ :=
    openDispute_classified (noon (some .utc))
  obtain ⟨hstore, hanswered⟩ := race_overlapping disputeRequest repeatedRequest
    (openDispute_checked (noon (some .utc))) (openDispute_classified (noon (some .utc)))
    repeatedDispute_checked hclass'
  obtain ⟨item, hitem, _, hkey, _⟩ := hkept _ _ [] (List.append_nil _).symm _ hanswered
  have hwell : ∀ item ∈ (firstCall repeatedRequest _).updated.observations, item.Wellformed :=
    Holds.empty.wellformed_extended (stored_wellformed hclass') rfl
  rw [hstore, (Holds.written _ hwell).remembered_eq] at hitem
  rw [List.mem_singleton.mp hitem] at hkey
  exact absurd hkey (by decide +kernel)

end Overlaps

end MemoryGuard.Races
