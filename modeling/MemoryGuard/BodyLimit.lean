import MemoryGuard.CanonicalText
import MemoryGuard.StrictJson
import Mathlib.Data.List.DropRight

/-!
The limit on the bodies of requests. The chunks of a body are collected and
counted before the application sees any of them. A body that the media type of
its request announces as JSON has to pass the boundary; then the body is handed
on as one chunk. The application decides by itself whether it parses the body.
-/
namespace MemoryGuard.BodyLimit

open OrderedDict Guarded Worklist JsonText JsonScanner StrictJson

section Media

variable {α : Type} [DecidableEq α]

/-- `s.strip()`, for the whitespace of the type. -/
def strip (space : α → Bool) (s : List α) : List α := (s.dropWhile space).rdropWhile space

/-- The media types that announce JSON, given how a literal is written. -/
def NamesJson (lit : String → List α) (media : List α) : Prop :=
  media = lit "application/json" ∨ (lit "application/" <+: media ∧ lit "+json" <:+ media)

instance (lit : String → List α) (media : List α) : Decidable (NamesJson lit media) :=
  inferInstanceAs (Decidable (_ ∨ _))

/-- The whitespace of byte strings. -/
def isSpaceByte (b : UInt8) : Bool := b ∈ [9, 10, 11, 12, 13, 32]

/-- `bytes.lower`, of one byte. -/
def lowerByte (b : UInt8) : UInt8 := if 65 ≤ b ∧ b ≤ 90 then b + 32 else b

/-- The value of a header up to its parameters, without the whitespace around it. -/
def mediaType (value : Bytes) : Bytes :=
  (strip isSpaceByte (value.takeWhile (· ≠ 59))).map lowerByte

end Media

section Guard

structure CaseworkBodyLimit where
  max_bytes : ℕ

structure Scope where
  type : String
  path : Option String
  headers : Option (List (Bytes × Bytes))

/-- What a call of `receive` comes to. -/
inductive Message
  | timeout
  | disconnect
  | request (body : Option Bytes) (more_body : Option Bool)
  deriving DecidableEq

inductive Outcome
  | passed
  | waiting
  | closed
  | refused (status_code : ℕ) (error : String) (executable : Bool)
  | forwarded (messages : List Message)
  deriving DecidableEq

/-- The loop that collects the chunks, with what has been collected before. -/
def collect (max_bytes : ℕ) : List Message → ℕ → List Bytes →
    Except Outcome (List Bytes × List Message)
  | [], _, _ => .error .waiting
  | .timeout :: _, _, _ => .error (.refused 408 "REQUEST_BODY_TIMEOUT" false)
  | .disconnect :: _, _, _ => .error .closed
  | .request body more_body :: rest, size, parts =>
    let body := body.getD []
    let size := size + body.length
    if max_bytes < size then .error (.refused 413 "PAYLOAD_TOO_LARGE" false)
    else if more_body.getD false then collect max_bytes rest size (parts ++ [body])
    else .ok (parts ++ [body], rest)

/-- `{key.lower(): value for key, value in headers}`. -/
def headerDict (headers : List (Bytes × Bytes)) : Dict Bytes Bytes :=
  headers.foldl (fun d header => d.set (header.1.map lowerByte) header.2) Dict.empty

def contentType : Bytes := utf8 "content-type"

/-- `is_json`. -/
def IsJson (headers : List (Bytes × Bytes)) : Prop :=
  let media := mediaType (((headerDict headers).get? contentType).getD [])
  media = [] ∨ NamesJson utf8 media

instance (headers : List (Bytes × Bytes)) : Decidable (IsJson headers) :=
  inferInstanceAs (Decidable (_ ∨ _))

def Guards (scope : Scope) : Prop :=
  scope.type = "http" ∧ "/api/v2/".toList <+: (scope.path.getD "").toList

instance (scope : Scope) : Decidable (Guards scope) := inferInstanceAs (Decidable (_ ∧ _))

instance (e : Raised) : Decidable e.IsValueError := inferInstanceAs (Decidable (_ ≠ _))

/-- `__call__`, of a scope and what `receive` comes to one call after the other. The
application then receives the body as one message, and what is left of the calls. -/
def call (limits : Limits) (self : CaseworkBodyLimit) (scope : Scope) (messages : List Message) :
    Except Raised Outcome :=
  if ¬ Guards scope then return .passed
  else match collect self.max_bytes messages 0 [] with
    | .error outcome => return outcome
    | .ok (parts, rest) =>
      let raw := parts.flatten
      let forwarded := Outcome.forwarded (.request (some raw) (some false) :: rest)
      if raw ≠ [] ∧ IsJson (scope.headers.getD []) then
        match strictJson limits (.bytes raw) self.max_bytes 48 with
        | .ok _ => return forwarded
        | .error e =>
          if e.IsValueError then return .refused 422 "AMBIGUOUS_OR_INVALID_JSON" false
          else throw e
      else return forwarded

end Guard

section Framework

def byteChar (b : UInt8) : Char := Char.ofNat b.toNat

/-- `value.decode("latin-1")`. -/
def latin1 (value : Bytes) : List Char := value.map byteChar

/-- `str.lower`, of a character of latin-1. -/
def lowerLatin1 (c : Char) : Char :=
  if 192 ≤ c.toNat ∧ c.toNat ≤ 222 ∧ c.toNat ≠ 215 then Char.ofNat (c.toNat + 32) else c.toLower

/-- The values of the headers that name the media type, in their order. -/
def contentTypes (headers : List (Bytes × Bytes)) : List Bytes :=
  (headers.filter fun header => header.1.map lowerByte = contentType).map Prod.snd

/-- The media type as the framework reads it from a header. -/
def frameworkMedia (value : Bytes) : List Char :=
  (strip CanonicalText.isSpace ((latin1 value).takeWhile (· ≠ ';'))).map lowerLatin1

/-- Whether the framework parses the body of a request as JSON: the first header
decides, and without one it does. -/
def ParsesJson (headers : List (Bytes × Bytes)) : Prop :=
  ∀ value ∈ (contentTypes headers).head?, NamesJson String.toList (frameworkMedia value)

instance (headers : List (Bytes × Bytes)) : Decidable (ParsesJson headers) :=
  inferInstanceAs (Decidable (∀ value ∈ (contentTypes headers).head?, _))

/-- Messages that begin with a whole body in these chunks. -/
inductive Streams : List Message → List Bytes → List Message → Prop
  | last (body : Option Bytes) (more_body : Option Bool) (rest : List Message)
      (hlast : more_body.getD false = false) :
      Streams (.request body more_body :: rest) [body.getD []] rest
  | more (body : Option Bytes) (more_body : Option Bool) {messages : List Message}
      {chunks : List Bytes} {rest : List Message} (hmore : more_body.getD false = true)
      (later : Streams messages chunks rest) :
      Streams (.request body more_body :: messages) (body.getD [] :: chunks) rest

end Framework

section Collecting

variable {max_bytes : ℕ} {messages : List Message}

theorem Streams.unique {chunks chunks' : List Bytes} {rest rest' : List Message}
    (h : Streams messages chunks rest) (h' : Streams messages chunks' rest') :
    chunks = chunks' ∧ rest = rest' := by
  induction h generalizing chunks' rest' with
  | last body more_body rest hlast =>
    cases h' with
    | last => exact ⟨rfl, rfl⟩
    | more _ _ hmore => rw [hlast] at hmore; cases hmore
  | more body more_body hmore _ ih =>
    cases h' with
    | last _ _ _ hlast => rw [hmore] at hlast; cases hlast
    | more _ _ _ later' =>
      obtain ⟨rfl, rfl⟩ := ih later'
      exact ⟨rfl, rfl⟩

/-- The collection goes through when a whole body arrives that is not too large. -/
theorem collect_ok_iff {size : ℕ} {parts all : List Bytes} {rest : List Message} :
    collect max_bytes messages size parts = .ok (all, rest) ↔
      ∃ chunks, Streams messages chunks rest ∧ size + chunks.flatten.length ≤ max_bytes ∧
        all = parts ++ chunks := by
  induction messages generalizing size parts with
  | nil => exact ⟨fun h => (nomatch h), fun ⟨_, h, _⟩ => (nomatch h)⟩
  | cons message messages ih =>
    cases message with
    | timeout => exact ⟨fun h => (nomatch h), fun ⟨_, h, _⟩ => (nomatch h)⟩
    | disconnect => exact ⟨fun h => (nomatch h), fun ⟨_, h, _⟩ => (nomatch h)⟩
    | request body more_body =>
      unfold collect
      dsimp only
      by_cases hsize : max_bytes < size + (body.getD []).length
      · rw [if_pos hsize]
        refine ⟨fun h => (nomatch h), ?_⟩
        rintro ⟨chunks, hstreams, hle, _⟩
        cases hstreams <;> simp only [List.flatten_cons, List.length_append] at hle <;> omega
      · rw [if_neg hsize]
        by_cases hmore : more_body.getD false = true
        · rw [if_pos hmore, ih]
          constructor
          · rintro ⟨chunks, hstreams, hle, rfl⟩
            refine ⟨body.getD [] :: chunks, .more body more_body hmore hstreams, ?_, by simp⟩
            simp only [List.flatten_cons, List.length_append]
            omega
          · rintro ⟨_, hstreams, hle, rfl⟩
            cases hstreams with
            | last _ _ _ hlast => rw [hmore] at hlast; cases hlast
            | more _ _ _ later =>
              simp only [List.flatten_cons, List.length_append] at hle
              exact ⟨_, later, by omega, by simp⟩
        · rw [if_neg hmore]
          have hlast : more_body.getD false = false := by simpa using hmore
          constructor
          · intro h
            obtain ⟨rfl, rfl⟩ := Prod.mk.inj (Except.ok.inj h)
            refine ⟨[body.getD []], .last body more_body _ hlast, ?_, rfl⟩
            simp only [List.flatten_cons, List.flatten_nil, List.append_nil]
            omega
          · rintro ⟨_, hstreams, hle, rfl⟩
            cases hstreams with
            | last => rfl
            | more _ _ hmore' => exact absurd hmore' hmore

/-- A body that does not arrive whole is not handed on. -/
theorem collect_error {size : ℕ} {parts : List Bytes} {outcome : Outcome}
    (h : collect max_bytes messages size parts = .error outcome) (forwarded : List Message) :
    outcome ≠ .forwarded forwarded := by
  induction messages generalizing size parts with
  | nil => exact Except.error.inj h ▸ Outcome.noConfusion
  | cons message messages ih =>
    cases message with
    | timeout => exact Except.error.inj h ▸ Outcome.noConfusion
    | disconnect => exact Except.error.inj h ▸ Outcome.noConfusion
    | request body more_body =>
      unfold collect at h
      dsimp only at h
      split at h
      · exact Except.error.inj h ▸ Outcome.noConfusion
      · split at h
        · exact ih h
        · cases h

end Collecting

section Headers

variable {headers : List (Bytes × Bytes)}

/-- The dictionary of the headers keeps the last value of a repeated name. -/
theorem headerDict_contentType (headers : List (Bytes × Bytes)) :
    (headerDict headers).get? contentType = (contentTypes headers).getLast? := by
  induction headers using List.reverseRecOn with
  | nil => rfl
  | append_singleton headers header ih =>
    unfold headerDict at ih ⊢
    unfold contentTypes at ih ⊢
    rw [List.foldl_concat, Dict.get?_set, List.filter_append, List.map_append]
    by_cases hname : header.1.map lowerByte = contentType
    · simp [hname]
    · simp [hname, ih]

/-- What makes the two decisions differ: the first header announces JSON, and the last
one, with the whitespace of byte strings taken off, something else. -/
structure Evades (headers : List (Bytes × Bytes)) (first last : Bytes) : Prop where
  head : (contentTypes headers).head? = some first
  getLast : (contentTypes headers).getLast? = some last
  json : NamesJson String.toList (frameworkMedia first)
  named : mediaType last ≠ []
  other : ¬ NamesJson utf8 (mediaType last)

theorem evades_iff :
    (∃ first last, Evades headers first last) ↔ ParsesJson headers ∧ ¬ IsJson headers := by
  unfold ParsesJson IsJson
  dsimp only
  rw [headerDict_contentType]
  constructor
  · rintro ⟨first, last, h⟩
    rw [h.head, h.getLast]
    refine ⟨fun value hvalue => ?_, ?_⟩
    · rw [← Option.some.inj hvalue]
      exact h.json
    · exact not_or.mpr ⟨h.named, h.other⟩
  · rintro ⟨hjson, hother⟩
    obtain hnone | ⟨last, hlast⟩ := Option.eq_none_or_eq_some (contentTypes headers).getLast?
    · rw [hnone] at hother
      exact absurd (Or.inl (by decide +kernel)) hother
    · have hne : contentTypes headers ≠ [] := by
        intro hnil
        rw [hnil] at hlast
        cases hlast
      rw [hlast] at hother
      obtain ⟨hnamed, hnot⟩ := not_or.mp hother
      have hfirst := List.head?_eq_some_head hne
      exact ⟨_, last, hfirst, hlast, hjson _ hfirst, hnamed, hnot⟩

end Headers

section Agreement

variable {α β : Type}

theorem dropWhile_congr {p q : α → Bool} {l : List α} (h : ∀ a ∈ l, p a = q a) :
    l.dropWhile p = l.dropWhile q := by
  induction l with
  | nil => rfl
  | cons a l ih =>
    rw [List.dropWhile_cons, List.dropWhile_cons, h a List.mem_cons_self,
      ih fun b hb => h b (List.mem_cons_of_mem _ hb)]

theorem strip_congr {p q : α → Bool} {l : List α} (h : ∀ a ∈ l, p a = q a) :
    strip p l = strip q l := by
  unfold strip List.rdropWhile
  rw [dropWhile_congr h]
  refine congrArg List.reverse (dropWhile_congr fun a ha => h a ?_)
  exact (List.dropWhile_suffix q).subset (List.mem_reverse.mp ha)

theorem strip_map (p : β → Bool) (f : α → β) (l : List α) :
    strip p (l.map f) = (strip (p ∘ f) l).map f := by
  unfold strip List.rdropWhile
  rw [List.dropWhile_map, ← List.map_reverse, List.dropWhile_map, ← List.map_reverse]

/-- The whitespace that texts have and byte strings do not. -/
def oddSpaces : List UInt8 := [28, 29, 30, 31, 133, 160]

theorem forall_byte {P : UInt8 → Prop} (h : ∀ n < 256, P (UInt8.ofNat n)) (b : UInt8) : P b := by
  have hb := h b.toNat (UInt8.toNat_lt b)
  rwa [UInt8.ofNat_toNat] at hb

theorem isSpace_byteChar (b : UInt8) (hodd : b ∉ oddSpaces) :
    CanonicalText.isSpace (byteChar b) = isSpaceByte b := by
  revert hodd
  refine forall_byte (P := fun b => b ∉ oddSpaces →
    CanonicalText.isSpace (byteChar b) = isSpaceByte b) ?_ b
  decide +kernel

theorem semicolon_byteChar (b : UInt8) : (byteChar b ≠ ';') ↔ b ≠ 59 := by
  refine forall_byte (P := fun b => (byteChar b ≠ ';') ↔ b ≠ 59) ?_ b
  decide +kernel

/-- Lower case, as texts have it and as byte strings have it, is the same for ASCII,
and takes nothing else to ASCII. -/
theorem lower_byteChar (b : UInt8) :
    (lowerByte b < 128 ∧ lowerLatin1 (byteChar b) = byteChar (lowerByte b)) ∨
      (128 ≤ lowerByte b ∧ 128 ≤ (lowerLatin1 (byteChar b)).toNat) := by
  refine forall_byte (P := fun b =>
    (lowerByte b < 128 ∧ lowerLatin1 (byteChar b) = byteChar (lowerByte b)) ∨
      (128 ≤ lowerByte b ∧ 128 ≤ (lowerLatin1 (byteChar b)).toNat)) ?_ b
  decide +kernel

theorem byteChar_toNat (b : UInt8) : (byteChar b).toNat = b.toNat := by
  refine forall_byte (P := fun b => (byteChar b).toNat = b.toNat) ?_ b
  decide +kernel

/-- A text of ASCII is found in lower case on both sides, or on neither. -/
theorem lower_eq_iff {x w : Bytes} (hw : ∀ a ∈ w, a < 128) :
    w.map byteChar = x.map (fun b => lowerLatin1 (byteChar b)) ↔ w = x.map lowerByte := by
  induction x generalizing w with
  | nil => simp
  | cons b x ih =>
    cases w with
    | nil => simp
    | cons a w =>
      have ha : a < 128 := hw a List.mem_cons_self
      have hrest := ih fun c hc => hw c (List.mem_cons_of_mem _ hc)
      simp only [List.map_cons, List.cons.injEq, hrest]
      refine and_congr_left fun _ => ?_
      rcases lower_byteChar b with ⟨_, hlower⟩ | ⟨hbyte, hchar⟩
      · rw [hlower]
        refine ⟨fun h => UInt8.toNat_inj.mp ?_, congrArg byteChar⟩
        rw [← byteChar_toNat, ← byteChar_toNat, h]
      · constructor
        · intro h
          rw [← h, byteChar_toNat] at hchar
          have : a.toNat < 128 := ha
          omega
        · intro h
          rw [← h] at hbyte
          exact absurd ha (UInt8.not_lt.mpr hbyte)

theorem namesJson_iff (x : Bytes) :
    NamesJson String.toList (x.map fun b => lowerLatin1 (byteChar b)) ↔
      NamesJson utf8 (x.map lowerByte) := by
  have hlit : ∀ s ∈ ["application/json", "application/", "+json"],
      s.toList = (utf8 s).map byteChar ∧ ∀ a ∈ utf8 s, a < 128 := by
    decide +kernel
  obtain ⟨hjson, hjson'⟩ := hlit "application/json" (by simp)
  obtain ⟨happlication, happlication'⟩ := hlit "application/" (by simp)
  obtain ⟨hplus, hplus'⟩ := hlit "+json" (by simp)
  unfold NamesJson
  rw [hjson, happlication, hplus, List.prefix_iff_eq_take, List.prefix_iff_eq_take,
    List.suffix_iff_eq_drop, List.suffix_iff_eq_drop]
  simp only [List.length_map, ← List.map_take, ← List.map_drop]
  rw [lower_eq_iff happlication', lower_eq_iff hplus', eq_comm (b := (utf8 _).map byteChar),
    lower_eq_iff hjson', eq_comm (b := utf8 "application/json")]

/-- Where no byte of a value is whitespace of texts alone, both read the same media
type from it. -/
theorem frameworkMedia_iff {value : Bytes} (h : ∀ b ∈ value, b ∉ oddSpaces) :
    NamesJson String.toList (frameworkMedia value) ↔ NamesJson utf8 (mediaType value) := by
  have hcut : (latin1 value).takeWhile (fun c => decide (c ≠ ';')) =
      (value.takeWhile (fun b => decide (b ≠ 59))).map byteChar := by
    unfold latin1
    rw [List.takeWhile_map]
    refine congrArg (List.map byteChar) (congrArg (List.takeWhile · value) (funext fun b => ?_))
    exact decide_eq_decide.mpr (semicolon_byteChar b)
  have hstrip : strip (CanonicalText.isSpace ∘ byteChar) (value.takeWhile fun b => decide (b ≠ 59)) =
      strip isSpaceByte (value.takeWhile fun b => decide (b ≠ 59)) :=
    strip_congr fun b hb => isSpace_byteChar b (h b ((List.takeWhile_prefix _).subset hb))
  unfold frameworkMedia mediaType
  rw [hcut, strip_map, hstrip, List.map_map]
  exact namesJson_iff _

/-- A request evades only by headers of different values, or by whitespace that byte
strings do not have. -/
theorem Evades.kinds {headers : List (Bytes × Bytes)} {first last : Bytes}
    (h : Evades headers first last) : first ≠ last ∨ ∃ b ∈ first, b ∈ oddSpaces := by
  by_contra hnone
  obtain ⟨hsame, hplain⟩ := not_or.mp hnone
  rw [not_exists] at hplain
  have hjson := (frameworkMedia_iff fun b hb hodd => hplain b ⟨hb, hodd⟩).mp h.json
  rw [not_not.mp hsame] at hjson
  exact h.other hjson

/-- One header and a byte of whitespace are enough. -/
example : Evades [(utf8 "Content-Type", utf8 "application/json" ++ [160])]
    (utf8 "application/json" ++ [160]) (utf8 "application/json" ++ [160]) :=
  ⟨by decide +kernel, by decide +kernel, by decide +kernel, by decide +kernel, by decide +kernel⟩

end Agreement

section Delivery

variable {limits : Limits} {self : CaseworkBodyLimit} {scope : Scope} {messages : List Message}

/-- What is handed on, and when: a whole body that is not too large, and that passes
the boundary where the guard takes it for JSON. -/
theorem call_forwards_iff (hguards : Guards scope) {forwarded : List Message} :
    call limits self scope messages = .ok (.forwarded forwarded) ↔
      ∃ chunks rest, Streams messages chunks rest ∧ chunks.flatten.length ≤ self.max_bytes ∧
        forwarded = .request (some chunks.flatten) (some false) :: rest ∧
        (chunks.flatten ≠ [] → IsJson (scope.headers.getD []) →
          ∃ v, strictJson limits (.bytes chunks.flatten) self.max_bytes 48 = .ok v) := by
  unfold call
  rw [if_neg (not_not.mpr hguards)]
  cases hcollect : collect self.max_bytes messages 0 [] with
  | error outcome =>
    dsimp only
    constructor
    · intro h
      exact absurd (Except.ok.inj h) (collect_error hcollect forwarded)
    · rintro ⟨chunks, rest, hstreams, hle, _⟩
      have hok : collect self.max_bytes messages 0 [] = .ok (chunks, rest) :=
        collect_ok_iff.mpr ⟨chunks, hstreams, (Nat.zero_add _).le.trans hle, rfl⟩
      rw [hcollect] at hok
      cases hok
  | ok collected =>
    obtain ⟨chunks, rest⟩ := collected
    obtain ⟨_, hstreams, hle, rfl⟩ := collect_ok_iff.mp hcollect
    rw [Nat.zero_add] at hle
    dsimp only
    have hwhole : ∀ P : List Bytes → List Message → Prop,
        (∃ chunks' rest', Streams messages chunks' rest' ∧ P chunks' rest') ↔ P chunks rest := by
      intro P
      constructor
      · rintro ⟨chunks', rest', hstreams', hP⟩
        obtain ⟨rfl, rfl⟩ := hstreams.unique hstreams'
        exact hP
      · exact fun hP => ⟨chunks, rest, hstreams, hP⟩
    rw [hwhole fun chunks rest => chunks.flatten.length ≤ self.max_bytes ∧
      forwarded = .request (some chunks.flatten) (some false) :: rest ∧ _]
    by_cases hread : chunks.flatten ≠ [] ∧ IsJson (scope.headers.getD [])
    · rw [if_pos hread]
      cases hstrict : strictJson limits (.bytes chunks.flatten) self.max_bytes 48 with
      | ok v =>
        refine ⟨fun h => ⟨hle, (Outcome.forwarded.inj (Except.ok.inj h)).symm, fun _ _ => ⟨v, rfl⟩⟩,
          fun h => ?_⟩
        rw [h.2.1]
        rfl
      | error e =>
        constructor
        · intro h
          dsimp only at h
          split at h <;> cases h
        · rintro ⟨_, _, hpasses⟩
          obtain ⟨v, hv⟩ := hpasses hread.1 hread.2
          cases hv
    · rw [if_neg hread]
      refine ⟨fun h => ⟨hle, (Outcome.forwarded.inj (Except.ok.inj h)).symm,
        fun hne hjson => absurd ⟨hne, hjson⟩ hread⟩, fun h => ?_⟩
      rw [h.2.1]
      rfl

/-- What the application relies on: it receives the chunks as one body, not too large,
and when it parses the body as JSON the boundary has accepted it. -/
def Delivers (limits : Limits) (self : CaseworkBodyLimit) (scope : Scope)
    (messages : List Message) : Prop :=
  Guards scope → ∀ forwarded, call limits self scope messages = .ok (.forwarded forwarded) →
    ∃ chunks rest, Streams messages chunks rest ∧
      forwarded = .request (some chunks.flatten) (some false) :: rest ∧
      chunks.flatten.length ≤ self.max_bytes ∧
      (chunks.flatten ≠ [] → ParsesJson (scope.headers.getD []) →
        ∃ v, strictJson limits (.bytes chunks.flatten) self.max_bytes 48 = .ok v ∧
          Everywhere Value.children (fun n => n.keys.Nodup) v)

/-- A request whose body arrives whole, would be refused by the boundary, and is
parsed as JSON, while the guard takes the headers to announce something else. -/
def SlipsThrough (limits : Limits) (self : CaseworkBodyLimit) (scope : Scope)
    (messages : List Message) : Prop :=
  Guards scope ∧ ∃ chunks rest, Streams messages chunks rest ∧
    chunks.flatten.length ≤ self.max_bytes ∧ chunks.flatten ≠ [] ∧
    (∃ first last, Evades (scope.headers.getD []) first last) ∧
    ∀ v, strictJson limits (.bytes chunks.flatten) self.max_bytes 48 ≠ .ok v

theorem not_delivers (h : SlipsThrough limits self scope messages) :
    ¬ Delivers limits self scope messages := by
  intro hdelivers
  obtain ⟨hguards, chunks, rest, hstreams, hle, hne, hevades, hrefused⟩ := h
  obtain ⟨hparses, hother⟩ := evades_iff.mp hevades
  obtain ⟨chunks', rest', hstreams', _, _, hjson⟩ := hdelivers hguards _
    ((call_forwards_iff hguards).mpr ⟨chunks, rest, hstreams, hle, rfl,
      fun _ hguard => absurd hguard hother⟩)
  obtain ⟨rfl, rfl⟩ := hstreams.unique hstreams'
  obtain ⟨v, hv, _⟩ := hjson hne hparses
  exact hrefused v hv

theorem delivers_iff (limits : Limits) (self : CaseworkBodyLimit) (scope : Scope)
    (messages : List Message) :
    Delivers limits self scope messages ↔ ¬ SlipsThrough limits self scope messages := by
  constructor
  · exact fun hdelivers hslips => not_delivers hslips hdelivers
  · intro hnot hguards forwarded hcall
    obtain ⟨chunks, rest, hstreams, hle, hforwarded, hchecked⟩ :=
      (call_forwards_iff hguards).mp hcall
    refine ⟨chunks, rest, hstreams, hforwarded, hle, fun hne hparses => ?_⟩
    have haccepted : ∃ v, strictJson limits (.bytes chunks.flatten) self.max_bytes 48 = .ok v := by
      by_cases hjson : IsJson (scope.headers.getD [])
      · exact hchecked hne hjson
      · by_contra hnone
        exact hnot ⟨hguards, chunks, rest, hstreams, hle, hne, evades_iff.mpr ⟨hparses, hjson⟩,
          not_exists.mp hnone⟩
    obtain ⟨v, hv⟩ := haccepted
    exact ⟨v, hv, ((strictJson_ok_iff (within_of_ok hv)).mp hv).2.distinct⟩

end Delivery

section Repeated

/-- A request that names two media types. -/
def doubled : Scope where
  type := "http"
  path := some "/api/v2/echo"
  headers := some [(utf8 "content-type", utf8 "application/json"),
    (utf8 "content-type", utf8 "text/plain")]

def ambiguous : Bytes := utf8 "\x7b\"x\":1,\"x\":2\x7d"

theorem doubled_slips : ¬ Delivers ⟨1000, 4300⟩ ⟨65536⟩ doubled
    [.request (some ambiguous) (some false)] := by
  have hrefused : strictJson ⟨1000, 4300⟩ (.bytes ambiguous) 65536 48 =
      .error (.value "duplicate JSON key") := by
    decide +kernel
  refine not_delivers ⟨by decide +kernel, [ambiguous], [], .last _ _ _ rfl, by decide +kernel,
    by decide +kernel, evades_iff.mpr ⟨by decide +kernel, by decide +kernel⟩, fun v hv => ?_⟩
  rw [show [ambiguous].flatten = ambiguous by decide +kernel, hrefused] at hv
  cases hv

end Repeated

end MemoryGuard.BodyLimit
