import MemoryGuard.OrderedDict
import MemoryGuard.Guarded
import MemoryGuard.Traces
import Mathlib.Algebra.Order.Ring.Rat
import Mathlib.Data.List.TakeWhile
import Mathlib.Data.Rat.Floor
import Mathlib.Tactic.Linarith

/-!
The rate limiter. For each key it keeps the times of the calls that it has
allowed in the last window, in a dictionary that is kept small: when it is full
and a new key comes, the buckets that have run out are dropped, and if that is
not enough the bucket that was used least recently is dropped as well. Times are
rationals.
-/
namespace MemoryGuard.RateLimit

open OrderedDict Guarded Traces

section Limiter

/-- The exceptions of the limiter's operations on lists and dictionaries. -/
inductive Raised
  | value (message : String)
  | index
  deriving DecidableEq

/-- A configured limiter, without its buckets and its clock. -/
structure FixedWindowRateLimiter where
  limit : ℕ
  window_seconds : ℚ
  max_keys : ℕ
  limit_pos : 1 ≤ limit
  window_pos : 0 < window_seconds
  max_keys_pos : 1 ≤ max_keys

/-- The constructor. -/
def configure (limit : ℕ) (window_seconds : ℚ) (max_keys : ℕ) :
    Except Raised FixedWindowRateLimiter :=
  if h : limit < 1 ∨ window_seconds ≤ 0 ∨ max_keys < 1 then
    .error (.value "rate limit and window must be positive")
  else
    .ok ⟨limit, window_seconds, max_keys, by omega, by
      rcases not_or.mp (not_or.mp h).2 with ⟨hwindow, _⟩
      exact lt_of_not_ge hwindow, by omega⟩

variable {Key : Type} [DecidableEq Key]

abbrev Buckets (Key : Type) := Dict Key (List ℚ)

/-- `int(q)`. -/
def truncate (q : ℚ) : ℤ := if 0 ≤ q then ⌊q⌋ else ⌈q⌉

/-- What a call returns. `evicted` is the key whose bucket it has dropped although
that bucket has not run out; the caller is not told. -/
structure Answer (Key : Type) where
  allowed : Bool
  retry_after : ℤ
  evicted : Option Key
  deriving DecidableEq

/-- A bucket has run out when its last call is too old. -/
def isExpired (cutoff : ℚ) (values : List ℚ) : Bool :=
  match values.getLast? with
  | none => true
  | some last => last ≤ cutoff

/-- The first item with the least number. -/
def leastRecent : List (Key × ℚ) → Option Key
  | [] => none
  | e :: rest => some (rest.foldl (fun best e => if e.2 < best.2 then e else best) e).1

def dropExpired (cutoff : ℚ) (buckets : Buckets Key) : Buckets Key :=
  let expired := (buckets.entries.filter fun e => isExpired cutoff e.2).map Prod.fst
  expired.foldl Dict.erase buckets

/-- When there are still too many buckets, the least recent one is dropped. -/
def makeRoom (max_keys : ℕ) (cutoff : ℚ) (buckets : Buckets Key) :
    Except Raised (Buckets Key × Option Key) := do
  let buckets := dropExpired cutoff buckets
  if max_keys ≤ buckets.size then do
    let recent ← buckets.entries.mapM fun e => do
      return (e.1, ← fetch e.2.getLast? Raised.index)
    let oldest_key ← fetch (leastRecent recent) (.value "min() arg is an empty sequence")
    return (buckets.erase oldest_key, some oldest_key)
  else
    return (buckets, none)

variable (limiter : FixedWindowRateLimiter)

/-- The buckets when the key's own is looked up, and what was dropped for it. -/
def prepared (now : ℚ) (key : Key) (buckets : Buckets Key) :
    Except Raised (Buckets Key × Option Key) :=
  if limiter.max_keys ≤ buckets.size ∧ ¬ buckets.Has key then
    makeRoom limiter.max_keys (now - limiter.window_seconds) buckets
  else pure (buckets, none)

/-- `allow`, at the time that the clock shows. -/
def allow (now : ℚ) (key : Key) (buckets : Buckets Key) :
    Except Raised (Answer Key × Buckets Key) := do
  let cutoff := now - limiter.window_seconds
  let (buckets, evicted) ← prepared limiter now key buckets
  let bucket := ((buckets.get? key).getD []).dropWhile (· ≤ cutoff)
  if limiter.limit ≤ bucket.length then do
    let first ← fetch bucket.head? Raised.index
    let retry_after := max 1 (truncate (limiter.window_seconds - (now - first)) + 1)
    return (⟨false, retry_after, evicted⟩, buckets.set key bucket)
  else
    return (⟨true, 0, evicted⟩, buckets.set key (bucket ++ [now]))

end Limiter

section Calls

variable {Key : Type} [DecidableEq Key]

def bucketOf (buckets : Buckets Key) (key : Key) : List ℚ := (buckets.get? key).getD []

omit [DecidableEq Key] in
theorem mem_of_leastRecent {l : List (Key × ℚ)} {k : Key} (h : leastRecent l = some k) :
    k ∈ l.map Prod.fst := by
  cases l with
  | nil => cases h
  | cons e rest =>
    have hfold : ∀ (l : List (Key × ℚ)) (best : Key × ℚ),
        l.foldl (fun best e => if e.2 < best.2 then e else best) best ∈ best :: l := by
      intro l
      induction l with
      | nil => simp
      | cons e l ih =>
        intro best
        rw [List.foldl_cons]
        have hmem := ih (if e.2 < best.2 then e else best)
        rcases List.mem_cons.mp hmem with heq | htail
        · rw [heq]
          split <;> simp
        · exact List.mem_cons_of_mem _ (List.mem_cons_of_mem _ htail)
    cases h
    exact List.mem_map_of_mem (hfold rest e)

theorem exists_last_of_not_expired {cutoff : ℚ} {values : List ℚ}
    (h : isExpired cutoff values = false) : ∃ last, values.getLast? = some last := by
  cases values with
  | nil => cases h
  | cons t rest => exact ⟨_, List.getLast?_eq_some_getLast (List.cons_ne_nil _ _)⟩

/-- A bucket stays, or it is dropped because it has run out or for want of room. -/
def Remains (cutoff : ℚ) (evicted : Option Key) (buckets buckets' : Buckets Key) (k : Key) :
    Prop :=
  buckets'.get? k = buckets.get? k ∨
    (buckets'.get? k = none ∧ (isExpired cutoff (bucketOf buckets k) ∨ evicted = some k))

/-- What making room does. -/
structure MakesRoom (max_keys : ℕ) (cutoff : ℚ) (buckets buckets' : Buckets Key)
    (evicted : Option Key) : Prop where
  remains : ∀ k, Remains cutoff evicted buckets buckets' k
  dropped : ∀ k, evicted = some k → k ∈ buckets.keys ∧ buckets'.get? k = none
  size : buckets.size ≤ max_keys → buckets'.size < max_keys

theorem get?_dropExpired (cutoff : ℚ) (buckets : Buckets Key) (k : Key) :
    (dropExpired cutoff buckets).get? k =
      if isExpired cutoff (bucketOf buckets k) then none else buckets.get? k := by
  have hmem : k ∈ (buckets.entries.filter fun e => isExpired cutoff e.2).map Prod.fst ↔
      ∃ values, buckets.get? k = some values ∧ isExpired cutoff values := by
    simp only [List.mem_map, List.mem_filter, Prod.exists, exists_and_right, exists_eq_right,
      Dict.get?_eq_some_iff]
  unfold dropExpired bucketOf
  rw [Dict.get?_foldl_erase]
  cases hget : buckets.get? k with
  | none => simp
  | some values =>
    by_cases hexpired : isExpired cutoff values
    · have hk := hmem.mpr ⟨values, hget, hexpired⟩
      rw [if_pos hk]
      simp [hexpired]
    · have hk : k ∉ (buckets.entries.filter fun e => isExpired cutoff e.2).map Prod.fst := by
        intro hk
        obtain ⟨values', hget', hexpired'⟩ := hmem.mp hk
        rw [hget] at hget'
        cases hget'
        exact hexpired hexpired'
      rw [if_neg hk]
      simp [hexpired]

theorem remains_dropExpired (cutoff : ℚ) (evicted : Option Key) (buckets : Buckets Key) (k : Key) :
    Remains cutoff evicted buckets (dropExpired cutoff buckets) k := by
  unfold Remains
  rw [get?_dropExpired]
  by_cases hexpired : isExpired cutoff (bucketOf buckets k)
  · exact Or.inr ⟨if_pos hexpired, Or.inl hexpired⟩
  · exact Or.inl (if_neg hexpired)

omit [DecidableEq Key] in
theorem recent_keys {l : List (Key × List ℚ)} {recent : List (Key × ℚ)}
    (h : List.Forall₂ (fun e r => (do return (e.1, ← fetch e.2.getLast? Raised.index)) =
      Except.ok r) l recent) : recent.map Prod.fst = l.map Prod.fst := by
  induction h with
  | nil => rfl
  | cons hr _ ih =>
    obtain ⟨_, _, hr⟩ := bind_eq_ok.mp hr
    cases hr
    rw [List.map_cons, List.map_cons, ih]

/-- Room can always be made: what has not run out is not empty. -/
theorem makeRoom_total {max_keys : ℕ} (hpos : 1 ≤ max_keys) (cutoff : ℚ) (buckets : Buckets Key) :
    ∃ buckets' evicted, makeRoom max_keys cutoff buckets = .ok (buckets', evicted) ∧
      MakesRoom max_keys cutoff buckets buckets' evicted := by
  unfold makeRoom
  have hsize : (dropExpired cutoff buckets).size ≤ buckets.size := Dict.size_foldl_erase_le _ _
  by_cases hfull : max_keys ≤ (dropExpired cutoff buckets).size
  · have hlast : ∀ e ∈ (dropExpired cutoff buckets).entries, ∃ r : Key × ℚ,
        (do return (e.1, ← fetch e.2.getLast? Raised.index)) = Except.ok r := by
      intro e he
      have hget := get?_dropExpired cutoff buckets e.1
      rw [Dict.get?_eq_some_iff.mpr he] at hget
      by_cases hexpired : isExpired cutoff (bucketOf buckets e.1)
      · rw [if_pos hexpired] at hget
        cases hget
      · rw [if_neg hexpired] at hget
        unfold bucketOf at hexpired
        rw [← hget] at hexpired
        obtain ⟨last, hlast⟩ := exists_last_of_not_expired (by simpa using hexpired)
        exact ⟨(e.1, last), bind_eq_ok.mpr ⟨last, fetch_eq_ok.mpr hlast, rfl⟩⟩
    obtain ⟨recent, hrecent⟩ := mapM_total hlast
    have hkeys : recent.map Prod.fst = (dropExpired cutoff buckets).keys :=
      recent_keys (mapM_eq_ok.mp hrecent)
    have holdest : ∃ k, leastRecent recent = some k := by
      cases recent with
      | nil =>
        rw [Dict.size_eq_keys, ← hkeys] at hfull
        exact absurd hfull (by simpa using Nat.pos_iff_ne_zero.mp hpos)
      | cons e rest => exact ⟨_, rfl⟩
    obtain ⟨k, hk⟩ := holdest
    have hmem : k ∈ (dropExpired cutoff buckets).keys := hkeys ▸ mem_of_leastRecent hk
    have hkept : ∀ x, ((dropExpired cutoff buckets).erase k).get? x =
        if x = k then none else (dropExpired cutoff buckets).get? x := Dict.get?_erase _ k
    refine ⟨(dropExpired cutoff buckets).erase k, some k, ?_, ?_, ?_, ?_⟩
    · simp only [hfull, if_true, hrecent, bind_eq_ok, fetch_eq_ok]
      exact ⟨recent, rfl, k, hk, rfl⟩
    · intro x
      unfold Remains
      rw [hkept]
      by_cases hx : x = k
      · exact Or.inr ⟨if_pos hx, Or.inr (congrArg some hx.symm)⟩
      · rw [if_neg hx]
        rcases remains_dropExpired cutoff (some k) buckets x with hsame | hgone
        · exact Or.inl hsame
        · exact Or.inr hgone
    · intro x hx
      cases hx
      refine ⟨?_, by rw [hkept, if_pos rfl]⟩
      obtain ⟨values, hvalues⟩ := Dict.exists_get?_of_mem_keys hmem
      rw [get?_dropExpired] at hvalues
      split at hvalues
      · cases hvalues
      · exact Dict.mem_keys_of_get? hvalues
    · intro hle
      rw [Dict.size_erase_of_mem hmem]
      omega
  · refine ⟨dropExpired cutoff buckets, none, ?_, ?_⟩
    · simp only [hfull, if_false]
      rfl
    · exact ⟨remains_dropExpired cutoff none buckets, fun k hk => (by cases hk), fun _ => by omega⟩

variable (limiter : FixedWindowRateLimiter) (now : ℚ) (key : Key) (buckets : Buckets Key)

/-- The calls for a key that are in the window. -/
def recentCalls : List ℚ :=
  (bucketOf buckets key).dropWhile fun t => t ≤ now - limiter.window_seconds

/-- What a call does and answers. -/
structure Called (answer : Answer Key) (buckets' : Buckets Key) : Prop where
  others : ∀ k, k ≠ key → Remains (now - limiter.window_seconds) answer.evicted buckets buckets' k
  dropped : ∀ k, answer.evicted = some k → k ≠ key ∧ buckets'.get? k = none
  own : bucketOf buckets' key =
    recentCalls limiter now key buckets ++ if answer.allowed then [now] else []
  verdict : answer.allowed = true ↔ (recentCalls limiter now key buckets).length < limiter.limit
  retry : answer.allowed = false → ∃ first, (recentCalls limiter now key buckets).head? = some first ∧
    answer.retry_after = max 1 (truncate (limiter.window_seconds - (now - first)) + 1)
  size : buckets.size ≤ limiter.max_keys → buckets'.size ≤ limiter.max_keys

theorem prepared_total : ∃ buckets' evicted, prepared limiter now key buckets = .ok (buckets', evicted) ∧
    (∀ k, Remains (now - limiter.window_seconds) evicted buckets buckets' k) ∧
    (∀ k, evicted = some k → k ≠ key ∧ buckets'.get? k = none) ∧
    bucketOf buckets' key = bucketOf buckets key ∧
    (buckets.size ≤ limiter.max_keys → buckets'.size ≤ limiter.max_keys ∧
      (buckets'.size < limiter.max_keys ∨ buckets'.Has key)) := by
  unfold prepared
  by_cases hfull : limiter.max_keys ≤ buckets.size ∧ ¬ buckets.Has key
  · obtain ⟨buckets', evicted, hroom, hmakes⟩ :=
      makeRoom_total limiter.max_keys_pos (now - limiter.window_seconds) buckets
    have hnone : buckets.get? key = none := by simpa [Dict.Has] using hfull.2
    refine ⟨buckets', evicted, by rw [if_pos hfull, hroom], hmakes.remains, fun k hk => ?_, ?_, ?_⟩
    · obtain ⟨hmem, hgone⟩ := hmakes.dropped k hk
      refine ⟨fun heq => ?_, hgone⟩
      exact hfull.2 (Dict.has_iff_mem_keys.mpr (heq ▸ hmem))
    · unfold bucketOf
      rcases hmakes.remains key with hsame | ⟨hgone, _⟩
      · rw [hsame]
      · rw [hgone, hnone]
    · intro hsize
      exact ⟨Nat.le_of_lt (hmakes.size hsize), Or.inl (hmakes.size hsize)⟩
  · refine ⟨buckets, none, by rw [if_neg hfull]; rfl, fun k => Or.inl rfl, fun k hk => (by cases hk), rfl,
      fun hsize => ⟨hsize, ?_⟩⟩
    by_cases hroom : limiter.max_keys ≤ buckets.size
    · exact Or.inr (not_not.mp fun hhas => hfull ⟨hroom, hhas⟩)
    · exact Or.inl (Nat.lt_of_not_le hroom)

/-- No call fails, whatever the buckets are. -/
theorem allow_total : ∃ answer buckets', allow limiter now key buckets = .ok (answer, buckets') ∧
    Called limiter now key buckets answer buckets' := by
  obtain ⟨room, evicted, hroom, hremains, hdropped, hown, hsize⟩ :=
    prepared_total limiter now key buckets
  have hbucket : ((room.get? key).getD []).dropWhile
      (fun t => t ≤ now - limiter.window_seconds) = recentCalls limiter now key buckets := by
    unfold recentCalls
    rw [← hown]
    rfl
  have hset : ∀ bucket answer, answer.evicted = evicted →
      bucket = recentCalls limiter now key buckets ++ (if answer.allowed then [now] else []) →
      (answer.allowed = true ↔ (recentCalls limiter now key buckets).length < limiter.limit) →
      (answer.allowed = false → ∃ first,
        (recentCalls limiter now key buckets).head? = some first ∧ answer.retry_after =
          max 1 (truncate (limiter.window_seconds - (now - first)) + 1)) →
      Called limiter now key buckets answer (room.set key bucket) := by
    rintro bucket answer rfl hbucket hverdict hretry
    refine ⟨fun k hk => ?_, fun k hk => ?_, ?_, hverdict, hretry, fun hle => ?_⟩
    · have hsame : (room.set key bucket).get? k = room.get? k :=
        Dict.get?_set_of_ne _ _ (Ne.symm hk)
      unfold Remains
      rw [hsame]
      exact hremains k
    · obtain ⟨hne, hgone⟩ := hdropped k hk
      exact ⟨hne, by rw [Dict.get?_set_of_ne _ _ (Ne.symm hne), hgone]⟩
    · unfold bucketOf
      rw [Dict.get?_set_self]
      exact hbucket
    · obtain ⟨hroomSize, hspace | hhas⟩ := hsize hle
      · have hgrown := Dict.size_set_le room key bucket
        omega
      · rw [Dict.size_set_of_known (Dict.has_iff_mem_keys.mp hhas)]
        exact hroomSize
  unfold allow
  simp only [bind_eq_ok, hroom, Prod.exists]
  by_cases hlimit : limiter.limit ≤ (recentCalls limiter now key buckets).length
  · obtain ⟨first, hfirst⟩ : ∃ first, (recentCalls limiter now key buckets).head? = some first := by
      cases hrecent : recentCalls limiter now key buckets with
      | nil =>
        rw [hrecent] at hlimit
        exact absurd hlimit (by simpa using Nat.pos_iff_ne_zero.mp limiter.limit_pos)
      | cons first rest => exact ⟨first, rfl⟩
    refine ⟨⟨false, max 1 (truncate (limiter.window_seconds - (now - first)) + 1), evicted⟩,
      room.set key (recentCalls limiter now key buckets), ⟨room, evicted, rfl, ?_⟩, ?_⟩
    · rw [hbucket, if_pos hlimit, hfirst]
      rfl
    · exact hset _ _ rfl (by simp) (by simpa using hlimit) fun _ => ⟨first, hfirst, rfl⟩
  · refine ⟨⟨true, 0, evicted⟩, room.set key (recentCalls limiter now key buckets ++ [now]),
      ⟨room, evicted, rfl, ?_⟩, ?_⟩
    · rw [hbucket, if_neg hlimit]
      rfl
    · exact hset _ _ rfl (by simp) (by simpa using hlimit) fun h => nomatch h

theorem called_of_allow {answer : Answer Key} {buckets' : Buckets Key}
    (h : allow limiter now key buckets = .ok (answer, buckets')) :
    Called limiter now key buckets answer buckets' := by
  obtain ⟨answer', buckets'', hallow, hcalled⟩ := allow_total limiter now key buckets
  rw [hallow] at h
  cases h
  exact hcalled

end Calls

section Runs

variable {Key : Type} [DecidableEq Key]

/-- A call with the buckets before and after it. -/
structure Step (Key : Type) where
  pre : Buckets Key
  now : ℚ
  key : Key
  answer : Answer Key
  post : Buckets Key

/-- The limiter under calls of a clock that does not go back. -/
def system (limiter : FixedWindowRateLimiter) : System (Buckets Key) (Step Key) where
  init := Dict.empty
  pre := Step.pre
  post := Step.post
  allowed steps s := (∀ t ∈ steps, t.now ≤ s.now) ∧
    allow limiter s.now s.key s.pre = .ok (s.answer, s.post)

def grant (key : Key) (times : List ℚ) (s : Step Key) : List ℚ :=
  if s.answer.evicted = some key then []
  else if s.key = key ∧ s.answer.allowed then times ++ [s.now]
  else times

/-- The times of the calls that have been allowed for a key since its bucket was
last dropped for want of room. -/
def granted (key : Key) (steps : List (Step Key)) : List ℚ := steps.foldl (grant key) []

/-- The calls that have been allowed for a key in a half-open window. -/
def allowedWithin (key : Key) (x y : ℚ) (steps : List (Step Key)) : List (Step Key) :=
  steps.filter fun s => s.key = key ∧ s.answer.allowed ∧ x < s.now ∧ s.now ≤ y

theorem granted_snoc (key : Key) (steps : List (Step Key)) (s : Step Key) :
    granted key (steps ++ [s]) = grant key (granted key steps) s := by
  unfold granted
  rw [List.foldl_append, List.foldl_cons, List.foldl_nil]

/-- What the buckets keep of the calls: those that are not too old. -/
structure Tracks (limiter : FixedWindowRateLimiter) (steps : List (Step Key))
    (buckets : Buckets Key) : Prop where
  size : buckets.size ≤ limiter.max_keys
  bucket : ∀ key, ∃ old, granted key steps = old ++ bucketOf buckets key ∧
    ∀ t ∈ old, ∃ s ∈ steps, t ≤ s.now - limiter.window_seconds
  ordered : ∀ key, (granted key steps).Pairwise (· ≤ ·)
  past : ∀ key, ∀ t ∈ granted key steps, ∃ s ∈ steps, t = s.now
  length : ∀ key, (bucketOf buckets key).length ≤ limiter.limit

theorem dropWhile_of_ordered {l : List ℚ} (h : l.Pairwise (· ≤ ·)) (cutoff : ℚ) :
    (l.dropWhile fun t => t ≤ cutoff) = l.filter fun t => cutoff < t := by
  induction l with
  | nil => rfl
  | cons t l ih =>
    obtain ⟨hle, hrest⟩ := List.pairwise_cons.mp h
    by_cases ht : t ≤ cutoff
    · rw [List.dropWhile_cons_of_pos (by simpa using ht),
        List.filter_cons_of_neg (by simpa using ht), ih hrest]
    · have hall : ∀ u ∈ t :: l, cutoff < u := by
        intro u hu
        rcases List.mem_cons.mp hu with rfl | hu
        · exact lt_of_not_ge ht
        · exact lt_of_lt_of_le (lt_of_not_ge ht) (hle u hu)
      rw [List.dropWhile_cons_of_neg (by simpa using ht)]
      exact (List.filter_eq_self.mpr fun u hu => by simpa using hall u hu).symm

theorem le_of_isExpired {cutoff : ℚ} {values : List ℚ} (hordered : values.Pairwise (· ≤ ·))
    (h : isExpired cutoff values) : ∀ t ∈ values, t ≤ cutoff := by
  intro t ht
  obtain ⟨l, last, rfl⟩ := List.eq_nil_or_concat' values |>.resolve_left (List.ne_nil_of_mem ht)
  have hlast : last ≤ cutoff := by simpa [isExpired] using h
  rcases List.mem_append.mp ht with ht | ht
  · exact le_trans ((List.pairwise_append.mp hordered).2.2 t ht last (by simp)) hlast
  · rw [List.mem_singleton.mp ht]
    exact hlast

variable {limiter : FixedWindowRateLimiter} {steps : List (Step Key)} {buckets : Buckets Key}

theorem Tracks.ordered_bucket (h : Tracks limiter steps buckets) (key : Key) :
    (bucketOf buckets key).Pairwise (· ≤ ·) := by
  obtain ⟨old, hold, _⟩ := h.bucket key
  have hordered := h.ordered key
  rw [hold] at hordered
  exact (List.pairwise_append.mp hordered).2.1

theorem tracks_init (limiter : FixedWindowRateLimiter) :
    Tracks limiter [] (Dict.empty : Buckets Key) where
  size := Nat.zero_le _
  bucket _ := ⟨[], rfl, by simp⟩
  ordered _ := List.Pairwise.nil
  past _ := by simp [granted]
  length _ := Nat.zero_le _

section Steps

variable {s : Step Key} (h : Tracks limiter steps s.pre)
  (hcalled : Called limiter s.now s.key s.pre s.answer s.post)

include hcalled

/-- A call for a key adds its time when it is allowed. -/
theorem granted_own : granted s.key (steps ++ [s]) =
    granted s.key steps ++ if s.answer.allowed then [s.now] else [] := by
  have hkept : s.answer.evicted ≠ some s.key := fun hevicted => (hcalled.dropped _ hevicted).1 rfl
  rw [granted_snoc]
  unfold grant
  rw [if_neg hkept]
  by_cases hallowed : s.answer.allowed <;> simp [hallowed]

omit hcalled in
theorem granted_other {key : Key} (hkey : key ≠ s.key) : granted key (steps ++ [s]) =
    if s.answer.evicted = some key then [] else granted key steps := by
  rw [granted_snoc]
  unfold grant
  rw [if_neg (c := s.key = key ∧ _) fun heq => hkey heq.1.symm]

include h

theorem bucket_step (key : Key) : ∃ old, granted key (steps ++ [s]) = old ++ bucketOf s.post key ∧
    ∀ t ∈ old, ∃ u ∈ steps ++ [s], t ≤ u.now - limiter.window_seconds := by
  obtain ⟨old, hold, hpast⟩ := h.bucket key
  have hearlier : ∀ t ∈ old, ∃ u ∈ steps ++ [s], t ≤ u.now - limiter.window_seconds := by
    intro t ht
    obtain ⟨u, hu, hle⟩ := hpast t ht
    exact ⟨u, List.mem_append_left _ hu, hle⟩
  have hnow : s ∈ steps ++ [s] := List.mem_append_right _ (List.mem_singleton_self s)
  by_cases hkey : key = s.key
  · subst hkey
    -- What the call prunes is too old from now on.
    refine ⟨old ++ (bucketOf s.pre s.key).takeWhile (fun t => t ≤ s.now - limiter.window_seconds),
      ?_, fun t ht => ?_⟩
    · rw [granted_own hcalled, hold, hcalled.own]
      unfold recentCalls
      simp only [List.append_assoc]
      rw [← List.append_assoc (List.takeWhile _ _), List.takeWhile_append_dropWhile]
    · rcases List.mem_append.mp ht with ht | ht
      · exact hearlier t ht
      · exact ⟨s, hnow, by simpa using List.mem_takeWhile_imp ht⟩
  · rw [granted_other hkey]
    by_cases hevicted : s.answer.evicted = some key
    · refine ⟨[], ?_, fun t ht => absurd ht List.not_mem_nil⟩
      rw [if_pos hevicted]
      unfold bucketOf
      rw [(hcalled.dropped key hevicted).2]
      rfl
    · rw [if_neg hevicted]
      rcases hcalled.others key hkey with hsame | ⟨hgone, hexpired | hdropped⟩
      · refine ⟨old, ?_, hearlier⟩
        unfold bucketOf
        rw [hsame]
        exact hold
      · -- A bucket that has run out holds nothing that still counts.
        refine ⟨granted key steps, ?_, fun t ht => ?_⟩
        · unfold bucketOf
          rw [hgone]
          exact (List.append_nil _).symm
        · rw [hold] at ht
          rcases List.mem_append.mp ht with ht | ht
          · exact hearlier t ht
          · exact ⟨s, hnow, le_of_isExpired (h.ordered_bucket key) hexpired t ht⟩
      · exact absurd hdropped hevicted

theorem ordered_step (hclock : ∀ t ∈ steps, t.now ≤ s.now) (key : Key) :
    (granted key (steps ++ [s])).Pairwise (· ≤ ·) := by
  by_cases hkey : key = s.key
  · subst hkey
    rw [granted_own hcalled]
    by_cases hallowed : s.answer.allowed
    · rw [if_pos hallowed, List.pairwise_append]
      refine ⟨h.ordered s.key, List.pairwise_singleton _ _, fun t ht u hu => ?_⟩
      obtain ⟨before, hbefore, rfl⟩ := h.past s.key t ht
      rw [List.mem_singleton.mp hu]
      exact hclock before hbefore
    · rw [if_neg hallowed, List.append_nil]
      exact h.ordered s.key
  · rw [granted_other hkey]
    split
    · exact List.Pairwise.nil
    · exact h.ordered key

theorem past_step (key : Key) : ∀ t ∈ granted key (steps ++ [s]), ∃ u ∈ steps ++ [s], t = u.now := by
  have hearlier : ∀ t ∈ granted key steps, ∃ u ∈ steps ++ [s], t = u.now := by
    intro t ht
    obtain ⟨u, hu, heq⟩ := h.past key t ht
    exact ⟨u, List.mem_append_left _ hu, heq⟩
  by_cases hkey : key = s.key
  · subst hkey
    rw [granted_own hcalled]
    intro t ht
    rcases List.mem_append.mp ht with ht | ht
    · exact hearlier t ht
    · split at ht
      · exact ⟨s, by simp, List.mem_singleton.mp ht⟩
      · exact absurd ht List.not_mem_nil
  · rw [granted_other hkey]
    split
    · exact fun t ht => absurd ht List.not_mem_nil
    · exact hearlier

theorem length_step (key : Key) : (bucketOf s.post key).length ≤ limiter.limit := by
  by_cases hkey : key = s.key
  · subst hkey
    have hpruned : (recentCalls limiter s.now s.key s.pre).length ≤ limiter.limit :=
      Nat.le_trans (List.dropWhile_suffix _).length_le (h.length s.key)
    rw [hcalled.own]
    by_cases hallowed : s.answer.allowed
    · have hroom := hcalled.verdict.mp hallowed
      rw [if_pos hallowed, List.length_append, List.length_singleton]
      omega
    · rw [if_neg hallowed, List.append_nil]
      exact hpruned
  · unfold bucketOf
    rcases hcalled.others key hkey with hsame | ⟨hgone, _⟩
    · rw [hsame]
      exact h.length key
    · rw [hgone]
      exact Nat.zero_le _

theorem tracks_step (hclock : ∀ t ∈ steps, t.now ≤ s.now) :
    Tracks limiter (steps ++ [s]) s.post where
  size := hcalled.size h.size
  bucket := bucket_step h hcalled
  ordered := ordered_step h hcalled hclock
  past := past_step h hcalled
  length := length_step h hcalled

end Steps

theorem tracks_of_run (h : Run (system limiter) steps buckets) : Tracks limiter steps buckets := by
  induction h with
  | start => exact tracks_init limiter
  | next before now ih => exact tracks_step ih (called_of_allow _ _ _ _ now.2) now.1

/-- While the bucket of a key is not dropped for want of room, the calls that have
been granted since some time are those that have been allowed. -/
theorem granted_since (h : Run (system limiter) steps buckets) (key : Key) (x : ℚ)
    (hkept : ∀ s ∈ steps, x < s.now → s.answer.evicted ≠ some key) :
    (granted key steps).filter (fun t => x < t) =
      (steps.filter fun s => s.key = key ∧ s.answer.allowed ∧ x < s.now).map Step.now := by
  induction h with
  | start => rfl
  | @next steps s before now ih =>
    have hcalled := called_of_allow _ _ _ _ now.2
    have ih := ih fun t ht => hkept t (List.mem_append_left _ ht)
    rw [List.filter_append, List.map_append, ← ih]
    by_cases hkey : key = s.key
    · subst hkey
      rw [granted_own hcalled, List.filter_append]
      by_cases hallowed : s.answer.allowed <;> by_cases hx : x < s.now <;> simp [hallowed, hx]
    · have hother : ([s].filter fun s => s.key = key ∧ s.answer.allowed ∧ x < s.now) = [] := by
        simp [Ne.symm hkey]
      rw [granted_other hkey, hother, List.map_nil, List.append_nil]
      by_cases hevicted : s.answer.evicted = some key
      · -- A bucket that is dropped has no calls since `x`, for the clock has not reached it.
        have hnot : ¬ x < s.now := fun hx => hkept s (by simp) hx hevicted
        have hnone : (steps.filter fun s => s.key = key ∧ s.answer.allowed ∧ x < s.now) = [] := by
          refine List.filter_eq_nil_iff.mpr fun t ht => ?_
          have hle := now.1 t ht
          simp only [decide_eq_true_eq, not_and, not_lt]
          intro _ _
          exact le_trans hle (le_of_not_gt hnot)
        rw [if_pos hevicted, ih, hnone]
        rfl
      · rw [if_neg hevicted]

/-- Of what has been granted, the bucket has all that is not too old. -/
theorem granted_recent (h : Run (system limiter) steps buckets) (key : Key) {x : ℚ}
    (hx : ∀ s ∈ steps, s.now - limiter.window_seconds ≤ x) :
    (granted key steps).filter (fun t => x < t) =
      (bucketOf buckets key).filter fun t => x < t := by
  obtain ⟨old, hold, hpast⟩ := (tracks_of_run h).bucket key
  have hnone : (old.filter fun t => x < t) = [] := by
    refine List.filter_eq_nil_iff.mpr fun t ht => ?_
    obtain ⟨s, hs, hle⟩ := hpast t ht
    simpa using le_trans hle (hx s hs)
  rw [hold, List.filter_append, hnone, List.nil_append]

/-- No window has more allowed calls for a key than the limit. -/
theorem window_bound (h : Run (system limiter) steps buckets) (key : Key) (x : ℚ)
    (hkept : ∀ s ∈ steps, x < s.now → s.now ≤ x + limiter.window_seconds →
      s.answer.evicted ≠ some key) :
    (allowedWithin key x (x + limiter.window_seconds) steps).length ≤ limiter.limit := by
  induction h with
  | start => exact Nat.zero_le _
  | @next steps s before now ih =>
    by_cases hlate : s.now ≤ x + limiter.window_seconds
    · have hall : ∀ t ∈ steps ++ [s], t.now ≤ s.now := by
        intro t ht
        rcases List.mem_append.mp ht with ht | ht
        · exact now.1 t ht
        · rw [List.mem_singleton.mp ht]
      have hrun : Run (system limiter) (steps ++ [s]) ((system limiter).post s) := .next before now
      have hsince := granted_since hrun key x fun t ht hx =>
        hkept t ht hx (le_trans (hall t ht) hlate)
      have hrecent := granted_recent (x := x) hrun key fun t ht => by
        have hle := hall t ht
        linarith
      have hwithin : allowedWithin key x (x + limiter.window_seconds) (steps ++ [s]) =
          (steps ++ [s]).filter fun s => s.key = key ∧ s.answer.allowed ∧ x < s.now := by
        refine List.filter_congr fun t ht => ?_
        have hle := le_trans (hall t ht) hlate
        simp [hle]
      have hlength := congrArg List.length (hsince.symm.trans hrecent)
      rw [List.length_map, ← hwithin] at hlength
      rw [hlength]
      exact Nat.le_trans (List.length_filter_le _ _) ((tracks_of_run hrun).length key)
    · have hsame : allowedWithin key x (x + limiter.window_seconds) (steps ++ [s]) =
          allowedWithin key x (x + limiter.window_seconds) steps := by
        simp [allowedWithin, hlate]
      rw [hsame]
      exact ih fun t ht => hkept t (List.mem_append_left _ ht)

section Denials

variable {s : Step Key} (h : Run (system limiter) steps s.pre)
  (now : (system limiter).allowed steps s) (hdenied : s.answer.allowed = false)

include h now hdenied

/-- A denied call finds the limit reached by the calls since the bucket was last
dropped for want of room. -/
theorem granted_of_denied :
    ((granted s.key steps).filter fun t => s.now - limiter.window_seconds < t).length =
      limiter.limit := by
  have hcalled := called_of_allow _ _ _ _ now.2
  have htracks := tracks_of_run h
  have hrecent := granted_recent (x := s.now - limiter.window_seconds) h s.key fun t ht => by
    have hle := now.1 t ht
    linarith
  have hpruned : recentCalls limiter s.now s.key s.pre =
      (bucketOf s.pre s.key).filter fun t => s.now - limiter.window_seconds < t :=
    dropWhile_of_ordered (htracks.ordered_bucket s.key) _
  have hfull : ¬ (recentCalls limiter s.now s.key s.pre).length < limiter.limit := by
    intro hroom
    rw [hcalled.verdict.mpr hroom] at hdenied
    cases hdenied
  have hbound : (recentCalls limiter s.now s.key s.pre).length ≤ limiter.limit :=
    Nat.le_trans (List.dropWhile_suffix _).length_le (htracks.length s.key)
  rw [hrecent, ← hpruned]
  omega

/-- A denied call finds the limit reached by the calls of the last window, unless
the bucket was dropped for want of room in that time. -/
theorem allowed_of_denied (hkept : ∀ t ∈ steps, s.now - limiter.window_seconds < t.now →
      t.answer.evicted ≠ some s.key) :
    (allowedWithin s.key (s.now - limiter.window_seconds) s.now steps).length =
      limiter.limit := by
  have hsince := granted_since h s.key (s.now - limiter.window_seconds) hkept
  have hwithin : allowedWithin s.key (s.now - limiter.window_seconds) s.now steps =
      steps.filter fun t => t.key = s.key ∧ t.answer.allowed ∧
        s.now - limiter.window_seconds < t.now := by
    refine List.filter_congr fun t ht => ?_
    have hle := now.1 t ht
    simp [hle]
  have hlength := congrArg List.length hsince
  rw [List.length_map, ← hwithin] at hlength
  rw [← hlength]
  exact granted_of_denied h now hdenied

end Denials

theorem lt_truncate {q : ℚ} (h : 0 ≤ q) : q < truncate q + 1 := by
  unfold truncate
  rw [if_pos h]
  exact Int.lt_floor_add_one q

/-- The time that a denial names is not too early: the first call that counted no
longer does. -/
theorem expired_at_retry {s : Step Key} (htracks : Tracks limiter steps s.pre)
    (hcalled : Called limiter s.now s.key s.pre s.answer s.post)
    (hdenied : s.answer.allowed = false) {later : ℚ} (hlater : s.now + s.answer.retry_after ≤ later) :
    ∃ first rest, recentCalls limiter s.now s.key s.pre = first :: rest ∧
      first ≤ later - limiter.window_seconds := by
  obtain ⟨first, hfirst, hretry⟩ := hcalled.retry hdenied
  obtain ⟨rest, hrest⟩ : ∃ rest, recentCalls limiter s.now s.key s.pre = first :: rest :=
    ⟨_, List.eq_cons_of_mem_head? hfirst⟩
  have hin : s.now - limiter.window_seconds < first := by
    have hmem : first ∈ recentCalls limiter s.now s.key s.pre := by simp [hrest]
    unfold recentCalls at hmem
    rw [dropWhile_of_ordered (htracks.ordered_bucket s.key)] at hmem
    simpa using (List.mem_filter.mp hmem).2
  have hwait : limiter.window_seconds - (s.now - first) < (s.answer.retry_after : ℚ) := by
    have hlt := lt_truncate (q := limiter.window_seconds - (s.now - first)) (by linarith)
    have hle : truncate (limiter.window_seconds - (s.now - first)) + 1 ≤ s.answer.retry_after := by
      rw [hretry]
      exact le_max_right _ _
    have hcast : ((truncate (limiter.window_seconds - (s.now - first)) + 1 : ℤ) : ℚ) ≤
        (s.answer.retry_after : ℚ) := Int.cast_le.mpr hle
    push_cast at hcast
    linarith
  exact ⟨first, rest, hrest, by linarith⟩

/-- A call that comes when a denial has said is allowed, if it is the next one for
its key. -/
theorem allowed_at_retry {before mid after : List (Step Key)} {s s' : Step Key}
    (h : Run (system limiter) (before ++ s :: (mid ++ s' :: after)) buckets)
    (hdenied : s.answer.allowed = false) (hmid : ∀ t ∈ mid, t.key ≠ s.key) (hkey : s'.key = s.key)
    (hlater : s.now + s.answer.retry_after ≤ s'.now) : s'.answer.allowed = true := by
  obtain ⟨hbefore, hnow, hpost⟩ := h.at_step
  have hcalled := called_of_allow _ _ _ _ hnow.2
  have htracks := tracks_of_run hbefore
  have hsplit : before ++ s :: (mid ++ s' :: after) = (before ++ [s] ++ mid) ++ s' :: after := by
    simp
  rw [hsplit] at h
  obtain ⟨hthen, hnow', _⟩ := h.at_step
  obtain ⟨first, rest, hrecent, hexpired⟩ := expired_at_retry htracks hcalled hdenied hlater
  -- Until the later call the bucket stays as the denial has left it, or is dropped.
  have hbucket : bucketOf s'.pre s.key = first :: rest ∨ bucketOf s'.pre s.key = [] := by
    refine Run.since (fun st => bucketOf st s.key = first :: rest ∨ bucketOf st s.key = []) hpost
      ?_ (fun done t rest' hdone hrun hallowed hst => ?_) hthen
    · refine Or.inl ?_
      have hown := hcalled.own
      rw [hdenied, hrecent] at hown
      change bucketOf s.post s.key = _
      simpa using hown
    · have ht : t.key ≠ s.key := hmid t (by simp [hdone])
      have hothers := (called_of_allow _ _ _ _ hallowed.2).others s.key (Ne.symm ht)
      unfold bucketOf at hst ⊢
      rcases hothers with hsame | ⟨hgone, _⟩
      · change (t.post.get? s.key).getD [] = _ ∨ (t.post.get? s.key).getD [] = _
        rw [hsame]
        exact hst
      · exact Or.inr (congrArg (Option.getD · []) hgone)
  have hlimit : (first :: rest).length ≤ limiter.limit := by
    rw [← hrecent]
    exact Nat.le_trans (List.dropWhile_suffix _).length_le (htracks.length s.key)
  have hpruned : (recentCalls limiter s'.now s'.key s'.pre).length < limiter.limit := by
    unfold recentCalls
    rw [hkey]
    rcases hbucket with hkept | hempty
    · rw [hkept, List.dropWhile_cons_of_pos (by simpa using hexpired)]
      have hle := (List.dropWhile_suffix (l := rest)
        fun t => decide (t ≤ s'.now - limiter.window_seconds)).length_le
      simp only [List.length_cons] at hlimit
      omega
    · rw [hempty]
      exact limiter.limit_pos
  exact (called_of_allow _ _ _ _ hnow'.2).verdict.mpr hpruned

/-- The limiter's law, for every run: few buckets, no window above the limit while
the bucket is kept, a denial only when the limit is reached by the calls since the
bucket was last dropped for want of room, a time to retry that is late enough, and
no call that fails or drops its own bucket. -/
theorem window_law (h : Run (system limiter) steps buckets) :
    buckets.size ≤ limiter.max_keys ∧
    (∀ key (x : ℚ), (∀ s ∈ steps, x < s.now → s.now ≤ x + limiter.window_seconds →
        s.answer.evicted ≠ some key) →
      (allowedWithin key x (x + limiter.window_seconds) steps).length ≤ limiter.limit) ∧
    (∀ before (s : Step Key) after, steps = before ++ s :: after → s.answer.allowed = false →
      ((granted s.key before).filter fun t => s.now - limiter.window_seconds < t).length =
          limiter.limit ∧
        ((∀ t ∈ before, s.now - limiter.window_seconds < t.now →
            t.answer.evicted ≠ some s.key) →
          (allowedWithin s.key (s.now - limiter.window_seconds) s.now before).length =
            limiter.limit)) ∧
    (∀ before (s : Step Key) mid (s' : Step Key) after, steps = before ++ s :: (mid ++ s' :: after) →
      s.answer.allowed = false → (∀ t ∈ mid, t.key ≠ s.key) → s'.key = s.key →
      s.now + s.answer.retry_after ≤ s'.now → s'.answer.allowed = true) ∧
    (∀ now key, ∃ answer buckets', allow limiter now key buckets = .ok (answer, buckets') ∧
      answer.evicted ≠ some key) := by
  refine ⟨(tracks_of_run h).size, fun key x hkept => window_bound h key x hkept, ?_, ?_, ?_⟩
  · rintro before s after rfl hdenied
    obtain ⟨hbefore, hnow, _⟩ := h.at_step
    exact ⟨granted_of_denied hbefore hnow hdenied,
      fun hkept => allowed_of_denied hbefore hnow hdenied hkept⟩
  · rintro before s mid s' after rfl hdenied hmid hkey hlater
    exact allowed_at_retry h hdenied hmid hkey hlater
  · intro now key
    obtain ⟨answer, buckets', hallow, hcalled⟩ := allow_total limiter now key buckets
    exact ⟨answer, buckets', hallow, fun hevicted => (hcalled.dropped key hevicted).1 rfl⟩

/-- The steps of some calls, from some buckets on. -/
def play (limiter : FixedWindowRateLimiter) : List (ℚ × Key) → Buckets Key → List (Step Key)
  | [], _ => []
  | (now, key) :: calls, buckets =>
    match allow limiter now key buckets with
    | .ok (answer, buckets') => ⟨buckets, now, key, answer, buckets'⟩ :: play limiter calls buckets'
    | .error _ => []

/-- Every sequence of calls has a run, provided that the clock does not go back. -/
theorem run_play {before : List (Step Key)} {calls : List (ℚ × Key)}
    (h : Run (system limiter) before buckets) (hclock : calls.Pairwise fun c d => c.1 ≤ d.1)
    (hlater : ∀ t ∈ before, ∀ c ∈ calls, t.now ≤ c.1) :
    (play limiter calls buckets).map (fun s => (s.now, s.key)) = calls ∧
      ∃ buckets', Run (system limiter) (before ++ play limiter calls buckets) buckets' := by
  induction calls generalizing before buckets with
  | nil => exact ⟨rfl, buckets, by simpa [play] using h⟩
  | cons c calls ih =>
    obtain ⟨now, key⟩ := c
    obtain ⟨answer, buckets', hallow, _⟩ := allow_total limiter now key buckets
    obtain ⟨hnext, hclock⟩ := List.pairwise_cons.mp hclock
    have hnow : ∀ t ∈ before, t.now ≤ now := fun t ht => hlater t ht _ List.mem_cons_self
    have hrun : Run (system limiter) (before ++ [⟨buckets, now, key, answer, buckets'⟩]) buckets' :=
      Run.next (S := system limiter) (s := ⟨buckets, now, key, answer, buckets'⟩) h ⟨hnow, hallow⟩
    have hlater' : ∀ t ∈ before ++ [⟨buckets, now, key, answer, buckets'⟩], ∀ c ∈ calls,
        t.now ≤ c.1 := by
      intro t ht c hc
      rcases List.mem_append.mp ht with ht | ht
      · exact hlater t ht c (List.mem_cons_of_mem _ hc)
      · rw [List.mem_singleton.mp ht]
        exact hnext c hc
    obtain ⟨hmap, last, hlast⟩ := ih hrun hclock hlater'
    unfold play
    rw [hallow]
    exact ⟨by rw [List.map_cons, hmap], last, by simpa using hlast⟩

end Runs

section Spacing

/-- A limiter with room for both keys of the calls. -/
def double : FixedWindowRateLimiter :=
  ⟨2, 10, 2, by decide, by norm_num, by decide⟩

/-- The fourth call is denied, and the last comes when it says to. -/
def spaced : List (ℚ × String) := [(0, "a"), (1, "b"), (2, "a"), (3, "a"), (4, "b"), (11, "a")]

theorem run_spaced : ∃ buckets, Run (system double) (play double spaced Dict.empty) buckets := by
  have hclock : spaced.Pairwise fun c d => c.1 ≤ d.1 := by decide +kernel
  have hempty : ∀ t ∈ ([] : List (Step String)), ∀ c ∈ spaced, t.now ≤ c.1 := by simp
  have hstart : Run (system double) [] (Dict.empty : Buckets String) := .start
  exact (run_play hstart hclock hempty).2

theorem spaced_law : ∃ (before mid : List (Step String)) (s s' : Step String)
    (buckets : Buckets String), Run (system double) (before ++ s :: (mid ++ [s'])) buckets ∧
      buckets.size ≤ double.max_keys ∧
      (allowedWithin "a" 0 (0 + double.window_seconds)
        (before ++ s :: (mid ++ [s']))).length ≤ double.limit ∧
      s.key = "a" ∧ s.now = 3 ∧ s.answer.allowed = false ∧
      (allowedWithin "a" (3 - double.window_seconds) 3 before).length = double.limit ∧
      s'.key = "a" ∧ s'.now = 11 ∧ s'.answer.allowed = true := by
  obtain ⟨buckets, hrun⟩ := run_spaced
  have hplay : (play double spaced Dict.empty).map (fun t => (t.key, t.now, t.answer)) =
      [("a", 0, ⟨true, 0, none⟩), ("b", 1, ⟨true, 0, none⟩), ("a", 2, ⟨true, 0, none⟩)] ++
        ("a", 3, ⟨false, 8, none⟩) ::
          ([("b", 4, ⟨true, 0, none⟩)] ++ [("a", 11, ⟨true, 0, none⟩)]) := by decide +kernel
  have hevicted :
      (play double spaced Dict.empty).all (fun t => t.answer.evicted.isNone) = true := by
    decide +kernel
  generalize play double spaced Dict.empty = steps at hrun hplay hevicted
  have hkept : ∀ t ∈ steps, t.answer.evicted ≠ some "a" := by
    intro t ht hsome
    have hnone := List.all_eq_true.mp hevicted t ht
    simp [hsome] at hnone
  obtain ⟨before, rest, rfl, _, hrest⟩ := List.map_eq_append_iff.mp hplay
  obtain ⟨s, rest, rfl, hs, hrest⟩ := List.map_eq_cons_iff.mp hrest
  obtain ⟨mid, rest, rfl, hmid, hrest⟩ := List.map_eq_append_iff.mp hrest
  obtain ⟨s', rfl, hs'⟩ := List.map_eq_singleton_iff.mp hrest
  obtain ⟨t, rfl, ht⟩ := List.map_eq_singleton_iff.mp hmid
  simp only [Prod.mk.injEq] at hs hs' ht
  obtain ⟨hkey, hnow, hanswer⟩ := hs
  obtain ⟨hkey', hnow', _⟩ := hs'
  have hdenied : s.answer.allowed = false := by rw [hanswer]
  obtain ⟨hsize, hwindow, hcounted, hretry, _⟩ := window_law hrun
  have hcount := (hcounted before s _ rfl hdenied).2 fun u hu _ =>
    hkey ▸ hkept u (List.mem_append_left _ hu)
  have hagain : s'.answer.allowed = true := by
    refine hretry before s [t] s' [] rfl hdenied ?_ (hkey'.trans hkey.symm) ?_
    · simp [ht.1, hkey]
    · rw [hnow, hnow', hanswer]
      norm_num
  rw [hkey, hnow] at hcount
  exact ⟨before, [t], s, s', buckets, hrun, hsize, hwindow "a" 0 fun u hu _ _ => hkept u hu, hkey,
    hnow, hdenied, hcount, hkey', hnow', hagain⟩

end Spacing

section Eviction

/-- A limiter with one bucket, which two keys share. -/
def single : FixedWindowRateLimiter :=
  ⟨2, 10, 1, by decide, by norm_num, by decide⟩

def alternating : List (ℚ × String) := [(0, "a"), (1, "b"), (2, "a"), (3, "a"), (4, "a")]

theorem run_alternating :
    ∃ buckets, Run (system single) (play single alternating Dict.empty) buckets := by
  have hclock : alternating.Pairwise fun c d => c.1 ≤ d.1 := by decide +kernel
  have hempty : ∀ t ∈ ([] : List (Step String)), ∀ c ∈ alternating, t.now ≤ c.1 := by simp
  have hstart : Run (system single) [] (Dict.empty : Buckets String) := .start
  exact (run_play hstart hclock hempty).2

/-- Three calls have been allowed in the last window when the last one is denied. -/
theorem denied_above_limit : ∃ (steps : List (Step String)) (s : Step String)
    (buckets : Buckets String), Run (system single) (steps ++ [s]) buckets ∧
      s.answer.allowed = false ∧
      (allowedWithin s.key (s.now - single.window_seconds) s.now steps).length ≠ single.limit := by
  obtain ⟨buckets, hrun⟩ := run_alternating
  obtain ⟨steps, s, hlist⟩ := (List.eq_nil_or_concat' (play single alternating Dict.empty)).resolve_left
    fun hnil => absurd (congrArg List.length hnil) (by decide +kernel)
  have hlast : (play single alternating Dict.empty).getLast?.map
      (fun s => (s.key, s.now, s.answer.allowed)) = some ("a", 4, false) := by decide +kernel
  have hcount : (allowedWithin "a" (4 - 10) 4
      (play single alternating Dict.empty).dropLast).length = 3 := by decide +kernel
  rw [hlist] at hrun hlast hcount
  simp only [List.getLast?_append, List.getLast?_singleton, Option.some_or, Option.map_some,
    Option.some.injEq, Prod.mk.injEq, List.dropLast_concat] at hlast hcount
  obtain ⟨hkey, hnow, hdenied⟩ := hlast
  refine ⟨steps, s, buckets, hrun, hdenied, ?_⟩
  rw [hkey, hnow]
  change (allowedWithin "a" (4 - 10) 4 steps).length ≠ 2
  rw [hcount]
  decide

end Eviction

end MemoryGuard.RateLimit
