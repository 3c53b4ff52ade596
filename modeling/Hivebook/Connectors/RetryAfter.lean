import Hivebook.Connectors.Responses

/-!
# How long a throttled source is to be left alone

A source that throttles says in its headers how long: `Retry-After` in seconds from now, or
`X-RateLimit-Reset` as a moment in Unix seconds.  `retryAfter` reads the first of them that it can
parse, and takes a minute if there is none.  The seconds are multiplied in `int64`, and what is
read from `Retry-After` is returned whatever it is.

## Main definitions

* `int64`, `integerText`, `atoi` — the arithmetic and the parsing.
* `untilUnix`, `retryAfter` — the wait that the headers ask for.
* `SoundWait` — the wait is positive, as long as the source says, and has not wrapped around.
* `Honoured` — the values of `Retry-After` for which that is so.
* `receive` — a response as the calls look at it.

## Main results

* `soundWait_iff` — **which values of `Retry-After` are turned into a sound wait**, whatever the
  other header and the clock say.
* `httpGet_receive`, `graphqlPost_receive` — the throttles that the calls report carry this wait.
-/

namespace Hivebook
namespace Connectors

/-! ### Integers of 64 bits -/

/-- What an operation of the type `int64` leaves of its result. -/
def int64 (n : ℤ) : ℤ := n.bmod (2 ^ 64)

/-- The number has 64 bits. -/
def FitsInt64 (n : ℤ) : Prop := -2 ^ 63 ≤ n ∧ n < 2 ^ 63

instance : DecidablePred FitsInt64 := fun n =>
  inferInstanceAs (Decidable (-2 ^ 63 ≤ n ∧ n < 2 ^ 63))

/-- An operation wraps around from one end to the other. -/
theorem int64_eq (n : ℤ) : int64 n = (n + 2 ^ 63) % 2 ^ 64 - 2 ^ 63 := by
  unfold int64
  rw [Int.bmod_def]
  split <;> omega

theorem fits_int64 (n : ℤ) : FitsInt64 (int64 n) := by
  rw [int64_eq]
  unfold FitsInt64
  omega

theorem int64_of_fits {n : ℤ} (h : FitsInt64 n) : int64 n = n := by
  unfold FitsInt64 at h
  rw [int64_eq]
  omega

/-! ### The headers -/

/-- The number that decimal digits stand for. -/
def decimal (ds : List Char) : Option ℕ :=
  if ds ≠ [] ∧ ds.all Char.isDigit = true then
    some (ds.foldl (fun v d => 10 * v + (d.toNat - '0'.toNat)) 0)
  else none

/-- The integer that a text states: decimal digits, after a sign or none. -/
def integerText (s : String) : Option ℤ :=
  match s.toList with
  | '+' :: ds => (decimal ds).map fun n => (n : ℤ)
  | '-' :: ds => (decimal ds).map fun n => -(n : ℤ)
  | ds => (decimal ds).map fun n => (n : ℤ)

/-- `strconv.Atoi`, and `strconv.ParseInt` in base 10 to 64 bits: an integer that does not fit is
an error, as a text that states none is. -/
def atoi (s : String) : Option ℤ :=
  match integerText s with
  | none => none
  | some n => if FitsInt64 n then some n else none

/-- `unixToInternal`: the seconds from the year 1 to 1970, by which a `time.Time` counts. -/
def unixToInternal : ℤ := 62135596800

/-- `maxDuration`. -/
def maxDuration : ℤ := 2 ^ 63 - 1

/-- `minDuration`. -/
def minDuration : ℤ := -2 ^ 63

/-- `time.Until(time.Unix(epoch, 0))`: the seconds of an instant wrap around, the difference of
two instants saturates. -/
def untilUnix (epoch : ℤ) (now : Time) : ℤ :=
  let seconds := int64 (epoch + unixToInternal) - unixToInternal
  max minDuration (min maxDuration (seconds * second - now))

/-- `retryAfter`; a header that is missing is empty, which is no integer. -/
def retryAfter (retryAfterHeader rateLimitReset : String) (now : Time) : ℤ :=
  match atoi retryAfterHeader with
  | some secs => int64 (secs * second)
  | none =>
      match atoi rateLimitReset with
      | some epoch => if 0 < untilUnix epoch now then untilUnix epoch now else minute
      | none => minute

example : retryAfter "30" "" 0 = 30 * second := by decide +kernel

example : retryAfter "Wed, 21 Oct 2015 07:28:00 GMT" "90" (60 * second) = 30 * second := by
  decide +kernel

/-! ### The parsing -/

theorem atoi_of_fits {s : String} {n : ℤ} (hs : integerText s = some n) (h : FitsInt64 n) :
    atoi s = some n := by
  simp only [atoi, hs, if_pos h]

theorem atoi_of_not_fits {s : String} {n : ℤ} (hs : integerText s = some n) (h : ¬ FitsInt64 n) :
    atoi s = none := by
  simp only [atoi, hs, if_neg h]

theorem atoi_of_none {s : String} (hs : integerText s = none) : atoi s = none := by
  simp only [atoi, hs]

/-- What is parsed is what the text states, and it fits. -/
theorem atoi_eq_some_iff {s : String} {n : ℤ} :
    atoi s = some n ↔ integerText s = some n ∧ FitsInt64 n := by
  constructor
  · intro h
    cases hs : integerText s with
    | none =>
      rw [atoi_of_none hs] at h
      cases h
    | some m =>
      by_cases hfits : FitsInt64 m
      · rw [atoi_of_fits hs hfits] at h
        cases h
        exact ⟨rfl, hfits⟩
      · rw [atoi_of_not_fits hs hfits] at h
        cases h
  · rintro ⟨hs, hfits⟩
    exact atoi_of_fits hs hfits

/-! ### The wait -/

variable {header reset : String} {now : Time}

/-- The integer of `Retry-After` decides, if there is one. -/
theorem retryAfter_of_some {secs : ℤ} (h : atoi header = some secs) :
    retryAfter header reset now = int64 (secs * second) := by
  simp only [retryAfter, h]

/-- Without one it is a minute, or the time until the moment in `X-RateLimit-Reset`. -/
theorem retryAfter_of_none (h : atoi header = none) (reset : String) (now : Time) :
    retryAfter header reset now = minute ∨ ∃ epoch, atoi reset = some epoch ∧
      0 < untilUnix epoch now ∧ retryAfter header reset now = untilUnix epoch now := by
  cases hreset : atoi reset with
  | none =>
    left
    simp only [retryAfter, h, hreset]
  | some epoch =>
    by_cases hpos : 0 < untilUnix epoch now
    · right
      exact ⟨epoch, rfl, hpos, by simp only [retryAfter, h, hreset, if_pos hpos]⟩
    · left
      simp only [retryAfter, h, hreset, if_neg hpos]

/-- A moment that is still to come has not wrapped around. -/
theorem untilUnix_of_pos {epoch : ℤ} (hfits : FitsInt64 epoch) (hpos : 0 < untilUnix epoch now) :
    untilUnix epoch now = min maxDuration (epoch * second - now) := by
  unfold FitsInt64 at hfits
  unfold untilUnix unixToInternal minDuration maxDuration second at hpos ⊢
  rw [int64_eq] at hpos ⊢
  dsimp only at hpos ⊢
  omega

/-- Without an integer in `Retry-After` the wait is positive. -/
theorem retryAfter_pos_of_none (h : atoi header = none) : 0 < retryAfter header reset now := by
  rcases retryAfter_of_none h reset now with hminute | ⟨epoch, -, hpos, huntil⟩
  · rw [hminute]
    decide
  · rw [huntil]
    exact hpos

/-- A wait is no longer than a `time.Duration` can say. -/
theorem retryAfter_le (header reset : String) (now : Time) :
    retryAfter header reset now ≤ maxDuration := by
  cases h : atoi header with
  | some secs =>
    rw [retryAfter_of_some h]
    have hfits := fits_int64 (secs * second)
    unfold FitsInt64 at hfits
    unfold maxDuration
    omega
  | none =>
    rcases retryAfter_of_none h reset now with hminute | ⟨epoch, -, -, huntil⟩
    · rw [hminute]
      decide
    · rw [huntil]
      unfold untilUnix minDuration maxDuration
      dsimp only
      omega

/-- The wait is sound: it is positive, at least as long as the source says in `Retry-After`, and
it is the number of seconds that was read there, or the time until the moment that was read. -/
structure SoundWait (header reset : String) (now : Time) : Prop where
  positive : 0 < retryAfter header reset now
  longEnough : ∀ n : ℕ, integerText header = some (n : ℤ) →
    (n * second : ℕ) ≤ retryAfter header reset now
  /-- The product is the one over the integers. -/
  unwrapped : ∀ secs, atoi header = some secs → retryAfter header reset now = secs * second
  /-- The difference is the one over the integers, or as long as a duration can be. -/
  resets : atoi header = none → retryAfter header reset now = minute ∨
    ∃ epoch, atoi reset = some epoch ∧
      retryAfter header reset now = min maxDuration (epoch * second - now)

/-- The most seconds that a `time.Duration` can say. -/
def maxSeconds : ℤ := 9223372036

/-- The values of `Retry-After` that are turned into a sound wait: no integer at all, one between
`1` and the most seconds of a duration, and one that is too small to be parsed. -/
def Honoured (header : String) : Prop :=
  ∀ n, integerText header = some n → (1 ≤ n ∧ n ≤ maxSeconds) ∨ n < -2 ^ 63

/-- An integer that is sound to wait for, and is parsed, makes a duration. -/
theorem int64_seconds {n : ℤ} (h : 1 ≤ n ∧ n ≤ maxSeconds) : int64 (n * second) = n * second := by
  refine int64_of_fits ?_
  unfold maxSeconds at h
  unfold FitsInt64 second
  omega

/-- What is read from `X-RateLimit-Reset` has not wrapped around. -/
theorem resets_of_none (h : atoi header = none) (reset : String) (now : Time) :
    retryAfter header reset now = minute ∨ ∃ epoch, atoi reset = some epoch ∧
      retryAfter header reset now = min maxDuration (epoch * second - now) := by
  rcases retryAfter_of_none h reset now with hminute | ⟨epoch, hepoch, hpos, huntil⟩
  · exact Or.inl hminute
  · refine Or.inr ⟨epoch, hepoch, huntil.trans ?_⟩
    exact untilUnix_of_pos (atoi_eq_some_iff.mp hepoch).2 hpos

/-- Only an integer that makes a duration is waited for soundly, if it can be parsed. -/
theorem SoundWait.honoured (h : SoundWait header reset now) : Honoured header := by
  intro n hn
  have hle := retryAfter_le header reset now
  unfold maxDuration at hle
  by_cases hfits : FitsInt64 n
  · -- the product is positive, and a duration
    left
    have hwait := h.unwrapped n (atoi_of_fits hn hfits)
    have hpos := h.positive
    rw [hwait] at hpos hle
    unfold second at hpos hle
    unfold maxSeconds
    omega
  · -- no duration is as long as an integer says that is too large to be parsed
    right
    by_contra hsmall
    unfold FitsInt64 at hfits
    have hnat : ((n.toNat : ℕ) : ℤ) = n := by omega
    have hlong := h.longEnough n.toNat (by rw [hnat]; exact hn)
    unfold second at hlong
    omega

/-- An integer that makes a duration is waited for soundly. -/
theorem soundWait_of_parsed {secs : ℤ} (h : atoi header = some secs)
    (hrange : 1 ≤ secs ∧ secs ≤ maxSeconds) : SoundWait header reset now := by
  have hstated := (atoi_eq_some_iff.mp h).1
  have hwait : retryAfter header reset now = secs * second := by
    rw [retryAfter_of_some h, int64_seconds hrange]
  refine ⟨?_, fun n hn => ?_, fun n hn => ?_, fun hnone => ?_⟩
  · rw [hwait]
    unfold second
    omega
  · rw [hstated] at hn
    cases hn
    rw [hwait]
    unfold second
    omega
  · rw [h] at hn
    cases hn
    exact hwait
  · rw [h] at hnone
    cases hnone

/-- So is everything that is no integer, or one that is too small to be parsed. -/
theorem soundWait_of_none (h : atoi header = none) (hhonoured : Honoured header) :
    SoundWait header reset now := by
  refine ⟨retryAfter_pos_of_none h, fun n hn => ?_, fun n hn => ?_, fun _ => resets_of_none h _ _⟩
  · -- an integer that is not parsed is negative here
    have hnot : ¬ FitsInt64 (n : ℤ) := by
      intro hfits
      rw [atoi_of_fits hn hfits] at h
      cases h
    have hrange := hhonoured n hn
    unfold FitsInt64 at hnot
    unfold maxSeconds at hrange
    omega
  · rw [h] at hn
    cases hn

/-- **Which values of `Retry-After` are turned into a sound wait.** -/
theorem soundWait_iff (header reset : String) (now : Time) :
    SoundWait header reset now ↔ Honoured header := by
  constructor
  · exact SoundWait.honoured
  · intro h
    cases hparsed : atoi header with
    | none => exact soundWait_of_none hparsed h
    | some secs =>
      obtain ⟨hstated, hfits⟩ := atoi_eq_some_iff.mp hparsed
      refine soundWait_of_parsed hparsed ((h secs hstated).resolve_right fun hsmall => ?_)
      unfold FitsInt64 at hfits
      omega

/-! ### The response -/

/-- A response with these headers, as the calls look at it at a moment. -/
def receive (status : ℕ) (retryAfterHeader rateLimitRemaining rateLimitReset : String)
    (body : Bytes) (now : Time) : HttpResponse :=
  { status, retryAfterHeader, rateLimitRemaining
    retryAfter := retryAfter retryAfterHeader rateLimitReset now
    body }

section Throttled

variable {status : ℕ} {remaining url : String} {body : Bytes}

/-- **A throttle carries the wait**, by either call that knows throttles. -/
theorem httpGet_receive (h : Throttles (receive status header remaining reset body now)) :
    httpGet url (.ok (receive status header remaining reset body now)) =
      .error (.rateLimit (retryAfter header reset now)) :=
  if_pos h

theorem graphqlPost_receive {α : Type} {envelope : Bytes → Except String GraphqlEnvelope}
    {data : Bytes → Except String α} {out : α}
    (h : Throttles (receive status header remaining reset body now)) :
    graphqlPost envelope data out (.ok (receive status header remaining reset body now)) =
      .error (.rateLimit (retryAfter header reset now)) :=
  if_pos h

end Throttled

end Connectors
end Hivebook
