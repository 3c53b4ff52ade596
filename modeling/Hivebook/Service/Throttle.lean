import Hivebook.Connectors.RetryAfter
import Hivebook.Service.Cooldown

/-!
# A throttle, from the headers to the cooldown

`retryAfter` reads a wait from the headers of a response, and `RecordThrottle` parks the bucket
for as long, if the wait is positive.  What `Retry-After` says is passed on unchecked: a `0` clears
the cooldown instead of arming one, and so may a negative number or one that wraps around.

## Main definitions

* `ArmsCooldown` — recording a throttle parks the bucket.
* `SoundThrottle` — the wait is sound, and recording it parks the bucket.

## Main results

* `recordThrottle_parks` — a positive wait parks the bucket for as long.
* `armsCooldown_iff` — **a wait arms a cooldown exactly if it is positive.**
* `throttleFeedback_receive` — the wait of a throttled response is what a drain reports.
* `soundThrottle_iff` — **which values of `Retry-After` are honoured.**
-/

namespace Hivebook

open Connectors Admission Machine Database

/-! ### Recording a throttle -/

/-- Recording a throttle with this wait arms a cooldown: in every run in which it is recorded, the
bucket is parked until a moment that was still to come. -/
def ArmsCooldown (retryAfter : ℤ) : Prop :=
  ∀ (k : Scope) (cancelled cancelled' : Bool) (w w' : World)
    (ls : List (Performed World Choice Cmd)),
    service.Returns (recordThrottle k retryAfter) cancelled w ls (.ok ()) cancelled' w' →
    (w.db.buckets k).isSome = true → ∃ t, w.now < t ∧ parked k w'.db t

/-- **A positive wait parks the bucket for as long**, from the moment the clock was read. -/
theorem recordThrottle_parks {k : Scope} {retryAfter : ℤ} {cancelled cancelled' : Bool}
    {w w' : World} {ls : List (Performed World Choice Cmd)} (hpos : 0 < retryAfter)
    (h : service.Returns (recordThrottle k retryAfter) cancelled w ls (.ok ()) cancelled' w')
    (hrow : (w.db.buckets k).isSome = true) : parked k w'.db (w.now + retryAfter.toNat) := by
  unfold recordThrottle at h
  rw [if_pos hpos] at h
  obtain ⟨clockTurn, ls', -, h⟩ := Returns.of_call h
  obtain ⟨t, -, hreply, -, rfl⟩ := Returns.of_issue h
  have heffect : t.choice.takesEffect (cancelled || clockTurn.cancel || t.cancel) = true :=
    (of_reply_eq_ok hreply.symm).1
  -- the clock leaves the buckets alone
  have hclock := buckets_perform k clockTurn.choice (cancelled || clockTurn.cancel) w .clock
  obtain ⟨bucket, hbucket⟩ := Option.isSome_iff_exists.mp hrow
  obtain ⟨b, hb, t', ht', hle⟩ := parked_throttle
    (t := w.now + clockTurn.choice.elapsed + retryAfter.toNat) (hclock.trans hbucket) heffect
  refine ⟨b, hb, t', ht', le_trans ?_ hle⟩
  exact Nat.add_le_add_right (Nat.le_add_right _ _) _

/-- A bucket that is not parked. -/
def openBucket : AdmissionBucket :=
  { connectorID := "gdocs", concurrencyLimit := 4, inFlight := 0, cooldownUntil := none }

/-- A deployment in which no bucket is parked. -/
def openWorld : World :=
  { newWorld with db := { Database.empty with buckets := fun _ => some openBucket } }

/-- **A wait arms a cooldown exactly if it is positive.** -/
theorem armsCooldown_iff (retryAfter : ℤ) : ArmsCooldown retryAfter ↔ 0 < retryAfter := by
  constructor
  · intro h
    by_contra hpos
    have hrun : service.Returns (recordThrottle (.credential 0) retryAfter) false openWorld
        [⟨openWorld, .statement (.admissionMultiplicativeDecrease (.credential 0) none), false,
          quietly annAnswers⟩] (.ok ()) false
        (service.perform (quietly annAnswers) false openWorld
          (.statement (.admissionMultiplicativeDecrease (.credential 0) none))).1 := by
      unfold recordThrottle
      rw [if_neg hpos]
      exact .call ⟨false, quietly annAnswers⟩ (.pure _ _ _)
    obtain ⟨t, -, b, hb, t', ht', -⟩ := h _ _ _ _ _ _ hrun rfl
    -- the cooldown of the bucket is `NULL`
    rw [buckets_perform] at hb
    obtain rfl := Option.some.inj hb
    cases ht'
  · intro hpos k cancelled cancelled' w w' ls h hrow
    have hwait : 0 < retryAfter.toNat := by omega
    exact ⟨w.now + retryAfter.toNat, Nat.lt_add_of_pos_right hwait,
      recordThrottle_parks hpos h hrow⟩

/-! ### The headers -/

/-- A drain that fails with a throttled response records a throttle with the wait that the headers
ask for. -/
theorem throttleFeedback_receive {status : ℕ} {header remaining reset url : String} {body : Bytes}
    {now : Time} {e : Err} (h : Throttles (receive status header remaining reset body now))
    (he : httpGet url (.ok (receive status header remaining reset body now)) = .error e)
    (connectionID : Uuid) : Activities.throttleFeedback connectionID e = do
      let _ ← recordThrottle (.credential connectionID) (retryAfter header reset now)
      return () := by
  rw [httpGet_receive h] at he
  cases he
  rfl

/-- A throttle with these headers is sound: so is the wait, and recording it arms a cooldown. -/
structure SoundThrottle (header reset : String) (now : Time) : Prop where
  wait : SoundWait header reset now
  arms : ArmsCooldown (retryAfter header reset now)

/-- **Which values of `Retry-After` are honoured.**  A throttle is sound, at any time and with any
`X-RateLimit-Reset`, if and only if its `Retry-After` states no integer, or one between `1` and
`9223372036`, or one that is too small to be parsed. -/
theorem soundThrottle_iff (header reset : String) (now : Time) :
    SoundThrottle header reset now ↔ Honoured header := by
  rw [← soundWait_iff header reset now]
  constructor
  · intro h
    exact h.wait
  · intro h
    exact ⟨h, (armsCooldown_iff _).mpr h.positive⟩

/-- `Retry-After: 0` arms no cooldown, and a number of seconds that is one too large is taken for
none: not every throttle is sound. -/
theorem not_every_throttle_sound : ¬ SoundThrottle "0" "" 0 ∧ ¬ SoundThrottle "9223372037" "" 0 ∧
    ¬ SoundThrottle "18446744074" "" 0 := by
  refine ⟨fun h => ?_, fun h => ?_, fun h => ?_⟩
  · have hpos := h.wait.positive
    exact absurd hpos (by decide +kernel)
  · have hpos := h.wait.positive
    exact absurd hpos (by decide +kernel)
  · -- it wraps around to less than a third of a second
    have hlong := h.wait.longEnough 18446744074 (by decide +kernel)
    exact absurd hlong (by decide +kernel)

end Hivebook
