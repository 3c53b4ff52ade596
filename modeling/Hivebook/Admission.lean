import Hivebook.World

/-!
# The admission limiter

The adaptive limiter over `admission_bucket`, as the activities use it.  It keeps
no state of its own: the limit, the slots taken and the cooldown live in the bucket,
and a slot is taken by one compare-and-swap statement.
-/

namespace Hivebook
namespace Admission

open Connectors

/-- `Limiter.Acquire`: seeds the bucket, then takes a slot if one is free and no
cooldown is in effect. -/
def acquire (k : Scope) (connectorID : String) (seed : RateBudget) :
    Program (Except Err Bool) := do
  match ← statement (.seedAdmissionBucket k connectorID (int32 (max seed.startConcurrency 1))) with
  | .error e => return .error e
  | .ok _ =>
      match ← statement (.acquireAdmission k) with
      | .ok _ => return .ok true
      | .error .noRows => return .ok false
      | .error e => return .error e

/-- `Limiter.Release`. -/
def release (k : Scope) : Program (Except Err Unit) := statement (.releaseAdmission k)

/-- `Limiter.RecordSuccess`: the additive increase. -/
def recordSuccess (k : Scope) (maxLimit : ℤ) : Program (Except Err Unit) :=
  statement (.admissionAdditiveIncrease k (int32 (max maxLimit 1)))

/-- `Limiter.RecordThrottle`: the multiplicative decrease, with a cooldown when the
source named one. -/
def recordThrottle (k : Scope) (retryAfter : ℤ) : Program (Except Err Unit) := do
  if 0 < retryAfter then
    let now ← clock
    statement (.admissionMultiplicativeDecrease k (some (now + retryAfter.toNat)))
  else statement (.admissionMultiplicativeDecrease k none)

/-- `Limiter.CurrentLimit`: zero for a bucket that was never seeded. -/
def currentLimit (k : Scope) : Program (Except Err ℤ) := do
  match ← statement (.getAdmissionLimit k) with
  | .ok v => return .ok v
  | .error .noRows => return .ok 0
  | .error e => return .error e

/-- `Limiter.SeedTenant`. -/
def seedTenant (tenantID : String) (defaultCap : ℤ) : Program (Except Err Unit) :=
  statement (.seedAdmissionBucket (.tenant tenantID) "" (int32 (max defaultCap 1)))

end Admission
end Hivebook
