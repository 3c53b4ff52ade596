import Hivebook.Activity.Discovery

/-!
# The erasure outbox and the collection of removed units

The activities of a maintenance pass.  A row that is owed an erasure is dropped from
the manifest only once the delete of its object was confirmed; a delete that fails
keeps it for the next pass.
-/

namespace Hivebook

/-- `purgeSLADays`, as a duration. -/
def purgeSLA : Time := 30 * day

/-- `purgeBatch`. -/
def purgeBatch : ℕ := 200

/-- `slaScanLimit`. -/
def slaScanLimit : ℕ := 500

/-- `activity.PurgeResult`. -/
structure PurgeResult where
  deleted : ℕ
  failed : ℕ
  orphaned : ℕ
  deriving DecidableEq, Repr

namespace Activities

/-- The delete loop: the ids confirmed so far and the tally. -/
def purgeRows (confirmed : List Uuid) (res : PurgeResult) :
    List RawArtifact → Program (List Uuid × PurgeResult)
  | [] => return (confirmed, res)
  | r :: rs => do
      if r.objectKey = "" then
        purgeRows (confirmed ++ [r.id]) { res with orphaned := res.orphaned + 1 } rs
      else
        match ← deleteObject r.objectKey with
        | .error _ => purgeRows confirmed { res with failed := res.failed + 1 } rs
        | .ok _ => purgeRows (confirmed ++ [r.id]) { res with deleted := res.deleted + 1 } rs

/-- `PurgeArtifacts`: one pass over the outbox. -/
def purgeArtifacts (limit : ℤ) : Program (Except ActivityError PurgeResult) := do
  let limit := if limit ≤ 0 then purgeBatch else limit.toNat
  match ← statement (.listPurgePendingArtifacts limit) with
  | .error e => return .error (.plain e)
  | .ok rows =>
      let (confirmed, res) ← purgeRows [] { deleted := 0, failed := 0, orphaned := 0 } rows
      if confirmed = [] then return .ok res
      match ← statement (.confirmArtifactDeletes confirmed) with
      | .error e => return .error (.plain e)
      | .ok _ => return .ok res

/-- `CheckPurgeSLA`: the ids of the rows whose erasure is overdue. -/
def checkPurgeSLA : Program (Except ActivityError (List Uuid)) := do
  let now ← clock
  match ← statement (.listPurgePendingPastDeadline (now - purgeSLA) slaScanLimit) with
  | .error e => return .error (.plain e)
  | .ok rows => return .ok (rows.map RawArtifact.id)

/-- `MarkConnectionPurge`. -/
def markConnectionPurge (connectionID : Uuid) (tenantID : String) :
    Program (Except ActivityError Unit) := do
  match ← statement (.markConnectionArtifactsPurgePending connectionID tenantID) with
  | .error e => return .error (.plain e)
  | .ok _ => return .ok ()

/-- The loop of `GCRemovedUnits` over the connections. -/
def gcConnections (cutoff : Time) (total : ℕ) : List Uuid → Program (Except ActivityError ℕ)
  | [] => return .ok total
  | id :: ids => do
      match ← statement (.gcRemovedUnits id cutoff) with
      | .error e => return .error (.plain e)
      | .ok n => gcConnections cutoff (total + n) ids

/-- `GCRemovedUnits`. -/
def gcRemovedUnits : Program (Except ActivityError ℕ) := do
  let cutoff := (← clock) - purgeGrace
  match ← statement (.listConnectionsWithRemovedUnits cutoff) with
  | .error e => return .error (.plain e)
  | .ok ids => gcConnections cutoff 0 ids

end Activities

end Hivebook
