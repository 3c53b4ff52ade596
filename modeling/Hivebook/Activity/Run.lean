import Hivebook.Activity.Client

/-!
# Run control

The activities at the two ends of a run: `StartRun` re-arms the units of the last
cycle, and `SettleConnection` folds the units' statuses into the resting status of
the connection.  The lineage row a settle writes is left out: nothing reads it back.
-/

namespace Hivebook

/-- `settleStatus`: the pure rollup. -/
def settleStatus (total errored uncommitted : ℕ) : ConnectionStatus :=
  if total = 0 then .connected
  else if errored = total then .error
  else if errored < uncommitted then .backfilling
  else if 0 < errored then .connectedWarnings
  else .connected

namespace Activities

/-- `StartRun`. -/
def startRun (connectionID : Uuid) : Program (Except ActivityError Unit) := do
  match ← statement (.startRun connectionID) with
  | .error e => return .error (.plain e)
  | .ok _ =>
      match ← statement (.getConnectionByID connectionID) with
      | .error e => return .error (.plain e)
      | .ok conn =>
          match ← statement (.startRunConnection connectionID) with
          | .error e => return .error (.plain e)
          | .ok _ =>
              let _ ← statement (.notifyConnectionChanged conn.tenantID)
              return .ok ()

/-- `setConnectionSettled`: `needs_reauth` is sticky. -/
def setConnectionSettled (conn : Connection) (status : ConnectionStatus) :
    Program (Except Err Unit) := do
  if conn.status = .needsReauth then return .ok ()
  match ← statement (.setConnectionSettled conn.id status) with
  | .error e => return .error e
  | .ok _ =>
      let _ ← statement (.notifyConnectionChanged conn.tenantID)
      return .ok ()

/-- `SettleConnection`: answers the status it rolled up. -/
def settleConnection (connectionID : Uuid) : Program (Except ActivityError ConnectionStatus) := do
  match ← statement (.settleCounts connectionID) with
  | .error e => return .error (.plain e)
  | .ok counts =>
      let status := settleStatus counts.total counts.errored counts.uncommitted
      match ← statement (.getConnectionByID connectionID) with
      | .error e => return .error (.plain e)
      | .ok conn =>
          match ← setConnectionSettled conn status with
          | .error e => return .error (.plain e)
          | .ok _ => return .ok status

end Activities

end Hivebook
