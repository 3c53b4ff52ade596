import Hivebook.Activity.Client
import Hivebook.Admission

/-!
# Draining a unit

`SyncUnit` drains one unit of a connection: it takes an admission slot, hands the
connector an `emit` that persists one item, and settles the unit's status by how
the connector returned.  `makeEmit` writes the bytes to object storage first and
commits the manifest row and the cursor in one transaction after.

The lineage row `recordRun` writes at the end is left out: nothing reads it back.

## Main definitions

* `makeEmit` — the persistence of one item, over the high-water mark and the count
  of items written.
* `drain` — the connector's drain, run with that `emit`.
* `syncUnit`, `nextUnitBatch`, `capacity` — the activities.
-/

namespace Hivebook

open Connectors Admission

/-- `notifyEvery`. -/
def notifyEvery : ℕ := 25

/-- `tenantInflightCap`. -/
def tenantInflightCap : ℤ := 16

/-- `globalWorkerCap`. -/
def globalWorkerCap : ℤ := 32

/-- `activity.SyncInput`. -/
structure SyncInput where
  connectionID : Uuid
  tenantID : String
  connectorID : String
  unitID : String
  deriving DecidableEq, Repr

/-- What the `emit` closure keeps between two items. -/
structure EmitState where
  /-- The in-memory high-water mark of the cursor. -/
  high : String
  written : ℕ
  deriving DecidableEq, Repr

/-- The zero `time.Time`, the first instant of the year `1`. -/
def zeroTime : ℤ := -62135596800 * 1000000000

/-- `nullTime`: no time, and the zero one, are stored as `NULL`. -/
def nullTime (t : Option ℤ) : Option ℤ := t.filter fun t => decide (t ≠ zeroTime)

namespace Activities

variable (a : Activities)

/-- The row `makeEmit` upserts for an item stored under a key. -/
def artifactParams (i : SyncInput) (conn : Connection) (art : Artifact)
    (objectKey hash : String) : Database.UpsertRawArtifactParams :=
  { tenantID := conn.tenantID, region := conn.region, connectionID := i.connectionID,
    source := conn.connectorID, sourceNativeKind := art.sourceNativeKind,
    containerID := art.container.id, syncContainerID := i.unitID,
    containerKind := art.container.kind, containerName := art.container.name,
    externalID := art.externalID, sourceURL := art.sourceURL, objectKey, contentHash := hash
    sourceUpdatedAt := nullTime art.sourceUpdatedAt }

/-- `makeEmit`, an unchanged item: nothing is written, but the cursor moves past it.
The mark in memory moves even when the statement fails. -/
def emitUnchanged (i : SyncInput) (art : Artifact) (st : EmitState) :
    Program (Except Err Unit × EmitState) := do
  if st.high < art.cursor then
    let _ ← statement (.setUnitCursor i.connectionID i.unitID art.cursor)
    return (.ok (), { st with high := art.cursor })
  else return (.ok (), st)

/-- The throttled progress notification: one per `notifyEvery` items written. -/
def noteProgress (i : SyncInput) (written : ℕ) : Program Unit := do
  if written % notifyEvery = 0 then
    let _ ← statement (.notifyConnectionChanged i.tenantID)
    return ()
  else return ()

/-- The in-memory mark after a committed item: only forward, and only for a
cursored source. -/
def advanced (high cursor : String) : String :=
  if cursor ≠ "" ∧ high < cursor then cursor else high

/-- `makeEmit`, a changed item: the bytes first, then the row, the cursor and the
count in one transaction. -/
def emitChanged (i : SyncInput) (conn : Connection) (art : Artifact) (hash : String)
    (st : EmitState) : Program (Except Err Unit × EmitState) := do
  match ← putObject a.env conn.connectorID conn.region conn.tenantID
      (conn.connectorID ++ "/" ++ hash) art.contentType art.raw with
  | .error e => return (.error e, st)
  | .ok objectKey =>
      let cursor := if art.cursor ≠ "" ∧ st.high < art.cursor then some art.cursor else none
      match ← statement (.commitArtifact (artifactParams i conn art objectKey hash)
          i.unitID cursor) with
      | .error e => return (.error e, st)
      | .ok _ =>
          noteProgress i (st.written + 1)
          return (.ok (), { high := advanced st.high art.cursor, written := st.written + 1 })

/-- `makeEmit`: the closure a connector is given. -/
def makeEmit (i : SyncInput) (conn : Connection) (art : Artifact) (st : EmitState) :
    Program (Except Err Unit × EmitState) := do
  if ← ctxErr then return (.error .canceled, st)
  let hash := a.contentHash.hash art.raw
  match ← statement (.getArtifactContentHash i.connectionID art.externalID) with
  | .ok prev =>
      -- the contents are compared by their hash alone
      if prev = hash then emitUnchanged i art st else a.emitChanged i conn art hash st
  | .error .noRows => a.emitChanged i conn art hash st
  | .error e => return (.error e, st)

/-- How the service answers the commands of a drain. -/
def syncHandler (i : SyncInput) (conn : Connection) :
    (c : SyncCmd) → EmitState → Program (c.Resp × EmitState)
  | .fetch .ctxErr, st => do return (← ctxErr, st)
  | .fetch (.request q), st => do return (← request q, st)
  | .emit art, st => a.makeEmit i conn art st

/-- `connector.SyncUnit(ctx, client, unit, cursor, emit)`. -/
def drain (i : SyncInput) (conn : Connection) (connector : Connector) (unit : SyncUnit) :
    Program (Except Err Bool × EmitState) :=
  (connector.syncUnit { id := unit.externalID, kind := unit.kind, name := unit.name }
    unit.cursor).handle (a.syncHandler i conn) { high := unit.cursor, written := 0 }

/-- The end of a caught-up drain: the unit is committed and marked synced. -/
def commitSynced (i : SyncInput) (written : ℕ) : Program (Except ActivityError SyncResult) := do
  match ← statement (.commitUnit i.connectionID i.unitID) with
  | .error e => return .error (.plain e)
  | .ok _ =>
      match ← statement (.setUnitStatus i.connectionID i.unitID .synced) with
      | .error e => return .error (.plain e)
      | .ok _ =>
          let _ ← statement (.clearUnitRetry i.connectionID i.unitID)
          let _ ← statement (.notifyConnectionChanged i.tenantID)
          return .ok { done := true, artifacts := written, status := some .synced }

/-- The feedback to the limiter when the source throttled the drain. -/
def throttleFeedback (connectionID : Uuid) : Err → Program Unit
  | .rateLimit retryAfter => do
      let _ ← recordThrottle (.credential connectionID) retryAfter
      return ()
  | _ => return ()

/-- The final progress notification of a drain that wrote something. -/
def flushProgress (i : SyncInput) (written : ℕ) : Program Unit := do
  if 0 < written then
    let _ ← statement (.notifyConnectionChanged i.tenantID)
    return ()
  else return ()

/-- `SyncUnit` after the connector returned. -/
def finishUnit (i : SyncInput) (conn : Connection) (connector : Connector)
    (result : Except Err Bool) (written : ℕ) : Program (Except ActivityError SyncResult) := do
  flushProgress i written
  -- a stop is no failure: the unit stays as it is, and the settle returns it to idle
  if ← ctxErr then return .error (.plain .canceled)
  match result with
  | .error e =>
      -- only a rate limit of the source is told to the limiter
      throttleFeedback i.connectionID e
      return .error (← classify conn i.unitID e)
  | .ok done =>
      let _ ← recordSuccess (.credential i.connectionID) connector.rateBudget.maxConcurrency
      if done then commitSynced i written
      else return .ok { done := false, artifacts := written, status := some .syncing }

/-- `SyncUnit` once a slot is taken, up to the deferred `Release`. -/
def drainUnit (i : SyncInput) (conn : Connection) (connector : Connector) (unit : SyncUnit) :
    Program (Except ActivityError SyncResult) := do
  let (result, st) ← a.drain i conn connector unit
  finishUnit i conn connector result st.written

/-- `SyncUnit` between the client and the slot.  The `Release` is deferred: it runs
on every exit, on the context of the activity. -/
def admitted (i : SyncInput) (conn : Connection) (connector : Connector) (unit : SyncUnit) :
    Program (Except ActivityError SyncResult) := do
  match ← acquire (.credential i.connectionID) conn.connectorID connector.rateBudget with
  | .error e => return .error (.plain e)
  -- a refusal is retried by the engine; nobody waits for a slot here
  | .ok false => return .error (.application "admission limit reached" .rateLimit false none)
  | .ok true =>
      let r ← a.drainUnit i conn connector unit
      let _ ← release (.credential i.connectionID)
      return r

/-- `SyncUnit`. -/
def syncUnit (i : SyncInput) : Program (Except ActivityError SyncResult) := do
  match ← a.loadConnection i.connectionID with
  | .error e => return .error (.plain e)
  | .ok (conn, connector) =>
      match ← statement (.getSyncUnit i.connectionID i.unitID) with
      | .error e => return .error (.plain e)
      | .ok unit =>
          match ← statement (.setUnitStatus i.connectionID i.unitID .syncing) with
          | .error e => return .error (.plain e)
          | .ok _ =>
              let _ ← statement (.notifyConnectionChanged i.tenantID)
              match ← a.clientFor conn with
              | .error e => return .error (← classify conn i.unitID e)
              | .ok _ => a.admitted i conn connector unit

/-- `NextUnitBatch`. -/
def nextUnitBatch (connectionID : Uuid) (limit : ℕ) :
    Program (Except ActivityError (List String)) := do
  match ← statement (.nextUnitBatch connectionID limit) with
  | .error e => return .error (.plain e)
  | .ok ids => return .ok ids

/-- `Capacity`: the batch size the limiter's learned ceiling allows, at least one. -/
def capacity (connectionID : Uuid) (tenantID connectorID : String) :
    Program (Except ActivityError ℤ) := do
  match a.reg.get connectorID with
  | none => return .error (.plain (.failed ("unknown connector " ++ connectorID.quote)))
  | some connector =>
      match ← currentLimit (.credential connectionID) with
      | .error e => return .error (.plain e)
      | .ok limit =>
          -- a credential without a bucket yet starts from its budget
          let credLimit := if limit = 0 then connector.rateBudget.startConcurrency else limit
          match ← seedTenant tenantID tenantInflightCap with
          | .error e => return .error (.plain e)
          | .ok _ =>
              match ← currentLimit (.tenant tenantID) with
              | .error e => return .error (.plain e)
              | .ok tenantCap =>
                  return .ok (max (min (min credLimit tenantCap) globalWorkerCap) 1)

end Activities

end Hivebook
