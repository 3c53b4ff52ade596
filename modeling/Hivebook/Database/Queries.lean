import Hivebook.Database.Schema

/-!
# The queries

Every SQL statement the activities and the server issue, as a function of the
instant `now()` and the database.  The names are those of the generated query
package; the raw statements of the activities keep the name of their constant.
An `UPDATE` rewrites the rows its `WHERE` selects, in place; a `:one` query that
finds nothing answers `sql.ErrNoRows`.

## Main definitions

* the queries of `connection.sql`, `sync_unit.sql`, `artifact.sql` and
  `admission.sql`;
* `commitArtifact` — the transaction `makeEmit` commits per changed item;
* `nextUnitBatch`, `startRun`, `settleCounts` — the raw run-control statements.
-/

namespace Hivebook
namespace Database

/-- `sql.ErrNoRows` when a `:one` query finds nothing. -/
def one {α : Type} : Option α → Except Err α
  | some a => .ok a
  | none => .error .noRows

/-! ### `connection.sql` -/

/-- The parameters of `UpsertConnection`. -/
structure UpsertConnectionParams where
  tenantID : String
  region : String
  connectorID : String
  account : String
  accessToken : Bytes
  refreshToken : Option Bytes
  tokenExpiry : Option Time
  scopes : String
  installationID : String
  externalID : String
  deriving DecidableEq, Repr

/-- The row `UpsertConnection` inserts. -/
def UpsertConnectionParams.new (p : UpsertConnectionParams) (id : Uuid) : Connection :=
  { id, tenantID := p.tenantID, region := p.region, connectorID := p.connectorID,
    status := .connected, account := p.account, accessToken := p.accessToken,
    refreshToken := p.refreshToken, tokenExpiry := p.tokenExpiry, scopes := p.scopes,
    installationID := p.installationID, externalID := p.externalID, lastError := "",
    lastSuccessAt := none, deletedAt := none, catalogDiscoveredAt := none, onboarded := false }

/-- The refresh token kept on conflict: a missing or empty one never replaces a
stored one. -/
def keptRefreshToken (new old : Option Bytes) : Option Bytes :=
  match new with
  | some (b :: bs) => some (b :: bs)
  | _ => old

/-- `UpsertConnection`: a reconnect reuses the row and un-deletes it. -/
def upsertConnection (p : UpsertConnectionParams) (db : Database) :
    Except Err Connection × Database :=
  let connections := db.connections.upsert p.new fun c =>
    { c with
      status := .connected, account := p.account, installationID := p.installationID,
      accessToken := p.accessToken,
      refreshToken := keptRefreshToken p.refreshToken c.refreshToken,
      tokenExpiry := p.tokenExpiry, scopes := p.scopes, lastError := "", deletedAt := none }
  (one (connections.rows.find? fun c => decide (c.key = (p.new 0).key)), { db with connections })

/-- `GetConnection`: tenant-scoped, and a soft-deleted row reads as gone. -/
def getConnection (id : Uuid) (tenantID : String) (db : Database) : Except Err Connection :=
  one (db.connections.rows.find? fun c =>
    decide (c.id = id) && decide (c.tenantID = tenantID) && c.deletedAt.isNone)

/-- `GetConnectionByID`. -/
def getConnectionByID (id : Uuid) (db : Database) : Except Err Connection :=
  one (db.connections.rows.find? fun c => decide (c.id = id) && c.deletedAt.isNone)

/-- `SetNeedsReauth`. -/
def setNeedsReauth (id : Uuid) (lastError : String) (db : Database) : Database :=
  db.updateConnections (fun c => decide (c.id = id)) fun c =>
    { c with status := .needsReauth, lastError }

/-- `SetConnectionStatus`. -/
def setConnectionStatus (id : Uuid) (status : ConnectionStatus) (lastError : String)
    (db : Database) : Database :=
  db.updateConnections (fun c => decide (c.id = id)) fun c => { c with status, lastError }

/-- `UpdateTokens`. -/
def updateTokens (id : Uuid) (accessToken refreshToken : Bytes) (tokenExpiry : Option Time)
    (db : Database) : Database :=
  db.updateConnections (fun c => decide (c.id = id)) fun c =>
    { c with accessToken, refreshToken := some refreshToken, tokenExpiry }

/-- `UpdateAccessToken`: the refresh token is kept. -/
def updateAccessToken (id : Uuid) (accessToken : Bytes) (tokenExpiry : Option Time)
    (db : Database) : Database :=
  db.updateConnections (fun c => decide (c.id = id)) fun c => { c with accessToken, tokenExpiry }

/-- `DeleteConnection`: a soft delete; answers the number of rows it hit. -/
def deleteConnection (now : Time) (id : Uuid) (tenantID : String) (db : Database) : ℕ × Database :=
  let hit := fun c : Connection => decide (c.id = id) && decide (c.tenantID = tenantID)
  (db.connections.rows.countP hit, db.updateConnections hit fun c =>
    { c with deletedAt := some now, status := .disabled })

/-- `SetCatalogDiscovered`. -/
def setCatalogDiscovered (now : Time) (id : Uuid) (db : Database) : Database :=
  db.updateConnections (fun c => decide (c.id = id)) fun c =>
    { c with catalogDiscoveredAt := some now }

/-- `MarkConnectionOnboarded`. -/
def markConnectionOnboarded (id : Uuid) (db : Database) : Database :=
  db.updateConnections (fun c => decide (c.id = id)) fun c => { c with onboarded := true }

/-- `startRunConnectionSQL`: sticky states win over a fresh run. -/
def startRunConnection (id : Uuid) (db : Database) : Database :=
  db.updateConnections (fun c => decide (c.id = id) &&
      decide (c.status ∉ [ConnectionStatus.needsReauth, .disabled, .stopping])) fun c =>
    { c with status := .syncing }

/-- `setConnectionSettledSQL`. -/
def setConnectionSettled (now : Time) (id : Uuid) (status : ConnectionStatus) (db : Database) :
    Database :=
  db.updateConnections (fun c => decide (c.id = id)) fun c =>
    { c with
      status
      lastSuccessAt :=
        if status ∈ [ConnectionStatus.connected, .connectedWarnings] then some now
        else c.lastSuccessAt
      lastError := if status = .error then c.lastError else "" }

/-- The artifacts of a tenant's connection. -/
def ofConnection (connectionID : Uuid) (tenantID : String) (r : RawArtifact) : Bool :=
  decide (r.connectionID = connectionID) && decide (r.tenantID = tenantID)

/-- `SoftDeleteConnectionArtifacts`. -/
def softDeleteConnectionArtifacts (now : Time) (connectionID : Uuid) (tenantID : String)
    (db : Database) : Database :=
  db.updateArtifacts (fun r => ofConnection connectionID tenantID r && r.deletedAt.isNone)
    fun r => { r with deletedAt := some now }

/-- `UndeleteConnectionArtifacts`. -/
def undeleteConnectionArtifacts (connectionID : Uuid) (tenantID : String) (db : Database) :
    Database :=
  db.updateArtifacts (fun r => ofConnection connectionID tenantID r && r.deletedAt.isSome)
    fun r => { r with deletedAt := none }

/-! ### `sync_unit.sql` -/

/-- `UpsertSyncUnit`: the mark of mark-and-sweep.  A new unit is not selected; a
known one keeps its selection, cursor and status. -/
def upsertSyncUnit (now : Time) (connectionID : Uuid) (externalID name kind : String)
    (generation : ℤ) (db : Database) : Database :=
  let new := fun id : Uuid =>
    { id, connectionID, externalID, name, kind, selected := false, cursor := "",
      status := .idle, generation, lastSeenAt := some now, lastError := "",
      nextRetryAt := none, committedAt := none, artifactCount := 0, totalEstimate := 0,
      updatedAt := now }
  { db with units := db.units.upsert new fun u =>
      { u with name, kind, generation, lastSeenAt := some now, updatedAt := now } }

/-- `GetSyncUnit`. -/
def getSyncUnit (connectionID : Uuid) (externalID : String) (db : Database) :
    Except Err SyncUnit :=
  one (db.units.rows.find? (SyncUnit.is connectionID externalID))

/-- `SetUnitTotal`. -/
def setUnitTotal (now : Time) (connectionID : Uuid) (externalID : String) (totalEstimate : ℤ)
    (db : Database) : Database :=
  db.updateUnits (SyncUnit.is connectionID externalID) fun u =>
    { u with totalEstimate, updatedAt := now }

/-- `SetUnitSelection`: the selection is replaced in one shot. -/
def setUnitSelection (now : Time) (connectionID : Uuid) (selectedIDs : List String)
    (db : Database) : Database :=
  db.updateUnits (fun u => decide (u.connectionID = connectionID)) fun u =>
    { u with selected := decide (u.externalID ∈ selectedIDs), updatedAt := now }

/-- `SetUnitStatus`. -/
def setUnitStatus (now : Time) (connectionID : Uuid) (externalID : String) (status : UnitStatus)
    (db : Database) : Database :=
  db.updateUnits (SyncUnit.is connectionID externalID) fun u => { u with status, updatedAt := now }

/-- `SetUnitCursor`. -/
def setUnitCursor (now : Time) (connectionID : Uuid) (externalID cursor : String)
    (db : Database) : Database :=
  db.updateUnits (SyncUnit.is connectionID externalID) fun u => { u with cursor, updatedAt := now }

/-- `IncrementUnitArtifactCount`. -/
def incrementUnitArtifactCount (now : Time) (connectionID : Uuid) (externalID : String)
    (delta : ℤ) (db : Database) : Database :=
  db.updateUnits (SyncUnit.is connectionID externalID) fun u =>
    { u with artifactCount := u.artifactCount + delta, updatedAt := now }

/-- `CommitUnit`: stamps the first full pass and recounts the manifest. -/
def commitUnit (now : Time) (connectionID : Uuid) (externalID : String) (db : Database) :
    Database :=
  let count := db.artifacts.rows.countP fun r =>
    decide (r.connectionID = connectionID) && decide (r.syncContainerID = externalID) &&
      r.deletedAt.isNone
  db.updateUnits (SyncUnit.is connectionID externalID) fun u =>
    { u with
      committedAt := some (u.committedAt.getD now)
      status := .synced, lastError := "", artifactCount := count, updatedAt := now }

/-- `SetUnitRetry`: the poison backoff. -/
def setUnitRetry (now : Time) (connectionID : Uuid) (externalID lastError : String)
    (nextRetryAt : Time) (db : Database) : Database :=
  db.updateUnits (SyncUnit.is connectionID externalID) fun u =>
    { u with status := .error, lastError, nextRetryAt := some nextRetryAt, updatedAt := now }

/-- `ClearUnitRetry`. -/
def clearUnitRetry (now : Time) (connectionID : Uuid) (externalID : String) (db : Database) :
    Database :=
  db.updateUnits (SyncUnit.is connectionID externalID) fun u =>
    { u with lastError := "", nextRetryAt := none, updatedAt := now }

/-- `CountLiveUnits`. -/
def countLiveUnits (connectionID : Uuid) (db : Database) : ℕ :=
  db.units.rows.countP fun u =>
    decide (u.connectionID = connectionID) && decide (u.status ≠ .removed)

/-- `MaxUnitGeneration`: `0` for a connection without units. -/
def maxUnitGeneration (connectionID : Uuid) (db : Database) : ℤ :=
  match (db.units.rows.filter fun u => decide (u.connectionID = connectionID)).map
      SyncUnit.generation with
  | [] => 0
  | g :: gs => gs.foldl max g

/-- `SweepUnseenUnits`: tombstones the units of an older generation; answers how
many. -/
def sweepUnseenUnits (now : Time) (connectionID : Uuid) (generation : ℤ) (db : Database) :
    ℕ × Database :=
  let unseen := fun u : SyncUnit => decide (u.connectionID = connectionID) &&
    decide (u.generation < generation) && decide (u.status ≠ .removed)
  (db.units.rows.countP unseen, db.updateUnits unseen fun u =>
    { u with status := .removed, updatedAt := now })

/-- The units `GCRemovedUnits` deletes. -/
def collectable (cutoff : Time) (u : SyncUnit) : Bool :=
  decide (u.status = .removed) && decide (u.updatedAt < cutoff)

/-- `ListConnectionsWithRemovedUnits`. -/
def listConnectionsWithRemovedUnits (cutoff : Time) (db : Database) : List Uuid :=
  ((db.units.rows.filter (collectable cutoff)).map SyncUnit.connectionID).dedup

/-- `GCRemovedUnits`. -/
def gcRemovedUnits (connectionID : Uuid) (cutoff : Time) (db : Database) : ℕ × Database :=
  let hit := fun u : SyncUnit => decide (u.connectionID = connectionID) && collectable cutoff u
  (db.units.rows.countP hit, { db with units := db.units.delete hit })

/-- What `nextUnitBatchSQL` selects: selected units that still need work, with the
poison backoff elapsed. -/
def eligible (now : Time) (connectionID : Uuid) (u : SyncUnit) : Bool :=
  decide (u.connectionID = connectionID) && u.selected &&
    decide (u.status ∉ [UnitStatus.synced, .error, .removed]) && nullOrElapsed u.nextRetryAt now

/-- `nextUnitBatchSQL`, ordered by external id. -/
def nextUnitBatch (now : Time) (connectionID : Uuid) (limit : ℕ) (db : Database) : List String :=
  (((db.units.rows.filter (eligible now connectionID)).map SyncUnit.externalID).insertionSort
    (· ≤ ·)).take limit

/-- `startRunSQL`: the selected units of the last cycle are re-armed. -/
def startRun (now : Time) (connectionID : Uuid) (db : Database) : Database :=
  db.updateUnits (fun u => decide (u.connectionID = connectionID) && u.selected &&
      decide (u.status ∈ [UnitStatus.synced, .error])) fun u =>
    { u with status := .idle, updatedAt := now }

/-- The four counts of `settleCountsSQL`. -/
structure SettleCounts where
  total : ℕ
  errored : ℕ
  synced : ℕ
  uncommitted : ℕ
  deriving DecidableEq, Repr

/-- `settleCountsSQL`. -/
def settleCounts (connectionID : Uuid) (db : Database) : SettleCounts :=
  let count := fun p : SyncUnit → Bool => db.units.rows.countP fun u =>
    decide (u.connectionID = connectionID) && (u.selected && p u)
  { total := count fun u => decide (u.status ≠ .removed)
    errored := count fun u => decide (u.status = .error)
    synced := count fun u => decide (u.status = .synced)
    uncommitted := count fun u => decide (u.status ≠ .removed) && u.committedAt.isNone }

/-- `SoftDeleteDeselectedUnitArtifacts`. -/
def softDeleteDeselectedUnitArtifacts (now : Time) (connectionID : Uuid) (db : Database) :
    Database :=
  db.updateArtifacts (fun r => decide (r.connectionID = connectionID) && r.deletedAt.isNone &&
      db.hasUnit connectionID (fun u => !u.selected) r.syncContainerID)
    fun r => { r with deletedAt := some now }

/-- `UndeleteSelectedUnitArtifacts`. -/
def undeleteSelectedUnitArtifacts (connectionID : Uuid) (db : Database) : Database :=
  db.updateArtifacts (fun r => decide (r.connectionID = connectionID) && r.deletedAt.isSome &&
      db.hasUnit connectionID (fun u => u.selected) r.syncContainerID)
    fun r => { r with deletedAt := none }

/-! ### `artifact.sql` -/

/-- `GetArtifactContentHash`. -/
def getArtifactContentHash (connectionID : Uuid) (externalID : String) (db : Database) :
    Except Err String :=
  one ((db.artifacts.rows.find? fun r => decide (r.key = (connectionID, externalID))).map
    RawArtifact.contentHash)

/-- The committed-unit gate of `ListArtifacts`: the row is not hidden, and its unit
has completed a full pass. -/
def visible (db : Database) (r : RawArtifact) : Bool :=
  r.deletedAt.isNone &&
    db.hasUnit r.connectionID (fun u => u.committedAt.isSome) r.syncContainerID

/-- The rows `ListArtifacts` pages through: a tenant's visible artifacts, of one
connection or of all, newest first. -/
def listArtifacts (tenantID : String) (connectionID : Option Uuid) (limit offset : ℕ)
    (db : Database) : List RawArtifact :=
  (((db.artifacts.rows.filter fun r => decide (r.tenantID = tenantID) &&
      connectionID.all (fun id => decide (r.connectionID = id)) && visible db r).insertionSort
    fun r r' => r'.ingestedAt ≤ r.ingestedAt).drop offset).take limit

/-- The parameters of `UpsertRawArtifact`. -/
structure UpsertRawArtifactParams where
  tenantID : String
  region : String
  connectionID : Uuid
  source : String
  sourceNativeKind : String
  containerID : String
  syncContainerID : String
  containerKind : String
  containerName : String
  externalID : String
  sourceURL : String
  objectKey : String
  contentHash : String
  sourceUpdatedAt : Option ℤ
  deriving DecidableEq, Repr

/-- The row `UpsertRawArtifact` inserts. -/
def UpsertRawArtifactParams.new (p : UpsertRawArtifactParams) (now : Time) (id : Uuid) :
    RawArtifact :=
  { id, tenantID := p.tenantID, region := p.region, connectionID := p.connectionID,
    source := p.source, sourceNativeKind := p.sourceNativeKind, containerID := p.containerID,
    syncContainerID := p.syncContainerID, containerKind := p.containerKind,
    containerName := p.containerName, externalID := p.externalID, sourceURL := p.sourceURL,
    objectKey := p.objectKey, contentHash := p.contentHash,
    sourceUpdatedAt := p.sourceUpdatedAt, ingestedAt := now,
    deletedAt := none, purgePending := false, purgeDeadline := none }

/-- The row `UpsertRawArtifact` leaves on conflict: the delete marks and the first
ingest time stay. -/
def UpsertRawArtifactParams.conflict (p : UpsertRawArtifactParams) (r : RawArtifact) :
    RawArtifact :=
  { r with
    objectKey := p.objectKey, contentHash := p.contentHash, sourceURL := p.sourceURL,
    containerName := p.containerName, syncContainerID := p.syncContainerID
    sourceUpdatedAt := p.sourceUpdatedAt }

/-- `UpsertRawArtifact`. -/
def upsertRawArtifact (now : Time) (p : UpsertRawArtifactParams) (db : Database) : Database :=
  { db with artifacts := db.artifacts.upsert (p.new now) p.conflict }

/-- The transaction `makeEmit` commits for a changed item: the manifest row, the
cursor if it advances, and the live count, all or nothing. -/
def commitArtifact (now : Time) (p : UpsertRawArtifactParams) (unitID : String)
    (cursor : Option String) (db : Database) : Database :=
  let db := upsertRawArtifact now p db
  let db := match cursor with
    | some c => setUnitCursor now p.connectionID unitID c db
    | none => db
  incrementUnitArtifactCount now p.connectionID unitID 1 db

/-- `purge_deadline NULLS LAST`. -/
def deadlineLE (r r' : RawArtifact) : Bool :=
  match r.purgeDeadline, r'.purgeDeadline with
  | some d, some d' => decide (d ≤ d')
  | some _, none => true
  | none, some _ => false
  | none, none => true

/-- `ListPurgePendingArtifacts`: the outbox, oldest deadline first. -/
def listPurgePendingArtifacts (limit : ℕ) (db : Database) : List RawArtifact :=
  ((db.artifacts.rows.filter RawArtifact.purgePending).insertionSort
    fun r r' => deadlineLE r r' = true).take limit

/-- `ConfirmArtifactDeletes`: drops the manifest rows whose object is gone. -/
def confirmArtifactDeletes (ids : List Uuid) (db : Database) : ℕ × Database :=
  let hit := fun r : RawArtifact => decide (r.id ∈ ids) && r.purgePending
  (db.artifacts.rows.countP hit, { db with artifacts := db.artifacts.delete hit })

/-- `ListPurgePendingPastDeadline`: the rows `CheckPurgeSLA` pages for. -/
def listPurgePendingPastDeadline (slaCutoff : Time) (limit : ℕ) (db : Database) :
    List RawArtifact :=
  ((db.artifacts.rows.filter fun r => r.purgePending && before r.deletedAt slaCutoff).insertionSort
    fun r r' => r.deletedAt.getD 0 ≤ r'.deletedAt.getD 0).take limit

/-- What a mark writes: the row is owed an erasure and hidden. -/
def markPurge (now deadline : Time) (r : RawArtifact) : RawArtifact :=
  { r with
    purgePending := true, purgeDeadline := some deadline,
    deletedAt := some (r.deletedAt.getD now) }

/-- `MarkConnectionArtifactsPurgePending`: no grace. -/
def markConnectionArtifactsPurgePending (now : Time) (connectionID : Uuid) (tenantID : String)
    (db : Database) : Database :=
  db.updateArtifacts (fun r => ofConnection connectionID tenantID r && !r.purgePending)
    (markPurge now now)

/-- `MarkRemovedUnitArtifactsPurgePending`. -/
def markRemovedUnitArtifactsPurgePending (now : Time) (connectionID : Uuid)
    (purgeDeadline : Time) (db : Database) : Database :=
  db.updateArtifacts (fun r => decide (r.connectionID = connectionID) && !r.purgePending &&
      db.hasUnit connectionID (fun u => decide (u.status = .removed)) r.syncContainerID)
    (markPurge now purgeDeadline)

/-! ### `admission.sql` -/

/-- Rewriting one bucket; a missing one is no row to update. -/
def updateBucket (db : Database) (k : Scope) (f : AdmissionBucket → AdmissionBucket) : Database :=
  { db with buckets := Function.update db.buckets k ((db.buckets k).map f) }

/-- `SeedAdmissionBucket`: `ON CONFLICT DO NOTHING`. -/
def seedAdmissionBucket (k : Scope) (connectorID : String) (concurrencyLimit : ℤ)
    (db : Database) : Database :=
  match db.buckets k with
  | some _ => db
  | none =>
      let new := { connectorID, concurrencyLimit, inFlight := 0, cooldownUntil := none }
      { db with buckets := Function.update db.buckets k (some new) }

/-- The `WHERE` of `AcquireAdmission`: a slot is free and no cooldown is in effect. -/
def admits (now : Time) (b : AdmissionBucket) : Bool :=
  decide ((b.inFlight : ℤ) < b.concurrencyLimit) && nullOrElapsed b.cooldownUntil now

/-- `AcquireAdmission`: the compare-and-swap; answers the new `in_flight`. -/
def acquireAdmission (now : Time) (k : Scope) (db : Database) : Except Err ℕ × Database :=
  match db.buckets k with
  | some b =>
      if admits now b then
        (.ok (b.inFlight + 1), db.updateBucket k fun b => { b with inFlight := b.inFlight + 1 })
      else (.error .noRows, db)
  | none => (.error .noRows, db)

/-- `ReleaseAdmission`: `GREATEST(in_flight - 1, 0)`. -/
def releaseAdmission (k : Scope) (db : Database) : Database :=
  db.updateBucket k fun b => { b with inFlight := b.inFlight - 1 }

/-- `AdmissionAdditiveIncrease`. -/
def admissionAdditiveIncrease (k : Scope) (maxLimit : ℤ) (db : Database) : Database :=
  db.updateBucket k fun b =>
    if b.concurrencyLimit < maxLimit ∧ b.concurrencyLimit - 1 ≤ (b.inFlight : ℤ) then
      { b with concurrencyLimit := min (b.concurrencyLimit + 1) maxLimit }
    else b

/-- `AdmissionMultiplicativeDecrease`. -/
def admissionMultiplicativeDecrease (k : Scope) (cooldownUntil : Option Time) (db : Database) :
    Database :=
  db.updateBucket k fun b =>
    { b with concurrencyLimit := max (b.concurrencyLimit.tdiv 2) 1, cooldownUntil }

/-- `GetAdmissionLimit`. -/
def getAdmissionLimit (k : Scope) (db : Database) : Except Err ℤ :=
  one ((db.buckets k).map AdmissionBucket.concurrencyLimit)

end Database
end Hivebook
