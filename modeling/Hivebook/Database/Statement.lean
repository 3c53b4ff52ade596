import Hivebook.Database.Queries

/-!
# Statements

The statements the activities and the server send to the database, as data.  Each
is atomic: it answers and changes the tables in one step.  `Statement.exec` runs
one by the query of its name.

## Main definitions

* `Statement`, `Statement.exec`.
* `Statement.writesConnections`, `Statement.writesUnits`, `Statement.writesArtifacts` — which
  statements write which table.

## Main results

* `connections_exec`, `units_exec`, `artifacts_exec` — **the others leave the table alone.**
-/

namespace Hivebook

open Database

/-- A statement of the integrations service. -/
inductive Statement where
  | upsertConnection (p : UpsertConnectionParams)
  | getConnection (id : Uuid) (tenantID : String)
  | getConnectionByID (id : Uuid)
  | setNeedsReauth (id : Uuid) (lastError : String)
  | setConnectionStatus (id : Uuid) (status : ConnectionStatus) (lastError : String)
  | updateTokens (id : Uuid) (accessToken refreshToken : Bytes) (tokenExpiry : Option Time)
  | updateAccessToken (id : Uuid) (accessToken : Bytes) (tokenExpiry : Option Time)
  | deleteConnection (id : Uuid) (tenantID : String)
  | setCatalogDiscovered (id : Uuid)
  | markConnectionOnboarded (id : Uuid)
  | startRunConnection (id : Uuid)
  | setConnectionSettled (id : Uuid) (status : ConnectionStatus)
  | softDeleteConnectionArtifacts (connectionID : Uuid) (tenantID : String)
  | undeleteConnectionArtifacts (connectionID : Uuid) (tenantID : String)
  | upsertSyncUnit (connectionID : Uuid) (externalID name kind : String) (generation : ℤ)
  | getSyncUnit (connectionID : Uuid) (externalID : String)
  | setUnitTotal (connectionID : Uuid) (externalID : String) (totalEstimate : ℤ)
  | setUnitSelection (connectionID : Uuid) (selectedIDs : List String)
  | setUnitStatus (connectionID : Uuid) (externalID : String) (status : UnitStatus)
  | setUnitCursor (connectionID : Uuid) (externalID cursor : String)
  | commitUnit (connectionID : Uuid) (externalID : String)
  | setUnitRetry (connectionID : Uuid) (externalID lastError : String) (nextRetryAt : Time)
  | clearUnitRetry (connectionID : Uuid) (externalID : String)
  | countLiveUnits (connectionID : Uuid)
  | maxUnitGeneration (connectionID : Uuid)
  | sweepUnseenUnits (connectionID : Uuid) (generation : ℤ)
  | listConnectionsWithRemovedUnits (cutoff : Time)
  | gcRemovedUnits (connectionID : Uuid) (cutoff : Time)
  | nextUnitBatch (connectionID : Uuid) (limit : ℕ)
  | startRun (connectionID : Uuid)
  | settleCounts (connectionID : Uuid)
  | softDeleteDeselectedUnitArtifacts (connectionID : Uuid)
  | undeleteSelectedUnitArtifacts (connectionID : Uuid)
  | getArtifactContentHash (connectionID : Uuid) (externalID : String)
  | commitArtifact (p : UpsertRawArtifactParams) (unitID : String) (cursor : Option String)
  | listPurgePendingArtifacts (limit : ℕ)
  | confirmArtifactDeletes (ids : List Uuid)
  | listPurgePendingPastDeadline (slaCutoff : Time) (limit : ℕ)
  | markConnectionArtifactsPurgePending (connectionID : Uuid) (tenantID : String)
  | markRemovedUnitArtifactsPurgePending (connectionID : Uuid) (purgeDeadline : Time)
  | seedAdmissionBucket (k : Scope) (connectorID : String) (concurrencyLimit : ℤ)
  | acquireAdmission (k : Scope)
  | releaseAdmission (k : Scope)
  | admissionAdditiveIncrease (k : Scope) (maxLimit : ℤ)
  | admissionMultiplicativeDecrease (k : Scope) (cooldownUntil : Option Time)
  | getAdmissionLimit (k : Scope)
  /-- `pg_notify`: wakes the watchers of a tenant, and changes no table. -/
  | notifyConnectionChanged (tenantID : String)
  deriving DecidableEq, Repr

/-- What a statement answers when it succeeds. -/
@[reducible] def Statement.Reply : Statement → Type
  | .upsertConnection _ | .getConnection _ _ | .getConnectionByID _ => Connection
  | .getSyncUnit _ _ => SyncUnit
  | .deleteConnection _ _ | .countLiveUnits _ | .sweepUnseenUnits _ _ | .gcRemovedUnits _ _
  | .confirmArtifactDeletes _ | .acquireAdmission _ => ℕ
  | .maxUnitGeneration _ | .getAdmissionLimit _ => ℤ
  | .listConnectionsWithRemovedUnits _ => List Uuid
  | .nextUnitBatch _ _ => List String
  | .settleCounts _ => SettleCounts
  | .getArtifactContentHash _ _ => String
  | .listPurgePendingArtifacts _ | .listPurgePendingPastDeadline _ _ => List RawArtifact
  | _ => Unit

/-- Running a statement at an instant. -/
def Statement.exec (now : Time) (db : Database) : (s : Statement) → Except Err s.Reply × Database
  | .upsertConnection p => Database.upsertConnection p db
  | .getConnection id tenantID => (Database.getConnection id tenantID db, db)
  | .getConnectionByID id => (Database.getConnectionByID id db, db)
  | .setNeedsReauth id e => (.ok (), Database.setNeedsReauth id e db)
  | .setConnectionStatus id status e => (.ok (), Database.setConnectionStatus id status e db)
  | .updateTokens id access refresh expiry =>
      (.ok (), Database.updateTokens id access refresh expiry db)
  | .updateAccessToken id access expiry =>
      (.ok (), Database.updateAccessToken id access expiry db)
  | .deleteConnection id tenantID =>
      let r := Database.deleteConnection now id tenantID db
      (.ok r.1, r.2)
  | .setCatalogDiscovered id => (.ok (), Database.setCatalogDiscovered now id db)
  | .markConnectionOnboarded id => (.ok (), Database.markConnectionOnboarded id db)
  | .startRunConnection id => (.ok (), Database.startRunConnection id db)
  | .setConnectionSettled id status => (.ok (), Database.setConnectionSettled now id status db)
  | .softDeleteConnectionArtifacts id tenantID =>
      (.ok (), Database.softDeleteConnectionArtifacts now id tenantID db)
  | .undeleteConnectionArtifacts id tenantID =>
      (.ok (), Database.undeleteConnectionArtifacts id tenantID db)
  | .upsertSyncUnit id externalID name kind generation =>
      (.ok (), Database.upsertSyncUnit now id externalID name kind generation db)
  | .getSyncUnit id externalID => (Database.getSyncUnit id externalID db, db)
  | .setUnitTotal id externalID total => (.ok (), Database.setUnitTotal now id externalID total db)
  | .setUnitSelection id selected => (.ok (), Database.setUnitSelection now id selected db)
  | .setUnitStatus id externalID status =>
      (.ok (), Database.setUnitStatus now id externalID status db)
  | .setUnitCursor id externalID cursor =>
      (.ok (), Database.setUnitCursor now id externalID cursor db)
  | .commitUnit id externalID => (.ok (), Database.commitUnit now id externalID db)
  | .setUnitRetry id externalID e at_ => (.ok (), Database.setUnitRetry now id externalID e at_ db)
  | .clearUnitRetry id externalID => (.ok (), Database.clearUnitRetry now id externalID db)
  | .countLiveUnits id => (.ok (Database.countLiveUnits id db), db)
  | .maxUnitGeneration id => (.ok (Database.maxUnitGeneration id db), db)
  | .sweepUnseenUnits id generation =>
      let r := Database.sweepUnseenUnits now id generation db
      (.ok r.1, r.2)
  | .listConnectionsWithRemovedUnits cutoff =>
      (.ok (Database.listConnectionsWithRemovedUnits cutoff db), db)
  | .gcRemovedUnits id cutoff =>
      let r := Database.gcRemovedUnits id cutoff db
      (.ok r.1, r.2)
  | .nextUnitBatch id limit => (.ok (Database.nextUnitBatch now id limit db), db)
  | .startRun id => (.ok (), Database.startRun now id db)
  | .settleCounts id => (.ok (Database.settleCounts id db), db)
  | .softDeleteDeselectedUnitArtifacts id =>
      (.ok (), Database.softDeleteDeselectedUnitArtifacts now id db)
  | .undeleteSelectedUnitArtifacts id => (.ok (), Database.undeleteSelectedUnitArtifacts id db)
  | .getArtifactContentHash id externalID =>
      (Database.getArtifactContentHash id externalID db, db)
  | .commitArtifact p unitID cursor => (.ok (), Database.commitArtifact now p unitID cursor db)
  | .listPurgePendingArtifacts limit => (.ok (Database.listPurgePendingArtifacts limit db), db)
  | .confirmArtifactDeletes ids =>
      let r := Database.confirmArtifactDeletes ids db
      (.ok r.1, r.2)
  | .listPurgePendingPastDeadline cutoff limit =>
      (.ok (Database.listPurgePendingPastDeadline cutoff limit db), db)
  | .markConnectionArtifactsPurgePending id tenantID =>
      (.ok (), Database.markConnectionArtifactsPurgePending now id tenantID db)
  | .markRemovedUnitArtifactsPurgePending id deadline =>
      (.ok (), Database.markRemovedUnitArtifactsPurgePending now id deadline db)
  | .seedAdmissionBucket k connectorID limit =>
      (.ok (), Database.seedAdmissionBucket k connectorID limit db)
  | .acquireAdmission k => Database.acquireAdmission now k db
  | .releaseAdmission k => (.ok (), Database.releaseAdmission k db)
  | .admissionAdditiveIncrease k limit => (.ok (), Database.admissionAdditiveIncrease k limit db)
  | .admissionMultiplicativeDecrease k cooldown =>
      (.ok (), Database.admissionMultiplicativeDecrease k cooldown db)
  | .getAdmissionLimit k => (Database.getAdmissionLimit k db, db)
  | .notifyConnectionChanged _ => (.ok (), db)

/-! ### The tables a statement leaves alone -/

/-- The statements that write `connector_connection`. -/
def Statement.writesConnections : Statement → Bool
  | .upsertConnection _ | .setNeedsReauth _ _ | .setConnectionStatus _ _ _ | .updateTokens _ _ _ _
  | .updateAccessToken _ _ _ | .deleteConnection _ _ | .setCatalogDiscovered _
  | .markConnectionOnboarded _ | .startRunConnection _ | .setConnectionSettled _ _ => true
  | _ => false

/-- The statements that write `sync_unit`. -/
def Statement.writesUnits : Statement → Bool
  | .upsertSyncUnit _ _ _ _ _ | .setUnitTotal _ _ _ | .setUnitSelection _ _ | .setUnitStatus _ _ _
  | .setUnitCursor _ _ _ | .commitUnit _ _ | .setUnitRetry _ _ _ _ | .clearUnitRetry _ _
  | .sweepUnseenUnits _ _ | .gcRemovedUnits _ _ | .startRun _ | .commitArtifact _ _ _ => true
  | _ => false

/-- The statements that write `raw_artifact`. -/
def Statement.writesArtifacts : Statement → Bool
  | .softDeleteConnectionArtifacts _ _ | .undeleteConnectionArtifacts _ _
  | .softDeleteDeselectedUnitArtifacts _ | .undeleteSelectedUnitArtifacts _
  | .commitArtifact _ _ _ | .confirmArtifactDeletes _ | .markConnectionArtifactsPurgePending _ _
  | .markRemovedUnitArtifactsPurgePending _ _ => true
  | _ => false

/-- Seeding a bucket touches no table. -/
theorem seedAdmissionBucket_eq (k : Scope) (connectorID : String) (limit : ℤ) (db : Database) :
    ∃ buckets, seedAdmissionBucket k connectorID limit db = { db with buckets } := by
  unfold seedAdmissionBucket
  split <;> exact ⟨_, rfl⟩

/-- Taking a slot touches no table. -/
theorem acquireAdmission_eq (now : Time) (k : Scope) (db : Database) :
    ∃ buckets, (acquireAdmission now k db).2 = { db with buckets } := by
  unfold acquireAdmission
  split
  · split <;> exact ⟨_, rfl⟩
  · exact ⟨_, rfl⟩

section Frame

variable {s : Statement} (now : Time) (db : Database)

theorem connections_exec (h : s.writesConnections = false) :
    (s.exec now db).2.connections = db.connections := by
  cases s with
  | commitArtifact p unitID cursor => cases cursor <;> rfl
  | seedAdmissionBucket k connectorID limit =>
    obtain ⟨buckets, heq⟩ := seedAdmissionBucket_eq k connectorID limit db
    have hsame := congrArg Database.connections heq
    exact hsame
  | acquireAdmission k =>
    obtain ⟨buckets, heq⟩ := acquireAdmission_eq now k db
    have hsame := congrArg Database.connections heq
    exact hsame
  | _ => first | rfl | cases h

theorem units_exec (h : s.writesUnits = false) : (s.exec now db).2.units = db.units := by
  cases s with
  | seedAdmissionBucket k connectorID limit =>
    obtain ⟨buckets, heq⟩ := seedAdmissionBucket_eq k connectorID limit db
    have hsame := congrArg Database.units heq
    exact hsame
  | acquireAdmission k =>
    obtain ⟨buckets, heq⟩ := acquireAdmission_eq now k db
    have hsame := congrArg Database.units heq
    exact hsame
  | _ => first | rfl | cases h

theorem artifacts_exec (h : s.writesArtifacts = false) :
    (s.exec now db).2.artifacts = db.artifacts := by
  cases s with
  | seedAdmissionBucket k connectorID limit =>
    obtain ⟨buckets, heq⟩ := seedAdmissionBucket_eq k connectorID limit db
    have hsame := congrArg Database.artifacts heq
    exact hsame
  | acquireAdmission k =>
    obtain ⟨buckets, heq⟩ := acquireAdmission_eq now k db
    have hsame := congrArg Database.artifacts heq
    exact hsame
  | _ => first | rfl | cases h

end Frame

end Hivebook
