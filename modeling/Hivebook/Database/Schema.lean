import Hivebook.Basic
import Hivebook.Lib.Table

/-!
# The schema

The tables of the integrations service, with the columns the modelled queries
read or write.  `UNIQUE` and primary-key constraints are part of the table type;
`NULL` is `none`.  `admission_bucket` has no generated id and is kept as a map
from its primary key.
-/

namespace Hivebook

/-- A row of `connector_connection`. -/
structure Connection where
  id : Uuid
  tenantID : String
  region : String
  connectorID : String
  status : ConnectionStatus
  account : String
  accessToken : Bytes
  refreshToken : Option Bytes
  tokenExpiry : Option Time
  scopes : String
  installationID : String
  externalID : String
  lastError : String
  lastSuccessAt : Option Time
  deletedAt : Option Time
  catalogDiscoveredAt : Option Time
  onboarded : Bool
  deriving DecidableEq, Repr

/-- `UNIQUE (tenant_id, connector_id, external_id)`. -/
def Connection.key (c : Connection) : String × String × String :=
  (c.tenantID, c.connectorID, c.externalID)

/-- A row of `sync_unit`. -/
structure SyncUnit where
  id : Uuid
  connectionID : Uuid
  externalID : String
  name : String
  kind : String
  selected : Bool
  cursor : String
  status : UnitStatus
  generation : ℤ
  lastSeenAt : Option Time
  lastError : String
  nextRetryAt : Option Time
  committedAt : Option Time
  artifactCount : ℤ
  totalEstimate : ℤ
  updatedAt : Time
  deriving DecidableEq, Repr

/-- `UNIQUE (connection_id, external_id)`. -/
def SyncUnit.key (u : SyncUnit) : Uuid × String := (u.connectionID, u.externalID)

/-- A row of `raw_artifact`, the manifest of the bytes in object storage. -/
structure RawArtifact where
  id : Uuid
  tenantID : String
  region : String
  connectionID : Uuid
  source : String
  sourceNativeKind : String
  containerID : String
  /-- The sync unit the item was pulled from. -/
  syncContainerID : String
  containerKind : String
  containerName : String
  externalID : String
  sourceURL : String
  objectKey : String
  contentHash : String
  /-- The version of the item: when the source had last updated it. -/
  sourceUpdatedAt : Option ℤ
  ingestedAt : Time
  /-- Soft delete: the row is hidden. -/
  deletedAt : Option Time
  /-- Erasure outbox: the object delete is owed. -/
  purgePending : Bool
  purgeDeadline : Option Time
  deriving DecidableEq, Repr

/-- `UNIQUE (connection_id, external_id)`. -/
def RawArtifact.key (r : RawArtifact) : Uuid × String := (r.connectionID, r.externalID)

/-- `(scope_type, scope_key)` of an admission bucket: the API budget of a
connection's credential, or the in-flight cap of a tenant. -/
inductive Scope where
  | credential (connectionID : Uuid)
  | tenant (tenantID : String)
  deriving DecidableEq, Repr

/-- A row of `admission_bucket`.  Every statement keeps `in_flight` at zero or
above, so it is a natural number. -/
structure AdmissionBucket where
  connectorID : String
  concurrencyLimit : ℤ
  inFlight : ℕ
  cooldownUntil : Option Time
  deriving DecidableEq, Repr

/-- The database of the integrations service. -/
structure Database where
  connections : Table Connection.id Connection.key
  units : Table SyncUnit.id SyncUnit.key
  artifacts : Table RawArtifact.id RawArtifact.key
  buckets : Scope → Option AdmissionBucket

/-- A nullable instant is `NULL`, or not after the given one. -/
def nullOrElapsed (at? : Option Time) (now : Time) : Bool :=
  match at? with
  | none => true
  | some t => decide (t ≤ now)

/-- A nullable instant is set and lies before the given one; false for `NULL`. -/
def before (at? : Option Time) (cutoff : Time) : Bool :=
  match at? with
  | none => false
  | some t => decide (t < cutoff)

/-! ### Reading and writing the rows of a unit -/

/-- `WHERE connection_id = … AND external_id = …` on `sync_unit`. -/
def SyncUnit.is (connectionID : Uuid) (externalID : String) (u : SyncUnit) : Bool :=
  decide (u.connectionID = connectionID) && decide (u.externalID = externalID)

namespace Database

/-- The database of a new deployment. -/
def empty : Database :=
  { connections := .empty, units := .empty, artifacts := .empty, buckets := fun _ => none }

/-- Rewriting the units that satisfy a condition. -/
def updateUnits (db : Database) (p : SyncUnit → Bool) (f : SyncUnit → SyncUnit)
    (hid : ∀ r, (f r).id = r.id := by intro; rfl)
    (hkey : ∀ r, (f r).key = r.key := by intro; rfl) : Database :=
  { db with units := db.units.update p f hid hkey }

/-- Rewriting the connections that satisfy a condition. -/
def updateConnections (db : Database) (p : Connection → Bool) (f : Connection → Connection)
    (hid : ∀ r, (f r).id = r.id := by intro; rfl)
    (hkey : ∀ r, (f r).key = r.key := by intro; rfl) : Database :=
  { db with connections := db.connections.update p f hid hkey }

/-- Rewriting the artifacts that satisfy a condition. -/
def updateArtifacts (db : Database) (p : RawArtifact → Bool) (f : RawArtifact → RawArtifact)
    (hid : ∀ r, (f r).id = r.id := by intro; rfl)
    (hkey : ∀ r, (f r).key = r.key := by intro; rfl) : Database :=
  { db with artifacts := db.artifacts.update p f hid hkey }

/-- `external_id IN (SELECT external_id FROM sync_unit WHERE connection_id = … AND p)`. -/
def hasUnit (db : Database) (connectionID : Uuid) (p : SyncUnit → Bool) (externalID : String) :
    Bool :=
  db.units.rows.any fun u => u.is connectionID externalID && p u

/-- The connections of a tenant. -/
def tenantConnections (db : Database) (tenantID : String) : List Connection :=
  db.connections.rows.filter fun c => decide (c.tenantID = tenantID)

end Database

end Hivebook
