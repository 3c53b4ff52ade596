import Hivebook.Server.Readers

/-!
# The requests of the integrations service

Every request that a tenant makes of `IntegrationService` about its connections, as a program.
A request reads and writes through the commands of the service, and through a few of its own:
the read queries, the auto-sync columns, and the signal that only a running workflow receives.
A stream is a program too: it sends a snapshot, and one more at every wake-up.

## Main definitions

* `Site` — the world, and the columns that only the requests read.
* `ServerQuery`, `SiteCmd`, `SiteChoice`, `site` — the read queries, the commands of the
  requests, what the environment decides, and the machine that performs them.
* `like`, `listSyncUnits` — the name filter, and the query of the catalog.
* `Rpc`, `Rpc.prog` — the requests, and the program of each.

## Main results

* `runs_listArtifacts`, `runs_getArtifactContent` — a request that reads artifacts, alone and
  with no failure, answers what its handler says of the world it reads.
-/

namespace Hivebook

open Connectors

/-- The auto-sync columns of `connector_connection`. -/
structure SyncSchedule where
  autoSyncEnabled : Bool
  syncIntervalSeconds : ℤ
  deriving DecidableEq, Repr

/-- The world, and the columns that no activity reads. -/
structure Site where
  world : World
  /-- The auto-sync columns, by the id of the connection. -/
  schedules : Uuid → SyncSchedule
  /-- `total_estimate_at`, by the id of the unit. -/
  estimatedAt : Uuid → Option Time

/-- Time passes. -/
def Site.tick (w : Site) (d : Time) : Site := { w with world := w.world.tick d }

@[simp] theorem Site.tick_db (w : Site) (d : Time) : (w.tick d).world.db = w.world.db := rfl

@[simp] theorem Site.tick_objects (w : Site) (d : Time) :
    (w.tick d).world.objects = w.world.objects := rfl

/-! ### The read queries -/

/-- `LIKE`: a pattern with `%`, `_` and the escape `\`. -/
def like : List Char → List Char → Bool
  | [], s => s.isEmpty
  | '%' :: p, s => s.tails.any fun t => like p t
  | '_' :: p, s =>
      match s with
      | [] => false
      | _ :: t => like p t
  | '\\' :: c :: p, s =>
      match s with
      | [] => false
      | d :: t => decide (d = c) && like p t
  | c :: p, s =>
      match s with
      | [] => false
      | d :: t => decide (d = c) && like p t

/-- `ILIKE`, where `lower` is the lower case of the collation. -/
def ilike (lower : String → String) (s pattern : String) : Bool :=
  like (lower pattern).toList (lower s).toList

namespace Database

/-- The connection is there, and it is the tenant's. -/
def owns (db : Database) (tenantID : String) (id : Uuid) : Bool :=
  db.connections.rows.any fun c => decide (c.id = id) && decide (c.tenantID = tenantID)

/-- `ListConnections`. -/
def listConnections (tenantID : String) (db : Database) : List Connection :=
  (db.connections.rows.filter fun c => decide (c.tenantID = tenantID) &&
    c.deletedAt.isNone).insertionSort fun c c' => c.connectorID ≤ c'.connectorID

/-- `ListSyncUnits`: scoped to the tenant by the connection, which may be soft-deleted; no
filter for an empty query. -/
def listSyncUnits (lower : String → String) (connectionID : Uuid) (tenantID query : String)
    (db : Database) : List SyncUnit :=
  (db.units.rows.filter fun u => decide (u.connectionID = connectionID) &&
    db.owns tenantID u.connectionID &&
    (decide (query = "") || ilike lower u.name ("%" ++ query ++ "%"))).insertionSort
      fun u u' => u.externalID ≤ u'.externalID

end Database

/-- What a request reads. -/
inductive ServerQuery where
  | listConnections (tenantID : String)
  | listSyncUnits (connectionID : Uuid) (tenantID query : String)
  | listArtifacts (tenantID : String) (connectionID : Option Uuid) (rowLimit rowOffset : ℤ)
  | countArtifacts (tenantID : String) (connectionID : Option Uuid)
  | getArtifactForContent (id : Uuid) (tenantID : String)
  /-- `Store.Get`. -/
  | getObject (storedKey : String)
  deriving DecidableEq, Repr

/-- What is read when all is well. -/
@[reducible] def ServerQuery.Reply : ServerQuery → Type
  | .listConnections _ => List (Connection × SyncSchedule)
  | .listSyncUnits _ _ _ => List (SyncUnit × Option Time)
  | .listArtifacts _ _ _ _ => List RawArtifact
  | .countArtifacts _ _ => ℕ
  | .getArtifactForContent _ _ => RawArtifact
  | .getObject _ => Bytes × String

/-- Reading a site. -/
def ServerQuery.exec (lower : String → String) (w : Site) : (q : ServerQuery) → Except Err q.Reply
  | .listConnections tenantID =>
      .ok ((Database.listConnections tenantID w.world.db).map fun c => (c, w.schedules c.id))
  | .listSyncUnits id tenantID query =>
      .ok ((Database.listSyncUnits lower id tenantID query w.world.db).map fun u =>
        (u, w.estimatedAt u.id))
  | .listArtifacts tenantID connectionID rowLimit rowOffset =>
      -- the database refuses a negative offset
      if rowOffset < 0 then .error (.failed "OFFSET must not be negative")
      else .ok (Database.listArtifacts tenantID connectionID rowLimit.toNat rowOffset.toNat
        w.world.db)
  | .countArtifacts tenantID connectionID =>
      .ok (Database.countArtifacts tenantID connectionID w.world.db)
  | .getArtifactForContent id tenantID => Database.getArtifactForContent id tenantID w.world.db
  | .getObject storedKey => Storage.get storedKey w.world.objects

/-! ### The machine -/

/-- The commands of a request. -/
inductive SiteCmd where
  | service (c : Cmd)
  | query (q : ServerQuery)
  | updateSyncSchedule (id : Uuid) (schedule : SyncSchedule)
  /-- `SignalWorkflow`, which starts nothing. -/
  | signalRunning (connectionID : Uuid) (x : Workflow.Signal)
  deriving DecidableEq, Repr

/-- How a signal to a running workflow fares. -/
inductive Delivery where
  | delivered
  /-- `serviceerror.NotFound`: nothing is running. -/
  | notFound
  | failed
  deriving DecidableEq, Repr

/-- The responses to the commands. -/
@[reducible] def SiteCmd.Resp : SiteCmd → Type
  | .service c => c.Resp
  | .query q => Except Err q.Reply
  | .updateSyncSchedule _ _ => Except Err Unit
  | .signalRunning _ _ => Delivery

/-- A program of a request. -/
abbrev SiteProgram (α : Type) := Prog SiteCmd SiteCmd.Resp α

/-- What the environment decides about one command. -/
structure SiteChoice where
  service : Choice
  delivery : Delivery

/-- `total_estimate_at` after a command that took effect at an instant. -/
def Site.estimated (w : Site) (now : Time) : Cmd → Uuid → Option Time
  | .statement (.setUnitTotal connectionID externalID _), id =>
      if w.world.db.units.rows.any fun u => decide (u.id = id) && u.is connectionID externalID
      then some now else w.estimatedAt id
  | _, id => w.estimatedAt id

/-- The machine of the requests. -/
def site (lower : String → String) : Machine Site SiteChoice SiteCmd SiteCmd.Resp where
  perform x cancelled w
    | .service c =>
        let r := Hivebook.service.perform x.service cancelled w.world c
        ({ w with
            world := r.1
            estimatedAt := if x.service.takesEffect cancelled then w.estimated r.1.now c
              else w.estimatedAt }, r.2)
    | .query q =>
        let w' := w.tick x.service.elapsed
        (w', x.service.reply cancelled (q.exec lower w'))
    | .updateSyncSchedule id schedule =>
        let w' := w.tick x.service.elapsed
        (if x.service.takesEffect cancelled then
            { w' with schedules := Function.update w'.schedules id schedule }
          else w', x.service.reply cancelled (.ok ()))
    | .signalRunning _ _ =>
        (w.tick x.service.elapsed, if cancelled then .failed else x.delivery)

/-! ### The handlers -/

namespace Requests

/-- A read query. -/
def query (q : ServerQuery) : SiteProgram (Except Err q.Reply) := Prog.issue (SiteCmd.query q)

/-- A program of the service. -/
def onSite {α : Type} (p : Program α) : SiteProgram α := p.embed SiteCmd.service fun _ r => r

/-- `GetConnection`. -/
def getConnection (id : Uuid) (tenantID : String) : SiteProgram (Except Err Connection) :=
  onSite (statement (.getConnection id tenantID))

/-- `signalConnection`: the workflow is started if it is not running. -/
def signalConnection (c : Connection) (x : Workflow.Signal) : SiteProgram (Except Err Unit) :=
  onSite (signalWorkflow c.id x)

/-- `NotifyConnectionChanged`, whose error the source drops. -/
def notifyConnectionChanged (tenantID : String) : SiteProgram Unit := do
  let _ ← onSite (statement (.notifyConnectionChanged tenantID))
  return ()

/-- `integrationv1.Connection`. -/
structure ProtoConnection where
  id : Uuid
  connectorID : String
  status : ProtoConnectionStatus
  account : String
  lastError : String
  onboarded : Bool
  autoSyncEnabled : Bool
  syncIntervalSeconds : ℤ
  lastSyncedAt : Option Time
  catalogDiscoveredAt : Option Time
  deriving DecidableEq, Repr

/-- `toProtoConnection`. -/
def toProtoConnection (c : Connection × SyncSchedule) : ProtoConnection :=
  { id := c.1.id, connectorID := c.1.connectorID, status := statusToProto c.1.status
    account := c.1.account, lastError := c.1.lastError, onboarded := c.1.onboarded
    autoSyncEnabled := c.2.autoSyncEnabled, syncIntervalSeconds := c.2.syncIntervalSeconds
    lastSyncedAt := c.1.lastSuccessAt, catalogDiscoveredAt := c.1.catalogDiscoveredAt }

/-- `integrationv1.Project`. -/
structure ProtoProject where
  id : String
  name : String
  selected : Bool
  status : UnitStatus
  artifactCount : ℕ
  lastError : String
  totalEstimate : ℕ
  lastSyncedAt : Option Time
  totalEstimateAt : Option Time
  deriving DecidableEq, Repr

/-- `toProtoProject`. -/
def toProtoProject (p : SyncUnit × Option Time) : ProtoProject :=
  { id := p.1.externalID, name := p.1.name, selected := p.1.selected, status := p.1.status
    artifactCount := uint32 p.1.artifactCount, lastError := p.1.lastError
    totalEstimate := uint32 p.1.totalEstimate, lastSyncedAt := p.1.committedAt
    totalEstimateAt := p.2 }

/-- `unicode.IsSpace`. -/
def isSpace (c : Char) : Bool :=
  decide (c.toNat ∈ [0x9, 0xA, 0xB, 0xC, 0xD, 0x20, 0x85, 0xA0, 0x1680, 0x2000, 0x2001, 0x2002,
    0x2003, 0x2004, 0x2005, 0x2006, 0x2007, 0x2008, 0x2009, 0x200A, 0x2028, 0x2029, 0x202F,
    0x205F, 0x3000])

/-- `strings.TrimSpace`. -/
def trimSpace (s : String) : String :=
  String.ofList ((s.toList.dropWhile isSpace).reverse.dropWhile isSpace).reverse

/-- The snapshot of `ListConnections` and `WatchConnections`. -/
def sendConnections (tenantID : String) : SiteProgram (Except RpcError (List ProtoConnection)) := do
  match ← query (.listConnections tenantID) with
  | .error _ => return .error ⟨.internal, "list connections failed"⟩
  | .ok rows => return .ok (rows.map toProtoConnection)

/-- The snapshot of `WatchProjects`. -/
def sendProjects (tenantID : String) (connectionID : Uuid) (search : String) :
    SiteProgram (Except RpcError (List ProtoProject)) := do
  match ← query (.listSyncUnits connectionID tenantID search) with
  | .error _ => return .error ⟨.internal, "list projects failed"⟩
  | .ok rows => return .ok (rows.map toProtoProject)

/-- A stream: a snapshot at the start and at every wake-up, until one fails. -/
def watch {α : Type} (send : SiteProgram (Except RpcError α)) :
    ℕ → SiteProgram (List α × Except RpcError Unit)
  | 0 => do
      match ← send with
      | .error e => return ([], .error e)
      | .ok a => return ([a], .ok ())
  | wakeups + 1 => do
      match ← send with
      | .error e => return ([], .error e)
      | .ok a =>
          let rest ← watch send wakeups
          return (a :: rest.1, rest.2)

/-- A handler of a tenant's request: without a tenant it is refused. -/
def forTenant {α : Type} (tenant : Option String)
    (handler : String → SiteProgram (Except RpcError α)) :
    SiteProgram (Except RpcError α) :=
  match requireTenant tenant with
  | .error e => return .error e
  | .ok tenant => handler tenant

/-- A handler of a stream of a tenant. -/
def streamTo {α : Type} (tenant : Option String)
    (handler : String → SiteProgram (List α × Except RpcError Unit)) :
    SiteProgram (List α × Except RpcError Unit) :=
  match requireTenant tenant with
  | .error e => return ([], .error e)
  | .ok tenant => handler tenant

/-- A handler of a request about one connection, which has to be the tenant's. -/
def forConnection {α : Type} (tenant : Option String) (connectionID : Uuid)
    (handler : String → Connection → SiteProgram (Except RpcError α)) :
    SiteProgram (Except RpcError α) :=
  forTenant tenant fun tenant => do
    match ← getConnection connectionID tenant with
    | .error _ => return .error ⟨.notFound, "connection not found"⟩
    | .ok conn => handler tenant conn

/-- `ListConnections`. -/
def listConnections (tenant : Option String) :
    SiteProgram (Except RpcError (List ProtoConnection)) := forTenant tenant sendConnections

/-- `TriggerSync`. -/
def triggerSync (tenant : Option String) (connectionID : Uuid) :
    SiteProgram (Except RpcError Unit) :=
  forConnection tenant connectionID fun tenant conn => do
    match ← signalConnection conn .triggerSync with
    | .error _ => return .error ⟨.internal, "could not start sync"⟩
    | .ok _ =>
        notifyConnectionChanged tenant
        return .ok ()

/-- `StopSync`: a workflow that is not running has nothing to stop. -/
def stopSync (tenant : Option String) (connectionID : Uuid) :
    SiteProgram (Except RpcError Unit) :=
  forConnection tenant connectionID fun _ conn => do
    match ← (Prog.issue (SiteCmd.signalRunning conn.id .stopSync) : SiteProgram Delivery) with
    | .delivered | .notFound => return .ok ()
    | .failed => return .error ⟨.internal, "could not stop sync"⟩

/-- A page of a tenant's artifacts, and how many there are. -/
def artifactsPage (tenantID : String) (connectionID : Option Uuid) (rowLimit rowOffset : ℤ) :
    SiteProgram (Except RpcError ListArtifactsResponse) := do
  match ← query (.listArtifacts tenantID connectionID rowLimit rowOffset) with
  | .error _ => return .error ⟨.internal, "list artifacts failed"⟩
  | .ok rows =>
      match ← query (.countArtifacts tenantID connectionID) with
      | .error _ => return .error ⟨.internal, "count artifacts failed"⟩
      | .ok total => return .ok { artifacts := rows.map toProtoArtifact, total := uint32 total }

/-- `ListArtifacts`. -/
def listArtifacts (tenant : Option String) (connectionID : Option Uuid) (limit offset : ℕ) :
    SiteProgram (Except RpcError ListArtifactsResponse) :=
  forTenant tenant fun tenant =>
    artifactsPage tenant connectionID (Server.artifactLimit limit) (int32 offset)

/-- `GetArtifactContent`. -/
def getArtifactContent (tenant : Option String) (id : Uuid) :
    SiteProgram (Except RpcError GetArtifactContentResponse) :=
  forTenant tenant fun tenant => do
    match ← query (.getArtifactForContent id tenant) with
    | .error _ => return .error ⟨.notFound, "artifact not found"⟩
    | .ok row =>
        match ← query (.getObject row.objectKey) with
        | .error _ => return .error ⟨.internal, "could not read artifact"⟩
        | .ok (data, contentType) =>
            let contentType := if contentType = "" then "application/octet-stream" else contentType
            return .ok { data, contentType, filename := row.externalID }

/-- `ListProjects`: a refresh of the catalog is asked for, and the current one is answered. -/
def listProjects (tenant : Option String) (connectionID : Uuid) (search : String) :
    SiteProgram (Except RpcError (List ProtoProject)) :=
  forConnection tenant connectionID fun tenant conn => do
    let _ ← signalConnection conn .refreshCatalog
    sendProjects tenant conn.id (trimSpace search)

/-- `minSyncIntervalSeconds`. -/
def minSyncIntervalSeconds : ℤ := 60

/-- `maxSyncIntervalSeconds`. -/
def maxSyncIntervalSeconds : ℤ := 2592000

/-- `UpdateSyncSchedule`: the bounds matter only if the schedule is enabled. -/
def updateSyncSchedule (tenant : Option String) (connectionID : Uuid) (enabled : Bool)
    (interval : ℤ) : SiteProgram (Except RpcError Unit) :=
  forConnection tenant connectionID fun tenant conn => do
    if enabled = true ∧ (interval < minSyncIntervalSeconds ∨ maxSyncIntervalSeconds < interval) then
      return .error ⟨.invalidArgument, "sync interval out of range"⟩
    match ← (Prog.issue (SiteCmd.updateSyncSchedule conn.id ⟨enabled, interval⟩) :
        SiteProgram (Except Err Unit)) with
    | .error _ => return .error ⟨.internal, "could not save sync schedule"⟩
    | .ok _ =>
        let _ ← signalConnection conn .updateSchedule
        notifyConnectionChanged tenant
        return .ok ()

/-! ### The handlers that read artifacts -/

/-- A turn in which nothing fails, and some time passes. -/
def undisturbed (x : SiteChoice) (d : Time) : Turn SiteChoice :=
  ⟨false, { x with service := { x.service with outcome := .applied, elapsed := d } }⟩

@[simp] theorem undisturbed_cancel (x : SiteChoice) (d : Time) :
    (undisturbed x d).cancel = false := rfl

/-- A read query that is not disturbed is answered from the site. -/
theorem perform_undisturbed (lower : String → String) (x : SiteChoice) (d : Time) (w : Site)
    (q : ServerQuery) : (site lower).perform (undisturbed x d).choice false w (.query q) =
      (w.tick d, q.exec lower (w.tick d)) := rfl

theorem runs_artifactsPage (lower : String → String) (tenantID : String)
    (connectionID : Option Uuid) {rowLimit rowOffset : ℤ} (x : SiteChoice) (d : Time) (w : Site)
    (h : ¬ rowOffset < 0) :
    ((site lower).runTurns (artifactsPage tenantID connectionID rowLimit rowOffset) false w
      [undisturbed x d, undisturbed x d]).map (fun r => r.2.1) = some (.ok
        { artifacts := (Database.listArtifacts tenantID connectionID rowLimit.toNat
            rowOffset.toNat w.world.db).map toProtoArtifact
          total := uint32 (Database.countArtifacts tenantID connectionID w.world.db) }) := by
  simp only [artifactsPage, query, Prog.bind_eq, Prog.pure_eq, Prog.issue_bind, Machine.runTurns,
    undisturbed_cancel, Bool.or_false, perform_undisturbed, ServerQuery.exec, if_neg h,
    Site.tick_db, Option.map_some]

/-- `ListArtifacts`, alone and undisturbed, is its handler on the world it reads. -/
theorem runs_listArtifacts (lower : String → String) {tenant : Option String}
    {connectionID : Option Uuid} {limit offset : ℕ} (x : SiteChoice) (d : Time) {w : Site}
    {resp : ListArtifactsResponse}
    (h : Server.listArtifacts tenant connectionID limit offset w.world.db = .ok resp) :
    ((site lower).runTurns (listArtifacts tenant connectionID limit offset) false w
      [undisturbed x d, undisturbed x d]).map (fun r => r.2.1) = some (.ok resp) := by
  unfold Server.listArtifacts at h
  unfold listArtifacts forTenant
  cases htenant : requireTenant tenant with
  | error e =>
    rw [htenant] at h
    cases h
  | ok t =>
    rw [htenant] at h
    dsimp only at h ⊢
    by_cases hneg : int32 offset < 0
    · rw [if_pos hneg] at h
      cases h
    · rw [if_neg hneg] at h
      rw [← h]
      exact runs_artifactsPage lower t connectionID x d w hneg

/-- `GetArtifactContent`, alone and undisturbed, is its handler on the world it reads. -/
theorem runs_getArtifactContent (lower : String → String) {tenant : Option String} {id : Uuid}
    (x : SiteChoice) (d : Time) {w : Site} {resp : GetArtifactContentResponse}
    (h : Server.getArtifactContent tenant id w.world = .ok resp) :
    ((site lower).runTurns (getArtifactContent tenant id) false w
      [undisturbed x d, undisturbed x d]).map (fun r => r.2.1) = some (.ok resp) := by
  unfold Server.getArtifactContent at h
  unfold getArtifactContent forTenant
  cases htenant : requireTenant tenant with
  | error e =>
    rw [htenant] at h
    cases h
  | ok t =>
    rw [htenant] at h
    dsimp only at h
    cases hrow : Database.getArtifactForContent id t w.world.db with
    | error e =>
      rw [hrow] at h
      cases h
    | ok row =>
      rw [hrow] at h
      dsimp only at h
      cases hget : Storage.get row.objectKey w.world.objects with
      | error e =>
        rw [hget] at h
        cases h
      | ok content =>
        rw [hget] at h
        simp only [query, Prog.bind_eq, Prog.pure_eq, Prog.issue_bind, Machine.runTurns,
          undisturbed_cancel, Bool.or_false, perform_undisturbed, ServerQuery.exec, Site.tick_db,
          Site.tick_objects, hrow, hget, Option.map_some]
        exact congrArg some h

end Requests

/-! ### The requests -/

/-- A request about the connections of a tenant; a stream with the number of its wake-ups. -/
inductive Rpc where
  | listConnections
  | triggerSync (connectionID : Uuid)
  | stopSync (connectionID : Uuid)
  | disconnect (connectionID : Uuid)
  | listArtifacts (connectionID : Option Uuid) (limit offset : ℕ)
  | getArtifactContent (id : Uuid)
  | listProjects (connectionID : Uuid) (search : String)
  | setProjectSelection (connectionID : Uuid) (selectedIDs : List String)
  | updateSyncSchedule (connectionID : Uuid) (enabled : Bool) (interval : ℤ)
  | watchConnections (wakeups : ℕ)
  | watchProjects (connectionID : Uuid) (wakeups : ℕ)
  deriving DecidableEq, Repr

/-- What a request answers, and what a stream has sent when it ends. -/
@[reducible] def Rpc.Response : Rpc → Type
  | .listConnections => Except RpcError (List Requests.ProtoConnection)
  | .listArtifacts _ _ _ => Except RpcError ListArtifactsResponse
  | .getArtifactContent _ => Except RpcError GetArtifactContentResponse
  | .listProjects _ _ => Except RpcError (List Requests.ProtoProject)
  | .watchConnections _ => List (List Requests.ProtoConnection) × Except RpcError Unit
  | .watchProjects _ _ => List (List Requests.ProtoProject) × Except RpcError Unit
  | _ => Except RpcError Unit

open Requests in
/-- The program of a request with the tenant of its header. -/
def Rpc.prog (s : Server) (tenant : Option String) : (q : Rpc) → SiteProgram q.Response
  | .listConnections => Requests.listConnections tenant
  | .triggerSync id => Requests.triggerSync tenant id
  | .stopSync id => Requests.stopSync tenant id
  | .disconnect id => onSite (s.disconnect tenant id)
  | .listArtifacts connectionID limit offset =>
      Requests.listArtifacts tenant connectionID limit offset
  | .getArtifactContent id => Requests.getArtifactContent tenant id
  | .listProjects id search => Requests.listProjects tenant id search
  | .setProjectSelection id selectedIDs => onSite (Server.setProjectSelection tenant id selectedIDs)
  | .updateSyncSchedule id enabled interval =>
      Requests.updateSyncSchedule tenant id enabled interval
  | .watchConnections wakeups => streamTo tenant fun tenant =>
      watch (sendConnections tenant) wakeups
  | .watchProjects id wakeups => streamTo tenant fun tenant =>
      watch (sendProjects tenant id "") wakeups

end Hivebook
