import Hivebook.Connectors.GoogleDocs
import Hivebook.Service.Plain

/-!
# The jobs of the service, and the custody of the bytes

The service runs activities and request handlers.  Two protocols say when a job
touches the manifest or object storage.  They share their ghost state: what the job
last read from the clock, what it last listed from the outbox, and the object it
last stored.

* *Upkeep* (discovery and the maintenance activities) marks the artifacts of removed
  units with a deadline a grace period after a reading of the clock that follows the
  sweep, and deletes objects and drops rows only of artifacts it listed.
* *Custody*, which every job follows, further says that an object is named by its
  content, and that a manifest row is committed only for the object stored last.

## Main definitions

* `Upkeep`, `Job` — the jobs; `Upkeep.prog`, `Job.prog` — their programs.
* `Custody`, `upkeep`, `custody` — the ghost state and the two protocols.

## Main results

* `Upkeep.follows`, `Job.follows` — **every job follows its protocol.**
-/

namespace Hivebook

open Connectors Admission Storage

/-! ### Jobs -/

/-- The discovery and maintenance activities. -/
inductive Upkeep where
  | discoverUnits (connectionID : Uuid)
  | purgeArtifacts (limit : ℤ)
  | checkPurgeSLA
  | gcRemovedUnits
  deriving DecidableEq, Repr

/-- The activities and the writing request handlers. -/
inductive Job where
  | upkeep (u : Upkeep)
  | syncUnit (i : SyncInput)
  | startRun (connectionID : Uuid)
  | settleConnection (connectionID : Uuid)
  | nextUnitBatch (connectionID : Uuid) (limit : ℕ)
  | capacity (connectionID : Uuid) (tenantID connectorID : String)
  | markConnectionPurge (connectionID : Uuid) (tenantID : String)
  | disconnect (tenant : Option String) (connectionID : Uuid)
  | completeConnection (state code installationID : String)
  | completeTokenConnection (tenant : Option String) (region connectorID token name : String)
  | setProjectSelection (tenant : Option String) (connectionID : Uuid) (selectedIDs : List String)
  deriving DecidableEq, Repr

/-- A program run for its effects. -/
def discard {α : Type} (p : Program α) : Program Unit := p.bind fun _ => .pure ()

/-- The program of a discovery or maintenance activity. -/
def Upkeep.prog (a : Activities) : Upkeep → Program Unit
  | .discoverUnits id => discard (a.discoverUnits id)
  | .purgeArtifacts limit => discard (Activities.purgeArtifacts limit)
  | .checkPurgeSLA => discard Activities.checkPurgeSLA
  | .gcRemovedUnits => discard Activities.gcRemovedUnits

/-- The program of a job. -/
def Job.prog (a : Activities) (s : Server) : Job → Program Unit
  | .upkeep u => u.prog a
  | .syncUnit i => discard (a.syncUnit i)
  | .startRun id => discard (Activities.startRun id)
  | .settleConnection id => discard (Activities.settleConnection id)
  | .nextUnitBatch id limit => discard (Activities.nextUnitBatch id limit)
  | .capacity id tenantID connectorID => discard (a.capacity id tenantID connectorID)
  | .markConnectionPurge id tenantID => discard (Activities.markConnectionPurge id tenantID)
  | .disconnect tenant id => discard (s.disconnect tenant id)
  | .completeConnection state code inst => discard (s.completeConnection state code inst)
  | .completeTokenConnection tenant region connectorID token name =>
      discard (s.completeTokenConnection tenant region connectorID token name)
  | .setProjectSelection tenant id selected =>
      discard (Server.setProjectSelection tenant id selected)

/-! ### The protocols -/

/-- What a running job has seen and stored. -/
structure Custody where
  /-- The last reading of the clock since the last sweep. -/
  clock : Option Time
  /-- What was last listed from the outbox. -/
  listed : List RawArtifact
  /-- The object stored last, by bucket, key and body. -/
  stored : Option (String × String × Bytes)

/-- The custody of a job that starts. -/
def Custody.init : Custody := { clock := none, listed := [], stored := none }

/-- How a response moves the custody on.  A job either erases what it listed or commits
what it stored, so a listing forgets the last object and an object the last listing. -/
def Custody.next (g : Custody) : (c : Cmd) → c.Resp → Custody
  | .clock, t => { g with clock := some t }
  | .statement (.sweepUnseenUnits _ _), _ => { g with clock := none }
  | .statement (.listPurgePendingArtifacts _), .ok rows => { g with listed := rows, stored := none }
  | .putObject bucket key _ body, .ok _ =>
      { g with listed := [], stored := some (bucket, key, body) }
  | .deleteObject _ _, _ => { g with stored := none }
  | _, _ => g

/-- An object name ends in the hash of the content. -/
def Addressed (key hash : String) : Prop := ∃ dir, key = dir ++ "/" ++ hash

/-- The object of a row was listed. -/
def Custody.mayDelete (g : Custody) (bucket key : String) : Prop :=
  ∃ r ∈ g.listed, cut r.objectKey = some (bucket, key)

/-- The rows with these ids were listed. -/
def Custody.mayDrop (g : Custody) (ids : List Uuid) : Prop :=
  ∀ id ∈ ids, ∃ r ∈ g.listed, r.id = id

/-- A deadline is a grace period after the reading of the clock. -/
def Custody.mayMark (g : Custody) (deadline : Time) : Prop :=
  ∃ t, g.clock = some t ∧ deadline = t + purgeGrace

/-- A row is for the object stored last. -/
def Custody.mayCommit (h : ContentHash) (g : Custody) (p : Database.UpsertRawArtifactParams) :
    Prop :=
  ∃ bucket key body, g.stored = some (bucket, key, body) ∧
    cut p.objectKey = some (bucket, key) ∧ p.contentHash = h.hash body

/-- What discovery and the maintenance activities may do. -/
def upkeep : Protocol Custody Cmd Cmd.Resp where
  allowed g
    | .putObject _ _ _ _ => False
    | .deleteObject bucket key => g.mayDelete bucket key
    | .statement (.listPurgePendingArtifacts _) => True
    | .statement (.confirmArtifactDeletes ids) => g.mayDrop ids
    | .statement (.markRemovedUnitArtifactsPurgePending _ deadline) => g.mayMark deadline
    | .statement s => s.plain = true
    | .ctxErr | .clock | .request _ | .signalWorkflow _ _ => True
  next := Custody.next

/-- What every job may do. -/
def custody (h : ContentHash) : Protocol Custody Cmd Cmd.Resp where
  allowed g
    | .putObject _ key _ body => Addressed key (h.hash body)
    | .deleteObject bucket key => g.mayDelete bucket key
    | .statement (.confirmArtifactDeletes ids) => g.mayDrop ids
    | .statement (.markRemovedUnitArtifactsPurgePending _ deadline) => g.mayMark deadline
    | .statement (.commitArtifact p _ _) => g.mayCommit h p
    | .statement _ | .ctxErr | .clock | .request _ | .signalWorkflow _ _ => True
  next := Custody.next

theorem upkeep_of_plain {c : Cmd} (hc : c.plain = true) (g : Custody) : upkeep.allowed g c := by
  cases c with
  | statement s => cases s <;> first | exact hc | cases hc
  | putObject _ _ _ _ => cases hc
  | deleteObject _ _ => cases hc
  | _ => trivial

theorem custody_of_upkeep (h : ContentHash) {c : Cmd} {g : Custody} (hc : upkeep.allowed g c) :
    (custody h).allowed g c := by
  cases c with
  | statement s => cases s <;> first | exact hc | (cases hc; done) | trivial
  | putObject _ _ _ _ => cases hc
  | deleteObject _ _ => exact hc
  | _ => trivial

theorem Plain.follows_upkeep {α : Type} {p : Program α} (hp : Plain p) (g : Custody) :
    p.Follows upkeep (fun _ _ => True) g :=
  Prog.follows_of_uses (hp.mono fun _ hc g _ => ⟨upkeep_of_plain hc g, fun _ => trivial⟩) trivial

theorem follows_custody {α : Type} {p : Program α} {Q : α → Custody → Prop} {g : Custody}
    (h : ContentHash) (hp : p.Follows upkeep Q g) : p.Follows (custody h) Q g := by
  induction p generalizing g with
  | pure a => exact hp
  | call c k ih => exact ⟨custody_of_upkeep h hp.1, fun r => ih r (hp.2 r)⟩

theorem Plain.follows {α : Type} {p : Program α} (h : ContentHash) (hp : Plain p) (g : Custody) :
    p.Follows (custody h) (fun _ _ => True) g :=
  follows_custody h (hp.follows_upkeep g)

/-- Anything may follow a plain program that is allowed in every ghost state. -/
theorem Plain.then_follows {α β : Type} {p : Program α} {f : α → Program β}
    {Q : β → Custody → Prop} {g : Custody} (h : ContentHash) (hp : Plain p)
    (hf : ∀ a g, (f a).Follows (custody h) Q g) : (p.bind f).Follows (custody h) Q g :=
  (hp.follows h g).bind fun a g _ => hf a g

theorem Plain.then_follows_upkeep {α β : Type} {p : Program α} {f : α → Program β}
    {Q : β → Custody → Prop} {g : Custody} (hp : Plain p)
    (hf : ∀ a g, (f a).Follows upkeep Q g) : (p.bind f).Follows upkeep Q g :=
  (hp.follows_upkeep g).bind fun a g _ => hf a g

theorem follows_discard {α : Type} {p : Program α} {P : Protocol Custody Cmd Cmd.Resp}
    {g : Custody} (hp : p.Follows P (fun _ _ => True) g) :
    (discard p).Follows P (fun _ _ => True) g :=
  hp.bind fun _ _ _ => trivial

/-! ### Discovery and maintenance follow the upkeep protocol -/

/-- The mark comes right after a reading of the clock that follows the sweep. -/
theorem follows_sweep (conn : Connection) (connector : Connector) (units : List SourceUnit)
    (generation : ℤ) (g : Custody) :
    (Activities.sweep conn connector units generation).Follows upkeep (fun _ _ => True) g := by
  refine ⟨rfl, fun r => ?_⟩
  cases r with
  | error e => trivial
  | ok swept =>
    show Prog.Follows _ _ _ (if 0 < swept then _ else _)
    split
    · refine ⟨trivial, fun now => ⟨⟨now, rfl, rfl⟩, fun r => ?_⟩⟩
      cases r with
      | error e => trivial
      | ok _ => exact (Activities.steady_finishDiscovery _ _ _ _).plain.follows_upkeep _
    · exact (Activities.steady_finishDiscovery _ _ _ _).plain.follows_upkeep _

theorem follows_discoverUnits (a : Activities) (id : Uuid) (g : Custody) :
    (a.discoverUnits id).Follows upkeep (fun _ _ => True) g := by
  refine (a.touchesTokens_loadConnection id).steady.plain.then_follows_upkeep fun r g => ?_
  split
  · trivial
  · refine Plain.then_follows_upkeep (plain_statement rfl) fun r g => ?_
    split
    · trivial
    · refine Plain.then_follows_upkeep (plain_statement rfl) fun r g => ?_
      split
      · trivial
      · refine (a.touchesTokens_clientFor _).steady.plain.then_follows_upkeep fun r g => ?_
        split
        · exact ((Activities.steady_classify _ _ _).plain.bind
            fun _ => plain_pure _).follows_upkeep g
        · refine (touchesTokens_fetch _).steady.plain.then_follows_upkeep fun r g => ?_
          split
          · exact ((Activities.steady_classify _ _ _).plain.bind
              fun _ => plain_pure _).follows_upkeep g
          · refine (Activities.plain_markUnits _ _ _).then_follows_upkeep fun r g => ?_
            split
            · trivial
            · split
              · exact (Activities.steady_skipSweep _ _ _).plain.follows_upkeep g
              · exact follows_sweep _ _ _ _ g

/-- The delete loop deletes objects of listed rows, and confirms listed rows only. -/
theorem follows_purgeRows (rows : List RawArtifact) (confirmed : List Uuid) (res : PurgeResult)
    (g : Custody) (hrows : ∀ r ∈ rows, r ∈ g.listed) (hids : g.mayDrop confirmed) :
    (Activities.purgeRows confirmed res rows).Follows upkeep (fun r g => g.mayDrop r.1) g := by
  induction rows generalizing confirmed res g with
  | nil => exact hids
  | cons r rs ih =>
    have hr : r ∈ g.listed := hrows r (by simp)
    have hrs : ∀ r ∈ rs, r ∈ g.listed := fun r hr => hrows r (by simp [hr])
    have hmore : g.mayDrop (confirmed ++ [r.id]) := by
      intro id hid
      rcases List.mem_append.mp hid with hid | hid
      · exact hids id hid
      · exact ⟨r, hr, (List.mem_singleton.mp hid).symm⟩
    unfold Activities.purgeRows
    split
    · exact ih _ _ g hrs hmore
    · unfold deleteObject
      cases hcut : cut r.objectKey with
      | none => exact ih _ _ g hrs hids
      | some key =>
        refine ⟨⟨r, hr, hcut⟩, fun reply => ?_⟩
        cases reply with
        | error e => exact ih _ _ _ hrs hids
        | ok _ => exact ih _ _ _ hrs hmore

theorem follows_purgeArtifacts (limit : ℤ) (g : Custody) :
    (Activities.purgeArtifacts limit).Follows upkeep (fun _ _ => True) g := by
  refine ⟨trivial, fun r => ?_⟩
  cases r with
  | error e => trivial
  | ok rows =>
    have hnone : ({ g with listed := rows, stored := none } : Custody).mayDrop [] := by
      simp [Custody.mayDrop]
    show Prog.Follows _ _ _ ((Activities.purgeRows [] _ rows).bind _)
    refine (follows_purgeRows rows [] _ _ (fun _ h => h) hnone).bind fun r g hdrop => ?_
    obtain ⟨confirmed, res⟩ := r
    show Prog.Follows _ _ _ (if confirmed = [] then _ else _)
    split
    · trivial
    · refine ⟨hdrop, fun reply => ?_⟩
      cases reply <;> trivial

/-- **Discovery and the maintenance activities follow the upkeep protocol.** -/
theorem Upkeep.follows (a : Activities) (u : Upkeep) :
    (u.prog a).Follows upkeep (fun _ _ => True) Custody.init := by
  cases u with
  | discoverUnits id => exact follows_discard (follows_discoverUnits a id _)
  | purgeArtifacts limit => exact follows_discard (follows_purgeArtifacts limit _)
  | checkPurgeSLA => exact follows_discard (Activities.steady_checkPurgeSLA.plain.follows_upkeep _)
  | gcRemovedUnits =>
    exact follows_discard (Activities.steady_gcRemovedUnits.plain.follows_upkeep _)

/-! ### Every job follows the custody protocol -/

section Emit

variable (a : Activities)

/-- A changed item: the row is committed for the object just stored. -/
theorem follows_emitChanged (i : SyncInput) (conn : Connection) (art : Artifact)
    (st : EmitState) (g : Custody) :
    (a.emitChanged i conn art (a.contentHash.hash art.raw) st).Follows (custody a.contentHash)
      (fun _ _ => True) g := by
  refine ⟨⟨conn.tenantID ++ "/" ++ conn.connectorID, ?_⟩, fun r => ?_⟩
  · simp [String.append_assoc]
  · cases r with
    | error e => trivial
    | ok _ =>
      refine ⟨⟨_, _, art.raw, rfl, ?_, rfl⟩, fun r => ?_⟩
      · exact cut_objectKey _ _ _ _
      · cases r with
        | error e => trivial
        | ok _ =>
          exact ((Activities.steady_noteProgress i _).plain.bind fun _ => plain_pure _).follows
            a.contentHash _

theorem follows_makeEmit (i : SyncInput) (conn : Connection) (art : Artifact) (st : EmitState)
    (g : Custody) :
    (a.makeEmit i conn art st).Follows (custody a.contentHash) (fun _ _ => True) g := by
  refine plain_ctxErr.then_follows a.contentHash fun b g => ?_
  split
  · trivial
  · refine (plain_statement rfl).then_follows a.contentHash fun r g => ?_
    split
    · split
      · exact (Activities.plain_emitUnchanged i art st).follows a.contentHash g
      · exact follows_emitChanged a i conn art st g
    · exact follows_emitChanged a i conn art st g
    · trivial

theorem follows_drain (i : SyncInput) (conn : Connection) (connector : Connector)
    (unit : SyncUnit) (g : Custody) :
    (a.drain i conn connector unit).Follows (custody a.contentHash) (fun _ _ => True) g := by
  refine Prog.Follows.handle (I := fun _ _ => True) ?_ _ trivial
  intro c st g _
  cases c with
  | fetch c =>
    cases c with
    | ctxErr => exact (plain_ctxErr.bind fun _ => plain_pure _).follows a.contentHash g
    | request q => exact ((plain_request q).bind fun _ => plain_pure _).follows a.contentHash g
  | emit art => exact follows_makeEmit a i conn art st g

theorem follows_drainUnit (i : SyncInput) (conn : Connection) (connector : Connector)
    (unit : SyncUnit) (g : Custody) :
    (a.drainUnit i conn connector unit).Follows (custody a.contentHash) (fun _ _ => True) g :=
  (follows_drain a i conn connector unit g).bind fun _ g _ =>
    (Activities.steady_finishUnit _ _ _ _ _).plain.follows a.contentHash g

theorem follows_acquire (h : ContentHash) (k : Scope) (connectorID : String) (seed : RateBudget)
    (g : Custody) : (acquire k connectorID seed).Follows (custody h) (fun _ _ => True) g := by
  refine ⟨trivial, fun r => ?_⟩
  cases r with
  | error e => trivial
  | ok _ =>
    refine ⟨trivial, fun r => ?_⟩
    dsimp only [Prog.pure_bind]
    split <;> trivial

theorem follows_syncUnit (i : SyncInput) (g : Custody) :
    (a.syncUnit i).Follows (custody a.contentHash) (fun _ _ => True) g := by
  refine (a.touchesTokens_loadConnection _).steady.plain.then_follows a.contentHash fun r g => ?_
  split
  · trivial
  · refine (plain_statement rfl).then_follows a.contentHash fun r g => ?_
    split
    · trivial
    · refine (plain_statement rfl).then_follows a.contentHash fun r g => ?_
      split
      · trivial
      · refine (plain_statement rfl).then_follows a.contentHash fun _ g =>
          (a.touchesTokens_clientFor _).steady.plain.then_follows a.contentHash fun r g => ?_
        split
        · exact ((Activities.steady_classify _ _ _).plain.bind fun _ => plain_pure _).follows
            a.contentHash g
        · refine Prog.Follows.bind (follows_acquire a.contentHash _ _ _ g) fun r g _ => ?_
          split
          · trivial
          · trivial
          · exact (follows_drainUnit a i _ _ _ g).bind fun r g _ => ⟨trivial, fun _ => trivial⟩

end Emit

section Handlers

variable (h : ContentHash) (s : Server)

theorem follows_disconnect (tenant : Option String) (id : Uuid) (g : Custody) :
    (s.disconnect tenant id).Follows (custody h) (fun _ _ => True) g := by
  unfold Server.disconnect
  split
  · trivial
  · refine (plain_statement rfl).then_follows h fun r g => ?_
    split
    · trivial
    · refine (plain_statement rfl).then_follows h fun r g => ?_
      split
      · trivial
      · split
        · trivial
        · refine ⟨trivial, fun _ => ⟨trivial, fun _ => ⟨trivial, fun _ => ⟨trivial, fun _ => ?_⟩⟩⟩⟩
          exact ((s.steady_uninstallApp _).plain.bind fun _ => plain_pure _).follows h _

theorem follows_saveConnection (p : Database.UpsertConnectionParams) (g : Custody) :
    (Server.saveConnection p).Follows (custody h) (fun _ _ => True) g := by
  refine (plain_statement rfl).then_follows h fun r g => ?_
  split
  · trivial
  · exact ⟨trivial, fun _ => ⟨trivial, fun _ => trivial⟩⟩

theorem follows_completeConnection (state code inst : String) (g : Custody) :
    (s.completeConnection state code inst).Follows (custody h) (fun _ _ => True) g := by
  refine plain_clock.then_follows h fun now g => ?_
  split
  · trivial
  · split
    · trivial
    · dsimp only
      split
      · unfold Server.completeInstallation
        split
        · trivial
        · exact (plain_request _).then_follows h fun _ g => follows_saveConnection h _ g
      · refine (plain_request _).then_follows h fun r g => ?_
        split
        · trivial
        · refine (plain_request _).then_follows h fun _ g => ?_
          split
          · exact follows_saveConnection h _ g
          · trivial

theorem follows_completeTokenConnection (tenant : Option String)
    (region connectorID token name : String) (g : Custody) :
    (s.completeTokenConnection tenant region connectorID token name).Follows (custody h)
      (fun _ _ => True) g := by
  unfold Server.completeTokenConnection
  split
  · trivial
  · split
    · trivial
    · refine (plain_request _).then_follows h fun r g => ?_
      split
      · trivial
      · split
        · exact follows_saveConnection h _ g
        · trivial

theorem follows_setProjectSelection (tenant : Option String) (id : Uuid)
    (selected : List String) (g : Custody) :
    (Server.setProjectSelection tenant id selected).Follows (custody h) (fun _ _ => True) g := by
  unfold Server.setProjectSelection
  split
  · trivial
  · refine (plain_statement rfl).then_follows h fun r g => ?_
    split
    · trivial
    · refine (plain_statement rfl).then_follows h fun r g => ?_
      split
      · trivial
      · refine (plain_statement rfl).then_follows h fun r g => ?_
        split
        · trivial
        · exact ⟨trivial, fun _ => ⟨trivial, fun _ => ⟨trivial, fun _ => ⟨trivial, fun _ =>
            trivial⟩⟩⟩⟩

end Handlers

/-- **Every job follows the custody protocol.** -/
theorem Job.follows (a : Activities) (s : Server) (j : Job) :
    (j.prog a s).Follows (custody a.contentHash) (fun _ _ => True) Custody.init := by
  cases j with
  | upkeep u => exact follows_custody a.contentHash (u.follows a)
  | syncUnit i => exact follows_discard (follows_syncUnit a i _)
  | startRun id => exact follows_discard ((Activities.steady_startRun id).plain.follows _ _)
  | settleConnection id =>
    exact follows_discard ((Activities.steady_settleConnection id).plain.follows _ _)
  | nextUnitBatch id limit =>
    exact follows_discard ((Activities.steady_nextUnitBatch id limit).plain.follows _ _)
  | capacity id tenantID connectorID =>
    exact follows_discard ((a.steady_capacity id tenantID connectorID).plain.follows _ _)
  | markConnectionPurge id tenantID =>
    refine follows_discard ⟨trivial, fun r => ?_⟩
    cases r <;> trivial
  | disconnect tenant id => exact follows_discard (follows_disconnect _ s tenant id _)
  | completeConnection state code inst =>
    exact follows_discard (follows_completeConnection _ s state code inst _)
  | completeTokenConnection tenant region connectorID token name =>
    exact follows_discard
      (follows_completeTokenConnection _ s tenant region connectorID token name _)
  | setProjectSelection tenant id selected =>
    exact follows_discard (follows_setProjectSelection _ tenant id selected _)

/-! ### A deployment with one connected Drive -/

/-- A cipher of one key and one secret. -/
def sampleCipher : Cipher where
  encryptString t := .ok (if t = "" then [] else [0])
  decryptString b := .ok (if b = [] then "" else "token")

/-- The activities of a deployment that offers Drive. -/
def driveActivities : Activities where
  env := "local"
  reg := [newGoogleDocs.connector]
  cipher := sampleCipher
  creds _ := { clientID := "client", clientSecret := "secret", privateKey := "" }
  parseGitHubKey _ := .ok ()
  contentHash := .spelled

/-- Its server; every signed state is Ann's. -/
def driveServer : Server where
  reg := [newGoogleDocs.connector]
  cipher := sampleCipher
  creds _ := { clientID := "client", clientSecret := "secret", privateKey := "" }
  parseGitHubKey _ := .ok ()
  verify _ _ := .ok { tenant := "acme", region := "eu", connector := "gdocs" }

/-- Ann's Drive, as her first connect stores it. -/
def driveConnection : Database.UpsertConnectionParams :=
  { tenantID := "acme", region := "eu", connectorID := "gdocs", account := "ann@acme",
    accessToken := [0], refreshToken := none, tokenExpiry := none, scopes := "",
    installationID := "", externalID := "ann@acme" }

/-- The unit of the Drive, discovered and selected. -/
def driveUnit (db : Database) : Database :=
  Database.setUnitSelection 0 0 ["drive"]
    (Database.upsertSyncUnit 0 0 "drive" "Drive" "google_drive" 1 db)

/-- The connection and its unit, with nothing synced yet. -/
def driveDatabase : Database := driveUnit (Database.upsertConnection driveConnection .empty).2

/-- Ann's Drive, with nothing synced. -/
def freshDrive : World := { db := driveDatabase, objects := fun _ => none, now := 5 }

/-- The drain of Ann's Drive. -/
def driveInput : SyncInput :=
  { connectionID := 0, tenantID := "acme", connectorID := "gdocs", unitID := "drive" }

/-- The manifest row of an empty document, under its name in object storage. -/
def emptyDoc (externalID : String) : Database.UpsertRawArtifactParams :=
  { tenantID := "acme", region := "eu", connectionID := 0, source := "gdocs",
    sourceNativeKind := "gdoc", containerID := "root", syncContainerID := "drive",
    containerKind := "drive_folder", containerName := "", externalID, sourceURL := "",
    objectKey := "hivebook-local-gdocs-eu/acme/gdocs/" ++ spelledHash []
    contentHash := spelledHash []
    sourceUpdatedAt := none }

/-- The Drive with a document synced and its unit committed. -/
def syncedDatabase : Database :=
  Database.commitUnit 0 0 "drive" (Database.commitArtifact 0 (emptyDoc "doc") "drive" none
    driveDatabase)

/-- Nothing fails, no time passes, and the source answers as given. -/
def quietly (answer : (q : Request) → Except Err q.Reply) : Choice :=
  { outcome := .applied, elapsed := 0, answer }

/-- A source that only knows Ann. -/
def annAnswers : (q : Request) → Except Err q.Reply
  | .exchange _ _ => .ok { accessToken := "token", refreshToken := "", expiry := none }
  | .account _ => .ok "ann@acme"
  | _ => .error (.failed "unreachable")

/-- An empty document. -/
def driveDoc : DriveFile :=
  { id := "doc", name := "", modifiedTime := "1", webViewLink := "", parents := [] }

/-- A Drive that holds it. -/
def docAnswers : (q : Request) → Except Err q.Reply
  | .driveFiles _ _ _ => .ok { nextPageToken := "", files := [driveDoc] }
  | .driveExport _ => .ok []
  | _ => .error (.failed "unreachable")

end Hivebook
