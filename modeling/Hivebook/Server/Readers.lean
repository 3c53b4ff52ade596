import Hivebook.Server.Handlers

/-!
# The request handlers that read artifacts

`ListArtifacts` pages through a tenant's artifacts, `GetArtifactContent` serves the bytes of one.
Each is given the world it reads; a read that fails answers an error and shows nothing.  What is
shown of a connection is its status, as `statusToProto` has it.

## Main definitions

* `Database.countArtifacts`, `Database.getArtifactForContent` — the other two read queries.
* `Storage.get` — `Store.Get`.
* `Server.listArtifacts`, `Server.getArtifactContent` — the handlers.
* `statusToProto` — the status of a connection as it is shown.

## Main results

* `of_listArtifacts` — a listed artifact is a visible row.
* `of_getArtifactContent`, `getArtifactContent_eq` — **what is served is exactly the bytes of the
  tenant's rows that are not hidden**, whatever their unit.
-/

namespace Hivebook

namespace Database

/-- `CountArtifacts`: the same gate as `ListArtifacts`. -/
def countArtifacts (tenantID : String) (connectionID : Option Uuid) (db : Database) : ℕ :=
  db.artifacts.rows.countP fun r => decide (r.tenantID = tenantID) &&
    connectionID.all (fun id => decide (r.connectionID = id)) && visible db r

/-- `GetArtifactForContent`: tenant-scoped, and not hidden. -/
def getArtifactForContent (id : Uuid) (tenantID : String) (db : Database) :
    Except Err RawArtifact :=
  one (db.artifacts.rows.find? fun r => decide (r.id = id) && decide (r.tenantID = tenantID) &&
    r.deletedAt.isNone)

end Database

namespace Storage

/-- `maxObjectBytes`. -/
def maxObjectBytes : ℕ := 2 ^ 24

/-- `Store.Get`: the object of a stored key and its content type. -/
def get (storedKey : String) (objects : String × String → Option StoredObject) :
    Except Err (Bytes × String) :=
  match cut storedKey with
  | none => .error (.failed ("malformed object key " ++ storedKey.quote))
  | some o =>
      match objects o with
      | none => .error (.failed "get object: NoSuchKey")
      | some obj => .ok (obj.body.take maxObjectBytes, obj.contentType)

/-- The object of a stored key is there. -/
def stored (storedKey : String) (objects : String × String → Option StoredObject) : Bool :=
  (cut storedKey).any fun o => (objects o).isSome

theorem get_of_stored {storedKey : String} {objects : String × String → Option StoredObject}
    (h : stored storedKey objects = true) : ∃ data, get storedKey objects = .ok data := by
  obtain ⟨o, ho, hobj⟩ := (Option.any_eq_true _ _).mp h
  obtain ⟨obj, hobj⟩ := Option.isSome_iff_exists.mp hobj
  unfold get
  rw [ho]
  dsimp only
  rw [hobj]
  exact ⟨_, rfl⟩

theorem stored_of_get {storedKey : String} {objects : String × String → Option StoredObject}
    {data : Bytes × String} (h : get storedKey objects = .ok data) :
    stored storedKey objects = true := by
  unfold get at h
  split at h
  · cases h
  · rename_i o ho
    split at h
    · cases h
    · rename_i obj hobj
      unfold stored
      rw [ho]
      simp [hobj]

end Storage

/-- `integrationv1.Artifact`. -/
structure ProtoArtifact where
  id : Uuid
  connectorID : String
  sourceNativeKind : String
  containerName : String
  externalID : String
  sourceURL : String
  ingestedAt : Time
  connectionID : Uuid
  deriving DecidableEq, Repr

/-- `toProtoArtifact`. -/
def toProtoArtifact (r : RawArtifact) : ProtoArtifact :=
  { id := r.id, connectorID := r.source, sourceNativeKind := r.sourceNativeKind,
    containerName := r.containerName, externalID := r.externalID, sourceURL := r.sourceURL,
    ingestedAt := r.ingestedAt, connectionID := r.connectionID }

/-- A Go conversion to `uint32`, as the counts of a response are sent. -/
def uint32 (n : ℤ) : ℕ := (n % 2 ^ 32).toNat

/-- `integrationv1.ListArtifactsResponse`. -/
structure ListArtifactsResponse where
  artifacts : List ProtoArtifact
  total : ℕ
  deriving DecidableEq, Repr

/-- `integrationv1.GetArtifactContentResponse`. -/
structure GetArtifactContentResponse where
  data : Bytes
  contentType : String
  filename : String
  deriving DecidableEq, Repr

/-- `integrationv1.ConnectionStatus`. -/
inductive ProtoConnectionStatus where
  | unspecified | connected | syncing | stopping | error | needsReauth
  deriving DecidableEq, Repr

/-- `statusToProto`. -/
def statusToProto : ConnectionStatus → ProtoConnectionStatus
  | .connected => .connected
  | .syncing => .syncing
  -- an initial backfill is shown as a sync
  | .backfilling => .syncing
  | .connectedWarnings => .connected
  | .stopping => .stopping
  | .error => .error
  | .needsReauth => .needsReauth
  | .disabled => .unspecified

/-- `defaultArtifactLimit`. -/
def defaultArtifactLimit : ℤ := 50

/-- `maxArtifactLimit`. -/
def maxArtifactLimit : ℤ := 200

namespace Server

/-- The page size in effect for the `uint32` of a request. -/
def artifactLimit (limit : ℕ) : ℤ :=
  min (if int32 limit ≤ 0 then defaultArtifactLimit else int32 limit) maxArtifactLimit

/-- `ListArtifacts`; no connection means all of the tenant's.  The database refuses a negative
offset, which a large `uint32` is. -/
def listArtifacts (tenant : Option String) (connectionID : Option Uuid) (limit offset : ℕ)
    (db : Database) : Except RpcError ListArtifactsResponse :=
  match requireTenant tenant with
  | .error e => .error e
  | .ok tenant =>
      if int32 offset < 0 then .error ⟨.internal, "list artifacts failed"⟩
      else .ok
        { artifacts := (Database.listArtifacts tenant connectionID (artifactLimit limit).toNat
            (int32 offset).toNat db).map toProtoArtifact
          total := uint32 (Database.countArtifacts tenant connectionID db) }

/-- `GetArtifactContent`. -/
def getArtifactContent (tenant : Option String) (id : Uuid) (w : World) :
    Except RpcError GetArtifactContentResponse :=
  match requireTenant tenant with
  | .error e => .error e
  | .ok tenant =>
      match Database.getArtifactForContent id tenant w.db with
      | .error _ => .error ⟨.notFound, "artifact not found"⟩
      | .ok row =>
          match Storage.get row.objectKey w.objects with
          | .error _ => .error ⟨.internal, "could not read artifact"⟩
          | .ok (data, contentType) => .ok
              { data
                contentType := if contentType = "" then "application/octet-stream" else contentType
                filename := row.externalID }

theorem requireTenant_eq_ok {tenant : Option String} {t : String} :
    requireTenant tenant = .ok t ↔ tenant = some t ∧ t ≠ "" := by
  unfold requireTenant
  cases tenant with
  | none => simp
  | some t' =>
    by_cases h : t' = ""
    · simp only [h, if_true, reduceCtorEq, Option.some.injEq, false_iff, not_and, not_not]
      exact Eq.symm
    · simp only [h, if_false, Except.ok.injEq, Option.some.injEq]
      refine ⟨fun heq => ⟨heq, heq ▸ h⟩, And.left⟩

/-- A listed artifact is a visible row. -/
theorem of_listArtifacts {tenant : Option String} {connectionID : Option Uuid} {limit offset : ℕ}
    {db : Database} {resp : ListArtifactsResponse}
    (h : listArtifacts tenant connectionID limit offset db = .ok resp) {art : ProtoArtifact}
    (hart : art ∈ resp.artifacts) :
    ∃ r ∈ db.artifacts.rows, r.id = art.id ∧ Database.visible db r = true := by
  unfold listArtifacts at h
  split at h
  · cases h
  · by_cases hneg : int32 offset < 0
    · rw [if_pos hneg] at h
      cases h
    · rw [if_neg hneg, Except.ok.injEq] at h
      subst h
      simp only [List.mem_map] at hart
      obtain ⟨r, hr, rfl⟩ := hart
      have hsorted := List.mem_of_mem_drop (List.mem_of_mem_take hr)
      obtain ⟨hmem, hp⟩ := List.mem_filter.mp ((List.mem_insertionSort _).mp hsorted)
      exact ⟨r, hmem, rfl, (Bool.and_eq_true_iff.mp hp).2⟩

/-- What is served is a row that is not hidden, with its object in storage. -/
theorem of_getArtifactContent {tenant : Option String} {id : Uuid} {w : World}
    {resp : GetArtifactContentResponse} (h : getArtifactContent tenant id w = .ok resp) :
    ∃ r ∈ w.db.artifacts.rows, r.id = id ∧ r.deletedAt = none ∧ r.tenantID ≠ "" ∧
      Storage.stored r.objectKey w.objects = true := by
  unfold getArtifactContent at h
  split at h
  · cases h
  · rename_i t htenant
    split at h
    · cases h
    · rename_i r hr
      split at h
      · cases h
      · rename_i data contentType hget
        unfold Database.getArtifactForContent at hr
        cases hfind : w.db.artifacts.rows.find? fun r => decide (r.id = id) &&
            decide (r.tenantID = t) && r.deletedAt.isNone with
        | none =>
          rw [hfind] at hr
          cases hr
        | some r' =>
          rw [hfind] at hr
          obtain rfl : r' = r := Except.ok.inj hr
          have hprops := List.find?_some hfind
          simp only [Bool.and_eq_true, decide_eq_true_eq, Option.isNone_iff_eq_none] at hprops
          refine ⟨r', List.mem_of_find?_eq_some hfind, hprops.1.1, hprops.2, ?_,
            Storage.stored_of_get hget⟩
          rw [hprops.1.2]
          exact (requireTenant_eq_ok.mp htenant).2

/-- A row that is not hidden is served to its tenant, if its object is in storage. -/
theorem getArtifactContent_eq {w : World} {r : RawArtifact} (hr : r ∈ w.db.artifacts.rows)
    (hlive : r.deletedAt = none) (htenant : r.tenantID ≠ "")
    (hstored : Storage.stored r.objectKey w.objects = true) :
    ∃ resp, getArtifactContent (some r.tenantID) r.id w = .ok resp := by
  obtain ⟨⟨data, contentType⟩, hget⟩ := Storage.get_of_stored hstored
  have hfind : Database.getArtifactForContent r.id r.tenantID w.db = .ok r := by
    unfold Database.getArtifactForContent
    have hsome : (w.db.artifacts.rows.find? fun r' => decide (r'.id = r.id) &&
        decide (r'.tenantID = r.tenantID) && r'.deletedAt.isNone) = some r := by
      cases hf : w.db.artifacts.rows.find? fun r' => decide (r'.id = r.id) &&
          decide (r'.tenantID = r.tenantID) && r'.deletedAt.isNone with
      | none =>
        have hnone := List.find?_eq_none.mp hf r hr
        simp [hlive] at hnone
      | some r' =>
        have hprops := List.find?_some hf
        simp only [Bool.and_eq_true, decide_eq_true_eq] at hprops
        rw [w.db.artifacts.eq_of_id (List.mem_of_find?_eq_some hf) hr hprops.1.1]
    rw [hsome]
    rfl
  unfold getArtifactContent
  rw [requireTenant_eq_ok.mpr ⟨rfl, htenant⟩]
  dsimp only
  rw [hfind]
  dsimp only
  rw [hget]
  exact ⟨_, rfl⟩

end Server

end Hivebook
