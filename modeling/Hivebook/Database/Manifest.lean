import Hivebook.Database.Statement

/-!
# What a statement does to the manifest

Ten statements write `raw_artifact`, and between them they do six things to a row.
This file says so once; every invariant of the manifest is a case analysis over it.

## Main definitions

* `Database.restores` — the rows an undelete brings back.
* `ManifestStep now db s r'` — how a statement comes by a row of the manifest.

## Main results

* `manifestStep` — **every row after a statement comes from one of the six steps.**
* `next_le_exec`, `ManifestStep.id_cases` — ids are never used again.
* `exists_row_exec` — **what neither commits nor confirms flags rows, and does nothing else.**
-/

namespace Hivebook

open Database

namespace Database

/-- The rows a statement un-hides: those of a reconnected connection, or of the
units selected again. -/
def restores (db : Database) : Statement → RawArtifact → Bool
  | .undeleteConnectionArtifacts id tenantID, r =>
      ofConnection id tenantID r && r.deletedAt.isSome
  | .undeleteSelectedUnitArtifacts id, r =>
      decide (r.connectionID = id) && r.deletedAt.isSome &&
        db.hasUnit id (fun u => u.selected) r.syncContainerID
  | _, _ => false

/-- The rows a statement hides: those of a disconnected connection, or of units that are not
selected. -/
def hides (db : Database) : Statement → RawArtifact → Bool
  | .softDeleteConnectionArtifacts id tenantID, r =>
      ofConnection id tenantID r && r.deletedAt.isNone
  | .softDeleteDeselectedUnitArtifacts id, r =>
      decide (r.connectionID = id) && r.deletedAt.isNone &&
        db.hasUnit id (fun u => !u.selected) r.syncContainerID
  | _, _ => false

/-- The rows a statement marks for erasure, and the deadline it gives them. -/
def marks (now : Time) (db : Database) : Statement → RawArtifact → Option Time
  | .markConnectionArtifactsPurgePending id tenantID, r =>
      if ofConnection id tenantID r && !r.purgePending then some now else none
  | .markRemovedUnitArtifactsPurgePending id deadline, r =>
      if decide (r.connectionID = id) && !r.purgePending &&
        db.hasUnit id (fun u => decide (u.status = .removed)) r.syncContainerID
      then some deadline else none
  | _, _ => none

/-- The rows a statement marks: the moment decides the deadline only. -/
def queues (db : Database) (s : Statement) (r : RawArtifact) : Bool := (db.marks 0 s r).isSome

end Database

/-- How a statement comes by a row of the manifest. -/
inductive ManifestStep (now : Time) (db : Database) (s : Statement) (r' : RawArtifact) : Prop
  /-- The row is left as it was. -/
  | keep (h : r' ∈ db.artifacts.rows)
  /-- A soft delete. -/
  | hide (r : RawArtifact) (h : r ∈ db.artifacts.rows) (hr : r' = { r with deletedAt := some now })
  /-- An undelete. -/
  | restore (r : RawArtifact) (h : r ∈ db.artifacts.rows) (hs : db.restores s r = true)
      (hr : r' = { r with deletedAt := none })
  /-- A mark for erasure. -/
  | mark (r : RawArtifact) (deadline : Time) (h : r ∈ db.artifacts.rows)
      (hs : db.marks now s r = some deadline) (hr : r' = markPurge now deadline r)
  /-- An emit of a known item. -/
  | rewrite (r : RawArtifact) (p : UpsertRawArtifactParams) (unitID : String)
      (cursor : Option String) (h : r ∈ db.artifacts.rows)
      (hs : s = .commitArtifact p unitID cursor)
      (hkey : r.key = (p.connectionID, p.externalID)) (hr : r' = p.conflict r)
  /-- An emit of a new item. -/
  | insert (p : UpsertRawArtifactParams) (unitID : String) (cursor : Option String)
      (hs : s = .commitArtifact p unitID cursor)
      (hkey : (p.connectionID, p.externalID) ∉ db.artifacts.rows.map RawArtifact.key)
      (hr : r' = p.new now db.artifacts.next)

/-- After an update a row is one that was there, or the rewriting of one. -/
theorem mem_updateArtifacts {db : Database} {p : RawArtifact → Bool} {f : RawArtifact → RawArtifact}
    {hid : ∀ r, (f r).id = r.id} {hkey : ∀ r, (f r).key = r.key} {r' : RawArtifact}
    (h : r' ∈ (db.updateArtifacts p f hid hkey).artifacts.rows) :
    r' ∈ db.artifacts.rows ∨ ∃ r ∈ db.artifacts.rows, p r = true ∧ r' = f r := by
  obtain ⟨r, hr, rfl⟩ := List.mem_map.mp h
  unfold Table.updated
  by_cases hp : p r = true
  · exact Or.inr ⟨r, hr, hp, if_pos hp⟩
  · rw [if_neg hp]
    exact Or.inl hr

/-- The manifest after an emit: the cursor and the count are no columns of it. -/
theorem commitArtifact_artifacts (now : Time) (p : UpsertRawArtifactParams) (unitID : String)
    (cursor : Option String) (db : Database) :
    (commitArtifact now p unitID cursor db).artifacts =
      db.artifacts.upsert (p.new now) p.conflict := by
  cases cursor <;> rfl

/-- An emit leaves the row of its key, rewritten or new. -/
theorem exists_commitArtifact (now : Time) (p : UpsertRawArtifactParams) (unitID : String)
    (cursor : Option String) (db : Database) :
    (∃ r ∈ db.artifacts.rows, r.key = (p.connectionID, p.externalID) ∧
      p.conflict r ∈ (commitArtifact now p unitID cursor db).artifacts.rows) ∨
      p.new now db.artifacts.next ∈ (commitArtifact now p unitID cursor db).artifacts.rows := by
  have hrow : (∃ r ∈ db.artifacts.rows, r.key = (p.new now db.artifacts.next).key ∧
      p.conflict r ∈ (db.artifacts.upsert (p.new now) p.conflict).rows) ∨
      p.new now db.artifacts.next ∈ (db.artifacts.upsert (p.new now) p.conflict).rows :=
    Table.exists_upserted
  rwa [commitArtifact_artifacts]

/-- **Every row after a statement comes from one of the six steps.** -/
theorem manifestStep (now : Time) (db : Database) (s : Statement) {r' : RawArtifact}
    (h : r' ∈ (s.exec now db).2.artifacts.rows) : ManifestStep now db s r' := by
  have hkept : s.writesArtifacts = false → ManifestStep now db s r' := by
    intro hs
    rw [artifacts_exec now db hs] at h
    exact .keep h
  cases s with
  | softDeleteConnectionArtifacts id tenantID =>
    rcases mem_updateArtifacts h with h | ⟨r, h, -, hr⟩
    · exact .keep h
    · exact .hide r h hr
  | softDeleteDeselectedUnitArtifacts id =>
    rcases mem_updateArtifacts h with h | ⟨r, h, -, hr⟩
    · exact .keep h
    · exact .hide r h hr
  | undeleteConnectionArtifacts id tenantID =>
    rcases mem_updateArtifacts h with h | ⟨r, h, hp, hr⟩
    · exact .keep h
    · exact .restore r h hp hr
  | undeleteSelectedUnitArtifacts id =>
    rcases mem_updateArtifacts h with h | ⟨r, h, hp, hr⟩
    · exact .keep h
    · exact .restore r h hp hr
  | markConnectionArtifactsPurgePending id tenantID =>
    rcases mem_updateArtifacts h with h | ⟨r, h, hp, hr⟩
    · exact .keep h
    · exact .mark r now h (if_pos hp) hr
  | markRemovedUnitArtifactsPurgePending id deadline =>
    rcases mem_updateArtifacts h with h | ⟨r, h, hp, hr⟩
    · exact .keep h
    · exact .mark r deadline h (if_pos hp) hr
  | confirmArtifactDeletes ids => exact .keep (Table.mem_delete.mp h).1
  -- a commit rewrites the row of its key, or inserts one
  | commitArtifact p unitID cursor =>
    have h' : r' ∈ (db.artifacts.upsert (p.new now) p.conflict).rows := by
      rw [← commitArtifact_artifacts now p unitID cursor db]
      exact h
    rcases Table.mem_upsert h' with ⟨r, hr, hkey, rfl⟩ | ⟨hr, -⟩ | ⟨hkey, rfl⟩
    · exact .rewrite r p unitID cursor hr rfl hkey rfl
    · exact .keep hr
    · exact .insert p unitID cursor rfl hkey rfl
  | _ => exact hkept rfl

variable {now : Time} {db : Database} {s : Statement} {r' : RawArtifact}

/-- A row is an old one under its id, still marked if it was, or has a fresh id. -/
theorem ManifestStep.id_cases (h : ManifestStep now db s r') :
    (∃ r ∈ db.artifacts.rows, r.id = r'.id ∧ (r.purgePending = true → r'.purgePending = true)) ∨
      r'.id = db.artifacts.next := by
  cases h with
  | keep h => exact Or.inl ⟨r', h, rfl, id⟩
  | hide r h hr => exact Or.inl ⟨r, h, by rw [hr], fun hp => by rw [hr]; exact hp⟩
  | restore r h _ hr => exact Or.inl ⟨r, h, by rw [hr], fun hp => by rw [hr]; exact hp⟩
  | mark r deadline h _ hr =>
    exact Or.inl ⟨r, h, by rw [hr]; rfl, fun _ => by rw [hr]; rfl⟩
  | rewrite r p unitID cursor h _ _ hr =>
    exact Or.inl ⟨r, h, by rw [hr]; rfl, fun hp => by rw [hr]; exact hp⟩
  | insert p unitID cursor _ _ hr => exact Or.inr (by rw [hr]; rfl)

/-- The sequence of ids only moves forward. -/
theorem next_le_exec (now : Time) (db : Database) (s : Statement) :
    db.artifacts.next ≤ (s.exec now db).2.artifacts.next := by
  have hkept : s.writesArtifacts = false →
      db.artifacts.next ≤ (s.exec now db).2.artifacts.next := by
    intro hs
    rw [artifacts_exec now db hs]
  cases s with
  | commitArtifact p unitID cursor =>
    show _ ≤ (commitArtifact now p unitID cursor db).artifacts.next
    rw [commitArtifact_artifacts]
    unfold Table.upsert
    split
    · exact Nat.le_refl _
    · exact Nat.le_succ _
  | seedAdmissionBucket k connectorID limit => exact hkept rfl
  | acquireAdmission k => exact hkept rfl
  | _ => exact Nat.le_refl _

/-! ### Which items have a row -/

theorem key_mem_of_getArtifactContentHash {id : Uuid} {externalID hash : String}
    (hr : getArtifactContentHash id externalID db = .ok hash) :
    (id, externalID) ∈ db.artifacts.rows.map RawArtifact.key := by
  unfold getArtifactContentHash one at hr
  split at hr
  · rename_i hfind
    obtain ⟨r, hr, -⟩ := Option.map_eq_some_iff.mp hfind
    have hkey := List.find?_some hr
    simp only [decide_eq_true_eq] at hkey
    exact List.mem_map.mpr ⟨r, List.mem_of_find?_eq_some hr, hkey⟩
  · cases hr

/-- The keys of the manifest after a commit. -/
theorem key_mem_commit_iff {p : UpsertRawArtifactParams} {unitID : String}
    {cursor : Option String} {k : Uuid × String} :
    k ∈ (commitArtifact now p unitID cursor db).artifacts.rows.map RawArtifact.key ↔
      k ∈ db.artifacts.rows.map RawArtifact.key ∨ (p.connectionID, p.externalID) = k := by
  rw [commitArtifact_artifacts, List.mem_map, List.mem_map]
  refine Iff.trans (Table.exists_upsert (P := fun r : RawArtifact => r.key = k) fun r => Iff.rfl) ?_
  constructor
  · rintro (h | ⟨-, h⟩)
    · exact Or.inl h
    · exact Or.inr h
  · rintro (h | rfl)
    · exact Or.inl h
    · by_cases hk : (p.connectionID, p.externalID) ∈ db.artifacts.rows.map RawArtifact.key
      · exact Or.inl (List.mem_map.mp hk)
      · exact Or.inr ⟨hk, rfl⟩

/-- **A statement that neither commits an item nor confirms an erasure** hides rows, brings them
back or marks them, and leaves whatever else is in them alone. -/
theorem exists_row_exec (hcommit : ∀ p unitID cursor, s ≠ .commitArtifact p unitID cursor)
    (hconfirm : ∀ ids, s ≠ .confirmArtifactDeletes ids) {P : RawArtifact → Prop}
    (hP : ∀ (r : RawArtifact) deletedAt purgePending purgeDeadline,
      P { r with deletedAt, purgePending, purgeDeadline } ↔ P r) :
    (∃ r ∈ (s.exec now db).2.artifacts.rows, P r) ↔ ∃ r ∈ db.artifacts.rows, P r := by
  have hupdate : ∀ {p : RawArtifact → Bool} {f : RawArtifact → RawArtifact},
      (∀ r, ∃ deletedAt purgePending purgeDeadline,
        f r = { r with deletedAt, purgePending, purgeDeadline }) →
      ((∃ r ∈ db.artifacts.rows.map (Table.updated p f), P r) ↔
        ∃ r ∈ db.artifacts.rows, P r) := by
    intro p f hf
    refine Table.exists_updated fun r _ _ => ?_
    obtain ⟨deletedAt, purgePending, purgeDeadline, heq⟩ := hf r
    rw [heq]
    exact hP r deletedAt purgePending purgeDeadline
  cases s with
  | softDeleteConnectionArtifacts id tenantID => exact hupdate fun r => ⟨_, _, _, rfl⟩
  | softDeleteDeselectedUnitArtifacts id => exact hupdate fun r => ⟨_, _, _, rfl⟩
  | undeleteConnectionArtifacts id tenantID => exact hupdate fun r => ⟨_, _, _, rfl⟩
  | undeleteSelectedUnitArtifacts id => exact hupdate fun r => ⟨_, _, _, rfl⟩
  | markConnectionArtifactsPurgePending id tenantID => exact hupdate fun r => ⟨_, _, _, rfl⟩
  | markRemovedUnitArtifactsPurgePending id deadline => exact hupdate fun r => ⟨_, _, _, rfl⟩
  | confirmArtifactDeletes ids => exact absurd rfl (hconfirm ids)
  | commitArtifact p unitID cursor => exact absurd rfl (hcommit p unitID cursor)
  | _ => rw [artifacts_exec now db rfl]

/-- **A row goes away by a confirmation only.** -/
theorem key_mem_exec (hs : ∀ ids, s ≠ .confirmArtifactDeletes ids) {k : Uuid × String}
    (hk : k ∈ db.artifacts.rows.map RawArtifact.key) :
    k ∈ (s.exec now db).2.artifacts.rows.map RawArtifact.key := by
  by_cases hcommit : ∃ p unitID cursor, s = .commitArtifact p unitID cursor
  · obtain ⟨p, unitID, cursor, rfl⟩ := hcommit
    exact key_mem_commit_iff.mpr (Or.inl hk)
  · rw [List.mem_map] at hk ⊢
    refine (exists_row_exec ?_ hs fun r _ _ _ => Iff.rfl).mpr hk
    exact fun p unitID cursor heq => hcommit ⟨p, unitID, cursor, heq⟩

/-! ### The connections -/

/-- The row of a connection is there, under its id and its key. -/
def Database.HasConnection (db : Database) (id : Uuid) (key : String × String × String) : Prop :=
  ∃ conn ∈ db.connections.rows, conn.id = id ∧ conn.key = key

variable {id : Uuid} {key : String × String × String}

theorem hasConnection_update (h : db.HasConnection id key) (p : Connection → Bool)
    (f : Connection → Connection) (hid : ∀ r, (f r).id = r.id) (hkey : ∀ r, (f r).key = r.key) :
    (db.updateConnections p f hid hkey).HasConnection id key := by
  refine (Table.exists_updated (P := fun conn : Connection => conn.id = id ∧ conn.key = key)
    fun r _ _ => ?_).mpr h
  rw [hid, hkey]

/-- **No statement removes a connection or changes its key.** -/
theorem hasConnection_exec (now : Time) (s : Statement) (h : db.HasConnection id key) :
    (s.exec now db).2.HasConnection id key := by
  have hsame : s.writesConnections = false → (s.exec now db).2.HasConnection id key := by
    intro hs
    unfold Database.HasConnection
    rw [connections_exec now db hs]
    exact h
  cases s with
  | upsertConnection p =>
    show ∃ conn ∈ (db.connections.upsert p.new _).rows, conn.id = id ∧ conn.key = key
    refine (Table.exists_upsert (P := fun conn : Connection => conn.id = id ∧ conn.key = key)
      fun r => ?_).mpr (Or.inl h)
    exact Iff.rfl
  | setNeedsReauth id e => exact hasConnection_update h _ _ _ _
  | setConnectionStatus id status e => exact hasConnection_update h _ _ _ _
  | updateTokens id access refresh expiry => exact hasConnection_update h _ _ _ _
  | updateAccessToken id access expiry => exact hasConnection_update h _ _ _ _
  | deleteConnection id tenantID => exact hasConnection_update h _ _ _ _
  | setCatalogDiscovered id => exact hasConnection_update h _ _ _ _
  | markConnectionOnboarded id => exact hasConnection_update h _ _ _ _
  | startRunConnection id => exact hasConnection_update h _ _ _ _
  | setConnectionSettled id status => exact hasConnection_update h _ _ _ _
  | _ => exact hsame rfl

/-- A row found under the id has the key. -/
theorem key_of_hasConnection (h : db.HasConnection id key) {conn : Connection}
    (hmem : conn ∈ db.connections.rows) (hid : conn.id = id) : conn.key = key := by
  obtain ⟨conn', hmem', hid', hkey⟩ := h
  rw [db.connections.eq_of_id hmem hmem' (hid.trans hid'.symm)]
  exact hkey

/-- What `GetConnectionByID` and `GetConnection` find is in the table, under the id. -/
theorem mem_of_getConnectionByID {conn : Connection}
    (h : getConnectionByID id db = .ok conn) : conn ∈ db.connections.rows ∧ conn.id = id := by
  unfold getConnectionByID one at h
  split at h
  · cases h
    rename_i hfind
    have hp := List.find?_some hfind
    simp only [Bool.and_eq_true, decide_eq_true_eq] at hp
    exact ⟨List.mem_of_find?_eq_some hfind, hp.1⟩
  · cases h

/-- A soft-deleted connection reads as gone. -/
theorem deletedAt_of_getConnectionByID {conn : Connection}
    (h : getConnectionByID id db = .ok conn) : conn.deletedAt = none := by
  unfold getConnectionByID one at h
  split at h
  · cases h
    rename_i hfind
    have hp := List.find?_some hfind
    simp only [Bool.and_eq_true, Option.isNone_iff_eq_none] at hp
    exact hp.2
  · cases h

@[inherit_doc mem_of_getConnectionByID]
theorem mem_of_getConnection {tenantID : String} {conn : Connection}
    (h : getConnection id tenantID db = .ok conn) : conn ∈ db.connections.rows ∧ conn.id = id := by
  unfold getConnection one at h
  split at h
  · cases h
    rename_i hfind
    have hp := List.find?_some hfind
    simp only [Bool.and_eq_true, decide_eq_true_eq] at hp
    exact ⟨List.mem_of_find?_eq_some hfind, hp.1.1⟩
  · cases h

/-! ### Connecting -/

/-- What a reconnect leaves of the row of its key. -/
def reconnected (p : UpsertConnectionParams) (c : Connection) : Connection :=
  { c with
    status := .connected, account := p.account, installationID := p.installationID,
    accessToken := p.accessToken, refreshToken := keptRefreshToken p.refreshToken c.refreshToken,
    tokenExpiry := p.tokenExpiry, scopes := p.scopes, lastError := "", deletedAt := none }

/-- A connect rewrites the row of its key, if there is one, and inserts one otherwise. -/
theorem upsertConnection_cases (p : UpsertConnectionParams) (db : Database) :
    (upsertConnection p db).2 = db.updateConnections
        (fun c => decide (c.key = (p.new db.connections.next).key)) (reconnected p) ∨
      (p.new db.connections.next).key ∉ db.connections.rows.map Connection.key ∧
        (upsertConnection p db).2.connections.rows =
          db.connections.rows ++ [p.new db.connections.next] := by
  unfold upsertConnection Database.updateConnections Table.upsert
  by_cases hk : (p.new db.connections.next).key ∈ db.connections.rows.map Connection.key
  · rw [dif_pos hk]
    exact .inl rfl
  · rw [dif_neg hk]
    exact .inr ⟨hk, rfl⟩

end Hivebook
