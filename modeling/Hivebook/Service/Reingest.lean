import Hivebook.Service.Visibility

/-!
# An item that is synced again

`makeEmit` persists one item of a drain.  An item whose content is unchanged is skipped,
and one that has changed rewrites its row; neither touches the marks a disconnect, a
deselection or a sweep has left on the row.  An item whose row is hidden or queued for
erasure is synced again and stays so.

## Main definitions

* `Live db k` — the item has a row that is neither hidden nor queued.
* `Unmarked db k` — a row of the item, if there is one, is neither hidden nor queued.

## Main results

* `reingested_live_iff` — **after an emit the row of its item is live if and only if no
  row of it was marked before.**
* `queued_row_stays_queued` — the document of a reconnected Drive is skipped, and erased.
-/

namespace Hivebook

open Database Machine Storage Connectors

/-- The item has a row with `deleted_at` null and `purge_pending` false. -/
def Live (db : Database) (k : Uuid × String) : Prop :=
  ∃ r ∈ db.artifacts.rows, r.key = k ∧ r.deletedAt = none ∧ r.purgePending = false

/-- No row of the item is hidden or queued. -/
def Unmarked (db : Database) (k : Uuid × String) : Prop :=
  ∀ r ∈ db.artifacts.rows, r.key = k → r.deletedAt = none ∧ r.purgePending = false

/-- An item without marks has a live row, or none. -/
theorem unmarked_iff {db : Database} {k : Uuid × String} :
    Unmarked db k ↔ Live db k ∨ k ∉ db.artifacts.rows.map RawArtifact.key := by
  constructor
  · intro h
    by_cases hk : k ∈ db.artifacts.rows.map RawArtifact.key
    · obtain ⟨r, hr, hkey⟩ := List.mem_map.mp hk
      exact Or.inl ⟨r, hr, hkey, h r hr hkey⟩
    · exact Or.inr hk
  · rintro (⟨r, hr, hkey, hlive⟩ | hk) r' hr' hkey'
    · rw [db.artifacts.eq_of_key hr' hr (hkey'.trans hkey.symm)]
      exact hlive
    · exact absurd (List.mem_map.mpr ⟨r', hr', hkey'⟩) hk

/-- An emit that commits leaves the marks of its item alone, and adds a row without
marks. -/
theorem live_commit_iff (now : Time) (p : UpsertRawArtifactParams) (unitID : String)
    (cursor : Option String) (db : Database) :
    Live (commitArtifact now p unitID cursor db) (p.connectionID, p.externalID) ↔
      Unmarked db (p.connectionID, p.externalID) := by
  rw [unmarked_iff, Live, commitArtifact_artifacts]
  refine Iff.trans (Table.exists_upsert (P := fun r : RawArtifact =>
    r.key = (p.connectionID, p.externalID) ∧ r.deletedAt = none ∧ r.purgePending = false)
    fun r => Iff.rfl) ?_
  refine or_congr Iff.rfl ⟨And.left, fun hk => ⟨hk, rfl, rfl, rfl⟩⟩

/-! ### What a run leaves of the manifest -/

section Run

variable {α : Type} {p : Program α} {b b' : Bool} {w w' : World}
  {ls : List (Performed World Choice Cmd)} {r : α}

theorem live_congr {db db' : Database} (h : db'.artifacts = db.artifacts) (k : Uuid × String) :
    Live db' k ↔ Live db k := by
  unfold Live
  rw [h]

theorem unmarked_congr {db db' : Database} (h : db'.artifacts = db.artifacts)
    (k : Uuid × String) : Unmarked db' k ↔ Unmarked db k := by
  unfold Unmarked
  rw [h]

variable {a : Activities} {i : SyncInput} {conn : Connection} {art : Artifact}
  {st st' : EmitState}

/-- A changed item whose emit succeeds has been committed. -/
theorem live_emitChanged_iff {hash : String}
    (h : service.Returns (a.emitChanged i conn art hash st) b w ls (.ok (), st') b' w') :
    Live w'.db (i.connectionID, art.externalID) ↔
      Unmarked w.db (i.connectionID, art.externalID) := by
  obtain ⟨t, ls₁, -, h⟩ := h.of_call
  have hput := service_db t.choice (b || t.cancel) w (.putObject
    (bucket a.env conn.connectorID conn.region)
    (conn.tenantID ++ "/" ++ (conn.connectorID ++ "/" ++ hash)) art.contentType art.raw)
  revert h hput
  generalize service.perform t.choice (b || t.cancel) w _ = s₁
  intro h hput
  obtain ⟨w₁, reply⟩ := s₁
  cases reply with
  | error e => cases h.of_pure.2.1
  | ok _ =>
    -- the row is committed only if the statement is answered well
    obtain ⟨t₂, ls₂, -, h⟩ := Returns.of_call h
    dsimp only at hput
    revert h
    rw [service_statement]
    cases hr : t₂.choice.reply ((b || t.cancel) || t₂.cancel) _ with
    | error e =>
      intro h
      cases h.of_pure.2.1
    | ok u =>
      intro h
      obtain ⟨hx, -⟩ := of_reply_eq_ok hr
      have hnote := Plain.artifacts
        ((Activities.steady_noteProgress i (st.written + 1)).plain.bind fun _ => plain_pure _) h
      rw [live_congr hnote, service_db]
      show Live (if _ = true then _ else _) _ ↔ _
      rw [if_pos hx, ← unmarked_congr (congrArg Database.artifacts hput)]
      exact live_commit_iff _ _ _ _ _

/-- **After an emit the row of its item is live if and only if no row of it was marked
before**, whether or not its content has changed. -/
theorem reingested_live_iff
    (h : service.Returns (a.makeEmit i conn art st) b w ls (.ok (), st') b' w') :
    Live w'.db (i.connectionID, art.externalID) ↔
      Unmarked w.db (i.connectionID, art.externalID) := by
  obtain ⟨t, ls₁, -, h⟩ := h.of_call
  have hctx := artifacts_perform (c := .ctxErr) rfl t.choice (b || t.cancel) w
  rw [← unmarked_congr hctx]
  revert h
  generalize service.perform t.choice (b || t.cancel) w .ctxErr = s₁
  obtain ⟨w₁, cancelled⟩ := s₁
  intro h
  cases cancelled with
  | true => cases h.of_pure.2.1
  | false =>
    obtain ⟨t₂, ls₂, -, h⟩ := Returns.of_call h
    have hread := artifacts_perform (c := .statement (.getArtifactContentHash i.connectionID
      art.externalID)) rfl t₂.choice ((b || t.cancel) || t₂.cancel) w₁
    rw [← unmarked_congr hread]
    revert h
    rw [service_statement]
    cases hr : t₂.choice.reply ((b || t.cancel) || t₂.cancel) _ with
    | error e =>
      intro h
      cases e with
      | noRows => exact live_emitChanged_iff h
      | _ => cases h.of_pure.2.1
    | ok prev =>
      intro h
      change service.Returns (if prev = a.contentHash.hash art.raw then _ else _) _ _ _ _ _ _ at h
      split at h
      · -- an unchanged item has a row, which is left as it was
        obtain ⟨-, hfound⟩ := of_reply_eq_ok hr
        have hkey := key_mem_of_getArtifactContentHash hfound
        rw [live_congr ((Activities.plain_emitUnchanged i art st).artifacts h), unmarked_iff,
          congrArg Table.rows hread]
        exact ⟨Or.inl, fun hlive => hlive.resolve_right fun hno => hno hkey⟩
      · exact live_emitChanged_iff h

end Run

/-! ### The document of a Drive, emitted -/

/-- The row of Ann's connection, once she has connected again. -/
def annsConnection : Connection :=
  { driveConnection.new 0 with scopes := " ".intercalate newGoogleDocs.connector.scopes }

/-- The emit of her document with some content, by a drain that starts. -/
def emitDoc (raw : Bytes) : Program (Except Err Unit × EmitState) :=
  driveActivities.makeEmit driveInput annsConnection (docArt driveDoc raw)
    { high := "", written := 0 }

/-- Turns in which nothing fails. -/
def quiet (n : ℕ) : List (Turn Choice) := List.replicate n ⟨false, quietly docAnswers⟩

/-- A synced document that has no marks is edited: its emit rewrites the row, which stays
live. -/
theorem edited_emit_live :
    ∃ ls st' b' w', service.Returns (emitDoc [1]) false syncedWorld ls (.ok (), st') b' w' ∧
      (Live syncedWorld.db (0, "doc") ∧ Unmarked syncedWorld.db (0, "doc") ∧
        w'.db.artifacts.rows ≠ syncedWorld.db.artifacts.rows) ∧ Live w'.db (0, "doc") := by
  obtain ⟨ls, ⟨r, st'⟩, b', w', hrun, hend⟩ := exists_returns_of_any service (emitDoc [1]) false
    syncedWorld (quiet 4) (fun _ r w' => decide (r.1 = .ok ()) &&
      decide (w'.db.artifacts.rows ≠ syncedWorld.db.artifacts.rows)) (by decide +kernel)
  simp only [Bool.and_eq_true, decide_eq_true_eq] at hend
  obtain ⟨rfl, hchanged⟩ := hend
  have hlive : Live syncedWorld.db (0, "doc") := by
    unfold Live
    decide +kernel
  have hunmarked : Unmarked syncedWorld.db (0, "doc") := unmarked_iff.mpr (Or.inl hlive)
  exact ⟨ls, st', b', w', hrun, ⟨hlive, hunmarked, hchanged⟩,
    (reingested_live_iff hrun).mpr hunmarked⟩

/-- The emit has succeeded, and every row is queued. -/
def skipsQueued (r : Except Err Unit × EmitState) (w : World) : Bool :=
  decide (r.1 = .ok ()) && w.db.artifacts.rows.all RawArtifact.purgePending

/-- **The document of a reconnected Drive stays queued.**  Ann has disconnected and
connected again; her connection is live, its unit selected, and the emit of her document
succeeds. -/
theorem queued_row_stays_queued :
    ∃ s tr, (service.pool (Job.prog driveActivities driveServer)).Run ⟨syncedWorld, []⟩
        disconnectAndReconnect s tr ∧
      annsConnection ∈ s.world.db.connections.rows ∧ annsConnection.deletedAt = none ∧
      (∃ u ∈ s.world.db.units.rows, u.is 0 "drive" = true ∧ u.selected = true ∧
        u.status ≠ .removed) ∧
      ∃ ls st' b' w', service.Returns (emitDoc []) false s.world ls (.ok (), st') b' w' ∧
        ¬ Live w'.db (0, "doc") := by
  obtain ⟨s, tr, hrun, hend⟩ := Lts.exists_run_of_any
    (service.pool (Job.prog driveActivities driveServer)) ⟨syncedWorld, []⟩ disconnectAndReconnect
    (fun s _ => decide (annsConnection ∈ s.world.db.connections.rows) &&
      (s.world.db.units.rows.any fun u => u.is 0 "drive" && u.selected &&
        decide (u.status ≠ .removed)) &&
      (service.runTurns (emitDoc []) false s.world (quiet 3)).any
        fun r => skipsQueued r.2.1 r.2.2.2)
    (by decide +kernel)
  simp only [Bool.and_eq_true, decide_eq_true_eq, List.any_eq_true] at hend
  obtain ⟨⟨hconn, u, hu, ⟨his, hsel⟩, hstatus⟩, hemit⟩ := hend
  obtain ⟨ls, ⟨r, st'⟩, b', w', hreturns, hlast⟩ := exists_returns_of_any service
    (emitDoc []) false s.world (quiet 3) (fun _ => skipsQueued) hemit
  simp only [skipsQueued, Bool.and_eq_true, decide_eq_true_eq, List.all_eq_true] at hlast
  obtain ⟨rfl, hqueued⟩ := hlast
  refine ⟨s, tr, hrun, hconn, rfl, ⟨u, hu, his, hsel, hstatus⟩, ls, st', b', w', hreturns, ?_⟩
  rintro ⟨r, hr, -, -, hnot⟩
  rw [hqueued r hr] at hnot
  cases hnot

end Hivebook
