import Hivebook.Database.Catalog

/-!
# What a statement does to a unit

Eleven statements rewrite rows of `sync_unit`, one adds a row and one deletes some.  This file
says once what each of them does to a row, so that an invariant of the units is a case analysis.

## Main definitions

* `Rewrites now db s u u'` — the statement rewrites the unit `u` to `u'`.
* `SyncUnit.discovered` — the unit that a mark adds.

## Main results

* `unit_exec` — **a unit after a statement** is one that was there, as it was or rewritten, or
  the one that a mark has added.
-/

namespace Hivebook

open Database

/-- The unit that a mark adds. -/
def SyncUnit.discovered (now : Time) (connectionID : Uuid) (externalID name kind : String)
    (generation : ℤ) (id : Uuid) : SyncUnit :=
  { id, connectionID, externalID, name, kind, selected := false, cursor := "",
    status := .idle, generation, lastSeenAt := some now, lastError := "",
    nextRetryAt := none, committedAt := none, artifactCount := 0, totalEstimate := 0,
    updatedAt := now }

/-- How a statement rewrites a unit. -/
inductive Rewrites (now : Time) (db : Database) : Statement → SyncUnit → SyncUnit → Prop
  | mark (u : SyncUnit) (name kind : String) (generation : ℤ) :
      Rewrites now db (.upsertSyncUnit u.connectionID u.externalID name kind generation) u
        { u with name, kind, generation, lastSeenAt := some now, updatedAt := now }
  | total (u : SyncUnit) (totalEstimate : ℤ) :
      Rewrites now db (.setUnitTotal u.connectionID u.externalID totalEstimate) u
        { u with totalEstimate, updatedAt := now }
  | selection (u : SyncUnit) (ids : List String) :
      Rewrites now db (.setUnitSelection u.connectionID ids) u
        { u with selected := decide (u.externalID ∈ ids), updatedAt := now }
  | status (u : SyncUnit) (status : UnitStatus) :
      Rewrites now db (.setUnitStatus u.connectionID u.externalID status) u
        { u with status, updatedAt := now }
  | cursor (u : SyncUnit) (cursor : String) :
      Rewrites now db (.setUnitCursor u.connectionID u.externalID cursor) u
        { u with cursor, updatedAt := now }
  /-- A committed item: the live count, and the cursor if it moves. -/
  | counted (u : SyncUnit) (p : UpsertRawArtifactParams) (cursor? : Option String) :
      p.connectionID = u.connectionID →
      Rewrites now db (.commitArtifact p u.externalID cursor?) u
        { u with
          cursor := cursor?.getD u.cursor, artifactCount := u.artifactCount + 1, updatedAt := now }
  | commit (u : SyncUnit) (count : ℤ) :
      Rewrites now db (.commitUnit u.connectionID u.externalID) u
        { u with
          committedAt := some (u.committedAt.getD now), status := .synced, lastError := "",
          artifactCount := count, updatedAt := now }
  | retry (u : SyncUnit) (lastError : String) (at_ : Time) :
      Rewrites now db (.setUnitRetry u.connectionID u.externalID lastError at_) u
        { u with status := .error, lastError, nextRetryAt := some at_, updatedAt := now }
  | clear (u : SyncUnit) :
      Rewrites now db (.clearUnitRetry u.connectionID u.externalID) u
        { u with lastError := "", nextRetryAt := none, updatedAt := now }
  | sweep (u : SyncUnit) (generation : ℤ) : u.generation < generation →
      Rewrites now db (.sweepUnseenUnits u.connectionID generation) u
        { u with status := .removed, updatedAt := now }
  | rearm (u : SyncUnit) : u.selected = true → (u.status = .synced ∨ u.status = .error) →
      Rewrites now db (.startRun u.connectionID) u { u with status := .idle, updatedAt := now }

variable {db : Database} {now : Time} {u u' : SyncUnit}

theorem Rewrites.key {s : Statement} (h : Rewrites now db s u u') : u'.key = u.key := by
  cases h <;> rfl

theorem Rewrites.id {s : Statement} (h : Rewrites now db s u u') : u'.id = u.id := by
  cases h <;> rfl

/-- Whatever rewrites a unit stamps it. -/
theorem Rewrites.updatedAt {s : Statement} (h : Rewrites now db s u u') : u'.updatedAt = now := by
  cases h <;> rfl

/-- A unit that was committed once stays so. -/
theorem Rewrites.committedAt {s : Statement} (h : Rewrites now db s u u')
    (hu : u.committedAt.isSome = true) : u'.committedAt.isSome = true := by
  cases h <;> first | exact hu | rfl

/-- What an update does, row by row. -/
theorem unit_update {p : SyncUnit → Bool} {f : SyncUnit → SyncUnit}
    {hid : ∀ r, (f r).id = r.id} {hkey : ∀ r, (f r).key = r.key} {s : Statement}
    (hf : ∀ u, p u = true → Rewrites now db s u (f u))
    (h : u' ∈ (db.updateUnits p f hid hkey).units.rows) :
    ∃ u ∈ db.units.rows, u' = u ∨ Rewrites now db s u u' := by
  obtain ⟨u, hu, rfl⟩ := List.mem_map.mp h
  refine ⟨u, hu, ?_⟩
  unfold Table.updated
  by_cases hp : p u = true
  · rw [if_pos hp]
    exact .inr (hf u hp)
  · rw [if_neg hp]
    exact .inl rfl

/-- The key of a unit, as a query spells it. -/
theorem eq_of_is {id : Uuid} {x : String} (h : u.is id x = true) :
    id = u.connectionID ∧ x = u.externalID := by
  simp only [SyncUnit.is, Bool.and_eq_true, decide_eq_true_eq] at h
  exact ⟨h.1.symm, h.2.symm⟩

/-- **A unit after a statement.** -/
theorem unit_exec (s : Statement) (h : u' ∈ (s.exec now db).2.units.rows) :
    (∃ u ∈ db.units.rows, u' = u ∨ Rewrites now db s u u') ∨
      ∃ id x name kind g, s = .upsertSyncUnit id x name kind g ∧
        (id, x) ∉ db.units.rows.map SyncUnit.key ∧
        u' = SyncUnit.discovered now id x name kind g db.units.next := by
  have hsame : s.writesUnits = false → ∃ u ∈ db.units.rows, u' = u ∨ Rewrites now db s u u' := by
    intro hs
    rw [units_exec now db hs] at h
    exact ⟨u', h, .inl rfl⟩
  cases s with
  | upsertSyncUnit id x name kind g =>
    rcases Table.mem_upsert h with ⟨u, hu, hkey, rfl⟩ | ⟨hmem, -⟩ | ⟨hnew, rfl⟩
    · obtain ⟨rfl, rfl⟩ : u.connectionID = id ∧ u.externalID = x := Prod.mk.inj hkey
      exact .inl ⟨u, hu, .inr (.mark u name kind g)⟩
    · exact .inl ⟨u', hmem, .inl rfl⟩
    · exact .inr ⟨id, x, name, kind, g, rfl, hnew, rfl⟩
  | setUnitTotal id x n =>
    refine .inl (unit_update (fun u hu => ?_) h)
    obtain ⟨rfl, rfl⟩ := eq_of_is hu
    exact .total u n
  | setUnitSelection id ids =>
    refine .inl (unit_update (fun u hu => ?_) h)
    obtain rfl : u.connectionID = id := of_decide_eq_true hu
    exact .selection u ids
  | setUnitStatus id x st =>
    refine .inl (unit_update (fun u hu => ?_) h)
    obtain ⟨rfl, rfl⟩ := eq_of_is hu
    exact .status u st
  | setUnitCursor id x cursor =>
    refine .inl (unit_update (fun u hu => ?_) h)
    obtain ⟨rfl, rfl⟩ := eq_of_is hu
    exact .cursor u cursor
  | commitUnit id x =>
    refine .inl (unit_update (fun u hu => ?_) h)
    obtain ⟨rfl, rfl⟩ := eq_of_is hu
    exact .commit u _
  | setUnitRetry id x e at_ =>
    refine .inl (unit_update (fun u hu => ?_) h)
    obtain ⟨rfl, rfl⟩ := eq_of_is hu
    exact .retry u e at_
  | clearUnitRetry id x =>
    refine .inl (unit_update (fun u hu => ?_) h)
    obtain ⟨rfl, rfl⟩ := eq_of_is hu
    exact .clear u
  | sweepUnseenUnits id g =>
    refine .inl (unit_update (fun u hu => ?_) h)
    simp only [Bool.and_eq_true, decide_eq_true_eq] at hu
    obtain ⟨⟨rfl, hg⟩, -⟩ := hu
    exact .sweep u g hg
  | startRun id =>
    refine .inl (unit_update (fun u hu => ?_) h)
    simp only [Bool.and_eq_true, decide_eq_true_eq, List.mem_cons, List.not_mem_nil,
      or_false] at hu
    obtain ⟨⟨rfl, hsel⟩, hst⟩ := hu
    exact .rearm u hsel hst
  | gcRemovedUnits id cutoff =>
    exact .inl ⟨u', (Table.mem_delete.mp h).1, .inl rfl⟩
  | commitArtifact p x cursor =>
    refine .inl ?_
    obtain ⟨u₁, hu₁, rfl⟩ := List.mem_map.mp h
    cases cursor with
    | none =>
      refine ⟨u₁, hu₁, ?_⟩
      unfold Table.updated
      by_cases hp : u₁.is p.connectionID x = true
      · rw [if_pos hp]
        obtain ⟨hid, rfl⟩ := eq_of_is hp
        exact .inr (.counted u₁ p none hid)
      · rw [if_neg hp]
        exact .inl rfl
    | some c =>
      -- the cursor is written first, then the count
      obtain ⟨u, hu, rfl⟩ := List.mem_map.mp hu₁
      refine ⟨u, hu, ?_⟩
      unfold Table.updated
      by_cases hp : u.is p.connectionID x = true
      · rw [if_pos hp]
        obtain ⟨hid, rfl⟩ := eq_of_is hp
        exact .inr (if_pos hp ▸ .counted u p (some c) hid)
      · rw [if_neg hp]
        exact .inl (if_neg hp)
  | _ => exact .inl (hsame rfl)

/-- The ids of the units are never used again. -/
theorem units_next_exec (s : Statement) : db.units.next ≤ (s.exec now db).2.units.next := by
  have hsame : s.writesUnits = false → db.units.next ≤ (s.exec now db).2.units.next := by
    intro hs
    rw [units_exec now db hs]
  cases s with
  | upsertSyncUnit id x name kind g =>
    show db.units.next ≤ (Table.upsert _ _ _ _ _ _).next
    unfold Table.upsert
    split
    · exact Nat.le_refl _
    · exact Nat.le_succ _
  | commitArtifact p x cursor =>
    cases cursor with
    | none => exact Nat.le_refl _
    | some c => exact Nat.le_refl _
  | seedAdmissionBucket k connectorID limit => exact hsame rfl
  | acquireAdmission k => exact hsame rfl
  | _ => exact Nat.le_refl _

end Hivebook
