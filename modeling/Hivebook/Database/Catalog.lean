import Hivebook.Database.Manifest

/-!
# What a statement does to the catalog of units

Discovery looks at two columns of a unit, its status and its generation.  This file
follows them, unit by unit: a mark stamps a generation and leaves the status alone, the
sweep tombstones the units of an older generation, and most statements touch neither.

## Main definitions

* `Database.entry db id x` — the status and the generation of a unit, if there is one.
* `Statement.keepsCatalog` — the statements that touch neither.

## Main results

* `entry_upsertSyncUnit`, `entry_sweepUnseenUnits`, `entry_exec` — **an entry after a
  mark, after a sweep, and after any other statement of a discovery.**
* `generation_le_max` — no unit is of a later generation than `MaxUnitGeneration`.
-/

namespace Hivebook

open Database

namespace Database

/-- The status and the generation of a unit. -/
def entry (db : Database) (connectionID : Uuid) (externalID : String) : Option (UnitStatus × ℤ) :=
  (db.units.rows.find? (SyncUnit.is connectionID externalID)).map fun u => (u.status, u.generation)

/-- The connection has the unit, and it is not tombstoned. -/
def hasLiveUnit (db : Database) (connectionID : Uuid) (externalID : String) : Prop :=
  ∃ st g, db.entry connectionID externalID = some (st, g) ∧ st ≠ .removed

/-- The connection has the unit as a tombstone. -/
def hasTombstone (db : Database) (connectionID : Uuid) (externalID : String) : Prop :=
  ∃ g, db.entry connectionID externalID = some (.removed, g)

end Database

theorem is_iff {connectionID : Uuid} {externalID : String} {u : SyncUnit} :
    u.is connectionID externalID = true ↔ u.key = (connectionID, externalID) := by
  simp [SyncUnit.is, SyncUnit.key]

variable {db : Database} {id : Uuid} {x : String}

/-- A unit of the key satisfies a condition. -/
theorem hasUnit_iff {p : SyncUnit → Bool} :
    db.hasUnit id p x = true ↔ ∃ u ∈ db.units.rows, u.key = (id, x) ∧ p u = true := by
  simp only [Database.hasUnit, List.any_eq_true, Bool.and_eq_true, is_iff]

/-- A unit is found under its key. -/
theorem entry_eq_some {st : UnitStatus} {g : ℤ} : db.entry id x = some (st, g) ↔
    ∃ u ∈ db.units.rows, u.key = (id, x) ∧ u.status = st ∧ u.generation = g := by
  unfold Database.entry
  rw [Option.map_eq_some_iff]
  constructor
  · rintro ⟨u, hu, heq⟩
    cases heq
    exact ⟨u, List.mem_of_find?_eq_some hu, is_iff.mp (List.find?_some hu), rfl, rfl⟩
  · rintro ⟨u, hu, hkey, rfl, rfl⟩
    have hfound : (db.units.rows.find? (SyncUnit.is id x)).isSome = true :=
      List.find?_isSome.mpr ⟨u, hu, is_iff.mpr hkey⟩
    obtain ⟨u', hu'⟩ := Option.isSome_iff_exists.mp hfound
    refine ⟨u', hu', ?_⟩
    have hkey' := is_iff.mp (List.find?_some hu')
    rw [db.units.eq_of_key (List.mem_of_find?_eq_some hu') hu (hkey'.trans hkey.symm)]

/-- The live units, as a query finds them. -/
theorem hasLiveUnit_iff : db.hasLiveUnit id x ↔
    ∃ u ∈ db.units.rows, u.key = (id, x) ∧ u.status ≠ .removed := by
  constructor
  · rintro ⟨st, g, hentry, hst⟩
    obtain ⟨u, hu, hkey, rfl, -⟩ := entry_eq_some.mp hentry
    exact ⟨u, hu, hkey, hst⟩
  · rintro ⟨u, hu, hkey, hst⟩
    exact ⟨u.status, u.generation, entry_eq_some.mpr ⟨u, hu, hkey, rfl, rfl⟩, hst⟩

theorem hasTombstone_iff : db.hasTombstone id x ↔
    ∃ u ∈ db.units.rows, u.key = (id, x) ∧ u.status = .removed := by
  constructor
  · rintro ⟨g, hentry⟩
    obtain ⟨u, hu, hkey, hst, -⟩ := entry_eq_some.mp hentry
    exact ⟨u, hu, hkey, hst⟩
  · rintro ⟨u, hu, hkey, hst⟩
    exact ⟨u.generation, entry_eq_some.mpr ⟨u, hu, hkey, hst, rfl⟩⟩

/-- **No unit is of a later generation than the greatest.** -/
theorem generation_le_max {st : UnitStatus} {g : ℤ} (h : db.entry id x = some (st, g)) :
    g ≤ maxUnitGeneration id db := by
  obtain ⟨u, hu, hkey, -, rfl⟩ := entry_eq_some.mp h
  have hmem : u.generation ∈ (db.units.rows.filter fun u => decide (u.connectionID = id)).map
      SyncUnit.generation := by
    refine List.mem_map_of_mem (List.mem_filter.mpr ⟨hu, ?_⟩)
    exact decide_eq_true (congrArg Prod.fst hkey)
  unfold maxUnitGeneration
  revert hmem
  generalize (db.units.rows.filter fun u => decide (u.connectionID = id)).map
    SyncUnit.generation = gs
  intro hmem
  have hfold : ∀ (gs : List ℤ) (m : ℤ), m ≤ gs.foldl max m ∧ ∀ g ∈ gs, g ≤ gs.foldl max m := by
    intro gs
    induction gs with
    | nil => simp
    | cons g gs ih =>
      intro m
      obtain ⟨hm, hgs⟩ := ih (max m g)
      rw [List.foldl_cons]
      refine ⟨le_trans (le_max_left m g) hm, fun g' hg' => ?_⟩
      rcases List.mem_cons.mp hg' with rfl | hg'
      · exact le_trans (le_max_right m g') hm
      · exact hgs g' hg'
  cases gs with
  | nil => cases hmem
  | cons g gs =>
    rcases List.mem_cons.mp hmem with hfirst | hrest
    · rw [hfirst]
      exact (hfold gs g).1
    · exact (hfold gs g).2 _ hrest

/-! ### Marks and sweeps -/

/-- After an update a unit is found where it was. -/
theorem find_updated {rows : List SyncUnit} (p : SyncUnit → Bool) {f : SyncUnit → SyncUnit}
    (hkey : ∀ r, (f r).key = r.key) : (rows.map (Table.updated p f)).find? (SyncUnit.is id x) =
      (rows.find? (SyncUnit.is id x)).map (Table.updated p f) := by
  rw [List.find?_map]
  congr 2
  funext u
  have hsame : (Table.updated p f u).key = u.key := by
    unfold Table.updated
    split
    · exact hkey u
    · rfl
  rw [Function.comp, Bool.eq_iff_iff, is_iff, is_iff, hsame]

/-- An update that touches neither column leaves every entry alone. -/
theorem entry_updateUnits {p : SyncUnit → Bool} {f : SyncUnit → SyncUnit}
    {hid : ∀ r, (f r).id = r.id} {hkey : ∀ r, (f r).key = r.key}
    (hf : ∀ u, (f u).status = u.status ∧ (f u).generation = u.generation) :
    (db.updateUnits p f hid hkey).entry id x = db.entry id x := by
  show ((db.units.rows.map (Table.updated p f)).find? (SyncUnit.is id x)).map _ = _
  rw [find_updated p hkey, Option.map_map]
  unfold Database.entry
  congr 1
  funext u
  rw [Function.comp]
  unfold Table.updated
  split
  · rw [(hf u).1, (hf u).2]
  · rfl

/-- **A mark stamps the generation of its unit**, which keeps its status; a new one is
idle. -/
theorem entry_upsertSyncUnit (now : Time) (id' : Uuid) (y name kind : String) (g : ℤ) :
    (upsertSyncUnit now id' y name kind g db).entry id x =
      if (id', y) = (id, x) then some (((db.entry id x).map Prod.fst).getD .idle, g)
      else db.entry id x := by
  -- the upsert updates the row of its key, or else inserts one
  by_cases hk : (id', y) ∈ db.units.rows.map SyncUnit.key
  · have hupdate : (upsertSyncUnit now id' y name kind g db).units.rows =
        db.units.rows.map (Table.updated (fun u => decide (u.key = (id', y))) fun u =>
          { u with name, kind, generation := g, lastSeenAt := some now, updatedAt := now }) :=
      congrArg Table.rows (dif_pos hk)
    unfold Database.entry
    rw [hupdate, find_updated, Option.map_map]
    swap
    · exact fun _ => rfl
    cases hfind : db.units.rows.find? (SyncUnit.is id x) with
    | none =>
      by_cases heq : (id', y) = (id, x)
      · obtain ⟨u, hu, hkey⟩ := List.mem_map.mp hk
        have hno := List.find?_eq_none.mp hfind u hu
        exact absurd (is_iff.mpr (hkey.trans heq)) hno
      · rw [if_neg heq]
        rfl
    | some u =>
      have hkey := is_iff.mp (List.find?_some hfind)
      show some _ = if _ then some _ else some _
      unfold Table.updated
      by_cases heq : (id', y) = (id, x)
      · rw [if_pos heq, Function.comp, if_pos (decide_eq_true (hkey.trans heq.symm))]
        rfl
      · have hne : u.key ≠ (id', y) := fun h => heq (h.symm.trans hkey)
        rw [if_neg heq, Function.comp, if_neg (by simpa using hne)]
  · have hinsert : (upsertSyncUnit now id' y name kind g db).units.rows = db.units.rows ++
        [{ id := db.units.next, connectionID := id', externalID := y, name, kind,
           selected := false, cursor := "", status := .idle, generation := g,
           lastSeenAt := some now, lastError := "", nextRetryAt := none, committedAt := none,
           artifactCount := 0, totalEstimate := 0, updatedAt := now }] :=
      congrArg Table.rows (dif_neg hk)
    unfold Database.entry
    rw [hinsert, List.find?_append]
    by_cases heq : (id', y) = (id, x)
    · have hnone : db.units.rows.find? (SyncUnit.is id x) = none := by
        refine List.find?_eq_none.mpr fun u hu his => hk ?_
        exact List.mem_map.mpr ⟨u, hu, (is_iff.mp his).trans heq.symm⟩
      obtain ⟨rfl, rfl⟩ := Prod.mk.inj heq
      rw [if_pos rfl, hnone]
      simp [SyncUnit.is]
    · rw [if_neg heq]
      have hnew : ¬ (id' = id ∧ y = x) := fun h => heq (by rw [h.1, h.2])
      simp [SyncUnit.is, hnew]

/-- **A sweep tombstones the unit if it is of an older generation.** -/
theorem entry_sweepUnseenUnits (now : Time) (id' : Uuid) (g : ℤ) :
    (sweepUnseenUnits now id' g db).2.entry id x =
      (db.entry id x).map fun e => if id' = id ∧ e.2 < g then (.removed, e.2) else e := by
  have hrows : (sweepUnseenUnits now id' g db).2.units.rows = db.units.rows.map
      (Table.updated (fun u => decide (u.connectionID = id') && decide (u.generation < g) &&
        decide (u.status ≠ .removed)) fun u => { u with status := .removed, updatedAt := now }) :=
    rfl
  unfold Database.entry
  rw [hrows, find_updated, Option.map_map, Option.map_map]
  swap
  · exact fun _ => rfl
  refine Option.map_congr fun u hu => ?_
  have hkey := is_iff.mp (List.find?_some hu)
  have hid : u.connectionID = id := congrArg Prod.fst hkey
  show ((Table.updated _ _ u).status, (Table.updated _ _ u).generation) =
    if id' = id ∧ u.generation < g then (.removed, u.generation) else (u.status, u.generation)
  unfold Table.updated
  by_cases hold : id' = id ∧ u.generation < g
  · rw [if_pos hold]
    by_cases hst : u.status = .removed
    · rw [if_neg (by simp [hst]), hst]
    · rw [if_pos (by simp [hid, hold.1, hold.2, hst])]
  · rw [if_neg hold, if_neg]
    intro hp
    simp only [Bool.and_eq_true, decide_eq_true_eq] at hp
    exact hold ⟨hp.1.1.symm.trans hid, hp.1.2⟩

/-- A statement that touches neither the status nor the generation of a unit. -/
def Statement.keepsCatalog : Statement → Bool
  | .upsertSyncUnit _ _ _ _ _ | .setUnitStatus _ _ _ | .commitUnit _ _ | .setUnitRetry _ _ _ _
  | .sweepUnseenUnits _ _ | .gcRemovedUnits _ _ | .startRun _ => false
  | _ => true

/-- **Any other statement of a discovery leaves every entry alone.** -/
theorem entry_exec {s : Statement} (h : s.keepsCatalog = true) (now : Time) :
    (s.exec now db).2.entry id x = db.entry id x := by
  have hsame : ∀ db' : Database, db'.units = db.units → db'.entry id x = db.entry id x := by
    intro db' heq
    unfold Database.entry
    rw [heq]
  cases s with
  | setUnitTotal id' y total => exact entry_updateUnits fun u => ⟨rfl, rfl⟩
  | setUnitSelection id' selected => exact entry_updateUnits fun u => ⟨rfl, rfl⟩
  | setUnitCursor id' y cursor => exact entry_updateUnits fun u => ⟨rfl, rfl⟩
  | clearUnitRetry id' y => exact entry_updateUnits fun u => ⟨rfl, rfl⟩
  | commitArtifact p unitID cursor =>
    refine Eq.trans (entry_updateUnits fun u => ⟨rfl, rfl⟩) ?_
    cases cursor with
    | none => exact hsame _ rfl
    | some c => exact Eq.trans (entry_updateUnits fun u => ⟨rfl, rfl⟩) (hsame _ rfl)
  | _ => first | exact hsame _ (units_exec now db rfl) | cases h

end Hivebook
