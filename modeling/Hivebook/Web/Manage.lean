import Hivebook.Database.Catalog
import Hivebook.Server.Requests
import Hivebook.Service.Discovery

/-!
# The manage page of a source

The page shows the projects of a connection and lets the user choose which ones are synced.  What
is toggled is kept in a layer over the saved selection, and a save sends the whole selection:
`SetUnitSelection` deselects every unit that is not sent.  A project without an estimated total
cannot be toggled, and is not sent either, so a save deselects it.

## Main definitions

* `ManagePanel` — the state of the page, with `toggle`, `toggleAll` and `onSave`.
* `Database.savedSelection` — whether a unit is selected.
* `SavesToggles` — a save changes what was toggled and nothing else.
* `ManagePanel.Sendable` — what is to stay selected can be sent.

## Main results

* `savedSelection_setUnitSelection` — what the replacement of a selection leaves.
* `savesToggles_iff` — **a save changes only what was toggled exactly when everything that is to
  stay selected has an estimated total.**
* `savesToggles_iff_of_upToDate` — the same, for a list that shows what is saved.
* `connectorProjects_savesToggles` — the panel that the page mirrors changes only what was toggled.
-/

namespace Hivebook

namespace Database

/-- Whether a unit is selected, if there is one. -/
def savedSelection (connectionID : Uuid) (externalID : String) (db : Database) : Option Bool :=
  (db.units.rows.find? (SyncUnit.is connectionID externalID)).map SyncUnit.selected

theorem savedSelection_eq_some {connectionID : Uuid} {u : SyncUnit} {db : Database}
    (hu : u ∈ db.units.rows) (hc : u.connectionID = connectionID) :
    savedSelection connectionID u.externalID db = some u.selected := by
  have hkey : u.is connectionID u.externalID = true := by simp [SyncUnit.is, hc]
  have hfound : (db.units.rows.find? (SyncUnit.is connectionID u.externalID)).isSome = true :=
    List.find?_isSome.mpr ⟨u, hu, hkey⟩
  obtain ⟨u', hu'⟩ := Option.isSome_iff_exists.mp hfound
  have hsame : u' = u := by
    apply db.units.eq_of_key (List.mem_of_find?_eq_some hu') hu
    exact (is_iff.mp (List.find?_some hu')).trans (is_iff.mp hkey).symm
  simp [savedSelection, hu', hsame]

/-- A unit is selected afterwards exactly if it was sent. -/
theorem savedSelection_setUnitSelection (now : Time) (connectionID : Uuid)
    (selectedIDs : List String) (x : String) (db : Database) :
    savedSelection connectionID x (setUnitSelection now connectionID selectedIDs db) =
      (savedSelection connectionID x db).map fun _ => decide (x ∈ selectedIDs) := by
  unfold savedSelection setUnitSelection updateUnits Table.update
  rw [List.find?_map, Option.map_map, Option.map_map]
  have hkey : SyncUnit.is connectionID x ∘ Table.updated
      (fun u => decide (u.connectionID = connectionID)) (fun u : SyncUnit =>
        { u with selected := decide (u.externalID ∈ selectedIDs), updatedAt := now }) =
      SyncUnit.is connectionID x := by
    funext u
    simp only [Function.comp_apply, Table.updated]
    split <;> rfl
  rw [hkey]
  apply Option.map_congr
  intro u hu
  have hu' := is_iff.mp (List.find?_some hu)
  simp only [SyncUnit.key, Prod.mk.injEq] at hu'
  simp [Table.updated, hu'.1, hu'.2]

end Database

open Database
open Requests (ProtoProject toProtoProject)

/-! ### The page -/

/-- The calls of a save. -/
inductive SaveOp where
  | setProjectSelection (selectedIDs : List String)
  | updateSyncSchedule (enabled : Bool) (intervalSeconds : ℤ)
  deriving DecidableEq, Repr

/-- The state of `ManagePanel`. -/
structure ManagePanel where
  onboarded : Bool
  /-- The saved schedule. -/
  autoSyncEnabled : Bool
  syncIntervalSeconds : ℤ
  /-- The last snapshot of the stream of projects. -/
  streamed : Option (List ProtoProject)
  /-- The seed that is fetched first. -/
  discovered : Option (List ProtoProject)
  query : String
  searchResults : Option (List ProtoProject)
  /-- The unsaved toggles, over the saved selection. -/
  pending : String → Option Bool
  /-- The unsaved schedule. -/
  schedEnabled : Bool
  schedInterval : ℤ

namespace ManagePanel

/-- The full set, which a save reckons over. -/
def allProjects (m : ManagePanel) : List ProtoProject := (m.streamed <|> m.discovered).getD []

/-- The set that is shown: the results of a search, while there is one. -/
def projects (m : ManagePanel) : List ProtoProject :=
  if m.query = "" then m.allProjects else m.searchResults.getD m.allProjects

/-- `isSelectable`: a project without an estimated total is disabled. -/
def isSelectable (p : ProtoProject) : Bool := decide (0 < p.totalEstimate)

/-- `isSelected`. -/
def isSelected (m : ManagePanel) (p : ProtoProject) : Bool := (m.pending p.id).getD p.selected

/-- The shown projects that can be selected. -/
def selectable (m : ManagePanel) : List ProtoProject := m.projects.filter isSelectable

/-- `selectionDirty`. -/
def selectionDirty (m : ManagePanel) : Bool :=
  m.allProjects.any fun p => isSelectable p && (m.pending p.id).any fun b => decide (b ≠ p.selected)

/-- `scheduleDirty`. -/
def scheduleDirty (m : ManagePanel) : Bool :=
  decide (m.schedEnabled ≠ m.autoSyncEnabled) || decide (m.schedInterval ≠ m.syncIntervalSeconds)

/-- `allSelected`. -/
def allSelected (m : ManagePanel) : Bool :=
  decide (0 < m.selectable.length) &&
    decide ((m.selectable.filter m.isSelected).length = m.selectable.length)

/-- `toggle`. -/
def toggle (m : ManagePanel) (id : String) (checked : Bool) : ManagePanel :=
  { m with pending := Function.update m.pending id (some checked) }

/-- `toggleAll`: every shown project that can be selected. -/
def toggleAll (m : ManagePanel) : ManagePanel :=
  { m with pending := fun id =>
      if id ∈ m.selectable.map ProtoProject.id then some (!m.allSelected) else m.pending id }

/-- The selection a save sends. -/
def selectedIDs (m : ManagePanel) : List String :=
  ((m.allProjects.filter isSelectable).filter m.isSelected).map ProtoProject.id

/-- `onSave`: the calls it makes.  The first save always sends the selection. -/
def onSave (m : ManagePanel) : List SaveOp :=
  (if !m.onboarded || m.selectionDirty then [.setProjectSelection m.selectedIDs] else []) ++
    if m.scheduleDirty then [.updateSyncSchedule m.schedEnabled m.schedInterval] else []

/-- What is to stay selected can be sent: a project that was toggled on has an estimated total, and
one that was not toggled is selected exactly if it is shown so and has one. -/
def Sendable (m : ManagePanel) (connectionID : Uuid) (db : Database) : Prop :=
  ∀ p ∈ m.allProjects, ∀ saved, savedSelection connectionID p.id db = some saved →
    (m.pending p.id = some true → isSelectable p = true) ∧
      (m.pending p.id = none → saved = (p.selected && isSelectable p))

instance (m : ManagePanel) (connectionID : Uuid) (db : Database) :
    Decidable (m.Sendable connectionID db) :=
  inferInstanceAs (Decidable (∀ p ∈ m.allProjects, ∀ saved,
    savedSelection connectionID p.id db = some saved →
    (m.pending p.id = some true → isSelectable p = true) ∧
      (m.pending p.id = none → saved = (p.selected && isSelectable p))))

/-- The list shows what is saved. -/
structure UpToDate (m : ManagePanel) (connectionID : Uuid) (db : Database) : Prop where
  nodup : (m.allProjects.map ProtoProject.id).Nodup
  saved : ∀ p ∈ m.allProjects, savedSelection connectionID p.id db = some p.selected

end ManagePanel

/-- A save of this selection leaves every listed unit as it was toggled, and the others as they
were. -/
def SavesToggles (m : ManagePanel) (now : Time) (connectionID : Uuid) (selectedIDs : List String)
    (db : Database) : Prop :=
  ∀ p ∈ m.allProjects,
    savedSelection connectionID p.id (setUnitSelection now connectionID selectedIDs db) =
      (savedSelection connectionID p.id db).map fun saved => (m.pending p.id).getD saved

instance (m : ManagePanel) (now : Time) (connectionID : Uuid) (selectedIDs : List String)
    (db : Database) : Decidable (SavesToggles m now connectionID selectedIDs db) :=
  inferInstanceAs (Decidable (∀ p ∈ m.allProjects,
    savedSelection connectionID p.id (setUnitSelection now connectionID selectedIDs db) =
      (savedSelection connectionID p.id db).map fun saved => (m.pending p.id).getD saved))

variable {m : ManagePanel} {now : Time} {connectionID : Uuid} {ids : List String} {db : Database}

/-! ### What is sent -/

theorem of_mem_onSave (h : SaveOp.setProjectSelection ids ∈ m.onSave) : ids = m.selectedIDs := by
  unfold ManagePanel.onSave at h
  obtain h | h := List.mem_append.mp h
  · split at h
    · simpa using h
    · cases h
  · split at h
    · simp at h
    · cases h

/-- A project of the list is sent exactly if it can be selected and is. -/
theorem mem_selectedIDs (hnodup : (m.allProjects.map ProtoProject.id).Nodup) {p : ProtoProject}
    (hp : p ∈ m.allProjects) :
    p.id ∈ m.selectedIDs ↔ ManagePanel.isSelectable p = true ∧ m.isSelected p = true := by
  unfold ManagePanel.selectedIDs
  simp only [List.mem_map, List.mem_filter]
  constructor
  · rintro ⟨p', ⟨⟨hp', hselectable⟩, hselected⟩, hid⟩
    obtain rfl := List.inj_on_of_nodup_map hnodup hp' hp hid
    exact ⟨hselectable, hselected⟩
  · rintro ⟨hselectable, hselected⟩
    exact ⟨p, ⟨⟨hp, hselectable⟩, hselected⟩, rfl⟩

/-! ### What a save changes -/

/-- After a save a listed project is selected exactly if it can be selected and is. -/
theorem savedSelection_save (hnodup : (m.allProjects.map ProtoProject.id).Nodup)
    (hsend : SaveOp.setProjectSelection ids ∈ m.onSave) (now : Time) (connectionID : Uuid)
    (db : Database) {p : ProtoProject} (hp : p ∈ m.allProjects) :
    savedSelection connectionID p.id (setUnitSelection now connectionID ids db) =
      (savedSelection connectionID p.id db).map fun _ =>
        ManagePanel.isSelectable p && m.isSelected p := by
  have hsent : decide (p.id ∈ ids) = (ManagePanel.isSelectable p && m.isSelected p) := by
    rw [of_mem_onSave hsend, Bool.eq_iff_iff, decide_eq_true_eq, Bool.and_eq_true]
    exact mem_selectedIDs hnodup hp
  rw [savedSelection_setUnitSelection, hsent]

/-- A save changes what was toggled and nothing else exactly when everything that is to stay
selected has an estimated total. -/
theorem savesToggles_iff (hnodup : (m.allProjects.map ProtoProject.id).Nodup)
    (hsend : SaveOp.setProjectSelection ids ∈ m.onSave) (now : Time) (connectionID : Uuid)
    (db : Database) :
    SavesToggles m now connectionID ids db ↔ m.Sendable connectionID db := by
  apply forall₂_congr
  intro p hp
  rw [savedSelection_save hnodup hsend now connectionID db hp]
  unfold ManagePanel.isSelected
  cases savedSelection connectionID p.id db with
  | none => simp
  | some saved =>
    -- a project that was toggled on must be selectable; one that was not toggled, shown as saved
    cases m.pending p.id with
    | none =>
      simp only [Option.map_some, Option.some.injEq, Option.getD_none, forall_eq', reduceCtorEq,
        false_implies, true_and, forall_const]
      rw [Bool.and_comm]
      exact eq_comm
    | some toggled =>
      simp only [Option.map_some, Option.some.injEq, Option.getD_some, forall_eq']
      cases toggled <;> simp

/-- For a list that shows what is saved: exactly when every project that the page has as selected
has an estimated total. -/
theorem savesToggles_iff_of_upToDate (hlist : m.UpToDate connectionID db)
    (hsend : SaveOp.setProjectSelection ids ∈ m.onSave) (now : Time) :
    SavesToggles m now connectionID ids db ↔
      ∀ p ∈ m.allProjects, m.isSelected p = true → ManagePanel.isSelectable p = true := by
  apply forall₂_congr
  intro p hp
  rw [savedSelection_save hlist.nodup hsend now connectionID db hp, hlist.saved p hp]
  simp only [Option.map_some, Option.some.injEq]
  change (ManagePanel.isSelectable p && m.isSelected p) = m.isSelected p ↔ _
  cases ManagePanel.isSelectable p <;> cases m.isSelected p <;> simp

/-- The list of `ListProjects` shows what is saved. -/
theorem upToDate_listSyncUnits {lower : String → String} {tenantID : String}
    {at? : SyncUnit → Option Time} (hlist : m.allProjects =
      (listSyncUnits lower connectionID tenantID "" db).map fun u => toProtoProject (u, at? u)) :
    m.UpToDate connectionID db := by
  have hmem : ∀ u ∈ listSyncUnits lower connectionID tenantID "" db,
      u ∈ db.units.rows ∧ u.connectionID = connectionID := by
    intro u hu
    obtain ⟨hrow, hp⟩ := List.mem_filter.mp ((List.mem_insertionSort _).mp hu)
    simp only [Bool.and_eq_true, decide_eq_true_eq] at hp
    exact ⟨hrow, hp.1.1⟩
  have hnodup : (listSyncUnits lower connectionID tenantID "" db).Nodup := by
    unfold listSyncUnits
    rw [(List.perm_insertionSort _ _).nodup_iff]
    exact db.units.nodup_id.of_map.filter _
  constructor
  · rw [hlist, List.map_map]
    apply (List.nodup_map_iff_inj_on hnodup).mpr
    intro u hu u' hu' heq
    apply db.units.eq_of_key (hmem u hu).1 (hmem u' hu').1
    exact Prod.ext ((hmem u hu).2.trans (hmem u' hu').2.symm) heq
  · intro p hp
    rw [hlist] at hp
    obtain ⟨u, hu, rfl⟩ := List.mem_map.mp hp
    exact savedSelection_eq_some (hmem u hu).1 (hmem u hu).2

/-! ### The settings panel of a connector -/

/-- The selection that `ConnectorProjects` sends, the panel the page mirrors: every project that is
selected. -/
def ConnectorProjects.selectedIDs (projects : List ProtoProject) (pending : String → Option Bool) :
    List String :=
  (projects.filter fun p => (pending p.id).getD p.selected).map ProtoProject.id

/-- The panel changes only what was toggled, whatever the totals. -/
theorem connectorProjects_savesToggles (hlist : m.UpToDate connectionID db) (now : Time) :
    SavesToggles m now connectionID (ConnectorProjects.selectedIDs m.allProjects m.pending) db := by
  intro p hp
  have hsent : decide (p.id ∈ ConnectorProjects.selectedIDs m.allProjects m.pending) =
      (m.pending p.id).getD p.selected := by
    rw [Bool.eq_iff_iff, decide_eq_true_eq]
    unfold ConnectorProjects.selectedIDs
    simp only [List.mem_map, List.mem_filter]
    constructor
    · rintro ⟨p', ⟨hp', hselected⟩, hid⟩
      obtain rfl := List.inj_on_of_nodup_map hlist.nodup hp' hp hid
      exact hselected
    · intro hselected
      exact ⟨p, ⟨hp, hselected⟩, rfl⟩
  rw [savedSelection_setUnitSelection, hsent, hlist.saved p hp]
  rfl

/-! ### A project that has no total any more -/

/-- Two repositories: one is selected and has no estimated total, the other one is not selected. -/
def totalGone : Database :=
  setUnitTotal 0 0 "ann/b" 5 (setUnitSelection 0 0 ["ann/a"]
    (sawRepo 1 "ann/b" (sawRepo 1 "ann/a" emptyAccount)))

/-- Ann's page, with the second one toggled on. -/
def secondToggled (db : Database) : ManagePanel :=
  ManagePanel.toggle
    { onboarded := true, autoSyncEnabled := true, syncIntervalSeconds := 3600
      streamed := none
      discovered := some ((listSyncUnits id 0 "acme" "" db).map fun u => toProtoProject (u, none))
      query := "", searchResults := none, pending := fun _ => none
      schedEnabled := true, schedInterval := 3600 } "ann/b" true

/-- **The save deselects the first one, which nobody has toggled.** -/
theorem untoggled_deselected :
    (secondToggled totalGone).onSave = [.setProjectSelection ["ann/b"]] ∧
      (secondToggled totalGone).pending "ann/a" = none ∧
      savedSelection 0 "ann/a" totalGone = some true ∧
      savedSelection 0 "ann/a" (setUnitSelection 9 0 ["ann/b"] totalGone) = some false ∧
      ¬ SavesToggles (secondToggled totalGone) 9 0 ["ann/b"] totalGone := by
  decide +kernel

/-- With a total it stays selected. -/
theorem untoggled_kept : SavesToggles (secondToggled (setUnitTotal 1 0 "ann/a" 3 totalGone)) 9 0
    ["ann/a", "ann/b"] (setUnitTotal 1 0 "ann/a" 3 totalGone) :=
  (savesToggles_iff (by decide +kernel) (by decide +kernel) 9 0 _).mpr (by decide +kernel)

end Hivebook
