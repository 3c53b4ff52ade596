import Hivebook.Lib.TwoRuns
import Hivebook.Service.Tenancy
import Hivebook.Service.Visibility

/-!
# The tenants are isolated

A request sees what its tenant holds, and nothing else.  Run in two sites in which its tenant
holds the same, by the same turns of the environment, it issues the same commands, answers the
same, and leaves its tenant with the same; it leaves alone what any other tenant holds, and it
signals its own tenant's workflows only.

## Main definitions

* `Holdings`, `Site.holdings` — what a tenant holds.
* `Scoped` — what a statement of a request does to two databases at once.
* `Twins` — two sites that a request of a tenant cannot tell apart.

## Main results

* `scoped_exec` — a statement in scope does the same to what its tenant holds, and touches
  nothing else.
* `tenant_isolation` — **the requests of a tenant depend on what it holds and touch nothing
  else, in every state that requests and jobs can reach.**
-/

namespace Hivebook

open Database

/-! ### What a tenant holds -/

namespace Database

/-- The units of a tenant's connections. -/
def tenantUnits (db : Database) (t : String) : List SyncUnit :=
  db.units.rows.filter fun u => db.owns t u.connectionID

/-- The artifacts of a tenant. -/
def tenantArtifacts (db : Database) (t : String) : List RawArtifact :=
  db.artifacts.rows.filter fun r => decide (r.tenantID = t)

end Database

/-- What a tenant holds: its rows with all their columns, and the objects of its artifacts. -/
structure Holdings where
  connections : List (Connection × SyncSchedule)
  units : List (SyncUnit × Option Time)
  artifacts : List (RawArtifact × Except Err (Bytes × String))

/-- What a tenant holds at a site. -/
def Site.holdings (w : Site) (t : String) : Holdings where
  connections := (w.world.db.tenantConnections t).map fun c => (c, w.schedules c.id)
  units := (w.world.db.tenantUnits t).map fun u => (u, w.estimatedAt u.id)
  artifacts := (w.world.db.tenantArtifacts t).map fun r =>
    (r, Storage.get r.objectKey w.world.objects)

/-- What a tenant holds is the same at two sites, column by column. -/
structure Alike (t : String) (w w' : Site) : Prop where
  connections : w'.world.db.tenantConnections t = w.world.db.tenantConnections t
  schedules : ∀ c ∈ w.world.db.tenantConnections t, w'.schedules c.id = w.schedules c.id
  units : w'.world.db.tenantUnits t = w.world.db.tenantUnits t
  estimated : ∀ u ∈ w.world.db.tenantUnits t, w'.estimatedAt u.id = w.estimatedAt u.id
  artifacts : w'.world.db.tenantArtifacts t = w.world.db.tenantArtifacts t
  contents : ∀ r ∈ w.world.db.tenantArtifacts t,
    Storage.get r.objectKey w'.world.objects = Storage.get r.objectKey w.world.objects

theorem map_pair_eq_iff {α β : Type} {l l' : List α} {f g : α → β} :
    l'.map (fun a => (a, g a)) = l.map (fun a => (a, f a)) ↔ l' = l ∧ ∀ a ∈ l, g a = f a := by
  constructor
  · intro h
    have hl : l' = l := by
      have hfst := congrArg (List.map Prod.fst) h
      simpa only [List.map_map, Function.comp_def, List.map_id'] using hfst
    subst hl
    refine ⟨rfl, fun a ha => ?_⟩
    exact (Prod.mk.inj (List.map_inj_left.mp h a ha)).2
  · rintro ⟨rfl, h⟩
    exact List.map_congr_left fun a ha => by rw [h a ha]

theorem alike_iff {t : String} {w w' : Site} : Alike t w w' ↔ w'.holdings t = w.holdings t := by
  unfold Site.holdings
  rw [Holdings.mk.injEq, map_pair_eq_iff, map_pair_eq_iff, map_pair_eq_iff]
  constructor
  · rintro ⟨hc, hs, hu, he, ha, ho⟩
    exact ⟨⟨hc, hs⟩, ⟨hu, he⟩, ⟨ha, ho⟩⟩
  · rintro ⟨⟨hc, hs⟩, ⟨hu, he⟩, ⟨ha, ho⟩⟩
    exact ⟨hc, hs, hu, he, ha, ho⟩

/-! ### Updates of a part of a table -/

section Update

variable {α : Type} {p q : α → Bool} {f : α → α}

/-- An update that keeps which rows are selected updates the selected rows. -/
theorem filter_map_updated (hq : ∀ r, q (f r) = q r) (rows : List α) :
    (rows.map (Table.updated p f)).filter q = (rows.filter q).map (Table.updated p f) := by
  rw [List.filter_map]
  congr 1
  refine List.filter_congr fun r _ => ?_
  show q (Table.updated p f r) = q r
  unfold Table.updated
  by_cases hp : p r = true
  · rw [if_pos hp, hq]
  · rw [if_neg hp]

/-- An update that hits no row of a list leaves it. -/
theorem map_updated_eq_self {rows : List α} (h : ∀ r ∈ rows, p r ≠ true) :
    rows.map (Table.updated p f) = rows := by
  conv_rhs => rw [← List.map_id rows]
  refine List.map_congr_left fun r hr => ?_
  unfold Table.updated
  rw [if_neg (h r hr), id]

/-- Two updates that hit the same rows of a list do the same to it. -/
theorem map_updated_congr {p' : α → Bool} {rows : List α} (h : ∀ r ∈ rows, p' r = p r) :
    rows.map (Table.updated p' f) = rows.map (Table.updated p f) := by
  refine List.map_congr_left fun r hr => ?_
  unfold Table.updated
  rw [h r hr]

end Update

section Statements

variable {db : Database} {t : String}

theorem mem_tenantConnections {c : Connection} :
    c ∈ db.tenantConnections t ↔ c ∈ db.connections.rows ∧ c.tenantID = t := by
  simp [tenantConnections]

theorem mem_tenantUnits {u : SyncUnit} :
    u ∈ db.tenantUnits t ↔ u ∈ db.units.rows ∧ db.owns t u.connectionID = true := by
  simp [tenantUnits]

theorem mem_tenantArtifacts {r : RawArtifact} :
    r ∈ db.tenantArtifacts t ↔ r ∈ db.artifacts.rows ∧ r.tenantID = t := by
  simp [tenantArtifacts]

/-- Which connections are the tenant's is seen among its own. -/
theorem owns_eq (db : Database) (t : String) (id : Uuid) :
    db.owns t id = (db.tenantConnections t).any fun c => decide (c.id = id) := by
  unfold owns tenantConnections
  rw [List.any_filter]
  congr 1
  funext c
  exact Bool.and_comm _ _

variable {hit : Connection → Bool} {f : Connection → Connection} {hid : ∀ r, (f r).id = r.id}
  {hkey : ∀ r, (f r).key = r.key}

theorem tenantConnections_update : (db.updateConnections hit f hid hkey).tenantConnections t =
    (db.tenantConnections t).map (Table.updated hit f) := by
  refine filter_map_updated (fun c => ?_) _
  have htenant : (f c).tenantID = c.tenantID := congrArg Prod.fst (hkey c)
  rw [htenant]

theorem owns_update (id : Uuid) :
    (db.updateConnections hit f hid hkey).owns t id = db.owns t id := by
  rw [owns_eq, owns_eq, tenantConnections_update, List.any_map]
  congr 1
  funext c
  show decide ((Table.updated hit f c).id = id) = decide (c.id = id)
  unfold Table.updated
  by_cases hp : hit c = true
  · rw [if_pos hp, hid]
  · rw [if_neg hp]

theorem tenantUnits_updateConnections :
    (db.updateConnections hit f hid hkey).tenantUnits t = db.tenantUnits t := by
  unfold tenantUnits
  exact List.filter_congr fun u _ => owns_update u.connectionID

theorem tenantUnits_update {hit : SyncUnit → Bool} {f : SyncUnit → SyncUnit}
    {hid : ∀ r, (f r).id = r.id} {hkey : ∀ r, (f r).key = r.key} :
    (db.updateUnits hit f hid hkey).tenantUnits t =
      (db.tenantUnits t).map (Table.updated hit f) := by
  refine filter_map_updated (fun u => ?_) _
  have hconn : (f u).connectionID = u.connectionID := congrArg Prod.fst (hkey u)
  show db.owns t (f u).connectionID = db.owns t u.connectionID
  rw [hconn]

theorem tenantArtifacts_update {hit : RawArtifact → Bool} {f : RawArtifact → RawArtifact}
    {hid : ∀ r, (f r).id = r.id} {hkey : ∀ r, (f r).key = r.key}
    (htenant : ∀ r, (f r).tenantID = r.tenantID) :
    (db.updateArtifacts hit f hid hkey).tenantArtifacts t =
      (db.tenantArtifacts t).map (Table.updated hit f) :=
  filter_map_updated (fun r => by rw [htenant]) _

end Statements

/-- What a statement of a request does to two databases: it updates the same rows of its tenant,
in the same way, and no others. -/
inductive Scoped (t : String) (db db' : Database) : Database → Database → Prop
  | same : Scoped t db db' db db'
  | connections {hit : Connection → Bool} {f : Connection → Connection}
      {hid : ∀ r, (f r).id = r.id} {hkey : ∀ r, (f r).key = r.key}
      (h : ∀ c ∈ db.connections.rows, hit c = true → c.tenantID = t) :
      Scoped t db db' (db.updateConnections hit f hid hkey) (db'.updateConnections hit f hid hkey)
  | units {hit : SyncUnit → Bool} {f : SyncUnit → SyncUnit}
      {hid : ∀ r, (f r).id = r.id} {hkey : ∀ r, (f r).key = r.key}
      (h : ∀ u ∈ db.units.rows, hit u = true → db.owns t u.connectionID = true) :
      Scoped t db db' (db.updateUnits hit f hid hkey) (db'.updateUnits hit f hid hkey)
  | artifacts {hit hit' : RawArtifact → Bool} {f : RawArtifact → RawArtifact}
      {hid : ∀ r, (f r).id = r.id} {hkey : ∀ r, (f r).key = r.key}
      (hf : ∀ r, (f r).tenantID = r.tenantID ∧ (f r).objectKey = r.objectKey)
      (h : ∀ r ∈ db.artifacts.rows, hit r = true → r.tenantID = t)
      (hsame : ∀ r ∈ db.tenantArtifacts t, hit' r = hit r) :
      Scoped t db db' (db.updateArtifacts hit f hid hkey) (db'.updateArtifacts hit' f hid hkey)

/-- A site with another database. -/
def Site.withDb (w : Site) (db : Database) : Site := { w with world := { w.world with db } }

section Scoped

variable {t t' : String} {w w' : Site} {db db' : Database}

theorem forall_updated {α β : Type} {p : α → Bool} {f : α → α} {rows : List α} {P : β → Prop}
    {g : α → β} (hg : ∀ r, g (f r) = g r) (h : ∀ r ∈ rows, P (g r)) :
    ∀ r ∈ rows.map (Table.updated p f), P (g r) := by
  intro r hr
  obtain ⟨r₀, hr₀, rfl⟩ := List.mem_map.mp hr
  unfold Table.updated
  by_cases hp : p r₀ = true
  · rw [if_pos hp, hg]
    exact h r₀ hr₀
  · rw [if_neg hp]
    exact h r₀ hr₀

/-- A statement in scope leaves its tenant with the same at both sites. -/
theorem Alike.scoped (h : Alike t w w') (hs : Scoped t w.world.db w'.world.db db db') :
    Alike t (w.withDb db) (w'.withDb db') := by
  cases hs with
  | same => exact ⟨h.connections, h.schedules, h.units, h.estimated, h.artifacts, h.contents⟩
  | connections hhit =>
    rename_i hit f hid hkey
    refine ⟨?_, ?_, ?_, ?_, h.artifacts, h.contents⟩
    · show (w'.world.db.updateConnections hit f hid hkey).tenantConnections t =
        (w.world.db.updateConnections hit f hid hkey).tenantConnections t
      rw [tenantConnections_update, tenantConnections_update, h.connections]
    · show ∀ c ∈ (w.world.db.updateConnections hit f hid hkey).tenantConnections t, _
      rw [tenantConnections_update]
      exact forall_updated (P := fun id => w'.schedules id = w.schedules id) hid h.schedules
    · show (w'.world.db.updateConnections hit f hid hkey).tenantUnits t =
        (w.world.db.updateConnections hit f hid hkey).tenantUnits t
      rw [tenantUnits_updateConnections, tenantUnits_updateConnections, h.units]
    · show ∀ u ∈ (w.world.db.updateConnections hit f hid hkey).tenantUnits t, _
      rw [tenantUnits_updateConnections]
      exact h.estimated
  | units hhit =>
    rename_i hit f hid hkey
    refine ⟨h.connections, h.schedules, ?_, ?_, h.artifacts, h.contents⟩
    · show (w'.world.db.updateUnits hit f hid hkey).tenantUnits t =
        (w.world.db.updateUnits hit f hid hkey).tenantUnits t
      rw [tenantUnits_update, tenantUnits_update, h.units]
    · show ∀ u ∈ (w.world.db.updateUnits hit f hid hkey).tenantUnits t, _
      rw [tenantUnits_update]
      exact forall_updated (P := fun id => w'.estimatedAt id = w.estimatedAt id) hid h.estimated
  -- what is stored under the keys of the artifacts is not touched
  | artifacts hf hhit hsame =>
    rename_i hit hit' f hid hkey
    refine ⟨h.connections, h.schedules, h.units, h.estimated, ?_, ?_⟩
    · show (w'.world.db.updateArtifacts hit' f hid hkey).tenantArtifacts t =
        (w.world.db.updateArtifacts hit f hid hkey).tenantArtifacts t
      rw [tenantArtifacts_update fun r => (hf r).1, tenantArtifacts_update fun r => (hf r).1,
        h.artifacts]
      exact map_updated_congr hsame
    · show ∀ r ∈ (w.world.db.updateArtifacts hit f hid hkey).tenantArtifacts t, _
      rw [tenantArtifacts_update fun r => (hf r).1]
      exact forall_updated (P := fun key => Storage.get key w'.world.objects =
        Storage.get key w.world.objects) (fun r => (hf r).2) h.contents

/-- A statement in scope leaves alone what another tenant holds. -/
theorem holdings_scoped {db₀ : Database} (hs : Scoped t w.world.db db₀ db db') (ht : t' ≠ t) :
    (w.withDb db).holdings t' = w.holdings t' := by
  refine alike_iff.mp ?_
  cases hs with
  | same => exact ⟨rfl, fun _ _ => rfl, rfl, fun _ _ => rfl, rfl, fun _ _ => rfl⟩
  | connections hhit =>
    refine ⟨?_, fun _ _ => rfl, tenantUnits_updateConnections, fun _ _ => rfl, rfl, fun _ _ => rfl⟩
    refine tenantConnections_update.trans (map_updated_eq_self fun c hc hp => ?_)
    obtain ⟨hmem, hc'⟩ := mem_tenantConnections.mp hc
    exact ht (hc'.symm.trans (hhit c hmem hp))
  | units hhit =>
    refine ⟨rfl, fun _ _ => rfl, ?_, fun _ _ => rfl, rfl, fun _ _ => rfl⟩
    refine tenantUnits_update.trans (map_updated_eq_self fun u hu hp => ?_)
    obtain ⟨hmem, hu'⟩ := mem_tenantUnits.mp hu
    exact ht (owns_unique hu' (hhit u hmem hp))
  | artifacts hf hhit hsame =>
    refine ⟨rfl, fun _ _ => rfl, rfl, fun _ _ => rfl, ?_, fun _ _ => rfl⟩
    refine (tenantArtifacts_update fun r => (hf r).1).trans
      (map_updated_eq_self fun r hr hp => ?_)
    obtain ⟨hmem, hr'⟩ := mem_tenantArtifacts.mp hr
    exact ht (hr'.symm.trans (hhit r hmem hp))

end Scoped

/-! ### What a request reads and writes -/

/-- Two sites that a request of a tenant cannot tell apart, by what it has read. -/
structure Twins (t : String) (g : Proven) (w w' : Site) : Prop where
  now : w'.world.now = w.world.now
  consistent : Consistent w.world.db
  consistent' : Consistent w'.world.db
  alike : Alike t w w'
  owned : ∀ id ∈ g.connections, w.world.db.owns t id = true
  stored : ∀ key ∈ g.keys, Storage.get key w'.world.objects = Storage.get key w.world.objects

section Twins

variable {t : String} {g : Proven} {w w' : Site}

theorem Alike.owns (h : Alike t w w') (id : Uuid) :
    w'.world.db.owns t id = w.world.db.owns t id := by
  rw [owns_eq, owns_eq, h.connections]

/-- Whether a unit of a connection is there is seen among the units of its tenant. -/
theorem hasUnit_eq {db : Database} {id : Uuid} (h : db.owns t id = true) (p : SyncUnit → Bool)
    (externalID : String) : db.hasUnit id p externalID =
      (db.tenantUnits t).any fun u => u.is id externalID && p u := by
  unfold hasUnit tenantUnits
  rw [List.any_filter]
  refine List.any_congr rfl fun u => ?_
  by_cases hu : u.connectionID = id
  · rw [hu, h, Bool.true_and]
  · simp [SyncUnit.is, hu]

theorem Alike.hasUnit (h : Alike t w w') {id : Uuid} (hid : w.world.db.owns t id = true)
    (p : SyncUnit → Bool) (externalID : String) :
    w'.world.db.hasUnit id p externalID = w.world.db.hasUnit id p externalID := by
  rw [hasUnit_eq hid, hasUnit_eq ((h.owns id).trans hid), h.units]

theorem filter_and {α : Type} (p q : α → Bool) (l : List α) :
    l.filter (fun a => p a && q a) = (l.filter p).filter q := by
  rw [List.filter_filter]
  exact List.filter_congr fun a _ => Bool.and_comm _ _

theorem find?_and {α : Type} (p q : α → Bool) (l : List α) :
    l.find? (fun a => p a && q a) = (l.filter p).find? q := by
  rw [List.find?_filter]
  congr 1
  funext a
  rw [Bool.decide_and, Bool.decide_eq_true, Bool.decide_eq_true]

theorem mem_of_one_find? {α : Type} {l : List α} {p : α → Bool} {a : α}
    (h : one (l.find? p) = .ok a) : a ∈ l := by
  cases hfind : l.find? p with
  | none =>
    rw [hfind] at h
    cases h
  | some a' =>
    rw [hfind] at h
    cases h
    exact List.mem_of_find?_eq_some hfind

section Queries

variable (db : Database) (t : String)

theorem getConnection_eq (id : Uuid) : Database.getConnection id t db =
    one ((db.tenantConnections t).find? fun c => decide (c.id = id) && c.deletedAt.isNone) := by
  unfold Database.getConnection tenantConnections
  rw [← find?_and]
  congr 2
  funext c
  rw [Bool.and_comm (decide (c.id = id)), Bool.and_assoc]

theorem deleteConnection_count (now : Time) (id : Uuid) : (deleteConnection now id t db).1 =
    (db.tenantConnections t).countP fun c => decide (c.id = id) := by
  unfold deleteConnection tenantConnections
  rw [List.countP_filter]

theorem listConnections_eq : Database.listConnections t db =
    ((db.tenantConnections t).filter fun c => c.deletedAt.isNone).insertionSort
      fun c c' => c.connectorID ≤ c'.connectorID := by
  unfold Database.listConnections tenantConnections
  rw [filter_and]

theorem listSyncUnits_eq (lower : String → String) (id : Uuid) (search : String) :
    Database.listSyncUnits lower id t search db =
      ((db.tenantUnits t).filter fun u => decide (u.connectionID = id) &&
        (decide (search = "") || ilike lower u.name ("%" ++ search ++ "%"))).insertionSort
          fun u u' => u.externalID ≤ u'.externalID := by
  unfold Database.listSyncUnits tenantUnits
  rw [← filter_and]
  congr 1
  refine List.filter_congr fun u _ => ?_
  rw [Bool.and_comm (decide (u.connectionID = id)), Bool.and_assoc]

theorem getArtifactForContent_eq (id : Uuid) : Database.getArtifactForContent id t db =
    one ((db.tenantArtifacts t).find? fun r => decide (r.id = id) && r.deletedAt.isNone) := by
  unfold Database.getArtifactForContent tenantArtifacts
  rw [← find?_and]
  congr 2
  funext r
  rw [Bool.and_comm (decide (r.id = id)), Bool.and_assoc]

theorem mem_listConnections {c : Connection} (h : c ∈ Database.listConnections t db) :
    c ∈ db.tenantConnections t := by
  rw [listConnections_eq] at h
  exact List.mem_of_mem_filter ((List.mem_insertionSort _).mp h)

theorem mem_listSyncUnits {lower : String → String} {id : Uuid} {search : String} {u : SyncUnit}
    (h : u ∈ Database.listSyncUnits lower id t search db) : u ∈ db.tenantUnits t := by
  rw [listSyncUnits_eq] at h
  exact List.mem_of_mem_filter ((List.mem_insertionSort _).mp h)

end Queries

/-- The gate of `ListArtifacts` is the same for the tenant's artifacts. -/
theorem Twins.visible (h : Twins t g w w') {r : RawArtifact}
    (hr : r ∈ w.world.db.tenantArtifacts t) :
    Database.visible w'.world.db r = Database.visible w.world.db r := by
  obtain ⟨hmem, rfl⟩ := mem_tenantArtifacts.mp hr
  unfold Database.visible
  rw [h.alike.hasUnit (h.consistent r hmem)]

/-- What is visible of a tenant's artifacts is the same. -/
theorem Twins.filter_visible (h : Twins t g w w') (p : RawArtifact → Bool) :
    (w'.world.db.artifacts.rows.filter fun r => decide (r.tenantID = t) && p r &&
      Database.visible w'.world.db r) = w.world.db.artifacts.rows.filter fun r =>
        decide (r.tenantID = t) && p r && Database.visible w.world.db r := by
  have hscoped : ∀ db : Database, (db.artifacts.rows.filter fun r =>
      decide (r.tenantID = t) && p r && Database.visible db r) =
      (db.tenantArtifacts t).filter fun r => p r && Database.visible db r := by
    intro db
    unfold tenantArtifacts
    rw [← filter_and]
    simp only [Bool.and_assoc]
  rw [hscoped, hscoped, h.alike.artifacts]
  exact List.filter_congr fun r hr => by rw [h.visible hr]

/-- **A read query in scope is answered alike.** -/
theorem Twins.query (h : Twins t g w w') (lower : String → String) {q : ServerQuery}
    (hq : q.inScope t g) : q.exec lower w' = q.exec lower w := by
  cases q with
  | listConnections tenantID =>
    obtain rfl : tenantID = t := hq
    have hrows : Database.listConnections tenantID w'.world.db =
        Database.listConnections tenantID w.world.db := by
      rw [listConnections_eq, listConnections_eq, h.alike.connections]
    show Except.ok _ = Except.ok _
    rw [hrows]
    congr 1
    refine List.map_congr_left fun c hc => ?_
    rw [h.alike.schedules c (mem_listConnections _ _ hc)]
  | listSyncUnits id tenantID search =>
    obtain rfl : tenantID = t := hq
    have hrows : Database.listSyncUnits lower id tenantID search w'.world.db =
        Database.listSyncUnits lower id tenantID search w.world.db := by
      rw [listSyncUnits_eq, listSyncUnits_eq, h.alike.units]
    show Except.ok _ = Except.ok _
    rw [hrows]
    congr 1
    refine List.map_congr_left fun u hu => ?_
    rw [h.alike.estimated u (mem_listSyncUnits _ _ hu)]
  | listArtifacts tenantID connectionID rowLimit rowOffset =>
    obtain rfl : tenantID = t := hq
    show (if rowOffset < 0 then _ else _) = if rowOffset < 0 then _ else _
    unfold Database.listArtifacts
    rw [h.filter_visible]
  | countArtifacts tenantID connectionID =>
    obtain rfl : tenantID = t := hq
    show Except.ok _ = Except.ok _
    unfold Database.countArtifacts
    rw [List.countP_eq_length_filter, List.countP_eq_length_filter, h.filter_visible]
  | getArtifactForContent id tenantID =>
    obtain rfl : tenantID = t := hq
    show Database.getArtifactForContent id tenantID _ = Database.getArtifactForContent id tenantID _
    rw [getArtifactForContent_eq, getArtifactForContent_eq, h.alike.artifacts]
  | getObject storedKey => exact h.stored storedKey hq

/-- **A statement in scope is answered alike**, does the same to what its tenant holds, and
touches nothing else. -/
theorem Twins.scoped_exec (h : Twins t g w w') (now : Time) {s : Statement} (hs : s.inScope t g) :
    (s.exec now w'.world.db).1 = (s.exec now w.world.db).1 ∧
      Scoped t w.world.db w'.world.db (s.exec now w.world.db).2 (s.exec now w'.world.db).2 := by
  -- the rows of a connection of the tenant are its own
  have hartifact : ∀ id, id ∈ g.connections → ∀ r ∈ w.world.db.artifacts.rows,
      r.connectionID = id → r.tenantID = t := by
    rintro id hid r hr rfl
    exact owns_unique (h.consistent r hr) (h.owned _ hid)
  cases s with
  | getConnection id tenantID =>
    obtain rfl : tenantID = t := hs
    refine ⟨?_, .same⟩
    show Database.getConnection id tenantID _ = Database.getConnection id tenantID _
    rw [getConnection_eq, getConnection_eq, h.alike.connections]
  | deleteConnection id tenantID =>
    obtain rfl : tenantID = t := hs
    refine ⟨?_, .connections fun c _ hp => ?_⟩
    · show Except.ok (deleteConnection now id tenantID _).1 =
        Except.ok (deleteConnection now id tenantID _).1
      rw [deleteConnection_count, deleteConnection_count, h.alike.connections]
    · exact of_decide_eq_true (Bool.and_eq_true_iff.mp hp).2
  | softDeleteConnectionArtifacts id tenantID =>
    obtain rfl : tenantID = t := hs
    refine ⟨rfl, .artifacts (fun r => ⟨rfl, rfl⟩) (fun r _ hp => ?_) fun _ _ => rfl⟩
    simp only [ofConnection, Bool.and_eq_true, decide_eq_true_eq] at hp
    exact hp.1.2
  | markConnectionArtifactsPurgePending id tenantID =>
    obtain rfl : tenantID = t := hs
    refine ⟨rfl, .artifacts (fun r => ⟨rfl, rfl⟩) (fun r _ hp => ?_) fun _ _ => rfl⟩
    simp only [ofConnection, Bool.and_eq_true, decide_eq_true_eq] at hp
    exact hp.1.2
  | notifyConnectionChanged tenantID => exact ⟨rfl, .same⟩
  | setUnitSelection id selected =>
    refine ⟨rfl, .units fun u _ hp => ?_⟩
    rw [of_decide_eq_true hp]
    exact h.owned id hs
  | markConnectionOnboarded id =>
    refine ⟨rfl, .connections fun c hc hp => ?_⟩
    obtain ⟨c', hc', hid', ht⟩ := owns_iff.mp (h.owned id hs)
    rw [w.world.db.connections.eq_of_id hc hc' ((of_decide_eq_true hp).trans hid'.symm), ht]
  | softDeleteDeselectedUnitArtifacts id =>
    refine ⟨rfl, .artifacts (fun r => ⟨rfl, rfl⟩) (fun r hr hp => ?_) fun r _ => ?_⟩
    · simp only [Bool.and_eq_true, decide_eq_true_eq] at hp
      exact hartifact id hs r hr hp.1.1
    · rw [h.alike.hasUnit (h.owned id hs)]
  | undeleteSelectedUnitArtifacts id =>
    refine ⟨rfl, .artifacts (fun r => ⟨rfl, rfl⟩) (fun r hr hp => ?_) fun r _ => ?_⟩
    · simp only [Bool.and_eq_true, decide_eq_true_eq] at hp
      exact hartifact id hs r hr hp.1.1
    · rw [h.alike.hasUnit (h.owned id hs)]
  | _ => exact hs.elim

/-! ### One command in two sites -/

variable {lower : String → String} {x : SiteChoice} {b : Bool}

/-- A statement in scope changes the database of a site, if it takes effect. -/
theorem site_statement {s : Statement} (hs : s.inScope t g) :
    ((site lower).perform x b w (.service (.statement s))).1 =
      if x.service.takesEffect b = true then
        (w.tick x.service.elapsed).withDb (s.exec (w.world.now + x.service.elapsed) w.world.db).2
      else w.tick x.service.elapsed := by
  show ({ w with
      world := (service.perform x.service b w.world (.statement s)).1
      estimatedAt := _ } : Site) = _
  rw [service_state]
  by_cases h : x.service.takesEffect b = true
  · rw [if_pos h, if_pos h, if_pos h]
    cases s <;> first | rfl | exact hs.elim
  · rw [if_neg h, if_neg h, if_neg h]
    rfl

/-- What a command in scope leaves of two sites: databases in which the same was done to the
tenant's rows, or new columns of a connection of the tenant. -/
inductive Touches (t : String) (g : Proven) (d : Time) (w w' : Site) : Site → Site → Prop
  | database {db db' : Database} (h : Scoped t w.world.db w'.world.db db db') :
      Touches t g d w w' ((w.tick d).withDb db) ((w'.tick d).withDb db')
  | schedule {id : Uuid} (schedule : SyncSchedule) (h : id ∈ g.connections) :
      Touches t g d w w' { w.tick d with schedules := Function.update w.schedules id schedule }
        { w'.tick d with schedules := Function.update w'.schedules id schedule }

theorem Touches.idle (d : Time) : Touches t g d w w' (w.tick d) (w'.tick d) :=
  .database .same

theorem Twins.tick (h : Twins t g w w') (d : Time) : Twins t g (w.tick d) (w'.tick d) where
  now := congrArg (· + d) h.now
  consistent := h.consistent
  consistent' := h.consistent'
  alike := ⟨h.alike.connections, h.alike.schedules, h.alike.units, h.alike.estimated,
    h.alike.artifacts, h.alike.contents⟩
  owned := h.owned
  stored := h.stored

/-- **A command in scope is answered alike**, and does the same to both sites. -/
theorem Twins.perform (h : Twins t g w w') {c : SiteCmd} (hc : (tenantScope t).allowed g c) :
    ((site lower).perform x b w' c).2 = ((site lower).perform x b w c).2 ∧
      Touches t g x.service.elapsed w w' ((site lower).perform x b w c).1
        ((site lower).perform x b w' c).1 := by
  -- a command of the service that is no statement leaves the site as it is
  have hidle : ∀ (c : Cmd) (v : Site), c.effect (v.world.tick x.service.elapsed) =
      v.world.tick x.service.elapsed →
      v.estimated (v.world.tick x.service.elapsed).now c = v.estimatedAt →
      ((site lower).perform x b v (.service c)).1 = v.tick x.service.elapsed := by
    intro c v heffect hestimated
    show ({ v with
        world := (service.perform x.service b v.world c).1
        estimatedAt := _ } : Site) = _
    rw [service_state, heffect, ite_self, hestimated, ite_self]
    rfl
  cases c with
  | service c =>
    cases c with
    | statement s =>
      obtain ⟨hanswer, hscoped⟩ := h.scoped_exec (w.world.now + x.service.elapsed) hc
      rw [site_statement hc, site_statement hc, h.now]
      refine ⟨?_, ?_⟩
      · show x.service.reply b (s.exec (w'.world.now + x.service.elapsed) w'.world.db).1 =
          x.service.reply b (s.exec (w.world.now + x.service.elapsed) w.world.db).1
        rw [h.now, hanswer]
      · by_cases htakes : x.service.takesEffect b = true
        · rw [if_pos htakes, if_pos htakes]
          exact .database hscoped
        · rw [if_neg htakes, if_neg htakes]
          exact .idle _
    | request q =>
      refine ⟨rfl, ?_⟩
      rw [hidle _ w rfl rfl, hidle _ w' rfl rfl]
      exact .idle _
    | signalWorkflow id y =>
      refine ⟨rfl, ?_⟩
      rw [hidle _ w rfl rfl, hidle _ w' rfl rfl]
      exact .idle _
    | _ => exact hc.elim
  | query q =>
    refine ⟨?_, .idle _⟩
    show x.service.reply b (q.exec lower (w'.tick _)) = x.service.reply b (q.exec lower (w.tick _))
    rw [(h.tick x.service.elapsed).query lower hc]
  | updateSyncSchedule id schedule =>
    refine ⟨rfl, ?_⟩
    show Touches t g _ w w' (if _ then _ else _) (if _ then _ else _)
    by_cases htakes : x.service.takesEffect b = true
    · rw [if_pos htakes, if_pos htakes]
      exact .schedule schedule hc
    · rw [if_neg htakes, if_neg htakes]
      exact .idle _
  | signalRunning id y => exact ⟨rfl, .idle _⟩

/-- What is left is alike. -/
theorem Twins.alike_touches {v v' : Site} {d : Time} (h : Twins t g w w')
    (ht : Touches t g d w w' v v') : Alike t v v' := by
  cases ht with
  | database hs => exact (h.tick d).alike.scoped hs
  | schedule schedule hid =>
    rename_i id
    refine ⟨h.alike.connections, fun c hc => ?_, h.alike.units, h.alike.estimated,
      h.alike.artifacts, h.alike.contents⟩
    show Function.update w'.schedules id schedule c.id =
      Function.update w.schedules id schedule c.id
    by_cases heq : c.id = id
    · rw [heq, Function.update_self, Function.update_self]
    · rw [Function.update_of_ne heq, Function.update_of_ne heq]
      exact h.alike.schedules c hc

/-- What another tenant holds is left alone. -/
theorem Twins.holdings_touches {v v' : Site} {d : Time} {t' : String} (h : Twins t g w w')
    (ht : Touches t g d w w' v v') (hne : t' ≠ t) : v.holdings t' = w.holdings t' := by
  cases ht with
  | database hs => exact holdings_scoped (w := w.tick d) hs hne
  | schedule schedule hid =>
    rename_i id
    refine alike_iff.mp ⟨rfl, fun c hc => ?_, rfl, fun _ _ => rfl, rfl, fun _ _ => rfl⟩
    obtain ⟨hmem, htenant⟩ := mem_tenantConnections.mp hc
    refine Function.update_of_ne (fun heq => hne ?_) _ _
    have howns : w.world.db.owns _ id = true := owns_iff.mpr ⟨c, hmem, heq, htenant⟩
    exact owns_unique howns (h.owned id hid)

theorem objects_touches {v v' : Site} {d : Time} (ht : Touches t g d w w' v v') :
    v.world.objects = w.world.objects ∧ v'.world.objects = w'.world.objects := by
  cases ht <;> exact ⟨rfl, rfl⟩

theorem now_touches {v v' : Site} {d : Time} (ht : Touches t g d w w' v v') :
    v.world.now = w.world.now + d ∧ v'.world.now = w'.world.now + d := by
  cases ht <;> exact ⟨rfl, rfl⟩

theorem Consistent.perform {w : Site} (h : Consistent w.world.db) {c : SiteCmd}
    (hc : (tenantScope t).allowed g c) : Consistent ((site lower).perform x b w c).1.world.db := by
  rcases site_db_cases lower x b w c with hsame | ⟨s, rfl, hexec⟩
  · rwa [hsame]
  · rw [hexec]
    refine h.exec ?_
    rintro p unitID cursor rfl
    exact hc.elim

/-- A read query proves no connection. -/
theorem Proven.next_query (q : ServerQuery) (r : (SiteCmd.query q).Resp) :
    (g.next (.query q) r).connections = g.connections := by
  cases q with
  | getArtifactForContent id tenantID => cases r <;> rfl
  | _ => rfl

/-- A command of the service proves no stored key. -/
theorem Proven.next_service (c : Cmd) (r : (SiteCmd.service c).Resp) :
    (g.next (.service c) r).keys = g.keys := by
  cases c with
  | statement s =>
    cases s with
    | getConnection id tenantID => cases r <;> rfl
    | _ => rfl
  | _ => rfl

/-- A connection that a request has read is its tenant's. -/
theorem Twins.owned_next (h : Twins t g w w') {c : SiteCmd} (hc : (tenantScope t).allowed g c) :
    ∀ id ∈ (Proven.next g c ((site lower).perform x b w c).2).connections,
      w.world.db.owns t id = true := by
  cases c with
  | service c =>
    cases c with
    | statement s =>
      cases s with
      | getConnection id tenantID =>
        obtain rfl : tenantID = t := hc
        show ∀ id' ∈ (Proven.next g (.service (.statement (.getConnection id tenantID)))
          (x.service.reply b (Database.getConnection id tenantID w.world.db))).connections, _
        cases hreply : x.service.reply b (Database.getConnection id tenantID w.world.db) with
        | error e => exact h.owned
        | ok conn =>
          obtain ⟨-, hget⟩ := of_reply_eq_ok hreply
          intro id' hid'
          rcases List.mem_cons.mp hid' with rfl | hid'
          · rw [getConnection_eq] at hget
            obtain ⟨hmem, ht⟩ := mem_tenantConnections.mp (mem_of_one_find? hget)
            exact owns_iff.mpr ⟨conn, hmem, rfl, ht⟩
          · exact h.owned id' hid'
      | _ => exact h.owned
    | _ => exact h.owned
  | query q =>
    rw [Proven.next_query]
    exact h.owned
  | _ => exact h.owned

/-- The object of an artifact that a request has read is the same at both sites. -/
theorem Twins.stored_next (h : Twins t g w w') {c : SiteCmd} (hc : (tenantScope t).allowed g c) :
    ∀ key ∈ (Proven.next g c ((site lower).perform x b w c).2).keys,
      Storage.get key w'.world.objects = Storage.get key w.world.objects := by
  cases c with
  | query q =>
    cases q with
    | getArtifactForContent id tenantID =>
      obtain rfl : tenantID = t := hc
      show ∀ key ∈ (Proven.next g (.query (.getArtifactForContent id tenantID))
        (x.service.reply b (Database.getArtifactForContent id tenantID w.world.db))).keys, _
      cases hreply : x.service.reply b (Database.getArtifactForContent id tenantID w.world.db) with
      | error e => exact h.stored
      | ok row =>
        obtain ⟨-, hget⟩ := of_reply_eq_ok hreply
        intro key hkey
        rcases List.mem_cons.mp hkey with rfl | hkey
        · rw [getArtifactForContent_eq] at hget
          exact h.alike.contents row (mem_of_one_find? hget)
        · exact h.stored key hkey
    | _ => exact h.stored
  | service c =>
    rw [Proven.next_service]
    exact h.stored
  | _ => exact h.stored

/-- **After a command in scope** the tenant cannot tell the sites apart either. -/
theorem Twins.next (h : Twins t g w w') {c : SiteCmd} (hc : (tenantScope t).allowed g c) :
    Twins t (Proven.next g c ((site lower).perform x b w c).2) ((site lower).perform x b w c).1
      ((site lower).perform x b w' c).1 := by
  have htouches : Touches t g x.service.elapsed w w' ((site lower).perform x b w c).1
      ((site lower).perform x b w' c).1 := (h.perform hc).2
  obtain ⟨hnow, hnow'⟩ := now_touches htouches
  obtain ⟨hobjects, hobjects'⟩ := objects_touches htouches
  exact
    { now := by rw [hnow, hnow', h.now]
      consistent := h.consistent.perform hc
      consistent' := h.consistent'.perform hc
      alike := h.alike_touches htouches
      owned := fun id hid => owns_perform (h.owned_next hc id hid) c
      stored := fun key hkey => by
        rw [hobjects, hobjects']
        exact h.stored_next hc key hkey }

/-- A command in scope changes nobody's connections. -/
theorem owns_touches {v v' : Site} {d : Time} (ht : Touches t g d w w' v v') (t' : String)
    (id : Uuid) : v.world.db.owns t' id = w.world.db.owns t' id := by
  cases ht with
  | database hs =>
    cases hs with
    | connections hhit => exact owns_update id
    | _ => rfl
  | schedule schedule hid => rfl

end Twins

/-! ### Isolation -/

/-- The connection whose workflow a command signals. -/
def SiteCmd.signals : SiteCmd → Option Uuid
  | .service (.signalWorkflow id _) | .signalRunning id _ => some id
  | _ => none

/-- The request of a tenant is isolated: what it does at a site it does at the other, by the same
turns, and only to what the tenant holds. -/
structure Isolated (lower : String → String) (sv : Server) (t : String) (q : Rpc) (w w' : Site) :
    Prop where
  /-- It answers the same, issues the same commands, and leaves the tenant with the same. -/
  answers : ∀ b ls resp b' v, (site lower).Returns (q.prog sv (some t)) b w ls resp b' v →
    ∃ ls' v', (site lower).Returns (q.prog sv (some t)) b w' ls' resp b' v' ∧
      ls'.map Performed.turn = ls.map Performed.turn ∧ v'.holdings t = v.holdings t
  /-- Wherever it is stopped, the other tenants hold what they held. -/
  others : ∀ b ls b' v, (site lower).Stops (q.prog sv (some t)) b w ls b' v →
    ∀ t', t' ≠ t → v.holdings t' = w.holdings t'
  /-- It signals workflows of the tenant's connections only. -/
  signals : ∀ b ls b' v, (site lower).Stops (q.prog sv (some t)) b w ls b' v →
    ∀ l ∈ ls, ∀ id, l.cmd.signals = some id → w.world.db.owns t id = true

section Isolated

variable {lower : String → String} {sv : Server} {t : String} {q : Rpc} {w w' : Site}

/-- What a request of a tenant keeps at a site. -/
structure Spared (t : String) (w : Site) (g : Proven) (v : Site) : Prop where
  twins : Twins t g v v
  others : ∀ t', t' ≠ t → v.holdings t' = w.holdings t'
  owned : ∀ id, v.world.db.owns t id = w.world.db.owns t id

theorem twins_init (hc : Consistent w.world.db) (hc' : Consistent w'.world.db)
    (hnow : w'.world.now = w.world.now) (h : w'.holdings t = w.holdings t) :
    Twins t Proven.init w w' :=
  ⟨hnow, hc, hc', alike_iff.mpr h, by simp [Proven.init], by simp [Proven.init]⟩

/-- **One command of a request keeps what the other tenants hold**, and signals a workflow of
its own tenant if any. -/
theorem Spared.step {g : Proven} {v : Site} (h : Spared t w g v) {c : SiteCmd}
    (hc : (tenantScope t).allowed g c) (x : SiteChoice) (b : Bool) :
    Spared t w (Proven.next g c ((site lower).perform x b v c).2) ((site lower).perform x b v c).1 ∧
      ∀ id, c.signals = some id → w.world.db.owns t id = true := by
  have htouches : Touches t g x.service.elapsed v v ((site lower).perform x b v c).1
      ((site lower).perform x b v c).1 := (h.twins.perform hc).2
  refine ⟨⟨h.twins.next hc, fun t' ht' => ?_, fun id => ?_⟩, fun id hid => ?_⟩
  · rw [h.twins.holdings_touches htouches ht', h.others t' ht']
  · rw [owns_touches htouches, h.owned]
  · have hproven : id ∈ g.connections := by
      cases c with
      | service c =>
        cases c with
        | signalWorkflow id' y =>
          obtain rfl : id' = id := Option.some.inj hid
          exact hc
        | _ => cases hid
      | signalRunning id' y =>
        obtain rfl : id' = id := Option.some.inj hid
        exact hc
      | _ => cases hid
    rw [← h.owned]
    exact h.twins.owned id hproven

theorem kept_of_stops (hc : Consistent w.world.db) {b b' : Bool}
    {ls : List (Performed Site SiteChoice SiteCmd)} {v : Site}
    (h : (site lower).Stops (q.prog sv (some t)) b w ls b' v) :
    (∃ g, Spared t w g v) ∧
      ∀ l ∈ ls, ∀ id, l.cmd.signals = some id → w.world.db.owns t id = true :=
  h.follows (P := tenantScope t) (J := fun g v => Spared t w g v)
    (fun _ _ _ x b hk hallowed => hk.step hallowed x b) (Rpc.follows sv (some t) q)
    ⟨twins_init hc hc rfl rfl, fun _ _ => rfl, fun _ => rfl⟩

/-- **The tenants are isolated.**  Every run of requests and jobs keeps artifacts and connections
consistent; and at any two sites where they are, and at which its tenant holds the same at the
same time, a request of the tenant is isolated. -/
theorem tenant_isolation (lower : String → String) (a : Activities) (sv : Server) :
    (∀ es w s tr, Consistent w.world.db →
      ((site lower).pool (Invocation.prog a sv)).Run ⟨w, []⟩ es s tr →
        Consistent s.world.world.db) ∧
    ∀ t q w w', Consistent w.world.db → Consistent w'.world.db → w'.world.now = w.world.now →
      w'.holdings t = w.holdings t → Isolated lower sv t q w w' := by
  refine ⟨fun es w s tr hw h => consistent_of_run hw h, fun t q w w' hc hc' hnow hheld => ?_⟩
  refine ⟨fun b ls resp b' v h => ?_, fun b ls b' v h t' ht' => ?_, fun b ls b' v h => ?_⟩
  · obtain ⟨ls', v', g, hreturns, hturns, -, htwins⟩ := h.related (P := tenantScope t)
      (R := Twins t) (fun g w w' c x b htwins hallowed =>
        ⟨(htwins.perform hallowed).1, htwins.next hallowed⟩)
      (Rpc.follows sv (some t) q) (twins_init hc hc' hnow hheld)
    exact ⟨ls', v', hreturns, hturns, alike_iff.mp htwins.alike⟩
  · obtain ⟨⟨g, hkept⟩, -⟩ := kept_of_stops hc h
    exact hkept.others t' ht'
  · exact (kept_of_stops hc h).2

end Isolated

/-! ### Two tenants -/

instance (db : Database) : Decidable (Consistent db) := inferInstanceAs (Decidable (∀ _ ∈ _, _))

/-- Ann's Drive with a document synced, alone. -/
def acmeSite : Site where
  world := syncedWorld
  schedules _ := { autoSyncEnabled := true, syncIntervalSeconds := 900 }
  estimatedAt _ := none

/-- Ann's Drive, and that of another tenant. -/
def sharedSite : Site :=
  acmeSite.withDb (Database.upsertSyncUnit 0 1 "drive" "Drive" "google_drive" 1
    (Database.upsertConnection { driveConnection with tenantID := "globex" } syncedDatabase).2)

/-- Ann cannot tell whether she is alone when she clears her selection. -/
theorem acme_isolated : (sharedSite.holdings "globex").units.length = 1 ∧
    (acmeSite.holdings "globex").units.length = 0 ∧
    Isolated id driveServer "acme" (.setProjectSelection 0 []) acmeSite sharedSite :=
  ⟨by decide +kernel, by decide +kernel,
    (tenant_isolation id driveActivities driveServer).2 "acme" (.setProjectSelection 0 [])
      acmeSite sharedSite (by decide +kernel) (by decide +kernel) rfl rfl⟩

end Hivebook
