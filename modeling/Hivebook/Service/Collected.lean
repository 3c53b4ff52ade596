import Hivebook.Database.Units
import Hivebook.Lib.Threads
import Hivebook.Service.Grace
import Hivebook.Service.Inventory

/-!
# The collection of removed units

`GCRemovedUnits` hard-deletes the units that a discovery tombstoned and that no statement has
touched for the grace period.  A maintenance pass runs it after the purge passes, so that the
artifacts of a unit are erased before its row is dropped.  Nothing checks that they are: an object
whose delete keeps failing outlives its unit, and so does an artifact that nobody has queued.

In any interleaving of any jobs, a unit that is collected has been removed throughout the grace
period, and its artifacts are gone if and only if the last step that left one in it while it was
removed was followed by one that took the last away.

## Main definitions

* `Collects l u` — the step hard-deletes the unit.
* `RemovedThroughout` — the unit was removed in every state of the grace period.
* `strands`, `clears`, `Stranded` — the steps that decide whether artifacts are left.
* `collecting` — the protocol that ties the cutoff to a reading of the clock.

## Main results

* `hasRows_exec`, `removed_exec` — what a statement does to the artifacts and to the status of a
  unit.
* `collected_in_time` — **a collected unit was removed throughout the grace period, and has no
  artifact left if and only if none was stranded in it.**
* `collected_with_artifact` — a delete that fails, and the unit is collected all the same.
-/

namespace Hivebook

open Database Machine

/-! ### The artifacts of a unit -/

/-- The row is an artifact of the unit. -/
def RawArtifact.ofUnit (k : Uuid × String) (r : RawArtifact) : Bool :=
  decide ((r.connectionID, r.syncContainerID) = k)

namespace Database

/-- The unit has an artifact. -/
def hasRows (db : Database) (k : Uuid × String) : Bool :=
  db.artifacts.rows.any (RawArtifact.ofUnit k)

/-- The unit is a tombstone. -/
def isRemoved (db : Database) (k : Uuid × String) : Bool :=
  db.hasUnit k.1 (fun u => decide (u.status = .removed)) k.2

/-- A statement leaves an artifact in a removed unit: it removes a unit that has some, or writes
one into a unit that is removed. -/
def strandsRow (db : Database) (k : Uuid × String) : Statement → Bool
  | .sweepUnseenUnits id generation => decide (id = k.1) && db.hasRows k && db.hasUnit k.1
      (fun u => decide (u.generation < generation) && decide (u.status ≠ .removed)) k.2
  | .setUnitStatus id x status =>
      decide ((id, x) = k) && decide (status = .removed) && db.hasRows k
  | .commitArtifact p _ _ => decide ((p.connectionID, p.syncContainerID) = k) && db.isRemoved k
  | _ => false

/-- A statement takes the last artifacts of the unit away: it confirms the deletes of all of them,
or writes the only one left into another unit. -/
def clearsRows (db : Database) (k : Uuid × String) : Statement → Bool
  | .confirmArtifactDeletes ids => db.artifacts.rows.all fun r =>
      !r.ofUnit k || (decide (r.id ∈ ids) && r.purgePending)
  | .commitArtifact p _ _ => decide ((p.connectionID, p.syncContainerID) ≠ k) &&
      db.artifacts.rows.all fun r => !r.ofUnit k || decide (r.key = (p.connectionID, p.externalID))
  | _ => false

end Database

/-- The step leaves an artifact in a removed unit. -/
def strands (k : Uuid × String) (l : ℕ × Performed World Choice Cmd) : Bool :=
  tookEffect l.2 && match l.2.cmd with
    | .statement s => l.2.state.db.strandsRow k s
    | _ => false

/-- The step takes the last artifacts of the unit away. -/
def clears (k : Uuid × String) (l : ℕ × Performed World Choice Cmd) : Bool :=
  tookEffect l.2 && match l.2.cmd with
    | .statement s => l.2.state.db.clearsRows k s
    | _ => false

/-- An artifact was left in the unit while it was removed, and the last has not been taken away
since. -/
def Stranded (k : Uuid × String) (tr : List (ℕ × Performed World Choice Cmd)) : Prop :=
  Pending (fun l => strands k l = true) (fun l => clears k l = true) (fun _ => False) tr

/-- The step hard-deletes the unit. -/
def Collects (l : Performed World Choice Cmd) (u : SyncUnit) : Prop :=
  tookEffect l = true ∧ u ∈ l.state.db.units.rows ∧ ∃ cutoff,
    l.cmd = .statement (.gcRemovedUnits u.connectionID cutoff) ∧ collectable cutoff u = true

/-- The unit was last touched before the grace period, and was removed in every state since. -/
def RemovedThroughout (tr : List (ℕ × Performed World Choice Cmd))
    (l : Performed World Choice Cmd) (u : SyncUnit) : Prop :=
  u.status = .removed ∧ u.updatedAt + purgeGrace < performedAt l ∧
    ∀ l' ∈ tr, performedAt l ≤ performedAt l'.2 + purgeGrace →
      ∃ u' ∈ l'.2.state.db.units.rows, u'.id = u.id ∧ u'.status = .removed

/-- Whatever the step collects was removed throughout the grace period, and has no artifact left if
and only if none was stranded in it. -/
def CollectedInTime (tr : List (ℕ × Performed World Choice Cmd))
    (l : ℕ × Performed World Choice Cmd) : Prop :=
  ∀ u, Collects l.2 u → RemovedThroughout tr l.2 u ∧
    (l.2.state.db.hasRows u.key = false ↔ ¬ Stranded u.key tr)

/-! ### One statement -/

variable {db : Database} {now : Time} {k : Uuid × String}

theorem hasRows_iff : db.hasRows k = true ↔
    ∃ r ∈ db.artifacts.rows, (r.connectionID, r.syncContainerID) = k := by
  simp [Database.hasRows, RawArtifact.ofUnit]

theorem isRemoved_iff : db.isRemoved k = true ↔
    ∃ u ∈ db.units.rows, u.key = k ∧ u.status = .removed := by
  simp [Database.isRemoved, hasUnit_iff]

/-- A committed item is an artifact of its unit. -/
theorem hasRows_commit {p : UpsertRawArtifactParams} {x : String} {cursor : Option String}
    (hp : (p.connectionID, p.syncContainerID) = k) :
    (Database.commitArtifact now p x cursor db).hasRows k = true := by
  rw [hasRows_iff]
  rcases exists_commitArtifact now p x cursor db with ⟨r, -, hkey, hmem⟩ | hmem
  · have hconn : r.connectionID = p.connectionID := congrArg Prod.fst hkey
    refine ⟨_, hmem, ?_⟩
    rw [← hp, ← hconn]
    rfl
  · exact ⟨_, hmem, hp⟩

/-- A unit has an artifact after a statement if one was left to it, or if the statement writes
one. -/
theorem hasRows_exec (s : Statement) : (s.exec now db).2.hasRows k = true ↔
    (db.hasRows k = true ∧ db.clearsRows k s = false) ∨
      ∃ p x cursor, s = .commitArtifact p x cursor ∧ (p.connectionID, p.syncContainerID) = k := by
  -- all other statements neither write nor remove a row
  have hkept : db.clearsRows k s = false → (∀ p x cursor, s ≠ .commitArtifact p x cursor) →
      (∀ ids, s ≠ .confirmArtifactDeletes ids) →
      ((s.exec now db).2.hasRows k = true ↔ (db.hasRows k = true ∧ db.clearsRows k s = false) ∨
        ∃ p x cursor, s = .commitArtifact p x cursor ∧
          (p.connectionID, p.syncContainerID) = k) := by
    intro hclear hcommit hconfirm
    have hsame : (s.exec now db).2.hasRows k = true ↔ db.hasRows k = true := by
      rw [hasRows_iff, hasRows_iff]
      exact exists_row_exec hcommit hconfirm fun r _ _ _ => Iff.rfl
    rw [hsame]
    constructor
    · exact fun h => .inl ⟨h, hclear⟩
    · rintro (⟨h, -⟩ | ⟨p, x, cursor, rfl, -⟩)
      · exact h
      · exact absurd rfl (hcommit p x cursor)
  cases s with
  | confirmArtifactDeletes ids =>
    show (Database.confirmArtifactDeletes ids db).2.hasRows k = true ↔ _
    rw [hasRows_iff, hasRows_iff]
    constructor
    · rintro ⟨r, hr, hk⟩
      obtain ⟨hr, hleft⟩ := Table.mem_delete.mp hr
      refine .inl ⟨⟨r, hr, hk⟩, ?_⟩
      refine List.all_eq_false.mpr ⟨r, hr, ?_⟩
      simp [RawArtifact.ofUnit, hk, hleft]
    · rintro (⟨-, hclear⟩ | ⟨p, x, cursor, heq, -⟩)
      · obtain ⟨r, hr, hleft⟩ := List.all_eq_false.mp hclear
        simp only [RawArtifact.ofUnit, Bool.or_eq_true, Bool.not_eq_true', decide_eq_false_iff_not,
          not_or, not_not, Bool.not_eq_true] at hleft
        exact ⟨r, Table.mem_delete.mpr ⟨hr, hleft.2⟩, hleft.1⟩
      · cases heq
  | commitArtifact p x cursor =>
    show (Database.commitArtifact now p x cursor db).hasRows k = true ↔ _
    -- the commit may take the last row of a unit away, by moving its item to another
    by_cases hp : (p.connectionID, p.syncContainerID) = k
    · exact ⟨fun _ => .inr ⟨p, x, cursor, rfl, hp⟩, fun _ => hasRows_commit hp⟩
    · rw [hasRows_iff, hasRows_iff, commitArtifact_artifacts]
      constructor
      · rintro ⟨r', hr', hk⟩
        left
        rcases Table.mem_upsert hr' with ⟨r, hr, hkey, rfl⟩ | ⟨hr, hne⟩ | ⟨-, rfl⟩
        · -- a row of the item has moved to another unit
          have hconn : r.connectionID = p.connectionID := congrArg Prod.fst hkey
          refine absurd ?_ hp
          rw [← hconn]
          exact hk
        · refine ⟨⟨r', hr, hk⟩, ?_⟩
          rw [Database.clearsRows, Bool.and_eq_false_iff]
          refine .inr (List.all_eq_false.mpr ⟨r', hr, ?_⟩)
          have hne : r'.key ≠ (p.connectionID, p.externalID) := hne
          simp [RawArtifact.ofUnit, hk, hne]
        · exact absurd hk hp
      · rintro (⟨-, hclear⟩ | ⟨p', x', cursor', heq, hp'⟩)
        · rw [Database.clearsRows, decide_eq_true hp, Bool.true_and] at hclear
          obtain ⟨r, hr, hleft⟩ := List.all_eq_false.mp hclear
          simp only [RawArtifact.ofUnit, Bool.or_eq_true, Bool.not_eq_true',
            decide_eq_false_iff_not, decide_eq_true_eq, not_or, not_not] at hleft
          exact ⟨r, Table.mem_upsert_of_ne hr hleft.2, hleft.1⟩
        · cases heq
          exact absurd hp' hp
  | _ => exact hkept rfl (by simp) (by simp)

/-- A unit that is removed after a statement was so before, or the statement removes it. -/
theorem removed_exec (s : Statement) (h : (s.exec now db).2.isRemoved k = true) :
    db.isRemoved k = true ∨ (∃ generation, s = .sweepUnseenUnits k.1 generation ∧
        db.hasUnit k.1 (fun u => decide (u.generation < generation) &&
          decide (u.status ≠ .removed)) k.2 = true) ∨
      s = .setUnitStatus k.1 k.2 .removed := by
  obtain ⟨u', hu', rfl, hst⟩ := isRemoved_iff.mp h
  rcases unit_exec s hu' with ⟨u, hu, rfl | hrw⟩ | ⟨id, x, name, kind, g, -, -, rfl⟩
  · exact .inl (isRemoved_iff.mpr ⟨u', hu, rfl, hst⟩)
  · by_cases hold : u.status = .removed
    · exact .inl (isRemoved_iff.mpr ⟨u, hu, hrw.key.symm, hold⟩)
    · right
      cases hrw with
      | status u st =>
        obtain rfl : st = .removed := hst
        exact .inr rfl
      | sweep u g hg =>
        exact .inl ⟨g, rfl, hasUnit_iff.mpr ⟨u, hu, rfl, by simp [hg, hold]⟩⟩
      | commit u count => cases hst
      | retry u e at_ => cases hst
      | rearm u hsel hstatus => cases hst
      | _ => exact absurd hst hold
  · cases hst

/-! ### The cutoff -/

/-- Only a unit of the grace period before the last reading of the clock is collected; the ghost
state is that reading. -/
def collecting : Protocol (Option Time) Cmd Cmd.Resp where
  allowed g
    | .statement (.gcRemovedUnits _ cutoff) => ∃ t, g = some t ∧ cutoff = t - purgeGrace
    | _ => True
  next g
    | .clock, t => some t
    | _, _ => g

/-- The command is no collection. -/
def Cmd.spares : Cmd → Bool
  | .statement (.gcRemovedUnits _ _) => false
  | _ => true

theorem allowed_of_spares {c : Cmd} (hc : c.spares = true) (g : Option Time) :
    collecting.allowed g c := by
  cases c with
  | statement s => cases s <;> trivial
  | _ => trivial

theorem follows_collecting_of_uses {α : Type} {p : Program α}
    (h : p.Uses fun c => c.spares = true) (g : Option Time) :
    p.Follows collecting (fun _ _ => True) g :=
  Prog.follows_of_uses (I := fun _ => True)
    (h.mono fun _ hc g _ => ⟨allowed_of_spares hc g, fun _ => trivial⟩) trivial

theorem spares_of_ordinary {c : Cmd} (h : c.ordinary = true) : c.spares = true := by
  cases c with
  | statement s => cases s <;> first | rfl | cases h
  | _ => rfl

theorem spares_of_touchesTokens {c : Cmd} (h : c.touchesTokens = true) : c.spares = true := by
  cases c with
  | statement s => cases s <;> first | rfl | cases h
  | _ => rfl

theorem spares_of_settles {c : Cmd} (h : c.settles = true) : c.spares = true := by
  cases c with
  | statement s => cases s <;> first | rfl | cases h
  | _ => rfl

theorem spares_of_inSync {i : SyncInput} {conn : Connection} {c : Cmd} (h : InSync i conn c) :
    c.spares = true := by
  cases h with
  | tokens hc => exact spares_of_touchesTokens hc
  | _ => rfl

theorem spares_of_inPass {conn : Connection} {c : Cmd} (h : InPass conn c) : c.spares = true := by
  cases h with
  | tokens hc => exact spares_of_touchesTokens hc
  | _ => rfl

/-- `GCRemovedUnits` takes its cutoff from the clock. -/
theorem follows_collecting_gc :
    Activities.gcRemovedUnits.Follows collecting (fun _ _ => True) none := by
  refine ⟨trivial, fun now => ⟨trivial, fun r => ?_⟩⟩
  cases r with
  | error e => trivial
  | ok ids =>
    refine Prog.follows_of_uses (I := fun g => g = some now) ?_ rfl
      |>.mono fun _ _ _ => trivial
    refine (uses_gcConnections (now - purgeGrace) ids 0).mono ?_
    rintro c ⟨id, rfl⟩ g rfl
    exact ⟨⟨now, rfl, rfl⟩, fun _ => rfl⟩

theorem spares_syncUnit (a : Activities) (i : SyncInput) :
    (a.syncUnit i).Uses fun c => c.spares = true := by
  rw [syncUnit_eq]
  refine ((a.touchesTokens_loadConnection _).mono fun _ => spares_of_touchesTokens).bind fun r => ?_
  cases r with
  | error e => exact Prog.uses_pure _ _
  | ok cc => exact (uses_syncLoaded a cc.2).mono fun _ => spares_of_inSync

theorem spares_discoverUnits (a : Activities) (id : Uuid) :
    (a.discoverUnits id).Uses fun c => c.spares = true := by
  rw [discoverUnits_loaded]
  refine ((a.touchesTokens_loadConnection _).mono fun _ => spares_of_touchesTokens).bind fun r => ?_
  cases r with
  | error e => exact Prog.uses_pure _ _
  | ok cc => exact (uses_discoverLoaded a cc.2).mono fun _ => spares_of_inPass

/-- **Whatever a job collects, its cutoff is a grace period before a reading of the clock.** -/
theorem Job.follows_collecting (a : Activities) (sv : Server) (j : Job) :
    (j.prog a sv).Follows collecting (fun _ _ => True) none := by
  by_cases hgc : j = .upkeep .gcRemovedUnits
  · subst hgc
    exact follows_collecting_gc.bind fun _ _ _ => trivial
  · refine follows_collecting_of_uses ?_ none
    by_cases hroutine : j.isRoutine = true
    · exact (Job.ordinary a sv hroutine hgc).mono fun _ => spares_of_ordinary
    · cases j with
      | syncUnit i => exact uses_discard (spares_syncUnit a i)
      | settleConnection id =>
        exact uses_discard ((uses_settleConnection id).mono fun _ => spares_of_settles)
      | upkeep u =>
        cases u with
        | discoverUnits id => exact uses_discard (spares_discoverUnits a id)
        | _ => exact absurd rfl hroutine
      | _ => exact absurd rfl hroutine

/-! ### One step -/

section Step

variable {x : Choice} {b : Bool} {w : World} {c : Cmd} {i : ℕ}

/-- What a step does to the artifacts of a unit. -/
theorem hasRows_step : (service.perform x b w c).1.db.hasRows k = true ↔
    (w.db.hasRows k = true ∧ clears k (i, ⟨w, c, b, x⟩) = false) ∨
      x.takesEffect b = true ∧ ∃ p y cursor, c = .statement (.commitArtifact p y cursor) ∧
        (p.connectionID, p.syncContainerID) = k := by
  rw [service_db]
  cases c with
  | statement s =>
    by_cases hx : x.takesEffect b = true
    · have hclears : clears k (i, ⟨w, .statement s, b, x⟩) = w.db.clearsRows k s := by
        simp [clears, tookEffect, hx]
      simp only [hx, if_true, hasRows_exec, hclears, Cmd.statement.injEq, true_and]
    · simp [hx, clears, tookEffect]
  | _ => simp [clears]

/-- A unit that is removed and has an artifact after a step was so before, and the step did not
take the last away; or the step has stranded one in it. -/
theorem strands_or_of_step (hremoved : (service.perform x b w c).1.db.isRemoved k = true)
    (hrows : (service.perform x b w c).1.db.hasRows k = true) :
    strands k (i, ⟨w, c, b, x⟩) = true ∨ w.db.isRemoved k = true ∧ w.db.hasRows k = true ∧
      ¬ clears k (i, ⟨w, c, b, x⟩) = true := by
  rw [service_db] at hremoved
  cases c with
  | statement s =>
    by_cases hx : x.takesEffect b = true
    · have hstrands : strands k (i, ⟨w, .statement s, b, x⟩) = w.db.strandsRow k s := by
        simp [strands, tookEffect, hx]
      rw [hstrands]
      simp only [hx, if_true] at hremoved
      rcases (hasRows_step (i := i)).mp hrows with ⟨hbefore, hclear⟩ | ⟨-, p, y, cursor, heq, hp⟩
      · rcases removed_exec s hremoved with h | ⟨g, rfl, hswept⟩ | rfl
        · exact .inr ⟨h, hbefore, by simp [hclear]⟩
        · left
          simp only [Database.strandsRow, Bool.and_eq_true, decide_eq_true_eq]
          exact ⟨⟨trivial, hbefore⟩, hswept⟩
        · left
          simp only [Database.strandsRow, Bool.and_eq_true, decide_eq_true_eq]
          exact ⟨⟨trivial, trivial⟩, hbefore⟩
      · cases heq
        rcases removed_exec _ hremoved with h | ⟨g, heq, -⟩ | heq
        · left
          simp only [Database.strandsRow, Bool.and_eq_true, decide_eq_true_eq]
          exact ⟨hp, h⟩
        · cases heq
        · cases heq
    · simp only [hx, Bool.false_eq_true, if_false] at hremoved
      rcases (hasRows_step (i := i)).mp hrows with ⟨hbefore, hclear⟩ | ⟨heff, -⟩
      · exact .inr ⟨hremoved, hbefore, by simp [hclear]⟩
      · exact absurd heff hx
  | _ =>
    rcases (hasRows_step (i := i)).mp hrows with ⟨hbefore, hclear⟩ | ⟨-, p, y, cursor, heq, -⟩
    · exact .inr ⟨hremoved, hbefore, by simp [hclear]⟩
    · cases heq

/-- A unit in which an artifact is stranded has one. -/
theorem hasRows_of_strands (h : strands k (i, ⟨w, c, b, x⟩) = true) :
    (service.perform x b w c).1.db.hasRows k = true := by
  obtain ⟨hx, h⟩ := Bool.and_eq_true_iff.mp h
  cases c with
  | statement s =>
    cases s with
    | sweepUnseenUnits id generation =>
      have h : (decide (id = k.1) && w.db.hasRows k && _) = true := h
      simp only [Bool.and_eq_true] at h
      exact (hasRows_step (i := i)).mpr (.inl ⟨h.1.2, by simp [clears, Database.clearsRows]⟩)
    | setUnitStatus id y status =>
      have h : (decide ((id, y) = k) && decide (status = .removed) && w.db.hasRows k) = true := h
      simp only [Bool.and_eq_true] at h
      exact (hasRows_step (i := i)).mpr (.inl ⟨h.2, by simp [clears, Database.clearsRows]⟩)
    | commitArtifact p y cursor =>
      have h : (decide ((p.connectionID, p.syncContainerID) = k) && w.db.isRemoved k) = true := h
      simp only [Bool.and_eq_true, decide_eq_true_eq] at h
      exact (hasRows_step (i := i)).mpr (.inr ⟨hx, p, y, cursor, rfl, h.1⟩)
    | _ => cases h
  | _ => cases h

/-- A unit after a step is one that was there, untouched, or was touched just now. -/
theorem unit_kept_or_marked {u : SyncUnit} (hu : u ∈ (service.perform x b w c).1.db.units.rows) :
    u ∈ w.db.units.rows ∨ u.updatedAt = w.now + x.elapsed := by
  rw [service_db] at hu
  cases c with
  | statement s =>
    have hu : u ∈ (if x.takesEffect b = true then (s.exec (w.now + x.elapsed) w.db).2
        else w.db : Database).units.rows := hu
    split at hu
    · rcases unit_exec s hu with ⟨u₀, hu₀, rfl | hrw⟩ | ⟨id, y, name, kind, g, -, -, rfl⟩
      · exact .inl hu₀
      · exact .inr hrw.updatedAt
      · exact .inr rfl
    · exact .inl hu
  | _ => exact .inl hu

end Step

/-! ### Every run -/

/-- What holds between two commands. -/
structure CollectInv (w : World) (tr : List (ℕ × Performed World Choice Cmd)) : Prop where
  /-- Time has moved on. -/
  past : ∀ l ∈ tr, performedAt l.2 ≤ w.now
  /-- A unit is removed since it was last touched. -/
  aged : ∀ u ∈ w.db.units.rows, u.status = .removed → ∀ l ∈ tr, u.updatedAt < performedAt l.2 →
    ∃ u' ∈ l.2.state.db.units.rows, u'.id = u.id ∧ u'.status = .removed
  stranded : ∀ k, w.db.isRemoved k = true → w.db.hasRows k = true → Stranded k tr
  left : ∀ k, Stranded k tr → w.db.hasRows k = true
  collected : AtEvery CollectedInTime tr

section Invariant

variable {w : World} {tr : List (ℕ × Performed World Choice Cmd)} {x : Choice} {b : Bool} {c : Cmd}
  {i : ℕ}

/-- What is collected with an old cutoff was removed throughout the grace period. -/
theorem CollectInv.collectedInTime (h : CollectInv w tr) {g : Option Time}
    (hallowed : collecting.allowed g c) (hg : ∀ t, g = some t → t ≤ w.now) :
    CollectedInTime tr (i, ⟨w, c, b, x⟩) := by
  rintro u ⟨-, hu, cutoff, rfl, hcollectable⟩
  obtain ⟨t, ht, hcutoff⟩ : ∃ t, g = some t ∧ cutoff = t - purgeGrace := hallowed
  simp only [collectable, Bool.and_eq_true, decide_eq_true_eq] at hcollectable
  obtain ⟨hst, hold⟩ := hcollectable
  have hnow : t ≤ w.now + x.elapsed := Nat.le_trans (hg t ht) (Nat.le_add_right _ _)
  have hgrace : u.updatedAt + purgeGrace < w.now + x.elapsed := by
    generalize purgeGrace = grace at hcutoff ⊢
    lia
  refine ⟨⟨hst, hgrace, fun l hl hrecent => h.aged u hu hst l hl ?_⟩, ?_⟩
  · exact Nat.lt_of_add_lt_add_right (Nat.lt_of_lt_of_le hgrace hrecent)
  · have hremoved : w.db.isRemoved u.key = true := isRemoved_iff.mpr ⟨u, hu, rfl, hst⟩
    constructor
    · intro hnone hstranded
      rw [h.left _ hstranded] at hnone
      cases hnone
    · intro hnot
      by_contra hsome
      exact hnot (h.stranded _ hremoved (by simpa using hsome))

/-- **One command keeps the invariant.** -/
theorem CollectInv.step (h : CollectInv w tr) {g : Option Time}
    (hallowed : collecting.allowed g c) (hg : ∀ t, g = some t → t ≤ w.now) :
    CollectInv (service.perform x b w c).1 (tr ++ [(i, ⟨w, c, b, x⟩)]) where
  past := by
    intro l hl
    rw [service_now]
    rcases List.mem_append.mp hl with hl | hl
    · have := h.past l hl
      lia
    · rw [List.mem_singleton.mp hl]
      exact Nat.le_refl _
  aged := by
    intro u hu hst l hl hlate
    rcases unit_kept_or_marked hu with hu | hnow
    · rcases List.mem_append.mp hl with hl | hl
      · exact h.aged u hu hst l hl hlate
      · rw [List.mem_singleton.mp hl]
        exact ⟨u, hu, rfl, hst⟩
    · -- nothing was performed after a unit that is touched now
      rcases List.mem_append.mp hl with hl | hl
      · have := h.past l hl
        lia
      · rw [List.mem_singleton.mp hl] at hlate
        have hlate : u.updatedAt < w.now + x.elapsed := hlate
        lia
  stranded := by
    intro k hremoved hrows
    rw [Stranded, pending_snoc]
    rcases strands_or_of_step (i := i) hremoved hrows with h' | ⟨hremoved, hrows, hnot⟩
    · exact .inl h'
    · exact .inr ⟨h.stranded k hremoved hrows, id, hnot⟩
  left := by
    intro k hstranded
    rw [Stranded, pending_snoc] at hstranded
    rcases hstranded with hopen | ⟨hbefore, -, hnot⟩
    · exact hasRows_of_strands hopen
    · exact (hasRows_step (i := i)).mpr (.inl ⟨h.left k hbefore, by simpa using hnot⟩)
  collected := atEvery_snoc h.collected (h.collectedInTime hallowed hg)

end Invariant

/-- **A collected unit was removed throughout the grace period**, in every run of any jobs side by
side, **and has no artifact left if and only if none was stranded in it**; at the start no removed
unit has an artifact. -/
theorem collected_in_time (a : Activities) (sv : Server) {w : World}
    {es : List (PoolEvent Job Choice)} {s : Pool World Cmd Cmd.Resp Unit}
    {tr : List (ℕ × Performed World Choice Cmd)}
    (h : (service.threads (Job.prog a sv)).Run ⟨w, []⟩ es s tr)
    (hw : ∀ k, w.db.isRemoved k = true → w.db.hasRows k = false) :
    AtEvery CollectedInTime tr := by
  have hinit : CollectInv w [] :=
    { past := by simp
      aged := by simp
      stranded := by
        intro k hremoved hrows
        rw [hw k hremoved] at hrows
        cases hrows
      left := fun k hstranded => absurd hstranded pending_nil
      collected := atEvery_nil }
  have hboth := threads_interference (J := CollectInv)
    (K := fun (g : Option Time) (w : World) => ∀ t, g = some t → t ≤ w.now) h
    (Job.follows_collecting a sv) hinit (by intro w t ht; cases ht) ?_
  · exact hboth.1.collected
  · intro s tr i t c k b _ hth hallowed hJ hK
    have hnow : s.world.now ≤ (service.perform t.choice (b || t.cancel) s.world c).1.now := by
      rw [service_now]
      exact Nat.le_add_right _ _
    have hmine := hK i (Pool.running_of_call hth)
    refine ⟨hJ.step hallowed hmine, fun r hr => ?_, fun i' _ hi' r hr => ?_⟩
    · -- the thread has just read the clock, or has its old reading
      cases c with
      | clock =>
        cases hr
        rw [service_now]
        exact Nat.le_refl _
      | _ => exact Nat.le_trans (hmine r hr) hnow
    · exact Nat.le_trans (hK i' hi' r hr) hnow

/-! ### A maintenance pass, eight days after a sweep -/

/-- The step collects a unit that satisfies a condition. -/
def collectsWith (p : Database → SyncUnit → Bool) (l : ℕ × Performed World Choice Cmd) : Bool :=
  tookEffect l.2 && match l.2.cmd with
    | .statement (.gcRemovedUnits id cutoff) => l.2.state.db.units.rows.any fun u =>
        decide (u.connectionID = id) && collectable cutoff u && p l.2.state.db u
    | _ => false

theorem collects_of_check {p : Database → SyncUnit → Bool} {l : ℕ × Performed World Choice Cmd}
    (h : collectsWith p l = true) : ∃ u, Collects l.2 u ∧ p l.2.state.db u = true := by
  obtain ⟨heff, h⟩ := Bool.and_eq_true_iff.mp h
  split at h
  · rename_i id cutoff hcmd
    obtain ⟨u, hu, hboth⟩ := List.any_eq_true.mp h
    simp only [Bool.and_eq_true, decide_eq_true_eq] at hboth
    obtain ⟨⟨rfl, hcollectable⟩, hp⟩ := hboth
    exact ⟨u, ⟨heff, hu, cutoff, hcmd, hcollectable⟩, hp⟩
  · cases h

/-- A turn of the purge pass in which the command fares as given. -/
def purgeTurn (outcome : Outcome) (elapsed : Time) : PoolEvent Job Choice :=
  .turn 1 ⟨false, { outcome, elapsed, answer := annAnswers }⟩

/-- A unit is swept; eight days later a maintenance pass purges, checks the erasure window and
collects. -/
def sweepAndMaintain (purge : List (PoolEvent Job Choice)) : List (PoolEvent Job Choice) :=
  .start (.upkeep (.discoverUnits 0)) :: quietTurns 0 9 ++
    .start (.upkeep (.purgeArtifacts 0)) :: purgeTurn .applied (8 * day) :: purge ++
    .start (.upkeep .checkPurgeSLA) :: quietTurns 2 2 ++
    .start (.upkeep .gcRemovedUnits) :: quietTurns 3 3

/-- No unit of the Drive is a tombstone. -/
theorem goneWorld_clean (k : Uuid × String) (h : goneWorld.db.isRemoved k = true) :
    goneWorld.db.hasRows k = false := by
  have hlive : ∀ u ∈ goneWorld.db.units.rows, u.status ≠ .removed := by decide +kernel
  obtain ⟨u, hu, -, hst⟩ := isRemoved_iff.mp h
  exact absurd hst (hlive u hu)

/-- A unit whose document was purged is collected in time. -/
theorem purged_collected_in_time :
    ∃ s tr, (service.threads (Job.prog driveActivities driveServer)).Run ⟨goneWorld, []⟩
        (sweepAndMaintain (quietTurns 1 2)) s tr ∧
      (∃ l ∈ tr, ∃ u, Collects l.2 u ∧ l.2.state.db.hasRows u.key = false) ∧
        AtEvery CollectedInTime tr := by
  obtain ⟨s, tr, hrun, hend⟩ := Lts.exists_run_of_any
    (service.threads (Job.prog driveActivities driveServer)) ⟨goneWorld, []⟩
    (sweepAndMaintain (quietTurns 1 2))
    (fun _ tr => tr.any (collectsWith fun db u => !db.hasRows u.key))
    (by decide +kernel)
  obtain ⟨l, hl, hcheck⟩ := List.any_eq_true.mp hend
  obtain ⟨u, hu, hnone⟩ := collects_of_check hcheck
  exact ⟨s, tr, hrun, ⟨l, hl, u, hu, by simpa using hnone⟩,
    collected_in_time driveActivities driveServer hrun goneWorld_clean⟩

/-- **A unit is collected although the delete of its document has failed.** -/
theorem collected_with_artifact :
    ∃ s tr, (service.threads (Job.prog driveActivities driveServer)).Run ⟨goneWorld, []⟩
        (sweepAndMaintain [purgeTurn (.refused "storage is down") 0]) s tr ∧
      (∀ k, goneWorld.db.isRemoved k = true → goneWorld.db.hasRows k = false) ∧
        ∃ l ∈ tr, ∃ u, Collects l.2 u ∧ l.2.state.db.hasRows u.key = true := by
  obtain ⟨s, tr, hrun, hend⟩ := Lts.exists_run_of_any
    (service.threads (Job.prog driveActivities driveServer)) ⟨goneWorld, []⟩
    (sweepAndMaintain [purgeTurn (.refused "storage is down") 0])
    (fun _ tr => tr.any (collectsWith fun db u => db.hasRows u.key)) (by decide +kernel)
  obtain ⟨l, hl, hcheck⟩ := List.any_eq_true.mp hend
  exact ⟨s, tr, hrun, goneWorld_clean, l, hl, collects_of_check hcheck⟩

end Hivebook
