import Mathlib.Data.Finset.Range
import Hivebook.Lib.Backlog
import Hivebook.Service.Grace

/-!
# What the purge loop leaves behind

A maintenance pass purges the outbox in batches: each is the head of the outbox in deadline order,
and a row whose delete fails keeps its place.  The loop stops at a batch that cleared nothing.
Then the head is stuck, and what stands behind a whole batch of failing rows was never tried.

## Main definitions

* `Database.purgeQueue` — the outbox in the order it is worked off.
* `sticky` — the rows that stay when their delete fails.
* `Fares`, `PurgeActivity`, `PurgeLoop` — the loop, given the rows whose delete fails.

## Main results

* `PurgeLoop.reduced` — the loop works the outbox off from its head.
* `purge_complete_iff` — **the loop leaves only failing rows exactly when no row that is due has
  a whole batch of failing rows before it.**
* `purge_starved` — an outbox whose last row is never tried.
-/

namespace Hivebook

open Machine Storage Backlog

/-! ### The outbox in order -/

namespace Database

/-- The outbox in the order it is worked off. -/
def purgeQueue (db : Database) : List RawArtifact :=
  (db.artifacts.rows.filter RawArtifact.purgePending).insertionSort
    fun r r' => deadlineLE r r' = true

theorem listPurgePendingArtifacts_eq (limit : ℕ) (db : Database) :
    listPurgePendingArtifacts limit db = db.purgeQueue.take limit := rfl

theorem mem_purgeQueue {db : Database} {r : RawArtifact} :
    r ∈ db.purgeQueue ↔ r ∈ db.artifacts.rows ∧ r.purgePending = true := by
  unfold purgeQueue
  rw [List.mem_insertionSort, List.mem_filter]

instance : Std.Total fun r r' : RawArtifact => deadlineLE r r' = true where
  total r r' := by
    unfold deadlineLE
    cases r.purgeDeadline <;> cases r'.purgeDeadline <;> simp [Nat.le_total]

instance : IsTrans RawArtifact fun r r' => deadlineLE r r' = true where
  trans r r' r'' h h' := by
    unfold deadlineLE at *
    cases hr : r.purgeDeadline <;> cases hr' : r'.purgeDeadline <;>
      cases hr'' : r''.purgeDeadline <;> simp_all
    exact Nat.le_trans h h'

/-- A confirmation drops its rows from the outbox and leaves the others in their order. -/
theorem purgeQueue_confirm (ids : List Uuid) (db : Database) :
    (confirmArtifactDeletes ids db).2.purgeQueue =
      db.purgeQueue.filter fun r => !decide (r.id ∈ ids) := by
  have hrows : ((confirmArtifactDeletes ids db).2.artifacts.rows.filter RawArtifact.purgePending) =
      (db.artifacts.rows.filter RawArtifact.purgePending).filter
        fun r => !decide (r.id ∈ ids) := by
    show (db.artifacts.rows.filter _).filter RawArtifact.purgePending = _
    rw [List.filter_filter, List.filter_filter]
    refine List.filter_congr fun r _ => ?_
    cases hp : r.purgePending <;> simp [hp]
  unfold purgeQueue
  rw [hrows, insertionSort_filter]

end Database

open Database

/-! ### One attempt of the activity -/

/-- A row with bytes to erase, and whose delete fails: it stays. -/
def sticky (F : Finset Uuid) (r : RawArtifact) : Bool :=
  decide (r.objectKey ≠ "") && decide (r.id ∈ F)

/-- A command was answered without an error. -/
def answeredOk (l : Performed World Choice Cmd) : Prop :=
  l.cancelled = false ∧ l.choice.outcome = .applied

/-- The deletes of an attempt, one for each row in turn, fail for the rows of `F` and for no
other.  A row without an object key is deleted without one, and a key that is malformed fails at
once. -/
def Fares (F : Finset Uuid) : List RawArtifact → List (Performed World Choice Cmd) → Prop
  | [], _ => True
  | r :: rs, ls =>
      if r.objectKey = "" then Fares F rs ls
      else if (cut r.objectKey).isNone = true then r.id ∈ F ∧ Fares F rs ls
      else match ls with
        | [] => True
        | l :: ls => (answeredOk l ↔ r.id ∉ F) ∧ Fares F rs ls

/-- A delete is answered as it fared. -/
theorem reply_deleteObject (x : Choice) (b : Bool) (w : World) (o : String × String) :
    ((service.perform x b w (.deleteObject o.1 o.2)).2 = .ok () ↔
      answeredOk ⟨w, .deleteObject o.1 o.2, b, x⟩) := by
  show x.reply b (.ok ()) = .ok () ↔ b = false ∧ x.outcome = .applied
  unfold Choice.reply
  cases b <;> cases x.outcome <;> simp

/-- The delete loop changes no row. -/
theorem uses_purgeRows_db (confirmed : List Uuid) (res : PurgeResult) (rows : List RawArtifact) :
    (Activities.purgeRows confirmed res rows).Uses fun c => ∀ x b w,
      (service.perform x b w c).1.db = w.db := by
  induction rows generalizing confirmed res with
  | nil => exact Prog.uses_pure _ _
  | cons r rs ih =>
    unfold Activities.purgeRows
    split
    · exact ih _ _
    · refine Prog.Uses.bind ?_ fun reply => ?_
      · unfold deleteObject
        split
        · exact Prog.uses_pure _ _
        · refine ⟨fun x b w => service_db x b w _, fun reply => ?_⟩
          cases reply <;> exact Prog.uses_pure _ _
      · cases reply <;> exact ih _ _

variable {F : Finset Uuid} {b b' : Bool} {w w' : World} {ls : List (Performed World Choice Cmd)}

/-- The delete of a row with bytes fares as `F` says. -/
theorem deleteObject_fares {r : RawArtifact} {rs : List RawArtifact} (hkey : r.objectKey ≠ "")
    {ls' : List (Performed World Choice Cmd)} {reply : Except Err Unit}
    (h : service.Returns (deleteObject r.objectKey) b w ls reply b' w')
    (hF : Fares F (r :: rs) (ls ++ ls')) :
    (reply = .ok () ↔ r.id ∉ F) ∧ Fares F rs ls' := by
  unfold Fares at hF
  rw [if_neg hkey] at hF
  unfold deleteObject at h
  cases hcut : cut r.objectKey with
  | none =>
    rw [hcut, if_pos Option.isNone_none] at hF
    rw [hcut] at h
    obtain ⟨rfl, rfl, -⟩ := h.of_pure
    refine ⟨⟨nofun, fun hnot => absurd hF.1 hnot⟩, hF.2⟩
  | some o =>
    rw [hcut, if_neg (by simp)] at hF
    rw [hcut] at h
    obtain ⟨t, ls₁, rfl, hrest⟩ := Machine.Returns.of_call h
    have hreply := reply_deleteObject t.choice (b || t.cancel) w o
    cases hp : (service.perform t.choice (b || t.cancel) w (.deleteObject o.1 o.2)).2 with
    | error e =>
      rw [hp] at hrest hreply
      obtain ⟨rfl, rfl, -⟩ := hrest.of_pure
      refine ⟨⟨nofun, fun hnot => ?_⟩, hF.2⟩
      cases hreply.mpr (hF.1.mpr hnot)
    | ok u =>
      rw [hp] at hrest hreply
      obtain ⟨rfl, rfl, -⟩ := hrest.of_pure
      exact ⟨⟨fun _ => hF.1.mp (hreply.mp rfl), fun _ => rfl⟩, hF.2⟩

/-- **The delete loop** confirms every row of the batch but the sticky ones, and counts them. -/
theorem returns_purgeRows {rows : List RawArtifact} {confirmed : List Uuid} {res : PurgeResult}
    {ls' : List (Performed World Choice Cmd)} {out : List Uuid × PurgeResult}
    (h : service.Returns (Activities.purgeRows confirmed res rows) b w ls out b' w')
    (hF : Fares F rows (ls ++ ls')) :
    out.1 = confirmed ++ (rows.filter fun r => !sticky F r).map RawArtifact.id ∧
      out.2.deleted + out.2.orphaned =
        res.deleted + res.orphaned + rows.countP fun r => !sticky F r := by
  induction rows generalizing confirmed res b w ls with
  | nil =>
    obtain ⟨-, rfl, -⟩ := h.of_pure
    simp
  | cons r rs ih =>
    unfold Activities.purgeRows at h
    split at h
    · rename_i hkey
      -- a row with no object is confirmed at once
      have hsticky : sticky F r = false := by simp [sticky, hkey]
      have hF' : Fares F rs (ls ++ ls') := by
        unfold Fares at hF
        rwa [if_pos hkey] at hF
      obtain ⟨hids, hcount⟩ := ih h hF'
      rw [List.filter_cons_of_pos (by simp [hsticky]), List.countP_cons_of_pos (by simp [hsticky])]
      refine ⟨by simp [hids], ?_⟩
      rw [hcount]
      dsimp only
      omega
    · rename_i hkey
      obtain ⟨reply, b₁, w₁, ls₁, ls₂, rfl, hdel, hrest⟩ := Machine.returns_bind.mp h
      rw [List.append_assoc] at hF
      obtain ⟨hok, hF'⟩ := deleteObject_fares hkey hdel hF
      cases reply with
      | error e =>
        have hin : r.id ∈ F := by
          by_contra hnot
          cases hok.mpr hnot
        have hsticky : sticky F r = true := by simp [sticky, hkey, hin]
        obtain ⟨hids, hcount⟩ := ih hrest hF'
        rw [List.filter_cons_of_neg (by simp [hsticky]),
          List.countP_cons_of_neg (by simp [hsticky])]
        exact ⟨hids, hcount⟩
      | ok u =>
        have hnot : r.id ∉ F := hok.mp rfl
        have hsticky : sticky F r = false := by simp [sticky, hnot]
        obtain ⟨hids, hcount⟩ := ih hrest hF'
        rw [List.filter_cons_of_pos (by simp [hsticky]),
          List.countP_cons_of_pos (by simp [hsticky])]
        refine ⟨by simp [hids], ?_⟩
        rw [hcount]
        dsimp only
        omega

/-- Listing the outbox changes no row. -/
theorem service_listPurgePending_db (x : Choice) (b : Bool) (w : World) (n : ℕ) :
    (service.perform x b w (.statement (.listPurgePendingArtifacts n))).1.db = w.db := by
  rw [service_db]
  exact ite_self _

/-- The rows of a batch that are confirmed leave the outbox, and no other. -/
theorem reduced_confirm (db : Database) : Reduced purgeBatch (sticky F) db.purgeQueue
    (confirmArtifactDeletes (((db.purgeQueue.take purgeBatch).filter
      fun r => !sticky F r).map RawArtifact.id) db).2.purgeQueue := by
  rw [purgeQueue_confirm]
  refine .batch _ (fun r hr hdropped => ?_) (.refl _)
  have hid : r.id ∈ ((db.purgeQueue.take purgeBatch).filter
      fun r => !sticky F r).map RawArtifact.id := by
    simpa using hdropped
  obtain ⟨r', hr', heq⟩ := List.mem_map.mp hid
  obtain ⟨htake, hfree⟩ := List.mem_filter.mp hr'
  -- an id names one row
  have hrow : r' = r := db.artifacts.eq_of_id (mem_purgeQueue.mp (List.mem_of_mem_take htake)).1
    (mem_purgeQueue.mp hr).1 heq
  subst hrow
  exact ⟨htake, by simpa using hfree⟩

/-- **An attempt**, wherever it stops, has dropped nothing from the outbox but the rows of its
batch that are not sticky. -/
theorem stops_purgeArtifacts (h : service.Stops (Activities.purgeArtifacts 0) b w ls b' w')
    (hF : Fares F (w.db.purgeQueue.take purgeBatch) ls.tail) :
    Reduced purgeBatch (sticky F) w.db.purgeQueue w'.db.purgeQueue := by
  have h : service.Stops ((statement (.listPurgePendingArtifacts purgeBatch)).bind _)
      b w ls b' w' := h
  rcases stops_statement h with ⟨-, rfl⟩ | ⟨x, b₁, reply, ls₁, hreply, rfl, hrest⟩
  · exact .refl _
  have hdb := service_listPurgePending_db x b₁ w purgeBatch
  cases reply with
  | error e =>
    have hsame := hrest.keeps (K := fun v => v.db = w.db) trivial hdb
    rw [hsame]
    exact .refl _
  | ok rows =>
    have hrows : listPurgePendingArtifacts purgeBatch w.db = rows :=
      Except.ok.inj (of_reply_eq_ok hreply).2
    rw [listPurgePendingArtifacts_eq] at hrows
    have hrest : service.Stops ((Activities.purgeRows [] _ rows).bind _) b₁ _ ls₁ b' w' := hrest
    rcases hrest.of_bind with hstop | ⟨⟨confirmed, res⟩, b₂, w₂, ls₂, ls₃, rfl, hloop, hrest⟩
    · have hsame := hstop.keeps (K := fun v => v.db = w.db)
        ((uses_purgeRows_db ..).mono fun c hc x b v hv => (hc x b v).trans hv) hdb
      rw [hsame]
      exact .refl _
    have hsame := hloop.keeps (K := fun v => v.db = w.db)
      ((uses_purgeRows_db ..).mono fun c hc x b v hv => (hc x b v).trans hv) hdb
    rw [← hrows] at hloop
    obtain ⟨hids, -⟩ := returns_purgeRows hloop hF
    obtain rfl : confirmed = _ := hids
    rw [List.nil_append] at hrest
    -- the outbox is as the listing found it, until the confirmation
    have hdone : ∀ v : World, v.db = w.db →
        Reduced purgeBatch (sticky F) w.db.purgeQueue v.db.purgeQueue := by
      intro v hv
      rw [hv]
      exact .refl _
    dsimp only at hrest
    split at hrest
    · exact hdone w' (hrest.keeps (K := fun v => v.db = w.db) (Prog.uses_pure _ _) hsame)
    · rcases stops_statement hrest with ⟨-, rfl⟩ | ⟨x', b₃, reply, ls₄, -, rfl, hend⟩
      · exact hdone _ hsame
      · have hconfirm := service_db x' b₃ w₂ (.statement (.confirmArtifactDeletes
          (((w.db.purgeQueue.take purgeBatch).filter fun r => !sticky F r).map RawArtifact.id)))
        have hlast : w'.db = _ := hend.keeps (K := fun v => v.db = _)
          (by cases reply <;> exact Prog.uses_pure _ _) hconfirm
        rw [hlast]
        dsimp only
        split
        · rw [hsame]
          exact reduced_confirm w.db
        · exact hdone w₂ hsame

/-- A batch of which nothing was cleared is stuck. -/
theorem sticky_of_countP {rows : List RawArtifact} (h : rows.countP (fun r => !sticky F r) = 0) :
    (∀ r ∈ rows, sticky F r = true) ∧
      (rows.filter fun r => !sticky F r).map RawArtifact.id = [] := by
  have hall : ∀ r ∈ rows, sticky F r = true := by
    intro r hr
    have hnot := List.countP_eq_zero.mp h r hr
    simpa using hnot
  refine ⟨hall, ?_⟩
  rw [List.map_eq_nil_iff, List.filter_eq_nil_iff]
  intro r hr
  simp [hall r hr]

/-- **An attempt that answers** counts the rows of its batch that are not sticky; where there
are none it changes nothing. -/
theorem returns_purgeArtifacts {res : PurgeResult}
    (h : service.Returns (Activities.purgeArtifacts 0) b w ls (.ok res) b' w')
    (hF : Fares F (w.db.purgeQueue.take purgeBatch) ls.tail) :
    res.deleted + res.orphaned =
        (w.db.purgeQueue.take purgeBatch).countP (fun r => !sticky F r) ∧
      ((w.db.purgeQueue.take purgeBatch).countP (fun r => !sticky F r) = 0 → w'.db = w.db) := by
  obtain ⟨t, ls₁, rfl, hrest⟩ := Machine.Returns.of_call h
  have hdb := service_listPurgePending_db t.choice (b || t.cancel) w purgeBatch
  cases hreply : (service.perform t.choice (b || t.cancel) w
      (.statement (.listPurgePendingArtifacts purgeBatch))).2 with
  | error e =>
    obtain ⟨-, hr, -⟩ := (hreply ▸ hrest).of_pure
    cases hr
  | ok rows =>
    have hrows : listPurgePendingArtifacts purgeBatch w.db = rows :=
      Except.ok.inj (of_reply_eq_ok hreply).2
    rw [listPurgePendingArtifacts_eq] at hrows
    have hrest : service.Returns ((Activities.purgeRows [] _ rows).bind _) _ _ ls₁ (Except.ok res)
        b' w' := hreply ▸ hrest
    obtain ⟨⟨confirmed, res'⟩, b₂, w₂, ls₂, ls₃, rfl, hloop, hend⟩ := Machine.returns_bind.mp hrest
    have hsame := hloop.keeps (K := fun v => v.db = w.db)
      ((uses_purgeRows_db ..).mono fun c hc x b v hv => (hc x b v).trans hv) hdb
    rw [← hrows] at hloop
    obtain ⟨hids, hcount⟩ := returns_purgeRows hloop hF
    obtain rfl : confirmed = _ := hids
    dsimp only at hcount hend
    split at hend
    · obtain ⟨-, hr, -, rfl⟩ := hend.of_pure
      obtain rfl := Except.ok.inj hr
      exact ⟨by omega, fun _ => hsame⟩
    · rename_i hsome
      obtain ⟨t', ls₄, rfl, hlast⟩ := Machine.Returns.of_call hend
      cases hreply' : (service.perform t'.choice (b₂ || t'.cancel) w₂ (.statement
          (.confirmArtifactDeletes ([] ++ ((w.db.purgeQueue.take purgeBatch).filter
            fun r => !sticky F r).map RawArtifact.id)))).2 with
      | error e =>
        obtain ⟨-, hr, -⟩ := (hreply' ▸ hlast).of_pure
        cases hr
      | ok n =>
        obtain ⟨-, hr, -⟩ := (hreply' ▸ hlast).of_pure
        obtain rfl := Except.ok.inj hr
        -- a batch with something to confirm has cleared something
        refine ⟨by omega, fun hzero => absurd ?_ hsome⟩
        rw [List.nil_append]
        exact (sticky_of_countP hzero).2

/-! ### The loop -/

/-- `maintenanceMaxPurgeBatches`. -/
def maintenanceMaxPurgeBatches : ℕ := 50

/-- The activity `PurgeArtifacts` as the workflow executes it: attempts that fail or are lost are
followed by another one, until one answers. -/
inductive PurgeActivity (F : Finset Uuid) : World → Except ActivityError PurgeResult → World → Prop
  | returns {w w' : World} {ls : List (Performed World Choice Cmd)} {b' : Bool}
      {r : Except ActivityError PurgeResult} :
      service.Returns (Activities.purgeArtifacts 0) false w ls r b' w' →
      Fares F (w.db.purgeQueue.take purgeBatch) ls.tail → PurgeActivity F w r w'
  | again {w w' w'' : World} {ls : List (Performed World Choice Cmd)} {b' : Bool}
      {r : Except ActivityError PurgeResult} (wait : Time) :
      service.Stops (Activities.purgeArtifacts 0) false w ls b' w' →
      Fares F (w.db.purgeQueue.take purgeBatch) ls.tail →
      PurgeActivity F (w'.tick wait) r w'' → PurgeActivity F w r w''

/-- How the purge loop ends. -/
inductive PurgeEnd where
  /-- A batch cleared nothing. -/
  | stopped
  /-- After its last iteration. -/
  | capped
  | failed (e : ActivityError)

/-- The purge loop of `MaintenanceWorkflow`, with so many iterations to go. -/
inductive PurgeLoop (F : Finset Uuid) : ℕ → World → PurgeEnd → World → Prop
  | capped (w : World) : PurgeLoop F 0 w .capped w
  | failed {n : ℕ} {w w' : World} {e : ActivityError} :
      PurgeActivity F w (.error e) w' → PurgeLoop F (n + 1) w (.failed e) w'
  | stopped {n : ℕ} {w w' : World} {res : PurgeResult} :
      PurgeActivity F w (.ok res) w' → res.deleted = 0 ∧ res.orphaned = 0 →
      PurgeLoop F (n + 1) w .stopped w'
  | next {n : ℕ} {w w' w'' : World} {res : PurgeResult} {e : PurgeEnd} (wait : Time) :
      PurgeActivity F w (.ok res) w' → ¬ (res.deleted = 0 ∧ res.orphaned = 0) →
      PurgeLoop F n (w'.tick wait) e w'' → PurgeLoop F (n + 1) w e w''

/-- The activity works the outbox off from its head. -/
theorem PurgeActivity.reduced {r : Except ActivityError PurgeResult}
    (h : PurgeActivity F w r w') :
    Reduced purgeBatch (sticky F) w.db.purgeQueue w'.db.purgeQueue := by
  induction h with
  | returns hrun hF => exact stops_purgeArtifacts hrun.stops hF
  | again wait hrun hF _ ih => exact (stops_purgeArtifacts hrun hF).trans ih

/-- An activity that answers that it cleared nothing leaves a head that is stuck. -/
theorem PurgeActivity.stuck {res : PurgeResult} (h : PurgeActivity F w (.ok res) w')
    (hnothing : res.deleted = 0 ∧ res.orphaned = 0) :
    ∀ r ∈ w'.db.purgeQueue.take purgeBatch, sticky F r = true := by
  generalize hr : (Except.ok res : Except ActivityError PurgeResult) = r at h
  induction h with
  | returns hrun hF =>
    subst hr
    obtain ⟨hcount, hsame⟩ := returns_purgeArtifacts hrun hF
    have hzero := hcount.symm.trans (by rw [hnothing.1, hnothing.2])
    rw [hsame hzero]
    exact (sticky_of_countP hzero).1
  | again wait hrun hF _ ih => exact ih hr

/-- **The loop works the outbox off from its head.** -/
theorem PurgeLoop.reduced {n : ℕ} {e : PurgeEnd} (h : PurgeLoop F n w e w') :
    Reduced purgeBatch (sticky F) w.db.purgeQueue w'.db.purgeQueue := by
  induction h with
  | capped w => exact .refl _
  | failed hact => exact hact.reduced
  | stopped hact _ => exact hact.reduced
  | next wait hact _ _ ih => exact hact.reduced.trans ih

/-- A loop that stops early stops with a head that is stuck. -/
theorem PurgeLoop.stuck {n : ℕ} (h : PurgeLoop F n w .stopped w') :
    ∀ r ∈ w'.db.purgeQueue.take purgeBatch, sticky F r = true := by
  generalize he : PurgeEnd.stopped = e at h
  induction h with
  | capped w => cases he
  | failed hact => cases he
  | stopped hact hnothing => exact hact.stuck hnothing
  | next wait hact _ _ ih => exact ih he

theorem pending_of_due {now : Time} {r : RawArtifact} (h : due now r = true) :
    r.purgePending = true := (Bool.and_eq_true_iff.mp h).1

/-- What a loop that stops early leaves of the rows that do not fail are the starved ones. -/
theorem PurgeLoop.left_iff {n : ℕ} (h : PurgeLoop F n w .stopped w') {r : RawArtifact}
    (hr : r ∈ w.db.artifacts.rows) (hpending : r.purgePending = true) (hF : r.id ∉ F) :
    r ∈ w'.db.artifacts.rows ↔ Starved purgeBatch (sticky F) w.db.purgeQueue r := by
  have hfree : sticky F r = false := by simp [sticky, hF]
  rw [← h.reduced.mem_iff_starved h.stuck (mem_purgeQueue.mpr ⟨hr, hpending⟩) hfree,
    mem_purgeQueue]
  exact ⟨fun hmem => ⟨hmem, hpending⟩, fun hmem => hmem.1⟩

/-- **The loop leaves only failing rows exactly when nothing that is due starves.**  For every
outbox and every set of rows whose delete fails, when the purge loop stops before its last
iteration, then every row that was due when it started and is still there is one of them, if and
only if no other row that was due has a whole batch of them before it in the outbox. -/
theorem purge_complete_iff {F : Finset Uuid} {w w' : World}
    (h : PurgeLoop F maintenanceMaxPurgeBatches w .stopped w') :
    (∀ r ∈ w.db.artifacts.rows, due w.now r = true → r ∈ w'.db.artifacts.rows → r.id ∈ F) ↔
      ∀ r ∈ w.db.artifacts.rows, due w.now r = true → r.id ∉ F →
        ¬ Starved purgeBatch (sticky F) w.db.purgeQueue r := by
  refine forall_congr' fun r => forall_congr' fun hr => forall_congr' fun hdue => ?_
  have hpending := pending_of_due hdue
  constructor
  · intro hleft hnot hstarved
    exact hnot (hleft ((h.left_iff hr hpending hnot).mpr hstarved))
  · intro hfine hmem
    by_contra hnot
    exact hfine hnot ((h.left_iff hr hpending hnot).mp hmem)

/-! ### An outbox that is stuck -/

/-- The deletes can fare as any set of rows says that has those with a malformed key. -/
theorem exists_purgeRows (F : Finset Uuid) {rows : List RawArtifact}
    (hF : ∀ r ∈ rows, r.objectKey ≠ "" → (cut r.objectKey).isNone = true → r.id ∈ F)
    (confirmed : List Uuid) (res : PurgeResult) (w : World) :
    ∃ ls out w', service.Returns (Activities.purgeRows confirmed res rows) false w ls out false w' ∧
      ∀ ls', Fares F rows (ls ++ ls') := by
  induction rows generalizing confirmed res w with
  | nil => exact ⟨[], _, w, .pure _ _ _, fun _ => trivial⟩
  | cons r rs ih =>
    have hrest : ∀ r ∈ rs, r.objectKey ≠ "" → (cut r.objectKey).isNone = true → r.id ∈ F :=
      fun r hr => hF r (List.mem_cons_of_mem _ hr)
    unfold Activities.purgeRows
    by_cases hkey : r.objectKey = ""
    · rw [if_pos hkey]
      obtain ⟨ls, out, w', hrun, hfares⟩ := ih hrest (confirmed ++ [r.id])
        { res with orphaned := res.orphaned + 1 } w
      refine ⟨ls, out, w', hrun, fun ls' => ?_⟩
      unfold Fares
      rw [if_pos hkey]
      exact hfares ls'
    · rw [if_neg hkey]
      unfold deleteObject
      cases hcut : cut r.objectKey with
      -- a key without a bucket never reaches the store
      | none =>
        have hnone : (cut r.objectKey).isNone = true := by rw [hcut]; rfl
        obtain ⟨ls, out, w', hrun, hfares⟩ := ih hrest confirmed
          { res with failed := res.failed + 1 } w
        refine ⟨ls, out, w', hrun, fun ls' => ?_⟩
        unfold Fares
        rw [if_neg hkey, if_pos hnone]
        exact ⟨hF r (List.mem_cons_self ..) hkey hnone, hfares ls'⟩
      | some o =>
        have hsome : ¬ (cut r.objectKey).isNone = true := by rw [hcut]; exact Bool.false_ne_true
        by_cases hin : r.id ∈ F
        · -- the delete is refused
          let x : Choice := ⟨.refused "SlowDown", 0, fun _ => .error .canceled⟩
          obtain ⟨ls, out, w', hrun, hfares⟩ := ih hrest confirmed
            { res with failed := res.failed + 1 }
            (service.perform x false w (.deleteObject o.1 o.2)).1
          refine ⟨_, out, w', .call ⟨false, x⟩ hrun, fun ls' => ?_⟩
          unfold Fares
          rw [if_neg hkey, if_neg hsome]
          refine ⟨⟨fun hok => ?_, fun hnot => absurd hin hnot⟩, hfares ls'⟩
          cases hok.2
        · -- the delete succeeds
          let x : Choice := ⟨.applied, 0, fun _ => .error .canceled⟩
          obtain ⟨ls, out, w', hrun, hfares⟩ := ih hrest (confirmed ++ [r.id])
            { res with deleted := res.deleted + 1 }
            (service.perform x false w (.deleteObject o.1 o.2)).1
          refine ⟨_, out, w', .call ⟨false, x⟩ hrun, fun ls' => ?_⟩
          unfold Fares
          rw [if_neg hkey, if_neg hsome]
          exact ⟨⟨fun _ => hin, fun _ => ⟨rfl, rfl⟩⟩, hfares ls'⟩

/-- A pass whose whole batch fails stops at once and changes nothing. -/
theorem exists_stuck_loop (F : Finset Uuid) (w : World)
    (hstuck : ∀ r ∈ w.db.purgeQueue.take purgeBatch, sticky F r = true) :
    ∃ w', PurgeLoop F maintenanceMaxPurgeBatches w .stopped w' ∧ w'.db = w.db := by
  have hF : ∀ r ∈ w.db.purgeQueue.take purgeBatch, r.id ∈ F := by
    intro r hr
    have hboth := hstuck r hr
    simp only [sticky, Bool.and_eq_true, decide_eq_true_eq] at hboth
    exact hboth.2
  have hzero : (w.db.purgeQueue.take purgeBatch).countP (fun r => !sticky F r) = 0 := by
    refine List.countP_eq_zero.mpr fun r hr => ?_
    simp [hstuck r hr]
  let x : Choice := ⟨.applied, 0, fun _ => .error .canceled⟩
  obtain ⟨ls, ⟨confirmed, res⟩, w', hloop, hfares⟩ := exists_purgeRows F
    (fun r hr _ _ => hF r hr) [] { deleted := 0, failed := 0, orphaned := 0 }
    (service.perform x false w (.statement (.listPurgePendingArtifacts purgeBatch))).1
  obtain ⟨hids, hcount⟩ := returns_purgeRows hloop (hfares [])
  obtain rfl : confirmed = [] := hids.trans (by rw [(sticky_of_countP hzero).2, List.nil_append])
  have hrun : service.Returns (Activities.purgeArtifacts 0) false w
      (⟨w, .statement (.listPurgePendingArtifacts purgeBatch), false, x⟩ :: ls) (.ok res) false
      w' := by
    refine .call ⟨false, x⟩ ?_
    show service.Returns ((Activities.purgeRows [] _ (w.db.purgeQueue.take purgeBatch)).bind _)
      _ _ _ _ _ _
    exact Machine.returns_bind.mpr ⟨_, _, _, ls, [], (List.append_nil ls).symm, hloop, .pure _ _ _⟩
  have hfare : Fares F (w.db.purgeQueue.take purgeBatch) ls := List.append_nil ls ▸ hfares []
  have hnothing : res.deleted = 0 ∧ res.orphaned = 0 := by
    dsimp only at hcount
    omega
  exact ⟨w', .stopped (.returns hrun hfare) hnothing, (returns_purgeArtifacts hrun hfare).2 hzero⟩

/-- A document of Ann's that was queued with all the others. -/
def owedRow (i : ℕ) : RawArtifact :=
  { id := i, tenantID := "acme", region := "eu", connectionID := 0, source := "gdocs"
    sourceNativeKind := "gdoc", containerID := "root", syncContainerID := "drive"
    containerKind := "drive_folder", containerName := ""
    externalID := String.ofList (List.replicate i 'd'), sourceURL := ""
    objectKey := bucket "prod" "gdocs" "eu" ++ "/" ++
      ("acme/gdocs/" ++ String.ofList (List.replicate i 'd'))
    contentHash := String.ofList (List.replicate i 'd'), sourceUpdatedAt := none, ingestedAt := 0
    deletedAt := some 0, purgePending := true, purgeDeadline := some 0 }

/-- An outbox of a batch of documents, and one more. -/
def fullOutbox : Database :=
  { Database.empty with
    artifacts :=
      { rows := (List.range (purgeBatch + 1)).map owedRow
        next := purgeBatch + 1
        id_lt := by
          intro r hr
          obtain ⟨i, hi, rfl⟩ := List.mem_map.mp hr
          exact List.mem_range.mp hi
        nodup_id := by
          rw [List.map_map]
          exact List.nodup_range.map fun i j h => h
        nodup_key := by
          rw [List.map_map]
          refine List.nodup_range.map fun i j h => ?_
          have hname : List.replicate i 'd' = List.replicate j 'd' :=
            String.ofList_inj.mp (congrArg Prod.snd h)
          simpa using congrArg List.length hname } }

theorem owedRow_key_ne (i : ℕ) : (owedRow i).objectKey ≠ "" := by
  intro hempty
  have hcut := cut_objectKey "prod" "gdocs" "eu"
    ("acme/gdocs/" ++ String.ofList (List.replicate i 'd'))
  have hnone : cut (owedRow i).objectKey = none := by
    rw [hempty]
    rfl
  rw [show cut (owedRow i).objectKey = _ from hcut] at hnone
  cases hnone

/-- Documents that were queued together are listed in the order of the table. -/
theorem purgeQueue_fullOutbox :
    fullOutbox.purgeQueue = (List.range (purgeBatch + 1)).map owedRow := by
  have hfilter : fullOutbox.artifacts.rows.filter RawArtifact.purgePending =
      (List.range (purgeBatch + 1)).map owedRow := by
    refine List.filter_eq_self.mpr fun r hr => ?_
    obtain ⟨i, -, rfl⟩ := List.mem_map.mp hr
    rfl
  unfold purgeQueue
  rw [hfilter]
  refine List.Pairwise.insertionSort_eq (List.pairwise_map.mpr ?_)
  exact List.pairwise_of_forall fun i j => rfl

theorem fullOutbox_stuck : ∀ r ∈ fullOutbox.purgeQueue.take purgeBatch,
    sticky (Finset.range purgeBatch) r = true := by
  intro r hr
  rw [purgeQueue_fullOutbox, ← List.map_take, List.take_range] at hr
  obtain ⟨i, hi, rfl⟩ := List.mem_map.mp hr
  have hlt : i < purgeBatch := Nat.lt_of_lt_of_le (List.mem_range.mp hi) (Nat.min_le_left _ _)
  have hin : (owedRow i).id ∈ Finset.range purgeBatch := Finset.mem_range.mpr hlt
  simp [sticky, owedRow_key_ne, hin]

/-- The last document of the outbox is due and does not fail, and a pass that stops at its first
batch leaves it. -/
theorem purge_starved : ∃ (F : Finset Uuid) (w w' : World),
    PurgeLoop F maintenanceMaxPurgeBatches w .stopped w' ∧
      ∃ r ∈ w.db.artifacts.rows, due w.now r = true ∧ r ∈ w'.db.artifacts.rows ∧ r.id ∉ F := by
  obtain ⟨w', hloop, hsame⟩ := exists_stuck_loop (Finset.range purgeBatch)
    ⟨fullOutbox, fun _ => none, 0⟩ fullOutbox_stuck
  have hlast : owedRow purgeBatch ∈ fullOutbox.artifacts.rows :=
    List.mem_map.mpr ⟨purgeBatch, List.mem_range.mpr (Nat.lt_succ_self _), rfl⟩
  refine ⟨_, _, w', hloop, owedRow purgeBatch, hlast, rfl, ?_, ?_⟩
  · rw [hsame]
    exact hlast
  · exact fun hin => Nat.lt_irrefl _ (Finset.mem_range.mp hin)

/-- That pass, judged by the condition. -/
theorem purge_starved_complete_iff : ∃ w', PurgeLoop (Finset.range purgeBatch)
      maintenanceMaxPurgeBatches ⟨fullOutbox, fun _ => none, 0⟩ .stopped w' ∧
    ((∀ r ∈ fullOutbox.artifacts.rows, due 0 r = true → r ∈ w'.db.artifacts.rows →
        r.id ∈ Finset.range purgeBatch) ↔
      ∀ r ∈ fullOutbox.artifacts.rows, due 0 r = true → r.id ∉ Finset.range purgeBatch →
          ¬ Starved purgeBatch (sticky (Finset.range purgeBatch)) fullOutbox.purgeQueue r) := by
  obtain ⟨w', hloop, -⟩ := exists_stuck_loop (Finset.range purgeBatch)
    ⟨fullOutbox, fun _ => none, 0⟩ fullOutbox_stuck
  exact ⟨w', hloop, purge_complete_iff hloop⟩

end Hivebook
