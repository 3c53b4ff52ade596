import Hivebook.Service.Visibility

/-!
# What is hidden is owed an erasure

A disconnect hides the artifacts of a connection and queues them for erasure; a discovery queues
those of the units it removes, and hides them in the same statement.  A change of the selection
hides the artifacts of the units that were deselected, and queues nothing: neither the purge pass
nor the check of the erasure window ever looks at such a row.

A row is hidden and not queued exactly if a step has hidden it and no step since has queued it or
brought it back: the mark of a disconnect, the mark of a discovery that finds its unit removed, a
reconnect, or a selection of its unit.

## Main definitions

* `HiddenOwed` — every hidden row is queued.
* `hidesRow`, `requeuesRow`, `HiddenUnqueued` — the statements that decide it of a row.

## Main results

* `unowed_exec` — whether a row is hidden and not queued after a statement.
* `hidden_owed` — **every hidden row is queued, and in the outbox, exactly in the runs that leave no
  row hidden and not queued behind.**
* `deselected_never_queued` — the rows a deselection hides are in no outbox.
-/

namespace Hivebook

open Database Machine

/-- Every hidden row is queued for erasure. -/
def HiddenOwed (db : Database) : Prop :=
  ∀ r ∈ db.artifacts.rows, r.deletedAt.isSome = true → r.purgePending = true

instance (db : Database) : Decidable (HiddenOwed db) :=
  inferInstanceAs (Decidable (∀ r ∈ db.artifacts.rows, _))

/-- The row of the key is hidden and not queued. -/
def unowed (k : Uuid × String) (db : Database) : Bool :=
  db.artifacts.rows.any fun r => decide (r.key = k) && (r.deletedAt.isSome && !r.purgePending)

/-- The statement hides the row of the key, which is not queued. -/
def hidesRow (k : Uuid × String) (db : Database) (s : Statement) : Bool :=
  db.artifacts.rows.any fun r => decide (r.key = k) && (db.hides s r && !r.purgePending)

/-- The statement brings the row of the key back, or queues it. -/
def requeuesRow (k : Uuid × String) (db : Database) (s : Statement) : Bool :=
  db.artifacts.rows.any fun r => decide (r.key = k) && (db.restores s r || db.queues s r)

/-- A step that hid the row of the key without queueing it has not been followed by one that queues
it or brings it back. -/
def HiddenUnqueued (k : Uuid × String) (tr : List (Performed World Choice Cmd)) : Prop :=
  Pending (fun l => carriesOut (hidesRow k) l = true) (fun l => carriesOut (requeuesRow k) l = true)
    (fun _ => False) tr

/-- What a run has left behind is the row of a key that was there. -/
theorem HiddenUnqueued.exists_row {k : Uuid × String} {tr : List (Performed World Choice Cmd)}
    (h : HiddenUnqueued k tr) : ∃ l ∈ tr, ∃ r ∈ l.state.db.artifacts.rows, r.key = k := by
  obtain ⟨pre, l, mid, rfl, hopens, -⟩ := h
  refine ⟨l, by simp, ?_⟩
  obtain ⟨-, hhides⟩ := Bool.and_eq_true_iff.mp hopens
  split at hhides
  · obtain ⟨r, hr, hkey⟩ := List.any_eq_true.mp hhides
    exact ⟨r, hr, of_decide_eq_true (Bool.and_eq_true_iff.mp hkey).1⟩
  · cases hhides

theorem unowed_iff {k : Uuid × String} {db : Database} : unowed k db = true ↔
    ∃ r ∈ db.artifacts.rows, r.key = k ∧ r.deletedAt.isSome = true ∧ r.purgePending = false := by
  simp [unowed]

theorem hiddenOwed_iff {db : Database} : HiddenOwed db ↔ ∀ k, unowed k db = false := by
  constructor
  · intro h k
    refine Bool.eq_false_iff.mpr fun hu => ?_
    obtain ⟨r, hr, -, hd, hp⟩ := unowed_iff.mp hu
    rw [h r hr hd] at hp
    cases hp
  · intro h r hr hd
    by_contra hp
    have hu := unowed_iff.mpr ⟨r, hr, rfl, hd, Bool.eq_false_iff.mpr hp⟩
    rw [h r.key] at hu
    cases hu

/-- A hidden row is in the outbox. -/
theorem HiddenOwed.listed {db : Database} (h : HiddenOwed db) {r : RawArtifact}
    (hr : r ∈ db.artifacts.rows) (hd : r.deletedAt.isSome = true) {limit : ℕ}
    (hlimit : db.artifacts.rows.length ≤ limit) : r ∈ listPurgePendingArtifacts limit db := by
  have hlen : (db.artifacts.rows.filter RawArtifact.purgePending).length ≤ limit :=
    Nat.le_trans (List.length_filter_le _ _) hlimit
  unfold listPurgePendingArtifacts
  rw [List.take_of_length_le (by rw [List.length_insertionSort]; exact hlen)]
  exact (List.mem_insertionSort _).mpr (List.mem_filter.mpr ⟨hr, h r hr hd⟩)

/-! ### One statement -/

variable {k : Uuid × String}

section Update

variable {now deadline : Time} {db : Database} {p : RawArtifact → Bool}

/-- The row that an update leaves hidden and not queued, by what the update makes of it. -/
theorem unowed_updateArtifacts {f : RawArtifact → RawArtifact} {hid : ∀ r, (f r).id = r.id}
    {hkey : ∀ r, (f r).key = r.key} {Q : RawArtifact → Prop}
    (htrue : ∀ r, p r = true → ((f r).deletedAt.isSome = true ∧ (f r).purgePending = false ↔ Q r))
    (hfalse : ∀ r, p r = false → (r.deletedAt.isSome = true ∧ r.purgePending = false ↔ Q r)) :
    unowed k (db.updateArtifacts p f hid hkey) = true ↔
      ∃ r ∈ db.artifacts.rows, r.key = k ∧ Q r := by
  rw [unowed_iff]
  refine Table.exists_updated_iff fun r _ => ?_
  unfold Table.updated
  cases hp : p r with
  | true => rw [if_pos rfl, hkey, htrue r hp]
  | false => rw [if_neg Bool.false_ne_true, hfalse r hp]

theorem unowed_hide : unowed k (db.updateArtifacts p fun r => { r with deletedAt := some now }) =
    true ↔ ∃ r ∈ db.artifacts.rows, r.key = k ∧
      (r.purgePending = false ∧ (p r = true ∨ r.deletedAt.isSome = true)) :=
  unowed_updateArtifacts (fun r hp => by simp [hp]) (fun r hp => by simp [hp, and_comm])

theorem unowed_restore : unowed k (db.updateArtifacts p fun r => { r with deletedAt := none }) =
    true ↔ ∃ r ∈ db.artifacts.rows, r.key = k ∧
      (r.purgePending = false ∧ r.deletedAt.isSome = true ∧ p r = false) :=
  unowed_updateArtifacts (fun r hp => by simp [hp]) (fun r hp => by simp [hp, and_comm])

theorem unowed_mark : unowed k (db.updateArtifacts p (markPurge now deadline)) = true ↔
    ∃ r ∈ db.artifacts.rows, r.key = k ∧
      (r.purgePending = false ∧ r.deletedAt.isSome = true ∧ p r = false) :=
  unowed_updateArtifacts (fun r hp => by simp [hp, markPurge]) (fun r hp => by simp [hp, and_comm])

end Update

/-- The statement leaves the row hidden and not queued: it is not queued before, and the statement
hides it, or it is hidden and the statement neither brings it back nor queues it. -/
def LeavesUnowed (db : Database) (s : Statement) (r : RawArtifact) : Prop :=
  r.purgePending = false ∧ (db.hides s r = true ∨
    r.deletedAt.isSome = true ∧ db.restores s r = false ∧ db.queues s r = false)

/-- **A row is hidden and not queued after a statement** if the statement leaves it so. -/
theorem unowed_exec_iff (now : Time) (db : Database) (s : Statement) :
    unowed k (s.exec now db).2 = true ↔
      ∃ r ∈ db.artifacts.rows, r.key = k ∧ LeavesUnowed db s r := by
  unfold LeavesUnowed
  have hkept : (∀ r, db.hides s r = false) → (∀ r, db.restores s r = false) →
      (∀ r, db.queues s r = false) → (unowed k db = true ↔
        ∃ r ∈ db.artifacts.rows, r.key = k ∧ LeavesUnowed db s r) := by
    intro hhides hrestores hqueues
    rw [unowed_iff]
    simp [LeavesUnowed, hhides, hrestores, hqueues, and_comm]
  have hsame : s.writesArtifacts = false →
      (unowed k (s.exec now db).2 = true ↔ unowed k db = true) := by
    intro hs
    unfold unowed
    rw [artifacts_exec now db hs]
  cases s with
  | softDeleteConnectionArtifacts id tenantID =>
    exact unowed_hide.trans (by simp [hides, restores, queues, marks])
  | softDeleteDeselectedUnitArtifacts id =>
    exact unowed_hide.trans (by simp [hides, restores, queues, marks])
  | undeleteConnectionArtifacts id tenantID =>
    exact unowed_restore.trans (by simp [hides, restores, queues, marks])
  | undeleteSelectedUnitArtifacts id =>
    exact unowed_restore.trans (by simp [hides, restores, queues, marks])
  | markConnectionArtifactsPurgePending id tenantID =>
    exact unowed_mark.trans (by simp [hides, restores, queues, marks])
  | markRemovedUnitArtifactsPurgePending id deadline =>
    exact unowed_mark.trans (by simp [hides, restores, queues, marks])
  | confirmArtifactDeletes ids =>
    -- only what is queued goes
    refine Iff.trans ?_ (hkept (fun _ => rfl) (fun _ => rfl) fun _ => rfl)
    rw [unowed_iff, unowed_iff]
    constructor
    · rintro ⟨r, hr, h⟩
      exact ⟨r, (Table.mem_delete.mp hr).1, h⟩
    · rintro ⟨r, hr, hk, hd, hp⟩
      exact ⟨r, Table.mem_delete.mpr ⟨hr, by simp [hp]⟩, hk, hd, hp⟩
  | commitArtifact p unitID cursor =>
    -- the delete marks of a known row stay, and a new row has none
    refine Iff.trans ?_ (hkept (fun _ => rfl) (fun _ => rfl) fun _ => rfl)
    rw [unowed_iff, unowed_iff]
    show (∃ r ∈ (commitArtifact now p unitID cursor db).artifacts.rows, _) ↔ _
    rw [commitArtifact_artifacts]
    refine Iff.trans (Table.exists_upsert (P := fun r : RawArtifact => r.key = k ∧
      r.deletedAt.isSome = true ∧ r.purgePending = false) fun r => Iff.rfl) ?_
    simp [UpsertRawArtifactParams.new]
  | _ => exact (hsame rfl).trans (hkept (fun _ => rfl) (fun _ => rfl) fun _ => rfl)

/-- A row is hidden and not queued after a statement if the statement hides it, or if it was so
before and the statement has neither brought it back nor queued it. -/
theorem unowed_exec (now : Time) (db : Database) (s : Statement) :
    unowed k (s.exec now db).2 = (hidesRow k db s || unowed k db && !requeuesRow k db s) := by
  rw [Bool.eq_iff_iff, unowed_exec_iff, Bool.or_eq_true, Bool.and_eq_true, unowed_iff,
    Bool.not_eq_true']
  simp only [LeavesUnowed, hidesRow, requeuesRow, List.any_eq_true, List.any_eq_false,
    Bool.and_eq_true, decide_eq_true_eq, Bool.not_eq_true', Bool.or_eq_true]
  constructor
  · rintro ⟨r, hr, hk, hp, hhides | ⟨hd, hrestores, hqueues⟩⟩
    · exact .inl ⟨r, hr, hk, hhides, hp⟩
    · refine .inr ⟨⟨r, hr, hk, hd, hp⟩, ?_⟩
      -- the key determines the row
      rintro r' hr' ⟨hk', h⟩
      obtain rfl := db.artifacts.eq_of_key hr hr' (hk.trans hk'.symm)
      rcases h with h | h
      · rw [hrestores] at h
        cases h
      · rw [hqueues] at h
        cases h
  · rintro (⟨r, hr, hk, hhides, hp⟩ | ⟨⟨r, hr, hk, hd, hp⟩, hnone⟩)
    · exact ⟨r, hr, hk, hp, .inl hhides⟩
    · refine ⟨r, hr, hk, hp, .inr ⟨hd, Bool.eq_false_iff.mpr fun h => ?_,
        Bool.eq_false_iff.mpr fun h => ?_⟩⟩
      · exact hnone r hr ⟨hk, .inl h⟩
      · exact hnone r hr ⟨hk, .inr h⟩

/-! ### Every run -/

/-- **A row is hidden and not queued exactly if the run has left it so.** -/
theorem unowed_of_run (a : Activities) (sv : Server) {w : World} {es : List (PoolEvent Job Choice)}
    {s : Pool World Cmd Cmd.Resp Unit} {tr : List (Performed World Choice Cmd)}
    (h : (service.pool (Job.prog a sv)).Run ⟨w, []⟩ es s tr) (hw : HiddenOwed w.db)
    (k : Uuid × String) : unowed k s.world.db = true ↔ HiddenUnqueued k tr := by
  refine h.invariant (J := fun s tr => unowed k s.world.db = true ↔ HiddenUnqueued k tr)
    (by simp [hiddenOwed_iff.mp hw k, HiddenUnqueued]) ?_
  intro s tr e s' as hJ _ hstep
  rcases pool_step hstep with ⟨j, rfl, rfl, rfl⟩ | ⟨i, turn, cmd, k', b, rfl, hth, rfl, rfl⟩
  · rw [List.append_nil]
    exact hJ
  · show unowed k (service.perform _ _ s.world cmd).1.db = true ↔ _
    rw [carriesOut_perform (f := unowed k) unowed_exec, HiddenUnqueued, pending_snoc,
      Bool.or_eq_true, Bool.and_eq_true, hJ, HiddenUnqueued]
    simp

/-- **Every hidden row is queued exactly in the runs that leave no row hidden and not queued
behind**, of any jobs side by side; and what is hidden is then in the outbox. -/
theorem hidden_owed (a : Activities) (sv : Server) {w : World} {es : List (PoolEvent Job Choice)}
    {s : Pool World Cmd Cmd.Resp Unit} {tr : List (Performed World Choice Cmd)}
    (h : (service.pool (Job.prog a sv)).Run ⟨w, []⟩ es s tr) (hw : HiddenOwed w.db) :
    (HiddenOwed s.world.db ↔ ∀ k, ¬ HiddenUnqueued k tr) ∧
      ((∀ k, ¬ HiddenUnqueued k tr) →
        ∀ r ∈ s.world.db.artifacts.rows, r.deletedAt.isSome = true →
          ∀ limit, s.world.db.artifacts.rows.length ≤ limit →
            r ∈ listPurgePendingArtifacts limit s.world.db) := by
  have hend : HiddenOwed s.world.db ↔ ∀ k, ¬ HiddenUnqueued k tr := by
    rw [hiddenOwed_iff]
    refine forall_congr' fun k => ?_
    rw [← unowed_of_run a sv h hw k, Bool.not_eq_true]
  exact ⟨hend, fun hqueued r hr hd limit hlimit => (hend.mpr hqueued).listed hr hd hlimit⟩

/-! ### A disconnect, and a deselection -/

/-- Ann deselects her Drive, selects it again, and disconnects. -/
def reselectAndDisconnect : List (PoolEvent Job Choice) :=
  .start (.setProjectSelection (some "acme") 0 []) :: quietTurns 0 7 ++
    .start (.setProjectSelection (some "acme") 0 ["drive"]) :: quietTurns 1 7 ++
    .start (.disconnect (some "acme") 0) :: quietTurns 2 6

/-- The document that a deselection hid is shown again, and is hidden and queued in the end. -/
theorem disconnected_owed :
    HiddenOwed syncedWorld.db ∧
      ∃ s tr, (service.pool (Job.prog driveActivities driveServer)).Run ⟨syncedWorld, []⟩
          reselectAndDisconnect s tr ∧ s.returned ∧
        (∃ l ∈ tr, carriesOut (hidesRow (0, "doc")) l = true) ∧
        (∃ r ∈ s.world.db.artifacts.rows, r.deletedAt.isSome = true) ∧
        (∀ k, ¬ HiddenUnqueued k tr) ∧ HiddenOwed s.world.db ∧
        ∀ r ∈ s.world.db.artifacts.rows, r.deletedAt.isSome = true →
          ∀ limit, s.world.db.artifacts.rows.length ≤ limit →
            r ∈ listPurgePendingArtifacts limit s.world.db := by
  have hstart : HiddenOwed syncedWorld.db := by decide +kernel
  refine ⟨hstart, ?_⟩
  obtain ⟨s, tr, hrun, hend⟩ := Lts.exists_run_of_any
    (service.pool (Job.prog driveActivities driveServer)) ⟨syncedWorld, []⟩ reselectAndDisconnect
    (fun s tr => s.allReturned && tr.any (carriesOut (hidesRow (0, "doc"))) &&
      (s.world.db.artifacts.rows.any fun r => r.deletedAt.isSome) &&
      (tr.all fun l => l.state.db.artifacts.rows.all fun r => decide (r.key = (0, "doc"))) &&
      !stillPending (carriesOut (hidesRow (0, "doc"))) (carriesOut (requeuesRow (0, "doc"))) tr)
    (by decide +kernel)
  simp only [Bool.and_eq_true, List.any_eq_true, List.all_eq_true, decide_eq_true_eq,
    Bool.not_eq_true'] at hend
  obtain ⟨⟨⟨⟨hret, hhid⟩, hsome⟩, hkeys⟩, hdone⟩ := hend
  have hnone : ∀ k, ¬ HiddenUnqueued k tr := by
    intro k hk
    obtain ⟨l, hl, r, hr, rfl⟩ := hk.exists_row
    rw [hkeys l hl r hr] at hk
    rw [(stillPending_iff tr).mpr hk] at hdone
    cases hdone
  obtain ⟨howed, hlisted⟩ := hidden_owed driveActivities driveServer hrun hstart
  exact ⟨s, tr, hrun, Pool.returned_of_allReturned hret, hhid, hsome, hnone, howed.mpr hnone,
    hlisted hnone⟩

/-- Ann deselects her Drive, and a maintenance pass follows. -/
def deselectAndMaintain : List (PoolEvent Job Choice) :=
  .start (.setProjectSelection (some "acme") 0 []) :: quietTurns 0 7 ++
    .start (.upkeep (.purgeArtifacts 0)) :: quietTurns 1 1 ++
    .start (.upkeep .checkPurgeSLA) :: quietTurns 2 2 ++
    .start (.upkeep .gcRemovedUnits) :: quietTurns 3 2

/-- **What a deselection hides is queued by nothing**: the document is hidden, no purge pass lists
it, and no check of the erasure window reports it. -/
theorem deselected_never_queued :
    HiddenOwed syncedWorld.db ∧
      ∃ s tr, (service.pool (Job.prog driveActivities driveServer)).Run ⟨syncedWorld, []⟩
          deselectAndMaintain s tr ∧ s.returned ∧ ¬ HiddenOwed s.world.db ∧
        ∃ r ∈ s.world.db.artifacts.rows, r.deletedAt.isSome = true ∧ ∀ cutoff limit,
          r ∉ listPurgePendingArtifacts limit s.world.db ∧
            r ∉ listPurgePendingPastDeadline cutoff limit s.world.db := by
  refine ⟨by decide +kernel, ?_⟩
  obtain ⟨s, tr, hrun, hend⟩ := Lts.exists_run_of_any
    (service.pool (Job.prog driveActivities driveServer)) ⟨syncedWorld, []⟩ deselectAndMaintain
    (fun s _ => s.allReturned && s.world.db.artifacts.rows.any fun r =>
      r.deletedAt.isSome && !r.purgePending)
    (by decide +kernel)
  simp only [Bool.and_eq_true, List.any_eq_true, Bool.not_eq_true'] at hend
  obtain ⟨hret, r, hr, hd, hp⟩ := hend
  refine ⟨s, tr, hrun, Pool.returned_of_allReturned hret, fun howed => ?_, r, hr, hd,
    fun cutoff limit => ⟨fun hlisted => ?_, fun hlisted => ?_⟩⟩
  · rw [howed r hr hd] at hp
    cases hp
  · rw [(mem_listPurgePendingArtifacts hlisted).2] at hp
    cases hp
  · have hfilter := (List.mem_insertionSort _).mp (List.mem_of_mem_take hlisted)
    have hpending := (List.mem_filter.mp hfilter).2
    rw [hp] at hpending
    cases hpending

end Hivebook
