import Hivebook.Service.Starving

/-!
# How much a purge loop clears

A purge loop lists the head of the outbox again and again.  Rows whose delete fails keep their
places there, so each batch has room for what they leave of it.  A loop that is not cut short by
an error of the activity either clears all the other rows, or that room in each of its iterations:
ten thousand rows a pass while nothing fails, however often the activity was attempted.

## Main results

* `PurgeActivity.clears` — an activity that answers has cleared the head of what it listed.
* `purgeLoop_clears` — **a loop clears everything that does not fail, or a whole pass of it.**
-/

namespace Hivebook

open Machine Storage Backlog Database

variable {F : Finset Uuid} {b b' : Bool} {w w' : World} {ls : List (Performed World Choice Cmd)}

/-- **An attempt that answers** has cleared its batch but for the sticky rows. -/
theorem clears_purgeArtifacts {res : PurgeResult}
    (h : service.Returns (Activities.purgeArtifacts 0) b w ls (.ok res) b' w')
    (hF : Fares F (w.db.purgeQueue.take purgeBatch) ls.tail) :
    ∀ r ∈ w.db.purgeQueue.take purgeBatch, sticky F r = false → r ∉ w'.db.purgeQueue := by
  intro r hr hfree
  obtain ⟨t, ls₁, rfl, hrest⟩ := Machine.Returns.of_call h
  have hdb := service_listPurgePending_db t.choice (b || t.cancel) w purgeBatch
  cases hreply : (service.perform t.choice (b || t.cancel) w
      (.statement (.listPurgePendingArtifacts purgeBatch))).2 with
  | error e => cases (hreply ▸ hrest).of_pure.2.1
  | ok rows =>
    have hrows : listPurgePendingArtifacts purgeBatch w.db = rows :=
      Except.ok.inj (of_reply_eq_ok hreply).2
    rw [listPurgePendingArtifacts_eq] at hrows
    have hrest : service.Returns ((Activities.purgeRows [] _ rows).bind _) _ _ ls₁ (Except.ok res)
        b' w' := hreply ▸ hrest
    obtain ⟨⟨confirmed, res'⟩, b₂, w₂, ls₂, ls₃, rfl, hloop, hend⟩ := Machine.returns_bind.mp hrest
    have hsame : w₂.db = w.db := hloop.keeps (K := fun v => v.db = w.db)
      ((uses_purgeRows_db ..).mono fun c hc x b v hv => (hc x b v).trans hv) hdb
    rw [← hrows] at hloop
    obtain ⟨hids, -⟩ := returns_purgeRows hloop hF
    have hid : r.id ∈ confirmed := by
      rw [show confirmed = _ from hids, List.nil_append]
      exact List.mem_map_of_mem (List.mem_filter.mpr ⟨hr, by rw [hfree]; rfl⟩)
    dsimp only at hend
    split at hend
    · rename_i hnone
      rw [hnone] at hid
      cases hid
    · -- the confirmation was answered, so it took effect
      obtain ⟨t', ls₄, rfl, hlast⟩ := Machine.Returns.of_call hend
      cases hreply' : (service.perform t'.choice (b₂ || t'.cancel) w₂
          (.statement (.confirmArtifactDeletes confirmed))).2 with
      | error e => cases (hreply' ▸ hlast).of_pure.2.1
      | ok n =>
        have heffect := (of_reply_eq_ok hreply').1
        have hconfirm := service_db t'.choice (b₂ || t'.cancel) w₂
          (.statement (.confirmArtifactDeletes confirmed))
        dsimp only at hconfirm
        rw [if_pos heffect, hsame] at hconfirm
        obtain ⟨-, -, -, rfl⟩ := (hreply' ▸ hlast).of_pure
        rw [hconfirm]
        show r ∉ (confirmArtifactDeletes confirmed w.db).2.purgeQueue
        rw [purgeQueue_confirm, List.mem_filter]
        simp [hid]

/-- **An activity that answers** leaves nothing but sticky rows, or an outbox that is shorter by
the room they leave of a batch. -/
theorem PurgeActivity.clears {res : PurgeResult} (h : PurgeActivity F w (.ok res) w') :
    (∀ r ∈ w'.db.purgeQueue, sticky F r = true) ∨
      (purgeBatch - w.db.purgeQueue.countP (sticky F)) + w'.db.purgeQueue.length ≤
        w.db.purgeQueue.length := by
  generalize hr : (Except.ok res : Except ActivityError PurgeResult) = r at h
  induction h with
  | returns hrun hF =>
    subst hr
    exact cleared_head (stops_purgeArtifacts hrun.stops hF).sublist (clears_purgeArtifacts hrun hF)
  -- an attempt that was given up has cleared rows of the same outbox
  | again wait hrun hF _ ih =>
    have hreduced := stops_purgeArtifacts hrun hF
    rcases ih hr with hall | hle
    · exact .inl hall
    · right
      have hcount : _ = _ := hreduced.countP_stuck
      have hlen := hreduced.sublist.length_le
      unfold World.tick at hle
      dsimp only at hle
      omega

/-- **A purge loop clears everything that does not fail, or a whole pass of it.**  For every outbox
and every set of rows whose delete fails, a loop of so many iterations that no error of the
activity ends leaves rows that fail and no other, or has cleared in each iteration what the rows
that fail leave of a batch. -/
theorem PurgeLoop.clears {n : ℕ} {e : PurgeEnd} (h : PurgeLoop F n w e w')
    (he : ∀ err, e ≠ .failed err) :
    (∀ r ∈ w'.db.purgeQueue, sticky F r = true) ∨
      n * (purgeBatch - w.db.purgeQueue.countP (sticky F)) + w'.db.purgeQueue.length ≤
        w.db.purgeQueue.length := by
  induction h with
  | capped w =>
    right
    omega
  | failed hact => exact absurd rfl (he _)
  | @stopped n w w' res hact hnothing =>
    have hstuck := hact.stuck hnothing
    have hcount : w'.db.purgeQueue.countP (sticky F) = w.db.purgeQueue.countP (sticky F) :=
      hact.reduced.countP_stuck
    have hlen := hact.reduced.sublist.length_le
    by_cases hshort : w'.db.purgeQueue.length ≤ purgeBatch
    · rw [List.take_of_length_le hshort] at hstuck
      exact .inl hstuck
    · -- a whole batch is stuck, which leaves no room
      right
      have hbatch : purgeBatch ≤ w'.db.purgeQueue.countP (sticky F) := by
        have htake : (w'.db.purgeQueue.take purgeBatch).countP (sticky F) = purgeBatch := by
          rw [List.countP_eq_length.mpr hstuck, List.length_take]
          omega
        rw [← htake]
        exact (List.take_sublist _ _).countP_le
      have hroom : purgeBatch - w.db.purgeQueue.countP (sticky F) = 0 := by omega
      rw [hroom, Nat.mul_zero]
      omega
  | @next n w w' w'' res e wait hact hsome hloop ih =>
    have hcount : w'.db.purgeQueue.countP (sticky F) = w.db.purgeQueue.countP (sticky F) :=
      hact.reduced.countP_stuck
    rcases ih he with hall | hle
    · exact .inl hall
    · rcases hact.clears with hall | hone
      · exact .inl fun r hr => hall r (hloop.reduced.sublist.subset hr)
      · right
        have hle : n * (purgeBatch - w'.db.purgeQueue.countP (sticky F)) +
          w''.db.purgeQueue.length ≤ w'.db.purgeQueue.length := hle
        rw [hcount] at hle
        rw [Nat.add_mul, Nat.one_mul]
        omega

/-- **What a maintenance pass does to the outbox.**  For every outbox and every set of rows whose
delete fails, a pass that no error of the activity ends keeps every row that fails and the order
of what it leaves.  It leaves nothing else, or has cleared in each of its batches the room that
the failing rows leave; when nothing fails, the outbox is empty or shorter by all the batches
hold. -/
theorem purge_pass_clears {e : PurgeEnd} (h : PurgeLoop F maintenanceMaxPurgeBatches w e w')
    (he : ∀ err, e ≠ .failed err) :
    w'.db.purgeQueue.Sublist w.db.purgeQueue ∧
      (∀ r ∈ w.db.purgeQueue, sticky F r = true → r ∈ w'.db.purgeQueue) ∧
      ((∀ r ∈ w'.db.purgeQueue, sticky F r = true) ∨
        maintenanceMaxPurgeBatches * (purgeBatch - w.db.purgeQueue.countP (sticky F)) +
          w'.db.purgeQueue.length ≤ w.db.purgeQueue.length) ∧
      (F = ∅ → w'.db.purgeQueue = [] ∨
        maintenanceMaxPurgeBatches * purgeBatch + w'.db.purgeQueue.length ≤
          w.db.purgeQueue.length) := by
  have hclears := h.clears he
  refine ⟨h.reduced.sublist, fun r hr hsticky => h.reduced.mem_of_stuck hr hsticky, hclears,
    fun hF => ?_⟩
  subst hF
  have hnone : ∀ r : RawArtifact, sticky ∅ r = false := fun r => by simp [sticky]
  rcases hclears with hall | hle
  · left
    refine List.eq_nil_iff_forall_not_mem.mpr fun r hr => ?_
    have hsticky := hall r hr
    rw [hnone r] at hsticky
    cases hsticky
  · right
    have hzero : w.db.purgeQueue.countP (sticky ∅) = 0 :=
      List.countP_eq_zero.mpr fun r _ => by simp [hnone r]
    rwa [hzero, Nat.sub_zero] at hle

/-! ### A pass over one row -/

/-- Nothing fails when every delete is answered and no key is malformed. -/
theorem fares_empty {rows : List RawArtifact} (hkeys : ∀ r ∈ rows, (cut r.objectKey).isNone = false)
    (hls : ∀ l ∈ ls, answeredOk l) : Fares ∅ rows ls := by
  induction rows generalizing ls with
  | nil => trivial
  | cons r rs ih =>
    have hrest := fun r' hr' => hkeys r' (List.mem_cons_of_mem _ hr')
    unfold Fares
    rw [hkeys r List.mem_cons_self]
    split
    · exact ih hrest hls
    · rw [if_neg Bool.false_ne_true]
      cases ls with
      | nil => trivial
      | cons l ls =>
        refine ⟨⟨fun _ => Finset.notMem_empty _, fun _ => hls l List.mem_cons_self⟩, ?_⟩
        exact ih hrest fun l' hl' => hls l' (List.mem_cons_of_mem _ hl')

/-- A command was answered, as a test. -/
def answeredWell (l : Performed World Choice Cmd) : Bool :=
  !l.cancelled && decide (l.choice.outcome = .applied)

theorem answeredOk_of_answeredWell {l : Performed World Choice Cmd}
    (h : answeredWell l = true) : answeredOk l := by
  unfold answeredWell at h
  rw [Bool.and_eq_true, Bool.not_eq_true', decide_eq_true_eq] at h
  exact h

/-- An attempt from this world, in so many commands, is answered well throughout and reports so
many erasures. -/
def erasesIn (n deleted : ℕ) (w : World) (next : World → Bool) : Bool :=
  (service.runTurns (Activities.purgeArtifacts 0) false w
    (List.replicate n ⟨false, quietly annAnswers⟩)).any fun r =>
      r.1.tail.all answeredWell && next r.2.2.2 && match r.2.1 with
        | .ok res => decide (res.deleted = deleted ∧ res.orphaned = 0)
        | .error _ => false

theorem of_erasesIn (n deleted : ℕ) (next : World → Bool) (h : erasesIn n deleted w next = true)
    (hkeys : ∀ r ∈ w.db.purgeQueue, (cut r.objectKey).isNone = false) :
    ∃ res w', PurgeActivity ∅ w (.ok res) w' ∧ res.deleted = deleted ∧ res.orphaned = 0 ∧
      next w' = true := by
  obtain ⟨ls, r, b', w', hrun, hP⟩ := exists_returns_of_any service (Activities.purgeArtifacts 0)
    false w _ (fun ls r w => ls.tail.all answeredWell && next w && match r with
      | .ok res => decide (res.deleted = deleted ∧ res.orphaned = 0)
      | .error _ => false) h
  simp only [Bool.and_eq_true] at hP
  obtain ⟨⟨hwell, hnext⟩, hres⟩ := hP
  have hfares : Fares ∅ (w.db.purgeQueue.take purgeBatch) ls.tail :=
    fares_empty (fun r hr => hkeys r (List.mem_of_mem_take hr))
      fun l hl => answeredOk_of_answeredWell (List.all_eq_true.mp hwell l hl)
  cases r with
  | error e => cases hres
  | ok res =>
    obtain ⟨hdeleted, horphaned⟩ := of_decide_eq_true hres
    exact ⟨res, w', .returns hrun hfares, hdeleted, horphaned, hnext⟩

/-- The row that is owed goes with the first batch, and the second one finds nothing. -/
theorem overdue_pass_clears : ∃ w',
    PurgeLoop ∅ maintenanceMaxPurgeBatches overdueWorld .stopped w' ∧
      overdueWorld.db.purgeQueue.length = 1 ∧ (w'.db.purgeQueue = [] ∨
        maintenanceMaxPurgeBatches * purgeBatch + w'.db.purgeQueue.length ≤ 1) := by
  obtain ⟨res, w₁, hfirst, hone, -, hnext⟩ := of_erasesIn 3 1
    (fun w => w.db.purgeQueue.isEmpty && erasesIn 1 0 (w.tick 0) fun _ => true)
    (show erasesIn 3 1 overdueWorld _ = true by decide +kernel) (by decide +kernel)
  rw [Bool.and_eq_true] at hnext
  obtain ⟨res', w₂, hsecond, hzero, hnone, -⟩ := of_erasesIn 1 0 _ hnext.2 fun r hr => by
    rw [show (w₁.tick 0).db.purgeQueue = [] from List.isEmpty_iff.mp hnext.1] at hr
    cases hr
  have hloop : PurgeLoop ∅ maintenanceMaxPurgeBatches overdueWorld .stopped w₂ :=
    .next 0 hfirst (by omega) (.stopped hsecond ⟨hzero, hnone⟩)
  have hlen : overdueWorld.db.purgeQueue.length = 1 := by decide +kernel
  have hclears := (purge_pass_clears hloop nofun).2.2.2 rfl
  rw [hlen] at hclears
  exact ⟨w₂, hloop, hlen, hclears⟩

end Hivebook
