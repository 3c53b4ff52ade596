import Hivebook.Database.Manifest
import Hivebook.Service.PurgePass

/-!
# What the user sees, and what is queued for erasure

`deleted_at` hides a row and `purge_pending` queues it for erasure.  Three
statements queue a row and hide it with it; two bring a hidden row back, and neither
looks at the queue.  A row that is queued and brought back is shown to the user
until it is erased under their eyes.

Objects are shared: a row that is shown loses its bytes, too, when a purge pass deletes
the object of another row of equal content.

Whatever jobs run side by side, a queued row stays hidden for as long as no undelete
finds a queued row among those it brings back; and nothing that is shown is erased if, too,
no pass deletes an object that a row which is not queued has, or comes to have.

## Main definitions

* `PendingHidden` — no row is visible and queued.
* `Shown`, `ErasesUnseen`, `SeesEveryPending` — what the queue is worth.
* `restoresNothingPending`, `purgesNothingLive`, `sparesTodo` — the conditions on an undelete,
  on a listing of the outbox, and on an emit while a pass is under way.

## Main results

* `pending_hidden` — in every interleaving whose undeletes bring no queued row back, no row
  is visible and queued.
* `pending_stays_hidden` — **what is shown is then never queued, the SLA check sees every
  queued row, and nothing that is shown is erased if passes and emits keep to their
  conditions.**
* `reconnect_shows_pending` — a reconnect shows what a disconnect has queued.
-/

namespace Hivebook

open Database Machine Storage

/-- No row has `deleted_at` null and `purge_pending` true. -/
def PendingHidden (db : Database) : Prop :=
  ∀ r ∈ db.artifacts.rows, ¬ (r.deletedAt = none ∧ r.purgePending = true)

instance (db : Database) : Decidable (PendingHidden db) :=
  inferInstanceAs (Decidable (∀ r ∈ db.artifacts.rows, _))

/-- `ListArtifacts` returns the row, for some request. -/
def Shown (db : Database) (r : RawArtifact) : Prop :=
  ∃ tenantID connectionID limit offset, r ∈ listArtifacts tenantID connectionID limit offset db

/-- Every queued row has a time it was queued at, and a check for an older cutoff
finds it, up to the scan limit. -/
def SeesEveryPending (db : Database) : Prop :=
  ∀ r ∈ db.artifacts.rows, r.purgePending = true → ∃ d, r.deletedAt = some d ∧
    ∀ cutoff limit, d < cutoff → db.artifacts.rows.length ≤ limit →
      r ∈ listPurgePendingPastDeadline cutoff limit db

/-- What a command erases is not shown: neither a row whose object is deleted, whichever
row it is deleted for, nor a row that is dropped. -/
def ErasesUnseen (m : Performed World Choice Cmd) : Prop :=
  match m.cmd with
  | .deleteObject bucket key => ∀ r ∈ m.state.db.artifacts.rows,
      cut r.objectKey = some (bucket, key) → ¬ Shown m.state.db r
  | .statement (.confirmArtifactDeletes ids) => ∀ r ∈ m.state.db.artifacts.rows,
      r.id ∈ ids → ¬ Shown m.state.db r
  | _ => True

/-! ### The conditions -/

/-- An undelete that takes effect brings back no row that is queued. -/
def restoresNothingPending (x : Choice) (cancelled : Bool) (w : World) : Cmd → Bool
  | .statement s => !x.takesEffect cancelled ||
      w.db.artifacts.rows.all fun r => !(w.db.restores s r && r.purgePending)
  | _ => true

/-- A listing of the outbox returns no row that shares its object with one that is
not queued. -/
def purgesNothingLive (x : Choice) (cancelled : Bool) (w : World) : Cmd → Bool
  | .statement (.listPurgePendingArtifacts n) => !x.takesEffect cancelled ||
      (listPurgePendingArtifacts n w.db).all fun r₀ => w.db.artifacts.rows.all fun r =>
        r.purgePending || (cut r₀.objectKey).isNone ||
          !decide (cut r.objectKey = cut r₀.objectKey)
  | _ => true

/-- An emit gives no object that a pass has still to delete to a row that is not queued: its
object is another one, or its row is there and queued. -/
def sparesTodo (g : Purging) (x : Choice) (cancelled : Bool) (w : World) : Cmd → Bool
  | .statement (.commitArtifact p _ _) => !x.takesEffect cancelled ||
      (g.todo.all fun r₀ => decide (cut p.objectKey ≠ cut r₀.objectKey)) ||
        w.db.artifacts.rows.any fun r =>
          decide (r.key = (p.connectionID, p.externalID)) && r.purgePending
  | _ => true

/-- A listing that the next turn makes spares what is not queued, and an emit that it makes
spares what the passes under way have still to delete. -/
def erasesNothingLive (s : Pool World Cmd Cmd.Resp Unit)
    (tr : List (ℕ × Performed World Choice Cmd)) (e : PoolEvent Job Choice) : Bool :=
  poolCheck purgesNothingLive s e && (List.range s.threads.length).all fun i =>
    !s.running i || poolCheck (sparesTodo (passOf tr i)) s e

/-! ### Consequences of the invariant -/

theorem Shown.deletedAt {db : Database} {r : RawArtifact} (h : Shown db r) :
    r ∈ db.artifacts.rows ∧ r.deletedAt = none := by
  obtain ⟨tenantID, connectionID, limit, offset, h⟩ := h
  have hsorted := List.mem_of_mem_drop (List.mem_of_mem_take h)
  have hfilter := (List.mem_insertionSort _).mp hsorted
  obtain ⟨hmem, hp⟩ := List.mem_filter.mp hfilter
  simp only [visible, Bool.and_eq_true] at hp
  exact ⟨hmem, Option.isNone_iff_eq_none.mp hp.2.1⟩

theorem PendingHidden.not_shown {db : Database} {r : RawArtifact} (h : PendingHidden db)
    (hr : r.purgePending = true) : ¬ Shown db r := by
  intro hs
  obtain ⟨hmem, hnone⟩ := hs.deletedAt
  exact h r hmem ⟨hnone, hr⟩

theorem PendingHidden.seesEveryPending {db : Database} (h : PendingHidden db) :
    SeesEveryPending db := by
  intro r hr hp
  cases hd : r.deletedAt with
  | none => exact absurd ⟨hd, hp⟩ (h r hr)
  | some d =>
    refine ⟨d, rfl, fun cutoff limit hlt hlimit => ?_⟩
    have hmem :
        r ∈ db.artifacts.rows.filter fun r => r.purgePending && before r.deletedAt cutoff := by
      refine List.mem_filter.mpr ⟨hr, ?_⟩
      simp [hp, hd, before, hlt]
    have hlen : (db.artifacts.rows.filter
        fun r => r.purgePending && before r.deletedAt cutoff).length ≤ limit :=
      Nat.le_trans (List.length_filter_le _ _) hlimit
    unfold listPurgePendingPastDeadline
    rw [List.take_of_length_le (by rw [List.length_insertionSort]; exact hlen)]
    exact (List.mem_insertionSort _).mpr hmem

/-! ### One command -/

/-- A statement keeps queued rows hidden unless it brings a queued row back. -/
theorem PendingHidden.exec {now : Time} {db : Database} {s : Statement} (h : PendingHidden db)
    (hs : ∀ r ∈ db.artifacts.rows, db.restores s r = true → r.purgePending = false) :
    PendingHidden (s.exec now db).2 := by
  intro r' hr' hbad
  cases manifestStep now db s hr' with
  | keep hr => exact h r' hr hbad
  | hide r hr heq => rw [heq] at hbad; cases hbad.1
  | restore r hr hrestores heq =>
    rw [heq] at hbad
    have hnot := hs r hr hrestores
    rw [hnot] at hbad
    cases hbad.2
  | mark r deadline hr _ heq => rw [heq] at hbad; cases hbad.1
  | rewrite r p unitID cursor hr _ _ heq =>
    rw [heq] at hbad
    exact h r hr hbad
  | insert p unitID cursor _ _ heq => rw [heq] at hbad; cases hbad.2

theorem PendingHidden.perform {x : Choice} {b : Bool} {w : World} {c : Cmd}
    (h : PendingHidden w.db) (hc : restoresNothingPending x b w c = true) :
    PendingHidden (service.perform x b w c).1.db := by
  rw [service_db]
  cases c with
  | statement s =>
    show PendingHidden (if x.takesEffect b = true then _ else _)
    by_cases hx : x.takesEffect b = true
    · rw [if_pos hx]
      refine h.exec fun r hr hrestores => ?_
      simp only [restoresNothingPending, hx, Bool.not_true, Bool.false_or, List.all_eq_true] at hc
      simpa [hrestores] using hc r hr
    · rw [if_neg hx]
      exact h
  | _ => exact h

/-! ### What a pass has listed stays queued -/

/-- What a pass relies on: its rows are queued as long as they are there, and so is every
row that has an object it has still to delete. -/
structure Purging.Unseen (g : Purging) (w : World) : Prop where
  pending : ∀ r₀, r₀ ∈ g.todo ∨ r₀ ∈ g.drops → r₀.id < w.db.artifacts.next ∧
    ∀ r ∈ w.db.artifacts.rows, r.id = r₀.id → r.purgePending = true
  sharing : ∀ r₀ ∈ g.todo, ∀ r ∈ w.db.artifacts.rows, cut r.objectKey = cut r₀.objectKey →
    r.purgePending = true

section Step

variable {g : Purging} {x : Choice} {b : Bool} {w : World}

theorem Purging.unseen_init (w : World) : Purging.init.Unseen w where
  pending := by simp [Purging.init]
  sharing := by simp [Purging.init]

/-- A pass that knows less relies on less. -/
theorem Purging.Unseen.mono {g' : Purging} (h : g.Unseen w) (htodo : ∀ r ∈ g'.todo, r ∈ g.todo)
    (hdrops : ∀ r ∈ g'.drops, r ∈ g.todo ∨ r ∈ g.drops) : g'.Unseen w where
  pending := fun r hr => h.pending r (hr.elim (fun hr => Or.inl (htodo r hr)) (hdrops r))
  sharing := fun r hr => h.sharing r (htodo r hr)

/-- A row that is known to be queued is so after a statement. -/
theorem Purging.Unseen.pending_exec (h : g.Unseen w) {s : Statement} {now : Time} {r₀ : RawArtifact}
    (hr₀ : r₀ ∈ g.todo ∨ r₀ ∈ g.drops) : r₀.id < (s.exec now w.db).2.artifacts.next ∧
      ∀ r ∈ (s.exec now w.db).2.artifacts.rows, r.id = r₀.id → r.purgePending = true := by
  obtain ⟨hlt, hpending⟩ := h.pending r₀ hr₀
  refine ⟨Nat.lt_of_lt_of_le hlt (next_le_exec _ _ _), fun r' hr' hid => ?_⟩
  rcases (manifestStep _ _ s hr').id_cases with ⟨r, hr, heq, hmono⟩ | hfresh
  · exact hmono (hpending r hr (heq.trans hid))
  · -- a fresh id is none of those listed
    rw [hid] at hfresh
    exact absurd hfresh (Nat.ne_of_lt hlt)

/-- What has an object that is still to be deleted is queued after a statement: only an emit
gives a row another object, and it spares these. -/
theorem Purging.Unseen.sharing_exec (h : g.Unseen w) {s : Statement} {now : Time}
    (hs : ∀ p unitID cursor, s = .commitArtifact p unitID cursor →
      (∀ r₀ ∈ g.todo, cut p.objectKey ≠ cut r₀.objectKey) ∨
        ∃ r ∈ w.db.artifacts.rows, r.key = (p.connectionID, p.externalID) ∧
          r.purgePending = true) :
    ∀ r₀ ∈ g.todo, ∀ r ∈ (s.exec now w.db).2.artifacts.rows,
      cut r.objectKey = cut r₀.objectKey → r.purgePending = true := by
  intro r₀ hr₀ r' hr' hcut
  cases manifestStep now w.db s hr' with
  | keep hr => exact h.sharing r₀ hr₀ r' hr hcut
  | hide r hr heq =>
    rw [heq] at hcut ⊢
    exact h.sharing r₀ hr₀ r hr hcut
  | restore r hr _ heq =>
    rw [heq] at hcut ⊢
    exact h.sharing r₀ hr₀ r hr hcut
  | mark r deadline hr _ heq =>
    rw [heq]
    rfl
  | rewrite r p unitID cursor hr hcommit hkey heq =>
    rw [heq] at hcut ⊢
    rcases hs p unitID cursor hcommit with hne | ⟨r₁, hr₁, hkey₁, hpending⟩
    · exact absurd hcut (hne r₀ hr₀)
    · -- the queued row of the key is the one rewritten
      rw [w.db.artifacts.eq_of_key hr₁ hr (hkey₁.trans hkey.symm)] at hpending
      exact hpending
  | insert p unitID cursor hcommit hkey heq =>
    rw [heq] at hcut
    rcases hs p unitID cursor hcommit with hne | ⟨r₁, hr₁, hkey₁, -⟩
    · exact absurd hcut (hne r₀ hr₀)
    · exact absurd (List.mem_map.mpr ⟨r₁, hr₁, hkey₁⟩) hkey

/-- **A command that spares a pass keeps what it relies on.** -/
theorem Purging.Unseen.spared (h : g.Unseen w) {c : Cmd} (hc : sparesTodo g x b w c = true) :
    g.Unseen (service.perform x b w c).1 := by
  rw [service_state]
  by_cases hx : x.takesEffect b = true
  · rw [if_pos hx]
    cases c with
    | statement s =>
      refine ⟨fun r₀ hr₀ => h.pending_exec hr₀, h.sharing_exec ?_⟩
      rintro p unitID cursor rfl
      simp only [sparesTodo, hx, Bool.not_true, Bool.false_or, Bool.or_eq_true, List.all_eq_true,
        List.any_eq_true, Bool.and_eq_true, decide_eq_true_eq] at hc
      exact hc
    | _ => exact ⟨h.pending, h.sharing⟩
  · rw [if_neg hx]
    exact ⟨h.pending, h.sharing⟩

theorem mem_listPurgePendingArtifacts {n : ℕ} {db : Database} {r : RawArtifact}
    (h : r ∈ listPurgePendingArtifacts n db) : r ∈ db.artifacts.rows ∧ r.purgePending = true := by
  have hsorted := List.mem_of_mem_take h
  exact List.mem_filter.mp ((List.mem_insertionSort _).mp hsorted)

/-- A pass that has listed relies on what the listing was under the condition. -/
theorem Purging.unseen_listed {n : ℕ} (hx : x.takesEffect b = true)
    (hc : purgesNothingLive x b w (.statement (.listPurgePendingArtifacts n)) = true)
    (hg : g.todo ++ g.drops ⊆ listPurgePendingArtifacts n w.db)
    (hkeys : ∀ r ∈ g.todo, (cut r.objectKey).isSome = true) : g.Unseen w := by
  simp only [purgesNothingLive, hx, Bool.not_true, Bool.false_or, List.all_eq_true] at hc
  refine ⟨fun r₀ hr₀ => ?_, fun r₀ hr₀ r hr hcut => ?_⟩
  · obtain ⟨hmem, hpending⟩ := mem_listPurgePendingArtifacts (hg (List.mem_append.mpr hr₀))
    refine ⟨w.db.artifacts.id_lt r₀ hmem, fun r hr hid => ?_⟩
    rw [w.db.artifacts.eq_of_id hr hmem hid]
    exact hpending
  · have hone := hc r₀ (hg (List.mem_append.mpr (Or.inl hr₀))) r hr
    have hsome : (cut r₀.objectKey).isNone = false := by
      rw [Option.isNone_eq_false_iff]
      exact hkeys r₀ hr₀
    simpa [hsome, hcut] using hone

/-- **What a pass relies on after a command of its own.** -/
theorem Purging.Unseen.own (h : g.Unseen w) {c : Cmd} (hc : purgesNothingLive x b w c = true)
    (hs : sparesTodo g x b w c = true) :
    (outbox.next g c (service.perform x b w c).2).Unseen (service.perform x b w c).1 := by
  have hsame := h.spared hs
  cases c with
  | statement s =>
    cases s with
    | listPurgePendingArtifacts n =>
      show (g.next (.statement (.listPurgePendingArtifacts n))
        (x.reply b (.ok (listPurgePendingArtifacts n w.db)))).Unseen _
      cases hr : x.reply b (.ok (listPurgePendingArtifacts n w.db)) with
      | error e => exact hsame
      | ok rows =>
        obtain ⟨htakes, hlisted⟩ := of_reply_eq_ok hr
        cases hlisted
        have hlist : Purging.Unseen
            { todo := (listPurgePendingArtifacts n w.db).filter fun r => (cut r.objectKey).isSome
              drops := (listPurgePendingArtifacts n w.db).filter fun r =>
                decide (r.objectKey = "") } w := by
          refine Purging.unseen_listed htakes hc ?_ fun r hr => (List.mem_filter.mp hr).2
          exact List.append_subset.mpr ⟨List.filter_subset_self _, List.filter_subset_self _⟩
        rw [service_state, if_pos htakes]
        exact ⟨hlist.pending, hlist.sharing⟩
    | confirmArtifactDeletes ids => exact Purging.unseen_init _
    | _ => exact hsame
  | deleteObject bucket key =>
    show (g.next (.deleteObject bucket key) (x.reply b (.ok ()))).Unseen _
    cases x.reply b (.ok () : Except Err Unit) with
    | error e => exact hsame.mono (fun r hr => List.mem_of_mem_tail hr) fun r hr => Or.inr hr
    | ok _ =>
      -- the row goes from those to do to those that may be confirmed
      refine hsame.mono (fun r hr => List.mem_of_mem_tail hr) fun r hr => ?_
      rcases List.mem_append.mp hr with hr | hr
      · exact Or.inr hr
      · exact Or.inl (List.mem_of_mem_take hr)
  | _ => exact hsame

/-- What a pass erases is not shown. -/
theorem Purging.Unseen.erases (h : g.Unseen w) (hw : PendingHidden w.db) {c : Cmd}
    (hallowed : outbox.allowed g c) : ErasesUnseen ⟨w, c, b, x⟩ := by
  cases c with
  | deleteObject bucket key =>
    obtain ⟨r₀, rest, htodo, hcut⟩ := hallowed
    intro r hr hkey
    exact hw.not_shown (h.sharing r₀ (by simp [htodo]) r hr (hkey.trans hcut.symm))
  | statement s =>
    cases s with
    | confirmArtifactDeletes ids =>
      intro r hr hid
      obtain ⟨r₀, hr₀, heq⟩ := hallowed r.id hid
      exact hw.not_shown ((h.pending r₀ (Or.inr hr₀)).2 r hr heq.symm)
    | _ => trivial
  | _ => trivial

end Step

/-! ### Every interleaving -/

section Run

variable {w : World} {es : List (PoolEvent Job Choice)} {s : Pool World Cmd Cmd.Resp Unit}
  {tr : List (ℕ × Performed World Choice Cmd)}

/-- **In every interleaving of jobs whose undeletes bring no queued row back**, no row is
visible and queued. -/
theorem pending_hidden (a : Activities) (sv : Server)
    (h : (service.threads (Job.prog a sv)).RunWhere
      (fun s _ e => poolCheck restoresNothingPending s e = true) ⟨w, []⟩ es s tr)
    (hw : PendingHidden w.db) : PendingHidden s.world.db := by
  refine threads_invariant_log (J := fun w _ => PendingHidden w.db) h hw ?_
  intro s tr i t c k b j hC hth hlog hJ
  exact hJ.perform (poolMeets_of_check hC c k b hth)

/-- What the condition says of one pass under way. -/
theorem sparesTodo_of_all {i i' : ℕ} {t : Turn Choice} {c : Cmd} {k : c.Resp → Program Unit}
    {b : Bool} (h : ((List.range s.threads.length).all fun i' => !s.running i' ||
      poolCheck (sparesTodo (passOf tr i')) s (PoolEvent.turn (ι := Job) i t)) = true)
    (hth : s.threads[i]? = some ⟨.call c k, b⟩) (hrun : s.running i' = true) :
    sparesTodo (passOf tr i') t.choice (b || t.cancel) s.world c = true := by
  have hall := List.all_eq_true.mp h i' (List.mem_range.mpr (Pool.lt_of_running hrun))
  rw [hrun, Bool.not_true, Bool.false_or] at hall
  exact poolMeets_of_check hall c k b hth

/-- **In every interleaving of jobs whose undeletes bring no queued row back**, whose listings
return no row that shares its object with one that is not queued, and whose emits give no such
row an object that a pass under way has still to delete, no row is visible and queued; what
`ListArtifacts` shows is not queued, the SLA check sees every queued row, and nothing that is
shown is erased. -/
theorem pending_stays_hidden (a : Activities) (sv : Server)
    (h : (service.threads (Job.prog a sv)).RunWhere (fun s tr e =>
        poolCheck restoresNothingPending s e = true ∧ erasesNothingLive s tr e = true)
      ⟨w, []⟩ es s tr)
    (hw : PendingHidden w.db) :
    PendingHidden s.world.db ∧ (∀ r, Shown s.world.db r → r.purgePending = false) ∧
      SeesEveryPending s.world.db ∧ ∀ m ∈ tr, ErasesUnseen m.2 := by
  have hend : PendingHidden s.world.db := pending_hidden a sv (h.mono fun _ _ _ hC => hC.1) hw
  have herases : PendingHidden s.world.db ∧ ∀ m ∈ tr, ErasesUnseen m.2 := by
    refine (threads_interference (P := outbox) (K := Purging.Unseen)
      (J := fun w tr => PendingHidden w.db ∧ ∀ m ∈ tr, ErasesUnseen m.2)
      h (Job.follows_outbox a sv) ⟨hw, by simp⟩ Purging.unseen_init ?_).1
    rintro s tr i t c k b ⟨hrestores, herases⟩ hth hallowed ⟨hw, htr⟩ hpasses
    obtain ⟨hlive, hspares⟩ := (Bool.and_eq_true _ _).mp herases
    have hspares' : ∀ i', s.running i' = true →
        sparesTodo (passOf tr i') t.choice (b || t.cancel) s.world c = true :=
      fun i' hrun => sparesTodo_of_all hspares hth hrun
    have hrun := Pool.running_of_call hth
    refine ⟨⟨hw.perform (poolMeets_of_check hrestores c k b hth), fun m hm => ?_⟩,
      (hpasses i hrun).own (poolMeets_of_check hlive c k b hth) (hspares' i hrun),
      fun i' _ hrun' => (hpasses i' hrun').spared (hspares' i' hrun')⟩
    rcases List.mem_append.mp hm with hm | hm
    · exact htr m hm
    · rw [List.mem_singleton.mp hm]
      exact (hpasses i hrun).erases hw hallowed
  refine ⟨hend, fun r hr => ?_, hend.seesEveryPending, herases.2⟩
  cases hp : r.purgePending with
  | false => rfl
  | true => exact absurd hr (hend.not_shown hp)

end Run

/-! ### A disconnect, and a reconnect -/

/-- Ann's Drive with one document, five nanoseconds in. -/
def syncedWorld : World := { db := syncedDatabase, objects := fun _ => none, now := 5 }

/-- Turns of one thread in which nothing fails. -/
def quietTurns (i n : ℕ) : List (PoolEvent Job Choice) :=
  List.replicate n (.turn i ⟨false, quietly annAnswers⟩)

/-- Turns of one thread in which nothing fails, and Ann's document is there. -/
def docTurns (i n : ℕ) : List (PoolEvent Job Choice) :=
  List.replicate n (.turn i ⟨false, quietly docAnswers⟩)

/-- Ann disconnects, and a purge pass runs. -/
def disconnectAndPurge : List (PoolEvent Job Choice) :=
  .start (.disconnect (some "acme") 0) :: quietTurns 0 6 ++
    .start (.upkeep (.purgeArtifacts 0)) :: quietTurns 1 3

/-- Ann disconnects, a purge pass runs, she connects the same account again, and her document
is synced anew. -/
def purgeAndReconnect : List (PoolEvent Job Choice) :=
  disconnectAndPurge ++ .start (.completeConnection "state" "code" "") :: quietTurns 2 6 ++
    .start (.syncUnit driveInput) :: docTurns 3 22

/-- The disconnected document is hidden when the purge pass erases it, and is shown once it is
synced again. -/
theorem disconnect_purge_hidden :
    ∃ s tr, (service.threads (Job.prog driveActivities driveServer)).Run ⟨syncedWorld, []⟩
        purgeAndReconnect s tr ∧
      (∃ m ∈ tr, m.2.cmd = .statement (.confirmArtifactDeletes [0])) ∧
      (∃ r, Shown s.world.db r) ∧ PendingHidden syncedWorld.db ∧
      (PendingHidden s.world.db ∧ (∀ r, Shown s.world.db r → r.purgePending = false) ∧
        SeesEveryPending s.world.db ∧ ∀ m ∈ tr, ErasesUnseen m.2) := by
  obtain ⟨s, tr, hrun, hend⟩ := Lts.exists_runWhere_of_any
    (service.threads (Job.prog driveActivities driveServer))
    (fun s tr e => poolCheck restoresNothingPending s e && erasesNothingLive s tr e)
    ⟨syncedWorld, []⟩ purgeAndReconnect
    (fun s tr => (tr.any fun m => decide (m.2.cmd = .statement (.confirmArtifactDeletes [0]))) &&
      (listArtifacts "acme" none 50 0 s.world.db).any fun _ => true) (by decide +kernel)
  have hhidden : PendingHidden syncedWorld.db := by decide +kernel
  obtain ⟨hdropped, hlisted⟩ := (Bool.and_eq_true _ _).mp hend
  obtain ⟨m, hm, hconfirm⟩ := List.any_eq_true.mp hdropped
  obtain ⟨r, hshown, -⟩ := List.any_eq_true.mp hlisted
  refine ⟨s, tr, hrun.run, ⟨m, hm, of_decide_eq_true hconfirm⟩, ⟨r, "acme", none, 50, 0, hshown⟩,
    hhidden, ?_⟩
  exact pending_stays_hidden driveActivities driveServer
    (hrun.mono fun _ _ _ hc => (Bool.and_eq_true _ _).mp hc) hhidden

/-- Ann disconnects, and connects the same account again. -/
def disconnectAndReconnect : List (PoolEvent Job Choice) :=
  .start (.disconnect (some "acme") 0) :: quietTurns 0 6 ++
    .start (.completeConnection "state" "code" "") :: quietTurns 1 6

/-- **A reconnect shows what the disconnect has queued**: the row is visible and
queued, `ListArtifacts` returns it, and so does the next purge pass. -/
theorem reconnect_shows_pending :
    PendingHidden syncedWorld.db ∧
      ∃ s tr, (service.threads (Job.prog driveActivities driveServer)).Run ⟨syncedWorld, []⟩
          disconnectAndReconnect s tr ∧
        ¬ PendingHidden s.world.db ∧
        ∃ r, Shown s.world.db r ∧ r ∈ listPurgePendingArtifacts purgeBatch s.world.db := by
  refine ⟨by decide +kernel, ?_⟩
  obtain ⟨s, tr, hrun, hend⟩ := Lts.exists_run_of_any
    (service.threads (Job.prog driveActivities driveServer)) ⟨syncedWorld, []⟩
    disconnectAndReconnect
    (fun s _ => (listArtifacts "acme" none 50 0 s.world.db).any fun r =>
      decide (r ∈ listPurgePendingArtifacts purgeBatch s.world.db)) (by decide +kernel)
  obtain ⟨r, hshown, hlisted⟩ := List.any_eq_true.mp hend
  have hr : Shown s.world.db r := ⟨"acme", none, 50, 0, hshown⟩
  have hpending := mem_listPurgePendingArtifacts (of_decide_eq_true hlisted)
  refine ⟨s, tr, hrun, fun hhidden => ?_, r, hr, of_decide_eq_true hlisted⟩
  exact hhidden.not_shown hpending.2 hr

end Hivebook
