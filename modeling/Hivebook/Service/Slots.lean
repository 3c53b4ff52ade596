import Hivebook.Lib.Parties
import Hivebook.Service.Jobs

/-!
# Admission slots

A `SyncUnit` takes a slot of its connection's bucket before it touches the source,
and gives it back in a deferred `Release`.  Both are statements on the activity's own
context, and on a cancelled context a statement has no effect.

The slots taken are accounted for exactly, in any interleaving of `SyncUnit`
executions: what was there before, what the running executions owe, and what was
leaked.  A slot leaks when a `Release` has no effect, and when an `Acquire` takes a
slot and its answer is lost.  So once all executions have returned, the bucket is
back to its value before them if and only if nothing leaked; a `Stop` that arrives
between the two is enough for a leak.

## Main definitions

* `slots k` — the protocol that counts the slots of a bucket an execution owes.
* `leaked k` — the commands that leak a slot.

## Main results

* `follows_slots` — **every `SyncUnit` gives back what it knows it has taken.**
* `slots_balance_iff` — **the bucket is back to its value iff nothing leaked.**
* `stopped_unit_leaks` — a `Stop` during the drain leaks the slot.
-/

namespace Hivebook

open Connectors Admission Machine Database

/-- Counting the slots of a bucket that are owed: an answered `Acquire` owes one
more, a `Release` one less. -/
def slots (k : Scope) : Protocol ℕ Cmd Cmd.Resp where
  allowed n c := c = .statement (.releaseAdmission k) → 0 < n
  next
    | n, .statement (.acquireAdmission k'), .ok _ => if k' = k then n + 1 else n
    | n, .statement (.releaseAdmission k'), _ => if k' = k then n - 1 else n
    | n, _, _ => n

/-! ### Programs that neither take nor give back a slot -/

/-- A command that is neither an acquire nor a release. -/
def Cmd.slotFree : Cmd → Bool
  | .statement (.acquireAdmission _) | .statement (.releaseAdmission _) => false
  | _ => true

theorem slotFree_of_plain {c : Cmd} (h : c.plain = true) : c.slotFree = true := by
  cases c with
  | statement s => cases s <;> first | rfl | cases h
  | _ => rfl

theorem slots_next_slotFree (k : Scope) {c : Cmd} (h : c.slotFree = true) (n : ℕ) (r : c.Resp) :
    (slots k).next n c r = n := by
  cases c with
  | statement s => cases s <;> first | rfl | cases h
  | _ => rfl

/-- A program without acquires and releases owes at the end what it owed before. -/
theorem follows_slotFree {α : Type} {p : Program α} (k : Scope)
    (hp : p.Uses fun c => c.slotFree = true) (n : ℕ) :
    p.Follows (slots k) (fun _ m => m = n) n := by
  refine Prog.follows_of_uses (I := fun m => m = n) (hp.mono fun c hc m hm => ⟨?_, fun r => ?_⟩) rfl
  · rintro rfl
    cases hc
  · rw [slots_next_slotFree k hc]
    exact hm

theorem Plain.follows_slots {α : Type} {p : Program α} (hp : Plain p) (k : Scope) (n : ℕ) :
    p.Follows (slots k) (fun _ m => m = n) n :=
  follows_slotFree k (hp.mono fun _ hc => slotFree_of_plain hc) n

section SyncUnit

variable (a : Activities)

theorem slotFree_emitChanged (i : SyncInput) (conn : Connection) (art : Artifact) (hash : String)
    (st : EmitState) : (a.emitChanged i conn art hash st).Uses fun c => c.slotFree = true := by
  refine ⟨rfl, fun r => ?_⟩
  cases r with
  | error e => trivial
  | ok _ =>
    refine ⟨rfl, fun r => ?_⟩
    cases r with
    | error e => trivial
    | ok _ =>
      exact ((Activities.steady_noteProgress i _).plain.bind fun _ => plain_pure _).mono fun _ hc =>
        slotFree_of_plain hc

theorem slotFree_makeEmit (i : SyncInput) (conn : Connection) (art : Artifact) (st : EmitState) :
    (a.makeEmit i conn art st).Uses fun c => c.slotFree = true := by
  refine ⟨rfl, fun b => ?_⟩
  show Prog.Uses _ (if b = true then _ else _)
  split
  · trivial
  · refine ⟨rfl, fun r => ?_⟩
    dsimp only [Prog.pure_bind]
    split
    · split
      · exact (Activities.plain_emitUnchanged i art st).mono fun _ hc => slotFree_of_plain hc
      · exact slotFree_emitChanged a i conn art _ st
    · exact slotFree_emitChanged a i conn art _ st
    · trivial

/-- Draining a unit, whatever the connector does, neither takes nor gives back a
slot. -/
theorem slotFree_drainUnit (i : SyncInput) (conn : Connection) (connector : Connector)
    (unit : SyncUnit) :
    (a.drainUnit i conn connector unit).Uses fun c => c.slotFree = true := by
  refine Prog.Uses.bind (Prog.Uses.handle ?_ _ _) fun r => ?_
  · intro c st
    cases c with
    | fetch c => cases c <;> exact ⟨rfl, fun _ => trivial⟩
    | emit art => exact slotFree_makeEmit a i conn art st
  · exact (Activities.steady_finishUnit _ _ _ _ _).plain.mono fun _ hc => slotFree_of_plain hc

/-- An acquire owes a slot exactly when it says so. -/
theorem follows_slots_acquire (k k' : Scope) (connectorID : String) (seed : RateBudget) (n : ℕ) :
    (acquire k' connectorID seed).Follows (slots k)
      (fun r m => m = n + (if k' = k ∧ r = .ok true then 1 else 0)) n := by
  refine ⟨by rintro ⟨⟩, fun r => ?_⟩
  cases r with
  | error e => simp [Prog.Follows, slots]
  | ok _ =>
    refine ⟨by rintro ⟨⟩, fun r => ?_⟩
    cases r with
    | error e => cases e <;> simp [Prog.Follows, slots]
    | ok m =>
      show (if k' = k then n + 1 else n) = _
      by_cases h : k' = k <;> simp [h]

/-- What follows the client: the slot taken is given back on every exit. -/
theorem follows_slots_admitted (k : Scope) (i : SyncInput) (conn : Connection)
    (connector : Connector) (unit : SyncUnit) :
    (a.admitted i conn connector unit).Follows (slots k) (fun _ m => m = 0) 0 := by
  refine (follows_slots_acquire k (.credential i.connectionID) _ _ 0).bind fun r m hm => ?_
  split
  · show m = 0
    simpa using hm
  · show m = 0
    simpa using hm
  · refine (follows_slotFree k (slotFree_drainUnit a i conn connector unit) m).bind
      fun r m' hm' => ?_
    subst hm'
    refine ⟨fun hrelease => ?_, fun _ => ?_⟩
    · cases hrelease
      simp only [and_self, if_true] at hm
      omega
    · show (if Scope.credential i.connectionID = k then m' - 1 else m') = 0
      by_cases hk : Scope.credential i.connectionID = k
      · rw [if_pos hk]
        simp only [hk, and_self, if_true] at hm
        omega
      · rw [if_neg hk]
        simpa [hk] using hm

/-- **Every `SyncUnit` gives back what it knows it has taken.** -/
theorem follows_slots (k : Scope) (i : SyncInput) :
    (a.syncUnit i).Follows (slots k) (fun _ m => m = 0) 0 := by
  refine ((a.touchesTokens_loadConnection _).steady.plain.follows_slots k 0).bind fun r n hn => ?_
  subst hn
  split
  · rfl
  · refine ((plain_statement rfl).follows_slots k 0).bind fun r n hn => ?_
    subst hn
    split
    · rfl
    · refine ((plain_statement rfl).follows_slots k 0).bind fun r n hn => ?_
      subst hn
      split
      · rfl
      · refine ((plain_statement rfl).follows_slots k 0).bind fun _ n hn => ?_
        subst hn
        refine ((a.touchesTokens_clientFor _).steady.plain.follows_slots k 0).bind fun r n hn => ?_
        subst hn
        split
        · exact ((Activities.steady_classify _ _ _).plain.bind
            fun _ => plain_pure _).follows_slots k 0
        · exact follows_slots_admitted a k i _ _ _

end SyncUnit

/-! ### The slots of a bucket -/

/-- An acquire would take a slot of the bucket. -/
def slotFreeToTake (now : Time) (db : Database) (k : Scope) : Bool :=
  match db.buckets k with
  | some b => admits now b
  | none => false

theorem inFlight_acquire (now : Time) (db : Database) (k k' : Scope) :
    (acquireAdmission now k' db).2.inFlight k =
      db.inFlight k + (if k' = k ∧ slotFreeToTake now db k = true then 1 else 0) := by
  unfold acquireAdmission slotFreeToTake
  by_cases hk : k' = k
  · subst hk
    cases hb : db.buckets k' with
    | none => simp
    | some b =>
      by_cases ha : admits now b = true
      · simp [ha, inFlight, updateBucket, hb]
      · simp [ha]
  · have hne : k ≠ k' := fun h => hk h.symm
    cases hb : db.buckets k' with
    | none => simp [hk]
    | some b =>
      by_cases ha : admits now b = true
      · simp [ha, hk, inFlight, updateBucket, Function.update_of_ne hne]
      · simp [ha, hk]

theorem acquire_ok_iff (now : Time) (db : Database) (k : Scope) :
    (∃ n, (acquireAdmission now k db).1 = .ok n) ↔ slotFreeToTake now db k = true := by
  unfold acquireAdmission slotFreeToTake
  cases db.buckets k with
  | none => simp
  | some b =>
    by_cases ha : admits now b = true
    · simp [ha]
    · simp [ha]

theorem inFlight_release (db : Database) (k k' : Scope) :
    (releaseAdmission k' db).inFlight k =
      if k' = k then db.inFlight k - 1 else db.inFlight k := by
  unfold releaseAdmission inFlight updateBucket
  by_cases hk : k' = k
  · subst hk
    cases db.buckets k' <;> simp
  · have hne : k ≠ k' := fun h => hk h.symm
    simp [hk, Function.update_of_ne hne]

/-- A statement that is neither an acquire nor a release leaves the slots alone. -/
theorem inFlight_slotFree {s : Statement} (h : (Cmd.statement s).slotFree = true) (now : Time)
    (db : Database) (k : Scope) : (s.exec now db).2.inFlight k = db.inFlight k := by
  by_cases hs : s.plain = true
  · exact Statement.plain_inFlight hs now db k
  · cases s with
    | commitArtifact p unitID cursor => cases cursor <;> rfl
    | _ => first | exact absurd rfl hs | rfl | cases h

/-! ### The account -/

/-- A command that leaks a slot of the bucket: a release without effect, or an
acquire that takes a slot and whose answer is lost. -/
def leaked (k : Scope) (l : Performed World Choice Cmd) : Bool :=
  match l.cmd with
  | .statement (.acquireAdmission k') => decide (k' = k) && !l.cancelled &&
      (match l.choice.outcome with | .lost _ => true | _ => false) &&
      slotFreeToTake (l.state.now + l.choice.elapsed) l.state.db k
  | .statement (.releaseAdmission k') => decide (k' = k) && !l.choice.takesEffect l.cancelled
  | _ => false

theorem account_acquire (k k' : Scope) (x : Choice) (b : Bool) (w : World) (n : ℕ) :
    (service.perform x b w (.statement (.acquireAdmission k'))).1.db.inFlight k + n =
      w.db.inFlight k + (slots k).next n (.statement (.acquireAdmission k'))
          (service.perform x b w (.statement (.acquireAdmission k'))).2 +
        (if leaked k ⟨w, .statement (.acquireAdmission k'), b, x⟩ = true then 1 else 0) := by
  rw [service_statement, service_db]
  show (if x.takesEffect b = true then (acquireAdmission (w.now + x.elapsed) k' w.db).2
    else w.db).inFlight k + n = _
  cases b with
  | true => simp [Choice.takesEffect, Choice.reply, slots, leaked]
  | false =>
    cases ho : x.outcome with
    | refused text => simp [Choice.takesEffect, Choice.reply, ho, slots, leaked]
    -- the slot is taken and nobody knows: this is the leak
    | lost text =>
      have hreply : x.reply false (acquireAdmission (w.now + x.elapsed) k' w.db).1 =
          .error (.failed text) := by simp [Choice.reply, ho]
      have heffect : x.takesEffect false = true := by simp [Choice.takesEffect, ho]
      rw [if_pos heffect, inFlight_acquire]
      show _ = _ + (slots k).next n (.statement (.acquireAdmission k')) (x.reply false
        (acquireAdmission (w.now + x.elapsed) k' w.db).1) + _
      rw [hreply]
      simp only [slots, leaked, ho, Bool.not_false, Bool.and_true, Bool.and_eq_true,
        decide_eq_true_eq]
      omega
    | applied =>
      have hok := acquire_ok_iff (w.now + x.elapsed) w.db k'
      have hreply : x.reply false (acquireAdmission (w.now + x.elapsed) k' w.db).1 =
          (acquireAdmission (w.now + x.elapsed) k' w.db).1 := by
        simp [Choice.reply, ho]
      have heffect : x.takesEffect false = true := by simp [Choice.takesEffect, ho]
      have hleak : leaked k ⟨w, .statement (.acquireAdmission k'), false, x⟩ = false := by
        simp [leaked, ho]
      rw [if_pos heffect, inFlight_acquire, hleak]
      show _ = _ + (slots k).next n (.statement (.acquireAdmission k')) (x.reply false
        (acquireAdmission (w.now + x.elapsed) k' w.db).1) + _
      rw [hreply]
      cases hr : (acquireAdmission (w.now + x.elapsed) k' w.db).1 with
      | error e =>
        have hfull : slotFreeToTake (w.now + x.elapsed) w.db k' = false := by
          rw [← Bool.not_eq_true, ← hok, hr]
          simp
        by_cases hk : k' = k
        · subst hk
          simp [slots, hfull]
        · simp [slots, hk]
      | ok m =>
        have htook : slotFreeToTake (w.now + x.elapsed) w.db k' = true := hok.mp ⟨m, hr⟩
        by_cases hk : k' = k
        · subst hk
          simp [slots, htook]
          omega
        · simp [slots, hk]

theorem account_release (k k' : Scope) (x : Choice) (b : Bool) (w : World) {n : ℕ}
    (hn : k' = k → 0 < n) (hle : n ≤ w.db.inFlight k) :
    (service.perform x b w (.statement (.releaseAdmission k'))).1.db.inFlight k + n =
      w.db.inFlight k + (slots k).next n (.statement (.releaseAdmission k'))
          (service.perform x b w (.statement (.releaseAdmission k'))).2 +
        (if leaked k ⟨w, .statement (.releaseAdmission k'), b, x⟩ = true then 1 else 0) := by
  rw [service_db]
  show (if x.takesEffect b = true then releaseAdmission k' w.db else w.db).inFlight k + n =
    w.db.inFlight k + (if k' = k then n - 1 else n) + _
  by_cases hk : k' = k
  · have hpos := hn hk
    by_cases hx : x.takesEffect b = true
    · have hleak : leaked k ⟨w, .statement (.releaseAdmission k'), b, x⟩ = false := by
        simp [leaked, hx]
      rw [if_pos hx, inFlight_release, if_pos hk, if_pos hk, hleak]
      simp only [Bool.false_eq_true, if_false]
      omega
    · have hleak : leaked k ⟨w, .statement (.releaseAdmission k'), b, x⟩ = true := by
        simp [leaked, hx, hk]
      rw [if_neg hx, if_pos hk, if_pos hleak]
      omega
  · have hleak : leaked k ⟨w, .statement (.releaseAdmission k'), b, x⟩ = false := by
      simp [leaked, hk]
    rw [hleak, if_neg hk]
    by_cases hx : x.takesEffect b = true
    · rw [if_pos hx, inFlight_release, if_neg hk]
      simp
    · rw [if_neg hx]
      simp

/-- What one command does to the account of a bucket: the slots taken and the slots
owed move together, except for a leak. -/
theorem account_step (k : Scope) {x : Choice} {b : Bool} {w : World} {c : Cmd} {n : ℕ}
    (hc : (slots k).allowed n c) (hn : n ≤ w.db.inFlight k) :
    (service.perform x b w c).1.db.inFlight k + n =
      w.db.inFlight k + (slots k).next n c (service.perform x b w c).2 +
        (if leaked k ⟨w, c, b, x⟩ = true then 1 else 0) := by
  by_cases hfree : c.slotFree = true
  · have hleak : leaked k ⟨w, c, b, x⟩ = false := by
      cases c with
      | statement s => cases s <;> first | rfl | cases hfree
      | _ => rfl
    have hsame : (service.perform x b w c).1.db.inFlight k = w.db.inFlight k := by
      rw [service_db]
      cases c with
      | statement s =>
        show (if x.takesEffect b = true then _ else _ : Database).inFlight k = _
        split
        · exact inFlight_slotFree hfree _ _ _
        · rfl
      | _ => rfl
    rw [slots_next_slotFree k hfree, hleak, hsame]
    simp
  · cases c with
    | statement s =>
      cases s with
      | acquireAdmission k' => exact account_acquire k k' x b w n
      | releaseAdmission k' => exact account_release k k' x b w (fun hk => hc (by rw [hk])) hn
      | _ => exact absurd rfl hfree
    | _ => exact absurd rfl hfree

/-! ### Every interleaving -/

/-- In any interleaving of `SyncUnit` executions the slots taken are those taken
before, those owed and those leaked. -/
theorem slots_account (a : Activities) (k : Scope) {w : World}
    {es : List (PoolEvent SyncInput Choice)}
    {s : Pool World Cmd Cmd.Resp (Except ActivityError SyncResult)}
    {tr : List (Performed World Choice Cmd)}
    (h : (service.pool a.syncUnit).Run ⟨w, []⟩ es s tr) :
    ∃ gs : List ℕ, s.world.db.inFlight k = w.db.inFlight k + gs.sum + tr.countP (leaked k) ∧
      List.Forall₂ (fun th g => th.prog.Follows (slots k) (fun _ m => m = 0) g) s.threads gs := by
  refine pool_follows (J := fun w' gs tr =>
    w'.db.inFlight k = w.db.inFlight k + gs.sum + tr.countP (leaked k)) h (follows_slots a k)
    (by simp) (by intro w gs tr hJ; simpa using hJ) ?_
  intro s tr i t c kont b gs g _ _ hg hallowed hJ
  have hsum := sum_set hg
    ((slots k).next g c (service.perform t.choice (b || t.cancel) s.world c).2)
  have hle : g ≤ s.world.db.inFlight k := by
    have hwithout := sum_set hg 0
    omega
  have hstep := account_step k (x := t.choice) (b := b || t.cancel) hallowed hle
  rw [List.countP_append, List.countP_singleton]
  omega

theorem sum_eq_zero_of_returned {α : Type} {ths : List (Thread Cmd Cmd.Resp α)} {gs : List ℕ}
    {k : Scope}
    (h : List.Forall₂ (fun th g => th.prog.Follows (slots k) (fun _ m => m = 0) g) ths gs)
    (hret : ∀ th ∈ ths, ∃ r, th.prog = .pure r) : gs.sum = 0 := by
  induction h with
  | nil => rfl
  | cons hg _ ih =>
    obtain ⟨r, hr⟩ := hret _ List.mem_cons_self
    rw [hr] at hg
    have hrest := ih fun th hth => hret th (List.mem_cons_of_mem _ hth)
    have hzero : _ = 0 := hg
    simp only [List.sum_cons]
    omega

/-- **Once all executions have returned, the bucket is back to its value before them
if and only if nothing leaked.** -/
theorem slots_balance_iff (a : Activities) (k : Scope) {w : World}
    {es : List (PoolEvent SyncInput Choice)}
    {s : Pool World Cmd Cmd.Resp (Except ActivityError SyncResult)}
    {tr : List (Performed World Choice Cmd)}
    (h : (service.pool a.syncUnit).Run ⟨w, []⟩ es s tr) (hret : s.returned) :
    s.world.db.inFlight k = w.db.inFlight k ↔ ∀ l ∈ tr, leaked k l = false := by
  obtain ⟨gs, haccount, hfollows⟩ := slots_account a k h
  have hsum := sum_eq_zero_of_returned hfollows hret
  have hcount : tr.countP (leaked k) = 0 ↔ ∀ l ∈ tr, leaked k l = false := by
    simp [List.countP_eq_zero]
  rw [← hcount]
  omega

-- both sides of the balance of a Drive that nothing has run on
example : freshDrive.db.inFlight (.credential 0) = 0 := by
  decide +kernel

/-! ### A stopped drain -/

/-- A `SyncUnit` up to its slot, and what is left of it on a context that is
cancelled, or not, right after. -/
def drainEvents (stopped : Bool) (n : ℕ) : List (PoolEvent SyncInput Choice) :=
  .start driveInput :: List.replicate 6 (.turn 0 ⟨false, quietly annAnswers⟩) ++
    List.replicate n (.turn 0 ⟨stopped, quietly annAnswers⟩)

/-- A drain whose listing fails gives its slot back. -/
theorem failed_drain_balanced :
    ∃ s tr, (service.pool driveActivities.syncUnit).Run ⟨freshDrive, []⟩
        (drainEvents false 7) s tr ∧ s.returned ∧
      (s.world.db.inFlight (.credential 0) = freshDrive.db.inFlight (.credential 0) ↔
        ∀ l ∈ tr, leaked (.credential 0) l = false) ∧
      s.world.db.inFlight (.credential 0) = 0 := by
  obtain ⟨s, tr, hrun, hend⟩ := Lts.exists_run_of_any (service.pool driveActivities.syncUnit)
    ⟨freshDrive, []⟩ (drainEvents false 7)
    (fun s _ => s.allReturned && decide (s.world.db.inFlight (.credential 0) = 0))
    (by decide +kernel)
  simp only [Bool.and_eq_true, decide_eq_true_eq] at hend
  have hret := Pool.returned_of_allReturned hend.1
  exact ⟨s, tr, hrun, hret, slots_balance_iff driveActivities (.credential 0) hrun hret, hend.2⟩

/-- **A `Stop` during the drain leaks the slot**: the context is cancelled, the drain
and the activity return, and the deferred `Release` has no effect. -/
theorem stopped_unit_leaks :
    freshDrive.db.inFlight (.credential 0) = 0 ∧
      ∃ s tr, (service.pool driveActivities.syncUnit).Run ⟨freshDrive, []⟩
          (drainEvents true 3) s tr ∧ s.returned ∧
        s.world.db.inFlight (.credential 0) = 1 := by
  refine ⟨by decide +kernel, ?_⟩
  obtain ⟨s, tr, hrun, hend⟩ := Lts.exists_run_of_any (service.pool driveActivities.syncUnit)
    ⟨freshDrive, []⟩ (drainEvents true 3)
    (fun s _ => s.allReturned && decide (s.world.db.inFlight (.credential 0) = 1))
    (by decide +kernel)
  simp only [Bool.and_eq_true, decide_eq_true_eq] at hend
  exact ⟨s, tr, hrun, Pool.returned_of_allReturned hend.1, hend.2⟩

end Hivebook
