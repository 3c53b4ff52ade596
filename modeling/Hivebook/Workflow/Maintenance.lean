import Hivebook.Lib.Passes
import Hivebook.Service.Drain
import Hivebook.Service.Starving

/-!
# The maintenance workflow

One workflow for the whole deployment erases what is owed and collects what was removed: a pass
purges the outbox batch by batch, checks the erasure deadline, collects the units past their
grace, reports, and sleeps for a day.  It runs over the three activities, whose attempts may fail,
time out or go on after their worker was given up, and next to every other job of the service.

What a pass reports is read off results, and results are lost with the attempts that returned
them.  So the report never says more than what was done: each total is at most what the commands
of the pass have done, and a quiet report is a fact about the outbox at some moment of the pass.

## Main definitions

* `Maintenance.step` — the workflow; `maintenanceOver`, `maintenanceSystem` — over its activities.
* `TrueReport` — what a report says about the labels of its pass.
* `Justified` — what every label of the workflow presupposes.

## Main results

* `Kept.move` — every move keeps the invariant.
* `maintenance_justified` — **in every run each step of a pass comes in its place, each report is
  true, passes are a day apart, and the workflow stops at nothing but the failure of an activity.**
-/

namespace Hivebook
namespace Maintenance

open Machine Orchestration Database Storage

/-! ### The workflow -/

/-- `maintenanceInterval`. -/
def maintenanceInterval : Time := day

/-- The activities of a `MaintenanceWorkflow`. -/
inductive Activity where
  | purgeArtifacts
  | checkPurgeSLA
  | gcRemovedUnits
  deriving DecidableEq, Repr

/-- Where the workflow is blocked. -/
inductive Control where
  /-- Before its first task. -/
  | start
  /-- Awaiting the `PurgeArtifacts` of iteration `i`. -/
  | purge (i totalDeleted totalFailed : ℕ)
  | checkSLA (totalDeleted totalFailed : ℕ)
  | gc (totalDeleted totalFailed breached : ℕ)
  /-- In `workflow.Sleep`. -/
  | sleep (due : Time)
  /-- The workflow returned an error that is not a `ContinueAsNewError`. -/
  | failed
  deriving DecidableEq, Repr

/-- The workflow, one chain of generations. -/
structure State where
  now : Time
  control : Control
  deriving DecidableEq, Repr

/-- What may resume the workflow, or happen to it. -/
inductive Event where
  | tick (d : Time)
  /-- Its first task. -/
  | begin
  | purgeDone (r : Except ErrType PurgeResult)
  /-- The count of `SLAResult`. -/
  | slaDone (r : Except ErrType ℕ)
  | gcDone (r : Except ErrType ℕ)
  | timerFired
  /-- The context of the workflow is cancelled, and what it waits for returns the error. -/
  | cancelled
  deriving DecidableEq, Repr

/-- What the workflow does, as seen from outside. -/
inductive Action where
  /-- A generation begins. -/
  | began (now : Time)
  | executed (act : Activity)
  | purged (res : PurgeResult)
  | checked (breached : ℕ)
  | collected (n : ℕ)
  /-- `maintenance_pass`. -/
  | logged (purged failed breached gced : ℕ)
  | slept (now : Time)
  | continuedAsNew
  | cancelled
  | failed
  deriving DecidableEq, Repr

/-- The batch cleared nothing new. -/
def clearedNothing (res : PurgeResult) : Bool := decide (res.deleted = 0 ∧ res.orphaned = 0)

/-- `MaintenanceWorkflow` from its first line. -/
def beginPass (s : State) : State × List Action :=
  ({ s with control := .purge 0 0 0 }, [.began s.now, .executed .purgeArtifacts])

/-- After a batch, with the totals: the loop goes on unless it cleared nothing or was the last. -/
def afterBatch (s : State) (i totalDeleted totalFailed : ℕ) (res : PurgeResult) :
    State × List Action :=
  if clearedNothing res = true ∨ maintenanceMaxPurgeBatches ≤ i + 1 then
    ({ s with control := .checkSLA totalDeleted totalFailed }, [.executed .checkPurgeSLA])
  else
    ({ s with control := .purge (i + 1) totalDeleted totalFailed }, [.executed .purgeArtifacts])

/-- The workflow returns an error. -/
def fail (s : State) : State × List Action := ({ s with control := .failed }, [.failed])

/-- One step of the workflow. -/
def step (s : State) : Event → Option (State × List Action)
  | .tick d => some ({ s with now := s.now + d }, [])
  | .begin =>
      match s.control with
      | .start => some (beginPass s)
      | _ => none
  | .purgeDone r =>
      match s.control, r with
      | .purge i deleted failed, .ok res =>
          let next := afterBatch s i (deleted + res.deleted) (failed + res.failed) res
          some (next.1, .purged res :: next.2)
      | .purge _ _ _, .error _ => some (fail s)
      | _, _ => none
  | .slaDone r =>
      match s.control, r with
      | .checkSLA deleted failed, .ok breached =>
          some ({ s with control := .gc deleted failed breached },
            [.checked breached, .executed .gcRemovedUnits])
      | .checkSLA _ _, .error _ => some (fail s)
      | _, _ => none
  | .gcDone r =>
      match s.control, r with
      | .gc deleted failed breached, .ok n =>
          some ({ s with control := .sleep (s.now + maintenanceInterval) },
            [.collected n, .logged deleted failed breached n, .slept s.now])
      | .gc _ _ _, .error _ => some (fail s)
      | _, _ => none
  | .timerFired =>
      match s.control with
      | .sleep due =>
          if due ≤ s.now then
            let next := beginPass s
            some (next.1, .continuedAsNew :: next.2)
          else none
      | _ => none
  | .cancelled =>
      match s.control with
      | .start | .failed => none
      | _ =>
          let next := fail s
          some (next.1, .cancelled :: next.2)

/-- The workflow as a transition system. -/
def maintenanceWorkflow : Lts State Event Action := ⟨step⟩

/-! ### Over its activities -/

/-- The program of an activity, with its result as an event of the workflow. -/
def Activity.prog : Activity → Program Event
  | .purgeArtifacts => (Activities.purgeArtifacts 0).bind fun r =>
      .pure (.purgeDone (Workflow.seen r))
  | .checkPurgeSLA => Activities.checkPurgeSLA.bind fun r =>
      .pure (.slaDone (Workflow.seen (r.map List.length)))
  | .gcRemovedUnits => Activities.gcRemovedUnits.bind fun r => .pure (.gcDone (Workflow.seen r))

/-- An activity that failed. -/
def Activity.failed (t : ErrType) : Activity → Event
  | .purgeArtifacts => .purgeDone (.error t)
  | .checkPurgeSLA => .slaDone (.error t)
  | .gcRemovedUnits => .gcDone (.error t)

/-- An error is retried, whatever it is. -/
def Event.final : Event → Bool
  | .purgeDone (.error _) | .slaDone (.error _) | .gcDone (.error _) => false
  | _ => true

/-- The events that are no result of an activity. -/
def Event.free : Event → Bool
  | .tick _ | .begin | .timerFired | .cancelled => true
  | _ => false

/-- The activity an action schedules. -/
def scheduled : Action → Option Activity
  | .executed act => some act
  | _ => none

/-- The maintenance workflow over its activities.  Nothing starts it anew when it has ended. -/
def maintenanceOver : Orchestration State Event Action Activity Cmd Cmd.Resp where
  workflow := maintenanceWorkflow
  schedules _ as := as.filterMap scheduled
  prog := Activity.prog
  attempts _ := 5
  final := Event.final
  timeout := Activity.failed .other
  free := Event.free
  restart _ := none

/-- The maintenance workflow that runs over its activities. -/
abbrev Running := Orchestrated State World Event Activity Cmd Cmd.Resp

/-- A label of its trace. -/
abbrev Mark := Label State World Choice Event Action Activity Cmd

/-- What happens to it. -/
abbrev Happening := Occurrence Job Choice Event

/-- Maintenance and the rest of the service. -/
def maintenanceSystem (a : Activities) (sv : Server) : Lts Running Happening Mark :=
  maintenanceOver.system service (Job.prog a sv)

/-- The workflow as it is started. -/
def Running.fresh (t : Time) (w : World) : Running := Orchestration.start ⟨t, .start⟩ w

/-! ### What a report says -/

/-- The label begins a pass. -/
def begins : Mark → Bool
  | .action (.began _) => true
  | _ => false

/-- The labels of the pass under way. -/
def thisPass (tr : List Mark) : List Mark := lastPass begins tr

/-- The purge result a label records. -/
def purgeResult : Mark → Option PurgeResult
  | .action (.purged res) => some res
  | _ => none

/-- The results of the batches. -/
def purges (p : List Mark) : List PurgeResult := p.filterMap purgeResult

/-- The purge loop is over: its last batch cleared nothing, or there were as many as may be. -/
def PurgesOver (results : List PurgeResult) : Prop :=
  results.length ≤ maintenanceMaxPurgeBatches ∧
    (results.length < maintenanceMaxPurgeBatches →
      ∃ res ∈ results.getLast?, clearedNothing res = true)

/-- An object whose delete took effect. -/
def erased (l : Performed World Choice Cmd) : ℕ :=
  match l.cmd with
  | .deleteObject _ _ => if tookEffect l then 1 else 0
  | _ => 0

/-- The units a statement collected. -/
def collected (l : Performed World Choice Cmd) : ℕ :=
  match l.cmd with
  | .statement (.gcRemovedUnits id cutoff) =>
      if tookEffect l then (Database.gcRemovedUnits id cutoff l.state.db).1 else 0
  | _ => 0

/-- An erasure that was asked for before a moment and is still owed. -/
def overdue (cutoff : Time) (r : RawArtifact) : Bool := r.purgePending && before r.deletedAt cutoff

/-- The command was performed by an execution among these labels. -/
def PerformedIn (p : List Mark) (l : Performed World Choice Cmd) : Prop :=
  ∃ i, .performed i l ∈ p

/-- So many erasures were overdue at a moment of the pass, up to the limit of the scan. -/
def OverdueIn (p : List Mark) (breached : ℕ) : Prop :=
  ∃ l₀ l, PerformedIn p l₀ ∧ l₀.cmd = .clock ∧ PerformedIn p l ∧
    breached = min slaScanLimit
      (l.state.db.artifacts.rows.countP (overdue (performedAt l₀ - purgeSLA)))

/-- What a report says about the pass it closes. -/
structure TrueReport (p : List Mark) (purged failed breached gced : ℕ) : Prop where
  batches : PurgesOver (purges p)
  /-- Erasures are reported only if they were performed in the pass. -/
  purged_le : purged ≤ (p.map (weigh erased)).sum
  /-- A loop that stopped with nothing failed has seen the outbox empty. -/
  emptied : failed = 0 → (purges p).length < maintenanceMaxPurgeBatches →
    ∃ l, PerformedIn p l ∧ l.cmd = .statement (.listPurgePendingArtifacts purgeBatch) ∧
      l.state.db.purgeQueue = []
  overdue : OverdueIn p breached
  /-- Units are reported only if they were collected in the pass. -/
  gced_le : gced ≤ (p.map (weigh collected)).sum

/-- What a label of the workflow presupposes, given those before it. -/
def Justified (pre : List Mark) : Mark → Prop
  | .action (.began t) => (∀ x ∈ pre, begins x = false) ∨
      ∃ t₀, .action (.slept t₀) ∈ thisPass pre ∧ t₀ + maintenanceInterval ≤ t
  | .action (.executed .purgeArtifacts) =>
      (purges (thisPass pre)).length < maintenanceMaxPurgeBatches ∧
        ∀ res ∈ purges (thisPass pre), clearedNothing res = false
  | .action (.executed .checkPurgeSLA) => PurgesOver (purges (thisPass pre))
  | .action (.executed .gcRemovedUnits) => PurgesOver (purges (thisPass pre)) ∧
      ∃ n, .action (.checked n) ∈ thisPass pre
  | .action (.logged purged failed breached gced) =>
      TrueReport (thisPass pre) purged failed breached gced
  | .action .failed => .action .cancelled ∈ pre ∨ ∃ act t, .ended act (act.failed t) ∈ thisPass pre
  | _ => True

/-- The activity a blocked workflow waits for. -/
def Control.awaits : Control → List Activity
  | .purge _ _ _ => [.purgeArtifacts]
  | .checkSLA _ _ => [.checkPurgeSLA]
  | .gc _ _ _ => [.gcRemovedUnits]
  | .start | .sleep _ | .failed => []

/-! ### What the activities did when they answer -/

section Logs

variable {ls : List (Performed World Choice Cmd)}

/-- A delete that was answered well took effect. -/
theorem log_deleteObject {key : String} {u : Unit}
    (h : Log service (deleteObject key) ls (.pure (.ok u))) : 1 ≤ (ls.map erased).sum := by
  unfold deleteObject at h
  cases hcut : cut key with
  | none =>
    rw [hcut] at h
    obtain ⟨-, heq⟩ := h.of_pure
    cases heq
  | some o =>
    rw [hcut] at h
    rcases h.of_call with ⟨-, heq⟩ | ⟨w, b, x, ls', rfl, hrest⟩
    · cases heq
    · have hreply : (service.perform x b w (.deleteObject o.1 o.2)).2 = x.reply b (.ok ()) := rfl
      rw [hreply] at hrest
      cases hok : x.reply b (.ok ()) with
      | error e =>
        rw [hok] at hrest
        cases hrest.of_pure.2
      | ok v =>
        have heffect := (of_reply_eq_ok hok).1
        simp [erased, tookEffect, heffect]

/-- The delete loop counts every row once, and an object only if its delete took effect. -/
theorem log_purgeRows {rows : List RawArtifact} {confirmed : List Uuid} {res : PurgeResult}
    {out : List Uuid × PurgeResult}
    (h : Log service (Activities.purgeRows confirmed res rows) ls (.pure out)) :
    out.2.deleted + out.2.failed + out.2.orphaned =
        res.deleted + res.failed + res.orphaned + rows.length ∧
      out.2.deleted ≤ res.deleted + (ls.map erased).sum := by
  induction rows generalizing confirmed res ls with
  | nil =>
    obtain ⟨rfl, heq⟩ := h.of_pure
    cases heq
    simp
  | cons r rs ih =>
    unfold Activities.purgeRows at h
    rw [List.length_cons]
    split at h
    · obtain ⟨hcount, hle⟩ := ih h
      dsimp only at hcount hle
      omega
    · obtain ⟨ls₁, ls₂, reply, rfl, hdel, hrest⟩ := h.returns_bind
      rw [List.map_append, List.sum_append]
      cases reply with
      | error e =>
        obtain ⟨hcount, hle⟩ := ih hrest
        dsimp only at hcount hle
        omega
      | ok u =>
        have hone := log_deleteObject hdel
        obtain ⟨hcount, hle⟩ := ih hrest
        dsimp only at hcount hle
        omega

/-- **A batch that was answered** accounts for what its listing found at the head of the outbox. -/
theorem log_purgeArtifacts {res : PurgeResult}
    (h : Log service (Activities.purgeArtifacts 0) ls (.pure (.ok res))) :
    (∃ l ∈ ls, l.cmd = .statement (.listPurgePendingArtifacts purgeBatch) ∧
        res.deleted + res.failed + res.orphaned =
          (l.state.db.purgeQueue.take purgeBatch).length) ∧
      res.deleted ≤ (ls.map erased).sum := by
  rcases h.of_call with ⟨-, heq⟩ | ⟨w, b, x, ls', rfl, hrest⟩
  · cases heq
  · cases hreply : (service.perform x b w
        (.statement (.listPurgePendingArtifacts purgeBatch))).2 with
    | error e => cases (hreply ▸ hrest).of_pure.2
    | ok rows =>
      have hrows : listPurgePendingArtifacts purgeBatch w.db = rows :=
        Except.ok.inj (of_reply_eq_ok hreply).2
      rw [listPurgePendingArtifacts_eq] at hrows
      have hrest : Log service ((Activities.purgeRows [] _ rows).bind _) ls'
        (.pure (Except.ok res)) := hreply ▸ hrest
      obtain ⟨ls₁, ls₂, ⟨confirmed, res'⟩, rfl, hloop, hend⟩ := hrest.returns_bind
      obtain ⟨hcount, hle⟩ := log_purgeRows hloop
      -- the tally is that of the loop, whether there was anything to confirm or not
      have hsame : res' = res := by
        dsimp only at hend
        split at hend
        · cases hend.of_pure.2
          rfl
        · rcases hend.of_call with ⟨-, heq⟩ | ⟨w', b', x', ls'', rfl, hlast⟩
          · cases heq
          · cases hconfirm : (service.perform x' b' w'
                (.statement (.confirmArtifactDeletes confirmed))).2 with
            | error e => cases (hconfirm ▸ hlast).of_pure.2
            | ok n =>
              cases (hconfirm ▸ hlast).of_pure.2
              rfl
      subst hsame
      dsimp only at hcount hle
      refine ⟨⟨_, List.mem_cons_self, rfl, ?_⟩, ?_⟩
      · rw [hrows]
        omega
      · rw [List.map_cons, List.sum_cons, List.map_append, List.sum_append]
        omega

/-- **An answer of the deadline check** is what it found overdue. -/
theorem log_checkPurgeSLA {ids : List Uuid}
    (h : Log service Activities.checkPurgeSLA ls (.pure (.ok ids))) :
    ∃ l₀ ∈ ls, ∃ l ∈ ls, l₀.cmd = .clock ∧ ids.length = min slaScanLimit
      (l.state.db.artifacts.rows.countP (overdue (performedAt l₀ - purgeSLA))) := by
  rcases h.of_call with ⟨-, heq⟩ | ⟨w, b, x, ls', rfl, hrest⟩
  · cases heq
  · obtain ⟨t, ht⟩ : ∃ t, (service.perform x b w .clock).2 = t := ⟨_, rfl⟩
    have htime : t = w.now + x.elapsed := ht.symm
    rw [ht] at hrest
    rcases hrest.of_call with ⟨-, heq⟩ | ⟨w', b', x', ls'', rfl, hlast⟩
    · cases heq
    · cases hreply : (service.perform x' b' w'
          (.statement (.listPurgePendingPastDeadline (t - purgeSLA) slaScanLimit))).2 with
      | error e => cases (hreply ▸ hlast).of_pure.2
      | ok rows =>
        have hrows : listPurgePendingPastDeadline (t - purgeSLA) slaScanLimit w'.db = rows :=
          Except.ok.inj (of_reply_eq_ok hreply).2
        cases (hreply ▸ hlast).of_pure.2
        refine ⟨⟨w, .clock, b, x⟩, List.mem_cons_self, _,
          List.mem_cons_of_mem _ List.mem_cons_self, rfl, ?_⟩
        rw [List.length_map, ← hrows, listPurgePendingPastDeadline, List.length_take,
          List.length_insertionSort, ← List.countP_eq_length_filter, htime]
        rfl

theorem log_gcConnections {cutoff : Time} {total n : ℕ} {ids : List Uuid}
    (h : Log service (Activities.gcConnections cutoff total ids) ls (.pure (.ok n))) :
    n ≤ total + (ls.map collected).sum := by
  induction ids generalizing total ls with
  | nil =>
    cases h.of_pure.2
    exact Nat.le_add_right _ _
  | cons id ids ih =>
    unfold Activities.gcConnections at h
    rcases h.of_call with ⟨-, heq⟩ | ⟨w, b, x, ls', rfl, hrest⟩
    · cases heq
    · cases hreply : (service.perform x b w (.statement (.gcRemovedUnits id cutoff))).2 with
      | error e => cases (hreply ▸ hrest).of_pure.2
      | ok m =>
        have hle := ih (hreply ▸ hrest)
        obtain ⟨heffect, hm⟩ := of_reply_eq_ok hreply
        have hone : collected ⟨w, .statement (.gcRemovedUnits id cutoff), b, x⟩ = m := by
          simp only [collected, tookEffect, heffect, if_true]
          exact Except.ok.inj hm
        rw [List.map_cons, List.sum_cons, hone]
        omega

/-- **An answer of the collection** is no more than its statements collected. -/
theorem log_gcRemovedUnits {n : ℕ}
    (h : Log service Activities.gcRemovedUnits ls (.pure (.ok n))) :
    n ≤ (ls.map collected).sum := by
  rcases h.of_call with ⟨-, heq⟩ | ⟨w, b, x, ls', rfl, hrest⟩
  · cases heq
  · obtain ⟨t, ht⟩ : ∃ t, (service.perform x b w .clock).2 = t := ⟨_, rfl⟩
    rw [ht] at hrest
    rcases hrest.of_call with ⟨-, heq⟩ | ⟨w', b', x', ls'', rfl, hlast⟩
    · cases heq
    · cases hreply : (service.perform x' b' w'
          (.statement (.listConnectionsWithRemovedUnits (t - purgeGrace)))).2 with
      | error e => cases (hreply ▸ hlast).of_pure.2
      | ok ids =>
        have hle := log_gcConnections (hreply ▸ hlast)
        simp only [List.map_cons, List.sum_cons]
        omega

end Logs

/-! ### Steps of the workflow -/

section Steps

variable {s s' : State} {e : Event} {as : List Action}

/-- The result of an activity that failed. -/
def Event.error? : Event → Option (Activity × ErrType)
  | .purgeDone (.error t) => some (.purgeArtifacts, t)
  | .slaDone (.error t) => some (.checkPurgeSLA, t)
  | .gcDone (.error t) => some (.gcRemovedUnits, t)
  | _ => none

/-- One step of the workflow, by cases. -/
inductive Transition (s : State) : Event → State → List Action → Prop
  | tick (d : Time) : Transition s (.tick d) { s with now := s.now + d } []
  | begin : s.control = .start → Transition s .begin (beginPass s).1 (beginPass s).2
  | again (i deleted failed : ℕ) (res : PurgeResult) : s.control = .purge i deleted failed →
      clearedNothing res = false → i + 1 < maintenanceMaxPurgeBatches →
      Transition s (.purgeDone (.ok res))
        { s with control := .purge (i + 1) (deleted + res.deleted) (failed + res.failed) }
        [.purged res, .executed .purgeArtifacts]
  | loopOver (i deleted failed : ℕ) (res : PurgeResult) : s.control = .purge i deleted failed →
      clearedNothing res = true ∨ maintenanceMaxPurgeBatches ≤ i + 1 →
      Transition s (.purgeDone (.ok res))
        { s with control := .checkSLA (deleted + res.deleted) (failed + res.failed) }
        [.purged res, .executed .checkPurgeSLA]
  | checked (deleted failed breached : ℕ) : s.control = .checkSLA deleted failed →
      Transition s (.slaDone (.ok breached)) { s with control := .gc deleted failed breached }
        [.checked breached, .executed .gcRemovedUnits]
  | collected (deleted failed breached n : ℕ) : s.control = .gc deleted failed breached →
      Transition s (.gcDone (.ok n))
        { s with control := .sleep (s.now + maintenanceInterval) }
        [.collected n, .logged deleted failed breached n, .slept s.now]
  | woke (due : Time) : s.control = .sleep due → due ≤ s.now →
      Transition s .timerFired (beginPass s).1 (.continuedAsNew :: (beginPass s).2)
  | cancelled : Transition s .cancelled (fail s).1 [.cancelled, .failed]
  | failed (e : Event) (act : Activity) (t : ErrType) : e.error? = some (act, t) →
      s.control.awaits = [act] → Transition s e (fail s).1 [.failed]

/-- **Every step is a transition.** -/
theorem step_transition (h : maintenanceWorkflow.step s e = some (s', as)) :
    Transition s e s' as := by
  cases e with
  | tick d =>
    cases h
    exact .tick d
  | begin =>
    simp only [maintenanceWorkflow, step] at h
    split at h
    · rename_i hc
      cases h
      exact .begin hc
    · cases h
  | purgeDone r =>
    simp only [maintenanceWorkflow, step] at h
    split at h
    · rename_i i deleted failed res hc
      unfold afterBatch at h
      split at h
      · rename_i hover
        cases h
        exact .loopOver i deleted failed res hc hover
      · rename_i hgo
        cases h
        rw [not_or] at hgo
        exact .again i deleted failed res hc (Bool.eq_false_iff.mpr hgo.1) (Nat.lt_of_not_le hgo.2)
    · rename_i hc
      cases h
      exact .failed _ .purgeArtifacts _ rfl (by rw [hc]; rfl)
    · cases h
  | slaDone r =>
    simp only [maintenanceWorkflow, step] at h
    split at h
    · rename_i deleted failed breached hc
      cases h
      exact .checked deleted failed breached hc
    · rename_i hc
      cases h
      exact .failed _ .checkPurgeSLA _ rfl (by rw [hc]; rfl)
    · cases h
  | gcDone r =>
    simp only [maintenanceWorkflow, step] at h
    split at h
    · rename_i deleted failed breached n hc
      cases h
      exact .collected deleted failed breached n hc
    · rename_i hc
      cases h
      exact .failed _ .gcRemovedUnits _ rfl (by rw [hc]; rfl)
    · cases h
  | timerFired =>
    simp only [maintenanceWorkflow, step] at h
    split at h
    · rename_i due hc
      split at h
      · rename_i hdue
        cases h
        exact .woke due hc hdue
      · cases h
    · cases h
  | cancelled =>
    simp only [maintenanceWorkflow, step] at h
    split at h
    · cases h
    · cases h
    · cases h
      exact .cancelled

end Steps

/-! ### The labels of a pass -/

section Labels

variable {tr p p' as : List Mark}

/-- A label that is no action of the workflow. -/
def quiet : Mark → Bool
  | .action _ => false
  | _ => true

theorem begins_of_quiet {x : Mark} (h : quiet x = true) : begins x = false := by
  cases x with
  | action a => cases h
  | _ => rfl

theorem thisPass_append (h : ∀ x ∈ as, begins x = false) :
    thisPass (tr ++ as) = thisPass tr ++ as := lastPass_append h

theorem purges_append (p p' : List Mark) : purges (p ++ p') = purges p ++ purges p' :=
  List.filterMap_append

theorem purges_quiet (h : ∀ x ∈ as, quiet x = true) : purges (p ++ as) = purges p := by
  have hnone : purges as = [] := by
    refine List.filterMap_eq_nil_iff.mpr fun x hx => ?_
    have hx := h x hx
    cases x with
    | action a => cases hx
    | _ => rfl
  rw [purges_append, hnone, List.append_nil]

/-- Actions that answer no batch leave the batches alone. -/
theorem purges_others (p : List Mark) (acts : List Action)
    (h : ∀ act ∈ acts, purgeResult (.action act) = none) :
    purges (p ++ acts.map .action) = purges p := by
  have hnone : purges (acts.map .action) = [] := by
    refine List.filterMap_eq_nil_iff.mpr fun x hx => ?_
    obtain ⟨act, hact, rfl⟩ := List.mem_map.mp hx
    exact h act hact
  rw [purges_append, hnone, List.append_nil]

/-- A batch that is answered joins the others. -/
theorem purges_purged (p : List Mark) (res : PurgeResult) (acts : List Action)
    (h : ∀ act ∈ acts, purgeResult (.action act) = none) :
    purges (p ++ (.purged res :: acts).map .action) = purges p ++ [res] := by
  have hsplit : (p ++ (.purged res :: acts).map .action : List Mark) =
      (p ++ [.action (.purged res)]) ++ acts.map .action := by simp
  rw [hsplit, purges_others _ acts h, purges_append]
  rfl

/-- Labels that are no actions are justified. -/
theorem justified_of_quiet {x : Mark} (h : quiet x = true) (pre : List Mark) :
    Justified pre x := by
  cases x with
  | action a => cases h
  | _ => trivial

theorem PerformedIn.append {l : Performed World Choice Cmd} (h : PerformedIn p l) :
    PerformedIn (p ++ p') l := by
  obtain ⟨i, hi⟩ := h
  exact ⟨i, List.mem_append_left _ hi⟩

/-- What an execution performed was performed. -/
theorem performedIn_of_prefix {i : ℕ} {ls : List (Performed World Choice Cmd)}
    (h : ls <+: performedBy i p) : ∀ l ∈ ls, PerformedIn p l := by
  intro l hl
  obtain ⟨x, hx, hl⟩ := List.mem_filterMap.mp (h.subset hl)
  cases x with
  | performed j l' =>
    simp only [Label.byExecution] at hl
    split at hl
    · cases hl
      exact ⟨j, hx⟩
    · cases hl
  | _ => cases hl

/-- What an execution performed weighs no more than the labels. -/
theorem sum_le_weigh (f : Performed World Choice Cmd → ℕ) {i : ℕ}
    {ls : List (Performed World Choice Cmd)} (h : ls <+: performedBy i p) :
    (ls.map f).sum ≤ (p.map (weigh f)).sum := by
  have hall := sum_performedBy_le (List.nodup_singleton i) f p
  obtain ⟨rest, hrest⟩ := h
  rw [List.map_singleton, List.sum_singleton, ← hrest, List.map_append, List.sum_append] at hall
  omega

end Labels

/-! ### The invariant -/

/-- The totals are those of the batches. -/
structure Totals (p : List Mark) (deleted failed : ℕ) : Prop where
  deleted_eq : deleted = ((purges p).map PurgeResult.deleted).sum
  failed_eq : failed = ((purges p).map PurgeResult.failed).sum

/-- What the workflow knows about its pass, by where it is blocked. -/
def Control.Told (p : List Mark) : Control → Prop
  | .start | .failed => True
  | .purge i totalDeleted totalFailed => Totals p totalDeleted totalFailed ∧
      (purges p).length = i ∧ i < maintenanceMaxPurgeBatches ∧
      ∀ res ∈ purges p, clearedNothing res = false
  | .checkSLA totalDeleted totalFailed => Totals p totalDeleted totalFailed ∧ PurgesOver (purges p)
  | .gc totalDeleted totalFailed breached => Totals p totalDeleted totalFailed ∧
      PurgesOver (purges p) ∧ OverdueIn p breached
  | .sleep due => ∃ t, .action (.slept t) ∈ p ∧ t + maintenanceInterval ≤ due

/-- Each batch was answered by an execution of its own, which no task is waiting for. -/
def Batches (s : Running) (p : List Mark) : Prop :=
  ∃ is : List ℕ, is.Nodup ∧
    (∀ i ∈ is, i < s.executions.length ∧ ∀ task ∈ s.tasks, i ≠ task.execution) ∧
    List.Forall₂ (fun i res =>
      Answered maintenanceOver service p i .purgeArtifacts (.purgeDone (.ok res))) is (purges p)

/-- The invariant. -/
structure Kept (s : Running) (tr : List Mark) : Prop where
  justified : AtEvery Justified tr
  traced : ∃ old, tr = old ++ thisPass tr ∧
    TracedSince maintenanceOver service s old (thisPass tr)
  first : s.workflow.control = .start → ∀ x ∈ tr, begins x = false
  attended : s.workflow.control ≠ .failed → s.tasks.map Task.act = s.workflow.control.awaits
  told : s.workflow.control.Told (thisPass tr)
  batches : Batches s (thisPass tr)

section Reports

variable {p p' : List Mark} {s s' : Running} {deleted failed : ℕ}

theorem OverdueIn.append {n : ℕ} (h : OverdueIn p n) : OverdueIn (p ++ p') n := by
  obtain ⟨l₀, l, h₀, hclock, hl, heq⟩ := h
  exact ⟨l₀, l, h₀.append, hclock, hl.append, heq⟩

theorem Totals.of_purges (h : Totals p deleted failed) (heq : purges p' = purges p) :
    Totals p' deleted failed where
  deleted_eq := by rw [heq]; exact h.deleted_eq
  failed_eq := by rw [heq]; exact h.failed_eq

theorem Totals.snoc (h : Totals p deleted failed) {res : PurgeResult}
    (heq : purges p' = purges p ++ [res]) :
    Totals p' (deleted + res.deleted) (failed + res.failed) where
  deleted_eq := by rw [heq, h.deleted_eq]; simp
  failed_eq := by rw [heq, h.failed_eq]; simp

/-- What the workflow knows stays so as the pass goes on. -/
theorem Control.Told.quiet {c : Control} (h : c.Told p) (hq : ∀ x ∈ p', quiet x = true) :
    c.Told (p ++ p') := by
  have heq := purges_quiet (p := p) hq
  cases c with
  | start => trivial
  | failed => trivial
  | purge i deleted failed =>
    obtain ⟨htotals, hrest⟩ := h
    refine ⟨htotals.of_purges heq, ?_⟩
    rw [heq]
    exact hrest
  | checkSLA deleted failed =>
    obtain ⟨htotals, hover⟩ := h
    exact ⟨htotals.of_purges heq, heq ▸ hover⟩
  | gc deleted failed breached =>
    obtain ⟨htotals, hover, hdue⟩ := h
    exact ⟨htotals.of_purges heq, heq ▸ hover, hdue.append⟩
  | sleep due =>
    obtain ⟨t, ht, hdue⟩ := h
    exact ⟨t, List.mem_append_left _ ht, hdue⟩

/-- The batches stay answered while the tasks keep their executions or get new ones. -/
theorem Batches.mono (h : Batches s p) (heq : purges (p ++ p') = purges p)
    (hlen : s.executions.length ≤ s'.executions.length)
    (htasks : ∀ task' ∈ s'.tasks, (∃ task ∈ s.tasks, task.execution = task'.execution) ∨
      s.executions.length ≤ task'.execution) : Batches s' (p ++ p') := by
  obtain ⟨is, hnodup, hapart, hall⟩ := h
  refine ⟨is, hnodup, fun i hi => ?_, ?_⟩
  · obtain ⟨hlt, hne⟩ := hapart i hi
    refine ⟨Nat.lt_of_lt_of_le hlt hlen, fun task' htask' => ?_⟩
    rcases htasks task' htask' with ⟨task, htask, heq⟩ | hnew
    · rw [← heq]
      exact hne task htask
    · omega
  · rw [heq]
    exact hall.imp fun i res hres => hres.append _

/-- The batches erased no more than the deletes of the pass. -/
theorem Batches.sum_deleted_le (h : Batches s p) :
    ((purges p).map PurgeResult.deleted).sum ≤ (p.map (weigh erased)).sum := by
  obtain ⟨is, hnodup, -, hall⟩ := h
  refine Nat.le_trans ?_ (sum_performedBy_le hnodup erased p)
  generalize purges p = results at hall
  induction hall with
  | nil => exact Nat.le_refl _
  | cons hres _ ih =>
    have hrest := ih (List.nodup_cons.mp hnodup).2
    obtain ⟨ls, ⟨rest, hls⟩, hlog⟩ := hres
    obtain ⟨r, hr, hlog⟩ := hlog.map_returns
    cases r with
    | error e => cases hr
    | ok res =>
      cases hr
      obtain ⟨-, hone⟩ := log_purgeArtifacts hlog
      rw [List.map_cons, List.map_cons, List.sum_cons, List.sum_cons, ← hls, List.map_append,
        List.sum_append]
      omega

/-- A batch that cleared nothing and failed nothing has found the outbox empty. -/
theorem Batches.emptied (h : Batches s p) {res : PurgeResult} (hres : res ∈ purges p)
    (hnothing : clearedNothing res = true) (hfailed : res.failed = 0) :
    ∃ l, PerformedIn p l ∧ l.cmd = .statement (.listPurgePendingArtifacts purgeBatch) ∧
      l.state.db.purgeQueue = [] := by
  obtain ⟨is, -, -, hall⟩ := h
  obtain ⟨i, hanswered⟩ : ∃ i, Answered maintenanceOver service p i .purgeArtifacts
      (.purgeDone (.ok res)) := by
    generalize purges p = results at hall hres
    induction hall with
    | nil => cases hres
    | cons hone _ ih =>
      rcases List.mem_cons.mp hres with rfl | hres
      · exact ⟨_, hone⟩
      · exact ih hres
  obtain ⟨ls, hls, hlog⟩ := hanswered
  obtain ⟨r, hr, hlog⟩ := hlog.map_returns
  cases r with
  | error e => cases hr
  | ok res' =>
    cases hr
    obtain ⟨⟨l, hl, hcmd, hcount⟩, -⟩ := log_purgeArtifacts hlog
    refine ⟨l, performedIn_of_prefix hls l hl, hcmd, ?_⟩
    have hzero : (l.state.db.purgeQueue.take purgeBatch).length = 0 := by
      have hboth := of_decide_eq_true hnothing
      omega
    rw [List.length_take] at hzero
    refine List.eq_nil_of_length_eq_zero ?_
    have hpos : 0 < purgeBatch := by decide
    omega

/-- **A report is true.** -/
theorem trueReport (hbatches : Batches s p) (htotals : Totals p deleted failed)
    (hover : PurgesOver (purges p)) {breached n : ℕ} (hdue : OverdueIn p breached)
    (hn : n ≤ (p.map (weigh collected)).sum) : TrueReport p deleted failed breached n where
  batches := hover
  purged_le := by
    rw [htotals.deleted_eq]
    exact hbatches.sum_deleted_le
  emptied hzero hlt := by
    obtain ⟨res, hlast, hnothing⟩ := hover.2 hlt
    have hmem := List.mem_of_getLast? hlast
    refine hbatches.emptied hmem hnothing ?_
    have hsum := htotals.failed_eq.symm.trans hzero
    exact List.sum_eq_zero_iff_forall_eq_nat.mp hsum _ (List.mem_map_of_mem hmem)
  overdue := hdue
  gced_le := hn

end Reports

/-! ### Every move keeps the invariant -/

section Moves

variable {a : Activities} {sv : Server} {s s' : Running} {tr as : List Mark} {e : Happening}

/-- The result of an activity is no free event. -/
theorem free_of_log {act : Activity} {ls : List (Performed World Choice Cmd)} {ev : Event}
    (h : Log service act.prog ls (.pure ev)) : ev.free = false := by
  cases act <;> (obtain ⟨r, rfl, -⟩ := h.map_returns; rfl)

theorem kept_fresh (t : Time) (w : World) : Kept (.fresh t w) [] where
  justified := atEvery_nil
  traced := ⟨[], rfl, tracedSince_nil (traced_start _ _) rfl⟩
  first _ := by simp
  attended _ := rfl
  told := trivial
  batches := ⟨[], List.nodup_nil, by simp, .nil⟩

/-- A move that does not resume the workflow. -/
theorem Kept.idle (h : Kept s tr)
    (hm : Moves maintenanceOver service (Job.prog a sv) s e s' as)
    (hcontrol : s'.workflow.control = s.workflow.control)
    (hacts : s'.tasks.map Task.act = s.tasks.map Task.act) (hq : ∀ x ∈ as, quiet x = true)
    (hlen : s.executions.length ≤ s'.executions.length)
    (htasks : ∀ task' ∈ s'.tasks, (∃ task ∈ s.tasks, task.execution = task'.execution) ∨
      s.executions.length ≤ task'.execution) : Kept s' (tr ++ as) := by
  have hpass : thisPass (tr ++ as) = thisPass tr ++ as :=
    thisPass_append fun x hx => begins_of_quiet (hq x hx)
  obtain ⟨old, htr, hsince⟩ := h.traced
  refine ⟨?_, ⟨old, ?_, ?_⟩, fun hstart x hx => ?_, ?_, ?_, ?_⟩
  · exact atEvery_append.mpr ⟨h.justified, atEvery_of_forall fun x hx pre =>
      justified_of_quiet (hq x hx) _⟩
  · rw [hpass, ← List.append_assoc, ← htr]
  · rw [hpass]
    exact hsince.move hm
  · rw [hcontrol] at hstart
    rcases List.mem_append.mp hx with hold | hnew
    · exact h.first hstart x hold
    · exact begins_of_quiet (hq x hnew)
  · rw [hcontrol, hacts]
    exact h.attended
  · rw [hcontrol, hpass]
    exact h.told.quiet hq
  · rw [hpass]
    exact h.batches.mono (purges_quiet hq) hlen htasks

/-- A pass begins when no task is left. -/
theorem Kept.begin (h : Kept s tr) (hnone : s.workflow.control.awaits = [])
    (hlive : s.workflow.control ≠ .failed) (pre : List Action)
    (hpre : ∀ x ∈ pre, x = .continuedAsNew)
    (hbegan : Justified (tr ++ pre.map .action) (.action (.began s.workflow.now)))
    (hm : Moves maintenanceOver service (Job.prog a sv) s e
      (maintenanceOver.goOn s ((beginPass s.workflow).1, pre ++ (beginPass s.workflow).2))
      ((pre ++ (beginPass s.workflow).2).map .action)) :
    Kept (maintenanceOver.goOn s ((beginPass s.workflow).1, pre ++ (beginPass s.workflow).2))
      (tr ++ (pre ++ (beginPass s.workflow).2).map .action) := by
  have htasks : s.tasks = [] := by
    have hacts := h.attended hlive
    rw [hnone] at hacts
    exact List.map_eq_nil_iff.mp hacts
  have hsplit : (tr ++ (pre ++ (beginPass s.workflow).2).map .action : List Mark) =
      (tr ++ pre.map .action) ++ .action (.began s.workflow.now) ::
        [.action (.executed .purgeArtifacts)] := by
    simp [beginPass]
  have hpass : thisPass (tr ++ (pre ++ (beginPass s.workflow).2).map .action) =
      [.action (.executed .purgeArtifacts)] := by
    rw [hsplit]
    exact lastPass_begin rfl (by simp [begins])
  obtain ⟨old, htr, hsince⟩ := h.traced
  have htraced : Traced maintenanceOver service s tr := by
    have hall := hsince.traced
    rwa [← htr] at hall
  have hmove := (tracedSince_nil htraced htasks).move hm
  refine ⟨?_, ⟨tr ++ (pre.map .action ++ [.action (.began s.workflow.now)]), ?_, ?_⟩,
    fun hstart => ?_, fun _ => ?_, ?_, ?_⟩
  · rw [hsplit]
    refine atEvery_append.mpr ⟨atEvery_append.mpr ⟨h.justified, ?_⟩, ?_⟩
    · refine atEvery_of_forall fun x hx p => ?_
      obtain ⟨act, hact, rfl⟩ := List.mem_map.mp hx
      rw [hpre act hact]
      trivial
    · refine atEvery_cons.mpr ⟨by rw [List.append_nil]; exact hbegan, ?_⟩
      refine atEvery_cons.mpr ⟨?_, atEvery_nil⟩
      have hempty : thisPass (tr ++ pre.map .action ++ [.action (.began s.workflow.now)]) = [] :=
        lastPass_begin rfl (by simp)
      show Justified (tr ++ pre.map .action ++ [.action (.began s.workflow.now)]) _
      unfold Justified
      rw [hempty]
      exact ⟨by decide, by simp [purges]⟩
  · rw [hpass, hsplit]
    simp
  · rw [hpass]
    refine TracedSince.shift ?_ ?_ ?_
    · simpa [beginPass] using hmove
    · simp
    · simp
  · rw [goOn_workflow] at hstart
    cases hstart
  · have hquiet : pre.filterMap scheduled = [] := by
      refine List.filterMap_eq_nil_iff.mpr fun x hx => ?_
      rw [hpre x hx]
      rfl
    rw [goOn_tasks, goOn_workflow, htasks]
    show [] ++ (pre ++ (beginPass s.workflow).2).filterMap scheduled = _
    rw [List.filterMap_append, hquiet]
    rfl
  · rw [hpass, goOn_workflow]
    exact ⟨⟨rfl, rfl⟩, rfl, by decide, by simp [purges, purgeResult]⟩
  · rw [hpass]
    exact ⟨[], List.nodup_nil, by simp, .nil⟩

/-- A step of the workflow within a pass. -/
theorem Kept.goOn (h : Kept s tr) {s₀ : Running} {q : State} {acts : List Action} {rest : List Mark}
    (hm : Moves maintenanceOver service (Job.prog a sv) s e (maintenanceOver.goOn s₀ (q, acts))
      (acts.map .action ++ rest))
    (hrest : ∀ x ∈ rest, quiet x = true) (hbegin : ∀ t, .began t ∉ acts)
    (hstart : q.control ≠ .start)
    (hacts : q.control ≠ .failed →
      s₀.tasks.map Task.act ++ acts.filterMap scheduled = q.control.awaits)
    (htold : q.control.Told (thisPass tr ++ acts.map .action))
    (hbatches : Batches (maintenanceOver.goOn s₀ (q, acts)) (thisPass tr ++ acts.map .action))
    (hjust : AtEvery (fun pre x => Justified (tr ++ pre) x) (acts.map .action)) :
    Kept (maintenanceOver.goOn s₀ (q, acts)) (tr ++ (acts.map .action ++ rest)) := by
  have hpass : thisPass (tr ++ (acts.map .action ++ rest)) =
      thisPass tr ++ acts.map .action ++ rest := by
    rw [List.append_assoc]
    refine thisPass_append fun x hx => ?_
    rcases List.mem_append.mp hx with hmem | hquiet
    · obtain ⟨act, hact, rfl⟩ := List.mem_map.mp hmem
      cases act with
      | began t => exact absurd hact (hbegin t)
      | _ => rfl
    · exact begins_of_quiet (hrest x hquiet)
  obtain ⟨old, htr, hsince⟩ := h.traced
  refine ⟨?_, ⟨old, ?_, ?_⟩, fun hq => ?_, fun hlive => ?_, ?_, ?_⟩
  · refine atEvery_append.mpr ⟨h.justified, atEvery_append.mpr ⟨hjust, ?_⟩⟩
    exact atEvery_of_forall fun x hx pre => justified_of_quiet (hrest x hx) _
  · rw [hpass, List.append_assoc, ← List.append_assoc old, ← htr]
  · rw [hpass, List.append_assoc]
    exact hsince.move hm
  · rw [goOn_workflow] at hq
    exact absurd hq hstart
  · rw [goOn_workflow] at hlive ⊢
    rw [goOn_tasks]
    exact hacts hlive
  · rw [hpass, goOn_workflow]
    exact htold.quiet hrest
  · rw [hpass]
    exact hbatches.mono (purges_quiet hrest) (Nat.le_refl _)
      fun task' htask' => .inl ⟨task', htask', rfl⟩

/-- The task the workflow waits for is the only one. -/
theorem Kept.single (h : Kept s tr) {act : Activity} (hawaits : s.workflow.control.awaits = [act])
    {k : ℕ} {task : Task Activity Event} (hk : s.tasks[k]? = some task) :
    task.act = act ∧ s.tasks.eraseIdx k = [] := by
  have hlive : s.workflow.control ≠ .failed := by
    intro hfailed
    rw [hfailed] at hawaits
    cases hawaits
  have hacts := h.attended hlive
  rw [hawaits] at hacts
  obtain ⟨task', heq, hact⟩ := List.map_eq_singleton_iff.mp hacts
  rw [heq] at hk ⊢
  cases k with
  | zero =>
    cases hk
    exact ⟨hact, rfl⟩
  | succ k => simp at hk

/-- What the executions of the pass have done is left alone by new tasks. -/
theorem Kept.batches_goOn (h : Kept s tr) {s₀ : Running} {q : State} {acts : List Action}
    (hsub : ∀ task ∈ s₀.tasks, task ∈ s.tasks) (hex : s₀.executions = s.executions)
    (heq : purges (thisPass tr ++ acts.map .action) = purges (thisPass tr)) :
    Batches (maintenanceOver.goOn s₀ (q, acts)) (thisPass tr ++ acts.map .action) := by
  refine h.batches.mono heq ?_ fun task' htask' => ?_
  · rw [← hex]
    exact length_executions_goOn s₀ _
  · rcases mem_goOn_tasks htask' with hold | ⟨-, hnew⟩
    · exact .inl ⟨task', hsub task' hold, rfl⟩
    · exact .inr (hex ▸ hnew)

/-- A batch that was answered joins the others. -/
theorem Kept.batches_snoc (h : Kept s tr) {s₀ : Running} {q : State} {acts : List Action}
    {task : Task Activity Event} {res : PurgeResult} (htask : task ∈ s.tasks)
    (hnone : s₀.tasks = []) (hex : s₀.executions = s.executions)
    (hanswered : Answered maintenanceOver service (thisPass tr) task.execution .purgeArtifacts
      (.purgeDone (.ok res)))
    (heq : purges (thisPass tr ++ acts.map .action) = purges (thisPass tr) ++ [res]) :
    Batches (maintenanceOver.goOn s₀ (q, acts)) (thisPass tr ++ acts.map .action) := by
  obtain ⟨is, hnodup, hapart, hall⟩ := h.batches
  obtain ⟨old, -, hsince⟩ := h.traced
  have hlt : ∀ i ∈ is ++ [task.execution], i < s.executions.length := by
    intro i hi
    rcases List.mem_append.mp hi with hi | hi
    · exact (hapart i hi).1
    · rw [List.mem_singleton.mp hi]
      obtain ⟨th, hth, -⟩ := hsince.traced.task task htask
      exact (List.getElem?_eq_some_iff.mp hth).1
  refine ⟨is ++ [task.execution], ?_, fun i hi => ⟨?_, fun task' htask' => ?_⟩, ?_⟩
  · refine List.nodup_append.mpr ⟨hnodup, List.nodup_singleton _, fun i hi j hj => ?_⟩
    rw [List.mem_singleton.mp hj]
    exact (hapart i hi).2 task htask
  · have hlen := length_executions_goOn (O := maintenanceOver) s₀ (q, acts)
    rw [hex] at hlen
    exact Nat.lt_of_lt_of_le (hlt i hi) hlen
  · rcases mem_goOn_tasks htask' with hold | ⟨-, hnew⟩
    · rw [hnone] at hold
      cases hold
    · have hi := hlt i hi
      rw [hex] at hnew
      omega
  · rw [heq]
    exact List.rel_append (hall.imp fun i res hres => hres.append _)
      (.cons (hanswered.append _) .nil)

/-- The result that resumes the workflow is the timeout of an activity, or was returned by it. -/
theorem Kept.not_free (h : Kept s tr) {task : Task Activity Event} {ev : Event}
    (htask : task ∈ s.tasks) (hres : task.result = some ev) : ev.free = false := by
  obtain ⟨old, -, hsince⟩ := h.traced
  rcases hsince.answered htask hres with rfl | ⟨ls, -, hlog⟩
  · cases task.act <;> rfl
  · exact free_of_log hlog

/-- The batch that the last label answers is the last of the pass. -/
theorem purges_thisPass_purged (tr : List Mark) (res : PurgeResult) :
    purges (thisPass (tr ++ [.action (.purged res)])) = purges (thisPass tr) ++ [res] := by
  rw [thisPass_append (by simp [begins])]
  exact purges_purged _ res [] (by simp)

/-- A loop that ends with a batch has ended for one of its two reasons. -/
theorem purgesOver_snoc {rs : List PurgeResult} {res : PurgeResult}
    (hlt : rs.length < maintenanceMaxPurgeBatches)
    (hover : clearedNothing res = true ∨ maintenanceMaxPurgeBatches ≤ rs.length + 1) :
    PurgesOver (rs ++ [res]) := by
  unfold PurgesOver
  rw [List.length_append, List.length_singleton]
  refine ⟨hlt, fun hfew => ⟨res, List.getLast?_concat, ?_⟩⟩
  exact hover.resolve_right (by omega)

/-- The check of the window answers what was overdue at a moment of the pass. -/
theorem overdueIn_of_answered {p : List Mark} {i breached : ℕ}
    (h : Answered maintenanceOver service p i .checkPurgeSLA (.slaDone (.ok breached))) :
    OverdueIn p breached := by
  obtain ⟨ls, hls, hlog⟩ := h
  obtain ⟨res, hres, hreturns⟩ := hlog.map_returns
  cases res with
  | error t => cases hres
  | ok ids =>
    cases hres
    obtain ⟨l₀, h₀, l, hl, hclock, hcount⟩ := log_checkPurgeSLA hreturns
    exact ⟨l₀, l, performedIn_of_prefix hls l₀ h₀, hclock, performedIn_of_prefix hls l hl, hcount⟩

/-- The collection answers no more than was collected in the pass. -/
theorem le_collected_of_answered {p : List Mark} {i n : ℕ}
    (h : Answered maintenanceOver service p i .gcRemovedUnits (.gcDone (.ok n))) :
    n ≤ (p.map (weigh collected)).sum := by
  obtain ⟨ls, hls, hlog⟩ := h
  obtain ⟨res, hres, hreturns⟩ := hlog.map_returns
  cases res with
  | error t => cases hres
  | ok m =>
    cases hres
    exact Nat.le_trans (log_gcRemovedUnits hreturns) (sum_le_weigh collected hls)

/-- A result that is no error was returned by an execution of the pass. -/
theorem Kept.answered (h : Kept s tr) {task : Task Activity Event} {ev : Event}
    (htask : task ∈ s.tasks) (hres : task.result = some ev) (hok : ev.error? = none) :
    Answered maintenanceOver service (thisPass tr) task.execution task.act ev := by
  obtain ⟨old, -, hsince⟩ := h.traced
  rcases hsince.answered htask hres with rfl | hanswered
  · cases hact : task.act <;> (rw [hact] at hok; cases hok)
  · exact hanswered

/-- **A result that resumes the workflow** keeps the invariant. -/
theorem Kept.deliver (h : Kept s tr) {k : ℕ} {task : Task Activity Event} {ev : Event}
    {r : State × List Action} (hk : s.tasks[k]? = some task) (hres : task.result = some ev)
    (hstep : maintenanceWorkflow.step s.workflow ev = some r)
    (hm : Moves maintenanceOver service (Job.prog a sv) s e
      (maintenanceOver.goOn { s with tasks := s.tasks.eraseIdx k } r)
      (r.2.map .action ++ [.resumed r.1])) :
    Kept (maintenanceOver.goOn { s with tasks := s.tasks.eraseIdx k } r)
      (tr ++ (r.2.map .action ++ [.resumed r.1])) := by
  have htask := List.mem_of_getElem? hk
  have hnot := h.not_free htask hres
  have htold := h.told
  have hquiet : ∀ x ∈ [(.resumed r.1 : Mark)], quiet x = true := by simp [quiet]
  have herase : ∀ task ∈ s.tasks.eraseIdx k, task ∈ s.tasks :=
    fun task ht => List.mem_of_mem_eraseIdx ht
  -- what is known about the last label of the pass
  have hpass : ∀ x : Mark, begins x = false → thisPass (tr ++ [x]) = thisPass tr ++ [x] :=
    fun x hx => thisPass_append (by simpa using hx)
  obtain ⟨q, acts⟩ := r
  cases step_transition hstep with
  | tick d => cases hnot
  | begin hc => cases hnot
  | woke due hc hdue => cases hnot
  | cancelled => cases hnot
  | again i deleted failed res hc hgo hlt =>
    obtain ⟨hact, hnone⟩ := h.single (by rw [hc]; rfl) hk
    have hanswered := hact ▸ h.answered htask hres rfl
    rw [hc] at htold
    obtain ⟨htotals, hlen, hmax, hcleared⟩ := htold
    have heq := purges_purged (thisPass tr) res [.executed .purgeArtifacts]
      (by simp [purgeResult])
    have hall : ∀ res' ∈ purges (thisPass tr) ++ [res], clearedNothing res' = false := by
      intro res' hres'
      rcases List.mem_append.mp hres' with hold | hnew
      · exact hcleared res' hold
      · rw [List.mem_singleton.mp hnew]
        exact hgo
    refine h.goOn hm hquiet (by simp) nofun (fun _ => ?_) ?_
      (h.batches_snoc htask hnone rfl hanswered heq) ?_
    · rw [hnone]
      rfl
    · refine ⟨htotals.snoc heq, ?_, hlt, ?_⟩
      · rw [heq, List.length_append, hlen]
        rfl
      · rw [heq]
        exact hall
    · refine atEvery_cons.mpr ⟨trivial, atEvery_cons.mpr ⟨?_, atEvery_nil⟩⟩
      show _ < _ ∧ _
      rw [purges_thisPass_purged, List.length_append, hlen]
      exact ⟨hlt, hall⟩
  | loopOver i deleted failed res hc hover =>
    obtain ⟨hact, hnone⟩ := h.single (by rw [hc]; rfl) hk
    have hanswered := hact ▸ h.answered htask hres rfl
    rw [hc] at htold
    obtain ⟨htotals, hlen, hmax, hcleared⟩ := htold
    have heq := purges_purged (thisPass tr) res [.executed .checkPurgeSLA]
      (by simp [purgeResult])
    have hdone : PurgesOver (purges (thisPass tr) ++ [res]) := by
      rw [← hlen] at hmax hover
      exact purgesOver_snoc hmax hover
    refine h.goOn hm hquiet (by simp) nofun (fun _ => ?_) ⟨htotals.snoc heq, ?_⟩
      (h.batches_snoc htask hnone rfl hanswered heq) ?_
    · rw [hnone]
      rfl
    · rw [heq]
      exact hdone
    · refine atEvery_cons.mpr ⟨trivial, atEvery_cons.mpr ⟨?_, atEvery_nil⟩⟩
      show PurgesOver _
      rw [purges_thisPass_purged]
      exact hdone
  | checked deleted failed breached hc =>
    obtain ⟨hact, hnone⟩ := h.single (by rw [hc]; rfl) hk
    have hdue := overdueIn_of_answered (hact ▸ h.answered htask hres rfl)
    rw [hc] at htold
    obtain ⟨htotals, hover⟩ := htold
    have heq := purges_others (thisPass tr) [.checked breached, .executed .gcRemovedUnits]
      (by simp [purgeResult])
    refine h.goOn hm hquiet (by simp) nofun (fun _ => ?_)
      ⟨htotals.of_purges heq, ?_, hdue.append⟩ (h.batches_goOn herase rfl heq) ?_
    · rw [hnone]
      rfl
    · rw [heq]
      exact hover
    · refine atEvery_cons.mpr ⟨trivial, atEvery_cons.mpr ⟨?_, atEvery_nil⟩⟩
      have hlast : purges (thisPass (tr ++ [.action (.checked breached)])) =
          purges (thisPass tr) := by
        rw [hpass _ rfl]
        exact purges_others _ [.checked breached] (by simp [purgeResult])
      refine ⟨?_, breached, ?_⟩
      · rw [hlast]
        exact hover
      · rw [hpass _ rfl]
        exact List.mem_append_right _ (List.mem_singleton_self _)
  | collected deleted failed breached n hc =>
    obtain ⟨hact, hnone⟩ := h.single (by rw [hc]; rfl) hk
    have hn := le_collected_of_answered (hact ▸ h.answered htask hres rfl)
    rw [hc] at htold
    obtain ⟨htotals, hover, hdue⟩ := htold
    have heq := purges_others (thisPass tr) [.collected n, .logged deleted failed breached n,
      .slept s.workflow.now] (by simp [purgeResult])
    refine h.goOn hm hquiet (by simp) nofun (fun _ => ?_)
      ⟨s.workflow.now, by simp, Nat.le_refl _⟩ (h.batches_goOn herase rfl heq) ?_
    · rw [hnone]
      rfl
    · refine atEvery_cons.mpr ⟨trivial, atEvery_cons.mpr ⟨?_, atEvery_cons.mpr
        ⟨trivial, atEvery_nil⟩⟩⟩
      have hlast : purges (thisPass tr ++ [.action (.collected n)]) = purges (thisPass tr) :=
        purges_others _ [.collected n] (by simp [purgeResult])
      show TrueReport (thisPass (tr ++ [.action (.collected n)])) _ _ _ _
      rw [hpass _ rfl]
      refine trueReport (h.batches.mono hlast (Nat.le_refl _)
        fun task' htask' => .inl ⟨task', htask', rfl⟩) (htotals.of_purges hlast) (hlast ▸ hover)
        hdue.append ?_
      rw [List.map_append, List.sum_append]
      exact Nat.le_trans hn (Nat.le_add_right _ _)
  | failed ev act t herror hawaits =>
    obtain ⟨hact, hnone⟩ := h.single hawaits hk
    obtain ⟨old, -, hsince⟩ := h.traced
    have hended := hsince.ended task htask ev hres
    have hev : ev = act.failed t := by
      cases ev with
      | purgeDone r | slaDone r | gcDone r =>
        cases r <;> cases herror
        rfl
      | _ => cases herror
    rw [hact, hev] at hended
    have heq := purges_others (thisPass tr) [.failed] (by simp [purgeResult])
    refine h.goOn hm hquiet (by simp) nofun (fun hlive => absurd rfl hlive) trivial
      (h.batches_goOn herase rfl heq) ?_
    refine atEvery_cons.mpr ⟨.inr ⟨act, t, ?_⟩, atEvery_nil⟩
    rw [List.append_nil]
    exact hended

/-- **Every move keeps the invariant.** -/
theorem Kept.move (h : Kept s tr) (hm : Moves maintenanceOver service (Job.prog a sv) s e s' as) :
    Kept s' (tr ++ as) := by
  have hsame : ∀ (k : ℕ) (task : Task Activity Event) (r : Event), s.tasks[k]? = some task →
      ∀ task' ∈ (settle s k task r).tasks, ∃ task ∈ s.tasks, task.execution = task'.execution := by
    intro k task r hk task' htask'
    rcases List.mem_or_eq_of_mem_set htask' with hold | rfl
    · exact ⟨task', hold, rfl⟩
    · exact ⟨task, List.mem_of_getElem? hk, rfl⟩
  have hold : ∀ task' ∈ s.tasks, (∃ task ∈ s.tasks, task.execution = task'.execution) ∨
      s.executions.length ≤ task'.execution := fun task' htask' => .inl ⟨task', htask', rfl⟩
  have hmove := hm
  cases hm with
  | free ev r hfree hstep =>
    obtain ⟨q, acts⟩ := r
    cases step_transition hstep with
    | tick d => exact h.idle hmove rfl rfl (by simp) (Nat.le_refl _) hold
    | begin hc =>
      refine h.begin (by rw [hc]; rfl) (by rw [hc]; nofun) [] (by simp) ?_ hmove
      rw [List.map_nil, List.append_nil]
      exact .inl (h.first hc)
    | woke due hc hdue =>
      refine h.begin (by rw [hc]; rfl) (by rw [hc]; nofun) [.continuedAsNew] (by simp)
        (.inr ?_) hmove
      have htold := h.told
      rw [hc] at htold
      obtain ⟨t, ht, hle⟩ := htold
      refine ⟨t, ?_, Nat.le_trans hle hdue⟩
      have hpass : thisPass (tr ++ [.action .continuedAsNew]) = _ :=
        thisPass_append (by simp [begins])
      show _ ∈ thisPass (tr ++ [.action .continuedAsNew])
      rw [hpass]
      exact List.mem_append_left _ ht
    | cancelled =>
      have heq := purges_others (thisPass tr) [.cancelled, .failed]
        (by simp [purgeResult])
      have hm : Moves maintenanceOver service (Job.prog a sv) s (.free .cancelled)
          (maintenanceOver.goOn s ((fail s.workflow).1, [.cancelled, .failed]))
          ([Action.cancelled, .failed].map .action ++ []) := by
        rw [List.append_nil]
        exact hmove
      have hkept := h.goOn hm (by simp) (by simp) nofun (fun hlive => absurd rfl hlive) trivial
        (h.batches_goOn (fun _ ht => ht) rfl heq) ?_
      · rwa [List.append_nil] at hkept
      · refine atEvery_cons.mpr ⟨trivial, atEvery_cons.mpr ⟨.inl ?_, atEvery_nil⟩⟩
        exact List.mem_append_right _ (List.mem_singleton_self _)
    | again i deleted failed res hc hgo hlt => cases hfree
    | loopOver i deleted failed res hc hover => cases hfree
    | checked deleted failed breached hc => cases hfree
    | collected deleted failed breached n hc => cases hfree
    | failed ev act t herror hawaits => cases ev <;> first | cases hfree; done | cases herror
  | deliver k task ev r hk hres hstep => exact h.deliver hk hres hstep hmove
  | turn i t c k b hi =>
    exact h.idle hmove rfl rfl (by simp [quiet])
      (Nat.le_of_eq (List.length_set ..).symm) hold
  | resolve k task ev b hk hres hi htakes =>
    exact h.idle hmove rfl (settle_tasks hk ev)
      (by simp [quiet]) (Nat.le_refl _) fun task' ht => .inl (hsame k task ev hk task' ht)
  | retry k task hk hres hn =>
    refine h.idle hmove rfl (attemptAgain_tasks hk) (by simp) ?_
      fun task' htask' => ?_
    · simp [attemptAgain]
    · rcases List.mem_or_eq_of_mem_set htask' with hmem | rfl
      · exact hold task' hmem
      · exact .inr (Nat.le_refl _)
  | expire k task hk hres =>
    exact h.idle hmove rfl (settle_tasks hk _) (by simp [quiet])
      (Nat.le_refl _) fun task' ht => .inl (hsame k task _ hk task' ht)
  | restart q hq => cases hq
  | other ev q as hq =>
    exact h.idle hmove rfl rfl (by simp [quiet]) (Nat.le_refl _) hold

/-- **Maintenance in every run.**  Whatever its activities meet with, and whatever else goes on in
the service: a pass purges at most so many batches, goes on to the deadline check only when the
last one cleared nothing or was the last that may be, and to the collection only then; its report
is true; the next pass begins a day after it went to sleep; and the workflow stops only when it
was cancelled or an activity of the pass has failed for good.  Until then, it waits for a task, or
sleeps. -/
theorem maintenance_justified {t : Time} {w : World} {es : List Happening}
    (h : (maintenanceSystem a sv).Run (.fresh t w) es s tr) :
    AtEvery Justified tr ∧ (s.workflow.control ≠ .failed →
      s.tasks.map Task.act = s.workflow.control.awaits) := by
  have hkept : Kept s tr := h.invariant (kept_fresh t w)
    fun s tr e s' as hkept _ hstep => hkept.move (system_moves hstep)
  exact ⟨hkept.justified, hkept.attended⟩

end Moves

/-! ### A day of maintenance -/

/-- An execution makes so many commands and its result resumes the workflow. -/
def answers (i n : ℕ) : List Happening :=
  List.replicate n (.turn i ⟨false, quietly annAnswers⟩) ++ [.resolve 0, .deliver 0]

/-- The first attempt of the first batch is given up after it has deleted the object; the second
one goes through, the next batch finds nothing, and a day later the next pass begins. -/
def oneDay : List Happening :=
  [.free .begin] ++ List.replicate 2 (.turn 0 ⟨false, quietly annAnswers⟩) ++ [.retry 0] ++
    answers 1 3 ++ answers 2 1 ++ answers 3 2 ++ answers 4 2 ++
    [.free (.tick maintenanceInterval), .free .timerFired]

/-- Whether a label is a report of one erasure and nothing else. -/
def reportsOne : Mark → Bool
  | .action act => decide (act = .logged 1 0 0 0)
  | _ => false

/-- **A day of maintenance** that erases the one document that is owed. -/
theorem oneDay_justified : ∃ s tr, (maintenanceSystem driveActivities driveServer).Run
      (.fresh 0 overdueWorld) oneDay s tr ∧
    (∃ x ∈ tr, reportsOne x = true) ∧ AtEvery Justified tr ∧
      s.tasks.map Task.act = s.workflow.control.awaits := by
  obtain ⟨s, tr, hrun, hend⟩ := (maintenanceSystem driveActivities driveServer).exists_run_of_any
    (.fresh 0 overdueWorld) oneDay
    (fun s tr => tr.any reportsOne && decide (s.workflow.control ≠ .failed)) (by decide +kernel)
  obtain ⟨hreport, hlive⟩ := Bool.and_eq_true_iff.mp hend
  obtain ⟨hjustified, hattended⟩ := maintenance_justified hrun
  exact ⟨s, tr, hrun, List.any_eq_true.mp hreport, hjustified,
    hattended (of_decide_eq_true hlive)⟩

end Maintenance
end Hivebook
