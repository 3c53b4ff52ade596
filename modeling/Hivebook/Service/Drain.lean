import Mathlib.Data.List.Perm.Basic
import Hivebook.Lib.Orchestration
import Hivebook.Service.Jobs
import Hivebook.Workflow.Steps

/-!
# A connection's workflow over its activities

The workflow of a connection, run over the activities it schedules and next to every
other job of the service.  `GetSyncSchedule` reads columns that nothing else here reads,
so its answer is left free; every other result is the result of an execution of the
activity, or a timeout.

While the workflow runs, its tasks are exactly what it waits for: the control activity
it is blocked on and a `SyncUnit` per unit in flight.  So it is never stuck.

## Main definitions

* `Activity`, `Activity.prog` — the activities, as programs that return an event.
* `connectionOver` — the workflow over its activities; `Running`, `Mark` — its states
  and labels.
* `Control.awaits` — the activities a blocked workflow waits for.
* `Attended` — the tasks are what the workflow waits for.

## Main results

* `Attended.move` — **a running workflow has a task for everything it waits for.**
* `launchBatch_eq_nil_iff`, `nextUnitBatch_subset_iff` — **a refill launches nothing
  exactly when every eligible unit is in flight.**
-/

namespace Hivebook
namespace Workflow

open Orchestration

/-! ### The activities -/

/-- The activities of a `ConnectionWorkflow` whose results are read. -/
inductive Activity where
  | startRun
  | discoverUnits
  | capacity
  | nextUnitBatch (limit : ℕ)
  | settleConnection
  | syncUnit (unitID : String)
  deriving DecidableEq, Repr

/-- An error as the workflow sees it. -/
def seen {α : Type} (r : Except ActivityError α) : Except ErrType α :=
  r.mapError ActivityError.type

/-- The program of an activity, with its result as an event of the workflow. -/
def Activity.prog (a : Activities) (connectionID : Uuid) (tenantID connectorID : String) :
    Activity → Program Event
  | .startRun => (Activities.startRun connectionID).bind fun r => .pure (.startRunDone (seen r))
  | .discoverUnits => (a.discoverUnits connectionID).bind fun r =>
      .pure (.discoverDone (seen (r.map DiscoverResult.count)))
  | .capacity => (a.capacity connectionID tenantID connectorID).bind fun r =>
      .pure (.capacityDone (seen r))
  | .nextUnitBatch limit => (Activities.nextUnitBatch connectionID limit).bind fun r =>
      .pure (.batchDone (seen r))
  | .settleConnection => (Activities.settleConnection connectionID).bind fun r =>
      .pure (.settleDone (seen r))
  | .syncUnit unitID => (a.syncUnit { connectionID, tenantID, connectorID, unitID }).bind fun r =>
      .pure (.unitDone unitID (seen r))

/-- An activity that failed. -/
def Activity.failed (t : ErrType) : Activity → Event
  | .startRun => .startRunDone (.error t)
  | .discoverUnits => .discoverDone (.error t)
  | .capacity => .capacityDone (.error t)
  | .nextUnitBatch _ => .batchDone (.error t)
  | .settleConnection => .settleDone (.error t)
  | .syncUnit unitID => .unitDone unitID (.error t)

/-- `MaximumAttempts` of `syncCtx` and `controlCtx`. -/
def Activity.attempts : Activity → ℕ
  | .syncUnit _ => 3
  | _ => 5

/-- The label of the error an event reports, if it reports one. -/
def Event.error? : Event → Option ErrType
  | .startRunDone (.error t) | .discoverDone (.error t) | .capacityDone (.error t)
  | .batchDone (.error t) | .settleDone (.error t) | .unitDone _ (.error t) => some t
  | _ => none

/-- An error is retried unless it is labelled as rejected credentials. -/
def Event.final (e : Event) : Bool :=
  match e.error? with
  | some t => decide (t = .auth)
  | none => true

/-- The events that are no result of a modelled activity. -/
def Event.free : Event → Bool
  | .signal _ | .tick _ | .scheduleDone _ | .receive _ | .timerFired => true
  | _ => false

/-- The activity an action schedules, given where the workflow blocks next. -/
def scheduled (c : Control) : Action → Option Activity
  | .started .startRun => some .startRun
  | .started .discoverUnits => some .discoverUnits
  | .started .capacity => some .capacity
  | .started .nextUnitBatch =>
      match c with
      | .nextBatch _ p _ => some (.nextUnitBatch p)
      | _ => none
  | .started .settleConnection => some .settleConnection
  | .launched id => some (.syncUnit id)
  | _ => none

/-- The workflow of a connection over its activities.  The service starts a workflow that
has ended anew when it next signals it. -/
def connectionOver (a : Activities) (connectionID : Uuid) (tenantID connectorID : String) :
    Orchestration State Event Action Activity Cmd Cmd.Resp where
  workflow := connectionWorkflow
  schedules s as := as.filterMap (scheduled s.control)
  prog := Activity.prog a connectionID tenantID connectorID
  attempts := Activity.attempts
  final := Event.final
  timeout := Activity.failed .other
  free := Event.free
  restart s :=
    if s.control.ended then some (.fresh connectionID tenantID connectorID s.now) else none

/-- A workflow that runs over its activities. -/
abbrev Running := Orchestrated State World Event Activity Cmd Cmd.Resp

/-- A label of its trace. -/
abbrev Mark := Label State World Choice Event Action Activity Cmd

/-- What happens to it. -/
abbrev Happening := Occurrence Job Choice Event

/-- The connection and the rest of the service. -/
def connectionSystem (a : Activities) (sv : Server) (connectionID : Uuid)
    (tenantID connectorID : String) : Lts Running Happening Mark :=
  (connectionOver a connectionID tenantID connectorID).system service (Job.prog a sv)

/-- A fresh workflow of a connection. -/
def Running.fresh (connectionID : Uuid) (tenantID connectorID : String) (t : Time) (w : World) :
    Running :=
  Orchestration.start (.fresh connectionID tenantID connectorID t) w

/-! ### What a blocked workflow waits for -/

/-- The activities a blocked workflow waits for. -/
def Control.awaits : Control → List Activity
  | .startRun _ => [.startRun]
  | .discover _ | .refresh => [.discoverUnits]
  | .capacity r => .capacity :: r.inFlight.map .syncUnit
  | .nextBatch r p _ => .nextUnitBatch p :: r.inFlight.map .syncUnit
  | .select r => r.inFlight.map .syncUnit
  | .settle _ => [.settleConnection]
  | _ => []

/-- The activity an event is a result of. -/
def Event.answers : Event → Activity → Prop
  | .startRunDone _, act => act = .startRun
  | .discoverDone _, act => act = .discoverUnits
  | .capacityDone _, act => act = .capacity
  | .batchDone _, act => ∃ p, act = .nextUnitBatch p
  | .unitDone id _, act => act = .syncUnit id
  | .settleDone _, act => act = .settleConnection
  | _, _ => False

variable {a : Activities} {connectionID : Uuid} {tenantID connectorID : String}

/-- The result of an activity is a result of it. -/
theorem answers_of_returns {act : Activity} {ls : List (Performed World Choice Cmd)} {e : Event}
    (h : Log service (act.prog a connectionID tenantID connectorID) ls (.pure e)) :
    e.answers act := by
  cases act with
  | nextUnitBatch limit =>
    obtain ⟨r, rfl, -⟩ := h.map_returns
    exact ⟨limit, rfl⟩
  | _ =>
    obtain ⟨r, rfl, -⟩ := h.map_returns
    rfl

theorem answers_failed (act : Activity) (t : ErrType) : (act.failed t).answers act := by
  cases act with
  | nextUnitBatch limit => exact ⟨limit, rfl⟩
  | _ => rfl

/-- No free event is the result of an activity. -/
theorem not_answers_of_free {e : Event} (h : e.free = true) (act : Activity) : ¬ e.answers act := by
  cases e <;> first | cases h; done | exact id

/-! ### Steps of the workflow -/

section Steps

variable {s s' : State} {e : Event} {as : List Action}

/-- The units in flight are distinct. -/
def Distinct (s : State) : Prop := ∀ r, s.control.run? = some r → r.inFlight.Nodup

/-- A refill queries only while the pool has room. -/
def HasRoom (s : State) : Prop :=
  ∀ r p n, s.control = .nextBatch r p n → r.inFlight.length < p

theorem launchBatch_nodup (p : ℕ) (ids : List String) {inFlight : List String}
    (h : inFlight.Nodup) : (launchBatch p inFlight ids).1.Nodup := by
  induction ids generalizing inFlight with
  | nil => exact h
  | cons id ids ih =>
    rw [launchBatch]
    by_cases hp : p ≤ inFlight.length
    · rw [if_pos hp]
      exact h
    · rw [if_neg hp]
      by_cases hid : id ∈ inFlight
      · rw [if_pos hid]
        exact ih h
      · rw [if_neg hid]
        refine ih ?_
        rw [List.nodup_append]
        refine ⟨h, List.nodup_singleton _, fun x hx y hy => ?_⟩
        rw [List.mem_singleton.mp hy]
        rintro rfl
        exact hid hx

theorem cross_nodup {r : RunState} (h : r.inFlight.Nodup) (id : String) (signals : Signal → ℕ)
    (now : Time) : (r.cross id signals now).inFlight.Nodup :=
  h.filter _

theorem Distinct.step (ht : Transition s e s' as) (h : Distinct s) : Distinct s' := by
  intro r' hr'
  cases ht with
  | signal x hend => exact h r' hr'
  | tick d => exact h r' hr'
  | trigger timer hc | due timer hc | resumed r id res hc =>
    cases hr'
    exact List.nodup_nil
  | wake timer x c a hc _ _ _ hto =>
    obtain ⟨rfl, -⟩ | ⟨rfl, -⟩ := hto <;> cases hr'
  | runStarted r hc =>
    cases hr'
    exact h r' (by rw [hc]; rfl)
  | discovered r n c l hc hd =>
    cases hd.run?_eq.symm.trans hr'
    exact h r' (by rw [hc]; rfl)
  | refilling r p c l hc hd =>
    cases hd.run?_eq.symm.trans hr'
    exact h r' (by rw [hc]; rfl)
  | launching r p n ids c l hc hd =>
    cases hd.run?_eq.symm.trans hr'
    exact launchBatch_nodup p ids (h r (by rw [hc]; rfl))
  | crossed r id res c l hc hid hnot hd =>
    cases hd.run?_eq.symm.trans hr'
    exact cross_nodup (h r (by rw [hc]; rfl)) id _ _
  | _ => cases hr'

theorem HasRoom.step (ht : Transition s e s' as) (h : HasRoom s) : HasRoom s' := by
  intro r' p' n' hc'
  cases ht with
  | signal x hend => exact h r' p' n' hc'
  | tick d => exact h r' p' n' hc'
  | wake timer x c a hc _ _ _ hto =>
    obtain ⟨rfl, -⟩ | ⟨rfl, -⟩ := hto <;> cases hc'
  | discovered r n c l hc hd => cases hd <;> cases hc'
  | refilling r p c l hc hd =>
    cases hd with
    | nextBatch p hp =>
      cases hc'
      exact hp
    | _ => cases hc'
  | launching r p n ids c l hc hd =>
    cases hd with
    | nextBatch p hp =>
      cases hc'
      exact hp
    | _ => cases hc'
  | crossed r id res c l hc hid hnot hd => cases hd <;> cases hc'
  | _ => cases hc'

theorem cross_inFlight_awaits {r : RunState} (h : r.inFlight.Nodup) (id : String)
    (signals : Signal → ℕ) (now : Time) : (r.cross id signals now).inFlight.map Activity.syncUnit =
      (r.inFlight.map Activity.syncUnit).erase (.syncUnit id) := by
  rw [← List.map_erase (fun x y hxy => Activity.syncUnit.inj hxy), h.erase_eq_filter]
  refine congrArg _ (List.filter_congr fun x _ => ?_)
  by_cases hx : x = id <;> simp [hx]

/-- Reading signals schedules nothing. -/
theorem scheduled_drained (c : Control) (signals : Signal → ℕ) :
    (drained signals).filterMap (scheduled c) = [] := by
  refine List.filterMap_eq_nil_iff.mpr fun x hx => ?_
  obtain ⟨y, rfl, -⟩ := mem_drained hx
  rfl

/-- **What a result leaves to wait for**: the activity it is of is over, and what the
workflow scheduled on the way is added. -/
theorem Transition.awaits_result (ht : Transition s e s' as) (hwf : Wf s) (hd : Distinct s)
    (hend : s'.control.ended = false) {act : Activity} (hmem : act ∈ s.control.awaits)
    (hans : e.answers act) :
    s'.control.awaits.Perm (s.control.awaits.erase act ++ as.filterMap (scheduled s'.control)) := by
  cases ht with
  | refreshed r hc =>
    cases hans
    simp [hc, Control.awaits, scheduled]
  | runStarted r hc =>
    cases hans
    simp [hc, Control.awaits, scheduled]
  | discovered r n c l hc hd' =>
    cases hans
    unfold Wf at hwf
    rw [hc] at hwf
    obtain ⟨-, t, rfl⟩ := hwf
    cases hd' with
    | capacity => simp [hc, Control.awaits, scheduled, RunState.init]
    | select hf => exact absurd rfl hf
    | settle => simp [hc, Control.awaits, scheduled]
  | refilling r p c l hc hd' =>
    cases hans
    cases hd' with
    | nextBatch p =>
      simp only [hc, Control.awaits, List.erase_cons_head, List.filterMap_cons, scheduled,
        List.filterMap_nil]
      exact (List.perm_append_singleton _ _).symm
    | select => simp [hc, Control.awaits]
    | settle hf => simp [hc, Control.awaits, scheduled, hf]
  | launching r p n ids c l hc hd' =>
    obtain ⟨p', rfl⟩ := hans
    obtain rfl : p' = p := by simpa [hc, Control.awaits] using hmem
    -- the activities that are scheduled are those of the units put in flight
    have hnew : (launchBatch p' r.inFlight ids).2.filterMap (scheduled c ∘ Action.launched) =
        (launchBatch p' r.inFlight ids).2.map Activity.syncUnit := by
      rw [← List.filterMap_eq_map]
      rfl
    have hflight := congrArg (List.map Activity.syncUnit) (launchBatch_fst p' ids r.inFlight)
    rw [List.map_append] at hflight
    rw [List.filterMap_append, List.filterMap_map, hnew, hc]
    cases hd' with
    | nextBatch p =>
      simp only [Control.awaits, List.erase_cons_head, hflight, List.filterMap_cons, scheduled,
        List.filterMap_nil]
      rw [← List.append_assoc]
      exact (List.perm_append_singleton _ _).symm
    | select => simp [Control.awaits, hflight]
    | settle hf =>
      simp only at hf
      rw [hf, List.map_nil] at hflight
      obtain ⟨hold, hnone⟩ := List.append_eq_nil_iff.mp hflight.symm
      simp [Control.awaits, scheduled, hold, hnone]
  | crossed r id res c l hc hid hnot hd' =>
    cases hans
    -- the units in flight are distinct, so the one that is done leaves no other of its id
    have hleft := cross_inFlight_awaits (hd r (by rw [hc]; rfl)) id s.signals s.now
    rw [List.filterMap_append, scheduled_drained, List.nil_append, hc]
    cases hd' with
    | capacity =>
      simp only [Control.awaits, hleft, List.filterMap_cons, scheduled, List.filterMap_nil]
      exact (List.perm_append_singleton _ _).symm
    | select hf => simp [Control.awaits, hleft]
    | settle hf =>
      rw [hf, List.map_nil] at hleft
      simp [Control.awaits, scheduled, ← hleft]
  | resumed r id res hc hid hcan hempty =>
    cases hans
    have hleft := cross_inFlight_awaits (hd r (by rw [hc]; rfl)) id s.signals s.now
    rw [hempty, List.map_nil] at hleft
    rw [List.filterMap_append, scheduled_drained, List.nil_append, hc, Control.awaits,
      Control.awaits, ← hleft]
    exact .refl _
  | rerun r st hc =>
    cases hans
    simp [hc, Control.awaits, scheduled]
  | rested r st hc =>
    cases hans
    simp [hc, Control.awaits, scheduled]
  | ended r st hc => cases hend
  | failed e r hr hsel => cases hend
  | _ => cases hans

/-- A free event only adds to what the workflow waits for. -/
theorem Transition.awaits_free (ht : Transition s e s' as) (hend : s'.control.ended = false)
    (hfree : e.free = true) :
    s'.control.awaits.Perm (s.control.awaits ++ as.filterMap (scheduled s'.control)) := by
  cases ht with
  | signal x hend => simp
  | tick d => simp
  | park r timer hc => simp [hc, Control.awaits, scheduled]
  | trigger timer hc | due timer hc =>
    rw [hc]
    exact .refl _
  | wake timer x c a hc _ _ _ hto =>
    rw [hc]
    obtain ⟨rfl, rfl⟩ | ⟨rfl, rfl⟩ := hto <;> exact .refl _
  | disconnected timer hc => cases hend
  | failed e r hr hsel => cases hend
  | _ => cases hfree

end Steps

/-! ### The tasks of a running workflow -/

/-- The tasks are what the workflow waits for. -/
structure Attended (s : Running) : Prop where
  wf : Wf s.workflow
  distinct : Distinct s.workflow
  room : HasRoom s.workflow
  tasks : s.workflow.control.ended = false →
    (s.tasks.map Task.act).Perm s.workflow.control.awaits

theorem attended_fresh (connectionID : Uuid) (tenantID connectorID : String) (t : Time)
    (w : World) : Attended (.fresh connectionID tenantID connectorID t w) where
  wf := wf_fresh _ _ _ _
  distinct r hr := by cases hr
  room r p n hc := by cases hc
  tasks _ := .refl _

/-- The result of a task is a result of its activity. -/
theorem answers_of_traced {s : Running} {tr : List Mark} {task : Task Activity Event} {e : Event}
    (h : Traced (connectionOver a connectionID tenantID connectorID) service s tr)
    (htask : task ∈ s.tasks) (he : task.result = some e) : e.answers task.act := by
  obtain ⟨th, -, hlog, hres⟩ := h.task task htask
  rcases hres e he with rfl | hpure
  · exact answers_failed task.act .other
  · rw [hpure] at hlog
    exact answers_of_returns hlog

/-- A workflow that has ended is not resumed by a result. -/
theorem not_ended_of_step {s s' : State} {e : Event} {as : List Action} {act : Activity}
    (h : connectionWorkflow.step s e = some (s', as)) (hans : e.answers act) :
    s.control.ended = false := by
  cases hc : s.control with
  | completed => cases e <;> first | (cases hans; done) | simp [connectionWorkflow, step, hc] at h
  | failed => cases e <;> first | (cases hans; done) | simp [connectionWorkflow, step, hc] at h
  | _ => rfl

/-- What is left to wait for when a task has resumed the workflow. -/
theorem Attended.rest {s : Running} (h : Attended s) (hend : s.workflow.control.ended = false)
    {k : ℕ} {task : Task Activity Event} (hk : s.tasks[k]? = some task) :
    ((s.tasks.eraseIdx k).map Task.act).Perm (s.workflow.control.awaits.erase task.act) := by
  have hlive := h.tasks hend
  have hmem : task.act ∈ s.workflow.control.awaits :=
    hlive.mem_iff.mp (List.mem_map_of_mem (List.mem_of_getElem? hk))
  obtain ⟨hlt, hget⟩ := List.getElem?_eq_some_iff.mp hk
  have herase := (List.getElem_cons_eraseIdx_perm hlt).map Task.act
  rw [hget, List.map_cons] at herase
  exact (List.perm_cons _).mp (herase.trans (hlive.trans (List.perm_cons_erase hmem)))

/-- **A running workflow has a task for everything it waits for**, and for nothing
else. -/
theorem Attended.move {s s' : Running} {tr as : List Mark} {e : Happening} {sv : Server}
    (h : Attended s)
    (htraced : Traced (connectionOver a connectionID tenantID connectorID) service s tr)
    (hm : Moves (connectionOver a connectionID tenantID connectorID) service (Job.prog a sv)
      s e s' as) : Attended s' := by
  have hgoOn : ∀ {s₀ : Running} {r : State × List Action} {ev : Event},
      connectionWorkflow.step s.workflow ev = some r →
      (r.1.control.ended = false → (s₀.tasks.map Task.act ++
        r.2.filterMap (scheduled r.1.control)).Perm r.1.control.awaits) →
      Attended ((connectionOver a connectionID tenantID connectorID).goOn s₀ r) := by
    intro s₀ r ev hr htasks
    obtain ⟨ht, hwf⟩ := h.wf.step hr
    refine ⟨?_, ?_, ?_, ?_⟩ <;> rw [goOn_workflow]
    · exact hwf
    · exact Distinct.step ht h.distinct
    · exact HasRoom.step ht h.room
    · rw [goOn_tasks]
      exact htasks
  cases hm with
  | free ev r hfree hr =>
    obtain ⟨q, acts⟩ := r
    refine hgoOn hr fun hend => ?_
    obtain ⟨ht, -⟩ := h.wf.step hr
    have hlive : s.workflow.control.ended = false := by
      -- of the free events only the passing of time reaches a workflow that has ended
      cases ht with
      | signal x hend' => exact hend'
      | tick d => exact hend
      | park r timer hc | trigger timer hc | due timer hc | wake timer x c a hc => rw [hc]; rfl
      | disconnected timer hc => cases hend
      | failed e r hrun hsel => cases hend
      | _ => cases hfree
    exact ((h.tasks hlive).append_right _).trans (ht.awaits_free hend hfree).symm
  | deliver k task ev r hk hres hr =>
    refine hgoOn hr fun hend => ?_
    obtain ⟨ht, -⟩ := h.wf.step hr
    have htask := List.mem_of_getElem? hk
    have hans := answers_of_traced htraced htask hres
    have hlive := not_ended_of_step hr hans
    have hmem : task.act ∈ s.workflow.control.awaits :=
      (h.tasks hlive).mem_iff.mp (List.mem_map_of_mem htask)
    -- the delivered task is the one that is no longer waited for
    exact ((h.rest hlive hk).append_right _).trans
      (ht.awaits_result h.wf h.distinct hend hmem hans).symm
  | turn i t c k b hi => exact ⟨h.wf, h.distinct, h.room, h.tasks⟩
  | resolve k task ev b hk hres hi htakes =>
    refine ⟨h.wf, h.distinct, h.room, fun hend => ?_⟩
    rw [settle_tasks hk]
    exact h.tasks hend
  | retry k task hk hres hn =>
    refine ⟨h.wf, h.distinct, h.room, fun hend => ?_⟩
    rw [attemptAgain_tasks hk]
    exact h.tasks hend
  | expire k task hk hres =>
    refine ⟨h.wf, h.distinct, h.room, fun hend => ?_⟩
    rw [settle_tasks hk]
    exact h.tasks hend
  | restart q hq =>
    simp only [connectionOver] at hq
    split at hq
    · cases hq
      exact ⟨wf_fresh _ _ _ _, fun r hr => (by cases hr), fun r p n hc => (by cases hc),
        fun _ => .refl _⟩
    · cases hq
  | other ev q as hq => exact ⟨h.wf, h.distinct, h.room, h.tasks⟩

/-! ### A refill -/

/-- A refill with room launches nothing exactly when the whole batch is in flight. -/
theorem launchBatch_eq_nil_iff {p : ℕ} {inFlight : List String} (h : inFlight.length < p)
    (ids : List String) : (launchBatch p inFlight ids).2 = [] ↔ ∀ id ∈ ids, id ∈ inFlight := by
  induction ids with
  | nil => simp [launchBatch]
  | cons id ids ih =>
    rw [launchBatch, if_neg (by omega)]
    by_cases hid : id ∈ inFlight
    · rw [if_pos hid, ih]
      simp [hid]
    · rw [if_neg hid]
      simp [hid]

open Database in
/-- **A batch for a pool with room is in flight exactly when every eligible unit is**: a
full batch of distinct units does not fit into a pool that is not full. -/
theorem nextUnitBatch_subset_iff {now : Time} {id : Uuid} {p : ℕ} {db : Database}
    {inFlight : List String} (h : inFlight.length < p) :
    (∀ x ∈ nextUnitBatch now id p db, x ∈ inFlight) ↔
      ∀ u ∈ db.units.rows, eligible now id u = true → u.externalID ∈ inFlight := by
  have hmem : ∀ x, x ∈ ((db.units.rows.filter (eligible now id)).map
      SyncUnit.externalID).insertionSort (· ≤ ·) ↔
      ∃ u ∈ db.units.rows, eligible now id u = true ∧ u.externalID = x := by
    intro x
    rw [List.mem_insertionSort, List.mem_map]
    simp only [List.mem_filter, and_assoc]
  constructor
  · intro hbatch u hu hel
    have hin := (hmem u.externalID).mpr ⟨u, hu, hel, rfl⟩
    unfold nextUnitBatch at hbatch
    by_cases hlen : (((db.units.rows.filter (eligible now id)).map
        SyncUnit.externalID).insertionSort (· ≤ ·)).length ≤ p
    · rw [List.take_of_length_le hlen] at hbatch
      exact hbatch _ hin
    · -- the batch has `p` distinct units, and fewer are in flight
      have hnodup : ((db.units.rows.filter (eligible now id)).map SyncUnit.externalID).Nodup := by
        refine List.Nodup.map_on (fun u hu v hv huv => ?_)
          ((List.Nodup.of_map _ db.units.nodup_id).filter _)
        have hu' := List.mem_filter.mp hu
        have hv' := List.mem_filter.mp hv
        refine db.units.eq_of_key hu'.1 hv'.1 ?_
        have hcu : u.connectionID = id := by
          have := hu'.2
          simp only [eligible, Bool.and_eq_true, decide_eq_true_eq] at this
          exact this.1.1.1
        have hcv : v.connectionID = id := by
          have := hv'.2
          simp only [eligible, Bool.and_eq_true, decide_eq_true_eq] at this
          exact this.1.1.1
        rw [SyncUnit.key, SyncUnit.key, hcu, hcv, huv]
      have hsorted := ((List.perm_insertionSort (· ≤ ·) _).nodup_iff).mpr hnodup
      have hle :=
        (List.subperm_of_subset (hsorted.sublist (List.take_sublist p _)) hbatch).length_le
      rw [List.length_take] at hle
      omega
  · intro hall x hx
    obtain ⟨u, hu, hel, rfl⟩ := (hmem x).mp (List.mem_of_mem_take hx)
    exact hall u hu hel

/-- A batch is what its query found. -/
theorem batch_of_log {p : ℕ} {ls : List (Performed World Choice Cmd)} {ids : List String}
    (h : Log service ((Activity.nextUnitBatch p).prog a connectionID tenantID connectorID) ls
      (.pure (.batchDone (.ok ids)))) :
    ∃ l, ls = [l] ∧ ids = Database.nextUnitBatch (performedAt l) connectionID p l.state.db := by
  obtain ⟨r, hr, hlog⟩ := h.map_returns
  have hok : r = .ok ids := by
    cases r with
    | error e => cases hr
    | ok ids' =>
      cases hr
      rfl
  subst hok
  rcases hlog.of_call with ⟨-, hpure⟩ | ⟨w, b, x, ls', rfl, hrest⟩
  · cases hpure
  · cases hans : (service.perform x b w (.statement (.nextUnitBatch connectionID p))).2 with
    | error e =>
      rw [hans] at hrest
      cases hrest.of_pure.2
    | ok found =>
      rw [hans] at hrest
      obtain ⟨rfl, hids⟩ := hrest.of_pure
      cases hids
      refine ⟨_, rfl, ?_⟩
      rw [service_statement] at hans
      have hexec := (of_reply_eq_ok hans).2
      exact (Except.ok.inj hexec).symm

end Workflow
end Hivebook
