import Hivebook.Basic
import Hivebook.Lib.Transition

/-!
# `ConnectionWorkflow`

The per-connection workflow as a transition system.  Workflow code is
deterministic between two points where it blocks, so a state is the point it is
blocked at together with its locals, and a step is one thing it may be resumed
by: the result of the activity it awaits, a case its selector picks, or, at any
point, a signal delivered to it or time passing.  The results of activities are
part of the event, hence arbitrary: what is proved here holds whatever the
activities do.

A `continueAsNew` ends a generation and starts the next one in the same step.
Only the `ConnectionWorkflowInput` crosses it; the locals of `runConnection` and
the unread signals do not.

## Main definitions

* `ConnectionWorkflowInput`, `RunState` — the seed of a generation and the locals
  of `runConnection`.
* `Control` — the points the workflow blocks at.
* `drainSignals`, `launchBatch`, `shouldContinueAsNew` — the pieces of the loop.
* `boundary`, `finishRun` — what follows a completed unit and a settled run.
* `connectionWorkflow` — the transition system.
-/

namespace Hivebook
namespace Workflow

/-- The signals a `ConnectionWorkflow` accepts.  None carries a payload. -/
inductive Signal where
  | triggerSync | stopSync | disconnect | updateSelection | refreshCatalog | updateSchedule
  deriving DecidableEq, Repr

/-- The control activities, by the name the workflow invokes them under. -/
inductive ActivityName where
  | startRun | discoverUnits | nextUnitBatch | settleConnection | capacity | getSyncSchedule
  deriving DecidableEq, Repr

/-- `continueAsNewUnits`. -/
def continueAsNewUnits : ℕ := 1000

/-- `continueAsNewRuntime`. -/
def continueAsNewRuntime : Time := 15 * minute

/-- `defaultSyncIntervalSeconds`. -/
def defaultSyncIntervalSeconds : ℤ := 900

/-- `ConnectionWorkflowInput`: all that survives a `continueAsNew`. -/
structure ConnectionWorkflowInput where
  connectionID : Uuid
  tenantID : String
  connectorID : String
  /-- Set only by `continueAsNew`: the generation resumes in the middle of a drain. -/
  midRun : Bool
  deriving DecidableEq, Repr

/-- The locals of `runConnection` that live across its blocking points. -/
structure RunState where
  start : Time
  processed : ℕ
  rerunRequested : Bool
  stopRequested : Bool
  disconnectRequested : Bool
  /-- The unit ids whose `SyncUnit` is running: the keys of the `inFlight` map. -/
  inFlight : List String
  /-- A history bound has tripped: launch no more, drain, then continue as new. -/
  stoppingCAN : Bool
  deriving DecidableEq, Repr

/-- The locals at the head of `runConnection`. -/
def RunState.init (start : Time) : RunState :=
  { start, processed := 0, rerunRequested := false, stopRequested := false,
    disconnectRequested := false, inFlight := [], stoppingCAN := false }

/-- Where the workflow is blocked, or how it ended. -/
inductive Control where
  /-- Awaiting `GetSyncSchedule`, at the head of the idle loop. -/
  | getSchedule
  /-- Parked in the idle selector, with the due time of the timer if one is armed. -/
  | idle (timer : Option Time)
  /-- Awaiting the discover-only `DiscoverUnits` of a `RefreshCatalog`. -/
  | refresh
  | startRun (r : RunState)
  | discover (r : RunState)
  | capacity (r : RunState)
  /-- Awaiting `NextUnitBatch` in a refill that tops the pool up to `p`. -/
  | nextBatch (r : RunState) (p launchedThisRefill : ℕ)
  /-- In `selector.Select`, waiting for one in-flight unit. -/
  | select (r : RunState)
  | settle (r : RunState)
  /-- The workflow returned `nil`. -/
  | completed
  /-- The workflow returned an error that is not a `ContinueAsNewError`. -/
  | failed
  deriving DecidableEq, Repr

/-- The workflow has ended. -/
def Control.ended : Control → Bool
  | .completed | .failed => true
  | _ => false

/-- A workflow execution: one chain of generations. -/
structure State where
  input : ConnectionWorkflowInput
  now : Time
  /-- How many signals of each kind are buffered, delivered and not yet read. -/
  signals : Signal → ℕ
  control : Control

/-- What may resume the workflow, or happen to it. -/
inductive Event where
  /-- The service delivers a signal. -/
  | signal (x : Signal)
  /-- Time passes. -/
  | tick (d : Time)
  | scheduleDone (r : Except ErrType ScheduleResult)
  /-- The idle selector picks the receive case of a channel. -/
  | receive (x : Signal)
  /-- The idle selector picks the timer. -/
  | timerFired
  | startRunDone (r : Except ErrType Unit)
  | discoverDone (r : Except ErrType ℕ)
  | capacityDone (r : Except ErrType ℤ)
  | batchDone (r : Except ErrType (List String))
  /-- `selector.Select` runs the callback of a finished `SyncUnit`. -/
  | unitDone (id : String) (r : Except ErrType SyncResult)
  | settleDone (r : Except ErrType ConnectionStatus)
  deriving DecidableEq, Repr

/-- Where a signal was read: the idle selector, or `drainSignals`. -/
inductive Place where
  | idle | drain
  deriving DecidableEq, Repr

/-- What the workflow does, as seen from outside. -/
inductive Action where
  /-- A control activity is scheduled. -/
  | started (a : ActivityName)
  /-- A `SyncUnit` is scheduled for the unit. -/
  | launched (id : String)
  /-- A signal is read from its channel. -/
  | received (p : Place) (x : Signal)
  | timerFired
  /-- The workflow parks in its idle selector. -/
  | parked
  | continuedAsNew (midRun : Bool)
  | completed
  | failed
  deriving DecidableEq, Repr

/-! ### The idle loop -/

/-- The head of the idle loop: the cadence is read before the selector is built. -/
def enterIdle (s : State) : State × List Action :=
  ({ s with control := .getSchedule }, [.started .getSyncSchedule])

/-- The schedule in effect: an error falls back to the platform cadence. -/
def scheduleOrDefault : Except ErrType ScheduleResult → ScheduleResult
  | .ok r => r
  | .error _ => { enabled := true, intervalSeconds := defaultSyncIntervalSeconds }

/-- Building the idle selector: the timer is armed only when auto-sync is on. -/
def park (s : State) (r : Except ErrType ScheduleResult) : State × List Action :=
  let schedule := scheduleOrDefault r
  let timer := if schedule.enabled
    then some (s.now + schedule.intervalSeconds.toNat * second) else none
  ({ s with control := .idle timer }, [.parked])

/-! ### The drain loop of `runConnection` -/

/-- After a refill: settle when nothing is in flight and nothing was launched,
else wait for one in-flight unit. -/
def afterRefill (s : State) (r : RunState) (launchedThisRefill : ℕ) : State × List Action :=
  if r.inFlight.length = 0 ∧ launchedThisRefill = 0 then
    ({ s with control := .settle r }, [.started .settleConnection])
  else ({ s with control := .select r }, [])

/-- The refill loop's test: query the next batch while the pool is below `p`. -/
def refill (s : State) (r : RunState) (p launchedThisRefill : ℕ) : State × List Action :=
  if r.inFlight.length < p then
    ({ s with control := .nextBatch r p launchedThisRefill }, [.started .nextUnitBatch])
  else afterRefill s r launchedThisRefill

/-- The head of the drain loop: a refill starts by reading the capacity, and is
skipped once a stop was requested or a history bound tripped. -/
def drainLoop (s : State) (r : RunState) : State × List Action :=
  if !r.stopRequested && !r.stoppingCAN then
    ({ s with control := .capacity r }, [.started .capacity])
  else afterRefill s r 0

/-- `runConnection`, up to its first blocking point: a resumed generation skips
`StartRun` and discovery. -/
def runConnection (s : State) : State × List Action :=
  if s.input.midRun then drainLoop s (.init s.now)
  else ({ s with control := .startRun (.init s.now) }, [.started .startRun])

/-- `capacityP`: the adaptive limit, at least one. -/
def capacityP (p : ℤ) : ℕ := if p < 1 then 1 else p.toNat

/-- The launch loop over one batch: skip what is in flight, stop when the pool is
full.  Returns the new in-flight ids and the ids launched, in order. -/
def launchBatch (p : ℕ) : List String → List String → List String × List String
  | inFlight, [] => (inFlight, [])
  | inFlight, id :: ids =>
      if p ≤ inFlight.length then (inFlight, [])
      else if id ∈ inFlight then launchBatch p inFlight ids
      else
        let rest := launchBatch p (inFlight ++ [id]) ids
        (rest.1, id :: rest.2)

/-- The order `drainSignals` empties the channels in. -/
def drainOrder : List Signal :=
  [.stopSync, .disconnect, .triggerSync, .updateSelection, .refreshCatalog, .updateSchedule]

/-- The reads `drainSignals` makes: every buffered signal, channel by channel. -/
def drained (signals : Signal → ℕ) : List Action :=
  drainOrder.flatMap fun x => List.replicate (signals x) (.received .drain x)

/-- `drainSignals`: empty every channel and set the run's flags. -/
def drainSignals (signals : Signal → ℕ) (r : RunState) : RunState :=
  { r with
    stopRequested := r.stopRequested || decide (0 < signals .stopSync) ||
      decide (0 < signals .disconnect)
    disconnectRequested := r.disconnectRequested || decide (0 < signals .disconnect)
    rerunRequested := r.rerunRequested || decide (0 < signals .triggerSync) }

/-- `shouldContinueAsNew`: a history bound has tripped. -/
def shouldContinueAsNew (now : Time) (processed : ℕ) (start : Time) : Bool :=
  decide (continueAsNewUnits ≤ processed) || decide (continueAsNewRuntime ≤ now - start)

/-- `ConnectionWorkflow` from its first line. -/
def startGeneration (s : State) : State × List Action :=
  if s.input.midRun then runConnection s else enterIdle s

/-- A `ContinueAsNewError`: the next generation starts from the input alone. -/
def continueAsNew (s : State) (midRun : Bool) : State × List Action :=
  let next := startGeneration
    { s with input := { s.input with midRun }, signals := fun _ => 0 }
  (next.1, .continuedAsNew midRun :: next.2)

/-- The locals after the callback of a finished unit. -/
def RunState.unitDone (r : RunState) (id : String) : RunState :=
  { r with inFlight := r.inFlight.filter (· ≠ id), processed := r.processed + 1 }

/-- The history bound is checked after the signals were drained. -/
def RunState.checkBound (r : RunState) (now : Time) : RunState :=
  { r with stoppingCAN := r.stoppingCAN || shouldContinueAsNew now r.processed r.start }

/-- The locals once a completion boundary has been crossed: the unit is dropped
from the pool, the signals are drained, the history bound is checked. -/
def RunState.cross (r : RunState) (id : String) (signals : Signal → ℕ) (now : Time) : RunState :=
  (drainSignals signals (r.unitDone id)).checkBound now

/-- What follows `selector.Select`: continue as new once the bound has tripped and
the pool is empty, else back to the head of the loop. -/
def boundary (s : State) (r : RunState) (id : String) : State × List Action :=
  let r' := r.cross id s.signals s.now
  let s' := { s with signals := fun _ => 0 }
  let next :=
    if r'.stoppingCAN = true ∧ r'.inFlight = [] then continueAsNew s' true else drainLoop s' r'
  (next.1, drained s.signals ++ next.2)

/-- The workflow returns `nil`. -/
def complete (s : State) : State × List Action :=
  ({ s with control := .completed }, [.completed])

/-- The workflow returns an activity's error. -/
def fail (s : State) : State × List Action :=
  ({ s with control := .failed }, [.failed])

/-- `ConnectionWorkflow` after `runConnection` returned `nil`: a resumed generation
returns what `runConnection` returned; a fresh one goes back to the idle loop
unless it was disconnected. -/
def runReturned (s : State) (disconnected : Bool) : State × List Action :=
  if s.input.midRun then complete s
  else if disconnected then complete s
  else enterIdle s

/-- The tail of `runConnection` after a successful settle. -/
def finishRun (s : State) (r : RunState) : State × List Action :=
  if r.disconnectRequested then runReturned s true
  else if r.rerunRequested && !r.stopRequested then continueAsNew s false
  else runReturned s false

/-- One signal fewer in a channel. -/
def State.read (s : State) (x : Signal) : State :=
  { s with signals := Function.update s.signals x (s.signals x - 1) }

/-- What the idle loop does with the signal its selector received. -/
def idleReceive (s : State) : Signal → State × List Action
  | .triggerSync => runConnection s
  | .disconnect => complete s
  | .refreshCatalog => ({ s with control := .refresh }, [.started .discoverUnits])
  | .updateSelection | .updateSchedule | .stopSync => enterIdle s

/-- One step of the workflow. -/
def step (s : State) : Event → Option (State × List Action)
  | .signal x =>
      if s.control.ended then none
      else some ({ s with signals := Function.update s.signals x (s.signals x + 1) }, [])
  | .tick d => some ({ s with now := s.now + d }, [])
  | .scheduleDone r =>
      match s.control with
      | .getSchedule => some (park s r)
      | _ => none
  | .receive x =>
      match s.control with
      | .idle _ =>
          if 0 < s.signals x then
            let next := idleReceive (s.read x) x
            some (next.1, .received .idle x :: next.2)
          else none
      | _ => none
  | .timerFired =>
      match s.control with
      | .idle (some due) =>
          if due ≤ s.now then
            let next := runConnection s
            some (next.1, .timerFired :: next.2)
          else none
      | _ => none
  | .startRunDone r =>
      match s.control, r with
      | .startRun r, .ok _ => some ({ s with control := .discover r }, [.started .discoverUnits])
      | .startRun _, .error _ => some (fail s)
      | _, _ => none
  | .discoverDone r =>
      match s.control, r with
      | .discover r, .ok _ => some (drainLoop s r)
      | .discover _, .error _ => some (fail s)
      -- a failed refresh is not fatal: the next refresh or run retries
      | .refresh, _ => some (enterIdle s)
      | _, _ => none
  | .capacityDone r =>
      match s.control, r with
      | .capacity r, .ok p => some (refill s r (capacityP p) 0)
      | .capacity _, .error _ => some (fail s)
      | _, _ => none
  | .batchDone r =>
      match s.control, r with
      | .nextBatch r p launched, .ok ids =>
          let pool := launchBatch p r.inFlight ids
          let next :=
            if pool.2 = [] then afterRefill s r launched
            else refill s { r with inFlight := pool.1 } p (launched + pool.2.length)
          some (next.1, pool.2.map .launched ++ next.2)
      | .nextBatch _ _ _, .error _ => some (fail s)
      | _, _ => none
  | .unitDone id _ =>
      match s.control with
      | .select r => if id ∈ r.inFlight then some (boundary s r id) else none
      | _ => none
  | .settleDone r =>
      match s.control, r with
      | .settle r, .ok _ => some (finishRun s r)
      | .settle _, .error _ => some (fail s)
      | _, _ => none

/-- The workflow as a transition system. -/
def connectionWorkflow : Lts State Event Action := ⟨step⟩

/-- A fresh execution, as the service starts it: idle, and never mid-run. -/
def freshInput (connectionID : Uuid) (tenantID connectorID : String) : ConnectionWorkflowInput :=
  { connectionID, tenantID, connectorID, midRun := false }

/-- The first blocking point of a fresh execution. -/
def State.fresh (connectionID : Uuid) (tenantID connectorID : String) (now : Time) : State :=
  { input := freshInput connectionID tenantID connectorID, now, signals := fun _ => 0,
    control := .getSchedule }

end Workflow
end Hivebook
