import Hivebook.Workflow.Connection

/-!
# The transitions of `ConnectionWorkflow`

What one step of the workflow can do, said once.  `Transition` has one
constructor for every way the workflow is resumed and goes on to its next
blocking point, with the actions it takes on the way; `step_transition` reads it
off the step function, and every property of a run is a case analysis over it.

## Main definitions

* `Control.run?` — the locals of the run a blocking point belongs to.
* `DrainStep`, `RefillStep` — where the head of the drain loop and a refill lead.
* `Event.failsControl` — a control activity has failed for good.
* `Transition` — one step, by cases.
* `Wf` — the invariant that ties the blocking points to the generation's input.

## Main results

* `failsControl_of_failed` — **a workflow in a run fails only on such an event.**
* `step_transition` — **every step is a transition.**
* `Transition.wf` — a transition keeps `Wf`.
* `run_invariant` — the invariant rule for the runs of a fresh execution.
-/

namespace Hivebook
namespace Workflow

/-- The locals of the run a blocking point belongs to. -/
def Control.run? : Control → Option RunState
  | .startRun r | .discover r | .capacity r | .nextBatch r _ _ | .select r | .settle r => some r
  | _ => none

/-- The points before the drain loop of a fresh run: the idle loop, `StartRun` and
`DiscoverUnits`.  A resumed generation never visits them. -/
def Control.beforeDrain : Control → Bool
  | .getSchedule | .idle _ | .refresh | .startRun _ | .discover _ => true
  | _ => false

/-! ### The pieces of the drain loop -/

/-- Where the head of the drain loop leads. -/
inductive DrainStep (r : RunState) : Control → List Action → Prop
  | capacity : r.stopRequested = false → r.stoppingCAN = false →
      DrainStep r (.capacity r) [.started .capacity]
  | select : r.inFlight ≠ [] → DrainStep r (.select r) []
  | settle : r.inFlight = [] → DrainStep r (.settle r) [.started .settleConnection]

/-- Where a refill that has launched `n` units leads. -/
inductive RefillStep (r : RunState) (n : ℕ) : Control → List Action → Prop
  | nextBatch (p : ℕ) : r.inFlight.length < p →
      RefillStep r n (.nextBatch r p n) [.started .nextUnitBatch]
  | select : r.inFlight ≠ [] ∨ n ≠ 0 → RefillStep r n (.select r) []
  | settle : r.inFlight = [] → RefillStep r n (.settle r) [.started .settleConnection]

theorem DrainStep.run?_eq {r : RunState} {c : Control} {l : List Action}
    (h : DrainStep r c l) : c.run? = some r := by
  cases h <;> rfl

theorem RefillStep.run?_eq {r : RunState} {n : ℕ} {c : Control} {l : List Action}
    (h : RefillStep r n c l) : c.run? = some r := by
  cases h <;> rfl

theorem drainLoop_spec (s : State) (r : RunState) :
    ∃ c l, drainLoop s r = ({ s with control := c }, l) ∧ DrainStep r c l := by
  unfold drainLoop afterRefill
  by_cases hgo : (!r.stopRequested && !r.stoppingCAN) = true
  · rw [if_pos hgo]
    simp only [Bool.and_eq_true, Bool.not_eq_true'] at hgo
    exact ⟨_, _, rfl, .capacity hgo.1 hgo.2⟩
  · rw [if_neg hgo]
    by_cases hf : r.inFlight = []
    · rw [if_pos ⟨by simp [hf], rfl⟩]
      exact ⟨_, _, rfl, .settle hf⟩
    · rw [if_neg (by simpa using hf)]
      exact ⟨_, _, rfl, .select hf⟩

theorem afterRefill_spec (s : State) (r : RunState) (n : ℕ) :
    ∃ c l, afterRefill s r n = ({ s with control := c }, l) ∧ RefillStep r n c l ∧
      ∀ r' p n', c ≠ .nextBatch r' p n' := by
  unfold afterRefill
  by_cases h : r.inFlight.length = 0 ∧ n = 0
  · rw [if_pos h]
    exact ⟨_, _, rfl, .settle (List.length_eq_zero_iff.mp h.1), by simp⟩
  · rw [if_neg h]
    rw [not_and_or, List.length_eq_zero_iff] at h
    exact ⟨_, _, rfl, .select h, by simp⟩

theorem refill_spec (s : State) (r : RunState) (p n : ℕ) :
    ∃ c l, refill s r p n = ({ s with control := c }, l) ∧ RefillStep r n c l := by
  unfold refill
  by_cases h : r.inFlight.length < p
  · rw [if_pos h]
    exact ⟨_, _, rfl, .nextBatch p h⟩
  · rw [if_neg h]
    obtain ⟨c, l, heq, hr, -⟩ := afterRefill_spec s r n
    exact ⟨c, l, heq, hr⟩

/-- The launched units join the pool behind those already in flight. -/
theorem launchBatch_fst (p : ℕ) : ∀ (ids inFlight : List String),
    (launchBatch p inFlight ids).1 = inFlight ++ (launchBatch p inFlight ids).2 := by
  intro ids
  induction ids with
  | nil => intro inFlight; simp [launchBatch]
  | cons id ids ih =>
    intro inFlight
    rw [launchBatch]
    by_cases hp : p ≤ inFlight.length
    · simp [if_pos hp]
    · rw [if_neg hp]
      by_cases hid : id ∈ inFlight
      · rw [if_pos hid]
        exact ih inFlight
      · rw [if_neg hid]
        have := ih (inFlight ++ [id])
        simpa using this

/-- Every signal `drainSignals` reads was buffered. -/
theorem mem_drained {signals : Signal → ℕ} {a : Action} (h : a ∈ drained signals) :
    ∃ x, a = .received .drain x ∧ 0 < signals x := by
  simp only [drained, List.mem_flatMap, List.mem_replicate] at h
  obtain ⟨x, -, hn, rfl⟩ := h
  exact ⟨x, rfl, Nat.pos_of_ne_zero hn⟩

theorem mem_drained_of_pos {signals : Signal → ℕ} {x : Signal} (h : 0 < signals x) :
    .received .drain x ∈ drained signals := by
  simp only [drained, List.mem_flatMap, List.mem_replicate]
  exact ⟨x, by cases x <;> simp [drainOrder], Nat.ne_of_gt h, rfl⟩

/-- A resumed generation starts at the head of the drain loop. -/
theorem continueAsNew_true (s : State) :
    continueAsNew s true =
      ({ input := { s.input with midRun := true }, now := s.now, signals := fun _ => 0,
         control := .capacity (.init s.now) },
        [.continuedAsNew true, .started .capacity]) := by
  simp [continueAsNew, startGeneration, runConnection, drainLoop, RunState.init]

/-- A fresh generation starts at the head of the idle loop. -/
theorem continueAsNew_false (s : State) :
    continueAsNew s false =
      ({ input := { s.input with midRun := false }, now := s.now, signals := fun _ => 0,
         control := .getSchedule },
        [.continuedAsNew false, .started .getSyncSchedule]) := by
  simp [continueAsNew, startGeneration, enterIdle]

/-! ### Failing -/

/-- A control activity has failed for good. -/
def Event.failsControl : Event → Bool
  | .startRunDone (.error _) | .discoverDone (.error _) | .capacityDone (.error _)
  | .batchDone (.error _) | .settleDone (.error _) => true
  | _ => false

/-- A control that belongs to a run has not failed. -/
theorem ne_failed_of_run {c : Control} {r : RunState} (h : c.run? = some r) : c ≠ .failed := by
  rintro rfl
  cases h

theorem finishRun_not_failed (s : State) (r : RunState) : (finishRun s r).1.control ≠ .failed := by
  unfold finishRun
  split
  · unfold runReturned
    split <;> exact nofun
  · split
    · rw [continueAsNew_false]
      exact nofun
    · unfold runReturned
      split
      · exact nofun
      · exact nofun

/-- **A workflow in a run fails only because a control activity has failed for good.** -/
theorem failsControl_of_failed {s s' : State} {e : Event} {as : List Action} {r : RunState}
    (h : step s e = some (s', as)) (hfailed : s'.control = .failed)
    (hrun : s.control.run? = some r) : e.failsControl = true := by
  -- a result that is no error leads on within the run, or to its end
  have hnot : ∀ {q : State × List Action}, some q = some (s', as) → q.1.control = .failed := by
    intro q hq
    cases hq
    exact hfailed
  cases e with
  | startRunDone res =>
    cases res with
    | error t => rfl
    | ok v =>
      cases hc : s.control with
      | startRun r₀ =>
        simp only [step, hc] at h
        cases hnot h
      | _ => simp [step, hc] at h
  | discoverDone res =>
    cases res with
    | error t => rfl
    | ok n =>
      cases hc : s.control with
      | discover r₀ =>
        simp only [step, hc] at h
        obtain ⟨c, l, heq, hd⟩ := drainLoop_spec s r₀
        rw [heq] at h
        exact absurd (hnot h) (ne_failed_of_run hd.run?_eq)
      | refresh =>
        rw [hc] at hrun
        cases hrun
      | _ => simp [step, hc] at h
  | capacityDone res =>
    cases res with
    | error t => rfl
    | ok p =>
      cases hc : s.control with
      | capacity r₀ =>
        simp only [step, hc] at h
        obtain ⟨c, l, heq, hd⟩ := refill_spec s r₀ (capacityP p) 0
        rw [heq] at h
        exact absurd (hnot h) (ne_failed_of_run hd.run?_eq)
      | _ => simp [step, hc] at h
  | batchDone res =>
    cases res with
    | error t => rfl
    | ok ids =>
      cases hc : s.control with
      | nextBatch r₀ p n =>
        simp only [step, hc] at h
        have hnext := hnot h
        dsimp only at hnext
        split at hnext
        · obtain ⟨c, l, heq, hd, -⟩ := afterRefill_spec s r₀ n
          rw [heq] at hnext
          exact absurd hnext (ne_failed_of_run hd.run?_eq)
        · obtain ⟨c, l, heq, hd⟩ := refill_spec s
            { r₀ with inFlight := (launchBatch p r₀.inFlight ids).1 } p
            (n + (launchBatch p r₀.inFlight ids).2.length)
          rw [heq] at hnext
          exact absurd hnext (ne_failed_of_run hd.run?_eq)
      | _ => simp [step, hc] at h
  | settleDone res =>
    cases res with
    | error t => rfl
    | ok st =>
      cases hc : s.control with
      | settle r₀ =>
        simp only [step, hc] at h
        exact absurd (hnot h) (finishRun_not_failed s r₀)
      | _ => simp [step, hc] at h
  | unitDone x res =>
    cases hc : s.control with
    | select r₀ =>
      simp only [step, hc] at h
      split at h
      · have hnext := hnot h
        unfold boundary at hnext
        dsimp only at hnext
        split at hnext
        · rw [continueAsNew_true] at hnext
          cases hnext
        · obtain ⟨c, l, heq, hd⟩ := drainLoop_spec { s with signals := fun _ => 0 }
            (r₀.cross x s.signals s.now)
          rw [heq] at hnext
          exact absurd hnext (ne_failed_of_run hd.run?_eq)
      · cases h
    | _ => simp [step, hc] at h
  | signal x =>
    simp only [step] at h
    split at h
    · cases h
    · rw [hnot h] at hrun
      cases hrun
  | tick d =>
    rw [hnot h] at hrun
    cases hrun
  | scheduleDone res | receive x | timerFired =>
    cases hc : s.control with
    | getSchedule | idle _ =>
      rw [hc] at hrun
      cases hrun
    | _ => simp [step, hc] at h

/-! ### One step, by cases -/

/-- One step of the workflow: how it is resumed, where it blocks next, and what it
does in between. -/
inductive Transition (s : State) : Event → State → List Action → Prop
  | signal (x : Signal) : s.control.ended = false →
      Transition s (.signal x)
        { s with signals := Function.update s.signals x (s.signals x + 1) } []
  | tick (d : Time) : Transition s (.tick d) { s with now := s.now + d } []
  | park (r : Except ErrType ScheduleResult) (timer : Option Time) :
      s.control = .getSchedule →
      Transition s (.scheduleDone r) { s with control := .idle timer } [.parked]
  | trigger (timer : Option Time) : s.control = .idle timer →
      Transition s (.receive .triggerSync)
        { s.read .triggerSync with control := .startRun (.init s.now) }
        [.received .idle .triggerSync, .started .startRun]
  | due (timer : Option Time) : s.control = .idle timer →
      Transition s .timerFired { s with control := .startRun (.init s.now) }
        [.timerFired, .started .startRun]
  | wake (timer : Option Time) (x : Signal) (c : Control) (a : ActivityName) :
      s.control = .idle timer → x ≠ .triggerSync → x ≠ .disconnect → a ≠ .startRun →
      c = .refresh ∧ a = .discoverUnits ∨ c = .getSchedule ∧ a = .getSyncSchedule →
      Transition s (.receive x) { s.read x with control := c }
        [.received .idle x, .started a]
  | disconnected (timer : Option Time) : s.control = .idle timer →
      Transition s (.receive .disconnect) { s.read .disconnect with control := .completed }
        [.received .idle .disconnect, .completed]
  | refreshed (r : Except ErrType ℕ) : s.control = .refresh →
      Transition s (.discoverDone r) { s with control := .getSchedule }
        [.started .getSyncSchedule]
  | runStarted (r : RunState) : s.control = .startRun r →
      Transition s (.startRunDone (.ok ())) { s with control := .discover r }
        [.started .discoverUnits]
  | discovered (r : RunState) (n : ℕ) (c : Control) (l : List Action) :
      s.control = .discover r → DrainStep r c l →
      Transition s (.discoverDone (.ok n)) { s with control := c } l
  | refilling (r : RunState) (p : ℤ) (c : Control) (l : List Action) :
      s.control = .capacity r → RefillStep r 0 c l →
      Transition s (.capacityDone (.ok p)) { s with control := c } l
  | launching (r : RunState) (p n : ℕ) (ids : List String) (c : Control) (l : List Action) :
      s.control = .nextBatch r p n →
      RefillStep { r with inFlight := (launchBatch p r.inFlight ids).1 }
        (n + (launchBatch p r.inFlight ids).2.length) c l →
      -- a batch that launches nothing ends the refill
      ((launchBatch p r.inFlight ids).2 = [] → ∀ r' p' n', c ≠ .nextBatch r' p' n') →
      Transition s (.batchDone (.ok ids)) { s with control := c }
        ((launchBatch p r.inFlight ids).2.map .launched ++ l)
  | crossed (r : RunState) (id : String) (res : Except ErrType SyncResult) (c : Control)
      (l : List Action) :
      s.control = .select r → id ∈ r.inFlight →
      ¬ ((r.cross id s.signals s.now).stoppingCAN = true ∧
        (r.cross id s.signals s.now).inFlight = []) →
      DrainStep (r.cross id s.signals s.now) c l →
      Transition s (.unitDone id res) { s with signals := fun _ => 0, control := c }
        (drained s.signals ++ l)
  | resumed (r : RunState) (id : String) (res : Except ErrType SyncResult) :
      s.control = .select r → id ∈ r.inFlight →
      (r.cross id s.signals s.now).stoppingCAN = true →
      (r.cross id s.signals s.now).inFlight = [] →
      Transition s (.unitDone id res)
        { input := { s.input with midRun := true }, now := s.now, signals := fun _ => 0,
          control := .capacity (.init s.now) }
        (drained s.signals ++ [.continuedAsNew true, .started .capacity])
  | ended (r : RunState) (st : ConnectionStatus) : s.control = .settle r →
      r.disconnectRequested = true ∨
        s.input.midRun = true ∧ ¬ (r.rerunRequested = true ∧ r.stopRequested = false) →
      Transition s (.settleDone (.ok st)) { s with control := .completed } [.completed]
  | rerun (r : RunState) (st : ConnectionStatus) : s.control = .settle r →
      r.disconnectRequested = false → r.rerunRequested = true → r.stopRequested = false →
      Transition s (.settleDone (.ok st))
        { input := { s.input with midRun := false }, now := s.now, signals := fun _ => 0,
          control := .getSchedule }
        [.continuedAsNew false, .started .getSyncSchedule]
  | rested (r : RunState) (st : ConnectionStatus) : s.control = .settle r →
      s.input.midRun = false → r.disconnectRequested = false →
      ¬ (r.rerunRequested = true ∧ r.stopRequested = false) →
      Transition s (.settleDone (.ok st)) { s with control := .getSchedule }
        [.started .getSyncSchedule]
  | failed (e : Event) (r : RunState) : s.control.run? = some r →
      (∀ r', s.control ≠ .select r') →
      Transition s e { s with control := .failed } [.failed]

/-- A finished run goes back to the idle loop, continues as new, or ends. -/
theorem finishRun_transition {s : State} {r : RunState} (hc : s.control = .settle r)
    (st : ConnectionStatus) :
    Transition s (.settleDone (.ok st)) (finishRun s r).1 (finishRun s r).2 := by
  unfold finishRun
  by_cases hd : r.disconnectRequested = true
  · rw [if_pos hd]
    have hend : runReturned s true = complete s := by unfold runReturned; split <;> rfl
    rw [hend]
    exact .ended r st hc (Or.inl hd)
  · rw [if_neg hd]
    by_cases hr : (r.rerunRequested && !r.stopRequested) = true
    · rw [if_pos hr, continueAsNew_false]
      simp only [Bool.and_eq_true, Bool.not_eq_true'] at hr
      exact .rerun r st hc (by simpa using hd) hr.1 hr.2
    · rw [if_neg hr, runReturned]
      by_cases hm : s.input.midRun = true
      · rw [if_pos hm]
        exact .ended r st hc (Or.inr ⟨hm, by simpa using hr⟩)
      · rw [if_neg hm, if_neg (by decide)]
        exact .rested r st hc (by simpa using hm) (by simpa using hd) (by simpa using hr)

/-- A completion boundary goes back to the loop or resumes in a new generation. -/
theorem boundary_transition {s : State} {r : RunState} (hc : s.control = .select r)
    {id : String} (hid : id ∈ r.inFlight) (res : Except ErrType SyncResult) :
    Transition s (.unitDone id res) (boundary s r id).1 (boundary s r id).2 := by
  unfold boundary
  by_cases hcan : (r.cross id s.signals s.now).stoppingCAN = true ∧
      (r.cross id s.signals s.now).inFlight = []
  · simp only [if_pos hcan, continueAsNew_true]
    exact .resumed r id res hc hid hcan.1 hcan.2
  · simp only [if_neg hcan]
    obtain ⟨c, l, heq, hd⟩ := drainLoop_spec { s with signals := fun _ => 0 }
      (r.cross id s.signals s.now)
    rw [heq]
    exact .crossed r id res c l hc hid hcan hd

/-- A batch is launched and the refill goes on. -/
theorem batch_transition {s : State} {r : RunState} {p n : ℕ} (hc : s.control = .nextBatch r p n)
    (ids : List String) {s' : State} {as : List Action}
    (h : step s (.batchDone (.ok ids)) = some (s', as)) :
    Transition s (.batchDone (.ok ids)) s' as := by
  simp only [step, hc, Option.some.injEq, Prod.mk.injEq] at h
  obtain ⟨rfl, rfl⟩ := h
  by_cases hl : (launchBatch p r.inFlight ids).2 = []
  · simp only [if_pos hl]
    obtain ⟨c, l, heq, hr, hnext⟩ := afterRefill_spec s r n
    have hsame : { r with inFlight := (launchBatch p r.inFlight ids).1 } = r := by
      rw [launchBatch_fst, hl, List.append_nil]
    rw [heq]
    refine .launching r p n ids c l hc ?_ fun _ => hnext
    rw [hsame, hl, List.length_nil, Nat.add_zero]
    exact hr
  · simp only [if_neg hl]
    obtain ⟨c, l, heq, hr⟩ := refill_spec s
      { r with inFlight := (launchBatch p r.inFlight ids).1 } p
      (n + (launchBatch p r.inFlight ids).2.length)
    rw [heq]
    exact .launching r p n ids c l hc hr fun hnil => absurd hnil hl

/-- An activity that fails ends the workflow with its error. -/
private theorem fail_transition {s s' : State} {r : RunState} {e : Event} {as : List Action}
    (hr : s.control.run? = some r) (hsel : ∀ r', s.control ≠ .select r')
    (h : some (fail s) = some (s', as)) : Transition s e s' as := by
  obtain ⟨rfl, rfl⟩ : _ ∧ _ := by simpa [fail] using h
  exact .failed e r hr hsel

/-- The idle selector's receive cases. -/
theorem receive_transition {s : State} {timer : Option Time} (hc : s.control = .idle timer)
    (hm : s.input.midRun = false) (x : Signal) :
    Transition s (.receive x) (idleReceive (s.read x) x).1
      (.received .idle x :: (idleReceive (s.read x) x).2) := by
  have hm' : (s.read .triggerSync).input.midRun = false := hm
  cases x with
  | triggerSync =>
    simp only [idleReceive, runConnection, hm']
    exact .trigger timer hc
  | disconnect => exact .disconnected timer hc
  | refreshCatalog =>
    exact .wake timer _ _ _ hc (by decide) (by decide) (by decide) (Or.inl ⟨rfl, rfl⟩)
  | updateSelection | updateSchedule | stopSync =>
    exact .wake timer _ _ _ hc (by decide) (by decide) (by decide) (Or.inr ⟨rfl, rfl⟩)

/-- **Every step is a transition**, in a generation whose early blocking points
belong to a fresh run. -/
theorem step_transition {s s' : State} {e : Event} {as : List Action}
    (hm : s.control.beforeDrain = true → s.input.midRun = false)
    (h : step s e = some (s', as)) : Transition s e s' as := by
  cases e with
  -- the execution that has ended takes no more signals
  | signal x =>
    by_cases hend : s.control.ended = true
    · simp [step, hend] at h
    · simp only [step, hend] at h
      obtain ⟨rfl, rfl⟩ : _ ∧ _ := by simpa using h
      exact .signal x (by simpa using hend)
  | tick d =>
    obtain ⟨rfl, rfl⟩ : _ ∧ _ := by simpa [step] using h
    exact .tick d
  | scheduleDone r =>
    cases hc : s.control with
    | getSchedule =>
      obtain ⟨rfl, rfl⟩ : _ ∧ _ := by simpa [step, hc, park] using h
      exact .park r _ hc
    | _ => simp [step, hc] at h
  | receive x =>
    cases hc : s.control with
    | idle timer =>
      by_cases hx : 0 < s.signals x
      · obtain ⟨rfl, rfl⟩ : _ ∧ _ := by simpa [step, hc, hx] using h
        exact receive_transition hc (hm (by rw [hc]; rfl)) x
      · simp [step, hc, hx] at h
    | _ => simp [step, hc] at h
  -- the idle loop belongs to a fresh run, and a due timer starts it
  | timerFired =>
    cases hc : s.control with
    | idle timer =>
      cases timer with
      | none => simp [step, hc] at h
      | some due =>
        by_cases hdue : due ≤ s.now
        · have hrun := hm (by rw [hc]; rfl)
          obtain ⟨rfl, rfl⟩ : _ ∧ _ := by
            simpa [step, hc, hdue, runConnection, hrun] using h
          exact .due (some due) hc
        · simp [step, hc, hdue] at h
    | _ => simp [step, hc] at h
  | startRunDone r =>
    cases hc : s.control with
    | startRun r' =>
      cases r with
      | ok u =>
        obtain ⟨rfl, rfl⟩ : _ ∧ _ := by simpa [step, hc] using h
        exact .runStarted r' hc
      | error e =>
        simp only [step, hc] at h
        exact fail_transition (by rw [hc]; rfl) (by simp [hc]) h
    | _ => simp [step, hc] at h
  -- discovery is called in the idle loop, to refresh the catalog, and at the start of a run
  | discoverDone r =>
    cases hc : s.control with
    | refresh =>
      obtain ⟨rfl, rfl⟩ : _ ∧ _ := by cases r <;> simpa [step, hc, enterIdle] using h
      exact .refreshed r hc
    | discover r' =>
      cases r with
      | ok n =>
        simp only [step, hc, Option.some.injEq] at h
        obtain ⟨c, l, heq, hd⟩ := drainLoop_spec s r'
        rw [heq, Prod.mk.injEq] at h
        obtain ⟨rfl, rfl⟩ := h
        exact .discovered r' n c l hc hd
      | error e =>
        simp only [step, hc] at h
        exact fail_transition (by rw [hc]; rfl) (by simp [hc]) h
    | _ => simp [step, hc] at h
  | capacityDone r =>
    cases hc : s.control with
    | capacity r' =>
      cases r with
      | ok p =>
        simp only [step, hc, Option.some.injEq] at h
        obtain ⟨c, l, heq, hd⟩ := refill_spec s r' (capacityP p) 0
        rw [heq, Prod.mk.injEq] at h
        obtain ⟨rfl, rfl⟩ := h
        exact .refilling r' p c l hc hd
      | error e =>
        simp only [step, hc] at h
        exact fail_transition (by rw [hc]; rfl) (by simp [hc]) h
    | _ => simp [step, hc] at h
  | batchDone r =>
    cases hc : s.control with
    | nextBatch r' p n =>
      cases r with
      | ok ids => exact batch_transition hc ids h
      | error e =>
        simp only [step, hc] at h
        exact fail_transition (by rw [hc]; rfl) (by simp [hc]) h
    | _ => simp [step, hc] at h
  -- the completion of a unit crosses the boundary, where the signals are drained
  | unitDone id res =>
    cases hc : s.control with
    | select r =>
      by_cases hid : id ∈ r.inFlight
      · have ht := boundary_transition hc hid res
        simp only [step, hc, if_pos hid, Option.some.injEq] at h
        rw [h] at ht
        exact ht
      · simp [step, hc, hid] at h
    | _ => simp [step, hc] at h
  | settleDone r =>
    cases hc : s.control with
    | settle r' =>
      cases r with
      | ok st =>
        have ht := finishRun_transition hc st
        simp only [step, hc, Option.some.injEq] at h
        rw [h] at ht
        exact ht
      | error e =>
        simp only [step, hc] at h
        exact fail_transition (by rw [hc]; rfl) (by simp [hc]) h
    | _ => simp [step, hc] at h

/-! ### The invariant of a generation -/

/-- A disconnect also requests a stop. -/
def RunState.Wf (r : RunState) : Prop :=
  r.disconnectRequested = true → r.stopRequested = true

/-- What holds at each blocking point: only a fresh generation visits the points
before the drain loop, a refill is made only while nothing asks the run to stop,
and the selector waits only for units that are in flight. -/
def Control.Wf (midRun : Bool) : Control → Prop
  | .getSchedule | .idle _ | .refresh => midRun = false
  | .startRun r | .discover r => midRun = false ∧ ∃ t, r = .init t
  | .capacity r => r.Wf ∧ r.stopRequested = false ∧ r.stoppingCAN = false
  | .nextBatch r _ n =>
      r.Wf ∧ r.stopRequested = false ∧ r.stoppingCAN = false ∧ (n ≠ 0 → r.inFlight ≠ [])
  | .select r => r.Wf ∧ r.inFlight ≠ []
  | .settle r => r.Wf ∧ r.inFlight = []
  | .completed | .failed => True

/-- A state whose blocking point fits its generation. -/
def Wf (s : State) : Prop := s.control.Wf s.input.midRun

theorem Wf.midRun {s : State} (h : Wf s) (hb : s.control.beforeDrain = true) :
    s.input.midRun = false := by
  cases hc : s.control <;> simp_all [Wf, Control.Wf, Control.beforeDrain]

@[simp] theorem RunState.init_wf (t : Time) : (RunState.init t).Wf := by
  simp [RunState.Wf, RunState.init]

theorem RunState.Wf.cross {r : RunState} (h : r.Wf) (id : String) (signals : Signal → ℕ)
    (now : Time) : (r.cross id signals now).Wf := by
  unfold RunState.Wf at h ⊢
  simp only [RunState.cross, RunState.checkBound, drainSignals, RunState.unitDone,
    Bool.or_eq_true, decide_eq_true_eq]
  tauto

theorem DrainStep.wf {r : RunState} {c : Control} {l : List Action} (h : DrainStep r c l)
    (hr : r.Wf) (midRun : Bool) : c.Wf midRun := by
  cases h with
  | capacity hs hcan => exact ⟨hr, hs, hcan⟩
  | select hf => exact ⟨hr, hf⟩
  | settle hf => exact ⟨hr, hf⟩

theorem RefillStep.wf {r : RunState} {n : ℕ} {c : Control} {l : List Action}
    (h : RefillStep r n c l) (hr : r.Wf) (hs : r.stopRequested = false)
    (hcan : r.stoppingCAN = false) (hn : n ≠ 0 → r.inFlight ≠ []) (midRun : Bool) :
    c.Wf midRun := by
  cases h with
  | nextBatch p => exact ⟨hr, hs, hcan, hn⟩
  | select hf => exact ⟨hr, hf.elim id hn⟩
  | settle hf => exact ⟨hr, hf⟩

/-- A transition keeps the invariant. -/
theorem Transition.wf {s s' : State} {e : Event} {as : List Action} (h : Transition s e s' as)
    (hs : Wf s) : Wf s' := by
  unfold Wf at hs ⊢
  cases h with
  | signal x hend => exact hs
  | tick d => exact hs
  | park r timer hc => rwa [hc] at hs
  | trigger timer hc => rw [hc] at hs; exact ⟨hs, _, rfl⟩
  | due timer hc => rw [hc] at hs; exact ⟨hs, _, rfl⟩
  | wake timer x c a hc _ _ _ hto =>
    rw [hc] at hs
    obtain ⟨rfl, -⟩ | ⟨rfl, -⟩ := hto <;> exact hs
  | disconnected timer hc => trivial
  | refreshed r hc => rwa [hc] at hs
  | runStarted r hc => rwa [hc] at hs
  | discovered r n c l hc hd =>
    rw [hc] at hs
    obtain ⟨-, t, rfl⟩ := hs
    exact hd.wf (RunState.init_wf t) _
  | refilling r p c l hc hd =>
    rw [hc] at hs
    exact hd.wf hs.1 hs.2.1 hs.2.2 (by simp) _
  | launching r p n ids c l hc hd =>
    rw [hc] at hs
    obtain ⟨hr, hstop, hcan, hn⟩ := hs
    refine hd.wf hr hstop hcan (fun h => ?_) _
    -- either an earlier batch of this refill launched something, or this one did
    rw [launchBatch_fst]
    by_cases hz : n = 0
    · have : (launchBatch p r.inFlight ids).2 ≠ [] := by
        rw [hz, Nat.zero_add] at h
        exact List.ne_nil_of_length_pos (Nat.pos_of_ne_zero h)
      simp [this]
    · simp [hn hz]
  | crossed r id res c l hc hid hnot hd =>
    rw [hc] at hs
    exact hd.wf (hs.1.cross id _ _) _
  | resumed r id res hc => exact ⟨RunState.init_wf _, rfl, rfl⟩
  | ended r st hc => trivial
  | rerun r st hc => rfl
  | rested r st hc hm hd hr => exact hm
  | failed e r hr hsel => trivial

/-- Only a completion boundary reads signals mid-run, and only buffered ones. -/
theorem Transition.of_drained {s s' : State} {e : Event} {as : List Action}
    (h : Transition s e s' as) {x : Signal} (hx : .received .drain x ∈ as) :
    0 < s.signals x ∧ ∃ r, s.control = .select r := by
  have hread : ∀ l : List Action, .received .drain x ∈ drained s.signals ++ l →
      .received .drain x ∉ l → 0 < s.signals x := by
    intro l hmem hl
    rcases List.mem_append.mp hmem with hmem | hmem
    · obtain ⟨y, hy, hpos⟩ := mem_drained hmem
      obtain ⟨-, rfl⟩ := Action.received.inj hy
      exact hpos
    · exact absurd hmem hl
  cases h with
  | crossed r id res c l hc hid hnot hd =>
    exact ⟨hread l hx (by cases hd <;> simp), r, hc⟩
  | resumed r id res hc => exact ⟨hread _ hx (by simp), r, hc⟩
  | discovered r n c l hc hd => cases hd <;> simp at hx
  | refilling r p c l hc hd => cases hd <;> simp at hx
  | launching r p n ids c l hc hd => cases hd <;> simp at hx
  | _ => simp at hx

theorem wf_fresh (connectionID : Uuid) (tenantID connectorID : String) (now : Time) :
    Wf (.fresh connectionID tenantID connectorID now) := rfl

/-- A step from a well-formed state is a transition to a well-formed one. -/
theorem Wf.step {s s' : State} {e : Event} {as : List Action} (hs : Wf s)
    (h : connectionWorkflow.step s e = some (s', as)) : Transition s e s' as ∧ Wf s' := by
  have ht : Transition s e s' as := step_transition hs.midRun h
  exact ⟨ht, ht.wf hs⟩

/-- **The invariant rule of the workflow**: a property of the state and the trace
that every transition between well-formed states keeps holds along every run of a
fresh execution. -/
theorem run_invariant {J : State → List Action → Prop} {C : State → List Action → Event → Prop}
    {connectionID : Uuid} {tenantID connectorID : String} {t : Time} {es : List Event} {s : State}
    {tr : List Action}
    (h : connectionWorkflow.RunWhere C (.fresh connectionID tenantID connectorID t) es s tr)
    (init : J (.fresh connectionID tenantID connectorID t) [])
    (keep : ∀ s tr e s' as, Wf s → Wf s' → J s tr → C s tr e → Transition s e s' as →
      J s' (tr ++ as)) : Wf s ∧ J s tr := by
  refine h.invariant (J := fun s tr => Wf s ∧ J s tr) ⟨wf_fresh _ _ _ _, init⟩ ?_
  intro s tr e s' as ⟨hwf, hJ⟩ hC hstep
  obtain ⟨ht, hwf'⟩ := hwf.step hstep
  exact ⟨hwf', keep s tr e s' as hwf hwf' hJ hC ht⟩

end Workflow
end Hivebook
