import Hivebook.Workflow.Steps

/-!
# Stop and disconnect

`drainSignals` turns a `StopSync` or a `Disconnect` into locals of
`runConnection`.  While they live, nothing more is launched: the drain loop skips
its refills, waits for what is in flight, settles, and a disconnect then ends the
workflow.

The locals die with the generation.  When the last in-flight unit of a stopped run
completes after a history bound has tripped, the bounded exit is taken before the
stop is looked at, and the resumed generation, which knows nothing of it, refills
its pool.  `stopsInTime` rules out that one step; along every run without it a
stop and a disconnect are final.

## Main definitions

* `StopFinal`, `DisconnectFinal` — what the two signals promise of a trace.
* `WindsDown` — the workflow is bound to end, in a known number of resumptions.
* `stopsInTime` — no bound has tripped when a stopped run's last unit completes.

## Main results

* `stop_and_disconnect_final` — **both promises hold along every run whose steps
  stop in time.**
-/

namespace Hivebook
namespace Workflow

/-! ### What the signals promise -/

/-- A run is started afresh by a trigger or the due timer. -/
def FreshStart (l : List Action) : Prop :=
  ∃ m a m', l = m ++ a :: .started .startRun :: m' ∧
    (a = .received .idle .triggerSync ∨ a = .timerFired)

/-- Once `drainSignals` has consumed a `StopSync`, nothing is launched until a
trigger or the due timer starts a fresh run. -/
def StopFinal (tr : List Action) : Prop :=
  ∀ pre mid id post, tr = pre ++ .received .drain .stopSync :: mid ++ .launched id :: post →
    FreshStart mid

/-- What a disconnected workflow never does again: launch a unit, park in its idle
wait, or go on in another generation. -/
def reopens : Action → Prop
  | .launched _ | .parked | .continuedAsNew _ => True
  | _ => False

/-- The workflow has ended. -/
def isEnd : Action → Prop
  | .completed | .failed => True
  | _ => False

/-- Once `drainSignals` has consumed a `Disconnect`, nothing is launched by this or
any later generation, and the workflow ends only after a settle. -/
def DisconnectFinal (tr : List Action) : Prop :=
  ∀ pre post, tr = pre ++ .received .drain .disconnect :: post →
    (∀ a ∈ post, ¬ reopens a) ∧
      ∀ mid b rest, post = mid ++ b :: rest → isEnd b → .started .settleConnection ∈ mid

/-- How many resumptions separate a workflow that is winding down from its end. -/
def Control.unfinished : Control → Option ℕ
  | .select r => some (r.inFlight.length + 1)
  | .settle _ => some 1
  | .completed | .failed => some 0
  | _ => none

/-- The event resumes the workflow; a signal or the passing of time does not. -/
def Event.resumes : Event → Bool
  | .signal _ | .tick _ => false
  | _ => true

/-- The last in-flight unit of the run completes. -/
def RunState.lastUnit (r : RunState) (id : String) : Bool := r.inFlight.all (· == id)

/-- A stop or a disconnect was consumed earlier in the run, or is consumed now. -/
def stopping (s : State) (r : RunState) : Bool :=
  r.stopRequested || decide (0 < s.signals .stopSync) || decide (0 < s.signals .disconnect)

/-- A history bound tripped earlier in the run, or trips now. -/
def boundTripped (s : State) (r : RunState) : Bool :=
  r.stoppingCAN || shouldContinueAsNew s.now (r.processed + 1) r.start

/-- When the last in-flight unit of a stopped run completes, no history bound has
tripped. -/
def stopsInTime (s : State) (_ : List Action) : Event → Bool
  | .unitDone id _ =>
      match s.control with
      | .select r => !(r.lastUnit id && stopping s r && boundTripped s r)
      | _ => true
  | _ => true

/-- The workflow is bound to end: while it has not, something can resume it, and
every resumption that stops in time brings its end nearer. -/
def WindsDown (s : State) (tr : List Action) : Prop :=
  ∃ n, s.control.unfinished = some n ∧
    (n = 0 ∧ s.control.ended = true ∨
      ∃ e s' as, e.resumes = true ∧ connectionWorkflow.step s e = some (s', as)) ∧
    ∀ e s' as, e.resumes = true → stopsInTime s tr e = true →
      connectionWorkflow.step s e = some (s', as) → ∃ n' < n, s'.control.unfinished = some n'

/-! ### The flags across a completion boundary -/

theorem cross_stopRequested (s : State) (r : RunState) (id : String) :
    (r.cross id s.signals s.now).stopRequested = stopping s r := rfl

theorem cross_stoppingCAN (s : State) (r : RunState) (id : String) :
    (r.cross id s.signals s.now).stoppingCAN = boundTripped s r := rfl

theorem cross_disconnectRequested (s : State) (r : RunState) (id : String) :
    (r.cross id s.signals s.now).disconnectRequested =
      (r.disconnectRequested || decide (0 < s.signals .disconnect)) := rfl

theorem cross_inFlight (s : State) (r : RunState) (id : String) :
    (r.cross id s.signals s.now).inFlight = r.inFlight.filter (· ≠ id) := rfl

theorem cross_inFlight_eq_nil (s : State) (r : RunState) (id : String) :
    (r.cross id s.signals s.now).inFlight = [] ↔ r.lastUnit id = true := by
  simp [cross_inFlight, RunState.lastUnit, List.filter_eq_nil_iff]

/-- Resuming in a new generation in time drops no stop. -/
theorem not_stopping_of_resumed {s : State} {r : RunState} {id : String}
    {res : Except ErrType SyncResult} {tr : List Action}
    (hC : stopsInTime s tr (.unitDone id res) = true) (hc : s.control = .select r)
    (hcan : (r.cross id s.signals s.now).stoppingCAN = true)
    (hf : (r.cross id s.signals s.now).inFlight = []) : stopping s r = false := by
  rw [cross_stoppingCAN] at hcan
  rw [cross_inFlight_eq_nil] at hf
  simpa [stopsInTime, hc, hcan, hf] using hC

/-! ### The three invariants -/

/-- While a drained stop is not followed by a `StartRun`, the run is stopped. -/
def StopInv (s : State) (tr : List Action) : Prop :=
  Guarded (· = .received .drain .stopSync) (· = .started .startRun)
    (fun a => ∃ id, a = .launched id) tr
    (∀ r, s.control.run? = some r → r.stopRequested = true)

/-- The blocking points a disconnected workflow can still be at. -/
def Control.disconnecting : Control → Bool
  | .select r | .settle r => r.disconnectRequested
  | .completed | .failed => true
  | _ => false

/-- After a drained disconnect the workflow is winding down. -/
def DisconnectInv (s : State) (tr : List Action) : Prop :=
  Guarded (· = .received .drain .disconnect) (fun _ => False) reopens tr
    (s.control.disconnecting = true)

/-- After a drained disconnect and before the settle, units are in flight. -/
def SettleInv (s : State) (tr : List Action) : Prop :=
  Guarded (· = .received .drain .disconnect) (· = .started .settleConnection) isEnd tr
    (∃ r, s.control = .select r ∧ r.disconnectRequested = true)

/-- The drain loop launches nothing, reads nothing and ends nothing. -/
theorem DrainStep.labels {r : RunState} {c : Control} {l : List Action} (h : DrainStep r c l) :
    ∀ a ∈ l, a = .started .capacity ∨ a = .started .settleConnection := by
  cases h <;> simp

theorem StopInv.step {s s' : State} {e : Event} {tr as : List Action} (h : StopInv s tr)
    (hwf : Wf s) (hC : stopsInTime s tr e = true) (ht : Transition s e s' as) :
    StopInv s' (tr ++ as) := by
  unfold StopInv at h ⊢
  -- a stop is read by the drain alone, which is the boundary of a run
  have hread : ∀ a ∈ as, a = .received .drain .stopSync →
      0 < s.signals .stopSync ∧ ∃ r, s.control = .select r := by
    intro a ha hopen
    rw [hopen] at ha
    exact ht.of_drained ha
  cases ht with
  | signal x hend | tick d => simpa using h
  | park r timer hc => exact h.quiet (by simp) (by simp [Control.run?]) (by simp)
  | trigger timer hc =>
    exact h.close (l := [.received .idle .triggerSync]) (by simp) rfl (by simp) (by simp)
  | due timer hc => exact h.close (l := [.timerFired]) (by simp) rfl (by simp) (by simp)
  | wake timer x c a hc _ _ ha hto =>
    refine h.quiet (by simp) (fun _ => ?_) (by simp)
    obtain ⟨rfl, -⟩ | ⟨rfl, -⟩ := hto <;> simp [Control.run?]
  | disconnected timer hc => exact h.quiet (by simp) (by simp [Control.run?]) (by simp)
  | refreshed r hc => exact h.quiet (by simp) (by simp [Control.run?]) (by simp)
  | runStarted r hc =>
    rw [hc] at h
    exact h.quiet (by simp) (fun hs => hs) (by simp)
  | discovered r n c l hc hd =>
    rw [hc] at h
    refine h.quiet ?_ ?_ ?_
    · intro a ha
      rcases hd.labels a ha with rfl | rfl <;> simp
    · intro hs r' hr'
      rw [hd.run?_eq] at hr'
      exact hs r' hr'
    · intro a ha
      rcases hd.labels a ha with rfl | rfl <;> simp
  -- a run that refills has not been told to stop, by the invariant of the control
  | refilling r p c l hc hd =>
    unfold Wf at hwf
    rw [hc] at h hwf
    refine h.vacuous (fun hs => ?_) ?_
    · have := hs r rfl
      simp [hwf.2.1] at this
    · intro a ha hopen
      simpa [hc] using hread a ha hopen
  | launching r p n ids c l hc hd =>
    unfold Wf at hwf
    rw [hc] at h hwf
    refine h.vacuous (fun hs => ?_) ?_
    · have := hs r rfl
      simp [hwf.2.1] at this
    · intro a ha hopen
      simpa [hc] using hread a ha hopen
  -- the boundary keeps what was requested before, and adds what it reads
  | crossed r id res c l hc hid hnot hd =>
    rw [hc] at h
    refine h.quiet ?_ ?_ ?_
    · intro a ha
      rcases List.mem_append.mp ha with ha | ha
      · obtain ⟨x, rfl, -⟩ := mem_drained ha
        simp
      · rcases hd.labels a ha with rfl | rfl <;> simp
    · intro hs r' hr'
      rw [hd.run?_eq, Option.some.injEq] at hr'
      rw [← hr', cross_stopRequested, stopping, hs r rfl]
      rfl
    · intro a ha hopen r' hr'
      rw [hd.run?_eq, Option.some.injEq] at hr'
      rw [← hr', cross_stopRequested, stopping]
      simp [(hread a ha hopen).1]
  | resumed r id res hc hid hcan hf =>
    have hno := not_stopping_of_resumed hC hc hcan hf
    rw [hc] at h
    refine h.vacuous (fun hs => ?_) ?_
    · have := hs r rfl
      simp [stopping, this] at hno
    · intro a ha hopen
      simp [stopping, (hread a ha hopen).1] at hno
  | ended r st hc => exact h.quiet (by simp) (by simp [Control.run?]) (by simp)
  | rerun r st hc => exact h.quiet (by simp) (by simp [Control.run?]) (by simp)
  | rested r st hc hm hd hr => exact h.quiet (by simp) (by simp [Control.run?]) (by simp)
  | failed e r hr hsel => exact h.quiet (by simp) (by simp [Control.run?]) (by simp)

/-- Outside a completion boundary no disconnect is drained. -/
private theorem not_drained {s s' : State} {e : Event} {as : List Action}
    (ht : Transition s e s' as) (hsel : ∀ r, s.control ≠ .select r) :
    ∀ a ∈ as, ¬ a = .received .drain .disconnect := by
  intro a ha hopen
  rw [hopen] at ha
  obtain ⟨-, r, hr⟩ := ht.of_drained ha
  exact hsel r hr

/-- A disconnect consumed before or at a boundary makes the run stop. -/
theorem stopping_of_disconnect {s : State} {r : RunState} (hr : r.Wf)
    (h : r.disconnectRequested = true ∨ 0 < s.signals .disconnect) : stopping s r = true := by
  unfold stopping
  obtain h | h := h
  · simp [hr h]
  · simp [h]

theorem DrainStep.disconnecting {r : RunState} {c : Control} {l : List Action}
    (h : DrainStep r c l) (hr : r.Wf) (hd : r.disconnectRequested = true) :
    c.disconnecting = true := by
  cases h with
  | capacity hs _ =>
    have := hr hd
    simp [hs] at this
  | select _ => exact hd
  | settle _ => exact hd

theorem DisconnectInv.step {s s' : State} {e : Event} {tr as : List Action}
    (h : DisconnectInv s tr) (hwf : Wf s) (hC : stopsInTime s tr e = true)
    (ht : Transition s e s' as) : DisconnectInv s' (tr ++ as) := by
  unfold DisconnectInv at h ⊢
  have hnone := not_drained ht
  -- only the boundary of a run drains a disconnect; the idle loop ends on it
  have hread : ∀ a ∈ as, a = .received .drain .disconnect → 0 < s.signals .disconnect := by
    intro a ha hopen
    rw [hopen] at ha
    exact (ht.of_drained ha).1
  cases ht with
  | signal x hend | tick d => simpa using h
  | park r timer hc | trigger timer hc | due timer hc | wake timer x c a hc
  | disconnected timer hc | refreshed r hc | runStarted r hc | discovered r n c l hc
  | refilling r p c l hc | launching r p n ids c l hc =>
    rw [hc] at h
    exact h.vacuous (by simp [Control.disconnecting]) (hnone (by simp [hc]))
  | rerun r st hc hd | rested r st hc hm hd =>
    rw [hc] at h
    exact h.vacuous (by simp [Control.disconnecting, hd]) (hnone (by simp [hc]))
  | ended r st hc => exact h.quiet (by simp [reopens]) (fun _ => rfl) (by simp)
  | failed e r hr hsel => exact h.quiet (by simp [reopens]) (fun _ => rfl) (by simp)
  | crossed r id res c l hc hid hnot hd =>
    unfold Wf at hwf
    rw [hc] at h hwf
    have hr' := hwf.1.cross id s.signals s.now
    refine h.quiet ?_ (fun hdis => ?_) (fun a ha hopen => ?_)
    · intro a ha
      rcases List.mem_append.mp ha with ha | ha
      · obtain ⟨x, rfl, -⟩ := mem_drained ha
        simp [reopens]
      · rcases hd.labels a ha with rfl | rfl <;> simp [reopens]
    · have hdis' : r.disconnectRequested = true := hdis
      exact hd.disconnecting hr' (by simp [cross_disconnectRequested, hdis'])
    · exact hd.disconnecting hr' (by simp [cross_disconnectRequested, hread a ha hopen])
  | resumed r id res hc hid hcan hf =>
    unfold Wf at hwf
    have hno := not_stopping_of_resumed hC hc hcan hf
    rw [hc] at h hwf
    refine h.vacuous (fun hdis => ?_) (fun a ha hopen => ?_)
    · simp [stopping_of_disconnect hwf.1 (Or.inl hdis)] at hno
    · simp [stopping_of_disconnect hwf.1 (Or.inr (hread a ha hopen))] at hno

theorem SettleInv.step {s s' : State} {e : Event} {tr as : List Action}
    (h : SettleInv s tr) (hwf : Wf s) (hC : stopsInTime s tr e = true)
    (ht : Transition s e s' as) : SettleInv s' (tr ++ as) := by
  unfold SettleInv at h ⊢
  have hnone := not_drained ht
  have hread : ∀ a ∈ as, a = .received .drain .disconnect → 0 < s.signals .disconnect := by
    intro a ha hopen
    rw [hopen] at ha
    exact (ht.of_drained ha).1
  cases ht with
  | signal x hend | tick d => simpa using h
  | park r timer hc | trigger timer hc | due timer hc | wake timer x c a hc
  | disconnected timer hc | refreshed r hc | runStarted r hc | discovered r n c l hc
  | refilling r p c l hc | launching r p n ids c l hc | rerun r st hc | rested r st hc
  | ended r st hc =>
    exact h.vacuous (by simp [hc]) (hnone (by simp [hc]))
  | failed e r hr hsel =>
    exact h.vacuous (fun ⟨r', hr', _⟩ => hsel r' hr') (hnone hsel)
  | crossed r id res c l hc hid hnot hd =>
    unfold Wf at hwf
    rw [hc] at h hwf
    have hlabels : ∀ a ∈ drained s.signals, ¬ isEnd a := by
      intro a ha
      obtain ⟨x, rfl, -⟩ := mem_drained ha
      simp [isEnd]
    cases hd with
    | capacity hs _ =>
      -- the run goes on, so no disconnect was consumed
      rw [cross_stopRequested] at hs
      refine h.vacuous (fun ⟨r₁, hr₁, hdis⟩ => ?_) (fun a ha hopen => ?_)
      · obtain rfl := Control.select.inj hr₁
        simp [stopping_of_disconnect hwf.1 (Or.inl hdis)] at hs
      · simp [stopping_of_disconnect hwf.1 (Or.inr (hread a ha hopen))] at hs
    | select hf =>
      rw [List.append_nil] at hread ⊢
      refine h.quiet hlabels (fun ⟨r₁, hr₁, hdis⟩ => ⟨_, rfl, ?_⟩)
        (fun a ha hopen => ⟨_, rfl, ?_⟩)
      · obtain rfl := Control.select.inj hr₁
        simp [cross_disconnectRequested, hdis]
      · simp [cross_disconnectRequested, hread a ha hopen]
    | settle hf => exact h.close hlabels rfl (by simp [isEnd]) (by simp)
  | resumed r id res hc hid hcan hf =>
    unfold Wf at hwf
    have hno := not_stopping_of_resumed hC hc hcan hf
    rw [hc] at h hwf
    refine h.vacuous (fun ⟨r₁, hr₁, hdis⟩ => ?_) (fun a ha hopen => ?_)
    · obtain rfl := Control.select.inj hr₁
      simp [stopping_of_disconnect hwf.1 (Or.inl hdis)] at hno
    · simp [stopping_of_disconnect hwf.1 (Or.inr (hread a ha hopen))] at hno

/-! ### A run starts only from the idle wait -/

/-- Every `StartRun` comes right after the trigger or the timer that asked for it. -/
def StartsFresh (tr : List Action) : Prop :=
  ∀ pre post, tr = pre ++ .started .startRun :: post →
    ∃ pre' a, pre = pre' ++ [a] ∧ (a = .received .idle .triggerSync ∨ a = .timerFired)

theorem Transition.of_startRun {s s' : State} {e : Event} {as : List Action}
    (h : Transition s e s' as) (hmem : .started .startRun ∈ as) :
    ∃ a, as = [a, .started .startRun] ∧
      (a = .received .idle .triggerSync ∨ a = .timerFired) := by
  have hdrained : .started .startRun ∉ drained s.signals := by
    intro hm
    obtain ⟨x, hx, -⟩ := mem_drained hm
    cases hx
  cases h with
  | trigger timer hc => exact ⟨_, rfl, Or.inl rfl⟩
  | due timer hc => exact ⟨_, rfl, Or.inr rfl⟩
  | wake timer x c a hc _ _ ha => simp [Ne.symm ha] at hmem
  | crossed r id res c l hc hid hnot hd => cases hd <;> simp [hdrained] at hmem
  | resumed r id res hc => simp [hdrained] at hmem
  | discovered r n c l hc hd => cases hd <;> simp at hmem
  | refilling r p c l hc hd => cases hd <;> simp at hmem
  | launching r p n ids c l hc hd => cases hd <;> simp at hmem
  | _ => simp at hmem

theorem StartsFresh.step {s s' : State} {e : Event} {tr as : List Action} (h : StartsFresh tr)
    (ht : Transition s e s' as) : StartsFresh (tr ++ as) := by
  intro pre post heq
  rcases List.append_eq_append_iff.mp heq with ⟨c, rfl, has⟩ | ⟨c, htr, hpost⟩
  · -- the start is one of the new labels
    obtain ⟨a, rfl, ha⟩ := ht.of_startRun (by rw [has]; simp)
    cases c with
    | nil =>
      rw [List.nil_append, List.cons.injEq] at has
      obtain rfl | rfl := ha <;> simp at has
    | cons x c =>
      rw [List.cons_append, List.cons.injEq] at has
      obtain ⟨rfl, has⟩ := has
      have hc : c = [] := by
        rcases c with _ | ⟨y, c⟩
        · rfl
        · simp at has
      exact ⟨tr, a, by rw [hc], ha⟩
  · cases c with
    | nil =>
      -- the start is the first new label, which it never is
      rw [List.nil_append] at hpost
      obtain ⟨a, has, ha⟩ := ht.of_startRun (by rw [← hpost]; simp)
      rw [has, List.cons.injEq] at hpost
      obtain rfl | rfl := ha <;> simp at hpost
    | cons x c =>
      rw [List.cons_append, List.cons.injEq] at hpost
      obtain ⟨rfl, -⟩ := hpost
      exact h pre c htr

/-- A stop that is answered by a `StartRun` is answered by a fresh start. -/
theorem StartsFresh.stopFinal {tr : List Action} (h : StartsFresh tr)
    (hr : Responds (· = .received .drain .stopSync) (· = .started .startRun)
      (fun a => ∃ id, a = .launched id) tr) : StopFinal tr := by
  intro pre mid id post heq
  obtain ⟨x, hx, rfl⟩ := hr.until heq rfl ⟨id, rfl⟩
  obtain ⟨m, m', rfl⟩ := List.append_of_mem hx
  obtain ⟨pre', a, hpre, ha⟩ :=
    h (pre ++ .received .drain .stopSync :: m) (m' ++ .launched id :: post) (by simp [heq])
  rcases List.eq_nil_or_concat m with rfl | ⟨m₁, y, rfl⟩
  · have := (List.append_inj' hpre rfl).2
    obtain rfl | rfl := ha <;> simp at this
  · have hsplit : pre ++ .received .drain .stopSync :: m₁ ++ [y] = pre' ++ [a] := by
      simpa using hpre
    obtain rfl : y = a := by simpa using (List.append_inj' hsplit rfl).2
    exact ⟨m₁, y, m', by simp, ha⟩

/-! ### Winding down -/

theorem Transition.not_resumes_of_ended {s s' : State} {e : Event} {as : List Action}
    (h : Transition s e s' as) (hend : s.control.ended = true) : e.resumes = false := by
  cases h with
  | signal x _ | tick d => rfl
  | failed e r hr hsel =>
    cases hc : s.control <;> simp_all [Control.ended, Control.run?]
  | _ => simp_all [Control.ended]

/-- A workflow that is winding down and waits for units. -/
theorem windsDown_select {s : State} {r : RunState} {tr : List Action} (hwf : Wf s)
    (hc : s.control = .select r) (hd : r.disconnectRequested = true) : WindsDown s tr := by
  have hr : r.Wf ∧ r.inFlight ≠ [] := by
    unfold Wf at hwf
    rwa [hc] at hwf
  refine ⟨r.inFlight.length + 1, by rw [hc]; rfl, Or.inr ?_, ?_⟩
  · obtain ⟨id, hid⟩ := List.exists_mem_of_ne_nil _ hr.2
    refine ⟨.unitDone id (.error .other), (boundary s r id).1, (boundary s r id).2, rfl, ?_⟩
    simp [connectionWorkflow, step, hc, hid]
  · intro e s' as hres hC hstep
    obtain ⟨ht, -⟩ := hwf.step hstep
    have hstop : stopping s r = true := stopping_of_disconnect hr.1 (Or.inl hd)
    cases ht with
    | signal x _ | tick d => cases hres
    | crossed r₁ id res c l hc₁ hid hnot hdr =>
      obtain rfl : r = r₁ := by simpa [hc] using hc₁
      have hlt : (r.cross id s.signals s.now).inFlight.length < r.inFlight.length := by
        rw [cross_inFlight]
        exact List.length_filter_lt_length_iff_exists.mpr ⟨id, hid, by simp⟩
      cases hdr with
      | capacity hs _ =>
        rw [cross_stopRequested, hstop] at hs
        cases hs
      | select _ => exact ⟨_, Nat.succ_lt_succ hlt, rfl⟩
      | settle _ => exact ⟨1, Nat.succ_lt_succ (List.length_pos_of_mem hid), rfl⟩
    | resumed r₁ id res hc₁ hid hcan hf =>
      have hno := not_stopping_of_resumed hC hc₁ hcan hf
      obtain rfl : r = r₁ := by simpa [hc] using hc₁
      simp [hstop] at hno
    | failed e r₁ _ hsel => exact absurd hc (hsel r)
    | _ => simp_all

/-- A workflow that is winding down and settles. -/
theorem windsDown_settle {s : State} {r : RunState} {tr : List Action} (hwf : Wf s)
    (hc : s.control = .settle r) (hd : r.disconnectRequested = true) : WindsDown s tr := by
  refine ⟨1, by rw [hc]; rfl, Or.inr ?_, ?_⟩
  · refine ⟨.settleDone (.ok .connected), (finishRun s r).1, (finishRun s r).2, rfl, ?_⟩
    simp [connectionWorkflow, step, hc]
  · intro e s' as hres hC hstep
    obtain ⟨ht, -⟩ := hwf.step hstep
    cases ht with
    | signal x _ | tick d => cases hres
    | ended r₁ st hc₁ => exact ⟨0, Nat.one_pos, rfl⟩
    | failed e r₁ _ hsel => exact ⟨0, Nat.one_pos, rfl⟩
    | rerun r₁ st hc₁ hd₁ | rested r₁ st hc₁ hm hd₁ =>
      obtain rfl : r = r₁ := by simpa [hc] using hc₁
      simp [hd] at hd₁
    | _ => simp_all

theorem windsDown_ended {s : State} {tr : List Action} (hwf : Wf s)
    (hend : s.control.ended = true) : WindsDown s tr := by
  refine ⟨0, ?_, Or.inl ⟨rfl, hend⟩, ?_⟩
  · cases hc : s.control <;> simp_all [Control.ended, Control.unfinished]
  · intro e s' as hres hC hstep
    obtain ⟨ht, -⟩ := hwf.step hstep
    rw [ht.not_resumes_of_ended hend] at hres
    cases hres

theorem windsDown_of_disconnecting {s : State} {tr : List Action} (hwf : Wf s)
    (h : s.control.disconnecting = true) : WindsDown s tr := by
  cases hc : s.control with
  | select r => exact windsDown_select hwf hc (by rwa [hc] at h)
  | settle r => exact windsDown_settle hwf hc (by rwa [hc] at h)
  | completed | failed => exact windsDown_ended hwf (by rw [hc]; rfl)
  | _ => simp [hc, Control.disconnecting] at h

/-- **Stop and disconnect are final** along every run in which no history bound has
tripped when the last in-flight unit of a stopped run completes: after a drained
stop nothing is launched until a trigger or the due timer starts a fresh run; after
a drained disconnect nothing is launched at all, and the workflow settles and
ends. -/
theorem stop_and_disconnect_final {connectionID : Uuid} {tenantID connectorID : String} {t : Time}
    {es : List Event} {s : State} {tr : List Action}
    (h : connectionWorkflow.RunWhere (fun s tr e => stopsInTime s tr e = true)
      (.fresh connectionID tenantID connectorID t) es s tr) :
    StopFinal tr ∧ DisconnectFinal tr ∧
      (.received .drain .disconnect ∈ tr → WindsDown s tr) := by
  have hinv : Wf s ∧ (StopInv s tr ∧ DisconnectInv s tr ∧ SettleInv s tr ∧ StartsFresh tr) := by
    refine run_invariant (J := fun s tr =>
      StopInv s tr ∧ DisconnectInv s tr ∧ SettleInv s tr ∧ StartsFresh tr) h ?_ ?_
    · refine ⟨guarded_nil _, guarded_nil _, guarded_nil _, ?_⟩
      intro pre post heq
      simp at heq
    · intro s tr e s' as hwf _ ⟨hstop, hdis, hset, hfresh⟩ hC ht
      exact ⟨hstop.step hwf hC ht, hdis.step hwf hC ht, hset.step hwf hC ht, hfresh.step ht⟩
  obtain ⟨hwf, hstop, hdis, hset, hfresh⟩ := hinv
  refine ⟨hfresh.stopFinal hstop.responds, ?_, ?_⟩
  · intro pre post heq
    refine ⟨fun a ha hre => ?_, fun mid b rest hpost hend => ?_⟩
    · obtain ⟨m, m', rfl⟩ := List.append_of_mem ha
      have hsplit : tr = pre ++ .received .drain .disconnect :: m ++ a :: m' := by simpa using heq
      obtain ⟨x, -, hx⟩ := hdis.responds.until hsplit rfl hre
      exact hx
    · have hsplit : tr = pre ++ .received .drain .disconnect :: mid ++ b :: rest := by
        simpa [hpost] using heq
      obtain ⟨x, hx, rfl⟩ := hset.responds.until hsplit rfl hend
      exact hx
  · intro hmem
    exact windsDown_of_disconnecting hwf
      (hdis.guard (hdis.responds.pending_of_mem hmem rfl))

/-- A stop in time: the run settles, and the next trigger starts a fresh one. -/
def stoppedInTime : List Event :=
  [.scheduleDone (.ok ⟨true, 900⟩), .signal .triggerSync, .receive .triggerSync,
    .startRunDone (.ok ()), .discoverDone (.ok 2), .capacityDone (.ok 1),
    .batchDone (.ok ["u", "v"]), .signal .stopSync, .unitDone "u" (.ok ⟨true, 1, some .synced⟩),
    .settleDone (.ok .connected), .scheduleDone (.ok ⟨true, 900⟩), .signal .triggerSync,
    .receive .triggerSync, .startRunDone (.ok ()), .discoverDone (.ok 2), .capacityDone (.ok 1),
    .batchDone (.ok ["v"])]

/-- What that run does. -/
def stoppedTrace : List Action :=
  [.parked, .received .idle .triggerSync, .started .startRun, .started .discoverUnits,
    .started .capacity, .started .nextUnitBatch, .launched "u", .received .drain .stopSync,
    .started .settleConnection, .started .getSyncSchedule, .parked,
    .received .idle .triggerSync, .started .startRun, .started .discoverUnits,
    .started .capacity, .started .nextUnitBatch, .launched "v"]

theorem stoppedInTime_final :
    ∃ s, connectionWorkflow.RunWhere (fun s tr e => stopsInTime s tr e = true)
        (.fresh 0 "t" "github" 0) stoppedInTime s stoppedTrace ∧
      StopFinal stoppedTrace ∧ DisconnectFinal stoppedTrace ∧
      (.received .drain .disconnect ∈ stoppedTrace → WindsDown s stoppedTrace) := by
  obtain ⟨s, h⟩ : ∃ s, connectionWorkflow.RunWhere (fun s tr e => stopsInTime s tr e = true)
      (.fresh 0 "t" "github" 0) stoppedInTime s stoppedTrace :=
    Lts.exists_runWhere (by decide)
  exact ⟨s, h, stop_and_disconnect_final h⟩

/-- A signal that is drained with the last in-flight unit, after fifteen minutes. -/
def lateSignal (x : Signal) : List Event :=
  [.scheduleDone (.ok ⟨true, 900⟩), .signal .triggerSync, .receive .triggerSync,
    .startRunDone (.ok ()), .discoverDone (.ok 2), .capacityDone (.ok 1),
    .batchDone (.ok ["u", "v"]), .tick continueAsNewRuntime, .signal x,
    .unitDone "u" (.ok ⟨true, 1, some .synced⟩), .capacityDone (.ok 1), .batchDone (.ok ["v"])]

/-- What that run does: the resumed generation launches the next unit. -/
def lateTrace (x : Signal) : List Action :=
  [.parked, .received .idle .triggerSync, .started .startRun, .started .discoverUnits,
    .started .capacity, .started .nextUnitBatch, .launched "u"] ++ .received .drain x ::
    [.continuedAsNew true, .started .capacity, .started .nextUnitBatch] ++ [.launched "v"]

theorem late_run (x : Signal) : ∃ s, connectionWorkflow.Run (.fresh 0 "t" "github" 0)
    (lateSignal x) s (lateTrace x) :=
  Lts.exists_run (by cases x <;> decide)

/-- A stop and a disconnect that arrive with a tripped bound are both forgotten. -/
theorem late_stop_and_disconnect_forgotten :
    ¬ (∀ (connectionID : Uuid) (tenantID connectorID : String) (t : Time) (es : List Event)
      (s : State)
      (tr : List Action),
      connectionWorkflow.Run (.fresh connectionID tenantID connectorID t) es s tr →
        StopFinal tr) ∧
    ¬ (∀ (connectionID : Uuid) (tenantID connectorID : String) (t : Time) (es : List Event)
      (s : State)
      (tr : List Action),
      connectionWorkflow.Run (.fresh connectionID tenantID connectorID t) es s tr →
        DisconnectFinal tr) := by
  refine ⟨fun hall => ?_, fun hall => ?_⟩
  · obtain ⟨s, h⟩ := late_run .stopSync
    have hfinal : StopFinal (lateTrace .stopSync) := hall _ _ _ _ _ _ _ h
    obtain ⟨m, a, m', hsplit, -⟩ := hfinal _ _ "v" [] rfl
    have hmem : Action.started .startRun ∈
        [Action.continuedAsNew true, .started .capacity, .started .nextUnitBatch] := by
      rw [hsplit]
      simp
    simp at hmem
  · obtain ⟨s, h⟩ := late_run .disconnect
    have hfinal : DisconnectFinal (lateTrace .disconnect) := hall _ _ _ _ _ _ _ h
    obtain ⟨hnone, -⟩ := hfinal ((lateTrace .disconnect).take 7)
      ((lateTrace .disconnect).drop 8) rfl
    exact hnone (.launched "v") (by simp [lateTrace]) trivial

end Workflow
end Hivebook
