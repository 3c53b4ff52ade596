import Hivebook.Workflow.Steps

/-!
# How long the workflow lives

One workflow per connection is meant to outlive every run: it parks again after
each, and only a `Disconnect` ends it.  A fresh generation does so.  A generation
resumed with `MidRun = true` returns whatever `runConnection` returned, so when
its run settles the workflow completes, and with it the timer that would have
armed the next sync.

## Main definitions

* `CompletesOnlyDisconnected` — a workflow that completed had been disconnected.
* `returnsToIdle` — no resumed generation settles its run for good while the
  workflow has not been disconnected.

## Main results

* `completesOnlyDisconnected_iff` — **the property holds of a run exactly when
  every step of the run meets `returnsToIdle`.**
-/

namespace Hivebook
namespace Workflow

/-- A `Disconnect` is received. -/
def isDisconnect : Action → Bool
  | .received _ .disconnect => true
  | _ => false

/-- The workflow completes only after it has received a `Disconnect`. -/
def CompletesOnlyDisconnected (tr : List Action) : Prop :=
  ∀ pre post, tr = pre ++ .completed :: post → ∃ a ∈ pre, isDisconnect a = true

/-- A resumed generation whose run settles with no rerun to continue with has
received a `Disconnect`. -/
def returnsToIdle (s : State) (tr : List Action) : Event → Bool
  | .settleDone (.ok _) =>
      match s.control with
      | .settle r =>
          !(s.input.midRun && !(r.rerunRequested && !r.stopRequested)) || tr.any isDisconnect
      | _ => true
  | _ => true

/-! ### How the property grows -/

theorem completesOnlyDisconnected_append {tr l : List Action} (hl : .completed ∉ l) :
    CompletesOnlyDisconnected (tr ++ l) ↔ CompletesOnlyDisconnected tr := by
  constructor
  · intro h pre post heq
    exact h pre (post ++ l) (by simp [heq])
  · intro h pre post heq
    rcases List.append_eq_append_iff.mp heq with ⟨c, -, hl'⟩ | ⟨c, htr, hpost⟩
    · exact absurd (by rw [hl']; simp) hl
    · cases c with
      | nil => exact absurd (by rw [List.nil_append] at hpost; rw [← hpost]; simp) hl
      | cons x c =>
        rw [List.cons_append, List.cons.injEq] at hpost
        obtain ⟨rfl, -⟩ := hpost
        exact h pre c htr

theorem CompletesOnlyDisconnected.of_append {tr l : List Action}
    (h : CompletesOnlyDisconnected (tr ++ l)) : CompletesOnlyDisconnected tr := by
  intro pre post heq
  exact h pre (post ++ l) (by simp [heq])

/-- Completing keeps the property when a disconnect came before. -/
theorem CompletesOnlyDisconnected.completed {tr l : List Action}
    (h : CompletesOnlyDisconnected tr) (hl : .completed ∉ l)
    (hd : ∃ a ∈ tr ++ l, isDisconnect a = true) :
    CompletesOnlyDisconnected (tr ++ l ++ [.completed]) := by
  have hl' : CompletesOnlyDisconnected (tr ++ l) := (completesOnlyDisconnected_append hl).mpr h
  intro pre post heq
  rcases List.eq_nil_or_concat post with rfl | ⟨post', y, rfl⟩
  · rwa [← (List.append_inj' heq rfl).1]
  · have hsplit : tr ++ l ++ [.completed] = (pre ++ .completed :: post') ++ [y] := by
      simpa using heq
    exact hl' pre post' (List.append_inj' hsplit rfl).1

/-! ### Along a run -/

/-- The run's disconnect flag was set by a disconnect that was received. -/
def FlagReceived (s : State) (tr : List Action) : Prop :=
  ∀ r, s.control.run? = some r → r.disconnectRequested = true → ∃ a ∈ tr, isDisconnect a = true

/-- A step to a blocking point with the same locals, or with none, keeps the flag
justified. -/
theorem FlagReceived.mono {s s' : State} {tr l : List Action} (h : FlagReceived s tr)
    (hs : ∀ r', s'.control.run? = some r' →
      ∃ r, s.control.run? = some r ∧ r'.disconnectRequested = r.disconnectRequested) :
    FlagReceived s' (tr ++ l) := by
  intro r' hr' hd
  obtain ⟨r, hr, heq⟩ := hs r' hr'
  obtain ⟨a, ha, hdis⟩ := h r hr (heq ▸ hd)
  exact ⟨a, by simp [ha], hdis⟩

theorem FlagReceived.step {s s' : State} {e : Event} {tr as : List Action}
    (h : FlagReceived s tr) (ht : Transition s e s' as) : FlagReceived s' (tr ++ as) := by
  cases ht with
  | signal x hend | tick d => simpa [FlagReceived] using h
  | trigger timer hc | due timer hc | resumed r id res hc =>
    intro r' hr' hd
    simp only [Control.run?, Option.some.injEq] at hr'
    rw [← hr'] at hd
    cases hd
  | wake timer x c a hc _ _ _ hto =>
    refine h.mono fun r' hr' => ?_
    obtain ⟨rfl, -⟩ | ⟨rfl, -⟩ := hto <;> cases hr'
  | runStarted r hc =>
    refine h.mono fun r' hr' => ⟨r, by rw [hc]; rfl, ?_⟩
    rw [Option.some.inj hr']
  | discovered r n c l hc hd =>
    refine h.mono fun r' hr' => ⟨r, by rw [hc]; rfl, ?_⟩
    rw [Option.some.inj (hd.run?_eq.symm.trans hr')]
  | refilling r p c l hc hd =>
    refine h.mono fun r' hr' => ⟨r, by rw [hc]; rfl, ?_⟩
    rw [Option.some.inj (hd.run?_eq.symm.trans hr')]
  | launching r p n ids c l hc hd =>
    refine h.mono fun r' hr' => ⟨r, by rw [hc]; rfl, ?_⟩
    rw [← Option.some.inj (hd.run?_eq.symm.trans hr')]
  | crossed r id res c l hc hid hnot hd =>
    intro r' hr' hdis
    rw [← Option.some.inj (hd.run?_eq.symm.trans hr')] at hdis
    have hflag : r.disconnectRequested = true ∨ 0 < s.signals .disconnect := by
      simpa [RunState.cross, RunState.checkBound, drainSignals, RunState.unitDone] using hdis
    obtain hflag | hflag := hflag
    · obtain ⟨a, ha, hrec⟩ := h r (by rw [hc]; rfl) hflag
      exact ⟨a, by simp [ha], hrec⟩
    · exact ⟨.received .drain .disconnect, by simp [mem_drained_of_pos hflag], rfl⟩
  | _ => exact h.mono fun r' hr' => by cases hr'

/-- A transition completes the workflow only on a disconnect, or when a run that
settles leaves a resumed generation nothing to do. -/
theorem Transition.completed_cases {s s' : State} {e : Event} {as : List Action}
    (h : Transition s e s' as) :
    .completed ∉ as ∨ as = [.received .idle .disconnect, .completed] ∨
      as = [.completed] ∧ ∃ r st, s.control = .settle r ∧ e = .settleDone (.ok st) ∧
        (r.disconnectRequested = true ∨
          s.input.midRun = true ∧ ¬ (r.rerunRequested = true ∧ r.stopRequested = false)) := by
  have hdrained : .completed ∉ drained s.signals := by
    intro hm
    obtain ⟨x, hx, -⟩ := mem_drained hm
    cases hx
  cases h with
  | disconnected timer hc => exact Or.inr (Or.inl rfl)
  | ended r st hc hend => exact Or.inr (Or.inr ⟨rfl, r, st, hc, rfl, hend⟩)
  | crossed r id res c l hc hid hnot hd => left; cases hd <;> simp [hdrained]
  | resumed r id res hc => left; simp [hdrained]
  | discovered r n c l hc hd => left; cases hd <;> simp
  | refilling r p c l hc hd => left; cases hd <;> simp
  | launching r p n ids c l hc hd => left; cases hd <;> simp
  | _ => left; simp

/-- A step that meets `returnsToIdle` keeps the property. -/
theorem CompletesOnlyDisconnected.step {s s' : State} {e : Event} {tr as : List Action}
    (h : CompletesOnlyDisconnected tr) (hflag : FlagReceived s tr)
    (hC : returnsToIdle s tr e = true) (ht : Transition s e s' as) :
    CompletesOnlyDisconnected (tr ++ as) := by
  rcases ht.completed_cases with hno | rfl | ⟨rfl, r, st, hc, rfl, hend⟩
  · exact (completesOnlyDisconnected_append hno).mpr h
  · have hdone := h.completed (l := [.received .idle .disconnect]) (by simp)
      ⟨.received .idle .disconnect, by simp, rfl⟩
    simpa using hdone
  · have hd : ∃ a ∈ tr, isDisconnect a = true := by
      obtain hd | ⟨hm, hr⟩ := hend
      · exact hflag r (by rw [hc]; rfl) hd
      · have hr' : (r.rerunRequested && !r.stopRequested) = false := by simpa using hr
        simpa [returnsToIdle, hc, hm, hr'] using hC
    have hdone := h.completed (l := []) (by simp) (by simpa using hd)
    simpa using hdone

/-- A resumed generation that settles with nothing left to do completes. -/
theorem finishRun_midRun {s : State} {r : RunState} (hm : s.input.midRun = true)
    (hr : (r.rerunRequested && !r.stopRequested) = false) : finishRun s r = complete s := by
  unfold finishRun
  by_cases hd : r.disconnectRequested = true
  · simp [hd, runReturned, hm]
  · simp [hd, hr, runReturned, hm]

/-- A step that leaves the property true meets `returnsToIdle`. -/
theorem returnsToIdle_of_step {s s' : State} {e : Event} {tr as : List Action}
    (hstep : connectionWorkflow.step s e = some (s', as))
    (h : CompletesOnlyDisconnected (tr ++ as)) : returnsToIdle s tr e = true := by
  cases e with
  | settleDone res =>
    cases res with
    | error err => rfl
    | ok st =>
      cases hc : s.control with
      | settle r =>
        by_cases hend : s.input.midRun = true ∧ (r.rerunRequested && !r.stopRequested) = false
        · -- the step completes the workflow, so the trace before it has a disconnect
          have hfin : complete s = (s', as) := by
            rw [← finishRun_midRun hend.1 hend.2]
            simpa [connectionWorkflow, Workflow.step, hc] using hstep
          have has : as = [.completed] := (congrArg Prod.snd hfin).symm
          obtain ⟨a, ha, hd⟩ := h tr [] (by rw [has])
          have hany : tr.any isDisconnect = true := List.any_eq_true.mpr ⟨a, ha, hd⟩
          simp [returnsToIdle, hc, hany]
        · have hgo : (s.input.midRun && !(r.rerunRequested && !r.stopRequested)) = false := by
            cases hm : s.input.midRun <;> simp_all
          simp only [returnsToIdle, hc, hgo, Bool.not_false, Bool.true_or]
      | _ => simp [returnsToIdle, hc]
  | _ => rfl

/-- **A run completes only when disconnected exactly when every step of it meets
`returnsToIdle`.** -/
theorem completesOnlyDisconnected_iff {connectionID : Uuid} {tenantID connectorID : String}
    {t : Time}
    {es : List Event} {s : State} {tr : List Action}
    (h : connectionWorkflow.Run (.fresh connectionID tenantID connectorID t) es s tr) :
    CompletesOnlyDisconnected tr ↔
      connectionWorkflow.RunWhere (fun s tr e => returnsToIdle s tr e = true)
        (.fresh connectionID tenantID connectorID t) es s tr := by
  constructor
  · intro hp
    induction h with
    | refl => exact .refl
    | snoc _ _ hstep ih => exact .snoc (ih hp.of_append) (returnsToIdle_of_step hstep hp) hstep
  · intro hrun
    have hinv : Wf s ∧ FlagReceived s tr ∧ CompletesOnlyDisconnected tr := by
      refine run_invariant (J := fun s tr => FlagReceived s tr ∧ CompletesOnlyDisconnected tr)
        hrun ⟨fun r hr => ?_, fun pre post heq => ?_⟩ ?_
      · cases hr
      · simp at heq
      intro s tr e s' as _ _ ⟨hflag, hp⟩ hC ht
      exact ⟨hflag.step ht, hp.step hflag hC ht⟩
    exact hinv.2.2

/-- A run of one unit that takes fifteen minutes: the generation resumed after it
settles. -/
def longRun : List Event :=
  [.scheduleDone (.ok ⟨true, 900⟩), .signal .triggerSync, .receive .triggerSync,
    .startRunDone (.ok ()), .discoverDone (.ok 1), .capacityDone (.ok 1), .batchDone (.ok ["u"]),
    .tick continueAsNewRuntime, .unitDone "u" (.ok ⟨true, 1, some .synced⟩),
    .capacityDone (.ok 1), .batchDone (.ok []), .settleDone (.ok .connected)]

/-- What that run does. -/
def longTrace : List Action :=
  [.parked, .received .idle .triggerSync, .started .startRun, .started .discoverUnits,
    .started .capacity, .started .nextUnitBatch, .launched "u", .continuedAsNew true,
    .started .capacity, .started .nextUnitBatch, .started .settleConnection, .completed]

theorem long_run : ∃ s, connectionWorkflow.Run (.fresh 0 "t" "github" 0) longRun s longTrace :=
  Lts.exists_run (by decide)

theorem long_run_completes_iff :
    ∃ s, connectionWorkflow.Run (.fresh 0 "t" "github" 0) longRun s longTrace ∧
      (CompletesOnlyDisconnected longTrace ↔
        connectionWorkflow.RunWhere (fun s tr e => returnsToIdle s tr e = true)
          (.fresh 0 "t" "github" 0) longRun s longTrace) := by
  obtain ⟨s, h⟩ := long_run
  exact ⟨s, h, completesOnlyDisconnected_iff h⟩

/-- The workflow of a run that took fifteen minutes completes undisconnected. -/
theorem long_run_completes_undisconnected :
    ¬ ∀ (connectionID : Uuid) (tenantID connectorID : String) (t : Time) (es : List Event)
      (s : State)
      (tr : List Action),
      connectionWorkflow.Run (.fresh connectionID tenantID connectorID t) es s tr →
        CompletesOnlyDisconnected tr := by
  intro hall
  obtain ⟨s, h⟩ := long_run
  obtain ⟨a, ha, hd⟩ := hall _ _ _ _ _ _ _ h (longTrace.take 11) [] rfl
  simp only [longTrace, List.take, List.mem_cons, List.not_mem_nil, or_false] at ha
  rcases ha with rfl | rfl | rfl | rfl | rfl | rfl | rfl | rfl | rfl | rfl | rfl <;> cases hd

end Workflow
end Hivebook
