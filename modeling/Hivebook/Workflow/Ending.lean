import Hivebook.Workflow.Steps

/-!
# Steps that end a workflow, and steps that drop its signals

A `ConnectionWorkflow` ends when it is told to, and when it fails; a resumed generation also ends
with its run.  A signal that was buffered is read by the idle loop, which acts on it, or it is
dropped: at a completion boundary, where all of them are drained into the flags of the run, by a
`continueAsNew`, and with the workflow.

## Main definitions

* `State.leaving` — the workflow is about to end: a disconnect is in its buffer or was noted.
* `State.endsOn`, `State.dropsOn` — the event ends the workflow, or drops the signals in its
  buffer.

## Main results

* `endsOn_of_ended` — **only such an event ends the workflow.**
* `step_stays` — with no other disconnect, a workflow that is not about to end goes on.
* `step_keepsRefresh` — **a catalog refresh that is not dropped stays in the buffer, or the
  catalog is discovered.**
-/

namespace Hivebook
namespace Workflow

/-- A disconnect is in the buffer, or the run has noted one. -/
def State.leaving (s : State) : Bool :=
  decide (0 < s.signals .disconnect) || s.control.run?.any fun r => r.disconnectRequested

/-- The event, if it resumes the workflow, ends it. -/
def State.endsOn (s : State) : Event → Bool
  | .receive .disconnect => true
  | .startRunDone (.error _) | .capacityDone (.error _) | .batchDone (.error _)
  | .settleDone (.error _) => true
  -- a failed refresh is not fatal
  | .discoverDone (.error _) => decide (s.control ≠ .refresh)
  | .settleDone (.ok _) =>
      match s.control with
      | .settle r =>
          r.disconnectRequested || (s.input.midRun && !(r.rerunRequested && !r.stopRequested))
      | _ => false
  | _ => false

/-- The event, if it resumes the workflow, drops the signals in its buffer. -/
def State.dropsOn (s : State) : Event → Bool
  | .unitDone _ _ => true
  | .settleDone (.ok st) =>
      s.endsOn (.settleDone (.ok st)) ||
        match s.control with
        | .settle r => r.rerunRequested && !r.stopRequested
        | _ => false
  | e => s.endsOn e

theorem dropsOn_of_endsOn {s : State} {e : Event} (h : s.endsOn e = true) :
    s.dropsOn e = true := by
  cases e with
  | unitDone id r => rfl
  | settleDone r =>
    cases r with
    | ok st => exact Bool.or_eq_true_iff.mpr (.inl h)
    | error e => exact h
  | _ => exact h

/-! ### Ending -/

/-- An activity that fails is what fails the workflow. -/
theorem endsOn_of_failed {s s' : State} {e : Event} {as : List Action} {r : RunState}
    (hrun : s.control.run? = some r) (h : step s e = some (s', as))
    (hfail : s'.control = .failed) : s.endsOn e = true := by
  have hfails := failsControl_of_failed h hfail hrun
  cases e with
  | startRunDone res | capacityDone res | batchDone res | settleDone res =>
    cases res with
    | error t => rfl
    | ok v => cases hfails
  | discoverDone res =>
    cases res with
    | error t =>
      -- the refresh of an idle workflow belongs to no run
      refine decide_eq_true fun hc => ?_
      rw [hc] at hrun
      cases hrun
    | ok n => cases hfails
  | _ => cases hfails

/-- **Only such an event ends the workflow.** -/
theorem endsOn_of_ended {s s' : State} {e : Event} {as : List Action} (hs : Wf s)
    (h : step s e = some (s', as)) (hrun : s.control.ended = false)
    (hend : s'.control.ended = true) : s.endsOn e = true := by
  have ht : Transition s e s' as := (hs.step h).1
  cases ht with
  | signal x hrunning => exact absurd hend (by simp [hrunning])
  | tick d => exact absurd hend (by simp [hrun])
  | disconnected timer hc => rfl
  | ended r st hc hwhy =>
    simp only [State.endsOn, hc, Bool.or_eq_true, Bool.and_eq_true, Bool.not_eq_true']
    refine hwhy.imp_right fun ⟨hm, hno⟩ => ⟨hm, ?_⟩
    simpa using hno
  | failed e r hr _ => exact endsOn_of_failed hr h rfl
  | wake timer x c a hc _ _ _ hto =>
    obtain ⟨rfl, -⟩ | ⟨rfl, -⟩ := hto <;> cases hend
  | discovered r n c l hc hd => cases hd <;> cases hend
  | refilling r p c l hc hd => cases hd <;> cases hend
  | launching r p n ids c l hc hd => cases hd <;> cases hend
  | crossed r id res c l hc hid hnot hd => cases hd <;> cases hend
  | _ => cases hend

theorem step_wf {s s' : State} {e : Event} {as : List Action} (hs : Wf s)
    (h : step s e = some (s', as)) : Wf s' := (hs.step h).2

theorem step_running {s s' : State} {e : Event} {as : List Action} (hs : Wf s)
    (h : step s e = some (s', as)) (hrun : s.control.ended = false) (hend : s.endsOn e = false) :
    s'.control.ended = false := by
  cases hended : s'.control.ended with
  | false => rfl
  | true =>
    have hends := endsOn_of_ended hs h hrun hended
    rw [hend] at hends
    cases hends

/-! ### Going on -/

theorem leaving_eq_false {s : State} : s.leaving = false ↔
    s.signals .disconnect = 0 ∧ ∀ r, s.control.run? = some r → r.disconnectRequested = false := by
  unfold State.leaving
  cases hr : s.control.run? <;> simp

/-- Reading another signal leaves a signal in the buffer. -/
theorem read_signals_of_ne (s : State) {x y : Signal} (h : y ≠ x) :
    (s.read x).signals y = s.signals y :=
  Function.update_of_ne h _ _

/-- With nothing to note and nothing noted, a completion boundary notes no disconnect. -/
theorem cross_notes_none {s : State} {r : RunState} (hsig : s.signals .disconnect = 0)
    (hr : r.disconnectRequested = false) (id : String) (now : Time) :
    (r.cross id s.signals now).disconnectRequested = false := by
  simp [RunState.cross, RunState.checkBound, drainSignals, RunState.unitDone, hr, hsig]

/-- **A workflow that is not about to end goes on**, if it is not told to end and the event does
not end it. -/
theorem step_stays {s s' : State} {e : Event} {as : List Action} (hs : Wf s)
    (h : step s e = some (s', as)) (hrun : s.control.ended = false) (hstay : s.leaving = false)
    (he : e ≠ .signal .disconnect) (hend : s.endsOn e = false) :
    s'.control.ended = false ∧ s'.leaving = false := by
  refine ⟨step_running hs h hrun hend, ?_⟩
  obtain ⟨hsig, hnoted⟩ := leaving_eq_false.mp hstay
  -- the locals of the run stay the same but for the pool
  have hsame : ∀ (r : RunState) {r' : RunState} {c : Control}, s.control.run? = some r →
      c.run? = some r' → r'.disconnectRequested = r.disconnectRequested →
      ∀ r'', c.run? = some r'' → r''.disconnectRequested = false := by
    intro r r' c hr hr' heq r'' hr''
    rw [hr'] at hr''
    cases hr''
    rw [heq]
    exact hnoted r hr
  have ht : Transition s e s' as := (hs.step h).1
  rw [leaving_eq_false]
  cases ht with
  | signal x hrunning =>
    refine ⟨?_, hnoted⟩
    have hx : Signal.disconnect ≠ x := fun heq => he (heq ▸ rfl)
    exact (Function.update_of_ne hx _ _).trans hsig
  | tick d => exact ⟨hsig, hnoted⟩
  | trigger timer hc =>
    have hread := read_signals_of_ne s (x := .triggerSync) (y := .disconnect) (by decide)
    refine ⟨hread.trans hsig, ?_⟩
    rintro r' ⟨⟩
    rfl
  | due timer hc =>
    refine ⟨hsig, ?_⟩
    rintro r' ⟨⟩
    rfl
  | wake timer x c a hc _ hx _ hto =>
    refine ⟨(read_signals_of_ne s (Ne.symm hx)).trans hsig, ?_⟩
    obtain ⟨rfl, -⟩ | ⟨rfl, -⟩ := hto <;> simp [Control.run?]
  | disconnected timer hc => cases hend
  | runStarted r hc => exact ⟨hsig, hsame r (by rw [hc]; rfl) rfl rfl⟩
  | discovered r n c l hc hd => exact ⟨hsig, hsame r (by rw [hc]; rfl) hd.run?_eq rfl⟩
  | refilling r p c l hc hd => exact ⟨hsig, hsame r (by rw [hc]; rfl) hd.run?_eq rfl⟩
  | launching r p n ids c l hc hd => exact ⟨hsig, hsame r (by rw [hc]; rfl) hd.run?_eq rfl⟩
  | crossed r id res c l hc hid hnot hd =>
    refine ⟨rfl, hsame r (by rw [hc]; rfl) hd.run?_eq ?_⟩
    have hr : r.disconnectRequested = false := hnoted r (by rw [hc]; rfl)
    rw [cross_notes_none hsig hr, hr]
  | resumed r id res hc =>
    refine ⟨rfl, ?_⟩
    rintro r' ⟨⟩
    rfl
  | rerun r st hc hd hr hstop => exact ⟨rfl, by simp [Control.run?]⟩
  | _ => exact ⟨hsig, by simp [Control.run?]⟩

/-! ### Catalog refreshes -/

/-- The idle loop acts on a catalog refresh. -/
theorem discovers_of_receive {s s' : State} {as : List Action}
    (h : step s (.receive .refreshCatalog) = some (s', as)) : .started .discoverUnits ∈ as := by
  cases hc : s.control with
  | idle timer =>
    by_cases hx : 0 < s.signals .refreshCatalog
    · obtain ⟨-, rfl⟩ : _ ∧ _ := by simpa [step, hc, hx, idleReceive] using h
      simp
    · simp [step, hc, hx] at h
  | _ => simp [step, hc] at h

/-- **A catalog refresh that is not dropped stays in the buffer, or the catalog is discovered.** -/
theorem step_keepsRefresh {s s' : State} {e : Event} {as : List Action} (hs : Wf s)
    (h : step s e = some (s', as)) (hrun : s.control.ended = false)
    (hsig : 0 < s.signals .refreshCatalog) (hdrop : s.dropsOn e = false) :
    s'.control.ended = false ∧
      (0 < s'.signals .refreshCatalog ∨ .started .discoverUnits ∈ as) := by
  have hend : s.endsOn e = false := by
    cases hends : s.endsOn e with
    | false => rfl
    | true =>
      rw [dropsOn_of_endsOn hends] at hdrop
      cases hdrop
  refine ⟨step_running hs h hrun hend, ?_⟩
  by_cases he : e = .receive .refreshCatalog
  · subst he
    exact .inr (discovers_of_receive h)
  · have ht : Transition s e s' as := (hs.step h).1
    cases ht with
    | signal x hrunning =>
      refine .inl ?_
      by_cases hx : Signal.refreshCatalog = x
      · subst hx
        simp
      · exact Nat.lt_of_lt_of_eq hsig (Function.update_of_ne hx _ _).symm
    | trigger timer hc =>
      have hread := read_signals_of_ne s (x := .triggerSync) (y := .refreshCatalog) (by decide)
      exact .inl (Nat.lt_of_lt_of_eq hsig hread.symm)
    | wake timer x c a hc _ _ _ hto =>
      have hx : Signal.refreshCatalog ≠ x := fun heq => he (heq ▸ rfl)
      exact .inl (Nat.lt_of_lt_of_eq hsig (read_signals_of_ne s hx).symm)
    | disconnected timer hc => cases hend
    | crossed r id res c l hc hid hnot hd => cases hdrop
    | resumed r id res hc => cases hdrop
    | rerun r st hc hd hr hstop => simp [State.dropsOn, hc, hr, hstop] at hdrop
    | _ => exact .inl hsig

end Workflow
end Hivebook
