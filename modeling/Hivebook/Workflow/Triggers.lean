import Hivebook.Workflow.Steps

/-!
# Triggers

A `TriggerSync` asks for a run.  Read in the idle selector it starts one at once.
Read by `drainSignals` it only sets `rerunRequested`, a local that no exit of
`runConnection` turns into a run: the settled exit continues as new with
`MidRun = false`, and the next generation parks in the idle selector first; the
bounded exit continues as new with `MidRun = true` and forgets the flag.

So the triggers a workflow honours are exactly those its idle selector reads, and
a run loses no trigger just when every trigger that `drainSignals` read was
revoked, by a stop or a disconnect, before the workflow came to rest.

## Main definitions

* `NoLostTrigger` — every trigger received is answered before the next rest.
* `DrainedTriggersRevoked` — every trigger read mid-run is revoked before it.

## Main results

* `noLostTrigger_iff_drained_revoked` — **the two agree on every run.**
-/

namespace Hivebook
namespace Workflow

/-- A `TriggerSync` is received, in the idle selector or inside `drainSignals`. -/
def isTrigger : Action → Prop
  | .received _ .triggerSync => True
  | _ => False

/-- A `TriggerSync` is read by `drainSignals`. -/
def isDrainedTrigger : Action → Prop
  | .received .drain .triggerSync => True
  | _ => False

/-- A `StopSync` or a `Disconnect` is received. -/
def revoked : Action → Prop
  | .received _ .stopSync | .received _ .disconnect => True
  | _ => False

/-- What settles a trigger: the `StartRun` it asked for, or its revocation. -/
def answered (a : Action) : Prop := a = .started .startRun ∨ revoked a

/-- The workflow comes to rest: it parks in its idle wait, or ends. -/
def rests : Action → Prop
  | .parked | .completed | .failed => True
  | _ => False

/-- Every trigger received is followed by a `StartRun`, or by a stop or a
disconnect, before the workflow next comes to rest. -/
def NoLostTrigger (tr : List Action) : Prop := Responds isTrigger answered rests tr

/-- Every trigger that `drainSignals` read is followed by a stop or a disconnect
before the workflow next comes to rest. -/
def DrainedTriggersRevoked (tr : List Action) : Prop :=
  Responds isDrainedTrigger revoked rests tr

/-! ### How the two properties grow together -/

/-- Labels on which the two properties cannot differ, and at which none is due. -/
def Unremarkable (l : List Action) : Prop :=
  ∀ a ∈ l, a ≠ .received .idle .triggerSync ∧ a ≠ .started .startRun ∧ ¬ rests a

theorem Unremarkable.append {l l' : List Action} (h : Unremarkable l) (h' : Unremarkable l') :
    Unremarkable (l ++ l') := by
  intro a ha
  rcases List.mem_append.mp ha with ha | ha
  · exact h a ha
  · exact h' a ha

theorem Unremarkable.opens_iff {l : List Action} (h : Unremarkable l) :
    ∀ a ∈ l, (isTrigger a ↔ isDrainedTrigger a) := by
  intro a ha
  obtain ⟨hidle, -, -⟩ := h a ha
  cases a with
  | received p x => cases p <;> cases x <;> simp_all [isTrigger, isDrainedTrigger]
  | _ => simp [isTrigger, isDrainedTrigger]

theorem Unremarkable.closes_iff {l : List Action} (h : Unremarkable l) :
    ∀ a ∈ l, (answered a ↔ revoked a) := by
  intro a ha
  simp [answered, (h a ha).2.1]

/-- What the two properties have in common after a trace: they hold or fail
together, and an unanswered trigger is one that was drained and not revoked. -/
structure Agree (tr : List Action) : Prop where
  pending : Pending isTrigger answered rests tr ↔ Pending isDrainedTrigger revoked rests tr
  responds : NoLostTrigger tr ↔ DrainedTriggersRevoked tr

theorem agree_nil : Agree [] := ⟨by simp, by simp [NoLostTrigger, DrainedTriggersRevoked]⟩

/-- Unremarkable labels keep the agreement. -/
theorem Agree.append {tr l : List Action} (h : Agree tr) (hl : Unremarkable l) :
    Agree (tr ++ l) := by
  have hquiet : ∀ a ∈ l, ¬ rests a := fun a ha => (hl a ha).2.2
  refine ⟨?_, ?_⟩
  · have hcloses : (∀ a ∈ l, ¬ rests a ∧ ¬ answered a) ↔ ∀ a ∈ l, ¬ rests a ∧ ¬ revoked a :=
      forall₂_congr fun a ha => by rw [hl.closes_iff a ha]
    rw [pending_append, pending_append, h.pending, hcloses,
      pending_congr hl.opens_iff hl.closes_iff]
  · unfold NoLostTrigger DrainedTriggersRevoked
    rw [responds_append_quiet hquiet, responds_append_quiet hquiet]
    exact h.responds

/-- Coming to rest keeps the agreement. -/
theorem Agree.rest {tr : List Action} {b : Action} (h : Agree tr) (hb : rests b) :
    Agree (tr ++ [b]) := by
  have hT : ¬ isTrigger b := by cases b <;> simp_all [rests, isTrigger]
  have hD : ¬ isDrainedTrigger b := by cases b <;> simp_all [rests, isDrainedTrigger]
  refine ⟨?_, ?_⟩
  · exact iff_of_false (not_pending_append tr (Or.inl hb) hT)
      (not_pending_append tr (Or.inl hb) hD)
  · unfold NoLostTrigger DrainedTriggersRevoked
    rw [responds_append_deadline hb, responds_append_deadline hb, h.pending]
    exact and_congr_left fun _ => h.responds

/-- Starting a run when nothing is pending keeps the agreement. -/
theorem Agree.start {tr : List Action} {a : Action} (h : Agree tr)
    (hp : ¬ Pending isDrainedTrigger revoked rests tr)
    (ha : a = .received .idle .triggerSync ∨ a = .timerFired) :
    Agree (tr ++ [a, .started .startRun]) := by
  have hquiet : ∀ x ∈ [a, Action.started .startRun], ¬ rests x := by
    obtain rfl | rfl := ha <;> simp [rests]
  refine ⟨iff_of_false ?_ ?_, ?_⟩
  · -- the `StartRun` answers whatever came before it
    have hans : ¬ Pending isTrigger answered rests (tr ++ [a] ++ [.started .startRun]) :=
      not_pending_append _ (Or.inr (Or.inl rfl)) (by simp [isTrigger])
    simpa using hans
  · rw [pending_append_neutral]
    · exact hp
    · obtain rfl | rfl := ha <;> simp [isDrainedTrigger]
    · obtain rfl | rfl := ha <;> simp [rests, revoked]
  · unfold NoLostTrigger DrainedTriggersRevoked
    rw [responds_append_quiet hquiet, responds_append_quiet hquiet]
    exact h.responds

/-! ### Along a run -/

theorem drained_unremarkable (signals : Signal → ℕ) : Unremarkable (drained signals) := by
  intro a ha
  obtain ⟨x, rfl, -⟩ := mem_drained ha
  simp [rests]

theorem DrainStep.unremarkable {r : RunState} {c : Control} {l : List Action}
    (h : DrainStep r c l) : Unremarkable l := by
  cases h <;> simp [Unremarkable, rests]

theorem RefillStep.unremarkable {r : RunState} {n : ℕ} {c : Control} {l : List Action}
    (h : RefillStep r n c l) : Unremarkable l := by
  cases h <;> simp [Unremarkable, rests]

/-- The invariant: the properties agree, and nothing is pending in the idle wait. -/
structure TriggerInv (s : State) (tr : List Action) : Prop where
  agree : Agree tr
  idle : ∀ timer, s.control = .idle timer → ¬ Pending isDrainedTrigger revoked rests tr

/-- A step with unremarkable labels that does not park keeps the invariant. -/
theorem TriggerInv.quiet {s s' : State} {tr l : List Action} (h : TriggerInv s tr)
    (hl : Unremarkable l) (hs : ∀ timer, s'.control ≠ .idle timer) : TriggerInv s' (tr ++ l) :=
  ⟨h.agree.append hl, fun timer hc => absurd hc (hs timer)⟩

/-- A step that comes to rest keeps the invariant. -/
theorem TriggerInv.rest {s s' : State} {tr : List Action} {b : Action} (h : TriggerInv s tr)
    (hb : rests b) : TriggerInv s' (tr ++ [b]) := by
  refine ⟨h.agree.rest hb, fun _ _ => not_pending_append tr (Or.inl hb) ?_⟩
  cases b <;> simp_all [rests, isDrainedTrigger]

/-- Every transition keeps the invariant. -/
theorem TriggerInv.step {s s' : State} {e : Event} {tr as : List Action} (h : TriggerInv s tr)
    (ht : Transition s e s' as) : TriggerInv s' (tr ++ as) := by
  cases ht with
  | signal x hend | tick d => simpa using ⟨h.agree, h.idle⟩
  | park r timer hc => exact h.rest trivial
  | trigger timer hc =>
    exact ⟨h.agree.start (h.idle timer hc) (Or.inl rfl), by simp⟩
  | due timer hc =>
    exact ⟨h.agree.start (h.idle timer hc) (Or.inr rfl), by simp⟩
  | wake timer x c a hc hx _ ha hto =>
    refine h.quiet ?_ ?_
    · simp [Unremarkable, rests, hx, ha]
    · obtain ⟨rfl, -⟩ | ⟨rfl, -⟩ := hto <;> simp
  -- the signal is read first, and then the workflow completes
  | disconnected timer hc =>
    have hread : Unremarkable [.received .idle .disconnect] := by simp [Unremarkable, rests]
    have hnext :
        TriggerInv { s with control := .completed } (tr ++ [.received .idle .disconnect]) :=
      h.quiet hread (by simp)
    have hend : TriggerInv { s.read .disconnect with control := .completed }
        (tr ++ [.received .idle .disconnect] ++ [.completed]) := hnext.rest trivial
    simpa using hend
  | refreshed r hc => exact h.quiet (by simp [Unremarkable, rests]) (by simp)
  | runStarted r hc => exact h.quiet (by simp [Unremarkable, rests]) (by simp)
  | discovered r n c l hc hd =>
    exact h.quiet hd.unremarkable (by cases hd <;> simp)
  | refilling r p c l hc hd =>
    exact h.quiet hd.unremarkable (by cases hd <;> simp)
  | launching r p n ids c l hc hd =>
    refine h.quiet (.append ?_ hd.unremarkable) (by cases hd <;> simp)
    simp [Unremarkable, rests]
  | crossed r id res c l hc hid hnot hd =>
    exact h.quiet ((drained_unremarkable _).append hd.unremarkable) (by cases hd <;> simp)
  | resumed r id res hc =>
    refine h.quiet ((drained_unremarkable _).append ?_) (by simp)
    simp [Unremarkable, rests]
  | ended r st hc => exact h.rest trivial
  | rerun r st hc => exact h.quiet (by simp [Unremarkable, rests]) (by simp)
  | rested r st hc hm hd hr => exact h.quiet (by simp [Unremarkable, rests]) (by simp)
  | failed e r hr hsel => exact h.rest trivial

/-- **No trigger is lost exactly when every drained one was revoked.**  Over any
number of generations and any interleaving, the triggers received are all answered
by a `StartRun`, a stop or a disconnect before the next rest if and only if those
read by `drainSignals` are all followed by a stop or a disconnect before it. -/
theorem noLostTrigger_iff_drained_revoked {connectionID : Uuid} {tenantID connectorID : String}
    {t : Time}
    {es : List Event} {s : State} {tr : List Action}
    (h : connectionWorkflow.Run (.fresh connectionID tenantID connectorID t) es s tr) :
    NoLostTrigger tr ↔ DrainedTriggersRevoked tr := by
  have hinv : Wf s ∧ TriggerInv s tr := by
    refine run_invariant h ⟨agree_nil, by simp⟩ ?_
    intro s tr e s' as _ _ hJ _ ht
    exact hJ.step ht
  exact hinv.2.agree.responds

/-- A run of one unit during which a second trigger arrives: it is read when the
unit completes, the run settles and continues as new, and the next generation
parks. -/
def coalescedTrigger : List Event :=
  [.scheduleDone (.ok ⟨true, 900⟩), .signal .triggerSync, .receive .triggerSync,
    .startRunDone (.ok ()), .discoverDone (.ok 1), .capacityDone (.ok 1), .batchDone (.ok ["u"]),
    .signal .triggerSync, .unitDone "u" (.ok ⟨true, 1, some .synced⟩),
    .capacityDone (.ok 1), .batchDone (.ok []), .settleDone (.ok .connected),
    .scheduleDone (.ok ⟨true, 900⟩)]

/-- What that run does. -/
def coalescedTrace : List Action :=
  [.parked, .received .idle .triggerSync, .started .startRun, .started .discoverUnits,
    .started .capacity, .started .nextUnitBatch, .launched "u",
    .received .drain .triggerSync, .started .capacity, .started .nextUnitBatch,
    .started .settleConnection, .continuedAsNew false, .started .getSyncSchedule, .parked]

theorem coalesced_run : ∃ s, connectionWorkflow.Run (.fresh 0 "t" "github" 0)
    coalescedTrigger s coalescedTrace :=
  Lts.exists_run (by decide)

theorem coalesced_noLostTrigger_iff :
    ∃ s, connectionWorkflow.Run (.fresh 0 "t" "github" 0) coalescedTrigger s coalescedTrace ∧
      (NoLostTrigger coalescedTrace ↔ DrainedTriggersRevoked coalescedTrace) := by
  obtain ⟨s, h⟩ := coalesced_run
  exact ⟨s, h, noLostTrigger_iff_drained_revoked h⟩

/-- A coalesced trigger is lost: the workflow parks without a `StartRun`. -/
theorem coalesced_trigger_lost :
    ¬ ∀ (connectionID : Uuid) (tenantID connectorID : String) (t : Time) (es : List Event)
      (s : State)
      (tr : List Action),
      connectionWorkflow.Run (.fresh connectionID tenantID connectorID t) es s tr →
        NoLostTrigger tr := by
  intro hall
  obtain ⟨s, h⟩ := coalesced_run
  have hlost : NoLostTrigger coalescedTrace := hall _ _ _ _ _ _ _ h
  obtain ⟨x, hx, hans⟩ := hlost (coalescedTrace.take 7) (.received .drain .triggerSync)
    ((coalescedTrace.drop 8).take 5) .parked [] rfl trivial trivial
    (by simp [coalescedTrace, rests])
  revert hans
  simp only [coalescedTrace, List.drop, List.take, List.mem_cons, List.not_mem_nil, or_false] at hx
  rcases hx with rfl | rfl | rfl | rfl | rfl <;> simp [answered, revoked]

end Workflow
end Hivebook
