import Hivebook.Workflow.Steps

/-!
# The timer of the idle wait

Every time the idle loop comes round it builds a new selector and arms a new timer, with the full
interval of the schedule.  A catalog refresh, a change of the selection or a stop that is read in
the idle wait sends it round once more, so the timer is put off by as long as the workflow had
already been waiting; a connection that is looked at often enough never syncs by itself.

While auto-sync stays enabled with one interval, the timer is due no later than an interval after
the workflow first parked since its last run if and only if no time had passed since then whenever
it was armed again.

## Main definitions

* `clocked` — the workflow, seen when it parks and when a run starts.
* `idleSince tr` — when the workflow first parked since its last run.
* `ParkedInTime I tr` — every timer is due an interval after that, or before.
* `rearmsInTime I` — the condition on the steps that arm the timer.

## Main results

* `parkedInTime_iff` — **the timers of a run are due in time exactly when every step of it meets
  `rearmsInTime`.**
* `refresh_postpones` — one catalog refresh puts the sync off.
-/

namespace Hivebook
namespace Workflow

/-- What is seen of the idle wait. -/
inductive Sighting where
  /-- The workflow parks, with the due time of its timer. -/
  | parked (now : Time) (due : Option Time)
  /-- A run starts. -/
  | runs
  deriving DecidableEq, Repr

/-- The due time of the timer of the idle selector. -/
def Control.timer : Control → Option Time
  | .idle due => due
  | _ => none

/-- What is seen of an action that leads to a state. -/
def sighting (s : State) : Action → Option Sighting
  | .parked => some (.parked s.now s.control.timer)
  | .started .startRun => some .runs
  | _ => none

/-- The workflow, seen when it parks and when a run starts. -/
def clocked : Lts State Event Sighting :=
  connectionWorkflow.relabel fun _ _ s' as => as.filterMap (sighting s')

/-- When the workflow first parked since its last run, or since its start. -/
def idleSince (tr : List Sighting) : Option Time :=
  tr.foldl (fun since l => match l with
    | .parked now _ => some (since.getD now)
    | .runs => none) none

/-- Every timer is due no later than the interval after the workflow has first parked. -/
def ParkedInTime (I : ℤ) (tr : List Sighting) : Prop :=
  AtEvery (fun pre l => ∀ now due, l = .parked now due →
    ∃ d, due = some d ∧ d ≤ (idleSince pre).getD now + I.toNat * second) tr

/-- Auto-sync stays enabled with the interval, and no `UpdateSchedule` arrives. -/
def KeepsSchedule (I : ℤ) (e : Event) : Prop :=
  e ≠ .signal .updateSchedule ∧ ∀ r, e = .scheduleDone (.ok r) → r = ⟨true, I⟩

/-- When the schedule is read no time has passed since the workflow has first parked; and if it
cannot be read, the interval of the platform ends in time. -/
def rearmsInTime (I : ℤ) (s : State) (tr : List Sighting) : Event → Bool
  | .scheduleDone (.ok _) => (idleSince tr).all fun since => decide (s.now ≤ since)
  | .scheduleDone (.error _) =>
      decide (s.now + defaultSyncIntervalSeconds.toNat * second ≤
        (idleSince tr).getD s.now + I.toNat * second)
  | _ => true

/-! ### One step -/

section Step

variable {s s' : State} {e : Event} {as : List Action} {tr : List Sighting} {I : ℤ}

theorem DrainStep.not_parked {r : RunState} {c : Control} {l : List Action}
    (h : DrainStep r c l) : .parked ∉ l ∧ ∀ timer, c ≠ .idle timer := by
  cases h <;> simp

theorem RefillStep.not_parked {r : RunState} {n : ℕ} {c : Control} {l : List Action}
    (h : RefillStep r n c l) : .parked ∉ l ∧ ∀ timer, c ≠ .idle timer := by
  cases h <;> simp

/-- The workflow parks when the schedule was read, and at no other time. -/
theorem Transition.of_parked (h : Transition s e s' as) (hp : .parked ∈ as) :
    ∃ r, e = .scheduleDone r := by
  have hdrained : .parked ∉ drained s.signals := by
    intro hmem
    obtain ⟨y, hy, -⟩ := mem_drained hmem
    cases hy
  cases h with
  | park r timer hc => exact ⟨r, rfl⟩
  | discovered r m c l hc hd => exact absurd hp hd.not_parked.1
  | refilling r p c l hc hd => exact absurd hp hd.not_parked.1
  | launching r p m ids c l hc hd => exact absurd (by simpa using hp) hd.not_parked.1
  | crossed r id res c l hc hid hnot hd =>
    exact absurd hp (by simp [hdrained, hd.not_parked.1])
  | resumed r id res hc hid => exact absurd hp (by simp [hdrained])
  | _ => simp at hp

/-- The workflow is parked once it has just parked, or when it was and only time has passed or a
signal was delivered. -/
theorem Transition.to_idle (h : Transition s e s' as) {timer : Option Time}
    (hc : s'.control = .idle timer) :
    (as = [] ∧ s.control = .idle timer) ∨ as = [.parked] := by
  cases h with
  | signal x hend => exact .inl ⟨rfl, hc⟩
  | tick d => exact .inl ⟨rfl, hc⟩
  | park r timer' hg => exact .inr rfl
  | wake timer' x c a hi _ _ _ hto => obtain ⟨rfl, -⟩ | ⟨rfl, -⟩ := hto <;> cases hc
  | discovered r m c l hg hd => exact absurd hc (hd.not_parked.2 timer)
  | refilling r p c l hg hd => exact absurd hc (hd.not_parked.2 timer)
  | launching r p m ids c l hg hd => exact absurd hc (hd.not_parked.2 timer)
  | crossed r id res c l hg hid hnot hd => exact absurd hc (hd.not_parked.2 timer)
  | _ => cases hc

/-- A step after which the workflow has not parked arms no timer. -/
theorem parkedInTime_append_of_not_parked (h : .parked ∉ as) :
    ParkedInTime I (tr ++ as.filterMap (sighting s')) ↔ ParkedInTime I tr := by
  unfold ParkedInTime
  rw [atEvery_append]
  refine and_iff_left (atEvery_of_forall ?_)
  rintro l hl pre now due rfl
  obtain ⟨a, ha, hsight⟩ := List.mem_filterMap.mp hl
  cases a with
  | parked => exact absurd ha h
  | started a => cases a <;> cases hsight
  | _ => cases hsight

/-- The timer of a workflow that parks. -/
theorem parkedInTime_snoc {now : Time} {due : Option Time} :
    ParkedInTime I (tr ++ [.parked now due]) ↔ ParkedInTime I tr ∧
      ∃ d, due = some d ∧ d ≤ (idleSince tr).getD now + I.toNat * second := by
  unfold ParkedInTime
  rw [atEvery_append, atEvery_cons]
  refine and_congr_right fun _ => ?_
  rw [and_iff_left atEvery_nil, List.append_nil]
  constructor
  · exact fun h => h now due rfl
  · intro h now' due' heq
    cases heq
    exact h

/-- The timer that is armed when the schedule was read is due in time if and only if the step meets
the condition. -/
theorem armed_iff {r : Except ErrType ScheduleResult} (hr : KeepsSchedule I (.scheduleDone r)) :
    (∃ d, (park s r).1.control.timer = some d ∧
        d ≤ (idleSince tr).getD s.now + I.toNat * second) ↔
      rearmsInTime I s tr (.scheduleDone r) = true := by
  cases r with
  | ok r =>
    obtain rfl := hr.2 r rfl
    have htimer : (park s (.ok ⟨true, I⟩)).1.control.timer =
        some (s.now + I.toNat * second) := rfl
    rw [htimer]
    cases hsince : idleSince tr with
    | none => simp [rearmsInTime, hsince]
    | some since => simp [rearmsInTime, hsince]
  | error err =>
    have htimer : (park s (.error err)).1.control.timer =
        some (s.now + defaultSyncIntervalSeconds.toNat * second) := rfl
    rw [htimer]
    simp [rearmsInTime]

end Step

/-! ### Every run -/

/-- What holds between two steps: a parked workflow has its last timer armed. -/
def LastParked (s : State) (tr : List Sighting) : Prop :=
  ∀ timer, s.control = .idle timer → ∃ pre now, tr = pre ++ [.parked now timer]

/-- The workflow first parked when its timer was armed, or before. -/
theorem idleSince_snoc (pre : List Sighting) (now : Time) (due : Option Time) :
    idleSince (pre ++ [.parked now due]) = some ((idleSince pre).getD now) := by
  rw [idleSince, List.foldl_append]
  rfl

/-- **The timers of a run are due in time exactly when every step of it meets `rearmsInTime`**,
however many signals wake the workflow and whenever they do; and then so is the timer of the
workflow wherever it is parked. -/
theorem parkedInTime_iff {connectionID : Uuid} {tenantID connectorID : String} {t : Time}
    {es : List Event} {s : State} {tr : List Sighting} {I : ℤ}
    (h : clocked.Run (.fresh connectionID tenantID connectorID t) es s tr)
    (hes : ∀ e ∈ es, KeepsSchedule I e) :
    (ParkedInTime I tr ↔ clocked.RunWhere (fun s tr e => rearmsInTime I s tr e = true)
        (.fresh connectionID tenantID connectorID t) es s tr) ∧
      (ParkedInTime I tr → ∀ timer, s.control = .idle timer → ∃ due since,
        timer = some due ∧ idleSince tr = some since ∧ due ≤ since + I.toNat * second) := by
  -- only the answer to the schedule parks the workflow; the other steps park nothing
  have hstep : ∀ s tr e s' ls, (Wf s ∧ LastParked s tr) → KeepsSchedule I e →
      clocked.step s e = some (s', ls) → (Wf s' ∧ LastParked s' (tr ++ ls)) ∧
        (ParkedInTime I (tr ++ ls) ↔ ParkedInTime I tr ∧ rearmsInTime I s tr e = true) := by
    rintro s tr e s' ls ⟨hwf, hlast⟩ he hclocked
    obtain ⟨as, hact, rfl⟩ := Lts.relabel_step hclocked
    obtain ⟨ht, hwf'⟩ := hwf.step hact
    refine ⟨⟨hwf', fun timer hc => ?_⟩, ?_⟩
    · rcases ht.to_idle hc with ⟨rfl, hc⟩ | rfl
      · simpa using hlast timer hc
      · exact ⟨tr, s'.now, by simp [sighting, hc, Control.timer]⟩
    · by_cases hr : ∃ r, e = .scheduleDone r
      · obtain ⟨r, rfl⟩ := hr
        cases hg : s.control with
        | getSchedule =>
          have hpark : park s r = (s', as) := by
            simpa [connectionWorkflow, step, hg] using hact
          obtain rfl : as = [.parked] := (congrArg Prod.snd hpark).symm
          have hs' : (park s r).1 = s' := congrArg Prod.fst hpark
          have hnow : s'.now = s.now := by rw [← hs']; rfl
          rw [← armed_iff he, hs', ← hnow]
          exact parkedInTime_snoc
        | _ => simp [connectionWorkflow, step, hg] at hact
      · have hnot : .parked ∉ as := fun hp => hr (ht.of_parked hp)
        rw [parkedInTime_append_of_not_parked hnot]
        refine (and_iff_left ?_).symm
        cases e with
        | scheduleDone r => exact absurd ⟨r, rfl⟩ hr
        | _ => rfl
  have hinit : Wf (.fresh connectionID tenantID connectorID t) ∧
      LastParked (.fresh connectionID tenantID connectorID t) [] :=
    ⟨wf_fresh _ _ _ _, fun timer hc => by cases hc⟩
  refine ⟨h.iff_meets hes hinit atEvery_nil hstep, fun hin timer hc => ?_⟩
  have hlast : Wf s ∧ LastParked s tr := by
    have hevents : clocked.RunWhere (fun _ _ e => KeepsSchedule I e ∧ True)
        (.fresh connectionID tenantID connectorID t) es s tr :=
      Lts.RunWhere.and_events h fun e he _ _ => hes e he
    refine hevents.invariant (J := fun s tr => Wf s ∧ LastParked s tr) hinit ?_
    exact fun s tr e s' ls hJ hC hs => (hstep s tr e s' ls hJ hC.1 hs).1
  obtain ⟨pre, now, rfl⟩ := hlast.2 timer hc
  obtain ⟨due, hdue, hle⟩ := (parkedInTime_snoc.mp hin).2
  exact ⟨due, _, hdue, idleSince_snoc pre now timer, hle⟩

/-! ### A catalog refresh -/

/-- A fresh workflow parks; after some time its catalog is refreshed. -/
def refreshAfter (d : Time) : List Event :=
  [.scheduleDone (.ok ⟨true, 900⟩), .tick d, .signal .refreshCatalog, .receive .refreshCatalog,
    .discoverDone (.ok 1), .scheduleDone (.ok ⟨true, 900⟩)]

/-- The schedule stays as it is. -/
theorem refreshAfter_keepsSchedule (d : Time) : ∀ e ∈ refreshAfter d, KeepsSchedule 900 e := by
  intro e he
  simp only [refreshAfter, List.mem_cons, List.not_mem_nil, or_false] at he
  rcases he with rfl | rfl | rfl | rfl | rfl | rfl <;> simp [KeepsSchedule]

/-- A refresh at once leaves the timer where it was. -/
theorem refresh_at_once :
    ∃ s tr, clocked.Run (.fresh 0 "t" "github" 0) (refreshAfter 0) s tr ∧
      ParkedInTime 900 tr ∧ ∀ timer, s.control = .idle timer → ∃ due since,
        timer = some due ∧ idleSince tr = some since ∧ due ≤ since + (900 : ℤ).toNat * second := by
  obtain ⟨s, tr, hmeets, -⟩ := Lts.exists_runWhere_of_any clocked
    (fun s tr e => rearmsInTime 900 s tr e) (.fresh 0 "t" "github" 0) (refreshAfter 0)
    (fun _ _ => true) (by decide)
  have hboth := parkedInTime_iff hmeets.run (refreshAfter_keepsSchedule 0)
  exact ⟨s, tr, hmeets.run, hboth.1.mpr hmeets, hboth.2 (hboth.1.mpr hmeets)⟩

/-- **One catalog refresh puts the sync off**: ten minutes after it has parked the workflow reads
it, and the timer of fifteen minutes starts anew. -/
theorem refresh_postpones :
    ∃ s tr, clocked.Run (.fresh 0 "t" "github" 0) (refreshAfter (10 * minute)) s tr ∧
      (∀ e ∈ refreshAfter (10 * minute), KeepsSchedule 900 e) ∧
      s.control = .idle (some (25 * minute)) ∧ idleSince tr = some 0 ∧ ¬ ParkedInTime 900 tr := by
  obtain ⟨s, tr, hrun, hend⟩ := Lts.exists_run_of_any clocked (.fresh 0 "t" "github" 0)
    (refreshAfter (10 * minute)) (fun s tr => decide (s.control = .idle (some (25 * minute))) &&
      decide (idleSince tr = some 0)) (by decide)
  simp only [Bool.and_eq_true, decide_eq_true_eq] at hend
  obtain ⟨hparked, hsince⟩ := hend
  refine ⟨s, tr, hrun, refreshAfter_keepsSchedule _, hparked, hsince, fun hin => ?_⟩
  obtain ⟨due, since, hdue, hsince', hle⟩ :=
    (parkedInTime_iff hrun (refreshAfter_keepsSchedule _)).2 hin _ hparked
  rw [← Option.some.inj hdue, ← Option.some.inj (hsince.symm.trans hsince')] at hle
  exact absurd hle (by decide)

end Workflow
end Hivebook
