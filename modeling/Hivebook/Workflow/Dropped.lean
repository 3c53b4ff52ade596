import Hivebook.Workflow.Steps

/-!
# The signals that a new generation does not see

A `continueAsNew` carries the input of the workflow over and nothing else: a signal that was
delivered to the old generation and not read by it is gone.  The exit in the middle of a drain is
taken right after `drainSignals` has emptied every channel.  The exit after a settle, for a
coalesced rerun, is not: whatever was delivered since the last completion boundary, while the last
refill or the settle was running, is lost with it.

## Main definitions

* `recorded` — the workflow, with the signals delivered to it among its labels.
* `unread x tr` — how many signals were delivered to the current generation and not read.
* `NoneDropped` — no `continueAsNew` leaves a trigger, a stop or a disconnect unread.
* `settlesRead` — a settle that is followed by a rerun finds these channels empty.

## Main results

* `Transition.unread` — what is unread is what the channels hold.
* `noneDropped_iff` — **no signal is dropped in a run exactly when every step of it meets
  `settlesRead`.**
* `disconnect_dropped` — a disconnect is delivered while the connection settles, and the next
  generation parks.
-/

namespace Hivebook
namespace Workflow

/-- A label: a signal is delivered, or the workflow acts. -/
abbrev Record := Signal ⊕ Action

/-- What a step delivers. -/
def Event.delivers : Event → List Record
  | .signal x => [.inl x]
  | _ => []

/-- The workflow, with the signals delivered to it among its labels. -/
def recorded : Lts State Event Record :=
  connectionWorkflow.relabel fun _ e _ as => e.delivers ++ as.map .inr

/-- How a label changes the number of unread signals: a new generation has none. -/
def countUnread (x : Signal) (n : ℕ) : Record → ℕ
  | .inl y => if y = x then n + 1 else n
  | .inr (.received _ y) => if y = x then n - 1 else n
  | .inr (.continuedAsNew _) => 0
  | .inr _ => n

/-- How many of the signals delivered to the current generation it has not read. -/
def unread (x : Signal) (tr : List Record) : ℕ := tr.foldl (countUnread x) 0

/-- The signals that ask for a run, or for its end. -/
def runControl : List Signal := [.triggerSync, .stopSync, .disconnect]

/-- Whenever the workflow continues as new, every trigger, stop and disconnect delivered to the
generation was read. -/
def NoneDropped (tr : List Record) : Prop :=
  AtEvery (fun pre a => ∀ m, a = .inr (.continuedAsNew m) → ∀ x ∈ runControl, unread x pre = 0) tr

/-- A settle after which the run is repeated finds no trigger, no stop and no disconnect in the
channels. -/
def settlesRead (s : State) : Event → Bool
  | .settleDone (.ok _) =>
      match s.control with
      | .settle r => r.disconnectRequested || !r.rerunRequested || r.stopRequested ||
          runControl.all fun x => decide (s.signals x = 0)
      | _ => true
  | _ => true

/-! ### What is unread -/

variable {x : Signal} {n : ℕ}

/-- Labels that read no signal and start no generation. -/
def Silent (as : List Action) : Prop :=
  (∀ p y, .received p y ∉ as) ∧ ∀ m, .continuedAsNew m ∉ as

theorem foldl_countUnread_silent {as : List Action} (h : Silent as) :
    (as.map .inr).foldl (countUnread x) n = n := by
  induction as with
  | nil => rfl
  | cons a as ih =>
    have ha : countUnread x n (.inr a) = n := by
      cases a with
      | received p y => exact absurd (List.mem_cons_self ..) (h.1 p y)
      | continuedAsNew m => exact absurd (List.mem_cons_self ..) (h.2 m)
      | _ => rfl
    rw [List.map_cons, List.foldl_cons, ha]
    exact ih ⟨fun p y hmem => h.1 p y (List.mem_cons_of_mem _ hmem),
      fun m hmem => h.2 m (List.mem_cons_of_mem _ hmem)⟩

theorem foldl_countUnread_replicate (y : Signal) (k : ℕ) :
    ((List.replicate k (Action.received .drain y)).map .inr).foldl (countUnread x) n =
      if y = x then n - k else n := by
  induction k generalizing n with
  | zero => simp
  | succ k ih =>
    rw [List.replicate_succ, List.map_cons, List.foldl_cons, ih]
    by_cases hy : y = x
    · simp only [countUnread, if_pos hy]
      omega
    · simp only [countUnread, if_neg hy]

/-- `drainSignals` leaves nothing unread. -/
theorem foldl_countUnread_drained (signals : Signal → ℕ) :
    ((drained signals).map .inr).foldl (countUnread x) (signals x) = 0 := by
  simp only [drained, drainOrder, List.flatMap_cons, List.flatMap_nil, List.map_append,
    List.foldl_append, foldl_countUnread_replicate, List.append_nil]
  cases x <;> simp

theorem DrainStep.silent {r : RunState} {c : Control} {l : List Action} (h : DrainStep r c l) :
    Silent l := by
  cases h <;> simp [Silent]

theorem RefillStep.silent {r : RunState} {n : ℕ} {c : Control} {l : List Action}
    (h : RefillStep r n c l) : Silent l := by
  cases h <;> simp [Silent]

/-- A step other than a delivery changes what is unread as it changes the channels. -/
theorem Transition.unread {s s' : State} {e : Event} {as : List Action}
    (h : Transition s e s' as) (he : ∀ y, e ≠ .signal y) :
    (as.map Sum.inr).foldl (countUnread x) (s.signals x) = s'.signals x := by
  have hread : ∀ (y : Signal) (a : Action), Silent [a] →
      ([Action.received .idle y, a].map Sum.inr).foldl (countUnread x) (s.signals x) =
        (s.read y).signals x := by
    intro y a ha
    rw [List.map_cons, List.foldl_cons, foldl_countUnread_silent ha]
    by_cases hy : y = x
    · subst hy
      simp [countUnread, State.read]
    · simp [countUnread, State.read, hy, Function.update_of_ne (Ne.symm hy)]
  cases h with
  | signal y hend => exact absurd rfl (he y)
  | trigger timer hc => exact hread _ _ (by simp [Silent])
  | wake timer y c a hc _ _ _ hto =>
    refine hread _ _ ?_
    obtain ⟨-, rfl⟩ | ⟨-, rfl⟩ := hto <;> simp [Silent]
  | disconnected timer hc => exact hread _ _ (by simp [Silent])
  | discovered r m c l hc hd => exact foldl_countUnread_silent hd.silent
  | refilling r p c l hc hd => exact foldl_countUnread_silent hd.silent
  | launching r p m ids c l hc hd =>
    refine foldl_countUnread_silent ⟨fun p y hmem => ?_, fun m hmem => ?_⟩
    · exact hd.silent.1 p y (by simpa using hmem)
    · exact hd.silent.2 m (by simpa using hmem)
  | crossed r id res c l hc hid hnot hd =>
    rw [List.map_append, List.foldl_append, foldl_countUnread_drained,
      foldl_countUnread_silent hd.silent]
  | resumed r id res hc hid =>
    rw [List.map_append, List.foldl_append, foldl_countUnread_drained]
    rfl
  | _ => rfl

/-- **What is unread is what the channels hold**: a step changes the two alike. -/
theorem unread_step {s s' : State} {e : Event} {as : List Action} (hs : Wf s)
    (h : connectionWorkflow.step s e = some (s', as)) :
    (e.delivers ++ as.map Sum.inr).foldl (countUnread x) (s.signals x) = s'.signals x := by
  by_cases he : ∃ y, e = .signal y
  · obtain ⟨y, rfl⟩ := he
    by_cases hend : s.control.ended = true
    · simp [connectionWorkflow, step, hend] at h
    · simp only [connectionWorkflow, step, hend] at h
      obtain ⟨rfl, rfl⟩ := Prod.mk.inj (Option.some.inj h)
      by_cases hy : y = x
      · subst hy
        simp [Event.delivers, countUnread]
      · simp [Event.delivers, countUnread, hy, Function.update_of_ne (Ne.symm hy)]
  · have hno : e.delivers = [] := by
      cases e with
      | signal y => exact absurd ⟨y, rfl⟩ he
      | _ => rfl
    rw [hno, List.nil_append]
    exact (hs.step h).1.unread fun y heq => he ⟨y, heq⟩

/-! ### Where a generation ends -/

/-- A step that continues as new does so right after it has drained the channels, or after a
settle that is followed by a rerun. -/
theorem Transition.continues {s s' : State} {e : Event} {as : List Action}
    (h : Transition s e s' as) : (∀ m, .continuedAsNew m ∉ as) ∨
      (as = drained s.signals ++ [.continuedAsNew true, .started .capacity] ∧
        ∃ id res, e = .unitDone id res) ∨
      as = [.continuedAsNew false, .started .getSyncSchedule] ∧
        ∃ r st, s.control = .settle r ∧ e = .settleDone (.ok st) ∧
          r.disconnectRequested = false ∧ r.rerunRequested = true ∧ r.stopRequested = false := by
  have hdrained : ∀ m, .continuedAsNew m ∉ drained s.signals := by
    intro m hmem
    obtain ⟨y, hy, -⟩ := mem_drained hmem
    cases hy
  cases h with
  | resumed r id res hc hid => exact .inr (.inl ⟨rfl, id, res, rfl⟩)
  | rerun r st hc hd hr hst => exact .inr (.inr ⟨rfl, r, st, hc, rfl, hd, hr, hst⟩)
  | discovered r m c l hc hd => exact .inl hd.silent.2
  | refilling r p c l hc hd => exact .inl hd.silent.2
  | launching r p m ids c l hc hd => exact .inl fun m hmem => hd.silent.2 m (by simpa using hmem)
  | crossed r id res c l hc hid hnot hd =>
    exact .inl fun m hmem => (List.mem_append.mp hmem).elim (hdrained m) (hd.silent.2 m)
  | wake timer y c a hc _ _ _ hto => exact .inl (by simp)
  | _ => exact .inl (by simp)

/-- A step that does not continue as new meets the condition. -/
theorem settlesRead_of_stays {s s' : State} {e : Event} {as : List Action}
    (h : connectionWorkflow.step s e = some (s', as)) (has : ∀ m, .continuedAsNew m ∉ as) :
    settlesRead s e = true := by
  cases e with
  | settleDone res =>
    cases res with
    | error err => rfl
    | ok st =>
      cases hc : s.control with
      | settle r =>
        by_cases hgo : (r.disconnectRequested || !r.rerunRequested || r.stopRequested) = true
        · simp [settlesRead, hc, hgo]
        · -- the run is repeated, so the step continues as new
          simp only [Bool.or_eq_true, Bool.not_eq_true', not_or, Bool.not_eq_true,
            Bool.not_eq_false] at hgo
          obtain ⟨⟨hd, hr⟩, hst⟩ := hgo
          have hfin : finishRun s r = (s', as) := by
            simpa [connectionWorkflow, step, hc] using h
          have hnext : finishRun s r = continueAsNew s false := by simp [finishRun, hd, hr, hst]
          have heq := hnext.symm.trans hfin
          rw [continueAsNew_false] at heq
          have hlabels : [.continuedAsNew false, .started .getSyncSchedule] = as :=
            congrArg Prod.snd heq
          exact absurd (by simp [← hlabels]) (has false)
      | _ => simp [settlesRead, hc]
  | _ => rfl

/-! ### Every run -/

/-- Labels that start no generation drop nothing. -/
theorem noneDropped_append_of_stays {tr : List Record} {e : Event} {as : List Action}
    (has : ∀ m, .continuedAsNew m ∉ as) :
    NoneDropped (tr ++ (e.delivers ++ as.map .inr)) ↔ NoneDropped tr := by
  unfold NoneDropped
  rw [atEvery_append]
  refine and_iff_left (atEvery_of_forall ?_)
  rintro a ha pre m rfl
  rcases List.mem_append.mp ha with ha | ha
  · cases e <;> simp [Event.delivers] at ha
  · exact absurd (by simpa using ha) (has m)

/-- A new generation drops what is unread when it starts. -/
theorem noneDropped_append_of_continues {tr : List Record} {as : List Action} {m : Bool}
    {a : Action} (has : ∀ m, .continuedAsNew m ∉ as) (ha : ∀ m, a ≠ .continuedAsNew m) :
    NoneDropped (tr ++ (as ++ [.continuedAsNew m, a]).map .inr) ↔
      NoneDropped tr ∧ ∀ x ∈ runControl, unread x (tr ++ as.map .inr) = 0 := by
  have hstays : NoneDropped (tr ++ as.map .inr) ↔ NoneDropped tr :=
    noneDropped_append_of_stays (e := .tick 0) has
  rw [List.map_append, ← List.append_assoc, ← hstays]
  unfold NoneDropped
  rw [atEvery_append]
  refine and_congr_right fun _ => ?_
  show AtEvery _ [Sum.inr (.continuedAsNew m), Sum.inr a] ↔ _
  rw [atEvery_cons, atEvery_cons]
  constructor
  · intro h
    simpa using h.1 m rfl
  · intro h
    refine ⟨fun _ _ => by simpa using h, fun m' heq => absurd (Sum.inr.inj heq) (ha m'), ?_⟩
    exact atEvery_nil

/-- What is unread after a trace and an extension. -/
theorem unread_append (tr l : List Record) :
    unread x (tr ++ l) = l.foldl (countUnread x) (unread x tr) := List.foldl_append

/-- **No signal is dropped in a run exactly when every step of it meets `settlesRead`**: over any
number of generations, and whenever the signals are delivered. -/
theorem noneDropped_iff {connectionID : Uuid} {tenantID connectorID : String} {t : Time}
    {es : List Event} {s : State} {tr : List Record}
    (h : recorded.Run (.fresh connectionID tenantID connectorID t) es s tr) :
    NoneDropped tr ↔ recorded.RunWhere (fun s _ e => settlesRead s e = true)
      (.fresh connectionID tenantID connectorID t) es s tr := by
  refine Lts.Run.iff_meets (J := fun s tr => Wf s ∧ ∀ x, unread x tr = s.signals x)
    (D := fun _ => True) h (fun _ _ => trivial) ⟨wf_fresh _ _ _ _, fun _ => rfl⟩ atEvery_nil ?_
  rintro s tr e s' ls ⟨hwf, hunread⟩ - hstep
  obtain ⟨as, hact, rfl⟩ := Lts.relabel_step hstep
  obtain ⟨ht, hwf'⟩ := hwf.step hact
  refine ⟨⟨hwf', fun x => ?_⟩, ?_⟩
  · rw [unread_append, hunread]
    exact unread_step hwf hact
  · rcases ht.continues with has | ⟨rfl, id, res, rfl⟩ | ⟨rfl, r, st, hc, rfl, hd, hr, hst⟩
    · rw [noneDropped_append_of_stays has, settlesRead_of_stays hact has]
      simp
    · -- the channels were drained just before
      have hdrained : ∀ m, .continuedAsNew m ∉ drained s.signals := by
        intro m hmem
        obtain ⟨y, hy, -⟩ := mem_drained hmem
        cases hy
      refine (noneDropped_append_of_continues hdrained (by simp)).trans ?_
      refine and_congr_right fun _ => ⟨fun _ => rfl, fun _ x _ => ?_⟩
      rw [unread_append, hunread, foldl_countUnread_drained]
    · have hnone : ∀ m, Action.continuedAsNew m ∉ ([] : List Action) := fun _ => List.not_mem_nil
      refine (noneDropped_append_of_continues hnone (by simp)).trans ?_
      refine and_congr_right fun _ => ?_
      simp [settlesRead, hc, hd, hr, hst, hunread]

/-! ### Signals during a settle -/

/-- A run of one unit with a second trigger, which is read when the unit completes; some signals
arrive while the connection settles. -/
def repeatedRun (late : List Signal) : List Event :=
  [.scheduleDone (.ok ⟨true, 900⟩), .signal .triggerSync, .receive .triggerSync,
    .startRunDone (.ok ()), .discoverDone (.ok 1), .capacityDone (.ok 1), .batchDone (.ok ["u"]),
    .signal .triggerSync, .unitDone "u" (.ok ⟨true, 1, some .synced⟩),
    .capacityDone (.ok 1), .batchDone (.ok [])] ++ late.map .signal ++
    [.settleDone (.ok .connected), .scheduleDone (.ok ⟨true, 900⟩)]

/-- What happens up to the settle. -/
def repeatedBefore : List Record :=
  [.inr .parked, .inl .triggerSync, .inr (.received .idle .triggerSync),
    .inr (.started .startRun), .inr (.started .discoverUnits), .inr (.started .capacity),
    .inr (.started .nextUnitBatch), .inr (.launched "u"), .inl .triggerSync,
    .inr (.received .drain .triggerSync), .inr (.started .capacity),
    .inr (.started .nextUnitBatch), .inr (.started .settleConnection)]

/-- What happens from then on: the next generation parks. -/
def repeatedAfter : List Record :=
  [.inr (.continuedAsNew false), .inr (.started .getSyncSchedule), .inr .parked]

/-- Nothing arrives while the connection settles, and nothing is dropped. -/
theorem repeated_noneDropped :
    ∃ s, recorded.Run (.fresh 0 "t" "github" 0) (repeatedRun []) s
        (repeatedBefore ++ repeatedAfter) ∧ NoneDropped (repeatedBefore ++ repeatedAfter) := by
  obtain ⟨s, hmeets⟩ : ∃ s, recorded.RunWhere (fun s _ e => settlesRead s e = true)
      (.fresh 0 "t" "github" 0) (repeatedRun []) s (repeatedBefore ++ repeatedAfter) :=
    Lts.exists_runWhere (by decide)
  exact ⟨s, hmeets.run, (noneDropped_iff hmeets.run).mpr hmeets⟩

/-- **A disconnect that arrives while the connection settles is dropped**: the next generation
parks, and nothing ends it. -/
theorem disconnect_dropped :
    ¬ ∀ (connectionID : Uuid) (tenantID connectorID : String) (t : Time) (es : List Event)
      (s : State) (tr : List Record),
      recorded.Run (.fresh connectionID tenantID connectorID t) es s tr → NoneDropped tr := by
  intro hall
  obtain ⟨s, h⟩ : ∃ s, recorded.Run (.fresh 0 "t" "github" 0) (repeatedRun [.disconnect]) s
      (repeatedBefore ++ [.inl .disconnect] ++ repeatedAfter) := Lts.exists_run (by decide)
  have hnone := hall _ _ _ _ _ _ _ h (repeatedBefore ++ [.inl .disconnect]) _ _ rfl false rfl
    .disconnect (by decide)
  revert hnone
  decide

end Workflow
end Hivebook
