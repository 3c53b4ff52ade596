import Hivebook.Database.Standing
import Hivebook.Service.AtWork
import Hivebook.Service.Chunks

/-!
# A connection at rest

A run marks its units and its connection as it goes: `StartRun` shows the connection `syncing`,
`SyncUnit` sets its unit `syncing`, and `SettleConnection` writes the resting status.  Nothing
resets a unit: `ResetActiveUnits` is there for it, and is never called.  So a unit that was left
`syncing` when its run settles stays so, an exit by an error restores nothing, and a fold to
`backfilling` is itself shown as syncing.

If every run leaves only with nothing to restore, a connection at rest shows no activity.

## Main definitions

* `Control.resting` — no run is active.
* `leavesNothing id` — the condition: what the ways out of a run ask of the steps before.
* `RestInv` — the invariant.

## Main results

* `settle_returns` — a settle that succeeds has counted, and has written the fold or found the
  credentials rejected.
* `accounted_of_run` — in every run the trace accounts for who is at work.
* `no_stranded_syncing` — **a connection is at rest in the tables exactly if nothing that was put to
  work is left so, and it is whenever no run is active if runs leave nothing to restore.**
* `stopped_run_stranded` — a run that is stopped midway leaves its unit `syncing`.
-/

namespace Hivebook
namespace Workflow

open Database Orchestration Connectors

/-! ### Rest -/

/-- No run is active. -/
def Control.resting : Control → Bool
  | .getSchedule | .idle _ | .refresh | .completed | .failed => true
  | _ => false

/-- No run is active, or the last activity of a run is. -/
def Control.windingDown : Control → Bool
  | .settle _ => true
  | c => c.resting

theorem windingDown_of_resting {c : Control} (h : c.resting = true) : c.windingDown = true := by
  cases c <;> first | rfl | exact h

/-- The command may put the connection to work: it starts a unit, or writes a status that is shown
as activity. -/
def activates (id : Uuid) : Cmd → Bool
  | .statement (.setUnitStatus id' _ st) => decide (id' = id) && activeStatus st
  | .statement (.startRunConnection id') => decide (id' = id)
  | .statement (.setConnectionStatus id' st _) | .statement (.setConnectionSettled id' st) =>
      decide (id' = id) && shownActive st
  | _ => false

/-- The statement puts a unit of the connection to work, or the connection. -/
def putsToWork (id : Uuid) (db : Database) : Statement → Bool
  | .setUnitStatus id' x st => startsUnit id x db (.setUnitStatus id' x st)
  | s => startsRow id db s

section Command

variable {id : Uuid} {w : World} {c : Cmd} {b : Bool} {t : Choice}

/-- A command that may put nothing to work does not. -/
theorem not_carriesOut_of_not_activates (h : activates id c = false) :
    carriesOut (putsToWork id) ⟨w, c, b, t⟩ = false := by
  unfold carriesOut
  cases c with
  | statement s =>
    cases s with
    | setUnitStatus id' x st =>
      rcases Bool.and_eq_false_iff.mp h with hid | hst
      · have hne : id' ≠ id := of_decide_eq_false hid
        simp [putsToWork, startsUnit, hne]
      · simp [putsToWork, startsUnit, hst]
    | startRunConnection id' =>
      have hne : id' ≠ id := of_decide_eq_false h
      simp [putsToWork, startsRow, hne]
    | setConnectionStatus id' st text | setConnectionSettled id' st =>
      rcases Bool.and_eq_false_iff.mp h with hid | hst
      · have hne : id' ≠ id := of_decide_eq_false hid
        simp [putsToWork, startsRow, hne]
      · simp [putsToWork, startsRow, hst]
    | _ => exact Bool.and_false _
  | _ => exact Bool.and_false _

theorem not_startsUnit (x : String) (h : carriesOut (putsToWork id) ⟨w, c, b, t⟩ = false) :
    carriesOut (startsUnit id x) ⟨w, c, b, t⟩ = false := by
  unfold carriesOut at h ⊢
  cases c with
  | statement s =>
    cases s with
    | setUnitStatus id' x' st =>
      by_cases hx : x' = x
      · subst hx
        exact h
      · simp [startsUnit, hx]
    | _ => exact Bool.and_false _
  | _ => exact Bool.and_false _

theorem not_startsRow (h : carriesOut (putsToWork id) ⟨w, c, b, t⟩ = false) :
    carriesOut (startsRow id) ⟨w, c, b, t⟩ = false := by
  unfold carriesOut at h ⊢
  cases c with
  | statement s =>
    cases s with
    | setUnitStatus id' x' st => exact Bool.and_false _
    | _ => exact h
  | _ => exact h

/-- **Units at rest stay so** unless a command puts one to work. -/
theorem UnitsRest.step (h : UnitsRest id w.db)
    (hno : carriesOut (putsToWork id) ⟨w, c, b, t⟩ = false) :
    UnitsRest id (service.perform t b w c).1.db := by
  rw [unitsRest_iff] at h ⊢
  intro x
  rw [carriesOut_perform (f := unitAtWork id x) unitAtWork_exec, not_startsUnit x hno, h x]
  rfl

/-- **A connection at rest stays so** unless a command puts it to work. -/
theorem StatusRests.step (h : StatusRests id w.db)
    (hno : carriesOut (putsToWork id) ⟨w, c, b, t⟩ = false) :
    StatusRests id (service.perform t b w c).1.db := by
  rw [statusRests_iff] at h ⊢
  rw [carriesOut_perform (f := rowAtWork id) rowAtWork_exec, not_startsRow hno, h]
  rfl

/-- A settle that is carried out and puts nothing to work leaves the connection at rest. -/
theorem statusRests_of_settled {st : ConnectionStatus} (heff : t.takesEffect b = true)
    (hno : carriesOut (putsToWork id) ⟨w, .statement (.setConnectionSettled id st), b, t⟩ = false) :
    StatusRests id (service.perform t b w (.statement (.setConnectionSettled id st))).1.db := by
  have hnot := not_startsRow hno
  rw [statusRests_iff, carriesOut_perform (f := rowAtWork id) rowAtWork_exec, hnot, Bool.false_or]
  have heff' : tookEffect ⟨w, .statement (.setConnectionSettled id st), b, t⟩ = true := heff
  unfold carriesOut at hnot ⊢
  rw [heff', Bool.true_and] at hnot ⊢
  simp only [startsRow, clearsRow, decide_true, Bool.true_and] at hnot ⊢
  -- a status that is shown as activity is written only where there is no row
  cases hst : shownActive st with
  | false => simp
  | true =>
    rw [hst, Bool.true_and, Option.isSome_eq_false_iff, Option.isNone_iff_eq_none] at hnot
    simp [rowAtWork, hnot]

end Command

/-! ### The condition -/

/-- The result ends the run: a control activity has failed for good. -/
def endsRun (c : Control) : Event → Bool
  | .startRunDone (.error _) | .discoverDone (.error _) | .capacityDone (.error _)
  | .batchDone (.error _) | .settleDone (.error _) => c.run?.isSome
  | _ => false

theorem not_endsRun_of_free {c : Control} {e : Event} (h : e.free = true) :
    endsRun c e = false := by
  cases e <;> first | rfl | cases h

/-- The fold of a settle that counts now. -/
def settlesTo (id : Uuid) (db : Database) : ConnectionStatus :=
  settleStatus (settleCounts id db).total (settleCounts id db).errored
    (settleCounts id db).uncommitted

/-- More of the selected units were never committed than are in error. -/
def backfills (id : Uuid) (db : Database) : Bool :=
  decide ((settleCounts id db).errored < (settleCounts id db).uncommitted)

/-- **A settle folds to a status that is shown as activity** exactly if it finds a backfill. -/
theorem shownActive_settlesTo (id : Uuid) (db : Database) :
    shownActive (settlesTo id db) = backfills id db := by
  have hle : (settleCounts id db).uncommitted ≤ (settleCounts id db).total := by
    refine List.countP_mono_left fun u _ h => ?_
    simp only [Bool.and_eq_true] at h ⊢
    exact ⟨h.1, h.2.1, h.2.2.1⟩
  unfold settlesTo settleStatus backfills
  split_ifs with htotal herrored hback hsome
  · rw [decide_eq_false (by omega)]
    rfl
  · rw [decide_eq_false (by omega)]
    rfl
  · rw [decide_eq_true hback]
    rfl
  · rw [decide_eq_false hback]
    rfl
  · rw [decide_eq_false hback]
    rfl

/-- The workflow does not wait for the execution: it has ended, or the execution was superseded or
its task is over. -/
def leftBehind (s : Running) (i : ℕ) : Bool :=
  s.workflow.control.ended || s.tasks.all fun task => decide (task.execution ≠ i)

/-- **The condition.**  A control activity fails for good only when everything that was put to work
was put to rest since; a settle counts only when this is so of the units, and no more of the
selected ones were never committed than are in error; and while no run is active or the run
settles, neither an execution that was left behind nor another program puts the connection or a
unit of it to work. -/
def leavesNothing (id : Uuid) (s : Running) (tr : List Mark) : Happening → Bool
  | .deliver k =>
      match s.tasks[k]? with
      | some ⟨_, _, _, some e⟩ =>
          !endsRun s.workflow.control e || decide (NothingLeft id tr)
      | _ => true
  | .turn i t =>
      match s.executions[i]? with
      | some ⟨.call c _, b⟩ =>
          if leftBehind s i then !(s.workflow.control.windingDown &&
            carriesOut (putsToWork id) ⟨s.world, c, b || t.cancel, t.choice⟩)
          else match c with
            | .statement (.settleCounts _) =>
                decide (UnitsCleared id tr) && !backfills id s.world.db
            | _ => true
      | _ => true
  | .other (.turn i t) =>
      match s.others[i]? with
      | some ⟨.call c _, b⟩ => !(s.workflow.control.windingDown &&
          carriesOut (putsToWork id) ⟨s.world, c, b || t.cancel, t.choice⟩)
      | _ => true
  | _ => true

/-! ### What a settle does -/

section Settle

variable {id : Uuid} {ls : List (Performed World Choice Cmd)}

/-- The settle has written its fold, or has found the credentials rejected. -/
def settledBy (id : Uuid) (l : Performed World Choice Cmd) : Prop :=
  (∃ st, l.cmd = .statement (.setConnectionSettled id st) ∧ tookEffect l = true) ∨
    (l.cmd = .statement (.getConnectionByID id) ∧ l.state.db.statusOf id = some .needsReauth)

theorem settledBy_of_setConnectionSettled {conn : Connection} {st : ConnectionStatus}
    (h : Log service (Activities.setConnectionSettled conn st) ls (.pure (.ok ()))) :
    conn.status = .needsReauth ∨ ∃ l ∈ ls, settledBy conn.id l := by
  unfold Activities.setConnectionSettled at h
  by_cases hst : conn.status = .needsReauth
  · exact .inl hst
  · rw [if_neg hst] at h
    obtain ⟨ls₁, ls₂, r, rfl, hset, hrest⟩ := Log.returns_bind h
    cases r with
    | error e => cases hrest.of_pure.2
    | ok _ =>
      obtain ⟨l, rfl, hcmd, hreply⟩ := log_statement hset
      exact .inr ⟨l, by simp, .inl ⟨st, hcmd, (of_reply_eq_ok hreply).1⟩⟩

/-- **A settle that succeeds has counted, and has written the fold or found the credentials
rejected.** -/
theorem settle_returns {st : ConnectionStatus}
    (h : Log service (Activities.settleConnection id) ls (.pure (.ok st))) :
    (∃ l ∈ ls, l.cmd = .statement (.settleCounts id)) ∧ ∃ l ∈ ls, settledBy id l := by
  obtain ⟨ls₁, rest₁, r₁, rfl, hcounts, h₁⟩ := Log.returns_bind h
  cases r₁ with
  | error e => cases h₁.of_pure.2
  | ok n =>
    obtain ⟨l₁, rfl, hcmd₁, -⟩ := log_statement hcounts
    refine ⟨⟨l₁, by simp, hcmd₁⟩, ?_⟩
    obtain ⟨ls₂, rest₂, r₂, rfl, hread, h₂⟩ := Log.returns_bind h₁
    cases r₂ with
    | error e => cases h₂.of_pure.2
    | ok conn =>
      obtain ⟨l₂, rfl, hcmd₂, hreply⟩ := log_statement hread
      obtain ⟨hmem, hid⟩ := mem_of_getConnectionByID (of_reply_eq_ok hreply).2
      obtain ⟨ls₃, rest₃, r₃, rfl, hset, h₃⟩ := Log.returns_bind h₂
      cases r₃ with
      | error e => cases h₃.of_pure.2
      | ok _ =>
        rcases settledBy_of_setConnectionSettled hset with hst | ⟨l, hl, hsettled⟩
        · refine ⟨l₂, by simp, .inr ⟨hcmd₂, ?_⟩⟩
          unfold Database.statusOf
          rw [standing_of_mem hmem hid, hst]
          rfl
        · rw [hid] at hsettled
          exact ⟨l, by simp [hl], hsettled⟩

/-- **A settle whose counts fold to a resting status does not put the connection to work.** -/
theorem not_activates_of_settle {c : Cmd}
    {k : c.Resp → Program (Except ActivityError ConnectionStatus)}
    (h : Log service (Activities.settleConnection id) ls (.call c k))
    (hfold : ∀ l ∈ ls, l.cmd = .statement (.settleCounts id) →
      shownActive (settlesTo id l.state.db) = false) : activates id c = false := by
  have huses := (h.uses (uses_settleConnection id)).1
  have hallowed := (h.follows (settleConnection_follows_tallying id)).1
  cases c with
  | statement s =>
    cases s with
    | setConnectionSettled id' st =>
      by_cases hid : id' = id
      · obtain ⟨id₀, n, conn, hcounts, hread, hconn, hst⟩ := hallowed
        obtain ⟨l, hl, hcmd, hn⟩ := mem_tallying hcounts
        obtain ⟨l', -, -, hfound⟩ := mem_tallying hread
        -- the row it writes to is the one it has counted the units of
        have hid₀ : id₀ = id :=
          (mem_of_getConnectionByID hfound).2.symm.trans (hconn.symm.trans hid)
        subst hid₀
        obtain rfl : settleCounts id₀ l.state.db = n := Except.ok.inj hn
        have hrest := hfold l hl hcmd
        rw [settlesTo, ← hst] at hrest
        simp [activates, hrest]
      · simp [activates, hid]
    | _ => first | rfl | cases huses
  | _ => rfl

end Settle

/-! ### What a discovery does -/

section Discovery

variable {a : Activities} {id : Uuid} {ls : List (Performed World Choice Cmd)}

theorem activates_of_touchesTokens {c : Cmd} (h : c.touchesTokens = true) :
    activates id c = false := by
  cases c with
  | statement s => cases s <;> first | rfl | cases h
  | _ => rfl

/-- The connection that was loaded was read. -/
theorem read_of_loadConnection {conn : Connection} {connector : Connector}
    (h : Log service (a.loadConnection id) ls (.pure (.ok (conn, connector)))) :
    ∃ l ∈ ls, conn ∈ l.state.db.connections.rows ∧ conn.id = id := by
  obtain ⟨ls₁, ls₂, r, rfl, hread, hrest⟩ := Log.returns_bind h
  cases r with
  | error e => cases hrest.of_pure.2
  | ok conn' =>
    obtain ⟨l, rfl, -, hreply⟩ := log_statement hread
    refine ⟨l, by simp, ?_⟩
    dsimp only at hrest
    split at hrest
    · cases hrest.of_pure.2
    · cases hrest.of_pure.2
      exact mem_of_getConnectionByID (of_reply_eq_ok hreply).2

/-- **A discovery that has looked at a connection at rest does not put it to work.** -/
theorem not_activates_of_discovery {c : Cmd}
    {k : c.Resp → Program (Except ActivityError DiscoverResult)}
    (h : Log service (a.discoverUnits id) ls (.call c k))
    (hlooked : ∀ l ∈ ls, StatusRests id l.state.db) : activates id c = false := by
  rw [discoverUnits_loaded] at h
  rcases h.of_bind with ⟨c', k', heq, hload⟩ | ⟨ls₁, ls₂, r, rfl, hload, hrest⟩
  · cases heq
    exact activates_of_touchesTokens (hload.uses (a.touchesTokens_loadConnection id)).1
  · cases r with
    | error e => cases hrest.of_pure.2
    | ok cc =>
      obtain ⟨l, hl, hmem, hid⟩ := read_of_loadConnection hload
      have hresting := hlooked l (by simp [hl]) cc.1 hmem hid
      have hissued := (hrest.uses (uses_discoverLoaded a cc.2)).1
      cases hissued with
      | tokens hc => exact activates_of_touchesTokens hc
      | setStatus text => simp [activates, hresting]
      | _ => rfl

end Discovery

/-! ### How a workflow comes to rest -/

section Steps

variable {s s' : State} {e : Event} {as : List Action}

/-- **A run ends in a failure because a control activity has failed for good.** -/
theorem endsRun_of_failed (h : step s e = some (s', as)) (hfailed : s'.control = .failed)
    {r : RunState} (hrun : s.control.run? = some r) : endsRun s.control e = true := by
  have hfails := failsControl_of_failed h hfailed hrun
  have hsome : s.control.run?.isSome = true := by
    rw [hrun]
    rfl
  cases e with
  | startRunDone res | discoverDone res | capacityDone res | batchDone res | settleDone res =>
    cases res with
    | error t => exact hsome
    | ok v => cases hfails
  | _ => cases hfails

theorem not_resting_of_run {c : Control} {r : RunState} (h : c.run? = some r) :
    c.resting = false := by
  cases c <;> first | rfl | cases h

/-- **How a workflow comes to rest**: it was at rest, its settle has succeeded, or it fails. -/
theorem Transition.of_resting (ht : Transition s e s' as) (h : s'.control.resting = true) :
    s.control.resting = true ∨ (∃ r st, s.control = .settle r ∧ e = .settleDone (.ok st)) ∨
      (s'.control = .failed ∧ ∃ r, s.control.run? = some r) := by
  have hrun : ∀ {c : Control} {r : RunState}, c.run? = some r → c.resting ≠ true := by
    intro c r hc
    rw [not_resting_of_run hc]
    exact Bool.false_ne_true
  cases ht with
  | signal x hend => exact .inl h
  | tick d => exact .inl h
  | park r timer hc | wake timer x c a hc | disconnected timer hc | refreshed r hc =>
    rw [hc]
    exact .inl rfl
  | discovered r n c l hc hd => exact absurd h (hrun hd.run?_eq)
  | refilling r p c l hc hd => exact absurd h (hrun hd.run?_eq)
  | launching r p n ids c l hc hd => exact absurd h (hrun hd.run?_eq)
  | crossed r x res c l hc hx hnot hd => exact absurd h (hrun hd.run?_eq)
  | trigger timer hc | due timer hc | runStarted r hc | resumed r x res hc => cases h
  | ended r st hc | rerun r st hc | rested r st hc => exact .inr (.inl ⟨r, st, hc, rfl⟩)
  | failed ev r hr hsel => exact .inr (.inr ⟨rfl, r, hr⟩)

/-- A refresh goes on, or was started from the idle loop. -/
theorem Transition.of_refresh (ht : Transition s e s' as) (h : s'.control = .refresh) :
    s.control = .refresh ∨ ∃ timer, s.control = .idle timer := by
  cases ht with
  | signal x hend => exact .inl h
  | tick d => exact .inl h
  | wake timer x c a hc => exact .inr ⟨timer, hc⟩
  | discovered r n c l hc hd => cases hd <;> cases h
  | refilling r p c l hc hd => cases hd <;> cases h
  | launching r p n ids c l hc hd => cases hd <;> cases h
  | crossed r x res c l hc hx hnot hd => cases hd <;> cases h
  | _ => cases h

/-- A settle goes on, or the workflow did not wait for one before. -/
theorem Transition.of_settle (ht : Transition s e s' as) {r : RunState}
    (h : s'.control = .settle r) :
    s.control = .settle r ∨ (s.control.ended = false ∧ .settleConnection ∉ s.control.awaits) := by
  cases ht with
  | signal x hend => exact .inl h
  | tick d => exact .inl h
  | wake timer x c a hc _ _ _ hto =>
    obtain ⟨rfl, -⟩ | ⟨rfl, -⟩ := hto <;> cases h
  | discovered r₀ n c l hc hd =>
    rw [hc]
    exact .inr ⟨rfl, by simp [Control.awaits]⟩
  | refilling r₀ p c l hc hd =>
    rw [hc]
    exact .inr ⟨rfl, by simp [Control.awaits]⟩
  | launching r₀ p n ids c l hc hd =>
    rw [hc]
    exact .inr ⟨rfl, by simp [Control.awaits]⟩
  | crossed r₀ x res c l hc hx hnot hd =>
    rw [hc]
    exact .inr ⟨rfl, by simp [Control.awaits]⟩
  | _ => cases h

end Steps

/-! ### The invariant -/

/-- What holds of a connection at rest, of the refresh of its catalog and of its settle. -/
structure RestInv (id : Uuid) (s : Running) (tr : List Mark) : Prop where
  rest : s.workflow.control.resting = true → UnitsRest id s.world.db ∧ StatusRests id s.world.db
  /-- A refresh has only looked at a connection at rest. -/
  looked : s.workflow.control = .refresh → ∀ task ∈ s.tasks,
    ∀ l ∈ performedBy task.execution tr, StatusRests id l.state.db
  /-- Units that a settle has counted at rest are still so. -/
  counted : ∀ r, s.workflow.control = .settle r → ∀ task ∈ s.tasks,
    ∀ l ∈ performedBy task.execution tr, l.cmd = .statement (.settleCounts id) →
      UnitsRest id s.world.db ∧ backfills id l.state.db = false
  /-- A connection that a settle has put to rest is still so. -/
  written : ∀ r, s.workflow.control = .settle r → ∀ task ∈ s.tasks,
    ∀ l ∈ performedBy task.execution tr, settledBy id l → StatusRests id s.world.db

section Moves

variable {a : Activities} {sv : Server} {id : Uuid} {tenantID connectorID : String}
  {s s' : Running} {tr as : List Mark} {e : Happening}

/-- **What the workflow waits for while no run is active, or the run settles, does not put the
connection to work.** -/
theorem RestInv.not_activates (h : RestInv id s tr) (hatt : Attended s)
    (htr : Traced (connectionOver a id tenantID connectorID) service s tr)
    {task : Task Activity Event} (htask : task ∈ s.tasks)
    (hend : s.workflow.control.ended = false)
    (hwinding : s.workflow.control.windingDown = true) {c : Cmd} {k : c.Resp → Program Event}
    {b : Bool} (hi : s.executions[task.execution]? = some ⟨.call c k, b⟩) :
    activates id c = false := by
  obtain ⟨th, hth, hlog, -⟩ := htr.task task htask
  rw [hi] at hth
  cases hth
  have hawaited := hatt.mem_awaits hend htask
  cases hc : s.workflow.control with
  -- the discovery between two runs leaves a connection alone that it found at rest
  | refresh =>
    rw [hc] at hawaited
    have hact : task.act = .discoverUnits := List.mem_singleton.mp hawaited
    rw [hact] at hlog
    obtain ⟨p, heq, hlog'⟩ := Log.of_map hlog
    cases p with
    | pure r => cases heq
    | call c' k' =>
      cases heq
      exact not_activates_of_discovery hlog' (h.looked hc task htask)
  | settle r =>
    rw [hc] at hawaited
    have hact : task.act = .settleConnection := List.mem_singleton.mp hawaited
    rw [hact] at hlog
    obtain ⟨p, heq, hlog'⟩ := Log.of_map hlog
    cases p with
    | pure r => cases heq
    | call c' k' =>
      cases heq
      refine not_activates_of_settle hlog' fun l hl hcmd => ?_
      rw [shownActive_settlesTo]
      exact (h.counted r hc task htask l hl hcmd).2
  | getSchedule | idle _ =>
    rw [hc] at hawaited
    cases hawaited
  | completed | failed =>
    rw [hc] at hend
    cases hend
  | _ =>
    rw [hc] at hwinding
    cases hwinding

/-- A command of an execution is the last that it has performed. -/
theorem mem_performedBy_snoc {i j : ℕ} {l l' : Performed World Choice Cmd}
    (h : l' ∈ performedBy j (tr ++ [.performed i l])) :
    l' ∈ performedBy j tr ∨ (i = j ∧ l' = l) := by
  rw [performedBy_append] at h
  rcases List.mem_append.mp h with h | h
  · exact .inl h
  · obtain ⟨m, hmem, heq⟩ := List.mem_filterMap.mp h
    cases List.mem_singleton.mp hmem
    simp only [Label.byExecution] at heq
    by_cases hij : i = j
    · rw [if_pos hij] at heq
      exact .inr ⟨hij, (Option.some.inj heq).symm⟩
    · rw [if_neg hij] at heq
      cases heq

/-- A read leaves a connection whose credentials were found rejected at rest. -/
theorem statusRests_of_needsReauth {db : Database} (h : db.statusOf id = some .needsReauth) :
    StatusRests id db := by
  intro c hc hid
  unfold Database.statusOf at h
  rw [standing_of_mem hc hid] at h
  rw [show c.status = .needsReauth from Option.some.inj h]
  rfl

/-- **A command of an execution keeps the invariant.** -/
theorem RestInv.turn (h : RestInv id s tr) (hatt : Attended s)
    (htr : Traced (connectionOver a id tenantID connectorID) service s tr)
    (haccount : Accounted id s.world.db tr) {i : ℕ} {t : Turn Choice} {c : Cmd}
    {k : c.Resp → Program Event} {b : Bool} (hi : s.executions[i]? = some ⟨.call c k, b⟩)
    (hC : leavesNothing id s tr (.turn i t) = true)
    (hworkflow : s'.workflow = s.workflow) (htasks : s'.tasks = s.tasks)
    (hworld : s'.world = (service.perform t.choice (b || t.cancel) s.world c).1) :
    RestInv id s' (tr ++ [.performed i ⟨s.world, c, b || t.cancel, t.choice⟩]) := by
  simp only [leavesNothing, hi] at hC
  -- while the workflow winds down, no execution wakes the connection up
  have hno : s.workflow.control.windingDown = true →
      carriesOut (putsToWork id) ⟨s.world, c, b || t.cancel, t.choice⟩ = false := by
    intro hwinding
    by_cases hleft : leftBehind s i = true
    · rw [if_pos hleft, hwinding] at hC
      simpa using hC
    · -- the workflow waits for the execution
      obtain ⟨hend, hwaits⟩ := Bool.or_eq_false_iff.mp (Bool.eq_false_iff.mpr hleft)
      obtain ⟨task, htask, hex⟩ := List.all_eq_false.mp hwaits
      have heq : task.execution = i := by simpa using hex
      exact not_carriesOut_of_not_activates
        (h.not_activates hatt htr htask hend hwinding (heq ▸ hi))
  refine ⟨fun hrest => ?_, fun hc task htask l hl => ?_,
    fun r hc task htask l hl hcmd => ?_, fun r hc task htask l hl hsettled => ?_⟩
  · rw [hworkflow] at hrest
    rw [hworld]
    have hno' := hno (windingDown_of_resting hrest)
    exact ⟨(h.rest hrest).1.step hno', (h.rest hrest).2.step hno'⟩
  · rw [hworkflow] at hc
    rw [htasks] at htask
    rcases mem_performedBy_snoc hl with hl | ⟨-, rfl⟩
    · exact h.looked hc task htask l hl
    · exact (h.rest (by rw [hc]; rfl)).2
  · rw [hworkflow] at hc
    rw [htasks] at htask
    rw [hworld]
    have hno' := hno (by rw [hc]; rfl)
    rcases mem_performedBy_snoc hl with hl | ⟨hex, rfl⟩
    · have hbefore := h.counted r hc task htask l hl hcmd
      exact ⟨hbefore.1.step hno', hbefore.2⟩
    · -- the settle counts now
      obtain rfl : c = .statement (.settleCounts id) := hcmd
      have hwaits : leftBehind s i = false := by
        refine Bool.or_eq_false_iff.mpr ⟨by rw [hc]; rfl, ?_⟩
        exact List.all_eq_false.mpr ⟨task, htask, by simp [hex]⟩
      rw [hwaits] at hC
      simp only [Bool.false_eq_true, if_false, Bool.and_eq_true, decide_eq_true_eq,
        Bool.not_eq_true'] at hC
      exact ⟨(haccount.unitsRest_iff.mpr hC.1).step hno', hC.2⟩
  · rw [hworkflow] at hc
    rw [htasks] at htask
    rw [hworld]
    have hno' := hno (by rw [hc]; rfl)
    rcases mem_performedBy_snoc hl with hl | ⟨-, rfl⟩
    · exact (h.written r hc task htask l hl hsettled).step hno'
    · rcases hsettled with ⟨st, hcmd, heff⟩ | ⟨-, hreauth⟩
      · obtain rfl : c = .statement (.setConnectionSettled id st) := hcmd
        exact statusRests_of_settled heff hno'
      · exact (statusRests_of_needsReauth hreauth).step hno'

/-- **A command of another program keeps the invariant.** -/
theorem RestInv.other (h : RestInv id s tr) {c : Cmd} {b : Bool} {t : Choice}
    (hno : s.workflow.control.windingDown = true →
      carriesOut (putsToWork id) ⟨s.world, c, b, t⟩ = false)
    (hworkflow : s'.workflow = s.workflow) (htasks : s'.tasks = s.tasks)
    (hworld : s'.world = (service.perform t b s.world c).1) :
    RestInv id s' (tr ++ [.other ⟨s.world, c, b, t⟩]) := by
  have hsame : ∀ j, performedBy j (tr ++ [(.other ⟨s.world, c, b, t⟩ : Mark)]) =
      performedBy j tr := fun j => performedBy_quiet (by simp)
  refine ⟨fun hrest => ?_, fun hc task htask l hl => ?_,
    fun r hc task htask l hl hcmd => ?_, fun r hc task htask l hl hsettled => ?_⟩
  · rw [hworkflow] at hrest
    rw [hworld]
    have hno' := hno (windingDown_of_resting hrest)
    exact ⟨(h.rest hrest).1.step hno', (h.rest hrest).2.step hno'⟩
  · rw [hworkflow] at hc
    rw [htasks] at htask
    rw [hsame] at hl
    exact h.looked hc task htask l hl
  · rw [hworkflow] at hc
    rw [htasks] at htask
    rw [hsame] at hl
    rw [hworld]
    have hbefore := h.counted r hc task htask l hl hcmd
    exact ⟨hbefore.1.step (hno (by rw [hc]; rfl)), hbefore.2⟩
  · rw [hworkflow] at hc
    rw [htasks] at htask
    rw [hsame] at hl
    rw [hworld]
    exact (h.written r hc task htask l hl hsettled).step (hno (by rw [hc]; rfl))

/-- A step that leaves the workflow and the world alone keeps the invariant, if no task has an
execution that has done more. -/
theorem RestInv.tasks (h : RestInv id s tr) (hworkflow : s'.workflow = s.workflow)
    (hworld : s'.world = s.world)
    (htasks : ∀ task' ∈ s'.tasks, ∃ task ∈ s.tasks,
      performedBy task'.execution (tr ++ as) ⊆ performedBy task.execution tr) :
    RestInv id s' (tr ++ as) := by
  refine ⟨fun hrest => ?_, fun hc task' htask' l hl => ?_,
    fun r hc task' htask' l hl hcmd => ?_, fun r hc task' htask' l hl hsettled => ?_⟩
  · rw [hworkflow] at hrest
    rw [hworld]
    exact h.rest hrest
  · rw [hworkflow] at hc
    obtain ⟨task, htask, hsub⟩ := htasks task' htask'
    exact h.looked hc task htask l (hsub hl)
  · rw [hworkflow] at hc
    rw [hworld]
    obtain ⟨task, htask, hsub⟩ := htasks task' htask'
    exact h.counted r hc task htask l (hsub hl) hcmd
  · rw [hworkflow] at hc
    rw [hworld]
    obtain ⟨task, htask, hsub⟩ := htasks task' htask'
    exact h.written r hc task htask l (hsub hl) hsettled

/-- **The end of a task keeps the invariant.** -/
theorem RestInv.ended (h : RestInv id s tr) {k : ℕ} {task : Task Activity Event} {ev : Event}
    (hk : s.tasks[k]? = some task) :
    RestInv id (settle s k task ev) (tr ++ [.ended task.act ev]) := by
  refine h.tasks rfl rfl fun task' htask' => ?_
  have hsame : ∀ j, performedBy j (tr ++ [(.ended task.act ev : Mark)]) = performedBy j tr :=
    fun j => performedBy_quiet (by simp)
  rcases List.mem_or_eq_of_mem_set htask' with hold | rfl
  · exact ⟨task', hold, by rw [hsame]; exact fun _ hl => hl⟩
  · exact ⟨task, List.mem_of_getElem? hk, by rw [hsame]; exact fun _ hl => hl⟩

/-- **Another attempt keeps the invariant.** -/
theorem RestInv.retry (h : RestInv id s tr)
    (htr : Traced (connectionOver a id tenantID connectorID) service s tr) {k : ℕ}
    {task : Task Activity Event} (hk : s.tasks[k]? = some task) :
    RestInv id ((connectionOver a id tenantID connectorID).attemptAgain s k task) tr := by
  rw [← List.append_nil tr]
  refine h.tasks rfl rfl fun task' htask' => ?_
  rw [List.append_nil]
  rcases List.mem_or_eq_of_mem_set htask' with hold | rfl
  · exact ⟨task', hold, fun _ hl => hl⟩
  · -- the new execution has performed nothing
    refine ⟨task, List.mem_of_getElem? hk, ?_⟩
    rw [htr.performedBy_eq_nil (Nat.le_refl _)]
    exact List.nil_subset _

/-- **A step of the workflow keeps the invariant**, if the connection is at rest when the workflow
comes to rest. -/
theorem RestInv.goOn (h : RestInv id s tr) (hatt : Attended s) {s₀ : Running} {ev : Event}
    {r : State × List Action} (ht : Transition s.workflow ev r.1 r.2)
    (htr : Traced (connectionOver a id tenantID connectorID) service s₀ tr)
    (hatt' : Attended ((connectionOver a id tenantID connectorID).goOn s₀ r))
    (hworld : s₀.world = s.world) (htasks : ∀ task ∈ s₀.tasks, task ∈ s.tasks)
    (has : ∀ m ∈ as, ofWorkflow m = true)
    (hrest : r.1.control.resting = true → UnitsRest id s.world.db ∧ StatusRests id s.world.db) :
    RestInv id ((connectionOver a id tenantID connectorID).goOn s₀ r) (tr ++ as) := by
  -- a task that is scheduled now has an execution that performed nothing yet
  have hnew : ∀ {task : Task Activity Event},
      task ∈ ((connectionOver a id tenantID connectorID).goOn s₀ r).tasks →
      ∀ {l}, l ∈ performedBy task.execution (tr ++ as) →
        task ∈ s.tasks ∧ l ∈ performedBy task.execution tr := by
    intro task htask l hl
    rw [performedBy_workflow has] at hl
    rcases mem_goOn_tasks htask with hold | ⟨-, hfresh⟩
    · exact ⟨htasks task hold, hl⟩
    · rw [htr.performedBy_eq_nil hfresh] at hl
      cases hl
  -- a settle that was waited for before is still the one waited for
  have hsettle : ∀ {task : Task Activity Event} {r₀ : RunState}, r.1.control = .settle r₀ →
      task ∈ ((connectionOver a id tenantID connectorID).goOn s₀ r).tasks → task ∈ s.tasks →
      s.workflow.control = .settle r₀ := by
    intro task r₀ hc htask hold
    rcases ht.of_settle hc with hc' | ⟨hend, hnot⟩
    · exact hc'
    · -- the task is the settle, and was not waited for before
      have hact := hatt'.mem_awaits (by rw [goOn_workflow, hc]; rfl) htask
      rw [goOn_workflow, hc, Control.awaits, List.mem_singleton] at hact
      have hbefore := hatt.mem_awaits hend hold
      rw [hact] at hbefore
      exact absurd hbefore hnot
  refine ⟨fun hr => ?_, fun hc task htask l hl => ?_,
    fun r₀ hc task htask l hl hcmd => ?_, fun r₀ hc task htask l hl hsettled => ?_⟩
  · rw [goOn_workflow] at hr
    rw [goOn_world, hworld]
    exact hrest hr
  · rw [goOn_workflow] at hc
    obtain ⟨hold, hl⟩ := hnew htask hl
    rcases ht.of_refresh hc with hc' | ⟨timer, hc'⟩
    · exact h.looked hc' task hold l hl
    · -- the idle loop waits for nothing
      have hawaited := hatt.mem_awaits (by rw [hc']; rfl) hold
      rw [hc'] at hawaited
      cases hawaited
  · rw [goOn_workflow] at hc
    rw [goOn_world, hworld]
    obtain ⟨hold, hl⟩ := hnew htask hl
    exact h.counted r₀ (hsettle hc htask hold) task hold l hl hcmd
  · rw [goOn_workflow] at hc
    rw [goOn_world, hworld]
    obtain ⟨hold, hl⟩ := hnew htask hl
    exact h.written r₀ (hsettle hc htask hold) task hold l hl hsettled

/-- **An event that is no result of an activity keeps the invariant.** -/
theorem RestInv.free (h : RestInv id s tr) (hatt : Attended s)
    (htr : Traced (connectionOver a id tenantID connectorID) service s tr) {ev : Event}
    {r : State × List Action} (hfree : ev.free = true)
    (hr : connectionWorkflow.step s.workflow ev = some r)
    (hatt' : Attended ((connectionOver a id tenantID connectorID).goOn s r)) :
    RestInv id ((connectionOver a id tenantID connectorID).goOn s r)
      (tr ++ r.2.map Label.action) := by
  have ht := (hatt.wf.step hr).1
  have hfails : r.1.control = .failed → ∀ r₀, s.workflow.control.run? ≠ some r₀ := by
    intro hfailed r₀ hrun
    have hends := endsRun_of_failed hr hfailed hrun
    rw [not_endsRun_of_free hfree] at hends
    cases hends
  refine h.goOn hatt ht htr hatt' rfl (fun _ htask => htask) (ofWorkflow_actions _) fun hrest => ?_
  rcases ht.of_resting hrest with hbefore | ⟨r₀, st, -, rfl⟩ | ⟨hfailed, r₀, hrun⟩
  · exact h.rest hbefore
  · cases hfree
  · exact absurd hrun (hfails hfailed r₀)

/-- **A settle that has succeeded leaves the connection at rest.** -/
theorem RestInv.settled (h : RestInv id s tr)
    (htr : Traced (connectionOver a id tenantID connectorID) service s tr)
    {task : Task Activity Event} {r : RunState} {st : ConnectionStatus} (htask : task ∈ s.tasks)
    (hres : task.result = some (.settleDone (.ok st))) (hc : s.workflow.control = .settle r) :
    UnitsRest id s.world.db ∧ StatusRests id s.world.db := by
  have hact : task.act = .settleConnection := answers_of_traced htr htask hres
  obtain ⟨th, -, hlog, hend⟩ := htr.task task htask
  rcases hend _ hres with htime | hpure
  · rw [hact] at htime
    cases htime
  · rw [hact, hpure] at hlog
    obtain ⟨res, heq, hret⟩ := Log.map_returns hlog
    cases res with
    | error e => cases heq
    | ok st' =>
      obtain ⟨⟨l, hl, hcmd⟩, l', hl', hsettled⟩ := settle_returns hret
      exact ⟨(h.counted r hc task htask l hl hcmd).1, h.written r hc task htask l' hl' hsettled⟩

/-- **A result keeps the invariant.** -/
theorem RestInv.deliver (h : RestInv id s tr) (hatt : Attended s)
    (htr : Traced (connectionOver a id tenantID connectorID) service s tr)
    (haccount : Accounted id s.world.db tr) {k : ℕ}
    {task : Task Activity Event} {ev : Event} {r : State × List Action}
    (hk : s.tasks[k]? = some task) (hres : task.result = some ev)
    (hr : connectionWorkflow.step s.workflow ev = some r)
    (hC : leavesNothing id s tr (.deliver k) = true)
    (hatt' : Attended ((connectionOver a id tenantID connectorID).goOn
      { s with tasks := s.tasks.eraseIdx k } r)) :
    RestInv id ((connectionOver a id tenantID connectorID).goOn
      { s with tasks := s.tasks.eraseIdx k } r)
      (tr ++ (r.2.map Label.action ++ [.resumed r.1])) := by
  have ht := (hatt.wf.step hr).1
  have htask := List.mem_of_getElem? hk
  have htr' : Traced (connectionOver a id tenantID connectorID) service
      { s with tasks := s.tasks.eraseIdx k } tr :=
    ⟨htr.started, fun task' htask' => htr.task task' (List.mem_of_mem_eraseIdx htask')⟩
  have has : ∀ m ∈ (r.2.map Label.action ++ [.resumed r.1] : List Mark), ofWorkflow m = true := by
    intro m hm
    rcases List.mem_append.mp hm with hm | hm
    · exact ofWorkflow_actions r.2 m hm
    · rw [List.mem_singleton.mp hm]
      rfl
  -- the condition on a failure
  have hfails : r.1.control = .failed → ∀ r₀, s.workflow.control.run? = some r₀ →
      NothingLeft id tr := by
    intro hfailed r₀ hrun
    have hends := endsRun_of_failed hr hfailed hrun
    obtain ⟨act, n, i, res⟩ := task
    obtain rfl : res = some ev := hres
    simpa [leavesNothing, hk, hends] using hC
  refine h.goOn hatt ht htr' hatt' rfl (fun _ hold => List.mem_of_mem_eraseIdx hold) has
    fun hrest => ?_
  rcases ht.of_resting hrest with hbefore | ⟨r₀, st, hc, rfl⟩ | ⟨hfailed, r₀, hrun⟩
  · exact h.rest hbefore
  · exact h.settled htr htask hres hc
  · exact atRest_iff.mp (haccount.atRest_iff.mpr (hfails hfailed r₀ hrun))

/-- **Every move keeps the invariant**, if runs leave nothing to restore. -/
theorem RestInv.move (h : RestInv id s tr) (hatt : Attended s)
    (htr : Traced (connectionOver a id tenantID connectorID) service s tr)
    (haccount : Accounted id s.world.db tr)
    (hm : Moves (connectionOver a id tenantID connectorID) service (Job.prog a sv) s e s' as)
    (hC : leavesNothing id s tr e = true) : RestInv id s' (tr ++ as) := by
  have hatt' := hatt.move htr hm
  cases hm with
  | free ev r hfree hr => exact h.free hatt htr hfree hr hatt'
  | deliver k task ev r hk hres hr => exact h.deliver hatt htr haccount hk hres hr hC hatt'
  | turn i t c k b hi => exact h.turn hatt htr haccount hi hC rfl rfl rfl
  | resolve k task ev b hk hres hi htakes => exact h.ended hk
  | retry k task hk hres hn =>
    rw [List.append_nil]
    exact h.retry htr hk
  | expire k task hk hres => exact h.ended hk
  | restart q hq =>
    rw [List.append_nil]
    simp only [connectionOver] at hq
    split at hq
    · rename_i hend
      cases hq
      refine ⟨fun _ => h.rest ?_, ?_, ?_, ?_⟩
      · cases hc : s.workflow.control <;> first | rfl | (rw [hc] at hend; cases hend)
      · intro hc
        cases hc
      · intro r hc
        cases hc
      · intro r hc
        cases hc
    · cases hq
  | other ev q las hq =>
    rcases Machine.pool_step hq with ⟨j, rfl, rfl, rfl⟩ | ⟨i, t, c, k, b, rfl, hth, rfl, rfl⟩
    · rw [List.map_nil, List.append_nil]
      exact ⟨h.rest, h.looked, h.counted, h.written⟩
    · refine h.other (fun hwinding => ?_) rfl rfl rfl
      have hth' : s.others[i]? = some ⟨.call c k, b⟩ := hth
      simpa [leavesNothing, hth', hwinding] using hC

end Moves

/-- **In every run the trace accounts for who is at work.** -/
theorem accounted_of_run {a : Activities} {sv : Server} {id : Uuid} {tenantID connectorID : String}
    {t : Time} {w : World} {es : List Happening} {s : Running} {tr : List Mark}
    (hstart : AtRest id w.db)
    (h : (connectionSystem a sv id tenantID connectorID).Run (.fresh id tenantID connectorID t w)
      es s tr) : Accounted id s.world.db tr := by
  refine h.invariant (J := fun s tr => Accounted id s.world.db tr) (accounted_nil hstart) ?_
  intro s tr e s' as hinv _ hstep
  exact hinv.move (system_moves hstep)

/-- **No stranded `syncing`**: in every run of the workflow over its activities a connection is at
rest exactly if every unit that was put to work, and the connection, was put to rest since; and if
the ways out of its runs leave nothing to restore, it is at rest whenever no run is active: none of
its units is `syncing` or `queued`, and it is shown neither syncing nor stopping. -/
theorem no_stranded_syncing (a : Activities) (sv : Server) (id : Uuid)
    (tenantID connectorID : String) (t : Time) {w : World} (hstart : AtRest id w.db) :
    (∀ (es : List Happening) (s : Running) (tr : List Mark),
      (connectionSystem a sv id tenantID connectorID).Run (.fresh id tenantID connectorID t w)
        es s tr → (AtRest id s.world.db ↔ NothingLeft id tr)) ∧
    ∀ (es : List Happening) (s : Running) (tr : List Mark),
      (connectionSystem a sv id tenantID connectorID).RunWhere
        (fun s tr e => leavesNothing id s tr e = true) (.fresh id tenantID connectorID t w)
        es s tr → s.workflow.control.resting = true → AtRest id s.world.db := by
  refine ⟨fun es s tr h => (accounted_of_run hstart h).atRest_iff, fun es s tr h hrest => ?_⟩
  have hinv := h.invariant (J := fun s tr => (Attended s ∧
      Traced (connectionOver a id tenantID connectorID) service s tr) ∧
      Accounted id s.world.db tr ∧ RestInv id s tr) ?_ ?_
  · exact atRest_iff.mpr (hinv.2.2.rest hrest)
  · exact ⟨⟨attended_fresh _ _ _ _ _, traced_start _ _⟩, accounted_nil hstart,
      fun _ => atRest_iff.mp hstart, fun hc => (nomatch hc), fun r hc => (nomatch hc),
      fun r hc => (nomatch hc)⟩
  · intro s tr e s' as ⟨⟨hatt, htr⟩, haccount, hinv⟩ hC hstep
    have hm := system_moves hstep
    exact ⟨⟨hatt.move htr hm, htr.move hm⟩, haccount.move hm,
      hinv.move hatt htr haccount hm hC⟩

/-! ### A run that is stopped -/

/-- A run that drains Ann's Drive to the end and settles. -/
def settledRun : List Happening :=
  launchedDrive ++ turnsOver 4 22 docAnswers ++ [.resolve 0, .deliver 0] ++ runTask 6 3 0 ++
    runTask 7 1 0 ++ runTask 8 4 0 ++ [.free (.scheduleDone (.ok ⟨false, 900⟩))]

/-- A run that is stopped when the first chunk of the Drive has been drained, and settles. -/
def stoppedRun : List Happening :=
  launchedDrive ++ turnsOver 4 36 longAnswers ++ [.free (.signal .stopSync), .resolve 0,
    .deliver 0] ++ runTask 6 4 0 ++ [.free (.scheduleDone (.ok ⟨false, 900⟩))]

-- the connection is at rest before its first run
example : AtRest 0 driveStart.world.db := by decide +kernel

/-- A run that drains its unit to the end leaves nothing, and the connection is at rest. -/
theorem settled_run_at_rest :
    ∃ s tr, driveRun.RunWhere (fun s tr e => leavesNothing 0 s tr e = true) driveStart settledRun
        s tr ∧ s.workflow.control = .idle none ∧ NothingLeft 0 tr ∧ AtRest 0 s.world.db := by
  obtain ⟨s, tr, hrun, hend⟩ := driveRun.exists_runWhere_of_any (leavesNothing 0) driveStart
    settledRun (fun s _ => decide (s.workflow.control = .idle none)) (by decide +kernel)
  have hidle : s.workflow.control = .idle none := of_decide_eq_true hend
  obtain ⟨hexact, hrests⟩ := no_stranded_syncing driveActivities driveServer 0 "acme" "gdocs" 0
    (w := driveStart.world) (by decide +kernel)
  have hrest := hrests settledRun s tr hrun (by rw [hidle]; rfl)
  exact ⟨s, tr, hrun, hidle, (hexact settledRun s tr hrun.run).mp hrest, hrest⟩

/-- **A stopped run strands its unit**: the workflow is back in its idle loop, its unit is still
`syncing`, and the connection is shown as syncing. -/
theorem stopped_run_stranded :
    ∃ s tr, driveRun.Run driveStart stoppedRun s tr ∧ AtRest 0 driveStart.world.db ∧
      s.workflow.control = .idle none ∧ ¬ AtRest 0 s.world.db := by
  obtain ⟨s, tr, hrun, hend⟩ := driveRun.exists_run_of_any driveStart stoppedRun
    (fun s _ => decide (s.workflow.control = .idle none) && decide (¬ AtRest 0 s.world.db))
    (by decide +kernel)
  obtain ⟨hidle, hactive⟩ := Bool.and_eq_true_iff.mp hend
  exact ⟨s, tr, hrun, by decide +kernel, of_decide_eq_true hidle, of_decide_eq_true hactive⟩

end Workflow
end Hivebook
