import Hivebook.Service.Drain

/-!
# Rejected credentials

When the source rejects the credentials of a connection, `classify` marks it
`needs_reauth` and `SyncUnit` ends with an error that is not retried.  Nothing tells the
drain: the unit stays `syncing`, which `NextUnitBatch` takes for a unit that still needs
work, and the next refill launches it again.

The drain stops exactly when no refill that goes on while the credentials stand rejected
has found an eligible unit outside the units in flight.  Then the loop winds down to
`SettleConnection`: some task always resumes it, and it is resumed a bounded number of
times.

## Main definitions

* `RejectedCredentials`, `Reconnects`, `Rejected` — the credentials were rejected, and
  not replaced since.
* `StopsLaunching`, `DrainEnds`, `NotStuck` — the drain stops.
* `FindsNothing` — the condition on a refill.

## Main results

* `rejection_stops_drain_iff` — **the drain stops in a run exactly when its refills find
  nothing.**
-/

namespace Hivebook
namespace Workflow

open Database Orchestration

/-- The command a label records. -/
def performed? : Mark → Option (Performed World Choice Cmd)
  | .performed _ l | .other l => some l
  | _ => none

/-- A `SyncUnit` of the connection ended with the auth error, which is not retried. -/
def RejectedCredentials (x : Mark) : Prop :=
  ∃ unitID, x = .ended (.syncUnit unitID) (.unitDone unitID (.error .auth))

/-- A reconnect: the row of the connection is upserted. -/
def Reconnects (connectionID : Uuid) (x : Mark) : Prop :=
  ∃ l p row, performed? x = some l ∧ l.cmd = .statement (.upsertConnection p) ∧
    tookEffect l = true ∧ (upsertConnection p l.state.db).1 = .ok row ∧ row.id = connectionID

/-- A `SyncUnit` is launched. -/
def Launches (x : Mark) : Prop := ∃ unitID, x = .action (.launched unitID)

/-- The credentials were rejected, and there was no reconnect since. -/
def Rejected (connectionID : Uuid) (tr : List Mark) : Prop :=
  Pending RejectedCredentials (Reconnects connectionID) (fun _ => False) tr

/-! ### The drain stops -/

/-- Once the credentials were rejected, nothing is launched before a reconnect. -/
def StopsLaunching (connectionID : Uuid) (tr : List Mark) : Prop :=
  Responds RejectedCredentials (Reconnects connectionID) Launches tr

/-- The workflow is in its drain loop. -/
def Control.draining : Control → Bool
  | .capacity _ | .nextBatch _ _ _ | .select _ => true
  | _ => false

/-- How often the drain loop can still be resumed if nothing more is launched. -/
def Control.left : Control → ℕ
  | .capacity r => 3 * r.inFlight.length + 2
  | .nextBatch r _ _ => 3 * r.inFlight.length + 1
  | .select r => 3 * r.inFlight.length
  | _ => 0

/-- The label is of a resumption. -/
def isResumption : Mark → Bool
  | .resumed _ => true
  | _ => false

/-- Neither a reconnect nor a way out of the drain loop. -/
def StillDraining (connectionID : Uuid) (x : Mark) : Prop :=
  ¬ Reconnects connectionID x ∧ x ≠ .action (.started .settleConnection) ∧ x ≠ .action .failed

/-- **The drain loop reaches `SettleConnection`**: if it blocks while the credentials stand
rejected, it is resumed only so often before it settles, unless a control activity fails
or the user reconnects. -/
def DrainEnds (connectionID : Uuid) (tr : List Mark) : Prop :=
  ∀ pre q mid, tr = pre ++ .resumed q :: mid → Rejected connectionID pre →
    q.control.draining = true → (∀ x ∈ mid, StillDraining connectionID x) →
    mid.countP isResumption < q.control.left

/-- A drain loop waits for a task whose result, whatever it is, resumes it. -/
def NotStuck (s : Running) : Prop :=
  s.workflow.control.draining = true → ∃ task ∈ s.tasks,
    ∀ e : Event, e.answers task.act → (connectionWorkflow.step s.workflow e).isSome = true

/-- **The condition on a refill**: when its answer resumes the workflow while the
credentials stand rejected, its query had found every eligible unit in flight. -/
def FindsNothing (connectionID : Uuid) (s : Running) (tr : List Mark) : Happening → Prop
  | .deliver k => Rejected connectionID tr → ∀ task r p n ids, s.tasks[k]? = some task →
      task.result = some (.batchDone (.ok ids)) → s.workflow.control = .nextBatch r p n →
      ∀ l ∈ performedBy task.execution tr, ∀ u ∈ l.state.db.units.rows,
        eligible (performedAt l) connectionID u = true → u.externalID ∈ r.inFlight
  | _ => True

theorem Rejected.append {connectionID : Uuid} {tr l : List Mark} (h : Rejected connectionID tr)
    (hl : ∀ x ∈ l, ¬ Reconnects connectionID x) : Rejected connectionID (tr ++ l) :=
  (pending_append tr l).mpr (Or.inr ⟨h, fun x hx => ⟨id, hl x hx⟩⟩)

/-! ### What a step launches -/

section Steps

variable {s s' : State} {e : Event} {as : List Action}

/-- Only the answer of a refill launches units. -/
theorem Transition.of_launched (ht : Transition s e s' as) {id : String}
    (h : .launched id ∈ as) : ∃ r p n ids, e = .batchDone (.ok ids) ∧
      s.control = .nextBatch r p n ∧ id ∈ (launchBatch p r.inFlight ids).2 := by
  cases ht with
  | launching r p n ids c l hc hd =>
    refine ⟨r, p, n, ids, rfl, hc, ?_⟩
    rcases List.mem_append.mp h with hmem | hmem
    · obtain ⟨y, hy, heq⟩ := List.mem_map.mp hmem
      cases heq
      exact hy
    · cases hd <;> simp at hmem
  | discovered r n c l hc hd => cases hd <;> simp at h
  | refilling r p c l hc hd => cases hd <;> simp at h
  | crossed r id' res c l hc hid hnot hd =>
    rcases List.mem_append.mp h with hmem | hmem
    · obtain ⟨y, hy, -⟩ := mem_drained hmem
      cases hy
    · cases hd <;> simp at hmem
  | resumed r id' res hc =>
    rcases List.mem_append.mp h with hmem | hmem
    · obtain ⟨y, hy, -⟩ := mem_drained hmem
      cases hy
    · simp at hmem
  | _ => simp at h

/-- **Without a launch, a result takes the drain loop closer to its end.** -/
theorem Transition.left_lt (ht : Transition s e s' as) (hd : s.control.draining = true)
    (hfree : e.free = false) (hlaunch : ∀ id, .launched id ∉ as)
    (hsettle : .started .settleConnection ∉ as) (hfail : .failed ∉ as) :
    s'.control.draining = true ∧ s'.control.left < s.control.left := by
  cases ht with
  | signal x hend => cases hfree
  | tick d => cases hfree
  | refilling r p c l hc hr =>
    rw [hc]
    cases hr with
    | nextBatch p => exact ⟨rfl, by simp [Control.left]⟩
    | select => exact ⟨rfl, by simp [Control.left]⟩
    | settle => simp at hsettle
  | launching r p n ids c l hc hr hnext =>
    -- nothing is launched, so the units in flight stay and the batches come to their end
    have hnil : (launchBatch p r.inFlight ids).2 = [] := by
      refine List.eq_nil_iff_forall_not_mem.mpr fun id hid => hlaunch id ?_
      exact List.mem_append_left _ (List.mem_map_of_mem hid)
    have hsame : (launchBatch p r.inFlight ids).1 = r.inFlight := by
      rw [launchBatch_fst, hnil, List.append_nil]
    rw [hc]
    cases hr with
    | nextBatch p' => exact absurd rfl (hnext hnil _ _ _)
    | select => exact ⟨rfl, by simp [Control.left, hsame]⟩
    | settle => simp at hsettle
  | crossed r id res c l hc hid hnot hr =>
    -- one unit less is in flight
    have hless : (r.cross id s.signals s.now).inFlight.length < r.inFlight.length := by
      refine List.length_filter_lt_length_iff_exists.mpr ⟨id, hid, ?_⟩
      simp
    rw [hc]
    cases hr with
    | capacity =>
      refine ⟨rfl, ?_⟩
      simp only [Control.left]
      omega
    | select =>
      refine ⟨rfl, ?_⟩
      simp only [Control.left]
      omega
    | settle => simp at hsettle
  | resumed r id res hc hid =>
    rw [hc]
    have hpos := List.length_pos_of_mem hid
    refine ⟨rfl, ?_⟩
    simp only [Control.left, RunState.init, List.length_nil]
    omega
  | failed e r hr hsel => simp at hfail
  | park r timer hc | trigger timer hc | due timer hc | wake timer x c a hc
  | disconnected timer hc | refreshed r hc | runStarted r hc | discovered r n c l hc
  | ended r st hc | rerun r st hc | rested r st hc =>
    rw [hc] at hd
    cases hd

/-- Free events leave a drain loop where it is. -/
theorem Transition.control_of_free (ht : Transition s e s' as) (hd : s.control.draining = true)
    (hfree : e.free = true) (hfail : .failed ∉ as) : s'.control = s.control := by
  cases ht with
  | signal x hend => rfl
  | tick d => rfl
  | failed e r hr hsel => simp at hfail
  | park r timer hc | trigger timer hc | due timer hc | wake timer x c a hc
  | disconnected timer hc =>
    rw [hc] at hd
    cases hd
  | _ => cases hfree

end Steps

/-! ### One move -/

section Moves

variable {a : Activities} {sv : Server} {connectionID : Uuid} {tenantID connectorID : String}
  {s s' : Running} {tr as : List Mark} {e : Happening}

/-- A delivered batch was found by the one query of its execution. -/
theorem delivered_query (hatt : Attended s)
    (htr : Traced (connectionOver a connectionID tenantID connectorID) service s tr)
    {task : Task Activity Event} {ids : List String} {r : RunState} {p n : ℕ}
    (htask : task ∈ s.tasks) (hres : task.result = some (.batchDone (.ok ids)))
    (hc : s.workflow.control = .nextBatch r p n) :
    task.act = .nextUnitBatch p ∧ ∃ l, performedBy task.execution tr = [l] ∧
      ids = Database.nextUnitBatch (performedAt l) connectionID p l.state.db := by
  -- the task is the query the workflow waits for, with the capacity as its limit
  have hact : task.act = .nextUnitBatch p := by
    obtain ⟨p', hp'⟩ := answers_of_traced htr htask hres
    have hmem : task.act ∈ s.workflow.control.awaits :=
      (hatt.tasks (by rw [hc]; rfl)).mem_iff.mp (List.mem_map_of_mem htask)
    rw [hp', hc] at hmem
    rw [hp']
    simpa [Control.awaits] using hmem
  refine ⟨hact, ?_⟩
  obtain ⟨th, -, hlog, hend⟩ := htr.task task htask
  rcases hend _ hres with htime | hpure
  · rw [hact] at htime
    cases htime
  · have hquery : Log service
        ((Activity.nextUnitBatch p).prog a connectionID tenantID connectorID)
        (performedBy task.execution tr) (.pure (.batchDone (.ok ids))) := by
      rw [← hpure, ← hact]
      exact hlog
    exact batch_of_log hquery

/-- **What a delivered batch launches**: nothing, exactly when its query had found every
eligible unit in flight. -/
theorem delivered_batch (hatt : Attended s)
    (htr : Traced (connectionOver a connectionID tenantID connectorID) service s tr)
    {task : Task Activity Event} {ids : List String} {r : RunState} {p n : ℕ}
    (htask : task ∈ s.tasks) (hres : task.result = some (.batchDone (.ok ids)))
    (hc : s.workflow.control = .nextBatch r p n) :
    (launchBatch p r.inFlight ids).2 = [] ↔ ∀ l ∈ performedBy task.execution tr,
      ∀ u ∈ l.state.db.units.rows, eligible (performedAt l) connectionID u = true →
        u.externalID ∈ r.inFlight := by
  have hroom := hatt.room r p n hc
  obtain ⟨-, l, hl, hids⟩ := delivered_query hatt htr htask hres hc
  rw [launchBatch_eq_nil_iff hroom, hids, nextUnitBatch_subset_iff hroom, hl]
  simp

/-- **A move leaves the world alone, or performs one command.** -/
theorem move_performs (hm : Moves (connectionOver a connectionID tenantID connectorID) service
      (Job.prog a sv) s e s' as) :
    (s'.world = s.world ∧ ∀ m ∈ as, performed? m = none) ∨
      ∃ m c b t, as = [m] ∧ performed? m = some ⟨s.world, c, b, t⟩ ∧
        s'.world = (service.perform t b s.world c).1 := by
  have hactions : ∀ {acts : List Action}, ∀ m ∈ (acts.map Label.action : List Mark),
      performed? m = none := by
    intro acts m hmem
    obtain ⟨x, -, rfl⟩ := List.mem_map.mp hmem
    rfl
  cases hm with
  | free ev r hfree hr => exact .inl ⟨goOn_world _ _, hactions⟩
  | deliver k task ev r hk hres hr =>
    refine .inl ⟨goOn_world _ _, fun m hmem => ?_⟩
    rcases List.mem_append.mp hmem with hmem | hmem
    · exact hactions m hmem
    · rw [List.mem_singleton.mp hmem]
      rfl
  | turn i t c k b hi => exact .inr ⟨_, c, b || t.cancel, t.choice, rfl, rfl, rfl⟩
  | resolve k task ev b hk hres hi htakes => exact .inl ⟨rfl, by simp [performed?]⟩
  | retry k task hk hres hn => exact .inl ⟨rfl, by simp⟩
  | expire k task hk hres => exact .inl ⟨rfl, by simp [performed?]⟩
  | restart q hq => exact .inl ⟨rfl, by simp⟩
  | other ev q las hq =>
    rcases Machine.pool_step hq with ⟨j, rfl, rfl, rfl⟩ | ⟨i, t, c, k, b, rfl, hth, rfl, rfl⟩
    · exact .inl ⟨rfl, by simp⟩
    · exact .inr ⟨_, c, b || t.cancel, t.choice, rfl, rfl, rfl⟩

/-- A move that launches something delivers a batch, and opens and closes nothing. -/
theorem move_launches (hwf : Wf s.workflow)
    (hm : Moves (connectionOver a connectionID tenantID connectorID) service (Job.prog a sv)
      s e s' as) {x : Mark} (hx : x ∈ as) (hl : Launches x) :
    ∃ k task r p n ids, e = .deliver k ∧ s.tasks[k]? = some task ∧
      task.result = some (.batchDone (.ok ids)) ∧ s.workflow.control = .nextBatch r p n ∧
      (launchBatch p r.inFlight ids).2 ≠ [] ∧
      ∀ y ∈ as, ¬ RejectedCredentials y ∧ ¬ Reconnects connectionID y := by
  obtain ⟨id, rfl⟩ := hl
  cases hm with
  | free ev r hfree hr =>
    obtain ⟨y, hy, heq⟩ := List.mem_map.mp hx
    cases heq
    obtain ⟨r', p, n, ids, rfl, -⟩ := (hwf.step hr).1.of_launched hy
    cases hfree
  | deliver k task ev r hk hres hr =>
    have hmem : .launched id ∈ r.2 := by simpa using hx
    obtain ⟨r', p, n, ids, rfl, hc, hid⟩ := (hwf.step hr).1.of_launched hmem
    refine ⟨k, task, r', p, n, ids, rfl, hk, hres, hc, List.ne_nil_of_mem hid, fun y hy => ?_⟩
    rcases List.mem_append.mp hy with hy | hy
    · obtain ⟨z, -, rfl⟩ := List.mem_map.mp hy
      exact ⟨fun ⟨_, h⟩ => (by cases h), fun ⟨_, _, _, h, _⟩ => (by cases h)⟩
    · cases List.mem_singleton.mp hy
      exact ⟨fun ⟨_, h⟩ => (by cases h), fun ⟨_, _, _, h, _⟩ => (by cases h)⟩
  | _ => simp at hx

theorem StopsLaunching.move (h : StopsLaunching connectionID tr) (hatt : Attended s)
    (htr : Traced (connectionOver a connectionID tenantID connectorID) service s tr)
    (hm : Moves (connectionOver a connectionID tenantID connectorID) service (Job.prog a sv)
      s e s' as) (hC : FindsNothing connectionID s tr e) :
    StopsLaunching connectionID (tr ++ as) := by
  by_cases hl : ∃ x ∈ as, Launches x
  · obtain ⟨x, hx, hl⟩ := hl
    obtain ⟨k, task, r, p, n, ids, rfl, hk, hres, hc, hne, hquiet⟩ :=
      move_launches hatt.wf hm hx hl
    have hfound := delivered_batch hatt htr (List.mem_of_getElem? hk) hres hc
    have hrej : ¬ Rejected connectionID tr := fun hrej =>
      hne (hfound.mpr (hC hrej task r p n ids hk hres hc))
    have hpend : ¬ Pending RejectedCredentials (Reconnects connectionID) Launches tr := by
      rintro ⟨pre, y, mid, heq, hy, hmid⟩
      exact hrej ⟨pre, y, mid, heq, hy, fun z hz => ⟨id, (hmid z hz).2⟩⟩
    exact (responds_append_of_not_pending h hpend fun y hy => (hquiet y hy).1).1
  · exact (responds_append_quiet fun x hx hx' => hl ⟨x, hx, hx'⟩).mpr h

/-- What a drain loop has left, from when it blocked while the credentials stood
rejected. -/
def LaunchesNone (connectionID : Uuid) (s : Running) (tr : List Mark) : Prop :=
  ∀ pre q mid, tr = pre ++ .resumed q :: mid → Rejected connectionID pre →
    q.control.draining = true → (∀ x ∈ mid, StillDraining connectionID x) →
    s.workflow.control.draining = true ∧
      mid.countP isResumption + s.workflow.control.left ≤ q.control.left

/-- A label that is followed by nothing but the last resumption is that resumption. -/
theorem resumed_eq {q q' : State} {acts : List Action} {pre mid : List Mark}
    (h : acts.map Label.action ++ [.resumed q'] = pre ++ .resumed q :: mid) :
    q = q' ∧ mid = [] := by
  rcases List.eq_nil_or_concat mid with rfl | ⟨mid', y, rfl⟩
  · obtain ⟨-, hlast⟩ := List.append_inj' h rfl
    cases hlast
    exact ⟨rfl, rfl⟩
  · have h' : acts.map Label.action ++ [.resumed q'] = (pre ++ .resumed q :: mid') ++ [y] := by
      simpa using h
    have hmem : (.resumed q : Mark) ∈ acts.map Label.action := by
      rw [(List.append_inj' h' rfl).1]
      simp
    simp at hmem

theorem countP_actions (acts : List Action) :
    (acts.map (Label.action : Action → Mark)).countP isResumption = 0 := by
  refine List.countP_eq_zero.mpr fun x hx => ?_
  obtain ⟨y, -, rfl⟩ := List.mem_map.mp hx
  simp [isResumption]

/-- A move resumes the workflow at most once, as the last thing it does. -/
theorem move_resumed
    (hm : Moves (connectionOver a connectionID tenantID connectorID) service (Job.prog a sv)
      s e s' as) {pre mid : List Mark} {q : State} (has : as = pre ++ .resumed q :: mid) :
    s'.workflow = q ∧ mid = [] := by
  have hmem : (.resumed q : Mark) ∈ as := by
    rw [has]
    simp
  cases hm with
  | deliver k task ev r hk hres hr =>
    obtain ⟨rfl, rfl⟩ := resumed_eq has
    exact ⟨goOn_workflow _ _, rfl⟩
  | _ => simp at hmem

/-- **A move takes a drain loop closer to its end**, unless it leaves the loop or the user
reconnects. -/
theorem move_left_le (hatt : Attended s)
    (htr : Traced (connectionOver a connectionID tenantID connectorID) service s tr)
    (hm : Moves (connectionOver a connectionID tenantID connectorID) service (Job.prog a sv)
      s e s' as) (hC : FindsNothing connectionID s tr e) (hrej : Rejected connectionID tr)
    (hd : s.workflow.control.draining = true) (has : ∀ x ∈ as, StillDraining connectionID x) :
    s'.workflow.control.draining = true ∧
      as.countP isResumption + s'.workflow.control.left ≤ s.workflow.control.left := by
  have hfail : ∀ {acts : List Action}, acts.map Label.action ⊆ as → .failed ∉ acts := by
    intro acts hsub hmem
    exact (has _ (hsub (List.mem_map_of_mem hmem))).2.2 rfl
  cases hm with
  | free ev r hfree hr =>
    obtain ⟨ht, -⟩ := hatt.wf.step hr
    rw [goOn_workflow, ht.control_of_free hd hfree (hfail fun x hx => hx), countP_actions]
    exact ⟨hd, by omega⟩
  | deliver k task ev r hk hres hr =>
    obtain ⟨ht, -⟩ := hatt.wf.step hr
    have hsub : r.2.map Label.action ⊆ r.2.map Label.action ++ [(.resumed r.1 : Mark)] :=
      List.subset_append_left _ _
    have hfree : ev.free = false := by
      have hans := answers_of_traced htr (List.mem_of_getElem? hk) hres
      by_contra hne
      exact not_answers_of_free (by simpa using hne) _ hans
    -- the refill has found nothing, so the batch that is delivered is empty
    have hlaunch : ∀ id, .launched id ∉ r.2 := by
      intro id hid
      obtain ⟨r', p, n, ids, rfl, hc, hmem⟩ := ht.of_launched hid
      have hnil := (delivered_batch hatt htr (List.mem_of_getElem? hk) hres hc).mpr
        (hC hrej task r' p n ids hk hres hc)
      rw [hnil] at hmem
      cases hmem
    have hsettle : .started .settleConnection ∉ r.2 := by
      intro hmem
      exact (has _ (hsub (List.mem_map_of_mem hmem))).2.1 rfl
    have hleft := ht.left_lt hd hfree hlaunch hsettle (hfail hsub)
    rw [goOn_workflow, List.countP_append, countP_actions]
    refine ⟨hleft.1, ?_⟩
    have hone : [(.resumed r.1 : Mark)].countP isResumption = 1 := rfl
    rw [hone]
    have := hleft.2
    omega
  | restart q hq =>
    have hend : s.workflow.control.ended = false := by
      cases hc : s.workflow.control <;> first | rfl | (rw [hc] at hd; cases hd)
    simp [connectionOver, hend] at hq
  | other ev q las hq =>
    have hnone : (las.map (Label.other : _ → Mark)).countP isResumption = 0 := by
      refine List.countP_eq_zero.mpr fun x hx => ?_
      obtain ⟨y, -, rfl⟩ := List.mem_map.mp hx
      simp [isResumption]
    rw [hnone]
    exact ⟨hd, by simp⟩
  | _ => exact ⟨hd, by simp [isResumption, settle, attemptAgain]⟩

theorem LaunchesNone.move (h : LaunchesNone connectionID s tr) (hatt : Attended s)
    (htr : Traced (connectionOver a connectionID tenantID connectorID) service s tr)
    (hm : Moves (connectionOver a connectionID tenantID connectorID) service (Job.prog a sv)
      s e s' as) (hC : FindsNothing connectionID s tr e) :
    LaunchesNone connectionID s' (tr ++ as) := by
  intro pre q mid heq hrej hq hmid
  have hnew : ∀ {c : List Mark}, as = c ++ .resumed q :: mid →
      s'.workflow.control.draining = true ∧
        mid.countP isResumption + s'.workflow.control.left ≤ q.control.left := by
    intro c hc
    obtain ⟨rfl, rfl⟩ := move_resumed hm hc
    exact ⟨hq, by simp⟩
  rcases List.append_eq_append_iff.mp heq with ⟨c, -, hc⟩ | ⟨c, hc, hc'⟩
  · exact hnew hc
  · cases c with
    | nil => exact hnew (c := []) hc'.symm
    | cons y c =>
      rw [List.cons_append, List.cons.injEq] at hc'
      obtain ⟨rfl, rfl⟩ := hc'
      -- the loop blocked there before this move
      have hold := h pre q c hc hrej hq fun x hx => hmid x (List.mem_append_left _ hx)
      have hrej' : Rejected connectionID tr := by
        rw [hc]
        refine hrej.append fun x hx => ?_
        rcases List.mem_cons.mp hx with rfl | hx
        · exact fun ⟨_, _, _, hx, _⟩ => by cases hx
        · exact (hmid x (List.mem_append_left _ hx)).1
      have hmove := move_left_le hatt htr hm hC hrej' hold.1 fun x hx =>
        hmid x (List.mem_append_right _ hx)
      refine ⟨hmove.1, ?_⟩
      rw [List.countP_append]
      have := hold.2
      have := hmove.2
      omega

/-- A running drain loop is never stuck. -/
theorem Attended.notStuck (h : Attended s) : NotStuck s := by
  intro hd
  have hwf := h.wf
  unfold Wf at hwf
  -- for each activity that is waited for there is a task, whose answer is taken
  have htask : ∀ {act : Activity}, act ∈ s.workflow.control.awaits →
      ∃ task ∈ s.tasks, task.act = act := by
    intro act hact
    have hend : s.workflow.control.ended = false := by
      cases hc : s.workflow.control <;> first | rfl | (rw [hc] at hd; cases hd)
    obtain ⟨task, htask, heq⟩ := List.mem_map.mp ((h.tasks hend).mem_iff.mpr hact)
    exact ⟨task, htask, heq⟩
  cases hc : s.workflow.control with
  | capacity r =>
    rw [hc] at htask
    obtain ⟨task, hmem, hact⟩ := htask List.mem_cons_self
    refine ⟨task, hmem, fun e he => ?_⟩
    rw [hact] at he
    cases e with
    | capacityDone res => cases res <;> simp [connectionWorkflow, step, hc]
    | _ => first | (cases he; done) | (obtain ⟨_, h⟩ := he; cases h)
  | nextBatch r p n =>
    rw [hc] at htask
    obtain ⟨task, hmem, hact⟩ := htask List.mem_cons_self
    refine ⟨task, hmem, fun e he => ?_⟩
    rw [hact] at he
    cases e with
    | batchDone res => cases res <;> simp [connectionWorkflow, step, hc]
    | _ => cases he
  | select r =>
    rw [hc] at htask hwf
    obtain ⟨id, hid⟩ := List.exists_mem_of_ne_nil _ hwf.2
    obtain ⟨task, hmem, hact⟩ := htask (List.mem_map_of_mem hid)
    refine ⟨task, hmem, fun e he => ?_⟩
    rw [hact] at he
    cases e with
    | unitDone id' res =>
      cases he
      simp [connectionWorkflow, step, hc, hid]
    | _ => first | (cases he; done) | (obtain ⟨_, h⟩ := he; cases h)
  | _ =>
    rw [hc] at hd
    cases hd

end Moves

/-! ### Whole runs -/

section Runs

variable {a : Activities} {sv : Server} {connectionID : Uuid} {tenantID connectorID : String}
  {t : Time} {w : World} {es : List Happening} {s : Running} {tr : List Mark}

/-- Every run keeps the tasks traced and attended to. -/
theorem run_attended {C : Running → List Mark → Happening → Prop}
    (h : (connectionSystem a sv connectionID tenantID connectorID).RunWhere C
      (.fresh connectionID tenantID connectorID t w) es s tr) :
    Attended s ∧ Traced (connectionOver a connectionID tenantID connectorID) service s tr := by
  refine h.invariant (J := fun s tr => Attended s ∧
    Traced (connectionOver a connectionID tenantID connectorID) service s tr)
    ⟨attended_fresh _ _ _ _ _, traced_start _ _⟩ ?_
  intro s tr e s' as ⟨hatt, htr⟩ _ hstep
  have hm := system_moves hstep
  exact ⟨hatt.move htr hm, htr.move hm⟩

/-- **Refills that find nothing stop the drain.** -/
theorem stops_of_findsNothing
    (h : (connectionSystem a sv connectionID tenantID connectorID).RunWhere
      (FindsNothing connectionID) (.fresh connectionID tenantID connectorID t w) es s tr) :
    StopsLaunching connectionID tr ∧ LaunchesNone connectionID s tr := by
  have hinv := h.invariant (J := fun s tr => (Attended s ∧
      Traced (connectionOver a connectionID tenantID connectorID) service s tr) ∧
      StopsLaunching connectionID tr ∧ LaunchesNone connectionID s tr) ?_ ?_
  · exact hinv.2
  · refine ⟨⟨attended_fresh _ _ _ _ _, traced_start _ _⟩, responds_nil, ?_⟩
    intro pre q mid heq
    simp at heq
  · intro s tr e s' as ⟨⟨hatt, htr⟩, hstop, hwind⟩ hC hstep
    have hm := system_moves hstep
    exact ⟨⟨hatt.move htr hm, htr.move hm⟩, hstop.move hatt htr hm hC, hwind.move hatt htr hm hC⟩

/-- A refill that found something launches it. -/
theorem findsNothing_of_stops {e : Happening} {s' : Running} {as : List Mark}
    (hatt : Attended s)
    (htr : Traced (connectionOver a connectionID tenantID connectorID) service s tr)
    (hm : Moves (connectionOver a connectionID tenantID connectorID) service (Job.prog a sv)
      s e s' as) (hstop : StopsLaunching connectionID (tr ++ as)) :
    FindsNothing connectionID s tr e := by
  cases hm with
  | deliver k task ev r hk hres hr =>
    intro hrej task' r' p n ids hk' hres' hc
    obtain rfl : task = task' := Option.some.inj (hk.symm.trans hk')
    obtain rfl : ev = .batchDone (.ok ids) := Option.some.inj (hres.symm.trans hres')
    refine (delivered_batch hatt htr (List.mem_of_getElem? hk) hres hc).mp ?_
    by_contra hne
    -- what was launched comes after the rejection, with no reconnect in between
    obtain ⟨id, hid⟩ := List.exists_mem_of_ne_nil _ hne
    have hlaunched : .launched id ∈ r.2 := by
      have hstep := hr
      simp only [connectionOver, connectionWorkflow, step, hc, Option.some.injEq] at hstep
      rw [← hstep]
      exact List.mem_append_left _ (List.mem_map_of_mem hid)
    obtain ⟨pre, x, mid, rfl, hx, hmid⟩ := hrej
    have hmem : (.action (.launched id) : Mark) ∈
        mid ++ (r.2.map Label.action ++ [.resumed r.1]) := by
      simp [hlaunched]
    have hfails : ¬ Responds RejectedCredentials (Reconnects connectionID) Launches
        (pre ++ x :: (mid ++ (r.2.map Label.action ++ [.resumed r.1]))) := by
      refine not_responds_of_deadline hx hmem ⟨id, rfl⟩ fun y hy => ?_
      rcases List.mem_append.mp hy with hy | hy
      · exact (hmid y hy).2
      · rintro ⟨l, p, row, hl, -⟩
        rcases List.mem_append.mp hy with hy | hy
        · obtain ⟨z, -, rfl⟩ := List.mem_map.mp hy
          cases hl
        · cases List.mem_singleton.mp hy
          cases hl
    exact hfails (by simpa [StopsLaunching] using hstop)
  | _ => trivial

variable (a sv connectionID tenantID connectorID t w) in
/-- **Rejected credentials stop the drain of a run exactly when its refills find nothing**:
no `SyncUnit` is launched after one that ended with the auth error before a reconnect, and
the drain loop reaches `SettleConnection`. -/
theorem rejection_stops_drain_iff
    (h : (connectionSystem a sv connectionID tenantID connectorID).Run
      (.fresh connectionID tenantID connectorID t w) es s tr) :
    (StopsLaunching connectionID tr ∧ DrainEnds connectionID tr ∧ NotStuck s) ↔
      (connectionSystem a sv connectionID tenantID connectorID).RunWhere
        (FindsNothing connectionID) (.fresh connectionID tenantID connectorID t w) es s tr := by
  constructor
  · rintro ⟨hstop, -, -⟩
    induction h with
    | refl => exact .refl
    | snoc hrun _ hs ih =>
      obtain ⟨hatt, htr⟩ := run_attended hrun
      refine .snoc (ih (Responds.of_append hstop)) ?_ hs
      exact findsNothing_of_stops hatt htr (system_moves hs) hstop
  · intro hfinds
    obtain ⟨hstop, hwind⟩ := stops_of_findsNothing hfinds
    refine ⟨hstop, fun pre q mid heq hrej hq hmid => ?_, (run_attended h).1.notStuck⟩
    obtain ⟨hd, hle⟩ := hwind pre q mid heq hrej hq hmid
    have hpos : 0 < s.workflow.control.left := by
      have hwf := (run_attended h).1.wf
      unfold Wf at hwf
      cases hc : s.workflow.control with
      | select r =>
        rw [hc] at hwf
        have := List.length_pos_of_ne_nil hwf.2
        simp only [Control.left]
        omega
      | capacity r => exact Nat.succ_pos _
      | nextBatch r p n => exact Nat.succ_pos _
      | _ =>
        rw [hc] at hd
        cases hd
    omega

end Runs

/-! ### A Drive that rejects the credentials -/

/-- A Drive that rejects every credential. -/
def rejecting : (q : Connectors.Request) → Except Err q.Reply
  | .driveFiles _ _ _ => .error (.auth 401)
  | _ => .error (.failed "unreachable")

/-- Turns of an execution. -/
def turns (i n : ℕ) : List Happening := List.replicate n (.turn i ⟨false, quietly rejecting⟩)

/-- An execution runs to its end, and its result resumes the workflow. -/
def runTask (i n k : ℕ) : List Happening := turns i n ++ [.resolve k, .deliver k]

/-- A run of Ann's Drive up to the moment its only `SyncUnit` ends with the auth error. -/
def rejectedDrain : List Happening :=
  [.free (.scheduleDone (.ok ⟨false, 900⟩)), .free (.signal .triggerSync),
    .free (.receive .triggerSync)] ++
  runTask 0 4 0 ++ runTask 1 7 0 ++ runTask 2 3 0 ++ runTask 3 1 0 ++ runTask 5 1 1 ++
  turns 4 12 ++ [.resolve 0]

/-- Ann's Drive. -/
def driveRun : Lts Running Happening Mark :=
  connectionSystem driveActivities driveServer 0 "acme" "gdocs"

/-- The start of its workflow. -/
def driveStart : Running := .fresh 0 "acme" "gdocs" 0 freshDrive

/-- Whether a label says that the credentials were rejected. -/
def isRejection : Mark → Bool
  | .ended (.syncUnit unitID) e => decide (e = .unitDone unitID (.error .auth))
  | _ => false

/-- Whether a label is a launch. -/
def isLaunch : Mark → Bool
  | .action (.launched _) => true
  | _ => false

/-- Whether a label is the start of `SettleConnection`. -/
def isSettle : Mark → Bool
  | .action (.started .settleConnection) => true
  | _ => false

/-- Whether a label is an upsert of some connection. -/
def isUpsert (x : Mark) : Bool :=
  match performed? x with
  | some ⟨_, .statement (.upsertConnection _), _, _⟩ => true
  | _ => false

theorem isRejection_iff {x : Mark} : isRejection x = true ↔ RejectedCredentials x := by
  constructor
  · intro h
    unfold isRejection at h
    split at h
    · rename_i unitID e
      exact ⟨unitID, by rw [of_decide_eq_true h]⟩
    · cases h
  · rintro ⟨unitID, rfl⟩
    simp [isRejection]

theorem isUpsert_of_reconnects {connectionID : Uuid} {x : Mark} (h : Reconnects connectionID x) :
    isUpsert x = true := by
  obtain ⟨⟨w, c, b, y⟩, p, row, hl, rfl, -⟩ := h
  simp [isUpsert, hl]

/-- Whether a trace has a launch after a rejection, and no upsert between them. -/
def relaunches (tr : List Mark) : Bool :=
  match tr.dropWhile fun x => !isRejection x with
  | [] => false
  | _ :: mid => mid.any isLaunch && mid.all fun x => !isUpsert x

theorem not_stopsLaunching_of_relaunches {connectionID : Uuid} {tr : List Mark}
    (h : relaunches tr = true) : ¬ StopsLaunching connectionID tr := by
  unfold relaunches at h
  split at h
  · cases h
  · rename_i x mid hdrop
    rw [Bool.and_eq_true, List.any_eq_true, List.all_eq_true] at h
    obtain ⟨⟨y, hy, hlaunch⟩, hupsert⟩ := h
    have hx : isRejection x = true := by
      have hne : tr.dropWhile (fun x => !isRejection x) ≠ [] := by simp [hdrop]
      have := List.head_dropWhile_not (fun x => !isRejection x) hne
      simpa [hdrop] using this
    have hsplit := List.takeWhile_append_dropWhile (p := fun x => !isRejection x) (l := tr)
    rw [hdrop] at hsplit
    rw [StopsLaunching, ← hsplit]
    refine not_responds_of_deadline (isRejection_iff.mp hx) hy ?_ fun z hz hz' => ?_
    · unfold isLaunch at hlaunch
      split at hlaunch
      · exact ⟨_, rfl⟩
      · cases hlaunch
    · have := hupsert z hz
      simp [isUpsert_of_reconnects hz'] at this

-- no rejection, nothing to stop
example : relaunches [] = false := by
  decide +kernel

/-- **The rejected unit is launched again.** -/
theorem rejected_unit_relaunched :
    ∃ s tr, driveRun.Run driveStart
        (rejectedDrain ++ [.deliver 0] ++ runTask 6 3 0 ++ runTask 7 1 0) s tr ∧
      ¬ StopsLaunching 0 tr := by
  obtain ⟨s, tr, hrun, hre⟩ := driveRun.exists_run_of_any driveStart
    (rejectedDrain ++ [.deliver 0] ++ runTask 6 3 0 ++ runTask 7 1 0) (fun _ tr => relaunches tr)
    (by decide +kernel)
  exact ⟨s, tr, hrun, not_stopsLaunching_of_relaunches hre⟩

/-- Whether a refill is answered before any rejection. -/
def refillsBefore (s : Running) (tr : List Mark) : Happening → Bool
  | .deliver _ =>
      match s.workflow.control with
      | .nextBatch _ _ _ => tr.all fun x => !isRejection x
      | _ => true
  | _ => true

theorem findsNothing_of_refillsBefore {connectionID : Uuid} {s : Running} {tr : List Mark}
    {e : Happening} (h : refillsBefore s tr e = true) : FindsNothing connectionID s tr e := by
  cases e with
  | deliver k =>
    rintro ⟨pre, x, mid, rfl, hx, -⟩ task r p n ids hk hres hc
    simp only [refillsBefore, hc, List.all_eq_true] at h
    have := h x (by simp)
    rw [isRejection_iff.mpr hx] at this
    cases this
  | _ => trivial

/-- Stopped in time, the drain of the rejected unit settles. -/
theorem stopped_rejected_drain_settles :
    ∃ s tr, driveRun.Run driveStart
        (rejectedDrain ++ [.free (.signal .stopSync), .deliver 0]) s tr ∧
      (∃ x ∈ tr, RejectedCredentials x) ∧ .action (.started .settleConnection) ∈ tr ∧
      StopsLaunching 0 tr ∧ DrainEnds 0 tr ∧ NotStuck s := by
  obtain ⟨s, tr, hrun, hend⟩ := driveRun.exists_runWhere_of_any refillsBefore driveStart
    (rejectedDrain ++ [.free (.signal .stopSync), .deliver 0])
    (fun _ tr => tr.any isRejection && tr.any isSettle) (by decide +kernel)
  rw [Bool.and_eq_true, List.any_eq_true, List.any_eq_true] at hend
  obtain ⟨⟨x, hx, hrej⟩, y, hy, hsettle⟩ := hend
  refine ⟨s, tr, hrun.run, ⟨x, hx, isRejection_iff.mp hrej⟩, ?_, ?_⟩
  · unfold isSettle at hsettle
    split at hsettle
    · exact hy
    · cases hsettle
  · exact (rejection_stops_drain_iff driveActivities driveServer 0 "acme" "gdocs" 0 freshDrive
      hrun.run).mpr (hrun.mono fun s tr e => findsNothing_of_refillsBefore)

end Workflow
end Hivebook
