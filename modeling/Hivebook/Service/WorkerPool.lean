import Hivebook.Service.Drain

/-!
# The worker pool

The drain loop keeps a pool of `SyncUnit` activities.  A refill reads the capacity `P`, asks
`NextUnitBatch` for at most `P` units and launches those that are not in flight, again and again
until the pool is full or a batch has nothing to launch.

Here the workflow runs with its batches answered by the query, on whatever the table holds at
that moment; everything else it is resumed by is free.

## Main definitions

* `Pooling`, `pooling` — the workflow, with the capacity and the last query of its refill.
* `Pooling.inFlight`, `launchedIDs` — the units in flight, before and within a step.
* `Pooling.refilling`, `Pooling.refilled` — a refill is under way, and has just ended.

## Main results

* `launchBatch_launches` — a batch launches units that are not in flight, into a pool with room.
* `pool_kept_full` — **no unit is launched twice or over capacity, and a refill leaves no slot
  free that it could fill.**
-/

namespace Hivebook
namespace Workflow

open Database

/-- The workflow of a connection, with what its refill has read. -/
structure Pooling where
  flow : State
  /-- `P`, as the last `Capacity` answered. -/
  capacity : ℕ
  /-- The moment and the tables of the last `NextUnitBatch` of the refill. -/
  queried : Option (Time × Database)

/-- What resumes the workflow. -/
inductive PoolingEvent where
  /-- Anything but a batch. -/
  | resume (e : Event)
  /-- `NextUnitBatch` is answered from the tables. -/
  | query (now : Time) (db : Database)

/-- What the workflow has read when it is resumed: a refill starts with its capacity. -/
def Pooling.resumed (s : Pooling) (e : Event) (flow : State) : Pooling :=
  match e with
  | .capacityDone (.ok p) => { flow, capacity := capacityP p, queried := none }
  | _ => { s with flow }

/-- Whether an event is an answer of `NextUnitBatch`. -/
def Event.isBatch : Event → Bool
  | .batchDone (.ok _) => true
  | _ => false

/-- The workflow over the table of units: its batches are what `nextUnitBatchSQL` selects. -/
def pooling : Lts Pooling PoolingEvent Action where
  step s
    | .resume e =>
        if e.isBatch then none else (step s.flow e).map fun r => (s.resumed e r.1, r.2)
    | .query now db =>
        match s.flow.control with
        | .nextBatch _ p _ =>
            (step s.flow (.batchDone (.ok (nextUnitBatch now s.flow.input.connectionID p db)))).map
              fun r => ({ s with flow := r.1, queried := some (now, db) }, r.2)
        | _ => none

/-- A fresh execution. -/
def Pooling.fresh (connectionID : Uuid) (tenantID connectorID : String) (now : Time) : Pooling :=
  { flow := .fresh connectionID tenantID connectorID now, capacity := 0, queried := none }

/-- The units in flight. -/
def Pooling.inFlight (s : Pooling) : List String :=
  (s.flow.control.run?.map RunState.inFlight).getD []

/-- The workflow is in a refill. -/
def Pooling.refilling (s : Pooling) : Bool :=
  match s.flow.control with
  | .capacity _ | .nextBatch _ _ _ => true
  | _ => false

/-- The workflow waits for a unit, or settles. -/
def Pooling.refilled (s : Pooling) : Bool :=
  match s.flow.control with
  | .select _ | .settle _ => true
  | _ => false

/-- The units launched by some actions, in order. -/
def launchedIDs (as : List Action) : List String :=
  as.filterMap fun a => match a with
    | .launched id => some id
    | _ => none

/-! ### One batch -/

/-- **A batch launches units that are not in flight, into a pool with room.** -/
theorem launchBatch_launches {p : ℕ} {ids inFlight before after : List String} {id : String}
    (h : (launchBatch p inFlight ids).2 = before ++ id :: after) :
    id ∉ inFlight ++ before ∧ (inFlight ++ before).length < p := by
  induction ids generalizing inFlight before with
  | nil => simp [launchBatch] at h
  | cons x ids ih =>
    rw [launchBatch] at h
    by_cases hp : p ≤ inFlight.length
    · rw [if_pos hp] at h
      simp at h
    · rw [if_neg hp] at h
      by_cases hx : x ∈ inFlight
      · rw [if_pos hx] at h
        exact ih h
      · rw [if_neg hx] at h
        cases before with
        | nil =>
          -- the first unit of the batch that is launched
          obtain ⟨rfl, -⟩ := List.cons.inj h
          rw [List.append_nil]
          exact ⟨hx, by omega⟩
        | cons y before =>
          obtain ⟨rfl, hrest⟩ := List.cons.inj h
          have hlater := ih hrest
          rwa [List.append_assoc] at hlater

@[simp] theorem launchedIDs_append (as bs : List Action) :
    launchedIDs (as ++ bs) = launchedIDs as ++ launchedIDs bs := List.filterMap_append

@[simp] theorem launchedIDs_map_launched (ids : List String) :
    launchedIDs (ids.map .launched) = ids := by
  induction ids with
  | nil => rfl
  | cons id ids ih =>
    show id :: launchedIDs (ids.map .launched) = _
    rw [ih]

theorem launchedIDs_eq_append {as before after : List Action} {id : String}
    (h : as = before ++ .launched id :: after) :
    launchedIDs as = launchedIDs before ++ id :: launchedIDs after := by
  rw [h, launchedIDs_append]
  rfl

/-! ### One step -/

/-- Where a refill stands: below the capacity, or as full as it gets. -/
theorem refill_control (s : State) (r : RunState) (p n : ℕ) :
    (∃ as, refill s r p n = ({ s with control := .nextBatch r p n }, as) ∧ launchedIDs as = []) ∨
    (p ≤ r.inFlight.length ∧ ∃ c as, refill s r p n = ({ s with control := c }, as) ∧
      c.run? = some r ∧ launchedIDs as = [] ∧ ∀ r' p' n', c ≠ .nextBatch r' p' n') := by
  unfold refill
  by_cases h : r.inFlight.length < p
  · rw [if_pos h]
    exact Or.inl ⟨_, rfl, rfl⟩
  · rw [if_neg h]
    obtain ⟨c, as, heq, hstep, hnot⟩ := afterRefill_spec s r n
    refine Or.inr ⟨by omega, c, as, heq, hstep.run?_eq, ?_, hnot⟩
    cases hstep <;> rfl

/-- What a batch does to the pool: it is launched, and the refill goes on below the capacity, ends
with a full pool, or ends with a batch that was in flight already. -/
theorem batch_step {s s' : State} {r : RunState} {p n : ℕ} {ids : List String} {as : List Action}
    (hc : s.control = .nextBatch r p n) (h : step s (.batchDone (.ok ids)) = some (s', as)) :
    s'.input = s.input ∧ launchedIDs as = (launchBatch p r.inFlight ids).2 ∧
    ((∃ r' n', s'.control = .nextBatch r' p n') ∨
      ∃ r', s'.control.run? = some r' ∧ (∀ r'' p' n', s'.control ≠ .nextBatch r'' p' n') ∧
        r'.inFlight = r.inFlight ++ (launchBatch p r.inFlight ids).2 ∧
        (p ≤ r'.inFlight.length ∨ (launchBatch p r.inFlight ids).2 = [])) := by
  simp only [step, hc, Option.some.injEq, Prod.mk.injEq] at h
  obtain ⟨rfl, rfl⟩ := h
  by_cases hl : (launchBatch p r.inFlight ids).2 = []
  · simp only [if_pos hl]
    obtain ⟨c, as, heq, hstep, hnot⟩ := afterRefill_spec s r n
    rw [heq, launchedIDs_append, launchedIDs_map_launched]
    have hnone : launchedIDs as = [] := by cases hstep <;> rfl
    refine ⟨rfl, by rw [hnone, List.append_nil], Or.inr ⟨r, hstep.run?_eq, hnot, ?_, Or.inr hl⟩⟩
    rw [hl, List.append_nil]
  · simp only [if_neg hl]
    rw [launchedIDs_append, launchedIDs_map_launched]
    have hpool := launchBatch_fst p ids r.inFlight
    rcases refill_control s { r with inFlight := (launchBatch p r.inFlight ids).1 } p
      (n + (launchBatch p r.inFlight ids).2.length) with
      ⟨as, heq, hnone⟩ | ⟨hfull, c, as, heq, hrun, hnone, hnot⟩
    · rw [heq, hnone, List.append_nil]
      exact ⟨rfl, rfl, Or.inl ⟨_, _, rfl⟩⟩
    · rw [heq, hnone, List.append_nil]
      exact ⟨rfl, rfl, Or.inr ⟨_, hrun, hnot, hpool, Or.inl hfull⟩⟩

/-- Only a batch launches units. -/
theorem launchedIDs_of_not_batch {s s' : State} {e : Event} {as : List Action}
    (ht : Transition s e s' as) (he : e.isBatch = false) : launchedIDs as = [] := by
  have hdrained : launchedIDs (drained s.signals) = [] := by
    refine List.filterMap_eq_nil_iff.mpr fun a ha => ?_
    obtain ⟨x, rfl, -⟩ := mem_drained ha
    rfl
  cases ht with
  | launching r p n ids c l hc hd => cases he
  | discovered r n c l hc hd => cases hd <;> rfl
  | refilling r p c l hc hd => cases hd <;> rfl
  | crossed r id res c l hc hid hnot hd =>
    rw [launchedIDs_append, hdrained]
    cases hd <;> rfl
  | resumed r id res hc =>
    rw [launchedIDs_append, hdrained]
    rfl
  | _ => rfl

/-- What one step of the pool does. -/
theorem pooling_step {s s' : Pooling} {e : PoolingEvent} {as : List Action}
    (h : pooling.step s e = some (s', as)) :
    (∃ ev flow, e = .resume ev ∧ ev.isBatch = false ∧ step s.flow ev = some (flow, as) ∧
      s' = s.resumed ev flow) ∨
    ∃ now db r p n flow, e = .query now db ∧ s.flow.control = .nextBatch r p n ∧
      step s.flow (.batchDone (.ok (nextUnitBatch now s.flow.input.connectionID p db))) =
        some (flow, as) ∧ s' = { s with flow, queried := some (now, db) } := by
  cases e with
  | resume ev =>
    simp only [pooling] at h
    cases hb : ev.isBatch with
    | true => simp [hb] at h
    | false =>
      rw [hb, if_neg Bool.false_ne_true] at h
      obtain ⟨⟨flow, as'⟩, hstep, heq⟩ := Option.map_eq_some_iff.mp h
      cases heq
      exact Or.inl ⟨ev, flow, rfl, hb, hstep, rfl⟩
  | query now db =>
    simp only [pooling] at h
    split at h
    · rename_i r p n hc
      obtain ⟨⟨flow, as'⟩, hstep, heq⟩ := Option.map_eq_some_iff.mp h
      cases heq
      exact Or.inr ⟨now, db, r, p, n, flow, rfl, hc, hstep, rfl⟩
    · cases h

theorem Pooling.resumed_flow (s : Pooling) (e : Event) (flow : State) :
    (s.resumed e flow).flow = flow := by
  unfold Pooling.resumed
  split <;> rfl

/-- What resumes the workflow, a batch apart, starts a refill, ends one that finds the pool full,
or is no part of a refill. -/
theorem resumed_refill {s : Pooling} {flow : State} {e : Event} {as : List Action}
    (hwf : Wf s.flow) (he : e.isBatch = false) (h : step s.flow e = some (flow, as))
    (hcap : ∀ r p n, s.flow.control = .nextBatch r p n → p = s.capacity) :
    (∀ r p n, flow.control = .nextBatch r p n → p = (s.resumed e flow).capacity) ∧
    (s.refilling = true → (s.resumed e flow).refilled = true →
      (s.resumed e flow).capacity ≤ (s.resumed e flow).inFlight.length) := by
  have ht := (hwf.step h).1
  have hstay : ∀ q : Pooling, q.flow.control = s.flow.control → s.refilling = true →
      q.refilled ≠ true := by
    intro q hq hs hq'
    unfold Pooling.refilling at hs
    unfold Pooling.refilled at hq'
    rw [hq] at hq'
    split at hs
    all_goals rename_i hc; simp [hc] at hq' hs
  -- the steps that are no part of a refill
  have haside : s.refilling = false → (∀ r p n, flow.control ≠ .nextBatch r p n) →
      (∀ r p n, flow.control = .nextBatch r p n → p = (s.resumed e flow).capacity) ∧
      (s.refilling = true → (s.resumed e flow).refilled = true →
        (s.resumed e flow).capacity ≤ (s.resumed e flow).inFlight.length) := by
    intro hs hnot
    refine ⟨fun r p n hc => absurd hc (hnot r p n), fun hs' => ?_⟩
    rw [hs] at hs'
    cases hs'
  have hdrain : ∀ {r : RunState} {c : Control} {l : List Action}, DrainStep r c l →
      ∀ r' p n, c ≠ .nextBatch r' p n := by
    intro r c l hd r' p n hc
    cases hd <;> cases hc
  cases ht with
  | signal x hend => exact ⟨hcap, fun hs hs' => absurd hs' (hstay _ rfl hs)⟩
  | tick d => exact ⟨hcap, fun hs hs' => absurd hs' (hstay _ rfl hs)⟩
  | launching r p n ids c l hc hd => cases he
  | refilling r p c l hc hd =>
    -- the refill starts below the capacity it has just read, or finds the pool full
    simp only [step, hc, Option.some.injEq] at h
    rcases refill_control s.flow r (capacityP p) 0 with
      ⟨as, heq, -⟩ | ⟨hfull, c', as, heq, hrun, -, hnot⟩
    · rw [heq] at h
      cases h
      refine ⟨fun r' p' n hc' => ?_, fun _ hs' => (by cases hs')⟩
      cases hc'
      rfl
    · rw [heq] at h
      cases h
      refine ⟨fun r' p' n hc' => absurd hc' (hnot r' p' n), fun _ _ => ?_⟩
      show capacityP p ≤ ((c.run?.map RunState.inFlight).getD []).length
      rw [hrun]
      exact hfull
  | discovered r n c l hc hd => exact haside (by simp [Pooling.refilling, hc]) (hdrain hd)
  | crossed r id res c l hc hid hnot hd =>
    exact haside (by simp [Pooling.refilling, hc]) (hdrain hd)
  | failed ev r hr hsel =>
    refine ⟨fun r' p' n' hc' => (by cases hc'), fun _ hs' => ?_⟩
    unfold Pooling.refilled at hs'
    rw [Pooling.resumed_flow] at hs'
    cases hs'
  | wake timer x c a hc _ _ _ hto =>
    refine haside (by simp [Pooling.refilling, hc]) fun r' p' n' hc' => ?_
    rcases hto with ⟨rfl, -⟩ | ⟨rfl, -⟩ <;> cases hc'
  | resumed r id res hc => exact haside (by simp [Pooling.refilling, hc]) (by simp)
  | ended r st hc => exact haside (by simp [Pooling.refilling, hc]) (by simp)
  | rerun r st hc => exact haside (by simp [Pooling.refilling, hc]) (by simp)
  | rested r st hc => exact haside (by simp [Pooling.refilling, hc]) (by simp)
  | park r timer hc => exact haside (by simp [Pooling.refilling, hc]) (by simp)
  | trigger timer hc => exact haside (by simp [Pooling.refilling, hc]) (by simp)
  | due timer hc => exact haside (by simp [Pooling.refilling, hc]) (by simp)
  | disconnected timer hc => exact haside (by simp [Pooling.refilling, hc]) (by simp)
  | refreshed r hc => exact haside (by simp [Pooling.refilling, hc]) (by simp)
  | runStarted r hc => exact haside (by simp [Pooling.refilling, hc]) (by simp)

/-! ### Whole runs -/

/-- A refill asks for as many units as the capacity it has read. -/
theorem pooling_capacity {connectionID : Uuid} {tenantID connectorID : String} {t : Time}
    {es : List PoolingEvent} {s : Pooling} {tr : List Action}
    (h : pooling.Run (.fresh connectionID tenantID connectorID t) es s tr) :
    Wf s.flow ∧ ∀ r p n, s.flow.control = .nextBatch r p n → p = s.capacity := by
  refine h.invariant (J := fun s _ => Wf s.flow ∧
    ∀ r p n, s.flow.control = .nextBatch r p n → p = s.capacity)
    ⟨wf_fresh _ _ _ _, fun r p n hc => (by cases hc)⟩ ?_
  intro s tr e s' as ⟨hwf, hcap⟩ _ hstep
  rcases pooling_step hstep with
    ⟨ev, flow, rfl, hev, hflow, rfl⟩ | ⟨now, db, r, p, n, flow, rfl, hc, hflow, rfl⟩
  · rw [Pooling.resumed_flow]
    exact ⟨(hwf.step hflow).2, (resumed_refill hwf hev hflow hcap).1⟩
  · have hbatch : connectionWorkflow.step s.flow (.batchDone _) = some (flow, as) := hflow
    refine ⟨(hwf.step hbatch).2, fun r' p' n' hc' => ?_⟩
    rcases (batch_step hc hflow).2.2 with ⟨r'', n'', hnext⟩ | ⟨r'', -, hnot, -⟩
    · rw [hc'] at hnext
      cases hnext
      exact hcap r p n hc
    · exact absurd hc' (hnot r' p' n')

/-- **The pool is kept full, and never launches a unit twice.**  Along every run of the workflow,
whatever the table holds at each query, whatever the capacities and in whatever order the units
finish: a unit is launched only when it is not in flight and fewer than `P` are; and when a refill
ends, `P` units are in flight, or every unit that was eligible at its last query is. -/
theorem pool_kept_full {connectionID : Uuid} {tenantID connectorID : String} {t : Time}
    {es : List PoolingEvent} {s s' : Pooling} {tr as : List Action} {e : PoolingEvent}
    (h : pooling.Run (.fresh connectionID tenantID connectorID t) es s tr)
    (hstep : pooling.step s e = some (s', as)) :
    (∀ before id after, as = before ++ .launched id :: after →
      id ∉ s.inFlight ++ launchedIDs before ∧
      (s.inFlight ++ launchedIDs before).length < s.capacity) ∧
    (s.refilling = true → s'.refilled = true →
      s'.capacity ≤ s'.inFlight.length ∨ ∃ now db, s'.queried = some (now, db) ∧
        ∀ u ∈ db.units.rows, eligible now s'.flow.input.connectionID u = true →
          u.externalID ∈ s'.inFlight) := by
  obtain ⟨hwf, hcap⟩ := pooling_capacity h
  rcases pooling_step hstep with
    ⟨ev, flow, rfl, hev, hflow, rfl⟩ | ⟨now, db, r, p, n, flow, rfl, hc, hflow, rfl⟩
  · refine ⟨fun before id after has => ?_, fun hs hs' =>
      Or.inl ((resumed_refill hwf hev hflow hcap).2 hs hs')⟩
    have hnone := launchedIDs_of_not_batch (hwf.step hflow).1 hev
    rw [launchedIDs_eq_append has] at hnone
    simp at hnone
  · obtain rfl := hcap r p n hc
    obtain ⟨hinput, hids, hend⟩ := batch_step hc hflow
    have hin : s.inFlight = r.inFlight := by simp [Pooling.inFlight, hc, Control.run?]
    refine ⟨fun before id after has => ?_, fun _ hs' => ?_⟩
    · rw [launchedIDs_eq_append has] at hids
      rw [hin]
      exact launchBatch_launches hids.symm
    · have hnext : ∀ r' n', flow.control ≠ .nextBatch r' s.capacity n' := by
        intro r' n' hc'
        simp [Pooling.refilled, hc'] at hs'
      obtain ⟨r', hrun, -, hpool, hfull⟩ :=
        hend.resolve_left fun ⟨r', n', hc'⟩ => hnext r' n' hc'
      have hin' : Pooling.inFlight { s with flow, queried := some (now, db) } = r'.inFlight := by
        simp [Pooling.inFlight, hrun]
      rw [hin']
      rcases hfull with hfull | hnone
      · exact Or.inl hfull
      · rw [hnone, List.append_nil] at hpool
        by_cases hroom : r'.inFlight.length < s.capacity
        · -- nothing of the batch could be launched, and there was room for all of it
          rw [hpool] at hroom ⊢
          have hbatch := (launchBatch_eq_nil_iff hroom _).mp hnone
          refine Or.inr ⟨now, db, rfl, ?_⟩
          show ∀ u ∈ db.units.rows, eligible now flow.input.connectionID u = true → _
          rw [hinput]
          exact (nextUnitBatch_subset_iff hroom).mp hbatch
        · exact Or.inl (Nat.not_lt.mp hroom)

/-- The table of a connection with three selected units. -/
def threeUnits : Database :=
  setUnitSelection 0 0 ["a", "b", "c"]
    (["a", "b", "c"].foldl (fun db x => upsertSyncUnit 0 0 x x "github_repo" 1 db) .empty)

example : nextUnitBatch 1 0 2 threeUnits = ["a", "b"] := by decide +kernel

/-- A triggered run, up to the first query of its first refill, with capacity for two units. -/
def firstRefill : List PoolingEvent :=
  [.resume (.scheduleDone (.ok ⟨false, 0⟩)), .resume (.signal .triggerSync),
    .resume (.receive .triggerSync), .resume (.startRunDone (.ok ())),
    .resume (.discoverDone (.ok 3)), .resume (.capacityDone (.ok 2))]

/-- Three units and room for two: the first two are launched, and the refill ends with the pool
full. -/
theorem two_of_three_launched : ∃ s s' tr as,
    pooling.Run (.fresh 0 "t" "github" 0) firstRefill s tr ∧
    pooling.step s (.query 1 threeUnits) = some (s', as) ∧
    s.refilling = true ∧ s'.refilled = true ∧ launchedIDs as = ["a", "b"] ∧
    (∀ before id after, as = before ++ .launched id :: after →
      id ∉ s.inFlight ++ launchedIDs before ∧
      (s.inFlight ++ launchedIDs before).length < s.capacity) ∧
    (s'.capacity ≤ s'.inFlight.length ∨ ∃ now db, s'.queried = some (now, db) ∧
      ∀ u ∈ db.units.rows, eligible now s'.flow.input.connectionID u = true →
        u.externalID ∈ s'.inFlight) := by
  obtain ⟨s, tr, hrun, hP⟩ := Lts.exists_run_of_any pooling (.fresh 0 "t" "github" 0) firstRefill
    (fun s _ => s.refilling && (pooling.step s (.query 1 threeUnits)).any fun r =>
      r.1.refilled && decide (launchedIDs r.2 = ["a", "b"])) (by decide +kernel)
  obtain ⟨hs, hstep⟩ := Bool.and_eq_true_iff.mp hP
  obtain ⟨⟨s', as⟩, hstep, hend⟩ := (Option.any_eq_true _ _).mp hstep
  obtain ⟨hs', hids⟩ := Bool.and_eq_true_iff.mp hend
  obtain ⟨hlaunch, hfull⟩ := pool_kept_full hrun hstep
  exact ⟨s, s', tr, as, hrun, hstep, hs, hs', of_decide_eq_true hids, hlaunch, hfull hs hs'⟩

end Workflow
end Hivebook
