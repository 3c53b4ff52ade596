import Hivebook.Service.Reauth
import Hivebook.Service.Settling

/-!
# Chunks of a unit

A `SyncUnit` that has used up its budget returns `Done=false`.  Its unit is left `syncing`, and
the next refill launches it again: so a run goes on until every selected unit has caught up.

The refill goes by the table.  A unit is hidden from it while its backoff runs, and the backoff
that a failed attempt has armed is cleared by a commit only: an attempt that fails and a second
one that returns `Done=false` leave a unit that no refill of the run finds.

## Main definitions

* `chunked id x tr` — the last that happened to the unit is a result `Done=false`.
* `resumable` — the condition: what a query and a result `Done=false` ask of the trace before.
* `Resumed id s tr` — a run that settles has left no chunked unit behind.

## Main results

* `syncUnit_chunking` — an execution that returns `Done=false`, or finds the credentials rejected,
  has written one status, `syncing`.
* `chunked_units_resumed` — **if no refill finds a chunked unit in its backoff, a run launches
  every chunked unit again before it settles.**
* `eligible_of_rejected` — a unit whose credentials were rejected is found again in every run.
* `backoff_strands_chunk` — a unit whose first attempt failed is left behind.
-/

namespace Hivebook
namespace Workflow

open Database Orchestration Connectors

/-! ### An execution that leaves its unit `syncing` -/

/-- Whether an execution that has got this answer may still leave its unit `syncing`. -/
def midway : (c : Cmd) → c.Resp → Bool
  | .statement (.setUnitStatus _ _ .syncing), .ok _ => true
  | .statement (.setUnitStatus _ _ _), _ => false
  | .statement (.commitUnit _ _), _ => false
  | .statement (.setUnitRetry _ _ _ _), _ => false
  | _, _ => true

/-- What an execution has been answered so far leaves its unit `syncing`. -/
def chunking : Protocol Bool Cmd Cmd.Resp where
  allowed _ _ := True
  next g c r := g && midway c r

/-- The result is `Done=false`, or that the credentials were rejected. -/
inductive Unfinished : Except ActivityError SyncResult → Prop
  | chunk (res : SyncResult) : res.done = false → Unfinished (.ok res)
  | rejected (e : ActivityError) : e.type = .auth → Unfinished (.error e)

/-- Such a result comes midway. -/
def Midway (r : Except ActivityError SyncResult) (g : Bool) : Prop := Unfinished r → g = true

section Follows

variable {α : Type} {p : Program α} {g : Bool}

theorem follows_chunking (p : Program α) (g : Bool) : p.Follows chunking (fun _ _ => True) g := by
  induction p generalizing g with
  | pure a => trivial
  | call c k ih => exact ⟨trivial, fun r => ih r _⟩

/-- Commands that write no status keep an execution midway. -/
theorem follows_midway (hp : p.Uses fun c => ∀ r, midway c r = true) :
    p.Follows chunking (fun _ g => g = true) true := by
  refine Prog.follows_of_uses (I := fun g => g = true) (hp.mono fun c hc g hg => ?_) rfl
  refine ⟨trivial, fun r => ?_⟩
  show (g && midway c r) = true
  rw [hg, hc r]
  rfl

/-- Any other error finishes the execution. -/
theorem midway_error {e : ActivityError} (g : Bool)
    (h : e.type ≠ .auth := by simp [ActivityError.type]) : Midway (.error e) g := by
  rintro (_ | ⟨_, hauth⟩)
  exact absurd hauth h

theorem midway_of_touchesTokens {c : Cmd} (h : c.touchesTokens = true) (r : c.Resp) :
    midway c r = true := by
  cases c with
  | statement s => cases s <;> first | rfl | cases h
  | _ => rfl

theorem midway_of_inDrain {i : SyncInput} {conn : Connection} {c : Cmd} (h : InDrain i conn c)
    (r : c.Resp) : midway c r = true := by
  cases h with
  | tokens hc => exact midway_of_touchesTokens hc r
  | _ => rfl

variable (a : Activities) (i : SyncInput) (conn : Connection) (connector : Connector)

/-- **Rejected credentials leave the unit as it is**: only a failure of another kind arms its
backoff. -/
theorem midway_classify (unitID : String) (err : Err) :
    ((Activities.classify conn unitID err).bind fun e => .pure (.error e)).Follows chunking
      Midway true := by
  unfold Activities.classify
  split
  · exact ⟨trivial, fun _ => ⟨trivial, fun _ _ => rfl⟩⟩
  · exact midway_error _
  · refine Prog.Follows.bind (R := fun e _ => e.type ≠ .auth)
      ((follows_chunking (Activities.armBackoff conn unitID err) _).bind fun _ _ _ => ?_)
      fun e g he => midway_error g he
    show ActivityError.type (.application _ .sync _ _) ≠ .auth
    simp [ActivityError.type]

theorem midway_commitSynced (written : ℕ) (g : Bool) :
    (Activities.commitSynced i written).Follows chunking Midway g := by
  refine ⟨trivial, fun r => ?_⟩
  cases r with
  | error e => exact midway_error _
  | ok _ =>
    refine ⟨trivial, fun r => ?_⟩
    cases r with
    | error e => exact midway_error _
    | ok _ =>
      -- the result is `Done=true`
      refine ⟨trivial, fun _ => ⟨trivial, fun _ h => ?_⟩⟩
      cases h with
      | chunk res hdone => cases hdone

theorem midway_finishUnit (result : Except Err Bool) (written : ℕ) :
    (Activities.finishUnit i conn connector result written).Follows chunking Midway true := by
  refine Prog.Follows.bind (R := fun _ g => g = true) ?_ fun _ g hg => ⟨trivial, fun b => ?_⟩
  · refine follows_midway ?_
    unfold Activities.flushProgress
    split
    · exact ⟨fun _ => rfl, fun _ => trivial⟩
    · trivial
  · subst hg
    dsimp only [Prog.pure_bind]
    split
    · exact midway_error _
    · split
      · refine Prog.Follows.bind (R := fun _ g => g = true) ?_ fun _ g hg => ?_
        · refine follows_midway ?_
          unfold Activities.throttleFeedback
          split
          · refine Prog.Uses.bind ?_ fun _ => trivial
            unfold Admission.recordThrottle
            split
            · exact ⟨fun _ => rfl, fun _ => ⟨fun _ => rfl, fun _ => trivial⟩⟩
            · exact ⟨fun _ => rfl, fun _ => trivial⟩
          · trivial
        · subst hg
          exact midway_classify conn _ _
      · refine ⟨trivial, fun r => ?_⟩
        dsimp only [Prog.pure_bind]
        split
        · exact midway_commitSynced i written _
        · exact fun _ => rfl

theorem midway_admitted (unit : SyncUnit) :
    (a.admitted i conn connector unit).Follows chunking Midway true := by
  refine Prog.Follows.bind (R := fun _ g => g = true) ?_ fun r g hg => ?_
  · refine follows_midway ⟨fun _ => rfl, fun r => ?_⟩
    cases r with
    | error e => trivial
    | ok _ =>
      refine ⟨fun _ => rfl, fun r => ?_⟩
      dsimp only [Prog.pure_bind]
      split <;> trivial
  · subst hg
    split
    · exact midway_error _
    · exact midway_error _
    · refine Prog.Follows.bind (R := Midway) ?_ fun r g hr => ⟨trivial, fun _ h => ?_⟩
      · refine Prog.Follows.bind (R := fun _ g => g = true) ?_ fun r g hg => ?_
        · exact follows_midway ((uses_drain a connector unit).mono fun _ => midway_of_inDrain)
        · subst hg
          exact midway_finishUnit i conn connector _ _
      · show (g && true) = true
        rw [Bool.and_true]
        exact hr h

/-- **An execution that returns `Done=false`, or finds the credentials rejected, has written one
status, `syncing`.** -/
theorem syncUnit_chunking : (a.syncUnit i).Follows chunking Midway true := by
  rw [syncUnit_eq]
  refine Prog.Follows.bind (R := fun _ g => g = true) ?_ fun r g hg => ?_
  · refine follows_midway ⟨fun _ => rfl, fun r => ?_⟩
    cases r with
    | error e => trivial
    | ok conn =>
      dsimp only [Prog.pure_bind]
      split <;> trivial
  · subst hg
    cases r with
    | error e => exact midway_error _
    | ok cc =>
      refine ⟨trivial, fun r => ?_⟩
      cases r with
      | error e => exact midway_error _
      | ok unit =>
        refine ⟨trivial, fun r => ?_⟩
        cases r with
        | error e => exact midway_error _
        | ok _ =>
          refine ⟨trivial, fun _ => ?_⟩
          dsimp only [Prog.pure_bind]
          refine Prog.Follows.bind (R := fun _ g => g = true) ?_ fun r g hg => ?_
          · exact follows_midway ((a.touchesTokens_clientFor cc.1).mono
              fun _ => midway_of_touchesTokens)
          · subst hg
            split
            · exact midway_classify cc.1 _ _
            · exact midway_admitted a i cc.1 cc.2 unit

end Follows

/-! ### What has happened to a unit -/

/-- The command is one of a `SyncUnit` that writes the status of its unit. -/
def touchesUnit (id : Uuid) (x : String) (l : Performed World Choice Cmd) : Bool :=
  poisons id x l || worksOn id x l

/-- The user selects a unit that was not selected. -/
def newlySelects (id : Uuid) (x : String) (l : Performed World Choice Cmd) : Bool :=
  tookEffect l && match l.cmd with
    | .statement (.setUnitSelection id' ids) => decide (id' = id) && decide (x ∈ ids) &&
        l.state.db.units.rows.any fun u => u.is id x && !u.selected
    | _ => false

/-- The result of a `SyncUnit` that has more to do. -/
def Event.isChunk : Event → Bool
  | .unitDone _ (.ok res) => !res.done
  | _ => false

/-- How a label changes whether a unit waits for its next chunk. -/
def chunkNext (id : Uuid) (x : String) (b : Bool) : Mark → Bool
  | .ended (.syncUnit x') e => if x' = x then e.isChunk else b
  | .performed _ l | .other l => b && !touchesUnit id x l && !newlySelects id x l
  | _ => b

/-- **The unit waits for its next chunk**: its last `SyncUnit` has returned `Done=false`, no
execution has worked on it since, and it was not newly selected since. -/
def chunked (id : Uuid) (x : String) (tr : List Mark) : Bool :=
  tr.foldl (chunkNext id x) false

/-- The last command that wrote the status of a unit. -/
def lastTouch (id : Uuid) (x : String) (tr : List Mark) : Option Mark :=
  tr.foldl (fun o m => if (performed? m).any (touchesUnit id x) then some m else o) none

/-- The label is of a command of this execution. -/
def ofExecution (i : ℕ) : Mark → Bool
  | .performed j _ => decide (j = i)
  | _ => false

/-- The unit is live: selected, and not removed. -/
def LiveAt (id : Uuid) (x : String) (db : Database) : Prop :=
  ∃ u ∈ db.units.rows, u.key = (id, x) ∧ u.selected = true ∧ u.status ≠ .removed

/-- **The condition.**  A query finds no live chunked unit in its backoff; and when the result
`Done=false` of an execution is taken, it was the execution that wrote the status of its unit
last: no other attempt runs beside it. -/
def resumable (id : Uuid) (s : Running) (tr : List Mark) : Happening → Bool
  | .turn i t =>
      match s.executions[i]? with
      | some ⟨.call (.statement (.nextUnitBatch _ _)) _, _⟩ => s.world.db.units.rows.all fun u =>
          !(countedIn id u && chunked id u.externalID tr) ||
            nullOrElapsed u.nextRetryAt (s.world.now + t.choice.elapsed)
      | _ => true
  | .resolve k =>
      match s.tasks[k]? with
      | some ⟨.syncUnit x, _, i, _⟩ =>
          match s.executions[i]? with
          | some ⟨.pure e, _⟩ => !e.isChunk || (lastTouch id x tr).any (ofExecution i)
          | _ => true
      | _ => true
  | _ => true

/-- **Every chunked unit was launched again**: when a run that was not stopped settles, no live
unit waits for its next chunk. -/
def Resumed (id : Uuid) (s : Running) (tr : List Mark) : Prop :=
  ∀ r, s.workflow.control = .settle r → r.stopRequested = false →
    ∀ x, chunked id x tr = true → ¬ LiveAt id x s.world.db

/-- The status of the unit lets a refill find it. -/
def AwakeAt (id : Uuid) (x : String) (db : Database) : Prop :=
  ∀ u ∈ db.units.rows, u.key = (id, x) → u.status ≠ .synced ∧ u.status ≠ .error

/-- The last status that was written to the unit is `syncing`. -/
def Begun (id : Uuid) (x : String) (tr : List Mark) : Prop :=
  ∃ m l, lastTouch id x tr = some m ∧ performed? m = some l ∧
    l.cmd = .statement (.setUnitStatus id x .syncing) ∧ tookEffect l = true

section Labels

variable {id : Uuid} {x : String} {tr as : List Mark} {m : Mark}

theorem chunked_snoc (id : Uuid) (x : String) (tr : List Mark) (m : Mark) :
    chunked id x (tr ++ [m]) = chunkNext id x (chunked id x tr) m := by
  rw [chunked, List.foldl_append]
  rfl

theorem lastTouch_snoc (id : Uuid) (x : String) (tr : List Mark) (m : Mark) :
    lastTouch id x (tr ++ [m]) =
      if (performed? m).any (touchesUnit id x) then some m else lastTouch id x tr := by
  rw [lastTouch, List.foldl_append]
  rfl

/-- The label is of the workflow itself. -/
def ofWorkflow : Mark → Bool
  | .action _ | .resumed _ => true
  | _ => false

/-- What the workflow does changes nothing of what has happened to the units. -/
theorem ghosts_append (h : ∀ m ∈ as, ofWorkflow m = true) :
    chunked id x (tr ++ as) = chunked id x tr ∧ lastTouch id x (tr ++ as) = lastTouch id x tr := by
  induction as using List.reverseRecOn with
  | nil => simp
  | append_singleton as m ih =>
    obtain ⟨hchunked, htouch⟩ := ih fun m' hm' => h m' (List.mem_append_left _ hm')
    have hm := h m (by simp)
    rw [← List.append_assoc, chunked_snoc, lastTouch_snoc, hchunked, htouch]
    cases m with
    | action a => exact ⟨rfl, rfl⟩
    | resumed s => exact ⟨rfl, rfl⟩
    | _ => cases hm

end Labels

/-! ### What a command does to a unit -/

section Command

variable {id : Uuid} {x : String} {w : World} {c : Cmd} {b : Bool} {t : Choice}

/-- `SetUnitStatus` leaves its unit in the status. -/
theorem status_of_setUnitStatus {db : Database} {now : Time} {st : UnitStatus} {u : SyncUnit}
    (h : u ∈ ((Statement.setUnitStatus id x st).exec now db).2.units.rows)
    (hkey : u.key = (id, x)) : u.status = st := by
  obtain ⟨u₀, -, rfl⟩ := List.mem_map.mp h
  unfold Table.updated at hkey ⊢
  by_cases hp : u₀.is id x = true
  · rw [if_pos hp]
  · rw [if_neg hp] at hkey
    obtain ⟨hid, hx⟩ : u₀.connectionID = id ∧ u₀.externalID = x := Prod.mk.inj hkey
    simp [SyncUnit.is, hid, hx] at hp

/-- An execution that has begun has made its unit findable. -/
theorem awakeAt_of_syncing (heff : t.takesEffect b = true) : AwakeAt id x
    (service.perform t b w (.statement (.setUnitStatus id x .syncing))).1.db := by
  intro u hu hkey
  rw [service_db] at hu
  have hexec : u ∈ ((Statement.setUnitStatus id x .syncing).exec (w.now + t.elapsed)
      w.db).2.units.rows := by
    simpa only [if_pos heff] using hu
  rw [status_of_setUnitStatus hexec hkey]
  exact ⟨by decide, by decide⟩

/-- A row of the unit after a command is new, or was there and was rewritten by a statement that
leaves the status to the executions. -/
theorem unit_step {u' : SyncUnit} (hu' : u' ∈ (service.perform t b w c).1.db.units.rows)
    (hkey : u'.key = (id, x)) :
    (∃ u ∈ w.db.units.rows, u.key = (id, x) ∧ (u' = u ∨ ∃ s, c = .statement s ∧
      t.takesEffect b = true ∧ Rewrites (w.now + t.elapsed) w.db s u u')) ∨
      (u'.selected = false ∧ u'.status = .idle) := by
  rw [service_db] at hu'
  cases c with
  | statement s =>
    by_cases heff : t.takesEffect b = true
    · have hexec : u' ∈ (s.exec (w.now + t.elapsed) w.db).2.units.rows := by
        simpa only [if_pos heff] using hu'
      rcases unit_exec s hexec with ⟨u, hu, rfl | hrew⟩ | ⟨id', x', name, kind, g, -, -, rfl⟩
      · exact .inl ⟨_, hu, hkey, .inl rfl⟩
      · exact .inl ⟨u, hu, hrew.key.symm.trans hkey, .inr ⟨s, rfl, heff, hrew⟩⟩
      · exact .inr ⟨rfl, rfl⟩
    · have hsame : u' ∈ w.db.units.rows := by
        simpa only [if_neg heff] using hu'
      exact .inl ⟨u', hsame, hkey, .inl rfl⟩
  | _ => exact .inl ⟨u', hu', hkey, .inl rfl⟩

/-- **A command that does not write the status of a unit leaves it findable.** -/
theorem AwakeAt.step (h : AwakeAt id x w.db) (hno : touchesUnit id x ⟨w, c, b, t⟩ = false) :
    AwakeAt id x (service.perform t b w c).1.db := by
  intro u' hu' hkey
  rcases unit_step hu' hkey with ⟨u, hu, hkey, rfl | ⟨s, rfl, -, hrew⟩⟩ | ⟨-, hidle⟩
  · exact h _ hu hkey
  · have hawake := h u hu hkey
    obtain ⟨rfl, rfl⟩ : u.connectionID = id ∧ u.externalID = x := Prod.mk.inj hkey
    cases hrew with
    | status => simp [touchesUnit, worksOn] at hno
    | commit => simp [touchesUnit, worksOn] at hno
    | retry => simp [touchesUnit, poisons] at hno
    | sweep => exact ⟨by simp, by simp⟩
    | rearm _ _ hst =>
      rcases hst with hst | hst
      · exact absurd hst hawake.1
      · exact absurd hst hawake.2
    | mark | total | selection | cursor | counted | clear => exact hawake
  · rw [hidle]
    exact ⟨by decide, by decide⟩

/-- **A unit that is live after a command was live before**, unless the command has written its
status or has newly selected it. -/
theorem LiveAt.of_step (h : LiveAt id x (service.perform t b w c).1.db)
    (hno : touchesUnit id x ⟨w, c, b, t⟩ = false) (hsel : newlySelects id x ⟨w, c, b, t⟩ = false) :
    LiveAt id x w.db := by
  obtain ⟨u', hu', hkey, hselected, hremoved⟩ := h
  rcases unit_step hu' hkey with ⟨u, hu, hkey, rfl | ⟨s, rfl, heff, hrew⟩⟩ | ⟨hunselected, -⟩
  · exact ⟨_, hu, hkey, hselected, hremoved⟩
  · refine ⟨u, hu, hkey, ?_⟩
    obtain ⟨rfl, rfl⟩ : u.connectionID = id ∧ u.externalID = x := Prod.mk.inj hkey
    cases hrew with
    | status => simp [touchesUnit, worksOn] at hno
    | commit => simp [touchesUnit, worksOn] at hno
    | retry => simp [touchesUnit, poisons] at hno
    | sweep => exact absurd rfl hremoved
    | selection _ ids =>
      have hmem : u.externalID ∈ ids := of_decide_eq_true hselected
      refine ⟨?_, hremoved⟩
      -- otherwise it is newly selected
      cases hs : u.selected with
      | true => rfl
      | false =>
        have hany : (w.db.units.rows.any fun u' =>
            u'.is u.connectionID u.externalID && !u'.selected) = true :=
          List.any_eq_true.mpr ⟨u, hu, by simp [SyncUnit.is, hs]⟩
        simp [newlySelects, tookEffect, heff, hmem, hany] at hsel
    | rearm _ hs hst =>
      refine ⟨hs, ?_⟩
      rcases hst with hst | hst <;> simp [hst]
    | mark | total | cursor | counted | clear => exact ⟨hselected, hremoved⟩
  · rw [hunselected] at hselected
    cases hselected

end Command

/-! ### How a run comes to its settle -/

section Steps

variable {s s' : State} {e : Event} {as : List Action}

/-- A refill is at its next batch because it was, or because its capacity or its last batch has
arrived. -/
theorem Transition.of_nextBatch (ht : Transition s e s' as) {r : RunState} {p n : ℕ}
    (hc : s'.control = .nextBatch r p n) :
    (s.control = .nextBatch r p n ∧ as = []) ∨
      (∃ r₀ q, s.control = .capacity r₀ ∧ e = .capacityDone q) ∨
      ∃ r₀ p₀ n₀ q, s.control = .nextBatch r₀ p₀ n₀ ∧ e = .batchDone q := by
  cases ht with
  | signal x hend => exact .inl ⟨hc, rfl⟩
  | tick d => exact .inl ⟨hc, rfl⟩
  | wake timer x c a hc' _ _ _ hto =>
    obtain ⟨rfl, -⟩ | ⟨rfl, -⟩ := hto <;> cases hc
  | discovered r₀ m c l hc' hd => cases hd <;> cases hc
  | refilling r₀ q c l hc' hd => exact .inr (.inl ⟨r₀, _, hc', rfl⟩)
  | launching r₀ p₀ n₀ ids c l hc' hd => exact .inr (.inr ⟨r₀, p₀, n₀, _, hc', rfl⟩)
  | crossed r₀ y res c l hc' hid hnot hd => cases hd <;> cases hc
  | _ => cases hc

theorem afterRefill_settle {r r' : RunState} {n : ℕ}
    (h : (afterRefill s r n).1.control = .settle r') : r' = r ∧ r.inFlight = [] ∧ n = 0 := by
  unfold afterRefill at h
  by_cases hempty : r.inFlight.length = 0 ∧ n = 0
  · rw [if_pos hempty] at h
    cases h
    exact ⟨rfl, List.length_eq_zero_iff.mp hempty.1, hempty.2⟩
  · rw [if_neg hempty] at h
    cases h

theorem refill_settle {r r' : RunState} {p n : ℕ} (h : (refill s r p n).1.control = .settle r') :
    p ≤ r.inFlight.length ∧ r.inFlight = [] ∧ n = 0 := by
  unfold refill at h
  by_cases hp : r.inFlight.length < p
  · rw [if_pos hp] at h
    cases h
  · rw [if_neg hp] at h
    obtain ⟨-, hempty, hn⟩ := afterRefill_settle h
    exact ⟨by omega, hempty, hn⟩

theorem drainLoop_settle {r r' : RunState} (h : (drainLoop s r).1.control = .settle r') :
    r' = r ∧ r.inFlight = [] ∧ (r.stopRequested = true ∨ r.stoppingCAN = true) := by
  unfold drainLoop at h
  by_cases hgo : (!r.stopRequested && !r.stoppingCAN) = true
  · rw [if_pos hgo] at h
    cases h
  · rw [if_neg hgo] at h
    obtain ⟨rfl, hempty, -⟩ := afterRefill_settle h
    refine ⟨rfl, hempty, ?_⟩
    cases hstop : r'.stopRequested with
    | true => exact .inl rfl
    | false =>
      right
      simpa [hstop] using hgo

/-- **A run that was not stopped settles because a batch has brought nothing** for an empty
pool. -/
theorem settle_of_step (hwf : Wf s) (h : step s e = some (s', as)) {r : RunState}
    (hc : s'.control = .settle r) (hstop : r.stopRequested = false) :
    (s.control = .settle r ∧ as = []) ∨ ∃ p n ids, e = .batchDone (.ok ids) ∧
      s.control = .nextBatch r p n ∧ r.inFlight = [] ∧ (launchBatch p r.inFlight ids).2 = [] := by
  have ht := (hwf.step h).1
  cases ht with
  | signal x hend => exact .inl ⟨hc, rfl⟩
  | tick d => exact .inl ⟨hc, rfl⟩
  | wake timer x c a hc' _ _ _ hto =>
    obtain ⟨rfl, -⟩ | ⟨rfl, -⟩ := hto <;> cases hc
  | discovered r₀ n c l hc' hd =>
    -- a fresh run is not stopped
    unfold Wf at hwf
    rw [hc'] at hwf
    obtain ⟨-, t, rfl⟩ := hwf
    simp only [step, hc', Option.some.injEq] at h
    have hloop := drainLoop_settle (h.symm ▸ hc : (drainLoop s (.init t)).1.control = .settle r)
    rcases hloop.2.2 with hs | hs <;> cases hs
  | refilling r₀ q c l hc' hd =>
    simp only [step, hc', Option.some.injEq] at h
    have hrefill := refill_settle
      (h.symm ▸ hc : (refill s r₀ (capacityP q) 0).1.control = .settle r)
    have hone : 1 ≤ capacityP q := by
      unfold capacityP
      split <;> omega
    have hlen := hrefill.1
    rw [hrefill.2.1, List.length_nil] at hlen
    omega
  | launching r₀ p n ids c l hc' hd =>
    simp only [step, hc', Option.some.injEq] at h
    have hnext := (Prod.mk.inj h).1
    by_cases hnil : (launchBatch p r₀.inFlight ids).2 = []
    · rw [if_pos hnil] at hnext
      obtain ⟨rfl, hempty, -⟩ := afterRefill_settle (hnext.symm ▸ hc)
      exact .inr ⟨p, n, ids, rfl, hc', hempty, hnil⟩
    · rw [if_neg hnil] at hnext
      have hrefill := refill_settle (hnext.symm ▸ hc)
      have hpos := List.length_pos_of_ne_nil hnil
      have hsum := hrefill.2.2
      omega
  | crossed r₀ y res c l hc' hid hnot hd =>
    simp only [step, hc', if_pos hid, Option.some.injEq, boundary, if_neg hnot] at h
    have hnext := (Prod.mk.inj h).1
    obtain ⟨rfl, hempty, hs | hs⟩ := drainLoop_settle (hnext.symm ▸ hc)
    · rw [hs] at hstop
      cases hstop
    · exact absurd ⟨hs, hempty⟩ hnot
  | _ => cases hc

end Steps

/-! ### The invariant -/

/-- What holds of the units that wait for their next chunk. -/
structure ChunkInv (id : Uuid) (s : Running) (tr : List Mark) : Prop where
  begun : ∀ x, chunked id x tr = true → Begun id x tr
  awake : ∀ x, Begun id x tr → AwakeAt id x s.world.db
  /-- A query that was performed for the refill has found those that are not in flight. -/
  found : ∀ r p n, s.workflow.control = .nextBatch r p n → ∀ x, x ∉ r.inFlight →
    chunked id x tr = true → LiveAt id x s.world.db →
    ∀ task ∈ s.tasks, task.act = .nextUnitBatch p → ∀ l ∈ performedBy task.execution tr,
      ∃ u ∈ l.state.db.units.rows, eligible (performedAt l) id u = true ∧ u.externalID = x
  resumed : Resumed id s tr

section Moves

variable {a : Activities} {sv : Server} {id : Uuid} {tenantID connectorID : String}
  {s s' : Running} {tr as : List Mark} {e : Happening}

/-- The last command that wrote a status is in the trace. -/
theorem mem_of_lastTouch {x : String} {m : Mark} (h : lastTouch id x tr = some m) :
    m ∈ tr ∧ (performed? m).any (touchesUnit id x) = true := by
  induction tr using List.reverseRecOn with
  | nil => cases h
  | append_singleton tr m' ih =>
    rw [lastTouch_snoc] at h
    by_cases hm : (performed? m').any (touchesUnit id x) = true
    · rw [if_pos hm] at h
      cases h
      exact ⟨by simp, hm⟩
    · rw [if_neg hm] at h
      obtain ⟨hmem, htouch⟩ := ih h
      exact ⟨List.mem_append_left _ hmem, htouch⟩

/-- What an execution that leaves its unit `syncing` was answered came midway. -/
theorem midway_of_after {ls : List (Performed World Choice Cmd)}
    (h : chunking.after service true ls = true) :
    ∀ l ∈ ls, midway l.cmd (service.perform l.choice l.cancelled l.state l.cmd).2 = true := by
  induction ls using List.reverseRecOn with
  | nil => exact fun l hl => nomatch hl
  | append_singleton ls l ih =>
    rw [Protocol.after_snoc] at h
    obtain ⟨hbefore, hlast⟩ := Bool.and_eq_true_iff.mp h
    intro l' hl'
    rcases List.mem_append.mp hl' with hl' | hl'
    · exact ih hbefore l' hl'
    · rw [List.mem_singleton.mp hl']
      exact hlast

/-- The result of an execution that leaves its unit `syncing`, as the workflow sees it. -/
theorem unfinished_of_seen {x : String} {r : Except ActivityError SyncResult}
    (h : (Event.unitDone x (seen r)).isChunk = true ∨
      Event.unitDone x (seen r) = .unitDone x (.error .auth)) : Unfinished r := by
  cases r with
  | ok res =>
    rcases h with h | h
    · exact .chunk res (by simpa [Event.isChunk, seen, Except.mapError] using h)
    · cases h
  | error e =>
    rcases h with h | h
    · cases h
    · exact .rejected e (by simpa [seen, Except.mapError] using h)

/-- **An execution that returns `Done=false`, or finds the credentials rejected, and wrote the
status of its unit last has begun.** -/
theorem begun_of_unfinished {x : String} {i : ℕ} {ev : Event}
    (hlog : Log service ((Activity.syncUnit x).prog a id tenantID connectorID) (performedBy i tr)
      (.pure ev)) (hev : ev.isChunk = true ∨ ev = .unitDone x (.error .auth))
    (hlast : (lastTouch id x tr).any (ofExecution i) = true) : Begun id x tr := by
  obtain ⟨r, rfl, hret⟩ := hlog.map_returns
  obtain ⟨m, hm, hown⟩ := (Option.any_eq_true _ _).mp hlast
  obtain ⟨hmem, htouch⟩ := mem_of_lastTouch hm
  cases m with
  | performed j l =>
    obtain rfl : j = i := of_decide_eq_true hown
    have hl : l ∈ performedBy j tr := by
      refine List.mem_filterMap.mpr ⟨_, hmem, ?_⟩
      simp [Label.byExecution]
    have hmidway : Midway r (chunking.after service true (performedBy j tr)) :=
      hret.follows (syncUnit_chunking a _)
    have hmid := midway_of_after (hmidway (unfinished_of_seen hev)) l hl
    -- of the commands that write a status only the first comes midway
    obtain ⟨w, c, b, t⟩ := l
    have htouch' : touchesUnit id x ⟨w, c, b, t⟩ = true := htouch
    cases c with
    | statement st =>
      cases st with
      | setUnitStatus id' x' status =>
        obtain ⟨rfl, rfl⟩ : id' = id ∧ x' = x := by
          simpa [touchesUnit, poisons, worksOn] using htouch'
        rw [service_statement] at hmid
        cases hr : t.reply b
            ((Statement.setUnitStatus id' x' status).exec (w.now + t.elapsed) w.db).1 with
        | error e =>
          rw [hr] at hmid
          cases status <;> cases hmid
        | ok u =>
          rw [hr] at hmid
          cases status with
          | syncing => exact ⟨_, _, hm, rfl, rfl, (of_reply_eq_ok hr).1⟩
          | _ => cases hmid
      | commitUnit id' x' => cases hmid
      | setUnitRetry id' x' text at_ => cases hmid
      | _ => cases htouch'
    | _ => cases htouch'
  | _ => cases hown

/-- The command of the execution of a query is the query. -/
theorem query_of_log {p : ℕ} {ls : List (Performed World Choice Cmd)} {c : Cmd}
    {k : c.Resp → Program Event}
    (h : Log service ((Activity.nextUnitBatch p).prog a id tenantID connectorID) ls (.call c k)) :
    c = .statement (.nextUnitBatch id p) := by
  rcases h.of_call with ⟨-, heq⟩ | ⟨w, b, t, ls', rfl, hrest⟩
  · cases heq
    rfl
  · cases hans : (service.perform t b w (.statement (.nextUnitBatch id p))).2 with
    | error e =>
      rw [hans] at hrest
      cases hrest.of_pure.2
    | ok ids =>
      rw [hans] at hrest
      cases hrest.of_pure.2

/-! ### One move -/

/-- A unit that waits for its next chunk after a command did before, and the command has left it
alone. -/
theorem of_chunked_command {x : String} {m : Mark} {l : Performed World Choice Cmd}
    (hm : performed? m = some l) (h : chunked id x (tr ++ [m]) = true) :
    chunked id x tr = true ∧ touchesUnit id x l = false ∧ newlySelects id x l = false := by
  rw [chunked_snoc] at h
  have hnext : chunkNext id x (chunked id x tr) m =
      (chunked id x tr && !touchesUnit id x l && !newlySelects id x l) := by
    cases m with
    | performed i l' =>
      cases hm
      rfl
    | other l' =>
      cases hm
      rfl
    | _ => cases hm
  rw [hnext] at h
  simpa [and_assoc] using h

/-- A unit whose last status is `syncing` stays findable after a command. -/
theorem awake_command {w : World} {m : Mark} {c : Cmd} {b : Bool} {t : Choice}
    (h : ∀ x, Begun id x tr → AwakeAt id x w.db) (hm : performed? m = some ⟨w, c, b, t⟩)
    (x : String) (hbegun : Begun id x (tr ++ [m])) :
    AwakeAt id x (service.perform t b w c).1.db := by
  obtain ⟨m', l, hlast, hl, hcmd, htook⟩ := hbegun
  rw [lastTouch_snoc, hm] at hlast
  by_cases htouch : touchesUnit id x ⟨w, c, b, t⟩ = true
  · obtain rfl : m = m' := Option.some.inj ((if_pos htouch).symm.trans hlast)
    rw [hm] at hl
    cases hl
    obtain rfl : c = _ := hcmd
    exact awakeAt_of_syncing htook
  · have hold : lastTouch id x tr = some m' := (if_neg htouch).symm.trans hlast
    exact (h x ⟨m', l, hold, hl, hcmd, htook⟩).step (Bool.eq_false_iff.mpr htouch)

/-- What a command does to the units that wait for their next chunk. -/
theorem ChunkInv.begun_command {m : Mark} {c : Cmd} {b : Bool} {t : Choice}
    (h : ChunkInv id s tr) (hm : performed? m = some ⟨s.world, c, b, t⟩) :
    (∀ x, chunked id x (tr ++ [m]) = true → Begun id x (tr ++ [m])) ∧
      ∀ x, Begun id x (tr ++ [m]) → AwakeAt id x (service.perform t b s.world c).1.db := by
  refine ⟨fun x hx => ?_, awake_command h.awake hm⟩
  obtain ⟨hbefore, hno, -⟩ := of_chunked_command hm hx
  obtain ⟨m', l, hlast, hrest⟩ := h.begun x hbefore
  refine ⟨m', l, ?_, hrest⟩
  rw [lastTouch_snoc, hm]
  exact (if_neg (Bool.eq_false_iff.mp hno)).trans hlast

/-- A command leaves the live chunked units where they were. -/
theorem ChunkInv.resumed_command {m : Mark} {c : Cmd} {b : Bool} {t : Choice}
    (h : ChunkInv id s tr) (hm : performed? m = some ⟨s.world, c, b, t⟩)
    (hcontrol : s'.workflow = s.workflow)
    (hworld : s'.world = (service.perform t b s.world c).1) : Resumed id s' (tr ++ [m]) := by
  intro r hc hstop x hx hlive
  obtain ⟨hbefore, hno, hsel⟩ := of_chunked_command hm hx
  rw [hcontrol] at hc
  rw [hworld] at hlive
  exact h.resumed r hc hstop x hbefore (hlive.of_step hno hsel)

/-- A live chunked unit whose backoff is over is found. -/
theorem ChunkInv.eligible_of_live {x : String} (h : ChunkInv id s tr)
    (hx : chunked id x tr = true) (hlive : LiveAt id x s.world.db) {d : Time}
    (hover : ∀ u ∈ s.world.db.units.rows, countedIn id u = true →
      chunked id u.externalID tr = true → nullOrElapsed u.nextRetryAt (s.world.now + d) = true) :
    ∃ u ∈ s.world.db.units.rows, eligible (s.world.now + d) id u = true ∧ u.externalID = x := by
  obtain ⟨u, hu, hkey, hsel, hremoved⟩ := hlive
  have hawake := h.awake x (h.begun x hx) u hu hkey
  obtain ⟨rfl, rfl⟩ : u.connectionID = id ∧ u.externalID = x := Prod.mk.inj hkey
  have hdue := hover u hu (by simp [countedIn, hsel, hremoved]) hx
  refine ⟨u, hu, ?_, rfl⟩
  simp [eligible, hsel, hremoved, hawake.1, hawake.2, hdue]

/-- **A command of an execution keeps the invariant.** -/
theorem ChunkInv.turn (h : ChunkInv id s tr)
    (htr : Traced (connectionOver a id tenantID connectorID) service s tr) {i : ℕ}
    {t : Turn Choice} {c : Cmd} {k : c.Resp → Program Event} {b : Bool}
    (hi : s.executions[i]? = some ⟨.call c k, b⟩)
    (hC : resumable id s tr (.turn i t) = true)
    (hworkflow : s'.workflow = s.workflow) (htasks : s'.tasks = s.tasks)
    (hworld : s'.world = (service.perform t.choice (b || t.cancel) s.world c).1) :
    ChunkInv id s' (tr ++ [.performed i ⟨s.world, c, b || t.cancel, t.choice⟩]) := by
  have hm : performed? (.performed i ⟨s.world, c, b || t.cancel, t.choice⟩ : Mark) =
      some ⟨s.world, c, b || t.cancel, t.choice⟩ := rfl
  obtain ⟨hbegun, hawake⟩ := h.begun_command hm
  refine ⟨hbegun, hworld ▸ hawake, fun r p n hc x hin hx hlive task htask hact l hl => ?_,
    h.resumed_command hm hworkflow hworld⟩
  obtain ⟨hbefore, hno, hsel⟩ := of_chunked_command hm hx
  rw [hworkflow] at hc
  rw [htasks] at htask
  rw [hworld] at hlive
  have hlive' := hlive.of_step hno hsel
  rw [performedBy_append] at hl
  rcases List.mem_append.mp hl with hl | hl
  · exact h.found r p n hc x hin hbefore hlive' task htask hact l hl
  · -- the command is the query itself
    obtain ⟨m, hmem, heq⟩ := List.mem_filterMap.mp hl
    cases List.mem_singleton.mp hmem
    simp only [Label.byExecution] at heq
    by_cases hti : i = task.execution
    · rw [if_pos hti] at heq
      cases heq
      obtain ⟨th, hth, hlog, -⟩ := htr.task task htask
      rw [← hti, hi] at hth
      cases hth
      rw [hact] at hlog
      obtain rfl := @query_of_log a id tenantID connectorID p _ c k hlog
      refine h.eligible_of_live hbefore hlive' fun u hu hcounted hchunked => ?_
      simp only [resumable, hi, List.all_eq_true] at hC
      simpa [hcounted, hchunked] using hC u hu
    · rw [if_neg hti] at heq
      cases heq

/-- **A command of another program keeps the invariant.** -/
theorem ChunkInv.other (h : ChunkInv id s tr) {c : Cmd} {b : Bool} {t : Choice}
    (hworkflow : s'.workflow = s.workflow) (htasks : s'.tasks = s.tasks)
    (hworld : s'.world = (service.perform t b s.world c).1) :
    ChunkInv id s' (tr ++ [.other ⟨s.world, c, b, t⟩]) := by
  have hm : performed? (.other ⟨s.world, c, b, t⟩ : Mark) = some ⟨s.world, c, b, t⟩ := rfl
  obtain ⟨hbegun, hawake⟩ := h.begun_command hm
  refine ⟨hbegun, hworld ▸ hawake, fun r p n hc x hin hx hlive task htask hact l hl => ?_,
    h.resumed_command hm hworkflow hworld⟩
  obtain ⟨hbefore, hno, hsel⟩ := of_chunked_command hm hx
  rw [hworkflow] at hc
  rw [htasks] at htask
  rw [hworld] at hlive
  rw [performedBy_append] at hl
  rcases List.mem_append.mp hl with hl | hl
  · exact h.found r p n hc x hin hbefore (hlive.of_step hno hsel) task htask hact l hl
  · simp [performedBy, Label.byExecution] at hl

theorem of_chunked_ended {x : String} {act : Activity} {ev : Event}
    (h : chunked id x (tr ++ [.ended act ev]) = true) :
    (act = .syncUnit x ∧ ev.isChunk = true) ∨ (act ≠ .syncUnit x ∧ chunked id x tr = true) := by
  rw [chunked_snoc] at h
  cases act with
  | syncUnit x' =>
    simp only [chunkNext] at h
    by_cases hx : x' = x
    · rw [if_pos hx] at h
      exact .inl ⟨by rw [hx], h⟩
    · rw [if_neg hx] at h
      exact .inr ⟨fun heq => hx (Activity.syncUnit.inj heq), h⟩
  | _ => exact .inr ⟨nofun, h⟩

/-- A task is one of those that the workflow waits for. -/
theorem Attended.mem_awaits (hatt : Attended s) (hend : s.workflow.control.ended = false)
    {task : Task Activity Event} (htask : task ∈ s.tasks) :
    task.act ∈ s.workflow.control.awaits :=
  (hatt.tasks hend).mem_iff.mp (List.mem_map_of_mem htask)

/-- **The end of a task keeps the invariant.** -/
theorem ChunkInv.ended (h : ChunkInv id s tr) (hatt : Attended s) {k : ℕ}
    {task : Task Activity Event} {ev : Event} (hk : s.tasks[k]? = some task)
    (hbegun : ∀ x, task.act = .syncUnit x → ev.isChunk = true → Begun id x tr) :
    ChunkInv id (settle s k task ev) (tr ++ [.ended task.act ev]) := by
  have hmem := List.mem_of_getElem? hk
  have htouch : ∀ x, lastTouch id x (tr ++ [.ended task.act ev]) = lastTouch id x tr := by
    intro x
    rw [lastTouch_snoc]
    rfl
  have hsame : ∀ x, Begun id x (tr ++ [.ended task.act ev]) ↔ Begun id x tr := by
    intro x
    unfold Begun
    rw [htouch]
  refine ⟨fun x hx => (hsame x).mpr ?_, fun x hx => h.awake x ((hsame x).mp hx),
    fun r p n hc x hin hx hlive task' htask' hact l hl => ?_, fun r hc hstop x hx hlive => ?_⟩
  · rcases of_chunked_ended hx with ⟨hact, hchunk⟩ | ⟨-, hbefore⟩
    · exact hbegun x hact hchunk
    · exact h.begun x hbefore
  · rw [performedBy_quiet (by simp)] at hl
    have hc' : s.workflow.control = .nextBatch r p n := hc
    rcases of_chunked_ended hx with ⟨hsync, -⟩ | ⟨-, hbefore⟩
    · -- the unit is still in flight
      have hawaited := hatt.mem_awaits (by rw [hc']; rfl) hmem
      rw [hsync, hc'] at hawaited
      exact absurd (by simpa [Control.awaits] using hawaited) hin
    · rcases List.mem_or_eq_of_mem_set htask' with hold | rfl
      · exact h.found r p n hc' x hin hbefore hlive task' hold hact l hl
      · exact h.found r p n hc' x hin hbefore hlive task hmem hact l hl
  · have hc' : s.workflow.control = .settle r := hc
    rcases of_chunked_ended hx with ⟨hsync, -⟩ | ⟨-, hbefore⟩
    · have hawaited := hatt.mem_awaits (by rw [hc']; rfl) hmem
      rw [hsync, hc'] at hawaited
      simp [Control.awaits] at hawaited
    · exact h.resumed r hc' hstop x hbefore hlive

/-- **Another attempt keeps the invariant.** -/
theorem ChunkInv.retry (h : ChunkInv id s tr)
    (htr : Traced (connectionOver a id tenantID connectorID) service s tr) {k : ℕ}
    {task : Task Activity Event} :
    ChunkInv id ((connectionOver a id tenantID connectorID).attemptAgain s k task) tr := by
  refine ⟨h.begun, h.awake, fun r p n hc x hin hx hlive task' htask' hact l hl => ?_, h.resumed⟩
  rcases List.mem_or_eq_of_mem_set htask' with hold | rfl
  · exact h.found r p n hc x hin hx hlive task' hold hact l hl
  · -- the new execution has performed nothing
    rw [htr.performedBy_eq_nil (Nat.le_refl _)] at hl
    cases hl

/-- A step of the workflow keeps what holds of the units. -/
theorem ChunkInv.begun_workflow (h : ChunkInv id s tr) (has : ∀ m ∈ as, ofWorkflow m = true) :
    (∀ x, chunked id x (tr ++ as) = true → Begun id x (tr ++ as)) ∧
      ∀ x, Begun id x (tr ++ as) → AwakeAt id x s.world.db := by
  have hsame : ∀ x, Begun id x (tr ++ as) ↔ Begun id x tr := by
    intro x
    unfold Begun
    rw [(ghosts_append has).2]
  refine ⟨fun x hx => (hsame x).mpr ?_, fun x hx => h.awake x ((hsame x).mp hx)⟩
  rw [(ghosts_append has).1] at hx
  exact h.begun x hx

theorem performedBy_workflow {i : ℕ} (has : ∀ m ∈ as, ofWorkflow m = true) :
    performedBy i (tr ++ as) = performedBy i tr :=
  performedBy_quiet fun _ hl => nomatch has _ hl

theorem ofWorkflow_actions (acts : List Action) :
    ∀ m ∈ (acts.map Label.action : List Mark), ofWorkflow m = true := by
  intro m hm
  obtain ⟨x, -, rfl⟩ := List.mem_map.mp hm
  rfl

/-- **An event that is no result of an activity keeps the invariant.** -/
theorem ChunkInv.free (h : ChunkInv id s tr) (hatt : Attended s) {ev : Event}
    {r : State × List Action} (hfree : ev.free = true)
    (hr : connectionWorkflow.step s.workflow ev = some r) :
    ChunkInv id ((connectionOver a id tenantID connectorID).goOn s r)
      (tr ++ r.2.map Label.action) := by
  obtain ⟨q, acts⟩ := r
  have has := ofWorkflow_actions acts
  have ht := (hatt.wf.step hr).1
  obtain ⟨hbegun, hawake⟩ := h.begun_workflow has
  refine ⟨hbegun, by simpa using hawake, fun r p n hc x hin hx hlive task htask hact l hl => ?_,
    fun r hc hstop x hx hlive => ?_⟩
  · rw [goOn_workflow] at hc
    rw [goOn_world] at hlive
    rw [(ghosts_append has).1] at hx
    rw [performedBy_workflow has] at hl
    rcases ht.of_nextBatch hc with ⟨hc', hnil⟩ | ⟨r₀, q', -, rfl⟩ | ⟨r₀, p₀, n₀, q', -, rfl⟩
    · rcases mem_goOn_tasks htask with hold | ⟨hnew, -⟩
      · exact h.found r p n hc' x hin hx hlive task hold hact l hl
      · -- nothing was scheduled
        obtain rfl : acts = [] := hnil
        cases hnew
    · cases hfree
    · cases hfree
  · rw [goOn_workflow] at hc
    rw [goOn_world] at hlive
    rw [(ghosts_append has).1] at hx
    rcases settle_of_step hatt.wf hr hc hstop with ⟨hc', -⟩ | ⟨p, n, ids, rfl, -⟩
    · exact h.resumed r hc' hstop x hx hlive
    · cases hfree

/-- When a refill goes on, no query is left from before. -/
theorem no_query_left (hatt : Attended s)
    (htr : Traced (connectionOver a id tenantID connectorID) service s tr) {k : ℕ}
    {task : Task Activity Event} {ev : Event} (hk : s.tasks[k]? = some task)
    (hres : task.result = some ev)
    (hc : (∃ r q, s.workflow.control = .capacity r ∧ ev = .capacityDone q) ∨
      ∃ r p n q, s.workflow.control = .nextBatch r p n ∧ ev = .batchDone q)
    {task' : Task Activity Event} (htask' : task' ∈ s.tasks.eraseIdx k) (p' : ℕ) :
    task'.act ≠ .nextUnitBatch p' := by
  intro hact
  have hans := answers_of_traced htr (List.mem_of_getElem? hk) hres
  rcases hc with ⟨r, q, hc, rfl⟩ | ⟨r, p, n, q, hc, rfl⟩
  · have hleft := (hatt.rest (by rw [hc]; rfl) hk).mem_iff.mp (List.mem_map_of_mem htask')
    rw [hact, hc, show task.act = .capacity from hans] at hleft
    simp [Control.awaits] at hleft
  · obtain ⟨p₀, hp₀⟩ := hans
    have hawaited := hatt.mem_awaits (by rw [hc]; rfl) (List.mem_of_getElem? hk)
    have hleft := (hatt.rest (by rw [hc]; rfl) hk).mem_iff.mp (List.mem_map_of_mem htask')
    rw [hp₀, hc] at hawaited
    obtain rfl : p₀ = p := by simpa [Control.awaits] using hawaited
    rw [hact, hc, hp₀] at hleft
    simp [Control.awaits] at hleft

/-- **A result keeps the invariant.** -/
theorem ChunkInv.deliver (h : ChunkInv id s tr) (hatt : Attended s)
    (htr : Traced (connectionOver a id tenantID connectorID) service s tr) {k : ℕ}
    {task : Task Activity Event} {ev : Event} {r : State × List Action}
    (hk : s.tasks[k]? = some task) (hres : task.result = some ev)
    (hr : connectionWorkflow.step s.workflow ev = some r) :
    ChunkInv id ((connectionOver a id tenantID connectorID).goOn
      { s with tasks := s.tasks.eraseIdx k } r)
      (tr ++ (r.2.map Label.action ++ [.resumed r.1])) := by
  obtain ⟨q, acts⟩ := r
  have has : ∀ m ∈ (acts.map Label.action ++ [.resumed q] : List Mark), ofWorkflow m = true := by
    intro m hm
    rcases List.mem_append.mp hm with hm | hm
    · exact ofWorkflow_actions acts m hm
    · rw [List.mem_singleton.mp hm]
      rfl
  have ht := (hatt.wf.step hr).1
  have htask := List.mem_of_getElem? hk
  obtain ⟨hbegun, hawake⟩ := h.begun_workflow has
  refine ⟨hbegun, by simpa using hawake, fun r p n hc x hin hx hlive task' htask' hact l hl => ?_,
    fun r hc hstop x hx hlive => ?_⟩
  · rw [goOn_workflow] at hc
    rw [goOn_world] at hlive
    rw [(ghosts_append has).1] at hx
    rw [performedBy_workflow has] at hl
    rcases mem_goOn_tasks htask' with hold | ⟨hnew, hfresh⟩
    · rcases ht.of_nextBatch hc with ⟨hc', -⟩ | hrefill
      · exact h.found r p n hc' x hin hx hlive task' (List.mem_of_mem_eraseIdx hold) hact l hl
      · exact absurd hact (no_query_left hatt htr hk hres hrefill hold p)
    · rw [htr.performedBy_eq_nil hfresh] at hl
      cases hl
  · rw [goOn_workflow] at hc
    rw [goOn_world] at hlive
    rw [(ghosts_append has).1] at hx
    rcases settle_of_step hatt.wf hr hc hstop with ⟨hc', -⟩ | ⟨p, n, ids, rfl, hc', hempty, hnone⟩
    · exact h.resumed r hc' hstop x hx hlive
    · -- the query has found the unit, and the pool was empty
      obtain ⟨hact, l, hl, -⟩ := delivered_query hatt htr htask hres hc'
      have hin : x ∉ r.inFlight := by simp [hempty]
      obtain ⟨u, hu, hel, rfl⟩ :=
        h.found r p n hc' x hin hx hlive task htask hact l (by simp [hl])
      have hall := (delivered_batch hatt htr htask hres hc').mp hnone
      exact hin (hall l (by simp [hl]) u hu hel)

/-- **Every move keeps the invariant**, if queries find no chunked unit in its backoff. -/
theorem ChunkInv.move (h : ChunkInv id s tr) (hatt : Attended s)
    (htr : Traced (connectionOver a id tenantID connectorID) service s tr)
    (hm : Moves (connectionOver a id tenantID connectorID) service (Job.prog a sv) s e s' as)
    (hC : resumable id s tr e = true) : ChunkInv id s' (tr ++ as) := by
  cases hm with
  | free ev r hfree hr => exact h.free hatt hfree hr
  | deliver k task ev r hk hres hr => exact h.deliver hatt htr hk hres hr
  | turn i t c k b hi => exact h.turn htr hi hC rfl rfl rfl
  | resolve k task ev b hk hres hi htakes =>
    refine h.ended hatt hk fun x hact hchunk => ?_
    obtain ⟨th, hth, hlog, -⟩ := htr.task task (List.mem_of_getElem? hk)
    rw [hi] at hth
    cases hth
    rw [hact] at hlog
    refine begun_of_unfinished hlog (.inl hchunk) ?_
    obtain ⟨act, n, i, res⟩ := task
    obtain rfl : act = .syncUnit x := hact
    simpa [resumable, hk, hi, hchunk] using hC
  | retry k task hk hres hn =>
    rw [List.append_nil]
    exact h.retry htr
  | expire k task hk hres =>
    refine h.ended hatt hk fun x hact hchunk => ?_
    -- a timeout is an error
    rw [hact] at hchunk
    cases hchunk
  | restart q hq =>
    rw [List.append_nil]
    refine ⟨h.begun, h.awake, fun r p n hc x hin hx hlive task htask => (nomatch htask),
      fun r hc => ?_⟩
    simp only [connectionOver] at hq
    split at hq
    · cases hq
      cases hc
    · cases hq
  | other ev q las hq =>
    rcases Machine.pool_step hq with ⟨j, rfl, rfl, rfl⟩ | ⟨i, t, c, k, b, rfl, hth, rfl, rfl⟩
    · rw [List.map_nil, List.append_nil]
      exact ⟨h.begun, h.awake, h.found, h.resumed⟩
    · exact h.other rfl rfl rfl

end Moves

/-- **Chunked units are resumed within the run**: in every run of the workflow over its activities
whose queries find no chunked unit in its backoff, whenever a run that was not stopped settles, no
live unit waits for its next chunk. -/
theorem chunked_units_resumed (a : Activities) (sv : Server) (id : Uuid)
    (tenantID connectorID : String) {t : Time} {w : World} {es : List Happening} {s : Running}
    {tr : List Mark}
    (h : (connectionSystem a sv id tenantID connectorID).RunWhere
      (fun s tr e => resumable id s tr e = true) (.fresh id tenantID connectorID t w) es s tr) :
    Resumed id s tr := by
  have hinv := h.invariant (J := fun s tr => (Attended s ∧
      Traced (connectionOver a id tenantID connectorID) service s tr) ∧ ChunkInv id s tr) ?_ ?_
  · exact hinv.2.resumed
  · refine ⟨⟨attended_fresh _ _ _ _ _, traced_start _ _⟩, fun x hx => (nomatch hx), ?_,
      fun r p n hc => (nomatch hc), fun r hc => (nomatch hc)⟩
    rintro x ⟨m, l, hlast, -⟩
    cases hlast
  · intro s tr e s' as ⟨⟨hatt, htr⟩, hinv⟩ hC hstep
    have hm := system_moves hstep
    exact ⟨⟨hatt.move htr hm, htr.move hm⟩, hinv.move hatt htr hm hC⟩

/-! ### Rejected credentials -/

section Rejected

variable {a : Activities} {sv : Server} {id : Uuid} {tenantID connectorID x : String}
  {s s' : Running} {tr as : List Mark} {e : Happening}

/-- Labels that record no command leave the last status where it was. -/
theorem begun_quiet (has : ∀ m ∈ as, performed? m = none) :
    Begun id x (tr ++ as) ↔ Begun id x tr := by
  have hsame : lastTouch id x (tr ++ as) = lastTouch id x tr := by
    induction as using List.reverseRecOn with
    | nil => rw [List.append_nil]
    | append_singleton as m ih =>
      rw [← List.append_assoc, lastTouch_snoc, has m (by simp)]
      exact ih fun m' hm' => has m' (by simp [hm'])
  unfold Begun
  rw [hsame]

/-- **In every run a unit whose last status is `syncing` can be found.** -/
theorem awake_of_run {t : Time} {w : World} {es : List Happening}
    (h : (connectionSystem a sv id tenantID connectorID).Run (.fresh id tenantID connectorID t w)
      es s tr) (hbegun : Begun id x tr) : AwakeAt id x s.world.db := by
  refine h.invariant (J := fun s tr => ∀ x, Begun id x tr → AwakeAt id x s.world.db) ?_ ?_ x hbegun
  · rintro x ⟨m, l, hlast, -⟩
    cases hlast
  · intro s tr e s' as hinv _ hstep y hy
    rcases move_performs (system_moves hstep) with ⟨hworld, has⟩ | ⟨m, c, b, t, rfl, hm, hworld⟩
    · rw [hworld]
      exact hinv y ((begun_quiet has).mp hy)
    · rw [hworld]
      exact awake_command hinv hm y hy

/-- **A unit whose credentials were rejected is found again**: in every run, when the execution that
wrote the status of a unit last has returned the auth error, a refill finds the unit if it is
selected and was not removed, and no backoff of an earlier failure runs. -/
theorem eligible_of_rejected {t : Time} {w : World} {es : List Happening}
    (h : (connectionSystem a sv id tenantID connectorID).Run (.fresh id tenantID connectorID t w)
      es s tr) {task : Task Activity Event} {b : Bool} (htask : task ∈ s.tasks)
    (hact : task.act = .syncUnit x)
    (hret : s.executions[task.execution]? = some ⟨.pure (.unitDone x (.error .auth)), b⟩)
    (hlast : (lastTouch id x tr).any (ofExecution task.execution) = true) {u : SyncUnit}
    (hu : u ∈ s.world.db.units.rows) (hkey : u.key = (id, x)) (hsel : u.selected = true)
    (hremoved : u.status ≠ .removed) {now : Time} (hdue : nullOrElapsed u.nextRetryAt now = true) :
    eligible now id u = true := by
  have htr := h.invariant (J := fun s tr => Attended s ∧
      Traced (connectionOver a id tenantID connectorID) service s tr)
    ⟨attended_fresh _ _ _ _ _, traced_start _ _⟩ fun s tr e s' as hinv _ hstep =>
      ⟨hinv.1.move hinv.2 (system_moves hstep), hinv.2.move (system_moves hstep)⟩
  obtain ⟨th, hth, hlog, -⟩ := htr.2.task task htask
  rw [hret] at hth
  cases hth
  rw [hact] at hlog
  have hawake := awake_of_run h (begun_of_unfinished hlog (.inr rfl) hlast) u hu hkey
  have hid : u.connectionID = id := congrArg Prod.fst hkey
  simp [eligible, hid, hsel, hremoved, hawake.1, hawake.2, hdue]

end Rejected

/-! ### A Drive with more pages than the budget -/

/-- A Drive whose listing goes on and on; its first page holds a document. -/
def longAnswers : (q : Request) → Except Err q.Reply
  | .driveFiles _ _ pageToken =>
      .ok { nextPageToken := "more", files := if pageToken = "" then [driveDoc] else [] }
  | .driveExport _ => .ok []
  | _ => .error (.failed "unreachable")

/-- Turns of an execution over a source. -/
def turnsOver (i n : ℕ) (answer : (q : Request) → Except Err q.Reply) : List Happening :=
  List.replicate n (.turn i ⟨false, quietly answer⟩)

/-- A run of Ann's Drive up to the launch of its unit. -/
def launchedDrive : List Happening :=
  [.free (.scheduleDone (.ok ⟨false, 900⟩)), .free (.signal .triggerSync),
    .free (.receive .triggerSync)] ++
  runTask 0 4 0 ++ runTask 1 7 0 ++ runTask 2 3 0 ++ runTask 3 1 0 ++ runTask 5 1 1

/-- The first chunk is followed by a second one, which catches up; then the run settles. -/
def twoChunks : List Happening :=
  launchedDrive ++ turnsOver 4 36 longAnswers ++ [.resolve 0, .deliver 0] ++ runTask 6 3 0 ++
    runTask 7 1 0 ++ runTask 9 1 1 ++ turnsOver 8 19 docAnswers ++ [.resolve 0, .deliver 0] ++
    runTask 10 3 0 ++ runTask 11 1 0

/-- The first attempt fails, since the source is unreachable, and the second one returns
`Done=false`; then the run settles. -/
def failedThenChunk : List Happening :=
  launchedDrive ++ turnsOver 4 13 annAnswers ++ [.retry 0] ++ turnsOver 6 36 longAnswers ++
    [.resolve 0, .deliver 0] ++ runTask 7 3 0 ++ runTask 8 1 0

/-- Whether a run settles that was not stopped. -/
def settling (s : Running) : Bool :=
  match s.workflow.control with
  | .settle r => !r.stopRequested
  | _ => false

theorem of_settling {s : Running} (h : settling s = true) :
    ∃ r, s.workflow.control = .settle r ∧ r.stopRequested = false := by
  unfold settling at h
  split at h
  · rename_i r hc
    exact ⟨r, hc, by simpa using h⟩
  · cases h

/-- Whether a label is a result `Done=false`. -/
def endsChunk : Mark → Bool
  | .ended _ e => e.isChunk
  | _ => false

-- the unit of the Drive is live before the run
example : driveStart.world.db.units.rows.all (fun u => countedIn 0 u) = true := by decide +kernel

/-- A unit that needs two chunks has both of them before its run settles. -/
theorem second_chunk_before_settle :
    ∃ s tr, driveRun.RunWhere (fun s tr e => resumable 0 s tr e = true) driveStart twoChunks s tr ∧
      tr.any endsChunk = true ∧
      (∃ r, s.workflow.control = .settle r ∧ r.stopRequested = false) ∧ Resumed 0 s tr := by
  obtain ⟨s, tr, hrun, hend⟩ := driveRun.exists_runWhere_of_any (resumable 0) driveStart twoChunks
    (fun s tr => tr.any endsChunk && settling s) (by decide +kernel)
  obtain ⟨hchunk, hsettles⟩ := Bool.and_eq_true_iff.mp hend
  exact ⟨s, tr, hrun, hchunk, of_settling hsettles,
    chunked_units_resumed driveActivities driveServer 0 "acme" "gdocs" hrun⟩

/-- **A backoff strands a chunk**: a unit whose first attempt has failed and whose second one has
returned `Done=false` is left behind by its run. -/
theorem backoff_strands_chunk :
    ∃ s tr, driveRun.Run driveStart failedThenChunk s tr ∧ ¬ Resumed 0 s tr := by
  obtain ⟨s, tr, hrun, hend⟩ := driveRun.exists_run_of_any driveStart failedThenChunk
    (fun s tr => settling s && (chunked 0 "drive" tr &&
      s.world.db.units.rows.any fun u => decide (u.key = (0, "drive")) && u.selected &&
        decide (u.status ≠ .removed)))
    (by decide +kernel)
  obtain ⟨hsettles, hend⟩ := Bool.and_eq_true_iff.mp hend
  obtain ⟨hchunked, hlive⟩ := Bool.and_eq_true_iff.mp hend
  obtain ⟨r, hc, hstop⟩ := of_settling hsettles
  refine ⟨s, tr, hrun, fun hresumed => hresumed r hc hstop "drive" hchunked ?_⟩
  obtain ⟨u, hu, hprops⟩ := List.any_eq_true.mp hlive
  simp only [Bool.and_eq_true, decide_eq_true_eq] at hprops
  exact ⟨u, hu, hprops.1.1, hprops.1.2, hprops.2⟩

end Workflow
end Hivebook
