import Hivebook.Database.Units
import Hivebook.Service.Inventory
import Hivebook.Service.Visibility

/-!
# A failing unit and the settle

An execution of `SyncUnit` that fails writes `error` to its unit, and the settle at the end of
the run counts the units in `error`.  But the next run re-arms the unit: its status goes back to
`idle` while its backoff still hides it from the drain, and the settle of that run counts nothing.

As long as a settle counts no failing unit whose `error` is gone, it never reports one healthy.

## Main definitions

* `Health`, `health id x tr` — how the last execution on a unit ended, and whether its failure
  still shows.
* `countsShown` — the condition: what a settle asks of the units it counts.
* `Honest pre e` — the command `e`, after `pre`, reports no failing unit healthy.
* `tallying` — the protocol of a settle: it writes the rollup of what it has counted.

## Main results

* `Job.follows_tallying` — every job settles a connection by its counts.
* `failing_never_healthy` — **if every settle counts failing units that show, no settle reports
  one healthy.**
* `rearmed_unit_reported_healthy` — a unit that is re-armed within its backoff is.
-/

namespace Hivebook

open Database Machine Connectors

/-! ### How a unit fares -/

/-- How the last execution of `SyncUnit` on a unit has left it. -/
inductive Health where
  /-- There was none, or it did not end in the poison branch. -/
  | well
  /-- It ended in the poison branch, and the unit was marked `error` and not re-armed since. -/
  | failing
  /-- It ended in the poison branch, but the mark failed or the unit was re-armed since. -/
  | masked
  deriving DecidableEq, Repr

/-- The execution ends in the poison branch of `classify`. -/
def poisons (id : Uuid) (x : String) (l : Performed World Choice Cmd) : Bool :=
  match l.cmd with
  | .statement (.setUnitRetry id' x' _ _) => decide (id' = id) && decide (x' = x)
  | _ => false

/-- The command is one of an execution on the unit: it starts, or commits. -/
def worksOn (id : Uuid) (x : String) (l : Performed World Choice Cmd) : Bool :=
  match l.cmd with
  | .statement (.setUnitStatus id' x' _) | .statement (.commitUnit id' x') =>
      decide (id' = id) && decide (x' = x)
  | _ => false

/-- `StartRun` puts the unit back to `idle`. -/
def rearms (id : Uuid) (x : String) (l : Performed World Choice Cmd) : Bool :=
  tookEffect l && match l.cmd with
    | .statement (.startRun id') => decide (id' = id) && l.state.db.units.rows.any fun u =>
        u.is id x && u.selected && decide (u.status ∈ [UnitStatus.synced, .error])
    | _ => false

/-- How a command changes what is known of a unit. -/
def Health.next (id : Uuid) (x : String) (h : Health) (l : Performed World Choice Cmd) : Health :=
  if poisons id x l then (if tookEffect l then .failing else .masked)
  else if worksOn id x l then .well
  else if rearms id x l && decide (h = .failing) then .masked
  else h

/-- How a unit fares after a trace. -/
def health (id : Uuid) (x : String) (tr : List (ℕ × Performed World Choice Cmd)) : Health :=
  tr.foldl (fun h l => h.next id x l.2) .well

theorem health_snoc (id : Uuid) (x : String) (tr : List (ℕ × Performed World Choice Cmd))
    (l : ℕ × Performed World Choice Cmd) :
    health id x (tr ++ [l]) = (health id x tr).next id x l.2 := by
  rw [health, List.foldl_append]
  rfl

/-- The units that a settle counts. -/
def countedIn (id : Uuid) (u : SyncUnit) : Bool :=
  decide (u.connectionID = id) && u.selected && decide (u.status ≠ .removed)

/-- **The condition**: of the units a settle counts, none that has been committed once is failing
without being marked so. -/
def countsShown (tr : List (ℕ × Performed World Choice Cmd)) (_ : Choice) (_ : Bool) (w : World) :
    Cmd → Bool
  | .statement (.settleCounts id) => w.db.units.rows.all fun u =>
      !(countedIn id u && u.committedAt.isSome && decide (health id u.externalID tr = .masked))
  | _ => true

/-- The settles of a run count failing units that show. -/
def settlesShown (s : Pool World Cmd Cmd.Resp Unit) (tr : List (ℕ × Performed World Choice Cmd))
    (e : PoolEvent Job Choice) : Bool :=
  poolCheck (countsShown tr) s e

/-- A settle to `connected` rests on counts that its thread has taken when no unit that it counts
was failing. -/
def Honest (pre : List (ℕ × Performed World Choice Cmd)) (e : ℕ × Performed World Choice Cmd) :
    Prop :=
  ∀ id, e.2.cmd = .statement (.setConnectionSettled id .connected) →
    ∃ p l q, pre = p ++ (e.1, l) :: q ∧ l.cmd = .statement (.settleCounts id) ∧
      ∀ u ∈ l.state.db.units.rows, countedIn id u = true → health id u.externalID p = .well

/-! ### The rollup -/

/-- A rollup to `connected` has counted no errored unit and none that was never committed. -/
theorem eq_zero_of_settleStatus {total errored uncommitted : ℕ}
    (h : settleStatus total errored uncommitted = .connected) :
    total = 0 ∨ (errored = 0 ∧ uncommitted = 0) := by
  unfold settleStatus at h
  split at h
  · exact .inl ‹_›
  · split at h
    · cases h
    · split at h
      · cases h
      · split at h
        · cases h
        · right
          omega

/-- The units of a connection that rolls up to `connected` are committed, and none is errored. -/
theorem committed_of_connected {db : Database} {id : Uuid} {u : SyncUnit}
    (h : settleStatus (settleCounts id db).total (settleCounts id db).errored
      (settleCounts id db).uncommitted = .connected) (hu : u ∈ db.units.rows)
    (hcounts : countedIn id u = true) : u.status ≠ .error ∧ u.committedAt.isSome = true := by
  simp only [countedIn, Bool.and_eq_true, decide_eq_true_eq] at hcounts
  obtain ⟨⟨hid, hsel⟩, hremoved⟩ := hcounts
  rcases eq_zero_of_settleStatus h with htotal | ⟨herrored, huncommitted⟩
  · -- the unit itself is counted
    have hnone := List.countP_eq_zero.mp htotal u hu
    simp [hid, hsel, hremoved] at hnone
  · have hnoError := List.countP_eq_zero.mp herrored u hu
    have hnoNull := List.countP_eq_zero.mp huncommitted u hu
    refine ⟨fun hst => ?_, ?_⟩
    · simp [hid, hsel, hst] at hnoError
    · simpa [hid, hsel, hremoved, Option.isSome_iff_ne_none] using hnoNull

/-! ### A settle writes the rollup of its counts -/

/-- What a job has asked and been answered; a settle writes the rollup of the counts it has
taken, to the row it has read. -/
def tallying : Protocol (List (Σ c : Cmd, c.Resp)) Cmd Cmd.Resp where
  allowed g
    | .statement (.setConnectionSettled id st) => ∃ id₀ n conn,
        ⟨.statement (.settleCounts id₀), .ok n⟩ ∈ g ∧
        ⟨.statement (.getConnectionByID id₀), .ok conn⟩ ∈ g ∧ id = conn.id ∧
        st = settleStatus n.total n.errored n.uncommitted
    | _ => True
  next g c r := g ++ [⟨c, r⟩]

/-- What a thread was answered well is what the statement answers. -/
theorem mem_tallying {ls : List (Performed World Choice Cmd)} {s : Statement} {r : s.Reply}
    (h : ⟨.statement s, .ok r⟩ ∈ tallying.after service [] ls) :
    ∃ l ∈ ls, l.cmd = .statement s ∧ (s.exec (performedAt l) l.state.db).1 = .ok r := by
  induction ls using List.reverseRecOn with
  | nil => cases h
  | append_singleton ls l ih =>
    rw [Protocol.after_snoc] at h
    rcases List.mem_append.mp h with h | h
    · obtain ⟨l', hl', heq⟩ := ih h
      exact ⟨l', by simp [hl'], heq⟩
    · obtain ⟨w, c, b, t⟩ := l
      obtain ⟨hc, hr⟩ := Sigma.mk.inj (List.mem_singleton.mp h)
      subst hc
      have hreply := eq_of_heq hr
      rw [service_statement] at hreply
      exact ⟨⟨w, .statement s, b, t⟩, by simp, rfl, (of_reply_eq_ok hreply.symm).2⟩

theorem follows_tallying_of_uses {α : Type} {p : Program α} {U : Cmd → Prop} (hp : p.Uses U)
    (hU : ∀ c g, U c → tallying.allowed g c) (g : List (Σ c : Cmd, c.Resp)) :
    p.Follows tallying (fun _ _ => True) g :=
  Prog.follows_of_uses (I := fun _ => True)
    (hp.mono fun c hc g _ => ⟨hU c g hc, fun _ => trivial⟩) trivial

theorem tallying_of_routine {c : Cmd} (h : c.routine = true) (g : List (Σ c : Cmd, c.Resp)) :
    tallying.allowed g c := by
  cases c with
  | statement s => cases s <;> trivial
  | _ => trivial

theorem tallying_of_touchesTokens {c : Cmd} (h : c.touchesTokens = true)
    (g : List (Σ c : Cmd, c.Resp)) : tallying.allowed g c := by
  cases c with
  | statement s => cases s <;> trivial
  | _ => trivial

theorem tallying_of_inSync {i : SyncInput} {conn : Connection} {c : Cmd} (h : InSync i conn c)
    (g : List (Σ c : Cmd, c.Resp)) : tallying.allowed g c := by
  cases h with
  | tokens hc => exact tallying_of_touchesTokens hc g
  | _ => trivial

theorem tallying_of_inPass {conn : Connection} {c : Cmd} (h : InPass conn c)
    (g : List (Σ c : Cmd, c.Resp)) : tallying.allowed g c := by
  cases h with
  | tokens hc => exact tallying_of_touchesTokens hc g
  | _ => trivial

/-- A load settles nothing. -/
theorem loadConnection_follows_tallying (a : Activities) (id : Uuid) :
    (a.loadConnection id).Follows tallying (fun _ _ => True) [] := by
  refine ⟨trivial, fun r => ?_⟩
  cases r with
  | error e => trivial
  | ok conn =>
    dsimp only [Prog.pure_bind]
    split <;> trivial

theorem settleConnection_follows_tallying (id : Uuid) :
    (Activities.settleConnection id).Follows tallying (fun _ _ => True) [] := by
  refine ⟨trivial, fun r => ?_⟩
  cases r with
  | error e => trivial
  | ok n =>
    refine ⟨trivial, fun r => ?_⟩
    cases r with
    | error e => trivial
    | ok conn =>
      dsimp only [Prog.pure_bind]
      refine Prog.Follows.bind (R := fun _ _ => True) ?_ fun r g' _ => ?_
      · unfold Activities.setConnectionSettled
        split
        · trivial
        · refine ⟨⟨id, n, conn, by simp [tallying], by simp [tallying], rfl, rfl⟩, fun r => ?_⟩
          cases r with
          | error e => trivial
          | ok _ => exact ⟨trivial, fun _ => trivial⟩
      · split <;> trivial

/-- **Every job settles a connection by its counts.** -/
theorem Job.follows_tallying (a : Activities) (sv : Server) (j : Job) :
    (j.prog a sv).Follows tallying (fun _ _ => True) [] := by
  by_cases hj : j.isRoutine = true
  · exact follows_tallying_of_uses (Job.routine a sv hj) (fun _ g hc => tallying_of_routine hc g) []
  · cases j with
    | syncUnit i =>
      refine Prog.Follows.bind (R := fun _ _ => True) ?_ fun _ _ _ => trivial
      rw [syncUnit_eq]
      refine (loadConnection_follows_tallying a i.connectionID).bind fun r g _ => ?_
      cases r with
      | error e => trivial
      | ok cc =>
        exact follows_tallying_of_uses (uses_syncLoaded a cc.2)
          (fun _ g hc => tallying_of_inSync hc g) g
    | settleConnection id =>
      exact (settleConnection_follows_tallying id).bind fun _ _ _ => trivial
    | upkeep u =>
      cases u with
      | discoverUnits id =>
        refine Prog.Follows.bind (R := fun _ _ => True) ?_ fun _ _ _ => trivial
        rw [discoverUnits_loaded]
        refine (loadConnection_follows_tallying a id).bind fun r g _ => ?_
        cases r with
        | error e => trivial
        | ok cc =>
          exact follows_tallying_of_uses (uses_discoverLoaded a cc.2)
            (fun _ g hc => tallying_of_inPass hc g) g
      | _ => exact absurd rfl hj
    | _ => exact absurd rfl hj

/-! ### The invariant -/

/-- A settle that would roll up to `connected` counts no failing unit. -/
def CountsWell (pre : List (ℕ × Performed World Choice Cmd)) (e : ℕ × Performed World Choice Cmd) :
    Prop :=
  ∀ id, e.2.cmd = .statement (.settleCounts id) →
    settleStatus (settleCounts id e.2.state.db).total (settleCounts id e.2.state.db).errored
      (settleCounts id e.2.state.db).uncommitted = .connected →
    ∀ u ∈ e.2.state.db.units.rows, countedIn id u = true → health id u.externalID pre = .well

/-- What holds of the failing units, of the counts and of the settles. -/
structure HealthInv (w : World) (tr : List (ℕ × Performed World Choice Cmd)) : Prop where
  /-- A failing unit that is not masked shows, or it was never committed. -/
  shows : ∀ id x, health id x tr = .failing → ∀ u ∈ w.db.units.rows, u.key = (id, x) →
    u.status = .error ∨ u.status = .removed ∨ u.committedAt = none
  counted : AtEvery CountsWell tr
  honest : AtEvery Honest tr

/-- What a command of an execution on the unit leads to. -/
theorem failing_of_next {id : Uuid} {x : String} {h : Health} {l : Performed World Choice Cmd}
    (hnext : h.next id x l = .failing) :
    h = .failing ∧ poisons id x l = false ∧ worksOn id x l = false ∧ rearms id x l = false ∨
      poisons id x l = true ∧ tookEffect l = true := by
  unfold Health.next at hnext
  cases hp : poisons id x l with
  | true =>
    cases ht : tookEffect l with
    | true => exact .inr ⟨rfl, rfl⟩
    | false => simp [hp, ht] at hnext
  | false =>
    cases hw : worksOn id x l with
    | true => simp [hp, hw] at hnext
    | false =>
      cases hr : rearms id x l with
      | true =>
        -- a re-arm masks a failing unit, and leaves the others as they are
        cases h <;> simp [hp, hw, hr] at hnext
      | false =>
        simp only [hp, hw, hr, Bool.false_and, Bool.false_eq_true, if_false] at hnext
        exact .inl ⟨hnext, rfl, rfl, rfl⟩

/-- `SetUnitRetry` leaves its unit in `error`. -/
theorem error_of_setUnitRetry {db : Database} {now at_ : Time} {id : Uuid} {x e : String}
    {u : SyncUnit} (h : u ∈ ((Statement.setUnitRetry id x e at_).exec now db).2.units.rows)
    (hkey : u.key = (id, x)) : u.status = .error := by
  obtain ⟨u₀, -, rfl⟩ := List.mem_map.mp h
  unfold Table.updated at hkey ⊢
  by_cases hp : u₀.is id x = true
  · rw [if_pos hp]
  · rw [if_neg hp] at hkey
    obtain ⟨hid, hx⟩ : u₀.connectionID = id ∧ u₀.externalID = x := Prod.mk.inj hkey
    simp [SyncUnit.is, hid, hx] at hp

/-- A rewrite keeps a failing unit in sight. -/
theorem shows_rewrites {w : World} {s : Statement} {b : Bool} {t : Choice} {u u' : SyncUnit}
    (heff : t.takesEffect b = true) (hu : u ∈ w.db.units.rows)
    (hbefore : u.status = .error ∨ u.status = .removed ∨ u.committedAt = none)
    (hworks : worksOn u.connectionID u.externalID ⟨w, .statement s, b, t⟩ = false)
    (hrearms : rearms u.connectionID u.externalID ⟨w, .statement s, b, t⟩ = false)
    (hrew : Rewrites (w.now + t.elapsed) w.db s u u') :
    u'.status = .error ∨ u'.status = .removed ∨ u'.committedAt = none := by
  cases hrew with
  | status => simp [worksOn] at hworks
  | commit => simp [worksOn] at hworks
  | retry => exact .inl rfl
  | sweep => exact .inr (.inl rfl)
  | rearm _ hsel hst =>
    -- the command would be a re-arm
    simp only [rearms, tookEffect, heff, decide_true, Bool.true_and, List.any_eq_false] at hrearms
    have hno := hrearms u hu
    rcases hst with hst | hst <;> simp [SyncUnit.is, hsel, hst] at hno
  | mark => exact hbefore
  | total => exact hbefore
  | selection => exact hbefore
  | cursor => exact hbefore
  | counted => exact hbefore
  | clear => exact hbefore

section Step

variable {w : World} {tr : List (ℕ × Performed World Choice Cmd)} {i : ℕ} {t : Choice} {b : Bool}
  {c : Cmd}

/-- **A failing unit stays in sight.** -/
theorem HealthInv.shows_step (hinv : HealthInv w tr) {id : Uuid} {x : String}
    (hfailing : health id x (tr ++ [(i, ⟨w, c, b, t⟩)]) = .failing) {u' : SyncUnit}
    (hu' : u' ∈ (service.perform t b w c).1.db.units.rows) (hkey : u'.key = (id, x)) :
    u'.status = .error ∨ u'.status = .removed ∨ u'.committedAt = none := by
  rw [health_snoc] at hfailing
  rw [service_db] at hu'
  rcases failing_of_next hfailing with ⟨hh, -, hworks, hrearms⟩ | ⟨hpoisons, htook⟩
  · cases c with
    | statement s =>
      by_cases heff : t.takesEffect b = true
      · have hexec : u' ∈ (s.exec (w.now + t.elapsed) w.db).2.units.rows := by
          simpa only [if_pos heff] using hu'
        rcases unit_exec s hexec with ⟨u, hu, rfl | hrew⟩ | ⟨id', x', name, kind, g, -, -, rfl⟩
        · exact hinv.shows id x hh _ hu hkey
        · have hkey' : u.key = (id, x) := hrew.key.symm.trans hkey
          have hbefore := hinv.shows id x hh u hu hkey'
          obtain ⟨rfl, rfl⟩ : u.connectionID = id ∧ u.externalID = x := Prod.mk.inj hkey'
          exact shows_rewrites heff hu hbefore hworks hrearms hrew
        · exact .inr (.inr rfl)
      · have hsame : u' ∈ w.db.units.rows := by
          simpa only [if_neg heff] using hu'
        exact hinv.shows id x hh u' hsame hkey
    | _ => exact hinv.shows id x hh u' hu' hkey
  · -- the unit has just failed
    left
    cases c with
    | statement s =>
      have heff : t.takesEffect b = true := htook
      have hexec : u' ∈ (s.exec (w.now + t.elapsed) w.db).2.units.rows := by
        simpa only [if_pos heff] using hu'
      cases s with
      | setUnitRetry id' x' e at_ =>
        simp only [poisons, Bool.and_eq_true, decide_eq_true_eq] at hpoisons
        obtain ⟨rfl, rfl⟩ := hpoisons
        exact error_of_setUnitRetry hexec hkey
      | _ => cases hpoisons
    | _ => cases hpoisons

/-- **Counts that would report the connection healthy count no failing unit.** -/
theorem HealthInv.countsWell (hinv : HealthInv w tr) (hshown : countsShown tr t b w c = true) :
    CountsWell tr (i, ⟨w, c, b, t⟩) := by
  intro id hcmd hconnected u hu hcounted
  obtain rfl : c = .statement (.settleCounts id) := hcmd
  obtain ⟨hnoError, hcommitted⟩ := committed_of_connected hconnected hu hcounted
  have hmasked := List.all_eq_true.mp hshown u hu
  simp only [hcounted, hcommitted, Bool.true_and, Bool.not_eq_true', decide_eq_false_iff_not]
    at hmasked
  cases hh : health id u.externalID tr with
  | well => rfl
  | masked => exact absurd hh hmasked
  | failing =>
    simp only [countedIn, Bool.and_eq_true, decide_eq_true_eq] at hcounted
    obtain ⟨⟨rfl, -⟩, hremoved⟩ := hcounted
    rcases hinv.shows _ _ hh u hu rfl with hst | hst | hnull
    · exact absurd hst hnoError
    · exact absurd hst hremoved
    · rw [hnull] at hcommitted
      cases hcommitted

/-- **A settle rests on the counts of its thread.** -/
theorem HealthInv.honest_step (hinv : HealthInv w tr)
    (hallowed : tallying.allowed (tallying.after service [] (byThread i tr)) c) :
    Honest tr (i, ⟨w, c, b, t⟩) := by
  intro id hcmd
  obtain rfl : c = .statement (.setConnectionSettled id .connected) := hcmd
  obtain ⟨id₀, n, conn, hcounts, hread, hid, hst⟩ := hallowed
  obtain ⟨l, hl, hcmd, hn⟩ := mem_tallying hcounts
  obtain ⟨l', -, -, hconn⟩ := mem_tallying hread
  -- the row it writes to is the one it has counted the units of
  have hid₀ : id = id₀ := hid.trans (mem_of_getConnectionByID hconn).2
  subst hid₀
  obtain rfl : settleCounts id l.state.db = n := Except.ok.inj hn
  obtain ⟨p, q, hsplit⟩ := List.append_of_mem (mem_of_mem_byThread hl)
  exact ⟨p, l, q, hsplit, hcmd, hinv.counted p (i, l) q hsplit id hcmd hst.symm⟩

theorem HealthInv.step (hinv : HealthInv w tr) (hshown : countsShown tr t b w c = true)
    (hallowed : tallying.allowed (tallying.after service [] (byThread i tr)) c) :
    HealthInv (service.perform t b w c).1 (tr ++ [(i, ⟨w, c, b, t⟩)]) where
  shows _ _ hfailing _ hu hkey := hinv.shows_step hfailing hu hkey
  counted := atEvery_snoc hinv.counted (hinv.countsWell hshown)
  honest := atEvery_snoc hinv.honest (hinv.honest_step hallowed)

end Step

/-- **A failing unit that shows is never reported healthy**: in every interleaving of the commands
of the jobs whose settles count failing units that show, a settle to `connected` has counted no
failing unit. -/
theorem failing_never_healthy (a : Activities) (sv : Server) {w : World}
    {es : List (PoolEvent Job Choice)} {s : Pool World Cmd Cmd.Resp Unit}
    {tr : List (ℕ × Performed World Choice Cmd)}
    (h : (service.threads (Job.prog a sv)).RunWhere
      (fun s tr e => settlesShown s tr e = true) ⟨w, []⟩ es s tr) : AtEvery Honest tr := by
  have hinv : HealthInv s.world tr := by
    refine threads_invariant h (Job.follows_tallying a sv) ?_ ?_
    · exact ⟨fun id x hfailing => (nomatch hfailing), atEvery_nil, atEvery_nil⟩
    · intro s tr i t c k b hC hth hallowed hinv
      exact hinv.step (poolMeets_of_check hC c k b hth) hallowed
  exact hinv.honest

/-! ### A run within the backoff -/

/-- A run in which the drain of Ann's Drive fails: the source is unreachable. -/
def failedRun : List (PoolEvent Job Choice) :=
  .start (.startRun 0) :: quietTurns 0 4 ++ .start (.nextUnitBatch 0 8) :: quietTurns 1 1 ++
    .start (.syncUnit driveInput) :: quietTurns 2 13 ++
    .start (.settleConnection 0) :: quietTurns 3 4

/-- The next run when the backoff is over: it drains the unit again, and succeeds. -/
def recoveredRun : List (PoolEvent Job Choice) :=
  .start (.startRun 0) ::
      .turn 4 ⟨false, { quietly annAnswers with elapsed := poisonBackoff }⟩ :: quietTurns 4 3 ++
    .start (.nextUnitBatch 0 8) :: quietTurns 5 1 ++
    .start (.syncUnit driveInput) :: docTurns 6 20 ++
    .start (.settleConnection 0) :: quietTurns 7 4

/-- The next run when the backoff is not over: it drains nothing. -/
def hastyRun : List (PoolEvent Job Choice) :=
  .start (.startRun 0) :: quietTurns 4 4 ++ .start (.nextUnitBatch 0 8) :: quietTurns 5 1 ++
    .start (.settleConnection 0) :: quietTurns 6 3

-- the unit is committed when the first run starts
example : syncedWorld.db.units.rows.all (fun u => u.committedAt.isSome) = true := by decide +kernel

/-- After a failed run and one that recovers, the connection is healthy again. -/
theorem recovered_reported_healthy :
    ∃ s tr, (service.threads (Job.prog driveActivities driveServer)).RunWhere
        (fun s tr e => settlesShown s tr e = true) ⟨syncedWorld, []⟩ (failedRun ++ recoveredRun)
        s tr ∧
      s.world.db.connections.rows.map Connection.status = [.connected] ∧ AtEvery Honest tr := by
  obtain ⟨s, tr, hrun, hend⟩ := Lts.exists_runWhere_of_any
    (service.threads (Job.prog driveActivities driveServer)) settlesShown ⟨syncedWorld, []⟩
    (failedRun ++ recoveredRun)
    (fun s _ => decide (s.world.db.connections.rows.map Connection.status = [.connected]))
    (by decide +kernel)
  exact ⟨s, tr, hrun, of_decide_eq_true hend,
    failing_never_healthy driveActivities driveServer hrun⟩

/-- The settle that ends a trace is to `connected`, and whenever its thread has counted, a unit
it counted was failing. -/
def reportsFailing (id : Uuid) (pre : List (ℕ × Performed World Choice Cmd))
    (e : ℕ × Performed World Choice Cmd) : Bool :=
  (match e.2.cmd with
    | .statement (.setConnectionSettled id' .connected) => decide (id' = id)
    | _ => false) &&
  (List.range pre.length).all fun n => pre[n]?.all fun m : ℕ × Performed World Choice Cmd =>
    decide (m.1 ≠ e.1) || m.2.state.db.units.rows.any fun u =>
      countedIn id u && decide (health id u.externalID (pre.take n) ≠ .well)

theorem not_honest_of_reportsFailing {id : Uuid} {pre : List (ℕ × Performed World Choice Cmd)}
    {e : ℕ × Performed World Choice Cmd} (h : reportsFailing id pre e = true) : ¬ Honest pre e := by
  intro honest
  obtain ⟨hsettles, hall⟩ := Bool.and_eq_true_iff.mp h
  have hcmd : e.2.cmd = .statement (.setConnectionSettled id .connected) := by
    split at hsettles
    · rename_i heq
      rw [heq, of_decide_eq_true hsettles]
    · cases hsettles
  obtain ⟨p, l, q, rfl, -, hwell⟩ := honest id hcmd
  have hat := List.all_eq_true.mp hall p.length (by simp)
  simp only [List.getElem?_append_right (Nat.le_refl _), Nat.sub_self, List.getElem?_cons_zero,
    Option.all_some, List.take_left, ne_eq, not_true_eq_false, decide_false, Bool.false_or,
    List.any_eq_true, Bool.and_eq_true, decide_eq_true_eq] at hat
  obtain ⟨u, hu, hcounted, hfailing⟩ := hat
  exact hfailing (hwell u hu hcounted)

/-- **A unit that is re-armed within its backoff is reported healthy**: its last execution has
failed, the next run drains nothing, and its settle writes `connected`. -/
theorem rearmed_unit_reported_healthy :
    ∃ s tr, (service.threads (Job.prog driveActivities driveServer)).Run ⟨syncedWorld, []⟩
        (failedRun ++ hastyRun) s tr ∧ ¬ AtEvery Honest tr := by
  obtain ⟨s, tr, hrun, hlast⟩ := Lts.exists_run_of_any
    (service.threads (Job.prog driveActivities driveServer)) ⟨syncedWorld, []⟩
    (failedRun ++ hastyRun)
    (fun _ tr => tr.getLast?.any fun e : ℕ × Performed World Choice Cmd =>
      reportsFailing 0 tr.dropLast e)
    (by decide +kernel)
  refine ⟨s, tr, hrun, fun hevery => ?_⟩
  obtain ⟨e, he, hreports⟩ := (Option.any_eq_true _ _).mp hlast
  have hsplit : tr = tr.dropLast ++ e :: [] := (List.dropLast_append_getLast? e he).symm
  exact not_honest_of_reportsFailing hreports (hevery _ e [] hsplit)

end Hivebook
