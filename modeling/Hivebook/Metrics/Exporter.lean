import Mathlib.Algebra.Ring.Int.Defs
import Mathlib.Data.Rat.Defs
import Mathlib.Data.List.MinMax
import Hivebook.Activity.Erasure
import Hivebook.Lib.Grouping
import Hivebook.Service.Discovery

/-!
# The exporter of the aggregate gauges

Every cycle the exporter reads five aggregates from the database and sets the gauges the alerts
watch.  The queries are its own: the backlog is meant to be what `nextUnitBatchSQL` selects, the
breaches are also set by `CheckPurgeSLA`, and the freshness of a connector in a region is meant to
be the largest lag of its connections.

## Main definitions

* `Metrics.Gauges`, `Metrics.collectPostgresSLIs` — the gauges, and one collection.
* `Metrics.owedUnits` — the units the batches of a connector would hand out.
* `Metrics.purgeReported` — the rows `CheckPurgeSLA` reports; `Metrics.DueAlike` — the gauge counts
  a row exactly if it is to be reported.
* `Metrics.worstLag` — the largest lag of a group.

## Main results

* `Metrics.exporter_counts` — **the backlog is what is owed exactly when nothing backs off**, and
  the breaches are those reported when the two notions of an overdue erasure agree on every row.
* `Metrics.freshness_worst_iff` — **the freshness is the largest lag exactly when all connections
  of the group last succeeded at one time.**
-/

namespace Hivebook
namespace Metrics

open Grouping Database

/-! ### The gauges and the queries -/

/-- The gauges the exporter sets; a labelled one has a series for each label that was set. -/
structure Gauges where
  /-- By connector and region. -/
  syncFreshnessSeconds : String × String → Option ℤ
  syncBacklogUnits : String → Option ℕ
  /-- By connector and status. -/
  syncConnections : String × ConnectionStatus → Option ℕ
  admissionLimit : String → Option ℚ
  purgeSLABreaches : ℕ

/-- The queries of a collection. -/
inductive SliQuery where
  | freshness | backlog | connections | admission | purgeBreach
  deriving DecidableEq, Repr

/-- `max(last_success_at)` of a group that has one. -/
def maxLastSuccess (rows : List Connection) : Time :=
  (rows.filterMap Connection.lastSuccessAt).foldr max 0

/-- The rows of `freshnessSQL` before they are grouped. -/
def freshnessRows (db : Database) : List Connection :=
  db.connections.rows.filter fun c => c.deletedAt.isNone && c.lastSuccessAt.isSome

/-- `freshnessSQL`. -/
def freshnessSQL (now : Time) (db : Database) : List ((String × String) × ℤ) :=
  groupBy (fun c => (c.connectorID, c.region)) (fun rows => (now : ℤ) - maxLastSuccess rows)
    (freshnessRows db)

/-- `status NOT IN ('synced', 'error', 'removed')`. -/
def nonTerminal (u : SyncUnit) : Bool :=
  decide (u.status ∉ [UnitStatus.synced, .error, .removed])

/-- The rows of `backlogSQL` before they are grouped: a unit and its connection. -/
def backlogRows (db : Database) : List (SyncUnit × Connection) :=
  db.units.rows.flatMap fun u =>
    (db.connections.rows.filter fun c => decide (c.id = u.connectionID) &&
      (c.deletedAt.isNone && u.selected && nonTerminal u)).map fun c => (u, c)

/-- `backlogSQL`. -/
def backlogSQL (db : Database) : List (String × ℕ) :=
  groupBy (fun r => r.2.connectorID) List.length (backlogRows db)

/-- `connectionsSQL`. -/
def connectionsSQL (db : Database) : List ((String × ConnectionStatus) × ℕ) :=
  groupBy (fun c => (c.connectorID, c.status)) List.length
    (db.connections.rows.filter fun c => c.deletedAt.isNone)

/-- The buckets of the credentials; the scope key of one is the id of a connection. -/
def credentialBuckets (db : Database) : List AdmissionBucket :=
  db.connections.rows.filterMap fun c => db.buckets (.credential c.id)

/-- `admissionSQL`. -/
def admissionSQL (db : Database) : List (String × ℚ) :=
  groupBy AdmissionBucket.connectorID
    (fun rows => ((rows.map AdmissionBucket.concurrencyLimit).sum : ℚ) / rows.length)
    ((credentialBuckets db).filter fun b => decide (b.connectorID ≠ ""))

/-- `purgeBreachSQL`. -/
def purgeBreachSQL (now : Time) (db : Database) : ℕ :=
  db.artifacts.rows.countP fun r => r.purgePending && before r.purgeDeadline now

/-- `queryRows`: the series of the rows that are answered; a query may fail after some rows, or
before the first one. -/
def queryRows {κ β : Type} [DecidableEq κ] (cut : Option ℕ) (rows : List (κ × β)) :
    κ → Option β :=
  setAll (match cut with
    | none => rows
    | some n => rows.take n) fun _ => none

/-- `collectPostgresSLIs`: the labelled gauges are reset, so that a group that is gone has no
series; a number of breaches that cannot be read stays. -/
def collectPostgresSLIs (cut : SliQuery → Option ℕ) (now : Time) (db : Database) (g : Gauges) :
    Gauges where
  syncFreshnessSeconds := queryRows (cut .freshness) (freshnessSQL now db)
  syncBacklogUnits := queryRows (cut .backlog) (backlogSQL db)
  syncConnections := queryRows (cut .connections) (connectionsSQL db)
  admissionLimit := queryRows (cut .admission) (admissionSQL db)
  purgeSLABreaches :=
    match cut .purgeBreach with
    | none => purgeBreachSQL now db
    | some _ => g.purgeSLABreaches

/-! ### What the activities act on -/

/-- The live connections of a connector. -/
def liveConnections (connector : String) (db : Database) : List Connection :=
  db.connections.rows.filter fun c => c.deletedAt.isNone && decide (c.connectorID = connector)

/-- The units `NextUnitBatch` would return for the live connections of a connector, were there no
limit. -/
def owedUnits (now : Time) (connector : String) (db : Database) : ℕ :=
  ((liveConnections connector db).map fun c =>
    (nextUnitBatch now c.id db.units.rows.length db).length).sum

/-- A selected unit of the connection that needs work and is backing off. -/
def backingOff (now : Time) (connectionID : Uuid) (u : SyncUnit) : Bool :=
  decide (u.connectionID = connectionID) && u.selected && nonTerminal u &&
    !nullOrElapsed u.nextRetryAt now

/-- No unit of a live connection of the connector is backing off. -/
def NoneBackingOff (now : Time) (connector : String) (db : Database) : Prop :=
  ∀ c ∈ liveConnections connector db, ∀ u ∈ db.units.rows, backingOff now c.id u = false

/-- The rows `CheckPurgeSLA` reports. -/
def purgeReported (now : Time) (db : Database) : List RawArtifact :=
  listPurgePendingPastDeadline (now - purgeSLA) slaScanLimit db

/-- An erasure past its deadline that was requested within the SLA. -/
def dueEarly (now : Time) (r : RawArtifact) : Bool :=
  (r.purgePending && before r.purgeDeadline now) && !before r.deletedAt (now - purgeSLA)

/-- An erasure that was requested before the SLA and is not past its deadline. -/
def dueLate (now : Time) (r : RawArtifact) : Bool :=
  (r.purgePending && before r.deletedAt (now - purgeSLA)) && !before r.purgeDeadline now

/-- The two notions of an overdue erasure agree on a row. -/
def DueAlike (now : Time) (r : RawArtifact) : Prop :=
  r.purgePending = true → before r.purgeDeadline now = before r.deletedAt (now - purgeSLA)

instance (now : Time) (r : RawArtifact) : Decidable (DueAlike now r) :=
  inferInstanceAs (Decidable (_ → _))

/-- The live connections of a group that have succeeded. -/
def succeeded (connector region : String) (db : Database) : List Connection :=
  (freshnessRows db).filter fun c => decide ((c.connectorID, c.region) = (connector, region))

/-- The largest lag of a group. -/
def worstLag (now : Time) (connector region : String) (db : Database) : Option ℤ :=
  (((succeeded connector region db).filterMap Connection.lastSuccessAt).map
    fun t : Time => (now : ℤ) - t).max?

variable {cut : SliQuery → Option ℕ} {now : Time} {db : Database} {g : Gauges}
  {connector region : String}

/-! ### The backlog -/

theorem nextUnitBatch_length (now : Time) (connectionID : Uuid) (db : Database) :
    (nextUnitBatch now connectionID db.units.rows.length db).length =
      db.units.rows.countP (eligible now connectionID) := by
  unfold nextUnitBatch
  rw [List.length_take, List.length_insertionSort, List.length_map,
    ← List.countP_eq_length_filter]
  exact min_eq_right List.countP_le_length

/-- The selected units that need work, of a live connection of the connector. -/
theorem backlogRows_countP (connector : String) (db : Database) :
    ((backlogRows db).countP fun r => decide (r.2.connectorID = connector)) =
      ((liveConnections connector db).map fun c => db.units.rows.countP fun u =>
        decide (u.connectionID = c.id) && u.selected && nonTerminal u).sum := by
  unfold backlogRows liveConnections
  rw [List.countP_flatMap]
  have hpair : ∀ u : SyncUnit, (List.countP (fun r : SyncUnit × Connection =>
      decide (r.2.connectorID = connector))
      ((db.connections.rows.filter fun c => decide (c.id = u.connectionID) &&
        (c.deletedAt.isNone && u.selected && nonTerminal u)).map fun c => (u, c))) =
      (db.connections.rows.filter fun c => c.deletedAt.isNone &&
        decide (c.connectorID = connector)).countP fun c =>
          decide (u.connectionID = c.id) && u.selected && nonTerminal u := by
    intro u
    rw [List.countP_map, List.countP_filter, List.countP_filter]
    apply List.countP_congr
    intro c _
    simp only [Function.comp_apply, Bool.and_eq_true, decide_eq_true_eq,
      eq_comm (a := c.id)]
    tauto
  rw [← sum_countP_comm]
  congr 1
  apply List.map_congr_left
  intro u _
  exact hpair u

/-- The gauge counts the units that are backing off besides those that are owed. -/
theorem backlog_eq (h : cut .backlog = none) (now : Time) (connector : String) (db : Database)
    (g : Gauges) :
    ((collectPostgresSLIs cut now db g).syncBacklogUnits connector).getD 0 =
      owedUnits now connector db +
        ((liveConnections connector db).map fun c =>
          db.units.rows.countP (backingOff now c.id)).sum := by
  have hgauge : (collectPostgresSLIs cut now db g).syncBacklogUnits =
      setAll (backlogSQL db) fun _ => none := by
    simp only [collectPostgresSLIs, queryRows, h]
  unfold owedUnits
  rw [hgauge, backlogSQL, setAll_groupBy_length, backlogRows_countP, ← List.sum_map_add]
  congr 1
  apply List.map_congr_left
  intro c _
  rw [nextUnitBatch_length, countP_split _ fun u => nullOrElapsed u.nextRetryAt now]
  rfl

theorem backlog_iff (h : cut .backlog = none) (now : Time) (connector : String) (db : Database)
    (g : Gauges) :
    ((collectPostgresSLIs cut now db g).syncBacklogUnits connector).getD 0 =
        owedUnits now connector db ↔ NoneBackingOff now connector db := by
  rw [backlog_eq h]
  have hzero : ((liveConnections connector db).map fun c =>
      db.units.rows.countP (backingOff now c.id)).sum = 0 ↔ NoneBackingOff now connector db := by
    simp [List.sum_eq_zero_iff_forall_eq_nat, NoneBackingOff]
  rw [← hzero]
  omega

/-! ### The breaches -/

theorem purgeReported_length (h : (purgeReported now db).length < slaScanLimit) :
    (purgeReported now db).length = db.artifacts.rows.countP fun r =>
      r.purgePending && before r.deletedAt (now - purgeSLA) := by
  unfold purgeReported listPurgePendingPastDeadline at h ⊢
  rw [List.length_take] at h ⊢
  rw [List.length_insertionSort, ← List.countP_eq_length_filter] at h ⊢
  exact min_eq_right (by omega)

/-- What `CheckPurgeSLA` answers are these rows, at the time it has read. -/
theorem checkPurgeSLA_reports {b b' : Bool} {w w' : World} {ls : List (Performed World Choice Cmd)}
    {ids : List Uuid} (h : service.Returns Activities.checkPurgeSLA b w ls (.ok ids) b' w') :
    ∃ t, w.now ≤ t ∧ ids = (purgeReported t w.db).map RawArtifact.id := by
  obtain ⟨turn, ls₁, -, hrest⟩ := Machine.Returns.of_call h
  obtain ⟨x, b₁, reply, ls₂, hreply, hanswer⟩ := returns_statement hrest
  refine ⟨w.now + turn.choice.elapsed, Nat.le_add_right _ _, ?_⟩
  cases reply with
  | error e =>
    obtain ⟨-, hr, -⟩ := Machine.Returns.of_pure hanswer
    cases hr
  | ok rows =>
    obtain ⟨-, hr, -⟩ := Machine.Returns.of_pure hanswer
    obtain ⟨-, hrows⟩ := of_reply_eq_ok hreply
    have hids : rows.map RawArtifact.id = ids := (Except.ok.inj hr).symm
    have hdb : (service.perform turn.choice (b || turn.cancel) w .clock).1.db = w.db := by
      rw [service_state]
      split <;> rfl
    rw [hdb] at hrows
    have hlist : purgeReported (w.now + turn.choice.elapsed) w.db = rows := Except.ok.inj hrows
    rw [← hids, hlist]

/-- The notions differ on a row in one of two ways. -/
theorem dueAlike_iff (now : Time) (r : RawArtifact) :
    DueAlike now r ↔ dueEarly now r = false ∧ dueLate now r = false := by
  unfold DueAlike dueEarly dueLate
  cases r.purgePending <;> cases before r.purgeDeadline now <;>
    cases before r.deletedAt (now - purgeSLA) <;> decide

/-- What the breaches are off by: the rows on which the notions differ, in one way or the other. -/
theorem breaches_eq (h : cut .purgeBreach = none) (db : Database) (g : Gauges)
    (hlimit : (purgeReported now db).length < slaScanLimit) :
    (collectPostgresSLIs cut now db g).purgeSLABreaches +
        db.artifacts.rows.countP (dueLate now) =
      (purgeReported now db).length + db.artifacts.rows.countP (dueEarly now) := by
  have hgauge : (collectPostgresSLIs cut now db g).purgeSLABreaches = purgeBreachSQL now db := by
    simp only [collectPostgresSLIs, h]
  have hdeadline := countP_split
    (fun r : RawArtifact => r.purgePending && before r.purgeDeadline now)
    (fun r => before r.deletedAt (now - purgeSLA)) db.artifacts.rows
  have hrequest := countP_split
    (fun r : RawArtifact => r.purgePending && before r.deletedAt (now - purgeSLA))
    (fun r => before r.purgeDeadline now) db.artifacts.rows
  -- the rows that are overdue by both notions
  have hboth : (db.artifacts.rows.countP fun r =>
      (r.purgePending && before r.purgeDeadline now) && before r.deletedAt (now - purgeSLA)) =
      db.artifacts.rows.countP fun r =>
        (r.purgePending && before r.deletedAt (now - purgeSLA)) && before r.purgeDeadline now := by
    apply List.countP_congr
    intro r _
    simp only [Bool.and_eq_true]
    tauto
  rw [hgauge, purgeReported_length hlimit]
  unfold purgeBreachSQL dueEarly dueLate
  omega

theorem countP_eq_zero_iff {p : RawArtifact → Bool} {rows : List RawArtifact} :
    rows.countP p = 0 ↔ ∀ r ∈ rows, p r = false := by
  simp only [List.countP_eq_zero, Bool.not_eq_true]

/-- Rows on which the notions agree are counted alike. -/
theorem breaches_of_alike (h : cut .purgeBreach = none) (db : Database) (g : Gauges)
    (hlimit : (purgeReported now db).length < slaScanLimit)
    (halike : ∀ r ∈ db.artifacts.rows, DueAlike now r) :
    (collectPostgresSLIs cut now db g).purgeSLABreaches = (purgeReported now db).length := by
  have hearly : db.artifacts.rows.countP (dueEarly now) = 0 :=
    countP_eq_zero_iff.mpr fun r hr => ((dueAlike_iff now r).mp (halike r hr)).1
  have hlate : db.artifacts.rows.countP (dueLate now) = 0 :=
    countP_eq_zero_iff.mpr fun r hr => ((dueAlike_iff now r).mp (halike r hr)).2
  have heq := breaches_eq h db g hlimit
  omega

/-- Where the counts agree, the notions agree on every row, or they differ both ways. -/
theorem alike_of_breaches (h : cut .purgeBreach = none) (db : Database) (g : Gauges)
    (hlimit : (purgeReported now db).length < slaScanLimit)
    (hcounts : (collectPostgresSLIs cut now db g).purgeSLABreaches =
      (purgeReported now db).length) :
    (∀ r ∈ db.artifacts.rows, DueAlike now r) ∨
      (∃ r ∈ db.artifacts.rows, dueEarly now r = true) ∧
        ∃ r ∈ db.artifacts.rows, dueLate now r = true := by
  have heq := breaches_eq h db g hlimit
  by_cases hzero : db.artifacts.rows.countP (dueEarly now) = 0
  · have hlate : db.artifacts.rows.countP (dueLate now) = 0 := by omega
    exact .inl fun r hr => (dueAlike_iff now r).mpr
      ⟨countP_eq_zero_iff.mp hzero r hr, countP_eq_zero_iff.mp hlate r hr⟩
  · exact .inr ⟨List.countP_pos_iff.mp (by omega), List.countP_pos_iff.mp (by omega)⟩

/-- The backlog of a connector is what the batches would hand out exactly when no unit of its live
connections backs off.  The breaches are the rows `CheckPurgeSLA` reports, if it reports them all,
when the deadline of every queued row says the same as the time of its request; and otherwise only
if there are rows of both kinds, so that the errors cancel. -/
theorem exporter_counts (hbacklog : cut .backlog = none) (hbreach : cut .purgeBreach = none)
    (now : Time) (db : Database) (g : Gauges) :
    (∀ connector, ((collectPostgresSLIs cut now db g).syncBacklogUnits connector).getD 0 =
        owedUnits now connector db ↔ NoneBackingOff now connector db) ∧
    ((purgeReported now db).length < slaScanLimit →
      ((∀ r ∈ db.artifacts.rows, DueAlike now r) →
        (collectPostgresSLIs cut now db g).purgeSLABreaches = (purgeReported now db).length) ∧
      ((collectPostgresSLIs cut now db g).purgeSLABreaches = (purgeReported now db).length →
        (∀ r ∈ db.artifacts.rows, DueAlike now r) ∨
          (∃ r ∈ db.artifacts.rows, dueEarly now r = true) ∧
            ∃ r ∈ db.artifacts.rows, dueLate now r = true)) := by
  refine ⟨?_, fun hlimit => ⟨?_, ?_⟩⟩
  · intro connector
    exact backlog_iff hbacklog now connector db g
  · exact breaches_of_alike hbreach db g hlimit
  · exact alike_of_breaches hbreach db g hlimit

/-- The gauges of a process that has collected nothing. -/
def noSeries : Gauges :=
  { syncFreshnessSeconds := fun _ => none, syncBacklogUnits := fun _ => none
    syncConnections := fun _ => none, admissionLimit := fun _ => none, purgeSLABreaches := 0 }

/-- A repository of Ann's is selected and was not synced yet. -/
def oneOwed : Database := setUnitSelection 0 0 ["ann/a"] (sawRepo 1 "ann/a" emptyAccount)

/-- An issue of a repository of hers that is gone since. -/
def oldIssue : UpsertRawArtifactParams :=
  { tenantID := "acme", region := "eu", connectionID := 0, source := "github_pat"
    sourceNativeKind := "github_issue", containerID := "ann/b", syncContainerID := "ann/b"
    containerKind := "github_repo", containerName := "ann/b", externalID := "ann/b#1"
    sourceURL := "", objectKey := "eu/acme/github/1", contentHash := "1", sourceUpdatedAt := none }

/-- The sweep has left its issue to be erased after the grace. -/
def sweptIssue : Database :=
  markRemovedUnitArtifactsPurgePending 0 0 purgeGrace (setUnitStatus 0 0 "ann/b" .removed
    (upsertRawArtifact 0 oldIssue (sawRepo 1 "ann/b" oneOwed)))

/-- Eight days later the other repository has failed, and a run has begun. -/
def restedAndSwept : Database :=
  startRun (8 * day) 0 (setUnitRetry (8 * day) 0 "ann/a" "status 502" (8 * day + 900) sweptIssue)

/-- **A unit that is backing off is counted as owed, and an erasure that is a day past its grace as
a breach.** -/
theorem rested_counted_as_owed :
    ((collectPostgresSLIs (fun _ => none) (8 * day + 10) restedAndSwept
        noSeries).syncBacklogUnits "github_pat").getD 0 = 1 ∧
      owedUnits (8 * day + 10) "github_pat" restedAndSwept = 0 ∧
      (collectPostgresSLIs (fun _ => none) (8 * day + 10) restedAndSwept
        noSeries).purgeSLABreaches = 1 ∧
      purgeReported (8 * day + 10) restedAndSwept = [] := by
  decide +kernel

/-- A month later the erasure is overdue by both notions, and the gauges are right. -/
theorem month_later_counted :
    ((collectPostgresSLIs (fun _ => none) (31 * day) sweptIssue noSeries).syncBacklogUnits
        "github_pat").getD 0 = owedUnits (31 * day) "github_pat" sweptIssue ∧
      owedUnits (31 * day) "github_pat" sweptIssue = 1 ∧
      (collectPostgresSLIs (fun _ => none) (31 * day) sweptIssue noSeries).purgeSLABreaches =
        (purgeReported (31 * day) sweptIssue).length ∧
      (purgeReported (31 * day) sweptIssue).length = 1 :=
  have hcounts := exporter_counts rfl rfl (31 * day) sweptIssue noSeries
  ⟨(hcounts.1 "github_pat").mpr (by unfold NoneBackingOff; decide +kernel), by decide +kernel,
    (hcounts.2 (by decide +kernel)).1 (by decide +kernel), by decide +kernel⟩

/-! ### The freshness -/

theorem le_foldr_max {ts : List Time} {t : Time} (h : t ∈ ts) : t ≤ ts.foldr max 0 := by
  induction ts with
  | nil => cases h
  | cons t' ts ih =>
    obtain rfl | h := List.mem_cons.mp h
    · exact le_max_left _ _
    · exact (ih h).trans (le_max_right _ _)

theorem foldr_max_mem {ts : List Time} (h : ts ≠ []) : ts.foldr max 0 ∈ ts := by
  induction ts with
  | nil => exact absurd rfl h
  | cons t ts ih =>
    rw [List.foldr_cons]
    by_cases hts : ts = []
    · simp [hts]
    · obtain hmax | hmax := max_choice t (ts.foldr max 0)
      · simp [hmax]
      · rw [hmax]
        exact List.mem_cons_of_mem _ (ih hts)

/-- The freshness of a group is the lag of the connection that succeeded last: its smallest one. -/
theorem freshness_eq (h : cut .freshness = none) (now : Time) (connector region : String)
    (db : Database) (g : Gauges) :
    (collectPostgresSLIs cut now db g).syncFreshnessSeconds (connector, region) =
      if succeeded connector region db = [] then none
      else some ((now : ℤ) - maxLastSuccess (succeeded connector region db)) := by
  have hgauge : (collectPostgresSLIs cut now db g).syncFreshnessSeconds =
      setAll (freshnessSQL now db) fun _ => none := by
    simp only [collectPostgresSLIs, queryRows, h]
  have hmem : (connector, region) ∈ (freshnessRows db).map (fun c => (c.connectorID, c.region)) ↔
      ¬ succeeded connector region db = [] := by
    unfold succeeded
    rw [List.filter_eq_nil_iff, List.mem_map]
    push Not
    simp only [decide_eq_true_eq]
  rw [hgauge, freshnessSQL, setAll_groupBy]
  by_cases hnil : succeeded connector region db = []
  · rw [if_pos hnil, if_neg (mt hmem.mp (not_not.mpr hnil))]
  · rw [if_neg hnil, if_pos (hmem.mpr hnil)]
    rfl

/-- The times of a group's last successes. -/
theorem succeeded_times (connector region : String) (db : Database) :
    (succeeded connector region db).map Connection.lastSuccessAt =
      ((succeeded connector region db).filterMap Connection.lastSuccessAt).map some := by
  have hsome : ∀ c ∈ succeeded connector region db, c.lastSuccessAt.isSome = true := by
    intro c hc
    have hrow := (List.mem_filter.mp hc).1
    have hlive := (List.mem_filter.mp hrow).2
    exact (Bool.and_eq_true_iff.mp hlive).2
  generalize succeeded connector region db = rows at hsome
  induction rows with
  | nil => rfl
  | cons c rows ih =>
    obtain ⟨t, ht⟩ := Option.isSome_iff_exists.mp (hsome c List.mem_cons_self)
    have hrest := ih fun c' hc' => hsome c' (List.mem_cons_of_mem _ hc')
    simp [ht, hrest]

/-- The freshness of a group is its largest lag exactly when all its connections last succeeded
at one time. -/
theorem freshness_worst_iff (h : cut .freshness = none) (now : Time) (connector region : String)
    (db : Database) (g : Gauges) :
    (collectPostgresSLIs cut now db g).syncFreshnessSeconds (connector, region) =
        worstLag now connector region db ↔
      ∀ c ∈ succeeded connector region db, ∀ c' ∈ succeeded connector region db,
        c.lastSuccessAt = c'.lastSuccessAt := by
  have htimes := succeeded_times connector region db
  rw [freshness_eq h]
  unfold worstLag maxLastSuccess
  generalize succeeded connector region db = rows at htimes
  by_cases hnil : rows = []
  · simp [hnil]
  rw [if_neg hnil, eq_comm]
  generalize rows.filterMap Connection.lastSuccessAt = ts at htimes
  have hne : ts ≠ [] := by
    rintro rfl
    exact hnil (List.map_eq_nil_iff.mp htimes)
  have hmax := foldr_max_mem hne
  rw [List.max?_eq_some_iff]
  constructor
  · -- no lag is larger than the smallest one
    rintro ⟨-, hle⟩
    have hall : ∀ c ∈ rows, c.lastSuccessAt = some (ts.foldr max 0) := by
      intro c hc
      have hc' : c.lastSuccessAt ∈ ts.map some := htimes ▸ List.mem_map_of_mem hc
      obtain ⟨t, ht, hct⟩ := List.mem_map.mp hc'
      have hlow : ((now : ℤ) - (t : ℕ)) ≤ (now : ℤ) - (ts.foldr max 0 : ℕ) :=
        hle _ (List.mem_map_of_mem (f := fun t : Time => (now : ℤ) - t) ht)
      have hlow' : ((ts.foldr max 0 : ℕ) : ℤ) ≤ (t : ℕ) := by omega
      have heq : t = ts.foldr max 0 := le_antisymm (le_foldr_max ht) (Int.ofNat_le.mp hlow')
      rw [← hct, heq]
    intro c hc c' hc'
    rw [hall c hc, hall c' hc']
  · intro hall
    refine ⟨List.mem_map_of_mem hmax, ?_⟩
    intro lag hlag
    obtain ⟨t, ht, rfl⟩ := List.mem_map.mp hlag
    -- every time is that of a connection, so all of them are the same
    have hrow : ∀ t ∈ ts, ∃ c ∈ rows, c.lastSuccessAt = some t := by
      intro t ht
      have hsome : some t ∈ rows.map Connection.lastSuccessAt := htimes ▸ List.mem_map_of_mem ht
      exact List.mem_map.mp hsome
    obtain ⟨c, hc, hct⟩ := hrow t ht
    obtain ⟨c', hc', hct'⟩ := hrow _ hmax
    have heq : t = ts.foldr max 0 := Option.some.inj (hct ▸ hct' ▸ hall c hc c' hc')
    rw [heq]

/-- Two accounts of a connector in a region; one synced last a while ago. -/
def oneStale : Database :=
  setConnectionSettled 90 1 .connected (setConnectionSettled 10 0 .connected
    (upsertConnection { repoConnection with account := "bob", externalID := "bob" }
      emptyAccount).2)

/-- **The stale account is hidden by the fresh one.** -/
theorem stale_account_hidden :
    (collectPostgresSLIs (fun _ => none) 100 oneStale noSeries).syncFreshnessSeconds
        ("github_pat", "eu") = some 10 ∧
      worstLag 100 "github_pat" "eu" oneStale = some 90 := by
  decide +kernel

/-- Both accounts synced last at one time. -/
def bothFresh : Database :=
  setConnectionSettled 10 1 .connected (setConnectionSettled 10 0 .connected
    (upsertConnection { repoConnection with account := "bob", externalID := "bob" }
      emptyAccount).2)

/-- Accounts that synced last at one time are shown with their lag. -/
theorem fresh_accounts_shown :
    (collectPostgresSLIs (fun _ => none) 100 bothFresh noSeries).syncFreshnessSeconds
        ("github_pat", "eu") = worstLag 100 "github_pat" "eu" bothFresh ∧
      (succeeded "github_pat" "eu" bothFresh).length = 2 :=
  ⟨(freshness_worst_iff rfl 100 "github_pat" "eu" bothFresh noSeries).mpr (by decide +kernel),
    by decide +kernel⟩

end Metrics
end Hivebook
