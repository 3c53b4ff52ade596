import Hivebook.Service.Discovery

/-!
# The status that a settle rolls up

A settle folds the selected units of a connection into one status.  It is documented unit by
unit: a unit that was never committed and has not failed means that the backfill is still under
way.  The code sees three counts, and compares the number of uncommitted units with the number
of those that failed.

## Main definitions

* `selectedUnits`, `documentedStatus` — the units that count, and the documented status of them.
* `underway`, `flagged` — never committed and not failed, and committed with one.

## Main results

* `settleStatus_documented_iff` — **the rollup is the documented one exactly if no unit is
  underway, or more units are underway than are flagged.**
-/

namespace Hivebook

open Database

/-- The units that a settle counts. -/
def selectedUnits (connectionID : Uuid) (db : Database) : List SyncUnit :=
  db.units.rows.filter fun u =>
    decide (u.connectionID = connectionID) && u.selected && decide (u.status ≠ .removed)

/-- The unit has never committed, and has not failed. -/
def underway (u : SyncUnit) : Bool := u.committedAt.isNone && decide (u.status ≠ .error)

/-- The unit has committed before, and has failed now. -/
def flagged (u : SyncUnit) : Bool := u.committedAt.isSome && decide (u.status = .error)

/-- The status that `SettleConnection` documents. -/
def documentedStatus (us : List SyncUnit) : ConnectionStatus :=
  if us = [] then .connected
  else if ∀ u ∈ us, u.status = .error then .error
  else if ∃ u ∈ us, u.committedAt = none ∧ u.status ≠ .error then .backfilling
  else if ∃ u ∈ us, u.status = .error then .connectedWarnings
  else .connected

/-! ### The counts, over the units that count -/

variable (id : Uuid) (db : Database)

theorem total_eq : (settleCounts id db).total = (selectedUnits id db).length := by
  unfold selectedUnits settleCounts
  rw [← List.countP_eq_length_filter]
  refine List.countP_congr fun u _ => ?_
  rw [Bool.and_assoc]

theorem errored_eq : (settleCounts id db).errored =
    (selectedUnits id db).countP fun u => decide (u.status = .error) := by
  unfold selectedUnits settleCounts
  rw [List.countP_filter]
  refine List.countP_congr fun u _ => ?_
  -- a unit that failed is not removed
  by_cases herror : u.status = .error
  · simp [herror]
  · simp [herror]

theorem uncommitted_eq : (settleCounts id db).uncommitted =
    (selectedUnits id db).countP fun u => u.committedAt.isNone := by
  unfold selectedUnits settleCounts
  rw [List.countP_filter]
  refine List.countP_congr fun u _ => ?_
  simp only [Bool.and_eq_true]
  tauto

/-! ### The comparison of the counts -/

/-- The failed units are those that never committed, and those that are flagged. -/
theorem errored_split (us : List SyncUnit) : us.countP (fun u => decide (u.status = .error)) =
    us.countP (fun u => u.committedAt.isNone && decide (u.status = .error)) +
      us.countP flagged := by
  induction us with
  | nil => rfl
  | cons u us ih =>
    have hunit : flagged u = (!u.committedAt.isNone && decide (u.status = .error)) := by
      unfold flagged
      cases u.committedAt <;> rfl
    simp only [List.countP_cons, ih, hunit]
    cases u.committedAt.isNone <;> cases decide (u.status = .error) <;> simp <;> omega

/-- The uncommitted units are those that failed, and those that are underway. -/
theorem uncommitted_split (us : List SyncUnit) : us.countP (fun u => u.committedAt.isNone) =
    us.countP (fun u => u.committedAt.isNone && decide (u.status = .error)) +
      us.countP underway := by
  induction us with
  | nil => rfl
  | cons u us ih =>
    have hunit : underway u = (u.committedAt.isNone && !decide (u.status = .error)) := by
      unfold underway
      rw [decide_not]
    simp only [List.countP_cons, ih, hunit]
    cases u.committedAt.isNone <;> cases decide (u.status = .error) <;> simp <;> omega

/-- The uncommitted units outnumber the failed ones exactly if more units are underway than are
flagged. -/
theorem errored_lt_uncommitted_iff (us : List SyncUnit) :
    us.countP (fun u => decide (u.status = .error)) < us.countP (fun u => u.committedAt.isNone) ↔
      us.countP flagged < us.countP underway := by
  rw [errored_split, uncommitted_split]
  omega

theorem allErrored_iff (us : List SyncUnit) :
    us.countP (fun u => decide (u.status = .error)) = us.length ↔ ∀ u ∈ us, u.status = .error := by
  rw [List.countP_eq_length]
  simp only [decide_eq_true_eq]

theorem someErrored_iff (us : List SyncUnit) :
    0 < us.countP (fun u => decide (u.status = .error)) ↔ ∃ u ∈ us, u.status = .error := by
  rw [List.countP_pos_iff]
  simp only [decide_eq_true_eq]

theorem someInFlight_iff (us : List SyncUnit) :
    0 < us.countP underway ↔ ∃ u ∈ us, u.committedAt = none ∧ u.status ≠ .error := by
  rw [List.countP_pos_iff]
  simp only [underway, Bool.and_eq_true, Option.isNone_iff_eq_none, decide_eq_true_eq]

/-! ### The rollup -/

/-- **The rollup is the documented one exactly if no unit is underway, or more units are underway
than are flagged.** -/
theorem settleStatus_documented_iff :
    settleStatus (settleCounts id db).total (settleCounts id db).errored
        (settleCounts id db).uncommitted = documentedStatus (selectedUnits id db) ↔
      (selectedUnits id db).countP underway = 0 ∨
        (selectedUnits id db).countP flagged < (selectedUnits id db).countP underway := by
  rw [total_eq, errored_eq, uncommitted_eq]
  generalize selectedUnits id db = us
  have hflagged : us.countP flagged ≤ us.countP fun u => decide (u.status = .error) := by
    rw [errored_split]
    exact Nat.le_add_left _ _
  unfold settleStatus documentedStatus
  by_cases hempty : us = []
  · rw [if_pos (List.length_eq_zero_iff.mpr hempty), if_pos hempty]
    simp [hempty]
  · rw [if_neg (mt List.length_eq_zero_iff.mp hempty), if_neg hempty]
    by_cases hall : ∀ u ∈ us, u.status = .error
    · -- a unit underway has not failed
      have hnone : us.countP underway = 0 := by
        refine List.countP_eq_zero.mpr fun u hu => ?_
        simp [underway, hall u hu]
      rw [if_pos ((allErrored_iff us).mpr hall), if_pos hall]
      simp [hnone]
    · rw [if_neg (mt (allErrored_iff us).mp hall), if_neg hall]
      by_cases hflight : 0 < us.countP underway
      · rw [if_pos ((someInFlight_iff us).mp hflight)]
        by_cases hmore : us.countP flagged < us.countP underway
        · rw [if_pos ((errored_lt_uncommitted_iff us).mpr hmore)]
          simp [hmore]
        · -- as many units are flagged, so one has failed
          have herror : 0 < us.countP fun u => decide (u.status = .error) := by omega
          rw [if_neg (mt (errored_lt_uncommitted_iff us).mp hmore), if_pos herror]
          constructor
          · intro h
            cases h
          · intro h
            omega
      · have hzero : us.countP underway = 0 := by omega
        have hnot : ¬ us.countP flagged < us.countP underway := by omega
        rw [if_neg (mt (errored_lt_uncommitted_iff us).mp hnot),
          if_neg (mt (someInFlight_iff us).mpr hflight)]
        by_cases herror : ∃ u ∈ us, u.status = .error
        · rw [if_pos ((someErrored_iff us).mpr herror), if_pos herror]
          simp [hzero]
        · rw [if_neg (mt (someErrored_iff us).mp herror), if_neg herror]
          simp [hzero]

/-! ### One unit underway and one flagged -/

/-- Of two selected repositories one has committed and then failed, and the other one is in the
midst of its first backfill. -/
def oneFlagged : Database :=
  Database.setUnitRetry 9 0 "ann/a" "status 502" 99 (Database.commitUnit 5 0 "ann/a"
    (Database.setUnitSelection 0 0 ["ann/a", "ann/b"] (sawRepo 1 "ann/b"
      (sawRepo 1 "ann/a" emptyAccount))))

/-- **A connection that is still backfilling is reported as connected.** -/
theorem backfill_reported_connected :
    settleStatus (settleCounts 0 oneFlagged).total (settleCounts 0 oneFlagged).errored
        (settleCounts 0 oneFlagged).uncommitted = .connectedWarnings ∧
      documentedStatus (selectedUnits 0 oneFlagged) = .backfilling := by
  decide +kernel

end Hivebook
