import Mathlib.Algebra.BigOperators.Group.List.Basic
import Mathlib.Algebra.GroupWithZero.Nat
import Mathlib.Data.List.Dedup
import Mathlib.Logic.Function.Basic
import Mathlib.Tactic.Common

/-!
# Grouped rows

A query with `GROUP BY` has one row for each key, and a gauge with labels has one series for each
key that was set.

* `Grouping.groupBy`, `Grouping.setAll` — the rows of a grouped query, and the series of a gauge
  after the rows were set; `setAll_groupBy` says what the gauge shows of a key.
* `Grouping.sum_countP_comm` — pairs are counted from either side.
* `Grouping.countP_split` — a count, with and without a second condition.
-/

namespace Hivebook
namespace Grouping

variable {α β κ : Type}

/-! ### Series -/

section

variable [DecidableEq κ]

/-- `GROUP BY`: the key of every group, and what is aggregated from its rows. -/
def groupBy (key : α → κ) (agg : List α → β) (rows : List α) : List (κ × β) :=
  (rows.map key).dedup.map fun k => (k, agg (rows.filter fun a => decide (key a = k)))

/-- The series of a gauge after every row was set. -/
def setAll (rows : List (κ × β)) (series : κ → Option β) : κ → Option β :=
  rows.foldl (fun series r => Function.update series r.1 (some r.2)) series

@[simp] theorem setAll_nil (series : κ → Option β) : setAll [] series = series := rfl

@[simp] theorem setAll_cons (r : κ × β) (rows : List (κ × β)) (series : κ → Option β) :
    setAll (r :: rows) series = setAll rows (Function.update series r.1 (some r.2)) := rfl

/-- Rows that are a function of their keys. -/
theorem setAll_map (f : κ → β) (ks : List κ) (series : κ → Option β) (k : κ) :
    setAll (ks.map fun k => (k, f k)) series k = if k ∈ ks then some (f k) else series k := by
  induction ks generalizing series with
  | nil => simp
  | cons k' ks ih =>
    rw [List.map_cons, setAll_cons, ih]
    by_cases hmem : k ∈ ks
    · simp [hmem]
    · by_cases heq : k = k'
      · subst heq
        simp [hmem]
      · simp [hmem, heq]

theorem setAll_groupBy (key : α → κ) (agg : List α → β) (rows : List α) (series : κ → Option β)
    (k : κ) : setAll (groupBy key agg rows) series k =
      if k ∈ rows.map key then some (agg (rows.filter fun a => decide (key a = k)))
      else series k := by
  unfold groupBy
  rw [setAll_map (fun k => agg (rows.filter fun a => decide (key a = k)))]
  simp only [List.mem_dedup]

/-- A key that is not shown counts as zero. -/
theorem setAll_groupBy_length (key : α → κ) (rows : List α) (k : κ) :
    (setAll (groupBy key List.length rows) (fun _ => none) k).getD 0 =
      rows.countP fun a => decide (key a = k) := by
  rw [setAll_groupBy, List.countP_eq_length_filter]
  split
  · rfl
  · rename_i hnone
    have hfilter : (rows.filter fun a => decide (key a = k)) = [] := by
      apply List.filter_eq_nil_iff.mpr
      intro a ha hk
      exact hnone (List.mem_map.mpr ⟨a, ha, of_decide_eq_true hk⟩)
    rw [hfilter]
    rfl

end

/-! ### Counts -/

/-- A count, with and without a second condition. -/
theorem countP_split (p q : α → Bool) (l : List α) :
    l.countP p = (l.countP fun a => p a && q a) + l.countP fun a => p a && !q a := by
  induction l with
  | nil => rfl
  | cons a l ih =>
    simp only [List.countP_cons, ih]
    cases p a <;> cases q a <;> simp <;> omega

theorem countP_eq_sum (p : α → Bool) (l : List α) :
    l.countP p = (l.map fun a => if p a then 1 else 0).sum := by
  induction l with
  | nil => rfl
  | cons a l ih => rw [List.countP_cons, ih, List.map_cons, List.sum_cons, Nat.add_comm]

/-- Pairs are counted from either side. -/
theorem sum_countP_comm (q : α → β → Bool) (as : List α) (bs : List β) :
    (as.map fun a => bs.countP (q a)).sum = (bs.map fun b => as.countP fun a => q a b).sum := by
  induction as with
  | nil => simp
  | cons a as ih =>
    simp only [List.map_cons, List.sum_cons, ih, List.countP_cons, List.sum_map_add]
    rw [countP_eq_sum (q a), Nat.add_comm]

end Grouping
end Hivebook
