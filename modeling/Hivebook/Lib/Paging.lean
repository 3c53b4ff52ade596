import Mathlib.Data.List.Perm.Basic
import Mathlib.Data.List.Sort
import Mathlib.Tactic.Common

/-!
# Paging through rows in an order with ties

Rows are read in pages of a fixed size, each page by a query of its own that has the rows in the
order of a key, the greatest first.  Rows with equal keys stand in any order, and in another one
the next time.  Nothing is lost or repeated exactly when the rows of a key stand on one page.

## Main definitions

* `Paging.NewestFirst` — an order of the rows that a query may have.
* `Paging.page` — the rows of a page.
* `Paging.Together` — the rows of a key stand on one page.

## Main results

* `Paging.pages_perm` — rows that stand together are read once each.
* `Paging.getElem?_before`, `Paging.before_append` — where the keys differ a row has one place, and
  rows that are added only move it back.
* `Paging.together_of_pages` — **if no order repeats a row, they stand together.**
-/

namespace Hivebook
namespace Paging

variable {α κ : Type} [LinearOrder κ] (key : α → κ)

/-- An order of the rows that a query may have: the greatest key first, equal keys in any order. -/
structure NewestFirst (rows s : List α) : Prop where
  perm : s.Perm rows
  sorted : s.Pairwise fun a b => key b ≤ key a

/-- The rows of page `k`. -/
def page (l k : ℕ) (s : List α) : List α := (s.drop (k * l)).take l

/-- How many rows have a greater key. -/
def before (rows : List α) (a : α) : ℕ := rows.countP fun b => decide (key a < key b)

/-- How many rows have a greater key or the same. -/
def upTo (rows : List α) (a : α) : ℕ := rows.countP fun b => decide (key a ≤ key b)

/-- The first and the last row of a key stand on one page, for every key. -/
def Together (l : ℕ) (rows : List α) : Prop :=
  ∀ a ∈ rows, before key rows a / l = (upTo key rows a - 1) / l

instance (l : ℕ) (rows : List α) : Decidable (Together key l rows) :=
  inferInstanceAs (Decidable (∀ a ∈ rows, before key rows a / l = (upTo key rows a - 1) / l))

variable {key} {l : ℕ} {rows s s' : List α}

/-! ### The places of a key -/

/-- In such an order the rows of a set that is closed under greater keys come first. -/
theorem lt_countP_iff (hs : s.Pairwise fun a b => key b ≤ key a) {p : α → Bool}
    (hp : ∀ a b, key a ≤ key b → p a = true → p b = true) {i : ℕ} (hi : i < s.length) :
    i < s.countP p ↔ p (s[i]) = true := by
  induction s generalizing i with
  | nil => simp at hi
  | cons a s ih =>
    obtain ⟨hle, hs⟩ := List.pairwise_cons.mp hs
    by_cases ha : p a = true
    · cases i with
      | zero => simp [ha]
      | succ i =>
        have hi' : i < s.length := by simpa using hi
        simpa [ha] using ih hs hi'
    · -- nothing behind a row outside the set is in it
      have hnone : ∀ b ∈ s, ¬ p b = true := fun b hb h => ha (hp b a (hle b hb) h)
      have hzero : s.countP p = 0 := List.countP_eq_zero.mpr hnone
      have hnot : ¬ p ((a :: s)[i]) = true := by
        cases i with
        | zero => simpa using ha
        | succ i => exact hnone _ (by simp)
      simp [ha, hzero, hnot]

theorem filter_eq_take (hs : s.Pairwise fun a b => key b ≤ key a) {p : α → Bool}
    (hp : ∀ a b, key a ≤ key b → p a = true → p b = true) :
    s.filter p = s.take (s.countP p) := by
  induction s with
  | nil => rfl
  | cons a s ih =>
    obtain ⟨hle, hs⟩ := List.pairwise_cons.mp hs
    by_cases ha : p a = true
    · simp [ha, ih hs]
    · have hnone : ∀ b ∈ s, ¬ p b = true := fun b hb h => ha (hp b a (hle b hb) h)
      have hzero : s.countP p = 0 := List.countP_eq_zero.mpr hnone
      simpa [List.countP_cons, ha, hzero] using hnone

theorem before_iff (h : NewestFirst key rows s) {i : ℕ} (hi : i < s.length) (a : α) :
    i < before key rows a ↔ key a < key (s[i]) := by
  have hclosed : ∀ b c, key b ≤ key c → decide (key a < key b) = true →
      decide (key a < key c) = true := by
    intro b c hle hb
    simp only [decide_eq_true_eq] at hb ⊢
    exact lt_of_lt_of_le hb hle
  unfold before
  rw [← h.perm.countP_eq, lt_countP_iff h.sorted hclosed hi, decide_eq_true_eq]

theorem le_closed (a b c : α) (hle : key b ≤ key c) (hb : decide (key a ≤ key b) = true) :
    decide (key a ≤ key c) = true := by
  simp only [decide_eq_true_eq] at hb ⊢
  exact le_trans hb hle

theorem upTo_iff (h : NewestFirst key rows s) {i : ℕ} (hi : i < s.length) (a : α) :
    i < upTo key rows a ↔ key a ≤ key (s[i]) := by
  unfold upTo
  rw [← h.perm.countP_eq, lt_countP_iff h.sorted (le_closed a) hi, decide_eq_true_eq]

variable (key) in
theorem upTo_le (rows : List α) (a : α) : upTo key rows a ≤ rows.length := List.countP_le_length

variable (key) in
theorem before_lt_upTo {a : α} (ha : a ∈ rows) : before key rows a < upTo key rows a := by
  obtain ⟨pre, post, rfl⟩ := List.append_of_mem ha
  have hmono : ∀ t : List α, t.countP (fun b => decide (key a < key b)) ≤
      t.countP fun b => decide (key a ≤ key b) := by
    intro t
    apply List.countP_mono_left
    intro b _ hb
    simp only [decide_eq_true_eq] at hb ⊢
    exact hb.le
  have hpre := hmono pre
  have hpost := hmono post
  simp only [before, upTo, List.countP_append, List.countP_cons, lt_irrefl, decide_false, le_refl,
    decide_true, if_true]
  simp only [Bool.false_eq_true, if_false]
  omega

/-! ### Rows with keys of their own -/

/-- Where the keys differ, a row stands right behind the rows with a greater key. -/
theorem getElem?_before (h : NewestFirst key rows s) (hnodup : (rows.map key).Nodup) {a : α}
    (ha : a ∈ rows) : s[before key rows a]? = some a := by
  obtain ⟨i, hi, rfl⟩ := List.mem_iff_getElem.mp (h.perm.mem_iff.mpr ha)
  have hle : before key rows s[i] ≤ i := by
    by_contra hlt
    exact lt_irrefl _ ((before_iff h hi s[i]).mp (not_le.mp hlt))
  have heq : before key rows s[i] = i := by
    by_contra hne
    have hlt : before key rows s[i] < i := lt_of_le_of_ne hle hne
    have hj : before key rows s[i] < s.length := hlt.trans hi
    have hsorted := List.pairwise_iff_getElem.mp h.sorted _ _ hj hi hlt
    have hnot : ¬ key s[i] < key s[before key rows s[i]] := fun hbefore =>
      lt_irrefl _ ((before_iff h hj s[i]).mpr hbefore)
    have hkeys : (s.map key).Nodup := (h.perm.map key).nodup_iff.mpr hnodup
    have hplace : before key rows s[i] < (s.map key).length := by simpa using hj
    have hrow : i < (s.map key).length := by simpa using hi
    have hsame : (s.map key)[before key rows s[i]] = (s.map key)[i] := by
      simpa using le_antisymm (not_lt.mp hnot) hsorted
    exact hne (hkeys.getElem_inj_iff.mp hsame)
  rw [heq]
  exact List.getElem?_eq_getElem hi

/-- A row is on the page that its place is on. -/
theorem mem_slice (h : NewestFirst key rows s) (hnodup : (rows.map key).Nodup) {a : α}
    (ha : a ∈ rows) {o : ℕ} (hle : o ≤ before key rows a) (hlt : before key rows a < o + l) :
    a ∈ (s.drop o).take l := by
  have hget : ((s.drop o).take l)[before key rows a - o]? = some a := by
    rw [List.getElem?_take_of_lt (by omega), List.getElem?_drop, Nat.add_sub_cancel' hle]
    exact getElem?_before h hnodup ha
  exact List.mem_of_getElem? hget

variable (key) in
/-- Rows that are added move a row back, if at all. -/
theorem before_append (rows new : List α) (a : α) :
    before key rows a ≤ before key (rows ++ new) a := by
  unfold before
  rw [List.countP_append]
  exact Nat.le_add_right _ _

/-! ### Rows that stand together -/

/-- Where no key is split, two orders have the same rows before a page. -/
theorem Together.take_perm (ht : Together key l rows) (h : NewestFirst key rows s)
    (h' : NewestFirst key rows s') (k : ℕ) : (s.take (k * l)).Perm (s'.take (k * l)) := by
  have hlen : s.length = rows.length := h.perm.length_eq
  have hlen' : s'.length = rows.length := h'.perm.length_eq
  by_cases hend : rows.length ≤ k * l
  · rw [List.take_of_length_le (by omega), List.take_of_length_le (by omega)]
    exact h.perm.trans h'.perm.symm
  by_cases hzero : k * l = 0
  · rw [hzero]
    simp
  -- the last row before the page is the last of its key
  have hi : k * l - 1 < s.length := by omega
  have hmem : s[k * l - 1] ∈ rows := h.perm.mem_iff.mp (List.getElem_mem hi)
  have hbefore : ¬ k * l - 1 < before key rows (s[k * l - 1]) := by
    rw [before_iff h hi]
    exact lt_irrefl _
  have hupTo : k * l - 1 < upTo key rows (s[k * l - 1]) := (upTo_iff h hi _).mpr le_rfl
  have hpos : 0 < l := Nat.pos_of_ne_zero fun hl => hzero (by simp [hl])
  have hlast : upTo key rows (s[k * l - 1]) = k * l := by
    by_contra hne
    have hk : k ≤ (upTo key rows (s[k * l - 1]) - 1) / l :=
      (Nat.le_div_iff_mul_le hpos).mpr (by omega)
    rw [← ht _ hmem, Nat.le_div_iff_mul_le hpos] at hk
    omega
  have hs := filter_eq_take h.sorted (le_closed (s[k * l - 1]))
  have hs' := filter_eq_take h'.sorted (le_closed (s[k * l - 1]))
  rw [h.perm.countP_eq] at hs
  rw [h'.perm.countP_eq] at hs'
  change _ = s.take (upTo key rows (s[k * l - 1])) at hs
  change _ = s'.take (upTo key rows (s[k * l - 1])) at hs'
  rw [hlast] at hs hs'
  rw [← hs, ← hs']
  exact (h.perm.trans h'.perm.symm).filter _

theorem take_succ_mul (l k : ℕ) (s : List α) :
    s.take ((k + 1) * l) = s.take (k * l) ++ page l k s := by
  rw [Nat.add_mul, Nat.one_mul, List.take_add]
  rfl

theorem flatMap_page (l m : ℕ) (s : List α) :
    ((List.range m).flatMap fun k => page l k s) = s.take (m * l) := by
  induction m with
  | zero => simp
  | succ m ih =>
    rw [List.range_succ, List.flatMap_append, ih, take_succ_mul, List.flatMap_singleton]

theorem Together.page_perm (ht : Together key l rows) (h : NewestFirst key rows s)
    (h' : NewestFirst key rows s') (k : ℕ) : (page l k s).Perm (page l k s') := by
  have htake := ht.take_perm h h' k
  have hsucc := ht.take_perm h h' (k + 1)
  rw [take_succ_mul, take_succ_mul] at hsucc
  exact (List.perm_append_left_iff _).mp (hsucc.trans (htake.symm.append_right _))

/-- Rows that stand together are read once each, whatever order each query has. -/
theorem pages_perm (ht : Together key l rows) {order : ℕ → List α}
    (h : ∀ k, NewestFirst key rows (order k)) {m : ℕ} (hm : rows.length ≤ m * l) :
    ((List.range m).flatMap fun k => page l k (order k)).Perm rows := by
  have hpages : ((List.range m).flatMap fun k => page l k (order k)).Perm
      ((List.range m).flatMap fun k => page l k (order 0)) :=
    List.Perm.flatMap_left _ fun k _ => ht.page_perm (h k) (h 0) k
  have hall : (order 0).take (m * l) = order 0 :=
    List.take_of_length_le ((h 0).perm.length_eq.trans_le hm)
  rw [flatMap_page, hall] at hpages
  exact hpages.trans (h 0).perm

/-! ### Rows that do not -/

/-- Two neighbours with one key may stand the other way round. -/
theorem NewestFirst.swap {pre post : List α} {x y : α}
    (h : NewestFirst key rows (pre ++ x :: y :: post)) (hxy : key x = key y) :
    NewestFirst key rows (pre ++ y :: x :: post) := by
  refine ⟨((List.Perm.swap x y post).append_left pre).trans h.perm, ?_⟩
  have hs := h.sorted
  simp only [List.pairwise_append, List.pairwise_cons, List.mem_cons, forall_eq_or_imp] at hs ⊢
  obtain ⟨hpre, ⟨⟨hyx, hxpost⟩, hypost, hpost⟩, hacross⟩ := hs
  refine ⟨hpre, ⟨⟨hxy.le, hypost⟩, hxpost, hpost⟩, ?_⟩
  intro a ha
  obtain ⟨hx, hy, hrest⟩ := hacross a ha
  exact ⟨hy, hx, hrest⟩

variable (key) in
/-- There is such an order of any rows. -/
theorem newestFirst_insertionSort (rows : List α) :
    NewestFirst key rows (rows.insertionSort fun a b => key b ≤ key a) := by
  refine ⟨List.perm_insertionSort _ _, ?_⟩
  have : Std.Total fun a b : α => key b ≤ key a := ⟨fun a b => le_total (key b) (key a)⟩
  have : IsTrans α fun a b => key b ≤ key a := ⟨fun _ _ _ hab hbc => hbc.trans hab⟩
  exact List.pairwise_insertionSort _ _

theorem mem_page {k : ℕ} {pre post : List α} {x : α} (hle : k * l ≤ pre.length)
    (hlt : pre.length < (k + 1) * l) : x ∈ page l k (pre ++ x :: post) := by
  obtain ⟨i, hi⟩ := Nat.exists_eq_add_of_le hle
  have hil : i < l := by
    rw [Nat.add_mul, Nat.one_mul] at hlt
    omega
  have hget : (page l k (pre ++ x :: post))[i]? = some x := by
    unfold page
    rw [List.getElem?_take_of_lt hil, List.getElem?_drop, ← hi]
    simp
  exact List.mem_of_getElem? hget

/-- Rows that do not stand together have an order with a page that ends between two rows of one
key. -/
theorem exists_edge (hl : 0 < l) (ht : ¬ Together key l rows) :
    ∃ i pre x y post, NewestFirst key rows (pre ++ x :: y :: post) ∧ key x = key y ∧
      pre.length + 1 = (i + 1) * l := by
  simp only [Together, not_forall] at ht
  obtain ⟨a, ha, hne⟩ := ht
  have hlt := before_lt_upTo key ha
  have hle : before key rows a / l ≤ (upTo key rows a - 1) / l := Nat.div_le_div_right (by omega)
  -- the page after the one on which the key of `a` begins, begins inside that key
  obtain ⟨i, hi⟩ : ∃ i, i = before key rows a / l := ⟨_, rfl⟩
  have hfirst : before key rows a < (i + 1) * l := by
    rw [hi, Nat.mul_comm]
    exact Nat.lt_mul_div_succ _ hl
  have hlast : (i + 1) * l ≤ upTo key rows a - 1 := (Nat.le_div_iff_mul_le hl).mp (by omega)
  obtain ⟨j, hj⟩ : ∃ j, j + 1 = (i + 1) * l := ⟨(i + 1) * l - 1, by omega⟩
  have hend := upTo_le key rows a
  have hs := newestFirst_insertionSort key rows
  generalize rows.insertionSort (fun a b => key b ≤ key a) = s at hs
  have hlen : s.length = rows.length := hs.perm.length_eq
  have hkey : ∀ n, (hn : n < s.length) → before key rows a ≤ n → n < upTo key rows a →
      key (s[n]) = key a := by
    intro n hn hb hu
    have hnot : ¬ key a < key (s[n]) := fun hlt => absurd ((before_iff hs hn a).mpr hlt) (by omega)
    exact le_antisymm (not_lt.mp hnot) ((upTo_iff hs hn a).mp hu)
  have hx : j < s.length := by omega
  have hy : j + 1 < s.length := by omega
  have hsplit : s.take j ++ s[j] :: s[j + 1] :: s.drop (j + 1 + 1) = s := by
    rw [← List.drop_eq_getElem_cons hy, ← List.drop_eq_getElem_cons hx, List.take_append_drop]
  refine ⟨i, s.take j, s[j], s[j + 1], s.drop (j + 1 + 1), ?_, ?_, ?_⟩
  · rw [hsplit]
    exact hs
  · rw [hkey j hx (by omega) (by omega), hkey (j + 1) hy (by omega) (by omega)]
  · rw [List.length_take, min_eq_left hx.le, hj]

/-- If no order repeats a row, they stand together: at the edge of a page inside a key, the row
before it may be the row behind it when the next page is read. -/
theorem together_of_pages (hl : 0 < l) {m : ℕ} (hm : rows.length ≤ m * l)
    (h : ∀ order : ℕ → List α, (∀ k, NewestFirst key rows (order k)) →
      ((List.range m).flatMap fun k => page l k (order k)).Nodup) : Together key l rows := by
  by_contra ht
  obtain ⟨i, pre, x, y, post, hs, hxy, hedge⟩ := exists_edge hl ht
  have hs' := hs.swap hxy
  have hlen : pre.length + 1 < rows.length := by
    have hlength := hs.perm.length_eq
    simp only [List.length_append, List.length_cons] at hlength
    omega
  have hi : i + 1 < m := by
    by_contra hle
    have := Nat.mul_le_mul_right l (not_lt.mp hle)
    omega
  -- every page up to the edge is read in one order, every other in the other one
  have hnodup := h (fun k => if k ≤ i then pre ++ x :: y :: post else pre ++ y :: x :: post) (by
    intro k
    split
    · exact hs
    · exact hs')
  rw [Nat.add_mul, Nat.one_mul] at hedge
  have hx : x ∈ page l i (pre ++ x :: y :: post) := by
    apply mem_page
    · omega
    · rw [Nat.add_mul, Nat.one_mul]
      omega
  have hx' : x ∈ page l (i + 1) ((pre ++ [y]) ++ x :: post) := by
    apply mem_page
    · simp only [List.length_append, List.length_singleton, Nat.add_mul, Nat.one_mul]
      omega
    · simp only [List.length_append, List.length_singleton, Nat.add_mul, Nat.one_mul]
      omega
  have hnot : ¬ i + 1 ≤ i := by omega
  rw [List.nodup_flatMap, List.pairwise_iff_getElem] at hnodup
  have hdisjoint := hnodup.2 i (i + 1) (by simpa using by omega) (by simpa using hi) (by omega)
  apply hdisjoint (a := x)
  · simpa using hx
  · simpa [hnot] using hx'

end Paging
end Hivebook
