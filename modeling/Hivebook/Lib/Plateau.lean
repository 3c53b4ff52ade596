import Mathlib.Data.Set.Finite.Lattice
import Mathlib.Order.Monotone.Basic
import Mathlib.Order.MinMax

/-!
# Draining a listing by pages, with a mark

A listing is read in calls, each from a mark on, page by page.  The items have positions, and
any number of them may share one.  A call reads up to its last page.  Past a budget of pages it
stops as soon as it has read an item past its mark, and at a cap it stops in any case.  The next
call has its mark at the furthest position that was read.

At a mark such that no page up to the cap is the last, and none has an item past the mark, a call
reads all these pages and leaves the mark where it was, as does every later one.  Every other
call ends the drain or moves the mark.

## Main definitions

* `furthest` — the furthest position of a mark and of items that were read.
* `Sheet`, `Paging` — a page of a listing, and how a listing is read.
* `Paging.call` — one call; `Paging.Stuck` — it can neither end the drain nor move the mark.

## Main results

* `Paging.call_of_stuck`, `Paging.moves_of_not_stuck` — what a call does, stuck or not.
* `exists_done_iff_never_stuck` — **repeated calls come to an end exactly when none is stuck.**
-/

namespace Hivebook

variable {α : Type} [LinearOrder α]

/-! ### The mark -/

/-- The furthest position of a mark and of items that were read. -/
def furthest (mark : α) (positions : List α) : α := positions.foldl max mark

@[simp] theorem furthest_nil (mark : α) : furthest mark [] = mark := rfl

@[simp] theorem furthest_cons (mark p : α) (positions : List α) :
    furthest mark (p :: positions) = furthest (max mark p) positions := rfl

/-- The mark is no further than a bound exactly when it was not, and no item is. -/
theorem furthest_le_iff {mark bound : α} {positions : List α} :
    furthest mark positions ≤ bound ↔ mark ≤ bound ∧ ∀ p ∈ positions, p ≤ bound := by
  induction positions generalizing mark with
  | nil => simp
  | cons p positions ih =>
    rw [furthest_cons, ih, max_le_iff, List.forall_mem_cons]
    exact and_assoc

theorem le_furthest (mark : α) (positions : List α) : mark ≤ furthest mark positions :=
  (furthest_le_iff.mp le_rfl).1

theorem furthest_eq_self_iff {mark : α} {positions : List α} :
    furthest mark positions = mark ↔ ∀ p ∈ positions, p ≤ mark := by
  constructor
  · intro h
    exact (furthest_le_iff.mp h.le).2
  · intro h
    exact le_antisymm (furthest_le_iff.mpr ⟨le_rfl, h⟩) (le_furthest mark positions)

/-- The mark is where it was, or at an item. -/
theorem furthest_mem (mark : α) (positions : List α) :
    furthest mark positions = mark ∨ furthest mark positions ∈ positions := by
  induction positions generalizing mark with
  | nil => exact .inl rfl
  | cons p positions ih =>
    rw [furthest_cons]
    rcases ih (max mark p) with h | h
    · rw [h]
      rcases max_choice mark p with hmax | hmax
      · exact .inl hmax
      · rw [hmax]
        exact .inr (List.mem_cons_self ..)
    · exact .inr (List.mem_cons_of_mem _ h)

/-! ### The calls -/

/-- A page of a listing: the positions of its items, and whether it is the last. -/
structure Sheet (α : Type) where
  positions : List α
  last : Bool

/-- How a listing is read: the pages of a call, its budget of pages, and its cap. -/
structure Paging (α : Type) where
  budget : ℕ
  cap : ℕ
  sheet : α → ℕ → Sheet α

namespace Paging

variable (P : Paging α)

/-- A call from a page on, and so many pages at most: whether it has read the last page, and
the positions it has read. -/
def pages (start mark : α) : (page remaining : ℕ) → Bool × List α
  | _, 0 => (false, [])
  | page, remaining + 1 =>
      let s := P.sheet start page
      let mark := furthest mark s.positions
      if s.last then (true, s.positions)
      else if P.budget ≤ page + 1 ∧ mark ≠ start then (false, s.positions)
      else
        let r := pages start mark (page + 1) remaining
        (r.1, s.positions ++ r.2)

/-- A call from a mark on. -/
def call (start : α) : Bool × List α := P.pages start start 0 P.cap

/-- No page up to the cap is the last, and none has an item past the mark. -/
def Stuck (start : α) : Prop :=
  ∀ page < P.cap, (P.sheet start page).last = false ∧
    ∀ p ∈ (P.sheet start page).positions, p ≤ start

variable {P}

theorem pages_succ (start mark : α) (page remaining : ℕ) :
    P.pages start mark page (remaining + 1) =
      if (P.sheet start page).last then (true, (P.sheet start page).positions)
      else if P.budget ≤ page + 1 ∧ furthest mark (P.sheet start page).positions ≠ start then
        (false, (P.sheet start page).positions)
      else
        let r := P.pages start (furthest mark (P.sheet start page).positions) (page + 1) remaining
        (r.1, (P.sheet start page).positions ++ r.2) :=
  rfl

/-- Pages of which none is the last, and that have no item past a bound. -/
theorem pages_of_bounded {start mark bound : α} {page remaining : ℕ}
    (h : ∀ k, page ≤ k → k < page + remaining → (P.sheet start k).last = false ∧
      ∀ p ∈ (P.sheet start k).positions, p ≤ bound) :
    (P.pages start mark page remaining).1 = false ∧
      ∀ p ∈ (P.pages start mark page remaining).2, p ≤ bound := by
  induction remaining generalizing mark page with
  | zero => exact ⟨rfl, fun p hp => absurd hp List.not_mem_nil⟩
  | succ n ih =>
    obtain ⟨hlast, hpositions⟩ := h page le_rfl (by omega)
    rw [pages_succ, if_neg (by rw [hlast]; exact Bool.false_ne_true)]
    by_cases hstop : P.budget ≤ page + 1 ∧ furthest mark (P.sheet start page).positions ≠ start
    · rw [if_pos hstop]
      exact ⟨rfl, hpositions⟩
    · rw [if_neg hstop]
      obtain ⟨hdone, hrest⟩ := @ih (furthest mark (P.sheet start page).positions) (page + 1)
        fun k hk hkn => h k (by omega) (by omega)
      refine ⟨hdone, fun p hp => ?_⟩
      rcases List.mem_append.mp hp with hp | hp
      · exact hpositions p hp
      · exact hrest p hp

/-- A call up to the cap of such pages. -/
theorem call_of_bounded {start bound : α} (h : ∀ k < P.cap, (P.sheet start k).last = false ∧
    ∀ p ∈ (P.sheet start k).positions, p ≤ bound) :
    (P.call start).1 = false ∧ ∀ p ∈ (P.call start).2, p ≤ bound := by
  have hpages : ∀ k, 0 ≤ k → k < 0 + P.cap → (P.sheet start k).last = false ∧
      ∀ p ∈ (P.sheet start k).positions, p ≤ bound := by
    intro k _ hk
    rw [Nat.zero_add] at hk
    exact h k hk
  exact pages_of_bounded hpages

/-- A call that has not read the last page has read an item past its mark, or every page up to
the cap, and none of these had one. -/
theorem pages_moves {start : α} {page remaining : ℕ}
    (h : (P.pages start start page remaining).1 = false) :
    (∃ p ∈ (P.pages start start page remaining).2, start < p) ∨
      ∀ k, page ≤ k → k < page + remaining → (P.sheet start k).last = false ∧
        ∀ p ∈ (P.sheet start k).positions, p ≤ start := by
  induction remaining generalizing page with
  | zero => exact .inr fun k hk hk' => absurd hk' (by omega)
  | succ n ih =>
    rw [pages_succ] at h ⊢
    by_cases hlast : (P.sheet start page).last = true
    · rw [if_pos hlast] at h
      cases h
    · rw [if_neg hlast] at h ⊢
      by_cases hpositions : ∀ p ∈ (P.sheet start page).positions, p ≤ start
      · rw [furthest_eq_self_iff.mpr hpositions] at h ⊢
        rw [if_neg (fun hstop => hstop.2 rfl)] at h ⊢
        rcases ih h with ⟨p, hp, hlt⟩ | hrest
        · exact .inl ⟨p, List.mem_append_right _ hp, hlt⟩
        · refine .inr fun k hk hk' => ?_
          rcases Nat.eq_or_lt_of_le hk with rfl | hk
          · exact ⟨Bool.eq_false_iff.mpr hlast, hpositions⟩
          · exact hrest k hk (by omega)
      · -- this page has an item past the mark
        push Not at hpositions
        obtain ⟨p, hp, hlt⟩ := hpositions
        refine .inl ⟨p, ?_, hlt⟩
        by_cases hstop : P.budget ≤ page + 1 ∧
            furthest start (P.sheet start page).positions ≠ start
        · rw [if_pos hstop]
          exact hp
        · rw [if_neg hstop]
          exact List.mem_append_left _ hp

/-- What was read was on a page. -/
theorem mem_sheet_of_mem_pages {start mark p : α} {page remaining : ℕ}
    (h : p ∈ (P.pages start mark page remaining).2) :
    ∃ k, p ∈ (P.sheet start k).positions := by
  induction remaining generalizing mark page with
  | zero => exact absurd h List.not_mem_nil
  | succ n ih =>
    rw [pages_succ] at h
    by_cases hlast : (P.sheet start page).last = true
    · rw [if_pos hlast] at h
      exact ⟨page, h⟩
    · rw [if_neg hlast] at h
      by_cases hstop : P.budget ≤ page + 1 ∧ furthest mark (P.sheet start page).positions ≠ start
      · rw [if_pos hstop] at h
        exact ⟨page, h⟩
      · rw [if_neg hstop] at h
        rcases List.mem_append.mp h with h | h
        · exact ⟨page, h⟩
        · exact ih h

/-- **A stuck call does not end the drain, and leaves the mark where it was.** -/
theorem call_of_stuck {start : α} (h : P.Stuck start) :
    (P.call start).1 = false ∧ furthest start (P.call start).2 = start := by
  have hcall := call_of_bounded h
  exact ⟨hcall.1, furthest_eq_self_iff.mpr hcall.2⟩

/-- **A call that is not stuck ends the drain, or moves the mark to an item.** -/
theorem moves_of_not_stuck {start : α} (h : ¬ P.Stuck start) (hdone : (P.call start).1 = false) :
    start < furthest start (P.call start).2 ∧
      ∃ k, furthest start (P.call start).2 ∈ (P.sheet start k).positions := by
  have hlt : start < furthest start (P.call start).2 := by
    rcases pages_moves hdone with ⟨p, hp, hlt⟩ | hstuck
    · exact hlt.trans_le ((furthest_le_iff.mp le_rfl).2 p hp)
    · exact absurd (fun k hk => hstuck k (Nat.zero_le k) (by rwa [Nat.zero_add])) h
  refine ⟨hlt, ?_⟩
  rcases furthest_mem start (P.call start).2 with hself | hmem
  · exact absurd hself hlt.ne'
  · exact mem_sheet_of_mem_pages hmem

end Paging

/-! ### Repeated calls -/

/-- Calls that are repeated until one ends the drain come to the `n`-th. -/
def Arrives {β : Type} (done : β → Prop) (next : β → β) (first : β) (n : ℕ) : Prop :=
  ∀ m < n, ¬ done (next^[m] first)

/-- A stuck call is repeated for ever. -/
theorem stays_of_stuck {β : Type} {done stuck : β → Prop} {next : β → β} {first : β}
    (hstuck : ∀ n, Arrives done next first n → stuck (next^[n] first) →
      ¬ done (next^[n] first) ∧ next (next^[n] first) = next^[n] first) {n : ℕ}
    (hn : Arrives done next first n) (hat : stuck (next^[n] first)) (k : ℕ) :
    Arrives done next first (n + k) ∧ next^[n + k] first = next^[n] first := by
  induction k with
  | zero => exact ⟨hn, rfl⟩
  | succ k ih =>
    obtain ⟨harrives, heq⟩ := ih
    have hstep := hstuck (n + k) harrives (by rw [heq]; exact hat)
    constructor
    · intro m hm
      rcases Nat.lt_succ_iff_lt_or_eq.mp hm with hm | rfl
      · exact harrives m hm
      · exact hstep.1
    · rw [← Nat.add_assoc, Function.iterate_succ_apply', hstep.2, heq]

/-- **Repeated calls come to an end exactly when none is stuck**, if a stuck call is repeated as
it was and any other one ends the drain or moves to a greater one of finitely many marks. -/
theorem exists_done_iff_never_stuck {done stuck : α → Prop} {next : α → α} {first : α} {S : Set α}
    (hS : S.Finite)
    (hstuck : ∀ n, Arrives done next first n → stuck (next^[n] first) →
      ¬ done (next^[n] first) ∧ next (next^[n] first) = next^[n] first)
    (hmoves : ∀ n, Arrives done next first n → ¬ stuck (next^[n] first) →
      ¬ done (next^[n] first) →
        next^[n] first < next (next^[n] first) ∧ next (next^[n] first) ∈ S) :
    (∃ n, done (next^[n] first)) ↔
      ∀ n, Arrives done next first n → ¬ stuck (next^[n] first) := by
  constructor
  · rintro ⟨m, hm⟩ n hn hat
    have hle : n ≤ m := by
      by_contra hlt
      exact hn m (by omega) hm
    obtain ⟨k, rfl⟩ := Nat.exists_eq_add_of_le hle
    obtain ⟨harrives, heq⟩ := stays_of_stuck hstuck hn hat k
    exact (hstuck (n + k) harrives (by rw [heq]; exact hat)).1 hm
  · intro hnever
    by_contra hnone
    have harrives : ∀ n, Arrives done next first n := fun n m _ hm => hnone ⟨m, hm⟩
    have hstep : ∀ n, next^[n] first < next^[n + 1] first ∧ next^[n + 1] first ∈ S := by
      intro n
      rw [Function.iterate_succ_apply']
      exact hmoves n (harrives n) (hnever n (harrives n)) fun hm => hnone ⟨n, hm⟩
    have hmono : StrictMono fun n => next^[n + 1] first :=
      strictMono_nat_of_lt_succ fun n => (hstep (n + 1)).1
    refine Set.infinite_range_of_injective hmono.injective (hS.subset ?_)
    rintro _ ⟨n, rfl⟩
    exact (hstep n).2

end Hivebook
