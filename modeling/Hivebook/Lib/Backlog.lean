import Mathlib.Data.List.Sort

/-!
# A backlog worked off from its head

A backlog is worked off in batches: each looks at the first so many entries of a list, drops the
ones it is done with, and leaves the ones that are stuck where they are.  Entries behind so many
stuck ones are never looked at.

## Main definitions

* `Backlog.ahead` — the entries before one.
* `Backlog.Starved` — a whole batch of stuck entries stands before one.
* `Backlog.Reduced` — a backlog that was worked off for a while.

## Main results

* `Backlog.Reduced.mem_iff_starved` — **once the head of a backlog is stuck, the entries left over
  are those that are stuck and those that were starved from the start.**
* `Backlog.cleared_head` — a head that was cleared leaves only the stuck, or the backlog shorter by
  the room they leave of a batch.
* `Backlog.insertionSort_filter` — the order of a backlog does not depend on what was dropped.
-/

namespace Hivebook
namespace Backlog

variable {α : Type} [DecidableEq α] {n : ℕ} {stuck : α → Bool} {q q' : List α} {a : α}

/-- The entries before one. -/
def ahead (q : List α) (a : α) : List α := q.takeWhile fun b => decide (b ≠ a)

/-- A whole batch of stuck entries stands before this one. -/
def Starved (n : ℕ) (stuck : α → Bool) (q : List α) (a : α) : Prop :=
  n ≤ (ahead q a).countP stuck

instance : Decidable (Starved n stuck q a) := inferInstanceAs (Decidable (_ ≤ _))

/-- A backlog that was worked off in any number of batches, each of which drops some of the first
`n` entries that are not stuck. -/
inductive Reduced (n : ℕ) (stuck : α → Bool) : List α → List α → Prop
  | refl (q : List α) : Reduced n stuck q q
  | batch {q q' : List α} (kept : α → Bool)
      (hkept : ∀ a ∈ q, kept a = false → a ∈ q.take n ∧ stuck a = false) :
      Reduced n stuck (q.filter kept) q' → Reduced n stuck q q'

omit [DecidableEq α] in
theorem Reduced.trans {q'' : List α} (h : Reduced n stuck q q') (h' : Reduced n stuck q' q'') :
    Reduced n stuck q q'' := by
  induction h with
  | refl q => exact h'
  | batch kept hkept _ ih => exact .batch kept hkept (ih h')

/-! ### The entries before one -/

theorem ahead_cons_self (a : α) (q : List α) : ahead (a :: q) a = [] := by
  simp [ahead]

theorem ahead_cons_of_ne {b : α} (h : b ≠ a) (q : List α) :
    ahead (b :: q) a = b :: ahead q a := by
  simp [ahead, h]

/-- What is dropped elsewhere leaves the order of what stands before an entry. -/
theorem ahead_filter {kept : α → Bool} (ha : kept a = true) (q : List α) :
    ahead (q.filter kept) a = (ahead q a).filter kept := by
  induction q with
  | nil => rfl
  | cons b q ih =>
    by_cases hb : b = a
    · subst hb
      rw [List.filter_cons_of_pos ha, ahead_cons_self, ahead_cons_self, List.filter_nil]
    · rw [ahead_cons_of_ne hb]
      by_cases hk : kept b = true
      · rw [List.filter_cons_of_pos hk, List.filter_cons_of_pos hk, ahead_cons_of_ne hb, ih]
      · rw [List.filter_cons_of_neg hk, List.filter_cons_of_neg hk, ih]

/-- An entry of the batch has fewer entries before it than the batch has. -/
theorem length_ahead_lt (ha : a ∈ q.take n) : (ahead q a).length < n := by
  induction q generalizing n with
  | nil => simp at ha
  | cons b q ih =>
    cases n with
    | zero => simp at ha
    | succ n =>
      by_cases hb : b = a
      · subst hb
        rw [ahead_cons_self]
        exact Nat.succ_pos n
      · rw [List.take_succ_cons, List.mem_cons] at ha
        have hrest := ih (ha.resolve_left fun h => hb h.symm)
        rw [ahead_cons_of_ne hb, List.length_cons]
        exact Nat.succ_lt_succ hrest

theorem not_starved_of_mem_take (ha : a ∈ q.take n) : ¬ Starved n stuck q a := by
  have hlen := length_ahead_lt ha
  have hcount : (ahead q a).countP stuck ≤ (ahead q a).length := List.countP_le_length
  unfold Starved
  omega

/-- An entry behind a batch has the whole batch before it. -/
theorem take_prefix_ahead (hq : a ∈ q) (ha : a ∉ q.take n) :
    (q.take n).length = n ∧ q.take n <+: ahead q a := by
  induction q generalizing n with
  | nil => simp at hq
  | cons b q ih =>
    cases n with
    | zero => simp
    | succ n =>
      rw [List.take_succ_cons, List.mem_cons, not_or] at ha
      have hne : b ≠ a := fun h => ha.1 h.symm
      obtain ⟨hlen, hprefix⟩ := ih ((List.mem_cons.mp hq).resolve_left ha.1) ha.2
      rw [List.take_succ_cons, List.length_cons, hlen, ahead_cons_of_ne hne]
      exact ⟨rfl, (List.prefix_cons_inj b).mpr hprefix⟩

/-- Behind a batch that is stuck, every entry starves. -/
theorem starved_of_stuck (hstuck : ∀ b ∈ q.take n, stuck b = true) (hq : a ∈ q)
    (ha : stuck a = false) : Starved n stuck q a := by
  have hnot : a ∉ q.take n := by
    intro hmem
    rw [hstuck a hmem] at ha
    cases ha
  obtain ⟨hlen, hprefix⟩ := take_prefix_ahead hq hnot
  have hall : (q.take n).countP stuck = n := by
    rw [List.countP_eq_length.mpr hstuck, hlen]
  unfold Starved
  rw [← hall]
  exact hprefix.sublist.countP_le

/-! ### Working it off -/

/-- One batch decides nothing about the entries it leaves. -/
theorem starved_filter_iff {kept : α → Bool}
    (hkept : ∀ b ∈ q, kept b = false → b ∈ q.take n ∧ stuck b = false) (ha : kept a = true) :
    Starved n stuck (q.filter kept) a ↔ Starved n stuck q a := by
  have hcount : ((ahead q a).filter kept).countP stuck = (ahead q a).countP stuck := by
    rw [List.countP_filter]
    refine List.countP_congr fun b hb => ?_
    have hmem : b ∈ q := (List.takeWhile_sublist _).subset hb
    cases hk : kept b with
    | true => rw [Bool.and_true]
    | false => rw [(hkept b hmem hk).2]; rfl
  unfold Starved
  rw [ahead_filter ha, hcount]

/-- A starved entry stays, and stays starved. -/
theorem Reduced.of_starved (h : Reduced n stuck q q') (hq : a ∈ q) (ha : Starved n stuck q a) :
    a ∈ q' ∧ Starved n stuck q' a := by
  induction h with
  | refl q => exact ⟨hq, ha⟩
  | batch kept hkept _ ih =>
    have hk : kept a = true := by
      by_contra hk
      exact not_starved_of_mem_take (hkept a hq (Bool.eq_false_iff.mpr hk)).1 ha
    exact ih (List.mem_filter.mpr ⟨hq, hk⟩) ((starved_filter_iff hkept hk).mpr ha)

/-- An entry that is left over and starved has been starved from the start. -/
theorem Reduced.starved_of_mem (h : Reduced n stuck q q') (hq : a ∈ q')
    (ha : Starved n stuck q' a) : a ∈ q ∧ Starved n stuck q a := by
  induction h with
  | refl q => exact ⟨hq, ha⟩
  | batch kept hkept _ ih =>
    obtain ⟨hmem, hstarved⟩ := ih hq ha
    obtain ⟨hmem, hk⟩ := List.mem_filter.mp hmem
    exact ⟨hmem, (starved_filter_iff hkept hk).mp hstarved⟩

/-- **Once the head of a backlog is stuck, what is left over are the stuck entries and those that
were starved from the start.** -/
theorem Reduced.mem_iff_starved (h : Reduced n stuck q q')
    (hstuck : ∀ b ∈ q'.take n, stuck b = true) (hq : a ∈ q) (ha : stuck a = false) :
    a ∈ q' ↔ Starved n stuck q a :=
  ⟨fun hmem => (h.starved_of_mem hmem (starved_of_stuck hstuck hmem ha)).2,
    fun hstarved => (h.of_starved hq hstarved).1⟩

/-! ### What is left of it -/

omit [DecidableEq α] in
/-- What is left keeps its order. -/
theorem Reduced.sublist (h : Reduced n stuck q q') : q'.Sublist q := by
  induction h with
  | refl q => exact .refl _
  | batch kept hkept _ ih => exact ih.trans List.filter_sublist

omit [DecidableEq α] in
/-- No stuck entry is dropped. -/
theorem Reduced.mem_of_stuck (h : Reduced n stuck q q') (hq : a ∈ q) (ha : stuck a = true) :
    a ∈ q' := by
  induction h with
  | refl q => exact hq
  | batch kept hkept _ ih =>
    refine ih (List.mem_filter.mpr ⟨hq, ?_⟩)
    by_contra hdropped
    have hfree := (hkept a hq (Bool.eq_false_iff.mpr hdropped)).2
    rw [ha] at hfree
    cases hfree

omit [DecidableEq α] in
theorem Reduced.countP_stuck (h : Reduced n stuck q q') : q'.countP stuck = q.countP stuck := by
  induction h with
  | refl q => rfl
  | batch kept hkept _ ih =>
    rw [ih, List.countP_filter]
    refine List.countP_congr fun a ha => ?_
    cases hk : kept a with
    | true => rw [Bool.and_true]
    | false =>
      rw [(hkept a ha hk).2]
      rfl

/-- Where the head has been cleared, nothing but the stuck is left, or the room the stuck leave
of a batch is gone from the backlog. -/
theorem cleared_head (hsub : q'.Sublist q) (hgone : ∀ a ∈ q.take n, stuck a = false → a ∉ q') :
    (∀ a ∈ q', stuck a = true) ∨ (n - q.countP stuck) + q'.length ≤ q.length := by
  by_cases hlen : q.length ≤ n
  · -- the batch was the whole backlog
    refine .inl fun a ha => ?_
    have hmem : a ∈ q.take n := by
      rw [List.take_of_length_le hlen]
      exact hsub.subset ha
    by_contra hfree
    exact hgone a hmem (Bool.eq_false_iff.mpr hfree) ha
  · right
    have hkeep : q'.filter (fun a => !decide (a ∈ q.take n ∧ stuck a = false)) = q' := by
      refine List.filter_eq_self.mpr fun a ha => ?_
      simp only [Bool.not_eq_true', decide_eq_false_iff_not]
      exact fun hboth => hgone a hboth.1 hboth.2 ha
    have hleft : q'.length ≤
        (q.filter fun a => !decide (a ∈ q.take n ∧ stuck a = false)).length := by
      have hfilter := hsub.filter fun a => !decide (a ∈ q.take n ∧ stuck a = false)
      rw [hkeep] at hfilter
      exact hfilter.length_le
    -- the batch alone has as many that are not stuck
    have hbatch : n - q.countP stuck ≤
        q.countP fun a => decide (a ∈ q.take n ∧ stuck a = false) := by
      have htake : (q.take n).countP (fun a => !stuck a) ≤
          (q.take n).countP fun a => decide (a ∈ q.take n ∧ stuck a = false) := by
        refine List.countP_mono_left fun a ha hfree => ?_
        simpa using ⟨ha, by simpa using hfree⟩
      have hsplit := List.length_eq_countP_add_countP stuck (l := q.take n)
      have hstuck : (q.take n).countP stuck ≤ q.countP stuck :=
        (List.take_sublist n q).countP_le
      have hwhole := (List.take_sublist n q).countP_le
        (p := fun a => decide (a ∈ q.take n ∧ stuck a = false))
      rw [List.length_take] at hsplit
      simp only [Bool.not_eq_true, Bool.decide_eq_false] at hsplit
      omega
    have hcount : q.length = q.countP (fun a => decide (a ∈ q.take n ∧ stuck a = false)) +
        (q.filter fun a => !decide (a ∈ q.take n ∧ stuck a = false)).length := by
      rw [List.countP_eq_length_filter, ← List.length_eq_length_filter_add]
    omega

/-! ### Its order -/

section Order

variable {β : Type} {r : β → β → Prop} [DecidableRel r] [IsTrans β r]

theorem filter_orderedInsert (p : β → Bool) (a : β) {l : List β} (hl : l.Pairwise r) :
    (l.orderedInsert r a).filter p =
      if p a = true then (l.filter p).orderedInsert r a else l.filter p := by
  induction l with
  | nil => by_cases ha : p a = true <;> simp [ha]
  | cons b l ih =>
    obtain ⟨hb, hl⟩ := List.pairwise_cons.mp hl
    by_cases hab : r a b
    · -- the entry comes first, also in what is left
      have hfirst : ((b :: l).filter p).orderedInsert r a = a :: (b :: l).filter p := by
        cases hrest : (b :: l).filter p with
        | nil => rfl
        | cons c m =>
          have hc : c ∈ b :: l := List.mem_of_mem_filter (hrest ▸ List.mem_cons_self ..)
          have hac : r a c := (List.mem_cons.mp hc).elim (fun h => h ▸ hab)
            fun hc => IsTrans.trans a b c hab (hb c hc)
          exact List.orderedInsert_cons_of_le r m hac
      rw [List.orderedInsert_cons_of_le r l hab, hfirst]
      by_cases ha : p a = true
      · rw [if_pos ha, List.filter_cons_of_pos ha]
      · rw [if_neg ha, List.filter_cons_of_neg ha]
    · rw [List.orderedInsert_of_not_le r l hab]
      by_cases hpb : p b = true
      · rw [List.filter_cons_of_pos hpb, List.filter_cons_of_pos hpb, ih hl]
        by_cases ha : p a = true
        · rw [if_pos ha, if_pos ha, List.orderedInsert_of_not_le r _ hab]
        · rw [if_neg ha, if_neg ha]
      · rw [List.filter_cons_of_neg hpb, List.filter_cons_of_neg hpb, ih hl]

/-- **What is dropped before sorting is dropped from what is sorted**: the order of what is left
does not change. -/
theorem insertionSort_filter [Std.Total r] (p : β → Bool) (l : List β) :
    (l.filter p).insertionSort r = (l.insertionSort r).filter p := by
  induction l with
  | nil => rfl
  | cons a l ih =>
    rw [List.insertionSort_cons, filter_orderedInsert p a (List.pairwise_insertionSort r l), ← ih]
    by_cases ha : p a = true
    · rw [List.filter_cons_of_pos ha, if_pos ha, List.insertionSort_cons]
    · rw [List.filter_cons_of_neg ha, if_neg ha]

end Order

end Backlog
end Hivebook
