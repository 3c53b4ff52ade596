import Mathlib.Data.Finset.Card
import Mathlib.Data.List.Nodup
import Mathlib.Tactic.Common

/-!
# Lists in the order of last use

A list of entries with distinct keys, the one used last at the front.  Using an entry moves it to
the front, and a list that grows too long loses entries at its back.  What stands before an entry
are the entries used after it, so an entry is only lost after as many others were used as fit into
the list.

## Main definitions

* `Recency.lookup`, `Recency.drop`, `Recency.touch` — the entry of a key, the list without it, and
  the list after an entry was used.
* `Recency.ahead` — the keys before one.

## Main results

* `Recency.ahead_touch_subset` — what stands before a key, after another entry was used.
* `Recency.le_card_of_lookup_take` — **an entry is cut off only behind a full list of others.**
-/

namespace Hivebook
namespace Recency

variable {α κ : Type} [DecidableEq κ] (key : α → κ)

/-- The entry of a key. -/
def lookup (k : κ) (l : List α) : Option α := l.find? fun a => decide (key a = k)

/-- The list without the entry of a key. -/
def drop (k : κ) (l : List α) : List α := l.filter fun a => decide (key a ≠ k)

/-- The list after an entry was used: it stands at the front. -/
def touch (a : α) (l : List α) : List α := a :: drop key (key a) l

/-- The keys before one. -/
def ahead (k : κ) (l : List α) : List κ := (l.map key).takeWhile fun k' => decide (k' ≠ k)

variable {key} {a b : α} {k k' : κ} {l : List α}

/-! ### The entry of a key -/

theorem lookup_cons_self (a : α) (l : List α) : lookup key (key a) (a :: l) = some a := by
  simp [lookup]

theorem lookup_cons_of_ne (h : key a ≠ k) (l : List α) :
    lookup key k (a :: l) = lookup key k l := by
  simp [lookup, h]

theorem of_lookup (h : lookup key k l = some a) : a ∈ l ∧ key a = k := by
  unfold lookup at h
  have hkey := List.find?_some h
  exact ⟨List.mem_of_find?_eq_some h, by simpa using hkey⟩

theorem lookup_eq_none : lookup key k l = none ↔ k ∉ l.map key := by
  simp [lookup]

/-- A key is that of one entry only. -/
theorem lookup_of_mem (hl : (l.map key).Nodup) (ha : a ∈ l) : lookup key (key a) l = some a := by
  cases hb : lookup key (key a) l with
  | none => exact absurd (List.mem_map_of_mem ha) (lookup_eq_none.mp hb)
  | some b =>
    obtain ⟨hmem, heq⟩ := of_lookup hb
    rw [List.inj_on_of_nodup_map hl hmem ha heq]

theorem lookup_drop_of_ne (h : k ≠ k') (l : List α) :
    lookup key k (drop key k' l) = lookup key k l := by
  unfold lookup drop
  rw [List.find?_filter]
  congr 1
  funext a
  by_cases ha : key a = k
  · simp [ha, h]
  · simp [ha]

theorem lookup_touch_self (a : α) (l : List α) : lookup key (key a) (touch key a l) = some a :=
  lookup_cons_self a _

theorem lookup_touch_of_ne (h : k ≠ key a) (l : List α) :
    lookup key k (touch key a l) = lookup key k l := by
  rw [touch, lookup_cons_of_ne h.symm, lookup_drop_of_ne h]

/-! ### Distinct keys -/

theorem mem_drop : a ∈ drop key k l ↔ a ∈ l ∧ key a ≠ k := by
  simp [drop]

theorem nodup_drop (hl : (l.map key).Nodup) (k : κ) : ((drop key k l).map key).Nodup :=
  hl.sublist (List.filter_sublist.map key)

theorem nodup_touch (hl : (l.map key).Nodup) (a : α) : ((touch key a l).map key).Nodup := by
  rw [touch, List.map_cons, List.nodup_cons]
  refine ⟨fun hmem => ?_, nodup_drop hl _⟩
  obtain ⟨b, hb, heq⟩ := List.mem_map.mp hmem
  exact (mem_drop.mp hb).2 heq

theorem drop_eq_self (h : lookup key k l = none) : drop key k l = l := by
  refine List.filter_eq_self.mpr fun a ha => decide_eq_true fun heq => ?_
  exact lookup_eq_none.mp h (heq ▸ List.mem_map_of_mem ha)

theorem length_touch (h : lookup key (key a) l ≠ none) : (touch key a l).length ≤ l.length := by
  obtain ⟨b, hb⟩ := Option.ne_none_iff_exists'.mp h
  obtain ⟨hmem, heq⟩ := of_lookup hb
  have hlt : (drop key (key a) l).length < l.length :=
    List.length_filter_lt_length_iff_exists.mpr ⟨b, hmem, by simp [heq]⟩
  exact hlt

/-- The entry at the back is dropped. -/
theorem drop_last (hl : ((l ++ [a]).map key).Nodup) : drop key (key a) (l ++ [a]) = l := by
  rw [List.map_append, List.nodup_append] at hl
  have hkeep : ∀ b ∈ l, decide (key b ≠ key a) = true := by
    intro b hb
    have hne := hl.2.2 (key b) (List.mem_map_of_mem hb) (key a) (by simp)
    exact decide_eq_true hne
  unfold drop
  rw [List.filter_append, List.filter_eq_self.mpr hkeep]
  simp

/-! ### What stands before a key -/

theorem ahead_cons_self (a : α) (l : List α) : ahead key (key a) (a :: l) = [] := by
  simp [ahead]

theorem ahead_cons_of_ne (h : key a ≠ k) (l : List α) :
    ahead key k (a :: l) = key a :: ahead key k l := by
  simp [ahead, h]

theorem nodup_ahead (hl : (l.map key).Nodup) (k : κ) : (ahead key k l).Nodup :=
  hl.sublist (List.takeWhile_sublist _)

/-- Nothing comes to stand before a key when an entry is dropped. -/
theorem ahead_drop_subset (h : k ≠ k') (l : List α) :
    ∀ x ∈ ahead key k (drop key k' l), x ∈ ahead key k l := by
  induction l with
  | nil => simp [drop, ahead]
  | cons a l ih =>
    intro x hx
    by_cases ha : key a = k
    · have hdrop : drop key k' (a :: l) = a :: drop key k' l := by simp [drop, ha, h]
      subst ha
      rw [hdrop, ahead_cons_self] at hx
      exact absurd hx (List.not_mem_nil)
    · rw [ahead_cons_of_ne ha, List.mem_cons]
      by_cases hk : key a = k'
      · have hdrop : drop key k' (a :: l) = drop key k' l := by simp [drop, hk]
        rw [hdrop] at hx
        exact .inr (ih x hx)
      · have hdrop : drop key k' (a :: l) = a :: drop key k' l := by simp [drop, hk]
        rw [hdrop, ahead_cons_of_ne ha, List.mem_cons] at hx
        exact hx.imp_right (ih x)

/-- **What stands before a key after another entry was used**: that entry, or what stood there
before. -/
theorem ahead_touch_subset (h : k ≠ key a) (l : List α) :
    ∀ x ∈ ahead key k (touch key a l), x = key a ∨ x ∈ ahead key k l := by
  intro x hx
  rw [touch, ahead_cons_of_ne h.symm, List.mem_cons] at hx
  exact hx.imp_right (ahead_drop_subset h l x)

/-- Nothing comes to stand before a key when a list is cut off. -/
theorem ahead_take_subset (k : κ) (n : ℕ) (l : List α) :
    ∀ x ∈ ahead key k (l.take n), x ∈ ahead key k l := by
  induction l generalizing n with
  | nil => simp [ahead]
  | cons a l ih =>
    cases n with
    | zero => simp [ahead]
    | succ n =>
      intro x hx
      rw [List.take_succ_cons] at hx
      by_cases ha : key a = k
      · subst ha
        rwa [ahead_cons_self] at hx ⊢
      · rw [ahead_cons_of_ne ha, List.mem_cons] at hx ⊢
        exact hx.imp_right (ih n x)

/-- An entry that is cut off has a full list before it. -/
theorem le_length_ahead (hk : lookup key k l ≠ none) {n : ℕ}
    (hcut : lookup key k (l.take n) = none) : n ≤ (ahead key k l).length := by
  induction l generalizing n with
  | nil => exact absurd rfl hk
  | cons a l ih =>
    cases n with
    | zero => exact Nat.zero_le _
    | succ n =>
      rw [List.take_succ_cons] at hcut
      by_cases ha : key a = k
      · subst ha
        rw [lookup_cons_self] at hcut
        cases hcut
      · rw [lookup_cons_of_ne ha] at hk hcut
        rw [ahead_cons_of_ne ha, List.length_cons]
        exact Nat.succ_le_succ (ih hk hcut)

/-- **An entry is cut off only behind a full list of others.** -/
theorem le_card_of_lookup_take (hl : (l.map key).Nodup) (hk : lookup key k l ≠ none) {n : ℕ}
    (hcut : lookup key k (l.take n) = none) {others : Finset κ}
    (hothers : ∀ x ∈ ahead key k l, x ∈ others) : n ≤ others.card := by
  have hlen : n ≤ (ahead key k l).length := le_length_ahead hk hcut
  have hcard : (ahead key k l).toFinset.card = (ahead key k l).length :=
    List.toFinset_card_of_nodup (nodup_ahead hl k)
  have hsub : (ahead key k l).toFinset ⊆ others := by
    intro x hx
    exact hothers x (List.mem_toFinset.mp hx)
  have hle := Finset.card_le_card hsub
  omega

end Recency
end Hivebook
