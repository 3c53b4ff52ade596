import Mathlib.Data.List.Nodup
import Mathlib.Data.List.Sort
import Mathlib.Data.Nat.Notation
import Mathlib.Tactic.Common

/-!
# Tables with a generated id and a unique key

A table is a list of rows in insertion order.  Every row has an id, drawn from a
sequence when it is inserted and never used again, and a key, unique among the
rows.  Both constraints are fields of the structure: a table that breaks one
cannot be built, and the operations take the (usually definitional) proof that
what they write leaves ids and keys alone.

## Main definitions

* `Table id key` — a table.
* `Table.update`, `Table.delete`, `Table.upsert` — `UPDATE … WHERE`,
  `DELETE … WHERE` and `INSERT … ON CONFLICT (key) DO UPDATE`.

## Main results

* `Table.mem_update`, `Table.mem_delete`, `Table.mem_upsert`, `Table.exists_upserted` —
  what is in a table afterwards.
* `Table.forall_update`, `Table.forall_upsert` — how a property of all rows is kept.
* `Table.exists_updated_iff`, `Table.exists_updated`, `Table.exists_upsert` — whether a row with a
  property is there.
* `Table.eq_of_id`, `Table.eq_of_key` — an id, and a key, determines the row.
* `Table.update_eq_self`, `Table.upsert_eq_self` — the table is left as it is.
-/

namespace Hivebook

/-- Rows in insertion order, with a generated id and a unique key. -/
structure Table {α κ : Type} (id : α → ℕ) (key : α → κ) where
  rows : List α
  /-- The next id the sequence hands out. -/
  next : ℕ
  id_lt : ∀ r ∈ rows, id r < next
  nodup_id : (rows.map id).Nodup
  nodup_key : (rows.map key).Nodup

namespace Table

variable {α κ : Type} {id : α → ℕ} {key : α → κ}

/-- The table with no rows. -/
def empty : Table id key where
  rows := []
  next := 0
  id_lt := by simp
  nodup_id := by simp
  nodup_key := by simp

instance : Inhabited (Table id key) := ⟨empty⟩

/-- The row an `UPDATE` leaves in the place of a row. -/
def updated (p : α → Bool) (f : α → α) (r : α) : α := if p r then f r else r

theorem map_updated {β : Type} (g : α → β) {p : α → Bool} {f : α → α} (hf : ∀ r, g (f r) = g r)
    (rows : List α) : (rows.map (updated p f)).map g = rows.map g := by
  rw [List.map_map]
  apply List.map_congr_left
  intro r _
  unfold updated
  by_cases hp : p r = true <;> simp [hp, hf]

/-- `UPDATE … SET f WHERE p`. -/
def update (t : Table id key) (p : α → Bool) (f : α → α)
    (hid : ∀ r, id (f r) = id r := by intro; rfl)
    (hkey : ∀ r, key (f r) = key r := by intro; rfl) : Table id key where
  rows := t.rows.map (updated p f)
  next := t.next
  id_lt := by
    intro r hr
    obtain ⟨r₀, hr₀, rfl⟩ := List.mem_map.mp hr
    have := t.id_lt r₀ hr₀
    unfold updated
    by_cases hp : p r₀ = true <;> simpa [hp, hid] using this
  nodup_id := by rw [map_updated id hid]; exact t.nodup_id
  nodup_key := by rw [map_updated key hkey]; exact t.nodup_key

/-- `DELETE … WHERE p`. -/
def delete (t : Table id key) (p : α → Bool) : Table id key where
  rows := t.rows.filter fun r => !p r
  next := t.next
  id_lt := fun r hr => t.id_lt r (List.mem_of_mem_filter hr)
  nodup_id := t.nodup_id.sublist (List.filter_sublist.map id)
  nodup_key := t.nodup_key.sublist (List.filter_sublist.map key)

/-- `INSERT` of a row with the next id and a key that is not taken. -/
def insert (t : Table id key) (new : ℕ → α) (hid : id (new t.next) = t.next)
    (hkey : key (new t.next) ∉ t.rows.map key) : Table id key where
  rows := t.rows ++ [new t.next]
  next := t.next + 1
  id_lt := by
    intro r hr
    rcases List.mem_append.mp hr with hr | hr
    · exact Nat.lt_succ_of_lt (t.id_lt r hr)
    · rw [List.mem_singleton.mp hr, hid]
      exact Nat.lt_succ_self _
  nodup_id := by
    rw [List.map_append, List.nodup_append]
    refine ⟨t.nodup_id, by simp, ?_⟩
    intro a ha b hb
    obtain ⟨r, hr, rfl⟩ := List.mem_map.mp ha
    simp only [List.map_cons, List.map_nil, List.mem_singleton] at hb
    rw [hb, hid]
    exact Nat.ne_of_lt (t.id_lt r hr)
  nodup_key := by
    rw [List.map_append, List.nodup_append]
    refine ⟨t.nodup_key, by simp, ?_⟩
    intro a ha b hb heq
    simp only [List.map_cons, List.map_nil, List.mem_singleton] at hb
    exact hkey (hb ▸ heq ▸ ha)

/-! ### What is in a table afterwards -/

variable {t : Table id key} {p : α → Bool} {f : α → α} {r : α}

theorem mem_update {hid : ∀ r, id (f r) = id r} {hkey : ∀ r, key (f r) = key r} :
    r ∈ (t.update p f hid hkey).rows ↔ ∃ r₀ ∈ t.rows, updated p f r₀ = r :=
  List.mem_map

@[simp] theorem mem_delete : r ∈ (t.delete p).rows ↔ r ∈ t.rows ∧ p r = false := by
  simp [delete]

/-- An update keeps what it keeps of every row it changes. -/
theorem forall_update {P : α → Prop} {hid : ∀ r, id (f r) = id r}
    {hkey : ∀ r, key (f r) = key r} (h : ∀ r ∈ t.rows, P r)
    (hf : ∀ r ∈ t.rows, p r = true → P r → P (f r)) :
    ∀ r ∈ (t.update p f hid hkey).rows, P r := by
  intro r hr
  obtain ⟨r₀, hr₀, rfl⟩ := mem_update.mp hr
  unfold updated
  by_cases hp : p r₀ = true
  · rw [if_pos hp]
    exact hf r₀ hr₀ hp (h r₀ hr₀)
  · rw [if_neg hp]
    exact h r₀ hr₀

/-- Whether an update leaves a row with a property, by what it makes of each row. -/
theorem exists_updated_iff {P Q : α → Prop} {rows : List α}
    (h : ∀ r ∈ rows, (P (updated p f r) ↔ Q r)) :
    (∃ r ∈ rows.map (updated p f), P r) ↔ ∃ r ∈ rows, Q r := by
  constructor
  · rintro ⟨r, hr, hP⟩
    obtain ⟨r₀, hr₀, rfl⟩ := List.mem_map.mp hr
    exact ⟨r₀, hr₀, (h r₀ hr₀).mp hP⟩
  · rintro ⟨r, hr, hQ⟩
    exact ⟨_, List.mem_map_of_mem hr, (h r hr).mpr hQ⟩

/-- An update that leaves a property of the rows it changes alone leaves alone whether
there is a row with it. -/
theorem exists_updated {P : α → Prop} {rows : List α}
    (hf : ∀ r ∈ rows, p r = true → (P (f r) ↔ P r)) :
    (∃ r ∈ rows.map (updated p f), P r) ↔ ∃ r ∈ rows, P r := by
  refine exists_updated_iff fun r hr => ?_
  unfold updated
  by_cases hp : p r = true
  · rw [if_pos hp]
    exact hf r hr hp
  · rw [if_neg hp]

/-- An update that changes no row leaves the table as it is. -/
theorem update_eq_self {hid : ∀ r, id (f r) = id r} {hkey : ∀ r, key (f r) = key r}
    (h : ∀ r ∈ t.rows, p r = true → f r = r) : t.update p f hid hkey = t := by
  have hrows : t.rows.map (updated p f) = t.rows := by
    refine (List.map_congr_left fun r hr => ?_).trans (List.map_id _)
    unfold updated
    by_cases hp : p r = true
    · rw [if_pos hp]
      exact h r hr hp
    · rw [if_neg hp]
      rfl
  unfold update
  simp only [hrows]

/-- An id determines the row. -/
theorem eq_of_id {r' : α} (h : r ∈ t.rows) (h' : r' ∈ t.rows) (he : id r = id r') : r = r' :=
  List.inj_on_of_nodup_map t.nodup_id h h' he

/-- A key determines the row. -/
theorem eq_of_key {r' : α} (h : r ∈ t.rows) (h' : r' ∈ t.rows) (he : key r = key r') : r = r' :=
  List.inj_on_of_nodup_map t.nodup_key h h' he

/-! ### Upserts -/

section Upsert

variable [DecidableEq κ]

/-- `INSERT … ON CONFLICT (key) DO UPDATE SET f`: `new` builds the row from the
generated id, and its key does not depend on that id. -/
def upsert (t : Table id key) (new : ℕ → α) (f : α → α)
    (hnew : ∀ n, id (new n) = n := by intro; rfl)
    (hid : ∀ r, id (f r) = id r := by intro; rfl)
    (hkey : ∀ r, key (f r) = key r := by intro; rfl) : Table id key :=
  if h : key (new t.next) ∈ t.rows.map key then
    t.update (fun r => decide (key r = key (new t.next))) f hid hkey
  else t.insert new (hnew t.next) h

/-- After an upsert a row is one that was there, possibly updated, or the new one. -/
theorem mem_upsert {new : ℕ → α} {hnew : ∀ n, id (new n) = n} {hid : ∀ r, id (f r) = id r}
    {hkey : ∀ r, key (f r) = key r} (h : r ∈ (t.upsert new f hnew hid hkey).rows) :
    (∃ r₀ ∈ t.rows, key r₀ = key (new t.next) ∧ r = f r₀) ∨
      (r ∈ t.rows ∧ key r ≠ key (new t.next)) ∨
      (key (new t.next) ∉ t.rows.map key ∧ r = new t.next) := by
  unfold upsert at h
  by_cases hk : key (new t.next) ∈ t.rows.map key
  · rw [dif_pos hk, mem_update] at h
    obtain ⟨r₀, hr₀, rfl⟩ := h
    unfold updated
    by_cases he : key r₀ = key (new t.next)
    · exact Or.inl ⟨r₀, hr₀, he, by simp [he]⟩
    · exact Or.inr (Or.inl ⟨by simpa [he] using hr₀, by simp [he]⟩)
  · rw [dif_neg hk] at h
    rcases List.mem_append.mp h with h | h
    · refine Or.inr (Or.inl ⟨h, fun he => hk ?_⟩)
      rw [← he]
      exact List.mem_map_of_mem h
    · exact Or.inr (Or.inr ⟨hk, List.mem_singleton.mp h⟩)

/-- An upsert leaves the rows of other keys alone. -/
theorem mem_upsert_of_ne {new : ℕ → α} {hnew : ∀ n, id (new n) = n} {hid : ∀ r, id (f r) = id r}
    {hkey : ∀ r, key (f r) = key r} (hr : r ∈ t.rows) (hne : key r ≠ key (new t.next)) :
    r ∈ (t.upsert new f hnew hid hkey).rows := by
  unfold upsert
  by_cases hk : key (new t.next) ∈ t.rows.map key
  · rw [dif_pos hk, mem_update]
    refine ⟨r, hr, ?_⟩
    unfold updated
    rw [if_neg (by simpa using hne)]
  · rw [dif_neg hk]
    exact List.mem_append.mpr (Or.inl hr)

/-- An upsert leaves the row it changes, or the one it adds. -/
theorem exists_upserted {new : ℕ → α} {hnew : ∀ n, id (new n) = n} {hid : ∀ r, id (f r) = id r}
    {hkey : ∀ r, key (f r) = key r} :
    (∃ r ∈ t.rows, key r = key (new t.next) ∧ f r ∈ (t.upsert new f hnew hid hkey).rows) ∨
      new t.next ∈ (t.upsert new f hnew hid hkey).rows := by
  unfold upsert
  by_cases hk : key (new t.next) ∈ t.rows.map key
  · rw [dif_pos hk]
    obtain ⟨r, hr, he⟩ := List.mem_map.mp hk
    refine Or.inl ⟨r, hr, he, mem_update.mpr ⟨r, hr, ?_⟩⟩
    unfold updated
    rw [if_pos (decide_eq_true he)]
  · rw [dif_neg hk]
    exact Or.inr (List.mem_append.mpr (Or.inr (List.mem_singleton.mpr rfl)))

/-- An upsert that would not change the row of its key leaves the table as it is. -/
theorem upsert_eq_self {new : ℕ → α} {hnew : ∀ n, id (new n) = n} {hid : ∀ r, id (f r) = id r}
    {hkey : ∀ r, key (f r) = key r} (hr : r ∈ t.rows) (hk : key r = key (new t.next))
    (hf : f r = r) : t.upsert new f hnew hid hkey = t := by
  unfold upsert
  rw [dif_pos (hk ▸ List.mem_map_of_mem hr)]
  refine update_eq_self fun r' hr' hp => ?_
  obtain rfl := t.eq_of_key hr' hr ((of_decide_eq_true hp).trans hk.symm)
  exact hf

/-- An upsert keeps what it keeps of the row it changes and has of the row it adds. -/
theorem forall_upsert {P : α → Prop} {new : ℕ → α} {hnew : ∀ n, id (new n) = n}
    {hid : ∀ r, id (f r) = id r} {hkey : ∀ r, key (f r) = key r} (h : ∀ r ∈ t.rows, P r)
    (hf : ∀ r ∈ t.rows, key r = key (new t.next) → P r → P (f r)) (hn : P (new t.next)) :
    ∀ r ∈ (t.upsert new f hnew hid hkey).rows, P r := by
  intro r hr
  rcases mem_upsert hr with ⟨r₀, hr₀, hk, rfl⟩ | ⟨hr, -⟩ | ⟨-, rfl⟩
  · exact hf r₀ hr₀ hk (h r₀ hr₀)
  · exact h r hr
  · exact hn

/-- An upsert that leaves a property of the row it changes alone adds a row with it
only if the new row has it. -/
theorem exists_upsert {P : α → Prop} {new : ℕ → α} {hnew : ∀ n, id (new n) = n}
    {hid : ∀ r, id (f r) = id r} {hkey : ∀ r, key (f r) = key r} (hf : ∀ r, P (f r) ↔ P r) :
    (∃ r ∈ (t.upsert new f hnew hid hkey).rows, P r) ↔
      (∃ r ∈ t.rows, P r) ∨ key (new t.next) ∉ t.rows.map key ∧ P (new t.next) := by
  unfold upsert
  by_cases hk : key (new t.next) ∈ t.rows.map key
  · rw [dif_pos hk]
    refine Iff.trans (exists_updated fun r _ _ => hf r) ?_
    exact ⟨Or.inl, fun h => h.resolve_right fun h => h.1 hk⟩
  · rw [dif_neg hk]
    simp [insert, hk, or_and_right, exists_or]

end Upsert

end Table

end Hivebook
