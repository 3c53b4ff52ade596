import Hivebook.Api.Handlers
import Hivebook.Lib.Recency

/-!
# The identity cache

The API resolves the caller of a request at the identity provider and keeps the answer for a
while.  A cached identity pins its user to a tenant, so the cache has to forget: an entry that is
too old is dropped when it is read, and the entry that was used least recently when there are too
many.

The cache is a linked list and an index into it.  An element of the list is a pointer, modelled by
a number; its value stays where it is when the element is unlinked.  What the two structures
amount to is a list of entries in the order of their last use, and what a history of calls says
about that list is proved of it.

## Main definitions

* `IdentityCache`, `IdentityCache.get`, `IdentityCache.add` — the cache and its operations.
* `IdentityCache.Sound` — the list and the index hold the same entries.
* `got`, `added` — the operations on the list of the entries.
* `identityCache` — the calls one after the other, the mutex has them so.
* `lastAdd`, `touchedSince` — what a history says of a user.

## Main results

* `IdentityCache.Sound.get`, `IdentityCache.Sound.add` — **the cache refines the list of its
  entries.**
* `identityCache_faithful` — **a bounded LRU map with a TTL.**
-/

namespace Hivebook
namespace Api

open Recency

/-! ### The cache -/

/-- `cacheEntry`. -/
structure CacheEntry where
  sub : String
  id : Identity
  expires : ℤ
  deriving DecidableEq, Repr

/-- `identityCache`. -/
structure IdentityCache where
  max : ℕ
  ttl : ℤ
  /-- The elements of the list, the one used last at the front. -/
  ll : List ℕ
  /-- The element of a sub. -/
  m : String → Option ℕ
  /-- `el.Value`. -/
  value : ℕ → CacheEntry
  /-- The element that is allocated next. -/
  next : ℕ

/-- `newIdentityCache`. -/
def newIdentityCache (max : ℕ) (ttl : ℤ) : IdentityCache :=
  { max, ttl, ll := [], m := fun _ => none, value := fun _ => ⟨"", ⟨"", "", "", ""⟩, 0⟩, next := 0 }

namespace IdentityCache

variable (c : IdentityCache)

/-- `list.MoveToFront`, which leaves a list alone that the element is not in. -/
def moveToFront (el : ℕ) : IdentityCache :=
  if el ∈ c.ll then { c with ll := el :: c.ll.erase el } else c

/-- `remove`: unlinks an element from both the list and the index. -/
def remove : Option ℕ → IdentityCache
  | none => c
  | some el =>
      { c with ll := c.ll.erase el, m := Function.update c.m (c.value el).sub none }

/-- `get`: an expired entry is dropped on read. -/
def get (sub : String) (now : Time) : IdentityCache × Option Identity :=
  match c.m sub with
  | none => (c, none)
  | some el =>
      if (c.value el).expires < now then (c.remove el, none)
      else (c.moveToFront el, some (c.value el).id)

/-- `ent.id = id; ent.expires = …` -/
def refresh (el : ℕ) (id : Identity) (expires : ℤ) : IdentityCache :=
  { c with value := Function.update c.value el { c.value el with id, expires } }

/-- `ll.PushFront`, and the index entry. -/
def pushFront (ent : CacheEntry) : IdentityCache :=
  { c with
    ll := c.next :: c.ll
    m := Function.update c.m ent.sub (some c.next)
    value := Function.update c.value c.next ent
    next := c.next + 1 }

/-- `add`: inserts or refreshes, and evicts the entry used least recently if there are too many. -/
def add (sub : String) (id : Identity) (now : Time) : IdentityCache :=
  match c.m sub with
  | some el => (c.refresh el id (now + c.ttl)).moveToFront el
  | none =>
      let c' := c.pushFront ⟨sub, id, now + c.ttl⟩
      if c'.max < c'.ll.length then c'.remove c'.ll.getLast? else c'

/-- What the elements of the list point to. -/
def entries : List CacheEntry := c.ll.map c.value

/-- The list and the index hold the same entries, one for each sub, and elements that are
allocated are new. -/
structure Linked : Prop where
  nodup : (c.entries.map CacheEntry.sub).Nodup
  index : ∀ sub el, c.m sub = some el ↔ el ∈ c.ll ∧ (c.value el).sub = sub
  fresh : ∀ el ∈ c.ll, el < c.next

/-- The list and the index hold the same entries, one for each sub, and not too many. -/
structure Sound : Prop extends Linked c where
  length_le : c.ll.length ≤ c.max

end IdentityCache

/-! ### The list of the entries -/

/-- `get`, on the entries in the order of their last use. -/
def got (sub : String) (now : Time) (l : List CacheEntry) : List CacheEntry × Option Identity :=
  match lookup CacheEntry.sub sub l with
  | none => (l, none)
  | some ent =>
      if ent.expires < now then (drop CacheEntry.sub sub l, none)
      else (touch CacheEntry.sub ent l, some ent.id)

/-- `add`, on the entries in the order of their last use. -/
def added (max : ℕ) (ttl : ℤ) (sub : String) (id : Identity) (now : Time) (l : List CacheEntry) :
    List CacheEntry :=
  (touch CacheEntry.sub ⟨sub, id, now + ttl⟩ l).take max

namespace IdentityCache

variable {c : IdentityCache} {el : ℕ} {sub : String}

/-! ### The cache refines it -/

theorem Linked.nodup_ll (h : c.Linked) : c.ll.Nodup := by
  have hmap := h.nodup
  rw [entries, List.map_map] at hmap
  exact List.Nodup.of_map _ hmap

/-- An element of the list is that of its sub. -/
theorem Linked.eq_of_sub (h : c.Linked) {el' : ℕ} (hel : el ∈ c.ll) (hel' : el' ∈ c.ll)
    (heq : (c.value el').sub = (c.value el).sub) : el' = el := by
  have hsome : c.m (c.value el).sub = some el := (h.index _ _).mpr ⟨hel, rfl⟩
  have hsome' : c.m (c.value el).sub = some el' := (h.index _ _).mpr ⟨hel', heq⟩
  exact Option.some.inj (hsome'.symm.trans hsome)

/-- The index finds the entry of a sub. -/
theorem Linked.lookup_eq (h : c.Linked) (sub : String) :
    lookup CacheEntry.sub sub c.entries = (c.m sub).map c.value := by
  cases hm : c.m sub with
  | none =>
    rw [Option.map_none, lookup_eq_none]
    intro hmem
    obtain ⟨ent, hent, rfl⟩ := List.mem_map.mp hmem
    obtain ⟨el, hel, rfl⟩ := List.mem_map.mp hent
    have hsome : c.m (c.value el).sub = some el := (h.index _ _).mpr ⟨hel, rfl⟩
    rw [hm] at hsome
    cases hsome
  | some el =>
    obtain ⟨hel, rfl⟩ := (h.index sub el).mp hm
    exact lookup_of_mem h.nodup (List.mem_map_of_mem hel)

/-- The list without an element has the entries without its own. -/
theorem Linked.map_erase (h : c.Linked) (hel : el ∈ c.ll) :
    (c.ll.erase el).map c.value = drop CacheEntry.sub (c.value el).sub c.entries := by
  rw [h.nodup_ll.erase_eq_filter, entries, drop, List.filter_map]
  congr 1
  refine List.filter_congr fun x hx => ?_
  by_cases heq : x = el
  · simp [heq]
  · have hsub : (c.value x).sub ≠ (c.value el).sub := fun hsub => heq (h.eq_of_sub hel hx hsub)
    simp [heq, hsub]

theorem Linked.entries_remove (h : c.Linked) (hel : el ∈ c.ll) :
    (c.remove el).entries = drop CacheEntry.sub (c.value el).sub c.entries :=
  h.map_erase hel

theorem Linked.remove (h : c.Linked) (hel : el ∈ c.ll) : (c.remove el).Linked := by
  refine ⟨?_, fun sub el' => ?_, fun el' hel' => h.fresh el' (List.mem_of_mem_erase hel')⟩
  · rw [h.entries_remove hel]
    exact nodup_drop h.nodup _
  · show Function.update c.m (c.value el).sub none sub = some el' ↔ el' ∈ c.ll.erase el ∧ _
    rw [h.nodup_ll.mem_erase_iff]
    by_cases hsub : sub = (c.value el).sub
    · subst hsub
      rw [Function.update_self]
      constructor
      · intro hnone
        cases hnone
      · rintro ⟨⟨hne, hmem⟩, heq⟩
        exact absurd (h.eq_of_sub hel hmem heq) hne
    · rw [Function.update_of_ne hsub, h.index]
      constructor
      · rintro ⟨hmem, rfl⟩
        refine ⟨⟨?_, hmem⟩, rfl⟩
        rintro rfl
        exact hsub rfl
      · rintro ⟨⟨-, hmem⟩, heq⟩
        exact ⟨hmem, heq⟩

theorem Linked.entries_moveToFront (h : c.Linked) (hel : el ∈ c.ll) :
    (c.moveToFront el).entries = touch CacheEntry.sub (c.value el) c.entries := by
  unfold moveToFront
  rw [if_pos hel, entries, List.map_cons, h.map_erase hel]
  rfl

theorem Linked.moveToFront (h : c.Linked) (el : ℕ) : (c.moveToFront el).Linked := by
  by_cases hel : el ∈ c.ll
  · have hmem : ∀ x, x ∈ el :: c.ll.erase el ↔ x ∈ c.ll := fun x =>
      (List.perm_cons_erase hel).mem_iff.symm
    refine ⟨?_, fun sub el' => ?_, fun el' hel' => ?_⟩
    · rw [h.entries_moveToFront hel]
      exact nodup_touch h.nodup _
    · unfold IdentityCache.moveToFront
      rw [if_pos hel, hmem]
      exact h.index sub el'
    · unfold IdentityCache.moveToFront at hel' ⊢
      rw [if_pos hel] at hel' ⊢
      exact h.fresh el' ((hmem el').mp hel')
  · unfold IdentityCache.moveToFront
    rwa [if_neg hel]

/-- A refreshed entry keeps its sub. -/
theorem sub_refresh (id : Identity) (expires : ℤ) (x : ℕ) :
    ((c.refresh el id expires).value x).sub = (c.value x).sub := by
  unfold refresh
  by_cases hx : x = el
  · subst hx
    simp
  · simp [hx]

theorem Linked.refresh (h : c.Linked) (el : ℕ) (id : Identity) (expires : ℤ) :
    (c.refresh el id expires).Linked := by
  refine ⟨?_, fun sub el' => ?_, h.fresh⟩
  · have hsubs : (c.refresh el id expires).entries.map CacheEntry.sub =
        c.entries.map CacheEntry.sub := by
      rw [entries, entries, List.map_map, List.map_map]
      exact List.map_congr_left fun x _ => sub_refresh id expires x
    rw [hsubs]
    exact h.nodup
  · rw [sub_refresh]
    exact h.index sub el'

/-- A refresh shows in no entry of another sub. -/
theorem Linked.drop_refresh (h : c.Linked) (hel : el ∈ c.ll) (id : Identity) (expires : ℤ) :
    drop CacheEntry.sub (c.value el).sub (c.refresh el id expires).entries =
      drop CacheEntry.sub (c.value el).sub c.entries := by
  have hel' : el ∈ (c.refresh el id expires).ll := hel
  have hrefreshed := (h.refresh el id expires).map_erase hel'
  rw [sub_refresh] at hrefreshed
  rw [← hrefreshed, ← h.map_erase hel]
  refine List.map_congr_left fun x hx => ?_
  have hne : x ≠ el := (h.nodup_ll.mem_erase_iff.mp hx).1
  exact Function.update_of_ne hne _ _

theorem Linked.entries_pushFront (h : c.Linked) (ent : CacheEntry) :
    (c.pushFront ent).entries = ent :: c.entries := by
  show Function.update c.value c.next ent c.next :: c.ll.map (Function.update c.value c.next ent) =
    ent :: c.ll.map c.value
  rw [Function.update_self]
  congr 1
  refine List.map_congr_left fun x hx => ?_
  have hlt := h.fresh x hx
  exact Function.update_of_ne (by omega) _ _

theorem Linked.pushFront (h : c.Linked) {ent : CacheEntry} (hm : c.m ent.sub = none) :
    (c.pushFront ent).Linked := by
  have hold : ∀ x ∈ c.ll, Function.update c.value c.next ent x = c.value x := by
    intro x hx
    have hlt := h.fresh x hx
    exact Function.update_of_ne (by omega) _ _
  refine ⟨?_, fun sub el => ?_, fun el hel => ?_⟩
  · rw [h.entries_pushFront, List.map_cons, List.nodup_cons]
    refine ⟨?_, h.nodup⟩
    rw [← lookup_eq_none, h.lookup_eq, hm, Option.map_none]
  · show Function.update c.m ent.sub (some c.next) sub = some el ↔ el ∈ c.next :: c.ll ∧
      (Function.update c.value c.next ent el).sub = sub
    by_cases hsub : sub = ent.sub
    · subst hsub
      rw [Function.update_self, List.mem_cons]
      constructor
      · intro heq
        obtain rfl := Option.some.inj heq
        simp
      · rintro ⟨rfl | hel, heq⟩
        · rfl
        · rw [hold el hel] at heq
          rw [(h.index ent.sub el).mpr ⟨hel, heq⟩] at hm
          cases hm
    · rw [Function.update_of_ne hsub, h.index, List.mem_cons]
      constructor
      · rintro ⟨hel, heq⟩
        exact ⟨.inr hel, by rw [hold el hel, heq]⟩
      · rintro ⟨rfl | hel, heq⟩
        · rw [Function.update_self] at heq
          exact absurd heq.symm hsub
        · rw [hold el hel] at heq
          exact ⟨hel, heq⟩
  · show el < c.next + 1
    rcases List.mem_cons.mp hel with rfl | hel
    · omega
    · have hlt := h.fresh el hel
      omega

theorem Linked.sound_remove (h : c.Linked) (hel : el ∈ c.ll) (hlen : c.ll.length ≤ c.max + 1) :
    (c.remove el).Sound := by
  refine ⟨h.remove hel, ?_⟩
  show (c.ll.erase el).length ≤ c.max
  rw [List.length_erase_of_mem hel]
  omega

theorem Sound.moveToFront (h : c.Sound) (hel : el ∈ c.ll) : (c.moveToFront el).Sound := by
  refine ⟨h.toLinked.moveToFront el, ?_⟩
  have hlen : (el :: c.ll.erase el).length = c.ll.length :=
    (List.perm_cons_erase hel).length_eq.symm
  unfold IdentityCache.moveToFront
  rw [if_pos hel, hlen]
  exact h.length_le

/-- **A read refines a read of the list.** -/
theorem Sound.get (h : c.Sound) (sub : String) (now : Time) :
    (c.get sub now).1.Sound ∧
      ((c.get sub now).1.entries, (c.get sub now).2) = got sub now c.entries := by
  unfold IdentityCache.get got
  rw [h.lookup_eq]
  cases hm : c.m sub with
  | none => exact ⟨h, rfl⟩
  | some el =>
    obtain ⟨hel, rfl⟩ := (h.index sub el).mp hm
    dsimp only [Option.map_some]
    by_cases hexpired : (c.value el).expires < now
    · rw [if_pos hexpired, if_pos hexpired]
      have hlen := h.length_le
      exact ⟨h.toLinked.sound_remove hel (by omega), by rw [h.entries_remove hel]⟩
    · rw [if_neg hexpired, if_neg hexpired]
      exact ⟨h.moveToFront hel, by rw [h.entries_moveToFront hel]⟩

/-- An entry is refreshed in its place, and moved to the front. -/
theorem Sound.add_present (h : c.Sound) (hm : c.m sub = some el) (id : Identity) (expires : ℤ) :
    ((c.refresh el id expires).moveToFront el).Sound ∧
      ((c.refresh el id expires).moveToFront el).entries =
        (touch CacheEntry.sub ⟨sub, id, expires⟩ c.entries).take c.max := by
  obtain ⟨hel, rfl⟩ := (h.index sub el).mp hm
  have hlinked := h.toLinked.refresh el id expires
  have hsound : (c.refresh el id expires).Sound := ⟨hlinked, h.length_le⟩
  have hvalue : (c.refresh el id expires).value el = ⟨(c.value el).sub, id, expires⟩ :=
    Function.update_self ..
  have hlen : (touch CacheEntry.sub ⟨(c.value el).sub, id, expires⟩ c.entries).length ≤ c.max := by
    have hfound : lookup CacheEntry.sub (c.value el).sub c.entries ≠ none := by
      rw [h.lookup_eq, hm]
      simp
    have hle := length_touch (a := (⟨(c.value el).sub, id, expires⟩ : CacheEntry)) hfound
    rw [entries, List.length_map] at hle
    exact le_trans hle h.length_le
  refine ⟨hsound.moveToFront hel, ?_⟩
  rw [hlinked.entries_moveToFront hel, hvalue, List.take_of_length_le hlen, touch,
    h.drop_refresh hel, touch]

/-- An entry that is pushed to the front of a full list pushes the last one out. -/
theorem Sound.add_absent (h : c.Sound) (ent : CacheEntry) (hm : c.m ent.sub = none) :
    (if (c.pushFront ent).max < (c.pushFront ent).ll.length then
        (c.pushFront ent).remove (c.pushFront ent).ll.getLast? else c.pushFront ent).Sound ∧
      (if (c.pushFront ent).max < (c.pushFront ent).ll.length then
        (c.pushFront ent).remove (c.pushFront ent).ll.getLast? else c.pushFront ent).entries =
        (touch CacheEntry.sub ent c.entries).take c.max := by
  have hlinked := h.pushFront hm
  have hlen := h.length_le
  have hpushed : (c.pushFront ent).ll.length = c.ll.length + 1 := rfl
  have hmax : (c.pushFront ent).max = c.max := rfl
  have htouch : touch CacheEntry.sub ent c.entries = (c.pushFront ent).entries := by
    have hnone : lookup CacheEntry.sub ent.sub c.entries = none := by
      rw [h.lookup_eq, hm, Option.map_none]
    rw [touch, drop_eq_self hnone, h.entries_pushFront]
  rw [htouch]
  generalize c.pushFront ent = c' at hlinked hpushed hmax
  by_cases hfull : c'.max < c'.ll.length
  · rw [if_pos hfull]
    -- the list is too long by one, and loses its last element
    rcases List.eq_nil_or_concat c'.ll with hnil | ⟨front, el, hll⟩
    · rw [hnil] at hpushed
      cases hpushed
    · rw [List.concat_eq_append] at hll
      have hel : el ∈ c'.ll := by rw [hll]; simp
      have hentries : c'.entries = front.map c'.value ++ [c'.value el] := by simp [entries, hll]
      have hfront : (front.map c'.value).length = c.max := by
        rw [hll, List.length_append, List.length_singleton] at hpushed hfull
        rw [List.length_map]
        omega
      have hlast : c'.ll.getLast? = some el := by rw [hll]; simp
      rw [hlast]
      refine ⟨hlinked.sound_remove hel (by omega), ?_⟩
      have hnodup := hlinked.nodup
      rw [hlinked.entries_remove hel, hentries]
      rw [hentries] at hnodup
      rw [drop_last hnodup, List.take_left' hfront]
  · rw [if_neg hfull]
    refine ⟨⟨hlinked, by omega⟩, ?_⟩
    rw [List.take_of_length_le]
    rw [entries, List.length_map]
    omega

/-- **A write refines a write to the list.** -/
theorem Sound.add (h : c.Sound) (sub : String) (id : Identity) (now : Time) :
    (c.add sub id now).Sound ∧
      (c.add sub id now).entries = added c.max c.ttl sub id now c.entries := by
  unfold IdentityCache.add added
  cases hm : c.m sub with
  | some el => exact h.add_present hm id (now + c.ttl)
  | none => exact h.add_absent ⟨sub, id, now + c.ttl⟩ hm

/-- No call changes the size or the TTL. -/
theorem same_get (c : IdentityCache) (sub : String) (now : Time) :
    (c.get sub now).1.max = c.max ∧ (c.get sub now).1.ttl = c.ttl := by
  unfold IdentityCache.get IdentityCache.moveToFront IdentityCache.remove
  split
  · exact ⟨rfl, rfl⟩
  · split
    · exact ⟨rfl, rfl⟩
    · split <;> exact ⟨rfl, rfl⟩

theorem same_add (c : IdentityCache) (sub : String) (id : Identity) (now : Time) :
    (c.add sub id now).max = c.max ∧ (c.add sub id now).ttl = c.ttl := by
  unfold IdentityCache.add IdentityCache.moveToFront IdentityCache.remove
  split
  · split <;> exact ⟨rfl, rfl⟩
  · dsimp only
    split
    · split <;> exact ⟨rfl, rfl⟩
    · exact ⟨rfl, rfl⟩

/-- A cache that is made is sound. -/
theorem sound_new (max : ℕ) (ttl : ℤ) : (newIdentityCache max ttl).Sound := by
  refine ⟨⟨?_, fun sub el => ?_, fun el hel => ?_⟩, Nat.zero_le _⟩
  · simp [newIdentityCache, entries]
  · simp [newIdentityCache]
  · simp [newIdentityCache] at hel

end IdentityCache

/-! ### A history of calls -/

/-- A call, with the reading of the clock in it. -/
inductive CacheCall where
  | get (sub : String) (now : Time)
  | add (sub : String) (id : Identity) (now : Time)
  deriving DecidableEq, Repr

/-- The reading of the clock. -/
def CacheCall.now : CacheCall → Time
  | .get _ now | .add _ _ now => now

/-- A call that has returned; `add` answers nothing. -/
structure CacheReturn where
  call : CacheCall
  answer : Option Identity
  deriving DecidableEq, Repr

/-- What a call leaves and answers. -/
def CacheCall.run (c : IdentityCache) : CacheCall → IdentityCache × Option Identity
  | .get sub now => c.get sub now
  | .add sub id now => (c.add sub id now, none)

/-- The calls on a cache, which its mutex has one after the other. -/
def cacheCalls : Lts IdentityCache CacheCall CacheReturn where
  step c call := some ((call.run c).1, [⟨call, (call.run c).2⟩])

/-- The clock has not gone back since the calls of a history. -/
def NotBack (tr : List CacheReturn) (now : Time) : Prop := ∀ a ∈ tr, a.call.now ≤ now

instance (tr : List CacheReturn) (now : Time) : Decidable (NotBack tr now) :=
  inferInstanceAs (Decidable (∀ a ∈ tr, _))

/-- What a call adds for a sub, and when. -/
def CacheReturn.adds (sub : String) (a : CacheReturn) : Option (Identity × Time) :=
  match a.call with
  | .add s id now => if s = sub then some (id, now) else none
  | .get _ _ => none

/-- The sub a call adds, or hits. -/
def CacheReturn.touched (a : CacheReturn) : Option String :=
  match a.call, a.answer with
  | .add s _ _, _ => some s
  | .get s _, some _ => some s
  | .get _ _, none => none

/-- The latest `add` of a sub. -/
def lastAdd (sub : String) (tr : List CacheReturn) : Option (Identity × Time) :=
  tr.foldl (fun last a => (a.adds sub).or last) none

/-- The other subs that were added or hit since a sub was last added or hit. -/
def touchedSince (sub : String) (tr : List CacheReturn) : Finset String :=
  tr.foldl (fun others a =>
    match a.touched with
    | none => others
    | some s => if s = sub then ∅ else insert s others) ∅

theorem lastAdd_snoc (sub : String) (tr : List CacheReturn) (a : CacheReturn) :
    lastAdd sub (tr ++ [a]) = (a.adds sub).or (lastAdd sub tr) := by
  simp [lastAdd]

theorem touchedSince_snoc (sub : String) (tr : List CacheReturn) (a : CacheReturn) :
    touchedSince sub (tr ++ [a]) =
      match a.touched with
      | none => touchedSince sub tr
      | some s => if s = sub then ∅ else insert s (touchedSince sub tr) := by
  simp [touchedSince]

/-- What the list of the entries has of the history. -/
structure Remembers (max : ℕ) (ttl : ℤ) (l : List CacheEntry) (tr : List CacheReturn) : Prop where
  /-- An entry is what was last added for its sub. -/
  recorded : ∀ ent ∈ l, ∃ t : Time, lastAdd ent.sub tr = some (ent.id, t) ∧ ent.expires = t + ttl
  /-- What stands before an entry was used after it. -/
  recent : ∀ ent ∈ l, ∀ x ∈ ahead CacheEntry.sub ent.sub l, x ∈ touchedSince ent.sub tr
  /-- What was added and is no entry was pushed out, or found expired. -/
  lost : ∀ sub id t, lastAdd sub tr = some (id, t) → lookup CacheEntry.sub sub l = none →
    max ≤ (touchedSince sub tr).card ∨ ∃ a ∈ tr, t + ttl < a.call.now

section Remembers

variable {max : ℕ} {ttl : ℤ} {l : List CacheEntry} {tr : List CacheReturn} {a : CacheReturn}

/-- A call that uses an entry moves it to the front, where others may be pushed out. -/
theorem Remembers.used (h : Remembers max ttl l tr) (hl : (l.map CacheEntry.sub).Nodup)
    (ent : CacheEntry) (ha : a.touched = some ent.sub)
    (hent : ∃ t : Time, lastAdd ent.sub (tr ++ [a]) = some (ent.id, t) ∧ ent.expires = t + ttl)
    (hothers : ∀ sub, sub ≠ ent.sub → a.adds sub = none) :
    Remembers max ttl ((touch CacheEntry.sub ent l).take max) (tr ++ [a]) := by
  -- the call adds no other subject, and is one more touched since for each of them
  have hlast : ∀ sub, sub ≠ ent.sub → lastAdd sub (tr ++ [a]) = lastAdd sub tr := by
    intro sub hsub
    rw [lastAdd_snoc, hothers sub hsub, Option.none_or]
  have hself : touchedSince ent.sub (tr ++ [a]) = ∅ := by
    rw [touchedSince_snoc, ha]
    simp
  have hsince : ∀ sub, sub ≠ ent.sub →
      touchedSince sub (tr ++ [a]) = insert ent.sub (touchedSince sub tr) := by
    intro sub hsub
    rw [touchedSince_snoc, ha]
    exact if_neg hsub.symm
  have hmem : ∀ x ∈ (touch CacheEntry.sub ent l).take max, x = ent ∨ x ∈ l ∧ x.sub ≠ ent.sub := by
    intro x hx
    exact (List.mem_cons.mp (List.mem_of_mem_take hx)).imp_right mem_drop.mp
  refine ⟨fun x hx => ?_, fun x hx y hy => ?_, fun sub id t hadd hnone => ?_⟩
  · rcases hmem x hx with rfl | ⟨hx, hne⟩
    · exact hent
    · rw [hlast _ hne]
      exact h.recorded x hx
  · have hy' := ahead_take_subset _ _ _ y hy
    rcases hmem x hx with rfl | ⟨hx, hne⟩
    · rw [touch, ahead_cons_self] at hy'
      exact absurd hy' List.not_mem_nil
    · rw [hsince _ hne, Finset.mem_insert]
      exact (ahead_touch_subset hne l y hy').imp_right (h.recent x hx y)
  · by_cases hsub : sub = ent.sub
    · -- only a cache of no size loses what it was just given
      subst hsub
      refine .inl (le_card_of_lookup_take (nodup_touch hl ent) ?_ hnone fun x hx => ?_)
      · rw [lookup_touch_self]
        simp
      · rw [touch, ahead_cons_self] at hx
        exact absurd hx List.not_mem_nil
    · rw [hlast sub hsub] at hadd
      rw [hsince sub hsub]
      cases hfound : lookup CacheEntry.sub sub l with
      | none =>
        rcases h.lost sub id t hadd hfound with hcard | ⟨b, hb, hlt⟩
        · exact .inl (le_trans hcard (Finset.card_le_card (Finset.subset_insert _ _)))
        · exact .inr ⟨b, List.mem_append_left _ hb, hlt⟩
      | some x =>
        obtain ⟨hx, rfl⟩ := of_lookup hfound
        refine .inl (le_card_of_lookup_take (nodup_touch hl ent) ?_ hnone fun y hy => ?_)
        · rw [lookup_touch_of_ne hsub, hfound]
          simp
        · rw [Finset.mem_insert]
          exact (ahead_touch_subset hsub l y hy).imp_right (h.recent x hx y)

/-- A read that misses leaves the history as it is. -/
theorem Remembers.missed (h : Remembers max ttl l tr) (ha : a.touched = none)
    (hadds : ∀ sub, a.adds sub = none) : Remembers max ttl l (tr ++ [a]) := by
  have hlast : ∀ sub, lastAdd sub (tr ++ [a]) = lastAdd sub tr := by
    intro sub
    rw [lastAdd_snoc, hadds sub, Option.none_or]
  have hsince : ∀ sub, touchedSince sub (tr ++ [a]) = touchedSince sub tr := by
    intro sub
    rw [touchedSince_snoc, ha]
  refine ⟨fun x hx => ?_, fun x hx => ?_, fun sub id t hadd hnone => ?_⟩
  · rw [hlast]
    exact h.recorded x hx
  · rw [hsince]
    exact h.recent x hx
  · rw [hlast] at hadd
    rw [hsince]
    refine (h.lost sub id t hadd hnone).imp_right ?_
    rintro ⟨b, hb, hlt⟩
    exact ⟨b, List.mem_append_left _ hb, hlt⟩

/-- An entry that is found expired is dropped. -/
theorem Remembers.expired (h : Remembers max ttl l tr) {ent : CacheEntry} (hent : ent ∈ l)
    (ha : a ∈ tr) (hlt : ent.expires < a.call.now) :
    Remembers max ttl (drop CacheEntry.sub ent.sub l) tr := by
  refine ⟨fun x hx => ?_, fun x hx y hy => ?_, fun sub id t hadd hnone => ?_⟩
  · exact h.recorded x (mem_drop.mp hx).1
  · obtain ⟨hx, hne⟩ := mem_drop.mp hx
    exact h.recent x hx y (ahead_drop_subset hne l y hy)
  · by_cases hsub : sub = ent.sub
    · subst hsub
      obtain ⟨t', hadd', hexp⟩ := h.recorded ent hent
      rw [hadd] at hadd'
      obtain ⟨rfl, rfl⟩ := Prod.mk.inj (Option.some.inj hadd')
      exact .inr ⟨a, ha, by omega⟩
    · rw [lookup_drop_of_ne hsub] at hnone
      exact h.lost sub id t hadd hnone

/-- A read keeps what the list has of the history. -/
theorem Remembers.got (h : Remembers max ttl l tr) (hl : (l.map CacheEntry.sub).Nodup)
    (hlen : l.length ≤ max) (sub : String) (now : Time) :
    Remembers max ttl (got sub now l).1 (tr ++ [⟨.get sub now, (got sub now l).2⟩]) := by
  unfold Api.got
  cases hfound : lookup CacheEntry.sub sub l with
  | none => exact h.missed rfl fun _ => rfl
  | some ent =>
    obtain ⟨hent, rfl⟩ := of_lookup hfound
    by_cases hlt : ent.expires < now
    · dsimp only
      rw [if_pos hlt]
      have hmissed : Remembers max ttl l (tr ++ [⟨.get ent.sub now, none⟩]) :=
        h.missed rfl fun _ => rfl
      exact hmissed.expired hent (List.mem_append_right _ (List.mem_singleton_self _)) hlt
    · dsimp only
      rw [if_neg hlt]
      have hfit : (touch CacheEntry.sub ent l).length ≤ max := by
        refine le_trans (length_touch ?_) hlen
        rw [hfound]
        simp
      obtain ⟨t, hadd, hexp⟩ := h.recorded ent hent
      have hlast : lastAdd ent.sub (tr ++ [⟨.get ent.sub now, some ent.id⟩]) =
          some (ent.id, t) := by
        rw [lastAdd_snoc, hadd]
        rfl
      have hused := h.used hl ent rfl ⟨t, hlast, hexp⟩ fun _ _ => rfl
      rwa [List.take_of_length_le hfit] at hused

/-- A write keeps what the list has of the history. -/
theorem Remembers.added (h : Remembers max ttl l tr) (hl : (l.map CacheEntry.sub).Nodup)
    (sub : String) (id : Identity) (now : Time) :
    Remembers max ttl (added max ttl sub id now l) (tr ++ [⟨.add sub id now, none⟩]) := by
  refine h.used hl ⟨sub, id, now + ttl⟩ rfl ⟨now, ?_, rfl⟩ fun s hs => ?_
  · rw [lastAdd_snoc]
    simp [CacheReturn.adds]
  · simp [CacheReturn.adds, hs.symm]

end Remembers

/-- Every cache that is reached is sound, has the size and the TTL it was made with, and remembers
its history. -/
theorem cacheCalls_invariant {max : ℕ} {ttl : ℤ} {calls : List CacheCall} {c : IdentityCache}
    {tr : List CacheReturn} (h : cacheCalls.Run (newIdentityCache max ttl) calls c tr) :
    c.Sound ∧ (c.max = max ∧ c.ttl = ttl) ∧ Remembers max ttl c.entries tr := by
  refine h.invariant (J := fun c tr => c.Sound ∧ (c.max = max ∧ c.ttl = ttl) ∧
    Remembers max ttl c.entries tr) ⟨IdentityCache.sound_new max ttl, ⟨rfl, rfl⟩, ?_⟩ ?_
  · refine ⟨?_, ?_, ?_⟩ <;> simp [newIdentityCache, IdentityCache.entries, lastAdd]
  · rintro c tr call c' as ⟨hsound, ⟨rfl, rfl⟩, hrem⟩ - hstep
    cases hstep
    have hlen : c.entries.length ≤ c.max := by
      rw [IdentityCache.entries, List.length_map]
      exact hsound.length_le
    cases call with
    | get sub now =>
      obtain ⟨hsound', heq⟩ := hsound.get sub now
      have hrem' := hrem.got hsound.nodup hlen sub now
      rw [← heq] at hrem'
      refine ⟨hsound', ?_, hrem'⟩
      show (c.get sub now).1.max = c.max ∧ (c.get sub now).1.ttl = c.ttl
      exact c.same_get sub now
    | add sub id now =>
      obtain ⟨hsound', heq⟩ := hsound.add sub id now
      have hrem' := hrem.added hsound.nodup sub id now
      rw [← heq] at hrem'
      refine ⟨hsound', ?_, hrem'⟩
      show (c.add sub id now).max = c.max ∧ (c.add sub id now).ttl = c.ttl
      exact c.same_add sub id now

/-- **A bounded LRU map with a TTL.**  The list and the index always hold the same entries, one for
each sub, and at most `max`.  A read answers nothing but the identity that was last added, at most
`ttl` ago; and it does answer it, if fewer than `max` other subs were used since. -/
theorem identityCache_faithful {max : ℕ} {ttl : ℤ} {calls : List CacheCall} {c : IdentityCache}
    {tr : List CacheReturn}
    (h : cacheCalls.RunWhere (fun _ tr call => NotBack tr call.now) (newIdentityCache max ttl) calls
      c tr) :
    (c.Sound ∧ c.max = max) ∧ ∀ sub (now : Time), NotBack tr now →
      (∀ id, (c.get sub now).2 = some id →
        ∃ t : Time, lastAdd sub tr = some (id, t) ∧ now ≤ t + ttl) ∧
      ∀ id (t : Time), lastAdd sub tr = some (id, t) → now ≤ t + ttl →
        (touchedSince sub tr).card < max → (c.get sub now).2 = some id := by
  obtain ⟨hsound, ⟨hmax, -⟩, hrem⟩ := cacheCalls_invariant h.run
  refine ⟨⟨hsound, hmax⟩, fun sub now hclock => ?_⟩
  obtain ⟨-, heq⟩ := hsound.get sub now
  have hanswer : (c.get sub now).2 = (got sub now c.entries).2 := congrArg Prod.snd heq
  rw [hanswer]
  unfold got
  cases hfound : lookup CacheEntry.sub sub c.entries with
  | none =>
    refine ⟨fun id hid => ?_, fun id t hadd hage hfew => ?_⟩
    · cases hid
    · rcases hrem.lost sub id t hadd hfound with hmany | ⟨a, ha, hlt⟩
      · omega
      · have hle : (a.call.now : ℤ) ≤ now := Int.ofNat_le.mpr (hclock a ha)
        omega
  | some ent =>
    obtain ⟨hent, rfl⟩ := of_lookup hfound
    obtain ⟨t, hadd, hexp⟩ := hrem.recorded ent hent
    dsimp only
    -- an entry that has expired is dropped, and is then older than `ttl`
    by_cases hlt : ent.expires < now
    · rw [if_pos hlt]
      refine ⟨fun id hid => ?_, fun id t' hadd' hage _ => ?_⟩
      · cases hid
      · rw [hadd] at hadd'
        obtain ⟨-, rfl⟩ := Prod.mk.inj (Option.some.inj hadd')
        omega
    · rw [if_neg hlt]
      refine ⟨fun id hid => ?_, fun id t' hadd' _ _ => ?_⟩
      · obtain rfl := Option.some.inj hid
        exact ⟨t, hadd, by omega⟩
      · rw [hadd] at hadd'
        obtain ⟨rfl, -⟩ := Prod.mk.inj (Option.some.inj hadd')
        rfl

/-- One more call. -/
theorem cacheCalls_snoc {c₀ c : IdentityCache} {calls : List CacheCall} {tr : List CacheReturn}
    (h : cacheCalls.RunWhere (fun _ tr call => NotBack tr call.now) c₀ calls c tr)
    (call : CacheCall) (hclock : NotBack tr call.now) :
    cacheCalls.RunWhere (fun _ tr call => NotBack tr call.now) c₀ (calls ++ [call]) (call.run c).1
      (tr ++ [⟨call, (call.run c).2⟩]) :=
  .snoc h hclock rfl

/-- Two users share a cache of two; the one who was added first is still found. -/
theorem earlier_user_found : ∃ c tr,
    cacheCalls.RunWhere (fun _ tr call => NotBack tr call.now) (newIdentityCache 2 (30 * minute))
      [.add "ada" ⟨"ada", "Ada", "ada@acme.io", "acme"⟩ 0,
        .add "bob" ⟨"bob", "Bob", "bob@acme.io", "acme"⟩ second] c tr ∧
    (c.get "ada" minute).2 = some ⟨"ada", "Ada", "ada@acme.io", "acme"⟩ := by
  have hnew : cacheCalls.RunWhere (fun _ tr call => NotBack tr call.now)
      (newIdentityCache 2 (30 * minute)) [] (newIdentityCache 2 (30 * minute)) [] := .refl
  have hrun := cacheCalls_snoc (cacheCalls_snoc hnew
    (.add "ada" ⟨"ada", "Ada", "ada@acme.io", "acme"⟩ 0) (by decide))
    (.add "bob" ⟨"bob", "Bob", "bob@acme.io", "acme"⟩ second) (by decide)
  refine ⟨_, _, hrun, ?_⟩
  exact ((identityCache_faithful hrun).2 "ada" minute (by decide)).2 _ 0 rfl (by decide) (by decide)

end Api
end Hivebook
