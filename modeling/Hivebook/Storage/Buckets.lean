import Mathlib.Data.List.Forall2
import Hivebook.Storage
import Hivebook.Api.Handlers

/-!
# When two connectors and regions share a bucket

`Store.Bucket` joins the environment, the connector and the region by hyphens and then maps
every rune to one that a bucket name may have.  Both steps lose something: runes that the map
identifies, and the place of the hyphen that stood between the connector and the region.

## Main definitions

* `SameRune`, `Alike` — what the map identifies.
* `Shifted` — the joining hyphen of one name stands inside a field of the other.
* `Collide` — two pairs that the name does not tell apart.

## Main results

* `bucket_eq_iff` — **two pairs share a bucket exactly when they collide.**
* `bucket_separates_iff` — **a bucket belongs to one pair, unless the pairs collide.**
* `bucket_shared` — the buckets of the two GitHub connectors that are one.
* `bucket_inj_of_plain` — names without hyphens and capitals keep their buckets apart.
-/

namespace Hivebook
namespace Storage

/-! ### What the map identifies -/

/-- The runes that `bucketSafe` does not replace by a hyphen. -/
def Kept (c : Char) : Prop := ('a' ≤ c ∧ c ≤ 'z') ∨ ('0' ≤ c ∧ c ≤ '9')

instance (c : Char) : Decidable (Kept c) := inferInstanceAs (Decidable (_ ∨ _))

/-- Two runes that are one in a bucket name: equal but for their case, or both hyphenated. -/
def SameRune (a b : Char) : Prop :=
  lowerRune a = lowerRune b ∨ (¬ Kept (lowerRune a) ∧ ¬ Kept (lowerRune b))

instance (a b : Char) : Decidable (SameRune a b) := inferInstanceAs (Decidable (_ ∨ _))

/-- Two strings that are one in a bucket name, rune by rune. -/
def Alike (x y : String) : Prop := List.Forall₂ SameRune x.toList y.toList

theorem kept_ne_hyphen {c : Char} (h : Kept c) : c ≠ '-' := by
  rintro rfl
  revert h
  decide

theorem bucketRune_of_kept {c : Char} (h : Kept c) : bucketRune c = c :=
  if_pos (h.elim Or.inl fun h => Or.inr (Or.inl h))

theorem bucketRune_of_not_kept {c : Char} (h : ¬ Kept c) : bucketRune c = '-' := by
  unfold bucketRune
  by_cases hc : c = '-'
  · rw [if_pos (Or.inr (Or.inr hc)), hc]
  · refine if_neg ?_
    rintro (hl | hd | he)
    · exact h (Or.inl hl)
    · exact h (Or.inr hd)
    · exact hc he

/-- The map of `bucketSafe` identifies just these runes. -/
theorem bucketRune_eq_iff (a b : Char) :
    bucketRune (lowerRune a) = bucketRune (lowerRune b) ↔ SameRune a b := by
  by_cases ha : Kept (lowerRune a) <;> by_cases hb : Kept (lowerRune b)
  · rw [bucketRune_of_kept ha, bucketRune_of_kept hb]
    exact ⟨Or.inl, fun h => h.elim id fun h => absurd ha h.1⟩
  · rw [bucketRune_of_kept ha, bucketRune_of_not_kept hb]
    refine ⟨fun h => absurd h (kept_ne_hyphen ha), fun h => ?_⟩
    rcases h with h | h
    · exact absurd (h ▸ ha) hb
    · exact absurd ha h.1
  · rw [bucketRune_of_not_kept ha, bucketRune_of_kept hb]
    refine ⟨fun h => absurd h.symm (kept_ne_hyphen hb), fun h => ?_⟩
    rcases h with h | h
    · exact absurd (h ▸ hb) ha
    · exact absurd hb h.2
  · rw [bucketRune_of_not_kept ha, bucketRune_of_not_kept hb]
    exact ⟨fun _ => Or.inr ⟨ha, hb⟩, fun _ => rfl⟩

/-- The runes of a bucket name. -/
def safeRunes (l : List Char) : List Char := l.map fun c => bucketRune (lowerRune c)

theorem safeRunes_append (l m : List Char) : safeRunes (l ++ m) = safeRunes l ++ safeRunes m :=
  List.map_append

theorem safeRunes_eq_iff (l m : List Char) :
    safeRunes l = safeRunes m ↔ List.Forall₂ SameRune l m := by
  induction l generalizing m with
  | nil => cases m <;> simp [safeRunes]
  | cons a l ih =>
    cases m with
    | nil => simp [safeRunes]
    | cons b m =>
      rw [List.forall₂_cons, ← ih, ← bucketRune_eq_iff]
      exact List.cons_eq_cons

theorem bucketSafe_eq_iff (x y : String) : bucketSafe x = bucketSafe y ↔ Alike x y := by
  unfold Alike
  rw [← safeRunes_eq_iff]
  exact String.ofList_inj

/-! ### Where the border falls -/

/-- The first name's border falls before the second's: the second connector has a hyphen, or
a rune that becomes one, and with what follows it the first region begins. -/
def Shifted (c r c' r' : String) : Prop :=
  ∃ t : String, Alike c' (c ++ "-" ++ t) ∧ Alike r (t ++ "-" ++ r')

/-- Two pairs of a connector and a region that a bucket name does not tell apart. -/
def Collide (c r c' r' : String) : Prop :=
  (Alike c c' ∧ Alike r r') ∨ Shifted c r c' r' ∨ Shifted c' r' c r

/-- What follows a hyphen of a name comes from what follows a rune of the string. -/
theorem exists_tail_of_safeRunes {l : List Char} {m t : List Char}
    (h : safeRunes l = m ++ '-' :: t) : ∃ t₀, safeRunes t₀ = t := by
  obtain ⟨_, l₂, _, _, h₂⟩ := List.map_eq_append_iff.mp h
  obtain ⟨_, t₀, _, _, ht⟩ := List.map_eq_cons_iff.mp h₂
  exact ⟨t₀, ht⟩

/-- A border that falls earlier leaves the rest of the longer field to the other one. -/
theorem border_eq_of_append {x y x' y' a : List Char}
    (hx : safeRunes x' = safeRunes x ++ a)
    (hy : '-' :: safeRunes y = a ++ '-' :: safeRunes y') :
    (safeRunes x = safeRunes x' ∧ safeRunes y = safeRunes y') ∨
      ∃ t, safeRunes x' = safeRunes x ++ '-' :: safeRunes t ∧
        safeRunes y = safeRunes t ++ '-' :: safeRunes y' := by
  cases a with
  | nil =>
    rw [List.append_nil] at hx
    exact Or.inl ⟨hx.symm, (List.cons.inj hy).2⟩
  | cons b t =>
    obtain ⟨rfl, ht⟩ := List.cons.inj hy
    obtain ⟨t₀, rfl⟩ := exists_tail_of_safeRunes hx
    exact Or.inr ⟨t₀, hx, ht⟩

theorem border_eq_iff (x y x' y' : List Char) :
    safeRunes x ++ '-' :: safeRunes y = safeRunes x' ++ '-' :: safeRunes y' ↔
      (safeRunes x = safeRunes x' ∧ safeRunes y = safeRunes y') ∨
        (∃ t, safeRunes x' = safeRunes x ++ '-' :: safeRunes t ∧
          safeRunes y = safeRunes t ++ '-' :: safeRunes y') ∨
        ∃ t, safeRunes x = safeRunes x' ++ '-' :: safeRunes t ∧
          safeRunes y' = safeRunes t ++ '-' :: safeRunes y := by
  constructor
  · intro h
    rcases List.append_eq_append_iff.mp h with ⟨a, hx, hy⟩ | ⟨a, hx, hy⟩
    · exact (border_eq_of_append hx hy).imp_right Or.inl
    · rcases border_eq_of_append hx hy with ⟨he, he'⟩ | hs
      · exact Or.inl ⟨he.symm, he'.symm⟩
      · exact Or.inr (Or.inr hs)
  · rintro (⟨hx, hy⟩ | ⟨t, hx, hy⟩ | ⟨t, hx, hy⟩)
    · rw [hx, hy]
    · rw [hx, hy, List.append_assoc, List.cons_append]
    · rw [hx, hy, List.append_assoc, List.cons_append]

theorem safeRunes_eq_iff_alike (x y : String) :
    safeRunes x.toList = safeRunes y.toList ↔ Alike x y :=
  safeRunes_eq_iff _ _

/-- A joined string, rune by rune. -/
theorem safeRunes_joined (x y : String) :
    safeRunes (x ++ "-" ++ y).toList = safeRunes x.toList ++ '-' :: safeRunes y.toList := by
  have hlist : (x ++ "-" ++ y).toList = x.toList ++ ('-' :: y.toList) := by
    simp
  rw [hlist, safeRunes_append]
  rfl

theorem shifted_iff (c r c' r' : String) :
    Shifted c r c' r' ↔ ∃ t, safeRunes c'.toList = safeRunes c.toList ++ '-' :: safeRunes t ∧
      safeRunes r.toList = safeRunes t ++ '-' :: safeRunes r'.toList := by
  constructor
  · rintro ⟨t, hc, hr⟩
    rw [← safeRunes_eq_iff_alike, safeRunes_joined] at hc hr
    exact ⟨t.toList, hc, hr⟩
  · rintro ⟨t, hc, hr⟩
    refine ⟨String.ofList t, ?_, ?_⟩
    · rw [← safeRunes_eq_iff_alike, safeRunes_joined, String.toList_ofList]
      exact hc
    · rw [← safeRunes_eq_iff_alike, safeRunes_joined, String.toList_ofList]
      exact hr

/-- **Two pairs share a bucket exactly when they collide.**  The environment has no say in
it. -/
theorem bucket_eq_iff (env c r c' r' : String) :
    bucket env c r = bucket env c' r' ↔ Collide c r c' r' := by
  have hname : ∀ x y : String, ("hivebook-" ++ env ++ "-" ++ x ++ "-" ++ y).toList =
      ("hivebook-" ++ env ++ "-").toList ++ (x ++ "-" ++ y).toList := by
    intro x y
    simp
  have hbucket : bucket env c r = bucket env c' r' ↔
      safeRunes (c ++ "-" ++ r).toList = safeRunes (c' ++ "-" ++ r').toList := by
    unfold bucket
    rw [bucketSafe_eq_iff, ← safeRunes_eq_iff_alike, hname, hname, safeRunes_append,
      safeRunes_append, List.append_cancel_left_eq]
  rw [hbucket, safeRunes_joined, safeRunes_joined, border_eq_iff, ← shifted_iff, ← shifted_iff,
    safeRunes_eq_iff_alike, safeRunes_eq_iff_alike]
  rfl

/-- **A bucket belongs to one connector and one region, unless the pairs collide.** -/
theorem bucket_separates_iff (env c r c' r' : String) :
    (bucket env c r = bucket env c' r' → c = c' ∧ r = r') ↔
      (c = c' ∧ r = r') ∨ ¬ Collide c r c' r' := by
  rw [bucket_eq_iff]
  by_cases h : Collide c r c' r'
  · exact ⟨fun hi => Or.inl (hi h), fun hor _ => hor.resolve_right (not_not_intro h)⟩
  · exact ⟨fun _ => Or.inr h, fun _ hc => absurd hc h⟩

/-- The personal-token connector of one region shares its bucket with the App of another. -/
theorem bucket_shared : ∃ env c r c' r' : String,
    Api.validRegion r = true ∧ Api.validRegion r' = true ∧
      bucket env c r = bucket env c' r' ∧ c ≠ c' ∧ r ≠ r' :=
  ⟨"prod", "github", "pat-eu", "github_pat", "eu", by decide, by decide, by decide +kernel,
    by decide, by decide⟩

/-! ### Names without hyphens -/

/-- A field of lower-case letters and digits only. -/
def Plain (x : String) : Prop := ∀ c ∈ x.toList, Kept c

theorem lowerRune_of_kept {c : Char} (h : Kept c) : lowerRune c = c := by
  have hcapital : ¬ ('A' ≤ c ∧ c ≤ 'Z') := by
    rintro ⟨hA, hZ⟩
    rcases h with ⟨ha, _⟩ | ⟨_, h9⟩
    · exact absurd (Char.le_trans ha hZ) (by decide)
    · exact absurd (Char.le_trans hA h9) (by decide)
  unfold lowerRune
  rw [if_neg (by rintro rfl; revert h; decide), if_neg (by rintro rfl; revert h; decide)]
  exact dif_neg fun h => hcapital ⟨h.1, h.2⟩

theorem sameRune_iff_of_kept {a b : Char} (ha : Kept a) (hb : Kept b) :
    SameRune a b ↔ a = b := by
  unfold SameRune
  rw [lowerRune_of_kept ha, lowerRune_of_kept hb]
  exact ⟨fun h => h.elim id fun h => absurd ha h.1, Or.inl⟩

theorem eq_of_alike {x y : String} (hx : Plain x) (hy : Plain y) (h : Alike x y) : x = y := by
  refine String.toList_inj.mp (List.forall₂_eq_eq_eq ▸ ?_)
  have hforall := List.forall₂_iff_zip.mp h
  refine List.forall₂_iff_zip.mpr ⟨hforall.1, fun {a b} hmem => ?_⟩
  have hmem' := List.of_mem_zip hmem
  exact (sameRune_iff_of_kept (hx a hmem'.1) (hy b hmem'.2)).mp (hforall.2 hmem)

theorem not_shifted_of_plain {c r c' r' : String} (h : Plain c') : ¬ Shifted c r c' r' := by
  rw [shifted_iff]
  rintro ⟨t, hc, _⟩
  have hmem : '-' ∈ safeRunes c'.toList := by
    rw [hc]
    exact List.mem_append_right _ (List.mem_cons_self ..)
  obtain ⟨a, ha, hrune⟩ := List.mem_map.mp hmem
  have hkept := h a ha
  rw [lowerRune_of_kept hkept, bucketRune_of_kept hkept] at hrune
  exact kept_ne_hyphen hkept hrune

/-- Fields of lower-case letters and digits never collide. -/
theorem bucket_inj_of_plain {env c r c' r' : String} (hc : Plain c) (hr : Plain r)
    (hc' : Plain c') (hr' : Plain r') (h : bucket env c r = bucket env c' r') :
    c = c' ∧ r = r' := by
  rcases (bucket_eq_iff ..).mp h with ⟨he, he'⟩ | hs | hs
  · exact ⟨eq_of_alike hc hc' he, eq_of_alike hr hr' he'⟩
  · exact absurd hs (not_shifted_of_plain hc')
  · exact absurd hs (not_shifted_of_plain hc)

end Storage
end Hivebook
