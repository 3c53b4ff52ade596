import Hivebook.Basic

/-!
# Object storage

`storage.Store` keeps one bucket per connector and region and addresses an object
by `<tenant-id>/<key>` inside it.  The stored key of an artifact is the bucket and
the object joined by a slash, and is cut at its first slash to find them again.

## Main results

* `cut_objectKey` — **a stored key finds the object it was made for.**
-/

namespace Hivebook
namespace Storage

/-- An object and the content type it was put with. -/
structure StoredObject where
  contentType : String
  body : Bytes
  deriving DecidableEq, Repr

/-- The lower-case letter of a rune, for the runes whose lower case is a letter
`a`–`z`: besides the capitals, the dotted capital I and the Kelvin sign. -/
def lowerRune (c : Char) : Char :=
  if c = '\u0130' then 'i' else if c = '\u212a' then 'k' else c.toLower

/-- The runes a bucket name may have. -/
def bucketRune (c : Char) : Char :=
  if ('a' ≤ c ∧ c ≤ 'z') ∨ ('0' ≤ c ∧ c ≤ '9') ∨ c = '-' then c else '-'

/-- `bucketSafe`. -/
def bucketSafe (name : String) : String :=
  String.ofList (name.toList.map fun c => bucketRune (lowerRune c))

/-- `Store.Bucket`. -/
def bucket (env connector region : String) : String :=
  bucketSafe ("hivebook-" ++ env ++ "-" ++ connector ++ "-" ++ region)

/-- `strings.Cut(storedKey, "/")`. -/
def cut (storedKey : String) : Option (String × String) :=
  match storedKey.toList.dropWhile (· ≠ '/') with
  | [] => none
  | _ :: object =>
      some (String.ofList (storedKey.toList.takeWhile (· ≠ '/')), String.ofList object)

theorem bucketRune_ne_slash (c : Char) : bucketRune c ≠ '/' := by
  unfold bucketRune
  by_cases h : ('a' ≤ c ∧ c ≤ 'z') ∨ ('0' ≤ c ∧ c ≤ '9') ∨ c = '-'
  · rw [if_pos h]
    rintro rfl
    revert h
    decide
  · rw [if_neg h]
    decide

/-- A bucket name has no slash. -/
theorem slash_not_mem_bucket (env connector region : String) :
    '/' ∉ (bucket env connector region).toList := by
  unfold bucket bucketSafe
  simp only [String.toList_ofList, List.mem_map, not_exists, not_and]
  intro c _
  exact bucketRune_ne_slash _

/-- **A stored key finds the object it was made for.** -/
theorem cut_objectKey (env connector region object : String) :
    cut (bucket env connector region ++ "/" ++ object) =
      some (bucket env connector region, object) := by
  have hb := slash_not_mem_bucket env connector region
  have hall : ∀ c ∈ (bucket env connector region).toList, decide (c ≠ '/') = true := by
    intro c hc
    exact decide_eq_true fun h => hb (h ▸ hc)
  have hlist : (bucket env connector region ++ "/" ++ object).toList =
      (bucket env connector region).toList ++ '/' :: object.toList := by
    simp
  unfold cut
  rw [hlist, List.dropWhile_append_of_pos hall, List.takeWhile_append_of_pos hall]
  simp

end Storage
end Hivebook
