import Hivebook.Connectors.Fold
import Hivebook.Connectors.Listing
import Hivebook.Lib.Plateau
import Mathlib.Data.String.Basic

/-!
# A drain of a static source reads its listing by pages

The three drains of the connectors have one shape: they read the pages of a listing, and stop at
the last one, at a budget of pages once they are past the cursor they started from, or at a cap.
Here this is stated of a call in a context that stays alive and whose emits are all committed.  A
board has no positions, so it has no budget either.

## Main definitions

* `runAlone` — a call in such a context: what it returns, and what it emits.
* `Repo.sheet`, `GoogleDocs.sheet`, `Board.sheet` — the pages of a static source.
* `Repo.Plateau` — so many issues from a position on, and among them none past it.
* `Site.paging` — how a static source is read.

## Main results

* `GitHub.pages_of_syncPages`, `GoogleDocs.pages_of_syncPages`, `Board.pages_of_syncBoardPages` —
  **a drain reads its listing by pages.**
* `Repo.bounded_iff` — the pages of a repository as one stretch of its listing.
-/

namespace Hivebook
namespace Connectors

variable {answer : (q : Request) → Except Err q.Reply} {α β : Type}

/-! ### One call -/

/-- A call in a context that stays alive, whose emits are all committed: what it returns, and
what it emits. -/
def runAlone (answer : (q : Request) → Except Err q.Reply) : SyncProg α → α × List Artifact
  | .pure a => (a, [])
  | .call (.fetch c) k => runAlone answer (k (alone answer (.fetch c)))
  | .call (.emit art) k =>
      let r := runAlone answer (k (.ok ()))
      (r.1, art :: r.2)

theorem runAlone_bind (p : SyncProg α) (f : α → SyncProg β) :
    runAlone answer (p.bind f) =
      ((runAlone answer (f (runAlone answer p).1)).1,
        (runAlone answer p).2 ++ (runAlone answer (f (runAlone answer p).1)).2) := by
  induction p with
  | pure a => rfl
  | call c k ih =>
    cases c with
    | fetch c => exact ih _
    | emit art =>
      rw [Prog.call_bind, runAlone, ih]
      rfl

theorem runAlone_ctxErr_bind (f : Bool → SyncProg β) :
    runAlone answer (ctxErr.bind f) = runAlone answer (f false) := rfl

theorem runAlone_request_bind (q : Request) (f : Except Err q.Reply → SyncProg β) :
    runAlone answer ((request q).bind f) = runAlone answer (f (answer q)) := rfl

theorem runAlone_emit_bind (art : Artifact) (f : Except Err Unit → SyncProg β) :
    runAlone answer ((emit art).bind f) =
      ((runAlone answer (f (.ok ()))).1, art :: (runAlone answer (f (.ok ()))).2) := rfl

/-- A program that emits nothing returns what it is evaluated to. -/
theorem runAlone_of_isFetch {p : SyncProg α} (hp : p.Uses fun c => c.isFetch = true) :
    runAlone answer p = (p.eval (alone answer), []) := by
  induction p with
  | pure a => rfl
  | call c k ih =>
    cases c with
    | fetch c => exact ih _ (hp.2 _)
    | emit art => cases hp.1

theorem furthest_snoc_if (newPos c : String) (l : List String) :
    furthest (if newPos < c then c else newPos) l = furthest newPos (c :: l) := by
  rw [furthest_cons, max_def_lt]

/-- **The end of a round**: after a page was emitted, the call ends with its listing, or at its
budget, or goes on. -/
theorem pages_of_round {P : Paging String} {start mark : String} {page remaining : ℕ}
    {emitted arts : List Artifact} {ended full : Prop} [Decidable ended] [Decidable full]
    {rest : SyncProg (Except Err Bool)} {done : Bool}
    (hcursors : emitted.map Artifact.cursor = (P.sheet start page).positions)
    (hended : ended ↔ (P.sheet start page).last = true)
    (hfull : full ↔ P.budget ≤ page + 1 ∧
      furthest mark (P.sheet start page).positions ≠ start)
    (hrest : ∀ arts', runAlone answer rest = (.ok done, arts') →
      P.pages start (furthest mark (P.sheet start page).positions) (page + 1) remaining =
        (done, arts'.map Artifact.cursor))
    (h : ((runAlone answer (if ended then pure (.ok true)
        else if full then pure (.ok false) else rest)).1,
      emitted ++ (runAlone answer (if ended then pure (.ok true)
        else if full then pure (.ok false) else rest)).2) = (.ok done, arts)) :
    P.pages start mark page (remaining + 1) = (done, arts.map Artifact.cursor) := by
  rw [Paging.pages_succ]
  by_cases hend : ended
  · rw [if_pos hend, Prog.pure_eq, runAlone, List.append_nil] at h
    rw [if_pos (hended.mp hend)]
    cases h
    rw [hcursors]
  · rw [if_neg hend] at h
    rw [if_neg (fun hlast => hend (hended.mpr hlast))]
    by_cases hbudget : full
    · rw [if_pos hbudget, Prog.pure_eq, runAlone, List.append_nil] at h
      rw [if_pos (hfull.mp hbudget)]
      cases h
      rw [hcursors]
    · rw [if_neg hbudget] at h
      rw [if_neg (fun hstop => hbudget (hfull.mpr hstop))]
      obtain ⟨hdone, rfl⟩ := Prod.mk.inj h
      rw [hrest _ (Prod.ext hdone rfl), List.map_append, hcursors]

/-! ### A repository -/

/-- A page of a repository's listing from a cursor on, by its index. -/
def Repo.sheet (r : Repo) (perPage : ℕ) (cursor : String) (page : ℕ) : Sheet String where
  positions := (GitHub.pageIssues (r.page cursor perPage (page + 1))).map fun it => it.2.updatedAt
  last := decide ((r.page cursor perPage (page + 1)).length < perPage)

namespace GitHub

/-- How a repository is read. -/
def paging (g : GitHub) (r : Repo) : Paging String where
  budget := g.budget
  cap := g.hardCap
  sheet := r.sheet g.pageSize

variable {g : GitHub} {unit : SourceUnit}

theorem uses_foldItems (items : List (Bytes × GhIssue)) :
    (g.foldItems unit items).Uses fun c => c.isFetch = true := by
  induction items with
  | nil => exact Prog.uses_pure _ _
  | cons it items ih =>
    have hit : (g.issueArtifact unit.id it.1 it.2).Uses fun c => c.isFetch = true :=
      @uses_foldTasks g unit [it] _ (List.mem_singleton.mpr rfl)
    refine hit.bind fun r => ?_
    cases r with
    | error e => exact Prog.uses_pure _ _
    | ok doc =>
      refine ih.bind fun r => ?_
      cases r <;> exact Prog.uses_pure _ _

theorem uses_foldIssuePage (raws : List RawIssue) :
    (g.foldIssuePage unit raws).Uses fun c => c.isFetch = true := by
  unfold foldIssuePage
  cases decodePage raws with
  | error e => exact Prog.uses_pure _ _
  | ok items =>
    refine (uses_foldItems items).bind fun r => ?_
    cases r with
    | error e => exact Prog.uses_pure _ _
    | ok arts =>
      refine ⟨rfl, fun b => ?_⟩
      cases b <;> exact Prog.uses_pure _ _

/-- The artifacts of issues have the cursors of the issues. -/
theorem cursors_of_foldItems {items : List (Bytes × GhIssue)} {arts : List Artifact}
    (h : (g.foldItems unit items).eval (alone answer) = .ok arts) :
    arts.map Artifact.cursor = items.map fun it => it.2.updatedAt := by
  induction items generalizing arts with
  | nil =>
    cases h
    rfl
  | cons it items ih =>
    unfold foldItems at h
    rw [Prog.bind_eq, Prog.eval_bind] at h
    cases hdoc : (g.issueArtifact unit.id it.1 it.2).eval (alone answer) with
    | error e =>
      rw [hdoc] at h
      cases h
    | ok doc =>
      rw [hdoc] at h
      dsimp only at h
      rw [Prog.bind_eq, Prog.eval_bind] at h
      cases hrest : (g.foldItems unit items).eval (alone answer) with
      | error e =>
        rw [hrest] at h
        cases h
      | ok arts' =>
        rw [hrest] at h
        cases h
        rw [List.map_cons, List.map_cons, ih hrest]
        rfl

theorem cursors_of_foldIssuePage {raws : List RawIssue} {arts : List Artifact}
    (h : (g.foldIssuePage unit raws).eval (alone answer) = .ok arts) :
    arts.map Artifact.cursor = (pageIssues raws).map fun it => it.2.updatedAt := by
  unfold foldIssuePage at h
  cases hdecode : decodePage raws with
  | error e =>
    rw [hdecode] at h
    cases h
  | ok items =>
    obtain ⟨-, rfl⟩ := pageIssues_of_decodePage hdecode
    rw [hdecode] at h
    dsimp only at h
    rw [Prog.bind_eq, Prog.eval_bind] at h
    cases hfold : (g.foldItems unit (pageIssues raws)).eval (alone answer) with
    | error e =>
      rw [hfold] at h
      cases h
    | ok arts' =>
      rw [hfold] at h
      cases h
      exact cursors_of_foldItems hfold

/-- The emit loop over a page moves its position to the furthest one of the page. -/
theorem runAlone_emitPage (newPos : String) (arts : List Artifact) :
    runAlone answer (emitPage newPos arts) =
      (.ok (furthest newPos (arts.map Artifact.cursor)), arts) := by
  induction arts generalizing newPos with
  | nil => rfl
  | cons art arts ih =>
    show ((runAlone answer (emitPage _ arts)).1, art :: (runAlone answer (emitPage _ arts)).2) = _
    rw [ih, furthest_snoc_if, List.map_cons]

/-- **The rounds of `syncRepoIssues` read the listing by pages.** -/
theorem pages_of_syncPages {r : Repo} (hanswers : ∀ q x, answer q = .ok x → r.answers q x)
    (hunit : unit.id = r.name) {cursor newPos : String} {page remaining : ℕ} {done : Bool}
    {arts : List Artifact}
    (h : runAlone answer (g.syncPages unit cursor newPos (page + 1) remaining) =
      (.ok done, arts)) :
    (g.paging r).pages cursor newPos page remaining = (done, arts.map Artifact.cursor) := by
  induction remaining generalizing newPos page arts with
  | zero =>
    cases h
    rfl
  | succ n ih =>
    rw [syncPages_succ, Prog.bind_eq, runAlone_ctxErr_bind, if_neg Bool.false_ne_true,
      Prog.bind_eq, runAlone_request_bind] at h
    cases hraws : answer (.issues unit.id g.pageSize (page + 1) cursor) with
    | error e =>
      rw [hraws] at h
      cases h
    | ok raws =>
      -- the answer is the page of the repository, and the fold emits its issues
      have hpage : raws = r.page cursor g.pageSize (page + 1) := hanswers _ _ hraws hunit
      rw [hraws] at h
      dsimp only at h
      rw [Prog.bind_eq, runAlone_bind, runAlone_of_isFetch (uses_foldIssuePage raws)] at h
      cases hfold : (g.foldIssuePage unit raws).eval (alone answer) with
      | error e =>
        rw [hfold] at h
        cases h
      | ok pageArts =>
        have hcursors := cursors_of_foldIssuePage hfold
        rw [hfold] at h
        dsimp only [afterFold] at h
        rw [List.nil_append, Prog.bind_eq, runAlone_bind, runAlone_emitPage, hcursors] at h
        dsimp only at h
        have hsheet : (g.paging r).sheet cursor page =
            { positions := (pageIssues raws).map fun it => it.2.updatedAt,
              last := decide (raws.length < g.pageSize) } := by
          rw [hpage]
          rfl
        refine pages_of_round ?_ ?_ ?_ ?_ h
        · rw [hsheet, hcursors]
        · rw [hsheet, decide_eq_true_eq]
        · rw [hsheet]
          exact Iff.rfl
        · intro arts' harts'
          rw [hsheet]
          exact ih harts'

end GitHub

namespace Repo

/-- So many issues from a position on, and none among them past the position, the pull requests
apart. -/
def Plateau (r : Repo) (n : ℕ) (position : String) : Prop :=
  n ≤ (r.since position).length ∧
    ∀ x ∈ (r.since position).take n, x.2.pullRequest = false → x.2.updatedAt ≤ position

variable {r : Repo} {perPage : ℕ} {cursor : String}

theorem mem_sheet {page : ℕ} {p : String} :
    p ∈ (r.sheet perPage cursor page).positions ↔
      ∃ x ∈ ((r.since cursor).drop (page * perPage)).take perPage,
        x.2.pullRequest = false ∧ x.2.updatedAt = p := by
  have hissues : GitHub.pageIssues (r.page cursor perPage (page + 1)) =
      (((r.since cursor).drop (page * perPage)).take perPage).filter
        fun x => !x.2.pullRequest :=
    (GitHub.pageIssues_of_decodePage (GitHub.decodePage_map _)).2.symm
  unfold sheet
  simp only [hissues, List.mem_map, List.mem_filter, Bool.not_eq_true', and_assoc]

theorem sheet_last_eq_false {page : ℕ} (hperPage : 0 < perPage) :
    (r.sheet perPage cursor page).last = false ↔
      page * perPage + perPage ≤ (r.since cursor).length := by
  unfold sheet Repo.page
  rw [decide_eq_false_iff_not, List.length_map, List.length_take, List.length_drop,
    Nat.add_sub_cancel]
  omega

/-- An element of so many pages is on one of them. -/
theorem mem_take_mul_iff {γ : Type} {l : List γ} {x : γ} {n size : ℕ} :
    x ∈ l.take (n * size) ↔ ∃ k < n, x ∈ (l.drop (k * size)).take size := by
  induction n with
  | zero => simp
  | succ n ih =>
    rw [Nat.succ_mul, List.take_add, List.mem_append, ih]
    constructor
    · rintro (⟨k, hk, hx⟩ | hx)
      · exact ⟨k, by omega, hx⟩
      · exact ⟨n, by omega, hx⟩
    · rintro ⟨k, hk, hx⟩
      rcases Nat.lt_succ_iff_lt_or_eq.mp hk with hk | rfl
      · exact .inl ⟨k, hk, hx⟩
      · exact .inr hx

/-- Pages of which none is the last and none has an issue past a bound, as one stretch of the
listing. -/
theorem bounded_iff {n : ℕ} {bound : String} (hn : 0 < n) (hperPage : 0 < perPage) :
    (∀ k < n, (r.sheet perPage cursor k).last = false ∧
        ∀ p ∈ (r.sheet perPage cursor k).positions, p ≤ bound) ↔
      n * perPage ≤ (r.since cursor).length ∧
        ∀ x ∈ (r.since cursor).take (n * perPage), x.2.pullRequest = false →
          x.2.updatedAt ≤ bound := by
  constructor
  · intro h
    constructor
    · have hfull := (sheet_last_eq_false hperPage).mp (h (n - 1) (by omega)).1
      rwa [← Nat.succ_mul, Nat.succ_eq_add_one, Nat.sub_add_cancel hn] at hfull
    · intro x hx hpull
      obtain ⟨k, hk, hx⟩ := mem_take_mul_iff.mp hx
      exact (h k hk).2 _ (mem_sheet.mpr ⟨x, hx, hpull, rfl⟩)
  · rintro ⟨hlength, hbound⟩ k hk
    constructor
    · have hmul : (k + 1) * perPage ≤ n * perPage := Nat.mul_le_mul_right perPage hk
      rw [Nat.succ_mul] at hmul
      exact (sheet_last_eq_false hperPage).mpr (hmul.trans hlength)
    · intro p hp
      obtain ⟨x, hx, hpull, rfl⟩ := mem_sheet.mp hp
      exact hbound x (mem_take_mul_iff.mpr ⟨k, hk, hx⟩) hpull

/-- What is listed from a position on is the end of what is listed from one before it. -/
theorem since_append {position : String} (hle : cursor ≤ position) :
    ∃ before, r.since cursor = before ++ r.since position ∧
      ∀ x ∈ before, x.2.updatedAt ≤ position := by
  have hsorted := r.ascending
  unfold since
  generalize r.issues = issues at hsorted ⊢
  induction issues with
  | nil => exact ⟨[], rfl, fun x hx => absurd hx List.not_mem_nil⟩
  | cons x l ih =>
    obtain ⟨hx, hl⟩ := List.pairwise_cons.mp hsorted
    by_cases hpos : position ≤ x.2.updatedAt
    · -- from here on both list everything
      have hall : ∀ y ∈ x :: l, position ≤ y.2.updatedAt := by
        rintro y (_ | ⟨_, hy⟩)
        · exact hpos
        · exact hpos.trans (hx y hy)
      refine ⟨[], ?_, fun x hx => absurd hx List.not_mem_nil⟩
      rw [List.nil_append]
      refine List.filter_congr fun y hy => ?_
      rw [decide_eq_true (hall y hy), decide_eq_true (hle.trans (hall y hy))]
    · obtain ⟨before, hbefore, hle'⟩ := ih hl
      have hlater : (x :: l).filter (fun x => decide (position ≤ x.2.updatedAt)) =
          l.filter fun x => decide (position ≤ x.2.updatedAt) :=
        List.filter_cons_of_neg fun h => hpos (of_decide_eq_true h)
      rw [hlater]
      by_cases hcursor : cursor ≤ x.2.updatedAt
      · refine ⟨x :: before, ?_, ?_⟩
        · rw [List.cons_append, ← hbefore]
          exact List.filter_cons_of_pos (decide_eq_true hcursor)
        · rintro y (_ | ⟨_, hy⟩)
          · exact (not_le.mp hpos).le
          · exact hle' y hy
      · refine ⟨before, ?_, hle'⟩
        rw [← hbefore]
        exact List.filter_cons_of_neg fun h => hcursor (of_decide_eq_true h)

/-- A plateau bounds what is listed first from an earlier position on. -/
theorem Plateau.of_le {n : ℕ} {position : String} (h : r.Plateau n position)
    (hle : cursor ≤ position) : n ≤ (r.since cursor).length ∧
      ∀ x ∈ (r.since cursor).take n, x.2.pullRequest = false → x.2.updatedAt ≤ position := by
  obtain ⟨before, hsince, hbefore⟩ := since_append hle
  rw [hsince]
  constructor
  · rw [List.length_append]
    exact h.1.trans (Nat.le_add_left _ _)
  · intro x hx hpull
    rw [List.take_append, List.mem_append] at hx
    rcases hx with hx | hx
    · exact hbefore x (List.mem_of_mem_take hx)
    · exact h.2 x (List.take_subset_take_left _ (Nat.sub_le _ _) hx) hpull

end Repo

/-! ### A Drive -/

namespace GoogleDocs

/-- The token for the page after the page of a token. -/
def nextToken (g : GoogleDocs) (answer : (q : Request) → Except Err q.Reply)
    (cursor token : String) : String :=
  match answer (.driveFiles cursor g.pageSize token) with
  | .error _ => ""
  | .ok resp => resp.nextPageToken

/-- The token of a page of the listing from a cursor on. -/
def tokenAt (g : GoogleDocs) (answer : (q : Request) → Except Err q.Reply) (cursor : String) :
    ℕ → String
  | 0 => ""
  | page + 1 => g.nextToken answer cursor (g.tokenAt answer cursor page)

/-- A page of a Drive's listing from a cursor on, by its index. -/
def sheet (g : GoogleDocs) (answer : (q : Request) → Except Err q.Reply) (cursor : String)
    (page : ℕ) : Sheet String :=
  match answer (.driveFiles cursor g.pageSize (g.tokenAt answer cursor page)) with
  | .error _ => { positions := [], last := true }
  | .ok resp =>
      { positions := resp.files.map DriveFile.modifiedTime
        last := decide (resp.nextPageToken = "") }

/-- How a Drive is read. -/
def paging (g : GoogleDocs) (answer : (q : Request) → Except Err q.Reply) : Paging String where
  budget := g.budget
  cap := g.hardCap
  sheet := g.sheet answer

variable {g : GoogleDocs}

/-- The loop over the files of a page fails, or it moves its position to the furthest one of the
page. -/
theorem runAlone_emitFiles (newPos : String) (files : List DriveFile) :
    (∃ e, (runAlone answer (emitFiles newPos files)).1 = .failed e) ∨
      ∃ arts, runAlone answer (emitFiles newPos files) =
          (.drained (furthest newPos (files.map DriveFile.modifiedTime)), arts) ∧
        arts.map Artifact.cursor = files.map DriveFile.modifiedTime := by
  induction files generalizing newPos with
  | nil => exact .inr ⟨[], rfl, rfl⟩
  | cons f fs ih =>
    unfold emitFiles
    rw [Prog.bind_eq, runAlone_ctxErr_bind, if_neg Bool.false_ne_true, Prog.bind_eq,
      runAlone_request_bind]
    cases answer (.driveExport f.id) with
    | error e => exact .inl ⟨e, rfl⟩
    | ok raw =>
      dsimp only
      rw [Prog.bind_eq, runAlone_emit_bind]
      rcases ih (if newPos < f.modifiedTime then f.modifiedTime else newPos) with
        ⟨e, he⟩ | ⟨arts, harts, hcursors⟩
      · exact .inl ⟨e, he⟩
      · refine .inr ⟨docArt f raw :: arts, ?_, ?_⟩
        · rw [harts, furthest_snoc_if, List.map_cons]
        · rw [List.map_cons, List.map_cons, hcursors]
          rfl

/-- **The rounds of `SyncUnit` read the listing by pages.** -/
theorem pages_of_syncPages {cursor newPos : String} {page remaining : ℕ} {done : Bool}
    {arts : List Artifact}
    (h : runAlone answer (g.syncPages cursor newPos (g.tokenAt answer cursor page) (page + 1)
      remaining) = (.ok done, arts)) :
    (g.paging answer).pages cursor newPos page remaining = (done, arts.map Artifact.cursor) := by
  induction remaining generalizing newPos page arts with
  | zero =>
    cases h
    rfl
  | succ n ih =>
    unfold syncPages at h
    rw [Prog.bind_eq, runAlone_ctxErr_bind, if_neg Bool.false_ne_true, Prog.bind_eq,
      runAlone_request_bind] at h
    cases hresp : answer (.driveFiles cursor g.pageSize (g.tokenAt answer cursor page)) with
    | error e =>
      rw [hresp] at h
      cases h
    | ok resp =>
      have hsheet : (g.paging answer).sheet cursor page =
          { positions := resp.files.map DriveFile.modifiedTime,
            last := decide (resp.nextPageToken = "") } := by
        show g.sheet answer cursor page = _
        unfold sheet
        rw [hresp]
      have htoken : g.tokenAt answer cursor (page + 1) = resp.nextPageToken := by
        rw [tokenAt, nextToken, hresp]
      rw [hresp] at h
      dsimp only at h
      rw [Prog.bind_eq, runAlone_bind] at h
      rcases runAlone_emitFiles newPos resp.files with ⟨e, he⟩ | ⟨pageArts, hemit, hcursors⟩
      · rw [he] at h
        cases h
      · rw [hemit] at h
        refine pages_of_round ?_ ?_ ?_ ?_ h
        · rw [hsheet, hcursors]
        · rw [hsheet, decide_eq_true_eq]
        · rw [hsheet]
          exact Iff.rfl
        · intro arts' harts'
          rw [hsheet]
          rw [← htoken] at harts'
          exact ih harts'

end GoogleDocs

/-! ### A board -/

namespace Board

/-- The cursor of the page after the page of a cursor. -/
def nextCursor (d : Board) (answer : (q : Request) → Except Err q.Reply) (cursor : String) :
    String :=
  match answer (.projectItems d.id cursor) with
  | .error _ => ""
  | .ok resp => resp.endCursor

/-- The cursor of a page of a board's listing. -/
def cursorAt (d : Board) (answer : (q : Request) → Except Err q.Reply) : ℕ → String
  | 0 => ""
  | page + 1 => d.nextCursor answer (d.cursorAt answer page)

/-- A page of a board's listing, by its index; its items have no position. -/
def sheet (d : Board) (answer : (q : Request) → Except Err q.Reply) (page : ℕ) : Sheet String :=
  match answer (.projectItems d.id (d.cursorAt answer page)) with
  | .error _ => { positions := [], last := true }
  | .ok resp => { positions := resp.nodes.map fun _ => "", last := !resp.hasNextPage }

/-- How a board is read, from its first page at every call. -/
def paging (d : Board) (answer : (q : Request) → Except Err q.Reply) : Paging String where
  budget := ghMaxPagesPerRepo
  cap := ghMaxPagesPerRepo
  sheet := fun _ => d.sheet answer

theorem empty_le (s : String) : "" ≤ s := by
  rw [String.le_iff_toList_le, ← not_lt]
  exact List.not_lt_nil _

/-- The items of a board do not move a mark. -/
theorem le_of_mem_sheet {d : Board} {page : ℕ} {p mark : String}
    (h : p ∈ (d.sheet answer page).positions) : p ≤ mark := by
  unfold sheet at h
  cases hresp : answer (.projectItems d.id (d.cursorAt answer page)) with
  | error e =>
    rw [hresp] at h
    exact absurd h List.not_mem_nil
  | ok resp =>
    rw [hresp] at h
    obtain ⟨-, -, rfl⟩ := List.mem_map.mp h
    exact empty_le mark

/-- The loop over the nodes of a page fails, or it emits an artifact without a position for each
of them. -/
theorem runAlone_emitItems (unit : SourceUnit) (nodes : List ProjectItem) :
    (∃ e, (runAlone answer (GitHub.emitItems unit nodes)).1 = .error e) ∨
      ∃ arts, runAlone answer (GitHub.emitItems unit nodes) = (.ok (), arts) ∧
        arts.map Artifact.cursor = nodes.map fun _ => "" := by
  induction nodes with
  | nil => exact .inr ⟨[], rfl, rfl⟩
  | cons node nodes ih =>
    unfold GitHub.emitItems
    cases node.item with
    | none => exact .inl ⟨_, rfl⟩
    | some item =>
      dsimp only
      rw [Prog.bind_eq, runAlone_emit_bind]
      rcases ih with ⟨e, he⟩ | ⟨arts, harts, hcursors⟩
      · exact .inl ⟨e, he⟩
      · refine .inr ⟨GitHub.itemArt unit node.raw item :: arts, ?_, ?_⟩
        · rw [harts]
        · rw [List.map_cons, List.map_cons, hcursors]
          rfl

/-- **The rounds of `syncProjectItems` read the board by pages.** -/
theorem pages_of_syncBoardPages {d : Board} {unit : SourceUnit} (hunit : unit.id = d.id)
    {start : String} {page remaining : ℕ} {done : Bool} {arts : List Artifact}
    (h : runAlone answer (GitHub.syncBoardPages unit (d.cursorAt answer page) remaining) =
      (.ok done, arts)) :
    (d.paging answer).pages start start page remaining = (done, arts.map Artifact.cursor) := by
  -- the items of a board carry no position, so the mark never moves
  have hmark : ∀ k, furthest start ((d.paging answer).sheet start k).positions = start :=
    fun k => furthest_eq_self_iff.mpr fun p hp => le_of_mem_sheet hp
  induction remaining generalizing page arts with
  | zero =>
    cases h
    rfl
  | succ n ih =>
    unfold GitHub.syncBoardPages at h
    rw [Prog.bind_eq, runAlone_ctxErr_bind, if_neg Bool.false_ne_true, Prog.bind_eq,
      runAlone_request_bind, hunit] at h
    cases hresp : answer (.projectItems d.id (d.cursorAt answer page)) with
    | error e =>
      rw [hresp] at h
      cases h
    | ok resp =>
      have hsheet : (d.paging answer).sheet start page =
          { positions := resp.nodes.map fun _ => "", last := !resp.hasNextPage } := by
        show d.sheet answer page = _
        unfold sheet
        rw [hresp]
      have hcursor : d.cursorAt answer (page + 1) = resp.endCursor := by
        rw [cursorAt, nextCursor, hresp]
      rw [hresp] at h
      dsimp only at h
      rw [Prog.bind_eq, runAlone_bind] at h
      rcases runAlone_emitItems unit resp.nodes with ⟨e, he⟩ | ⟨pageArts, hemit, hcursors⟩
      · rw [he] at h
        cases h
      · rw [hemit] at h
        dsimp only at h
        rw [Paging.pages_succ, hmark page]
        by_cases hmore : resp.hasNextPage = true
        · have hlast : ¬ ((d.paging answer).sheet start page).last = true := by
            rw [hsheet, hmore]
            exact Bool.false_ne_true
          rw [if_pos hmore, ← hcursor] at h
          rw [if_neg hlast, if_neg (fun hstop => hstop.2 rfl), hsheet]
          obtain ⟨hdone, rfl⟩ := Prod.mk.inj h
          rw [ih (Prod.ext hdone rfl), List.map_append, hcursors]
        · have hlast : ((d.paging answer).sheet start page).last = true := by
            rw [hsheet, Bool.eq_false_iff.mpr hmore]
            rfl
          rw [if_neg hmore, Prog.pure_eq, runAlone, List.append_nil] at h
          rw [if_pos hlast, hsheet]
          cases h
          rw [hcursors]

end Board

namespace Site

/-- How a static source is read. -/
def paging (site : Site) (answer : (q : Request) → Except Err q.Reply) : Paging String :=
  match site with
  | .repo g r => g.paging r
  | .drive g _ => g.paging answer
  | .board _ d => d.paging answer

variable {site : Site} {cursor : String}

/-- The positions on the pages of a source are those of its items. -/
theorem mem_positions (hanswers : ∀ q x, answer q = .ok x → site.answers q x) {page : ℕ}
    {p : String} (h : p ∈ ((site.paging answer).sheet cursor page).positions) :
    p ∈ "" :: site.items.map Item.updatedAt := by
  cases site with
  | repo g r =>
    obtain ⟨x, hx, hpull, rfl⟩ := Repo.mem_sheet.mp h
    have hissue : x ∈ r.issues :=
      List.mem_of_mem_filter (List.mem_of_mem_drop (List.mem_of_mem_take hx))
    refine List.mem_cons_of_mem _ (List.mem_map.mpr ⟨_, List.mem_map.mpr ⟨x, ?_, rfl⟩, rfl⟩)
    rw [List.mem_filter, hpull]
    exact ⟨hissue, rfl⟩
  | drive g d =>
    have hsheet : p ∈ (g.sheet answer cursor page).positions := h
    unfold GoogleDocs.sheet at hsheet
    cases hresp : answer (.driveFiles cursor g.pageSize (g.tokenAt answer cursor page)) with
    | error e =>
      rw [hresp] at hsheet
      exact absurd hsheet List.not_mem_nil
    | ok resp =>
      rw [hresp] at hsheet
      obtain ⟨f, hf, rfl⟩ := List.mem_map.mp hsheet
      have hserved := hanswers _ _ hresp
      have hleft : f ∈ (d.since cursor).drop
          (d.offset cursor (g.tokenAt answer cursor page)) := by
        simp only [answers, Drive.answers] at hserved
        split at hserved
        · rwa [← hserved]
        · exact hserved.1.subset hf
      have hfile : f ∈ d.files := List.mem_of_mem_filter (List.mem_of_mem_drop hleft)
      exact List.mem_cons_of_mem _ (List.mem_map.mpr ⟨_, List.mem_map.mpr ⟨f, hfile, rfl⟩, rfl⟩)
  | board g d =>
    have hempty : p ≤ "" := Board.le_of_mem_sheet h
    rw [le_antisymm hempty (Board.empty_le p)]
    exact List.mem_cons_self ..

end Site

end Connectors
end Hivebook
