import Hivebook.Activity.SyncUnit
import Hivebook.Connectors.Paged

/-!
# Relaunching a unit until its source is drained

The drain loop of a run launches a unit again as long as `SyncUnit` says that there is more, each
time from the cursor the emits of the launch before it left behind.  Here the source is static, no
launch fails, and no context is cancelled.  A launch makes progress if it reads the last page, or
an item past its cursor.  If it can do neither, it reads the same pages again, and so does every
later one.

## Main definitions

* `persisted` — the cursor the emits of a launch leave behind.
* `Site.returns`, `Site.cursorAt` — what a launch from a cursor returns, and the cursor of a
  launch.
* `Site.Drains` — some launch returns that the source is drained.

## Main results

* `Site.call_eq` — **a launch is a call that reads a listing by pages.**
* `Site.relaunches_end_iff` — **a unit is drained after finitely many launches exactly when no
  launch is stuck**, and what this says of a repository and of a board.
-/

namespace Hivebook
namespace Connectors

variable {answer : (q : Request) → Except Err q.Reply}

/-! ### The cursor that a launch leaves behind -/

/-- The cursor the emits of a call leave behind. -/
def persisted (cursor : String) (arts : List Artifact) : String :=
  arts.foldl (fun high art => Activities.advanced high art.cursor) cursor

theorem advanced_eq_max (high cursor : String) :
    Activities.advanced high cursor = max high cursor := by
  unfold Activities.advanced
  rw [max_def_lt]
  by_cases hempty : cursor = ""
  · subst hempty
    have hlt : ¬ high < "" := by
      rw [String.lt_iff_toList_lt]
      exact List.not_lt_nil _
    rw [if_neg hlt, if_neg (fun h => h.1 rfl)]
  · simp only [ne_eq, hempty, not_false_eq_true, true_and]

/-- What `emit` does to the mark of an item it has committed, whatever its commands are answered:
the cursor that its statements leave behind is this mark. -/
theorem high_of_makeEmit {a : Activities} {i : SyncInput} {conn : Connection} {art : Artifact}
    {st : EmitState} {h : (c : Cmd) → c.Resp}
    (hok : ((a.makeEmit i conn art st).eval h).1 = .ok ()) :
    ((a.makeEmit i conn art st).eval h).2.high = Activities.advanced st.high art.cursor := by
  have hunchanged : ((Activities.emitUnchanged i art st).eval h).2.high =
      Activities.advanced st.high art.cursor := by
    rw [advanced_eq_max, max_def_lt]
    unfold Activities.emitUnchanged
    split <;> rfl
  have hchanged : ∀ hash, ((a.emitChanged i conn art hash st).eval h).1 = .ok () →
      ((a.emitChanged i conn art hash st).eval h).2.high =
        Activities.advanced st.high art.cursor := by
    intro hash hcommitted
    unfold Activities.emitChanged at hcommitted ⊢
    rw [Prog.bind_eq, Prog.eval_bind] at hcommitted ⊢
    generalize Prog.eval h (putObject _ _ _ _ _ _ _) = r at hcommitted ⊢
    cases r with
    | error e => cases hcommitted
    | ok objectKey =>
      dsimp only at hcommitted ⊢
      rw [Prog.bind_eq, Prog.eval_bind] at hcommitted ⊢
      generalize Prog.eval h (statement _) = r at hcommitted ⊢
      cases r with
      | error e => cases hcommitted
      | ok _ =>
        dsimp only
        rw [Prog.bind_eq, Prog.eval_bind]
        rfl
  unfold Activities.makeEmit at hok ⊢
  rw [Prog.bind_eq, Prog.eval_bind] at hok ⊢
  -- an execution that is cancelled, an item with the hash it had, or else a change
  split at hok
  · cases hok
  · rename_i hlive
    rw [if_neg hlive]
    rw [Prog.bind_eq, Prog.eval_bind] at hok ⊢
    generalize Prog.eval h (statement _) = r at hok ⊢
    cases r with
    | ok prev =>
      dsimp only at hok ⊢
      split at hok
      · rename_i hsame
        rw [if_pos hsame]
        exact hunchanged
      · rename_i hdiffers
        rw [if_neg hdiffers]
        exact hchanged _ hok
    | error e =>
      cases e with
      | noRows => exact hchanged _ hok
      | _ => cases hok

theorem persisted_eq (cursor : String) (arts : List Artifact) :
    persisted cursor arts = furthest cursor (arts.map Artifact.cursor) := by
  unfold persisted furthest
  rw [List.foldl_map]
  simp only [advanced_eq_max]

/-! ### The launches of a unit -/

namespace Site

/-- What a launch from a cursor returns. -/
def returns (site : Site) (unit : SourceUnit) (answer : (q : Request) → Except Err q.Reply)
    (cursor : String) : Except Err Bool :=
  (runAlone answer (site.syncUnit unit cursor)).1

/-- The cursor that a launch from a cursor leaves behind. -/
def leaves (site : Site) (unit : SourceUnit) (answer : (q : Request) → Except Err q.Reply)
    (cursor : String) : String :=
  persisted cursor (runAlone answer (site.syncUnit unit cursor)).2

/-- The cursor of a launch, each launched from the cursor the one before it left behind. -/
def cursorAt (site : Site) (unit : SourceUnit) (answer : (q : Request) → Except Err q.Reply)
    (first : String) (n : ℕ) : String :=
  (site.leaves unit answer)^[n] first

variable {site : Site} {unit : SourceUnit} {first cursor : String} {done : Bool}

/-- **A call of `SyncUnit` that does not fail reads the listing by pages.** -/
theorem call_eq (hfits : site.fits unit) (hanswers : ∀ q x, answer q = .ok x → site.answers q x)
    (h : site.returns unit answer cursor = .ok done) :
    ((site.paging answer).call cursor).1 = done ∧
      site.leaves unit answer cursor = furthest cursor ((site.paging answer).call cursor).2 := by
  have hrun : runAlone answer (site.syncUnit unit cursor) =
      (.ok done, (runAlone answer (site.syncUnit unit cursor)).2) := Prod.ext h rfl
  have hpages : (site.paging answer).call cursor =
      (done, (runAlone answer (site.syncUnit unit cursor)).2.map Artifact.cursor) := by
    cases site with
    | repo g r =>
      have hunit : (repo g r).syncUnit unit cursor = g.syncRepoIssues unit cursor :=
        if_neg hfits.2
      rw [hunit] at hrun ⊢
      exact GitHub.pages_of_syncPages hanswers hfits.1 hrun
    | drive g d => exact GoogleDocs.pages_of_syncPages hrun
    | board g d =>
      have hunit : (board g d).syncUnit unit cursor = GitHub.syncProjectItems unit :=
        if_pos hfits.2
      rw [hunit] at hrun ⊢
      exact Board.pages_of_syncBoardPages hfits.1 hrun
  rw [hpages]
  exact ⟨rfl, persisted_eq _ _⟩

/-- A launch takes place: none before it returned that the source is drained. -/
def Launches (site : Site) (unit : SourceUnit) (answer : (q : Request) → Except Err q.Reply)
    (first : String) (n : ℕ) : Prop :=
  ∀ m < n, site.returns unit answer (site.cursorAt unit answer first m) ≠ .ok true

/-- Some launch returns that the source is drained. -/
def Drains (site : Site) (unit : SourceUnit) (answer : (q : Request) → Except Err q.Reply)
    (first : String) : Prop :=
  ∃ n, site.returns unit answer (site.cursorAt unit answer first n) = .ok true

/-- No launch fails. -/
def NeverFails (site : Site) (unit : SourceUnit) (answer : (q : Request) → Except Err q.Reply)
    (first : String) : Prop :=
  ∀ n, site.Launches unit answer first n →
    ∃ done, site.returns unit answer (site.cursorAt unit answer first n) = .ok done

theorem cursorAt_succ (n : ℕ) : site.cursorAt unit answer first (n + 1) =
    site.leaves unit answer (site.cursorAt unit answer first n) :=
  Function.iterate_succ_apply' ..

theorem le_cursorAt (n : ℕ) : first ≤ site.cursorAt unit answer first n := by
  induction n with
  | zero => exact le_rfl
  | succ n ih =>
    rw [cursorAt_succ, leaves, persisted_eq]
    exact ih.trans (le_furthest _ _)

theorem drains_iff_never_stuck (hfits : site.fits unit)
    (hanswers : ∀ q x, answer q = .ok x → site.answers q x)
    (hok : site.NeverFails unit answer first) :
    site.Drains unit answer first ↔ ∀ n, site.Launches unit answer first n →
      ¬ (site.paging answer).Stuck (site.cursorAt unit answer first n) := by
  refine @exists_done_iff_never_stuck String _
    (fun cursor => site.returns unit answer cursor = .ok true) (site.paging answer).Stuck
    (site.leaves unit answer) first _
    (List.finite_toSet ("" :: site.items.map Item.updatedAt)) ?_ ?_
  · intro n hn hstuck
    obtain ⟨done, hdone⟩ := hok n hn
    obtain ⟨hcall, hleaves⟩ := call_eq hfits hanswers hdone
    obtain ⟨hfalse, hmark⟩ := Paging.call_of_stuck hstuck
    refine ⟨fun htrue => ?_, hleaves.trans hmark⟩
    obtain rfl := Except.ok.inj (hdone.symm.trans htrue)
    exact Bool.false_ne_true (hfalse.symm.trans hcall)
  · intro n hn hstuck hmore
    obtain ⟨done, hdone⟩ := hok n hn
    obtain ⟨hcall, hleaves⟩ := call_eq hfits hanswers hdone
    have hfalse : ((site.paging answer).call (site.cursorAt unit answer first n)).1 = false := by
      rw [hcall, ← Bool.not_eq_true]
      rintro rfl
      exact hmore hdone
    obtain ⟨hlt, page, hmem⟩ := Paging.moves_of_not_stuck hstuck hfalse
    have hnext : site.leaves unit answer (site.cursorAt unit answer first n) ∈
        "" :: site.items.map Item.updatedAt := by
      rw [hleaves]
      exact mem_positions hanswers hmem
    exact ⟨hlt.trans_eq hleaves.symm, hnext⟩

/-- A repository is drained exactly when no plateau is longer than what one call reads. -/
theorem drains_repo_iff {g : GitHub} {r : Repo} (hfits : (repo g r).fits unit)
    (hanswers : ∀ q x, answer q = .ok x → (repo g r).answers q x)
    (hok : (repo g r).NeverFails unit answer first) :
    (repo g r).Drains unit answer first ↔
      ∀ position, first ≤ position → ¬ r.Plateau (g.hardCap * g.pageSize) position := by
  have hcap : 0 < g.hardCap := lt_max_of_lt_right (by decide)
  have hsize : 0 < g.pageSize := by
    unfold GitHub.pageSize
    split
    · decide
    · omega
  constructor
  · rintro ⟨last, hlast⟩ position hfirst hplateau
    -- no call gets past the plateau
    have hbelow : ∀ n, (repo g r).Launches unit answer first n ∧
        (repo g r).cursorAt unit answer first n ≤ position := by
      intro n
      induction n with
      | zero => exact ⟨fun m hm => absurd hm (Nat.not_lt_zero m), hfirst⟩
      | succ n ih =>
        obtain ⟨hn, hle⟩ := ih
        obtain ⟨done, hdone⟩ := hok n hn
        obtain ⟨hcall, hleaves⟩ := call_eq hfits hanswers hdone
        have hbounded := Paging.call_of_bounded (P := (repo g r).paging answer)
          ((Repo.bounded_iff hcap hsize).mpr (hplateau.of_le hle))
        constructor
        · intro m hm
          rcases Nat.lt_succ_iff_lt_or_eq.mp hm with hm | rfl
          · exact hn m hm
          · rw [hdone, ← hcall]
            intro htrue
            exact Bool.false_ne_true (hbounded.1.symm.trans (Except.ok.inj htrue))
        · rw [cursorAt_succ, hleaves, furthest_le_iff]
          exact ⟨hle, hbounded.2⟩
    exact (hbelow (last + 1)).1 last (Nat.lt_succ_self last) hlast
  · intro hnone
    rw [drains_iff_never_stuck hfits hanswers hok]
    intro n _ hstuck
    exact hnone _ (le_cursorAt n) ((Repo.bounded_iff hcap hsize).mp hstuck)

/-- A board is drained exactly when it ends within the pages of one call. -/
theorem drains_board_iff {g : GitHub} {d : Board} (hfits : (board g d).fits unit)
    (hanswers : ∀ q x, answer q = .ok x → (board g d).answers q x)
    (hok : (board g d).NeverFails unit answer first) :
    (board g d).Drains unit answer first ↔
      ∃ page < ghMaxPagesPerRepo, (d.sheet answer page).last = true := by
  rw [drains_iff_never_stuck hfits hanswers hok]
  constructor
  · intro hnever
    by_contra hnone
    refine hnever 0 (fun m hm => absurd hm (Nat.not_lt_zero m)) fun page hpage => ?_
    refine ⟨?_, fun p hp => Board.le_of_mem_sheet hp⟩
    exact Bool.eq_false_iff.mpr fun hlast => hnone ⟨page, hpage, hlast⟩
  · rintro ⟨page, hpage, hlast⟩ n _ hstuck
    have hfalse : (d.sheet answer page).last = false := (hstuck page hpage).1
    rw [hlast] at hfalse
    cases hfalse

/-- **A unit is drained after finitely many launches exactly when none is stuck.**  A launch is
stuck if no page it may read is the last, and none has an item past the cursor it starts from.  So
a repository is drained unless it has, from some position on, a plateau of as many issues and pull
requests as one call may read; and a board is drained unless it has more pages than that. -/
theorem relaunches_end_iff (hfits : site.fits unit)
    (hanswers : ∀ q x, answer q = .ok x → site.answers q x)
    (hok : site.NeverFails unit answer first) :
    (site.Drains unit answer first ↔ ∀ n, site.Launches unit answer first n →
      ¬ (site.paging answer).Stuck (site.cursorAt unit answer first n)) ∧
    (∀ g r, site = .repo g r → (site.Drains unit answer first ↔
      ∀ position, first ≤ position → ¬ r.Plateau (g.hardCap * g.pageSize) position)) ∧
    ∀ g d, site = .board g d → (site.Drains unit answer first ↔
      ∃ page < ghMaxPagesPerRepo, (d.sheet answer page).last = true) := by
  refine ⟨drains_iff_never_stuck hfits hanswers hok, ?_, ?_⟩
  · rintro g r rfl
    exact drains_repo_iff hfits hanswers hok
  · rintro g d rfl
    exact drains_board_iff hfits hanswers hok

end Site

/-! ### A board served in pages of a hundred -/

namespace Board

/-- A board of so many items. -/
def ofSize (n : ℕ) : Board where
  id := "PVT_1"
  nodes := (List.range n).map fun i => ([], { id := toString i, updatedAt := "", url := "" })
  offset cursor := 100 * cursor.length
  offset_empty := rfl

/-- Its unit. -/
def sizedUnit : SourceUnit := { id := "PVT_1", kind := "github_project", name := "Roadmap" }

/-- The page after a cursor. -/
def servedPage (n : ℕ) (cursor : String) : ProjectPage where
  nodes := (((ofSize n).nodes.drop (100 * cursor.length)).take 100).map node
  hasNextPage := decide (100 * cursor.length + 100 < n)
  endCursor := cursor ++ "c"

/-- How the board is served. -/
def serve (n : ℕ) : (q : Request) → Except Err q.Reply
  | .projectItems _ cursor => .ok (servedPage n cursor)
  | _ => .error (.failed "not found")

theorem length_ofSize (n : ℕ) : (ofSize n).nodes.length = n := by
  unfold ofSize
  rw [List.length_map, List.length_range]

theorem answers_serve (g : GitHub) (n : ℕ) (q : Request) (x : q.Reply) (h : serve n q = .ok x) :
    (Site.board g (ofSize n)).answers q x := by
  cases q with
  | projectItems board cursor =>
    cases h
    intro _
    have hlength : ((ofSize n).nodes.drop (100 * cursor.length)).length =
        n - 100 * cursor.length := by
      rw [List.length_drop, length_ofSize]
    show if decide (100 * cursor.length + 100 < n) = true then _ else _
    by_cases hmore : 100 * cursor.length + 100 < n
    · rw [if_pos (decide_eq_true hmore)]
      refine ⟨_, rfl, List.take_prefix _ _, ?_⟩
      show 100 * (cursor ++ "c").length = 100 * cursor.length + _
      rw [String.length_append, List.length_take, hlength, Nat.mul_add]
      have hone : "c".length = 1 := rfl
      omega
    · rw [if_neg (by rwa [decide_eq_true_eq])]
      show List.map node (List.take 100 _) = _
      rw [List.take_of_length_le (by rw [hlength]; omega)]
      rfl
  | _ => trivial

/-- The loop over nodes that decode does not fail. -/
theorem returns_emitItems (unit : SourceUnit) (xs : List (Bytes × GhItem)) :
    (runAlone answer (GitHub.emitItems unit (xs.map node))).1 = .ok () := by
  induction xs with
  | nil => rfl
  | cons x xs ih => exact ih

/-- A board served like this never fails a call. -/
theorem returns_syncBoardPages (n : ℕ) (unit : SourceUnit) (cursor : String) (remaining : ℕ) :
    ∃ done, (runAlone (serve n) (GitHub.syncBoardPages unit cursor remaining)).1 = .ok done := by
  induction remaining generalizing cursor with
  | zero => exact ⟨false, rfl⟩
  | succ k ih =>
    unfold GitHub.syncBoardPages
    rw [Prog.bind_eq, runAlone_ctxErr_bind, if_neg Bool.false_ne_true, Prog.bind_eq,
      runAlone_request_bind]
    have hserve : serve n (.projectItems unit.id cursor) = .ok (servedPage n cursor) := rfl
    have hemits : (runAlone (serve n) (GitHub.emitItems unit (servedPage n cursor).nodes)).1 =
        .ok () := returns_emitItems unit _
    rw [hserve]
    dsimp only
    rw [Prog.bind_eq, runAlone_bind, hemits]
    dsimp only
    by_cases hmore : (servedPage n cursor).hasNextPage = true
    · rw [if_pos hmore]
      exact ih _
    · rw [if_neg hmore]
      exact ⟨true, rfl⟩

theorem neverFails_serve (g : GitHub) (n : ℕ) (first : String) :
    (Site.board g (ofSize n)).NeverFails sizedUnit (serve n) first :=
  fun _ _ => returns_syncBoardPages n sizedUnit "" ghMaxPagesPerRepo

theorem length_cursorAt (n page : ℕ) : ((ofSize n).cursorAt (serve n) page).length = page := by
  induction page with
  | zero => rfl
  | succ page ih =>
    show ((ofSize n).cursorAt (serve n) page ++ "c").length = page + 1
    rw [String.length_append, ih]
    rfl

theorem sheet_last (n page : ℕ) :
    ((ofSize n).sheet (serve n) page).last = !decide (100 * page + 100 < n) := by
  show (!decide (100 * ((ofSize n).cursorAt (serve n) page).length + 100 < n)) = _
  rw [length_cursorAt]

/-- Such a board is drained exactly when it has at most a thousand items. -/
theorem ofSize_drains_iff (g : GitHub) (n : ℕ) (first : String) :
    (Site.board g (ofSize n)).Drains sizedUnit (serve n) first ↔ n ≤ 1000 := by
  rw [Site.drains_board_iff ⟨rfl, rfl⟩ (answers_serve g n) (neverFails_serve g n first)]
  simp only [sheet_last, Bool.not_eq_true', decide_eq_false_iff_not, not_lt, ghMaxPagesPerRepo]
  constructor
  · rintro ⟨page, hpage, hn⟩
    omega
  · intro hn
    exact ⟨9, by omega, by omega⟩

/-- A board of three items is drained. -/
theorem small_drains : (Site.board newGitHub (ofSize 3)).Drains sizedUnit (serve 3) "" := by
  have hends := (@Site.relaunches_end_iff (serve 3) (.board newGitHub (ofSize 3)) sizedUnit ""
    ⟨rfl, rfl⟩ (answers_serve newGitHub 3) (neverFails_serve newGitHub 3 "")).2.2
    newGitHub (ofSize 3) rfl
  exact hends.mpr ⟨0, by decide, by rw [sheet_last]; rfl⟩

/-- Not every unit is drained: a board of 1001 items never is. -/
theorem not_every_unit_drains : ¬ ∀ (site : Site) (unit : SourceUnit)
    (answer : (q : Request) → Except Err q.Reply) (first : String), site.fits unit →
    (∀ q x, answer q = .ok x → site.answers q x) → site.NeverFails unit answer first →
    site.Drains unit answer first := by
  intro h
  have hdrains := h (Site.board newGitHub (ofSize 1001)) sizedUnit (serve 1001) "" ⟨rfl, rfl⟩
    (answers_serve newGitHub 1001) (neverFails_serve newGitHub 1001 "")
  have hsize := (ofSize_drains_iff newGitHub 1001 "").mp hdrains
  exact absurd hsize (by decide)

end Board

end Connectors
end Hivebook
