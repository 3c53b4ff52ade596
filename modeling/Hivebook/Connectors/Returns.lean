import Hivebook.Connectors.Replies
import Mathlib.Data.Finset.Card
import Mathlib.Data.Finset.Max

/-!
# Connector calls against a source that misbehaves

A drain and the estimates return on every stream of replies.  The loop over the boards of an
account, `listProjects`, is the only one without a cap: it goes on until a reply ends the listing.
So a discovery returns exactly when there is such a reply for every account.

## Main definitions

* `GitHub.discoverUnitsWithin` — `DiscoverUnits`, if no loop goes round more often than a bound.
* `Concludes` — the replies end a listing of boards for every account.

## Main results

* `GitHub.run_discoverUnitsVia` — under a deadline, a discovery returns the same.
* `GitHub.returns_discoverUnits_iff` — **when `DiscoverUnits` returns.**
* `calls_return_iff` — **on which replies every call returns.**
-/

namespace Hivebook
namespace Connectors

/-! ### The listing of the boards, unbounded -/

namespace GitHub

/-- `listProjects` from a page on, if it has so few rounds left. -/
def listProjectsWithin (login type : String) (out : List SourceUnit) (cursor : String) :
    (rounds : ℕ) → FetchProg (Option (Except Err (List SourceUnit)))
  | 0 => return none
  | rounds + 1 => do
      match ← ask (.projects (decide (type = "Organization")) login cursor) with
      | .error e => return some (.error e)
      | .ok none => return some (.ok out)
      | .ok (some page) =>
          let out := out ++ page.nodes.map boardUnit
          if page.hasNextPage then listProjectsWithin login type out page.endCursor rounds
          else return some (.ok out)

/-- The boards of every account, if no listing has more rounds. -/
def discoverBoardsWithin (rounds : ℕ) (seen : List String) (out : List SourceUnit) :
    List (String × String) → FetchProg (Option (List SourceUnit))
  | [] => return some out
  | (login, type) :: owners => do
      match ← listProjectsWithin login type [] "" rounds with
      | none => return none
      | some (.error _) => discoverBoardsWithin rounds seen out owners
      | some (.ok projects) =>
          let (seen, out) := addBoards seen out projects
          discoverBoardsWithin rounds seen out owners

/-- `GitHub.DiscoverUnits`, or `GitHubPAT`'s, if no listing of boards has more rounds. -/
def discoverUnitsWithin (via : RepoListing)
    (order : List (String × String) → List (String × String)) (rounds : ℕ) :
    FetchProg (Option (Except Err (List SourceUnit))) := do
  match ← listRepos via { repos := [], owners := [] } 1 ghMaxRepos with
  | .error e => return some (.error e)
  | .ok c =>
      match ← discoverBoardsWithin rounds [] (repoUnits c.repos) (order c.owners) with
      | none => return none
      | some units => return some (.ok units)

/-- The listing that ends with a deadline is the one that goes on, cut off. -/
theorem listProjects_eq (login type : String) (out : List SourceUnit) (cursor : String)
    (rounds : ℕ) : listProjects login type out cursor rounds =
      (listProjectsWithin login type out cursor rounds).bind fun r =>
        .pure (r.getD (.error .deadlineExceeded)) := by
  induction rounds generalizing out cursor with
  | zero => rfl
  | succ n ih =>
    unfold listProjects listProjectsWithin
    refine congrArg (Prog.call _) (funext fun r => ?_)
    cases r with
    | error e => rfl
    | ok resp =>
      cases resp with
      | none => rfl
      | some page =>
        show (if page.hasNextPage = true then _ else _) = Prog.bind (if page.hasNextPage = true
          then _ else _) _
        by_cases hmore : page.hasNextPage = true
        · rw [if_pos hmore, if_pos hmore]
          exact ih _ _
        · rw [if_neg hmore, if_neg hmore]
          rfl

/-- **The listing of the repositories asks once**, however often its loop may go round: a page is
short and the last, or it has as many repositories as are wanted. -/
theorem listRepos_eq (via : RepoListing) (rounds : ℕ) :
    listRepos via { repos := [], owners := [] } 1 (rounds + 1) = do
      match ← ask (.repos via 1) with
      | .error e => return .error e
      | .ok rs => return .ok (rs.foldl Catalog.addRepo { repos := [], owners := [] }) := by
  have hlength : ∀ (rs : List GhRepo) (c : Catalog),
      (rs.foldl Catalog.addRepo c).repos.length = c.repos.length + rs.length := by
    intro rs
    induction rs with
    | nil => exact fun c => rfl
    | cons r rs ih =>
      intro c
      rw [List.foldl_cons, ih]
      simp only [Catalog.addRepo, List.length_append, List.length_cons, List.length_nil]
      omega
  refine congrArg (Prog.call _) (funext fun r => ?_)
  cases r with
  | error e => rfl
  | ok rs =>
    show (if rs.length < ghPerPage then _ else _) = _
    by_cases hshort : rs.length < ghPerPage
    · rw [if_pos hshort]
      rfl
    · rw [if_neg hshort]
      cases rounds with
      | zero => rfl
      | succ n =>
        have hfull : ¬ (rs.foldl Catalog.addRepo { repos := [], owners := [] }).repos.length <
            ghMaxRepos := by
          rw [hlength]
          simp only [List.length_nil, ghMaxRepos, ghPerPage] at hshort ⊢
          omega
        unfold listRepos
        rw [if_neg hfull]
        rfl

end GitHub

/-! ### The accounts of a listing -/

/-- The accounts that own the repositories of a listing. -/
def accounts (rs : List GhRepo) : Finset String := (rs.map GhRepo.ownerLogin).toFinset.erase ""

theorem keys_setOwner {login type : String} {owners : List (String × String)}
    (h : (owners.map Prod.fst).Nodup) :
    ((GitHub.setOwner login type owners).map Prod.fst).Nodup ∧
      ((GitHub.setOwner login type owners).map Prod.fst).toFinset =
        insert login (owners.map Prod.fst).toFinset := by
  have hkeys : (GitHub.setOwner login type owners).map Prod.fst =
      (owners.map Prod.fst).filter (fun k => decide (k ≠ login)) ++ [login] := by
    rw [GitHub.setOwner, List.map_append, List.filter_map]
    rfl
  rw [hkeys]
  constructor
  · rw [List.nodup_append_comm, List.singleton_append, List.nodup_cons]
    refine ⟨fun hmem => ?_, h.filter _⟩
    exact of_decide_eq_true (List.mem_filter.mp hmem).2 rfl
  · ext k
    by_cases hk : k = login
    · simp [hk]
    · simp [hk]

/-- The accounts of a catalog, each once. -/
theorem keys_addRepos (rs : List GhRepo) (c : GitHub.Catalog)
    (h : (c.owners.map Prod.fst).Nodup) :
    ((rs.foldl GitHub.Catalog.addRepo c).owners.map Prod.fst).Nodup ∧
      ((rs.foldl GitHub.Catalog.addRepo c).owners.map Prod.fst).toFinset =
        (c.owners.map Prod.fst).toFinset ∪ accounts rs := by
  induction rs generalizing c with
  | nil => exact ⟨h, by simp [accounts]⟩
  | cons r rs ih =>
    -- one repository adds its owner, if it has one
    have hadd : ((c.addRepo r).owners.map Prod.fst).Nodup ∧
        ((c.addRepo r).owners.map Prod.fst).toFinset =
          (c.owners.map Prod.fst).toFinset ∪ accounts [r] := by
      unfold GitHub.Catalog.addRepo
      by_cases hlogin : r.ownerLogin = ""
      · simp only [hlogin, if_true]
        exact ⟨h, by simp [accounts, hlogin]⟩
      · simp only [if_neg hlogin]
        refine ⟨(keys_setOwner h).1, (keys_setOwner h).2.trans ?_⟩
        ext k
        simp only [accounts, Finset.mem_insert, Finset.mem_union, Finset.mem_erase,
          List.mem_toFinset, List.mem_map, List.mem_singleton, exists_eq_left]
        constructor
        · rintro (rfl | hk)
          · exact .inr ⟨hlogin, rfl⟩
          · exact .inl hk
        · rintro (hk | ⟨-, hk⟩)
          · exact .inr hk
          · exact .inl hk.symm
    obtain ⟨hnodup, hset⟩ := ih (c.addRepo r) hadd.1
    refine ⟨hnodup, ?_⟩
    rw [List.foldl_cons, hset, hadd.2, Finset.union_assoc]
    refine congrArg _ ?_
    ext k
    simp only [accounts, Finset.mem_union, Finset.mem_erase, List.mem_toFinset, List.mem_map,
      List.mem_cons, List.not_mem_nil, or_false, exists_eq_left, exists_eq_or_imp]
    constructor
    · rintro (⟨hk, hr⟩ | ⟨hk, hr⟩)
      · exact ⟨hk, .inl hr⟩
      · exact ⟨hk, .inr hr⟩
    · rintro ⟨hk, hr | hr⟩
      · exact .inl ⟨hk, hr⟩
      · exact .inr ⟨hk, hr⟩

/-! ### The replies that a discovery waits for -/

/-- The replies tell a discovery, for every account of the repositories it has listed, that it has
all its boards. -/
def Concludes (via : RepoListing) (replies : ℕ → HttpReply) : Prop :=
  ∀ rs, (replies 0).decode (.repos via 1) = .ok rs → ∃ ends : Finset ℕ,
    ends.card = (accounts rs).card ∧ ∀ i ∈ ends, 0 < i ∧ (replies i).endsBoards = true

namespace GitHub

variable {replies : ℕ → HttpReply} {others : ℕ → (c : FetchCmd) → c.Resp}

/-- A round of a listing of boards ends it, or goes on, as the next reply says. -/
theorem run_listProjectsWithin (login type : String) (out : List SourceUnit) (cursor : String)
    (rounds : ℕ) (u : Used) :
    ((replies u.replies).endsBoards = true ∧
      ∃ r, (fetchFeed replies others).run
        (listProjectsWithin login type out cursor (rounds + 1)) u =
          (some r, { u with replies := u.replies + 1 })) ∨
    ((replies u.replies).endsBoards = false ∧
      ∃ out' cursor', (fetchFeed replies others).run
        (listProjectsWithin login type out cursor (rounds + 1)) u =
          (fetchFeed replies others).run (listProjectsWithin login type out' cursor' rounds)
            { u with replies := u.replies + 1 }) := by
  have hreply : (fetchFeed replies others).reply u.replies
      (.request (.projects (decide (type = "Organization")) login cursor)) =
        (replies u.replies).decode (.projects false "" "") :=
    (replies u.replies).projects_eq _ _ _
  rw [listProjectsWithin, HttpReply.endsBoards, Prog.bind_eq, ask, Feed.run_request_bind rfl,
    hreply]
  cases (replies u.replies).decode (.projects false "" "") with
  | error e => exact .inl ⟨rfl, _, rfl⟩
  | ok resp =>
    cases resp with
    | none => exact .inl ⟨rfl, _, rfl⟩
    | some page =>
      dsimp only
      by_cases hmore : page.hasNextPage = true
      · rw [if_pos hmore, hmore]
        exact .inr ⟨rfl, _, _, rfl⟩
      · rw [if_neg hmore, Bool.eq_false_iff.mpr hmore]
        exact .inl ⟨rfl, _, rfl⟩

/-- A listing of boards returns with a reply that ends it. -/
theorem ends_of_listProjectsWithin {login type : String} {out : List SourceUnit} {cursor : String}
    {rounds : ℕ} {u : Used} {r : Except Err (List SourceUnit)}
    (h : ((fetchFeed replies others).run
      (listProjectsWithin login type out cursor rounds) u).1 = some r) :
    ∃ j, u.replies ≤ j ∧ (replies j).endsBoards = true ∧
      ((fetchFeed replies others).run
        (listProjectsWithin login type out cursor rounds) u).2.replies = j + 1 := by
  induction rounds generalizing out cursor u with
  | zero => cases h
  | succ n ih =>
    rcases @run_listProjectsWithin replies others login type out cursor n u with
      ⟨hends, r', hrun⟩ | ⟨-, out', cursor', hrun⟩
    · rw [hrun]
      exact ⟨u.replies, le_rfl, hends, rfl⟩
    · rw [hrun] at h ⊢
      obtain ⟨j, hle, hends, hused⟩ := ih h
      exact ⟨j, (Nat.le_succ _).trans hle, hends, hused⟩

/-- A listing of boards returns by the next reply that ends it, if it may go on for so long. -/
theorem listProjectsWithin_returns (login type : String) {out : List SourceUnit} {cursor : String}
    {rounds j : ℕ} {u : Used} (hle : u.replies ≤ j) (hj : j < u.replies + rounds)
    (hends : (replies j).endsBoards = true) :
    ∃ r, ((fetchFeed replies others).run
        (listProjectsWithin login type out cursor rounds) u).1 = some r ∧
      ((fetchFeed replies others).run
        (listProjectsWithin login type out cursor rounds) u).2.replies ≤ j + 1 := by
  induction rounds generalizing out cursor u with
  | zero => omega
  | succ n ih =>
    rcases @run_listProjectsWithin replies others login type out cursor n u with
      ⟨-, r, hrun⟩ | ⟨hmore, out', cursor', hrun⟩
    · rw [hrun]
      exact ⟨r, rfl, Nat.succ_le_succ hle⟩
    · have hne : u.replies ≠ j := by
        rintro rfl
        rw [hends] at hmore
        cases hmore
      rw [hrun]
      exact ih (Nat.lt_of_le_of_ne hle hne) (by dsimp only; omega)

/-- Discovering the boards of accounts takes a reply that ends the listing for each of them. -/
theorem ends_of_discoverBoardsWithin {rounds : ℕ} {seen : List String} {out : List SourceUnit}
    {owners : List (String × String)} {u : Used} {units : List SourceUnit}
    (h : ((fetchFeed replies others).run
      (discoverBoardsWithin rounds seen out owners) u).1 = some units) :
    ∃ ends : Finset ℕ, ends.card = owners.length ∧
      ∀ i ∈ ends, u.replies ≤ i ∧ (replies i).endsBoards = true := by
  induction owners generalizing seen out u with
  | nil => exact ⟨∅, rfl, fun i hi => absurd hi (Finset.notMem_empty i)⟩
  | cons owner owners ih =>
    obtain ⟨login, type⟩ := owner
    unfold discoverBoardsWithin at h
    rw [Prog.bind_eq, Feed.run_bind] at h
    cases hlist : ((fetchFeed replies others).run
        (listProjectsWithin login type [] "" rounds) u).1 with
    | none =>
      rw [hlist] at h
      cases h
    | some r =>
      obtain ⟨j, hle, hends, hused⟩ := ends_of_listProjectsWithin hlist
      have hrest : ∃ seen' out', ((fetchFeed replies others).run
          (discoverBoardsWithin rounds seen' out' owners)
          ((fetchFeed replies others).run
            (listProjectsWithin login type [] "" rounds) u).2).1 = some units := by
        rw [hlist] at h
        cases r with
        | error e => exact ⟨_, _, h⟩
        | ok projects => exact ⟨_, _, h⟩
      obtain ⟨seen', out', hrest⟩ := hrest
      obtain ⟨ends, hcard, hall⟩ := ih hrest
      rw [hused] at hall
      have hfresh : j ∉ ends := fun hmem => absurd (hall j hmem).1 (Nat.not_succ_le_self j)
      refine ⟨insert j ends, ?_, fun i hi => ?_⟩
      · rw [Finset.card_insert_of_notMem hfresh, hcard, List.length_cons]
      · rcases Finset.mem_insert.mp hi with rfl | hi
        · exact ⟨hle, hends⟩
        · exact ⟨hle.trans ((Nat.le_succ j).trans (hall i hi).1), (hall i hi).2⟩

/-- Discovering the boards of accounts returns, if there are so many such replies. -/
theorem discoverBoardsWithin_returns {rounds : ℕ} {seen : List String} {out : List SourceUnit}
    {owners : List (String × String)} {u : Used} {ends : Finset ℕ}
    (hcard : ends.card = owners.length)
    (hall : ∀ i ∈ ends, u.replies ≤ i ∧ i < rounds ∧ (replies i).endsBoards = true) :
    ∃ units, ((fetchFeed replies others).run
      (discoverBoardsWithin rounds seen out owners) u).1 = some units := by
  induction owners generalizing seen out u ends with
  | nil => exact ⟨out, rfl⟩
  | cons owner owners ih =>
    obtain ⟨login, type⟩ := owner
    have hne : ends.Nonempty := by
      rw [← Finset.card_pos, hcard]
      exact Nat.succ_pos _
    -- the first of these replies ends the listing at the latest
    obtain ⟨hle, hlt, hends⟩ := hall _ (ends.min'_mem hne)
    obtain ⟨r, hlist, hused⟩ : ∃ r, ((fetchFeed replies others).run
          (listProjectsWithin login type [] "" rounds) u).1 = some r ∧
        ((fetchFeed replies others).run
          (listProjectsWithin login type [] "" rounds) u).2.replies ≤ ends.min' hne + 1 :=
      listProjectsWithin_returns login type hle (Nat.lt_add_left _ hlt) hends
    have hcard' : (ends.erase (ends.min' hne)).card = owners.length := by
      rw [Finset.card_erase_of_mem (ends.min'_mem hne), hcard, List.length_cons,
        Nat.add_sub_cancel]
    have hall' : ∀ i ∈ ends.erase (ends.min' hne),
        ((fetchFeed replies others).run
          (listProjectsWithin login type [] "" rounds) u).2.replies ≤ i ∧ i < rounds ∧
          (replies i).endsBoards = true := by
      intro i hi
      obtain ⟨hi, hmem⟩ := Finset.mem_erase.mp hi
      have hmin := lt_of_le_of_ne (ends.min'_le i hmem) (Ne.symm hi)
      exact ⟨hused.trans hmin, (hall i hmem).2⟩
    unfold discoverBoardsWithin
    rw [Prog.bind_eq, Feed.run_bind, hlist]
    cases r with
    | error e => exact ih hcard' hall'
    | ok projects => exact ih hcard' hall'

/-- The listing of the repositories uses one reply, of any stream. -/
theorem run_listRepos_of_asks {F : Feed FetchCmd FetchCmd.Resp} {via : RepoListing}
    (hasks : F.asks (.request (.repos via 1)) = true) (u : Used) :
    F.run (listRepos via { repos := [], owners := [] } 1 ghMaxRepos) u =
      ((F.reply u.replies (.request (.repos via 1))).map fun rs =>
          rs.foldl Catalog.addRepo { repos := [], owners := [] },
        { u with replies := u.replies + 1 }) := by
  have hask := listRepos_eq via (ghMaxRepos - 1)
  rw [show ghMaxRepos - 1 + 1 = ghMaxRepos from rfl] at hask
  rw [hask, Prog.bind_eq, ask, Feed.run_request_bind hasks]
  cases F.reply u.replies (.request (.repos via 1)) <;> rfl

theorem run_listRepos (via : RepoListing) (u : Used) :
    (fetchFeed replies others).run (listRepos via { repos := [], owners := [] } 1 ghMaxRepos) u =
      (((replies u.replies).decode (.repos via 1)).map fun rs =>
          rs.foldl Catalog.addRepo { repos := [], owners := [] },
        { u with replies := u.replies + 1 }) :=
  run_listRepos_of_asks rfl u

/-- What a discovery returns within a number of rounds is what it returns under a deadline. -/
theorem run_discoverBoards {rounds : ℕ} {seen : List String} {out : List SourceUnit}
    {owners : List (String × String)} {u : Used} {units : List SourceUnit}
    (h : ((fetchFeed replies others).run
      (discoverBoardsWithin rounds seen out owners) u).1 = some units) :
    ((fetchFeed replies others).run (discoverBoards rounds seen out owners) u).1 = units := by
  induction owners generalizing seen out u with
  | nil => exact Option.some.inj h
  | cons owner owners ih =>
    obtain ⟨login, type⟩ := owner
    unfold discoverBoardsWithin at h
    unfold discoverBoards
    rw [Prog.bind_eq, Feed.run_bind] at h ⊢
    rw [listProjects_eq, Feed.run_bind]
    cases hlist : ((fetchFeed replies others).run
        (listProjectsWithin login type [] "" rounds) u).1 with
    | none =>
      rw [hlist] at h
      cases h
    | some r =>
      rw [hlist] at h
      cases r with
      | error e => exact ih h
      | ok projects => exact ih h

theorem run_discoverUnitsVia {via : RepoListing} {rounds : ℕ}
    {order : List (String × String) → List (String × String)} {u : Used}
    {r : Except Err (List SourceUnit)}
    (h : ((fetchFeed replies others).run (discoverUnitsWithin via order rounds) u).1 = some r) :
    ((fetchFeed replies others).run (discoverUnitsVia via rounds order) u).1 = r := by
  unfold discoverUnitsWithin at h
  unfold discoverUnitsVia
  rw [Prog.bind_eq, Feed.run_bind] at h ⊢
  generalize (fetchFeed replies others).run
    (listRepos via { repos := [], owners := [] } 1 ghMaxRepos) u = res at h ⊢
  obtain ⟨listed, u'⟩ := res
  cases listed with
  | error e => exact Option.some.inj h
  | ok c =>
    dsimp only at h ⊢
    rw [Prog.bind_eq, Feed.run_bind] at h ⊢
    cases hboards : ((fetchFeed replies others).run
        (discoverBoardsWithin rounds [] (repoUnits c.repos) (order c.owners)) u').1 with
    | none =>
      rw [hboards] at h
      cases h
    | some units =>
      rw [hboards] at h
      rw [run_discoverBoards hboards]
      exact Option.some.inj h

end GitHub

/-- The order in which a map of accounts is iterated over. -/
structure MapOrder where
  order : List (String × String) → List (String × String)
  perm : ∀ l, (order l).Perm l

namespace GitHub

variable {replies : ℕ → HttpReply} {others : ℕ → (c : FetchCmd) → c.Resp}

/-- **When `DiscoverUnits` returns.**  It does if and only if its first reply is no listing of
repositories, or as many of the later replies end a listing of boards as there are accounts. -/
theorem returns_discoverUnits_iff (via : RepoListing) (order : MapOrder) :
    (fetchFeed replies others).Returns (discoverUnitsWithin via order.order) ⟨0, 0⟩ ↔
      Concludes via replies := by
  have howners : ∀ rs : List GhRepo,
      (order.order (rs.foldl Catalog.addRepo { repos := [], owners := [] }).owners).length =
        (accounts rs).card := by
    intro rs
    obtain ⟨hnodup, hset⟩ := keys_addRepos rs { repos := [], owners := [] } List.nodup_nil
    rw [(order.perm _).length_eq, ← List.length_map (f := Prod.fst),
      ← List.toFinset_card_of_nodup hnodup, hset]
    simp
  constructor
  · rintro ⟨rounds, r, hrun⟩ rs hrs
    unfold discoverUnitsWithin at hrun
    rw [Prog.bind_eq, Feed.run_bind, run_listRepos, hrs] at hrun
    dsimp only [Except.map] at hrun
    rw [Prog.bind_eq, Feed.run_bind] at hrun
    cases hboards : ((fetchFeed replies others).run (discoverBoardsWithin rounds []
        (repoUnits (rs.foldl Catalog.addRepo { repos := [], owners := [] }).repos)
        (order.order (rs.foldl Catalog.addRepo { repos := [], owners := [] }).owners))
        ⟨0 + 1, 0⟩).1 with
    | none =>
      rw [hboards] at hrun
      cases hrun
    | some units =>
      obtain ⟨ends, hcard, hall⟩ := ends_of_discoverBoardsWithin hboards
      exact ⟨ends, hcard.trans (howners rs), hall⟩
  · intro hconcludes
    cases hrs : (replies 0).decode (.repos via 1) with
    | error e =>
      refine ⟨0, .error e, ?_⟩
      unfold discoverUnitsWithin
      rw [Prog.bind_eq, Feed.run_bind, run_listRepos, hrs]
      rfl
    | ok rs =>
      obtain ⟨ends, hcard, hall⟩ := hconcludes rs hrs
      -- a bound on the rounds that is past all of these replies
      have hboards : ∃ units, ((fetchFeed replies others).run (discoverBoardsWithin
          (ends.sup id + 1) [] (repoUnits (rs.foldl Catalog.addRepo ⟨[], []⟩).repos)
          (order.order (rs.foldl Catalog.addRepo ⟨[], []⟩).owners)) ⟨0 + 1, 0⟩).1 =
            some units := by
        refine discoverBoardsWithin_returns (hcard.trans (howners rs).symm) fun i hi => ?_
        have hsup : i ≤ ends.sup id := Finset.le_sup (f := id) hi
        exact ⟨(hall i hi).1, Nat.lt_succ_of_le hsup, (hall i hi).2⟩
      obtain ⟨units, hunits⟩ := hboards
      refine ⟨ends.sup id + 1, .ok units, ?_⟩
      unfold discoverUnitsWithin
      rw [Prog.bind_eq, Feed.run_bind, run_listRepos, hrs]
      dsimp only [Except.map]
      rw [Prog.bind_eq, Feed.run_bind, hunits]
      rfl

end GitHub

/-! ### Every call -/

/-- **On which replies every call returns.**  `SyncUnit` and `EstimateTotals` always do, after a
number of requests that their caps and the pages they were given bound.  `DiscoverUnits` of the two
GitHub connectors does if and only if the replies conclude it. -/
theorem calls_return_iff (replies : ℕ → HttpReply) :
    (∀ (via : RepoListing) (order : MapOrder) (others : ℕ → (c : FetchCmd) → c.Resp),
      (fetchFeed replies others).Returns (GitHub.discoverUnitsWithin via order.order) ⟨0, 0⟩ ↔
        Concludes via replies) ∧
    (∀ (g : GitHub) (unit : SourceUnit) (cursor : String) (others : ℕ → (c : SyncCmd) → c.Resp),
      ∃ pages : List ℕ, pages.length ≤ g.hardCap ∧
        ((syncFeed replies others).run (g.syncUnit unit cursor) ⟨0, 0⟩).2.replies ≤
          (pages.map fun i => 1 + (replies i).length * ghMaxCommentPages).sum) ∧
    (∀ units : List SourceUnit,
      ((totalsFeed replies).run (GitHub.estimateTotals units) ⟨0, 0⟩).2.replies ≤
        GitHub.batchCount (units.filter fun u => decide (u.kind = "github_repo")) +
          GitHub.batchCount (units.filter fun u => decide (u.kind = "github_project"))) ∧
    ∀ (g : GoogleDocs) (unit : SourceUnit) (cursor : String) (units : List SourceUnit)
      (others : ℕ → (c : SyncCmd) → c.Resp) (others' : ℕ → (c : FetchCmd) → c.Resp),
      (∃ pages : List ℕ, pages.length ≤ g.hardCap ∧
        ((syncFeed replies others).run (g.syncUnit unit cursor) ⟨0, 0⟩).2.replies ≤
          (pages.map fun i => 1 + (replies i).length).sum) ∧
      ((fetchFeed replies others').run g.connector.discoverUnits ⟨0, 0⟩).2.replies = 0 ∧
      ((fetchFeed replies others').run
        (g.connector.estimateTotals units) ⟨0, 0⟩).2.replies = 0 := by
  refine ⟨fun via order others => GitHub.returns_discoverUnits_iff via order,
    fun g unit cursor others => g.used_syncUnit replies others unit cursor, fun units => ?_,
    fun g unit cursor units others others' =>
      ⟨g.used_syncUnit replies others unit cursor, rfl, rfl⟩⟩
  have hused := Feed.used_le (F := totalsFeed replies)
    (GitHub.asksAtMost_estimateTotals units) ⟨0, 0⟩
  rwa [Nat.zero_add] at hused

/-- A reply that lists one repository, and a page of boards that is not the last. -/
def endlessReply : HttpReply where
  decode
    | .repos _ _ => .ok [⟨"acme/app", "acme", "Organization"⟩]
    | .projects _ _ _ => .ok (some { nodes := [], hasNextPage := true, endCursor := "Y3Vyc29y" })
    | _ => .error (.failed "decode")
  totals _ := .error (.failed "decode")
  length := 0
  issues_le := by
    intro repo perPage page since raws h
    cases h
  files_le := by
    intro since pageSize token resp h
    cases h
  projects_eq _ _ _ := rfl

/-- A context that is not done, in a call that is answered nothing but replies. -/
def undone (_ : ℕ) : (c : FetchCmd) → c.Resp
  | .ctxErr => false
  | .request _ => .error (.failed "decode")

/-- Not every call returns: a discovery whose replies name an account, and then always one more
page of its boards, does not. -/
theorem not_every_call_returns : ¬ ∀ (replies : ℕ → HttpReply) (via : RepoListing)
    (order : MapOrder) (others : ℕ → (c : FetchCmd) → c.Resp),
    (fetchFeed replies others).Returns (GitHub.discoverUnitsWithin via order.order) ⟨0, 0⟩ := by
  intro h
  have hreturns := h (fun _ => endlessReply) .installation ⟨id, fun _ => List.Perm.refl _⟩ undone
  rw [GitHub.returns_discoverUnits_iff] at hreturns
  obtain ⟨ends, hcard, hall⟩ := hreturns _ rfl
  have hpos : 0 < ends.card := by
    rw [hcard]
    decide
  obtain ⟨i, hi⟩ := Finset.card_pos.mp hpos
  have hends : endlessReply.endsBoards = true := (hall i hi).2
  exact absurd hends (by decide)

end Connectors
end Hivebook
