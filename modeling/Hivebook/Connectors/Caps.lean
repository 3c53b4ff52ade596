import Hivebook.Connectors.Account
import Hivebook.Connectors.Returns

/-!
# The cap on the repositories, and who hears of it

A discovery is cut at `ghMaxRepos` repositories in two places.  The loop over the pages stops as
soon as so many are listed, and `repoUnits` cuts what is left of them without the duplicates; only
the second counts a cap hit.  A page holds as many repositories as are wanted in all, so the loop
stops after the first page, and what it has listed is never too long for `repoUnits`.

## Main definitions

* `GitHub.repoUnitsMetered`, `GitHub.discoverUnitsMetered` — `repoUnits` and `DiscoverUnits` with
  the cap hits they count.
* `RepoSource`, `Answers` — a listing of repositories in pages, and a source that answers with it.
* `Answers.NeverSilent` — a discovery that omits a repository has counted a cap hit.
* `RepoSource.FitsFirstPage` — every repository is on the first page.

## Main results

* `GitHub.discoverUnitsMetered_fst` — apart from the cap hits, the discovery is `DiscoverUnits`.
* `Answers.discover_of_ok` — **a discovery returns the repositories of the first page**, and counts
  no cap hit.
* `caps_metered_iff` — **on which listings no repository is omitted in silence.**
-/

namespace Hivebook
namespace Connectors
namespace GitHub

/-! ### The metric -/

/-- The labels of a hit of the cap on the repositories, in `ConnectorCapHits`. -/
def repoCapHit : String × String := ("github", "repos")

/-- `repoUnits`, and the cap hits it counts. -/
def repoUnitsMetered (repos : List String) : List SourceUnit × List (String × String) :=
  let out := repos.reverse.dedup.reverse.map repoUnit
  if ghMaxRepos < out.length then (out.take ghMaxRepos, [repoCapHit]) else (out, [])

/-- `GitHub.DiscoverUnits`, or `GitHubPAT`'s, and the cap hits it counts. -/
def discoverUnitsMetered (via : RepoListing) (deadline : ℕ)
    (order : List (String × String) → List (String × String)) :
    FetchProg (Except Err (List SourceUnit) × List (String × String)) := do
  match ← listRepos via { repos := [], owners := [] } 1 ghMaxRepos with
  | .error e => return (.error e, [])
  | .ok c =>
      let (out, capHits) := repoUnitsMetered c.repos
      return (.ok (← discoverBoards deadline [] out (order c.owners)), capHits)

theorem repoUnitsMetered_fst (repos : List String) :
    (repoUnitsMetered repos).1 = repoUnits repos := by
  unfold repoUnitsMetered repoUnits
  dsimp only
  split
  · rfl
  · next hle => exact (List.take_of_length_le (Nat.not_lt.mp hle)).symm

/-- Apart from the cap hits, the discovery is `DiscoverUnits`. -/
theorem discoverUnitsMetered_fst (via : RepoListing) (deadline : ℕ)
    (order : List (String × String) → List (String × String)) :
    ((discoverUnitsMetered via deadline order).bind fun r => .pure r.1) =
      discoverUnitsVia via deadline order := by
  unfold discoverUnitsMetered discoverUnitsVia
  rw [Prog.bind_eq, Prog.bind_eq, Prog.bind_assoc]
  refine congrArg _ (funext fun r => ?_)
  cases r with
  | error e => rfl
  | ok c =>
    dsimp only
    rw [repoUnitsMetered_fst, Prog.bind_eq, Prog.bind_eq, Prog.bind_assoc]
    rfl

/-- No cap hit is counted where there is room for all. -/
theorem repoUnitsMetered_snd {repos : List String} (h : repos.length ≤ ghMaxRepos) :
    (repoUnitsMetered repos).2 = [] := by
  have hdedup := (List.dedup_sublist repos.reverse).length_le
  unfold repoUnitsMetered
  dsimp only
  rw [if_neg]
  rw [List.length_map, List.length_reverse]
  rw [List.length_reverse] at hdedup
  omega

/-- Where there is room for all, each name is a unit. -/
theorem repoUnit_mem_repoUnits {repos : List String} (h : repos.length ≤ ghMaxRepos)
    {full : String} : repoUnit full ∈ repoUnits repos ↔ full ∈ repos := by
  constructor
  · intro hunit
    obtain ⟨name, hname, heq⟩ := List.mem_map.mp (List.mem_of_mem_take hunit)
    rw [List.mem_reverse, List.mem_dedup, List.mem_reverse] at hname
    have hid := congrArg SourceUnit.id heq
    rwa [← show name = full from hid]
  · intro hfull
    obtain ⟨u, hu, hid⟩ := List.mem_map.mp (Pass.mem_repoUnits h hfull)
    obtain ⟨name, -, rfl⟩ := List.mem_map.mp (List.mem_of_mem_take hu)
    rwa [← show name = full from hid]

/-! ### The boards -/

variable {F : Feed FetchCmd FetchCmd.Resp}

/-- A board is not a repository. -/
theorem boardUnit_ne_repoUnit (p : GhProject) (full : String) : boardUnit p ≠ repoUnit full := by
  intro h
  have hkind : "github_project" = "github_repo" := congrArg SourceUnit.kind h
  exact absurd hkind (by decide)

/-- A listing of boards lists boards. -/
theorem run_listProjects_kind {login type : String} {out us : List SourceUnit} {cursor : String}
    {remaining : ℕ} {u : Used}
    (h : (F.run (listProjects login type out cursor remaining) u).1 = .ok us)
    (hout : ∀ p ∈ out, ∀ full, p ≠ repoUnit full) : ∀ p ∈ us, ∀ full, p ≠ repoUnit full := by
  induction remaining generalizing out cursor u with
  | zero => cases h
  | succ n ih =>
    unfold listProjects at h
    rw [Prog.bind_eq, Feed.run_bind] at h
    generalize F.run (ask (.projects (decide (type = "Organization")) login cursor)) u = res at h
    obtain ⟨reply, u'⟩ := res
    cases reply with
    | error e => cases h
    | ok resp =>
      cases resp with
      | none =>
        cases h
        exact hout
      | some page =>
        have hpage : ∀ p ∈ out ++ page.nodes.map boardUnit, ∀ full, p ≠ repoUnit full := by
          intro p hp full
          rcases List.mem_append.mp hp with hp | hp
          · exact hout p hp full
          · obtain ⟨b, -, rfl⟩ := List.mem_map.mp hp
            exact boardUnit_ne_repoUnit b full
        dsimp only at h
        split at h
        · exact ih h hpage
        · cases h
          exact hpage

/-- Adding boards adds nothing else, and removes nothing. -/
theorem mem_addBoards {seen : List String} {out ps : List SourceUnit} {q : SourceUnit}
    (hq : q ∉ ps) : q ∈ (addBoards seen out ps).2 ↔ q ∈ out := by
  induction ps generalizing seen out with
  | nil => exact Iff.rfl
  | cons p ps ih =>
    rw [List.mem_cons, not_or] at hq
    unfold addBoards
    split
    · exact ih hq.2
    · rw [ih hq.2, List.mem_append, List.mem_singleton, or_iff_left hq.1]

/-- **The boards leave the repositories as they are.** -/
theorem mem_run_discoverBoards {deadline : ℕ} {seen : List String} {out : List SourceUnit}
    {owners : List (String × String)} {u : Used} {full : String} :
    repoUnit full ∈ (F.run (discoverBoards deadline seen out owners) u).1 ↔
      repoUnit full ∈ out := by
  induction owners generalizing seen out u with
  | nil => exact Iff.rfl
  | cons owner owners ih =>
    obtain ⟨login, type⟩ := owner
    unfold discoverBoards
    rw [Prog.bind_eq, Feed.run_bind]
    cases hlist : (F.run (listProjects login type [] "" deadline) u).1 with
    | error e => exact ih
    | ok projects =>
      have hkind := run_listProjects_kind hlist fun p hp => absurd hp List.not_mem_nil
      refine ih.trans (mem_addBoards fun hmem => ?_)
      exact hkind _ hmem full rfl

end GitHub

/-! ### A source of repositories -/

/-- A listing of repositories, page after page; a page may be shorter than it was asked for, and a
repository may be listed more than once. -/
structure RepoSource where
  pages : List (List GhRepo)
  page_le : ∀ p ∈ pages, p.length ≤ ghPerPage

namespace RepoSource

/-- A page, by its number; after the last page there is nothing. -/
def page (S : RepoSource) (n : ℕ) : List GhRepo := S.pages.getD (n - 1) []

/-- The repositories that are listed. -/
def listed (S : RepoSource) : List GhRepo := S.pages.flatten

/-- Every repository that is listed is on the first page. -/
def FitsFirstPage (S : RepoSource) : Prop :=
  ∀ r ∈ S.listed, r.fullName ∈ (S.page 1).map GhRepo.fullName

theorem length_page_le (S : RepoSource) (n : ℕ) : (S.page n).length ≤ ghPerPage := by
  unfold page
  rw [List.getD_eq_getElem?_getD]
  cases hpage : S.pages[n - 1]? with
  | none => exact Nat.zero_le _
  | some p => exact S.page_le p (List.mem_of_getElem? hpage)

end RepoSource

/-- A source with this listing: a request for a page of the repositories fails, or is answered with
that page.  Any other request is answered in any way. -/
structure Answers (S : RepoSource) where
  reply : ℕ → (c : FetchCmd) → c.Resp
  tells : ∀ n via page rs, reply n (.request (.repos via page)) = .ok rs → rs = S.page page

namespace Answers

variable {S : RepoSource} (A : Answers S) (via : RepoListing) (deadline : ℕ)
  (order : List (String × String) → List (String × String))

/-- What a discovery is fed with. -/
def feed : Feed FetchCmd FetchCmd.Resp :=
  { asks := fun _ => true, reply := A.reply, other := A.reply }

/-- What a discovery returns, and the cap hits it has counted. -/
def discover : Except Err (List SourceUnit) × List (String × String) :=
  (A.feed.run (GitHub.discoverUnitsMetered via deadline order) ⟨0, 0⟩).1

/-- The discovery returns an error, or it omits no repository that is listed, or it has counted a
cap hit. -/
def NeverSilent : Prop :=
  ∀ units capHits, A.discover via deadline order = (.ok units, capHits) →
    (∃ r ∈ S.listed, GitHub.repoUnit r.fullName ∉ units) → GitHub.repoCapHit ∈ capHits

variable {A via deadline order}

/-- A discovery fails with the request for the first page. -/
theorem discover_of_error {e : Err} (h : A.reply 0 (.request (.repos via 1)) = .error e) :
    A.discover via deadline order = (.error e, []) := by
  have hreply : A.feed.reply 0 (.request (.repos via 1)) = .error e := h
  unfold discover GitHub.discoverUnitsMetered
  rw [Prog.bind_eq, Feed.run_bind, GitHub.run_listRepos_of_asks rfl, hreply]
  rfl

/-- **A discovery returns the repositories of the first page**, and counts no cap hit. -/
theorem discover_of_ok {rs : List GhRepo} (h : A.reply 0 (.request (.repos via 1)) = .ok rs) :
    ∃ units, A.discover via deadline order = (.ok units, []) ∧
      ∀ full, GitHub.repoUnit full ∈ units ↔ full ∈ (S.page 1).map GhRepo.fullName := by
  obtain rfl := A.tells 0 via 1 rs h
  have hreply : A.feed.reply 0 (.request (.repos via 1)) = .ok (S.page 1) := h
  obtain ⟨hrepos, -⟩ := Pass.foldl_addRepo (S.page 1) { repos := [], owners := [] }
  rw [List.nil_append] at hrepos
  -- a page is no longer than the cap
  have hroom : ((S.page 1).map GhRepo.fullName).length ≤ ghMaxRepos := by
    rw [List.length_map]
    exact S.length_page_le 1
  unfold discover GitHub.discoverUnitsMetered
  rw [Prog.bind_eq, Feed.run_bind, GitHub.run_listRepos_of_asks rfl, hreply]
  dsimp only [Except.map]
  rw [hrepos, Prog.bind_eq, Feed.run_bind, GitHub.repoUnitsMetered_snd hroom,
    GitHub.repoUnitsMetered_fst]
  refine ⟨_, rfl, fun full => ?_⟩
  rw [GitHub.mem_run_discoverBoards, GitHub.repoUnit_mem_repoUnits hroom]

/-- A discovery that gets its first page is silent exactly about what is not on it. -/
theorem neverSilent_iff : A.NeverSilent via deadline order ↔
    (∃ e, A.reply 0 (.request (.repos via 1)) = .error e) ∨ S.FitsFirstPage := by
  cases hfirst : A.reply 0 (.request (.repos via 1)) with
  | error e =>
    refine iff_of_true (fun units capHits hrun => ?_) (Or.inl ⟨e, rfl⟩)
    rw [discover_of_error hfirst] at hrun
    cases hrun
  | ok rs =>
    obtain ⟨units, hrun, hunits⟩ : ∃ units, A.discover via deadline order = (.ok units, []) ∧
        ∀ full, GitHub.repoUnit full ∈ units ↔ full ∈ (S.page 1).map GhRepo.fullName :=
      discover_of_ok hfirst
    constructor
    · intro hnever
      right
      intro r hr
      by_contra homitted
      have hhit := hnever units [] hrun ⟨r, hr, fun hmem => homitted ((hunits _).mp hmem)⟩
      cases hhit
    · rintro (⟨e, he⟩ | hfits)
      · cases he
      · rintro units' capHits hrun' ⟨r, hr, homitted⟩
        rw [hrun] at hrun'
        cases hrun'
        exact absurd ((hunits _).mpr (hfits r hr)) homitted

end Answers

/-- A source that lists all its pages, and no boards. -/
def RepoSource.answers (S : RepoSource) : Answers S where
  reply _
    | .ctxErr => false
    | .request (.repos _ page) => .ok (S.page page)
    | .request _ => .error (.failed "unreachable")
  tells _ _ _ _ h := (Except.ok.inj h).symm

/-- **On which listings no repository is omitted in silence**: on those that have every repository
on the first page, whatever else the source answers.  In a single discovery, it is so too if the
first page cannot be fetched. -/
theorem caps_metered_iff (S : RepoSource) (via : RepoListing) (deadline : ℕ)
    (order : List (String × String) → List (String × String)) :
    ((∀ A : Answers S, A.NeverSilent via deadline order) ↔ S.FitsFirstPage) ∧
      ∀ A : Answers S, A.NeverSilent via deadline order ↔
        (∃ e, A.reply 0 (.request (.repos via 1)) = .error e) ∨ S.FitsFirstPage := by
  refine ⟨⟨fun hall => ?_, fun hfits A => ?_⟩, fun A => Answers.neverSilent_iff⟩
  · rcases Answers.neverSilent_iff.mp (hall S.answers) with ⟨e, he⟩ | hfits
    · cases he
    · exact hfits
  · exact Answers.neverSilent_iff.mpr (Or.inr hfits)

/-- An account with one repository more than the cap. -/
def bigAccount : RepoSource where
  pages := [(List.range 100).map fun i => ⟨"acme/" ++ toString i, "acme", "Organization"⟩,
    [⟨"acme/app", "acme", "Organization"⟩]]
  page_le := by decide +kernel

/-- The cap is silent: of an account with 101 repositories the last one is omitted by either
connector, and no cap hit is counted. -/
theorem cap_is_silent : ¬ bigAccount.answers.NeverSilent .installation 1 id ∧
    ¬ bigAccount.answers.NeverSilent .user 1 id := by
  have hmissing : ¬ bigAccount.FitsFirstPage := by
    intro hfits
    have hlast : (⟨"acme/app", "acme", "Organization"⟩ : GhRepo) ∈ bigAccount.listed := by
      decide +kernel
    exact absurd (hfits _ hlast) (by decide +kernel)
  refine ⟨fun h => ?_, fun h => ?_⟩
  · rcases Answers.neverSilent_iff.mp h with ⟨e, he⟩ | hfits
    · cases he
    · exact hmissing hfits
  · rcases Answers.neverSilent_iff.mp h with ⟨e, he⟩ | hfits
    · cases he
    · exact hmissing hfits

end Connectors
end Hivebook
