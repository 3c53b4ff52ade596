import Mathlib.Data.List.Dedup
import Hivebook.Connectors.GitHub
import Hivebook.Lib.Protocol

/-!
# A GitHub account, and what a discovery is shown of it

An account has repositories, which are listed in some order, and boards, which are listed
owner by owner.  `DiscoverUnits` does not show all of it: the listing of the repositories
stops at `ghMaxRepos`, the boards are asked for of the owners of those repositories only,
and an owner whose boards cannot be listed is skipped.

## Main definitions

* `Account`, `Account.has` — an account, and what exists there.
* `Pass` — an account as one discovery finds it: the order of the listing, the owners whose
  boards cannot be listed, and the order in which the owners are gone through.
* `Pass.reaches` — what the discovery is shown; `Pass.tells` — what it is answered.

## Main results

* `Pass.follows_discoverUnitsVia` — **a discovery that succeeds returns everything it is
  shown.**
-/

namespace Hivebook
namespace Connectors

/-- A GitHub account. -/
structure Account where
  /-- What the credential can reach, in the order it is listed. -/
  repos : List GhRepo
  /-- The boards, each with the login of its owner. -/
  boards : List (String × GhProject)
  /-- How many boards of an owner precede the page of a cursor. -/
  offset : String → String → ℕ
  /-- Without a cursor the listing starts at its first page. -/
  offset_empty : ∀ login, offset login "" = 0

namespace Account

/-- The boards of an owner. -/
def boardsOf (c : Account) (login : String) : List GhProject :=
  (c.boards.filter fun b => decide (b.1 = login)).map Prod.snd

/-- The repository or the board exists. -/
def has (c : Account) (x : String) : Bool :=
  (c.repos.any fun r => decide (r.fullName = x)) || c.boards.any fun b => decide (b.2.id = x)

end Account

/-- The account as one discovery finds it. -/
structure Pass where
  account : Account
  /-- The owners whose boards cannot be listed. -/
  fails : String → Bool
  /-- How many pages of boards of one owner there is time for. -/
  deadline : ℕ
  /-- Without enough time the boards cannot be listed. -/
  patient : ∀ login, fails login = false → (account.boardsOf login).length < deadline
  /-- The order in which the owners are gone through. -/
  order : List (String × String) → List (String × String)
  perm : ∀ owners, (order owners).Perm owners

namespace Pass

variable (p : Pass)

/-- The repositories that are listed. -/
def listed : List GhRepo := p.account.repos.take ghMaxRepos

/-- What the discovery is shown: the repositories that are listed, and the boards of their
owners, but for the owners whose boards cannot be listed. -/
def reaches (x : String) : Bool :=
  (p.listed.any fun r => decide (r.fullName = x)) ||
    p.listed.any fun r => decide (r.ownerLogin ≠ "") && !p.fails r.ownerLogin &&
      (p.account.boardsOf r.ownerLogin).any fun b => decide (b.id = x)

/-- What the account answers: the pages of its repositories, and pages of boards of any
length, each with the cursor of the next one unless it is the last.  A request for boards
fails only if those of the owner cannot be listed. -/
def tells : (q : Request) → Except Err q.Reply → Bool
  | .repos _ page, .ok rs =>
      decide (rs = (p.account.repos.drop ((page - 1) * ghPerPage)).take ghPerPage)
  | .projects _ login _, .error _ => p.fails login
  | .projects _ login _, .ok none => decide (p.account.boardsOf login = [])
  | .projects _ login cursor, .ok (some page) =>
      let left := (p.account.boardsOf login).drop (p.account.offset login cursor)
      if page.hasNextPage then decide (page.nodes ≠ []) && decide (page.nodes <+: left) &&
        decide (p.account.offset login page.endCursor =
          p.account.offset login cursor + page.nodes.length)
      else decide (page.nodes = left)
  | _, _ => true

/-- Whether the account has answered so. -/
def telling : Protocol Prop FetchCmd FetchCmd.Resp where
  allowed _ _ := True
  next h
    | .request q, r => h ∧ p.tells q r = true
    | .ctxErr, _ => h

variable {p} {α : Type} {h : Prop}

/-- Nothing is required of a discovery. -/
theorem follows_telling (prog : FetchProg α) : prog.Follows p.telling (fun _ h' => h' → h) h := by
  induction prog generalizing h with
  | pure a => exact id
  | call c k ih =>
    refine ⟨trivial, fun r => (ih r).mono fun _ h' hle hh' => ?_⟩
    have hnext := hle hh'
    cases c with
    | ctxErr => exact hnext
    | request q => exact hnext.1

/-! ### The boards of an owner -/

/-- **`listProjects` fails only if the boards of the owner cannot be listed**, and else returns
what is left of them. -/
theorem follows_listProjects (login type : String) (out : List SourceUnit) (cursor : String)
    (remaining : ℕ) (hleft : p.fails login = false →
      (p.account.boardsOf login).length - p.account.offset login cursor < remaining) :
    (GitHub.listProjects login type out cursor remaining).Follows p.telling
      (fun r h' => h' → h ∧ (∀ e, r = .error e → p.fails login = true) ∧
        ∀ us, r = .ok us → out ⊆ us ∧
          ∀ b ∈ (p.account.boardsOf login).drop (p.account.offset login cursor),
            GitHub.boardUnit b ∈ us) h := by
  induction remaining generalizing out cursor h with
  -- more pages than boards are left are never needed
  | zero =>
    intro hh
    refine ⟨hh, fun e _ => ?_, fun us hus => by cases hus⟩
    by_contra hok
    have hnone := hleft (Bool.eq_false_iff.mpr hok)
    omega
  | succ n ih =>
    refine ⟨trivial, fun r => ?_⟩
    cases r with
    | error e => exact fun hh => ⟨hh.1, fun _ _ => hh.2, fun us hus => by cases hus⟩
    | ok reply =>
      cases reply with
      | none =>
        rintro ⟨hh, hnone⟩
        refine ⟨hh, fun e he => (nomatch he), fun us hus => ?_⟩
        cases hus
        have hempty : p.account.boardsOf login = [] := of_decide_eq_true hnone
        rw [hempty, List.drop_nil]
        exact ⟨List.Subset.refl _, fun b hb => nomatch hb⟩
      | some page =>
        show Prog.Follows _ _ _ (if page.hasNextPage = true then _ else _)
        by_cases hnext : page.hasNextPage = true
        · rw [if_pos hnext]
          by_cases htold : p.tells (.projects (decide (type = "Organization")) login cursor)
              (.ok (some page)) = true
          · -- the next page starts where this one ends
            have hpage := htold
            simp only [tells, hnext, if_true, Bool.and_eq_true, decide_eq_true_eq] at hpage
            obtain ⟨⟨hne, hpre⟩, hoffset⟩ := hpage
            have hpos : 0 < page.nodes.length := List.length_pos_iff.mpr hne
            have hlen := hpre.length_le
            rw [List.length_drop] at hlen
            refine Prog.Follows.mono (ih _ page.endCursor fun hfails => ?_) fun r h' hQ hh' => ?_
            · have hless := hleft hfails
              rw [hoffset]
              omega
            · obtain ⟨hh, herr, hok⟩ := hQ hh'
              refine ⟨hh.1, herr, fun us hus => ?_⟩
              obtain ⟨hsub, hrest⟩ := hok us hus
              refine ⟨fun u hu => hsub (List.mem_append_left _ hu), fun b hb => ?_⟩
              obtain ⟨tail, htail⟩ := hpre
              rw [← htail] at hb
              rcases List.mem_append.mp hb with hb | hb
              · exact hsub (List.mem_append_right _ (List.mem_map.mpr ⟨b, hb, rfl⟩))
              · refine hrest b ?_
                rw [hoffset, ← List.drop_drop, ← htail, List.drop_left]
                exact hb
          · -- the source did not tell the truth, and nothing is claimed
            refine (follows_telling _).mono fun r h' hQ hh' => ?_
            exact absurd (hQ hh').2 htold
        · rw [if_neg hnext]
          rintro ⟨hh, htold⟩
          simp only [tells, hnext, Bool.false_eq_true, if_false, decide_eq_true_eq] at htold
          refine ⟨hh, fun e he => (nomatch he), fun us hus => ?_⟩
          cases hus
          rw [← htold]
          refine ⟨List.subset_append_left _ _, fun b hb => ?_⟩
          exact List.mem_append_right _ (List.mem_map.mpr ⟨b, hb, rfl⟩)

/-- Boards of one owner after another: none is lost, and none that was there before. -/
theorem addBoards_spec {seen : List String} {out : List SourceUnit} (ps : List SourceUnit)
    (hseen : ∀ x ∈ seen, x ∈ out.map SourceUnit.id) :
    (∀ x ∈ (GitHub.addBoards seen out ps).1,
      x ∈ (GitHub.addBoards seen out ps).2.map SourceUnit.id) ∧
    out ⊆ (GitHub.addBoards seen out ps).2 ∧
    ∀ u ∈ ps, u.id ∈ (GitHub.addBoards seen out ps).2.map SourceUnit.id := by
  induction ps generalizing seen out with
  | nil => exact ⟨hseen, List.Subset.refl _, fun u hu => nomatch hu⟩
  | cons q ps ih =>
    unfold GitHub.addBoards
    by_cases hq : q.id ∈ seen
    · rw [if_pos hq]
      obtain ⟨hnew, hout, hps⟩ := ih hseen
      refine ⟨hnew, hout, fun u hu => ?_⟩
      rcases List.mem_cons.mp hu with rfl | hu
      · exact List.map_subset _ hout (hseen _ hq)
      · exact hps u hu
    · rw [if_neg hq]
      have hseen' : ∀ x ∈ q.id :: seen, x ∈ (out ++ [q]).map SourceUnit.id := by
        intro x hx
        rw [List.map_append, List.mem_append]
        rcases List.mem_cons.mp hx with rfl | hx
        · exact Or.inr (List.mem_singleton.mpr rfl)
        · exact Or.inl (hseen x hx)
      obtain ⟨hnew, hout, hps⟩ := ih hseen'
      refine ⟨hnew, fun u hu => hout (List.mem_append_left _ hu), fun u hu => ?_⟩
      rcases List.mem_cons.mp hu with rfl | hu
      · exact List.mem_map.mpr ⟨u, hout (List.mem_append_right _ (List.mem_singleton.mpr rfl)), rfl⟩
      · exact hps u hu

/-- **The boards of every owner that can be listed are returned.** -/
theorem follows_discoverBoards (seen : List String) (out : List SourceUnit)
    (owners : List (String × String)) (hseen : ∀ x ∈ seen, x ∈ out.map SourceUnit.id) :
    (GitHub.discoverBoards p.deadline seen out owners).Follows p.telling
      (fun us h' => h' → h ∧ out ⊆ us ∧ ∀ o ∈ owners, p.fails o.1 = false →
        ∀ b ∈ p.account.boardsOf o.1, b.id ∈ us.map SourceUnit.id) h := by
  induction owners generalizing seen out h with
  | nil => exact fun hh => ⟨hh, List.Subset.refl _, fun o ho => nomatch ho⟩
  | cons o owners ih =>
    obtain ⟨login, type⟩ := o
    have hleft : p.fails login = false →
        (p.account.boardsOf login).length - p.account.offset login "" < p.deadline := by
      intro hfails
      rw [p.account.offset_empty, Nat.sub_zero]
      exact p.patient login hfails
    refine (follows_listProjects (h := h) login type [] "" p.deadline hleft).bind
      fun r h' hlisted => ?_
    cases r with
    | error e =>
      refine Prog.Follows.mono (ih seen out hseen) fun us h'' hQ hh'' => ?_
      obtain ⟨hh', hout, hrest⟩ := hQ hh''
      obtain ⟨hh, herror, -⟩ := hlisted hh'
      refine ⟨hh, hout, fun o ho hfails => ?_⟩
      rcases List.mem_cons.mp ho with rfl | ho
      · rw [herror e rfl] at hfails
        cases hfails
      · exact hrest o ho hfails
    | ok projects =>
      obtain ⟨hseen', hsub, hadded⟩ := addBoards_spec projects hseen
      refine Prog.Follows.mono (ih _ _ hseen') fun us h'' hQ hh'' => ?_
      obtain ⟨hh', hout, hrest⟩ := hQ hh''
      obtain ⟨hh, -, hboards⟩ := hlisted hh'
      refine ⟨hh, fun u hu => hout (hsub hu), fun o ho hfails b hb => ?_⟩
      rcases List.mem_cons.mp ho with rfl | ho
      · have hmem := (hboards projects rfl).2 b (by
          rw [p.account.offset_empty]
          exact hb)
        exact List.map_subset _ hout (hadded _ hmem)
      · exact hrest o ho hfails b hb

/-! ### The repositories -/

/-- What the loop over a page adds. -/
theorem foldl_addRepo (rs : List GhRepo) (c : GitHub.Catalog) :
    (rs.foldl GitHub.Catalog.addRepo c).repos = c.repos ++ rs.map GhRepo.fullName ∧
      ∀ login, login ∈ c.owners.map Prod.fst ∨
        (∃ r ∈ rs, r.ownerLogin = login ∧ login ≠ "") →
          login ∈ (rs.foldl GitHub.Catalog.addRepo c).owners.map Prod.fst := by
  induction rs generalizing c with
  | nil =>
    refine ⟨by simp, fun login hlogin => ?_⟩
    rcases hlogin with hold | ⟨r, hr, -⟩
    · exact hold
    · cases hr
  | cons r rs ih =>
    obtain ⟨hrepos, howners⟩ := ih (c.addRepo r)
    refine ⟨?_, fun login hlogin => howners login ?_⟩
    · rw [List.foldl_cons, hrepos]
      simp [GitHub.Catalog.addRepo]
    · -- an owner that is set again stays one
      have hkeep : login ∈ c.owners.map Prod.fst ∨ (r.ownerLogin = login ∧ login ≠ "") →
          login ∈ (c.addRepo r).owners.map Prod.fst := by
        intro hlogin
        unfold GitHub.Catalog.addRepo
        by_cases hempty : r.ownerLogin = ""
        · rw [if_pos hempty]
          rcases hlogin with hold | ⟨heq, hne⟩
          · exact hold
          · exact absurd (heq.symm.trans hempty) hne
        · rw [if_neg hempty]
          by_cases hsame : login = r.ownerLogin
          · simp [GitHub.setOwner, hsame]
          · rcases hlogin with hold | ⟨heq, -⟩
            · obtain ⟨o, ho, rfl⟩ := List.mem_map.mp hold
              refine List.mem_map.mpr ⟨o, List.mem_append_left _ ?_, rfl⟩
              exact List.mem_filter.mpr ⟨ho, decide_eq_true hsame⟩
            · exact absurd heq.symm hsame
      rcases hlogin with hold | ⟨r', hr', hlogin⟩
      · exact Or.inl (hkeep (Or.inl hold))
      · rcases List.mem_cons.mp hr' with rfl | hr'
        · exact Or.inl (hkeep (Or.inr hlogin))
        · exact Or.inr ⟨r', hr', hlogin⟩

/-- **The listing of the repositories** ends with its first page, which is all that there is
room for. -/
theorem follows_listRepos (via : RepoListing) :
    (GitHub.listRepos via { repos := [], owners := [] } 1 ghMaxRepos).Follows p.telling
      (fun r h' => h' → h ∧ ∀ c, r = .ok c → c.repos = p.listed.map GhRepo.fullName ∧
        ∀ r ∈ p.listed, r.ownerLogin ≠ "" → r.ownerLogin ∈ c.owners.map Prod.fst) h := by
  refine ⟨trivial, fun r => ?_⟩
  cases r with
  | error e => exact fun hh => ⟨hh.1, fun c hc => (nomatch hc)⟩
  | ok rs =>
    obtain ⟨hrepos, howners⟩ := foldl_addRepo rs { repos := [], owners := [] }
    show Prog.Follows _ _ _ (if rs.length < ghPerPage then _ else _)
    by_cases htold : p.tells (.repos via 1) (.ok rs) = true
    · have hrs : rs = p.listed := by
        have hpage : rs = (p.account.repos.drop 0).take ghPerPage := of_decide_eq_true htold
        rw [List.drop_zero] at hpage
        exact hpage
      have hdone : ∀ c, rs.foldl GitHub.Catalog.addRepo { repos := [], owners := [] } = c →
          c.repos = p.listed.map GhRepo.fullName ∧
            ∀ r ∈ p.listed, r.ownerLogin ≠ "" → r.ownerLogin ∈ c.owners.map Prod.fst := by
        rintro c rfl
        refine ⟨hrepos.trans (by rw [hrs]; rfl), fun r hr hne => ?_⟩
        exact howners _ (Or.inr ⟨r, hrs ▸ hr, rfl, hne⟩)
      by_cases hshort : rs.length < ghPerPage
      · rw [if_pos hshort]
        exact fun hh => ⟨hh.1, fun c hc => hdone c (Except.ok.inj hc)⟩
      · -- a full page is as long as the cap
        rw [if_neg hshort]
        have hfull : ¬ (rs.foldl GitHub.Catalog.addRepo
            { repos := [], owners := [] }).repos.length < ghMaxRepos := by
          rw [hrepos, List.nil_append, List.length_map]
          exact hshort
        show Prog.Follows _ _ _ (if _ then _ else _)
        rw [if_neg hfull]
        exact fun hh => ⟨hh.1, fun c hc => hdone c (Except.ok.inj hc)⟩
    · refine (follows_telling _).mono fun r h' hQ hh' => ?_
      exact absurd (hQ hh').2 htold

/-- No repository is lost when each is taken once, up to the cap. -/
theorem mem_repoUnits {repos : List String} (hlen : repos.length ≤ ghMaxRepos) {x : String}
    (hx : x ∈ repos) : x ∈ (GitHub.repoUnits repos).map SourceUnit.id := by
  have hdedup : (repos.reverse.dedup.reverse.map GitHub.repoUnit).length ≤ ghMaxRepos := by
    rw [List.length_map, List.length_reverse]
    have hsub := (List.dedup_sublist repos.reverse).length_le
    rw [List.length_reverse] at hsub
    omega
  unfold GitHub.repoUnits
  rw [List.take_of_length_le hdedup]
  refine List.mem_map.mpr ⟨GitHub.repoUnit x, List.mem_map.mpr ⟨x, ?_, rfl⟩, rfl⟩
  rw [List.mem_reverse, List.mem_dedup, List.mem_reverse]
  exact hx

/-- **A discovery that succeeds returns everything it is shown.** -/
theorem follows_discoverUnitsVia (p : Pass) (via : RepoListing) :
    (GitHub.discoverUnitsVia via p.deadline p.order).Follows p.telling
      (fun r h' => h' → h ∧ ∀ us, r = .ok us → ∀ x, p.reaches x = true →
        x ∈ us.map SourceUnit.id) h := by
  refine (follows_listRepos (h := h) via).bind fun r h' hlisted => ?_
  cases r with
  | error e => exact fun hh' => ⟨(hlisted hh').1, fun us hus => (nomatch hus)⟩
  | ok c =>
    refine (follows_discoverBoards (h := h') [] (GitHub.repoUnits c.repos) (p.order c.owners)
      fun x hx => (nomatch hx)).bind fun us h'' hboards hh'' => ?_
    obtain ⟨hh', hout, hboards⟩ := hboards hh''
    obtain ⟨hh, hcatalog⟩ := hlisted hh'
    obtain ⟨hrepos, howners⟩ := hcatalog c rfl
    refine ⟨hh, fun us' hus x hx => ?_⟩
    cases hus
    rw [reaches, Bool.or_eq_true, List.any_eq_true, List.any_eq_true] at hx
    rcases hx with ⟨r, hr, hname⟩ | ⟨r, hr, hboard⟩
    · refine List.map_subset _ hout (mem_repoUnits ?_ ?_)
      · rw [hrepos, List.length_map]
        exact List.length_take_le _ _
      · rw [hrepos]
        exact List.mem_map.mpr ⟨r, hr, of_decide_eq_true hname⟩
    · simp only [Bool.and_eq_true, decide_eq_true_eq, Bool.not_eq_true', List.any_eq_true] at hboard
      obtain ⟨⟨hlogin, hfails⟩, b, hb, hid⟩ := hboard
      obtain ⟨o, ho, hsame⟩ := List.mem_map.mp (howners r hr hlogin)
      have horder : o ∈ p.order c.owners := (p.perm c.owners).mem_iff.mpr ho
      rw [← hid]
      rw [← hsame] at hfails hb
      exact hboards o horder hfails b hb

end Pass

end Connectors
end Hivebook
