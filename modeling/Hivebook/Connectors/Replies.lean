import Hivebook.Connectors.Fold
import Hivebook.Connectors.GoogleDocs
import Hivebook.Lib.Feed
import Hivebook.Storage
import Mathlib.Algebra.GroupWithZero.Nat
import Mathlib.Order.MinMax

/-!
# The requests of a call

A source may answer with anything: pages of any size, that are never the last, with cursors and
tokens that are empty or come again.  A call is fed a stream of HTTP replies, and its context and
its emits are answered in any way.

The loops of a drain and of the estimates are capped, so that the number of requests is bounded by
the caps and by the pages that were listed.  The comments of a page are fetched side by side in the
source; the bound holds for each worker by itself, in whatever order they get their replies.

## Main definitions

* `GitHub.estimateTotals` — the estimates, in batches.
* `HttpReply` — what a reply decodes to.
* `fetchFeed`, `syncFeed`, `totalsFeed` — a call is fed the replies.

## Main results

* `GitHub.used_syncUnit`, `GoogleDocs.used_syncUnit`, `GitHub.asksAtMost_estimateTotals` — **how
  many requests a drain and the estimates make.**
-/

namespace Hivebook
namespace Connectors

/-! ### The estimates -/

/-- `ghEstimateBatchSize`. -/
def ghEstimateBatchSize : ℕ := 25

/-- A GraphQL query for totals, its nodes each under an alias. -/
inductive TotalsQuery where
  /-- The issues of repositories, by owner and name. -/
  | repos (nodes : List (String × String × String))
  /-- The items of boards, by id. -/
  | projects (nodes : List (String × String))
  deriving DecidableEq, Repr

/-- A program that asks for totals; a reply has one under an alias, or `null`. -/
abbrev TotalsProg (α : Type) :=
  Prog TotalsQuery (fun _ => Except Err (String → Option ℤ)) α

/-- `out[id] = n`. -/
def setTotal (id : String) (n : ℤ) (out : List (String × ℤ)) : List (String × ℤ) :=
  (out.filter fun e => decide (e.1 ≠ id)) ++ [(id, n)]

/-- The totals of a batch: those of the units whose alias has one. -/
def setTotals (resp : String → Option ℤ) (out : List (String × ℤ)) :
    List (String × String) → List (String × ℤ)
  | [] => out
  | (label, id) :: units =>
      match resp label with
      | none => setTotals resp out units
      | some n => setTotals resp (setTotal id n out) units

namespace GitHub

/-- The units of a batch that are `owner/name`, each with its alias, owner and name. -/
def repoNodes (batch : List SourceUnit) : List (String × SourceUnit × String × String) :=
  batch.zipIdx.filterMap fun p =>
    (Storage.cut p.1.id).map fun name => ("r" ++ toString p.2, p.1, name.1, name.2)

/-- `estimateRepoTotals`, so many batches of it: a batch without a valid unit is not asked for, and
one that fails is skipped. -/
def estimateRepoTotals (out : List (String × ℤ)) :
    (batches : ℕ) → List SourceUnit → TotalsProg (List (String × ℤ))
  | 0, _ => return out
  | batches + 1, repos => do
      let nodes := repoNodes (repos.take ghEstimateBatchSize)
      if nodes = [] then estimateRepoTotals out batches (repos.drop ghEstimateBatchSize)
      else
        match ← Prog.issue (TotalsQuery.repos (nodes.map fun x => (x.1, x.2.2.1, x.2.2.2))) with
        | .error _ => estimateRepoTotals out batches (repos.drop ghEstimateBatchSize)
        | .ok resp =>
            estimateRepoTotals (setTotals resp out (nodes.map fun x => (x.1, x.2.1.id))) batches
              (repos.drop ghEstimateBatchSize)

/-- The units of a batch, each with its alias. -/
def projectNodes (batch : List SourceUnit) : List (String × String) :=
  batch.zipIdx.map fun p => ("p" ++ toString p.2, p.1.id)

/-- `estimateProjectTotals`, so many batches of it. -/
def estimateProjectTotals (out : List (String × ℤ)) :
    (batches : ℕ) → List SourceUnit → TotalsProg (List (String × ℤ))
  | 0, _ => return out
  | batches + 1, projects => do
      let nodes := projectNodes (projects.take ghEstimateBatchSize)
      match ← Prog.issue (TotalsQuery.projects nodes) with
      | .error _ => estimateProjectTotals out batches (projects.drop ghEstimateBatchSize)
      | .ok resp =>
          estimateProjectTotals (setTotals resp out nodes) batches
            (projects.drop ghEstimateBatchSize)

/-- The number of batches of so many units. -/
def batchCount (units : List SourceUnit) : ℕ :=
  (units.length + (ghEstimateBatchSize - 1)) / ghEstimateBatchSize

/-- `GitHub.EstimateTotals`, and `GitHubPAT`'s: they share it. -/
def estimateTotals (units : List SourceUnit) : TotalsProg (Except Err (List (String × ℤ))) := do
  let repos := units.filter fun u => decide (u.kind = "github_repo")
  let projects := units.filter fun u => decide (u.kind = "github_project")
  let out ← estimateRepoTotals [] (batchCount repos) repos
  let out ← estimateProjectTotals out (batchCount projects) projects
  return .ok out

end GitHub

/-! ### Replies -/

/-- A reply of a source: what it decodes to depends on the request it answers.  It has a finite
body, and the answers to the queries for boards decode alike. -/
structure HttpReply where
  decode : (q : Request) → Except Err q.Reply
  totals : TotalsQuery → Except Err (String → Option ℤ)
  /-- The length of its body. -/
  length : ℕ
  issues_le : ∀ {repo perPage page since raws},
    decode (.issues repo perPage page since) = .ok raws → raws.length ≤ length
  files_le : ∀ {since pageSize token resp},
    decode (.driveFiles since pageSize token) = .ok resp → resp.files.length ≤ length
  projects_eq : ∀ organization login cursor,
    decode (.projects organization login cursor) = decode (.projects false "" "")

/-- A reply that ends the listing of the boards of an account: an error, no such account, or the
last page. -/
def HttpReply.endsBoards (r : HttpReply) : Bool :=
  match r.decode (.projects false "" "") with
  | .ok (some page) => !page.hasNextPage
  | _ => true

/-- A request, among the commands of a discovery. -/
def FetchCmd.asks : FetchCmd → Bool
  | .request _ => true
  | .ctxErr => false

/-- A request, among the commands of a drain. -/
def SyncCmd.asks : SyncCmd → Bool
  | .fetch c => c.asks
  | .emit _ => false

/-- A discovery is fed the replies. -/
def fetchFeed (replies : ℕ → HttpReply) (others : ℕ → (c : FetchCmd) → c.Resp) :
    Feed FetchCmd FetchCmd.Resp where
  asks := FetchCmd.asks
  reply n
    | .request q => (replies n).decode q
    | .ctxErr => others n .ctxErr
  other := others

/-- A drain is fed the replies, and its context and its emits are answered in some way. -/
def syncFeed (replies : ℕ → HttpReply) (others : ℕ → (c : SyncCmd) → c.Resp) :
    Feed SyncCmd SyncCmd.Resp where
  asks := SyncCmd.asks
  reply n
    | .fetch (.request q) => (replies n).decode q
    | c => others n c
  other := others

/-- The estimates are fed the replies. -/
def totalsFeed (replies : ℕ → HttpReply) :
    Feed TotalsQuery fun _ => Except Err (String → Option ℤ) where
  asks _ := true
  reply n q := (replies n).totals q
  other n q := (replies n).totals q

/-! ### The requests of a drain -/

theorem asksAtMost_ctxErr_bind {α : Type} {f : Bool → SyncProg α} {n : ℕ}
    (h : ∀ b, (f b).AsksAtMost SyncCmd.asks n) :
    (ctxErr >>= f).AsksAtMost SyncCmd.asks n :=
  Prog.asksAtMost_other rfl h

namespace GitHub

variable {g : GitHub}

theorem asksAtMost_fetchComments (repo : String) (number : ℕ) (out : List Bytes)
    (page remaining : ℕ) :
    (g.fetchComments repo number out page remaining).AsksAtMost SyncCmd.asks remaining := by
  induction remaining generalizing out page with
  | zero => exact Prog.asksAtMost_pure _ _
  | succ n ih =>
    refine asksAtMost_ctxErr_bind fun b => ?_
    cases b with
    | true => exact Prog.asksAtMost_pure _ _
    | false =>
      refine Prog.asksAtMost_request rfl fun r => ?_
      cases r with
      | error e => exact Prog.asksAtMost_pure _ _
      | ok items =>
        exact Prog.AsksAtMost.ite (Prog.asksAtMost_pure _ _) (ih _ _)

/-- **A worker makes at most `ghMaxCommentPages` requests**, whatever it is answered. -/
theorem asksAtMost_issueArtifact (repo : String) (raw : Bytes) (iss : GhIssue) :
    (g.issueArtifact repo raw iss).AsksAtMost SyncCmd.asks ghMaxCommentPages := by
  unfold issueArtifact
  split
  · exact Prog.asksAtMost_pure _ _
  · refine (asksAtMost_fetchComments repo iss.number [] 1 ghMaxCommentPages).bind_quiet
      fun r => ?_
    obtain ⟨comments, failure⟩ := r
    cases failure with
    | none => exact Prog.asksAtMost_pure _ _
    | some e =>
      refine asksAtMost_ctxErr_bind fun b => ?_
      cases b with
      | true => exact Prog.asksAtMost_pure _ _
      | false =>
        rw [if_neg Bool.false_ne_true]
        cases e with
        | auth n => exact Prog.asksAtMost_pure _ _
        | rateLimit d => exact Prog.asksAtMost_pure _ _
        | _ =>
          refine Prog.AsksAtMost.ite ?_ ?_
          · exact Prog.asksAtMost_pure _ _
          · exact Prog.asksAtMost_pure _ _

theorem asksAtMost_foldItems (unit : SourceUnit) (items : List (Bytes × GhIssue)) :
    (g.foldItems unit items).AsksAtMost SyncCmd.asks (items.length * ghMaxCommentPages) := by
  induction items with
  | nil => exact Prog.asksAtMost_pure _ _
  | cons it items ih =>
    rw [List.length_cons, Nat.succ_mul, Nat.add_comm]
    refine (asksAtMost_issueArtifact unit.id it.1 it.2).bind fun r => ?_
    cases r with
    | error e => exact Prog.asksAtMost_pure _ _
    | ok doc =>
      refine ih.bind_quiet fun r => ?_
      cases r <;> exact Prog.asksAtMost_pure _ _

theorem asksAtMost_foldIssuePage (unit : SourceUnit) (raws : List RawIssue) :
    (g.foldIssuePage unit raws).AsksAtMost SyncCmd.asks (raws.length * ghMaxCommentPages) := by
  unfold foldIssuePage
  cases hdecode : decodePage raws with
  | error e => exact Prog.asksAtMost_pure _ _
  | ok items =>
    obtain ⟨-, rfl⟩ := pageIssues_of_decodePage hdecode
    have hle : (pageIssues raws).length ≤ raws.length := List.length_filterMap_le _ _
    refine Prog.AsksAtMost.mono ?_ (Nat.mul_le_mul_right ghMaxCommentPages hle)
    refine (asksAtMost_foldItems unit (pageIssues raws)).bind_quiet fun r => ?_
    cases r with
    | error e => exact Prog.asksAtMost_pure _ _
    | ok arts =>
      refine asksAtMost_ctxErr_bind fun b => ?_
      cases b <;> exact Prog.asksAtMost_pure _ _

theorem asksAtMost_emitPage (newPos : String) (arts : List Artifact) :
    (emitPage newPos arts).AsksAtMost SyncCmd.asks 0 := by
  induction arts generalizing newPos with
  | nil => exact Prog.asksAtMost_pure _ _
  | cons art arts ih =>
    refine Prog.asksAtMost_other rfl fun r => ?_
    cases r with
    | error e => exact Prog.asksAtMost_pure _ _
    | ok _ => exact ih _

theorem asksAtMost_emitItems (unit : SourceUnit) (nodes : List ProjectItem) :
    (emitItems unit nodes).AsksAtMost SyncCmd.asks 0 := by
  induction nodes with
  | nil => exact Prog.asksAtMost_pure _ _
  | cons node nodes ih =>
    unfold emitItems
    cases node.item with
    | none => exact Prog.asksAtMost_pure _ _
    | some item =>
      refine Prog.asksAtMost_other rfl fun r => ?_
      cases r with
      | error e => exact Prog.asksAtMost_pure _ _
      | ok _ => exact ih

/-- **A drain of a board makes a request for each of its pages**, up to the cap. -/
theorem asksAtMost_syncBoardPages (unit : SourceUnit) (gqlCursor : String) (remaining : ℕ) :
    (syncBoardPages unit gqlCursor remaining).AsksAtMost SyncCmd.asks remaining := by
  induction remaining generalizing gqlCursor with
  | zero => exact Prog.asksAtMost_pure _ _
  | succ n ih =>
    refine asksAtMost_ctxErr_bind fun b => ?_
    cases b with
    | true => exact Prog.asksAtMost_pure _ _
    | false =>
      refine Prog.asksAtMost_request rfl fun r => ?_
      cases r with
      | error e => exact Prog.asksAtMost_pure _ _
      | ok page =>
        refine (asksAtMost_emitItems unit page.nodes).quiet_bind fun r => ?_
        cases r with
        | error e => exact Prog.asksAtMost_pure _ _
        | ok _ => exact Prog.AsksAtMost.ite (ih _) (Prog.asksAtMost_pure _ _)

/-- What follows a page that was folded: no more requests, or the next pages. -/
theorem used_afterFold {F : Feed SyncCmd SyncCmd.Resp} (hF : F.asks = SyncCmd.asks)
    (unit : SourceUnit) (cursor newPos : String) (page remaining : ℕ) (raws : List RawIssue)
    (r : Except Err (List Artifact)) (u : Used) :
    (F.run (g.afterFold unit cursor newPos page remaining raws r) u).2.replies ≤ u.replies ∨
      ∃ newPos' u', u'.replies ≤ u.replies ∧
        (F.run (g.afterFold unit cursor newPos page remaining raws r) u).2 =
          (F.run (g.syncPages unit cursor newPos' (page + 1) remaining) u').2 := by
  cases r with
  | error e =>
    have hquiet : (g.afterFold unit cursor newPos page remaining raws (.error e)).AsksAtMost
        F.asks 0 := by
      rw [hF]
      refine asksAtMost_ctxErr_bind fun b => ?_
      cases b <;> exact Prog.asksAtMost_pure _ _
    exact .inl (Feed.used_le hquiet u)
  | ok arts =>
    have hemit : (emitPage newPos arts).AsksAtMost F.asks 0 := by
      rw [hF]
      exact asksAtMost_emitPage newPos arts
    unfold afterFold
    dsimp only
    rw [Prog.bind_eq, Feed.run_bind]
    have hle := Feed.used_le hemit u
    rw [Nat.add_zero] at hle
    generalize F.run (emitPage newPos arts) u = res at hle ⊢
    obtain ⟨r, u'⟩ := res
    cases r with
    | error e => exact .inl hle
    | ok newPos' =>
      dsimp only
      split
      · exact .inl hle
      · split
        · exact .inl hle
        · exact .inr ⟨newPos', u', hle, rfl⟩

/-- **A drain of a repository** lists no more pages than its cap, and makes besides at most
`ghMaxCommentPages` requests for each element of a page. -/
theorem used_syncPages (replies : ℕ → HttpReply) (others : ℕ → (c : SyncCmd) → c.Resp)
    (unit : SourceUnit) (cursor newPos : String) (page remaining : ℕ) (u : Used) :
    ∃ pages : List ℕ, pages.length ≤ remaining ∧
      ((syncFeed replies others).run (g.syncPages unit cursor newPos page remaining) u).2.replies ≤
        u.replies + (pages.map fun i => 1 + (replies i).length * ghMaxCommentPages).sum := by
  induction remaining generalizing newPos page u with
  | zero => exact ⟨[], le_rfl, le_rfl⟩
  | succ n ih =>
    rw [syncPages_succ]
    show ∃ pages : List ℕ, pages.length ≤ n + 1 ∧ (Feed.run _ (if others u.others (.fetch .ctxErr) =
      true then _ else _) { u with others := u.others + 1 }).2.replies ≤ _
    by_cases hcancelled : others u.others (.fetch .ctxErr) = true
    · rw [if_pos hcancelled]
      exact ⟨[], Nat.zero_le _, le_rfl⟩
    · rw [if_neg hcancelled, Prog.bind_eq, request, Feed.run_request_bind rfl]
      have hreply : (syncFeed replies others).reply u.replies
          (.fetch (.request (.issues unit.id g.pageSize page cursor))) =
            (replies u.replies).decode (.issues unit.id g.pageSize page cursor) := rfl
      dsimp only
      rw [hreply]
      cases hraws : (replies u.replies).decode (.issues unit.id g.pageSize page cursor) with
      | error e =>
        refine ⟨[u.replies], by simp, ?_⟩
        show u.replies + 1 ≤ _
        rw [List.map_singleton, List.sum_singleton]
        omega
      | ok raws =>
        have hlength : raws.length ≤ (replies u.replies).length :=
          (replies u.replies).issues_le hraws
        have hcost := Nat.mul_le_mul_right ghMaxCommentPages hlength
        dsimp only
        rw [Prog.bind_eq, Feed.run_bind]
        have hfold := Feed.used_le (F := syncFeed replies others)
          (asksAtMost_foldIssuePage (g := g) unit raws)
          { u with replies := u.replies + 1, others := u.others + 1 }
        generalize Feed.run _ (g.foldIssuePage unit raws) _ = res at hfold ⊢
        obtain ⟨r, u'⟩ := res
        dsimp only at hfold ⊢
        rcases used_afterFold (F := syncFeed replies others) rfl unit cursor newPos page n raws r
          u' with hend | ⟨newPos', u'', hle, hnext⟩
        · refine ⟨[u.replies], by simp, hend.trans ?_⟩
          rw [List.map_singleton, List.sum_singleton]
          omega
        · obtain ⟨pages, hpages, hused⟩ := ih newPos' (page + 1) u''
          refine ⟨u.replies :: pages, by simpa using hpages, ?_⟩
          rw [hnext, List.map_cons, List.sum_cons]
          omega

/-- A drain of a unit of the GitHub connector. -/
theorem used_syncUnit (replies : ℕ → HttpReply) (others : ℕ → (c : SyncCmd) → c.Resp)
    (g : GitHub) (unit : SourceUnit) (cursor : String) :
    ∃ pages : List ℕ, pages.length ≤ g.hardCap ∧
      ((syncFeed replies others).run (g.syncUnit unit cursor) ⟨0, 0⟩).2.replies ≤
        (pages.map fun i => 1 + (replies i).length * ghMaxCommentPages).sum := by
  unfold syncUnit
  split
  · -- a board has fewer pages than the cap of a repository
    refine ⟨List.replicate ghMaxPagesPerRepo 0, ?_, ?_⟩
    · rw [List.length_replicate]
      exact le_max_of_le_right (by decide)
    · have hboard := Feed.used_le (F := syncFeed replies others)
        (asksAtMost_syncBoardPages unit "" ghMaxPagesPerRepo) ⟨0, 0⟩
      rw [List.map_replicate, List.sum_replicate_nat]
      refine hboard.trans ?_
      rw [Nat.zero_add]
      exact Nat.le_mul_of_pos_right _ (by omega)
  · obtain ⟨pages, hpages, hused⟩ :=
      used_syncPages (g := g) replies others unit cursor cursor 1 g.hardCap ⟨0, 0⟩
    rw [Nat.zero_add] at hused
    exact ⟨pages, hpages, hused⟩

end GitHub

namespace GoogleDocs

variable {g : GoogleDocs}

theorem asksAtMost_emitFiles (newPos : String) (files : List DriveFile) :
    (emitFiles newPos files).AsksAtMost SyncCmd.asks files.length := by
  induction files generalizing newPos with
  | nil => exact Prog.asksAtMost_pure _ _
  | cons f fs ih =>
    refine asksAtMost_ctxErr_bind fun b => ?_
    cases b with
    | true => exact Prog.asksAtMost_pure _ _
    | false =>
      refine Prog.asksAtMost_request rfl fun r => ?_
      cases r with
      | error e => exact Prog.asksAtMost_pure _ _
      | ok raw =>
        refine Prog.asksAtMost_other rfl fun r => ?_
        cases r with
        | error e => exact Prog.asksAtMost_pure _ _
        | ok _ => exact ih _

/-- **A drain of a Drive** lists no more pages than its cap, and makes besides one request for each
file of a page. -/
theorem used_syncPages (replies : ℕ → HttpReply) (others : ℕ → (c : SyncCmd) → c.Resp)
    (cursor newPos token : String) (page remaining : ℕ) (u : Used) :
    ∃ pages : List ℕ, pages.length ≤ remaining ∧
      ((syncFeed replies others).run
          (g.syncPages cursor newPos token page remaining) u).2.replies ≤
        u.replies + (pages.map fun i => 1 + (replies i).length).sum := by
  induction remaining generalizing newPos token page u with
  | zero => exact ⟨[], le_rfl, le_rfl⟩
  | succ n ih =>
    unfold syncPages
    show ∃ pages : List ℕ, pages.length ≤ n + 1 ∧ (Feed.run _ (if others u.others (.fetch .ctxErr) =
      true then _ else _) { u with others := u.others + 1 }).2.replies ≤ _
    by_cases hcancelled : others u.others (.fetch .ctxErr) = true
    · rw [if_pos hcancelled]
      exact ⟨[], Nat.zero_le _, le_rfl⟩
    · rw [if_neg hcancelled, Prog.bind_eq, request, Feed.run_request_bind rfl]
      have hreply : (syncFeed replies others).reply u.replies
          (.fetch (.request (.driveFiles cursor g.pageSize token))) =
            (replies u.replies).decode (.driveFiles cursor g.pageSize token) := rfl
      have hone : u.replies + 1 ≤
          u.replies + ([u.replies].map fun i => 1 + (replies i).length).sum := by
        rw [List.map_singleton, List.sum_singleton]
        omega
      dsimp only
      rw [hreply]
      cases hresp : (replies u.replies).decode (.driveFiles cursor g.pageSize token) with
      | error e => exact ⟨[u.replies], by simp, hone⟩
      | ok resp =>
        have hlength : resp.files.length ≤ (replies u.replies).length :=
          (replies u.replies).files_le hresp
        dsimp only
        rw [Prog.bind_eq, Feed.run_bind]
        have hemit := Feed.used_le (F := syncFeed replies others)
          (asksAtMost_emitFiles newPos resp.files)
          { u with replies := u.replies + 1, others := u.others + 1 }
        generalize Feed.run _ (emitFiles newPos resp.files) _ = res at hemit ⊢
        obtain ⟨fin, u'⟩ := res
        have hend : u'.replies ≤
            u.replies + ([u.replies].map fun i => 1 + (replies i).length).sum := by
          rw [List.map_singleton, List.sum_singleton]
          dsimp only at hemit
          omega
        cases fin with
        | stopped => exact ⟨[u.replies], by simp, hend⟩
        | failed e => exact ⟨[u.replies], by simp, hend⟩
        | drained newPos' =>
          dsimp only
          split
          · exact ⟨[u.replies], by simp, hend⟩
          · split
            · exact ⟨[u.replies], by simp, hend⟩
            · obtain ⟨pages, hpages, hused⟩ := ih newPos' resp.nextPageToken (page + 1) u'
              refine ⟨u.replies :: pages, by simpa using hpages, ?_⟩
              rw [List.map_cons, List.sum_cons]
              rw [List.map_singleton, List.sum_singleton] at hend
              omega

theorem used_syncUnit (replies : ℕ → HttpReply) (others : ℕ → (c : SyncCmd) → c.Resp)
    (g : GoogleDocs) (unit : SourceUnit) (cursor : String) :
    ∃ pages : List ℕ, pages.length ≤ g.hardCap ∧
      ((syncFeed replies others).run (g.syncUnit unit cursor) ⟨0, 0⟩).2.replies ≤
        (pages.map fun i => 1 + (replies i).length).sum := by
  obtain ⟨pages, hpages, hused⟩ :=
    used_syncPages (g := g) replies others cursor cursor "" 1 g.hardCap ⟨0, 0⟩
  rw [Nat.zero_add] at hused
  exact ⟨pages, hpages, hused⟩

end GoogleDocs

/-! ### The requests of the estimates -/

namespace GitHub

theorem asksAtMost_estimateRepoTotals (out : List (String × ℤ)) (batches : ℕ)
    (repos : List SourceUnit) :
    (estimateRepoTotals out batches repos).AsksAtMost (fun _ => true) batches := by
  induction batches generalizing out repos with
  | zero => exact Prog.asksAtMost_pure _ _
  | succ n ih =>
    unfold estimateRepoTotals
    refine Prog.AsksAtMost.ite ((ih _ _).mono (Nat.le_succ n)) ?_
    refine Prog.asksAtMost_request rfl fun r => ?_
    cases r with
    | error e => exact ih _ _
    | ok resp => exact ih _ _

theorem asksAtMost_estimateProjectTotals (out : List (String × ℤ)) (batches : ℕ)
    (projects : List SourceUnit) :
    (estimateProjectTotals out batches projects).AsksAtMost (fun _ => true) batches := by
  induction batches generalizing out projects with
  | zero => exact Prog.asksAtMost_pure _ _
  | succ n ih =>
    refine Prog.asksAtMost_request rfl fun r => ?_
    cases r with
    | error e => exact ih _ _
    | ok resp => exact ih _ _

/-- **The estimates make a request for each batch**, at most. -/
theorem asksAtMost_estimateTotals (units : List SourceUnit) :
    (estimateTotals units).AsksAtMost (fun _ => true)
      (batchCount (units.filter fun u => decide (u.kind = "github_repo")) +
        batchCount (units.filter fun u => decide (u.kind = "github_project"))) := by
  refine (asksAtMost_estimateRepoTotals _ _ _).bind fun out => ?_
  exact (asksAtMost_estimateProjectTotals _ _ _).bind_quiet fun out => Prog.asksAtMost_pure _ _

end GitHub

end Connectors
end Hivebook
