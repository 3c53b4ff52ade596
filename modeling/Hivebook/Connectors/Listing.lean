import Hivebook.Connectors.GitHub
import Hivebook.Connectors.GoogleDocs
import Hivebook.Lib.Protocol

/-!
# Static sources, and the order of a drain

A repository or a Drive whose items do not change answers its listing page by page:
the items updated at or after the cursor, in the order of their update times.  A board
has no cursor and is listed whole.  Against such a source a drain emits the items of the
listing one after the other, each only after every earlier one was emitted, and it
reports the stream as drained only when it has emitted them all.

Nothing is assumed of the other answers: a request may fail at any time, and the
comments of an issue and the exported bytes of a document may be anything.

## Main definitions

* `Item` — what a listing says of an item.
* `Repo`, `Drive`, `Board`, `Site` — the static sources; `Site.listing` — the items from a
  cursor on; `Site.answers` — what they answer.
* `inOrder` — the protocol of a drain.

## Main results

* `Site.follows` — **the connectors drain in order.**
-/

namespace Hivebook
namespace Connectors

/-- An item of a source: the id of its artifact, and its last update; the items of a board
have none. -/
structure Item where
  externalID : String
  updatedAt : String
  deriving DecidableEq, Repr

/-- The item an artifact is of. -/
def Artifact.item (art : Artifact) : Item := ⟨art.externalID, art.cursor⟩

/-! ### Static sources -/

/-- A repository whose issues and pull requests do not change. -/
structure Repo where
  name : String
  /-- The raw JSON of every issue, and what it decodes to. -/
  issues : List (Bytes × GhIssue)
  ascending : issues.Pairwise fun a b => a.2.updatedAt ≤ b.2.updatedAt

namespace Repo

/-- The issues updated at or after the cursor. -/
def since (r : Repo) (cursor : String) : List (Bytes × GhIssue) :=
  r.issues.filter fun x => decide (cursor ≤ x.2.updatedAt)

/-- The items of a list of issues, without the pull requests. -/
def items (name : String) (l : List (Bytes × GhIssue)) : List Item :=
  (l.filter fun x => !x.2.pullRequest).map fun x =>
    ⟨name ++ "#" ++ toString x.2.number, x.2.updatedAt⟩

/-- A page of the listing, by its number. -/
def page (r : Repo) (cursor : String) (perPage page : ℕ) : List RawIssue :=
  (((r.since cursor).drop ((page - 1) * perPage)).take perPage).map fun x =>
    { raw := x.1, issue := some x.2 }

/-- What the repository answers: its pages, and anything to other requests. -/
def answers (r : Repo) : (q : Request) → q.Reply → Prop
  | .issues repo perPage page cursor, raws => repo = r.name → raws = r.page cursor perPage page
  | _, _ => True

end Repo

/-- A Drive whose documents do not change. -/
structure Drive where
  files : List DriveFile
  ascending : files.Pairwise fun a b => a.modifiedTime ≤ b.modifiedTime
  /-- How many files of the listing from a cursor precede the page of a token. -/
  offset : String → String → ℕ
  /-- Without a token the listing starts at its first page. -/
  offset_empty : ∀ cursor, offset cursor "" = 0

namespace Drive

/-- The documents modified at or after the cursor. -/
def since (d : Drive) (cursor : String) : List DriveFile :=
  d.files.filter fun f => decide (cursor ≤ f.modifiedTime)

/-- The items of a list of documents. -/
def items (l : List DriveFile) : List Item := l.map fun f => ⟨f.id, f.modifiedTime⟩

/-- What the Drive answers: pages of any length, each with a token for the next one
or, if it is the last, without. -/
def answers (d : Drive) : (q : Request) → q.Reply → Prop
  | .driveFiles cursor _ token, resp =>
      let left := (d.since cursor).drop (d.offset cursor token)
      if resp.nextPageToken = "" then resp.files = left
      else resp.files <+: left ∧
        d.offset cursor resp.nextPageToken = d.offset cursor token + resp.files.length
  | _, _ => True

end Drive

/-- A board whose items do not change. -/
structure Board where
  id : String
  /-- The raw JSON of every item, and what it decodes to. -/
  nodes : List (Bytes × GhItem)
  /-- How many items precede the page of a cursor. -/
  offset : String → ℕ
  /-- Without a cursor the listing starts at its first page. -/
  offset_empty : offset "" = 0

namespace Board

/-- The items of a list of nodes. -/
def items (l : List (Bytes × GhItem)) : List Item := l.map fun x => ⟨x.2.id, ""⟩

/-- A node as it is served. -/
def node (x : Bytes × GhItem) : ProjectItem := { raw := x.1, item := some x.2 }

/-- What the board answers: pages of any length, each with the cursor of the next one
unless it is the last. -/
def answers (d : Board) : (q : Request) → q.Reply → Prop
  | .projectItems board cursor, page => board = d.id →
      let left := d.nodes.drop (d.offset cursor)
      if page.hasNextPage then ∃ xs, page.nodes = xs.map node ∧ xs <+: left ∧
        d.offset page.endCursor = d.offset cursor + xs.length
      else page.nodes = left.map node
  | _, _ => True

end Board

/-- A static source and the connector that drains it. -/
inductive Site where
  | repo (g : GitHub) (r : Repo)
  | drive (g : GoogleDocs) (d : Drive)
  | board (g : GitHub) (d : Board)

namespace Site

/-- The drain of the source. -/
def syncUnit : Site → SourceUnit → String → SyncProg (Except Err Bool)
  | .repo g _ => g.syncUnit
  | .drive g _ => g.syncUnit
  | .board g _ => g.syncUnit

/-- The items of the source that make artifacts. -/
def items : Site → List Item
  | .repo _ r => Repo.items r.name r.issues
  | .drive _ d => Drive.items d.files
  | .board _ d => Board.items d.nodes

/-- The items from a cursor on, in the order they are listed. -/
def listing : Site → String → List Item
  | .repo _ r, cursor => Repo.items r.name (r.since cursor)
  | .drive _ d, cursor => Drive.items (d.since cursor)
  | .board _ d, _ => Board.items d.nodes

/-- What the source answers. -/
def answers : Site → (q : Request) → q.Reply → Prop
  | .repo _ r => r.answers
  | .drive _ d => d.answers
  | .board _ d => d.answers

/-- The unit is this source: a repository by its name, and a board by its id. -/
def fits : Site → SourceUnit → Prop
  | .repo _ r, u => u.id = r.name ∧ u.kind ≠ "github_project"
  | .drive _ _, _ => True
  | .board _ d, u => u.id = d.id ∧ u.kind = "github_project"

/-- What is listed from a cursor on. -/
theorem mem_listing {site : Site} {cursor : String} {e : Item} (he : e ∈ site.items)
    (hcursor : cursor ≤ e.updatedAt) : e ∈ site.listing cursor := by
  cases site with
  | repo g r =>
    simp only [items, listing, Repo.items, Repo.since, List.mem_map, List.mem_filter,
      decide_eq_true_eq] at he ⊢
    obtain ⟨x, ⟨hx, hpr⟩, rfl⟩ := he
    exact ⟨x, ⟨⟨hx, hcursor⟩, hpr⟩, rfl⟩
  | drive g d =>
    simp only [items, listing, Drive.items, Drive.since, List.mem_map, List.mem_filter,
      decide_eq_true_eq] at he ⊢
    obtain ⟨x, hx, rfl⟩ := he
    exact ⟨x, ⟨hx, hcursor⟩, rfl⟩
  | board g d => exact he

/-- A listing is in the order of the update times. -/
theorem listing_ascending (site : Site) (cursor : String) :
    (site.listing cursor).Pairwise fun a b => a.updatedAt ≤ b.updatedAt := by
  cases site with
  | repo g r =>
    rw [listing, Repo.items, List.pairwise_map]
    exact (r.ascending.filter _).filter _
  | drive g d =>
    rw [listing, Drive.items, List.pairwise_map]
    exact d.ascending.filter _
  | board g d =>
    rw [listing, Board.items, List.pairwise_map]
    exact List.pairwise_of_forall fun _ _ => String.le_refl _

/-- **What precedes an item of the listing**: every item from the cursor on that was
updated before it. -/
theorem mem_of_lt {site : Site} {cursor : String} {before tail : List Item} {e e' : Item}
    (h : site.listing cursor = before ++ e :: tail) (he' : e' ∈ site.items)
    (hcursor : cursor ≤ e'.updatedAt) (hlt : e'.updatedAt < e.updatedAt) : e' ∈ before := by
  have hmem : e' ∈ before ++ e :: tail := by
    rw [← h]
    exact mem_listing he' hcursor
  have hsorted := site.listing_ascending cursor
  rw [h] at hsorted
  rcases List.mem_append.mp hmem with hmem | hmem
  · exact hmem
  · -- what comes later was updated no earlier
    rcases List.mem_cons.mp hmem with rfl | hmem
    · exact absurd hlt (String.lt_irrefl _)
    · have hle := (List.pairwise_cons.mp (List.pairwise_append.mp hsorted).2.1).1 e' hmem
      exact absurd hlt hle

end Site

/-! ### The protocol of a drain -/

/-- What is left to emit, as long as the source has answered truthfully. -/
structure Remaining where
  honest : Prop
  rest : List Item

/-- The items are emitted in order, each only after the one before it was. -/
def inOrder (T : (q : Request) → q.Reply → Prop) : Protocol Remaining SyncCmd SyncCmd.Resp where
  allowed g
    | .emit art => g.honest → ∃ tail, g.rest = art.item :: tail
    | .fetch _ => True
  next g
    | .emit _, .ok _ => { g with rest := g.rest.tail }
    | .fetch (.request q), .ok r => { g with honest := g.honest ∧ T q r }
    | _, _ => g

variable {T : (q : Request) → q.Reply → Prop} {α : Type}

/-- Nothing is required of a drain against a source that has not been truthful. -/
theorem follows_of_not_honest {p : SyncProg α} {g : Remaining} (h : ¬ g.honest) :
    p.Follows (inOrder T) (fun _ g => ¬ g.honest) g := by
  induction p generalizing g with
  | pure a => exact h
  | call c k ih =>
    cases c with
    | emit art =>
      refine ⟨fun hg => absurd hg h, fun r => ?_⟩
      cases r with
      | ok _ => exact ih _ h
      | error e => exact ih _ h
    | fetch c =>
      refine ⟨trivial, fun r => ?_⟩
      cases c with
      | ctxErr => exact ih _ h
      | request q =>
        cases r with
        | ok r => exact ih (Except.ok r) fun hg => h hg.1
        | error e => exact ih (Except.error e) h

/-- What is left stays the same, and a source that is truthful now was before. -/
def Remaining.Kept (g g' : Remaining) : Prop := g'.rest = g.rest ∧ (g'.honest → g.honest)

/-- A look at the context, or a request for the content of one item. -/
def SyncCmd.looksUp : SyncCmd → Bool
  | .fetch .ctxErr | .fetch (.request (.issueComments _ _ _ _))
  | .fetch (.request (.driveExport _)) => true
  | _ => false

/-- A program that only looks up items leaves what is left to emit. -/
theorem follows_of_looksUp {p : SyncProg α} (hp : p.Uses fun c => c.looksUp = true)
    (g : Remaining) : p.Follows (inOrder T) (fun _ => g.Kept) g := by
  refine Prog.follows_of_uses (hp.mono ?_) ⟨rfl, id⟩
  intro c hc g' hg'
  cases c with
  | emit art => cases hc
  | fetch c =>
    refine ⟨trivial, fun r => ?_⟩
    cases c with
    | ctxErr => exact hg'
    | request q =>
      cases r with
      | ok r => exact ⟨hg'.1, fun h => hg'.2 h.1⟩
      | error e => exact hg'

theorem uses_ctxErr : ctxErr.Uses fun c => c.looksUp = true := ⟨rfl, fun _ => trivial⟩

/-! ### A repository -/

namespace GitHub

variable (g : GitHub)

theorem uses_fetchComments (repo : String) (number : ℕ) (out : List Bytes) (page remaining : ℕ) :
    (g.fetchComments repo number out page remaining).Uses fun c => c.looksUp = true := by
  induction remaining generalizing out page with
  | zero => trivial
  | succ n ih =>
    refine uses_ctxErr.bind fun b => ?_
    split
    · trivial
    · refine ⟨rfl, fun r => ?_⟩
      cases r with
      | error e => trivial
      | ok items =>
        show Prog.Uses _ (if items.length < g.pageSize then _ else _)
        split
        · trivial
        · exact ih _ _

theorem uses_issueArtifact (repo : String) (raw : Bytes) (iss : GhIssue) :
    (g.issueArtifact repo raw iss).Uses fun c => c.looksUp = true := by
  unfold issueArtifact
  split
  · trivial
  · refine (g.uses_fetchComments _ _ _ _ _).bind fun r => ?_
    dsimp only
    split
    · trivial
    · refine uses_ctxErr.bind fun b => ?_
      split
      · trivial
      · split
        · trivial
        · trivial
        · split <;> trivial

/-- The artifacts folded from issues are of these issues, in their order. -/
theorem follows_foldItems (unit : SourceUnit) (items : List (Bytes × GhIssue)) (s : Remaining) :
    (g.foldItems unit items).Follows (inOrder T) (fun r s' => s.Kept s' ∧ ∀ arts, r = .ok arts →
      arts.map Artifact.item = items.map fun x =>
        ⟨unit.id ++ "#" ++ toString x.2.number, x.2.updatedAt⟩) s := by
  induction items generalizing s with
  | nil =>
    refine ⟨⟨rfl, id⟩, fun arts harts => ?_⟩
    cases harts
    rfl
  | cons x items ih =>
    obtain ⟨raw, iss⟩ := x
    refine (follows_of_looksUp (g.uses_issueArtifact unit.id raw iss) s).bind fun r s₁ hs₁ => ?_
    split
    · exact ⟨hs₁, fun arts harts => by cases harts⟩
    · refine (ih s₁).bind fun r s₂ hs₂ => ?_
      have hkept : s.Kept s₂ := ⟨hs₂.1.1.trans hs₁.1, fun h => hs₁.2 (hs₂.1.2 h)⟩
      split
      · exact ⟨hkept, fun arts harts => by cases harts⟩
      · rename_i arts
        refine ⟨hkept, fun arts' harts => ?_⟩
        cases harts
        rw [List.map_cons, List.map_cons, hs₂.2 arts rfl]
        rfl

theorem follows_foldIssuePage (unit : SourceUnit) (raws : List RawIssue) (s : Remaining) :
    (g.foldIssuePage unit raws).Follows (inOrder T) (fun r s' => s.Kept s' ∧ ∀ arts, r = .ok arts →
      ∃ items, decodePage raws = .ok items ∧ arts.map Artifact.item = items.map fun x =>
        ⟨unit.id ++ "#" ++ toString x.2.number, x.2.updatedAt⟩) s := by
  unfold foldIssuePage
  split
  · exact ⟨⟨rfl, id⟩, fun arts harts => by cases harts⟩
  · rename_i items hdecode
    refine (g.follows_foldItems unit items s).bind fun r s₁ hs₁ => ?_
    split
    · exact ⟨hs₁.1, fun arts harts => by cases harts⟩
    · rename_i arts
      refine (follows_of_looksUp uses_ctxErr s₁).bind fun b s₂ hs₂ => ?_
      have hkept : s.Kept s₂ := ⟨hs₂.1.trans hs₁.1.1, fun h => hs₁.1.2 (hs₂.2 h)⟩
      split
      · exact ⟨hkept, fun arts harts => by cases harts⟩
      · refine ⟨hkept, fun arts' harts => ?_⟩
        cases harts
        exact ⟨items, hdecode, hs₁.2 arts rfl⟩

/-- Decoding a page leaves out its pull requests. -/
theorem decodePage_map (l : List (Bytes × GhIssue)) :
    decodePage (l.map fun x => { raw := x.1, issue := some x.2 }) =
      .ok (l.filter fun x => !x.2.pullRequest) := by
  induction l with
  | nil => rfl
  | cons x l ih =>
    simp only [List.map_cons, decodePage, ih, List.filter_cons]
    cases x.2.pullRequest <;> rfl

/-- The emit loop over a page emits its artifacts. -/
theorem follows_emitPage (newPos : String) (arts : List Artifact) (tail : List Item)
    (s : Remaining) (hs : s.honest → s.rest = arts.map Artifact.item ++ tail) :
    (emitPage newPos arts).Follows (inOrder T) (fun r s' => (s'.honest → s.honest) ∧
      ((∃ pos, r = .ok pos) → s'.honest → s'.rest = tail)) s := by
  induction arts generalizing newPos s with
  | nil => exact ⟨id, fun _ h => by simpa using hs h⟩
  | cons art arts ih =>
    refine ⟨fun h => ⟨_, hs h⟩, fun r => ?_⟩
    cases r with
    | error e =>
      refine ⟨id, ?_⟩
      rintro ⟨pos, ⟨⟩⟩
    | ok _ =>
      refine ih _ { s with rest := s.rest.tail } fun h => ?_
      rw [hs h]
      rfl

/-- A page and what follows it. -/
theorem items_drop (r : Repo) (cursor : String) (perPage page : ℕ) (hpage : 1 ≤ page) :
    Repo.items r.name ((r.since cursor).drop ((page - 1) * perPage)) =
      Repo.items r.name (((r.since cursor).drop ((page - 1) * perPage)).take perPage) ++
        Repo.items r.name ((r.since cursor).drop ((page + 1 - 1) * perPage)) := by
  have hnext : (page - 1) * perPage + perPage = (page + 1 - 1) * perPage := by
    rw [← Nat.succ_mul, Nat.succ_eq_add_one, Nat.sub_add_cancel hpage, Nat.add_sub_cancel]
  rw [← hnext, ← List.drop_drop, Repo.items, Repo.items, Repo.items, ← List.map_append,
    ← List.filter_append, List.take_append_drop]

/-- The drain of a repository from a page on. -/
theorem follows_syncPages (r : Repo) (unit : SourceUnit) (cursor newPos : String)
    (page remaining : ℕ) (hpage : 1 ≤ page) (s : Remaining)
    (hs : s.honest → unit.id = r.name ∧
      s.rest = Repo.items r.name ((r.since cursor).drop ((page - 1) * g.pageSize))) :
    (g.syncPages unit cursor newPos page remaining).Follows (inOrder r.answers)
      (fun res s' => s'.honest → res = .ok true → s'.rest = []) s := by
  induction remaining generalizing newPos page s with
  | zero =>
    intro _ h
    cases h
  | succ n ih =>
    refine (follows_of_looksUp uses_ctxErr s).bind fun b s₁ hs₁ => ?_
    split
    · intro _ h
      cases h
    · refine ⟨trivial, fun reply => ?_⟩
      cases reply with
      | error e =>
        intro _ h
        cases h
      | ok raws =>
        refine (g.follows_foldIssuePage unit raws _).bind fun folded s₂ hs₂ => ?_
        obtain ⟨hkept, harts⟩ := hs₂
        split
        · refine (follows_of_looksUp uses_ctxErr s₂).bind fun b s₃ hs₃ => ?_
          split
          · intro _ h
            cases h
          · intro _ h
            cases h
        · rename_i arts
          obtain ⟨items, hdecode, hitems⟩ := harts arts rfl
          -- a truthful page decodes to its issues
          have hpageItems : s₂.honest → unit.id = r.name ∧ raws = r.page cursor g.pageSize page ∧
              s₂.rest = arts.map Artifact.item ++
                Repo.items r.name ((r.since cursor).drop ((page + 1 - 1) * g.pageSize)) := by
            intro h
            have h₁ := hkept.2 h
            obtain ⟨hunit, hrest⟩ := hs (hs₁.2 h₁.1)
            have hraws := h₁.2 hunit
            refine ⟨hunit, hraws, ?_⟩
            rw [hraws, Repo.page, decodePage_map] at hdecode
            cases hdecode
            rw [hkept.1]
            show s₁.rest = _
            rw [hs₁.1, hrest, items_drop r cursor g.pageSize page hpage, hitems, hunit]
            rfl
          refine (follows_emitPage newPos arts _ s₂ fun h => (hpageItems h).2.2).bind
            fun res s₃ hs₃ => ?_
          split
          · intro _ h
            cases h
          · rename_i pos
            have hrest : s₃.honest → unit.id = r.name ∧ s₃.rest =
                Repo.items r.name ((r.since cursor).drop ((page + 1 - 1) * g.pageSize)) :=
              fun h => ⟨(hpageItems (hs₃.1 h)).1, hs₃.2 ⟨pos, rfl⟩ h⟩
            split
            · -- a short page is the last one
              rename_i hshort
              intro h _
              obtain ⟨-, hraws, -⟩ := hpageItems (hs₃.1 h)
              rw [(hrest h).2]
              have hend : (r.since cursor).length ≤ (page + 1 - 1) * g.pageSize := by
                rw [hraws, Repo.page, List.length_map, List.length_take, List.length_drop] at hshort
                have hnext : (page + 1 - 1) * g.pageSize =
                    (page - 1) * g.pageSize + g.pageSize := by
                  rw [← Nat.succ_mul, Nat.succ_eq_add_one, Nat.sub_add_cancel hpage,
                    Nat.add_sub_cancel]
                omega
              rw [List.drop_of_length_le hend]
              rfl
            · split
              · intro _ h
                cases h
              · exact ih pos (page + 1) (by omega) s₃ hrest

/-! ### A board -/

/-- The loop over the nodes of a page emits them. -/
theorem follows_emitItems (unit : SourceUnit) (nodes : List ProjectItem) (tail : List Item)
    (s : Remaining)
    (hs : s.honest → ∃ xs, nodes = xs.map Board.node ∧ s.rest = Board.items xs ++ tail) :
    (emitItems unit nodes).Follows (inOrder T) (fun r s' => (s'.honest → s.honest) ∧
      (r = .ok () → s'.honest → s'.rest = tail)) s := by
  induction nodes generalizing s with
  | nil =>
    refine ⟨id, fun _ h => ?_⟩
    obtain ⟨xs, hxs, hrest⟩ := hs h
    obtain rfl := List.map_eq_nil_iff.mp hxs.symm
    exact hrest
  | cons node nodes ih =>
    unfold emitItems
    split
    · refine ⟨id, fun h => ?_⟩
      cases h
    · rename_i item hitem
      -- a truthful node is the next of the listing
      have hnext : s.honest → ∃ xs, nodes = xs.map Board.node ∧
          s.rest = (itemArt unit node.raw item).item :: (Board.items xs ++ tail) := by
        intro h
        obtain ⟨xs, hxs, hrest⟩ := hs h
        cases xs with
        | nil => cases hxs
        | cons x xs =>
          obtain ⟨hx, hxs⟩ := List.cons.inj hxs
          rw [hx] at hitem
          cases hitem
          exact ⟨xs, hxs, hrest⟩
      refine ⟨fun h => ?_, fun r => ?_⟩
      · obtain ⟨xs, -, hrest⟩ := hnext h
        exact ⟨_, hrest⟩
      · cases r with
        | error e =>
          refine ⟨id, fun h => ?_⟩
          cases h
        | ok _ =>
          refine ih { s with rest := s.rest.tail } fun h => ?_
          obtain ⟨xs, hxs, hrest⟩ := hnext h
          exact ⟨xs, hxs, by rw [hrest, List.tail_cons]⟩

/-- The drain of a board from a page on. -/
theorem follows_syncBoardPages (d : Board) (unit : SourceUnit) (gqlCursor : String)
    (remaining : ℕ) (s : Remaining)
    (hs : s.honest → unit.id = d.id ∧ s.rest = Board.items (d.nodes.drop (d.offset gqlCursor))) :
    (syncBoardPages unit gqlCursor remaining).Follows (inOrder d.answers)
      (fun res s' => s'.honest → res = .ok true → s'.rest = []) s := by
  induction remaining generalizing gqlCursor s with
  | zero =>
    intro _ h
    cases h
  | succ n ih =>
    refine (follows_of_looksUp uses_ctxErr s).bind fun b s₁ hs₁ => ?_
    split
    · intro _ h
      cases h
    · refine ⟨trivial, fun reply => ?_⟩
      cases reply with
      | error e =>
        intro _ h
        cases h
      | ok page =>
        -- a truthful page is the next stretch of the listing
        have hpage : (s₁.honest ∧ d.answers (.projectItems unit.id gqlCursor) page) →
            ∃ xs, page.nodes = xs.map Board.node ∧ s₁.rest = Board.items xs ++ Board.items
              (d.nodes.drop (d.offset gqlCursor + page.nodes.length)) := by
          rintro ⟨h, hresp⟩
          obtain ⟨hunit, hrest⟩ := hs (hs₁.2 h)
          have hstretch : ∃ xs, page.nodes = xs.map Board.node ∧
              xs <+: d.nodes.drop (d.offset gqlCursor) := by
            have hleft := hresp hunit
            dsimp only at hleft
            split at hleft
            · obtain ⟨xs, hxs, hprefix, -⟩ := hleft
              exact ⟨xs, hxs, hprefix⟩
            · exact ⟨_, hleft, List.prefix_rfl⟩
          obtain ⟨xs, hxs, after, hafter⟩ := hstretch
          refine ⟨xs, hxs, ?_⟩
          rw [hs₁.1, hrest, ← List.drop_drop, ← hafter, hxs, List.length_map, List.drop_left]
          simp [Board.items]
        refine (follows_emitItems unit page.nodes _ _ hpage).bind fun res s₂ hs₂ => ?_
        split
        · intro _ h
          cases h
        · have hrest := hs₂.2 rfl
          split
          · rename_i hmore
            refine ih page.endCursor s₂ fun h => ?_
            obtain ⟨hhonest, hresp⟩ := hs₂.1 h
            have hunit := (hs (hs₁.2 hhonest)).1
            have hleft := hresp hunit
            dsimp only at hleft
            rw [if_pos hmore] at hleft
            obtain ⟨xs, hxs, -, hoffset⟩ := hleft
            refine ⟨hunit, ?_⟩
            rw [hrest h, hoffset, hxs, List.length_map]
          · -- the page without a next one is the last
            rename_i hlast
            intro h _
            obtain ⟨hhonest, hresp⟩ := hs₂.1 h
            have hleft := hresp (hs (hs₁.2 hhonest)).1
            dsimp only at hleft
            rw [if_neg hlast] at hleft
            rw [hrest h, hleft, List.length_map, ← List.drop_drop, List.drop_length]
            rfl

end GitHub

/-! ### A Drive -/

namespace GoogleDocs

variable (g : GoogleDocs)

/-- The loop over the files of a page emits them. -/
theorem follows_emitFiles (newPos : String) (files : List DriveFile) (tail : List Item)
    (s : Remaining) (hs : s.honest → s.rest = Drive.items files ++ tail) :
    (emitFiles newPos files).Follows (inOrder T) (fun r s' => (s'.honest → s.honest) ∧
      ((∃ pos, r = .drained pos) → s'.honest → s'.rest = tail)) s := by
  induction files generalizing newPos s with
  | nil => exact ⟨id, fun _ h => by simpa [Drive.items] using hs h⟩
  | cons f fs ih =>
    have hstop : ∀ {r : PageEnd} {s' : Remaining}, (∀ pos, r ≠ .drained pos) →
        (s'.honest → s.honest) → (s'.honest → s.honest) ∧
          ((∃ pos, r = .drained pos) → s'.honest → s'.rest = tail) := by
      intro r s' hr hs'
      refine ⟨hs', ?_⟩
      rintro ⟨pos, rfl⟩
      exact absurd rfl (hr pos)
    refine (follows_of_looksUp uses_ctxErr s).bind fun b s₁ hs₁ => ?_
    split
    · exact hstop (by simp) hs₁.2
    · refine ⟨trivial, fun reply => ?_⟩
      cases reply with
      | error e => exact hstop (by simp) hs₁.2
      | ok raw =>
        refine ⟨fun h => ⟨_, hs₁.1.trans (hs (hs₁.2 h.1))⟩, fun reply => ?_⟩
        cases reply with
        | error e => exact hstop (by simp) fun h => hs₁.2 h.1
        | ok _ =>
          refine (ih _ _ fun h => ?_).mono fun r s' hr => ⟨fun h => hs₁.2 (hr.1 h).1, hr.2⟩
          show s₁.rest.tail = _
          rw [hs₁.1, hs (hs₁.2 h.1)]
          rfl

/-- The drain of a Drive from a page on. -/
theorem follows_syncPages (d : Drive) (cursor newPos token : String) (page remaining : ℕ)
    (s : Remaining)
    (hs : s.honest → s.rest = Drive.items ((d.since cursor).drop (d.offset cursor token))) :
    (g.syncPages cursor newPos token page remaining).Follows (inOrder d.answers)
      (fun res s' => s'.honest → res = .ok true → s'.rest = []) s := by
  induction remaining generalizing newPos token page s with
  | zero =>
    intro _ h
    cases h
  | succ n ih =>
    refine (follows_of_looksUp uses_ctxErr s).bind fun b s₁ hs₁ => ?_
    split
    · intro _ h
      cases h
    · refine ⟨trivial, fun reply => ?_⟩
      cases reply with
      | error e =>
        intro _ h
        cases h
      | ok resp =>
        -- a truthful page is the next stretch of the listing
        have hpage : (s₁.honest ∧ d.answers (.driveFiles cursor g.pageSize token) resp) →
            s₁.rest = Drive.items resp.files ++ Drive.items
              ((d.since cursor).drop (d.offset cursor token + resp.files.length)) := by
          rintro ⟨h, hresp⟩
          have hfiles : resp.files <+: (d.since cursor).drop (d.offset cursor token) := by
            simp only [Drive.answers] at hresp
            split at hresp
            · exact hresp ▸ List.prefix_rfl
            · exact hresp.1
          obtain ⟨after, hafter⟩ := hfiles
          rw [hs₁.1, hs (hs₁.2 h), ← List.drop_drop, ← hafter, List.drop_left]
          simp [Drive.items]
        refine (follows_emitFiles newPos resp.files _ _ hpage).bind fun fin s₂ hs₂ => ?_
        split
        · intro _ h
          cases h
        · intro _ h
          cases h
        · rename_i pos
          have hrest := hs₂.2 ⟨pos, rfl⟩
          split
          · -- the page without a token is the last one
            rename_i hlast
            intro h _
            have hresp := (hs₂.1 h).2
            simp only [Drive.answers, if_pos hlast] at hresp
            rw [hrest h, hresp, ← List.drop_drop, List.drop_length]
            rfl
          · rename_i hmore
            split
            · intro _ h
              cases h
            · refine ih pos resp.nextPageToken (page + 1) s₂ fun h => ?_
              have hresp := (hs₂.1 h).2
              simp only [Drive.answers, if_neg hmore] at hresp
              rw [hrest h, hresp.2]

end GoogleDocs

/-- **A drain of a static source emits the items of its listing in order**, and reports
the stream as drained only when nothing is left. -/
theorem Site.follows (site : Site) (unit : SourceUnit) (cursor : String) (s : Remaining)
    (hs : s.honest → site.fits unit ∧ s.rest = site.listing cursor) :
    (site.syncUnit unit cursor).Follows (inOrder site.answers)
      (fun res s' => s'.honest → res = .ok true → s'.rest = []) s := by
  cases site with
  | repo g r =>
    show Prog.Follows _ _ _ (if unit.kind = "github_project" then _ else _)
    split
    · -- a board is not this source
      rename_i hboard
      refine (follows_of_not_honest fun h => (hs h).1.2 hboard).mono fun _ _ hs' h => ?_
      exact absurd h hs'
    · refine g.follows_syncPages r unit cursor cursor 1 g.hardCap (Nat.le_refl 1) s fun h => ?_
      exact ⟨(hs h).1.1, by simpa [Site.listing] using (hs h).2⟩
  | drive g d =>
    refine g.follows_syncPages d cursor cursor "" 1 g.hardCap s fun h => ?_
    rw [d.offset_empty, List.drop_zero]
    exact (hs h).2
  | board g d =>
    show Prog.Follows _ _ _ (if unit.kind = "github_project" then _ else _)
    split
    · refine GitHub.follows_syncBoardPages d unit "" ghMaxPagesPerRepo s fun h => ⟨(hs h).1.1, ?_⟩
      rw [d.offset_empty, List.drop_zero]
      exact (hs h).2
    · -- a repository is not this source
      rename_i hrepo
      refine (follows_of_not_honest fun h => hrepo (hs h).1.2).mono fun _ _ hs' h => ?_
      exact absurd h hs'

end Connectors
end Hivebook
