import Hivebook.Connectors.Listing

/-!
# A drain, page by page

What a drain does whatever its source answers.  It asks for the pages of its listing one
after the other, emits the items of a page in the order they were served, and asks for the
next page only when every item of the last one was emitted and more pages are to come.

## Main definitions

* `Entry` — what a listing says of an item; `Request.entries` — the items of a page.
* `Stock` — the connectors; `Stock.lists` — how they ask for a page.
* `Reading`, `paged` — where a drain stands in its listing, and what it may do there.

## Main results

* `Stock.follows` — **the connectors drain page by page.**
-/

namespace Hivebook
namespace Connectors

/-! ### What is served -/

/-- An item as it is listed: the id of its artifact, the cursor it moves its unit to, and
its last update. -/
structure Entry where
  externalID : String
  cursor : String
  updatedAt : Option ℤ
  deriving DecidableEq, Repr

/-- The entry an artifact is of. -/
def Artifact.entry (art : Artifact) : Entry := ⟨art.externalID, art.cursor, art.sourceUpdatedAt⟩

/-- The entry of an issue. -/
def issueEntry (repo : String) (iss : GhIssue) : Entry :=
  ⟨repo ++ "#" ++ toString iss.number, iss.updatedAt, parseRFC3339 iss.updatedAt⟩

/-- The entry of an item of a board. -/
def itemEntry (item : GhItem) : Entry := ⟨item.id, "", parseRFC3339 item.updatedAt⟩

/-- The entry of a document. -/
def fileEntry (f : DriveFile) : Entry := ⟨f.id, f.modifiedTime, parseRFC3339 f.modifiedTime⟩

/-- The entry of an element of an issue page: a pull request has none. -/
def RawIssue.entry (repo : String) (r : RawIssue) : Option Entry :=
  r.issue.bind fun iss => if iss.pullRequest then none else some (issueEntry repo iss)

/-- The entries of a page. -/
def Request.entries : (q : Request) → q.Reply → List Entry
  | .issues repo _ _ _, raws => raws.filterMap (RawIssue.entry repo)
  | .projectItems _ _, page => page.nodes.filterMap fun node => node.item.map itemEntry
  | .driveFiles _ _ _, resp => resp.files.map fileEntry
  | _, _ => []

/-- Whether a page says that there are more. -/
def Request.more : (q : Request) → q.Reply → Bool
  | .issues _ perPage _ _, raws => !decide (raws.length < perPage)
  | .projectItems _ _, page => page.hasNextPage
  | .driveFiles _ _ _, resp => !decide (resp.nextPageToken = "")
  | _, _ => true

/-! ### The protocol -/

/-- The connectors of the registry; the App and the personal-token connector drain
alike. -/
inductive Stock where
  | github (g : GitHub)
  | gdocs (g : GoogleDocs)

/-- The drain of a connector. -/
def Stock.syncUnit : Stock → SourceUnit → String → SyncProg (Except Err Bool)
  | .github g => g.syncUnit
  | .gdocs g => g.syncUnit

/-- How a drain asks, after so many pages: the issues of a repository by the number of the
page, from the cursor it started at. -/
def Stock.lists (k : Stock) (unit : SourceUnit) (cursor : String) (pages : ℕ) : Request → Prop
  | .issues repo perPage page since => ∃ g, k = .github g ∧ unit.kind ≠ "github_project" ∧
      repo = unit.id ∧ perPage = g.pageSize ∧ page = pages + 1 ∧ since = cursor
  | .projectItems board _ => (∃ g, k = .github g) ∧ unit.kind = "github_project" ∧ board = unit.id
  | .driveFiles since _ _ => (∃ g, k = .gdocs g) ∧ since = cursor
  | .issueComments _ _ _ _ | .driveExport _ => True
  | _ => False

/-- Where a drain stands in its listing. -/
structure Reading where
  /-- The entries of the last page that are not emitted yet. -/
  todo : List Entry
  /-- How many pages were served. -/
  pages : ℕ
  /-- More pages are to come. -/
  more : Bool

/-- A drain that starts. -/
def Reading.init : Reading := { todo := [], pages := 0, more := true }

/-- A page is served. -/
def Reading.serve (d : Reading) (q : Request) (r : q.Reply) : Reading :=
  { todo := q.entries r, pages := d.pages + 1, more := q.more r }

/-- How a response moves the drain on. -/
def Reading.next (d : Reading) : (c : SyncCmd) → c.Resp → Reading
  | .emit _, .ok _ => { d with todo := d.todo.tail }
  | .fetch (.request q), .ok r => if q.isListing then d.serve q r else d
  | _, _ => d

/-- The pages are asked for in order, and their items are emitted in order. -/
def paged (k : Stock) (unit : SourceUnit) (cursor : String) :
    Protocol Reading SyncCmd SyncCmd.Resp where
  allowed d
    | .emit art => ∃ tail, d.todo = art.entry :: tail
    | .fetch (.request q) => k.lists unit cursor d.pages q ∧
        (q.isListing = true → d.todo = [] ∧ d.more = true)
    | .fetch .ctxErr => True
  next := Reading.next

section Follows

variable {k : Stock} {unit : SourceUnit} {cursor : String} {α : Type}

/-- A program that only looks up items leaves the reading where it is. -/
theorem follows_paged_of_looksUp {p : SyncProg α} (hp : p.Uses fun c => c.looksUp = true)
    (d : Reading) : p.Follows (paged k unit cursor) (fun _ d' => d' = d) d := by
  refine Prog.follows_of_uses (hp.mono ?_) rfl
  rintro c hc _ rfl
  cases c with
  | emit art => cases hc
  | fetch c =>
    cases c with
    | ctxErr => exact ⟨trivial, fun _ => rfl⟩
    | request q =>
      cases q with
      | issueComments repo number perPage page =>
        refine ⟨⟨trivial, fun h => by cases h⟩, fun r => ?_⟩
        cases r <;> rfl
      | driveExport id =>
        refine ⟨⟨trivial, fun h => by cases h⟩, fun r => ?_⟩
        cases r <;> rfl
      | _ => cases hc

/-! ### Repositories and boards -/

namespace GitHub

variable {g : GitHub}

theorem follows_paged_foldItems (items : List (Bytes × GhIssue)) (d : Reading) :
    (g.foldItems unit items).Follows (paged k unit cursor) (fun r d' => d' = d ∧
      ∀ arts, r = .ok arts → arts.map Artifact.entry = items.map fun x => issueEntry unit.id x.2)
      d := by
  induction items with
  | nil =>
    refine ⟨rfl, fun arts harts => ?_⟩
    cases harts
    rfl
  | cons x items ih =>
    obtain ⟨raw, iss⟩ := x
    refine (follows_paged_of_looksUp (g.uses_issueArtifact unit.id raw iss) d).bind ?_
    rintro r _ rfl
    split
    · exact ⟨rfl, fun arts harts => by cases harts⟩
    · refine ih.bind ?_
      rintro r _ ⟨rfl, hitems⟩
      split
      · exact ⟨rfl, fun arts harts => by cases harts⟩
      · rename_i arts
        refine ⟨rfl, fun arts' harts => ?_⟩
        cases harts
        rw [List.map_cons, List.map_cons, hitems arts rfl]
        rfl

/-- A page that decodes has its entries. -/
theorem entries_of_decodePage {repo : String} {raws : List RawIssue}
    {items : List (Bytes × GhIssue)} (h : decodePage raws = .ok items) :
    (items.map fun x => issueEntry repo x.2) = raws.filterMap (RawIssue.entry repo) := by
  induction raws generalizing items with
  | nil =>
    cases h
    rfl
  | cons r rs ih =>
    unfold decodePage at h
    split at h
    · cases h
    · rename_i iss hiss
      split at h
      · cases h
      · rename_i items' hitems
        cases h
        rw [List.filterMap_cons, ← ih hitems]
        unfold RawIssue.entry
        rw [hiss, Option.bind_some]
        by_cases hpull : iss.pullRequest = true
        · rw [if_pos hpull, if_pos hpull]
        · rw [if_neg hpull, if_neg hpull]
          rfl

theorem follows_paged_foldIssuePage (raws : List RawIssue) (d : Reading) :
    (g.foldIssuePage unit raws).Follows (paged k unit cursor) (fun r d' => d' = d ∧
      ∀ arts, r = .ok arts →
        arts.map Artifact.entry = raws.filterMap (RawIssue.entry unit.id)) d := by
  unfold foldIssuePage
  split
  · exact ⟨rfl, fun arts harts => by cases harts⟩
  · rename_i items hdecode
    refine (follows_paged_foldItems items d).bind ?_
    rintro r _ ⟨rfl, hitems⟩
    split
    · exact ⟨rfl, fun arts harts => by cases harts⟩
    · rename_i arts
      refine (follows_paged_of_looksUp uses_ctxErr _).bind ?_
      rintro b _ rfl
      split
      · exact ⟨rfl, fun arts harts => by cases harts⟩
      · refine ⟨rfl, fun arts' harts => ?_⟩
        cases harts
        rw [hitems arts rfl, entries_of_decodePage hdecode]

/-- The emit loop over a page emits its entries. -/
theorem follows_paged_emitPage (newPos : String) (arts : List Artifact) (d : Reading)
    (hd : d.todo = arts.map Artifact.entry) :
    (emitPage newPos arts).Follows (paged k unit cursor)
      (fun r d' => d'.pages = d.pages ∧ d'.more = d.more ∧ ((∃ pos, r = .ok pos) → d'.todo = []))
      d := by
  induction arts generalizing newPos d with
  | nil => exact ⟨rfl, rfl, fun _ => hd⟩
  | cons art arts ih =>
    refine ⟨⟨_, hd⟩, fun r => ?_⟩
    cases r with
    | error e =>
      refine ⟨rfl, rfl, ?_⟩
      rintro ⟨pos, ⟨⟩⟩
    | ok _ =>
      refine ih _ { d with todo := d.todo.tail } ?_
      rw [hd]
      rfl

/-- The drain of a repository from a page on. -/
theorem follows_paged_syncPages (hkind : unit.kind ≠ "github_project") (newPos : String)
    (page remaining : ℕ) (d : Reading) (hpage : page = d.pages + 1) (htodo : d.todo = [])
    (hmore : d.more = true) :
    (g.syncPages unit cursor newPos page remaining).Follows (paged (.github g) unit cursor)
      (fun _ _ => True) d := by
  induction remaining generalizing newPos page d with
  | zero => trivial
  | succ n ih =>
    refine (follows_paged_of_looksUp uses_ctxErr d).bind ?_
    rintro b _ rfl
    split
    · trivial
    · refine ⟨⟨⟨g, rfl, hkind, rfl, rfl, hpage, rfl⟩, fun _ => ⟨htodo, hmore⟩⟩, fun reply => ?_⟩
      cases reply with
      | error e => trivial
      | ok raws =>
        refine (follows_paged_foldIssuePage raws _).bind ?_
        rintro r _ ⟨rfl, harts⟩
        split
        · refine (follows_paged_of_looksUp uses_ctxErr _).bind ?_
          rintro b _ rfl
          split <;> trivial
        · rename_i arts
          refine (follows_paged_emitPage newPos arts _ (harts arts rfl).symm).bind
            fun res d₁ hd₁ => ?_
          obtain ⟨hpages, hmore₁, htodo₁⟩ := hd₁
          split
          · trivial
          · rename_i pos
            split
            · trivial
            · split
              · trivial
              · -- a page that is not short says that there are more
                rename_i hfull _
                refine ih pos (page + 1) d₁ ?_ (htodo₁ ⟨pos, rfl⟩) ?_
                · rw [hpages, hpage]
                  rfl
                · rw [hmore₁]
                  show (!decide (raws.length < g.pageSize)) = true
                  simp [hfull]

/-- The loop over the nodes of a page emits its entries. -/
theorem follows_paged_emitItems (nodes : List ProjectItem) (d : Reading)
    (hd : d.todo = nodes.filterMap fun node => node.item.map itemEntry) :
    (emitItems unit nodes).Follows (paged k unit cursor)
      (fun r d' => d'.pages = d.pages ∧ d'.more = d.more ∧ (r = .ok () → d'.todo = [])) d := by
  induction nodes generalizing d with
  | nil => exact ⟨rfl, rfl, fun _ => hd⟩
  | cons node nodes ih =>
    unfold emitItems
    split
    · refine ⟨rfl, rfl, fun h => ?_⟩
      cases h
    · rename_i item hitem
      rw [List.filterMap_cons, hitem] at hd
      refine ⟨⟨_, hd⟩, fun r => ?_⟩
      cases r with
      | error e =>
        refine ⟨rfl, rfl, fun h => ?_⟩
        cases h
      | ok _ =>
        refine ih { d with todo := d.todo.tail } ?_
        rw [hd]
        rfl

/-- The drain of a board from a page on. -/
theorem follows_paged_syncBoardPages (hkind : unit.kind = "github_project") (gqlCursor : String)
    (remaining : ℕ) (d : Reading) (htodo : d.todo = []) (hmore : d.more = true) :
    (syncBoardPages unit gqlCursor remaining).Follows (paged (.github g) unit cursor)
      (fun _ _ => True) d := by
  induction remaining generalizing gqlCursor d with
  | zero => trivial
  | succ n ih =>
    refine (follows_paged_of_looksUp uses_ctxErr d).bind ?_
    rintro b _ rfl
    split
    · trivial
    · refine ⟨⟨⟨⟨g, rfl⟩, hkind, rfl⟩, fun _ => ⟨htodo, hmore⟩⟩, fun reply => ?_⟩
      cases reply with
      | error e => trivial
      | ok page =>
        refine (follows_paged_emitItems page.nodes _ rfl).bind fun res d₁ hd₁ => ?_
        obtain ⟨-, hmore₁, htodo₁⟩ := hd₁
        split
        · trivial
        · split
          · rename_i hnext
            exact ih page.endCursor d₁ (htodo₁ rfl) (hmore₁.trans hnext)
          · trivial

end GitHub

/-! ### Drives -/

namespace GoogleDocs

variable {g : GoogleDocs}

/-- The loop over the files of a page emits its entries. -/
theorem follows_paged_emitFiles (newPos : String) (files : List DriveFile) (d : Reading)
    (hd : d.todo = files.map fileEntry) :
    (emitFiles newPos files).Follows (paged k unit cursor) (fun r d' => d'.pages = d.pages ∧
      d'.more = d.more ∧ ((∃ pos, r = .drained pos) → d'.todo = [])) d := by
  induction files generalizing newPos d with
  | nil => exact ⟨rfl, rfl, fun _ => hd⟩
  | cons f fs ih =>
    have hstop : ∀ {r : PageEnd}, (∀ pos, r ≠ .drained pos) → d.pages = d.pages ∧
        d.more = d.more ∧ ((∃ pos, r = .drained pos) → d.todo = []) := by
      intro r hr
      refine ⟨rfl, rfl, ?_⟩
      rintro ⟨pos, rfl⟩
      exact absurd rfl (hr pos)
    refine (follows_paged_of_looksUp uses_ctxErr d).bind ?_
    rintro b d rfl
    split
    · exact hstop (by simp)
    · refine ⟨⟨trivial, fun h => by cases h⟩, fun reply => ?_⟩
      cases reply with
      | error e => exact hstop (by simp)
      | ok raw =>
        refine ⟨⟨_, hd⟩, fun reply => ?_⟩
        cases reply with
        | error e => exact hstop (by simp)
        | ok _ =>
          refine ih _ { d with todo := d.todo.tail } ?_
          rw [hd]
          rfl

/-- The drain of a Drive from a page on. -/
theorem follows_paged_syncPages (newPos token : String) (page remaining : ℕ) (d : Reading)
    (htodo : d.todo = []) (hmore : d.more = true) :
    (g.syncPages cursor newPos token page remaining).Follows (paged (.gdocs g) unit cursor)
      (fun _ _ => True) d := by
  induction remaining generalizing newPos token page d with
  | zero => trivial
  | succ n ih =>
    refine (follows_paged_of_looksUp uses_ctxErr d).bind ?_
    rintro b _ rfl
    split
    · trivial
    · refine ⟨⟨⟨⟨g, rfl⟩, rfl⟩, fun _ => ⟨htodo, hmore⟩⟩, fun reply => ?_⟩
      cases reply with
      | error e => trivial
      | ok resp =>
        refine (follows_paged_emitFiles newPos resp.files _ rfl).bind fun fin d₁ hd₁ => ?_
        obtain ⟨-, hmore₁, htodo₁⟩ := hd₁
        split
        · trivial
        · trivial
        · rename_i pos
          split
          · trivial
          · split
            · trivial
            · -- a page with a token says that there are more
              rename_i htoken _
              refine ih pos resp.nextPageToken (page + 1) d₁ (htodo₁ ⟨pos, rfl⟩) ?_
              rw [hmore₁]
              show (!decide (resp.nextPageToken = "")) = true
              simp [htoken]

end GoogleDocs

end Follows

/-- **The connectors drain page by page**, whatever their source answers. -/
theorem Stock.follows (k : Stock) (unit : SourceUnit) (cursor : String) :
    (k.syncUnit unit cursor).Follows (paged k unit cursor) (fun _ _ => True) Reading.init := by
  cases k with
  | github g =>
    show Prog.Follows _ _ _ (if unit.kind = "github_project" then _ else _)
    split
    · rename_i hboard
      exact GitHub.follows_paged_syncBoardPages hboard "" ghMaxPagesPerRepo Reading.init rfl rfl
    · rename_i hrepo
      exact GitHub.follows_paged_syncPages hrepo cursor 1 g.hardCap Reading.init rfl rfl rfl
  | gdocs g => exact GoogleDocs.follows_paged_syncPages cursor "" 1 g.hardCap Reading.init rfl rfl

end Connectors
end Hivebook
