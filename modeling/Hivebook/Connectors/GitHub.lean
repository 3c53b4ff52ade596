import Hivebook.Connectors.Source

/-!
# The GitHub connector

The drain of a repository or of a Projects v2 board.  A repository's issues are
listed updated-ascending from the cursor, page by page; each page is folded into
artifacts, an issue with its comment thread, which are emitted in the page's order.
The comment threads of a page are fetched one after the other here: the source's
bounded fan-out orders its results the same way.

## Main definitions

* `GitHub.fetchIssueComments`, `GitHub.issueArtifact`, `GitHub.foldIssuePage` — one
  page.
* `GitHub.syncRepoIssues`, `GitHub.syncProjectItems` — the two kinds of unit.
* `GitHub.repoUnits`, `GitHub.listProjects`, `GitHub.discoverUnits` — the listing of the
  units: the repositories, and the boards of the accounts that own them.
* `GitHub.connector` — the connector over a way to list its units.
-/

namespace Hivebook
namespace Connectors

/-- `ghMaxRepos`. -/
def ghMaxRepos : ℕ := 100

/-- `ghPerPage`. -/
def ghPerPage : ℕ := 100

/-- `ghMaxPagesPerRepo`. -/
def ghMaxPagesPerRepo : ℕ := 10

/-- `ghMaxPagesHardCap`. -/
def ghMaxPagesHardCap : ℕ := 200

/-- `ghMaxCommentPages`. -/
def ghMaxCommentPages : ℕ := 10

/-- The bytes of a literal. -/
def literal (s : String) : Bytes := s.toUTF8.toList

/-- A JSON text without the blanks between its tokens. -/
def stripBlanks : (quoted escaped : Bool) → Bytes → Bytes
  | _, _, [] => []
  | false, _, c :: cs =>
      if c = 0x20 ∨ c = 0x09 ∨ c = 0x0a ∨ c = 0x0d then stripBlanks false false cs
      else c :: stripBlanks (decide (c = 0x22)) false cs
  | true, true, c :: cs => c :: stripBlanks true false cs
  | true, false, c :: cs => c :: stripBlanks (decide (c ≠ 0x22)) (decide (c = 0x5c)) cs

/-- The characters of HTML are escaped. -/
def escapeHTML (c : UInt8) : Bytes :=
  if c = 0x3c then literal "\\u003c"
  else if c = 0x3e then literal "\\u003e"
  else if c = 0x26 then literal "\\u0026"
  else [c]

/-- So are U+2028 and U+2029, which end a line of JavaScript. -/
def escapeSeparators : Bytes → Bytes
  | a :: b :: c :: cs =>
      if a = 0xe2 ∧ b = 0x80 ∧ c = 0xa8 then literal "\\u2028" ++ escapeSeparators cs
      else if a = 0xe2 ∧ b = 0x80 ∧ c = 0xa9 then literal "\\u2029" ++ escapeSeparators cs
      else a :: escapeSeparators (b :: c :: cs)
  | cs => cs

/-- `json.Marshal` of a `json.RawMessage`, which is a valid text. -/
def marshalRaw (raw : Bytes) : Bytes :=
  escapeSeparators ((stripBlanks false false raw).flatMap escapeHTML)

example : marshalRaw (literal "[1, \"<a>\" ]") = literal "[1,\"\\u003ca\\u003e\"]" := by
  decide +kernel

/-- `json.Marshal` of an issue and its comments, a slice that may be nil. -/
def marshalIssue (issue : Bytes) (comments : Option (List Bytes)) : Bytes :=
  literal "\x7b\"issue\":" ++ marshalRaw issue ++ literal ",\"comments\":" ++
    (match comments with
    | none => literal "null"
    | some cs =>
        literal "[" ++ ((cs.map marshalRaw).intersperse (literal ",")).flatten ++ literal "]") ++
    literal "\x7d"

/-- A slice that starts as nil, after the comments were appended. -/
def appended (comments : List Bytes) : Option (List Bytes) :=
  if comments.isEmpty then none else some comments

/-- `isTerminalCommentError`: the error is permanent for the one issue. -/
def isTerminalCommentError : Err → Bool
  | .status code _ => decide (code = 404 ∨ code = 410)
  | .tooLarge _ => true
  | .deadlineExceeded => true
  | _ => false

/-- `connectors.GitHub`; a zero field means its default. -/
structure GitHub where
  perPage : ℕ
  maxPages : ℕ
  deriving DecidableEq, Repr

/-- `NewGitHub`. -/
def newGitHub : GitHub := { perPage := ghPerPage, maxPages := ghMaxPagesPerRepo }

namespace GitHub

/-- The page size in effect. -/
def pageSize (g : GitHub) : ℕ := if g.perPage = 0 then ghPerPage else g.perPage

/-- The page budget of one run. -/
def budget (g : GitHub) : ℕ := if g.maxPages = 0 then ghMaxPagesPerRepo else g.maxPages

/-- The hard ceiling on the pages of one run. -/
def hardCap (g : GitHub) : ℕ := max g.budget ghMaxPagesHardCap

/-- `fetchIssueComments` from a page on: the pages fetched, and the error it
stopped at. -/
def fetchComments (g : GitHub) (repo : String) (number : ℕ) (out : List Bytes) :
    (page remaining : ℕ) → SyncProg (List Bytes × Option Err)
  | _, 0 => pure (out, none)
  | page, remaining + 1 => do
      if ← ctxErr then return (out, some .canceled)
      match ← request (.issueComments repo number g.pageSize page) with
      | .error e => return (out, some e)
      | .ok items =>
          if items.length < g.pageSize then return (out ++ items, none)
          else g.fetchComments repo number (out ++ items) (page + 1) remaining

/-- `fetchIssueComments`. -/
def fetchIssueComments (g : GitHub) (repo : String) (number : ℕ) :
    SyncProg (List Bytes × Option Err) :=
  g.fetchComments repo number [] 1 ghMaxCommentPages

/-- `issueArtifact`: a terminal error of the thread degrades to what was fetched,
any other fails the page. -/
def issueArtifact (g : GitHub) (repo : String) (raw : Bytes) (iss : GhIssue) :
    SyncProg (Except Err Bytes) := do
  if iss.comments ≤ 0 then return .ok (marshalIssue raw (some []))
  let (comments, failure) ← g.fetchIssueComments repo iss.number
  match failure with
  | none => return .ok (marshalIssue raw (appended comments))
  | some e =>
      -- a cancelled run must not store a thread that was cut short
      if ← ctxErr then return .error e
      match e with
      | .auth _ | .rateLimit _ => return .error e
      | _ =>
          if isTerminalCommentError e then return .ok (marshalIssue raw (some comments))
          else return .error e

/-- The issues of a page, without the pull requests; an element that does not
decode fails the page. -/
def decodePage : List RawIssue → Except Err (List (Bytes × GhIssue))
  | [] => .ok []
  | r :: rs =>
      match r.issue with
      | none => .error (.failed "decode issue")
      | some iss =>
          match decodePage rs with
          | .error e => .error e
          | .ok items => .ok (if iss.pullRequest then items else (r.raw, iss) :: items)

/-- The artifact of an issue. -/
def issueArt (unit : SourceUnit) (iss : GhIssue) (doc : Bytes) : Artifact :=
  { sourceNativeKind := "github_issue"
    container := { id := unit.id, kind := unit.kind, name := unit.name }
    externalID := unit.id ++ "#" ++ toString iss.number
    sourceURL := iss.htmlURL
    sourceUpdatedAt := parseRFC3339 iss.updatedAt
    contentType := "application/json"
    raw := doc
    cursor := iss.updatedAt }

/-- The fold of the decoded issues, in order. -/
def foldItems (g : GitHub) (unit : SourceUnit) :
    List (Bytes × GhIssue) → SyncProg (Except Err (List Artifact))
  | [] => return .ok []
  | (raw, iss) :: items => do
      match ← g.issueArtifact unit.id raw iss with
      | .error e => return .error e
      | .ok doc =>
          match ← g.foldItems unit items with
          | .error e => return .error e
          | .ok arts => return .ok (issueArt unit iss doc :: arts)

/-- `foldIssuePage`. -/
def foldIssuePage (g : GitHub) (unit : SourceUnit) (raws : List RawIssue) :
    SyncProg (Except Err (List Artifact)) := do
  match decodePage raws with
  | .error e => return .error e
  | .ok items =>
      match ← g.foldItems unit items with
      | .error e => return .error e
      | .ok arts =>
          if ← ctxErr then return .error .canceled
          return .ok arts

/-- The emit loop over a page: the furthest position reached, or the first error. -/
def emitPage (newPos : String) : List Artifact → SyncProg (Except Err String)
  | [] => return .ok newPos
  | art :: arts => do
      match ← emit art with
      | .error e => return .error e
      | .ok _ => emitPage (if newPos < art.cursor then art.cursor else newPos) arts

/-- `syncRepoIssues` from a page on.  At the page budget the run stops if it got
past its starting position, else it drains the plateau up to the hard ceiling. -/
def syncPages (g : GitHub) (unit : SourceUnit) (cursor : String) (newPos : String) :
    (page remaining : ℕ) → SyncProg (Except Err Bool)
  | _, 0 => return .ok false
  | page, remaining + 1 => do
      if ← ctxErr then return .ok false
      match ← request (.issues unit.id g.pageSize page cursor) with
      | .error e => return .error e
      | .ok raws =>
          match ← g.foldIssuePage unit raws with
          | .error e =>
              -- an error of a run that was cancelled is its cancellation
              if ← ctxErr then return .ok false
              return .error e
          | .ok arts =>
              match ← emitPage newPos arts with
              | .error e => return .error e
              | .ok newPos =>
                  if raws.length < g.pageSize then return .ok true
                  -- past the budget only a plateau at the cursor is drained
                  else if g.budget ≤ page ∧ newPos ≠ cursor then return .ok false
                  else g.syncPages unit cursor newPos (page + 1) remaining

/-- `syncRepoIssues`. -/
def syncRepoIssues (g : GitHub) (unit : SourceUnit) (cursor : String) :
    SyncProg (Except Err Bool) :=
  g.syncPages unit cursor cursor 1 g.hardCap

/-- The artifact of an item of a board; a board is cursorless. -/
def itemArt (unit : SourceUnit) (raw : Bytes) (item : GhItem) : Artifact :=
  { sourceNativeKind := "github_project_item"
    container := { id := unit.id, kind := unit.kind, name := unit.name }
    externalID := item.id
    sourceURL := item.url
    sourceUpdatedAt := parseRFC3339 item.updatedAt
    contentType := "application/json"
    raw
    cursor := "" }

/-- The emit loop over a page of a board. -/
def emitItems (unit : SourceUnit) : List ProjectItem → SyncProg (Except Err Unit)
  | [] => return .ok ()
  | node :: nodes => do
      match node.item with
      | none => return .error (.failed "decode project item")
      | some item =>
          match ← emit (itemArt unit node.raw item) with
          | .error e => return .error e
          | .ok _ => emitItems unit nodes

/-- `syncProjectItems` from a page on: a board is cursorless and fetched whole. -/
def syncBoardPages (unit : SourceUnit) (gqlCursor : String) :
    (remaining : ℕ) → SyncProg (Except Err Bool)
  | 0 => return .ok false
  | remaining + 1 => do
      if ← ctxErr then return .ok false
      match ← request (.projectItems unit.id gqlCursor) with
      | .error e => return .error e
      | .ok page =>
          match ← emitItems unit page.nodes with
          | .error e => return .error e
          | .ok _ =>
              if page.hasNextPage then syncBoardPages unit page.endCursor remaining
              else return .ok true

/-- `syncProjectItems`. -/
def syncProjectItems (unit : SourceUnit) : SyncProg (Except Err Bool) :=
  syncBoardPages unit "" ghMaxPagesPerRepo

/-- `GitHub.SyncUnit`. -/
def syncUnit (g : GitHub) (unit : SourceUnit) (cursor : String) : SyncProg (Except Err Bool) :=
  if unit.kind = "github_project" then syncProjectItems unit else g.syncRepoIssues unit cursor

/-! ### The listing of the units -/

/-- A request to the source, in a discovery. -/
def ask (q : Request) : FetchProg (Except Err q.Reply) := Prog.issue (FetchCmd.request q)

/-- The repositories listed so far, and the type of every account that owns one. -/
structure Catalog where
  repos : List String
  owners : List (String × String)
  deriving DecidableEq, Repr

/-- `owners[login] = type`. -/
def setOwner (login type : String) (owners : List (String × String)) : List (String × String) :=
  (owners.filter fun o => decide (o.1 ≠ login)) ++ [(login, type)]

/-- The loop over the repositories of a page. -/
def Catalog.addRepo (c : Catalog) (r : GhRepo) : Catalog :=
  { repos := c.repos ++ [r.fullName]
    owners := if r.ownerLogin = "" then c.owners else setOwner r.ownerLogin r.ownerType c.owners }

/-- The listing of the repositories from a page on, up to the cap.  Every page but the
last has `ghPerPage` of them, so the number of pages is bounded. -/
def listRepos (via : RepoListing) (c : Catalog) :
    (page remaining : ℕ) → FetchProg (Except Err Catalog)
  | _, 0 => return .ok c
  | page, remaining + 1 => do
      if c.repos.length < ghMaxRepos then
        match ← ask (.repos via page) with
        | .error e => return .error e
        | .ok rs =>
            let c := rs.foldl Catalog.addRepo c
            if rs.length < ghPerPage then return .ok c
            else listRepos via c (page + 1) remaining
      else return .ok c

/-- A unit per repository. -/
def repoUnit (full : String) : SourceUnit := { id := full, kind := "github_repo", name := full }

/-- `repoUnits`: each name once, in the order of its first occurrence, up to the cap. -/
def repoUnits (repos : List String) : List SourceUnit :=
  ((repos.reverse.dedup.reverse).map repoUnit).take ghMaxRepos

/-- A unit per board. -/
def boardUnit (p : GhProject) : SourceUnit :=
  { id := p.id, kind := "github_project", name := p.title }

/-- `listProjects` from a page on.  The loop has no bound of its own: it ends with the
pages, or with the deadline of the activity, after a number of pages. -/
def listProjects (login type : String) (out : List SourceUnit) (cursor : String) :
    (remaining : ℕ) → FetchProg (Except Err (List SourceUnit))
  | 0 => return .error .deadlineExceeded
  | remaining + 1 => do
      match ← ask (.projects (decide (type = "Organization")) login cursor) with
      | .error e => return .error e
      | .ok none => return .ok out
      | .ok (some page) =>
          let out := out ++ page.nodes.map boardUnit
          if page.hasNextPage then listProjects login type out page.endCursor remaining
          else return .ok out

/-- `if seen[p.ID] { continue }; out = append(out, p)`, over the boards of an account. -/
def addBoards (seen : List String) (out : List SourceUnit) :
    List SourceUnit → List String × List SourceUnit
  | [] => (seen, out)
  | p :: ps =>
      if p.id ∈ seen then addBoards seen out ps else addBoards (p.id :: seen) (out ++ [p]) ps

/-- The boards of every account, best effort: an account whose boards cannot be listed
is skipped. -/
def discoverBoards (deadline : ℕ) (seen : List String) (out : List SourceUnit) :
    List (String × String) → FetchProg (List SourceUnit)
  | [] => return out
  | (login, type) :: owners => do
      match ← listProjects login type [] "" deadline with
      | .error _ => discoverBoards deadline seen out owners
      | .ok projects =>
          let (seen, out) := addBoards seen out projects
          discoverBoards deadline seen out owners

/-- `GitHub.DiscoverUnits` by one of the two listings.  The accounts are iterated over
as a Go map is, in any order. -/
def discoverUnitsVia (via : RepoListing) (deadline : ℕ)
    (order : List (String × String) → List (String × String)) :
    FetchProg (Except Err (List SourceUnit)) := do
  match ← listRepos via { repos := [], owners := [] } 1 ghMaxRepos with
  | .error e => return .error e
  | .ok c => return .ok (← discoverBoards deadline [] (repoUnits c.repos) (order c.owners))

/-- `GitHub.DiscoverUnits`: what the App installation is granted. -/
def discoverUnits : ℕ → (List (String × String) → List (String × String)) →
    FetchProg (Except Err (List SourceUnit)) :=
  discoverUnitsVia .installation

/-- `GitHubPAT.DiscoverUnits`: what the token can reach. -/
def patDiscoverUnits : ℕ → (List (String × String) → List (String × String)) →
    FetchProg (Except Err (List SourceUnit)) :=
  discoverUnitsVia .user

/-- The connector, over a way to list its units and estimate their totals: the App
and the personal-token connector differ in the listing only. -/
def connector (g : GitHub) (id : String)
    (discoverUnits : FetchProg (Except Err (List SourceUnit)))
    (estimateTotals : List SourceUnit → FetchProg (Except Err (List (String × ℤ)))) : Connector :=
  { id, name := if id = "github_pat" then "GitHub (token)" else "GitHub (App)"
    archetype := "record", scopes := ["repo", "read:user"],
    rateBudget := { startConcurrency := 4, maxConcurrency := 8 }, discoverUnits, estimateTotals,
    syncUnit := g.syncUnit }

end GitHub

end Connectors
end Hivebook
