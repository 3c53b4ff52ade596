import Hivebook.Basic
import Hivebook.Lib.Prog

/-!
# Connectors and the sources they read

A connector drives a source: it lists the source's units, and drains one of them
by fetching pages and emitting an artifact per item.  Its methods are programs
over three commands: a look at the context, a request to the source, and, while
draining, an `emit`.  What a request answers is up to the source; a response that
fails to decode is an error like any other.

## Main definitions

* `Artifact`, `RateBudget` — what a connector hands to the platform.
* `Request`, `Request.Reply` — the requests the connectors make.
* `FetchCmd`, `SyncCmd` — the commands of a discovery and of a drain.
* `Connector`, `Registry`.
-/

namespace Hivebook
namespace Connectors

/-- `connectors.Unit`: a sync partition of a source. -/
structure SourceUnit where
  id : String
  kind : String
  name : String
  deriving DecidableEq, Repr

/-- `connectors.Container`: the sub-grouping an artifact is filed under. -/
structure Container where
  id : String
  kind : String
  name : String
  deriving DecidableEq, Repr

/-- `connectors.RateBudget`: the seed and the hard cap of the limiter. -/
structure RateBudget where
  startConcurrency : ℤ
  maxConcurrency : ℤ
  deriving DecidableEq, Repr

/-- `connectors.Artifact`: the bytes of one item and its manifest fields. -/
structure Artifact where
  sourceNativeKind : String
  container : Container
  externalID : String
  sourceURL : String
  /-- When the source last updated the item. -/
  sourceUpdatedAt : Option ℤ
  contentType : String
  raw : Bytes
  /-- The value the unit's cursor advances to once the item is committed; empty for
  a cursorless source. -/
  cursor : String
  deriving DecidableEq, Repr

/-! ### Timestamps -/

/-- A number of exactly so many digits, and what follows it. -/
def takeDigits (n : ℕ) (cs : List Char) : Option (ℕ × List Char) :=
  let ds := cs.take n
  if ds.length = n ∧ ds.all Char.isDigit then
    some (ds.foldl (fun v d => 10 * v + (d.toNat - '0'.toNat)) 0, cs.drop n)
  else none

/-- A given character, and what follows it. -/
def takeChar (c : Char) : List Char → Option (List Char)
  | [] => none
  | d :: cs => if d = c then some cs else none

/-- A leap year of the Gregorian calendar. -/
def isLeap (year : ℕ) : Bool :=
  decide (year % 4 = 0) && (decide (year % 100 ≠ 0) || decide (year % 400 = 0))

/-- The lengths of the months of a year. -/
def monthLengths (year : ℕ) : List ℕ :=
  [31, if isLeap year then 29 else 28, 31, 30, 31, 30, 31, 31, 30, 31, 30, 31]

/-- The days from the first of January of the year `0` to a date. -/
def dayNumber (year month day : ℕ) : ℕ :=
  365 * year + (year + 3) / 4 - (year + 99) / 100 + (year + 399) / 400 +
    ((monthLengths year).take (month - 1)).foldl (· + ·) 0 + (day - 1)

/-- The fraction of a second, in nanoseconds, and what follows it. -/
def takeFraction : List Char → ℕ × List Char
  | s :: d :: cs =>
      if (s = '.' ∨ s = ',') ∧ d.isDigit then
        let ds := (d :: cs).takeWhile Char.isDigit
        ((((ds ++ List.replicate 9 '0').take 9).foldl
          (fun v d => 10 * v + (d.toNat - '0'.toNat)) 0), (d :: cs).dropWhile Char.isDigit)
      else (0, s :: d :: cs)
  | cs => (0, cs)

/-- The offset from UTC a timestamp ends in, in seconds. -/
def zoneOffset : List Char → Option ℤ
  | ['Z'] => some 0
  | s :: cs =>
      if s = '+' ∨ s = '-' then do
        let (h, cs) ← takeDigits 2 cs
        let (m, cs) ← takeDigits 2 (← takeChar ':' cs)
        -- the library lets an offset of 24 hours or of 60 minutes pass
        if cs = [] ∧ h ≤ 24 ∧ m ≤ 60 then
          some (if s = '+' then 3600 * h + 60 * m else -(3600 * h + 60 * m : ℤ))
        else none
      else none
  | [] => none

/-- `parseRFC3339`: the instant a timestamp stands for, in nanoseconds since 1970, and
nothing for a text that is no timestamp.  One digit will do for the hour. -/
def parseRFC3339 (s : String) : Option ℤ := do
  let (year, cs) ← takeDigits 4 s.toList
  let (month, cs) ← takeDigits 2 (← takeChar '-' cs)
  let (day, cs) ← takeDigits 2 (← takeChar '-' cs)
  let cs ← takeChar 'T' cs
  let (hour, cs) ← (takeDigits 2 cs).or (takeDigits 1 cs)
  let (minute, cs) ← takeDigits 2 (← takeChar ':' cs)
  let (sec, cs) ← takeDigits 2 (← takeChar ':' cs)
  let (nanos, cs) := takeFraction cs
  let offset ← zoneOffset cs
  if 1 ≤ month ∧ month ≤ 12 ∧ 1 ≤ day ∧ day ≤ ((monthLengths year)[month - 1]?).getD 0 ∧
      hour < 24 ∧ minute < 60 ∧ sec < 60 then
    let days : ℤ := dayNumber year month day - dayNumber 1970 1 1
    some ((86400 * days + 3600 * hour + 60 * minute + sec - offset) * 1000000000 + nanos)
  else none

example : parseRFC3339 "1970-01-02T00:00:01.5+01:00" = some 82801500000000 := by decide

example : parseRFC3339 "1970-01-01T1:00:00,5+24:00" = some (-82799500000000) := by decide

/-! ### What the sources answer -/

/-- `ghIssue`, the fields of an issue the connector reads. -/
structure GhIssue where
  number : ℕ
  htmlURL : String
  updatedAt : String
  comments : ℤ
  /-- The issues endpoint also lists pull requests. -/
  pullRequest : Bool
  deriving DecidableEq, Repr

/-- One element of an issue page: its raw JSON, and what it decodes to. -/
structure RawIssue where
  raw : Bytes
  issue : Option GhIssue
  deriving DecidableEq, Repr

/-- `driveFile`. -/
structure DriveFile where
  id : String
  name : String
  modifiedTime : String
  webViewLink : String
  parents : List String
  deriving DecidableEq, Repr

/-- `driveListResp`. -/
structure DriveListResp where
  nextPageToken : String
  files : List DriveFile
  deriving DecidableEq, Repr

/-- The fields of a board item the connector reads. -/
structure GhItem where
  id : String
  updatedAt : String
  url : String
  deriving DecidableEq, Repr

/-- One node of a board page: its raw JSON, and what it decodes to. -/
structure ProjectItem where
  raw : Bytes
  item : Option GhItem
  deriving DecidableEq, Repr

/-- A page of a Projects v2 board. -/
structure ProjectPage where
  nodes : List ProjectItem
  hasNextPage : Bool
  endCursor : String
  deriving DecidableEq, Repr

/-- `ghRepo`: a repository, and the account that owns it. -/
structure GhRepo where
  fullName : String
  ownerLogin : String
  /-- `"Organization"` or `"User"`. -/
  ownerType : String
  deriving DecidableEq, Repr

/-- What a connection's repositories are listed by: the grant of an App installation,
or the reach of a personal token. -/
inductive RepoListing where
  | installation
  | user
  deriving DecidableEq, Repr

/-- A Projects v2 board, by its id and title. -/
structure GhProject where
  id : String
  title : String
  deriving DecidableEq, Repr

/-- A page of an account's boards. -/
structure ProjectsPage where
  nodes : List GhProject
  hasNextPage : Bool
  endCursor : String
  deriving DecidableEq, Repr

/-- The token an OAuth code exchange returns. -/
structure OAuthToken where
  accessToken : String
  refreshToken : String
  expiry : Option Time
  deriving DecidableEq, Repr

/-- The requests the connectors and the server make to a source. -/
inductive Request where
  /-- `GET /repos/{repo}/issues`, updated-ascending; no `since` when it is empty. -/
  | issues (repo : String) (perPage page : ℕ) (since : String)
  /-- `GET /repos/{repo}/issues/{number}/comments`. -/
  | issueComments (repo : String) (number perPage page : ℕ)
  /-- The GraphQL query for the items of a board. -/
  | projectItems (board cursor : String)
  /-- `GET /drive/v3/files`, by `modifiedTime`; no lower bound when it is empty. -/
  | driveFiles (modifiedSince : String) (pageSize : ℕ) (pageToken : String)
  /-- `GET /drive/v3/files/{id}/export`. -/
  | driveExport (fileID : String)
  /-- `GET /installation/repositories` or `GET /user/repos`. -/
  | repos (via : RepoListing) (page : ℕ)
  /-- The GraphQL query for the boards of an organization or a user. -/
  | projects (organization : Bool) (login cursor : String)
  /-- The account a credential belongs to. -/
  | account (connectorID : String)
  /-- The account a GitHub App installation belongs to. -/
  | installationAccount (installationID : String)
  /-- The OAuth code exchange. -/
  | exchange (connectorID code : String)
  /-- The refresh of an OAuth token. -/
  | refreshToken (connectorID refresh : String)
  /-- The minting of an installation token. -/
  | installationToken (installationID : String)
  /-- The live installation of the App on an account. -/
  | resolveInstallation (account : String)
  /-- The removal of an installation. -/
  | uninstall (installationID : String)
  deriving DecidableEq, Repr

/-- What a request answers when it succeeds. -/
@[reducible] def Request.Reply : Request → Type
  | .issues _ _ _ _ => List RawIssue
  | .issueComments _ _ _ _ => List Bytes
  | .projectItems _ _ => ProjectPage
  | .driveFiles _ _ _ => DriveListResp
  | .driveExport _ => Bytes
  | .repos _ _ => List GhRepo
  -- neither an organization nor a user of that login
  | .projects _ _ _ => Option ProjectsPage
  | .account _ | .installationAccount _ | .installationToken _ | .resolveInstallation _ => String
  | .exchange _ _ | .refreshToken _ _ => OAuthToken
  | .uninstall _ => Unit

/-- A request for a page of a drain's listing. -/
def Request.isListing : Request → Bool
  | .issues _ _ _ _ | .projectItems _ _ | .driveFiles _ _ _ => true
  | _ => false

/-! ### Connectors -/

/-- The commands of a discovery. -/
inductive FetchCmd where
  /-- `ctx.Err() != nil`. -/
  | ctxErr
  | request (q : Request)
  deriving DecidableEq, Repr

/-- The responses to the commands of a discovery. -/
@[reducible] def FetchCmd.Resp : FetchCmd → Type
  | .ctxErr => Bool
  | .request q => Except Err q.Reply

/-- The commands of a drain: those of a discovery, and `emit`. -/
inductive SyncCmd where
  | fetch (c : FetchCmd)
  | emit (a : Artifact)
  deriving DecidableEq, Repr

/-- The responses to the commands of a drain. -/
@[reducible] def SyncCmd.Resp : SyncCmd → Type
  | .fetch c => c.Resp
  | .emit _ => Except Err Unit

/-- A program that reads a source. -/
abbrev FetchProg (α : Type) := Prog FetchCmd FetchCmd.Resp α

/-- A program that drains a unit of a source. -/
abbrev SyncProg (α : Type) := Prog SyncCmd SyncCmd.Resp α

/-- `ctx.Err() != nil`, in a drain. -/
def ctxErr : SyncProg Bool := Prog.issue (SyncCmd.fetch .ctxErr)

/-- A request to the source, in a drain. -/
def request (q : Request) : SyncProg (Except Err q.Reply) :=
  Prog.issue (SyncCmd.fetch (.request q))

/-- `emit(ctx, art)`. -/
def emit (a : Artifact) : SyncProg (Except Err Unit) := Prog.issue (SyncCmd.emit a)

/-- `connectors.Connector`, the methods the data plane calls. -/
structure Connector where
  id : String
  name : String
  archetype : String
  /-- The OAuth scopes requested. -/
  scopes : List String
  rateBudget : RateBudget
  discoverUnits : FetchProg (Except Err (List SourceUnit))
  estimateTotals : List SourceUnit → FetchProg (Except Err (List (String × ℤ)))
  /-- Drains a unit from a cursor; answers whether the stream is caught up. -/
  syncUnit : SourceUnit → String → SyncProg (Except Err Bool)

/-- `connectors.Registry`. -/
abbrev Registry := List Connector

/-- `Registry.Get`. -/
def Registry.get (reg : Registry) (id : String) : Option Connector :=
  reg.find? fun c => decide (c.id = id)

end Connectors
end Hivebook
