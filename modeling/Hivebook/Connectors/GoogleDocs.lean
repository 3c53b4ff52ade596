import Hivebook.Connectors.Source

/-!
# The Google Docs connector

A Drive is one unit with one `modifiedTime` stream.  The drain lists the documents
modified since the cursor page by page, following the page tokens, and exports and
emits each one in the order of the listing.

## Main definitions

* `GoogleDocs.emitFiles` — the loop over one page.
* `GoogleDocs.syncUnit` — the loop over the pages.
* `GoogleDocs.connector`.
-/

namespace Hivebook
namespace Connectors

/-- `gdocsPageSize`. -/
def gdocsPageSize : ℕ := 100

/-- `gdocsMaxPages`. -/
def gdocsMaxPages : ℕ := 10

/-- `gdocsMaxPagesHardCap`. -/
def gdocsMaxPagesHardCap : ℕ := 200

/-- `docContainer`: the parent folder of a document. -/
def docContainer (f : DriveFile) : Container :=
  { id := f.parents.head?.getD "root", kind := "drive_folder", name := "" }

/-- The artifact of an exported document. -/
def docArt (f : DriveFile) (raw : Bytes) : Artifact :=
  { sourceNativeKind := "gdoc", container := docContainer f, externalID := f.id,
    sourceURL := f.webViewLink, sourceUpdatedAt := parseRFC3339 f.modifiedTime
    contentType := "text/html", raw, cursor := f.modifiedTime }

/-- `connectors.GoogleDocs`; a zero field means its default. -/
structure GoogleDocs where
  perPage : ℕ
  maxPages : ℕ
  deriving DecidableEq, Repr

/-- `NewGoogleDocs`. -/
def newGoogleDocs : GoogleDocs := { perPage := gdocsPageSize, maxPages := gdocsMaxPages }

namespace GoogleDocs

/-- The page size in effect. -/
def pageSize (g : GoogleDocs) : ℕ := if g.perPage = 0 then gdocsPageSize else g.perPage

/-- The page budget of one run. -/
def budget (g : GoogleDocs) : ℕ := if g.maxPages = 0 then gdocsMaxPages else g.maxPages

/-- The hard ceiling on the pages of one run. -/
def hardCap (g : GoogleDocs) : ℕ := max g.budget gdocsMaxPagesHardCap

/-- How the loop over the files of a page ends. -/
inductive PageEnd where
  /-- Every file was emitted; the furthest position reached. -/
  | drained (newPos : String)
  /-- A cooperative stop between two files. -/
  | stopped
  | failed (e : Err)

/-- The loop over the files of a page: each is exported, then emitted. -/
def emitFiles (newPos : String) : List DriveFile → SyncProg PageEnd
  | [] => return .drained newPos
  | f :: fs => do
      if ← ctxErr then return .stopped
      match ← request (.driveExport f.id) with
      | .error e => return .failed e
      | .ok raw =>
          match ← emit (docArt f raw) with
          | .error e => return .failed e
          | .ok _ => emitFiles (if newPos < f.modifiedTime then f.modifiedTime else newPos) fs

/-- `GoogleDocs.SyncUnit` from a page on, with the plateau-aware budget of the
GitHub drain. -/
def syncPages (g : GoogleDocs) (cursor newPos pageToken : String) :
    (page remaining : ℕ) → SyncProg (Except Err Bool)
  | _, 0 => return .ok false
  | page, remaining + 1 => do
      if ← ctxErr then return .ok false
      match ← request (.driveFiles cursor g.pageSize pageToken) with
      | .error e => return .error e
      | .ok resp =>
          match ← emitFiles newPos resp.files with
          | .stopped => return .ok false
          | .failed e => return .error e
          | .drained newPos =>
              if resp.nextPageToken = "" then return .ok true
              else if g.budget ≤ page ∧ newPos ≠ cursor then return .ok false
              else g.syncPages cursor newPos resp.nextPageToken (page + 1) remaining

/-- `GoogleDocs.SyncUnit`; there is one unit, and it is not looked at. -/
def syncUnit (g : GoogleDocs) (_ : SourceUnit) (cursor : String) : SyncProg (Except Err Bool) :=
  g.syncPages cursor cursor "" 1 g.hardCap

/-- The one unit of a Drive. -/
def drive : SourceUnit := { id := "drive", kind := "google_drive", name := "Drive" }

/-- The connector: it lists its one unit without asking, and estimates nothing. -/
def connector (g : GoogleDocs) : Connector :=
  { id := "gdocs"
    name := "Google Docs"
    archetype := "document"
    scopes := ["https://www.googleapis.com/auth/drive.readonly",
      "https://www.googleapis.com/auth/userinfo.email"]
    rateBudget := { startConcurrency := 10, maxConcurrency := 20 }
    discoverUnits := return .ok [drive]
    estimateTotals := fun _ => return .ok []
    syncUnit := g.syncUnit }

end GoogleDocs

end Connectors
end Hivebook
