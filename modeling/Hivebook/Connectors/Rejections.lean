import Hivebook.Connectors.GitHub
import Hivebook.Connectors.GoogleDocs
import Hivebook.Connectors.Responses
import Hivebook.Lib.Protocol

/-!
# Connectors tell what they heard

A call of a connector fails with an error of its own making, with one of an `emit`, or with one
that the source has answered.  Of the errors that reject the credentials it makes none, and what it
returns is the last thing the source has said.

## Main definitions

* `Call`, `Decoding.receive` — which call makes a request, and what it makes of the response.
* `hearing`, `syncHearing` — whether the last request was rejected.
* `Told` — a rejection that is returned is the last one heard.

## Main results

* `status_of_rejected` — **a call is rejected by a 401, or the mint of a token by a 403.**
* `GitHub.told_discoverUnitsVia`, `GitHub.told_syncUnit`, `GoogleDocs.told_syncUnit` — the
  connectors tell what they heard.
-/

namespace Hivebook

namespace Connectors

/-! ### Requests over the wire -/

/-- The calls that make the requests. -/
inductive Call where
  | httpGet | graphqlPost | gitHubInstallationToken
  /-- The calls of the request handlers, and the refresh of an OAuth token. -/
  | other
  deriving DecidableEq, Repr

/-- The call that makes a request. -/
def Request.call : Request → Call
  | .issues _ _ _ _ | .issueComments _ _ _ _ | .driveFiles _ _ _ | .driveExport _ | .repos _ _
  | .account _ => .httpGet
  | .projectItems _ _ | .projects _ _ _ => .graphqlPost
  | .installationToken _ => .gitHubInstallationToken
  | .installationAccount _ | .exchange _ _ | .refreshToken _ _ | .resolveInstallation _
  | .uninstall _ => .other

/-- Why a request gets no response. -/
inductive TransportError where
  | deadlineExceeded | canceled
  | failed (text : String)
  deriving DecidableEq, Repr

/-- The error of the HTTP client. -/
def TransportError.err : TransportError → Err
  | .deadlineExceeded => .deadlineExceeded
  | .canceled => .canceled
  | .failed text => .failed text

/-- The URL of a request, and what JSON decoding makes of its response. -/
structure Decoding where
  url : Request → String
  /-- The body of a success. -/
  body : (q : Request) → Bytes → Except String q.Reply
  envelope : Bytes → Except String GraphqlEnvelope
  /-- The data of an envelope. -/
  data : (q : Request) → Bytes → Except String q.Reply
  /-- The reply to a query whose envelope has no data. -/
  out : (q : Request) → q.Reply
  /-- The calls that are not modelled down to the response. -/
  other : (q : Request) → Except Err HttpResponse → Except Err q.Reply

/-- What a request is answered, from the response over the wire. -/
def Decoding.receive (d : Decoding) (q : Request) (r : Except TransportError HttpResponse) :
    Except Err q.Reply :=
  let answer := r.mapError TransportError.err
  match q.call with
  | .httpGet =>
      match httpGet (d.url q) answer with
      | .error e => .error e
      | .ok body => unmarshal "" (d.body q body)
  | .graphqlPost => graphqlPost d.envelope (d.data q) (d.out q) answer
  | .gitHubInstallationToken => gitHubInstallationToken (d.body q) answer
  | .other => d.other q answer

/-- Rejected credentials, as `AsAuth` tells them. -/
def rejected {α : Type} : Except Err α → Bool
  | .error (.auth _) => true
  | _ => false

theorem rejected_iff {α : Type} {r : Except Err α} :
    rejected r = true ↔ failure? r = some .auth := by
  cases r with
  | ok a => exact ⟨nofun, nofun⟩
  | error e => cases e <;> simp [rejected, failure?]

@[simp] theorem rejected_unmarshal {α : Type} (context : String) (r : Except String α) :
    rejected (unmarshal context r) = false := by
  cases r <;> rfl

/-- Decoding rejects nothing, whatever was delivered. -/
theorem rejected_decoded {α : Type} (r : Except Err Bytes) (decode : Bytes → Except String α) :
    rejected (match r with
      | .error e => .error e
      | .ok body => unmarshal "" (decode body)) = rejected r := by
  cases r with
  | error e => cases e <;> rfl
  | ok body => exact rejected_unmarshal "" (decode body)

/-- A request without a response fails with the error of the HTTP client, which is no rejection. -/
theorem rejected_transport {d : Decoding} {q : Request} (hcall : q.call ≠ .other)
    (e : TransportError) : rejected (d.receive q (.error e)) = false := by
  have herr : d.receive q (.error e) = .error e.err := by
    unfold Decoding.receive
    cases hq : q.call with
    | other => exact absurd hq hcall
    | _ => rfl
  rw [herr]
  cases e <;> rfl

/-- **A call is rejected by a 401, or the mint of a token by a 403.** -/
theorem status_of_rejected {d : Decoding} {q : Request} {r : Except TransportError HttpResponse}
    (hcall : q.call ≠ .other) (h : rejected (d.receive q r) = true) :
    ∃ resp, r = .ok resp ∧
      (resp.status = 401 ∨ (q.call = .gitHubInstallationToken ∧ resp.status = 403)) := by
  cases r with
  | error e =>
    rw [rejected_transport hcall] at h
    cases h
  | ok resp =>
    refine ⟨resp, rfl, ?_⟩
    unfold Decoding.receive at h
    cases hq : q.call with
    | other => exact absurd hq hcall
    | httpGet =>
      rw [hq] at h
      have hget : rejected (Connectors.httpGet (d.url q) (.ok resp)) = true :=
        (rejected_decoded _ (d.body q)).symm.trans h
      exact .inl ((classified_httpGet (d.url q) resp).auth.mp (rejected_iff.mp hget))
    | graphqlPost =>
      rw [hq] at h
      have hpost := classified_graphqlPost d.envelope (d.data q) (d.out q) resp
      exact .inl (hpost.auth.mp (rejected_iff.mp h))
    | gitHubInstallationToken =>
      rw [hq] at h
      by_cases h403 : resp.status = 403
      · exact .inr ⟨rfl, h403⟩
      · left
        by_contra h401
        have hmint : rejected (Connectors.gitHubInstallationToken (d.body q) (.ok resp)) = true := h
        unfold Connectors.gitHubInstallationToken at hmint
        dsimp only at hmint
        rw [if_neg (by omega)] at hmint
        -- neither another status nor a body is a rejection
        split at hmint
        · cases hmint
        · simp at hmint

/-! ### What a connector has heard -/

/-- What a connector has heard: whether the last request was rejected. -/
def hearing : Protocol Bool FetchCmd FetchCmd.Resp where
  allowed _ _ := True
  next g
    | .ctxErr, _ => g
    | .request q, r => decide (q.call ≠ .other) && rejected r

/-- The same, of a drain. -/
def syncHearing : Protocol Bool SyncCmd SyncCmd.Resp where
  allowed _ _ := True
  next g
    | .fetch c, r => hearing.next g c r
    | .emit _, r => g || rejected r

/-- A rejection that is returned is the last one heard. -/
def Told {α : Type} (r : Except Err α) (g : Bool) : Prop := rejected r = true → g = true

theorem told_of_not_rejected {α : Type} {r : Except Err α} (h : rejected r = false) (g : Bool) :
    Told r g := by
  intro hr
  rw [h] at hr
  cases hr

theorem told_ok {α : Type} (a : α) (g : Bool) : Told (.ok a) g := told_of_not_rejected rfl g

/-- What was heard is told under another type. -/
theorem Told.error {α β : Type} {e : Err} {g : Bool} (h : Told (.error e : Except Err α) g) :
    Told (.error e : Except Err β) g := by
  intro hr
  refine h ?_
  cases e <;> first | rfl | cases hr

/-- A request is told as it was answered. -/
theorem told_request {q : Request} (hcall : q.call ≠ .other) (r : Except Err q.Reply) :
    Told r (decide (q.call ≠ .other) && rejected r) := by
  intro hr
  rw [hr, decide_eq_true hcall]
  rfl

/-- An emit is told as it was answered. -/
theorem told_emit (heard : Bool) (r : Except Err Unit) : Told r (heard || rejected r) := by
  intro hr
  rw [hr, Bool.or_true]

/-! ### The connectors tell what they heard -/

/-- A discovery may do anything. -/
theorem follows_hearing {α : Type} (p : FetchProg α) (g : Bool) :
    p.Follows hearing (fun _ _ => True) g := by
  induction p generalizing g with
  | pure a => trivial
  | call c k ih => exact ⟨trivial, fun r => ih r _⟩

namespace GitHub

theorem told_listRepos (via : RepoListing) (c : Catalog) (page remaining : ℕ) (g : Bool) :
    (listRepos via c page remaining).Follows hearing Told g := by
  induction remaining generalizing c page g with
  | zero => exact told_ok c g
  | succ remaining ih =>
    unfold listRepos
    split
    · refine ⟨trivial, fun r => ?_⟩
      cases r with
      | error e => exact (told_request (q := .repos via page) nofun (.error e)).error
      | ok rs =>
        show Prog.Follows _ _ _ (if _ then _ else _)
        split
        · exact told_ok _ _
        · exact ih _ _ _
    · exact told_ok c g

/-- **The listing of the units tells what it heard**; the boards are listed best effort. -/
theorem told_discoverUnitsVia (via : RepoListing) (deadline : ℕ)
    (order : List (String × String) → List (String × String)) (g : Bool) :
    (discoverUnitsVia via deadline order).Follows hearing Told g := by
  refine (told_listRepos via _ _ _ g).bind fun r g hr => ?_
  cases r with
  | error e => exact hr.error
  | ok c => exact (follows_hearing _ g).bind fun units g _ => told_ok units g

variable {g : GitHub}

theorem told_fetchComments (repo : String) (number : ℕ) (out : List Bytes) (page remaining : ℕ)
    (heard : Bool) : (g.fetchComments repo number out page remaining).Follows syncHearing
      (fun r heard => ∀ e, r.2 = some e → Told (.error e : Except Err Unit) heard) heard := by
  induction remaining generalizing out page heard with
  | zero => exact nofun
  | succ remaining ih =>
    refine ⟨trivial, fun b => ?_⟩
    cases b with
    | true =>
      rintro e ⟨⟩
      exact told_of_not_rejected rfl _
    | false =>
      refine ⟨trivial, fun r => ?_⟩
      cases r with
      | error e =>
        rintro e' ⟨⟩
        exact (told_request (q := .issueComments repo number g.pageSize page) nofun
          (.error e)).error
      | ok items =>
        show Prog.Follows _ _ _ (if _ then _ else _)
        split
        · exact nofun
        · exact ih _ _ _

theorem told_issueArtifact (repo : String) (raw : Bytes) (iss : GhIssue) (heard : Bool) :
    (g.issueArtifact repo raw iss).Follows syncHearing Told heard := by
  unfold issueArtifact
  split
  · exact told_ok _ _
  · refine (told_fetchComments repo iss.number [] 1 ghMaxCommentPages heard).bind
      fun r heard hr => ?_
    obtain ⟨comments, failure⟩ := r
    cases failure with
    | none => exact told_ok _ _
    | some e =>
      have hold := (hr e rfl).error (β := Bytes)
      refine ⟨trivial, fun b => ?_⟩
      cases b with
      | true => exact hold
      | false =>
        dsimp only [Prog.pure_bind]
        rw [if_neg Bool.false_ne_true]
        split
        · exact hold
        · exact hold
        · split
          · exact told_ok _ _
          · exact hold

theorem told_foldItems (unit : SourceUnit) (items : List (Bytes × GhIssue)) (heard : Bool) :
    (g.foldItems unit items).Follows syncHearing Told heard := by
  induction items generalizing heard with
  | nil => exact told_ok _ _
  | cons it items ih =>
    refine (told_issueArtifact unit.id it.1 it.2 heard).bind fun r heard hr => ?_
    cases r with
    | error e => exact hr.error
    | ok doc =>
      refine (ih heard).bind fun r heard hr => ?_
      cases r with
      | error e => exact hr.error
      | ok arts => exact told_ok _ _

/-- An element that does not decode is no rejection. -/
theorem rejected_decodePage (raws : List RawIssue) : rejected (decodePage raws) = false := by
  induction raws with
  | nil => rfl
  | cons r raws ih =>
    unfold decodePage
    split
    · rfl
    · split
      · rename_i e he
        rw [he] at ih
        exact ih
      · rfl

theorem told_foldIssuePage (unit : SourceUnit) (raws : List RawIssue) (heard : Bool) :
    (g.foldIssuePage unit raws).Follows syncHearing Told heard := by
  have hdecode := rejected_decodePage raws
  unfold foldIssuePage
  cases hpage : decodePage raws with
  | error e =>
    rw [hpage] at hdecode
    exact (told_of_not_rejected hdecode heard).error
  | ok items =>
    refine (told_foldItems unit items heard).bind fun r heard hr => ?_
    cases r with
    | error e => exact hr.error
    | ok arts =>
      refine ⟨trivial, fun b => ?_⟩
      cases b with
      | true => exact told_of_not_rejected rfl _
      | false => exact told_ok _ _

theorem told_emitPage (newPos : String) (arts : List Artifact) (heard : Bool) :
    (emitPage newPos arts).Follows syncHearing Told heard := by
  induction arts generalizing newPos heard with
  | nil => exact told_ok _ _
  | cons art arts ih =>
    refine ⟨trivial, fun r => ?_⟩
    cases r with
    | error e => exact (told_emit heard (.error e)).error
    | ok _ => exact ih _ _

/-- **The drain of a repository tells what it heard.** -/
theorem told_syncPages (unit : SourceUnit) (cursor newPos : String) (page remaining : ℕ)
    (heard : Bool) :
    (g.syncPages unit cursor newPos page remaining).Follows syncHearing Told heard := by
  induction remaining generalizing newPos page heard with
  | zero => exact told_ok _ _
  | succ remaining ih =>
    refine ⟨trivial, fun b => ?_⟩
    cases b with
    | true => exact told_ok _ _
    | false =>
      refine ⟨trivial, fun r => ?_⟩
      cases r with
      | error e =>
        exact (told_request (q := .issues unit.id g.pageSize page cursor) nofun (.error e)).error
      | ok raws =>
        refine (told_foldIssuePage unit raws _).bind fun r heard hr => ?_
        cases r with
        | error e =>
          refine ⟨trivial, fun b => ?_⟩
          cases b with
          | true => exact told_ok _ _
          | false => exact hr.error
        | ok arts =>
          refine (told_emitPage newPos arts heard).bind fun r heard hr => ?_
          cases r with
          | error e => exact hr.error
          | ok newPos =>
            show Prog.Follows _ _ _ (if _ then _ else if _ then _ else _)
            split
            · exact told_ok _ _
            · split
              · exact told_ok _ _
              · exact ih _ _ _

theorem told_emitItems (unit : SourceUnit) (nodes : List ProjectItem) (heard : Bool) :
    (emitItems unit nodes).Follows syncHearing Told heard := by
  induction nodes generalizing heard with
  | nil => exact told_ok _ _
  | cons node nodes ih =>
    unfold emitItems
    split
    · exact told_of_not_rejected rfl _
    · refine ⟨trivial, fun r => ?_⟩
      cases r with
      | error e => exact (told_emit heard (.error e)).error
      | ok _ => exact ih _

/-- **The drain of a board tells what it heard.** -/
theorem told_syncBoardPages (unit : SourceUnit) (gqlCursor : String) (remaining : ℕ)
    (heard : Bool) : (syncBoardPages unit gqlCursor remaining).Follows syncHearing Told heard := by
  induction remaining generalizing gqlCursor heard with
  | zero => exact told_ok _ _
  | succ remaining ih =>
    refine ⟨trivial, fun b => ?_⟩
    cases b with
    | true => exact told_ok _ _
    | false =>
      refine ⟨trivial, fun r => ?_⟩
      cases r with
      | error e =>
        exact (told_request (q := .projectItems unit.id gqlCursor) nofun (.error e)).error
      | ok page =>
        refine (told_emitItems unit page.nodes _).bind fun r heard hr => ?_
        cases r with
        | error e => exact hr.error
        | ok _ =>
          show Prog.Follows _ _ _ (if _ then _ else _)
          split
          · exact ih _ _
          · exact told_ok _ _

/-- **`GitHub.SyncUnit` tells what it heard.** -/
theorem told_syncUnit (unit : SourceUnit) (cursor : String) (heard : Bool) :
    (g.syncUnit unit cursor).Follows syncHearing Told heard := by
  unfold syncUnit
  split
  · exact told_syncBoardPages unit "" ghMaxPagesPerRepo heard
  · exact told_syncPages unit cursor cursor 1 g.hardCap heard

end GitHub

namespace GoogleDocs

variable {g : GoogleDocs}

theorem told_emitFiles (newPos : String) (files : List DriveFile) (heard : Bool) :
    (emitFiles newPos files).Follows syncHearing
      (fun r heard => ∀ e, r = .failed e → Told (.error e : Except Err Unit) heard) heard := by
  induction files generalizing newPos heard with
  | nil => exact nofun
  | cons f files ih =>
    refine ⟨trivial, fun b => ?_⟩
    cases b with
    | true => exact nofun
    | false =>
      refine ⟨trivial, fun r => ?_⟩
      cases r with
      | error e =>
        rintro e' ⟨⟩
        exact (told_request (q := .driveExport f.id) nofun (.error e)).error
      | ok raw =>
        refine ⟨trivial, fun r => ?_⟩
        cases r with
        | error e =>
          rintro e' ⟨⟩
          exact told_emit (hearing.next heard (.request (.driveExport f.id)) (.ok raw)) (.error e)
        | ok _ => exact ih _ _

theorem told_syncPages (cursor newPos pageToken : String) (page remaining : ℕ) (heard : Bool) :
    (g.syncPages cursor newPos pageToken page remaining).Follows syncHearing Told heard := by
  induction remaining generalizing newPos pageToken page heard with
  | zero => exact told_ok _ _
  | succ remaining ih =>
    refine ⟨trivial, fun b => ?_⟩
    cases b with
    | true => exact told_ok _ _
    | false =>
      refine ⟨trivial, fun r => ?_⟩
      cases r with
      | error e =>
        exact (told_request (q := .driveFiles cursor g.pageSize pageToken) nofun (.error e)).error
      | ok resp =>
        refine (told_emitFiles newPos resp.files _).bind fun r heard hr => ?_
        cases r with
        | stopped => exact told_ok _ _
        | failed e => exact (hr e rfl).error
        | drained newPos =>
          show Prog.Follows _ _ _ (if _ then _ else if _ then _ else _)
          split
          · exact told_ok _ _
          · split
            · exact told_ok _ _
            · exact ih _ _ _ _

/-- **`GoogleDocs.SyncUnit` tells what it heard.** -/
theorem told_syncUnit (unit : SourceUnit) (cursor : String) (heard : Bool) :
    (g.syncUnit unit cursor).Follows syncHearing Told heard :=
  told_syncPages cursor cursor "" 1 g.hardCap heard

end GoogleDocs

/-! ### The connectors of the registry -/

/-- The connectors of the registry. -/
inductive Registered : Connector → Prop
  | gdocs (g : GoogleDocs) : Registered g.connector
  | github (g : GitHub) (id : String) (via : RepoListing) (deadline : ℕ)
      (order : List (String × String) → List (String × String))
      (estimateTotals : List SourceUnit → FetchProg (Except Err (List (String × ℤ)))) :
      Registered (g.connector id (GitHub.discoverUnitsVia via deadline order) estimateTotals)

variable {connector : Connector}

/-- A registered connector tells what it heard while it lists its units. -/
theorem Registered.told_discoverUnits (h : Registered connector) (heard : Bool) :
    connector.discoverUnits.Follows hearing Told heard := by
  cases h with
  | gdocs g => exact told_ok _ heard
  | github g id via deadline order _ => exact GitHub.told_discoverUnitsVia via deadline order heard

/-- A registered connector tells what it heard while it drains a unit. -/
theorem Registered.told_syncUnit (h : Registered connector) (unit : SourceUnit) (cursor : String)
    (heard : Bool) : (connector.syncUnit unit cursor).Follows syncHearing Told heard := by
  cases h with
  | gdocs g => exact GoogleDocs.told_syncUnit unit cursor heard
  | github g id via deadline order _ => exact GitHub.told_syncUnit unit cursor heard

end Connectors
end Hivebook
