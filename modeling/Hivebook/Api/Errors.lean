import Hivebook.Api.Authenticate
import Hivebook.Api.Isolation
import Hivebook.Lib.Outcomes

/-!
# Which errors leave the API

A request passes the interceptors of the API: the caller is verified, the fields are checked, and
on the way out `sanitizeError` lets an error through only if its code is one that is meant for the
caller.  That the texts under these codes say nothing of what is inside is up to the handlers: to
those of the API, and to those of the integrations service, whose errors the API passes on.

Here nothing is known of the database, the source, the workflows, the directory and the issuer:
they answer what they like, in any interleaving, and a call to the integrations service may be lost
with any error of the transport.

## Main definitions

* `sanitizeError`, `authError` — the interceptors, as far as they concern errors.
* `publicErrors` — the errors the browser is shown.
* `RpcEnds` — how a request may end.

## Main results

* `serve_meant`, `result_meant` — the errors of the handlers under the codes that are let through.
* `errors_public` — **an error that leaves the API is one of the list**, one of the caller's own
  fields, or one of the transport under a code that is let through.
-/

namespace Hivebook
namespace Api

open Connectors Requests

/-! ### The interceptors -/

/-- `connect.Code`. -/
inductive ConnectCode where
  | canceled | unknown | invalidArgument | deadlineExceeded | notFound | alreadyExists
  | permissionDenied | resourceExhausted | failedPrecondition | aborted | outOfRange
  | unimplemented | internal | unavailable | dataLoss | unauthenticated
  deriving DecidableEq, Repr

/-- `connect.Error`. -/
structure ConnectError where
  code : ConnectCode
  message : String
  deriving DecidableEq, Repr

/-- The codes that the handlers use. -/
def connectCode : Code → ConnectCode
  | .invalidArgument => .invalidArgument
  | .notFound => .notFound
  | .unauthenticated => .unauthenticated
  | .internal => .internal
  | .failedPrecondition => .failedPrecondition
  | .permissionDenied => .permissionDenied
  | .unavailable => .unavailable

/-- An error of a handler. -/
def connectError (e : RpcError) : ConnectError := ⟨connectCode e.code, e.message⟩

/-- `clientSafeCodes`. -/
def clientSafeCodes : List ConnectCode :=
  [.invalidArgument, .notFound, .alreadyExists, .permissionDenied, .unauthenticated,
    .failedPrecondition, .resourceExhausted, .outOfRange, .unimplemented]

/-- `sanitizeError`, of an error. -/
def sanitizeError (e : ConnectError) : ConnectError :=
  if e.code ∈ clientSafeCodes then e
  else if e.code = .unavailable ∨ e.code = .deadlineExceeded then
    ⟨e.code, "service temporarily unavailable"⟩
  else ⟨e.code, "internal error"⟩

/-- `authError`. -/
def authError : AuthError → ConnectError
  | .providerNotReady => ⟨.unavailable, "auth provider not ready"⟩
  | .unauthenticated => ⟨.unauthenticated, "authentication required"⟩

/-! ### How a request may end -/

/-- The error in an answer. -/
def failure {α : Type} : Except RpcError α → Option RpcError
  | .error e => some e
  | .ok _ => none

/-- The error in the answer to a message; a stream may have sent something before it. -/
def Message.failure : (m : Message) → m.Response → Option RpcError
  | .listConnectors, r => Api.failure r
  | .getAuthorizeUrl _, r => Api.failure r
  | .completeTokenConnection _ _ _, r => Api.failure r
  | .rpc .listConnections, r => Api.failure r
  | .rpc (.triggerSync _), r => Api.failure r
  | .rpc (.stopSync _), r => Api.failure r
  | .rpc (.disconnect _), r => Api.failure r
  | .rpc (.listArtifacts _ _ _), r => Api.failure r
  | .rpc (.getArtifactContent _), r => Api.failure r
  | .rpc (.listProjects _ _), r => Api.failure r
  | .rpc (.setProjectSelection _ _), r => Api.failure r
  | .rpc (.updateSyncSchedule _ _ _), r => Api.failure r
  | .rpc (.watchConnections _), r => Api.failure r.2
  | .rpc (.watchProjects _ _), r => Api.failure r.2

/-- The error in the answer to a request. -/
def WorkspaceRequest.failure : (q : WorkspaceRequest) → q.Response → Option RpcError
  | .getSession, r => Api.failure r
  | .completeOnboarding _ _, r => Api.failure r
  | .updateTenant _, r => Api.failure r
  | .listMembers, r => Api.failure r
  | .listAuditEvents _ _, r => Api.failure r
  | .listFeatureFlags, r => Api.failure r
  | .setFeatureFlag _ _, r => Api.failure r
  | .integration q, r => q.message.failure r

/-- Any response. -/
def anything {Cmd : Type} {Resp : Cmd → Type} (c : Cmd) (_ : Resp c) : Prop :=
  True

/-- Nothing is lost. -/
def nothing {Cmd : Type} (_ : Cmd) (_ : ConnectError) : Prop := False

variable (d : Deployment) (transport : Headers → Message → ConnectError → Prop)

/-- A call is answered as the integrations service may answer it; the rest is up to the
environment. -/
def answers : (c : HopCmd) → c.Resp → Prop
  | .call h m, r => (serve d h m).Ends anything nothing (.ok r)
  | .api _, _ => True

/-- The commands of the handlers, and those on the trail and of the directory. -/
def relayed : (c : LedgerCmd) → c.Resp → Prop
  | .hop c, r => answers d c r
  | _, _ => True

/-- A call may be lost. -/
def lost : LedgerCmd → ConnectError → Prop
  | .hop (.call h m), e => transport h m e
  | _, _ => False

/-- How a request with a header may end, before `sanitizeError`; `validate` is the check of the
fields. -/
inductive RpcEnds (configured : Bool) (validate : WorkspaceRequest → Option String)
    (authz : String) (q : WorkspaceRequest) : Except ConnectError q.Response → Prop
  | turnedAway {v : Verification} {e : AuthError} :
      (authenticate authz).Ends anything nothing (.ok v) →
      v.answer = .error e → RpcEnds configured validate authz q (.error (authError e))
  | invalid {v : Verification} {id : Identity} {text : String} :
      (authenticate authz).Ends anything nothing (.ok v) →
      v.answer = .ok id → validate q = some text →
      RpcEnds configured validate authz q (.error ⟨.invalidArgument, text⟩)
  | handled {v : Verification} {id : Identity} {o : Except ConnectError q.Response} :
      (authenticate authz).Ends anything nothing (.ok v) →
      v.answer = .ok id → validate q = none →
      (q.result configured (some id)).Ends (relayed d) (lost transport) o →
      RpcEnds configured validate authz q o

/-- The error that the browser is shown. -/
def shownError {q : WorkspaceRequest} : Except ConnectError q.Response → Option ConnectError
  | .error e => some (sanitizeError e)
  | .ok r => (q.failure r).map fun e => sanitizeError (connectError e)

/-- What the browser may be shown. -/
def publicErrors : List ConnectError :=
  [⟨.unauthenticated, "authentication required"⟩,
    ⟨.unauthenticated, "missing tenant"⟩,
    -- no text of the source: the handlers of the model check the fields once more
    ⟨.invalidArgument, "validation error"⟩,
    ⟨.invalidArgument, "unknown feature flag"⟩,
    ⟨.invalidArgument, "the source rejected this token"⟩,
    ⟨.invalidArgument, "sync interval out of range"⟩,
    ⟨.notFound, "unknown connector"⟩,
    ⟨.notFound, "connection not found"⟩,
    ⟨.notFound, "artifact not found"⟩,
    ⟨.permissionDenied, "personal access tokens aren't enabled for this workspace"⟩,
    ⟨.failedPrecondition, "region cannot be changed after setup"⟩,
    ⟨.failedPrecondition, "workspace is not set up yet"⟩,
    ⟨.failedPrecondition, "tenant region not set"⟩,
    ⟨.unavailable, "service temporarily unavailable"⟩,
    ⟨.deadlineExceeded, "service temporarily unavailable"⟩,
    ⟨.canceled, "internal error"⟩,
    ⟨.unknown, "internal error"⟩,
    ⟨.aborted, "internal error"⟩,
    ⟨.internal, "internal error"⟩,
    ⟨.dataLoss, "internal error"⟩]

/-! ### The errors of the handlers -/

/-- Under a code that is let through, the error is one of the list. -/
def Meant (e : RpcError) : Prop :=
  connectCode e.code ∈ clientSafeCodes → connectError e ∈ publicErrors

instance (e : RpcError) : Decidable (Meant e) := inferInstanceAs (Decidable (_ → _))

/-- An answer whose error is meant for the caller. -/
def MeantIn {α : Type} (r : Except RpcError α) : Prop := ∀ e, failure r = some e → Meant e

theorem meantIn_ok {α : Type} (a : α) : MeantIn (.ok a : Except RpcError α) := by
  rintro e ⟨⟩

theorem meantIn_error {α : Type} {e : RpcError} (h : Meant e) :
    MeantIn (.error e : Except RpcError α) := by
  rintro e' ⟨⟩
  exact h

/-- The error of an answer is that of another one. -/
theorem MeantIn.error {α β : Type} {e : RpcError} (h : MeantIn (.error e : Except RpcError α)) :
    MeantIn (.error e : Except RpcError β) := meantIn_error (h e rfl)

/-- Whatever the program is answered, its own error is meant for the caller. -/
def Discreet {Cmd : Type} {Resp : Cmd → Type} {α : Type}
    (p : Prog Cmd Resp (Except RpcError α)) : Prop := p.Yields anything MeantIn

section Service

variable {α : Type}

theorem meantIn_requireTenant (tenant : Option String) : MeantIn (requireTenant tenant) := by
  unfold requireTenant
  split
  · split
    · exact meantIn_error (by decide)
    · exact meantIn_ok _
  · exact meantIn_error (by decide)

/-- A handler without a tenant answers with the error of `requireTenant`. -/
theorem meantIn_of_requireTenant {tenant : Option String} {e : RpcError}
    (h : requireTenant tenant = .error e) : MeantIn (.error e : Except RpcError α) := by
  have htenant := meantIn_requireTenant tenant
  rw [h] at htenant
  exact htenant.error

theorem onSite_discreet {p : Program (Except RpcError α)} (h : Discreet p) :
    Discreet (onSite p) := h.embed fun _ _ _ => trivial

theorem saveConnection_discreet (p : Database.UpsertConnectionParams) :
    Discreet (Server.saveConnection p) := by
  refine Prog.yields_then fun r => ?_
  cases r with
  | error e => exact meantIn_error (by decide)
  | ok row => exact Prog.yields_then fun _ => Prog.yields_then fun _ => meantIn_ok row

theorem completeTokenConnection_discreet (s : Server) (tenant : Option String)
    (region connectorID token name : String) :
    Discreet (s.completeTokenConnection tenant region connectorID token name) := by
  unfold Server.completeTokenConnection
  split
  · next e heq => exact meantIn_of_requireTenant heq
  · split
    · exact meantIn_error (by decide)
    · refine Prog.yields_then fun r => ?_
      cases r with
      | error e => exact meantIn_error (by decide)
      | ok login =>
        dsimp only
        split
        · exact saveConnection_discreet _
        · exact meantIn_error (by decide)

theorem serverGetAuthorizeUrl_discreet (h : Headers) (connectorID : String) :
    Discreet (serverGetAuthorizeUrl d h connectorID) := by
  unfold serverGetAuthorizeUrl
  split
  · next e heq => exact meantIn_of_requireTenant heq
  · split
    · exact meantIn_error (by decide)
    · split
      · exact meantIn_error (by decide)
      · refine Prog.yields_then fun r => ?_
        cases r with
        | error e => exact meantIn_error (by decide)
        | ok state => exact meantIn_ok _

theorem disconnect_discreet (s : Server) (tenant : Option String) (connectionID : Uuid) :
    Discreet (s.disconnect tenant connectionID) := by
  unfold Server.disconnect
  split
  · next e heq => exact meantIn_of_requireTenant heq
  · refine Prog.yields_then fun r => ?_
    cases r with
    | error e => exact meantIn_error (by decide)
    | ok conn =>
      refine Prog.yields_then fun r => ?_
      cases r with
      | error e => exact meantIn_error (by decide)
      | ok rows =>
        dsimp only
        split
        · exact meantIn_error (by decide)
        · refine Prog.yields_then fun _ => Prog.yields_then fun _ => ?_
          refine Prog.yields_then fun _ => Prog.yields_then fun _ => ?_
          exact Prog.yields_then fun _ => meantIn_ok ()

theorem setProjectSelection_discreet (tenant : Option String) (connectionID : Uuid)
    (selectedIDs : List String) :
    Discreet (Server.setProjectSelection tenant connectionID selectedIDs) := by
  unfold Server.setProjectSelection
  split
  · next e heq => exact meantIn_of_requireTenant heq
  · refine Prog.yields_then fun r => ?_
    cases r with
    | error e => exact meantIn_error (by decide)
    | ok conn =>
      refine Prog.yields_then fun r => ?_
      cases r with
      | error e => exact meantIn_error (by decide)
      | ok _ =>
        refine Prog.yields_then fun r => ?_
        cases r with
        | error e => exact meantIn_error (by decide)
        | ok _ =>
          refine Prog.yields_then fun _ => Prog.yields_then fun _ => ?_
          exact Prog.yields_then fun _ => Prog.yields_then fun _ => meantIn_ok ()

theorem forTenant_discreet {tenant : Option String}
    {handler : String → SiteProgram (Except RpcError α)} (h : ∀ t, Discreet (handler t)) :
    Discreet (forTenant tenant handler) := by
  unfold forTenant
  split
  · next e heq => exact meantIn_of_requireTenant heq
  · exact h _

theorem forConnection_discreet {tenant : Option String} {connectionID : Uuid}
    {handler : String → Connection → SiteProgram (Except RpcError α)}
    (h : ∀ t conn, Discreet (handler t conn)) :
    Discreet (forConnection tenant connectionID handler) := by
  refine forTenant_discreet fun t => Prog.yields_then fun r => ?_
  cases r with
  | error e => exact meantIn_error (by decide)
  | ok conn => exact h t conn

theorem sendConnections_discreet (tenantID : String) : Discreet (sendConnections tenantID) := by
  refine Prog.yields_then fun r => ?_
  cases r with
  | error e => exact meantIn_error (by decide)
  | ok rows => exact meantIn_ok _

theorem sendProjects_discreet (tenantID : String) (connectionID : Uuid) (search : String) :
    Discreet (sendProjects tenantID connectionID search) := by
  refine Prog.yields_then fun r => ?_
  cases r with
  | error e => exact meantIn_error (by decide)
  | ok rows => exact meantIn_ok _

/-- A stream ends with the error of a snapshot. -/
theorem watch_discreet {send : SiteProgram (Except RpcError α)} (h : Discreet send)
    (wakeups : ℕ) : (watch send wakeups).Yields anything fun r => MeantIn r.2 := by
  induction wakeups with
  | zero =>
    refine Prog.Yields.bind h fun r hr => ?_
    cases r with
    | error e => exact hr.error
    | ok a => exact meantIn_ok ()
  | succ n ih =>
    refine Prog.Yields.bind h fun r hr => ?_
    cases r with
    | error e => exact hr.error
    | ok a => exact ih.bind fun rest hrest => hrest

theorem streamTo_discreet {tenant : Option String}
    {handler : String → SiteProgram (List α × Except RpcError Unit)}
    (h : ∀ t, (handler t).Yields anything fun r => MeantIn r.2) :
    (streamTo tenant handler).Yields anything fun r => MeantIn r.2 := by
  unfold streamTo
  split
  · next e heq => exact meantIn_of_requireTenant heq
  · exact h _

theorem updateSyncSchedule_discreet (tenant : Option String) (connectionID : Uuid)
    (enabled : Bool) (interval : ℤ) :
    Discreet (Requests.updateSyncSchedule tenant connectionID enabled interval) := by
  refine forConnection_discreet fun t conn => ?_
  split
  · exact meantIn_error (by decide)
  · refine Prog.yields_then fun r => ?_
    cases r with
    | error e => exact meantIn_error (by decide)
    | ok _ => exact Prog.yields_then fun _ => Prog.yields_then fun _ => meantIn_ok ()

theorem artifactsPage_discreet (tenantID : String) (connectionID : Option Uuid)
    (rowLimit rowOffset : ℤ) :
    Discreet (artifactsPage tenantID connectionID rowLimit rowOffset) := by
  refine Prog.yields_then fun r => ?_
  cases r with
  | error e => exact meantIn_error (by decide)
  | ok rows =>
    refine Prog.yields_then fun r => ?_
    cases r with
    | error e => exact meantIn_error (by decide)
    | ok total => exact meantIn_ok _

theorem getArtifactContent_discreet (tenant : Option String) (id : Uuid) :
    Discreet (Requests.getArtifactContent tenant id) := by
  refine forTenant_discreet fun t => Prog.yields_then fun r => ?_
  cases r with
  | error e => exact meantIn_error (by decide)
  | ok row =>
    refine Prog.yields_then fun r => ?_
    cases r with
    | error e => exact meantIn_error (by decide)
    | ok object => exact meantIn_ok _

theorem triggerSync_discreet (tenant : Option String) (connectionID : Uuid) :
    Discreet (Requests.triggerSync tenant connectionID) := by
  refine forConnection_discreet fun t conn => Prog.yields_then fun r => ?_
  cases r with
  | error e => exact meantIn_error (by decide)
  | ok _ => exact Prog.yields_then fun _ => meantIn_ok ()

theorem stopSync_discreet (tenant : Option String) (connectionID : Uuid) :
    Discreet (Requests.stopSync tenant connectionID) := by
  refine forConnection_discreet fun t conn => Prog.yields_then fun r => ?_
  cases r with
  | failed => exact meantIn_error (by decide)
  | _ => exact meantIn_ok ()

/-- The error in the answer to a message is meant for the caller. -/
def MeantAnswer (m : Message) (r : m.Response) : Prop := ∀ e, m.failure r = some e → Meant e

theorem rpc_meant (s : Server) (tenant : Option String) (q : Rpc) :
    (q.prog s tenant).Yields anything (MeantAnswer (.rpc q)) := by
  cases q with
  | listConnections => exact forTenant_discreet sendConnections_discreet
  | triggerSync id => exact triggerSync_discreet tenant id
  | stopSync id => exact stopSync_discreet tenant id
  | disconnect id => exact onSite_discreet (disconnect_discreet s tenant id)
  | listArtifacts connectionID limit offset =>
    exact forTenant_discreet fun t => artifactsPage_discreet t connectionID _ _
  | getArtifactContent id => exact getArtifactContent_discreet tenant id
  | listProjects id search =>
    exact forConnection_discreet fun t conn => Prog.yields_then fun _ =>
      sendProjects_discreet t conn.id _
  | setProjectSelection id selectedIDs =>
    exact onSite_discreet (setProjectSelection_discreet tenant id selectedIDs)
  | updateSyncSchedule id enabled interval =>
    exact updateSyncSchedule_discreet tenant id enabled interval
  | watchConnections wakeups =>
    exact streamTo_discreet fun t => watch_discreet (sendConnections_discreet t) wakeups
  | watchProjects id wakeups =>
    exact streamTo_discreet fun t => watch_discreet (sendProjects_discreet t id "") wakeups

/-- **The integrations service answers with errors meant for the caller**, whatever it is answered
itself. -/
theorem serve_meant (h : Headers) (m : Message) :
    (serve d h m).Yields anything (MeantAnswer m) := by
  cases m with
  | listConnectors => exact meantIn_ok (serverListConnectors d.server)
  | getAuthorizeUrl connectorID =>
    exact Prog.Yields.embed (serverGetAuthorizeUrl_discreet d h connectorID) fun _ _ _ => trivial
  | completeTokenConnection connectorID token name =>
    refine Prog.Yields.embed (A := anything) (Q := MeantIn) ?_ fun _ _ _ => trivial
    exact Prog.Yields.embed (completeTokenConnection_discreet d.server h.tenant _ connectorID token
      name) fun _ _ _ => trivial
  | rpc q => exact Prog.Yields.embed (rpc_meant d.server h.tenant q) fun _ _ _ => trivial

end Service

/-! ### The errors of the API's own handlers -/

section Workspace

variable {α : Type} {d : Deployment} {id : Identity}

theorem call_meant (h : Headers) (m : Message) :
    (call h m).Yields (answers d) (MeantAnswer m) := by
  intro r hr
  have hanswer : (∃ a, (.ok r : Except ConnectError m.Response) = .ok a ∧ MeantAnswer m a) ∨ _ :=
    Prog.Ends.of_yields hr (serve_meant d h m)
  rcases hanswer with ⟨a, ⟨⟩, ha⟩ | ⟨c, e, ⟨⟩, -⟩
  exact ha

/-- What the API issues for a command of a handler is answered as the command is. -/
theorem expand_answers (c : HopCmd) : (Ledger.expand c).Yields (relayed d) (answers d c) := by
  cases c with
  | call h m => exact fun r hr => hr
  | api c => exact Prog.yields_true.mono fun _ _ => trivial

theorem onApi_discreet {p : ApiProgram (Except RpcError α)} (h : Discreet p) :
    (onApi p).Yields (answers d) MeantIn := Prog.Yields.embed h fun _ _ _ => trivial

theorem served_discreet {p : ApiProgram (Except RpcError α)} (h : Discreet p) :
    (Ledger.served p).Yields (relayed d) MeantIn := (onApi_discreet h).expand expand_answers

theorem authenticated_discreet {valid : Bool} {f : Identity → ApiProgram (Except RpcError α)}
    (h : Discreet (f id)) : Discreet (Api.authenticated (some id) valid f) := by
  unfold Api.authenticated
  dsimp only
  split
  · exact h
  · exact meantIn_error (by decide)

theorem getSession_discreet : Discreet (Api.getSession (some id)) := by
  refine authenticated_discreet (Prog.yields_then fun r => ?_)
  cases r with
  | error e => exact meantIn_error (by decide)
  | ok t => exact meantIn_ok _

theorem completeOnboarding_discreet (region : String) (p : Profile) :
    Discreet (Api.completeOnboarding (some id) region p) := by
  refine authenticated_discreet (Prog.yields_then fun r => ?_)
  split
  · exact meantIn_error (by decide)
  · exact meantIn_error (by decide)
  · exact Prog.yields_then fun _ => meantIn_ok _

theorem updateTenant_discreet (p : Profile) : Discreet (Api.updateTenant (some id) p) := by
  refine authenticated_discreet (Prog.yields_then fun r => ?_)
  split
  · exact meantIn_error (by decide)
  · exact meantIn_error (by decide)
  · exact Prog.yields_then fun _ => meantIn_ok _

theorem listFeatureFlags_discreet : Discreet (Api.listFeatureFlags (some id)) := by
  refine authenticated_discreet (Prog.yields_then fun r => ?_)
  cases r with
  | error e => exact meantIn_error (by decide)
  | ok overrides => exact meantIn_ok _

theorem setFeatureFlag_discreet (key : String) (enabled : Bool) :
    Discreet (Api.setFeatureFlag (some id) key enabled) := by
  refine authenticated_discreet ?_
  split
  · exact meantIn_error (by decide)
  · refine Prog.yields_then fun r => ?_
    cases r with
    | error e => exact meantIn_error (by decide)
    | ok _ => exact Prog.yields_then fun _ => meantIn_ok ()

theorem listMembers_meant (configured : Bool) :
    (Ledger.listMembers configured (some id)).Yields (relayed d) MeantIn := by
  unfold Ledger.listMembers Ledger.authenticated
  dsimp only
  split
  · split
    · refine Prog.yields_then fun r => ?_
      cases r with
      | error e => exact meantIn_error (by decide)
      | ok us => exact meantIn_ok _
    · exact meantIn_ok _
  · exact meantIn_error (by decide)

theorem listAuditEvents_meant (limit offset : ℤ) :
    (Ledger.listAuditEvents (some id) limit offset).Yields (relayed d) MeantIn := by
  unfold Ledger.listAuditEvents Ledger.authenticated
  dsimp only
  split
  · refine Prog.yields_then fun r => ?_
    cases r with
    | error e => exact meantIn_error (by decide)
    | ok page => exact meantIn_ok page
  · exact meantIn_error (by decide)

/-! ### The errors that the API passes on -/

theorem failure_fail (m : Message) (e : RpcError) : m.failure (m.fail e) = some e := by
  cases m with
  | rpc q => cases q <;> rfl
  | _ => rfl

theorem meantAnswer_fail {e : RpcError} (h : Meant e) (m : Message) :
    MeantAnswer m (m.fail e) := by
  intro e' he
  rw [failure_fail] at he
  cases he
  exact h

theorem trailed_meant {r : Except RpcError α} (action target : String) (h : MeantIn r) :
    (Proxy.trailed action target id r).Yields (answers d) MeantIn := by
  cases r with
  | error e => exact h
  | ok a => exact Prog.yields_then fun _ => meantIn_ok a

theorem tenantRequest_meant (m : Message) {k : Identity → m.Response → HopProgram m.Response}
    (hk : ∀ r, MeantAnswer m r → (k id r).Yields (answers d) (MeantAnswer m)) :
    (Proxy.tenantRequest (some id) m k).Yields (answers d) (MeantAnswer m) := by
  unfold Proxy.tenantRequest
  dsimp only
  split
  · exact meantAnswer_fail (by decide) m
  · exact Prog.Yields.bind (call_meant _ m) hk

theorem passed_meant (m : Message) :
    (Proxy.tenantRequest (some id) m Proxy.passed).Yields (answers d) (MeantAnswer m) :=
  tenantRequest_meant m fun _ hr => hr

theorem regionRequest_meant (m : Message) {k : m.Response → HopProgram m.Response}
    (hk : ∀ r, MeantAnswer m r → (k r).Yields (answers d) (MeantAnswer m)) :
    (Proxy.regionRequest id m k).Yields (answers d) (MeantAnswer m) := by
  refine Prog.yields_then fun r => ?_
  cases r with
  | error e => exact meantAnswer_fail (by decide) m
  | ok t =>
    dsimp only
    split
    · exact meantAnswer_fail (by decide) m
    · exact Prog.Yields.bind (call_meant _ m) hk

theorem connectWithToken_meant (connectorID token name : String) :
    (Proxy.connectWithToken (some id) connectorID token name).Yields (answers d) MeantIn := by
  have hflagged : (Proxy.connectFlagged id connectorID token name).Yields (answers d) MeantIn :=
    regionRequest_meant (.completeTokenConnection connectorID token name) fun r hr =>
      trailed_meant _ _ hr
  unfold Proxy.connectWithToken
  dsimp only
  split
  · refine Prog.yields_then fun r => ?_
    cases r with
    | error e => exact meantIn_error (by decide)
    | ok flags =>
      dsimp only
      split
      · exact hflagged
      · exact meantIn_error (by decide)
  · exact hflagged

theorem userRequest_meant (q : UserRequest) :
    (q.prog (some id)).Yields (answers d) (MeantAnswer q.message) := by
  cases q with
  | listConnectors => exact call_meant _ .listConnectors
  | getAuthorizeUrl connectorID =>
    exact regionRequest_meant (.getAuthorizeUrl connectorID) fun r hr => trailed_meant _ _ hr
  | connectWithToken connectorID token name => exact connectWithToken_meant connectorID token name
  | rpc q =>
    cases q with
    | triggerSync c =>
      exact tenantRequest_meant (.rpc (.triggerSync c)) fun r hr => trailed_meant _ _ hr
    | stopSync c => exact tenantRequest_meant (.rpc (.stopSync c)) fun r hr => trailed_meant _ _ hr
    | disconnect c =>
      exact tenantRequest_meant (.rpc (.disconnect c)) fun r hr => trailed_meant _ _ hr
    -- the query stays behind
    | listProjects c search => exact passed_meant (.rpc (.listProjects c ""))
    | _ => exact passed_meant (.rpc _)

/-- **The API answers with errors meant for the caller**, whatever it is answered itself. -/
theorem result_meant (configured : Bool) (q : WorkspaceRequest) :
    (q.result configured (some id)).Yields (relayed d) fun r =>
      ∀ e, q.failure r = some e → Meant e := by
  cases q with
  | getSession => exact served_discreet getSession_discreet
  | completeOnboarding region p => exact served_discreet (completeOnboarding_discreet region p)
  | updateTenant p => exact served_discreet (updateTenant_discreet p)
  | listMembers => exact listMembers_meant configured
  | listAuditEvents limit offset => exact listAuditEvents_meant limit offset
  | listFeatureFlags => exact served_discreet listFeatureFlags_discreet
  | setFeatureFlag key enabled => exact served_discreet (setFeatureFlag_discreet key enabled)
  | integration q => exact (userRequest_meant q).expand expand_answers

end Workspace

/-! ### What the browser is shown -/

section Shown

variable {d : Deployment} {transport : Headers → Message → ConnectError → Prop}
  {configured : Bool} {validate : WorkspaceRequest → Option String} {authz : String}
  {q : WorkspaceRequest} {o : Except ConnectError q.Response} {e : ConnectError}

/-- Under any other code the text is one of two. -/
theorem scrubbed_public (code : ConnectCode) : code ∉ clientSafeCodes →
    (if code = .unavailable ∨ code = .deadlineExceeded then
      ⟨code, "service temporarily unavailable"⟩
    else ⟨code, "internal error"⟩ : ConnectError) ∈ publicErrors := by
  cases code <;> decide

theorem sanitized_public (h : e.code ∈ clientSafeCodes → e ∈ publicErrors) :
    sanitizeError e ∈ publicErrors := by
  unfold sanitizeError
  split
  · next hsafe => exact h hsafe
  · next hunsafe => exact scrubbed_public e.code hunsafe

/-- **What the browser is shown of an error** is one of the list, or the text of the check of its
fields, or an error of the transport under a code that is let through. -/
theorem errors_public (h : RpcEnds d transport configured validate authz q o)
    (he : shownError o = some e) :
    e ∈ publicErrors ∨ (∃ text, validate q = some text ∧ e = ⟨.invalidArgument, text⟩) ∨
      e.code ∈ clientSafeCodes ∧ ∃ hs m, transport hs m e := by
  cases h with
  | @turnedAway v a hauth hanswer =>
    cases he
    refine .inl (sanitized_public ?_)
    cases a <;> decide
  | @invalid v id text hauth hanswer hvalid =>
    cases he
    exact .inr (.inl ⟨text, hvalid, rfl⟩)
  | @handled v id o hauth hanswer hvalid hends =>
    rcases hends.of_yields (result_meant configured q) with ⟨r, rfl, hmeant⟩ | ⟨c, e', rfl, hlost⟩
    · obtain ⟨e', hfailure, rfl⟩ := Option.map_eq_some_iff.mp he
      exact .inl (sanitized_public (hmeant e' hfailure))
    · cases he
      by_cases hsafe : e'.code ∈ clientSafeCodes
      · have hshown : sanitizeError e' = e' := if_pos hsafe
        rw [hshown]
        cases c with
        | hop c =>
          cases c with
          | call hs m => exact .inr (.inr ⟨hsafe, hs, m, hlost⟩)
          | api c => exact False.elim hlost
        | _ => exact False.elim hlost
      · exact .inl (sanitized_public fun h => absurd h hsafe)

end Shown

/-! ### A database that is down -/

/-- The claims of a token whose subject is known. -/
def annClaims : Claims := fun key => if key = "sub" then some (.string "ann") else none

/-- The owner, whose identity is in the cache. -/
def annIdentity : Identity := { sub := "ann", name := "Ann", email := "ann@acme", org := "acme" }

theorem annToken_verified :
    (authenticate "Bearer t").Ends anything nothing (.ok ⟨"ok", .ok annIdentity⟩) := by
  refine Prog.Ends.call (c := AuthCmd.loadVerifier) (r := true) trivial ?_
  refine Prog.Ends.call (c := AuthCmd.verify "t") (r := some annClaims) trivial ?_
  refine Prog.Ends.call (c := AuthCmd.get "ann") (r := some annIdentity) trivial ?_
  exact Prog.Ends.pure _

/-- `GetSession` when the tenant cannot be read. -/
theorem databaseDown_ends :
    RpcEnds sampleDeployment (fun _ _ _ => False) true (fun _ => none) "Bearer t" .getSession
      (.ok (.error ⟨.internal, "tenant lookup failed"⟩)) := by
  refine .handled annToken_verified rfl rfl ?_
  refine Prog.Ends.call (c := LedgerCmd.hop (.api (.tenant (.createTenantIfAbsent "acme"))))
    (r := Except.error (.failed "connection refused")) trivial ?_
  exact Prog.Ends.pure _

/-- The browser does not learn which lookup failed. -/
theorem databaseDown_public :
    shownError (q := .getSession) (.ok (.error ⟨.internal, "tenant lookup failed"⟩)) =
        some ⟨.internal, "internal error"⟩ ∧
      ((⟨.internal, "internal error"⟩ : ConnectError) ∈ publicErrors ∨
        (∃ text, (none : Option String) = some text ∧
          (⟨.internal, "internal error"⟩ : ConnectError) = ⟨.invalidArgument, text⟩) ∨
        ConnectCode.internal ∈ clientSafeCodes ∧ ∃ _ : Headers, ∃ _ : Message, False) :=
  ⟨by decide, errors_public databaseDown_ends (by decide)⟩

end Api
end Hivebook
