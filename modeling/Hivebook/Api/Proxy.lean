import Hivebook.Api.Handlers
import Hivebook.Server.Requests

/-!
# The API as a proxy of the integrations service

The frontend talks to the API, and the API to the integrations service: every handler of
`integrationService` builds the message again, field by field, and sends it under the headers of
the caller.  What it sends is a command here, so that a handler can be compared with the request
it serves; with the handlers of the integrations service in the place of that command it is a
program over the databases of both.

## Main definitions

* `Message`, `UserRequest` — what the integrations service takes, and what a user asks for.
* `HopCmd`, `UserRequest.prog` — the handlers of the API, with the call as a command.
* `serve`, `gateway` — the handlers of the integrations service, and the machine of both.
* `overWire` — a call that may break off; `UserRequest.Refused` — the causes of a refusal.
* `relay` — the protocol of a proxy; `Relays` — what is claimed.

## Main results

* `expand_getAuthorizeUrl`, `expand_connectWithToken` — with the integrations service in place the
  connect flows are those of the platform.
* `answers_of_follows` — **a program that follows the protocol answers what the integrations
  service answers to the request**, refuses with a cause, or was cut off.
* `proxy_faithful_iff` — **every request is relayed faithfully but a search of the projects; and
  a connect by token loses its name.**
-/

namespace Hivebook
namespace Api

open Connectors

/-! ### Messages -/

/-- `integrationv1.Connector`. -/
structure ProtoConnector where
  id : String
  name : String
  archetype : String
  deriving DecidableEq, Repr

/-- A message to the integrations service. -/
inductive Message where
  | listConnectors
  | getAuthorizeUrl (connectorID : String)
  | completeTokenConnection (connectorID token name : String)
  | rpc (q : Rpc)
  deriving DecidableEq, Repr

/-- What a message is answered. -/
@[reducible] def Message.Response : Message → Type
  | .listConnectors => Except RpcError (List ProtoConnector)
  | .getAuthorizeUrl _ => Except RpcError String
  | .completeTokenConnection _ _ _ => Except RpcError Connection
  | .rpc q => q.Response

/-- The answer that is an error; a stream then has sent nothing. -/
def Message.fail : (m : Message) → RpcError → m.Response
  | .listConnectors, e => .error e
  | .getAuthorizeUrl _, e => .error e
  | .completeTokenConnection _ _ _, e => .error e
  | .rpc .listConnections, e => .error e
  | .rpc (.triggerSync _), e => .error e
  | .rpc (.stopSync _), e => .error e
  | .rpc (.disconnect _), e => .error e
  | .rpc (.listArtifacts _ _ _), e => .error e
  | .rpc (.getArtifactContent _), e => .error e
  | .rpc (.listProjects _ _), e => .error e
  | .rpc (.setProjectSelection _ _), e => .error e
  | .rpc (.updateSyncSchedule _ _ _), e => .error e
  | .rpc (.watchConnections _), e => ([], .error e)
  | .rpc (.watchProjects _ _), e => ([], .error e)

/-- The answer to a call that broke off before its end: of a stream some messages have arrived. -/
def Message.broken (n : ℕ) (e : RpcError) : (m : Message) → m.Response → m.Response
  | .rpc (.watchConnections _), r => (r.1.take n, .error e)
  | .rpc (.watchProjects _ _), r => (r.1.take n, .error e)
  | m, _ => m.fail e

/-- A request of a user to `IntegrationService`. -/
inductive UserRequest where
  | listConnectors
  | getAuthorizeUrl (connectorID : String)
  | connectWithToken (connectorID token name : String)
  | rpc (q : Rpc)
  deriving DecidableEq, Repr

/-- The request as the integrations service takes it, with every field. -/
def UserRequest.message : UserRequest → Message
  | .listConnectors => .listConnectors
  | .getAuthorizeUrl connectorID => .getAuthorizeUrl connectorID
  | .connectWithToken connectorID token name => .completeTokenConnection connectorID token name
  | .rpc q => .rpc q

/-! ### The handlers of the API -/

/-- The commands of the API: those of its own, and a call to the integrations service. -/
inductive HopCmd where
  | api (c : ApiCmd)
  | call (h : Headers) (m : Message)
  deriving DecidableEq, Repr

/-- The responses to the commands. -/
@[reducible] def HopCmd.Resp : HopCmd → Type
  | .api c => c.Resp
  | .call _ m => m.Response

/-- A program of a handler. -/
abbrev HopProgram (α : Type) := Prog HopCmd HopCmd.Resp α

/-- A program of the API itself. -/
def onApi {α : Type} (p : ApiProgram α) : HopProgram α := p.embed HopCmd.api fun _ r => r

/-- A call to the integrations service. -/
def call (h : Headers) (m : Message) : HopProgram m.Response := Prog.issue (HopCmd.call h m)

namespace Proxy

/-- `recordSourceAudit`, once the service has answered well. -/
def trailed {α : Type} (action target : String) (id : Identity) (r : Except RpcError α) :
    HopProgram (Except RpcError α) := do
  match r with
  | .error e => return .error e
  | .ok a =>
      onApi (recordAudit id action target)
      return .ok a

/-- `tenantRequest`: the message under the caller's tenant, and what is done with the answer. -/
def tenantRequest (id : Option Identity) (m : Message)
    (k : Identity → m.Response → HopProgram m.Response) : HopProgram m.Response :=
  match id with
  | none => return m.fail ⟨.unauthenticated, "no identity"⟩
  | some id =>
      match sendHeaders id.org none with
      | none => return m.fail badHeader
      | some h => do k id (← call h m)

/-- The message under the caller's tenant and its region, which the tenant record has. -/
def regionRequest (id : Identity) (m : Message) (k : m.Response → HopProgram m.Response) :
    HopProgram m.Response := do
  match ← onApi (getOrCreateTenant id.org) with
  | .error _ => return m.fail ⟨.internal, "tenant lookup failed"⟩
  | .ok t =>
      match sendHeaders id.org t.region with
      | none => return m.fail badHeader
      | some h => do k (← call h m)

/-- The answer is passed on. -/
def passed {α : Type} (_ : Identity) (r : α) : HopProgram α := return r

/-- `ListConnectors`, which depends on no tenant. -/
def listConnectors : HopProgram (Except RpcError (List ProtoConnector)) :=
  call ⟨none, none⟩ .listConnectors

/-- `GetAuthorizeUrl`. -/
def getAuthorizeUrl (id : Option Identity) (connectorID : String) :
    HopProgram (Except RpcError String) :=
  match id with
  | none => return .error ⟨.unauthenticated, "no identity"⟩
  | some id => regionRequest id (.getAuthorizeUrl connectorID)
      (trailed "source.connect_started" connectorID id)

/-- The part of `ConnectWithToken` behind the feature flag. -/
def connectFlagged (id : Identity) (connectorID token name : String) :
    HopProgram (Except RpcError Connection) :=
  regionRequest id (.completeTokenConnection connectorID token name)
    (trailed "source.connected" connectorID id)

/-- `ConnectWithToken`. -/
def connectWithToken (id : Option Identity) (connectorID token name : String) :
    HopProgram (Except RpcError Connection) :=
  match id with
  | none => return .error ⟨.unauthenticated, "no identity"⟩
  | some id => do
      if connectorID = "github_pat" then
        match ← onApi (getFeatureFlags id.org) with
        | .error _ => return .error ⟨.internal, "flag lookup failed"⟩
        | .ok flags =>
            if featureFlagEnabled flags "github_pat" then connectFlagged id connectorID token name
            else return .error ⟨.permissionDenied,
              "personal access tokens aren't enabled for this workspace"⟩
      else connectFlagged id connectorID token name

/-- `ListConnections`. -/
def listConnections (id : Option Identity) :
    HopProgram (Except RpcError (List Requests.ProtoConnection)) :=
  tenantRequest id (.rpc .listConnections) passed

/-- `TriggerSync`. -/
def triggerSync (id : Option Identity) (connectionID : Uuid) :
    HopProgram (Except RpcError Unit) :=
  tenantRequest id (.rpc (.triggerSync connectionID))
    (trailed "source.sync_triggered" (toString connectionID))

/-- `StopSync`. -/
def stopSync (id : Option Identity) (connectionID : Uuid) : HopProgram (Except RpcError Unit) :=
  tenantRequest id (.rpc (.stopSync connectionID))
    (trailed "source.sync_stopped" (toString connectionID))

/-- `Disconnect`. -/
def disconnect (id : Option Identity) (connectionID : Uuid) : HopProgram (Except RpcError Unit) :=
  tenantRequest id (.rpc (.disconnect connectionID))
    (trailed "source.disconnected" (toString connectionID))

/-- `ListArtifacts`. -/
def listArtifacts (id : Option Identity) (connectionID : Option Uuid) (limit offset : ℕ) :
    HopProgram (Except RpcError ListArtifactsResponse) :=
  tenantRequest id (.rpc (.listArtifacts connectionID limit offset)) passed

/-- `GetArtifactContent`. -/
def getArtifactContent (id : Option Identity) (artifactID : Uuid) :
    HopProgram (Except RpcError GetArtifactContentResponse) :=
  tenantRequest id (.rpc (.getArtifactContent artifactID)) passed

/-- `ListProjects`: only the connection is copied, and the query stays behind. -/
def listProjects (id : Option Identity) (connectionID : Uuid) (_search : String) :
    HopProgram (Except RpcError (List Requests.ProtoProject)) :=
  tenantRequest id (.rpc (.listProjects connectionID "")) passed

/-- `SetProjectSelection`. -/
def setProjectSelection (id : Option Identity) (connectionID : Uuid) (selectedIDs : List String) :
    HopProgram (Except RpcError Unit) :=
  tenantRequest id (.rpc (.setProjectSelection connectionID selectedIDs)) passed

/-- `UpdateSyncSchedule`. -/
def updateSyncSchedule (id : Option Identity) (connectionID : Uuid) (enabled : Bool)
    (interval : ℤ) : HopProgram (Except RpcError Unit) :=
  tenantRequest id (.rpc (.updateSyncSchedule connectionID enabled interval)) passed

/-- `WatchConnections`, which relays every snapshot. -/
def watchConnections (id : Option Identity) (wakeups : ℕ) :
    HopProgram (List (List Requests.ProtoConnection) × Except RpcError Unit) :=
  tenantRequest id (.rpc (.watchConnections wakeups)) passed

/-- `WatchProjects`, which relays every snapshot. -/
def watchProjects (id : Option Identity) (connectionID : Uuid) (wakeups : ℕ) :
    HopProgram (List (List Requests.ProtoProject) × Except RpcError Unit) :=
  tenantRequest id (.rpc (.watchProjects connectionID wakeups)) passed

end Proxy

/-- The handler of a request. -/
def UserRequest.prog (id : Option Identity) : (q : UserRequest) → HopProgram q.message.Response
  | .listConnectors => Proxy.listConnectors
  | .getAuthorizeUrl connectorID => Proxy.getAuthorizeUrl id connectorID
  | .connectWithToken connectorID token name => Proxy.connectWithToken id connectorID token name
  | .rpc .listConnections => Proxy.listConnections id
  | .rpc (.triggerSync connectionID) => Proxy.triggerSync id connectionID
  | .rpc (.stopSync connectionID) => Proxy.stopSync id connectionID
  | .rpc (.disconnect connectionID) => Proxy.disconnect id connectionID
  | .rpc (.listArtifacts connectionID limit offset) =>
      Proxy.listArtifacts id connectionID limit offset
  | .rpc (.getArtifactContent artifactID) => Proxy.getArtifactContent id artifactID
  | .rpc (.listProjects connectionID search) => Proxy.listProjects id connectionID search
  | .rpc (.setProjectSelection connectionID selectedIDs) =>
      Proxy.setProjectSelection id connectionID selectedIDs
  | .rpc (.updateSyncSchedule connectionID enabled interval) =>
      Proxy.updateSyncSchedule id connectionID enabled interval
  | .rpc (.watchConnections wakeups) => Proxy.watchConnections id wakeups
  | .rpc (.watchProjects connectionID wakeups) => Proxy.watchProjects id connectionID wakeups

/-- `Server.ConnectWithToken`, of the integrations service: it delegates to
`CompleteTokenConnection` under the headers it was called with, and the name is not copied. -/
def serverConnectWithToken (h : Headers) (connectorID token _name : String) :
    HopProgram (Except RpcError Connection) :=
  call h (.completeTokenConnection connectorID token "")

/-! ### The handlers of the integrations service -/

/-- The commands of both services. -/
inductive GatewayCmd where
  | api (c : ApiCmd)
  | site (c : SiteCmd)
  /-- The way of a request, or of its answer, between the services. -/
  | transport
  deriving DecidableEq, Repr

/-- The responses to the commands. -/
@[reducible] def GatewayCmd.Resp : GatewayCmd → Type
  | .api c => c.Resp
  | .site c => c.Resp
  -- how many messages have arrived, and the error, if the call breaks off
  | .transport => Option (ℕ × RpcError)

/-- A program of both services. -/
abbrev GatewayProgram (α : Type) := Prog GatewayCmd GatewayCmd.Resp α

/-- The databases of both services. -/
structure Gateway where
  site : Site
  tenants : Tenants

/-- What the environment decides about one command. -/
structure GatewayChoice where
  api : ApiChoice
  site : SiteChoice
  /-- A connection that is refused or lost, and the timeout of the client. -/
  transport : Option (ℕ × RpcError)

/-- The machine of both services. -/
def gateway (sg : Signer) (lower : String → String) :
    Machine Gateway GatewayChoice GatewayCmd GatewayCmd.Resp where
  perform x cancelled w
    | .api c =>
        let r := (platform sg).perform x.api cancelled ⟨w.site.world, w.tenants⟩ c
        (⟨{ w.site with world := r.1.service }, r.1.tenants⟩, r.2)
    | .site c =>
        let r := (Hivebook.site lower).perform x.site cancelled w.site c
        ({ w with site := r.1 }, r.2)
    | .transport => (w, x.transport)

/-- `Server.ListConnectors`. -/
def serverListConnectors (s : Server) : List ProtoConnector :=
  s.reg.map fun c => { id := c.id, name := c.name, archetype := c.archetype }

variable (d : Deployment)

/-- The handler of a message, with the headers it comes with. -/
def serve (h : Headers) : (m : Message) → GatewayProgram m.Response
  | .listConnectors => return .ok (serverListConnectors d.server)
  | .getAuthorizeUrl connectorID =>
      (serverGetAuthorizeUrl d h connectorID).embed GatewayCmd.api fun _ r => r
  | .completeTokenConnection connectorID token name =>
      (onService (d.server.completeTokenConnection h.tenant (h.region.getD "") connectorID token
        name)).embed GatewayCmd.api fun _ r => r
  | .rpc q => (q.prog d.server h.tenant).embed GatewayCmd.site fun _ r => r

/-- What the API does for a command of a handler: a call is answered by the integrations
service. -/
def hop : (c : HopCmd) → GatewayProgram c.Resp
  | .api c => Prog.issue (GatewayCmd.api c)
  | .call h m => serve d h m

/-- The same over the wire: the call may break off before the integrations service has got the
request, or before its answer has arrived. -/
def overWire : (c : HopCmd) → GatewayProgram c.Resp
  | .api c => Prog.issue (GatewayCmd.api c)
  | .call h m => do
      match ← (Prog.issue GatewayCmd.transport : GatewayProgram _) with
      | some (_, e) => return m.fail e
      | none =>
          let r ← serve d h m
          match ← (Prog.issue GatewayCmd.transport : GatewayProgram _) with
          | some (n, e) => return m.broken n e r
          | none => return r

/-! ### The connect flows, with the call in place -/

/-- A program of the platform, as one of both services. -/
def onPlatform {α : Type} (p : ApiProgram α) : GatewayProgram α :=
  p.embed GatewayCmd.api fun _ r => r

theorem expand_onApi {α : Type} (p : ApiProgram α) : (onApi p).expand (hop d) = onPlatform p := by
  induction p with
  | pure a => rfl
  | call c k ih =>
    show (Prog.issue (GatewayCmd.api c)).bind (fun r => (onApi (k r)).expand (hop d)) = _
    rw [Prog.issue_bind]
    exact congrArg (Prog.call (GatewayCmd.api c)) (funext ih)

theorem onPlatform_bind {α β : Type} (p : ApiProgram α) (f : α → ApiProgram β) :
    onPlatform (p.bind f) = (onPlatform p).bind fun a => onPlatform (f a) :=
  Prog.embed_bind _ _ p f

/-- What follows the lookup of the tenant is the call, and then the trail. -/
theorem expand_regionRequest {m : Message} (id : Identity)
    {k : m.Response → HopProgram m.Response} {f : Except Err Tenant → ApiProgram m.Response}
    (hfail : ∀ e, f (.error e) = .pure (m.fail ⟨.internal, "tenant lookup failed"⟩))
    (hbad : ∀ t, sendHeaders id.org t.region = none → f (.ok t) = .pure (m.fail badHeader))
    (hcall : ∀ t h, sendHeaders id.org t.region = some h →
      (serve d h m).bind (fun r => (k r).expand (hop d)) = onPlatform (f (.ok t))) :
    (Proxy.regionRequest id m k).expand (hop d) =
      onPlatform ((getOrCreateTenant id.org).bind f) := by
  unfold Proxy.regionRequest
  rw [Prog.bind_eq, Prog.expand_bind, expand_onApi, onPlatform_bind]
  refine congrArg (Prog.bind _) (funext fun t => ?_)
  cases t with
  | error e =>
    rw [hfail]
    rfl
  | ok t =>
    dsimp only
    cases hsend : sendHeaders id.org t.region with
    | none =>
      rw [hbad t hsend]
      rfl
    | some h =>
      rw [← hcall t h hsend]
      rfl

theorem expand_trailed_ok {α : Type} (action target : String) (id : Identity) (a : α) :
    (Proxy.trailed action target id (.ok a)).expand (hop d) =
      onPlatform ((recordAudit id action target).bind fun _ => .pure (.ok a)) := by
  show ((onApi (recordAudit id action target)).bind fun _ =>
    .pure (Except.ok a : Except RpcError α)).expand (hop d) = _
  rw [Prog.expand_bind, expand_onApi, onPlatform_bind]
  rfl

/-- **With the integrations service in place, the handler is the one of the platform.** -/
theorem expand_getAuthorizeUrl (id : Option Identity) {connectorID : String}
    (hid : 1 ≤ connectorID.length) : (Proxy.getAuthorizeUrl id connectorID).expand (hop d) =
      onPlatform (Api.getAuthorizeUrl d id connectorID) := by
  unfold Proxy.getAuthorizeUrl Api.getAuthorizeUrl authenticated
  cases id with
  | none => rfl
  | some id =>
    dsimp only
    rw [if_pos (decide_eq_true hid)]
    refine expand_regionRequest d id (fun e => rfl) ?_ ?_
    · intro t hsend
      dsimp only
      rw [hsend]
      rfl
    · intro t h hsend
      dsimp only
      rw [hsend]
      dsimp only
      rw [Prog.bind_eq, onPlatform_bind]
      refine congrArg (Prog.bind _) (funext fun r => ?_)
      cases r with
      | error e => rfl
      | ok url => exact expand_trailed_ok d _ _ id url

theorem expand_connectFlagged (id : Identity) (connectorID token name : String) :
    (Proxy.connectFlagged id connectorID token name).expand (hop d) =
      onPlatform (Api.connectFlagged d id connectorID token name) := by
  refine expand_regionRequest d id (fun e => rfl) ?_ ?_
  · intro t hsend
    dsimp only
    rw [hsend]
    rfl
  · intro t h hsend
    dsimp only
    rw [hsend]
    dsimp only
    rw [Prog.bind_eq, onPlatform_bind]
    refine congrArg (Prog.bind _) (funext fun r => ?_)
    cases r with
    | error e => rfl
    | ok conn => exact expand_trailed_ok d _ _ id conn

/-- The same of `ConnectWithToken`. -/
theorem expand_connectWithToken (id : Option Identity) {connectorID token name : String}
    (hvalid : 1 ≤ connectorID.length ∧ 1 ≤ token.length ∧ name.length ≤ 100) :
    (Proxy.connectWithToken id connectorID token name).expand (hop d) =
      onPlatform (Api.connectWithToken d id connectorID token name) := by
  unfold Proxy.connectWithToken Api.connectWithToken authenticated
  cases id with
  | none => rfl
  | some id =>
    dsimp only
    have hif : (decide (1 ≤ connectorID.length) && decide (1 ≤ token.length) &&
        decide (name.length ≤ 100)) = true := by simp [hvalid]
    rw [if_pos hif]
    by_cases hpat : connectorID = "github_pat"
    · rw [if_pos hpat, if_pos hpat, Prog.bind_eq, Prog.expand_bind, expand_onApi, Prog.bind_eq,
        onPlatform_bind]
      refine congrArg (Prog.bind _) (funext fun flags => ?_)
      cases flags with
      | error e => rfl
      | ok flags =>
        dsimp only
        by_cases hflag : featureFlagEnabled flags "github_pat" = true
        · rw [if_pos hflag, if_pos hflag]
          exact expand_connectFlagged d id connectorID token name
        · rw [if_neg hflag, if_neg hflag]
          rfl
    · rw [if_neg hpat, if_neg hpat]
      exact expand_connectFlagged d id connectorID token name

/-! ### What is claimed -/

/-- The headers under which a request of a caller is sent: the tenant's, and perhaps the
region's; the list of connectors depends on no tenant. -/
def UserRequest.headers (id : Option Identity) (h : Headers) : UserRequest → Prop
  | .listConnectors => h = ⟨none, none⟩
  | _ => ∃ i region, id = some i ∧ sendHeaders i.org region = some h

/-- A statement of the API, and its answer. -/
abbrev Asked := (s : TenantStatement) × Except Err s.Reply

/-- What the API asks its database in a run. -/
def asked (sg : Signer) (lower : String → String)
    (ls : List (Performed Gateway GatewayChoice GatewayCmd)) : List Asked :=
  ls.filterMap fun
    | ⟨w, .api (.tenant s), b, x⟩ =>
        some ⟨s, ((gateway sg lower).perform x b w (.api (.tenant s))).2⟩
    | _ => none

/-- The region that goes into the headers of a request: of those that start a connection that of
the tenant record, as it was read, and of the others none. -/
def UserRequest.region (i : Identity) (as : List Asked) (region : Option String) :
    UserRequest → Prop
  | .listConnectors => False
  | .getAuthorizeUrl _ | .connectWithToken _ _ _ =>
      ∃ t, ⟨.getTenantByOrg i.org, .ok t⟩ ∈ as ∧ t.region = region
  | .rpc _ => region = none

/-- Why a request of a caller is refused before anything is sent. -/
inductive UserRequest.Refused (q : UserRequest) :
    Option Identity → List Asked → RpcError → Prop
  | noIdentity {as : List Asked} : q ≠ .listConnectors →
      Refused q none as ⟨.unauthenticated, "no identity"⟩
  /-- The tenant, or its region, is no value of a header. -/
  | badHeader {i : Identity} {as : List Asked} {region : Option String} :
      q.region i as region → sendHeaders i.org region = none → Refused q (some i) as badHeader
  /-- A connection is to be started, and the tenant record cannot be read. -/
  | lookupFailed {i : Identity} {as : List Asked} {e : Err} :
      (∀ q', q ≠ .rpc q') → q ≠ .listConnectors →
      (⟨.createTenantIfAbsent i.org, .error e⟩ ∈ as ∨ ⟨.getTenantByOrg i.org, .error e⟩ ∈ as) →
      Refused q (some i) as ⟨.internal, "tenant lookup failed"⟩
  /-- A personal token is to be connected, and the flags cannot be read. -/
  | flagsFailed {i : Identity} {as : List Asked} {token name : String} {e : Err} :
      q = .connectWithToken "github_pat" token name → e ≠ .noRows →
      ⟨.getFeatureFlags i.org, .error e⟩ ∈ as →
      Refused q (some i) as ⟨.internal, "flag lookup failed"⟩
  /-- A personal token is to be connected, and the flag is off. -/
  | flagOff {i : Identity} {as : List Asked} {token name : String}
      {flags : List (String × Bool)} :
      q = .connectWithToken "github_pat" token name →
      (⟨.getFeatureFlags i.org, .ok flags⟩ ∈ as ∨
        flags = [] ∧ ⟨.getFeatureFlags i.org, .error .noRows⟩ ∈ as) →
      featureFlagEnabled flags "github_pat" = false →
      Refused q (some i) as
        ⟨.permissionDenied, "personal access tokens aren't enabled for this workspace"⟩

/-- A handler relays a message under some headers, or refuses it for a reason. -/
structure Relays (lower : String → String) {m : Message} (H : Headers → Prop)
    (C : List Asked → RpcError → Prop) (p : HopProgram m.Response) : Prop where
  /-- Whatever is sent is the message itself. -/
  carries : p.Uses fun c => ∀ h m', c = .call h m' → H h ∧ m' = m
  /-- In the midst of whatever else goes on the answer is the one that the integrations service
  gives to the message, unless the handler has refused for a reason before anything was sent, or
  the call has broken off. -/
  answers : ∀ ls r, Log (gateway d.signer lower) (p.expand (overWire d)) ls (.pure r) →
    (∃ e, r = m.fail e ∧ C (asked d.signer lower ls) e ∧
      ∀ l ∈ ls, ∃ s, l.cmd = .api (.tenant s)) ∨
    (∃ h ls', H h ∧ ls' <:+: ls ∧ Log (gateway d.signer lower) (serve d h m) ls' (.pure r)) ∨
    ∃ n e, (∃ l ∈ ls, l.cmd = .transport ∧ l.choice.transport = some (n, e)) ∧
      (r = m.fail e ∨ ∃ h ls' r', H h ∧ ls' <:+: ls ∧
        Log (gateway d.signer lower) (serve d h m) ls' (.pure r') ∧ r = m.broken n e r')

/-- The request has a field that is not copied. -/
def UserRequest.loses : UserRequest → Bool
  | .rpc (.listProjects _ search) => decide (search ≠ "")
  | _ => false

/-! ### The protocol of a proxy -/

section Relay

/-- How far a handler is: what it has asked, and what the call was answered. -/
structure Relaying (m : Message) where
  asked : List Asked
  answer : Option m.Response

/-- A statement was answered. -/
def Relaying.ask {m : Message} (g : Relaying m) (s : TenantStatement) (r : Except Err s.Reply) :
    Relaying m :=
  { g with asked := g.asked ++ [⟨s, r⟩] }

/-- The protocol of a proxy: statements of the API, and one call, of the message itself. -/
def relay (m : Message) (H : Headers → Prop) : Protocol (Relaying m) HopCmd HopCmd.Resp where
  allowed g c :=
    match c with
    | .api c => ∃ s, c = .tenant s
    | .call h m' => g.answer = none ∧ H h ∧ m' = m
  next g c r :=
    match c, r with
    | .api (.tenant s), r => g.ask s r
    | .api _, _ => g
    | .call _ m', r => if hm : m' = m then { g with answer := some (hm ▸ r) } else g

/-- The answer of the call is passed on; without a call there is an error, with its cause. -/
def Relayed (m : Message) (C : List Asked → RpcError → Prop) (r : m.Response) (g : Relaying m) :
    Prop :=
  match g.answer with
  | none => ∃ e, r = m.fail e ∧ C g.asked e
  | some a => r = a

variable {d} {m : Message} {H : Headers → Prop} {C : List Asked → RpcError → Prop}
  {lower : String → String} {ls : List (Performed Gateway GatewayChoice GatewayCmd)}

theorem relay_next_call (g : Relaying m) (h : Headers) (r : m.Response) :
    (relay m H).next g (.call h m) r = { g with answer := some r } := by
  simp [relay]

theorem carries_of_follows {p : HopProgram m.Response} {Q : m.Response → Relaying m → Prop}
    {g : Relaying m} (h : p.Follows (relay m H) Q g) :
    p.Uses fun c => ∀ h m', c = .call h m' → H h ∧ m' = m := by
  induction p generalizing g with
  | pure r => trivial
  | call c k ih =>
    refine ⟨?_, fun r => ih r (h.2 r)⟩
    rintro hd m' rfl
    exact h.1.2

/-- After the call the handler passes the answer on. -/
theorem passes_of_follows {p : HopProgram m.Response} {g : Relaying m} {a r : m.Response}
    (h : p.Follows (relay m H) (Relayed m C) g) (hg : g.answer = some a)
    (hrun : Log (gateway d.signer lower) (p.expand (overWire d)) ls (.pure r)) : r = a := by
  induction p generalizing g ls with
  | pure r' =>
    obtain ⟨-, heq⟩ := hrun.of_pure
    cases heq
    have hrelayed : Relayed m C r g := h
    unfold Relayed at hrelayed
    rw [hg] at hrelayed
    exact hrelayed
  | call c k ih =>
    cases c with
    | api c =>
      obtain ⟨s, rfl⟩ := h.1
      rcases Log.of_call hrun with ⟨-, heq⟩ | ⟨w, b, x, ls', rfl, hrest⟩
      · cases heq
      · exact ih _ (h.2 _) hg hrest
    | call hd m' =>
      obtain ⟨hnone, -⟩ := h.1
      rw [hg] at hnone
      cases hnone

/-- A call over the wire is answered as the integrations service answers, or it breaks off. -/
theorem of_overWire_call {hd : Headers} {a : m.Response}
    (hrun : Log (gateway d.signer lower) (overWire d (.call hd m)) ls (.pure a)) :
    (∃ ls', ls' <:+: ls ∧ Log (gateway d.signer lower) (serve d hd m) ls' (.pure a)) ∨
      ∃ n e, (∃ l ∈ ls, l.cmd = .transport ∧ l.choice.transport = some (n, e)) ∧
        (a = m.fail e ∨ ∃ ls' r', ls' <:+: ls ∧
          Log (gateway d.signer lower) (serve d hd m) ls' (.pure r') ∧ a = m.broken n e r') := by
  rcases Log.of_call hrun with ⟨-, heq⟩ | ⟨w, b, x, ls', rfl, hrest⟩
  · cases heq
  -- the request arrives, or it does not
  have hsent : ((gateway d.signer lower).perform x b w .transport).2 = x.transport := rfl
  cases hx : x.transport with
  | some broken =>
    obtain ⟨n, e⟩ := broken
    rw [hsent, hx] at hrest
    obtain ⟨rfl, heq⟩ := Log.of_pure hrest
    cases heq
    exact .inr ⟨n, e, ⟨_, List.mem_cons_self .., rfl, hx⟩, .inl rfl⟩
  | none =>
    rw [hsent, hx] at hrest
    change Log _ ((serve d hd m).bind _) _ _ at hrest
    obtain ⟨ls₁, ls₂, r, rfl, hserve, hback⟩ := Log.returns_bind hrest
    have hpart : ls₁ <:+: ⟨w, .transport, b, x⟩ :: (ls₁ ++ ls₂) :=
      ⟨[⟨w, .transport, b, x⟩], ls₂, by simp⟩
    rcases Log.of_call hback with ⟨-, heq⟩ | ⟨w', b', x', ls₃, rfl, hend⟩
    · cases heq
    have hanswered : ((gateway d.signer lower).perform x' b' w' .transport).2 = x'.transport := rfl
    cases hx' : x'.transport with
    | some broken =>
      obtain ⟨n, e⟩ := broken
      rw [hanswered, hx'] at hend
      obtain ⟨rfl, heq⟩ := Log.of_pure hend
      cases heq
      have hlast : (⟨w', .transport, b', x'⟩ : Performed _ _ _) ∈
          ⟨w, .transport, b, x⟩ :: (ls₁ ++ [⟨w', .transport, b', x'⟩]) := by simp
      exact .inr ⟨n, e, ⟨_, hlast, rfl, hx'⟩, .inr ⟨ls₁, r, hpart, hserve, rfl⟩⟩
    | none =>
      rw [hanswered, hx'] at hend
      obtain ⟨rfl, heq⟩ := Log.of_pure hend
      cases heq
      exact .inl ⟨ls₁, hpart, hserve⟩

/-- **A program that follows the protocol answers what the integrations service answers to the
message**, refuses with a cause, or was cut off. -/
theorem answers_of_follows {p : HopProgram m.Response} {g : Relaying m} {r : m.Response}
    (h : p.Follows (relay m H) (Relayed m C) g) (hg : g.answer = none)
    (hrun : Log (gateway d.signer lower) (p.expand (overWire d)) ls (.pure r)) :
    (∃ e, r = m.fail e ∧ C (g.asked ++ asked d.signer lower ls) e ∧
      ∀ l ∈ ls, ∃ s, l.cmd = .api (.tenant s)) ∨
    (∃ h ls', H h ∧ ls' <:+: ls ∧ Log (gateway d.signer lower) (serve d h m) ls' (.pure r)) ∨
    ∃ n e, (∃ l ∈ ls, l.cmd = .transport ∧ l.choice.transport = some (n, e)) ∧
      (r = m.fail e ∨ ∃ h ls' r', H h ∧ ls' <:+: ls ∧
        Log (gateway d.signer lower) (serve d h m) ls' (.pure r') ∧ r = m.broken n e r') := by
  induction p generalizing g ls with
  | pure r' =>
    obtain ⟨rfl, heq⟩ := hrun.of_pure
    cases heq
    have hrelayed : Relayed m C r g := h
    unfold Relayed at hrelayed
    rw [hg] at hrelayed
    obtain ⟨e, hfail, hcause⟩ := hrelayed
    exact .inl ⟨e, hfail, by simpa [asked] using hcause, by simp⟩
  | call c k ih =>
    cases c with
    | api c =>
      obtain ⟨s, rfl⟩ := h.1
      rcases Log.of_call hrun with ⟨-, heq⟩ | ⟨w, b, x, ls', rfl, hrest⟩
      · cases heq
      have hpart : ls' <:+: ⟨w, .api (.tenant s), b, x⟩ :: ls' := (List.suffix_cons _ _).isInfix
      rcases ih _ (h.2 _) hg hrest with ⟨e, hfail, hcause, hcmds⟩ | ⟨hd, ls'', hH, hsub, hserve⟩ |
        ⟨n, e, ⟨l, hl, hlost⟩, hbroken⟩
      · refine .inl ⟨e, hfail, ?_, fun l hl => ?_⟩
        · -- the statement is the first that was asked
          have hasked : ∀ reply, (relay m H).next g (.api (.tenant s)) reply = g.ask s reply :=
            fun _ => rfl
          rw [hasked] at hcause
          simpa [Relaying.ask, asked] using hcause
        · rcases List.mem_cons.mp hl with rfl | hl
          · exact ⟨s, rfl⟩
          · exact hcmds l hl
      · exact .inr (.inl ⟨hd, ls'', hH, hsub.trans hpart, hserve⟩)
      · refine .inr (.inr ⟨n, e, ⟨l, List.mem_cons_of_mem _ hl, hlost⟩, hbroken.imp_right ?_⟩)
        rintro ⟨hd, ls'', r', hH, hsub, hserve, heq⟩
        exact ⟨hd, ls'', r', hH, hsub.trans hpart, hserve, heq⟩
    | call hd m' =>
      obtain ⟨-, hH, rfl⟩ := h.1
      obtain ⟨ls₁, ls₂, a, rfl, hcall, hrest⟩ := Log.returns_bind hrun
      have hk := h.2 a
      rw [relay_next_call] at hk
      obtain rfl := passes_of_follows hk rfl hrest
      have hpart : ls₁ <:+: ls₁ ++ ls₂ := (List.prefix_append ls₁ ls₂).isInfix
      rcases of_overWire_call hcall with ⟨ls', hsub, hserve⟩ | ⟨n, e, ⟨l, hl, hlost⟩, hbroken⟩
      · exact .inr (.inl ⟨hd, ls', hH, hsub.trans hpart, hserve⟩)
      · refine .inr (.inr ⟨n, e, ⟨l, List.mem_append_left _ hl, hlost⟩, hbroken.imp_right ?_⟩)
        rintro ⟨ls', r', hsub, hserve, heq⟩
        exact ⟨hd, ls', r', hH, hsub.trans hpart, hserve, heq⟩

/-- A program that follows the protocol relays its message. -/
theorem relays_of_follows {p : HopProgram m.Response}
    (h : p.Follows (relay m H) (Relayed m C) ⟨[], none⟩) : Relays d lower H C p where
  carries := carries_of_follows h
  answers _ _ hrun := by simpa using answers_of_follows h rfl hrun

end Relay

/-! ### The handlers follow it -/

section Handlers

variable {m : Message} {H : Headers → Prop} {C : List Asked → RpcError → Prop} {i : Identity}

theorem follows_tenantStatement (s : TenantStatement) (g : Relaying m) :
    (onApi (tenantStatement s)).Follows (relay m H) (fun r g' => g' = g.ask s r) g :=
  ⟨⟨s, rfl⟩, fun _ => rfl⟩

/-- A lookup of the tenant asks for it, and tells what it was answered. -/
theorem follows_tenantLookup (orgID : String) {g : Relaying m} (hg : g.answer = none) :
    (onApi (getOrCreateTenant orgID)).Follows (relay m H) (fun r g' => g'.answer = none ∧
      match r with
      | .error e => ⟨.createTenantIfAbsent orgID, .error e⟩ ∈ g'.asked ∨
          ⟨.getTenantByOrg orgID, .error e⟩ ∈ g'.asked
      | .ok t => ⟨.getTenantByOrg orgID, .ok t⟩ ∈ g'.asked) g := by
  unfold getOrCreateTenant
  rw [Prog.bind_eq, onApi, Prog.embed_bind]
  refine (follows_tenantStatement (.createTenantIfAbsent orgID) g).bind fun r g₁ hg₁ => ?_
  subst hg₁
  cases r with
  | error e => exact ⟨hg, .inl (List.mem_append_right _ (List.mem_singleton_self _))⟩
  | ok u =>
    refine (follows_tenantStatement (.getTenantByOrg orgID) _).mono fun r g₂ hg₂ => ?_
    subst hg₂
    refine ⟨hg, ?_⟩
    cases r with
    | error e => exact .inr (List.mem_append_right _ (List.mem_singleton_self _))
    | ok t => exact List.mem_append_right _ (List.mem_singleton_self _)

/-- A lookup of the flags asks for them; a tenant that is not there has none. -/
theorem follows_flagLookup (orgID : String) {g : Relaying m} (hg : g.answer = none) :
    (onApi (getFeatureFlags orgID)).Follows (relay m H) (fun r g' => g'.answer = none ∧
      match r with
      | .error e => e ≠ .noRows ∧ ⟨.getFeatureFlags orgID, .error e⟩ ∈ g'.asked
      | .ok flags => ⟨.getFeatureFlags orgID, .ok flags⟩ ∈ g'.asked ∨
          flags = [] ∧ ⟨.getFeatureFlags orgID, .error .noRows⟩ ∈ g'.asked) g := by
  unfold getFeatureFlags
  rw [Prog.bind_eq, onApi, Prog.embed_bind]
  refine (follows_tenantStatement (.getFeatureFlags orgID) g).bind fun r g₁ hg₁ => ?_
  subst hg₁
  have hasked : (⟨.getFeatureFlags orgID, r⟩ : Asked) ∈ (g.ask (.getFeatureFlags orgID) r).asked :=
    List.mem_append_right _ (List.mem_singleton_self _)
  split
  · exact ⟨hg, .inr ⟨rfl, hasked⟩⟩
  · next hne =>
    refine ⟨hg, ?_⟩
    cases r with
    | error e =>
      refine ⟨?_, hasked⟩
      rintro rfl
      exact hne rfl
    | ok flags => exact .inl hasked

/-- The trail of an action leaves the call where it is. -/
theorem follows_trailEntry (id : Identity) (action target : String) (g : Relaying m) :
    (onApi (recordAudit id action target)).Follows (relay m H)
      (fun _ g' => g'.answer = g.answer) g :=
  ⟨⟨_, rfl⟩, fun _ => rfl⟩

theorem relayed_some {g : Relaying m} {r : m.Response} (hg : g.answer = some r) :
    Relayed m C r g := by
  unfold Relayed
  rw [hg]

theorem relayed_fail {g : Relaying m} {e : RpcError} (hg : g.answer = none) (h : C g.asked e) :
    Relayed m C (m.fail e) g := by
  unfold Relayed
  rw [hg]
  exact ⟨e, rfl, h⟩

/-- A call of the message, and what goes on with its answer. -/
theorem follows_call {h : Headers} (hH : H h) {k : m.Response → HopProgram m.Response}
    {g : Relaying m} (hg : g.answer = none)
    (hk : ∀ r g', g'.answer = some r → (k r).Follows (relay m H) (Relayed m C) g') :
    ((call h m).bind k).Follows (relay m H) (Relayed m C) g := by
  refine ⟨⟨hg, hH, rfl⟩, fun r => ?_⟩
  rw [relay_next_call]
  exact hk r _ rfl

theorem follows_tenantRequest {id : Option Identity}
    {k : Identity → m.Response → HopProgram m.Response}
    (hnone : id = none → C [] ⟨.unauthenticated, "no identity"⟩)
    (hbad : ∀ i, id = some i → sendHeaders i.org none = none → C [] badHeader)
    (hH : ∀ i h, id = some i → sendHeaders i.org none = some h → H h)
    (hk : ∀ i r g', g'.answer = some r → (k i r).Follows (relay m H) (Relayed m C) g') :
    (Proxy.tenantRequest id m k).Follows (relay m H) (Relayed m C) ⟨[], none⟩ := by
  unfold Proxy.tenantRequest
  cases id with
  | none => exact relayed_fail rfl (hnone rfl)
  | some i =>
    dsimp only
    cases hsend : sendHeaders i.org none with
    | none => exact relayed_fail rfl (hbad i rfl hsend)
    | some h => exact follows_call (hH i h rfl hsend) rfl (hk i)

theorem follows_regionRequest {k : m.Response → HopProgram m.Response} {g : Relaying m}
    (hg : g.answer = none)
    (hfail : ∀ as e, (⟨.createTenantIfAbsent i.org, .error e⟩ ∈ as ∨
      ⟨.getTenantByOrg i.org, .error e⟩ ∈ as) → C as ⟨.internal, "tenant lookup failed"⟩)
    (hbad : ∀ as t, ⟨.getTenantByOrg i.org, .ok t⟩ ∈ as → sendHeaders i.org t.region = none →
      C as badHeader)
    (hH : ∀ region h, sendHeaders i.org region = some h → H h)
    (hk : ∀ r g', g'.answer = some r → (k r).Follows (relay m H) (Relayed m C) g') :
    (Proxy.regionRequest i m k).Follows (relay m H) (Relayed m C) g := by
  refine (follows_tenantLookup i.org hg).bind ?_
  rintro t g' ⟨hg', hasked⟩
  cases t with
  | error e => exact relayed_fail hg' (hfail _ e hasked)
  | ok t =>
    dsimp only
    cases hsend : sendHeaders i.org t.region with
    | none => exact relayed_fail hg' (hbad _ t hasked hsend)
    | some h => exact follows_call (hH t.region h hsend) hg' hk

theorem trailed_cases {α : Type} (action target : String) (id : Identity)
    (r : Except RpcError α) :
    Proxy.trailed action target id r = .pure r ∨ ∃ i a t, Proxy.trailed action target id r =
      (onApi (recordAudit i a t)).bind fun _ => .pure r := by
  cases r with
  | error e => exact .inl rfl
  | ok a => exact .inr ⟨id, action, target, rfl⟩

/-- The trail of an action leaves the answer as it is. -/
theorem follows_trailed {r : m.Response} {p : HopProgram m.Response} {g : Relaying m}
    (hg : g.answer = some r)
    (hp : p = .pure r ∨ ∃ i a t, p = (onApi (recordAudit i a t)).bind fun _ => .pure r) :
    p.Follows (relay m H) (Relayed m C) g := by
  rcases hp with rfl | ⟨i, a, t, rfl⟩
  · exact relayed_some hg
  · exact (follows_trailEntry i a t g).bind fun _ g' hg' => relayed_some (hg'.trans hg)

/-- A connection is started under the region of the tenant record. -/
theorem UserRequest.follows_regionRequest {q : UserRequest} {m : Message}
    {k : m.Response → HopProgram m.Response} {g : Relaying m} (hg : g.answer = none)
    (hq : ∀ q', q ≠ .rpc q') (hq' : q ≠ .listConnectors)
    (hregion : ∀ as t, ⟨.getTenantByOrg i.org, .ok t⟩ ∈ as → q.region i as t.region)
    (hH : ∀ region h, sendHeaders i.org region = some h → q.headers (some i) h)
    (hk : ∀ r g', g'.answer = some r →
      (k r).Follows (relay m fun h => q.headers (some i) h) (Relayed m (q.Refused (some i))) g') :
    (Proxy.regionRequest i m k).Follows (relay m fun h => q.headers (some i) h)
      (Relayed m (q.Refused (some i))) g :=
  Api.follows_regionRequest hg (fun _ _ h => .lookupFailed hq hq' h)
    (fun as t h hsend => .badHeader (hregion as t h) hsend) hH hk

/-- A request under the tenant alone. -/
theorem UserRequest.follows_tenantRequest {q : Rpc} {m : Message} {id : Option Identity}
    {k : Identity → m.Response → HopProgram m.Response}
    (hk : ∀ i r g', g'.answer = some r → (k i r).Follows
      (relay m fun h => (UserRequest.rpc q).headers id h)
      (Relayed m ((UserRequest.rpc q).Refused id)) g') :
    (Proxy.tenantRequest id m k).Follows (relay m fun h => (UserRequest.rpc q).headers id h)
      (Relayed m ((UserRequest.rpc q).Refused id)) ⟨[], none⟩ := by
  refine Api.follows_tenantRequest ?_ ?_ (fun i h hid hsend => ⟨i, none, hid, hsend⟩) hk
  · rintro rfl
    exact .noIdentity nofun
  · rintro i rfl hsend
    exact .badHeader (rfl : (UserRequest.rpc q).region i [] none) hsend

/-- **A handler whose request loses nothing follows the protocol.** -/
theorem UserRequest.follows (id : Option Identity) (q : UserRequest) (hq : q.loses = false) :
    (q.prog id).Follows (relay q.message fun h => q.headers id h)
      (Relayed q.message (q.Refused id)) ⟨[], none⟩ := by
  have hpassed : ∀ (m : Message) (H : Headers → Prop) (C : List Asked → RpcError → Prop)
      (i : Identity) (r : m.Response) (g : Relaying m), g.answer = some r →
      (Proxy.passed i r : HopProgram m.Response).Follows (relay m H) (Relayed m C) g :=
    fun _ _ _ _ _ _ hg => relayed_some hg
  cases q with
  | listConnectors =>
    exact follows_call (m := .listConnectors) (k := Prog.pure) rfl rfl fun _ _ hg =>
      relayed_some hg
  | getAuthorizeUrl connectorID =>
    show (Proxy.getAuthorizeUrl id connectorID).Follows _ _ _
    unfold Proxy.getAuthorizeUrl
    cases id with
    | none => exact relayed_fail rfl (.noIdentity nofun)
    | some i =>
      refine UserRequest.follows_regionRequest rfl nofun nofun (fun as t h => ⟨t, h, rfl⟩)
        (fun region h hsend => ⟨i, region, rfl, hsend⟩) fun r g hg => ?_
      exact follows_trailed hg (trailed_cases _ _ i r)
  | connectWithToken connectorID token name =>
    have hflagged : ∀ i g, g.answer = none →
        (Proxy.connectFlagged i connectorID token name).Follows
          (relay (.completeTokenConnection connectorID token name) fun h =>
            (UserRequest.connectWithToken connectorID token name).headers (some i) h)
          (Relayed (.completeTokenConnection connectorID token name)
            ((UserRequest.connectWithToken connectorID token name).Refused (some i))) g := by
      intro i g hg
      refine UserRequest.follows_regionRequest hg nofun nofun (fun as t h => ⟨t, h, rfl⟩)
        (fun region h hsend => ⟨i, region, rfl, hsend⟩) fun r g hg => ?_
      exact follows_trailed hg (trailed_cases _ _ i r)
    show (Proxy.connectWithToken id connectorID token name).Follows _ _ _
    unfold Proxy.connectWithToken
    cases id with
    | none => exact relayed_fail rfl (.noIdentity nofun)
    | some i =>
      dsimp only
      split
      · next hpat =>
        subst hpat
        refine (follows_flagLookup i.org rfl).bind ?_
        rintro flags g ⟨hg, hasked⟩
        cases flags with
        | error e => exact relayed_fail hg (.flagsFailed rfl hasked.1 hasked.2)
        | ok flags =>
          dsimp only
          split
          · exact hflagged i g hg
          · next hoff => exact relayed_fail hg (.flagOff rfl hasked (by simpa using hoff))
      · exact hflagged i _ rfl
  | rpc q =>
    cases q with
    | triggerSync id' | stopSync id' | disconnect id' =>
      exact UserRequest.follows_tenantRequest fun i r g hg =>
        follows_trailed hg (trailed_cases _ _ i r)
    | listProjects id' search =>
      -- a search that is not empty is lost
      obtain rfl : search = "" := by simpa [UserRequest.loses] using hq
      exact UserRequest.follows_tenantRequest (hpassed _ _ _)
    | _ => exact UserRequest.follows_tenantRequest (hpassed _ _ _)

end Handlers

/-! ### What the copies lose -/

section Lost

variable (lower : String → String)

/-- A search of the projects is not relayed. -/
theorem not_relays_of_loses {q : UserRequest} (hq : q.loses = true) :
    ¬ Relays d lower (fun h => q.headers ann h) (q.Refused ann) (q.prog ann) := by
  intro h
  cases q with
  | rpc q =>
    cases q with
    | listProjects id search =>
      have hne : search ≠ "" := by simpa [UserRequest.loses] using hq
      have hcarries := h.carries.1 _ _ rfl
      have heq := (Message.rpc.inj hcarries.2)
      exact hne (Rpc.listProjects.inj heq).2.symm
    | _ => cases hq
  | _ => cases hq

/-- **Every request of a user is relayed faithfully, whoever asks, exactly if it is not a search of
the projects; and the connect by token of the integrations service itself, which refuses nothing,
exactly if the source is given no name.** -/
theorem proxy_faithful_iff :
    (∀ q : UserRequest,
      (∀ id, Relays d lower (fun h => q.headers id h) (q.Refused id) (q.prog id)) ↔
        q.loses = false) ∧
    ∀ h connectorID token name,
      Relays d lower (m := .completeTokenConnection connectorID token name) (fun h' => h' = h)
        (fun _ _ => False) (serverConnectWithToken h connectorID token name) ↔ name = "" := by
  constructor
  · intro q
    constructor
    · intro h
      by_contra hq
      exact not_relays_of_loses d lower (by simpa using hq) (h ann)
    · intro hq id
      exact relays_of_follows (q.follows id hq)
  · intro h connectorID token name
    constructor
    · intro hrelays
      have hcarries := hrelays.carries.1 _ _ rfl
      exact (Message.completeTokenConnection.inj hcarries.2).2.2.symm
    · rintro rfl
      exact relays_of_follows (follows_call (m := .completeTokenConnection connectorID token "")
        (k := Prog.pure) rfl rfl fun _ _ hg => relayed_some hg)

end Lost

/-! ### A search of the projects -/

/-- The account of two repositories, and an API that has not seen a tenant. -/
def twoRepoGateway : Gateway where
  site := { world := twoRepos, schedules := fun _ => ⟨false, 900⟩, estimatedAt := fun _ => none }
  tenants := .empty

/-- A turn in which nothing fails. -/
def gatewayTurn : Turn GatewayChoice :=
  ⟨false, { api := (smooth "").choice
            site := { service := quietly annAnswers, delivery := .delivered }
            transport := none }⟩

/-- The projects that are listed when nothing fails, after some commands. -/
def listed (n : ℕ) (p : GatewayProgram (Except RpcError (List Requests.ProtoProject))) :
    Option (List String) :=
  ((gateway sampleSigner id).runTurns p false twoRepoGateway
    (List.replicate n gatewayTurn)).bind fun r => r.2.1.toOption.map fun ps => ps.map (·.name)

/-- **Ann searches for one of two repositories, and the API lists both**, where the integrations
service lists the one. -/
theorem search_not_relayed :
    listed 5 (((UserRequest.rpc (.listProjects 0 "b")).prog ann).expand
        (overWire sampleDeployment)) = some ["ann/a", "ann/b"] ∧
      listed 3 (serve sampleDeployment ⟨some "acme", none⟩ (.rpc (.listProjects 0 "b"))) =
        some ["ann/b"] ∧
      ¬ ∀ (q : UserRequest) (i : Option Identity),
        Relays sampleDeployment id (fun h => q.headers i h) (q.Refused i) (q.prog i) := by
  refine ⟨by decide +kernel, by decide +kernel, fun hall => ?_⟩
  exact not_relays_of_loses sampleDeployment id (q := .rpc (.listProjects 0 "b")) rfl (hall _ ann)

end Api
end Hivebook
