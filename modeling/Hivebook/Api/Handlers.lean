import Hivebook.Api.Platform
import Hivebook.Service.Inventory

/-!
# The handlers of the API

The handlers of the tenant service, and those of the integration service that start or finish
a connect flow.  The caller is resolved from a token before a handler runs, and the rules of
the fields are checked.  Everything else the integrations service does, for a user or by
itself, is a job of its own.

## Main definitions

* `Identity`, `Deployment`.
* `getSession`, `completeOnboarding`, `updateTenant`, `setFeatureFlag` — the tenant service.
* `getAuthorizeUrl`, `connectWithToken`, `connectorCallback` — the connect flows.
* `Call`, `Call.prog` — the requests and jobs of the platform, and their programs.
-/

namespace Hivebook
namespace Api

open Connectors

/-- `auth.Identity`. -/
structure Identity where
  sub : String
  name : String
  email : String
  org : String
  deriving DecidableEq, Repr

/-- The two services as they are deployed. -/
structure Deployment where
  activities : Activities
  server : Server
  signer : Signer
  /-- The integrations service verifies a state with the signer it signs with. -/
  verify_eq : ∀ now token,
    server.verify now token = (signer.verify now token).map SignedState.toOAuthState
  /-- `conn.AuthorizeURL`. -/
  authorizeURL : Connector → Creds → String → String → String
  callbackBase : String
  webBaseURL : String

/-- The caller of a request, whose fields are checked next; the text stands for the one of the
library that checks them. -/
def authenticated {α : Type} (id : Option Identity) (valid : Bool)
    (f : Identity → ApiProgram (Except RpcError α)) : ApiProgram (Except RpcError α) :=
  match id with
  | none => return .error ⟨.unauthenticated, "no identity"⟩
  | some id => if valid then f id else return .error ⟨.invalidArgument, "validation error"⟩

/-! ### The tenant service -/

/-- `GetOrCreateTenant`. -/
def getOrCreateTenant (orgID : String) : ApiProgram (Except Err Tenant) := do
  match ← tenantStatement (.createTenantIfAbsent orgID) with
  | .error e => return .error e
  | .ok _ => tenantStatement (.getTenantByOrg orgID)

/-- `GetSession`. -/
def getSession (id : Option Identity) : ApiProgram (Except RpcError (Identity × Tenant)) :=
  authenticated id true fun id => do
    match ← getOrCreateTenant id.org with
    | .error _ => return .error ⟨.internal, "tenant lookup failed"⟩
    | .ok t => return .ok (id, t)

/-- The trail of an action, best-effort. -/
def recordAudit (id : Identity) (action target : String) : ApiProgram Unit := do
  let _ ← tenantStatement (.recordAuditEvent id.org id.sub id.email action target)
  return ()

/-- The rules of a profile's fields. -/
def Profile.valid (p : Profile) : Bool :=
  decide (p.name.length ≤ 200) && decide (p.size.length ≤ 50) &&
    decide (p.useCases.length ≤ 32) && decide (p.useCaseOther.length ≤ 500)

/-- The rules of a region. -/
def validRegion (region : String) : Bool :=
  decide (1 ≤ region.length) && decide (region.length ≤ 50)

/-- `CompleteOnboarding`. -/
def completeOnboarding (id : Option Identity) (region : String) (p : Profile) :
    ApiProgram (Except RpcError Tenant) :=
  authenticated id (validRegion region && p.valid) fun id => do
    match ← tenantStatement (.completeOnboarding id.org region p) with
    | .error .noRows =>
        return .error ⟨.failedPrecondition, "region cannot be changed after setup"⟩
    | .error _ => return .error ⟨.internal, "onboarding failed"⟩
    | .ok t =>
        recordAudit id "tenant.onboarded" p.name
        return .ok t

/-- `UpdateTenant`. -/
def updateTenant (id : Option Identity) (p : Profile) : ApiProgram (Except RpcError Tenant) :=
  authenticated id (decide (1 ≤ p.name.length) && p.valid) fun id => do
    match ← tenantStatement (.updateTenantProfile id.org p) with
    | .error .noRows => return .error ⟨.failedPrecondition, "workspace is not set up yet"⟩
    | .error _ => return .error ⟨.internal, "update failed"⟩
    | .ok t =>
        recordAudit id "tenant.updated" p.name
        return .ok t

/-- `featureFlagDef`. -/
structure FeatureFlagDef where
  key : String
  name : String
  description : String
  default : Bool
  deriving DecidableEq, Repr

/-- `featureFlagCatalog`. -/
def featureFlagCatalog : List FeatureFlagDef :=
  [{ key := "github_pat", name := "GitHub personal access tokens"
     description := "Connect GitHub with a fine-grained, read-only personal access token — for " ++
       "repositories where you can't install the GitHub App. The App stays the recommended option."
     default := false }]

/-- `featureFlagByKey`. -/
def featureFlagByKey (key : String) : Option FeatureFlagDef :=
  featureFlagCatalog.find? fun f => decide (f.key = key)

/-- `featureFlagEnabled`. -/
def featureFlagEnabled (overrides : List (String × Bool)) (key : String) : Bool :=
  match overrides.lookup key with
  | some v => v
  | none => ((featureFlagByKey key).map FeatureFlagDef.default).getD false

/-- `GetFeatureFlags`: a tenant that is not there has no overrides. -/
def getFeatureFlags (orgID : String) : ApiProgram (Except Err (List (String × Bool))) := do
  match ← tenantStatement (.getFeatureFlags orgID) with
  | .error .noRows => return .ok []
  | r => return r

/-- `tenantv1.FeatureFlag`. -/
structure ProtoFeatureFlag where
  key : String
  name : String
  description : String
  enabled : Bool
  deriving DecidableEq, Repr

/-- A flag of the catalog, with the value it has for a tenant. -/
def FeatureFlagDef.valued (f : FeatureFlagDef) (enabled : Bool) : ProtoFeatureFlag :=
  { key := f.key, name := f.name, description := f.description, enabled }

/-- Only deviations from the default are stored. -/
def storeFlag (orgID : String) (flag : FeatureFlagDef) (enabled : Bool) :
    ApiProgram (Except Err Unit) :=
  if enabled = flag.default then tenantStatement (.removeFeatureFlag orgID flag.key)
  else tenantStatement (.setFeatureFlag orgID flag.key enabled)

/-- `SetFeatureFlag`. -/
def setFeatureFlag (id : Option Identity) (key : String) (enabled : Bool) :
    ApiProgram (Except RpcError ProtoFeatureFlag) :=
  authenticated id (decide (1 ≤ key.length) && decide (key.length ≤ 100)) fun id => do
    match featureFlagByKey key with
    | none => return .error ⟨.invalidArgument, "unknown feature flag"⟩
    | some flag =>
        match ← storeFlag id.org flag enabled with
        | .error _ => return .error ⟨.internal, "feature flag update failed"⟩
        | .ok _ =>
            recordAudit id "feature_flag.updated"
              (flag.name ++ " → " ++ if enabled then "on" else "off")
            return .ok (flag.valued enabled)

/-! ### Connecting -/

variable (d : Deployment)

/-- `redirectURL`. -/
def Deployment.redirectURL (connectorID : String) : String :=
  String.ofList (d.callbackBase.toList.reverse.dropWhile (· = '/')).reverse ++ "/connectors/" ++
    connectorID ++ "/callback"

/-- `Server.GetAuthorizeUrl`, of the integrations service: a tenant without a region cannot
start the flow. -/
def serverGetAuthorizeUrl (h : Headers) (connectorID : String) :
    ApiProgram (Except RpcError String) := do
  match requireTenant h.tenant with
  | .error e => return .error e
  | .ok tenant =>
      match h.region with
      | none => return .error ⟨.failedPrecondition, "tenant region not set"⟩
      | some region =>
          match d.server.reg.get connectorID with
          | none => return .error ⟨.notFound, "unknown connector"⟩
          | some conn =>
              match ← sign tenant region conn.id with
              | .error _ => return .error ⟨.internal, "could not start authorization"⟩
              | .ok state =>
                  return .ok (d.authorizeURL conn (d.server.creds conn.id) state
                    (d.redirectURL conn.id))

/-- The call fails before it is sent: a header has a value that the client refuses. -/
def badHeader : RpcError := ⟨.unavailable, "net/http: invalid header field value"⟩

/-- `integrationService.GetAuthorizeUrl`. -/
def getAuthorizeUrl (id : Option Identity) (connectorID : String) :
    ApiProgram (Except RpcError String) :=
  authenticated id (decide (1 ≤ connectorID.length)) fun id => do
    match ← getOrCreateTenant id.org with
    | .error _ => return .error ⟨.internal, "tenant lookup failed"⟩
    | .ok t =>
        match sendHeaders id.org t.region with
        | none => return .error badHeader
        | some h =>
            match ← serverGetAuthorizeUrl d h connectorID with
            | .error e => return .error e
            | .ok url =>
                recordAudit id "source.connect_started" connectorID
                return .ok url

/-- The part of `ConnectWithToken` behind the feature flag. -/
def connectFlagged (id : Identity) (connectorID token name : String) :
    ApiProgram (Except RpcError Connection) := do
  match ← getOrCreateTenant id.org with
  | .error _ => return .error ⟨.internal, "tenant lookup failed"⟩
  | .ok t =>
      match sendHeaders id.org t.region with
      | none => return .error badHeader
      | some h =>
          -- the region is read from the headers, and missing it is no error
          match ← onService (d.server.completeTokenConnection h.tenant (h.region.getD "")
            connectorID token name) with
          | .error e => return .error e
          | .ok conn =>
              recordAudit id "source.connected" connectorID
              return .ok conn

/-- `integrationService.ConnectWithToken`. -/
def connectWithToken (id : Option Identity) (connectorID token name : String) :
    ApiProgram (Except RpcError Connection) :=
  authenticated id (decide (1 ≤ connectorID.length) && decide (1 ≤ token.length) &&
      decide (name.length ≤ 100)) fun id => do
    if connectorID = "github_pat" then
      match ← getFeatureFlags id.org with
      | .error _ => return .error ⟨.internal, "flag lookup failed"⟩
      | .ok flags =>
          if featureFlagEnabled flags "github_pat" then connectFlagged d id connectorID token name
          else return .error ⟨.permissionDenied,
            "personal access tokens aren't enabled for this workspace"⟩
    else connectFlagged d id connectorID token name

/-- `connectorCallback`: where the browser is sent. -/
def connectorCallback : ApiProgram String := do
  let q ← query
  if q.error ≠ "" then return d.webBaseURL ++ "/sources?error=" ++ q.error
  else if q.state = "" then return d.webBaseURL ++ "/sources?connect_error=1"
  else
    match ← onService (d.server.completeConnection q.state q.code q.installationID) with
    | .error _ => return d.webBaseURL ++ "/sources?connect_error=1"
    | .ok conn => return d.webBaseURL ++ "/sources?connected=" ++ toString conn.id

/-! ### The requests and jobs of the platform -/

/-- The requests to the API, and the jobs of the integrations service that finish no connect
flow: only the API calls those. -/
inductive Call where
  | getSession (id : Option Identity)
  | completeOnboarding (id : Option Identity) (region : String) (p : Profile)
  | updateTenant (id : Option Identity) (p : Profile)
  | setFeatureFlag (id : Option Identity) (key : String) (enabled : Bool)
  | getAuthorizeUrl (id : Option Identity) (connectorID : String)
  | connectWithToken (id : Option Identity) (connectorID token name : String)
  | connectorCallback
  | job (j : {j : Job // j.connects = false})

/-- A program run for its effects. -/
def runs {α : Type} (p : ApiProgram α) : ApiProgram Unit := p.bind fun _ => .pure ()

/-- The program of a request or a job. -/
def Call.prog : Call → ApiProgram Unit
  | .getSession id => runs (Api.getSession id)
  | .completeOnboarding id region p => runs (Api.completeOnboarding id region p)
  | .updateTenant id p => runs (Api.updateTenant id p)
  | .setFeatureFlag id key enabled => runs (Api.setFeatureFlag id key enabled)
  | .getAuthorizeUrl id connectorID => runs (Api.getAuthorizeUrl d id connectorID)
  | .connectWithToken id connectorID token name =>
      runs (Api.connectWithToken d id connectorID token name)
  | .connectorCallback => runs (Api.connectorCallback d)
  | .job j => onService (j.1.prog d.activities d.server)

/-! ### A new deployment -/

/-- A deployment that offers Drive, and GitHub by a personal token. -/
def sampleDeployment : Deployment where
  activities := repoActivities
  server :=
    { reg := newGoogleDocs.connector :: repoActivities.reg
      cipher := sampleCipher
      creds := repoActivities.creds
      parseGitHubKey := fun _ => .ok ()
      verify := fun now token => (sampleSigner.verify now token).map SignedState.toOAuthState }
  signer := sampleSigner
  verify_eq _ _ := rfl
  authorizeURL _ _ state _ := "https://accounts.example/auth?state=" ++ state
  callbackBase := "https://api.example"
  webBaseURL := "https://app.example"

/-- The owner of a workspace. -/
def ann : Option Identity :=
  some { sub := "ann", name := "Ann", email := "ann@acme", org := "acme" }

/-- A new deployment, with no tenant. -/
def newPlatform : Platform where
  service := { db := .empty, objects := fun _ => none, now := 5 }
  tenants := .empty

/-- A turn in which nothing fails. -/
def smooth (state : String) : Turn ApiChoice :=
  ⟨false, { service := quietly annAnswers, nonce := "n"
            query := { error := "", code := "code", state, installationID := "" } }⟩

end Api
end Hivebook
