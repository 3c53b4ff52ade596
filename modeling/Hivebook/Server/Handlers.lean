import Hivebook.Activity.Client

/-!
# The request handlers that change a connection

The handlers of the integrations server that write: a disconnect, the three ways to
connect or reconnect, and a change of the project selection.  A handler runs on the
context of its request.  Statements whose error the source drops are issued for
their effect only.

## Main definitions

* `Server`, `RpcError`, `OAuthState`.
* `disconnect`, `completeConnection`, `completeInstallation`,
  `completeTokenConnection`, `setProjectSelection` — the handlers.
-/

namespace Hivebook

open Connectors

/-- The `connect` codes the handlers answer with. -/
inductive Code where
  | invalidArgument | notFound | unauthenticated | internal | failedPrecondition
  | permissionDenied | unavailable
  deriving DecidableEq, Repr

/-- `connect.NewError`. -/
structure RpcError where
  code : Code
  message : String
  deriving DecidableEq, Repr

/-- `oauth.State`, as far as the handlers read it. -/
structure OAuthState where
  tenant : String
  region : String
  connector : String
  deriving DecidableEq, Repr

/-- `server.Server`: what the handlers share. -/
structure Server where
  reg : Registry
  cipher : Cipher
  creds : String → Creds
  /-- `ParseGitHubKey`, as far as it fails. -/
  parseGitHubKey : String → Except Err Unit
  /-- `signer.Verify` at an instant. -/
  verify : Time → String → Except Err OAuthState

/-- `requireTenant`: the tenant of the request's context. -/
def requireTenant (tenant : Option String) : Except RpcError String :=
  match tenant with
  | some t => if t = "" then .error ⟨.unauthenticated, "missing tenant"⟩ else .ok t
  | none => .error ⟨.unauthenticated, "missing tenant"⟩

namespace Server

variable (s : Server)

/-! ### Disconnecting -/

/-- `uninstall`: an installation is removed once, and an empty id never. -/
def uninstall (removed : List String) (id : String) : Program (List String) := do
  if id = "" ∨ id ∈ removed then return removed
  let _ ← request (.uninstall id)
  return removed ++ [id]

/-- The removal of the App from the account: the stored installation and the live
one. -/
def uninstallApp (conn : Connection) : Program Unit := do
  let creds := s.creds conn.connectorID
  if creds.privateKey ≠ "" ∧ (conn.installationID ≠ "" ∨ conn.account ≠ "") then
    match s.parseGitHubKey creds.privateKey with
    | .error _ => return ()
    | .ok _ =>
        let removed ← uninstall [] conn.installationID
        if conn.account ≠ "" then
          match ← request (.resolveInstallation conn.account) with
          | .error _ => return ()
          | .ok liveID =>
              let _ ← uninstall removed liveID
              return ()
        else return ()
  else return ()

/-- `Disconnect` once the connection was looked up: the row is soft-deleted, its
artifacts are hidden and marked for erasure, and the workflow is told. -/
def disconnectConnection (conn : Connection) (tenant : String) :
    Program (Except RpcError Unit) := do
  match ← statement (.deleteConnection conn.id tenant) with
  | .error _ => return .error ⟨.internal, "could not disconnect"⟩
  | .ok rows =>
      if rows = 0 then return .error ⟨.notFound, "connection not found"⟩
      -- from here on an error is logged or dropped, and the disconnect goes on
      let _ ← statement (.softDeleteConnectionArtifacts conn.id tenant)
      let _ ← statement (.markConnectionArtifactsPurgePending conn.id tenant)
      let _ ← signalWorkflow conn.id .disconnect
      let _ ← statement (.notifyConnectionChanged tenant)
      s.uninstallApp conn
      return .ok ()

/-- `Disconnect`. -/
def disconnect (tenant : Option String) (connectionID : Uuid) :
    Program (Except RpcError Unit) := do
  match requireTenant tenant with
  | .error e => return .error e
  | .ok tenant =>
      match ← statement (.getConnection connectionID tenant) with
      | .error _ => return .error ⟨.notFound, "connection not found"⟩
      | .ok conn => s.disconnectConnection conn tenant

/-! ### Connecting -/

/-- An account that cannot be resolved is left blank: it is only a label. -/
def accountLabel : Except Err String → String
  | .ok account => account
  | .error _ => ""

/-- The common end of the connect flows: the row is upserted, its hidden artifacts
come back, and the workflow is provisioned with a catalog refresh. -/
def saveConnection (p : Database.UpsertConnectionParams) :
    Program (Except RpcError Connection) := do
  match ← statement (.upsertConnection p) with
  | .error _ => return .error ⟨.internal, "could not save connection"⟩
  | .ok row =>
      let _ ← statement (.undeleteConnectionArtifacts row.id row.tenantID)
      let _ ← signalWorkflow row.id .refreshCatalog
      return .ok row

/-- `completeInstallation`.  No token is passed, which is NULL: that the column `access_token`
refuses it is an answer of the environment here, which may also take it for an empty one. -/
def completeInstallation (st : OAuthState) (connector : Connector) (creds : Creds)
    (installationID : String) : Program (Except RpcError Connection) := do
  match s.parseGitHubKey creds.privateKey with
  | .error _ => return .error ⟨.internal, "app key invalid"⟩
  | .ok _ =>
      let account := accountLabel (← request (.installationAccount installationID))
      saveConnection
        { tenantID := st.tenant, region := st.region, connectorID := connector.id, account,
          accessToken := [], refreshToken := none, tokenExpiry := none, scopes := "",
          installationID, externalID := installationID }

/-- `CompleteConnection`, the OAuth flow. -/
def completeOAuth (st : OAuthState) (connector : Connector) (code : String) :
    Program (Except RpcError Connection) := do
  match ← request (.exchange connector.id code) with
  | .error _ => return .error ⟨.invalidArgument, "code exchange failed"⟩
  | .ok tok =>
      let account := accountLabel (← request (.account connector.id))
      match s.cipher.encryptString tok.accessToken, s.cipher.encryptString tok.refreshToken with
      | .ok access, .ok refresh =>
          saveConnection
            { tenantID := st.tenant, region := st.region, connectorID := connector.id, account,
              accessToken := access, refreshToken := some refresh, tokenExpiry := tok.expiry,
              scopes := " ".intercalate connector.scopes, installationID := "",
              externalID := account }
      | _, _ => return .error ⟨.internal, "could not store token"⟩

/-- `CompleteConnection`. -/
def completeConnection (state code installationID : String) :
    Program (Except RpcError Connection) := do
  match s.verify (← clock) state with
  | .error _ => return .error ⟨.invalidArgument, "invalid state"⟩
  | .ok st =>
      match s.reg.get st.connector with
      | none => return .error ⟨.notFound, "unknown connector"⟩
      | some connector =>
          let creds := s.creds connector.id
          -- an App installation, where the connector has a key; else the OAuth code
          if installationID ≠ "" ∧ creds.privateKey ≠ "" then
            s.completeInstallation st connector creds installationID
          else s.completeOAuth st connector code

/-- The label of a token connection: the chosen name, or the owner's login. -/
def tokenLabel (name login : String) : String := if name = "" then login else name

/-- `CompleteTokenConnection`. -/
def completeTokenConnection (tenant : Option String) (region connectorID token name : String) :
    Program (Except RpcError Connection) := do
  match requireTenant tenant with
  | .error e => return .error e
  | .ok tenant =>
      match s.reg.get connectorID with
      | none => return .error ⟨.notFound, "unknown connector"⟩
      | some connector =>
          match ← request (.account connector.id) with
          | .error _ => return .error ⟨.invalidArgument, "the source rejected this token"⟩
          | .ok login =>
              let label := tokenLabel name login
              match s.cipher.encryptString token, s.cipher.encryptString "" with
              | .ok access, .ok refresh =>
                  saveConnection
                    { tenantID := tenant, region, connectorID := connector.id, account := label,
                      accessToken := access, refreshToken := some refresh, tokenExpiry := none,
                      scopes := "", installationID := "", externalID := label }
              | _, _ => return .error ⟨.internal, "could not store token"⟩

/-! ### Selecting projects -/

/-- `SetProjectSelection`. -/
def setProjectSelection (tenant : Option String) (connectionID : Uuid)
    (selectedIDs : List String) : Program (Except RpcError Unit) := do
  match requireTenant tenant with
  | .error e => return .error e
  | .ok tenant =>
      match ← statement (.getConnection connectionID tenant) with
      | .error _ => return .error ⟨.notFound, "connection not found"⟩
      | .ok conn =>
          match ← statement (.setUnitSelection conn.id selectedIDs) with
          | .error _ => return .error ⟨.internal, "could not save selection"⟩
          | .ok _ =>
              match ← statement (.markConnectionOnboarded conn.id) with
              -- the selection is saved already
              | .error _ => return .error ⟨.internal, "could not mark onboarded"⟩
              | .ok _ =>
                  let _ ← statement (.softDeleteDeselectedUnitArtifacts conn.id)
                  let _ ← statement (.undeleteSelectedUnitArtifacts conn.id)
                  let _ ← signalWorkflow conn.id .updateSelection
                  let _ ← statement (.notifyConnectionChanged tenant)
                  return .ok ()

end Server

end Hivebook
