import Mathlib.Data.List.Infix
import Hivebook.World

/-!
# The activities: dependencies, clients and error classification

`Activities` holds what the activities share.  Encryption, the parsing of an App key
and the content hash are outside the program; what the code relies on in the hash
is carried by `ContentHash`.

## Main definitions

* `Activities`, `ContentHash`, `Cipher`, `Creds`.
* `ActivityError` — what an activity hands back to the workflow engine.
* `clientFor` — a client for a connection, with a refreshed token if one is due.
* `classify` — what a connector's error turns into.
-/

namespace Hivebook

open Connectors

/-- `contentHash`: hex SHA-256, of which the code relies on distinct contents having
distinct names and on a name being one segment of an object key. -/
structure ContentHash where
  hash : Bytes → String
  injective : Function.Injective hash
  slash_not_mem : ∀ b, '/' ∉ (hash b).toList

/-- A hash in which a content spells its own name; the empty content has the name
SHA-256 gives it. -/
def spelledHash (b : Bytes) : String :=
  if b = [] then "e3b0c44298fc1c149afbf4c8996fb92427ae41e4649b934ca495991b7852b855"
  else String.ofList (b.map fun x => Char.ofNat (x.toNat + 256))

theorem toNat_spelled (x : UInt8) : (Char.ofNat (x.toNat + 256)).toNat = x.toNat + 256 := by
  have hx : x.toNat < 256 := x.toNat_lt
  have hv : (x.toNat + 256).isValidChar := Or.inl (by omega)
  unfold Char.ofNat
  rw [dif_pos hv]
  rfl

theorem spelled_injective : Function.Injective fun x : UInt8 => Char.ofNat (x.toNat + 256) := by
  intro x y h
  have hnat := congrArg Char.toNat h
  simp only [toNat_spelled] at hnat
  exact UInt8.toNat_inj.mp (by omega)

/-- The name of a nonempty content starts with no ASCII character. -/
theorem head_spelled {b : Bytes} (hb : b ≠ []) : ∃ c cs, (spelledHash b).toList = c :: cs ∧
    256 ≤ c.toNat := by
  cases b with
  | nil => exact absurd rfl hb
  | cons x xs =>
    refine ⟨_, _, by rw [spelledHash, if_neg hb, String.toList_ofList, List.map_cons], ?_⟩
    rw [toNat_spelled]
    omega

theorem spelledHash_injective : Function.Injective spelledHash := by
  intro b b' h
  have hlist := congrArg String.toList h
  by_cases hb : b = []
  · by_cases hb' : b' = []
    · rw [hb, hb']
    · obtain ⟨c, cs, heq, hc⟩ := head_spelled hb'
      rw [heq, spelledHash, if_pos hb] at hlist
      obtain ⟨rfl, -⟩ := List.cons.inj hlist
      exact absurd hc (by decide)
  · by_cases hb' : b' = []
    · obtain ⟨c, cs, heq, hc⟩ := head_spelled hb
      rw [heq, spelledHash, if_pos hb'] at hlist
      obtain ⟨rfl, -⟩ := List.cons.inj hlist
      exact absurd hc (by decide)
    · rw [spelledHash, spelledHash, if_neg hb, if_neg hb', String.toList_ofList,
        String.toList_ofList] at hlist
      exact List.map_injective_iff.mpr spelled_injective hlist

theorem slash_not_mem_spelledHash (b : Bytes) : '/' ∉ (spelledHash b).toList := by
  by_cases hb : b = []
  · rw [spelledHash, if_pos hb]
    decide
  · rw [spelledHash, if_neg hb, String.toList_ofList, List.mem_map]
    rintro ⟨x, -, hx⟩
    have hnat := congrArg Char.toNat hx
    rw [toNat_spelled] at hnat
    have hslash : '/'.toNat = 47 := rfl
    omega

/-- Hashes with the required properties exist. -/
def ContentHash.spelled : ContentHash where
  hash := spelledHash
  injective := spelledHash_injective
  slash_not_mem := slash_not_mem_spelledHash

/-- `oauth.Cipher`; an empty text is stored as no bytes. -/
structure Cipher where
  encryptString : String → Except Err Bytes
  decryptString : Bytes → Except Err String

/-- `connectors.Creds`. -/
structure Creds where
  clientID : String
  clientSecret : String
  privateKey : String
  deriving DecidableEq, Repr

/-- `activity.Activities`: what the activities share. -/
structure Activities where
  /-- The environment segment of the bucket names. -/
  env : String
  reg : Registry
  cipher : Cipher
  creds : String → Creds
  /-- `ParseGitHubKey`, as far as it fails. -/
  parseGitHubKey : String → Except Err Unit
  contentHash : ContentHash

/-- The error an activity returns: a labelled application error, or an error it
passes through. -/
inductive ActivityError where
  | application (message : String) (type : ErrType) (nonRetryable : Bool) (cause : Option Err)
  | plain (e : Err)
  deriving DecidableEq, Repr

/-- The label the workflow sees. -/
def ActivityError.type : ActivityError → ErrType
  | .application _ t _ _ => t
  | .plain _ => .other

/-- A program over a source alone, run by the service. -/
def fetchHandler : (c : FetchCmd) → Unit → Program (c.Resp × Unit)
  | .ctxErr, _ => do return (← ctxErr, ())
  | .request q, _ => do return (← request q, ())

/-- Running a connector's discovery. -/
def fetch {α : Type} (p : FetchProg α) : Program α := do
  return (← p.handle fetchHandler ()).1

/-- One text occurs in another. -/
def occursIn (part text : String) : Bool := decide (part.toList <:+: text.toList)

/-- `isInvalidGrant`: the refresh token is dead. -/
def isInvalidGrant : Err → Bool
  | .retrieve status body _ => occursIn "invalid_grant" body || decide (status = some 400)
  | e => occursIn "invalid_grant" e.error

/-- `refreshSkew`. -/
def refreshSkew : Time := 2 * minute

/-- The expiry lies further ahead than the skew. -/
def stillFresh (now : Time) (expiry : Option Time) : Bool :=
  match expiry with
  | none => false
  | some t => decide (now + refreshSkew < t)

/-- `poisonBackoff`. -/
def poisonBackoff : Time := 5 * minute

namespace Activities

variable (a : Activities)

/-- `loadConnection`. -/
def loadConnection (id : Uuid) : Program (Except Err (Connection × Connector)) := do
  match ← statement (.getConnectionByID id) with
  | .error e => return .error e
  | .ok conn =>
      match a.reg.get conn.connectorID with
      | none => return .error (.failed ("unknown connector " ++ conn.connectorID.quote))
      | some connector => return .ok (conn, connector)

/-- `persistRotatedToken`: an empty refresh token never replaces a stored one. -/
def persistRotatedToken (connID : Uuid) (tok : OAuthToken) : Program (Except Err Unit) :=
  match a.cipher.encryptString tok.accessToken with
  | .error e => return .error e
  | .ok access =>
      if tok.refreshToken = "" then statement (.updateAccessToken connID access tok.expiry)
      else
        match a.cipher.encryptString tok.refreshToken with
        | .error e => return .error e
        | .ok refresh => statement (.updateTokens connID access refresh tok.expiry)

/-- The refresh proper: the token endpoint is asked, the rotated token persisted. -/
def rotate (conn : Connection) (refresh : String) : Program (Except Err String) := do
  match a.reg.get conn.connectorID with
  | none => return .error (.failed ("unknown connector " ++ conn.connectorID.quote))
  | some _ =>
      match ← request (.refreshToken conn.connectorID refresh) with
      -- a dead refresh token counts as rejected credentials
      | .error e => return .error (if isInvalidGrant e then .auth 401 else e)
      | .ok tok =>
          match ← a.persistRotatedToken conn.id tok with
          | .error e => return .error e
          | .ok _ => return .ok tok.accessToken

/-- The refresh token of the row as re-read: one that fails to decrypt, or is empty,
does not replace the one in hand. -/
def currentRefresh (cur : Connection) (refresh : String) : String :=
  match a.cipher.decryptString (cur.refreshToken.getD []) with
  | .ok r => if r = "" then refresh else r
  | .error _ => refresh

/-- The second look under the connection's lock: another unit may have refreshed
the token meanwhile.  The lock is held within one worker process only, so the
interleavings of several processes include those without it. -/
def rotateLocked (conn : Connection) (access refresh : String) :
    Program (Except Err String) := do
  match ← statement (.getConnectionByID conn.id) with
  -- a row that cannot be read again is refreshed with the token in hand
  | .error _ => a.rotate conn refresh
  | .ok cur =>
      if stillFresh (← clock) cur.tokenExpiry then
        return .ok ((a.cipher.decryptString cur.accessToken).toOption.getD access)
      else a.rotate cur (a.currentRefresh cur refresh)

/-- `refreshedAccessToken`. -/
def refreshedAccessToken (conn : Connection) : Program (Except Err String) := do
  match a.cipher.decryptString conn.accessToken with
  | .error e => return .error e
  | .ok access =>
      match a.cipher.decryptString (conn.refreshToken.getD []) with
      | .error e => return .error e
      | .ok refresh =>
          if refresh = "" ∨ conn.tokenExpiry = none then return .ok access
          else if stillFresh (← clock) conn.tokenExpiry then return .ok access
          else a.rotateLocked conn access refresh

/-- `clientFor`: the bearer token the client is built over. -/
def clientFor (conn : Connection) : Program (Except Err String) := do
  let creds := a.creds conn.connectorID
  if conn.installationID ≠ "" ∧ creds.privateKey ≠ "" then
    match a.parseGitHubKey creds.privateKey with
    | .error e => return .error e
    | .ok _ => request (.installationToken conn.installationID)
  else a.refreshedAccessToken conn

/-- The poison backoff of a failed unit; a failed discovery has no unit to back off. -/
def armBackoff (conn : Connection) (unitID : String) (err : Err) : Program Unit := do
  if unitID = "" then return ()
  else
    let now ← clock
    let _ ← statement (.setUnitRetry conn.id unitID err.error (now + poisonBackoff))
    let _ ← statement (.notifyConnectionChanged conn.tenantID)
    return ()

/-- `classify`: an auth error marks the connection and is not retried; a rate limit
is retried; anything else arms the poison backoff of the unit. -/
def classify (conn : Connection) (unitID : String) (err : Err) : Program ActivityError := do
  match err with
  | .auth _ =>
      let _ ← statement (.setNeedsReauth conn.id err.error)
      let _ ← statement (.notifyConnectionChanged conn.tenantID)
      return .application "source rejected credentials" .auth true (some err)
  | .rateLimit _ => return .application "source rate limited" .rateLimit false (some err)
  | _ =>
      armBackoff conn unitID err
      return .application err.error .sync false (some err)

end Activities

end Hivebook
