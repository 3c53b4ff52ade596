import Hivebook.Lib.Threads
import Hivebook.Service.Rotation
import Hivebook.Service.Reconnect

/-!
# The stored tokens were issued

Three statements write the tokens of a connection.  A connect stores what an exchange issued, or
the token a user entered, and keeps the stored refresh token if it brings none; the two stores of a
rotated token write what a refresh was answered with.  Any number of executions do so side by
side, beside programs that write no tokens at all.

A refresh may be answered with the token in hand: `oauth2` hands a valid one back, and fills in
the refresh token it sent where the source sends none.  Such an answer issues nothing, and what
is stored then was issued before.

## Main definitions

* `Cipher.Inverts` — what is assumed of the encryption.
* `Desk`, `issuing` — what an execution has read and was given, and the protocol it follows.
* `TokenWriter` — the executions.
* `HoldsRefresh`, `HoldsAccess` — where the tokens of a row come from.
* `NeverBlanked` — a stored refresh token stays, and the stored tokens were issued.

## Main results

* `TokenWriter.follows` — every execution follows the protocol.
* `refresh_token_never_blanked` — **a refresh token is never blanked.**
-/

namespace Hivebook

open Database Connectors

/-- What the code relies on in the encryption: decryption inverts it, and no bytes stand for the
empty text. -/
structure Cipher.Inverts (c : Cipher) : Prop where
  decrypt_encrypt : ∀ text b, c.encryptString text = .ok b → c.decryptString b = .ok text
  encrypt_empty : c.encryptString "" = .ok []
  decrypt_nil : c.decryptString [] = .ok ""

theorem Cipher.Lawful.inverts {c : Cipher} (hc : c.Lawful) : c.Inverts :=
  ⟨hc.decrypt_encrypt, hc.encrypt_empty, hc.decrypt_nil⟩

/-- Exactly the empty text is stored as no bytes. -/
theorem Cipher.Inverts.eq_nil_iff {c : Cipher} (hc : c.Inverts) {text : String} {b : Bytes}
    (h : c.encryptString text = .ok b) : b = [] ↔ text = "" := by
  constructor
  · rintro rfl
    have heq := (hc.decrypt_encrypt text [] h).symm.trans hc.decrypt_nil
    exact Except.ok.inj heq
  · rintro rfl
    exact Except.ok.inj (h.symm.trans hc.encrypt_empty)

/-- A refresh token is stored. -/
def Connection.storesRefresh (conn : Connection) : Prop := conn.refreshToken.getD [] ≠ []

instance (conn : Connection) : Decidable conn.storesRefresh :=
  inferInstanceAs (Decidable (conn.refreshToken.getD [] ≠ []))

/-! ### What an execution was given -/

/-- The token a command is answered with, and the refresh token it has sent. -/
def tokenGiven : (c : Cmd) → c.Resp → Option (Option String × OAuthToken)
  | .request (.exchange _ _), .ok tok => some (none, tok)
  | .request (.refreshToken _ sent), .ok tok => some (some sent, tok)
  | _, _ => none

/-- What an execution has read and was given. -/
structure Desk where
  /-- The rows of a connection it has read, the last one first. -/
  rows : List Connection
  /-- The token it was given since, and the refresh token it had sent. -/
  given : Option (Option String × OAuthToken)

/-- The desk of an execution that starts. -/
def Desk.init : Desk := { rows := [], given := none }

/-- How a response changes the desk. -/
def Desk.next (g : Desk) : (c : Cmd) → c.Resp → Desk
  | .statement (.getConnectionByID id), .ok conn =>
      { rows := conn :: g.rows.filter fun r => decide (r.id = id), given := none }
  | c, r => { g with given := (tokenGiven c r).or g.given }

/-- A token that was answered to a refresh for the connection, with the encrypted access token
and the expiry that are stored of it. -/
structure Desk.Rotated (c : Cipher) (g : Desk) (id : Uuid) (access : Bytes)
    (expiry : Option Time) (sent : String) (tok : OAuthToken) : Prop where
  given : g.given = some (some sent, tok)
  read : ∃ row rest, g.rows = row :: rest ∧ row.id = id
  sent : ∃ row ∈ g.rows, c.decryptString (row.refreshToken.getD []) = .ok sent
  access : c.encryptString tok.accessToken = .ok access
  expiry : expiry = tok.expiry

/-- What an exchange issued. -/
structure Desk.Exchanged (c : Cipher) (g : Desk) (p : UpsertConnectionParams)
    (tok : OAuthToken) : Prop where
  given : g.given = some (none, tok)
  access : c.encryptString tok.accessToken = .ok p.accessToken
  refresh : ∃ b, c.encryptString tok.refreshToken = .ok b ∧ p.refreshToken = some b
  expiry : p.tokenExpiry = tok.expiry

/-- A token that was entered, or none: it does not expire and is not refreshed. -/
structure Desk.Entered (g : Desk) (p : UpsertConnectionParams) : Prop where
  given : g.given = none
  refresh : p.refreshToken.getD [] = []
  expiry : p.tokenExpiry = none

/-- The protocol of the executions. -/
def issuing (c : Cipher) : Protocol Desk Cmd Cmd.Resp where
  allowed g
    | .statement (.updateTokens id access refresh expiry) => ∃ sent tok,
        g.Rotated c id access expiry sent tok ∧ tok.refreshToken ≠ "" ∧
          c.encryptString tok.refreshToken = .ok refresh
    | .statement (.updateAccessToken id access expiry) => ∃ sent tok,
        g.Rotated c id access expiry sent tok ∧ tok.refreshToken = ""
    | .statement (.upsertConnection p) => (∃ tok, g.Exchanged c p tok) ∨ g.Entered p
    | _ => True
  next := Desk.next

/-- A command that stores no tokens. -/
def Cmd.storesNoToken : Cmd → Bool
  | .statement (.updateTokens _ _ _ _) | .statement (.updateAccessToken _ _ _)
  | .statement (.upsertConnection _) => false
  | _ => true

/-! ### The executions -/

/-- The part of an activity that gets its client: the connection is loaded, its token is refreshed
if one is due, and a failure is classified. -/
def Activities.openClient (a : Activities) (id : Uuid) (unitID : String) : Program Unit := do
  match ← a.loadConnection id with
  | .error _ => return ()
  | .ok (conn, _) =>
      match ← a.clientFor conn with
      | .ok _ => return ()
      | .error e =>
          let _ ← Activities.classify conn unitID e
          return ()

/-- The executions: the clients of the activities, the connect flows, and any program that stores
no tokens. -/
inductive TokenWriter where
  | openClient (connectionID : Uuid) (unitID : String)
  | completeConnection (state code installationID : String)
  | completeTokenConnection (tenant : Option String) (region connectorID token name : String)
  | other (p : Program Unit) (h : p.Uses fun c => c.storesNoToken = true)

/-- The program of an execution. -/
def TokenWriter.prog (a : Activities) (s : Server) : TokenWriter → Program Unit
  | .openClient id unitID => a.openClient id unitID
  | .completeConnection state code inst => discard (s.completeConnection state code inst)
  | .completeTokenConnection tenant region connectorID token name =>
      discard (s.completeTokenConnection tenant region connectorID token name)
  | .other p _ => p

/-! ### Every execution follows the protocol -/

section Follows

variable {c : Cipher} {g : Desk} {α : Type}

/-- A program that stores tokens as the protocol says. -/
abbrev Issues (c : Cipher) (g : Desk) (p : Program α) : Prop :=
  p.Follows (issuing c) (fun _ _ => True) g

theorem allowed_of_storesNoToken {cmd : Cmd} (h : cmd.storesNoToken = true) (g : Desk) :
    (issuing c).allowed g cmd := by
  cases cmd with
  | statement s => cases s <;> trivial
  | _ => trivial

theorem issues_of_storesNoToken {p : Program α} (hp : p.Uses fun c => c.storesNoToken = true) :
    Issues c g p := by
  refine Prog.follows_of_uses (I := fun _ => True) (hp.mono fun cmd hcmd g _ => ?_) trivial
  exact ⟨allowed_of_storesNoToken hcmd g, fun _ => trivial⟩

theorem Issues.discard {p : Program α} (h : Issues c g p) : Issues c g (discard p) :=
  Prog.Follows.bind h fun _ _ _ => trivial

theorem storesNoToken_classify (conn : Connection) (unitID : String) (err : Err) :
    (Activities.classify conn unitID err).Uses fun c => c.storesNoToken = true := by
  unfold Activities.classify
  split
  · exact ⟨rfl, fun _ => ⟨rfl, fun _ => trivial⟩⟩
  · exact Prog.uses_pure _ _
  · refine Prog.Uses.bind ?_ fun _ => Prog.uses_pure _ _
    unfold Activities.armBackoff
    split
    · exact Prog.uses_pure _ _
    · exact ⟨rfl, fun _ => ⟨rfl, fun _ => ⟨rfl, fun _ => trivial⟩⟩⟩

/-- A rotated token is stored with the row it was asked for in hand. -/
theorem issues_persistRotatedToken (a : Activities) {conn : Connection} {rest : List Connection}
    {sent : String} {tok : OAuthToken} (hrows : g.rows = conn :: rest)
    (hgiven : g.given = some (some sent, tok))
    (hsent : ∃ row ∈ g.rows, a.cipher.decryptString (row.refreshToken.getD []) = .ok sent) :
    Issues a.cipher g (a.persistRotatedToken conn.id tok) := by
  unfold Activities.persistRotatedToken
  cases haccess : a.cipher.encryptString tok.accessToken with
  | error e => trivial
  | ok access =>
    have hrotated : g.Rotated a.cipher conn.id access tok.expiry sent tok :=
      ⟨hgiven, ⟨conn, rest, hrows, rfl⟩, hsent, haccess, rfl⟩
    dsimp only
    split
    · rename_i hempty
      exact ⟨⟨sent, tok, hrotated, hempty⟩, fun _ => trivial⟩
    · rename_i hne
      cases hrefresh : a.cipher.encryptString tok.refreshToken with
      | error e => trivial
      | ok refresh => exact ⟨⟨sent, tok, hrotated, hne, hrefresh⟩, fun _ => trivial⟩

theorem issues_rotate (a : Activities) {conn : Connection} {rest : List Connection}
    {refresh : String} (hrows : g.rows = conn :: rest)
    (hsent : ∃ row ∈ g.rows, a.cipher.decryptString (row.refreshToken.getD []) = .ok refresh) :
    Issues a.cipher g (a.rotate conn refresh) := by
  unfold Activities.rotate
  cases a.reg.get conn.connectorID with
  | none => trivial
  | some _ =>
    refine ⟨trivial, fun r => ?_⟩
    cases r with
    | error e => trivial
    | ok tok =>
      show Issues _ _ ((a.persistRotatedToken conn.id tok).bind _)
      refine Prog.Follows.bind (issues_persistRotatedToken a hrows rfl hsent) fun r g _ => ?_
      cases r <;> trivial

/-- The token that is sent is one of a row that was read. -/
theorem issues_rotateLocked (a : Activities) {conn : Connection} {access refresh : String}
    (hrows : g.rows = [conn])
    (hsent : a.cipher.decryptString (conn.refreshToken.getD []) = .ok refresh) :
    Issues a.cipher g (a.rotateLocked conn access refresh) := by
  refine ⟨trivial, fun r => ?_⟩
  have hmem : conn ∈ g.rows := hrows ▸ List.mem_singleton_self conn
  cases r with
  | error e => exact issues_rotate a hrows ⟨conn, hmem, hsent⟩
  | ok cur =>
    refine ⟨trivial, fun now => ?_⟩
    show Issues _ _ (if stillFresh now cur.tokenExpiry = true then _ else _)
    split
    · trivial
    · refine issues_rotate a rfl ?_
      have hkept : conn ∈ g.rows.filter fun r => decide (r.id = conn.id) :=
        List.mem_filter.mpr ⟨hmem, decide_eq_true rfl⟩
      have hold : ∃ row ∈ cur :: g.rows.filter fun r => decide (r.id = conn.id),
          a.cipher.decryptString (row.refreshToken.getD []) = .ok refresh :=
        ⟨conn, List.mem_cons_of_mem cur hkept, hsent⟩
      unfold Activities.currentRefresh
      cases hcur : a.cipher.decryptString (cur.refreshToken.getD []) with
      | error e => exact hold
      | ok r =>
        dsimp only
        split
        · exact hold
        · exact ⟨cur, List.mem_cons_self, hcur⟩

theorem issues_refreshedAccessToken (a : Activities) {conn : Connection}
    (hrows : g.rows = [conn]) : Issues a.cipher g (a.refreshedAccessToken conn) := by
  unfold Activities.refreshedAccessToken
  cases a.cipher.decryptString conn.accessToken with
  | error e => trivial
  | ok access =>
    dsimp only
    cases hrefresh : a.cipher.decryptString (conn.refreshToken.getD []) with
    | error e => trivial
    | ok refresh =>
      dsimp only
      split
      · trivial
      · refine ⟨trivial, fun now => ?_⟩
        show Issues _ _ (if stillFresh now conn.tokenExpiry = true then _ else _)
        split
        · trivial
        · exact issues_rotateLocked a hrows hrefresh

theorem issues_clientFor (a : Activities) {conn : Connection} (hrows : g.rows = [conn]) :
    Issues a.cipher g (a.clientFor conn) := by
  unfold Activities.clientFor
  dsimp only
  split
  · split
    · trivial
    · exact ⟨trivial, fun _ => trivial⟩
  · exact issues_refreshedAccessToken a hrows

theorem issues_openClient (a : Activities) (id : Uuid) (unitID : String) :
    Issues a.cipher .init (a.openClient id unitID) := by
  refine ⟨trivial, fun r => ?_⟩
  cases r with
  | error e => trivial
  | ok conn =>
    have hclient : ∀ (g : Desk) (connector : Connector), g.rows = [conn] →
        Issues a.cipher g ((a.clientFor conn).bind fun r => match r with
          | .ok _ => .pure ()
          | .error e => (Activities.classify conn unitID e).bind fun _ => .pure ()) := by
      intro g connector hrows
      refine Prog.Follows.bind (issues_clientFor a hrows) fun r g _ => ?_
      cases r with
      | ok _ => trivial
      | error e =>
        refine Prog.Follows.bind (R := fun _ _ => True) ?_ fun _ _ _ => trivial
        exact issues_of_storesNoToken (storesNoToken_classify conn unitID e)
    dsimp only [Prog.pure_bind]
    cases a.reg.get conn.connectorID with
    | none => trivial
    | some connector => exact hclient _ connector rfl

/-- The upsert is the only store of a connect. -/
theorem issues_saveConnection {p : UpsertConnectionParams}
    (h : (∃ tok, g.Exchanged c p tok) ∨ g.Entered p) : Issues c g (Server.saveConnection p) := by
  refine ⟨h, fun r => ?_⟩
  cases r with
  | error e => trivial
  | ok row => exact ⟨trivial, fun _ => ⟨trivial, fun _ => trivial⟩⟩

theorem issues_completeInstallation (s : Server) (st : OAuthState) (connector : Connector)
    (creds : Creds) (inst : String) (hg : g.given = none) :
    Issues c g (s.completeInstallation st connector creds inst) := by
  unfold Server.completeInstallation
  split
  · trivial
  · refine ⟨trivial, fun r => ?_⟩
    exact issues_saveConnection (.inr ⟨hg, rfl, rfl⟩)

theorem issues_completeOAuth (s : Server) (st : OAuthState) (connector : Connector)
    (code : String) : Issues s.cipher g (s.completeOAuth st connector code) := by
  refine ⟨trivial, fun r => ?_⟩
  cases r with
  | error e => trivial
  | ok tok =>
    refine ⟨trivial, fun r => ?_⟩
    dsimp only [Prog.pure_bind]
    split
    · rename_i access refresh haccess hrefresh
      exact issues_saveConnection (.inl ⟨tok, rfl, haccess, ⟨refresh, hrefresh, rfl⟩, rfl⟩)
    · trivial

theorem issues_completeConnection (s : Server) (state code inst : String) (hg : g.given = none) :
    Issues s.cipher g (s.completeConnection state code inst) := by
  refine ⟨trivial, fun now => ?_⟩
  dsimp only [Prog.pure_bind]
  split
  · trivial
  · split
    · trivial
    · split
      · exact issues_completeInstallation s _ _ _ inst hg
      · exact issues_completeOAuth s _ _ code

theorem issues_completeTokenConnection (s : Server) (hc : s.cipher.Inverts)
    (tenant : Option String) (region connectorID token name : String) (hg : g.given = none) :
    Issues s.cipher g (s.completeTokenConnection tenant region connectorID token name) := by
  unfold Server.completeTokenConnection
  split
  · trivial
  · split
    · trivial
    · refine ⟨trivial, fun r => ?_⟩
      dsimp only [Prog.pure_bind]
      cases r with
      | error e => trivial
      | ok login =>
        dsimp only
        split
        · rename_i access refresh haccess hrefresh
          have hnil : refresh = [] := Except.ok.inj (hrefresh.symm.trans hc.encrypt_empty)
          exact issues_saveConnection (.inr ⟨hg, hnil, rfl⟩)
        · trivial

/-- **Every execution follows the protocol.** -/
theorem TokenWriter.follows {a : Activities} {s : Server} (hc : a.cipher.Inverts)
    (hs : s.cipher = a.cipher) (x : TokenWriter) : Issues a.cipher .init (x.prog a s) := by
  cases x with
  | openClient id unitID => exact issues_openClient a id unitID
  | completeConnection state code inst =>
    exact hs ▸ (issues_completeConnection s state code inst rfl).discard
  | completeTokenConnection tenant region connectorID token name =>
    have hcipher : s.cipher.Inverts := hs ▸ hc
    exact hs ▸
      (issues_completeTokenConnection s hcipher tenant region connectorID token name rfl).discard
  | other p h => exact issues_of_storesNoToken h

end Follows

/-! ### What the desk says about the steps -/

/-- One step of a run. -/
abbrev TokenStep := Performed World Choice Cmd

/-- The desk of an execution after its steps. -/
def deskAfter (ls : List TokenStep) : Desk :=
  ls.foldl (fun g l => g.next l.cmd (service.perform l.choice l.cancelled l.state l.cmd).2) .init

/-- The token a step was answered with, and the refresh token it had sent. -/
def givenBy (l : TokenStep) : Option (Option String × OAuthToken) :=
  tokenGiven l.cmd (service.perform l.choice l.cancelled l.state l.cmd).2

theorem deskAfter_snoc (ls : List TokenStep) (l : TokenStep) : deskAfter (ls ++ [l]) =
    (deskAfter ls).next l.cmd (service.perform l.choice l.cancelled l.state l.cmd).2 := by
  unfold deskAfter
  rw [List.foldl_append]
  rfl

theorem after_issuing (c : Cipher) (ls : List TokenStep) :
    (issuing c).after service .init ls = deskAfter ls := rfl

/-- Every other command leaves the rows on the desk. -/
theorem Desk.next_of_ne (g : Desk) {c : Cmd} (h : ∀ id, c ≠ .statement (.getConnectionByID id))
    (r : c.Resp) : g.next c r = { g with given := (tokenGiven c r).or g.given } := by
  cases c with
  | statement s => cases s <;> first | rfl | exact absurd rfl (h _)
  | _ => rfl

/-- A row that is read goes on the desk; it was in the database. -/
theorem deskAfter_read (ls : List TokenStep) {l : TokenStep} {id : Uuid}
    (hl : l.cmd = .statement (.getConnectionByID id)) :
    deskAfter (ls ++ [l]) = deskAfter ls ∨
      ∃ conn ∈ l.state.db.connections.rows, conn.id = id ∧ deskAfter (ls ++ [l]) =
        { rows := conn :: (deskAfter ls).rows.filter fun r => decide (r.id = id),
          given := none } := by
  obtain ⟨w, cmd, b, x⟩ := l
  replace hl : cmd = _ := hl
  subst hl
  rw [deskAfter_snoc]
  cases hanswer : (service.perform x b w (.statement (.getConnectionByID id))).2 with
  | error e =>
    exact .inl rfl
  | ok conn =>
    rw [service_statement] at hanswer
    obtain ⟨hmem, hid⟩ := mem_of_getConnectionByID (of_reply_eq_ok hanswer).2
    exact .inr ⟨conn, hmem, hid, rfl⟩

/-- The token on the desk was answered to a step, and no row was read since. -/
theorem given_deskAfter {ls : List TokenStep} {sent : Option String} {tok : OAuthToken}
    (h : (deskAfter ls).given = some (sent, tok)) : ∃ pre l post, ls = pre ++ l :: post ∧
      givenBy l = some (sent, tok) ∧ (deskAfter pre).rows = (deskAfter ls).rows := by
  induction ls using List.reverseRecOn with
  | nil => cases h
  | append_singleton ls l ih =>
    -- the step has left the desk as it was
    have hback : (deskAfter ls).given = some (sent, tok) →
        (deskAfter (ls ++ [l])).rows = (deskAfter ls).rows → ∃ pre l' post,
          ls ++ [l] = pre ++ l' :: post ∧ givenBy l' = some (sent, tok) ∧
          (deskAfter pre).rows = (deskAfter (ls ++ [l])).rows := by
      intro hgiven hrows
      obtain ⟨pre, l', post, rfl, hl', heq⟩ := ih hgiven
      exact ⟨pre, l', post ++ [l], by simp, hl', heq.trans hrows.symm⟩
    by_cases hread : ∃ id, l.cmd = .statement (.getConnectionByID id)
    · obtain ⟨id, hl⟩ := hread
      rcases deskAfter_read ls hl with hsame | ⟨conn, -, -, hnext⟩
      · exact hback (hsame ▸ h) (congrArg Desk.rows hsame)
      · rw [hnext] at h
        cases h
    · have hnext : deskAfter (ls ++ [l]) =
          { deskAfter ls with given := (givenBy l).or (deskAfter ls).given } := by
        rw [deskAfter_snoc]
        exact Desk.next_of_ne _ (fun id hl => hread ⟨id, hl⟩) _
      cases hgiven : givenBy l with
      | none =>
        rw [hgiven, Option.none_or] at hnext
        have hsame : deskAfter (ls ++ [l]) = deskAfter ls := hnext
        exact hback (hsame ▸ h) (congrArg Desk.rows hsame)
      | some t =>
        rw [hgiven, Option.some_or] at hnext
        rw [hnext] at h
        obtain rfl : t = (sent, tok) := Option.some.inj h
        exact ⟨ls, l, [], rfl, hgiven, (congrArg Desk.rows hnext).symm⟩

/-- The rows on the desk are of one connection, and each was read. -/
theorem rows_deskAfter (ls : List TokenStep) : ∃ id, ∀ row ∈ (deskAfter ls).rows, row.id = id ∧
    ∃ l ∈ ls, l.cmd = .statement (.getConnectionByID id) ∧
      row ∈ l.state.db.connections.rows := by
  induction ls using List.reverseRecOn with
  | nil => exact ⟨0, fun row hrow => absurd hrow List.not_mem_nil⟩
  | append_singleton ls l ih =>
    obtain ⟨id, hrows⟩ := ih
    -- what was read before is still in the steps
    have hback : ∀ row ∈ (deskAfter ls).rows, row.id = id ∧ ∃ l' ∈ ls ++ [l],
        l'.cmd = .statement (.getConnectionByID id) ∧ row ∈ l'.state.db.connections.rows := by
      intro row hrow
      obtain ⟨hid, l', hl', hread⟩ := hrows row hrow
      exact ⟨hid, l', List.mem_append_left _ hl', hread⟩
    by_cases hread : ∃ id, l.cmd = .statement (.getConnectionByID id)
    · obtain ⟨id', hl⟩ := hread
      rcases deskAfter_read ls hl with hsame | ⟨conn, hconn, hid', hnext⟩
      · exact ⟨id, hsame ▸ hback⟩
      · refine ⟨id', fun row hrow => ?_⟩
        rw [hnext] at hrow
        rcases List.mem_cons.mp hrow with rfl | hrow
        · exact ⟨hid', l, List.mem_append_right _ (List.mem_singleton_self l), hl, hconn⟩
        · obtain ⟨hrow, heq⟩ := List.mem_filter.mp hrow
          obtain ⟨hid, hold⟩ := hback row hrow
          have hsame : id = id' := hid.symm.trans (of_decide_eq_true heq)
          exact hsame ▸ ⟨hid, hold⟩
    · have hnext : deskAfter (ls ++ [l]) =
          { deskAfter ls with given := (givenBy l).or (deskAfter ls).given } := by
        rw [deskAfter_snoc]
        exact Desk.next_of_ne _ (fun id hl => hread ⟨id, hl⟩) _
      rw [hnext]
      exact ⟨id, hback⟩

/-! ### Where the tokens come from -/

/-- An execution works for a connection: it reads its row, or it upserts it. -/
def WorksFor (id : Uuid) (ls : List TokenStep) : Prop :=
  ∃ l ∈ ls, l.cmd = .statement (.getConnectionByID id) ∨ ∃ p row,
    l.cmd = .statement (.upsertConnection p) ∧ tookEffect l = true ∧
      (upsertConnection p l.state.db).1 = .ok row ∧ row.id = id

/-- An execution was given a refresh token other than the one it had sent. -/
def IssuesRefresh (ls : List TokenStep) (r : String) : Prop :=
  ∃ l ∈ ls, ∃ sent tok, givenBy l = some (sent, tok) ∧ tok.refreshToken = r ∧ sent ≠ some r

/-- The access token and the expiry are those in hand. -/
def Desk.Holds (c : Cipher) (g : Desk) (tok : OAuthToken) : Prop :=
  ∃ row rest, g.rows = row :: rest ∧ c.decryptString row.accessToken = .ok tok.accessToken ∧
    row.tokenExpiry = tok.expiry

/-- An execution was given a token, by an exchange or other than the one in hand. -/
def IssuesAccess (c : Cipher) (ls : List TokenStep) (tok : OAuthToken) : Prop :=
  ∃ pre l post sent, ls = pre ++ l :: post ∧ givenBy l = some (sent, tok) ∧
    (sent = none ∨ ¬ (deskAfter pre).Holds c tok)

/-- An execution that was given no token upserts a token that was entered, or none. -/
def Enters (ls : List TokenStep) (p : UpsertConnectionParams) : Prop :=
  ∃ pre l post, ls = pre ++ l :: post ∧ l.cmd = .statement (.upsertConnection p) ∧
    (deskAfter pre).Entered p

/-- **The refresh token of a row** is the one it had at the start, or it was issued to an execution
that works for the row. -/
inductive HoldsRefresh (c : Cipher) (w₀ : World) (tr : List (ℕ × TokenStep))
    (conn : Connection) : Prop
  | initial {conn₀ : Connection} (hmem : conn₀ ∈ w₀.db.connections.rows)
      (hid : conn₀.id = conn.id) (hstored : conn₀.storesRefresh)
      (hsame : c.decryptString (conn₀.refreshToken.getD []) =
        c.decryptString (conn.refreshToken.getD []))
  | issued {i : ℕ} {r : String} (hne : r ≠ "")
      (hdecrypt : c.decryptString (conn.refreshToken.getD []) = .ok r)
      (hworks : WorksFor conn.id (byThread i tr)) (hissued : IssuesRefresh (byThread i tr) r)

/-- **The access token of a row and its expiry** are those it had at the start, those of one token
that was issued to an execution that works for the row, or a token that was entered. -/
inductive HoldsAccess (c : Cipher) (w₀ : World) (tr : List (ℕ × TokenStep))
    (conn : Connection) : Prop
  | initial {conn₀ : Connection} (hmem : conn₀ ∈ w₀.db.connections.rows)
      (hid : conn₀.id = conn.id)
      (hsame : c.decryptString conn₀.accessToken = c.decryptString conn.accessToken)
      (hexpiry : conn₀.tokenExpiry = conn.tokenExpiry)
  | issued {i : ℕ} {tok : OAuthToken}
      (hdecrypt : c.decryptString conn.accessToken = .ok tok.accessToken)
      (hexpiry : conn.tokenExpiry = tok.expiry) (hworks : WorksFor conn.id (byThread i tr))
      (hissued : IssuesAccess c (byThread i tr) tok)
  | entered {i : ℕ} {p : UpsertConnectionParams}
      (hsame : c.decryptString conn.accessToken = c.decryptString p.accessToken)
      (hexpiry : conn.tokenExpiry = none) (hworks : WorksFor conn.id (byThread i tr))
      (hentered : Enters (byThread i tr) p)

section Sourced

variable {c : Cipher} {w₀ w : World} {tr : List (ℕ × TokenStep)} {conn conn' : Connection}

theorem WorksFor.mono {id : Uuid} {ls ls' : List TokenStep} (h : WorksFor id ls)
    (hle : ls <+: ls') : WorksFor id ls' := by
  obtain ⟨l, hl, hworks⟩ := h
  exact ⟨l, hle.subset hl, hworks⟩

theorem IssuesRefresh.mono {r : String} {ls ls' : List TokenStep} (h : IssuesRefresh ls r)
    (hle : ls <+: ls') : IssuesRefresh ls' r := by
  obtain ⟨l, hl, hissues⟩ := h
  exact ⟨l, hle.subset hl, hissues⟩

theorem IssuesAccess.mono {tok : OAuthToken} {ls ls' : List TokenStep}
    (h : IssuesAccess c ls tok) (hle : ls <+: ls') : IssuesAccess c ls' tok := by
  obtain ⟨pre, l, post, sent, rfl, hissues⟩ := h
  obtain ⟨more, rfl⟩ := hle
  exact ⟨pre, l, post ++ more, sent, by simp, hissues⟩

theorem Enters.mono {p : UpsertConnectionParams} {ls ls' : List TokenStep} (h : Enters ls p)
    (hle : ls <+: ls') : Enters ls' p := by
  obtain ⟨pre, l, post, rfl, henters⟩ := h
  obtain ⟨more, rfl⟩ := hle
  exact ⟨pre, l, post ++ more, by simp, henters⟩

theorem HoldsRefresh.mono (h : HoldsRefresh c w₀ tr conn) (more : List (ℕ × TokenStep)) :
    HoldsRefresh c w₀ (tr ++ more) conn := by
  cases h with
  | initial hmem hid hstored hsame => exact .initial hmem hid hstored hsame
  | issued hne hdecrypt hworks hissued =>
    exact .issued hne hdecrypt (hworks.mono (byThread_mono _ _ _))
      (hissued.mono (byThread_mono _ _ _))

theorem HoldsAccess.mono (h : HoldsAccess c w₀ tr conn) (more : List (ℕ × TokenStep)) :
    HoldsAccess c w₀ (tr ++ more) conn := by
  cases h with
  | initial hmem hid hsame hexpiry => exact .initial hmem hid hsame hexpiry
  | issued hdecrypt hexpiry hworks hissued =>
    exact .issued hdecrypt hexpiry (hworks.mono (byThread_mono _ _ _))
      (hissued.mono (byThread_mono _ _ _))
  | entered hsame hexpiry hworks hentered =>
    exact .entered hsame hexpiry (hworks.mono (byThread_mono _ _ _))
      (hentered.mono (byThread_mono _ _ _))

/-- It depends on the decrypted token only. -/
theorem HoldsRefresh.congr (h : HoldsRefresh c w₀ tr conn) (hid : conn'.id = conn.id)
    (hsame : c.decryptString (conn'.refreshToken.getD []) =
      c.decryptString (conn.refreshToken.getD [])) : HoldsRefresh c w₀ tr conn' := by
  cases h with
  | initial hmem hid₀ hstored hsame₀ =>
    exact .initial hmem (hid₀.trans hid.symm) hstored (hsame₀.trans hsame.symm)
  | issued hne hdecrypt hworks hissued =>
    exact .issued hne (hsame.trans hdecrypt) (hid ▸ hworks) hissued

theorem HoldsAccess.congr (h : HoldsAccess c w₀ tr conn) (hid : conn'.id = conn.id)
    (hsame : c.decryptString conn'.accessToken = c.decryptString conn.accessToken)
    (hexpiry : conn'.tokenExpiry = conn.tokenExpiry) : HoldsAccess c w₀ tr conn' := by
  cases h with
  | initial hmem hid₀ hsame₀ hexpiry₀ =>
    exact .initial hmem (hid₀.trans hid.symm) (hsame₀.trans hsame.symm)
      (hexpiry₀.trans hexpiry.symm)
  | issued hdecrypt hexpiry₀ hworks hissued =>
    exact .issued (hsame.trans hdecrypt) (hexpiry.trans hexpiry₀) (hid ▸ hworks) hissued
  | entered hsame₀ hexpiry₀ hworks hentered =>
    exact .entered (hsame.trans hsame₀) (hexpiry.trans hexpiry₀) (hid ▸ hworks) hentered

/-- The tokens of a row were issued. -/
structure Sourced (c : Cipher) (w₀ : World) (tr : List (ℕ × TokenStep)) (conn : Connection) :
    Prop where
  refresh : conn.storesRefresh → HoldsRefresh c w₀ tr conn
  access : HoldsAccess c w₀ tr conn

theorem Sourced.mono (h : Sourced c w₀ tr conn) (more : List (ℕ × TokenStep)) :
    Sourced c w₀ (tr ++ more) conn :=
  ⟨fun hstored => (h.refresh hstored).mono more, h.access.mono more⟩

/-- The tokens of the rows that were read were issued. -/
def ReadsSourced (c : Cipher) (w₀ : World) (tr : List (ℕ × TokenStep)) : Prop :=
  ∀ l ∈ tr, ∀ conn ∈ l.2.state.db.connections.rows, Sourced c w₀ tr conn

/-- A row on a desk is sourced, and its execution works for it. -/
theorem sourced_of_desk (hread : ReadsSourced c w₀ tr) {i : ℕ} {row row' : Connection}
    (hrow : row ∈ (deskAfter (byThread i tr)).rows)
    (hrow' : row' ∈ (deskAfter (byThread i tr)).rows) :
    Sourced c w₀ tr row ∧ row.id = row'.id ∧ WorksFor row.id (byThread i tr) := by
  obtain ⟨id, hrows⟩ := rows_deskAfter (byThread i tr)
  obtain ⟨hid, l, hl, hcmd, hmem⟩ := hrows row hrow
  refine ⟨hread (i, l) (mem_of_mem_byThread hl) row hmem, hid.trans (hrows row' hrow').1.symm, ?_⟩
  exact ⟨l, hl, .inl (hid ▸ hcmd)⟩

variable {i : ℕ} {id : Uuid} {access : Bytes} {expiry : Option Time} {sent : String}
  {tok : OAuthToken}

/-- A rotated access token was issued, now or before. -/
theorem holdsAccess_of_rotated (hc : c.Inverts) (hread : ReadsSourced c w₀ tr)
    (h : (deskAfter (byThread i tr)).Rotated c id access expiry sent tok) (hid : conn.id = id)
    (haccess : conn.accessToken = access) (hexpiry : conn.tokenExpiry = expiry) :
    HoldsAccess c w₀ tr conn := by
  obtain ⟨row, rest, hrows, hrowid⟩ := h.read
  have hrow : row ∈ (deskAfter (byThread i tr)).rows := hrows ▸ List.mem_cons_self
  obtain ⟨hsourced, -, hworks⟩ := sourced_of_desk hread hrow hrow
  have hdecrypt : c.decryptString conn.accessToken = .ok tok.accessToken :=
    haccess ▸ hc.decrypt_encrypt _ _ h.access
  have hconn : conn.id = row.id := hid.trans hrowid.symm
  obtain ⟨pre, l, post, hsplit, hgiven, hpre⟩ := given_deskAfter h.given
  by_cases hhold : (deskAfter pre).Holds c tok
  · -- the token in hand, which is the one of the row that was read last
    obtain ⟨row', rest', hrows', hsame, hexpiry'⟩ := hhold
    rw [hpre, hrows] at hrows'
    obtain ⟨rfl, rfl⟩ := List.cons.inj hrows'
    exact hsourced.access.congr hconn (hdecrypt.trans hsame.symm)
      ((hexpiry.trans h.expiry).trans hexpiry'.symm)
  · exact .issued hdecrypt (hexpiry.trans h.expiry) (hconn ▸ hworks)
      ⟨pre, l, post, some sent, hsplit, hgiven, .inr hhold⟩

/-- A rotated refresh token was issued, now or before. -/
theorem holdsRefresh_of_rotated (hc : c.Inverts) (hread : ReadsSourced c w₀ tr)
    (h : (deskAfter (byThread i tr)).Rotated c id access expiry sent tok)
    (hne : tok.refreshToken ≠ "") (hid : conn.id = id)
    (hdecrypt : c.decryptString (conn.refreshToken.getD []) = .ok tok.refreshToken) :
    HoldsRefresh c w₀ tr conn := by
  obtain ⟨row, rest, hrows, hrowid⟩ := h.read
  have hrow : row ∈ (deskAfter (byThread i tr)).rows := hrows ▸ List.mem_cons_self
  obtain ⟨row', hrow', hsent⟩ := h.sent
  obtain ⟨hsourced, hsame, hworks⟩ := sourced_of_desk hread hrow' hrow
  have hconn : conn.id = row'.id := hid.trans (hsame.trans hrowid).symm
  by_cases hfresh : tok.refreshToken = sent
  · -- the token that was sent, which is one of a row that was read
    have hstored : row'.storesRefresh := by
      intro hnil
      rw [hnil, hc.decrypt_nil] at hsent
      exact hne (hfresh.trans (Except.ok.inj hsent).symm)
    exact (hsourced.refresh hstored).congr hconn
      (hdecrypt.trans ((congrArg Except.ok hfresh).trans hsent.symm))
  · obtain ⟨pre, l, post, hsplit, hgiven, -⟩ := given_deskAfter h.given
    refine .issued hne hdecrypt (hconn ▸ hworks) ⟨l, ?_, some sent, tok, hgiven, rfl, ?_⟩
    · rw [hsplit]
      exact List.mem_append_right _ List.mem_cons_self
    · intro heq
      exact hfresh (Option.some.inj heq).symm

end Sourced

/-! ### One step -/

/-- What a connect leaves: the token it brings, or the stored one if it brings none. -/
theorem keptRefreshToken_cases (new old : Option Bytes) :
    new.getD [] ≠ [] ∧ keptRefreshToken new old = new ∨
      new.getD [] = [] ∧ keptRefreshToken new old = old := by
  cases new with
  | none => exact .inr ⟨rfl, rfl⟩
  | some b =>
    cases b with
    | nil => exact .inr ⟨rfl, rfl⟩
    | cons x xs => exact .inl ⟨List.cons_ne_nil x xs, rfl⟩

/-- The rows and what was read of them were issued, and a stored refresh token stays. -/
structure Accounted (c : Cipher) (w₀ w : World) (tr : List (ℕ × TokenStep)) : Prop where
  rows : ∀ conn ∈ w.db.connections.rows, Sourced c w₀ tr conn
  read : ReadsSourced c w₀ tr
  kept : ∀ l ∈ tr, ∀ conn ∈ l.2.state.db.connections.rows, conn.storesRefresh →
    ∃ conn' ∈ w.db.connections.rows, conn'.id = conn.id ∧ conn'.storesRefresh

section Step

variable {c : Cipher} {w₀ w : World} {tr : List (ℕ × TokenStep)} {i : ℕ} {x : Choice} {b : Bool}

/-- A row that keeps its tokens stays sourced. -/
theorem Sourced.of_same {conn conn' : Connection} (h : Sourced c w₀ tr conn)
    (hid : conn'.id = conn.id) (hrefresh : conn'.refreshToken = conn.refreshToken)
    (haccess : (conn'.accessToken, conn'.tokenExpiry) = (conn.accessToken, conn.tokenExpiry)) :
    Sourced c w₀ tr conn' := by
  obtain ⟨htoken, hexpiry⟩ := Prod.mk.inj haccess
  refine ⟨fun hstored => ?_, h.access.congr hid (by rw [htoken]) hexpiry⟩
  unfold Connection.storesRefresh at hstored
  rw [hrefresh] at hstored
  exact (h.refresh hstored).congr hid (by rw [hrefresh])

/-- What a connect stores was issued or entered, and what it keeps was issued. -/
theorem sourced_of_upsert (hc : c.Inverts) {p : UpsertConnectionParams} {conn : Connection}
    {l : TokenStep} (hl : l.cmd = .statement (.upsertConnection p))
    (hallowed : (issuing c).allowed (deskAfter (byThread i tr)) (.statement (.upsertConnection p)))
    (hworks : WorksFor conn.id (byThread i (tr ++ [(i, l)])))
    (haccess : conn.accessToken = p.accessToken) (hexpiry : conn.tokenExpiry = p.tokenExpiry)
    (hrefresh : conn.storesRefresh → conn.refreshToken = p.refreshToken ∨
      HoldsRefresh c w₀ (tr ++ [(i, l)]) conn) : Sourced c w₀ (tr ++ [(i, l)]) conn := by
  have hmono : byThread i tr <+: byThread i (tr ++ [(i, l)]) := byThread_mono _ _ _
  rcases hallowed with ⟨tok, hgiven, htoken, ⟨stored, hencrypt, hstored⟩, hexp⟩ | hentered
  · obtain ⟨pre, l', post, hsplit, hl', -⟩ := given_deskAfter hgiven
    refine ⟨fun hstores => ?_, ?_⟩
    · rcases hrefresh hstores with heq | hold
      · rw [hstored] at heq
        have hdecrypt : c.decryptString (conn.refreshToken.getD []) = .ok tok.refreshToken := by
          rw [heq]
          exact hc.decrypt_encrypt _ _ hencrypt
        have hne : tok.refreshToken ≠ "" := by
          intro hempty
          refine hstores ?_
          rw [heq]
          exact (hc.eq_nil_iff hencrypt).mpr hempty
        have hissues : IssuesRefresh (byThread i tr) tok.refreshToken :=
          ⟨l', hsplit ▸ List.mem_append_right _ List.mem_cons_self, none, tok, hl', rfl, nofun⟩
        exact .issued hne hdecrypt hworks (hissues.mono hmono)
      · exact hold
    · have hissues : IssuesAccess c (byThread i tr) tok :=
        ⟨pre, l', post, none, hsplit, hl', .inl rfl⟩
      exact .issued (haccess ▸ hc.decrypt_encrypt _ _ htoken) (hexpiry.trans hexp) hworks
        (hissues.mono hmono)
  · refine ⟨fun hstores => ?_, ?_⟩
    · rcases hrefresh hstores with heq | hold
      · refine absurd ?_ hstores
        rw [heq]
        exact hentered.refresh
      · exact hold
    · exact .entered (haccess ▸ rfl) (hexpiry.trans hentered.expiry) hworks
        ⟨byThread i tr, l, [], byThread_snoc_self i tr l, hl, hentered⟩

/-- The row of an upsert is the one its execution works for. -/
theorem worksFor_upserted (tr : List (ℕ × TokenStep)) (i : ℕ) {p : UpsertConnectionParams}
    {conn : Connection} (heffect : x.takesEffect b = true)
    (hconn : conn ∈ (upsertConnection p w.db).2.connections.rows)
    (hkey : conn.key = (p.new 0).key) : WorksFor conn.id
      (byThread i (tr ++ [(i, ⟨w, .statement (.upsertConnection p), b, x⟩)])) := by
  refine ⟨⟨w, .statement (.upsertConnection p), b, x⟩, ?_, .inr ⟨p, conn, rfl, heffect, ?_, rfl⟩⟩
  · rw [byThread_snoc_self]
    exact List.mem_append_right _ (List.mem_singleton_self _)
  · exact upsertConnection_answer hconn hkey

/-- **A row that a statement leaves is sourced.** -/
theorem Accounted.sourced (h : Accounted c w₀ w tr) (hc : c.Inverts) {s : Statement}
    (hallowed : (issuing c).allowed (deskAfter (byThread i tr)) (.statement s))
    (heffect : x.takesEffect b = true) {now : Time} {conn' : Connection}
    (hconn' : conn' ∈ (s.exec now w.db).2.connections.rows) :
    Sourced c w₀ (tr ++ [(i, ⟨w, .statement s, b, x⟩)]) conn' := by
  rcases mem_exec_connections now s hconn' with
    ⟨conn, hconn, hid, hkey, hrefresh, haccess⟩ | ⟨p, rfl, rfl⟩
  · have hbefore := h.rows conn hconn
    cases s with
    | updateTokens id access refresh expiry =>
      by_cases hhit : conn.id = id
      · obtain ⟨sent, tok, hrotated, hne, hencrypt⟩ := hallowed
        obtain ⟨htoken, hexpiry⟩ := Prod.mk.inj (haccess.trans (if_pos hhit))
        -- both tokens are of the rotation that the execution was answered with
        replace hrefresh : conn'.refreshToken = some refresh := hrefresh.trans (if_pos hhit)
        have hdecrypt : c.decryptString (conn'.refreshToken.getD []) = .ok tok.refreshToken := by
          rw [hrefresh]
          exact hc.decrypt_encrypt _ _ hencrypt
        refine ⟨fun _ => ?_, ?_⟩
        · exact (holdsRefresh_of_rotated hc h.read hrotated hne (hid.trans hhit) hdecrypt).mono _
        · exact (holdsAccess_of_rotated hc h.read hrotated (hid.trans hhit) htoken hexpiry).mono _
      · exact (hbefore.of_same hid (hrefresh.trans (if_neg hhit))
          (haccess.trans (if_neg hhit))).mono _
    | updateAccessToken id access expiry =>
      by_cases hhit : conn.id = id
      · obtain ⟨sent, tok, hrotated, -⟩ := hallowed
        obtain ⟨htoken, hexpiry⟩ := Prod.mk.inj (haccess.trans (if_pos hhit))
        refine ⟨fun hstored => ?_, ?_⟩
        · -- the access token is rotated, the refresh token stays
          have hsame : conn'.refreshToken = conn.refreshToken := hrefresh
          refine ((hbefore.refresh ?_).congr hid (by rw [hsame])).mono _
          unfold Connection.storesRefresh
          rw [← hsame]
          exact hstored
        · exact (holdsAccess_of_rotated hc h.read hrotated (hid.trans hhit) htoken hexpiry).mono _
      · exact (hbefore.of_same hid hrefresh (haccess.trans (if_neg hhit))).mono _
    | upsertConnection p =>
      by_cases hhit : conn.key = (p.new 0).key
      · obtain ⟨htoken, hexpiry⟩ := Prod.mk.inj (haccess.trans (if_pos hhit))
        replace hrefresh : conn'.refreshToken = keptRefreshToken p.refreshToken conn.refreshToken :=
          hrefresh.trans (if_pos hhit)
        have hmem : conn' ∈ (upsertConnection p w.db).2.connections.rows := hconn'
        have hworks := worksFor_upserted tr i heffect hmem (hkey.trans hhit)
        refine sourced_of_upsert hc rfl hallowed hworks htoken hexpiry fun hstored => ?_
        rcases keptRefreshToken_cases p.refreshToken conn.refreshToken with ⟨-, heq⟩ | ⟨-, heq⟩
        · exact .inl (hrefresh.trans heq)
        · -- the connect brings no refresh token
          have hsame : conn'.refreshToken = conn.refreshToken := hrefresh.trans heq
          refine .inr (((hbefore.refresh ?_).congr hid (by rw [hsame])).mono _)
          unfold Connection.storesRefresh
          rw [← hsame]
          exact hstored
      · exact (hbefore.of_same hid (hrefresh.trans (if_neg hhit))
          (haccess.trans (if_neg hhit))).mono _
    | _ => exact (hbefore.of_same hid hrefresh haccess).mono _
  · have hmem : p.new w.db.connections.next ∈ (upsertConnection p w.db).2.connections.rows := hconn'
    have hworks := worksFor_upserted tr i heffect hmem rfl
    exact sourced_of_upsert hc rfl hallowed hworks rfl rfl fun _ => .inl rfl

/-- **A statement leaves a refresh token where one is stored.** -/
theorem storesRefresh_exec (hc : c.Inverts) {g : Desk} {s : Statement}
    (hallowed : (issuing c).allowed g (.statement s)) (now : Time) {db : Database}
    {conn : Connection} (hconn : conn ∈ db.connections.rows) (hstored : conn.storesRefresh) :
    ∃ conn' ∈ (s.exec now db).2.connections.rows, conn'.id = conn.id ∧ conn'.storesRefresh := by
  obtain ⟨conn', hconn', hid, -, hrefresh⟩ := refreshToken_exec now s hconn
  refine ⟨conn', hconn', hid, ?_⟩
  unfold Connection.storesRefresh
  rw [hrefresh]
  cases s with
  | updateTokens id access refresh expiry =>
    obtain ⟨sent, tok, -, hne, hencrypt⟩ := hallowed
    show (if conn.id = id then some refresh else conn.refreshToken).getD [] ≠ []
    split
    · exact mt (hc.eq_nil_iff hencrypt).mp hne
    · exact hstored
  | upsertConnection p =>
    show (if conn.key = (p.new 0).key then keptRefreshToken p.refreshToken conn.refreshToken
      else conn.refreshToken).getD [] ≠ []
    split
    · rcases keptRefreshToken_cases p.refreshToken conn.refreshToken with ⟨hne, heq⟩ | ⟨-, heq⟩
      · rw [heq]
        exact hne
      · rw [heq]
        exact hstored
    · exact hstored
  | _ => exact hstored

/-- **One step keeps the account.** -/
theorem Accounted.step (h : Accounted c w₀ w tr) (hc : c.Inverts) {cmd : Cmd}
    (hallowed : (issuing c).allowed (deskAfter (byThread i tr)) cmd) :
    Accounted c w₀ (service.perform x b w cmd).1 (tr ++ [(i, ⟨w, cmd, b, x⟩)]) := by
  -- a step without a statement that takes effect leaves the database alone
  have hstep : (service.perform x b w cmd).1.db = w.db ∨ ∃ s, cmd = .statement s ∧
      x.takesEffect b = true ∧
      (service.perform x b w cmd).1.db = (s.exec (w.now + x.elapsed) w.db).2 := by
    rw [service_db]
    cases cmd with
    | statement s =>
      by_cases heffect : x.takesEffect b = true
      · exact .inr ⟨s, rfl, heffect, if_pos heffect⟩
      · exact .inl (if_neg heffect)
    | _ => exact .inl rfl
  refine ⟨fun conn hconn => ?_, fun l hl conn hconn => ?_, fun l hl conn hconn hstored => ?_⟩
  · rcases hstep with hsame | ⟨s, rfl, heffect, hdb⟩
    · rw [hsame] at hconn
      exact (h.rows conn hconn).mono _
    · rw [hdb] at hconn
      exact h.sourced hc hallowed heffect hconn
  · rcases List.mem_append.mp hl with hl | hl
    · exact (h.read l hl conn hconn).mono _
    · rw [List.mem_singleton.mp hl] at hconn
      exact (h.rows conn hconn).mono _
  · have hnow : ∃ conn₁ ∈ w.db.connections.rows, conn₁.id = conn.id ∧ conn₁.storesRefresh := by
      rcases List.mem_append.mp hl with hl | hl
      · exact h.kept l hl conn hconn hstored
      · rw [List.mem_singleton.mp hl] at hconn
        exact ⟨conn, hconn, rfl, hstored⟩
    rcases hstep with hsame | ⟨s, rfl, -, hdb⟩
    · rw [hsame]
      exact hnow
    · obtain ⟨conn₁, hconn₁, hid₁, hstored₁⟩ := hnow
      obtain ⟨conn', hconn', hid', hstored'⟩ :=
        storesRefresh_exec hc hallowed (w.now + x.elapsed) hconn₁ hstored₁
      rw [hdb]
      exact ⟨conn', hconn', hid'.trans hid₁, hstored'⟩

end Step

/-! ### The runs -/

/-- **A refresh token is never blanked**: a row that stored one still does, the one it stores was
issued for it, and its access token and expiry are of one token. -/
structure NeverBlanked (c : Cipher) (w₀ w : World) (tr : List (ℕ × TokenStep)) : Prop where
  kept : ∀ l ∈ tr, ∀ conn ∈ l.2.state.db.connections.rows, conn.storesRefresh →
    ∃ conn' ∈ w.db.connections.rows, conn'.id = conn.id ∧ conn'.storesRefresh
  refresh : ∀ conn ∈ w.db.connections.rows, conn.storesRefresh → HoldsRefresh c w₀ tr conn
  access : ∀ conn ∈ w.db.connections.rows, HoldsAccess c w₀ tr conn

/-- A state of the executions. -/
abbrev TokenPool := Machine.Pool World Cmd Cmd.Resp Unit

/-- **A refresh token is never blanked**, in any run of the executions. -/
theorem refresh_token_never_blanked {a : Activities} {sv : Server} (hc : a.cipher.Inverts)
    (hs : sv.cipher = a.cipher) {w : World} {es : List (Machine.PoolEvent TokenWriter Choice)}
    {s : TokenPool} {tr : List (ℕ × TokenStep)}
    (h : (service.threads (TokenWriter.prog a sv)).Run ⟨w, []⟩ es s tr) :
    NeverBlanked a.cipher w s.world tr := by
  have hfollows : ∀ j : TokenWriter,
      (j.prog a sv).Follows (issuing a.cipher) (fun _ _ => True) .init := fun j => j.follows hc hs
  have hinit : Accounted a.cipher w w [] := by
    refine ⟨fun conn hconn => ?_, fun l hl => absurd hl List.not_mem_nil,
      fun l hl => absurd hl List.not_mem_nil⟩
    exact ⟨fun hstored => .initial hconn rfl hstored rfl, .initial hconn rfl rfl rfl⟩
  have hinv : Accounted a.cipher w s.world tr := by
    refine Machine.threads_invariant (J := Accounted a.cipher w) h hfollows hinit ?_
    intro s tr i t cmd k b _ _ hallowed hacc
    rw [after_issuing] at hallowed
    exact hacc.step hc hallowed
  exact ⟨hinv.kept, fun conn hconn => (hinv.rows conn hconn).refresh,
    fun conn hconn => (hinv.rows conn hconn).access⟩

/-! ### Ann's token is refreshed, and she reconnects -/

/-- A provider that rotates the refresh token, and issues none on an exchange. -/
def rotatingAnswers : (q : Request) → Except Err q.Reply
  | .refreshToken _ _ => .ok { accessToken := "B", refreshToken := "S", expiry := some 9 }
  | q => annAnswers q

/-- The next commands of an execution, with nothing failing. -/
def rotatingTurns (i n : ℕ) : List (Machine.PoolEvent TokenWriter Choice) :=
  List.replicate n (.turn i ⟨false, quietly rotatingAnswers⟩)

/-- A unit finds the token expired and refreshes it while Ann reconnects. -/
def refreshAndReconnect : List (Machine.PoolEvent TokenWriter Choice) :=
  [.start (.openClient 0 "drive"), .start (.completeConnection "" "" "")] ++
    rotatingTurns 0 5 ++ rotatingTurns 1 3 ++ rotatingTurns 0 1 ++ rotatingTurns 1 3

/-- The rotated refresh token survives a reconnect that brings none. -/
theorem refreshAndReconnect_keeps : ∃ (es : List (Machine.PoolEvent TokenWriter Choice))
    (s : TokenPool) (tr : List (ℕ × TokenStep)),
    (service.threads (TokenWriter.prog fleetActivities fleetServer)).Run ⟨expiredDrive.world, []⟩
      es s tr ∧
    NeverBlanked fleetActivities.cipher expiredDrive.world s.world tr ∧ s.returned ∧
    storedToken .spelled 0 s.world.db = some "S" := by
  obtain ⟨s, tr, hrun, hend⟩ := Lts.exists_run_of_any
    (service.threads (TokenWriter.prog fleetActivities fleetServer)) ⟨expiredDrive.world, []⟩
    refreshAndReconnect
    (fun s _ => s.allReturned && decide (storedToken .spelled 0 s.world.db = some "S"))
    (by decide +kernel)
  simp only [Bool.and_eq_true, decide_eq_true_eq] at hend
  exact ⟨_, s, tr, hrun, refresh_token_never_blanked Cipher.spelled_lawful.inverts rfl hrun,
    Machine.Pool.returned_of_allReturned hend.1, hend.2⟩

end Hivebook
