import Hivebook.Database.Tokens
import Hivebook.Server.Handlers

/-!
# Worker processes that share a provider

Any number of worker processes refresh the token of a connection, and the server reconnects it.
A refresh is guarded by `refreshLocks`, which a process has for itself; what all of them share
is the row of the connection and the provider that issues the tokens.  The provider issues a
new refresh token on every refresh and rejects a used one.

## Main definitions

* `Cipher.Lawful`, `TokenNames` — what is assumed of the encryption and of the tokens.
* `Provider`, `Provider.refresh`, `Provider.exchange` — the provider.
* `Fleet`, `FleetCmd`, `fleet` — the shared state, the commands and the machine.
* `Activities.singleFlight` — `refreshedAccessToken` with its mutex.
* `Execution`, `Execution.prog` — the executions, and the program of each.

## Main results

* `singleFlight_unguarded` — without the mutex, that is `refreshedAccessToken`.
-/

namespace Hivebook

open Connectors

/-! ### The encryption -/

/-- What the code relies on in the encryption: it always succeeds, decryption inverts it, no
token is stored as no bytes, and a failure is no answer of a source. -/
structure Cipher.Lawful (c : Cipher) : Prop where
  total : ∀ text, ∃ b, c.encryptString text = .ok b
  decrypt_encrypt : ∀ text b, c.encryptString text = .ok b → c.decryptString b = .ok text
  decrypt_nil : c.decryptString [] = .ok ""
  encrypt_empty : c.encryptString "" = .ok []
  not_auth : ∀ b status, c.decryptString b ≠ .error (.auth status)

/-- The three bytes of a character. -/
def spellChar (ch : Char) : Bytes :=
  [UInt8.ofNat (ch.toNat / 65536), UInt8.ofNat (ch.toNat / 256 % 256), UInt8.ofNat (ch.toNat % 256)]

/-- Reading characters of three bytes. -/
def readChars : Bytes → List Char
  | x :: y :: z :: rest =>
      Char.ofNat (x.toNat * 65536 + y.toNat * 256 + z.toNat) :: readChars rest
  | _ => []

theorem readChars_spelled (cs : List Char) : readChars (cs.flatMap spellChar) = cs := by
  induction cs with
  | nil => rfl
  | cons ch cs ih =>
    have hlt : ch.toNat < 1114112 := by
      have hvalid := ch.valid
      rcases hvalid with h | ⟨-, h⟩
      · exact Nat.lt_trans h (by decide)
      · exact h
    show Char.ofNat _ :: readChars (cs.flatMap spellChar) = ch :: cs
    rw [ih]
    congr 1
    simp only [UInt8.toNat_ofNat']
    have hsum : ch.toNat / 65536 % 2 ^ 8 * 65536 + ch.toNat / 256 % 256 % 2 ^ 8 * 256 +
        ch.toNat % 256 % 2 ^ 8 = ch.toNat := by omega
    rw [hsum, Char.ofNat_toNat]

/-- A cipher that spells a text. -/
def Cipher.spelled : Cipher where
  encryptString text := .ok (text.toList.flatMap spellChar)
  decryptString b := .ok (String.ofList (readChars b))

theorem Cipher.spelled_lawful : Cipher.spelled.Lawful where
  total text := ⟨_, rfl⟩
  decrypt_encrypt := by
    intro text b h
    cases h
    show Except.ok (String.ofList (readChars _)) = _
    rw [readChars_spelled, String.ofList_toList]
  decrypt_nil := rfl
  encrypt_empty := rfl
  not_auth := by
    intro b status h
    cases h

/-- The refresh token stored for a connection, decrypted. -/
def storedToken (c : Cipher) (id : Uuid) (db : Database) : Option String :=
  (db.connections.rows.find? fun conn => decide (conn.id = id)).bind fun conn =>
    (c.decryptString (conn.refreshToken.getD [])).toOption

theorem storedToken_of_mem {c : Cipher} {id : Uuid} {db : Database} {conn : Connection}
    (hc : conn ∈ db.connections.rows) (hid : conn.id = id) :
    storedToken c id db = (c.decryptString (conn.refreshToken.getD [])).toOption := by
  have hfound : (db.connections.rows.find? fun c => decide (c.id = id)).isSome = true :=
    List.find?_isSome.mpr ⟨conn, hc, decide_eq_true hid⟩
  obtain ⟨conn', hconn'⟩ := Option.isSome_iff_exists.mp hfound
  have hid' : conn'.id = id := by simpa using List.find?_some hconn'
  have heq : conn' = conn := db.connections.eq_of_id (List.mem_of_find?_eq_some hconn') hc
    (hid'.trans hid.symm)
  unfold storedToken
  rw [hconn', heq]
  rfl

/-! ### The provider -/

/-- The texts of the refresh tokens a provider issues, by their number. -/
structure TokenNames where
  name : ℕ → String
  injective : Function.Injective name
  name_ne_empty : ∀ n, name n ≠ ""

/-- Tokens that spell their number. -/
def TokenNames.spelled : TokenNames where
  name n := String.ofList (List.replicate (n + 1) 'R')
  injective := by
    intro n m h
    have hlength := congrArg List.length (String.ofList_injective h)
    simpa using hlength
  name_ne_empty := by
    intro n h
    have hlength := congrArg (fun t : String => t.toList.length) h
    simp at hlength

/-- A provider: the number of the refresh token it issued last, and the tokens it accepts. -/
structure Provider where
  issued : ℕ
  accepted : List ℕ
  deriving DecidableEq, Repr

/-- What comes of a request for a token. -/
inductive Verdict where
  /-- The provider grants it; a new grant may revoke those before it. -/
  | granted (accessToken : String) (expiry : Option Time) (revokes : Bool)
  /-- No refresh token is issued: `oauth2` finds the access token valid and asks nothing, or
  an exchange is answered without one. -/
  | withoutRefresh (accessToken : String) (expiry : Option Time)
  /-- The provider grants it, and the answer does not arrive. -/
  | lost
  | unreachable
  deriving DecidableEq, Repr

namespace Provider

variable (names : TokenNames) (p : Provider)

/-- The next refresh token is issued, and some of the tokens before it stay accepted. -/
def issue (kept : List ℕ) : Provider :=
  { issued := p.issued + 1, accepted := (p.issued + 1) :: kept }

/-- A rejected refresh. -/
def invalidGrant : Err := .retrieve (some 400) "invalid_grant" "oauth2: invalid_grant"

/-- `src.Token()`: a used token is rejected, and the one that is sent is used up. -/
def refresh (x : Verdict) (sent : String) : Provider × Except Err OAuthToken :=
  match x with
  | .withoutRefresh accessToken expiry =>
      (p, .ok { accessToken, refreshToken := sent, expiry })
  | .unreachable => (p, .error .deadlineExceeded)
  | .granted accessToken expiry revokes =>
      match p.accepted.find? fun n => decide (names.name n = sent) with
      | none => (p, .error invalidGrant)
      | some n =>
          let kept := if revokes then [] else p.accepted.filter fun m => decide (m ≠ n)
          (p.issue kept,
            .ok { accessToken, refreshToken := names.name (p.issued + 1), expiry })
  | .lost =>
      match p.accepted.find? fun n => decide (names.name n = sent) with
      | none => (p, .error .deadlineExceeded)
      | some n => (p.issue (p.accepted.filter fun m => decide (m ≠ n)), .error .deadlineExceeded)

/-- `cfg.Exchange`: a new grant. -/
def exchange (x : Verdict) : Provider × Except Err OAuthToken :=
  match x with
  | .withoutRefresh accessToken expiry => (p, .ok { accessToken, refreshToken := "", expiry })
  | .unreachable => (p, .error .deadlineExceeded)
  | .granted accessToken expiry revokes =>
      (p.issue (if revokes then [] else p.accepted),
        .ok { accessToken, refreshToken := names.name (p.issued + 1), expiry })
  | .lost => (p.issue p.accepted, .error .deadlineExceeded)

end Provider

/-! ### The machine -/

/-- The world the processes share, the provider, and the mutexes that are held: by the process,
and by the connection. -/
structure Fleet where
  world : World
  provider : Provider
  refreshLocks : ℕ × Uuid → Bool

/-- The commands of the executions. -/
inductive FleetCmd where
  | service (c : Cmd)
  /-- `mu.Lock()`. -/
  | lock (process : ℕ) (connectionID : Uuid)
  /-- `mu.Unlock()`. -/
  | unlock (process : ℕ) (connectionID : Uuid)
  deriving DecidableEq, Repr

/-- The responses to the commands. -/
@[reducible] def FleetCmd.Resp : FleetCmd → Type
  | .service c => c.Resp
  | .lock _ _ | .unlock _ _ => Unit

/-- A program of a worker process, or of the server. -/
abbrev FleetProgram (α : Type) := Prog FleetCmd FleetCmd.Resp α

/-- What the environment decides about one command. -/
structure FleetChoice where
  service : Choice
  verdict : Verdict

/-- Time passes. -/
def Fleet.tick (w : Fleet) (x : FleetChoice) : Fleet :=
  { w with world := w.world.tick x.service.elapsed }

/-- A mutex is taken or given back. -/
def Fleet.setLock (w : Fleet) (process : ℕ) (connectionID : Uuid) (held : Bool) : Fleet :=
  { w with refreshLocks := Function.update w.refreshLocks (process, connectionID) held }

/-- The machine of the processes.  A request for a token goes to the provider; a mutex is
waited for, so that taking it finds it free. -/
def fleet (names : TokenNames) : Machine Fleet FleetChoice FleetCmd FleetCmd.Resp where
  perform x cancelled w
    | .service (.request (.refreshToken _ sent)) =>
        if cancelled then (w.tick x, .error .canceled)
        else
          let r := w.provider.refresh names x.verdict sent
          ({ w.tick x with provider := r.1 }, r.2)
    | .service (.request (.exchange _ _)) =>
        if cancelled then (w.tick x, .error .canceled)
        else
          let r := w.provider.exchange names x.verdict
          ({ w.tick x with provider := r.1 }, r.2)
    | .service c =>
        let r := service.perform x.service cancelled w.world c
        ({ w with world := r.1 }, r.2)
    | .lock process id => ((w.tick x).setLock process id true, ())
    | .unlock process id => ((w.tick x).setLock process id false, ())

/-! ### The executions -/

/-- A program of the service. -/
def onFleet {α : Type} (p : Program α) : FleetProgram α := p.embed FleetCmd.service fun _ r => r

namespace Activities

variable (a : Activities)

/-- `refreshedAccessToken` with its mutex, in a process. -/
def singleFlight (process : ℕ) (conn : Connection) : FleetProgram (Except Err String) := do
  match a.cipher.decryptString conn.accessToken with
  | .error e => return .error e
  | .ok access =>
      match a.cipher.decryptString (conn.refreshToken.getD []) with
      | .error e => return .error e
      | .ok refresh =>
          if refresh = "" ∨ conn.tokenExpiry = none then return .ok access
          else if stillFresh (← onFleet clock) conn.tokenExpiry then return .ok access
          else
            let _ ← (Prog.issue (FleetCmd.lock process conn.id) : FleetProgram Unit)
            let token ← onFleet (a.rotateLocked conn access refresh)
            let _ ← (Prog.issue (FleetCmd.unlock process conn.id) : FleetProgram Unit)
            return token

/-- The part of an activity that gets its bearer token: the connection is loaded, its token is
refreshed if one is due, and a failure is classified. -/
def renew (process : ℕ) (id : Uuid) (unitID : String) : FleetProgram Unit := do
  match ← onFleet (a.loadConnection id) with
  | .error _ => return ()
  | .ok (conn, _) =>
      match ← a.singleFlight process conn with
      | .ok _ => return ()
      | .error e =>
          let _ ← onFleet (classify conn unitID e)
          return ()

end Activities

/-- The executions: a refresh in a worker process, and the reconnects of the server. -/
inductive Execution where
  | renew (process : ℕ) (unitID : String)
  | completeConnection (state code installationID : String)
  | completeTokenConnection (tenant : Option String) (region connectorID token name : String)
  deriving DecidableEq, Repr

/-- The program of an execution, for one connection. -/
def Execution.prog (a : Activities) (s : Server) (id : Uuid) : Execution → FleetProgram Unit
  | .renew process unitID => a.renew process id unitID
  | .completeConnection state code installationID => do
      let _ ← onFleet (s.completeConnection state code installationID)
      return ()
  | .completeTokenConnection tenant region connectorID token name => do
      let _ ← onFleet (s.completeTokenConnection tenant region connectorID token name)
      return ()

/-! ### Without the mutex -/

/-- The commands of the service, with nothing in the place of the mutex. -/
def unguarded : (c : FleetCmd) → Unit → Program (c.Resp × Unit)
  | .service c, _ => do return (← Prog.issue c, ())
  | .lock _ _, _ | .unlock _ _, _ => return ((), ())

theorem handle_onFleet {α β : Type} (p : Program α) (f : α → FleetProgram β) :
    ((onFleet p).bind f).handle unguarded () = p.bind fun r => (f r).handle unguarded () := by
  induction p with
  | pure r => rfl
  | call c k ih =>
    show (Prog.call c fun r => ((onFleet (k r)).bind f).handle unguarded ()) = _
    rw [Prog.call_bind]
    exact congrArg (Prog.call c) (funext ih)

/-- **Without the mutex, a refresh under it is `refreshedAccessToken`.** -/
theorem singleFlight_unguarded (a : Activities) (process : ℕ) (conn : Connection) :
    (a.singleFlight process conn).handle unguarded () =
      (a.refreshedAccessToken conn).bind fun token => .pure (token, ()) := by
  unfold Activities.singleFlight Activities.refreshedAccessToken
  cases a.cipher.decryptString conn.accessToken with
  | error e => rfl
  | ok access =>
    dsimp only
    cases a.cipher.decryptString (conn.refreshToken.getD []) with
    | error e => rfl
    | ok refresh =>
      dsimp only
      split
      · rfl
      · show (Prog.call Cmd.clock fun now => _) = (Prog.call Cmd.clock fun now => _)
        refine congrArg (Prog.call Cmd.clock) (funext fun now => ?_)
        show Prog.handle unguarded (if stillFresh now conn.tokenExpiry = true then _ else _) () =
          Prog.bind (if stillFresh now conn.tokenExpiry = true then _ else _) _
        split
        · rfl
        · exact handle_onFleet _ _

end Hivebook
