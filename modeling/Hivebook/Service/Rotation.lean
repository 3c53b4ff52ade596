import Hivebook.Lib.Threads
import Hivebook.Service.Fleet
import Hivebook.Service.Jobs

/-!
# The newest refresh token is kept

A refresh reads the row, asks the provider and stores the answer, in three steps.  The mutex of
a process keeps its own executions apart; it does not keep apart two processes, or a process and
a reconnect.  Where the steps come in order all the same, the token issued last is stored or
about to be, and an execution that was rejected is right about it.  Where they do not, a
connection with good credentials is sent to `needs_reauth`.

## Main definitions

* `Renewal`, `renewals` — how far an execution is, and the protocol it follows.
* `Mutex`, `Newest`, `Rotating` — the invariant: who holds the mutexes, and where the newest
  token is.
* `concerns`, `orderly` — the steps of the runs, and those that keep the tokens in order.
* `NewestKept` — the newest credentials are not lost.

## Main results

* `Execution.follows` — every execution follows the protocol.
* `Rotating.step` — a step in order keeps the invariant.
* `newest_token_kept` — **token rotation keeps the newest credentials** in order, and
  `not_newest_token_kept` — not otherwise.
-/

namespace Hivebook

open Database Connectors

/-! ### What an execution has in its hands -/

/-- The refresh token an execution has in its hands. -/
inductive Hand where
  | empty
  /-- It was answered with the token, and is about to store it. -/
  | unsaved (token : String)
  /-- The provider rejected the token, and the connection is about to be marked. -/
  | rejected
  deriving DecidableEq, Repr

/-- Whether the hands hold a token that is to be stored. -/
def Hand.isUnsaved : Hand → Bool
  | .unsaved _ => true
  | _ => false

/-- How far an execution is: the process whose mutex it holds, and what it has in its hands. -/
structure Renewal where
  process : Option ℕ
  hand : Hand
  deriving DecidableEq, Repr

/-- An execution that starts. -/
def Renewal.init : Renewal := { process := none, hand := .empty }

theorem Renewal.eq_init {g : Renewal} (hp : g.process = none) (hempty : g.hand = .empty) :
    g = .init := by
  cases g
  cases hp
  cases hempty
  rfl

/-- What a token puts into the hands; an answer may bring none. -/
def Hand.of (refreshToken : String) : Hand :=
  if refreshToken = "" then .empty else .unsaved refreshToken

namespace Renewal

variable (g : Renewal)

/-- After the answer to a refresh; no provider answers with an `AuthError`. -/
def refreshed : Except Err OAuthToken → Option Renewal
  | .ok tok => some { g with hand := .of tok.refreshToken }
  | .error (.auth _) => none
  | .error e => some { g with hand := if isInvalidGrant e then .rejected else .empty }

/-- After the answer to an exchange. -/
def exchanged : Except Err OAuthToken → Renewal
  | .ok tok => { g with hand := .of tok.refreshToken }
  | .error _ => { g with hand := .empty }

/-- After the store of a token; no database answers with an `AuthError`. -/
def stored : Except Err Unit → Option Renewal
  | .error (.auth _) => none
  | _ => some { g with hand := .empty }

/-- How a response moves an execution on; to nowhere, if it is none the database or the
provider gives. -/
def next : (c : FleetCmd) → c.Resp → Option Renewal
  | .lock process _, _ => some { g with process := some process }
  | .unlock _ _, _ => some { g with process := none }
  | .service (.request (.refreshToken _ _)), r => g.refreshed r
  | .service (.request (.exchange _ _)), r => some (g.exchanged r)
  | .service (.statement (.getConnectionByID id)), .ok conn =>
      if conn.id = id then some g else none
  | .service (.statement (.updateTokens _ _ _ _)), r => g.stored r
  | .service (.statement (.updateAccessToken _ _ _)), r => g.stored r
  | .service (.statement (.upsertConnection _)), _ => some { g with hand := .empty }
  | .service (.statement (.setNeedsReauth _ _)), _ => some { g with hand := .empty }
  | _, _ => some g

/-- The commands of an execution. -/
def allowed (c : Cipher) (id : Uuid) : FleetCmd → Prop
  | .lock _ id' => id' = id ∧ g.process = none ∧ g.hand = .empty
  | .unlock process id' => id' = id ∧ g.process = some process ∧ ∀ r, g.hand ≠ .unsaved r
  | .service (.request (.refreshToken _ _)) => g.process ≠ none ∧ g.hand = .empty
  | .service (.request (.exchange _ _)) => g.process = none ∧ g.hand = .empty
  | .service (.statement (.getConnectionByID id')) => id' = id
  | .service (.statement (.updateTokens id' _ refresh _)) =>
      id' = id ∧ ∃ r, g.hand = .unsaved r ∧ c.encryptString r = .ok refresh
  | .service (.statement (.updateAccessToken _ _ _)) => g.hand = .empty
  -- a reconnect stores the token it was issued, or keeps the one that is stored
  | .service (.statement (.upsertConnection p)) =>
      (g.hand = .empty ∧ p.refreshToken.getD [] = []) ∨
        ∃ r refresh, g.hand = .unsaved r ∧ r ≠ "" ∧ c.encryptString r = .ok refresh ∧
          p.refreshToken = some refresh
  | .service (.statement (.setNeedsReauth id' _)) => id' = id ∧ g.hand = .rejected
  | _ => True

end Renewal

/-- The protocol of the executions. -/
def renewals (c : Cipher) (id : Uuid) : Protocol (Option Renewal) FleetCmd FleetCmd.Resp where
  allowed o cmd := ∀ g, o = some g → g.allowed c id cmd
  next o cmd r := o.bind fun g => g.next cmd r

/-! ### Every execution follows the protocol -/

section Follows

variable {c : Cipher} {id : Uuid} {g : Renewal} {α β : Type}

/-- A program that goes on as an execution, and ends as `Q` says. -/
abbrev Renews (c : Cipher) (id : Uuid) (Q : α → Renewal → Prop) (g : Renewal)
    (p : FleetProgram α) : Prop :=
  p.Follows (renewals c id) (fun r o => ∀ g', o = some g' → Q r g') (some g)

/-- Nothing is asked of an execution that was answered as nobody answers. -/
theorem follows_none {Q : α → Renewal → Prop} (p : FleetProgram α) :
    p.Follows (renewals c id) (fun r o => ∀ g', o = some g' → Q r g') none := by
  induction p with
  | pure r =>
    intro g' h
    cases h
  | call cmd k ih =>
    refine ⟨?_, fun r => ih r⟩
    intro g h
    cases h

theorem Renews.bind {Q : α → Renewal → Prop} {R : β → Renewal → Prop} {p : FleetProgram α}
    {f : α → FleetProgram β} (h : Renews c id Q g p)
    (hf : ∀ r g', Q r g' → Renews c id R g' (f r)) : Renews c id R g (p.bind f) := by
  refine Prog.Follows.bind h fun r o hQ => ?_
  cases o with
  | none => exact follows_none (f r)
  | some g' => exact hf r g' (hQ g' rfl)

theorem renews_pure {Q : α → Renewal → Prop} {r : α} (h : Q r g) :
    Renews c id Q g (.pure r) := by
  intro g' heq
  cases heq
  exact h

/-- One command, and what is left of the program after each response. -/
theorem renews_call {Q : α → Renewal → Prop} {cmd : FleetCmd} {k : cmd.Resp → FleetProgram α}
    (h : g.allowed c id cmd) (hk : ∀ r g', g.next cmd r = some g' → Renews c id Q g' (k r)) :
    Renews c id Q g (.call cmd k) := by
  refine ⟨?_, fun r => ?_⟩
  · intro g' heq
    cases heq
    exact h
  · show Prog.Follows _ _ (g.next cmd r) (k r)
    cases hnext : g.next cmd r with
    | none => exact follows_none (k r)
    | some g' => exact hk r g' hnext

/-- A command that leaves the hands alone. -/
theorem renews_aside {Q : α → Renewal → Prop} {cmd : FleetCmd} {k : cmd.Resp → FleetProgram α}
    (h : g.allowed c id cmd) (hnext : ∀ r, g.next cmd r = some g)
    (hk : ∀ r, Renews c id Q g (k r)) : Renews c id Q g (.call cmd k) := by
  refine renews_call h fun r g' heq => ?_
  rw [hnext r] at heq
  cases heq
  exact hk r

/-- How a refresh ends: rejected, with an `AuthError`, or with empty hands. -/
def Ended (g : Renewal) (r : Except Err String) (g' : Renewal) : Prop :=
  g'.process = g.process ∧
    (g'.hand = .rejected ∧ (∃ status, r = .error (.auth status)) ∨
      g'.hand = .empty ∧ ∀ status, r ≠ .error (.auth status))

theorem ended_ok (h : g.hand = .empty) (token : String) : Ended g (.ok token) g := by
  refine ⟨rfl, .inr ⟨h, ?_⟩⟩
  intro status heq
  cases heq

theorem renews_loadConnection (a : Activities) :
    Renews c id (fun r g' => g' = g ∧ ∀ conn connector, r = .ok (conn, connector) → conn.id = id)
      g (onFleet (a.loadConnection id)) := by
  refine renews_call rfl fun r g' h => ?_
  cases r with
  | error e =>
    cases h
    refine renews_pure ⟨rfl, ?_⟩
    intro conn connector heq
    cases heq
  | ok conn =>
    replace h : (if conn.id = id then some g else none) = some g' := h
    split at h
    · rename_i hid
      cases h
      dsimp only [Prog.pure_bind]
      cases a.reg.get conn.connectorID with
      | none =>
        refine renews_pure ⟨rfl, ?_⟩
        intro conn' connector heq
        cases heq
      | some connector =>
        refine renews_pure ⟨rfl, ?_⟩
        intro conn' connector' heq
        cases heq
        exact hid
    · cases h

/-- A store of a token that fails, fails with no `AuthError`. -/
theorem stored_eq_some {r : Except Err Unit} {g' : Renewal} (h : g.stored r = some g') :
    g' = { g with hand := .empty } ∧ ∀ status, r ≠ .error (.auth status) := by
  cases r with
  | ok _ =>
    cases h
    refine ⟨rfl, ?_⟩
    intro status heq
    cases heq
  | error e =>
    cases e with
    | auth status => cases h
    | _ =>
      cases h
      refine ⟨rfl, ?_⟩
      intro status heq
      cases heq

theorem renews_persistRotatedToken (a : Activities) (hc : a.cipher.Lawful) {tok : OAuthToken}
    (hg : g.hand = .of tok.refreshToken) :
    Renews a.cipher id (fun r g' => g'.process = g.process ∧ g'.hand = .empty ∧
      ∀ status, r ≠ .error (.auth status)) g (onFleet (a.persistRotatedToken id tok)) := by
  unfold Activities.persistRotatedToken
  obtain ⟨access, haccess⟩ := hc.total tok.accessToken
  rw [haccess]
  dsimp only
  split
  · rename_i hempty
    refine renews_call (hg.trans (if_pos hempty)) fun r g' h => ?_
    obtain ⟨rfl, hauth⟩ := stored_eq_some h
    exact renews_pure ⟨rfl, rfl, hauth⟩
  · rename_i hne
    obtain ⟨refresh, hrefresh⟩ := hc.total tok.refreshToken
    rw [hrefresh]
    refine renews_call ⟨rfl, _, hg.trans (if_neg hne), hrefresh⟩ fun r g' h => ?_
    obtain ⟨rfl, hauth⟩ := stored_eq_some h
    exact renews_pure ⟨rfl, rfl, hauth⟩

theorem onFleet_bind (p : Program α) (f : α → Program β) :
    onFleet (p.bind f) = (onFleet p).bind fun r => onFleet (f r) :=
  Prog.embed_bind _ _ p f

/-- A refresh that fails leaves a rejected token in the hands, or nothing. -/
theorem ended_refreshed {e : Err} {g' : Renewal} (h : g.refreshed (.error e) = some g') :
    Ended g (.error (if isInvalidGrant e = true then .auth 401 else e)) g' := by
  cases e with
  | auth status => cases h
  | _ =>
    cases h
    refine ⟨rfl, ?_⟩
    split
    · exact .inl ⟨rfl, _, rfl⟩
    · refine .inr ⟨rfl, ?_⟩
      intro status heq
      cases heq

theorem renews_rotate (a : Activities) (hc : a.cipher.Lawful) {conn : Connection}
    (hid : conn.id = id) (refresh : String) (hp : g.process ≠ none) (hempty : g.hand = .empty) :
    Renews a.cipher id (Ended g) g (onFleet (a.rotate conn refresh)) := by
  subst hid
  unfold Activities.rotate
  cases a.reg.get conn.connectorID with
  | none =>
    refine renews_pure ⟨rfl, .inr ⟨hempty, ?_⟩⟩
    intro status heq
    cases heq
  | some _ =>
    refine renews_call ⟨hp, hempty⟩ fun r g' h => ?_
    cases r with
    | error e => exact renews_pure (ended_refreshed h)
    | ok tok =>
      cases h
      show Renews _ _ _ _ (onFleet ((a.persistRotatedToken conn.id tok).bind _))
      rw [onFleet_bind]
      refine (renews_persistRotatedToken a hc rfl).bind fun r g' hr => ?_
      obtain ⟨hprocess, hhand, hauth⟩ := hr
      cases r with
      | ok _ =>
        refine renews_pure ⟨hprocess, .inr ⟨hhand, ?_⟩⟩
        intro status heq
        cases heq
      | error e =>
        refine renews_pure ⟨hprocess, .inr ⟨hhand, ?_⟩⟩
        intro status heq
        cases heq
        exact hauth status rfl

theorem renews_rotateLocked (a : Activities) (hc : a.cipher.Lawful) {conn : Connection}
    (hid : conn.id = id) (access refresh : String) (hp : g.process ≠ none)
    (hempty : g.hand = .empty) :
    Renews a.cipher id (Ended g) g (onFleet (a.rotateLocked conn access refresh)) := by
  refine renews_call hid fun r g' h => ?_
  cases r with
  | error e =>
    cases h
    exact renews_rotate a hc hid refresh hp hempty
  | ok cur =>
    replace h : (if cur.id = conn.id then some g else none) = some g' := h
    split at h
    · rename_i hcur
      cases h
      refine renews_aside trivial (fun _ => rfl) fun now => ?_
      show Renews _ _ _ _ (onFleet (if stillFresh now cur.tokenExpiry = true then _ else _))
      split
      · exact renews_pure (ended_ok hempty _)
      · exact renews_rotate a hc (hcur.trans hid) _ hp hempty
    · cases h

/-- A refresh under the mutex ends outside of it. -/
theorem renews_singleFlight (a : Activities) (hc : a.cipher.Lawful) (process : ℕ)
    {conn : Connection} (hid : conn.id = id) (hp : g.process = none) (hempty : g.hand = .empty) :
    Renews a.cipher id (Ended g) g (a.singleFlight process conn) := by
  -- a text that fails to decrypt is no answer of a source
  have hfailed : ∀ {b e}, a.cipher.decryptString b = .error e → Ended g (.error e) g := by
    intro b e hdecrypt
    refine ⟨rfl, .inr ⟨hempty, ?_⟩⟩
    intro status heq
    cases heq
    exact hc.not_auth b status hdecrypt
  unfold Activities.singleFlight
  cases haccess : a.cipher.decryptString conn.accessToken with
  | error e => exact renews_pure (hfailed haccess)
  | ok access =>
    dsimp only
    cases hrefresh : a.cipher.decryptString (conn.refreshToken.getD []) with
    | error e => exact renews_pure (hfailed hrefresh)
    | ok refresh =>
      dsimp only
      split
      · exact renews_pure (ended_ok hempty access)
      · refine renews_aside trivial (fun _ => rfl) fun now => ?_
        show Renews _ _ _ _ (if stillFresh now conn.tokenExpiry = true then _ else _)
        split
        · exact renews_pure (ended_ok hempty access)
        · refine renews_call ⟨hid, hp, hempty⟩ fun _ g' h => ?_
          cases h
          refine (renews_rotateLocked (g := { g with process := some process }) a hc hid access
            refresh (Option.some_ne_none _) hempty).bind ?_
          intro token g' hended
          obtain ⟨hprocess, hhand⟩ := hended
          refine renews_call ⟨hid, hprocess, ?_⟩ fun _ g'' h => ?_
          · intro r hr
            rcases hhand with ⟨hhand, -⟩ | ⟨hhand, -⟩
            · rw [hhand] at hr
              cases hr
            · rw [hhand] at hr
              cases hr
          · cases h
            exact renews_pure ⟨hp.symm, hhand⟩

/-- A failure is classified: a rejected token marks the connection. -/
theorem renews_classify {conn : Connection} (hid : conn.id = id) (unitID : String) {e : Err}
    {g' : Renewal} (hended : Ended g (.error e) g') (hp : g.process = none) :
    Renews c id (fun _ g => g = .init) g' (onFleet (Activities.classify conn unitID e)) := by
  obtain ⟨hprocess, ⟨hhand, status, heq⟩ | ⟨hhand, hauth⟩⟩ := hended
  · cases heq
    refine renews_call ⟨hid, hhand⟩ fun r g'' h => ?_
    cases h
    refine renews_aside trivial (fun _ => rfl) fun _ => ?_
    exact renews_pure (Renewal.eq_init (hprocess.trans hp) rfl)
  · have hinit : g' = .init := Renewal.eq_init (hprocess.trans hp) hhand
    have harm : Renews c id (fun _ g => g = .init) g'
        (onFleet ((Activities.armBackoff conn unitID e).bind
          fun _ => .pure (ActivityError.application e.error .sync false (some e)))) := by
      rw [onFleet_bind]
      refine Renews.bind (Q := fun _ g => g = .init) ?_ fun _ g hg => renews_pure hg
      unfold Activities.armBackoff
      split
      · exact renews_pure hinit
      · refine renews_aside trivial (fun _ => rfl) fun now => ?_
        refine renews_aside trivial (fun _ => rfl) fun _ => ?_
        refine renews_aside trivial (fun _ => rfl) fun _ => ?_
        exact renews_pure hinit
    cases e with
    | auth status => exact absurd rfl (hauth status)
    | rateLimit d => exact renews_pure hinit
    | _ => exact harm

theorem renews_renew (a : Activities) (hc : a.cipher.Lawful) (process : ℕ) (unitID : String) :
    Renews a.cipher id (fun _ g => g = .init) .init (a.renew process id unitID) := by
  refine (renews_loadConnection a).bind fun r g hr => ?_
  obtain ⟨rfl, hid⟩ := hr
  cases r with
  | error e => exact renews_pure rfl
  | ok loaded =>
    obtain ⟨conn, connector⟩ := loaded
    refine (renews_singleFlight a hc process (hid conn connector rfl) rfl rfl).bind ?_
    intro token g' hended
    cases token with
    | ok token =>
      obtain ⟨hprocess, ⟨-, status, heq⟩ | ⟨hhand, -⟩⟩ := hended
      · cases heq
      · exact renews_pure (Renewal.eq_init hprocess hhand)
    | error e =>
      refine (renews_classify (hid conn connector rfl) unitID hended rfl).bind ?_
      exact fun _ g hg => renews_pure hg

/-- The end of a reconnect leaves the hands empty. -/
theorem renews_saveConnection {p : UpsertConnectionParams} (hp : g.process = none)
    (hallowed : g.allowed c id (.service (.statement (.upsertConnection p)))) :
    Renews c id (fun _ g => g = .init) g (onFleet (Server.saveConnection p)) := by
  refine renews_call hallowed fun r g' h => ?_
  cases h
  have hinit := Renewal.eq_init (g := { g with hand := .empty }) hp rfl
  cases r with
  | error e => exact renews_pure hinit
  | ok row =>
    refine renews_aside trivial (fun _ => rfl) fun _ => ?_
    refine renews_aside trivial (fun _ => rfl) fun _ => ?_
    exact renews_pure hinit

theorem renews_completeOAuth (s : Server) (hc : s.cipher.Lawful) (st : OAuthState)
    (connector : Connector) (code : String) :
    Renews s.cipher id (fun _ g => g = .init) .init
      (onFleet (s.completeOAuth st connector code)) := by
  refine renews_call ⟨rfl, rfl⟩ fun r g h => ?_
  cases r with
  | error e =>
    cases h
    exact renews_pure rfl
  | ok tok =>
    cases h
    refine renews_aside trivial (fun _ => rfl) fun r => ?_
    obtain ⟨access, haccess⟩ := hc.total tok.accessToken
    obtain ⟨refresh, hrefresh⟩ := hc.total tok.refreshToken
    dsimp only
    rw [haccess, hrefresh]
    refine renews_saveConnection rfl ?_
    by_cases hempty : tok.refreshToken = ""
    · refine .inl ⟨if_pos hempty, ?_⟩
      rw [hempty, hc.encrypt_empty] at hrefresh
      cases hrefresh
      rfl
    · exact .inr ⟨tok.refreshToken, refresh, if_neg hempty, hempty, hrefresh, rfl⟩

theorem renews_completeConnection (s : Server) (hc : s.cipher.Lawful)
    (state code installationID : String) :
    Renews s.cipher id (fun _ g => g = .init) .init
      (onFleet (s.completeConnection state code installationID)) := by
  refine renews_aside trivial (fun _ => rfl) fun now => ?_
  dsimp only [Prog.pure_bind]
  cases s.verify now state with
  | error e => exact renews_pure rfl
  | ok st =>
    dsimp only
    cases s.reg.get st.connector with
    | none => exact renews_pure rfl
    | some connector =>
      dsimp only
      split
      · unfold Server.completeInstallation
        cases s.parseGitHubKey (s.creds connector.id).privateKey with
        | error e => exact renews_pure rfl
        | ok _ =>
          refine renews_aside trivial (fun _ => rfl) fun r => ?_
          exact renews_saveConnection rfl (.inl ⟨rfl, rfl⟩)
      · exact renews_completeOAuth s hc st connector code

theorem renews_completeTokenConnection (s : Server) (hc : s.cipher.Lawful)
    (tenant : Option String) (region connectorID token name : String) :
    Renews s.cipher id (fun _ g => g = .init) .init
      (onFleet (s.completeTokenConnection tenant region connectorID token name)) := by
  unfold Server.completeTokenConnection
  cases requireTenant tenant with
  | error e => exact renews_pure rfl
  | ok tenant =>
    dsimp only
    cases s.reg.get connectorID with
    | none => exact renews_pure rfl
    | some connector =>
      refine renews_aside trivial (fun _ => rfl) fun r => ?_
      cases r with
      | error e => exact renews_pure rfl
      | ok login =>
        obtain ⟨access, haccess⟩ := hc.total token
        dsimp only
        rw [haccess, hc.encrypt_empty]
        exact renews_saveConnection rfl (.inl ⟨rfl, rfl⟩)

/-- **Every execution follows the protocol**, and ends with empty hands. -/
theorem Execution.follows (a : Activities) (s : Server) (hc : a.cipher.Lawful)
    (hs : s.cipher = a.cipher) (id : Uuid) (j : Execution) :
    Renews a.cipher id (fun _ g => g = .init) .init (j.prog a s id) := by
  cases j with
  | renew process unitID => exact renews_renew a hc process unitID
  | completeConnection state code installationID =>
    rw [← hs] at hc ⊢
    exact (renews_completeConnection s hc state code installationID).bind
      fun _ _ hg => renews_pure hg
  | completeTokenConnection tenant region connectorID token name =>
    rw [← hs] at hc ⊢
    exact (renews_completeTokenConnection s hc tenant region connectorID token name).bind
      fun _ _ hg => renews_pure hg

end Follows

/-! ### The mutex -/

/-- The mutexes of a connection are held by the executions that took them, each by one. -/
structure Mutex (id : Uuid) (locks : ℕ × Uuid → Bool) (P : ℕ → Option ℕ) : Prop where
  held : ∀ j process, P j = some process → locks (process, id) = true
  alone : ∀ j k process, P j = some process → P k = some process → j = k

namespace Mutex

variable {id : Uuid} {locks : ℕ × Uuid → Bool} {P : ℕ → Option ℕ} {i process : ℕ}

theorem lock (h : Mutex id locks P) (hfree : locks (process, id) = false) :
    Mutex id (Function.update locks (process, id) true) (Function.update P i (some process)) := by
  have hold : ∀ j, P j ≠ some process := by
    intro j hj
    rw [h.held j process hj] at hfree
    cases hfree
  constructor
  · intro j q hj
    by_cases hq : q = process
    · rw [hq, Function.update_self]
    · rw [Function.update_of_ne (by simpa using hq)]
      by_cases hji : j = i
      · rw [hji, Function.update_self] at hj
        cases hj
        exact absurd rfl hq
      · rw [Function.update_of_ne hji] at hj
        exact h.held j q hj
  · intro j k q hj hk
    by_cases hji : j = i
    · by_cases hki : k = i
      · exact hji.trans hki.symm
      · -- the mutex was free, so that no other execution holds it
        rw [hji, Function.update_self] at hj
        rw [Function.update_of_ne hki] at hk
        cases hj
        exact absurd hk (hold k)
    · rw [Function.update_of_ne hji] at hj
      by_cases hki : k = i
      · rw [hki, Function.update_self] at hk
        cases hk
        exact absurd hj (hold j)
      · rw [Function.update_of_ne hki] at hk
        exact h.alone j k q hj hk

theorem unlock (h : Mutex id locks P) (hi : P i = some process) :
    Mutex id (Function.update locks (process, id) false) (Function.update P i none) := by
  have hothers : ∀ j q, Function.update P i none j = some q → j ≠ i ∧ P j = some q := by
    intro j q hj
    by_cases hji : j = i
    · rw [hji, Function.update_self] at hj
      cases hj
    · rw [Function.update_of_ne hji] at hj
      exact ⟨hji, hj⟩
  constructor
  · intro j q hj
    obtain ⟨hji, hj⟩ := hothers j q hj
    have hq : q ≠ process := by
      rintro rfl
      exact hji (h.alone j i q hj hi)
    rw [Function.update_of_ne (by simpa using hq)]
    exact h.held j q hj
  · intro j k q hj hk
    exact h.alone j k q (hothers j q hj).2 (hothers k q hk).2

end Mutex

/-! ### The newest token -/

/-- The newest token is stored, or one execution is about to store it; and an execution that was
rejected is right about it. -/
structure Newest (names : TokenNames) (c : Cipher) (id : Uuid) (key : String × String × String)
    (db : Database) (p : Provider) (H : ℕ → Hand) : Prop where
  row : ∃ conn ∈ db.connections.rows, conn.id = id ∧ conn.key = key
  newest : ∀ j r, H j = .unsaved r → r = names.name p.issued
  alone : ∀ j k r r', H j = .unsaved r → H k = .unsaved r' → j = k
  stored : storedToken c id db = some (names.name p.issued) ∨
    p.issued ∈ p.accepted ∧ ∃ j r, H j = .unsaved r
  rejected : ∀ j, H j = .rejected → p.issued ∉ p.accepted

namespace Newest

variable {names : TokenNames} {c : Cipher} {id : Uuid} {key : String × String × String}
  {db : Database} {p : Provider} {H : ℕ → Hand} {i : ℕ}

/-- With no token unsaved, the newest one is stored. -/
theorem stored_of_saved (h : Newest names c id key db p H) (hsaved : ∀ j r, H j ≠ .unsaved r) :
    storedToken c id db = some (names.name p.issued) := by
  rcases h.stored with hstored | ⟨-, j, r, hj⟩
  · exact hstored
  · exact absurd hj (hsaved j r)

/-- A statement that leaves the token alone leaves the newest one where it is. -/
theorem exec (h : Newest names c id key db p H) (now : Time) (s : Statement)
    (hs : ∀ conn, conn.id = id → c.decryptString ((s.refreshTokenOf conn).getD []) =
      c.decryptString (conn.refreshToken.getD [])) :
    Newest names c id key (s.exec now db).2 p H := by
  obtain ⟨conn, hmem, hid, hkey⟩ := h.row
  obtain ⟨conn', hmem', hid', hkey', htoken⟩ := refreshToken_exec now s hmem
  refine ⟨⟨conn', hmem', hid'.trans hid, hkey'.trans hkey⟩, h.newest, h.alone, ?_, h.rejected⟩
  rw [storedToken_of_mem hmem' (hid'.trans hid), htoken, hs conn hid, ← storedToken_of_mem hmem hid]
  exact h.stored

/-- An execution that has stored its token has empty hands. -/
theorem save (h : Newest names c id key db p H) (now : Time) (s : Statement) {r : String}
    (hi : H i = .unsaved r)
    (hs : ∀ conn, conn.id = id → conn.key = key →
      c.decryptString ((s.refreshTokenOf conn).getD []) = .ok r) :
    Newest names c id key (s.exec now db).2 p (Function.update H i .empty) := by
  obtain ⟨conn, hmem, hid, hkey⟩ := h.row
  obtain ⟨conn', hmem', hid', hkey', htoken⟩ := refreshToken_exec now s hmem
  -- nobody else has a token to store
  have hsaved : ∀ j r, Function.update H i .empty j ≠ .unsaved r := by
    intro j r' hj
    by_cases hji : j = i
    · rw [hji, Function.update_self] at hj
      cases hj
    · rw [Function.update_of_ne hji] at hj
      exact hji (h.alone j i r' r hj hi)
  refine ⟨⟨conn', hmem', hid'.trans hid, hkey'.trans hkey⟩, ?_, ?_, .inl ?_, ?_⟩
  · exact fun j r hj => absurd hj (hsaved j r)
  · exact fun j k r r' hj _ => absurd hj (hsaved j r)
  · rw [storedToken_of_mem hmem' (hid'.trans hid), htoken, hs conn hid hkey, h.newest i r hi]
    rfl
  · intro j hj
    by_cases hji : j = i
    · rw [hji, Function.update_self] at hj
      cases hj
    · rw [Function.update_of_ne hji] at hj
      exact h.rejected j hj

/-- An execution lets go of what is not a token. -/
theorem drop (h : Newest names c id key db p H) (hi : ∀ r, H i ≠ .unsaved r) :
    Newest names c id key db p (Function.update H i .empty) := by
  have hothers : ∀ j, Function.update H i .empty j ≠ .empty →
      Function.update H i .empty j = H j := by
    intro j hj
    by_cases hji : j = i
    · rw [hji, Function.update_self] at hj
      exact absurd rfl hj
    · exact Function.update_of_ne hji _ _
  have hunsaved : ∀ j r, Function.update H i .empty j = .unsaved r → H j = .unsaved r := by
    intro j r hj
    rw [← hothers j (by rw [hj]; simp)]
    exact hj
  refine ⟨h.row, ?_, ?_, ?_, ?_⟩
  · exact fun j r hj => h.newest j r (hunsaved j r hj)
  · exact fun j k r r' hj hk => h.alone j k r r' (hunsaved j r hj) (hunsaved k r' hk)
  · rcases h.stored with hstored | ⟨haccepted, j, r, hj⟩
    · exact .inl hstored
    · refine .inr ⟨haccepted, j, r, ?_⟩
      have hji : j ≠ i := by
        rintro rfl
        exact hi r hj
      rw [Function.update_of_ne hji]
      exact hj
  · intro j hj
    rw [hothers j (by rw [hj]; simp)] at hj
    exact h.rejected j hj

/-- The only token that is not saved is the one an execution is given. -/
theorem unsaved_update (hsaved : ∀ j r, H j ≠ .unsaved r) {token : String} {j : ℕ} {r : String}
    (hj : Function.update H i (.unsaved token) j = .unsaved r) : j = i ∧ r = token := by
  by_cases hji : j = i
  · rw [hji, Function.update_self] at hj
    cases hj
    exact ⟨hji, rfl⟩
  · rw [Function.update_of_ne hji] at hj
    exact absurd hj (hsaved j r)

/-- With everything saved and nobody rejected, an execution is given a new token. -/
theorem issue (h : Newest names c id key db p H) (hsaved : ∀ j r, H j ≠ .unsaved r)
    (haccepted : ∀ j, H j ≠ .rejected) (kept : List ℕ) :
    Newest names c id key db (p.issue kept)
      (Function.update H i (.unsaved (names.name (p.issued + 1)))) := by
  refine ⟨h.row, ?_, ?_, .inr ⟨List.mem_cons_self, i, _, Function.update_self ..⟩, ?_⟩
  · exact fun j r hj => (unsaved_update hsaved hj).2
  · exact fun j k r r' hj hk => (unsaved_update hsaved hj).1.trans (unsaved_update hsaved hk).1.symm
  · intro j hj
    by_cases hji : j = i
    · rw [hji, Function.update_self] at hj
      cases hj
    · rw [Function.update_of_ne hji] at hj
      exact absurd hj (haccepted j)

/-- With everything saved, an execution is given the stored token again. -/
theorem reuse (h : Newest names c id key db p H) (hsaved : ∀ j r, H j ≠ .unsaved r) :
    Newest names c id key db p (Function.update H i (.unsaved (names.name p.issued))) := by
  refine ⟨h.row, ?_, ?_, .inl (h.stored_of_saved hsaved), ?_⟩
  · exact fun j r hj => (unsaved_update hsaved hj).2
  · exact fun j k r r' hj hk => (unsaved_update hsaved hj).1.trans (unsaved_update hsaved hk).1.symm
  · intro j hj
    by_cases hji : j = i
    · rw [hji, Function.update_self] at hj
      cases hj
    · rw [Function.update_of_ne hji] at hj
      exact h.rejected j hj

/-- An execution is rejected with the newest token. -/
theorem reject (h : Newest names c id key db p H)
    (hused : p.issued ∉ p.accepted) :
    Newest names c id key db p (Function.update H i .rejected) := by
  have hunsaved : ∀ j r, Function.update H i .rejected j = .unsaved r → H j = .unsaved r := by
    intro j r hj
    by_cases hji : j = i
    · rw [hji, Function.update_self] at hj
      cases hj
    · rw [Function.update_of_ne hji] at hj
      exact hj
  refine ⟨h.row, ?_, ?_, ?_, fun _ _ => hused⟩
  · exact fun j r hj => h.newest j r (hunsaved j r hj)
  · exact fun j k r r' hj hk => h.alone j k r r' (hunsaved j r hj) (hunsaved k r' hk)
  · rcases h.stored with hstored | ⟨haccepted, -⟩
    · exact .inl hstored
    · exact absurd haccepted hused

/-- **A rejected execution is right**: no token that the provider accepts is stored, and none is
about to be. -/
theorem not_alive (h : Newest names c id key db p H) (hi : H i = .rejected) :
    ¬ ∃ n ∈ p.accepted, storedToken c id db = some (names.name n) ∨
      ∃ j, H j = .unsaved (names.name n) := by
  have hused := h.rejected i hi
  rintro ⟨n, hn, hstored | ⟨j, hj⟩⟩
  · rcases h.stored with hnewest | ⟨haccepted, -⟩
    · rw [hnewest] at hstored
      have heq := names.injective (Option.some.inj hstored)
      exact hused (heq ▸ hn)
    · exact hused haccepted
  · have heq := names.injective (h.newest j _ hj)
    exact hused (heq ▸ hn)

end Newest

/-! ### What the provider answers -/

section Provider

variable {names : TokenNames} {p : Provider}

/-- The provider accepts a token that it finds. -/
theorem find_accepted {n : ℕ} : (p.accepted.find? fun m => decide (names.name m = names.name n)) =
    if n ∈ p.accepted then some n else none := by
  split
  · rename_i hn
    have hfound : (p.accepted.find? fun m => decide (names.name m = names.name n)).isSome = true :=
      List.find?_isSome.mpr ⟨n, hn, decide_eq_true rfl⟩
    obtain ⟨m, hm⟩ := Option.isSome_iff_exists.mp hfound
    have heq : names.name m = names.name n := by simpa using List.find?_some hm
    rw [hm, names.injective heq]
  · rename_i hn
    refine List.find?_eq_none.mpr fun m hm heq => hn ?_
    rw [← names.injective (of_decide_eq_true heq)]
    exact hm

end Provider

/-! ### One step -/

/-- Whether a new refresh token is issued. -/
def Verdict.grants : Verdict → Bool
  | .granted _ _ _ | .lost => true
  | .withoutRefresh _ _ | .unreachable => false

/-- The steps of the runs: a mutex is waited for, and the reconnects are of the connection. -/
def concerns (key : String × String × String) (x : FleetChoice) (cancelled : Bool) (w : Fleet) :
    FleetCmd → Bool
  | .lock process id => !w.refreshLocks (process, id)
  | .service (.statement (.upsertConnection p)) =>
      !x.service.takesEffect cancelled || decide ((p.new 0).key = key)
  | _ => true

/-- The steps that keep the tokens in order, of an execution `i` among executions `js`.  A
refresh sends the stored token, and no reconnect and no execution of another process is about to
store one; an exchange finds all hands empty; an answer that brings a token arrives, and its
store takes effect. -/
def orderly (c : Cipher) (id : Uuid) (js : List ℕ) (G : ℕ → Renewal) (i : ℕ) (x : FleetChoice)
    (cancelled : Bool) (w : Fleet) : FleetCmd → Bool
  | .service (.request (.refreshToken _ sent)) =>
      cancelled || decide (x.verdict = .unreachable) ||
        (decide (x.verdict ≠ .lost) && decide (storedToken c id w.world.db = some sent) &&
          js.all fun j => !(G j).hand.isUnsaved || decide ((G j).process = (G i).process))
  | .service (.request (.exchange _ _)) =>
      cancelled || !x.verdict.grants ||
        (decide (x.verdict ≠ .lost) && js.all fun j => decide ((G j).hand = .empty))
  | .service (.statement (.updateTokens _ _ _ _)) => x.service.takesEffect cancelled
  | .service (.statement (.upsertConnection _)) =>
      decide ((G i).hand = .empty) || x.service.takesEffect cancelled
  | _ => true

/-- The mutexes are held, and the newest token is stored or about to be. -/
structure Rotating (names : TokenNames) (c : Cipher) (id : Uuid) (key : String × String × String)
    (w : Fleet) (G : ℕ → Renewal) : Prop where
  mutex : Mutex id w.refreshLocks (Renewal.process ∘ G)
  newest : Newest names c id key w.world.db w.provider (Renewal.hand ∘ G)

namespace Rotating

variable {names : TokenNames} {c : Cipher} {id : Uuid} {key : String × String × String}
  {w : Fleet} {G : ℕ → Renewal} {i : ℕ} {x : FleetChoice} {b : Bool}

/-- After a step of one execution. -/
theorem of_update {w' : Fleet} {g : Renewal}
    (hmutex : Mutex id w'.refreshLocks (Function.update (Renewal.process ∘ G) i g.process))
    (hnewest : Newest names c id key w'.world.db w'.provider
      (Function.update (Renewal.hand ∘ G) i g.hand)) :
    Rotating names c id key w' (Function.update G i g) := by
  refine ⟨?_, ?_⟩
  · rw [Function.comp_update]
    exact hmutex
  · rw [Function.comp_update]
    exact hnewest

/-- After a step that leaves the mutexes alone. -/
theorem of_hand (h : Rotating names c id key w G) {w' : Fleet} {hand : Hand}
    (hlocks : w'.refreshLocks = w.refreshLocks)
    (hnewest : Newest names c id key w'.world.db w'.provider
      (Function.update (Renewal.hand ∘ G) i hand)) :
    Rotating names c id key w' (Function.update G i { G i with hand }) := by
  refine of_update ?_ hnewest
  show Mutex id w'.refreshLocks (Function.update (Renewal.process ∘ G) i ((Renewal.process ∘ G) i))
  rw [Function.update_eq_self, hlocks]
  exact h.mutex

/-- After a step that leaves the executions alone. -/
theorem of_aside (h : Rotating names c id key w G) {w' : Fleet}
    (hlocks : w'.refreshLocks = w.refreshLocks)
    (hnewest : Newest names c id key w'.world.db w'.provider (Renewal.hand ∘ G)) :
    Rotating names c id key w' (Function.update G i (G i)) := by
  rw [Function.update_eq_self]
  refine ⟨?_, hnewest⟩
  rw [hlocks]
  exact h.mutex

/-- A step that leaves the database and the provider alone. -/
theorem lock (h : Rotating names c id key w G) (process : ℕ)
    (hfree : w.refreshLocks (process, id) = false) :
    Rotating names c id key ((w.tick x).setLock process id true)
      (Function.update G i { G i with process := some process }) := by
  refine of_update (h.mutex.lock hfree) ?_
  show Newest names c id key w.world.db w.provider
    (Function.update (Renewal.hand ∘ G) i ((Renewal.hand ∘ G) i))
  rw [Function.update_eq_self]
  exact h.newest

theorem unlock (h : Rotating names c id key w G) {process : ℕ}
    (hi : (G i).process = some process) :
    Rotating names c id key ((w.tick x).setLock process id false)
      (Function.update G i { G i with process := none }) := by
  refine of_update (h.mutex.unlock hi) ?_
  show Newest names c id key w.world.db w.provider
    (Function.update (Renewal.hand ∘ G) i ((Renewal.hand ∘ G) i))
  rw [Function.update_eq_self]
  exact h.newest

/-- A refresh finds everything saved: an execution of its own process that is about to store a
token would hold the mutex. -/
theorem saved (h : Rotating names c id key w G) {process : ℕ} (hi : (G i).process = some process)
    (hempty : (G i).hand = .empty)
    (hothers : ∀ j, (G j).hand.isUnsaved = true → (G j).process = (G i).process) :
    ∀ j r, (Renewal.hand ∘ G) j ≠ .unsaved r := by
  intro j r hj
  replace hj : (G j).hand = .unsaved r := hj
  have hprocess : (G j).process = some process := (hothers j (by rw [hj]; rfl)).trans hi
  have heq : j = i := h.mutex.alone j i process hprocess hi
  rw [heq, hempty] at hj
  cases hj

/-- The answer to a refresh in order. -/
theorem refresh (h : Rotating names c id key w G) {process : ℕ}
    (hi : (G i).process = some process) (hempty : (G i).hand = .empty) {sent : String}
    (horderly : x.verdict = .unreachable ∨ x.verdict ≠ .lost ∧
      storedToken c id w.world.db = some sent ∧
        ∀ j, (G j).hand.isUnsaved = true → (G j).process = (G i).process) :
    ∃ g', (G i).refreshed (w.provider.refresh names x.verdict sent).2 = some g' ∧
      Rotating names c id key
        { w.tick x with provider := (w.provider.refresh names x.verdict sent).1 }
        (Function.update G i g') := by
  rcases horderly with hverdict | ⟨hlost, hstored, hothers⟩
  · rw [hverdict]
    refine ⟨_, rfl, h.of_hand rfl ?_⟩
    refine h.newest.drop fun r hr => ?_
    rw [Function.comp_apply, hempty] at hr
    cases hr
  · have hsaved := h.saved hi hempty hothers
    have hrow := h.newest.stored_of_saved hsaved
    rw [hstored] at hrow
    -- what is sent is the newest token
    obtain rfl : sent = names.name w.provider.issued := Option.some.inj hrow
    cases hverdict : x.verdict with
    | lost => exact absurd hverdict hlost
    | unreachable =>
      refine ⟨_, rfl, h.of_hand rfl ?_⟩
      exact h.newest.drop fun r hr => hsaved i r hr
    | withoutRefresh access expiry =>
      refine ⟨_, rfl, h.of_hand rfl ?_⟩
      show Newest _ _ _ _ _ _ (Function.update _ i (Hand.of (names.name w.provider.issued)))
      rw [Hand.of, if_neg (names.name_ne_empty _)]
      exact h.newest.reuse hsaved
    | granted access expiry revokes =>
      unfold Provider.refresh
      dsimp only
      rw [find_accepted]
      by_cases haccepted : w.provider.issued ∈ w.provider.accepted
      · rw [if_pos haccepted]
        refine ⟨_, rfl, h.of_hand rfl ?_⟩
        dsimp only
        rw [Hand.of, if_neg (names.name_ne_empty _)]
        refine h.newest.issue hsaved ?_ _
        exact fun j hj => h.newest.rejected j hj haccepted
      · rw [if_neg haccepted]
        refine ⟨_, rfl, h.of_hand rfl ?_⟩
        exact h.newest.reject haccepted

/-- The answer to an exchange in order. -/
theorem exchange (h : Rotating names c id key w G) (hempty : (G i).hand = .empty)
    (horderly : x.verdict.grants = false ∨ x.verdict ≠ .lost ∧ ∀ j, (G j).hand = .empty) :
    Rotating names c id key
      { w.tick x with provider := (w.provider.exchange names x.verdict).1 }
      (Function.update G i ((G i).exchanged (w.provider.exchange names x.verdict).2)) := by
  have hdrop : Newest names c id key w.world.db w.provider
      (Function.update (Renewal.hand ∘ G) i .empty) := by
    refine h.newest.drop fun r hr => ?_
    rw [Function.comp_apply, hempty] at hr
    cases hr
  cases hverdict : x.verdict with
  | unreachable => exact h.of_hand rfl hdrop
  | withoutRefresh access expiry => exact h.of_hand rfl hdrop
  | lost =>
    rw [hverdict] at horderly
    rcases horderly with hgrants | ⟨hlost, -⟩
    · cases hgrants
    · exact absurd rfl hlost
  | granted access expiry revokes =>
    rw [hverdict] at horderly
    rcases horderly with hgrants | ⟨-, hall⟩
    · cases hgrants
    · refine h.of_hand rfl ?_
      dsimp only
      rw [Hand.of, if_neg (names.name_ne_empty _)]
      refine h.newest.issue ?_ ?_ _
      · intro j r hj
        rw [Function.comp_apply, hall j] at hj
        cases hj
      · intro j hj
        rw [Function.comp_apply, hall j] at hj
        cases hj

/-- A store of a token is answered as a database answers. -/
theorem stored_reply (g : Renewal) (x : Choice) (b : Bool) :
    g.stored (x.reply b (.ok ())) = some { g with hand := .empty } := by
  unfold Choice.reply
  cases b with
  | true => rfl
  | false => cases x.outcome <;> rfl

/-- A command of the service that reaches neither the database nor the provider. -/
theorem of_service (h : Rotating names c id key w G) {cmd : Cmd}
    (hdb : (service.perform x.service b w.world cmd).1.db = w.world.db) :
    Rotating names c id key { w with world := (service.perform x.service b w.world cmd).1 }
      (Function.update G i (G i)) := by
  refine h.of_aside rfl ?_
  show Newest names c id key (service.perform x.service b w.world cmd).1.db w.provider _
  rw [hdb]
  exact h.newest

/-- A statement that leaves the stored token alone. -/
theorem newest_statement (h : Newest names c id key w.world.db w.provider (Renewal.hand ∘ G))
    {s : Statement} (hs : ∀ conn, conn.id = id →
      c.decryptString ((s.refreshTokenOf conn).getD []) =
        c.decryptString (conn.refreshToken.getD [])) :
    Newest names c id key ((fleet names).perform x b w (.service (.statement s))).1.world.db
      w.provider (Renewal.hand ∘ G) := by
  show Newest names c id key (service.perform x.service b w.world (.statement s)).1.db _ _
  rw [service_db]
  dsimp only
  split
  · exact h.exec _ s hs
  · exact h

/-- **A statement in order.** -/
theorem statement (h : Rotating names c id key w G) (hc : c.Lawful) {s : Statement}
    (hallowed : (G i).allowed c id (.service (.statement s)))
    (hruns : concerns key x b w (.service (.statement s)) = true)
    {js : List ℕ} (horderly : orderly c id js G i x b w (.service (.statement s)) = true) :
    ∃ g', (G i).next (.service (.statement s))
        ((fleet names).perform x b w (.service (.statement s))).2 = some g' ∧
      Rotating names c id key ((fleet names).perform x b w (.service (.statement s))).1
        (Function.update G i g') := by
  cases s with
  | getConnectionByID id' =>
    refine ⟨G i, ?_, h.of_aside rfl (newest_statement h.newest fun _ _ => rfl)⟩
    show (G i).next (.service (.statement (.getConnectionByID id')))
      (x.service.reply b (getConnectionByID id' w.world.db)) = some (G i)
    cases hread : x.service.reply b (getConnectionByID id' w.world.db) with
    | error e => rfl
    | ok conn =>
      have hid := (mem_of_getConnectionByID (of_reply_eq_ok hread).2).2
      exact if_pos hid
  | updateTokens id' access refresh expiry =>
    obtain ⟨rfl, r, hhand, hrefresh⟩ := hallowed
    have heffect : x.service.takesEffect b = true := horderly
    refine ⟨_, stored_reply (G i) x.service b, h.of_hand rfl ?_⟩
    show Newest names c id' key (service.perform x.service b w.world (.statement _)).1.db _ _
    rw [service_db]
    dsimp only
    rw [if_pos heffect]
    refine h.newest.save _ _ hhand fun conn hid _ => ?_
    show c.decryptString ((if conn.id = id' then some refresh else _).getD []) = _
    rw [if_pos hid]
    exact hc.decrypt_encrypt r refresh hrefresh
  | updateAccessToken id' access expiry =>
    have hempty : (G i).hand = .empty := hallowed
    refine ⟨_, stored_reply (G i) x.service b, h.of_hand rfl ?_⟩
    refine (newest_statement h.newest fun _ _ => rfl).drop fun r hr => ?_
    rw [Function.comp_apply, hempty] at hr
    cases hr
  | upsertConnection p =>
    refine ⟨_, rfl, h.of_hand rfl ?_⟩
    rcases hallowed with ⟨hempty, hnone⟩ | ⟨r, refresh, hhand, hne, hrefresh, hp⟩
    · have hkept : ∀ old, keptRefreshToken p.refreshToken old = old := by
        intro old
        cases hp : p.refreshToken with
        | none => rfl
        | some refresh =>
          rw [hp] at hnone
          obtain rfl : refresh = [] := hnone
          rfl
      refine (newest_statement h.newest fun conn _ => ?_).drop fun r hr => ?_
      · show c.decryptString ((if _ then keptRefreshToken p.refreshToken _ else _).getD []) = _
        rw [hkept, ite_self]
      · rw [Function.comp_apply, hempty] at hr
        cases hr
    · have heffect : x.service.takesEffect b = true := by
        have hbusy : decide ((G i).hand = .empty) = false := by
          rw [hhand]
          rfl
        have h : (decide ((G i).hand = .empty) || x.service.takesEffect b) = true := horderly
        rwa [hbusy, Bool.false_or] at h
      have hkey' : (p.new 0).key = key := by
        have h : (!x.service.takesEffect b || decide ((p.new 0).key = key)) = true := hruns
        rw [heffect, Bool.not_true, Bool.false_or] at h
        exact of_decide_eq_true h
      show Newest names c id key (service.perform x.service b w.world (.statement _)).1.db _ _
      rw [service_db]
      dsimp only
      rw [if_pos heffect]
      refine h.newest.save _ _ hhand fun conn _ hkey => ?_
      show c.decryptString ((if conn.key = _ then keptRefreshToken p.refreshToken _
        else _).getD []) = _
      rw [if_pos (hkey.trans hkey'.symm), hp]
      cases refresh with
      | nil =>
        -- no token is stored as no bytes
        have hempty := hc.decrypt_encrypt r [] hrefresh
        rw [hc.decrypt_nil] at hempty
        exact absurd (Except.ok.inj hempty).symm hne
      | cons y ys => exact hc.decrypt_encrypt r _ hrefresh
  | setNeedsReauth id' text =>
    obtain ⟨-, hhand⟩ := hallowed
    refine ⟨_, rfl, h.of_hand rfl ?_⟩
    refine (newest_statement h.newest fun _ _ => rfl).drop fun r hr => ?_
    rw [Function.comp_apply, hhand] at hr
    cases hr
  | _ => exact ⟨G i, rfl, h.of_aside rfl (newest_statement h.newest fun _ _ => rfl)⟩

/-- **A step in order keeps the newest token.** -/
theorem step (h : Rotating names c id key w G) (hc : c.Lawful) (js : List ℕ)
    (hjs : ∀ j, j ∉ js → G j = .init) {cmd : FleetCmd} (hallowed : (G i).allowed c id cmd)
    (hruns : concerns key x b w cmd = true) (horderly : orderly c id js G i x b w cmd = true) :
    ∃ g', (G i).next cmd ((fleet names).perform x b w cmd).2 = some g' ∧
      Rotating names c id key ((fleet names).perform x b w cmd).1 (Function.update G i g') := by
  cases cmd with
  | lock process id' =>
    obtain ⟨rfl, -, -⟩ := hallowed
    have hfree : (!w.refreshLocks (process, id')) = true := hruns
    exact ⟨_, rfl, h.lock process (by simpa using hfree)⟩
  | unlock process id' =>
    obtain ⟨rfl, hprocess, -⟩ := hallowed
    exact ⟨_, rfl, h.unlock hprocess⟩
  | service cmd =>
    cases cmd with
    | statement s => exact h.statement hc hallowed hruns horderly
    | request q =>
      cases q with
      | refreshToken connectorID sent =>
        obtain ⟨hprocess, hempty⟩ := hallowed
        obtain ⟨process, hi⟩ := Option.ne_none_iff_exists'.mp hprocess
        -- an execution outside the list has not taken a step, and holds nothing
        have hall : ∀ j, (G j).hand.isUnsaved = true → j ∈ js := by
          intro j hj
          by_contra hno
          rw [hjs j hno] at hj
          cases hj
        -- a cancelled request has no answer, so the hand stays empty
        by_cases hb : b = true
        · subst hb
          refine ⟨_, rfl, h.of_hand rfl ?_⟩
          refine h.newest.drop fun r hr => ?_
          rw [Function.comp_apply, hempty] at hr
          cases hr
        · obtain rfl : b = false := by simpa using hb
          simp only [orderly, Bool.false_or, Bool.or_eq_true, Bool.and_eq_true, decide_eq_true_eq,
            List.all_eq_true, Bool.not_eq_true'] at horderly
          refine h.refresh hi hempty (horderly.imp_right ?_)
          rintro ⟨⟨hlost, hstored⟩, hothers⟩
          refine ⟨hlost, hstored, fun j hj => (hothers j (hall j hj)).resolve_left ?_⟩
          rw [hj]
          exact Bool.noConfusion
      | exchange connectorID code =>
        obtain ⟨-, hempty⟩ := hallowed
        by_cases hb : b = true
        · subst hb
          refine ⟨_, rfl, h.of_hand rfl ?_⟩
          refine h.newest.drop fun r hr => ?_
          rw [Function.comp_apply, hempty] at hr
          cases hr
        · obtain rfl : b = false := by simpa using hb
          simp only [orderly, Bool.false_or, Bool.or_eq_true, Bool.and_eq_true, decide_eq_true_eq,
            List.all_eq_true, Bool.not_eq_true'] at horderly
          refine ⟨_, rfl, h.exchange hempty (horderly.imp_right ?_)⟩
          rintro ⟨hlost, hall⟩
          refine ⟨hlost, fun j => ?_⟩
          by_cases hj : j ∈ js
          · exact hall j hj
          · rw [hjs j hj]
            rfl
      | _ => exact ⟨G i, rfl, h.of_service (service_db _ _ _ _)⟩
    | _ => exact ⟨G i, rfl, h.of_service (service_db _ _ _ _)⟩

end Rotating

/-! ### The runs -/

/-- One step of an execution. -/
abbrev FleetStep := Performed Fleet FleetChoice FleetCmd

/-- A state of the executions. -/
abbrev FleetPool := Machine.Pool Fleet FleetCmd FleetCmd.Resp Unit

section Runs

variable (names : TokenNames) (c : Cipher) (id : Uuid) (key : String × String × String)

/-- Where the executions are, by what they have done. -/
def renewalOf (tr : List (ℕ × FleetStep)) (i : ℕ) : Renewal :=
  ((renewals c id).after (fleet names) (some .init) (byThread i tr)).getD .init

/-- A refresh token that the provider accepts is stored, or an execution is about to store it. -/
def Alive (tr : List (ℕ × FleetStep)) (w : Fleet) : Prop :=
  ∃ n ∈ w.provider.accepted, storedToken c id w.world.db = some (names.name n) ∨
    ∃ i, (renewalOf names c id tr i).hand = .unsaved (names.name n)

/-- The connection is set to `needs_reauth`. -/
def SetsNeedsReauth (l : FleetStep) : Prop :=
  (∃ text, l.cmd = .service (.statement (.setNeedsReauth id text))) ∧
    l.choice.service.takesEffect l.cancelled = true

/-- **The newest credentials are not lost**: the connection is not set to `needs_reauth` while
an accepted token is there, and when all executions have ended the token issued last is the
stored one. -/
structure NewestKept (s : FleetPool) (tr : List (ℕ × FleetStep)) : Prop where
  unmarked : AtEvery (fun pre l => SetsNeedsReauth id l.2 → ¬ Alive names c id pre l.2.state) tr
  newest : s.returned →
    storedToken c id s.world.world.db = some (names.name s.world.provider.issued)

/-- Before the executions: the connection is there, and the token issued last is stored. -/
structure Settled (w : Fleet) : Prop where
  row : ∃ conn ∈ w.world.db.connections.rows, conn.id = id ∧ conn.key = key
  stored : storedToken c id w.world.db = some (names.name w.provider.issued)

/-- The executions are of one connection. -/
def Concerning (s : FleetPool) (e : Machine.PoolEvent Execution FleetChoice) : Prop :=
  Machine.poolCheck (concerns key) s e = true

/-- The tokens stay in order. -/
def InOrder (s : FleetPool) (tr : List (ℕ × FleetStep))
    (e : Machine.PoolEvent Execution FleetChoice) : Prop :=
  Machine.poolCheck (orderly c id (tr.map Prod.fst) (renewalOf names c id tr) e.thread) s e = true

end Runs

section Runs

variable {names : TokenNames} {c : Cipher} {id : Uuid} {key : String × String × String}

/-- An execution that has done nothing is where it starts. -/
theorem renewalOf_of_not_mem {tr : List (ℕ × FleetStep)} {j : ℕ} (hj : j ∉ tr.map Prod.fst) :
    renewalOf names c id tr j = .init := by
  have hnil : byThread j tr = [] := by
    refine List.eq_nil_iff_forall_not_mem.mpr fun l hl => hj ?_
    exact List.mem_map.mpr ⟨_, mem_of_mem_byThread hl, rfl⟩
  unfold renewalOf
  rw [hnil]
  rfl

/-- A step moves the execution whose turn it is. -/
theorem renewalOf_snoc {tr : List (ℕ × FleetStep)} {i : ℕ} {l : FleetStep} {g : Renewal}
    (hg : (renewals c id).after (fleet names) (some .init) (byThread i (tr ++ [(i, l)])) =
      some g) :
    renewalOf names c id (tr ++ [(i, l)]) = Function.update (renewalOf names c id tr) i g := by
  funext j
  by_cases hji : j = i
  · rw [hji, Function.update_self]
    unfold renewalOf
    rw [hg]
    rfl
  · rw [Function.update_of_ne hji]
    unfold renewalOf
    rw [byThread_snoc_of_ne (Ne.symm hji)]

/-- **Token rotation keeps the newest credentials** in every run whose steps are in order. -/
theorem newest_token_kept {a : Activities} {sv : Server} (hc : a.cipher.Lawful)
    (hs : sv.cipher = a.cipher) {w : Fleet} (hw : Settled names a.cipher id key w)
    {es : List (Machine.PoolEvent Execution FleetChoice)} {s : FleetPool}
    {tr : List (ℕ × FleetStep)}
    (h : ((fleet names).threads (Execution.prog a sv id)).RunWhere
      (fun s tr e => Concerning key s e ∧ InOrder names a.cipher id s tr e) ⟨w, []⟩ es s tr) :
    NewestKept names a.cipher id s tr := by
  have hinv : (∀ i, (renewals a.cipher id).after (fleet names) (some .init) (byThread i tr) ≠
        none) ∧
      Rotating names a.cipher id key s.world (renewalOf names a.cipher id tr) ∧
      AtEvery (fun pre l => SetsNeedsReauth id l.2 →
        ¬ Alive names a.cipher id pre l.2.state) tr := by
    refine Machine.threads_invariant (J := fun w tr =>
      (∀ i, (renewals a.cipher id).after (fleet names) (some .init) (byThread i tr) ≠ none) ∧
      Rotating names a.cipher id key w (renewalOf names a.cipher id tr) ∧
      AtEvery (fun pre l => SetsNeedsReauth id l.2 →
        ¬ Alive names a.cipher id pre l.2.state) tr) h
      (fun j => j.follows a sv hc hs id) ⟨?_, ⟨⟨?_, ?_⟩, ?_⟩, atEvery_nil⟩ ?_
    · intro i hnone
      cases hnone
    · intro j process hj
      cases hj
    · intro j k process hj
      cases hj
    · refine ⟨hw.row, ?_, ?_, .inl hw.stored, ?_⟩
      · intro j r hj
        cases hj
      · intro j k r r' hj
        cases hj
      · intro j hj
        cases hj
    · intro s tr i t cmd k b hC hth hallowed ⟨hsane, hrot, hmarks⟩
      obtain ⟨g, hg⟩ := Option.ne_none_iff_exists'.mp (hsane i)
      have hgi : renewalOf names a.cipher id tr i = g := by
        unfold renewalOf
        rw [hg]
        rfl
      replace hallowed : (renewalOf names a.cipher id tr i).allowed a.cipher id cmd :=
        hgi ▸ hallowed g hg
      obtain ⟨g', hnext, hrot'⟩ := hrot.step hc (tr.map Prod.fst)
        (fun j hj => renewalOf_of_not_mem hj) hallowed
        (Machine.poolMeets_of_check hC.1 cmd k b hth) (Machine.poolMeets_of_check hC.2 cmd k b hth)
      rw [hgi] at hnext
      have hafter : (renewals a.cipher id).after (fleet names) (some .init)
          (byThread i (tr ++ [(i, ⟨s.world, cmd, b || t.cancel, t.choice⟩)])) = some g' := by
        rw [byThread_snoc_self, Protocol.after_snoc, hg]
        exact hnext
      refine ⟨fun j => ?_, ?_, atEvery_snoc hmarks ?_⟩
      · by_cases hji : j = i
        · rw [hji, hafter]
          exact Option.some_ne_none g'
        · rw [byThread_snoc_of_ne (Ne.symm hji)]
          exact hsane j
      · rw [renewalOf_snoc hafter]
        exact hrot'
      · -- the connection is marked by an execution that was rejected
        rintro ⟨⟨text, hcmd⟩, -⟩
        replace hcmd : cmd = .service (.statement (.setNeedsReauth id text)) := hcmd
        subst hcmd
        exact hrot.newest.not_alive hallowed.2
  refine ⟨hinv.2.2, fun hreturned => ?_⟩
  -- executions that have ended have empty hands
  refine hinv.2.1.newest.stored_of_saved fun j r hj => ?_
  have hlogged := Machine.threads_log h
  have hinit : renewalOf names a.cipher id tr j = .init := by
    cases hth : s.threads[j]? with
    | none =>
      refine renewalOf_of_not_mem fun hmem => ?_
      obtain ⟨l, hl, rfl⟩ := List.mem_map.mp hmem
      have hlt := hlogged.1 l hl
      rw [List.getElem?_eq_getElem hlt] at hth
      cases hth
    | some th =>
      obtain ⟨job, hlog⟩ := hlogged.2 j th hth
      obtain ⟨u, hu⟩ := hreturned th (List.mem_of_getElem? hth)
      rw [hu] at hlog
      obtain ⟨g, hg⟩ := Option.ne_none_iff_exists'.mp (hinv.1 j)
      have hend := hlog.follows (job.follows a sv hc hs id) g hg
      unfold renewalOf
      rw [hg, hend]
      rfl
  replace hj : (renewalOf names a.cipher id tr j).hand = .unsaved r := hj
  rw [hinit] at hj
  cases hj

end Runs

/-! ### Ann's Drive, in order and out of order -/

/-- The activities of the Drive, with a cipher that can be read back. -/
def fleetActivities : Activities := { driveActivities with cipher := .spelled }

/-- Its server. -/
def fleetServer : Server := { driveServer with cipher := .spelled }

/-- Ann's Drive with an access token that has expired, and the first refresh token. -/
def expiredDrive : Fleet where
  world :=
    { db := (Database.upsertConnection
        { driveConnection with
          accessToken := "A".toList.flatMap spellChar
          refreshToken := some ("R".toList.flatMap spellChar)
          tokenExpiry := some 0 } .empty).2
      objects := fun _ => none
      now := 5 }
  provider := { issued := 0, accepted := [0] }
  refreshLocks _ := false

/-- The key of Ann's Drive. -/
def driveKey : String × String × String := ("acme", "gdocs", "ann@acme")

theorem expiredDrive_settled : Settled .spelled fleetActivities.cipher 0 driveKey expiredDrive where
  row := ⟨_, List.mem_singleton_self _, rfl, rfl⟩
  stored := by decide

/-- The next commands of an execution; the provider grants what it is asked. -/
def granted (i n : ℕ) : List (Machine.PoolEvent Execution FleetChoice) :=
  List.replicate n (.turn i ⟨false,
    { service := quietly annAnswers, verdict := .granted "A" (some (1000 * minute)) false }⟩)

/-- Two units of one process find the token expired, one of them refreshes it, and the other finds
it fresh under the mutex; then Ann reconnects. -/
def renewThenReconnect : List (Machine.PoolEvent Execution FleetChoice) :=
  [.start (.renew 0 "drive"), .start (.renew 0 "drive"), .start (.completeConnection "" "" "")] ++
    granted 1 2 ++ granted 0 8 ++ granted 1 4 ++ granted 2 6

/-- The tokens are kept when two units of one process refresh them and Ann reconnects. -/
theorem renewThenReconnect_keeps : ∃ (es : List (Machine.PoolEvent Execution FleetChoice))
    (s : FleetPool) (tr : List (ℕ × FleetStep)),
    ((fleet .spelled).threads (Execution.prog fleetActivities fleetServer 0)).RunWhere
      (fun s tr e => Concerning driveKey s e ∧ InOrder .spelled fleetActivities.cipher 0 s tr e)
      ⟨expiredDrive, []⟩ es s tr ∧
    NewestKept .spelled fleetActivities.cipher 0 s tr ∧ s.returned ∧
    s.world.provider.issued = 2 := by
  obtain ⟨s, tr, hrun, hend⟩ := Lts.exists_runWhere_of_any
    ((fleet .spelled).threads (Execution.prog fleetActivities fleetServer 0))
    (fun s tr e => Machine.poolCheck (concerns driveKey) s e &&
      Machine.poolCheck (orderly .spelled 0 (tr.map Prod.fst)
        (renewalOf .spelled .spelled 0 tr) e.thread) s e)
    ⟨expiredDrive, []⟩ renewThenReconnect
    (fun s _ => s.allReturned && decide (s.world.provider.issued = 2)) (by decide +kernel)
  simp only [Bool.and_eq_true, decide_eq_true_eq] at hrun hend
  exact ⟨_, s, tr, hrun, newest_token_kept Cipher.spelled_lawful rfl expiredDrive_settled hrun,
    Machine.Pool.returned_of_allReturned hend.1, hend.2⟩

/-- Two processes find the token expired and read the same refresh token; one of them refreshes
it and stores the new one, and the other one is rejected. -/
def renewTwice : List (Machine.PoolEvent Execution FleetChoice) :=
  [.start (.renew 0 "drive"), .start (.renew 1 "drive")] ++
    granted 0 5 ++ granted 1 5 ++ granted 0 3 ++ granted 1 3

/-- The last step sets the connection to `needs_reauth` with an accepted token stored. -/
def marksAlive (names : TokenNames) (c : Cipher) (id : Uuid) (tr : List (ℕ × FleetStep)) : Bool :=
  tr.getLast?.any fun l =>
    (match l.2.cmd with
      | .service (.statement (.setNeedsReauth id' _)) => decide (id' = id)
      | _ => false) &&
    l.2.choice.service.takesEffect l.2.cancelled &&
    l.2.state.provider.accepted.any fun n =>
      decide (storedToken c id l.2.state.world.db = some (names.name n))

theorem not_newestKept {names : TokenNames} {c : Cipher} {id : Uuid} {s : FleetPool}
    {tr : List (ℕ × FleetStep)} (h : marksAlive names c id tr = true) :
    ¬ NewestKept names c id s tr := by
  intro hkept
  obtain ⟨l, hlast, hl⟩ := (Option.any_eq_true _ _).mp h
  simp only [Bool.and_eq_true, List.any_eq_true, decide_eq_true_eq] at hl
  obtain ⟨⟨hcmd, heffect⟩, n, hn, hstored⟩ := hl
  have htr : tr = tr.dropLast ++ l :: [] := (List.dropLast_append_getLast? l hlast).symm
  refine hkept.unmarked _ l [] htr ⟨?_, heffect⟩ ⟨n, hn, .inl hstored⟩
  split at hcmd
  · rename_i id' text heq
    rw [heq, of_decide_eq_true hcmd]
    exact ⟨text, rfl⟩
  · cases hcmd

/-- **Two processes can lose the newest credentials**: the connection is set to `needs_reauth`
by a process that was rejected, with the token another one has just stored. -/
theorem not_newest_token_kept : ¬ ∀ (names : TokenNames) (a : Activities) (sv : Server)
    (id : Uuid) (key : String × String × String) (w : Fleet)
    (es : List (Machine.PoolEvent Execution FleetChoice)) (s : FleetPool)
    (tr : List (ℕ × FleetStep)), a.cipher.Lawful → sv.cipher = a.cipher →
    Settled names a.cipher id key w →
    ((fleet names).threads (Execution.prog a sv id)).RunWhere (fun s _ e => Concerning key s e)
      ⟨w, []⟩ es s tr → NewestKept names a.cipher id s tr := by
  intro hall
  obtain ⟨s, tr, hrun, hend⟩ := Lts.exists_runWhere_of_any
    ((fleet .spelled).threads (Execution.prog fleetActivities fleetServer 0))
    (fun s _ e => Machine.poolCheck (concerns driveKey) s e)
    ⟨expiredDrive, []⟩ renewTwice
    (fun _ tr => marksAlive .spelled .spelled 0 tr) (by decide +kernel)
  exact not_newestKept hend (hall .spelled fleetActivities fleetServer 0 driveKey expiredDrive _ s
    tr Cipher.spelled_lawful rfl expiredDrive_settled hrun)

end Hivebook
