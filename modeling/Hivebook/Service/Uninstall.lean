import Hivebook.Service.Inventory

/-!
# The installations a disconnect removes

`Disconnect` removes the GitHub App from the account of the connection: the installation that the
row has stored, and whatever installation is live on the account, whose id is taken never to have
been recorded.  Connections are unique for a tenant, a connector and an installation, so the rows
of one account are many once it was reinstalled or shared by tenants, and the live installation may
be one that another of them has stored.

A disconnect that succeeds removes no installation that another live connection has stored if and
only if neither the stored one nor the live one is; one that fails removes none.

## Main definitions

* `Spares db id inst` — no live connection but this has stored the installation.
* `Uninstalls ls inst`, `Targets sv conn ls inst` — the removals among some commands, and those
  that the row and the answer of the source call for.

## Main results

* `returns_disconnect` — how a disconnect ends.
* `uninstalls_iff` — it removes what the row and the answer call for, and nothing else.
* `disconnect_spares_iff` — **a disconnect spares the installations of the other connections if
  and only if its targets are none of theirs.**
* `disconnect_revokes_other` — the live installation is another tenant's.
-/

namespace Hivebook

open Database Machine Connectors

/-- No live connection but this has stored the installation. -/
def Spares (db : Database) (id : Uuid) (inst : String) : Prop :=
  ∀ conn ∈ db.connections.rows, conn.id ≠ id → conn.deletedAt = none → conn.installationID ≠ inst

instance (db : Database) (id : Uuid) (inst : String) : Decidable (Spares db id inst) :=
  inferInstanceAs (Decidable (∀ conn ∈ db.connections.rows, _))

/-- The commands remove the installation. -/
def Uninstalls (ls : List (Performed World Choice Cmd)) (inst : String) : Prop :=
  ∃ l ∈ ls, l.cmd = .request (.uninstall inst)

/-- Whatever the commands remove, no live connection but this has stored it. -/
def SparesOthers (id : Uuid) (ls : List (Performed World Choice Cmd)) : Prop :=
  ∀ l ∈ ls, ∀ inst, l.cmd = .request (.uninstall inst) → Spares l.state.db id inst

/-- The source has answered that the installation is the live one of the account. -/
def ResolvedTo (ls : List (Performed World Choice Cmd)) (account inst : String) : Prop :=
  ∃ l ∈ ls, l.cmd = .request (.resolveInstallation account) ∧ l.cancelled = false ∧
    l.choice.answer (.resolveInstallation account) = .ok inst

/-- The server holds the key of the App of the connection. -/
def Server.hasAppKey (sv : Server) (conn : Connection) : Prop :=
  (sv.creds conn.connectorID).privateKey ≠ "" ∧
    sv.parseGitHubKey (sv.creds conn.connectorID).privateKey = .ok ()

/-- The installations that a disconnect is to remove: the one that the row has stored, and the one
that is live on the account. -/
def Targets (sv : Server) (conn : Connection) (ls : List (Performed World Choice Cmd))
    (inst : String) : Prop :=
  inst ≠ "" ∧ sv.hasAppKey conn ∧
    (inst = conn.installationID ∨ conn.account ≠ "" ∧ ResolvedTo ls conn.account inst)

/-! ### What a disconnect leaves of the other connections -/

variable {sv : Server} {conn : Connection} {tenant : Option String} {id : Uuid} {inst : String}
  {b b' : Bool} {w w' : World} {ls : List (Performed World Choice Cmd)}

/-- The statements of a disconnect. -/
def Statement.disconnects (id : Uuid) : Statement → Bool
  | .getConnection _ _ | .softDeleteConnectionArtifacts _ _
  | .markConnectionArtifactsPurgePending _ _ | .notifyConnectionChanged _ => true
  | .deleteConnection id' _ => decide (id' = id)
  | _ => false

/-- They leave the other connections alone. -/
theorem spares_exec {db : Database} {now : Time} {s : Statement}
    (hs : s.disconnects id = true) : Spares (s.exec now db).2 id inst ↔ Spares db id inst := by
  cases s with
  | deleteConnection id' t =>
    obtain rfl : id' = id := of_decide_eq_true hs
    constructor
    · intro h conn hmem hne hlive
      refine h conn ?_ hne hlive
      refine List.mem_map.mpr ⟨conn, hmem, ?_⟩
      unfold Table.updated
      rw [if_neg (by simp [hne])]
    · intro h conn hmem hne hlive
      obtain ⟨conn₀, hmem₀, hupdated⟩ := List.mem_map.mp hmem
      unfold Table.updated at hupdated
      split at hupdated
      · subst hupdated
        cases hlive
      · subst hupdated
        exact h conn₀ hmem₀ hne hlive
  | getConnection _ _ => exact Iff.rfl
  | softDeleteConnectionArtifacts _ _ => exact Iff.rfl
  | markConnectionArtifactsPurgePending _ _ => exact Iff.rfl
  | notifyConnectionChanged _ => exact Iff.rfl
  | _ => cases hs

/-- The commands of a disconnect, up to the removal of the App. -/
def Cmd.disconnects (id : Uuid) : Cmd → Bool
  | .statement s => s.disconnects id
  | .signalWorkflow _ _ | .request _ => true
  | _ => false

/-- A command of a disconnect leaves the other connections alone. -/
theorem spares_step {x : Choice} {c : Cmd} (hc : c.disconnects id = true) :
    Spares (service.perform x b w c).1.db id inst ↔ Spares w.db id inst := by
  rw [service_db]
  cases c with
  | statement s =>
    by_cases hx : x.takesEffect b = true
    · simp only [hx, if_true]
      exact spares_exec hc
    · simp only [hx, Bool.false_eq_true, if_false]
  | _ => exact Iff.rfl

theorem disconnects_uninstall (removed : List String) (inst : String) :
    (Server.uninstall removed inst).Uses fun c => c.disconnects id = true := by
  unfold Server.uninstall
  split
  · exact Prog.uses_pure _ _
  · exact ⟨rfl, fun _ => trivial⟩

theorem disconnects_uninstallApp :
    (sv.uninstallApp conn).Uses fun c => c.disconnects id = true := by
  unfold Server.uninstallApp
  dsimp only
  split
  · split
    · exact Prog.uses_pure _ _
    · refine (disconnects_uninstall _ _).bind fun removed => ?_
      split
      · refine Prog.Uses.bind ⟨rfl, fun _ => trivial⟩ fun r => ?_
        split
        · exact Prog.uses_pure _ _
        · exact (disconnects_uninstall _ _).bind fun _ => Prog.uses_pure _ _
      · exact Prog.uses_pure _ _
  · exact Prog.uses_pure _ _

/-- A disconnect leaves the other connections alone. -/
theorem disconnects_disconnectConnection (t : String) :
    (sv.disconnectConnection conn t).Uses fun c => c.disconnects conn.id = true := by
  refine Prog.Uses.bind ⟨decide_eq_true rfl, fun _ => trivial⟩ fun r => ?_
  split
  · exact Prog.uses_pure _ _
  · split
    · exact Prog.uses_pure _ _
    · refine Prog.Uses.bind ⟨rfl, fun _ => trivial⟩ fun _ =>
        Prog.Uses.bind ⟨rfl, fun _ => trivial⟩ fun _ => ?_
      refine Prog.Uses.bind ⟨rfl, fun _ => trivial⟩ fun _ =>
        Prog.Uses.bind ⟨rfl, fun _ => trivial⟩ fun _ => ?_
      exact disconnects_uninstallApp.bind fun _ => Prog.uses_pure _ _

/-! ### How a disconnect ends -/

/-- A command that is no request to a source. -/
def Cmd.isLocal : Cmd → Bool
  | .request _ => false
  | _ => true

/-- A command that asks no source is performed alone. -/
theorem isLocal_of_issue {c : Cmd} {r : c.Resp} (hc : c.isLocal = true)
    (h : service.Returns (Prog.issue c) b w ls r b' w') : ∀ l ∈ ls, l.cmd.isLocal = true := by
  obtain ⟨t, rfl, -⟩ := h.of_issue
  simpa using hc

/-- How a disconnect ends once the connection was looked up. -/
theorem returns_disconnectConnection {t : String} {r : Except RpcError Unit}
    (h : service.Returns (sv.disconnectConnection conn t) b w ls r b' w') :
    (∃ e, r = .error e ∧ ∀ l ∈ ls, l.cmd.isLocal = true) ∨
      ∃ pre app b₁ w₁, r = .ok () ∧ ls = pre ++ app ∧ (∀ l ∈ pre, l.cmd.isLocal = true) ∧
        service.Returns (sv.uninstallApp conn) b₁ w₁ app () b' w' := by
  obtain ⟨rows, b₁, w₁, ls₁, rest, rfl, hdelete, h⟩ := returns_bind.mp h
  have hlocal₁ := isLocal_of_issue rfl hdelete
  cases rows with
  | error e =>
    obtain ⟨rfl, rfl, -, -⟩ := h.of_pure
    exact .inl ⟨_, rfl, by simpa using hlocal₁⟩
  | ok rows =>
    dsimp only at h
    split at h
    · obtain ⟨rfl, rfl, -, -⟩ := h.of_pure
      exact .inl ⟨_, rfl, by simpa using hlocal₁⟩
    · obtain ⟨_, b₂, w₂, ls₂, rest, rfl, hhide, h⟩ := returns_bind.mp h
      obtain ⟨_, b₃, w₃, ls₃, rest, rfl, hmark, h⟩ := returns_bind.mp h
      obtain ⟨_, b₄, w₄, ls₄, rest, rfl, hsignal, h⟩ := returns_bind.mp h
      obtain ⟨_, b₅, w₅, ls₅, rest, rfl, hnotify, h⟩ := returns_bind.mp h
      obtain ⟨_, b₆, w₆, app, ls₆, rfl, happ, h⟩ := returns_bind.mp h
      obtain ⟨rfl, rfl, rfl, rfl⟩ := h.of_pure
      refine .inr ⟨ls₁ ++ ls₂ ++ ls₃ ++ ls₄ ++ ls₅, app, b₅, w₅, rfl, by simp, ?_, happ⟩
      simp only [List.mem_append]
      rintro l ((((hl | hl) | hl) | hl) | hl)
      · exact hlocal₁ l hl
      · exact isLocal_of_issue rfl hhide l hl
      · exact isLocal_of_issue rfl hmark l hl
      · exact isLocal_of_issue rfl hsignal l hl
      · exact isLocal_of_issue rfl hnotify l hl

/-- **How a disconnect ends**: it fails before it has asked any source, or it has looked the
connection up and ends with the removal of the App. -/
theorem returns_disconnect {r : Except RpcError Unit}
    (h : service.Returns (sv.disconnect tenant id) b w ls r b' w') :
    (∃ e, r = .error e ∧ ∀ l ∈ ls, l.cmd.isLocal = true) ∨
      ∃ t conn pre app b₁ w₁, r = .ok () ∧ requireTenant tenant = .ok t ∧
        getConnection id t w.db = .ok conn ∧ ls = pre ++ app ∧ (∀ l ∈ pre, l.cmd.isLocal = true) ∧
        (∀ inst, ∀ l ∈ ls, Spares l.state.db id inst ↔ Spares w.db id inst) ∧
        service.Returns (sv.uninstallApp conn) b₁ w₁ app () b' w' := by
  unfold Server.disconnect at h
  cases ht : requireTenant tenant with
  | error e =>
    rw [ht] at h
    obtain ⟨rfl, rfl, -, -⟩ := h.of_pure
    exact .inl ⟨e, rfl, by simp⟩
  | ok t =>
    rw [ht] at h
    obtain ⟨found, b₀, w₀, ls₀, rest, rfl, hlook, h⟩ := returns_bind.mp h
    have hlocal₀ := isLocal_of_issue rfl hlook
    cases found with
    | error e =>
      obtain ⟨rfl, rfl, -, -⟩ := h.of_pure
      exact .inl ⟨_, rfl, by simpa using hlocal₀⟩
    | ok conn =>
      obtain ⟨t₀, rfl, hfound, rfl, rfl⟩ := hlook.of_issue
      obtain ⟨-, hfound⟩ := of_reply_eq_ok hfound.symm
      have hget : getConnection id t w.db = .ok conn := hfound
      have huses : (sv.disconnectConnection conn t).Uses _ :=
        disconnects_disconnectConnection t
      rw [(mem_of_getConnection hget).2] at huses
      -- no command of the rest changes what the other connections are installed with
      have hkept : ∀ inst, ∀ l ∈ rest, Spares l.state.db id inst ↔ Spares w.db id inst := by
        intro inst
        refine h.stops.forall_state (K := fun w' : World =>
          Spares w'.db id inst ↔ Spares w.db id inst) ?_ (spares_step rfl)
        exact huses.mono fun c hc x b s hs => (spares_step hc).trans hs
      rcases returns_disconnectConnection h with ⟨e, rfl, hlocal⟩ | ⟨pre, app, b₁, w₁, rfl, rfl,
        hlocal, happ⟩
      · refine .inl ⟨e, rfl, fun l hl => ?_⟩
        rcases List.mem_append.mp hl with hl | hl
        · exact hlocal₀ l hl
        · exact hlocal l hl
      · refine .inr ⟨t, conn, _ :: pre, app, b₁, w₁, rfl, rfl, hget, rfl, ?_, ?_, happ⟩
        · intro l hl
          rcases List.mem_cons.mp hl with rfl | hl
          · rfl
          · exact hlocal l hl
        · intro inst l hl
          rcases List.mem_cons.mp hl with rfl | hl
          · exact Iff.rfl
          · exact hkept inst l hl

/-! ### What it removes -/

theorem uninstalls_append {ls₁ ls₂ : List (Performed World Choice Cmd)} :
    Uninstalls (ls₁ ++ ls₂) inst ↔ Uninstalls ls₁ inst ∨ Uninstalls ls₂ inst := by
  simp only [Uninstalls, List.mem_append, or_and_right, exists_or]

theorem resolvedTo_append {ls₁ ls₂ : List (Performed World Choice Cmd)} {account : String} :
    ResolvedTo (ls₁ ++ ls₂) account inst ↔ ResolvedTo ls₁ account inst ∨
      ResolvedTo ls₂ account inst := by
  simp only [ResolvedTo, List.mem_append, or_and_right, exists_or]

/-- Commands that ask no source remove nothing, and nothing is answered. -/
theorem quiet_of_isLocal (h : ∀ l ∈ ls, l.cmd.isLocal = true) :
    ¬ Uninstalls ls inst ∧ ∀ account, ¬ ResolvedTo ls account inst := by
  constructor
  · rintro ⟨l, hl, hcmd⟩
    have hlocal := h l hl
    rw [hcmd] at hlocal
    cases hlocal
  · rintro account ⟨l, hl, hcmd, -⟩
    have hlocal := h l hl
    rw [hcmd] at hlocal
    cases hlocal

/-- An installation is removed unless it has no id or was removed before. -/
theorem returns_uninstall {removed removed' : List String} {x : String}
    (h : service.Returns (Server.uninstall removed x) b w ls removed' b' w') :
    (∀ inst, Uninstalls ls inst ↔ inst = x ∧ x ≠ "" ∧ x ∉ removed) ∧
      (∀ account inst, ¬ ResolvedTo ls account inst) ∧
      ∀ inst, inst ∈ removed' ↔ inst ∈ removed ∨ inst = x ∧ x ≠ "" := by
  unfold Server.uninstall at h
  split at h
  · rename_i hskip
    obtain ⟨rfl, rfl, -, -⟩ := h.of_pure
    refine ⟨fun inst => ?_, by simp [ResolvedTo], fun inst => ?_⟩
    · simp only [Uninstalls, List.not_mem_nil, false_and, exists_false, false_iff]
      rintro ⟨-, hx, hnew⟩
      exact hskip.elim hx hnew
    · constructor
      · exact .inl
      · rintro (hmem | ⟨rfl, hx⟩)
        · exact hmem
        · exact hskip.resolve_left hx
  · rename_i hgo
    obtain ⟨hx, hnew⟩ := not_or.mp hgo
    obtain ⟨_, b₁, w₁, ls₁, rest, rfl, hone, hrest⟩ := returns_bind.mp h
    obtain ⟨t, rfl, -⟩ := hone.of_issue
    obtain ⟨rfl, rfl, -, -⟩ := hrest.of_pure
    refine ⟨fun inst => ?_, by simp [ResolvedTo], fun inst => by simp [hx]⟩
    simp only [Uninstalls, List.append_nil, List.mem_singleton, exists_eq_left,
      Cmd.request.injEq, Request.uninstall.injEq]
    exact ⟨fun heq => ⟨heq.symm, hx, hnew⟩, fun heq => heq.1.symm⟩

/-- What the source has answered to the question for the live installation. -/
theorem resolvedTo_singleton {account : String} {t : Turn Choice} {live : Except Err String}
    (hlive : live = (service.perform t.choice (b || t.cancel) w
      (.request (.resolveInstallation account))).2) :
    ResolvedTo [⟨w, .request (.resolveInstallation account), b || t.cancel, t.choice⟩] account
      inst ↔
      live = .ok inst := by
  have hlive : live = if (b || t.cancel) = true then .error .canceled
      else t.choice.answer (.resolveInstallation account) := hlive
  simp only [ResolvedTo, List.mem_singleton, exists_eq_left, true_and]
  rw [hlive]
  by_cases hcancelled : (b || t.cancel) = true
  · simp [hcancelled]
  · simp [hcancelled]

/-- **A disconnect removes what the row and the answer of the source call for, and nothing
else.** -/
theorem uninstalls_iff
    (h : service.Returns (sv.uninstallApp conn) b w ls () b' w') :
    Uninstalls ls inst ↔ Targets sv conn ls inst := by
  unfold Server.uninstallApp at h
  dsimp only at h
  split at h
  · rename_i hgate
    cases hkey : sv.parseGitHubKey (sv.creds conn.connectorID).privateKey with
    | error e =>
      rw [hkey] at h
      obtain ⟨rfl, -, -, -⟩ := h.of_pure
      simp [Uninstalls, Targets, Server.hasAppKey, hkey]
    | ok u =>
      rw [hkey] at h
      have happ : sv.hasAppKey conn := ⟨hgate.1, hkey⟩
      -- the installation of the row first, then the one the source names for the account
      obtain ⟨removed, b₁, w₁, ls₁, rest, rfl, hstored, h⟩ := returns_bind.mp h
      obtain ⟨hcalls₁, hquiet₁, hremoved⟩ := returns_uninstall hstored
      by_cases haccount : conn.account = ""
      · rw [if_neg (by simpa using haccount)] at h
        obtain ⟨rfl, -, -, -⟩ := h.of_pure
        rw [List.append_nil, hcalls₁]
        simp only [Targets, happ, haccount]
        constructor
        · rintro ⟨rfl, hne, -⟩
          exact ⟨hne, trivial, .inl rfl⟩
        · rintro ⟨hne, -, rfl | ⟨hfalse, -⟩⟩
          · exact ⟨rfl, hne, by simp⟩
          · exact absurd rfl hfalse
      · rw [if_pos haccount] at h
        obtain ⟨live, b₂, w₂, ls₂, rest, rfl, hresolve, hrest⟩ := returns_bind.mp h
        obtain ⟨t, rfl, hlive, -, -⟩ := hresolve.of_issue
        have hanswer : ∀ inst, ResolvedTo _ _ inst ↔ live = .ok inst :=
          fun _ => resolvedTo_singleton hlive
        have hask : ∀ inst, ¬ Uninstalls [⟨w₁, .request (.resolveInstallation conn.account),
            b₁ || t.cancel, t.choice⟩] inst := by simp [Uninstalls]
        -- an account without an installation leaves the one of the row alone
        cases live with
        | error e =>
          obtain ⟨rfl, -, -, -⟩ := hrest.of_pure
          rw [List.append_nil, uninstalls_append, hcalls₁]
          simp only [hask, or_false, Targets, happ, resolvedTo_append, hquiet₁, hanswer,
            reduceCtorEq, and_false, true_and]
          constructor
          · rintro ⟨rfl, hne, -⟩
            exact ⟨hne, rfl⟩
          · rintro ⟨hne, rfl⟩
            exact ⟨rfl, hne, by simp⟩
        | ok liveID =>
          obtain ⟨removed', b₃, w₃, ls₃, rest, rfl, hdrop, hend⟩ := returns_bind.mp hrest
          obtain ⟨hcalls₃, hquiet₃, -⟩ := returns_uninstall hdrop
          obtain ⟨rfl, -, -, -⟩ := hend.of_pure
          rw [List.append_nil, uninstalls_append, uninstalls_append, hcalls₁, hcalls₃]
          simp only [hask, false_or, Targets, happ, resolvedTo_append, hquiet₁, hquiet₃, hanswer,
            or_false, Except.ok.injEq, true_and, hremoved, List.not_mem_nil, not_false_eq_true,
            and_true, haccount, ne_eq]
          constructor
          · rintro (⟨rfl, hne⟩ | ⟨rfl, hne, -⟩)
            · exact ⟨hne, .inl rfl⟩
            · exact ⟨hne, .inr rfl⟩
          · rintro ⟨hne, rfl | rfl⟩
            · exact .inl ⟨rfl, hne⟩
            · by_cases hsame : liveID = conn.installationID
              · exact .inl ⟨hsame, hsame ▸ hne⟩
              · exact .inr ⟨rfl, hne, fun hboth => hsame hboth.1⟩
  · rename_i hgate
    obtain ⟨rfl, -, -, -⟩ := h.of_pure
    simp only [Uninstalls, List.not_mem_nil, false_and, exists_false, false_iff]
    rintro ⟨hne, happ, rfl | ⟨haccount, -⟩⟩
    · exact hgate ⟨happ.1, .inl hne⟩
    · exact hgate ⟨happ.1, .inr haccount⟩

/-! ### Every disconnect -/

/-- **A disconnect that fails removes no installation**, and one that succeeds spares the
installations of the other live connections if and only if none of them has stored its targets. -/
theorem disconnect_spares_iff {r : Except RpcError Unit}
    (h : service.Returns (sv.disconnect tenant id) b w ls r b' w') :
    (∀ e, r = .error e → ∀ inst, ¬ Uninstalls ls inst) ∧
      (r = .ok () → ∃ t conn, requireTenant tenant = .ok t ∧ getConnection id t w.db = .ok conn ∧
        (SparesOthers id ls ↔ ∀ inst, Targets sv conn ls inst → Spares w.db id inst)) := by
  rcases returns_disconnect h with ⟨e, rfl, hlocal⟩ | ⟨t, conn, pre, app, b₁, w₁, rfl, ht, hget,
    rfl, hlocal, hkept, happ⟩
  · exact ⟨fun _ _ inst => (quiet_of_isLocal hlocal).1, (by simp)⟩
  · refine ⟨(by simp), fun _ => ⟨t, conn, ht, hget, ?_⟩⟩
    have hcalls : ∀ inst, Uninstalls (pre ++ app) inst ↔ Targets sv conn (pre ++ app) inst := by
      intro inst
      have hquiet : ¬ Uninstalls pre inst ∧ ∀ account, ¬ ResolvedTo pre account inst :=
        quiet_of_isLocal hlocal
      rw [uninstalls_append, uninstalls_iff happ]
      simp only [hquiet.1, false_or, Targets, resolvedTo_append, hquiet.2]
    constructor
    · intro h inst htarget
      obtain ⟨l, hl, hcmd⟩ := (hcalls inst).mpr htarget
      exact (hkept inst l hl).mp (h l hl inst hcmd)
    · intro h l hl inst hcmd
      exact (hkept inst l hl).mpr (h inst ((hcalls inst).mp ⟨l, hl, hcmd⟩))

/-! ### An account that two tenants have connected -/

/-- The server of a deployment with a GitHub App. -/
def appServer : Server where
  reg := []
  cipher := sampleCipher
  creds _ := { clientID := "app", clientSecret := "", privateKey := "key" }
  parseGitHubKey _ := .ok ()
  verify _ _ := .error (.failed "no state")

/-- A connection of the account, as an installation callback stores it. -/
def octoConnection (tenantID inst : String) : UpsertConnectionParams :=
  { tenantID, region := "eu", connectorID := "github", account := "octo", accessToken := [],
    refreshToken := none, tokenExpiry := none, scopes := "", installationID := inst,
    externalID := inst }

/-- Two tenants have connected the account, the second after a reinstall. -/
def sharedAccount : World :=
  { db := (upsertConnection (octoConnection "globex" "22")
      (upsertConnection (octoConnection "acme" "11") .empty).2).2
    objects := fun _ => none, now := 5 }

/-- A source where the installation is the live one of every account. -/
def liveAnswers (live : String) : (q : Request) → Except Err q.Reply
  | .resolveInstallation _ => .ok live
  | .uninstall _ => .ok ()
  | _ => .error (.failed "unreachable")

def installedTurns (live : String) (n : ℕ) : List (Turn Choice) :=
  List.replicate n ⟨false, quietly (liveAnswers live)⟩

/-- A removal hits an installation that another live connection has stored. -/
def revokesOther (id : Uuid) (ls : List (Performed World Choice Cmd)) : Bool :=
  ls.any fun l => match l.cmd with
    | .request (.uninstall inst) => !decide (Spares l.state.db id inst)
    | _ => false

theorem sparesOthers_iff {ls : List (Performed World Choice Cmd)} :
    SparesOthers id ls ↔ revokesOther id ls = false := by
  unfold revokesOther
  rw [List.any_eq_false]
  constructor
  · intro h l hl hbad
    split at hbad
    · rename_i inst hcmd
      simp [h l hl inst hcmd] at hbad
    · cases hbad
  · intro h l hl inst hcmd
    have hspared := h l hl
    rw [hcmd] at hspared
    simpa using hspared

/-- While its own installation is the live one, a disconnect removes that one only. -/
theorem disconnect_own_spared :
    ∃ ls b' w', service.Returns (appServer.disconnect (some "acme") 0) false sharedAccount ls
        (.ok ()) b' w' ∧ Uninstalls ls "11" ∧ ∃ conn, getConnection 0 "acme" sharedAccount.db =
          .ok conn ∧ ∀ inst, Targets appServer conn ls inst → Spares sharedAccount.db 0 inst := by
  obtain ⟨ls, r, b', w', hrun, hend⟩ := exists_returns_of_any service
    (appServer.disconnect (some "acme") 0) false sharedAccount (installedTurns "11" 8)
    (fun ls r _ => decide (r = .ok ()) && !revokesOther 0 ls &&
      ls.any fun l => decide (l.cmd = .request (.uninstall "11"))) (by decide +kernel)
  simp only [Bool.and_eq_true, decide_eq_true_eq, List.any_eq_true, Bool.not_eq_true'] at hend
  obtain ⟨⟨rfl, hspared⟩, hcall⟩ := hend
  obtain ⟨t, conn, ht, hget, hiff⟩ := (disconnect_spares_iff hrun).2 rfl
  cases ht
  exact ⟨ls, b', w', hrun, hcall, conn, hget, hiff.mp (sparesOthers_iff.mpr hspared)⟩

/-- **Disconnecting revokes the installation of another tenant**, whose connection stays live. -/
theorem disconnect_revokes_other :
    ∃ ls b' w', service.Returns (appServer.disconnect (some "acme") 0) false sharedAccount ls
        (.ok ()) b' w' ∧ ¬ SparesOthers 0 ls := by
  obtain ⟨ls, r, b', w', hrun, hend⟩ := exists_returns_of_any service
    (appServer.disconnect (some "acme") 0) false sharedAccount (installedTurns "22" 9)
    (fun ls r _ => decide (r = .ok ()) && revokesOther 0 ls) (by decide +kernel)
  simp only [Bool.and_eq_true, decide_eq_true_eq] at hend
  obtain ⟨rfl, hbad⟩ := hend
  refine ⟨ls, b', w', hrun, fun hspared => ?_⟩
  rw [sparesOthers_iff.mp hspared] at hbad
  cases hbad

end Hivebook
