import Hivebook.Database.Residence
import Hivebook.Server.Requests
import Hivebook.Service.Disconnect

/-!
# What belongs to a tenant

A connection belongs to the tenant of its row, a unit to the tenant of its connection, and an
artifact names its tenant itself.  The queries of the requests are scoped by either; so they
agree only because an artifact and its connection are of one tenant.  The requests, for their
part, write by the id of a connection alone, after they have read it as their tenant's.

## Main definitions

* `Consistent` — an artifact is of the tenant of its connection.
* `Proven`, `tenantScope` — what a request has proved to be its tenant's, and the commands that
  leaves it.
* `Invocation` — a request, or a job.

## Main results

* `Rpc.follows` — **a request stays in the scope of its tenant.**
* `consistent_of_run` — **every run of requests and jobs keeps artifacts and connections
  consistent.**
-/

namespace Hivebook

open Database Connectors

/-! ### The scope of a request -/

/-- The connections and the stored keys that a request has read as its tenant's. -/
structure Proven where
  connections : List Uuid
  keys : List String

/-- Nothing is proved yet. -/
def Proven.init : Proven := { connections := [], keys := [] }

/-- What a response proves. -/
def Proven.next (g : Proven) : (c : SiteCmd) → c.Resp → Proven
  | .service (.statement (.getConnection _ _)), .ok conn =>
      { g with connections := conn.id :: g.connections }
  | .query (.getArtifactForContent _ _), .ok row => { g with keys := row.objectKey :: g.keys }
  | _, _ => g

/-- The statements of a request: they name its tenant, or a connection that is proved to be its
tenant's. -/
def Statement.inScope (t : String) (g : Proven) : Statement → Prop
  | .getConnection _ tenantID | .deleteConnection _ tenantID
  | .softDeleteConnectionArtifacts _ tenantID | .markConnectionArtifactsPurgePending _ tenantID
  | .notifyConnectionChanged tenantID => tenantID = t
  | .setUnitSelection id _ | .markConnectionOnboarded id | .softDeleteDeselectedUnitArtifacts id
  | .undeleteSelectedUnitArtifacts id => id ∈ g.connections
  | _ => False

/-- The read queries of a request. -/
def ServerQuery.inScope (t : String) (g : Proven) : ServerQuery → Prop
  | .listConnections tenantID | .listSyncUnits _ tenantID _ | .listArtifacts tenantID _ _ _
  | .countArtifacts tenantID _ | .getArtifactForContent _ tenantID => tenantID = t
  | .getObject storedKey => storedKey ∈ g.keys

/-- What a request of a tenant may do. -/
def tenantScope (t : String) : Protocol Proven SiteCmd SiteCmd.Resp where
  allowed g
    | .service (.statement s) => s.inScope t g
    | .service (.signalWorkflow id _) => id ∈ g.connections
    | .service (.request _) => True
    | .service _ => False
    | .query q => q.inScope t g
    | .updateSyncSchedule id _ => id ∈ g.connections
    | .signalRunning id _ => id ∈ g.connections
  next := Proven.next

/-! ### Every request stays in scope -/

section Follows

open Requests

variable {t : String} {g : Proven}

/-- A program that follows the scope of a tenant. -/
abbrev InScope {α : Type} (t : String) (g : Proven) (p : SiteProgram α) : Prop :=
  p.Follows (tenantScope t) (fun _ _ => True) g

theorem inScope_notify {α : Type} {f : Unit → SiteProgram α} (hf : ∀ r g, InScope t g (f r)) :
    InScope t g ((notifyConnectionChanged t).bind f) := ⟨rfl, fun _ => hf _ _⟩

/-- A request without a tenant does nothing. -/
theorem inScope_forTenant {α : Type} {tenant : Option String}
    {handler : String → SiteProgram (Except RpcError α)}
    (h : ∀ t, tenant = some t → InScope t g (handler t)) :
    InScope (tenant.getD "") g (forTenant tenant handler) := by
  unfold forTenant
  cases hreq : requireTenant tenant with
  | error e => trivial
  | ok t =>
    obtain ⟨rfl, -⟩ := Server.requireTenant_eq_ok.mp hreq
    exact h t rfl

/-- A request about a connection has read it as its tenant's. -/
theorem inScope_forConnection {α : Type} {tenant : Option String} {id : Uuid}
    {handler : String → Connection → SiteProgram (Except RpcError α)}
    (h : ∀ t conn g, conn.id ∈ g.connections → InScope t g (handler t conn)) :
    InScope (tenant.getD "") g (forConnection tenant id handler) := by
  refine inScope_forTenant fun t _ => ⟨rfl, fun r => ?_⟩
  cases r with
  | error e => trivial
  | ok conn => exact h t conn _ List.mem_cons_self

theorem inScope_streamTo {α : Type} {tenant : Option String}
    {handler : String → SiteProgram (List α × Except RpcError Unit)}
    (h : ∀ t, InScope t g (handler t)) :
    InScope (tenant.getD "") g (streamTo tenant handler) := by
  unfold streamTo
  cases hreq : requireTenant tenant with
  | error e => trivial
  | ok t =>
    obtain ⟨rfl, -⟩ := Server.requireTenant_eq_ok.mp hreq
    exact h t

/-- A stream stays in scope if its snapshots do. -/
theorem inScope_watch {α : Type} {send : SiteProgram (Except RpcError α)}
    (hsend : ∀ g, InScope t g send) (wakeups : ℕ) : InScope t g (watch send wakeups) := by
  induction wakeups generalizing g with
  | zero =>
    refine (hsend g).bind fun r g' _ => ?_
    cases r <;> trivial
  | succ n ih =>
    refine (hsend g).bind fun r g' _ => ?_
    cases r with
    | error e => trivial
    | ok a => exact ih.bind fun _ _ _ => trivial

theorem inScope_sendConnections (t : String) (g : Proven) : InScope t g (sendConnections t) := by
  refine ⟨rfl, fun r => ?_⟩
  cases r <;> trivial

theorem inScope_sendProjects (t : String) (id : Uuid) (search : String) (g : Proven) :
    InScope t g (sendProjects t id search) := by
  refine ⟨rfl, fun r => ?_⟩
  cases r <;> trivial

theorem inScope_listArtifacts (tenant : Option String) (connectionID : Option Uuid)
    (limit offset : ℕ) :
    InScope (tenant.getD "") g (Requests.listArtifacts tenant connectionID limit offset) := by
  refine inScope_forTenant fun t _ => ⟨rfl, fun r => ?_⟩
  cases r with
  | error e => trivial
  | ok rows =>
    refine ⟨rfl, fun r => ?_⟩
    cases r <;> trivial

theorem inScope_getArtifactContent (tenant : Option String) (id : Uuid) :
    InScope (tenant.getD "") g (Requests.getArtifactContent tenant id) := by
  refine inScope_forTenant fun t _ => ⟨rfl, fun r => ?_⟩
  cases r with
  | error e => trivial
  | ok row =>
    -- the object that is read is the one of the row
    refine ⟨List.mem_cons_self, fun r => ?_⟩
    cases r <;> trivial

theorem inScope_triggerSync (tenant : Option String) (id : Uuid) :
    InScope (tenant.getD "") g (triggerSync tenant id) := by
  refine inScope_forConnection fun t conn g hconn => ⟨hconn, fun r => ?_⟩
  cases r with
  | error e => trivial
  | ok _ => exact inScope_notify fun _ _ => trivial

theorem inScope_stopSync (tenant : Option String) (id : Uuid) :
    InScope (tenant.getD "") g (stopSync tenant id) := by
  refine inScope_forConnection fun t conn g hconn => ⟨hconn, fun r => ?_⟩
  cases r <;> trivial

theorem inScope_listProjects (tenant : Option String) (id : Uuid) (search : String) :
    InScope (tenant.getD "") g (listProjects tenant id search) :=
  inScope_forConnection fun t conn _ hconn =>
    ⟨hconn, fun _ => inScope_sendProjects t conn.id (trimSpace search) _⟩

theorem inScope_updateSyncSchedule (tenant : Option String) (id : Uuid) (enabled : Bool)
    (interval : ℤ) :
    InScope (tenant.getD "") g (Requests.updateSyncSchedule tenant id enabled interval) := by
  refine inScope_forConnection fun t conn g hconn => ?_
  split_ifs with hrange
  · trivial
  · refine ⟨hconn, fun r => ?_⟩
    cases r with
    | error e => trivial
    | ok _ => exact ⟨hconn, fun _ => inScope_notify fun _ _ => trivial⟩

/-- Requests to a source are not scoped. -/
theorem inScope_of_requests {α : Type} {p : Program α} (hp : p.Uses fun c => ∃ q, c = .request q) :
    InScope t g (onSite p) := by
  refine (Prog.follows_of_uses (I := fun _ => True) ?_ trivial).mono fun _ _ _ => trivial
  refine Prog.Uses.embed (hp.mono ?_)
  rintro c ⟨q, rfl⟩ g -
  exact ⟨trivial, fun _ => trivial⟩

theorem requests_uninstall (removed : List String) (id : String) :
    (Server.uninstall removed id).Uses fun c => ∃ q, c = .request q := by
  unfold Server.uninstall
  split
  · trivial
  · exact ⟨⟨_, rfl⟩, fun _ => trivial⟩

theorem requests_uninstallApp (s : Server) (conn : Connection) :
    (s.uninstallApp conn).Uses fun c => ∃ q, c = .request q := by
  unfold Server.uninstallApp
  dsimp only
  split
  · split
    · trivial
    · refine (requests_uninstall _ _).bind fun removed => ?_
      split
      · refine ⟨⟨_, rfl⟩, fun r => ?_⟩
        cases r with
        | error e => trivial
        | ok liveID => exact (requests_uninstall _ _).bind fun _ => trivial
      · trivial
  · trivial

theorem inScope_disconnect (s : Server) (tenant : Option String) (id : Uuid) :
    InScope (tenant.getD "") g (onSite (s.disconnect tenant id)) := by
  unfold Server.disconnect
  cases hreq : requireTenant tenant with
  | error e => trivial
  | ok t =>
    obtain ⟨rfl, -⟩ := Server.requireTenant_eq_ok.mp hreq
    refine ⟨rfl, fun r => ?_⟩
    cases r with
    | error e => trivial
    | ok conn =>
      refine ⟨rfl, fun r => ?_⟩
      cases r with
      | error e => trivial
      | ok rows =>
        show InScope _ _ (onSite (if rows = 0 then _ else _))
        split
        · trivial
        · refine ⟨rfl, fun _ => ⟨rfl, fun _ => ⟨List.mem_cons_self, fun _ => ⟨rfl, fun _ => ?_⟩⟩⟩⟩
          refine inScope_of_requests ?_
          exact (requests_uninstallApp s conn).bind fun _ => trivial

theorem inScope_setProjectSelection (tenant : Option String) (id : Uuid) (selected : List String) :
    InScope (tenant.getD "") g (onSite (Server.setProjectSelection tenant id selected)) := by
  unfold Server.setProjectSelection
  cases hreq : requireTenant tenant with
  | error e => trivial
  | ok t =>
    obtain ⟨rfl, -⟩ := Server.requireTenant_eq_ok.mp hreq
    refine ⟨rfl, fun r => ?_⟩
    cases r with
    | error e => trivial
    | ok conn =>
      have hconn : conn.id ∈ conn.id :: g.connections := List.mem_cons_self
      refine ⟨hconn, fun r => ?_⟩
      cases r with
      | error e => trivial
      | ok _ =>
        refine ⟨hconn, fun r => ?_⟩
        cases r with
        | error e => trivial
        | ok _ =>
          exact ⟨hconn, fun _ => ⟨hconn, fun _ => ⟨hconn, fun _ => ⟨rfl, fun _ => trivial⟩⟩⟩⟩

/-- **A request stays in the scope of its tenant.** -/
theorem Rpc.follows (s : Server) (tenant : Option String) (q : Rpc) :
    InScope (tenant.getD "") g (q.prog s tenant) := by
  cases q with
  | listConnections => exact inScope_forTenant fun t _ => inScope_sendConnections t g
  | triggerSync id => exact inScope_triggerSync tenant id
  | stopSync id => exact inScope_stopSync tenant id
  | disconnect id => exact inScope_disconnect s tenant id
  | listArtifacts connectionID limit offset =>
    exact inScope_listArtifacts tenant connectionID limit offset
  | getArtifactContent id => exact inScope_getArtifactContent tenant id
  | listProjects id search => exact inScope_listProjects tenant id search
  | setProjectSelection id selected => exact inScope_setProjectSelection tenant id selected
  | updateSyncSchedule id enabled interval =>
    exact inScope_updateSyncSchedule tenant id enabled interval
  | watchConnections wakeups =>
    exact inScope_streamTo fun t => inScope_watch (inScope_sendConnections t) wakeups
  | watchProjects id wakeups =>
    exact inScope_streamTo fun t => inScope_watch (inScope_sendProjects t id "") wakeups

end Follows

/-! ### Artifacts and connections -/

theorem owns_iff {db : Database} {t : String} {id : Uuid} :
    db.owns t id = true ↔ ∃ c ∈ db.connections.rows, c.id = id ∧ c.tenantID = t := by
  simp [Database.owns]

/-- A connection is of one tenant. -/
theorem owns_unique {db : Database} {t t' : String} {id : Uuid} (h : db.owns t id = true)
    (h' : db.owns t' id = true) : t = t' := by
  obtain ⟨c, hc, hid, rfl⟩ := owns_iff.mp h
  obtain ⟨c', hc', hid', rfl⟩ := owns_iff.mp h'
  rw [db.connections.eq_of_id hc hc' (hid.trans hid'.symm)]

theorem owns_iff_homes {db : Database} {t : String} {id : Uuid} :
    db.owns t id = true ↔ ∃ h ∈ db.homes, h.1 = id ∧ h.2.1 = t := by
  rw [owns_iff]
  unfold homes
  simp only [List.mem_map, exists_exists_and_eq_and]
  rfl

/-- A connection stays its tenant's. -/
theorem owns_exec {now : Time} {db : Database} {t : String} {id : Uuid} (h : db.owns t id = true)
    (s : Statement) : (s.exec now db).2.owns t id = true := by
  rcases homes_exec now db s with hsame | ⟨p, rfl, hinsert⟩
  · rw [owns_iff_homes, hsame]
    exact owns_iff_homes.mp h
  · obtain ⟨c, hc, hid, ht⟩ := owns_iff.mp h
    refine owns_iff.mpr ⟨c, ?_, hid, ht⟩
    rw [hinsert]
    exact List.mem_append_left _ hc

/-- Every artifact is of the tenant of its connection. -/
def Consistent (db : Database) : Prop :=
  ∀ r ∈ db.artifacts.rows, db.owns r.tenantID r.connectionID = true

/-- A statement keeps artifacts and connections consistent, if it commits for the tenant of a
connection. -/
theorem Consistent.exec {now : Time} {db : Database} (h : Consistent db) {s : Statement}
    (hs : ∀ p unitID cursor, s = .commitArtifact p unitID cursor →
      db.owns p.tenantID p.connectionID = true) : Consistent (s.exec now db).2 := by
  intro r' hr'
  refine owns_exec ?_ s
  cases manifestStep now db s hr' with
  | keep hr => exact h r' hr
  | hide r hr heq => rw [heq]; exact h r hr
  | restore r hr _ heq => rw [heq]; exact h r hr
  | mark r deadline hr _ heq => rw [heq]; exact h r hr
  | rewrite r p unitID cursor hr _ _ heq => rw [heq]; exact h r hr
  | insert p unitID cursor heqs _ heq => rw [heq]; exact hs p unitID cursor heqs

/-! ### Requests and jobs side by side -/

/-- A request with the tenant of its header, or a job of the service. -/
inductive Invocation where
  | rpc (tenant : Option String) (q : Rpc)
  | job (j : Job)
  deriving DecidableEq, Repr

/-- The program of an invocation. -/
def Invocation.prog (a : Activities) (s : Server) : Invocation → SiteProgram Unit
  | .rpc tenant q => (q.prog s tenant).bind fun _ => .pure ()
  | .job j => Requests.onSite (j.prog a s)

/-- What a job has read: connections, with their tenants. -/
def nextHome (g : List (Uuid × String)) : (c : SiteCmd) → c.Resp → List (Uuid × String)
  | .service (.statement (.getConnectionByID id)), .ok conn => (id, conn.tenantID) :: g
  | _, _ => g

/-- What is committed is committed for the tenant of a connection that was read. -/
def commitsHome : Protocol (List (Uuid × String)) SiteCmd SiteCmd.Resp where
  allowed g
    | .service (.statement (.commitArtifact p _ _)) => (p.connectionID, p.tenantID) ∈ g
    | _ => True
  next := nextHome

theorem nextHome_mono (g : List (Uuid × String)) (c : SiteCmd) (r : c.Resp) :
    g ⊆ nextHome g c r := by
  unfold nextHome
  split
  · exact List.subset_cons_self _ _
  · exact List.Subset.refl _

/-- A command that commits nothing. -/
def SiteCmd.commitsNothing : SiteCmd → Prop
  | .service (.statement (.commitArtifact _ _ _)) => False
  | _ => True

theorem follows_of_commitsNothing {α : Type} {p : SiteProgram α} {g : List (Uuid × String)}
    (hp : p.Uses SiteCmd.commitsNothing) : p.Follows commitsHome (fun _ _ => True) g := by
  refine (Prog.follows_of_uses (I := fun _ => True) (hp.mono fun c hc g _ => ?_) trivial).mono
    fun _ _ _ => trivial
  refine ⟨?_, fun _ => trivial⟩
  cases c with
  | service c =>
    cases c with
    | statement s => cases s <;> trivial
    | _ => trivial
  | _ => trivial

/-- A request commits nothing. -/
theorem commitsNothing_of_inScope {α : Type} {t : String} {g : Proven} {p : SiteProgram α}
    (hp : InScope t g p) : p.Uses SiteCmd.commitsNothing := by
  induction p generalizing g with
  | pure a => trivial
  | call c k ih =>
    refine ⟨?_, fun r => ih r (hp.2 r)⟩
    have hc := hp.1
    cases c with
    | service c =>
      cases c with
      | statement s => cases s <;> trivial
      | _ => trivial
    | _ => trivial

/-- A job that is no drain commits nothing. -/
theorem commitsNothing_of_issues {j : Job} {c : Cmd} (hj : ∀ i, j ≠ .syncUnit i)
    (hc : j.Issues c) : SiteCmd.commitsNothing (.service c) := by
  cases c with
  | statement s =>
    cases s with
    | commitArtifact p unitID cursor =>
      exfalso
      cases j with
      | syncUnit i => exact hj i rfl
      | upkeep u => cases u <;> cases hc
      | _ => cases hc
    | _ => trivial
  | _ => trivial

/-- An execution of `SyncUnit` commits for the tenant of the connection it loaded. -/
theorem follows_commitsHome_syncUnit (a : Activities) (i : SyncInput) (g : List (Uuid × String)) :
    (Requests.onSite (a.syncUnit i)).Follows commitsHome (fun _ _ => True) g := by
  refine ⟨trivial, fun r => ?_⟩
  cases r with
  | error e => trivial
  | ok conn =>
    have hread : (i.connectionID, conn.tenantID) ∈ nextHome g
        (.service (.statement (.getConnectionByID i.connectionID))) (.ok conn) :=
      List.mem_cons_self
    dsimp only [Prog.pure_bind]
    cases a.reg.get conn.connectorID with
    | none => trivial
    | some connector =>
      refine (Prog.follows_of_uses
        (I := fun g' => (i.connectionID, conn.tenantID) ∈ g') ?_ hread).mono fun _ _ _ => trivial
      refine Prog.Uses.embed ((emitsFor_syncLoaded a i conn connector).mono fun c hc g' hg' =>
        ⟨?_, fun r => nextHome_mono g' _ r hg'⟩)
      cases c with
      | statement s =>
        cases s with
        | commitArtifact p unitID cursor =>
          obtain ⟨hid, ht⟩ := hc
          show (p.connectionID, p.tenantID) ∈ g'
          rw [hid, ht]
          exact hg'
        | _ => trivial
      | _ => trivial

theorem Invocation.follows (a : Activities) (sv : Server) (v : Invocation) :
    (v.prog a sv).Follows commitsHome (fun _ _ => True) [] := by
  cases v with
  | rpc tenant q =>
    refine follows_of_commitsNothing (Prog.Uses.bind ?_ fun _ => trivial)
    exact commitsNothing_of_inScope (q.follows (g := Proven.init) sv tenant)
  | job j =>
    by_cases hsync : ∃ i, j = .syncUnit i
    · obtain ⟨i, rfl⟩ := hsync
      show (Requests.onSite ((a.syncUnit i).bind fun _ => .pure ())).Follows _ _ _
      rw [Requests.onSite, Prog.embed_bind]
      exact (follows_commitsHome_syncUnit a i []).bind fun _ _ _ => trivial
    · refine follows_of_commitsNothing (Prog.Uses.embed ((j.uses a sv).mono fun c hc => ?_))
      exact commitsNothing_of_issues (fun i hi => hsync ⟨i, hi⟩) hc

/-- A command of a site leaves the database as it is, or it is a statement that took effect. -/
theorem site_db_cases (lower : String → String) (x : SiteChoice) (b : Bool) (w : Site)
    (c : SiteCmd) : ((site lower).perform x b w c).1.world.db = w.world.db ∨
      ∃ s, c = .service (.statement s) ∧ ((site lower).perform x b w c).1.world.db =
        (s.exec (w.world.now + x.service.elapsed) w.world.db).2 := by
  cases c with
  | service c =>
    have hdb : ((site lower).perform x b w (.service c)).1.world.db =
        (service.perform x.service b w.world c).1.db := rfl
    rw [hdb, service_db]
    cases c with
    | statement s =>
      by_cases h : x.service.takesEffect b = true
      · exact .inr ⟨s, rfl, if_pos h⟩
      · exact .inl (if_neg h)
    | _ => exact .inl rfl
  | query q => exact .inl rfl
  | updateSyncSchedule id schedule =>
    left
    show (if _ then _ else _ : Site).world.db = _
    split <;> rfl
  | signalRunning id x => exact .inl rfl

/-- What was read of a connection, in a world where it is there. -/
theorem owns_nextHome {lower : String → String} {x : SiteChoice} {b : Bool} {w : Site}
    {g : List (Uuid × String)} (hg : ∀ h ∈ g, w.world.db.owns h.2 h.1 = true) (c : SiteCmd) :
    ∀ h ∈ nextHome g c ((site lower).perform x b w c).2, w.world.db.owns h.2 h.1 = true := by
  cases c with
  | service c =>
    cases c with
    | statement s =>
      cases s with
      | getConnectionByID id =>
        show ∀ h ∈ nextHome g (.service (.statement (.getConnectionByID id)))
          (x.service.reply b (getConnectionByID id w.world.db)), _
        cases hreply : x.service.reply b (getConnectionByID id w.world.db) with
        | error e => exact hg
        | ok conn =>
          obtain ⟨-, hget⟩ := of_reply_eq_ok hreply
          obtain ⟨hmem, hid⟩ := mem_of_getConnectionByID hget
          intro h hh
          rcases List.mem_cons.mp hh with rfl | hh
          · exact owns_iff.mpr ⟨conn, hmem, hid, rfl⟩
          · exact hg h hh
      | _ => exact hg
    | _ => exact hg
  | _ => exact hg

theorem owns_perform {lower : String → String} {x : SiteChoice} {b : Bool} {w : Site} {t : String}
    {id : Uuid} (h : w.world.db.owns t id = true) (c : SiteCmd) :
    ((site lower).perform x b w c).1.world.db.owns t id = true := by
  rcases site_db_cases lower x b w c with hsame | ⟨s, -, hexec⟩
  · rwa [hsame]
  · rw [hexec]
    exact owns_exec h s

/-- **Every run of requests and jobs keeps artifacts and connections consistent.** -/
theorem consistent_of_run {lower : String → String} {a : Activities} {sv : Server}
    {es : List (Machine.PoolEvent Invocation SiteChoice)} {w : Site}
    {s : Machine.Pool Site SiteCmd SiteCmd.Resp Unit}
    {tr : List (Performed Site SiteChoice SiteCmd)}
    (hw : Consistent w.world.db)
    (h : ((site lower).pool (Invocation.prog a sv)).Run ⟨w, []⟩ es s tr) :
    Consistent s.world.world.db := by
  have start : ∀ (w : Site) (gs : List (List (Uuid × String))),
      (Consistent w.world.db ∧ ∀ g ∈ gs, ∀ h ∈ g, w.world.db.owns h.2 h.1 = true) →
      Consistent w.world.db ∧ ∀ g ∈ gs ++ [[]], ∀ h ∈ g, w.world.db.owns h.2 h.1 = true := by
    rintro w gs ⟨hcons, hgs⟩
    refine ⟨hcons, fun g hg => ?_⟩
    rcases List.mem_append.mp hg with hg | hg
    · exact hgs g hg
    · obtain rfl := List.mem_singleton.mp hg
      simp
  obtain ⟨gs, hinv, -⟩ := Machine.pool_follows (P := commitsHome)
    (J := fun w gs _ => Consistent w.world.db ∧
      ∀ g ∈ gs, ∀ h ∈ g, w.world.db.owns h.2 h.1 = true)
    h (Invocation.follows a sv) ⟨hw, by simp⟩ (fun w gs _ => start w gs) (by
      rintro s tr i t c k b gs g - - hgi hallowed ⟨hcons, hgs⟩
      have hg := hgs g (List.mem_of_getElem? hgi)
      refine ⟨?_, fun g' hg' h hh => owns_perform ?_ c⟩
      · rcases site_db_cases lower t.choice (b || t.cancel) s.world c with
          hsame | ⟨st, rfl, hexec⟩
        · rwa [hsame]
        · rw [hexec]
          refine hcons.exec ?_
          rintro p unitID cursor rfl
          exact hg _ hallowed
      · rcases List.mem_or_eq_of_mem_set hg' with hg' | rfl
        · exact hgs g' hg' h hh
        · exact owns_nextHome hg c h hh)
  exact hinv.1

end Hivebook
