import Hivebook.Api.Handlers
import Hivebook.Database.Residence
import Hivebook.Lib.Threads
import Hivebook.Server.Readers
import Hivebook.Service.Discovery

/-!
# Residency

A connection is to be created in the region its tenant has chosen, and its objects go to the
bucket of that region.  The region reaches the row by three ways: the headers of a token
connect, the state that was signed when an authorization was started, and the row itself, when
a unit is synced.  It is write-once, so what a request has read of it stays true; and a state
that comes back was signed for a region that was read.

What is missing is a check.  An authorization is not started for a tenant without a region, but
a token connect goes on without one, and the row gets the empty region for good.  That is the
only way: a run keeps residency if and only if no request creates a connection after it has
found its tenant without a region.

## Main definitions

* `Resident`, `Creates`, `Residency` — what is claimed of a run.
* `Onboarded` — no request creates a connection after it has found no region.
* `Sound` — what is assumed of a run: header values arrive as they were set, and a MAC is
  computed by nobody else.
* `Reading`, `residency` — what a request has read, and the protocol the requests follow.

## Main results

* `Call.follows` — every request follows the protocol.
* `residency_iff` — **a run keeps residency if and only if it is `Onboarded`.**
* `token_not_resident` — a token connect of a tenant that was never onboarded.
-/

namespace Hivebook
namespace Api

open Connectors

/-! ### What is claimed -/

/-- The region of a connection is the one recorded for its tenant. -/
def Resident (ts : Tenants) (c : Connection) : Prop :=
  c.region ≠ "" ∧ recorded ts c.tenantID = some c.region

instance (ts : Tenants) (c : Connection) : Decidable (Resident ts c) :=
  inferInstanceAs (Decidable (_ ∧ _))

/-- The command creates the row. -/
def Creates (sg : Signer) (l : Performed Platform ApiChoice ApiCmd) (c : Connection) : Prop :=
  c ∈ (after sg l).service.db.connections.rows ∧
    ∀ c' ∈ l.state.service.db.connections.rows, c'.id ≠ c.id

/-- Every connection is created in the region of its tenant. -/
def CreatedResident (sg : Signer) (tr : List (ℕ × Performed Platform ApiChoice ApiCmd)) : Prop :=
  ∀ a ∈ tr, ∀ c, Creates sg a.2 c → Resident a.2.state.tenants c

/-- An object goes to the bucket of the region recorded for the tenant of its connection. -/
def StoredAtHome (env : String) (l : Performed Platform ApiChoice ApiCmd) : Prop :=
  ∀ bucket key contentType body, l.cmd = .service (.putObject bucket key contentType body) →
    ∃ c ∈ l.state.service.db.connections.rows, ∃ region rest, region ≠ "" ∧
      recorded l.state.tenants c.tenantID = some region ∧
      bucket = Storage.bucket env c.connectorID region ∧ key = c.tenantID ++ "/" ++ rest

/-- The residency of a run. -/
structure Residency (d : Deployment) (tr : List (ℕ × Performed Platform ApiChoice ApiCmd)) :
    Prop where
  created : CreatedResident d.signer tr
  stored : ∀ a ∈ tr, StoredAtHome d.activities.env a.2

/-! ### What is assumed -/

/-- The state a command mints. -/
def mints (l : Performed Platform ApiChoice ApiCmd) : Option SignedState :=
  match l.cmd with
  | .sign tenant region connector =>
      if l.choice.service.outcome = .applied then
        some (signedState (l.state.service.now + l.choice.service.elapsed) l.choice.nonce tenant
          region connector)
      else none
  | _ => none

/-- The state was minted. -/
def Minted (tr : List (ℕ × Performed Platform ApiChoice ApiCmd)) (st : SignedState) : Prop :=
  ∃ a ∈ tr, mints a.2 = some st

/-- Only the service computes its MAC: the payload of a token that carries one was minted. -/
def Authentic (sg : Signer) (tr : List (ℕ × Performed Platform ApiChoice ApiCmd))
    (token : String) : Prop :=
  ∀ enc, sg.Vouched token enc → ∃ st, Minted tr st ∧ enc = sg.encode st

/-- The organization and the region of a statement arrive as they are set in a header. -/
def TenantStatement.portable : TenantStatement → Prop
  | .getTenantByOrg orgID => Portable orgID
  | .completeOnboarding _ region _ => Portable region
  | _ => True

/-- What is assumed of a turn. -/
def Assumed (sg : Signer) (tr : List (ℕ × Performed Platform ApiChoice ApiCmd)) (x : ApiChoice) :
    ApiCmd → Prop
  | .tenant s => s.portable
  | .query => Authentic sg tr x.query.state
  | _ => True

/-- What is assumed of a run. -/
def Sound (sg : Signer) (s : Machine.Pool Platform ApiCmd ApiCmd.Resp Unit)
    (tr : List (ℕ × Performed Platform ApiChoice ApiCmd)) :
    Machine.PoolEvent Call ApiChoice → Prop
  | .start _ => True
  | .turn i t => ∀ c k b, s.threads[i]? = some ⟨.call c k, b⟩ → Assumed sg tr t.choice c

/-- The tenants and connections a run may start from. -/
structure Settled (w : Platform) : Prop where
  regions : ∀ t ∈ w.tenants.rows, ∀ r, t.region = some r → Portable r ∧ r ≠ ""
  rows : ∀ c ∈ w.service.db.connections.rows, Resident w.tenants c

/-! ### What a request has read -/

/-- What a running request has read. -/
structure Reading where
  /-- The organization whose record was read, and the region it had. -/
  record : Option (String × Option String)
  /-- The state of the redirect. -/
  presented : Option String
  /-- The connections that were loaded. -/
  rows : List Connection

/-- A request that starts has read nothing. -/
def Reading.init : Reading := { record := none, presented := none, rows := [] }

/-- How a response moves the reading on. -/
def Reading.next (g : Reading) : (c : ApiCmd) → c.Resp → Reading
  | .tenant (.getTenantByOrg orgID), .ok t => { g with record := some (orgID, t.region) }
  | .query, q => { g with presented := some q.state }
  | .service (.statement (.getConnectionByID _)), .ok conn => { g with rows := conn :: g.rows }
  | _, _ => g

/-- The headers are those of the record that was read. -/
def Reading.Sent (g : Reading) (h : Headers) : Prop :=
  ∃ orgID region, g.record = some (orgID, region) ∧ sendHeaders orgID region = some h

/-- Tenant and region of a connect are those of the headers, or of a state that verifies. -/
def Reading.mayConnect (d : Deployment) (g : Reading) (tenantID region : String) : Prop :=
  (g.presented = none ∧ ∃ h, g.Sent h ∧ h.tenant = some tenantID ∧ region = h.region.getD "") ∨
    g.record = none ∧ ∃ token now st, g.presented = some token ∧
      d.server.verify now token = .ok st ∧ tenantID = st.tenant ∧ region = st.region

/-- An object goes to the bucket of a connection that was loaded. -/
def Reading.mayStore (env : String) (g : Reading) (bucket key : String) : Prop :=
  ∃ c ∈ g.rows, bucket = Storage.bucket env c.connectorID c.region ∧
    ∃ rest, key = c.tenantID ++ "/" ++ rest

/-- What every request and job may do. -/
def residency (d : Deployment) : Protocol Reading ApiCmd ApiCmd.Resp where
  allowed g
    | .tenant (.completeOnboarding _ region _) => region ≠ ""
    | .sign tenant region _ => ∃ h, g.Sent h ∧ h.tenant = some tenant ∧ h.region = some region
    | .service (.statement (.upsertConnection p)) => g.mayConnect d p.tenantID p.region
    | .service (.putObject bucket key _ _) => g.mayStore d.activities.env bucket key
    | _ => True
  next := Reading.next

/-- What a request has read, from the commands it has performed. -/
def reading (d : Deployment) (ls : List (Performed Platform ApiChoice ApiCmd)) : Reading :=
  (residency d).after (platform d.signer) Reading.init ls

/-- No request creates a connection after it has found its tenant without a region. -/
def Onboarded (d : Deployment) (tr : List (ℕ × Performed Platform ApiChoice ApiCmd)) : Prop :=
  AtEvery (fun pre a => (∃ c, Creates d.signer a.2 c) →
    ∀ orgID, (reading d (byThread a.1 pre)).record ≠ some (orgID, none)) tr

/-! ### Every request follows the protocol -/

section Follows

variable (d : Deployment) {g : Reading}

theorem follows_recordAudit (id : Identity) (action target : String) :
    (recordAudit id action target).Follows (residency d) (fun _ _ => True) g :=
  ⟨trivial, fun _ => trivial⟩

/-- What `GetOrCreateTenant` answers is the record that was read. -/
theorem follows_getOrCreateTenant (orgID : String) (hg : g.presented = none) :
    (getOrCreateTenant orgID).Follows (residency d)
      (fun r g => g.presented = none ∧ ∀ t, r = .ok t → g.record = some (orgID, t.region)) g := by
  refine ⟨trivial, fun r => ?_⟩
  have hkept : (residency d).next g (.tenant (.createTenantIfAbsent orgID)) r = g := rfl
  rw [hkept]
  cases r with
  | error e => exact ⟨hg, by simp⟩
  | ok _ =>
    refine ⟨trivial, fun r => ?_⟩
    cases r with
    | error e => exact ⟨hg, by simp⟩
    | ok t =>
      refine ⟨hg, fun t' ht => ?_⟩
      cases ht
      rfl

theorem follows_authenticated {α : Type} (id : Option Identity) {valid : Bool}
    {f : Identity → ApiProgram (Except RpcError α)}
    (hf : ∀ id, valid = true → (f id).Follows (residency d) (fun _ _ => True) g) :
    (authenticated id valid f).Follows (residency d) (fun _ _ => True) g := by
  unfold authenticated
  cases id with
  | none => trivial
  | some id =>
    dsimp only
    split
    · exact hf id ‹_›
    · trivial

theorem follows_runs {α : Type} {p : ApiProgram α}
    (hp : p.Follows (residency d) (fun _ _ => True) g) :
    (runs p).Follows (residency d) (fun _ _ => True) g :=
  hp.bind fun _ _ _ => trivial

/-! #### The tenant service -/

theorem follows_getSession (id : Option Identity) :
    (getSession id).Follows (residency d) (fun _ _ => True) Reading.init := by
  refine follows_authenticated d id fun id _ => ?_
  refine (follows_getOrCreateTenant d id.org rfl).bind fun r g _ => ?_
  cases r <;> trivial

theorem follows_completeOnboarding (id : Option Identity) (region : String) (p : Profile) :
    (completeOnboarding id region p).Follows (residency d) (fun _ _ => True) Reading.init := by
  refine follows_authenticated d id fun id hvalid => ?_
  simp only [validRegion, Bool.and_eq_true, decide_eq_true_eq] at hvalid
  have hregion : region ≠ "" := by
    rintro rfl
    exact absurd hvalid.1.1 (by decide)
  refine ⟨hregion, fun r => ?_⟩
  dsimp only [Prog.pure_bind]
  split
  · trivial
  · trivial
  · exact (follows_recordAudit d _ _ _).bind fun _ _ _ => trivial

theorem follows_updateTenant (id : Option Identity) (p : Profile) :
    (updateTenant id p).Follows (residency d) (fun _ _ => True) g := by
  refine follows_authenticated d id fun id _ => ?_
  refine ⟨trivial, fun r => ?_⟩
  dsimp only [Prog.pure_bind]
  split
  · trivial
  · trivial
  · exact (follows_recordAudit d _ _ _).bind fun _ _ _ => trivial

theorem follows_setFeatureFlag (id : Option Identity) (key : String) (enabled : Bool) :
    (setFeatureFlag id key enabled).Follows (residency d) (fun _ _ => True) g := by
  refine follows_authenticated d id fun id _ => ?_
  split
  · trivial
  · have hstore : ∀ flag, (storeFlag id.org flag enabled).Follows (residency d)
        (fun _ _ => True) g := by
      intro flag
      unfold storeFlag
      split <;> exact ⟨trivial, fun _ => trivial⟩
    refine (hstore _).bind fun r g _ => ?_
    split
    · trivial
    · exact (follows_recordAudit d _ _ _).bind fun _ _ _ => trivial

/-! #### Connecting -/

theorem follows_serverGetAuthorizeUrl {h : Headers} (hsent : g.Sent h) (connectorID : String) :
    (serverGetAuthorizeUrl d h connectorID).Follows (residency d) (fun _ _ => True) g := by
  unfold serverGetAuthorizeUrl
  split
  · trivial
  · rename_i tenant htenant
    split
    · trivial
    · rename_i region hregion
      split
      · trivial
      · refine ⟨⟨h, hsent, (Server.requireTenant_eq_ok.mp htenant).1, hregion⟩, fun r => ?_⟩
        dsimp only [Prog.pure_bind]
        split <;> trivial

theorem follows_getAuthorizeUrl (id : Option Identity) (connectorID : String) :
    (getAuthorizeUrl d id connectorID).Follows (residency d) (fun _ _ => True) Reading.init := by
  refine follows_authenticated d id fun id _ => ?_
  refine (follows_getOrCreateTenant d id.org rfl).bind fun r g hread => ?_
  cases r with
  | error e => trivial
  | ok t =>
    dsimp only
    split
    · trivial
    · rename_i h hsend
      have hsent : g.Sent h := ⟨_, _, hread.2 t rfl, hsend⟩
      refine (follows_serverGetAuthorizeUrl d hsent connectorID).bind fun r g _ => ?_
      split
      · trivial
      · exact (follows_recordAudit d _ _ _).bind fun _ _ _ => trivial

/-- A call to the service keeps what was read of the tenant and of the redirect. -/
theorem next_service (g : Reading) (c : Cmd) (r : c.Resp) :
    ((residency d).next g (.service c) r).record = g.record ∧
      ((residency d).next g (.service c) r).presented = g.presented ∧
      ∀ conn ∈ g.rows, conn ∈ ((residency d).next g (.service c) r).rows := by
  have hsame : ∀ g' : Reading, g' = g →
      g'.record = g.record ∧ g'.presented = g.presented ∧ ∀ conn ∈ g.rows, conn ∈ g'.rows := by
    rintro _ rfl
    exact ⟨rfl, rfl, fun _ h => h⟩
  cases c with
  | statement s =>
    cases s with
    | getConnectionByID id =>
      cases r with
      | error e => exact hsame _ rfl
      | ok conn => exact ⟨rfl, rfl, fun _ h => List.mem_cons_of_mem _ h⟩
    | _ => exact hsame _ rfl
  | _ => exact hsame _ rfl

/-- A program of the service follows the protocol if its commands are allowed by what was read
before it. -/
theorem follows_onService {α : Type} {p : Program α}
    (hp : p.Uses fun c => ∀ g' : Reading, g'.record = g.record → g'.presented = g.presented →
      (∀ conn ∈ g.rows, conn ∈ g'.rows) → (residency d).allowed g' (.service c)) :
    (onService p).Follows (residency d) (fun _ _ => True) g := by
  refine (Prog.follows_of_uses (I := fun g' : Reading => g'.record = g.record ∧
    g'.presented = g.presented ∧ ∀ conn ∈ g.rows, conn ∈ g'.rows) ?_
      ⟨rfl, rfl, fun _ h => h⟩).mono fun _ _ _ => trivial
  refine Prog.Uses.embed ?_
  refine hp.mono fun c hc g' hg' => ⟨hc g' hg'.1 hg'.2.1 hg'.2.2, fun r => ?_⟩
  obtain ⟨hrecord, hpresented, hrows⟩ := next_service d g' c r
  exact ⟨hrecord.trans hg'.1, hpresented.trans hg'.2.1, fun conn h => hrows conn (hg'.2.2 conn h)⟩

/-- The commands of a connect: the row has the given tenant and region. -/
def ConnectsAs (tenantID region : String) : Cmd → Prop
  | .statement (.upsertConnection p) => p.tenantID = tenantID ∧ p.region = region
  | .putObject _ _ _ _ => False
  | _ => True

theorem connectsAs_saveConnection (p : Database.UpsertConnectionParams) :
    (Server.saveConnection p).Uses (ConnectsAs p.tenantID p.region) := by
  refine ⟨⟨rfl, rfl⟩, fun r => ?_⟩
  cases r with
  | error e => trivial
  | ok row => exact ⟨trivial, fun _ => ⟨trivial, fun _ => trivial⟩⟩

theorem connectsAs_completeTokenConnection (sv : Server) {tenant : Option String}
    {tenantID : String}
    (ht : requireTenant tenant = .ok tenantID) (region connectorID token name : String) :
    (sv.completeTokenConnection tenant region connectorID token name).Uses
      (ConnectsAs tenantID region) := by
  unfold Server.completeTokenConnection
  rw [ht]
  dsimp only
  split
  · trivial
  · refine ⟨trivial, fun r => ?_⟩
    cases r with
    | error e => trivial
    | ok login =>
      dsimp only [Prog.pure_bind]
      split
      · exact connectsAs_saveConnection _
      · trivial

theorem connectsAs_completeConnection (sv : Server) (st : OAuthState) (connector : Connector)
    (code installationID : String) :
    (sv.completeInstallation st connector (sv.creds connector.id) installationID).Uses
        (ConnectsAs st.tenant st.region) ∧
      (sv.completeOAuth st connector code).Uses (ConnectsAs st.tenant st.region) := by
  constructor
  · unfold Server.completeInstallation
    split
    · trivial
    · exact ⟨trivial, fun r => connectsAs_saveConnection _⟩
  · refine ⟨trivial, fun r => ?_⟩
    cases r with
    | error e => trivial
    | ok tok =>
      refine ⟨trivial, fun r => ?_⟩
      dsimp only [Prog.pure_bind]
      split
      · exact connectsAs_saveConnection _
      · trivial

theorem allowed_of_connectsAs {tenantID region : String} {c : Cmd}
    (hc : ConnectsAs tenantID region c) (hg : g.mayConnect d tenantID region) :
    (residency d).allowed g (.service c) := by
  cases c with
  | statement s =>
    cases s with
    | upsertConnection p =>
      obtain ⟨htenant, hregion⟩ := hc
      show g.mayConnect d p.tenantID p.region
      rwa [htenant, hregion]
    | _ => trivial
  | putObject _ _ _ _ => cases hc
  | _ => trivial

theorem follows_connectFlagged (id : Identity) (connectorID token name : String)
    (hg : g.presented = none) :
    (connectFlagged d id connectorID token name).Follows (residency d) (fun _ _ => True) g := by
  refine (follows_getOrCreateTenant d id.org hg).bind fun r g hread => ?_
  obtain ⟨hpresented, hrecord⟩ := hread
  cases r with
  | error e => trivial
  | ok t =>
    dsimp only
    split
    · trivial
    · rename_i h hsend
      have hsent : ∀ g' : Reading, g'.record = g.record → g'.Sent h := fun g' heq =>
        ⟨_, _, heq.trans (hrecord t rfl), hsend⟩
      refine Prog.Follows.bind (R := fun _ _ => True) ?_ fun r g _ => ?_
      · cases htenant : requireTenant h.tenant with
        | error e =>
          unfold Server.completeTokenConnection
          rw [htenant]
          trivial
        | ok tenantID =>
          refine follows_onService d ?_
          refine (connectsAs_completeTokenConnection d.server htenant _ _ _ _).mono ?_
          intro c hc g' hrec hpres _
          refine allowed_of_connectsAs d hc
            (.inl ⟨hpres.trans hpresented, h, hsent g' hrec, ?_, rfl⟩)
          exact (Server.requireTenant_eq_ok.mp htenant).1
      · split
        · trivial
        · exact (follows_recordAudit d _ _ _).bind fun _ _ _ => trivial

theorem follows_connectWithToken (id : Option Identity) (connectorID token name : String) :
    (connectWithToken d id connectorID token name).Follows (residency d) (fun _ _ => True)
      Reading.init := by
  refine follows_authenticated d id fun id _ => ?_
  split
  · refine Prog.Follows.bind (R := fun _ g => g.presented = none) ?_ fun r g hg => ?_
    · refine ⟨trivial, fun r => ?_⟩
      dsimp only [Prog.pure_bind]
      split <;> rfl
    · split
      · trivial
      · split
        · exact follows_connectFlagged d id connectorID token name hg
        · trivial
  · exact follows_connectFlagged d id connectorID token name rfl

theorem follows_connectorCallback :
    (connectorCallback d).Follows (residency d) (fun _ _ => True) Reading.init := by
  refine ⟨trivial, fun q => ?_⟩
  dsimp only [Prog.pure_bind]
  split
  · trivial
  · split
    · trivial
    · refine Prog.Follows.bind (R := fun _ _ => True) (follows_onService d ?_) fun r g _ => ?_
      · refine ⟨fun g' _ _ _ => trivial, fun now => ?_⟩
        dsimp only [Prog.pure_bind]
        split
        · trivial
        · rename_i st hverify
          split
          · trivial
          · rename_i connector _
            obtain ⟨hinst, hoauth⟩ := connectsAs_completeConnection d.server st connector
              q.code q.installationID
            have hallowed : ∀ c, ConnectsAs st.tenant st.region c → ∀ g' : Reading,
                g'.record = none → g'.presented = some q.state →
                (residency d).allowed g' (.service c) := by
              intro c hc g' hrec hpres
              exact allowed_of_connectsAs d hc
                (.inr ⟨hrec, q.state, now, st, hpres, hverify, rfl, rfl⟩)
            split
            · exact hinst.mono fun c hc g' hrec hpres _ => hallowed c hc g' hrec hpres
            · exact hoauth.mono fun c hc g' hrec hpres _ => hallowed c hc g' hrec hpres
      · split <;> trivial

/-! #### The jobs of the integrations service -/

/-- A command that neither creates a connection nor stores an object. -/
def storesNothing : Cmd → Bool
  | .statement (.upsertConnection _) | .putObject _ _ _ _ => false
  | _ => true

theorem storesNothing_of_minor {c : Cmd} (hc : c.minor = true) : storesNothing c = true := by
  cases c with
  | statement s => cases s <;> first | rfl | cases hc
  | putObject _ _ _ _ => cases hc
  | _ => rfl

theorem storesNothing_of_touchesTokens {c : Cmd} (hc : c.touchesTokens = true) :
    storesNothing c = true := by
  cases c with
  | statement s => cases s <;> first | rfl | cases hc
  | putObject _ _ _ _ => cases hc
  | _ => rfl

theorem storesNothing_of_settles {c : Cmd} (hc : c.settles = true) : storesNothing c = true := by
  cases c with
  | statement s => cases s <;> first | rfl | cases hc
  | putObject _ _ _ _ => cases hc
  | _ => rfl

theorem storesNothing_of_inPass {conn : Connection} {c : Cmd} (hc : InPass conn c) :
    storesNothing c = true := by
  cases hc with
  | tokens hc => exact storesNothing_of_touchesTokens hc
  | _ => rfl

/-- An object goes to the bucket of the given connection. -/
def PutsFor (env : String) (conn : Connection) : Cmd → Prop
  | .putObject bucket key _ _ => bucket = Storage.bucket env conn.connectorID conn.region ∧
      ∃ rest, key = conn.tenantID ++ "/" ++ rest
  | _ => True

theorem putsFor_of_steady {α : Type} {p : Program α} {env : String} {conn : Connection}
    (h : Steady p) : p.Uses (PutsFor env conn) := by
  refine h.mono fun c hc => ?_
  cases c with
  | putObject _ _ _ _ => cases hc
  | _ => trivial

theorem putsFor_of_plain {α : Type} {p : Program α} {env : String} {conn : Connection}
    (h : Plain p) : p.Uses (PutsFor env conn) := by
  refine h.mono fun c hc => ?_
  cases c with
  | putObject _ _ _ _ => cases hc
  | _ => trivial

section Drain

variable (a : Activities) (i : SyncInput) (conn : Connection)

theorem putsFor_emitChanged (art : Artifact) (hash : String) (st : EmitState) :
    (a.emitChanged i conn art hash st).Uses (PutsFor a.env conn) := by
  refine ⟨⟨rfl, _, rfl⟩, fun r => ?_⟩
  cases r with
  | error e => trivial
  | ok _ =>
    refine ⟨trivial, fun r => ?_⟩
    cases r with
    | error e => trivial
    | ok _ =>
      exact putsFor_of_steady ((Activities.steady_noteProgress i _).bind fun _ => steady_pure _)

theorem putsFor_makeEmit (art : Artifact) (st : EmitState) :
    (a.makeEmit i conn art st).Uses (PutsFor a.env conn) := by
  refine (putsFor_of_steady steady_ctxErr).bind fun b => ?_
  split
  · trivial
  · refine (putsFor_of_steady (steady_statement rfl)).bind fun r => ?_
    split
    · split
      · exact putsFor_of_plain (Activities.plain_emitUnchanged i art st)
      · exact putsFor_emitChanged a i conn art _ st
    · exact putsFor_emitChanged a i conn art _ st
    · trivial

/-- Whatever its connector does, a drain stores for its connection only. -/
theorem putsFor_drain (connector : Connector) (unit : SyncUnit) :
    (a.drain i conn connector unit).Uses (PutsFor a.env conn) := by
  refine Prog.Uses.handle ?_ _ _
  intro c st
  cases c with
  | fetch c =>
    cases c with
    | ctxErr => exact putsFor_of_steady (steady_ctxErr.bind fun _ => steady_pure _)
    | request q => exact putsFor_of_steady ((steady_request q).bind fun _ => steady_pure _)
  | emit art => exact putsFor_makeEmit a i conn art st

theorem putsFor_admitted (connector : Connector) (unit : SyncUnit) :
    (a.admitted i conn connector unit).Uses (PutsFor a.env conn) := by
  refine Prog.Uses.bind ?_ fun r => ?_
  · refine ⟨trivial, fun r => ?_⟩
    cases r with
    | error e => trivial
    | ok _ =>
      refine ⟨trivial, fun r => ?_⟩
      dsimp only [Prog.pure_bind]
      split <;> trivial
  · split
    · trivial
    · trivial
    · refine Prog.Uses.bind ?_ fun r => ⟨trivial, fun _ => trivial⟩
      exact (putsFor_drain a i conn connector unit).bind fun r =>
        putsFor_of_steady (Activities.steady_finishUnit _ _ _ _ _)

/-- **Once its connection is loaded, `SyncUnit` stores for it only.** -/
theorem putsFor_syncLoaded (connector : Connector) :
    (a.syncLoaded i conn connector).Uses fun c => PutsFor a.env conn c ∧
      ∀ p, c ≠ .statement (.upsertConnection p) := by
  have hputs : (a.syncLoaded i conn connector).Uses (PutsFor a.env conn) := by
    refine Prog.Uses.bind ⟨trivial, fun _ => trivial⟩ fun r => ?_
    split
    · trivial
    · refine (putsFor_of_steady (steady_statement rfl)).bind fun r => ?_
      split
      · trivial
      · refine (putsFor_of_steady (steady_statement rfl)).bind fun _ =>
          (putsFor_of_steady (a.touchesTokens_clientFor conn).steady).bind fun r => ?_
        split
        · exact putsFor_of_steady ((Activities.steady_classify _ _ _).bind fun _ => steady_pure _)
        · exact putsFor_admitted a i conn connector _
  refine ((uses_syncLoaded a connector).and hputs).mono fun c hc => ?_
  obtain ⟨hsync, hput⟩ := hc
  refine ⟨hput, ?_⟩
  rintro p rfl
  cases hsync with
  | tokens htokens => cases htokens

end Drain

/-- A program that stores nothing, and creates nothing, follows the protocol. -/
theorem follows_of_storesNothing {α : Type} {p : Program α}
    (hp : p.Uses fun c => storesNothing c = true) :
    (onService p).Follows (residency d) (fun _ _ => True) g := by
  refine follows_onService d (hp.mono fun c hc g' _ _ _ => ?_)
  cases c with
  | statement s => cases s <;> trivial
  | putObject _ _ _ _ => cases hc
  | _ => trivial

/-- What was loaded was read. -/
theorem follows_loadConnection (id : Uuid) :
    (onService (d.activities.loadConnection id)).Follows (residency d)
      (fun r g => ∀ conn connector, r = .ok (conn, connector) → conn ∈ g.rows) g := by
  refine ⟨trivial, fun r => ?_⟩
  cases r with
  | error e => simp [Prog.Follows, Prog.embed]
  | ok conn =>
    dsimp only [Prog.pure_bind]
    split
    · simp [Prog.Follows, Prog.embed]
    · rintro conn' connector' heq
      cases heq
      exact List.mem_cons_self

theorem onService_bind {α β : Type} (p : Program α) (q : α → Program β) :
    onService (p.bind q) = (onService p).bind fun a => onService (q a) :=
  Prog.embed_bind _ _ p q

theorem follows_discard {α : Type} {p : Program α}
    (hp : (onService p).Follows (residency d) (fun _ _ => True) g) :
    (onService (discard p)).Follows (residency d) (fun _ _ => True) g := by
  unfold discard
  rw [onService_bind]
  exact hp.bind fun _ _ _ => trivial

theorem follows_job {j : Job} (hj : j.connects = false) :
    (onService (j.prog d.activities d.server)).Follows (residency d) (fun _ _ => True) g := by
  by_cases hroutine : j.isRoutine = true
  · by_cases hgc : j = .upkeep .gcRemovedUnits
    · subst hgc
      refine follows_discard d (follows_of_storesNothing d ⟨rfl, fun now => ⟨rfl, fun r => ?_⟩⟩)
      cases r with
      | error e => trivial
      | ok ids =>
        refine (uses_gcConnections _ _ _).mono ?_
        rintro c ⟨id, rfl⟩
        rfl
    · refine follows_of_storesNothing d ?_
      exact (Job.minor d.activities d.server hroutine hgc hj).mono fun _ => storesNothing_of_minor
  · -- the jobs that read a connection first, and store in its region or not at all
    cases j with
    | syncUnit i =>
      refine follows_discard d ?_
      rw [syncUnit_eq, onService_bind]
      refine (follows_loadConnection d i.connectionID).bind fun r g hread => ?_
      cases r with
      | error e => trivial
      | ok loaded =>
        obtain ⟨conn, connector⟩ := loaded
        have hconn : conn ∈ g.rows := hread conn connector rfl
        refine follows_onService d ?_
        refine (putsFor_syncLoaded d.activities i conn connector).mono ?_
        rintro c ⟨hput, hupsert⟩ g' - - hrows
        cases c with
        | statement s =>
          cases s with
          | upsertConnection p => exact absurd rfl (hupsert p)
          | _ => trivial
        | putObject bucket key contentType body => exact ⟨conn, hrows conn hconn, hput⟩
        | _ => trivial
    | upkeep u =>
      cases u with
      | discoverUnits id =>
        refine follows_discard d ?_
        rw [discoverUnits_loaded, onService_bind]
        refine (follows_loadConnection d id).bind fun r g hread => ?_
        cases r with
        | error e => trivial
        | ok loaded =>
          obtain ⟨conn, connector⟩ := loaded
          refine follows_of_storesNothing d ?_
          exact (uses_discoverLoaded d.activities connector).mono fun c => storesNothing_of_inPass
      | _ => exact absurd rfl hroutine
    | settleConnection id =>
      refine follows_discard d (follows_of_storesNothing d ?_)
      exact (uses_settleConnection id).mono fun c => storesNothing_of_settles
    | _ => exact absurd rfl hroutine

/-- **Every request and job follows the protocol.** -/
theorem Call.follows (c : Call) :
    (c.prog d).Follows (residency d) (fun _ _ => True) Reading.init := by
  cases c with
  | getSession id => exact follows_runs d (follows_getSession d id)
  | completeOnboarding id region p =>
    exact follows_runs d (follows_completeOnboarding d id region p)
  | updateTenant id p => exact follows_runs d (follows_updateTenant d id p)
  | setFeatureFlag id key enabled => exact follows_runs d (follows_setFeatureFlag d id key enabled)
  | getAuthorizeUrl id connectorID =>
    exact follows_runs d (follows_getAuthorizeUrl d id connectorID)
  | connectWithToken id connectorID token name =>
    exact follows_runs d (follows_connectWithToken d id connectorID token name)
  | connectorCallback => exact follows_runs d (follows_connectorCallback d)
  | job j => exact follows_job d j.2

end Follows

/-! ### What a command does to tenants and connections -/

section Step

variable {sg : Signer} {x : ApiChoice} {b : Bool} {w : Platform}

/-- Recorded regions and the homes of connections stay. -/
theorem recorded_perform (c : ApiCmd) {orgID r : String} (h : recorded w.tenants orgID = some r) :
    recorded ((platform sg).perform x b w c).1.tenants orgID = some r :=
  stored_perform writeOnce_region c h

variable (sg x b w) in
theorem homes_perform (c : ApiCmd) :
    ((platform sg).perform x b w c).1.service.db.homes = w.service.db.homes ∨
      ∃ p, c = .service (.statement (.upsertConnection p)) ∧
        ((platform sg).perform x b w c).1.service.db.connections.rows =
          w.service.db.connections.rows ++ [p.new w.service.db.connections.next] := by
  cases c with
  | tenant s =>
    left
    show (if x.service.takesEffect b = true then _ else _ : Platform).service.db.homes = _
    split <;> rfl
  | sign tenant region connector => exact .inl rfl
  | query => exact .inl rfl
  | service c =>
    have hdb := service_db x.service b w.service c
    show (service.perform x.service b w.service c).1.db.homes = _ ∨ _
    cases c with
    | statement s =>
      by_cases hx : x.service.takesEffect b = true
      · simp only [hx, if_true] at hdb
        rw [hdb]
        rcases homes_exec _ w.service.db s with hkept | ⟨p, rfl, hinsert⟩
        · exact .inl hkept
        · refine .inr ⟨p, rfl, ?_⟩
          show (service.perform x.service b w.service _).1.db.connections.rows = _
          rw [hdb]
          exact hinsert
      · simp only [hx, Bool.false_eq_true, if_false] at hdb
        rw [hdb]
        exact .inl rfl
    | _ =>
      rw [hdb]
      exact .inl rfl

theorem mem_homes_perform {c : ApiCmd} {h : Uuid × String × String × String}
    (hh : h ∈ w.service.db.homes) : h ∈ ((platform sg).perform x b w c).1.service.db.homes := by
  rcases homes_perform sg x b w c with hkept | ⟨p, rfl, hinsert⟩
  · rwa [hkept]
  · unfold Database.homes
    rw [hinsert, List.map_append]
    exact List.mem_append_left _ hh

/-- **A connection is created by a connect**, which inserts it. -/
theorem of_creates {l : Performed Platform ApiChoice ApiCmd} {c : Connection}
    (h : Creates sg l c) : ∃ p, l.cmd = .service (.statement (.upsertConnection p)) ∧
      c = p.new l.state.service.db.connections.next := by
  obtain ⟨hmem, hnew⟩ := h
  unfold after at hmem
  rcases homes_perform sg l.choice l.cancelled l.state l.cmd with
    hkept | ⟨p, hcmd, hinsert⟩
  · have hhome : c.home ∈ l.state.service.db.homes := hkept ▸ List.mem_map_of_mem hmem
    obtain ⟨c', hc', heq⟩ := List.mem_map.mp hhome
    exact absurd (congrArg Prod.fst heq) (hnew c' hc')
  · rw [hinsert] at hmem
    rcases List.mem_append.mp hmem with hold | hlast
    · exact absurd rfl (hnew c hold)
    · exact ⟨p, hcmd, List.mem_singleton.mp hlast⟩

theorem Resident.of_home {ts : Tenants} {c c' : Connection} (h : Resident ts c)
    (heq : c.home = c'.home) : Resident ts c' := by
  simp only [Connection.home, Prod.mk.injEq] at heq
  obtain ⟨-, htenant, hregion, -⟩ := heq
  unfold Resident
  rw [← htenant, ← hregion]
  exact h

theorem Resident.perform {c : Connection} (h : Resident w.tenants c) (cmd : ApiCmd) :
    Resident ((platform sg).perform x b w cmd).1.tenants c := ⟨h.1, recorded_perform cmd h.2⟩

end Step

/-! ### What a run keeps -/

section Run

variable {d : Deployment} {g : Reading} {w : Platform} {x : ApiChoice} {b : Bool}
  {tr : List (ℕ × Performed Platform ApiChoice ApiCmd)}

/-- What a request has read is still true. -/
structure Kept (d : Deployment) (g : Reading) (w : Platform) : Prop where
  record : ∀ orgID region, g.record = some (orgID, region) → Portable orgID ∧
    ∀ r, region = some r → recorded w.tenants orgID = some r ∧ Portable r ∧ r ≠ ""
  presented : ∀ token now st, g.presented = some token → d.server.verify now token = .ok st →
    recorded w.tenants st.tenant = some st.region ∧ st.region ≠ ""
  rows : ∀ c ∈ g.rows, c.home ∈ w.service.db.homes

/-- The invariant of the platform and the trace. -/
structure ResidencyInv (d : Deployment) (w : Platform)
    (tr : List (ℕ × Performed Platform ApiChoice ApiCmd)) : Prop where
  regions : ∀ t ∈ w.tenants.rows, ∀ r, t.region = some r → Portable r ∧ r ≠ ""
  minted : ∀ st, Minted tr st → recorded w.tenants st.tenant = some st.region ∧ st.region ≠ ""
  rows : CreatedResident d.signer tr → ∀ c ∈ w.service.db.connections.rows, Resident w.tenants c
  stored : CreatedResident d.signer tr → ∀ a ∈ tr, StoredAtHome d.activities.env a.2
  /-- A connection is resident if and only if the request that creates it has read a region. -/
  each : AtEvery (fun pre a => ∀ c, Creates d.signer a.2 c →
    (Resident a.2.state.tenants c ↔
      ∀ orgID, (reading d (byThread a.1 pre)).record ≠ some (orgID, none))) tr

theorem kept_init : Kept d Reading.init w :=
  ⟨by simp [Reading.init], by simp [Reading.init], by simp [Reading.init]⟩

/-- Another request changes nothing of it. -/
theorem Kept.perform (h : Kept d g w) (c : ApiCmd) :
    Kept d g ((platform d.signer).perform x b w c).1 where
  record orgID region hg := by
    obtain ⟨horg, hregion⟩ := h.record orgID region hg
    refine ⟨horg, fun r hr => ?_⟩
    obtain ⟨hrec, hboth⟩ := hregion r hr
    exact ⟨recorded_perform c hrec, hboth⟩
  presented token now st hg hverify := by
    obtain ⟨hrec, hne⟩ := h.presented token now st hg hverify
    exact ⟨recorded_perform c hrec, hne⟩
  rows c' hc' := mem_homes_perform (h.rows c' hc')

/-- The headers that a request sends say what is recorded. -/
theorem Kept.of_sent {h : Headers} (hk : Kept d g w) (hsent : g.Sent h) {tenantID : String}
    (htenant : h.tenant = some tenantID) :
    (g.record = some (tenantID, none) ∧ h.region = none) ∨
      ∃ r, g.record = some (tenantID, some r) ∧ h.region = some r ∧ r ≠ "" ∧
        recorded w.tenants tenantID = some r := by
  obtain ⟨orgID, region, hrecord, hsend⟩ := hsent
  obtain ⟨horg, hregion⟩ := hk.record orgID region hrecord
  obtain ⟨htenant', hnone, hsome⟩ := of_sendHeaders hsend horg
  obtain ⟨rfl, -⟩ := received_eq_some.mp (htenant'.symm.trans htenant)
  cases region with
  | none => exact .inl ⟨hrecord, hnone rfl⟩
  | some r =>
    obtain ⟨hrec, hportable, hne⟩ := hregion r rfl
    refine .inr ⟨r, hrecord, ?_, hne, hrec⟩
    rw [hsome r rfl hportable]
    exact received_eq_some.mpr ⟨rfl, hne⟩

/-- **A connect saves a resident connection if and only if its request has read a region.** -/
theorem Kept.resident_iff {p : Database.UpsertConnectionParams} (hk : Kept d g w)
    (hmay : g.mayConnect d p.tenantID p.region) (id : Uuid) :
    Resident w.tenants (p.new id) ↔ ∀ orgID, g.record ≠ some (orgID, none) := by
  show (p.region ≠ "" ∧ recorded w.tenants p.tenantID = some p.region) ↔ _
  rcases hmay with ⟨-, h, hsent, htenant, hregion⟩ | ⟨hrecord, token, now, st, hpresented,
    hverify, htenant, hregion⟩
  · rcases hk.of_sent hsent htenant with ⟨hrecord, hnone⟩ | ⟨r, hrecord, hsome, hne, hrec⟩
    · -- the tenant had no region, and the connection gets the empty one
      rw [hregion, hnone, hrecord]
      simp
    · rw [hregion, hsome, hrecord]
      simp [hne, hrec]
  · -- the state was signed for a region that was read
    obtain ⟨hrec, hne⟩ := hk.presented token now st hpresented hverify
    rw [htenant, hregion, hrecord]
    simp [hne, hrec]

/-- What a token connect or a redirect reads is true. -/
theorem Kept.next (hk : Kept d g w) (hinv : ResidencyInv d w tr) {c : ApiCmd}
    (hassumed : Assumed d.signer tr x c) :
    Kept d ((residency d).next g c ((platform d.signer).perform x b w c).2)
      ((platform d.signer).perform x b w c).1 := by
  have hkept : Kept d g ((platform d.signer).perform x b w c).1 := hk.perform c
  cases c with
  | tenant s =>
    cases s with
    | getTenantByOrg orgID =>
      have hreply : ((platform d.signer).perform x b w (.tenant (.getTenantByOrg orgID))).2 =
          x.service.reply b (one (findTenant w.tenants orgID)) := rfl
      rw [hreply]
      cases hr : x.service.reply b (one (findTenant w.tenants orgID)) with
      | error e => exact hkept
      | ok t =>
        obtain ⟨hmem, hrec⟩ := recorded_of_getTenantByOrg (of_reply_eq_ok hr).2
        refine ⟨fun org region heq => ?_, hkept.presented, hkept.rows⟩
        cases heq
        refine ⟨hassumed, fun r hregion => ⟨?_, hinv.regions t hmem r hregion⟩⟩
        exact recorded_perform _ (hrec.trans hregion)
    | _ => exact hkept
  | sign tenant region connector => exact hkept
  | query =>
    refine ⟨hkept.record, fun token now st heq hverify => ?_, hkept.rows⟩
    cases heq
    -- a state that verifies was signed, and what was signed was minted
    have hverify : d.server.verify now x.query.state = .ok st := hverify
    rw [d.verify_eq] at hverify
    cases hsigned : d.signer.verify now x.query.state with
    | error e =>
      rw [hsigned] at hverify
      cases hverify
    | ok signed =>
      rw [hsigned] at hverify
      cases hverify
      obtain ⟨enc, hvouched, hdecode⟩ := Signer.vouched_of_verify hsigned
      obtain ⟨minted, hminted, rfl⟩ := hassumed enc hvouched
      rw [d.signer.decode_encode] at hdecode
      cases hdecode
      exact hinv.minted _ hminted
  | service c =>
    cases c with
    | statement s =>
      cases s with
      | getConnectionByID id =>
        cases hr : ((platform d.signer).perform x b w
            (.service (.statement (.getConnectionByID id)))).2 with
        | error e => exact hkept
        | ok conn =>
          refine ⟨hkept.record, hkept.presented, fun c hc => ?_⟩
          rcases List.mem_cons.mp hc with rfl | hc
          · have hread : x.service.reply b (Database.getConnectionByID id w.service.db) = .ok c :=
              hr
            have hmem := (mem_of_getConnectionByID (of_reply_eq_ok hread).2).1
            exact mem_homes_perform (List.mem_map_of_mem hmem)
          · exact hkept.rows c hc
      | _ => exact hkept
    | _ => exact hkept

theorem createdResident_snoc {a : ℕ × Performed Platform ApiChoice ApiCmd} :
    CreatedResident d.signer (tr ++ [a]) ↔ CreatedResident d.signer tr ∧
      ∀ c, Creates d.signer a.2 c → Resident a.2.state.tenants c := by
  unfold CreatedResident
  simp only [List.forall_mem_append, List.forall_mem_singleton]

theorem minted_snoc {a : ℕ × Performed Platform ApiChoice ApiCmd} {st : SignedState} :
    Minted (tr ++ [a]) st ↔ Minted tr st ∨ mints a.2 = some st := by
  simp only [Minted, List.mem_append, List.mem_singleton, or_and_right, exists_or, exists_eq_left]

/-- A region in the tenants is one that was onboarded. -/
theorem regions_perform {c : ApiCmd} (hinv : ResidencyInv d w tr)
    (hallowed : (residency d).allowed g c) (hassumed : Assumed d.signer tr x c) :
    ∀ t ∈ ((platform d.signer).perform x b w c).1.tenants.rows, ∀ r, t.region = some r →
      Portable r ∧ r ≠ "" := by
  cases c with
  | tenant s =>
    show ∀ t ∈ (if x.service.takesEffect b = true then _ else _ : Platform).tenants.rows, _
    split
    · refine forall_region_exec _ s hinv.regions fun r hr => ?_
      cases s with
      | completeOnboarding orgID region p =>
        obtain rfl : r = region := hr
        exact ⟨hassumed, hallowed⟩
      | _ => cases hr
    · exact hinv.regions
  | _ => exact hinv.regions

/-- **What one command keeps.** -/
theorem ResidencyInv.step (i : ℕ) {c : ApiCmd} (hinv : ResidencyInv d w tr)
    (hk : Kept d (reading d (byThread i tr)) w)
    (hallowed : (residency d).allowed (reading d (byThread i tr)) c)
    (hassumed : Assumed d.signer tr x c) :
    ResidencyInv d ((platform d.signer).perform x b w c).1 (tr ++ [(i, ⟨w, c, b, x⟩)]) where
  regions := regions_perform hinv hallowed hassumed
  minted st hst := by
    rcases minted_snoc.mp hst with hold | hnew
    · obtain ⟨hrec, hne⟩ := hinv.minted st hold
      exact ⟨recorded_perform c hrec, hne⟩
    · cases c with
      | sign tenant region connector =>
        -- a state is signed for the region that was read
        obtain ⟨h, hsent, htenant, hregion⟩ := hallowed
        rcases hk.of_sent hsent htenant with ⟨-, hnone⟩ | ⟨r, -, hsome, hne, hrec⟩
        · rw [hregion] at hnone
          cases hnone
        · rw [hregion] at hsome
          cases hsome
          unfold mints at hnew
          dsimp only at hnew
          split at hnew
          · cases hnew
            exact ⟨hrec, hne⟩
          · cases hnew
      | _ => cases hnew
  rows hall c' hc' := by
    obtain ⟨hold, hlast⟩ := createdResident_snoc.mp hall
    rcases homes_perform d.signer x b w c with
      hkept | ⟨p, rfl, hinsert⟩
    · have hhome : c'.home ∈ w.service.db.homes := hkept ▸ List.mem_map_of_mem hc'
      obtain ⟨c₀, hc₀, heq⟩ := List.mem_map.mp hhome
      exact ((hinv.rows hold c₀ hc₀).perform c).of_home heq
    · rw [hinsert] at hc'
      rcases List.mem_append.mp hc' with hmem | hmem
      · exact (hinv.rows hold c' hmem).perform _
      · obtain rfl := List.mem_singleton.mp hmem
        refine (hlast _ ⟨?_, fun c₀ hc₀ => ?_⟩).perform _
        · unfold after
          rw [hinsert]
          simp
        · exact Nat.ne_of_lt (w.service.db.connections.id_lt c₀ hc₀)
  stored hall := by
    obtain ⟨hold, -⟩ := createdResident_snoc.mp hall
    refine List.forall_mem_append.mpr ⟨hinv.stored hold, List.forall_mem_singleton.mpr ?_⟩
    rintro bucket key contentType body rfl
    obtain ⟨conn, hconn, rfl, rest, rfl⟩ := hallowed
    obtain ⟨c₀, hc₀, heq⟩ := List.mem_map.mp (hk.rows conn hconn)
    obtain ⟨hne, hrec⟩ := hinv.rows hold c₀ hc₀
    simp only [Connection.home, Prod.mk.injEq] at heq
    obtain ⟨-, htenant, hregion, hconnector⟩ := heq
    refine ⟨c₀, hc₀, c₀.region, rest, hne, hrec, ?_, ?_⟩
    · rw [hregion, hconnector]
    · rw [htenant]
  each := by
    refine atEvery_snoc hinv.each fun c' hc' => ?_
    obtain ⟨p, rfl, rfl⟩ := of_creates hc'
    exact hk.resident_iff hallowed _

/-- **A run keeps residency if and only if no request creates a connection after it has found
its tenant without a region.** -/
theorem residency_iff {es : List (Machine.PoolEvent Call ApiChoice)} {w₀ : Platform}
    {s : Machine.Pool Platform ApiCmd ApiCmd.Resp Unit} (hw : Settled w₀)
    (h : ((platform d.signer).threads (Call.prog d)).RunWhere (Sound d.signer) ⟨w₀, []⟩ es s tr) :
    Residency d tr ↔ Onboarded d tr := by
  have hinit : ResidencyInv d w₀ [] :=
    { regions := hw.regions
      minted := by simp [Minted]
      rows := fun _ => hw.rows
      stored := by simp
      each := atEvery_nil }
  have hinv : ResidencyInv d s.world tr := by
    refine (Machine.threads_interference (P := residency d) (J := ResidencyInv d) (K := Kept d)
      h (Call.follows d) hinit (fun _ => kept_init) ?_).1
    intro s tr i t c k b hC hth hallowed hJ hK
    have hk := hK i (Machine.Pool.running_of_call hth)
    have hassumed := hC c k b hth
    refine ⟨hJ.step i hk hallowed hassumed, hk.next hJ hassumed, fun i' _ hi' => ?_⟩
    exact (hK i' hi').perform c
  constructor
  · rintro hres pre a post rfl ⟨c, hc⟩
    have hmem : a ∈ pre ++ a :: post := by simp
    exact (hinv.each pre a post rfl c hc).mp (hres.created a hmem c hc)
  · intro hon
    have hcreated : CreatedResident d.signer tr := by
      intro a ha c hc
      obtain ⟨pre, post, rfl⟩ := List.append_of_mem ha
      exact (hinv.each pre a post rfl c hc).mpr (hon pre a post rfl ⟨c, hc⟩)
    exact ⟨hcreated, hinv.stored hcreated⟩

end Run

/-! ### A workspace that connects GitHub -/

/-- Whether only the service has computed the MAC of a token. -/
def authenticCheck (sg : Signer) (tr : List (ℕ × Performed Platform ApiChoice ApiCmd))
    (token : String) : Bool :=
  match cutAt '.' token with
  | none => true
  | some (enc, macPart) => decide (sg.decodeMac macPart ≠ some (sg.mac enc)) ||
      tr.any fun a => (mints a.2).any fun st => decide (enc = sg.encode st)

theorem authentic_of_check {sg : Signer} {tr : List (ℕ × Performed Platform ApiChoice ApiCmd)}
    {token : String} (h : authenticCheck sg tr token = true) : Authentic sg tr token := by
  rintro enc ⟨macPart, hcut, hmac⟩
  unfold authenticCheck at h
  rw [hcut] at h
  simp only [hmac, ne_eq, not_true_eq_false, decide_false, Bool.false_or, List.any_eq_true,
    Option.any_eq_true, decide_eq_true_eq] at h
  obtain ⟨a, ha, st, hst, henc⟩ := h
  exact ⟨st, ⟨a, ha, hst⟩, henc⟩

/-- Whether a turn is as it is assumed to be. -/
def assumedCheck (sg : Signer) (tr : List (ℕ × Performed Platform ApiChoice ApiCmd))
    (x : ApiChoice) : ApiCmd → Bool
  | .tenant (.getTenantByOrg orgID) => decide (Portable orgID)
  | .tenant (.completeOnboarding _ region _) => decide (Portable region)
  | .query => authenticCheck sg tr x.query.state
  | _ => true

theorem assumed_of_check {sg : Signer} {tr : List (ℕ × Performed Platform ApiChoice ApiCmd)}
    {x : ApiChoice} {c : ApiCmd} (h : assumedCheck sg tr x c = true) : Assumed sg tr x c := by
  cases c with
  | tenant s =>
    cases s with
    | getTenantByOrg orgID =>
      have hportable : Portable orgID := of_decide_eq_true h
      exact hportable
    | completeOnboarding orgID region p =>
      have hportable : Portable region := of_decide_eq_true h
      exact hportable
    | _ => trivial
  | query => exact authentic_of_check h
  | _ => trivial

/-- Whether an event is as it is assumed to be. -/
def soundCheck (sg : Signer) (s : Machine.Pool Platform ApiCmd ApiCmd.Resp Unit)
    (tr : List (ℕ × Performed Platform ApiChoice ApiCmd)) :
    Machine.PoolEvent Call ApiChoice → Bool
  | .start _ => true
  | .turn i t =>
      match s.threads[i]? with
      | some ⟨.call c _, _⟩ => assumedCheck sg tr t.choice c
      | _ => true

theorem sound_of_check {sg : Signer} {s : Machine.Pool Platform ApiCmd ApiCmd.Resp Unit}
    {tr : List (ℕ × Performed Platform ApiChoice ApiCmd)}
    {e : Machine.PoolEvent Call ApiChoice} (h : soundCheck sg s tr e = true) :
    Sound sg s tr e := by
  cases e with
  | start c => trivial
  | turn i t =>
    intro c k b hth
    simp only [soundCheck, hth] at h
    exact assumed_of_check h

theorem settled_newPlatform : Settled newPlatform := ⟨by simp [newPlatform, Table.empty],
  by simp [newPlatform, Database.empty, Table.empty]⟩

/-- A request that starts, and takes some turns. -/
def served (i : ℕ) (c : Call) (n : ℕ) (state : String) :
    List (Machine.PoolEvent Call ApiChoice) :=
  .start c :: List.replicate n (.turn i (smooth state))

/-- Whether a command creates a connection that is not resident. -/
def createsAway (sg : Signer) (l : Performed Platform ApiChoice ApiCmd) : Bool :=
  (after sg l).service.db.connections.rows.any fun c =>
    (l.state.service.db.connections.rows.all fun c' => decide (c'.id ≠ c.id)) &&
      !decide (Resident l.state.tenants c)

theorem createdResident_iff {sg : Signer} {tr : List (ℕ × Performed Platform ApiChoice ApiCmd)} :
    CreatedResident sg tr ↔ (tr.any fun a => createsAway sg a.2) = false := by
  unfold CreatedResident Creates createsAway
  simp only [List.any_eq_false, List.any_eq_true, Bool.and_eq_true,
    List.all_eq_true, decide_eq_true_eq, Bool.not_eq_true', decide_eq_false_iff_not, not_exists,
    not_and, not_not, and_imp]

/-- Whether a command stores an object. -/
def stores (l : Performed Platform ApiChoice ApiCmd) : Bool :=
  match l.cmd with
  | .service (.putObject _ _ _ _) => true
  | _ => false

/-- The tenant is onboarded, and connects Drive by a redirect and GitHub by a token. -/
def onboardedRun : List (Machine.PoolEvent Call ApiChoice) :=
  served 0 (.getSession ann) 2 "" ++
    served 1 (.completeOnboarding ann "eu" ⟨"Acme", "1-10", [], ""⟩) 2 "" ++
    served 2 (.setFeatureFlag ann "github_pat" true) 2 "" ++
    served 3 (.getAuthorizeUrl ann "gdocs") 4 "" ++
    served 4 .connectorCallback 7
      (sampleSigner.sign (signedState 5 "n" "acme" "eu" "gdocs")) ++
    served 5 (.connectWithToken ann "github_pat" "token" "") 8 ""

/-- Both connections are created in the region of the tenant. -/
theorem onboarded_resident :
    ∃ s tr, ((platform sampleDeployment.signer).threads (Call.prog sampleDeployment)).RunWhere
        (Sound sampleDeployment.signer) ⟨newPlatform, []⟩ onboardedRun s tr ∧
      (s.world.service.db.connections.rows.map Connection.region) = ["eu", "eu"] ∧
      Onboarded sampleDeployment tr := by
  obtain ⟨s, tr, hrun, hend⟩ := Lts.exists_runWhere_of_any
    ((platform sampleDeployment.signer).threads (Call.prog sampleDeployment))
    (soundCheck sampleDeployment.signer) ⟨newPlatform, []⟩ onboardedRun
    (fun s tr => !(tr.any fun a => createsAway sampleDeployment.signer a.2) &&
      !(tr.any fun a => stores a.2) &&
      decide (s.world.service.db.connections.rows.map Connection.region = ["eu", "eu"]))
    (by decide +kernel)
  simp only [Bool.and_eq_true, Bool.not_eq_true', decide_eq_true_eq] at hend
  obtain ⟨⟨haway, hstores⟩, hregions⟩ := hend
  have hsound := hrun.mono fun s tr e => sound_of_check
  refine ⟨s, tr, hsound, hregions, (residency_iff settled_newPlatform hsound).mp ?_⟩
  refine ⟨createdResident_iff.mpr haway, fun a ha bucket key contentType body hcmd => ?_⟩
  have hnone := List.any_eq_false.mp hstores a ha
  unfold stores at hnone
  rw [hcmd] at hnone
  exact absurd rfl hnone

/-- Ann turns the flag on and connects GitHub before she has chosen a region. -/
def hastyRun : List (Machine.PoolEvent Call ApiChoice) :=
  served 0 (.getSession ann) 2 "" ++ served 1 (.setFeatureFlag ann "github_pat" true) 2 "" ++
    served 2 (.connectWithToken ann "github_pat" "token" "") 8 ""

/-- **A token connect of a tenant that was never onboarded gives a connection without a
region.** -/
theorem token_not_resident :
    ∃ s tr, ((platform sampleDeployment.signer).threads (Call.prog sampleDeployment)).RunWhere
        (Sound sampleDeployment.signer) ⟨newPlatform, []⟩ hastyRun s tr ∧
      ¬ Residency sampleDeployment tr := by
  obtain ⟨s, tr, hrun, hend⟩ := Lts.exists_runWhere_of_any
    ((platform sampleDeployment.signer).threads (Call.prog sampleDeployment))
    (soundCheck sampleDeployment.signer) ⟨newPlatform, []⟩ hastyRun
    (fun _ tr => tr.any fun a => createsAway sampleDeployment.signer a.2) (by decide +kernel)
  refine ⟨s, tr, hrun.mono fun s tr e => sound_of_check, fun hres => ?_⟩
  rw [createdResident_iff.mp hres.created] at hend
  cases hend

end Api
end Hivebook
