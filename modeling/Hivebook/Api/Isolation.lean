import Hivebook.Api.Audit
import Hivebook.Api.Flags
import Hivebook.Api.Proxy
import Hivebook.Lib.Purge

/-!
# The organizations do not see each other

Every handler of the API takes the organization from the identity of its caller, and every
statement it issues is about the row of that organization, or about the rows of the trail under
its id.  So the members of an organization that has its row cannot tell whether anybody else uses
the API: leave out of a run whatever the others do, and their requests still return what they
returned, and leave the row and the trail as they left them.  What the integrations service and
the directory answer is up to the environment here.

## Main definitions

* `TenantStatement.onRow` — what a statement does to the row it is about.
* `Ledger`, `ledger` — the database of the API with the trail, and the machine over it.
* `WorkspaceRequest`, `WorkspaceRequest.prog` — the requests to both services of the API.
* `tenancy` — what a request of an organization may issue.
* `Indistinct` — what the members of an organization see of two ledgers is the same.
* `Isolated` — what is claimed.

## Main results

* `findTenant_exec`, `answer_exec` — a statement is about one row.
* `prog_follows` — a request is about the organization of its caller.
* `unwinds` — what an organization sees depends on nothing else.
* `organizations_isolated` — **the requests of an organization run as if they ran alone.**
-/

namespace Hivebook
namespace Api

open Machine

/-! ### A statement is about one row -/

/-- The organization a statement is about. -/
def TenantStatement.orgID : TenantStatement → String
  | .getTenantByOrg orgID | .createTenantIfAbsent orgID | .completeOnboarding orgID _ _
  | .updateTenantProfile orgID _ | .getFeatureFlags orgID | .setFeatureFlag orgID _ _
  | .removeFeatureFlag orgID _ | .recordAuditEvent orgID _ _ _ _ => orgID

/-- What a statement answers from the row of its organization, and what it makes of it. -/
def TenantStatement.onRow (now : Time) (t : Tenant) :
    (s : TenantStatement) → Except Err s.Reply × Tenant
  | .getTenantByOrg _ => (.ok t, t)
  | .createTenantIfAbsent _ => (.ok (), t)
  | .completeOnboarding _ region p =>
      let t' := Tenants.reonboard now region p t
      (one ((some t').filter fun t => decide (t.region = some region)), t')
  | .updateTenantProfile _ p => (.ok (p.write now t), p.write now t)
  | .getFeatureFlags _ => (.ok t.featureFlags, t)
  | .setFeatureFlag _ key enabled =>
      (.ok (), { t with
        featureFlags := (key, enabled) :: t.featureFlags.filter fun f => decide (f.1 ≠ key)
        updatedAt := now })
  | .removeFeatureFlag _ key =>
      (.ok (), { t with
        featureFlags := t.featureFlags.filter fun f => decide (f.1 ≠ key), updatedAt := now })
  | .recordAuditEvent _ _ _ _ _ => (.ok (), t)

section Statements

variable {ts : Tenants} {orgID : String} {t : Tenant} {now : Time}

theorem orgID_of_findTenant (h : findTenant ts orgID = some t) : t.orgID = orgID := by
  simpa using List.find?_some h

/-- An update by the organization, of a row that is there. -/
theorem findTenant_update_org {org : String} {f : Tenant → Tenant} (hid : ∀ r, (f r).id = r.id)
    (hkey : ∀ r, (f r).orgID = r.orgID) (h : findTenant ts orgID = some t) :
    findTenant (ts.update (fun t => decide (t.orgID = org)) f hid hkey) orgID =
      some (if org = orgID then f t else t) := by
  have hsame : t.orgID = orgID := orgID_of_findTenant h
  rw [findTenant_update hid hkey, h, Option.map_some]
  unfold Table.updated
  by_cases horg : org = orgID
  · rw [if_pos horg, if_pos (decide_eq_true (hsame.trans horg.symm))]
  · rw [if_neg horg, if_neg (by simpa [hsame] using fun heq => horg heq.symm)]

/-- An upsert by the organization, next to a row that is there. -/
theorem findTenant_upsert (new : ℕ → Tenant) (f : Tenant → Tenant) (hnew : ∀ n, (new n).id = n)
    (hid : ∀ r, (f r).id = r.id) (hkey : ∀ r, (f r).orgID = r.orgID) {org : String}
    (horg : ∀ n, (new n).orgID = org) (h : findTenant ts orgID = some t) :
    findTenant (ts.upsert new f hnew hid hkey) orgID =
      some (if org = orgID then f t else t) := by
  unfold Table.upsert
  split
  · have hsame : (fun r : Tenant => decide (r.orgID = (new ts.next).orgID)) =
        fun r => decide (r.orgID = org) := by
      rw [horg]
    rw [← findTenant_update_org hid hkey h]
    congr 1
    simp only [hsame]
  · rename_i hmem
    have hne : org ≠ orgID := by
      rintro rfl
      refine hmem (List.mem_map.mpr ⟨t, List.mem_of_find?_eq_some h, ?_⟩)
      rw [horg]
      exact orgID_of_findTenant h
    rw [if_neg hne]
    show (ts.rows ++ [new ts.next]).find? _ = some t
    rw [List.find?_append]
    exact congrArg (Option.or · _) h

/-- **A statement changes the row of its organization**, and leaves those of the others. -/
theorem findTenant_exec (s : TenantStatement) (h : findTenant ts orgID = some t) :
    findTenant (s.exec now ts).2 orgID =
      some (if s.orgID = orgID then (s.onRow now t).2 else t) := by
  cases s with
  | createTenantIfAbsent org =>
    exact findTenant_upsert (Tenant.new now org) id (fun _ => rfl) (fun _ => rfl) (fun _ => rfl)
      (fun _ => rfl) h
  | completeOnboarding org region p =>
    exact findTenant_upsert (fun id => Tenants.onboard now region p (Tenant.new now org id))
      (Tenants.reonboard now region p) (fun _ => rfl) (Tenants.reonboard_id now region p)
      (Tenants.reonboard_orgID now region p) (fun _ => rfl) h
  | updateTenantProfile org p =>
    exact findTenant_update_org (f := p.write now) (fun _ => rfl) (fun _ => rfl) h
  | setFeatureFlag org key enabled =>
    exact findTenant_update_org (f := fun t => { t with
      featureFlags := (key, enabled) :: t.featureFlags.filter fun f => decide (f.1 ≠ key)
      updatedAt := now }) (fun _ => rfl) (fun _ => rfl) h
  | removeFeatureFlag org key =>
    exact findTenant_update_org (f := fun t => { t with
      featureFlags := t.featureFlags.filter fun f => decide (f.1 ≠ key)
      updatedAt := now }) (fun _ => rfl) (fun _ => rfl) h
  | getTenantByOrg org => exact h.trans (congrArg some (ite_self t).symm)
  | getFeatureFlags org => exact h.trans (congrArg some (ite_self t).symm)
  | recordAuditEvent org actorID actorEmail action target =>
    exact h.trans (congrArg some (ite_self t).symm)

/-- **A statement answers from the row of its organization.** -/
theorem answer_exec (s : TenantStatement) (h : findTenant ts s.orgID = some t) :
    (s.exec now ts).1 = (s.onRow now t).1 := by
  have hrow : findTenant (s.exec now ts).2 s.orgID = some (s.onRow now t).2 :=
    (findTenant_exec s h).trans (by rw [if_pos rfl])
  cases s with
  | getTenantByOrg org => exact congrArg one h
  | completeOnboarding org region p =>
    exact congrArg (fun t => one (t.filter fun t => decide (t.region = some region))) hrow
  | updateTenantProfile org p => exact congrArg one hrow
  | getFeatureFlags org =>
    have hfind : findTenant ts org = some t := h
    simp only [TenantStatement.exec, TenantStatement.onRow, hfind]
  | _ => rfl

theorem onRow_id (s : TenantStatement) : (s.onRow now t).2.id = t.id := by
  cases s with
  | completeOnboarding org region p => exact Tenants.reonboard_id now region p t
  | _ => rfl

end Statements

/-! ### The database of the API, with the trail -/

/-- A user in the answer of the directory. -/
structure DirectoryUser where
  userID : String
  displayName : String
  preferredLoginName : String
  email : String
  roles : List String
  deriving DecidableEq, Repr

/-- `zitadel.Member`, and the one of the response. -/
structure Member where
  id : String
  name : String
  email : String
  roles : List String
  deriving DecidableEq, Repr

/-- The display name, or the login name. -/
def DirectoryUser.toMember (u : DirectoryUser) : Member where
  id := u.userID
  name := if u.displayName = "" then u.preferredLoginName else u.displayName
  email := u.email
  roles := u.roles

/-- The row that is inserted for an action. -/
def AuditAction.row (a : AuditAction) (tenantID id : Uuid) (now : Time) : AuditRow where
  id := id
  tenantID := tenantID
  actorID := a.actorID
  actorEmail := nullIfEmpty a.actorEmail
  action := a.action
  target := nullIfEmpty a.target
  createdAt := now

/-- The platform, and the trail. -/
structure Ledger where
  platform : Platform
  trail : List AuditRow

namespace Ledger

def now (w : Ledger) : Time := w.platform.service.now

def tenants (w : Ledger) : Tenants := w.platform.tenants

/-- Time passes. -/
def tick (w : Ledger) (d : Time) : Ledger := { w with platform := w.platform.tick d }

end Ledger

/-- The commands of the API, with those on the trail and the call of the directory. -/
inductive LedgerCmd where
  | hop (c : HopCmd)
  | insertAuditEvent (tenantID : Uuid) (a : AuditAction)
  | listAuditRows (tenantID : Uuid) (limit offset : ℕ)
  | countAuditEvents (tenantID : Uuid)
  /-- `/management/v1/orgs/me/members/_search`, under `x-zitadel-orgid`. -/
  | searchMembers (orgID : String)
  deriving DecidableEq, Repr

/-- The responses to the commands. -/
@[reducible] def LedgerCmd.Resp : LedgerCmd → Type
  | .hop c => c.Resp
  | .insertAuditEvent _ _ => Except Err Unit
  | .listAuditRows _ _ _ => Except Err (List AuditRow)
  | .countAuditEvents _ => Except Err ℕ
  | .searchMembers _ => Except Err (List DirectoryUser)

/-- A program over the commands. -/
abbrev LedgerProgram (α : Type) := Prog LedgerCmd LedgerCmd.Resp α

/-- What the environment decides about one command. -/
structure LedgerChoice where
  api : ApiChoice
  /-- The id that the database draws for a row. -/
  rowID : Uuid
  /-- What the integrations service answers. -/
  answer : Headers → (m : Message) → m.Response
  /-- What the directory answers. -/
  members : String → Except Err (List DirectoryUser)

namespace LedgerChoice

def elapsed (x : LedgerChoice) : Time := x.api.service.elapsed

/-- The choice for a command that waits first. -/
def delay (d : Time) (x : LedgerChoice) : LedgerChoice :=
  { x with api := { x.api with service := { x.api.service with elapsed := d + x.elapsed } } }

end LedgerChoice

/-- The primary key refuses an id that is taken. -/
def duplicateRow : Err :=
  .failed "duplicate key value violates unique constraint \"audit_events_pkey\""

/-- The machine over the database of the API. -/
def ledger (sg : Signer) : Machine Ledger LedgerChoice LedgerCmd LedgerCmd.Resp where
  perform x cancelled w
    | .hop (.api c) =>
        let r := (platform sg).perform x.api cancelled w.platform c
        ({ w with platform := r.1 }, r.2)
    | .hop (.call h m) => (w.tick x.elapsed, x.answer h m)
    | .insertAuditEvent tenantID a =>
        let w' := w.tick x.elapsed
        if x.rowID ∈ w.trail.map AuditRow.id then
          (w', x.api.service.reply cancelled (.error duplicateRow))
        else
          (if x.api.service.takesEffect cancelled then
              { w' with trail := w'.trail ++ [a.row tenantID x.rowID w'.now] }
            else w', x.api.service.reply cancelled (.ok ()))
    | .listAuditRows tenantID limit offset =>
        (w.tick x.elapsed,
          x.api.service.reply cancelled (.ok (listAuditRows tenantID limit offset w.trail)))
    | .countAuditEvents tenantID =>
        (w.tick x.elapsed,
          x.api.service.reply cancelled (.ok (countAuditEvents tenantID w.trail)))
    | .searchMembers orgID => (w.tick x.elapsed, x.members orgID)

/-- The ids that are drawn are not in the table yet. -/
def FreshRow (x : LedgerChoice) (_ : Bool) (w : Ledger) : LedgerCmd → Prop
  | .insertAuditEvent _ _ => x.rowID ∉ w.trail.map AuditRow.id
  | _ => True

/-! ### The requests -/

namespace Ledger

/-- A statement of `tenant.sql`. -/
def statement (s : TenantStatement) : LedgerProgram (Except Err s.Reply) :=
  Prog.issue (LedgerCmd.hop (.api (.tenant s)))

/-- `RecordAuditEvent`: the tenant is looked up, and its row is inserted. -/
def recordAuditEvent (a : AuditAction) : LedgerProgram (Except Err Unit) := do
  match ← statement (.getTenantByOrg a.orgID) with
  | .error e => return .error e
  | .ok t => Prog.issue (LedgerCmd.insertAuditEvent t.id a)

/-- What a command of a handler is: an entry of the trail is two statements. -/
def expand : (c : HopCmd) → LedgerProgram c.Resp
  | .api (.tenant (.recordAuditEvent orgID actorID actorEmail action target)) =>
      recordAuditEvent { orgID, actorID, actorEmail, action, target }
  | c => Prog.issue (LedgerCmd.hop c)

/-- A handler of the API over its database. -/
def served {α : Type} (p : ApiProgram α) : LedgerProgram α := (onApi p).expand expand

/-- The caller of a request, whose fields are checked next. -/
def authenticated {α : Type} (id : Option Identity) (valid : Bool)
    (f : Identity → LedgerProgram (Except RpcError α)) : LedgerProgram (Except RpcError α) :=
  match id with
  | none => return .error ⟨.unauthenticated, "no identity"⟩
  | some id => if valid then f id else return .error ⟨.invalidArgument, "validation error"⟩

/-- `ListAuditEvents`, of the database package. -/
def auditEvents (orgID : String) (limit offset : ℕ) : LedgerProgram (Except Err AuditPage) := do
  match ← statement (.getTenantByOrg orgID) with
  | .error e => return .error e
  | .ok t =>
      match ← (Prog.issue (LedgerCmd.listAuditRows t.id limit offset) : LedgerProgram _) with
      | .error e => return .error e
      | .ok rows =>
          match ← (Prog.issue (LedgerCmd.countAuditEvents t.id) : LedgerProgram _) with
          | .error e => return .error e
          | .ok n => return .ok { events := rows.map AuditRow.toAuditEvent, total := int32 n }

/-- `ListAuditEvents`. -/
def listAuditEvents (id : Option Identity) (limit offset : ℤ) :
    LedgerProgram (Except RpcError AuditPage) :=
  authenticated id (decide (0 ≤ limit) && decide (limit ≤ 200) && decide (0 ≤ offset)) fun id => do
    match ← auditEvents id.org (auditLimit limit) offset.toNat with
    | .error _ => return .error ⟨.internal, "audit lookup failed"⟩
    | .ok page => return .ok page

/-- `ListMembersResponse`. -/
structure MemberList where
  members : List Member
  configured : Bool
  deriving DecidableEq, Repr

/-- `ListMembers`; without a management token there is no directory. -/
def listMembers (configured : Bool) (id : Option Identity) :
    LedgerProgram (Except RpcError MemberList) :=
  authenticated id true fun id => do
    if configured then
      match ← (Prog.issue (LedgerCmd.searchMembers id.org) : LedgerProgram _) with
      | .error _ => return .error ⟨.unavailable, "directory unavailable"⟩
      | .ok us =>
          return .ok { members := us.map DirectoryUser.toMember, configured := true }
    else return .ok { members := [], configured := false }

end Ledger

/-- A request to the tenant service, or to the integration service, of the API. -/
inductive WorkspaceRequest where
  | getSession
  | completeOnboarding (region : String) (p : Profile)
  | updateTenant (p : Profile)
  | listMembers
  | listAuditEvents (limit offset : ℤ)
  | listFeatureFlags
  | setFeatureFlag (key : String) (enabled : Bool)
  | integration (q : UserRequest)
  deriving DecidableEq, Repr

/-- The answer to a request. -/
@[reducible] def WorkspaceRequest.Response : WorkspaceRequest → Type
  | .getSession => Except RpcError (Identity × Tenant)
  | .completeOnboarding _ _ | .updateTenant _ => Except RpcError Tenant
  | .listMembers => Except RpcError Ledger.MemberList
  | .listAuditEvents _ _ => Except RpcError AuditPage
  | .listFeatureFlags => Except RpcError (List ProtoFeatureFlag)
  | .setFeatureFlag _ _ => Except RpcError ProtoFeatureFlag
  | .integration q => q.message.Response

/-- The handler of a request. -/
def WorkspaceRequest.result (configured : Bool) (id : Option Identity) :
    (q : WorkspaceRequest) → LedgerProgram q.Response
  | .getSession => Ledger.served (Api.getSession id)
  | .completeOnboarding region p => Ledger.served (Api.completeOnboarding id region p)
  | .updateTenant p => Ledger.served (Api.updateTenant id p)
  | .listMembers => Ledger.listMembers configured id
  | .listAuditEvents limit offset => Ledger.listAuditEvents id limit offset
  | .listFeatureFlags => Ledger.served (Api.listFeatureFlags id)
  | .setFeatureFlag key enabled => Ledger.served (Api.setFeatureFlag id key enabled)
  | .integration q => (q.prog id).expand Ledger.expand

/-- A request with its caller. -/
abbrev WorkspaceCall := Option Identity × WorkspaceRequest

/-- A request, and what it returns. -/
def WorkspaceCall.prog (configured : Bool) (j : WorkspaceCall) :
    LedgerProgram ((q : WorkspaceRequest) × q.Response) :=
  (j.2.result configured j.1).bind fun r => .pure ⟨j.2, r⟩

/-! ### What a request may issue -/

/-- What a request may be about: the organization of its caller, and the id of its row, once that
was found. -/
structure Scope where
  org : Option String
  tenantID : Option Uuid

/-- A request issues statements about the organization of its caller only, and on the trail
about the row that it has found. -/
def tenancy : Protocol Scope LedgerCmd LedgerCmd.Resp where
  allowed g
    | .hop (.api (.tenant s)) => g.org = some s.orgID
    | .hop (.api _) => False
    | .hop (.call _ _) => True
    | .insertAuditEvent id _ | .listAuditRows id _ _ | .countAuditEvents id => g.tenantID = some id
    | .searchMembers orgID => g.org = some orgID
  next g
    | .hop (.api (.tenant (.getTenantByOrg _))), .ok t => { g with tenantID := some t.id }
    | _, _ => g

/-- The commands of a handler that are about an organization. -/
def HopCmd.Within (org : Option String) : HopCmd → Prop
  | .api (.tenant s) => org = some s.orgID
  | .api _ => False
  | .call _ _ => True

/-- The same for the part that is a program of the platform. -/
def ApiCmd.Within (org : Option String) : ApiCmd → Prop
  | .tenant s => org = some s.orgID
  | _ => False

theorem org_next (g : Scope) (c : LedgerCmd) (r : c.Resp) : (tenancy.next g c r).org = g.org := by
  simp only [tenancy]
  split <;> rfl

section Follows

variable {α : Type} {org : Option String} {g : Scope}

/-- A single command that is allowed. -/
theorem follows_issue {c : LedgerCmd} (h : tenancy.allowed g c) (horg : g.org = org) :
    (Prog.issue c).Follows tenancy (fun _ g => g.org = org) g :=
  ⟨h, fun r => (org_next g c r).trans horg⟩

/-- An entry of the trail goes under the id that was found. -/
theorem recordAuditEvent_follows {a : AuditAction} (horg : g.org = some a.orgID) :
    (Ledger.recordAuditEvent a).Follows tenancy (fun _ g' => g'.org = g.org) g := by
  refine ⟨horg, fun r => ?_⟩
  cases r with
  | error e => rfl
  | ok t => exact ⟨rfl, fun _ => rfl⟩

theorem expand_follows {c : HopCmd} (h : c.Within g.org) :
    (Ledger.expand c).Follows tenancy (fun _ g' => g'.org = g.org) g := by
  unfold Ledger.expand
  split
  · exact recordAuditEvent_follows h
  · refine follows_issue ?_ rfl
    cases c with
    | api c =>
      cases c with
      | tenant s => exact h
      | _ => exact h.elim
    | call h m => trivial

/-- **A handler whose commands are about an organization keeps to it.** -/
theorem hop_follows {p : HopProgram α} (h : p.Uses (HopCmd.Within org)) (hg : g.org = org) :
    (p.expand Ledger.expand).Follows tenancy (fun _ g => g.org = org) g := by
  induction p generalizing g with
  | pure a => exact hg
  | call c k ih =>
    refine (expand_follows (hg ▸ h.1)).bind fun r g' hg' => ?_
    exact ih r (h.2 r) (hg'.trans hg)

theorem onApi_within {p : ApiProgram α} (h : p.Uses (ApiCmd.Within org)) :
    (onApi p).Uses (HopCmd.Within org) := by
  refine Prog.Uses.embed (h.mono fun c hc => ?_)
  cases c with
  | tenant s => exact hc
  | _ => exact hc.elim

/-- The same of a program of the platform. -/
theorem served_follows {p : ApiProgram α} (h : p.Uses (ApiCmd.Within org)) (hg : g.org = org) :
    (Ledger.served p).Follows tenancy (fun _ g => g.org = org) g :=
  hop_follows (onApi_within h) hg

end Follows

/-! ### The handlers keep to it -/

section Uses

variable {α : Type} {id : Option Identity}

/-- A request without a caller issues nothing. -/
theorem authenticated_within {valid : Bool} {f : Identity → ApiProgram (Except RpcError α)}
    (h : ∀ i, id = some i → (f i).Uses (ApiCmd.Within (some i.org))) :
    (authenticated id valid f).Uses (ApiCmd.Within (id.map Identity.org)) := by
  unfold authenticated
  cases id with
  | none => trivial
  | some i =>
    dsimp only
    split
    · exact h i rfl
    · trivial

theorem getOrCreateTenant_within (orgID : String) :
    (getOrCreateTenant orgID).Uses (ApiCmd.Within (some orgID)) := by
  refine ⟨rfl, fun r => ?_⟩
  cases r with
  | error e => trivial
  | ok _ => exact ⟨rfl, fun _ => trivial⟩

theorem getFeatureFlags_within (orgID : String) :
    (getFeatureFlags orgID).Uses (ApiCmd.Within (some orgID)) := by
  refine ⟨rfl, fun r => ?_⟩
  cases r with
  | ok flags => trivial
  | error e => cases e <;> trivial

theorem recordAudit_within (i : Identity) (action target : String) :
    (recordAudit i action target).Uses (ApiCmd.Within (some i.org)) :=
  ⟨rfl, fun _ => trivial⟩

theorem getSession_within (id : Option Identity) :
    (getSession id).Uses (ApiCmd.Within (id.map Identity.org)) := by
  refine authenticated_within fun i _ => (getOrCreateTenant_within i.org).bind fun r => ?_
  cases r <;> trivial

theorem completeOnboarding_within (id : Option Identity) (region : String) (p : Profile) :
    (completeOnboarding id region p).Uses (ApiCmd.Within (id.map Identity.org)) := by
  refine authenticated_within fun i _ => ⟨rfl, fun r => ?_⟩
  cases r with
  | ok t => exact (recordAudit_within i _ _).bind fun _ => trivial
  | error e => cases e <;> trivial

theorem updateTenant_within (id : Option Identity) (p : Profile) :
    (updateTenant id p).Uses (ApiCmd.Within (id.map Identity.org)) := by
  refine authenticated_within fun i _ => ⟨rfl, fun r => ?_⟩
  cases r with
  | ok t => exact (recordAudit_within i _ _).bind fun _ => trivial
  | error e => cases e <;> trivial

theorem listFeatureFlags_within (id : Option Identity) :
    (listFeatureFlags id).Uses (ApiCmd.Within (id.map Identity.org)) := by
  refine authenticated_within fun i _ => (getFeatureFlags_within i.org).bind fun r => ?_
  cases r <;> trivial

theorem setFeatureFlag_within (id : Option Identity) (key : String) (enabled : Bool) :
    (setFeatureFlag id key enabled).Uses (ApiCmd.Within (id.map Identity.org)) := by
  refine authenticated_within fun i _ => ?_
  split
  · trivial
  · next flag _ =>
    have hstore : (storeFlag i.org flag enabled).Uses (ApiCmd.Within (some i.org)) := by
      unfold storeFlag
      split
      · exact ⟨rfl, fun _ => trivial⟩
      · exact ⟨rfl, fun _ => trivial⟩
    refine hstore.bind fun r => ?_
    cases r with
    | error e => trivial
    | ok _ => exact (recordAudit_within i _ _).bind fun _ => trivial

/-- What is passed on, or leaves an entry in the trail first. -/
theorem trailed_within (action target : String) (i : Identity) (r : Except RpcError α) :
    (Proxy.trailed action target i r).Uses (HopCmd.Within (some i.org)) := by
  cases r with
  | error e => trivial
  | ok a => exact (onApi_within (recordAudit_within i action target)).bind fun _ => trivial

theorem tenantRequest_within {m : Message} {k : Identity → m.Response → HopProgram m.Response}
    (h : ∀ i r, id = some i → (k i r).Uses (HopCmd.Within (some i.org))) :
    (Proxy.tenantRequest id m k).Uses (HopCmd.Within (id.map Identity.org)) := by
  unfold Proxy.tenantRequest
  cases id with
  | none => trivial
  | some i =>
    dsimp only
    split
    · trivial
    · exact ⟨trivial, fun r => h i r rfl⟩

theorem regionRequest_within {m : Message} (i : Identity) {k : m.Response → HopProgram m.Response}
    (h : ∀ r, (k r).Uses (HopCmd.Within (some i.org))) :
    (Proxy.regionRequest i m k).Uses (HopCmd.Within (some i.org)) := by
  refine (onApi_within (getOrCreateTenant_within i.org)).bind fun r => ?_
  cases r with
  | error e => trivial
  | ok t =>
    dsimp only
    split
    · trivial
    · exact ⟨trivial, h⟩

theorem connectFlagged_within (i : Identity) (connectorID token name : String) :
    (Proxy.connectFlagged i connectorID token name).Uses (HopCmd.Within (some i.org)) :=
  regionRequest_within i (trailed_within _ _ i)

theorem connectWithToken_within (id : Option Identity) (connectorID token name : String) :
    (Proxy.connectWithToken id connectorID token name).Uses
      (HopCmd.Within (id.map Identity.org)) := by
  unfold Proxy.connectWithToken
  cases id with
  | none => trivial
  | some i =>
    dsimp only
    split
    · refine (onApi_within (getFeatureFlags_within i.org)).bind fun r => ?_
      cases r with
      | error e => trivial
      | ok flags =>
        dsimp only
        split
        · exact connectFlagged_within i connectorID token name
        · trivial
    · exact connectFlagged_within i connectorID token name

/-- **The requests to the integration service keep to the organization of the caller.** -/
theorem userRequest_within (id : Option Identity) (q : UserRequest) :
    (q.prog id).Uses (HopCmd.Within (id.map Identity.org)) := by
  cases q with
  | listConnectors => exact ⟨trivial, fun _ => trivial⟩
  | getAuthorizeUrl connectorID =>
    show (Proxy.getAuthorizeUrl id connectorID).Uses _
    unfold Proxy.getAuthorizeUrl
    cases id with
    | none => trivial
    | some i => exact regionRequest_within i (trailed_within _ _ i)
  | connectWithToken connectorID token name =>
    exact connectWithToken_within id connectorID token name
  | rpc q =>
    cases q with
    | triggerSync connectionID =>
      exact tenantRequest_within fun i r _ => trailed_within _ _ i r
    | stopSync connectionID => exact tenantRequest_within fun i r _ => trailed_within _ _ i r
    | disconnect connectionID => exact tenantRequest_within fun i r _ => trailed_within _ _ i r
    | _ => exact tenantRequest_within fun _ _ _ => trivial

end Uses

section Follows

variable {id : Option Identity} {g : Scope}

theorem ledger_authenticated_follows {α : Type} {valid : Bool}
    {f : Identity → LedgerProgram (Except RpcError α)} (hg : g.org = id.map Identity.org)
    (h : ∀ i, id = some i → (f i).Follows tenancy (fun _ g => g.org = id.map Identity.org) g) :
    (Ledger.authenticated id valid f).Follows tenancy
      (fun _ g => g.org = id.map Identity.org) g := by
  unfold Ledger.authenticated
  cases id with
  | none => exact hg
  | some i =>
    dsimp only
    split
    · exact h i rfl
    · exact hg

theorem auditEvents_follows {orgID : String} (limit offset : ℕ) (hg : g.org = some orgID) :
    (Ledger.auditEvents orgID limit offset).Follows tenancy (fun _ g => g.org = some orgID) g := by
  refine ⟨hg, fun r => ?_⟩
  cases r with
  | error e => exact hg
  | ok t =>
    refine ⟨rfl, fun rows => ?_⟩
    cases rows with
    | error e => exact hg
    | ok rows =>
      refine ⟨rfl, fun n => ?_⟩
      cases n <;> exact hg

theorem listAuditEvents_follows (limit offset : ℤ) (hg : g.org = id.map Identity.org) :
    (Ledger.listAuditEvents id limit offset).Follows tenancy
      (fun _ g => g.org = id.map Identity.org) g := by
  refine ledger_authenticated_follows hg fun i hi => ?_
  subst hi
  refine (auditEvents_follows _ _ hg).bind fun r g' hg' => ?_
  cases r <;> exact hg'

theorem listMembers_follows (configured : Bool) (hg : g.org = id.map Identity.org) :
    (Ledger.listMembers configured id).Follows tenancy
      (fun _ g => g.org = id.map Identity.org) g := by
  refine ledger_authenticated_follows hg fun i hi => ?_
  subst hi
  cases configured with
  | false => exact hg
  | true =>
    refine ⟨hg, fun r => ?_⟩
    cases r <;> exact hg

/-- **A request is about the organization of its caller.** -/
theorem prog_follows (configured : Bool) (j : WorkspaceCall) :
    (j.prog configured).Follows tenancy (fun _ g => g.org = j.1.map Identity.org)
      ⟨j.1.map Identity.org, none⟩ := by
  obtain ⟨id, q⟩ := j
  have hresult : (q.result configured id).Follows tenancy (fun _ g => g.org = id.map Identity.org)
      ⟨id.map Identity.org, none⟩ := by
    cases q with
    | getSession => exact served_follows (getSession_within id) rfl
    | completeOnboarding region p =>
      exact served_follows (completeOnboarding_within id region p) rfl
    | updateTenant p => exact served_follows (updateTenant_within id p) rfl
    | listMembers => exact listMembers_follows configured rfl
    | listAuditEvents limit offset => exact listAuditEvents_follows limit offset rfl
    | listFeatureFlags => exact served_follows (listFeatureFlags_within id) rfl
    | setFeatureFlag key enabled => exact served_follows (setFeatureFlag_within id key enabled) rfl
    | integration q => exact hop_follows (userRequest_within id q) rfl
  exact hresult.bind fun r g hg => hg

end Follows

/-! ### What an organization sees -/

/-- The id that a request has found is the one of the row of its organization. -/
def Scope.Known (w : Ledger) (g : Scope) : Prop :=
  ∀ id, g.tenantID = some id →
    ∃ org, g.org = some org ∧ stored (fun t => some t.id) w.tenants org = some id

/-- The members of an organization see the same of two ledgers, once so much time has passed in
the second one. -/
structure Indistinct (orgID : String) (tenantID : Uuid) (w w' : Ledger) (gs : List Scope)
    (d : Time) : Prop where
  clock : w.now = w'.now + d
  row : ∃ t, findTenant w.tenants orgID = some t ∧ findTenant w'.tenants orgID = some t ∧
    t.id = tenantID
  trail : auditRows tenantID w.trail = auditRows tenantID w'.trail
  /-- The second trail has no other ids, so what is drawn for the first one is free in it. -/
  fewer : w'.trail ⊆ w.trail
  known : ∀ g ∈ gs, g.Known w

section Commands

variable {sg : Signer} {x : LedgerChoice} {b : Bool} {w w' : Ledger} {orgID : String}
  {tenantID : Uuid} {gs : List Scope} {d : Time} {g : Scope} {c : LedgerCmd}

theorem stored_of_findTenant {ts : Tenants} {t : Tenant} (h : findTenant ts orgID = some t) :
    stored (fun t => some t.id) ts orgID = some t.id := by
  unfold stored
  rw [h]
  rfl

/-- A command keeps the id of an organization. -/
theorem stored_ledger (sg : Signer) (x : LedgerChoice) (b : Bool) (c : LedgerCmd)
    (h : stored (fun t => some t.id) w.tenants orgID = some tenantID) :
    stored (fun t => some t.id) ((ledger sg).perform x b w c).1.tenants orgID = some tenantID := by
  cases c with
  | hop c =>
    cases c with
    | api c => exact stored_perform writeOnce_id c h
    | call hd m => exact h
  | insertAuditEvent id a =>
    simp only [ledger]
    split
    · exact h
    · split <;> exact h
  | _ => exact h

/-- **What a request has found is found**, whatever is performed. -/
theorem known_perform (sg : Signer) (x : LedgerChoice) (b : Bool) (c : LedgerCmd)
    (h : g.Known w) : g.Known ((ledger sg).perform x b w c).1 := by
  intro id hid
  obtain ⟨org, horg, hstored⟩ := h id hid
  exact ⟨org, horg, stored_ledger sg x b c hstored⟩

/-- The row that a lookup answers is the one of the organization. -/
theorem findTenant_of_answer {org : String} {t : Tenant}
    (h : ((ledger sg).perform x b w (.hop (.api (.tenant (.getTenantByOrg org))))).2 = .ok t) :
    findTenant w.tenants org = some t := by
  have hone : one (findTenant w.tenants org) = .ok t := (of_reply_eq_ok h).2
  cases hfind : findTenant w.tenants org with
  | none =>
    rw [hfind] at hone
    cases hone
  | some t' =>
    rw [hfind] at hone
    cases hone
    rfl

/-- What a request finds by its own command. -/
theorem known_next (h : g.Known w) (hallowed : tenancy.allowed g c) :
    (tenancy.next g c ((ledger sg).perform x b w c).2).Known ((ledger sg).perform x b w c).1 := by
  have hkept := known_perform sg x b c h
  generalize hr : ((ledger sg).perform x b w c).2 = r
  simp only [tenancy]
  split
  · next org t =>
    rintro id ⟨⟩
    exact ⟨org, hallowed, stored_ledger sg x b _ (stored_of_findTenant (findTenant_of_answer hr))⟩
  · exact hkept

theorem known_set (h : ∀ g ∈ gs, g.Known w) {i : ℕ} (hg : gs[i]? = some g)
    (hallowed : tenancy.allowed g c) :
    ∀ g' ∈ gs.set i (tenancy.next g c ((ledger sg).perform x b w c).2),
      g'.Known ((ledger sg).perform x b w c).1 := by
  intro g' hg'
  rcases List.mem_or_eq_of_mem_set hg' with hmem | rfl
  · exact known_perform sg x b c (h g' hmem)
  · exact known_next (h g (List.mem_of_getElem? hg)) hallowed

/-- Time passes with every command. -/
theorem now_perform (hallowed : tenancy.allowed g c) :
    ((ledger sg).perform x b w c).1.now = w.now + x.elapsed := by
  cases c with
  | hop c =>
    cases c with
    | api c =>
      cases c with
      | tenant s =>
        show (if x.api.service.takesEffect b = true then _ else _ : Platform).service.now = _
        split <;> rfl
      | _ => exact hallowed.elim
    | call hd m => rfl
  | insertAuditEvent id a =>
    simp only [ledger]
    split
    · rfl
    · split <;> rfl
  | _ => rfl

/-- What a command makes of the row of an organization. -/
def LedgerCmd.onRow (orgID : String) (now : Time) (takes : Bool) (t : Tenant) : LedgerCmd → Tenant
  | .hop (.api (.tenant s)) => if takes ∧ s.orgID = orgID then (s.onRow now t).2 else t
  | _ => t

/-- The rows that a command adds to the trail. -/
def LedgerCmd.recorded (rowID : Uuid) (now : Time) (takes : Bool) : LedgerCmd → List AuditRow
  | .insertAuditEvent id a => if takes then [a.row id rowID now] else []
  | _ => []

theorem row_perform {t : Tenant} (h : findTenant w.tenants orgID = some t) :
    findTenant ((ledger sg).perform x b w c).1.tenants orgID =
      some (c.onRow orgID (w.now + x.elapsed) (x.api.service.takesEffect b) t) := by
  cases c with
  | hop c =>
    cases c with
    | api c =>
      cases c with
      | tenant s =>
        have htenants : ((ledger sg).perform x b w (.hop (.api (.tenant s)))).1.tenants =
            if x.api.service.takesEffect b then (s.exec (w.now + x.elapsed) w.tenants).2
            else w.tenants := @tenants_perform sg x.api b w.platform s
        rw [htenants]
        dsimp only [LedgerCmd.onRow]
        split
        · next htakes =>
          rw [findTenant_exec s h]
          simp only [htakes, true_and]
        · next htakes =>
          rw [h, if_neg fun hand => htakes hand.1]
      | _ => exact h
    | call hd m => exact h
  | insertAuditEvent id a =>
    simp only [ledger]
    split
    · exact h
    · split <;> exact h
  | _ => exact h

theorem trail_perform (hfresh : FreshRow x b w c) :
    ((ledger sg).perform x b w c).1.trail =
      w.trail ++ c.recorded x.rowID (w.now + x.elapsed) (x.api.service.takesEffect b) := by
  cases c with
  | insertAuditEvent id a =>
    simp only [ledger, LedgerCmd.recorded]
    rw [if_neg hfresh]
    split
    · rfl
    · exact (List.append_nil _).symm
  | hop c => cases c <;> exact (List.append_nil _).symm
  | _ => exact (List.append_nil _).symm

/-- The ids of two organizations differ. -/
theorem id_ne_of_org_ne {org : String} {id : Uuid}
    (h : stored (fun t => some t.id) w.tenants orgID = some tenantID)
    (h' : stored (fun t => some t.id) w.tenants org = some id) (hne : org ≠ orgID) :
    id ≠ tenantID := by
  rintro rfl
  unfold stored at h h'
  obtain ⟨t, ht, hid⟩ := Option.bind_eq_some_iff.mp h
  obtain ⟨t', ht', hid'⟩ := Option.bind_eq_some_iff.mp h'
  have hsame : t.id = t'.id := by rw [Option.some.inj hid, Option.some.inj hid']
  have hrow : t = t' :=
    Table.eq_of_id (List.mem_of_find?_eq_some ht) (List.mem_of_find?_eq_some ht') hsame
  have horg : t.orgID = orgID := orgID_of_findTenant ht
  have horg' : t'.orgID = org := orgID_of_findTenant ht'
  exact hne (by rw [← horg', ← horg, hrow])

/-- **A command of another organization shows nowhere.** -/
theorem Indistinct.hidden (h : Indistinct orgID tenantID w w' gs d) {i : ℕ}
    (hg : gs[i]? = some g) (hother : g.org ≠ some orgID) (hallowed : tenancy.allowed g c)
    (hfresh : FreshRow x b w c) :
    Indistinct orgID tenantID ((ledger sg).perform x b w c).1 w'
      (gs.set i (tenancy.next g c ((ledger sg).perform x b w c).2)) (d + x.elapsed) := by
  obtain ⟨t, hrow, hrow', hid⟩ := h.row
  refine ⟨?_, ⟨t, ?_, hrow', hid⟩, ?_, ?_, known_set h.known hg hallowed⟩
  · rw [now_perform hallowed, h.clock, add_assoc]
  · rw [row_perform hrow]
    unfold LedgerCmd.onRow
    split
    · next s =>
      have hallowed : g.org = some s.orgID := hallowed
      rw [if_neg fun hand => hother (hallowed.trans (congrArg some hand.2))]
    · rfl
  · rw [trail_perform hfresh, auditRows_append, ← h.trail]
    refine List.append_right_eq_self.mpr ?_
    unfold LedgerCmd.recorded
    split
    · next id a =>
      obtain ⟨org, horg, hstored⟩ := h.known g (List.mem_of_getElem? hg) id hallowed
      have hne : id ≠ tenantID :=
        id_ne_of_org_ne (hid ▸ stored_of_findTenant hrow) hstored
          fun heq => hother (horg.trans (congrArg some heq))
      split
      · exact List.filter_eq_nil_iff.mpr fun r hr => by
          simpa [List.mem_singleton.mp hr, AuditAction.row] using hne
      · rfl
    · rfl
  · rw [trail_perform hfresh]
    exact fun r hr => List.mem_append_left _ (h.fewer hr)

/-- **A command of the organization is answered alike in both.** -/
theorem Indistinct.answer (h : Indistinct orgID tenantID w w' gs d) {i : ℕ}
    (hg : gs[i]? = some g) (hown : g.org = some orgID) (hallowed : tenancy.allowed g c)
    (hfresh : FreshRow x b w c) (hfresh' : FreshRow (x.delay d) b w' c) :
    ((ledger sg).perform (x.delay d) b w' c).2 = ((ledger sg).perform x b w c).2 := by
  obtain ⟨t, hrow, hrow', hid⟩ := h.row
  have hnow : w'.now + (x.delay d).elapsed = w.now + x.elapsed := by
    show w'.now + (d + x.elapsed) = w.now + x.elapsed
    rw [h.clock, add_assoc]
  have hfound : ∀ id, g.tenantID = some id → id = tenantID := by
    intro id hknown
    obtain ⟨org, horg, hstored⟩ := h.known g (List.mem_of_getElem? hg) id hknown
    cases horg.symm.trans hown
    have hsame := (stored_of_findTenant hrow).symm.trans hstored
    rw [← hid, Option.some.inj hsame]
  cases c with
  | hop c =>
    cases c with
    | api c =>
      cases c with
      | tenant s =>
        have horg : s.orgID = orgID := Option.some.inj (hallowed.symm.trans hown)
        show x.api.service.reply b (s.exec (w'.now + (x.delay d).elapsed) w'.tenants).1 =
          x.api.service.reply b (s.exec (w.now + x.elapsed) w.tenants).1
        rw [hnow, answer_exec s (horg ▸ hrow'), answer_exec s (horg ▸ hrow)]
      | _ => exact hallowed.elim
    | call hd m => rfl
  | insertAuditEvent id a =>
    simp only [ledger]
    rw [if_neg hfresh, if_neg hfresh']
    rfl
  | listAuditRows id limit offset =>
    obtain rfl := hfound id hallowed
    show x.api.service.reply b (.ok (listAuditRows id limit offset w'.trail)) =
      x.api.service.reply b (.ok (listAuditRows id limit offset w.trail))
    unfold listAuditRows
    rw [h.trail]
  | countAuditEvents id =>
    obtain rfl := hfound id hallowed
    show x.api.service.reply b (.ok (countAuditEvents id w'.trail)) =
      x.api.service.reply b (.ok (countAuditEvents id w.trail))
    have hcount : ∀ trail, countAuditEvents id trail = (auditRows id trail).length :=
      fun trail => List.countP_eq_length_filter
    rw [hcount, hcount, h.trail]
  | searchMembers org => rfl

/-- What a command of the organization leaves is the same in both. -/
theorem Indistinct.seen (h : Indistinct orgID tenantID w w' gs d) {i : ℕ}
    (hg : gs[i]? = some g) (hallowed : tenancy.allowed g c)
    (hfresh : FreshRow x b w c) (hfresh' : FreshRow (x.delay d) b w' c) :
    Indistinct orgID tenantID ((ledger sg).perform x b w c).1
      ((ledger sg).perform (x.delay d) b w' c).1
      (gs.set i (tenancy.next g c ((ledger sg).perform x b w c).2)) 0 := by
  obtain ⟨t, hrow, hrow', hid⟩ := h.row
  have hnow : w'.now + (x.delay d).elapsed = w.now + x.elapsed := by
    show w'.now + (d + x.elapsed) = w.now + x.elapsed
    rw [h.clock, add_assoc]
  have htakes : (x.delay d).api.service.takesEffect b = x.api.service.takesEffect b := rfl
  have hrowID : (x.delay d).rowID = x.rowID := rfl
  refine ⟨?_, ⟨_, row_perform hrow, ?_, ?_⟩, ?_, ?_, known_set h.known hg hallowed⟩
  · rw [now_perform hallowed, now_perform hallowed, hnow]
    rfl
  · rw [row_perform hrow', hnow, htakes]
  · unfold LedgerCmd.onRow
    split
    · split
      · exact (onRow_id _).trans hid
      · exact hid
    · exact hid
  · rw [trail_perform hfresh, trail_perform hfresh', auditRows_append, auditRows_append, h.trail,
      hnow, htakes, hrowID]
  · rw [trail_perform hfresh, trail_perform hfresh', hnow, htakes, hrowID]
    exact List.append_subset.mpr ⟨fun r hr => List.mem_append_left _ (h.fewer hr),
      fun r hr => List.mem_append_right _ hr⟩

end Commands

/-! ### Without the others -/

/-- A request of a member of an organization. -/
def Scope.own (orgID : String) (g : Scope) : Bool := decide (g.org = some orgID)

/-- What an organization sees depends on nothing else. -/
theorem unwinds (sg : Signer) (orgID : String) (tenantID : Uuid) :
    (ledger sg).Unwinds FreshRow tenancy (Scope.own orgID) LedgerChoice.delay
      (fun d x => d + x.elapsed) 0 (Indistinct orgID tenantID) where
  watched_next g c r := by
    unfold Scope.own
    rw [org_next]
  hidden x b h hg hother hallowed hfresh :=
    h.hidden hg (of_decide_eq_false hother) hallowed hfresh
  seen {w w' gs d i g c} x b h hg hown hallowed hfresh := by
    have hfresh' : FreshRow (x.delay d) b w' c := by
      cases c with
      | insertAuditEvent id a =>
        exact fun hmem => hfresh (List.map_subset _ h.fewer hmem)
      | _ => trivial
    exact ⟨h.answer hg (of_decide_eq_true hown) hallowed hfresh hfresh',
      h.seen hg hallowed hfresh hfresh'⟩

/-- The events of a run without the requests of other organizations; what is left waits for as
long as they took. -/
def without (orgID : String) (es : List (PoolEvent WorkspaceCall LedgerChoice)) :
    Purge Time WorkspaceCall LedgerChoice :=
  purge (fun j => decide (j.1.map Identity.org = some orgID)) LedgerChoice.delay
    (fun d x => d + x.elapsed) 0 es

/-- The requests that are under way, and those that have returned. -/
abbrev LedgerPool := Pool Ledger LedgerCmd LedgerCmd.Resp ((q : WorkspaceRequest) × q.Response)

/-- What is claimed of a run: from a ledger that looks the same to the organization, its requests
run without the others, are where they were and have returned what they returned, and the row and
the trail of the organization are as they were. -/
def Isolated (sg : Signer) (configured : Bool) (orgID : String) (tenantID : Uuid) (w' : Ledger)
    (es : List (PoolEvent WorkspaceCall LedgerChoice)) (s : LedgerPool) : Prop :=
  ∃ (s' : LedgerPool) (tr' : List (Performed Ledger LedgerChoice LedgerCmd)),
    ((ledger sg).pool (WorkspaceCall.prog configured)).Run ⟨w', []⟩ (without orgID es).events
      s' tr' ∧
    s'.threads = kept (without orgID es).watched s.threads ∧
    findTenant s'.world.tenants orgID = findTenant s.world.tenants orgID ∧
    auditRows tenantID s'.world.trail = auditRows tenantID s.world.trail

/-- **The organizations do not see each other.**  In every interleaving of the requests of any
organizations, from any state in which an organization has its row, its requests return what they
return when nobody else uses the API, whatever rows the others have, and leave its row and its
trail as they leave them then. -/
theorem organizations_isolated {sg : Signer} {configured : Bool} {orgID : String} {tenantID : Uuid}
    {w w' : Ledger} {es : List (PoolEvent WorkspaceCall LedgerChoice)} {s : LedgerPool}
    {tr : List (Performed Ledger LedgerChoice LedgerCmd)}
    (hsame : Indistinct orgID tenantID w w' [] 0)
    (h : ((ledger sg).pool (WorkspaceCall.prog configured)).RunWhere
      (fun s _ e => PoolMeets FreshRow s e) ⟨w, []⟩ es s tr) :
    Isolated sg configured orgID tenantID w' es s := by
  have hstart : ∀ w w' gs d (j : WorkspaceCall), Indistinct orgID tenantID w w' gs d →
      Indistinct orgID tenantID w w' (gs ++ [⟨j.1.map Identity.org, none⟩]) d := by
    intro w w' gs d j h
    refine { h with known := fun g hg => ?_ }
    rcases List.mem_append.mp hg with hg | hg
    · exact h.known g hg
    · cases List.mem_singleton.mp hg
      exact fun id hid => by cases hid
  obtain ⟨s', tr', gs, hrun, hpurged⟩ := (unwinds sg orgID tenantID).purged
    (prog_follows configured) (fun s tr e he => he) hstart h hsame
  obtain ⟨t, hrow, hrow', -⟩ := hpurged.worlds.row
  exact ⟨s', tr', hrun, hpurged.threads, hrow'.trans hrow.symm, hpurged.worlds.trail.symm⟩

/-! ### Two organizations -/

/-- Acme and Globex have their rows, and one entry of the trail each. -/
def sharedLedger : Ledger where
  platform := { newPlatform with
    tenants := Tenants.createTenantIfAbsent 2 "globex" (Tenants.createTenantIfAbsent 1 "acme"
      .empty) }
  trail := [⟨7, 0, "ann", none, "tenant.updated", some "Acme", 3⟩,
    ⟨8, 1, "bob", none, "tenant.updated", some "Globex", 4⟩]

/-- Acme is alone. -/
def lonelyLedger : Ledger where
  platform := { newPlatform with tenants := Tenants.createTenantIfAbsent 1 "acme" .empty }
  trail := [⟨7, 0, "ann", none, "tenant.updated", some "Acme", 3⟩]

/-- A request has its next turn, nothing fails, and a row gets an id. -/
def ledgerTurn (i : ℕ) (rowID : Uuid) : PoolEvent WorkspaceCall LedgerChoice :=
  .turn i ⟨false, { api := (smooth "").choice, rowID
                    answer := fun _ m => m.fail ⟨.unavailable, "down"⟩
                    members := fun _ => .ok [] }⟩

/-- While Ann of acme reads the trail, Bob of globex renames it. -/
def sharedRun : List (PoolEvent WorkspaceCall LedgerChoice) :=
  [.start (some annOfAcme, .listAuditEvents 50 0),
    .start (some ⟨"bob", "Bob", "bob@globex", "globex"⟩,
      .updateTenant ⟨"Globex SE", "1-10", [], ""⟩),
    ledgerTurn 0 0, ledgerTurn 1 0, ledgerTurn 1 0, ledgerTurn 1 9, ledgerTurn 0 0, ledgerTurn 0 0]

/-- The page that a request has returned. -/
def LedgerPool.page (s : LedgerPool) (i : ℕ) : Option AuditPage :=
  match (s.threads[i]?).map Thread.prog with
  | some (.pure ⟨.listAuditEvents _ _, .ok page⟩) => some page
  | _ => none

/-- The turns draw free ids. -/
def freshCheck (s : LedgerPool) : PoolEvent WorkspaceCall LedgerChoice → Bool :=
  poolCheck (fun x _ w c => match c with
    | .insertAuditEvent _ _ => decide (x.rowID ∉ w.trail.map AuditRow.id)
    | _ => true) s

theorem meets_of_freshCheck {s : LedgerPool} {e : PoolEvent WorkspaceCall LedgerChoice}
    (h : freshCheck s e = true) : PoolMeets FreshRow s e := by
  cases e with
  | start j => trivial
  | turn i t =>
    intro c k b hth
    have hmeets := poolMeets_of_check h c k b hth
    cases c with
    | insertAuditEvent id a => simpa [FreshRow] using hmeets
    | _ => trivial

/-- Ann is shown her own entry only, and would be if globex were not there. -/
theorem shared_isolated : ∃ (s : LedgerPool) (tr : List (Performed Ledger LedgerChoice LedgerCmd)),
    ((ledger sampleSigner).pool (WorkspaceCall.prog false)).RunWhere
      (fun s _ e => PoolMeets FreshRow s e) ⟨sharedLedger, []⟩ sharedRun s tr ∧
    (s.page 0 = some ⟨[⟨7, 3, "ann", "", "tenant.updated", "Acme"⟩], 1⟩ ∧
      s.world.trail.length = 3) ∧
    Isolated sampleSigner false "acme" 0 lonelyLedger sharedRun s := by
  obtain ⟨s, tr, hrun, hend⟩ := Lts.exists_runWhere_of_any
    ((ledger sampleSigner).pool (WorkspaceCall.prog false)) (fun s _ e => freshCheck s e)
    ⟨sharedLedger, []⟩ sharedRun
    (fun s _ => decide (LedgerPool.page s 0 =
        some ⟨[⟨7, 3, "ann", "", "tenant.updated", "Acme"⟩], 1⟩) &&
      decide (s.world.trail.length = 3)) (by decide +kernel)
  have hrun := hrun.mono fun s tr e h => meets_of_freshCheck h
  have hsame : Indistinct "acme" 0 sharedLedger lonelyLedger [] 0 :=
    ⟨rfl, ⟨Tenant.new 1 "acme" 0, by decide +kernel, by decide +kernel, rfl⟩, by decide +kernel,
      by decide +kernel, by simp⟩
  simp only [Bool.and_eq_true, decide_eq_true_eq] at hend
  exact ⟨s, tr, hrun, hend, organizations_isolated hsame hrun⟩

end Api
end Hivebook
