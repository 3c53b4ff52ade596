import Hivebook.Api.Tenant
import Hivebook.Server.Oauth

/-!
# The API and the integrations service together

The API answers a request from its own database and by calls to the integrations service.  The
hop between them is internal: the API sends the tenant and its region as headers, and the
service trusts them.  A program of the platform issues the commands of the service, statements
of the API, the signing of a state, and the reading of the query of a redirect.

## Main definitions

* `headerValue` — what a header value is when it arrives.
* `Platform`, `ApiCmd`, `ApiChoice` — the world, its commands, what the environment decides.
* `platform` — the machine that performs the commands; `after` — what a command leaves.

## Main results

* `stored_perform` — **a command keeps a column that is written once.**
-/

namespace Hivebook
namespace Api

/-! ### Headers -/

/-- A byte that a header value may not have: a control character other than the tab. -/
def forbidden (c : Char) : Bool :=
  (decide (c.toNat < 32) && decide (c ≠ '\t')) || decide (c.toNat = 127)

/-- A blank, which a header value does not keep at its ends. -/
def blank (c : Char) : Bool := decide (c = ' ') || decide (c = '\t')

/-- The value that arrives for a header that is set: the client refuses to send some, and the
blanks at the ends are lost. -/
def headerValue (v : String) : Option String :=
  if v.toList.any forbidden then none
  else some (String.ofList ((v.toList.dropWhile blank).reverse.dropWhile blank).reverse)

/-- A value that arrives as it was set. -/
def Portable (v : String) : Prop := headerValue v = some v

instance (v : String) : Decidable (Portable v) := inferInstanceAs (Decidable (_ = _))

/-- `withTenant`: an empty value counts as none. -/
def received (v : String) : Option String := if v = "" then none else some v

/-- What the integrations service reads from the headers of a call. -/
structure Headers where
  tenant : Option String
  region : Option String
  deriving DecidableEq, Repr

/-- The headers of a call: the tenant's always, and the region's if there is one. -/
def sendHeaders (orgID : String) (region : Option String) : Option Headers :=
  match headerValue orgID with
  | none => none
  | some tenant =>
      match region with
      | none => some { tenant := received tenant, region := none }
      | some r => (headerValue r).map fun r => { tenant := received tenant, region := received r }

theorem received_eq_some {v t : String} : received v = some t ↔ v = t ∧ v ≠ "" := by
  unfold received
  by_cases h : v = ""
  · simp [h]
  · simp [h]

/-- **The headers of a portable organization** carry it, and the region if there is one. -/
theorem of_sendHeaders {orgID : String} {region : Option String} {h : Headers}
    (hsend : sendHeaders orgID region = some h) (horg : Portable orgID) :
    h.tenant = received orgID ∧ (region = none → h.region = none) ∧
      ∀ r, region = some r → Portable r → h.region = received r := by
  have hvalue : headerValue orgID = some orgID := horg
  unfold sendHeaders at hsend
  rw [hvalue] at hsend
  cases region with
  | none =>
    cases hsend
    exact ⟨rfl, fun _ => rfl, by simp⟩
  | some r =>
    obtain ⟨v, hv, rfl⟩ := Option.map_eq_some_iff.mp hsend
    refine ⟨rfl, by simp, fun r' hr' hportable => ?_⟩
    cases hr'
    have hvalue : headerValue r = some r := hportable
    rw [hvalue] at hv
    cases hv
    rfl

/-! ### The machine -/

/-- The databases of the API and of the integrations service, object storage and the clock. -/
structure Platform where
  service : World
  tenants : Tenants

/-- The query of a redirect from a provider. -/
structure CallbackQuery where
  error : String
  code : String
  state : String
  installationID : String
  deriving DecidableEq, Repr

/-- The commands of the platform. -/
inductive ApiCmd where
  | tenant (s : TenantStatement)
  /-- `Signer.Sign`, which draws a nonce. -/
  | sign (tenant region connector : String)
  /-- `r.URL.Query()`, of a redirect. -/
  | query
  | service (c : Cmd)
  deriving DecidableEq, Repr

/-- The responses to the commands. -/
@[reducible] def ApiCmd.Resp : ApiCmd → Type
  | .tenant s => Except Err s.Reply
  | .sign _ _ _ => Except Err String
  | .query => CallbackQuery
  | .service c => c.Resp

/-- A program of the platform. -/
abbrev ApiProgram (α : Type) := Prog ApiCmd ApiCmd.Resp α

/-- What the environment decides about one command. -/
structure ApiChoice where
  service : Choice
  /-- The nonce that is drawn. -/
  nonce : String
  /-- Where the browser comes back to. -/
  query : CallbackQuery

/-- Time passes. -/
def Platform.tick (w : Platform) (d : Time) : Platform := { w with service := w.service.tick d }

/-- The state that is signed at an instant. -/
def signedState (now : Time) (nonce tenant region connector : String) : SignedState :=
  { tenant, region, connector, nonce, exp := unix (now + stateTTL) }

/-- The machine of the platform. -/
def platform (sg : Signer) : Machine Platform ApiChoice ApiCmd ApiCmd.Resp where
  perform x cancelled w
    | .tenant s =>
        let w' := w.tick x.service.elapsed
        let r := s.exec w'.service.now w'.tenants
        (if x.service.takesEffect cancelled then { w' with tenants := r.2 } else w',
          x.service.reply cancelled r.1)
    | .sign tenant region connector =>
        let w' := w.tick x.service.elapsed
        (w', x.service.reply false
          (.ok (sg.sign (signedState w'.service.now x.nonce tenant region connector))))
    | .query => (w, x.query)
    | .service c =>
        let r := Hivebook.service.perform x.service cancelled w.service c
        ({ w with service := r.1 }, r.2)

/-- What a command leaves behind. -/
def after (sg : Signer) (l : Performed Platform ApiChoice ApiCmd) : Platform :=
  ((platform sg).perform l.choice l.cancelled l.state l.cmd).1

section Step

variable {sg : Signer} {x : ApiChoice} {b : Bool} {w : Platform}

/-- The tenants after a statement: it changes them if it takes effect. -/
theorem tenants_perform (s : TenantStatement) :
    ((platform sg).perform x b w (.tenant s)).1.tenants = if x.service.takesEffect b then
      (s.exec (w.service.now + x.service.elapsed) w.tenants).2 else w.tenants := by
  show (if x.service.takesEffect b = true then _ else _ : Platform).tenants = _
  split <;> rfl

/-- **A command keeps a column that is written once.** -/
theorem stored_perform {β : Type} {g : Tenant → Option β} (hg : WriteOnce g) (c : ApiCmd)
    {orgID : String} {v : β} (h : stored g w.tenants orgID = some v) :
    stored g ((platform sg).perform x b w c).1.tenants orgID = some v := by
  cases c with
  | tenant s =>
    rw [tenants_perform]
    split
    · exact stored_exec hg _ s h
    · exact h
  | _ => exact h

end Step

/-! ### Issuing commands -/

/-- A statement of the API. -/
def tenantStatement (s : TenantStatement) : ApiProgram (Except Err s.Reply) :=
  Prog.issue (ApiCmd.tenant s)

/-- `signer.Sign(tenant, region, connector, stateTTL)`. -/
def sign (tenant region connector : String) : ApiProgram (Except Err String) :=
  Prog.issue (ApiCmd.sign tenant region connector)

/-- `r.URL.Query()`. -/
def query : ApiProgram CallbackQuery := Prog.issue ApiCmd.query

/-- A call to the integrations service. -/
def onService {α : Type} (p : Program α) : ApiProgram α :=
  p.embed ApiCmd.service fun _ r => r

end Api
end Hivebook
