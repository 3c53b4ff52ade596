import Hivebook.Database.Standing
import Hivebook.Lib.Threads
import Hivebook.Service.Inventory
import Hivebook.Workflow.Steps

/-!
# The server and the workflow of a connection

The server and the workflow of a connection share no state.  The server changes the row of the
connection and sends signals: a reconnect, to a workflow that is started if it does not run; a
disconnect, to one that runs.  A signal is buffered until the workflow reads it, and is gone with
the workflow if it never does.

Here the two run side by side, for one connection.  The jobs of the service go on command by
command, and the workflow goes on one step at a time, whenever something resumes it.

## Main definitions

* `Hub`, `HubCmd`, `hub` — the world and the last execution of the workflow, the commands and the
  machine.
* `Workflow.signalWorkflow`, `Workflow.signalWithStartWorkflow` — the two ways to send a signal.
* `HubJob`, `HubJob.prog` — the jobs, and the program of each.
* `provisioning` — the protocol of the jobs: a row that was upserted is provisioned.

## Main results

* `Job.upsertsNothing` — only the connect flows upsert a connection.
* `HubJob.follows` — **every job follows the protocol.**
-/

namespace Hivebook

open Connectors

/-! ### Signals -/

namespace Workflow

/-- The workflow is resumed, if it can be. -/
def resumed (e : Event) (last : Option State) : Option State :=
  last.map fun s => ((step s e).map Prod.fst).getD s

/-- The running workflow, or a fresh one if none is running (`USE_EXISTING`). -/
def existing (fresh : State) : Option State → State
  | none => fresh
  | some s => if s.control.ended then fresh else s

/-- `SignalWorkflow`: without a running workflow nothing happens. -/
def signalWorkflow (x : Signal) (last : Option State) : Option State := resumed (.signal x) last

/-- `SignalWithStartWorkflow`: without a running workflow a fresh one is started. -/
def signalWithStartWorkflow (fresh : State) (x : Signal) (last : Option State) : Option State :=
  resumed (.signal x) (some (existing fresh last))

end Workflow

/-! ### The machine -/

/-- The world, and the last execution of the workflow of a connection, if there was one. -/
structure Hub where
  world : World
  workflow : Option Workflow.State

/-- The commands: those of the service, and a step of the workflow. -/
inductive HubCmd where
  | service (c : Cmd)
  | resume (e : Workflow.Event)
  deriving DecidableEq, Repr

/-- The responses to the commands. -/
@[reducible] def HubCmd.Resp : HubCmd → Type
  | .service c => c.Resp
  | .resume _ => Unit

/-- A program of the service, or a step of the workflow. -/
abbrev HubProgram (α : Type) := Prog HubCmd HubCmd.Resp α

section Machine

variable (id : Uuid) (tenantID connectorID : String)

/-- What a command of the service does to the workflow of the connection: `Disconnect` signals a
running one, and every other sender starts one if need be. -/
def Cmd.reaches (now : Time) (last : Option Workflow.State) : Cmd → Option Workflow.State
  | .signalWorkflow id' .disconnect =>
      if id' = id then Workflow.signalWorkflow .disconnect last else last
  | .signalWorkflow id' x =>
      if id' = id then
        Workflow.signalWithStartWorkflow (.fresh id tenantID connectorID now) x last
      else last
  | _ => last

/-- The machine of the service and the workflow of a connection. -/
def hub : Machine Hub Choice HubCmd HubCmd.Resp where
  perform x cancelled w
    | .service c =>
        let r := service.perform x cancelled w.world c
        let workflow := if x.takesEffect cancelled
          then c.reaches id tenantID connectorID r.1.now w.workflow else w.workflow
        ({ world := r.1, workflow }, r.2)
    | .resume e => ({ w with workflow := Workflow.resumed e w.workflow }, ())

end Machine

/-! ### The jobs -/

/-- A program of the service. -/
def onHub {α : Type} (p : Program α) : HubProgram α := p.embed HubCmd.service fun _ r => r

/-- The jobs of the service, and the steps of the workflow. -/
inductive HubJob where
  | job (j : Job)
  | resume (e : Workflow.Event)
  deriving DecidableEq, Repr

/-- The program of a job. -/
def HubJob.prog (a : Activities) (s : Server) : HubJob → HubProgram Unit
  | .job j => onHub (j.prog a s)
  | .resume e => Prog.issue (HubCmd.resume e)

/-! ### Only the connect flows upsert a connection -/

/-- A command other than the upsert of a connection. -/
def Cmd.upsertsNothing : Cmd → Bool
  | .statement (.upsertConnection _) => false
  | _ => true

theorem upsertsNothing_of_minor {c : Cmd} (hc : c.minor = true) : c.upsertsNothing = true := by
  cases c with
  | statement s => cases s <;> first | rfl | cases hc
  | _ => rfl

theorem upsertsNothing_of_touchesTokens {c : Cmd} (hc : c.touchesTokens = true) :
    c.upsertsNothing = true := by
  cases c with
  | statement s => cases s <;> first | rfl | cases hc
  | _ => rfl

theorem upsertsNothing_of_settles {c : Cmd} (hc : c.settles = true) : c.upsertsNothing = true := by
  cases c with
  | statement s => cases s <;> first | rfl | cases hc
  | _ => rfl

section Jobs

variable (a : Activities) (sv : Server)

theorem upsertsNothing_loadConnection (id : Uuid) :
    (a.loadConnection id).Uses fun c => c.upsertsNothing = true :=
  (a.touchesTokens_loadConnection id).mono fun _ => upsertsNothing_of_touchesTokens

theorem upsertsNothing_syncUnit (i : SyncInput) :
    (a.syncUnit i).Uses fun c => c.upsertsNothing = true := by
  rw [syncUnit_eq]
  refine (upsertsNothing_loadConnection a i.connectionID).bind fun r => ?_
  cases r with
  | error e => exact Prog.uses_pure _ _
  | ok loaded =>
    refine (uses_syncLoaded a loaded.2).mono fun c hc => ?_
    cases hc with
    | tokens htokens => exact upsertsNothing_of_touchesTokens htokens
    | _ => rfl

theorem upsertsNothing_discoverUnits (id : Uuid) :
    (a.discoverUnits id).Uses fun c => c.upsertsNothing = true := by
  rw [discoverUnits_loaded]
  refine (upsertsNothing_loadConnection a id).bind fun r => ?_
  cases r with
  | error e => exact Prog.uses_pure _ _
  | ok loaded =>
    refine (uses_discoverLoaded a loaded.2).mono fun c hc => ?_
    cases hc with
    | tokens htokens => exact upsertsNothing_of_touchesTokens htokens
    | _ => rfl

theorem upsertsNothing_gcRemovedUnits :
    Activities.gcRemovedUnits.Uses fun c => c.upsertsNothing = true := by
  refine Prog.Uses.bind ⟨rfl, fun _ => trivial⟩ fun now =>
    Prog.Uses.bind ⟨rfl, fun _ => trivial⟩ fun r => ?_
  split
  · exact Prog.uses_pure _ _
  · refine (uses_gcConnections _ _ _).mono ?_
    rintro c ⟨id, rfl⟩
    rfl

/-- **Only the connect flows upsert a connection.** -/
theorem Job.upsertsNothing {j : Job} (hj : j.connects = false) :
    (j.prog a sv).Uses fun c => c.upsertsNothing = true := by
  by_cases hroutine : j.isRoutine = true
  · by_cases hgc : j = .upkeep .gcRemovedUnits
    · subst hgc
      exact uses_discard upsertsNothing_gcRemovedUnits
    · exact (Job.minor a sv hroutine hgc hj).mono fun _ => upsertsNothing_of_minor
  · cases j with
    | syncUnit i => exact uses_discard (upsertsNothing_syncUnit a i)
    | settleConnection id =>
      exact uses_discard ((uses_settleConnection id).mono fun _ => upsertsNothing_of_settles)
    | upkeep u =>
      cases u with
      | discoverUnits id => exact uses_discard (upsertsNothing_discoverUnits a id)
      | _ => exact absurd rfl hroutine
    | _ => exact absurd rfl hroutine

end Jobs

/-! ### The protocol -/

/-- The protocol of the service.  The ghost state is the row that was upserted and has not been
provisioned yet. -/
def provisioning : Protocol (Option Uuid) Cmd Cmd.Resp where
  allowed
    | g, .statement (.upsertConnection _) => g = none
    | _, _ => True
  next
    | _, .statement (.upsertConnection _), .ok row => some row.id
    | g, .signalWorkflow id .refreshCatalog, _ => if g = some id then none else g
    | g, _, _ => g

/-- The protocol of the service and the workflow. -/
def hubProvisioning : Protocol (Option Uuid) HubCmd HubCmd.Resp where
  allowed
    | g, .service c => provisioning.allowed g c
    | _, .resume _ => True
  next
    | g, .service c, r => provisioning.next g c r
    | g, .resume _, _ => g

section Follows

variable {α : Type} (s : Server)

/-- A program that goes through with every connection it upserts. -/
abbrev Provisions (p : Program α) : Prop := p.Follows provisioning (fun _ g => g = none) none

theorem provisions_of_upsertsNothing {p : Program α}
    (hp : p.Uses fun c => c.upsertsNothing = true) : Provisions p := by
  refine Prog.follows_of_uses (I := fun g => g = none) (hp.mono fun c hc g hg => ?_) rfl
  subst hg
  cases c with
  | statement s => cases s <;> first | exact ⟨trivial, fun _ => rfl⟩ | cases hc
  | signalWorkflow id x => cases x <;> exact ⟨trivial, fun _ => rfl⟩
  | _ => exact ⟨trivial, fun _ => rfl⟩

theorem Provisions.bind {β : Type} {p : Program α} {f : α → Program β} (h : Provisions p)
    (hf : ∀ a, Provisions (f a)) : Provisions (p.bind f) := by
  refine Prog.Follows.bind h fun a g hg => ?_
  subst hg
  exact hf a

theorem provisions_pure (a : α) : Provisions (Prog.pure a) := rfl

theorem provisions_request (q : Request) : Provisions (request q) :=
  provisions_of_upsertsNothing ⟨rfl, fun _ => trivial⟩

/-- A row that was upserted is provisioned. -/
theorem provisions_saveConnection (p : Database.UpsertConnectionParams) :
    Provisions (Server.saveConnection p) := by
  refine ⟨rfl, fun r => ?_⟩
  cases r with
  | error e => rfl
  | ok row =>
    refine ⟨trivial, fun _ => ⟨trivial, fun _ => ?_⟩⟩
    exact if_pos rfl

theorem provisions_completeInstallation (st : OAuthState) (connector : Connector) (creds : Creds)
    (installationID : String) :
    Provisions (s.completeInstallation st connector creds installationID) := by
  unfold Server.completeInstallation
  split
  · exact provisions_pure _
  · exact (provisions_request _).bind fun _ => provisions_saveConnection _

theorem provisions_completeOAuth (st : OAuthState) (connector : Connector) (code : String) :
    Provisions (s.completeOAuth st connector code) := by
  refine (provisions_request _).bind fun r => ?_
  split
  · exact provisions_pure _
  · refine (provisions_request _).bind fun _ => ?_
    split
    · exact provisions_saveConnection _
    · exact provisions_pure _

theorem provisions_completeConnection (state code installationID : String) :
    Provisions (s.completeConnection state code installationID) := by
  refine (provisions_of_upsertsNothing ⟨rfl, fun _ => trivial⟩ : Provisions clock).bind fun _ => ?_
  split
  · exact provisions_pure _
  · split
    · exact provisions_pure _
    · dsimp only
      split
      · exact provisions_completeInstallation s _ _ _ _
      · exact provisions_completeOAuth s _ _ _

theorem provisions_completeTokenConnection (tenant : Option String)
    (region connectorID token name : String) :
    Provisions (s.completeTokenConnection tenant region connectorID token name) := by
  unfold Server.completeTokenConnection
  split
  · exact provisions_pure _
  · split
    · exact provisions_pure _
    · refine (provisions_request _).bind fun r => ?_
      split
      · exact provisions_pure _
      · split
        · exact provisions_saveConnection _
        · exact provisions_pure _

theorem Job.provisions (a : Activities) (j : Job) : Provisions (j.prog a s) := by
  cases hj : j.connects with
  | false => exact provisions_of_upsertsNothing (Job.upsertsNothing a s hj)
  | true =>
    cases j with
    | completeConnection state code installationID =>
      exact (provisions_completeConnection s state code installationID).bind fun _ =>
        provisions_pure _
    | completeTokenConnection tenant region connectorID token name =>
      exact (provisions_completeTokenConnection s tenant region connectorID token name).bind
        fun _ => provisions_pure _
    | _ => cases hj

/-- **Every job follows the protocol.** -/
theorem HubJob.follows (a : Activities) (j : HubJob) :
    (j.prog a s).Follows hubProvisioning (fun _ g => g = none) none := by
  cases j with
  | job j => exact (Job.provisions s a j).embed (fun _ _ h => h) fun _ _ _ => rfl
  | resume e => exact ⟨trivial, fun _ => rfl⟩

end Follows

end Hivebook
