import Hivebook.Service.Jobs

/-!
# The commands of every job

Which commands a job may issue, whatever is answered: a drain writes rows and the cursor
of its own unit, a discovery queues artifacts, a purge pass lists, deletes and confirms,
a request handler changes what the user asked for, and the other jobs are steady.

## Main definitions

* `Cmd.syncs i`, `Cmd.discovers`, `Cmd.purges`, `Cmd.handles` — the commands of each kind.
* `Job.Issues j c` — the job may issue the command.

## Main results

* `Job.uses` — **a job issues no other commands.**
-/

namespace Hivebook

open Connectors Admission

/-- The commands of a drain: it stores objects, and writes rows and the cursor of its own
unit. -/
def Cmd.syncs (i : SyncInput) : Cmd → Prop
  | .putObject _ _ _ _ => True
  | .statement (.commitArtifact p unitID _) => p.connectionID = i.connectionID ∧ unitID = i.unitID
  | .statement (.setUnitCursor id unitID _) => id = i.connectionID ∧ unitID = i.unitID
  | .statement (.getSyncUnit _ _) => True
  | .statement (.acquireAdmission _) | .statement (.releaseAdmission _) => True
  | c => c.steady = true

/-- The commands of a discovery: it queues artifacts. -/
def Cmd.discovers : Cmd → Bool
  | .statement (.markRemovedUnitArtifactsPurgePending _ _) => true
  | c => c.plain

/-- The commands of a purge pass. -/
def Cmd.purges : Cmd → Bool
  | .statement (.listPurgePendingArtifacts _) | .deleteObject _ _
  | .statement (.confirmArtifactDeletes _) => true
  | _ => false

/-- The commands of a request handler: it hides, restores and queues artifacts. -/
def Cmd.handles : Cmd → Bool
  | .statement (.softDeleteConnectionArtifacts _ _)
  | .statement (.undeleteConnectionArtifacts _ _)
  | .statement (.softDeleteDeselectedUnitArtifacts _)
  | .statement (.undeleteSelectedUnitArtifacts _)
  | .statement (.markConnectionArtifactsPurgePending _ _) => true
  | c => c.steady

/-- The commands a job may issue. -/
def Job.Issues : Job → Cmd → Prop
  | .syncUnit i, c => c.syncs i
  | .upkeep (.discoverUnits _), c => c.discovers = true
  | .upkeep (.purgeArtifacts _), c => c.purges = true
  | .markConnectionPurge _ _, c | .disconnect _ _, c | .completeConnection _ _ _, c
  | .completeTokenConnection _ _ _ _ _, c | .setProjectSelection _ _ _, c => c.handles = true
  | _, c => c.steady = true

/-! ### Drains -/

theorem syncs_of_steady {c : Cmd} (hc : c.steady = true) (i : SyncInput) : c.syncs i := by
  cases c with
  | statement s => cases s <;> first | exact hc | trivial
  | putObject _ _ _ _ => trivial
  | _ => exact hc

/-- A steady program is part of any drain. -/
theorem Steady.syncs {α : Type} {p : Program α} (h : Steady p) (i : SyncInput) :
    p.Uses (Cmd.syncs i) := h.mono fun _ hc => syncs_of_steady hc i

section Drain

variable (a : Activities) (i : SyncInput)

theorem syncs_emitUnchanged (art : Artifact) (st : EmitState) :
    (Activities.emitUnchanged i art st).Uses (Cmd.syncs i) := by
  unfold Activities.emitUnchanged
  split
  · exact ⟨⟨rfl, rfl⟩, fun _ => trivial⟩
  · exact Prog.uses_pure _ _

theorem syncs_emitChanged (conn : Connection) (art : Artifact) (hash : String) (st : EmitState) :
    (a.emitChanged i conn art hash st).Uses (Cmd.syncs i) := by
  refine Prog.Uses.bind ?_ fun r => ?_
  · refine ⟨trivial, fun r => ?_⟩
    cases r <;> trivial
  · split
    · exact Prog.uses_pure _ _
    · refine Prog.Uses.bind ⟨⟨rfl, rfl⟩, fun _ => trivial⟩ fun r => ?_
      split
      · exact Prog.uses_pure _ _
      · exact ((Activities.steady_noteProgress i _).bind fun _ => steady_pure _).syncs i

theorem syncs_makeEmit (conn : Connection) (art : Artifact) (st : EmitState) :
    (a.makeEmit i conn art st).Uses (Cmd.syncs i) := by
  refine (steady_ctxErr.syncs i).bind fun b => ?_
  split
  · exact Prog.uses_pure _ _
  · refine ((steady_statement rfl).syncs i).bind fun r => ?_
    split
    · split
      · exact syncs_emitUnchanged i art st
      · exact syncs_emitChanged a i conn art _ st
    · exact syncs_emitChanged a i conn art _ st
    · exact Prog.uses_pure _ _

/-- Whatever its connector does, a drain writes to its own unit only. -/
theorem syncs_drain (conn : Connection) (connector : Connector) (unit : SyncUnit) :
    (a.drain i conn connector unit).Uses (Cmd.syncs i) := by
  refine Prog.Uses.handle ?_ _ _
  intro c st
  cases c with
  | fetch c =>
    cases c with
    | ctxErr => exact (steady_ctxErr.bind fun _ => steady_pure _).syncs i
    | request q => exact ((steady_request q).bind fun _ => steady_pure _).syncs i
  | emit art => exact syncs_makeEmit a i conn art st

theorem syncs_drainUnit (conn : Connection) (connector : Connector) (unit : SyncUnit) :
    (a.drainUnit i conn connector unit).Uses (Cmd.syncs i) :=
  (syncs_drain a i conn connector unit).bind fun _ =>
    (Activities.steady_finishUnit _ _ _ _ _).syncs i

theorem syncs_acquire (k : Scope) (connectorID : String) (seed : RateBudget) :
    (acquire k connectorID seed).Uses (Cmd.syncs i) := by
  refine ⟨rfl, fun r => ?_⟩
  cases r with
  | error e => trivial
  | ok _ =>
    refine ⟨trivial, fun r => ?_⟩
    dsimp only [Prog.pure_bind]
    split <;> trivial

theorem syncs_syncUnit : (a.syncUnit i).Uses (Cmd.syncs i) := by
  refine ((a.touchesTokens_loadConnection _).steady.syncs i).bind fun r => ?_
  split
  · exact Prog.uses_pure _ _
  · refine Prog.Uses.bind ⟨trivial, fun _ => trivial⟩ fun r => ?_
    split
    · exact Prog.uses_pure _ _
    · refine ((steady_statement rfl).syncs i).bind fun r => ?_
      split
      · exact Prog.uses_pure _ _
      · refine ((steady_statement rfl).syncs i).bind fun _ =>
          ((a.touchesTokens_clientFor _).steady.syncs i).bind fun r => ?_
        split
        · exact ((Activities.steady_classify _ _ _).bind fun _ => steady_pure _).syncs i
        · refine (syncs_acquire i _ _ _).bind fun r => ?_
          split
          · exact Prog.uses_pure _ _
          · exact Prog.uses_pure _ _
          · exact (syncs_drainUnit a i _ _ _).bind fun r => ⟨trivial, fun _ => trivial⟩

end Drain

/-! ### Discoveries and purge passes -/

theorem discovers_of_plain {c : Cmd} (hc : c.plain = true) : c.discovers = true := by
  cases c with
  | statement s => cases s <;> first | exact hc | rfl
  | _ => exact hc

theorem Plain.discovers {α : Type} {p : Program α} (h : Plain p) :
    p.Uses fun c => c.discovers = true := h.mono fun _ hc => discovers_of_plain hc

theorem discovers_sweep (conn : Connection) (connector : Connector) (units : List SourceUnit)
    (generation : ℤ) :
    (Activities.sweep conn connector units generation).Uses fun c => c.discovers = true := by
  refine (plain_statement rfl).discovers.bind fun r => ?_
  split
  · exact Prog.uses_pure _ _
  · split
    · refine plain_clock.discovers.bind fun now =>
        Prog.Uses.bind ⟨rfl, fun _ => trivial⟩ fun r => ?_
      split
      · exact Prog.uses_pure _ _
      · exact (Activities.steady_finishDiscovery _ _ _ _).plain.discovers
    · exact (Activities.steady_finishDiscovery _ _ _ _).plain.discovers

theorem discovers_discoverUnits (a : Activities) (id : Uuid) :
    (a.discoverUnits id).Uses fun c => c.discovers = true := by
  refine (a.touchesTokens_loadConnection id).steady.plain.discovers.bind fun r => ?_
  split
  · exact Prog.uses_pure _ _
  · refine (plain_statement rfl).discovers.bind fun r => ?_
    split
    · exact Prog.uses_pure _ _
    · refine (plain_statement rfl).discovers.bind fun r => ?_
      split
      · exact Prog.uses_pure _ _
      · refine (a.touchesTokens_clientFor _).steady.plain.discovers.bind fun r => ?_
        split
        · exact ((Activities.steady_classify _ _ _).plain.bind fun _ => plain_pure _).discovers
        · refine (touchesTokens_fetch _).steady.plain.discovers.bind fun r => ?_
          split
          · exact ((Activities.steady_classify _ _ _).plain.bind fun _ => plain_pure _).discovers
          · refine (Activities.plain_markUnits _ _ _).discovers.bind fun r => ?_
            split
            · exact Prog.uses_pure _ _
            · split
              · exact (Activities.steady_skipSweep _ _ _).plain.discovers
              · exact discovers_sweep _ _ _ _

theorem purges_purgeRows (confirmed : List Uuid) (res : PurgeResult) (rows : List RawArtifact) :
    (Activities.purgeRows confirmed res rows).Uses fun c => c.purges = true := by
  induction rows generalizing confirmed res with
  | nil => exact Prog.uses_pure _ _
  | cons r rs ih =>
    unfold Activities.purgeRows
    split
    · exact ih _ _
    · refine Prog.Uses.bind ?_ fun r => ?_
      · unfold deleteObject
        split
        · exact Prog.uses_pure _ _
        · refine ⟨rfl, fun r => ?_⟩
          cases r <;> trivial
      · split <;> exact ih _ _

theorem purges_purgeArtifacts (limit : ℤ) :
    (Activities.purgeArtifacts limit).Uses fun c => c.purges = true := by
  refine Prog.Uses.bind ⟨rfl, fun _ => trivial⟩ fun r => ?_
  split
  · exact Prog.uses_pure _ _
  · refine (purges_purgeRows _ _ _).bind fun r => ?_
    dsimp only
    split
    · exact Prog.uses_pure _ _
    · refine Prog.Uses.bind ⟨rfl, fun _ => trivial⟩ fun r => ?_
      split <;> exact Prog.uses_pure _ _

/-! ### Request handlers -/

theorem handles_of_steady {c : Cmd} (hc : c.steady = true) : c.handles = true := by
  cases c with
  | statement s => cases s <;> first | exact hc | rfl
  | _ => exact hc

theorem Steady.handles {α : Type} {p : Program α} (h : Steady p) :
    p.Uses fun c => c.handles = true := h.mono fun _ hc => handles_of_steady hc

theorem handles_command (c : Cmd) (h : c.handles = true) :
    (Prog.issue c : Program c.Resp).Uses fun c => c.handles = true := ⟨h, fun _ => trivial⟩

section Handlers

variable (s : Server)

theorem handles_disconnect (tenant : Option String) (id : Uuid) :
    (s.disconnect tenant id).Uses fun c => c.handles = true := by
  unfold Server.disconnect
  split
  · exact Prog.uses_pure _ _
  · refine (steady_statement rfl).handles.bind fun r => ?_
    split
    · exact Prog.uses_pure _ _
    · refine (steady_statement rfl).handles.bind fun r => ?_
      split
      · exact Prog.uses_pure _ _
      · split
        · exact Prog.uses_pure _ _
        · exact (handles_command _ rfl).bind fun _ => (handles_command _ rfl).bind fun _ =>
            (handles_command _ rfl).bind fun _ => (handles_command _ rfl).bind fun _ =>
              ((s.steady_uninstallApp _).bind fun _ => steady_pure _).handles

theorem handles_saveConnection (p : Database.UpsertConnectionParams) :
    (Server.saveConnection p).Uses fun c => c.handles = true := by
  refine (steady_statement rfl).handles.bind fun r => ?_
  split
  · exact Prog.uses_pure _ _
  · exact (handles_command _ rfl).bind fun _ => (handles_command _ rfl).bind fun _ =>
      Prog.uses_pure _ _

theorem handles_completeConnection (state code inst : String) :
    (s.completeConnection state code inst).Uses fun c => c.handles = true := by
  refine steady_clock.handles.bind fun now => ?_
  split
  · exact Prog.uses_pure _ _
  · split
    · exact Prog.uses_pure _ _
    · dsimp only
      split
      · unfold Server.completeInstallation
        split
        · exact Prog.uses_pure _ _
        · exact (steady_request _).handles.bind fun _ => handles_saveConnection _
      · refine (steady_request _).handles.bind fun r => ?_
        split
        · exact Prog.uses_pure _ _
        · refine (steady_request _).handles.bind fun _ => ?_
          split
          · exact handles_saveConnection _
          · exact Prog.uses_pure _ _

theorem handles_completeTokenConnection (tenant : Option String)
    (region connectorID token name : String) :
    (s.completeTokenConnection tenant region connectorID token name).Uses
      fun c => c.handles = true := by
  unfold Server.completeTokenConnection
  split
  · exact Prog.uses_pure _ _
  · split
    · exact Prog.uses_pure _ _
    · refine (steady_request _).handles.bind fun r => ?_
      split
      · exact Prog.uses_pure _ _
      · split
        · exact handles_saveConnection _
        · exact Prog.uses_pure _ _

theorem handles_setProjectSelection (tenant : Option String) (id : Uuid) (selected : List String) :
    (Server.setProjectSelection tenant id selected).Uses fun c => c.handles = true := by
  unfold Server.setProjectSelection
  split
  · exact Prog.uses_pure _ _
  · refine (steady_statement rfl).handles.bind fun r => ?_
    split
    · exact Prog.uses_pure _ _
    · refine (steady_statement rfl).handles.bind fun r => ?_
      split
      · exact Prog.uses_pure _ _
      · refine (steady_statement rfl).handles.bind fun r => ?_
        split
        · exact Prog.uses_pure _ _
        · exact (handles_command _ rfl).bind fun _ => (handles_command _ rfl).bind fun _ =>
            (handles_command _ rfl).bind fun _ => (handles_command _ rfl).bind fun _ =>
              Prog.uses_pure _ _

end Handlers

/-! ### Every job -/

theorem uses_discard {α : Type} {p : Program α} {U : Cmd → Prop} (h : p.Uses U) :
    (discard p).Uses U := h.bind fun _ => Prog.uses_pure _ _

/-- **A job issues no other commands.** -/
theorem Job.uses (a : Activities) (s : Server) (j : Job) : (j.prog a s).Uses j.Issues := by
  cases j with
  | upkeep u =>
    cases u with
    | discoverUnits id => exact uses_discard (discovers_discoverUnits a id)
    | purgeArtifacts limit => exact uses_discard (purges_purgeArtifacts limit)
    | checkPurgeSLA => exact uses_discard Activities.steady_checkPurgeSLA
    | gcRemovedUnits => exact uses_discard Activities.steady_gcRemovedUnits
  | syncUnit i => exact uses_discard (syncs_syncUnit a i)
  | startRun id => exact uses_discard (Activities.steady_startRun id)
  | settleConnection id => exact uses_discard (Activities.steady_settleConnection id)
  | nextUnitBatch id limit => exact uses_discard (Activities.steady_nextUnitBatch id limit)
  | capacity id tenantID connectorID =>
    exact uses_discard (a.steady_capacity id tenantID connectorID)
  | markConnectionPurge id tenantID =>
    refine uses_discard ((handles_command _ rfl).bind fun r => ?_)
    split <;> exact Prog.uses_pure _ _
  | disconnect tenant id => exact uses_discard (handles_disconnect s tenant id)
  | completeConnection state code inst =>
    exact uses_discard (handles_completeConnection s state code inst)
  | completeTokenConnection tenant region connectorID token name =>
    exact uses_discard (handles_completeTokenConnection s tenant region connectorID token name)
  | setProjectSelection tenant id selected =>
    exact uses_discard (handles_setProjectSelection tenant id selected)

end Hivebook
