import Hivebook.Service.Commands
import Hivebook.Service.Overlap

/-!
# What a loaded activity may still do

`SyncUnit` and `DiscoverUnits` load their connection and go on with the row they have read.
This file lists the commands they may issue from there on, each with the arguments it takes
from the row and the input.  The other jobs are listed together: none of them writes a status
that it has computed, but for the settle at the end of a run.  Every fact about the commands
of a job is a case analysis of these lists.

## Main definitions

* `Activities.syncLoaded`, `Activities.discoverLoaded` — the activities once the connection
  is loaded.
* `InSync i conn c`, `InPass conn c` — the commands they may issue; `InDrain i conn c` — those of
  the drain itself, `InReconcile conn c` — those that follow the listing of a discovery.
* `Cmd.settles` — the commands of the settle.
* `Cmd.routine` — the commands of the other jobs, `Cmd.ordinary` — but for the collection of
  removed units, `Cmd.minor` — and for the connect flows; `Job.isRoutine`, `Job.connects` —
  these jobs.

## Main results

* `uses_syncLoaded`, `uses_drain`, `uses_discoverLoaded`, `uses_reconcile`,
  `uses_settleConnection` — **they issue no others.**
* `syncUnit_eq`, `discoverUnits_loaded` — an activity loads its connection first.
* `Job.routine`, `Job.ordinary`, `Job.minor` — the other jobs issue routine commands.
-/

namespace Hivebook

open Connectors Admission

/-- The commands of a drain, whatever its connector does. -/
inductive InDrain (i : SyncInput) (conn : Connection) : Cmd → Prop
  | tokens {c : Cmd} : c.touchesTokens = true → InDrain i conn c
  | notify (tenantID : String) : InDrain i conn (.statement (.notifyConnectionChanged tenantID))
  | hash (externalID : String) :
      InDrain i conn (.statement (.getArtifactContentHash i.connectionID externalID))
  | put (bucket key contentType : String) (body : Bytes) :
      InDrain i conn (.putObject bucket key contentType body)
  | commit (art : Artifact) (objectKey hash : String) (cursor : Option String) :
      InDrain i conn (.statement (.commitArtifact
        (Activities.artifactParams i conn art objectKey hash) i.unitID cursor))
  | cursor (cursor : String) :
      InDrain i conn (.statement (.setUnitCursor i.connectionID i.unitID cursor))

/-- The commands of `SyncUnit` once its connection is loaded. -/
inductive InSync (i : SyncInput) (conn : Connection) : Cmd → Prop
  | tokens {c : Cmd} : c.touchesTokens = true → InSync i conn c
  | look : InSync i conn (.statement (.getSyncUnit i.connectionID i.unitID))
  | status (st : UnitStatus) :
      InSync i conn (.statement (.setUnitStatus i.connectionID i.unitID st))
  | notify (tenantID : String) : InSync i conn (.statement (.notifyConnectionChanged tenantID))
  | reauth (text : String) : InSync i conn (.statement (.setNeedsReauth conn.id text))
  | retry (text : String) (t : Time) :
      InSync i conn (.statement (.setUnitRetry conn.id i.unitID text t))
  | seed (connectorID : String) (limit : ℤ) :
      InSync i conn
        (.statement (.seedAdmissionBucket (.credential i.connectionID) connectorID limit))
  | acquire : InSync i conn (.statement (.acquireAdmission (.credential i.connectionID)))
  | success (limit : ℤ) :
      InSync i conn (.statement (.admissionAdditiveIncrease (.credential i.connectionID) limit))
  | throttle (cooldown : Option Time) : InSync i conn
      (.statement (.admissionMultiplicativeDecrease (.credential i.connectionID) cooldown))
  | release : InSync i conn (.statement (.releaseAdmission (.credential i.connectionID)))
  | hash (externalID : String) :
      InSync i conn (.statement (.getArtifactContentHash i.connectionID externalID))
  | put (bucket key contentType : String) (body : Bytes) :
      InSync i conn (.putObject bucket key contentType body)
  | commit (art : Artifact) (objectKey hash : String) (cursor : Option String) :
      InSync i conn (.statement (.commitArtifact
        (Activities.artifactParams i conn art objectKey hash) i.unitID cursor))
  | cursor (cursor : String) :
      InSync i conn (.statement (.setUnitCursor i.connectionID i.unitID cursor))
  | commitUnit : InSync i conn (.statement (.commitUnit i.connectionID i.unitID))
  | clearRetry : InSync i conn (.statement (.clearUnitRetry i.connectionID i.unitID))

/-- The commands of `DiscoverUnits` once its connection is loaded. -/
inductive InPass (conn : Connection) : Cmd → Prop
  | tokens {c : Cmd} : c.touchesTokens = true → InPass conn c
  | count : InPass conn (.statement (.countLiveUnits conn.id))
  | max : InPass conn (.statement (.maxUnitGeneration conn.id))
  | reauth (text : String) : InPass conn (.statement (.setNeedsReauth conn.id text))
  | notify (tenantID : String) : InPass conn (.statement (.notifyConnectionChanged tenantID))
  | mark (x name kind : String) (g : ℤ) :
      InPass conn (.statement (.upsertSyncUnit conn.id x name kind g))
  /-- The degraded branch writes back the status it has read. -/
  | setStatus (text : String) :
      InPass conn (.statement (.setConnectionStatus conn.id conn.status text))
  | sweep (g : ℤ) : InPass conn (.statement (.sweepUnseenUnits conn.id g))
  | queue (deadline : Time) :
      InPass conn (.statement (.markRemovedUnitArtifactsPurgePending conn.id deadline))
  | total (x : String) (n : ℤ) : InPass conn (.statement (.setUnitTotal conn.id x n))
  | discovered : InPass conn (.statement (.setCatalogDiscovered conn.id))

/-- The commands of `DiscoverUnits` once the units of the source are listed. -/
inductive InReconcile (conn : Connection) : Cmd → Prop
  | finish {c : Cmd} : InFinish conn c → InReconcile conn c
  | mark (x name kind : String) (g : ℤ) :
      InReconcile conn (.statement (.upsertSyncUnit conn.id x name kind g))
  | setStatus (text : String) :
      InReconcile conn (.statement (.setConnectionStatus conn.id conn.status text))
  | sweep (g : ℤ) : InReconcile conn (.statement (.sweepUnseenUnits conn.id g))
  | queue (deadline : Time) :
      InReconcile conn (.statement (.markRemovedUnitArtifactsPurgePending conn.id deadline))

/-- The statements of the other jobs. -/
def Statement.routine : Statement → Bool
  | .getConnection _ _ | .getConnectionByID _ | .upsertConnection _ | .deleteConnection _ _
  | .markConnectionOnboarded _ | .startRunConnection _ | .startRun _ | .nextUnitBatch _ _
  | .setUnitSelection _ _ | .softDeleteConnectionArtifacts _ _ | .undeleteConnectionArtifacts _ _
  | .softDeleteDeselectedUnitArtifacts _ | .undeleteSelectedUnitArtifacts _
  | .markConnectionArtifactsPurgePending _ _ | .listPurgePendingArtifacts _
  | .confirmArtifactDeletes _ | .listPurgePendingPastDeadline _ _
  | .listConnectionsWithRemovedUnits _ | .gcRemovedUnits _ _ | .seedAdmissionBucket _ _ _
  | .getAdmissionLimit _ | .notifyConnectionChanged _ => true
  | _ => false

/-- The commands of the other jobs. -/
def Cmd.routine : Cmd → Bool
  | .statement s => s.routine
  | .putObject _ _ _ _ => false
  | _ => true

/-- The commands of the other jobs, but for the collection of removed units. -/
def Cmd.ordinary : Cmd → Bool
  | .statement (.gcRemovedUnits _ _) => false
  | c => c.routine

/-- An ordinary command other than the upsert of a connection. -/
def Cmd.minor : Cmd → Bool
  | .statement (.upsertConnection _) => false
  | c => c.ordinary

theorem ordinary_of_minor {c : Cmd} (h : c.minor = true) : c.ordinary = true := by
  cases c with
  | statement s => cases s <;> first | exact h | rfl
  | _ => exact h

theorem routine_of_ordinary {c : Cmd} (h : c.ordinary = true) : c.routine = true := by
  cases c with
  | statement s => cases s <;> first | exact h | rfl
  | _ => exact h

/-- The commands of the settle at the end of a run. -/
def Cmd.settles : Cmd → Bool
  | .statement (.settleCounts _) | .statement (.getConnectionByID _)
  | .statement (.setConnectionSettled _ _) | .statement (.notifyConnectionChanged _) => true
  | _ => false

/-- A job that finishes a connect flow. -/
def Job.connects : Job → Bool
  | .completeConnection _ _ _ | .completeTokenConnection _ _ _ _ _ => true
  | _ => false

/-- A job other than the two activities and the settle. -/
def Job.isRoutine : Job → Bool
  | .syncUnit _ | .upkeep (.discoverUnits _) | .settleConnection _ => false
  | _ => true

namespace Activities

variable (a : Activities)

/-- `SyncUnit` once its connection is loaded. -/
def syncLoaded (i : SyncInput) (conn : Connection) (connector : Connector) :
    Program (Except ActivityError SyncResult) := do
  match ← statement (.getSyncUnit i.connectionID i.unitID) with
  | .error e => return .error (.plain e)
  | .ok unit =>
      match ← statement (.setUnitStatus i.connectionID i.unitID .syncing) with
      | .error e => return .error (.plain e)
      | .ok _ =>
          let _ ← statement (.notifyConnectionChanged i.tenantID)
          match ← a.clientFor conn with
          | .error e => return .error (← classify conn i.unitID e)
          | .ok _ => a.admitted i conn connector unit

/-- `DiscoverUnits` once its connection is loaded. -/
def discoverLoaded (conn : Connection) (connector : Connector) :
    Program (Except ActivityError DiscoverResult) := do
  match ← statement (.countLiveUnits conn.id) with
  | .error e => return .error (.plain e)
  | .ok lastKnownGood =>
      match ← statement (.maxUnitGeneration conn.id) with
      | .error e => return .error (.plain e)
      | .ok maxGen =>
          match ← a.clientFor conn with
          | .error e => return .error (← classify conn "" e)
          | .ok _ =>
              match ← fetch connector.discoverUnits with
              | .error e => return .error (← classify conn "" e)
              | .ok units => reconcile conn connector lastKnownGood (maxGen + 1) units

/-- `SyncUnit` from the load on. -/
def syncFrom (i : SyncInput) :
    Except Err (Connection × Connector) → Program (Except ActivityError SyncResult)
  | .error e => return .error (.plain e)
  | .ok (conn, connector) => a.syncLoaded i conn connector

/-- `DiscoverUnits` from the load on. -/
def discoverFrom :
    Except Err (Connection × Connector) → Program (Except ActivityError DiscoverResult)
  | .error e => return .error (.plain e)
  | .ok (conn, connector) => a.discoverLoaded conn connector

end Activities

variable (a : Activities) (i : SyncInput) (conn : Connection) (connector : Connector)

/-- `SyncUnit` loads its connection first. -/
theorem syncUnit_eq : a.syncUnit i = (a.loadConnection i.connectionID).bind (a.syncFrom i) := by
  unfold Activities.syncUnit
  rw [Prog.bind_eq]
  congr 1

/-- `DiscoverUnits` loads its connection first. -/
theorem discoverUnits_loaded (id : Uuid) :
    a.discoverUnits id = (a.loadConnection id).bind a.discoverFrom := by
  unfold Activities.discoverUnits
  rw [Prog.bind_eq]
  congr 1

/-! ### The parts of `SyncUnit` -/

section SyncUnit

variable {i conn}

theorem TouchesTokens.inSync {α : Type} {p : Program α} (h : TouchesTokens p) :
    p.Uses (InSync i conn) := h.mono fun _ => .tokens

theorem inSync_ctxErr : ctxErr.Uses (InSync i conn) := ⟨.tokens rfl, fun _ => trivial⟩

theorem inSync_clock : clock.Uses (InSync i conn) := ⟨.tokens rfl, fun _ => trivial⟩

theorem inSync_statement {s : Statement} (h : InSync i conn (.statement s)) :
    (statement s).Uses (InSync i conn) := ⟨h, fun _ => trivial⟩

theorem inSync_classify (err : Err) :
    (Activities.classify conn i.unitID err).Uses (InSync i conn) := by
  unfold Activities.classify
  split
  · exact (inSync_statement (.reauth _)).bind fun _ =>
      (inSync_statement (.notify _)).bind fun _ => Prog.uses_pure _ _
  · exact Prog.uses_pure _ _
  · refine Prog.Uses.bind ?_ fun _ => Prog.uses_pure _ _
    unfold Activities.armBackoff
    split
    · exact Prog.uses_pure _ _
    · exact inSync_clock.bind fun _ => (inSync_statement (.retry _ _)).bind fun _ =>
        (inSync_statement (.notify _)).bind fun _ => Prog.uses_pure _ _

theorem InDrain.inSync {c : Cmd} (h : InDrain i conn c) : InSync i conn c := by
  cases h with
  | tokens hc => exact .tokens hc
  | notify tenantID => exact .notify tenantID
  | hash externalID => exact .hash externalID
  | put bucket key contentType body => exact .put bucket key contentType body
  | commit art objectKey hash cursor => exact .commit art objectKey hash cursor
  | cursor cursor => exact .cursor cursor

theorem inDrain_statement {s : Statement} (h : InDrain i conn (.statement s)) :
    (statement s).Uses (InDrain i conn) := ⟨h, fun _ => trivial⟩

theorem inDrain_emitUnchanged (art : Artifact) (st : EmitState) :
    (Activities.emitUnchanged i art st).Uses (InDrain i conn) := by
  unfold Activities.emitUnchanged
  split
  · exact (inDrain_statement (.cursor _)).bind fun _ => Prog.uses_pure _ _
  · exact Prog.uses_pure _ _

theorem inDrain_noteProgress (written : ℕ) :
    (Activities.noteProgress i written).Uses (InDrain i conn) := by
  unfold Activities.noteProgress
  split
  · exact (inDrain_statement (.notify _)).bind fun _ => Prog.uses_pure _ _
  · exact Prog.uses_pure _ _

theorem inDrain_emitChanged (art : Artifact) (hash : String) (st : EmitState) :
    (a.emitChanged i conn art hash st).Uses (InDrain i conn) := by
  refine Prog.Uses.bind ⟨.put _ _ _ _, fun r => ?_⟩ fun r => ?_
  · cases r <;> trivial
  · split
    · exact Prog.uses_pure _ _
    · refine (inDrain_statement (.commit _ _ _ _)).bind fun r => ?_
      split
      · exact Prog.uses_pure _ _
      · exact (inDrain_noteProgress _).bind fun _ => Prog.uses_pure _ _

theorem inDrain_makeEmit (art : Artifact) (st : EmitState) :
    (a.makeEmit i conn art st).Uses (InDrain i conn) := by
  refine Prog.Uses.bind ⟨.tokens rfl, fun _ => trivial⟩ fun b => ?_
  split
  · exact Prog.uses_pure _ _
  · refine (inDrain_statement (.hash _)).bind fun r => ?_
    split
    · split
      · exact inDrain_emitUnchanged art st
      · exact inDrain_emitChanged a art _ st
    · exact inDrain_emitChanged a art _ st
    · exact Prog.uses_pure _ _

/-- **Whatever its connector does, a drain stores items and moves the cursor.** -/
theorem uses_drain (unit : SyncUnit) :
    (a.drain i conn connector unit).Uses (InDrain i conn) := by
  refine Prog.Uses.handle ?_ _ _
  intro c st
  cases c with
  | fetch c =>
    cases c with
    | ctxErr => exact Prog.Uses.bind ⟨.tokens rfl, fun _ => trivial⟩ fun _ => Prog.uses_pure _ _
    | request q =>
      exact ((touchesTokens_request q).bind fun _ => touchesTokens_pure _).mono fun _ => .tokens
  | emit art => exact inDrain_makeEmit a art st

theorem inSync_commitSynced (written : ℕ) :
    (Activities.commitSynced i written).Uses (InSync i conn) := by
  refine (inSync_statement .commitUnit).bind fun r => ?_
  split
  · exact Prog.uses_pure _ _
  · refine (inSync_statement (.status _)).bind fun r => ?_
    split
    · exact Prog.uses_pure _ _
    · exact (inSync_statement .clearRetry).bind fun _ =>
        (inSync_statement (.notify _)).bind fun _ => Prog.uses_pure _ _

theorem inSync_throttleFeedback (e : Err) :
    (Activities.throttleFeedback i.connectionID e).Uses (InSync i conn) := by
  unfold Activities.throttleFeedback
  split
  · refine Prog.Uses.bind ?_ fun _ => Prog.uses_pure _ _
    unfold recordThrottle
    split
    · exact inSync_clock.bind fun _ => inSync_statement (.throttle _)
    · exact inSync_statement (.throttle _)
  · exact Prog.uses_pure _ _

theorem inSync_finishUnit (result : Except Err Bool) (written : ℕ) :
    (Activities.finishUnit i conn connector result written).Uses (InSync i conn) := by
  refine Prog.Uses.bind ?_ fun _ => inSync_ctxErr.bind fun b => ?_
  · unfold Activities.flushProgress
    split
    · exact (inSync_statement (.notify _)).bind fun _ => Prog.uses_pure _ _
    · exact Prog.uses_pure _ _
  · split
    · exact Prog.uses_pure _ _
    · split
      · exact (inSync_throttleFeedback _).bind fun _ =>
          (inSync_classify _).bind fun _ => Prog.uses_pure _ _
      · refine (inSync_statement (.success _)).bind fun _ => ?_
        split
        · exact inSync_commitSynced written
        · exact Prog.uses_pure _ _

theorem inSync_admitted (unit : SyncUnit) :
    (a.admitted i conn connector unit).Uses (InSync i conn) := by
  refine Prog.Uses.bind ?_ fun r => ?_
  · refine (inSync_statement (.seed _ _)).bind fun r => ?_
    split
    · exact Prog.uses_pure _ _
    · refine (inSync_statement .acquire).bind fun r => ?_
      split <;> exact Prog.uses_pure _ _
  · split
    · exact Prog.uses_pure _ _
    · exact Prog.uses_pure _ _
    · refine Prog.Uses.bind ?_ fun r => (inSync_statement .release).bind fun _ =>
        Prog.uses_pure _ _
      exact ((uses_drain a connector unit).mono fun _ => InDrain.inSync).bind fun r =>
        inSync_finishUnit connector _ _

/-- **Once its connection is loaded, `SyncUnit` issues no other commands.** -/
theorem uses_syncLoaded : (a.syncLoaded i conn connector).Uses (InSync i conn) := by
  refine (inSync_statement .look).bind fun r => ?_
  split
  · exact Prog.uses_pure _ _
  · refine (inSync_statement (.status _)).bind fun r => ?_
    split
    · exact Prog.uses_pure _ _
    · refine (inSync_statement (.notify _)).bind fun _ =>
        (a.touchesTokens_clientFor conn).inSync.bind fun r => ?_
      split
      · exact (inSync_classify _).bind fun _ => Prog.uses_pure _ _
      · exact inSync_admitted a connector _

end SyncUnit

/-! ### The parts of `DiscoverUnits` -/

section Discovery

variable {conn}

theorem TouchesTokens.inPass {α : Type} {p : Program α} (h : TouchesTokens p) :
    p.Uses (InPass conn) := h.mono fun _ => .tokens

theorem inPass_statement {s : Statement} (h : InPass conn (.statement s)) :
    (statement s).Uses (InPass conn) := ⟨h, fun _ => trivial⟩

theorem inPass_classify (err : Err) :
    (Activities.classify conn "" err).Uses (InPass conn) := by
  unfold Activities.classify
  split
  · exact (inPass_statement (.reauth _)).bind fun _ =>
      (inPass_statement (.notify _)).bind fun _ => Prog.uses_pure _ _
  · exact Prog.uses_pure _ _
  · exact Prog.uses_pure _ _

theorem InReconcile.inPass {c : Cmd} (h : InReconcile conn c) : InPass conn c := by
  cases h with
  | finish hc =>
    cases hc with
    | tokens hc => exact .tokens hc
    | notify tenantID => exact .notify tenantID
    | total x n => exact .total x n
    | discovered => exact .discovered
  | mark x name kind g => exact .mark x name kind g
  | setStatus text => exact .setStatus text
  | sweep g => exact .sweep g
  | queue deadline => exact .queue deadline

theorem inReconcile_statement {s : Statement} (h : InReconcile conn (.statement s)) :
    (statement s).Uses (InReconcile conn) := ⟨h, fun _ => trivial⟩

theorem inReconcile_finishDiscovery (units : List SourceUnit) (swept : ℕ) :
    (Activities.finishDiscovery conn connector units swept).Uses (InReconcile conn) :=
  (Activities.uses_finishDiscovery conn connector units swept).mono fun _ => .finish

theorem inReconcile_sweep (units : List SourceUnit) (g : ℤ) :
    (Activities.sweep conn connector units g).Uses (InReconcile conn) := by
  refine (inReconcile_statement (.sweep _)).bind fun r => ?_
  split
  · exact Prog.uses_pure _ _
  · split
    · refine Prog.Uses.bind ⟨.finish (.tokens rfl), fun _ => trivial⟩ fun now =>
        (inReconcile_statement (.queue _)).bind fun r => ?_
      split
      · exact Prog.uses_pure _ _
      · exact inReconcile_finishDiscovery connector _ _
    · exact inReconcile_finishDiscovery connector _ _

/-- **Once the units of the source are listed, `DiscoverUnits` issues no other commands.** -/
theorem uses_reconcile (lastKnownGood : ℕ) (g : ℤ) (units : List SourceUnit) :
    (Activities.reconcile conn connector lastKnownGood g units).Uses (InReconcile conn) := by
  have hmark : (Activities.markUnits conn g units).Uses (InReconcile conn) :=
    (uses_markUnits conn g units).mono fun c hc => by
      obtain ⟨u, -, rfl⟩ := hc
      exact .mark _ _ _ _
  refine hmark.bind fun r => ?_
  split
  · exact Prog.uses_pure _ _
  · split
    · exact (inReconcile_statement (.setStatus _)).bind fun _ =>
        (inReconcile_statement (.finish (.notify _))).bind fun _ => Prog.uses_pure _ _
    · exact inReconcile_sweep connector _ _

/-- **Once its connection is loaded, `DiscoverUnits` issues no other commands.** -/
theorem uses_discoverLoaded : (a.discoverLoaded conn connector).Uses (InPass conn) := by
  refine (inPass_statement .count).bind fun r => ?_
  split
  · exact Prog.uses_pure _ _
  · refine (inPass_statement .max).bind fun r => ?_
    split
    · exact Prog.uses_pure _ _
    · refine (a.touchesTokens_clientFor conn).inPass.bind fun r => ?_
      split
      · exact (inPass_classify _).bind fun _ => Prog.uses_pure _ _
      · refine (touchesTokens_fetch _).inPass.bind fun r => ?_
        split
        · exact (inPass_classify _).bind fun _ => Prog.uses_pure _ _
        · exact (uses_reconcile connector _ _ _).mono fun _ => InReconcile.inPass

end Discovery

/-! ### The settle -/

/-- **The settle issues no other commands.** -/
theorem uses_settleConnection (id : Uuid) :
    (Activities.settleConnection id).Uses fun c => c.settles = true := by
  refine ⟨rfl, fun r => ?_⟩
  cases r with
  | error e => trivial
  | ok n =>
    refine ⟨rfl, fun r => ?_⟩
    cases r with
    | error e => trivial
    | ok conn =>
      dsimp only [Prog.pure_bind]
      refine Prog.Uses.bind ?_ fun r => ?_
      · unfold Activities.setConnectionSettled
        split
        · exact Prog.uses_pure _ _
        · refine ⟨rfl, fun r => ?_⟩
          cases r with
          | error e => trivial
          | ok _ => exact ⟨rfl, fun _ => trivial⟩
      · split <;> exact Prog.uses_pure _ _

/-! ### The other jobs -/

section Routine

/-- A program that issues routine commands only. -/
def Routine {α : Type} (p : Program α) : Prop := p.Uses fun c => c.routine = true

/-- A program that issues routine commands only, and collects no unit. -/
def Ordinary {α : Type} (p : Program α) : Prop := p.Uses fun c => c.ordinary = true

/-- A program that issues minor commands only. -/
def Minor {α : Type} (p : Program α) : Prop := p.Uses fun c => c.minor = true

theorem Minor.ordinary {α : Type} {p : Program α} (h : Minor p) : Ordinary p :=
  h.mono fun _ => ordinary_of_minor

theorem Minor.bind {α β : Type} {p : Program α} {f : α → Program β} (h : Minor p)
    (hf : ∀ r, Minor (f r)) : Minor (p.bind f) := Prog.Uses.bind h hf

theorem minor_pure {α : Type} (r : α) : Minor (Prog.pure r) := trivial

theorem minor_issue {c : Cmd} (h : c.minor = true) :
    Minor (Prog.issue c : Program c.Resp) := ⟨h, fun _ => trivial⟩

theorem minor_statement {s : Statement} (h : (Cmd.statement s).minor = true) :
    Minor (statement s) := ⟨h, fun _ => trivial⟩

theorem Ordinary.bind {α β : Type} {p : Program α} {f : α → Program β} (h : Ordinary p)
    (hf : ∀ r, Ordinary (f r)) : Ordinary (p.bind f) := Prog.Uses.bind h hf

theorem Ordinary.routine {α : Type} {p : Program α} (h : Ordinary p) : Routine p :=
  h.mono fun _ => routine_of_ordinary

theorem ordinary_pure {α : Type} (r : α) : Ordinary (Prog.pure r) := trivial

theorem ordinary_issue {c : Cmd} (h : c.ordinary = true) :
    Ordinary (Prog.issue c : Program c.Resp) := ⟨h, fun _ => trivial⟩

theorem ordinary_statement {s : Statement} (h : (Cmd.statement s).ordinary = true) :
    Ordinary (statement s) := ⟨h, fun _ => trivial⟩

theorem minor_purgeArtifacts (limit : ℤ) : Minor (Activities.purgeArtifacts limit) := by
  refine (purges_purgeArtifacts limit).mono fun c hc => ?_
  cases c with
  | statement s => cases s <;> first | rfl | cases hc
  | deleteObject _ _ => rfl
  | _ => cases hc

theorem minor_checkPurgeSLA : Minor Activities.checkPurgeSLA := by
  refine (minor_issue rfl).bind fun _ => (minor_statement rfl).bind fun r => ?_
  split <;> exact minor_pure _

theorem minor_startRun (id : Uuid) : Minor (Activities.startRun id) := by
  refine (minor_statement rfl).bind fun r => ?_
  split
  · exact minor_pure _
  · refine (minor_statement rfl).bind fun r => ?_
    split
    · exact minor_pure _
    · refine (minor_statement rfl).bind fun r => ?_
      split
      · exact minor_pure _
      · exact (minor_statement rfl).bind fun _ => minor_pure _

theorem minor_currentLimit (k : Scope) : Minor (currentLimit k) := by
  refine (minor_statement rfl).bind fun r => ?_
  split <;> exact minor_pure _

theorem minor_capacity (id : Uuid) (tenantID connectorID : String) :
    Minor (a.capacity id tenantID connectorID) := by
  unfold Activities.capacity
  split
  · exact minor_pure _
  · refine (minor_currentLimit _).bind fun r => ?_
    split
    · exact minor_pure _
    · refine Minor.bind (minor_statement rfl) fun r => ?_
      split
      · exact minor_pure _
      · refine (minor_currentLimit _).bind fun r => ?_
        split <;> exact minor_pure _

theorem minor_uninstallApp (sv : Server) : Minor (sv.uninstallApp conn) := by
  have huninstall : ∀ removed id, Minor (Server.uninstall removed id) := by
    intro removed id
    unfold Server.uninstall
    split
    · exact minor_pure _
    · exact (minor_issue rfl).bind fun _ => minor_pure _
  unfold Server.uninstallApp
  dsimp only
  split
  · split
    · exact minor_pure _
    · refine (huninstall _ _).bind fun removed => ?_
      split
      · refine (minor_issue rfl).bind fun r => ?_
        split
        · exact minor_pure _
        · exact (huninstall _ _).bind fun _ => minor_pure _
      · exact minor_pure _
  · exact minor_pure _

theorem minor_disconnect (sv : Server) (tenant : Option String) (id : Uuid) :
    Minor (sv.disconnect tenant id) := by
  unfold Server.disconnect
  split
  · exact minor_pure _
  · refine (minor_statement rfl).bind fun r => ?_
    split
    · exact minor_pure _
    · refine (minor_statement rfl).bind fun r => ?_
      split
      · exact minor_pure _
      · split
        · exact minor_pure _
        · exact (minor_statement rfl).bind fun _ => (minor_statement rfl).bind fun _ =>
            (minor_issue rfl).bind fun _ => (minor_statement rfl).bind fun _ =>
              (minor_uninstallApp _ sv).bind fun _ => minor_pure _

theorem ordinary_saveConnection (p : Database.UpsertConnectionParams) :
    Ordinary (Server.saveConnection p) := by
  refine (ordinary_statement rfl).bind fun r => ?_
  split
  · exact ordinary_pure _
  · exact (ordinary_statement rfl).bind fun _ => (ordinary_issue rfl).bind fun _ => ordinary_pure _

theorem ordinary_completeConnection (sv : Server) (state code inst : String) :
    Ordinary (sv.completeConnection state code inst) := by
  refine (ordinary_issue rfl).bind fun now => ?_
  split
  · exact ordinary_pure _
  · split
    · exact ordinary_pure _
    · dsimp only
      split
      · unfold Server.completeInstallation
        split
        · exact ordinary_pure _
        · exact (ordinary_issue rfl).bind fun _ => ordinary_saveConnection _
      · refine (ordinary_issue rfl).bind fun r => ?_
        split
        · exact ordinary_pure _
        · refine (ordinary_issue rfl).bind fun _ => ?_
          split
          · exact ordinary_saveConnection _
          · exact ordinary_pure _

theorem ordinary_completeTokenConnection (sv : Server) (tenant : Option String)
    (region connectorID token name : String) :
    Ordinary (sv.completeTokenConnection tenant region connectorID token name) := by
  unfold Server.completeTokenConnection
  split
  · exact ordinary_pure _
  · split
    · exact ordinary_pure _
    · refine (ordinary_issue rfl).bind fun r => ?_
      split
      · exact ordinary_pure _
      · split
        · exact ordinary_saveConnection _
        · exact ordinary_pure _

theorem minor_setProjectSelection (tenant : Option String) (id : Uuid) (selected : List String) :
    Minor (Server.setProjectSelection tenant id selected) := by
  unfold Server.setProjectSelection
  split
  · exact minor_pure _
  · refine (minor_statement rfl).bind fun r => ?_
    split
    · exact minor_pure _
    · refine (minor_statement rfl).bind fun r => ?_
      split
      · exact minor_pure _
      · refine (minor_statement rfl).bind fun r => ?_
        split
        · exact minor_pure _
        · exact (minor_statement rfl).bind fun _ => (minor_statement rfl).bind fun _ =>
            (minor_issue rfl).bind fun _ => (minor_statement rfl).bind fun _ => minor_pure _

/-- The collection of removed units reads the clock first, and drops no unit that was touched in
the grace period before. -/
theorem uses_gcConnections (cutoff : Time) (ids : List Uuid) (total : ℕ) :
    (Activities.gcConnections cutoff total ids).Uses
      fun c => ∃ id, c = .statement (.gcRemovedUnits id cutoff) := by
  induction ids generalizing total with
  | nil => exact Prog.uses_pure _ _
  | cons id ids ih =>
    refine Prog.Uses.bind ⟨⟨id, rfl⟩, fun _ => trivial⟩ fun r => ?_
    split
    · exact Prog.uses_pure _ _
    · exact ih _

theorem routine_gcRemovedUnits : Routine Activities.gcRemovedUnits := by
  refine Prog.Uses.bind ⟨rfl, fun _ => trivial⟩ fun now =>
    Prog.Uses.bind ⟨rfl, fun _ => trivial⟩ fun r => ?_
  split
  · exact Prog.uses_pure _ _
  · refine (uses_gcConnections _ _ _).mono ?_
    rintro c ⟨id, rfl⟩
    rfl

/-- The other jobs, but for the collection and the connect flows, issue minor commands. -/
theorem Job.minor (sv : Server) {j : Job} (hj : j.isRoutine = true)
    (hgc : j ≠ .upkeep .gcRemovedUnits) (hconnects : j.connects = false) :
    Minor (j.prog a sv) := by
  cases j with
  | upkeep u =>
    cases u with
    | discoverUnits id => cases hj
    | purgeArtifacts limit => exact uses_discard (minor_purgeArtifacts limit)
    | checkPurgeSLA => exact uses_discard minor_checkPurgeSLA
    | gcRemovedUnits => exact absurd rfl hgc
  | syncUnit i => cases hj
  | startRun id => exact uses_discard (minor_startRun id)
  | settleConnection id => cases hj
  | nextUnitBatch id limit =>
    refine uses_discard ((minor_statement rfl).bind fun r => ?_)
    split <;> exact minor_pure _
  | capacity id tenantID connectorID =>
    exact uses_discard (minor_capacity a id tenantID connectorID)
  | markConnectionPurge id tenantID =>
    refine uses_discard ((minor_statement rfl).bind fun r => ?_)
    split <;> exact minor_pure _
  | disconnect tenant id => exact uses_discard (minor_disconnect sv tenant id)
  | completeConnection state code inst => cases hconnects
  | completeTokenConnection tenant region connectorID token name => cases hconnects
  | setProjectSelection tenant id selected =>
    exact uses_discard (minor_setProjectSelection tenant id selected)

/-- The other jobs, but for the collection, issue ordinary commands. -/
theorem Job.ordinary (sv : Server) {j : Job} (hj : j.isRoutine = true)
    (hgc : j ≠ .upkeep .gcRemovedUnits) : Ordinary (j.prog a sv) := by
  cases hconnects : j.connects with
  | false => exact (Job.minor a sv hj hgc hconnects).ordinary
  | true =>
    cases j with
    | completeConnection state code inst =>
      exact uses_discard (ordinary_completeConnection sv state code inst)
    | completeTokenConnection tenant region connectorID token name =>
      exact uses_discard (ordinary_completeTokenConnection sv tenant region connectorID token name)
    | _ => cases hconnects

/-- **The other jobs issue routine commands.** -/
theorem Job.routine (sv : Server) {j : Job} (hj : j.isRoutine = true) : Routine (j.prog a sv) := by
  by_cases hgc : j = .upkeep .gcRemovedUnits
  · subst hgc
    exact uses_discard routine_gcRemovedUnits
  · exact (Job.ordinary a sv hj hgc).routine

end Routine

end Hivebook
