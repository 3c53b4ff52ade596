import Hivebook.Activity.SyncUnit
import Hivebook.Activity.Run
import Hivebook.Activity.Erasure
import Hivebook.Database.Manifest
import Hivebook.Server.Handlers

/-!
# Plain programs

Most commands touch neither the manifest nor object storage nor a slot of the
limiter.  They are *plain*, and so is a program that issues no others.  What the
remaining commands do, and when they are issued, is the subject of the protocols;
here the plain parts of every activity and handler are set aside once.

## Main definitions

* `Cmd.plain`, `Plain`.
* `Cmd.steady`, `Steady` — plain, and without a look at a unit or a write to its cursor.
* `Cmd.silent`, `Silent` — steady, and without a request for a page of a listing.
* `Cmd.touchesTokens`, `TouchesTokens` — without a write but of the tokens of a connection;
  `Cmd.signsIn`, `SignsIn` — and without a request for a page of a listing.
* `InFinish conn c` — the commands at the end of a healthy discovery.

## Main results

* `Statement.plain_artifacts`, `Statement.plain_inFlight` — **a plain statement
  leaves the manifest and the slots alone.**
* `signsIn_clientFor`, `silent_classify`, `silent_finishUnit`, `plain_emitUnchanged`, …
  — which programs are which.
-/

namespace Hivebook

open Connectors Admission

/-- A statement that neither reads the outbox nor changes the manifest or the slots
taken. -/
def Statement.plain : Statement → Bool
  | .softDeleteConnectionArtifacts _ _ | .undeleteConnectionArtifacts _ _
  | .softDeleteDeselectedUnitArtifacts _ | .undeleteSelectedUnitArtifacts _
  | .commitArtifact _ _ _ | .listPurgePendingArtifacts _ | .confirmArtifactDeletes _
  | .markConnectionArtifactsPurgePending _ _ | .markRemovedUnitArtifactsPurgePending _ _
  | .acquireAdmission _ | .releaseAdmission _ => false
  | _ => true

/-- A command that touches neither the manifest nor object storage nor a slot. -/
def Cmd.plain : Cmd → Bool
  | .putObject _ _ _ _ | .deleteObject _ _ => false
  | .statement s => s.plain
  | .ctxErr | .clock | .request _ | .signalWorkflow _ _ => true

/-- A program that issues plain commands only. -/
def Plain {α : Type} (p : Program α) : Prop := p.Uses fun c => c.plain = true

/-- A plain statement that neither reads a unit nor changes a cursor or a kind. -/
def Statement.steady : Statement → Bool
  | .getSyncUnit _ _ | .setUnitCursor _ _ _ | .upsertSyncUnit _ _ _ _ _ => false
  | s => s.plain

/-- A plain command that neither reads a unit nor changes a cursor or a kind. -/
def Cmd.steady : Cmd → Bool
  | .statement s => s.steady
  | c => c.plain

/-- A program that issues steady commands only. -/
def Steady {α : Type} (p : Program α) : Prop := p.Uses fun c => c.steady = true

/-- A steady command that asks for no page of a listing. -/
def Cmd.silent : Cmd → Bool
  | .request q => !q.isListing
  | c => c.steady

/-- A program that issues silent commands only. -/
def Silent {α : Type} (p : Program α) : Prop := p.Uses fun c => c.silent = true

/-- A command that changes nothing but the tokens of a connection. -/
def Cmd.touchesTokens : Cmd → Bool
  | .ctxErr | .clock | .request _ | .statement (.getConnectionByID _)
  | .statement (.updateTokens _ _ _ _) | .statement (.updateAccessToken _ _ _) => true
  | _ => false

/-- A program that changes nothing but the tokens of a connection. -/
def TouchesTokens {α : Type} (p : Program α) : Prop := p.Uses fun c => c.touchesTokens = true

/-- The same, and it asks for no page of a listing. -/
def Cmd.signsIn : Cmd → Bool
  | .request q => !q.isListing
  | c => c.touchesTokens

/-- A program that only gets a connection ready for use. -/
def SignsIn {α : Type} (p : Program α) : Prop := p.Uses fun c => c.signsIn = true

/-- The commands at the end of a healthy discovery. -/
inductive InFinish (conn : Connection) : Cmd → Prop
  | tokens {c : Cmd} : c.touchesTokens = true → InFinish conn c
  | notify (tenantID : String) : InFinish conn (.statement (.notifyConnectionChanged tenantID))
  | total (x : String) (n : ℤ) : InFinish conn (.statement (.setUnitTotal conn.id x n))
  | discovered : InFinish conn (.statement (.setCatalogDiscovered conn.id))

/-! ### What plain statements leave alone -/

/-- The slots taken of a bucket; a bucket that was never seeded has none. -/
def Database.inFlight (db : Database) (k : Scope) : ℕ :=
  ((db.buckets k).map AdmissionBucket.inFlight).getD 0

theorem inFlight_updateBucket (db : Database) (k k' : Scope)
    (f : AdmissionBucket → AdmissionBucket) (hf : ∀ b, (f b).inFlight = b.inFlight) :
    (db.updateBucket k f).inFlight k' = db.inFlight k' := by
  unfold Database.inFlight Database.updateBucket
  by_cases h : k' = k
  · subst h
    cases db.buckets k' with
    | none => simp
    | some b => simp [hf]
  · simp [Function.update_of_ne h]

theorem inFlight_seed (db : Database) (k k' : Scope) (connectorID : String) (limit : ℤ) :
    (Database.seedAdmissionBucket k connectorID limit db).inFlight k' = db.inFlight k' := by
  unfold Database.seedAdmissionBucket Database.inFlight
  cases hk : db.buckets k with
  | some b => rfl
  | none =>
    by_cases h : k' = k
    · subst h
      simp [hk]
    · simp [Function.update_of_ne h]

/-- **A plain statement leaves the manifest alone.** -/
theorem Statement.plain_artifacts {s : Statement} (h : s.plain = true) (now : Time)
    (db : Database) : (s.exec now db).2.artifacts = db.artifacts := by
  refine artifacts_exec now db ?_
  cases s <;> first | rfl | cases h

/-- **A plain statement leaves the slots alone.** -/
theorem Statement.plain_inFlight {s : Statement} (h : s.plain = true) (now : Time)
    (db : Database) (k : Scope) : (s.exec now db).2.inFlight k = db.inFlight k := by
  cases s with
  | seedAdmissionBucket k' connectorID limit => exact inFlight_seed db k' k connectorID limit
  | admissionAdditiveIncrease k' limit =>
    refine inFlight_updateBucket db k' k _ fun b => ?_
    split <;> rfl
  | admissionMultiplicativeDecrease k' cooldown =>
    exact inFlight_updateBucket db k' k _ fun b => rfl
  | _ => first | rfl | cases h

/-- A plain command leaves the manifest alone. -/
theorem artifacts_perform {c : Cmd} (hc : c.plain = true) (x : Choice) (b : Bool) (w : World) :
    (service.perform x b w c).1.db.artifacts = w.db.artifacts := by
  rw [service_db]
  cases c with
  | statement s =>
    show (if x.takesEffect b = true then _ else _ : Database).artifacts = _
    split
    · exact Statement.plain_artifacts hc _ _
    · rfl
  | _ => rfl

/-- A plain program leaves the manifest alone. -/
theorem Plain.artifacts {α : Type} {p : Program α} {b b' : Bool} {w w' : World}
    {ls : List (Performed World Choice Cmd)} {r : α} (hp : Plain p)
    (h : service.Returns p b w ls r b' w') : w'.db.artifacts = w.db.artifacts := by
  refine h.keeps (K := fun w₁ => w₁.db.artifacts = w.db.artifacts)
    (hp.mono fun c hc x b w₁ heq => ?_) rfl
  rw [artifacts_perform hc, heq]

/-- No command removes a connection or changes its key. -/
theorem hasConnection_perform {w : World} {id : Uuid} {key : String × String × String}
    (h : w.db.HasConnection id key) (x : Choice) (b : Bool) (c : Cmd) :
    (service.perform x b w c).1.db.HasConnection id key := by
  rw [service_db]
  cases c with
  | statement s =>
    show Database.HasConnection (if x.takesEffect b = true then _ else _) id key
    split
    · exact hasConnection_exec _ s h
    · exact h
  | _ => exact h

/-! ### Building plain programs -/

@[simp] theorem plain_pure {α : Type} (a : α) : Plain (Prog.pure a) := trivial

theorem Plain.bind {α β : Type} {p : Program α} {f : α → Program β} (h : Plain p)
    (hf : ∀ a, Plain (f a)) : Plain (p.bind f) := Prog.Uses.bind h hf

theorem plain_ctxErr : Plain ctxErr := ⟨rfl, fun _ => trivial⟩

theorem plain_clock : Plain clock := ⟨rfl, fun _ => trivial⟩

theorem plain_statement {s : Statement} (h : s.plain = true) : Plain (statement s) :=
  ⟨h, fun _ => trivial⟩

theorem plain_request (q : Request) : Plain (request q) := ⟨rfl, fun _ => trivial⟩

theorem plain_of_steady {c : Cmd} (h : c.steady = true) : c.plain = true := by
  cases c with
  | statement s => cases s <;> first | exact h | cases h
  | _ => exact h

theorem Steady.plain {α : Type} {p : Program α} (h : Steady p) : Plain p :=
  h.mono fun _ hc => plain_of_steady hc

@[simp] theorem steady_pure {α : Type} (a : α) : Steady (Prog.pure a) := trivial

theorem Steady.bind {α β : Type} {p : Program α} {f : α → Program β} (h : Steady p)
    (hf : ∀ a, Steady (f a)) : Steady (p.bind f) := Prog.Uses.bind h hf

theorem steady_ctxErr : Steady ctxErr := ⟨rfl, fun _ => trivial⟩

theorem steady_clock : Steady clock := ⟨rfl, fun _ => trivial⟩

theorem steady_statement {s : Statement} (h : s.steady = true) : Steady (statement s) :=
  ⟨h, fun _ => trivial⟩

theorem steady_request (q : Request) : Steady (request q) := ⟨rfl, fun _ => trivial⟩

theorem steady_of_silent {c : Cmd} (h : c.silent = true) : c.steady = true := by
  cases c with
  | request q => rfl
  | _ => exact h

theorem Silent.steady {α : Type} {p : Program α} (h : Silent p) : Steady p :=
  h.mono fun _ hc => steady_of_silent hc

@[simp] theorem silent_pure {α : Type} (a : α) : Silent (Prog.pure a) := trivial

theorem Silent.bind {α β : Type} {p : Program α} {f : α → Program β} (h : Silent p)
    (hf : ∀ a, Silent (f a)) : Silent (p.bind f) := Prog.Uses.bind h hf

theorem silent_ctxErr : Silent ctxErr := ⟨rfl, fun _ => trivial⟩

theorem silent_clock : Silent clock := ⟨rfl, fun _ => trivial⟩

theorem silent_statement {s : Statement} (h : s.steady = true) : Silent (statement s) :=
  ⟨h, fun _ => trivial⟩

theorem steady_of_touchesTokens {c : Cmd} (h : c.touchesTokens = true) : c.steady = true := by
  cases c with
  | statement s => cases s <;> first | rfl | cases h
  | putObject _ _ _ _ => cases h
  | deleteObject _ _ => cases h
  | _ => rfl

theorem TouchesTokens.steady {α : Type} {p : Program α} (h : TouchesTokens p) : Steady p :=
  h.mono fun _ hc => steady_of_touchesTokens hc

@[simp] theorem touchesTokens_pure {α : Type} (a : α) : TouchesTokens (Prog.pure a) := trivial

theorem TouchesTokens.bind {α β : Type} {p : Program α} {f : α → Program β} (h : TouchesTokens p)
    (hf : ∀ a, TouchesTokens (f a)) : TouchesTokens (p.bind f) := Prog.Uses.bind h hf

theorem touchesTokens_request (q : Request) : TouchesTokens (request q) :=
  ⟨rfl, fun _ => trivial⟩

theorem touchesTokens_of_signsIn {c : Cmd} (h : c.signsIn = true) : c.touchesTokens = true := by
  cases c with
  | request q => rfl
  | _ => exact h

theorem SignsIn.touchesTokens {α : Type} {p : Program α} (h : SignsIn p) : TouchesTokens p :=
  h.mono fun _ hc => touchesTokens_of_signsIn hc

theorem SignsIn.silent {α : Type} {p : Program α} (h : SignsIn p) : Silent p := by
  refine h.mono fun c hc => ?_
  cases c with
  | request q => exact hc
  | statement s => exact steady_of_touchesTokens (touchesTokens_of_signsIn hc)
  | putObject _ _ _ _ => cases hc
  | deleteObject _ _ => cases hc
  | _ => rfl

@[simp] theorem signsIn_pure {α : Type} (a : α) : SignsIn (Prog.pure a) := trivial

theorem SignsIn.bind {α β : Type} {p : Program α} {f : α → Program β} (h : SignsIn p)
    (hf : ∀ a, SignsIn (f a)) : SignsIn (p.bind f) := Prog.Uses.bind h hf

theorem signsIn_clock : SignsIn clock := ⟨rfl, fun _ => trivial⟩

theorem signsIn_request {q : Request} (h : q.isListing = false) : SignsIn (request q) :=
  ⟨by simp [Cmd.signsIn, h], fun _ => trivial⟩

theorem signsIn_statement {s : Statement} (h : (Cmd.statement s).signsIn = true) :
    SignsIn (statement s) := ⟨h, fun _ => trivial⟩

/-- Whatever a connector does to list units, it changes nothing. -/
theorem touchesTokens_fetch {α : Type} (p : FetchProg α) : TouchesTokens (fetch p) := by
  refine TouchesTokens.bind (Prog.Uses.handle ?_ p ()) fun _ => touchesTokens_pure _
  intro c _
  cases c with
  | ctxErr => exact ⟨rfl, fun _ => trivial⟩
  | request q => exact (touchesTokens_request q).bind fun _ => touchesTokens_pure _

/-! ### The plain parts of the limiter and of the activities -/

theorem silent_recordSuccess (k : Scope) (limit : ℤ) : Silent (recordSuccess k limit) :=
  silent_statement rfl

theorem silent_recordThrottle (k : Scope) (retryAfter : ℤ) :
    Silent (recordThrottle k retryAfter) := by
  unfold recordThrottle
  split
  · exact silent_clock.bind fun _ => silent_statement rfl
  · exact silent_statement rfl

theorem steady_recordSuccess (k : Scope) (limit : ℤ) : Steady (recordSuccess k limit) :=
  (silent_recordSuccess k limit).steady

theorem steady_currentLimit (k : Scope) : Steady (currentLimit k) := by
  refine (steady_statement rfl).bind fun r => ?_
  split <;> exact steady_pure _

namespace Activities

variable (a : Activities)

theorem signsIn_loadConnection (id : Uuid) : SignsIn (a.loadConnection id) := by
  refine (signsIn_statement rfl).bind fun r => ?_
  split
  · exact signsIn_pure _
  · split <;> exact signsIn_pure _

theorem signsIn_persistRotatedToken (connID : Uuid) (tok : OAuthToken) :
    SignsIn (a.persistRotatedToken connID tok) := by
  unfold persistRotatedToken
  split
  · exact signsIn_pure _
  · split
    · exact signsIn_statement rfl
    · split
      · exact signsIn_pure _
      · exact signsIn_statement rfl

theorem signsIn_rotate (conn : Connection) (refresh : String) :
    SignsIn (a.rotate conn refresh) := by
  unfold rotate
  split
  · exact signsIn_pure _
  · refine (signsIn_request rfl).bind fun r => ?_
    split
    · exact signsIn_pure _
    · refine (a.signsIn_persistRotatedToken _ _).bind fun r => ?_
      split <;> exact signsIn_pure _

theorem signsIn_rotateLocked (conn : Connection) (access refresh : String) :
    SignsIn (a.rotateLocked conn access refresh) := by
  refine (signsIn_statement rfl).bind fun r => ?_
  split
  · exact a.signsIn_rotate _ _
  · refine signsIn_clock.bind fun now => ?_
    split
    · exact signsIn_pure _
    · exact a.signsIn_rotate _ _

theorem signsIn_refreshedAccessToken (conn : Connection) :
    SignsIn (a.refreshedAccessToken conn) := by
  unfold refreshedAccessToken
  split
  · exact signsIn_pure _
  · split
    · exact signsIn_pure _
    · split
      · exact signsIn_pure _
      · refine signsIn_clock.bind fun now => ?_
        split
        · exact signsIn_pure _
        · exact a.signsIn_rotateLocked _ _ _

/-- Building a client rotates tokens at most. -/
theorem signsIn_clientFor (conn : Connection) : SignsIn (a.clientFor conn) := by
  unfold clientFor
  dsimp only
  split
  · split
    · exact signsIn_pure _
    · exact signsIn_request rfl
  · exact a.signsIn_refreshedAccessToken conn

theorem touchesTokens_loadConnection (id : Uuid) : TouchesTokens (a.loadConnection id) :=
  (a.signsIn_loadConnection id).touchesTokens

theorem touchesTokens_clientFor (conn : Connection) : TouchesTokens (a.clientFor conn) :=
  (a.signsIn_clientFor conn).touchesTokens

theorem silent_armBackoff (conn : Connection) (unitID : String) (err : Err) :
    Silent (armBackoff conn unitID err) := by
  unfold armBackoff
  split
  · exact silent_pure _
  · exact silent_clock.bind fun _ => (silent_statement rfl).bind fun _ =>
      (silent_statement rfl).bind fun _ => silent_pure _

/-- Classifying an error is silent: it writes statuses. -/
theorem silent_classify (conn : Connection) (unitID : String) (err : Err) :
    Silent (classify conn unitID err) := by
  unfold classify
  split
  · exact (silent_statement rfl).bind fun _ => (silent_statement rfl).bind fun _ => silent_pure _
  · exact silent_pure _
  · exact (silent_armBackoff conn unitID _).bind fun _ => silent_pure _

theorem steady_classify (conn : Connection) (unitID : String) (err : Err) :
    Steady (classify conn unitID err) := (silent_classify conn unitID err).steady

theorem plain_emitUnchanged (i : SyncInput) (art : Artifact) (st : EmitState) :
    Plain (emitUnchanged i art st) := by
  unfold emitUnchanged
  split
  · exact (plain_statement rfl).bind fun _ => plain_pure _
  · exact plain_pure _

theorem silent_noteProgress (i : SyncInput) (written : ℕ) : Silent (noteProgress i written) := by
  unfold noteProgress
  split
  · exact (silent_statement rfl).bind fun _ => silent_pure _
  · exact silent_pure _

theorem silent_flushProgress (i : SyncInput) (written : ℕ) : Silent (flushProgress i written) := by
  unfold flushProgress
  split
  · exact (silent_statement rfl).bind fun _ => silent_pure _
  · exact silent_pure _

theorem silent_throttleFeedback (connectionID : Uuid) (e : Err) :
    Silent (throttleFeedback connectionID e) := by
  unfold throttleFeedback
  split
  · exact (silent_recordThrottle _ _).bind fun _ => silent_pure _
  · exact silent_pure _

theorem silent_commitSynced (i : SyncInput) (written : ℕ) : Silent (commitSynced i written) := by
  refine (silent_statement rfl).bind fun r => ?_
  split
  · exact silent_pure _
  · refine (silent_statement rfl).bind fun r => ?_
    split
    · exact silent_pure _
    · exact (silent_statement rfl).bind fun _ => (silent_statement rfl).bind fun _ => silent_pure _

/-- What follows the connector's drain is silent. -/
theorem silent_finishUnit (i : SyncInput) (conn : Connection) (connector : Connector)
    (result : Except Err Bool) (written : ℕ) :
    Silent (finishUnit i conn connector result written) := by
  refine (silent_flushProgress i written).bind fun _ => silent_ctxErr.bind fun b => ?_
  split
  · exact silent_pure _
  · split
    · exact (silent_throttleFeedback _ _).bind fun _ =>
        (silent_classify _ _ _).bind fun _ => silent_pure _
    · refine (silent_recordSuccess _ _).bind fun _ => ?_
      split
      · exact silent_commitSynced i written
      · exact silent_pure _

theorem steady_noteProgress (i : SyncInput) (written : ℕ) : Steady (noteProgress i written) :=
  (silent_noteProgress i written).steady

theorem steady_flushProgress (i : SyncInput) (written : ℕ) : Steady (flushProgress i written) :=
  (silent_flushProgress i written).steady

theorem steady_throttleFeedback (connectionID : Uuid) (e : Err) :
    Steady (throttleFeedback connectionID e) := (silent_throttleFeedback connectionID e).steady

theorem steady_commitSynced (i : SyncInput) (written : ℕ) : Steady (commitSynced i written) :=
  (silent_commitSynced i written).steady

theorem steady_finishUnit (i : SyncInput) (conn : Connection) (connector : Connector)
    (result : Except Err Bool) (written : ℕ) :
    Steady (finishUnit i conn connector result written) :=
  (silent_finishUnit i conn connector result written).steady

theorem steady_nextUnitBatch (id : Uuid) (limit : ℕ) : Steady (nextUnitBatch id limit) := by
  refine (steady_statement rfl).bind fun r => ?_
  split <;> exact steady_pure _

theorem steady_capacity (id : Uuid) (tenantID connectorID : String) :
    Steady (a.capacity id tenantID connectorID) := by
  unfold capacity
  split
  · exact steady_pure _
  · refine (steady_currentLimit _).bind fun r => ?_
    split
    · exact steady_pure _
    · refine Steady.bind (steady_statement rfl) fun r => ?_
      split
      · exact steady_pure _
      · refine (steady_currentLimit _).bind fun r => ?_
        split <;> exact steady_pure _

theorem steady_startRun (id : Uuid) : Steady (startRun id) := by
  refine (steady_statement rfl).bind fun r => ?_
  split
  · exact steady_pure _
  · refine (steady_statement rfl).bind fun r => ?_
    split
    · exact steady_pure _
    · refine (steady_statement rfl).bind fun r => ?_
      split
      · exact steady_pure _
      · exact (steady_statement rfl).bind fun _ => steady_pure _

theorem steady_setConnectionSettled (conn : Connection) (status : ConnectionStatus) :
    Steady (setConnectionSettled conn status) := by
  unfold setConnectionSettled
  split
  · exact steady_pure _
  · refine (steady_statement rfl).bind fun r => ?_
    split
    · exact steady_pure _
    · exact (steady_statement rfl).bind fun _ => steady_pure _

theorem steady_settleConnection (id : Uuid) : Steady (settleConnection id) := by
  refine (steady_statement rfl).bind fun r => ?_
  split
  · exact steady_pure _
  · refine (steady_statement rfl).bind fun r => ?_
    split
    · exact steady_pure _
    · refine (steady_setConnectionSettled _ _).bind fun r => ?_
      split <;> exact steady_pure _

theorem plain_markUnits (conn : Connection) (generation : ℤ) (units : List SourceUnit) :
    Plain (markUnits conn generation units) := by
  induction units with
  | nil => exact plain_pure _
  | cons u us ih =>
    refine (plain_statement rfl).bind fun r => ?_
    split
    · exact plain_pure _
    · exact ih

theorem steady_skipSweep (conn : Connection) (discovered lastKnownGood : ℕ) :
    Steady (skipSweep conn discovered lastKnownGood) :=
  (steady_statement rfl).bind fun _ => (steady_statement rfl).bind fun _ => steady_pure _

theorem inFinish_statement {conn : Connection} {s : Statement}
    (h : InFinish conn (.statement s)) : (statement s).Uses (InFinish conn) :=
  ⟨h, fun _ => trivial⟩

theorem inFinish_setTotals (conn : Connection) (totals : List (String × ℤ)) :
    (setTotals conn totals).Uses (InFinish conn) := by
  induction totals with
  | nil => exact Prog.uses_pure _ _
  | cons t ts ih => exact (inFinish_statement (.total _ _)).bind fun _ => ih

/-- **The end of a healthy discovery issues no other commands.** -/
theorem uses_finishDiscovery (conn : Connection) (connector : Connector)
    (units : List SourceUnit) (swept : ℕ) :
    (finishDiscovery conn connector units swept).Uses (InFinish conn) := by
  have htotals : (estimateTotals conn connector units).Uses (InFinish conn) := by
    refine Prog.Uses.bind ((touchesTokens_fetch _).mono fun _ => .tokens) fun r => ?_
    split
    · exact Prog.uses_pure _ _
    · exact inFinish_setTotals conn _
  refine htotals.bind fun _ => (inFinish_statement .discovered).bind fun r => ?_
  split
  · exact Prog.uses_pure _ _
  · exact (inFinish_statement (.notify _)).bind fun _ => Prog.uses_pure _ _

theorem steady_finishDiscovery (conn : Connection) (connector : Connector)
    (units : List SourceUnit) (swept : ℕ) :
    Steady (finishDiscovery conn connector units swept) := by
  refine (uses_finishDiscovery conn connector units swept).mono fun c hc => ?_
  cases hc with
  | tokens hc => exact steady_of_touchesTokens hc
  | _ => rfl

theorem steady_checkPurgeSLA : Steady checkPurgeSLA := by
  refine steady_clock.bind fun _ => (steady_statement rfl).bind fun r => ?_
  split <;> exact steady_pure _

theorem steady_gcConnections (cutoff : Time) (total : ℕ) (ids : List Uuid) :
    Steady (gcConnections cutoff total ids) := by
  induction ids generalizing total with
  | nil => exact steady_pure _
  | cons id ids ih =>
    refine (steady_statement rfl).bind fun r => ?_
    split
    · exact steady_pure _
    · exact ih _

theorem steady_gcRemovedUnits : Steady gcRemovedUnits := by
  refine steady_clock.bind fun _ => (steady_statement rfl).bind fun r => ?_
  split
  · exact steady_pure _
  · exact steady_gcConnections _ _ _

end Activities

namespace Server

variable (s : Server)

theorem steady_uninstall (removed : List String) (id : String) : Steady (uninstall removed id) := by
  unfold uninstall
  split
  · exact steady_pure _
  · exact (steady_request _).bind fun _ => steady_pure _

theorem steady_uninstallApp (conn : Connection) : Steady (s.uninstallApp conn) := by
  unfold uninstallApp
  dsimp only
  split
  · split
    · exact steady_pure _
    · refine (steady_uninstall _ _).bind fun removed => ?_
      split
      · refine (steady_request _).bind fun r => ?_
        split
        · exact steady_pure _
        · exact (steady_uninstall _ _).bind fun _ => steady_pure _
      · exact steady_pure _
  · exact steady_pure _

end Server

end Hivebook
