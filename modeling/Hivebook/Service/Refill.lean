import Hivebook.Service.Commands
import Hivebook.Service.HighWater

/-!
# A purge behind the cursor

The cursor of a unit vouches for the rows of everything that was updated before it.  A
disconnect and a purge pass take the rows away and leave the cursor where it is: the unit
is kept, and a reconnect of the same account finds it again.  Drains start from the cursor,
so what was purged behind it is not fetched again.

All jobs but discovery run here, one after another, against a source that does not change.

## Main definitions

* `Chore`, `Job.outcome` — the jobs, and what they return.
* `Job.drains i` — the job is a drain of the unit.
* `keepsBehind` — no row of an item behind the cursor is dropped.
* `Unchanging` — the source of the unit does not change.

## Main results

* `refills` — **if no row behind the cursor is ever dropped, a unit that a drain reports
  as done has a row for every item.**
* `purged_never_refilled` — a reconnected Drive whose first document is never synced again.
-/

namespace Hivebook

open Database Machine Storage Connectors

/-! ### The jobs -/

/-- Whether a job is a discovery. -/
def Job.isDiscovery : Job → Bool
  | .upkeep (.discoverUnits _) => true
  | _ => false

/-- The jobs of the service, discovery apart. -/
abbrev Chore := { j : Job // j.isDiscovery = false }

/-- A job, with what a drain returns. -/
def Job.outcome (a : Activities) (sv : Server) : Job → Program (Option SyncResult)
  | .syncUnit i => (a.syncUnit i).bind fun r => .pure r.toOption
  | j => (j.prog a sv).bind fun _ => .pure none

/-- Whether a job is a drain of the unit of an input. -/
def Job.drains (i : SyncInput) : Job → Bool
  | .syncUnit i' => decide (i'.connectionID = i.connectionID ∧ i'.unitID = i.unitID)
  | _ => false

/-- The command discovers no unit, and leaves the cursor of the unit alone. -/
def Cmd.aside (i : SyncInput) : Cmd → Prop
  | .statement s => (∀ id x name kind g, s ≠ .upsertSyncUnit id x name kind g) ∧
      s.cursorOf ≠ some (i.connectionID, i.unitID)
  | _ => True

/-- What the jobs that do not drain the unit may do.  They learn nothing. -/
def aside (i : SyncInput) : Protocol Progress Cmd Cmd.Resp where
  allowed g c := g = Progress.init ∧ c.aside i
  next g _ _ := g

/-- Statements that discover nothing and write no cursor. -/
def Statement.standsAside : Statement → Bool
  | .upsertSyncUnit _ _ _ _ _ | .setUnitCursor _ _ _ | .commitArtifact _ _ _ => false
  | _ => true

theorem aside_of_standsAside {s : Statement} (h : s.standsAside = true) (i : SyncInput) :
    (Cmd.statement s).aside i := by
  refine ⟨?_, ?_⟩
  · rintro id x name kind g rfl
    cases h
  · have hnone : s.cursorOf = none := by
      cases s <;> first | rfl | cases h
    rw [hnone]
    exact Option.some_ne_none _ ∘ Eq.symm

theorem aside_of_steady {c : Cmd} (hc : c.steady = true) (i : SyncInput) : c.aside i := by
  cases c with
  | statement s =>
    refine aside_of_standsAside ?_ i
    cases s <;> first | rfl | cases hc
  | _ => trivial

theorem aside_of_handles {c : Cmd} (hc : c.handles = true) (i : SyncInput) : c.aside i := by
  cases c with
  | statement s =>
    refine aside_of_standsAside ?_ i
    cases s <;> first | rfl | cases hc
  | _ => trivial

/-- A job issues no other commands when its result is kept. -/
theorem Job.uses_outcome (a : Activities) (sv : Server) (j : Job) :
    (j.outcome a sv).Uses j.Issues := by
  have hdiscard : ((j.prog a sv).bind fun _ => .pure (none : Option SyncResult)).Uses j.Issues :=
    (Job.uses a sv j).bind fun _ => Prog.uses_pure _ _
  cases j with
  | syncUnit i => exact (syncs_syncUnit a i).bind fun _ => Prog.uses_pure _ _
  | _ => exact hdiscard

/-- A job that does not drain the unit leaves its cursor alone. -/
theorem Job.aside_of_issues {i : SyncInput} {j : Job} {c : Cmd} (hj : j.isDiscovery = false)
    (hdrains : j.drains i = false) (hc : j.Issues c) : c.aside i := by
  cases j with
  | upkeep u =>
    cases u with
    | discoverUnits id => cases hj
    | purgeArtifacts limit =>
      cases c with
      | statement s =>
        refine aside_of_standsAside ?_ i
        cases s <;> first | rfl | cases hc
      | _ => trivial
    | checkPurgeSLA => exact aside_of_steady hc i
    | gcRemovedUnits => exact aside_of_steady hc i
  | syncUnit i' =>
    -- a drain of another unit writes the cursor of that unit
    have hother : ¬ (i'.connectionID = i.connectionID ∧ i'.unitID = i.unitID) :=
      of_decide_eq_false hdrains
    cases c with
    | statement s =>
      refine ⟨?_, fun hcursor => hother ?_⟩
      · rintro id x name kind g rfl
        cases hc
      · cases s with
        | setUnitCursor id unitID cursor =>
          obtain ⟨hid, hunit⟩ := Prod.mk.inj (Option.some.inj hcursor)
          exact ⟨hc.1.symm.trans hid, hc.2.symm.trans hunit⟩
        | commitArtifact p unitID cursor =>
          obtain ⟨hid, hunit⟩ := Prod.mk.inj (Option.some.inj hcursor)
          exact ⟨hc.1.symm.trans hid, hc.2.symm.trans hunit⟩
        | _ => cases hcursor
    | _ => trivial
  | startRun id => exact aside_of_steady hc i
  | settleConnection id => exact aside_of_steady hc i
  | nextUnitBatch id limit => exact aside_of_steady hc i
  | capacity id tenantID connectorID => exact aside_of_steady hc i
  | _ => exact aside_of_handles hc i

section Follows

variable (a : Activities) (sv : Server) (site : Connectors.Site) (i : SyncInput)
  (connectorID : String)

/-- The protocol of a job: a drain of the unit marks, the other jobs stand aside. -/
def Job.protocol (j : Job) : Protocol Progress Cmd Cmd.Resp :=
  if j.drains i then marking a.contentHash site i connectorID else aside i

/-- Two inputs for one unit mark alike. -/
theorem marking_congr {i i' : SyncInput} (h : ContentHash)
    (hid : i'.connectionID = i.connectionID) (hunit : i'.unitID = i.unitID) :
    marking h site i' connectorID = marking h site i connectorID := by
  obtain ⟨id, tenantID, name, unitID⟩ := i
  obtain ⟨id', tenantID', name', unitID'⟩ := i'
  cases hid
  cases hunit
  rfl

theorem caughtUp_congr {i i' : SyncInput} (g : Progress)
    (hid : i'.connectionID = i.connectionID) : g.caughtUp site i' ↔ g.caughtUp site i := by
  unfold Progress.caughtUp
  rw [hid]

variable {connectorID}

/-- **Every job follows its protocol**, and a drain of the unit that is done has caught
up. -/
theorem Job.follows_protocol {connector : Connector}
    (hreg : a.reg.get connectorID = some connector) (hsite : connector.syncUnit = site.syncUnit)
    (j : Job) (hj : j.isDiscovery = false) :
    (j.outcome a sv).Follows (j.protocol a site i connectorID)
      (fun r g => j.drains i = true → ∀ res, r = some res → res.done = true →
        g.caughtUp site i) Progress.init := by
  unfold Job.protocol
  by_cases hdrains : j.drains i = true
  · rw [if_pos hdrains]
    cases j with
    | syncUnit i' =>
      obtain ⟨hid, hunit⟩ := of_decide_eq_true hdrains
      rw [← marking_congr site connectorID a.contentHash hid hunit]
      refine (follows_marking a hreg hsite Progress.init).bind fun r g hr _ res hres hdone => ?_
      cases r with
      | error e => cases hres
      | ok res' =>
        cases hres
        exact (caughtUp_congr site g hid).mp (hr _ rfl hdone)
    | _ => cases hdrains
  · rw [if_neg hdrains]
    have huses : (j.outcome a sv).Uses (Cmd.aside i) :=
      (Job.uses_outcome a sv j).mono fun c hc => Job.aside_of_issues hj (by simpa using hdrains) hc
    have hinit : (j.outcome a sv).Follows (aside i) (fun _ g => g = Progress.init) Progress.init :=
      Prog.follows_of_uses (huses.mono fun c hc g hg => ⟨⟨hg, hc⟩, fun _ => hg⟩) rfl
    refine hinit.mono ?_
    exact fun _ _ _ hd => absurd hd hdrains

end Follows

/-! ### What the other jobs leave of the rows -/

/-- A row is dropped by a confirmation. -/
def dropped (ids : List Uuid) (r : RawArtifact) : Bool := decide (r.id ∈ ids) && r.purgePending

/-- A confirmation that takes effect drops no row of an item that was updated before the
persisted cursor of the unit. -/
def keepsBehind (site : Connectors.Site) (i : SyncInput) (x : Choice) (b : Bool) (w : World) :
    Cmd → Bool
  | .statement (.confirmArtifactDeletes ids) => !x.takesEffect b ||
      w.db.units.rows.all fun u => !u.is i.connectionID i.unitID || site.items.all fun e =>
        !decide (e.updatedAt < u.cursor) || w.db.artifacts.rows.all fun r =>
          !decide (r.key = (i.connectionID, e.externalID)) || !dropped ids r
  | _ => true

section Aside

variable {site : Connectors.Site} {i : SyncInput} {connectorID : String} {x : Choice} {b : Bool}
  {w : World}

/-- A row behind the cursor is there after a confirmation that keeps it. -/
theorem hasRow_confirm {ids : List Uuid} {u : SyncUnit} {e : Item}
    (hkeep : keepsBehind site i x b w (.statement (.confirmArtifactDeletes ids)) = true)
    (hx : x.takesEffect b = true) (hu : u ∈ w.db.units.rows)
    (his : u.is i.connectionID i.unitID = true) (he : e ∈ site.items)
    (hlt : e.updatedAt < u.cursor) (hrow : HasRow i w.db e) :
    HasRow i (confirmArtifactDeletes ids w.db).2 e := by
  obtain ⟨r, hr, hkey⟩ := List.mem_map.mp hrow
  simp only [keepsBehind, hx, Bool.not_true, Bool.false_or, List.all_eq_true, Bool.or_eq_true,
    Bool.not_eq_true', decide_eq_false_iff_not] at hkeep
  have hkept : dropped ids r = false := by
    rcases hkeep u hu with hnot | hall
    · rw [his] at hnot
      cases hnot
    · rcases hall e he with hge | hrows
      · exact absurd hlt hge
      · exact (hrows r hr).resolve_left fun hne => hne hkey
  refine List.mem_map.mpr ⟨r, Table.mem_delete.mpr ⟨hr, ?_⟩, hkey⟩
  exact hkept

/-- A statement of another job keeps the rows behind the cursor. -/
theorem Recorded.exec_aside (hrec : Recorded site i connectorID w Progress.init) {s : Statement}
    {now : Time} (hs : (Cmd.statement s).aside i) (hx : x.takesEffect b = true)
    (hkeep : keepsBehind site i x b w (.statement s) = true) {w' : World}
    (hw' : w'.db = (s.exec now w.db).2) : Recorded site i connectorID w' Progress.init := by
  refine ⟨?_, fun u' hu' his => ?_, fun u' hu' his e he hlt => ?_, trivial, fun k hk => ?_,
    fun s' hs' => ?_⟩
  · obtain ⟨tenantID, externalID, hconn⟩ := hrec.connection
    rw [hw']
    exact ⟨tenantID, externalID, hasConnection_exec _ s hconn⟩
  · rw [hw'] at hu'
    obtain ⟨u, hu, hkey, hsource, -⟩ := unit_step hs.1 hu'
    rw [hsource]
    exact hrec.unit u hu (is_congr hkey ▸ his)
  · rw [hw'] at hu' ⊢
    obtain ⟨u, hu, hkey, -, hcursor⟩ := unit_step hs.1 hu'
    have hisu : u.is i.connectionID i.unitID = true := is_congr hkey ▸ his
    rcases hcursor with hsame | ⟨-, hof⟩
    · rw [hsame] at hlt
      have hrow := hrec.below u hu hisu e he hlt
      by_cases hconfirm : ∃ ids, s = .confirmArtifactDeletes ids
      · obtain ⟨ids, rfl⟩ := hconfirm
        exact hasRow_confirm hkeep hx hu hisu he hlt hrow
      · exact key_mem_exec (fun ids heq => hconfirm ⟨ids, heq⟩) hrow
    · have hkey' : u'.key = (i.connectionID, i.unitID) := by
        simpa [SyncUnit.is, SyncUnit.key] using his
      exact absurd (hof.trans (congrArg some hkey')) hs.2
  · cases hk
  · cases hs'

/-- **One command of another job keeps the rows behind the cursor.** -/
theorem Recorded.step_aside (hrec : Recorded site i connectorID w Progress.init) {c : Cmd}
    (hc : c.aside i) (hkeep : keepsBehind site i x b w c = true) :
    Recorded site i connectorID (service.perform x b w c).1 Progress.init := by
  have htick := hrec.tick x.elapsed
  rw [service_state]
  by_cases hx : x.takesEffect b = true
  · rw [if_pos hx]
    cases c with
    | statement s => exact hrec.exec_aside hc hx hkeep rfl
    | putObject bucket key contentType body => exact { htick with }
    | deleteObject bucket key => exact { htick with }
    | _ => exact htick
  · rw [if_neg hx]
    exact htick

/-- One command of any job keeps the rows behind the cursor; what is learnt depends on
who issues it. -/
theorem Recorded.step_protocol {a : Activities} {j : Job} {g : Progress}
    (hrec : Recorded site i connectorID w g) {c : Cmd}
    (hc : (j.protocol a site i connectorID).allowed g c)
    (htrue : j.drains i = true → truthful site x b w c)
    (hkeep : keepsBehind site i x b w c = true) :
    Recorded site i connectorID (service.perform x b w c).1
      ((j.protocol a site i connectorID).next g c (service.perform x b w c).2) := by
  unfold Job.protocol at hc ⊢
  by_cases hdrains : j.drains i = true
  · rw [if_pos hdrains] at hc ⊢
    exact hrec.step hc (htrue hdrains)
  · rw [if_neg hdrains] at hc ⊢
    obtain ⟨rfl, haside⟩ := hc
    exact hrec.step_aside haside hkeep

end Aside

/-! ### Every sequence of jobs -/

/-- The drains of the unit see a source that does not change. -/
def Unchanging (site : Connectors.Site) (i : SyncInput)
    (s : Sequential World Chore Cmd Cmd.Resp (Option SyncResult)) : SeqEvent Chore Choice → Prop
  | .start _ => True
  | .turn t => ∀ j c k b, s.current = some (j, ⟨.call c k, b⟩) → j.1.drains i = true →
      truthful site t.choice (b || t.cancel) s.world c

/-- **A unit reported as done is complete**, in every sequence of drains, disconnects,
purge passes, reconnects and selections that drops no row behind the cursor, against a
source that does not change.  Any job may fail or crash at any point. -/
theorem refills (a : Activities) (sv : Server) (site : Connectors.Site) (i : SyncInput)
    {connectorID : String} {connector : Connector}
    (hreg : a.reg.get connectorID = some connector) (hsite : connector.syncUnit = site.syncUnit)
    {w : World} {es : List (SeqEvent Chore Choice)}
    {s : Sequential World Chore Cmd Cmd.Resp (Option SyncResult)}
    {tr : List (Performed World Choice Cmd)}
    (h : (service.sequential fun j : Chore => j.1.outcome a sv).RunWhere
      (fun s _ e => Unchanging site i s e ∧
        SeqMeets (fun x b w c => keepsBehind site i x b w c = true) s e) ⟨w, none⟩ es s tr)
    (hw : Recorded site i connectorID w Progress.init) :
    ∀ j b res, s.current = some (j, ⟨.pure (some res), b⟩) → j.1.drains i = true →
      res.done = true → ∀ e ∈ site.items, HasRow i s.world.db e := by
  obtain ⟨g, hrec, hcurrent⟩ := sequential_follows
    (P := fun j : Chore => j.1.protocol a site i connectorID)
    (Q := fun j r g => j.1.drains i = true → ∀ res, r = some res → res.done = true →
      g.caughtUp site i)
    (J := fun w g _ => Recorded site i connectorID w g) h
    (fun j => j.1.follows_protocol a sv site i hreg hsite j.2) hw
    (fun w g _ hrec => hrec.restart)
    (fun s tr t j c k b g hC hcur hallowed hrec =>
      hrec.step_protocol hallowed (hC.1 j c k b hcur) (hC.2 j c k b hcur))
  intro j b res hcur hdrains hdone e he
  have hcaught : g.caughtUp site i := hcurrent j _ hcur hdrains res rfl hdone
  exact hrec.hasRow_of_caughtUp hcaught he

/-! ### A Drive that is connected again -/

/-- Two documents, one updated after the other. -/
def docAndLater : List DriveFile :=
  [driveDoc, { driveDoc with id := "later", modifiedTime := "2" }]

theorem docAndLater_ascending :
    docAndLater.Pairwise fun a b => a.modifiedTime ≤ b.modifiedTime := by
  decide +kernel

/-- A Drive that holds them. -/
def twoDocs : Drive := { oneDoc with files := docAndLater, ascending := docAndLater_ascending }

-- the second document alone is listed from its own time on
example : (twoDocs.since "2").map DriveFile.id = ["later"] := by
  decide +kernel

/-- Two documents that were updated at one moment. -/
def docAndTwin : List DriveFile :=
  [driveDoc, { driveDoc with id := "twin" }]

theorem docAndTwin_ascending :
    docAndTwin.Pairwise fun a b => a.modifiedTime ≤ b.modifiedTime := by
  decide +kernel

/-- A Drive that holds them. -/
def twinDocs : Drive := { oneDoc with files := docAndTwin, ascending := docAndTwin_ascending }

/-- What a Drive of Ann's answers: her account, its listing in one page, and the documents. -/
def annsDriveAnswers (d : Drive) : (q : Request) → Except Err q.Reply
  | .driveFiles cursor _ _ => .ok { nextPageToken := "", files := d.since cursor }
  | .driveExport id => .ok (if id = "doc" then [] else [1])
  | q => annAnswers q

/-- A job, and turns in which nothing fails. -/
def chore (d : Drive) (j : Chore) (n : ℕ) : List (SeqEvent Chore Choice) :=
  .start j :: List.replicate n (.turn ⟨false, quietly (annsDriveAnswers d)⟩)

/-- A drain of the unit has returned that it is done. -/
def drainDone (s : Sequential World Chore Cmd Cmd.Resp (Option SyncResult)) : Bool :=
  match s.current with
  | some (j, ⟨.pure (some res), _⟩) => j.1.drains driveInput && res.done
  | _ => false

theorem drained_of_drainDone {s : Sequential World Chore Cmd Cmd.Resp (Option SyncResult)}
    (h : drainDone s = true) : ∃ j b res, s.current = some (j, ⟨.pure (some res), b⟩) ∧
      j.1.drains driveInput = true ∧ res.done = true := by
  unfold drainDone at h
  split at h
  · rename_i j res b hcur
    rw [Bool.and_eq_true] at h
    exact ⟨j, b, res, hcur, h.1, h.2⟩
  · cases h

/-- The source of Ann's unit. -/
abbrev annsSite (d : Drive) : Connectors.Site := .drive newGoogleDocs d

/-- Her Drive does not change. -/
theorem unchanging_chore {d : Drive} (hd : ∀ cursor token, d.offset cursor token = 0) {j : Chore}
    {n : ℕ} {e : SeqEvent Chore Choice} (he : e ∈ chore d j n)
    (s : Sequential World Chore Cmd Cmd.Resp (Option SyncResult)) :
    Unchanging (annsSite d) driveInput s e := by
  rcases List.mem_cons.mp he with rfl | he
  · trivial
  · obtain ⟨-, rfl⟩ := List.mem_replicate.mp he
    intro j c k b _ _
    cases c with
    | request q =>
      intro r hr
      cases q with
      | driveFiles cursor pageSize token =>
        cases hr
        simp [Connectors.Site.answers, Drive.answers, hd]
      | _ => trivial
    | _ => trivial

/-- Nothing is behind the cursor of a Drive that was never synced. -/
theorem recorded_freshDrive (site : Connectors.Site) (hfits : ∀ u, site.fits u) :
    Recorded site driveInput "gdocs" freshDrive Progress.init := by
  have hfresh : ∀ u ∈ freshDrive.db.units.rows, u.cursor = "" := by decide +kernel
  refine ⟨⟨"acme", "ann@acme", ?_⟩, fun u _ _ => hfits u.source, ?_, trivial, ?_, ?_⟩
  · unfold Database.HasConnection
    decide +kernel
  · intro u hu _ e _ hlt
    rw [hfresh u hu] at hlt
    exact absurd hlt (List.not_lt_nil _)
  · intro k hk
    cases hk
  · intro s hs
    cases hs

/-- Ann's Drive is synced; she disconnects, a purge pass runs, she connects again, and it
is synced again, in `n` commands. -/
def purgedAndConnected (d : Drive) (n : ℕ) : List (SeqEvent Chore Choice) :=
  chore d ⟨.syncUnit driveInput, rfl⟩ 28 ++ chore d ⟨.disconnect (some "acme") 0, rfl⟩ 6 ++
    chore d ⟨.upkeep (.purgeArtifacts 0), rfl⟩ 4 ++
    chore d ⟨.completeConnection "state" "code" "", rfl⟩ 6 ++
    chore d ⟨.syncUnit driveInput, rfl⟩ n

theorem unchanging_purgedAndConnected {d : Drive} (hd : ∀ cursor token, d.offset cursor token = 0)
    {n : ℕ} {e : SeqEvent Chore Choice} (he : e ∈ purgedAndConnected d n)
    (s : Sequential World Chore Cmd Cmd.Resp (Option SyncResult)) :
    Unchanging (annsSite d) driveInput s e := by
  simp only [purgedAndConnected, List.mem_append] at he
  rcases he with (((he | he) | he) | he) | he <;> exact unchanging_chore hd he s

/-- A drain is done, and the purge pass has dropped both rows of the first one. -/
def droppedBoth (tr : List (Performed World Choice Cmd)) : Bool :=
  tr.any fun m => decide (m.cmd = .statement (.confirmArtifactDeletes [0, 1]))

/-- A Drive that was purged is complete once it is synced again, when its documents are all
of the moment its cursor stands at. -/
theorem reconnected_complete :
    ∃ s tr j b res, (service.sequential fun j : Chore =>
        j.1.outcome driveActivities driveServer).Run ⟨freshDrive, none⟩
          (purgedAndConnected twinDocs 28) s tr ∧
      droppedBoth tr = true ∧
      s.current = some (j, ⟨.pure (some res), b⟩) ∧ j.1.drains driveInput = true ∧
      res.done = true ∧ ∀ e ∈ (annsSite twinDocs).items, HasRow driveInput s.world.db e := by
  obtain ⟨s, tr, hrun, hend⟩ := Lts.exists_runWhere_of_any
    (service.sequential fun j : Chore => j.1.outcome driveActivities driveServer)
    (fun s _ e => seqCheck (keepsBehind (annsSite twinDocs) driveInput) s e) ⟨freshDrive, none⟩
    (purgedAndConnected twinDocs 28) (fun s tr => drainDone s && droppedBoth tr) (by decide +kernel)
  obtain ⟨hdrained, hdropped⟩ := (Bool.and_eq_true _ _).mp hend
  obtain ⟨j, b, res, hcur, hdrains, hdone⟩ := drained_of_drainDone hdrained
  have hstill : ∀ e ∈ purgedAndConnected twinDocs 28,
      ∀ (s : Sequential World Chore Cmd Cmd.Resp (Option SyncResult))
        (_ : List (Performed World Choice Cmd)), Unchanging (annsSite twinDocs) driveInput s e :=
    fun e he s _ => unchanging_purgedAndConnected (fun _ _ => rfl) he s
  have hreg : driveActivities.reg.get "gdocs" = some newGoogleDocs.connector := by
    simp [driveActivities, Registry.get, GoogleDocs.connector]
  have hall := refills driveActivities driveServer (annsSite twinDocs) driveInput hreg rfl
    ((hrun.and_events hstill).mono fun _ _ _ hc => ⟨hc.1, seqMeets_of_check hc.2⟩)
    (recorded_freshDrive (annsSite twinDocs) fun _ => trivial)
  exact ⟨s, tr, j, b, res, hrun.run, hdropped, hcur, hdrains, hdone,
    hall j b res hcur hdrains hdone⟩

/-- **The first document is never synced again.**  The drain of the selected unit reports
that it is done, and the document behind its cursor has no row. -/
theorem purged_never_refilled :
    ∃ s tr j b res, (service.sequential fun j : Chore =>
        j.1.outcome driveActivities driveServer).RunWhere
          (fun s _ => Unchanging (annsSite twoDocs) driveInput s) ⟨freshDrive, none⟩
          (purgedAndConnected twoDocs 22) s tr ∧
      Recorded (annsSite twoDocs) driveInput "gdocs" freshDrive Progress.init ∧
      s.current = some (j, ⟨.pure (some res), b⟩) ∧ j.1.drains driveInput = true ∧
      res.done = true ∧
      (∃ u ∈ s.world.db.units.rows, u.is 0 "drive" = true ∧ u.selected = true) ∧
      ∃ e ∈ (annsSite twoDocs).items, ¬ HasRow driveInput s.world.db e := by
  obtain ⟨s, tr, hrun, hend⟩ := Lts.exists_run_of_any
    (service.sequential fun j : Chore => j.1.outcome driveActivities driveServer)
    ⟨freshDrive, none⟩ (purgedAndConnected twoDocs 22)
    (fun s _ => drainDone s && (s.world.db.units.rows.any fun u => u.is 0 "drive" && u.selected) &&
      decide ((0, "doc") ∉ s.world.db.artifacts.rows.map RawArtifact.key)) (by decide +kernel)
  simp only [Bool.and_eq_true, List.any_eq_true, decide_eq_true_eq] at hend
  obtain ⟨⟨hdrained, hunit⟩, hgone⟩ := hend
  obtain ⟨j, b, res, hcur, hdrains, hdone⟩ := drained_of_drainDone hdrained
  have hstill : ∀ e ∈ purgedAndConnected twoDocs 22,
      ∀ (s : Sequential World Chore Cmd Cmd.Resp (Option SyncResult))
        (_ : List (Performed World Choice Cmd)), Unchanging (annsSite twoDocs) driveInput s e :=
    fun e he s _ => unchanging_purgedAndConnected (fun _ _ => rfl) he s
  refine ⟨s, tr, j, b, res, hrun.of_events hstill,
    recorded_freshDrive (annsSite twoDocs) fun _ => trivial, hcur, hdrains, hdone, hunit,
    ⟨"doc", "1"⟩, ?_, hgone⟩
  exact List.mem_cons_self ..

end Hivebook
