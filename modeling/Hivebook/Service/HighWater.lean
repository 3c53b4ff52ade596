import Hivebook.Connectors.Listing
import Hivebook.Database.Units
import Hivebook.Service.Contents

/-!
# The cursor of a unit is a high-water mark

Against a static source, every item updated before the persisted cursor of a unit has
a manifest row, and the row has its object: the bytes are stored before the row is
committed, and the cursor moves with the commit or past items that have a row already.
It does not matter where an execution of `SyncUnit` is interrupted, how often, or what
fails.  An execution that reports the unit as done has left a row for every item.

## Main definitions

* `Synced` — an item has a row, and the row its object.
* `HighWater` — so it is for every item below the cursor of the unit.
* `Progress`, `marking` — what an execution has learnt, and when it may move the
  cursor.

## Main results

* `follows_marking` — **`SyncUnit` moves the cursor only past what it knows.**
* `cursor_high_water` — **in every sequence of executions, interrupted anywhere, the
  cursor is a high-water mark, and a unit reported as done is complete.**
-/

namespace Hivebook

open Database Machine Storage Connectors Admission

/-! ### What an execution may do -/

/-- What a running execution has learnt. -/
structure Progress where
  /-- The source and the database have answered truthfully. -/
  honest : Prop
  /-- The cursor of the unit, as it was read. -/
  start : Option String
  /-- Keys of manifest rows that are there. -/
  known : List (Uuid × String)
  /-- The object stored last, by bucket, key and body. -/
  stored : Option (String × String × Bytes)

/-- What an execution that starts has learnt. -/
def Progress.init : Progress := { honest := True, start := none, known := [], stored := none }

/-- The unit as a connector is handed it. -/
def SyncUnit.source (u : SyncUnit) : SourceUnit :=
  { id := u.externalID, kind := u.kind, name := u.name }

section Protocol

variable (h : ContentHash) (site : Connectors.Site) (i : SyncInput) (connectorID : String)

/-- What a response adds. -/
def Progress.next (g : Progress) : (c : Cmd) → c.Resp → Progress
  | .request q, .ok r => { g with honest := g.honest ∧ site.answers q r }
  | .statement (.getConnectionByID id), .ok conn =>
      { g with honest := g.honest ∧ (id = i.connectionID → conn.connectorID = connectorID) }
  | .statement (.getSyncUnit _ _), .ok u =>
      { g with honest := g.honest ∧ site.fits u.source, start := some u.cursor }
  | .statement (.getArtifactContentHash id externalID), .ok _ =>
      { g with known := (id, externalID) :: g.known }
  | .statement (.commitArtifact p _ _), .ok _ =>
      { g with known := (p.connectionID, p.externalID) :: g.known }
  | .putObject bucket key _ body, .ok _ => { g with stored := some (bucket, key, body) }
  | _, _ => g

/-- Every item from the start on that was updated before the new cursor has a row. -/
def Progress.mayAdvance (g : Progress) (cursor : String) : Prop :=
  g.honest → ∃ s, g.start = some s ∧ ∀ e ∈ site.items, s ≤ e.updatedAt → e.updatedAt < cursor →
    (i.connectionID, e.externalID) ∈ g.known

/-- Every item from the start on has a row. -/
def Progress.caughtUp (g : Progress) : Prop :=
  g.honest → ∃ s, g.start = some s ∧ ∀ e ∈ site.items, s ≤ e.updatedAt →
    (i.connectionID, e.externalID) ∈ g.known

/-- A row is for the object stored last. -/
def Progress.mayCommit (g : Progress) (p : UpsertRawArtifactParams) : Prop :=
  ∃ bucket key body, g.stored = some (bucket, key, body) ∧
    cut p.objectKey = some (bucket, key) ∧ p.contentHash = h.hash body

/-- What an execution of `SyncUnit` may do. -/
def marking : Protocol Progress Cmd Cmd.Resp where
  allowed g
    | .putObject _ key _ body => Addressed key (h.hash body)
    | .deleteObject _ _ => False
    | .statement (.commitArtifact p unitID cursor) =>
        p.connectionID = i.connectionID ∧ unitID = i.unitID ∧ g.mayCommit h p ∧
          ∀ c, cursor = some c → g.mayAdvance site i c
    | .statement (.setUnitCursor id unitID cursor) =>
        id = i.connectionID ∧ unitID = i.unitID ∧ g.mayAdvance site i cursor
    | .statement (.getSyncUnit id unitID) => id = i.connectionID ∧ unitID = i.unitID
    | .statement (.acquireAdmission _) | .statement (.releaseAdmission _) => True
    | .statement s => s.steady = true
    | .ctxErr | .clock | .request _ | .signalWorkflow _ _ => True
  next := Progress.next site i connectorID

end Protocol

section Follows

variable {site : Connectors.Site} {i : SyncInput} {connectorID : String}

/-- More is known, the start is the same, and what is truthful now was before. -/
def Progress.Grows (g g' : Progress) : Prop :=
  (g'.honest → g.honest) ∧ g'.start = g.start ∧ g.known ⊆ g'.known

theorem Progress.Grows.refl (g : Progress) : g.Grows g := ⟨id, rfl, List.Subset.refl _⟩

theorem Progress.Grows.trans {g g' g'' : Progress} (h : g.Grows g') (h' : g'.Grows g'') :
    g.Grows g'' :=
  ⟨fun hg => h.1 (h'.1 hg), h'.2.1.trans h.2.1, List.Subset.trans h.2.2 h'.2.2⟩

theorem Progress.Grows.caughtUp {g g' : Progress} (h : g.Grows g') (hg : g.caughtUp site i) :
    g'.caughtUp site i := by
  intro hhonest
  obtain ⟨s, hs, hknown⟩ := hg (h.1 hhonest)
  exact ⟨s, h.2.1.trans hs, fun e he hle => h.2.2 (hknown e he hle)⟩

theorem grows_steady {c : Cmd} (hc : c.steady = true) (g : Progress) (r : c.Resp) :
    g.Grows (g.next site i connectorID c r) := by
  cases c with
  | request q =>
    cases r with
    | error e => exact .refl g
    | ok r => exact ⟨And.left, rfl, List.Subset.refl _⟩
  | statement s =>
    cases s with
    | getConnectionByID id =>
      cases r with
      | error e => exact .refl g
      | ok conn => exact ⟨And.left, rfl, List.Subset.refl _⟩
    | getArtifactContentHash id externalID =>
      cases r with
      | error e => exact .refl g
      | ok hash => exact ⟨fun hg => hg, rfl, List.subset_cons_self _ _⟩
    | _ => first | exact .refl g | cases hc
  | putObject bucket key contentType body => cases hc
  | _ => exact .refl g

variable (h : ContentHash)

theorem marking_of_steady {c : Cmd} (hc : c.steady = true) (g : Progress) :
    (marking h site i connectorID).allowed g c := by
  cases c with
  | statement s => cases s <;> first | exact hc | cases hc
  | putObject _ _ _ _ => cases hc
  | deleteObject _ _ => cases hc
  | _ => trivial

/-- A steady program only learns. -/
theorem Steady.follows_marking {α : Type} {p : Program α} (hp : Steady p) (g : Progress) :
    p.Follows (marking h site i connectorID) (fun _ => g.Grows) g :=
  Prog.follows_of_uses (hp.mono fun _ hc g' hg' =>
    ⟨marking_of_steady h hc g', fun r => hg'.trans (grows_steady hc g' r)⟩) (.refl g)

/-- The items emitted so far are known, those left are the rest of the listing. -/
structure Drained (site : Connectors.Site) (i : SyncInput) (cursor : String) (d : Remaining)
    (g : Progress) : Prop where
  honest : g.honest → d.honest
  start : g.start = some cursor
  emitted : g.honest → ∃ before, site.listing cursor = before ++ d.rest ∧
    ∀ e ∈ before, (i.connectionID, e.externalID) ∈ g.known

theorem Drained.grows {cursor : String} {d : Remaining} {g g' : Progress}
    (hd : Drained site i cursor d g) (hg : g.Grows g') : Drained site i cursor d g' := by
  refine ⟨fun hh => hd.honest (hg.1 hh), hg.2.1.trans hd.start, fun hh => ?_⟩
  obtain ⟨before, hlisting, hknown⟩ := hd.emitted (hg.1 hh)
  exact ⟨before, hlisting, fun e he => hg.2.2 (hknown e he)⟩

/-- Before an item may be emitted, all items updated before it are known. -/
theorem Drained.mayAdvance {cursor : String} {d : Remaining} {g : Progress} {art : Artifact}
    (hd : Drained site i cursor d g)
    (hart : (inOrder site.answers).allowed d (.emit art)) : g.mayAdvance site i art.cursor := by
  intro hh
  obtain ⟨before, hlisting, hknown⟩ := hd.emitted hh
  obtain ⟨tail, hrest⟩ := hart (hd.honest hh)
  rw [hrest] at hlisting
  refine ⟨cursor, hd.start, fun e he hle hlt => ?_⟩
  exact hknown e (Connectors.Site.mem_of_lt hlisting he hle hlt)

/-- An item that is known is emitted. -/
theorem Drained.emit {cursor : String} {d : Remaining} {g : Progress} {art : Artifact}
    (hd : Drained site i cursor d g) (hart : (inOrder site.answers).allowed d (.emit art))
    (hknown : (i.connectionID, art.externalID) ∈ g.known) :
    Drained site i cursor { d with rest := d.rest.tail } g := by
  refine ⟨hd.honest, hd.start, fun hh => ?_⟩
  obtain ⟨before, hlisting, hbefore⟩ := hd.emitted hh
  obtain ⟨tail, hrest⟩ := hart (hd.honest hh)
  refine ⟨before ++ [art.item], ?_, fun e he => ?_⟩
  · rw [hlisting, hrest]
    simp
  · rcases List.mem_append.mp he with he | he
    · exact hbefore e he
    · rw [List.mem_singleton.mp he]
      exact hknown

section SyncUnit

variable (a : Activities)

/-- An unchanged item: it has a row, so the cursor may move past it. -/
theorem follows_marking_unchanged {cursor : String} {d : Remaining} {g : Progress}
    {art : Artifact} (st : EmitState) (hd : Drained site i cursor d g)
    (hart : (inOrder site.answers).allowed d (.emit art))
    (hknown : (i.connectionID, art.externalID) ∈ g.known) :
    (Activities.emitUnchanged i art st).Follows (marking h site i connectorID)
      (fun r g' => Drained site i cursor ((inOrder site.answers).next d (.emit art) r.1) g') g := by
  unfold Activities.emitUnchanged
  split
  · refine ⟨⟨rfl, rfl, hd.mayAdvance hart⟩, fun r => ?_⟩
    exact hd.emit hart hknown
  · exact hd.emit hart hknown

/-- A changed item: the row is for the object just stored, and the cursor moves with
it. -/
theorem follows_marking_changed {cursor : String} {d : Remaining} {g : Progress}
    {art : Artifact} (conn : Connection) (st : EmitState) (hd : Drained site i cursor d g)
    (hart : (inOrder site.answers).allowed d (.emit art)) :
    (a.emitChanged i conn art (a.contentHash.hash art.raw) st).Follows
      (marking a.contentHash site i connectorID)
      (fun r g' => Drained site i cursor ((inOrder site.answers).next d (.emit art) r.1) g') g := by
  refine ⟨⟨conn.tenantID ++ "/" ++ conn.connectorID, by simp [String.append_assoc]⟩, fun r => ?_⟩
  cases r with
  | error e => exact hd
  | ok _ =>
    refine ⟨⟨rfl, rfl, ⟨_, _, art.raw, rfl, cut_objectKey _ _ _ _, rfl⟩, fun c hc => ?_⟩,
      fun r => ?_⟩
    · split at hc
      · cases hc
        exact hd.mayAdvance hart
      · cases hc
    · cases r with
      | error e => exact ⟨hd.honest, hd.start, hd.emitted⟩
      | ok _ =>
        refine ((Activities.steady_noteProgress i _).follows_marking a.contentHash _).bind
          fun _ g' hg' => ?_
        refine Drained.emit (Drained.grows ?_ hg') hart (hg'.2.2 (List.mem_cons_self ..))
        refine ⟨hd.honest, hd.start, fun hh => ?_⟩
        obtain ⟨before, hlisting, hbefore⟩ := hd.emitted hh
        exact ⟨before, hlisting, fun e he => List.mem_cons_of_mem _ (hbefore e he)⟩

/-- **`emit`** moves the cursor only past known items, and an item it has emitted is
known. -/
theorem follows_marking_makeEmit {cursor : String} {d : Remaining} {g : Progress}
    {art : Artifact} (conn : Connection) (st : EmitState) (hd : Drained site i cursor d g)
    (hart : (inOrder site.answers).allowed d (.emit art)) :
    (a.makeEmit i conn art st).Follows (marking a.contentHash site i connectorID)
      (fun r g' => Drained site i cursor ((inOrder site.answers).next d (.emit art) r.1) g') g := by
  refine ⟨trivial, fun b => ?_⟩
  show Prog.Follows _ _ _ (if b = true then _ else _)
  split
  · exact hd
  · refine ⟨rfl, fun r => ?_⟩
    cases r with
    | ok prev =>
      have hgrows : g.Grows (g.next site i connectorID
          (.statement (.getArtifactContentHash i.connectionID art.externalID)) (.ok prev)) :=
        ⟨fun hg => hg, rfl, List.subset_cons_self _ _⟩
      show Prog.Follows _ _ _ (if prev = a.contentHash.hash art.raw then _ else _)
      split
      · exact follows_marking_unchanged a.contentHash st (hd.grows hgrows) hart
          (List.mem_cons_self ..)
      · exact follows_marking_changed a conn st (hd.grows hgrows) hart
    | error e =>
      cases e with
      | noRows => exact follows_marking_changed a conn st hd hart
      | _ => exact hd

/-- A drain that emits in order. -/
theorem follows_marking_drain (connector : Connector) (conn : Connection) (unit : SyncUnit)
    (g : Progress) (hstart : g.start = some unit.cursor)
    (horder : (connector.syncUnit unit.source unit.cursor).Follows (inOrder site.answers)
      (fun res d => d.honest → res = .ok true → d.rest = [])
      ⟨g.honest, site.listing unit.cursor⟩) :
    (a.drain i conn connector unit).Follows (marking a.contentHash site i connectorID)
      (fun r g => r.1 = .ok true → g.caughtUp site i) g := by
  refine (Prog.Follows.interpret (I := fun d _ g => Drained site i unit.cursor d g)
    horder ?_ ?_).mono ?_
  · intro c st d g hd hc
    cases c with
    | emit art => exact follows_marking_makeEmit a conn st hd hc
    | fetch c =>
      cases c with
      | ctxErr => exact ⟨trivial, fun b => hd⟩
      | request q =>
        refine ⟨trivial, fun r => ?_⟩
        cases r with
        | error e => exact hd
        | ok r => exact ⟨fun hh => ⟨hd.honest hh.1, hh.2⟩, hd.start, fun hh => hd.emitted hh.1⟩
  · exact ⟨id, hstart, fun _ => ⟨[], rfl, by simp⟩⟩
  · rintro r g ⟨d, hdone, hd⟩
    refine fun hr hh => ⟨unit.cursor, hd.start, fun e he hle => ?_⟩
    obtain ⟨before, hlisting, hbefore⟩ := hd.emitted hh
    rw [hdone (hd.honest hh) hr, List.append_nil] at hlisting
    exact hbefore e (hlisting ▸ Connectors.Site.mem_listing he hle)

/-- What follows the drain only learns, and reports the unit as done only if the drain
did. -/
theorem follows_marking_finishUnit (conn : Connection) (connector : Connector)
    (result : Except Err Bool) (written : ℕ) (g : Progress) :
    (Activities.finishUnit i conn connector result written).Follows (marking h site i connectorID)
      (fun r g' => g.Grows g' ∧ ∀ res, r = .ok res → res.done = true → result = .ok true) g := by
  refine ((Activities.steady_flushProgress i written).follows_marking h g).bind fun _ g₁ hg₁ => ?_
  refine (steady_ctxErr.follows_marking h g₁).bind fun b g₂ hg₂ => ?_
  have hgrows := hg₁.trans hg₂
  split
  · exact ⟨hgrows, fun res hr => by cases hr⟩
  · cases result with
    | error e =>
      refine ((Activities.steady_throttleFeedback _ e).follows_marking h g₂).bind fun _ g₃ hg₃ => ?_
      refine ((Activities.steady_classify conn i.unitID e).follows_marking h g₃).bind
        fun _ g₄ hg₄ => ?_
      exact ⟨(hgrows.trans hg₃).trans hg₄, fun res hr => by cases hr⟩
    | ok done =>
      refine ((steady_recordSuccess _ _).follows_marking h g₂).bind fun _ g₃ hg₃ => ?_
      cases done with
      | true =>
        refine ((Activities.steady_commitSynced i written).follows_marking h g₃).mono
          fun r g₄ hg₄ => ⟨(hgrows.trans hg₃).trans hg₄, fun _ _ _ => rfl⟩
      | false =>
        refine ⟨hgrows.trans hg₃, fun res hr hdone => ?_⟩
        cases hr
        cases hdone

/-- Taking a slot only learns. -/
theorem follows_marking_acquire (k : Scope) (name : String) (seed : RateBudget) (g : Progress) :
    (acquire k name seed).Follows (marking h site i connectorID) (fun _ => g.Grows) g := by
  refine ⟨rfl, fun r => ?_⟩
  cases r with
  | error e => exact .refl g
  | ok _ =>
    refine ⟨trivial, fun r => ?_⟩
    dsimp only [Prog.pure_bind]
    split <;> exact .refl g

/-- `SyncUnit` from the slot on, if its drain catches up when it says so. -/
theorem follows_marking_admitted (connector : Connector) (conn : Connection) (unit : SyncUnit)
    (g : Progress)
    (hdrain : ∀ g', g.Grows g' → (a.drain i conn connector unit).Follows
      (marking a.contentHash site i connectorID)
      (fun r g => r.1 = .ok true → g.caughtUp site i) g') :
    (a.admitted i conn connector unit).Follows (marking a.contentHash site i connectorID)
      (fun r g => ∀ res, r = .ok res → res.done = true → g.caughtUp site i) g := by
  refine (follows_marking_acquire a.contentHash _ _ _ g).bind fun r g₁ hg₁ => ?_
  split
  · intro res hr
    cases hr
  · intro res hr
    cases hr
  · refine Prog.Follows.bind (R := fun (r : Except ActivityError SyncResult) (g : Progress) =>
      ∀ res, r = .ok res → res.done = true → g.caughtUp site i) ?_
      fun r g₂ hg₂ => ⟨trivial, fun _ => hg₂⟩
    refine (hdrain g₁ hg₁).bind fun r g₂ hg₂ => ?_
    refine (follows_marking_finishUnit a.contentHash conn connector r.1 r.2.written g₂).mono
      fun res g₃ hg₃ out hout hdone => ?_
    exact hg₃.1.caughtUp (hg₂ (hg₃.2 out hout hdone))

/-- **`SyncUnit` moves the cursor only past what it knows**, and reports the unit as done
only if it knows every item from its start on. -/
theorem follows_marking {connector : Connector} (hreg : a.reg.get connectorID = some connector)
    (hsite : connector.syncUnit = site.syncUnit) (g : Progress) :
    (a.syncUnit i).Follows (marking a.contentHash site i connectorID)
      (fun r g => ∀ res, r = .ok res → res.done = true → g.caughtUp site i) g := by
  have hfail : ∀ {e : ActivityError} {g : Progress}, ∀ res : SyncResult,
      (.error e : Except ActivityError SyncResult) = .ok res → res.done = true →
        g.caughtUp site i := by
    intro e g res hr
    cases hr
  refine ⟨rfl, fun r => ?_⟩
  cases r with
  | error e => exact hfail
  | ok conn =>
    dsimp only [Prog.pure_bind]
    cases hget : a.reg.get conn.connectorID with
    | none => exact hfail
    | some connector' =>
      refine ⟨⟨rfl, rfl⟩, fun r => ?_⟩
      cases r with
      | error e => exact hfail
      | ok unit =>
        -- a truthful database names the connector and the unit of the source
        have hunit : ∀ g' : Progress, ((marking a.contentHash site i connectorID).next
            ((marking a.contentHash site i connectorID).next g
              (.statement (.getConnectionByID i.connectionID)) (.ok conn))
            (.statement (.getSyncUnit i.connectionID i.unitID)) (.ok unit)).Grows g' →
            (a.drain i conn connector' unit).Follows (marking a.contentHash site i connectorID)
              (fun r g => r.1 = .ok true → g.caughtUp site i) g' := by
          intro g' hg'
          refine follows_marking_drain a connector' conn unit g' hg'.2.1 ?_
          by_cases hconn : conn.connectorID = connectorID
          · rw [hconn, hreg] at hget
            cases hget
            rw [hsite]
            exact site.follows _ _ _ fun hh => ⟨(hg'.1 hh).2, rfl⟩
          · refine (follows_of_not_honest fun hh => ?_).mono fun _ _ hd hh => absurd hh hd
            exact hconn ((hg'.1 hh).1.2 rfl)
        generalize (marking a.contentHash site i connectorID).next _ _ _ = g₁ at hunit ⊢
        refine ⟨rfl, fun r => ?_⟩
        cases r with
        | error e => exact hfail
        | ok _ =>
          refine ⟨rfl, fun _ => ?_⟩
          refine ((a.touchesTokens_clientFor conn).steady.follows_marking a.contentHash g₁).bind
            fun r g₂ hg₂ => ?_
          split
          · exact ((Activities.steady_classify _ _ _).follows_marking a.contentHash g₂).bind
              fun _ _ _ => hfail
          · refine follows_marking_admitted a connector' conn unit g₂ ?_
            exact fun g' hg' => hunit g' (hg₂.trans hg')

end SyncUnit

end Follows

/-! ### What a statement does to the units and the manifest -/

/-- The statement writes the cursor. -/
def Statement.WritesCursor (s : Statement) (cursor : String) : Prop :=
  (∃ id unitID, s = .setUnitCursor id unitID cursor) ∨
    ∃ p unitID, s = .commitArtifact p unitID (some cursor)

/-- The unit whose cursor a statement writes. -/
def Statement.cursorOf : Statement → Option (Uuid × String)
  | .setUnitCursor id unitID _ => some (id, unitID)
  | .commitArtifact p unitID _ => some (p.connectionID, unitID)
  | _ => none

/-- Units of one key are the unit of a connection together. -/
theorem is_congr {u u' : SyncUnit} {id : Uuid} {externalID : String} (h : u'.key = u.key) :
    u'.is id externalID = u.is id externalID := by
  have hid : u'.connectionID = u.connectionID := congrArg Prod.fst h
  have hext : u'.externalID = u.externalID := congrArg Prod.snd h
  unfold SyncUnit.is
  rw [hid, hext]

section Statements

variable {h : ContentHash} {site : Connectors.Site} {i : SyncInput} {connectorID : String}
  {g : Progress} {s : Statement} {now : Time} {db : Database}

/-- **Where a unit comes from**: its key, kind and name are as they were, and so is its
cursor unless the statement writes it. -/
theorem unit_step (hs : ∀ id x name kind g, s ≠ .upsertSyncUnit id x name kind g)
    {u' : SyncUnit} (hu' : u' ∈ (s.exec now db).2.units.rows) :
    ∃ u ∈ db.units.rows, u'.key = u.key ∧ u'.source = u.source ∧
      (u'.cursor = u.cursor ∨ s.WritesCursor u'.cursor ∧ s.cursorOf = some u'.key) := by
  rcases unit_exec s hu' with ⟨u, hu, rfl | hrew⟩ | ⟨id, x, name, kind, g, heq, -⟩
  · exact ⟨_, hu, rfl, rfl, .inl rfl⟩
  · refine ⟨u, hu, hrew.key, ?_⟩
    cases hrew with
    | mark => exact absurd rfl (hs _ _ _ _ _)
    | cursor _ c => exact ⟨rfl, .inr ⟨.inl ⟨_, _, rfl⟩, rfl⟩⟩
    | counted _ p cursor hid =>
      cases cursor with
      | none => exact ⟨rfl, .inl rfl⟩
      | some c =>
        refine ⟨rfl, .inr ⟨.inr ⟨p, _, rfl⟩, ?_⟩⟩
        exact congrArg (fun id => some (id, u.externalID)) hid
    | _ => exact ⟨rfl, .inl rfl⟩
  · exact absurd heq (hs id x name kind g)

theorem mem_of_getSyncUnit {id : Uuid} {unitID : String} {u : SyncUnit}
    (hu : getSyncUnit id unitID db = .ok u) :
    u ∈ db.units.rows ∧ u.is id unitID = true := by
  unfold getSyncUnit one at hu
  split at hu
  · cases hu
    rename_i hfind
    exact ⟨List.mem_of_find?_eq_some hfind, List.find?_some hfind⟩
  · cases hu

/-- An execution writes a cursor only past what it knows. -/
theorem mayAdvance_of_writesCursor (hs : (marking h site i connectorID).allowed g (.statement s))
    {cursor : String} (hw : s.WritesCursor cursor) : g.mayAdvance site i cursor := by
  rcases hw with ⟨id, unitID, rfl⟩ | ⟨p, unitID, rfl⟩
  · exact hs.2.2
  · exact hs.2.2.2 cursor rfl

/-- An execution discovers nothing, and erases nothing. -/
theorem ne_of_marking (hs : (marking h site i connectorID).allowed g (.statement s)) :
    (∀ id x name kind g, s ≠ .upsertSyncUnit id x name kind g) ∧
      ∀ ids, s ≠ .confirmArtifactDeletes ids := by
  constructor
  · rintro id x name kind g rfl
    cases hs
  · rintro ids rfl
    cases hs

end Statements

/-! ### The invariant -/

/-- The item has a manifest row, and the row has its object. -/
def Synced (h : ContentHash) (i : SyncInput) (w : World) (e : Item) : Prop :=
  ∃ r ∈ w.db.artifacts.rows, r.key = (i.connectionID, e.externalID) ∧ HasObject h w r

/-- **The high-water mark**: every item updated before the persisted cursor of the unit
is synced. -/
def HighWater (h : ContentHash) (site : Connectors.Site) (i : SyncInput) (w : World) : Prop :=
  ∀ u ∈ w.db.units.rows, u.is i.connectionID i.unitID = true →
    ∀ e ∈ site.items, e.updatedAt < u.cursor → Synced h i w e

/-- The unit of the connection is the source, the rows of the connection have their
objects, and the cursor is a high-water mark. -/
structure Ready (h : ContentHash) (site : Connectors.Site) (i : SyncInput) (connectorID : String)
    (w : World) : Prop where
  connection : ∃ tenantID externalID,
    w.db.HasConnection i.connectionID (tenantID, connectorID, externalID)
  unit : ∀ u ∈ w.db.units.rows, u.is i.connectionID i.unitID = true → site.fits u.source
  objects : ∀ r ∈ w.db.artifacts.rows, r.connectionID = i.connectionID → HasObject h w r
  highWater : HighWater h site i w

/-- The item has a manifest row. -/
def HasRow (i : SyncInput) (db : Database) (e : Item) : Prop :=
  (i.connectionID, e.externalID) ∈ db.artifacts.rows.map RawArtifact.key

theorem synced_iff_hasRow {h : ContentHash} {i : SyncInput} {w : World}
    (hobjects : ∀ r ∈ w.db.artifacts.rows, r.connectionID = i.connectionID → HasObject h w r)
    {e : Item} : Synced h i w e ↔ HasRow i w.db e := by
  unfold HasRow
  rw [List.mem_map]
  constructor
  · rintro ⟨r, hr, hkey, -⟩
    exact ⟨r, hr, hkey⟩
  · rintro ⟨r, hr, hkey⟩
    exact ⟨r, hr, hkey, hobjects r hr (congrArg Prod.fst hkey)⟩

/-- What holds between two commands of an execution. -/
structure MarkInv (h : ContentHash) (site : Connectors.Site) (i : SyncInput) (connectorID : String)
    (w : World) (g : Progress) : Prop where
  ready : Ready h site i connectorID w
  honest : g.honest
  known : ∀ k ∈ g.known, k ∈ w.db.artifacts.rows.map RawArtifact.key
  start : ∀ s, g.start = some s → ∀ e ∈ site.items, e.updatedAt < s → HasRow i w.db e
  /-- The object stored last is in storage. -/
  stored : ∀ bucket key body, g.stored = some (bucket, key, body) →
    Addressed key (h.hash body) ∧
      ∃ o, w.objects (bucket, key) = some o ∧ h.hash o.body = h.hash body

/-- The part of the invariant that is about rows: the cursor of the unit and the start of
the execution are backed by rows, and what is known is there. -/
structure Recorded (site : Connectors.Site) (i : SyncInput) (connectorID : String) (w : World)
    (g : Progress) : Prop where
  connection : ∃ tenantID externalID,
    w.db.HasConnection i.connectionID (tenantID, connectorID, externalID)
  unit : ∀ u ∈ w.db.units.rows, u.is i.connectionID i.unitID = true → site.fits u.source
  below : ∀ u ∈ w.db.units.rows, u.is i.connectionID i.unitID = true →
    ∀ e ∈ site.items, e.updatedAt < u.cursor → HasRow i w.db e
  honest : g.honest
  known : ∀ k ∈ g.known, k ∈ w.db.artifacts.rows.map RawArtifact.key
  start : ∀ s, g.start = some s → ∀ e ∈ site.items, e.updatedAt < s → HasRow i w.db e

/-- The part that is about objects: the rows of the connection have theirs, and the one
stored last is in storage. -/
structure Backed (h : ContentHash) (i : SyncInput) (w : World) (g : Progress) : Prop where
  objects : ∀ r ∈ w.db.artifacts.rows, r.connectionID = i.connectionID → HasObject h w r
  stored : ∀ bucket key body, g.stored = some (bucket, key, body) →
    Addressed key (h.hash body) ∧
      ∃ o, w.objects (bucket, key) = some o ∧ h.hash o.body = h.hash body

/-- The two parts of the invariant. -/
theorem markInv_iff {h : ContentHash} {site : Connectors.Site} {i : SyncInput}
    {connectorID : String} {w : World} {g : Progress} : MarkInv h site i connectorID w g ↔
      Recorded site i connectorID w g ∧ Backed h i w g := by
  constructor
  · intro hinv
    refine ⟨⟨hinv.ready.connection, hinv.ready.unit, ?_, hinv.honest, hinv.known, hinv.start⟩,
      hinv.ready.objects, hinv.stored⟩
    intro u hu his e he hlt
    exact (synced_iff_hasRow hinv.ready.objects).mp (hinv.ready.highWater u hu his e he hlt)
  · rintro ⟨hrec, hback⟩
    refine ⟨⟨hrec.connection, hrec.unit, hback.objects, ?_⟩, hrec.honest, hrec.known, hrec.start,
      hback.stored⟩
    intro u hu his e he hlt
    exact (synced_iff_hasRow hback.objects).mpr (hrec.below u hu his e he hlt)

section Rows

variable {h : ContentHash} {site : Connectors.Site} {i : SyncInput} {connectorID : String}
  {x : Choice} {b : Bool} {w : World} {g : Progress}

theorem Recorded.tick (hrec : Recorded site i connectorID w g) (d : Time) :
    Recorded site i connectorID (w.tick d) g where
  connection := hrec.connection
  unit := hrec.unit
  below := hrec.below
  honest := hrec.honest
  known := hrec.known
  start := hrec.start

/-- An execution that starts knows nothing. -/
theorem Recorded.restart (hrec : Recorded site i connectorID w g) :
    Recorded site i connectorID w Progress.init where
  connection := hrec.connection
  unit := hrec.unit
  below := hrec.below
  honest := trivial
  known := fun k hk => by cases hk
  start := fun s hs => by cases hs

/-- Everything an execution knows bounds the cursor it may write. -/
theorem Recorded.hasRow_of_mayAdvance (hrec : Recorded site i connectorID w g) {cursor : String}
    (hadvance : g.mayAdvance site i cursor) {e : Item} (he : e ∈ site.items)
    (hlt : e.updatedAt < cursor) : HasRow i w.db e := by
  obtain ⟨s, hs, hknown⟩ := hadvance hrec.honest
  by_cases hbelow : e.updatedAt < s
  · exact hrec.start s hs e he hbelow
  · exact hrec.known _ (hknown e he hbelow hlt)

/-- What an execution knows once it has caught up. -/
theorem Recorded.hasRow_of_caughtUp (hrec : Recorded site i connectorID w g)
    (hcaught : g.caughtUp site i) {e : Item} (he : e ∈ site.items) : HasRow i w.db e := by
  obtain ⟨s, hs, hknown⟩ := hcaught hrec.honest
  by_cases hbelow : e.updatedAt < s
  · exact hrec.start s hs e he hbelow
  · exact hrec.known _ (hknown e he hbelow)

/-- A statement that takes effect keeps the invariant, with what was known before. -/
theorem Recorded.exec (hrec : Recorded site i connectorID w g) {s : Statement}
    (hs : (marking h site i connectorID).allowed g (.statement s)) :
    Recorded site i connectorID (Cmd.effect w (.statement s)) g := by
  obtain ⟨hunits, hkeys⟩ := ne_of_marking hs
  have hrow : ∀ {k : Uuid × String}, k ∈ w.db.artifacts.rows.map RawArtifact.key →
      k ∈ (s.exec w.now w.db).2.artifacts.rows.map RawArtifact.key := key_mem_exec hkeys
  refine ⟨?_, fun u' hu' his => ?_, fun u' hu' his e he hlt => hrow ?_, hrec.honest,
    fun k hk => hrow (hrec.known k hk), fun s' hs' e he hlt => hrow (hrec.start s' hs' e he hlt)⟩
  · obtain ⟨tenantID, externalID, hconn⟩ := hrec.connection
    exact ⟨tenantID, externalID, hasConnection_exec _ s hconn⟩
  · obtain ⟨u, hu, hkey, hsource, -⟩ := unit_step hunits hu'
    rw [hsource]
    exact hrec.unit u hu (is_congr hkey ▸ his)
  · obtain ⟨u, hu, hkey, -, hcursor⟩ := unit_step hunits hu'
    rcases hcursor with hsame | ⟨hwrites, -⟩
    · rw [hsame] at hlt
      exact hrec.below u hu (is_congr hkey ▸ his) e he hlt
    · exact hrec.hasRow_of_mayAdvance (mayAdvance_of_writesCursor hs hwrites) he hlt

/-- What an execution learns from a statement is so. -/
theorem Recorded.learn (hrec : Recorded site i connectorID w g) {s : Statement}
    (hs : (marking h site i connectorID).allowed g (.statement s)) {r : s.Reply}
    (hr : (s.exec w.now w.db).1 = .ok r) :
    Recorded site i connectorID (Cmd.effect w (.statement s))
      (g.next site i connectorID (.statement s) (.ok r)) := by
  have hexec := hrec.exec hs
  cases s with
  | getConnectionByID id =>
    refine { hexec with honest := ⟨hrec.honest, fun hid => ?_⟩ }
    obtain ⟨hmem, hconn⟩ := mem_of_getConnectionByID hr
    obtain ⟨tenantID, externalID, hhas⟩ := hrec.connection
    have hkey := key_of_hasConnection hhas hmem (hconn.trans hid)
    exact congrArg (fun k => k.2.1) hkey
  | getSyncUnit id unitID =>
    obtain ⟨hmem, his⟩ := mem_of_getSyncUnit hr
    obtain ⟨rfl, rfl⟩ := hs
    refine { hexec with honest := ⟨hrec.honest, hrec.unit r hmem his⟩, start := ?_ }
    rintro s' ⟨⟩ e he hlt
    exact hrec.below r hmem his e he hlt
  | getArtifactContentHash id externalID =>
    refine { hexec with known := fun k hk => ?_ }
    rcases List.mem_cons.mp hk with rfl | hk
    · exact key_mem_of_getArtifactContentHash hr
    · exact hexec.known k hk
  | commitArtifact p unitID cursor =>
    refine { hexec with known := fun k hk => ?_ }
    rcases List.mem_cons.mp hk with rfl | hk
    · exact key_mem_commit_iff.mpr (Or.inr rfl)
    · exact hexec.known k hk
  | _ => exact hexec

theorem Recorded.statement (hrec : Recorded site i connectorID w g) {s : Statement}
    (hs : (marking h site i connectorID).allowed g (.statement s)) :
    Recorded site i connectorID (service.perform x b w (.statement s)).1
      (g.next site i connectorID (.statement s) (service.perform x b w (.statement s)).2) := by
  have htick := hrec.tick x.elapsed
  rw [service_statement]
  cases hr : x.reply b (s.exec (w.now + x.elapsed) w.db).1 with
  | ok r =>
    obtain ⟨hx, hok⟩ := of_reply_eq_ok hr
    rw [service_state, if_pos hx]
    exact htick.learn hs hok
  | error e =>
    have hnext : g.next site i connectorID (.statement s) (.error e) = g := by
      cases s <;> rfl
    rw [hnext, service_state]
    split
    · exact htick.exec hs
    · exact htick

/-- What a request answers is what the source answers. -/
def truthful (site : Connectors.Site) (x : Choice) (_ : Bool) (_ : World) : Cmd → Prop
  | .request q => ∀ r, x.answer q = .ok r → site.answers q r
  | _ => True

/-- **One command of an execution keeps the rows.** -/
theorem Recorded.step (hrec : Recorded site i connectorID w g) {c : Cmd}
    (hc : (marking h site i connectorID).allowed g c) (htrue : truthful site x b w c) :
    Recorded site i connectorID (service.perform x b w c).1
      (g.next site i connectorID c (service.perform x b w c).2) := by
  -- only a statement touches the database
  have hkeep : ∀ c : Cmd, (service.perform x b w c).1.db = w.db →
      Recorded site i connectorID (service.perform x b w c).1 g := by
    intro c hdb
    refine ⟨?_, ?_, ?_, hrec.honest, ?_, ?_⟩ <;> rw [hdb]
    · exact hrec.connection
    · exact hrec.unit
    · exact hrec.below
    · exact hrec.known
    · exact hrec.start
  cases c with
  | statement s => exact hrec.statement hc
  | putObject bucket key contentType body =>
    have hput := hkeep (.putObject bucket key contentType body) (service_db ..)
    generalize (service.perform x b w (.putObject bucket key contentType body)).2 = reply
    cases reply <;> exact { hput with }
  | deleteObject bucket key => cases hc
  | request q =>
    have htick := hkeep (.request q) (service_db ..)
    have hreply : (service.perform x b w (.request q)).2 =
        if b = true then .error .canceled else x.answer q := rfl
    rw [hreply]
    split
    · exact htick
    · cases hr : x.answer q with
      | error e => exact htick
      | ok r => exact { htick with honest := ⟨htick.honest, htrue r hr⟩ }
  | ctxErr => exact hkeep .ctxErr (service_db ..)
  | clock => exact hkeep .clock (service_db ..)
  | signalWorkflow id sig => exact hkeep (.signalWorkflow id sig) (service_db ..)

end Rows

section Objects

variable {h : ContentHash} {site : Connectors.Site} {i : SyncInput} {connectorID : String}
  {x : Choice} {b : Bool} {w : World} {g : Progress}

theorem Backed.tick (hback : Backed h i w g) (d : Time) : Backed h i (w.tick d) g where
  objects := fun r hr hc => (hback.objects r hr hc).congr rfl rfl rfl
  stored := hback.stored

/-- A statement of an execution keeps the objects of the connection's rows. -/
theorem Backed.exec (hback : Backed h i w g) {s : Statement}
    (hs : (marking h site i connectorID).allowed g (.statement s)) :
    Backed h i (Cmd.effect w (.statement s)) g := by
  have hcommit : ∀ {p unitID cursor} {r : RawArtifact}, s = .commitArtifact p unitID cursor →
      r.objectKey = p.objectKey → r.contentHash = p.contentHash → HasObject h w r := by
    rintro p unitID cursor r rfl hkey hhash
    obtain ⟨-, -, ⟨bucket, key, body, hstored, hcut, hcontent⟩, -⟩ := hs
    obtain ⟨haddr, o, ho, hbody⟩ := hback.stored bucket key body hstored
    refine ⟨bucket, key, o, by rw [hkey, hcut], ?_, ho, ?_⟩
    · rw [hhash, hcontent]
      exact haddr
    · rw [hhash, hcontent, hbody]
  have hobjects : ∀ r ∈ (s.exec w.now w.db).2.artifacts.rows,
      r.connectionID = i.connectionID → HasObject h w r := by
    intro r' hr' hc
    cases manifestStep w.now w.db s hr' with
    | keep hr => exact hback.objects r' hr hc
    | hide r hr heq =>
      rw [heq] at hc
      exact (hback.objects r hr hc).congr rfl (by rw [heq]) (by rw [heq])
    | restore r hr _ heq =>
      rw [heq] at hc
      exact (hback.objects r hr hc).congr rfl (by rw [heq]) (by rw [heq])
    | mark r deadline hr _ heq =>
      rw [heq] at hc
      exact (hback.objects r hr hc).congr rfl (by rw [heq]; rfl) (by rw [heq]; rfl)
    | rewrite r p unitID cursor hr heqs _ heq =>
      exact hcommit heqs (by rw [heq]; rfl) (by rw [heq]; rfl)
    | insert p unitID cursor heqs _ heq =>
      exact hcommit heqs (by rw [heq]; rfl) (by rw [heq]; rfl)
  exact ⟨fun r hr hc => (hobjects r hr hc).congr rfl rfl rfl, hback.stored⟩

theorem Backed.putObject (hback : Backed h i w g) {bucket key contentType : String}
    {body : Bytes} (haddr : Addressed key (h.hash body)) :
    Backed h i (service.perform x b w (.putObject bucket key contentType body)).1
      (g.next site i connectorID (.putObject bucket key contentType body)
        (service.perform x b w (.putObject bucket key contentType body)).2) := by
  have htick := hback.tick x.elapsed
  have hput : Backed h i (Cmd.effect (w.tick x.elapsed)
      (.putObject bucket key contentType body)) g := by
    refine ⟨fun r hr hc => (htick.objects r hr hc).put haddr, fun bucket' key' body' hst => ?_⟩
    obtain ⟨haddr', o, ho, hbody⟩ := htick.stored bucket' key' body' hst
    exact ⟨haddr', object_put haddr haddr' ho hbody⟩
  by_cases hx : x.takesEffect b = true
  · have hstate : (service.perform x b w (.putObject bucket key contentType body)).1 =
        Cmd.effect (w.tick x.elapsed) (.putObject bucket key contentType body) := by
      rw [service_state, if_pos hx]
    rw [hstate]
    generalize (service.perform x b w (.putObject bucket key contentType body)).2 = reply
    cases reply with
    | error e => exact hput
    | ok _ =>
      refine ⟨hput.objects, fun bucket' key' body' hst => ?_⟩
      cases hst
      exact ⟨haddr, ⟨contentType, body⟩, Function.update_self .., rfl⟩
  · have hstate : (service.perform x b w (.putObject bucket key contentType body)).1 =
        w.tick x.elapsed := by
      rw [service_state, if_neg hx]
    have hreply : ∃ e, (service.perform x b w (.putObject bucket key contentType body)).2 =
        .error e := reply_error_of_not_takesEffect (by simpa using hx) _
    obtain ⟨e, hreply⟩ := hreply
    rw [hstate, hreply]
    exact htick

/-- **One command of an execution keeps the objects.** -/
theorem Backed.step (hback : Backed h i w g) {c : Cmd}
    (hc : (marking h site i connectorID).allowed g c) :
    Backed h i (service.perform x b w c).1
      (g.next site i connectorID c (service.perform x b w c).2) := by
  have htick := hback.tick x.elapsed
  cases c with
  | putObject bucket key contentType body => exact hback.putObject hc
  | deleteObject bucket key => cases hc
  | statement s =>
    have hexec : Backed h i (service.perform x b w (.statement s)).1 g := by
      rw [service_state]
      split
      · exact htick.exec hc
      · exact htick
    generalize (service.perform x b w (.statement s)).2 = reply
    refine ⟨hexec.objects, fun bucket key body hst => hexec.stored bucket key body ?_⟩
    rw [← hst]
    cases reply with
    | error e => cases s <;> rfl
    | ok r => cases s <;> rfl
  | request q =>
    rw [service_state, show Cmd.effect (w.tick x.elapsed) (.request q) = w.tick x.elapsed from rfl,
      ite_self]
    generalize (service.perform x b w (.request q)).2 = reply
    cases reply <;> exact ⟨htick.objects, htick.stored⟩
  | _ =>
    rw [service_state]
    split <;> exact htick

end Objects

/-! ### Every sequence of executions -/

/-- **In every sequence of executions of `SyncUnit` on the unit of a static source**,
interrupted anywhere, the cursor of the unit is a high-water mark; and once an execution
has returned that it is done, every item of the source is synced.

A row has its object in every state, so in the state its commit led to: the object was
stored before. -/
theorem cursor_high_water (a : Activities) (site : Connectors.Site) (i : SyncInput)
    {connectorID : String} {connector : Connector} (hreg : a.reg.get connectorID = some connector)
    (hsite : connector.syncUnit = site.syncUnit) {w : World} {es : List (SeqEvent Unit Choice)}
    {s : Sequential World Unit Cmd Cmd.Resp (Except ActivityError SyncResult)}
    {tr : List (Performed World Choice Cmd)}
    (h : (service.sequential fun _ : Unit => a.syncUnit i).RunWhere
      (fun s _ => SeqMeets (truthful site) s) ⟨w, none⟩ es s tr)
    (hw : Ready a.contentHash site i connectorID w) :
    HighWater a.contentHash site i s.world ∧
      ∀ j b res, s.current = some (j, ⟨.pure (.ok res), b⟩) → res.done = true →
        ∀ e ∈ site.items, Synced a.contentHash i s.world e := by
  have hinit : ∀ {w : World}, Ready a.contentHash site i connectorID w →
      MarkInv a.contentHash site i connectorID w Progress.init := by
    intro w hw
    refine ⟨hw, trivial, fun k hk => ?_, fun s hs => ?_, fun bucket key body hst => ?_⟩
    · cases hk
    · cases hs
    · cases hst
  obtain ⟨g, hinv, hcurrent⟩ := sequential_follows
    (J := fun w g _ => MarkInv a.contentHash site i connectorID w g) h
    (fun _ => follows_marking a hreg hsite Progress.init) (hinit hw)
    (fun w g tr hinv => hinit hinv.ready)
    (fun s tr t j c k b g hC hcur hallowed hinv => by
      obtain ⟨hrec, hback⟩ := markInv_iff.mp hinv
      exact markInv_iff.mpr ⟨hrec.step hallowed (hC j c k b hcur), hback.step hallowed⟩)
  refine ⟨hinv.ready.highWater, fun j b res hcur hdone e he => ?_⟩
  have hcaught : g.caughtUp site i := hcurrent j _ hcur res rfl hdone
  refine (synced_iff_hasRow hinv.ready.objects).mpr ?_
  exact (markInv_iff.mp hinv).1.hasRow_of_caughtUp hcaught he

/-- A unit that was never synced, of a connection without artifacts, is ready. -/
theorem Ready.of_fresh {h : ContentHash} {site : Connectors.Site} {i : SyncInput}
    {connectorID : String} {w : World}
    (hconn : ∃ tenantID externalID,
      w.db.HasConnection i.connectionID (tenantID, connectorID, externalID))
    (hunit : ∀ u ∈ w.db.units.rows, u.is i.connectionID i.unitID = true →
      site.fits u.source ∧ u.cursor = "")
    (hrows : ∀ r ∈ w.db.artifacts.rows, r.connectionID ≠ i.connectionID) :
    Ready h site i connectorID w where
  connection := hconn
  unit := fun u hu his => (hunit u hu his).1
  objects := fun r hr hc => absurd hc (hrows r hr)
  highWater := by
    intro u hu his e _ hlt
    rw [(hunit u hu his).2] at hlt
    exact absurd hlt (List.not_lt_nil _)

/-! ### An interrupted drain of a Drive -/

/-- A Drive of one document. -/
def oneDoc : Drive where
  files := [driveDoc]
  ascending := List.pairwise_singleton _ _
  offset _ _ := 0
  offset_empty _ := rfl

/-- What it answers: its listing in one page, and an empty export. -/
def oneDocAnswers : (q : Request) → Except Err q.Reply
  | .driveFiles cursor _ _ => .ok { nextPageToken := "", files := oneDoc.since cursor }
  | .driveExport _ => .ok []
  | _ => .error (.failed "unreachable")

theorem oneDocAnswers_truthful (q : Request) (r : q.Reply) (h : oneDocAnswers q = .ok r) :
    (Connectors.Site.drive newGoogleDocs oneDoc).answers q r := by
  cases q with
  | driveFiles cursor pageSize token =>
    cases h
    simp [Connectors.Site.answers, Drive.answers, oneDoc]
  | _ => trivial

/-- A crash between the `Put` and the commit of the document, and a second execution. -/
def crashAndDrain : List (SeqEvent Unit Choice) :=
  .start () :: List.replicate 13 (.turn ⟨false, quietly oneDocAnswers⟩) ++
    .start () :: List.replicate 22 (.turn ⟨false, quietly oneDocAnswers⟩)

/-- The execution under way has returned that its unit is done. -/
def saysDone (s : Sequential World Unit Cmd Cmd.Resp (Except ActivityError SyncResult)) : Bool :=
  match s.current with
  | some (_, ⟨.pure (.ok res), _⟩) => res.done
  | _ => false

/-- The crash leaves no gap, and the second execution is done. -/
theorem crash_leaves_no_gap :
    ∃ s tr j b res, (service.sequential fun _ : Unit => driveActivities.syncUnit driveInput).Run
        ⟨freshDrive, none⟩ crashAndDrain s tr ∧
      s.current = some (j, ⟨.pure (.ok res), b⟩) ∧ res.done = true ∧
      HighWater driveActivities.contentHash (.drive newGoogleDocs oneDoc) driveInput s.world ∧
      ∀ e ∈ (Connectors.Site.drive newGoogleDocs oneDoc).items,
        Synced driveActivities.contentHash driveInput s.world e := by
  obtain ⟨s, tr, hrun, hend⟩ := Lts.exists_run_of_any
    (service.sequential fun _ : Unit => driveActivities.syncUnit driveInput)
    ⟨freshDrive, none⟩ crashAndDrain
    (fun s _ => saysDone s) (by decide +kernel)
  have hready : Ready driveActivities.contentHash (.drive newGoogleDocs oneDoc) driveInput "gdocs"
      freshDrive := by
    refine .of_fresh ⟨"acme", "ann@acme", ?_⟩ (fun u hu _ => ⟨trivial, ?_⟩) fun r hr => ?_
    · unfold Database.HasConnection
      decide +kernel
    · have hcursors : ∀ u ∈ freshDrive.db.units.rows, u.cursor = "" := by decide +kernel
      exact hcursors u hu
    · cases hr
  -- every event of the run is a start or a turn, and the source answers as it should
  have htrue : ∀ e ∈ crashAndDrain,
      ∀ (s : Sequential World Unit Cmd Cmd.Resp (Except ActivityError SyncResult))
        (_ : List (Performed World Choice Cmd)),
      SeqMeets (truthful (.drive newGoogleDocs oneDoc)) s e := by
    intro e he s _
    have hturn : e = .start () ∨ e = .turn ⟨false, quietly oneDocAnswers⟩ := by
      simp only [crashAndDrain, List.mem_append, List.mem_cons, List.mem_replicate] at he
      tauto
    rcases hturn with rfl | rfl
    · trivial
    · intro j c k b _
      cases c with
      | request q => exact oneDocAnswers_truthful q
      | _ => trivial
  have hreg : driveActivities.reg.get "gdocs" = some newGoogleDocs.connector := by
    simp [driveActivities, Registry.get, GoogleDocs.connector]
  have hall := cursor_high_water driveActivities (.drive newGoogleDocs oneDoc) driveInput hreg
    rfl (hrun.of_events htrue) hready
  unfold saysDone at hend
  split at hend
  · rename_i j res b hcur
    exact ⟨s, tr, j, b, res, hrun, hcur, hend, hall.1, hall.2 j b res hcur hend⟩
  · cases hend

end Hivebook
