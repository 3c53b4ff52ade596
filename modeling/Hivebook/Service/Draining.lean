import Hivebook.Connectors.Pages
import Hivebook.Service.Commands
import Hivebook.Service.HighWater

/-!
# What an execution of `SyncUnit` may do to its unit

The protocol of an execution whatever its source answers.  The items it commits are those
of the last page it was served, in their order, each only when those before it have a row;
and it writes the cursor only to the position of such an item, beyond the mark it has in
memory: the cursor it last read or wrote itself.  It reads its unit before the first page.

## Main definitions

* `Draining` — what an execution has read and written; `Draining.due` — the item is next.
* `draining` — the protocol.

## Main results

* `follows_draining` — **every execution follows the protocol.**
-/

namespace Hivebook

open Database Connectors Admission

/-- What a running execution has read and written. -/
structure Draining where
  /-- The database has answered truthfully which connector the connection is of. -/
  honest : Prop
  /-- The unit, as it was read. -/
  unit : Option SyncUnit
  /-- The cursor it last read or wrote. -/
  mark : String
  /-- The entries of the last page. -/
  page : List Entry
  /-- How many pages were served. -/
  pages : ℕ
  /-- The last page says that there are more. -/
  more : Bool
  /-- Keys of manifest rows that are there. -/
  known : List (Uuid × String)

/-- An execution that starts. -/
def Draining.init : Draining :=
  { honest := True, unit := none, mark := "", page := [], pages := 0, more := true, known := [] }

/-- A page is served. -/
def Draining.serve (g : Draining) (q : Request) (r : q.Reply) : Draining :=
  { g with page := q.entries r, pages := g.pages + 1, more := q.more r }

/-- The item is on the last page, and those before it have a row. -/
def Draining.due (g : Draining) (i : SyncInput) (e : Entry) : Prop :=
  ∃ before after, g.page = before ++ e :: after ∧
    ∀ e' ∈ before, (i.connectionID, e'.externalID) ∈ g.known

section Protocol

variable (k : Stock) (i : SyncInput) (connectorID : String)

/-- How a response moves an execution on.  The mark moves with a write of the cursor even
if the write fails, and with a commit only if it succeeds. -/
def Draining.next (g : Draining) : (c : Cmd) → c.Resp → Draining
  | .statement (.getConnectionByID id), .ok conn =>
      { g with honest := g.honest ∧ (id = i.connectionID → conn.connectorID = connectorID) }
  | .statement (.getSyncUnit _ _), .ok u => { g with unit := some u, mark := u.cursor }
  | .statement (.getArtifactContentHash id externalID), .ok _ =>
      { g with known := (id, externalID) :: g.known }
  | .statement (.commitArtifact p _ cursor), .ok _ =>
      { g with known := (p.connectionID, p.externalID) :: g.known, mark := cursor.getD g.mark }
  | .statement (.setUnitCursor _ _ cursor), _ => { g with mark := cursor }
  | .request q, .ok r => if q.isListing then g.serve q r else g
  | _, _ => g

/-- What an execution may do. -/
def draining : Protocol Draining Cmd Cmd.Resp where
  allowed g
    | .putObject _ _ _ _ => True
    | .deleteObject _ _ => False
    | .request q => q.isListing = true → g.honest → ∃ u, g.unit = some u ∧
        k.lists u.source u.cursor g.pages q ∧ g.more = true ∧
          ∀ e ∈ g.page, (i.connectionID, e.externalID) ∈ g.known
    | .statement (.commitArtifact p unitID cursor) =>
        (p.connectionID = i.connectionID ∧ unitID = i.unitID) ∧ (g.honest → ∃ e, g.due i e ∧
          p.externalID = e.externalID ∧ p.sourceUpdatedAt = nullTime e.updatedAt ∧
            ∀ c, cursor = some c → c = e.cursor ∧ g.mark < c)
    | .statement (.setUnitCursor id unitID cursor) =>
        (id = i.connectionID ∧ unitID = i.unitID) ∧ (g.honest → ∃ e, g.due i e ∧
          (i.connectionID, e.externalID) ∈ g.known ∧ cursor = e.cursor ∧ g.mark < cursor)
    | .statement (.getSyncUnit id unitID) => g.honest →
        (id = i.connectionID ∧ unitID = i.unitID) ∧ g.pages = 0 ∧ g.page = []
    | .statement (.acquireAdmission _) | .statement (.releaseAdmission _) => True
    | .statement s => s.steady = true
    | .ctxErr | .clock | .signalWorkflow _ _ => True
  next := Draining.next i connectorID

end Protocol

section Follows

variable {k : Stock} {i : SyncInput} {connectorID : String}

/-- More is known, and the reading has not moved. -/
structure Draining.Grows (g g' : Draining) : Prop where
  honest : g'.honest → g.honest
  unit : g'.unit = g.unit
  mark : g'.mark = g.mark
  page : g'.page = g.page
  pages : g'.pages = g.pages
  more : g'.more = g.more
  known : g.known ⊆ g'.known

theorem Draining.Grows.refl (g : Draining) : g.Grows g :=
  ⟨id, rfl, rfl, rfl, rfl, rfl, List.Subset.refl _⟩

theorem Draining.Grows.trans {g g' g'' : Draining} (h : g.Grows g') (h' : g'.Grows g'') :
    g.Grows g'' :=
  ⟨fun hg => h.honest (h'.honest hg), h'.unit.trans h.unit, h'.mark.trans h.mark,
    h'.page.trans h.page, h'.pages.trans h.pages, h'.more.trans h.more,
    List.Subset.trans h.known h'.known⟩

/-- A silent command is allowed, and only learns. -/
theorem draining_of_silent {c : Cmd} (hc : c.silent = true) (g : Draining) :
    (draining k i connectorID).allowed g c ∧
      ∀ r, g.Grows ((draining k i connectorID).next g c r) := by
  cases c with
  | request q =>
    have hlisting : q.isListing = false := by simpa [Cmd.silent] using hc
    refine ⟨fun h => ?_, fun r => ?_⟩
    · rw [hlisting] at h
      cases h
    · cases r with
      | error e => exact .refl g
      | ok r =>
        show g.Grows (if q.isListing = true then _ else _)
        rw [if_neg (by simp [hlisting])]
        exact .refl g
  | statement s =>
    refine ⟨?_, fun r => ?_⟩
    · cases s <;> first | exact hc | cases hc
    · cases s with
      | getConnectionByID id =>
        cases r with
        | error e => exact .refl g
        | ok conn => exact { Draining.Grows.refl g with honest := And.left }
      | getArtifactContentHash id externalID =>
        cases r with
        | error e => exact .refl g
        | ok hash => exact { Draining.Grows.refl g with known := List.subset_cons_self _ _ }
      | _ => first | exact .refl g | cases hc
  | putObject _ _ _ _ => cases hc
  | deleteObject _ _ => cases hc
  | _ => exact ⟨trivial, fun _ => .refl g⟩

theorem Silent.follows_draining {α : Type} {p : Program α} (hp : Silent p) (g : Draining) :
    p.Follows (draining k i connectorID) (fun _ => g.Grows) g := by
  refine Prog.follows_of_uses (hp.mono fun c hc g' hg' => ?_) (.refl g)
  obtain ⟨hallowed, hnext⟩ := draining_of_silent hc g'
  exact ⟨hallowed, fun r => hg'.trans (hnext r)⟩

/-- Nothing but its own unit is required of an execution whose connection is of another
connector. -/
theorem follows_draining_of_not_honest {α : Type} {p : Program α} (hp : p.Uses (Cmd.syncs i))
    {g : Draining} (hg : ¬ g.honest) :
    p.Follows (draining k i connectorID) (fun _ g => ¬ g.honest) g := by
  refine Prog.follows_of_uses (hp.mono fun c hc g hg => ⟨?_, fun r => ?_⟩) hg
  · cases c with
    | statement s =>
      cases s with
      | commitArtifact p unitID cursor => exact ⟨hc, fun h => absurd h hg⟩
      | setUnitCursor id unitID cursor => exact ⟨hc, fun h => absurd h hg⟩
      | getSyncUnit id unitID => exact fun h => absurd h hg
      | _ => exact hc
    | request q => exact fun _ h => absurd h hg
    | deleteObject _ _ => cases hc
    | _ => trivial
  · cases c with
    | statement s =>
      cases r with
      | error e => cases s <;> exact hg
      | ok r =>
        cases s with
        | getConnectionByID id => exact fun h => hg h.1
        | _ => exact hg
    | request q =>
      cases r with
      | error e => exact hg
      | ok r =>
        show ¬ (if q.isListing = true then _ else _ : Draining).honest
        split <;> exact hg
    | putObject _ _ _ _ => cases r <;> exact hg
    | deleteObject _ _ => cases hc
    | signalWorkflow _ _ => cases r <;> exact hg
    | _ => exact hg

/-- The execution stands where its connector does. -/
structure Tracked (i : SyncInput) (unit : SyncUnit) (d : Reading) (st : EmitState)
    (g : Draining) : Prop where
  unit : g.unit = some unit
  mark : g.mark = st.high
  pages : g.pages = d.pages
  more : g.more = d.more
  page : ∃ emitted, g.page = emitted ++ d.todo ∧
    ∀ e ∈ emitted, (i.connectionID, e.externalID) ∈ g.known

section Emit

variable {unit : SyncUnit} {d : Reading} {st : EmitState} {g : Draining} {art : Artifact}
  {tail : List Entry}

theorem Tracked.grows {g' : Draining} (h : Tracked i unit d st g) (hg : g.Grows g') :
    Tracked i unit d st g' := by
  refine ⟨hg.unit.trans h.unit, hg.mark.trans h.mark, hg.pages.trans h.pages,
    hg.more.trans h.more, ?_⟩
  obtain ⟨emitted, hpage, hknown⟩ := h.page
  exact ⟨emitted, hg.page.trans hpage, fun e he => hg.known (hknown e he)⟩

/-- The item that is handed to `emit` is due. -/
theorem Tracked.due (h : Tracked i unit d st g) (hart : d.todo = art.entry :: tail) :
    g.due i art.entry := by
  obtain ⟨emitted, hpage, hknown⟩ := h.page
  exact ⟨emitted, tail, hpage.trans (by rw [hart]), hknown⟩

/-- An item that has a row is emitted. -/
theorem Tracked.emit (h : Tracked i unit d st g) (hart : d.todo = art.entry :: tail)
    (hknown : (i.connectionID, art.externalID) ∈ g.known) :
    Tracked i unit { d with todo := d.todo.tail } st g := by
  refine ⟨h.unit, h.mark, h.pages, h.more, ?_⟩
  obtain ⟨emitted, hpage, hemitted⟩ := h.page
  refine ⟨emitted ++ [art.entry], ?_, fun e he => ?_⟩
  · rw [hpage, hart]
    simp
  · rcases List.mem_append.mp he with he | he
    · exact hemitted e he
    · rw [List.mem_singleton.mp he]
      exact hknown

/-- An unchanged item: it has a row, and the cursor moves to it. -/
theorem follows_draining_unchanged {cursor : String} (h : Tracked i unit d st g)
    (hart : d.todo = art.entry :: tail) (hknown : (i.connectionID, art.externalID) ∈ g.known) :
    (Activities.emitUnchanged i art st).Follows (draining k i connectorID)
      (fun r g' => Tracked i unit ((paged k unit.source cursor).next d (.emit art) r.1) r.2 g')
      g := by
  unfold Activities.emitUnchanged
  split
  · rename_i hlt
    refine ⟨⟨⟨rfl, rfl⟩, fun _ => ⟨art.entry, h.due hart, hknown, rfl, ?_⟩⟩, fun r => ?_⟩
    · rw [h.mark]
      exact hlt
    · have hemit := h.emit hart hknown
      exact ⟨hemit.unit, rfl, hemit.pages, hemit.more, hemit.page⟩
  · exact h.emit hart hknown

/-- The mark after a commit is the one `emit` has in memory. -/
theorem getD_eq_advanced (high cursor : String) :
    (if cursor ≠ "" ∧ high < cursor then some cursor else none : Option String).getD high =
      Activities.advanced high cursor := by
  unfold Activities.advanced
  split <;> rfl

/-- A changed item: the commit moves the cursor to it. -/
theorem follows_draining_changed (a : Activities) {cursor : String} (conn : Connection)
    (hash : String) (h : Tracked i unit d st g) (hart : d.todo = art.entry :: tail) :
    (a.emitChanged i conn art hash st).Follows (draining k i connectorID)
      (fun r g' => Tracked i unit ((paged k unit.source cursor).next d (.emit art) r.1) r.2 g')
      g := by
  refine ⟨trivial, fun r => ?_⟩
  cases r with
  | error e => exact h
  | ok _ =>
    refine ⟨⟨⟨rfl, rfl⟩, fun _ => ⟨art.entry, h.due hart, rfl, rfl, fun c hc => ?_⟩⟩, fun r => ?_⟩
    · split at hc
      · rename_i hlt
        cases hc
        refine ⟨rfl, ?_⟩
        show g.mark < art.cursor
        rw [h.mark]
        exact hlt.2
      · cases hc
    · cases r with
      | error e => exact h
      | ok _ =>
        refine ((Activities.silent_noteProgress i _).follows_draining _).bind fun _ g' hg' => ?_
        refine Tracked.emit ⟨hg'.unit.trans h.unit, hg'.mark.trans ?_, hg'.pages.trans h.pages,
          hg'.more.trans h.more, ?_⟩ hart (hg'.known (List.mem_cons_self ..))
        · show Option.getD _ g.mark = _
          rw [h.mark]
          exact getD_eq_advanced _ _
        · obtain ⟨emitted, hpage, hemitted⟩ := h.page
          refine ⟨emitted, hg'.page.trans hpage, fun e he => hg'.known ?_⟩
          exact List.mem_cons_of_mem _ (hemitted e he)

/-- **`emit`** commits the item that is due, and an item it has emitted has a row. -/
theorem follows_draining_makeEmit (a : Activities) {cursor : String} (conn : Connection)
    (h : Tracked i unit d st g) (hart : d.todo = art.entry :: tail) :
    (a.makeEmit i conn art st).Follows (draining k i connectorID)
      (fun r g' => Tracked i unit ((paged k unit.source cursor).next d (.emit art) r.1) r.2 g')
      g := by
  refine ⟨trivial, fun b => ?_⟩
  show Prog.Follows _ _ _ (if b = true then _ else _)
  split
  · exact h
  · refine ⟨rfl, fun r => ?_⟩
    cases r with
    | ok prev =>
      have hgrows : g.Grows (g.next i connectorID
          (.statement (.getArtifactContentHash i.connectionID art.externalID)) (.ok prev)) :=
        { Draining.Grows.refl g with known := List.subset_cons_self _ _ }
      show Prog.Follows _ _ _ (if prev = a.contentHash.hash art.raw then _ else _)
      split
      · exact follows_draining_unchanged (h.grows hgrows) hart (List.mem_cons_self ..)
      · exact follows_draining_changed a conn _ (h.grows hgrows) hart
    | error e =>
      cases e with
      | noRows => exact follows_draining_changed a conn _ h hart
      | _ => exact h

end Emit

section SyncUnit

variable (a : Activities)

/-- The drain of one of the connectors. -/
theorem follows_draining_drain (conn : Connection) {connector : Connector} {unit : SyncUnit}
    {g : Draining} (hstock : connector.syncUnit = k.syncUnit)
    (h : Tracked i unit Reading.init { high := unit.cursor, written := 0 } g) :
    (a.drain i conn connector unit).Follows (draining k i connectorID) (fun _ _ => True) g := by
  have hpaged := k.follows unit.source unit.cursor
  rw [← hstock] at hpaged
  refine (Prog.Follows.interpret (I := fun d st g => Tracked i unit d st g) hpaged ?_ h).mono
    fun _ _ _ => trivial
  intro c st d g hd hc
  cases c with
  | emit art =>
    obtain ⟨tail, htail⟩ := hc
    exact follows_draining_makeEmit a conn hd htail
  | fetch c =>
    cases c with
    | ctxErr => exact ⟨trivial, fun b => hd⟩
    | request q =>
      obtain ⟨hlists, hready⟩ := hc
      refine ⟨fun hlisting _ => ?_, fun r => ?_⟩
      · obtain ⟨htodo, hmore⟩ := hready hlisting
        obtain ⟨emitted, hpage, hemitted⟩ := hd.page
        refine ⟨unit, hd.unit, hd.pages ▸ hlists, hd.more.trans hmore, ?_⟩
        rw [hpage, htodo, List.append_nil]
        exact hemitted
      · cases r with
        | error e => exact hd
        | ok r =>
          show Tracked i unit (if q.isListing = true then _ else _) st
            (if q.isListing = true then _ else _)
          by_cases hlisting : q.isListing = true
          · rw [if_pos hlisting, if_pos hlisting]
            refine ⟨hd.unit, hd.mark, congrArg (· + 1) hd.pages, rfl, [], rfl, ?_⟩
            simp
          · rw [if_neg hlisting, if_neg hlisting]
            exact hd

theorem follows_draining_acquire (s : Scope) (name : String) (seed : RateBudget) (g : Draining) :
    (acquire s name seed).Follows (draining k i connectorID) (fun _ => g.Grows) g := by
  refine ⟨rfl, fun r => ?_⟩
  cases r with
  | error e => exact .refl g
  | ok _ =>
    refine ⟨trivial, fun r => ?_⟩
    dsimp only [Prog.pure_bind]
    split <;> exact .refl g

/-- `SyncUnit` from the slot on. -/
theorem follows_draining_admitted (conn : Connection) {connector : Connector} {unit : SyncUnit}
    {g : Draining}
    (hdrain : ∀ g', g.Grows g' → (a.drain i conn connector unit).Follows
      (draining k i connectorID) (fun _ _ => True) g') :
    (a.admitted i conn connector unit).Follows (draining k i connectorID) (fun _ _ => True) g := by
  refine (follows_draining_acquire _ _ _ g).bind fun r g₁ hg₁ => ?_
  split
  · trivial
  · trivial
  · refine Prog.Follows.bind (R := fun _ _ => True) ?_ fun r g₂ _ => ⟨trivial, fun _ => trivial⟩
    refine (hdrain g₁ hg₁).bind fun r g₂ _ => ?_
    exact ((Activities.silent_finishUnit _ _ _ _ _).follows_draining g₂).mono fun _ _ _ => trivial

/-- **Every execution of `SyncUnit` follows the protocol.** -/
theorem follows_draining {connector : Connector} (hreg : a.reg.get connectorID = some connector)
    (hstock : connector.syncUnit = k.syncUnit) :
    (a.syncUnit i).Follows (draining k i connectorID) (fun _ _ => True) Draining.init := by
  refine ⟨rfl, fun r => ?_⟩
  cases r with
  | error e => trivial
  | ok conn =>
    dsimp only [Prog.pure_bind]
    cases hget : a.reg.get conn.connectorID with
    | none => trivial
    | some connector' =>
      refine ⟨fun _ => ⟨⟨rfl, rfl⟩, rfl, rfl⟩, fun r => ?_⟩
      cases r with
      | error e => trivial
      | ok unit =>
        have htracked : ∀ g' : Draining, ((draining k i connectorID).next
            ((draining k i connectorID).next Draining.init
              (.statement (.getConnectionByID i.connectionID)) (.ok conn))
            (.statement (.getSyncUnit i.connectionID i.unitID)) (.ok unit)).Grows g' →
            (a.drain i conn connector' unit).Follows (draining k i connectorID)
              (fun _ _ => True) g' := by
          intro g' hg'
          by_cases hconn : conn.connectorID = connectorID
          · rw [hconn, hreg] at hget
            cases hget
            refine follows_draining_drain a conn hstock ?_
            exact ⟨hg'.unit, hg'.mark, hg'.pages, hg'.more, [], hg'.page, by simp⟩
          · -- a drain of another connector
            refine (follows_draining_of_not_honest (syncs_drain a i conn connector' unit)
              fun hh => ?_).mono fun _ _ _ => trivial
            exact hconn ((hg'.honest hh).2 rfl)
        generalize (draining k i connectorID).next _ _ _ = g₁ at htracked ⊢
        refine ⟨rfl, fun r => ?_⟩
        cases r with
        | error e => trivial
        | ok _ =>
          refine ⟨rfl, fun _ => ?_⟩
          refine ((a.signsIn_clientFor conn).silent.follows_draining g₁).bind fun r g₂ hg₂ => ?_
          split
          · exact ((Activities.silent_classify _ _ _).follows_draining g₂).bind
              fun _ _ _ => trivial
          · exact follows_draining_admitted a conn fun g' hg' => htracked g' (hg₂.trans hg')

end SyncUnit

end Follows

/-! ### What a statement tells an execution -/

section Statements

variable {k : Stock} {i : SyncInput} {connectorID : String} {w : World} {g : Draining}
  {s : Statement}

theorem page_next_statement (r : Except Err s.Reply) :
    (g.next i connectorID (.statement s) r).page = g.page := by
  cases r <;> cases s <;> rfl

/-- The connector of a connection is the one its row has. -/
theorem honest_next_statement (hg : g.honest) {x : Choice} {b : Bool}
    (hconn : ∃ tenantID externalID,
      w.db.HasConnection i.connectionID (tenantID, connectorID, externalID)) :
    (g.next i connectorID (.statement s) (service.perform x b w (.statement s)).2).honest := by
  rw [service_statement]
  cases hr : x.reply b (s.exec (w.now + x.elapsed) w.db).1 with
  | error e => cases s <;> exact hg
  | ok r =>
    cases s with
    | getConnectionByID id =>
      refine ⟨hg, fun hid => ?_⟩
      obtain ⟨hmem, hrow⟩ := mem_of_getConnectionByID (of_reply_eq_ok hr).2
      obtain ⟨tenantID, externalID, hhas⟩ := hconn
      exact congrArg (fun key => key.2.1) (key_of_hasConnection hhas hmem (hrow.trans hid))
    | _ => exact hg

/-- An execution discovers nothing. -/
theorem ne_upsert_of_draining
    (hs : (draining k i connectorID).allowed g (.statement s)) :
    ∀ id x name kind g, s ≠ .upsertSyncUnit id x name kind g := by
  rintro id x name kind g rfl
  cases hs

/-- And it erases nothing. -/
theorem ne_confirm_of_draining (hs : (draining k i connectorID).allowed g (.statement s)) :
    ∀ ids, s ≠ .confirmArtifactDeletes ids := by
  rintro ids rfl
  cases hs

end Statements

end Hivebook
