import Hivebook.Service.Inventory
import Hivebook.Service.Visibility

/-!
# A disconnect and the writes in flight

`Disconnect` soft-deletes the connection, hides its artifacts, queues them for erasure
and tells the workflow to stop, one statement after another.  A `SyncUnit` in flight
keeps committing items meanwhile, and its transaction does not look at the connection.

In any interleaving of disconnects of a connection with executions of `SyncUnit` on it,
every artifact of the connection is hidden and queued if and only if every insert of a
row is followed by a mark that takes effect.

## Main definitions

* `Racer`, `Racer.prog` — the two kinds of program that race.
* `Inserts`, `Marks`, `Hides` — the steps that decide the race.
* `Caught` — the condition on the steps of a run.
* `Revoked` — every artifact of the connection is hidden and queued.

## Main results

* `revoked_iff_caught` — **once a disconnect has succeeded, every artifact is hidden and
  queued if and only if the marks caught every insert.**
* `late_commit_escapes` — a commit right after the mark leaves a row that is neither.
-/

namespace Hivebook

open Database Machine Connectors

/-- A performed command of the service. -/
abbrev Done := Performed World Choice Cmd

/-! ### The race -/

/-- What races: disconnects of a connection, and executions of `SyncUnit` on it. -/
inductive Racer where
  | disconnect
  | syncUnit (i : SyncInput)
  deriving DecidableEq, Repr

/-- The programs; only a disconnect has an answer. -/
def Racer.prog (a : Activities) (sv : Server) (t : String) (c : Uuid) :
    Racer → Program (Option (Except RpcError Unit))
  | .disconnect => (sv.disconnect (some t) c).bind fun r => .pure (some r)
  | .syncUnit i => (a.syncUnit { i with connectionID := c }).bind fun _ => .pure none

/-- Some artifact of the connection is not queued for erasure. -/
def Unqueued (c : Uuid) (db : Database) : Prop :=
  ∃ r ∈ db.artifacts.rows, r.connectionID = c ∧ r.purgePending = false

/-- Some artifact of the connection is queued and not hidden. -/
def Exposed (c : Uuid) (db : Database) : Prop :=
  ∃ r ∈ db.artifacts.rows, r.connectionID = c ∧ r.purgePending = true ∧ r.deletedAt = none

/-- Every artifact of the connection is hidden and queued, and `ListArtifacts` returns
none. -/
def Revoked (c : Uuid) (db : Database) : Prop :=
  ∀ r ∈ db.artifacts.rows, r.connectionID = c →
    r.deletedAt.isSome ∧ r.purgePending = true ∧ ¬ Shown db r

/-- An emit that takes effect inserts a row of the connection. -/
def Inserts (c : Uuid) (l : Done) : Prop :=
  tookEffect l = true ∧ ∃ p unitID cursor, l.cmd = .statement (.commitArtifact p unitID cursor) ∧
    p.connectionID = c ∧
    (p.connectionID, p.externalID) ∉ l.state.db.artifacts.rows.map RawArtifact.key

/-- The mark of the connection takes effect. -/
def Marks (c : Uuid) (t : String) (l : Done) : Prop :=
  tookEffect l = true ∧ l.cmd = .statement (.markConnectionArtifactsPurgePending c t)

/-- The soft delete of the connection's artifacts takes effect. -/
def Hides (c : Uuid) (t : String) (l : Done) : Prop :=
  tookEffect l = true ∧ l.cmd = .statement (.softDeleteConnectionArtifacts c t)

/-- The steps of a run caught every artifact of the connection. -/
structure Caught (c : Uuid) (t : String) (w : World) (tr : List Done) : Prop where
  /-- Every insert is followed by a mark. -/
  inserted : ¬ Pending (Inserts c) (Marks c t) (fun _ => False) tr
  /-- What was not queued before is marked. -/
  unqueued : Unqueued c w.db → ∃ l ∈ tr, Marks c t l
  /-- What was queued and not hidden before is hidden. -/
  exposed : Exposed c w.db → ∃ l ∈ tr, Hides c t l

theorem revoked_iff {c : Uuid} {db : Database} :
    Revoked c db ↔ ¬ Unqueued c db ∧ ¬ Exposed c db := by
  constructor
  · intro h
    refine ⟨?_, ?_⟩
    · rintro ⟨r, hr, hc, hp⟩
      have hpending := (h r hr hc).2.1
      rw [hp] at hpending
      cases hpending
    · rintro ⟨r, hr, hc, -, hd⟩
      have hdeleted := (h r hr hc).1
      rw [hd] at hdeleted
      cases hdeleted
  · rintro ⟨hunqueued, hexposed⟩ r hr hc
    have hp : r.purgePending = true := by
      cases hp : r.purgePending with
      | true => rfl
      | false => exact absurd ⟨r, hr, hc, hp⟩ hunqueued
    have hd : r.deletedAt ≠ none := fun hd => hexposed ⟨r, hr, hc, hp, hd⟩
    exact ⟨Option.isSome_iff_ne_none.mpr hd, hp, fun hs => hd hs.deletedAt.2⟩

/-! ### What the racers do -/

/-- What a racer has read and marked. -/
structure Sight where
  /-- The rows of the connection it has read. -/
  seen : List Connection
  /-- The connections whose artifacts it has marked. -/
  marked : List Uuid

/-- What a response adds. -/
def Sight.next (c : Uuid) (t : String) (g : Sight) : (cmd : Cmd) → cmd.Resp → Sight
  | .statement (.getConnectionByID id), .ok conn =>
      if id = c then { g with seen := conn :: g.seen } else g
  | .statement (.getConnection id tenantID), .ok conn =>
      if id = c ∧ tenantID = t then { g with seen := conn :: g.seen } else g
  | .statement (.markConnectionArtifactsPurgePending id tenantID), _ =>
      if tenantID = t then { g with marked := id :: g.marked } else g
  | _, _ => g

/-- What a racer may do: it commits rows of the connection for the tenant it read, and
the only other statements on the manifest are those of a disconnect. -/
def race (c : Uuid) (t : String) : Protocol Sight Cmd Cmd.Resp where
  allowed g
    | .statement (.commitArtifact p _ _) =>
        p.connectionID = c ∧ ∃ conn ∈ g.seen, p.tenantID = conn.tenantID
    | .statement (.softDeleteConnectionArtifacts _ _)
    | .statement (.markConnectionArtifactsPurgePending _ _)
    | .statement (.acquireAdmission _) | .statement (.releaseAdmission _) => True
    | .statement s => s.plain = true
    | _ => True
  next := Sight.next c t

variable {c : Uuid} {t : String}

/-- Nothing read or marked is forgotten. -/
theorem Sight.next_mono (g : Sight) (cmd : Cmd) (r : cmd.Resp) :
    g.seen ⊆ (g.next c t cmd r).seen ∧ g.marked ⊆ (g.next c t cmd r).marked := by
  unfold Sight.next
  split
  · split
    · exact ⟨List.subset_cons_self _ _, List.Subset.refl _⟩
    · exact ⟨List.Subset.refl _, List.Subset.refl _⟩
  · split
    · exact ⟨List.subset_cons_self _ _, List.Subset.refl _⟩
    · exact ⟨List.Subset.refl _, List.Subset.refl _⟩
  · split
    · exact ⟨List.Subset.refl _, List.subset_cons_self _ _⟩
    · exact ⟨List.Subset.refl _, List.Subset.refl _⟩
  · exact ⟨List.Subset.refl _, List.Subset.refl _⟩

/-- What an execution of `SyncUnit` may do once it has read the connection. -/
def Cmd.emitsFor (c : Uuid) (tenantID : String) : Cmd → Prop
  | .statement (.commitArtifact p _ _) => p.connectionID = c ∧ p.tenantID = tenantID
  | .statement (.acquireAdmission _) | .statement (.releaseAdmission _) => True
  | .statement s => s.plain = true
  | _ => True

theorem emitsFor_of_plain {tenantID : String} {cmd : Cmd} (h : cmd.plain = true) :
    cmd.emitsFor c tenantID := by
  cases cmd with
  | statement s => cases s <;> first | exact h | cases h
  | _ => trivial

theorem Plain.emitsFor {α : Type} {p : Program α} (hp : Plain p) (c : Uuid) (tenantID : String) :
    p.Uses (Cmd.emitsFor c tenantID) :=
  hp.mono fun _ hc => emitsFor_of_plain hc

theorem race_of_emitsFor {conn : Connection} {cmd : Cmd} {g : Sight} (hconn : conn ∈ g.seen)
    (h : cmd.emitsFor c conn.tenantID) : (race c t).allowed g cmd := by
  cases cmd with
  | statement s =>
    cases s <;> first | exact ⟨h.1, conn, hconn, h.2⟩ | exact h | cases h
  | _ => trivial

/-- What commits for the tenant of a connection read before may race. -/
theorem follows_of_emitsFor {α : Type} {p : Program α} {conn : Connection} {g : Sight}
    (hp : p.Uses (Cmd.emitsFor c conn.tenantID)) (hconn : conn ∈ g.seen) :
    p.Follows (race c t) (fun _ _ => True) g := by
  refine (Prog.follows_of_uses (I := fun g => conn ∈ g.seen) ?_ hconn).mono fun _ _ _ => trivial
  exact hp.mono fun cmd hcmd g hg =>
    ⟨race_of_emitsFor hg hcmd, fun r => (g.next_mono cmd r).1 hg⟩

theorem Plain.follows_race {α : Type} {p : Program α} (hp : Plain p) (g : Sight) :
    p.Follows (race c t) (fun _ g' => g.seen ⊆ g'.seen ∧ g.marked ⊆ g'.marked) g := by
  refine Prog.follows_of_uses (hp.mono fun cmd hcmd g' hg' => ⟨?_, fun r => ?_⟩)
    ⟨List.Subset.refl _, List.Subset.refl _⟩
  · cases cmd with
    | statement s => cases s <;> first | exact hcmd | cases hcmd
    | _ => trivial
  · have hnext := g'.next_mono (c := c) (t := t) cmd r
    exact ⟨List.Subset.trans hg'.1 hnext.1, List.Subset.trans hg'.2 hnext.2⟩

section SyncUnit

variable (a : Activities)

theorem emitsFor_emitChanged (i : SyncInput) (conn : Connection) (art : Artifact) (hash : String)
    (st : EmitState) :
    (a.emitChanged i conn art hash st).Uses (Cmd.emitsFor i.connectionID conn.tenantID) := by
  refine ⟨trivial, fun r => ?_⟩
  cases r with
  | error e => trivial
  | ok _ =>
    refine ⟨⟨rfl, rfl⟩, fun r => ?_⟩
    cases r with
    | error e => trivial
    | ok _ =>
      exact ((Activities.steady_noteProgress i _).plain.bind fun _ => plain_pure _).emitsFor _ _

theorem emitsFor_makeEmit (i : SyncInput) (conn : Connection) (art : Artifact) (st : EmitState) :
    (a.makeEmit i conn art st).Uses (Cmd.emitsFor i.connectionID conn.tenantID) := by
  refine ⟨trivial, fun b => ?_⟩
  show Prog.Uses _ (if b = true then _ else _)
  split
  · trivial
  · refine ⟨rfl, fun r => ?_⟩
    dsimp only [Prog.pure_bind]
    split
    · split
      · exact (Activities.plain_emitUnchanged i art st).emitsFor _ _
      · exact emitsFor_emitChanged a i conn art _ st
    · exact emitsFor_emitChanged a i conn art _ st
    · trivial

/-- Whatever the connector does, a drain commits rows of its own connection, for the
tenant of the row it was started with. -/
theorem emitsFor_admitted (i : SyncInput) (conn : Connection) (connector : Connector)
    (unit : SyncUnit) :
    (a.admitted i conn connector unit).Uses (Cmd.emitsFor i.connectionID conn.tenantID) := by
  refine Prog.Uses.bind ?_ fun r => ?_
  · refine ⟨rfl, fun r => ?_⟩
    cases r with
    | error e => trivial
    | ok _ =>
      refine ⟨trivial, fun r => ?_⟩
      dsimp only [Prog.pure_bind]
      split <;> trivial
  · split
    · trivial
    · trivial
    · refine Prog.Uses.bind ?_ fun r => ⟨trivial, fun _ => trivial⟩
      refine Prog.Uses.bind (Prog.Uses.handle ?_ _ _) fun r =>
        (Activities.steady_finishUnit _ _ _ _ _).plain.emitsFor _ _
      intro cmd st
      cases cmd with
      | fetch cmd => cases cmd <;> exact ⟨trivial, fun _ => trivial⟩
      | emit art => exact emitsFor_makeEmit a i conn art st

/-- Once its connection is loaded, `SyncUnit` commits for its tenant. -/
theorem emitsFor_syncLoaded (i : SyncInput) (conn : Connection) (connector : Connector) :
    (a.syncLoaded i conn connector).Uses (Cmd.emitsFor i.connectionID conn.tenantID) := by
  refine ⟨rfl, fun r => ?_⟩
  cases r with
  | error e => trivial
  | ok unit =>
    refine ⟨rfl, fun r => ?_⟩
    cases r with
    | error e => trivial
    | ok _ =>
      refine ⟨rfl, fun _ => ?_⟩
      refine ((a.touchesTokens_clientFor conn).steady.plain.emitsFor _ _).bind fun r => ?_
      split
      · exact ((Activities.steady_classify _ _ _).plain.bind fun _ => plain_pure _).emitsFor _ _
      · exact emitsFor_admitted a i conn connector unit

/-- An execution of `SyncUnit` commits for the tenant of the connection it loaded. -/
theorem follows_race_syncUnit (i : SyncInput) (hi : i.connectionID = c) (g : Sight) :
    (a.syncUnit i).Follows (race c t) (fun _ _ => True) g := by
  refine ⟨rfl, fun r => ?_⟩
  cases r with
  | error e => trivial
  | ok conn =>
    have hseen : conn ∈ (g.next c t (.statement (.getConnectionByID i.connectionID))
        (.ok conn)).seen := by
      simp [Sight.next, hi]
    dsimp only [Prog.pure_bind]
    cases a.reg.get conn.connectorID with
    | none => trivial
    | some connector =>
      refine follows_of_emitsFor ?_ hseen
      rw [← hi]
      exact emitsFor_syncLoaded a i conn connector

end SyncUnit

/-- A disconnect that succeeds has marked the connection it has read. -/
theorem follows_race_disconnect (sv : Server) (g : Sight) :
    (sv.disconnect (some t) c).Follows (race c t)
      (fun r g => r = .ok () → ∃ conn ∈ g.seen, conn.id ∈ g.marked) g := by
  unfold Server.disconnect requireTenant
  by_cases ht : t = ""
  · simp [ht, Prog.Follows]
  · simp only [if_neg ht]
    refine ⟨rfl, fun r => ?_⟩
    cases r with
    | error e => simp [Prog.Follows]
    | ok conn =>
      refine ⟨rfl, fun r => ?_⟩
      cases r with
      | error e => simp [Prog.Follows]
      | ok rows =>
        show Prog.Follows _ _ _ (if rows = 0 then _ else _)
        split
        · simp [Prog.Follows]
        · refine ⟨trivial, fun _ => ⟨trivial, fun _ => ⟨trivial, fun _ => ⟨rfl, fun _ => ?_⟩⟩⟩⟩
          dsimp only [Prog.pure_bind, Prog.bind_eq]
          refine ((sv.steady_uninstallApp conn).plain.follows_race _).bind fun _ g' hg' _ =>
            ⟨conn, hg'.1 ?_, hg'.2 ?_⟩
          · simp [race, Sight.next]
          · simp [race, Sight.next]

/-! ### What a statement does to the race -/

/-- The connection is there, and is the tenant's. -/
def OwnsConnection (c : Uuid) (t : String) (db : Database) : Prop :=
  ∃ rest, db.HasConnection c (t, rest)

/-- The artifacts of the connection are the tenant's. -/
def OwnsArtifacts (c : Uuid) (t : String) (db : Database) : Prop :=
  ∀ r ∈ db.artifacts.rows, r.connectionID = c → r.tenantID = t

/-- A statement keeps the artifacts of the connection with its tenant, if it commits for
no other. -/
theorem OwnsArtifacts.exec {now : Time} {db : Database} (h : OwnsArtifacts c t db)
    {s : Statement} (hs : ∀ p unitID cursor, s = .commitArtifact p unitID cursor →
      p.connectionID = c → p.tenantID = t) : OwnsArtifacts c t (s.exec now db).2 := by
  intro r' hr' hc
  cases manifestStep now db s hr' with
  | keep hr => exact h r' hr hc
  | hide r hr heq =>
    rw [heq] at hc ⊢
    exact h r hr hc
  | restore r hr _ heq =>
    rw [heq] at hc ⊢
    exact h r hr hc
  | mark r deadline hr _ heq =>
    rw [heq] at hc ⊢
    exact h r hr hc
  | rewrite r p unitID cursor hr _ _ heq =>
    rw [heq] at hc ⊢
    exact h r hr hc
  | insert p unitID cursor heqs _ heq =>
    rw [heq] at hc ⊢
    exact hs p unitID cursor heqs hc

theorem unqueued_of_artifacts {db db' : Database} (h : db'.artifacts = db.artifacts) :
    Unqueued c db' ↔ Unqueued c db := by
  unfold Unqueued
  rw [h]

theorem exposed_of_artifacts {db db' : Database} (h : db'.artifacts = db.artifacts) :
    Exposed c db' ↔ Exposed c db := by
  unfold Exposed
  rw [h]

section Statements

variable {now : Time} {db : Database}

theorem unqueued_commit (p : UpsertRawArtifactParams) (unitID : String) (cursor : Option String) :
    Unqueued c (commitArtifact now p unitID cursor db) ↔ Unqueued c db ∨
      (p.connectionID, p.externalID) ∉ db.artifacts.rows.map RawArtifact.key ∧
        p.connectionID = c := by
  unfold Unqueued
  rw [commitArtifact_artifacts]
  refine Iff.trans (Table.exists_upsert
    (P := fun r : RawArtifact => r.connectionID = c ∧ r.purgePending = false)
    fun r => Iff.rfl) (or_congr_right (and_congr_right fun _ => ?_))
  exact ⟨fun h => h.1, fun h => ⟨h, rfl⟩⟩

theorem exposed_commit (p : UpsertRawArtifactParams) (unitID : String) (cursor : Option String) :
    Exposed c (commitArtifact now p unitID cursor db) ↔ Exposed c db := by
  unfold Exposed
  rw [commitArtifact_artifacts]
  refine Iff.trans (Table.exists_upsert (P := fun r : RawArtifact =>
    r.connectionID = c ∧ r.purgePending = true ∧ r.deletedAt = none) fun r => Iff.rfl) ?_
  refine or_iff_left ?_
  rintro ⟨-, -, hp, -⟩
  cases hp

theorem unqueued_softDelete (id : Uuid) (tenantID : String) :
    Unqueued c (softDeleteConnectionArtifacts now id tenantID db) ↔ Unqueued c db :=
  Table.exists_updated (P := fun r : RawArtifact => r.connectionID = c ∧ r.purgePending = false)
    fun _ _ _ => Iff.rfl

/-- An update of a connection's artifacts that leaves none with a property leaves one only
if it was for another connection. -/
theorem exists_ofConnection {P : RawArtifact → Prop} {q : RawArtifact → Bool}
    {f : RawArtifact → RawArtifact} (h : OwnsArtifacts c t db) (id : Uuid) (tenantID : String)
    (hP : ∀ r, P r → r.connectionID = c ∧ q r = true) (hf : ∀ r, ¬ P (f r)) :
    (∃ r ∈ db.artifacts.rows.map (Table.updated (fun r => ofConnection id tenantID r && q r) f),
      P r) ↔ (∃ r ∈ db.artifacts.rows, P r) ∧ ¬ (id = c ∧ tenantID = t) := by
  have hhit : ∀ r ∈ db.artifacts.rows, P r →
      ((ofConnection id tenantID r && q r) = true ↔ id = c ∧ tenantID = t) := by
    intro r hr hPr
    obtain ⟨hc, hq⟩ := hP r hPr
    have ht := h r hr hc
    simp only [ofConnection, hc, ht, hq, Bool.and_true, Bool.and_eq_true, decide_eq_true_eq]
    exact ⟨fun h => ⟨h.1.symm, h.2.symm⟩, fun h => ⟨h.1.symm, h.2.symm⟩⟩
  constructor
  · rintro ⟨r', hr', hPr⟩
    obtain ⟨r, hr, rfl⟩ := List.mem_map.mp hr'
    unfold Table.updated at hPr
    by_cases hp : (ofConnection id tenantID r && q r) = true
    · rw [if_pos hp] at hPr
      exact absurd hPr (hf r)
    · rw [if_neg hp] at hPr
      exact ⟨⟨r, hr, hPr⟩, fun hct => hp ((hhit r hr hPr).mpr hct)⟩
  · rintro ⟨⟨r, hr, hPr⟩, hct⟩
    have hp : ¬ (ofConnection id tenantID r && q r) = true := fun hp =>
      hct ((hhit r hr hPr).mp hp)
    refine ⟨_, List.mem_map_of_mem hr, ?_⟩
    unfold Table.updated
    rw [if_neg hp]
    exact hPr

/-- The soft delete of the connection leaves none of its artifacts exposed. -/
theorem exposed_softDelete (h : OwnsArtifacts c t db) (id : Uuid) (tenantID : String) :
    Exposed c (softDeleteConnectionArtifacts now id tenantID db) ↔
      Exposed c db ∧ ¬ (id = c ∧ tenantID = t) := by
  refine exists_ofConnection (q := fun r => r.deletedAt.isNone) h id tenantID ?_ ?_
  · rintro r ⟨hc, -, hd⟩
    exact ⟨hc, by rw [hd]; rfl⟩
  · rintro r ⟨-, -, hd⟩
    cases hd

/-- The mark of the connection leaves none of its artifacts out of the queue. -/
theorem unqueued_mark (h : OwnsArtifacts c t db) (id : Uuid) (tenantID : String) :
    Unqueued c (markConnectionArtifactsPurgePending now id tenantID db) ↔
      Unqueued c db ∧ ¬ (id = c ∧ tenantID = t) := by
  refine exists_ofConnection (q := fun r => !r.purgePending) h id tenantID ?_ ?_
  · rintro r ⟨hc, hq⟩
    exact ⟨hc, by rw [hq]; rfl⟩
  · rintro r ⟨-, hq⟩
    cases hq

/-- A mark hides what it queues. -/
theorem exposed_mark (id : Uuid) (tenantID : String) :
    Exposed c (markConnectionArtifactsPurgePending now id tenantID db) ↔ Exposed c db := by
  refine Table.exists_updated (P := fun r : RawArtifact =>
    r.connectionID = c ∧ r.purgePending = true ∧ r.deletedAt = none) fun r _ hp => ?_
  simp only [Bool.and_eq_true, Bool.not_eq_true'] at hp
  refine iff_of_false ?_ (fun hr => ?_)
  · rintro ⟨-, -, hd⟩
    cases hd
  · rw [hp.2] at hr
    cases hr.2.1

/-- **The statements of the race**: an emit, a soft delete, a mark, or one that leaves the
manifest alone. -/
theorem race_statement {g : Sight} {s : Statement} (hs : (race c t).allowed g (.statement s)) :
    (∃ p unitID cursor, s = .commitArtifact p unitID cursor ∧
      p.connectionID = c ∧ ∃ conn ∈ g.seen, p.tenantID = conn.tenantID) ∨
    (∃ id tenantID, s = .softDeleteConnectionArtifacts id tenantID) ∨
    (∃ id tenantID, s = .markConnectionArtifactsPurgePending id tenantID) ∨
    ((∀ now db, (s.exec now db).2.artifacts = db.artifacts) ∧
      (∀ p unitID cursor, s ≠ .commitArtifact p unitID cursor) ∧
      (∀ id tenantID, s ≠ .softDeleteConnectionArtifacts id tenantID) ∧
      ∀ id tenantID, s ≠ .markConnectionArtifactsPurgePending id tenantID) := by
  cases s with
  | commitArtifact p unitID cursor => exact Or.inl ⟨p, unitID, cursor, rfl, hs⟩
  | softDeleteConnectionArtifacts id tenantID => exact Or.inr (Or.inl ⟨id, tenantID, rfl⟩)
  | markConnectionArtifactsPurgePending id tenantID =>
    exact Or.inr (Or.inr (Or.inl ⟨id, tenantID, rfl⟩))
  | acquireAdmission k =>
    have hsame : (Statement.acquireAdmission k).writesArtifacts = false := rfl
    exact Or.inr (Or.inr (Or.inr ⟨fun now db => artifacts_exec now db hsame, by simp, by simp,
      by simp⟩))
  | releaseAdmission k =>
    exact Or.inr (Or.inr (Or.inr ⟨fun _ _ => rfl, by simp, by simp, by simp⟩))
  | _ =>
    exact Or.inr (Or.inr (Or.inr ⟨Statement.plain_artifacts hs, by simp, by simp, by simp⟩))

end Statements

/-! ### One step of the race -/

section Step

variable {x : Choice} {b : Bool} {w : World} {g : Sight} {cmd : Cmd}

/-- A command that takes no effect, or is no statement, leaves the race alone. -/
theorem idle_step (h : ¬ (x.takesEffect b = true ∧ ∃ s, cmd = .statement s)) :
    (service.perform x b w cmd).1.db = w.db ∧ ¬ Inserts c ⟨w, cmd, b, x⟩ ∧
      ¬ Marks c t ⟨w, cmd, b, x⟩ ∧ ¬ Hides c t ⟨w, cmd, b, x⟩ := by
  refine ⟨?_, ?_, fun hm => h ⟨hm.1, _, hm.2⟩, fun hh => h ⟨hh.1, _, hh.2⟩⟩
  · rw [service_db]
    cases cmd with
    | statement s => exact if_neg fun hx => h ⟨hx, s, rfl⟩
    | _ => rfl
  · rintro ⟨hx, p, unitID, cursor, heq, -⟩
    exact h ⟨hx, _, heq⟩

/-- What is out of the queue after a command was inserted by it, or was out before and
the command is no mark. -/
theorem unqueued_step (hw : OwnsArtifacts c t w.db) (hc : (race c t).allowed g cmd) :
    Unqueued c (service.perform x b w cmd).1.db ↔
      Inserts c ⟨w, cmd, b, x⟩ ∨ Unqueued c w.db ∧ ¬ Marks c t ⟨w, cmd, b, x⟩ := by
  by_cases hx : x.takesEffect b = true ∧ ∃ s, cmd = .statement s
  · obtain ⟨hx, s, rfl⟩ := hx
    have hdb : (service.perform x b w (.statement s)).1.db =
        (s.exec (w.now + x.elapsed) w.db).2 := (service_db ..).trans (if_pos hx)
    rw [hdb]
    rcases race_statement hc with ⟨p, unitID, cursor, rfl, hpc, -⟩ | ⟨id, tenantID, rfl⟩ |
      ⟨id, tenantID, rfl⟩ | ⟨hsame, hcommit, -, hmark⟩
    · have hno : ¬ Marks c t ⟨w, .statement (.commitArtifact p unitID cursor), b, x⟩ := by
        rintro ⟨-, ⟨⟩⟩
      refine (unqueued_commit p unitID cursor).trans ?_
      rw [and_iff_left hno, or_comm]
      refine or_congr_left ⟨fun h => ⟨hx, p, unitID, cursor, rfl, hpc, h.1⟩, ?_⟩
      rintro ⟨-, p', unitID', cursor', heq, hpc, hkey⟩
      cases heq
      exact ⟨hkey, hpc⟩
    · refine (unqueued_softDelete id tenantID).trans ?_
      rw [or_iff_right, and_iff_left]
      · rintro ⟨-, ⟨⟩⟩
      · rintro ⟨-, p, unitID, cursor, ⟨⟩, -⟩
    · refine (unqueued_mark hw id tenantID).trans ?_
      rw [or_iff_right]
      · refine and_congr_right fun _ => not_congr ⟨?_, ?_⟩
        · rintro ⟨rfl, rfl⟩
          exact ⟨hx, rfl⟩
        · rintro ⟨-, heq⟩
          cases heq
          exact ⟨rfl, rfl⟩
      · rintro ⟨-, p, unitID, cursor, ⟨⟩, -⟩
    · refine (unqueued_of_artifacts (hsame _ _)).trans ?_
      rw [or_iff_right, and_iff_left]
      · rintro ⟨-, heq⟩
        exact hmark c t (Cmd.statement.inj heq)
      · rintro ⟨-, p, unitID, cursor, heq, -⟩
        exact hcommit p unitID cursor (Cmd.statement.inj heq)
  · obtain ⟨hdb, hinserts, hmarks, -⟩ := idle_step (c := c) (t := t) (w := w) hx
    rw [hdb, or_iff_right hinserts, and_iff_left hmarks]

/-- What is exposed after a command was before, and the command is no soft delete. -/
theorem exposed_step (hw : OwnsArtifacts c t w.db) (hc : (race c t).allowed g cmd) :
    Exposed c (service.perform x b w cmd).1.db ↔
      Exposed c w.db ∧ ¬ Hides c t ⟨w, cmd, b, x⟩ := by
  by_cases hx : x.takesEffect b = true ∧ ∃ s, cmd = .statement s
  · obtain ⟨hx, s, rfl⟩ := hx
    have hdb : (service.perform x b w (.statement s)).1.db =
        (s.exec (w.now + x.elapsed) w.db).2 := (service_db ..).trans (if_pos hx)
    rw [hdb]
    rcases race_statement hc with ⟨p, unitID, cursor, rfl, -⟩ | ⟨id, tenantID, rfl⟩ |
      ⟨id, tenantID, rfl⟩ | ⟨hsame, -, hsoft, -⟩
    · refine (exposed_commit p unitID cursor).trans (and_iff_left ?_).symm
      rintro ⟨-, ⟨⟩⟩
    · refine (exposed_softDelete hw id tenantID).trans (and_congr_right fun _ => not_congr ⟨?_, ?_⟩)
      · rintro ⟨rfl, rfl⟩
        exact ⟨hx, rfl⟩
      · rintro ⟨-, heq⟩
        cases heq
        exact ⟨rfl, rfl⟩
    · refine (exposed_mark id tenantID).trans (and_iff_left ?_).symm
      rintro ⟨-, ⟨⟩⟩
    · refine (exposed_of_artifacts (hsame _ _)).trans (and_iff_left ?_).symm
      rintro ⟨-, heq⟩
      exact hsoft c t (Cmd.statement.inj heq)
  · obtain ⟨hdb, -, -, hhides⟩ := idle_step (c := c) (t := t) (w := w) hx
    rw [hdb, and_iff_left hhides]

end Step

/-- What holds all along the race. -/
structure RaceInv (c : Uuid) (t : String) (w₀ w : World) (gs : List Sight) (tr : List Done) :
    Prop where
  connection : OwnsConnection c t w.db
  owned : OwnsArtifacts c t w.db
  /-- What is out of the queue was inserted and not marked since, or was out from the
  start and never marked. -/
  unqueued : Unqueued c w.db ↔ Pending (Inserts c) (Marks c t) (fun _ => False) tr ∨
    Unqueued c w₀.db ∧ ∀ l ∈ tr, ¬ Marks c t l
  exposed : Exposed c w.db ↔ Exposed c w₀.db ∧ ∀ l ∈ tr, ¬ Hides c t l
  seen : ∀ g ∈ gs, ∀ conn ∈ g.seen, conn.id = c ∧ conn.tenantID = t
  marked : ∀ g ∈ gs, ∀ id ∈ g.marked, ∃ l ∈ tr,
    l.cmd = .statement (.markConnectionArtifactsPurgePending id t)

section Invariant

variable {x : Choice} {b : Bool} {w₀ w : World} {gs : List Sight} {tr : List Done}

/-- A command of the race keeps the connection's artifacts with its tenant. -/
theorem ownsArtifacts_step {g : Sight} {cmd : Cmd} (h : OwnsArtifacts c t w.db)
    (hseen : ∀ conn ∈ g.seen, conn.id = c ∧ conn.tenantID = t)
    (hc : (race c t).allowed g cmd) :
    OwnsArtifacts c t (service.perform x b w cmd).1.db := by
  rw [service_db]
  cases cmd with
  | statement s =>
    show OwnsArtifacts c t (if x.takesEffect b = true then _ else _)
    split
    · refine h.exec ?_
      rintro p unitID cursor rfl _
      obtain ⟨-, conn, hconn, htenant⟩ := hc
      rw [htenant]
      exact (hseen conn hconn).2
    · exact h
  | _ => exact h

/-- A connection read is the tenant's. -/
theorem seen_step {g : Sight} (h : OwnsConnection c t w.db)
    (hseen : ∀ conn ∈ g.seen, conn.id = c ∧ conn.tenantID = t) (cmd : Cmd) :
    ∀ conn ∈ (g.next c t cmd (service.perform x b w cmd).2).seen,
      conn.id = c ∧ conn.tenantID = t := by
  -- the connection has one row, which the tenant owns
  have htenant : ∀ {conn : Connection}, conn ∈ w.db.connections.rows → conn.id = c →
      conn.tenantID = t := by
    obtain ⟨rest, h⟩ := h
    intro conn hmem hid
    exact congrArg Prod.fst (key_of_hasConnection h hmem hid)
  cases cmd with
  | statement s =>
    cases s with
    | getConnectionByID id =>
      rw [service_statement]
      cases hr : x.reply b (Statement.exec (w.now + x.elapsed) w.db (.getConnectionByID id)).1 with
      | error e => exact hseen
      | ok conn =>
        have hmem := mem_of_getConnectionByID (of_reply_eq_ok hr).2
        intro conn' hconn'
        by_cases hid : id = c
        · simp only [Sight.next, if_pos hid, List.mem_cons] at hconn'
          rcases hconn' with rfl | hconn'
          · exact ⟨hmem.2.trans hid, htenant hmem.1 (hmem.2.trans hid)⟩
          · exact hseen conn' hconn'
        · simp only [Sight.next, if_neg hid] at hconn'
          exact hseen conn' hconn'
    | getConnection id tenantID =>
      rw [service_statement]
      cases hr : x.reply b
          (Statement.exec (w.now + x.elapsed) w.db (.getConnection id tenantID)).1 with
      | error e => exact hseen
      | ok conn =>
        have hmem := mem_of_getConnection (of_reply_eq_ok hr).2
        intro conn' hconn'
        by_cases hid : id = c ∧ tenantID = t
        · simp only [Sight.next, if_pos hid, List.mem_cons] at hconn'
          rcases hconn' with rfl | hconn'
          · exact ⟨hmem.2.trans hid.1, htenant hmem.1 (hmem.2.trans hid.1)⟩
          · exact hseen conn' hconn'
        · simp only [Sight.next, if_neg hid] at hconn'
          exact hseen conn' hconn'
    | markConnectionArtifactsPurgePending id tenantID =>
      by_cases htenant : tenantID = t
      · simpa only [Sight.next, if_pos htenant] using hseen
      · simpa only [Sight.next, if_neg htenant] using hseen
    | _ => exact hseen
  | _ => exact hseen

/-- A racer counts as marked only what it has issued a mark for. -/
theorem marked_step {g : Sight} {cmd : Cmd} {r : cmd.Resp} {id : Uuid}
    (h : id ∈ (g.next c t cmd r).marked) : id ∈ g.marked ∨
      cmd = .statement (.markConnectionArtifactsPurgePending id t) := by
  unfold Sight.next at h
  split at h
  · split at h <;> exact Or.inl h
  · split at h <;> exact Or.inl h
  · split at h
    · rename_i htenant
      rcases List.mem_cons.mp h with rfl | h
      · exact Or.inr (by rw [htenant])
      · exact Or.inl h
    · exact Or.inl h
  · exact Or.inl h

/-- **One step of the race keeps the invariant.** -/
theorem RaceInv.step (hinv : RaceInv c t w₀ w gs tr) {i : ℕ} {g : Sight} {cmd : Cmd}
    (hg : gs[i]? = some g) (hc : (race c t).allowed g cmd) :
    RaceInv c t w₀ (service.perform x b w cmd).1
      (gs.set i (g.next c t cmd (service.perform x b w cmd).2)) (tr ++ [⟨w, cmd, b, x⟩]) := by
  have hmem : g ∈ gs := List.mem_of_getElem? hg
  obtain ⟨rest, hconn⟩ := hinv.connection
  refine ⟨⟨rest, hasConnection_perform hconn x b cmd⟩,
    ownsArtifacts_step hinv.owned (hinv.seen g hmem) hc, ?_, ?_, fun g' hg' => ?_,
    fun g' hg' id hid => ?_⟩
  · rw [unqueued_step hinv.owned hc, hinv.unqueued, pending_snoc]
    simp only [List.forall_mem_append, List.forall_mem_singleton]
    tauto
  · rw [exposed_step hinv.owned hc, hinv.exposed]
    simp only [List.forall_mem_append, List.forall_mem_singleton]
    tauto
  · rcases List.mem_or_eq_of_mem_set hg' with hg' | rfl
    · exact hinv.seen g' hg'
    · exact seen_step hinv.connection (hinv.seen g hmem) cmd
  · have hold : ∀ g ∈ gs, id ∈ g.marked → ∃ l ∈ tr ++ [⟨w, cmd, b, x⟩],
        l.cmd = .statement (.markConnectionArtifactsPurgePending id t) := by
      intro g hg hid
      obtain ⟨l, hl, heq⟩ := hinv.marked g hg id hid
      exact ⟨l, List.mem_append_left _ hl, heq⟩
    rcases List.mem_or_eq_of_mem_set hg' with hg' | rfl
    · exact hold g' hg' hid
    · rcases marked_step hid with hid | heq
      · exact hold g hmem hid
      · exact ⟨_, List.mem_append_right _ (List.mem_singleton_self _), heq⟩

end Invariant

/-! ### Every interleaving -/

/-- Every racer follows the protocol, and a disconnect that succeeds has marked. -/
theorem Racer.follows (a : Activities) (sv : Server) (j : Racer) :
    (j.prog a sv t c).Follows (race c t)
      (fun r g => r = some (.ok ()) → ∃ conn ∈ g.seen, conn.id ∈ g.marked) ⟨[], []⟩ := by
  cases j with
  | disconnect =>
    refine (follows_race_disconnect sv _).bind fun r g hr => ?_
    intro hok
    exact hr (Option.some.inj hok)
  | syncUnit i =>
    refine (follows_race_syncUnit a _ rfl _).bind fun r g _ => ?_
    intro hok
    cases hok

/-- **Once a disconnect has succeeded**, it has issued its mark, and every artifact of the
connection is hidden and queued if and only if the run caught them all: every insert is
followed by a mark that takes effect. -/
theorem revoked_iff_caught (a : Activities) (sv : Server) {c : Uuid} {t : String} {w : World}
    {es : List (PoolEvent Racer Choice)}
    {s : Pool World Cmd Cmd.Resp (Option (Except RpcError Unit))} {tr : List Done}
    (h : (service.pool (Racer.prog a sv t c)).Run ⟨w, []⟩ es s tr)
    (hconn : OwnsConnection c t w.db) (howned : OwnsArtifacts c t w.db)
    (hdone : ∃ th ∈ s.threads, th.prog = .pure (some (.ok ()))) :
    (∃ l ∈ tr, l.cmd = .statement (.markConnectionArtifactsPurgePending c t)) ∧
      (Revoked c s.world.db ↔ Caught c t w tr) := by
  obtain ⟨gs, hinv, hfollows⟩ := pool_follows (J := RaceInv c t w) h (Racer.follows a sv)
    ⟨hconn, howned, by simp, by simp, by simp, by simp⟩
    -- an execution that starts late has seen nothing and marked nothing
    (by
      intro w' gs tr hinv
      refine ⟨hinv.connection, hinv.owned, hinv.unqueued, hinv.exposed, fun g hg => ?_,
        fun g hg => ?_⟩
      · rcases List.mem_append.mp hg with hg | hg
        · exact hinv.seen g hg
        · rw [List.mem_singleton.mp hg]
          simp
      · rcases List.mem_append.mp hg with hg | hg
        · exact hinv.marked g hg
        · rw [List.mem_singleton.mp hg]
          simp)
    (fun s tr i t c k b gs g _ _ hg hallowed hinv => hinv.step hg hallowed)
  refine ⟨?_, ?_⟩
  · obtain ⟨th, hth, hprog⟩ := hdone
    obtain ⟨i, hi⟩ := List.getElem?_of_mem hth
    obtain ⟨g, hg, hth⟩ := forall₂_getElem? hfollows hi
    rw [hprog] at hth
    obtain ⟨conn, hconn, hmarked⟩ := hth rfl
    have hmem : g ∈ gs := List.mem_of_getElem? hg
    rw [(hinv.seen g hmem conn hconn).1] at hmarked
    exact hinv.marked g hmem c hmarked
  · rw [revoked_iff, hinv.unqueued, hinv.exposed]
    constructor
    · rintro ⟨hunqueued, hexposed⟩
      refine ⟨fun hp => hunqueued (Or.inl hp), fun hu => ?_, fun he => ?_⟩
      · by_contra hno
        exact hunqueued (Or.inr ⟨hu, fun l hl hm => hno ⟨l, hl, hm⟩⟩)
      · by_contra hno
        exact hexposed ⟨he, fun l hl hm => hno ⟨l, hl, hm⟩⟩
    · rintro ⟨hinserted, hunqueued, hexposed⟩
      refine ⟨?_, ?_⟩
      · rintro (hp | ⟨hu, hno⟩)
        · exact hinserted hp
        · obtain ⟨l, hl, hm⟩ := hunqueued hu
          exact hno l hl hm
      · rintro ⟨he, hno⟩
        obtain ⟨l, hl, hm⟩ := hexposed he
        exact hno l hl hm

/-! ### A disconnect before and during a drain -/

/-- Turns of one racer in which nothing fails. -/
def racerTurns (i n : ℕ) : List (PoolEvent Racer Choice) :=
  List.replicate n (.turn i ⟨false, quietly docAnswers⟩)

/-- The drain of Ann's Drive starts, a disconnect runs after a number of its commands, and
both run to their end. -/
def drainAround (n : ℕ) : List (PoolEvent Racer Choice) :=
  .start (.syncUnit driveInput) :: racerTurns 0 n ++ .start .disconnect :: racerTurns 1 6 ++
    racerTurns 0 (22 - n)

theorem freshDrive_owned : OwnsConnection 0 "acme" freshDrive.db ∧
    OwnsArtifacts 0 "acme" freshDrive.db := by
  refine ⟨?_, fun r hr => ?_⟩
  · refine ⟨("gdocs", "ann@acme"), ?_⟩
    unfold Database.HasConnection
    decide +kernel
  · cases hr

/-- A disconnect right after a commit catches the document. -/
theorem earlier_commit_caught :
    ∃ s tr, (service.pool (Racer.prog driveActivities driveServer "acme" 0)).Run ⟨freshDrive, []⟩
        (drainAround 14) s tr ∧ s.returned ∧ s.world.db.artifacts.rows ≠ [] ∧
      Revoked 0 s.world.db ∧
      ((∃ l ∈ tr, l.cmd = .statement (.markConnectionArtifactsPurgePending 0 "acme")) ∧
        (Revoked 0 s.world.db ↔ Caught 0 "acme" freshDrive tr)) := by
  obtain ⟨s, tr, hrun, hend⟩ := Lts.exists_run_of_any
    (service.pool (Racer.prog driveActivities driveServer "acme" 0)) ⟨freshDrive, []⟩
    (drainAround 14)
    (fun s _ => s.allReturned && s.hasReturned (some (.ok ())) &&
      !s.world.db.artifacts.rows.isEmpty &&
      s.world.db.artifacts.rows.all fun r => r.deletedAt.isSome && r.purgePending)
    (by decide +kernel)
  simp only [Bool.and_eq_true, List.all_eq_true, Bool.not_eq_true', List.isEmpty_eq_false_iff]
    at hend
  obtain ⟨⟨⟨hret, hdone⟩, hsome⟩, hall⟩ := hend
  have hrevoked : Revoked 0 s.world.db := by
    intro r hr _
    refine ⟨(hall r hr).1, (hall r hr).2, fun hs => ?_⟩
    have hd := (hall r hr).1
    rw [hs.deletedAt.2] at hd
    cases hd
  exact ⟨s, tr, hrun, Pool.returned_of_allReturned hret, hsome, hrevoked,
    revoked_iff_caught driveActivities driveServer hrun freshDrive_owned.1 freshDrive_owned.2
      (Pool.exists_of_hasReturned hdone)⟩

/-- **A commit right after the mark escapes**: the disconnect has succeeded and the drain
has ended, and the document is neither hidden nor queued, and is listed. -/
theorem late_commit_escapes :
    OwnsConnection 0 "acme" freshDrive.db ∧ OwnsArtifacts 0 "acme" freshDrive.db ∧
      ∃ s tr, (service.pool (Racer.prog driveActivities driveServer "acme" 0)).Run
          ⟨freshDrive, []⟩ (drainAround 13) s tr ∧ s.returned ∧
        (∃ th ∈ s.threads, th.prog = .pure (some (.ok ()))) ∧ ¬ Revoked 0 s.world.db ∧
        ∃ r, Shown s.world.db r ∧ r.connectionID = 0 ∧ r.purgePending = false := by
  refine ⟨freshDrive_owned.1, freshDrive_owned.2, ?_⟩
  obtain ⟨s, tr, hrun, hend⟩ := Lts.exists_run_of_any
    (service.pool (Racer.prog driveActivities driveServer "acme" 0)) ⟨freshDrive, []⟩
    (drainAround 13)
    (fun s _ => s.allReturned && s.hasReturned (some (.ok ())) &&
      (listArtifacts "acme" none 50 0 s.world.db).any fun r =>
        decide (r.connectionID = 0) && !r.purgePending)
    (by decide +kernel)
  simp only [Bool.and_eq_true, List.any_eq_true, decide_eq_true_eq, Bool.not_eq_true'] at hend
  obtain ⟨⟨hret, hdone⟩, r, hlisted, hc, hq⟩ := hend
  have hshown : Shown s.world.db r := ⟨"acme", none, 50, 0, hlisted⟩
  refine ⟨s, tr, hrun, Pool.returned_of_allReturned hret, Pool.exists_of_hasReturned hdone,
    fun hrevoked => ?_, r, hshown, hc, hq⟩
  exact (hrevoked r hshown.deletedAt.1 hc).2.2 hshown

end Hivebook
