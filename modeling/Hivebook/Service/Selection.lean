import Hivebook.Database.Catalog
import Hivebook.Database.Units
import Hivebook.Lib.Threads
import Hivebook.Service.Commands
import Hivebook.Service.Visibility

/-!
# A change of the selection and the writes in flight

`SetProjectSelection` replaces the selection, hides the artifacts of the units that are not
selected and brings back those of the units that are, one statement after another.  A `SyncUnit` in
flight on a unit that was just deselected keeps committing its items meanwhile, and its transaction
does not look at the selection.

In any interleaving of changes of the selection of a connection with executions of `SyncUnit` on
it, whatever `ListArtifacts` returns of the connection is of a selected unit, as long as every step
that leaves a row of another unit in sight is followed by a soft delete that takes effect.

## Main definitions

* `Selecting`, `Selecting.prog` — the two kinds of program that race.
* `ShowsSelected` — every visible artifact of the connection is of a selected unit.
* `exposes`, `leaves`, `sweeps`, `LeftInSight` — the steps that decide the race.

## Main results

* `ShowsSelected.exec`, `showsSelected_softDelete` — what one statement does.
* `deselected_hidden` — **once a change of the selection has succeeded, no artifact of another unit
  is listed**, if every step that leaves one in sight is followed by a soft delete.
* `deselected_emit_shown` — an emit right after the soft delete leaves a row in sight.
-/

namespace Hivebook

open Database Machine Connectors

/-! ### The race -/

/-- What races: changes of the selection of a connection, and executions of `SyncUnit` on it. -/
inductive Selecting where
  | select (selectedIDs : List String)
  | syncUnit (i : SyncInput)
  deriving DecidableEq, Repr

/-- The programs; only a change of the selection has an answer. -/
def Selecting.prog (a : Activities) (t : Option String) (c : Uuid) :
    Selecting → Program (Option (Except RpcError Unit))
  | .select ids => (Server.setProjectSelection t c ids).bind fun r => .pure (some r)
  | .syncUnit i => (a.syncUnit { i with connectionID := c }).bind fun _ => .pure none

/-- Every visible artifact of the connection is of a selected unit. -/
def ShowsSelected (c : Uuid) (db : Database) : Prop :=
  ∀ r ∈ db.artifacts.rows, r.connectionID = c → visible db r = true →
    db.hasUnit c (fun u => u.selected) r.syncContainerID = true

/-- A row of the connection and the unit is not hidden. -/
def hasLiveRow (db : Database) (c : Uuid) (unitID : String) : Bool :=
  db.artifacts.rows.any fun r => decide (r.connectionID = c) &&
    decide (r.syncContainerID = unitID) && r.deletedAt.isNone

/-- A statement leaves a row in sight whose unit is not selected: the selection drops the unit of a
visible row, an emit writes a row that is not hidden for a unit that is committed and not selected,
or the first full pass of such a unit is stamped. -/
def exposes (c : Uuid) (db : Database) : Statement → Bool
  | .setUnitSelection id ids => decide (id = c) && db.artifacts.rows.any fun r =>
      decide (r.connectionID = c) && visible db r && decide (r.syncContainerID ∉ ids)
  | .commitArtifact p _ _ => decide (p.connectionID = c) &&
      db.hasUnit c (fun u => u.committedAt.isSome && !u.selected) p.syncContainerID &&
        !db.artifacts.rows.any fun r => decide (r.key = (p.connectionID, p.externalID)) &&
          r.deletedAt.isSome
  | .commitUnit id x => decide (id = c) && db.hasUnit c (fun u => !u.selected) x &&
      hasLiveRow db c x
  | _ => false

/-- The step leaves a row in sight whose unit is not selected. -/
def leaves (c : Uuid) (l : ℕ × Performed World Choice Cmd) : Bool :=
  tookEffect l.2 && match l.2.cmd with
    | .statement s => exposes c l.2.state.db s
    | _ => false

/-- The soft delete of the artifacts of deselected units takes effect. -/
def sweeps (c : Uuid) (l : ℕ × Performed World Choice Cmd) : Bool :=
  tookEffect l.2 && decide (l.2.cmd = .statement (.softDeleteDeselectedUnitArtifacts c))

/-- The selection of the connection is replaced. -/
def Selects (c : Uuid) (l : ℕ × Performed World Choice Cmd) : Prop :=
  tookEffect l.2 = true ∧ ∃ ids, l.2.cmd = .statement (.setUnitSelection c ids)

/-- A step that left a row of an unselected unit in sight has not been followed by a soft
delete. -/
def LeftInSight (c : Uuid) (tr : List (ℕ × Performed World Choice Cmd)) : Prop :=
  Pending (fun l => leaves c l = true) (fun l => sweeps c l = true) (fun _ => False) tr

/-! ### One statement -/

variable {c : Uuid} {now : Time} {db : Database}

/-- A visible row is not hidden, and its unit was committed. -/
theorem visible_iff {r : RawArtifact} : visible db r = true ↔ r.deletedAt = none ∧
    ∃ u ∈ db.units.rows, u.key = (r.connectionID, r.syncContainerID) ∧
      u.committedAt.isSome = true := by
  unfold visible
  rw [Bool.and_eq_true, hasUnit_iff, Option.isNone_iff_eq_none]

/-- A committed unit was committed and selected alike before a statement, unless the statement
changes the selection or commits the unit. -/
theorem committed_exec {s : Statement} {u' : SyncUnit} (hu' : u' ∈ (s.exec now db).2.units.rows)
    (hs : ∀ ids, s ≠ .setUnitSelection u'.connectionID ids)
    (hcommitted : u'.committedAt.isSome = true) :
    ∃ u ∈ db.units.rows, u.key = u'.key ∧ u.selected = u'.selected ∧
      (u.committedAt.isSome = true ∨ s = .commitUnit u.connectionID u.externalID) := by
  rcases unit_exec s hu' with ⟨u, hu, rfl | hrw⟩ | ⟨id, x, name, kind, g, -, -, rfl⟩
  · exact ⟨u', hu, rfl, rfl, .inl hcommitted⟩
  · refine ⟨u, hu, hrw.key.symm, ?_⟩
    cases hrw with
    | selection u ids => exact absurd rfl (hs ids)
    | commit u count => exact ⟨rfl, .inr rfl⟩
    | _ => exact ⟨rfl, .inl hcommitted⟩
  · cases hcommitted

/-- The soft delete of the deselected leaves only the selected in sight. -/
theorem showsSelected_softDelete :
    ShowsSelected c (Database.softDeleteDeselectedUnitArtifacts now c db) := by
  intro r hr hc hv
  obtain ⟨hlive, u, hu, hkey, -⟩ := visible_iff.mp hv
  obtain ⟨r₀, -, hupdated⟩ := List.mem_map.mp hr
  unfold Table.updated at hupdated
  split at hupdated
  · subst hupdated
    cases hlive
  · rename_i hnot
    subst hupdated
    rw [hc] at hkey
    refine hasUnit_iff.mpr ⟨u, hu, hkey, ?_⟩
    by_contra hsel
    have hdeselected : db.hasUnit c (fun u => !u.selected) r₀.syncContainerID = true :=
      hasUnit_iff.mpr ⟨u, hu, hkey, by simpa using hsel⟩
    simp [hc, hlive, hdeselected] at hnot

/-- The selection leaves only the selected in sight, unless it drops the unit of a visible row. -/
theorem showsSelected_select {ids : List String}
    (hx : exposes c db (.setUnitSelection c ids) = false) :
    ShowsSelected c (Database.setUnitSelection now c ids db) := by
  intro r hr hc hv
  obtain ⟨hlive, u', hu', hkey, hcommitted⟩ := visible_iff.mp hv
  obtain ⟨u, hu, hupdated⟩ := List.mem_map.mp hu'
  unfold Table.updated at hupdated
  by_cases hmine : u.connectionID = c
  · rw [if_pos (decide_eq_true hmine)] at hupdated
    subst hupdated
    have hvisible : visible db r = true := visible_iff.mpr ⟨hlive, u, hu, hkey, hcommitted⟩
    have hin : r.syncContainerID ∈ ids := by
      simp only [exposes, decide_true, Bool.true_and, List.any_eq_false, Bool.and_eq_true,
        decide_eq_true_eq, not_and, not_not] at hx
      exact hx r hr ⟨hc, hvisible⟩
    refine hasUnit_iff.mpr ⟨_, hu', hc ▸ hkey, ?_⟩
    have hext : u.externalID = r.syncContainerID := congrArg Prod.snd hkey
    show decide (u.externalID ∈ ids) = true
    rw [hext]
    exact decide_eq_true hin
  · -- the unit of the row is of the connection
    rw [if_neg (by simpa using hmine)] at hupdated
    subst hupdated
    exact absurd ((congrArg Prod.fst hkey).trans hc) hmine

/-- **A statement leaves only the selected in sight**, unless it exposes a row; a reconnect is not
among the statements. -/
theorem ShowsSelected.exec (h : ShowsSelected c db) {s : Statement}
    (hx : exposes c db s = false) (hs : ∀ id t, s ≠ .undeleteConnectionArtifacts id t) :
    ShowsSelected c (s.exec now db).2 := by
  by_cases hsel : ∃ ids, s = .setUnitSelection c ids
  · obtain ⟨ids, rfl⟩ := hsel
    exact showsSelected_select hx
  intro r' hr' hc hv
  obtain ⟨hlive, u', hu', hkey', hcommitted⟩ := visible_iff.mp hv
  rw [hc] at hkey'
  have hfst : u'.connectionID = c := congrArg Prod.fst hkey'
  obtain ⟨u, hu, hkey, hselected, hbefore⟩ := committed_exec hu'
    (by rw [hfst]; exact fun ids heq => hsel ⟨ids, heq⟩) hcommitted
  rw [hkey'] at hkey
  refine hasUnit_iff.mpr ⟨u', hu', hkey', ?_⟩
  rw [← hselected]
  -- the unit of a row that was of a selected unit
  have hof : db.hasUnit c (fun u => u.selected) r'.syncContainerID = true → u.selected = true := by
    intro hunit
    obtain ⟨v, hv, hvkey, hvsel⟩ := hasUnit_iff.mp hunit
    rwa [db.units.eq_of_key hu hv (hkey.trans hvkey.symm)]
  have hnot : u.selected ≠ true →
      db.hasUnit c (fun u => !u.selected) r'.syncContainerID = true := by
    intro hno
    exact hasUnit_iff.mpr ⟨u, hu, hkey, by simpa using hno⟩
  cases manifestStep now db s hr' with
  | keep hr =>
    rcases hbefore with hbefore | rfl
    · exact hof (h r' hr hc (visible_iff.mpr ⟨hlive, u, hu, hc ▸ hkey, hbefore⟩))
    · by_contra hno
      have hlive' : hasLiveRow db c r'.syncContainerID = true :=
        List.any_eq_true.mpr ⟨r', hr, by simp [hc, hlive]⟩
      have hunit : u.connectionID = c ∧ u.externalID = r'.syncContainerID :=
        ⟨congrArg Prod.fst hkey, congrArg Prod.snd hkey⟩
      simp [exposes, hunit.1, hunit.2, hnot hno, hlive'] at hx
  | hide r hr heq => rw [heq] at hlive; cases hlive
  | restore r hr hrestores heq =>
    subst heq
    cases s with
    | undeleteConnectionArtifacts id t => exact absurd rfl (hs id t)
    | undeleteSelectedUnitArtifacts id =>
      simp only [restores, Bool.and_eq_true, decide_eq_true_eq] at hrestores
      obtain ⟨⟨rfl, -⟩, hunit⟩ := hrestores
      exact hof (hc ▸ hunit)
    | _ => cases hrestores
  | mark r deadline hr _ heq => rw [heq] at hlive; cases hlive
  | rewrite r p unitID cursor hr hcmd hrkey heq =>
    subst hcmd heq
    rcases hbefore with hbefore | hbefore
    · by_contra hno
      have hpc : p.connectionID = c := (congrArg Prod.fst hrkey).symm.trans hc
      have hunit : db.hasUnit c (fun u => u.committedAt.isSome && !u.selected)
          p.syncContainerID = true :=
        hasUnit_iff.mpr ⟨u, hu, hkey, by simpa [hbefore] using hno⟩
      simp only [exposes, hpc, decide_true, hunit, Bool.true_and, Bool.not_eq_false',
        List.any_eq_true, Bool.and_eq_true, decide_eq_true_eq] at hx
      obtain ⟨r₁, hr₁, hr₁key, hhidden⟩ := hx
      rw [hpc] at hrkey
      rw [db.artifacts.eq_of_key hr₁ hr (hr₁key.trans hrkey.symm)] at hhidden
      rw [show r.deletedAt = none from hlive] at hhidden
      cases hhidden
    · cases hbefore
  | insert p unitID cursor hcmd hrkey heq =>
    subst hcmd heq
    rcases hbefore with hbefore | hbefore
    · by_contra hno
      have hpc : p.connectionID = c := hc
      have hunit : db.hasUnit c (fun u => u.committedAt.isSome && !u.selected)
          p.syncContainerID = true :=
        hasUnit_iff.mpr ⟨u, hu, hkey, by simpa [hbefore] using hno⟩
      simp only [exposes, hpc, decide_true, hunit, Bool.true_and, Bool.not_eq_false',
        List.any_eq_true, Bool.and_eq_true, decide_eq_true_eq] at hx
      obtain ⟨r₁, hr₁, hr₁key, -⟩ := hx
      rw [hpc] at hrkey
      exact hrkey (hr₁key ▸ List.mem_map_of_mem hr₁)
    · cases hbefore

/-! ### The race, step by step -/

/-- A command of the race: it brings back the rows of no connection. -/
def Cmd.selecting (cmd : Cmd) : Prop := ∀ id t, cmd ≠ .statement (.undeleteConnectionArtifacts id t)

theorem selecting_of_plain {cmd : Cmd} (h : cmd.plain = true) : cmd.selecting := by
  rintro id t rfl
  cases h

theorem selecting_of_syncs {i : SyncInput} {cmd : Cmd} (h : cmd.syncs i) : cmd.selecting := by
  rintro id t rfl
  cases h

theorem Selecting.uses (a : Activities) (t : Option String) (c : Uuid) (j : Selecting) :
    (j.prog a t c).Uses Cmd.selecting := by
  cases j with
  | syncUnit i =>
    refine Prog.Uses.bind ?_ fun _ => Prog.uses_pure _ _
    exact (syncs_syncUnit a _).mono fun _ => selecting_of_syncs
  | select ids =>
    refine Prog.Uses.bind ?_ fun _ => Prog.uses_pure _ _
    unfold Server.setProjectSelection
    split
    · exact Prog.uses_pure _ _
    · refine ⟨selecting_of_plain rfl, fun r => ?_⟩
      cases r with
      | error e => trivial
      | ok conn =>
        refine ⟨selecting_of_plain rfl, fun r => ?_⟩
        cases r with
        | error e => trivial
        | ok _ =>
          refine ⟨selecting_of_plain rfl, fun r => ?_⟩
          cases r with
          | error e => trivial
          | ok _ =>
            refine ⟨?_, fun _ => ⟨?_, fun _ => ⟨selecting_of_plain rfl, fun _ =>
              ⟨selecting_of_plain rfl, fun _ => trivial⟩⟩⟩⟩ <;> rintro id t ⟨⟩

/-- A change of the selection that succeeds has replaced the selection. -/
theorem selects_of_returned {t : Option String} {ids : List String}
    {ls : List (Performed World Choice Cmd)}
    (h : Log service (Server.setProjectSelection t c ids) ls (.pure (.ok ()))) :
    ∃ l ∈ ls, tookEffect l = true ∧ ∃ ids, l.cmd = .statement (.setUnitSelection c ids) := by
  unfold Server.setProjectSelection at h
  split at h
  · cases h.of_pure.2
  · obtain ⟨ls₁, rest₁, r₁, rfl, hget, h₁⟩ := Log.returns_bind h
    cases r₁ with
    | error e => cases h₁.of_pure.2
    | ok conn =>
      obtain ⟨l₁, rfl, -, hreply⟩ := log_statement hget
      have hid : conn.id = c := (mem_of_getConnection (of_reply_eq_ok hreply).2).2
      obtain ⟨ls₂, rest₂, r₂, rfl, hset, h₂⟩ := Log.returns_bind h₁
      cases r₂ with
      | error e => cases h₂.of_pure.2
      | ok _ =>
        obtain ⟨l₂, rfl, hcmd, hreply⟩ := log_statement hset
        exact ⟨l₂, by simp, (of_reply_eq_ok hreply).1, ids, by rw [hcmd, hid]⟩

/-- What holds all along the race: once the selection was replaced, only the selected are in
sight, or a step that left another in sight awaits its soft delete. -/
def SelectionInv (c : Uuid) (w : World) (tr : List (ℕ × Performed World Choice Cmd)) : Prop :=
  (∃ l ∈ tr, Selects c l) → ShowsSelected c w.db ∨ LeftInSight c tr

/-- A statement of the race that takes effect exposes nothing, if its step leaves nothing in
sight. -/
theorem exposes_of_leaves {x : Choice} {b : Bool} {w : World} {s : Statement} {i : ℕ}
    (h : ¬ leaves c (i, ⟨w, .statement s, b, x⟩) = true) (hx : x.takesEffect b = true) :
    exposes c w.db s = false := by
  have heff : tookEffect (⟨w, .statement s, b, x⟩ : Performed World Choice Cmd) = true := hx
  simpa [leaves, heff] using h

/-- **One step of the race keeps the invariant.** -/
theorem SelectionInv.step {w : World} {tr : List (ℕ × Performed World Choice Cmd)}
    (h : SelectionInv c w tr) {cmd : Cmd} (hcmd : cmd.selecting) (x : Choice) (b : Bool) (i : ℕ) :
    SelectionInv c (service.perform x b w cmd).1 (tr ++ [(i, ⟨w, cmd, b, x⟩)]) := by
  rintro ⟨l, hl, hsel⟩
  rw [LeftInSight, pending_snoc, service_db]
  by_cases hleaves : leaves c (i, ⟨w, cmd, b, x⟩) = true
  · exact .inr (.inl hleaves)
  by_cases hsweeps : sweeps c (i, ⟨w, cmd, b, x⟩) = true
  · obtain ⟨htook, hsoft⟩ := Bool.and_eq_true_iff.mp hsweeps
    have hx : x.takesEffect b = true := htook
    have heq : cmd = .statement (.softDeleteDeselectedUnitArtifacts c) := of_decide_eq_true hsoft
    subst heq
    left
    show ShowsSelected c (if x.takesEffect b = true then _ else _)
    rw [if_pos hx]
    exact showsSelected_softDelete
  rcases List.mem_append.mp hl with hl | hl
  · rcases h ⟨l, hl, hsel⟩ with hshows | hp
    · left
      cases cmd with
      | statement s =>
        show ShowsSelected c (if x.takesEffect b = true then _ else _)
        by_cases hx : x.takesEffect b = true
        · rw [if_pos hx]
          exact hshows.exec (exposes_of_leaves hleaves hx) fun id t heq => hcmd id t (by rw [heq])
        · rw [if_neg hx]
          exact hshows
      | _ => exact hshows
    · exact .inr (.inr ⟨hp, id, hsweeps⟩)
  · -- the selection is replaced here
    rw [List.mem_singleton.mp hl] at hsel
    obtain ⟨htook, ids, rfl⟩ := hsel
    have hx : x.takesEffect b = true := htook
    left
    show ShowsSelected c (if x.takesEffect b = true then _ else _)
    rw [if_pos hx]
    exact showsSelected_select (exposes_of_leaves hleaves hx)

/-! ### Every interleaving -/

theorem Shown.visible {r : RawArtifact} (h : Shown db r) : visible db r = true := by
  obtain ⟨tenantID, connectionID, limit, offset, h⟩ := h
  have hsorted := List.mem_of_mem_drop (List.mem_of_mem_take h)
  have hfilter := (List.mem_insertionSort _).mp hsorted
  have hp := (List.mem_filter.mp hfilter).2
  rw [Bool.and_eq_true] at hp
  exact hp.2

/-- **Once a change of the selection has succeeded**, no artifact of the connection whose unit is
not selected is listed, if every step that leaves one in sight is followed by a soft delete that
takes effect. -/
theorem deselected_hidden (a : Activities) {t : Option String} {c : Uuid} {w : World}
    {es : List (PoolEvent Selecting Choice)}
    {s : Pool World Cmd Cmd.Resp (Option (Except RpcError Unit))}
    {tr : List (ℕ × Performed World Choice Cmd)}
    (h : (service.threads (Selecting.prog a t c)).Run ⟨w, []⟩ es s tr)
    (hdone : ∃ th ∈ s.threads, th.prog = .pure (some (.ok ())))
    (hswept : ¬ LeftInSight c tr) :
    ∀ r, Shown s.world.db r → r.connectionID = c →
      s.world.db.hasUnit c (fun u => u.selected) r.syncContainerID = true := by
  have hinv : SelectionInv c s.world tr := by
    refine threads_invariant_log h (J := SelectionInv c) ?_ ?_
    · rintro ⟨l, hl, -⟩
      cases hl
    · intro s tr i turn cmd k b j _ _ hlog hinv
      exact hinv.step (hlog.uses (Selecting.uses a t c j)).1 _ _ _
  have hselected : ∃ l ∈ tr, Selects c l := by
    obtain ⟨th, hth, hprog⟩ := hdone
    obtain ⟨i, hi⟩ := List.getElem?_of_mem hth
    obtain ⟨j, hlog⟩ := (threads_log h).2 i th hi
    rw [hprog] at hlog
    cases j with
    | syncUnit input =>
      obtain ⟨r, hr, -⟩ := Log.map_returns (f := fun _ => none) hlog
      cases hr
    | select ids =>
      obtain ⟨r, hr, hlog⟩ := Log.map_returns (f := some) hlog
      obtain rfl := Option.some.inj hr
      obtain ⟨l, hl, hx, hids⟩ := selects_of_returned hlog
      exact ⟨(i, l), mem_of_mem_byThread hl, hx, hids⟩
  have hshows := (hinv hselected).resolve_right hswept
  intro r hr hc
  exact hshows r hr.deletedAt.1 hc hr.visible

/-! ### A deselection around a drain -/

/-- Ann's Drive, committed by an earlier pass that found it empty. -/
def committedDrive : World :=
  { db := commitUnit 0 0 "drive" driveDatabase, objects := fun _ => none, now := 5 }

/-- Turns of one program in which nothing fails. -/
def selectingTurns (i n : ℕ) : List (PoolEvent Selecting Choice) :=
  List.replicate n (.turn i ⟨false, quietly docAnswers⟩)

/-- A drain of Ann's Drive starts, the Drive is deselected after a number of its commands, and
both run to their end. -/
def deselectAround (n : ℕ) : List (PoolEvent Selecting Choice) :=
  .start (.syncUnit driveInput) :: selectingTurns 0 n ++ .start (.select []) ::
    selectingTurns 1 7 ++ selectingTurns 0 (22 - n)

/-- A deselection right after a commit hides the document. -/
theorem deselected_drive_hidden :
    ∃ s tr, (service.threads (Selecting.prog driveActivities (some "acme") 0)).Run
        ⟨committedDrive, []⟩ (deselectAround 14) s tr ∧ s.returned ∧
      s.world.db.artifacts.rows ≠ [] ∧
      ∀ r, Shown s.world.db r → r.connectionID = 0 →
        s.world.db.hasUnit 0 (fun u => u.selected) r.syncContainerID = true := by
  obtain ⟨s, tr, hrun, hend⟩ := Lts.exists_run_of_any
    (service.threads (Selecting.prog driveActivities (some "acme") 0)) ⟨committedDrive, []⟩
    (deselectAround 14)
    (fun s tr => s.allReturned && s.hasReturned (some (.ok ())) &&
      !s.world.db.artifacts.rows.isEmpty && !stillPending (leaves 0) (sweeps 0) tr)
    (by decide +kernel)
  simp only [Bool.and_eq_true, Bool.not_eq_true', List.isEmpty_eq_false_iff] at hend
  obtain ⟨⟨⟨hret, hdone⟩, hsome⟩, hswept⟩ := hend
  refine ⟨s, tr, hrun, Pool.returned_of_allReturned hret, hsome, ?_⟩
  refine deselected_hidden driveActivities hrun (Pool.exists_of_hasReturned hdone) fun hp => ?_
  rw [(stillPending_iff tr).mpr hp] at hswept
  cases hswept

/-- **An emit right after the soft delete stays in sight**: the deselection has succeeded and the
drain has ended, and the document of the Drive, which is not selected, is listed. -/
theorem deselected_emit_shown :
    ∃ s tr, (service.threads (Selecting.prog driveActivities (some "acme") 0)).Run
        ⟨committedDrive, []⟩ (deselectAround 13) s tr ∧ s.returned ∧
      (∃ th ∈ s.threads, th.prog = .pure (some (.ok ()))) ∧
      ∃ r, Shown s.world.db r ∧ r.connectionID = 0 ∧
        s.world.db.hasUnit 0 (fun u => u.selected) r.syncContainerID = false := by
  obtain ⟨s, tr, hrun, hend⟩ := Lts.exists_run_of_any
    (service.threads (Selecting.prog driveActivities (some "acme") 0)) ⟨committedDrive, []⟩
    (deselectAround 13)
    (fun s _ => s.allReturned && s.hasReturned (some (.ok ())) &&
      (listArtifacts "acme" none 50 0 s.world.db).any fun r => decide (r.connectionID = 0) &&
        !s.world.db.hasUnit 0 (fun u => u.selected) r.syncContainerID)
    (by decide +kernel)
  simp only [Bool.and_eq_true, List.any_eq_true, decide_eq_true_eq, Bool.not_eq_true'] at hend
  obtain ⟨⟨hret, hdone⟩, r, hlisted, hc, hunit⟩ := hend
  exact ⟨s, tr, hrun, Pool.returned_of_allReturned hret, Pool.exists_of_hasReturned hdone, r,
    ⟨"acme", none, 50, 0, hlisted⟩, hc, hunit⟩

end Hivebook
