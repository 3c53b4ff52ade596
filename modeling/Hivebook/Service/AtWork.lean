import Hivebook.Database.Units
import Hivebook.Server.Readers
import Hivebook.Service.Reauth

/-!
# Who is at work

A unit is at work while its status is `syncing` or `queued`, and a connection while it is shown as
syncing or stopping.  This file says which statements put them to work and which put them to rest,
and that whoever is at work has been put to work by a statement that no other has made up for.

## Main definitions

* `AtRest id db` — no unit is `syncing` or `queued`, and the connection is not shown so.
* `startsUnit`, `clearsUnit`, `startsRow`, `clearsRow` — the statements that put a unit or the
  connection to work, and to rest.
* `UnitLeft id x tr`, `RowLeft id tr` — a start in the trace was not followed by a clearing one.

## Main results

* `unitAtWork_exec`, `rowAtWork_exec` — who is at work after a statement.
* `Accounted.atRest_iff` — **a connection is at rest exactly if nothing in the trace is left.**
-/

namespace Hivebook

open Database Orchestration Connectors

namespace Workflow

/-! ### What is shown of a connection -/

/-- The status is shown as activity. -/
def shownActive (st : ConnectionStatus) : Bool :=
  decide (statusToProto st = .syncing) || decide (statusToProto st = .stopping)

/-- The status is one of a unit that is being drained. -/
def activeStatus (st : UnitStatus) : Bool := decide (st = .syncing) || decide (st = .queued)

/-- The row of a connection. -/
def rowOf (id : Uuid) (db : Database) : Option Connection :=
  db.connections.rows.find? fun c => decide (c.id = id)

/-- The unit is `syncing` or `queued`. -/
def unitAtWork (id : Uuid) (x : String) (db : Database) : Bool :=
  (db.entry id x).any fun e => activeStatus e.1

/-- The connection is shown as syncing or stopping. -/
def rowAtWork (id : Uuid) (db : Database) : Bool := (rowOf id db).any fun c => shownActive c.status

/-- No unit of the connection is `syncing` or `queued`. -/
def UnitsRest (id : Uuid) (db : Database) : Prop :=
  ∀ u ∈ db.units.rows, u.connectionID = id → activeStatus u.status = false

/-- The connection is shown neither syncing nor stopping. -/
def StatusRests (id : Uuid) (db : Database) : Prop :=
  ∀ c ∈ db.connections.rows, c.id = id → shownActive c.status = false

/-- **The connection is at rest**: none of its units has the status `syncing` or `queued`, and its
own status is shown neither as syncing nor as stopping. -/
structure AtRest (id : Uuid) (db : Database) : Prop where
  units : ∀ u ∈ db.units.rows, u.connectionID = id → u.status ≠ .syncing ∧ u.status ≠ .queued
  status : ∀ c ∈ db.connections.rows, c.id = id →
    statusToProto c.status ≠ .syncing ∧ statusToProto c.status ≠ .stopping

variable {id : Uuid} {x : String} {db : Database}

theorem atRest_iff : AtRest id db ↔ UnitsRest id db ∧ StatusRests id db := by
  constructor
  · rintro ⟨hunits, hstatus⟩
    refine ⟨fun u hu hid => ?_, fun c hc hid => ?_⟩
    · simp [activeStatus, hunits u hu hid]
    · simp [shownActive, hstatus c hc hid]
  · rintro ⟨hunits, hstatus⟩
    refine ⟨fun u hu hid => ?_, fun c hc hid => ?_⟩
    · simpa [activeStatus] using hunits u hu hid
    · simpa [shownActive] using hstatus c hc hid

instance (id : Uuid) (db : Database) : Decidable (UnitsRest id db) :=
  inferInstanceAs (Decidable (∀ u ∈ db.units.rows, _))

instance (id : Uuid) (db : Database) : Decidable (StatusRests id db) :=
  inferInstanceAs (Decidable (∀ c ∈ db.connections.rows, _))

instance (id : Uuid) (db : Database) : Decidable (AtRest id db) :=
  decidable_of_iff _ atRest_iff.symm

/-- A unit at work, as a query finds it. -/
theorem unitAtWork_iff : unitAtWork id x db = true ↔
    ∃ u ∈ db.units.rows, u.key = (id, x) ∧ activeStatus u.status = true := by
  unfold unitAtWork
  rw [Option.any_eq_true]
  constructor
  · rintro ⟨⟨st, g⟩, hentry, hst⟩
    obtain ⟨u, hu, hkey, rfl, -⟩ := entry_eq_some.mp hentry
    exact ⟨u, hu, hkey, hst⟩
  · rintro ⟨u, hu, hkey, hst⟩
    exact ⟨_, entry_eq_some.mpr ⟨u, hu, hkey, rfl, rfl⟩, hst⟩

theorem unitsRest_iff : UnitsRest id db ↔ ∀ x, unitAtWork id x db = false := by
  constructor
  · intro h x
    by_contra hwork
    obtain ⟨u, hu, hkey, hst⟩ := unitAtWork_iff.mp (Bool.eq_true_of_not_eq_false hwork)
    rw [h u hu (congrArg Prod.fst hkey)] at hst
    cases hst
  · intro h u hu hid
    by_contra hst
    have hwork := unitAtWork_iff.mpr ⟨u, hu, rfl, Bool.eq_true_of_not_eq_false hst⟩
    rw [hid, h] at hwork
    cases hwork

theorem mem_of_rowOf {c : Connection} (h : rowOf id db = some c) :
    c ∈ db.connections.rows ∧ c.id = id :=
  ⟨List.mem_of_find?_eq_some h, by simpa using List.find?_some h⟩

theorem rowOf_of_mem {c : Connection} (hc : c ∈ db.connections.rows) (hid : c.id = id) :
    rowOf id db = some c := by
  have hfound : (rowOf id db).isSome = true :=
    List.find?_isSome.mpr ⟨c, hc, decide_eq_true hid⟩
  obtain ⟨c', hc'⟩ := Option.isSome_iff_exists.mp hfound
  obtain ⟨hmem, hid'⟩ := mem_of_rowOf hc'
  rw [hc', db.connections.eq_of_id hmem hc (hid'.trans hid.symm)]

theorem statusRests_iff : StatusRests id db ↔ rowAtWork id db = false := by
  unfold rowAtWork
  constructor
  · intro h
    cases hrow : rowOf id db with
    | none => rfl
    | some c => exact h c (mem_of_rowOf hrow).1 (mem_of_rowOf hrow).2
  · intro h c hc hid
    rw [rowOf_of_mem hc hid] at h
    exact h

/-! ### The statements that put to work and to rest -/

/-- The statement puts a unit that is there to work. -/
def startsUnit (id : Uuid) (x : String) (db : Database) : Statement → Bool
  | .setUnitStatus id' x' st =>
      decide ((id', x') = (id, x)) && (activeStatus st && (db.entry id x).isSome)
  | _ => false

/-- The statement puts a unit to rest: it commits the unit, records its failure or another
status, or tombstones a unit of an older generation. -/
def clearsUnit (id : Uuid) (x : String) (db : Database) : Statement → Bool
  | .setUnitStatus id' x' st => decide ((id', x') = (id, x)) && !activeStatus st
  | .commitUnit id' x' | .setUnitRetry id' x' _ _ => decide ((id', x') = (id, x))
  | .sweepUnseenUnits id' g => decide (id' = id) && (db.entry id x).any fun e => decide (e.2 < g)
  | _ => false

/-- The statement puts a connection that is there to work: a run starts, unless a sticky status
wins, or a status that is shown as activity is written. -/
def startsRow (id : Uuid) (db : Database) : Statement → Bool
  | .startRunConnection id' => decide (id' = id) && (rowOf id db).any fun c =>
      decide (c.status ∉ [ConnectionStatus.needsReauth, .disabled, .stopping])
  | .setConnectionStatus id' st _ | .setConnectionSettled id' st =>
      decide (id' = id) && (shownActive st && (rowOf id db).isSome)
  | _ => false

/-- The statement puts a connection to rest: it writes a resting status, deletes the connection or
reconnects it. -/
def clearsRow (id : Uuid) (db : Database) : Statement → Bool
  | .setNeedsReauth id' _ => decide (id' = id)
  | .setConnectionStatus id' st _ | .setConnectionSettled id' st =>
      decide (id' = id) && !shownActive st
  | .deleteConnection id' tenantID =>
      decide (id' = id) && (rowOf id db).any fun c => decide (c.tenantID = tenantID)
  | .upsertConnection p => (rowOf id db).any fun c => decide (c.key = (p.new 0).key)
  | _ => false

section Unit

variable {now : Time} {id' : Uuid} {x' : String}

/-- A statement that writes the status of one unit. -/
theorem entry_setStatus {f : SyncUnit → SyncUnit} {hid : ∀ r, (f r).id = r.id}
    {hkey : ∀ r, (f r).key = r.key} (st : UnitStatus)
    (hf : ∀ u, (f u).status = st ∧ (f u).generation = u.generation) :
    (db.updateUnits (SyncUnit.is id' x') f hid hkey).entry id x =
      (db.entry id x).map fun e => if (id', x') = (id, x) then (st, e.2) else e := by
  show ((db.units.rows.map (Table.updated _ f)).find? (SyncUnit.is id x)).map _ = _
  rw [find_updated _ hkey, Option.map_map]
  unfold Database.entry
  rw [Option.map_map]
  refine Option.map_congr fun u hu => ?_
  have hu' := is_iff.mp (List.find?_some hu)
  show ((Table.updated _ f u).status, (Table.updated _ f u).generation) = ite _ _ _
  unfold Table.updated
  by_cases heq : (id', x') = (id, x)
  · rw [if_pos heq, if_pos (is_iff.mpr (hu'.trans heq.symm)), (hf u).1, (hf u).2]
  · rw [if_neg heq, if_neg fun his => heq ((is_iff.mp his).symm.trans hu')]

/-- Where a statement writes the status of one unit, that unit is at work as the status says. -/
theorem unitAtWork_of_entry {db' : Database} {st : UnitStatus}
    (h : db'.entry id x =
      (db.entry id x).map fun e => if (id', x') = (id, x) then (st, e.2) else e) :
    unitAtWork id x db' =
      (decide ((id', x') = (id, x)) && (activeStatus st && (db.entry id x).isSome) ||
        unitAtWork id x db && !(decide ((id', x') = (id, x)) && !activeStatus st)) := by
  unfold unitAtWork
  rw [h]
  by_cases heq : (id', x') = (id, x)
  · cases db.entry id x with
    | none => simp [heq]
    | some e => cases hst : activeStatus st <;> simp [heq, hst]
  · cases db.entry id x with
    | none => simp [heq]
    | some e => simp [heq]

/-- **A unit is at work after a statement** if the statement put it to work, or if it was at work
and the statement has not put it to rest. -/
theorem unitAtWork_exec (now : Time) (db : Database) (s : Statement) :
    unitAtWork id x (s.exec now db).2 =
      (startsUnit id x db s || unitAtWork id x db && !clearsUnit id x db s) := by
  have hkept : s.keepsCatalog = true → unitAtWork id x (s.exec now db).2 =
      (false || unitAtWork id x db && !false) := by
    intro hs
    unfold unitAtWork
    rw [entry_exec hs, Bool.not_false, Bool.and_true, Bool.false_or]
  cases s with
  | setUnitStatus id' x' st => exact unitAtWork_of_entry (entry_setStatus st fun _ => ⟨rfl, rfl⟩)
  | commitUnit id' x' =>
    have hafter : (commitUnit now id' x' db).entry id x = _ :=
      entry_setStatus .synced fun _ => ⟨rfl, rfl⟩
    refine (unitAtWork_of_entry hafter).trans ?_
    simp [startsUnit, clearsUnit, activeStatus]
  | setUnitRetry id' x' e at_ =>
    have hafter : (setUnitRetry now id' x' e at_ db).entry id x = _ :=
      entry_setStatus .error fun _ => ⟨rfl, rfl⟩
    refine (unitAtWork_of_entry hafter).trans ?_
    simp [startsUnit, clearsUnit, activeStatus]
  | upsertSyncUnit id' y name kind g =>
    show unitAtWork id x (upsertSyncUnit now id' y name kind g db) =
      (false || unitAtWork id x db && !false)
    unfold unitAtWork
    rw [entry_upsertSyncUnit]
    by_cases heq : (id', y) = (id, x)
    · rw [if_pos heq]
      cases db.entry id x <;> simp [activeStatus]
    · rw [if_neg heq]
      simp
  | sweepUnseenUnits id' g =>
    show unitAtWork id x (sweepUnseenUnits now id' g db).2 = (false || _)
    unfold unitAtWork clearsUnit
    rw [entry_sweepUnseenUnits, Bool.false_or]
    cases db.entry id x with
    | none => rfl
    | some e =>
      show activeStatus (ite _ _ e).1 = (activeStatus e.1 && !(decide _ && decide _))
      by_cases hold : id' = id ∧ e.2 < g
      · rw [if_pos hold, decide_eq_true hold.1, decide_eq_true hold.2, Bool.and_true,
          Bool.not_true, Bool.and_false]
        rfl
      · rw [if_neg hold, ← Bool.decide_and, decide_eq_false hold, Bool.not_false, Bool.and_true]
  -- a collected unit is tombstoned, and a rearmed one had ended
  | gcRemovedUnits id' cutoff =>
    rw [Bool.eq_iff_iff]
    simp only [startsUnit, clearsUnit, Bool.false_or, Bool.not_false, Bool.and_true]
    rw [unitAtWork_iff, unitAtWork_iff]
    constructor
    · rintro ⟨u, hu, h⟩
      exact ⟨u, (Table.mem_delete.mp hu).1, h⟩
    · rintro ⟨u, hu, hkey, hst⟩
      refine ⟨u, Table.mem_delete.mpr ⟨hu, ?_⟩, hkey, hst⟩
      have hremoved : u.status ≠ .removed := by
        intro heq
        rw [heq] at hst
        cases hst
      simp [collectable, hremoved]
  | startRun id' =>
    rw [Bool.eq_iff_iff]
    simp only [startsUnit, clearsUnit, Bool.false_or, Bool.not_false, Bool.and_true]
    rw [unitAtWork_iff, unitAtWork_iff]
    refine Table.exists_updated fun u hu hp => and_congr_right fun _ => ?_
    simp only [Bool.and_eq_true, decide_eq_true_eq, List.mem_cons, List.not_mem_nil,
      or_false] at hp
    rcases hp.2 with hst | hst <;> simp [hst, activeStatus]
  | _ => exact hkept rfl

end Unit

section Row

variable {now : Time}

/-- After an update a row is found where it was. -/
theorem rowOf_update {p : Connection → Bool} {f : Connection → Connection}
    {hid : ∀ r, (f r).id = r.id} {hkey : ∀ r, (f r).key = r.key} :
    rowOf id (db.updateConnections p f hid hkey) = (rowOf id db).map (Table.updated p f) := by
  show (db.connections.rows.map (Table.updated p f)).find? _ = _
  rw [List.find?_map]
  unfold rowOf
  congr 2
  funext c
  have hsame : (Table.updated p f c).id = c.id := by
    unfold Table.updated
    split
    · exact hid c
    · rfl
  rw [Function.comp, hsame]

/-- Who is at work after an update, by the row it leaves. -/
theorem rowAtWork_update {p : Connection → Bool} {f : Connection → Connection}
    {hid : ∀ r, (f r).id = r.id} {hkey : ∀ r, (f r).key = r.key} :
    rowAtWork id (db.updateConnections p f hid hkey) =
      (rowOf id db).any fun c => shownActive (Table.updated p f c).status := by
  unfold rowAtWork
  rw [rowOf_update, Option.any_map]

/-- An update that keeps the status keeps who is at work. -/
theorem rowAtWork_update_eq {p : Connection → Bool} {f : Connection → Connection}
    {hid : ∀ r, (f r).id = r.id} {hkey : ∀ r, (f r).key = r.key}
    (hf : ∀ c, (f c).status = c.status) :
    rowAtWork id (db.updateConnections p f hid hkey) = rowAtWork id db := by
  rw [rowAtWork_update]
  unfold rowAtWork
  congr 1
  funext c
  unfold Table.updated
  split
  · rw [hf]
  · rfl

/-- A status that is written to a connection is shown as it says. -/
theorem rowAtWork_setStatus {id' : Uuid} {f : Connection → Connection}
    {hid : ∀ r, (f r).id = r.id} {hkey : ∀ r, (f r).key = r.key} (st : ConnectionStatus)
    (hf : ∀ c, (f c).status = st) :
    rowAtWork id (db.updateConnections (fun c => decide (c.id = id')) f hid hkey) =
      (decide (id' = id) && (shownActive st && (rowOf id db).isSome) ||
        rowAtWork id db && !(decide (id' = id) && !shownActive st)) := by
  rw [rowAtWork_update]
  unfold rowAtWork
  cases hrow : rowOf id db with
  | none => simp
  | some c =>
    have hcid := (mem_of_rowOf hrow).2
    show shownActive (Table.updated _ f c).status = _
    unfold Table.updated
    by_cases heq : id' = id
    · rw [if_pos (decide_eq_true (hcid.trans heq.symm)), hf]
      cases hst : shownActive st <;> simp [heq]
    · rw [if_neg (by simpa [hcid] using fun h => heq h.symm)]
      simp [heq]

/-- A run that starts puts the connection to work, unless a sticky status wins. -/
theorem rowAtWork_startRunConnection (id' : Uuid) : rowAtWork id (startRunConnection id' db) =
    (decide (id' = id) && (rowOf id db).any (fun c =>
        decide (c.status ∉ [ConnectionStatus.needsReauth, .disabled, .stopping])) ||
      rowAtWork id db) := by
  refine rowAtWork_update.trans ?_
  unfold rowAtWork
  cases hrow : rowOf id db with
  | none => simp
  | some c =>
    have hcid := (mem_of_rowOf hrow).2
    simp only [Option.any_some, Table.updated]
    rw [hcid, decide_eq_decide.mpr (eq_comm (a := id) (b := id'))]
    generalize (decide (id' = id) &&
      decide (c.status ∉ [ConnectionStatus.needsReauth, .disabled, .stopping])) = starts
    cases starts with
    | true => rfl
    | false => rfl

/-- A disconnect of the tenant puts the connection to rest. -/
theorem rowAtWork_deleteConnection (id' : Uuid) (tenantID : String) :
    rowAtWork id (deleteConnection now id' tenantID db).2 = (rowAtWork id db &&
      !(decide (id' = id) && (rowOf id db).any fun c => decide (c.tenantID = tenantID))) := by
  refine rowAtWork_update.trans ?_
  unfold rowAtWork
  cases hrow : rowOf id db with
  | none => simp
  | some c =>
    have hcid := (mem_of_rowOf hrow).2
    simp only [Option.any_some, Table.updated]
    rw [hcid, decide_eq_decide.mpr (eq_comm (a := id) (b := id'))]
    generalize (decide (id' = id) && decide (c.tenantID = tenantID)) = deletes
    cases deletes with
    | true => exact (Bool.and_false _).symm
    | false => exact (Bool.and_true _).symm

/-- A reconnect of the account puts the connection to rest. -/
theorem rowAtWork_upsertConnection (p : UpsertConnectionParams) :
    rowAtWork id (upsertConnection p db).2 = (rowAtWork id db &&
      !(rowOf id db).any fun c => decide (c.key = (p.new 0).key)) := by
  rcases upsertConnection_cases p db with hupdate | ⟨hnew, hinsert⟩
  · -- the row of the key is rewritten
    rw [hupdate]
    refine rowAtWork_update.trans ?_
    unfold rowAtWork
    cases rowOf id db with
    | none => rfl
    | some c =>
      simp only [Option.any_some, Table.updated]
      have hnext : (p.new db.connections.next).key = (p.new 0).key := rfl
      rw [hnext]
      by_cases hkey : c.key = (p.new 0).key
      · rw [if_pos (decide_eq_true hkey), decide_eq_true hkey]
        exact (Bool.and_false _).symm
      · rw [if_neg (by simpa using hkey), decide_eq_false hkey]
        exact (Bool.and_true _).symm
  · -- a row of another key is added
    have hrow : rowOf id (upsertConnection p db).2 = (rowOf id db).or
        (if (p.new db.connections.next).id = id then some (p.new db.connections.next)
          else none) := by
      unfold rowOf
      rw [hinsert, List.find?_append, List.find?_singleton]
      simp
    unfold rowAtWork
    rw [hrow]
    cases hfound : rowOf id db with
    | none =>
      rw [Option.none_or]
      split <;> rfl
    | some c =>
      have hne : c.key ≠ (p.new 0).key := fun heq =>
        hnew (List.mem_map.mpr ⟨c, (mem_of_rowOf hfound).1, heq⟩)
      simp [hne]

/-- **A connection is at work after a statement** if the statement put it to work, or if it was at
work and the statement has not put it to rest. -/
theorem rowAtWork_exec (now : Time) (db : Database) (s : Statement) :
    rowAtWork id (s.exec now db).2 =
      (startsRow id db s || rowAtWork id db && !clearsRow id db s) := by
  have hkept : rowAtWork id (s.exec now db).2 = rowAtWork id db →
      rowAtWork id (s.exec now db).2 = (false || rowAtWork id db && !false) := by
    intro h
    rw [h, Bool.not_false, Bool.and_true, Bool.false_or]
  have hsame : s.writesConnections = false →
      rowAtWork id (s.exec now db).2 = rowAtWork id db := by
    intro hs
    unfold rowAtWork rowOf
    rw [connections_exec now db hs]
  cases s with
  | setNeedsReauth id' text =>
    refine (rowAtWork_setStatus .needsReauth fun _ => rfl).trans ?_
    simp [startsRow, clearsRow, shownActive, statusToProto]
  | setConnectionStatus id' st text => exact rowAtWork_setStatus st fun _ => rfl
  | setConnectionSettled id' st => exact rowAtWork_setStatus st fun _ => rfl
  | startRunConnection id' =>
    exact (rowAtWork_startRunConnection id').trans (by simp [startsRow, clearsRow])
  | deleteConnection id' tenantID =>
    exact (rowAtWork_deleteConnection id' tenantID).trans (Bool.false_or _).symm
  | upsertConnection p => exact (rowAtWork_upsertConnection p).trans (Bool.false_or _).symm
  | updateTokens id' access refresh expiry => exact hkept (rowAtWork_update_eq fun _ => rfl)
  | updateAccessToken id' access expiry => exact hkept (rowAtWork_update_eq fun _ => rfl)
  | setCatalogDiscovered id' => exact hkept (rowAtWork_update_eq fun _ => rfl)
  | markConnectionOnboarded id' => exact hkept (rowAtWork_update_eq fun _ => rfl)
  | _ => exact hkept (hsame rfl)

end Row

/-! ### What a trace has left -/

/-- The label is of such a command. -/
def carried (p : Database → Statement → Bool) (m : Mark) : Bool :=
  (performed? m).any (carriesOut p)

/-- A statement has put the unit to work, and none since has put it to rest. -/
def UnitLeft (id : Uuid) (x : String) (tr : List Mark) : Prop :=
  Pending (fun m => carried (startsUnit id x) m = true)
    (fun m => carried (clearsUnit id x) m = true) (fun _ => False) tr

/-- A statement has put the connection to work, and none since has put it to rest. -/
def RowLeft (id : Uuid) (tr : List Mark) : Prop :=
  Pending (fun m => carried (startsRow id) m = true) (fun m => carried (clearsRow id) m = true)
    (fun _ => False) tr

/-- Every unit that was put to work was put to rest since. -/
def UnitsCleared (id : Uuid) (tr : List Mark) : Prop := ∀ x, ¬ UnitLeft id x tr

/-- So was every unit, and the connection. -/
def NothingLeft (id : Uuid) (tr : List Mark) : Prop := UnitsCleared id tr ∧ ¬ RowLeft id tr

instance (id : Uuid) (x : String) (tr : List Mark) : Decidable (UnitLeft id x tr) :=
  decidable_of_iff _ (stillPending_iff tr)

instance (id : Uuid) (tr : List Mark) : Decidable (RowLeft id tr) :=
  decidable_of_iff _ (stillPending_iff tr)

/-- The unit whose status the label writes. -/
def writtenUnit (m : Mark) : Option String :=
  (performed? m).bind fun l => match l.cmd with
    | .statement (.setUnitStatus _ x _) => some x
    | _ => none

theorem mem_of_unitLeft {tr : List Mark} (h : UnitLeft id x tr) :
    x ∈ tr.filterMap writtenUnit := by
  obtain ⟨pre, m, mid, rfl, hstarts, -⟩ := h
  refine List.mem_filterMap.mpr ⟨m, by simp, ?_⟩
  obtain ⟨l, hl, hcarries⟩ := (Option.any_eq_true _ _).mp hstarts
  have hp := (Bool.and_eq_true_iff.mp hcarries).2
  rw [writtenUnit, hl, Option.bind_some]
  cases hc : l.cmd with
  | statement s =>
    rw [hc] at hp
    cases s with
    | setUnitStatus id' x' st =>
      have heq := of_decide_eq_true (Bool.and_eq_true_iff.mp hp).1
      exact congrArg some (Prod.mk.inj heq).2
    | _ => cases hp
  | _ =>
    rw [hc] at hp
    cases hp

instance (id : Uuid) (tr : List Mark) : Decidable (UnitsCleared id tr) :=
  decidable_of_iff (∀ x ∈ tr.filterMap writtenUnit, ¬ UnitLeft id x tr)
    ⟨fun h x hleft => h x (mem_of_unitLeft hleft) hleft, fun h x _ => h x⟩

instance (id : Uuid) (tr : List Mark) : Decidable (NothingLeft id tr) :=
  inferInstanceAs (Decidable (_ ∧ _))

/-- **The trace accounts for who is at work**: what it has left. -/
structure Accounted (id : Uuid) (db : Database) (tr : List Mark) : Prop where
  units : ∀ x, unitAtWork id x db = true ↔ UnitLeft id x tr
  row : rowAtWork id db = true ↔ RowLeft id tr

section Account

variable {w : World} {c : Cmd} {b : Bool} {t : Choice} {m : Mark} {tr as : List Mark}

theorem Accounted.unitsRest_iff (h : Accounted id db tr) :
    UnitsRest id db ↔ UnitsCleared id tr := by
  rw [Workflow.unitsRest_iff]
  exact forall_congr' fun x => by rw [← h.units x, Bool.not_eq_true]

/-- **A connection is at rest exactly if nothing in the trace is left.** -/
theorem Accounted.atRest_iff (h : Accounted id db tr) : AtRest id db ↔ NothingLeft id tr := by
  rw [Workflow.atRest_iff, h.unitsRest_iff, statusRests_iff, NothingLeft, ← h.row,
    Bool.not_eq_true]

/-- A connection at rest has an empty account. -/
theorem accounted_nil (h : AtRest id db) : Accounted id db [] := by
  obtain ⟨hunits, hstatus⟩ := Workflow.atRest_iff.mp h
  refine ⟨fun x => ?_, ?_⟩
  · rw [Workflow.unitsRest_iff.mp hunits x]
    exact iff_of_false Bool.false_ne_true pending_nil
  · rw [statusRests_iff.mp hstatus]
    exact iff_of_false Bool.false_ne_true pending_nil

/-- Labels that record no command leave the account alone. -/
theorem Accounted.quiet (h : Accounted id db tr) (has : ∀ m ∈ as, performed? m = none) :
    Accounted id db (tr ++ as) := by
  have hnot : ∀ (p : Database → Statement → Bool), ∀ m ∈ as, ¬ carried p m = true := by
    intro p m hm
    rw [carried, has m hm]
    exact Bool.false_ne_true
  refine ⟨fun x => (h.units x).trans (pending_append_neutral tr (hnot _) fun m hm =>
    ⟨not_false, hnot _ m hm⟩).symm, h.row.trans (pending_append_neutral tr (hnot _) fun m hm =>
    ⟨not_false, hnot _ m hm⟩).symm⟩

/-- **A command adds to the account what it does.** -/
theorem Accounted.command (h : Accounted id w.db tr) (hm : performed? m = some ⟨w, c, b, t⟩) :
    Accounted id (service.perform t b w c).1.db (tr ++ [m]) := by
  have hcarried : ∀ p, carried p m = carriesOut p ⟨w, c, b, t⟩ := by
    intro p
    rw [carried, hm]
    rfl
  refine ⟨fun x => ?_, ?_⟩
  · rw [carriesOut_perform (f := unitAtWork id x) unitAtWork_exec, UnitLeft, pending_snoc, hcarried,
      hcarried]
    simp [h.units x, UnitLeft]
  · rw [carriesOut_perform (f := rowAtWork id) rowAtWork_exec, RowLeft, pending_snoc, hcarried,
      hcarried]
    simp [h.row, RowLeft]

/-- **Every move of the workflow keeps the account.** -/
theorem Accounted.move {a : Activities} {sv : Server} {tenantID connectorID : String}
    {s s' : Running} {e : Happening} (h : Accounted id s.world.db tr)
    (hm : Moves (connectionOver a id tenantID connectorID) service (Job.prog a sv) s e s' as) :
    Accounted id s'.world.db (tr ++ as) := by
  rcases move_performs hm with ⟨hworld, has⟩ | ⟨m, c, b, t, rfl, hm, hworld⟩
  · rw [hworld]
    exact h.quiet has
  · rw [hworld]
    exact h.command hm

end Account

end Workflow
end Hivebook
