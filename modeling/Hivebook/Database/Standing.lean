import Hivebook.Database.Manifest

/-!
# What a statement does to the standing of a connection

The standing of a connection is its status, and whether it is soft-deleted.  Six statements
change it; this file says which, when, and to what.

## Main definitions

* `Database.standing db id` — the status of a connection and whether it is deleted, if there
  is one.
* `Restands db db' id s` — the statement moves the connection to another standing.

## Main results

* `standing_exec` — **a statement moves a connection as `Restands` says, or leaves its standing
  alone.**
-/

namespace Hivebook

open Database

namespace Database

/-- The status of a connection, and whether it is soft-deleted. -/
def standing (db : Database) (id : Uuid) : Option (ConnectionStatus × Bool) :=
  (db.connections.rows.find? fun c => decide (c.id = id)).map fun c =>
    (c.status, c.deletedAt.isSome)

/-- The status of a connection. -/
def statusOf (db : Database) (id : Uuid) : Option ConnectionStatus := (db.standing id).map Prod.fst

end Database

/-- How a statement moves a connection to another standing. -/
inductive Restands (db db' : Database) (id : Uuid) : Statement → Prop
  | setNeedsReauth (text : String) (st : ConnectionStatus) (deleted : Bool) :
      db.standing id = some (st, deleted) → db'.standing id = some (.needsReauth, deleted) →
      Restands db db' id (.setNeedsReauth id text)
  | setConnectionStatus (st' : ConnectionStatus) (text : String) (st : ConnectionStatus)
      (deleted : Bool) : db.standing id = some (st, deleted) →
      db'.standing id = some (st', deleted) →
      Restands db db' id (.setConnectionStatus id st' text)
  | setConnectionSettled (st' st : ConnectionStatus) (deleted : Bool) :
      db.standing id = some (st, deleted) → db'.standing id = some (st', deleted) →
      Restands db db' id (.setConnectionSettled id st')
  /-- The only guarded one: sticky states win over a fresh run. -/
  | startRunConnection (st : ConnectionStatus) (deleted : Bool) :
      st ≠ .needsReauth → st ≠ .disabled → db.standing id = some (st, deleted) →
      db'.standing id = some (.syncing, deleted) → Restands db db' id (.startRunConnection id)
  | deleteConnection (tenantID : String) : db'.standing id = some (.disabled, true) →
      Restands db db' id (.deleteConnection id tenantID)
  | upsertConnection (p : UpsertConnectionParams) (c : Connection) :
      c ∈ db'.connections.rows → c.id = id → c.key = (p.new 0).key →
      db'.standing id = some (.connected, false) → Restands db db' id (.upsertConnection p)

variable {db : Database} {id : Uuid}

/-- A connection is found under its id. -/
theorem standing_of_mem {c : Connection} (hc : c ∈ db.connections.rows) (hid : c.id = id) :
    db.standing id = some (c.status, c.deletedAt.isSome) := by
  have hfound : (db.connections.rows.find? fun c => decide (c.id = id)).isSome = true :=
    List.find?_isSome.mpr ⟨c, hc, decide_eq_true hid⟩
  obtain ⟨c', hc'⟩ := Option.isSome_iff_exists.mp hfound
  have hid' : c'.id = id := by simpa using List.find?_some hc'
  have heq : c' = c := db.connections.eq_of_id (List.mem_of_find?_eq_some hc') hc
    (hid'.trans hid.symm)
  unfold Database.standing
  rw [hc', heq]
  rfl

theorem exists_of_standing {st : ConnectionStatus × Bool} (h : db.standing id = some st) :
    ∃ c ∈ db.connections.rows, c.id = id ∧ st = (c.status, c.deletedAt.isSome) := by
  obtain ⟨c, hc, rfl⟩ := Option.map_eq_some_iff.mp h
  have hid : c.id = id := by simpa using List.find?_some hc
  exact ⟨c, List.mem_of_find?_eq_some hc, hid, rfl⟩

/-- No connection is found under the id of none. -/
theorem standing_eq_none (h : ∀ c ∈ db.connections.rows, c.id ≠ id) : db.standing id = none := by
  cases hst : db.standing id with
  | none => rfl
  | some st =>
    obtain ⟨c, hc, hid, -⟩ := exists_of_standing hst
    exact absurd hid (h c hc)

/-- An update leaves the standing of a connection alone, or rewrites its row. -/
theorem standing_update (db : Database) (id : Uuid) (p : Connection → Bool)
    {f : Connection → Connection} {hid : ∀ r, (f r).id = r.id} {hkey : ∀ r, (f r).key = r.key} :
    (db.updateConnections p f hid hkey).standing id = db.standing id ∨
      ∃ c ∈ db.connections.rows, c.id = id ∧ p c = true ∧
        db.standing id = some (c.status, c.deletedAt.isSome) ∧
        f c ∈ (db.updateConnections p f hid hkey).connections.rows ∧
        (db.updateConnections p f hid hkey).standing id =
          some ((f c).status, (f c).deletedAt.isSome) := by
  cases hst : db.standing id with
  | none =>
    refine .inl (standing_eq_none fun c' hc' hid' => ?_)
    obtain ⟨c, hc, rfl⟩ := List.mem_map.mp hc'
    have hsame : (Table.updated p f c).id = c.id := by
      unfold Table.updated
      split
      · exact hid c
      · rfl
    rw [standing_of_mem hc (hsame.symm.trans hid')] at hst
    cases hst
  | some st =>
    obtain ⟨c, hc, hcid, rfl⟩ := exists_of_standing hst
    have hmem : Table.updated p f c ∈
        (db.updateConnections p f hid hkey).connections.rows := List.mem_map_of_mem hc
    by_cases hp : p c = true
    · have hf : Table.updated p f c = f c := if_pos hp
      rw [hf] at hmem
      exact .inr ⟨c, hc, hcid, hp, rfl, hmem, standing_of_mem hmem ((hid c).trans hcid)⟩
    · have hf : Table.updated p f c = c := if_neg hp
      rw [hf] at hmem
      exact .inl (standing_of_mem hmem hcid)

/-- An update that keeps status and deletion keeps every standing. -/
theorem standing_update_eq {p : Connection → Bool} {f : Connection → Connection}
    {hid : ∀ r, (f r).id = r.id} {hkey : ∀ r, (f r).key = r.key}
    (hf : ∀ c, (f c).status = c.status ∧ (f c).deletedAt = c.deletedAt) :
    (db.updateConnections p f hid hkey).standing id = db.standing id := by
  rcases @standing_update db id p f hid hkey with hsame | ⟨c, -, -, -, hst, -, hst'⟩
  · exact hsame
  · rw [hst, hst', (hf c).1, (hf c).2]

/-- A reconnect moves the connection of its key only. -/
theorem standing_upsertConnection (p : UpsertConnectionParams) :
    (upsertConnection p db).2.standing id = db.standing id ∨
      Restands db (upsertConnection p db).2 id (.upsertConnection p) := by
  rcases upsertConnection_cases p db with hupdate | ⟨-, hinsert⟩
  · -- the row is there, and is rewritten
    rw [hupdate]
    rcases standing_update db id _ with hsame | ⟨c, -, hid, hp, -, hmem, hst⟩
    · exact .inl hsame
    · exact .inr (.upsertConnection p _ hmem hid (of_decide_eq_true hp) hst)
  · by_cases hid : (p.new db.connections.next).id = id
    · have hmem : p.new db.connections.next ∈ (upsertConnection p db).2.connections.rows := by
        rw [hinsert]
        simp
      exact .inr (.upsertConnection p _ hmem hid rfl (standing_of_mem hmem hid))
    · refine .inl ?_
      unfold Database.standing
      rw [hinsert, List.find?_append, List.find?_singleton, if_neg (by simpa using hid),
        Option.or_none]

/-- **A statement moves a connection, or leaves its standing alone.** -/
theorem standing_exec (now : Time) (s : Statement) :
    (s.exec now db).2.standing id = db.standing id ∨ Restands db (s.exec now db).2 id s := by
  -- what does not write connections leaves the row alone
  have hsame : s.writesConnections = false → (s.exec now db).2.standing id = db.standing id := by
    intro hs
    unfold Database.standing
    rw [connections_exec now db hs]
  cases s with
  | upsertConnection p => exact standing_upsertConnection p
  | setNeedsReauth id' text =>
    rcases standing_update db id (fun c => decide (c.id = id')) with
      heq | ⟨c, -, hid, hp, hst, -, hst'⟩
    · exact .inl heq
    · obtain rfl : id' = id := (of_decide_eq_true hp).symm.trans hid
      exact .inr (.setNeedsReauth text _ _ hst hst')
  | setConnectionStatus id' st' text =>
    rcases standing_update db id (fun c => decide (c.id = id')) with
      heq | ⟨c, -, hid, hp, hst, -, hst'⟩
    · exact .inl heq
    · obtain rfl : id' = id := (of_decide_eq_true hp).symm.trans hid
      exact .inr (.setConnectionStatus st' text _ _ hst hst')
  | setConnectionSettled id' st' =>
    rcases standing_update db id (fun c => decide (c.id = id')) with
      heq | ⟨c, -, hid, hp, hst, -, hst'⟩
    · exact .inl heq
    · obtain rfl : id' = id := (of_decide_eq_true hp).symm.trans hid
      exact .inr (.setConnectionSettled st' _ _ hst hst')
  | startRunConnection id' =>
    rcases standing_update db id (fun c => decide (c.id = id') &&
        decide (c.status ∉ [ConnectionStatus.needsReauth, .disabled, .stopping])) with
      heq | ⟨c, -, hid, hp, hst, -, hst'⟩
    · exact .inl heq
    · simp only [Bool.and_eq_true, decide_eq_true_eq, List.mem_cons, List.not_mem_nil, or_false,
        not_or] at hp
      obtain rfl : id' = id := hp.1.symm.trans hid
      exact .inr (.startRunConnection _ _ hp.2.1 hp.2.2.1 hst hst')
  | deleteConnection id' tenantID =>
    rcases standing_update db id (fun c => decide (c.id = id') &&
        decide (c.tenantID = tenantID)) with heq | ⟨c, -, hid, hp, hst, -, hst'⟩
    · exact .inl heq
    · simp only [Bool.and_eq_true, decide_eq_true_eq] at hp
      obtain rfl : id' = id := hp.1.symm.trans hid
      exact .inr (.deleteConnection tenantID hst')
  | updateTokens id' access refresh expiry => exact .inl (standing_update_eq fun c => ⟨rfl, rfl⟩)
  | updateAccessToken id' access expiry => exact .inl (standing_update_eq fun c => ⟨rfl, rfl⟩)
  | setCatalogDiscovered id' => exact .inl (standing_update_eq fun c => ⟨rfl, rfl⟩)
  | markConnectionOnboarded id' => exact .inl (standing_update_eq fun c => ⟨rfl, rfl⟩)
  | _ => exact .inl (hsame rfl)

end Hivebook
