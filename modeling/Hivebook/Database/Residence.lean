import Hivebook.Database.Manifest

/-!
# Where the connections are at home

A connection belongs to a tenant and a connector, and its objects go to the bucket of its
region.  These columns are written when the row is inserted and never again: a reconnect keeps
them.

## Main definitions

* `Connection.home` — the id of a connection, and the columns that never change.

## Main results

* `homes_exec` — **a statement keeps the homes of all connections, or inserts one.**
-/

namespace Hivebook

open Database

/-- The id of a connection, its tenant, region and connector. -/
def Connection.home (c : Connection) : Uuid × String × String × String :=
  (c.id, c.tenantID, c.region, c.connectorID)

namespace Database

/-- The homes of the connections. -/
def homes (db : Database) : List (Uuid × String × String × String) :=
  db.connections.rows.map Connection.home

theorem homes_update (db : Database) (p : Connection → Bool) {f : Connection → Connection}
    {hid : ∀ r, (f r).id = r.id} {hkey : ∀ r, (f r).key = r.key} (hf : ∀ c, (f c).home = c.home) :
    (db.updateConnections p f hid hkey).homes = db.homes :=
  Table.map_updated Connection.home hf _

end Database

/-- **A statement keeps the homes of all connections, or inserts one.** -/
theorem homes_exec (now : Time) (db : Database) (s : Statement) :
    (s.exec now db).2.homes = db.homes ∨ ∃ p, s = .upsertConnection p ∧
      (s.exec now db).2.connections.rows = db.connections.rows ++ [p.new db.connections.next] := by
  have hsame : s.writesConnections = false → (s.exec now db).2.homes = db.homes := by
    intro hs
    unfold homes
    rw [connections_exec now db hs]
  cases s with
  | upsertConnection p =>
    rcases upsertConnection_cases p db with hupdate | ⟨-, hinsert⟩
    · refine .inl ?_
      show (upsertConnection p db).2.homes = db.homes
      rw [hupdate]
      exact homes_update db _ fun c => rfl
    · exact .inr ⟨p, rfl, hinsert⟩
  | setNeedsReauth id text => exact .inl (homes_update db _ fun c => rfl)
  | setConnectionStatus id st text => exact .inl (homes_update db _ fun c => rfl)
  | updateTokens id access refresh expiry => exact .inl (homes_update db _ fun c => rfl)
  | updateAccessToken id access expiry => exact .inl (homes_update db _ fun c => rfl)
  | deleteConnection id tenantID => exact .inl (homes_update db _ fun c => rfl)
  | setCatalogDiscovered id => exact .inl (homes_update db _ fun c => rfl)
  | markConnectionOnboarded id => exact .inl (homes_update db _ fun c => rfl)
  | startRunConnection id => exact .inl (homes_update db _ fun c => rfl)
  | setConnectionSettled id st => exact .inl (homes_update db _ fun c => rfl)
  | _ => exact .inl (hsame rfl)

end Hivebook
