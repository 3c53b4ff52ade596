import Hivebook.Database.Manifest

/-!
# The stored tokens

The refresh token of a connection is written by two statements: the store of a rotated token,
and a reconnect, which keeps the old token when it brings none.  The access token is written by
these two and by a third one, and always together with its expiry.

## Main definitions

* `Statement.refreshTokenOf` — the refresh token a statement leaves in a row.
* `Statement.accessTokenOf` — the access token it leaves there, with the expiry.

## Main results

* `mem_exec_connections` — **a row that a statement leaves was there before, with other tokens, or
  is inserted by a connect.**
* `refreshToken_exec` — **a statement leaves every connection in place, with that token.**
-/

namespace Hivebook

open Database

/-- The refresh token a statement leaves in a row. -/
def Statement.refreshTokenOf (c : Connection) : Statement → Option Bytes
  | .updateTokens id _ refresh _ => if c.id = id then some refresh else c.refreshToken
  | .upsertConnection p =>
      if c.key = (p.new 0).key then keptRefreshToken p.refreshToken c.refreshToken
      else c.refreshToken
  | _ => c.refreshToken

/-- The access token a statement leaves in a row, with its expiry. -/
def Statement.accessTokenOf (c : Connection) : Statement → Bytes × Option Time
  | .updateTokens id access _ expiry =>
      if c.id = id then (access, expiry) else (c.accessToken, c.tokenExpiry)
  | .updateAccessToken id access expiry =>
      if c.id = id then (access, expiry) else (c.accessToken, c.tokenExpiry)
  | .upsertConnection p =>
      if c.key = (p.new 0).key then (p.accessToken, p.tokenExpiry)
      else (c.accessToken, c.tokenExpiry)
  | _ => (c.accessToken, c.tokenExpiry)

/-- **A row that a statement leaves was there before**, with other tokens, or it is inserted by a
connect. -/
theorem mem_exec_connections (now : Time) {db : Database} (s : Statement) {c' : Connection}
    (hc' : c' ∈ (s.exec now db).2.connections.rows) :
    (∃ c ∈ db.connections.rows, c'.id = c.id ∧ c'.key = c.key ∧
      c'.refreshToken = s.refreshTokenOf c ∧ (c'.accessToken, c'.tokenExpiry) = s.accessTokenOf c) ∨
    ∃ p, s = .upsertConnection p ∧ c' = p.new db.connections.next := by
  -- an update that leaves the tokens alone
  have hkept : ∀ (hit : Connection → Bool) (f : Connection → Connection)
      (hid : ∀ r, (f r).id = r.id) (hkey : ∀ r, (f r).key = r.key),
      c' ∈ (db.updateConnections hit f hid hkey).connections.rows →
      (∀ r, (f r).refreshToken = r.refreshToken ∧ (f r).accessToken = r.accessToken ∧
        (f r).tokenExpiry = r.tokenExpiry) →
      ∃ c ∈ db.connections.rows, c'.id = c.id ∧ c'.key = c.key ∧
        c'.refreshToken = c.refreshToken ∧
        (c'.accessToken, c'.tokenExpiry) = (c.accessToken, c.tokenExpiry) := by
    intro hit f hid hkey hmem hf
    obtain ⟨c, hc, rfl⟩ := List.mem_map.mp hmem
    refine ⟨c, hc, ?_⟩
    unfold Table.updated
    split
    · obtain ⟨hrefresh, haccess, hexpiry⟩ := hf c
      exact ⟨hid c, hkey c, hrefresh, by rw [haccess, hexpiry]⟩
    · exact ⟨rfl, rfl, rfl, rfl⟩
  have hsame : s.writesConnections = false → ∃ c ∈ db.connections.rows, c'.id = c.id ∧
      c'.key = c.key ∧ c'.refreshToken = c.refreshToken ∧
      (c'.accessToken, c'.tokenExpiry) = (c.accessToken, c.tokenExpiry) := by
    intro hs
    rw [connections_exec now db hs] at hc'
    exact ⟨c', hc', rfl, rfl, rfl, rfl⟩
  cases s with
  | upsertConnection p =>
    have hmem : c' ∈ (db.connections.upsert p.new (reconnected p) (fun _ => rfl) (fun _ => rfl)
        (fun _ => rfl)).rows := hc'
    rcases Table.mem_upsert hmem with ⟨c, hc, hkey, rfl⟩ | ⟨hc, hkey⟩ | ⟨-, rfl⟩
    · have hkey' : c.key = (p.new 0).key := hkey
      exact .inl ⟨c, hc, rfl, rfl, (if_pos hkey').symm, (if_pos hkey').symm⟩
    · have hkey' : c'.key ≠ (p.new 0).key := hkey
      exact .inl ⟨c', hc, rfl, rfl, (if_neg hkey').symm, (if_neg hkey').symm⟩
    · exact .inr ⟨p, rfl, rfl⟩
  | updateTokens id access refresh expiry =>
    obtain ⟨c, hc, rfl⟩ := List.mem_map.mp hc'
    refine .inl ⟨c, hc, ?_⟩
    unfold Table.updated
    by_cases heq : c.id = id
    · rw [if_pos (decide_eq_true heq)]
      exact ⟨rfl, rfl, (if_pos heq).symm, (if_pos heq).symm⟩
    · rw [if_neg (by simpa using heq)]
      exact ⟨rfl, rfl, (if_neg heq).symm, (if_neg heq).symm⟩
  | updateAccessToken id access expiry =>
    obtain ⟨c, hc, rfl⟩ := List.mem_map.mp hc'
    refine .inl ⟨c, hc, ?_⟩
    unfold Table.updated
    by_cases heq : c.id = id
    · rw [if_pos (decide_eq_true heq)]
      exact ⟨rfl, rfl, rfl, (if_pos heq).symm⟩
    · rw [if_neg (by simpa using heq)]
      exact ⟨rfl, rfl, rfl, (if_neg heq).symm⟩
  | setNeedsReauth id text => exact .inl (hkept _ _ _ _ hc' fun _ => ⟨rfl, rfl, rfl⟩)
  | setConnectionStatus id st text => exact .inl (hkept _ _ _ _ hc' fun _ => ⟨rfl, rfl, rfl⟩)
  | deleteConnection id tenantID => exact .inl (hkept _ _ _ _ hc' fun _ => ⟨rfl, rfl, rfl⟩)
  | setCatalogDiscovered id => exact .inl (hkept _ _ _ _ hc' fun _ => ⟨rfl, rfl, rfl⟩)
  | markConnectionOnboarded id => exact .inl (hkept _ _ _ _ hc' fun _ => ⟨rfl, rfl, rfl⟩)
  | startRunConnection id => exact .inl (hkept _ _ _ _ hc' fun _ => ⟨rfl, rfl, rfl⟩)
  | setConnectionSettled id st => exact .inl (hkept _ _ _ _ hc' fun _ => ⟨rfl, rfl, rfl⟩)
  | _ => exact .inl (hsame rfl)

/-- **A statement leaves every connection in place**, with its id and its key, and with the
refresh token `refreshTokenOf` says. -/
theorem refreshToken_exec (now : Time) {db : Database} (s : Statement) {c : Connection}
    (hc : c ∈ db.connections.rows) : ∃ c' ∈ (s.exec now db).2.connections.rows,
      c'.id = c.id ∧ c'.key = c.key ∧ c'.refreshToken = s.refreshTokenOf c := by
  obtain ⟨c', hc', hid, hkey⟩ := hasConnection_exec now s ⟨c, hc, rfl, rfl⟩
  refine ⟨c', hc', hid, hkey, ?_⟩
  rcases mem_exec_connections now s hc' with ⟨c₀, hc₀, hid₀, -, hrefresh, -⟩ | ⟨p, -, rfl⟩
  · rw [hrefresh, db.connections.eq_of_id hc₀ hc (hid₀.symm.trans hid)]
  · -- a new row has an id of its own
    exact absurd hid (Nat.ne_of_gt (db.connections.id_lt c hc))

end Hivebook
