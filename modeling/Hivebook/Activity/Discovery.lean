import Hivebook.Activity.Client

/-!
# Discovery: mark and sweep

`DiscoverUnits` lists the source's units, marks every one it saw with a fresh
generation, and, unless the pass looks degraded, tombstones the units it did not see
and marks their artifacts for erasure after a grace period.
-/

namespace Hivebook

open Connectors

/-- `purgeGraceDays`, as a duration. -/
def purgeGrace : Time := 7 * day

/-- `activity.DiscoverResult`. -/
structure DiscoverResult where
  count : ℕ
  swept : ℕ
  degraded : Bool
  deriving DecidableEq, Repr

/-- The degraded-discovery guard: nothing, or less than half of the live units, was
seen of a connection that had some. -/
def degraded (discovered lastKnownGood : ℕ) : Bool :=
  (decide (discovered = 0) && decide (0 < lastKnownGood)) ||
    (decide (0 < lastKnownGood) && decide (2 * discovered < lastKnownGood))

namespace Activities

variable (a : Activities)

/-- The mark loop: every observed unit is upserted with the generation of the pass. -/
def markUnits (conn : Connection) (generation : ℤ) :
    List SourceUnit → Program (Except Err Unit)
  | [] => return .ok ()
  | u :: us => do
      match ← statement (.upsertSyncUnit conn.id u.id u.name u.kind generation) with
      | .error e => return .error e
      | .ok _ => markUnits conn generation us

/-- The loop of `estimateTotals`; a failed write does not sink the rest. -/
def setTotals (conn : Connection) : List (String × ℤ) → Program Unit
  | [] => return ()
  | (id, total) :: rest => do
      -- the count is stored in 32 bits
      let _ ← statement (.setUnitTotal conn.id id (int32 total))
      setTotals conn rest

/-- `estimateTotals`: best effort. -/
def estimateTotals (conn : Connection) (connector : Connector) (units : List SourceUnit) :
    Program Unit := do
  match ← fetch (connector.estimateTotals units) with
  | .error _ => return ()
  | .ok totals => setTotals conn totals

/-- The degraded branch: no sweep, a warning on the connection. -/
def skipSweep (conn : Connection) (discovered lastKnownGood : ℕ) :
    Program (Except ActivityError DiscoverResult) := do
  let warning := "degraded discovery: saw " ++ toString discovered ++ " of " ++
    toString lastKnownGood ++ " known units — sweep skipped"
  let _ ← statement (.setConnectionStatus conn.id conn.status warning)
  let _ ← statement (.notifyConnectionChanged conn.tenantID)
  return .ok { count := discovered, swept := 0, degraded := true }

/-- The end of a healthy pass: the totals, and the stamp of the catalog. -/
def finishDiscovery (conn : Connection) (connector : Connector) (units : List SourceUnit)
    (swept : ℕ) : Program (Except ActivityError DiscoverResult) := do
  estimateTotals conn connector units
  match ← statement (.setCatalogDiscovered conn.id) with
  | .error e => return .error (.plain e)
  | .ok _ =>
      let _ ← statement (.notifyConnectionChanged conn.tenantID)
      return .ok { count := units.length, swept, degraded := false }

/-- The sweep: unseen units are tombstoned, and if there were any, the artifacts of
removed units are marked with a deadline `purgeGraceDays` ahead. -/
def sweep (conn : Connection) (connector : Connector) (units : List SourceUnit)
    (generation : ℤ) : Program (Except ActivityError DiscoverResult) := do
  match ← statement (.sweepUnseenUnits conn.id generation) with
  | .error e => return .error (.plain e)
  | .ok swept =>
      if 0 < swept then
        let now ← clock
        match ← statement (.markRemovedUnitArtifactsPurgePending conn.id (now + purgeGrace)) with
        | .error e => return .error (.plain e)
        | .ok _ => finishDiscovery conn connector units swept
      else finishDiscovery conn connector units swept

/-- `DiscoverUnits` once the source's units are listed. -/
def reconcile (conn : Connection) (connector : Connector) (lastKnownGood : ℕ) (generation : ℤ)
    (units : List SourceUnit) : Program (Except ActivityError DiscoverResult) := do
  match ← markUnits conn generation units with
  | .error e => return .error (.plain e)
  | .ok _ =>
      if degraded units.length lastKnownGood then skipSweep conn units.length lastKnownGood
      else sweep conn connector units generation

/-- `DiscoverUnits`. -/
def discoverUnits (connectionID : Uuid) : Program (Except ActivityError DiscoverResult) := do
  match ← a.loadConnection connectionID with
  | .error e => return .error (.plain e)
  | .ok (conn, connector) =>
      match ← statement (.countLiveUnits conn.id) with
      | .error e => return .error (.plain e)
      | .ok lastKnownGood =>
          match ← statement (.maxUnitGeneration conn.id) with
          | .error e => return .error (.plain e)
          | .ok maxGen =>
              match ← a.clientFor conn with
              | .error e => return .error (← classify conn "" e)
              | .ok _ =>
                  match ← fetch connector.discoverUnits with
                  | .error e => return .error (← classify conn "" e)
                  | .ok units => reconcile conn connector lastKnownGood (maxGen + 1) units

end Activities

end Hivebook
