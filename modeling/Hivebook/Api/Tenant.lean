import Hivebook.Basic
import Hivebook.Lib.Table

/-!
# The tenants of the API

The API keeps a database of its own, with one row for every organization it has seen.  The
queries of `tenant.sql` are here as functions of the instant `now()` and the table; a `:one`
query that returns no row answers `sql.ErrNoRows`.  The audit trail is left out: it is written,
and never read by what is modelled.

## Main definitions

* `Tenant`, `Tenants` — a row, and the table.
* `TenantStatement`, `TenantStatement.exec` — the statements.
* `stored`, `recorded` — what a column has for an organization; its residency region.
* `WriteOnce` — a column that only an onboarding writes, and only where it is null.

## Main results

* `stored_exec` — **a column that is written once is never changed.**
* `recorded_of_onboarded`, `onboarding_refused` — **an onboarding has its region stored, or has
  changed nothing.**
* `forall_region_exec` — a region in the table comes from an onboarding.
-/

namespace Hivebook
namespace Api

/-- A row of `tenants`. -/
structure Tenant where
  id : Uuid
  orgID : String
  name : Option String
  size : Option String
  region : Option String
  useCases : List String
  useCaseOther : Option String
  onboardedAt : Option Time
  createdAt : Time
  updatedAt : Time
  /-- The overrides, by key. -/
  featureFlags : List (String × Bool)
  deriving DecidableEq, Repr

/-- The table `tenants`, with `zitadel_org_id UNIQUE`. -/
abbrev Tenants := Table Tenant.id Tenant.orgID

/-- The row `CreateTenantIfAbsent` inserts. -/
def Tenant.new (now : Time) (orgID : String) (id : Uuid) : Tenant :=
  { id, orgID, name := none, size := none, region := none, useCases := [], useCaseOther := none,
    onboardedAt := none, createdAt := now, updatedAt := now, featureFlags := [] }

/-- The workspace profile that onboarding and the settings write. -/
structure Profile where
  name : String
  size : String
  useCases : List String
  useCaseOther : String
  deriving DecidableEq, Repr

/-- `NULLIF(…, '')`. -/
def nullIfEmpty (s : String) : Option String := if s = "" then none else some s

/-- The columns of the profile, and `updated_at = now()`. -/
def Profile.write (p : Profile) (now : Time) (t : Tenant) : Tenant :=
  { t with
    name := some p.name, size := some p.size, useCases := p.useCases,
    useCaseOther := nullIfEmpty p.useCaseOther, updatedAt := now }

/-- The row found under an organization. -/
def findTenant (ts : Tenants) (orgID : String) : Option Tenant :=
  ts.rows.find? fun t => decide (t.orgID = orgID)

/-- What a nullable column has for an organization. -/
def stored {β : Type} (g : Tenant → Option β) (ts : Tenants) (orgID : String) : Option β :=
  (findTenant ts orgID).bind g

/-- The residency region recorded for an organization. -/
def recorded (ts : Tenants) (orgID : String) : Option String :=
  (findTenant ts orgID).bind Tenant.region

/-- `sql.ErrNoRows` when a `:one` query finds nothing. -/
def one : Option Tenant → Except Err Tenant
  | some t => .ok t
  | none => .error .noRows

/-! ### `tenant.sql` -/

namespace Tenants

/-- `CreateTenantIfAbsent`. -/
def createTenantIfAbsent (now : Time) (orgID : String) (ts : Tenants) : Tenants :=
  ts.upsert (Tenant.new now orgID) id

/-- `WHERE tenants.region IS NULL OR tenants.region = EXCLUDED.region`. -/
def mayOnboard (region : String) (t : Tenant) : Bool :=
  decide (t.region = none) || decide (t.region = some region)

/-- The row an onboarding writes. -/
def onboard (now : Time) (region : String) (p : Profile) (t : Tenant) : Tenant :=
  { p.write now t with
    region := some (t.region.getD region), onboardedAt := some (t.onboardedAt.getD now) }

/-- What an onboarding leaves of a row that is there. -/
def reonboard (now : Time) (region : String) (p : Profile) (t : Tenant) : Tenant :=
  if mayOnboard region t then onboard now region p t else t

theorem reonboard_id (now : Time) (region : String) (p : Profile) (t : Tenant) :
    (reonboard now region p t).id = t.id := by
  unfold reonboard
  split <;> rfl

theorem reonboard_orgID (now : Time) (region : String) (p : Profile) (t : Tenant) :
    (reonboard now region p t).orgID = t.orgID := by
  unfold reonboard
  split <;> rfl

/-- The region a row has after an onboarding is the one it had, or the one asked for. -/
theorem reonboard_region (now : Time) (region : String) (p : Profile) (t : Tenant) :
    (∀ r, t.region = some r → (reonboard now region p t).region = some r) ∧
      (t.region = none → (reonboard now region p t).region = some region) := by
  unfold reonboard
  by_cases h : mayOnboard region t = true
  · rw [if_pos h]
    refine ⟨fun r hr => ?_, fun hnone => ?_⟩
    · show some (t.region.getD region) = some r
      rw [hr]
      rfl
    · show some (t.region.getD region) = some region
      rw [hnone]
      rfl
  · rw [if_neg h]
    refine ⟨fun r hr => hr, fun hnone => absurd ?_ h⟩
    simp [mayOnboard, hnone]

/-- `CompleteOnboarding`: the region is write-once, and a request for another one changes
nothing and returns no row. -/
def completeOnboarding (now : Time) (orgID region : String) (p : Profile) (ts : Tenants) :
    Except Err Tenant × Tenants :=
  let ts' := ts.upsert (fun id => onboard now region p (Tenant.new now orgID id))
    (reonboard now region p) (by intro; rfl) (reonboard_id now region p)
    (reonboard_orgID now region p)
  (one ((findTenant ts' orgID).filter fun t => decide (t.region = some region)), ts')

/-- `UpdateTenantProfile`: the region is not touched. -/
def updateTenantProfile (now : Time) (orgID : String) (p : Profile) (ts : Tenants) :
    Except Err Tenant × Tenants :=
  let ts' := ts.update (fun t => decide (t.orgID = orgID)) (p.write now)
  (one (findTenant ts' orgID), ts')

/-- `SetFeatureFlag`. -/
def setFeatureFlag (now : Time) (orgID key : String) (enabled : Bool) (ts : Tenants) : Tenants :=
  ts.update (fun t => decide (t.orgID = orgID)) fun t =>
    { t with
      featureFlags := (key, enabled) :: t.featureFlags.filter fun f => decide (f.1 ≠ key)
      updatedAt := now }

/-- `RemoveFeatureFlag`. -/
def removeFeatureFlag (now : Time) (orgID key : String) (ts : Tenants) : Tenants :=
  ts.update (fun t => decide (t.orgID = orgID)) fun t =>
    { t with
      featureFlags := t.featureFlags.filter fun f => decide (f.1 ≠ key)
      updatedAt := now }

end Tenants

/-! ### Statements -/

/-- A statement of the API. -/
inductive TenantStatement where
  | getTenantByOrg (orgID : String)
  | createTenantIfAbsent (orgID : String)
  | completeOnboarding (orgID region : String) (p : Profile)
  | updateTenantProfile (orgID : String) (p : Profile)
  | getFeatureFlags (orgID : String)
  | setFeatureFlag (orgID key : String) (enabled : Bool)
  | removeFeatureFlag (orgID key : String)
  /-- An entry of the audit trail, which changes no modelled table. -/
  | recordAuditEvent (orgID actorID actorEmail action target : String)
  deriving DecidableEq, Repr

/-- What a statement answers when it succeeds. -/
@[reducible] def TenantStatement.Reply : TenantStatement → Type
  | .getTenantByOrg _ | .completeOnboarding _ _ _ | .updateTenantProfile _ _ => Tenant
  | .getFeatureFlags _ => List (String × Bool)
  | _ => Unit

/-- Running a statement at an instant. -/
def TenantStatement.exec (now : Time) (ts : Tenants) :
    (s : TenantStatement) → Except Err s.Reply × Tenants
  | .getTenantByOrg orgID => (one (findTenant ts orgID), ts)
  | .createTenantIfAbsent orgID => (.ok (), Tenants.createTenantIfAbsent now orgID ts)
  | .completeOnboarding orgID region p => Tenants.completeOnboarding now orgID region p ts
  | .updateTenantProfile orgID p => Tenants.updateTenantProfile now orgID p ts
  | .getFeatureFlags orgID =>
      ((match findTenant ts orgID with
        | some t => .ok t.featureFlags
        | none => .error .noRows), ts)
  | .setFeatureFlag orgID key enabled => (.ok (), Tenants.setFeatureFlag now orgID key enabled ts)
  | .removeFeatureFlag orgID key => (.ok (), Tenants.removeFeatureFlag now orgID key ts)
  | .recordAuditEvent _ _ _ _ _ => (.ok (), ts)

/-! ### Columns that are written once -/

variable {β : Type} {g : Tenant → Option β} {ts : Tenants} {orgID : String} {v : β}

theorem stored_eq_some_iff :
    stored g ts orgID = some v ↔ ∃ t ∈ ts.rows, t.orgID = orgID ∧ g t = some v := by
  unfold stored findTenant
  rw [Option.bind_eq_some_iff]
  constructor
  · rintro ⟨t, hfind, hv⟩
    have horg : t.orgID = orgID := by simpa using List.find?_some hfind
    exact ⟨t, List.mem_of_find?_eq_some hfind, horg, hv⟩
  · rintro ⟨t, ht, horg, hv⟩
    have hfound : (ts.rows.find? fun t => decide (t.orgID = orgID)).isSome = true :=
      List.find?_isSome.mpr ⟨t, ht, decide_eq_true horg⟩
    obtain ⟨t', hfind⟩ := Option.isSome_iff_exists.mp hfound
    have horg' : t'.orgID = orgID := by simpa using List.find?_some hfind
    obtain rfl := ts.eq_of_key (List.mem_of_find?_eq_some hfind) ht (horg'.trans horg.symm)
    exact ⟨t', hfind, hv⟩

/-- An update that keeps organization and column keeps what is stored. -/
theorem stored_update {p : Tenant → Bool} {f : Tenant → Tenant} {hid : ∀ r, (f r).id = r.id}
    {hkey : ∀ r, (f r).orgID = r.orgID} (hf : ∀ t, g t = some v → g (f t) = some v)
    (h : stored g ts orgID = some v) : stored g (ts.update p f hid hkey) orgID = some v := by
  obtain ⟨t, ht, horg, hv⟩ := stored_eq_some_iff.mp h
  refine stored_eq_some_iff.mpr ⟨Table.updated p f t, List.mem_map_of_mem ht, ?_⟩
  unfold Table.updated
  split
  · exact ⟨(hkey t).trans horg, hf t hv⟩
  · exact ⟨horg, hv⟩

/-- An upsert that keeps the column of the row it changes keeps what is stored. -/
theorem stored_upsert {new : ℕ → Tenant} {f : Tenant → Tenant} {hnew : ∀ n, (new n).id = n}
    {hid : ∀ r, (f r).id = r.id} {hkey : ∀ r, (f r).orgID = r.orgID}
    (hf : ∀ t, g t = some v → g (f t) = some v) (h : stored g ts orgID = some v) :
    stored g (ts.upsert new f hnew hid hkey) orgID = some v := by
  unfold Table.upsert
  split
  · exact stored_update hf h
  · obtain ⟨t, ht, hboth⟩ := stored_eq_some_iff.mp h
    exact stored_eq_some_iff.mpr ⟨t, List.mem_append.mpr (.inl ht), hboth⟩

/-- A column that only an onboarding writes, and only where it is null. -/
structure WriteOnce (g : Tenant → Option β) : Prop where
  onboard : ∀ now region p t v, g t = some v → g (Tenants.onboard now region p t) = some v
  write : ∀ (p : Profile) now t, g (p.write now t) = g t
  flags : ∀ (t : Tenant) fs now, g { t with featureFlags := fs, updatedAt := now } = g t

theorem WriteOnce.reonboard (hg : WriteOnce g) (now : Time) (region : String) (p : Profile)
    (t : Tenant) (h : g t = some v) : g (Tenants.reonboard now region p t) = some v := by
  unfold Tenants.reonboard
  split
  · exact hg.onboard now region p t v h
  · exact h

theorem writeOnce_region : WriteOnce Tenant.region where
  onboard now region p t v h := by
    show some (t.region.getD region) = some v
    rw [h]
    rfl
  write p now t := rfl
  flags t fs now := rfl

theorem writeOnce_onboardedAt : WriteOnce Tenant.onboardedAt where
  onboard now region p t v h := by
    show some (t.onboardedAt.getD now) = some v
    rw [h]
    rfl
  write p now t := rfl
  flags t fs now := rfl

/-- **A column that is written once is never changed.** -/
theorem stored_exec (hg : WriteOnce g) (now : Time) (s : TenantStatement)
    (h : stored g ts orgID = some v) : stored g (s.exec now ts).2 orgID = some v := by
  cases s with
  | createTenantIfAbsent org =>
    dsimp only [TenantStatement.exec, Tenants.createTenantIfAbsent]
    exact stored_upsert (fun t ht => ht) h
  | completeOnboarding org r p =>
    dsimp only [TenantStatement.exec, Tenants.completeOnboarding]
    exact stored_upsert (hg.reonboard now r p) h
  | updateTenantProfile org p =>
    dsimp only [TenantStatement.exec, Tenants.updateTenantProfile]
    exact stored_update (fun t ht => (hg.write p now t).trans ht) h
  | setFeatureFlag org key enabled =>
    dsimp only [TenantStatement.exec, Tenants.setFeatureFlag]
    exact stored_update (fun t ht => (hg.flags t _ now).trans ht) h
  | removeFeatureFlag org key =>
    dsimp only [TenantStatement.exec, Tenants.removeFeatureFlag]
    exact stored_update (fun t ht => (hg.flags t _ now).trans ht) h
  | getTenantByOrg org => exact h
  | getFeatureFlags org => exact h
  | recordAuditEvent org actorID actorEmail action target => exact h

/-! ### The recorded region -/

variable {region : String}

theorem recorded_eq_some_iff :
    recorded ts orgID = some region ↔ ∃ t ∈ ts.rows, t.orgID = orgID ∧ t.region = some region :=
  stored_eq_some_iff

/-- The region of the row of an organization is the recorded one. -/
theorem recorded_of_getTenantByOrg {t : Tenant} (h : one (findTenant ts orgID) = .ok t) :
    t ∈ ts.rows ∧ recorded ts orgID = t.region := by
  cases hfind : findTenant ts orgID with
  | none =>
    rw [hfind] at h
    cases h
  | some t' =>
    rw [hfind] at h
    cases h
    refine ⟨List.mem_of_find?_eq_some hfind, ?_⟩
    unfold recorded
    rw [hfind]
    rfl

/-! ### What an onboarding answers -/

section Onboarding

variable {now : Time} {p : Profile}

/-- **An onboarding that succeeds has its region stored.** -/
theorem recorded_of_onboarded {t : Tenant}
    (h : (Tenants.completeOnboarding now orgID region p ts).1 = .ok t) :
    recorded (Tenants.completeOnboarding now orgID region p ts).2 orgID = some region := by
  set ts' := (Tenants.completeOnboarding now orgID region p ts).2
  replace h : one ((findTenant ts' orgID).filter fun t => decide (t.region = some region)) =
    .ok t := h
  unfold recorded
  cases hfind : findTenant ts' orgID with
  | none =>
    rw [hfind] at h
    cases h
  | some t' =>
    rw [hfind] at h
    by_cases hregion : t'.region = some region
    · exact hregion
    · rw [Option.filter_some, if_neg (by simpa using hregion)] at h
      cases h

/-- **An onboarding that returns no row has changed nothing**: another region is stored. -/
theorem onboarding_refused {e : Err}
    (h : (Tenants.completeOnboarding now orgID region p ts).1 = .error e) :
    (Tenants.completeOnboarding now orgID region p ts).2 = ts ∧
      ∃ r, recorded ts orgID = some r ∧ r ≠ region := by
  set ts' := (Tenants.completeOnboarding now orgID region p ts).2 with hts'
  replace h : one ((findTenant ts' orgID).filter fun t => decide (t.region = some region)) =
    .error e := h
  -- the region that was asked for is not stored
  have hnot : ∀ t ∈ ts'.rows, t.orgID = orgID → t.region ≠ some region := by
    intro t ht horg hregion
    have hrec : recorded ts' orgID = some region := recorded_eq_some_iff.mpr ⟨t, ht, horg, hregion⟩
    obtain ⟨t', hfind, hregion'⟩ := Option.bind_eq_some_iff.mp hrec
    rw [hfind, Option.filter_some, if_pos (by simpa using hregion')] at h
    cases h
  have hrow : (∃ t ∈ ts.rows, t.orgID = orgID ∧ Tenants.reonboard now region p t ∈ ts'.rows) ∨
      Tenants.onboard now region p (Tenant.new now orgID ts.next) ∈ ts'.rows :=
    @Table.exists_upserted Tenant String Tenant.id Tenant.orgID ts (Tenants.reonboard now region p)
      _ (fun id => Tenants.onboard now region p (Tenant.new now orgID id)) (fun _ => rfl)
      (Tenants.reonboard_id now region p) (Tenants.reonboard_orgID now region p)
  rcases hrow with ⟨t, ht, horg, hmem⟩ | hmem
  · have hno := hnot _ hmem ((Tenants.reonboard_orgID now region p t).trans horg)
    obtain ⟨hkept, hnew⟩ := Tenants.reonboard_region now region p t
    cases hregion : t.region with
    | none => exact absurd (hnew hregion) hno
    | some r =>
      have hne : r ≠ region := by
        rintro rfl
        exact hno (hkept r hregion)
      refine ⟨?_, r, recorded_eq_some_iff.mpr ⟨t, ht, horg, hregion⟩, hne⟩
      rw [hts']
      dsimp only [Tenants.completeOnboarding]
      refine Table.upsert_eq_self ht horg ?_
      unfold Tenants.reonboard
      rw [if_neg]
      simp [Tenants.mayOnboard, hregion, hne]
  · exact absurd rfl (hnot _ hmem rfl)

end Onboarding

/-- The region a statement may record. -/
def TenantStatement.records : TenantStatement → String → Prop
  | .completeOnboarding _ region _, r => r = region
  | _, _ => False

/-- **A region in the table comes from an onboarding.** -/
theorem forall_region_exec {P : String → Prop} (now : Time) (s : TenantStatement)
    (h : ∀ t ∈ ts.rows, ∀ r, t.region = some r → P r) (hs : ∀ r, s.records r → P r) :
    ∀ t ∈ (s.exec now ts).2.rows, ∀ r, t.region = some r → P r := by
  cases s with
  | createTenantIfAbsent org =>
    dsimp only [TenantStatement.exec, Tenants.createTenantIfAbsent]
    exact Table.forall_upsert h (fun t ht _ hP => hP) (by simp [Tenant.new])
  | completeOnboarding org region p =>
    dsimp only [TenantStatement.exec, Tenants.completeOnboarding]
    have hregion : P region := hs region rfl
    refine Table.forall_upsert h (fun t ht _ hP => ?_) ?_
    · intro r hr
      obtain ⟨hkept, hnew⟩ := Tenants.reonboard_region now region p t
      cases htr : t.region with
      | none =>
        rw [hnew htr] at hr
        cases hr
        exact hregion
      | some r' =>
        rw [hkept r' htr] at hr
        cases hr
        exact hP r htr
    · rintro r hr
      cases hr
      exact hregion
  | updateTenantProfile org p =>
    dsimp only [TenantStatement.exec, Tenants.updateTenantProfile]
    exact Table.forall_update h fun t ht _ hP => hP
  | setFeatureFlag org key enabled =>
    dsimp only [TenantStatement.exec, Tenants.setFeatureFlag]
    exact Table.forall_update h fun t ht _ hP => hP
  | removeFeatureFlag org key =>
    dsimp only [TenantStatement.exec, Tenants.removeFeatureFlag]
    exact Table.forall_update h fun t ht _ hP => hP
  | getTenantByOrg org => exact h
  | getFeatureFlags org => exact h
  | recordAuditEvent org actorID actorEmail action target => exact h

end Api
end Hivebook
