import Hivebook.Api.Store

/-!
# The feature flags of a workspace

Which flags there are, and their defaults, is in the code; the row of a tenant has its overrides,
and of those only the ones that differ from the default.  A flag is set by one of two statements,
and read by another one; the personal access tokens of GitHub can be connected only where their
flag is on.

Any number of handlers run side by side.  A flag behaves like a register: a read has what was last
written.  What is not written is a flag of an organization that has no row yet.

## Main definitions

* `listFeatureFlags` — the handler that lists them.
* `effective` — the value of a flag for an organization.
* `flagWrite`, `lastWrite` — what a command writes, and what was last written.
* `FlagsKept` — what is promised of a run.

## Main results

* `effective_after` — what a command makes of a flag.
* `flags_kept` — **a flag is a register, the row has deviations only, and a token is connected only
  where its flag is on.**
-/

namespace Hivebook
namespace Api

open Machine

/-! ### The value of a flag -/

/-- The overrides of an organization, none where it has no row. -/
def overrides (ts : Tenants) (orgID : String) : List (String × Bool) :=
  ((findTenant ts orgID).map Tenant.featureFlags).getD []

/-- The value of a flag for an organization. -/
def effective (ts : Tenants) (orgID key : String) : Bool :=
  featureFlagEnabled (overrides ts orgID) key

/-- The default of a flag, and off for one that is not in the catalog. -/
def flagDefault (key : String) : Bool :=
  ((featureFlagByKey key).map FeatureFlagDef.default).getD false

/-- An override of a flag of the catalog by another value than its default. -/
def Deviates (key : String) (v : Bool) : Prop := ∃ f, featureFlagByKey key = some f ∧ v ≠ f.default

/-- A row has one override for a flag, and those only that make a difference. -/
def Deviations (t : Tenant) : Prop :=
  (t.featureFlags.map Prod.fst).Nodup ∧ ∀ o ∈ t.featureFlags, Deviates o.1 o.2

section Lookup

variable {l : List (String × Bool)} {key k : String}

theorem lookup_filter_of_ne (h : key ≠ k) :
    (l.filter fun f => decide (f.1 ≠ k)).lookup key = l.lookup key := by
  induction l with
  | nil => rfl
  | cons a l ih =>
    obtain ⟨k', v⟩ := a
    by_cases hk : k' = k
    · subst hk
      have hdrop : ((k', v) :: l).filter (fun f => decide (f.1 ≠ k')) =
          l.filter fun f => decide (f.1 ≠ k') := by simp
      rw [hdrop, ih, List.lookup_cons, beq_false_of_ne h]
    · have hkeep : ((k', v) :: l).filter (fun f => decide (f.1 ≠ k)) =
          (k', v) :: l.filter fun f => decide (f.1 ≠ k) := by simp [hk]
      rw [hkeep, List.lookup_cons, List.lookup_cons, ih]

theorem lookup_filter_self : (l.filter fun f => decide (f.1 ≠ k)).lookup k = none := by
  induction l with
  | nil => rfl
  | cons a l ih =>
    obtain ⟨k', v⟩ := a
    by_cases hk : k' = k
    · have hdrop : ((k', v) :: l).filter (fun f => decide (f.1 ≠ k)) =
          l.filter fun f => decide (f.1 ≠ k) := by simp [hk]
      rw [hdrop, ih]
    · have hkeep : ((k', v) :: l).filter (fun f => decide (f.1 ≠ k)) =
          (k', v) :: l.filter fun f => decide (f.1 ≠ k) := by simp [hk]
      have hne : k ≠ k' := fun h => hk h.symm
      rw [hkeep, List.lookup_cons, beq_false_of_ne hne, ih]

/-- An override replaces another one of its flag. -/
theorem enabled_cons (v : Bool) :
    featureFlagEnabled ((k, v) :: l.filter fun f => decide (f.1 ≠ k)) key =
      if key = k then v else featureFlagEnabled l key := by
  unfold featureFlagEnabled
  by_cases hk : key = k
  · simp [hk]
  · rw [if_neg hk, List.lookup_cons, beq_false_of_ne hk, lookup_filter_of_ne hk]

/-- Without an override a flag has its default. -/
theorem enabled_filter :
    featureFlagEnabled (l.filter fun f => decide (f.1 ≠ k)) key =
      if key = k then flagDefault k else featureFlagEnabled l key := by
  unfold featureFlagEnabled
  by_cases hk : key = k
  · subst hk
    rw [lookup_filter_self, if_pos rfl]
    rfl
  · rw [if_neg hk, lookup_filter_of_ne hk]

end Lookup

/-! ### What the statements do to it -/

section Statements

variable {ts : Tenants} {orgID key : String}

theorem findTenant_update {p : Tenant → Bool} {f : Tenant → Tenant} (hid : ∀ r, (f r).id = r.id)
    (hkey : ∀ r, (f r).orgID = r.orgID) :
    findTenant (ts.update p f hid hkey) orgID = (findTenant ts orgID).map (Table.updated p f) := by
  show (ts.rows.map (Table.updated p f)).find? _ = _
  have hsame : (fun t : Tenant => decide (t.orgID = orgID)) ∘ Table.updated p f =
      fun t => decide (t.orgID = orgID) := by
    funext t
    show decide ((Table.updated p f t).orgID = orgID) = decide (t.orgID = orgID)
    unfold Table.updated
    split
    · rw [hkey]
    · rfl
  rw [List.find?_map, hsame]
  rfl

/-- An update of the rows that leaves the flags alone. -/
theorem overrides_update {p : Tenant → Bool} {f : Tenant → Tenant} (hid : ∀ r, (f r).id = r.id)
    (hkey : ∀ r, (f r).orgID = r.orgID) (hf : ∀ r, (f r).featureFlags = r.featureFlags) :
    overrides (ts.update p f hid hkey) orgID = overrides ts orgID := by
  unfold overrides
  rw [findTenant_update hid hkey]
  cases findTenant ts orgID with
  | none => rfl
  | some t =>
    show (Table.updated p f t).featureFlags = t.featureFlags
    unfold Table.updated
    split
    · exact hf t
    · rfl

/-- A new row has no overrides, and an old one keeps them. -/
theorem overrides_upsert {new : ℕ → Tenant} {f : Tenant → Tenant} (hnew : ∀ n, (new n).id = n)
    (hid : ∀ r, (f r).id = r.id) (hkey : ∀ r, (f r).orgID = r.orgID)
    (hflags : ∀ n, (new n).featureFlags = []) (hf : ∀ r, (f r).featureFlags = r.featureFlags) :
    overrides (ts.upsert new f hnew hid hkey) orgID = overrides ts orgID := by
  unfold Table.upsert
  split
  · exact overrides_update hid hkey hf
  · unfold overrides findTenant
    show (((ts.rows ++ [new ts.next]).find? _).map Tenant.featureFlags).getD [] = _
    rw [List.find?_append]
    cases ts.rows.find? fun t => decide (t.orgID = orgID) with
    | some t => rfl
    | none =>
      rw [Option.none_or, List.find?_singleton]
      split
      · exact hflags _
      · rfl

/-- What a statement writes to a flag of an organization. -/
def TenantStatement.writes (orgID key : String) : TenantStatement → Option Bool
  | .setFeatureFlag org k v => if org = orgID ∧ k = key then some v else none
  | .removeFeatureFlag org k => if org = orgID ∧ k = key then some (flagDefault k) else none
  | _ => none

/-- An update of the flags of an organization shows in its row, if it has one. -/
theorem effective_update {org : String} {f : Tenant → Tenant} (hid : ∀ r, (f r).id = r.id)
    (hkey : ∀ r, (f r).orgID = r.orgID) {k : String} {v : Bool}
    (hf : ∀ t, featureFlagEnabled (f t).featureFlags key =
      if key = k then v else featureFlagEnabled t.featureFlags key) :
    effective (ts.update (fun t => decide (t.orgID = org)) f hid hkey) orgID key =
      if (findTenant ts orgID).isSome ∧ org = orgID ∧ k = key then v
      else effective ts orgID key := by
  unfold effective overrides
  rw [findTenant_update hid hkey]
  cases hfind : findTenant ts orgID with
  | none => simp
  | some t =>
    have horg : t.orgID = orgID := by simpa using List.find?_some hfind
    simp only [Option.map_some, Option.getD_some, Option.isSome_some, true_and]
    by_cases hsame : org = orgID
    · have hrow : Table.updated (fun t => decide (t.orgID = org)) f t = f t :=
        if_pos (decide_eq_true (horg.trans hsame.symm))
      rw [hrow, hf]
      simp [hsame, eq_comm]
    · have hrow : Table.updated (fun t => decide (t.orgID = org)) f t = t :=
        if_neg (by simpa [horg] using fun h => hsame h.symm)
      rw [hrow, if_neg fun h => hsame h.1]

/-- **What a statement makes of a flag.** -/
theorem effective_exec (now : Time) (s : TenantStatement) :
    effective (s.exec now ts).2 orgID key =
      if (findTenant ts orgID).isSome then (s.writes orgID key).getD (effective ts orgID key)
      else effective ts orgID key := by
  have hkeep : ∀ ts' : Tenants, overrides ts' orgID = overrides ts orgID →
      effective ts' orgID key = if (findTenant ts orgID).isSome then effective ts orgID key
        else effective ts orgID key := by
    intro ts' h
    unfold effective
    rw [h, ite_self]
  cases s with
  | createTenantIfAbsent org =>
    exact hkeep _ (overrides_upsert (fun _ => rfl) (fun _ => rfl) (fun _ => rfl) (fun _ => rfl)
      fun _ => rfl)
  | completeOnboarding org region p =>
    refine hkeep _ (overrides_upsert (fun _ => rfl) (Tenants.reonboard_id now region p)
      (Tenants.reonboard_orgID now region p) (fun _ => rfl) fun t => ?_)
    unfold Tenants.reonboard
    split <;> rfl
  | updateTenantProfile org p =>
    refine hkeep _ ?_
    exact overrides_update (f := p.write now) (fun _ => rfl) (fun _ => rfl) fun _ => rfl
  | setFeatureFlag org k v =>
    have hset : effective (Tenants.setFeatureFlag now org k v ts) orgID key =
        if (findTenant ts orgID).isSome ∧ org = orgID ∧ k = key then v
        else effective ts orgID key :=
      effective_update _ _ fun t => enabled_cons v
    refine hset.trans ?_
    unfold TenantStatement.writes
    by_cases hrow : (findTenant ts orgID).isSome <;> by_cases hsame : org = orgID ∧ k = key <;>
      simp [hrow, hsame]
  | removeFeatureFlag org k =>
    have hremoved : effective (Tenants.removeFeatureFlag now org k ts) orgID key =
        if (findTenant ts orgID).isSome ∧ org = orgID ∧ k = key then flagDefault k
        else effective ts orgID key :=
      effective_update _ _ fun t => enabled_filter
    refine hremoved.trans ?_
    unfold TenantStatement.writes
    by_cases hrow : (findTenant ts orgID).isSome <;> by_cases hsame : org = orgID ∧ k = key <;>
      simp [hrow, hsame]
  | getTenantByOrg org => exact hkeep _ rfl
  | getFeatureFlags org => exact hkeep _ rfl
  | recordAuditEvent org actorID actorEmail action target => exact hkeep _ rfl

end Statements

/-! ### The handlers, and what they may issue -/

/-- A flag of the catalog under the overrides of a tenant. -/
def FeatureFlagDef.toProto (overrides : List (String × Bool)) (f : FeatureFlagDef) :
    ProtoFeatureFlag :=
  f.valued ((overrides.lookup f.key).getD f.default)

/-- `ListFeatureFlags`. -/
def listFeatureFlags (id : Option Identity) :
    ApiProgram (Except RpcError (List ProtoFeatureFlag)) :=
  authenticated id true fun id => do
    match ← getFeatureFlags id.org with
    | .error _ => return .error ⟨.internal, "feature flags lookup failed"⟩
    | .ok overrides => return .ok (featureFlagCatalog.map (FeatureFlagDef.toProto overrides))

/-- The calls that read or write a flag, and the other statements of the API. -/
inductive FlagCall where
  | list (id : Identity)
  | set (id : Identity) (key : String) (enabled : Bool)
  /-- `ConnectWithToken`, of GitHub by a personal token. -/
  | connect (id : Identity) (token name : String)
  | other (s : {s : TenantStatement // ∀ orgID key, s.writes orgID key = none})

/-- What a call returns. -/
inductive FlagReturn where
  | listed (r : Except RpcError (List ProtoFeatureFlag))
  | set (r : Except RpcError ProtoFeatureFlag)
  | connected (r : Except RpcError Connection)
  | other

/-- The program of a call. -/
def FlagCall.result (d : Deployment) : FlagCall → ApiProgram FlagReturn
  | .list id => (listFeatureFlags (some id)).bind fun r => .pure (.listed r)
  | .set id key enabled => (setFeatureFlag (some id) key enabled).bind fun r => .pure (.set r)
  | .connect id token name =>
      (connectWithToken d (some id) "github_pat" token name).bind fun r => .pure (.connected r)
  | .other s => (tenantStatement s.1).bind fun _ => .pure .other

/-- A call, and what it returns. -/
def FlagCall.prog (d : Deployment) (c : FlagCall) : ApiProgram (FlagCall × FlagReturn) :=
  (c.result d).bind fun r => .pure (c, r)

/-- An override that is written deviates from the default. -/
def FlagSafe : ApiCmd → Prop
  | .tenant (.setFeatureFlag _ key v) => Deviates key v
  | _ => True

section Uses

variable {α : Type} (d : Deployment)

/-- The commands of the integrations service write no flag. -/
theorem onService_flagSafe (p : Program α) : (onService p).Uses FlagSafe := by
  refine Prog.Uses.embed ?_
  induction p with
  | pure a => trivial
  | call c k ih => exact ⟨trivial, ih⟩

theorem recordAudit_flagSafe (id : Identity) (action target : String) :
    (recordAudit id action target).Uses FlagSafe := ⟨trivial, fun _ => trivial⟩

theorem authenticated_flagSafe {id : Identity} {valid : Bool}
    {f : Identity → ApiProgram (Except RpcError α)} (hf : (f id).Uses FlagSafe) :
    (authenticated (some id) valid f).Uses FlagSafe := by
  unfold authenticated
  dsimp only
  split
  · exact hf
  · trivial

theorem getFeatureFlags_flagSafe (orgID : String) : (getFeatureFlags orgID).Uses FlagSafe := by
  refine ⟨trivial, fun r => ?_⟩
  cases r with
  | ok flags => trivial
  | error e => cases e <;> trivial

theorem getOrCreateTenant_flagSafe (orgID : String) : (getOrCreateTenant orgID).Uses FlagSafe := by
  refine ⟨trivial, fun r => ?_⟩
  cases r with
  | error e => trivial
  | ok _ => exact ⟨trivial, fun _ => trivial⟩

theorem listFeatureFlags_flagSafe (id : Identity) : (listFeatureFlags (some id)).Uses FlagSafe := by
  refine authenticated_flagSafe ((getFeatureFlags_flagSafe _).bind fun r => ?_)
  cases r <;> trivial

/-- The default is never stored. -/
theorem storeFlag_flagSafe {key : String} {flag : FeatureFlagDef}
    (hflag : featureFlagByKey key = some flag) (orgID : String) (enabled : Bool) :
    (storeFlag orgID flag enabled).Uses FlagSafe := by
  have hkey : flag.key = key := by simpa using List.find?_some hflag
  unfold storeFlag
  split
  · exact ⟨trivial, fun _ => trivial⟩
  · next hne =>
    refine ⟨⟨flag, ?_, hne⟩, fun _ => trivial⟩
    rw [hkey]
    exact hflag

theorem setFeatureFlag_flagSafe (id : Identity) (key : String) (enabled : Bool) :
    (setFeatureFlag (some id) key enabled).Uses FlagSafe := by
  refine authenticated_flagSafe ?_
  split
  · trivial
  · next flag hflag =>
    refine (storeFlag_flagSafe hflag id.org enabled).bind fun r => ?_
    cases r with
    | error e => trivial
    | ok _ => exact (recordAudit_flagSafe _ _ _).bind fun _ => trivial

theorem connectFlagged_flagSafe (id : Identity) (connectorID token name : String) :
    (connectFlagged d id connectorID token name).Uses FlagSafe := by
  refine (getOrCreateTenant_flagSafe id.org).bind fun r => ?_
  cases r with
  | error e => trivial
  | ok t =>
    dsimp only
    split
    · trivial
    · refine (onService_flagSafe _).bind fun r => ?_
      cases r with
      | error e => trivial
      | ok conn => exact (recordAudit_flagSafe _ _ _).bind fun _ => trivial

theorem connectWithToken_flagSafe (id : Identity) (token name : String) :
    (connectWithToken d (some id) "github_pat" token name).Uses FlagSafe := by
  refine authenticated_flagSafe ?_
  rw [if_pos rfl]
  refine (getFeatureFlags_flagSafe id.org).bind fun r => ?_
  cases r with
  | error e => trivial
  | ok flags =>
    dsimp only
    split
    · exact connectFlagged_flagSafe d _ _ _ _
    · trivial

/-- **No handler stores a default**, or a flag that is not in the catalog. -/
theorem prog_flagSafe (c : FlagCall) : (c.prog d).Uses FlagSafe := by
  refine Prog.Uses.bind ?_ fun _ => trivial
  cases c with
  | list id => exact (listFeatureFlags_flagSafe id).bind fun _ => trivial
  | set id key enabled => exact (setFeatureFlag_flagSafe id key enabled).bind fun _ => trivial
  | connect id token name => exact (connectWithToken_flagSafe d id token name).bind fun _ => trivial
  | other s =>
    obtain ⟨s, hs⟩ := s
    refine ⟨?_, fun _ => trivial⟩
    cases s with
    | setFeatureFlag org key v =>
      have hnone := hs org key
      simp [TenantStatement.writes] at hnone
    | _ => trivial

end Uses

/-! ### Rows with deviations only -/

section Deviations

variable {ts : Tenants} {t : Tenant} {k : String}

theorem Deviations.remove (h : Deviations t) (k : String) (now : Time) :
    Deviations { t with
      featureFlags := t.featureFlags.filter fun f => decide (f.1 ≠ k), updatedAt := now } :=
  ⟨h.1.sublist (List.filter_sublist.map _), fun o ho => h.2 o (List.mem_of_mem_filter ho)⟩

theorem Deviations.set (h : Deviations t) {v : Bool} (hv : Deviates k v) (now : Time) :
    Deviations { t with
      featureFlags := (k, v) :: t.featureFlags.filter fun f => decide (f.1 ≠ k)
      updatedAt := now } := by
  have hrest := h.remove k now
  refine ⟨?_, fun o ho => ?_⟩
  · rw [List.map_cons, List.nodup_cons]
    refine ⟨fun hmem => ?_, hrest.1⟩
    obtain ⟨o, ho, heq⟩ := List.mem_map.mp hmem
    exact of_decide_eq_true (List.mem_filter.mp ho).2 heq
  · rcases List.mem_cons.mp ho with rfl | ho
    · exact hv
    · exact hrest.2 o ho

/-- Rows with deviations only stay so. -/
theorem deviations_exec {s : TenantStatement} (h : ∀ t ∈ ts.rows, Deviations t)
    (hs : FlagSafe (.tenant s)) (now : Time) : ∀ t ∈ (s.exec now ts).2.rows, Deviations t := by
  have hnew : ∀ t : Tenant, t.featureFlags = [] → Deviations t := by
    intro t ht
    rw [Deviations, ht]
    simp
  cases s with
  | createTenantIfAbsent org =>
    dsimp only [TenantStatement.exec, Tenants.createTenantIfAbsent]
    exact Table.forall_upsert h (fun t _ _ ht => ht) (hnew _ rfl)
  | completeOnboarding org region p =>
    refine Table.forall_upsert h (fun t _ _ ht => ?_) (hnew _ rfl)
    unfold Tenants.reonboard
    split
    · exact ht
    · exact ht
  | updateTenantProfile org p =>
    dsimp only [TenantStatement.exec, Tenants.updateTenantProfile]
    exact Table.forall_update h fun t _ _ ht => ht
  | setFeatureFlag org k v =>
    dsimp only [TenantStatement.exec, Tenants.setFeatureFlag]
    exact Table.forall_update h fun t _ _ ht => ht.set hs now
  | removeFeatureFlag org k =>
    dsimp only [TenantStatement.exec, Tenants.removeFeatureFlag]
    exact Table.forall_update h fun t _ _ ht => ht.remove k now
  | getTenantByOrg org => exact h
  | getFeatureFlags org => exact h
  | recordAuditEvent org actorID actorEmail action target => exact h

end Deviations

/-! ### What is written and read -/

/-- The calls that are under way, and those that have returned. -/
abbrev FlagPool := Pool Platform ApiCmd ApiCmd.Resp (FlagCall × FlagReturn)

/-- A call of a pool has returned. -/
def FlagPool.Returned (s : FlagPool) (i : ℕ) (c : FlagCall) (r : FlagReturn) : Prop :=
  ∃ b, s.threads[i]? = some ⟨.pure (c, r), b⟩

/-- What a command writes to a flag of an organization, which needs its row. -/
def flagWrite (orgID key : String) (l : Performed Platform ApiChoice ApiCmd) : Option Bool :=
  if l.choice.service.takesEffect l.cancelled ∧ (findTenant l.state.tenants orgID).isSome then
    match l.cmd with
    | .tenant s => s.writes orgID key
    | _ => none
  else none

/-- What was last written to a flag of an organization. -/
def lastWrite (orgID key : String) (tr : List (ℕ × Performed Platform ApiChoice ApiCmd)) :
    Option Bool :=
  tr.foldl (fun last l => (flagWrite orgID key l.2).or last) none

/-- The value a flag has after a trace: what was last written, or what it was. -/
def flagValue (w : Platform) (orgID key : String)
    (tr : List (ℕ × Performed Platform ApiChoice ApiCmd)) : Bool :=
  (lastWrite orgID key tr).getD (effective w.tenants orgID key)

/-- What is promised of a run. -/
structure FlagsKept (sg : Signer) (w : Platform) (s : FlagPool)
    (tr : List (ℕ × Performed Platform ApiChoice ApiCmd)) : Prop where
  deviations : ∀ t ∈ s.world.tenants.rows, Deviations t
  /-- A flag has what was last written to it, at the end and before every command. -/
  register : ∀ orgID key, effective s.world.tenants orgID key = flagValue w orgID key tr
  read : ∀ orgID key, AtEvery
    (fun pre l => effective l.2.state.tenants orgID key = flagValue w orgID key pre) tr
  listed : ∀ i id flags, s.Returned i (.list id) (.listed (.ok flags)) → ∃ l ∈ byThread i tr,
    flags = featureFlagCatalog.map fun f => f.valued (effective l.state.tenants id.org f.key)
  /-- A flag that is set is answered as it was set; it is written, if the organization has a row,
  and nothing is if it has none. -/
  set : ∀ i id key enabled flag, s.Returned i (.set id key enabled) (.set (.ok flag)) →
    (featureFlagByKey key).map (fun f => f.valued enabled) = some flag ∧
    ∃ l ∈ byThread i tr, if (findTenant l.state.tenants id.org).isSome then
      flagWrite id.org key l = some enabled else (after sg l).tenants = l.state.tenants
  connected : ∀ i id token name c, s.Returned i (.connect id token name) (.connected (.ok c)) →
    ∃ l ∈ byThread i tr, effective l.state.tenants id.org "github_pat" = true

section Runs

variable {sg : Signer} {d : Deployment} {w : Platform} {es : List (PoolEvent FlagCall ApiChoice)}
  {s : FlagPool} {tr : List (ℕ × Performed Platform ApiChoice ApiCmd)}
  {ls : List (Performed Platform ApiChoice ApiCmd)} {orgID key : String}

theorem flagValue_snoc (w : Platform) (l : ℕ × Performed Platform ApiChoice ApiCmd) :
    flagValue w orgID key (tr ++ [l]) =
      (flagWrite orgID key l.2).getD (flagValue w orgID key tr) := by
  unfold flagValue lastWrite
  rw [List.foldl_append, List.foldl_cons, List.foldl_nil]
  cases flagWrite orgID key l.2 <;> rfl

/-- **What a command makes of a flag.** -/
theorem effective_after (sg : Signer) (l : Performed Platform ApiChoice ApiCmd) :
    effective (after sg l).tenants orgID key =
      (flagWrite orgID key l).getD (effective l.state.tenants orgID key) := by
  obtain ⟨w, c, b, x⟩ := l
  unfold flagWrite
  cases c with
  | tenant s =>
    unfold after
    dsimp only
    rw [tenants_perform]
    by_cases htakes : x.service.takesEffect b = true
    · rw [if_pos htakes, effective_exec]
      by_cases hrow : (findTenant w.tenants orgID).isSome = true
      · rw [if_pos hrow, if_pos ⟨htakes, hrow⟩]
      · rw [if_neg hrow, if_neg fun h => hrow h.2]
        rfl
    · rw [if_neg htakes, if_neg fun h => htakes h.1]
      rfl
  | sign tenant region connector => split <;> rfl
  | query => split <;> rfl
  | service c => split <;> rfl

/-- The invariant of the calls side by side. -/
theorem flags_invariant (hw : ∀ t ∈ w.tenants.rows, Deviations t)
    (h : ((platform sg).threads (FlagCall.prog d)).Run ⟨w, []⟩ es s tr) :
    (∀ t ∈ s.world.tenants.rows, Deviations t) ∧
      ∀ orgID key, effective s.world.tenants orgID key = flagValue w orgID key tr ∧ AtEvery
        (fun pre l => effective l.2.state.tenants orgID key = flagValue w orgID key pre) tr := by
  refine threads_invariant_log (J := fun w' tr => (∀ t ∈ w'.tenants.rows, Deviations t) ∧
    ∀ orgID key, effective w'.tenants orgID key = flagValue w orgID key tr ∧ AtEvery
      (fun pre l => effective l.2.state.tenants orgID key = flagValue w orgID key pre) tr) h
    ⟨hw, fun orgID key => ⟨rfl, atEvery_nil⟩⟩ ?_
  rintro s tr i t c k b call - - hlog ⟨hrows, hvalue⟩
  refine ⟨?_, fun orgID key => ?_⟩
  · have hsafe : FlagSafe c := (hlog.uses (prog_flagSafe d call)).1
    cases c with
    | tenant st =>
      rw [tenants_perform]
      split
      · exact deviations_exec hrows hsafe _
      · exact hrows
    | _ => exact hrows
  · obtain ⟨hnow, hbefore⟩ := hvalue orgID key
    refine ⟨?_, atEvery_snoc hbefore hnow⟩
    rw [flagValue_snoc, ← hnow]
    exact effective_after sg ⟨s.world, c, b || t.cancel, t.choice⟩

/-- What a call that has returned has done. -/
theorem log_of_flagReturned {i : ℕ} {c : FlagCall} {r : FlagReturn}
    (h : ((platform sg).threads (FlagCall.prog d)).Run ⟨w, []⟩ es s tr)
    (hret : s.Returned i c r) : Log (platform sg) (c.result d) (byThread i tr) (.pure r) := by
  obtain ⟨b, hth⟩ := hret
  obtain ⟨j, hlog⟩ := (threads_log h).2 i _ hth
  obtain ⟨r', heq, hlog⟩ := hlog.map_returns
  cases heq
  exact hlog

/-- The overrides that are read are those of the row, or none where there is no row. -/
theorem log_getFeatureFlags {flags : List (String × Bool)}
    (h : Log (platform sg) (getFeatureFlags orgID) ls (.pure (.ok flags))) :
    ∃ l, ls = [l] ∧ flags = overrides l.state.tenants orgID := by
  obtain ⟨_, ls₂, r, rfl, hread, hrest⟩ := Log.returns_bind h
  obtain ⟨l, rfl, -, hreply⟩ := log_tenantStatement hread
  refine ⟨l, ?_⟩
  unfold overrides
  cases r with
  | ok flags' =>
    obtain ⟨rfl, heq⟩ := hrest.of_pure
    cases heq
    have hexec := (of_reply_eq_ok hreply).2
    simp only [TenantStatement.exec] at hexec
    cases hfind : findTenant l.state.tenants orgID with
    | none =>
      rw [hfind] at hexec
      cases hexec
    | some t =>
      rw [hfind] at hexec
      cases hexec
      exact ⟨rfl, rfl⟩
  | error e =>
    cases e with
    | noRows =>
      obtain ⟨rfl, heq⟩ := hrest.of_pure
      cases heq
      have hexec := of_reply_eq_noRows hreply
      simp only [TenantStatement.exec] at hexec
      cases hfind : findTenant l.state.tenants orgID with
      | none => exact ⟨rfl, rfl⟩
      | some t =>
        rw [hfind] at hexec
        cases hexec
    | _ => cases hrest.of_pure.2

/-- An update of a row that is not there. -/
theorem update_of_none {ts : Tenants} {f : Tenant → Tenant} (hid : ∀ r, (f r).id = r.id)
    (hkey : ∀ r, (f r).orgID = r.orgID) (h : findTenant ts orgID = none) :
    ts.update (fun t => decide (t.orgID = orgID)) f hid hkey = ts :=
  Table.update_eq_self fun t ht hp => absurd hp (List.find?_eq_none.mp h t ht)

/-- The statement that stores a flag writes it to the row, and nothing where there is none. -/
theorem log_storeFlag {flag : FeatureFlagDef} (hflag : featureFlagByKey key = some flag)
    {enabled : Bool} (h : Log (platform sg) (storeFlag orgID flag enabled) ls (.pure (.ok ()))) :
    ∃ l, ls = [l] ∧ if (findTenant l.state.tenants orgID).isSome then
      flagWrite orgID key l = some enabled else (after sg l).tenants = l.state.tenants := by
  have hkey : flag.key = key := by simpa using List.find?_some hflag
  -- either statement writes the value, and changes the row of the organization only
  have hstatement : ∃ st : TenantStatement, st.writes orgID key = some enabled ∧
      (∀ now (ts : Tenants), findTenant ts orgID = none → (st.exec now ts).2 = ts) ∧
      ∃ l, ls = [l] ∧ l.cmd = .tenant st ∧ l.choice.service.takesEffect l.cancelled = true := by
    unfold storeFlag at h
    split at h
    · next hdefault =>
      obtain ⟨l, hls, hcmd, hreply⟩ := log_tenantStatement h
      refine ⟨.removeFeatureFlag orgID flag.key, ?_, fun now ts hnone => ?_, l, hls, hcmd,
        (of_reply_eq_ok hreply).1⟩
      · simp [TenantStatement.writes, hkey, flagDefault, hflag, hdefault]
      · dsimp only [TenantStatement.exec, Tenants.removeFeatureFlag]
        exact update_of_none _ _ hnone
    · obtain ⟨l, hls, hcmd, hreply⟩ := log_tenantStatement h
      refine ⟨.setFeatureFlag orgID flag.key enabled, ?_, fun now ts hnone => ?_, l, hls, hcmd,
        (of_reply_eq_ok hreply).1⟩
      · simp [TenantStatement.writes, hkey]
      · dsimp only [TenantStatement.exec, Tenants.setFeatureFlag]
        exact update_of_none _ _ hnone
  obtain ⟨st, hwrites, hnone, l, hls, hcmd, htakes⟩ := hstatement
  refine ⟨l, hls, ?_⟩
  split
  · next hrow =>
    unfold flagWrite
    rw [if_pos ⟨htakes, hrow⟩, hcmd]
    exact hwrites
  · next hrow =>
    unfold after
    rw [hcmd, tenants_perform, if_pos htakes]
    exact hnone _ _ (Option.not_isSome_iff_eq_none.mp hrow)

/-- The flags of the catalog under the overrides of a row. -/
theorem toProto_eq (ts : Tenants) (orgID : String) :
    featureFlagCatalog.map (FeatureFlagDef.toProto (overrides ts orgID)) =
      featureFlagCatalog.map fun f => f.valued (effective ts orgID f.key) := by
  have hfound : ∀ f ∈ featureFlagCatalog, featureFlagByKey f.key = some f := by decide +kernel
  refine List.map_congr_left fun f hf => ?_
  unfold FeatureFlagDef.toProto effective featureFlagEnabled
  rw [hfound f hf]
  cases (overrides ts orgID).lookup f.key <;> rfl

theorem log_setFeatureFlag {id : Identity} {enabled : Bool} {f : ProtoFeatureFlag}
    (h : Log (platform sg) (setFeatureFlag (some id) key enabled) ls (.pure (.ok f))) :
    (featureFlagByKey key).map (fun f => f.valued enabled) = some f ∧
    ∃ l ∈ ls, if (findTenant l.state.tenants id.org).isSome then
      flagWrite id.org key l = some enabled else (after sg l).tenants = l.state.tenants := by
  unfold setFeatureFlag authenticated at h
  dsimp only at h
  split at h
  · split at h
    · cases h.of_pure.2
    · next flag hflag =>
      obtain ⟨ls₁, ls₂, r, rfl, hstore, hrest⟩ := Log.returns_bind h
      cases r with
      | error e => cases hrest.of_pure.2
      | ok _ =>
        obtain ⟨l, rfl, hwritten⟩ := log_storeFlag hflag hstore
        obtain ⟨ls₂, ls₃, r, rfl, -, hrest⟩ := Log.returns_bind hrest
        cases hrest.of_pure.2
        rw [hflag]
        exact ⟨rfl, l, List.mem_append_left _ (List.mem_singleton_self _), hwritten⟩
  · cases h.of_pure.2

theorem log_connectWithToken {id : Identity} {token name : String} {c : Connection}
    (h : Log (platform sg) (connectWithToken d (some id) "github_pat" token name) ls
      (.pure (.ok c))) :
    ∃ l ∈ ls, effective l.state.tenants id.org "github_pat" = true := by
  unfold connectWithToken authenticated at h
  dsimp only at h
  split at h
  · rw [if_pos rfl] at h
    obtain ⟨ls₁, ls₂, r, rfl, hflags, hrest⟩ := Log.returns_bind h
    cases r with
    | error e => cases hrest.of_pure.2
    | ok flags =>
      obtain ⟨l, rfl, rfl⟩ := log_getFeatureFlags hflags
      dsimp only at hrest
      split at hrest
      · next henabled =>
        exact ⟨l, List.mem_append_left _ (List.mem_singleton_self _), henabled⟩
      · cases hrest.of_pure.2
  · cases h.of_pure.2

/-- **A flag is a register.**  In every interleaving of the handlers a flag has the value that was
last written to it, at every moment; the rows have deviations from the defaults only; a list shows
the values of one moment; a flag that was set is written, where the organization has a row; and a
personal token is connected only where the flag was on. -/
theorem flags_kept (hw : ∀ t ∈ w.tenants.rows, Deviations t)
    (h : ((platform sg).threads (FlagCall.prog d)).Run ⟨w, []⟩ es s tr) : FlagsKept sg w s tr := by
  obtain ⟨hrows, hvalue⟩ := flags_invariant hw h
  refine ⟨hrows, fun orgID key => (hvalue orgID key).1, fun orgID key => (hvalue orgID key).2,
    fun i id flags hret => ?_, fun i id key enabled f hret => ?_, fun i id token name c hret => ?_⟩
  · obtain ⟨r, heq, hlog⟩ := (log_of_flagReturned h hret).map_returns
    cases heq
    obtain ⟨ls₁, ls₂, r, hls, hflags, hrest⟩ := Log.returns_bind hlog
    cases r with
    | error e => cases hrest.of_pure.2
    | ok overrides =>
      obtain ⟨l, rfl, rfl⟩ := log_getFeatureFlags hflags
      cases hrest.of_pure.2
      rw [hls]
      exact ⟨l, List.mem_append_left _ (List.mem_singleton_self _), toProto_eq _ _⟩
  · obtain ⟨r, heq, hlog⟩ := (log_of_flagReturned h hret).map_returns
    cases heq
    exact log_setFeatureFlag hlog
  · obtain ⟨r, heq, hlog⟩ := (log_of_flagReturned h hret).map_returns
    cases heq
    exact log_connectWithToken hlog

end Runs

/-! ### A flag that is set too early -/

/-- The owner of a workspace. -/
def annOfAcme : Identity := ⟨"ann", "Ann", "ann@acme", "acme"⟩

/-- A call has its next turn, and nothing fails. -/
def flagTurn (i : ℕ) : PoolEvent FlagCall ApiChoice := .turn i (smooth "")

/-- Ann turns the flag on before acme has a row, and again when it has one. -/
def earlyFlag : List (PoolEvent FlagCall ApiChoice) :=
  [.start (.set annOfAcme "github_pat" true), flagTurn 0, flagTurn 0,
    .start (.other ⟨.createTenantIfAbsent "acme", fun _ _ => rfl⟩), flagTurn 1,
    .start (.list annOfAcme), flagTurn 2,
    .start (.set annOfAcme "github_pat" true), flagTurn 3, flagTurn 3]

/-- The flag that was set first is not kept. -/
theorem early_flag_kept : ∃ s tr,
    ((platform sampleSigner).threads (FlagCall.prog sampleDeployment)).Run ⟨newPlatform, []⟩
      earlyFlag s tr ∧
    FlagsKept sampleSigner newPlatform s tr ∧
    flagValue newPlatform "acme" "github_pat" (tr.take 4) = false ∧
    flagValue newPlatform "acme" "github_pat" tr = true := by
  obtain ⟨s, tr, hrun, hend⟩ := Lts.exists_run_of_any
    ((platform sampleSigner).threads (FlagCall.prog sampleDeployment)) ⟨newPlatform, []⟩ earlyFlag
    (fun _ tr => !flagValue newPlatform "acme" "github_pat" (tr.take 4) &&
      flagValue newPlatform "acme" "github_pat" tr) (by decide +kernel)
  simp only [Bool.and_eq_true, Bool.not_eq_true'] at hend
  exact ⟨s, tr, hrun, flags_kept (fun t ht => absurd ht List.not_mem_nil) hrun, hend⟩

end Api
end Hivebook
