import Hivebook.Api.Handlers
import Hivebook.Lib.Threads

/-!
# The store of the API, and the region that is written once

The calls that the handlers make to the database package of the API.  Any number of them run
side by side, for any organizations; a statement is atomic, and everything else may come
between two of them.  Where the data of a tenant lives is decided by the first onboarding that
goes through, and by no other.

## Main definitions

* `StoreErr`, `StoreCall`, `StoreCall.prog` — the calls.
* `tables` — the table at every moment of a run.
* `WrittenOnce` — what is claimed of an organization.

## Main results

* `region_written_once` — **a stored region and the instant of the onboarding never change, the
  onboardings that succeed agree, and one that is refused leaves the table as it was.**
-/

namespace Hivebook
namespace Api

open Machine

/-! ### The calls -/

/-- The errors of the store. -/
inductive StoreErr where
  /-- `ErrRegionImmutable`. -/
  | regionImmutable
  | other (e : Err)
  deriving DecidableEq, Repr

/-- The calls that read or write a tenant. -/
inductive StoreCall where
  | getOrCreateTenant (orgID : String)
  | completeOnboarding (orgID region : String) (p : Profile)
  | updateTenantProfile (orgID : String) (p : Profile)
  deriving DecidableEq, Repr

namespace Store

/-- `GetOrCreateTenant`. -/
def getOrCreateTenant (orgID : String) : ApiProgram (Except StoreErr Tenant) := do
  match ← Api.getOrCreateTenant orgID with
  | .error e => return .error (.other e)
  | .ok t => return .ok t

/-- No row means that the region cannot be changed. -/
def onboarded : Except Err Tenant → Except StoreErr Tenant
  | .error .noRows => .error .regionImmutable
  | .error e => .error (.other e)
  | .ok t => .ok t

/-- `CompleteOnboarding`. -/
def completeOnboarding (orgID region : String) (p : Profile) :
    ApiProgram (Except StoreErr Tenant) := do
  let r ← tenantStatement (.completeOnboarding orgID region p)
  return onboarded r

/-- `UpdateTenantProfile`. -/
def updateTenantProfile (orgID : String) (p : Profile) :
    ApiProgram (Except StoreErr Tenant) := do
  match ← tenantStatement (.updateTenantProfile orgID p) with
  | .error e => return .error (.other e)
  | .ok t => return .ok t

end Store

/-- The program of a call. -/
def StoreCall.result : StoreCall → ApiProgram (Except StoreErr Tenant)
  | .getOrCreateTenant orgID => Store.getOrCreateTenant orgID
  | .completeOnboarding orgID region p => Store.completeOnboarding orgID region p
  | .updateTenantProfile orgID p => Store.updateTenantProfile orgID p

/-- A call, and what it returns. -/
def StoreCall.prog (c : StoreCall) : ApiProgram (StoreCall × Except StoreErr Tenant) :=
  c.result.bind fun r => .pure (c, r)

/-- The calls that are under way, and those that have returned. -/
abbrev StorePool := Pool Platform ApiCmd ApiCmd.Resp (StoreCall × Except StoreErr Tenant)

/-- The calls of a pool that have returned, and what. -/
def StorePool.Returned (s : StorePool) (i : ℕ) (c : StoreCall) (r : Except StoreErr Tenant) :
    Prop :=
  ∃ b, s.threads[i]? = some ⟨.pure (c, r), b⟩

/-! ### What is claimed -/

variable (sg : Signer) (w : Platform)

/-- The table at every moment of a run: at its start, and after every command. -/
def tables (tr : List (ℕ × Performed Platform ApiChoice ApiCmd)) : List Tenants :=
  w.tenants :: tr.map fun a => (after sg a.2).tenants

/-- What a column has for an organization, it has ever after. -/
def NeverChanges {β : Type} (g : Tenant → Option β) (orgID : String) (tss : List Tenants) : Prop :=
  tss.Pairwise fun ts ts' => ∀ v, stored g ts orgID = some v → stored g ts' orgID = some v

/-- The region of an organization is written once. -/
structure WrittenOnce (orgID : String) (s : StorePool)
    (tr : List (ℕ × Performed Platform ApiChoice ApiCmd)) : Prop where
  region : NeverChanges Tenant.region orgID (tables sg w tr)
  onboardedAt : NeverChanges Tenant.onboardedAt orgID (tables sg w tr)
  agreed : ∀ i j r r' p p' t t', s.Returned i (.completeOnboarding orgID r p) (.ok t) →
    s.Returned j (.completeOnboarding orgID r' p') (.ok t') → r = r'
  /-- A call that is refused performs one statement, which leaves every row as it was, and
  another region is stored. -/
  refused : ∀ i region p,
    s.Returned i (.completeOnboarding orgID region p) (.error .regionImmutable) →
    ∃ l, byThread i tr = [l] ∧ (after sg l).tenants = l.state.tenants ∧
      ∃ r, recorded l.state.tenants orgID = some r ∧ r ≠ region

/-! ### Runs -/

variable {sg w} {es : List (PoolEvent StoreCall ApiChoice)} {s : StorePool}
  {tr : List (ℕ × Performed Platform ApiChoice ApiCmd)} {orgID : String}

/-- **A column that is written once never changes in a run**, and what any table of the run has
is there at the end. -/
theorem neverChanges_run {β : Type} {g : Tenant → Option β} (hg : WriteOnce g)
    (h : ((platform sg).threads StoreCall.prog).Run ⟨w, []⟩ es s tr) :
    NeverChanges g orgID (tables sg w tr) ∧
      ∀ ts ∈ tables sg w tr, ∀ v, stored g ts orgID = some v →
        stored g s.world.tenants orgID = some v := by
  refine threads_invariant_log (J := fun w' tr => NeverChanges g orgID (tables sg w tr) ∧
    ∀ ts ∈ tables sg w tr, ∀ v, stored g ts orgID = some v → stored g w'.tenants orgID = some v)
    h ⟨List.pairwise_singleton _ _, by simp [tables]⟩ ?_
  rintro s tr i t c k b j - - - ⟨hpairs, hlast⟩
  have hafter : ∀ ts ∈ tables sg w tr, ∀ v, stored g ts orgID = some v →
      stored g ((platform sg).perform t.choice (b || t.cancel) s.world c).1.tenants orgID =
        some v := by
    intro ts hts v hv
    exact stored_perform hg c (hlast ts hts v hv)
  have htables : tables sg w (tr ++ [(i, ⟨s.world, c, b || t.cancel, t.choice⟩)]) =
      tables sg w tr ++ [((platform sg).perform t.choice (b || t.cancel) s.world c).1.tenants] := by
    simp [tables, after]
  rw [htables]
  constructor
  · refine List.pairwise_append.mpr ⟨hpairs, List.pairwise_singleton _ _, fun ts hts ts' hts' => ?_⟩
    rw [List.mem_singleton.mp hts']
    exact hafter ts hts
  · intro ts hts v hv
    rcases List.mem_append.mp hts with hmem | hmem
    · exact hafter ts hmem v hv
    · rwa [List.mem_singleton.mp hmem] at hv

/-- A statement that was answered has been performed once. -/
theorem log_tenantStatement {q : TenantStatement} {r : Except Err q.Reply}
    {ls : List (Performed Platform ApiChoice ApiCmd)}
    (h : Log (platform sg) (tenantStatement q) ls (.pure r)) :
    ∃ l, ls = [l] ∧ l.cmd = .tenant q ∧ l.choice.service.reply l.cancelled
      (q.exec (l.state.service.now + l.choice.service.elapsed) l.state.tenants).1 = r := by
  rcases Log.of_call h with ⟨-, heq⟩ | ⟨w, b, x, ls', rfl, hrest⟩
  · cases heq
  · obtain ⟨rfl, heq⟩ := hrest.of_pure
    cases heq
    exact ⟨⟨w, .tenant q, b, x⟩, rfl, rfl, rfl⟩

/-- What a call that has returned has done. -/
theorem log_of_returned {i : ℕ} {c : StoreCall} {r : Except StoreErr Tenant}
    (h : ((platform sg).threads StoreCall.prog).Run ⟨w, []⟩ es s tr) (hret : s.Returned i c r) :
    Log (platform sg) c.result (byThread i tr) (.pure r) := by
  obtain ⟨b, hth⟩ := hret
  obtain ⟨j, hlog⟩ := (threads_log h).2 i _ hth
  obtain ⟨r', heq, hlog⟩ := hlog.map_returns
  cases heq
  exact hlog

theorem onboarded_eq_ok {a : Except Err Tenant} {t : Tenant} (h : Store.onboarded a = .ok t) :
    a = .ok t := by
  cases a with
  | ok t' =>
    cases h
    rfl
  | error e => cases e <;> cases h

theorem onboarded_eq_immutable {a : Except Err Tenant}
    (h : Store.onboarded a = .error .regionImmutable) : a = .error .noRows := by
  cases a with
  | ok t => cases h
  | error e => cases e <;> first | rfl | cases h

/-- The one statement of an onboarding that has returned, and its answer. -/
theorem log_completeOnboarding {region : String} {p : Profile} {r : Except StoreErr Tenant}
    {ls : List (Performed Platform ApiChoice ApiCmd)}
    (h : Log (platform sg) (Store.completeOnboarding orgID region p) ls (.pure r)) :
    ∃ l, ls = [l] ∧ l.cmd = .tenant (.completeOnboarding orgID region p) ∧
      r = Store.onboarded (l.choice.service.reply l.cancelled (Tenants.completeOnboarding
        (l.state.service.now + l.choice.service.elapsed) orgID region p l.state.tenants).1) := by
  obtain ⟨answer, rfl, hlog⟩ := h.map_returns
  obtain ⟨l, rfl, hcmd, hreply⟩ := log_tenantStatement hlog
  exact ⟨l, rfl, hcmd, congrArg Store.onboarded hreply.symm⟩

/-- What an onboarding leaves of the table. -/
theorem after_completeOnboarding {l : Performed Platform ApiChoice ApiCmd} {region : String}
    {p : Profile} (hcmd : l.cmd = .tenant (.completeOnboarding orgID region p)) :
    (after sg l).tenants = if l.choice.service.takesEffect l.cancelled then
      (Tenants.completeOnboarding (l.state.service.now + l.choice.service.elapsed) orgID region p
        l.state.tenants).2 else l.state.tenants := by
  unfold after
  rw [hcmd, tenants_perform]
  rfl

/-- **An onboarding that succeeds leaves its region stored.** -/
theorem recorded_of_returned {i : ℕ} {region : String} {p : Profile} {t : Tenant}
    (h : ((platform sg).threads StoreCall.prog).Run ⟨w, []⟩ es s tr)
    (hret : s.Returned i (.completeOnboarding orgID region p) (.ok t)) :
    recorded s.world.tenants orgID = some region := by
  obtain ⟨l, hl, hcmd, hresult⟩ := log_completeOnboarding (log_of_returned h hret)
  obtain ⟨htakes, hanswer⟩ := of_reply_eq_ok (onboarded_eq_ok hresult.symm)
  have hstored : recorded (after sg l).tenants orgID = some region := by
    rw [after_completeOnboarding hcmd, if_pos htakes]
    exact recorded_of_onboarded hanswer
  have hmem : (after sg l).tenants ∈ tables sg w tr := by
    have hl' : l ∈ byThread i tr := hl ▸ List.mem_singleton_self l
    exact List.mem_cons_of_mem _ (List.mem_map_of_mem (mem_of_mem_byThread hl'))
  exact (neverChanges_run writeOnce_region h).2 _ hmem _ hstored

/-- **A stored region and the instant of the onboarding never change, the onboardings that
succeed agree, and one that is refused leaves the table as it was**, whatever the calls do
between one another's statements. -/
theorem region_written_once
    (h : ((platform sg).threads StoreCall.prog).Run ⟨w, []⟩ es s tr) (orgID : String) :
    WrittenOnce sg w orgID s tr where
  region := (neverChanges_run writeOnce_region h).1
  onboardedAt := (neverChanges_run writeOnce_onboardedAt h).1
  agreed i j r r' p p' t t' hi hj := by
    have hr := recorded_of_returned h hi
    have hr' := recorded_of_returned h hj
    exact Option.some.inj (hr.symm.trans hr')
  refused i region p hi := by
    obtain ⟨l, hl, hcmd, hresult⟩ := log_completeOnboarding (log_of_returned h hi)
    have hanswer := of_reply_eq_noRows (onboarded_eq_immutable hresult.symm)
    obtain ⟨hkept, hother⟩ := onboarding_refused hanswer
    refine ⟨l, hl, ?_, hother⟩
    rw [after_completeOnboarding hcmd, hkept, ite_self]

/-! ### Two onboardings at once -/

/-- A call has its next turn, and nothing fails. -/
def storeTurn (i : ℕ) : PoolEvent StoreCall ApiChoice := .turn i (smooth "")

/-- Acme is created, and onboarded twice at once with two regions; the second onboarding comes
first.  Then its profile is changed. -/
def racingRun : List (PoolEvent StoreCall ApiChoice) :=
  [.start (.getOrCreateTenant "acme"), storeTurn 0,
    .start (.completeOnboarding "acme" "eu" ⟨"Acme", "1-10", ["support"], ""⟩),
    .start (.completeOnboarding "acme" "us" ⟨"Acme Inc", "11-50", [], ""⟩),
    storeTurn 2, storeTurn 0, storeTurn 1,
    .start (.updateTenantProfile "acme" ⟨"Acme SE", "51-200", [], "search"⟩), storeTurn 3]

/-- Whether a call has returned what `P` says. -/
def returnedCheck (s : StorePool) (i : ℕ) (P : Except StoreErr Tenant → Bool) : Bool :=
  (s.threads[i]?).any fun th =>
    match th.prog with
    | .pure (_, r) => P r
    | .call _ _ => false

/-- One of two onboardings wins, and the other one is refused. -/
theorem racing_written_once :
    ∃ s tr, ((platform sampleSigner).threads StoreCall.prog).Run ⟨newPlatform, []⟩ racingRun s tr ∧
      (returnedCheck s 2 (fun r => r.toOption.isSome) = true ∧
        returnedCheck s 1 (fun r => decide (r = .error .regionImmutable)) = true ∧
        recorded s.world.tenants "acme" = some "us") ∧
      WrittenOnce sampleSigner newPlatform "acme" s tr := by
  obtain ⟨s, tr, hrun, hend⟩ := Lts.exists_run_of_any
    ((platform sampleSigner).threads StoreCall.prog) ⟨newPlatform, []⟩ racingRun
    (fun s _ => returnedCheck s 2 (fun r => r.toOption.isSome) &&
      returnedCheck s 1 (fun r => decide (r = .error .regionImmutable)) &&
      decide (recorded s.world.tenants "acme" = some "us")) (by decide +kernel)
  simp only [Bool.and_eq_true, decide_eq_true_eq] at hend
  exact ⟨s, tr, hrun, ⟨hend.1.1, hend.1.2, hend.2⟩, region_written_once hrun "acme"⟩

end Api
end Hivebook
