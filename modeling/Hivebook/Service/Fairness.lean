import Mathlib.Algebra.Order.BigOperators.Group.List
import Mathlib.Algebra.Order.Group.Nat
import Mathlib.Algebra.Ring.Int.Defs
import Hivebook.Lib.Threads
import Hivebook.Service.Discovery
import Hivebook.Service.Limiter

/-!
# The slots of a tenant

`Capacity` reads the bucket of the tenant to size a batch, and nothing ever takes a slot of it: a
`SyncUnit` acquires the bucket of its own connection only.  So the slots that the executions of a
tenant hold at one time are bounded by what its connections may hold one by one, and by nothing
else.

The executions of a connection hold no more slots than there are executions under way, and no more
than its bucket lends.  The cap of the tenant holds as long as these add up to no more than it.

## Main definitions

* `TenantJob`, `TenantJob.prog` — capacity reads and drains, of any connections.
* `single` — the protocol of an execution that takes one slot of the connection it has loaded.
* `underWay`, `lent`, `mayHold` — the executions of a connection that are under way, what its
  bucket lends, and the most slots they can hold between them.
* `tenantHolders`, `capFits` — the slots held for a tenant, and the condition on an acquire.

## Main results

* `TenantJob.follows_single` — **an execution takes one slot at a time, of the connection it has
  loaded.**
* `holders_le_underWay` — whoever holds a slot is under way.
* `tenant_cap_kept` — **if what the connections of a tenant may hold fits into its cap whenever a
  slot is taken, the cap holds in every interleaving.**
* `tenant_cap_exceeded` — five accounts of one tenant hold more slots than it may have.
-/

namespace Hivebook

open Connectors Admission Machine Database

/-! ### The jobs -/

/-- The work of the connections of a tenant. -/
inductive TenantJob where
  | capacity (connectionID : Uuid) (tenantID connectorID : String)
  | syncUnit (i : SyncInput)
  deriving DecidableEq, Repr

/-- The program of a job. -/
def TenantJob.prog (a : Activities) : TenantJob → Program Unit
  | .capacity id tenantID connectorID => (a.capacity id tenantID connectorID).bind fun _ => .pure ()
  | .syncUnit i => (a.syncUnit i).bind fun _ => .pure ()

/-! ### The limit of a tenant -/

/-- The command leaves the limits of tenants alone: it seeds their buckets with the cap, and raises
and halves the limits of connections only. -/
def Cmd.sparesTenants : Cmd → Prop
  | .statement (.seedAdmissionBucket (.tenant _) _ limit) => limit = int32 (max tenantInflightCap 1)
  | .statement (.admissionAdditiveIncrease k _)
  | .statement (.admissionMultiplicativeDecrease k _) => ∃ id, k = .credential id
  | _ => True

section SyncUnit

variable (a : Activities) (i : SyncInput)

/-- A program that touches tokens spares the tenants. -/
theorem TouchesTokens.sparesTenants {α : Type} {p : Program α} (h : TouchesTokens p) :
    p.Uses Cmd.sparesTenants := by
  refine h.mono fun c hc => ?_
  cases c with
  | statement s => cases s <;> trivial
  | _ => trivial

theorem sparesTenants_classify (conn : Connection) (unitID : String) (err : Err) :
    (Activities.classify conn unitID err).Uses Cmd.sparesTenants := by
  unfold Activities.classify
  split
  · exact ⟨trivial, fun _ => ⟨trivial, fun _ => trivial⟩⟩
  · trivial
  · refine Prog.Uses.bind ?_ fun _ => trivial
    unfold Activities.armBackoff
    split
    · trivial
    · exact ⟨trivial, fun _ => ⟨trivial, fun _ => ⟨trivial, fun _ => trivial⟩⟩⟩

theorem sparesTenants_noteProgress (written : ℕ) :
    (Activities.noteProgress i written).Uses Cmd.sparesTenants := by
  unfold Activities.noteProgress
  split
  · exact ⟨trivial, fun _ => trivial⟩
  · trivial

theorem sparesTenants_emitChanged (conn : Connection) (art : Artifact) (hash : String)
    (st : EmitState) : (a.emitChanged i conn art hash st).Uses Cmd.sparesTenants := by
  refine ⟨trivial, fun r => ?_⟩
  cases r with
  | error e => trivial
  | ok _ =>
    refine ⟨trivial, fun r => ?_⟩
    cases r with
    | error e => trivial
    | ok _ => exact (sparesTenants_noteProgress i _).bind fun _ => Prog.uses_pure _ _

theorem sparesTenants_makeEmit (conn : Connection) (art : Artifact) (st : EmitState) :
    (a.makeEmit i conn art st).Uses Cmd.sparesTenants := by
  refine ⟨trivial, fun b => ?_⟩
  show Prog.Uses _ (if b = true then _ else _)
  split
  · trivial
  · refine ⟨trivial, fun r => ?_⟩
    dsimp only [Prog.pure_bind]
    split
    · split
      · unfold Activities.emitUnchanged
        split
        · exact ⟨trivial, fun _ => trivial⟩
        · trivial
      · exact sparesTenants_emitChanged a i conn art _ st
    · exact sparesTenants_emitChanged a i conn art _ st
    · trivial

theorem sparesTenants_finishUnit (conn : Connection) (connector : Connector)
    (result : Except Err Bool) (written : ℕ) :
    (Activities.finishUnit i conn connector result written).Uses Cmd.sparesTenants := by
  refine Prog.Uses.bind ?_ fun _ => ⟨trivial, fun b => ?_⟩
  · unfold Activities.flushProgress
    split
    · exact ⟨trivial, fun _ => trivial⟩
    · trivial
  · show Prog.Uses _ (if b = true then _ else _)
    split
    · trivial
    · cases result with
      | error e =>
        refine Prog.Uses.bind ?_ fun _ =>
          (sparesTenants_classify conn i.unitID e).bind fun _ => trivial
        unfold Activities.throttleFeedback
        split
        · refine Prog.Uses.bind ?_ fun _ => trivial
          unfold Admission.recordThrottle
          split
          · exact ⟨trivial, fun _ => ⟨⟨_, rfl⟩, fun _ => trivial⟩⟩
          · exact ⟨⟨_, rfl⟩, fun _ => trivial⟩
        · trivial
      | ok done =>
        refine Prog.Uses.bind ⟨⟨_, rfl⟩, fun _ => trivial⟩ fun _ => ?_
        cases done with
        | false => trivial
        | true =>
          refine ⟨trivial, fun r => ?_⟩
          cases r with
          | error e => trivial
          | ok _ =>
            refine ⟨trivial, fun r => ?_⟩
            cases r with
            | error e => trivial
            | ok _ => exact ⟨trivial, fun _ => ⟨trivial, fun _ => trivial⟩⟩

theorem sparesTenants_admitted (conn : Connection) (connector : Connector) (unit : SyncUnit) :
    (a.admitted i conn connector unit).Uses Cmd.sparesTenants := by
  refine Prog.Uses.bind ?_ fun r => ?_
  · refine ⟨trivial, fun r => ?_⟩
    cases r with
    | error e => trivial
    | ok _ =>
      refine ⟨trivial, fun r => ?_⟩
      dsimp only [Prog.pure_bind]
      split <;> trivial
  · split
    · trivial
    · trivial
    · refine Prog.Uses.bind (Prog.Uses.bind (Prog.Uses.handle ?_ _ _) fun r => ?_) fun _ =>
        ⟨trivial, fun _ => trivial⟩
      · intro c st
        cases c with
        | fetch c => cases c <;> exact ⟨trivial, fun _ => trivial⟩
        | emit art => exact sparesTenants_makeEmit a i _ art st
      · exact sparesTenants_finishUnit i conn connector _ _

theorem sparesTenants_syncUnit : (a.syncUnit i).Uses Cmd.sparesTenants := by
  refine (a.touchesTokens_loadConnection i.connectionID).sparesTenants.bind fun r => ?_
  split
  · trivial
  · rename_i conn connector
    refine ⟨trivial, fun r => ?_⟩
    cases r with
    | error e => trivial
    | ok unit =>
      refine ⟨trivial, fun r => ?_⟩
      cases r with
      | error e => trivial
      | ok _ =>
        refine ⟨trivial, fun _ => (a.touchesTokens_clientFor conn).sparesTenants.bind fun r => ?_⟩
        cases r with
        | error e => exact (sparesTenants_classify conn i.unitID e).bind fun _ => Prog.uses_pure _ _
        | ok _ => exact sparesTenants_admitted a i conn connector unit

/-- A capacity read seeds the bucket of its tenant. -/
theorem sparesTenants_capacity (id : Uuid) (tenantID connectorID : String) :
    (a.capacity id tenantID connectorID).Uses Cmd.sparesTenants := by
  have hlimit : ∀ k, (currentLimit k).Uses Cmd.sparesTenants := by
    intro k
    refine ⟨trivial, fun r => ?_⟩
    cases r with
    | ok n => trivial
    | error e => cases e <;> trivial
  unfold Activities.capacity
  split
  · trivial
  · refine (hlimit _).bind fun r => ?_
    cases r with
    | error e => trivial
    | ok limit =>
      refine ⟨rfl, fun r => ?_⟩
      cases r with
      | error e => trivial
      | ok _ =>
        refine (hlimit _).bind fun r => ?_
        cases r <;> trivial

/-- **No job changes the limit of a tenant.** -/
theorem TenantJob.sparesTenants (j : TenantJob) : (j.prog a).Uses Cmd.sparesTenants := by
  cases j with
  | capacity id tenantID connectorID =>
    exact (sparesTenants_capacity a id tenantID connectorID).bind fun _ => trivial
  | syncUnit i => exact (sparesTenants_syncUnit a i).bind fun _ => trivial

/-! ### One slot at a time -/

/-- An execution takes one slot of the bucket of a connection, and has loaded the connection
before. -/
def single (id : Uuid) : Protocol (Bool × ℕ) Cmd Cmd.Resp where
  allowed g c := c = .statement (.acquireAdmission (.credential id)) → g = (true, 0)
  next g c r := (g.1 || decide (c = .statement (.getConnectionByID id)),
    (slots (.credential id)).next g.2 c r)

/-- A program that neither takes nor gives back a slot may be put before the acquire. -/
theorem follows_single_slotFree {α : Type} {p : Program α} (id : Uuid)
    (hp : p.Uses fun c => c.slotFree = true) :
    p.Follows (single id) (fun _ g => g = (true, 0)) (true, 0) := by
  refine Prog.follows_of_uses (I := fun g => g = (true, 0)) (hp.mono fun c hc g hg => ?_) rfl
  subst hg
  refine ⟨fun _ => rfl, fun r => ?_⟩
  exact congrArg (Prod.mk true) (slots_next_slotFree _ hc 0 r)

/-- A program that acquires no slot of the connection may be put anywhere. -/
theorem follows_single_of_uses {α : Type} {p : Program α} {id : Uuid} (g : Bool × ℕ)
    (hp : p.Uses fun c => c ≠ .statement (.acquireAdmission (.credential id))) :
    p.Follows (single id) (fun _ _ => True) g :=
  Prog.follows_of_uses (hp.mono fun _ hc _ _ =>
    ⟨fun heq => absurd heq hc, fun _ => trivial⟩) trivial

theorem ne_acquire_of_slotFree {c : Cmd} (h : c.slotFree = true) (k : Scope) :
    c ≠ .statement (.acquireAdmission k) := by
  rintro rfl
  cases h

/-- An execution of another connection acquires nothing of this one. -/
theorem ne_acquire_admitted {id : Uuid} (hid : i.connectionID ≠ id) (conn : Connection)
    (connector : Connector) (unit : SyncUnit) : (a.admitted i conn connector unit).Uses fun c =>
      c ≠ .statement (.acquireAdmission (.credential id)) := by
  refine Prog.Uses.bind ?_ fun r => ?_
  · refine ⟨by simp, fun r => ?_⟩
    cases r with
    | error e => trivial
    | ok _ =>
      refine ⟨by simpa using hid, fun r => ?_⟩
      dsimp only [Prog.pure_bind]
      split <;> trivial
  · split
    · trivial
    · trivial
    · refine Prog.Uses.bind ((slotFree_drainUnit a i conn connector unit).mono fun c hc =>
        ne_acquire_of_slotFree hc _) fun _ => ⟨by simp, fun _ => trivial⟩

/-- What follows the acquire acquires nothing more. -/
theorem follows_single_admitted (conn : Connection) (connector : Connector) (unit : SyncUnit) :
    (a.admitted i conn connector unit).Follows (single i.connectionID) (fun _ _ => True)
      (true, 0) := by
  refine Prog.Follows.bind (R := fun _ _ => True) ?_ fun r g _ => ?_
  · refine ⟨fun _ => rfl, fun r => ?_⟩
    cases r with
    | error e => trivial
    | ok _ =>
      refine ⟨fun _ => rfl, fun r => ?_⟩
      dsimp only [Prog.pure_bind]
      split <;> trivial
  · split
    · trivial
    · trivial
    · refine follows_single_of_uses g (Prog.Uses.bind
        ((slotFree_drainUnit a i conn connector unit).mono fun c hc =>
          ne_acquire_of_slotFree hc _) fun _ => ⟨by simp, fun _ => trivial⟩)

/-- The rest of an execution that has loaded its connection. -/
theorem follows_single_syncUnit (id : Uuid) :
    (a.syncUnit i).Follows (single id) (fun _ _ => True) (false, 0) := by
  have hplain : ∀ {α : Type} {p : Program α}, Plain p → p.Uses fun c => c.slotFree = true :=
    fun hp => hp.mono fun _ hc => slotFree_of_plain hc
  by_cases hid : i.connectionID = id
  · subst hid
    -- the first command loads the connection
    refine Prog.Follows.bind (R := fun _ g => g = (true, 0)) ?_ fun r g hg => ?_
    · refine ⟨fun h => (by cases h), fun r => ?_⟩
      have hnext : (single i.connectionID).next (false, 0)
          (.statement (.getConnectionByID i.connectionID)) r = (true, 0) := by
        simp [single, slots]
      rw [hnext]
      cases r with
      | error e => rfl
      | ok conn =>
        dsimp only [Prog.pure_bind]
        split <;> rfl
    · subst hg
      split
      · trivial
      · rename_i conn connector
        refine (follows_single_slotFree _ (hplain (plain_statement rfl))).bind fun r g hg => ?_
        subst hg
        split
        · trivial
        · refine (follows_single_slotFree _ (hplain (plain_statement rfl))).bind fun r g hg => ?_
          subst hg
          split
          · trivial
          · refine (follows_single_slotFree _ (hplain (plain_statement rfl))).bind fun _ g hg => ?_
            subst hg
            refine (follows_single_slotFree _
              (hplain (a.touchesTokens_clientFor conn).steady.plain)).bind fun r g hg => ?_
            subst hg
            split
            · refine (follows_single_slotFree _ (hplain ?_)).mono fun _ _ _ => trivial
              exact (Activities.steady_classify _ _ _).plain.bind fun _ => plain_pure _
            · exact follows_single_admitted a i conn connector _
  · have hspares : ∀ {α : Type} {p : Program α}, Plain p →
        p.Uses fun c => c ≠ .statement (.acquireAdmission (.credential id)) :=
      fun hp => (hplain hp).mono fun _ hc => ne_acquire_of_slotFree hc _
    refine follows_single_of_uses _
      ((hspares (a.touchesTokens_loadConnection i.connectionID).steady.plain).bind fun r => ?_)
    split
    · trivial
    · rename_i conn connector
      refine (hspares (plain_statement rfl)).bind fun r => ?_
      split
      · trivial
      · refine (hspares (plain_statement rfl)).bind fun r => ?_
        split
        · trivial
        · refine (hspares (plain_statement rfl)).bind fun _ =>
            (hspares (a.touchesTokens_clientFor conn).steady.plain).bind fun r => ?_
          split
          · exact hspares ((Activities.steady_classify _ _ _).plain.bind fun _ => plain_pure _)
          · exact ne_acquire_admitted a i hid conn connector _

/-- **An execution takes one slot at a time, of the connection it has loaded.** -/
theorem TenantJob.follows_single (id : Uuid) (j : TenantJob) :
    (j.prog a).Follows (single id) (fun _ _ => True) (false, 0) := by
  cases j with
  | capacity id' tenantID connectorID =>
    refine follows_single_of_uses _ (((a.steady_capacity id' tenantID connectorID).plain.bind
      fun _ => plain_pure _).mono fun c hc => ne_acquire_of_slotFree (slotFree_of_plain hc) _)
  | syncUnit i => exact (follows_single_syncUnit a i id).bind fun _ _ _ => trivial

/-- A job gives back the slots it knows it has taken. -/
theorem TenantJob.follows_slots (k : Scope) (j : TenantJob) :
    (j.prog a).Follows (slots k) (fun _ m => m = 0) 0 := by
  cases j with
  | capacity id tenantID connectorID =>
    exact ((a.steady_capacity id tenantID connectorID).plain.bind fun _ =>
      plain_pure _).follows_slots k 0
  | syncUnit i => exact (Hivebook.follows_slots a k i).bind fun _ _ hm => hm

end SyncUnit

/-- What an execution owes at any point: one slot at most, and of a connection it has loaded. -/
def Owes (g : Bool × ℕ) : Prop := g.2 ≤ 1 ∧ (0 < g.2 → g.1 = true)

theorem Owes.next {id : Uuid} {g : Bool × ℕ} {c : Cmd} (h : Owes g)
    (hallowed : (single id).allowed g c) (r : c.Resp) : Owes ((single id).next g c r) := by
  obtain ⟨hone, hloaded⟩ := h
  have hkept : 0 < g.2 → (g.1 || decide (c = .statement (.getConnectionByID id))) = true := by
    intro hpos
    rw [hloaded hpos, Bool.true_or]
  by_cases hfree : c.slotFree = true
  · have hsame : (slots (.credential id)).next g.2 c r = g.2 := slots_next_slotFree _ hfree _ _
    exact ⟨hsame.trans_le hone, fun hpos => hkept (hpos.trans_eq hsame)⟩
  · cases c with
    | statement s =>
      cases s with
      | acquireAdmission k' =>
        by_cases hk : k' = .credential id
        · subst hk
          obtain rfl := hallowed rfl
          cases r with
          | error e => exact ⟨Nat.zero_le _, fun _ => rfl⟩
          | ok n => exact ⟨by simp [single, slots], fun _ => rfl⟩
        · have hsame : (slots (.credential id)).next g.2 (.statement (.acquireAdmission k')) r =
              g.2 := by
            cases r with
            | error e => rfl
            | ok n => exact if_neg hk
          exact ⟨hsame.trans_le hone, fun hpos => hkept (hpos.trans_eq hsame)⟩
      | releaseAdmission k' =>
        have hle : (slots (.credential id)).next g.2 (.statement (.releaseAdmission k')) r ≤
            g.2 := by
          show (if k' = .credential id then g.2 - 1 else g.2) ≤ g.2
          split <;> omega
        exact ⟨hle.trans hone, fun hpos => hkept (hpos.trans_le hle)⟩
      | _ => exact absurd rfl hfree
    | _ => exact absurd rfl hfree

/-- The command loads the connection. -/
def loads (id : Uuid) (l : Performed World Choice Cmd) : Bool :=
  decide (l.cmd = .statement (.getConnectionByID id))

/-- Where the commands of an execution have led: whether it has loaded the connection, and the
slots it owes. -/
theorem single_after (id : Uuid) (ls : List (Performed World Choice Cmd)) :
    (single id).after service (false, 0) ls =
      (ls.any (loads id), (slots (.credential id)).after service 0 ls) := by
  induction ls using List.reverseRecOn with
  | nil => rfl
  | append_singleton ls l ih =>
    rw [Protocol.after_snoc, Protocol.after_snoc, ih, List.any_append]
    simp [single, loads]

theorem owes_of_log {id : Uuid} {p q : Program Unit} {ls : List (Performed World Choice Cmd)}
    (hp : p.Follows (single id) (fun _ _ => True) (false, 0)) (h : Log service p ls q) :
    Owes (ls.any (loads id), (slots (.credential id)).after service 0 ls) := by
  rw [← single_after]
  induction h with
  | nil => exact ⟨Nat.zero_le _, fun hpos => absurd hpos (Nat.lt_irrefl 0)⟩
  | snoc w b x hlog ih =>
    rw [Protocol.after_snoc]
    exact ih.next (hlog.follows hp).1 _

/-! ### The account -/

section Account

variable {a : Activities} {w : World} {es : List (PoolEvent TenantJob Choice)}
  {s : Pool World Cmd Cmd.Resp Unit} {tr : List (ℕ × Performed World Choice Cmd)}
  {C : Pool World Cmd Cmd.Resp Unit → List (ℕ × Performed World Choice Cmd) →
    PoolEvent TenantJob Choice → Prop}

/-- A statement that spares tenants leaves the limit of a tenant's bucket alone. -/
theorem limit_onBucket_tenant {st : Statement} {tenantID : String} {now : Time}
    {row : Option AdmissionBucket} (hc : (Cmd.statement st).sparesTenants)
    (hrow : ∀ b ∈ row, b.concurrencyLimit = tenantInflightCap) :
    ∀ b ∈ st.onBucket now (.tenant tenantID) row, b.concurrencyLimit = tenantInflightCap := by
  intro b hb
  by_cases hscope : st.scope = some (.tenant tenantID)
  swap
  · rw [Statement.onBucket_of_scope hscope] at hb
    exact hrow b hb
  cases st with
  | seedAdmissionBucket k' connectorID limit =>
    cases Option.some.inj hscope
    rw [Statement.onBucket, if_pos rfl] at hb
    cases hb
    cases row with
    | none => exact hc.trans (int32_of_lt (by decide) (by decide))
    | some b => exact hrow b rfl
  | acquireAdmission k' =>
    rw [Statement.onBucket, if_pos (Option.some.inj hscope)] at hb
    obtain ⟨b₀, hb₀, rfl⟩ := Option.mem_map.mp hb
    have hold := hrow b₀ hb₀
    split <;> exact hold
  | releaseAdmission k' =>
    rw [Statement.onBucket, if_pos (Option.some.inj hscope)] at hb
    obtain ⟨b₀, hb₀, rfl⟩ := Option.mem_map.mp hb
    exact hrow b₀ hb₀
  -- the limit is moved in the buckets of credentials only
  | admissionAdditiveIncrease k' maxLimit =>
    obtain ⟨id, hk⟩ := hc
    exact Scope.noConfusion (hk.symm.trans (Option.some.inj hscope))
  | admissionMultiplicativeDecrease k' cooldownUntil =>
    obtain ⟨id, hk⟩ := hc
    exact Scope.noConfusion (hk.symm.trans (Option.some.inj hscope))
  | _ => cases hscope

/-- Nothing changes the limit of a tenant. -/
theorem tenant_limit_kept {tenantID : String}
    (hw : ∀ b ∈ w.db.buckets (.tenant tenantID), b.concurrencyLimit = tenantInflightCap)
    (h : (service.threads (TenantJob.prog a)).RunWhere C ⟨w, []⟩ es s tr) :
    ∀ b ∈ s.world.db.buckets (.tenant tenantID), b.concurrencyLimit = tenantInflightCap := by
  refine threads_invariant_log (J := fun (w' : World) _ =>
    ∀ b ∈ w'.db.buckets (.tenant tenantID), b.concurrencyLimit = tenantInflightCap) h hw ?_
  intro s tr i t c k b j _ _ hlog hJ row hrow
  have hspares := (hlog.uses (TenantJob.sparesTenants a j)).1
  rw [buckets_perform] at hrow
  cases c with
  | statement st =>
    by_cases hx : t.choice.takesEffect (b || t.cancel) = true
    · rw [bucketAfter, if_pos hx] at hrow
      exact limit_onBucket_tenant hspares hJ row hrow
    · rw [bucketAfter, if_neg hx] at hrow
      exact hJ row hrow
  | _ => exact hJ row hrow

/-- The slots that are held are those the threads owe, and the bucket counts them. -/
theorem slots_owed (k : Scope)
    (h : (service.threads (TenantJob.prog a)).RunWhere C ⟨w, []⟩ es s tr) :
    holders k (tr.map Prod.snd) = ((slots k).ghosts service 0 tr s.threads.length).sum ∧
      holders k (tr.map Prod.snd) ≤ s.world.db.inFlight k := by
  have haccount := threads_follows (P := slots k) (J := fun w' gs tr =>
      tr.countP (released k) + gs.sum = tr.countP (acquired k) ∧ holders k tr ≤ w'.db.inFlight k)
    h (TenantJob.follows_slots a k) ⟨rfl, Nat.zero_le _⟩
    (fun w' gs tr hJ => by simpa using hJ) ?_
  · obtain ⟨hsum, hcounted⟩ := haccount
    refine ⟨?_, hcounted⟩
    unfold holders
    omega
  · rintro s tr i t c kont b gs g - hth hg hallowed ⟨hsum, hcounted⟩
    have hset := sum_set hg ((slots k).next g c
      (service.perform t.choice (b || t.cancel) s.world c).2)
    have hwithout := sum_set hg 0
    have hnext := slots_next k g c (b || t.cancel) t.choice s.world
    have hpos : c = .statement (.releaseAdmission k) → 0 < g := hallowed
    have hheld : (slots k).allowed (holders k (tr.map Prod.snd)) c := by
      intro hrel
      have := hpos hrel
      unfold holders
      omega
    have haccount := account_step k (x := t.choice) (b := b || t.cancel) hheld hcounted
    rw [← holders_snoc (by omega)] at haccount
    refine ⟨?_, by omega⟩
    rw [List.countP_append, List.countP_append, List.countP_singleton, List.countP_singleton]
    by_cases hrel : released k ⟨s.world, c, b || t.cancel, t.choice⟩ = true
    · have := hpos (of_decide_eq_true hrel)
      rw [if_pos hrel] at hnext ⊢
      omega
    · rw [if_neg hrel] at hnext ⊢
      omega

/-! ### The executions under way -/

/-- The executions of a connection that are under way: they have loaded it, and have not
returned. -/
def underWay (id : Uuid) (s : Pool World Cmd Cmd.Resp Unit)
    (tr : List (ℕ × Performed World Choice Cmd)) : ℕ :=
  (List.range s.threads.length).countP fun i => s.running i && (byThread i tr).any (loads id)

/-- A sum of ones and noughts is at most the number of ones. -/
theorem sum_map_le_countP {β : Type} {l : List β} {f : β → ℕ} {p : β → Bool}
    (h : ∀ x ∈ l, f x ≤ if p x = true then 1 else 0) : (l.map f).sum ≤ l.countP p := by
  induction l with
  | nil => exact Nat.le_refl _
  | cons x l ih =>
    have hx := h x List.mem_cons_self
    have hrest := ih fun y hy => h y (List.mem_cons_of_mem _ hy)
    rw [List.map_cons, List.sum_cons, List.countP_cons]
    omega

/-- **Whoever holds a slot is under way.** -/
theorem holders_le_underWay (id : Uuid)
    (h : (service.threads (TenantJob.prog a)).RunWhere C ⟨w, []⟩ es s tr) :
    holders (.credential id) (tr.map Prod.snd) ≤ underWay id s tr := by
  rw [(slots_owed (.credential id) h).1]
  refine sum_map_le_countP fun i hi => ?_
  have hlt := List.mem_range.mp hi
  obtain ⟨j, hlog⟩ := (threads_log h).2 i _ (List.getElem?_eq_getElem hlt)
  obtain ⟨hone, hloaded⟩ := owes_of_log (TenantJob.follows_single a id j) hlog
  have hreturned := hlog.follows (TenantJob.follows_slots a (.credential id) j)
  by_cases hpos : 0 < (slots (.credential id)).after service 0 (byThread i tr)
  · have hrun : s.running i = true := by
      unfold Pool.running
      rw [List.getElem?_eq_getElem hlt]
      generalize s.threads[i] = th at hreturned
      obtain ⟨prog, b⟩ := th
      cases prog with
      | pure u => exact absurd hreturned (Nat.ne_of_gt hpos)
      | call c k => rfl
    have hl : (byThread i tr).any (loads id) = true := hloaded hpos
    rw [if_pos (by rw [hrun, hl]; rfl)]
    exact hone
  · exact (Nat.eq_zero_of_not_pos hpos).trans_le (Nat.zero_le _)

end Account

/-! ### What the connections of a tenant may hold -/

/-- What the bucket of a connection lends: its limit, or the slots it has in flight where the limit
was halved below them. -/
def lent (id : Uuid) (db : Database) : ℤ :=
  match db.buckets (.credential id) with
  | some b => max b.concurrencyLimit b.inFlight
  | none => 0

/-- The most slots that the executions of a connection can hold between them. -/
def mayHold (s : Pool World Cmd Cmd.Resp Unit) (tr : List (ℕ × Performed World Choice Cmd))
    (conn : Connection) : ℤ :=
  min (underWay conn.id s tr) (lent conn.id s.world.db)

/-- The slots that the executions of some connections hold. -/
def tenantHolders (conns : List Connection) (tr : List (Performed World Choice Cmd)) : ℕ :=
  (conns.map fun conn => holders (.credential conn.id) tr).sum

/-- **The condition**: when an execution takes a slot of one of the connections, what all of them
may hold fits into the cap of the tenant. -/
def capFits (conns : List Connection) (s : Pool World Cmd Cmd.Resp Unit)
    (tr : List (ℕ × Performed World Choice Cmd)) : PoolEvent TenantJob Choice → Bool :=
  poolCheck (fun x b w c =>
    !(conns.any fun conn => acquired (.credential conn.id) ⟨w, c, b, x⟩) ||
      decide ((conns.map (mayHold s tr)).sum ≤ tenantInflightCap)) s

section Tenant

variable {a : Activities} {w : World} {es : List (PoolEvent TenantJob Choice)}
  {s : Pool World Cmd Cmd.Resp Unit} {tr : List (ℕ × Performed World Choice Cmd)}
  {C : Pool World Cmd Cmd.Resp Unit → List (ℕ × Performed World Choice Cmd) →
    PoolEvent TenantJob Choice → Prop}
  {i : ℕ} {t : Turn Choice} {c : Cmd} {b : Bool} {x : Choice}

/-- What a bucket counts it lends. -/
theorem inFlight_le_lent (id : Uuid) (db : Database) :
    (db.inFlight (.credential id) : ℤ) ≤ lent id db := by
  unfold inFlight lent
  cases db.buckets (.credential id) with
  | none => exact le_rfl
  | some b => exact le_max_right _ _

/-- A slot that is taken is below the limit of its bucket. -/
theorem inFlight_lt_lent {id : Uuid} (h : acquired (.credential id) ⟨w, c, b, x⟩ = true) :
    (w.db.inFlight (.credential id) : ℤ) < lent id w.db := by
  obtain ⟨-, row, hrow, hadmits⟩ := of_acquired h
  have hroom : (row.inFlight : ℤ) < row.concurrencyLimit :=
    of_decide_eq_true (Bool.and_eq_true_iff.mp hadmits).1
  unfold inFlight lent
  rw [hrow]
  exact lt_of_lt_of_le hroom (le_max_left _ _)

/-- A command adds a holder when it takes a slot, and then only. -/
theorem holders_snoc_le (k : Scope) (ls : List (Performed World Choice Cmd))
    (l : Performed World Choice Cmd) :
    holders k (ls ++ [l]) ≤ holders k ls + if acquired k l = true then 1 else 0 := by
  unfold holders
  rw [List.countP_append, List.countP_append, List.countP_singleton, List.countP_singleton]
  omega

/-- A turn that loads no connection brings no execution under way. -/
theorem underWay_turn_le {id : Uuid} {k : c.Resp → Program Unit} {th : Thread Cmd Cmd.Resp Unit}
    {w' : World} (hth : s.threads[i]? = some ⟨.call c k, b⟩)
    (hc : c ≠ .statement (.getConnectionByID id)) :
    underWay id ⟨w', s.threads.set i th⟩
      (tr ++ [(i, ⟨s.world, c, b || t.cancel, t.choice⟩)]) ≤ underWay id s tr := by
  unfold underWay
  rw [List.length_set]
  refine List.countP_mono_left fun j _ h => ?_
  obtain ⟨hrun, hloaded⟩ := Bool.and_eq_true_iff.mp h
  by_cases hij : i = j
  · subst hij
    rw [byThread_snoc_self, List.any_append] at hloaded
    have hnot : loads id ⟨s.world, c, b || t.cancel, t.choice⟩ = false := decide_eq_false hc
    simp only [List.any_cons, hnot, List.any_nil, Bool.or_false] at hloaded
    rw [Pool.running_of_call hth, hloaded]
    rfl
  · rw [byThread_snoc_of_ne hij] at hloaded
    have hsame : s.running j = true := by
      unfold Pool.running at hrun ⊢
      rwa [List.getElem?_set_ne hij] at hrun
    rw [hsame, hloaded]
    rfl

/-- Connections that hold no more than bounds of theirs hold no more than the sum of these. -/
theorem tenantHolders_le {conns : List Connection} {ls : List (Performed World Choice Cmd)}
    {f : Connection → ℤ}
    (h : ∀ conn ∈ conns, (holders (.credential conn.id) ls : ℤ) ≤ f conn) :
    (tenantHolders conns ls : ℤ) ≤ (conns.map f).sum := by
  induction conns with
  | nil => exact le_rfl
  | cons conn conns ih =>
    have hfirst := h conn List.mem_cons_self
    have hrest := ih fun conn' hmem => h conn' (List.mem_cons_of_mem _ hmem)
    unfold tenantHolders at hrest ⊢
    simp only [List.map_cons, List.sum_cons]
    omega

/-- After a slot is taken every connection holds what it may. -/
theorem holders_le_mayHold {s' : Pool World Cmd Cmd.Resp Unit} {k : c.Resp → Program Unit}
    {l : Performed World Choice Cmd} (hl : l = ⟨s.world, c, b || t.cancel, t.choice⟩)
    (h : (service.threads (TenantJob.prog a)).RunWhere C ⟨w, []⟩ es s tr)
    (hth : s.threads[i]? = some ⟨.call c k, b⟩)
    (hstep : (service.threads (TenantJob.prog a)).step s (.turn i t) = some (s', [(i, l)]))
    (hacq : ∃ k', c = .statement (.acquireAdmission k')) (conn : Connection) :
    (holders (.credential conn.id) (tr.map Prod.snd ++ [l]) : ℤ) ≤ mayHold s tr conn := by
  subst hl
  have hnext := Lts.RunWhere.snoc h.run trivial hstep
  have hunder := holders_le_underWay conn.id hnext
  have hcounted := (slots_owed (.credential conn.id) h).2
  have hsnoc := holders_snoc_le (.credential conn.id) (tr.map Prod.snd)
    ⟨s.world, c, b || t.cancel, t.choice⟩
  rw [List.map_append, List.map_singleton] at hunder
  refine le_min ?_ ?_
  · -- nobody else comes under way
    rcases threads_step hstep with ⟨j, heq, -⟩ | ⟨i', t', c', k', b', heq, hth', rfl, -⟩
    · cases heq
    · cases heq
      rw [hth] at hth'
      cases hth'
      have hnot : c ≠ .statement (.getConnectionByID conn.id) := by
        obtain ⟨k', rfl⟩ := hacq
        simp
      exact_mod_cast hunder.trans (underWay_turn_le hth hnot)
  · by_cases htook : acquired (.credential conn.id) ⟨s.world, c, b || t.cancel, t.choice⟩ = true
    · have hroom := inFlight_lt_lent htook
      rw [if_pos htook] at hsnoc
      omega
    · have hlent := inFlight_le_lent conn.id s.world.db
      rw [if_neg htook] at hsnoc
      omega

/-- One turn keeps the slots of a tenant within its cap, if it meets the condition. -/
theorem tenantHolders_step {s' : Pool World Cmd Cmd.Resp Unit} {k : c.Resp → Program Unit}
    {conns : List Connection} {l : Performed World Choice Cmd}
    (hl : l = ⟨s.world, c, b || t.cancel, t.choice⟩)
    (h : (service.threads (TenantJob.prog a)).RunWhere C ⟨w, []⟩ es s tr)
    (hth : s.threads[i]? = some ⟨.call c k, b⟩)
    (hstep : (service.threads (TenantJob.prog a)).step s (.turn i t) = some (s', [(i, l)]))
    (hC : capFits conns s tr (.turn i t) = true)
    (hheld : (tenantHolders conns (tr.map Prod.snd) : ℤ) ≤ tenantInflightCap) :
    (tenantHolders conns (tr.map Prod.snd ++ [l]) : ℤ) ≤ tenantInflightCap := by
  have hfits : (!(conns.any fun conn => acquired (.credential conn.id) l) ||
      decide ((conns.map (mayHold s tr)).sum ≤ tenantInflightCap)) = true :=
    hl ▸ poolMeets_of_check hC c k b hth
  by_cases hany : conns.any (fun conn => acquired (.credential conn.id) l) = true
  · obtain ⟨conn, -, hacq⟩ := List.any_eq_true.mp hany
    have hcmd : c = .statement (.acquireAdmission (.credential conn.id)) :=
      (of_acquired (hl ▸ hacq)).1
    rw [hany, Bool.not_true, Bool.false_or] at hfits
    exact (tenantHolders_le fun conn' _ =>
      holders_le_mayHold hl h hth hstep ⟨_, hcmd⟩ conn').trans (of_decide_eq_true hfits)
  · -- no slot of the tenant is taken
    have hsame : ∀ conn ∈ conns, holders (.credential conn.id) (tr.map Prod.snd ++ [l]) ≤
        holders (.credential conn.id) (tr.map Prod.snd) := by
      intro conn hconn
      have hsnoc := holders_snoc_le (.credential conn.id) (tr.map Prod.snd) l
      have hnot : acquired (.credential conn.id) l ≠ true := fun hacq =>
        hany (List.any_eq_true.mpr ⟨conn, hconn, hacq⟩)
      rwa [if_neg hnot, Nat.add_zero] at hsnoc
    have hle : tenantHolders conns (tr.map Prod.snd ++ [l]) ≤
        tenantHolders conns (tr.map Prod.snd) := List.sum_le_sum hsame
    exact (Int.ofNat_le.mpr hle).trans hheld

/-- **If what the connections of a tenant may hold fits into its cap whenever a slot is taken, the
cap holds**, in every interleaving of capacity reads and drains of any connections, whatever fails:
the executions of the tenant never hold more slots than the limit of its bucket. -/
theorem tenant_cap_kept {tenantID : String}
    (htenant : ∀ b ∈ w.db.buckets (.tenant tenantID), b.concurrencyLimit = tenantInflightCap)
    (h : (service.threads (TenantJob.prog a)).RunWhere
      (fun s tr e => capFits (w.db.tenantConnections tenantID) s tr e = true) ⟨w, []⟩ es s tr) :
    (tenantHolders (w.db.tenantConnections tenantID) (tr.map Prod.snd) : ℤ) ≤ tenantInflightCap ∧
      ∀ b ∈ s.world.db.buckets (.tenant tenantID),
        (tenantHolders (w.db.tenantConnections tenantID) (tr.map Prod.snd) : ℤ) ≤
          b.concurrencyLimit := by
  have hheld : (tenantHolders (w.db.tenantConnections tenantID) (tr.map Prod.snd) : ℤ) ≤
      tenantInflightCap := by
    generalize w.db.tenantConnections tenantID = conns at h
    clear htenant
    induction h with
    | refl =>
      have hnone : (tenantHolders conns [] : ℤ) ≤ (conns.map fun _ : Connection => (0 : ℤ)).sum :=
        tenantHolders_le fun _ _ => le_rfl
      have hzero : (conns.map fun _ : Connection => (0 : ℤ)).sum = 0 := by simp
      rw [hzero] at hnone
      exact hnone.trans (by decide)
    | snoc hrun hC hstep ih =>
      rcases threads_step hstep with ⟨j, rfl, rfl, rfl⟩ | ⟨i, t, c, k, b, rfl, hth, rfl, rfl⟩
      · rwa [List.append_nil]
      · rw [List.map_append, List.map_singleton]
        exact tenantHolders_step rfl hrun hth hstep hC ih
  refine ⟨hheld, fun b hb => ?_⟩
  rw [tenant_limit_kept htenant h b hb]
  exact hheld

end Tenant

/-! ### Five accounts -/

/-- The accounts of a tenant on GitHub, connected in this order. -/
def tenantAccounts (names : List String) : Database :=
  names.foldl (fun db name =>
    (Database.upsertConnection { repoConnection with account := name, externalID := name } db).2)
    .empty

/-- The repositories of the accounts. -/
def tenantRepos (n : ℕ) (repos : List String) (db : Database) : Database :=
  (List.range n).foldl (fun db i => (repos.foldl (fun db x =>
    Database.upsertSyncUnit 0 i x x "github_repo" 1 db) db)) db

/-- The drains of repositories of an account. -/
def accountDrains (repos : List String) (i : ℕ) : List TenantJob :=
  repos.map fun x => .syncUnit
    { connectionID := i, tenantID := "acme", connectorID := "github_pat", unitID := x }

/-- Jobs that start one after another, each once the one before has taken its slot. -/
def startEach : ℕ → List TenantJob → List (PoolEvent TenantJob Choice)
  | _, [] => []
  | i, j :: js => .start j :: List.replicate 6 (.turn i ⟨false, quietly annAnswers⟩) ++
      startEach (i + 1) js

/-- A capacity read, and then the drains of the repositories of the accounts. -/
def tenantRun (n : ℕ) (repos : List String) : List (PoolEvent TenantJob Choice) :=
  .start (.capacity 0 "acme" "github_pat") ::
    List.replicate 3 (.turn 0 ⟨false, quietly annAnswers⟩) ++
    startEach 1 ((List.range n).flatMap (accountDrains repos))

/-- Five accounts of a tenant, with four repositories each. -/
def fiveAccounts : World :=
  worldOf (tenantRepos 5 ["a", "b", "c", "d"]
    (tenantAccounts ["ann", "bob", "cleo", "dan", "eve"]))

theorem fiveAccounts_buckets (k : Scope) : fiveAccounts.db.buckets k = none := rfl

/-- **Five accounts drain three repositories each** and hold fifteen slots at once, within the cap
of the tenant. -/
theorem five_accounts_share : ∃ s tr,
    (service.threads (TenantJob.prog repoActivities)).RunWhere
      (fun s tr e => capFits (fiveAccounts.db.tenantConnections "acme") s tr e = true)
      ⟨fiveAccounts, []⟩ (tenantRun 5 ["a", "b", "c"]) s tr ∧
    tenantHolders (fiveAccounts.db.tenantConnections "acme") (tr.map Prod.snd) = 15 ∧
    (tenantHolders (fiveAccounts.db.tenantConnections "acme") (tr.map Prod.snd) : ℤ) ≤
      tenantInflightCap ∧
    ∀ b ∈ s.world.db.buckets (.tenant "acme"),
      (tenantHolders (fiveAccounts.db.tenantConnections "acme") (tr.map Prod.snd) : ℤ) ≤
        b.concurrencyLimit := by
  obtain ⟨s, tr, hrun, hcount⟩ := Lts.exists_runWhere_of_any
    (service.threads (TenantJob.prog repoActivities))
    (capFits (fiveAccounts.db.tenantConnections "acme")) ⟨fiveAccounts, []⟩
    (tenantRun 5 ["a", "b", "c"])
    (fun _ tr => decide
      (tenantHolders (fiveAccounts.db.tenantConnections "acme") (tr.map Prod.snd) = 15))
    (by decide +kernel)
  refine ⟨s, tr, hrun, of_decide_eq_true hcount, tenant_cap_kept (fun b hb => ?_) hrun⟩
  rw [fiveAccounts_buckets] at hb
  cases hb

/-- **Five accounts of one tenant hold twenty slots at once**, although the bucket of the tenant has
sixteen. -/
theorem tenant_cap_exceeded : ∃ s tr,
    (service.threads (TenantJob.prog repoActivities)).Run ⟨fiveAccounts, []⟩
      (tenantRun 5 ["a", "b", "c", "d"]) s tr ∧
    tenantHolders (fiveAccounts.db.tenantConnections "acme") (tr.map Prod.snd) = 20 ∧
    ∃ b, s.world.db.buckets (.tenant "acme") = some b ∧ b.concurrencyLimit = 16 := by
  obtain ⟨s, tr, hrun, hend⟩ := Lts.exists_run_of_any
    (service.threads (TenantJob.prog repoActivities)) ⟨fiveAccounts, []⟩
    (tenantRun 5 ["a", "b", "c", "d"])
    (fun s tr => decide
        (tenantHolders (fiveAccounts.db.tenantConnections "acme") (tr.map Prod.snd) = 20) &&
      (s.world.db.buckets (.tenant "acme")).any fun b : AdmissionBucket =>
        decide (b.concurrencyLimit = 16))
    (by decide +kernel)
  obtain ⟨hcount, hlimit⟩ := Bool.and_eq_true_iff.mp hend
  obtain ⟨b, hb, hlimit⟩ := (Option.any_eq_true _ _).mp hlimit
  exact ⟨s, tr, hrun, of_decide_eq_true hcount, b, hb, of_decide_eq_true hlimit⟩

end Hivebook
