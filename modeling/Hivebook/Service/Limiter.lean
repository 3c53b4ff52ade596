import Hivebook.Service.Slots

/-!
# The limiter

The calls of the limiter on one bucket, from any number of processes and in any order: a slot is
acquired and released, a success raises the limit, a throttle halves it.  A slot may be held while
the limit is halved below the slots taken, so the slots taken are not bounded by the limit of the
moment, but by the largest one there has been.

A process may give up at any point, a statement may fail, and its answer may be lost.  The one
thing that is asked of the processes is that a slot is released only by whom has acquired it, and
once.

## Main definitions

* `Statement.onBucket` — what a statement does to one bucket.
* `LimiterCall`, `limiter` — the calls, and any number of them side by side.
* `acquired`, `released`, `holders` — the slots that were answered for, and are not released.
* `LimiterInv` — the invariant of a bucket.

## Main results

* `buckets_perform` — **what a command does to a bucket.**
* `LimiterInv.step` — every command keeps the invariant.
* `limiter_safe` — **the limit stays within the budget, every holder is counted, and no slot is
  acquired over the limit or during a cooldown.**
-/

namespace Hivebook

open Connectors Admission Machine Database

/-! ### What a statement does to a bucket -/

/-- What a statement does to the row of a bucket. -/
def Statement.onBucket (now : Time) (k : Scope) (row : Option AdmissionBucket) :
    Statement → Option AdmissionBucket
  | .seedAdmissionBucket k' connectorID limit =>
      if k' = k then some (row.getD ⟨connectorID, limit, 0, none⟩) else row
  | .acquireAdmission k' =>
      if k' = k then
        row.map fun b => if admits now b then { b with inFlight := b.inFlight + 1 } else b
      else row
  | .releaseAdmission k' =>
      if k' = k then row.map fun b => { b with inFlight := b.inFlight - 1 } else row
  | .admissionAdditiveIncrease k' maxLimit =>
      if k' = k then
        row.map fun b =>
          if b.concurrencyLimit < maxLimit ∧ b.concurrencyLimit - 1 ≤ (b.inFlight : ℤ) then
            { b with concurrencyLimit := min (b.concurrencyLimit + 1) maxLimit }
          else b
      else row
  | .admissionMultiplicativeDecrease k' cooldownUntil =>
      if k' = k then
        row.map fun b =>
          { b with concurrencyLimit := max (b.concurrencyLimit.tdiv 2) 1, cooldownUntil }
      else row
  | _ => row

/-- The bucket that a statement is about. -/
def Statement.scope : Statement → Option Scope
  | .seedAdmissionBucket k _ _ | .acquireAdmission k | .releaseAdmission k
  | .admissionAdditiveIncrease k _ | .admissionMultiplicativeDecrease k _ => some k
  | _ => none

/-- A statement about another bucket leaves the row as it is. -/
theorem Statement.onBucket_of_scope {s : Statement} {k : Scope} (h : s.scope ≠ some k) (now : Time)
    (row : Option AdmissionBucket) : s.onBucket now k row = row := by
  cases s with
  | seedAdmissionBucket k' connectorID limit => exact if_neg fun hk => h (congrArg some hk)
  | acquireAdmission k' => exact if_neg fun hk => h (congrArg some hk)
  | releaseAdmission k' => exact if_neg fun hk => h (congrArg some hk)
  | admissionAdditiveIncrease k' maxLimit => exact if_neg fun hk => h (congrArg some hk)
  | admissionMultiplicativeDecrease k' until? => exact if_neg fun hk => h (congrArg some hk)
  | _ => rfl

theorem buckets_updateBucket (db : Database) (k k' : Scope)
    (f : AdmissionBucket → AdmissionBucket) :
    (db.updateBucket k' f).buckets k =
      if k' = k then (db.buckets k).map f else db.buckets k := by
  unfold updateBucket
  by_cases hk : k' = k
  · subst hk
    rw [if_pos rfl]
    exact Function.update_self ..
  · rw [if_neg hk]
    exact Function.update_of_ne (fun h => hk h.symm) ..

/-- A statement changes a bucket as `onBucket` says, and a bucket of no other key. -/
theorem buckets_exec (s : Statement) (now : Time) (db : Database) (k : Scope) :
    (s.exec now db).2.buckets k = s.onBucket now k (db.buckets k) := by
  cases s with
  | seedAdmissionBucket k' connectorID limit =>
    show (seedAdmissionBucket k' connectorID limit db).buckets k = _
    by_cases hk : k' = k
    · subst hk
      cases hrow : db.buckets k' with
      | none => simp [seedAdmissionBucket, Statement.onBucket, hrow]
      | some b => simp [seedAdmissionBucket, Statement.onBucket, hrow]
    · have hne : k ≠ k' := fun h => hk h.symm
      cases hrow : db.buckets k' with
      | none => simp [seedAdmissionBucket, Statement.onBucket, hrow, hk, Function.update_of_ne hne]
      | some b => simp [seedAdmissionBucket, Statement.onBucket, hrow, hk]
  | acquireAdmission k' =>
    show (acquireAdmission now k' db).2.buckets k = _
    unfold acquireAdmission Statement.onBucket
    by_cases hk : k' = k
    · subst hk
      cases hrow : db.buckets k' with
      | none => simp [hrow]
      | some b =>
        by_cases ha : admits now b = true
        · simp [ha, buckets_updateBucket, hrow]
        · simp [ha, hrow]
    · cases hrow : db.buckets k' with
      | none => simp [hk]
      | some b =>
        by_cases ha : admits now b = true
        · simp [ha, buckets_updateBucket, hk]
        · simp [ha, hk]
  | releaseAdmission k' => exact buckets_updateBucket db k k' _
  | admissionAdditiveIncrease k' maxLimit => exact buckets_updateBucket db k k' _
  | admissionMultiplicativeDecrease k' cooldownUntil => exact buckets_updateBucket db k k' _
  | commitArtifact p unitID cursor => cases cursor <;> rfl
  | _ => rfl

/-- The row of a bucket after a command. -/
def bucketAfter (k : Scope) (x : Choice) (cancelled : Bool) (w : World) :
    Cmd → Option AdmissionBucket
  | .statement s =>
      if x.takesEffect cancelled then s.onBucket (w.now + x.elapsed) k (w.db.buckets k)
      else w.db.buckets k
  | _ => w.db.buckets k

/-- **What a command does to a bucket.** -/
theorem buckets_perform (k : Scope) (x : Choice) (cancelled : Bool) (w : World) (c : Cmd) :
    (service.perform x cancelled w c).1.db.buckets k = bucketAfter k x cancelled w c := by
  rw [service_db]
  cases c with
  | statement s =>
    show (if x.takesEffect cancelled = true then _ else w.db).buckets k = _
    unfold bucketAfter
    split
    · exact buckets_exec s _ w.db k
    · rfl
  | _ => rfl

/-! ### The calls -/

/-- The calls of the limiter. -/
inductive LimiterCall where
  | acquire
  | release
  | recordSuccess
  | recordThrottle (retryAfter : ℤ)
  deriving DecidableEq, Repr

/-- A call on a bucket, with the budget of its connector; only an acquire answers whether there
was a slot. -/
def LimiterCall.prog (k : Scope) (connectorID : String) (budget : RateBudget) :
    LimiterCall → Program (Except Err Bool)
  | .acquire => Admission.acquire k connectorID budget
  | .release => (Admission.release k).bind fun r => .pure (r.map fun _ => false)
  | .recordSuccess => (Admission.recordSuccess k budget.maxConcurrency).bind fun r =>
      .pure (r.map fun _ => false)
  | .recordThrottle retryAfter => (Admission.recordThrottle k retryAfter).bind fun r =>
      .pure (r.map fun _ => false)

/-- Any number of calls on one bucket, side by side. -/
def limiter (k : Scope) (connectorID : String) (budget : RateBudget) :
    Lts (Pool World Cmd Cmd.Resp (Except Err Bool)) (PoolEvent LimiterCall Choice)
      (Performed World Choice Cmd) :=
  service.pool (LimiterCall.prog k connectorID budget)

/-- An acquire that was answered with a slot. -/
def acquired (k : Scope) (l : Performed World Choice Cmd) : Bool :=
  decide (l.cmd = .statement (.acquireAdmission k)) &&
    (l.choice.reply l.cancelled (acquireAdmission (performedAt l) k l.state.db).1).isOk

/-- A release. -/
def released (k : Scope) (l : Performed World Choice Cmd) : Bool :=
  decide (l.cmd = .statement (.releaseAdmission k))

/-- The slots that are held: acquired, and not released. -/
def holders (k : Scope) (tr : List (Performed World Choice Cmd)) : ℕ :=
  tr.countP (acquired k) - tr.countP (released k)

/-- A slot is released by whom has acquired it, and once. -/
def releasesHeld (k : Scope) (s : Pool World Cmd Cmd.Resp (Except Err Bool))
    (tr : List (Performed World Choice Cmd)) : PoolEvent LimiterCall Choice → Prop :=
  PoolMeets (fun _ _ _ c => c = .statement (.releaseAdmission k) →
    tr.countP (released k) < tr.countP (acquired k)) s

/-- The bucket has had a limit, now or before one of the commands. -/
def HadLimit (k : Scope) (tr : List (Performed World Choice Cmd)) (w : World) (n : ℤ) : Prop :=
  ∃ w' ∈ w :: tr.map Performed.state, ∃ b, w'.db.buckets k = some b ∧ b.concurrencyLimit = n

theorem HadLimit.snoc {k : Scope} {tr : List (Performed World Choice Cmd)} {w : World} {n : ℤ}
    (h : HadLimit k tr w n) (w' : World) (c : Cmd) (b : Bool) (x : Choice) :
    HadLimit k (tr ++ [⟨w, c, b, x⟩]) w' n := by
  obtain ⟨w₀, hmem, hrow⟩ := h
  refine ⟨w₀, List.mem_cons_of_mem _ ?_, hrow⟩
  rw [List.map_append, List.mem_append]
  rcases List.mem_cons.mp hmem with rfl | hmem
  · exact Or.inr (List.mem_singleton.mpr rfl)
  · exact Or.inl hmem

/-! ### The commands of a budget -/

/-- The largest limit of a budget. -/
def Connectors.RateBudget.top (budget : RateBudget) : ℤ :=
  max (max budget.startConcurrency 1) (max budget.maxConcurrency 1)

/-- The command seeds and raises the bucket by the budget. -/
def Cmd.limits (k : Scope) (budget : RateBudget) : Cmd → Prop
  | .statement (.seedAdmissionBucket k' _ limit) =>
      k' = k → limit = int32 (max budget.startConcurrency 1)
  | .statement (.admissionAdditiveIncrease k' maxLimit) =>
      k' = k → maxLimit = int32 (max budget.maxConcurrency 1)
  | _ => True

/-- A positive number in range is stored as it is. -/
theorem int32_of_lt {n : ℤ} (h : 1 ≤ n) (h' : n < 2 ^ 31) : int32 n = n := by
  unfold int32
  rw [Int.bmod_def]
  have hmod : n % ((2 ^ 32 : ℕ) : ℤ) = n := Int.emod_eq_of_lt (by omega) (by omega)
  rw [hmod, if_pos (by omega)]

theorem limits_calls (k : Scope) (connectorID : String) (budget : RateBudget) (j : LimiterCall) :
    (j.prog k connectorID budget).Uses (Cmd.limits k budget) := by
  cases j with
  | acquire =>
    refine ⟨fun _ => rfl, fun r => ?_⟩
    cases r with
    | error e => trivial
    | ok _ =>
      refine ⟨trivial, fun r => ?_⟩
      dsimp only [Prog.pure_bind]
      split <;> trivial
  | release => exact ⟨trivial, fun _ => trivial⟩
  | recordSuccess => exact ⟨fun _ => rfl, fun _ => trivial⟩
  | recordThrottle retryAfter =>
    refine Prog.Uses.bind ?_ fun _ => Prog.uses_pure _ _
    unfold Admission.recordThrottle
    split
    · exact ⟨trivial, fun _ => ⟨trivial, fun _ => trivial⟩⟩
    · exact ⟨trivial, fun _ => trivial⟩

/-- **The limit stays within the budget**: a seed and a raise are cut at it, and a throttle stops
at one. -/
theorem within_onBucket {k : Scope} {budget : RateBudget} {s : Statement} {now : Time}
    {row : Option AdmissionBucket} (hs : budget.startConcurrency < 2 ^ 31)
    (hm : budget.maxConcurrency < 2 ^ 31) (hc : (Cmd.statement s).limits k budget)
    (hrow : ∀ b ∈ row, 1 ≤ b.concurrencyLimit ∧ b.concurrencyLimit ≤ budget.top) :
    ∀ b ∈ s.onBucket now k row, 1 ≤ b.concurrencyLimit ∧ b.concurrencyLimit ≤ budget.top := by
  have hstart : int32 (max budget.startConcurrency 1) = max budget.startConcurrency 1 :=
    int32_of_lt (le_max_right _ _) (by omega)
  have hmax : int32 (max budget.maxConcurrency 1) = max budget.maxConcurrency 1 :=
    int32_of_lt (le_max_right _ _) (by omega)
  intro b hb
  by_cases hscope : s.scope = some k
  swap
  · rw [Statement.onBucket_of_scope hscope] at hb
    exact hrow b hb
  unfold RateBudget.top at hrow ⊢
  cases s with
  | seedAdmissionBucket k' connectorID limit =>
    have hk : k' = k := Option.some.inj hscope
    rw [hc hk, hstart] at hb
    simp only [Statement.onBucket, if_pos hk, Option.mem_some_iff] at hb
    subst hb
    cases row with
    | none => exact ⟨le_max_right _ _, le_max_left _ _⟩
    | some b => exact hrow b rfl
  | acquireAdmission k' =>
    rw [Statement.onBucket, if_pos (Option.some.inj hscope)] at hb
    obtain ⟨b₀, hb₀, rfl⟩ := Option.mem_map.mp hb
    have hold := hrow b₀ hb₀
    split <;> exact hold
  | releaseAdmission k' =>
    rw [Statement.onBucket, if_pos (Option.some.inj hscope)] at hb
    obtain ⟨b₀, hb₀, rfl⟩ := Option.mem_map.mp hb
    exact hrow b₀ hb₀
  | admissionAdditiveIncrease k' maxLimit =>
    have hk : k' = k := Option.some.inj hscope
    rw [Statement.onBucket, if_pos hk] at hb
    obtain ⟨b₀, hb₀, rfl⟩ := Option.mem_map.mp hb
    obtain ⟨hone, htop⟩ := hrow b₀ hb₀
    split
    · -- raised, and cut at the hard cap
      have hcap := (hc hk).trans hmax
      refine ⟨?_, ?_⟩
      · show 1 ≤ min (b₀.concurrencyLimit + 1) maxLimit
        omega
      · show min (b₀.concurrencyLimit + 1) maxLimit ≤ _
        omega
    · exact ⟨hone, htop⟩
  | admissionMultiplicativeDecrease k' cooldownUntil =>
    rw [Statement.onBucket, if_pos (Option.some.inj hscope)] at hb
    obtain ⟨b₀, hb₀, rfl⟩ := Option.mem_map.mp hb
    obtain ⟨hone, htop⟩ := hrow b₀ hb₀
    -- halved, and held at one
    have hdiv : b₀.concurrencyLimit.tdiv 2 = b₀.concurrencyLimit / 2 :=
      Int.tdiv_eq_ediv_of_nonneg (by omega)
    refine ⟨le_max_right _ _, ?_⟩
    show max (b₀.concurrencyLimit.tdiv 2) 1 ≤ _
    omega
  | _ => cases hscope

/-! ### The invariant of a bucket -/

/-- The invariant of a bucket, with the trace of the commands. -/
structure LimiterInv (k : Scope) (top : ℤ) (w : World) (tr : List (Performed World Choice Cmd)) :
    Prop where
  paired : tr.countP (released k) ≤ tr.countP (acquired k)
  within : ∀ b ∈ w.db.buckets k, 1 ≤ b.concurrencyLimit ∧ b.concurrencyLimit ≤ top
  counted : holders k tr ≤ w.db.inFlight k
  peak : w.db.inFlight k = 0 ∨ ∃ n, HadLimit k tr w n ∧ (w.db.inFlight k : ℤ) ≤ n
  granted : ∀ l ∈ tr, acquired k l = true →
    ∃ b, l.state.db.buckets k = some b ∧ admits (performedAt l) b = true
  unclamped : ∀ l ∈ tr, released k l = true → 0 < l.state.db.inFlight k

variable {k : Scope} {x : Choice} {cancelled : Bool} {w : World} {c : Cmd}
  {tr : List (Performed World Choice Cmd)}

/-- An acquire that is answered with a slot has found the bucket open. -/
theorem of_acquired (h : acquired k ⟨w, c, cancelled, x⟩ = true) :
    c = .statement (.acquireAdmission k) ∧ ∃ b, w.db.buckets k = some b ∧
      admits (w.now + x.elapsed) b = true := by
  obtain ⟨hcmd, hok⟩ := Bool.and_eq_true_iff.mp h
  refine ⟨of_decide_eq_true hcmd, ?_⟩
  cases hr : x.reply cancelled (acquireAdmission (w.now + x.elapsed) k w.db).1 with
  | error e =>
    have hok' : (x.reply cancelled (acquireAdmission (w.now + x.elapsed) k w.db).1).isOk = true :=
      hok
    rw [hr] at hok'
    cases hok'
  | ok n =>
    have hfree := (acquire_ok_iff _ _ _).mp ⟨n, (of_reply_eq_ok hr).2⟩
    unfold slotFreeToTake at hfree
    cases hrow : w.db.buckets k with
    | none => simp [hrow] at hfree
    | some b =>
      rw [hrow] at hfree
      exact ⟨b, rfl, hfree⟩

/-- What a command does to the slots that are owed: an acquire that is answered with one adds it,
and a release takes one away. -/
theorem slots_next (k : Scope) (n : ℕ) (c : Cmd) (cancelled : Bool) (x : Choice) (w : World) :
    (slots k).next n c (service.perform x cancelled w c).2 =
      n + (if acquired k ⟨w, c, cancelled, x⟩ = true then 1 else 0) -
        (if released k ⟨w, c, cancelled, x⟩ = true then 1 else 0) := by
  by_cases hfree : c.slotFree = true
  · rw [slots_next_slotFree k hfree]
    have hacq : acquired k ⟨w, c, cancelled, x⟩ ≠ true := by
      intro h
      rw [(of_acquired h).1] at hfree
      cases hfree
    have hrel : released k ⟨w, c, cancelled, x⟩ ≠ true := by
      intro h
      have hcmd : c = .statement (.releaseAdmission k) := of_decide_eq_true h
      rw [hcmd] at hfree
      cases hfree
    rw [if_neg hacq, if_neg hrel]
    rfl
  · cases c with
    | statement s =>
      cases s with
      | acquireAdmission k' =>
        have hrel : released k ⟨w, .statement (.acquireAdmission k'), cancelled, x⟩ ≠ true := by
          simp [released]
        rw [if_neg hrel, service_statement]
        show (slots k).next _ (.statement (.acquireAdmission k'))
          (x.reply cancelled (acquireAdmission (w.now + x.elapsed) k' w.db).1) = _
        by_cases hk : k' = k
        · subst hk
          -- the slot is acquired if the answer says so
          have hcases : acquired k' ⟨w, .statement (.acquireAdmission k'), cancelled, x⟩ =
              (x.reply cancelled (acquireAdmission (w.now + x.elapsed) k' w.db).1).isOk := by
            simp [acquired, performedAt]
          rw [hcases]
          cases x.reply cancelled (acquireAdmission (w.now + x.elapsed) k' w.db).1 with
          | error e => simp [slots, Except.isOk, Except.toBool]
          | ok m => simp [slots, Except.isOk, Except.toBool]
        · have hacq : acquired k ⟨w, .statement (.acquireAdmission k'), cancelled, x⟩ ≠ true := by
            simp [acquired, hk]
          rw [if_neg hacq]
          cases x.reply cancelled (acquireAdmission (w.now + x.elapsed) k' w.db).1 with
          | error e => simp [slots]
          | ok m => simp [slots, hk]
      | releaseAdmission k' =>
        have hacq : acquired k ⟨w, .statement (.releaseAdmission k'), cancelled, x⟩ ≠ true := by
          simp [acquired]
        rw [if_neg hacq]
        show (if k' = k then n - 1 else n) = _
        by_cases hk : k' = k
        · rw [if_pos hk, if_pos (by simp [released, hk])]
          rfl
        · rw [if_neg hk, if_neg (by simp [released, hk])]
          rfl
      | _ => exact absurd rfl hfree
    | _ => exact absurd rfl hfree

/-- The holders after a command, as the account of a process counts them. -/
theorem holders_snoc (hpaired : tr.countP (released k) ≤ tr.countP (acquired k)) :
    holders k (tr ++ [⟨w, c, cancelled, x⟩]) =
      (slots k).next (holders k tr) c (service.perform x cancelled w c).2 := by
  rw [slots_next]
  unfold holders
  rw [List.countP_append, List.countP_append, List.countP_singleton, List.countP_singleton]
  omega

/-- The slots taken do not rise, or rise to no more than the limit. -/
theorem inFlight_perform (k : Scope) (x : Choice) (cancelled : Bool) (w : World) (c : Cmd) :
    (service.perform x cancelled w c).1.db.inFlight k ≤ w.db.inFlight k ∨
    ∃ b, w.db.buckets k = some b ∧
      ((service.perform x cancelled w c).1.db.inFlight k : ℤ) ≤ b.concurrencyLimit := by
  cases c with
  | statement s =>
    have hdb : (service.perform x cancelled w (.statement s)).1.db =
        if x.takesEffect cancelled then (s.exec (w.now + x.elapsed) w.db).2 else w.db :=
      service_db x cancelled w _
    rw [hdb]
    by_cases hx : x.takesEffect cancelled = true
    · rw [if_pos hx]
      by_cases hfree : (Cmd.statement s).slotFree = true
      · exact Or.inl (inFlight_slotFree hfree _ _ _).le
      · cases s with
        | acquireAdmission k' =>
          have heq := inFlight_acquire (w.now + x.elapsed) w.db k k'
          by_cases htake : k' = k ∧ slotFreeToTake (w.now + x.elapsed) w.db k = true
          · -- a slot below the limit is taken
            rw [if_pos htake] at heq
            have hfree := htake.2
            unfold slotFreeToTake at hfree
            cases hrow : w.db.buckets k with
            | none => simp [hrow] at hfree
            | some b =>
              rw [hrow] at hfree
              have hroom : (b.inFlight : ℤ) < b.concurrencyLimit := by
                have := (Bool.and_eq_true_iff.mp hfree).1
                exact of_decide_eq_true this
              have hb : w.db.inFlight k = b.inFlight := by simp [inFlight, hrow]
              refine Or.inr ⟨b, rfl, ?_⟩
              show (((acquireAdmission (w.now + x.elapsed) k' w.db).2.inFlight k : ℕ) : ℤ) ≤ _
              omega
          · rw [if_neg htake] at heq
            exact Or.inl heq.le
        | releaseAdmission k' =>
          refine Or.inl ?_
          show (releaseAdmission k' w.db).inFlight k ≤ _
          rw [inFlight_release]
          split <;> omega
        | _ => exact absurd rfl hfree
    · rw [if_neg hx]
      exact Or.inl le_rfl
  | _ =>
    rw [service_db]
    exact Or.inl le_rfl

/-- **Every command keeps the invariant of a bucket.** -/
theorem LimiterInv.step {budget : RateBudget} (hs : budget.startConcurrency < 2 ^ 31)
    (hm : budget.maxConcurrency < 2 ^ 31) (hinv : LimiterInv k budget.top w tr)
    (hc : c.limits k budget)
    (hheld : c = .statement (.releaseAdmission k) →
      tr.countP (released k) < tr.countP (acquired k)) :
    LimiterInv k budget.top (service.perform x cancelled w c).1 (tr ++ [⟨w, c, cancelled, x⟩]) := by
  -- a release is of a slot that is held
  have hallowed : (slots k).allowed (holders k tr) c := by
    intro hrel
    have := hheld hrel
    unfold holders
    omega
  have haccount := account_step k (x := x) (b := cancelled) hallowed hinv.counted
  rw [← holders_snoc hinv.paired] at haccount
  have hcounted := hinv.counted
  refine ⟨?_, ?_, by omega, ?_, fun l hl hacq => ?_, fun l hl hrel => ?_⟩
  · rw [List.countP_append, List.countP_append, List.countP_singleton, List.countP_singleton]
    have hpaired := hinv.paired
    by_cases hrel : released k ⟨w, c, cancelled, x⟩ = true
    · have := hheld (of_decide_eq_true hrel)
      rw [if_pos hrel]
      omega
    · rw [if_neg hrel]
      omega
  · intro b hb
    rw [buckets_perform] at hb
    cases c with
    | statement s =>
      by_cases hx : x.takesEffect cancelled = true
      · rw [bucketAfter, if_pos hx] at hb
        exact within_onBucket hs hm hc hinv.within b hb
      · rw [bucketAfter, if_neg hx] at hb
        exact hinv.within b hb
    | _ => exact hinv.within b hb
  · rcases inFlight_perform k x cancelled w c with hle | ⟨b, hrow, hle⟩
    · rcases hinv.peak with hzero | ⟨n, hhad, hn⟩
      · exact Or.inl (by omega)
      · exact Or.inr ⟨n, hhad.snoc _ c cancelled x, by omega⟩
    · have hhad : HadLimit k tr w b.concurrencyLimit := ⟨w, List.mem_cons_self, b, hrow, rfl⟩
      exact Or.inr ⟨b.concurrencyLimit, hhad.snoc _ c cancelled x, hle⟩
  · rcases List.mem_append.mp hl with hl | hl
    · exact hinv.granted l hl hacq
    · rw [List.mem_singleton.mp hl] at hacq ⊢
      exact (of_acquired hacq).2
  · rcases List.mem_append.mp hl with hl | hl
    · exact hinv.unclamped l hl hrel
    · rw [List.mem_singleton.mp hl] at hrel ⊢
      have := hallowed (of_decide_eq_true hrel)
      show 0 < w.db.inFlight k
      omega

/-- A bucket that was never seeded. -/
theorem LimiterInv.init {budget : RateBudget} (hw : w.db.buckets k = none) :
    LimiterInv k budget.top w [] := by
  refine ⟨le_rfl, fun b hb => ?_, Nat.zero_le _, Or.inl ?_, fun l hl => (nomatch hl),
    fun l hl => (nomatch hl)⟩
  · rw [hw] at hb
    cases hb
  · simp [inFlight, hw]

/-! ### Every interleaving -/

/-- **The limiter is safe in every interleaving** of its calls on a bucket, whatever fails, as long
as a slot is released by whom has acquired it, and once.  The limit stays between one and the
largest of the budget; every holder is counted, and a release never finds the count at zero; the
slots taken do not exceed the largest limit there has been; and an acquire succeeds only below the
limit and after the cooldown. -/
theorem limiter_safe {connectorID : String} {budget : RateBudget}
    {es : List (PoolEvent LimiterCall Choice)} {s : Pool World Cmd Cmd.Resp (Except Err Bool)}
    (hs : budget.startConcurrency < 2 ^ 31) (hm : budget.maxConcurrency < 2 ^ 31)
    (hw : w.db.buckets k = none)
    (h : (limiter k connectorID budget).RunWhere (releasesHeld k) ⟨w, []⟩ es s tr) :
    (∀ b, s.world.db.buckets k = some b →
      1 ≤ b.concurrencyLimit ∧
      b.concurrencyLimit ≤ max (max budget.startConcurrency 1) (max budget.maxConcurrency 1) ∧
      0 ≤ (b.inFlight : ℤ) ∧ holders k tr ≤ b.inFlight ∧
      ∃ n, HadLimit k tr s.world n ∧ (b.inFlight : ℤ) ≤ n) ∧
    (s.world.db.buckets k = none → holders k tr = 0) ∧
    (∀ l ∈ tr, released k l = true →
      ∃ b, l.state.db.buckets k = some b ∧ 0 < b.inFlight) ∧
    ∀ l ∈ tr, acquired k l = true → ∃ b, l.state.db.buckets k = some b ∧
      (b.inFlight : ℤ) < b.concurrencyLimit ∧
      ∀ t, b.cooldownUntil = some t → t ≤ performedAt l := by
  have hinv : LimiterInv k budget.top s.world tr := by
    refine pool_uses h (limits_calls k connectorID budget) (.init hw) ?_
    intro s tr i t c kont b hC hth hU hJ
    exact hJ.step hs hm hU (hC c kont b hth)
  refine ⟨fun b hb => ?_, fun hnone => ?_, fun l hl hrel => ?_, fun l hl hacq => ?_⟩
  · -- the count of the row is the one the invariant is about
    have hflight : s.world.db.inFlight k = b.inFlight := by simp [inFlight, hb]
    obtain ⟨hone, htop⟩ := hinv.within b hb
    have hcounted := hinv.counted
    rw [hflight] at hcounted
    refine ⟨hone, htop, by omega, hcounted, ?_⟩
    rcases hinv.peak with hzero | ⟨n, hhad, hn⟩
    · exact ⟨_, ⟨s.world, List.mem_cons_self, b, hb, rfl⟩, by omega⟩
    · exact ⟨n, hhad, by omega⟩
  · have hcounted := hinv.counted
    have hflight : s.world.db.inFlight k = 0 := by simp [inFlight, hnone]
    omega
  · have hpos := hinv.unclamped l hl hrel
    cases hrow : l.state.db.buckets k with
    | none => simp [inFlight, hrow] at hpos
    | some b => exact ⟨b, rfl, by simpa [inFlight, hrow] using hpos⟩
  · obtain ⟨b, hrow, hadmits⟩ := hinv.granted l hl hacq
    obtain ⟨hroom, hcool⟩ := Bool.and_eq_true_iff.mp hadmits
    refine ⟨b, hrow, of_decide_eq_true hroom, fun t ht => ?_⟩
    rw [ht] at hcool
    exact of_decide_eq_true hcool

/-- A deployment nothing has run on. -/
def newWorld : World := { db := .empty, objects := fun _ => none, now := 0 }

/-- A call that has `n` commands to perform, as the `i`-th of a run. -/
def callAt (i : ℕ) (j : LimiterCall) (n : ℕ) : List (PoolEvent LimiterCall Choice) :=
  .start j :: List.replicate n (.turn i ⟨false, quietly annAnswers⟩)

/-- A slot is only released when one is held. -/
def checksHeld (k : Scope) (s : Pool World Cmd Cmd.Resp (Except Err Bool))
    (tr : List (Performed World Choice Cmd)) : PoolEvent LimiterCall Choice → Bool :=
  poolCheck (fun _ _ _ c => !decide (c = .statement (.releaseAdmission k)) ||
    decide (tr.countP (released k) < tr.countP (acquired k))) s

theorem releasesHeld_of_checksHeld {s : Pool World Cmd Cmd.Resp (Except Err Bool)}
    {e : PoolEvent LimiterCall Choice} (h : checksHeld k s tr e = true) :
    releasesHeld k s tr e := by
  have hmeets := poolMeets_of_check h
  cases e with
  | start j => trivial
  | turn i t =>
    intro c kont b hth hrel
    have hcheck := hmeets c kont b hth
    rw [hrel] at hcheck
    simpa using hcheck

/-- Two slots of a Drive are acquired, a throttle halves the limit and closes the bucket, a third
process finds it closed, and one slot is released. -/
def throttledDrive : List (PoolEvent LimiterCall Choice) :=
  callAt 0 .acquire 2 ++ callAt 1 .acquire 2 ++ callAt 2 (.recordThrottle 60) 2 ++
    callAt 3 .acquire 2 ++ callAt 4 .release 1

example : (acquireAdmission 0 (.tenant "acme") .empty).1 = .error .noRows := by decide +kernel

/-- The limiter of a Drive after a throttle: one holder is left, and everything that is promised
holds of it. -/
theorem throttled_drive_safe : ∃ s tr,
    (limiter (.credential 0) "gdocs" newGoogleDocs.connector.rateBudget).RunWhere
      (releasesHeld (.credential 0)) ⟨newWorld, []⟩ throttledDrive s tr ∧
    holders (.credential 0) tr = 1 ∧
    (∀ b, s.world.db.buckets (.credential 0) = some b → 1 ≤ b.concurrencyLimit ∧
      b.concurrencyLimit ≤ 20 ∧ holders (.credential 0) tr ≤ b.inFlight) ∧
    ∀ l ∈ tr, acquired (.credential 0) l = true →
      ∃ b, l.state.db.buckets (.credential 0) = some b ∧
        (b.inFlight : ℤ) < b.concurrencyLimit := by
  obtain ⟨s, tr, hrun, hheld⟩ := Lts.exists_runWhere_of_any
    (limiter (.credential 0) "gdocs" newGoogleDocs.connector.rateBudget)
    (checksHeld (.credential 0)) ⟨newWorld, []⟩ throttledDrive
    (fun _ tr => decide (holders (.credential 0) tr = 1)) (by decide +kernel)
  have hrun' := hrun.mono fun s tr e he => releasesHeld_of_checksHeld he
  obtain ⟨hbucket, -, -, hgranted⟩ := limiter_safe (by decide) (by decide) rfl hrun'
  refine ⟨s, tr, hrun', of_decide_eq_true hheld, fun b hb => ?_, fun l hl hacq => ?_⟩
  · obtain ⟨hone, htop, -, hcounted, -⟩ := hbucket b hb
    exact ⟨hone, htop, hcounted⟩
  · obtain ⟨b, hrow, hroom, -⟩ := hgranted l hl hacq
    exact ⟨b, hrow, hroom⟩

end Hivebook
