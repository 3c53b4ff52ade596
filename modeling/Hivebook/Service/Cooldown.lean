import Hivebook.Service.Limiter

/-!
# Cooldowns

A throttle parks its bucket until the moment the source has named.  Each `RecordThrottle` writes
its own moment over the one that is stored, and `NULL` when the source named none, so a later
report can open a bucket that an earlier one has parked for longer.

## Main definitions

* `throttledUntil` — the moment a recorded throttle parks its bucket until.
* `lengthens` — a throttle does not cut short the cooldown it finds.
* `CooldownInv` — every throttle is over, or the bucket is parked for as long.

## Main results

* `CooldownInv.step` — a command that cuts no cooldown short keeps the invariant.
* `no_acquire_during_cooldown` — **if no throttle cuts a cooldown short, no acquire succeeds before
  the latest of the throttles before it is over.**
* `throttle_reopens` — a throttle without a `Retry-After` opens a parked bucket.
-/

namespace Hivebook

open Connectors Admission Machine Database

/-- The moment a throttle parks the bucket until, once it is recorded: the one it names, or its
own if it names none. -/
def throttledUntil (k : Scope) (l : Performed World Choice Cmd) : Option Time :=
  match l.cmd with
  | .statement (.admissionMultiplicativeDecrease k' cooldownUntil) =>
      if k' = k ∧ tookEffect l = true then some (cooldownUntil.getD (performedAt l)) else none
  | _ => none

/-- A throttle does not cut short the cooldown it finds, and finds the bucket when it has one to
record. -/
def lengthens (k : Scope) (x : Choice) (cancelled : Bool) (w : World) (c : Cmd) : Prop :=
  ∀ cooldownUntil, c = .statement (.admissionMultiplicativeDecrease k cooldownUntil) →
    x.takesEffect cancelled = true →
    (w.db.buckets k = none → ∀ t ∈ cooldownUntil, t ≤ w.now + x.elapsed) ∧
    ∀ b ∈ w.db.buckets k, ∀ t ∈ b.cooldownUntil, w.now + x.elapsed < t →
      ∃ t' ∈ cooldownUntil, t ≤ t'

/-- The bucket is parked until a moment, or later. -/
def parked (k : Scope) (db : Database) (t : Time) : Prop :=
  ∃ b ∈ db.buckets k, ∃ t' ∈ b.cooldownUntil, t ≤ t'

/-- Every recorded throttle is over, or the bucket is still parked for it. -/
structure CooldownInv (k : Scope) (w : World) (tr : List (Performed World Choice Cmd)) : Prop where
  past : ∀ l ∈ tr, performedAt l ≤ w.now
  cools : ∀ l ∈ tr, ∀ t, throttledUntil k l = some t → t ≤ w.now ∨ parked k w.db t

variable {k : Scope} {x : Choice} {cancelled : Bool} {w : World} {c : Cmd}
  {tr : List (Performed World Choice Cmd)}

/-- A statement that records no throttle of the bucket leaves its cooldown alone. -/
theorem parked_onBucket {s : Statement} {now : Time} {row : Option AdmissionBucket} {t : Time}
    (hs : ∀ until?, s ≠ .admissionMultiplicativeDecrease k until?)
    (h : ∃ b ∈ row, ∃ t' ∈ b.cooldownUntil, t ≤ t') :
    ∃ b ∈ s.onBucket now k row, ∃ t' ∈ b.cooldownUntil, t ≤ t' := by
  by_cases hscope : s.scope = some k
  swap
  · rw [Statement.onBucket_of_scope hscope]
    exact h
  obtain ⟨b, hb, t', ht', hle⟩ := h
  have hkeep : ∀ f : AdmissionBucket → AdmissionBucket,
      (f b).cooldownUntil = b.cooldownUntil →
        ∃ b' ∈ row.map f, ∃ t' ∈ b'.cooldownUntil, t ≤ t' := by
    intro f hf
    refine ⟨f b, Option.mem_map_of_mem f hb, t', ?_, hle⟩
    rw [hf]
    exact ht'
  cases s with
  | seedAdmissionBucket k' connectorID limit =>
    rw [Statement.onBucket, if_pos (Option.some.inj hscope), Option.mem_def.mp hb]
    exact ⟨b, rfl, t', ht', hle⟩
  | acquireAdmission k' =>
    rw [Statement.onBucket, if_pos (Option.some.inj hscope)]
    refine hkeep _ ?_
    split <;> rfl
  | releaseAdmission k' =>
    rw [Statement.onBucket, if_pos (Option.some.inj hscope)]
    exact hkeep _ rfl
  | admissionAdditiveIncrease k' maxLimit =>
    rw [Statement.onBucket, if_pos (Option.some.inj hscope)]
    refine hkeep _ ?_
    split <;> rfl
  | admissionMultiplicativeDecrease k' until? =>
    exact absurd (by rw [Option.some.inj hscope]) (hs until?)
  | _ => cases hscope

/-- A throttle parks the bucket it finds. -/
theorem parked_throttle {b : AdmissionBucket} {t : Time} (hrow : w.db.buckets k = some b)
    (hx : x.takesEffect cancelled = true) :
    parked k (service.perform x cancelled w
      (.statement (.admissionMultiplicativeDecrease k (some t)))).1.db t := by
  unfold parked
  rw [buckets_perform, bucketAfter, if_pos hx, Statement.onBucket, if_pos rfl, hrow]
  exact ⟨_, rfl, t, rfl, le_rfl⟩

/-- **A command that cuts no cooldown short keeps the invariant.** -/
theorem CooldownInv.step (hinv : CooldownInv k w tr) (hc : lengthens k x cancelled w c) :
    CooldownInv k (service.perform x cancelled w c).1 (tr ++ [⟨w, c, cancelled, x⟩]) := by
  have hnow := service_now x cancelled w c
  -- what the bucket was parked for before the command
  have hold : ∀ t, parked k w.db t → t ≤ w.now + x.elapsed ∨
      parked k (service.perform x cancelled w c).1.db t := by
    intro t hpark
    by_cases hthrottle : ∃ until?, c = .statement (.admissionMultiplicativeDecrease k until?)
    · obtain ⟨until?, rfl⟩ := hthrottle
      obtain ⟨b, hb, t', ht', hle⟩ := hpark
      by_cases hx : x.takesEffect cancelled = true
      · by_cases hover : t' ≤ w.now + x.elapsed
        · exact Or.inl (hle.trans hover)
        · obtain ⟨t'', ht'', hle'⟩ := (hc until? rfl hx).2 b hb t' ht' (Nat.not_le.mp hover)
          rw [Option.mem_def.mp ht'']
          obtain ⟨b', hb', u, hu, hlu⟩ := parked_throttle (t := t'') hb hx
          exact Or.inr ⟨b', hb', u, hu, (hle.trans hle').trans hlu⟩
      · right
        unfold parked
        rw [buckets_perform, bucketAfter, if_neg hx]
        exact ⟨b, hb, t', ht', hle⟩
    · right
      unfold parked
      rw [buckets_perform]
      cases c with
      | statement s =>
        by_cases hx : x.takesEffect cancelled = true
        · rw [bucketAfter, if_pos hx]
          exact parked_onBucket (fun until? hs => hthrottle ⟨until?, by rw [hs]⟩) hpark
        · rw [bucketAfter, if_neg hx]
          exact hpark
      | _ => exact hpark
  refine ⟨fun l hl => ?_, fun l hl t ht => ?_⟩
  · rcases List.mem_append.mp hl with hl | hl
    · rw [hnow]
      exact (hinv.past l hl).trans (Nat.le_add_right _ _)
    · rw [List.mem_singleton.mp hl, hnow]
      exact le_rfl
  · rw [hnow]
    rcases List.mem_append.mp hl with hl | hl
    · rcases hinv.cools l hl t ht with hpast | hpark
      · exact Or.inl (hpast.trans (Nat.le_add_right _ _))
      · exact hold t hpark
    · -- the throttle is recorded by this command
      rw [List.mem_singleton.mp hl] at ht
      cases c with
      | statement s =>
        cases s with
        | admissionMultiplicativeDecrease k' until? =>
          simp only [throttledUntil] at ht
          split at ht
          · rename_i hk
            obtain ⟨rfl, hx⟩ := hk
            cases until? with
            | none =>
              cases ht
              exact Or.inl le_rfl
            | some t' =>
              cases ht
              cases hrow : w.db.buckets k' with
              | none => exact Or.inl ((hc _ rfl hx).1 hrow _ rfl)
              | some b => exact Or.inr (parked_throttle hrow hx)
          · cases ht
        | _ => cases ht
      | _ => cases ht

/-- An acquire that is answered with a slot finds every throttle before it over. -/
theorem CooldownInv.acquired (hinv : CooldownInv k w tr)
    (h : acquired k ⟨w, c, cancelled, x⟩ = true) :
    ∀ l ∈ tr, ∀ t, throttledUntil k l = some t → t ≤ w.now + x.elapsed := by
  intro l hl t ht
  obtain ⟨-, b, hrow, hadmits⟩ := of_acquired h
  rcases hinv.cools l hl t ht with hpast | ⟨b', hb', t', ht', hle⟩
  · exact hpast.trans (Nat.le_add_right _ _)
  · rw [hrow] at hb'
    cases hb'
    have hcool := (Bool.and_eq_true_iff.mp hadmits).2
    rw [Option.mem_def.mp ht'] at hcool
    exact hle.trans (of_decide_eq_true hcool)

/-- Every call of the limiter may issue any command. -/
theorem uses_any {α : Type} (p : Program α) : p.Uses fun _ => True := by
  induction p with
  | pure a => trivial
  | call c kont ih => exact ⟨trivial, ih⟩

/-- **No acquire succeeds during a cooldown, if no throttle cuts one short.**  In every
interleaving of the calls of the limiter on a bucket in which every recorded throttle finds no
cooldown that outlasts its own, an acquire succeeds only when every throttle that was recorded
before it is over. -/
theorem no_acquire_during_cooldown {connectorID : String} {budget : RateBudget}
    {es : List (PoolEvent LimiterCall Choice)} {s : Pool World Cmd Cmd.Resp (Except Err Bool)}
    (h : (limiter k connectorID budget).RunWhere (fun s _ e => PoolMeets (lengthens k) s e)
      ⟨w, []⟩ es s tr) :
    AtEvery (fun pre l' => acquired k l' = true →
      ∀ l ∈ pre, ∀ t, throttledUntil k l = some t → t ≤ performedAt l') tr := by
  have hinv : CooldownInv k s.world tr ∧ AtEvery (fun pre l' => acquired k l' = true →
      ∀ l ∈ pre, ∀ t, throttledUntil k l = some t → t ≤ performedAt l') tr := by
    refine pool_uses (J := fun w tr => CooldownInv k w tr ∧ AtEvery (fun pre l' =>
      acquired k l' = true → ∀ l ∈ pre, ∀ t, throttledUntil k l = some t → t ≤ performedAt l') tr)
      h (fun j => uses_any _) ⟨⟨by simp, by simp⟩, atEvery_nil⟩ ?_
    intro s tr i t c kont b hC hth _ ⟨hJ, hevery⟩
    exact ⟨hJ.step (hC c kont b hth), atEvery_snoc hevery fun hacq => hJ.acquired hacq⟩
  exact hinv.2

/-! ### Two throttles -/

/-- Whether a throttle cuts no cooldown short. -/
def cutsNone (k : Scope) (x : Choice) (cancelled : Bool) (w : World) : Cmd → Bool
  | .statement (.admissionMultiplicativeDecrease k' cooldownUntil) =>
      !(decide (k' = k) && x.takesEffect cancelled) ||
        match w.db.buckets k with
        | none => cooldownUntil.all fun t => decide (t ≤ w.now + x.elapsed)
        | some b => b.cooldownUntil.all fun t => decide (t ≤ w.now + x.elapsed) ||
            cooldownUntil.any fun t' => decide (t ≤ t')
  | _ => true

theorem lengthens_of_cutsNone (h : cutsNone k x cancelled w c = true) :
    lengthens k x cancelled w c := by
  rintro cooldownUntil rfl hx
  simp only [cutsNone, hx, decide_true, Bool.and_true, Bool.not_true, Bool.false_or] at h
  refine ⟨fun hrow t ht => ?_, fun b hb t ht hlt => ?_⟩
  · rw [hrow, Option.mem_def.mp ht] at h
    exact of_decide_eq_true h
  · rw [Option.mem_def.mp hb] at h
    simp only [Option.mem_def.mp ht, Option.all_some, Bool.or_eq_true, decide_eq_true_eq] at h
    obtain ⟨t', ht', hle⟩ := (Option.any_eq_true _ _).mp (h.resolve_left (Nat.not_le.mpr hlt))
    exact ⟨t', ht', of_decide_eq_true hle⟩

/-- A call of a run, of which each command takes some time. -/
def slowCallAt (i : ℕ) (j : LimiterCall) (n : ℕ) (d : Time) : List (PoolEvent LimiterCall Choice) :=
  .start j :: List.replicate n (.turn i ⟨false, { quietly annAnswers with elapsed := d }⟩)

example : cutsNone (.tenant "acme") (quietly annAnswers) false newWorld .clock = true := by
  decide +kernel

/-- A bucket is throttled for one second and then for two; an acquire three seconds later
succeeds. -/
theorem acquire_after_cooldown : ∃ s tr,
    (limiter (.credential 0) "gdocs" newGoogleDocs.connector.rateBudget).RunWhere
      (fun s _ e => PoolMeets (lengthens (.credential 0)) s e) ⟨newWorld, []⟩
      (callAt 0 .acquire 2 ++ callAt 1 (.recordThrottle second) 2 ++
        callAt 2 (.recordThrottle (2 * second)) 2 ++ slowCallAt 3 .acquire 2 (3 * second)) s tr ∧
    tr.countP (acquired (.credential 0)) = 2 ∧
    AtEvery (fun pre l' => acquired (.credential 0) l' = true →
      ∀ l ∈ pre, ∀ t, throttledUntil (.credential 0) l = some t → t ≤ performedAt l') tr := by
  obtain ⟨s, tr, hrun, hcount⟩ := Lts.exists_runWhere_of_any
    (limiter (.credential 0) "gdocs" newGoogleDocs.connector.rateBudget)
    (fun s _ e => poolCheck (cutsNone (.credential 0)) s e) ⟨newWorld, []⟩
    (callAt 0 .acquire 2 ++ callAt 1 (.recordThrottle second) 2 ++
      callAt 2 (.recordThrottle (2 * second)) 2 ++ slowCallAt 3 .acquire 2 (3 * second))
    (fun _ tr => decide (tr.countP (acquired (.credential 0)) = 2)) (by decide +kernel)
  have hlonger : ∀ (s : Pool World Cmd Cmd.Resp (Except Err Bool))
      (_ : List (Performed World Choice Cmd)) (e : PoolEvent LimiterCall Choice),
      poolCheck (cutsNone (.credential 0)) s e = true →
      PoolMeets (lengthens (.credential 0)) s e := by
    intro s tr e he
    have hmeets := poolMeets_of_check he
    cases e with
    | start j => trivial
    | turn i t => exact fun c kont b hth => lengthens_of_cutsNone (hmeets c kont b hth)
  have hrun' := hrun.mono hlonger
  exact ⟨s, tr, hrun', of_decide_eq_true hcount, no_acquire_during_cooldown hrun'⟩

/-- **A throttle without a `Retry-After` opens a parked bucket**: one process is told to wait for a
minute, the next one is told nothing, and a third acquires a slot at once. -/
theorem throttle_reopens : ∃ s tr,
    (limiter (.credential 0) "gdocs" newGoogleDocs.connector.rateBudget).Run ⟨newWorld, []⟩
      (callAt 0 .acquire 2 ++ callAt 1 (.recordThrottle minute) 2 ++
        callAt 2 (.recordThrottle 0) 1 ++ callAt 3 .acquire 2) s tr ∧
    ¬ AtEvery (fun pre l' => acquired (.credential 0) l' = true →
      ∀ l ∈ pre, ∀ t, throttledUntil (.credential 0) l = some t → t ≤ performedAt l') tr := by
  obtain ⟨s, tr, hrun, hlast⟩ := Lts.exists_run_of_any
    (limiter (.credential 0) "gdocs" newGoogleDocs.connector.rateBudget) ⟨newWorld, []⟩
    (callAt 0 .acquire 2 ++ callAt 1 (.recordThrottle minute) 2 ++
      callAt 2 (.recordThrottle 0) 1 ++ callAt 3 .acquire 2)
    (fun _ tr => tr.getLast?.any fun l' => acquired (.credential 0) l' &&
      tr.dropLast.any fun l => (throttledUntil (.credential 0) l).any fun t =>
        decide (performedAt l' < t)) (by decide +kernel)
  refine ⟨s, tr, hrun, fun hevery => ?_⟩
  obtain ⟨l', hl', hP⟩ := (Option.any_eq_true _ _).mp hlast
  obtain ⟨hacq, hearly⟩ := Bool.and_eq_true_iff.mp hP
  obtain ⟨l, hl, hearly⟩ := List.any_eq_true.mp hearly
  obtain ⟨t, ht, hlt⟩ := (Option.any_eq_true _ _).mp hearly
  have hsplit : tr = tr.dropLast ++ l' :: [] := (List.dropLast_append_getLast? l' hl').symm
  have hle := hevery _ l' [] hsplit hacq l hl t ht
  exact Nat.not_lt.mpr hle (of_decide_eq_true hlt)

end Hivebook
