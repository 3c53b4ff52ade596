import Hivebook.Service.Visibility

/-!
# The grace before an erasure

A sweep tombstones the units a discovery no longer sees and marks their artifacts
with a deadline a grace period ahead; the outbox is to erase an artifact only after
its deadline.  `ListPurgePendingArtifacts` orders the outbox by deadline and compares
it with nothing, so a purge pass erases whatever is queued.  Objects are shared by
artifacts of equal content, so erasing one may take the bytes of another as well.

In any sequence of sweeps and maintenance passes, interrupted at any point, the grace
is kept if every listing of the outbox finds only artifacts that are due, and none
that shares its object with one that is not, and no sweep tombstones a unit with
artifacts queued before.

## Main definitions

* `due` — queued, with a deadline that has passed.
* `purgesOnlyDue` — the condition on a listing and on a sweep.
* `Erases`, `Swept`, `ErasesInGrace` — what it is to keep the grace.

## Main results

* `grace_kept` — **in every run that meets the condition, nothing is erased before its
  deadline, and no bytes of a tombstoned unit before seven days have passed.**
* `swept_and_purged_at_once` — a sweep and the next purge pass erase in one instant.
-/

namespace Hivebook

open Database Machine Storage

/-- The artifact is queued and its deadline has passed. -/
def due (now : Time) (r : RawArtifact) : Bool :=
  r.purgePending && match r.purgeDeadline with
    | some d => decide (d ≤ now)
    | none => false

/-- An artifact goes with a listed one: it is the same row, or has the same object. -/
def shares (listed r : RawArtifact) : Bool :=
  decide (r.id = listed.id) ||
    ((cut listed.objectKey).isSome && decide (cut r.objectKey = cut listed.objectKey))

/-- The artifact belongs to a unit that a sweep tombstones. -/
def sweptWith (db : Database) (connectionID : Uuid) (generation : ℤ) (r : RawArtifact) : Bool :=
  decide (r.connectionID = connectionID) && db.hasUnit connectionID
    (fun u => decide (u.generation < generation) && decide (u.status ≠ .removed)) r.syncContainerID

/-- A listing of the outbox finds only what is due, and a sweep tombstones no unit
with artifacts already queued. -/
def purgesOnlyDue (x : Choice) (cancelled : Bool) (w : World) : Cmd → Bool
  | .statement (.listPurgePendingArtifacts n) => !x.takesEffect cancelled ||
      (listPurgePendingArtifacts n w.db).all fun r₀ => w.db.artifacts.rows.all fun r =>
        !shares r₀ r || due (w.now + x.elapsed) r
  | .statement (.sweepUnseenUnits id generation) => !x.takesEffect cancelled ||
      w.db.artifacts.rows.all fun r => !sweptWith w.db id generation r || !r.purgePending
  | _ => true

/-- The command erases the bytes or the row of the artifact. -/
def Erases (l : Performed World Choice Cmd) (r : RawArtifact) : Prop :=
  tookEffect l = true ∧ match l.cmd with
    | .deleteObject bucket key => cut r.objectKey = some (bucket, key)
    | .statement (.confirmArtifactDeletes ids) => r.id ∈ ids
    | _ => False

/-- The command is a sweep that tombstones the unit of the artifact. -/
def Swept (l : Performed World Choice Cmd) (r : RawArtifact) : Prop :=
  tookEffect l = true ∧ ∃ id generation, l.cmd = .statement (.sweepUnseenUnits id generation) ∧
    r ∈ l.state.db.artifacts.rows ∧ sweptWith l.state.db id generation r = true

/-- What is erased is due, and was not tombstoned less than a grace period ago. -/
def ErasesInGrace (tr : List (Performed World Choice Cmd)) (l : Performed World Choice Cmd) :
    Prop :=
  (∀ r ∈ l.state.db.artifacts.rows, Erases l r → due (performedAt l) r = true) ∧
    ∀ a ∈ tr, ∀ r, Swept a r → Erases l r → performedAt a + purgeGrace ≤ performedAt l

/-! ### What upkeep does to a row -/

theorem due_iff {now : Time} {r : RawArtifact} : due now r = true ↔
    r.purgePending = true ∧ ∃ d, r.purgeDeadline = some d ∧ d ≤ now := by
  unfold due
  cases r.purgeDeadline <;> simp

theorem due_mono {now now' : Time} {r : RawArtifact} (h : due now r = true) (hle : now ≤ now') :
    due now' r = true := by
  obtain ⟨hp, d, hd, hdue⟩ := due_iff.mp h
  exact due_iff.mpr ⟨hp, d, hd, Nat.le_trans hdue hle⟩

/-- What becomes of a row when a command of discovery or maintenance is performed. -/
inductive Fate (g : Custody) (c : Cmd) (rows : List RawArtifact) (r : RawArtifact) : Prop
  | kept (h : r ∈ rows)
  | marked (now t : Time) (hp : r.purgePending = false) (hclock : g.clock = some t)
      (h : markPurge now (t + purgeGrace) r ∈ rows)
  | dropped (ids : List Uuid) (hc : c = .statement (.confirmArtifactDeletes ids))
      (hid : r.id ∈ ids) (hp : r.purgePending = true)

section Step

variable {x : Choice} {b : Bool} {w : World} {c : Cmd} {g : Custody}

/-- A plain command leaves the manifest alone. -/
theorem artifacts_of_plain (hc : c.plain = true) :
    (service.perform x b w c).1.db.artifacts = w.db.artifacts := by
  rw [service_db]
  cases c with
  | statement s =>
    show (if x.takesEffect b = true then _ else _ : Database).artifacts = _
    split
    · exact Statement.plain_artifacts hc _ _
    · rfl
  | _ => rfl

/-- A listing of the outbox leaves the database alone. -/
theorem db_of_listing {n : ℕ} :
    (service.perform x b w (.statement (.listPurgePendingArtifacts n))).1.db = w.db := by
  rw [service_db]
  show (if x.takesEffect b = true then _ else _) = w.db
  split <;> rfl

/-- The statements of upkeep that touch the manifest. -/
theorem upkeep_cases (hc : upkeep.allowed g c) :
    (service.perform x b w c).1.db.artifacts = w.db.artifacts ∨
      (∃ ids, c = .statement (.confirmArtifactDeletes ids) ∧ g.mayDrop ids ∧
        (service.perform x b w c).1.db.artifacts =
          (confirmArtifactDeletes ids w.db).2.artifacts) ∨
      ∃ id t, c = .statement (.markRemovedUnitArtifactsPurgePending id (t + purgeGrace)) ∧
        g.clock = some t ∧ (service.perform x b w c).1.db.artifacts =
          (markRemovedUnitArtifactsPurgePending (w.now + x.elapsed) id (t + purgeGrace)
            w.db).artifacts := by
  by_cases hplain : c.plain = true
  · exact Or.inl (artifacts_of_plain hplain)
  · rw [service_db]
    cases c with
    | statement s =>
      by_cases hx : x.takesEffect b = true
      · cases s with
        | listPurgePendingArtifacts n => exact Or.inl (by simp [hx, Statement.exec])
        | confirmArtifactDeletes ids =>
          exact Or.inr (Or.inl ⟨ids, rfl, hc, by simp [hx, Statement.exec]⟩)
        | markRemovedUnitArtifactsPurgePending id deadline =>
          obtain ⟨t, ht, rfl⟩ := hc
          exact Or.inr (Or.inr ⟨id, t, rfl, ht, by simp [hx, Statement.exec]⟩)
        | _ => exact absurd hc hplain
      · exact Or.inl (by simp [hx])
    | putObject _ _ _ _ => cases hc
    | deleteObject _ _ => exact Or.inl rfl
    | _ => exact Or.inl rfl

/-- Upkeep keeps a row, marks it with a grace after a reading of the clock, or drops
it once it is queued. -/
theorem upkeep_fate (hc : upkeep.allowed g c) {r : RawArtifact} (hr : r ∈ w.db.artifacts.rows) :
    Fate g c (service.perform x b w c).1.db.artifacts.rows r := by
  rcases upkeep_cases (x := x) (b := b) (w := w) hc with h | ⟨ids, rfl, -, h⟩ | ⟨id, t, rfl, ht, h⟩
  · rw [h]
    exact .kept hr
  · rw [h]
    by_cases hhit : (decide (r.id ∈ ids) && r.purgePending) = true
    · simp only [Bool.and_eq_true, decide_eq_true_eq] at hhit
      exact .dropped ids rfl hhit.1 hhit.2
    · exact .kept (Table.mem_delete.mpr ⟨hr, by simpa using hhit⟩)
  · rw [h]
    have hmem := List.mem_map_of_mem (f := Table.updated
      (fun r => decide (r.connectionID = id) && !r.purgePending && w.db.hasUnit id
        (fun u => decide (u.status = .removed)) r.syncContainerID)
      (markPurge (w.now + x.elapsed) (t + purgeGrace))) hr
    unfold Table.updated at hmem
    split at hmem
    · next hhit =>
      simp only [Bool.and_eq_true, Bool.not_eq_true'] at hhit
      exact .marked _ t hhit.1.2 ht hmem
    · exact .kept hmem

/-- Where a row comes from: it was there, or was there unmarked. -/
theorem upkeep_origin (hc : upkeep.allowed g c) {r' : RawArtifact}
    (hr' : r' ∈ (service.perform x b w c).1.db.artifacts.rows) :
    r' ∈ w.db.artifacts.rows ∨ ∃ r ∈ w.db.artifacts.rows, r.purgePending = false ∧
      r'.id = r.id ∧ r'.objectKey = r.objectKey := by
  rcases upkeep_cases (x := x) (b := b) (w := w) hc with h | ⟨ids, rfl, -, h⟩ | ⟨id, t, rfl, ht, h⟩
  · rw [h] at hr'
    exact Or.inl hr'
  · rw [h] at hr'
    exact Or.inl (Table.mem_delete.mp hr').1
  · rw [h] at hr'
    rcases mem_updateArtifacts hr' with hr' | ⟨r, hr, hp, rfl⟩
    · exact Or.inl hr'
    · simp only [Bool.and_eq_true, Bool.not_eq_true'] at hp
      exact Or.inr ⟨r, hr, hp.1.2, rfl, rfl⟩

end Step

/-! ### The invariant of a run -/

/-- What holds between two commands of a sequence of sweeps and passes. -/
structure GraceInv (w : World) (g : Custody) (tr : List (Performed World Choice Cmd)) : Prop where
  /-- Time has moved on. -/
  past : ∀ l ∈ tr, performedAt l ≤ w.now
  /-- A reading of the clock is later than every sweep. -/
  clock : ∀ t, g.clock = some t → t ≤ w.now ∧ ∀ l ∈ tr, ∀ r, Swept l r → performedAt l ≤ t
  /-- What was listed, and all that goes with it, is due. -/
  listed : ∀ r₀ ∈ g.listed, ∀ r ∈ w.db.artifacts.rows, shares r₀ r = true → due w.now r = true
  /-- A tombstoned artifact is past its grace, or still there and not due before. -/
  owed : ∀ l ∈ tr, ∀ r, Swept l r → performedAt l + purgeGrace ≤ w.now ∨
    ∃ r' ∈ w.db.artifacts.rows, r'.id = r.id ∧ r'.objectKey = r.objectKey ∧
      (r'.purgePending = true → ∃ d, r'.purgeDeadline = some d ∧ performedAt l + purgeGrace ≤ d)
  /-- So far the grace was kept. -/
  erased : AtEvery ErasesInGrace tr

section Invariant

variable {x : Choice} {b : Bool} {w : World} {c : Cmd} {g : Custody}
  {tr : List (Performed World Choice Cmd)}

theorem shares_congr {r₀ r r' : RawArtifact} (hid : r'.id = r.id)
    (hkey : r'.objectKey = r.objectKey) : shares r₀ r' = shares r₀ r := by
  unfold shares
  rw [hid, hkey]

/-- What a job may erase goes with something it listed. -/
theorem shares_of_erases (hc : upkeep.allowed g c) {r : RawArtifact}
    (he : Erases ⟨w, c, b, x⟩ r) : ∃ r₀ ∈ g.listed, shares r₀ r = true := by
  obtain ⟨-, he⟩ := he
  cases c with
  | deleteObject bucket key =>
    obtain ⟨r₀, hr₀, hcut⟩ := hc
    refine ⟨r₀, hr₀, ?_⟩
    have hsame : cut r.objectKey = cut r₀.objectKey := he.trans hcut.symm
    simp [shares, hsame, hcut]
  | statement s =>
    cases s with
    | confirmArtifactDeletes ids =>
      obtain ⟨r₀, hr₀, hid⟩ := hc r.id he
      exact ⟨r₀, hr₀, by simp [shares, hid]⟩
    | _ => exact he.elim
  | _ => exact he.elim

/-- Erasing depends on the id and the object only. -/
theorem Erases.congr {l : Performed World Choice Cmd} {r r' : RawArtifact} (he : Erases l r)
    (hid : r'.id = r.id) (hkey : r'.objectKey = r.objectKey) : Erases l r' := by
  unfold Erases at he ⊢
  rw [hid, hkey]
  exact he

/-- A command of upkeep erases in grace. -/
theorem GraceInv.erasesInGrace (h : GraceInv w g tr) (hc : upkeep.allowed g c) :
    ErasesInGrace tr ⟨w, c, b, x⟩ := by
  have hdue : ∀ r ∈ w.db.artifacts.rows, Erases ⟨w, c, b, x⟩ r → due w.now r = true := by
    intro r hr he
    obtain ⟨r₀, hr₀, hshares⟩ := shares_of_erases hc he
    exact h.listed r₀ hr₀ r hr hshares
  refine ⟨fun r hr he => due_mono (hdue r hr he) (Nat.le_add_right _ _), fun a ha r hswept he => ?_⟩
  show _ ≤ w.now + x.elapsed
  rcases h.owed a ha r hswept with hpast | ⟨r', hr', hid, hkey, hdeadline⟩
  · lia
  · -- the row is still there, so it is due, and its deadline leaves the grace
    obtain ⟨hp, d, hd, hle⟩ := due_iff.mp (hdue r' hr' (he.congr hid hkey))
    obtain ⟨d', hd', hgrace⟩ := hdeadline hp
    have hsame : d' = d := Option.some.inj (hd'.symm.trans hd)
    lia

theorem clock_next (x : Choice) (b : Bool) (w : World) (c : Cmd) (g : Custody) :
    (c = .clock ∧ (g.next c (service.perform x b w c).2).clock = some (w.now + x.elapsed)) ∨
      (g.next c (service.perform x b w c).2).clock = none ∨
      ((g.next c (service.perform x b w c).2).clock = g.clock ∧
        ∀ id generation, c ≠ .statement (.sweepUnseenUnits id generation)) := by
  cases c with
  | clock => exact Or.inl ⟨rfl, rfl⟩
  | statement s =>
    cases s with
    | sweepUnseenUnits id generation => exact Or.inr (Or.inl rfl)
    | listPurgePendingArtifacts n =>
      refine Or.inr (Or.inr ⟨?_, by simp⟩)
      generalize (service.perform x b w (.statement (.listPurgePendingArtifacts n))).2 = r
      cases r <;> rfl
    | _ => exact Or.inr (Or.inr ⟨rfl, by simp⟩)
  | putObject bucket key contentType body =>
    refine Or.inr (Or.inr ⟨?_, by simp⟩)
    generalize (service.perform x b w (.putObject bucket key contentType body)).2 = r
    cases r <;> rfl
  | _ => exact Or.inr (Or.inr ⟨rfl, by simp⟩)

/-- The clock: a new reading is later than everything so far, and a sweep forgets it. -/
theorem GraceInv.clock_step (h : GraceInv w g tr) (t : Time)
    (ht : (g.next c (service.perform x b w c).2).clock = some t) :
    t ≤ w.now + x.elapsed ∧
      ∀ l ∈ tr ++ [⟨w, c, b, x⟩], ∀ r, Swept l r → performedAt l ≤ t := by
  rcases clock_next x b w c g with ⟨rfl, hclock⟩ | hnone | ⟨hsame, hne⟩
  · have htime : w.now + x.elapsed = t := Option.some.inj (hclock.symm.trans ht)
    refine ⟨by lia, fun l hl r hswept => ?_⟩
    rcases List.mem_append.mp hl with hl | hl
    · have := h.past l hl
      lia
    · rw [List.mem_singleton.mp hl]
      show w.now + x.elapsed ≤ t
      lia
  · rw [hnone] at ht
    cases ht
  · rw [hsame] at ht
    obtain ⟨hle, hsweeps⟩ := h.clock t ht
    refine ⟨by lia, fun l hl r hswept => ?_⟩
    rcases List.mem_append.mp hl with hl | hl
    · exact hsweeps l hl r hswept
    · rw [List.mem_singleton.mp hl] at hswept
      obtain ⟨-, id, generation, hcmd, -⟩ := hswept
      exact absurd hcmd (hne id generation)

/-- The listing: rows that go with what was listed stay due, and a new listing finds
only rows that are. -/
theorem GraceInv.listed_step (h : GraceInv w g tr) (hc : upkeep.allowed g c)
    (hcond : purgesOnlyDue x b w c = true) :
    ∀ r₀ ∈ (g.next c (service.perform x b w c).2).listed,
      ∀ r ∈ (service.perform x b w c).1.db.artifacts.rows, shares r₀ r = true →
        due (w.now + x.elapsed) r = true := by
  intro r₀ hr₀ r hr hshares
  rcases listed_next x b w c g with hsame | ⟨n, rfl, hx, hnew⟩
  · have hr₀ := hsame r₀ hr₀
    rcases upkeep_origin hc hr with hold | ⟨r₁, hr₁, hp, hid, hkey⟩
    · exact due_mono (h.listed r₀ hr₀ r hold hshares) (Nat.le_add_right _ _)
    · -- a row that was not queued goes with nothing listed
      rw [shares_congr hid hkey] at hshares
      have hdue := (due_iff.mp (h.listed r₀ hr₀ r₁ hr₁ hshares)).1
      rw [hp] at hdue
      cases hdue
  · rw [hnew] at hr₀
    rw [db_of_listing] at hr
    simp only [purgesOnlyDue, hx, Bool.not_true, Bool.false_or, List.all_eq_true] at hcond
    have := hcond r₀ hr₀ r hr
    simpa [hshares] using this

/-- The debt: a tombstoned artifact is kept, or marked with its grace, or dropped
after it. -/
theorem GraceInv.owed_step (h : GraceInv w g tr) (hc : upkeep.allowed g c)
    (hcond : purgesOnlyDue x b w c = true) :
    ∀ l ∈ tr ++ [⟨w, c, b, x⟩], ∀ r, Swept l r → performedAt l + purgeGrace ≤ w.now + x.elapsed ∨
      ∃ r' ∈ (service.perform x b w c).1.db.artifacts.rows, r'.id = r.id ∧
        r'.objectKey = r.objectKey ∧ (r'.purgePending = true →
          ∃ d, r'.purgeDeadline = some d ∧ performedAt l + purgeGrace ≤ d) := by
  intro l hl r hswept
  rcases List.mem_append.mp hl with hl | hl
  · rcases h.owed l hl r hswept with hpast | ⟨r', hr', hid, hkey, hdeadline⟩
    · exact Or.inl (by lia)
    · cases upkeep_fate (x := x) (b := b) hc hr' with
      | kept hr'' => exact Or.inr ⟨r', hr'', hid, hkey, hdeadline⟩
      | marked now t hp hclock hr'' =>
        have hlate := (h.clock t hclock).2 l hl r hswept
        exact Or.inr ⟨_, hr'', hid, hkey, fun _ => ⟨_, rfl, by lia⟩⟩
      | dropped ids hcmd hmem hp =>
        subst hcmd
        obtain ⟨r₀, hr₀, heq⟩ := hc r'.id hmem
        have hshares : shares r₀ r' = true := by simp [shares, heq]
        obtain ⟨-, d, hd, hle⟩ := due_iff.mp (h.listed r₀ hr₀ r' hr' hshares)
        obtain ⟨d', hd', hgrace⟩ := hdeadline hp
        have hsame : d' = d := Option.some.inj (hd'.symm.trans hd)
        exact Or.inl (by lia)
  · -- the sweep just performed: by the condition its artifacts are not queued yet
    rw [List.mem_singleton.mp hl] at hswept
    obtain ⟨hx, id, generation, hcmd, hr, hwith⟩ := hswept
    have hcmd' : c = .statement (.sweepUnseenUnits id generation) := hcmd
    subst hcmd'
    have hx' : x.takesEffect b = true := hx
    simp only [purgesOnlyDue, hx', Bool.not_true, Bool.false_or, List.all_eq_true] at hcond
    have hp := hcond r hr
    refine Or.inr ⟨r, ?_, rfl, rfl, fun hpending => ?_⟩
    · rw [artifacts_of_plain rfl]
      exact hr
    · have hwith' : sweptWith w.db id generation r = true := hwith
      simp [hwith', hpending] at hp

/-- **One command keeps the invariant.** -/
theorem GraceInv.step (h : GraceInv w g tr) (hc : upkeep.allowed g c)
    (hcond : purgesOnlyDue x b w c = true) :
    GraceInv (service.perform x b w c).1 (g.next c (service.perform x b w c).2)
      (tr ++ [⟨w, c, b, x⟩]) where
  past := by
    intro l hl
    rw [service_now]
    rcases List.mem_append.mp hl with hl | hl
    · have := h.past l hl
      lia
    · rw [List.mem_singleton.mp hl]
      exact Nat.le_refl _
  clock := by
    intro t ht
    rw [service_now]
    exact h.clock_step t ht
  listed := by
    rw [service_now]
    exact h.listed_step hc hcond
  owed := by
    rw [service_now]
    exact h.owed_step hc hcond
  erased := atEvery_snoc h.erased (h.erasesInGrace hc)

end Invariant

/-- **In every sequence of sweeps and maintenance passes whose listings find only what
is due, the grace is kept**: nothing is erased before its deadline, and nothing that
a sweep tombstoned before a grace period has passed. -/
theorem grace_kept (a : Activities) {w : World} {es : List (SeqEvent Upkeep Choice)}
    {s : Sequential World Upkeep Cmd Cmd.Resp Unit} {tr : List (Performed World Choice Cmd)}
    (h : (service.sequential (Upkeep.prog a)).RunWhere
      (fun s _ => SeqMeets (fun x b w c => purgesOnlyDue x b w c = true) s) ⟨w, none⟩ es s tr) :
    AtEvery ErasesInGrace tr := by
  have hinit : GraceInv w Custody.init [] :=
    { past := by simp
      clock := by intro t ht; cases ht
      listed := by intro r₀ hr₀; cases hr₀
      owed := by simp
      erased := atEvery_nil }
  obtain ⟨g, hinv, -⟩ := sequential_follows (J := GraceInv) h (Upkeep.follows a) hinit
    (by
      intro w g tr hg
      exact
        { past := hg.past
          clock := by intro t ht; cases ht
          listed := by intro r₀ hr₀; cases hr₀
          owed := hg.owed
          erased := hg.erased })
    (by
      intro s tr t j c k b g hC hcur hallowed hg
      exact hg.step hallowed (hC j c k b hcur))
  exact hinv.erased

/-! ### Purge passes -/

/-- Turns of the running job in which nothing fails and no time passes. -/
def quietSteps (n : ℕ) : List (SeqEvent Upkeep Choice) :=
  List.replicate n (.turn ⟨false, quietly annAnswers⟩)

/-- A document queued with a deadline of one nanosecond, five nanoseconds in. -/
def overdueWorld : World :=
  { db := markConnectionArtifactsPurgePending 1 0 "acme" syncedDatabase
    objects := fun _ => none, now := 5 }

/-- A purge pass over what is overdue keeps the grace. -/
theorem overdue_purge_in_grace :
    ∃ s tr, (service.sequential (Upkeep.prog driveActivities)).RunWhere
        (fun s _ => SeqMeets (fun x b w c => purgesOnlyDue x b w c = true) s)
        ⟨overdueWorld, none⟩ (.start (.purgeArtifacts 0) :: quietSteps 3) s tr ∧
      s.world.db.artifacts.rows = [] ∧ AtEvery ErasesInGrace tr := by
  obtain ⟨s, tr, hrun, hend⟩ := Lts.exists_runWhere_of_any
    (service.sequential (Upkeep.prog driveActivities)) (fun s _ => seqCheck purgesOnlyDue s)
    ⟨overdueWorld, none⟩ (.start (.purgeArtifacts 0) :: quietSteps 3)
    (fun s _ => s.world.db.artifacts.rows.isEmpty) (by decide +kernel)
  have hmeets : (service.sequential (Upkeep.prog driveActivities)).RunWhere
      (fun s _ => SeqMeets (fun x b w c => purgesOnlyDue x b w c = true) s)
      ⟨overdueWorld, none⟩ (.start (.purgeArtifacts 0) :: quietSteps 3) s tr :=
    hrun.mono fun _ _ _ hc => seqMeets_of_check hc
  exact ⟨s, tr, hmeets, by simpa using hend, grace_kept driveActivities hmeets⟩

/-- A document of a unit that the Drive no longer has. -/
def goneWorld : World :=
  { db := commitArtifact 0 { emptyDoc "doc" with syncContainerID := "old" } "old" none
      (upsertSyncUnit 0 0 "old" "Old" "google_drive" 1 driveDatabase)
    objects := fun _ => none, now := 5 }

/-- A discovery pass, and the next purge pass. -/
def sweepAndPurge : List (SeqEvent Upkeep Choice) :=
  .start (.discoverUnits 0) :: quietSteps 9 ++ .start (.purgeArtifacts 0) :: quietSteps 3

/-- The command erases an artifact that is not due. -/
def erasesEarly (l : Performed World Choice Cmd) : Bool :=
  tookEffect l && match l.cmd with
    | .deleteObject bucket key => l.state.db.artifacts.rows.any fun r =>
        decide (cut r.objectKey = some (bucket, key)) && !due (performedAt l) r
    | _ => false

theorem not_erasesInGrace {tr : List (Performed World Choice Cmd)}
    (h : tr.any erasesEarly = true) : ¬ AtEvery ErasesInGrace tr := by
  intro hgrace
  obtain ⟨l, hl, hearly⟩ := List.any_eq_true.mp h
  obtain ⟨pre, post, heq⟩ := List.append_of_mem hl
  have hdue := (hgrace pre l post heq).1
  unfold erasesEarly at hearly
  rw [Bool.and_eq_true] at hearly
  obtain ⟨heffect, hearly⟩ := hearly
  split at hearly
  · next bucket key hcmd =>
    obtain ⟨r, hr, hbad⟩ := List.any_eq_true.mp hearly
    simp only [Bool.and_eq_true, decide_eq_true_eq, Bool.not_eq_true'] at hbad
    have herases : Erases l r := by
      refine ⟨heffect, ?_⟩
      rw [hcmd]
      exact hbad.1
    rw [hdue r hr herases] at hbad
    cases hbad.2
  · cases hearly

-- no erasure, no early erasure
example : ([] : List (Performed World Choice Cmd)).any erasesEarly = false := by
  decide +kernel

/-- **A sweep and the next purge pass erase in one instant**: the unit is tombstoned,
its document marked with a grace of seven days, and object and row are gone. -/
theorem swept_and_purged_at_once :
    ∃ s tr, (service.sequential (Upkeep.prog driveActivities)).Run ⟨goneWorld, none⟩
        sweepAndPurge s tr ∧
      ¬ AtEvery ErasesInGrace tr ∧ goneWorld.db.artifacts.rows.length = 1 ∧
      s.world.db.artifacts.rows = [] ∧ s.world.now = goneWorld.now := by
  obtain ⟨s, tr, hrun, hend⟩ := Lts.exists_run_of_any
    (service.sequential (Upkeep.prog driveActivities)) ⟨goneWorld, none⟩ sweepAndPurge
    (fun s tr => tr.any erasesEarly && s.world.db.artifacts.rows.isEmpty &&
      decide (s.world.now = goneWorld.now)) (by decide +kernel)
  simp only [Bool.and_eq_true, decide_eq_true_eq, List.isEmpty_iff] at hend
  exact ⟨s, tr, hrun, not_erasesInGrace hend.1.1, by decide +kernel, hend.1.2, hend.2⟩

end Hivebook
