import Hivebook.Service.Overlap

/-!
# A discovery that is interrupted and tried again

The sweep of a pass and the mark of the swept units' artifacts are two statements, and the
second is issued only if the first has hit a row.  A pass that is interrupted between the
two leaves tombstones whose artifacts are not marked, and the next pass finds nothing to
sweep and marks nothing.

## Main definitions

* `Database.doomed db id ids x` — the units a pass that lists `ids` leaves as tombstones;
  `Database.unseen db id ids x` — those of them that are still live.
* `Database.removedMarked db id` — every artifact of a tombstone is owed an erasure, and
  hidden.
* `PassProgress id ids db db' swept marked` — how far an interrupted pass has come.

## Main results

* `progress_of_stops` — wherever a pass is interrupted, it has come to one of three points.
* `removedMarked_iff` — what a completed pass marks.
* `retry_marks_iff` — **a pass that is interrupted and tried again marks the artifacts of
  the removed units if and only if it has a unit to sweep and was not interrupted between
  the sweep and the mark, or they were all marked before.**
-/

namespace Hivebook

open Database Machine Connectors

namespace Database

variable (db : Database) (id : Uuid) (ids : List String)

/-- The live units that a listing does not show. -/
def unseen (x : String) : Prop := db.hasLiveUnit id x ∧ x ∉ ids

/-- The units that a pass with this listing leaves as tombstones. -/
def doomed (x : String) : Prop := db.hasTombstone id x ∨ db.unseen id ids x

/-- Every artifact of these units is owed an erasure. -/
def allOwed (S : String → Prop) : Prop :=
  ∀ r ∈ db.artifacts.rows, r.connectionID = id → S r.syncContainerID → r.purgePending = true

/-- The artifacts of these units that are owed an erasure are hidden. -/
def owedHidden (S : String → Prop) : Prop :=
  ∀ r ∈ db.artifacts.rows, r.connectionID = id → S r.syncContainerID → r.purgePending = true →
    r.deletedAt.isSome = true

/-- Every artifact of a tombstone is owed an erasure, and hidden. -/
def removedMarked : Prop :=
  ∀ r ∈ db.artifacts.rows, r.connectionID = id → db.hasTombstone id r.syncContainerID →
    r.purgePending = true ∧ r.deletedAt.isSome = true

end Database

/-- The sweep of a pass. -/
def Cmd.isSweep : Cmd → Bool
  | .statement (.sweepUnseenUnits _ _) => true
  | _ => false

/-- The mark of the artifacts of the removed units. -/
def Cmd.isMark : Cmd → Bool
  | .statement (.markRemovedUnitArtifactsPurgePending _ _) => true
  | _ => false

/-- The sweep is among the commands, and took effect. -/
def sweptIn (ls : List (Performed World Choice Cmd)) : Bool :=
  ls.any fun l => tookEffect l && l.cmd.isSweep

/-- The mark is among the commands, and took effect. -/
def markedIn (ls : List (Performed World Choice Cmd)) : Bool :=
  ls.any fun l => tookEffect l && l.cmd.isMark

/-! ### What a mark does to the artifacts -/

section Tables

variable {db db' : Database} {id : Uuid} {ids : List String} {S T : String → Prop}

theorem allOwed_congr (hart : db'.artifacts = db.artifacts) (hS : ∀ x, S x ↔ T x) :
    db'.allOwed id S ↔ db.allOwed id T := by
  unfold Database.allOwed
  simp only [hart, hS]

theorem owedHidden_congr (hart : db'.artifacts = db.artifacts) (hS : ∀ x, S x ↔ T x) :
    db'.owedHidden id S ↔ db.owedHidden id T := by
  unfold Database.owedHidden
  simp only [hart, hS]

theorem removedMarked_iff_owed (hS : ∀ x, db.hasTombstone id x ↔ S x) :
    db.removedMarked id ↔ db.allOwed id S ∧ db.owedHidden id S := by
  constructor
  · intro h
    exact ⟨fun r hr hid hx => (h r hr hid ((hS _).mpr hx)).1,
      fun r hr hid hx _ => (h r hr hid ((hS _).mpr hx)).2⟩
  · intro h r hr hid hx
    have howed := h.1 r hr hid ((hS _).mp hx)
    exact ⟨howed, h.2 r hr hid ((hS _).mp hx) howed⟩

/-- A tombstone, as the mark finds it. -/
theorem hasUnit_removed_iff {x : String} :
    db.hasUnit id (fun u => decide (u.status = .removed)) x = true ↔ db.hasTombstone id x := by
  rw [hasTombstone_iff]
  simp only [Database.hasUnit, List.any_eq_true, Bool.and_eq_true, is_iff, decide_eq_true_eq]

/-- **The mark**: the artifacts of the tombstones are all owed an erasure afterwards, and it
hides none of those that were owed one before. -/
theorem marked_artifacts (now deadline : Time) (hS : ∀ x, db.hasTombstone id x ↔ S x) :
    (markRemovedUnitArtifactsPurgePending now id deadline db).allOwed id S ∧
      ((markRemovedUnitArtifactsPurgePending now id deadline db).owedHidden id S ↔
        db.owedHidden id S) := by
  have hmem : ∀ r, r ∈ (markRemovedUnitArtifactsPurgePending now id deadline db).artifacts.rows ↔
      ∃ r₀ ∈ db.artifacts.rows, Table.updated (fun r => decide (r.connectionID = id) &&
        !r.purgePending && db.hasUnit id (fun u => decide (u.status = .removed)) r.syncContainerID)
        (markPurge now deadline) r₀ = r := fun r => List.mem_map
  refine ⟨?_, ?_, ?_⟩
  · intro r hr hid hx
    obtain ⟨r₀, hr₀, rfl⟩ := (hmem r).mp hr
    unfold Table.updated at hid hx ⊢
    split at hid
    · next hp =>
      rw [if_pos hp]
      rfl
    · next hp =>
      rw [if_neg hp] at hx ⊢
      have hunit := hasUnit_removed_iff.mpr ((hS _).mpr hx)
      simpa [hid, hunit] using hp
  · intro h r₀ hr₀ hid hx howed
    have hkept : Table.updated (fun r => decide (r.connectionID = id) && !r.purgePending &&
        db.hasUnit id (fun u => decide (u.status = .removed)) r.syncContainerID)
        (markPurge now deadline) r₀ = r₀ := by
      unfold Table.updated
      rw [if_neg (by simp [howed])]
    exact h r₀ ((hmem r₀).mpr ⟨r₀, hr₀, hkept⟩) hid hx howed
  · intro h r hr hid hx howed
    obtain ⟨r₀, hr₀, rfl⟩ := (hmem r).mp hr
    unfold Table.updated at hid hx howed ⊢
    split at hid
    · next hp =>
      rw [if_pos hp]
      rfl
    · next hp =>
      rw [if_neg hp] at hx howed ⊢
      exact h r₀ hr₀ hid hx howed

end Tables

/-! ### How far a pass has come -/

/-- How far a pass that lists `ids` has come from `db` to `db'`: whether its sweep has taken
effect, and whether its mark has. -/
inductive PassProgress (id : Uuid) (ids : List String) (db db' : Database) : Bool → Bool → Prop
  | unswept (hdoomed : ∀ x, db'.doomed id ids x ↔ db.doomed id ids x)
      (hunseen : ∀ x, db'.unseen id ids x ↔ db.unseen id ids x)
      (hart : db'.artifacts = db.artifacts) : PassProgress id ids db db' false false
  | swept (hremoved : ∀ x, db'.hasTombstone id x ↔ db.doomed id ids x)
      (hnone : ∀ x, ¬ db'.unseen id ids x)
      (hart : db'.artifacts = db.artifacts) : PassProgress id ids db db' true false
  | marked (hremoved : ∀ x, db'.hasTombstone id x ↔ db.doomed id ids x)
      (hnone : ∀ x, ¬ db'.unseen id ids x) (hsome : ∃ x, db.unseen id ids x)
      (howed : db'.allOwed id (db.doomed id ids))
      (hhidden : db'.owedHidden id (db.doomed id ids) ↔ db.owedHidden id (db.doomed id ids)) :
      PassProgress id ids db db' true true

section Catalog

variable {db db₁ db₂ : Database} {id : Uuid} {ids : List String} {swept marked : Bool}

theorem hasTombstone_congr (h : ∀ x, db₂.entry id x = db₁.entry id x) (x : String) :
    db₂.hasTombstone id x ↔ db₁.hasTombstone id x := by
  unfold Database.hasTombstone
  rw [h]

theorem unseen_congr (h : ∀ x, db₂.entry id x = db₁.entry id x) (x : String) :
    db₂.unseen id ids x ↔ db₁.unseen id ids x := by
  unfold Database.unseen Database.hasLiveUnit
  rw [h]

theorem doomed_congr (h : ∀ x, db₂.entry id x = db₁.entry id x) (x : String) :
    db₂.doomed id ids x ↔ db₁.doomed id ids x :=
  or_congr (hasTombstone_congr h x) (unseen_congr h x)

/-- A pass that has done nothing. -/
theorem PassProgress.refl (id : Uuid) (ids : List String) (db : Database) :
    PassProgress id ids db db false false := .unswept (fun _ => Iff.rfl) (fun _ => Iff.rfl) rfl

/-- What touches neither the catalog nor an artifact leaves a pass where it is. -/
theorem PassProgress.same (h : PassProgress id ids db db₁ swept marked)
    (hentry : ∀ x, db₂.entry id x = db₁.entry id x) (hart : db₂.artifacts = db₁.artifacts) :
    PassProgress id ids db db₂ swept marked := by
  cases h with
  | unswept hdoomed hunseen hart₁ =>
    exact .unswept (fun x => (doomed_congr hentry x).trans (hdoomed x))
      (fun x => (unseen_congr hentry x).trans (hunseen x)) (hart.trans hart₁)
  | swept hremoved hnone hart₁ =>
    exact .swept (fun x => (hasTombstone_congr hentry x).trans (hremoved x))
      (fun x hx => hnone x ((unseen_congr hentry x).mp hx)) (hart.trans hart₁)
  | marked hremoved hnone hsome howed hhidden =>
    exact .marked (fun x => (hasTombstone_congr hentry x).trans (hremoved x))
      (fun x hx => hnone x ((unseen_congr hentry x).mp hx)) hsome
      ((allOwed_congr hart fun _ => Iff.rfl).mpr howed)
      ((owedHidden_congr hart fun _ => Iff.rfl).trans hhidden)

/-- A mark of a listed unit dooms no unit and saves none. -/
theorem PassProgress.upsert (h : PassProgress id ids db db₁ false false) (now : Time) {y : String}
    (hy : y ∈ ids) (name kind : String) (g : ℤ) :
    PassProgress id ids db (upsertSyncUnit now id y name kind g db₁) false false := by
  cases h with
  | unswept hdoomed hunseen hart =>
    have hremoved : ∀ x, (upsertSyncUnit now id y name kind g db₁).hasTombstone id x ↔
        db₁.hasTombstone id x := by
      intro x
      unfold Database.hasTombstone
      rw [entry_upsertSyncUnit]
      split
      · cases db₁.entry id x with
        | none => simp
        | some e => simp [Prod.ext_iff]
      · rfl
    have hkept : ∀ x, (upsertSyncUnit now id y name kind g db₁).unseen id ids x ↔
        db₁.unseen id ids x := by
      intro x
      refine and_congr_left fun hx => ?_
      have hne : (id, y) ≠ (id, x) := fun heq => hx ((Prod.mk.inj heq).2 ▸ hy)
      unfold Database.hasLiveUnit
      rw [entry_upsertSyncUnit, if_neg hne]
    exact .unswept (fun x => (or_congr (hremoved x) (hkept x)).trans (hdoomed x))
      (fun x => (hkept x).trans (hunseen x)) hart

/-- Every listed unit has the generation of the pass, and it is later than any before. -/
structure Stamped (id : Uuid) (ids : List String) (g : ℤ) (db db₁ : Database) : Prop where
  later : ∀ x st g', db.entry id x = some (st, g') → g' < g
  entry : ∀ x, db₁.entry id x = if x ∈ ids then
    some (((db.entry id x).map Prod.fst).getD .idle, g) else db.entry id x

variable {g : ℤ}

/-- **The sweep tombstones the doomed units**, and leaves none unseen. -/
theorem Stamped.sweep (h : Stamped id ids g db db₁) (now : Time) :
    (∀ x, (sweepUnseenUnits now id g db₁).2.hasTombstone id x ↔ db.doomed id ids x) ∧
      ∀ x, ¬ (sweepUnseenUnits now id g db₁).2.unseen id ids x := by
  have hentry : ∀ x, (sweepUnseenUnits now id g db₁).2.entry id x = if x ∈ ids then
      some (((db.entry id x).map Prod.fst).getD .idle, g)
      else (db.entry id x).map fun e => (.removed, e.2) := by
    intro x
    rw [entry_sweepUnseenUnits, h.entry]
    split
    · simp
    · refine Option.map_congr fun e he => ?_
      rw [if_pos ⟨rfl, h.later x e.1 e.2 he⟩]
  constructor
  · intro x
    unfold Database.doomed Database.unseen Database.hasTombstone Database.hasLiveUnit
    rw [hentry]
    by_cases hx : x ∈ ids
    · rw [if_pos hx]
      cases db.entry id x with
      | none => simp
      | some e => simp [hx, Prod.ext_iff]
    · rw [if_neg hx]
      cases db.entry id x with
      | none => simp
      | some e =>
        obtain ⟨st, g'⟩ := e
        by_cases hst : st = .removed
        · simp [hst]
        · simp [hst, hx]
  · rintro x ⟨⟨st, g', heq, hst⟩, hx⟩
    rw [hentry, if_neg hx, Option.map_eq_some_iff] at heq
    obtain ⟨e, -, heq⟩ := heq
    cases heq
    exact hst rfl

/-- The sweep hits a row if and only if some unit is unseen. -/
theorem Stamped.sweep_pos (h : Stamped id ids g db db₁) (now : Time) :
    0 < (sweepUnseenUnits now id g db₁).1 ↔ ∃ x, db.unseen id ids x := by
  have hhit : 0 < (sweepUnseenUnits now id g db₁).1 ↔
      ∃ x st g', db₁.entry id x = some (st, g') ∧ g' < g ∧ st ≠ .removed := by
    unfold sweepUnseenUnits
    simp only [List.countP_pos_iff, Bool.and_eq_true, decide_eq_true_eq]
    constructor
    · rintro ⟨u, hu, ⟨hid, hg⟩, hst⟩
      refine ⟨u.externalID, u.status, u.generation, ?_, hg, hst⟩
      exact entry_eq_some.mpr ⟨u, hu, by rw [SyncUnit.key, hid], rfl, rfl⟩
    · rintro ⟨x, st, g', heq, hg, hst⟩
      obtain ⟨u, hu, hkey, rfl, rfl⟩ := entry_eq_some.mp heq
      exact ⟨u, hu, ⟨congrArg Prod.fst hkey, hg⟩, hst⟩
  rw [hhit]
  constructor
  · rintro ⟨x, st, g', heq, hg, hst⟩
    rw [h.entry] at heq
    by_cases hx : x ∈ ids
    · -- a listed unit is of the generation of the pass
      rw [if_pos hx] at heq
      cases heq
      exact absurd hg (lt_irrefl g)
    · rw [if_neg hx] at heq
      exact ⟨x, ⟨st, g', heq, hst⟩, hx⟩
  · rintro ⟨x, ⟨st, g', heq, hst⟩, hx⟩
    refine ⟨x, st, g', ?_, h.later x st g' heq, hst⟩
    rw [h.entry, if_neg hx, heq]

end Catalog

/-! ### The commands beside the sweep and the marks -/

theorem not_isSweep_of_incidental {c : Cmd} (h : c.incidental = true) : c.isSweep = false := by
  cases c with
  | statement s => cases s <;> first | rfl | cases h
  | _ => rfl

theorem not_isMark_of_incidental {c : Cmd} (h : c.incidental = true) : c.isMark = false := by
  cases c with
  | statement s => cases s <;> first | rfl | cases h
  | _ => rfl

section Run

variable {α : Type} {p : Program α} {b b' : Bool} {w w' : World}
  {ls : List (Performed World Choice Cmd)} {id : Uuid} {ids : List String}

/-- Commands that are neither a sweep nor a mark. -/
theorem flags_eq_false (h : ∀ l ∈ ls, l.cmd.isSweep = false ∧ l.cmd.isMark = false) :
    sweptIn ls = false ∧ markedIn ls = false := by
  unfold sweptIn markedIn
  simp only [List.any_eq_false]
  constructor
  · intro l hl
    simp [(h l hl).1]
  · intro l hl
    simp [(h l hl).2]

theorem sweptIn_append (ls ls' : List (Performed World Choice Cmd)) :
    sweptIn (ls ++ ls') = (sweptIn ls || sweptIn ls') := List.any_append

theorem markedIn_append (ls ls' : List (Performed World Choice Cmd)) :
    markedIn (ls ++ ls') = (markedIn ls || markedIn ls') := List.any_append

/-- **An incidental program leaves a pass where it is**, wherever it is stopped. -/
theorem Incidental.stops (hp : Incidental p) (id : Uuid) (h : service.Stops p b w ls b' w') :
    (∀ x, w'.db.entry id x = w.db.entry id x) ∧ w'.db.artifacts = w.db.artifacts ∧
      sweptIn ls = false ∧ markedIn ls = false := by
  have hkept : (∀ x, w'.db.entry id x = w.db.entry id x) ∧ w'.db.artifacts = w.db.artifacts := by
    refine h.keeps (K := fun w₁ => (∀ x, w₁.db.entry id x = w.db.entry id x) ∧
      w₁.db.artifacts = w.db.artifacts) (hp.mono fun c hc x b w₁ heq => ?_) ⟨fun _ => rfl, rfl⟩
    obtain ⟨hplain, hcatalog⟩ := Bool.and_eq_true_iff.mp hc
    refine ⟨fun y => ?_, ?_⟩
    · rw [entry_perform hcatalog, heq.1]
    · rw [artifacts_perform hplain, heq.2]
  have hflags := flags_eq_false fun l hl => (⟨not_isSweep_of_incidental (h.forall_cmd hp l hl),
    not_isMark_of_incidental (h.forall_cmd hp l hl)⟩ : _ ∧ _)
  exact ⟨hkept.1, hkept.2, hflags.1, hflags.2⟩

/-- The mark loop sweeps nothing, wherever it is stopped. -/
theorem progress_of_markUnits {conn : Connection} {g : ℤ} {us : List SourceUnit} {db : Database}
    (hstart : PassProgress conn.id (us.map SourceUnit.id) db w.db false false)
    (h : service.Stops (Activities.markUnits conn g us) b w ls b' w') :
    PassProgress conn.id (us.map SourceUnit.id) db w'.db false false ∧
      sweptIn ls = false ∧ markedIn ls = false := by
  have hp := uses_markUnits conn g us
  refine ⟨h.keeps (K := fun w₁ => PassProgress conn.id (us.map SourceUnit.id) db w₁.db false false)
    (hp.mono fun c hc x b w₁ hK => ?_) hstart, flags_eq_false fun l hl => ?_⟩
  · obtain ⟨u, hu, rfl⟩ := hc
    rw [service_db]
    show PassProgress _ _ _ (if x.takesEffect b = true then _ else _) _ _
    split
    · exact hK.upsert _ (List.mem_map_of_mem hu) _ _ _
    · exact hK
  · obtain ⟨u, -, hc⟩ := h.forall_cmd hp l hl
    rw [hc]
    exact ⟨rfl, rfl⟩

variable {swept marked : Bool} {db : Database}

/-- What follows the sweep or the mark leaves a pass where it is. -/
theorem PassProgress.incidental (hP : PassProgress id ids db w.db swept marked) (hp : Incidental p)
    (h : service.Stops p b w ls b' w') : PassProgress id ids db w'.db swept marked ∧
      sweptIn ls = false ∧ markedIn ls = false := by
  obtain ⟨hentry, hart, hflags⟩ := hp.stops id h
  exact ⟨hP.same hentry hart, hflags⟩

/-- **The mark of a pass that has swept.** -/
theorem progress_of_mark {deadline : Time}
    {f : Except Err (Statement.markRemovedUnitArtifactsPurgePending id deadline).Reply → Program α}
    (hP : PassProgress id ids db w.db true false) (hsome : ∃ x, db.unseen id ids x)
    (hf : ∀ r, Incidental (f r))
    (h : service.Stops ((statement (.markRemovedUnitArtifactsPurgePending id deadline)).bind f)
      b w ls b' w') : PassProgress id ids db w'.db true (markedIn ls) ∧ sweptIn ls = false := by
  rcases stops_statement h with ⟨rfl, rfl⟩ | ⟨x, b₁, reply, ls₁, -, rfl, hrest⟩
  · exact ⟨hP, rfl⟩
  · by_cases heff : x.takesEffect b₁ = true
    · have hdb : (service.perform x b₁ w (.statement (.markRemovedUnitArtifactsPurgePending id
          deadline))).1.db =
          markRemovedUnitArtifactsPurgePending (w.now + x.elapsed) id deadline w.db := by
        rw [service_db]
        exact if_pos heff
      have hmarked : PassProgress id ids db (service.perform x b₁ w (.statement
          (.markRemovedUnitArtifactsPurgePending id deadline))).1.db true true := by
        rw [hdb]
        cases hP with
        | swept hremoved hnone hart =>
          obtain ⟨howed, hhidden⟩ := marked_artifacts (w.now + x.elapsed) deadline hremoved
          exact .marked hremoved hnone hsome howed
            (hhidden.trans (owedHidden_congr hart fun _ => Iff.rfl))
      obtain ⟨hend, hswept, -⟩ := hmarked.incidental (hf reply) hrest
      have hflag : markedIn (⟨w, .statement (.markRemovedUnitArtifactsPurgePending id deadline), b₁,
          x⟩ :: ls₁) = true := by
        simp [markedIn, tookEffect, heff, Cmd.isMark]
      rw [hflag]
      exact ⟨hend, by simpa [sweptIn, Cmd.isSweep] using hswept⟩
    · have hdb : (service.perform x b₁ w (.statement (.markRemovedUnitArtifactsPurgePending id
          deadline))).1.db = w.db := by
        rw [service_db]
        exact if_neg heff
      obtain ⟨hend, hswept, hmarked⟩ := PassProgress.incidental (hdb.symm ▸ hP) (hf reply) hrest
      have hflag : markedIn (⟨w, .statement (.markRemovedUnitArtifactsPurgePending id deadline), b₁,
          x⟩ :: ls₁) = false := by
        simpa [markedIn, tookEffect, heff] using hmarked
      rw [hflag]
      exact ⟨hend, by simpa [sweptIn, Cmd.isSweep] using hswept⟩

/-- **The sweep and the mark of a pass**, wherever it is stopped. -/
theorem progress_of_sweep {conn : Connection} {connector : Connector} {units : List SourceUnit}
    {g : ℤ} (hst : Stamped conn.id ids g db w.db)
    (hP : PassProgress conn.id ids db w.db false false)
    (h : service.Stops (Activities.sweep conn connector units g) b w ls b' w') :
    PassProgress conn.id ids db w'.db (sweptIn ls) (markedIn ls) := by
  rcases stops_statement h with ⟨rfl, rfl⟩ | ⟨x, b₁, reply, ls₁, hreply, rfl, hrest⟩
  · exact hP
  have hmarkedIn : markedIn (⟨w, .statement (.sweepUnseenUnits conn.id g), b₁, x⟩ :: ls₁) =
      markedIn ls₁ := by
    simp [markedIn, Cmd.isMark]
  by_cases heff : x.takesEffect b₁ = true
  · have hdb : (service.perform x b₁ w (.statement (.sweepUnseenUnits conn.id g))).1.db =
        (sweepUnseenUnits (w.now + x.elapsed) conn.id g w.db).2 := by
      rw [service_db]
      exact if_pos heff
    have hswept : PassProgress conn.id ids db
        (service.perform x b₁ w (.statement (.sweepUnseenUnits conn.id g))).1.db true false := by
      obtain ⟨hremoved, hnone⟩ := hst.sweep (w.now + x.elapsed)
      cases hP with
      | unswept _ _ hart =>
        rw [hdb]
        exact .swept hremoved hnone hart
    have hsweptIn : sweptIn (⟨w, .statement (.sweepUnseenUnits conn.id g), b₁, x⟩ :: ls₁) =
        true := by
      simp [sweptIn, tookEffect, heff, Cmd.isSweep]
    rw [hsweptIn, hmarkedIn]
    cases reply with
    | error e =>
      obtain ⟨hend, -, hmarked⟩ := hswept.incidental (incidental_pure _) hrest
      rw [hmarked]
      exact hend
    | ok n =>
      dsimp only at hrest
      split at hrest
      · next hpos =>
        -- the number of rows hit is the sweep's own answer
        obtain ⟨-, hn⟩ := of_reply_eq_ok hreply
        cases hn
        have hsome := (hst.sweep_pos (w.now + x.elapsed)).mp hpos
        rcases hrest.of_call with ⟨rfl, rfl⟩ | ⟨t, ls₂, rfl, hmark⟩
        · exact hswept
        · have hclock : PassProgress conn.id ids db (service.perform t.choice (b₁ || t.cancel)
              (service.perform x b₁ w (.statement (.sweepUnseenUnits conn.id g))).1 .clock).1.db
              true false := by
            rw [service_db]
            exact hswept
          have hend := (progress_of_mark hclock hsome (fun r => by
            split
            · exact incidental_pure _
            · exact incidental_finishDiscovery _ _ _ _) hmark).1
          simpa [markedIn, Cmd.isMark] using hend
      · obtain ⟨hend, -, hmarked⟩ :=
          hswept.incidental (incidental_finishDiscovery _ _ _ _) hrest
        rw [hmarked]
        exact hend
  · have hdb : (service.perform x b₁ w (.statement (.sweepUnseenUnits conn.id g))).1.db =
        w.db := by
      rw [service_db]
      exact if_neg heff
    -- a statement without effect is answered by an error
    obtain ⟨e, he⟩ := reply_error_of_not_takesEffect (by simpa using heff)
      ((Statement.sweepUnseenUnits conn.id g).exec (w.now + x.elapsed) w.db).1
    rw [hreply] at he
    subst he
    obtain ⟨hend, hswept, hmarked⟩ :=
      PassProgress.incidental (hdb.symm ▸ hP) (incidental_pure _) hrest
    have hsweptIn : sweptIn (⟨w, .statement (.sweepUnseenUnits conn.id g), b₁, x⟩ :: ls₁) =
        false := by
      simpa [sweptIn, tookEffect, heff] using hswept
    rw [hsweptIn, hmarkedIn, hmarked]
    exact hend

/-! ### A whole pass -/

variable {a : Activities} {l : Listing} {res : DiscoverResult}

/-- The marks of a pass stamp the units it has listed. -/
theorem stamped_of_markUnits {w₁ : World} {ls₁ ls₂ : List (Performed World Choice Cmd)}
    {b₀ b₁ : Bool} (hlist : service.Returns (a.listUnits id) b₀ w ls₁ (.ok l) b₁ w₁)
    (hmark : service.Returns (Activities.markUnits l.conn l.generation l.units) b₁ w₁ ls₂ (.ok ())
      b' w') : Stamped l.conn.id l.ids l.generation w.db w'.db := by
  have hid := id_of_listUnits hlist.log
  obtain ⟨hlater, hsame⟩ := listUnits_spec hlist
  rw [hid]
  refine ⟨hlater, fun x => ?_⟩
  have hx := markUnits_spec hmark x
  rw [hid, hsame] at hx
  exact hx

/-- **Wherever a pass is stopped**, it has come to one of three points. -/
theorem progress_of_stops (h : service.Stops (a.discoverUnits id) b w ls b' w')
    (hids : ∀ l, UnitsListed a id ls l → l.ids = ids) :
    PassProgress id ids w.db w'.db (sweptIn ls) (markedIn ls) := by
  rw [discoverUnits_eq] at h
  rcases h.of_bind with h | ⟨r, b₁, w₁, ls₁, ls₂, rfl, hlist, hrest⟩
  · obtain ⟨hend, hswept, hmarked⟩ :=
      (PassProgress.refl id ids w.db).incidental (incidental_listUnits a id) h
    rw [hswept, hmarked]
    exact hend
  · obtain ⟨hlisted, hswept₁, hmarked₁⟩ :=
      (PassProgress.refl id ids w.db).incidental (incidental_listUnits a id) hlist.stops
    rw [sweptIn_append, markedIn_append, hswept₁, hmarked₁, Bool.false_or, Bool.false_or]
    cases r with
    | error e =>
      obtain ⟨hend, hswept, hmarked⟩ := hlisted.incidental (incidental_pure _) hrest
      rw [hswept, hmarked]
      exact hend
    | ok l =>
      have hid := id_of_listUnits hlist.log
      obtain rfl := hids l ⟨ls₁, List.prefix_append _ _, hlist.log⟩
      rw [← hid] at hlisted ⊢
      rcases hrest.of_bind with hrest | ⟨r, b₂, w₂, ls₃, ls₄, rfl, hmark, hrest⟩
      · obtain ⟨hend, hswept, hmarked⟩ := progress_of_markUnits hlisted hrest
        rw [hswept, hmarked]
        exact hend
      · obtain ⟨hmarks, hswept₃, hmarked₃⟩ := progress_of_markUnits hlisted hmark.stops
        -- all units are marked, and nothing is swept yet
        rw [sweptIn_append, markedIn_append, hswept₃, hmarked₃, Bool.false_or, Bool.false_or]
        cases r with
        | error e =>
          obtain ⟨hend, hswept, hmarked⟩ := hmarks.incidental (incidental_pure _) hrest
          rw [hswept, hmarked]
          exact hend
        | ok _ =>
          dsimp only at hrest
          split at hrest
          · obtain ⟨hend, hswept, hmarked⟩ :=
              hmarks.incidental (incidental_skipSweep _ _ _) hrest
            rw [hswept, hmarked]
            exact hend
          · exact progress_of_sweep (stamped_of_markUnits hlist hmark) hmarks hrest

/-- A completed healthy pass has swept, and it has marked if there was a unit to sweep. -/
theorem flags_of_returns (h : service.Returns (a.discoverUnits id) b w ls (.ok res) b' w')
    (hl : UnitsListed a id ls l) (hres : res.degraded = false) :
    sweptIn ls = true ∧ ((∃ x, w.db.unseen id l.ids x) → markedIn ls = true) := by
  obtain ⟨l', b₁, w₁, ls₁, ls₂, rfl, hlist, hrest⟩ := of_discoverUnits h
  obtain ⟨ls', hpre, hlog⟩ := hl
  obtain ⟨-, heq⟩ := hlist.log.returns_unique hlog (List.prefix_append ls₁ ls₂) hpre
  cases heq
  have hid := id_of_listUnits hlist.log
  obtain ⟨r, b₂, w₂, ls₃, ls₄, rfl, hmark, hrest⟩ := returns_bind.mp hrest
  cases r with
  | error e => cases hrest.of_pure.2.1
  | ok _ =>
    have hstamped := stamped_of_markUnits hlist hmark
    rw [hid] at hstamped
    dsimp only at hrest
    -- a degraded pass neither sweeps nor marks
    split at hrest
    · obtain ⟨_, _, _, _, -, hrest⟩ := returns_statement hrest
      obtain ⟨_, _, _, _, -, hrest⟩ := returns_statement hrest
      cases hrest.of_pure.2.1
      cases hres
    · obtain ⟨t, ls₅, rfl, hswept⟩ := hrest.of_call
      generalize hreply : (service.perform t.choice (b₂ || t.cancel) w₂
        (.statement (.sweepUnseenUnits l.conn.id l.generation))).2 = reply at hswept
      cases reply with
      | error e => cases hswept.of_pure.2.1
      | ok n =>
        obtain ⟨heff, hn⟩ := of_reply_eq_ok hreply
        cases hn
        constructor
        · simp [sweptIn, tookEffect, heff, Cmd.isSweep]
        · intro hsome
          have hpos := (hstamped.sweep_pos (w₂.now + t.choice.elapsed)).mpr hsome
          rw [← hid] at hpos
          simp only [Prog.pure_bind] at hswept
          split at hswept
          · obtain ⟨t', ls₆, rfl, hclock⟩ := hswept.of_call
            obtain ⟨t'', ls₇, rfl, hmarked⟩ := hclock.of_call
            generalize hreply' : (service.perform t''.choice _ _ (.statement
              (.markRemovedUnitArtifactsPurgePending l.conn.id _))).2 = reply' at hmarked
            cases reply' with
            | error e => cases hmarked.of_pure.2.1
            | ok _ =>
              obtain ⟨heff', -⟩ := of_reply_eq_ok hreply'
              simp [markedIn, tookEffect, heff', Cmd.isMark]
          · next hzero => exact absurd hpos hzero

/-- **What a completed healthy pass marks**: the artifacts of the removed units, if it had a
unit to sweep. -/
theorem removedMarked_iff (h : service.Returns (a.discoverUnits id) b w ls (.ok res) b' w')
    (hl : UnitsListed a id ls l) (hres : res.degraded = false) :
    w'.db.removedMarked id ↔ w.db.owedHidden id (w.db.doomed id l.ids) ∧
      ((∃ x, w.db.unseen id l.ids x) ∨ w.db.allOwed id (w.db.doomed id l.ids)) := by
  have hids : ∀ l', UnitsListed a id ls l' → l'.ids = l.ids := by
    rintro l' ⟨ls', hpre', hlog'⟩
    obtain ⟨ls₁, hpre, hlog⟩ := hl
    obtain ⟨-, heq⟩ := hlog'.returns_unique hlog hpre' hpre
    cases heq
    rfl
  have hprogress := progress_of_stops h.stops hids
  obtain ⟨hswept, hmarked⟩ := flags_of_returns h hl hres
  rw [hswept] at hprogress
  generalize hm : markedIn ls = m at hprogress hmarked
  cases hprogress with
  | swept hremoved _ hart =>
    have hno : ¬ ∃ x, w.db.unseen id l.ids x := fun hsome => Bool.noConfusion (hmarked hsome)
    rw [removedMarked_iff_owed hremoved, allOwed_congr hart fun _ => Iff.rfl,
      owedHidden_congr hart fun _ => Iff.rfl]
    tauto
  | marked hremoved _ hsome howed hhidden =>
    rw [removedMarked_iff_owed hremoved, hhidden]
    tauto

/-- **A pass that is interrupted and tried again marks the artifacts of the removed units**
if and only if those already owed an erasure are hidden and, unless all are owed one, it has
a unit to sweep and was not interrupted between the sweep and the mark. -/
theorem retry_marks_iff {b₀ b₁ : Bool} {w₀ : World} {ls₀ : List (Performed World Choice Cmd)}
    (h₀ : service.Stops (a.discoverUnits id) b₀ w₀ ls₀ b₁ w)
    (h : service.Returns (a.discoverUnits id) b w ls (.ok res) b' w')
    (hl : UnitsListed a id ls l) (hsame : ∀ l₀, UnitsListed a id ls₀ l₀ → l₀.units = l.units)
    (hres : res.degraded = false) :
    w'.db.removedMarked id ↔ w₀.db.owedHidden id (w₀.db.doomed id l.ids) ∧
      (((∃ x, w₀.db.unseen id l.ids x) ∧ ¬ (sweptIn ls₀ = true ∧ markedIn ls₀ = false)) ∨
        w₀.db.allOwed id (w₀.db.doomed id l.ids)) := by
  have hids : ∀ l₀, UnitsListed a id ls₀ l₀ → l₀.ids = l.ids := by
    intro l₀ hl₀
    unfold Listing.ids
    rw [hsame l₀ hl₀]
  have hprogress := progress_of_stops h₀ hids
  rw [removedMarked_iff h hl hres]
  generalize sweptIn ls₀ = swept at hprogress ⊢
  generalize markedIn ls₀ = marked at hprogress ⊢
  cases hprogress with
  | unswept hdoomed hunseen hart =>
    -- the retry finds the units and the artifacts as the first pass did
    rw [owedHidden_congr hart hdoomed, allOwed_congr hart hdoomed, exists_congr hunseen]
    simp
  | swept hremoved hnone hart =>
    have hdoomed : ∀ x, w.db.doomed id l.ids x ↔ w₀.db.doomed id l.ids x := fun x =>
      (or_iff_left (hnone x)).trans (hremoved x)
    -- the retry has nothing to sweep
    have hno : ¬ ∃ x, w.db.unseen id l.ids x := fun ⟨x, hx⟩ => hnone x hx
    rw [owedHidden_congr hart hdoomed, allOwed_congr hart hdoomed]
    simp [hno]
  | marked hremoved hnone hsome howed hhidden =>
    have hdoomed : w.db.doomed id l.ids = w₀.db.doomed id l.ids := by
      funext x
      exact propext ((or_iff_left (hnone x)).trans (hremoved x))
    rw [hdoomed, hhidden]
    simp [howed, hsome]

end Run

/-! ### A repository that disappears, and a worker that crashes -/

/-- The units that the commands of a pass list. -/
def listedIn (ls : List (Performed World Choice Cmd)) : Option (List SourceUnit) :=
  match (repoActivities.listUnits 0).replay service ls with
  | some (.ok l) => some l.units
  | _ => none

/-- A pass over the account, of which one repository is left, is stopped after `n` commands;
the next one is through, and ends as `P` says. -/
def retried (n m : ℕ) (P : List (Performed World Choice Cmd) → Listing → World → Bool) : Bool :=
  let first := service.stopAfter (repoActivities.discoverUnits 0) false twoRepos
    (repoTurns ["ann/a"] n)
  passes repoActivities 0 first.2.2 (repoTurns ["ann/a"] 5) (repoTurns ["ann/a"] m)
    fun l res w' => decide (listedIn first.1 = some l.units) && !res.degraded && P first.1 l w'

/-- A computed pass and its retry are a pass and its retry. -/
theorem exists_retried (n m : ℕ) (P : List (Performed World Choice Cmd) → Listing → World → Bool)
    (h : retried n m P = true) : ∃ ls₀ b₁ w₁ ls l res b' w',
      service.Stops (repoActivities.discoverUnits 0) false twoRepos ls₀ b₁ w₁ ∧
      service.Returns (repoActivities.discoverUnits 0) false w₁ ls (.ok res) b' w' ∧
      UnitsListed repoActivities 0 ls l ∧
      (∀ l₀, UnitsListed repoActivities 0 ls₀ l₀ → l₀.units = l.units) ∧
      res.degraded = false ∧ P ls₀ l w' = true := by
  have hstop := stops_stopAfter service (repoActivities.discoverUnits 0) false twoRepos
    (repoTurns ["ann/a"] n)
  unfold retried at h
  obtain ⟨ls, l, res, b', w', hrun, hl, hend⟩ := exists_pass repoActivities 0 _ _ _ _ h
  simp only [Bool.and_eq_true, decide_eq_true_eq, Bool.not_eq_true'] at hend
  obtain ⟨⟨hlisted, hres⟩, hP⟩ := hend
  refine ⟨_, _, _, ls, l, res, b', w', hstop, hrun, hl, fun l₀ hl₀ => ?_, hres, hP⟩
  have hreplay := Prog.replay_eq_some.mpr hl₀
  unfold listedIn at hlisted
  rw [hreplay] at hlisted
  exact Option.some.inj hlisted

-- a pass that has listed nothing has swept nothing
example : listedIn [] = none ∧ sweptIn [] = false := by decide +kernel

/-- No artifact of the account is owed an erasure. -/
theorem owedHidden_twoRepos (S : String → Prop) : twoRepos.db.owedHidden 0 S := by
  have hnone : ∀ r ∈ twoRepos.db.artifacts.rows, r.purgePending = false := by decide +kernel
  intro r hr _ _ howed
  rw [hnone r hr] at howed
  cases howed

theorem unseen_twoRepos : twoRepos.db.unseen 0 ["ann/a"] "ann/b" :=
  ⟨⟨.idle, 1, by decide +kernel, by decide⟩, by decide⟩

/-- A pass that crashes before its sweep is made good by the next one. -/
theorem crashed_before_sweep_marks : ∃ ls₀ b₁ w₁ ls l res b' w',
    service.Stops (repoActivities.discoverUnits 0) false twoRepos ls₀ b₁ w₁ ∧
    service.Returns (repoActivities.discoverUnits 0) false w₁ ls (.ok res) b' w' ∧
    UnitsListed repoActivities 0 ls l ∧
    (∀ l₀, UnitsListed repoActivities 0 ls₀ l₀ → l₀.units = l.units) ∧ res.degraded = false ∧
    w'.db.hasTombstone 0 "ann/b" ∧ w'.db.removedMarked 0 := by
  obtain ⟨ls₀, b₁, w₁, ls, l, res, b', w', hstop, hrun, hl, hsame, hres, hend⟩ :=
    exists_retried 6 6 (fun ls₀ l w' => decide (l.ids = ["ann/a"]) && !sweptIn ls₀ &&
      showsTombstone w'.db 0 "ann/b") (by decide +kernel)
  simp only [Bool.and_eq_true, decide_eq_true_eq, Bool.not_eq_true'] at hend
  obtain ⟨⟨hids, hswept⟩, hshows⟩ := hend
  refine ⟨ls₀, b₁, w₁, ls, l, res, b', w', hstop, hrun, hl, hsame, hres,
    hasTombstone_of_shows hshows,
    (retry_marks_iff hstop hrun hl hsame hres).mpr ⟨?_, .inl ⟨?_, ?_⟩⟩⟩
  · exact owedHidden_twoRepos _
  · rw [hids]
    exact ⟨"ann/b", unseen_twoRepos⟩
  · rw [hswept]
    simp

/-- **A pass that crashes right after its sweep leaves the artifacts of the swept unit
unmarked**, and the next pass, over the same listing, does not mark them. -/
theorem crashed_after_sweep_unmarked : ∃ ls₀ b₁ w₁ ls l res b' w',
    service.Stops (repoActivities.discoverUnits 0) false twoRepos ls₀ b₁ w₁ ∧
    service.Returns (repoActivities.discoverUnits 0) false w₁ ls (.ok res) b' w' ∧
    UnitsListed repoActivities 0 ls l ∧
    (∀ l₀, UnitsListed repoActivities 0 ls₀ l₀ → l₀.units = l.units) ∧ res.degraded = false ∧
    ¬ w'.db.removedMarked 0 := by
  obtain ⟨ls₀, b₁, w₁, ls, l, res, b', w', hstop, hrun, hl, hsame, hres, hend⟩ :=
    exists_retried 7 4 (fun _ _ w' => w'.db.artifacts.rows.any fun r =>
      decide (r.connectionID = 0) && showsTombstone w'.db 0 r.syncContainerID &&
        !r.purgePending) (by decide +kernel)
  obtain ⟨r, hr, hend⟩ := List.any_eq_true.mp hend
  simp only [Bool.and_eq_true, decide_eq_true_eq, Bool.not_eq_true'] at hend
  obtain ⟨⟨hid, hshows⟩, howed⟩ := hend
  refine ⟨ls₀, b₁, w₁, ls, l, res, b', w', hstop, hrun, hl, hsame, hres, fun hmarked => ?_⟩
  have hthen := (hmarked r hr hid (hasTombstone_of_shows hshows)).1
  rw [howed] at hthen
  cases hthen

end Hivebook
