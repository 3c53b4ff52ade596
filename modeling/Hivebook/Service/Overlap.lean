import Hivebook.Lib.Threads
import Hivebook.Service.Discovery

/-!
# Discoveries that overlap

A discovery that has timed out may still run next to its retry.  Each pass takes the
greatest generation there is plus one, marks what it saw row by row, and sweeps what is
older.  A mark overwrites the generation whatever it is: a slow pass may set a unit back
to its own, older generation, and the sweep of the newer pass then tombstones a unit
that both of them saw.

## Main definitions

* `marksForward` — no mark of the unit finds it at a newer generation.
* `Database.artifactsOf` — the artifacts a unit was synced to.

## Main results

* `log_pass` — where a pass stands when it issues a command: at the sweep it has marked
  every unit it listed.
* `seen_by_all_kept` — **if marks only go forward, a unit that every pass was returned
  is never tombstoned, and its artifacts are left alone.**
* `seen_by_both_swept` — two passes over two repositories, of which one ends removed.
-/

namespace Hivebook

open Database Machine Connectors

/-! ### Where a pass stands -/

/-- A command of a pass other than its marks, its sweep and the queueing after it. -/
def Cmd.incidental (c : Cmd) : Bool := c.plain && c.keepsCatalog

theorem incidental_of_touchesTokens {c : Cmd} (h : c.touchesTokens = true) :
    c.incidental = true := by
  unfold Cmd.incidental
  rw [plain_of_steady (steady_of_touchesTokens h), keepsCatalog_of_touchesTokens h]
  rfl

/-- A program whose commands are all incidental. -/
def Incidental {α : Type} (p : Program α) : Prop := p.Uses fun c => c.incidental = true

theorem incidental_statement {s : Statement} (h : (Cmd.statement s).incidental = true) :
    Incidental (statement s) := ⟨h, fun _ => trivial⟩

theorem TouchesTokens.incidental {α : Type} {p : Program α} (h : TouchesTokens p) :
    Incidental p := h.mono fun _ hc => incidental_of_touchesTokens hc

theorem Incidental.bind {α β : Type} {p : Program α} {f : α → Program β} (h : Incidental p)
    (hf : ∀ a, Incidental (f a)) : Incidental (p.bind f) := Prog.Uses.bind h hf

@[simp] theorem incidental_pure {α : Type} (a : α) : Incidental (Prog.pure a) := trivial

/-- Classifying the error of a discovery arms no backoff: there is no unit. -/
theorem incidental_classify (conn : Connection) (err : Err) :
    Incidental (Activities.classify conn "" err) := by
  unfold Activities.classify
  split
  · exact (incidental_statement rfl).bind fun _ =>
      (incidental_statement rfl).bind fun _ => incidental_pure _
  · exact incidental_pure _
  · exact incidental_pure _

/-- Up to the return of the connector a pass touches nothing. -/
theorem incidental_listUnits (a : Activities) (id : Uuid) : Incidental (a.listUnits id) :=
  uses_listUnits (fun _ hc => incidental_of_touchesTokens hc) (fun _ => rfl) (fun _ => rfl)
    incidental_classify a id

/-- The end of a pass touches nothing. -/
theorem incidental_finishDiscovery (conn : Connection) (connector : Connector)
    (units : List SourceUnit) (swept : ℕ) :
    Incidental (Activities.finishDiscovery conn connector units swept) := by
  refine ((Activities.steady_finishDiscovery _ _ _ _).plain.and
    (keepsCatalog_finishDiscovery _ _ _ _)).mono fun c hc => ?_
  unfold Cmd.incidental
  rw [hc.1, hc.2]
  rfl

theorem incidental_skipSweep (conn : Connection) (discovered lastKnownGood : ℕ) :
    Incidental (Activities.skipSweep conn discovered lastKnownGood) :=
  (incidental_statement rfl).bind fun _ => (incidental_statement rfl).bind fun _ =>
    incidental_pure _

section Log

variable {ls : List (Performed World Choice Cmd)} {a : Activities} {id : Uuid}

/-- The unit was marked. -/
def Marked (ls : List (Performed World Choice Cmd)) (id : Uuid) (g : ℤ) (u : SourceUnit) : Prop :=
  ∃ m ∈ ls, m.cmd = .statement (.upsertSyncUnit id u.id u.name u.kind g) ∧ tookEffect m = true

/-- The mark loop issues marks only. -/
theorem uses_markUnits (conn : Connection) (g : ℤ) (us : List SourceUnit) :
    (Activities.markUnits conn g us).Uses fun c =>
      ∃ u ∈ us, c = .statement (.upsertSyncUnit conn.id u.id u.name u.kind g) := by
  induction us with
  | nil => exact Prog.uses_pure _ _
  | cons u us ih =>
    refine Prog.Uses.bind ⟨⟨u, List.mem_cons_self, rfl⟩, fun _ => trivial⟩ fun r => ?_
    split
    · exact Prog.uses_pure _ _
    · exact ih.mono fun c ⟨u', hu', hc⟩ => ⟨u', List.mem_cons_of_mem u hu', hc⟩

/-- Once the mark loop is through, every unit was marked. -/
theorem marked_of_log {conn : Connection} {g : ℤ} {us : List SourceUnit}
    (h : Log service (Activities.markUnits conn g us) ls (.pure (.ok ()))) :
    ∀ u ∈ us, Marked ls conn.id g u := by
  induction us generalizing ls with
  | nil => simp
  | cons u us ih =>
    rcases Log.of_call h with ⟨-, hq⟩ | ⟨w, b, x, ls', rfl, hrest⟩
    · cases hq
    · rw [service_statement] at hrest
      cases hr : x.reply b ((Statement.upsertSyncUnit conn.id u.id u.name u.kind g).exec
          (w.now + x.elapsed) w.db).1 with
      | error e =>
        rw [hr] at hrest
        cases hrest.of_pure.2
      | ok _ =>
        rw [hr] at hrest
        intro u' hu'
        rcases List.mem_cons.mp hu' with rfl | hu'
        · exact ⟨_, List.mem_cons_self, rfl, (of_reply_eq_ok hr).1⟩
        · obtain ⟨m, hm, hcmd, htook⟩ := ih hrest u' hu'
          exact ⟨m, List.mem_cons_of_mem _ hm, hcmd, htook⟩

/-- What a command of a pass may be. -/
inductive PassCmd (a : Activities) (id : Uuid) (ls : List (Performed World Choice Cmd)) :
    Cmd → Prop
  | incidental {c : Cmd} : c.incidental = true → PassCmd a id ls c
  | mark (id' : Uuid) (x name kind : String) (g : ℤ) :
      PassCmd a id ls (.statement (.upsertSyncUnit id' x name kind g))
  /-- At the sweep every unit listed was marked. -/
  | sweep (l : Listing) : UnitsListed a id ls l → (∀ u ∈ l.units, Marked ls id l.generation u) →
      PassCmd a id ls (.statement (.sweepUnseenUnits id l.generation))
  | queue (id' : Uuid) (deadline : Time) :
      PassCmd a id ls (.statement (.markRemovedUnitArtifactsPurgePending id' deadline))

/-- The commands from the sweep on. -/
theorem passCmd_of_sweep {conn : Connection} {connector : Connector} {units : List SourceUnit}
    {g : ℤ} {c : Cmd} {k : c.Resp → Program (Except ActivityError DiscoverResult)}
    {L : List (Performed World Choice Cmd)}
    (h : Log service (Activities.sweep conn connector units g) ls (.call c k))
    (hfirst : PassCmd a id L (.statement (.sweepUnseenUnits conn.id g))) : PassCmd a id L c := by
  have hfinish : ∀ swept, (Activities.finishDiscovery conn connector units swept).Uses
      (PassCmd a id L) := fun swept =>
    (incidental_finishDiscovery _ _ _ _).mono fun _ => .incidental
  have hsweep : (Activities.sweep conn connector units g).Uses (PassCmd a id L) := by
    refine Prog.Uses.bind ⟨hfirst, fun _ => trivial⟩ fun r => ?_
    split
    · exact Prog.uses_pure _ _
    · split
      · refine Prog.Uses.bind ⟨.incidental rfl, fun _ => trivial⟩ fun now =>
          Prog.Uses.bind ⟨.queue _ _, fun _ => trivial⟩ fun r => ?_
        split
        · exact Prog.uses_pure _ _
        · exact hfinish _
      · exact hfinish _
  exact (h.uses hsweep).1

/-- **Where a pass stands when it issues a command.** -/
theorem log_pass {c : Cmd} {k : c.Resp → Program (Except ActivityError DiscoverResult)}
    (h : Log service (a.discoverUnits id) ls (.call c k)) : PassCmd a id ls c := by
  rw [discoverUnits_eq] at h
  rcases h.of_bind with ⟨c', k', heq, hlog⟩ | ⟨ls₁, ls₂, r, rfl, hlist, hrest⟩
  · -- it is still listing
    cases heq
    exact .incidental (hlog.uses (incidental_listUnits a id)).1
  · cases r with
    | error e => cases hrest.of_pure.2
    | ok l =>
      have hid := id_of_listUnits hlist
      have hlisted : UnitsListed a id (ls₁ ++ ls₂) l := ⟨ls₁, List.prefix_append _ _, hlist⟩
      rcases Log.of_bind hrest with ⟨c', k', heq, hlog⟩ | ⟨ls₃, ls₄, r, rfl, hmarks, hrest⟩
      · cases heq
        obtain ⟨u, -, rfl⟩ := (hlog.uses (uses_markUnits _ _ _)).1
        exact .mark _ _ _ _ _
      · cases r with
        | error e => cases hrest.of_pure.2
        | ok _ =>
          dsimp only at hrest
          split at hrest
          · exact .incidental (hrest.uses (incidental_skipSweep _ _ _)).1
          · -- from here on every unit listed was marked
            refine passCmd_of_sweep hrest ?_
            rw [hid]
            refine .sweep l hlisted fun u hu => ?_
            obtain ⟨m, hm, hmark⟩ := marked_of_log hmarks u hu
            rw [hid] at hmark
            exact ⟨m, by simp [hm], hmark⟩

end Log

/-! ### Marks that go forward -/

/-- The artifacts a unit was synced to. -/
def Database.artifactsOf (db : Database) (id : Uuid) (x : String) : List RawArtifact :=
  db.artifacts.rows.filter fun r => decide (r.connectionID = id) && decide (r.syncContainerID = x)

/-- A mark of the unit that takes effect does not find it at a newer generation. -/
def marksForward (id : Uuid) (x : String) (t : Choice) (b : Bool) (w : World) : Cmd → Bool
  | .statement (.upsertSyncUnit id' y _ _ g) =>
      !(t.takesEffect b && decide ((id', y) = (id, x))) ||
        (w.db.entry id x).all fun e => decide (e.2 ≤ g)
  | _ => true

section Threads

variable {a : Activities} {id : Uuid} {x : String}

/-- The queueing of artifacts leaves those of a unit without tombstone alone. -/
theorem artifactsOf_queue {db : Database} (h : ¬ db.hasTombstone id x) (now : Time) (id' : Uuid)
    (deadline : Time) :
    (markRemovedUnitArtifactsPurgePending now id' deadline db).artifactsOf id x =
      db.artifactsOf id x := by
  have hrows : (markRemovedUnitArtifactsPurgePending now id' deadline db).artifacts.rows =
      db.artifacts.rows.map (Table.updated (fun r => decide (r.connectionID = id') &&
        !r.purgePending && db.hasUnit id' (fun u => decide (u.status = .removed))
          r.syncContainerID) (markPurge now deadline)) := rfl
  unfold Database.artifactsOf
  rw [hrows, List.filter_map]
  have hpred : ((fun r : RawArtifact => decide (r.connectionID = id) &&
      decide (r.syncContainerID = x)) ∘ Table.updated (fun r => decide (r.connectionID = id') &&
        !r.purgePending && db.hasUnit id' (fun u => decide (u.status = .removed))
          r.syncContainerID) (markPurge now deadline)) =
      fun r => decide (r.connectionID = id) && decide (r.syncContainerID = x) := by
    funext r
    rw [Function.comp]
    unfold Table.updated
    split <;> rfl
  rw [hpred]
  conv_rhs => rw [← List.map_id (List.filter _ _)]
  refine List.map_congr_left fun r hr => ?_
  obtain ⟨-, hr⟩ := List.mem_filter.mp hr
  simp only [Bool.and_eq_true, decide_eq_true_eq] at hr
  obtain ⟨hconn, hcont⟩ := hr
  unfold Table.updated
  rw [if_neg]
  · rfl
  · intro hp
    simp only [Bool.and_eq_true, decide_eq_true_eq] at hp
    obtain ⟨⟨hid, -⟩, hunit⟩ := hp
    refine h (hasTombstone_iff.mpr ?_)
    obtain ⟨u, hu, his⟩ := List.any_eq_true.mp hunit
    simp only [Bool.and_eq_true, decide_eq_true_eq] at his
    refine ⟨u, hu, ?_, his.2⟩
    rw [is_iff.mp his.1, ← hid, hconn, hcont]

/-- A command that leaves the manifest alone leaves the artifacts of a unit alone. -/
theorem artifactsOf_congr {db db' : Database} (h : db'.artifacts = db.artifacts) :
    db'.artifactsOf id x = db.artifactsOf id x := by
  unfold Database.artifactsOf
  rw [h]

/-- Every mark of the unit is behind its generation. -/
def MarksBehind (id : Uuid) (x : String) (w : World) (tr : List (ℕ × Performed World Choice Cmd)) :
    Prop :=
  ∀ m ∈ tr, ∀ name kind g, m.2.cmd = .statement (.upsertSyncUnit id x name kind g) →
    tookEffect m.2 = true → ∃ st g', w.db.entry id x = some (st, g') ∧ g ≤ g'

/-- What holds of a unit as long as every pass has listed it. -/
structure Kept (id : Uuid) (x : String) (w₀ w : World)
    (tr : List (ℕ × Performed World Choice Cmd)) : Prop where
  live : ¬ w.db.hasTombstone id x
  behind : MarksBehind id x w tr
  artifacts : w.db.artifactsOf id x = w₀.db.artifactsOf id x

variable {w₀ w w' : World} {tr : List (ℕ × Performed World Choice Cmd)}
  {m : ℕ × Performed World Choice Cmd}

/-- A command that leaves the unit and its artifacts alone, and is no mark of it. -/
theorem Kept.aside (h : Kept id x w₀ w tr) (hentry : w'.db.entry id x = w.db.entry id x)
    (hart : w'.db.artifactsOf id x = w.db.artifactsOf id x)
    (hcmd : ∀ name kind g, m.2.cmd = .statement (.upsertSyncUnit id x name kind g) →
      tookEffect m.2 = false) : Kept id x w₀ w' (tr ++ [m]) where
  live := by
    rintro ⟨g, hg⟩
    exact h.live ⟨g, hentry ▸ hg⟩
  behind := by
    intro m' hm' name kind g hc htook
    rcases List.mem_append.mp hm' with hm' | hm'
    · rw [hentry]
      exact h.behind m' hm' name kind g hc htook
    · rw [List.mem_singleton.mp hm'] at hc htook
      rw [hcmd name kind g hc] at htook
      cases htook
  artifacts := hart.trans h.artifacts

/-- A mark of the unit that finds it at no newer generation. -/
theorem Kept.mark (h : Kept id x w₀ w tr) {now : Time} {name kind : String} {g : ℤ}
    (hdb : w'.db = upsertSyncUnit now id x name kind g w.db)
    (hforward : ∀ st g', w.db.entry id x = some (st, g') → g' ≤ g)
    (hm : m.2.cmd = .statement (.upsertSyncUnit id x name kind g)) :
    Kept id x w₀ w' (tr ++ [m]) := by
  have hentry : w'.db.entry id x = some (((w.db.entry id x).map Prod.fst).getD .idle, g) := by
    rw [hdb, entry_upsertSyncUnit, if_pos rfl]
  refine ⟨?_, ?_, ?_⟩
  · rintro ⟨g', hg'⟩
    rw [hentry] at hg'
    cases hold : w.db.entry id x with
    | none =>
      rw [hold] at hg'
      cases hg'
    | some e =>
      rw [hold] at hg'
      obtain ⟨st, g₀⟩ := e
      cases hg'
      exact h.live ⟨g₀, hold⟩
  · intro m' hm' name' kind' g' hc htook
    refine ⟨_, g, hentry, ?_⟩
    rcases List.mem_append.mp hm' with hm' | hm'
    · obtain ⟨st, g₀, hold, hle⟩ := h.behind m' hm' name' kind' g' hc htook
      exact le_trans hle (hforward st g₀ hold)
    · rw [List.mem_singleton.mp hm', hm] at hc
      cases hc
      exact le_refl g
  · rw [hdb, ← h.artifacts]
    exact artifactsOf_congr rfl

/-- A sweep of a generation the unit was marked with. -/
theorem Kept.sweep (h : Kept id x w₀ w tr) {now : Time} {g : ℤ}
    (hdb : w'.db = (sweepUnseenUnits now id g w.db).2)
    (hmarked : ∃ m' ∈ tr, ∃ name kind, m'.2.cmd = .statement (.upsertSyncUnit id x name kind g) ∧
      tookEffect m'.2 = true)
    (hm : m.2.cmd = .statement (.sweepUnseenUnits id g)) : Kept id x w₀ w' (tr ++ [m]) := by
  obtain ⟨m', hm', name, kind, hc, htook⟩ := hmarked
  obtain ⟨st, g', hentry, hle⟩ := h.behind m' hm' name kind g hc htook
  refine h.aside ?_ ?_ ?_
  · rw [hdb, entry_sweepUnseenUnits, hentry, Option.map_some, if_neg]
    rintro ⟨-, hlt⟩
    omega
  · rw [hdb]
    exact artifactsOf_congr rfl
  · intro name kind g hc
    rw [hm] at hc
    cases hc

/-- **One command of a pass that has listed the unit.** -/
theorem Kept.step (h : Kept id x w₀ w tr) {i : ℕ} {t : Choice} {b : Bool} {c : Cmd}
    (hc : PassCmd a id (byThread i tr) c)
    (hseen : ∀ l, UnitsListed a id (byThread i tr) l → x ∈ l.ids)
    (hforward : marksForward id x t b w c = true) :
    Kept id x w₀ (service.perform t b w c).1 (tr ++ [(i, ⟨w, c, b, t⟩)]) := by
  by_cases htakes : t.takesEffect b = true
  · cases hc with
    | incidental hc =>
      unfold Cmd.incidental at hc
      rw [Bool.and_eq_true] at hc
      refine h.aside (entry_perform hc.2 _ _ _ _) ?_ ?_
      · exact artifactsOf_congr (artifacts_perform hc.1 _ _ _)
      · rintro name kind g rfl
        cases hc.2
    | mark id' y name kind g =>
      have hdb : (service.perform t b w (.statement (.upsertSyncUnit id' y name kind g))).1.db =
          upsertSyncUnit (w.now + t.elapsed) id' y name kind g w.db := by
        rw [service_db]
        exact if_pos htakes
      by_cases heq : (id', y) = (id, x)
      · cases heq
        refine h.mark hdb (fun st g' hentry => ?_) rfl
        simpa [marksForward, htakes, hentry] using hforward
      · refine h.aside ?_ ?_ ?_
        · rw [hdb, entry_upsertSyncUnit, if_neg heq]
        · rw [hdb]
          exact artifactsOf_congr rfl
        · intro name' kind' g' hc
          cases hc
          exact absurd rfl heq
    | sweep l hl hmarks =>
      -- the pass has marked every unit that it listed before it sweeps
      obtain ⟨u, hu, hx⟩ := List.mem_map.mp (hseen l hl)
      obtain ⟨m, hm, hcmd, htook⟩ := hmarks u hu
      rw [hx] at hcmd
      have hdb : (service.perform t b w (.statement (.sweepUnseenUnits id l.generation))).1.db =
          (sweepUnseenUnits (w.now + t.elapsed) id l.generation w.db).2 := by
        rw [service_db]
        exact if_pos htakes
      refine h.sweep hdb ?_ rfl
      exact ⟨(i, m), mem_of_mem_byThread hm, _, _, hcmd, htook⟩
    | queue id' deadline =>
      refine h.aside (entry_perform rfl _ _ _ _) ?_ ?_
      · rw [service_db]
        show Database.artifactsOf (if t.takesEffect b = true then _ else _) id x = _
        rw [if_pos htakes]
        exact artifactsOf_queue h.live _ _ _
      · intro name kind g hc
        cases hc
  · -- a command without effect changes nothing
    have hdb : (service.perform t b w c).1.db = w.db := by
      rw [service_db]
      cases c with
      | statement s => exact if_neg htakes
      | _ => rfl
    refine h.aside (by rw [hdb]) (by rw [hdb]) fun name kind g _ => ?_
    exact Bool.eq_false_iff.mpr htakes

/-- **A unit that every pass was returned is never tombstoned**, and its artifacts are
left alone, as long as no mark finds it at a newer generation: any number of passes over
one connection, interleaved in any way. -/
theorem seen_by_all_kept {w : World} {es : List (PoolEvent Unit Choice)}
    {s : Pool World Cmd Cmd.Resp (Except ActivityError DiscoverResult)}
    (h : (service.threads fun _ : Unit => a.discoverUnits id).RunWhere
      (fun s _ e => PoolMeets (fun t b w c => marksForward id x t b w c = true) s e)
      ⟨w, []⟩ es s tr)
    (hstart : ¬ w.db.hasTombstone id x)
    (hseen : ∀ i l, UnitsListed a id (byThread i tr) l → x ∈ l.ids) :
    ¬ s.world.db.hasTombstone id x ∧ s.world.db.artifactsOf id x = w.db.artifactsOf id x := by
  have hkept : (∀ i l, UnitsListed a id (byThread i tr) l → x ∈ l.ids) →
      Kept id x w s.world tr := by
    refine threads_invariant_log (J := fun w' tr => (∀ i l, UnitsListed a id (byThread i tr) l →
      x ∈ l.ids) → Kept id x w w' tr) h (fun _ => ⟨hstart, by simp [MarksBehind], rfl⟩) ?_
    intro s tr i t c k b _ hC hth hlog ih hlater
    have hearlier : ∀ i l, UnitsListed a id (byThread i tr) l → x ∈ l.ids := by
      rintro i l ⟨ls₁, hpre, hl⟩
      exact hlater i l ⟨ls₁, hpre.trans (byThread_mono i tr _), hl⟩
    exact (ih hearlier).step (log_pass hlog) (hearlier i) (hC c k b hth)
  exact ⟨(hkept hseen).live, (hkept hseen).artifacts⟩

end Threads

/-! ### Two passes over two repositories -/

/-- An issue of the second repository, synced. -/
def repoIssue : Database.UpsertRawArtifactParams :=
  { emptyDoc "ann/b#1" with
      source := "github_pat", sourceNativeKind := "github_issue", containerID := "ann/b",
      syncContainerID := "ann/b", containerKind := "github_repo" }

/-- The account with two repositories, seen by a pass before, and an issue. -/
def twoRepos : World :=
  worldOf (Database.commitArtifact 0 repoIssue "ann/b" none
    (sawRepo 1 "ann/b" (sawRepo 1 "ann/a" emptyAccount)))

/-- Turns of one pass. -/
def passTurns (i n : ℕ) : List (PoolEvent Unit Choice) :=
  List.replicate n (.turn i ⟨false, quietly (repoAnswers ["ann/a", "ann/b"])⟩)

/-- Whether a listing that the commands include has the unit. -/
def listsUnit (x : String) (ls : List (Performed World Choice Cmd)) : Bool :=
  match (repoActivities.listUnits 0).replay service ls with
  | some (.ok l) => decide (x ∈ l.ids)
  | _ => false

theorem listed_of_listsUnit {x : String} {ls : List (Performed World Choice Cmd)}
    (h : listsUnit x ls = true) : ∃ l, UnitsListed repoActivities 0 ls l ∧ x ∈ l.ids := by
  unfold listsUnit at h
  split at h
  · rename_i l hl
    exact ⟨l, Prog.replay_eq_some.mp hl, of_decide_eq_true h⟩
  · cases h

theorem mem_ids_of_listsUnit {x : String} {ls : List (Performed World Choice Cmd)} {l : Listing}
    (h : listsUnit x ls = true) (hl : UnitsListed repoActivities 0 ls l) : x ∈ l.ids := by
  have hreplay := Prog.replay_eq_some.mpr hl
  unfold listsUnit at h
  rw [hreplay] at h
  exact of_decide_eq_true h

-- a pass that has sent nothing has listed nothing
example : listsUnit "ann/b" [] = false := by
  decide +kernel

/-- Two passes that list side by side, and mark in step. -/
def inStep : List (PoolEvent Unit Choice) :=
  .start () :: .start () :: passTurns 0 5 ++ passTurns 1 6 ++ passTurns 0 2 ++ passTurns 1 4 ++
    passTurns 0 3

/-- Only the two threads have run, and the unit was returned to both. -/
def bothListed (tr : List (ℕ × Performed World Choice Cmd)) : Bool :=
  (tr.all fun l => decide (l.1 < 2)) && listsUnit "ann/b" (byThread 0 tr) &&
    listsUnit "ann/b" (byThread 1 tr)

theorem mem_ids_of_bothListed {tr : List (ℕ × Performed World Choice Cmd)}
    (h : bothListed tr = true) (i : ℕ) (l : Listing)
    (hl : UnitsListed repoActivities 0 (byThread i tr) l) : "ann/b" ∈ l.ids := by
  simp only [bothListed, Bool.and_eq_true, List.all_eq_true, decide_eq_true_eq] at h
  obtain ⟨⟨htwo, hfirst⟩, hsecond⟩ := h
  by_cases hi : i < 2
  · obtain rfl | rfl : i = 0 ∨ i = 1 := by omega
    · exact mem_ids_of_listsUnit hfirst hl
    · exact mem_ids_of_listsUnit hsecond hl
  · -- a thread that has done nothing has listed nothing
    have hnil : byThread i tr = [] :=
      List.eq_nil_iff_forall_not_mem.mpr fun m hm => hi (htwo _ (mem_of_mem_byThread hm))
    obtain ⟨ls, hpre, hlog⟩ := hl
    rw [hnil, List.prefix_nil] at hpre
    subst hpre
    rcases Log.of_call hlog with ⟨-, hq⟩ | ⟨_, _, _, _, heq, -⟩
    · cases hq
    · cases heq

theorem twoRepos_live : ¬ twoRepos.db.hasTombstone 0 "ann/b" := by
  rintro ⟨g, hg⟩
  have hidle : (twoRepos.db.entry 0 "ann/b").map Prod.fst = some .idle := by decide +kernel
  rw [hg] at hidle
  cases hidle

/-- Two passes in step leave the second repository and its issue alone. -/
theorem in_step_kept :
    ∃ s tr, (service.threads fun _ : Unit => repoActivities.discoverUnits 0).Run ⟨twoRepos, []⟩
        inStep s tr ∧ s.returned ∧ ¬ twoRepos.db.hasTombstone 0 "ann/b" ∧
      (∀ i l, UnitsListed repoActivities 0 (byThread i tr) l → "ann/b" ∈ l.ids) ∧
      (¬ s.world.db.hasTombstone 0 "ann/b" ∧
        s.world.db.artifactsOf 0 "ann/b" = twoRepos.db.artifactsOf 0 "ann/b") := by
  obtain ⟨s, tr, hrun, hend⟩ := Lts.exists_runWhere_of_any
    (service.threads fun _ : Unit => repoActivities.discoverUnits 0)
    (fun s _ => poolCheck (marksForward 0 "ann/b") s) ⟨twoRepos, []⟩ inStep
    (fun s tr => s.allReturned && bothListed tr) (by decide +kernel)
  rw [Bool.and_eq_true] at hend
  have hseen := mem_ids_of_bothListed hend.2
  refine ⟨s, tr, hrun.run, Pool.returned_of_allReturned hend.1, twoRepos_live, hseen, ?_⟩
  exact seen_by_all_kept (hrun.mono fun _ _ _ hc => poolMeets_of_check hc) twoRepos_live hseen

/-- The first pass marks the second repository after the second pass has. -/
def overlapping : List (PoolEvent Unit Choice) :=
  .start () :: passTurns 0 6 ++ .start () :: passTurns 1 7 ++ passTurns 0 1 ++ passTurns 1 5 ++
    passTurns 0 3

/-- **Two passes see a repository, and it ends removed**, with its issue queued for
erasure. -/
theorem seen_by_both_swept :
    ¬ twoRepos.db.hasTombstone 0 "ann/b" ∧
    (∀ r ∈ twoRepos.db.artifactsOf 0 "ann/b", r.purgePending = false) ∧
    ∃ s tr, (service.threads fun _ : Unit => repoActivities.discoverUnits 0).Run ⟨twoRepos, []⟩
        overlapping s tr ∧ s.returned ∧
      (∃ l, UnitsListed repoActivities 0 (byThread 0 tr) l ∧ "ann/b" ∈ l.ids) ∧
      (∃ l, UnitsListed repoActivities 0 (byThread 1 tr) l ∧ "ann/b" ∈ l.ids) ∧
      s.world.db.hasTombstone 0 "ann/b" ∧
      ∃ r ∈ s.world.db.artifactsOf 0 "ann/b", r.purgePending = true := by
  refine ⟨twoRepos_live, by decide +kernel, ?_⟩
  obtain ⟨s, tr, hrun, hend⟩ := Lts.exists_run_of_any
    (service.threads fun _ : Unit => repoActivities.discoverUnits 0) ⟨twoRepos, []⟩ overlapping
    (fun s tr => s.allReturned && bothListed tr && showsTombstone s.world.db 0 "ann/b" &&
      (s.world.db.artifactsOf 0 "ann/b").any RawArtifact.purgePending) (by decide +kernel)
  simp only [bothListed, Bool.and_eq_true, List.any_eq_true] at hend
  obtain ⟨⟨⟨hret, ⟨-, hfirst⟩, hsecond⟩, hremoved⟩, r, hr, hpending⟩ := hend
  exact ⟨s, tr, hrun, Pool.returned_of_allReturned hret, listed_of_listsUnit hfirst,
    listed_of_listsUnit hsecond, hasTombstone_of_shows hremoved, r, hr, hpending⟩

end Hivebook
