import Hivebook.Database.Units
import Hivebook.Server.Readers
import Hivebook.Service.Inventory
import Hivebook.Service.Visibility

/-!
# Partial data

Bytes are written to the corpus while a unit is drained for the first time, and are to stay out
of sight until the drain has gone through once.  `committed_at` records that it has, and the two
listing queries ask for it.  The query that resolves an artifact to serve its bytes does not.

So the listing never shows partial data, and the bytes that are served are whole exactly as long
as every artifact that is not hidden belongs to a committed unit.

## Main definitions

* `DrainedToEnd a i ls` — the execution has drained its unit to the end.
* `Passed a u tr` — an execution has drained the unit to the end and committed it.
* `NoPartialData` — what the two readers show belongs to a unit that was passed.
* `ContentGated` — the condition: what can be served belongs to a committed unit.

## Main results

* `drained_of_commit` — an execution that commits its unit has drained it to the end.
* `no_partial_data_iff` — **no partial data is exposed exactly if what can be served belongs to a
  committed unit.**
* `stopped_backfill_served` — the bytes of a stopped backfill are served.
-/

namespace Hivebook

open Database Machine Connectors

/-! ### An execution that commits its unit -/

/-- The command is `CommitUnit`. -/
def Cmd.commits : Cmd → Bool
  | .statement (.commitUnit _ _) => true
  | _ => false

/-- The connector has been given the unit, and its `SyncUnit` has returned `done = true`. -/
def DrainedBy (a : Activities) (i : SyncInput) (conn : Connection) (connector : Connector)
    (unit : SyncUnit) (ls : List (Performed World Choice Cmd)) : Prop :=
  ∃ st ls₀ ls₁ ls₂, ls = ls₀ ++ (ls₁ ++ ls₂) ∧
    Log service (a.drain i conn connector unit) ls₁ (.pure (.ok true, st))

/-- The execution has loaded its connection, has read its unit and has drained it to the end. -/
def DrainedToEnd (a : Activities) (i : SyncInput) (ls : List (Performed World Choice Cmd)) :
    Prop :=
  ∃ conn connector unit ls₀ ls₁ ls₂, ls = ls₀ ++ (ls₁ ++ ls₂) ∧
    Log service (a.loadConnection i.connectionID) ls₀ (.pure (.ok (conn, connector))) ∧
    Log service (statement (.getSyncUnit i.connectionID i.unitID)) ls₁ (.pure (.ok unit)) ∧
    DrainedBy a i conn connector unit ls₂

/-- A program that never commits a unit. -/
abbrev CommitsNone {α : Type} (p : Program α) : Prop := p.Uses fun c => c.commits = false

theorem commitsNone_statement {s : Statement} (h : (Cmd.statement s).commits = false) :
    CommitsNone (statement s) := ⟨h, fun _ => trivial⟩

theorem commits_of_touchesTokens {c : Cmd} (h : c.touchesTokens = true) : c.commits = false := by
  cases c with
  | statement s => cases s <;> first | rfl | cases h
  | _ => rfl

theorem TouchesTokens.commitsNone {α : Type} {p : Program α} (h : TouchesTokens p) :
    CommitsNone p := h.mono fun _ => commits_of_touchesTokens

section Parts

variable (a : Activities) {i : SyncInput} {conn : Connection} {connector : Connector}

theorem commitsNone_classify (conn : Connection) (unitID : String) (err : Err) :
    CommitsNone (Activities.classify conn unitID err) := by
  unfold Activities.classify
  split
  · exact (commitsNone_statement rfl).bind fun _ =>
      (commitsNone_statement rfl).bind fun _ => Prog.uses_pure _ _
  · exact Prog.uses_pure _ _
  · refine Prog.Uses.bind ?_ fun _ => Prog.uses_pure _ _
    unfold Activities.armBackoff
    split
    · exact Prog.uses_pure _ _
    · exact Prog.Uses.bind ⟨rfl, fun _ => trivial⟩ fun _ => (commitsNone_statement rfl).bind
        fun _ => (commitsNone_statement rfl).bind fun _ => Prog.uses_pure _ _

theorem commitsNone_drain (unit : SyncUnit) : CommitsNone (a.drain i conn connector unit) := by
  refine (uses_drain a connector unit).mono fun c hc => ?_
  cases hc with
  | tokens hc => exact commits_of_touchesTokens hc
  | _ => rfl

theorem commitsNone_throttleFeedback (id : Uuid) (e : Err) :
    CommitsNone (Activities.throttleFeedback id e) := by
  unfold Activities.throttleFeedback
  split
  · refine Prog.Uses.bind ?_ fun _ => Prog.uses_pure _ _
    unfold Admission.recordThrottle
    split
    · exact Prog.Uses.bind ⟨rfl, fun _ => trivial⟩ fun _ => commitsNone_statement rfl
    · exact commitsNone_statement rfl
  · exact Prog.uses_pure _ _

/-- A drain that has not come to its end is not committed. -/
theorem commitsNone_finishUnit {result : Except Err Bool} (h : result ≠ .ok true) (written : ℕ) :
    CommitsNone (Activities.finishUnit i conn connector result written) := by
  refine Prog.Uses.bind ?_ fun _ => Prog.Uses.bind ⟨rfl, fun _ => trivial⟩ fun b => ?_
  · unfold Activities.flushProgress
    split
    · exact (commitsNone_statement rfl).bind fun _ => Prog.uses_pure _ _
    · exact Prog.uses_pure _ _
  · split
    · exact Prog.uses_pure _ _
    · split
      · exact (commitsNone_throttleFeedback _ _).bind fun _ =>
          (commitsNone_classify _ _ _).bind fun _ => Prog.uses_pure _ _
      · refine (commitsNone_statement rfl).bind fun _ => ?_
        split
        · rename_i hdone
          exact absurd (congrArg Except.ok hdone) h
        · exact Prog.uses_pure _ _

theorem commitsNone_acquire (k : Scope) (connectorID : String) (budget : RateBudget) :
    CommitsNone (Admission.acquire k connectorID budget) := by
  refine (commitsNone_statement rfl).bind fun r => ?_
  split
  · exact Prog.uses_pure _ _
  · refine (commitsNone_statement rfl).bind fun r => ?_
    split <;> exact Prog.uses_pure _ _

variable {a} {id : Uuid} {x : String} {ls : List (Performed World Choice Cmd)}

/-- What is left of a program that commits no unit does not commit one. -/
theorem CommitsNone.not_log {α : Type} {p : Program α}
    {k : (Cmd.statement (.commitUnit id x)).Resp → Program α} (hp : CommitsNone p) :
    ¬ Log service p ls (.call (.statement (.commitUnit id x)) k) :=
  fun h => nomatch (h.uses hp).1

/-- A program that has returned does not commit a unit. -/
theorem not_log_pure {α : Type} {r : α}
    {k : (Cmd.statement (.commitUnit id x)).Resp → Program α} :
    ¬ Log service (Prog.pure r) ls (.call (.statement (.commitUnit id x)) k) :=
  fun h => nomatch h.of_pure.2

/-- What follows a program that commits no unit. -/
theorem CommitsNone.past {α β : Type} {p : Program α} {f : α → Program β}
    {k : (Cmd.statement (.commitUnit id x)).Resp → Program β} (hp : CommitsNone p)
    (h : Log service (p.bind f) ls (.call (.statement (.commitUnit id x)) k)) :
    ∃ ls₁ ls₂ r, ls = ls₁ ++ ls₂ ∧ Log service p ls₁ (.pure r) ∧
      Log service (f r) ls₂ (.call (.statement (.commitUnit id x)) k) :=
  h.past_bind hp fun hc => nomatch hc

/-- What is done before does not matter. -/
theorem DrainedBy.after {unit : SyncUnit} (h : DrainedBy a i conn connector unit ls)
    (ls' : List (Performed World Choice Cmd)) : DrainedBy a i conn connector unit (ls' ++ ls) := by
  obtain ⟨st, ls₀, ls₁, ls₂, rfl, hdrain⟩ := h
  exact ⟨st, ls' ++ ls₀, ls₁, ls₂, (List.append_assoc _ _ _).symm, hdrain⟩

theorem drained_of_drainUnit {unit : SyncUnit}
    {k : (Cmd.statement (.commitUnit id x)).Resp → Program (Except ActivityError SyncResult)}
    (h : Log service (a.drainUnit i conn connector unit) ls
      (.call (.statement (.commitUnit id x)) k)) : DrainedBy a i conn connector unit ls := by
  obtain ⟨ls₁, ls₂, ⟨result, st⟩, rfl, hdrain, hfinish⟩ :=
    CommitsNone.past (commitsNone_drain a unit) h
  by_cases hdone : result = .ok true
  · subst hdone
    exact ⟨st, [], ls₁, ls₂, rfl, hdrain⟩
  · exact absurd hfinish (commitsNone_finishUnit hdone st.written).not_log

theorem drained_of_admitted {unit : SyncUnit}
    {k : (Cmd.statement (.commitUnit id x)).Resp → Program (Except ActivityError SyncResult)}
    (h : Log service (a.admitted i conn connector unit) ls
      (.call (.statement (.commitUnit id x)) k)) : DrainedBy a i conn connector unit ls := by
  obtain ⟨ls₁, ls₂, r, rfl, -, hrest⟩ := (commitsNone_acquire _ _ _).past h
  refine DrainedBy.after ?_ ls₁
  cases r with
  | error e => exact absurd hrest not_log_pure
  | ok granted =>
    cases granted with
    | false => exact absurd hrest not_log_pure
    | true =>
      rcases Log.of_bind hrest with ⟨c, k', heq, hlog⟩ | ⟨ls₃, ls₄, r, rfl, -, hrelease⟩
      · cases heq
        exact drained_of_drainUnit hlog
      · have hnone : CommitsNone ((Admission.release (.credential i.connectionID)).bind
            fun _ => (Prog.pure r : Program (Except ActivityError SyncResult))) :=
          (commitsNone_statement rfl).bind fun _ => Prog.uses_pure _ _
        exact absurd hrelease hnone.not_log

theorem drained_of_syncLoaded
    {k : (Cmd.statement (.commitUnit id x)).Resp → Program (Except ActivityError SyncResult)}
    (h : Log service (a.syncLoaded i conn connector) ls
      (.call (.statement (.commitUnit id x)) k)) :
    ∃ unit ls₁ ls₂, ls = ls₁ ++ ls₂ ∧
      Log service (statement (.getSyncUnit i.connectionID i.unitID)) ls₁ (.pure (.ok unit)) ∧
      DrainedBy a i conn connector unit ls₂ := by
  obtain ⟨ls₁, rest₁, r₁, rfl, hlook, h₁⟩ := (commitsNone_statement rfl).past h
  cases r₁ with
  | error e => exact absurd h₁ not_log_pure
  | ok unit =>
    refine ⟨unit, ls₁, rest₁, rfl, hlook, ?_⟩
    obtain ⟨ls₂, rest₂, r₂, rfl, -, h₂⟩ := (commitsNone_statement rfl).past h₁
    refine DrainedBy.after ?_ ls₂
    cases r₂ with
    | error e => exact absurd h₂ not_log_pure
    | ok _ =>
      obtain ⟨ls₃, rest₃, r₃, rfl, -, h₃⟩ := (commitsNone_statement rfl).past h₂
      refine DrainedBy.after ?_ ls₃
      obtain ⟨ls₄, rest₄, r₄, rfl, -, h₄⟩ := (a.touchesTokens_clientFor _).commitsNone.past h₃
      refine DrainedBy.after ?_ ls₄
      cases r₄ with
      | error e =>
        have hnone : CommitsNone ((Activities.classify conn i.unitID e).bind fun err =>
            (Prog.pure (.error err) : Program (Except ActivityError SyncResult))) :=
          (commitsNone_classify _ _ _).bind fun _ => Prog.uses_pure _ _
        exact absurd h₄ hnone.not_log
      | ok _ => exact drained_of_admitted h₄

/-- **An execution that commits its unit has drained it to the end.** -/
theorem drained_of_commit
    {k : (Cmd.statement (.commitUnit id x)).Resp → Program (Except ActivityError SyncResult)}
    (h : Log service (a.syncUnit i) ls (.call (.statement (.commitUnit id x)) k)) :
    (id = i.connectionID ∧ x = i.unitID) ∧ DrainedToEnd a i ls := by
  rw [syncUnit_eq] at h
  obtain ⟨ls₀, rest, r, rfl, hload, hfrom⟩ :=
    (a.touchesTokens_loadConnection _).commitsNone.past h
  cases r with
  | error e => exact absurd hfrom not_log_pure
  | ok cc =>
    have hissued := (hfrom.uses (uses_syncLoaded a cc.2)).1
    obtain ⟨unit, ls₁, ls₂, rfl, hlook, hdrained⟩ := drained_of_syncLoaded hfrom
    refine ⟨?_, cc.1, cc.2, unit, ls₀, ls₁, ls₂, rfl, hload, hlook, hdrained⟩
    cases hissued with
    | tokens hc => cases hc
    | commitUnit => exact ⟨rfl, rfl⟩

end Parts

/-! ### Only `SyncUnit` commits a unit -/

theorem commits_of_routine {c : Cmd} (h : c.routine = true) : c.commits = false := by
  cases c with
  | statement s => cases s <;> first | rfl | cases h
  | _ => rfl

theorem commits_of_inPass {conn : Connection} {c : Cmd} (h : InPass conn c) :
    c.commits = false := by
  cases h with
  | tokens hc => exact commits_of_touchesTokens hc
  | _ => rfl

theorem commitsNone_discoverUnits (a : Activities) (id : Uuid) :
    CommitsNone (a.discoverUnits id) := by
  rw [discoverUnits_loaded]
  refine (a.touchesTokens_loadConnection id).commitsNone.bind fun r => ?_
  cases r with
  | error e => exact Prog.uses_pure _ _
  | ok cc => exact (uses_discoverLoaded a cc.2).mono fun _ => commits_of_inPass

theorem commits_of_settles {c : Cmd} (h : c.settles = true) : c.commits = false := by
  cases c with
  | statement s => cases s <;> first | rfl | cases h
  | _ => rfl

theorem Job.commitsNone (a : Activities) (sv : Server) {j : Job} (hj : ∀ i, j ≠ .syncUnit i) :
    CommitsNone (j.prog a sv) := by
  by_cases hroutine : j.isRoutine = true
  · exact (Job.routine a sv hroutine).mono fun _ => commits_of_routine
  · cases j with
    | syncUnit i => exact absurd rfl (hj i)
    | settleConnection id =>
      exact uses_discard ((uses_settleConnection id).mono fun _ => commits_of_settles)
    | upkeep u =>
      cases u with
      | discoverUnits id => exact uses_discard (commitsNone_discoverUnits a id)
      | _ => exact absurd rfl hroutine
    | _ => exact absurd rfl hroutine

/-- **A job that commits a unit is an execution of `SyncUnit`.** -/
theorem syncUnit_of_commit {a : Activities} {sv : Server} {j : Job} {id : Uuid} {x : String}
    {ls : List (Performed World Choice Cmd)}
    {k : (Cmd.statement (.commitUnit id x)).Resp → Program Unit}
    (h : Log service (j.prog a sv) ls (.call (.statement (.commitUnit id x)) k)) :
    ∃ i k', Log service (a.syncUnit i) ls (.call (.statement (.commitUnit id x)) k') := by
  by_cases hj : ∃ i, j = .syncUnit i
  · obtain ⟨i, rfl⟩ := hj
    obtain ⟨p, heq, hlog⟩ := Log.of_map h
    cases p with
    | pure r => cases heq
    | call c k' =>
      cases heq
      exact ⟨i, k', hlog⟩
  · have hnone : CommitsNone (j.prog a sv) :=
      Job.commitsNone a sv fun i heq => hj ⟨i, heq⟩
    exact absurd h hnone.not_log

/-! ### Full passes -/

/-- **A full pass**: an execution of `SyncUnit` has drained the unit to the end, and has then
committed it, when its row was there. -/
def Passed (a : Activities) (u : SyncUnit) (tr : List (ℕ × Performed World Choice Cmd)) : Prop :=
  ∃ pre th l post i k, tr = pre ++ (th, l) :: post ∧
    l.cmd = .statement (.commitUnit u.connectionID u.externalID) ∧ tookEffect l = true ∧
    (∃ u₀ ∈ l.state.db.units.rows, u₀.id = u.id) ∧
    Log service (a.syncUnit i) (byThread th pre)
      (.call (.statement (.commitUnit u.connectionID u.externalID)) k) ∧
    DrainedToEnd a i (byThread th pre)

section Passed

variable {a : Activities} {u u' : SyncUnit} {tr : List (ℕ × Performed World Choice Cmd)}

theorem Passed.mono (h : Passed a u tr) (tr' : List (ℕ × Performed World Choice Cmd)) :
    Passed a u (tr ++ tr') := by
  obtain ⟨pre, th, l, post, i, k, rfl, hpass⟩ := h
  exact ⟨pre, th, l, post ++ tr', i, k, by simp, hpass⟩

/-- A full pass is one of the row, whatever else is written to it. -/
theorem Passed.congr (h : Passed a u tr) (hid : u'.id = u.id) (hkey : u'.key = u.key) :
    Passed a u' tr := by
  obtain ⟨hconn, hx⟩ : u'.connectionID = u.connectionID ∧ u'.externalID = u.externalID :=
    Prod.mk.inj hkey
  obtain ⟨pre, th, l, post, i, k, rfl, hpass⟩ := h
  rw [← hconn, ← hx, ← hid] at hpass
  exact ⟨pre, th, l, post, i, k, rfl, hpass⟩

/-- The full pass was there before, or has just been committed. -/
theorem Passed.of_snoc {th : ℕ} {l : Performed World Choice Cmd}
    (h : Passed a u (tr ++ [(th, l)])) :
    Passed a u tr ∨ l.cmd = .statement (.commitUnit u.connectionID u.externalID) ∧
      tookEffect l = true := by
  obtain ⟨pre, th', l', post, i, k, heq, hcmd, heff, hpass⟩ := h
  rcases List.eq_nil_or_concat post with rfl | ⟨post', c, rfl⟩
  · obtain ⟨rfl, hlast⟩ := List.append_inj' heq rfl
    obtain ⟨-, rfl⟩ := Prod.mk.inj (List.cons.inj hlast).1
    exact .inr ⟨hcmd, heff⟩
  · have heq' : tr ++ [(th, l)] = (pre ++ (th', l') :: post') ++ [c] := by simpa using heq
    obtain ⟨rfl, -⟩ := List.append_inj' heq' rfl
    exact .inl ⟨pre, th', l', post', i, k, rfl, hcmd, heff, hpass⟩

end Passed

/-- What holds of the stamps of the units and the trace. -/
structure PassInv (a : Activities) (w : World) (tr : List (ℕ × Performed World Choice Cmd)) :
    Prop where
  passed_iff : ∀ u ∈ w.db.units.rows, Passed a u tr ↔ u.committedAt.isSome = true
  /-- Ids are not used again, so that a new row has not been passed. -/
  fresh : ∀ l ∈ tr, l.2.state.db.units.next ≤ w.db.units.next

/-- `CommitUnit` stamps its unit. -/
theorem stamped_of_commitUnit {db : Database} {now : Time} {u : SyncUnit}
    (h : u ∈ ((Statement.commitUnit u.connectionID u.externalID).exec now db).2.units.rows) :
    u.committedAt.isSome = true := by
  obtain ⟨u₀, -, hu⟩ := List.mem_map.mp h
  unfold Table.updated at hu
  by_cases hp : u₀.is u.connectionID u.externalID = true
  · rw [if_pos hp] at hu
    rw [← hu]
    rfl
  · rw [if_neg hp] at hu
    subst hu
    simp [SyncUnit.is] at hp

/-- A rewrite that stamps a unit is `CommitUnit`. -/
theorem Rewrites.stamps {db : Database} {now : Time} {s : Statement} {u u' : SyncUnit}
    (h : Rewrites now db s u u') (hu' : u'.committedAt.isSome = true) :
    u.committedAt.isSome = true ∨ s = .commitUnit u.connectionID u.externalID := by
  cases h with
  | commit => exact .inr rfl
  | _ => exact .inl hu'

section Step

variable {a : Activities} {sv : Server} {w : World} {tr : List (ℕ × Performed World Choice Cmd)}
  {th : ℕ} {t : Choice} {b : Bool} {c : Cmd}

/-- A new row has not been passed. -/
theorem PassInv.not_discovered (hinv : PassInv a w tr) {now : Time} {id : Uuid}
    {x name kind : String} {g : ℤ} :
    ¬ Passed a (SyncUnit.discovered now id x name kind g w.db.units.next) tr := by
  rintro ⟨pre, th, l, post, i, k, rfl, -, -, ⟨u₀, hu₀, hid⟩, -⟩
  have hlt : u₀.id < l.state.db.units.next := l.state.db.units.id_lt u₀ hu₀
  have hle : l.state.db.units.next ≤ w.db.units.next := hinv.fresh (th, l) (by simp)
  exact Nat.ne_of_lt (Nat.lt_of_lt_of_le hlt hle) hid

/-- A commit that takes effect ends a full pass. -/
theorem passed_of_commit {u : SyncUnit} {j : Job}
    {k : (Cmd.statement (.commitUnit u.connectionID u.externalID)).Resp → Program Unit}
    (hu : u ∈ w.db.units.rows) (heff : t.takesEffect b = true)
    (hlog : Log service (j.prog a sv) (byThread th tr)
      (.call (.statement (.commitUnit u.connectionID u.externalID)) k)) :
    Passed a u (tr ++ [(th, ⟨w, .statement (.commitUnit u.connectionID u.externalID), b, t⟩)]) := by
  obtain ⟨i, k', hsync⟩ := syncUnit_of_commit hlog
  exact ⟨tr, th, _, [], i, k', rfl, rfl, heff, ⟨u, hu, rfl⟩, hsync, (drained_of_commit hsync).2⟩

/-- **A statement that takes effect keeps the stamps in step with the passes.** -/
theorem PassInv.exec (hinv : PassInv a w tr) {s : Statement} {j : Job}
    {k : (Cmd.statement s).Resp → Program Unit} (heff : t.takesEffect b = true)
    (hlog : Log service (j.prog a sv) (byThread th tr) (.call (.statement s) k)) {u' : SyncUnit}
    (hu' : u' ∈ (s.exec (w.now + t.elapsed) w.db).2.units.rows) :
    Passed a u' (tr ++ [(th, ⟨w, .statement s, b, t⟩)]) ↔ u'.committedAt.isSome = true := by
  constructor
  · intro hpassed
    rcases hpassed.of_snoc with hbefore | ⟨hcmd, -⟩
    · rcases unit_exec s hu' with ⟨u, hu, rfl | hrew⟩ | ⟨id, x, name, kind, g, -, -, rfl⟩
      · exact (hinv.passed_iff _ hu).mp hbefore
      · have hu₀ := (hinv.passed_iff u hu).mp (hbefore.congr hrew.id.symm hrew.key.symm)
        exact hrew.committedAt hu₀
      · exact absurd hbefore hinv.not_discovered
    · obtain rfl : s = .commitUnit u'.connectionID u'.externalID := Cmd.statement.inj hcmd
      exact stamped_of_commitUnit hu'
  · intro hstamped
    rcases unit_exec s hu' with ⟨u, hu, rfl | hrew⟩ | ⟨id, x, name, kind, g, -, -, rfl⟩
    · exact ((hinv.passed_iff _ hu).mpr hstamped).mono _
    · refine Passed.congr ?_ hrew.id hrew.key
      rcases hrew.stamps hstamped with hu₀ | rfl
      · exact ((hinv.passed_iff u hu).mpr hu₀).mono _
      · exact passed_of_commit hu heff hlog
    · cases hstamped

theorem PassInv.step (hinv : PassInv a w tr) {j : Job} {k : c.Resp → Program Unit}
    (hlog : Log service (j.prog a sv) (byThread th tr) (.call c k)) :
    PassInv a (service.perform t b w c).1 (tr ++ [(th, ⟨w, c, b, t⟩)]) := by
  have hnext : w.db.units.next ≤ (service.perform t b w c).1.db.units.next := by
    rw [service_db]
    cases c with
    | statement s =>
      dsimp only
      split
      · exact units_next_exec s
      · exact Nat.le_refl _
    | _ => exact Nat.le_refl _
  refine ⟨?_, fun l hl => ?_⟩
  · -- a command that is no statement, or takes no effect, leaves the units alone
    have hsame : ∀ u ∈ w.db.units.rows, (¬ ∃ s, c = .statement s ∧ t.takesEffect b = true) →
        (Passed a u (tr ++ [(th, ⟨w, c, b, t⟩)]) ↔ u.committedAt.isSome = true) := by
      intro u hu hno
      refine ⟨fun hpassed => ?_, fun hstamped => ((hinv.passed_iff u hu).mpr hstamped).mono _⟩
      rcases hpassed.of_snoc with hbefore | ⟨hcmd, heff⟩
      · exact (hinv.passed_iff u hu).mp hbefore
      · exact absurd ⟨_, hcmd, heff⟩ hno
    intro u hu
    rw [service_db] at hu
    cases c with
    | statement s =>
      by_cases heff : t.takesEffect b = true
      · exact hinv.exec heff hlog (by simpa only [if_pos heff] using hu)
      · refine hsame u (by simpa only [if_neg heff] using hu) ?_
        rintro ⟨-, -, heff'⟩
        exact heff heff'
    | _ => exact hsame u hu (by rintro ⟨s, hs, -⟩; cases hs)
  · rcases List.mem_append.mp hl with hl | hl
    · exact Nat.le_trans (hinv.fresh l hl) hnext
    · rw [List.mem_singleton.mp hl]
      exact hnext

end Step

/-! ### What the readers show -/

/-- The artifact belongs to a unit that is there and has been through a full pass. -/
def Whole (a : Activities) (w : World) (tr : List (ℕ × Performed World Choice Cmd))
    (r : RawArtifact) : Prop :=
  ∃ u ∈ w.db.units.rows, u.connectionID = r.connectionID ∧ u.externalID = r.syncContainerID ∧
    Passed a u tr

/-- **No partial data**: what `ListArtifacts` returns, and whatever `GetArtifactContent` serves the
bytes of, is whole. -/
structure NoPartialData (a : Activities) (w : World) (tr : List (ℕ × Performed World Choice Cmd)) :
    Prop where
  listed : ∀ tenant connectionID limit offset resp,
    Server.listArtifacts tenant connectionID limit offset w.db = .ok resp →
    ∀ art ∈ resp.artifacts, ∃ r ∈ w.db.artifacts.rows, r.id = art.id ∧ Whole a w tr r
  served : ∀ tenant id resp, Server.getArtifactContent tenant id w = .ok resp →
    ∃ r ∈ w.db.artifacts.rows, r.id = id ∧ Whole a w tr r

/-- What can be served passes the gate of the listing: an artifact that is not hidden, with its
object in storage, belongs to a committed unit. -/
def ContentGated (w : World) : Prop :=
  ∀ r ∈ w.db.artifacts.rows, r.deletedAt = none → r.tenantID ≠ "" →
    Storage.stored r.objectKey w.objects = true → visible w.db r = true

instance (w : World) : Decidable (ContentGated w) :=
  inferInstanceAs (Decidable (∀ r ∈ w.db.artifacts.rows, _))

theorem PassInv.whole_iff {a : Activities} {w : World}
    {tr : List (ℕ × Performed World Choice Cmd)} (hinv : PassInv a w tr) {r : RawArtifact}
    (hlive : r.deletedAt = none) : Whole a w tr r ↔ visible w.db r = true := by
  unfold visible hasUnit
  rw [hlive, Option.isNone_none, Bool.true_and, List.any_eq_true]
  constructor
  · rintro ⟨u, hu, hid, hx, hpassed⟩
    exact ⟨u, hu, by simp [SyncUnit.is, hid, hx, (hinv.passed_iff u hu).mp hpassed]⟩
  · rintro ⟨u, hu, hp⟩
    simp only [SyncUnit.is, Bool.and_eq_true, decide_eq_true_eq] at hp
    exact ⟨u, hu, hp.1.1, hp.1.2, (hinv.passed_iff u hu).mpr hp.2⟩

/-- **No partial data is exposed exactly if what can be served belongs to a committed unit**, in
every state that the jobs reach from one in which no unit is committed. -/
theorem no_partial_data_iff (a : Activities) (sv : Server) {w : World}
    {es : List (PoolEvent Job Choice)} {s : Pool World Cmd Cmd.Resp Unit}
    {tr : List (ℕ × Performed World Choice Cmd)}
    (hstart : ∀ u ∈ w.db.units.rows, u.committedAt = none)
    (h : (service.threads (Job.prog a sv)).Run ⟨w, []⟩ es s tr) :
    NoPartialData a s.world tr ↔ ContentGated s.world := by
  have hinv : PassInv a s.world tr := by
    refine threads_invariant_log h ?_ ?_
    · refine ⟨fun u hu => ?_, by simp⟩
      rw [hstart u hu]
      refine ⟨?_, fun hstamped => nomatch hstamped⟩
      rintro ⟨pre, th, l, post, i, k, heq, -⟩
      simp at heq
    · intro s tr i t c k b j _ _ hlog hinv
      exact hinv.step hlog
  constructor
  · intro hno r hr hlive htenant hstored
    obtain ⟨resp, hresp⟩ := Server.getArtifactContent_eq hr hlive htenant hstored
    obtain ⟨r', hr', hid, hwhole⟩ := hno.served _ _ _ hresp
    obtain rfl : r' = r := s.world.db.artifacts.eq_of_id hr' hr hid
    exact (hinv.whole_iff hlive).mp hwhole
  · intro hgated
    refine ⟨?_, ?_⟩
    · intro tenant connectionID limit offset resp hresp art hart
      obtain ⟨r, hr, hid, hvisible⟩ := Server.of_listArtifacts hresp hart
      have hlive : r.deletedAt = none :=
        Option.isNone_iff_eq_none.mp (Bool.and_eq_true_iff.mp hvisible).1
      exact ⟨r, hr, hid, (hinv.whole_iff hlive).mpr hvisible⟩
    · intro tenant id resp hresp
      obtain ⟨r, hr, hid, hlive, htenant, hstored⟩ := Server.of_getArtifactContent hresp
      exact ⟨r, hr, hid, (hinv.whole_iff hlive).mpr (hgated r hr hlive htenant hstored)⟩

/-! ### A stopped backfill -/

/-- The first drain of Ann's Drive, to its end. -/
def backfill : List (PoolEvent Job Choice) := .start (.syncUnit driveInput) :: docTurns 0 22

/-- The same, stopped when the document is written: the execution gives up and returns. -/
def stoppedBackfill : List (PoolEvent Job Choice) :=
  .start (.syncUnit driveInput) :: docTurns 0 14 ++
    List.replicate 3 (.turn 0 ⟨true, quietly docAnswers⟩)

-- the drain has not been committed when it starts
example : freshDrive.db.units.rows.all (fun u => u.committedAt.isNone) = true := by decide +kernel

/-- What a backfill that came to its end exposes is whole. -/
theorem backfill_no_partial_data :
    ∃ s tr, (service.threads (Job.prog driveActivities driveServer)).Run ⟨freshDrive, []⟩ backfill
        s tr ∧ s.world.db.artifacts.rows.length = 1 ∧ NoPartialData driveActivities s.world tr := by
  obtain ⟨s, tr, hrun, hend⟩ := Lts.exists_run_of_any
    (service.threads (Job.prog driveActivities driveServer)) ⟨freshDrive, []⟩ backfill
    (fun s _ => decide (s.world.db.artifacts.rows.length = 1) && decide (ContentGated s.world))
    (by decide +kernel)
  simp only [Bool.and_eq_true, decide_eq_true_eq] at hend
  refine ⟨s, tr, hrun, hend.1, ?_⟩
  exact (no_partial_data_iff driveActivities driveServer (by decide +kernel) hrun).mpr hend.2

/-- Whether bytes are served although nothing was ever committed. -/
def servesUncommitted (tenant : Option String) (id : Uuid) (w : World)
    (tr : List (ℕ × Performed World Choice Cmd)) : Bool :=
  (Server.getArtifactContent tenant id w).isOk && tr.all fun l => !l.2.cmd.commits

theorem exposed_of_servesUncommitted {a : Activities} {tenant : Option String} {id : Uuid}
    {w : World} {tr : List (ℕ × Performed World Choice Cmd)}
    (h : servesUncommitted tenant id w tr = true) : ¬ NoPartialData a w tr := by
  obtain ⟨hserved, hnone⟩ := Bool.and_eq_true_iff.mp h
  intro hno
  cases hresp : Server.getArtifactContent tenant id w with
  | error e =>
    rw [hresp] at hserved
    cases hserved
  | ok resp =>
    obtain ⟨-, -, -, u, -, -, -, pre, th, l, post, -, -, rfl, hcmd, -⟩ := hno.served _ _ _ hresp
    have hl := List.all_eq_true.mp hnone (th, l) (by simp)
    rw [hcmd] at hl
    cases hl

/-- **The bytes of a stopped backfill are served**: the drain was stopped before its end, its unit
is not committed, and `GetArtifactContent` serves what it has written. -/
theorem stopped_backfill_served :
    ∃ s tr, (service.threads (Job.prog driveActivities driveServer)).Run ⟨freshDrive, []⟩
        stoppedBackfill s tr ∧ s.returned ∧
      (∃ resp, Server.getArtifactContent (some "acme") 0 s.world = .ok resp) ∧
      ¬ NoPartialData driveActivities s.world tr := by
  obtain ⟨s, tr, hrun, hend⟩ := Lts.exists_run_of_any
    (service.threads (Job.prog driveActivities driveServer)) ⟨freshDrive, []⟩ stoppedBackfill
    (fun s tr => s.allReturned && servesUncommitted (some "acme") 0 s.world tr)
    (by decide +kernel)
  obtain ⟨hreturned, hserves⟩ := Bool.and_eq_true_iff.mp hend
  refine ⟨s, tr, hrun, Pool.returned_of_allReturned hreturned, ?_,
    exposed_of_servesUncommitted hserves⟩
  cases hresp : Server.getArtifactContent (some "acme") 0 s.world with
  | error e =>
    rw [servesUncommitted, hresp] at hserves
    cases hserves
  | ok resp => exact ⟨resp, rfl⟩

end Hivebook
