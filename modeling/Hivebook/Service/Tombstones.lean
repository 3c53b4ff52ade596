import Hivebook.Connectors.Account
import Hivebook.Service.Overlap

/-!
# What a sweep tombstones

A pass of `DiscoverUnits` marks the units its connector returned and tombstones the rest.
The connector of GitHub leaves out part of the account without a word: the repositories
behind the first `ghMaxRepos` of the listing, the boards of accounts that own none of
these, and the boards of an account whose listing fails.  The guard against degraded
discoveries compares counts only, so the sweep tombstones such a unit although it exists.

## Main definitions

* `Pass.told` — the account answers as the pass finds it.
* `Pass.spares` — at the sweep, every live unit that exists is one the pass is shown.
* `Sighting`, `sighting` — what a pass has marked, and when it may sweep.

## Main results

* `follows_sighting` — **at the sweep a pass has marked everything it was shown.**
* `only_absent_tombstoned` — **in every sequence of passes that meets the condition, a unit
  is tombstoned only if it no longer exists.**
* `board_tombstoned` — one failed request for the boards, and a board that exists is
  tombstoned.
-/

namespace Hivebook

open Database Machine Connectors

/-! ### What a pass may do -/

/-- What a running pass has marked, and with which generation. -/
structure Sighting where
  /-- The source and the database have answered truthfully. -/
  honest : Prop
  marked : List (String × ℤ)

/-- A pass that starts. -/
def Sighting.init : Sighting := { honest := True, marked := [] }

section Protocol

variable (p : Pass) (id : Uuid) (connectorID : String)

/-- How a response moves a pass on. -/
def Sighting.next (g : Sighting) : (c : Cmd) → c.Resp → Sighting
  | .request q, r => { g with honest := g.honest ∧ p.tells q r = true }
  | .statement (.getConnectionByID id'), .ok conn =>
      { g with honest := g.honest ∧
          (id' = id → conn.id = id ∧ conn.connectorID = connectorID) }
  | .statement (.upsertSyncUnit _ x _ _ generation), .ok _ =>
      { g with marked := (x, generation) :: g.marked }
  | _, _ => g

/-- What a pass may do: it marks with one generation, and sweeps by it when it has marked
everything it is shown. -/
def sighting : Protocol Sighting Cmd Cmd.Resp where
  allowed g
    | .statement (.upsertSyncUnit id' _ _ _ generation) =>
        g.honest → id' = id ∧ ∀ m ∈ g.marked, m.2 = generation
    | .statement (.sweepUnseenUnits id' generation) =>
        g.honest → id' = id ∧ ∀ x, p.reaches x = true → (x, generation) ∈ g.marked
    | c => c.keepsCatalog = true
  next := Sighting.next p id connectorID

end Protocol

section Follows

variable {p : Pass} {id : Uuid} {connectorID : String} {α : Type}

/-- The same units are marked, and what is truthful now was before. -/
def Sighting.Grows (g g' : Sighting) : Prop := (g'.honest → g.honest) ∧ g'.marked = g.marked

theorem Sighting.Grows.refl (g : Sighting) : g.Grows g := ⟨fun h => h, rfl⟩

theorem Sighting.Grows.trans {g g' g'' : Sighting} (h : g.Grows g') (h' : g'.Grows g'') :
    g.Grows g'' := ⟨fun hg => h.1 (h'.1 hg), h'.2.trans h.2⟩

/-- A command that keeps the catalog is allowed, and marks nothing. -/
theorem sighting_of_keepsCatalog {c : Cmd} (hc : c.keepsCatalog = true) (g : Sighting) :
    (sighting p id connectorID).allowed g c ∧
      ∀ r, g.Grows ((sighting p id connectorID).next g c r) := by
  cases c with
  | request q => exact ⟨hc, fun r => ⟨And.left, rfl⟩⟩
  | statement s =>
    refine ⟨?_, fun r => ?_⟩
    · cases s <;> first | exact hc | cases hc
    · cases s with
      | getConnectionByID id' =>
        cases r with
        | error e => exact .refl g
        | ok conn => exact ⟨And.left, rfl⟩
      | upsertSyncUnit _ _ _ _ _ => cases hc
      | _ => exact .refl g
  | _ => exact ⟨rfl, fun _ => .refl g⟩

theorem follows_sighting_of_keepsCatalog {prog : Program α}
    (hp : prog.Uses fun c => c.keepsCatalog = true) (g : Sighting) :
    prog.Follows (sighting p id connectorID) (fun _ => g.Grows) g := by
  refine Prog.follows_of_uses (hp.mono fun c hc g' hg' => ?_) (.refl g)
  obtain ⟨hallowed, hnext⟩ := sighting_of_keepsCatalog hc g'
  exact ⟨hallowed, fun r => hg'.trans (hnext r)⟩

theorem Incidental.follows_sighting {prog : Program α} (hp : Incidental prog) (g : Sighting) :
    prog.Follows (sighting p id connectorID) (fun _ => g.Grows) g :=
  follows_sighting_of_keepsCatalog
    (hp.mono fun _ hc => ((Bool.and_eq_true _ _).mp hc).2) g

/-- What a discovery is told, the pass is told. -/
theorem follows_sighting_fetch {prog : FetchProg α} {Q : α → Prop → Prop} {g : Sighting}
    (hprog : prog.Follows p.telling Q g.honest) :
    (fetch prog).Follows (sighting p id connectorID)
      (fun r g' => g.Grows g' ∧ ∃ h, Q r h ∧ (g'.honest → h)) g := by
  refine (Prog.Follows.interpret
    (I := fun h (_ : Unit) g' => g.Grows g' ∧ (g'.honest → h)) hprog ?_
    ⟨Sighting.Grows.refl g, fun h => h⟩).bind fun r g' hr => ?_
  · rintro c t h g' ⟨hgrows, hh⟩ -
    cases c with
    | ctxErr => exact ⟨rfl, fun _ => ⟨hgrows, hh⟩⟩
    | request q =>
      refine ⟨rfl, fun reply => ⟨hgrows.trans ⟨And.left, rfl⟩, ?_⟩⟩
      rintro ⟨hg', htells⟩
      exact ⟨hh hg', htells⟩
  · obtain ⟨h, hQ, hgrows, hh⟩ := hr
    exact ⟨hgrows, h, hQ, hh⟩

/-- **The mark loop** has marked every unit when it is through. -/
theorem follows_sighting_markUnits (conn : Connection) (generation : ℤ) (us : List SourceUnit)
    (g : Sighting) (hid : g.honest → conn.id = id) (hg : ∀ m ∈ g.marked, m.2 = generation) :
    (Activities.markUnits conn generation us).Follows (sighting p id connectorID)
      (fun r g' => (g'.honest → g.honest) ∧ (r = .ok () → g.marked ⊆ g'.marked ∧
        ∀ u ∈ us, (u.id, generation) ∈ g'.marked)) g := by
  induction us generalizing g with
  | nil => exact ⟨fun h => h, fun _ => ⟨List.Subset.refl _, fun u hu => nomatch hu⟩⟩
  | cons u us ih =>
    refine ⟨fun hh => ⟨hid hh, hg⟩, fun r => ?_⟩
    cases r with
    | error e => exact ⟨fun h => h, fun h => nomatch h⟩
    | ok _ =>
      refine Prog.Follows.mono (ih { g with marked := (u.id, generation) :: g.marked } hid ?_)
        fun r g' hr => ⟨hr.1, fun hok => ?_⟩
      · intro m hm
        rcases List.mem_cons.mp hm with rfl | hm
        · rfl
        · exact hg m hm
      · obtain ⟨hsub, hmarked⟩ := hr.2 hok
        refine ⟨fun m hm => hsub (List.mem_cons_of_mem _ hm), fun u' hu' => ?_⟩
        rcases List.mem_cons.mp hu' with rfl | hu'
        · exact hsub (List.mem_cons_self ..)
        · exact hmarked u' hu'

/-- The end of a pass keeps the catalog. -/
theorem follows_sighting_sweep (conn : Connection) (connector : Connector)
    (units : List SourceUnit) (generation : ℤ) (g : Sighting)
    (hg : g.honest → conn.id = id ∧ ∀ x, p.reaches x = true → (x, generation) ∈ g.marked) :
    (Activities.sweep conn connector units generation).Follows (sighting p id connectorID)
      (fun _ _ => True) g := by
  have hfinish : ∀ (swept : ℕ) (g : Sighting),
      (Activities.finishDiscovery conn connector units swept).Follows (sighting p id connectorID)
        (fun _ _ => True) g := fun swept g =>
    ((incidental_finishDiscovery _ _ _ _).follows_sighting g).mono fun _ _ _ => trivial
  refine ⟨hg, fun r => ?_⟩
  cases r with
  | error e => trivial
  | ok swept =>
    show Prog.Follows _ _ _ (if 0 < swept then _ else _)
    split
    · refine ⟨rfl, fun now => ⟨rfl, fun r => ?_⟩⟩
      cases r with
      | error e => trivial
      | ok _ => exact hfinish _ _
    · exact hfinish _ _

/-- `DiscoverUnits` once the units are listed. -/
theorem follows_sighting_reconcile (conn : Connection) (connector : Connector)
    (lastKnownGood : ℕ) (generation : ℤ) (units : List SourceUnit) (g : Sighting)
    (hmarked : g.marked = []) (hg : g.honest → conn.id = id ∧
      ∀ x, p.reaches x = true → x ∈ units.map SourceUnit.id) :
    (Activities.reconcile conn connector lastKnownGood generation units).Follows
      (sighting p id connectorID) (fun _ _ => True) g := by
  have hnone : ∀ m ∈ g.marked, m.2 = generation := by
    rw [hmarked]
    intro m hm
    cases hm
  refine (follows_sighting_markUnits conn generation units g (fun h => (hg h).1) hnone).bind
    fun r g₁ hr => ?_
  cases r with
  | error e => trivial
  | ok _ =>
    obtain ⟨hhonest, hdone⟩ := hr
    obtain ⟨-, hseen⟩ := hdone rfl
    dsimp only
    split
    · exact ((incidental_skipSweep _ _ _).follows_sighting g₁).mono fun _ _ _ => trivial
    · refine follows_sighting_sweep conn connector units generation g₁ fun h => ?_
      obtain ⟨hid, hlisted⟩ := hg (hhonest h)
      refine ⟨hid, fun x hx => ?_⟩
      obtain ⟨u, hu, rfl⟩ := List.mem_map.mp (hlisted x hx)
      exact hseen u hu

/-- **At the sweep a pass has marked everything it was shown.** -/
theorem follows_sighting (a : Activities) (via : RepoListing) {connector : Connector}
    (hreg : a.reg.get connectorID = some connector)
    (hlist : connector.discoverUnits = GitHub.discoverUnitsVia via p.deadline p.order) :
    (a.discoverUnits id).Follows (sighting p id connectorID) (fun _ _ => True)
      Sighting.init := by
  refine ⟨rfl, fun r => ?_⟩
  cases r with
  | error e => trivial
  | ok conn =>
    dsimp only [Prog.pure_bind]
    cases hget : a.reg.get conn.connectorID with
    | none => trivial
    | some connector' =>
      refine ⟨rfl, fun r => ?_⟩
      cases r with
      | error e => trivial
      | ok lastKnownGood =>
        refine ⟨rfl, fun r => ?_⟩
        cases r with
        | error e => trivial
        | ok maxGen =>
          -- what the connection is, once it is loaded
          have hconn : ∀ g : Sighting, ((sighting p id connectorID).next Sighting.init
              (.statement (.getConnectionByID id)) (.ok conn)).Grows g → g.marked = [] ∧
                (g.honest → conn.id = id ∧ conn.connectorID = connectorID) :=
            fun g hg => ⟨hg.2, fun h => (hg.1 h).2 rfl⟩
          refine ((a.touchesTokens_clientFor conn).incidental.follows_sighting _).bind
            fun r g₁ hg₁ => ?_
          cases r with
          | error e =>
            exact ((incidental_classify _ _).follows_sighting g₁).bind fun _ _ _ => trivial
          | ok token =>
            have hshown : connector'.discoverUnits.Follows p.telling
                (fun r h => h → ∀ us, r = .ok us → ∀ x, p.reaches x = true →
                  x ∈ us.map SourceUnit.id) g₁.honest := by
              by_cases heq : conn.connectorID = connectorID
              · rw [heq, hreg] at hget
                cases hget
                rw [hlist]
                exact (p.follows_discoverUnitsVia (h := g₁.honest) via).mono
                  fun r h' hr hh' => (hr hh').2
              · -- the connection is of another connector
                refine (Pass.follows_telling (h := g₁.honest) _).mono fun r h' hr hh' => ?_
                exact absurd ((hconn g₁ hg₁).2 (hr hh')).2 heq
            refine (follows_sighting_fetch hshown).bind fun r g₂ hr => ?_
            obtain ⟨hg₂, h, hQ, hh⟩ := hr
            cases r with
            | error e =>
              exact ((incidental_classify _ _).follows_sighting g₂).bind fun _ _ _ => trivial
            | ok units =>
              obtain ⟨hmarked, hid⟩ := hconn g₂ (hg₁.trans hg₂)
              exact follows_sighting_reconcile conn connector' lastKnownGood _ units g₂ hmarked
                fun hhonest => ⟨(hid hhonest).1, hQ (hh hhonest) units rfl⟩

end Follows

/-! ### The condition, and the invariant -/

/-- The account answers as the pass finds it. -/
def Connectors.Pass.told (p : Pass) (x : Choice) (cancelled : Bool) (_ : World) : Cmd → Bool
  | .request q => p.tells q (if cancelled then .error .canceled else x.answer q)
  | _ => true

/-- A sweep that takes effect finds every live unit of the connection that exists among what
the pass is shown. -/
def Connectors.Pass.spares (p : Pass) (id : Uuid) (x : Choice) (cancelled : Bool) (w : World) :
    Cmd → Bool
  | .statement (.sweepUnseenUnits _ _) => !x.takesEffect cancelled ||
      w.db.units.rows.all fun u => decide (u.connectionID ≠ id) || decide (u.status = .removed) ||
        !p.account.has u.externalID || p.reaches u.externalID
  | _ => true

/-- What holds between two commands of a pass. -/
structure SightInv (id : Uuid) (connectorID : String) (w : World) (g : Sighting) : Prop where
  connection : ∃ tenantID externalID, w.db.HasConnection id (tenantID, connectorID, externalID)
  honest : g.honest
  marked : ∀ m ∈ g.marked, ∃ st, w.db.entry id m.1 = some (st, m.2)

section Invariant

variable {p : Pass} {id : Uuid} {connectorID : String} {w : World} {g : Sighting} {x : Choice}
  {b : Bool}

theorem SightInv.restart (hinv : SightInv id connectorID w g) :
    SightInv id connectorID w Sighting.init where
  connection := hinv.connection
  honest := trivial
  marked := by
    intro m hm
    cases hm

/-- What a statement tells the pass is so. -/
theorem honest_sighting (hinv : SightInv id connectorID w g) {c : Cmd}
    (htold : p.told x b w c = true) :
    ((sighting p id connectorID).next g c (service.perform x b w c).2).honest := by
  cases c with
  | request q => exact ⟨hinv.honest, htold⟩
  | statement s =>
    rw [service_statement]
    cases hr : x.reply b (s.exec (w.now + x.elapsed) w.db).1 with
    | error e => cases s <;> exact hinv.honest
    | ok r =>
      cases s with
      | getConnectionByID id' =>
        refine ⟨hinv.honest, fun hid => ?_⟩
        obtain ⟨hmem, hrow⟩ := mem_of_getConnectionByID (of_reply_eq_ok hr).2
        obtain ⟨tenantID, externalID, hhas⟩ := hinv.connection
        refine ⟨hrow.trans hid, ?_⟩
        exact congrArg (fun key => key.2.1) (key_of_hasConnection hhas hmem (hrow.trans hid))
      | _ => exact hinv.honest
  | putObject bucket key contentType body =>
    generalize (service.perform x b w (.putObject bucket key contentType body)).2 = reply
    cases reply <;> exact hinv.honest
  | deleteObject bucket key =>
    generalize (service.perform x b w (.deleteObject bucket key)).2 = reply
    cases reply <;> exact hinv.honest
  | signalWorkflow id' sig =>
    generalize (service.perform x b w (.signalWorkflow id' sig)).2 = reply
    cases reply <;> exact hinv.honest
  | ctxErr => exact hinv.honest
  | clock => exact hinv.honest

/-- A command that leaves the generations of the marked units alone, and marks nothing. -/
theorem SightInv.keep (hinv : SightInv id connectorID w g) {c : Cmd}
    (htold : p.told x b w c = true)
    (hmarked : ((sighting p id connectorID).next g c (service.perform x b w c).2).marked = g.marked)
    (hentry : ∀ y st gen, w.db.entry id y = some (st, gen) →
      ∃ st', (service.perform x b w c).1.db.entry id y = some (st', gen)) :
    SightInv id connectorID (service.perform x b w c).1
      ((sighting p id connectorID).next g c (service.perform x b w c).2) := by
  refine ⟨?_, honest_sighting hinv htold, fun m hm => ?_⟩
  · obtain ⟨tenantID, externalID, hhas⟩ := hinv.connection
    exact ⟨tenantID, externalID, hasConnection_perform hhas x b c⟩
  · rw [hmarked] at hm
    obtain ⟨st, hst⟩ := hinv.marked m hm
    exact hentry m.1 st m.2 hst

/-- The entries after a statement. -/
theorem entry_statement (s : Statement) (y : String) :
    (service.perform x b w (.statement s)).1.db.entry id y =
      if x.takesEffect b then (s.exec (w.now + x.elapsed) w.db).2.entry id y
      else w.db.entry id y := by
  rw [service_db]
  exact apply_ite (fun db : Database => db.entry id y) _ _ _

/-- A mark stamps the unit, whose generation is that of all marks of the pass. -/
theorem SightInv.mark (hinv : SightInv id connectorID w g) {id' : Uuid} {y name kind : String}
    {gen : ℤ} (hid : id' = id) (hgen : ∀ m ∈ g.marked, m.2 = gen) :
    SightInv id connectorID
      (service.perform x b w (.statement (.upsertSyncUnit id' y name kind gen))).1
      ((sighting p id connectorID).next g (.statement (.upsertSyncUnit id' y name kind gen))
        (service.perform x b w (.statement (.upsertSyncUnit id' y name kind gen))).2) := by
  -- a unit that is marked again gets the generation it had
  have hold : ∀ m ∈ g.marked, ∃ st, (service.perform x b w (.statement
      (.upsertSyncUnit id' y name kind gen))).1.db.entry id m.1 = some (st, m.2) := by
    intro m hm
    obtain ⟨st, hst⟩ := hinv.marked m hm
    rw [entry_statement]
    split
    · refine ⟨st, (entry_upsertSyncUnit _ _ _ _ _ _).trans ?_⟩
      rw [hst]
      split
      · rw [hgen m hm]
        rfl
      · rfl
    · exact ⟨st, hst⟩
  have hconn : ∃ tenantID externalID, (service.perform x b w (.statement
      (.upsertSyncUnit id' y name kind gen))).1.db.HasConnection id
        (tenantID, connectorID, externalID) := by
    obtain ⟨tenantID, externalID, hhas⟩ := hinv.connection
    exact ⟨tenantID, externalID, hasConnection_perform hhas x b _⟩
  have hhonest : ((sighting p id connectorID).next g
      (.statement (.upsertSyncUnit id' y name kind gen))
      (service.perform x b w (.statement (.upsertSyncUnit id' y name kind gen))).2).honest :=
    honest_sighting hinv rfl
  refine ⟨hconn, hhonest, ?_⟩
  rw [service_statement]
  cases hr : x.reply b ((Statement.upsertSyncUnit id' y name kind gen).exec (w.now + x.elapsed)
      w.db).1 with
  | error e => exact hold
  | ok _ =>
    intro m hm
    rcases List.mem_cons.mp hm with rfl | hm
    · refine ⟨((w.db.entry id y).map Prod.fst).getD .idle, ?_⟩
      rw [entry_statement, if_pos (of_reply_eq_ok hr).1]
      refine (entry_upsertSyncUnit _ _ _ _ _ _).trans ?_
      rw [if_pos (by rw [hid])]
    · exact hold m hm

/-- **One command of a pass** keeps the invariant. -/
theorem SightInv.step (hinv : SightInv id connectorID w g) {c : Cmd}
    (hc : (sighting p id connectorID).allowed g c) (htold : p.told x b w c = true) :
    SightInv id connectorID (service.perform x b w c).1
      ((sighting p id connectorID).next g c (service.perform x b w c).2) := by
  have hkeeps : c.keepsCatalog = true → SightInv id connectorID (service.perform x b w c).1
      ((sighting p id connectorID).next g c (service.perform x b w c).2) := by
    intro hkeep
    refine hinv.keep htold ((sighting_of_keepsCatalog hkeep g).2 _).2 fun y st gen hst => ⟨st, ?_⟩
    rw [entry_perform hkeep]
    exact hst
  cases c with
  | statement s =>
    cases s with
    | upsertSyncUnit id' y name kind gen =>
      obtain ⟨hid, hgen⟩ := hc hinv.honest
      exact hinv.mark hid hgen
    | sweepUnseenUnits id' gen =>
      refine hinv.keep htold ?_ fun y st gen' hst => ?_
      · rw [service_statement]
        cases x.reply b ((Statement.sweepUnseenUnits id' gen).exec (w.now + x.elapsed) w.db).1 <;>
          rfl
      · rw [entry_statement]
        split
        · refine ⟨if id' = id ∧ gen' < gen then .removed else st,
            (entry_sweepUnseenUnits _ _ _).trans ?_⟩
          rw [hst, Option.map_some]
          split <;> rfl
        · exact ⟨st, hst⟩
    | _ => exact hkeeps hc
  | _ => exact hkeeps hc

/-- A unit whose entry keeps its status is not tombstoned. -/
theorem not_tombstoned {w' : World} {y : String} (hlive : w.db.hasLiveUnit id y)
    (hsame : ∀ st gen, w.db.entry id y = some (st, gen) →
      ∃ gen', w'.db.entry id y = some (st, gen')) : ¬ w'.db.hasTombstone id y := by
  rintro ⟨gen', hgen'⟩
  obtain ⟨st, gen, hst, hne⟩ := hlive
  obtain ⟨gen'', hkept⟩ := hsame st gen hst
  rw [hgen'] at hkept
  cases hkept
  exact hne rfl

/-- **One command of a pass tombstones no unit that exists.** -/
theorem SightInv.absent (hinv : SightInv id connectorID w g) {c : Cmd}
    (hc : (sighting p id connectorID).allowed g c) (hspares : p.spares id x b w c = true)
    {y : String} (hlive : w.db.hasLiveUnit id y)
    (hgone : (service.perform x b w c).1.db.hasTombstone id y) : p.account.has y = false := by
  have hkeeps : c.keepsCatalog = true → p.account.has y = false := by
    intro hkeep
    refine absurd hgone (not_tombstoned hlive fun st gen hst => ⟨gen, ?_⟩)
    rw [entry_perform hkeep]
    exact hst
  cases c with
  | statement s =>
    cases s with
    | upsertSyncUnit id' z name kind gen =>
      refine absurd hgone (not_tombstoned hlive fun st gen' hst => ?_)
      rw [entry_statement]
      split
      · refine ⟨if (id', z) = (id, y) then gen else gen',
          (entry_upsertSyncUnit _ _ _ _ _ _).trans ?_⟩
        rw [hst]
        split <;> rfl
      · exact ⟨gen', hst⟩
    | sweepUnseenUnits id' gen =>
      by_cases hx : x.takesEffect b = true
      · by_contra hhas
        rw [Bool.not_eq_false] at hhas
        obtain ⟨hid, hmarked⟩ := hc hinv.honest
        -- the unit is live and exists, so the pass was shown it
        have hreach : p.reaches y = true := by
          obtain ⟨u, hu, hkey, hst⟩ := hasLiveUnit_iff.mp hlive
          simp only [Pass.spares, hx, Bool.not_true, Bool.false_or, List.all_eq_true] at hspares
          have hall := hspares u hu
          have hconn : u.connectionID = id := congrArg Prod.fst hkey
          have hext : u.externalID = y := congrArg Prod.snd hkey
          simpa [hconn, hext, hst, hhas] using hall
        -- and has marked it with the generation it sweeps by
        obtain ⟨st', hentry⟩ := hinv.marked _ (hmarked y hreach)
        refine absurd hgone (not_tombstoned hlive fun st gen' hst => ⟨gen', ?_⟩)
        rw [entry_statement, if_pos hx]
        refine (entry_sweepUnseenUnits _ _ _).trans ?_
        rw [hst] at hentry
        cases hentry
        rw [hst]
        simp
      · refine absurd hgone (not_tombstoned hlive fun st gen' hst => ⟨gen', ?_⟩)
        rw [entry_statement, if_neg hx]
        exact hst
    | _ => exact hkeeps hc
  | _ => exact hkeeps hc

end Invariant

/-! ### Every sequence of passes -/

/-- The turns of a sequence of passes in which the accounts answer as they are found, and no
sweep finds a live unit that exists and that its pass is not shown. -/
def sparing (id : Uuid)
    (s : Sequential World Pass Cmd Cmd.Resp (Except ActivityError DiscoverResult)) :
    SeqEvent Pass Choice → Bool :=
  jobCheck (fun p x b w c => p.told x b w c && p.spares id x b w c) s

/-- **Only absent units are tombstoned.**  In every sequence of passes, each over an account
of its own and interrupted anywhere: if every live unit that exists at a sweep is among what
the pass is shown, a step that tombstones a unit finds that it no longer exists. -/
theorem only_absent_tombstoned (acts : Pass → Activities) (via : RepoListing) (id : Uuid)
    {connectorID : String} (hreg : ∀ p, ∃ connector, (acts p).reg.get connectorID = some connector ∧
      connector.discoverUnits = GitHub.discoverUnitsVia via p.deadline p.order)
    {w : World} {es : List (SeqEvent Pass Choice)} {e : SeqEvent Pass Choice}
    {s s' : Sequential World Pass Cmd Cmd.Resp (Except ActivityError DiscoverResult)}
    {tr ls : List (Performed World Choice Cmd)}
    (h : (service.sequential fun p => (acts p).discoverUnits id).RunWhere
      (fun s _ e => sparing id s e = true) ⟨w, none⟩ es s tr)
    (hw : ∃ tenantID externalID, w.db.HasConnection id (tenantID, connectorID, externalID))
    (he : sparing id s e = true)
    (hstep : (service.sequential fun p => (acts p).discoverUnits id).step s e = some (s', ls)) :
    ∀ p th, s.current = some (p, th) → ∀ x, s.world.db.hasLiveUnit id x →
      s'.world.db.hasTombstone id x → p.account.has x = false := by
  obtain ⟨g, hinv, hcurrent⟩ := sequential_follows
    (P := fun p : Pass => sighting p id connectorID) (Q := fun _ _ _ => True)
    (J := fun w g _ => SightInv id connectorID w g) h
    (fun p => by
      obtain ⟨connector, hget, hlist⟩ := hreg p
      exact follows_sighting (acts p) via hget hlist)
    ⟨hw, trivial, fun m hm => by cases hm⟩
    (fun w g _ hinv => hinv.restart)
    (fun s tr t p c k b g hC hcur hallowed hinv =>
      hinv.step hallowed ((Bool.and_eq_true _ _).mp (of_jobCheck hC hcur)).1)
  intro p th hcur x hlive hgone
  cases e with
  | start p' =>
    simp only [sequential, Option.some.injEq, Prod.mk.injEq] at hstep
    obtain ⟨rfl, -⟩ := hstep
    -- a pass that starts changes no unit
    exact absurd hgone (not_tombstoned hlive fun st gen hst => ⟨gen, hst⟩)
  | turn t =>
    obtain ⟨prog, b⟩ := th
    cases prog with
    | pure r => simp [sequential, hcur, turn] at hstep
    | call c k =>
      simp only [sequential, hcur, turn, Option.map_some, Option.some.injEq,
        Prod.mk.injEq] at hstep
      obtain ⟨rfl, -⟩ := hstep
      exact hinv.absent (hcurrent p _ hcur).1
        ((Bool.and_eq_true _ _).mp (of_jobCheck he hcur)).2 hlive hgone

/-! ### A board that cannot be listed -/

/-- The boards of an owner come in one page. -/
def onePage (_ _ : String) : ℕ := 0

theorem onePage_empty (login : String) : onePage login "" = 0 := rfl

/-- Ann's account: a repository, and boards of hers. -/
def annAccount (boards : List GhProject) : Account where
  repos := [{ fullName := "ann/a", ownerLogin := "ann", ownerType := "User" }]
  boards := boards.map fun b => ("ann", b)
  offset := onePage
  offset_empty := onePage_empty

/-- There is time for as many boards as there are. -/
theorem annAccount_patient (boards : List GhProject) (fails : Bool) (login : String)
    (_ : (fun _ : String => fails) login = false) :
    ((annAccount boards).boardsOf login).length < boards.length + 1 := by
  have hle : ((annAccount boards).boardsOf login).length ≤ boards.length := by
    unfold Account.boardsOf
    rw [List.length_map]
    refine le_trans (List.length_filter_le _ _) ?_
    simp [annAccount]
  omega

/-- A pass over it, in which the boards can be listed, or not. -/
def annPass (boards : List GhProject) (fails : Bool) : Pass where
  account := annAccount boards
  fails _ := fails
  deadline := boards.length + 1
  patient := annAccount_patient boards fails
  order owners := owners
  perm := List.Perm.refl

/-- The deployment, for a pass. -/
def passActivities (p : Pass) : Activities :=
  { repoActivities with
    reg := [newGitHub.connector "github_pat" (GitHub.patDiscoverUnits p.deadline p.order)
      fun _ => return .ok []] }

theorem passActivities_github (p : Pass) :
    ∃ connector, (passActivities p).reg.get "github_pat" = some connector ∧
      connector.discoverUnits = GitHub.discoverUnitsVia .user p.deadline p.order := by
  refine ⟨newGitHub.connector "github_pat" (GitHub.patDiscoverUnits p.deadline p.order)
    fun _ => return .ok [], ?_, rfl⟩
  simp [passActivities, Registry.get, GitHub.connector]

/-- A board. -/
def roadmap : GhProject := { id := "PVT_1", title := "Roadmap" }

/-- A pass has seen the repository and the board. -/
def boardSeen : World :=
  worldOf (Database.upsertSyncUnit 0 0 roadmap.id roadmap.title "github_project" 1
    (sawRepo 1 "ann/a" emptyAccount))

/-- What the account answers when it has no boards. -/
def withoutBoards : (q : Request) → Except Err q.Reply := repoAnswers ["ann/a"]

/-- What it answers when the boards cannot be listed. -/
def boardsFailing : (q : Request) → Except Err q.Reply
  | .projects _ _ _ => .error (.failed "502 Bad Gateway")
  | q => repoAnswers ["ann/a"] q

/-- A pass up to its sweep. -/
def upToSweep (p : Pass) (answer : (q : Request) → Except Err q.Reply) :
    List (SeqEvent Pass Choice) :=
  .start p :: List.replicate 6 (.turn ⟨false, quietly answer⟩)

/-- Whether the next turn tombstones the board, which is live. -/
def tombstonesBoard (answer : (q : Request) → Except Err q.Reply)
    (s : Sequential World Pass Cmd Cmd.Resp (Except ActivityError DiscoverResult)) : Bool :=
  ((s.world.db.entry 0 roadmap.id).any fun e => decide (e.1 ≠ .removed)) &&
    ((service.sequential fun p => (passActivities p).discoverUnits 0).step s
      (.turn ⟨false, quietly answer⟩)).any fun r => showsTombstone r.1.world.db 0 roadmap.id

theorem tombstoned_of_check {answer : (q : Request) → Except Err q.Reply}
    {s : Sequential World Pass Cmd Cmd.Resp (Except ActivityError DiscoverResult)}
    (h : tombstonesBoard answer s = true) : s.world.db.hasLiveUnit 0 roadmap.id ∧
      ∃ s' ls, (service.sequential fun p => (passActivities p).discoverUnits 0).step s
        (.turn ⟨false, quietly answer⟩) = some (s', ls) ∧
          s'.world.db.hasTombstone 0 roadmap.id := by
  obtain ⟨hlive, hstep⟩ := (Bool.and_eq_true _ _).mp h
  obtain ⟨⟨st, gen⟩, hentry, hst⟩ := (Option.any_eq_true _ _).mp hlive
  obtain ⟨⟨s', ls⟩, hs', hshows⟩ := (Option.any_eq_true _ _).mp hstep
  exact ⟨⟨st, gen, hentry, of_decide_eq_true hst⟩, s', ls, hs', hasTombstone_of_shows hshows⟩

theorem hasConnection_boardSeen : boardSeen.db.HasConnection 0 ("acme", "github_pat", "ann") := by
  unfold Database.HasConnection
  decide +kernel

/-- A board that is gone is tombstoned, and does not exist. -/
theorem gone_board_tombstoned :
    ∃ s tr s' ls p th, (service.sequential fun p => (passActivities p).discoverUnits 0).Run
        ⟨boardSeen, none⟩ (upToSweep (annPass [] false) withoutBoards) s tr ∧
      (service.sequential fun p => (passActivities p).discoverUnits 0).step s
        (.turn ⟨false, quietly withoutBoards⟩) = some (s', ls) ∧ s.current = some (p, th) ∧
      s.world.db.hasLiveUnit 0 roadmap.id ∧ s'.world.db.hasTombstone 0 roadmap.id ∧
      p.account.has roadmap.id = false := by
  obtain ⟨s, tr, hrun, hend⟩ := Lts.exists_runWhere_of_any
    (service.sequential fun p => (passActivities p).discoverUnits 0)
    (fun s _ e => sparing 0 s e) ⟨boardSeen, none⟩ (upToSweep (annPass [] false) withoutBoards)
    (fun s _ => s.current.isSome && sparing 0 s (.turn ⟨false, quietly withoutBoards⟩) &&
      tombstonesBoard withoutBoards s) (by decide +kernel)
  simp only [Bool.and_eq_true, Option.isSome_iff_exists] at hend
  obtain ⟨⟨⟨⟨p, th⟩, hcur⟩, hspares⟩, htomb⟩ := hend
  obtain ⟨hlive, s', ls, hstep, hgone⟩ := tombstoned_of_check htomb
  refine ⟨s, tr, s', ls, p, th, hrun.run, hstep, hcur, hlive, hgone, ?_⟩
  exact only_absent_tombstoned passActivities .user 0 passActivities_github hrun
    ⟨"acme", "ann", hasConnection_boardSeen⟩ hspares hstep p th hcur _ hlive hgone

/-- **A board that exists is tombstoned** when its account cannot be asked for boards once: the
pass sees one of two live units, which is not degraded, and sweeps. -/
theorem board_tombstoned :
    ∃ s tr s' ls p th, (service.sequential fun p => (passActivities p).discoverUnits 0).RunWhere
        (fun s _ e => jobCheck Pass.told s e = true)
        ⟨boardSeen, none⟩ (upToSweep (annPass [roadmap] true) boardsFailing) s tr ∧
      (service.sequential fun p => (passActivities p).discoverUnits 0).step s
        (.turn ⟨false, quietly boardsFailing⟩) = some (s', ls) ∧ s.current = some (p, th) ∧
      s.world.db.hasLiveUnit 0 roadmap.id ∧ s'.world.db.hasTombstone 0 roadmap.id ∧
      p.account.has roadmap.id = true := by
  obtain ⟨s, tr, hrun, hend⟩ := Lts.exists_runWhere_of_any
    (service.sequential fun p => (passActivities p).discoverUnits 0)
    (fun s _ e => jobCheck Pass.told s e) ⟨boardSeen, none⟩
    (upToSweep (annPass [roadmap] true) boardsFailing)
    (fun s _ => (s.current.any fun c => c.1.account.has roadmap.id) &&
      tombstonesBoard boardsFailing s) (by decide +kernel)
  simp only [Bool.and_eq_true, Option.any_eq_true] at hend
  obtain ⟨⟨⟨p, th⟩, hcur, hhas⟩, htomb⟩ := hend
  obtain ⟨hlive, s', ls, hstep, hgone⟩ := tombstoned_of_check htomb
  exact ⟨s, tr, s', ls, p, th, hrun, hstep, hcur, hlive, hgone, hhas⟩

end Hivebook
