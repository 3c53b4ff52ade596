import Hivebook.Service.Overlap

/-!
# What a degraded discovery leaves alone

A pass that sees nothing, or less than half of the live units, is degraded: it has marked
what it saw, and it stops before the sweep.  A mark may add a unit, so the next pass is
judged against a baseline that has grown at most.

## Main definitions

* `SyncUnit.durable` — the columns of a unit that a pass must not touch.
* `Untouched db db'` — every unit of `db` keeps these columns, every connection keeps the
  stamp of its catalog, and no artifact has changed.
* `DegradedPasses a id w ps w'` — the passes `ps` ran one after another, and each saw too
  little.

## Main results

* `untouched_exec` — no statement of a degraded pass touches these columns.
* `degraded_passes_harmless` — **any number of degraded passes in a row destroy nothing**,
  and none of them makes the next one less strict.
-/

namespace Hivebook

open Database Machine Connectors

/-! ### What is left alone -/

/-- What a discovery must leave alone of a unit. -/
def SyncUnit.durable (u : SyncUnit) :
    Uuid × (Uuid × String) × UnitStatus × Bool × String × Option Time × Option Time :=
  (u.id, u.key, u.status, u.selected, u.cursor, u.committedAt, u.nextRetryAt)

/-- Every unit keeps its durable columns, every connection the stamp of its catalog, and no
artifact has changed. -/
structure Untouched (db db' : Database) : Prop where
  units : ∀ u ∈ db.units.rows, ∃ u' ∈ db'.units.rows, u'.durable = u.durable
  artifacts : db'.artifacts = db.artifacts
  catalog : ∀ c ∈ db.connections.rows, ∃ c' ∈ db'.connections.rows,
    c'.id = c.id ∧ c'.catalogDiscoveredAt = c.catalogDiscoveredAt

variable {db db' db'' : Database} {id : Uuid}

theorem Untouched.refl (db : Database) : Untouched db db :=
  ⟨fun u hu => ⟨u, hu, rfl⟩, rfl, fun c hc => ⟨c, hc, rfl, rfl⟩⟩

theorem Untouched.trans (h : Untouched db db') (h' : Untouched db' db'') : Untouched db db'' := by
  refine ⟨fun u hu => ?_, h'.artifacts.trans h.artifacts, fun c hc => ?_⟩
  · obtain ⟨u₁, hu₁, heq₁⟩ := h.units u hu
    obtain ⟨u₂, hu₂, heq₂⟩ := h'.units u₁ hu₁
    exact ⟨u₂, hu₂, heq₂.trans heq₁⟩
  · obtain ⟨c₁, hc₁, hid₁, heq₁⟩ := h.catalog c hc
    obtain ⟨c₂, hc₂, hid₂, heq₂⟩ := h'.catalog c₁ hc₁
    exact ⟨c₂, hc₂, hid₂.trans hid₁, heq₂.trans heq₁⟩

/-- The statements of a degraded pass. -/
def Statement.harmless : Statement → Bool
  | .getConnectionByID _ | .countLiveUnits _ | .maxUnitGeneration _ | .updateTokens _ _ _ _
  | .updateAccessToken _ _ _ | .setNeedsReauth _ _ | .setConnectionStatus _ _ _
  | .notifyConnectionChanged _ | .upsertSyncUnit _ _ _ _ _ => true
  | _ => false

/-- Rewriting a connection leaves the rest alone, if it keeps the stamp of its catalog. -/
theorem untouched_updateConnections {p : Connection → Bool} {f : Connection → Connection}
    {hid : ∀ r, (f r).id = r.id} {hkey : ∀ r, (f r).key = r.key}
    (hf : ∀ c, (f c).catalogDiscoveredAt = c.catalogDiscoveredAt) :
    Untouched db (db.updateConnections p f hid hkey) := by
  refine ⟨fun u hu => ⟨u, hu, rfl⟩, rfl, fun c hc => ?_⟩
  refine ⟨Table.updated p f c, List.mem_map_of_mem hc, ?_⟩
  unfold Table.updated
  split
  · exact ⟨hid c, hf c⟩
  · exact ⟨rfl, rfl⟩

/-- A mark leaves the durable columns of every unit alone. -/
theorem untouched_upsertSyncUnit (now : Time) (id : Uuid) (x name kind : String) (g : ℤ) :
    Untouched db (upsertSyncUnit now id x name kind g db) := by
  refine ⟨fun u hu => ?_, rfl, fun c hc => ⟨c, hc, rfl, rfl⟩⟩
  refine (Table.exists_upsert fun r => ?_).mpr (.inl ⟨u, hu, rfl⟩)
  exact Iff.rfl

/-- **No statement of a degraded pass touches these columns.** -/
theorem untouched_exec {s : Statement} (h : s.harmless = true) (now : Time) :
    Untouched db (s.exec now db).2 := by
  cases s with
  | upsertSyncUnit id x name kind g => exact untouched_upsertSyncUnit now id x name kind g
  | updateTokens id access refresh expiry => exact untouched_updateConnections fun c => rfl
  | updateAccessToken id access expiry => exact untouched_updateConnections fun c => rfl
  | setNeedsReauth id text => exact untouched_updateConnections fun c => rfl
  | setConnectionStatus id status text => exact untouched_updateConnections fun c => rfl
  | _ => first | exact Untouched.refl db | cases h

/-- What is left alone includes the live units. -/
theorem Untouched.live (h : Untouched db db') {x : String} (hx : db.hasLiveUnit id x) :
    db'.hasLiveUnit id x := by
  obtain ⟨u, hu, hkey, hst⟩ := hasLiveUnit_iff.mp hx
  obtain ⟨u', hu', heq⟩ := h.units u hu
  simp only [SyncUnit.durable, Prod.mk.injEq] at heq
  exact hasLiveUnit_iff.mpr ⟨u', hu', heq.2.1.trans hkey, by rw [heq.2.2.1]; exact hst⟩

/-- **The baseline of the guard does not shrink.** -/
theorem Untouched.countLiveUnits_le (h : Untouched db db') :
    countLiveUnits id db ≤ countLiveUnits id db' := by
  unfold countLiveUnits
  set live := fun u : SyncUnit => decide (u.connectionID = id) && decide (u.status ≠ .removed)
    with hlive
  have hnodup : ((db.units.rows.filter live).map SyncUnit.id).Nodup :=
    db.units.nodup_id.sublist (List.filter_sublist.map SyncUnit.id)
  have hsub : (db.units.rows.filter live).map SyncUnit.id ⊆
      (db'.units.rows.filter live).map SyncUnit.id := by
    intro n hn
    obtain ⟨u, hu, rfl⟩ := List.mem_map.mp hn
    obtain ⟨hu, hlive_u⟩ := List.mem_filter.mp hu
    obtain ⟨u', hu', heq⟩ := h.units u hu
    simp only [SyncUnit.durable, Prod.mk.injEq] at heq
    have hconn : u'.connectionID = u.connectionID := congrArg Prod.fst heq.2.1
    refine List.mem_map.mpr ⟨u', List.mem_filter.mpr ⟨hu', ?_⟩, heq.1⟩
    simpa only [hlive, hconn, heq.2.2.1] using hlive_u
  have hle := (List.subperm_of_subset hnodup hsub).length_le
  rw [List.length_map, List.length_map] at hle
  rw [List.countP_eq_length_filter, List.countP_eq_length_filter]
  exact hle

/-! ### One degraded pass -/

/-- A command that, if it is a statement, is one of a degraded pass. -/
def Cmd.harmless : Cmd → Bool
  | .statement s => s.harmless
  | _ => true

theorem harmless_of_touchesTokens {c : Cmd} (h : c.touchesTokens = true) : c.harmless = true := by
  cases c with
  | statement s => cases s <;> first | rfl | cases h
  | _ => rfl

theorem harmless_statement {s : Statement} (h : s.harmless = true) :
    (statement s).Uses fun c => c.harmless = true := ⟨h, fun _ => trivial⟩

theorem harmless_classify (conn : Connection) (err : Err) :
    (Activities.classify conn "" err).Uses fun c => c.harmless = true := by
  unfold Activities.classify
  split
  · exact (harmless_statement rfl).bind fun _ => (harmless_statement rfl).bind fun _ =>
      Prog.uses_pure _ _
  · exact Prog.uses_pure _ _
  · exact Prog.uses_pure _ _

theorem harmless_listUnits (a : Activities) (id : Uuid) :
    (a.listUnits id).Uses fun c => c.harmless = true :=
  uses_listUnits (fun _ hc => harmless_of_touchesTokens hc) (fun _ => rfl) (fun _ => rfl)
    harmless_classify a id

theorem harmless_markUnits (conn : Connection) (g : ℤ) (us : List SourceUnit) :
    (Activities.markUnits conn g us).Uses fun c => c.harmless = true := by
  refine (uses_markUnits conn g us).mono fun c hc => ?_
  obtain ⟨u, -, rfl⟩ := hc
  rfl

section Run

variable {α : Type} {p : Program α} {b b' : Bool} {w w' : World}
  {ls : List (Performed World Choice Cmd)} {r : α}

/-- A program that issues harmless statements leaves these columns alone. -/
theorem untouched_of_returns (hp : p.Uses fun c => c.harmless = true)
    (h : service.Returns p b w ls r b' w') : Untouched w.db w'.db := by
  refine h.keeps (K := fun w₁ => Untouched w.db w₁.db) (hp.mono fun c hc x b w₁ hK => ?_)
    (Untouched.refl w.db)
  rw [service_db]
  cases c with
  | statement s =>
    show Untouched w.db (if x.takesEffect b = true then _ else _)
    split
    · exact hK.trans (untouched_exec hc _)
    · exact hK
  | _ => exact hK

/-- Getting a connection ready touches no unit. -/
theorem TouchesTokens.units (hp : TouchesTokens p) (h : service.Returns p b w ls r b' w') :
    w'.db.units = w.db.units := by
  refine h.keeps (K := fun w₁ => w₁.db.units = w.db.units) (hp.mono fun c hc x b w₁ hK => ?_) rfl
  rw [service_db]
  cases c with
  | statement s =>
    show (if x.takesEffect b = true then _ else _ : Database).units = _
    split
    · cases s <;> first | exact hK | cases hc
    · exact hK
  | _ => exact hK

variable {a : Activities} {l : Listing}

/-- The baseline of a pass is the number of live units it started with. -/
theorem lastKnownGood_of_listUnits (h : service.Returns (a.listUnits id) b w ls (.ok l) b' w') :
    l.lastKnownGood = countLiveUnits id w.db := by
  obtain ⟨r₁, b₁, w₁, ls₁, ls₂, -, hload, h⟩ := returns_bind.mp h
  have hunits := (a.touchesTokens_loadConnection id).units hload
  cases r₁ with
  | error e => cases h.of_pure.2.1
  | ok cc =>
    have hid := id_of_loadConnection hload.log
    obtain ⟨_, _, r₂, _, hcount, h⟩ := returns_statement h
    cases r₂ with
    | error e => cases h.of_pure.2.1
    | ok lastKnownGood =>
      obtain ⟨-, hcount⟩ := of_reply_eq_ok hcount
      cases hcount
      obtain ⟨_, _, r₃, _, -, h⟩ := returns_statement h
      cases r₃ with
      | error e => cases h.of_pure.2.1
      | ok maxGen =>
        obtain ⟨r₄, _, _, _, _, -, -, h⟩ := returns_bind.mp h
        cases r₄ with
        | error e =>
          obtain ⟨_, _, _, _, _, -, -, h⟩ := returns_bind.mp h
          cases h.of_pure.2.1
        | ok token =>
          obtain ⟨r₅, _, _, _, _, -, -, h⟩ := returns_bind.mp h
          cases r₅ with
          | error e =>
            obtain ⟨_, _, _, _, _, -, -, h⟩ := returns_bind.mp h
            cases h.of_pure.2.1
          | ok units =>
            cases h.of_pure.2.1
            show countLiveUnits cc.1.id w₁.db = countLiveUnits id w.db
            unfold countLiveUnits
            rw [hunits, hid]

/-- The caller of the command was told of a failure. -/
def failed (l : Performed World Choice Cmd) : Prop :=
  l.cancelled = true ∨ l.choice.outcome ≠ .applied

/-- The mark loop is through unless a mark fails. -/
theorem markUnits_result {conn : Connection} {g : ℤ} {us : List SourceUnit}
    {r : Except Err Unit} (h : service.Returns (Activities.markUnits conn g us) b w ls r b' w') :
    r = .ok () ∨ ∃ l ∈ ls, (∃ u ∈ us, l.cmd = .statement (.upsertSyncUnit conn.id u.id u.name u.kind
      g)) ∧ failed l := by
  induction us generalizing b w ls with
  | nil => exact .inl h.of_pure.2.1
  | cons u us ih =>
    obtain ⟨t, ls', rfl, hrest⟩ := h.of_call
    by_cases hfail : failed ⟨w, .statement (.upsertSyncUnit conn.id u.id u.name u.kind g),
        b || t.cancel, t.choice⟩
    · exact .inr ⟨_, List.mem_cons_self, ⟨u, List.mem_cons_self, rfl⟩, hfail⟩
    · -- an upsert that is answered is answered well
      have hreply : (service.perform t.choice (b || t.cancel) w (.statement
          (.upsertSyncUnit conn.id u.id u.name u.kind g))).2 = .ok () := by
        simp only [failed, not_or, not_not] at hfail
        rw [service_statement, Choice.reply, if_neg hfail.1, hfail.2]
        rfl
      rw [hreply] at hrest
      rcases ih hrest with hok | ⟨l, hl, ⟨u', hu', hcmd⟩, hfailed⟩
      · exact .inl hok
      · exact .inr ⟨l, List.mem_cons_of_mem _ hl, ⟨u', List.mem_cons_of_mem _ hu', hcmd⟩, hfailed⟩

/-! ### Passes in a row -/

/-- A pass that has listed units: its commands, its listing and what it returned. -/
structure ScanPass where
  log : List (Performed World Choice Cmd)
  listing : Listing
  result : Except ActivityError DiscoverResult

/-- A mark of the pass failed. -/
def ScanPass.markFailed (p : ScanPass) (id : Uuid) : Prop :=
  ∃ l ∈ p.log, (∃ u ∈ p.listing.units,
    l.cmd = .statement (.upsertSyncUnit id u.id u.name u.kind p.listing.generation)) ∧ failed l

/-- The passes ran one after another; each found live units, and saw none or less than
half as many. -/
inductive DegradedPasses (a : Activities) (id : Uuid) (w : World) : List ScanPass → World → Prop
  | nil : DegradedPasses a id w [] w
  | snoc {ps : List ScanPass} {w₁ w₂ : World} {p : ScanPass} {b b' : Bool} :
      DegradedPasses a id w ps w₁ →
      service.Returns (a.discoverUnits id) b w₁ p.log p.result b' w₂ →
      UnitsListed a id p.log p.listing → 0 < countLiveUnits id w₁.db →
      p.listing.units.length = 0 ∨ 2 * p.listing.units.length < countLiveUnits id w₁.db →
      DegradedPasses a id w (ps ++ [p]) w₂

/-- **One degraded pass** says so unless a mark fails, and leaves everything alone. -/
theorem degraded_pass {r : Except ActivityError DiscoverResult}
    (h : service.Returns (a.discoverUnits id) b w ls r b' w') (hl : UnitsListed a id ls l)
    (hpos : 0 < countLiveUnits id w.db)
    (hfew : l.units.length = 0 ∨ 2 * l.units.length < countLiveUnits id w.db) :
    (r = .ok { count := l.units.length, swept := 0, degraded := true } ∨
      (∃ e, r = .error e) ∧ (⟨ls, l, r⟩ : ScanPass).markFailed id) ∧ Untouched w.db w'.db := by
  rw [discoverUnits_eq] at h
  obtain ⟨r₁, b₁, w₁, ls₁, ls₂, rfl, hlist, hrest⟩ := returns_bind.mp h
  obtain ⟨ls', hpre, hlog⟩ := hl
  obtain ⟨-, heq⟩ := hlist.log.returns_unique hlog (List.prefix_append ls₁ ls₂) hpre
  cases heq
  have hid := id_of_listUnits hlist.log
  have hlisted := untouched_of_returns (harmless_listUnits a id) hlist
  have hdegraded : degraded l.units.length l.lastKnownGood = true := by
    rw [lastKnownGood_of_listUnits hlist]
    unfold degraded
    rcases hfew with hnone | hfew
    · simp [hnone, hpos]
    · simp [hfew, hpos]
  obtain ⟨r₂, b₂, w₂, ls₃, ls₄, rfl, hmark, hrest⟩ := returns_bind.mp hrest
  have hmarked := hlisted.trans (untouched_of_returns (harmless_markUnits _ _ _) hmark)
  cases r₂ with
  | error e =>
    obtain ⟨-, rfl, -, rfl⟩ := hrest.of_pure
    refine ⟨.inr ⟨⟨_, rfl⟩, ?_⟩, hmarked⟩
    rcases markUnits_result hmark with hok | ⟨l', hl', hcmd, hfailed⟩
    · cases hok
    · rw [hid] at hcmd
      exact ⟨l', by simp [hl'], hcmd, hfailed⟩
  | ok _ =>
    dsimp only at hrest
    rw [if_pos hdegraded] at hrest
    have hskip := untouched_of_returns (p := Activities.skipSweep l.conn l.units.length
      l.lastKnownGood)
      ((harmless_statement rfl).bind fun _ =>
        (harmless_statement rfl).bind fun _ => Prog.uses_pure _ _) hrest
    refine ⟨.inl ?_, hmarked.trans hskip⟩
    obtain ⟨_, _, _, _, -, hrest⟩ := returns_statement hrest
    obtain ⟨_, _, _, _, -, hrest⟩ := returns_statement hrest
    exact hrest.of_pure.2.1

/-- **Any number of degraded passes in a row destroy nothing**: each says that it is degraded
and has swept nothing unless one of its marks fails; no unit, artifact or stamp of a catalog
is touched, no live unit is lost, and the baseline of the guard does not shrink. -/
theorem degraded_passes_harmless {ps : List ScanPass} (h : DegradedPasses a id w ps w') :
    (∀ p ∈ ps, p.result = .ok { count := p.listing.units.length, swept := 0, degraded := true } ∨
      (∃ e, p.result = .error e) ∧ p.markFailed id) ∧
    Untouched w.db w'.db ∧ (∀ x, w.db.hasLiveUnit id x → w'.db.hasLiveUnit id x) ∧
    countLiveUnits id w.db ≤ countLiveUnits id w'.db := by
  have hrun : (∀ p ∈ ps,
      p.result = .ok { count := p.listing.units.length, swept := 0, degraded := true } ∨
        (∃ e, p.result = .error e) ∧ p.markFailed id) ∧ Untouched w.db w'.db := by
    induction h with
    | nil => exact ⟨by simp, Untouched.refl _⟩
    | @snoc ps w₁ w₂ p b b' _ hpass hl hpos hfew ih =>
      obtain ⟨hresult, huntouched⟩ := degraded_pass hpass hl hpos hfew
      refine ⟨fun p' hp' => ?_, ih.2.trans huntouched⟩
      rcases List.mem_append.mp hp' with hp' | hp'
      · exact ih.1 p' hp'
      · obtain rfl := List.mem_singleton.mp hp'
        exact hresult
  exact ⟨hrun.1, hrun.2, fun x hx => hrun.2.live hx, hrun.2.countLiveUnits_le⟩

end Run

/-! ### Two bad passes over three repositories -/

/-- The account with three repositories, seen by a pass before. -/
def threeRepos : World :=
  worldOf (sawRepo 1 "ann/c" (sawRepo 1 "ann/b" (sawRepo 1 "ann/a" emptyAccount)))

-- a third of the units is too little, a half is not
example : degraded 1 3 = true ∧ degraded 1 2 = false := by decide +kernel

/-- A first pass sees a new repository only and adds it; a second one sees nothing.  Both are
degraded, and the account has its three repositories and the new one. -/
theorem two_bad_passes : ∃ ps w', DegradedPasses repoActivities 0 threeRepos ps w' ∧
    ps.map (fun p => p.listing.units.length) = [1, 0] ∧ countLiveUnits 0 w'.db = 4 ∧
    (∀ p ∈ ps, p.result = .ok { count := p.listing.units.length, swept := 0, degraded := true } ∨
      (∃ e, p.result = .error e) ∧ p.markFailed 0) ∧
    Untouched threeRepos.db w'.db ∧
    (∀ x, threeRepos.db.hasLiveUnit 0 x → w'.db.hasLiveUnit 0 x) ∧
    countLiveUnits 0 threeRepos.db ≤ countLiveUnits 0 w'.db := by
  obtain ⟨ls₁, l₁, res₁, b₁, w₁, hrun₁, hl₁, hend₁⟩ := exists_pass repoActivities 0 threeRepos
    (repoTurns ["ann/z"] 5) (repoTurns ["ann/z"] 3)
    (fun l _ w => decide (l.units.length = 1) && decide (countLiveUnits 0 w.db = 4) &&
      passes repoActivities 0 w (repoTurns [] 4) (repoTurns [] 2) fun l _ w =>
        decide (l.units.length = 0) && decide (countLiveUnits 0 w.db = 4)) (by decide +kernel)
  obtain ⟨hlen₁, hpass₂⟩ := Bool.and_eq_true_iff.mp hend₁
  obtain ⟨hlen₁, hcount₁⟩ := Bool.and_eq_true_iff.mp hlen₁
  obtain ⟨ls₂, l₂, res₂, b₂, w₂, hrun₂, hl₂, hend₂⟩ := exists_pass repoActivities 0 w₁
    (repoTurns [] 4) (repoTurns [] 2) _ hpass₂
  simp only [Bool.and_eq_true, decide_eq_true_eq] at hlen₁ hcount₁ hend₂
  have hstart : countLiveUnits 0 threeRepos.db = 3 := by decide +kernel
  have hpasses : DegradedPasses repoActivities 0 threeRepos
      ([] ++ [⟨ls₁, l₁, .ok res₁⟩] ++ [⟨ls₂, l₂, .ok res₂⟩]) w₂ := by
    refine .snoc (.snoc .nil hrun₁ hl₁ ?_ (.inr ?_)) hrun₂ hl₂ ?_ (.inl hend₂.1)
    · omega
    · show 2 * l₁.units.length < _
      omega
    · omega
  refine ⟨_, w₂, hpasses, ?_, hend₂.2, degraded_passes_harmless hpasses⟩
  simp [hlen₁, hend₂.1]

end Hivebook
