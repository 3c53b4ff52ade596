import Hivebook.Connectors.GitHub
import Hivebook.Database.Catalog
import Hivebook.Service.Jobs

/-!
# What a discovery leaves of the catalog

A pass lists the units of the source, marks the ones it saw with a generation of its
own and tombstones the rest.  A mark leaves the status of its unit alone, so a tombstone
that is seen again stays one: the catalog follows the source if and only if no unit the
source lists had been tombstoned.

## Main definitions

* `Listing` — what a pass knows once the connector has returned; `Activities.listUnits`,
  `Listing.reconcile` — the two halves of `DiscoverUnits`.
* `UnitsListed a id ls l` — the commands `ls` of a pass include its listing, and it is `l`.

## Main results

* `discoverUnits_eq` — a pass is its two halves.
* `converges_iff` — **after a healthy pass the live units are the listed ones if and only
  if no listed unit was a tombstone.**
* `reappeared_stays_removed` — a repository that disappears and reappears stays removed.
-/

namespace Hivebook

open Database Machine Connectors

/-- What a pass knows once the connector has returned. -/
structure Listing where
  conn : Connection
  connector : Connector
  lastKnownGood : ℕ
  generation : ℤ
  units : List SourceUnit

/-- The ids of the units the connector returned. -/
def Listing.ids (l : Listing) : List String := l.units.map SourceUnit.id

namespace Activities

variable (a : Activities)

/-- `DiscoverUnits` up to the return of the connector. -/
def listUnits (connectionID : Uuid) : Program (Except ActivityError Listing) := do
  match ← a.loadConnection connectionID with
  | .error e => return .error (.plain e)
  | .ok (conn, connector) =>
      match ← statement (.countLiveUnits conn.id) with
      | .error e => return .error (.plain e)
      | .ok lastKnownGood =>
          match ← statement (.maxUnitGeneration conn.id) with
          | .error e => return .error (.plain e)
          | .ok maxGen =>
              match ← a.clientFor conn with
              | .error e => return .error (← classify conn "" e)
              | .ok _ =>
                  match ← fetch connector.discoverUnits with
                  | .error e => return .error (← classify conn "" e)
                  | .ok units =>
                      return .ok { conn, connector, lastKnownGood, generation := maxGen + 1, units }

end Activities

/-- `DiscoverUnits` from there on. -/
def reconciled : Except ActivityError Listing → Program (Except ActivityError DiscoverResult)
  | .error e => return .error e
  | .ok l => Activities.reconcile l.conn l.connector l.lastKnownGood l.generation l.units

/-- **A pass is its two halves.** -/
theorem discoverUnits_eq (a : Activities) (id : Uuid) :
    a.discoverUnits id = (a.listUnits id).bind reconciled := by
  unfold Activities.discoverUnits Activities.listUnits
  simp only [Prog.bind_eq, Prog.bind_assoc]
  congr 1
  funext r
  cases r with
  | error e => rfl
  | ok cc =>
    simp only [Prog.bind_assoc]
    congr 1
    funext r
    cases r with
    | error e => rfl
    | ok lastKnownGood =>
      simp only [Prog.bind_assoc]
      congr 1
      funext r
      cases r with
      | error e => rfl
      | ok maxGen =>
        simp only [Prog.bind_assoc]
        congr 1
        funext r
        cases r with
        | error e =>
          simp only [Prog.bind_assoc]
          rfl
        | ok _ =>
          simp only [Prog.bind_assoc]
          congr 1
          funext r
          cases r with
          | error e =>
            simp only [Prog.bind_assoc]
            rfl
          | ok units => rfl

/-! ### What the listing leaves alone -/

/-- A command that touches neither the status nor the generation of a unit. -/
def Cmd.keepsCatalog : Cmd → Bool
  | .statement s => s.keepsCatalog
  | _ => true

theorem keepsCatalog_of_touchesTokens {c : Cmd} (h : c.touchesTokens = true) :
    c.keepsCatalog = true := by
  cases c with
  | statement s => cases s <;> first | rfl | cases h
  | _ => rfl

section Run

variable {α : Type} {p : Program α} {b b' : Bool} {w w' : World}
  {ls : List (Performed World Choice Cmd)} {r : α} {id : Uuid}

theorem entry_perform {c : Cmd} (hc : c.keepsCatalog = true) (t : Choice) (b : Bool) (w : World)
    (x : String) : (service.perform t b w c).1.db.entry id x = w.db.entry id x := by
  rw [service_db]
  cases c with
  | statement s =>
    show Database.entry (if t.takesEffect b = true then _ else _) id x = _
    split
    · exact entry_exec hc _
    · rfl
  | _ => rfl

/-- A program that keeps the catalog leaves every entry alone. -/
theorem entry_of_returns (hp : p.Uses fun c => c.keepsCatalog = true)
    (h : service.Returns p b w ls r b' w') (x : String) : w'.db.entry id x = w.db.entry id x := by
  refine h.keeps (K := fun w₁ => w₁.db.entry id x = w.db.entry id x)
    (hp.mono fun c hc t b w₁ heq => ?_) rfl
  rw [entry_perform hc, heq]

theorem TouchesTokens.entry (hp : TouchesTokens p) (h : service.Returns p b w ls r b' w')
    (x : String) : w'.db.entry id x = w.db.entry id x :=
  entry_of_returns (hp.mono fun _ hc => keepsCatalog_of_touchesTokens hc) h x

/-- The commands of a listing: what gets a connection ready, two counts, and what an error of
the connection calls for. -/
theorem uses_listUnits {U : Cmd → Prop} (htokens : ∀ c, c.touchesTokens = true → U c)
    (hcount : ∀ id, U (.statement (.countLiveUnits id)))
    (hmax : ∀ id, U (.statement (.maxUnitGeneration id)))
    (hclassify : ∀ conn err, (Activities.classify conn "" err).Uses U) (a : Activities)
    (id : Uuid) :
    (a.listUnits id).Uses U := by
  refine Prog.Uses.bind ((a.touchesTokens_loadConnection id).mono htokens) fun r => ?_
  split
  · exact Prog.uses_pure _ _
  · refine Prog.Uses.bind ⟨hcount _, fun _ => trivial⟩ fun r => ?_
    split
    · exact Prog.uses_pure _ _
    · refine Prog.Uses.bind ⟨hmax _, fun _ => trivial⟩ fun r => ?_
      split
      · exact Prog.uses_pure _ _
      · refine Prog.Uses.bind ((a.touchesTokens_clientFor _).mono htokens) fun r => ?_
        split
        · exact (hclassify _ _).bind fun _ => Prog.uses_pure _ _
        · refine Prog.Uses.bind ((touchesTokens_fetch _).mono htokens) fun r => ?_
          split
          · exact (hclassify _ _).bind fun _ => Prog.uses_pure _ _
          · exact Prog.uses_pure _ _

/-- The connection loaded is the one asked for. -/
theorem id_of_loadConnection {a : Activities} {conn : Connection} {connector : Connector}
    (h : Log service (a.loadConnection id) ls (.pure (.ok (conn, connector)))) : conn.id = id := by
  rcases Log.of_call h with ⟨-, hq⟩ | ⟨w, b, x, ls', -, hrest⟩
  · cases hq
  · rw [service_statement] at hrest
    cases hr : x.reply b ((Statement.getConnectionByID id).exec (w.now + x.elapsed) w.db).1 with
    | error e =>
      rw [hr] at hrest
      cases hrest.of_pure.2
    | ok conn' =>
      rw [hr] at hrest
      obtain ⟨-, hfound⟩ := of_reply_eq_ok hr
      have hid := (mem_of_getConnectionByID hfound).2
      simp only [Prog.pure_bind] at hrest
      split at hrest
      · cases hrest.of_pure.2
      · cases hrest.of_pure.2
        exact hid

/-- A listing is of the connection asked for. -/
theorem id_of_listUnits {a : Activities} {l : Listing}
    (h : Log service (a.listUnits id) ls (.pure (.ok l))) : l.conn.id = id := by
  obtain ⟨ls₁, ls₂, r, -, hload, h⟩ := Log.returns_bind h
  cases r with
  | error e => cases h.of_pure.2
  | ok cc =>
    rw [← id_of_loadConnection hload]
    obtain ⟨_, _, r, -, -, h⟩ := Log.returns_bind h
    cases r with
    | error e => cases h.of_pure.2
    | ok lastKnownGood =>
      obtain ⟨_, _, r, -, -, h⟩ := Log.returns_bind h
      cases r with
      | error e => cases h.of_pure.2
      | ok maxGen =>
        obtain ⟨_, _, r, -, -, h⟩ := Log.returns_bind h
        cases r with
        | error e =>
          obtain ⟨_, _, _, -, -, h⟩ := Log.returns_bind h
          cases h.of_pure.2
        | ok token =>
          obtain ⟨_, _, r, -, -, h⟩ := Log.returns_bind h
          cases r with
          | error e =>
            obtain ⟨_, _, _, -, -, h⟩ := Log.returns_bind h
            cases h.of_pure.2
          | ok units =>
            cases h.of_pure.2
            rfl

/-- **What a listing finds**: its generation is later than that of any unit, and no entry
has changed. -/
theorem listUnits_spec {a : Activities} {l : Listing}
    (h : service.Returns (a.listUnits id) b w ls (.ok l) b' w') :
    (∀ x st g, w.db.entry id x = some (st, g) → g < l.generation) ∧
      ∀ x, w'.db.entry id x = w.db.entry id x := by
  obtain ⟨r₁, b₁, w₁, ls₁, ls₂, -, hload, h⟩ := returns_bind.mp h
  have hentry₁ : ∀ x, w₁.db.entry id x = w.db.entry id x :=
    (a.touchesTokens_loadConnection id).entry hload
  cases r₁ with
  | error e => cases h.of_pure.2.1
  | ok cc =>
    obtain ⟨conn, connector⟩ := cc
    have hid := id_of_loadConnection hload.log
    obtain ⟨x₂, b₂, r₂, ls₂, -, h⟩ := returns_statement h
    cases r₂ with
    | error e => cases h.of_pure.2.1
    | ok lastKnownGood =>
      -- the generation is one more than the largest that is stored
      obtain ⟨x₃, b₃, r₃, ls₃, hmax, h⟩ := returns_statement h
      cases r₃ with
      | error e => cases h.of_pure.2.1
      | ok maxGen =>
        obtain ⟨-, hmax⟩ := of_reply_eq_ok hmax
        cases hmax
        obtain ⟨r₄, b₄, w₄, ls₄, ls₅, -, hclient, h⟩ := returns_bind.mp h
        have hentry₄ : ∀ x, w₄.db.entry id x = _ := (a.touchesTokens_clientFor conn).entry hclient
        cases r₄ with
        | error e =>
          obtain ⟨r, _, _, _, _, -, -, h⟩ := returns_bind.mp h
          cases h.of_pure.2.1
        | ok token =>
          obtain ⟨r₅, b₅, w₅, ls₆, ls₇, -, hfetch, h⟩ := returns_bind.mp h
          have hentry₅ : ∀ x, w₅.db.entry id x = w₄.db.entry id x :=
            (touchesTokens_fetch connector.discoverUnits).entry hfetch
          cases r₅ with
          | error e =>
            obtain ⟨r, _, _, _, _, -, -, h⟩ := returns_bind.mp h
            cases h.of_pure.2.1
          | ok units =>
            obtain ⟨-, hl, -, rfl⟩ := h.of_pure
            cases hl
            have hentry₂ : ∀ x, (service.perform x₂ b₂ w₁ (.statement (.countLiveUnits
                conn.id))).1.db.entry id x = w₁.db.entry id x := entry_perform rfl x₂ b₂ w₁
            refine ⟨fun x st g hg => ?_, fun x => ?_⟩
            · have hle := generation_le_max ((hentry₂ x).trans ((hentry₁ x).trans hg))
              rw [← hid] at hle
              exact Int.lt_add_one_of_le hle
            · rw [hentry₅, hentry₄, entry_perform rfl, hentry₂, hentry₁]

/-! ### What the marks and the sweep leave -/

/-- A statement answered well, as far as the database goes. -/
theorem db_of_reply {s : Statement} {x : Choice} {reply : s.Reply}
    (h : x.reply b (s.exec (w.now + x.elapsed) w.db).1 = .ok reply) :
    (service.perform x b w (.statement s)).1.db = (s.exec (w.now + x.elapsed) w.db).2 := by
  rw [service_db]
  exact if_pos (of_reply_eq_ok h).1

/-- **The mark loop** stamps every unit seen, and leaves their statuses alone. -/
theorem markUnits_spec {conn : Connection} {g : ℤ} {us : List SourceUnit}
    (h : service.Returns (Activities.markUnits conn g us) b w ls (.ok ()) b' w') (x : String) :
    w'.db.entry conn.id x = if x ∈ us.map SourceUnit.id then
      some (((w.db.entry conn.id x).map Prod.fst).getD .idle, g) else w.db.entry conn.id x := by
  induction us generalizing b w ls with
  | nil =>
    obtain ⟨-, -, -, rfl⟩ := h.of_pure
    simp
  | cons u us ih =>
    obtain ⟨y, b₁, reply, ls₁, hreply, h⟩ := returns_statement h
    cases reply with
    | error e => cases h.of_pure.2.1
    | ok _ =>
      have hmark : (service.perform y b₁ w (.statement (.upsertSyncUnit conn.id u.id u.name u.kind
          g))).1.db.entry conn.id x = if (conn.id, u.id) = (conn.id, x) then
            some (((w.db.entry conn.id x).map Prod.fst).getD .idle, g)
          else w.db.entry conn.id x := by
        rw [db_of_reply hreply]
        exact entry_upsertSyncUnit _ _ _ _ _ _
      rw [ih h, hmark]
      by_cases hu : u.id = x
      · subst hu
        simp
      · have hx : x ≠ u.id := fun h => hu h.symm
        simp [hu, hx]

theorem keepsCatalog_statement {s : Statement} (h : s.keepsCatalog = true) :
    (statement s).Uses fun c => c.keepsCatalog = true := ⟨h, fun _ => trivial⟩

/-- The end of a pass keeps the catalog. -/
theorem keepsCatalog_finishDiscovery (conn : Connection) (connector : Connector)
    (units : List SourceUnit) (swept : ℕ) :
    (Activities.finishDiscovery conn connector units swept).Uses
      fun c => c.keepsCatalog = true := by
  refine (Activities.uses_finishDiscovery conn connector units swept).mono fun c hc => ?_
  cases hc with
  | tokens hc => exact keepsCatalog_of_touchesTokens hc
  | _ => rfl

/-- **The sweep** tombstones the units of an older generation. -/
theorem sweep_spec {conn : Connection} {connector : Connector} {units : List SourceUnit} {g : ℤ}
    {res : DiscoverResult}
    (h : service.Returns (Activities.sweep conn connector units g) b w ls (.ok res) b' w')
    (x : String) : w'.db.entry conn.id x =
      (w.db.entry conn.id x).map fun e => if e.2 < g then (.removed, e.2) else e := by
  obtain ⟨y, b₁, reply, ls₁, hreply, h⟩ := returns_statement h
  cases reply with
  | error e => cases h.of_pure.2.1
  | ok swept =>
    have hswept : (service.perform y b₁ w (.statement (.sweepUnseenUnits conn.id g))).1.db.entry
        conn.id x = (w.db.entry conn.id x).map fun e => if e.2 < g then (.removed, e.2) else e := by
      rw [db_of_reply hreply]
      refine (entry_sweepUnseenUnits _ _ _).trans ?_
      simp only [true_and]
    rw [← hswept]
    -- what follows touches no unit
    refine entry_of_returns ?_ h x
    dsimp only
    split
    · refine Prog.Uses.bind ⟨rfl, fun _ => trivial⟩ fun now =>
        (keepsCatalog_statement rfl).bind fun r => ?_
      split
      · exact Prog.uses_pure _ _
      · exact keepsCatalog_finishDiscovery _ _ _ _
    · exact keepsCatalog_finishDiscovery _ _ _ _

/-- **A healthy reconciliation**, unit by unit: one that was seen keeps its status, and
any other that is older than the pass is tombstoned. -/
theorem reconcile_spec {l : Listing} {res : DiscoverResult}
    (h : service.Returns (reconciled (.ok l)) b w ls (.ok res) b' w') (hres : res.degraded = false)
    (x : String) : w'.db.entry l.conn.id x = if x ∈ l.ids then
      some (((w.db.entry l.conn.id x).map Prod.fst).getD .idle, l.generation)
      else (w.db.entry l.conn.id x).map fun e =>
        if e.2 < l.generation then (.removed, e.2) else e := by
  obtain ⟨r₁, b₁, w₁, ls₁, ls₂, -, hmark, h⟩ := returns_bind.mp h
  cases r₁ with
  | error e => cases h.of_pure.2.1
  | ok _ =>
    dsimp only at h
    split at h
    · -- a degraded pass says so
      obtain ⟨_, _, _, _, -, h⟩ := returns_statement h
      obtain ⟨_, _, _, _, -, h⟩ := returns_statement h
      obtain ⟨-, heq, -, -⟩ := h.of_pure
      cases heq
      cases hres
    · rw [sweep_spec h, markUnits_spec hmark]
      unfold Listing.ids
      split
      · simp
      · rfl

/-! ### Convergence -/

/-- The commands of a pass include its listing. -/
def UnitsListed (a : Activities) (id : Uuid) (ls : List (Performed World Choice Cmd))
    (l : Listing) :
    Prop :=
  ∃ ls₁, ls₁ <+: ls ∧ Log service (a.listUnits id) ls₁ (.pure (.ok l))

variable {a : Activities} {l : Listing} {res : DiscoverResult}

/-- A pass that returns has listed units, and reconciled the catalog with them. -/
theorem of_discoverUnits (h : service.Returns (a.discoverUnits id) b w ls (.ok res) b' w') :
    ∃ l b₁ w₁ ls₁ ls₂, ls = ls₁ ++ ls₂ ∧
      service.Returns (a.listUnits id) b w ls₁ (.ok l) b₁ w₁ ∧
      service.Returns (reconciled (.ok l)) b₁ w₁ ls₂ (.ok res) b' w' := by
  rw [discoverUnits_eq] at h
  obtain ⟨r, b₁, w₁, ls₁, ls₂, heq, hlist, hrest⟩ := returns_bind.mp h
  cases r with
  | error e => cases hrest.of_pure.2.1
  | ok l => exact ⟨l, b₁, w₁, ls₁, ls₂, heq, hlist, hrest⟩

/-- **A healthy pass**, unit by unit: one that is listed keeps its status, and any other is
tombstoned. -/
theorem discoverUnits_spec (h : service.Returns (a.discoverUnits id) b w ls (.ok res) b' w')
    (hl : UnitsListed a id ls l) (hres : res.degraded = false) (x : String) :
    w'.db.entry id x = if x ∈ l.ids then
      some (((w.db.entry id x).map Prod.fst).getD .idle, l.generation)
      else (w.db.entry id x).map fun e => (.removed, e.2) := by
  obtain ⟨l', b₁, w₁, ls₁, ls₂, rfl, hlist, hrest⟩ := of_discoverUnits h
  obtain ⟨ls', hpre, hlog⟩ := hl
  obtain ⟨-, heq⟩ := hlist.log.returns_unique hlog (List.prefix_append ls₁ ls₂) hpre
  cases heq
  have hid := id_of_listUnits hlist.log
  obtain ⟨hgen, hsame⟩ := listUnits_spec hlist
  have hx := reconcile_spec hrest hres x
  rw [hid, hsame] at hx
  rw [hx]
  split
  · rfl
  · refine Option.map_congr fun e he => ?_
    rw [if_pos (hgen x e.1 e.2 he)]

/-- **After a healthy pass the live units are the listed ones if and only if no listed
unit was a tombstone.** -/
theorem converges_iff (h : service.Returns (a.discoverUnits id) b w ls (.ok res) b' w')
    (hl : UnitsListed a id ls l) (hres : res.degraded = false) :
    (∀ x, w'.db.hasLiveUnit id x ↔ x ∈ l.ids) ↔ ∀ x ∈ l.ids, ¬ w.db.hasTombstone id x := by
  have hspec := discoverUnits_spec h hl hres
  constructor
  · intro hconv x hx ⟨g, hg⟩
    obtain ⟨st, g', hentry, hst⟩ := (hconv x).mpr hx
    rw [hspec, if_pos hx, hg] at hentry
    cases hentry
    exact hst rfl
  · intro hno x
    constructor
    · rintro ⟨st, g, hentry, hst⟩
      rw [hspec] at hentry
      by_contra hx
      rw [if_neg hx, Option.map_eq_some_iff] at hentry
      obtain ⟨e, -, heq⟩ := hentry
      cases heq
      exact hst rfl
    · intro hx
      refine ⟨_, _, (hspec x).trans (if_pos hx), ?_⟩
      intro hremoved
      cases hentry : w.db.entry id x with
      | none =>
        rw [hentry] at hremoved
        cases hremoved
      | some e =>
        rw [hentry] at hremoved
        exact hno x hx ⟨e.2, by rw [hentry, ← show e.1 = .removed from hremoved]⟩

end Run

/-! ### A repository that comes back -/

/-- The activities of a deployment that offers GitHub by a personal token; no totals are
known. -/
def repoActivities : Activities where
  env := "local"
  reg := [newGitHub.connector "github_pat" (GitHub.patDiscoverUnits 10 fun owners => owners)
    fun _ => return .ok []]
  cipher := sampleCipher
  creds _ := { clientID := "", clientSecret := "", privateKey := "" }
  parseGitHubKey _ := .ok ()
  contentHash := .spelled

/-- Ann's GitHub account, as her connect stores it. -/
def repoConnection : Database.UpsertConnectionParams :=
  { tenantID := "acme", region := "eu", connectorID := "github_pat", account := "ann",
    accessToken := [0], refreshToken := none, tokenExpiry := none, scopes := "",
    installationID := "", externalID := "ann" }

/-- A discovery has seen a repository. -/
def sawRepo (generation : ℤ) (repo : String) (db : Database) : Database :=
  Database.upsertSyncUnit 0 0 repo repo "github_repo" generation db

/-- The account, connected; nothing is discovered yet. -/
def emptyAccount : Database := (Database.upsertConnection repoConnection .empty).2

/-- A first pass has seen two repositories, and a second one of them. -/
def oneRepoGone : Database :=
  (Database.sweepUnseenUnits 0 0 2
    (sawRepo 2 "ann/a" (sawRepo 1 "ann/b" (sawRepo 1 "ann/a" emptyAccount)))).2

/-- A world with a database and no objects. -/
def worldOf (db : Database) : World := { db, objects := fun _ => none, now := 5 }

/-- An account with these repositories, and no boards. -/
def repoAnswers (repos : List String) : (q : Request) → Except Err q.Reply
  | .repos _ _ =>
      .ok (repos.map fun r => { fullName := r, ownerLogin := "ann", ownerType := "User" })
  | .projects _ _ _ => .ok (some { nodes := [], hasNextPage := false, endCursor := "" })
  | _ => .error (.failed "unreachable")

/-- Turns over such an account in which nothing fails. -/
def repoTurns (repos : List String) (n : ℕ) : List (Turn Choice) :=
  List.replicate n ⟨false, quietly (repoAnswers repos)⟩

/-- A pass that lists in some turns and reconciles in others, and ends as `P` says. -/
def passes (a : Activities) (id : Uuid) (w : World) (ts ts' : List (Turn Choice))
    (P : Listing → DiscoverResult → World → Bool) : Bool :=
  (service.runTurns (a.listUnits id) false w ts).any fun r =>
    match r.2.1 with
    | .error _ => false
    | .ok l => (service.runTurns (reconciled (.ok l)) r.2.2.1 r.2.2.2 ts').any fun r' =>
        match r'.2.1 with
        | .error _ => false
        | .ok res => P l res r'.2.2.2

/-- A computed pass is a pass. -/
theorem exists_pass (a : Activities) (id : Uuid) (w : World) (ts ts' : List (Turn Choice))
    (P : Listing → DiscoverResult → World → Bool) (h : passes a id w ts ts' P = true) :
    ∃ ls l res b' w', service.Returns (a.discoverUnits id) false w ls (.ok res) b' w' ∧
      UnitsListed a id ls l ∧ P l res w' = true := by
  obtain ⟨⟨ls₁, r, b₁, w₁⟩, hlist, h⟩ := (Option.any_eq_true _ _).mp h
  cases r with
  | error e => cases h
  | ok l =>
    obtain ⟨⟨ls₂, r', b', w'⟩, hrest, h⟩ := (Option.any_eq_true _ _).mp h
    cases r' with
    | error e => cases h
    | ok res =>
      have hl := returns_of_runTurns hlist
      refine ⟨ls₁ ++ ls₂, l, res, b', w', ?_, ⟨ls₁, List.prefix_append _ _, hl.log⟩, h⟩
      rw [discoverUnits_eq]
      exact returns_bind.mpr ⟨_, _, _, _, _, rfl, hl, returns_of_runTurns hrest⟩

/-- The unit is found as a tombstone. -/
def showsTombstone (db : Database) (id : Uuid) (x : String) : Bool :=
  (db.entry id x).any fun e => decide (e.1 = .removed)

theorem hasTombstone_of_shows {db : Database} {id : Uuid} {x : String}
    (h : showsTombstone db id x = true) : db.hasTombstone id x := by
  obtain ⟨⟨st, g⟩, hentry, hst⟩ := (Option.any_eq_true _ _).mp h
  obtain rfl : st = .removed := of_decide_eq_true hst
  exact ⟨g, hentry⟩

-- the repository that the second pass did not see
example : showsTombstone oneRepoGone 0 "ann/b" = true := by
  decide +kernel

/-- A first pass, over an account of two repositories, finds no tombstone and leaves the
two live. -/
theorem first_pass_converges :
    ∃ ls l res b' w', service.Returns (repoActivities.discoverUnits 0) false
        (worldOf emptyAccount) ls (.ok res) b' w' ∧ UnitsListed repoActivities 0 ls l ∧
      l.ids = ["ann/a", "ann/b"] ∧ res.degraded = false ∧
      (∀ x ∈ l.ids, ¬ (worldOf emptyAccount).db.hasTombstone 0 x) ∧
      ∀ x, w'.db.hasLiveUnit 0 x ↔ x ∈ l.ids := by
  obtain ⟨ls, l, res, b', w', hrun, hl, hend⟩ := exists_pass repoActivities 0
    (worldOf emptyAccount) (repoTurns ["ann/a", "ann/b"] 5) (repoTurns ["ann/a", "ann/b"] 5)
    (fun l res _ => decide (l.ids = ["ann/a", "ann/b"]) && !res.degraded) (by decide +kernel)
  simp only [Bool.and_eq_true, decide_eq_true_eq, Bool.not_eq_true'] at hend
  have hno : ∀ x ∈ l.ids, ¬ (worldOf emptyAccount).db.hasTombstone 0 x := by
    rintro x - ⟨g, hg⟩
    cases hg
  exact ⟨ls, l, res, b', w', hrun, hl, hend.1, hend.2, hno, (converges_iff hrun hl hend.2).mpr hno⟩

/-- **A repository that disappears and reappears stays removed.**  The third pass sees
both repositories again, and is healthy. -/
theorem reappeared_stays_removed :
    ∃ ls l res b' w', service.Returns (repoActivities.discoverUnits 0) false
        (worldOf oneRepoGone) ls (.ok res) b' w' ∧ UnitsListed repoActivities 0 ls l ∧
      res.degraded = false ∧ ¬ ∀ x, w'.db.hasLiveUnit 0 x ↔ x ∈ l.ids := by
  obtain ⟨ls, l, res, b', w', hrun, hl, hend⟩ := exists_pass repoActivities 0
    (worldOf oneRepoGone) (repoTurns ["ann/a", "ann/b"] 5) (repoTurns ["ann/a", "ann/b"] 5)
    (fun l res w => decide ("ann/b" ∈ l.ids) && !res.degraded &&
      showsTombstone w.db 0 "ann/b") (by decide +kernel)
  simp only [Bool.and_eq_true, decide_eq_true_eq, Bool.not_eq_true'] at hend
  obtain ⟨⟨hmem, hres⟩, hshows⟩ := hend
  refine ⟨ls, l, res, b', w', hrun, hl, hres, fun hconv => ?_⟩
  obtain ⟨g, hremoved⟩ := hasTombstone_of_shows hshows
  obtain ⟨st, g', hentry, hst⟩ := (hconv "ann/b").mpr hmem
  rw [hremoved] at hentry
  cases hentry
  exact hst rfl

end Hivebook
