import Hivebook.Database.Standing
import Hivebook.Service.Inventory
import Hivebook.Service.Visibility
import Mathlib.Data.List.TakeWhile

/-!
# Sticky states and stale writes

Two states of a connection are sticky: `needs_reauth` until the user reconnects or
disconnects, and `disabled` until the user reconnects.  A discovery that looks degraded and
the settle at the end of a run read the row, decide, and write a status by id without looking
at the row again; so does the report of a rejected credential.

If no disconnect, reconnect or rejected credential falls between the first look of a job and
its write, the sticky states stick.

## Main definitions

* `looking` — the protocol of a status write: it is about the row the job has read first.
* `stillSince i id B tr` — since the first look of thread `i` at the connection, no command
  of kind `B` was performed.
* `writesUndisturbed` — the condition: what a status write asks of the trace before it.
* `StickyAt pre e` — the command `e`, after `pre`, respects the sticky states.

## Main results

* `Job.follows_looking` — every job writes the status of the row it has read.
* `sticky_states_kept` — **if every status write is undisturbed, no sticky state is overwritten
  by a stale write.**
* `settle_revives_deleted` — a settle that read the row before a disconnect overwrites
  `disabled`.
-/

namespace Hivebook

open Database Machine Connectors

/-! ### What a job has read -/

/-- The row of a connection that was read first. -/
def firstOf (g : List Connection) (id : Uuid) : Option Connection :=
  g.find? fun c => decide (c.id = id)

/-- The statuses a settle writes. -/
def ConnectionStatus.settles : ConnectionStatus → Bool
  | .connected | .error | .backfilling | .connectedWarnings => true
  | _ => false

/-- When a job writes a status: it has read the row, a degraded discovery writes back the
status it has read, and a settle has not read `needs_reauth`. -/
def looking : Protocol (List Connection) Cmd Cmd.Resp where
  allowed g
    | .statement (.setConnectionStatus id st _) =>
        ∃ conn, firstOf g id = some conn ∧ conn.status = st
    | .statement (.setConnectionSettled id st) =>
        ∃ conn, firstOf g id = some conn ∧ conn.status ≠ .needsReauth ∧ st.settles = true
    | .statement (.setNeedsReauth id _) => ∃ conn, firstOf g id = some conn
    | _ => True
  next g
    | .statement (.getConnectionByID _), .ok conn => g ++ [conn]
    | _, _ => g

theorem firstOf_append {g g' : List Connection} {id : Uuid} {conn : Connection}
    (h : firstOf g id = some conn) : firstOf (g ++ g') id = some conn := by
  unfold firstOf at h ⊢
  rw [List.find?_append, h]
  rfl

/-- What was read first stays so. -/
theorem firstOf_next {g : List Connection} {id : Uuid} {conn : Connection}
    (h : firstOf g id = some conn) (c : Cmd) (r : c.Resp) :
    firstOf (looking.next g c r) id = some conn := by
  unfold looking
  dsimp only
  split
  · exact firstOf_append h
  · exact h

theorem settles_settleStatus (total errored uncommitted : ℕ) :
    (settleStatus total errored uncommitted).settles = true := by
  unfold settleStatus
  split
  · rfl
  · split
    · rfl
    · split
      · rfl
      · split <;> rfl

/-! ### Every job writes the status of the row it has read -/

section Follows

variable {α : Type} {p : Program α} {g : List Connection} {conn : Connection}

theorem looking_of_routine {c : Cmd} (h : c.routine = true) (g : List Connection) :
    looking.allowed g c := by
  cases c with
  | statement s => cases s <;> trivial
  | _ => trivial

theorem looking_of_touchesTokens {c : Cmd} (h : c.touchesTokens = true) (g : List Connection) :
    looking.allowed g c := by
  cases c with
  | statement s => cases s <;> trivial
  | _ => trivial

theorem looking_of_inSync {i : SyncInput} {c : Cmd} (h : InSync i conn c)
    (hg : firstOf g conn.id = some conn) : looking.allowed g c := by
  cases h with
  | tokens hc => exact looking_of_touchesTokens hc g
  | reauth text => exact ⟨conn, hg⟩
  | _ => trivial

theorem looking_of_inPass {c : Cmd} (h : InPass conn c)
    (hg : firstOf g conn.id = some conn) : looking.allowed g c := by
  cases h with
  | tokens hc => exact looking_of_touchesTokens hc g
  | reauth text => exact ⟨conn, hg⟩
  | setStatus text => exact ⟨conn, hg, rfl⟩
  | _ => trivial

/-- A program about a row that was read first follows the protocol. -/
theorem follows_of_read {U : Cmd → Prop} (hp : p.Uses U)
    (hU : ∀ c g, U c → firstOf g conn.id = some conn → looking.allowed g c)
    (hg : firstOf g conn.id = some conn) : p.Follows looking (fun _ _ => True) g :=
  (Prog.follows_of_uses (I := fun g => firstOf g conn.id = some conn)
    (hp.mono fun c hc g hg => ⟨hU c g hc hg, firstOf_next hg c⟩) hg).mono fun _ _ _ => trivial

/-- A load reads the row that the job goes on with. -/
theorem follows_loadConnection (a : Activities) (id : Uuid) :
    (a.loadConnection id).Follows looking
      (fun r g => ∀ conn connector, r = .ok (conn, connector) →
        firstOf g conn.id = some conn) [] := by
  refine ⟨trivial, fun r => ?_⟩
  cases r with
  | error e => exact fun _ _ h => nomatch h
  | ok conn =>
    dsimp only [Prog.pure_bind]
    split
    · exact fun _ _ h => nomatch h
    · intro conn' connector' h
      cases h
      simp [looking, firstOf]

theorem follows_settleConnection (id : Uuid) :
    (Activities.settleConnection id).Follows looking (fun _ _ => True) [] := by
  refine ⟨trivial, fun r => ?_⟩
  cases r with
  | error e => trivial
  | ok counts =>
    refine ⟨trivial, fun r => ?_⟩
    cases r with
    | error e => trivial
    | ok conn =>
      have hread : firstOf (looking.next [] (.statement (.getConnectionByID id)) (.ok conn))
          conn.id = some conn := by
        simp [looking, firstOf]
      dsimp only [Prog.pure_bind]
      refine Prog.Follows.bind (R := fun _ _ => True) ?_ fun r g' _ => ?_
      · unfold Activities.setConnectionSettled
        split
        · trivial
        · rename_i hne
          refine ⟨⟨conn, hread, hne, settles_settleStatus _ _ _⟩, fun r => ?_⟩
          cases r with
          | error e => trivial
          | ok _ => exact ⟨trivial, fun _ => trivial⟩
      · split <;> trivial

/-- **Every job writes the status of the row it has read.** -/
theorem Job.follows_looking (a : Activities) (sv : Server) (j : Job) :
    (j.prog a sv).Follows looking (fun _ _ => True) [] := by
  by_cases hj : j.isRoutine = true
  · exact Prog.follows_of_uses (I := fun _ => True)
      ((Job.routine a sv hj).mono fun c hc g _ => ⟨looking_of_routine hc g, fun _ => trivial⟩)
      trivial
  · cases j with
    | syncUnit i =>
      refine Prog.Follows.bind (R := fun _ _ => True) ?_ fun _ _ _ => trivial
      rw [syncUnit_eq]
      refine (follows_loadConnection a i.connectionID).bind fun r g hr => ?_
      cases r with
      | error e => trivial
      | ok cc =>
        exact follows_of_read (uses_syncLoaded a cc.2) (fun c g => looking_of_inSync) (hr _ _ rfl)
    | settleConnection id =>
      exact (follows_settleConnection id).bind fun _ _ _ => trivial
    | upkeep u =>
      cases u with
      | discoverUnits id =>
        refine Prog.Follows.bind (R := fun _ _ => True) ?_ fun _ _ _ => trivial
        rw [discoverUnits_loaded]
        refine (follows_loadConnection a id).bind fun r g hr => ?_
        cases r with
        | error e => trivial
        | ok cc =>
          exact follows_of_read (uses_discoverLoaded a cc.2) (fun c g => looking_of_inPass)
            (hr _ _ rfl)
      | _ => exact absurd rfl hj
    | _ => exact absurd rfl hj

end Follows

/-! ### Since the first look -/

/-- The database that a command leaves. -/
def dbAfter (l : Performed World Choice Cmd) : Database :=
  (service.perform l.choice l.cancelled l.state l.cmd).1.db

/-- The command looks at the connection, or at the counts of its units. -/
def looksAt (id : Uuid) (l : Performed World Choice Cmd) : Bool :=
  match l.cmd with
  | .statement (.getConnectionByID id') | .statement (.settleCounts id') => decide (id' = id)
  | _ => false

/-- `DeleteConnection` takes effect. -/
def deletesRow (id : Uuid) (l : Performed World Choice Cmd) : Bool :=
  tookEffect l && match l.cmd with
    | .statement (.deleteConnection id' _) => decide (id' = id)
    | _ => false

/-- `SetNeedsReauth` takes effect. -/
def rejectsRow (id : Uuid) (l : Performed World Choice Cmd) : Bool :=
  tookEffect l && match l.cmd with
    | .statement (.setNeedsReauth id' _) => decide (id' = id)
    | _ => false

/-- `UpsertConnection` takes effect, on the row of the connection. -/
def reconnectsRow (id : Uuid) (l : Performed World Choice Cmd) : Bool :=
  tookEffect l && match l.cmd with
    | .statement (.upsertConnection p) => (dbAfter l).connections.rows.any fun c =>
        decide (c.id = id) && decide (c.key = (p.new 0).key)
    | _ => false

/-- A status that was read or computed is written. -/
def putsStatus (id : Uuid) (l : Performed World Choice Cmd) : Bool :=
  tookEffect l && match l.cmd with
    | .statement (.setConnectionStatus id' _ _) | .statement (.setConnectionSettled id' _) =>
        decide (id' = id)
    | _ => false

/-- The user or the source has changed the state of the connection. -/
def unsettles (id : Uuid) (l : Performed World Choice Cmd) : Bool :=
  deletesRow id l || rejectsRow id l || reconnectsRow id l

/-- Since the first look of a thread at a connection, no command of a kind was performed. -/
def stillSince (i : ℕ) (id : Uuid) (B : Performed World Choice Cmd → Bool)
    (tr : List (ℕ × Performed World Choice Cmd)) : Bool :=
  (tr.dropWhile fun l => !(decide (l.1 = i) && looksAt id l.2)).all fun l => !B l.2

/-- What a status write of a thread asks of the trace before it. -/
def standsStill (i : ℕ) (tr : List (ℕ × Performed World Choice Cmd)) (x : Choice) (b : Bool)
    (_ : World) : Cmd → Bool
  | .statement (.setConnectionStatus id _ _) | .statement (.setConnectionSettled id _) =>
      !x.takesEffect b || stillSince i id (unsettles id) tr
  | .statement (.setNeedsReauth id _) => !x.takesEffect b || stillSince i id (deletesRow id) tr
  | _ => true

/-- **The condition**: between the first look of a job at a connection and its write of a
status, no disconnect takes effect, and unless the write is of `needs_reauth` no reconnect and
no rejected credential. -/
def writesUndisturbed (s : Pool World Cmd Cmd.Resp Unit)
    (tr : List (ℕ × Performed World Choice Cmd)) (e : PoolEvent Job Choice) : Bool :=
  poolCheck (standsStill e.thread tr) s e

/-- A command respects the sticky states: `needs_reauth` is left by a reconnect or a disconnect
only, `disabled` by a reconnect only, and a status is written only if no reconnect took effect
since the job's first look. -/
structure StickyAt (pre : List (ℕ × Performed World Choice Cmd))
    (e : ℕ × Performed World Choice Cmd) : Prop where
  needsReauth : ∀ id, e.2.state.db.statusOf id = some .needsReauth →
    (dbAfter e.2).statusOf id = some .needsReauth ∨ reconnectsRow id e.2 = true ∨
      deletesRow id e.2 = true
  disabled : ∀ id, e.2.state.db.statusOf id = some .disabled →
    (dbAfter e.2).statusOf id = some .disabled ∨ reconnectsRow id e.2 = true
  fresh : ∀ id, putsStatus id e.2 = true → stillSince e.1 id (reconnectsRow id) pre = true

section Since

variable {i : ℕ} {id : Uuid} {B B' : Performed World Choice Cmd → Bool}
  {tr : List (ℕ × Performed World Choice Cmd)} {e : ℕ × Performed World Choice Cmd}

theorem stillSince_mono (h : stillSince i id B tr = true) (hB : ∀ l, B' l = true → B l = true) :
    stillSince i id B' tr = true := by
  unfold stillSince at h ⊢
  rw [List.all_eq_true] at h ⊢
  intro l hl
  have hno := h l hl
  cases hB' : B' l.2 with
  | false => rfl
  | true =>
    rw [hB l.2 hB'] at hno
    cases hno

/-- Once a thread has looked, every later command counts. -/
theorem stillSince_snoc (h : stillSince i id B (tr ++ [e]) = true)
    (hlooked : ∃ l ∈ byThread i tr, looksAt id l = true) :
    stillSince i id B tr = true ∧ B e.2 = false := by
  have hne : tr.dropWhile (fun l => !(decide (l.1 = i) && looksAt id l.2)) ≠ [] := by
    obtain ⟨l, hl, hlooks⟩ := hlooked
    intro hnil
    have hall := List.dropWhile_eq_nil_iff.mp hnil (i, l) (mem_of_mem_byThread hl)
    simp [hlooks] at hall
  unfold stillSince at h ⊢
  rw [List.dropWhile_append, if_neg (by simpa using hne), List.all_append, Bool.and_eq_true] at h
  refine ⟨h.1, ?_⟩
  simpa using h.2

end Since

/-! ### The invariant -/

/-- What a thread has read so far. -/
def sightings (i : ℕ) (tr : List (ℕ × Performed World Choice Cmd)) : List Connection :=
  looking.after service [] (byThread i tr)

/-- A row that was read was looked at. -/
theorem looked_of_mem {ls : List (Performed World Choice Cmd)} {conn : Connection}
    (h : conn ∈ looking.after service [] ls) : ∃ l ∈ ls, looksAt conn.id l = true := by
  induction ls using List.reverseRecOn with
  | nil => cases h
  | append_singleton ls l ih =>
    rw [Protocol.after_snoc] at h
    obtain ⟨w, c, b, x⟩ := l
    by_cases hc : ∃ id, c = .statement (.getConnectionByID id)
    · obtain ⟨id, rfl⟩ := hc
      rw [service_statement] at h
      cases hr : x.reply b ((Statement.getConnectionByID id).exec (w.now + x.elapsed) w.db).1 with
      | error e =>
        rw [hr] at h
        obtain ⟨l, hl, hlooks⟩ := ih h
        exact ⟨l, by simp [hl], hlooks⟩
      | ok conn' =>
        rw [hr] at h
        rcases List.mem_append.mp h with h | h
        · obtain ⟨l, hl, hlooks⟩ := ih h
          exact ⟨l, by simp [hl], hlooks⟩
        · -- the row just read is the one asked for
          obtain rfl := List.mem_singleton.mp h
          have hid := (mem_of_getConnectionByID (of_reply_eq_ok hr).2).2
          exact ⟨⟨w, .statement (.getConnectionByID id), b, x⟩, by simp, by simp [looksAt, hid]⟩
    · have hkept : ∀ r : c.Resp, looking.next (looking.after service [] ls) c r =
          looking.after service [] ls := by
        intro r
        cases c with
        | statement s =>
          cases s with
          | getConnectionByID id => exact absurd ⟨id, rfl⟩ hc
          | _ => rfl
        | _ => rfl
      rw [hkept] at h
      obtain ⟨l, hl, hlooks⟩ := ih h
      exact ⟨l, by simp [hl], hlooks⟩

theorem looked_of_firstOf {ls : List (Performed World Choice Cmd)} {id : Uuid} {conn : Connection}
    (h : firstOf (looking.after service [] ls) id = some conn) :
    ∃ l ∈ ls, looksAt id l = true := by
  have hid : conn.id = id := by simpa using List.find?_some h
  rw [← hid]
  exact looked_of_mem (List.mem_of_find?_eq_some h)

/-- What holds of the connections and of what the threads have read of them. -/
structure StandInv (w : World) (tr : List (ℕ × Performed World Choice Cmd)) : Prop where
  /-- A disabled connection is deleted. -/
  deleted : ∀ id del, w.db.standing id = some (.disabled, del) → del = true
  /-- Nobody has read a disabled one. -/
  read : ∀ i id conn, firstOf (sightings i tr) id = some conn → conn.status ≠ .disabled
  /-- What was read is there as long as it is not deleted. -/
  alive : ∀ i id conn, firstOf (sightings i tr) id = some conn →
    stillSince i id (deletesRow id) tr = true → ∃ st, w.db.standing id = some (st, false)
  /-- It needs a reconnect if and only if it did, as long as nobody interferes. -/
  same : ∀ i id conn, firstOf (sightings i tr) id = some conn →
    stillSince i id (unsettles id) tr = true →
    (w.db.statusOf id = some .needsReauth ↔ conn.status = .needsReauth)
  sticky : AtEvery StickyAt tr

/-- What a command may do to a connection. -/
structure Respects (id : Uuid) (l : Performed World Choice Cmd) : Prop where
  deleted : ∀ del, (dbAfter l).standing id = some (.disabled, del) → del = true
  alive : deletesRow id l = false → (∃ st, l.state.db.standing id = some (st, false)) →
    ∃ st, (dbAfter l).standing id = some (st, false)
  same : unsettles id l = false →
    ((dbAfter l).statusOf id = some .needsReauth ↔ l.state.db.statusOf id = some .needsReauth)
  needsReauth : l.state.db.statusOf id = some .needsReauth →
    (dbAfter l).statusOf id = some .needsReauth ∨ reconnectsRow id l = true ∨
      deletesRow id l = true
  disabled : l.state.db.statusOf id = some .disabled →
    (dbAfter l).statusOf id = some .disabled ∨ reconnectsRow id l = true

section Step

variable {w : World} {tr : List (ℕ × Performed World Choice Cmd)} {i : ℕ} {x : Choice} {b : Bool}
  {c : Cmd} {id : Uuid}

theorem statusOf_eq {db : Database} {st : ConnectionStatus} {del : Bool}
    (h : db.standing id = some (st, del)) : db.statusOf id = some st := by
  unfold Database.statusOf
  rw [h]
  rfl

theorem standing_of_statusOf {db : Database} {st : ConnectionStatus}
    (h : db.statusOf id = some st) : ∃ del, db.standing id = some (st, del) := by
  obtain ⟨⟨st', del⟩, hst, rfl⟩ := Option.map_eq_some_iff.mp h
  exact ⟨del, hst⟩

theorem undisturbed_deletes (h : stillSince i id (unsettles id) tr = true) :
    stillSince i id (deletesRow id) tr = true :=
  stillSince_mono h fun l hl => by simp [unsettles, hl]

theorem StandInv.not_disabled (h : StandInv w tr) {st : ConnectionStatus}
    (hst : w.db.standing id = some (st, false)) : w.db.statusOf id ≠ some .disabled := by
  intro hdis
  obtain ⟨del, hdis⟩ := standing_of_statusOf hdis
  have hdel := h.deleted id del hdis
  rw [hst] at hdis
  cases hdis
  cases hdel

theorem respects_of_same (hinv : StandInv w tr)
    (h : (dbAfter ⟨w, c, b, x⟩).standing id = w.db.standing id) :
    Respects id ⟨w, c, b, x⟩ := by
  have hst : (dbAfter ⟨w, c, b, x⟩).statusOf id = w.db.statusOf id := by
    unfold Database.statusOf
    rw [h]
  refine ⟨fun del hdel => hinv.deleted id del (h.symm.trans hdel), fun _ ⟨st, halive⟩ =>
    ⟨st, h.trans halive⟩, fun _ => by rw [hst], fun hst' => .inl (hst.trans hst'), fun hst' =>
      .inl (hst.trans hst')⟩

/-- **A status write that is undisturbed respects the sticky states**, and every other statement
does anyway. -/
theorem respects_of_restands (hinv : StandInv w tr) {s : Statement}
    (hallowed : looking.allowed (sightings i tr) (.statement s))
    (hstill : standsStill i tr x b w (.statement s) = true) (heff : x.takesEffect b = true)
    (h : Restands w.db (dbAfter ⟨w, .statement s, b, x⟩) id s) :
    Respects id ⟨w, .statement s, b, x⟩ := by
  cases h with
  | setNeedsReauth text st del hst hst' =>
    obtain ⟨conn, hread⟩ := hallowed
    have hund : stillSince i id (deletesRow id) tr = true := by
      simpa [standsStill, heff] using hstill
    obtain ⟨st₁, halive⟩ := hinv.alive i id conn hread hund
    rw [hst] at halive
    cases halive
    -- the row was read alive and not deleted since, so the write finds it alive
    refine ⟨fun del hdel => ?_, fun _ _ => ⟨_, hst'⟩, fun hno => ?_,
      fun _ => .inl (statusOf_eq hst'),
      fun hdis => ?_⟩
    · rw [hst'] at hdel
      cases hdel
    · simp [unsettles, rejectsRow, tookEffect, heff] at hno
    · exact absurd hdis (hinv.not_disabled hst)
  | setConnectionStatus st' text st del hst hst' =>
    obtain ⟨conn, hread, rfl⟩ := hallowed
    have hund : stillSince i id (unsettles id) tr = true := by
      simpa [standsStill, heff] using hstill
    obtain ⟨st₁, halive⟩ := hinv.alive i id conn hread (undisturbed_deletes hund)
    rw [hst] at halive
    cases halive
    -- the status was not touched since it was read, so what was read is what is replaced
    have hsame := hinv.same i id conn hread hund
    have hnot := hinv.read i id conn hread
    refine ⟨fun del hdel => ?_, fun _ _ => ⟨_, hst'⟩, fun _ => ?_, fun hre => .inl ?_,
      fun hdis => ?_⟩
    · rw [hst'] at hdel
      exact absurd (Prod.mk.inj (Option.some.inj hdel)).1 hnot
    · rw [statusOf_eq hst', hsame, Option.some.injEq]
    · rw [statusOf_eq hst', hsame.mp hre]
    · exact absurd hdis (hinv.not_disabled hst)
  | setConnectionSettled st' st del hst hst' =>
    obtain ⟨conn, hread, hne, hsettles⟩ := hallowed
    have hund : stillSince i id (unsettles id) tr = true := by
      simpa [standsStill, heff] using hstill
    obtain ⟨st₁, halive⟩ := hinv.alive i id conn hread (undisturbed_deletes hund)
    rw [hst] at halive
    cases halive
    have hsame := hinv.same i id conn hread hund
    refine ⟨fun del hdel => ?_, fun _ _ => ⟨_, hst'⟩, fun _ => ?_, fun hre => ?_, fun hdis => ?_⟩
    · rw [hst'] at hdel
      cases hdel
      cases hsettles
    · rw [statusOf_eq hst', hsame]
      refine iff_of_false (fun heq => ?_) hne
      cases heq
      cases hsettles
    · exact absurd (hsame.mp hre) hne
    · exact absurd hdis (hinv.not_disabled hst)
  -- the statement itself passes over the sticky states
  | startRunConnection st del hne hnd hst hst' =>
    have hbefore : ∀ st₁, w.db.statusOf id = some st₁ → st₁ = st := by
      intro st₁ h₁
      rw [statusOf_eq hst] at h₁
      exact (Option.some.inj h₁).symm
    refine ⟨fun del hdel => ?_, fun _ ⟨st₁, halive⟩ => ?_, fun _ => ?_, fun hre => ?_,
      fun hdis => ?_⟩
    · rw [hst'] at hdel
      cases hdel
    · rw [show w.db.standing id = _ from hst] at halive
      cases halive
      exact ⟨_, hst'⟩
    · rw [statusOf_eq hst']
      refine iff_of_false (by simp) fun hre => hne (hbefore _ hre).symm
    · exact absurd (hbefore _ hre).symm hne
    · exact absurd (hbefore _ hdis).symm hnd
  | deleteConnection tenantID hst' =>
    have hdeletes : deletesRow id ⟨w, .statement (.deleteConnection id tenantID), b, x⟩ = true := by
      simp [deletesRow, tookEffect, heff]
    refine ⟨fun del hdel => ?_, fun hno => ?_, fun hno => ?_, fun _ => .inr (.inr hdeletes),
      fun _ => .inl (statusOf_eq hst')⟩
    · rw [hst'] at hdel
      cases hdel
      rfl
    · rw [hdeletes] at hno
      cases hno
    · simp [unsettles, hdeletes] at hno
  | upsertConnection p conn hmem hid hkey hst' =>
    have hreconnects : reconnectsRow id ⟨w, .statement (.upsertConnection p), b, x⟩ = true := by
      simp only [reconnectsRow, tookEffect, heff, Bool.true_and, List.any_eq_true, Bool.and_eq_true,
        decide_eq_true_eq]
      exact ⟨conn, hmem, hid, hkey⟩
    refine ⟨fun del hdel => ?_, fun _ _ => ⟨_, hst'⟩, fun hno => ?_,
      fun _ => .inr (.inl hreconnects),
      fun _ => .inr hreconnects⟩
    · rw [hst'] at hdel
      cases hdel
    · simp [unsettles, hreconnects] at hno

/-- **Every command of a run respects the sticky states.** -/
theorem respects_step (hinv : StandInv w tr) (hallowed : looking.allowed (sightings i tr) c)
    (hstill : standsStill i tr x b w c = true) (id : Uuid) : Respects id ⟨w, c, b, x⟩ := by
  cases c with
  | statement s =>
    by_cases heff : x.takesEffect b = true
    · have hdb : dbAfter ⟨w, .statement s, b, x⟩ = (s.exec (w.now + x.elapsed) w.db).2 := by
        unfold dbAfter
        rw [service_db]
        exact if_pos heff
      rcases @standing_exec w.db id (w.now + x.elapsed) s with hsame | hmoves
      · exact respects_of_same hinv (by rw [hdb, hsame])
      · rw [← hdb] at hmoves
        exact respects_of_restands hinv hallowed hstill heff hmoves
    · refine respects_of_same hinv ?_
      unfold dbAfter
      rw [service_db]
      exact congrArg (fun db => Database.standing db id) (if_neg heff)
  | _ =>
    refine respects_of_same hinv ?_
    unfold dbAfter
    rw [service_db]

/-- A row is read first when it was read before, or it is read now. -/
theorem firstOf_snoc {i' : ℕ} {conn : Connection}
    (h : firstOf (sightings i' (tr ++ [(i, ⟨w, c, b, x⟩)])) id = some conn) :
    firstOf (sightings i' tr) id = some conn ∨
      (w.db.standing id = some (conn.status, false) ∧
        dbAfter ⟨w, c, b, x⟩ = w.db) := by
  by_cases hi : i = i'
  · subst hi
    unfold sightings at h ⊢
    rw [byThread_snoc_self, Protocol.after_snoc] at h
    cases hfirst : firstOf (looking.after service [] (byThread i tr)) id with
    | some conn' =>
      rw [firstOf_next hfirst] at h
      exact .inl h
    | none =>
      right
      by_cases hc : ∃ id', c = .statement (.getConnectionByID id')
      · obtain ⟨id', rfl⟩ := hc
        rw [service_statement] at h
        cases hr :
            x.reply b ((Statement.getConnectionByID id').exec (w.now + x.elapsed) w.db).1 with
        | error e =>
          rw [hr] at h
          exact absurd (hfirst.symm.trans h) (by simp)
        | ok conn' =>
          rw [hr] at h
          -- nothing of the id was read before, so it is the row that is read now
          have hnew : firstOf [conn'] id = some conn := by
            have happ : firstOf (looking.after service [] (byThread i tr) ++ [conn']) id =
                some conn := h
            unfold firstOf at happ hfirst ⊢
            rwa [List.find?_append, hfirst, Option.none_or] at happ
          have heq : conn = conn' := by simpa using List.mem_of_find?_eq_some hnew
          subst heq
          have hid : conn.id = id := by simpa using List.find?_some hnew
          have hfound := (of_reply_eq_ok hr).2
          obtain ⟨hmem, -⟩ := mem_of_getConnectionByID hfound
          refine ⟨?_, ?_⟩
          · rw [standing_of_mem hmem hid, deletedAt_of_getConnectionByID hfound]
            rfl
          · unfold dbAfter
            rw [service_db]
            exact ite_self _
      · have hkept : ∀ r : c.Resp, looking.next (looking.after service [] (byThread i tr)) c r =
            looking.after service [] (byThread i tr) := by
          intro r
          cases c with
          | statement s =>
            cases s with
            | getConnectionByID id' => exact absurd ⟨id', rfl⟩ hc
            | _ => rfl
          | _ => rfl
        rw [hkept, hfirst] at h
        cases h
  · left
    unfold sightings at h ⊢
    rwa [byThread_snoc_of_ne hi] at h

/-- **The invariant is kept by every command** whose status write is undisturbed. -/
theorem StandInv.step (hinv : StandInv w tr) (hallowed : looking.allowed (sightings i tr) c)
    (hstill : standsStill i tr x b w c = true) :
    StandInv (service.perform x b w c).1 (tr ++ [(i, ⟨w, c, b, x⟩)]) := by
  have hrespects := respects_step hinv hallowed hstill
  refine ⟨fun id => (hrespects id).deleted, fun i' id conn hfirst => ?_, fun i' id conn hfirst
    hund => ?_, fun i' id conn hfirst hund => ?_, atEvery_snoc hinv.sticky ?_⟩
  · rcases firstOf_snoc hfirst with hfirst | ⟨hst, -⟩
    · exact hinv.read i' id conn hfirst
    · intro hdis
      rw [hdis] at hst
      exact absurd (statusOf_eq hst) (hinv.not_disabled hst)
  · rcases firstOf_snoc hfirst with hfirst | ⟨hst, hdb⟩
    · obtain ⟨hund, hno⟩ := stillSince_snoc hund (looked_of_firstOf hfirst)
      exact (hrespects id).alive hno (hinv.alive i' id conn hfirst hund)
    · exact ⟨conn.status, (congrArg (fun db => Database.standing db id) hdb).trans hst⟩
  · rcases firstOf_snoc hfirst with hfirst | ⟨hst, hdb⟩
    · obtain ⟨hund, hno⟩ := stillSince_snoc hund (looked_of_firstOf hfirst)
      exact ((hrespects id).same hno).trans (hinv.same i' id conn hfirst hund)
    · have hafter : (service.perform x b w c).1.db.statusOf id = some conn.status :=
        (congrArg (fun db => Database.statusOf db id) hdb).trans (statusOf_eq hst)
      rw [hafter, Option.some.injEq]
  · refine ⟨fun id => (hrespects id).needsReauth, fun id => (hrespects id).disabled,
      fun id hputs => ?_⟩
    obtain ⟨heff, hputs⟩ := Bool.and_eq_true_iff.mp hputs
    have heff' : x.takesEffect b = true := heff
    have hund : stillSince i id (unsettles id) tr = true := by
      cases c with
      | statement s =>
        cases s with
        | setConnectionStatus id' st text =>
          obtain rfl : id' = id := of_decide_eq_true hputs
          simpa [standsStill, heff'] using hstill
        | setConnectionSettled id' st =>
          obtain rfl : id' = id := of_decide_eq_true hputs
          simpa [standsStill, heff'] using hstill
        | _ => cases hputs
      | _ => cases hputs
    exact stillSince_mono hund fun l hl => by simp [unsettles, hl]

end Step

/-- **If every status write is undisturbed, the sticky states stick**: in every interleaving of
the commands of the jobs, no sticky state is overwritten by a stale write. -/
theorem sticky_states_kept (a : Activities) (sv : Server) {w : World}
    {es : List (PoolEvent Job Choice)} {s : Pool World Cmd Cmd.Resp Unit}
    {tr : List (ℕ × Performed World Choice Cmd)}
    (hstart : ∀ id del, w.db.standing id = some (.disabled, del) → del = true)
    (h : (service.threads (Job.prog a sv)).RunWhere
      (fun s tr e => writesUndisturbed s tr e = true) ⟨w, []⟩ es s tr) : AtEvery StickyAt tr := by
  have hinv : StandInv s.world tr := by
    refine threads_invariant h (Job.follows_looking a sv) ?_ ?_
    · exact ⟨hstart, fun i id conn hfirst => (nomatch hfirst), fun i id conn hfirst =>
        (nomatch hfirst), fun i id conn hfirst => (nomatch hfirst), atEvery_nil⟩
    · intro s tr i t c k b hC hth hallowed hinv
      have hstill := poolMeets_of_check hC c k b hth
      exact hinv.step hallowed hstill
  exact hinv.sticky

/-! ### A settle and a disconnect -/

-- Ann's Drive is connected
example : freshDrive.db.standing 0 = some (.connected, false) := by decide +kernel

theorem freshDrive_stands (id : Uuid) (del : Bool)
    (h : freshDrive.db.standing id = some (.disabled, del)) : del = true := by
  have hnone : ∀ c ∈ freshDrive.db.connections.rows, c.status ≠ .disabled := by decide +kernel
  obtain ⟨c, hc, -, heq⟩ := exists_of_standing h
  exact absurd (Prod.mk.inj heq).1.symm (hnone c hc)

/-- The settle at the end of a run is through before Ann disconnects. -/
def settleThenDisconnect : List (PoolEvent Job Choice) :=
  .start (.settleConnection 0) :: quietTurns 0 4 ++
    .start (.disconnect (some "acme") 0) :: quietTurns 1 2

/-- Ann disconnects while the settle is between its read and its write. -/
def settleAroundDisconnect : List (PoolEvent Job Choice) :=
  .start (.settleConnection 0) :: quietTurns 0 2 ++
    .start (.disconnect (some "acme") 0) :: quietTurns 1 2 ++ quietTurns 0 1

/-- A disconnect after the settle is kept. -/
theorem settled_then_disabled :
    ∃ s tr, (service.threads (Job.prog driveActivities driveServer)).RunWhere
        (fun s tr e => writesUndisturbed s tr e = true) ⟨freshDrive, []⟩ settleThenDisconnect s tr ∧
      s.world.db.statusOf 0 = some .disabled ∧ AtEvery StickyAt tr := by
  obtain ⟨s, tr, hrun, hend⟩ := Lts.exists_runWhere_of_any
    (service.threads (Job.prog driveActivities driveServer)) writesUndisturbed ⟨freshDrive, []⟩
    settleThenDisconnect (fun s _ => decide (s.world.db.statusOf 0 = some .disabled))
    (by decide +kernel)
  exact ⟨s, tr, hrun, of_decide_eq_true hend,
    sticky_states_kept driveActivities driveServer freshDrive_stands hrun⟩

/-- **A settle revives a connection that was disconnected since its read**: the status goes from
`disabled` to a resting one, without a reconnect. -/
theorem settle_revives_deleted :
    ∃ s tr, (service.threads (Job.prog driveActivities driveServer)).Run ⟨freshDrive, []⟩
        settleAroundDisconnect s tr ∧ ¬ AtEvery StickyAt tr := by
  obtain ⟨s, tr, hrun, hlast⟩ := Lts.exists_run_of_any
    (service.threads (Job.prog driveActivities driveServer)) ⟨freshDrive, []⟩
    settleAroundDisconnect
    (fun _ tr => tr.getLast?.any fun e : ℕ × Performed World Choice Cmd =>
      decide (e.2.state.db.statusOf 0 = some .disabled) &&
        decide ((dbAfter e.2).statusOf 0 ≠ some .disabled) && !reconnectsRow 0 e.2)
    (by decide +kernel)
  refine ⟨s, tr, hrun, fun hevery => ?_⟩
  obtain ⟨e, he, hP⟩ := (Option.any_eq_true _ _).mp hlast
  simp only [Bool.and_eq_true, decide_eq_true_eq, Bool.not_eq_true'] at hP
  obtain ⟨⟨hbefore, hafter⟩, hno⟩ := hP
  have hsplit : tr = tr.dropLast ++ e :: [] := (List.dropLast_append_getLast? e he).symm
  rcases (hevery _ e [] hsplit).disabled 0 hbefore with hkept | hreconnects
  · exact hafter hkept
  · rw [hno] at hreconnects
    cases hreconnects

end Hivebook
