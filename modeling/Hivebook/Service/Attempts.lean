import Hivebook.Lib.Threads
import Hivebook.Service.Draining

/-!
# Attempts that overlap

A heartbeat timeout starts another attempt of a drain while the last one is still running.
Every attempt moves the cursor from a mark of its own in memory, and rewrites rows with
what it was served: neither is compared with what another attempt has written meanwhile.

Any number of executions of `SyncUnit` on one unit run side by side here, against a source
whose items only get newer.

## Main definitions

* `Version`, `versionLE` — an item at a time; `served` — what a page says.
* `Forward i w w'` — the cursor and the versions in the manifest have not gone back.
* `overtaken` — another attempt has committed the item since the page was served.
* `upToDate` — no attempt writes the cursor from an old mark, or an item it is overtaken
  on; `onward` — the source does not go back.

## Main results

* `attempts_forward` — **if every write is up to date, nothing goes back.**
* `stale_attempt_regresses` — a slow attempt that undoes a newer one.
-/

namespace Hivebook

open Database Machine Connectors

/-! ### Versions -/

/-- An item and the time of its last update. -/
abbrev Version := String × Option ℤ

/-- One time is no later than another; no time is before all of them. -/
def versionLE : Option ℤ → Option ℤ → Bool
  | none, _ => true
  | some _, none => false
  | some t, some t' => decide (t ≤ t')

theorem versionLE_refl (t : Option ℤ) : versionLE t t = true := by
  cases t <;> simp [versionLE]

theorem versionLE_trans {t t' t'' : Option ℤ} (h : versionLE t t' = true)
    (h' : versionLE t' t'' = true) : versionLE t t'' = true := by
  cases t with
  | none => rfl
  | some t =>
    cases t' with
    | none => cases h
    | some t' =>
      cases t'' with
      | none => cases h'
      | some t'' =>
        simp only [versionLE, decide_eq_true_eq] at h h' ⊢
        omega

/-- The version of an entry, as its row stores it. -/
def Connectors.Entry.version (e : Entry) : Version := (e.externalID, nullTime e.updatedAt)

/-- The page a command was served, if it was served one. -/
def servedPage (l : Performed World Choice Cmd) : Option (List Entry) :=
  match l.cmd with
  | .request q =>
      if q.isListing && !l.cancelled then
        match l.choice.answer q with
        | .ok r => some (q.entries r)
        | .error _ => none
      else none
  | _ => none

/-- The versions the commands were served. -/
def served (tr : List (ℕ × Performed World Choice Cmd)) : List Version :=
  tr.flatMap fun m => ((servedPage m.2).getD []).map Entry.version

/-- The versions in the manifest of the connection. -/
def recorded (i : SyncInput) (w : World) : List Version :=
  (w.db.artifacts.rows.filter fun r => decide (r.connectionID = i.connectionID)).map fun r =>
    (r.externalID, r.sourceUpdatedAt)

/-! ### What does not go back -/

/-- The cursor of the unit is no further back, and every row of the connection is there at
a version no older. -/
structure Forward (i : SyncInput) (w w' : World) : Prop where
  cursor : ∀ u' ∈ w'.db.units.rows, u'.is i.connectionID i.unitID = true →
    ∃ u ∈ w.db.units.rows, u.key = u'.key ∧ u.cursor ≤ u'.cursor
  versions : ∀ r ∈ w.db.artifacts.rows, r.connectionID = i.connectionID →
    ∃ r' ∈ w'.db.artifacts.rows, r'.key = r.key ∧
      versionLE r.sourceUpdatedAt r'.sourceUpdatedAt = true

theorem Forward.refl (i : SyncInput) (w : World) : Forward i w w :=
  ⟨fun u hu _ => ⟨u, hu, rfl, String.le_refl _⟩, fun r hr _ => ⟨r, hr, rfl, versionLE_refl _⟩⟩

theorem Forward.trans {i : SyncInput} {w w' w'' : World} (h : Forward i w w')
    (h' : Forward i w' w'') : Forward i w w'' := by
  refine ⟨fun u'' hu'' his => ?_, fun r hr hc => ?_⟩
  · obtain ⟨u', hu', hkey', hle'⟩ := h'.cursor u'' hu'' his
    obtain ⟨u, hu, hkey, hle⟩ := h.cursor u' hu' (is_congr hkey'.symm ▸ his)
    exact ⟨u, hu, hkey.trans hkey', String.le_trans hle hle'⟩
  · obtain ⟨r', hr', hkey, hle⟩ := h.versions r hr hc
    have hc' : r'.connectionID = i.connectionID := (congrArg Prod.fst hkey).trans hc
    obtain ⟨r'', hr'', hkey', hle'⟩ := h'.versions r' hr' hc'
    exact ⟨r'', hr'', hkey'.trans hkey, versionLE_trans hle hle'⟩

theorem Forward.of_db_eq {i : SyncInput} {w w' : World} (h : w'.db = w.db) : Forward i w w' := by
  have hrefl := Forward.refl i w
  refine ⟨?_, ?_⟩ <;> rw [h]
  · exact hrefl.cursor
  · exact hrefl.versions

/-! ### What attempts may do -/

/-- A command commits the item. -/
def commitsItem (x : String) (l : Performed World Choice Cmd) : Bool :=
  match l.cmd with
  | .statement (.commitArtifact p _ _) => tookEffect l && decide (p.externalID = x)
  | _ => false

/-- Another attempt has committed the item since this one was served its last page. -/
def overtaken (th : ℕ) (x : String) (tr : List (ℕ × Performed World Choice Cmd)) : Bool :=
  tr.foldl (fun o m => if decide (m.1 = th) && (servedPage m.2).isSome then false
    else o || (decide (m.1 ≠ th) && commitsItem x m.2)) false

theorem overtaken_snoc (th : ℕ) (x : String) (tr : List (ℕ × Performed World Choice Cmd))
    (m : ℕ × Performed World Choice Cmd) : overtaken th x (tr ++ [m]) =
      if decide (m.1 = th) && (servedPage m.2).isSome then false
      else overtaken th x tr || (decide (m.1 ≠ th) && commitsItem x m.2) := by
  rw [overtaken, List.foldl_append]
  rfl

section Condition

variable (k : Stock) (i : SyncInput) (connectorID : String)

/-- What an attempt has read and written, from the commands it has performed. -/
def attempt (th : ℕ) (tr : List (ℕ × Performed World Choice Cmd)) : Draining :=
  (draining k i connectorID).after service Draining.init (byThread th tr)

/-- The persisted cursor is not beyond the mark of the attempt. -/
def atMark (th : ℕ) (tr : List (ℕ × Performed World Choice Cmd)) (w : World) : Bool :=
  w.db.units.rows.all fun u => !u.is i.connectionID i.unitID ||
    decide (u.cursor ≤ (attempt k i connectorID th tr).mark)

/-- A write of the cursor that takes effect finds it not beyond the mark of its attempt,
and a commit finds its attempt not overtaken on the item. -/
def upToDate (th : ℕ) (tr : List (ℕ × Performed World Choice Cmd)) (x : Choice) (b : Bool)
    (w : World) : Cmd → Bool
  | .statement (.setUnitCursor _ _ _) => !x.takesEffect b || atMark k i connectorID th tr w
  | .statement (.commitArtifact p _ cursor) => !x.takesEffect b ||
      ((cursor.isNone || atMark k i connectorID th tr w) && !overtaken th p.externalID tr)
  | _ => true

/-- The source does not go back: a page shows no item at a version older than one that was
served before, or was recorded at the start, and at one version only. -/
def onward (base : List Version) (tr : List (ℕ × Performed World Choice Cmd))
    (page : List Entry) : Bool :=
  page.all fun e => (base ++ served tr ++ page.map Entry.version).all fun v =>
    !decide (v.1 = e.externalID) || versionLE v.2 (nullTime e.updatedAt)

/-- The next turn is up to date. -/
def turnUpToDate (s : Pool World Cmd Cmd.Resp (Except ActivityError SyncResult))
    (tr : List (ℕ × Performed World Choice Cmd)) (e : PoolEvent Unit Choice) : Bool :=
  poolCheck (upToDate k i connectorID e.thread tr) s e

/-- In the next turn the source does not go back. -/
def turnOnward (base : List Version)
    (s : Pool World Cmd Cmd.Resp (Except ActivityError SyncResult))
    (tr : List (ℕ × Performed World Choice Cmd)) (e : PoolEvent Unit Choice) : Bool :=
  poolCheck (fun x b w c => (servedPage ⟨w, c, b, x⟩).all (onward base tr)) s e

end Condition

/-! ### The invariant -/

section Invariant

variable {k : Stock} {i : SyncInput} {connectorID : String} {base : List Version}
  {tr : List (ℕ × Performed World Choice Cmd)} {w w' : World} {th : ℕ}
  {l : Performed World Choice Cmd}

theorem attempt_snoc_self : attempt k i connectorID th (tr ++ [(th, l)]) =
    (attempt k i connectorID th tr).next i connectorID l.cmd
      (service.perform l.choice l.cancelled l.state l.cmd).2 := by
  rw [attempt, byThread_snoc_self, Protocol.after_snoc]
  rfl

theorem attempt_snoc_of_ne {th' : ℕ} (h : th ≠ th') :
    attempt k i connectorID th' (tr ++ [(th, l)]) = attempt k i connectorID th' tr := by
  rw [attempt, byThread_snoc_of_ne h]
  rfl

theorem mem_served_snoc {v : Version} (h : v ∈ served tr) (m : ℕ × Performed World Choice Cmd) :
    v ∈ served (tr ++ [m]) := by
  rw [served, List.flatMap_append]
  exact List.mem_append_left _ h

theorem mem_base_snoc {v : Version} (h : v ∈ base ++ served tr)
    (m : ℕ × Performed World Choice Cmd) : v ∈ base ++ served (tr ++ [m]) := by
  rcases List.mem_append.mp h with hbase | htr
  · exact List.mem_append_left _ hbase
  · exact List.mem_append_right _ (mem_served_snoc htr m)

/-- A command of one attempt that leaves its page leaves all pages. -/
theorem page_snoc (h : (attempt k i connectorID th (tr ++ [(th, l)])).page =
    (attempt k i connectorID th tr).page) (th' : ℕ) :
    (attempt k i connectorID th' (tr ++ [(th, l)])).page =
      (attempt k i connectorID th' tr).page := by
  by_cases heq : th = th'
  · rw [← heq, h]
  · rw [attempt_snoc_of_ne heq]

variable (k i connectorID base) in
/-- What holds between two commands of the attempts. -/
structure AttemptInv (w : World) (tr : List (ℕ × Performed World Choice Cmd)) : Prop where
  connection : ∃ tenantID externalID,
    w.db.HasConnection i.connectionID (tenantID, connectorID, externalID)
  honest : ∀ th, (attempt k i connectorID th tr).honest
  /-- What is recorded was served, or was there at the start. -/
  rows : ∀ r ∈ w.db.artifacts.rows, r.connectionID = i.connectionID →
    (r.externalID, r.sourceUpdatedAt) ∈ base ++ served tr
  /-- The page of an attempt was served, and shows an item at one version. -/
  pages : ∀ th, ∀ e ∈ (attempt k i connectorID th tr).page, e.version ∈ served tr ∧
    ∀ e' ∈ (attempt k i connectorID th tr).page, e'.externalID = e.externalID →
      versionLE (nullTime e'.updatedAt) (nullTime e.updatedAt) = true
  /-- An attempt that is not overtaken on an item has a version no older than its row. -/
  fresh : ∀ th, ∀ e ∈ (attempt k i connectorID th tr).page,
    overtaken th e.externalID tr = false → ∀ r ∈ w.db.artifacts.rows,
      r.connectionID = i.connectionID → r.externalID = e.externalID →
        versionLE r.sourceUpdatedAt (nullTime e.updatedAt) = true
  forward : ∀ m ∈ tr, Forward i m.2.state w

theorem AttemptInv.honest_snoc (hinv : AttemptInv k i connectorID base w tr)
    (h : (attempt k i connectorID th (tr ++ [(th, l)])).honest) (th' : ℕ) :
    (attempt k i connectorID th' (tr ++ [(th, l)])).honest := by
  by_cases heq : th = th'
  · exact heq ▸ h
  · rw [attempt_snoc_of_ne heq]
    exact hinv.honest th'

/-- A step forward from the last state is one from all of them. -/
theorem AttemptInv.forward_snoc (hinv : AttemptInv k i connectorID base w tr)
    (hforward : Forward i w w') (hstate : l.state = w) :
    ∀ m ∈ tr ++ [(th, l)], Forward i m.2.state w' := by
  intro m hm
  rcases List.mem_append.mp hm with hm | hm
  · exact (hinv.forward m hm).trans hforward
  · rw [List.mem_singleton.mp hm]
    show Forward i l.state w'
    rw [hstate]
    exact hforward

/-- A command that is served no page and commits nothing. -/
theorem AttemptInv.quiet (hinv : AttemptInv k i connectorID base w tr) (hstate : l.state = w)
    (hconn : ∃ tenantID externalID,
      w'.db.HasConnection i.connectionID (tenantID, connectorID, externalID))
    (hhonest : (attempt k i connectorID th (tr ++ [(th, l)])).honest)
    (hpage : (attempt k i connectorID th (tr ++ [(th, l)])).page =
      (attempt k i connectorID th tr).page)
    (hserved : servedPage l = none) (hcommits : ∀ x, commitsItem x l = false)
    (hrows : w'.db.artifacts = w.db.artifacts) (hforward : Forward i w w') :
    AttemptInv k i connectorID base w' (tr ++ [(th, l)]) := by
  have hpages := page_snoc hpage
  have hover : ∀ th' x, overtaken th' x (tr ++ [(th, l)]) = overtaken th' x tr := by
    intro th' x
    rw [overtaken_snoc, hserved, hcommits]
    simp
  refine ⟨hconn, hinv.honest_snoc hhonest, fun r hr hc => ?_, fun th' e he => ?_,
    fun th' e he ho => ?_, hinv.forward_snoc hforward hstate⟩
  · rw [hrows] at hr
    exact mem_base_snoc (hinv.rows r hr hc) _
  · rw [hpages] at he ⊢
    obtain ⟨hmem, hsingle⟩ := hinv.pages th' e he
    exact ⟨mem_served_snoc hmem _, hsingle⟩
  · rw [hpages] at he
    rw [hover] at ho
    rw [hrows]
    exact hinv.fresh th' e he ho

/-- A command that is served a page of a source that does not go back. -/
theorem AttemptInv.serve (hinv : AttemptInv k i connectorID base w tr) (hstate : l.state = w)
    {page : List Entry} (hserved : servedPage l = some page)
    (honward : onward base tr page = true)
    (hpage : (attempt k i connectorID th (tr ++ [(th, l)])).page = page)
    (hhonest : (attempt k i connectorID th (tr ++ [(th, l)])).honest)
    (hcommits : ∀ x, commitsItem x l = false) (hdb : w'.db = w.db) :
    AttemptInv k i connectorID base w' (tr ++ [(th, l)]) := by
  have hall : ∀ e ∈ page, ∀ v ∈ base ++ served tr ++ page.map Entry.version,
      v.1 = e.externalID → versionLE v.2 (nullTime e.updatedAt) = true := by
    intro e he v hv hid
    simp only [onward, List.all_eq_true, Bool.or_eq_true, Bool.not_eq_true',
      decide_eq_false_iff_not] at honward
    exact (honward e he v hv).resolve_left fun hne => hne hid
  have hnew : ∀ e ∈ page, e.version ∈ served (tr ++ [(th, l)]) := by
    intro e he
    rw [served, List.flatMap_append]
    refine List.mem_append_right _ ?_
    simp only [List.flatMap_cons, List.flatMap_nil, List.append_nil, hserved, Option.getD_some]
    exact List.mem_map.mpr ⟨e, he, rfl⟩
  refine ⟨?_, hinv.honest_snoc hhonest, fun r hr hc => ?_, fun th' e he => ?_,
    fun th' e he ho r hr hc hid => ?_, hinv.forward_snoc (Forward.of_db_eq hdb) hstate⟩
  · rw [hdb]
    exact hinv.connection
  · rw [hdb] at hr
    exact mem_base_snoc (hinv.rows r hr hc) _
  · by_cases heq : th = th'
    · rw [← heq, hpage] at he ⊢
      refine ⟨hnew e he, fun e' he' hid => hall e he e'.version ?_ hid⟩
      exact List.mem_append_right _ (List.mem_map.mpr ⟨e', he', rfl⟩)
    · rw [attempt_snoc_of_ne heq] at he ⊢
      obtain ⟨hmem, hsingle⟩ := hinv.pages th' e he
      exact ⟨mem_served_snoc hmem _, hsingle⟩
  · rw [hdb] at hr
    by_cases heq : th = th'
    · -- what is recorded was served before
      rw [← heq, hpage] at he
      refine hall e he (r.externalID, r.sourceUpdatedAt) ?_ hid
      exact List.mem_append_left _ (hinv.rows r hr hc)
    · rw [attempt_snoc_of_ne heq] at he
      rw [overtaken_snoc, hcommits] at ho
      simp only [heq, decide_false, Bool.false_and, Bool.false_eq_true, if_false, Bool.and_false,
        Bool.or_false] at ho
      exact hinv.fresh th' e he ho r hr hc hid

/-- A row of the connection after a commit is the one committed, or another one. -/
theorem row_of_commit {p : UpsertRawArtifactParams} {unitID : String} {cursor : Option String}
    {now : Time} (hp : p.connectionID = i.connectionID) {r : RawArtifact}
    (hr : r ∈ (commitArtifact now p unitID cursor w.db).artifacts.rows)
    (hc : r.connectionID = i.connectionID) :
    (r.externalID = p.externalID ∧ r.sourceUpdatedAt = p.sourceUpdatedAt) ∨
      (r ∈ w.db.artifacts.rows ∧ r.externalID ≠ p.externalID) := by
  rw [commitArtifact_artifacts] at hr
  rcases Table.mem_upsert hr with ⟨r₀, -, hkey, rfl⟩ | ⟨hold, hkey⟩ | ⟨-, rfl⟩
  · exact Or.inl ⟨congrArg Prod.snd hkey, rfl⟩
  · refine Or.inr ⟨hold, fun hid => hkey ?_⟩
    exact Prod.ext (hc.trans hp.symm) hid
  · exact Or.inl ⟨rfl, rfl⟩

/-- After a commit every row is there, and that of the item at the version committed. -/
theorem exists_of_commit {p : UpsertRawArtifactParams} {unitID : String} {cursor : Option String}
    {now : Time} {r : RawArtifact} (hr : r ∈ w.db.artifacts.rows) :
    ∃ r' ∈ (commitArtifact now p unitID cursor w.db).artifacts.rows, r'.key = r.key ∧
      (r' = r ∨ r.key = (p.connectionID, p.externalID) ∧
        r'.sourceUpdatedAt = p.sourceUpdatedAt) := by
  by_cases hkey : r.key = (p.connectionID, p.externalID)
  · rcases exists_commitArtifact now p unitID cursor w.db with ⟨r₀, -, hkey₀, hmem⟩ | hmem
    · exact ⟨_, hmem, hkey₀.trans hkey.symm, Or.inr ⟨hkey, rfl⟩⟩
    · exact ⟨_, hmem, hkey.symm, Or.inr ⟨hkey, rfl⟩⟩
  · rw [commitArtifact_artifacts]
    exact ⟨r, Table.mem_upsert_of_ne hr hkey, rfl, Or.inl rfl⟩

/-- A statement that writes the cursor forward only. -/
theorem cursor_forward {s : Statement} {now : Time}
    (hs : ∀ id x name kind g, s ≠ .upsertSyncUnit id x name kind g)
    (hwrites : ∀ c, s.WritesCursor c → ∀ u ∈ w.db.units.rows,
      u.is i.connectionID i.unitID = true → u.cursor ≤ c)
    (hdb : w'.db = (s.exec now w.db).2) : ∀ u' ∈ w'.db.units.rows,
      u'.is i.connectionID i.unitID = true →
        ∃ u ∈ w.db.units.rows, u.key = u'.key ∧ u.cursor ≤ u'.cursor := by
  intro u' hu' his
  rw [hdb] at hu'
  obtain ⟨u, hu, hkey, -, hcursor⟩ := unit_step hs hu'
  refine ⟨u, hu, hkey.symm, ?_⟩
  rcases hcursor with hsame | ⟨hwrite, -⟩
  · exact hsame ▸ String.le_refl _
  · exact hwrites _ hwrite u hu (is_congr hkey ▸ his)

/-- A commit of an item that is due, by an attempt that is not overtaken on it. -/
theorem AttemptInv.commit (hinv : AttemptInv k i connectorID base w tr) (hstate : l.state = w)
    {p : UpsertRawArtifactParams} {unitID : String} {cursor : Option String} {now : Time}
    (hcmd : l.cmd = .statement (.commitArtifact p unitID cursor)) (htook : tookEffect l = true)
    (hp : p.connectionID = i.connectionID) {e : Entry}
    (he : e ∈ (attempt k i connectorID th tr).page) (hid : p.externalID = e.externalID)
    (hversion : p.sourceUpdatedAt = nullTime e.updatedAt)
    (hover : overtaken th p.externalID tr = false)
    (hhonest : (attempt k i connectorID th (tr ++ [(th, l)])).honest)
    (hpage : (attempt k i connectorID th (tr ++ [(th, l)])).page =
      (attempt k i connectorID th tr).page)
    (hdb : w'.db = commitArtifact now p unitID cursor w.db)
    (hcursor : ∀ u' ∈ w'.db.units.rows, u'.is i.connectionID i.unitID = true →
      ∃ u ∈ w.db.units.rows, u.key = u'.key ∧ u.cursor ≤ u'.cursor) :
    AttemptInv k i connectorID base w' (tr ++ [(th, l)]) := by
  have hserved : servedPage l = none := by
    unfold servedPage
    rw [hcmd]
  have hcommits : ∀ x, commitsItem x l = decide (p.externalID = x) := by
    intro x
    unfold commitsItem
    rw [hcmd]
    dsimp only
    rw [htook, Bool.true_and]
  have hpages := page_snoc hpage
  have hforward : Forward i w w' := by
    refine ⟨hcursor, fun r hr hc => ?_⟩
    have hrow : ∃ r' ∈ (commitArtifact now p unitID cursor w.db).artifacts.rows, r'.key = r.key ∧
        (r' = r ∨ r.key = (p.connectionID, p.externalID) ∧
          r'.sourceUpdatedAt = p.sourceUpdatedAt) := exists_of_commit hr
    obtain ⟨r', hr', hkey, hcase⟩ := hrow
    rw [hdb]
    refine ⟨r', hr', hkey, ?_⟩
    rcases hcase with rfl | ⟨hrow, hsrc⟩
    · exact versionLE_refl _
    · rw [hsrc, hversion]
      have hext : r.externalID = p.externalID := congrArg Prod.snd hrow
      exact hinv.fresh th e he (hid ▸ hover) r hr hc (hext.trans hid)
  refine ⟨?_, hinv.honest_snoc hhonest, fun r hr hc => ?_, fun th' e' he' => ?_,
    fun th' e' he' ho r hr hc hext => ?_, hinv.forward_snoc hforward hstate⟩
  · obtain ⟨tenantID, externalID, hconn⟩ := hinv.connection
    rw [hdb]
    exact ⟨tenantID, externalID, hasConnection_exec now (.commitArtifact p unitID cursor) hconn⟩
  · rw [hdb] at hr
    -- the row that is written shows a version that was served, the others are as they were
    rcases row_of_commit hp hr hc with ⟨hext, hsrc⟩ | ⟨hold, -⟩
    · rw [hext, hsrc, hid, hversion]
      exact List.mem_append_right _ (mem_served_snoc (hinv.pages th e he).1 _)
    · exact mem_base_snoc (hinv.rows r hold hc) _
  · rw [hpages] at he' ⊢
    obtain ⟨hmem, hsingle⟩ := hinv.pages th' e' he'
    exact ⟨mem_served_snoc hmem _, hsingle⟩
  · rw [hpages] at he'
    rw [overtaken_snoc, hserved, hcommits] at ho
    simp only [Option.isSome_none, Bool.and_false, Bool.false_eq_true, if_false,
      Bool.or_eq_false_iff] at ho
    rw [hdb] at hr
    rcases row_of_commit hp hr hc with ⟨hrow, hsrc⟩ | ⟨hold, -⟩
    · by_cases heq : th = th'
      · -- the page shows the item at one version
        rw [← heq] at he'
        rw [hsrc, hversion]
        exact (hinv.pages th e' he').2 e he (hid.symm.trans (hrow.symm.trans hext))
      · -- another attempt that still shows the item is overtaken by this commit
        have hsame : p.externalID = e'.externalID := hrow.symm.trans hext
        simp [heq, hsame] at ho
    · exact hinv.fresh th' e' he' ho.1 r hold hc hext

/-! ### One command -/

/-- Only a commit touches the manifest. -/
theorem artifacts_of_draining {g : Draining} {s : Statement} {now : Time} {db : Database}
    (hs : (draining k i connectorID).allowed g (.statement s))
    (hcommit : ∀ p unitID cursor, s ≠ .commitArtifact p unitID cursor) :
    (s.exec now db).2.artifacts = db.artifacts := by
  refine artifacts_exec now db ?_
  cases s with
  | commitArtifact p unitID cursor => exact absurd rfl (hcommit p unitID cursor)
  | _ => first | rfl | cases hs

/-- What is written as the cursor is beyond the mark of the attempt. -/
theorem mark_lt_of_writesCursor {g : Draining} (hg : g.honest) {s : Statement}
    (hs : (draining k i connectorID).allowed g (.statement s)) {c : String}
    (hwrites : s.WritesCursor c) : g.mark < c := by
  rcases hwrites with ⟨id, unitID, rfl⟩ | ⟨p, unitID, rfl⟩
  · obtain ⟨e, -, -, -, hlt⟩ := hs.2 hg
    exact hlt
  · obtain ⟨e, -, -, -, hcursor⟩ := hs.2 hg
    exact (hcursor c rfl).2

variable {x : Choice} {b : Bool}

/-- A cursor write that takes effect is up to date. -/
theorem atMark_of_upToDate {s : Statement} {c : String}
    (hup : upToDate k i connectorID th tr x b w (.statement s) = true)
    (hx : x.takesEffect b = true) (hwrites : s.WritesCursor c) :
    atMark k i connectorID th tr w = true := by
  rcases hwrites with ⟨id, unitID, rfl⟩ | ⟨p, unitID, rfl⟩
  · simpa [upToDate, hx] using hup
  · simp only [upToDate, hx, Bool.not_true, Bool.false_or, Option.isNone_some,
      Bool.and_eq_true] at hup
    exact hup.1

/-- A statement of an attempt. -/
theorem AttemptInv.statement (hinv : AttemptInv k i connectorID base w tr) {s : Statement}
    (hs : (draining k i connectorID).allowed (attempt k i connectorID th tr) (.statement s))
    (hup : upToDate k i connectorID th tr x b w (.statement s) = true) :
    AttemptInv k i connectorID base (service.perform x b w (.statement s)).1
      (tr ++ [(th, ⟨w, .statement s, b, x⟩)]) := by
  have hhonest : (attempt k i connectorID th (tr ++ [(th, ⟨w, .statement s, b, x⟩)])).honest := by
    rw [attempt_snoc_self]
    exact honest_next_statement (hinv.honest th) hinv.connection
  have hpage : (attempt k i connectorID th (tr ++ [(th, ⟨w, .statement s, b, x⟩)])).page =
      (attempt k i connectorID th tr).page := by
    rw [attempt_snoc_self]
    exact page_next_statement _
  have hconn : ∃ tenantID externalID, (service.perform x b w (.statement s)).1.db.HasConnection
      i.connectionID (tenantID, connectorID, externalID) := by
    obtain ⟨tenantID, externalID, hhas⟩ := hinv.connection
    exact ⟨tenantID, externalID, hasConnection_perform hhas x b _⟩
  by_cases hx : x.takesEffect b = true
  · have hdb : (service.perform x b w (.statement s)).1.db =
        (s.exec (w.now + x.elapsed) w.db).2 := by
      rw [service_state, if_pos hx]
      rfl
    -- a cursor is written by an attempt past its mark, and the mark is not behind the row
    have hcursor : ∀ u' ∈ (service.perform x b w (.statement s)).1.db.units.rows,
        u'.is i.connectionID i.unitID = true →
          ∃ u ∈ w.db.units.rows, u.key = u'.key ∧ u.cursor ≤ u'.cursor := by
      refine cursor_forward (ne_upsert_of_draining hs) (fun c hwrites u hu his => ?_) hdb
      have hmark := atMark_of_upToDate hup hx hwrites
      simp only [atMark, List.all_eq_true, Bool.or_eq_true, Bool.not_eq_true',
        decide_eq_true_eq] at hmark
      have hle : u.cursor ≤ (attempt k i connectorID th tr).mark := by
        rcases hmark u hu with hnot | hle
        · rw [his] at hnot
          cases hnot
        · exact hle
      have hlt := mark_lt_of_writesCursor (hinv.honest th) hs hwrites
      exact fun hback => hle (String.lt_trans hlt hback)
    -- the commit is the only statement of an attempt that writes an artifact
    by_cases hcommit : ∃ p unitID cursor, s = .commitArtifact p unitID cursor
    · obtain ⟨p, unitID, cursor, rfl⟩ := hcommit
      obtain ⟨e, ⟨before, after, heq, -⟩, hid, hversion, -⟩ := hs.2 (hinv.honest th)
      have he : e ∈ (attempt k i connectorID th tr).page := by
        rw [heq]
        simp
      have hover : overtaken th p.externalID tr = false := by
        simp only [upToDate, hx, Bool.not_true, Bool.false_or, Bool.and_eq_true,
          Bool.not_eq_true'] at hup
        exact hup.2
      exact hinv.commit rfl rfl hx hs.1.1 he hid hversion hover hhonest hpage hdb hcursor
    · have hno : ∀ p unitID cursor, s ≠ .commitArtifact p unitID cursor :=
        fun p unitID cursor heq => hcommit ⟨p, unitID, cursor, heq⟩
      have hrows : (service.perform x b w (.statement s)).1.db.artifacts = w.db.artifacts := by
        rw [hdb]
        exact artifacts_of_draining hs hno
      refine hinv.quiet rfl hconn hhonest hpage rfl (fun y => ?_) hrows ⟨hcursor, ?_⟩
      · cases s with
        | commitArtifact p unitID cursor => exact absurd rfl (hno p unitID cursor)
        | _ => rfl
      · rw [hrows]
        exact (Forward.refl i w).versions
  · have hdb : (service.perform x b w (.statement s)).1.db = w.db := by
      rw [service_state, if_neg hx]
      rfl
    refine hinv.quiet rfl hconn hhonest hpage rfl (fun y => ?_) (by rw [hdb]) (Forward.of_db_eq hdb)
    have hnone : tookEffect ⟨w, .statement s, b, x⟩ = false := Bool.eq_false_iff.mpr hx
    cases s with
    | commitArtifact p unitID cursor =>
      show (tookEffect _ && _) = false
      rw [hnone, Bool.false_and]
    | _ => rfl

/-- **One command of an attempt** keeps the invariant. -/
theorem AttemptInv.step (hinv : AttemptInv k i connectorID base w tr) {c : Cmd}
    (hc : (draining k i connectorID).allowed (attempt k i connectorID th tr) c)
    (hup : upToDate k i connectorID th tr x b w c = true)
    (honward : ∀ page, servedPage ⟨w, c, b, x⟩ = some page → onward base tr page = true) :
    AttemptInv k i connectorID base (service.perform x b w c).1 (tr ++ [(th, ⟨w, c, b, x⟩)]) := by
  have hstill : ∀ c : Cmd, (service.perform x b w c).1.db = w.db →
      (attempt k i connectorID th (tr ++ [(th, ⟨w, c, b, x⟩)])) = attempt k i connectorID th tr →
      servedPage ⟨w, c, b, x⟩ = none → (∀ y, commitsItem y ⟨w, c, b, x⟩ = false) →
      AttemptInv k i connectorID base (service.perform x b w c).1 (tr ++ [(th, ⟨w, c, b, x⟩)]) := by
    intro c hdb hattempt hserved hcommits
    refine hinv.quiet rfl (by rw [hdb]; exact hinv.connection) ?_ ?_ hserved hcommits (by rw [hdb])
      (Forward.of_db_eq hdb)
    · rw [hattempt]
      exact hinv.honest th
    · rw [hattempt]
  cases c with
  | statement s => exact hinv.statement hc hup
  | deleteObject bucket key => cases hc
  | request q =>
    have hdb : (service.perform x b w (.request q)).1.db = w.db := service_db ..
    have hattempt : attempt k i connectorID th (tr ++ [(th, ⟨w, .request q, b, x⟩)]) =
        (attempt k i connectorID th tr).next i connectorID (.request q)
          (if b = true then .error .canceled else x.answer q) := by
      rw [attempt_snoc_self]
      rfl
    -- a page is served if the request is for one and is answered
    by_cases hpage : b = false ∧ q.isListing = true ∧ ∃ r, x.answer q = .ok r
    · obtain ⟨rfl, hlisting, r, hr⟩ := hpage
      have hserved : servedPage ⟨w, .request q, false, x⟩ = some (q.entries r) := by
        simp [servedPage, hlisting, hr]
      have hnext : attempt k i connectorID th (tr ++ [(th, ⟨w, .request q, false, x⟩)]) =
          (attempt k i connectorID th tr).serve q r := by
        rw [hattempt, hr]
        exact if_pos hlisting
      refine hinv.serve rfl hserved (honward _ hserved) ?_ ?_ (fun _ => rfl) hdb
      · rw [hnext]
        rfl
      · rw [hnext]
        exact hinv.honest th
    · refine hstill _ hdb ?_ ?_ fun _ => rfl
      · rw [hattempt]
        cases b with
        | true => rfl
        | false =>
          cases hr : x.answer q with
          | error e => rfl
          | ok r =>
            have hlisting : ¬ q.isListing = true := fun h => hpage ⟨rfl, h, r, hr⟩
            exact if_neg hlisting
      · unfold servedPage
        dsimp only
        split
        · rename_i hasked
          rw [Bool.and_eq_true, Bool.not_eq_true'] at hasked
          split
          · rename_i r hr
            exact absurd ⟨hasked.2, hasked.1, r, hr⟩ hpage
          · rfl
        · rfl
  | putObject bucket key contentType body =>
    refine hstill _ (service_db ..) ?_ rfl fun _ => rfl
    rw [attempt_snoc_self]
    dsimp only
    generalize (service.perform x b w (.putObject bucket key contentType body)).2 = reply
    cases reply <;> rfl
  | signalWorkflow id sig =>
    refine hstill _ (service_db ..) ?_ rfl fun _ => rfl
    rw [attempt_snoc_self]
    dsimp only
    generalize (service.perform x b w (.signalWorkflow id sig)).2 = reply
    cases reply <;> rfl
  | ctxErr => exact hstill _ (service_db ..) attempt_snoc_self rfl fun _ => rfl
  | clock => exact hstill _ (service_db ..) attempt_snoc_self rfl fun _ => rfl

end Invariant

/-! ### Every interleaving -/

/-- **Attempts that are up to date never take a unit back**: in every interleaving of any
number of executions of `SyncUnit` on it, against a source that does not go back, the cursor
and the versions in the manifest have not gone back since any earlier state. -/
theorem attempts_forward (a : Activities) (k : Stock) (i : SyncInput) {connectorID : String}
    {connector : Connector} (hreg : a.reg.get connectorID = some connector)
    (hstock : connector.syncUnit = k.syncUnit) {w : World} {es : List (PoolEvent Unit Choice)}
    {s : Pool World Cmd Cmd.Resp (Except ActivityError SyncResult)}
    {tr : List (ℕ × Performed World Choice Cmd)}
    (h : (service.threads fun _ : Unit => a.syncUnit i).RunWhere
      (fun s tr e => turnOnward (recorded i w) s tr e = true ∧
        turnUpToDate k i connectorID s tr e = true) ⟨w, []⟩ es s tr)
    (hw : ∃ tenantID externalID,
      w.db.HasConnection i.connectionID (tenantID, connectorID, externalID)) :
    ∀ m ∈ tr, Forward i m.2.state s.world := by
  have hinit : AttemptInv k i connectorID (recorded i w) w [] := by
    refine ⟨hw, fun th => trivial, fun r hr hc => ?_, fun th e he => ?_, fun th e he => ?_, ?_⟩
    · refine List.mem_append_left _ (List.mem_map.mpr ⟨r, List.mem_filter.mpr ⟨hr, ?_⟩, rfl⟩)
      exact decide_eq_true hc
    · cases he
    · cases he
    · simp
  have hinv := threads_invariant (P := draining k i connectorID)
    (J := AttemptInv k i connectorID (recorded i w)) h
    (fun _ => follows_draining a hreg hstock) hinit
    (fun s tr th t c next b hC hth hallowed hinv => by
      have hup := poolMeets_of_check hC.2 c next b hth
      have honward := poolMeets_of_check hC.1 c next b hth
      refine hinv.step hallowed hup fun page hpage => ?_
      dsimp only at honward
      rw [hpage] at honward
      exact honward)
  exact hinv.forward

/-! ### A document that is edited while it is synced -/

/-- Ann's document at a time, with some bytes. -/
def docAt (time : String) (body : Bytes) : (q : Request) → Except Err q.Reply
  | .driveFiles _ _ _ =>
      .ok { nextPageToken := "", files := [{ driveDoc with modifiedTime := time }] }
  | .driveExport _ => .ok body
  | _ => .error (.failed "unreachable")

-- the two versions of the document, in order
example : versionLE (parseRFC3339 "2024-01-01T00:00:00Z")
    (parseRFC3339 "2024-01-02T00:00:00Z") = true := by
  decide +kernel

/-- Turns of an attempt that sees the document before it is edited. -/
def beforeEdit (th n : ℕ) : List (PoolEvent Unit Choice) :=
  List.replicate n (.turn th ⟨false, quietly (docAt "2024-01-01T00:00:00Z" [])⟩)

/-- Turns of an attempt that sees it afterwards. -/
def afterEdit (th n : ℕ) : List (PoolEvent Unit Choice) :=
  List.replicate n (.turn th ⟨false, quietly (docAt "2024-01-02T00:00:00Z" [1])⟩)

theorem driveActivities_gdocs :
    driveActivities.reg.get "gdocs" = some newGoogleDocs.connector := by
  simp [driveActivities, Registry.get, GoogleDocs.connector]

theorem hasConnection_freshDrive :
    freshDrive.db.HasConnection 0 ("acme", "gdocs", "ann@acme") := by
  unfold Database.HasConnection
  decide +kernel

/-- The second attempt starts while the first one runs, and reads the unit when the first
one has returned. -/
def inTurn : List (PoolEvent Unit Choice) :=
  .start () :: beforeEdit 0 13 ++ .start () :: beforeEdit 1 1 ++ beforeEdit 0 9 ++ afterEdit 1 21

/-- The document has a row at the time of the edit. -/
def showsEdit (w : World) : Bool :=
  w.db.artifacts.rows.any fun r =>
    decide (r.sourceUpdatedAt = parseRFC3339 "2024-01-02T00:00:00Z")

/-- Attempts that are up to date take nothing back. -/
theorem in_turn_forward :
    ∃ s tr, (service.threads fun _ : Unit => driveActivities.syncUnit driveInput).Run
        ⟨freshDrive, []⟩ inTurn s tr ∧ showsEdit s.world = true ∧
      ∀ m ∈ tr, Forward driveInput m.2.state s.world := by
  obtain ⟨s, tr, hrun, hend⟩ := Lts.exists_runWhere_of_any
    (service.threads fun _ : Unit => driveActivities.syncUnit driveInput)
    (fun s tr e => turnOnward (recorded driveInput freshDrive) s tr e &&
      turnUpToDate (.gdocs newGoogleDocs) driveInput "gdocs" s tr e) ⟨freshDrive, []⟩ inTurn
    (fun s _ => showsEdit s.world) (by decide +kernel)
  refine ⟨s, tr, hrun.run, hend, ?_⟩
  exact attempts_forward driveActivities (.gdocs newGoogleDocs) driveInput driveActivities_gdocs rfl
    (hrun.mono fun _ _ _ hc => (Bool.and_eq_true _ _).mp hc)
    ⟨"acme", "ann@acme", hasConnection_freshDrive⟩

/-- The first attempt is slow: it commits what it was served before the edit when the
second attempt has returned. -/
def slowAttempt : List (PoolEvent Unit Choice) :=
  .start () :: beforeEdit 0 13 ++ .start () :: afterEdit 1 22 ++ afterEdit 0 1

/-- The cursor of the unit has gone back. -/
def cursorBack (w w' : World) : Bool :=
  w.db.units.rows.any fun u => w'.db.units.rows.any fun u' =>
    u.is 0 "drive" && u'.is 0 "drive" && decide (u'.cursor < u.cursor)

/-- A row has gone back to an older version. -/
def versionBack (w w' : World) : Bool :=
  w.db.artifacts.rows.any fun r => w'.db.artifacts.rows.any fun r' =>
    decide (r.key = r'.key) && !versionLE r.sourceUpdatedAt r'.sourceUpdatedAt

/-- **A slow attempt undoes a newer one**: the cursor goes back, and the row of the document
is overwritten with the version before the edit. -/
theorem stale_attempt_regresses :
    ∃ s tr, (service.threads fun _ : Unit => driveActivities.syncUnit driveInput).RunWhere
        (fun s tr e => turnOnward (recorded driveInput freshDrive) s tr e = true)
        ⟨freshDrive, []⟩ slowAttempt s tr ∧
      ∃ m ∈ tr,
        (∃ u ∈ m.2.state.db.units.rows, ∃ u' ∈ s.world.db.units.rows, u.is 0 "drive" = true ∧
          u'.is 0 "drive" = true ∧ u'.cursor < u.cursor) ∧
        ∃ r ∈ m.2.state.db.artifacts.rows, ∃ r' ∈ s.world.db.artifacts.rows, r.key = r'.key ∧
          versionLE r.sourceUpdatedAt r'.sourceUpdatedAt = false := by
  obtain ⟨s, tr, hrun, hend⟩ := Lts.exists_runWhere_of_any
    (service.threads fun _ : Unit => driveActivities.syncUnit driveInput)
    (turnOnward (recorded driveInput freshDrive)) ⟨freshDrive, []⟩ slowAttempt
    (fun s tr => tr.any fun m => cursorBack m.2.state s.world && versionBack m.2.state s.world)
    (by decide +kernel)
  obtain ⟨m, hm, hback⟩ := List.any_eq_true.mp hend
  simp only [cursorBack, versionBack, List.any_eq_true, Bool.and_eq_true, decide_eq_true_eq,
    Bool.not_eq_true'] at hback
  obtain ⟨⟨u, hu, u', hu', ⟨his, his'⟩, hlt⟩, r, hr, r', hr', hkey, hnot⟩ := hback
  exact ⟨s, tr, hrun, m, hm, ⟨u, hu, u', hu', his, his', hlt⟩, r, hr, r', hr', hkey, hnot⟩

end Hivebook
