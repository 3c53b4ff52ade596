import Hivebook.Service.Contents

/-!
# The outbox, pass by pass

A purge pass works by the ids of the rows it has listed: what an emit does to a row between
the listing and the confirmation, it does not see.

Any number of jobs of the service run side by side here.

## Main definitions

* `Purging.Holds` — what a pass under way relies on.
* `spareListed` — no emit moves a row of a pass under way to another object, and no
  object that such a pass has deleted is stored again.
* `DropsErased` — a row is dropped only when its object is gone.
* `Undeleted tr c bk` — the object was committed for the connection, and is not deleted
  since.
* `sparePointer` — no emit takes the last pointer of its connection from an object in
  storage.

## Main results

* `drops_erased` — **if the rows of every pass are spared, a row is dropped only when its
  object is gone.**
* `committed_found` — **if pointers are spared too, every object that was committed and
  not deleted since is found in the manifest.**
* `rewritten_row_dropped`, `changed_version_lost` — an emit between the listing and the
  confirmation, and one that replaces the object of its row.
-/

namespace Hivebook

open Database Machine Storage Connectors

/-! ### What a pass relies on -/

/-- The row under the id, if it is still there, has the object it had. -/
def StillAt (w : World) (r : RawArtifact) : Prop :=
  r.id < w.db.artifacts.next ∧
    ∀ r' ∈ w.db.artifacts.rows, r'.id = r.id → r'.objectKey = r.objectKey

/-- What a pass relies on: its rows have the objects they had, and those of the rows it
is going to drop are gone. -/
structure Purging.Holds (g : Purging) (w : World) : Prop where
  still : ∀ r, r ∈ g.todo ∨ r ∈ g.drops → StillAt w r
  erased : ∀ r ∈ g.drops, ∀ o, cut r.objectKey = some o → w.objects o = none

/-- A command spares a pass: it moves none of its rows to another object, and stores no
object of a row the pass is going to drop. -/
def sparesPass (g : Purging) (t : Choice) (b : Bool) (w : World) : Cmd → Bool
  | .statement (.commitArtifact p _ _) => !t.takesEffect b ||
      (g.todo ++ g.drops).all fun r => w.db.artifacts.rows.all fun r' =>
        !(decide (r'.id = r.id) && decide (r'.key = (p.connectionID, p.externalID))) ||
          decide (p.objectKey = r'.objectKey)
  | .putObject bucket key _ _ => !t.takesEffect b ||
      g.drops.all fun r => decide (cut r.objectKey ≠ some (bucket, key))
  | _ => true

section Step

variable {g : Purging} {t : Choice} {b : Bool} {w : World}

theorem Purging.holds_init (w : World) : Purging.init.Holds w where
  still := by simp [Purging.init]
  erased := by simp [Purging.init]

/-- A statement that spares a pass leaves its rows at their objects. -/
theorem StillAt.exec {r : RawArtifact} (h : StillAt w r) {s : Statement} {now : Time} {w' : World}
    (hdb : w'.db = (s.exec now w.db).2)
    (hs : ∀ p unitID cursor, s = .commitArtifact p unitID cursor → ∀ r' ∈ w.db.artifacts.rows,
      r'.id = r.id → r'.key = (p.connectionID, p.externalID) → p.objectKey = r'.objectKey) :
    StillAt w' r := by
  obtain ⟨hlt, hkey⟩ := h
  unfold StillAt
  rw [hdb]
  refine ⟨lt_of_lt_of_le hlt (next_le_exec now w.db s), fun r' hr' hid => ?_⟩
  cases manifestStep now w.db s hr' with
  | keep hr => exact hkey r' hr hid
  | hide r₀ hr heq =>
    rw [heq] at hid ⊢
    exact hkey r₀ hr hid
  | restore r₀ hr _ heq =>
    rw [heq] at hid ⊢
    exact hkey r₀ hr hid
  | mark r₀ deadline hr _ heq =>
    rw [heq] at hid ⊢
    exact hkey r₀ hr hid
  | rewrite r₀ p unitID cursor hr hcommit hrow heq =>
    rw [heq] at hid ⊢
    exact (hs p unitID cursor hcommit r₀ hr hid hrow).trans (hkey r₀ hr hid)
  | insert p unitID cursor _ _ heq =>
    rw [heq] at hid
    exact absurd hid (Nat.ne_of_gt hlt)

/-- **A command that spares a pass keeps what it relies on.** -/
theorem Purging.Holds.spared (h : g.Holds w) {c : Cmd} (hc : sparesPass g t b w c = true) :
    g.Holds (service.perform t b w c).1 := by
  rw [service_state]
  by_cases htakes : t.takesEffect b = true
  · rw [if_pos htakes]
    cases c with
    | statement s =>
      refine ⟨fun r hr => (h.still r hr).exec rfl ?_, h.erased⟩
      rintro p unitID cursor rfl r' hr' hid hrow
      simp only [sparesPass, htakes, Bool.not_true, Bool.false_or, List.all_eq_true,
        Bool.or_eq_true, Bool.not_eq_true', Bool.and_eq_false_iff, decide_eq_false_iff_not,
        decide_eq_true_eq] at hc
      rcases hc r (List.mem_append.mpr hr) r' hr' with (hne | hne) | heq
      · exact absurd hid hne
      · exact absurd hrow hne
      · exact heq
    | putObject bucket key contentType body =>
      refine ⟨h.still, fun r hr o ho => ?_⟩
      simp only [sparesPass, htakes, Bool.not_true, Bool.false_or, List.all_eq_true,
        decide_eq_true_eq] at hc
      have hne : o ≠ (bucket, key) := fun heq => hc r hr (heq ▸ ho)
      exact (Function.update_of_ne hne _ _).trans (h.erased r hr o ho)
    | deleteObject bucket key =>
      refine ⟨h.still, fun r hr o ho => ?_⟩
      show Function.update w.objects (bucket, key) none o = none
      by_cases heq : o = (bucket, key)
      · rw [heq, Function.update_self]
      · rw [Function.update_of_ne heq]
        exact h.erased r hr o ho
    | _ => exact ⟨h.still, h.erased⟩
  · rw [if_neg htakes]
    exact ⟨h.still, h.erased⟩

/-- A pass that knows less relies on less. -/
theorem Purging.Holds.mono {g' : Purging} (h : g.Holds w)
    (htodo : ∀ r ∈ g'.todo, r ∈ g.todo ∨ r ∈ g.drops) (hdrops : ∀ r ∈ g'.drops, r ∈ g.drops) :
    g'.Holds w where
  still := fun r hr => h.still r (hr.elim (htodo r) fun hr => Or.inr (hdrops r hr))
  erased := fun r hr => h.erased r (hdrops r hr)

/-- **What a pass relies on after a command of its own.** -/
theorem Purging.Holds.own (h : g.Holds w) {c : Cmd} (hallowed : outbox.allowed g c)
    (hc : sparesPass g t b w c = true) :
    (outbox.next g c (service.perform t b w c).2).Holds (service.perform t b w c).1 := by
  have hsame := h.spared hc
  cases c with
  | statement s =>
    cases s with
    | listPurgePendingArtifacts n =>
      show (g.next (.statement (.listPurgePendingArtifacts n))
        (t.reply b (.ok (listPurgePendingArtifacts n w.db)))).Holds _
      cases hr : t.reply b (.ok (listPurgePendingArtifacts n w.db)) with
      | error e => exact hsame
      | ok rows =>
        obtain ⟨-, hlisted⟩ := of_reply_eq_ok hr
        cases hlisted
        have hdb :
            (service.perform t b w (.statement (.listPurgePendingArtifacts n))).1.db = w.db := by
          rw [service_db]
          exact ite_self _
        -- the rows are as they were listed, and those with no object have nothing to erase
        refine ⟨fun r hr => ?_, fun r hr o ho => ?_⟩
        · have hmem : r ∈ w.db.artifacts.rows := by
            have hlist : r ∈ listPurgePendingArtifacts n w.db :=
              hr.elim (fun h => (List.mem_filter.mp h).1) fun h => (List.mem_filter.mp h).1
            exact (mem_listPurgePendingArtifacts hlist).1
          unfold StillAt
          rw [hdb]
          refine ⟨w.db.artifacts.id_lt r hmem, fun r' hr' hid => ?_⟩
          rw [w.db.artifacts.eq_of_id hr' hmem hid]
        · obtain ⟨-, hkey⟩ := List.mem_filter.mp hr
          rw [of_decide_eq_true hkey, cut_empty] at ho
          cases ho
    | confirmArtifactDeletes ids => exact Purging.holds_init _
    | _ => exact hsame
  | deleteObject bucket key =>
    obtain ⟨r, rest, htodo, hcut⟩ := hallowed
    show (g.next (.deleteObject bucket key) (t.reply b (.ok ()))).Holds _
    cases hr : t.reply b (.ok () : Except Err Unit) with
    | error e =>
      refine hsame.mono (fun r hr => Or.inl (List.mem_of_mem_tail hr)) fun r hr => hr
    | ok _ =>
      obtain ⟨htakes, -⟩ := of_reply_eq_ok hr
      -- the row goes from those to do to those that may be confirmed
      have htake : g.todo.take 1 = [r] := by rw [htodo]; rfl
      refine ⟨fun r' hr' => hsame.still r' ?_, fun r' hr' o ho => ?_⟩
      · rcases hr' with hr' | hr'
        · exact Or.inl (List.mem_of_mem_tail hr')
        · rcases List.mem_append.mp hr' with hr' | hr'
          · exact Or.inr hr'
          · exact Or.inl (List.mem_of_mem_take hr')
      · rcases List.mem_append.mp hr' with hr' | hr'
        · exact hsame.erased r' hr' o ho
        · rw [htake, List.mem_singleton] at hr'
          subst hr'
          rw [hcut] at ho
          cases ho
          rw [service_state, if_pos htakes]
          exact Function.update_self _ _ _
  | _ => exact hsame

end Step

/-! ### A row is dropped only when its object is gone -/

/-- The next turn spares every pass under way. -/
def spareListed (s : Pool World Cmd Cmd.Resp Unit) (tr : List (ℕ × Performed World Choice Cmd))
    (e : PoolEvent Job Choice) : Bool :=
  (List.range s.threads.length).all fun i =>
    !s.running i || poolCheck (sparesPass (passOf tr i)) s e

/-- A confirmation that takes effect drops only rows whose objects are gone. -/
def DropsErased (m : Performed World Choice Cmd) : Prop :=
  ∀ ids, m.cmd = .statement (.confirmArtifactDeletes ids) → tookEffect m = true →
    ∀ r ∈ m.state.db.artifacts.rows, r.id ∈ ids → r.purgePending = true →
      ∀ o, cut r.objectKey = some o → m.state.objects o = none

section Run

variable {s : Pool World Cmd Cmd.Resp Unit} {tr : List (ℕ × Performed World Choice Cmd)} {i : ℕ}
  {t : Turn Choice} {c : Cmd} {k : c.Resp → Program Unit} {b : Bool}

/-- What the condition says of one pass under way. -/
theorem sparesPass_of_spareListed {i' : ℕ} (h : spareListed s tr (.turn i t) = true)
    (hth : s.threads[i]? = some ⟨.call c k, b⟩) (hrun : s.running i' = true) :
    sparesPass (passOf tr i') t.choice (b || t.cancel) s.world c = true := by
  have hmem := List.mem_range.mpr (Pool.lt_of_running hrun)
  have hall := List.all_eq_true.mp h i' hmem
  rw [hrun, Bool.not_true, Bool.false_or] at hall
  exact poolMeets_of_check hall c k b hth

/-- One turn keeps what the passes rely on. -/
theorem passes_step (h : spareListed s tr (.turn i t) = true)
    (hth : s.threads[i]? = some ⟨.call c k, b⟩) (hallowed : outbox.allowed (passOf tr i) c)
    (hpasses : ∀ i', s.running i' = true → (passOf tr i').Holds s.world) :
    (outbox.next (passOf tr i) c
        (service.perform t.choice (b || t.cancel) s.world c).2).Holds
      (service.perform t.choice (b || t.cancel) s.world c).1 ∧
    ∀ i', i ≠ i' → s.running i' = true → (passOf tr i').Holds
      (service.perform t.choice (b || t.cancel) s.world c).1 := by
  have hrun := Pool.running_of_call hth
  refine ⟨(hpasses i hrun).own hallowed (sparesPass_of_spareListed h hth hrun), ?_⟩
  intro i' _ hrun'
  exact (hpasses i' hrun').spared (sparesPass_of_spareListed h hth hrun')

/-- The objects of the rows a pass may drop are gone. -/
theorem Purging.Holds.dropped {g : Purging} {w : World} (h : g.Holds w) {ids : List Uuid}
    (hallowed : outbox.allowed g (.statement (.confirmArtifactDeletes ids))) {r : RawArtifact}
    (hr : r ∈ w.db.artifacts.rows) (hid : r.id ∈ ids) {o : String × String}
    (ho : cut r.objectKey = some o) : w.objects o = none := by
  obtain ⟨r₀, hr₀, hid₀⟩ := hallowed r.id hid
  have hkey := (h.still r₀ (Or.inr hr₀)).2 r hr hid₀.symm
  rw [hkey] at ho
  exact h.erased r₀ hr₀ o ho

variable {w : World} {es : List (PoolEvent Job Choice)}

/-- **A row is dropped only when its object is gone**, in any interleaving of jobs in
which the rows of every pass under way are spared. -/
theorem drops_erased (a : Activities) (sv : Server)
    (h : (service.threads (Job.prog a sv)).RunWhere (fun s tr e => spareListed s tr e = true)
      ⟨w, []⟩ es s tr) : ∀ m ∈ tr, DropsErased m.2 := by
  refine (threads_interference (P := outbox) (J := fun _ tr => ∀ m ∈ tr, DropsErased m.2)
    (K := Purging.Holds) h (Job.follows_outbox a sv) (by simp) Purging.holds_init ?_).1
  intro s tr i t c k b hC hth hallowed hJ hpasses
  refine ⟨fun m hm => ?_, passes_step hC hth hallowed hpasses⟩
  rcases List.mem_append.mp hm with hm | hm
  · exact hJ m hm
  · rw [List.mem_singleton.mp hm]
    rintro ids rfl - r hr hid - o ho
    exact (hpasses i (Pool.running_of_call hth)).dropped hallowed hr hid ho

end Run

/-! ### A document that is edited while it is purged -/

/-- Turns of one thread in which nothing fails, over a source. -/
def jobTurns (i n : ℕ) (answer : (q : Request) → Except Err q.Reply) :
    List (PoolEvent Job Choice) :=
  List.replicate n (.turn i ⟨false, quietly answer⟩)

/-- Ann's document, edited. -/
def editedAnswers : (q : Request) → Except Err q.Reply
  | .driveFiles _ _ _ =>
      .ok { nextPageToken := "", files := [{ driveDoc with modifiedTime := "2" }] }
  | .driveExport _ => .ok [1]
  | _ => .error (.failed "unreachable")

/-- Whether a confirmation drops a row whose object is in storage. -/
def dropsStored (m : Performed World Choice Cmd) : Bool :=
  match m.cmd with
  | .statement (.confirmArtifactDeletes ids) =>
      tookEffect m && m.state.db.artifacts.rows.any fun r =>
      decide (r.id ∈ ids) && r.purgePending && (cut r.objectKey).any fun o =>
        (m.state.objects o).isSome
  | _ => false

theorem not_dropsErased {m : Performed World Choice Cmd} (h : dropsStored m = true) :
    ¬ DropsErased m := by
  intro hdrops
  unfold dropsStored at h
  split at h
  · rename_i ids hcmd
    simp only [Bool.and_eq_true, List.any_eq_true, decide_eq_true_eq] at h
    obtain ⟨htook, r, hr, ⟨hid, hpending⟩, hobject⟩ := h
    obtain ⟨o, ho, hsome⟩ := (Option.any_eq_true _ _).mp hobject
    rw [hdrops ids hcmd htook r hr hid hpending o ho] at hsome
    cases hsome
  · cases h

/-- A disconnected document is purged, and its object is gone when its row is dropped. -/
theorem purge_drops_erased :
    ∃ s tr, (service.threads (Job.prog driveActivities driveServer)).Run ⟨syncedWorld, []⟩
        disconnectAndPurge s tr ∧ s.world.db.artifacts.rows = [] ∧ ∀ m ∈ tr, DropsErased m.2 := by
  obtain ⟨s, tr, hrun, hend⟩ := Lts.exists_runWhere_of_any
    (service.threads (Job.prog driveActivities driveServer)) spareListed ⟨syncedWorld, []⟩
    disconnectAndPurge (fun s _ => s.world.db.artifacts.rows.isEmpty) (by decide +kernel)
  exact ⟨s, tr, hrun.run, by simpa using hend, drops_erased driveActivities driveServer hrun⟩

/-- Ann has disconnected and connected again.  A purge pass lists her document and deletes
its object; a drain stores and commits the edited document; the pass drops the row. -/
def purgeAndEdit : List (PoolEvent Job Choice) :=
  disconnectAndReconnect ++ .start (.upkeep (.purgeArtifacts 0)) :: jobTurns 2 2 annAnswers ++
    .start (.syncUnit driveInput) :: jobTurns 3 14 editedAnswers ++ jobTurns 2 1 annAnswers

/-- **A row that was rewritten after its listing is dropped with its new object in
storage.** -/
theorem rewritten_row_dropped :
    ∃ s tr, (service.threads (Job.prog driveActivities driveServer)).Run ⟨syncedWorld, []⟩
        purgeAndEdit s tr ∧ ¬ ∀ m ∈ tr, DropsErased m.2 := by
  obtain ⟨s, tr, hrun, hend⟩ := Lts.exists_run_of_any
    (service.threads (Job.prog driveActivities driveServer)) ⟨syncedWorld, []⟩ purgeAndEdit
    (fun _ tr => tr.any fun m => dropsStored m.2) (by decide +kernel)
  obtain ⟨m, hm, hdrops⟩ := List.any_eq_true.mp hend
  exact ⟨s, tr, hrun, fun hall => not_dropsErased hdrops (hall m hm)⟩

/-! ### Every committed object is found in the manifest -/

/-- A command that commits an object, which is in storage, for a connection. -/
def Commits (m : Performed World Choice Cmd) (c : Uuid) (o : String × String) : Prop :=
  ∃ p unitID cursor, m.cmd = .statement (.commitArtifact p unitID cursor) ∧ tookEffect m = true ∧
    p.connectionID = c ∧ cut p.objectKey = some o ∧ m.state.objects o ≠ none

/-- A command that deletes an object. -/
def Deletes (m : Performed World Choice Cmd) (o : String × String) : Prop :=
  m.cmd = .deleteObject o.1 o.2 ∧ tookEffect m = true

/-- The object was committed for the connection, and is not deleted since. -/
def Undeleted (tr : List (ℕ × Performed World Choice Cmd)) (c : Uuid) (o : String × String) :
    Prop :=
  ∃ before m after, tr = before ++ m :: after ∧ Commits m.2 c o ∧ ∀ m' ∈ after, ¬ Deletes m'.2 o

/-- The manifest has a pointer of the connection to the object. -/
def Points (w : World) (c : Uuid) (o : String × String) : Prop :=
  ∃ r ∈ w.db.artifacts.rows, r.connectionID = c ∧ cut r.objectKey = some o

/-- An emit that moves a row to another object leaves its connection another pointer to the
old one, or the old one is not in storage. -/
def sparesPointer (t : Choice) (b : Bool) (w : World) : Cmd → Bool
  | .statement (.commitArtifact p _ _) => !t.takesEffect b ||
      w.db.artifacts.rows.all fun r => !decide (r.key = (p.connectionID, p.externalID)) ||
        decide (cut p.objectKey = cut r.objectKey) || (cut r.objectKey).all fun o =>
          (w.objects o).isNone || w.db.artifacts.rows.any fun r' =>
            decide (r'.connectionID = r.connectionID) && decide (r'.key ≠ r.key) &&
              decide (cut r'.objectKey = some o)
  | _ => true

theorem undeleted_nil (c : Uuid) (o : String × String) : ¬ Undeleted [] c o := by
  rintro ⟨before, m, after, heq, -⟩
  exact absurd heq.symm (by simp)

/-- What is undeleted after a command was committed by it, or was undeleted before. -/
theorem Undeleted.of_snoc {tr : List (ℕ × Performed World Choice Cmd)}
    {m : ℕ × Performed World Choice Cmd} {c : Uuid} {o : String × String}
    (h : Undeleted (tr ++ [m]) c o) :
    Commits m.2 c o ∨ (Undeleted tr c o ∧ ¬ Deletes m.2 o) := by
  obtain ⟨before, m', after, heq, hcommit, hafter⟩ := h
  rcases List.eq_nil_or_concat after with rfl | ⟨after', m'', rfl⟩
  · obtain ⟨-, heq⟩ := List.append_inj' heq rfl
    cases heq
    exact Or.inl hcommit
  · rw [List.concat_eq_append, ← List.cons_append, ← List.append_assoc] at heq
    obtain ⟨htr, hlast⟩ := List.append_inj' heq rfl
    cases hlast
    refine Or.inr ⟨⟨before, m', after', htr, hcommit, fun m hm => hafter m ?_⟩, hafter m ?_⟩
    · simp [hm]
    · simp

section Found

variable {w w' : World} {c : Uuid} {o : String × String}

/-- Statements other than an emit and a confirmation keep every pointer. -/
theorem Points.exec (h : Points w c o) {s : Statement} {now : Time}
    (hdb : w'.db = (s.exec now w.db).2)
    (hcommit : ∀ p unitID cursor, s ≠ .commitArtifact p unitID cursor)
    (hconfirm : ∀ ids, s ≠ .confirmArtifactDeletes ids) : Points w' c o := by
  unfold Points at h ⊢
  rw [hdb]
  exact (exists_row_exec hcommit hconfirm fun r _ _ _ => Iff.rfl).mpr h

/-- After an emit its connection points to its object. -/
theorem points_of_commit {p : UpsertRawArtifactParams} {unitID : String} {cursor : Option String}
    {now : Time} (hdb : w'.db = commitArtifact now p unitID cursor w.db)
    (ho : cut p.objectKey = some o) : Points w' p.connectionID o := by
  unfold Points
  rw [hdb]
  rcases exists_commitArtifact now p unitID cursor w.db with ⟨r, -, hkey, hmem⟩ | hmem
  · exact ⟨_, hmem, congrArg Prod.fst hkey, ho⟩
  · exact ⟨_, hmem, rfl, ho⟩

/-- An emit that spares pointers keeps the pointers to what is in storage. -/
theorem Points.commit (h : Points w c o) (hstored : w.objects o ≠ none)
    {p : UpsertRawArtifactParams} {unitID : String} {cursor : Option String} {now : Time}
    {t : Choice} {b : Bool} (htakes : t.takesEffect b = true)
    (hs : sparesPointer t b w (.statement (.commitArtifact p unitID cursor)) = true)
    (hdb : w'.db = commitArtifact now p unitID cursor w.db) : Points w' c o := by
  have hother : ∀ r ∈ w.db.artifacts.rows, r.connectionID = c → cut r.objectKey = some o →
      r.key ≠ (p.connectionID, p.externalID) → Points w' c o := by
    intro r hr hc ho hne
    unfold Points
    rw [hdb, commitArtifact_artifacts]
    exact ⟨r, Table.mem_upsert_of_ne hr hne, hc, ho⟩
  obtain ⟨r, hr, hc, ho⟩ := h
  by_cases hkey : r.key = (p.connectionID, p.externalID)
  · -- the row itself is rewritten
    simp only [sparesPointer, htakes, Bool.not_true, Bool.false_or, List.all_eq_true,
      Bool.or_eq_true, Bool.not_eq_true', decide_eq_false_iff_not, decide_eq_true_eq] at hs
    rcases hs r hr with (hne | hsame) | hold
    · exact absurd hkey hne
    · rw [← hc, show r.connectionID = p.connectionID from congrArg Prod.fst hkey]
      exact points_of_commit hdb (hsame.trans ho)
    · rw [ho, Option.all_some, Bool.or_eq_true] at hold
      rcases hold with hnone | hany
      · exact absurd (Option.isNone_iff_eq_none.mp hnone) hstored
      · obtain ⟨r', hr', hp⟩ := List.any_eq_true.mp hany
        simp only [Bool.and_eq_true, decide_eq_true_eq] at hp
        exact hother r' hr' (hp.1.1.trans hc) hp.2 fun heq => hp.1.2 (heq.trans hkey.symm)
  · exact hother r hr hc ho hkey

/-- What the confirmation of a pass leaves of a pointer to what is in storage. -/
theorem Points.confirm (h : Points w c o) (hstored : w.objects o ≠ none) {g : Purging}
    (hg : g.Holds w) {ids : List Uuid}
    (hallowed : outbox.allowed g (.statement (.confirmArtifactDeletes ids)))
    (hdb : w'.db = (confirmArtifactDeletes ids w.db).2) : Points w' c o := by
  obtain ⟨r, hr, hc, ho⟩ := h
  unfold Points
  rw [hdb]
  refine ⟨r, Table.mem_delete.mpr ⟨hr, ?_⟩, hc, ho⟩
  have hid : r.id ∉ ids := fun hid => hstored (hg.dropped hallowed hr hid ho)
  simp [hid]

/-- **One command** keeps every object that is committed and not deleted in storage, and
found in the manifest. -/
theorem found_step {tr : List (ℕ × Performed World Choice Cmd)} {i : ℕ} {t : Choice} {b : Bool}
    {cmd : Cmd} {g : Purging} (h : ∀ c o, Undeleted tr c o → w.objects o ≠ none ∧ Points w c o)
    (hg : g.Holds w) (hallowed : outbox.allowed g cmd) (hs : sparesPointer t b w cmd = true) :
    ∀ c o, Undeleted (tr ++ [(i, ⟨w, cmd, b, t⟩)]) c o →
      (service.perform t b w cmd).1.objects o ≠ none ∧
        Points (service.perform t b w cmd).1 c o := by
  intro c o hund
  rw [service_state]
  -- the object is committed now, or it was before and is not deleted now
  rcases hund.of_snoc with ⟨p, unitID, cursor, hcmd, htook, rfl, ho, hstored⟩ | ⟨hund, hkept⟩
  · have htakes : t.takesEffect b = true := htook
    cases hcmd
    rw [if_pos htakes]
    exact ⟨hstored, points_of_commit rfl ho⟩
  · obtain ⟨hstored, hpoints⟩ := h c o hund
    by_cases htakes : t.takesEffect b = true
    · rw [if_pos htakes]
      cases cmd with
      | statement s =>
        refine ⟨hstored, ?_⟩
        by_cases hcommit : ∃ p unitID cursor, s = .commitArtifact p unitID cursor
        · obtain ⟨p, unitID, cursor, rfl⟩ := hcommit
          exact hpoints.commit hstored htakes hs rfl
        · by_cases hconfirm : ∃ ids, s = .confirmArtifactDeletes ids
          · obtain ⟨ids, rfl⟩ := hconfirm
            exact hpoints.confirm hstored hg hallowed rfl
          · refine hpoints.exec rfl (fun p unitID cursor heq => ?_) fun ids heq => ?_
            · exact hcommit ⟨p, unitID, cursor, heq⟩
            · exact hconfirm ⟨ids, heq⟩
      | putObject bucket key contentType body =>
        refine ⟨?_, hpoints⟩
        show Function.update w.objects (bucket, key) _ o ≠ none
        by_cases heq : o = (bucket, key)
        · rw [heq, Function.update_self]
          exact Option.some_ne_none _
        · rw [Function.update_of_ne heq]
          exact hstored
      | deleteObject bucket key =>
        have hne : o ≠ (bucket, key) := by
          rintro rfl
          exact hkept ⟨rfl, htakes⟩
        exact ⟨fun hnone => hstored ((Function.update_of_ne hne _ _).symm.trans hnone), hpoints⟩
      | _ => exact ⟨hstored, hpoints⟩
    · rw [if_neg htakes]
      exact ⟨hstored, hpoints⟩

end Found

/-- **Every object that was committed and not deleted since is found in the manifest**,
under its connection, in any interleaving of jobs in which the rows of the passes under way
and the pointers to objects in storage are spared.  So once a connection has no rows left,
every object it has committed is deleted. -/
theorem committed_found (a : Activities) (sv : Server) {w : World}
    {es : List (PoolEvent Job Choice)} {s : Pool World Cmd Cmd.Resp Unit}
    {tr : List (ℕ × Performed World Choice Cmd)}
    (h : (service.threads (Job.prog a sv)).RunWhere
      (fun s tr e => spareListed s tr e = true ∧ poolCheck sparesPointer s e = true)
      ⟨w, []⟩ es s tr) :
    (∀ c o, Undeleted tr c o → ∃ r ∈ s.world.db.artifacts.rows,
      r.connectionID = c ∧ cut r.objectKey = some o) ∧
    ∀ c, (∀ r ∈ s.world.db.artifacts.rows, r.connectionID ≠ c) → ∀ o, ¬ Undeleted tr c o := by
  have hfound : ∀ c o, Undeleted tr c o → s.world.objects o ≠ none ∧ Points s.world c o := by
    refine (threads_interference (P := outbox) (J := fun w tr => ∀ c o, Undeleted tr c o →
      w.objects o ≠ none ∧ Points w c o) (K := Purging.Holds) h (Job.follows_outbox a sv)
      (fun c o hund => absurd hund (undeleted_nil c o)) Purging.holds_init ?_).1
    intro s tr i t c k b hC hth hallowed hJ hpasses
    have hg := hpasses i (Pool.running_of_call hth)
    have hs := poolMeets_of_check hC.2 c k b hth
    exact ⟨found_step hJ hg hallowed hs, passes_step hC.1 hth hallowed hpasses⟩
  refine ⟨fun c o hund => (hfound c o hund).2, fun c hnone o hund => ?_⟩
  obtain ⟨r, hr, hc, -⟩ := (hfound c o hund).2
  exact hnone r hr hc

/-! ### A document that is edited -/

/-- Whether a command commits the object for the connection. -/
def commitsCheck (c : Uuid) (o : String × String) (m : Performed World Choice Cmd) : Bool :=
  match m.cmd with
  | .statement (.commitArtifact p _ _) => tookEffect m && decide (p.connectionID = c) &&
      decide (cut p.objectKey = some o) && (m.state.objects o).isSome
  | _ => false

/-- Whether the object is committed for the connection and not deleted since. -/
def undeletedCheck (c : Uuid) (o : String × String)
    (tr : List (ℕ × Performed World Choice Cmd)) : Bool :=
  tr.foldl (fun u m => commitsCheck c o m.2 ||
    (u && !(decide (m.2.cmd = .deleteObject o.1 o.2) && tookEffect m.2))) false

theorem undeleted_of_check {c : Uuid} {o : String × String}
    {tr : List (ℕ × Performed World Choice Cmd)} (h : undeletedCheck c o tr = true) :
    Undeleted tr c o := by
  induction tr using List.reverseRecOn with
  | nil => cases h
  | append_singleton tr m ih =>
    unfold undeletedCheck at h
    rw [List.foldl_append, List.foldl_cons, List.foldl_nil, Bool.or_eq_true, Bool.and_eq_true] at h
    rcases h with h | ⟨h, hkept⟩
    · refine ⟨tr, m, [], rfl, ?_, by simp⟩
      unfold commitsCheck at h
      split at h
      · rename_i p unitID cursor hcmd
        simp only [Bool.and_eq_true, decide_eq_true_eq] at h
        exact ⟨p, unitID, cursor, hcmd, h.1.1.1, h.1.1.2, h.1.2, Option.isSome_iff_ne_none.mp h.2⟩
      · cases h
    · obtain ⟨before, m', after, rfl, hcommit, hafter⟩ := ih h
      refine ⟨before, m', after ++ [m], by simp, hcommit, fun m₁ hm₁ => ?_⟩
      rcases List.mem_append.mp hm₁ with hm₁ | hm₁
      · exact hafter m₁ hm₁
      · rw [List.mem_singleton.mp hm₁]
        rintro ⟨hcmd, htook⟩
        simp [hcmd, htook] at hkept

-- nothing is owed for an object that was never committed
example : undeletedCheck 0 ("hivebook-local-gdocs-eu", "acme/gdocs/doc") [] = false := by
  decide +kernel

/-- The object of the document before it is edited. -/
def firstVersion : String × String := ("hivebook-local-gdocs-eu", "acme/gdocs/" ++ spelledHash [])

/-- Ann's document is synced, and so is Bob's, which says something else; Ann disconnects, and
a purge pass runs. -/
def syncAndPurge : List (PoolEvent Job Choice) :=
  .start (.syncUnit driveInput) :: jobTurns 0 22 docAnswers ++
    .start (.syncUnit { driveInput with connectionID := 1 }) :: jobTurns 1 22 editedAnswers ++
    .start (.disconnect (some "acme") 0) :: jobTurns 2 6 annAnswers ++
    .start (.upkeep (.purgeArtifacts 0)) :: jobTurns 3 3 annAnswers

/-- The object of Bob's document. -/
def bobsObject : String × String := ("hivebook-local-gdocs-eu", "acme/gdocs/" ++ spelledHash [1])

/-- Bob's document is found in the manifest, and Ann's connection, which has no row left, has no
object that it has committed left either. -/
theorem synced_found :
    ∃ s tr, (service.threads (Job.prog driveActivities driveServer)).Run ⟨twoDrives, []⟩
        syncAndPurge s tr ∧
      Undeleted tr 1 bobsObject ∧ (∀ r ∈ s.world.db.artifacts.rows, r.connectionID ≠ 0) ∧
      ((∀ c o, Undeleted tr c o → ∃ r ∈ s.world.db.artifacts.rows,
        r.connectionID = c ∧ cut r.objectKey = some o) ∧
      ∀ c, (∀ r ∈ s.world.db.artifacts.rows, r.connectionID ≠ c) → ∀ o, ¬ Undeleted tr c o) := by
  obtain ⟨s, tr, hrun, hend⟩ := Lts.exists_runWhere_of_any
    (service.threads (Job.prog driveActivities driveServer))
    (fun s tr e => spareListed s tr e && poolCheck sparesPointer s e) ⟨twoDrives, []⟩
    syncAndPurge
    (fun s tr => undeletedCheck 1 bobsObject tr &&
      s.world.db.artifacts.rows.all fun r => decide (r.connectionID ≠ 0)) (by decide +kernel)
  obtain ⟨hund, hgone⟩ := (Bool.and_eq_true _ _).mp hend
  refine ⟨s, tr, hrun.run, undeleted_of_check hund, ?_, ?_⟩
  · simpa using hgone
  exact committed_found driveActivities driveServer
    (hrun.mono fun _ _ _ hc => (Bool.and_eq_true _ _).mp hc)

/-- Ann's document is synced, edited and synced again; then she disconnects, and a purge
pass runs. -/
def editAndDisconnect : List (PoolEvent Job Choice) :=
  .start (.syncUnit driveInput) :: jobTurns 0 22 docAnswers ++
    .start (.syncUnit driveInput) :: jobTurns 1 22 editedAnswers ++
    .start (.disconnect (some "acme") 0) :: jobTurns 2 6 annAnswers ++
    .start (.upkeep (.purgeArtifacts 0)) :: jobTurns 3 3 annAnswers

/-- **The first version of an edited document is lost**: it is still in storage when no row
is left. -/
theorem changed_version_lost :
    ∃ s tr, (service.threads (Job.prog driveActivities driveServer)).Run ⟨freshDrive, []⟩
        editAndDisconnect s tr ∧ s.returned ∧ s.world.db.artifacts.rows = [] ∧
      Undeleted tr 0 firstVersion ∧ s.world.objects firstVersion ≠ none := by
  obtain ⟨s, tr, hrun, hend⟩ := Lts.exists_run_of_any
    (service.threads (Job.prog driveActivities driveServer)) ⟨freshDrive, []⟩ editAndDisconnect
    (fun s tr => s.allReturned && s.world.db.artifacts.rows.isEmpty &&
      undeletedCheck 0 firstVersion tr && (s.world.objects firstVersion).isSome)
    (by decide +kernel)
  simp only [Bool.and_eq_true, List.isEmpty_iff] at hend
  obtain ⟨⟨⟨hret, hempty⟩, hund⟩, hstored⟩ := hend
  exact ⟨s, tr, hrun, Pool.returned_of_allReturned hret, hempty, undeleted_of_check hund,
    Option.isSome_iff_ne_none.mp hstored⟩

end Hivebook
