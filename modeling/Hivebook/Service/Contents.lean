import Hivebook.Service.Visibility

/-!
# The bytes behind the manifest

Object keys are content-addressed: artifacts of equal content, of one tenant, connector
and region, share one object.  The outbox erases row by row, and deletes the object of
every row it lists whether or not another row still needs it.

In any sequence of jobs, interrupted at any point, every artifact that is not queued
for erasure keeps its bytes if no listing of the outbox returns an artifact that
shares its object with one that is not queued.

## Main definitions

* `HasObject h w r` — the object of the row is in storage, and is what the row's hash
  says.
* `Contents h w` — so it is for every row that is not queued.

## Main results

* `contents_kept` — **in every sequence of jobs that meets the condition, every
  artifact that is not queued keeps its bytes.**
* `shared_object_erased` — erasing one of two documents of equal content takes the
  bytes of the other.
-/

namespace Hivebook

open Database Machine Storage Connectors

/-- The object of the row is in storage, under a name that ends in the row's hash, and
is what the hash says. -/
def HasObject (h : ContentHash) (w : World) (r : RawArtifact) : Prop :=
  ∃ bucket key o, cut r.objectKey = some (bucket, key) ∧ Addressed key r.contentHash ∧
    w.objects (bucket, key) = some o ∧ h.hash o.body = r.contentHash

/-- Every row that is not queued for erasure has its object. -/
def Contents (h : ContentHash) (w : World) : Prop :=
  ∀ r ∈ w.db.artifacts.rows, r.purgePending = false → HasObject h w r

/-! ### Names of objects -/

/-- What follows the last occurrence of an element is determined. -/
theorem eq_of_append_cons {α : Type} {a : α} {l l' d d' : List α}
    (h : d ++ a :: l = d' ++ a :: l') (hl : a ∉ l) (hl' : a ∉ l') : l = l' := by
  rcases List.append_eq_append_iff.mp h with ⟨c, -, hc⟩ | ⟨c, -, hc⟩
  · cases c with
    | nil => exact (List.cons.inj hc).2
    | cons x c =>
      have hmem : a ∈ l := by rw [(List.cons.inj hc).2]; simp
      exact absurd hmem hl
  · cases c with
    | nil => exact ((List.cons.inj hc).2).symm
    | cons x c =>
      have hmem : a ∈ l' := by rw [(List.cons.inj hc).2]; simp
      exact absurd hmem hl'

/-- The hash is the last segment of a name. -/
theorem Addressed.unique {key hash hash' : String} (h : Addressed key hash)
    (h' : Addressed key hash') (hs : '/' ∉ hash.toList) (hs' : '/' ∉ hash'.toList) :
    hash = hash' := by
  obtain ⟨dir, rfl⟩ := h
  obtain ⟨dir', heq⟩ := h'
  have hlist := congrArg String.toList heq
  simp only [String.toList_append, List.append_assoc] at hlist
  have hslash : ("/" : String).toList = ['/'] := rfl
  rw [hslash] at hlist
  exact String.toList_injective (eq_of_append_cons hlist hs hs')

theorem HasObject.slash_not_mem {h : ContentHash} {w : World} {r : RawArtifact}
    (hr : HasObject h w r) : '/' ∉ r.contentHash.toList := by
  obtain ⟨-, -, o, -, -, -, hhash⟩ := hr
  rw [← hhash]
  exact h.slash_not_mem o.body

/-! ### The invariant -/

/-- What holds between two commands of a job. -/
structure ContentsInv (h : ContentHash) (w : World) (g : Custody) : Prop where
  contents : Contents h w
  /-- The object stored last is in storage. -/
  stored : ∀ bucket key body, g.stored = some (bucket, key, body) →
    g.listed = [] ∧ Addressed key (h.hash body) ∧
      ∃ o, w.objects (bucket, key) = some o ∧ h.hash o.body = h.hash body
  /-- Whatever has the object of a listed row is queued. -/
  listed : ∀ r₀ ∈ g.listed, ∀ r ∈ w.db.artifacts.rows, (cut r₀.objectKey).isSome →
    cut r.objectKey = cut r₀.objectKey → r.purgePending = true

section Step

variable {h : ContentHash} {x : Choice} {b : Bool} {w : World} {g : Custody}

theorem HasObject.congr {w' : World} {r r' : RawArtifact} (hr : HasObject h w r)
    (hobjects : w'.objects = w.objects) (hkey : r'.objectKey = r.objectKey)
    (hhash : r'.contentHash = r.contentHash) : HasObject h w' r' := by
  unfold HasObject
  rw [hobjects, hkey, hhash]
  exact hr

/-- The row of an emit has the object stored last. -/
theorem ContentsInv.hasObject_of_commit (hinv : ContentsInv h w g) {r : RawArtifact}
    {p : UpsertRawArtifactParams} (hp : g.mayCommit h p) (hkey : r.objectKey = p.objectKey)
    (hhash : r.contentHash = p.contentHash) : HasObject h w r := by
  obtain ⟨bucket, key, body, hstored, hcut, hcontent⟩ := hp
  obtain ⟨-, haddr, o, ho, hbody⟩ := hinv.stored bucket key body hstored
  refine ⟨bucket, key, o, by rw [hkey, hcut], ?_, ho, ?_⟩
  · rw [hhash, hcontent]
    exact haddr
  · rw [hhash, hcontent, hbody]

/-- A statement keeps the bytes of what is not queued. -/
theorem ContentsInv.contents_exec (hinv : ContentsInv h w g) {s : Statement} {now : Time}
    (hc : (custody h).allowed g (.statement s)) :
    ∀ r ∈ (s.exec now w.db).2.artifacts.rows, r.purgePending = false → HasObject h w r := by
  intro r' hr' hp'
  cases manifestStep now w.db s hr' with
  | keep hr => exact hinv.contents r' hr hp'
  | hide r hr heq =>
    rw [heq] at hp'
    exact (hinv.contents r hr hp').congr rfl (by rw [heq]) (by rw [heq])
  | restore r hr _ heq =>
    rw [heq] at hp'
    exact (hinv.contents r hr hp').congr rfl (by rw [heq]) (by rw [heq])
  | mark r deadline hr _ heq =>
    rw [heq] at hp'
    cases hp'
  | rewrite r p unitID cursor hr hs _ heq =>
    subst hs
    exact hinv.hasObject_of_commit hc (by rw [heq]; rfl) (by rw [heq]; rfl)
  | insert p unitID cursor hs _ heq =>
    subst hs
    exact hinv.hasObject_of_commit hc (by rw [heq]; rfl) (by rw [heq]; rfl)

/-- A statement keeps queued whatever has the object of a listed row: only an emit
moves a row to another object, and a job that emits has listed nothing. -/
theorem ContentsInv.listed_exec (hinv : ContentsInv h w g) {s : Statement} {now : Time}
    (hc : (custody h).allowed g (.statement s)) :
    ∀ r₀ ∈ g.listed, ∀ r ∈ (s.exec now w.db).2.artifacts.rows, (cut r₀.objectKey).isSome →
      cut r.objectKey = cut r₀.objectKey → r.purgePending = true := by
  intro r₀ hr₀ r' hr' hsome hcut
  have hnoCommit : ∀ p, ¬ g.mayCommit h p := by
    rintro p ⟨bucket, key, body, hstored, -⟩
    rw [(hinv.stored bucket key body hstored).1] at hr₀
    cases hr₀
  cases manifestStep now w.db s hr' with
  | keep hr => exact hinv.listed r₀ hr₀ r' hr hsome hcut
  | hide r hr heq =>
    rw [heq] at hcut ⊢
    exact hinv.listed r₀ hr₀ r hr hsome hcut
  | restore r hr _ heq =>
    rw [heq] at hcut ⊢
    exact hinv.listed r₀ hr₀ r hr hsome hcut
  | mark r deadline hr _ heq =>
    rw [heq]
    rfl
  | rewrite r p unitID cursor hr hs _ heq =>
    subst hs
    exact absurd hc (hnoCommit p)
  | insert p unitID cursor hs _ heq =>
    subst hs
    exact absurd hc (hnoCommit p)

/-- What a job has stored after a statement is what it had, or nothing. -/
theorem stored_next_statement (s : Statement) (r : (Cmd.statement s).Resp) (g : Custody) :
    (g.next (.statement s) r).stored = g.stored ∨ (g.next (.statement s) r).stored = none := by
  cases s with
  | listPurgePendingArtifacts n =>
    cases r with
    | error e => exact Or.inl rfl
    | ok rows => exact Or.inr rfl
  | _ => exact Or.inl rfl

/-- A job that starts has stored and listed nothing. -/
theorem Contents.init (hw : Contents h w) : ContentsInv h w Custody.init where
  contents := hw
  stored := by
    intro bucket key body hst
    cases hst
  listed := by
    intro r₀ hr₀
    cases hr₀

theorem ContentsInv.tick (hinv : ContentsInv h w g) (d : Time) : ContentsInv h (w.tick d) g where
  contents := fun r hr hp => (hinv.contents r hr hp).congr rfl rfl rfl
  stored := hinv.stored
  listed := hinv.listed

theorem ContentsInv.statement (hinv : ContentsInv h w g) {s : Statement}
    (hc : (custody h).allowed g (.statement s))
    (hcond : purgesNothingLive x b w (.statement s) = true) :
    ContentsInv h (service.perform x b w (.statement s)).1
      (g.next (.statement s) (service.perform x b w (.statement s)).2) := by
  have hobjects : (service.perform x b w (.statement s)).1.objects = w.objects := by
    rw [service_state]
    split <;> rfl
  -- the statement took effect or it did not
  have hrows : ∀ r ∈ (service.perform x b w (.statement s)).1.db.artifacts.rows,
      r ∈ w.db.artifacts.rows ∨
        r ∈ (s.exec (w.now + x.elapsed) w.db).2.artifacts.rows := by
    rw [service_db]
    show ∀ r ∈ (if x.takesEffect b = true then _ else _ : Database).artifacts.rows, _
    split
    · exact fun r hr => Or.inr hr
    · exact fun r hr => Or.inl hr
  refine ⟨fun r hr hp => ?_, fun bucket key body hstored => ?_, fun r₀ hr₀ r hr hsome hcut => ?_⟩
  · have hobject : HasObject h w r := by
      rcases hrows r hr with hr | hr
      · exact hinv.contents r hr hp
      · exact hinv.contents_exec hc r hr hp
    exact hobject.congr hobjects rfl rfl
  · rw [hobjects]
    rcases stored_next_statement s (service.perform x b w (.statement s)).2 g with hsame | hnone
    · rw [hsame] at hstored
      obtain ⟨hnil, hrest⟩ := hinv.stored bucket key body hstored
      refine ⟨?_, hrest⟩
      rcases listed_next x b w (.statement s) g with hsub | ⟨n, hlist, hx, -⟩
      · rw [hnil] at hsub
        exact List.eq_nil_iff_forall_not_mem.mpr fun r hr => by cases hsub r hr
      · -- a listing forgets what was stored
        cases hlist
        have hgone : (g.next (.statement (.listPurgePendingArtifacts n))
            (service.perform x b w (.statement (.listPurgePendingArtifacts n))).2).stored =
              none ∨ (g.next (.statement (.listPurgePendingArtifacts n))
            (service.perform x b w (.statement (.listPurgePendingArtifacts n))).2).listed =
              g.listed := by
          generalize (service.perform x b w (.statement (.listPurgePendingArtifacts n))).2 = reply
          cases reply with
          | error e => exact Or.inr rfl
          | ok rows => exact Or.inl rfl
        rcases hgone with hgone | hgone
        · rw [hgone] at hsame
          rw [← hsame] at hstored
          cases hstored
        · rw [hgone]
          exact hnil
    · rw [hnone] at hstored
      cases hstored
  · rcases listed_next x b w (.statement s) g with hsub | ⟨n, hlist, hx, hnew⟩
    · rcases hrows r hr with hr | hr
      · exact hinv.listed r₀ (hsub r₀ hr₀) r hr hsome hcut
      · exact hinv.listed_exec hc r₀ (hsub r₀ hr₀) r hr hsome hcut
    · cases hlist
      rw [hnew] at hr₀
      -- the rows are listed now, and none shares its object with a live one
      simp only [purgesNothingLive, hx, Bool.not_true, Bool.false_or, List.all_eq_true] at hcond
      have hr' : r ∈ w.db.artifacts.rows := by
        rcases hrows r hr with hr | hr
        · exact hr
        · exact hr
      have hone := hcond r₀ hr₀ r hr'
      have hnotNone : (cut r₀.objectKey).isNone = false := by
        rw [Option.isNone_eq_false_iff]
        exact hsome
      simpa [hnotNone, hcut] using hone

/-- An object that is overwritten is overwritten by one of the same hash. -/
theorem object_put {bucket key contentType bucket' key' : String} {body body' : Bytes}
    {o : StoredObject} (haddr : Addressed key (h.hash body))
    (haddr' : Addressed key' (h.hash body'))
    (ho : w.objects (bucket', key') = some o) (hbody : h.hash o.body = h.hash body') :
    ∃ o', (Cmd.effect w (.putObject bucket key contentType body)).objects
      (bucket', key') = some o' ∧
      h.hash o'.body = h.hash body' := by
  by_cases heq : (bucket', key') = (bucket, key)
  · obtain ⟨rfl, rfl⟩ := Prod.mk.inj heq
    refine ⟨⟨contentType, body⟩, Function.update_self .., ?_⟩
    exact haddr.unique haddr' (h.slash_not_mem body) (h.slash_not_mem body')
  · exact ⟨o, (Function.update_of_ne heq ..).trans ho, hbody⟩

/-- An object overwritten by one of the same hash serves its rows as before. -/
theorem HasObject.put {bucket key contentType : String} {body : Bytes} {r : RawArtifact}
    (hr : HasObject h w r) (haddr : Addressed key (h.hash body)) :
    HasObject h (Cmd.effect w (.putObject bucket key contentType body)) r := by
  obtain ⟨bucket', key', o, hcut, haddr', ho, hbody⟩ := hr
  rw [← hbody] at haddr'
  have hobject : ∃ o', (Cmd.effect w (.putObject bucket key contentType body)).objects
      (bucket', key') = some o' ∧ h.hash o'.body = h.hash o.body := object_put haddr haddr' ho rfl
  obtain ⟨o', ho', hbody'⟩ := hobject
  exact ⟨bucket', key', o', hcut, hbody ▸ haddr', ho', hbody'.trans hbody⟩

theorem ContentsInv.putObject (hinv : ContentsInv h w g) {bucket key contentType : String}
    {body : Bytes} (hc : (custody h).allowed g (.putObject bucket key contentType body)) :
    ContentsInv h (service.perform x b w (.putObject bucket key contentType body)).1
      (g.next (.putObject bucket key contentType body)
        (service.perform x b w (.putObject bucket key contentType body)).2) := by
  have haddr : Addressed key (h.hash body) := hc
  -- the object stored before is still there, or has been overwritten by its equal
  have hput : ContentsInv h (Cmd.effect (w.tick x.elapsed)
      (.putObject bucket key contentType body)) g := by
    have htick := hinv.tick x.elapsed
    refine ⟨fun r hr hp => (htick.contents r hr hp).put haddr, fun bucket' key' body' hst => ?_,
      htick.listed⟩
    obtain ⟨hnil, haddr', o, ho, hbody⟩ := htick.stored bucket' key' body' hst
    exact ⟨hnil, haddr', object_put haddr haddr' ho hbody⟩
  by_cases hx : x.takesEffect b = true
  · have hstate : (service.perform x b w (.putObject bucket key contentType body)).1 =
        Cmd.effect (w.tick x.elapsed) (.putObject bucket key contentType body) := by
      rw [service_state, if_pos hx]
    rw [hstate]
    generalize (service.perform x b w (.putObject bucket key contentType body)).2 = reply
    cases reply with
    | error e => exact hput
    | ok _ =>
      refine ⟨hput.contents, fun bucket' key' body' hst => ?_, fun r₀ hr₀ => by cases hr₀⟩
      cases hst
      exact ⟨rfl, haddr, ⟨contentType, body⟩, Function.update_self .., rfl⟩
  · have hstate : (service.perform x b w (.putObject bucket key contentType body)).1 =
        w.tick x.elapsed := by
      rw [service_state, if_neg hx]
    have hreply : ∃ e, (service.perform x b w (.putObject bucket key contentType body)).2 =
        .error e := reply_error_of_not_takesEffect (by simpa using hx) _
    obtain ⟨e, hreply⟩ := hreply
    rw [hstate, hreply]
    exact hinv.tick x.elapsed

/-- Whoever deletes an object has listed a row of it, so what is not queued has its
object elsewhere. -/
theorem ContentsInv.deleteObject (hinv : ContentsInv h w g) {bucket key : String}
    (hc : (custody h).allowed g (.deleteObject bucket key)) :
    ContentsInv h (service.perform x b w (.deleteObject bucket key)).1
      (g.next (.deleteObject bucket key)
        (service.perform x b w (.deleteObject bucket key)).2) := by
  obtain ⟨r₀, hr₀, hcut₀⟩ := hc
  have hrows : (service.perform x b w (.deleteObject bucket key)).1.db = w.db := service_db x b w _
  refine ⟨fun r hr hp => ?_, fun _ _ _ hst => (by cases hst), ?_⟩
  · rw [hrows] at hr
    obtain ⟨bucket', key', o, hcut, haddr, ho, hbody⟩ := hinv.contents r hr hp
    have hne : (bucket', key') ≠ (bucket, key) := by
      intro heq
      have hpending := hinv.listed r₀ hr₀ r hr (by rw [hcut₀]; rfl) (by rw [hcut, hcut₀, heq])
      rw [hp] at hpending
      cases hpending
    refine ⟨bucket', key', o, hcut, haddr, ?_, hbody⟩
    rw [service_state]
    split
    · exact (Function.update_of_ne hne ..).trans ho
    · exact ho
  · rw [hrows]
    exact hinv.listed

/-- **One command of a job keeps the bytes of what is not queued.** -/
theorem ContentsInv.step (hinv : ContentsInv h w g) {c : Cmd} (hc : (custody h).allowed g c)
    (hcond : purgesNothingLive x b w c = true) :
    ContentsInv h (service.perform x b w c).1 (g.next c (service.perform x b w c).2) := by
  have hidle : ∀ c : Cmd, Cmd.effect (w.tick x.elapsed) c = w.tick x.elapsed →
      ContentsInv h (service.perform x b w c).1 g := by
    intro c heffect
    rw [service_state, heffect, ite_self]
    exact hinv.tick x.elapsed
  cases c with
  | statement s => exact hinv.statement hc hcond
  | putObject bucket key contentType body => exact hinv.putObject hc
  | deleteObject bucket key => exact hinv.deleteObject hc
  | clock =>
    obtain ⟨hcontents, hstored, hlisted⟩ := hidle .clock rfl
    exact ⟨hcontents, hstored, hlisted⟩
  | ctxErr => exact hidle .ctxErr rfl
  | request q => exact hidle (.request q) rfl
  | signalWorkflow id sig => exact hidle (.signalWorkflow id sig) rfl

end Step

/-! ### Every sequence of jobs -/

/-- **In every sequence of jobs whose listings of the outbox spare the objects of what
is not queued**, interrupted anywhere, every row that is not queued keeps its object, and
the object is what the row's hash says. -/
theorem contents_kept (a : Activities) (sv : Server) {w : World}
    {es : List (SeqEvent Job Choice)} {s : Sequential World Job Cmd Cmd.Resp Unit}
    {tr : List (Performed World Choice Cmd)}
    (h : (service.sequential (Job.prog a sv)).RunWhere
      (fun s _ => SeqMeets (fun x b w c => purgesNothingLive x b w c = true) s)
      ⟨w, none⟩ es s tr)
    (hw : Contents a.contentHash w) : Contents a.contentHash s.world := by
  obtain ⟨g, hinv, -⟩ := sequential_follows (J := fun w g _ => ContentsInv a.contentHash w g) h
    (Job.follows a sv)
    hw.init (fun w g tr hinv => hinv.contents.init)
    (fun s tr t j c k b g hC hcur hallowed hinv => hinv.step hallowed (hC j c k b hcur))
  exact hinv.contents

/-! ### Two Drives with a document of equal content -/

/-- Ann and Bob of one tenant, each with a Drive. -/
def twoDrives : World :=
  { db := setUnitSelection 0 1 ["drive"] (upsertSyncUnit 0 1 "drive" "Drive" "google_drive" 1
      (upsertConnection { driveConnection with account := "bob@acme", externalID := "bob@acme" }
        driveDatabase).2)
    objects := fun _ => none
    now := 5 }

/-- A job that runs for some turns in which nothing fails. -/
def quietJob (j : Job) (n : ℕ) : List (SeqEvent Job Choice) :=
  .start j :: List.replicate n (.turn ⟨false, quietly docAnswers⟩)

-- nothing is synced yet, so no row can be without its object
example : twoDrives.db.artifacts.rows.length = 0 := by
  decide +kernel

/-- Ann disconnects, and the outbox is drained. -/
def eraseAnn : List (SeqEvent Job Choice) :=
  quietJob (.disconnect (some "acme") 0) 6 ++ quietJob (.upkeep (.purgeArtifacts 0)) 3

/-- Bob's document, which says something else than Ann's. -/
def bobAnswers : (q : Request) → Except Err q.Reply
  | .driveExport _ => .ok [1]
  | q => docAnswers q

/-- Bob's document is synced. -/
def syncBob : List (SeqEvent Job Choice) :=
  .start (.syncUnit { driveInput with connectionID := 1 }) ::
    List.replicate 22 (.turn ⟨false, quietly bobAnswers⟩)

/-- Two documents that differ are synced and Ann's is erased; Bob's is left, with its
object. -/
theorem erased_alone :
    Contents driveActivities.contentHash twoDrives ∧
      ∃ s tr, (service.sequential (Job.prog driveActivities driveServer)).Run ⟨twoDrives, none⟩
          (quietJob (.syncUnit driveInput) 22 ++ syncBob ++ eraseAnn) s tr ∧
        s.world.db.artifacts.rows.map (fun r => (r.connectionID, r.purgePending)) =
          [(1, false)] ∧
        Contents driveActivities.contentHash s.world := by
  have hw : Contents driveActivities.contentHash twoDrives := by
    intro r hr
    cases hr
  obtain ⟨s, tr, hrun, hend⟩ := Lts.exists_runWhere_of_any
    (service.sequential (Job.prog driveActivities driveServer))
    (fun s _ => seqCheck purgesNothingLive s) ⟨twoDrives, none⟩
    (quietJob (.syncUnit driveInput) 22 ++ syncBob ++ eraseAnn)
    (fun s _ => decide (s.world.db.artifacts.rows.map (fun r => (r.connectionID, r.purgePending)) =
      [(1, false)])) (by decide +kernel)
  refine ⟨hw, s, tr, hrun.run, of_decide_eq_true hend, ?_⟩
  exact contents_kept driveActivities driveServer
    (hrun.mono fun _ _ _ hc => seqMeets_of_check hc) hw

/-- **Erasing Ann's document takes the bytes of Bob's**: his is not queued, and its
object is gone. -/
theorem shared_object_erased :
    Contents driveActivities.contentHash twoDrives ∧
      ∃ s tr, (service.sequential (Job.prog driveActivities driveServer)).Run ⟨twoDrives, none⟩
          (quietJob (.syncUnit driveInput) 22 ++
            quietJob (.syncUnit { driveInput with connectionID := 1 }) 22 ++ eraseAnn) s tr ∧
        ∃ r ∈ s.world.db.artifacts.rows, r.purgePending = false ∧
          ∃ k, cut r.objectKey = some k ∧ s.world.objects k = none := by
  have hw : Contents driveActivities.contentHash twoDrives := by
    intro r hr
    cases hr
  obtain ⟨s, tr, hrun, hend⟩ := Lts.exists_run_of_any
    (service.sequential (Job.prog driveActivities driveServer)) ⟨twoDrives, none⟩
    (quietJob (.syncUnit driveInput) 22 ++
      quietJob (.syncUnit { driveInput with connectionID := 1 }) 22 ++ eraseAnn)
    (fun s _ => s.world.db.artifacts.rows.any fun r => !r.purgePending &&
      (cut r.objectKey).any fun k => (s.world.objects k).isNone) (by decide +kernel)
  obtain ⟨r, hr, hlost⟩ := List.any_eq_true.mp hend
  simp only [Bool.and_eq_true, Bool.not_eq_true', Option.any_eq_true, Option.isNone_iff_eq_none]
    at hlost
  exact ⟨hw, s, tr, hrun, r, hr, hlost.1, hlost.2⟩

end Hivebook
