import Hivebook.Connectors.Documents
import Hivebook.Service.HighWater

/-!
# Draining an unchanged source again

A connector lists the items updated at or after its cursor, so every drain meets the newest
ones again, and a board is listed whole each time.  `makeEmit` compares the hash of an item
with the one in the manifest and writes nothing when they agree.  So once a drain of a source
that does not change has caught up, the manifest mirrors the source, and no later execution of
`SyncUnit` stores an object or touches a row, however it is interrupted and whatever fails.

## Main definitions

* `Carries` — what a protocol has to allow for the steps of `SyncUnit` around its drain.
* `Mirrors` — every item has a row with the hash of its document.
* `UpToCursor` — so it is for every item below the cursor of the unit.
* `Rereading`, `rereading` — what an execution has compared, and when it may write.

## Main results

* `Carries.syncUnit` — **the rule of `SyncUnit`**: it follows a protocol if its drain does.
* `follows_rereading` — `SyncUnit` writes an item only after its row was found to differ.
* `resync_writes_nothing` — **a source that has not changed since it was drained costs no
  write.**
-/

namespace Hivebook

open Database Machine Storage Connectors Admission

/-! ### The rule of `SyncUnit` -/

/-- The protocol allows a steady command and the taking and giving back of a slot, and they
move its ghost state along a relation. -/
structure Carries {S : Type} (P : Protocol S Cmd Cmd.Resp) (R : S → S → Prop) : Prop where
  refl : ∀ g, R g g
  trans : ∀ {g g' g''}, R g g' → R g' g'' → R g g''
  steady : ∀ {c : Cmd}, c.steady = true → ∀ g, P.allowed g c ∧ ∀ r, R g (P.next g c r)
  acquire : ∀ k g, P.allowed g (.statement (.acquireAdmission k)) ∧
    ∀ r, R g (P.next g (.statement (.acquireAdmission k)) r)
  release : ∀ k g, P.allowed g (.statement (.releaseAdmission k)) ∧
    ∀ r, R g (P.next g (.statement (.releaseAdmission k)) r)

namespace Carries

variable {S : Type} {P : Protocol S Cmd Cmd.Resp} {R : S → S → Prop} {K : S → Prop}

/-- A steady program moves along the relation. -/
theorem follows (hP : Carries P R) {α : Type} {p : Program α} (hp : Steady p) (g : S) :
    p.Follows P (fun _ => R g) g :=
  Prog.follows_of_uses (hp.mono fun _ hc g' hg' =>
    ⟨(hP.steady hc g').1, fun r => hP.trans hg' ((hP.steady hc g').2 r)⟩) (hP.refl g)

/-- What follows the drain reports the unit as done only if the drain did. -/
theorem finishUnit (hP : Carries P R) (i : SyncInput) (conn : Connection)
    (connector : Connector) (result : Except Err Bool) (written : ℕ) (g : S) :
    (Activities.finishUnit i conn connector result written).Follows P
      (fun r g' => R g g' ∧ ∀ res, r = .ok res → res.done = true → result = .ok true) g := by
  refine (hP.follows (Activities.steady_flushProgress i written) g).bind fun _ g₁ hg₁ => ?_
  refine (hP.follows steady_ctxErr g₁).bind fun b g₂ hg₂ => ?_
  have hgrows := hP.trans hg₁ hg₂
  split
  · exact ⟨hgrows, fun res hr => by cases hr⟩
  · cases result with
    | error e =>
      refine (hP.follows (Activities.steady_throttleFeedback _ e) g₂).bind fun _ g₃ hg₃ => ?_
      refine (hP.follows (Activities.steady_classify conn i.unitID e) g₃).bind fun _ g₄ hg₄ => ?_
      exact ⟨hP.trans (hP.trans hgrows hg₃) hg₄, fun res hr => by cases hr⟩
    | ok done =>
      refine (hP.follows (steady_recordSuccess _ _) g₂).bind fun _ g₃ hg₃ => ?_
      cases done with
      | true =>
        refine (hP.follows (Activities.steady_commitSynced i written) g₃).mono fun r g₄ hg₄ => ?_
        exact ⟨hP.trans (hP.trans hgrows hg₃) hg₄, fun _ _ _ => rfl⟩
      | false =>
        refine ⟨hP.trans hgrows hg₃, fun res hr hdone => ?_⟩
        cases hr
        cases hdone

/-- Taking a slot. -/
theorem acquired (hP : Carries P R) (k : Scope) (name : String) (seed : RateBudget) (g : S) :
    (Admission.acquire k name seed).Follows P (fun _ => R g) g := by
  have hseed := hP.steady (c := .statement (.seedAdmissionBucket k name
    (int32 (max seed.startConcurrency 1)))) rfl g
  refine ⟨hseed.1, fun r => ?_⟩
  have hg := hseed.2 r
  cases r with
  | error e => exact hg
  | ok _ =>
    refine ⟨(hP.acquire k _).1, fun r => ?_⟩
    have hg' := hP.trans hg ((hP.acquire k _).2 r)
    dsimp only [Prog.pure_bind]
    split <;> exact hg'

variable (a : Activities) {i : SyncInput}

/-- `SyncUnit` from the slot on. -/
theorem admitted (hP : Carries P R) (hK : ∀ {g g'}, R g g' → K g → K g')
    (connector : Connector) (conn : Connection) (unit : SyncUnit) (g : S)
    (hdrain : ∀ g', R g g' → (a.drain i conn connector unit).Follows P
      (fun r g => r.1 = .ok true → K g) g') :
    (a.admitted i conn connector unit).Follows P
      (fun r g => ∀ res, r = .ok res → res.done = true → K g) g := by
  refine (hP.acquired _ _ _ g).bind fun r g₁ hg₁ => ?_
  split
  · intro res hr
    cases hr
  · intro res hr
    cases hr
  · refine Prog.Follows.bind (R := fun (r : Except ActivityError SyncResult) (g : S) =>
      ∀ res, r = .ok res → res.done = true → K g) ?_
      fun r g₂ hg₂ => ⟨(hP.release _ g₂).1, fun reply res hr hdone =>
        hK ((hP.release _ g₂).2 reply) (hg₂ res hr hdone)⟩
    refine (hdrain g₁ hg₁).bind fun r g₂ hg₂ => ?_
    refine (hP.finishUnit i conn connector r.1 r.2.written g₂).mono
      fun res g₃ hg₃ out hout hdone => ?_
    exact hK hg₃.1 (hg₂ (hg₃.2 out hout hdone))

/-- **The rule of `SyncUnit`.**  It follows a protocol if its drain does, from whatever the
connection and the unit were read as; and it reports the unit as done only if the drain has
caught up. -/
theorem syncUnit (hP : Carries P R) (hK : ∀ {g g'}, R g g' → K g → K g') (g : S)
    (hread : ∀ g, P.allowed g (.statement (.getSyncUnit i.connectionID i.unitID)))
    (hdrain : ∀ conn connector unit g', a.reg.get conn.connectorID = some connector →
      R (P.next (P.next g (.statement (.getConnectionByID i.connectionID)) (.ok conn))
        (.statement (.getSyncUnit i.connectionID i.unitID)) (.ok unit)) g' →
      (a.drain i conn connector unit).Follows P (fun r g => r.1 = .ok true → K g) g') :
    (a.syncUnit i).Follows P (fun r g => ∀ res, r = .ok res → res.done = true → K g) g := by
  have hfail : ∀ {e : ActivityError} {g : S}, ∀ res : SyncResult,
      (.error e : Except ActivityError SyncResult) = .ok res → res.done = true → K g := by
    intro e g res hr
    cases hr
  refine ⟨(hP.steady rfl g).1, fun r => ?_⟩
  cases r with
  | error e => exact hfail
  | ok conn =>
    dsimp only [Prog.pure_bind]
    cases hget : a.reg.get conn.connectorID with
    | none => exact hfail
    | some connector =>
      refine ⟨hread _, fun r => ?_⟩
      cases r with
      | error e => exact hfail
      | ok unit =>
        have hunit := hdrain conn connector unit
        generalize P.next (P.next g _ _) _ _ = g₁ at hunit ⊢
        have hstatus := hP.steady
          (c := .statement (.setUnitStatus i.connectionID i.unitID .syncing)) rfl g₁
        refine ⟨hstatus.1, fun r => ?_⟩
        have hg₂ := hstatus.2 r
        cases r with
        | error e => exact hfail
        | ok _ =>
          generalize P.next g₁ _ _ = g₂ at hg₂ ⊢
          have hnotify := hP.steady (c := .statement (.notifyConnectionChanged i.tenantID)) rfl g₂
          refine ⟨hnotify.1, fun r => ?_⟩
          have hg₃ := hP.trans hg₂ (hnotify.2 r)
          refine (hP.follows (a.touchesTokens_clientFor conn).steady _).bind fun r g₄ hg₄ => ?_
          split
          · exact (hP.follows (Activities.steady_classify _ _ _) g₄).bind fun _ _ _ => hfail
          · refine hP.admitted a hK connector conn unit g₄ fun g' hg' => ?_
            exact hunit g' hget (hP.trans (hP.trans hg₃ hg₄) hg')

end Carries

/-! ### What an execution compares -/

/-- The documents of a source as the manifest keeps them: by the id of their artifact, their
hash. -/
def shown (h : ContentHash) (D : List (String × Bytes)) : List (String × String) :=
  D.map fun d => (d.1, h.hash d.2)

/-- What a running execution has compared. -/
structure Rereading where
  /-- The source and the database have answered truthfully. -/
  honest : Prop
  /-- The cursor of the unit, as it was read. -/
  start : Option String
  /-- Ids of items whose row has the hash of their document. -/
  matched : List String
  /-- The row looked at last was none of these, and has not been written since. -/
  stale : Bool

/-- What an execution that starts has compared. -/
def Rereading.init : Rereading := { honest := True, start := none, matched := [], stale := false }

/-- An item has one document, so one hash. -/
theorem eq_of_shown {h : ContentHash} {D : List (String × Bytes)} {x hash : String} {raw : Bytes}
    (hD : (D.map Prod.fst).Nodup) (hshown : (x, hash) ∈ shown h D) (hraw : (x, raw) ∈ D) :
    hash = h.hash raw := by
  obtain ⟨d, hd, heq⟩ := List.mem_map.mp hshown
  obtain ⟨rfl, rfl⟩ := Prod.mk.inj heq
  rw [List.inj_on_of_nodup_map hD hd hraw rfl]

section Protocol

variable (h : ContentHash) (site : Connectors.Site) (c : Connectors.Holdings) (i : SyncInput)
  (connectorID : String)

/-- What a look at the row of an item adds. -/
def Rereading.compare (g : Rereading) (id : Uuid) (externalID : String) :
    Except Err String → Rereading
  | .ok prev =>
      if id = i.connectionID ∧ (externalID, prev) ∈ shown h (site.documents c) then
        { g with matched := externalID :: g.matched, stale := false }
      else { g with stale := decide (id = i.connectionID ∧
        externalID ∈ (site.documents c).map Prod.fst) }
  | .error .noRows =>
      { g with stale := decide (id = i.connectionID ∧
        externalID ∈ (site.documents c).map Prod.fst) }
  | .error _ => { g with stale := false }

/-- What a response adds. -/
def Rereading.next (g : Rereading) : (cmd : Cmd) → cmd.Resp → Rereading
  | .request q, r => { g with honest := g.honest ∧ site.shows c q r }
  | .statement (.getConnectionByID id), .ok conn =>
      { g with honest := g.honest ∧ (id = i.connectionID → conn.connectorID = connectorID) }
  | .statement (.getSyncUnit _ _), .ok u =>
      { g with honest := g.honest ∧ site.fits u.source, start := some u.cursor }
  | .statement (.getArtifactContentHash id externalID), r => g.compare h site c i id externalID r
  | .statement (.commitArtifact p _ _), .ok _ =>
      { g with matched := p.externalID :: g.matched, stale := false }
  | .statement (.commitArtifact _ _ _), .error _ => { g with stale := false }
  | _, _ => g

/-- Every item from the start on that was updated before the new cursor has its row. -/
def Rereading.mayAdvance (g : Rereading) (cursor : String) : Prop :=
  g.honest → ∃ s, g.start = some s ∧ ∀ e ∈ site.items, s ≤ e.updatedAt → e.updatedAt < cursor →
    e.externalID ∈ g.matched

/-- Every item from the start on has its row. -/
def Rereading.caughtUp (g : Rereading) : Prop :=
  g.honest → ∃ s, g.start = some s ∧ ∀ e ∈ site.items, s ≤ e.updatedAt → e.externalID ∈ g.matched

/-- What an execution of `SyncUnit` may do: it writes an item only after its row was found to
differ, and the row it writes is for the document. -/
def rereading : Protocol Rereading Cmd Cmd.Resp where
  allowed g
    | .putObject _ _ _ _ => g.honest → g.stale = true
    | .deleteObject _ _ => False
    | .statement (.commitArtifact p unitID cursor) =>
        p.connectionID = i.connectionID ∧ unitID = i.unitID ∧
          (g.honest → g.stale = true ∧
            (p.externalID, p.contentHash) ∈ shown h (site.documents c)) ∧
          ∀ x, cursor = some x → g.mayAdvance site x
    | .statement (.setUnitCursor id unitID cursor) =>
        id = i.connectionID ∧ unitID = i.unitID ∧ g.mayAdvance site cursor
    | .statement (.getSyncUnit id unitID) => id = i.connectionID ∧ unitID = i.unitID
    | .statement (.acquireAdmission _) | .statement (.releaseAdmission _) => True
    | .statement s => s.steady = true
    | .ctxErr | .clock | .request _ | .signalWorkflow _ _ => True
  next := Rereading.next h site c i connectorID

end Protocol

section Follows

variable {h : ContentHash} {site : Connectors.Site} {c : Connectors.Holdings} {i : SyncInput}
  {connectorID : String}

/-- More rows have matched, the start is the same, and what is truthful now was before. -/
def Rereading.Grows (g g' : Rereading) : Prop :=
  (g'.honest → g.honest) ∧ g'.start = g.start ∧ g.matched ⊆ g'.matched

theorem Rereading.Grows.refl (g : Rereading) : g.Grows g := ⟨id, rfl, List.Subset.refl _⟩

theorem Rereading.Grows.trans {g g' g'' : Rereading} (hg : g.Grows g') (hg' : g'.Grows g'') :
    g.Grows g'' :=
  ⟨fun hh => hg.1 (hg'.1 hh), hg'.2.1.trans hg.2.1, List.Subset.trans hg.2.2 hg'.2.2⟩

theorem Rereading.Grows.caughtUp {g g' : Rereading} (hg : g.Grows g') (hcaught : g.caughtUp site) :
    g'.caughtUp site := by
  intro hh
  obtain ⟨s, hs, hmatched⟩ := hcaught (hg.1 hh)
  exact ⟨s, hg.2.1.trans hs, fun e he hle => hg.2.2 (hmatched e he hle)⟩

/-- A look at a row only adds to what has matched. -/
theorem grows_compare (g : Rereading) (id : Uuid) (externalID : String)
    (r : Except Err String) : g.Grows (g.compare h site c i id externalID r) := by
  unfold Rereading.compare
  split
  · split
    · exact ⟨fun hh => hh, rfl, List.subset_cons_self _ _⟩
    · exact .refl g
  · exact .refl g
  · exact .refl g

theorem carries_rereading :
    Carries (rereading h site c i connectorID) Rereading.Grows where
  refl := .refl
  trans := .trans
  acquire k g := ⟨trivial, fun _ => .refl g⟩
  release k g := ⟨trivial, fun _ => .refl g⟩
  steady := by
    intro cmd hc g
    cases cmd with
    | putObject _ _ _ _ => cases hc
    | deleteObject _ _ => cases hc
    | request q => exact ⟨trivial, fun r => ⟨And.left, rfl, List.Subset.refl _⟩⟩
    | statement s =>
      cases s with
      | getConnectionByID id =>
        refine ⟨hc, fun r => ?_⟩
        cases r with
        | error e => exact .refl g
        | ok conn => exact ⟨And.left, rfl, List.Subset.refl _⟩
      | getArtifactContentHash id externalID => exact ⟨hc, grows_compare g id externalID⟩
      | _ => first | exact ⟨hc, fun r => by cases r <;> exact .refl g⟩ | cases hc
    | _ => exact ⟨trivial, fun _ => .refl g⟩

/-- The items emitted so far have matched, those left are the rest of the listing. -/
structure Compared (site : Connectors.Site) (cursor : String) (d : Remaining) (honest : Prop)
    (g : Rereading) : Prop where
  honest : g.honest → d.honest ∧ honest
  start : g.start = some cursor
  emitted : g.honest → ∃ before, site.listing cursor = before ++ d.rest ∧
    ∀ e ∈ before, e.externalID ∈ g.matched

theorem Compared.grows {cursor : String} {d : Remaining} {honest : Prop} {g g' : Rereading}
    (hd : Compared site cursor d honest g) (hg : g.Grows g') :
    Compared site cursor d honest g' := by
  refine ⟨fun hh => hd.honest (hg.1 hh), hg.2.1.trans hd.start, fun hh => ?_⟩
  obtain ⟨before, hlisting, hmatched⟩ := hd.emitted (hg.1 hh)
  exact ⟨before, hlisting, fun e he => hg.2.2 (hmatched e he)⟩

/-- Before an item may be emitted, all items updated before it have matched. -/
theorem Compared.mayAdvance {cursor : String} {d : Remaining} {honest : Prop} {g : Rereading}
    {art : Artifact} (hd : Compared site cursor d honest g)
    (hart : (inOrder site.answers).allowed d (.emit art)) : g.mayAdvance site art.cursor := by
  intro hh
  obtain ⟨before, hlisting, hmatched⟩ := hd.emitted hh
  obtain ⟨tail, hrest⟩ := hart (hd.honest hh).1
  rw [hrest] at hlisting
  refine ⟨cursor, hd.start, fun e he hle hlt => ?_⟩
  exact hmatched e (Connectors.Site.mem_of_lt hlisting he hle hlt)

/-- An item that has matched is emitted. -/
theorem Compared.emit {cursor : String} {d : Remaining} {honest : Prop} {g : Rereading}
    {art : Artifact} (hd : Compared site cursor d honest g)
    (hart : (inOrder site.answers).allowed d (.emit art))
    (hmatched : g.honest → art.externalID ∈ g.matched) :
    Compared site cursor { d with rest := d.rest.tail } honest g := by
  refine ⟨hd.honest, hd.start, fun hh => ?_⟩
  obtain ⟨before, hlisting, hbefore⟩ := hd.emitted hh
  obtain ⟨tail, hrest⟩ := hart (hd.honest hh).1
  refine ⟨before ++ [art.item], ?_, fun e he => ?_⟩
  · rw [hlisting, hrest]
    simp
  · rcases List.mem_append.mp he with he | he
    · exact hbefore e he
    · rw [List.mem_singleton.mp he]
      exact hmatched hh

section SyncUnit

variable (a : Activities)

/-- An unchanged item: its row has matched, so the cursor may move past it. -/
theorem follows_rereading_unchanged {cursor : String} {d : Remaining} {honest : Prop}
    {g : Rereading} {art : Artifact} (st : EmitState) (hd : Compared site cursor d honest g)
    (hart : (inOrder site.answers).allowed d (.emit art))
    (hmatched : g.honest → art.externalID ∈ g.matched) :
    (Activities.emitUnchanged i art st).Follows (rereading h site c i connectorID)
      (fun r g' => Compared site cursor ((inOrder site.answers).next d (.emit art) r.1) honest g')
      g := by
  unfold Activities.emitUnchanged
  split
  · refine ⟨⟨rfl, rfl, hd.mayAdvance hart⟩, fun r => ?_⟩
    exact hd.emit hart hmatched
  · exact hd.emit hart hmatched

/-- A changed item: its row was found to differ, and gets the hash of the document. -/
theorem follows_rereading_changed {cursor : String} {d : Remaining} {honest : Prop}
    {g : Rereading} {art : Artifact} (conn : Connection) (st : EmitState)
    (hd : Compared site cursor d honest g)
    (hart : (inOrder site.answers).allowed d (.emit art))
    (hdoc : honest → (art.externalID, art.raw) ∈ site.documents c)
    (hstale : g.honest → g.stale = true) :
    (a.emitChanged i conn art (a.contentHash.hash art.raw) st).Follows
      (rereading a.contentHash site c i connectorID)
      (fun r g' => Compared site cursor ((inOrder site.answers).next d (.emit art) r.1) honest g')
      g := by
  refine ⟨hstale, fun r => ?_⟩
  cases r with
  | error e => exact hd
  | ok _ =>
    have hshown : g.honest → (art.externalID, a.contentHash.hash art.raw) ∈
        shown a.contentHash (site.documents c) :=
      fun hh => List.mem_map.mpr ⟨_, hdoc (hd.honest hh).2, rfl⟩
    refine ⟨⟨rfl, rfl, fun hh => ⟨hstale hh, hshown hh⟩, fun x hx => ?_⟩, fun r => ?_⟩
    · split at hx
      · cases hx
        exact hd.mayAdvance hart
      · cases hx
    · cases r with
      | error e => exact ⟨hd.honest, hd.start, hd.emitted⟩
      | ok _ =>
        refine (carries_rereading.follows (Activities.steady_noteProgress i _) _).bind
          fun _ g' hg' => ?_
        refine Compared.emit (Compared.grows ?_ hg') hart fun _ => hg'.2.2 (List.mem_cons_self ..)
        refine ⟨hd.honest, hd.start, fun hh => ?_⟩
        obtain ⟨before, hlisting, hbefore⟩ := hd.emitted hh
        exact ⟨before, hlisting, fun e he => List.mem_cons_of_mem _ (hbefore e he)⟩

/-- **`emit`** writes an item only after its row was found to differ. -/
theorem follows_rereading_makeEmit (hdocs : ((site.documents c).map Prod.fst).Nodup)
    {cursor : String} {d : Remaining} {honest : Prop} {g : Rereading} {art : Artifact}
    (conn : Connection) (st : EmitState) (hd : Compared site cursor d honest g)
    (hart : (inOrder site.answers).allowed d (.emit art))
    (hdoc : honest → (art.externalID, art.raw) ∈ site.documents c) :
    (a.makeEmit i conn art st).Follows (rereading a.contentHash site c i connectorID)
      (fun r g' => Compared site cursor ((inOrder site.answers).next d (.emit art) r.1) honest g')
      g := by
  have hlisted : g.honest → i.connectionID = i.connectionID ∧
      art.externalID ∈ (site.documents c).map Prod.fst :=
    fun hh => ⟨rfl, List.mem_map_of_mem (hdoc (hd.honest hh).2)⟩
  refine ⟨trivial, fun b => ?_⟩
  show Prog.Follows _ _ _ (if b = true then _ else _)
  split
  · exact hd
  · refine ⟨rfl, fun r => ?_⟩
    have hgrows : g.Grows
        (g.compare a.contentHash site c i i.connectionID art.externalID r) :=
      grows_compare g i.connectionID art.externalID r
    cases r with
    | ok prev =>
      show Prog.Follows _ _ _ (if prev = a.contentHash.hash art.raw then _ else _)
      split
      · -- the hash of the document is the one the manifest should have
        rename_i heq
        refine follows_rereading_unchanged st (hd.grows hgrows) hart fun hh => ?_
        have hshown : (art.externalID, prev) ∈ shown a.contentHash (site.documents c) :=
          List.mem_map.mpr ⟨_, hdoc (hd.honest (hgrows.1 hh)).2, by rw [heq]⟩
        show art.externalID ∈ (g.compare a.contentHash site c i i.connectionID art.externalID
          (.ok prev)).matched
        rw [Rereading.compare, if_pos ⟨rfl, hshown⟩]
        exact List.mem_cons_self ..
      · rename_i hne
        refine follows_rereading_changed a conn st (hd.grows hgrows) hart hdoc fun hh => ?_
        show (g.compare a.contentHash site c i i.connectionID art.externalID
          (.ok prev)).stale = true
        rw [Rereading.compare, if_neg fun hmem =>
          hne (eq_of_shown hdocs hmem.2 (hdoc (hd.honest (hgrows.1 hh)).2))]
        exact decide_eq_true (hlisted (hgrows.1 hh))
    | error e =>
      cases e with
      | noRows =>
        refine follows_rereading_changed a conn st (hd.grows hgrows) hart hdoc fun hh => ?_
        exact decide_eq_true (hlisted (hgrows.1 hh))
      | _ => exact hd.grows hgrows

/-- The drain of the source. -/
theorem follows_rereading_drain (hdocs : ((site.documents c).map Prod.fst).Nodup)
    (connector : Connector) (conn : Connection) (unit : SyncUnit) (g : Rereading)
    (hsite : g.honest → connector.syncUnit = site.syncUnit ∧ site.fits unit.source)
    (hstart : g.start = some unit.cursor) :
    (a.drain i conn connector unit).Follows (rereading a.contentHash site c i connectorID)
      (fun r g => r.1 = .ok true → g.caughtUp site) g := by
  have hinner : (connector.syncUnit unit.source unit.cursor).Follows
      ((inOrder site.answers).prod (rendering (site.shows c) (site.documents c)))
      (fun res d => (d.1.honest → res = .ok true → d.1.rest = []) ∧ True)
      (⟨g.honest, site.listing unit.cursor⟩, g.honest) := by
    by_cases hh : g.honest
    · obtain ⟨hsync, hfits⟩ := hsite hh
      rw [hsync]
      exact (site.follows _ _ _ fun _ => ⟨hfits, rfl⟩).prod
        (site.renders c unit.source unit.cursor g.honest fun _ => hfits)
    · -- nothing is asked of a drain whose answers were not truthful
      have hnone : (connector.syncUnit unit.source unit.cursor).Follows (inOrder site.answers)
          (fun res d => d.honest → res = .ok true → d.rest = [])
          ⟨g.honest, site.listing unit.cursor⟩ :=
        (follows_of_not_honest hh).mono fun _ _ hd hhd => absurd hhd hd
      exact hnone.prod (renders_of_not_honest hh)
  refine (Prog.Follows.interpret
    (I := fun d _ g => Compared site unit.cursor d.1 d.2 g) hinner ?_ ?_).mono ?_
  · intro cmd st d g hd hcmd
    cases cmd with
    | emit art => exact follows_rereading_makeEmit a hdocs conn st hd hcmd.1 hcmd.2
    | fetch cmd =>
      cases cmd with
      | ctxErr => exact ⟨trivial, fun b => hd⟩
      | request q =>
        refine ⟨trivial, fun r => ?_⟩
        have hback : ∀ {T : Prop}, g.honest ∧ T → d.1.honest ∧ d.2 := fun hh => hd.honest hh.1
        cases r with
        | error e =>
          exact ⟨fun hh => ⟨(hback hh).1, (hback hh).2, hh.2⟩, hd.start,
            fun hh => hd.emitted hh.1⟩
        | ok r =>
          exact ⟨fun hh => ⟨⟨(hback hh).1, hh.2.1⟩, (hback hh).2, hh.2⟩, hd.start,
            fun hh => hd.emitted hh.1⟩
  · exact ⟨fun hh => ⟨hh, hh⟩, hstart, fun _ => ⟨[], rfl, by simp⟩⟩
  · rintro r g ⟨d, hdone, hd⟩
    refine fun hr hh => ⟨unit.cursor, hd.start, fun e he hle => ?_⟩
    obtain ⟨before, hlisting, hbefore⟩ := hd.emitted hh
    rw [hdone.1 (hd.honest hh).1 hr, List.append_nil] at hlisting
    exact hbefore e (hlisting ▸ Connectors.Site.mem_listing he hle)

/-- **`SyncUnit` writes an item only after its row was found to differ**, and reports the unit
as done only if the rows of all items from its start on have matched. -/
theorem follows_rereading (hdocs : ((site.documents c).map Prod.fst).Nodup)
    {connector : Connector} (hreg : a.reg.get connectorID = some connector)
    (hsite : connector.syncUnit = site.syncUnit) :
    (a.syncUnit i).Follows (rereading a.contentHash site c i connectorID)
      (fun r g => ∀ res, r = .ok res → res.done = true → g.caughtUp site) Rereading.init := by
  refine carries_rereading.syncUnit a (fun hg => hg.caughtUp) _ (fun _ => ⟨rfl, rfl⟩) ?_
  intro conn connector' unit g' hget hg'
  refine follows_rereading_drain a hdocs connector' conn unit g' (fun hh => ?_) hg'.2.1
  -- a truthful database names the connector and the unit of the source
  have hread := hg'.1 hh
  rw [hread.1.2 rfl, hreg] at hget
  cases hget
  exact ⟨hsite, hread.2⟩

end SyncUnit

end Follows

/-! ### The invariant -/

section Invariant

variable (h : ContentHash) (site : Connectors.Site) (c : Connectors.Holdings) (i : SyncInput)
  (connectorID : String)

/-- The item has a row with the hash of its document. -/
def Matches (db : Database) (externalID : String) : Prop :=
  ∃ r ∈ db.artifacts.rows, r.key = (i.connectionID, externalID) ∧
    (externalID, r.contentHash) ∈ shown h (site.documents c)

/-- **The manifest mirrors the source**: every item has a row with the hash of its document. -/
def Mirrors (db : Database) : Prop := ∀ e ∈ site.items, Matches h site c i db e.externalID

/-- The unit of the connection is the source, and every item updated before its persisted
cursor has a row with the hash of its document. -/
structure UpToCursor (db : Database) : Prop where
  connection : ∃ tenantID externalID,
    db.HasConnection i.connectionID (tenantID, connectorID, externalID)
  unit : ∀ u ∈ db.units.rows, u.is i.connectionID i.unitID = true → site.fits u.source
  below : ∀ u ∈ db.units.rows, u.is i.connectionID i.unitID = true →
    ∀ e ∈ site.items, e.updatedAt < u.cursor → Matches h site c i db e.externalID

/-- What holds between two commands of an execution. -/
structure RereadInv (w : World) (g : Rereading) : Prop where
  behind : UpToCursor h site c i connectorID w.db
  honest : g.honest
  matched : ∀ x ∈ g.matched, Matches h site c i w.db x
  start : ∀ s, g.start = some s → ∀ e ∈ site.items, e.updatedAt < s →
    Matches h site c i w.db e.externalID
  /-- No row of a manifest that mirrors the source is found to differ. -/
  fresh : Mirrors h site c i w.db → g.stale = false

/-- What a request answers is what the source answers. -/
def showing (x : Choice) (_ : Bool) (_ : World) : Cmd → Prop
  | .request q => site.shows c q (x.answer q)
  | _ => True

end Invariant

section Keeps

variable {h : ContentHash} {site : Connectors.Site} {c : Connectors.Holdings} {i : SyncInput}
  {connectorID : String} {x : Choice} {b : Bool} {w : World} {g : Rereading}

/-- A row that matches is the one a look at the item finds. -/
theorem Matches.of_lookup {db : Database} {externalID : String}
    (hm : Matches h site c i db externalID) : ∃ prev,
      getArtifactContentHash i.connectionID externalID db = .ok prev ∧
        (externalID, prev) ∈ shown h (site.documents c) := by
  obtain ⟨r, hr, hkey, hshown⟩ := hm
  have hfind : db.artifacts.rows.find? (fun r => decide (r.key = (i.connectionID, externalID))) =
      some r := by
    cases hf : db.artifacts.rows.find?
        (fun r => decide (r.key = (i.connectionID, externalID))) with
    | none => exact absurd (decide_eq_true hkey) (List.find?_eq_none.mp hf r hr)
    | some r' =>
      have hkey' : r'.key = (i.connectionID, externalID) := by simpa using List.find?_some hf
      rw [db.artifacts.eq_of_key (List.mem_of_find?_eq_some hf) hr (hkey'.trans hkey.symm)]
  refine ⟨r.contentHash, ?_, hshown⟩
  unfold getArtifactContentHash
  rw [hfind]
  rfl

/-- A row found with the hash of the document matches. -/
theorem matches_of_lookup {db : Database} {externalID prev : String}
    (hr : getArtifactContentHash i.connectionID externalID db = .ok prev)
    (hshown : (externalID, prev) ∈ shown h (site.documents c)) :
    Matches h site c i db externalID := by
  unfold getArtifactContentHash one at hr
  split at hr
  · rename_i hfind
    obtain ⟨r, hfound, hhash⟩ := Option.map_eq_some_iff.mp hfind
    cases hr
    exact ⟨r, List.mem_of_find?_eq_some hfound, by simpa using List.find?_some hfound,
      hhash ▸ hshown⟩
  · cases hr

/-- A commit for a document gives its item a row that matches, and leaves those of others. -/
theorem matches_commit {p : UpsertRawArtifactParams} {unitID : String} {cursor : Option String}
    {now : Time} {db : Database} (hid : p.connectionID = i.connectionID)
    (hshown : (p.externalID, p.contentHash) ∈ shown h (site.documents c)) {externalID : String}
    (hm : Matches h site c i db externalID ∨ externalID = p.externalID) :
    Matches h site c i (commitArtifact now p unitID cursor db) externalID := by
  by_cases hx : externalID = p.externalID
  · subst hx
    rcases exists_commitArtifact now p unitID cursor db with ⟨r, -, hkey, hmem⟩ | hmem
    · exact ⟨_, hmem, by rw [← hid, ← hkey]; rfl, hshown⟩
    · exact ⟨_, hmem, by rw [← hid]; rfl, hshown⟩
  · obtain ⟨r, hr, hkey, hhash⟩ := hm.resolve_right hx
    refine ⟨r, ?_, hkey, hhash⟩
    rw [commitArtifact_artifacts]
    refine Table.mem_upsert_of_ne hr fun heq => hx ?_
    exact congrArg Prod.snd (hkey.symm.trans heq)

/-- An execution discovers nothing. -/
theorem ne_upsert_of_rereading {s : Statement}
    (hs : (rereading h site c i connectorID).allowed g (.statement s)) :
    ∀ id y name kind n, s ≠ .upsertSyncUnit id y name kind n := by
  rintro id y name kind n rfl
  cases hs

/-- An execution writes the manifest by commits only. -/
theorem artifacts_of_rereading {s : Statement}
    (hs : (rereading h site c i connectorID).allowed g (.statement s))
    (hcommit : ∀ p unitID cursor, s ≠ .commitArtifact p unitID cursor) (now : Time)
    (db : Database) : (s.exec now db).2.artifacts = db.artifacts := by
  cases s with
  | commitArtifact p unitID cursor => exact absurd rfl (hcommit p unitID cursor)
  | _ => first | exact artifacts_exec now db rfl | cases hs

/-- **A statement of an execution keeps the rows that match.** -/
theorem matches_exec {s : Statement} {now : Time} {db : Database} {externalID : String}
    (hs : (rereading h site c i connectorID).allowed g (.statement s)) (hh : g.honest)
    (hm : Matches h site c i db externalID) : Matches h site c i (s.exec now db).2 externalID := by
  by_cases hcommit : ∃ p unitID cursor, s = .commitArtifact p unitID cursor
  · obtain ⟨p, unitID, cursor, rfl⟩ := hcommit
    exact matches_commit hs.1 (hs.2.2.1 hh).2 (.inl hm)
  · unfold Matches
    rw [artifacts_of_rereading hs fun p unitID cursor heq => hcommit ⟨p, unitID, cursor, heq⟩]
    exact hm

/-- **A statement of an execution moves the cursor only past rows that match.** -/
theorem RereadInv.upToCursor (hinv : RereadInv h site c i connectorID w g) {s : Statement}
    (hs : (rereading h site c i connectorID).allowed g (.statement s)) (now : Time) :
    UpToCursor h site c i connectorID (s.exec now w.db).2 := by
  have hunits := ne_upsert_of_rereading hs
  refine ⟨?_, fun u' hu' his => ?_, fun u' hu' his e he hlt => matches_exec hs hinv.honest ?_⟩
  · obtain ⟨tenantID, externalID, hconn⟩ := hinv.behind.connection
    exact ⟨tenantID, externalID, hasConnection_exec _ s hconn⟩
  · obtain ⟨u, hu, hkey, hsource, -⟩ := unit_step hunits hu'
    rw [hsource]
    exact hinv.behind.unit u hu (is_congr hkey ▸ his)
  · obtain ⟨u, hu, hkey, -, hcursor⟩ := unit_step hunits hu'
    rcases hcursor with hsame | ⟨hwrites, -⟩
    · rw [hsame] at hlt
      exact hinv.behind.below u hu (is_congr hkey ▸ his) e he hlt
    · have hadvance : g.mayAdvance site u'.cursor := by
        rcases hwrites with ⟨id, unitID, rfl⟩ | ⟨p, unitID, rfl⟩
        · exact hs.2.2
        · exact hs.2.2.2 _ rfl
      obtain ⟨s', hs', hmatched⟩ := hadvance hinv.honest
      by_cases hbelow : e.updatedAt < s'
      · exact hinv.start s' hs' e he hbelow
      · exact hinv.matched _ (hmatched e he hbelow hlt)

/-- A command that leaves the database leaves the invariant. -/
theorem RereadInv.congr (hinv : RereadInv h site c i connectorID w g) {w' : World}
    (hdb : w'.db = w.db) : RereadInv h site c i connectorID w' g := by
  refine ⟨?_, hinv.honest, ?_, ?_, ?_⟩ <;> rw [hdb]
  · exact hinv.behind
  · exact hinv.matched
  · exact hinv.start
  · exact hinv.fresh

/-- In a mirror a look at an item of the source finds the hash of its document. -/
theorem Mirrors.lookup {db : Database} (hm : Mirrors h site c i db) {externalID : String}
    (hx : externalID ∈ (site.documents c).map Prod.fst) : ∃ prev,
      getArtifactContentHash i.connectionID externalID db = .ok prev ∧
        (externalID, prev) ∈ shown h (site.documents c) := by
  rw [Connectors.Site.documents_items] at hx
  obtain ⟨e, he, rfl⟩ := List.mem_map.mp hx
  exact (hm e he).of_lookup

/-- **A look at a row keeps the invariant.** -/
theorem RereadInv.compare (hinv : RereadInv h site c i connectorID w g) {id : Uuid}
    {externalID : String} {r : Except Err String}
    (hok : ∀ prev, r = .ok prev → getArtifactContentHash id externalID w.db = .ok prev)
    (hnone : r = .error .noRows → getArtifactContentHash id externalID w.db = .error .noRows) :
    RereadInv h site c i connectorID w (g.compare h site c i id externalID r) := by
  unfold Rereading.compare
  split
  · rename_i prev
    have hfound := hok prev rfl
    split
    · rename_i hagree
      obtain ⟨rfl, hshown⟩ := hagree
      refine ⟨hinv.behind, hinv.honest, fun y hy => ?_, hinv.start, fun _ => rfl⟩
      rcases List.mem_cons.mp hy with rfl | hy
      · exact matches_of_lookup hfound hshown
      · exact hinv.matched y hy
    · rename_i hdiffer
      refine { hinv with fresh := fun hm => decide_eq_false ?_ }
      rintro ⟨rfl, hx⟩
      obtain ⟨prev', hfound', hshown⟩ := hm.lookup hx
      rw [hfound] at hfound'
      cases hfound'
      exact hdiffer ⟨rfl, hshown⟩
  · refine { hinv with fresh := fun hm => decide_eq_false ?_ }
    rintro ⟨rfl, hx⟩
    obtain ⟨prev, hfound, -⟩ := hm.lookup hx
    rw [hnone rfl] at hfound
    cases hfound
  · exact { hinv with fresh := fun _ => rfl }

/-- **One statement of an execution keeps the invariant.** -/
theorem RereadInv.statement (hinv : RereadInv h site c i connectorID w g) {s : Statement}
    (hs : (rereading h site c i connectorID).allowed g (.statement s)) :
    RereadInv h site c i connectorID (service.perform x b w (.statement s)).1
      (g.next h site c i connectorID (.statement s)
        (service.perform x b w (.statement s)).2) := by
  have hdb := service_db x b w (.statement s)
  have hbehind : UpToCursor h site c i connectorID (service.perform x b w (.statement s)).1.db := by
    rw [hdb]
    dsimp only
    split
    · exact hinv.upToCursor hs _
    · exact hinv.behind
  have hkeep : ∀ {y : String}, Matches h site c i w.db y →
      Matches h site c i (service.perform x b w (.statement s)).1.db y := by
    intro y hy
    rw [hdb]
    dsimp only
    split
    · exact matches_exec hs hinv.honest hy
    · exact hy
  have hmatched : ∀ y ∈ g.matched,
      Matches h site c i (service.perform x b w (.statement s)).1.db y :=
    fun y hy => hkeep (hinv.matched y hy)
  have hstart : ∀ s', g.start = some s' → ∀ e ∈ site.items, e.updatedAt < s' →
      Matches h site c i (service.perform x b w (.statement s)).1.db e.externalID :=
    fun s' hs' e he hlt => hkeep (hinv.start s' hs' e he hlt)
  -- only a commit could make the manifest a mirror
  have hfresh : (∀ p unitID cursor, s ≠ .commitArtifact p unitID cursor) →
      Mirrors h site c i (service.perform x b w (.statement s)).1.db →
      Mirrors h site c i w.db := by
    intro hcommit hm e he
    have hrow := hm e he
    rw [hdb] at hrow
    dsimp only at hrow
    split at hrow
    · unfold Matches at hrow ⊢
      rwa [artifacts_of_rereading hs hcommit] at hrow
    · exact hrow
  cases s with
  | commitArtifact p unitID cursor =>
    cases hr : (service.perform x b w (.statement (.commitArtifact p unitID cursor))).2 with
    | error e => exact ⟨hbehind, hinv.honest, hmatched, hstart, fun _ => rfl⟩
    | ok r =>
      refine ⟨hbehind, hinv.honest, fun y hy => ?_, hstart, fun _ => rfl⟩
      rcases List.mem_cons.mp hy with rfl | hy
      · -- the row has just been written
        obtain ⟨htakes, -⟩ := of_reply_eq_ok hr
        rw [hdb]
        dsimp only
        rw [if_pos htakes]
        exact matches_commit hs.1 (hs.2.2.1 hinv.honest).2 (.inr rfl)
      · exact hmatched y hy
  | getArtifactContentHash id externalID =>
    have hkept : (service.perform x b w (.statement (.getArtifactContentHash id externalID))).1.db =
        w.db := by
      rw [hdb]
      exact ite_self w.db
    exact (hinv.compare (fun prev hr => (of_reply_eq_ok hr).2)
      fun hr => of_reply_eq_noRows hr).congr hkept
  | getConnectionByID id =>
    have hfresh' := fun hm => hinv.fresh (hfresh (by simp) hm)
    cases hr : (service.perform x b w (.statement (.getConnectionByID id))).2 with
    | error e => exact ⟨hbehind, hinv.honest, hmatched, hstart, hfresh'⟩
    | ok conn =>
      refine ⟨hbehind, ⟨hinv.honest, fun hid => ?_⟩, hmatched, hstart, hfresh'⟩
      obtain ⟨-, hok⟩ := of_reply_eq_ok hr
      obtain ⟨hmem, hconn⟩ := mem_of_getConnectionByID hok
      obtain ⟨tenantID, externalID, hhas⟩ := hinv.behind.connection
      have hkey := key_of_hasConnection hhas hmem (hconn.trans hid)
      exact congrArg (fun k => k.2.1) hkey
  | getSyncUnit id unitID =>
    have hfresh' := fun hm => hinv.fresh (hfresh (by simp) hm)
    cases hr : (service.perform x b w (.statement (.getSyncUnit id unitID))).2 with
    | error e => exact ⟨hbehind, hinv.honest, hmatched, hstart, hfresh'⟩
    | ok u =>
      obtain ⟨-, hok⟩ := of_reply_eq_ok hr
      obtain ⟨hmem, his⟩ := mem_of_getSyncUnit hok
      obtain ⟨rfl, rfl⟩ := hs
      refine ⟨hbehind, ⟨hinv.honest, hinv.behind.unit u hmem his⟩, hmatched, ?_, hfresh'⟩
      rintro s' ⟨⟩ e he hlt
      exact hkeep (hinv.behind.below u hmem his e he hlt)
  | _ => exact ⟨hbehind, hinv.honest, hmatched, hstart, fun hm => hinv.fresh (hfresh (by simp) hm)⟩

/-- **One command of an execution keeps the invariant.** -/
theorem RereadInv.step (hinv : RereadInv h site c i connectorID w g) {cmd : Cmd}
    (hc : (rereading h site c i connectorID).allowed g cmd)
    (htrue : showing site c x b w cmd) :
    RereadInv h site c i connectorID (service.perform x b w cmd).1
      (g.next h site c i connectorID cmd (service.perform x b w cmd).2) := by
  cases cmd with
  | statement s => exact hinv.statement hc
  | deleteObject bucket key => cases hc
  | request q =>
    have hkept := hinv.congr (service_db x b w (.request q))
    refine { hkept with honest := ⟨hkept.honest, ?_⟩ }
    show site.shows c q (if b = true then .error .canceled else x.answer q)
    split
    · exact fun _ => rfl
    · exact htrue
  | putObject bucket key contentType body => exact hinv.congr (service_db ..)
  | ctxErr => exact hinv.congr (service_db ..)
  | clock => exact hinv.congr (service_db ..)
  | signalWorkflow id sig => exact hinv.congr (service_db ..)

/-- An execution that starts has compared nothing. -/
theorem UpToCursor.init (hup : UpToCursor h site c i connectorID w.db) :
    RereadInv h site c i connectorID w Rereading.init where
  behind := hup
  honest := trivial
  matched := fun y hy => by cases hy
  start := fun s hs => by cases hs
  fresh := fun _ => rfl

/-- Once an execution has caught up, the manifest mirrors the source. -/
theorem RereadInv.mirrors (hinv : RereadInv h site c i connectorID w g)
    (hcaught : g.caughtUp site) : Mirrors h site c i w.db := by
  intro e he
  obtain ⟨s, hs, hmatched⟩ := hcaught hinv.honest
  by_cases hbelow : e.updatedAt < s
  · exact hinv.start s hs e he hbelow
  · exact hinv.matched _ (hmatched e he hbelow)

/-- A command that writes the manifest or object storage. -/
def Cmd.stores : Cmd → Bool
  | .putObject _ _ _ _ | .deleteObject _ _ => true
  | .statement s => s.writesArtifacts
  | _ => false

/-- **In a mirror an execution writes nothing.** -/
theorem RereadInv.not_stores (hinv : RereadInv h site c i connectorID w g)
    (hm : Mirrors h site c i w.db) {cmd : Cmd}
    (hc : (rereading h site c i connectorID).allowed g cmd) : cmd.stores = false := by
  have hfresh := hinv.fresh hm
  cases cmd with
  | putObject bucket key contentType body =>
    rw [hc hinv.honest] at hfresh
    cases hfresh
  | deleteObject bucket key => cases hc
  | statement s =>
    cases s with
    | commitArtifact p unitID cursor =>
      rw [(hc.2.2.1 hinv.honest).1] at hfresh
      cases hfresh
    | _ => first | rfl | cases hc
  | _ => rfl

/-- A command that writes neither leaves both. -/
theorem kept_of_not_stores {cmd : Cmd} (hc : cmd.stores = false) :
    (service.perform x b w cmd).1.db.artifacts = w.db.artifacts ∧
      (service.perform x b w cmd).1.objects = w.objects := by
  rw [service_state]
  split
  · cases cmd with
    | statement s => exact ⟨artifacts_exec _ _ hc, rfl⟩
    | putObject _ _ _ _ => cases hc
    | deleteObject _ _ => cases hc
    | _ => exact ⟨rfl, rfl⟩
  · exact ⟨rfl, rfl⟩

end Keeps

/-! ### Every sequence of executions -/

/-- **A source that has not changed since it was drained costs no write.**  In every sequence
of executions of `SyncUnit` on the unit of a static source, interrupted anywhere, once one of
them has returned that the unit is done the manifest mirrors the source; and from then on no
execution stores or deletes an object or writes a row, so manifest and objects stay as they
are. -/
theorem resync_writes_nothing (a : Activities) (site : Connectors.Site)
    (c : Connectors.Holdings) (i : SyncInput) {connectorID : String} {connector : Connector}
    (hreg : a.reg.get connectorID = some connector) (hsite : connector.syncUnit = site.syncUnit)
    (hdocs : ((site.documents c).map Prod.fst).Nodup) {w : World}
    {es es' : List (SeqEvent Unit Choice)}
    {s s' : Sequential World Unit Cmd Cmd.Resp (Except ActivityError SyncResult)}
    {tr tr' : List (Performed World Choice Cmd)}
    (h : (service.sequential fun _ : Unit => a.syncUnit i).RunWhere
      (fun s _ => SeqMeets (showing site c) s) ⟨w, none⟩ es s tr)
    (hw : UpToCursor a.contentHash site c i connectorID w.db)
    {j : Unit} {b : Bool} {res : SyncResult} (hcur : s.current = some (j, ⟨.pure (.ok res), b⟩))
    (hdone : res.done = true)
    (h' : (service.sequential fun _ : Unit => a.syncUnit i).RunWhere
      (fun s _ => SeqMeets (showing site c) s) s es' s' tr') :
    Mirrors a.contentHash site c i s'.world.db ∧
      s'.world.db.artifacts = s.world.db.artifacts ∧ s'.world.objects = s.world.objects ∧
      ∀ l ∈ tr', l.cmd.stores = false := by
  have hjobs : ∀ _ : Unit, (a.syncUnit i).Follows (rereading a.contentHash site c i connectorID)
      (fun r g => ∀ res, r = .ok res → res.done = true → g.caughtUp site) Rereading.init :=
    fun _ => follows_rereading a hdocs hreg hsite
  -- up to the execution that is done
  obtain ⟨g, hinv, hcurrent⟩ := sequential_follows
    (J := fun w g _ => RereadInv a.contentHash site c i connectorID w g) h hjobs hw.init
    (fun w g tr hinv => hinv.behind.init)
    (fun s tr t j cmd k b g hC hcur hallowed hinv => hinv.step hallowed (hC j cmd k b hcur))
  have hcaught : g.caughtUp site := hcurrent j _ hcur res rfl hdone
  have hmirrors := hinv.mirrors hcaught
  -- from there on
  obtain ⟨g', ⟨-, hm, hrows, hobjects, hquiet⟩, -⟩ := sequential_follows_from
    (J := fun w g (tr : List (Performed World Choice Cmd)) =>
      RereadInv a.contentHash site c i connectorID w g ∧ Mirrors a.contentHash site c i w.db ∧
        w.db.artifacts = s.world.db.artifacts ∧ w.objects = s.world.objects ∧
        ∀ l ∈ tr, l.cmd.stores = false)
    h' hjobs ⟨hinv, hmirrors, rfl, rfl, by simp⟩ hcurrent
    (fun w g tr hJ => ⟨hJ.1.behind.init, hJ.2⟩)
    (fun s₁ tr t j cmd k b g hC hcur hallowed hJ => by
      obtain ⟨hinv, hm, hrows, hobjects, hquiet⟩ := hJ
      have hstores := hinv.not_stores hm hallowed
      obtain ⟨hrows', hobjects'⟩ := kept_of_not_stores (x := t.choice) (b := b || t.cancel)
        (w := s₁.world) hstores
      refine ⟨hinv.step hallowed (hC j cmd k b hcur), ?_, hrows'.trans hrows,
        hobjects'.trans hobjects, fun l hl => ?_⟩
      · intro e he
        unfold Matches
        rw [hrows']
        exact hm e he
      · rcases List.mem_append.mp hl with hl | hl
        · exact hquiet l hl
        · rw [List.mem_singleton.mp hl]
          exact hstores)
  exact ⟨hm, hrows, hobjects, hquiet⟩

/-- A unit that was never synced is up to its cursor, whatever rows the connection has. -/
theorem UpToCursor.of_fresh {h : ContentHash} {site : Connectors.Site} {c : Connectors.Holdings}
    {i : SyncInput} {connectorID : String} {db : Database}
    (hconn : ∃ tenantID externalID,
      db.HasConnection i.connectionID (tenantID, connectorID, externalID))
    (hunit : ∀ u ∈ db.units.rows, u.is i.connectionID i.unitID = true →
      site.fits u.source ∧ u.cursor = "") : UpToCursor h site c i connectorID db where
  connection := hconn
  unit := fun u hu his => (hunit u hu his).1
  below := by
    intro u hu his e _ hlt
    rw [(hunit u hu his).2] at hlt
    exact absurd hlt (List.not_lt_nil _)

/-! ### A Drive that is drained twice -/

/-- The one document exports to nothing. -/
def oneDocHoldings : Connectors.Holdings where
  thread _ := []
  exported _ := []

theorem oneDocAnswers_shown (q : Request) :
    (Connectors.Site.drive newGoogleDocs oneDoc).shows oneDocHoldings q (oneDocAnswers q) := by
  cases q with
  | driveFiles cursor pageSize token => exact ⟨oneDocAnswers_truthful _ _ rfl, trivial⟩
  | driveExport id => exact ⟨trivial, rfl⟩
  | _ => exact fun _ => rfl

/-- One more execution. -/
def drainAgain : List (SeqEvent Unit Choice) :=
  .start () :: List.replicate 19 (.turn ⟨false, quietly oneDocAnswers⟩)

/-- The second drain meets the document again, catches up, and writes nothing. -/
theorem drained_twice :
    ∃ s tr s' tr', (service.sequential fun _ : Unit => driveActivities.syncUnit driveInput).Run
        ⟨freshDrive, none⟩ crashAndDrain s tr ∧
      (service.sequential fun _ : Unit => driveActivities.syncUnit driveInput).Run
        s drainAgain s' tr' ∧
      saysDone s = true ∧ saysDone s' = true ∧
      Mirrors driveActivities.contentHash (.drive newGoogleDocs oneDoc) oneDocHoldings driveInput
        s'.world.db ∧
      s'.world.db.artifacts = s.world.db.artifacts ∧ s'.world.objects = s.world.objects ∧
      ∀ l ∈ tr', l.cmd.stores = false := by
  obtain ⟨s, tr, hrun, hend⟩ := Lts.exists_run_of_any
    (service.sequential fun _ : Unit => driveActivities.syncUnit driveInput)
    ⟨freshDrive, none⟩ crashAndDrain
    (fun s _ => saysDone s &&
      ((service.sequential fun _ : Unit => driveActivities.syncUnit driveInput).exec
        (fun _ _ _ => true) s [] drainAgain).any fun r => saysDone r.1) (by decide +kernel)
  obtain ⟨hdone, hagain⟩ := Bool.and_eq_true_iff.mp hend
  obtain ⟨s', tr', hrun', hdone'⟩ := Lts.exists_run_of_any _ _ _ (fun s _ => saysDone s) hagain
  -- every event of the runs is a start or a turn, and the source shows its document
  have htrue : ∀ e ∈ crashAndDrain ++ drainAgain,
      ∀ (s : Sequential World Unit Cmd Cmd.Resp (Except ActivityError SyncResult))
        (_ : List (Performed World Choice Cmd)),
      SeqMeets (showing (.drive newGoogleDocs oneDoc) oneDocHoldings) s e := by
    intro e he s _
    have hturn : e = .start () ∨ e = .turn ⟨false, quietly oneDocAnswers⟩ := by
      simp only [crashAndDrain, drainAgain, List.mem_append, List.mem_cons,
        List.mem_replicate] at he
      tauto
    rcases hturn with rfl | rfl
    · trivial
    · intro j cmd k b _
      cases cmd with
      | request q => exact oneDocAnswers_shown q
      | _ => trivial
  have hreg : driveActivities.reg.get "gdocs" = some newGoogleDocs.connector := by
    simp [driveActivities, Registry.get, GoogleDocs.connector]
  have hbehind : UpToCursor driveActivities.contentHash (.drive newGoogleDocs oneDoc)
      oneDocHoldings driveInput "gdocs" freshDrive.db := by
    refine .of_fresh ⟨"acme", "ann@acme", ?_⟩ fun u hu _ => ⟨trivial, ?_⟩
    · unfold Database.HasConnection
      decide +kernel
    · have hcursors : ∀ u ∈ freshDrive.db.units.rows, u.cursor = "" := by decide +kernel
      exact hcursors u hu
  refine ⟨s, tr, s', tr', hrun, hrun', hdone, hdone', ?_⟩
  unfold saysDone at hdone
  split at hdone
  · rename_i j res b hcur
    exact resync_writes_nothing driveActivities (.drive newGoogleDocs oneDoc) oneDocHoldings
      driveInput hreg rfl (by decide)
      (hrun.of_events fun e he => htrue e (List.mem_append_left _ he)) hbehind hcur hdone
      (hrun'.of_events fun e he => htrue e (List.mem_append_right _ he))
  · cases hdone

end Hivebook
