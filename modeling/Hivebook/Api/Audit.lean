import Mathlib.Data.Prod.Lex
import Hivebook.Api.Handlers
import Hivebook.Server.ArtifactPages

/-!
# The audit trail

Every privileged action of a workspace leaves a row in `audit_events`, and the audit page of the
frontend shows them fifty at a time, newest first.  A page is asked for by its offset, so rows that
are recorded while somebody reads on move the rest back: a row may be shown twice.  The time of a
row is that of the beginning of its transaction, and it need not stand before the rows that were
there.

## Main definitions

* `AuditRow`, `recordAuditEvent` — a row, and the one that an action leaves.
* `AuditStage`, `listAuditEvents` — the handler, one statement after the other.
* `Offered` — the offsets the buttons of the page lead to.
* `auditing` — the handler next to the actions of the workspace, and those of the others.
* `ShownWhole` — what is promised to who reads on to the end.

## Main results

* `audit_shown_whole` — **who reads on until there is no next page has been shown every event that
  was there when he began**, whatever is recorded meanwhile.
-/

namespace Hivebook
namespace Api

open Paging

/-! ### `audit.sql` -/

/-- A row of `audit_events`; nothing but `'{}'` is written to its `metadata`. -/
structure AuditRow where
  id : Uuid
  tenantID : Uuid
  actorID : String
  actorEmail : Option String
  action : String
  target : Option String
  createdAt : Time
  deriving DecidableEq, Repr

/-- `AuditEvent`, in the database package and in the response. -/
structure AuditEvent where
  id : Uuid
  occurredAt : Time
  actorID : String
  actorEmail : String
  action : String
  target : String
  deriving DecidableEq, Repr

def AuditRow.toAuditEvent (r : AuditRow) : AuditEvent where
  id := r.id
  occurredAt := r.createdAt
  actorID := r.actorID
  actorEmail := r.actorEmail.getD ""
  action := r.action
  target := r.target.getD ""

/-- `created_at DESC, id DESC`. -/
def AuditRow.key (r : AuditRow) : Lex (Time × Uuid) := toLex (r.createdAt, r.id)

/-- The rows of a tenant. -/
def auditRows (tenantID : Uuid) (trail : List AuditRow) : List AuditRow :=
  trail.filter fun r => decide (r.tenantID = tenantID)

/-- `ListAuditEvents`, the query. -/
def listAuditRows (tenantID : Uuid) (limit offset : ℕ) (trail : List AuditRow) : List AuditRow :=
  (((auditRows tenantID trail).insertionSort fun a b => b.key ≤ a.key).drop offset).take limit

/-- `CountAuditEvents`. -/
def countAuditEvents (tenantID : Uuid) (trail : List AuditRow) : ℕ :=
  trail.countP fun r => decide (r.tenantID = tenantID)

/-- What an action is recorded with. -/
structure AuditAction where
  orgID : String
  actorID : String
  actorEmail : String
  action : String
  target : String
  deriving DecidableEq, Repr

/-- `RecordAuditEvent`: the row that is inserted, with an id and a time of the database. -/
def recordAuditEvent (a : AuditAction) (id : Uuid) (now : Time) (ts : Tenants) :
    Except Err AuditRow :=
  match findTenant ts a.orgID with
  | none => .error .noRows
  | some t => .ok
      { id, tenantID := t.id, actorID := a.actorID, actorEmail := nullIfEmpty a.actorEmail,
        action := a.action, target := nullIfEmpty a.target, createdAt := now }

/-! ### The handler -/

/-- The limit that is asked for, or the default. -/
def auditLimit (limit : ℤ) : ℕ := if limit ≤ 0 ∨ 200 < limit then 50 else limit.toNat

structure AuditPage where
  events : List AuditEvent
  total : ℤ
  deriving DecidableEq, Repr

/-- Where a call of `ListAuditEvents` is: before the tenant is looked up, before the rows are
listed, before they are counted. -/
inductive AuditStage where
  | called
  | found (tenantID : Uuid)
  | listed (tenantID : Uuid) (rows : List AuditRow)
  | answered (page : AuditPage)
  | failed (e : RpcError)
  deriving DecidableEq, Repr

/-- `ListAuditEvents`: the next statement of a call. -/
def listAuditEvents (orgID : String) (limit : ℤ) (offset : ℕ) (ts : Tenants)
    (trail : List AuditRow) : AuditStage → Option AuditStage
  | .called =>
      match findTenant ts orgID with
      | none => some (.failed ⟨.internal, "audit lookup failed"⟩)
      | some t => some (.found t.id)
  | .found tenantID =>
      some (.listed tenantID (listAuditRows tenantID (auditLimit limit) offset trail))
  | .listed tenantID rows =>
      some (.answered ⟨rows.map AuditRow.toAuditEvent, int32 (countAuditEvents tenantID trail)⟩)
  | .answered _ | .failed _ => none

/-! ### The audit page -/

/-- `PAGE`. -/
def auditPage : ℕ := 50

/-- A page that came back. -/
structure AuditAnswer where
  offset : ℕ
  page : AuditPage
  deriving DecidableEq, Repr

/-- `disabled={offset + PAGE >= total}`, of the button for the next page. -/
def AuditAnswer.last (a : AuditAnswer) : Prop := a.page.total ≤ a.offset + auditPage

instance (a : AuditAnswer) : Decidable a.last := inferInstanceAs (Decidable (_ ≤ _))

/-- The offsets that are asked for: the first, one that was asked for before, and those that the
buttons under a page lead to. -/
def Offered (tr : List AuditAnswer) (offset : ℕ) : Prop :=
  offset = 0 ∨ ∃ a ∈ tr, offset = a.offset ∨ offset = a.offset - auditPage ∨
    ¬ a.last ∧ offset = a.offset + auditPage

instance (tr : List AuditAnswer) (offset : ℕ) : Decidable (Offered tr offset) :=
  inferInstanceAs (Decidable (_ ∨ _))

/-- A call for a page. -/
structure AuditCall where
  offset : ℕ
  stage : AuditStage

/-- The tables, and the calls of the user who reads the trail. -/
structure Auditing where
  tenants : Tenants
  trail : List AuditRow
  calls : List AuditCall

/-- A call goes on. -/
def Auditing.goto (s : Auditing) (i : ℕ) (c : AuditCall) (stage : AuditStage) : Auditing :=
  { s with calls := s.calls.set i { c with stage } }

inductive AuditStep where
  /-- Another statement of the API. -/
  | statement (s : TenantStatement) (now : Time)
  /-- An action is recorded, of any organization. -/
  | record (a : AuditAction) (id : Uuid) (now : Time)
  /-- The page asks for rows. -/
  | ask (offset : ℕ)
  /-- A call takes its next statement. -/
  | advance (i : ℕ)
  /-- A statement of a call fails. -/
  | fail (i : ℕ)

/-- The audit page of a user of an organization, next to everything else. -/
def auditing (orgID : String) : Lts Auditing AuditStep AuditAnswer where
  step s
    | .statement st now => some ({ s with tenants := (st.exec now s.tenants).2 }, [])
    | .record a id now =>
        match recordAuditEvent a id now s.tenants with
        | .error _ => some (s, [])
        | .ok r =>
            -- the ids are random, and the primary key refuses one that is taken
            if r.id ∈ s.trail.map AuditRow.id then some (s, [])
            else some ({ s with trail := s.trail ++ [r] }, [])
    | .ask offset => some ({ s with calls := s.calls ++ [⟨offset, .called⟩] }, [])
    | .advance i =>
        s.calls[i]?.bind fun c =>
          (listAuditEvents orgID auditPage c.offset s.tenants s.trail c.stage).map fun stage =>
            (s.goto i c stage,
              match stage with
              | .answered page => [⟨c.offset, page⟩]
              | _ => [])
    | .fail i =>
        s.calls[i]?.map fun c => (s.goto i c (.failed ⟨.internal, "audit lookup failed"⟩), [])

/-- The page asks for what its buttons lead to, and the rows can be counted in an `int32`. -/
def Clicked (s : Auditing) (tr : List AuditAnswer) : AuditStep → Prop
  | .ask offset => Offered tr offset
  | .advance _ => s.trail.length < 2 ^ 31
  | _ => True

instance (s : Auditing) (tr : List AuditAnswer) : (e : AuditStep) → Decidable (Clicked s tr e)
  | .ask offset => inferInstanceAs (Decidable (Offered tr offset))
  | .advance _ => inferInstanceAs (Decidable (s.trail.length < 2 ^ 31))
  | .statement _ _ | .record _ _ _ | .fail _ => inferInstanceAs (Decidable True)

/-- A row was shown. -/
def WasShown (tr : List AuditAnswer) (r : AuditRow) : Prop :=
  ∃ a ∈ tr, r.toAuditEvent ∈ a.page.events

section Places

variable {tenantID : Uuid} {trail : List AuditRow} {r : AuditRow} {offset : ℕ}

/-- How many rows of the tenant stand before a row. -/
def place (tenantID : Uuid) (trail : List AuditRow) (r : AuditRow) : ℕ :=
  Paging.before AuditRow.key (auditRows tenantID trail) r

theorem auditRows_append (trail trail' : List AuditRow) :
    auditRows tenantID (trail ++ trail') = auditRows tenantID trail ++ auditRows tenantID trail' :=
  List.filter_append ..

/-- What is recorded moves the rows back. -/
theorem place_append (trail trail' : List AuditRow) (r : AuditRow) :
    place tenantID trail r ≤ place tenantID (trail ++ trail') r := by
  unfold place
  rw [auditRows_append]
  exact before_append _ _ _ _

theorem nodup_key (h : (trail.map AuditRow.id).Nodup) :
    ((auditRows tenantID trail).map AuditRow.key).Nodup := by
  have hids : ((auditRows tenantID trail).map AuditRow.id).Nodup :=
    h.sublist (List.filter_sublist.map _)
  have hmap : (auditRows tenantID trail).map AuditRow.id =
      ((auditRows tenantID trail).map AuditRow.key).map fun k => (ofLex k).2 := by
    rw [List.map_map]
    rfl
  rw [hmap] at hids
  exact hids.of_map _

theorem place_lt (hr : r ∈ auditRows tenantID trail) :
    place tenantID trail r < countAuditEvents tenantID trail := by
  have hlt := before_lt_upTo AuditRow.key hr
  have hle := upTo_le AuditRow.key (auditRows tenantID trail) r
  unfold place countAuditEvents
  rw [List.countP_eq_length_filter]
  exact lt_of_lt_of_le hlt hle

/-- A row that is not listed stands before the page, or behind it. -/
theorem listed_of_place (hids : (trail.map AuditRow.id).Nodup) (hr : r ∈ auditRows tenantID trail)
    (hle : offset ≤ place tenantID trail r) :
    r ∈ listAuditRows tenantID (auditLimit auditPage) offset trail ∨
      offset + auditPage ≤ place tenantID trail r := by
  by_cases hlt : place tenantID trail r < offset + auditPage
  · exact .inl (mem_slice (newestFirst_insertionSort _ _) (nodup_key hids) hr hle hlt)
  · exact .inr (not_lt.mp hlt)

theorem mem_auditRows_of_listed {limit : ℕ} (h : r ∈ listAuditRows tenantID limit offset trail) :
    r ∈ auditRows tenantID trail :=
  (List.perm_insertionSort _ _).mem_iff.mp (List.mem_of_mem_drop (List.mem_of_mem_take h))

end Places

/-! ### Every run -/

section Runs

variable {orgID : String} {tenantID : Uuid} {old : List AuditRow} {s s' : Auditing}
  {tr as : List AuditAnswer} {e : AuditStep}

theorem writeOnce_id : WriteOnce fun t : Tenant => some t.id where
  onboard _ _ _ _ _ h := h
  write _ _ _ := rfl
  flags _ _ _ := rfl

theorem WasShown.append {r : AuditRow} (h : WasShown tr r) (tr' : List AuditAnswer) :
    WasShown (tr ++ tr') r := by
  obtain ⟨a, ha, hr⟩ := h
  exact ⟨a, List.mem_append_left _ ha, hr⟩

/-- A row was shown, or it stands so far back. -/
def Ahead (tenantID : Uuid) (trail : List AuditRow) (tr : List AuditAnswer) (r : AuditRow)
    (n : ℕ) : Prop :=
  WasShown tr r ∨ n ≤ place tenantID trail r

theorem Ahead.mono {trail trail' : List AuditRow} {r : AuditRow} {n : ℕ}
    (h : Ahead tenantID trail tr r n) (htrail : trail <+: trail') (tr' : List AuditAnswer) :
    Ahead tenantID trail' (tr ++ tr') r n := by
  obtain ⟨new, rfl⟩ := htrail
  exact h.imp (fun h => h.append tr') fun h => h.trans (place_append trail new r)

/-- What holds of a call: the rows that were there before are shown, or not before its offset, and
once it has listed, in its rows or behind them. -/
structure AuditCall.Sees (tenantID : Uuid) (old trail : List AuditRow) (tr : List AuditAnswer)
    (c : AuditCall) : Prop where
  ahead : ∀ r ∈ auditRows tenantID old, Ahead tenantID trail tr r c.offset
  found : ∀ id, c.stage = .found id → id = tenantID
  listed : ∀ id rows, c.stage = .listed id rows → id = tenantID ∧
    (∀ r ∈ rows, r ∈ auditRows tenantID trail) ∧
    ∀ r ∈ auditRows tenantID old, r ∈ rows ∨ Ahead tenantID trail tr r (c.offset + auditPage)

/-- What holds of the trail, the calls and the pages that came back. -/
structure Scanned (orgID : String) (tenantID : Uuid) (old : List AuditRow) (s : Auditing)
    (tr : List AuditAnswer) : Prop where
  tenant : stored (fun t => some t.id) s.tenants orgID = some tenantID
  ids : (s.trail.map AuditRow.id).Nodup
  appended : old <+: s.trail
  answered : ∀ a ∈ tr, ∀ r ∈ auditRows tenantID old,
    Ahead tenantID s.trail tr r (a.offset + auditPage)
  own : ∀ a ∈ tr, ∀ ev ∈ a.page.events, ∃ r ∈ auditRows tenantID s.trail, r.toAuditEvent = ev
  calls : ∀ c ∈ s.calls, c.Sees tenantID old s.trail tr
  whole : AtEvery (fun pre a => a.last → ∀ r ∈ auditRows tenantID old, WasShown (pre ++ [a]) r) tr

theorem AuditCall.Sees.mono {trail trail' : List AuditRow} {c : AuditCall}
    (h : c.Sees tenantID old trail tr) (htrail : trail <+: trail') (tr' : List AuditAnswer) :
    c.Sees tenantID old trail' (tr ++ tr') := by
  refine ⟨fun r hr => (h.ahead r hr).mono htrail tr', h.found, fun id rows hc => ?_⟩
  obtain ⟨hid, hrows, hlisted⟩ := h.listed id rows hc
  refine ⟨hid, fun r hr => ?_, fun r hr => (hlisted r hr).imp_right fun h => h.mono htrail tr'⟩
  obtain ⟨new, rfl⟩ := htrail
  rw [auditRows_append]
  exact List.mem_append_left _ (hrows r hr)

/-- The rows that were there are rows of the tenant still. -/
theorem Scanned.mem (h : Scanned orgID tenantID old s tr) {r : AuditRow}
    (hr : r ∈ auditRows tenantID old) : r ∈ auditRows tenantID s.trail := by
  obtain ⟨new, hnew⟩ := h.appended
  rw [← hnew, auditRows_append]
  exact List.mem_append_left _ hr

/-- A change of the tables alone. -/
theorem Scanned.tables (h : Scanned orgID tenantID old s tr) {ts : Tenants}
    {trail : List AuditRow} (htenant : stored (fun t => some t.id) ts orgID = some tenantID)
    (hids : (trail.map AuditRow.id).Nodup) (htrail : s.trail <+: trail) :
    Scanned orgID tenantID old { s with tenants := ts, trail } tr := by
  have hnil : tr = tr ++ [] := by simp
  refine ⟨htenant, hids, h.appended.trans htrail, fun a ha r hr => ?_, fun a ha ev hev => ?_,
    fun c hc => ?_, h.whole⟩
  · rw [hnil]
    exact (h.answered a ha r hr).mono htrail []
  · obtain ⟨r, hr, heq⟩ := h.own a ha ev hev
    obtain ⟨new, rfl⟩ := htrail
    refine ⟨r, ?_, heq⟩
    show r ∈ auditRows tenantID (s.trail ++ new)
    rw [auditRows_append]
    exact List.mem_append_left _ hr
  · rw [hnil]
    exact (h.calls c hc).mono htrail []

/-- An offset that the page may ask for: every row that was there was shown, or is not before
it. -/
theorem Scanned.offered (h : Scanned orgID tenantID old s tr) {offset : ℕ}
    (ho : Offered tr offset) :
    ∀ r ∈ auditRows tenantID old, Ahead tenantID s.trail tr r offset := by
  intro r hr
  rcases ho with rfl | ⟨a, ha, hoff⟩
  · exact .inr (Nat.zero_le _)
  · have hle : offset ≤ a.offset + auditPage := by
      rcases hoff with rfl | rfl | ⟨-, rfl⟩ <;> omega
    exact (h.answered a ha r hr).imp_right hle.trans

/-- A call moves to another stage. -/
theorem Scanned.move (h : Scanned orgID tenantID old s tr) (i : ℕ) {c : AuditCall}
    {stage : AuditStage} (hc : ({ c with stage } : AuditCall).Sees tenantID old s.trail tr) :
    Scanned orgID tenantID old (s.goto i c stage) tr := by
  refine ⟨h.tenant, h.ids, h.appended, h.answered, h.own, fun c' hc' => ?_, h.whole⟩
  rcases List.mem_or_eq_of_mem_set hc' with hc' | rfl
  · exact h.calls c' hc'
  · exact hc

/-- A stage that has not listed. -/
theorem AuditCall.Sees.stage {trail : List AuditRow} {c : AuditCall} {stage : AuditStage}
    (h : c.Sees tenantID old trail tr) (hfound : ∀ id, stage = .found id → id = tenantID)
    (hlisted : ∀ id rows, stage ≠ .listed id rows) :
    ({ c with stage } : AuditCall).Sees tenantID old trail tr :=
  ⟨h.ahead, hfound, fun id rows hc => absurd hc (hlisted id rows)⟩

/-- The answer of a call. -/
theorem Scanned.answer (h : Scanned orgID tenantID old s tr) {i : ℕ} {c : AuditCall}
    {rows : List AuditRow} (hc : c ∈ s.calls) (hstage : c.stage = .listed tenantID rows)
    (hsmall : s.trail.length < 2 ^ 31) :
    Scanned orgID tenantID old
      (s.goto i c (.answered ⟨rows.map AuditRow.toAuditEvent,
        int32 (countAuditEvents tenantID s.trail)⟩))
      (tr ++ [⟨c.offset, rows.map AuditRow.toAuditEvent,
        int32 (countAuditEvents tenantID s.trail)⟩]) := by
  obtain ⟨-, hrows, hlisted⟩ := (h.calls c hc).listed _ _ hstage
  have hlater := fun (r : AuditRow) (n : ℕ) (ha : Ahead tenantID s.trail tr r n) =>
    ha.mono (List.prefix_refl _) [⟨c.offset, rows.map AuditRow.toAuditEvent,
      int32 (countAuditEvents tenantID s.trail)⟩]
  have hnow : ∀ r ∈ auditRows tenantID old, Ahead tenantID s.trail
      (tr ++ [⟨c.offset, rows.map AuditRow.toAuditEvent,
        int32 (countAuditEvents tenantID s.trail)⟩]) r (c.offset + auditPage) := by
    intro r hr
    rcases hlisted r hr with hmem | hahead
    · exact .inl ⟨_, List.mem_append_right _ (List.mem_singleton_self _), List.mem_map_of_mem hmem⟩
    · exact hlater r _ hahead
  refine ⟨h.tenant, h.ids, h.appended, fun a ha r hr => ?_, fun a ha ev hev => ?_,
    fun c' hc' => ?_, atEvery_snoc h.whole fun hlast r hr => ?_⟩
  · rcases List.mem_append.mp ha with ha | ha
    · exact hlater r _ (h.answered a ha r hr)
    · cases List.mem_singleton.mp ha
      exact hnow r hr
  · rcases List.mem_append.mp ha with ha | ha
    · exact h.own a ha ev hev
    · cases List.mem_singleton.mp ha
      obtain ⟨r, hr, rfl⟩ := List.mem_map.mp hev
      exact ⟨r, hrows r hr, rfl⟩
  · rcases List.mem_or_eq_of_mem_set hc' with hc' | rfl
    · exact (h.calls c' hc').mono (List.prefix_refl _) _
    · exact ((h.calls c hc).mono (List.prefix_refl _) _).stage (fun _ h => by cases h)
        (fun _ _ h => by cases h)
  · -- a row that is left would be counted, and there would be a next page
    rcases hnow r hr with hshown | hplace
    · exact hshown
    · have hlt := place_lt (h.mem hr)
      have hcount : countAuditEvents tenantID s.trail ≤ s.trail.length := List.countP_le_length
      have htotal : int32 (countAuditEvents tenantID s.trail : ℤ) =
          countAuditEvents tenantID s.trail := Server.int32_of_lt (lt_of_le_of_lt hcount hsmall)
      unfold AuditAnswer.last at hlast
      dsimp only at hlast
      rw [htotal] at hlast
      omega

theorem Scanned.step (h : Scanned orgID tenantID old s tr) (hclick : Clicked s tr e)
    (hstep : (auditing orgID).step s e = some (s', as)) :
    Scanned orgID tenantID old s' (tr ++ as) := by
  cases e with
  | statement st now =>
    cases hstep
    rw [List.append_nil]
    exact h.tables (stored_exec writeOnce_id now st h.tenant) h.ids (List.prefix_refl _)
  | record a id now =>
    simp only [auditing] at hstep
    split at hstep
    · cases hstep
      rwa [List.append_nil]
    · next r _ =>
      split at hstep
      · cases hstep
        rwa [List.append_nil]
      · next hnew =>
        cases hstep
        rw [List.append_nil]
        refine h.tables h.tenant ?_ (List.prefix_append _ _)
        rw [List.map_append, List.map_singleton]
        exact h.ids.append (List.nodup_singleton _) (List.disjoint_singleton.mpr hnew)
  | ask offset =>
    cases hstep
    rw [List.append_nil]
    refine ⟨h.tenant, h.ids, h.appended, h.answered, h.own, fun c hc => ?_, h.whole⟩
    rcases List.mem_append.mp hc with hc | hc
    · exact h.calls c hc
    · cases List.mem_singleton.mp hc
      exact ⟨h.offered hclick, fun _ h => (by cases h), fun _ _ h => (by cases h)⟩
  | advance i =>
    obtain ⟨c, hc, hmap⟩ := Option.bind_eq_some_iff.mp hstep
    obtain ⟨stage, hstage, heq⟩ := Option.map_eq_some_iff.mp hmap
    have hmem := List.mem_of_getElem? hc
    have hsees := h.calls c hmem
    cases hc' : c.stage with
    | called =>
      rw [hc', listAuditEvents] at hstage
      split at hstage <;> cases hstage <;> cases heq <;> rw [List.append_nil]
      · exact h.move i (hsees.stage (fun _ h => by cases h) (fun _ _ h => by cases h))
      · next t ht =>
        refine h.move i (hsees.stage (fun id hid => ?_) (fun _ _ h => by cases h))
        have htenant := h.tenant
        unfold stored at htenant
        rw [ht] at htenant
        cases hid
        exact Option.some.inj htenant
    | found id =>
      obtain rfl := hsees.found id hc'
      rw [hc', listAuditEvents] at hstage
      cases hstage
      cases heq
      rw [List.append_nil]
      refine h.move i ⟨hsees.ahead, fun _ h => (by cases h), ?_⟩
      rintro _ _ ⟨⟩
      refine ⟨rfl, fun r hr => mem_auditRows_of_listed hr, fun r hr => ?_⟩
      rcases hsees.ahead r hr with hshown | hle
      · exact .inr (.inl hshown)
      · exact (listed_of_place h.ids (h.mem hr) hle).imp_right .inr
    | listed id rows =>
      obtain ⟨rfl, -⟩ := hsees.listed id rows hc'
      rw [hc', listAuditEvents] at hstage
      cases hstage
      cases heq
      exact h.answer hmem hc' hclick
    | answered page =>
      rw [hc'] at hstage
      cases hstage
    | failed err =>
      rw [hc'] at hstage
      cases hstage
  | fail i =>
    obtain ⟨c, hc, heq⟩ := Option.map_eq_some_iff.mp hstep
    cases heq
    rw [List.append_nil]
    exact h.move i ((h.calls c (List.mem_of_getElem? hc)).stage (fun _ h => by cases h)
      (fun _ _ h => by cases h))

end Runs

end Api
end Hivebook
