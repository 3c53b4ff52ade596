import Hivebook.Service.Discovery
import Hivebook.Service.Draining

/-!
# A repository that changes while it is paged

The pages of a repository are asked for by number, over a listing that shifts under the
reader: an update takes an issue from its place and puts it at the end.  When an issue of
a page that was served already is updated before the next page is asked for, what follows
it moves up by one, and the first issue of the next page is never served.  The cursor
moves past it.

As long as that does not happen the cursor stays a high-water mark, whatever else is
updated, however often, and wherever the executions are interrupted.

## Main definitions

* `Repo.touch` — an issue is updated, or opened.
* `live` — the machine of the service next to a repository that changes.
* `servedCall` — the issues the running execution was served; `undisturbed` — they are as
  they were when the next page is asked for.

## Main results

* `no_issue_skipped` — **in every run that is undisturbed, every issue updated before the
  persisted cursor has a row.**
* `shifted_issue_skipped` — one update between two pages, and an issue is skipped.
-/

namespace Hivebook

open Database Machine Connectors

/-! ### A repository that changes -/

namespace Connectors.Repo

/-- The time is after every update. -/
def beyond (r : Repo) (t : String) : Prop := ∀ y ∈ r.issues, y.2.updatedAt < t

instance (r : Repo) (t : String) : Decidable (r.beyond t) :=
  inferInstanceAs (Decidable (∀ y ∈ r.issues, y.2.updatedAt < t))

/-- What is left of an ascending list stays so when something later is appended. -/
theorem ascending_touch {l : List (Bytes × GhIssue)} {x : Bytes × GhIssue}
    (h : l.Pairwise fun a b => a.2.updatedAt ≤ b.2.updatedAt) (p : Bytes × GhIssue → Bool)
    (hx : ∀ y ∈ l, y.2.updatedAt < x.2.updatedAt) :
    (l.filter p ++ [x]).Pairwise fun a b => a.2.updatedAt ≤ b.2.updatedAt := by
  refine List.pairwise_append.mpr ⟨h.filter _, List.pairwise_singleton _ _, fun y hy z hz => ?_⟩
  rw [List.mem_singleton.mp hz]
  exact fun hlt => String.lt_irrefl _ (String.lt_trans hlt (hx y (List.mem_filter.mp hy).1))

/-- An issue is updated, or opened: its last update is after all others, so it moves to the
end of the listing. -/
def touch (r : Repo) (x : Bytes × GhIssue) : Repo :=
  if h : r.beyond x.2.updatedAt then
    { name := r.name
      issues := (r.issues.filter fun y => decide (y.2.number ≠ x.2.number)) ++ [x]
      ascending := ascending_touch r.ascending _ h }
  else r

/-- Several updates, one after the other. -/
def touched (r : Repo) (xs : List (Bytes × GhIssue)) : Repo := xs.foldl touch r

/-- The issues of a page, by its number. -/
def slice (r : Repo) (cursor : String) (perPage page : ℕ) : List (Bytes × GhIssue) :=
  ((r.since cursor).drop ((page - 1) * perPage)).take perPage

variable {r : Repo} {x y : Bytes × GhIssue} {t : String}

theorem touch_of_beyond (h : r.beyond x.2.updatedAt) : (r.touch x).issues =
    (r.issues.filter fun y => decide (y.2.number ≠ x.2.number)) ++ [x] := by
  rw [touch, dif_pos h]

theorem touch_of_not (h : ¬ r.beyond x.2.updatedAt) : r.touch x = r := dif_neg h

@[simp] theorem touch_name (r : Repo) (x : Bytes × GhIssue) : (r.touch x).name = r.name := by
  unfold touch
  split <;> rfl

/-- Where an issue comes from. -/
theorem mem_touch (h : y ∈ (r.touch x).issues) :
    y ∈ r.issues ∨ (y = x ∧ r.beyond x.2.updatedAt) := by
  by_cases hx : r.beyond x.2.updatedAt
  · rw [touch_of_beyond hx, List.mem_append, List.mem_singleton] at h
    rcases h with h | h
    · exact Or.inl (List.mem_filter.mp h).1
    · exact Or.inr ⟨h, hx⟩
  · rw [touch_of_not hx] at h
    exact Or.inl h

/-- The clock of a repository does not go back. -/
theorem beyond_of_touch (h : (r.touch x).beyond t) : r.beyond t := by
  by_cases hx : r.beyond x.2.updatedAt
  · have hlast : x.2.updatedAt < t := by
      apply h x
      rw [touch_of_beyond hx]
      simp
    intro y hy
    exact String.lt_trans (hx y hy) hlast
  · rw [touch_of_not hx] at h
    exact h

theorem mem_items {name : String} {l : List (Bytes × GhIssue)} {e : Item} :
    e ∈ items name l ↔ ∃ y ∈ l, y.2.pullRequest = false ∧
      (⟨name ++ "#" ++ toString y.2.number, y.2.updatedAt⟩ : Item) = e := by
  simp only [items, List.mem_map, List.mem_filter, Bool.not_eq_true', and_assoc]

/-- The issues are the head of the listing, unless one of them was updated. -/
def heads (r : Repo) (cursor : String) (xs : List (Bytes × GhIssue)) : Prop :=
  (∀ y ∈ xs, y ∈ r.issues) → xs <+: r.since cursor

/-- **An update behind the head leaves the head in place**, and an update of the head shows. -/
theorem heads_touch {cursor : String} {xs : List (Bytes × GhIssue)} (h : r.heads cursor xs)
    (hpast : ∀ y ∈ xs, ∀ t, r.beyond t → y.2.updatedAt < t) : (r.touch x).heads cursor xs := by
  intro hall
  by_cases hx : r.beyond x.2.updatedAt
  · -- the issue that moved is none of the head
    have hkept : ∀ y ∈ xs, y ∈ r.issues.filter fun y => decide (y.2.number ≠ x.2.number) := by
      intro y hy
      have hmem := hall y hy
      rw [touch_of_beyond hx, List.mem_append, List.mem_singleton] at hmem
      rcases hmem with hmem | rfl
      · exact hmem
      · exact absurd (hpast y hy _ hx) (String.lt_irrefl _)
    have hpre := h fun y hy => (List.mem_filter.mp (hkept y hy)).1
    have hsame : (xs.filter fun y => decide (y.2.number ≠ x.2.number)) = xs :=
      List.filter_eq_self.mpr fun y hy => (List.mem_filter.mp (hkept y hy)).2
    rw [since, touch_of_beyond hx, List.filter_append, ← hsame]
    refine List.IsPrefix.trans (hpre.filter _) ?_
    rw [since, List.filter_filter, List.filter_filter]
    simp only [Bool.and_comm]
    exact List.prefix_append _ _
  · rw [touch_of_not hx] at hall ⊢
    exact h hall

/-- The page after the head of a listing. -/
theorem head_append_slice {cursor : String} {perPage pages : ℕ} {xs : List (Bytes × GhIssue)}
    (h : xs <+: r.since cursor) (hlen : xs.length = pages * perPage) :
    xs ++ r.slice cursor perPage (pages + 1) = (r.since cursor).take ((pages + 1) * perPage) := by
  rw [slice, Nat.add_sub_cancel, Nat.add_mul, Nat.one_mul, List.take_add, ← hlen,
    ← List.prefix_iff_eq_take.mp h]

/-- The entries of a page are those of its issues. -/
theorem entries_page (cursor : String) (perPage page : ℕ) :
    (Request.issues r.name perPage page cursor).entries (r.page cursor perPage page) =
      ((r.slice cursor perPage page).filter fun y => !y.2.pullRequest).map fun y =>
        issueEntry r.name y.2 := by
  show (List.map _ (r.slice cursor perPage page)).filterMap _ = _
  generalize r.slice cursor perPage page = xs
  induction xs with
  | nil => rfl
  | cons y xs ih =>
    rw [List.map_cons, List.filterMap_cons, ih, List.filter_cons]
    unfold RawIssue.entry
    rw [Option.bind_some]
    cases y.2.pullRequest <;> rfl

end Connectors.Repo

/-! ### The service next to it -/

/-- The world of the service, and the repository. -/
structure Scene where
  world : World
  repo : Repo

/-- What the environment decides about one command: the updates before it is performed, and
how it fares. -/
structure Moment where
  updates : List (Bytes × GhIssue)
  choice : Choice

/-- A request for a page of the repository that is answered at all is answered by the page as
it is. -/
def Connectors.Repo.serves (r : Repo) (x : Choice) : Choice :=
  { x with answer := fun
      | .issues repo perPage page since =>
          (x.answer (.issues repo perPage page since)).map fun raws =>
            if repo = r.name then r.page since perPage page else raws
      | q => x.answer q }

/-- The repository changes, then the command is performed. -/
def live : Machine Scene Moment Cmd Cmd.Resp where
  perform x cancelled s c :=
    let repo := s.repo.touched x.updates
    let r := service.perform (repo.serves x.choice) cancelled s.world c
    (⟨r.1, repo⟩, r.2)

/-- The page of the repository that a command was served, by its number and its issues. -/
def servedSlice (l : Performed Scene Moment Cmd) : Option (ℕ × List (Bytes × GhIssue)) :=
  let repo := l.state.repo.touched l.choice.updates
  match l.cmd with
  | .request (.issues name perPage page since) =>
      if !l.cancelled && decide (name = repo.name) then
        match l.choice.choice.answer (.issues name perPage page since) with
        | .ok _ => some (page, repo.slice since perPage page)
        | .error _ => none
      else none
  | _ => none

/-- A page is added to those served; the first page starts over. -/
def addSlice (served : List (Bytes × GhIssue)) : Option (ℕ × List (Bytes × GhIssue)) →
    List (Bytes × GhIssue)
  | none => served
  | some (page, xs) => if page = 1 then xs else served ++ xs

theorem addSlice_some (served xs : List (Bytes × GhIssue)) (page : ℕ) :
    addSlice served (some (page, xs)) = if page = 1 then xs else served ++ xs := rfl

/-- The issues that the running execution was served. -/
def servedCall (tr : List (Performed Scene Moment Cmd)) : List (Bytes × GhIssue) :=
  tr.foldl (fun served l => addSlice served (servedSlice l)) []

theorem servedCall_snoc (tr : List (Performed Scene Moment Cmd)) (l : Performed Scene Moment Cmd) :
    servedCall (tr ++ [l]) = addSlice (servedCall tr) (servedSlice l) := by
  rw [servedCall, List.foldl_append]
  rfl

/-- When a further page is asked for, no issue of the pages before it was updated since it
was served. -/
def undisturbed (tr : List (Performed Scene Moment Cmd)) (x : Moment) (_ : Bool) (s : Scene) :
    Cmd → Bool
  | .request (.issues _ _ page _) => decide (page = 1) ||
      (servedCall tr).all fun y => decide (y ∈ (s.repo.touched x.updates).issues)
  | _ => true

/-! ### The invariant -/

/-- Every issue updated before the cursor has a row, and no update is yet to come before
it. -/
structure Covers (i : SyncInput) (db : Database) (r : Repo) (cursor : String) : Prop where
  rows : ∀ e ∈ Repo.items r.name r.issues, e.updatedAt < cursor → HasRow i db e
  past : ∀ t, r.beyond t → cursor ≤ t

/-- The connection is of the connector, and its unit is the repository, up to the cursor. -/
structure Behind (i : SyncInput) (connectorID : String) (s : Scene) : Prop where
  connection : ∃ tenantID externalID,
    s.world.db.HasConnection i.connectionID (tenantID, connectorID, externalID)
  fits : ∀ u ∈ s.world.db.units.rows, u.is i.connectionID i.unitID = true →
    u.source.id = s.repo.name ∧ u.source.kind ≠ "github_project"
  covers : ∀ u ∈ s.world.db.units.rows, u.is i.connectionID i.unitID = true →
    Covers i s.world.db s.repo u.cursor

/-- The item has a row, or is on the page, or comes after it. -/
def Draining.meets (d : Draining) (i : SyncInput) (e : Item) : Prop :=
  (i.connectionID, e.externalID) ∈ d.known ∨
    (∃ e' ∈ d.page, e'.externalID = e.externalID ∧ e'.cursor ≤ e.updatedAt) ∨
      ∀ e' ∈ d.page, e'.cursor ≤ e.updatedAt

/-- The issue is a pull request, or has a row, or is on the page. -/
def Draining.handles (d : Draining) (i : SyncInput) (r : Repo) (y : Bytes × GhIssue) : Prop :=
  y.2.pullRequest = true ∨ (i.connectionID, (issueEntry r.name y.2).externalID) ∈ d.known ∨
    issueEntry r.name y.2 ∈ d.page

/-- What holds between two commands of an execution, and between two updates. -/
structure PagingInv (g : GitHub) (i : SyncInput) (connectorID : String) (s : Scene) (d : Draining)
    (xs : List (Bytes × GhIssue)) : Prop where
  behind : Behind i connectorID s
  honest : d.honest
  known : ∀ k ∈ d.known, k ∈ s.world.db.artifacts.rows.map RawArtifact.key
  /-- Of the unit, as it was read, the same holds as of its row. -/
  unit : ∀ u, d.unit = some u →
    (u.source.id = s.repo.name ∧ u.source.kind ≠ "github_project") ∧
      Covers i s.world.db s.repo u.cursor
  read : d.page = [] ∨ ∃ u, d.unit = some u
  served : ∀ y ∈ xs, ∀ t, s.repo.beyond t → y.2.updatedAt < t
  page : ∀ e ∈ d.page, ∃ y ∈ xs, e.cursor = y.2.updatedAt
  sorted : d.page.Pairwise fun e e' => e.cursor ≤ e'.cursor
  seen : ∀ u, d.unit = some u → ∀ e ∈ Repo.items s.repo.name s.repo.issues,
    u.cursor ≤ e.updatedAt → d.meets i e
  handled : 0 < d.pages → ∀ y ∈ xs, d.handles i s.repo y
  head : 0 < d.pages → ∀ u, d.unit = some u → s.repo.heads u.cursor xs
  full : 0 < d.pages → d.more = true → xs.length = d.pages * g.pageSize

section Invariant

variable {g : GitHub} {i : SyncInput} {connectorID : String} {s : Scene} {d : Draining}
  {xs : List (Bytes × GhIssue)}

/-- An item of a repository that was touched is an old one, or the latest of all. -/
theorem item_touch {r : Repo} {x : Bytes × GhIssue} {e : Item}
    (he : e ∈ Repo.items (r.touch x).name (r.touch x).issues) :
    e ∈ Repo.items r.name r.issues ∨ r.beyond e.updatedAt := by
  rw [Repo.touch_name, Repo.mem_items] at he
  obtain ⟨y, hy, hpull, rfl⟩ := he
  rcases Repo.mem_touch hy with hold | ⟨rfl, hbeyond⟩
  · exact Or.inl (Repo.mem_items.mpr ⟨y, hold, hpull, rfl⟩)
  · exact Or.inr hbeyond

theorem Covers.touch {db : Database} {r : Repo} {cursor : String} (h : Covers i db r cursor)
    (x : Bytes × GhIssue) : Covers i db (r.touch x) cursor := by
  refine ⟨fun e he hlt => ?_, fun t ht => h.past t (Repo.beyond_of_touch ht)⟩
  rcases item_touch he with hold | hbeyond
  · exact h.rows e hold hlt
  · exact absurd hlt (h.past _ hbeyond)

/-- **An update keeps the invariant.** -/
theorem PagingInv.touch (hinv : PagingInv g i connectorID s d xs) (x : Bytes × GhIssue) :
    PagingInv g i connectorID ⟨s.world, s.repo.touch x⟩ d xs where
  behind :=
    { connection := hinv.behind.connection
      fits := by
        intro u hu his
        rw [Repo.touch_name]
        exact hinv.behind.fits u hu his
      covers := fun u hu his => (hinv.behind.covers u hu his).touch x }
  honest := hinv.honest
  known := hinv.known
  unit := by
    intro u hu
    rw [Repo.touch_name]
    exact ⟨(hinv.unit u hu).1, (hinv.unit u hu).2.touch x⟩
  read := hinv.read
  served := fun y hy t ht => hinv.served y hy t (Repo.beyond_of_touch ht)
  page := hinv.page
  sorted := hinv.sorted
  seen := by
    intro u hu e he hle
    rcases item_touch he with hold | hbeyond
    · exact hinv.seen u hu e hold hle
    · -- what was just updated comes after everything that was served
      refine Or.inr (Or.inr fun e' he' hlt => ?_)
      obtain ⟨y, hy, hcursor⟩ := hinv.page e' he'
      have hbefore := hinv.served y hy _ hbeyond
      rw [← hcursor] at hbefore
      exact String.lt_irrefl _ (String.lt_trans hlt hbefore)
  handled := by
    intro hpages y hy
    unfold Draining.handles
    rw [Repo.touch_name]
    exact hinv.handled hpages y hy
  head := fun hpages u hu => Repo.heads_touch (hinv.head hpages u hu) hinv.served
  full := hinv.full

theorem PagingInv.touched (hinv : PagingInv g i connectorID s d xs)
    (ys : List (Bytes × GhIssue)) :
    PagingInv g i connectorID ⟨s.world, s.repo.touched ys⟩ d xs := by
  induction ys generalizing s with
  | nil => exact hinv
  | cons y ys ih => exact ih (hinv.touch y)

/-! ### Statements -/

/-- Rows that are kept keep what they cover. -/
theorem Covers.mono {db db' : Database} {r : Repo} {cursor : String} (h : Covers i db r cursor)
    (hrows : ∀ k ∈ db.artifacts.rows.map RawArtifact.key,
      k ∈ db'.artifacts.rows.map RawArtifact.key) : Covers i db' r cursor :=
  ⟨fun e he hlt => hrows _ (h.rows e he hlt), h.past⟩

/-- **The position of an item that is due is covered**: what was updated before it had a row
when the unit was read, or has one since, or is on the page before the item. -/
theorem PagingInv.covers_due (hinv : PagingInv g i connectorID s d xs) {e : Entry}
    (hdue : d.due i e) : Covers i s.world.db s.repo e.cursor := by
  obtain ⟨before, after, heq, hbefore⟩ := hdue
  have he : e ∈ d.page := by
    rw [heq]
    simp
  obtain ⟨u, hu⟩ : ∃ u, d.unit = some u := by
    rcases hinv.read with hnil | hread
    · rw [hnil] at he
      cases he
    · exact hread
  refine ⟨fun e₀ he₀ hlt => ?_, fun t ht => ?_⟩
  · by_cases hstart : e₀.updatedAt < u.cursor
    · exact (hinv.unit u hu).2.rows e₀ he₀ hstart
    · rcases hinv.seen u hu e₀ he₀ hstart with hknown | ⟨e', he', hid, hle⟩ | hafter
      · exact hinv.known _ hknown
      · have hsorted := hinv.sorted
        rw [heq] at he' hsorted
        rcases List.mem_append.mp he' with he' | he'
        · have hrow := hinv.known _ (hbefore e' he')
          rw [hid] at hrow
          exact hrow
        · -- the item and what follows it were updated no earlier than the item
          have hge : e.cursor ≤ e'.cursor := by
            rcases List.mem_cons.mp he' with rfl | he'
            · exact String.le_refl _
            · exact (List.pairwise_cons.mp (List.pairwise_append.mp hsorted).2.1).1 e' he'
          exact absurd hlt (String.le_trans hge hle)
      · exact absurd hlt (hafter e he)
  · obtain ⟨y, hy, hcursor⟩ := hinv.page e he
    have hbeyond := hinv.served y hy t ht
    rw [hcursor]
    exact fun hback => String.lt_irrefl _ (String.lt_trans hback hbeyond)

/-- A cursor is written only at the position of an item that is due. -/
theorem due_of_writesCursor {k : Stock} (hd : d.honest) {st : Statement}
    (hs : (draining k i connectorID).allowed d (.statement st)) {c : String}
    (hwrites : st.WritesCursor c) : ∃ e, d.due i e ∧ e.cursor = c := by
  rcases hwrites with ⟨id, unitID, rfl⟩ | ⟨p, unitID, rfl⟩
  · obtain ⟨e, hdue, -, hcursor, -⟩ := hs.2 hd
    exact ⟨e, hdue, hcursor.symm⟩
  · obtain ⟨e, hdue, -, -, hcursor⟩ := hs.2 hd
    exact ⟨e, hdue, (hcursor c rfl).1.symm⟩

theorem PagingInv.tick (hinv : PagingInv g i connectorID s d xs) (t : Time) :
    PagingInv g i connectorID ⟨s.world.tick t, s.repo⟩ d xs :=
  { hinv with behind := { hinv.behind with } }

/-- A statement that takes effect keeps the invariant, with what was known before. -/
theorem PagingInv.exec {k : Stock} (hinv : PagingInv g i connectorID s d xs) {st : Statement}
    (hs : (draining k i connectorID).allowed d (.statement st)) :
    PagingInv g i connectorID ⟨Cmd.effect s.world (.statement st), s.repo⟩ d xs := by
  have hunits := ne_upsert_of_draining hs
  have hrows : ∀ key ∈ s.world.db.artifacts.rows.map RawArtifact.key,
      key ∈ (st.exec s.world.now s.world.db).2.artifacts.rows.map RawArtifact.key :=
    fun key hkey => key_mem_exec (ne_confirm_of_draining hs) hkey
  refine { hinv with
    behind := ⟨?_, fun u' hu' his => ?_, fun u' hu' his => ?_⟩, known := ?_, unit := ?_ }
  · obtain ⟨tenantID, externalID, hconn⟩ := hinv.behind.connection
    exact ⟨tenantID, externalID, hasConnection_exec _ st hconn⟩
  · obtain ⟨u, hu, hkey, hsource, -⟩ := unit_step hunits hu'
    rw [hsource]
    exact hinv.behind.fits u hu (is_congr hkey ▸ his)
  · obtain ⟨u, hu, hkey, -, hcursor⟩ := unit_step hunits hu'
    rcases hcursor with hsame | ⟨hwrites, -⟩
    · rw [hsame]
      exact (hinv.behind.covers u hu (is_congr hkey ▸ his)).mono hrows
    · obtain ⟨e, hdue, hcursor⟩ := due_of_writesCursor hinv.honest hs hwrites
      rw [← hcursor]
      exact (hinv.covers_due hdue).mono hrows
  · exact fun key hkey => hrows key (hinv.known key hkey)
  · exact fun u hu => ⟨(hinv.unit u hu).1, (hinv.unit u hu).2.mono hrows⟩

/-- Rows that an execution comes to know of. -/
theorem PagingInv.learns (hinv : PagingInv g i connectorID s d xs) {d' : Draining}
    (hhonest : d'.honest) (hunit : d'.unit = d.unit) (hpage : d'.page = d.page)
    (hpages : d'.pages = d.pages) (hmore : d'.more = d.more) (hsub : d.known ⊆ d'.known)
    (hknown : ∀ k ∈ d'.known, k ∈ s.world.db.artifacts.rows.map RawArtifact.key) :
    PagingInv g i connectorID s d' xs where
  behind := hinv.behind
  honest := hhonest
  known := hknown
  unit := by
    rw [hunit]
    exact hinv.unit
  read := by
    rw [hunit, hpage]
    exact hinv.read
  served := hinv.served
  page := by
    rw [hpage]
    exact hinv.page
  sorted := by
    rw [hpage]
    exact hinv.sorted
  seen := by
    intro u hu e he hle
    rw [hunit] at hu
    unfold Draining.meets
    rw [hpage]
    exact (hinv.seen u hu e he hle).imp_left fun hk => hsub hk
  handled := by
    intro hpos y hy
    rw [hpages] at hpos
    unfold Draining.handles
    rw [hpage]
    exact (hinv.handled hpos y hy).imp_right (Or.imp_left fun hk => hsub hk)
  head := by
    rw [hpages, hunit]
    exact hinv.head
  full := by
    rw [hpages, hmore]
    exact hinv.full

/-- The unit is read before the first page. -/
theorem PagingInv.reads (hinv : PagingInv g i connectorID s d xs) {u : SyncUnit}
    (hu : u ∈ s.world.db.units.rows) (his : u.is i.connectionID i.unitID = true)
    (hpages : d.pages = 0) (hpage : d.page = []) :
    PagingInv g i connectorID s { d with unit := some u, mark := u.cursor } xs := by
  have hfirst : ¬ 0 < d.pages := by omega
  refine { hinv with
    unit := ?_, read := Or.inl hpage, seen := ?_, head := fun hpos => absurd hpos hfirst,
    handled := fun hpos => absurd hpos hfirst, full := fun hpos => absurd hpos hfirst }
  · rintro _ ⟨⟩
    exact ⟨hinv.behind.fits u hu his, hinv.behind.covers u hu his⟩
  · intro _ _ e _ _
    refine Or.inr (Or.inr fun e' he' => ?_)
    have hnil : e' ∈ d.page := he'
    rw [hpage] at hnil
    cases hnil

/-- **A statement of an execution keeps the invariant.** -/
theorem PagingInv.statement {k : Stock} (hinv : PagingInv g i connectorID s d xs) {st : Statement}
    (hs : (draining k i connectorID).allowed d (.statement st)) (x : Choice) (b : Bool) :
    PagingInv g i connectorID ⟨(service.perform x b s.world (.statement st)).1, s.repo⟩
      (d.next i connectorID (.statement st) (service.perform x b s.world (.statement st)).2)
      xs := by
  have hhonest := honest_next_statement (x := x) (b := b) (s := st) hinv.honest
    hinv.behind.connection
  have htick := hinv.tick x.elapsed
  have hexec := htick.exec hs
  rw [service_statement] at hhonest ⊢
  cases hr : x.reply b (st.exec (s.world.now + x.elapsed) s.world.db).1 with
  | error e =>
    rw [hr] at hhonest
    have hafter : PagingInv g i connectorID
        ⟨(service.perform x b s.world (.statement st)).1, s.repo⟩ d xs := by
      rw [service_state]
      split
      · exact hexec
      · exact htick
    -- an error tells the execution nothing, even if the statement took effect
    cases st <;> exact hafter.learns hhonest rfl rfl rfl rfl (List.Subset.refl _) hafter.known
  | ok r =>
    rw [hr] at hhonest
    obtain ⟨hx, hok⟩ := of_reply_eq_ok hr
    rw [service_state, if_pos hx]
    cases st with
    | getSyncUnit id unitID =>
      obtain ⟨hmem, his⟩ := mem_of_getSyncUnit hok
      obtain ⟨⟨rfl, rfl⟩, hpages, hpage⟩ := hs hinv.honest
      exact hexec.reads hmem his hpages hpage
    | getArtifactContentHash id externalID =>
      refine hexec.learns hhonest rfl rfl rfl rfl (List.subset_cons_self _ _) fun key hkey => ?_
      rcases List.mem_cons.mp hkey with rfl | hkey
      · exact key_mem_of_getArtifactContentHash hok
      · exact hexec.known key hkey
    | commitArtifact p unitID cursor =>
      refine hexec.learns hhonest rfl rfl rfl rfl (List.subset_cons_self _ _) fun key hkey => ?_
      rcases List.mem_cons.mp hkey with rfl | hkey
      · exact key_mem_commit_iff.mpr (Or.inr rfl)
      · exact hexec.known key hkey
    | _ => exact hexec.learns hhonest rfl rfl rfl rfl (List.Subset.refl _) hexec.known

/-! ### Pages -/

/-- What the execution was served once it has the next page: the head of the listing, by whole
pages. -/
theorem PagingInv.served_eq_take (hinv : PagingInv g i connectorID s d xs) {u : SyncUnit}
    (hu : d.unit = some u) (hmore : d.more = true)
    (hstill : d.pages = 0 ∨ ∀ y ∈ xs, y ∈ s.repo.issues) :
    addSlice xs (some (d.pages + 1, s.repo.slice u.cursor g.pageSize (d.pages + 1))) =
      (s.repo.since u.cursor).take ((d.pages + 1) * g.pageSize) := by
  by_cases hfirst : d.pages = 0
  · have hnone : ([] : List (Bytes × GhIssue)).length = 0 * g.pageSize := by simp
    have hempty := Repo.head_append_slice (List.nil_prefix : [] <+: s.repo.since u.cursor) hnone
    rw [hfirst, ← hempty]
    rfl
  · have hpos : 0 < d.pages := by omega
    have hhead := hinv.head hpos u hu (hstill.resolve_left hfirst)
    rw [← Repo.head_append_slice hhead (hinv.full hpos hmore)]
    exact if_neg (by omega)

/-- **The next page keeps the invariant**, if no issue of the pages before it was updated since
it was served. -/
theorem PagingInv.serve (hinv : PagingInv g i connectorID s d xs) {u : SyncUnit}
    (hu : d.unit = some u) (hmore : d.more = true)
    (hknown : ∀ e ∈ d.page, (i.connectionID, e.externalID) ∈ d.known)
    (hstill : d.pages = 0 ∨ ∀ y ∈ xs, y ∈ s.repo.issues) :
    PagingInv g i connectorID s
      (d.serve (.issues s.repo.name g.pageSize (d.pages + 1) u.cursor)
        (s.repo.page u.cursor g.pageSize (d.pages + 1)))
      (addSlice xs (some (d.pages + 1, s.repo.slice u.cursor g.pageSize (d.pages + 1)))) := by
  have hpage : (d.serve (.issues s.repo.name g.pageSize (d.pages + 1) u.cursor)
      (s.repo.page u.cursor g.pageSize (d.pages + 1))).page =
        ((s.repo.slice u.cursor g.pageSize (d.pages + 1)).filter fun y => !y.2.pullRequest).map
          fun y => issueEntry s.repo.name y.2 := Repo.entries_page ..
  -- an issue that was served before has a row; one of this page is on it
  have hhandled : ∀ y ∈ addSlice xs
      (some (d.pages + 1, s.repo.slice u.cursor g.pageSize (d.pages + 1))),
      (d.serve (.issues s.repo.name g.pageSize (d.pages + 1) u.cursor)
        (s.repo.page u.cursor g.pageSize (d.pages + 1))).handles i s.repo y := by
    intro y hy
    have hcases : y ∈ s.repo.slice u.cursor g.pageSize (d.pages + 1) ∨ 0 < d.pages ∧ y ∈ xs := by
      rw [addSlice_some] at hy
      split at hy
      · exact Or.inl hy
      · rcases List.mem_append.mp hy with hy | hy
        · exact Or.inr ⟨by omega, hy⟩
        · exact Or.inl hy
    rcases hcases with hy | ⟨hpos, hy⟩
    · by_cases hpull : y.2.pullRequest = true
      · exact Or.inl hpull
      · refine Or.inr (Or.inr ?_)
        rw [hpage]
        exact List.mem_map.mpr ⟨y, List.mem_filter.mpr ⟨hy, by simpa using hpull⟩, rfl⟩
    · rcases hinv.handled hpos y hy with hpull | hk | he
      · exact Or.inl hpull
      · exact Or.inr (Or.inl hk)
      · exact Or.inr (Or.inl (hknown _ he))
  have hslice : s.repo.slice u.cursor g.pageSize (d.pages + 1) ⊆
      addSlice xs (some (d.pages + 1, s.repo.slice u.cursor g.pageSize (d.pages + 1))) := by
    intro y hy
    rw [addSlice_some]
    split
    · exact hy
    · exact List.mem_append_right _ hy
  have htake := hinv.served_eq_take hu hmore hstill
  have hascending := s.repo.ascending.filter fun y => decide (u.cursor ≤ y.2.updatedAt)
  have hsplit := List.take_append_drop ((d.pages + 1) * g.pageSize) (s.repo.since u.cursor)
  rw [← htake] at hsplit
  have hentry : ∀ e ∈ (d.serve (.issues s.repo.name g.pageSize (d.pages + 1) u.cursor)
      (s.repo.page u.cursor g.pageSize (d.pages + 1))).page,
      ∃ y ∈ addSlice xs (some (d.pages + 1, s.repo.slice u.cursor g.pageSize (d.pages + 1))),
        e.cursor = y.2.updatedAt := by
    intro e he
    rw [hpage] at he
    obtain ⟨y, hy, rfl⟩ := List.mem_map.mp he
    exact ⟨y, hslice (List.mem_filter.mp hy).1, rfl⟩
  refine { hinv with
    read := Or.inr ⟨u, hu⟩, served := ?_, page := hentry, sorted := ?_, seen := ?_,
    handled := fun _ => hhandled, head := ?_, full := ?_ }
  · intro y hy t ht
    rw [htake] at hy
    exact ht y (List.mem_filter.mp (List.mem_of_mem_take hy)).1
  · rw [hpage, List.pairwise_map]
    exact ((hascending.sublist (List.drop_sublist _ _)).sublist (List.take_sublist _ _)).filter _
  · intro u' hu' e he hle
    obtain rfl : u' = u := Option.some.inj (hu'.symm.trans hu)
    obtain ⟨y, hy, hpull, rfl⟩ := Repo.mem_items.mp he
    have hlisted : y ∈ s.repo.since u'.cursor := List.mem_filter.mpr ⟨hy, decide_eq_true hle⟩
    rw [← hsplit] at hlisted
    rcases List.mem_append.mp hlisted with hserved | hlater
    · rcases hhandled y hserved with hpull' | hk | hon
      · rw [hpull] at hpull'
        cases hpull'
      · exact Or.inl hk
      · exact Or.inr (Or.inl ⟨_, hon, rfl, String.le_refl _⟩)
    · -- the rest of the listing comes after the page
      refine Or.inr (Or.inr fun e' he' => ?_)
      obtain ⟨z, hz, hcursor⟩ := hentry e' he'
      have hsorted : (s.repo.since u'.cursor).Pairwise fun a b => a.2.updatedAt ≤ b.2.updatedAt :=
        hascending
      rw [← hsplit] at hsorted
      rw [hcursor]
      exact (List.pairwise_append.mp hsorted).2.2 z hz y hlater
  · intro _ u' hu' _
    obtain rfl : u' = u := Option.some.inj (hu'.symm.trans hu)
    rw [htake]
    exact List.take_prefix _ _
  · intro _ hmore'
    have hlong : g.pageSize ≤ (s.repo.slice u.cursor g.pageSize (d.pages + 1)).length := by
      have hnot : (!decide ((s.repo.page u.cursor g.pageSize (d.pages + 1)).length <
          g.pageSize)) = true := hmore'
      simpa [Repo.page, Repo.slice] using hnot
    have hleft : (s.repo.slice u.cursor g.pageSize (d.pages + 1)).length ≤
        (s.repo.since u.cursor).length - d.pages * g.pageSize := by
      rw [Repo.slice, Nat.add_sub_cancel, List.length_take, List.length_drop]
      omega
    have hpos : 0 < g.pageSize := by
      unfold GitHub.pageSize
      split
      · decide
      · omega
    have hpages : (d.pages + 1) * g.pageSize ≤ (s.repo.since u.cursor).length := by
      rw [Nat.add_mul]
      omega
    rw [htake, List.length_take, Nat.min_eq_left hpages]
    rfl

/-- A request whose answer is no page of the repository leaves the execution where it is. -/
theorem next_of_not_served {q : Request} {w : World} {r : Repo} {x : Moment} {b : Bool}
    (hq : q.isListing = true → ∃ perPage page since, q = .issues (r.touched x.updates).name perPage
      page since) (hnone : servedSlice ⟨⟨w, r⟩, .request q, b, x⟩ = none) :
    d.next i connectorID (.request q) (live.perform x b ⟨w, r⟩ (.request q)).2 = d := by
  show d.next i connectorID (.request q) (if b = true then _ else _) = d
  cases b with
  | true => rfl
  | false =>
    show d.next i connectorID (.request q) (((r.touched x.updates).serves x.choice).answer q) = d
    by_cases hlisting : q.isListing = true
    · obtain ⟨perPage, page, since, rfl⟩ := hq hlisting
      cases hans : x.choice.answer (.issues (r.touched x.updates).name perPage page since) with
      | ok raws => simp [servedSlice, hans] at hnone
      | error e =>
        have herror : ((r.touched x.updates).serves x.choice).answer
            (.issues (r.touched x.updates).name perPage page since) = .error e := by
          simp [Repo.serves, hans, Except.map]
        rw [herror]
        rfl
    · cases ((r.touched x.updates).serves x.choice).answer q with
      | error e => rfl
      | ok reply => exact if_neg hlisting

/-- **A request of an execution keeps the invariant.** -/
theorem PagingInv.request {w : World} {r : Repo} {x : Moment} {b : Bool} {q : Request}
    (hinv : PagingInv g i connectorID ⟨w, r.touched x.updates⟩ d xs)
    (hq : (draining (.github g) i connectorID).allowed d (.request q))
    (hstill : ∀ name perPage page since, q = .issues name perPage page since → page = 1 ∨
      ∀ y ∈ xs, y ∈ (r.touched x.updates).issues) :
    PagingInv g i connectorID (live.perform x b ⟨w, r⟩ (.request q)).1
      (d.next i connectorID (.request q) (live.perform x b ⟨w, r⟩ (.request q)).2)
      (addSlice xs (servedSlice ⟨⟨w, r⟩, .request q, b, x⟩)) := by
  have hafter : PagingInv g i connectorID (live.perform x b ⟨w, r⟩ (.request q)).1 d xs := by
    have htick := hinv.tick x.choice.elapsed
    have hworld : (live.perform x b ⟨w, r⟩ (.request q)).1 =
        ⟨w.tick x.choice.elapsed, r.touched x.updates⟩ := by
      show (⟨if _ then _ else _, _⟩ : Scene) = _
      split <;> rfl
    rw [hworld]
    exact htick
  -- of the requests for a page only those for a page of the repository are allowed
  have hpage : q.isListing = true → ∃ u, d.unit = some u ∧
      q = .issues (r.touched x.updates).name g.pageSize (d.pages + 1) u.cursor ∧ d.more = true ∧
        ∀ e ∈ d.page, (i.connectionID, e.externalID) ∈ d.known := by
    intro hlisting
    obtain ⟨u, hu, hlists, hmore, hknown⟩ := hq hlisting hinv.honest
    obtain ⟨⟨hname, hkind⟩, -⟩ := hinv.unit u hu
    cases q with
    | issues name perPage page since =>
      obtain ⟨g', hg, -, rfl, rfl, rfl, rfl⟩ := hlists
      cases hg
      exact ⟨u, hu, by rw [← hname], hmore, hknown⟩
    | projectItems board cursor => exact absurd hlists.2.1 hkind
    | driveFiles since pageSize token =>
      obtain ⟨⟨g', hg⟩, -⟩ := hlists
      cases hg
    | _ => cases hlisting
  cases hserved : servedSlice ⟨⟨w, r⟩, .request q, b, x⟩ with
  | none =>
    rw [next_of_not_served (fun hlisting => ?_) hserved]
    · exact hafter
    · obtain ⟨u, -, rfl, -⟩ := hpage hlisting
      exact ⟨_, _, _, rfl⟩
  | some part =>
    have hlisting : q.isListing = true := by
      cases q with
      | issues name perPage page since => rfl
      | _ => cases hserved
    obtain ⟨u, hu, rfl, hmore, hknown⟩ := hpage hlisting
    -- the answer is the page, as the repository is now
    have hanswer : b = false ∧ part = (d.pages + 1,
        (r.touched x.updates).slice u.cursor g.pageSize (d.pages + 1)) ∧
        ((r.touched x.updates).serves x.choice).answer
          (.issues (r.touched x.updates).name g.pageSize (d.pages + 1) u.cursor) =
            .ok ((r.touched x.updates).page u.cursor g.pageSize (d.pages + 1)) := by
      cases b with
      | true => simp [servedSlice] at hserved
      | false =>
        cases hans : x.choice.answer
            (.issues (r.touched x.updates).name g.pageSize (d.pages + 1) u.cursor) with
        | error e => simp [servedSlice, hans] at hserved
        | ok raws =>
          simp only [servedSlice, Bool.not_false, decide_true, Bool.and_self, if_true, hans,
            Option.some.injEq] at hserved
          exact ⟨rfl, hserved.symm, by simp [Repo.serves, hans, Except.map]⟩
    obtain ⟨rfl, rfl, hans⟩ := hanswer
    have hreply : (live.perform x false ⟨w, r⟩ (.request (.issues (r.touched x.updates).name
        g.pageSize (d.pages + 1) u.cursor))).2 =
          .ok ((r.touched x.updates).page u.cursor g.pageSize (d.pages + 1)) := hans
    rw [hreply]
    refine hafter.serve hu hmore hknown ?_
    rcases hstill _ _ _ _ rfl with hfirst | hsame
    · exact Or.inl (by omega)
    · exact Or.inr hsame

/-- **One command of an execution, and the updates before it, keep the invariant.** -/
theorem PagingInv.step {tr : List (Performed Scene Moment Cmd)}
    (hinv : PagingInv g i connectorID s d (servedCall tr)) {c : Cmd}
    (hc : (draining (.github g) i connectorID).allowed d c) {x : Moment} {b : Bool}
    (hstill : undisturbed tr x b s c = true) :
    PagingInv g i connectorID (live.perform x b s c).1
      (d.next i connectorID c (live.perform x b s c).2) (servedCall (tr ++ [⟨s, c, b, x⟩])) := by
  have hnow := hinv.touched x.updates
  rw [servedCall_snoc]
  -- only a statement touches the database
  have hkeep : ∀ c : Cmd, (service.perform ((s.repo.touched x.updates).serves x.choice) b s.world
      c).1.db = s.world.db →
        PagingInv g i connectorID (live.perform x b s c).1 d (servedCall tr) := by
    intro c hdb
    have hsame : ∀ w : World, w.db = s.world.db →
        PagingInv g i connectorID ⟨w, s.repo.touched x.updates⟩ d (servedCall tr) := by
      intro w hw
      refine { hnow with behind := ⟨?_, ?_, ?_⟩, known := ?_, unit := ?_ } <;> rw [hw]
      · exact hnow.behind.connection
      · exact hnow.behind.fits
      · exact hnow.behind.covers
      · exact hnow.known
      · exact hnow.unit
    exact hsame _ hdb
  cases c with
  | statement st => exact hnow.statement hc _ _
  | request q =>
    refine hnow.request hc fun name perPage page since hq => ?_
    subst hq
    simpa [undisturbed] using hstill
  | deleteObject bucket key => cases hc
  | putObject bucket key contentType body =>
    have hput := hkeep (.putObject bucket key contentType body) (service_db ..)
    generalize (live.perform x b s (.putObject bucket key contentType body)).2 = reply
    cases reply <;> exact hput
  | signalWorkflow id sig =>
    have hsig := hkeep (.signalWorkflow id sig) (service_db ..)
    generalize (live.perform x b s (.signalWorkflow id sig)).2 = reply
    cases reply <;> exact hsig
  | ctxErr => exact hkeep .ctxErr (service_db ..)
  | clock => exact hkeep .clock (service_db ..)

end Invariant

/-! ### Every run -/

/-- An execution that starts knows nothing. -/
theorem Behind.start {g : GitHub} {i : SyncInput} {connectorID : String} {s : Scene}
    {xs : List (Bytes × GhIssue)} (hs : Behind i connectorID s)
    (hserved : ∀ y ∈ xs, ∀ t, s.repo.beyond t → y.2.updatedAt < t) :
    PagingInv g i connectorID s Draining.init xs where
  behind := hs
  honest := trivial
  known := by
    intro k hk
    cases hk
  unit := by
    intro u hu
    cases hu
  read := Or.inl rfl
  served := hserved
  page := by
    intro e he
    cases he
  sorted := List.Pairwise.nil
  seen := by
    intro u hu
    cases hu
  handled := fun hpos => absurd hpos (Nat.lt_irrefl 0)
  head := fun hpos => absurd hpos (Nat.lt_irrefl 0)
  full := fun hpos => absurd hpos (Nat.lt_irrefl 0)

/-- **No issue is skipped in an undisturbed run.**  In every sequence of executions of
`SyncUnit`, interrupted anywhere, with any updates of issues before any command: if no issue
is updated between the moment it is served and the moment a further page is asked for, every
issue updated before the persisted cursor has a row. -/
theorem no_issue_skipped (a : Activities) (g : GitHub) (i : SyncInput) {connectorID : String}
    {connector : Connector} (hreg : a.reg.get connectorID = some connector)
    (hstock : connector.syncUnit = g.syncUnit) {s₀ : Scene} {es : List (SeqEvent Unit Moment)}
    {s : Sequential Scene Unit Cmd Cmd.Resp (Except ActivityError SyncResult)}
    {tr : List (Performed Scene Moment Cmd)}
    (h : (live.sequential fun _ : Unit => a.syncUnit i).RunWhere
      (fun s tr => SeqMeets (fun x b s c => undisturbed tr x b s c = true) s) ⟨s₀, none⟩ es s tr)
    (hs₀ : Behind i connectorID s₀) :
    ∀ u ∈ s.world.world.db.units.rows, u.is i.connectionID i.unitID = true →
      ∀ y ∈ s.world.repo.issues, y.2.pullRequest = false → y.2.updatedAt < u.cursor →
        (i.connectionID, s.world.repo.name ++ "#" ++ toString y.2.number) ∈
          s.world.world.db.artifacts.rows.map RawArtifact.key := by
  obtain ⟨d, hinv, -⟩ := sequential_follows
    (P := fun _ => draining (.github g) i connectorID) (Q := fun _ _ _ => True)
    (J := fun s d tr => PagingInv g i connectorID s d (servedCall tr)) h
    (fun _ => follows_draining a hreg hstock)
    (hs₀.start fun y hy => by cases hy)
    (fun s d tr hinv => hinv.behind.start hinv.served)
    (fun s tr t j c k b d hC hcur hallowed hinv => hinv.step hallowed (hC j c k b hcur))
  intro u hu his y hy hpull hlt
  have hitem : (⟨s.world.repo.name ++ "#" ++ toString y.2.number, y.2.updatedAt⟩ : Item) ∈
      Repo.items s.world.repo.name s.world.repo.issues :=
    Repo.mem_items.mpr ⟨y, hy, hpull, rfl⟩
  exact (hinv.behind.covers u hu his).rows _ hitem hlt

/-! ### An update between two pages -/

/-- An issue or a pull request without comments, last updated at a time. -/
def issueAt (pullRequest : Bool) (updatedAt : String) (number : ℕ) : Bytes × GhIssue :=
  ([], { number, htmlURL := "", updatedAt, comments := 0, pullRequest })

/-- Ann's repository, discovered and not synced yet. -/
def annScene (issues : List (Bytes × GhIssue))
    (ascending : issues.Pairwise fun a b => a.2.updatedAt ≤ b.2.updatedAt) : Scene where
  world := worldOf (sawRepo 1 "ann/a" emptyAccount)
  repo := { name := "ann/a", issues, ascending }

/-- Its unit. -/
def repoInput : SyncInput :=
  { connectionID := 0, tenantID := "acme", connectorID := "github_pat", unitID := "ann/a" }

/-- Nothing is behind a cursor that was never moved. -/
theorem behind_annScene {issues : List (Bytes × GhIssue)}
    (ascending : issues.Pairwise fun a b => a.2.updatedAt ≤ b.2.updatedAt) :
    Behind repoInput "github_pat" (annScene issues ascending) := by
  have hfresh : ∀ u ∈ (sawRepo 1 "ann/a" emptyAccount).units.rows, u.cursor = "" ∧
      u.source.id = "ann/a" ∧ u.source.kind = "github_repo" := by decide +kernel
  refine ⟨⟨"acme", "ann", ?_⟩, fun u hu _ => ?_, fun u hu _ => ?_⟩
  · show (sawRepo 1 "ann/a" emptyAccount).HasConnection 0 ("acme", "github_pat", "ann")
    unfold Database.HasConnection
    decide +kernel
  · obtain ⟨-, hid, hkind⟩ := hfresh u hu
    refine ⟨hid, ?_⟩
    rw [hkind]
    decide
  · rw [(hfresh u hu).1]
    exact ⟨fun e _ hlt => absurd hlt (List.not_lt_nil _), fun t _ => List.not_lt_nil _⟩

/-- Turns in which nothing fails: the repository answers, after some updates. -/
def liveTurns (updates : List (Bytes × GhIssue)) (n : ℕ) : List (SeqEvent Unit Moment) :=
  List.replicate n (.turn ⟨false, ⟨updates, quietly fun
    | .issues _ _ _ _ => .ok []
    | _ => .error (.failed "unreachable")⟩⟩)

/-- The two issues of a repository. -/
def twoIssues : List (Bytes × GhIssue) :=
  [issueAt false "2024-01-02T00:00:00Z" 101, issueAt false "2024-01-03T00:00:00Z" 102]

theorem twoIssues_ascending : twoIssues.Pairwise fun a b => a.2.updatedAt ≤ b.2.updatedAt := by
  decide +kernel

-- an update puts an issue last
example : (((annScene twoIssues twoIssues_ascending).repo.touch
    (issueAt false "2024-01-04T00:00:00Z" 101)).issues.map fun y => y.2.number) = [102, 101] := by
  decide +kernel

/-- A page of a single issue. -/
def onePerPage : GitHub := { newGitHub with perPage := 1 }

/-- The deployment, with pages of a single issue. -/
def onePerPageActivities : Activities :=
  { repoActivities with
    reg := [onePerPage.connector "github_pat" (GitHub.patDiscoverUnits 10 fun owners => owners)
      fun _ => return .ok []] }

/-- The second issue is updated before its page is asked for. -/
def aheadOfTheReader : List (SeqEvent Unit Moment) :=
  .start () :: liveTurns [] 14 ++ liveTurns [issueAt false "2024-01-04T00:00:00Z" 102] 1 ++
    liveTurns [] 10

/-- The first issue has a row, and the cursor is beyond it. -/
def passesFirst (s : Scene) : Bool :=
  decide ((0, "ann/a#101") ∈ s.world.db.artifacts.rows.map RawArtifact.key) &&
    s.world.db.units.rows.any fun u => u.is 0 "ann/a" &&
      decide ("2024-01-02T00:00:00Z" < u.cursor)

/-- An update of what was not served yet skips nothing. -/
theorem update_ahead_kept :
    ∃ s tr, (live.sequential fun _ : Unit => onePerPageActivities.syncUnit repoInput).Run
        ⟨annScene twoIssues twoIssues_ascending, none⟩ aheadOfTheReader s tr ∧
      passesFirst s.world = true ∧
      ∀ u ∈ s.world.world.db.units.rows, u.is 0 "ann/a" = true →
        ∀ y ∈ s.world.repo.issues, y.2.pullRequest = false → y.2.updatedAt < u.cursor →
          (0, s.world.repo.name ++ "#" ++ toString y.2.number) ∈
            s.world.world.db.artifacts.rows.map RawArtifact.key := by
  obtain ⟨s, tr, hrun, hend⟩ := Lts.exists_runWhere_of_any
    (live.sequential fun _ : Unit => onePerPageActivities.syncUnit repoInput)
    (fun s tr e => seqCheck (undisturbed tr) s e) ⟨annScene twoIssues twoIssues_ascending, none⟩
    aheadOfTheReader (fun s _ => passesFirst s.world) (by decide +kernel)
  have hreg : onePerPageActivities.reg.get "github_pat" = some (onePerPage.connector "github_pat"
      (GitHub.patDiscoverUnits 10 fun owners => owners) fun _ => return .ok []) := by
    simp [onePerPageActivities, Registry.get, GitHub.connector]
  refine ⟨s, tr, hrun.run, hend, ?_⟩
  exact no_issue_skipped onePerPageActivities onePerPage repoInput hreg rfl
    (hrun.mono fun _ _ _ hc => seqMeets_of_check hc) (behind_annScene twoIssues_ascending)

/-- The two issues come after as many pull requests as a page holds. -/
def pullsAndIssues : List (Bytes × GhIssue) :=
  (List.range ghPerPage).map (issueAt true "2024-01-01T00:00:00Z") ++ twoIssues

theorem pullsAndIssues_ascending :
    pullsAndIssues.Pairwise fun a b => a.2.updatedAt ≤ b.2.updatedAt := by
  have hlater : ∀ b ∈ twoIssues, "2024-01-01T00:00:00Z" ≤ b.2.updatedAt := by decide +kernel
  refine List.pairwise_append.mpr ⟨?_, twoIssues_ascending, fun a ha b hb => ?_⟩
  · exact List.pairwise_map.mpr (List.pairwise_of_forall fun _ _ => String.le_refl _)
  · obtain ⟨n, -, rfl⟩ := List.mem_map.mp ha
    exact hlater b hb

/-- A pull request of the first page is updated before the second page is asked for. -/
def underTheReader : List (SeqEvent Unit Moment) :=
  .start () :: liveTurns [] 10 ++ liveTurns [issueAt true "2024-01-04T00:00:00Z" 1] 1 ++
    liveTurns [] 10

/-- **The first issue is skipped**: the listing has moved up by one, and the cursor moves past
the issue, which was there all along and has no row. -/
theorem shifted_issue_skipped :
    Behind repoInput "github_pat" (annScene pullsAndIssues pullsAndIssues_ascending) ∧
    ∃ s tr, (live.sequential fun _ : Unit => repoActivities.syncUnit repoInput).Run
        ⟨annScene pullsAndIssues pullsAndIssues_ascending, none⟩ underTheReader s tr ∧
      ∃ u ∈ s.world.world.db.units.rows, u.is 0 "ann/a" = true ∧
        ∃ y ∈ pullsAndIssues, y ∈ s.world.repo.issues ∧
          y.2.pullRequest = false ∧ y.2.updatedAt < u.cursor ∧
          (0, s.world.repo.name ++ "#" ++ toString y.2.number) ∉
            s.world.world.db.artifacts.rows.map RawArtifact.key := by
  refine ⟨behind_annScene pullsAndIssues_ascending, ?_⟩
  obtain ⟨s, tr, hrun, hend⟩ := Lts.exists_run_of_any
    (live.sequential fun _ : Unit => repoActivities.syncUnit repoInput)
    ⟨annScene pullsAndIssues pullsAndIssues_ascending, none⟩ underTheReader
    (fun s _ => s.world.world.db.units.rows.any fun u => u.is 0 "ann/a" &&
      pullsAndIssues.any fun y => !y.2.pullRequest &&
        decide (y ∈ s.world.repo.issues) && decide (y.2.updatedAt < u.cursor) &&
          decide ((0, s.world.repo.name ++ "#" ++ toString y.2.number) ∉
            s.world.world.db.artifacts.rows.map RawArtifact.key)) (by decide +kernel)
  simp only [List.any_eq_true, Bool.and_eq_true, decide_eq_true_eq, Bool.not_eq_true'] at hend
  obtain ⟨u, hu, his, y, hy, ⟨⟨hpull, hsame⟩, hlt⟩, hgone⟩ := hend
  exact ⟨s, tr, hrun, u, hu, his, y, hy, hsame, hpull, hlt, hgone⟩

end Hivebook
