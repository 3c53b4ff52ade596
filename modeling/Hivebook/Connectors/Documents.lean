import Hivebook.Connectors.Listing

/-!
# The documents of a static source

A source that does not change renders every item to one document: an issue with its comment
thread, up to the cap on the pages of a thread, a document of a Drive as it is exported, and
an item of a board as it is served.  A drain emits no other bytes.  What can fail does so for
a while: the source never answers that a thread is gone, too large or too slow for good, for
then the connector renders the issue with what it has fetched.

## Main definitions

* `Holdings` — what a static source keeps beside its listing.
* `Site.shows` — what the source answers, errors included.
* `Site.documents` — its documents, by the id of their artifact.
* `rendering` — the protocol of a drain that emits documents of the source only.

## Main results

* `Site.renders` — **a drain emits the documents of the source.**
-/

namespace Hivebook
namespace Connectors

/-- What a static source keeps beside its listing. -/
structure Holdings where
  /-- The comments of an issue, in the order they are listed. -/
  thread : ℕ → List Bytes
  /-- The exported bytes of a document. -/
  exported : String → Bytes

/-- A request for a page of a thread. -/
def Request.isThread : Request → Bool
  | .issueComments _ _ _ _ => true
  | _ => false

/-- The document of an issue: its thread up to the cap. -/
def GitHub.document (g : GitHub) (c : Holdings) (x : Bytes × GhIssue) : Bytes :=
  marshalIssue x.1 (if x.2.comments ≤ 0 then some []
    else appended ((c.thread x.2.number).take (ghMaxCommentPages * g.pageSize)))

namespace Site

/-- What the source answers about one item. -/
def details (c : Holdings) : Site → (q : Request) → q.Reply → Prop
  | .repo _ r, .issueComments name number perPage page, comments => name = r.name →
      comments = ((c.thread number).drop ((page - 1) * perPage)).take perPage
  | .drive _ _, .driveExport id, bytes => bytes = c.exported id
  | _, _, _ => True

/-- What the source answers: its listing and its holdings, or an error that is not for
good. -/
def shows (site : Site) (c : Holdings) (q : Request) : Except Err q.Reply → Prop
  | .ok r => site.answers q r ∧ site.details c q r
  | .error e => q.isThread = true → isTerminalCommentError e = false

/-- The documents of the source, by the id of their artifact. -/
def documents (c : Holdings) : Site → List (String × Bytes)
  | .repo g r => (r.issues.filter fun x => !x.2.pullRequest).map fun x =>
      (r.name ++ "#" ++ toString x.2.number, g.document c x)
  | .drive _ d => d.files.map fun f => (f.id, c.exported f.id)
  | .board _ d => d.nodes.map fun x => (x.2.id, x.1)

/-- Every item has a document. -/
theorem documents_items (c : Holdings) (site : Site) :
    (site.documents c).map Prod.fst = site.items.map Item.externalID := by
  cases site <;> simp [documents, items, Repo.items, Drive.items, Board.items, Function.comp_def]

end Site

/-! ### The protocol -/

/-- Only documents are emitted, as long as the source has answered truthfully. -/
def rendering (T : (q : Request) → Except Err q.Reply → Prop) (D : List (String × Bytes)) :
    Protocol Prop SyncCmd SyncCmd.Resp where
  allowed honest
    | .emit art => honest → (art.externalID, art.raw) ∈ D
    | .fetch _ => True
  next honest
    | .fetch (.request q), r => honest ∧ T q r
    | _, _ => honest

variable {T : (q : Request) → Except Err q.Reply → Prop} {D : List (String × Bytes)} {α : Type}

/-- Nothing is required of a drain against a source that has not been truthful. -/
theorem renders_of_not_honest {p : SyncProg α} {honest : Prop} (h : ¬ honest) :
    p.Follows (rendering T D) (fun _ _ => True) honest := by
  induction p generalizing honest with
  | pure a => trivial
  | call c k ih =>
    cases c with
    | emit art => exact ⟨fun hh => absurd hh h, fun r => ih r h⟩
    | fetch c =>
      refine ⟨trivial, fun r => ?_⟩
      cases c with
      | ctxErr => exact ih r h
      | request q => exact ih r fun hh => h hh.1

theorem renders_ctxErr (honest : Prop) :
    ctxErr.Follows (rendering T D) (fun _ honest' => honest' = honest) honest :=
  ⟨trivial, fun _ => rfl⟩

/-! ### A repository -/

namespace GitHub

variable (g : GitHub) (c : Holdings) (r : Repo)

/-- The pages of a thread from one on: what they hold, or an error that is not for good. -/
theorem renders_fetchComments (repo : String) (number : ℕ) (out : List Bytes)
    (page remaining : ℕ) (hpage : 1 ≤ page) (honest : Prop) (hrepo : honest → repo = r.name) :
    (g.fetchComments repo number out page remaining).Follows
      (rendering ((Site.repo g r).shows c) D)
      (fun res honest' => (honest' → honest) ∧ (honest' →
        (res.2 = none → res.1 = out ++ ((c.thread number).drop ((page - 1) * g.pageSize)).take
          (remaining * g.pageSize)) ∧
        ∀ e, res.2 = some e → isTerminalCommentError e = false)) honest := by
  induction remaining generalizing out page honest with
  | zero =>
    refine ⟨id, fun _ => ⟨fun _ => ?_, fun e he => by cases he⟩⟩
    simp
  | succ n ih =>
    refine (renders_ctxErr honest).bind fun b h₁ hh₁ => ?_
    subst hh₁
    split
    · refine ⟨id, fun _ => ⟨fun h => (by cases h), fun e he => ?_⟩⟩
      cases he
      rfl
    · refine ⟨trivial, fun reply => ?_⟩
      cases reply with
      | error e =>
        refine ⟨And.left, fun hh => ⟨fun h => (by cases h), fun e' he => ?_⟩⟩
        cases he
        exact hh.2 rfl
      | ok items =>
        have hitems : (h₁ ∧ (Site.repo g r).shows c (.issueComments repo number g.pageSize page)
            (.ok items)) →
            items = ((c.thread number).drop ((page - 1) * g.pageSize)).take g.pageSize :=
          fun hh => hh.2.2 (hrepo hh.1)
        show Prog.Follows _ _ _ (if items.length < g.pageSize then _ else _)
        split
        · -- a short page is the last one
          rename_i hshort
          refine ⟨And.left, fun hh => ⟨fun _ => ?_, fun e he => by cases he⟩⟩
          have heq := hitems hh
          have hlen : ((c.thread number).drop ((page - 1) * g.pageSize)).length < g.pageSize := by
            rw [heq, List.length_take] at hshort
            omega
          have hmul : g.pageSize ≤ (n + 1) * g.pageSize := Nat.le_mul_of_pos_left _ n.succ_pos
          rw [heq, List.take_of_length_le (Nat.le_of_lt hlen),
            List.take_of_length_le (Nat.le_trans (Nat.le_of_lt hlen) hmul)]
        · refine (ih (out ++ items) (page + 1) (by omega) _ fun hh => hrepo hh.1).mono
            fun res honest' hres => ⟨fun hh => (hres.1 hh).1, fun hh => ⟨fun hnone => ?_,
              (hres.2 hh).2⟩⟩
          have hnext : (page + 1 - 1) * g.pageSize = (page - 1) * g.pageSize + g.pageSize := by
            rw [← Nat.succ_mul, Nat.succ_eq_add_one, Nat.sub_add_cancel hpage,
              Nat.add_sub_cancel]
          rw [(hres.2 hh).1 hnone, hitems (hres.1 hh), hnext, List.append_assoc,
            Nat.succ_mul, Nat.add_comm (n * g.pageSize), List.take_add, List.drop_drop]

/-- An issue is rendered to its document, or not at all. -/
theorem renders_issueArtifact (repo : String) (raw : Bytes) (iss : GhIssue) (honest : Prop)
    (hrepo : honest → repo = r.name) :
    (g.issueArtifact repo raw iss).Follows (rendering ((Site.repo g r).shows c) D)
      (fun res honest' => (honest' → honest) ∧
        (honest' → ∀ doc, res = .ok doc → doc = g.document c (raw, iss))) honest := by
  unfold issueArtifact
  split
  · rename_i hnone
    refine ⟨id, fun _ doc hdoc => ?_⟩
    cases hdoc
    rw [document, if_pos hnone]
  · rename_i hsome
    refine (g.renders_fetchComments c r repo iss.number [] 1 ghMaxCommentPages (Nat.le_refl 1)
      honest hrepo).bind fun res h₁ hres => ?_
    obtain ⟨comments, failure⟩ := res
    dsimp only
    split
    · refine ⟨hres.1, fun hh doc hdoc => ?_⟩
      cases hdoc
      have hcomments := (hres.2 hh).1 rfl
      dsimp only at hcomments
      rw [document, if_neg hsome, hcomments]
      simp
    · rename_i e
      refine (renders_ctxErr h₁).bind fun b h₂ hh₂ => ?_
      subst hh₂
      have hfail : ∀ e' : Err, (h₂ → honest) ∧ (h₂ → ∀ doc : Bytes,
          (Except.error e' : Except Err Bytes) = .ok doc → doc = g.document c (raw, iss)) :=
        fun e' => ⟨hres.1, fun _ doc hdoc => by cases hdoc⟩
      split
      · exact hfail e
      · split
        · exact hfail _
        · exact hfail _
        · split
          · -- an error for good would cut the thread short
            rename_i hterminal
            refine ⟨hres.1, fun hh => ?_⟩
            rw [(hres.2 hh).2 e rfl] at hterminal
            cases hterminal
          · exact hfail e

/-- The artifacts folded from issues of the repository are documents of it. -/
theorem renders_foldItems (unit : SourceUnit) (items : List (Bytes × GhIssue)) (honest : Prop)
    (hitems : honest → unit.id = r.name ∧
      ∀ x ∈ items, x ∈ r.issues.filter fun x => !x.2.pullRequest) :
    (g.foldItems unit items).Follows (rendering ((Site.repo g r).shows c) D)
      (fun res honest' => (honest' → honest) ∧ (honest' → ∀ arts, res = .ok arts → ∀ art ∈ arts,
        (art.externalID, art.raw) ∈ (Site.repo g r).documents c)) honest := by
  induction items generalizing honest with
  | nil =>
    refine ⟨id, fun _ arts harts art hart => ?_⟩
    cases harts
    cases hart
  | cons x items ih =>
    obtain ⟨raw, iss⟩ := x
    refine (g.renders_issueArtifact c r unit.id raw iss honest fun hh => (hitems hh).1).bind
      fun res h₁ hres => ?_
    split
    · exact ⟨hres.1, fun _ arts harts => by cases harts⟩
    · rename_i doc
      refine (ih h₁ fun hh => ⟨(hitems (hres.1 hh)).1, fun x hx =>
        (hitems (hres.1 hh)).2 x (List.mem_cons_of_mem _ hx)⟩).bind fun res' h₂ hres' => ?_
      have hback : h₂ → honest := fun hh => hres.1 (hres'.1 hh)
      split
      · exact ⟨hback, fun _ arts harts => by cases harts⟩
      · rename_i arts
        refine ⟨hback, fun hh arts' harts art hart => ?_⟩
        cases harts
        rcases List.mem_cons.mp hart with rfl | hart
        · obtain ⟨hunit, hmem⟩ := hitems (hback hh)
          refine List.mem_map.mpr ⟨(raw, iss), hmem _ (List.mem_cons_self ..), ?_⟩
          rw [← hunit, ← hres.2 (hres'.1 hh) doc rfl]
          rfl
        · exact hres'.2 hh arts rfl art hart

theorem renders_foldIssuePage (unit : SourceUnit) (raws : List RawIssue) (honest : Prop)
    (hraws : honest → unit.id = r.name ∧
      ∃ l : List (Bytes × GhIssue),
        raws = l.map (fun x => { raw := x.1, issue := some x.2 }) ∧ ∀ x ∈ l, x ∈ r.issues) :
    (g.foldIssuePage unit raws).Follows (rendering ((Site.repo g r).shows c) D)
      (fun res honest' => (honest' → honest) ∧ (honest' → ∀ arts, res = .ok arts → ∀ art ∈ arts,
        (art.externalID, art.raw) ∈ (Site.repo g r).documents c)) honest := by
  unfold foldIssuePage
  split
  · exact ⟨id, fun _ arts harts => by cases harts⟩
  · rename_i items hdecode
    have hitems : honest → unit.id = r.name ∧
        ∀ x ∈ items, x ∈ r.issues.filter fun x => !x.2.pullRequest := by
      intro hh
      obtain ⟨hunit, l, rfl, hl⟩ := hraws hh
      rw [decodePage_map] at hdecode
      cases hdecode
      refine ⟨hunit, fun x hx => ?_⟩
      rw [List.mem_filter] at hx ⊢
      exact ⟨hl x hx.1, hx.2⟩
    refine (g.renders_foldItems c r unit items honest hitems).bind fun res h₁ hres => ?_
    split
    · exact ⟨hres.1, fun _ arts harts => by cases harts⟩
    · rename_i arts
      refine (renders_ctxErr h₁).bind fun b h₂ hh₂ => ?_
      subst hh₂
      split
      · exact ⟨hres.1, fun _ arts harts => by cases harts⟩
      · refine ⟨hres.1, fun hh arts' harts => ?_⟩
        cases harts
        exact hres.2 hh arts rfl

/-- The emit loop over a page. -/
theorem renders_emitPage (newPos : String) (arts : List Artifact) (honest : Prop)
    (harts : honest → ∀ art ∈ arts, (art.externalID, art.raw) ∈ D) :
    (emitPage newPos arts).Follows (rendering T D) (fun _ honest' => honest' → honest) honest := by
  induction arts generalizing newPos with
  | nil => exact id
  | cons art arts ih =>
    refine ⟨fun hh => harts hh art (List.mem_cons_self ..), fun reply => ?_⟩
    cases reply with
    | error e => exact id
    | ok _ => exact ih _ fun hh art' hart => harts hh art' (List.mem_cons_of_mem _ hart)

/-- The drain of a repository from a page on. -/
theorem renders_syncPages (unit : SourceUnit) (cursor newPos : String) (page remaining : ℕ)
    (honest : Prop) (hunit : honest → unit.id = r.name) :
    (g.syncPages unit cursor newPos page remaining).Follows
      (rendering ((Site.repo g r).shows c) ((Site.repo g r).documents c))
      (fun _ _ => True) honest := by
  induction remaining generalizing newPos page honest with
  | zero => trivial
  | succ n ih =>
    refine (renders_ctxErr honest).bind fun b h₁ hh₁ => ?_
    subst hh₁
    split
    · trivial
    · refine ⟨trivial, fun reply => ?_⟩
      cases reply with
      | error e => trivial
      | ok raws =>
        refine (g.renders_foldIssuePage c r unit raws _ ?_).bind fun folded h₂ hh₂ => ?_
        · intro hh
          refine ⟨hunit hh.1, _, hh.2.1 (hunit hh.1), fun x hx => ?_⟩
          exact List.mem_of_mem_filter (List.mem_of_mem_drop (List.mem_of_mem_take hx))
        · split
          · refine (renders_ctxErr h₂).bind fun b h₃ _ => ?_
            split <;> trivial
          · rename_i arts
            refine (renders_emitPage newPos arts h₂ fun hh => hh₂.2 hh arts rfl).bind
              fun res h₃ hh₃ => ?_
            split
            · trivial
            · split
              · trivial
              · split
                · trivial
                · exact ih _ _ _ fun hh => hunit (hh₂.1 (hh₃ hh)).1

/-! ### A board -/

/-- The loop over the nodes of a page. -/
theorem renders_emitItems (d : Board) (unit : SourceUnit) (nodes : List ProjectItem)
    (honest : Prop)
    (hnodes : honest → ∃ xs : List (Bytes × GhItem),
      nodes = xs.map Board.node ∧ ∀ x ∈ xs, x ∈ d.nodes) :
    (emitItems unit nodes).Follows (rendering T ((Site.board g d).documents c))
      (fun _ honest' => honest' → honest) honest := by
  induction nodes with
  | nil => exact id
  | cons node nodes ih =>
    unfold emitItems
    split
    · exact id
    · rename_i item hitem
      -- a truthful node is one of the board
      have hnext : honest → (item.id, node.raw) ∈ (Site.board g d).documents c ∧
          ∃ xs : List (Bytes × GhItem),
            nodes = xs.map Board.node ∧ ∀ x ∈ xs, x ∈ d.nodes := by
        intro hh
        obtain ⟨xs, hxs, hmem⟩ := hnodes hh
        cases xs with
        | nil => cases hxs
        | cons x xs =>
          obtain ⟨hx, hxs⟩ := List.cons.inj hxs
          rw [hx] at hitem ⊢
          cases hitem
          exact ⟨List.mem_map.mpr ⟨x, hmem x (List.mem_cons_self ..), rfl⟩, xs, hxs,
            fun y hy => hmem y (List.mem_cons_of_mem _ hy)⟩
      refine ⟨fun hh => (hnext hh).1, fun reply => ?_⟩
      cases reply with
      | error e => exact id
      | ok _ => exact ih fun hh => (hnext hh).2

/-- The drain of a board from a page on. -/
theorem renders_syncBoardPages (d : Board) (unit : SourceUnit) (gqlCursor : String)
    (remaining : ℕ) (honest : Prop) (hunit : honest → unit.id = d.id) :
    (syncBoardPages unit gqlCursor remaining).Follows
      (rendering ((Site.board g d).shows c) ((Site.board g d).documents c))
      (fun _ _ => True) honest := by
  induction remaining generalizing gqlCursor honest with
  | zero => trivial
  | succ n ih =>
    refine (renders_ctxErr honest).bind fun b h₁ hh₁ => ?_
    subst hh₁
    split
    · trivial
    · refine ⟨trivial, fun reply => ?_⟩
      cases reply with
      | error e => trivial
      | ok page =>
        refine (g.renders_emitItems c d unit page.nodes _ ?_).bind fun res h₂ hh₂ => ?_
        · intro hh
          have hleft := hh.2.1 (hunit hh.1)
          dsimp only at hleft
          split at hleft
          · obtain ⟨xs, hxs, hfront, -⟩ := hleft
            exact ⟨xs, hxs, fun x hx => List.mem_of_mem_drop (hfront.subset hx)⟩
          · exact ⟨_, hleft, fun x hx => List.mem_of_mem_drop hx⟩
        · split
          · trivial
          · split
            · exact ih _ _ fun hh => hunit (hh₂ hh).1
            · trivial

end GitHub

/-! ### A Drive -/

namespace GoogleDocs

variable (g : GoogleDocs) (c : Holdings) (d : Drive)

/-- The loop over the files of a page. -/
theorem renders_emitFiles (newPos : String) (files : List DriveFile) (honest : Prop)
    (hfiles : honest → ∀ f ∈ files, f ∈ d.files) :
    (emitFiles newPos files).Follows
      (rendering ((Site.drive g d).shows c) ((Site.drive g d).documents c))
      (fun _ honest' => honest' → honest) honest := by
  induction files generalizing newPos honest with
  | nil => exact id
  | cons f fs ih =>
    refine (renders_ctxErr honest).bind fun b h₁ hh₁ => ?_
    subst hh₁
    split
    · exact id
    · refine ⟨trivial, fun reply => ?_⟩
      cases reply with
      | error e => exact And.left
      | ok raw =>
        refine ⟨fun hh => ?_, fun reply => ?_⟩
        · refine List.mem_map.mpr ⟨f, hfiles hh.1 f (List.mem_cons_self ..), ?_⟩
          exact congrArg (Prod.mk f.id) hh.2.2.symm
        · cases reply with
          | error e => exact And.left
          | ok _ =>
            refine (ih _ _ fun hh f' hf' => hfiles hh.1 f' (List.mem_cons_of_mem _ hf')).mono ?_
            exact fun _ _ hback hh => (hback hh).1

/-- The drain of a Drive from a page on. -/
theorem renders_syncPages (cursor newPos token : String) (page remaining : ℕ) (honest : Prop) :
    (g.syncPages cursor newPos token page remaining).Follows
      (rendering ((Site.drive g d).shows c) ((Site.drive g d).documents c))
      (fun _ _ => True) honest := by
  induction remaining generalizing newPos token page honest with
  | zero => trivial
  | succ n ih =>
    refine (renders_ctxErr honest).bind fun b h₁ _ => ?_
    split
    · trivial
    · refine ⟨trivial, fun reply => ?_⟩
      cases reply with
      | error e => trivial
      | ok resp =>
        refine (g.renders_emitFiles c d newPos resp.files _ ?_).bind fun fin h₂ _ => ?_
        · intro hh f hf
          have hresp := hh.2.1
          simp only [Site.answers, Drive.answers] at hresp
          have hleft : f ∈ (d.since cursor).drop (d.offset cursor token) := by
            split at hresp
            · exact hresp ▸ hf
            · exact hresp.1.subset hf
          exact List.mem_of_mem_filter (List.mem_of_mem_drop hleft)
        · split
          · trivial
          · trivial
          · split
            · trivial
            · split
              · trivial
              · exact ih _ _ _ _

end GoogleDocs

/-- **A drain of a static source emits the documents of the source.** -/
theorem Site.renders (c : Holdings) (site : Site) (unit : SourceUnit) (cursor : String)
    (honest : Prop) (hfits : honest → site.fits unit) :
    (site.syncUnit unit cursor).Follows (rendering (site.shows c) (site.documents c))
      (fun _ _ => True) honest := by
  cases site with
  | repo g r =>
    show Prog.Follows _ _ _ (if unit.kind = "github_project" then _ else _)
    split
    · -- a board is not this source
      rename_i hboard
      exact renders_of_not_honest fun hh => (hfits hh).2 hboard
    · exact g.renders_syncPages c r unit cursor cursor 1 g.hardCap honest fun hh => (hfits hh).1
  | drive g d => exact g.renders_syncPages c d cursor cursor "" 1 g.hardCap honest
  | board g d =>
    show Prog.Follows _ _ _ (if unit.kind = "github_project" then _ else _)
    split
    · exact g.renders_syncBoardPages c d unit "" ghMaxPagesPerRepo honest fun hh => (hfits hh).1
    · rename_i hrepo
      exact renders_of_not_honest fun hh => hrepo (hfits hh).2

end Connectors
end Hivebook
