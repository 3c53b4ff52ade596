import Hivebook.Connectors.GitHub
import Hivebook.Lib.ErrGroup

/-!
# The concurrent fold of a page

`foldIssuePage` fetches the comments of the issues of a page side by side, on at most
`ghCommentConcurrency` workers under one context, and writes each document into the slot of its
issue.  Elsewhere the page is folded one issue after the other.  Here the two are compared, for
every outcome of the comment fetches and every schedule of the workers; the context of the drain
itself is not cancelled.

## Main definitions

* `GitHub.docOf` — what `issueArtifact` builds of one issue by itself.
* `GitHub.oneByOne`, `GitHub.Propagates` — the page folded issue by issue, and why it fails.
* `GitHub.Folds` — what `foldIssuePage` returns under some schedule.

## Main results

* `eval_issueArtifact` — which outcome of a comment fetch degrades an issue, and which fails it.
* `oneByOne_eq_eval` — the sequential fold is the program used elsewhere.
* `foldIssuePage_concurrent` — **the concurrent fold is the sequential one.**
-/

namespace Hivebook
namespace Connectors

/-- `ghCommentConcurrency`. -/
def ghCommentConcurrency : ℕ := 8

/-- A command of a drain that emits nothing. -/
def SyncCmd.isFetch : SyncCmd → Bool
  | .fetch _ => true
  | .emit _ => false

/-- How the commands of a drain are answered while its context is alive. -/
def alone (answer : (q : Request) → Except Err q.Reply) : (c : SyncCmd) → c.Resp
  | .fetch .ctxErr => false
  | .fetch (.request q) => answer q
  | .emit _ => .ok ()

/-- How the commands of a worker may be answered: a request under a cancelled context is still
answered, or fails in any way. -/
def workerAnswers (answer : ℕ → (q : Request) → Except Err q.Reply) (i : ℕ) (cancelled : Bool) :
    (c : SyncCmd) → c.Resp → Prop
  | .fetch .ctxErr, r => r = cancelled
  | .fetch (.request q), r => r = answer i q ∨ cancelled = true ∧ ∃ e, r = .error e
  | .emit _, r => r = .ok ()

theorem workerAnswers_total (answer : ℕ → (q : Request) → Except Err q.Reply) (i : ℕ) (b : Bool)
    (c : SyncCmd) : ∃ r, workerAnswers answer i b c r := by
  cases c with
  | fetch c =>
    cases c with
    | ctxErr => exact ⟨b, rfl⟩
    | request q => exact ⟨answer i q, .inl rfl⟩
  | emit a => exact ⟨.ok (), rfl⟩

theorem answered_workerAnswers (answer : ℕ → (q : Request) → Except Err q.Reply) :
    ErrGroup.Answered (workerAnswers answer) fun i => alone (answer i) := by
  intro i c r hr
  cases c with
  | fetch c =>
    cases c with
    | ctxErr => exact hr
    | request q => exact hr.elim id fun h => by cases h.1
  | emit a => exact hr

/-! ### One issue -/

namespace GitHub

/-- What `issueArtifact` builds of one issue by itself. -/
def docOf (g : GitHub) (unit : SourceUnit) (answer : (q : Request) → Except Err q.Reply)
    (it : Bytes × GhIssue) : Except Err Bytes :=
  (g.issueArtifact unit.id it.1 it.2).eval (alone answer)

/-- The thread of an issue as it is fetched by itself, and the error it stopped at. -/
def threadOf (g : GitHub) (unit : SourceUnit) (answer : (q : Request) → Except Err q.Reply)
    (it : Bytes × GhIssue) : List Bytes × Option Err :=
  (g.fetchIssueComments unit.id it.2.number).eval (alone answer)

/-- What becomes of an issue whose thread stopped at an error: a terminal one degrades it to
what was fetched, any other fails it. -/
def settleThread (raw : Bytes) (comments : List Bytes) : Option Err → Except Err Bytes
  | none => .ok (marshalIssue raw (appended comments))
  | some e =>
      if isTerminalCommentError e = true then .ok (marshalIssue raw (some comments)) else .error e

/-- **An issue fails exactly when its thread stopped at an error that is not terminal**; a page
of comments that was fetched is kept. -/
theorem docOf_eq (g : GitHub) (unit : SourceUnit) (answer : (q : Request) → Except Err q.Reply)
    (it : Bytes × GhIssue) :
    g.docOf unit answer it =
      if it.2.comments ≤ 0 then .ok (marshalIssue it.1 (some []))
      else settleThread it.1 (g.threadOf unit answer it).1 (g.threadOf unit answer it).2 := by
  unfold docOf issueArtifact threadOf
  by_cases hcomments : it.2.comments ≤ 0
  · rw [if_pos hcomments, if_pos hcomments]
    rfl
  · rw [if_neg hcomments, if_neg hcomments, Prog.bind_eq, Prog.eval_bind]
    obtain ⟨comments, failure⟩ := (g.fetchIssueComments unit.id it.2.number).eval (alone answer)
    cases failure with
    | none => rfl
    | some e =>
      show Prog.eval _ (Prog.bind ctxErr _) = _
      rw [Prog.eval_bind]
      show Prog.eval _ (if false = true then _ else _) = _
      rw [if_neg Bool.false_ne_true]
      cases e with
      | auth n => rfl
      | rateLimit d => rfl
      | _ => exact apply_ite (Prog.eval (alone answer)) _ _ _

/-! ### The page -/

/-- The issues of a page, without the pull requests. -/
def pageIssues (raws : List RawIssue) : List (Bytes × GhIssue) :=
  raws.filterMap fun r => r.issue.bind fun iss =>
    if iss.pullRequest then none else some (r.raw, iss)

/-- A page that decodes is the list of its issues. -/
theorem decodePage_eq_ok {raws : List RawIssue} (h : ∀ r ∈ raws, r.issue ≠ none) :
    decodePage raws = .ok (pageIssues raws) := by
  induction raws with
  | nil => rfl
  | cons r rs ih =>
    have hrest := ih fun r' hr' => h r' (List.mem_cons_of_mem _ hr')
    obtain ⟨iss, hiss⟩ := Option.ne_none_iff_exists'.mp (h r (List.mem_cons_self ..))
    unfold decodePage pageIssues
    rw [hiss, hrest, List.filterMap_cons, hiss, Option.bind_some]
    by_cases hpull : iss.pullRequest = true
    · rw [if_pos hpull]
      simp only [hpull, if_true]
      rfl
    · rw [if_neg hpull]
      simp only [hpull]
      rfl

/-- A page with an element that does not decode fails. -/
theorem decodePage_eq_error {raws : List RawIssue} {r : RawIssue} (hr : r ∈ raws)
    (h : r.issue = none) : ∃ e, decodePage raws = .error e := by
  induction raws with
  | nil => cases hr
  | cons r' rs ih =>
    unfold decodePage
    cases hiss : r'.issue with
    | none => exact ⟨_, rfl⟩
    | some iss =>
      have hrest : r ∈ rs := by
        rcases List.mem_cons.mp hr with rfl | hr
        · rw [h] at hiss
          cases hiss
        · exact hr
      obtain ⟨e, he⟩ := ih hrest
      rw [he]
      exact ⟨e, rfl⟩

/-- The page folded issue by issue, from an index on. -/
def oneByOne (g : GitHub) (unit : SourceUnit) (answer : ℕ → (q : Request) → Except Err q.Reply)
    (i : ℕ) : List (Bytes × GhIssue) → Except Err (List Artifact)
  | [] => .ok []
  | it :: items =>
      match g.docOf unit (answer i) it with
      | .error e => .error e
      | .ok doc =>
          match g.oneByOne unit answer (i + 1) items with
          | .error e => .error e
          | .ok arts => .ok (issueArt unit it.2 doc :: arts)

/-- Some element of the page does not decode, or is an issue that fails by itself. -/
def Propagates (g : GitHub) (unit : SourceUnit) (raws : List RawIssue)
    (answer : ℕ → (q : Request) → Except Err q.Reply) : Prop :=
  (∃ r ∈ raws, r.issue = none) ∨
    ∃ i it e, (pageIssues raws)[i]? = some it ∧ g.docOf unit (answer i) it = .error e

/-- The fold issue by issue is the program used elsewhere, when a source answers the same to
every issue. -/
theorem oneByOne_eq_eval (g : GitHub) (unit : SourceUnit)
    (answer : (q : Request) → Except Err q.Reply) (i : ℕ) (items : List (Bytes × GhIssue)) :
    (g.foldItems unit items).eval (alone answer) = g.oneByOne unit (fun _ => answer) i items := by
  induction items generalizing i with
  | nil => rfl
  | cons it items ih =>
    obtain ⟨raw, iss⟩ := it
    unfold foldItems oneByOne docOf
    rw [Prog.bind_eq, Prog.eval_bind]
    cases (g.issueArtifact unit.id raw iss).eval (alone answer) with
    | error e => rfl
    | ok doc =>
      dsimp only
      rw [Prog.bind_eq, Prog.eval_bind, ih (i + 1)]
      cases g.oneByOne unit (fun _ => answer) (i + 1) items <;> rfl

/-- Issues that all have a document are folded, in order. -/
theorem oneByOne_eq_ok (g : GitHub) (unit : SourceUnit)
    (answer : ℕ → (q : Request) → Except Err q.Reply) (docs : ℕ → Bytes) (i : ℕ)
    (items : List (Bytes × GhIssue))
    (h : ∀ j it, items[j]? = some it → g.docOf unit (answer (i + j)) it = .ok (docs (i + j))) :
    g.oneByOne unit answer i items =
      .ok ((items.zipIdx i).map fun p => issueArt unit p.1.2 (docs p.2)) := by
  induction items generalizing i with
  | nil => rfl
  | cons it items ih =>
    have hfirst := h 0 it rfl
    rw [Nat.add_zero] at hfirst
    have hrest := ih (i + 1) fun j it' hit' => by
      have hnext := h (j + 1) it' hit'
      rw [show i + 1 + j = i + (j + 1) by omega]
      exact hnext
    unfold oneByOne
    rw [hfirst, hrest, List.zipIdx_cons, List.map_cons]

/-! ### The workers -/

/-- The fold of the issues of a page on the workers. -/
def foldTasks (g : GitHub) (unit : SourceUnit) (items : List (Bytes × GhIssue)) :
    List (SyncProg (Except Err Bytes)) :=
  items.map fun it => g.issueArtifact unit.id it.1 it.2

/-- The steps of the workers. -/
abbrev FoldStep (answer : ℕ → (q : Request) → Except Err q.Reply) :
    ErrGroup SyncCmd SyncCmd.Resp Err Bytes → ErrGroup SyncCmd SyncCmd.Resp Err Bytes → Prop :=
  ErrGroup.Step ghCommentConcurrency (workerAnswers answer)

/-- The artifacts of a page whose documents are in their slots; an empty slot is an empty
document. -/
def slotArts (unit : SourceUnit) (items : List (Bytes × GhIssue)) (docs : ℕ → Option Bytes) :
    List Artifact :=
  items.zipIdx.map fun p => issueArt unit p.1.2 ((docs p.2).getD [])

/-- What `foldIssuePage` returns under some schedule of its workers. -/
inductive Folds (g : GitHub) (unit : SourceUnit) (raws : List RawIssue)
    (answer : ℕ → (q : Request) → Except Err q.Reply) : Except Err (List Artifact) → Prop
  | undecoded {e : Err} : decodePage raws = .error e → Folds g unit raws answer (.error e)
  | failed {items : List (Bytes × GhIssue)} {s : ErrGroup SyncCmd SyncCmd.Resp Err Bytes}
      {e : Err} : decodePage raws = .ok items →
      ErrGroup.Reaches ghCommentConcurrency (workerAnswers answer)
        (.init (g.foldTasks unit items)) s → s.Finished → s.err = some e →
      Folds g unit raws answer (.error e)
  | folded {items : List (Bytes × GhIssue)} {s : ErrGroup SyncCmd SyncCmd.Resp Err Bytes} :
      decodePage raws = .ok items →
      ErrGroup.Reaches ghCommentConcurrency (workerAnswers answer)
        (.init (g.foldTasks unit items)) s → s.Finished → s.err = none →
      Folds g unit raws answer (.ok (slotArts unit items s.slots))

/-- What `syncRepoIssues` does with a page once it is folded. -/
def afterFold (g : GitHub) (unit : SourceUnit) (cursor newPos : String) (page remaining : ℕ)
    (raws : List RawIssue) : Except Err (List Artifact) → SyncProg (Except Err Bool)
  | .error e => do
      if ← ctxErr then return .ok false
      return .error e
  | .ok arts => do
      match ← emitPage newPos arts with
      | .error e => return .error e
      | .ok newPos =>
          if raws.length < g.pageSize then return .ok true
          else if g.budget ≤ page ∧ newPos ≠ cursor then return .ok false
          else g.syncPages unit cursor newPos (page + 1) remaining

/-- A round of the drain folds its page, and goes on with what came of it. -/
theorem syncPages_succ (g : GitHub) (unit : SourceUnit) (cursor newPos : String)
    (page remaining : ℕ) :
    g.syncPages unit cursor newPos page (remaining + 1) = (do
      if ← ctxErr then return .ok false
      match ← request (.issues unit.id g.pageSize page cursor) with
      | .error e => return .error e
      | .ok raws =>
          let r ← g.foldIssuePage unit raws
          g.afterFold unit cursor newPos page remaining raws r) := by
  rw [syncPages]
  refine congrArg (Prog.bind ctxErr) (funext fun b => ?_)
  cases b with
  | true => rfl
  | false =>
    refine congrArg (Prog.bind (request (.issues unit.id g.pageSize page cursor)))
      (funext fun r => ?_)
    cases r with
    | error e => rfl
    | ok raws =>
      refine congrArg (Prog.bind (g.foldIssuePage unit raws)) (funext fun r => ?_)
      cases r <;> rfl

/-! ### Concurrent and sequential -/

/-- A worker emits nothing. -/
theorem uses_foldTasks {g : GitHub} {unit : SourceUnit} {items : List (Bytes × GhIssue)}
    {p : SyncProg (Except Err Bytes)} (hp : p ∈ g.foldTasks unit items) :
    p.Uses fun c => c.isFetch = true := by
  obtain ⟨it, -, rfl⟩ := List.mem_map.mp hp
  -- the comments are fetched page by page: by induction on the pages that remain
  have hthread : ∀ out page remaining, (g.fetchComments unit.id it.2.number out page remaining).Uses
      fun c => c.isFetch = true := by
    intro out page remaining
    induction remaining generalizing out page with
    | zero => exact Prog.uses_pure _ _
    | succ remaining ih =>
      refine ⟨rfl, fun b => ?_⟩
      cases b with
      | true => exact Prog.uses_pure _ _
      | false =>
        refine ⟨rfl, fun r => ?_⟩
        cases r with
        | error e => exact Prog.uses_pure _ _
        | ok comments =>
          show Prog.Uses _ (if comments.length < g.pageSize then _ else _)
          split
          · exact Prog.uses_pure _ _
          · exact ih _ _
  unfold issueArtifact
  split
  · exact Prog.uses_pure _ _
  · refine (hthread [] 1 ghMaxCommentPages).bind fun r => ?_
    obtain ⟨comments, failure⟩ := r
    cases failure with
    | none => exact Prog.uses_pure _ _
    | some e =>
      refine ⟨rfl, fun b => ?_⟩
      cases b with
      | true => exact Prog.uses_pure _ _
      | false =>
        cases e with
        | auth n => exact Prog.uses_pure _ _
        | rateLimit d => exact Prog.uses_pure _ _
        | _ =>
          dsimp only
          split <;> exact Prog.uses_pure _ _

/-- A page that was not folded is not emitted. -/
theorem uses_afterFold_error (g : GitHub) (unit : SourceUnit) (cursor newPos : String)
    (page remaining : ℕ) (raws : List RawIssue) (e : Err) :
    (g.afterFold unit cursor newPos page remaining raws (.error e)).Uses
      fun c => c.isFetch = true := by
  refine ⟨rfl, fun b => ?_⟩
  cases b <;> exact Prog.uses_pure _ _

variable {g : GitHub} {unit : SourceUnit} {raws : List RawIssue}
  {answer : ℕ → (q : Request) → Except Err q.Reply}

/-- Of a page that decodes, every element does. -/
theorem pageIssues_of_decodePage {items : List (Bytes × GhIssue)}
    (h : decodePage raws = .ok items) : (∀ r ∈ raws, r.issue ≠ none) ∧ items = pageIssues raws := by
  have hall : ∀ r ∈ raws, r.issue ≠ none := by
    intro r hr hnone
    obtain ⟨e, he⟩ := decodePage_eq_error hr hnone
    rw [he] at h
    cases h
  rw [decodePage_eq_ok hall] at h
  exact ⟨hall, (Except.ok.inj h).symm⟩

/-- A page whose workers are done and have no error is the page folded issue by issue. -/
theorem oneByOne_of_folded {items : List (Bytes × GhIssue)}
    {s : ErrGroup SyncCmd SyncCmd.Resp Err Bytes}
    (h : ErrGroup.Reaches ghCommentConcurrency (workerAnswers answer)
      (.init (g.foldTasks unit items)) s) (hfin : s.Finished) (herr : s.err = none) :
    g.oneByOne unit answer 0 items = .ok (slotArts unit items s.slots) := by
  refine g.oneByOne_eq_ok unit answer (fun i => (s.slots i).getD []) 0 items ?_
  intro j it hit
  obtain ⟨hj, rfl⟩ := List.getElem?_eq_some_iff.mp hit
  have hj' : j < (g.foldTasks unit items).length := by
    unfold foldTasks
    rwa [List.length_map]
  obtain ⟨doc, hslot, hdoc⟩ :=
    h.slot_of_err_none (answered_workerAnswers answer) hfin herr hj'
  have htask : (g.foldTasks unit items)[j] = g.issueArtifact unit.id items[j].1 items[j].2 :=
    List.getElem_map _
  rw [htask] at hdoc
  rw [Nat.zero_add, hslot]
  exact hdoc

/-- The workers succeed exactly when no issue of a page that decodes fails by itself. -/
theorem err_none_iff_not_propagates {s : ErrGroup SyncCmd SyncCmd.Resp Err Bytes}
    (hall : ∀ r ∈ raws, r.issue ≠ none)
    (h : ErrGroup.Reaches ghCommentConcurrency (workerAnswers answer)
      (.init (g.foldTasks unit (pageIssues raws))) s) (hfin : s.Finished) :
    s.err = none ↔ ¬ g.Propagates unit raws answer := by
  have htask : ∀ (i : ℕ) (hi : i < (g.foldTasks unit (pageIssues raws)).length),
      ∃ it, (pageIssues raws)[i]? = some it ∧
        (g.foldTasks unit (pageIssues raws))[i].eval (alone (answer i)) =
          g.docOf unit (answer i) it := by
    intro i hi
    have hi' : i < (pageIssues raws).length := by
      unfold foldTasks at hi
      rwa [List.length_map] at hi
    refine ⟨(pageIssues raws)[i], List.getElem?_eq_getElem hi', ?_⟩
    exact congrArg (Prog.eval (alone (answer i))) (List.getElem_map _)
  rw [h.err_none_iff (answered_workerAnswers answer) hfin]
  constructor
  · rintro hdocs (⟨r, hr, hnone⟩ | ⟨i, it, e, hit, herr⟩)
    · exact hall r hr hnone
    · obtain ⟨hi, -⟩ := List.getElem?_eq_some_iff.mp hit
      have hi' : i < (g.foldTasks unit (pageIssues raws)).length := by
        unfold foldTasks
        rwa [List.length_map]
      obtain ⟨it', hit', heval⟩ := htask i hi'
      obtain rfl : it = it' := Option.some.inj (hit.symm.trans hit')
      obtain ⟨doc, hdoc⟩ := hdocs i hi'
      rw [heval, herr] at hdoc
      cases hdoc
  · intro hnot i hi
    obtain ⟨it, hit, heval⟩ := htask i hi
    rw [heval]
    cases hdoc : g.docOf unit (answer i) it with
    | ok doc => exact ⟨doc, rfl⟩
    | error e => exact absurd (.inr ⟨i, it, e, hit, hdoc⟩) hnot

/-- **The concurrent fold is the sequential one.**  For every page, every outcome of every
comment fetch and every schedule of the workers: the fold comes to an end; it succeeds exactly
when no issue of the page fails; then it returns the artifacts of the issues, built one by one in
the order of the page; and else it returns an error, and nothing of the page is emitted, neither
by the workers nor by what follows the fold. -/
theorem foldIssuePage_concurrent (g : GitHub) (unit : SourceUnit) (raws : List RawIssue)
    (answer : ℕ → (q : Request) → Except Err q.Reply) :
    (WellFounded (flip (FoldStep answer)) ∧ ∀ s, s.Finished ∨ ∃ s', FoldStep answer s s') ∧
      (∀ p ∈ g.foldTasks unit (pageIssues raws), p.Uses fun c => c.isFetch = true) ∧
      ∀ r, g.Folds unit raws answer r →
        ((∃ arts, r = .ok arts) ↔ ¬ g.Propagates unit raws answer) ∧
        (∀ arts, r = .ok arts → g.oneByOne unit answer 0 (pageIssues raws) = .ok arts) ∧
        (∀ e, r = .error e → ∀ cursor newPos page remaining,
          (g.afterFold unit cursor newPos page remaining raws r).Uses
            fun c => c.isFetch = true) := by
  refine ⟨⟨ErrGroup.wellFounded_step _ _, ErrGroup.finished_or_step (by decide)
    (workerAnswers_total answer)⟩, fun p hp => uses_foldTasks hp, fun r hr => ?_⟩
  cases hr with
  | @undecoded e hdecode =>
    refine ⟨⟨fun ⟨_, h⟩ => (by cases h), fun hnot => ?_⟩, nofun, ?_⟩
    · have hall : ∀ r ∈ raws, r.issue ≠ none := fun r hr hnone => hnot (.inl ⟨r, hr, hnone⟩)
      rw [decodePage_eq_ok hall] at hdecode
      cases hdecode
    · exact fun _ _ cursor newPos page remaining => g.uses_afterFold_error ..
  | @failed items s e hdecode hreach hfin herr =>
    obtain ⟨hall, rfl⟩ := pageIssues_of_decodePage hdecode
    have hiff := err_none_iff_not_propagates hall hreach hfin
    refine ⟨⟨fun ⟨_, h⟩ => (by cases h), fun hnot => ?_⟩, nofun, ?_⟩
    · rw [hiff.mpr hnot] at herr
      cases herr
    · exact fun _ _ cursor newPos page remaining => g.uses_afterFold_error ..
  | @folded items s hdecode hreach hfin herr =>
    obtain ⟨hall, rfl⟩ := pageIssues_of_decodePage hdecode
    have hiff := err_none_iff_not_propagates hall hreach hfin
    refine ⟨⟨fun _ => hiff.mp herr, fun _ => ⟨_, rfl⟩⟩, fun arts harts => ?_, nofun⟩
    obtain rfl := Except.ok.inj harts
    exact oneByOne_of_folded hreach hfin herr

end GitHub

end Connectors
end Hivebook
