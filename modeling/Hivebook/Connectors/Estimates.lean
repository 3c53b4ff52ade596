import Mathlib.Tactic.Common
import Hivebook.Lib.ErrGroup
import Hivebook.Lib.Recency
import Hivebook.Connectors.Replies

/-!
# Estimates in batches, and one by one

`EstimateTotals` asks for the totals of up to 25 units in one query, each under an alias that says
where in its batch the unit is.  Ids that are not `owner/name` are skipped and leave holes among the
aliases; a batch that fails is skipped as a whole; and the totals of both kinds of units are
collected in one map, under the ids.

Asking for one unit after the other gives the same totals, so long as no repository and no board
have the same id.  The ids of a connection are unique, so that none have.

## Main definitions

* `TotalsSource` — what a source has to count; `TotalsSource.answer` — how it answers a query.
* `subBatches` — the batches of a call, with their queries.
* `TotalsSource.single` — what a query for one unit returns.
* `OneByOne` — a call returns what queries for single units would.

## Main results

* `mem_estimateTotals` — what is in the map after a call.
* `estimateTotals_one_by_one` — **the estimates in batches are those one by one.**
* `shared_id_overwritten` — a repository and a board with one id have one entry.
-/

namespace Hivebook
namespace Connectors

open Recency

/-- What a source has: the issues of a repository, by owner and name, and the items of a board.
What it does not resolve has no total. -/
structure TotalsSource where
  repoTotal : String → String → Option ℤ
  boardTotal : String → Option ℤ

/-- What an alias of a query stands for. -/
def TotalsSource.resolve (src : TotalsSource) (q : TotalsQuery) (label : String) : Option ℤ :=
  match q with
  | .repos nodes => (lookup Prod.fst label nodes).bind fun node => src.repoTotal node.2.1 node.2.2
  | .projects nodes => (lookup Prod.fst label nodes).bind fun node => src.boardTotal node.2

/-- A query is answered under its aliases, unless it fails. -/
def TotalsSource.answer (src : TotalsSource) (fails : TotalsQuery → Option Err) (q : TotalsQuery) :
    Except Err (String → Option ℤ) :=
  match fails q with
  | some e => .error e
  | none => .ok (src.resolve q)

/-- The total of a repository; an id that is not `owner/name` has none. -/
def TotalsSource.repo (src : TotalsSource) (u : SourceUnit) : Option ℤ :=
  (Storage.cut u.id).bind fun name => src.repoTotal name.1 name.2

/-- The total of a board. -/
def TotalsSource.board (src : TotalsSource) (u : SourceUnit) : Option ℤ := src.boardTotal u.id

namespace GitHub

/-! ### A batch -/

/-- The totals that are set: those of the ids whose alias has one. -/
theorem mem_setTotals {resp : String → Option ℤ} {out : List (String × ℤ)}
    {units : List (String × String)} (hids : (units.map Prod.snd).Nodup)
    (hout : ∀ e ∈ out, e.1 ∉ units.map Prod.snd) {id : String} {n : ℤ} :
    (id, n) ∈ setTotals resp out units ↔
      (id, n) ∈ out ∨ ∃ label, (label, id) ∈ units ∧ resp label = some n := by
  induction units generalizing out with
  | nil => simp [setTotals]
  | cons unit units ih =>
    obtain ⟨label, id'⟩ := unit
    rw [List.map_cons, List.nodup_cons] at hids
    obtain ⟨hnew, hids⟩ := hids
    have hout' : ∀ e ∈ out, e.1 ≠ id' ∧ e.1 ∉ units.map Prod.snd := by
      intro e he
      have hnot := hout e he
      rw [List.map_cons, List.mem_cons, not_or] at hnot
      exact hnot
    unfold setTotals
    cases hresp : resp label with
    | none =>
      have hrest := ih hids fun e he => (hout' e he).2
      rw [hrest]
      refine or_congr_right ⟨?_, ?_⟩
      · rintro ⟨l, hl, hn⟩
        exact ⟨l, List.mem_cons_of_mem _ hl, hn⟩
      · rintro ⟨l, hl, hn⟩
        rcases List.mem_cons.mp hl with heq | hl
        · obtain ⟨rfl, rfl⟩ := Prod.mk.inj heq
          rw [hresp] at hn
          cases hn
        · exact ⟨l, hl, hn⟩
    | some m =>
      -- nothing is overwritten
      have hkept : (out.filter fun e => decide (e.1 ≠ id')) = out :=
        List.filter_eq_self.mpr fun e he => decide_eq_true (hout' e he).1
      have hset : setTotal id' m out = out ++ [(id', m)] := by
        rw [setTotal, hkept]
      have hrest := @ih (out ++ [(id', m)]) hids ?_
      · dsimp only
        rw [hset, hrest, List.mem_append, List.mem_singleton, or_assoc]
        refine or_congr_right ⟨?_, ?_⟩
        · rintro (heq | ⟨l, hl, hn⟩)
          · obtain ⟨rfl, rfl⟩ := Prod.mk.inj heq
            exact ⟨label, List.mem_cons_self, hresp⟩
          · exact ⟨l, List.mem_cons_of_mem _ hl, hn⟩
        · rintro ⟨l, hl, hn⟩
          rcases List.mem_cons.mp hl with heq | hl
          · obtain ⟨rfl, rfl⟩ := Prod.mk.inj heq
            rw [hresp] at hn
            exact .inl (by rw [Option.some.inj hn])
          · exact .inr ⟨l, hl, hn⟩
      · intro e he
        rcases List.mem_append.mp he with he | he
        · exact (hout' e he).2
        · rw [List.mem_singleton.mp he]
          exact hnew

/-- The same, for nodes whose aliases stand for their totals. -/
theorem mem_setTotals_map {β : Type} {resp : String → Option ℤ} {out : List (String × ℤ)}
    {nodes : List β} {label uid : β → String} {total : β → Option ℤ}
    (hids : (nodes.map uid).Nodup) (hout : ∀ e ∈ out, e.1 ∉ nodes.map uid)
    (hresp : ∀ x ∈ nodes, resp (label x) = total x) (id : String) (n : ℤ) :
    (id, n) ∈ setTotals resp out (nodes.map fun x => (label x, uid x)) ↔
      (id, n) ∈ out ∨ ∃ x ∈ nodes, uid x = id ∧ total x = some n := by
  have hmap : (nodes.map fun x => (label x, uid x)).map Prod.snd = nodes.map uid := by
    rw [List.map_map]
    rfl
  rw [mem_setTotals (hmap ▸ hids) (hmap ▸ hout)]
  refine or_congr_right ⟨?_, ?_⟩
  · rintro ⟨l, hmem, hn⟩
    obtain ⟨x, hx, heq⟩ := List.mem_map.mp hmem
    obtain ⟨rfl, rfl⟩ := Prod.mk.inj heq
    exact ⟨x, hx, rfl, (hresp x hx).symm.trans hn⟩
  · rintro ⟨x, hx, rfl, hn⟩
    exact ⟨label x, List.mem_map_of_mem hx, (hresp x hx).trans hn⟩

/-- The places in a batch are spelled differently. -/
theorem eq_of_spelled :
    ∀ i < ghEstimateBatchSize, ∀ j < ghEstimateBatchSize, toString i = toString j → i = j := by
  decide

/-- The aliases of a batch are distinct: they spell the places of the units. -/
theorem nodup_aliases {β : Type} (initial : String) (f : SourceUnit × ℕ → Option β)
    (label : β → String) (hlabel : ∀ p b, f p = some b → label b = initial ++ toString p.2)
    {batch : List SourceUnit} (hsize : batch.length ≤ ghEstimateBatchSize) :
    ((batch.zipIdx.filterMap f).map label).Nodup := by
  have hplaces : (batch.zipIdx.map Prod.snd).Nodup := by
    rw [List.zipIdx_map_snd]
    exact List.nodup_range'
  have hlt : ∀ p ∈ batch.zipIdx, p.2 < ghEstimateBatchSize := by
    rintro ⟨u, i⟩ hp
    have hi := (List.getElem?_eq_some_iff.mp (List.mem_zipIdx_iff_getElem?.mp hp)).1
    exact lt_of_lt_of_le hi hsize
  rw [List.Nodup, List.pairwise_map] at hplaces ⊢
  refine List.pairwise_filterMap.mpr (hplaces.imp_of_mem fun hp hp' hne => ?_)
  intro b hb b' hb' heq
  rw [hlabel _ _ hb, hlabel _ _ hb', String.append_right_inj] at heq
  exact hne (eq_of_spelled _ (hlt _ hp) _ (hlt _ hp') heq)

/-- The query of a batch of repositories. -/
def repoQuery (batch : List SourceUnit) : TotalsQuery :=
  .repos ((repoNodes batch).map fun x => (x.1, x.2.2.1, x.2.2.2))

/-- The query of a batch of boards. -/
def projectQuery (batch : List SourceUnit) : TotalsQuery := .projects (projectNodes batch)

theorem mem_repoNodes {batch : List SourceUnit} {x : String × SourceUnit × String × String} :
    x ∈ repoNodes batch ↔ ∃ (i : ℕ) (u : SourceUnit) (name : String × String), batch[i]? = some u ∧
      Storage.cut u.id = some name ∧ x = ("r" ++ toString i, u, name.1, name.2) := by
  unfold repoNodes
  rw [List.mem_filterMap]
  constructor
  · rintro ⟨⟨u, i⟩, hmem, hx⟩
    obtain ⟨name, hname, rfl⟩ := Option.map_eq_some_iff.mp hx
    exact ⟨i, u, name, List.mem_zipIdx_iff_getElem?.mp hmem, hname, rfl⟩
  · rintro ⟨i, u, name, hu, hname, rfl⟩
    refine ⟨(u, i), List.mem_zipIdx_iff_getElem?.mpr hu, ?_⟩
    rw [hname]
    rfl

theorem nodup_repoAliases {batch : List SourceUnit} (hsize : batch.length ≤ ghEstimateBatchSize) :
    ((repoNodes batch).map Prod.fst).Nodup := by
  refine nodup_aliases "r" _ Prod.fst ?_ hsize
  intro p b hb
  obtain ⟨name, -, rfl⟩ := Option.map_eq_some_iff.mp hb
  rfl

theorem mem_projectNodes {batch : List SourceUnit} {x : String × String} :
    x ∈ projectNodes batch ↔ ∃ (i : ℕ) (u : SourceUnit), batch[i]? = some u ∧
      x = ("p" ++ toString i, u.id) := by
  unfold projectNodes
  rw [List.mem_map]
  constructor
  · rintro ⟨⟨u, i⟩, hmem, rfl⟩
    exact ⟨i, u, List.mem_zipIdx_iff_getElem?.mp hmem, rfl⟩
  · rintro ⟨i, u, hu, rfl⟩
    exact ⟨(u, i), List.mem_zipIdx_iff_getElem?.mpr hu, rfl⟩

theorem nodup_projectAliases {batch : List SourceUnit}
    (hsize : batch.length ≤ ghEstimateBatchSize) : ((projectNodes batch).map Prod.fst).Nodup := by
  have heq : projectNodes batch =
      batch.zipIdx.filterMap fun p => some ("p" ++ toString p.2, p.1.id) := by
    rw [projectNodes, ← List.filterMap_eq_map]
    rfl
  rw [heq]
  refine nodup_aliases "p" _ Prod.fst ?_ hsize
  intro p b hb
  cases hb
  rfl

/-! ### The batches -/

/-- A batch of units is asked for, and its totals are set. -/
def repoRound (h : (q : TotalsQuery) → Except Err (String → Option ℤ)) (out : List (String × ℤ))
    (batch : List SourceUnit) : List (String × ℤ) :=
  if repoNodes batch = [] then out
  else
    match h (repoQuery batch) with
    | .error _ => out
    | .ok resp => setTotals resp out ((repoNodes batch).map fun x => (x.1, x.2.1.id))

def projectRound (h : (q : TotalsQuery) → Except Err (String → Option ℤ)) (out : List (String × ℤ))
    (batch : List SourceUnit) : List (String × ℤ) :=
  match h (projectQuery batch) with
  | .error _ => out
  | .ok resp => setTotals resp out (projectNodes batch)

/-- One batch after the other. -/
def rounds (round : List (String × ℤ) → List SourceUnit → List (String × ℤ)) :
    List (String × ℤ) → ℕ → List SourceUnit → List (String × ℤ)
  | out, 0, _ => out
  | out, n + 1, units =>
      rounds round (round out (units.take ghEstimateBatchSize)) n (units.drop ghEstimateBatchSize)

/-- The batch of units with that number. -/
def batchAt (units : List SourceUnit) (k : ℕ) : List SourceUnit :=
  (units.drop (ghEstimateBatchSize * k)).take ghEstimateBatchSize

theorem batchAt_zero (units : List SourceUnit) :
    batchAt units 0 = units.take ghEstimateBatchSize := rfl

theorem batchAt_succ (units : List SourceUnit) (k : ℕ) :
    batchAt units (k + 1) = batchAt (units.drop ghEstimateBatchSize) k := by
  unfold batchAt
  rw [List.drop_drop, Nat.mul_succ, Nat.add_comm]

theorem mem_of_mem_batchAt {units : List SourceUnit} {k : ℕ} {u : SourceUnit}
    (h : u ∈ batchAt units k) : u ∈ units :=
  List.mem_of_mem_drop (List.mem_of_mem_take h)

theorem eval_estimateRepoTotals (h : (q : TotalsQuery) → Except Err (String → Option ℤ))
    (out : List (String × ℤ)) (n : ℕ) (units : List SourceUnit) :
    (estimateRepoTotals out n units).eval h = rounds (repoRound h) out n units := by
  induction n generalizing out units with
  | zero => rfl
  | succ n ih =>
    unfold estimateRepoTotals rounds repoRound
    by_cases hnodes : repoNodes (units.take ghEstimateBatchSize) = []
    · simp only [if_pos hnodes]
      exact ih _ _
    · simp only [if_neg hnodes]
      rw [Prog.bind_eq, Prog.eval_bind]
      show Prog.eval h (match h (repoQuery (units.take ghEstimateBatchSize)) with
        | .error _ => _
        | .ok resp => _) = _
      cases h (repoQuery (units.take ghEstimateBatchSize)) with
      | error e => exact ih _ _
      | ok resp => exact ih _ _

theorem eval_estimateProjectTotals (h : (q : TotalsQuery) → Except Err (String → Option ℤ))
    (out : List (String × ℤ)) (n : ℕ) (units : List SourceUnit) :
    (estimateProjectTotals out n units).eval h = rounds (projectRound h) out n units := by
  induction n generalizing out units with
  | zero => rfl
  | succ n ih =>
    unfold estimateProjectTotals rounds projectRound
    rw [Prog.bind_eq, Prog.eval_bind]
    show Prog.eval h (match h (projectQuery (units.take ghEstimateBatchSize)) with
      | .error _ => _
      | .ok resp => _) = _
    cases h (projectQuery (units.take ghEstimateBatchSize)) with
    | error e => exact ih _ _
    | ok resp => exact ih _ _

/-- What a round adds: the totals of the units of its batch, unless its query fails. -/
def RoundAdds (round : List (String × ℤ) → List SourceUnit → List (String × ℤ))
    (adds : List SourceUnit → SourceUnit → Option ℤ) : Prop :=
  ∀ (out : List (String × ℤ)) (batch : List SourceUnit), batch.length ≤ ghEstimateBatchSize →
    (batch.map SourceUnit.id).Nodup → (∀ e ∈ out, e.1 ∉ batch.map SourceUnit.id) → ∀ id n,
      (id, n) ∈ round out batch ↔
        (id, n) ∈ out ∨ ∃ u ∈ batch, u.id = id ∧ adds batch u = some n

/-- **What all rounds add**, by induction on their number: what one batch sets no later one
overwrites. -/
theorem mem_rounds {round : List (String × ℤ) → List SourceUnit → List (String × ℤ)}
    {adds : List SourceUnit → SourceUnit → Option ℤ} (hround : RoundAdds round adds)
    {out : List (String × ℤ)} {m : ℕ} {units : List SourceUnit}
    (hids : (units.map SourceUnit.id).Nodup)
    (hout : ∀ e ∈ out, e.1 ∉ units.map SourceUnit.id) (id : String) (n : ℤ) :
    (id, n) ∈ rounds round out m units ↔ (id, n) ∈ out ∨
      ∃ k < m, ∃ u ∈ batchAt units k, u.id = id ∧ adds (batchAt units k) u = some n := by
  induction m generalizing out units with
  | zero => simp [rounds]
  | succ m ih =>
    have hsplit := List.take_append_drop ghEstimateBatchSize units
    rw [← hsplit, List.map_append, List.nodup_append'] at hids
    obtain ⟨hfirst, hrest, hdisjoint⟩ := hids
    have hsize := List.length_take_le ghEstimateBatchSize units
    have hone := hround out (units.take ghEstimateBatchSize) hsize hfirst fun e he hmem => by
      refine hout e he ?_
      rw [← hsplit, List.map_append]
      exact List.mem_append_left _ hmem
    have hlater := @ih (round out (units.take ghEstimateBatchSize))
      (units.drop ghEstimateBatchSize) hrest ?_
    · rw [rounds, hlater, hone id n, Nat.exists_lt_succ_left, or_assoc]
      simp only [batchAt_zero, batchAt_succ]
    · -- what is in the map by now has no id of a later batch
      rintro ⟨id', n'⟩ he hmem
      rcases (hone id' n').mp he with he | ⟨u, hu, rfl, -⟩
      · refine hout _ he ?_
        rw [← hsplit, List.map_append]
        exact List.mem_append_right _ hmem
      · exact hdisjoint (List.mem_map_of_mem hu) hmem

/-- A total that a query is answered with, unless it fails. -/
def unlessFails (fails : TotalsQuery → Option Err) (q : TotalsQuery) (total : Option ℤ) :
    Option ℤ :=
  if fails q = none then total else none

theorem unlessFails_eq_some {fails : TotalsQuery → Option Err} {q : TotalsQuery}
    {total : Option ℤ} {n : ℤ} :
    unlessFails fails q total = some n ↔ fails q = none ∧ total = some n := by
  unfold unlessFails
  by_cases h : fails q = none <;> simp [h]

/-- The ids of the nodes are those of the units. -/
theorem nodup_repoIds {batch : List SourceUnit} (hids : (batch.map SourceUnit.id).Nodup) :
    ((repoNodes batch).map fun x => x.2.1.id).Nodup := by
  have hplaces : (batch.zipIdx.map fun p => p.1.id).Nodup := by
    have heq : (batch.zipIdx.map fun p => p.1.id) = batch.map SourceUnit.id := by
      conv_rhs => rw [← List.zipIdx_map_fst 0 batch, List.map_map]
      rfl
    rwa [heq]
  rw [List.Nodup, List.pairwise_map] at hplaces ⊢
  refine List.pairwise_filterMap.mpr (hplaces.imp fun hne => ?_)
  intro x hx x' hx' heq
  obtain ⟨name, -, rfl⟩ := Option.map_eq_some_iff.mp hx
  obtain ⟨name', -, rfl⟩ := Option.map_eq_some_iff.mp hx'
  exact hne heq

/-- The alias of a node stands for that node. -/
theorem resolve_repoQuery (src : TotalsSource) {batch : List SourceUnit}
    (hsize : batch.length ≤ ghEstimateBatchSize) {x : String × SourceUnit × String × String}
    (hx : x ∈ repoNodes batch) :
    src.resolve (repoQuery batch) x.1 = src.repoTotal x.2.2.1 x.2.2.2 := by
  have hnodup : (((repoNodes batch).map fun x => (x.1, x.2.2.1, x.2.2.2)).map Prod.fst).Nodup := by
    rw [List.map_map]
    exact nodup_repoAliases hsize
  have hmem : (x.1, x.2.2.1, x.2.2.2) ∈ (repoNodes batch).map fun x => (x.1, x.2.2.1, x.2.2.2) :=
    List.mem_map_of_mem hx
  have hlook := lookup_of_mem hnodup hmem
  dsimp only at hlook
  unfold TotalsSource.resolve repoQuery
  dsimp only
  rw [hlook]
  rfl

theorem resolve_projectQuery (src : TotalsSource) {batch : List SourceUnit}
    (hsize : batch.length ≤ ghEstimateBatchSize) {x : String × String}
    (hx : x ∈ projectNodes batch) :
    src.resolve (projectQuery batch) x.1 = src.boardTotal x.2 := by
  have hlook := lookup_of_mem (nodup_projectAliases hsize) hx
  unfold TotalsSource.resolve projectQuery
  dsimp only
  rw [hlook]
  rfl

/-- The units of a batch that have a total are its nodes that have one. -/
theorem exists_repo_iff (src : TotalsSource) (batch : List SourceUnit) (id : String) (n : ℤ) :
    (∃ u ∈ batch, u.id = id ∧ src.repo u = some n) ↔
      ∃ x ∈ repoNodes batch, x.2.1.id = id ∧ src.repoTotal x.2.2.1 x.2.2.2 = some n := by
  constructor
  · rintro ⟨u, hu, rfl, hn⟩
    obtain ⟨i, hi⟩ := List.mem_iff_getElem?.mp hu
    obtain ⟨name, hname, hn⟩ := Option.bind_eq_some_iff.mp hn
    exact ⟨_, mem_repoNodes.mpr ⟨i, u, name, hi, hname, rfl⟩, rfl, hn⟩
  · rintro ⟨x, hx, rfl, hn⟩
    obtain ⟨i, u, name, hi, hname, rfl⟩ := mem_repoNodes.mp hx
    refine ⟨u, List.mem_of_getElem? hi, rfl, ?_⟩
    rw [TotalsSource.repo, hname]
    exact hn

theorem exists_board_iff (src : TotalsSource) (batch : List SourceUnit) (id : String) (n : ℤ) :
    (∃ u ∈ batch, u.id = id ∧ src.board u = some n) ↔
      ∃ x ∈ projectNodes batch, x.2 = id ∧ src.boardTotal x.2 = some n := by
  constructor
  · rintro ⟨u, hu, rfl, hn⟩
    obtain ⟨i, hi⟩ := List.mem_iff_getElem?.mp hu
    exact ⟨_, mem_projectNodes.mpr ⟨i, u, hi, rfl⟩, rfl, hn⟩
  · rintro ⟨x, hx, rfl, hn⟩
    obtain ⟨i, u, hi, rfl⟩ := mem_projectNodes.mp hx
    exact ⟨u, List.mem_of_getElem? hi, rfl, hn⟩

/-- **What a batch of repositories adds.** -/
theorem roundAdds_repo (src : TotalsSource) (fails : TotalsQuery → Option Err) :
    RoundAdds (repoRound (src.answer fails)) fun batch u =>
      unlessFails fails (repoQuery batch) (src.repo u) := by
  intro out batch hsize hids hout id n
  simp only [unlessFails_eq_some]
  unfold repoRound TotalsSource.answer
  by_cases hnil : repoNodes batch = []
  · rw [if_pos hnil]
    have hnone : ¬ ∃ u ∈ batch, u.id = id ∧ src.repo u = some n := by
      rw [exists_repo_iff, hnil]
      simp
    constructor
    · exact .inl
    · rintro (hmem | ⟨u, hu, hid, -, hn⟩)
      · exact hmem
      · exact absurd ⟨u, hu, hid, hn⟩ hnone
  · rw [if_neg hnil]
    cases hfails : fails (repoQuery batch) with
    | some e => simp
    | none =>
      simp only [true_and]
      rw [exists_repo_iff]
      refine mem_setTotals_map (nodup_repoIds hids) (fun e he hmem => hout e he ?_)
        (fun x hx => resolve_repoQuery src hsize hx) id n
      obtain ⟨x, hx, heq⟩ := List.mem_map.mp hmem
      obtain ⟨i, u, name, hi, -, rfl⟩ := mem_repoNodes.mp hx
      rw [← heq]
      exact List.mem_map_of_mem (List.mem_of_getElem? hi)

/-- **What a batch of boards adds.** -/
theorem roundAdds_project (src : TotalsSource) (fails : TotalsQuery → Option Err) :
    RoundAdds (projectRound (src.answer fails)) fun batch u =>
      unlessFails fails (projectQuery batch) (src.board u) := by
  intro out batch hsize hids hout id n
  simp only [unlessFails_eq_some]
  unfold projectRound TotalsSource.answer
  cases hfails : fails (projectQuery batch) with
  | some e => simp
  | none =>
    simp only [true_and]
    rw [exists_board_iff]
    have hids' : (projectNodes batch).map Prod.snd = batch.map SourceUnit.id := by
      conv_rhs => rw [← List.zipIdx_map_fst 0 batch, List.map_map]
      rw [projectNodes, List.map_map]
      rfl
    have hset := mem_setTotals_map (hids' ▸ hids) (hids' ▸ hout)
      (fun x hx => resolve_projectQuery src hsize hx) id n
    simpa using hset

/-! ### The call -/

/-- The repositories among the units. -/
def reposOf (units : List SourceUnit) : List SourceUnit :=
  units.filter fun u => decide (u.kind = "github_repo")

/-- The boards among the units. -/
def projectsOf (units : List SourceUnit) : List SourceUnit :=
  units.filter fun u => decide (u.kind = "github_project")

/-- **What is in the map after a call**: the totals of the units whose batches did not fail. -/
theorem mem_estimateTotals (src : TotalsSource) (fails : TotalsQuery → Option Err)
    {units : List SourceUnit}
    (hids : ((reposOf units ++ projectsOf units).map SourceUnit.id).Nodup) :
    ∃ out, (estimateTotals units).eval (src.answer fails) = .ok out ∧ ∀ id n, (id, n) ∈ out ↔
      (∃ k < batchCount (reposOf units), ∃ u ∈ batchAt (reposOf units) k, u.id = id ∧
        fails (repoQuery (batchAt (reposOf units) k)) = none ∧ src.repo u = some n) ∨
      ∃ k < batchCount (projectsOf units), ∃ u ∈ batchAt (projectsOf units) k, u.id = id ∧
        fails (projectQuery (batchAt (projectsOf units) k)) = none ∧ src.board u = some n := by
  have heval : (estimateTotals units).eval (src.answer fails) =
      .ok (rounds (projectRound (src.answer fails))
        (rounds (repoRound (src.answer fails)) [] (batchCount (reposOf units)) (reposOf units))
        (batchCount (projectsOf units)) (projectsOf units)) := by
    unfold estimateTotals
    simp only [Prog.bind_eq, Prog.eval_bind, eval_estimateRepoTotals, eval_estimateProjectTotals]
    rfl
  rw [List.map_append, List.nodup_append'] at hids
  obtain ⟨hrepos, hprojects, hdisjoint⟩ := hids
  have hfirst : ∀ {id n}, (id, n) ∈ rounds (repoRound (src.answer fails)) []
      (batchCount (reposOf units)) (reposOf units) ↔ _ :=
    fun {id n} => mem_rounds (roundAdds_repo src fails) hrepos (by simp) id n
  refine ⟨_, heval, fun id n => ?_⟩
  rw [mem_rounds (roundAdds_project src fails) hprojects, hfirst]
  · simp [unlessFails_eq_some]
  · -- no repository has the id of a board
    rintro ⟨id', n'⟩ he hmem
    rcases hfirst.mp he with hnil | ⟨k, -, u, hu, rfl, -⟩
    · cases hnil
    · exact hdisjoint (List.mem_map_of_mem (mem_of_mem_batchAt hu)) hmem

/-! ### One by one -/

/-- The batches of a call, each with its query. -/
def subBatches (units : List SourceUnit) : List (List SourceUnit × TotalsQuery) :=
  ((List.range (batchCount (reposOf units))).map fun k =>
      (batchAt (reposOf units) k, repoQuery (batchAt (reposOf units) k))) ++
    (List.range (batchCount (projectsOf units))).map fun k =>
      (batchAt (projectsOf units) k, projectQuery (batchAt (projectsOf units) k))

theorem mem_subBatches {units : List SourceUnit} {b : List SourceUnit × TotalsQuery} :
    b ∈ subBatches units ↔
      (∃ k < batchCount (reposOf units),
        b = (batchAt (reposOf units) k, repoQuery (batchAt (reposOf units) k))) ∨
      ∃ k < batchCount (projectsOf units),
        b = (batchAt (projectsOf units) k, projectQuery (batchAt (projectsOf units) k)) := by
  simp [subBatches, eq_comm]

/-- Where the units of a batch stand. -/
theorem mem_batchAt_iff {units : List SourceUnit} {k : ℕ} {u : SourceUnit} :
    u ∈ batchAt units k ↔ ∃ i : ℕ, units[i]? = some u ∧ i / ghEstimateBatchSize = k := by
  unfold batchAt ghEstimateBatchSize
  rw [List.mem_iff_getElem?]
  constructor
  · rintro ⟨j, hj⟩
    have hlt : j < 25 := by
      by_contra hge
      rw [List.getElem?_take, if_neg hge] at hj
      cases hj
    rw [List.getElem?_take_of_lt hlt, List.getElem?_drop] at hj
    exact ⟨25 * k + j, hj, by omega⟩
  · rintro ⟨i, hi, rfl⟩
    refine ⟨i % 25, ?_⟩
    rw [List.getElem?_take_of_lt (Nat.mod_lt _ (by omega)), List.getElem?_drop, Nat.div_add_mod, hi]

/-- The batches are all of the units. -/
theorem exists_batchAt {units : List SourceUnit} {u : SourceUnit} (h : u ∈ units) :
    ∃ k < batchCount units, u ∈ batchAt units k := by
  obtain ⟨i, hi⟩ := List.mem_iff_getElem?.mp h
  have hlt := (List.getElem?_eq_some_iff.mp hi).1
  refine ⟨i / ghEstimateBatchSize, ?_, mem_batchAt_iff.mpr ⟨i, hi, rfl⟩⟩
  unfold batchCount ghEstimateBatchSize
  omega

/-- A unit is in one batch. -/
theorem batchAt_unique {units : List SourceUnit} (hunits : units.Nodup) {u : SourceUnit} {k k' : ℕ}
    (h : u ∈ batchAt units k) (h' : u ∈ batchAt units k') : k = k' := by
  obtain ⟨i, hi, rfl⟩ := mem_batchAt_iff.mp h
  obtain ⟨j, hj, rfl⟩ := mem_batchAt_iff.mp h'
  have hlt := (List.getElem?_eq_some_iff.mp hi).1
  rw [(List.getElem?_inj hlt hunits).mp (hi.trans hj.symm)]

/-- What the batches of one kind put under the id of one of their units. -/
theorem exists_total_iff {units : List SourceUnit} (hids : (units.map SourceUnit.id).Nodup)
    {fails : TotalsQuery → Option Err} {query : List SourceUnit → TotalsQuery}
    {total : SourceUnit → Option ℤ} {k : ℕ} {u : SourceUnit} (hk : k < batchCount units)
    (hu : u ∈ batchAt units k) (n : ℤ) :
    (∃ k' < batchCount units, ∃ u' ∈ batchAt units k', u'.id = u.id ∧
        fails (query (batchAt units k')) = none ∧ total u' = some n) ↔
      fails (query (batchAt units k)) = none ∧ total u = some n := by
  constructor
  · rintro ⟨k', -, u', hu', hid, hanswer, hn⟩
    have heq := List.inj_on_of_nodup_map hids (mem_of_mem_batchAt hu') (mem_of_mem_batchAt hu) hid
    subst heq
    rw [batchAt_unique (List.Nodup.of_map _ hids) hu' hu] at hanswer
    exact ⟨hanswer, hn⟩
  · rintro ⟨hanswer, hn⟩
    exact ⟨k, hk, u, hu, rfl, hanswer, hn⟩

end GitHub

/-- The total that `EstimateTotals` returns for a unit when asked for it alone. -/
def TotalsSource.single (src : TotalsSource) (u : SourceUnit) : Option ℤ :=
  match (GitHub.estimateTotals [u]).eval (src.answer fun _ => none) with
  | .error _ => none
  | .ok out => (lookup Prod.fst u.id out).map Prod.snd

namespace GitHub

/-- What a map has under an id. -/
theorem lookup_of_iff {out : List (String × ℤ)} {id : String} {total : Option ℤ}
    (h : ∀ n, (id, n) ∈ out ↔ total = some n) :
    (lookup Prod.fst id out).map Prod.snd = total := by
  cases hfound : lookup Prod.fst id out with
  | none =>
    cases total with
    | none => rfl
    | some n =>
      have hmem := List.mem_map_of_mem (f := Prod.fst) ((h n).mpr rfl)
      exact absurd hmem (lookup_eq_none.mp hfound)
  | some e =>
    obtain ⟨hmem, rfl⟩ := of_lookup hfound
    exact ((h e.2).mp hmem).symm

theorem batchAt_single (u : SourceUnit) (k : ℕ) (hk : k < batchCount [u]) :
    batchAt [u] k = [u] := by
  have hzero : k = 0 := by
    unfold batchCount ghEstimateBatchSize at hk
    simp only [List.length_singleton] at hk
    omega
  subst hzero
  rfl

/-- A repository alone has its own total. -/
theorem single_repo (src : TotalsSource) {u : SourceUnit} (hkind : u.kind = "github_repo") :
    src.single u = src.repo u := by
  have hrepos : reposOf [u] = [u] := by simp [reposOf, hkind]
  have hprojects : projectsOf [u] = [] := by simp [projectsOf, hkind]
  have hids : ((reposOf [u] ++ projectsOf [u]).map SourceUnit.id).Nodup := by
    simp [hrepos, hprojects]
  obtain ⟨out, heval, hmem⟩ := mem_estimateTotals src (fun _ => none) hids
  unfold TotalsSource.single
  rw [heval]
  refine lookup_of_iff fun n => ?_
  rw [hmem, hrepos, hprojects]
  constructor
  · rintro (⟨k, hk, u', hu', -, -, hn⟩ | ⟨k, hk, -⟩)
    · rw [batchAt_single u k hk, List.mem_singleton] at hu'
      rw [← hu']
      exact hn
    · cases hk
  · intro hn
    have hpos : 0 < batchCount [u] := by simp [batchCount, ghEstimateBatchSize]
    exact .inl ⟨0, hpos, u, List.mem_singleton_self u, rfl, rfl, hn⟩

/-- A board alone has its own total. -/
theorem single_project (src : TotalsSource) {u : SourceUnit} (hkind : u.kind = "github_project") :
    src.single u = src.board u := by
  have hrepos : reposOf [u] = [] := by simp [reposOf, hkind]
  have hprojects : projectsOf [u] = [u] := by simp [projectsOf, hkind]
  have hids : ((reposOf [u] ++ projectsOf [u]).map SourceUnit.id).Nodup := by
    simp [hrepos, hprojects]
  obtain ⟨out, heval, hmem⟩ := mem_estimateTotals src (fun _ => none) hids
  unfold TotalsSource.single
  rw [heval]
  refine lookup_of_iff fun n => ?_
  rw [hmem, hrepos, hprojects]
  constructor
  · rintro (⟨k, hk, -⟩ | ⟨k, hk, u', hu', -, -, hn⟩)
    · cases hk
    · rw [batchAt_single u k hk, List.mem_singleton] at hu'
      rw [← hu']
      exact hn
  · intro hn
    have hpos : 0 < batchCount [u] := by simp [batchCount, ghEstimateBatchSize]
    exact .inr ⟨0, hpos, u, List.mem_singleton_self u, rfl, rfl, hn⟩

/-- A call returns for every unit what a query for it alone would, unless its batch fails, and
nothing else. -/
def OneByOne (src : TotalsSource) (fails : TotalsQuery → Option Err) (units : List SourceUnit) :
    Prop :=
  ∃ out, (estimateTotals units).eval (src.answer fails) = .ok out ∧
    (∀ b ∈ subBatches units, ∀ u ∈ b.1, ∀ n,
      (u.id, n) ∈ out ↔ fails b.2 = none ∧ src.single u = some n) ∧
    ∀ e ∈ out, ∃ b ∈ subBatches units, ∃ u ∈ b.1, u.id = e.1

/-- **The estimates in batches are those one by one**, whatever batches fail: every unit is in a
batch, and has the total that it would have alone or, if the batch fails, none. -/
theorem estimateTotals_one_by_one (src : TotalsSource) (fails : TotalsQuery → Option Err)
    {units : List SourceUnit}
    (hids : ((reposOf units ++ projectsOf units).map SourceUnit.id).Nodup) :
    (∀ u ∈ reposOf units ++ projectsOf units, ∃ b ∈ subBatches units, u ∈ b.1) ∧
      OneByOne src fails units := by
  have hrepo : ∀ u ∈ reposOf units, u.kind = "github_repo" := fun u hu =>
    of_decide_eq_true (List.mem_filter.mp hu).2
  have hproject : ∀ u ∈ projectsOf units, u.kind = "github_project" := fun u hu =>
    of_decide_eq_true (List.mem_filter.mp hu).2
  refine ⟨fun u hu => ?_, ?_⟩
  · rcases List.mem_append.mp hu with hu | hu
    · obtain ⟨k, hk, hmem⟩ := exists_batchAt hu
      exact ⟨_, mem_subBatches.mpr (.inl ⟨k, hk, rfl⟩), hmem⟩
    · obtain ⟨k, hk, hmem⟩ := exists_batchAt hu
      exact ⟨_, mem_subBatches.mpr (.inr ⟨k, hk, rfl⟩), hmem⟩
  · obtain ⟨out, heval, hmem⟩ := mem_estimateTotals src fails hids
    rw [List.map_append, List.nodup_append'] at hids
    obtain ⟨hrepos, hprojects, hdisjoint⟩ := hids
    -- a repository and a board have different ids
    have happart : ∀ u ∈ reposOf units, ∀ u' ∈ projectsOf units, u'.id ≠ u.id := by
      intro u hu u' hu' heq
      refine hdisjoint (List.mem_map_of_mem hu) ?_
      rw [← heq]
      exact List.mem_map_of_mem hu'
    refine ⟨out, heval, ?_, ?_⟩
    · intro b hb u hu n
      rw [hmem]
      rcases mem_subBatches.mp hb with ⟨k, hk, rfl⟩ | ⟨k, hk, rfl⟩
      · have hin := mem_of_mem_batchAt hu
        rw [single_repo src (hrepo u hin), exists_total_iff hrepos hk hu]
        refine or_iff_left ?_
        rintro ⟨k', -, u', hu', hid, -⟩
        exact happart u hin u' (mem_of_mem_batchAt hu') hid
      · have hin := mem_of_mem_batchAt hu
        rw [single_project src (hproject u hin), exists_total_iff hprojects hk hu]
        refine or_iff_right ?_
        rintro ⟨k', -, u', hu', hid, -⟩
        exact happart u' (mem_of_mem_batchAt hu') u hin hid.symm
    · rintro ⟨id, n⟩ he
      rcases (hmem id n).mp he with ⟨k, hk, u, hu, hid, -⟩ | ⟨k, hk, u, hu, hid, -⟩
      · exact ⟨_, mem_subBatches.mpr (.inl ⟨k, hk, rfl⟩), u, hu, hid⟩
      · exact ⟨_, mem_subBatches.mpr (.inr ⟨k, hk, rfl⟩), u, hu, hid⟩

/-- Two repositories, one with an id that names none, and a board. -/
def mixedUnits : List SourceUnit :=
  [⟨"acme/web", "github_repo", "web"⟩, ⟨"acme", "github_repo", "acme"⟩,
    ⟨"PVT_1", "github_project", "Roadmap"⟩]

/-- A source with a repository and a board. -/
def smallSource : TotalsSource where
  repoTotal owner name := if owner = "acme" ∧ name = "web" then some 7 else none
  boardTotal id := if id = "PVT_1" ∨ id = "acme/web" then some 3 else none

theorem mixed_one_by_one :
    (∀ u ∈ reposOf mixedUnits ++ projectsOf mixedUnits, ∃ b ∈ subBatches mixedUnits, u ∈ b.1) ∧
      OneByOne smallSource (fun _ => none) mixedUnits :=
  estimateTotals_one_by_one smallSource (fun _ => none) (by decide)

/-- A repository and a board with one id. -/
def twoOfAnId : List SourceUnit :=
  [⟨"acme/web", "github_repo", "web"⟩, ⟨"acme/web", "github_project", "Roadmap"⟩]

/-- **A repository and a board with one id have one entry**, that of the board. -/
theorem shared_id_overwritten : ¬ ∀ (src : TotalsSource) (fails : TotalsQuery → Option Err)
    (units : List SourceUnit), ((reposOf units).map SourceUnit.id).Nodup →
      ((projectsOf units).map SourceUnit.id).Nodup → OneByOne src fails units := by
  intro h
  obtain ⟨out, heval, hmem, -⟩ := h smallSource (fun _ => none) twoOfAnId (by decide) (by decide)
  have hout : out = [("acme/web", 3)] := by
    have hrun : (estimateTotals twoOfAnId).eval (smallSource.answer fun _ => none) =
        .ok [("acme/web", 3)] := by rfl
    rw [hrun] at heval
    exact (Except.ok.inj heval).symm
  have hweb := hmem ([⟨"acme/web", "github_repo", "web"⟩],
    repoQuery [⟨"acme/web", "github_repo", "web"⟩]) (by decide)
    ⟨"acme/web", "github_repo", "web"⟩ (by decide) 7
  rw [hout] at hweb
  have halone : smallSource.single ⟨"acme/web", "github_repo", "web"⟩ = some 7 := by rfl
  have hentry := hweb.mpr ⟨rfl, halone⟩
  simp at hentry

end GitHub

end Connectors
end Hivebook
