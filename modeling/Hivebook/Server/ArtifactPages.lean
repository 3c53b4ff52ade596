import Hivebook.Lib.Paging
import Hivebook.Server.Readers

/-!
# Paging through the artifacts of a tenant

`ListArtifacts` orders its rows by `ingested_at`, and by nothing else: rows with the same time may
stand in one order in the query for a page, and in another one in the query for the next.  Its
offset is a `uint32` that the database is given as an `int32`.

## Main definitions

* `Database.visibleArtifacts` — the rows of the list and of the count.
* `Server.listArtifactsIn` — the handler, where the query has the rows in a given order.
* `Server.PagedOnce` — the pages have every artifact once, and its number.
* `Server.PageAt` — a page begins at its offset.

## Main results

* `Server.listArtifacts_paged` — **artifacts are listed once each exactly when no two pages share
  a time**, and a page is answered for the offsets below `2 ^ 31` only.
-/

namespace Hivebook

namespace Database

/-- The rows that `ListArtifacts` and `CountArtifacts` range over. -/
def visibleArtifacts (tenantID : String) (connectionID : Option Uuid) (db : Database) :
    List RawArtifact :=
  db.artifacts.rows.filter fun r => decide (r.tenantID = tenantID) &&
    connectionID.all (fun id => decide (r.connectionID = id)) && visible db r

/-- The list and the count have the same gate. -/
theorem countArtifacts_eq (tenantID : String) (connectionID : Option Uuid) (db : Database) :
    countArtifacts tenantID connectionID db =
      (visibleArtifacts tenantID connectionID db).length :=
  List.countP_eq_length_filter

theorem nodup_visibleArtifacts (tenantID : String) (connectionID : Option Uuid) (db : Database) :
    ((visibleArtifacts tenantID connectionID db).map toProtoArtifact).Nodup := by
  have hids : ((visibleArtifacts tenantID connectionID db).map RawArtifact.id).Nodup :=
    db.artifacts.nodup_id.sublist (List.filter_sublist.map _)
  have hmap : (visibleArtifacts tenantID connectionID db).map RawArtifact.id =
      ((visibleArtifacts tenantID connectionID db).map toProtoArtifact).map ProtoArtifact.id := by
    rw [List.map_map]
    rfl
  rw [hmap] at hids
  exact hids.of_map _

end Database

namespace Server

open Paging Database

/-- `ListArtifacts`, where the query of the handler has the rows in the order `s`. -/
def listArtifactsIn (s : List RawArtifact) (tenant : Option String) (connectionID : Option Uuid)
    (limit offset : ℕ) (db : Database) : Except RpcError ListArtifactsResponse :=
  match requireTenant tenant with
  | .error e => .error e
  | .ok tenant =>
      if int32 offset < 0 then .error ⟨.internal, "list artifacts failed"⟩
      else .ok
        { artifacts := ((s.drop (int32 offset).toNat).take (artifactLimit limit).toNat).map
            toProtoArtifact
          total := uint32 (countArtifacts tenant connectionID db) }

/-- Nobody writes between the calls: the pages of size `l`, each from a query with an order of its
own, up to the first that is not full, have every visible artifact once and their number. -/
def PagedOnce (tenant : String) (connectionID : Option Uuid) (l : ℕ) (db : Database) : Prop :=
  ∀ order : ℕ → List RawArtifact,
    (∀ k, NewestFirst RawArtifact.ingestedAt (visibleArtifacts tenant connectionID db)
      (order k)) →
    ∃ pages : ℕ → List ProtoArtifact,
      (∀ k ≤ (visibleArtifacts tenant connectionID db).length / l,
        listArtifactsIn (order k) (some tenant) connectionID l (k * l) db =
          .ok ⟨pages k, (visibleArtifacts tenant connectionID db).length⟩) ∧
      ((List.range ((visibleArtifacts tenant connectionID db).length / l + 1)).flatMap pages).Perm
        ((visibleArtifacts tenant connectionID db).map toProtoArtifact)

/-- The page that is returned is the one that starts at the offset. -/
def PageAt (tenant : String) (connectionID : Option Uuid) (l offset : ℕ) (db : Database) : Prop :=
  ∀ s, NewestFirst RawArtifact.ingestedAt (visibleArtifacts tenant connectionID db) s →
    ∃ resp, listArtifactsIn s (some tenant) connectionID l offset db = .ok resp ∧
      resp.artifacts = ((s.drop offset).take l).map toProtoArtifact

variable {tenant : String} {connectionID : Option Uuid} {l offset : ℕ} {db : Database}

/-! ### One call -/

theorem int32_of_lt {n : ℕ} (h : n < 2 ^ 31) : int32 n = n := by
  unfold int32
  exact Int.bmod_eq_of_le (by omega) (by omega)

theorem int32_neg {n : ℕ} (h : 2 ^ 31 ≤ n) (h' : n < 2 ^ 32) : int32 n < 0 := by
  unfold int32
  rw [Int.bmod_def, Int.emod_eq_of_lt (by omega) (by omega)]
  split <;> omega

theorem artifactLimit_eq (hl : 1 ≤ l) (hl' : l ≤ 200) : (artifactLimit l).toNat = l := by
  have hint : int32 l = l := int32_of_lt (by omega)
  unfold artifactLimit maxArtifactLimit
  rw [hint, if_neg (by omega), min_eq_left (by omega)]
  simp

theorem listArtifactsIn_of_lt (ht : tenant ≠ "") (hl : 1 ≤ l) (hl' : l ≤ 200)
    (h : offset < 2 ^ 31) (s : List RawArtifact) :
    listArtifactsIn s (some tenant) connectionID l offset db = .ok
      { artifacts := ((s.drop offset).take l).map toProtoArtifact
        total := uint32 (visibleArtifacts tenant connectionID db).length } := by
  unfold listArtifactsIn
  rw [requireTenant_eq_ok.mpr ⟨rfl, ht⟩]
  dsimp only
  rw [int32_of_lt h, if_neg (by omega), artifactLimit_eq hl hl', countArtifacts_eq]
  simp

theorem listArtifactsIn_of_le (h : 2 ^ 31 ≤ offset) (h' : offset < 2 ^ 32) (s : List RawArtifact)
    (resp : ListArtifactsResponse) :
    listArtifactsIn s (some tenant) connectionID l offset db ≠ .ok resp := by
  unfold listArtifactsIn
  split
  · simp
  · rw [if_pos (int32_neg h h')]
    simp

/-- A page is answered for the offsets that are no negative `int32`. -/
theorem pageAt_iff (ht : tenant ≠ "") (hl : 1 ≤ l) (hl' : l ≤ 200) (ho : offset < 2 ^ 32) :
    PageAt tenant connectionID l offset db ↔ offset < 2 ^ 31 := by
  constructor
  · intro h
    by_contra hle
    obtain ⟨resp, hresp, -⟩ := h _ (newestFirst_insertionSort _ _)
    exact listArtifactsIn_of_le (not_lt.mp hle) ho _ _ hresp
  · intro h s _
    exact ⟨_, listArtifactsIn_of_lt ht hl hl' h s, rfl⟩

/-! ### All calls -/

theorem pagedOnce_of_together (ht : tenant ≠ "") (hl : 1 ≤ l) (hl' : l ≤ 200)
    (h : Together RawArtifact.ingestedAt l (visibleArtifacts tenant connectionID db))
    (hlast : (visibleArtifacts tenant connectionID db).length / l * l < 2 ^ 31) :
    PagedOnce tenant connectionID l db := by
  intro order horder
  have hfits := Nat.lt_mul_div_succ (visibleArtifacts tenant connectionID db).length hl
  rw [Nat.mul_comm] at hfits
  refine ⟨fun k => (page l k (order k)).map toProtoArtifact, ?_, ?_⟩
  · intro k hk
    have hoffset : k * l < 2 ^ 31 := lt_of_le_of_lt (Nat.mul_le_mul_right l hk) hlast
    have htotal : uint32 (visibleArtifacts tenant connectionID db).length =
        (visibleArtifacts tenant connectionID db).length := by
      rw [Nat.add_mul, Nat.one_mul] at hfits
      unfold uint32
      omega
    rw [listArtifactsIn_of_lt ht hl hl' hoffset, htotal]
    rfl
  · rw [← List.map_flatMap]
    exact (pages_perm h horder hfits.le).map _

theorem PagedOnce.together (ht : tenant ≠ "") (hl : 1 ≤ l) (hl' : l ≤ 200)
    (h : PagedOnce tenant connectionID l db)
    (hlast : (visibleArtifacts tenant connectionID db).length / l * l < 2 ^ 31) :
    Together RawArtifact.ingestedAt l (visibleArtifacts tenant connectionID db) := by
  have hfits := Nat.lt_mul_div_succ (visibleArtifacts tenant connectionID db).length hl
  rw [Nat.mul_comm] at hfits
  apply together_of_pages hl hfits.le
  intro order horder
  obtain ⟨pages, hpages, hperm⟩ := h order horder
  have hnodup := hperm.nodup_iff.mpr (nodup_visibleArtifacts tenant connectionID db)
  -- what the calls return are the pages of the orders
  have heq : ∀ k ≤ (visibleArtifacts tenant connectionID db).length / l,
      pages k = (page l k (order k)).map toProtoArtifact := by
    intro k hk
    have hoffset : k * l < 2 ^ 31 := lt_of_le_of_lt (Nat.mul_le_mul_right l hk) hlast
    have hcall := hpages k hk
    rw [listArtifactsIn_of_lt ht hl hl' hoffset, Except.ok.injEq] at hcall
    exact (congrArg ListArtifactsResponse.artifacts hcall).symm
  have hall : (List.range ((visibleArtifacts tenant connectionID db).length / l + 1)).flatMap
      pages = ((List.range ((visibleArtifacts tenant connectionID db).length / l + 1)).flatMap
        fun k => page l k (order k)).map toProtoArtifact := by
    rw [List.map_flatMap]
    apply List.flatMap_congr
    intro k hk
    exact heq k (Nat.lt_succ_iff.mp (List.mem_range.mp hk))
  rw [hall] at hnodup
  exact hnodup.of_map _

/-- The last offset is no negative `int32`: there would be a call before it that fails. -/
theorem PagedOnce.offset_lt (hl : 1 ≤ l) (hl' : l ≤ 200)
    (h : PagedOnce tenant connectionID l db) :
    (visibleArtifacts tenant connectionID db).length / l * l < 2 ^ 31 := by
  by_contra hle
  obtain ⟨pages, hpages, -⟩ := h _ fun _ => newestFirst_insertionSort _ _
  -- the first call whose offset does not fit
  obtain ⟨k, hk⟩ : ∃ k, k = (2 ^ 31 + l - 1) / l := ⟨_, rfl⟩
  have hlow : 2 ^ 31 ≤ k * l := by
    have hdiv := Nat.lt_mul_div_succ (2 ^ 31 + l - 1) hl
    rw [← hk, Nat.mul_comm, Nat.add_mul, Nat.one_mul] at hdiv
    omega
  have hhigh : k * l < 2 ^ 32 := by
    have hdiv := Nat.div_mul_le_self (2 ^ 31 + l - 1) l
    rw [← hk] at hdiv
    omega
  have hle' : k ≤ (visibleArtifacts tenant connectionID db).length / l := by
    by_contra hlt
    have hmul := Nat.mul_le_mul_right l (Nat.succ_le_of_lt (not_le.mp hlt))
    have hdiv := Nat.div_mul_le_self (2 ^ 31 + l - 1) l
    rw [← hk] at hdiv
    rw [Nat.succ_mul] at hmul
    omega
  exact listArtifactsIn_of_le hlow hhigh _ _ (hpages k hle')

/-- Paging returns every visible artifact once, and their number, exactly when the rows of a time
stand on one page and no offset is a negative `int32`; a page is answered, and is the one that
starts at the offset, exactly for the offsets below `2 ^ 31`. -/
theorem listArtifacts_paged (ht : tenant ≠ "") (connectionID : Option Uuid) (hl : 1 ≤ l)
    (hl' : l ≤ 200) (db : Database) :
    (PagedOnce tenant connectionID l db ↔
      Together RawArtifact.ingestedAt l (visibleArtifacts tenant connectionID db) ∧
        (visibleArtifacts tenant connectionID db).length / l * l < 2 ^ 31) ∧
    ∀ offset < 2 ^ 32, PageAt tenant connectionID l offset db ↔ offset < 2 ^ 31 := by
  refine ⟨⟨?_, ?_⟩, ?_⟩
  · intro h
    have hlast := h.offset_lt hl hl'
    exact ⟨h.together ht hl hl' hlast, hlast⟩
  · rintro ⟨htogether, hlast⟩
    exact pagedOnce_of_together ht hl hl' htogether hlast
  · intro offset ho
    exact pageAt_iff ht hl hl' ho

/-! ### Two artifacts with one time -/

/-- An issue of Ann's repository, synced to the tenant `acme`. -/
def syncedIssue (number : String) : UpsertRawArtifactParams :=
  { tenantID := "acme", region := "eu", connectionID := 0, source := "github"
    sourceNativeKind := "github_issue", containerID := "ann/a", syncContainerID := "ann/a"
    containerKind := "github_repo", containerName := "ann/a", externalID := "ann/a#" ++ number
    sourceURL := "", objectKey := "eu/acme/github/" ++ number, contentHash := number
    sourceUpdatedAt := none }

/-- Two issues that were written at one time, and the pass over their repository that ended. -/
def tiedIssues : Database :=
  commitUnit 5 0 "ann/a" (upsertRawArtifact 4 (syncedIssue "2")
    (upsertRawArtifact 4 (syncedIssue "1")
      (upsertSyncUnit 3 0 "ann/a" "ann/a" "github_repo" 1
        (upsertConnection
          { tenantID := "acme", region := "eu", connectorID := "github", account := "ann"
            accessToken := [0], refreshToken := none, tokenExpiry := none, scopes := ""
            installationID := "", externalID := "ann" }
          Database.empty).2)))

/-- **Of two artifacts with one time, pages of one may show one twice and the other never.** -/
theorem tied_issue_missed : ¬ PagedOnce "acme" none 1 tiedIssues := by
  intro h
  have htogether := h.together (by decide) (by decide) (by decide) (by decide +kernel)
  revert htogether
  decide +kernel

/-- On one page both are shown. -/
theorem tied_issues_on_one_page :
    PagedOnce "acme" none 2 tiedIssues ∧ ¬ PageAt "acme" none 2 (2 ^ 31) tiedIssues :=
  have hpaged := listArtifacts_paged (by decide : "acme" ≠ "") none (l := 2) (by decide)
    (by decide) tiedIssues
  ⟨hpaged.1.mpr (by decide +kernel), mt (hpaged.2 (2 ^ 31) (by decide)).mp (by decide)⟩

end Server
end Hivebook
