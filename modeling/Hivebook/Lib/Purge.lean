import Hivebook.Lib.Protocol

/-!
# Running some of the jobs without the others

Jobs run side by side, and some of them are watched.  A run is *purged* when the jobs that are
not watched are left out: their starts and turns are dropped, and what the dropped turns would
have contributed (the time that passed, for one) is added to the next turn of a watched job.

The rule of this file is the unwinding condition of noninterference.  If a command of a job that
is not watched leaves the worlds of the two runs indistinct, and a command of a watched job is
answered alike in both and leaves them indistinct, then the purged run is a run, and the watched
jobs do in it what they did before.

## Main definitions

* `kept` — the elements of a list that are watched; `rank` — the place of one among them.
* `Purge`, `purge` — the purged run, event by event.
* `Machine.Unwinds` — the unwinding condition; `Machine.Unwound` — a run and the purged one.

## Main results

* `Machine.Unwinds.purged` — **the unwinding rule.**
-/

namespace Hivebook

open Machine

/-! ### The watched elements of a list -/

/-- The elements of a list that are watched. -/
def kept {α : Type} : List Bool → List α → List α
  | true :: bs, a :: as => a :: kept bs as
  | false :: bs, _ :: as => kept bs as
  | _, _ => []

/-- How many of the elements before one are watched. -/
def rank (bs : List Bool) (i : ℕ) : ℕ := (bs.take i).count true

section Kept

variable {α : Type} {bs : List Bool} {as : List α} {i : ℕ}

theorem kept_snoc (h : bs.length = as.length) (b : Bool) (a : α) :
    kept (bs ++ [b]) (as ++ [a]) = kept bs as ++ if b then [a] else [] := by
  induction bs generalizing as with
  | nil =>
    obtain rfl := List.length_eq_zero_iff.mp h.symm
    cases b <;> rfl
  | cons b' bs ih =>
    cases as with
    | nil => cases h
    | cons a' as =>
      have hlen : bs.length = as.length := by simpa using h
      cases b' with
      | true => simp [kept, ih hlen]
      | false => simp [kept, ih hlen]

/-- Changing an element that is not watched. -/
theorem kept_set_hidden (h : bs[i]? = some false) (a : α) : kept bs (as.set i a) = kept bs as := by
  induction bs generalizing as i with
  | nil => simp at h
  | cons b bs ih =>
    cases as with
    | nil => simp
    | cons a' as =>
      cases i with
      | zero =>
        obtain rfl : b = false := by simpa using h
        rfl
      | succ i =>
        have hrest : kept bs (as.set i a) = kept bs as := ih (by simpa using h)
        cases b <;> simp [kept, hrest]

/-- Changing an element that is watched. -/
theorem kept_set (h : bs[i]? = some true) (a : α) :
    kept bs (as.set i a) = (kept bs as).set (rank bs i) a := by
  induction bs generalizing as i with
  | nil => simp at h
  | cons b bs ih =>
    cases as with
    | nil => simp [kept]
    | cons a' as =>
      cases i with
      | zero =>
        obtain rfl : b = true := by simpa using h
        rfl
      | succ i =>
        have hrest : kept bs (as.set i a) = (kept bs as).set (rank bs i) a :=
          ih (by simpa using h)
        cases b <;> simp [kept, rank, hrest]

/-- Where a watched element is. -/
theorem kept_getElem? (h : bs[i]? = some true) : (kept bs as)[rank bs i]? = as[i]? := by
  induction bs generalizing as i with
  | nil => simp at h
  | cons b bs ih =>
    cases as with
    | nil => simp [kept]
    | cons a' as =>
      cases i with
      | zero =>
        obtain rfl : b = true := by simpa using h
        rfl
      | succ i =>
        have hrest : (kept bs as)[rank bs i]? = as[i]? := ih (by simpa using h)
        unfold rank at hrest ⊢
        cases b <;> simpa [kept] using hrest

end Kept

/-! ### Purging a run -/

/-- The purged run so far: which of the jobs started are watched, what the turns dropped since
the last one that was not contribute, and the events that are left. -/
structure Purge (D ι χ : Type) where
  watched : List Bool
  owed : D
  events : List (PoolEvent ι χ)

namespace Purge

variable {D ι χ : Type} (own : ι → Bool) (delay : D → χ → χ) (pass : D → χ → D) (idle : D)

/-- One event more. -/
def add (p : Purge D ι χ) : PoolEvent ι χ → Purge D ι χ
  | .start j =>
      { p with
        watched := p.watched ++ [own j]
        events := if own j then p.events ++ [.start j] else p.events }
  | .turn i t =>
      if p.watched[i]? = some true then
        { p with
          owed := idle
          events := p.events ++
            [.turn (rank p.watched i) { t with choice := delay p.owed t.choice }] }
      else { p with owed := pass p.owed t.choice }

variable {own delay pass idle} {p : Purge D ι χ} {i : ℕ}

/-- A turn of a job that is not watched is dropped. -/
theorem add_hidden (h : p.watched[i]? = some false) (t : Turn χ) :
    p.add own delay pass idle (.turn i t) = { p with owed := pass p.owed t.choice } :=
  if_neg (by simp [h])

/-- A turn of a watched job waits for what was dropped. -/
theorem add_seen (h : p.watched[i]? = some true) (t : Turn χ) :
    p.add own delay pass idle (.turn i t) =
      { p with
        owed := idle
        events := p.events ++
          [.turn (rank p.watched i) { t with choice := delay p.owed t.choice }] } :=
  if_pos h

end Purge

/-- The events without those of the jobs that are not watched. -/
def purge {D ι χ : Type} (own : ι → Bool) (delay : D → χ → χ) (pass : D → χ → D) (idle : D)
    (es : List (PoolEvent ι χ)) : Purge D ι χ :=
  es.foldl (Purge.add own delay pass idle) ⟨[], idle, []⟩

theorem purge_snoc {D ι χ : Type} {own : ι → Bool} {delay : D → χ → χ} {pass : D → χ → D} {idle : D}
    (es : List (PoolEvent ι χ)) (e : PoolEvent ι χ) :
    purge own delay pass idle (es ++ [e]) =
      (purge own delay pass idle es).add own delay pass idle e := by
  unfold purge
  rw [List.foldl_append]
  rfl

namespace Machine

variable {S D σ χ Cmd : Type} {Resp : Cmd → Type} {α ι : Type}

/-- **The unwinding condition.**  The ghost state of a job says whether it is watched.  Two
worlds stay indistinct when a job that is not watched performs an allowed command in the first
one; and a watched job is answered alike in both, once it has waited for what was dropped. -/
structure Unwinds (M : Machine σ χ Cmd Resp) (A : χ → Bool → σ → Cmd → Prop)
    (P : Protocol S Cmd Resp) (watched : S → Bool) (delay : D → χ → χ) (pass : D → χ → D)
    (idle : D) (R : σ → σ → List S → D → Prop) : Prop where
  watched_next : ∀ g c r, watched (P.next g c r) = watched g
  hidden : ∀ {s s' gs d i g c} (x : χ) (b : Bool), R s s' gs d → gs[i]? = some g →
    watched g = false → P.allowed g c → A x b s c →
    R (M.perform x b s c).1 s' (gs.set i (P.next g c (M.perform x b s c).2)) (pass d x)
  seen : ∀ {s s' gs d i g c} (x : χ) (b : Bool), R s s' gs d → gs[i]? = some g →
    watched g = true → P.allowed g c → A x b s c →
    (M.perform (delay d x) b s' c).2 = (M.perform x b s c).2 ∧
      R (M.perform x b s c).1 (M.perform (delay d x) b s' c).1
        (gs.set i (P.next g c (M.perform x b s c).2)) idle

/-- A pool and the purged one, which has the threads of the watched jobs. -/
structure Unwound (P : Protocol S Cmd Resp) (Q : ι → α → S → Prop) (watched : S → Bool)
    (R : σ → σ → List S → D → Prop) (p : Purge D ι χ) (s s' : Pool σ Cmd Resp α) (gs : List S) :
    Prop where
  threads : s'.threads = kept p.watched s.threads
  worlds : R s.world s'.world gs p.owed
  ghosts : p.watched = gs.map watched
  follows : List.Forall₂ (fun th g => ∃ j, th.prog.Follows P (Q j) g) s.threads gs

variable {M : Machine σ χ Cmd Resp} {A : χ → Bool → σ → Cmd → Prop} {P : Protocol S Cmd Resp}
  {watched : S → Bool} {delay : D → χ → χ} {pass : D → χ → D} {idle : D}
  {R : σ → σ → List S → D → Prop} {jobs : ι → Prog Cmd Resp α} {Q : ι → α → S → Prop} {g₀ : ι → S}
  {p : Purge D ι χ} {s s' : Pool σ Cmd Resp α} {gs : List S} {i : ℕ} {c : Cmd}
  {k : Resp c → Prog Cmd Resp α} {b : Bool} {g : S}

theorem Unwound.length_watched (h : Unwound P Q watched R p s s' gs) :
    p.watched.length = s.threads.length := by
  rw [h.ghosts, List.length_map, h.follows.length_eq]

theorem Unwound.getElem? (h : Unwound P Q watched R p s s' gs) (hg : gs[i]? = some g) :
    p.watched[i]? = some (watched g) := by
  rw [h.ghosts, List.getElem?_map, hg]
  rfl

/-- A job starts, in the purged run if it is watched. -/
theorem Unwound.start (h : Unwound P Q watched R p s s' gs) {j : ι}
    (hjob : (jobs j).Follows P (Q j) (g₀ j)) (hR : R s.world s'.world (gs ++ [g₀ j]) p.owed) :
    Unwound P Q watched R (p.add (fun j => watched (g₀ j)) delay pass idle (.start j))
      { s with threads := s.threads ++ [⟨jobs j, false⟩] }
      { s' with threads := s'.threads ++ if watched (g₀ j) then [⟨jobs j, false⟩] else [] }
      (gs ++ [g₀ j]) where
  threads := by
    show s'.threads ++ _ = kept (p.watched ++ [watched (g₀ j)]) (s.threads ++ [_])
    rw [kept_snoc h.length_watched, h.threads]
  worlds := hR
  ghosts := by
    show p.watched ++ [watched (g₀ j)] = (gs ++ [g₀ j]).map watched
    rw [h.ghosts, List.map_append]
    rfl
  follows := List.rel_append h.follows (.cons ⟨j, hjob⟩ .nil)

/-- The ghost states still say who is watched. -/
theorem Unwound.ghosts_set (hU : M.Unwinds A P watched delay pass idle R)
    (h : Unwound P Q watched R p s s' gs) (hg : gs[i]? = some g) (r : Resp c) :
    p.watched = (gs.set i (P.next g c r)).map watched := by
  obtain ⟨hi, hvalue⟩ := List.getElem?_eq_some_iff.mp (h.getElem? hg)
  rw [List.map_set, hU.watched_next, ← h.ghosts, ← hvalue, List.set_getElem_self]

section Turns

variable {own : ι → Bool} {t : Turn χ}

/-- A thread that is not watched takes a turn. -/
theorem Unwound.hidden (hU : M.Unwinds A P watched delay pass idle R)
    (h : Unwound P Q watched R p s s' gs) (hg : gs[i]? = some g) (hown : watched g = false)
    (hA : A t.choice (b || t.cancel) s.world c)
    (hcall : ∃ j, (Prog.call c k).Follows P (Q j) g) :
    Unwound P Q watched R (p.add own delay pass idle (.turn i t))
      ⟨(M.perform t.choice (b || t.cancel) s.world c).1,
        s.threads.set i ⟨k (M.perform t.choice (b || t.cancel) s.world c).2, b || t.cancel⟩⟩ s'
      (gs.set i (P.next g c (M.perform t.choice (b || t.cancel) s.world c).2)) := by
  obtain ⟨j, hallowed, hrest⟩ := hcall
  have hwatch : p.watched[i]? = some false := by rw [h.getElem? hg, hown]
  rw [Purge.add_hidden hwatch]
  refine ⟨?_, hU.hidden t.choice (b || t.cancel) h.worlds hg hown hallowed hA, h.ghosts_set hU hg _,
    forall₂_set h.follows i ⟨j, hrest _⟩⟩
  rw [kept_set_hidden hwatch]
  exact h.threads

/-- A watched thread takes a turn, in both. -/
theorem Unwound.seen (hU : M.Unwinds A P watched delay pass idle R)
    (h : Unwound P Q watched R p s s' gs) (hth : s.threads[i]? = some ⟨.call c k, b⟩)
    (hg : gs[i]? = some g) (hown : watched g = true)
    (hA : A t.choice (b || t.cancel) s.world c)
    (hcall : ∃ j, (Prog.call c k).Follows P (Q j) g) :
    s'.threads[rank p.watched i]? = some ⟨.call c k, b⟩ ∧
    (M.perform (delay p.owed t.choice) (b || t.cancel) s'.world c).2 =
      (M.perform t.choice (b || t.cancel) s.world c).2 ∧
    Unwound P Q watched R (p.add own delay pass idle (.turn i t))
      ⟨(M.perform t.choice (b || t.cancel) s.world c).1,
        s.threads.set i ⟨k (M.perform t.choice (b || t.cancel) s.world c).2, b || t.cancel⟩⟩
      ⟨(M.perform (delay p.owed t.choice) (b || t.cancel) s'.world c).1,
        s'.threads.set (rank p.watched i)
          ⟨k (M.perform t.choice (b || t.cancel) s.world c).2, b || t.cancel⟩⟩
      (gs.set i (P.next g c (M.perform t.choice (b || t.cancel) s.world c).2)) := by
  obtain ⟨j, hallowed, hrest⟩ := hcall
  have hwatch : p.watched[i]? = some true := by rw [h.getElem? hg, hown]
  obtain ⟨hanswer, hR⟩ := hU.seen t.choice (b || t.cancel) h.worlds hg hown hallowed hA
  refine ⟨by rw [h.threads, kept_getElem? hwatch, hth], hanswer, ?_⟩
  rw [Purge.add_seen hwatch]
  refine ⟨?_, hR, h.ghosts_set hU hg _, forall₂_set h.follows i ⟨j, hrest _⟩⟩
  show s'.threads.set _ _ = kept p.watched (s.threads.set i _)
  rw [kept_set hwatch, h.threads]

end Turns

/-- **The unwinding rule.**  From indistinct worlds the purged run is a run, and its threads
are the watched ones, as they were. -/
theorem Unwinds.purged (hU : M.Unwinds A P watched delay pass idle R)
    (hjobs : ∀ j, (jobs j).Follows P (Q j) (g₀ j))
    {C : Pool σ Cmd Resp α → List (Performed σ χ Cmd) → PoolEvent ι χ → Prop}
    (hC : ∀ s tr e, C s tr e → PoolMeets A s e)
    (hstart : ∀ w w' gs d j, R w w' gs d → R w w' (gs ++ [g₀ j]) d)
    {w w' : σ} {es : List (PoolEvent ι χ)} {tr : List (Performed σ χ Cmd)}
    (h : (M.pool jobs).RunWhere C ⟨w, []⟩ es s tr) (init : R w w' [] idle) :
    ∃ s' tr' gs, (M.pool jobs).Run ⟨w', []⟩
        (purge (fun j => watched (g₀ j)) delay pass idle es).events s' tr' ∧
      Unwound P Q watched R (purge (fun j => watched (g₀ j)) delay pass idle es) s s' gs := by
  induction h with
  | refl => exact ⟨⟨w', []⟩, [], [], .refl, rfl, init, rfl, .nil⟩
  | @snoc es s s₁ tr as e hrun hc hstep ih =>
    obtain ⟨s', tr', gs, hrun', hs⟩ := ih
    rw [purge_snoc]
    generalize purge (fun j => watched (g₀ j)) delay pass idle es = p at hrun' hs ⊢
    rcases pool_step hstep with ⟨j, rfl, rfl, rfl⟩ | ⟨i, t, c, k, b, rfl, hth, rfl, rfl⟩
    · refine ⟨_, tr' ++ [], _, ?_, hs.start (hjobs j) (hstart _ _ gs p.owed j hs.worlds)⟩
      cases hown : watched (g₀ j) with
      | true =>
        simp only [Purge.add, hown, if_true]
        exact .snoc hrun' trivial rfl
      | false => simpa [Purge.add, hown] using hrun'
    · obtain ⟨g, hg, hcall⟩ := forall₂_getElem? hs.follows hth
      have hA := hC s tr _ hc c k b hth
      have hwatch := hs.getElem? hg
      cases hown : watched g with
      | true =>
        rw [hown] at hwatch
        obtain ⟨hth', hanswer, hs₁⟩ := hs.seen hU hth hg hown hA hcall
        refine ⟨_, tr' ++ [⟨s'.world, c, b || t.cancel, delay p.owed t.choice⟩], _, ?_, hs₁⟩
        rw [Purge.add_seen hwatch]
        refine .snoc hrun' trivial ?_
        simp only [pool, hth', turn, Option.map_some, hanswer]
      | false =>
        rw [hown] at hwatch
        refine ⟨s', tr', _, ?_, hs.hidden hU hg hown hA hcall⟩
        rw [Purge.add_hidden hwatch]
        exact hrun'

end Machine

end Hivebook
