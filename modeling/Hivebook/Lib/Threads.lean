import Hivebook.Lib.Protocol

/-!
# Jobs side by side, thread by thread

The pool again, with labels that say which thread took the turn.  What a thread has
done is then a part of the trace, and what it knows is a function of what it has done:
the ghost state a protocol gives to its commands.

## Main definitions

* `Machine.threads` — the pool, each label with its thread; `byThread` — the commands a
  thread has performed.
* `Protocol.after` — the ghost state after a list of commands.
* `Pool.running` — the threads that have not returned.
* `Protocol.ghosts` — the ghost states of the threads.

## Main results

* `threads_log` — a thread is where its commands in the trace have led it.
* `Log.allowed` — every command of a log was allowed after the commands before it.
* `threads_interference` — **the rule of non-interference**: assertions of the running
  threads that every command keeps.
* `threads_invariant_log`, `threads_invariant` — **the invariant rules**: what the start
  gives and every command keeps holds of the world and the trace.
* `threads_follows` — the rule for an invariant of the ghost states of all threads.
-/

namespace Hivebook

/-- The ghost state after commands. -/
def Protocol.after {S σ χ Cmd : Type} {Resp : Cmd → Type} (P : Protocol S Cmd Resp)
    (M : Machine σ χ Cmd Resp) (g : S) (ls : List (Performed σ χ Cmd)) : S :=
  ls.foldl (fun g l => P.next g l.cmd (M.perform l.choice l.cancelled l.state l.cmd).2) g

theorem Protocol.after_snoc {S σ χ Cmd : Type} {Resp : Cmd → Type} (P : Protocol S Cmd Resp)
    (M : Machine σ χ Cmd Resp) (g : S) (ls : List (Performed σ χ Cmd)) (l : Performed σ χ Cmd) :
    P.after M g (ls ++ [l]) =
      P.next (P.after M g ls) l.cmd (M.perform l.choice l.cancelled l.state l.cmd).2 := by
  rw [Protocol.after, List.foldl_append]
  rfl

/-- The commands a thread has performed. -/
def byThread {σ χ Cmd : Type} (i : ℕ) (tr : List (ℕ × Performed σ χ Cmd)) :
    List (Performed σ χ Cmd) :=
  (tr.filter fun l => decide (l.1 = i)).map Prod.snd

@[simp] theorem byThread_nil {σ χ Cmd : Type} (i : ℕ) :
    byThread i ([] : List (ℕ × Performed σ χ Cmd)) = [] := rfl

theorem byThread_snoc_self {σ χ Cmd : Type} (i : ℕ) (tr : List (ℕ × Performed σ χ Cmd))
    (l : Performed σ χ Cmd) : byThread i (tr ++ [(i, l)]) = byThread i tr ++ [l] := by
  simp [byThread]

theorem byThread_snoc_of_ne {σ χ Cmd : Type} {i j : ℕ} (h : j ≠ i)
    (tr : List (ℕ × Performed σ χ Cmd)) (l : Performed σ χ Cmd) :
    byThread i (tr ++ [(j, l)]) = byThread i tr := by
  simp [byThread, h]

theorem byThread_mono {σ χ Cmd : Type} (i : ℕ) (tr tr' : List (ℕ × Performed σ χ Cmd)) :
    byThread i tr <+: byThread i (tr ++ tr') := by
  unfold byThread
  rw [List.filter_append, List.map_append]
  exact List.prefix_append _ _

theorem mem_of_mem_byThread {σ χ Cmd : Type} {i : ℕ} {tr : List (ℕ × Performed σ χ Cmd)}
    {l : Performed σ χ Cmd} (h : l ∈ byThread i tr) : (i, l) ∈ tr := by
  obtain ⟨⟨j, l'⟩, hmem, rfl⟩ := List.mem_map.mp h
  obtain ⟨hmem, hj⟩ := List.mem_filter.mp hmem
  rw [← of_decide_eq_true hj]
  exact hmem

namespace Machine

variable {S σ χ Cmd : Type} {Resp : Cmd → Type} {α ι : Type} (M : Machine σ χ Cmd Resp)

/-- The thread an event of the pool is a turn of. -/
def PoolEvent.thread : PoolEvent ι χ → ℕ
  | .start _ => 0
  | .turn i _ => i

/-- Any number of jobs run side by side, and every label says whose turn it was. -/
def threads (jobs : ι → Prog Cmd Resp α) :
    Lts (Pool σ Cmd Resp α) (PoolEvent ι χ) (ℕ × Performed σ χ Cmd) where
  step s e := ((M.pool jobs).step s e).map fun r => (r.1, r.2.map fun l => (e.thread, l))

variable {M} {P : Protocol S Cmd Resp} {jobs : ι → Prog Cmd Resp α}

/-- What one step does. -/
theorem threads_step {s s' : Pool σ Cmd Resp α} {e : PoolEvent ι χ}
    {as : List (ℕ × Performed σ χ Cmd)} (h : (M.threads jobs).step s e = some (s', as)) :
    (∃ j, e = .start j ∧ s' = { s with threads := s.threads ++ [⟨jobs j, false⟩] } ∧ as = []) ∨
    ∃ i t c k b, e = .turn i t ∧ s.threads[i]? = some ⟨.call c k, b⟩ ∧
      s' = ⟨(M.perform t.choice (b || t.cancel) s.world c).1,
        s.threads.set i ⟨k (M.perform t.choice (b || t.cancel) s.world c).2, b || t.cancel⟩⟩ ∧
      as = [(i, ⟨s.world, c, b || t.cancel, t.choice⟩)] := by
  obtain ⟨⟨s₁, as₁⟩, hstep, heq⟩ := Option.map_eq_some_iff.mp h
  cases heq
  rcases pool_step hstep with ⟨j, rfl, rfl, rfl⟩ | ⟨i, t, c, k, b, rfl, hth, rfl, rfl⟩
  · exact Or.inl ⟨j, rfl, rfl, rfl⟩
  · exact Or.inr ⟨i, t, c, k, b, rfl, hth, rfl, rfl⟩

/-- Every thread is where its commands have led its job. -/
def Logged (M : Machine σ χ Cmd Resp) (jobs : ι → Prog Cmd Resp α) (s : Pool σ Cmd Resp α)
    (tr : List (ℕ × Performed σ χ Cmd)) : Prop :=
  (∀ l ∈ tr, l.1 < s.threads.length) ∧
    ∀ i th, s.threads[i]? = some th → ∃ j, Log M (jobs j) (byThread i tr) th.prog

theorem Logged.step {s s' : Pool σ Cmd Resp α} {e : PoolEvent ι χ}
    {tr as : List (ℕ × Performed σ χ Cmd)} (h : Logged M jobs s tr)
    (hstep : (M.threads jobs).step s e = some (s', as)) : Logged M jobs s' (tr ++ as) := by
  obtain ⟨hlt, hlog⟩ := h
  rcases threads_step hstep with ⟨j, rfl, rfl, rfl⟩ | ⟨i, t, c, k, b, rfl, hth, rfl, rfl⟩
  · rw [List.append_nil]
    refine ⟨fun l hl => ?_, fun i th hi => ?_⟩
    · have hi := hlt l hl
      rw [List.length_append]
      omega
    · by_cases hi' : i < s.threads.length
      · rw [List.getElem?_append_left hi'] at hi
        exact hlog i th hi
      · -- a thread that starts has done nothing
        obtain ⟨hlen, -⟩ := List.getElem?_eq_some_iff.mp hi
        rw [List.length_append, List.length_singleton] at hlen
        have heq : i = s.threads.length := by omega
        rw [heq, List.getElem?_concat_length] at hi
        cases hi
        have hnil : byThread i tr = [] := by
          refine List.eq_nil_iff_forall_not_mem.mpr fun l hl => hi' ?_
          exact hlt _ (mem_of_mem_byThread hl)
        exact ⟨j, hnil ▸ .nil⟩
  · refine ⟨fun l hl => ?_, fun i' th hi' => ?_⟩
    · rw [List.length_set]
      rcases List.mem_append.mp hl with hl | hl
      · exact hlt l hl
      · rw [List.mem_singleton.mp hl]
        exact (List.getElem?_eq_some_iff.mp hth).1
    · by_cases heq : i = i'
      · subst heq
        rw [List.getElem?_set_self (List.getElem?_eq_some_iff.mp hth).1] at hi'
        cases hi'
        obtain ⟨j, hj⟩ := hlog i _ hth
        exact ⟨j, byThread_snoc_self i tr _ ▸ .snoc _ _ _ hj⟩
      · rw [List.getElem?_set_ne heq] at hi'
        obtain ⟨j, hj⟩ := hlog i' th hi'
        exact ⟨j, (byThread_snoc_of_ne heq tr _).symm ▸ hj⟩

variable {C : Pool σ Cmd Resp α → List (ℕ × Performed σ χ Cmd) → PoolEvent ι χ → Prop}
  {w : σ} {es : List (PoolEvent ι χ)} {s : Pool σ Cmd Resp α}
  {tr : List (ℕ × Performed σ χ Cmd)}

/-- **A thread is where its commands in the trace have led it.** -/
theorem threads_log (h : (M.threads jobs).RunWhere C ⟨w, []⟩ es s tr) : Logged M jobs s tr := by
  refine h.invariant (J := Logged M jobs) ⟨by simp, by simp⟩ ?_
  intro s tr e s' as hlogged _ hstep
  exact hlogged.step hstep

end Machine

/-- What is left of a program that follows a protocol follows it from where its commands
have led. -/
theorem Log.follows {S σ χ Cmd : Type} {Resp : Cmd → Type} {α : Type}
    {M : Machine σ χ Cmd Resp} {P : Protocol S Cmd Resp} {Q : α → S → Prop} {g : S}
    {p q : Prog Cmd Resp α} {ls : List (Performed σ χ Cmd)} (h : Log M p ls q)
    (hp : p.Follows P Q g) : q.Follows P Q (P.after M g ls) := by
  induction h with
  | nil => exact hp
  | snoc w b x _ ih =>
    rw [Protocol.after, List.foldl_append]
    exact ih.2 _

/-- Before any of the commands of a log, the program was about to issue it. -/
theorem Log.before {σ χ Cmd : Type} {Resp : Cmd → Type} {α : Type} {M : Machine σ χ Cmd Resp}
    {p q : Prog Cmd Resp α} {pre post : List (Performed σ χ Cmd)} {l : Performed σ χ Cmd}
    (h : Log M p (pre ++ l :: post) q) : ∃ k, Log M p pre (.call l.cmd k) := by
  generalize hls : pre ++ l :: post = ls at h
  induction h generalizing post with
  | nil => exact absurd hls (by simp)
  | snoc w b x hlog ih =>
    rcases List.eq_nil_or_concat' post with rfl | ⟨post', l', rfl⟩
    · obtain ⟨rfl, hl⟩ := List.append_inj' hls rfl
      cases hl
      exact ⟨_, hlog⟩
    · have hls' : (pre ++ l :: post') ++ [l'] = _ := (by simpa using hls)
      exact ih (List.append_inj' hls' rfl).1

/-- Every command of a log was allowed after the commands before it. -/
theorem Log.allowed {S σ χ Cmd : Type} {Resp : Cmd → Type} {α : Type}
    {M : Machine σ χ Cmd Resp} {P : Protocol S Cmd Resp} {Q : α → S → Prop} {g : S}
    {p q : Prog Cmd Resp α} {pre post : List (Performed σ χ Cmd)} {l : Performed σ χ Cmd}
    (h : Log M p (pre ++ l :: post) q) (hp : p.Follows P Q g) :
    P.allowed (P.after M g pre) l.cmd := by
  obtain ⟨k, hcall⟩ := h.before
  exact (hcall.follows hp).1

namespace Machine

variable {S σ χ Cmd : Type} {Resp : Cmd → Type} {α ι : Type} {M : Machine σ χ Cmd Resp}
  {P : Protocol S Cmd Resp} {jobs : ι → Prog Cmd Resp α}
  {C : Pool σ Cmd Resp α → List (ℕ × Performed σ χ Cmd) → PoolEvent ι χ → Prop}
  {w : σ} {es : List (PoolEvent ι χ)} {s : Pool σ Cmd Resp α}
  {tr : List (ℕ × Performed σ χ Cmd)}

/-- **The invariant rule for threads**, with the log of the thread whose turn it is. -/
theorem threads_invariant_log {J : σ → List (ℕ × Performed σ χ Cmd) → Prop}
    (h : (M.threads jobs).RunWhere C ⟨w, []⟩ es s tr) (init : J w [])
    (step : ∀ s tr i t c k b j, C s tr (.turn i t) → s.threads[i]? = some ⟨.call c k, b⟩ →
      Log M (jobs j) (byThread i tr) (.call c k) → J s.world tr →
      J (M.perform t.choice (b || t.cancel) s.world c).1
        (tr ++ [(i, ⟨s.world, c, b || t.cancel, t.choice⟩)])) : J s.world tr := by
  have hboth : Logged M jobs s tr ∧ J s.world tr := by
    refine h.invariant (J := fun s tr => Logged M jobs s tr ∧ J s.world tr)
      ⟨⟨by simp, by simp⟩, init⟩ ?_
    rintro s tr e s' as ⟨hlogged, hJ⟩ hC hstep
    refine ⟨hlogged.step hstep, ?_⟩
    rcases threads_step hstep with ⟨j, rfl, rfl, rfl⟩ | ⟨i, t, c, k, b, rfl, hth, rfl, rfl⟩
    · simpa using hJ
    · obtain ⟨j, hlog⟩ := hlogged.2 i _ hth
      exact step s tr i t c k b j hC hth hlog hJ
  exact hboth.2

/-- **The invariant rule for threads that follow a protocol.**  The invariant relates the
world and the trace; a step may use that the command is allowed in the ghost state of its
thread. -/
theorem threads_invariant {Q : α → S → Prop} {g₀ : S}
    {J : σ → List (ℕ × Performed σ χ Cmd) → Prop}
    (h : (M.threads jobs).RunWhere C ⟨w, []⟩ es s tr)
    (hjobs : ∀ j, (jobs j).Follows P Q g₀) (init : J w [])
    (step : ∀ s tr i t c k b, C s tr (.turn i t) → s.threads[i]? = some ⟨.call c k, b⟩ →
      P.allowed (P.after M g₀ (byThread i tr)) c → J s.world tr →
      J (M.perform t.choice (b || t.cancel) s.world c).1
        (tr ++ [(i, ⟨s.world, c, b || t.cancel, t.choice⟩)])) : J s.world tr := by
  refine threads_invariant_log h init fun s tr i t c k b j hC hth hlog hJ => ?_
  have hcall := hlog.follows (hjobs j)
  exact step s tr i t c k b hC hth hcall.1 hJ

/-- A thread that has not returned. -/
def Pool.running (s : Pool σ Cmd Resp α) (i : ℕ) : Bool :=
  match s.threads[i]? with
  | some ⟨.call _ _, _⟩ => true
  | _ => false

theorem Pool.running_of_call {i : ℕ} {c : Cmd} {k : Resp c → Prog Cmd Resp α} {b : Bool}
    (h : s.threads[i]? = some ⟨.call c k, b⟩) : s.running i = true := by
  unfold Pool.running
  rw [h]

theorem Pool.lt_of_running {i : ℕ} (h : s.running i = true) : i < s.threads.length := by
  unfold Pool.running at h
  split at h
  · rename_i heq
    exact (List.getElem?_eq_some_iff.mp heq).1
  · cases h

/-- **The rule of non-interference.**  Every running thread has an assertion of its own,
about its ghost state and the world.  A command establishes the assertion of its thread and
keeps those of the others. -/
theorem threads_interference {Q : α → S → Prop} {g₀ : S}
    {J : σ → List (ℕ × Performed σ χ Cmd) → Prop} {K : S → σ → Prop}
    (h : (M.threads jobs).RunWhere C ⟨w, []⟩ es s tr)
    (hjobs : ∀ j, (jobs j).Follows P Q g₀) (init : J w []) (start : ∀ w, K g₀ w)
    (step : ∀ s tr i t c k b, C s tr (.turn i t) → s.threads[i]? = some ⟨.call c k, b⟩ →
      P.allowed (P.after M g₀ (byThread i tr)) c → J s.world tr →
      (∀ i', s.running i' = true → K (P.after M g₀ (byThread i' tr)) s.world) →
      J (M.perform t.choice (b || t.cancel) s.world c).1
        (tr ++ [(i, ⟨s.world, c, b || t.cancel, t.choice⟩)]) ∧
      K (P.next (P.after M g₀ (byThread i tr)) c
          (M.perform t.choice (b || t.cancel) s.world c).2)
        (M.perform t.choice (b || t.cancel) s.world c).1 ∧
      ∀ i', i ≠ i' → s.running i' = true → K (P.after M g₀ (byThread i' tr))
        (M.perform t.choice (b || t.cancel) s.world c).1) :
    J s.world tr ∧ ∀ i, s.running i = true → K (P.after M g₀ (byThread i tr)) s.world := by
  have hall : Logged M jobs s tr ∧ J s.world tr ∧
      ∀ i, s.running i = true → K (P.after M g₀ (byThread i tr)) s.world := by
    refine h.invariant (J := fun s tr => Logged M jobs s tr ∧ J s.world tr ∧
      ∀ i, s.running i = true → K (P.after M g₀ (byThread i tr)) s.world)
      ⟨⟨by simp, by simp⟩, init, by simp [Pool.running]⟩ ?_
    rintro s tr e s' as ⟨hlogged, hJ, hK⟩ hC hstep
    refine ⟨hlogged.step hstep, ?_⟩
    rcases threads_step hstep with ⟨j, rfl, rfl, rfl⟩ | ⟨i, t, c, k, b, rfl, hth, rfl, rfl⟩
    · rw [List.append_nil]
      refine ⟨hJ, fun i hi => ?_⟩
      by_cases hlt : i < s.threads.length
      · refine hK i ?_
        unfold Pool.running at hi ⊢
        rwa [List.getElem?_append_left hlt] at hi
      · -- a thread that starts has done nothing
        have hnil : byThread i tr = [] := by
          refine List.eq_nil_iff_forall_not_mem.mpr fun l hl => hlt ?_
          exact hlogged.1 _ (mem_of_mem_byThread hl)
        rw [hnil]
        exact start _
    · -- the assertion of the thread is its own to establish, the others only have to be kept
      obtain ⟨j, hlog⟩ := hlogged.2 i _ hth
      obtain ⟨hJ', hself, hothers⟩ := step s tr i t c k b hC hth (hlog.follows (hjobs j)).1 hJ hK
      refine ⟨hJ', fun i' hi' => ?_⟩
      by_cases heq : i = i'
      · subst heq
        rw [byThread_snoc_self, Protocol.after, List.foldl_append]
        exact hself
      · rw [byThread_snoc_of_ne heq]
        refine hothers i' heq ?_
        unfold Pool.running at hi' ⊢
        rwa [List.getElem?_set_ne heq] at hi'
  exact hall.2

end Machine

/-! ### The ghost states of all threads -/

/-- The ghost states of the first `n` threads, each after its own commands. -/
def Protocol.ghosts {S σ χ Cmd : Type} {Resp : Cmd → Type} (P : Protocol S Cmd Resp)
    (M : Machine σ χ Cmd Resp) (g : S) (tr : List (ℕ × Performed σ χ Cmd)) (n : ℕ) : List S :=
  (List.range n).map fun i => P.after M g (byThread i tr)

namespace Machine

variable {S σ χ Cmd : Type} {Resp : Cmd → Type} {α ι : Type} {M : Machine σ χ Cmd Resp}
  {P : Protocol S Cmd Resp} {jobs : ι → Prog Cmd Resp α} {g₀ : S}
  {tr : List (ℕ × Performed σ χ Cmd)} {n : ℕ}

/-- A thread that starts adds the initial ghost state. -/
theorem ghosts_succ (h : ∀ l ∈ tr, l.1 < n) :
    P.ghosts M g₀ tr (n + 1) = P.ghosts M g₀ tr n ++ [g₀] := by
  have hnil : byThread n tr = [] := by
    refine List.eq_nil_iff_forall_not_mem.mpr fun l hl => ?_
    exact Nat.lt_irrefl n (h _ (mem_of_mem_byThread hl))
  unfold Protocol.ghosts
  rw [List.range_succ, List.map_append, List.map_singleton, hnil]
  rfl

/-- A command moves the ghost state of its thread, and no other. -/
theorem ghosts_snoc (i : ℕ) (l : Performed σ χ Cmd) :
    P.ghosts M g₀ (tr ++ [(i, l)]) n = (P.ghosts M g₀ tr n).set i
      (P.next (P.after M g₀ (byThread i tr)) l.cmd
        (M.perform l.choice l.cancelled l.state l.cmd).2) := by
  refine List.ext_getElem? fun j => ?_
  unfold Protocol.ghosts
  rw [List.getElem?_set, List.length_map, List.length_range, List.getElem?_map, List.getElem?_map]
  by_cases hj : j < n
  · rw [List.getElem?_range hj, Option.map_some, Option.map_some]
    by_cases hij : i = j
    · subst hij
      rw [if_pos rfl, if_pos hj, byThread_snoc_self, P.after_snoc]
    · rw [if_neg hij, byThread_snoc_of_ne hij]
  · have hnone : (List.range n)[j]? = none := List.getElem?_eq_none (by simpa using hj)
    rw [hnone]
    by_cases hij : i = j
    · rw [if_pos hij, if_neg (hij ▸ hj)]
      rfl
    · rw [if_neg hij]
      rfl

/-- **The rule for an invariant of the ghost states.**  The invariant relates the world, the
ghost states of all threads and the commands; it is kept when a job starts, and by every
allowed command. -/
theorem threads_follows {Q : α → S → Prop} {J : σ → List S → List (Performed σ χ Cmd) → Prop}
    {C : Pool σ Cmd Resp α → List (ℕ × Performed σ χ Cmd) → PoolEvent ι χ → Prop}
    {w : σ} {es : List (PoolEvent ι χ)} {s : Pool σ Cmd Resp α}
    (h : (M.threads jobs).RunWhere C ⟨w, []⟩ es s tr)
    (hjobs : ∀ j, (jobs j).Follows P Q g₀) (init : J w [] [])
    (start : ∀ w gs tr, J w gs tr → J w (gs ++ [g₀]) tr)
    (step : ∀ s tr i t c k b gs g, C s tr (.turn i t) → s.threads[i]? = some ⟨.call c k, b⟩ →
      gs[i]? = some g → P.allowed g c →
      J s.world gs (tr.map Prod.snd) →
      J (M.perform t.choice (b || t.cancel) s.world c).1
        (gs.set i (P.next g c (M.perform t.choice (b || t.cancel) s.world c).2))
        (tr.map Prod.snd ++ [⟨s.world, c, b || t.cancel, t.choice⟩])) :
    J s.world (P.ghosts M g₀ tr s.threads.length) (tr.map Prod.snd) := by
  have hboth : Logged M jobs s tr ∧
      J s.world (P.ghosts M g₀ tr s.threads.length) (tr.map Prod.snd) := by
    refine h.invariant (J := fun s tr => Logged M jobs s tr ∧
      J s.world (P.ghosts M g₀ tr s.threads.length) (tr.map Prod.snd))
      ⟨⟨by simp, by simp⟩, init⟩ ?_
    rintro s tr e s' as ⟨hlogged, hJ⟩ hC hstep
    refine ⟨hlogged.step hstep, ?_⟩
    rcases threads_step hstep with ⟨j, rfl, rfl, rfl⟩ | ⟨i, t, c, k, b, rfl, hth, rfl, rfl⟩
    · rw [List.append_nil, List.length_append, List.length_singleton, ghosts_succ hlogged.1]
      exact start _ _ _ hJ
    · have hi : i < s.threads.length := (List.getElem?_eq_some_iff.mp hth).1
      obtain ⟨j, hlog⟩ := hlogged.2 i _ hth
      have hg : (P.ghosts M g₀ tr s.threads.length)[i]? =
          some (P.after M g₀ (byThread i tr)) := by
        unfold Protocol.ghosts
        rw [List.getElem?_map, List.getElem?_range hi]
        rfl
      rw [List.length_set, ghosts_snoc, List.map_append]
      exact step s tr i t c k b _ _ hC hth hg (hlog.follows (hjobs j)).1 hJ
  exact hboth.2

end Machine

end Hivebook
