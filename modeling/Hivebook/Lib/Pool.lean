import Hivebook.Lib.Prog

/-!
# Running programs one after another, and side by side

Two systems are built from a machine and a family of programs, its *jobs*.

* In `Machine.sequential` one job runs at a time.  Starting the next one drops
  whatever is left of the current one, which has returned or has crashed.
* In `Machine.pool` any number of jobs run side by side, and every turn performs
  the next command of one of them.

Both are transition systems; the label of a turn records the command performed and
the state it was performed in.

## Main definitions

* `Thread` — what is left of a running program, and its context.
* `Log M p ls q` — after the commands `ls`, the program `p` is left with `q`;
  `Prog.replay` — the result of a program, from the commands it has performed.
* `Machine.sequential`, `Machine.pool` — the two systems.
* `Meets` — a turn meets an assumption on commands.

## Main results

* `pool_step` — what one step of the pool is.
* `Log.of_call`, `Log.of_pure` — what the log of a program begins with.
-/

namespace Hivebook

/-- What is left of a running program, and whether its context is cancelled. -/
structure Thread (Cmd : Type) (Resp : Cmd → Type) (α : Type) where
  prog : Prog Cmd Resp α
  cancelled : Bool

namespace Machine

variable {σ χ Cmd : Type} {Resp : Cmd → Type} {α ι : Type} (M : Machine σ χ Cmd Resp)

/-- The next command of a thread is performed; a program that has returned takes
no turn. -/
def turn (s : σ) (t : Turn χ) :
    Thread Cmd Resp α → Option (σ × Thread Cmd Resp α × Performed σ χ Cmd)
  | ⟨.pure _, _⟩ => none
  | ⟨.call c k, b⟩ =>
      let r := M.perform t.choice (b || t.cancel) s c
      some (r.1, ⟨k r.2, b || t.cancel⟩, ⟨s, c, b || t.cancel, t.choice⟩)

/-! ### One job at a time -/

/-- A state of the sequential system: the world and the job that is running. -/
structure Sequential (σ ι Cmd : Type) (Resp : Cmd → Type) (α : Type) where
  world : σ
  current : Option (ι × Thread Cmd Resp α)

/-- What happens in the sequential system. -/
inductive SeqEvent (ι χ : Type) where
  /-- The next job starts; the current one has returned or crashed. -/
  | start (j : ι)
  | turn (t : Turn χ)

/-- One job runs at a time. -/
def sequential (jobs : ι → Prog Cmd Resp α) :
    Lts (Sequential σ ι Cmd Resp α) (SeqEvent ι χ) (Performed σ χ Cmd) where
  step s
    | .start j => some ({ s with current := some (j, ⟨jobs j, false⟩) }, [])
    | .turn t =>
        match s.current with
        | none => none
        | some (j, th) =>
            (M.turn s.world t th).map fun r => (⟨r.1, some (j, r.2.1)⟩, [r.2.2])

variable {M}

/-- The turns of the sequential system meet an assumption on commands. -/
def SeqMeets (A : χ → Bool → σ → Cmd → Prop) (s : Sequential σ ι Cmd Resp α) :
    SeqEvent ι χ → Prop
  | .start _ => True
  | .turn t => ∀ j c k b, s.current = some (j, ⟨.call c k, b⟩) →
      A t.choice (b || t.cancel) s.world c

/-- Whether the next turn of the sequential system meets a decidable assumption. -/
def seqCheck (A : χ → Bool → σ → Cmd → Bool) (s : Sequential σ ι Cmd Resp α) :
    SeqEvent ι χ → Bool
  | .start _ => true
  | .turn t =>
      match s.current with
      | some (_, ⟨.call c _, b⟩) => A t.choice (b || t.cancel) s.world c
      | _ => true

theorem seqMeets_of_check {A : χ → Bool → σ → Cmd → Bool} {s : Sequential σ ι Cmd Resp α}
    {e : SeqEvent ι χ} (h : seqCheck A s e = true) :
    SeqMeets (fun x b w c => A x b w c = true) s e := by
  cases e with
  | start j => trivial
  | turn t =>
    intro j c k b hcur
    simpa [seqCheck, hcur] using h

/-- Whether the next turn of the sequential system meets a decidable assumption that depends on
the job. -/
def jobCheck (A : ι → χ → Bool → σ → Cmd → Bool) (s : Sequential σ ι Cmd Resp α) :
    SeqEvent ι χ → Bool
  | .start _ => true
  | .turn t =>
      match s.current with
      | some (j, ⟨.call c _, b⟩) => A j t.choice (b || t.cancel) s.world c
      | _ => true

theorem of_jobCheck {A : ι → χ → Bool → σ → Cmd → Bool} {s : Sequential σ ι Cmd Resp α}
    {t : Turn χ} {j : ι} {c : Cmd} {k : Resp c → Prog Cmd Resp α} {b : Bool}
    (h : jobCheck A s (.turn t) = true) (hcur : s.current = some (j, ⟨.call c k, b⟩)) :
    A j t.choice (b || t.cancel) s.world c = true := by
  simpa [jobCheck, hcur] using h

/-! ### Jobs side by side -/

variable (M)

/-- A state of the pool: the world and the threads, in the order they started. -/
structure Pool (σ Cmd : Type) (Resp : Cmd → Type) (α : Type) where
  world : σ
  threads : List (Thread Cmd Resp α)

/-- What happens in the pool. -/
inductive PoolEvent (ι χ : Type) where
  /-- A job starts. -/
  | start (j : ι)
  /-- A thread takes a turn. -/
  | turn (i : ℕ) (t : Turn χ)

/-- Any number of jobs run side by side. -/
def pool (jobs : ι → Prog Cmd Resp α) :
    Lts (Pool σ Cmd Resp α) (PoolEvent ι χ) (Performed σ χ Cmd) where
  step s
    | .start j => some ({ s with threads := s.threads ++ [⟨jobs j, false⟩] }, [])
    | .turn i t =>
        match s.threads[i]? with
        | none => none
        | some th =>
            (M.turn s.world t th).map fun r => (⟨r.1, s.threads.set i r.2.1⟩, [r.2.2])

/-- Every thread of the pool has returned. -/
def Pool.returned (s : Pool σ Cmd Resp α) : Prop :=
  ∀ th ∈ s.threads, ∃ a, th.prog = .pure a

/-- Whether every thread of the pool has returned. -/
def Pool.allReturned (s : Pool σ Cmd Resp α) : Bool :=
  s.threads.all fun th => match th.prog with
    | .pure _ => true
    | .call _ _ => false

theorem Pool.returned_of_allReturned {s : Pool σ Cmd Resp α} (h : s.allReturned = true) :
    s.returned := by
  intro th hth
  have hprog := List.all_eq_true.mp h th hth
  cases hp : th.prog with
  | pure a => exact ⟨a, rfl⟩
  | call c k => simp [hp] at hprog

/-- Whether some thread of the pool has returned a given result. -/
def Pool.hasReturned [DecidableEq α] (s : Pool σ Cmd Resp α) (a : α) : Bool :=
  s.threads.any fun th => match th.prog with
    | .pure a' => decide (a' = a)
    | .call _ _ => false

theorem Pool.exists_of_hasReturned [DecidableEq α] {s : Pool σ Cmd Resp α} {a : α}
    (h : s.hasReturned a = true) : ∃ th ∈ s.threads, th.prog = .pure a := by
  obtain ⟨th, hth, hprog⟩ := List.any_eq_true.mp h
  refine ⟨th, hth, ?_⟩
  cases hp : th.prog with
  | pure a' =>
    simp only [hp, decide_eq_true_eq] at hprog
    rw [hprog]
  | call c k => simp [hp] at hprog

variable {M}

/-- The turns of the pool meet an assumption on commands. -/
def PoolMeets (A : χ → Bool → σ → Cmd → Prop) (s : Pool σ Cmd Resp α) :
    PoolEvent ι χ → Prop
  | .start _ => True
  | .turn i t => ∀ c k b, s.threads[i]? = some ⟨.call c k, b⟩ →
      A t.choice (b || t.cancel) s.world c

/-- Whether the next turn of the pool meets a decidable assumption. -/
def poolCheck (A : χ → Bool → σ → Cmd → Bool) (s : Pool σ Cmd Resp α) : PoolEvent ι χ → Bool
  | .start _ => true
  | .turn i t =>
      match s.threads[i]? with
      | some ⟨.call c _, b⟩ => A t.choice (b || t.cancel) s.world c
      | _ => true

theorem poolMeets_of_check {A : χ → Bool → σ → Cmd → Bool} {s : Pool σ Cmd Resp α}
    {e : PoolEvent ι χ} (h : poolCheck A s e = true) :
    PoolMeets (fun x b w c => A x b w c = true) s e := by
  cases e with
  | start j => trivial
  | turn i t =>
    intro c k b hth
    simpa [poolCheck, hth] using h

/-- What one step of the pool does. -/
theorem pool_step {jobs : ι → Prog Cmd Resp α} {s s' : Pool σ Cmd Resp α}
    {e : PoolEvent ι χ} {as : List (Performed σ χ Cmd)}
    (h : (M.pool jobs).step s e = some (s', as)) :
    (∃ j, e = .start j ∧ s' = { s with threads := s.threads ++ [⟨jobs j, false⟩] } ∧ as = []) ∨
    ∃ i t c k b, e = .turn i t ∧ s.threads[i]? = some ⟨.call c k, b⟩ ∧
      s' = ⟨(M.perform t.choice (b || t.cancel) s.world c).1,
        s.threads.set i ⟨k (M.perform t.choice (b || t.cancel) s.world c).2, b || t.cancel⟩⟩ ∧
      as = [⟨s.world, c, b || t.cancel, t.choice⟩] := by
  cases e with
  | start j =>
    simp only [pool, Option.some.injEq, Prod.mk.injEq] at h
    exact Or.inl ⟨j, rfl, h.1.symm, h.2.symm⟩
  | turn i t =>
    cases hth : s.threads[i]? with
    | none => simp [pool, hth] at h
    | some th =>
      obtain ⟨prog, b⟩ := th
      cases prog with
      | pure a => simp [pool, hth, turn] at h
      | call c k =>
        simp only [pool, hth, turn, Option.map_some, Option.some.injEq, Prod.mk.injEq] at h
        exact Or.inr ⟨i, t, c, k, b, rfl, hth, h.1.symm, h.2.symm⟩

end Machine

/-! ### Where a program has got to -/

section Log

variable {σ χ Cmd : Type} {Resp : Cmd → Type} {α β : Type}

/-- After the commands of a log a program is left with another one. -/
inductive Log (M : Machine σ χ Cmd Resp) (p : Prog Cmd Resp α) :
    List (Performed σ χ Cmd) → Prog Cmd Resp α → Prop
  | nil : Log M p [] p
  | snoc {ls : List (Performed σ χ Cmd)} {c : Cmd} {k : Resp c → Prog Cmd Resp α} (w : σ)
      (b : Bool) (x : χ) : Log M p ls (.call c k) →
      Log M p (ls ++ [⟨w, c, b, x⟩]) (k (M.perform x b w c).2)

variable {M : Machine σ χ Cmd Resp} {ls : List (Performed σ χ Cmd)}

/-- A program that has returned performs nothing. -/
theorem Log.of_pure {a : α} {q : Prog Cmd Resp α} (h : Log M (.pure a) ls q) :
    ls = [] ∧ q = .pure a := by
  induction h with
  | nil => exact ⟨rfl, rfl⟩
  | snoc w b x _ ih => cases ih.2

/-- A program that has a command to perform has performed nothing, or that one first. -/
theorem Log.of_call {c : Cmd} {k : Resp c → Prog Cmd Resp α} {q : Prog Cmd Resp α}
    (h : Log M (.call c k) ls q) :
    (ls = [] ∧ q = .call c k) ∨ ∃ w b x ls', ls = ⟨w, c, b, x⟩ :: ls' ∧
      Log M (k (M.perform x b w c).2) ls' q := by
  induction h with
  | nil => exact Or.inl ⟨rfl, rfl⟩
  | snoc w b x _ ih =>
    rcases ih with ⟨rfl, hq⟩ | ⟨w', b', x', ls', rfl, hlog⟩
    · cases hq
      exact Or.inr ⟨w, b, x, [], rfl, .nil⟩
    · exact Or.inr ⟨w', b', x', ls' ++ [_], rfl, .snoc w b x hlog⟩

/-- The log of a program whose result is mapped is a log of the program. -/
theorem Log.of_map {p : Prog Cmd Resp α} {f : α → β} {q : Prog Cmd Resp β}
    (h : Log M (p.bind fun a => .pure (f a)) ls q) :
    ∃ p', q = p'.bind (fun a => .pure (f a)) ∧ Log M p ls p' := by
  induction h with
  | nil => exact ⟨p, rfl, .nil⟩
  | snoc w b x _ ih =>
    obtain ⟨p', heq, hlog⟩ := ih
    cases p' with
    | pure a => cases heq
    | call c k =>
      cases heq
      exact ⟨_, rfl, .snoc w b x hlog⟩

/-- A program whose result is mapped returns the image of a result. -/
theorem Log.map_returns {p : Prog Cmd Resp α} {f : α → β} {b : β}
    (h : Log M (p.bind fun a => .pure (f a)) ls (.pure b)) :
    ∃ a, b = f a ∧ Log M p ls (.pure a) := by
  obtain ⟨p', heq, hlog⟩ := h.of_map
  cases p' with
  | pure a =>
    cases heq
    exact ⟨a, rfl, hlog⟩
  | call c k => cases heq

/-- A command in front of a log. -/
theorem Log.cons {c : Cmd} {k : Resp c → Prog Cmd Resp α} {q : Prog Cmd Resp α} (w : σ) (b : Bool)
    (x : χ) (h : Log M (k (M.perform x b w c).2) ls q) :
    Log M (.call c k) (⟨w, c, b, x⟩ :: ls) q := by
  induction h with
  | nil => exact .snoc w b x .nil
  | snoc w' b' x' _ ih => exact .snoc w' b' x' ih

/-- **The log of a composition**: the first part is under way, or it has returned and the
second is. -/
theorem Log.of_bind {p : Prog Cmd Resp α} {f : α → Prog Cmd Resp β} {q : Prog Cmd Resp β}
    (h : Log M (p.bind f) ls q) :
    (∃ c k, q = .call c (fun r => (k r).bind f) ∧ Log M p ls (.call c k)) ∨
      ∃ ls₁ ls₂ a, ls = ls₁ ++ ls₂ ∧ Log M p ls₁ (.pure a) ∧ Log M (f a) ls₂ q := by
  induction p generalizing ls with
  | pure a => exact Or.inr ⟨[], ls, a, rfl, .nil, h⟩
  | call c k ih =>
    rcases Log.of_call h with ⟨rfl, rfl⟩ | ⟨w, b, x, ls', rfl, hrest⟩
    · exact Or.inl ⟨c, k, rfl, .nil⟩
    · rcases ih _ hrest with ⟨c', k', rfl, hlog⟩ | ⟨ls₁, ls₂, a, rfl, hfirst, hsecond⟩
      · exact Or.inl ⟨c', k', rfl, hlog.cons w b x⟩
      · exact Or.inr ⟨_ :: ls₁, ls₂, a, rfl, hfirst.cons w b x, hsecond⟩

/-- A composition that has returned has gone through both parts. -/
theorem Log.returns_bind {p : Prog Cmd Resp α} {f : α → Prog Cmd Resp β} {r : β}
    (h : Log M (p.bind f) ls (.pure r)) : ∃ ls₁ ls₂ a, ls = ls₁ ++ ls₂ ∧
      Log M p ls₁ (.pure a) ∧ Log M (f a) ls₂ (.pure r) := by
  rcases h.of_bind with ⟨c, k, heq, -⟩ | hparts
  · cases heq
  · exact hparts

/-- What is left of a program issues no commands it could not issue. -/
theorem Log.uses {U : Cmd → Prop} {p q : Prog Cmd Resp α} (h : Log M p ls q) (hU : p.Uses U) :
    q.Uses U := by
  induction h with
  | nil => exact hU
  | snoc w b x _ ih => exact ih.2 _

/-- The commands of a log are among those the program may issue. -/
theorem Log.forall_cmd {U : Cmd → Prop} {p q : Prog Cmd Resp α} (h : Log M p ls q)
    (hU : p.Uses U) : ∀ l ∈ ls, U l.cmd := by
  induction h with
  | nil => simp
  | snoc w b x hlog ih =>
    intro l hl
    rcases List.mem_append.mp hl with hl | hl
    · exact ih l hl
    · rw [List.mem_singleton.mp hl]
      exact (hlog.uses hU).1

/-- A composition that has come to a command its first part does not issue is past it. -/
theorem Log.past_bind {U : Cmd → Prop} {p : Prog Cmd Resp α} {f : α → Prog Cmd Resp β} {c : Cmd}
    {k : Resp c → Prog Cmd Resp β} (h : Log M (p.bind f) ls (.call c k)) (hU : p.Uses U)
    (hc : ¬ U c) : ∃ ls₁ ls₂ a, ls = ls₁ ++ ls₂ ∧ Log M p ls₁ (.pure a) ∧
      Log M (f a) ls₂ (.call c k) := by
  rcases h.of_bind with ⟨c', k', heq, hlog⟩ | hparts
  · cases heq
    exact absurd (hlog.uses hU).1 hc
  · exact hparts

/-- A program returns at one point of a log only, and with one result. -/
theorem Log.returns_unique {p : Prog Cmd Resp α} {ls' L : List (Performed σ χ Cmd)} {a a' : α}
    (h : Log M p ls (.pure a)) (h' : Log M p ls' (.pure a')) (hL : ls <+: L) (hL' : ls' <+: L) :
    ls = ls' ∧ a = a' := by
  induction p generalizing ls ls' L with
  | pure r =>
    obtain ⟨rfl, heq⟩ := h.of_pure
    obtain ⟨rfl, heq'⟩ := h'.of_pure
    cases heq
    cases heq'
    exact ⟨rfl, rfl⟩
  | call c k ih =>
    rcases h.of_call with ⟨-, hq⟩ | ⟨w, b, x, l, rfl, hrest⟩
    · cases hq
    · rcases h'.of_call with ⟨-, hq⟩ | ⟨w', b', x', l', rfl, hrest'⟩
      · cases hq
      · -- the two logs start with the same command
        obtain ⟨L', rfl⟩ := hL
        obtain ⟨heq, hl'⟩ := List.cons_prefix_cons.mp hL'
        cases heq
        obtain ⟨rfl, rfl⟩ := ih _ hrest hrest' (List.prefix_append l L') hl'
        exact ⟨rfl, rfl⟩

/-- What a program returns when it performs the commands of a list, from the first on. -/
def Prog.replay [DecidableEq Cmd] (M : Machine σ χ Cmd Resp) :
    Prog Cmd Resp α → List (Performed σ χ Cmd) → Option α
  | .pure a, _ => some a
  | .call _ _, [] => none
  | .call c k, l :: ls =>
      if l.cmd = c then replay M (k (M.perform l.choice l.cancelled l.state c).2) ls else none

/-- **A replay finds the log of a program that has returned.** -/
theorem Prog.replay_eq_some [DecidableEq Cmd] {p : Prog Cmd Resp α}
    {L : List (Performed σ χ Cmd)} {a : α} :
    p.replay M L = some a ↔ ∃ ls, ls <+: L ∧ Log M p ls (.pure a) := by
  induction p generalizing L with
  | pure r =>
    constructor
    · intro h
      cases h
      exact ⟨[], List.nil_prefix, .nil⟩
    · rintro ⟨ls, -, hlog⟩
      cases hlog.of_pure.2
      rfl
  | call c k ih =>
    constructor
    · intro h
      cases L with
      | nil => cases h
      | cons l L =>
        obtain ⟨w, c', b, x⟩ := l
        unfold Prog.replay at h
        split at h
        · rename_i heq
          cases heq
          obtain ⟨ls, hpre, hlog⟩ := (ih _).mp h
          exact ⟨_, List.cons_prefix_cons.mpr ⟨rfl, hpre⟩, hlog.cons w b x⟩
        · cases h
    · rintro ⟨ls, hpre, hlog⟩
      rcases hlog.of_call with ⟨-, hq⟩ | ⟨w, b, x, ls', rfl, hrest⟩
      · cases hq
      · obtain ⟨L', rfl⟩ := hpre
        have hlater := (ih _).mpr ⟨ls', List.prefix_append ls' L', hrest⟩
        unfold Prog.replay
        exact (if_pos rfl).trans hlater

/-- A run of a program alone is a log of it. -/
theorem Machine.Returns.log {p : Prog Cmd Resp α} {b b' : Bool} {s s' : σ} {a : α}
    (h : M.Returns p b s ls a b' s') : Log M p ls (.pure a) := by
  induction h with
  | pure a b s => exact .nil
  | call t _ ih => exact ih.cons _ _ _

end Log

end Hivebook
