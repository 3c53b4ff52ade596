import Mathlib.Logic.Relation
import Hivebook.Lib.Prog

/-!
# Bounded groups of tasks

A group runs a list of tasks on a bounded number of workers under one context.  A loop launches
them in order: it looks at the context, and then waits for a free worker.  A task that returns a
value writes it into the slot of its index; the first one that returns an error cancels the
context, and the loop launches no more.  At the end one waits for all that run, and the first
error, if there is one, is the result.

While the context is alive, every task is answered by an environment of its own; from the moment
it is cancelled, any answer is possible.

## Main definitions

* `Prog.eval` — what a program returns when its commands are answered by a function.
* `ErrGroup` — a group at work; `ErrGroup.Step`, `ErrGroup.Reaches` — its steps, and its runs.

## Main results

* `ErrGroup.wellFounded_step` — every schedule ends.
* `ErrGroup.finished_or_step` — a group that is not done can go on.
* `ErrGroup.Reaches.err_none_iff`, `ErrGroup.Reaches.slot_of_err_none` — **the group succeeds
  exactly when every task does by itself, and then each slot has what its task returns.**
-/

namespace Hivebook

/-! ### Programs evaluated by a function -/

namespace Prog

variable {Cmd : Type} {Resp : Cmd → Type} {α β : Type}

/-- What a program returns when its commands are answered by a function. -/
def eval (h : (c : Cmd) → Resp c) : Prog Cmd Resp α → α
  | .pure a => a
  | .call c k => eval h (k (h c))

@[simp] theorem eval_pure (h : (c : Cmd) → Resp c) (a : α) :
    (Prog.pure a : Prog Cmd Resp α).eval h = a := rfl

@[simp] theorem eval_call (h : (c : Cmd) → Resp c) (c : Cmd) (k : Resp c → Prog Cmd Resp α) :
    (Prog.call c k).eval h = (k (h c)).eval h := rfl

@[simp] theorem eval_bind (h : (c : Cmd) → Resp c) (p : Prog Cmd Resp α)
    (f : α → Prog Cmd Resp β) : (p.bind f).eval h = (f (p.eval h)).eval h := by
  induction p with
  | pure a => rfl
  | call c k ih => exact ih (h c)

end Prog

/-! ### The group -/

variable {Cmd : Type} {Resp : Cmd → Type} {E β : Type}

/-- A group at work. -/
structure ErrGroup (Cmd : Type) (Resp : Cmd → Type) (E β : Type) where
  /-- The tasks that are not launched yet, each with its index. -/
  todo : List (ℕ × Prog Cmd Resp (Except E β))
  /-- The loop has found the context alive, and waits for a worker. -/
  admitted : Bool
  /-- The tasks at work, each with its index. -/
  running : List (ℕ × Prog Cmd Resp (Except E β))
  slots : ℕ → Option β
  /-- The first error; the context is cancelled with it. -/
  err : Option E

namespace ErrGroup

/-- A group of tasks that is not yet at work. -/
def init (tasks : List (Prog Cmd Resp (Except E β))) : ErrGroup Cmd Resp E β where
  todo := tasks.zipIdx.map Prod.swap
  admitted := false
  running := []
  slots := fun _ => none
  err := none

/-- Every task that was launched has returned, and no more will be launched. -/
def Finished (s : ErrGroup Cmd Resp E β) : Prop := s.todo = [] ∧ s.running = []

/-- A step of a group on `limit` workers, where `answers i cancelled c` are the answers the task
of index `i` may get to a command. -/
inductive Step (limit : ℕ) (answers : ℕ → Bool → (c : Cmd) → Resp c → Prop) :
    ErrGroup Cmd Resp E β → ErrGroup Cmd Resp E β → Prop
  /-- The loop finds the context alive. -/
  | enter {s : ErrGroup Cmd Resp E β} :
      s.todo ≠ [] → s.admitted = false → s.err = none →
        Step limit answers s { s with admitted := true }
  /-- The loop finds the context cancelled, and ends. -/
  | stop {s : ErrGroup Cmd Resp E β} :
      s.todo ≠ [] → s.admitted = false → s.err ≠ none →
        Step limit answers s { s with todo := [] }
  /-- The loop launches a task on a free worker. -/
  | launch {s : ErrGroup Cmd Resp E β} {t : ℕ × Prog Cmd Resp (Except E β)}
      {rest : List (ℕ × Prog Cmd Resp (Except E β))} :
      s.todo = t :: rest → s.admitted = true → s.running.length < limit →
        Step limit answers s { s with todo := rest, admitted := false, running := s.running ++ [t] }
  /-- A task at work is answered. -/
  | turn {s : ErrGroup Cmd Resp E β} {pre post : List (ℕ × Prog Cmd Resp (Except E β))} {i : ℕ}
      {c : Cmd} {k : Resp c → Prog Cmd Resp (Except E β)} {r : Resp c} :
      s.running = pre ++ (i, .call c k) :: post → answers i s.err.isSome c r →
        Step limit answers s { s with running := pre ++ (i, k r) :: post }
  /-- A task returns a value. -/
  | done {s : ErrGroup Cmd Resp E β} {pre post : List (ℕ × Prog Cmd Resp (Except E β))} {i : ℕ}
      {d : β} :
      s.running = pre ++ (i, .pure (.ok d)) :: post →
        Step limit answers s
          { s with running := pre ++ post, slots := Function.update s.slots i (some d) }
  /-- A task returns an error. -/
  | fail {s : ErrGroup Cmd Resp E β} {pre post : List (ℕ × Prog Cmd Resp (Except E β))} {i : ℕ}
      {e : E} :
      s.running = pre ++ (i, .pure (.error e)) :: post →
        Step limit answers s { s with running := pre ++ post, err := some (s.err.getD e) }

/-- The runs of a group. -/
def Reaches (limit : ℕ) (answers : ℕ → Bool → (c : Cmd) → Resp c → Prop) :
    ErrGroup Cmd Resp E β → ErrGroup Cmd Resp E β → Prop :=
  Relation.ReflTransGen (Step limit answers)

/-! ### Every schedule ends -/

/-- The tasks at work take a turn: one of them goes on, or has returned. -/
inductive Works : List (ℕ × Prog Cmd Resp (Except E β)) →
    List (ℕ × Prog Cmd Resp (Except E β)) → Prop
  | turn (pre post : List (ℕ × Prog Cmd Resp (Except E β))) (i : ℕ) (c : Cmd)
      (k : Resp c → Prog Cmd Resp (Except E β)) (r : Resp c) :
      Works (pre ++ (i, k r) :: post) (pre ++ (i, .call c k) :: post)
  | ret (pre post : List (ℕ × Prog Cmd Resp (Except E β))) (i : ℕ) (a : Except E β) :
      Works (pre ++ post) (pre ++ (i, .pure a) :: post)

/-- A turn is taken by the first task, or by one of the others. -/
theorem works_cons {t : ℕ × Prog Cmd Resp (Except E β)}
    {l y : List (ℕ × Prog Cmd Resp (Except E β))} (h : Works y (t :: l)) :
    (∃ c k r, t.2 = .call c k ∧ y = (t.1, k r) :: l) ∨ ((∃ a, t.2 = .pure a) ∧ y = l) ∨
      ∃ y', y = t :: y' ∧ Works y' l := by
  generalize hz : t :: l = z at h
  cases h with
  | turn pre post i c k r =>
    cases pre with
    | nil =>
      obtain ⟨rfl, rfl⟩ := List.cons.inj hz
      exact .inl ⟨c, k, r, rfl, rfl⟩
    | cons u pre =>
      obtain ⟨rfl, rfl⟩ := List.cons.inj hz
      exact .inr (.inr ⟨_, rfl, .turn pre post i c k r⟩)
  | ret pre post i a =>
    cases pre with
    | nil =>
      obtain ⟨rfl, rfl⟩ := List.cons.inj hz
      exact .inr (.inl ⟨⟨a, rfl⟩, rfl⟩)
    | cons u pre =>
      obtain ⟨rfl, rfl⟩ := List.cons.inj hz
      exact .inr (.inr ⟨_, rfl, .ret pre post i a⟩)

/-- A task beside others that come to an end comes to an end. -/
theorem acc_works_cons (p : Prog Cmd Resp (Except E β)) (i : ℕ)
    {l : List (ℕ × Prog Cmd Resp (Except E β))} (hl : Acc Works l) : Acc Works ((i, p) :: l) := by
  induction p generalizing l with
  | pure a =>
    induction hl with
    | intro l hl ih =>
      refine ⟨_, fun y hy => ?_⟩
      rcases works_cons hy with ⟨c, k, r, hcall, -⟩ | ⟨-, rfl⟩ | ⟨y', rfl, hy'⟩
      · cases hcall
      · exact ⟨_, hl⟩
      · exact ih y' hy'
  | call c k ihk =>
    induction hl with
    | intro l hl ih =>
      refine ⟨_, fun y hy => ?_⟩
      rcases works_cons hy with ⟨c', k', r, hcall, rfl⟩ | ⟨⟨a, hpure⟩, -⟩ | ⟨y', rfl, hy'⟩
      · cases hcall
        exact ihk r ⟨_, hl⟩
      · cases hpure
      · exact ih y' hy'

theorem acc_works (l : List (ℕ × Prog Cmd Resp (Except E β))) : Acc Works l := by
  induction l with
  | nil =>
    refine ⟨_, fun y hy => ?_⟩
    generalize hz : ([] : List (ℕ × Prog Cmd Resp (Except E β))) = z at hy
    cases hy with
    | turn pre post => exact absurd hz (by simp)
    | ret pre post => exact absurd hz (by simp)
  | cons t l ih => exact acc_works_cons t.2 t.1 ih

variable {limit : ℕ} {answers : ℕ → Bool → (c : Cmd) → Resp c → Prop}

/-- What a step does to the tasks: a turn is taken, one is launched or none is any more, or the
loop looks at the context. -/
theorem Step.cases_tasks {s s' : ErrGroup Cmd Resp E β} (h : Step limit answers s s') :
    (s'.todo = s.todo ∧ s'.admitted = s.admitted ∧ Works s'.running s.running) ∨
      s'.todo.length < s.todo.length ∨
      (s'.todo = s.todo ∧ s.admitted = false ∧ s'.admitted = true ∧ s'.running = s.running) := by
  cases h with
  | enter hne hadm herr => exact .inr (.inr ⟨rfl, hadm, rfl, rfl⟩)
  | stop hne hadm herr =>
    refine .inr (.inl ?_)
    exact List.length_pos_iff.mpr hne
  | launch htodo hadm hlt =>
    refine .inr (.inl ?_)
    rw [htodo]
    exact Nat.lt_succ_self _
  | turn hrun hans => exact .inl ⟨rfl, rfl, hrun ▸ .turn _ _ _ _ _ _⟩
  | done hrun => exact .inl ⟨rfl, rfl, hrun ▸ .ret _ _ _ _⟩
  | fail hrun => exact .inl ⟨rfl, rfl, hrun ▸ .ret _ _ _ _⟩

/-- The end of every schedule, once that of those with fewer tasks to launch is known. -/
theorem acc_step_of_shorter {n : ℕ}
    (ih : ∀ s : ErrGroup Cmd Resp E β, s.todo.length < n → Acc (flip (Step limit answers)) s)
    (l : List (ℕ × Prog Cmd Resp (Except E β))) :
    ∀ s : ErrGroup Cmd Resp E β, s.todo.length = n → s.running = l →
      Acc (flip (Step limit answers)) s := by
  -- first for a loop that waits for a worker, then for one that will look at the context
  have hadmitted : ∀ l, ∀ s : ErrGroup Cmd Resp E β, s.admitted = true → s.todo.length = n →
      s.running = l → Acc (flip (Step limit answers)) s := by
    intro l
    induction acc_works l with
    | intro l _ ihl =>
      intro s hadm hn hl
      refine ⟨_, fun s' hs => ?_⟩
      rcases hs.cases_tasks with ⟨htodo, hadm', hworks⟩ | hlt | ⟨-, hadm', -⟩
      · exact ihl s'.running (hl ▸ hworks) s' (hadm'.trans hadm) (htodo ▸ hn) rfl
      · exact ih s' (hn ▸ hlt)
      · rw [hadm] at hadm'
        cases hadm'
  induction acc_works l with
  | intro l _ ihl =>
    intro s hn hl
    refine ⟨_, fun s' hs => ?_⟩
    rcases hs.cases_tasks with ⟨htodo, -, hworks⟩ | hlt | ⟨htodo, -, hadm, -⟩
    · exact ihl s'.running (hl ▸ hworks) s' (htodo ▸ hn) rfl
    · exact ih s' (hn ▸ hlt)
    · exact hadmitted s'.running s' hadm (htodo ▸ hn) rfl

/-- **Every schedule ends**: no group takes steps for ever. -/
theorem wellFounded_step (limit : ℕ) (answers : ℕ → Bool → (c : Cmd) → Resp c → Prop) :
    WellFounded (flip (Step (E := E) (β := β) limit answers)) := by
  have hall : ∀ n, ∀ s : ErrGroup Cmd Resp E β, s.todo.length < n →
      Acc (flip (Step limit answers)) s := by
    intro n
    induction n with
    | zero => exact fun s hs => absurd hs (Nat.not_lt_zero _)
    | succ n ih =>
      intro s hs
      have hshorter : ∀ s' : ErrGroup Cmd Resp E β, s'.todo.length < s.todo.length →
          Acc (flip (Step limit answers)) s' := fun s' hs' =>
        ih s' (Nat.lt_of_lt_of_le hs' (Nat.lt_succ_iff.mp hs))
      exact acc_step_of_shorter hshorter s.running s rfl rfl
  exact ⟨fun s => hall _ s (Nat.lt_succ_self _)⟩

/-- **A group that is not done can go on**, when it has workers and every command is answered. -/
theorem finished_or_step (hlimit : 0 < limit) (hanswers : ∀ i b c, ∃ r, answers i b c r)
    (s : ErrGroup Cmd Resp E β) : s.Finished ∨ ∃ s', Step limit answers s s' := by
  cases hrun : s.running with
  | cons t post =>
    obtain ⟨i, p⟩ := t
    cases p with
    | pure a =>
      cases a with
      | ok d =>
        have hrun : s.running = [] ++ (i, .pure (.ok d)) :: post := hrun
        exact .inr ⟨_, .done hrun⟩
      | error e =>
        have hrun : s.running = [] ++ (i, .pure (.error e)) :: post := hrun
        exact .inr ⟨_, .fail hrun⟩
    | call c k =>
      obtain ⟨r, hr⟩ := hanswers i s.err.isSome c
      have hrun : s.running = [] ++ (i, .call c k) :: post := hrun
      exact .inr ⟨_, .turn hrun hr⟩
  | nil =>
    cases htodo : s.todo with
    | nil => exact .inl ⟨htodo, hrun⟩
    | cons t rest =>
      have hne : s.todo ≠ [] := by simp [htodo]
      cases hadm : s.admitted with
      | true => exact .inr ⟨_, .launch htodo hadm (by rw [hrun]; exact hlimit)⟩
      | false =>
        cases herr : s.err with
        | none => exact .inr ⟨_, .enter hne hadm herr⟩
        | some e => exact .inr ⟨_, .stop hne hadm (by simp [herr])⟩

/-! ### What a group returns -/

/-- While the context is alive, every task is answered by its own environment. -/
def Answered (answers : ℕ → Bool → (c : Cmd) → Resp c → Prop)
    (solo : ℕ → (c : Cmd) → Resp c) : Prop := ∀ i c r, answers i false c r → r = solo i c

/-- What is known of a group whose context is alive: every task is still to be launched, at work
towards what it returns by itself, or has that in its slot; and of a group whose context is
cancelled: a task has failed by itself. -/
structure Inv (tasks : List (Prog Cmd Resp (Except E β))) (solo : ℕ → (c : Cmd) → Resp c)
    (s : ErrGroup Cmd Resp E β) : Prop where
  todo : ∀ t ∈ s.todo, tasks[t.1]? = some t.2
  running : s.err = none → ∀ t ∈ s.running, ∃ p, tasks[t.1]? = some p ∧
    t.2.eval (solo t.1) = p.eval (solo t.1)
  slots : s.err = none → ∀ i d, s.slots i = some d → ∃ p, tasks[i]? = some p ∧
    p.eval (solo i) = .ok d
  covered : s.err = none → ∀ i, i < tasks.length →
    i ∈ s.todo.map Prod.fst ∨ i ∈ s.running.map Prod.fst ∨ (s.slots i).isSome = true
  failed : ∀ e, s.err = some e → ∃ (i : ℕ) (p : Prog Cmd Resp (Except E β)),
    tasks[i]? = some p ∧ p.eval (solo i) = .error e

variable {tasks : List (Prog Cmd Resp (Except E β))} {solo : ℕ → (c : Cmd) → Resp c}

theorem inv_init : Inv tasks solo (init tasks) where
  todo := by
    intro t ht
    obtain ⟨⟨p, i⟩, hmem, rfl⟩ := List.mem_map.mp ht
    exact (List.mem_zipIdx_iff_getElem?.mp hmem)
  running := fun _ t ht => absurd ht (by simp [init])
  slots := fun _ i d hd => by cases hd
  covered := by
    intro _ i hi
    refine .inl (List.mem_map.mpr ⟨(i, tasks[i]), List.mem_map.mpr ⟨(tasks[i], i), ?_, rfl⟩, rfl⟩)
    exact List.mem_zipIdx_iff_getElem?.mpr (List.getElem?_eq_getElem hi)
  failed := fun e he => by cases he

theorem Inv.step (hsolo : Answered answers solo) {s s' : ErrGroup Cmd Resp E β}
    (h : Inv tasks solo s) (hs : Step limit answers s s') : Inv tasks solo s' := by
  cases hs with
  | enter hne hadm herr => exact ⟨h.todo, h.running, h.slots, h.covered, h.failed⟩
  | stop hne hadm herr =>
    exact ⟨by simp, h.running, h.slots, fun hnone => absurd hnone herr, h.failed⟩
  -- a task moves from those to do to those that run
  | @launch t rest htodo hadm hlt =>
    have ht := h.todo t (htodo ▸ List.mem_cons_self ..)
    refine ⟨fun t' ht' => h.todo t' (htodo ▸ List.mem_cons_of_mem _ ht'), ?_, h.slots, ?_, h.failed⟩
    · intro hnone t' ht'
      rcases List.mem_append.mp ht' with ht' | ht'
      · exact h.running hnone t' ht'
      · obtain rfl := List.mem_singleton.mp ht'
        exact ⟨t'.2, ht, rfl⟩
    · intro hnone i hi
      rcases h.covered hnone i hi with hin | hin | hin
      · rw [htodo, List.map_cons, List.mem_cons] at hin
        rcases hin with rfl | hin
        · exact .inr (.inl (by simp))
        · exact .inl hin
      · refine .inr (.inl ?_)
        rw [List.map_append]
        exact List.mem_append_left _ hin
      · exact .inr (.inr hin)
  | @turn pre post i c k r hrun hans =>
    refine ⟨h.todo, ?_, h.slots, ?_, h.failed⟩
    · intro hnone t ht
      have hold := h.running hnone
      rw [hrun] at hold
      rcases List.mem_append.mp ht with ht | ht
      · exact hold t (List.mem_append_left _ ht)
      · rcases List.mem_cons.mp ht with rfl | ht
        · -- the context is alive, so the answer is the task's own
          obtain ⟨p, hp, heval⟩ := hold (i, .call c k) (by simp)
          rw [hnone] at hans
          obtain rfl := hsolo i c r hans
          exact ⟨p, hp, heval⟩
        · exact hold t (List.mem_append_right _ (List.mem_cons_of_mem _ ht))
    · intro hnone j hj
      have hcov := h.covered hnone j hj
      rw [hrun] at hcov
      simpa using hcov
  -- the slot of the task is written, and of no other task
  | @done pre post i d hrun =>
    have hsub : ∀ t ∈ pre ++ post, t ∈ s.running := by
      intro t ht
      rw [hrun]
      rcases List.mem_append.mp ht with ht | ht
      · exact List.mem_append_left _ ht
      · exact List.mem_append_right _ (List.mem_cons_of_mem _ ht)
    refine ⟨h.todo, fun hnone t ht => h.running hnone t (hsub t ht), ?_, ?_, h.failed⟩
    · intro hnone j d' hd'
      by_cases hj : j = i
      · subst hj
        obtain ⟨p, hp, heval⟩ := h.running hnone (j, .pure (.ok d)) (hrun ▸ by simp)
        have hd : d = d' := by simpa using hd'
        subst hd
        exact ⟨p, hp, heval.symm⟩
      · refine h.slots hnone j d' ?_
        simpa [hj] using hd'
    · intro hnone j hj
      by_cases hji : j = i
      · subst hji
        exact .inr (.inr (by simp))
      · have hcov := h.covered hnone j hj
        rw [hrun] at hcov
        simpa [hji] using hcov
  | @fail pre post i e hrun =>
    refine ⟨h.todo, nofun, nofun, nofun, fun e' he' => ?_⟩
    -- only the first error is kept
    cases herr : s.err with
    | none =>
      obtain ⟨p, hp, heval⟩ := h.running herr (i, .pure (.error e)) (hrun ▸ by simp)
      have he : e = e' := by simpa [herr] using he'
      subst he
      exact ⟨i, p, hp, heval.symm⟩
    | some e₀ =>
      have he : e₀ = e' := by simpa [herr] using he'
      subst he
      exact h.failed e₀ herr

theorem Reaches.inv (hsolo : Answered answers solo) {s : ErrGroup Cmd Resp E β}
    (h : Reaches limit answers (init tasks) s) : Inv tasks solo s := by
  induction h with
  | refl => exact inv_init
  | tail _ hs ih => exact ih.step hsolo hs

/-- **A group that is done and has no error** has in each slot what the task returns by itself. -/
theorem Reaches.slot_of_err_none (hsolo : Answered answers solo) {s : ErrGroup Cmd Resp E β}
    (h : Reaches limit answers (init tasks) s) (hfin : s.Finished) (herr : s.err = none) {i : ℕ}
    (hi : i < tasks.length) :
    ∃ d, s.slots i = some d ∧ tasks[i].eval (solo i) = .ok d := by
  have hinv := h.inv hsolo
  rcases hinv.covered herr i hi with hin | hin | hin
  · rw [hfin.1] at hin
    cases hin
  · rw [hfin.2] at hin
    cases hin
  · obtain ⟨d, hd⟩ := Option.isSome_iff_exists.mp hin
    obtain ⟨p, hp, heval⟩ := hinv.slots herr i d hd
    rw [List.getElem?_eq_getElem hi] at hp
    obtain rfl := Option.some.inj hp
    exact ⟨d, hd, heval⟩

/-- **The group succeeds exactly when every task does by itself**, whatever the schedule. -/
theorem Reaches.err_none_iff (hsolo : Answered answers solo) {s : ErrGroup Cmd Resp E β}
    (h : Reaches limit answers (init tasks) s) (hfin : s.Finished) :
    s.err = none ↔ ∀ i (hi : i < tasks.length), ∃ d, tasks[i].eval (solo i) = .ok d := by
  constructor
  · intro herr i hi
    obtain ⟨d, -, hd⟩ := h.slot_of_err_none hsolo hfin herr hi
    exact ⟨d, hd⟩
  · intro hall
    cases herr : s.err with
    | none => rfl
    | some e =>
      obtain ⟨i, p, hp, heval⟩ := (h.inv hsolo).failed e herr
      obtain ⟨hi, rfl⟩ := List.getElem?_eq_some_iff.mp hp
      obtain ⟨d, hd⟩ := hall i hi
      rw [hd] at heval
      cases heval

end ErrGroup
end Hivebook
