import Hivebook.Lib.Pool

/-!
# Durable workflows over activities

A workflow engine runs a workflow, a transition system resumed by events, next to the
*activities* it schedules.  An activity is a program; its result is an event that
resumes the workflow.  The engine attempts an activity a bounded number of times: an
attempt that fails with a result that may be retried, that times out, or whose worker
is lost before it reports, is followed by another one, and the execution it leaves
behind may go on.  The result of the last attempt is final, and so is a result that is
not to be retried.  Beside the activities, any number of other programs act on the same
world.

An activity *ends* when the engine takes its result; the workflow may be resumed by
that result any time later.

## Main definitions

* `Orchestration` — a workflow, the activities it schedules and their retry policy.
* `Orchestrated`, `Task` — a workflow that runs over activities.
* `Occurrence`, `Label` — what happens to it, and what a trace records.
* `Orchestration.system` — the transition system; `Moves` — one step, by cases.
* `Traced` — a task's execution is where the commands in the trace have led it.

## Main results

* `system_moves` — every step is a move.
* `Traced.move` — every move keeps `Traced`: **the result of an activity is a timeout,
  or was returned by an execution whose commands are in the trace.**
-/

namespace Hivebook

open Machine

/-- A workflow over activities. -/
structure Orchestration (S E A Act Cmd : Type) (Resp : Cmd → Type) where
  workflow : Lts S E A
  /-- The activities a step schedules, by the state it leads to and what it did. -/
  schedules : S → List A → List Act
  /-- The program of an activity, which returns its result as an event. -/
  prog : Act → Prog Cmd Resp E
  /-- The maximum number of attempts at an activity. -/
  attempts : Act → ℕ
  /-- The result is not retried. -/
  final : E → Bool
  /-- The result of an activity that timed out or was cancelled before it ran. -/
  timeout : Act → E
  /-- The event is not the result of an activity. -/
  free : E → Bool
  /-- A new run of a workflow that has ended. -/
  restart : S → Option S

/-- An activity the workflow has scheduled. -/
structure Task (Act E : Type) where
  act : Act
  /-- How many attempts have been made. -/
  attempt : ℕ
  /-- The execution of the last attempt. -/
  execution : ℕ
  /-- The result, once the activity has ended. -/
  result : Option E

/-- A workflow that runs over activities. -/
structure Orchestrated (S σ E Act Cmd : Type) (Resp : Cmd → Type) where
  workflow : S
  world : σ
  /-- The executions of activities, in the order they started. -/
  executions : List (Thread Cmd Resp E)
  /-- The activities the workflow has not been resumed by yet. -/
  tasks : List (Task Act E)
  /-- The other programs that act on the world. -/
  others : List (Thread Cmd Resp Unit)

/-- What happens to a workflow over activities. -/
inductive Occurrence (ι χ E : Type) where
  /-- An event that is not the result of an activity. -/
  | free (e : E)
  /-- The workflow is resumed by the result of a task. -/
  | deliver (k : ℕ)
  /-- An execution performs its next command. -/
  | turn (i : ℕ) (t : Turn χ)
  /-- The engine takes the result of a task's execution. -/
  | resolve (k : ℕ)
  /-- A task is attempted again. -/
  | retry (k : ℕ)
  /-- A task times out for good, or is cancelled before it is picked up. -/
  | expire (k : ℕ)
  /-- A workflow that has ended is started again. -/
  | restart
  /-- Another program starts or takes a turn. -/
  | other (e : PoolEvent ι χ)

/-- What a trace records. -/
inductive Label (S σ χ E A Act Cmd : Type) where
  /-- The workflow did something. -/
  | action (a : A)
  /-- An execution performed a command. -/
  | performed (i : ℕ) (l : Performed σ χ Cmd)
  /-- Another program performed a command. -/
  | other (l : Performed σ χ Cmd)
  /-- An activity ended with a result. -/
  | ended (act : Act) (e : E)
  /-- A result resumed the workflow, which blocks in this state next. -/
  | resumed (s : S)

namespace Orchestration

variable {S σ χ E A Act ι Cmd : Type} {Resp : Cmd → Type}
variable (O : Orchestration S E A Act Cmd Resp) (M : Machine σ χ Cmd Resp)
variable (jobs : ι → Prog Cmd Resp Unit)

/-- A fresh workflow with nothing scheduled yet. -/
def start (q : S) (w : σ) : Orchestrated S σ E Act Cmd Resp :=
  { workflow := q, world := w, executions := [], tasks := [], others := [] }

/-- An activity is scheduled, and its first attempt may start. -/
def schedule (s : Orchestrated S σ E Act Cmd Resp) (act : Act) :
    Orchestrated S σ E Act Cmd Resp :=
  { s with
    executions := s.executions ++ [⟨O.prog act, false⟩]
    tasks := s.tasks ++ [⟨act, 1, s.executions.length, none⟩] }

/-- The workflow has gone on to its next blocking point. -/
def goOn (s : Orchestrated S σ E Act Cmd Resp) (r : S × List A) :
    Orchestrated S σ E Act Cmd Resp :=
  (O.schedules r.1 r.2).foldl O.schedule { s with workflow := r.1 }

/-- A task is attempted again, by a new execution. -/
def attemptAgain (s : Orchestrated S σ E Act Cmd Resp) (k : ℕ) (task : Task Act E) :
    Orchestrated S σ E Act Cmd Resp :=
  { s with
    executions := s.executions ++ [⟨O.prog task.act, false⟩]
    tasks := s.tasks.set k
      { task with attempt := task.attempt + 1, execution := s.executions.length } }

/-- A task has ended with a result. -/
def settle (s : Orchestrated S σ E Act Cmd Resp) (k : ℕ) (task : Task Act E) (e : E) :
    Orchestrated S σ E Act Cmd Resp :=
  { s with tasks := s.tasks.set k { task with result := some e } }

/-- The engine takes a result that is not to be retried, or of the last attempt. -/
def takes (task : Task Act E) (e : E) : Bool :=
  O.final e || decide (O.attempts task.act ≤ task.attempt)

/-- The transition system of a workflow over activities. -/
def system : Lts (Orchestrated S σ E Act Cmd Resp) (Occurrence ι χ E)
    (Label S σ χ E A Act Cmd) where
  step s
    | .free e =>
        if O.free e then
          (O.workflow.step s.workflow e).map fun r => (O.goOn s r, r.2.map .action)
        else none
    | .deliver k =>
        match s.tasks[k]? with
        | some ⟨_, _, _, some e⟩ =>
            (O.workflow.step s.workflow e).map fun r =>
              (O.goOn { s with tasks := s.tasks.eraseIdx k } r,
                r.2.map .action ++ [.resumed r.1])
        | _ => none
    | .turn i t =>
        match s.executions[i]? with
        | some th =>
            (M.turn s.world t th).map fun r =>
              ({ s with world := r.1, executions := s.executions.set i r.2.1 },
                [.performed i r.2.2])
        | none => none
    | .resolve k =>
        match s.tasks[k]? with
        | some ⟨act, n, i, none⟩ =>
            match s.executions[i]? with
            | some ⟨.pure e, _⟩ =>
                if O.takes ⟨act, n, i, none⟩ e then
                  some (settle s k ⟨act, n, i, none⟩ e, [.ended act e])
                else none
            | _ => none
        | _ => none
    | .retry k =>
        match s.tasks[k]? with
        | some ⟨act, n, i, none⟩ =>
            if n < O.attempts act then some (O.attemptAgain s k ⟨act, n, i, none⟩, []) else none
        | _ => none
    | .expire k =>
        match s.tasks[k]? with
        | some ⟨act, n, i, none⟩ =>
            some (settle s k ⟨act, n, i, none⟩ (O.timeout act), [.ended act (O.timeout act)])
        | _ => none
    | .restart =>
        -- the futures of the old run are gone, its executions may go on
        (O.restart s.workflow).map fun q => ({ s with workflow := q, tasks := [] }, [])
    | .other e =>
        ((M.pool jobs).step ⟨s.world, s.others⟩ e).map fun r =>
          ({ s with world := r.1.world, others := r.1.threads }, r.2.map .other)

/-- One step of a workflow over activities, by cases. -/
inductive Moves (s : Orchestrated S σ E Act Cmd Resp) :
    Occurrence ι χ E → Orchestrated S σ E Act Cmd Resp → List (Label S σ χ E A Act Cmd) → Prop
  | free (e : E) (r : S × List A) : O.free e = true → O.workflow.step s.workflow e = some r →
      Moves s (.free e) (O.goOn s r) (r.2.map .action)
  | deliver (k : ℕ) (task : Task Act E) (e : E) (r : S × List A) :
      s.tasks[k]? = some task → task.result = some e → O.workflow.step s.workflow e = some r →
      Moves s (.deliver k) (O.goOn { s with tasks := s.tasks.eraseIdx k } r)
        (r.2.map .action ++ [.resumed r.1])
  | turn (i : ℕ) (t : Turn χ) (c : Cmd) (k : Resp c → Prog Cmd Resp E) (b : Bool) :
      s.executions[i]? = some ⟨.call c k, b⟩ →
      Moves s (.turn i t)
        { s with
          world := (M.perform t.choice (b || t.cancel) s.world c).1
          executions := s.executions.set i
            ⟨k (M.perform t.choice (b || t.cancel) s.world c).2, b || t.cancel⟩ }
        [.performed i ⟨s.world, c, b || t.cancel, t.choice⟩]
  | resolve (k : ℕ) (task : Task Act E) (e : E) (b : Bool) :
      s.tasks[k]? = some task → task.result = none →
      s.executions[task.execution]? = some ⟨.pure e, b⟩ → O.takes task e = true →
      Moves s (.resolve k) (settle s k task e) [.ended task.act e]
  | retry (k : ℕ) (task : Task Act E) :
      s.tasks[k]? = some task → task.result = none → task.attempt < O.attempts task.act →
      Moves s (.retry k) (O.attemptAgain s k task) []
  | expire (k : ℕ) (task : Task Act E) : s.tasks[k]? = some task → task.result = none →
      Moves s (.expire k) (settle s k task (O.timeout task.act))
        [.ended task.act (O.timeout task.act)]
  | restart (q : S) : O.restart s.workflow = some q →
      Moves s .restart { s with workflow := q, tasks := [] } []
  | other (e : PoolEvent ι χ) (q : Pool σ Cmd Resp Unit) (as : List (Performed σ χ Cmd)) :
      (M.pool jobs).step ⟨s.world, s.others⟩ e = some (q, as) →
      Moves s (.other e) { s with world := q.world, others := q.threads } (as.map .other)

variable {O M jobs} {s s' : Orchestrated S σ E Act Cmd Resp} {e : Occurrence ι χ E}
  {as tr : List (Label S σ χ E A Act Cmd)}

/-- **Every step is a move.** -/
theorem system_moves (h : (O.system M jobs).step s e = some (s', as)) :
    Moves O M jobs s e s' as := by
  cases e with
  | free e =>
    simp only [system] at h
    by_cases hfree : O.free e = true
    · rw [if_pos hfree, Option.map_eq_some_iff] at h
      obtain ⟨r, hr, heq⟩ := h
      cases heq
      exact .free e r hfree hr
    · rw [if_neg hfree] at h
      cases h
  | deliver k =>
    simp only [system] at h
    split at h
    · rename_i act n i e hk
      rw [Option.map_eq_some_iff] at h
      obtain ⟨r, hr, heq⟩ := h
      cases heq
      exact .deliver k _ e r hk rfl hr
    · cases h
  -- only an execution that has a call to make takes a turn
  | turn i t =>
    cases hi : s.executions[i]? with
    | none => simp [system, hi] at h
    | some th =>
      obtain ⟨prog, b⟩ := th
      cases prog with
      | pure a => simp [system, hi, Machine.turn] at h
      | call c k =>
        simp only [system, hi, Machine.turn, Option.map_some, Option.some.injEq,
          Prod.mk.injEq] at h
        obtain ⟨rfl, rfl⟩ := h
        exact .turn i t c k b hi
  -- the execution of the attempt has returned
  | resolve k =>
    simp only [system] at h
    split at h
    · rename_i act n i hk
      split at h
      · rename_i e b hi
        by_cases htakes : O.takes ⟨act, n, i, none⟩ e = true
        · rw [if_pos htakes] at h
          cases h
          exact .resolve k _ e b hk rfl hi htakes
        · rw [if_neg htakes] at h
          cases h
      · cases h
    · cases h
  | retry k =>
    simp only [system] at h
    split at h
    · rename_i act n i hk
      by_cases hn : n < O.attempts act
      · rw [if_pos hn] at h
        cases h
        exact .retry k _ hk rfl hn
      · rw [if_neg hn] at h
        cases h
    · cases h
  | expire k =>
    simp only [system] at h
    split at h
    · rename_i act n i hk
      cases h
      exact .expire k _ hk rfl
    · cases h
  | restart =>
    simp only [system, Option.map_eq_some_iff] at h
    obtain ⟨q, hq, heq⟩ := h
    cases heq
    exact .restart q hq
  | other e =>
    simp only [system, Option.map_eq_some_iff] at h
    obtain ⟨⟨q, as⟩, hq, heq⟩ := h
    cases heq
    exact .other e q as hq

/-! ### What scheduling leaves alone -/

theorem schedule_all (s : Orchestrated S σ E Act Cmd Resp) (acts : List Act) :
    (acts.foldl O.schedule s).workflow = s.workflow ∧
      (acts.foldl O.schedule s).tasks.map Task.act = s.tasks.map Task.act ++ acts := by
  induction acts generalizing s with
  | nil => simp
  | cons act acts ih =>
    rw [List.foldl_cons]
    refine ⟨(ih _).1, ?_⟩
    rw [(ih _).2]
    simp [schedule]

@[simp] theorem goOn_workflow (s : Orchestrated S σ E Act Cmd Resp) (r : S × List A) :
    (O.goOn s r).workflow = r.1 :=
  (schedule_all _ _).1

/-- The new tasks join those already scheduled. -/
theorem goOn_tasks (s : Orchestrated S σ E Act Cmd Resp) (r : S × List A) :
    (O.goOn s r).tasks.map Task.act = s.tasks.map Task.act ++ O.schedules r.1 r.2 :=
  (schedule_all _ _).2

theorem schedule_all_world (s : Orchestrated S σ E Act Cmd Resp) (acts : List Act) :
    (acts.foldl O.schedule s).world = s.world := by
  induction acts generalizing s with
  | nil => rfl
  | cons act acts ih => exact ih _

@[simp] theorem goOn_world (s : Orchestrated S σ E Act Cmd Resp) (r : S × List A) :
    (O.goOn s r).world = s.world :=
  schedule_all_world _ _

/-- A task was there, or it is new and its execution has not started. -/
theorem mem_goOn_tasks {s : Orchestrated S σ E Act Cmd Resp} {r : S × List A} {task : Task Act E}
    (h : task ∈ (O.goOn s r).tasks) :
    task ∈ s.tasks ∨ (task.act ∈ O.schedules r.1 r.2 ∧ s.executions.length ≤ task.execution) := by
  have hall : ∀ (acts : List Act) (s₀ : Orchestrated S σ E Act Cmd Resp),
      task ∈ (acts.foldl O.schedule s₀).tasks →
      task ∈ s₀.tasks ∨ (task.act ∈ acts ∧ s₀.executions.length ≤ task.execution) := by
    intro acts
    induction acts with
    | nil => exact fun s₀ h => .inl h
    | cons act acts ih =>
      intro s₀ h
      rcases ih _ h with hold | ⟨hact, hlen⟩
      · rcases List.mem_append.mp hold with hold | hnew
        · exact .inl hold
        · rw [List.mem_singleton.mp hnew]
          exact .inr ⟨List.mem_cons_self, Nat.le_refl _⟩
      · refine .inr ⟨List.mem_cons_of_mem _ hact, ?_⟩
        simp only [schedule, List.length_append, List.length_singleton] at hlen
        omega
  exact hall _ { s with workflow := r.1 } h

/-- A task that changes, but not in what it is a task of, leaves the activities. -/
theorem map_act_set {tasks : List (Task Act E)} {k : ℕ} {task task' : Task Act E}
    (hk : tasks[k]? = some task) (hact : task'.act = task.act) :
    (tasks.set k task').map Task.act = tasks.map Task.act := by
  rw [List.map_set, hact]
  refine List.ext_getElem? fun i => ?_
  rw [List.getElem?_set]
  by_cases hi : k = i
  · subst hi
    obtain ⟨hlt, -⟩ := List.getElem?_eq_some_iff.mp hk
    rw [if_pos rfl, List.length_map, if_pos hlt, List.getElem?_map, hk]
    rfl
  · rw [if_neg hi]

@[simp] theorem settle_tasks {s : Orchestrated S σ E Act Cmd Resp} {k : ℕ} {task : Task Act E}
    (hk : s.tasks[k]? = some task) (r : E) :
    (settle s k task r).tasks.map Task.act = s.tasks.map Task.act :=
  map_act_set hk rfl

@[simp] theorem attemptAgain_tasks {s : Orchestrated S σ E Act Cmd Resp} {k : ℕ}
    {task : Task Act E} (hk : s.tasks[k]? = some task) :
    (O.attemptAgain s k task).tasks.map Task.act = s.tasks.map Task.act :=
  map_act_set hk rfl

end Orchestration

/-! ### Where an execution has got to -/

/-- The command a label records, if it is one of a given execution. -/
def Label.byExecution {S σ χ E A Act Cmd : Type} (i : ℕ) :
    Label S σ χ E A Act Cmd → Option (Performed σ χ Cmd)
  | .performed j l => if j = i then some l else none
  | _ => none

namespace Orchestration

variable {S σ χ E A Act ι Cmd : Type} {Resp : Cmd → Type}
variable (O : Orchestration S E A Act Cmd Resp) (M : Machine σ χ Cmd Resp)
variable {jobs : ι → Prog Cmd Resp Unit}

/-- The commands an execution has performed. -/
def performedBy (i : ℕ) (tr : List (Label S σ χ E A Act Cmd)) : List (Performed σ χ Cmd) :=
  tr.filterMap (Label.byExecution i)

/-- The execution of a task is where its commands in the trace have led it, and if the
task has ended otherwise than by a timeout, the execution has returned its result. -/
def TaskTraced (executions : List (Thread Cmd Resp E)) (tr : List (Label S σ χ E A Act Cmd))
    (task : Task Act E) : Prop :=
  ∃ th, executions[task.execution]? = some th ∧
    Log M (O.prog task.act) (performedBy task.execution tr) th.prog ∧
    ∀ e, task.result = some e → e = O.timeout task.act ∨ th.prog = .pure e

/-- Every task is traced, and only executions that have started perform commands. -/
structure Traced (s : Orchestrated S σ E Act Cmd Resp)
    (tr : List (Label S σ χ E A Act Cmd)) : Prop where
  started : ∀ i l, .performed i l ∈ tr → i < s.executions.length
  task : ∀ task ∈ s.tasks, TaskTraced O M s.executions tr task

variable {O M} {s s' : Orchestrated S σ E Act Cmd Resp} {e : Occurrence ι χ E}
  {executions : List (Thread Cmd Resp E)} {tr as : List (Label S σ χ E A Act Cmd)}
  {task : Task Act E}

theorem performedBy_append (i : ℕ) (tr as : List (Label S σ χ E A Act Cmd)) :
    performedBy i (tr ++ as) = performedBy i tr ++ performedBy i as :=
  List.filterMap_append

/-- An execution without a command in the trace has performed nothing. -/
theorem performedBy_eq_nil {i : ℕ} (h : ∀ l, .performed i l ∉ as) : performedBy i as = [] := by
  refine List.filterMap_eq_nil_iff.mpr fun a ha => ?_
  cases a with
  | performed j l =>
    by_cases hj : j = i
    · subst hj
      exact absurd ha (h l)
    · exact if_neg hj
  | _ => rfl

/-- Labels that are no commands of an execution leave what it has performed alone. -/
theorem performedBy_quiet {i : ℕ} (h : ∀ l, .performed i l ∉ as) :
    performedBy i (tr ++ as) = performedBy i tr := by
  rw [performedBy_append, performedBy_eq_nil h, List.append_nil]

/-- An execution that has not started has performed nothing. -/
theorem Traced.performedBy_eq_nil (h : Traced O M s tr) {i : ℕ} (hi : s.executions.length ≤ i) :
    performedBy i tr = [] :=
  Orchestration.performedBy_eq_nil fun l hl => absurd (h.started i l hl) (by omega)

/-- Labels that are no commands of executions leave a task traced. -/
theorem TaskTraced.quiet (h : TaskTraced O M executions tr task)
    (hq : ∀ l, .performed task.execution l ∉ as) : TaskTraced O M executions (tr ++ as) task := by
  obtain ⟨th, hth, hlog, hres⟩ := h
  refine ⟨th, hth, ?_, hres⟩
  rw [performedBy_quiet hq]
  exact hlog

/-- Another execution that starts leaves a task traced. -/
theorem TaskTraced.append (h : TaskTraced O M executions tr task) (th : Thread Cmd Resp E) :
    TaskTraced O M (executions ++ [th]) tr task := by
  obtain ⟨th', hth, hrest⟩ := h
  refine ⟨th', ?_, hrest⟩
  obtain ⟨hlt, -⟩ := List.getElem?_eq_some_iff.mp hth
  rw [List.getElem?_append_left hlt]
  exact hth

/-- The first command of a new execution is still to come. -/
theorem taskTraced_new (hs : ∀ i l, .performed i l ∈ tr → i < executions.length)
    (act : Act) (n : ℕ) : TaskTraced O M (executions ++ [⟨O.prog act, false⟩]) tr
      ⟨act, n, executions.length, none⟩ := by
  refine ⟨⟨O.prog act, false⟩, List.getElem?_concat_length, ?_, fun e he => by cases he⟩
  have hnone : performedBy executions.length tr = [] :=
    performedBy_eq_nil fun l hl => absurd (hs _ l hl) (Nat.lt_irrefl _)
  show Log M (O.prog act) (performedBy executions.length tr) (O.prog act)
  rw [hnone]
  exact .nil

/-- A command of an execution moves its task on, and no other. -/
theorem TaskTraced.turn (h : TaskTraced O M executions tr task) {i : ℕ} {c : Cmd}
    {k : Resp c → Prog Cmd Resp E} {b : Bool} (hi : executions[i]? = some ⟨.call c k, b⟩)
    (w : σ) (b' : Bool) (x : χ) :
    TaskTraced O M (executions.set i ⟨k (M.perform x b' w c).2, b'⟩)
      (tr ++ [.performed i ⟨w, c, b', x⟩]) task := by
  obtain ⟨th, hth, hlog, hres⟩ := h
  obtain ⟨hlt, -⟩ := List.getElem?_eq_some_iff.mp hi
  by_cases hex : i = task.execution
  · subst hex
    rw [hi] at hth
    cases hth
    refine ⟨_, by rw [List.getElem?_set_self hlt], ?_, fun e he => ?_⟩
    · have hlast : performedBy task.execution
          [(.performed task.execution ⟨w, c, b', x⟩ : Label S σ χ E A Act Cmd)] =
            [⟨w, c, b', x⟩] := by
        simp [performedBy, Label.byExecution]
      rw [performedBy_append, hlast]
      exact .snoc w b' x hlog
    · rcases hres e he with htime | hpure
      · exact Or.inl htime
      · cases hpure
  · refine TaskTraced.quiet ⟨th, ?_, hlog, hres⟩ ?_
    · rw [List.getElem?_set_ne hex]
      exact hth
    · intro l hl
      cases List.mem_singleton.mp hl
      exact hex rfl

theorem Traced.schedule (h : Traced O M s tr) (act : Act) : Traced O M (O.schedule s act) tr where
  started i l hl := by
    have hlt := h.started i l hl
    simp only [Orchestration.schedule, List.length_append, List.length_singleton]
    omega
  task task htask := by
    rcases List.mem_append.mp htask with hold | hnew
    · exact (h.task task hold).append _
    · rw [List.mem_singleton.mp hnew]
      exact taskTraced_new h.started act 1

theorem Traced.goOn (h : Traced O M s tr) (r : S × List A) : Traced O M (O.goOn s r) tr := by
  have hall : ∀ (acts : List Act) (s : Orchestrated S σ E Act Cmd Resp), Traced O M s tr →
      Traced O M (acts.foldl O.schedule s) tr := by
    intro acts
    induction acts with
    | nil => exact fun s h => h
    | cons act acts ih => exact fun s h => ih _ (h.schedule act)
  exact hall _ _ ⟨h.started, h.task⟩

/-- Labels that are no commands of executions leave the tasks traced. -/
theorem Traced.quiet (h : Traced O M s tr) (hq : ∀ i l, .performed i l ∉ as) :
    Traced O M s (tr ++ as) where
  started i l hl := by
    rcases List.mem_append.mp hl with hold | hnew
    · exact h.started i l hold
    · exact absurd hnew (hq i l)
  task task htask := (h.task task htask).quiet fun l => hq _ l

/-- A task that ends by a timeout, or with what its execution has returned, is traced. -/
theorem Traced.settle (h : Traced O M s tr) {k : ℕ} (hk : s.tasks[k]? = some task) {r : E}
    (hr : r = O.timeout task.act ∨ ∃ b, s.executions[task.execution]? = some ⟨.pure r, b⟩) :
    Traced O M (Orchestration.settle s k task r) tr where
  started := h.started
  task task' htask' := by
    rcases List.mem_or_eq_of_mem_set htask' with hold | rfl
    · exact h.task task' hold
    · obtain ⟨th, hth, hlog, -⟩ := h.task task (List.mem_of_getElem? hk)
      refine ⟨th, hth, hlog, fun e he => ?_⟩
      cases he
      rcases hr with htime | ⟨b, hb⟩
      · exact Or.inl htime
      · rw [hb] at hth
        cases hth
        exact Or.inr rfl

/-- **Every move keeps the tasks traced.** -/
theorem Traced.move (h : Traced O M s tr) (hm : Moves O M jobs s e s' as) :
    Traced O M s' (tr ++ as) := by
  cases hm with
  | free e r hfree hr =>
    refine (h.goOn r).quiet fun i l hl => ?_
    simp at hl
  | deliver k task e r hk hres hr =>
    have herase : Traced O M { s with tasks := s.tasks.eraseIdx k } tr :=
      ⟨h.started, fun task htask => h.task task (List.mem_of_mem_eraseIdx htask)⟩
    refine (herase.goOn r).quiet fun i l hl => ?_
    simp at hl
  | turn i t c k b hi =>
    refine ⟨fun j l hl => ?_, fun task htask => (h.task task htask).turn hi _ _ _⟩
    rw [List.length_set]
    rcases List.mem_append.mp hl with hold | hnew
    · exact h.started j l hold
    · cases List.mem_singleton.mp hnew
      exact (List.getElem?_eq_some_iff.mp hi).1
  | resolve k task e b hk hres hi htakes =>
    refine (h.settle hk (Or.inr ⟨b, hi⟩)).quiet fun i l hl => ?_
    simp at hl
  -- the new attempt is a new execution, which has performed nothing
  | retry k task hk hres hn =>
    rw [List.append_nil]
    refine ⟨fun i l hl => ?_, fun task' htask' => ?_⟩
    · have hlt := h.started i l hl
      simp only [attemptAgain, List.length_append, List.length_singleton]
      omega
    · rcases List.mem_or_eq_of_mem_set htask' with hold | rfl
      · exact (h.task task' hold).append _
      · rw [hres]
        exact taskTraced_new h.started task.act (task.attempt + 1)
  | expire k task hk hres =>
    refine (h.settle hk (Or.inl rfl)).quiet fun i l hl => ?_
    simp at hl
  | restart q hq =>
    rw [List.append_nil]
    exact ⟨h.started, fun task htask => by cases htask⟩
  | other e q as hq =>
    refine Traced.quiet ⟨h.started, h.task⟩ fun i l hl => ?_
    simp at hl

theorem traced_start (q : S) (w : σ) : Traced O M (start q w) [] :=
  ⟨fun i l hl => (by cases hl), fun task htask => (by cases htask)⟩

end Orchestration

end Hivebook
