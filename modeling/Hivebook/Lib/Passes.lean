import Mathlib.Algebra.BigOperators.Group.Finset.Piecewise
import Mathlib.Algebra.GroupWithZero.Nat
import Hivebook.Lib.Orchestration

/-!
# A durable workflow that works in passes

A workflow that goes on for ever works in passes, each begun by a label of its own.  A pass that
begins with no task left is told only what its own activities did: every result is a timeout, or
was returned by an execution that performed all its commands since the pass began.

## Main definitions

* `lastPass` — the labels since the last pass began.
* `Orchestration.TracedSince` — the tasks are of the last pass.
* `Orchestration.Answered` — an execution returned a result, all within some labels.

## Main results

* `Orchestration.TracedSince.move` — every move keeps the tasks of the pass to the pass.
* `Orchestration.TracedSince.answered` — **a result is a timeout, or was returned by an execution
  whose commands are all of the pass.**
* `Orchestration.sum_performedBy_le` — what different executions performed adds up to no more than
  what the labels record.
-/

namespace Hivebook

/-! ### The last pass -/

section Pass

variable {α : Type} {begins : α → Bool} {tr as : List α} {b : α}

/-- The labels since the last one that begins a pass. -/
def lastPass (begins : α → Bool) (tr : List α) : List α :=
  (tr.reverse.takeWhile fun a => !begins a).reverse

@[simp] theorem lastPass_nil : lastPass begins [] = [] := rfl

/-- Labels that begin no pass belong to the last one. -/
theorem lastPass_append (h : ∀ a ∈ as, begins a = false) :
    lastPass begins (tr ++ as) = lastPass begins tr ++ as := by
  have hall : ∀ a ∈ as.reverse, (!begins a) = true := by
    intro a ha
    rw [h a (List.mem_reverse.mp ha)]
    rfl
  unfold lastPass
  rw [List.reverse_append, List.takeWhile_append_of_pos hall, List.reverse_append,
    List.reverse_reverse]

/-- A label that begins a pass leaves the labels behind it. -/
theorem lastPass_begin (hb : begins b = true) (h : ∀ a ∈ as, begins a = false) :
    lastPass begins (tr ++ b :: as) = as := by
  have hsplit : tr ++ b :: as = (tr ++ [b]) ++ as := by simp
  have hnone : lastPass begins (tr ++ [b]) = [] := by
    simp [lastPass, hb]
  rw [hsplit, lastPass_append h, hnone, List.nil_append]

end Pass

/-! ### The tasks of a pass -/

namespace Orchestration

variable {S σ χ E A Act ι Cmd : Type} {Resp : Cmd → Type}
variable (O : Orchestration S E A Act Cmd Resp) (M : Machine σ χ Cmd Resp)
variable {jobs : ι → Prog Cmd Resp Unit}

/-- An execution of an activity returned a result, and all it performed is among the labels. -/
def Answered (p : List (Label S σ χ E A Act Cmd)) (i : ℕ) (act : Act) (e : E) : Prop :=
  ∃ ls, ls <+: performedBy i p ∧ Log M (O.prog act) ls (.pure e)

/-- The tasks are traced, and nothing they have performed is older than the last pass.  The
results they have ended with are recorded in it. -/
structure TracedSince (s : Orchestrated S σ E Act Cmd Resp)
    (old since : List (Label S σ χ E A Act Cmd)) : Prop where
  traced : Traced O M s (old ++ since)
  fresh : ∀ task ∈ s.tasks, ∀ l, .performed task.execution l ∉ old
  ended : ∀ task ∈ s.tasks, ∀ e, task.result = some e → .ended task.act e ∈ since

variable {O M} {s s' : Orchestrated S σ E Act Cmd Resp} {e : Occurrence ι χ E}
  {old since as p : List (Label S σ χ E A Act Cmd)} {task : Task Act E} {i : ℕ} {act : Act} {r : E}

/-- A result stays returned. -/
theorem Answered.append (h : Answered O M p i act r) (as : List (Label S σ χ E A Act Cmd)) :
    Answered O M (p ++ as) i act r := by
  obtain ⟨ls, hls, hlog⟩ := h
  refine ⟨ls, ?_, hlog⟩
  rw [performedBy_append]
  exact hls.trans (List.prefix_append _ _)

/-- **What a task of the pass ended with** is a timeout, or was returned within the pass. -/
theorem TracedSince.answered (h : TracedSince O M s old since) (htask : task ∈ s.tasks)
    (hr : task.result = some r) :
    r = O.timeout task.act ∨ Answered O M since task.execution task.act r := by
  obtain ⟨th, -, hlog, hres⟩ := h.traced.task task htask
  rcases hres r hr with htime | hpure
  · exact .inl htime
  · rw [hpure, performedBy_append, performedBy_eq_nil (h.fresh task htask),
      List.nil_append] at hlog
    exact .inr ⟨_, List.prefix_refl _, hlog⟩

/-- A pass that begins with no task left has none of an older one. -/
theorem tracedSince_nil (h : Traced O M s old) (hnone : s.tasks = []) :
    TracedSince O M s old [] where
  traced := by rwa [List.append_nil]
  fresh task htask := by rw [hnone] at htask; cases htask
  ended task htask := by rw [hnone] at htask; cases htask

/-- The labels of an older pass may be moved over when they are no commands. -/
theorem TracedSince.shift (h : TracedSince O M s old (as ++ since))
    (hq : ∀ i l, .performed i l ∉ as) (hnone : ∀ act e, .ended act e ∉ as) :
    TracedSince O M s (old ++ as) since where
  traced := by
    rw [List.append_assoc]
    exact h.traced
  fresh task htask l hl := by
    rcases List.mem_append.mp hl with hold | hnew
    · exact h.fresh task htask l hold
    · exact hq _ l hnew
  ended task htask e he := by
    rcases List.mem_append.mp (h.ended task htask e he) with hold | hnew
    · exact absurd hold (hnone _ _)
    · exact hnew

/-- A new task has no result yet. -/
theorem result_of_mem_goOn {r : S × List A} (h : task ∈ (O.goOn s r).tasks)
    (hold : task ∉ s.tasks) : task.result = none := by
  have hall : ∀ (acts : List Act) (s₀ : Orchestrated S σ E Act Cmd Resp),
      task ∈ (acts.foldl O.schedule s₀).tasks → task ∈ s₀.tasks ∨ task.result = none := by
    intro acts
    induction acts with
    | nil => exact fun s₀ h => .inl h
    | cons act acts ih =>
      intro s₀ h
      rcases ih _ h with hmem | hnone
      · rcases List.mem_append.mp hmem with hmem | hnew
        · exact .inl hmem
        · rw [List.mem_singleton.mp hnew]
          exact .inr rfl
      · exact .inr hnone
  exact (hall _ _ h).resolve_left hold

/-- A workflow that goes on starts executions, and ends none. -/
theorem length_executions_goOn (s : Orchestrated S σ E Act Cmd Resp) (r : S × List A) :
    s.executions.length ≤ (O.goOn s r).executions.length := by
  have hall : ∀ (acts : List Act) (s₀ : Orchestrated S σ E Act Cmd Resp),
      s₀.executions.length ≤ (acts.foldl O.schedule s₀).executions.length := by
    intro acts
    induction acts with
    | nil => exact fun s₀ => Nat.le_refl _
    | cons act acts ih =>
      intro s₀
      refine Nat.le_trans ?_ (ih _)
      simp [schedule]
  exact hall _ { s with workflow := r.1 }

/-- What starts after the pass began has performed nothing before it. -/
theorem TracedSince.not_performed (h : TracedSince O M s old since) (hi : s.executions.length ≤ i)
    (l : Performed σ χ Cmd) : .performed i l ∉ old := by
  intro hl
  have hlt := h.traced.started i l (List.mem_append_left _ hl)
  omega

/-- **Every move keeps the tasks of the pass to the pass.** -/
theorem TracedSince.move (h : TracedSince O M s old since) (hm : Moves O M jobs s e s' as) :
    TracedSince O M s' old (since ++ as) := by
  have htraced : Traced O M s' (old ++ (since ++ as)) := by
    rw [← List.append_assoc]
    exact h.traced.move hm
  -- a workflow that goes on schedules tasks that have performed nothing
  have hgoOn : ∀ (s₀ : Orchestrated S σ E Act Cmd Resp) (q : S × List A),
      (∀ task ∈ s₀.tasks, task ∈ s.tasks) → s₀.executions = s.executions →
      (∀ task ∈ (O.goOn s₀ q).tasks, ∀ l, .performed task.execution l ∉ old) ∧
        ∀ task ∈ (O.goOn s₀ q).tasks, ∀ r, task.result = some r → .ended task.act r ∈ since := by
    intro s₀ q hsub hex
    refine ⟨fun task htask l => ?_, fun task htask r hr => ?_⟩
    · rcases mem_goOn_tasks htask with hmem | ⟨-, hlen⟩
      · exact h.fresh task (hsub task hmem) l
      · exact h.not_performed (hex ▸ hlen) l
    · by_cases hmem : task ∈ s₀.tasks
      · exact h.ended task (hsub task hmem) r hr
      · rw [result_of_mem_goOn htask hmem] at hr
        cases hr
  -- a task that ends is recorded
  have hsettle : ∀ (k : ℕ) (task : Task Act E) (r : E), s.tasks[k]? = some task →
      (∀ task' ∈ (settle s k task r).tasks, ∀ l, .performed task'.execution l ∉ old) ∧
        ∀ task' ∈ (settle s k task r).tasks, ∀ r', task'.result = some r' →
          .ended task'.act r' ∈ since ++ [.ended task.act r] := by
    intro k task r hk
    refine ⟨fun task' htask' l => ?_, fun task' htask' r' hr' => ?_⟩
    · rcases List.mem_or_eq_of_mem_set htask' with hmem | rfl
      · exact h.fresh task' hmem l
      · exact h.fresh task (List.mem_of_getElem? hk) l
    · rcases List.mem_or_eq_of_mem_set htask' with hmem | rfl
      · exact List.mem_append_left _ (h.ended task' hmem r' hr')
      · cases hr'
        exact List.mem_append_right _ (List.mem_singleton_self _)
  have hended : ∀ task ∈ s.tasks, ∀ r, task.result = some r → .ended task.act r ∈ since ++ as :=
    fun task htask r hr => List.mem_append_left _ (h.ended task htask r hr)
  cases hm with
  | free ev q hfree hq =>
    obtain ⟨hfresh, hend⟩ := hgoOn s q (fun _ ht => ht) rfl
    exact ⟨htraced, hfresh, fun task ht r hr => List.mem_append_left _ (hend task ht r hr)⟩
  | deliver k task ev q hk hres hq =>
    obtain ⟨hfresh, hend⟩ := hgoOn { s with tasks := s.tasks.eraseIdx k } q
      (fun _ ht => List.mem_of_mem_eraseIdx ht) rfl
    exact ⟨htraced, hfresh, fun task ht r hr => List.mem_append_left _ (hend task ht r hr)⟩
  | turn i t c k b hi => exact ⟨htraced, h.fresh, hended⟩
  | resolve k task ev b hk hres hi htakes =>
    obtain ⟨hfresh, hend⟩ := hsettle k task ev hk
    exact ⟨htraced, hfresh, hend⟩
  | retry k task hk hres hn =>
    refine ⟨htraced, fun task' htask' l => ?_, fun task' htask' r hr => ?_⟩
    · rcases List.mem_or_eq_of_mem_set htask' with hmem | rfl
      · exact h.fresh task' hmem l
      · exact h.not_performed (Nat.le_refl _) l
    · rcases List.mem_or_eq_of_mem_set htask' with hmem | rfl
      · exact hended task' hmem r hr
      · rw [show task.result = some r from hr] at hres
        cases hres
  | expire k task hk hres =>
    obtain ⟨hfresh, hend⟩ := hsettle k task (O.timeout task.act) hk
    exact ⟨htraced, hfresh, hend⟩
  | restart q hq =>
    exact ⟨htraced, fun task ht => (by cases ht), fun task ht => (by cases ht)⟩
  | other ev q as hq => exact ⟨htraced, h.fresh, hended⟩

/-! ### What the executions performed together -/

/-- What a label weighs, when it records a command of an execution. -/
def weigh (f : Performed σ χ Cmd → ℕ) : Label S σ χ E A Act Cmd → ℕ
  | .performed _ l => f l
  | _ => 0

/-- **Different executions together weigh no more than the labels.** -/
theorem sum_performedBy_le {is : List ℕ} (his : is.Nodup) (f : Performed σ χ Cmd → ℕ)
    (p : List (Label S σ χ E A Act Cmd)) :
    (is.map fun i => ((performedBy i p).map f).sum).sum ≤ (p.map (weigh f)).sum := by
  rw [← List.sum_toFinset _ his]
  induction p with
  | nil => simp [performedBy]
  | cons x p ih =>
    have hsplit : ∀ i, ((performedBy i (x :: p)).map f).sum =
        ((performedBy i [x]).map f).sum + ((performedBy i p).map f).sum := by
      intro i
      rw [← List.sum_append, ← List.map_append, ← performedBy_append, List.singleton_append]
    -- a label is a command of one execution at most
    have hone : ∑ i ∈ is.toFinset, ((performedBy i [x]).map f).sum ≤ weigh f x := by
      cases x with
      | performed j l =>
        have hweight : ∀ i, ((performedBy i [(.performed j l : Label S σ χ E A Act Cmd)]).map
            f).sum = if j = i then f l else 0 := by
          intro i
          by_cases hij : j = i <;> simp [performedBy, Label.byExecution, hij]
        simp only [hweight, Finset.sum_ite_eq]
        split
        · exact Nat.le_refl _
        · exact Nat.zero_le _
      | _ => exact Nat.le_trans (Nat.le_of_eq (Finset.sum_eq_zero fun i _ => rfl)) (Nat.zero_le _)
    simp only [hsplit, Finset.sum_add_distrib, List.map_cons, List.sum_cons]
    exact Nat.add_le_add hone ih

end Orchestration

end Hivebook
