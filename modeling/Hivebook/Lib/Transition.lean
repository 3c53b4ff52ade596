import Mathlib.Data.List.Basic
import Mathlib.Data.List.Induction
import Mathlib.Tactic.Common

/-!
# Labelled transition systems and properties of their traces

A system is a partial step function: in a state it may refuse an event, or
accept it, move to a new state and emit a list of labels.  A run consumes a list
of events and leaves a trace, the labels it emitted in order.

Two kinds of property of a trace are used throughout.  A *response* property says
that after every opening label a closing one comes before the next deadline; a
*precedence* property is the special case of an invariant that reads the trace.
Both are established by the one induction rule of this file, the invariant rule
for a state together with the trace that led to it.

## Main definitions

* `Lts` — a transition system; `Lts.exec` computes a run.
* `Lts.RunWhere C s₀ es s tr` — the events `es` lead from `s₀` to `s` with trace
  `tr`, and every step meets the condition `C` on the state before it.
* `Lts.Run` — the same with no condition; `Lts.relabel` — the same steps with other labels.
* `AtEvery P tr` — every label satisfies `P` against the labels before it.
* `Responds opens closes deadline tr` — the response property.
* `Pending opens closes deadline tr` — an opening label is still unanswered.
* `Guarded opens closes deadline tr P` — the response property, with a fact that
  holds while a label is pending.
* `stillPending opens closes tr` — the same as `Pending`, computed, when there are no deadlines.

## Main results

* `Lts.RunWhere.invariant` — **the invariant rule.**
* `Lts.Run.iff_meets` — a property of the trace that a condition on the steps decides.
* `Lts.exists_run` — a computed run is a run.
* `pending_append`, `responds_append_deadline`, `responds_append_quiet` — how a
  response property grows along a trace.
-/

namespace Hivebook

/-- A labelled transition system: a partial step function that emits labels. -/
structure Lts (σ ε α : Type*) where
  /-- The step on an event; `none` when the event is not enabled. -/
  step : σ → ε → Option (σ × List α)

namespace Lts

variable {σ ε α : Type*} (M : Lts σ ε α)

/-- Running a list of events after a trace, testing before each step whether the
condition holds; `none` when it does not or the event is not enabled. -/
def exec (C : σ → List α → ε → Bool) : σ → List α → List ε → Option (σ × List α)
  | s, tr, [] => some (s, tr)
  | s, tr, e :: es =>
      if C s tr e then (M.step s e).bind fun r => exec C r.1 (tr ++ r.2) es else none

/-- The events lead from `s₀` to the state, with the trace, and before every step
the condition `C` held of the state, the trace so far and the event. -/
inductive RunWhere (C : σ → List α → ε → Prop) (s₀ : σ) : List ε → σ → List α → Prop
  | refl : RunWhere C s₀ [] s₀ []
  | snoc {es : List ε} {s s' : σ} {tr as : List α} {e : ε} :
      RunWhere C s₀ es s tr → C s tr e → M.step s e = some (s', as) →
        RunWhere C s₀ (es ++ [e]) s' (tr ++ as)

/-- A run with no condition on its steps. -/
abbrev Run (s₀ : σ) (es : List ε) (s : σ) (tr : List α) : Prop :=
  M.RunWhere (fun _ _ _ => True) s₀ es s tr

variable {M} {C : σ → List α → ε → Prop} {s₀ s : σ} {es : List ε} {tr : List α}

/-- **The invariant rule**: what holds initially and is kept by every step that
meets the condition holds at the end of every run. -/
theorem RunWhere.invariant {J : σ → List α → Prop} (h : M.RunWhere C s₀ es s tr)
    (init : J s₀ [])
    (step : ∀ s tr e s' as, J s tr → C s tr e → M.step s e = some (s', as) →
      J s' (tr ++ as)) : J s tr := by
  induction h with
  | refl => exact init
  | snoc _ hC hs ih => exact step _ _ _ _ _ ih hC hs

/-- Dropping the condition of a run. -/
theorem RunWhere.run (h : M.RunWhere C s₀ es s tr) : M.Run s₀ es s tr := by
  induction h with
  | refl => exact .refl
  | snoc _ _ hs ih => exact .snoc ih trivial hs

/-- A step before a run. -/
theorem Run.cons {e : ε} {s₁ : σ} {as : List α} (hs : M.step s₀ e = some (s₁, as))
    (h : M.Run s₁ es s tr) : M.Run s₀ (e :: es) s (as ++ tr) := by
  induction h with
  | refl => simpa using RunWhere.snoc (M := M) .refl trivial hs
  | snoc _ hC hs' ih =>
    have hrun := RunWhere.snoc ih hC hs'
    rwa [List.cons_append, List.append_assoc] at hrun

/-- Weakening the condition of a run. -/
theorem RunWhere.mono {C' : σ → List α → ε → Prop} (h : M.RunWhere C s₀ es s tr)
    (hC : ∀ s tr e, C s tr e → C' s tr e) : M.RunWhere C' s₀ es s tr := by
  induction h with
  | refl => exact .refl
  | snoc _ hc hs ih => exact .snoc ih (hC _ _ _ hc) hs

/-- A run whose events all meet a second condition, whatever the state, meets both. -/
theorem RunWhere.and_events {C' : σ → List α → ε → Prop} (h : M.RunWhere C s₀ es s tr)
    (hC : ∀ e ∈ es, ∀ s tr, C' s tr e) :
    M.RunWhere (fun s tr e => C' s tr e ∧ C s tr e) s₀ es s tr := by
  induction h with
  | refl => exact .refl
  | snoc _ hc hs ih =>
    refine .snoc (ih fun e he => hC e (List.mem_append_left _ he)) ⟨?_, hc⟩ hs
    exact hC _ (List.mem_append_right _ (List.mem_singleton_self _)) _ _

/-- A run whose events all meet a condition, whatever the state, meets it. -/
theorem RunWhere.of_events {C' : σ → List α → ε → Prop} (h : M.RunWhere C s₀ es s tr)
    (hC : ∀ e ∈ es, ∀ s tr, C' s tr e) : M.RunWhere C' s₀ es s tr :=
  (h.and_events hC).mono fun _ _ _ hc => hc.1

/-- **The rule for a property of the trace that a condition on the steps decides**: if a step keeps
the property exactly when it meets the condition, then the property holds of a run exactly when
every step of the run meets the condition. -/
theorem Run.iff_meets {J : σ → List α → Prop} {P : List α → Prop} {D : ε → Prop}
    (h : M.Run s₀ es s tr) (hD : ∀ e ∈ es, D e) (init : J s₀ []) (initP : P [])
    (step : ∀ s tr e s' as, J s tr → D e → M.step s e = some (s', as) →
      J s' (tr ++ as) ∧ (P (tr ++ as) ↔ P tr ∧ C s tr e)) :
    P tr ↔ M.RunWhere C s₀ es s tr := by
  constructor
  · have hboth : J s tr ∧ (P tr → M.RunWhere C s₀ es s tr) := by
      induction h with
      | refl => exact ⟨init, fun _ => .refl⟩
      | snoc _ _ hs ih =>
        obtain ⟨hJ, hrun⟩ := ih fun e he => hD e (List.mem_append_left _ he)
        have hlast := hD _ (List.mem_append_right _ (List.mem_singleton_self _))
        obtain ⟨hJ', hiff⟩ := step _ _ _ _ _ hJ hlast hs
        refine ⟨hJ', fun hP => ?_⟩
        obtain ⟨hP, hC⟩ := hiff.mp hP
        exact .snoc (hrun hP) hC hs
    exact hboth.2
  · intro hrun
    have hboth : J s tr ∧ P tr := by
      have hevents : M.RunWhere (fun s tr e => D e ∧ C s tr e) s₀ es s tr :=
        hrun.and_events fun e he _ _ => hD e he
      refine hevents.invariant (J := fun s tr => J s tr ∧ P tr) ⟨init, initP⟩ ?_
      rintro s tr e s' as ⟨hJ, hP⟩ ⟨hlast, hC⟩ hs
      obtain ⟨hJ', hiff⟩ := step _ _ _ _ _ hJ hlast hs
      exact ⟨hJ', hiff.mpr ⟨hP, hC⟩⟩
    exact hboth.2

/-- The same system with other labels, computed from a step and from what it emits. -/
def relabel {β : Type*} (M : Lts σ ε α) (f : σ → ε → σ → List α → List β) : Lts σ ε β where
  step s e := (M.step s e).map fun r => (r.1, f s e r.1 r.2)

/-- A step of the relabelled system is one of the system. -/
theorem relabel_step {β : Type*} {f : σ → ε → σ → List α → List β} {s' : σ} {e : ε} {bs : List β}
    (h : (M.relabel f).step s e = some (s', bs)) :
    ∃ as, M.step s e = some (s', as) ∧ bs = f s e s' as := by
  obtain ⟨⟨s₁, as⟩, hstep, heq⟩ := Option.map_eq_some_iff.mp h
  cases heq
  exact ⟨as, hstep, rfl⟩

/-- A computed run extends a run. -/
theorem RunWhere.exec {C : σ → List α → ε → Bool} {es' : List ε} {s' : σ} {tr' : List α}
    (h : M.RunWhere (fun s tr e => C s tr e = true) s₀ es s tr)
    (h' : M.exec C s tr es' = some (s', tr')) :
    M.RunWhere (fun s tr e => C s tr e = true) s₀ (es ++ es') s' tr' := by
  induction es' generalizing es s tr with
  | nil =>
    simp only [Lts.exec, Option.some.injEq, Prod.mk.injEq] at h'
    obtain ⟨rfl, rfl⟩ := h'
    simpa using h
  | cons e es' ih =>
    rw [Lts.exec] at h'
    by_cases hC : C s tr e = true
    · rw [if_pos hC, Option.bind_eq_some_iff] at h'
      obtain ⟨⟨s₁, as⟩, hs, hx⟩ := h'
      simpa using ih (.snoc h hC hs) hx
    · rw [if_neg hC] at h'
      cases h'

/-- A computed trace is the trace of a run that meets the condition. -/
theorem exists_runWhere {C : σ → List α → ε → Bool}
    (h : (M.exec C s₀ [] es).map Prod.snd = some tr) :
    ∃ s, M.RunWhere (fun s tr e => C s tr e = true) s₀ es s tr := by
  obtain ⟨⟨s, tr'⟩, hx, rfl⟩ := Option.map_eq_some_iff.mp h
  exact ⟨s, RunWhere.exec .refl hx⟩

variable (M) in
/-- A computed run that ends as `P` says is a run that ends so. -/
theorem exists_runWhere_of_any (C : σ → List α → ε → Bool) (s₀ : σ) (es : List ε)
    (P : σ → List α → Bool) (h : (M.exec C s₀ [] es).any (fun r => P r.1 r.2) = true) :
    ∃ s tr, M.RunWhere (fun s tr e => C s tr e = true) s₀ es s tr ∧ P s tr = true := by
  obtain ⟨⟨s, tr⟩, hx, hP⟩ := (Option.any_eq_true _ _).mp h
  exact ⟨s, tr, RunWhere.exec .refl hx, hP⟩

variable (M) in
/-- The same with no condition on the steps. -/
theorem exists_run_of_any (s₀ : σ) (es : List ε) (P : σ → List α → Bool)
    (h : (M.exec (fun _ _ _ => true) s₀ [] es).any (fun r => P r.1 r.2) = true) :
    ∃ s tr, M.Run s₀ es s tr ∧ P s tr = true := by
  obtain ⟨s, tr, hr, hP⟩ := exists_runWhere_of_any M (fun _ _ _ => true) s₀ es P h
  exact ⟨s, tr, hr.run, hP⟩

/-- A computed trace is the trace of a run. -/
theorem exists_run (h : (M.exec (fun _ _ _ => true) s₀ [] es).map Prod.snd = some tr) :
    ∃ s, M.Run s₀ es s tr := by
  obtain ⟨s, hr⟩ := exists_runWhere h
  exact ⟨s, hr.run⟩

end Lts

/-! ### Properties of every label and what came before it -/

section AtEvery

variable {α : Type*} {P : List α → α → Prop}

/-- Every label of the trace satisfies `P` against the labels before it. -/
def AtEvery (P : List α → α → Prop) (tr : List α) : Prop :=
  ∀ pre a post, tr = pre ++ a :: post → P pre a

@[simp] theorem atEvery_nil : AtEvery P [] := by
  intro pre a post h
  simp at h

theorem atEvery_snoc {tr : List α} {a : α} (h : AtEvery P tr) (ha : P tr a) :
    AtEvery P (tr ++ [a]) := by
  intro pre b post heq
  rcases List.eq_nil_or_concat post with rfl | ⟨post', c, rfl⟩
  · obtain ⟨rfl, hb⟩ := List.append_inj' heq rfl
    rw [← (List.cons.inj hb).1]
    exact ha
  · have heq' : tr ++ [a] = (pre ++ b :: post') ++ [c] := by simpa using heq
    exact h pre b post' (List.append_inj' heq' rfl).1

/-- A property of every label of a trace and its extension is one of the labels of each. -/
theorem atEvery_append {tr l : List α} :
    AtEvery P (tr ++ l) ↔ AtEvery P tr ∧ AtEvery (fun pre a => P (tr ++ pre) a) l := by
  constructor
  · refine fun h => ⟨fun pre a post heq => ?_, fun pre a post heq => ?_⟩
    · exact h pre a (post ++ l) (by simp [heq])
    · exact h (tr ++ pre) a post (by simp [heq])
  · rintro ⟨htr, hl⟩ pre a post heq
    rcases List.append_eq_append_iff.mp heq with ⟨c, rfl, hl'⟩ | ⟨c, htr', hpost⟩
    · exact hl c a post hl'
    · cases c with
      | nil =>
        rw [List.append_nil] at htr'
        subst htr'
        have hhead : P (tr ++ []) a := hl [] a post hpost.symm
        rwa [List.append_nil] at hhead
      | cons x c =>
        rw [List.cons_append, List.cons.injEq] at hpost
        obtain ⟨rfl, -⟩ := hpost
        exact htr pre a c htr'

theorem atEvery_cons {a : α} {l : List α} :
    AtEvery P (a :: l) ↔ P [] a ∧ AtEvery (fun pre b => P (a :: pre) b) l := by
  rw [← List.singleton_append, atEvery_append]
  refine and_congr_left fun _ => ⟨fun h => h [] a [] rfl, fun h => ?_⟩
  show AtEvery P ([] ++ [a])
  exact atEvery_snoc atEvery_nil h

/-- A property that every label has, whatever came before it. -/
theorem atEvery_of_forall {l : List α} (h : ∀ a ∈ l, ∀ pre, P pre a) : AtEvery P l := by
  rintro pre a post rfl
  exact h a (by simp) pre

end AtEvery

/-! ### Response properties -/

section Response

variable {α : Type*} (opens closes deadline : α → Prop)

/-- After every opening label a closing one comes before the next deadline. -/
def Responds (tr : List α) : Prop :=
  ∀ pre a mid b post, tr = pre ++ a :: mid ++ b :: post → opens a → deadline b →
    (∀ x ∈ mid, ¬ deadline x) → ∃ x ∈ mid, closes x

/-- Some opening label has been followed neither by a closing one nor by a
deadline. -/
def Pending (tr : List α) : Prop :=
  ∃ pre a mid, tr = pre ++ a :: mid ∧ opens a ∧ ∀ x ∈ mid, ¬ deadline x ∧ ¬ closes x

variable {opens closes deadline}

@[simp] theorem pending_nil : ¬ Pending opens closes deadline [] := by
  rintro ⟨pre, a, mid, h, -⟩
  simp at h

@[simp] theorem responds_nil : Responds opens closes deadline [] := by
  intro pre a mid b post h
  simp at h

/-- An opening label is pending after an extension when it was opened in the
extension, or was pending before and the extension neither closes it nor passes a
deadline. -/
theorem pending_append (tr l : List α) :
    Pending opens closes deadline (tr ++ l) ↔
      Pending opens closes deadline l ∨
        Pending opens closes deadline tr ∧ ∀ x ∈ l, ¬ deadline x ∧ ¬ closes x := by
  constructor
  · rintro ⟨pre, a, mid, h, ha, hmid⟩
    rcases List.append_eq_append_iff.mp h with ⟨c, hc, hl⟩ | ⟨c, hc, hl⟩
    · -- the opening label lies in the extension
      exact Or.inl ⟨c, a, mid, hl, ha, hmid⟩
    · cases c with
      | nil =>
        refine Or.inl ⟨[], a, mid, ?_, ha, hmid⟩
        simpa using hl.symm
      | cons x c =>
        obtain ⟨rfl, rfl⟩ : x = a ∧ mid = c ++ l := by
          rw [List.cons_append, List.cons.injEq] at hl
          exact ⟨hl.1.symm, hl.2⟩
        refine Or.inr ⟨⟨pre, x, c, hc, ha, fun y hy => hmid y (by simp [hy])⟩, ?_⟩
        exact fun y hy => hmid y (by simp [hy])
  · rintro (⟨pre, a, mid, rfl, ha, hmid⟩ | ⟨⟨pre, a, mid, rfl, ha, hmid⟩, hl⟩)
    · exact ⟨tr ++ pre, a, mid, by simp, ha, hmid⟩
    · refine ⟨pre, a, mid ++ l, by simp, ha, fun x hx => ?_⟩
      rcases List.mem_append.mp hx with hx | hx
      · exact hmid x hx
      · exact hl x hx

/-- After one more label an opening one is pending if that label opens, or if one was
pending and the label neither closes it nor is a deadline. -/
theorem pending_snoc (tr : List α) (b : α) :
    Pending opens closes deadline (tr ++ [b]) ↔
      opens b ∨ Pending opens closes deadline tr ∧ ¬ deadline b ∧ ¬ closes b := by
  have hone : Pending opens closes deadline [b] ↔ opens b := by
    constructor
    · rintro ⟨pre, a, mid, h, ha, -⟩
      cases pre with
      | nil =>
        rw [(List.cons.inj h).1]
        exact ha
      | cons x pre => simp at h
    · exact fun hb => ⟨[], b, [], rfl, hb, by simp⟩
  rw [pending_append, hone]
  simp

/-- Whether an opening label has not been followed by a closing one. -/
def stillPending {α : Type*} (opens closes : α → Bool) (tr : List α) : Bool :=
  tr.foldl (fun b x => opens x || (b && !closes x)) false

/-- With no deadlines, being pending is computed label by label. -/
theorem stillPending_iff {opens closes : α → Bool} (tr : List α) :
    stillPending opens closes tr = true ↔
      Pending (fun x => opens x = true) (fun x => closes x = true) (fun _ => False) tr := by
  induction tr using List.reverseRecOn with
  | nil => simp [stillPending]
  | append_singleton tr x ih =>
    have hstep : stillPending opens closes (tr ++ [x]) =
        (opens x || (stillPending opens closes tr && !closes x)) := by
      rw [stillPending, List.foldl_append]
      rfl
    rw [hstep, pending_snoc, ← ih]
    simp

/-- Being pending depends only on what the labels of the trace open, close and
pass. -/
theorem pending_congr {opens' closes' : α → Prop} {l : List α}
    (ho : ∀ x ∈ l, (opens x ↔ opens' x)) (hc : ∀ x ∈ l, (closes x ↔ closes' x)) :
    Pending opens closes deadline l ↔ Pending opens' closes' deadline l := by
  constructor
  · rintro ⟨pre, a, mid, rfl, ha, hmid⟩
    refine ⟨pre, a, mid, rfl, (ho a (by simp)).mp ha, fun x hx => ⟨(hmid x hx).1, ?_⟩⟩
    exact fun h => (hmid x hx).2 ((hc x (by simp [hx])).mpr h)
  · rintro ⟨pre, a, mid, rfl, ha, hmid⟩
    refine ⟨pre, a, mid, rfl, (ho a (by simp)).mpr ha, fun x hx => ⟨(hmid x hx).1, ?_⟩⟩
    exact fun h => (hmid x hx).2 ((hc x (by simp [hx])).mp h)

/-- A deadline, or a closing label, leaves nothing pending. -/
theorem not_pending_append {b : α} (tr : List α) (hb : deadline b ∨ closes b)
    (ho : ¬ opens b) : ¬ Pending opens closes deadline (tr ++ [b]) := by
  rw [pending_append]
  rintro (⟨pre, a, mid, h, ha, -⟩ | ⟨-, h⟩)
  · cases pre with
    | nil =>
      simp only [List.nil_append, List.cons.injEq] at h
      exact ho (h.1 ▸ ha)
    | cons x pre => simp at h
  · exact hb.elim (h b (by simp)).1 (h b (by simp)).2

/-- A label that is neither an opening nor a deadline nor a closing one changes
nothing. -/
theorem pending_append_neutral {l : List α} (tr : List α) (ho : ∀ x ∈ l, ¬ opens x)
    (hl : ∀ x ∈ l, ¬ deadline x ∧ ¬ closes x) :
    Pending opens closes deadline (tr ++ l) ↔ Pending opens closes deadline tr := by
  rw [pending_append]
  constructor
  · rintro (⟨pre, a, mid, rfl, ha, -⟩ | ⟨h, -⟩)
    · exact absurd ha (ho a (by simp))
    · exact h
  · exact fun h => Or.inr ⟨h, hl⟩

/-- Every prefix of a trace with the response property has it. -/
theorem Responds.of_append {tr l : List α} (h : Responds opens closes deadline (tr ++ l)) :
    Responds opens closes deadline tr := by
  rintro pre a mid b post rfl
  exact h pre a mid b (post ++ l) (by simp)

/-- Labels that are no deadline keep the response property. -/
theorem responds_append_quiet {tr l : List α} (hl : ∀ x ∈ l, ¬ deadline x) :
    Responds opens closes deadline (tr ++ l) ↔ Responds opens closes deadline tr := by
  refine ⟨Responds.of_append, fun h pre a mid b post heq ha hb hmid => ?_⟩
  rcases List.append_eq_append_iff.mp heq with ⟨c, hc, hl'⟩ | ⟨c, hc, hl'⟩
  · exact absurd hb (hl b (by rw [hl']; simp))
  · cases c with
    | nil => exact absurd hb (hl b (by rw [List.nil_append] at hl'; rw [← hl']; simp))
    | cons x c =>
      rw [List.cons_append, List.cons.injEq] at hl'
      obtain ⟨rfl, -⟩ := hl'
      exact h pre a mid b c hc ha hb hmid

/-- At a deadline the response property asks that nothing is pending. -/
theorem responds_append_deadline {tr : List α} {b : α} (hb : deadline b) :
    Responds opens closes deadline (tr ++ [b]) ↔
      Responds opens closes deadline tr ∧ ¬ Pending opens closes deadline tr := by
  constructor
  · refine fun h => ⟨h.of_append, ?_⟩
    rintro ⟨pre, a, mid, rfl, ha, hmid⟩
    obtain ⟨x, hx, hc⟩ := h pre a mid b [] (by simp) ha hb fun x hx => (hmid x hx).1
    exact (hmid x hx).2 hc
  · rintro ⟨h, hp⟩ pre a mid b' post heq ha hb' hmid
    rcases List.eq_nil_or_concat post with rfl | ⟨post', y, rfl⟩
    · -- the deadline is the last label
      have heq' := List.append_inj' heq rfl
      by_contra hno
      refine hp ⟨pre, a, mid, heq'.1, ha, fun x hx => ⟨hmid x hx, fun hc => hno ⟨x, hx, hc⟩⟩⟩
    · have heq' : tr ++ [b] = (pre ++ a :: mid ++ b' :: post') ++ [y] := by simpa using heq
      exact h pre a mid b' post' (List.append_inj' heq' rfl).1 ha hb' hmid

/-- The response property fails when a deadline comes after an opening label and nothing
after that label closes it. -/
theorem not_responds_of_deadline {pre mid : List α} {a b : α} (ha : opens a) (hb : b ∈ mid)
    (hdead : deadline b) (hnone : ∀ x ∈ mid, ¬ closes x) :
    ¬ Responds opens closes deadline (pre ++ a :: mid) := by
  intro h
  -- the first deadline after the opening label
  have hfirst : ∀ l : List α, b ∈ l →
      ∃ m c p, l = m ++ c :: p ∧ deadline c ∧ ∀ x ∈ m, ¬ deadline x := by
    intro l
    induction l with
    | nil => simp
    | cons y l ih =>
      intro hmem
      by_cases hy : deadline y
      · exact ⟨[], y, l, rfl, hy, by simp⟩
      · rcases List.mem_cons.mp hmem with rfl | hmem
        · exact absurd hdead hy
        · obtain ⟨m, c, p, rfl, hc, hm⟩ := ih hmem
          refine ⟨y :: m, c, p, rfl, hc, fun x hx => ?_⟩
          rcases List.mem_cons.mp hx with rfl | hx
          · exact hy
          · exact hm x hx
  obtain ⟨m, c, p, rfl, hc, hm⟩ := hfirst mid hb
  obtain ⟨x, hx, hcl⟩ := h pre a m c p (by simp) ha hc hm
  exact hnone x (by simp [hx]) hcl

/-- With nothing pending, labels that open nothing keep the response property and
leave nothing pending. -/
theorem responds_append_of_not_pending {tr l : List α}
    (h : Responds opens closes deadline tr) (hp : ¬ Pending opens closes deadline tr)
    (hl : ∀ x ∈ l, ¬ opens x) :
    Responds opens closes deadline (tr ++ l) ∧ ¬ Pending opens closes deadline (tr ++ l) := by
  induction l generalizing tr with
  | nil => simpa using ⟨h, hp⟩
  | cons x l ih =>
    have hone : Responds opens closes deadline (tr ++ [x]) := by
      by_cases hx : deadline x
      · exact (responds_append_deadline hx).mpr ⟨h, hp⟩
      · exact (responds_append_quiet (by simpa using hx)).mpr h
    have hnone : ¬ Pending opens closes deadline (tr ++ [x]) := by
      rw [pending_append]
      rintro (⟨pre, a, mid, heq, ha, -⟩ | ⟨hbefore, -⟩)
      · have hax : a = x := List.mem_singleton.mp (by rw [heq]; simp)
        exact hl a (by simp [hax]) ha
      · exact hp hbefore
    simpa using ih hone hnone fun y hy => hl y (by simp [hy])

/-- The response property bounds every later deadline, not only the next one. -/
theorem Responds.until {tr pre mid post : List α} {a b : α}
    (h : Responds opens closes deadline tr) (heq : tr = pre ++ a :: mid ++ b :: post)
    (ha : opens a) (hb : deadline b) : ∃ x ∈ mid, closes x := by
  induction hn : mid.length using Nat.strongRecOn generalizing mid b post with
  | _ n ih =>
    by_cases hmid : ∀ x ∈ mid, ¬ deadline x
    · exact h pre a mid b post heq ha hb hmid
    · -- an earlier deadline leaves a shorter stretch
      obtain ⟨d, hd, hdead⟩ : ∃ d ∈ mid, deadline d := by simpa using hmid
      obtain ⟨m, m', rfl⟩ := List.append_of_mem hd
      have heq' : tr = pre ++ a :: m ++ d :: (m' ++ b :: post) := by simpa using heq
      obtain ⟨x, hx, hclose⟩ := ih m.length (by simp [← hn]) heq' hdead rfl
      exact ⟨x, by simp [hx], hclose⟩

/-- A label that nothing closes stays pending while no deadline is missed. -/
theorem Responds.pending_of_mem {tr : List α} {a : α}
    (h : Responds opens (fun _ => False) deadline tr) (hmem : a ∈ tr) (ha : opens a) :
    Pending opens (fun _ => False) deadline tr := by
  obtain ⟨pre, mid, rfl⟩ := List.append_of_mem hmem
  refine ⟨pre, a, mid, rfl, ha, fun x hx => ⟨fun hd => ?_, id⟩⟩
  obtain ⟨m, m', rfl⟩ := List.append_of_mem hx
  have heq : pre ++ a :: (m ++ x :: m') = pre ++ a :: m ++ x :: m' := by simp
  obtain ⟨y, -, hy⟩ := h.until heq ha hd
  exact hy

/-! ### Response properties kept by a guard -/

variable (opens closes deadline) in
/-- A response property together with a fact that holds while a label is pending. -/
structure Guarded (tr : List α) (P : Prop) : Prop where
  responds : Responds opens closes deadline tr
  guard : Pending opens closes deadline tr → P

theorem guarded_nil (P : Prop) : Guarded opens closes deadline [] P :=
  ⟨responds_nil, fun h => absurd h pending_nil⟩

/-- Labels without a deadline: the new fact follows from the old one and from
every opening label among them. -/
theorem Guarded.quiet {tr l : List α} {P P' : Prop} (h : Guarded opens closes deadline tr P)
    (hl : ∀ x ∈ l, ¬ deadline x) (hP : P → P') (hopen : ∀ x ∈ l, opens x → P') :
    Guarded opens closes deadline (tr ++ l) P' := by
  refine ⟨(responds_append_quiet hl).mpr h.responds, fun hp => ?_⟩
  rcases (pending_append tr l).mp hp with ⟨pre, a, mid, rfl, ha, -⟩ | ⟨hp, -⟩
  · exact hopen a (by simp) ha
  · exact hP (h.guard hp)

/-- When the fact is false nothing is pending, and labels that open nothing are
free. -/
theorem Guarded.vacuous {tr l : List α} {P P' : Prop} (h : Guarded opens closes deadline tr P)
    (hP : ¬ P) (hl : ∀ x ∈ l, ¬ opens x) : Guarded opens closes deadline (tr ++ l) P' := by
  have hp : ¬ Pending opens closes deadline tr := fun hp => hP (h.guard hp)
  obtain ⟨hr, hn⟩ := responds_append_of_not_pending h.responds hp hl
  exact ⟨hr, fun hp => absurd hp hn⟩

/-- A closing label at the end leaves nothing to guard. -/
theorem Guarded.close {tr l : List α} {b : α} {P P' : Prop}
    (h : Guarded opens closes deadline tr P) (hl : ∀ x ∈ l, ¬ deadline x)
    (hb : closes b) (hd : ¬ deadline b) (ho : ¬ opens b) :
    Guarded opens closes deadline (tr ++ (l ++ [b])) P' := by
  have hquiet : ∀ x ∈ l ++ [b], ¬ deadline x := by
    intro x hx
    rcases List.mem_append.mp hx with hx | hx
    · exact hl x hx
    · rwa [List.mem_singleton.mp hx]
  refine ⟨(responds_append_quiet hquiet).mpr h.responds, fun hp => ?_⟩
  rw [← List.append_assoc] at hp
  exact absurd hp (not_pending_append _ (Or.inr hb) ho)

end Response

end Hivebook
