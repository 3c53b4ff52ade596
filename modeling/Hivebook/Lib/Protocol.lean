import Mathlib.Data.List.Forall2
import Hivebook.Lib.Pool

/-!
# Protocols

A protocol is an automaton over the commands of a program and their responses: in
a ghost state it allows some commands, and a response moves it on.  That a program
follows a protocol is a fact about the program alone, whatever the world answers.

Running programs then carry their ghost states along: an invariant may relate the
world, the ghost states and the trace, and it is enough to check one allowed
command at a time.

## Main definitions

* `Protocol` — which commands are allowed, and how responses move the ghost state.
* `Prog.Follows P Q g p` — started in ghost state `g` the program only issues
  allowed commands, and `Q` holds of its result and the last ghost state.

## Main results

* `Prog.Follows.bind`, `Prog.Follows.handle`, `Prog.Follows.interpret` — **composition.**
* `Prog.Follows.embed` — as a part of a larger command set.
* `Prog.Follows.prod` — two protocols at once.
* `sequential_follows`, `pool_follows` — **the invariant rules** for jobs that
  follow a protocol, one after another and side by side.
* `pool_uses` — the invariant rule for jobs side by side and the commands they issue.
-/

namespace Hivebook

/-- An automaton over commands and responses. -/
structure Protocol (S Cmd : Type) (Resp : Cmd → Type) where
  /-- The commands a ghost state allows. -/
  allowed : S → Cmd → Prop
  /-- The ghost state after a response. -/
  next : S → (c : Cmd) → Resp c → S

/-- Two protocols at once. -/
def Protocol.prod {S S' Cmd : Type} {Resp : Cmd → Type} (P : Protocol S Cmd Resp)
    (P' : Protocol S' Cmd Resp) : Protocol (S × S') Cmd Resp where
  allowed g c := P.allowed g.1 c ∧ P'.allowed g.2 c
  next g c r := (P.next g.1 c r, P'.next g.2 c r)

namespace Prog

variable {S Cmd : Type} {Resp : Cmd → Type} {α β : Type}

/-- The program only issues allowed commands, and ends as `Q` says. -/
def Follows (P : Protocol S Cmd Resp) (Q : α → S → Prop) : S → Prog Cmd Resp α → Prop
  | g, .pure a => Q a g
  | g, .call c k => P.allowed g c ∧ ∀ r, Follows P Q (P.next g c r) (k r)

variable {P : Protocol S Cmd Resp} {Q R : α → S → Prop} {g : S} {p : Prog Cmd Resp α}

theorem Follows.mono (h : p.Follows P Q g) (hQ : ∀ a g, Q a g → R a g) : p.Follows P R g := by
  induction p generalizing g with
  | pure a => exact hQ a g h
  | call c k ih => exact ⟨h.1, fun r => ih r (h.2 r)⟩

/-- **The rule of composition.** -/
theorem Follows.bind {f : α → Prog Cmd Resp β} {Q' : β → S → Prop} (h : p.Follows P R g)
    (hf : ∀ a g, R a g → (f a).Follows P Q' g) : (p.bind f).Follows P Q' g := by
  induction p generalizing g with
  | pure a => exact hf a g h
  | call c k ih => exact ⟨h.1, fun r => ih r (h.2 r)⟩

/-- A program whose commands are allowed in every ghost state of a set, and stay in
it, follows the protocol and ends in the set. -/
theorem follows_of_uses {I : S → Prop}
    (hU : p.Uses fun c => ∀ g, I g → P.allowed g c ∧ ∀ r, I (P.next g c r)) (hg : I g) :
    p.Follows P (fun _ => I) g := by
  induction p generalizing g with
  | pure a => exact hg
  | call c k ih => exact ⟨(hU.1 g hg).1, fun r => ih r (hU.2 r) ((hU.1 g hg).2 r)⟩

/-- Interpreting the commands of a program by programs that each keep a relation
between the handler's state and the ghost state keeps it. -/
theorem Follows.handle {Cmd' : Type} {Resp' : Cmd' → Type} {T : Type}
    {h : (c : Cmd') → T → Prog Cmd Resp (Resp' c × T)} {I : T → S → Prop}
    (hh : ∀ c t g, I t g → (h c t).Follows P (fun r => I r.2) g)
    (q : Prog Cmd' Resp' α) {t : T} (hI : I t g) :
    (q.handle h t).Follows P (fun r => I r.2) g := by
  induction q generalizing t g with
  | pure a => exact hI
  | call c k ih => exact (hh c t g hI).bind fun r g' hr => ih r.1 hr

/-- **The rule for interpreting a program that follows a protocol of its own.**  A
relation between the two ghost states and the handler's state is kept if the program of
every command that the inner protocol allows keeps it. -/
theorem Follows.interpret {Cmd' : Type} {Resp' : Cmd' → Type} {S' T : Type}
    {P' : Protocol S' Cmd' Resp'} {Q' : α → S' → Prop} {q : Prog Cmd' Resp' α} {g' : S'}
    {h : (c : Cmd') → T → Prog Cmd Resp (Resp' c × T)} {I : S' → T → S → Prop}
    (hq : q.Follows P' Q' g')
    (hh : ∀ c t g' g, I g' t g → P'.allowed g' c →
      (h c t).Follows P (fun r => I (P'.next g' c r.1) r.2) g)
    {t : T} (hI : I g' t g) :
    (q.handle h t).Follows P (fun r g => ∃ g', Q' r.1 g' ∧ I g' r.2 g) g := by
  induction q generalizing t g g' with
  | pure a => exact ⟨g', hq, hI⟩
  | call c k ih => exact (hh c t g' g hI hq.1).bind fun r g hr => ih r.1 (hq.2 r.1) hr

/-- A program over a part of a command set follows any protocol over the whole that treats the
part as its own protocol does. -/
theorem Follows.embed {Cmd' : Type} {Resp' : Cmd' → Type} {P' : Protocol S Cmd' Resp'}
    {f : Cmd → Cmd'} {answer : ∀ c, Resp' (f c) → Resp c}
    (hallowed : ∀ g c, P.allowed g c → P'.allowed g (f c))
    (hnext : ∀ g c r, P'.next g (f c) r = P.next g c (answer c r)) (h : p.Follows P Q g) :
    (p.embed f answer).Follows P' Q g := by
  induction p generalizing g with
  | pure a => exact h
  | call c k ih =>
    refine ⟨hallowed g c h.1, fun r => ?_⟩
    rw [hnext]
    exact ih (answer c r) (h.2 (answer c r))

/-- A program that follows two protocols follows both at once. -/
theorem Follows.prod {S' : Type} {P' : Protocol S' Cmd Resp} {Q' : α → S' → Prop} {g' : S'}
    (h : p.Follows P Q g) (h' : p.Follows P' Q' g') :
    p.Follows (P.prod P') (fun a gg => Q a gg.1 ∧ Q' a gg.2) (g, g') := by
  induction p generalizing g g' with
  | pure a => exact ⟨h, h'⟩
  | call c k ih => exact ⟨⟨h.1, h'.1⟩, fun r => ih r (h.2 r) (h'.2 r)⟩

end Prog

/-! ### Lists related element by element -/

theorem forall₂_getElem? {α β : Type} {R : α → β → Prop} {l : List α} {l' : List β} {i : ℕ}
    {a : α} (h : List.Forall₂ R l l') (ha : l[i]? = some a) : ∃ b, l'[i]? = some b ∧ R a b := by
  induction h generalizing i with
  | nil => simp at ha
  | cons hab _ ih =>
    cases i with
    | zero =>
      simp only [List.getElem?_cons_zero, Option.some.injEq] at ha
      exact ⟨_, by simp, ha ▸ hab⟩
    | succ i => simpa using ih (by simpa using ha)

theorem forall₂_set {α β : Type} {R : α → β → Prop} {l : List α} {l' : List β} {a : α} {b : β}
    (h : List.Forall₂ R l l') (i : ℕ) (hab : R a b) :
    List.Forall₂ R (l.set i a) (l'.set i b) := by
  induction h generalizing i with
  | nil => simp
  | cons hxy hrest ih =>
    cases i with
    | zero => exact .cons hab hrest
    | succ i => exact .cons hxy (ih i)

namespace Machine

variable {S σ χ Cmd : Type} {Resp : Cmd → Type} {α ι : Type} {M : Machine σ χ Cmd Resp}

/-- **The invariant rule for jobs one after another**, each with a protocol of its own, from a
state in which one is under way.  The invariant relates the world, the ghost state of the
current job and the trace; it is kept when a job starts over from the initial ghost state,
and by every allowed command. -/
theorem sequential_follows_from {jobs : ι → Prog Cmd Resp α} {P : ι → Protocol S Cmd Resp}
    {Q : ι → α → S → Prop} {g₀ g₁ : S}
    {J : σ → S → List (Performed σ χ Cmd) → Prop}
    {C : Sequential σ ι Cmd Resp α → List (Performed σ χ Cmd) → SeqEvent ι χ → Prop}
    {s₁ : Sequential σ ι Cmd Resp α} {es : List (SeqEvent ι χ)} {s : Sequential σ ι Cmd Resp α}
    {tr : List (Performed σ χ Cmd)}
    (h : (M.sequential jobs).RunWhere C s₁ es s tr)
    (hjobs : ∀ j, (jobs j).Follows (P j) (Q j) g₀) (init : J s₁.world g₁ [])
    (current : ∀ j th, s₁.current = some (j, th) → th.prog.Follows (P j) (Q j) g₁)
    (start : ∀ w g tr, J w g tr → J w g₀ tr)
    (step : ∀ s tr t j c k b g, C s tr (.turn t) → s.current = some (j, ⟨.call c k, b⟩) →
      (P j).allowed g c → J s.world g tr →
      J (M.perform t.choice (b || t.cancel) s.world c).1
        ((P j).next g c (M.perform t.choice (b || t.cancel) s.world c).2)
        (tr ++ [⟨s.world, c, b || t.cancel, t.choice⟩])) :
    ∃ g, J s.world g tr ∧ ∀ j th, s.current = some (j, th) → th.prog.Follows (P j) (Q j) g := by
  refine h.invariant (J := fun s tr => ∃ g, J s.world g tr ∧
    ∀ j th, s.current = some (j, th) → th.prog.Follows (P j) (Q j) g) ⟨g₁, init, current⟩ ?_
  intro s tr e s' as ⟨g, hJ, hfollows⟩ hC hstep
  cases e with
  -- a job that starts over forgets what the last one knew
  | start j =>
    simp only [sequential, Option.some.injEq, Prod.mk.injEq] at hstep
    obtain ⟨rfl, rfl⟩ := hstep
    refine ⟨g₀, by simpa using start _ g tr hJ, fun j' th hth => ?_⟩
    simp only [Option.some.injEq, Prod.mk.injEq] at hth
    obtain ⟨rfl, rfl⟩ := hth
    exact hjobs j
  | turn t =>
    cases hcur : s.current with
    | none => simp [sequential, hcur] at hstep
    | some cur =>
      obtain ⟨j, ⟨prog, b⟩⟩ := cur
      cases prog with
      | pure a => simp [sequential, hcur, turn] at hstep
      | call c k =>
        have hcall := hfollows j _ hcur
        simp only [sequential, hcur, turn, Option.map_some, Option.some.injEq,
          Prod.mk.injEq] at hstep
        obtain ⟨rfl, rfl⟩ := hstep
        refine ⟨_, step s tr t j c k b g hC hcur hcall.1 hJ, fun j' th hth => ?_⟩
        simp only [Option.some.injEq, Prod.mk.injEq] at hth
        obtain ⟨rfl, rfl⟩ := hth
        exact hcall.2 _

/-- The rule from a state in which no job is under way. -/
theorem sequential_follows {jobs : ι → Prog Cmd Resp α} {P : ι → Protocol S Cmd Resp}
    {Q : ι → α → S → Prop} {g₀ : S}
    {J : σ → S → List (Performed σ χ Cmd) → Prop}
    {C : Sequential σ ι Cmd Resp α → List (Performed σ χ Cmd) → SeqEvent ι χ → Prop}
    {w : σ} {es : List (SeqEvent ι χ)} {s : Sequential σ ι Cmd Resp α}
    {tr : List (Performed σ χ Cmd)}
    (h : (M.sequential jobs).RunWhere C ⟨w, none⟩ es s tr)
    (hjobs : ∀ j, (jobs j).Follows (P j) (Q j) g₀) (init : J w g₀ [])
    (start : ∀ w g tr, J w g tr → J w g₀ tr)
    (step : ∀ s tr t j c k b g, C s tr (.turn t) → s.current = some (j, ⟨.call c k, b⟩) →
      (P j).allowed g c → J s.world g tr →
      J (M.perform t.choice (b || t.cancel) s.world c).1
        ((P j).next g c (M.perform t.choice (b || t.cancel) s.world c).2)
        (tr ++ [⟨s.world, c, b || t.cancel, t.choice⟩])) :
    ∃ g, J s.world g tr ∧ ∀ j th, s.current = some (j, th) → th.prog.Follows (P j) (Q j) g :=
  sequential_follows_from h hjobs init (by simp) start step

/-- **The invariant rule for jobs side by side.**  The invariant relates the world,
the ghost states of the threads and the trace. -/
theorem pool_follows {P : Protocol S Cmd Resp} {jobs : ι → Prog Cmd Resp α}
    {Q : α → S → Prop} {g₀ : S}
    {J : σ → List S → List (Performed σ χ Cmd) → Prop}
    {C : Pool σ Cmd Resp α → List (Performed σ χ Cmd) → PoolEvent ι χ → Prop}
    {w : σ} {es : List (PoolEvent ι χ)} {s : Pool σ Cmd Resp α} {tr : List (Performed σ χ Cmd)}
    (h : (M.pool jobs).RunWhere C ⟨w, []⟩ es s tr)
    (hjobs : ∀ j, (jobs j).Follows P Q g₀) (init : J w [] [])
    (start : ∀ w gs tr, J w gs tr → J w (gs ++ [g₀]) tr)
    (step : ∀ s tr i t c k b gs g, C s tr (.turn i t) → s.threads[i]? = some ⟨.call c k, b⟩ →
      gs[i]? = some g → P.allowed g c → J s.world gs tr →
      J (M.perform t.choice (b || t.cancel) s.world c).1
        (gs.set i (P.next g c (M.perform t.choice (b || t.cancel) s.world c).2))
        (tr ++ [⟨s.world, c, b || t.cancel, t.choice⟩])) :
    ∃ gs, J s.world gs tr ∧ List.Forall₂ (fun th g => th.prog.Follows P Q g) s.threads gs := by
  refine h.invariant (J := fun s tr => ∃ gs, J s.world gs tr ∧
    List.Forall₂ (fun th g => th.prog.Follows P Q g) s.threads gs) ⟨[], init, .nil⟩ ?_
  intro s tr e s' as ⟨gs, hJ, hfollows⟩ hC hstep
  rcases pool_step hstep with ⟨j, rfl, rfl, rfl⟩ | ⟨i, t, c, k, b, rfl, hth, rfl, rfl⟩
  · refine ⟨gs ++ [g₀], by simpa using start _ gs tr hJ, ?_⟩
    exact List.rel_append hfollows (.cons (hjobs j) .nil)
  · obtain ⟨g, hg, hcall⟩ := forall₂_getElem? hfollows hth
    exact ⟨_, step s tr i t c k b gs g hC hth hg hcall.1 hJ, forall₂_set hfollows i (hcall.2 _)⟩

/-- The invariant rule for jobs side by side that issue commands of one kind. -/
theorem pool_uses {U : Cmd → Prop} {jobs : ι → Prog Cmd Resp α}
    {J : σ → List (Performed σ χ Cmd) → Prop}
    {C : Pool σ Cmd Resp α → List (Performed σ χ Cmd) → PoolEvent ι χ → Prop}
    {w : σ} {es : List (PoolEvent ι χ)} {s : Pool σ Cmd Resp α} {tr : List (Performed σ χ Cmd)}
    (h : (M.pool jobs).RunWhere C ⟨w, []⟩ es s tr) (hjobs : ∀ j, (jobs j).Uses U) (init : J w [])
    (step : ∀ s tr i t c k b, C s tr (.turn i t) → s.threads[i]? = some ⟨.call c k, b⟩ → U c →
      J s.world tr → J (M.perform t.choice (b || t.cancel) s.world c).1
        (tr ++ [⟨s.world, c, b || t.cancel, t.choice⟩])) : J s.world tr := by
  have hfollows : ∀ j, (jobs j).Follows (⟨fun _ c => U c, fun _ _ _ => ()⟩ : Protocol Unit Cmd Resp)
      (fun _ _ => True) () := by
    intro j
    exact (Prog.follows_of_uses (I := fun _ => True)
      ((hjobs j).mono fun c hc _ _ => ⟨hc, fun _ => trivial⟩) trivial)
  obtain ⟨gs, hJ, -⟩ := pool_follows (J := fun w _ tr => J w tr) h hfollows init
    (fun w gs tr hJ => hJ)
    (fun s tr i t c k b gs g hC hth _ hU hJ => step s tr i t c k b hC hth hU hJ)
  exact hJ

end Machine

end Hivebook
