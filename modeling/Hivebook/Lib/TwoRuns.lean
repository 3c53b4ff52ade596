import Hivebook.Lib.Protocol

/-!
# One program in two worlds

A program is run in two worlds by the same turns of the environment.  If the worlds are related,
and every command that its protocol allows is answered alike in related worlds and leaves them
related, then the program cannot tell the worlds apart: it issues the same commands, and returns
the same value.

## Main definitions

* `Performed.turn` — a performed command without the state it found.

## Main results

* `Machine.Returns.related` — **the rule for two runs.**
* `Machine.Stops.follows` — the invariant rule for one run, wherever it is stopped.
-/

namespace Hivebook

/-- A command, whether its context was cancelled, and what the environment chose. -/
def Performed.turn {σ χ Cmd : Type} (l : Performed σ χ Cmd) : Cmd × Bool × χ :=
  (l.cmd, l.cancelled, l.choice)

namespace Machine

variable {S σ χ Cmd : Type} {Resp : Cmd → Type} {α : Type} {M : Machine σ χ Cmd Resp}
  {P : Protocol S Cmd Resp} {Q : α → S → Prop} {p : Prog Cmd Resp α} {g : S} {b b' : Bool}
  {ls : List (Performed σ χ Cmd)} {a : α}

/-- **The rule for two runs.**  What a program does in a world it does in every related one, by
the same turns. -/
theorem Returns.related {R : S → σ → σ → Prop} {s₁ s₁' s₂ : σ}
    (step : ∀ g s₁ s₂ c x b, R g s₁ s₂ → P.allowed g c →
      (M.perform x b s₂ c).2 = (M.perform x b s₁ c).2 ∧
        R (P.next g c (M.perform x b s₁ c).2) (M.perform x b s₁ c).1 (M.perform x b s₂ c).1)
    (h : M.Returns p b s₁ ls a b' s₁') (hp : p.Follows P Q g) (hR : R g s₁ s₂) :
    ∃ ls' s₂' g', M.Returns p b s₂ ls' a b' s₂' ∧
      ls'.map Performed.turn = ls.map Performed.turn ∧ Q a g' ∧ R g' s₁' s₂' := by
  induction h generalizing g s₂ with
  | pure a b s => exact ⟨[], s₂, g, .pure a b s₂, rfl, hp, hR⟩
  | call t _ ih =>
    obtain ⟨hallowed, hrest⟩ := hp
    obtain ⟨hanswer, hnext⟩ := step _ _ _ _ t.choice _ hR hallowed
    obtain ⟨ls', s₂', g', hreturns, hturns, hQ, hR'⟩ := ih (hrest _) hnext
    rw [← hanswer] at hreturns
    refine ⟨_, s₂', g', .call t hreturns, ?_, hQ, hR'⟩
    rw [List.map_cons, List.map_cons, hturns]
    rfl

/-- What every allowed command keeps holds wherever the program is stopped, and what it shows of
itself it shows of every command performed. -/
theorem Stops.follows {J : S → σ → Prop} {K : Performed σ χ Cmd → Prop} {s s' : σ}
    (step : ∀ g s c x b, J g s → P.allowed g c →
      J (P.next g c (M.perform x b s c).2) (M.perform x b s c).1 ∧ K ⟨s, c, b, x⟩)
    (h : M.Stops p b s ls b' s') (hp : p.Follows P Q g) (hJ : J g s) :
    (∃ g', J g' s') ∧ ∀ l ∈ ls, K l := by
  induction h generalizing g with
  | here p b s => exact ⟨⟨g, hJ⟩, by simp⟩
  | call t _ ih =>
    obtain ⟨hallowed, hrest⟩ := hp
    obtain ⟨hnext, hK⟩ := step _ _ _ t.choice _ hJ hallowed
    obtain ⟨hend, hall⟩ := ih (hrest _) hnext
    refine ⟨hend, fun l hl => ?_⟩
    rcases List.mem_cons.mp hl with rfl | hl
    · exact hK
    · exact hall l hl

end Machine

end Hivebook
