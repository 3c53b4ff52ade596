import Hivebook.Lib.Prog

/-!
# What a program may come to

How a program may end when nothing is known of the outside world but which responses it gives, and
which commands it may give up on: it returns a value, or ends with what was thrown.  A property of
the values is shown along the program, for all responses at once.

## Main definitions

* `Prog.Ends A T p o` — answered as `A` admits, and with what `T` throws, the program ends in `o`.
* `Prog.Yields A Q p` — every value that the program may return satisfies `Q`.

## Main results

* `Prog.Yields.bind`, `Prog.Yields.embed`, `Prog.Yields.expand` — **the rules of composition.**
* `Prog.Ends.of_yields` — what a program ends in satisfies its property, or was thrown.
-/

namespace Hivebook
namespace Prog

variable {Cmd : Type} {Resp : Cmd → Type} {α β ε : Type}

/-- Answered as is admitted, or given up on, the program ends. -/
inductive Ends (A : (c : Cmd) → Resp c → Prop) (T : Cmd → ε → Prop) :
    Prog Cmd Resp α → Except ε α → Prop
  | pure (a : α) : Ends A T (.pure a) (.ok a)
  | call {c : Cmd} {k : Resp c → Prog Cmd Resp α} {r : Resp c} {o : Except ε α} :
      A c r → Ends A T (k r) o → Ends A T (.call c k) o
  | throw {c : Cmd} {k : Resp c → Prog Cmd Resp α} {e : ε} :
      T c e → Ends A T (.call c k) (.error e)

/-- Every value the program may return, answered as is admitted, satisfies `Q`. -/
def Yields (A : (c : Cmd) → Resp c → Prop) (Q : α → Prop) : Prog Cmd Resp α → Prop
  | .pure a => Q a
  | .call c k => ∀ r, A c r → Yields A Q (k r)

variable {A : (c : Cmd) → Resp c → Prop} {T : Cmd → ε → Prop} {Q R : α → Prop} {Q' : β → Prop}
  {p : Prog Cmd Resp α}

theorem Yields.mono (h : p.Yields A Q) (hQ : ∀ a, Q a → R a) : p.Yields A R := by
  induction p with
  | pure a => exact hQ a h
  | call c k ih => exact fun r hr => ih r (h r hr)

theorem yields_true : p.Yields A fun _ => True := by
  induction p with
  | pure a => trivial
  | call c k ih => exact fun r _ => ih r

/-- **The rule of composition.** -/
theorem Yields.bind {f : α → Prog Cmd Resp β} (h : p.Yields A R)
    (hf : ∀ a, R a → (f a).Yields A Q') : (p.bind f).Yields A Q' := by
  induction p with
  | pure a => exact hf a h
  | call c k ih => exact fun r hr => ih r (h r hr)

/-- What matters is how the program goes on. -/
theorem yields_then {f : α → Prog Cmd Resp β} (hf : ∀ a, (f a).Yields A Q') :
    (p.bind f).Yields A Q' := yields_true.bind fun a _ => hf a

/-- Programs whose commands are those of another set. -/
theorem Yields.embed {Cmd' : Type} {Resp' : Cmd' → Type} {A' : (c : Cmd') → Resp' c → Prop}
    {f : Cmd → Cmd'} {answer : ∀ c, Resp' (f c) → Resp c} (h : p.Yields A Q)
    (hA : ∀ c r, A' (f c) r → A c (answer c r)) : (p.embed f answer).Yields A' Q := by
  induction p with
  | pure a => exact h
  | call c k ih => exact fun r hr => ih _ (h _ (hA c r hr))

/-- Programs whose commands are programs. -/
theorem Yields.expand {Cmd' : Type} {Resp' : Cmd' → Type} {A' : (c : Cmd') → Resp' c → Prop}
    {g : (c : Cmd) → Prog Cmd' Resp' (Resp c)} (h : p.Yields A Q)
    (hg : ∀ c, (g c).Yields A' (A c)) : (p.expand g).Yields A' Q := by
  induction p with
  | pure a => exact h
  | call c k ih => exact (hg c).bind fun r hr => ih r (h r hr)

/-- **What a program ends in satisfies its property, or was thrown.** -/
theorem Ends.of_yields {o : Except ε α} (h : p.Ends A T o) (hQ : p.Yields A Q) :
    (∃ a, o = .ok a ∧ Q a) ∨ ∃ c e, o = .error e ∧ T c e := by
  induction h with
  | pure a => exact .inl ⟨a, rfl, hQ⟩
  | call hr _ ih => exact ih (hQ _ hr)
  | throw he => exact .inr ⟨_, _, rfl, he⟩

end Prog
end Hivebook
