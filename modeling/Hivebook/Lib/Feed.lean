import Hivebook.Lib.Prog

/-!
# Programs fed with a stream of replies

Some commands of a program are requests to a remote side, which answers them with the replies of a
stream, one after the other.  The other commands are answered by the surroundings of the program,
from a stream of their own.  What a program returns on two streams is a function, and so is the
number of replies it has used.

A program whose loops are not bounded is given by what it returns when no loop goes round more
often than a bound, if it does return; on a stream, it returns if it does so for some bound.

## Main definitions

* `Feed` — the two streams; `Feed.run` — what a program returns, and what it has used of them.
* `Prog.AsksAtMost` — a bound on the requests of a program, whatever it is answered.
* `Feed.Returns` — a program with unbounded loops returns.

## Main results

* `Feed.run_bind` — **a program is fed part by part.**
* `Prog.AsksAtMost.bind`, `Feed.used_le` — **requests add up**, and bound the replies that are used.
-/

namespace Hivebook

variable {Cmd : Type} {Resp : Cmd → Type} {α β : Type}

/-! ### Streams -/

/-- A stream of replies to the requests of a program, and one of answers to its other commands. -/
structure Feed (Cmd : Type) (Resp : Cmd → Type) where
  asks : Cmd → Bool
  reply : ℕ → (c : Cmd) → Resp c
  other : ℕ → (c : Cmd) → Resp c

/-- How much of the two streams was used. -/
structure Used where
  replies : ℕ
  others : ℕ

namespace Feed

variable (F : Feed Cmd Resp)

/-- What a program returns on the streams, from where they are, and where they are then. -/
def run : Prog Cmd Resp α → Used → α × Used
  | .pure a, u => (a, u)
  | .call c k, u =>
      if F.asks c then run (k (F.reply u.replies c)) { u with replies := u.replies + 1 }
      else run (k (F.other u.others c)) { u with others := u.others + 1 }

variable {F}

@[simp] theorem run_pure (a : α) (u : Used) : F.run (Prog.pure a) u = (a, u) := rfl

theorem run_bind (p : Prog Cmd Resp α) (f : α → Prog Cmd Resp β) (u : Used) :
    F.run (p.bind f) u = F.run (f (F.run p u).1) (F.run p u).2 := by
  induction p generalizing u with
  | pure a => rfl
  | call c k ih =>
    rw [Prog.call_bind, run, run]
    by_cases hasks : F.asks c = true
    · rw [if_pos hasks, if_pos hasks]
      exact ih _ _
    · rw [if_neg hasks, if_neg hasks]
      exact ih _ _

theorem run_request_bind {c : Cmd} (hasks : F.asks c = true) (f : Resp c → Prog Cmd Resp β)
    (u : Used) : F.run ((Prog.issue c).bind f) u =
      F.run (f (F.reply u.replies c)) { u with replies := u.replies + 1 } := by
  rw [Prog.issue_bind, run, if_pos hasks]

/-- A program with unbounded loops returns on the streams. -/
def Returns (F : Feed Cmd Resp) (p : ℕ → Prog Cmd Resp (Option α)) (u : Used) : Prop :=
  ∃ rounds a, (F.run (p rounds) u).1 = some a

end Feed

/-! ### Bounds on the requests -/

namespace Prog

/-- The program makes at most so many requests, whatever its commands are answered. -/
def AsksAtMost (asks : Cmd → Bool) : Prog Cmd Resp α → ℕ → Prop
  | .pure _, _ => True
  | .call c k, n =>
      if asks c then 0 < n ∧ ∀ r, AsksAtMost asks (k r) (n - 1) else ∀ r, AsksAtMost asks (k r) n

variable {asks : Cmd → Bool} {p : Prog Cmd Resp α} {m n : ℕ}

@[simp] theorem asksAtMost_pure (a : α) (n : ℕ) :
    (Prog.pure a : Prog Cmd Resp α).AsksAtMost asks n := trivial

theorem asksAtMost_request {c : Cmd} {k : Resp c → Prog Cmd Resp α} (hasks : asks c = true)
    (h : ∀ r, (k r).AsksAtMost asks n) : (Prog.call c k).AsksAtMost asks (n + 1) := by
  rw [AsksAtMost, if_pos hasks]
  exact ⟨Nat.succ_pos n, h⟩

theorem asksAtMost_other {c : Cmd} {k : Resp c → Prog Cmd Resp α} (hasks : asks c = false)
    (h : ∀ r, (k r).AsksAtMost asks n) : (Prog.call c k).AsksAtMost asks n := by
  rw [AsksAtMost, if_neg (Bool.eq_false_iff.mp hasks)]
  exact h

theorem AsksAtMost.mono (h : p.AsksAtMost asks m) (hle : m ≤ n) : p.AsksAtMost asks n := by
  induction p generalizing m n with
  | pure a => trivial
  | call c k ih =>
    rw [AsksAtMost] at h ⊢
    by_cases hasks : asks c = true
    · rw [if_pos hasks] at h ⊢
      exact ⟨by omega, fun r => ih r (h.2 r) (by omega)⟩
    · rw [if_neg hasks] at h ⊢
      exact fun r => ih r (h r) hle

theorem AsksAtMost.ite {cond : Prop} [Decidable cond] {q : Prog Cmd Resp α}
    (hp : p.AsksAtMost asks n) (hq : q.AsksAtMost asks n) :
    (if cond then p else q).AsksAtMost asks n := by
  split
  · exact hp
  · exact hq

/-- **The requests of a composition are those of its parts.** -/
theorem AsksAtMost.bind {f : α → Prog Cmd Resp β} (h : p.AsksAtMost asks m)
    (hf : ∀ a, (f a).AsksAtMost asks n) : (p.bind f).AsksAtMost asks (m + n) := by
  induction p generalizing m with
  | pure a => exact (hf a).mono (Nat.le_add_left n m)
  | call c k ih =>
    rw [AsksAtMost] at h
    rw [Prog.call_bind, AsksAtMost]
    by_cases hasks : asks c = true
    · rw [if_pos hasks] at h ⊢
      refine ⟨by omega, fun r => ?_⟩
      rw [show m + n - 1 = m - 1 + n by omega]
      exact ih r (h.2 r)
    · rw [if_neg hasks] at h ⊢
      exact fun r => ih r (h r)

/-- A composition with a part that makes no request. -/
theorem AsksAtMost.quiet_bind {f : α → Prog Cmd Resp β} (h : p.AsksAtMost asks 0)
    (hf : ∀ a, (f a).AsksAtMost asks n) : (p.bind f).AsksAtMost asks n := by
  have hbind := h.bind hf
  rwa [Nat.zero_add] at hbind

theorem AsksAtMost.bind_quiet {f : α → Prog Cmd Resp β} (h : p.AsksAtMost asks n)
    (hf : ∀ a, (f a).AsksAtMost asks 0) : (p.bind f).AsksAtMost asks n :=
  h.bind hf

end Prog

/-- A program uses no more replies than it makes requests. -/
theorem Feed.used_le {F : Feed Cmd Resp} {p : Prog Cmd Resp α} {n : ℕ}
    (h : p.AsksAtMost F.asks n) (u : Used) : (F.run p u).2.replies ≤ u.replies + n := by
  induction p generalizing u n with
  | pure a => exact Nat.le_add_right _ _
  | call c k ih =>
    rw [Prog.AsksAtMost] at h
    rw [Feed.run]
    by_cases hasks : F.asks c = true
    · rw [if_pos hasks] at h ⊢
      have hrest := ih _ (h.2 (F.reply u.replies c)) { u with replies := u.replies + 1 }
      dsimp only at hrest
      omega
    · rw [if_neg hasks] at h ⊢
      exact ih _ (h (F.other u.others c)) { u with others := u.others + 1 }

end Hivebook
