import Hivebook.Lib.Transition

/-!
# Programs that issue commands

A program computes a value by issuing commands to an outside world and going on
with the responses.  The world is a *machine*: a state, and a function that
performs a command under a choice the environment makes (whether the command is
refused, what a remote service answers, how much time passes).  A program runs
under a context that may be cancelled between two commands and then stays
cancelled.

A program is run one command at a time, and may be stopped after any of them.

## Main definitions

* `Prog` — programs; `Prog.issue` issues one command.
* `Prog.handle` — interpreting the commands of one program by programs over
  another command set, passing a state along; `Prog.expand` — without a state; `Prog.embed` — by
  the commands themselves, as part of a larger set.
* `Machine`, `Turn` — the world, and what the environment contributes to one
  command.
* `Prog.Uses U p` — every command the program may issue satisfies `U`.
* `Machine.Returns p b s ls a b' s'` — run alone from `s`, the program performs `ls` and
  returns `a` in `s'`; `Machine.Stops p b s ls b' s'` — it performs `ls` and is stopped in `s'`.

## Main results

* `Machine.returns_bind`, `Machine.Stops.of_bind` — a run of a composition is a run of its
  parts.
-/

namespace Hivebook

/-- A program over the commands `Cmd`, each answered by a `Resp`. -/
inductive Prog (Cmd : Type) (Resp : Cmd → Type) (α : Type) : Type where
  | pure (a : α)
  | call (c : Cmd) (k : Resp c → Prog Cmd Resp α)

namespace Prog

variable {Cmd : Type} {Resp : Cmd → Type} {α β γ : Type}

/-- Sequential composition. -/
def bind : Prog Cmd Resp α → (α → Prog Cmd Resp β) → Prog Cmd Resp β
  | .pure a, f => f a
  | .call c k, f => .call c fun r => (k r).bind f

instance : Monad (Prog Cmd Resp) where
  pure := .pure
  bind := bind

/-- Issuing one command. -/
def issue (c : Cmd) : Prog Cmd Resp (Resp c) := .call c .pure

@[simp] theorem bind_eq (p : Prog Cmd Resp α) (f : α → Prog Cmd Resp β) : p >>= f = p.bind f := rfl

@[simp] theorem pure_eq (a : α) : (Pure.pure a : Prog Cmd Resp α) = .pure a := rfl

@[simp] theorem pure_bind (a : α) (f : α → Prog Cmd Resp β) : (Prog.pure a).bind f = f a := rfl

@[simp] theorem call_bind (c : Cmd) (k : Resp c → Prog Cmd Resp α) (f : α → Prog Cmd Resp β) :
    (Prog.call c k).bind f = .call c fun r => (k r).bind f := rfl

@[simp] theorem issue_bind (c : Cmd) (f : Resp c → Prog Cmd Resp β) :
    (issue c).bind f = .call c f := rfl

theorem bind_assoc (p : Prog Cmd Resp α) (f : α → Prog Cmd Resp β) (h : β → Prog Cmd Resp γ) :
    (p.bind f).bind h = p.bind fun a => (f a).bind h := by
  induction p with
  | pure a => rfl
  | call c k ih => simp only [call_bind, ih]

/-- Interpreting a program by programs over another command set: each command is
replaced by a program that answers it and updates a state. -/
def handle {Cmd' : Type} {Resp' : Cmd' → Type} {S : Type}
    (h : (c : Cmd) → S → Prog Cmd' Resp' (Resp c × S)) :
    Prog Cmd Resp α → S → Prog Cmd' Resp' (α × S)
  | .pure a, s => .pure (a, s)
  | .call c k, s => (h c s).bind fun r => handle h (k r.1) r.2

/-- A program with every command replaced by a program that answers it. -/
def expand {Cmd' : Type} {Resp' : Cmd' → Type} (h : (c : Cmd) → Prog Cmd' Resp' (Resp c)) :
    Prog Cmd Resp α → Prog Cmd' Resp' α
  | .pure a => .pure a
  | .call c k => (h c).bind fun r => expand h (k r)

/-- A program over a part of a command set, as one over the whole. -/
def embed {Cmd' : Type} {Resp' : Cmd' → Type} (f : Cmd → Cmd')
    (answer : ∀ c, Resp' (f c) → Resp c) : Prog Cmd Resp α → Prog Cmd' Resp' α
  | .pure a => .pure a
  | .call c k => .call (f c) fun r => embed f answer (k (answer c r))

/-- Every command the program may issue, whatever the responses, satisfies `U`. -/
def Uses (U : Cmd → Prop) : Prog Cmd Resp α → Prop
  | .pure _ => True
  | .call c k => U c ∧ ∀ r, Uses U (k r)

@[simp] theorem uses_pure (U : Cmd → Prop) (a : α) : (Prog.pure a : Prog Cmd Resp α).Uses U :=
  trivial

theorem Uses.mono {U V : Cmd → Prop} {p : Prog Cmd Resp α} (h : p.Uses U)
    (hUV : ∀ c, U c → V c) : p.Uses V := by
  induction p with
  | pure a => trivial
  | call c k ih => exact ⟨hUV c h.1, fun r => ih r (h.2 r)⟩

theorem Uses.and {U V : Cmd → Prop} {p : Prog Cmd Resp α} (h : p.Uses U) (h' : p.Uses V) :
    p.Uses fun c => U c ∧ V c := by
  induction p with
  | pure a => trivial
  | call c k ih => exact ⟨⟨h.1, h'.1⟩, fun r => ih r (h.2 r) (h'.2 r)⟩

theorem Uses.bind {U : Cmd → Prop} {p : Prog Cmd Resp α} {f : α → Prog Cmd Resp β}
    (h : p.Uses U) (hf : ∀ a, (f a).Uses U) : (p.bind f).Uses U := by
  induction p with
  | pure a => exact hf a
  | call c k ih => exact ⟨h.1, fun r => ih r (h.2 r)⟩

theorem Uses.handle {Cmd' : Type} {Resp' : Cmd' → Type} {S : Type} {U : Cmd' → Prop}
    {h : (c : Cmd) → S → Prog Cmd' Resp' (Resp c × S)} (hh : ∀ c s, (h c s).Uses U)
    (p : Prog Cmd Resp α) (s : S) : (p.handle h s).Uses U := by
  induction p generalizing s with
  | pure a => trivial
  | call c k ih => exact (hh c s).bind fun r => ih r.1 r.2

theorem expand_bind {Cmd' : Type} {Resp' : Cmd' → Type}
    (h : (c : Cmd) → Prog Cmd' Resp' (Resp c)) (p : Prog Cmd Resp α) (q : α → Prog Cmd Resp β) :
    (p.bind q).expand h = (p.expand h).bind fun a => (q a).expand h := by
  induction p with
  | pure a => rfl
  | call c k ih => simp only [call_bind, expand, bind_assoc, ih]

theorem embed_bind {Cmd' : Type} {Resp' : Cmd' → Type} (f : Cmd → Cmd')
    (answer : ∀ c, Resp' (f c) → Resp c) (p : Prog Cmd Resp α) (q : α → Prog Cmd Resp β) :
    (p.bind q).embed f answer = (p.embed f answer).bind fun a => (q a).embed f answer := by
  induction p with
  | pure a => rfl
  | call c k ih => simp only [call_bind, embed, ih]

theorem Uses.embed {Cmd' : Type} {Resp' : Cmd' → Type} {f : Cmd → Cmd'}
    {answer : ∀ c, Resp' (f c) → Resp c} {U : Cmd' → Prop} {p : Prog Cmd Resp α}
    (h : p.Uses fun c => U (f c)) : (p.embed f answer).Uses U := by
  induction p with
  | pure a => trivial
  | call c k ih => exact ⟨h.1, fun r => ih _ (h.2 _)⟩

end Prog

/-! ### Machines -/

/-- A world that performs commands: the environment's choice, whether the context
is cancelled, the state and the command determine the next state and the response. -/
structure Machine (σ χ : Type) (Cmd : Type) (Resp : Cmd → Type) where
  perform : χ → Bool → σ → (c : Cmd) → σ × Resp c

/-- What the environment contributes to one command: it may cancel the context
first, and it makes a choice. -/
structure Turn (χ : Type) where
  cancel : Bool
  choice : χ

/-- One command performed: in which state, by which command, under which choice. -/
structure Performed (σ χ Cmd : Type) where
  state : σ
  cmd : Cmd
  cancelled : Bool
  choice : χ

namespace Machine

variable {σ χ Cmd : Type} {Resp : Cmd → Type} {α β : Type} {M : Machine σ χ Cmd Resp}
  {p : Prog Cmd Resp α} {b : Bool} {s : σ}

/-! ### A program run alone -/

/-- Run alone from a state, the program performs commands and returns. -/
inductive Returns (M : Machine σ χ Cmd Resp) :
    Prog Cmd Resp α → Bool → σ → List (Performed σ χ Cmd) → α → Bool → σ → Prop
  | pure (a : α) (b : Bool) (s : σ) : Returns M (.pure a) b s [] a b s
  | call {c : Cmd} {k : Resp c → Prog Cmd Resp α} {b b' : Bool} {s s' : σ}
      {ls : List (Performed σ χ Cmd)} {a : α} (t : Turn χ) :
      Returns M (k (M.perform t.choice (b || t.cancel) s c).2) (b || t.cancel)
        (M.perform t.choice (b || t.cancel) s c).1 ls a b' s' →
      Returns M (.call c k) b s (⟨s, c, b || t.cancel, t.choice⟩ :: ls) a b' s'

variable {ls : List (Performed σ χ Cmd)} {b' : Bool} {s' : σ}

/-- A program that has returned performs nothing. -/
theorem Returns.of_pure {a r : α} (h : M.Returns (.pure a) b s ls r b' s') :
    ls = [] ∧ r = a ∧ b' = b ∧ s' = s := by
  cases h
  exact ⟨rfl, rfl, rfl, rfl⟩

/-- A program that has a command to perform performs it first. -/
theorem Returns.of_call {c : Cmd} {k : Resp c → Prog Cmd Resp α} {r : α}
    (h : M.Returns (.call c k) b s ls r b' s') : ∃ (t : Turn χ) (ls' : List (Performed σ χ Cmd)),
      ls = ⟨s, c, b || t.cancel, t.choice⟩ :: ls' ∧
      M.Returns (k (M.perform t.choice (b || t.cancel) s c).2) (b || t.cancel)
        (M.perform t.choice (b || t.cancel) s c).1 ls' r b' s' := by
  cases h with
  | call t h => exact ⟨t, _, rfl, h⟩

/-- **A run of a composition is a run of its parts.** -/
theorem returns_bind {f : α → Prog Cmd Resp β} {r : β} :
    M.Returns (p.bind f) b s ls r b' s' ↔ ∃ a b₁ s₁ ls₁ ls₂, ls = ls₁ ++ ls₂ ∧
      M.Returns p b s ls₁ a b₁ s₁ ∧ M.Returns (f a) b₁ s₁ ls₂ r b' s' := by
  constructor
  · intro h
    induction p generalizing b s ls with
    | pure a => exact ⟨a, b, s, [], ls, rfl, .pure a b s, h⟩
    | call c k ih =>
      cases h with
      | call t h =>
        obtain ⟨a, b₁, s₁, ls₁, ls₂, rfl, hp, hf⟩ := ih _ h
        exact ⟨a, b₁, s₁, _ :: ls₁, ls₂, rfl, .call t hp, hf⟩
  · rintro ⟨a, b₁, s₁, ls₁, ls₂, rfl, hp, hf⟩
    induction hp with
    | pure a b s => exact hf
    | call t _ ih => exact .call t (ih hf)

/-- A single command is performed once, and returns what it is answered. -/
theorem Returns.of_issue {c : Cmd} {r : Resp c}
    (h : M.Returns (Prog.issue c) b s ls r b' s') : ∃ t : Turn χ,
      ls = [⟨s, c, b || t.cancel, t.choice⟩] ∧ r = (M.perform t.choice (b || t.cancel) s c).2 ∧
        b' = (b || t.cancel) ∧ s' = (M.perform t.choice (b || t.cancel) s c).1 := by
  obtain ⟨t, ls', rfl, hrest⟩ := Returns.of_call h
  obtain ⟨rfl, rfl, rfl, rfl⟩ := Returns.of_pure hrest
  exact ⟨t, rfl, rfl, rfl, rfl⟩

/-- What the commands of a program keep, a run of it keeps. -/
theorem Returns.keeps {K : σ → Prop} {a : α} (h : M.Returns p b s ls a b' s')
    (hU : p.Uses fun c => ∀ x b s, K s → K (M.perform x b s c).1) (hK : K s) : K s' := by
  induction h with
  | pure a b s => exact hK
  | call t _ ih => exact ih (hU.2 _) (hU.1 _ _ _ hK)

/-- Run alone from a state, the program performs commands and is stopped: it has crashed, or
it has returned. -/
inductive Stops (M : Machine σ χ Cmd Resp) :
    Prog Cmd Resp α → Bool → σ → List (Performed σ χ Cmd) → Bool → σ → Prop
  | here (p : Prog Cmd Resp α) (b : Bool) (s : σ) : Stops M p b s [] b s
  | call {c : Cmd} {k : Resp c → Prog Cmd Resp α} {b b' : Bool} {s s' : σ}
      {ls : List (Performed σ χ Cmd)} (t : Turn χ) :
      Stops M (k (M.perform t.choice (b || t.cancel) s c).2) (b || t.cancel)
        (M.perform t.choice (b || t.cancel) s c).1 ls b' s' →
      Stops M (.call c k) b s (⟨s, c, b || t.cancel, t.choice⟩ :: ls) b' s'

/-- A program that is to issue a command is stopped before it, or issues it. -/
theorem Stops.of_call {c : Cmd} {k : Resp c → Prog Cmd Resp α}
    (h : M.Stops (.call c k) b s ls b' s') : (ls = [] ∧ s' = s) ∨
      ∃ (t : Turn χ) (ls' : List (Performed σ χ Cmd)),
        ls = ⟨s, c, b || t.cancel, t.choice⟩ :: ls' ∧
        M.Stops (k (M.perform t.choice (b || t.cancel) s c).2) (b || t.cancel)
          (M.perform t.choice (b || t.cancel) s c).1 ls' b' s' := by
  cases h with
  | here => exact .inl ⟨rfl, rfl⟩
  | call t h => exact .inr ⟨t, _, rfl, h⟩

/-- A composition is stopped in its first part, or after it has returned. -/
theorem Stops.of_bind {f : α → Prog Cmd Resp β} (h : M.Stops (p.bind f) b s ls b' s') :
    M.Stops p b s ls b' s' ∨ ∃ a b₁ s₁ ls₁ ls₂, ls = ls₁ ++ ls₂ ∧
      M.Returns p b s ls₁ a b₁ s₁ ∧ M.Stops (f a) b₁ s₁ ls₂ b' s' := by
  induction p generalizing b s ls with
  | pure a => exact .inr ⟨a, b, s, [], ls, rfl, .pure a b s, h⟩
  | call c k ih =>
    cases h with
    | here => exact .inl (.here _ _ _)
    | call t h =>
      rcases ih _ h with h | ⟨a, b₁, s₁, ls₁, ls₂, rfl, hp, hf⟩
      · exact .inl (.call t h)
      · exact .inr ⟨a, b₁, s₁, _ :: ls₁, ls₂, rfl, .call t hp, hf⟩

/-- A program that has returned is stopped there. -/
theorem Returns.stops {a : α} (h : M.Returns p b s ls a b' s') : M.Stops p b s ls b' s' := by
  induction h with
  | pure a b s => exact .here _ b s
  | call t _ ih => exact .call t ih

/-- What the commands of a program keep, a run of it keeps, wherever it is stopped. -/
theorem Stops.keeps {K : σ → Prop} (h : M.Stops p b s ls b' s')
    (hU : p.Uses fun c => ∀ x b s, K s → K (M.perform x b s c).1) (hK : K s) : K s' := by
  induction h with
  | here p b s => exact hK
  | call t _ ih => exact ih (hU.2 _) (hU.1 _ _ _ hK)

/-- What the commands of a program keep holds whenever it performs one. -/
theorem Stops.forall_state {K : σ → Prop} (h : M.Stops p b s ls b' s')
    (hU : p.Uses fun c => ∀ x b s, K s → K (M.perform x b s c).1) (hK : K s) :
    ∀ l ∈ ls, K l.state := by
  induction h with
  | here p b s => simp
  | call t _ ih =>
    intro l hl
    rcases List.mem_cons.mp hl with rfl | hl
    · exact hK
    · exact ih (hU.2 _) (hU.1 _ _ _ hK) l hl

/-- The commands performed are among those the program may issue. -/
theorem Stops.forall_cmd {U : Cmd → Prop} (h : M.Stops p b s ls b' s') (hU : p.Uses U) :
    ∀ l ∈ ls, U l.cmd := by
  induction h with
  | here p b s => simp
  | call t _ ih =>
    intro l hl
    rcases List.mem_cons.mp hl with rfl | hl
    · exact hU.1
    · exact ih (hU.2 _) l hl

/-- Running a program alone, turn by turn, until it returns with the last one. -/
def runTurns (M : Machine σ χ Cmd Resp) :
    Prog Cmd Resp α → Bool → σ → List (Turn χ) → Option (List (Performed σ χ Cmd) × α × Bool × σ)
  | .pure a, b, s, [] => some ([], a, b, s)
  | .pure _, _, _, _ :: _ => none
  | .call _ _, _, _, [] => none
  | .call c k, b, s, t :: ts =>
      let r := M.perform t.choice (b || t.cancel) s c
      (runTurns M (k r.2) (b || t.cancel) r.1 ts).map fun q =>
        (⟨s, c, b || t.cancel, t.choice⟩ :: q.1, q.2)

/-- A computed run is a run. -/
theorem returns_of_runTurns {ts : List (Turn χ)} {a : α}
    (h : M.runTurns p b s ts = some (ls, a, b', s')) : M.Returns p b s ls a b' s' := by
  induction ts generalizing p b s ls with
  | nil =>
    cases p with
    | pure a =>
      cases h
      exact .pure _ _ _
    | call c k => cases h
  | cons t ts ih =>
    cases p with
    | pure a => cases h
    | call c k =>
      obtain ⟨⟨ls', r⟩, hrun, heq⟩ := Option.map_eq_some_iff.mp h
      cases heq
      exact .call t (ih hrun)

/-- Running a program alone for some turns, and stopping it there. -/
def stopAfter (M : Machine σ χ Cmd Resp) :
    Prog Cmd Resp α → Bool → σ → List (Turn χ) → List (Performed σ χ Cmd) × Bool × σ
  | .call c k, b, s, t :: ts =>
      let r := M.perform t.choice (b || t.cancel) s c
      let q := stopAfter M (k r.2) (b || t.cancel) r.1 ts
      (⟨s, c, b || t.cancel, t.choice⟩ :: q.1, q.2)
  | _, b, s, _ => ([], b, s)

/-- A computed run is a run that is stopped. -/
theorem stops_stopAfter (M : Machine σ χ Cmd Resp) (p : Prog Cmd Resp α) (b : Bool) (s : σ)
    (ts : List (Turn χ)) : M.Stops p b s (M.stopAfter p b s ts).1 (M.stopAfter p b s ts).2.1
      (M.stopAfter p b s ts).2.2 := by
  induction ts generalizing p b s with
  | nil => cases p <;> exact .here _ b s
  | cons t ts ih =>
    cases p with
    | pure a => exact .here _ b s
    | call c k => exact .call t (ih _ _ _)

/-- A computed run that ends as `P` says is a run that ends so. -/
theorem exists_returns_of_any (M : Machine σ χ Cmd Resp) (p : Prog Cmd Resp α) (b : Bool) (s : σ)
    (ts : List (Turn χ)) (P : List (Performed σ χ Cmd) → α → σ → Bool)
    (h : (M.runTurns p b s ts).any (fun r => P r.1 r.2.1 r.2.2.2) = true) :
    ∃ ls a b' s', M.Returns p b s ls a b' s' ∧ P ls a s' = true := by
  obtain ⟨⟨ls, a, b', s'⟩, hrun, hP⟩ := (Option.any_eq_true _ _).mp h
  exact ⟨ls, a, b', s', returns_of_runTurns hrun, hP⟩

end Machine

end Hivebook
