import Hivebook.Database.Statement
import Hivebook.Connectors.Source
import Hivebook.Lib.Protocol
import Hivebook.Storage
import Hivebook.Workflow.Connection

/-!
# The world the activities and the server act on

The activities and the request handlers are programs over the commands of this
file: a look at the context, a reading of the clock, a database statement, a write
to or a delete from object storage, a request to a source, a signal to a workflow.

Outside the program everything is up to a `Choice`: how much time passes, whether a
write is refused, or takes effect and its answer is lost, and what a source
answers.  A command issued on a cancelled context has no effect and fails with
`context.Canceled`.

## Main definitions

* `World` — the database, the objects in storage, and the time.
* `Cmd`, `Cmd.Resp` — the commands and their responses.
* `Outcome`, `Choice` — what the environment decides.
* `service` — the machine that performs the commands.
* `carriesOut p` — the command is a statement with the property `p`, and takes effect.

## Main results

* `service_state`, `service_statement`, `returns_statement` — what a command leaves
  behind, and what a statement answers.
* `carriesOut_perform` — what a statement does to a fact about the database, a command does.
-/

namespace Hivebook

open Storage Connectors

/-- The database, object storage and the clock. -/
structure World where
  db : Database
  /-- The objects, by bucket and key. -/
  objects : String × String → Option StoredObject
  now : Time

/-- The commands of the activities and the request handlers. -/
inductive Cmd where
  /-- `ctx.Err() != nil`. -/
  | ctxErr
  /-- `time.Now()`. -/
  | clock
  | statement (s : Statement)
  | putObject (bucket key contentType : String) (body : Bytes)
  /-- An object that is already gone counts as deleted. -/
  | deleteObject (bucket key : String)
  | request (q : Request)
  /-- A signal to the workflow of a connection. -/
  | signalWorkflow (connectionID : Uuid) (x : Workflow.Signal)
  deriving DecidableEq, Repr

/-- The responses to the commands. -/
@[reducible] def Cmd.Resp : Cmd → Type
  | .ctxErr => Bool
  | .clock => Time
  | .statement s => Except Err s.Reply
  | .putObject _ _ _ _ | .deleteObject _ _ | .signalWorkflow _ _ => Except Err Unit
  | .request q => Except Err q.Reply

/-- A program of the service. -/
abbrev Program (α : Type) := Prog Cmd Cmd.Resp α

/-- How a statement or a storage write fares. -/
inductive Outcome where
  | applied
  /-- It has no effect and fails. -/
  | refused (text : String)
  /-- It takes effect, and yet the caller sees a failure. -/
  | lost (text : String)
  deriving DecidableEq, Repr

/-- What the environment decides about one command. -/
structure Choice where
  outcome : Outcome
  /-- How much time passes up to the moment the command is performed. -/
  elapsed : Time
  /-- What a source answers. -/
  answer : (q : Request) → Except Err q.Reply

namespace Choice

/-- A write takes effect unless its context is cancelled or it is refused. -/
def takesEffect (x : Choice) (cancelled : Bool) : Bool :=
  !cancelled && match x.outcome with
    | .refused _ => false
    | .applied | .lost _ => true

/-- What the caller of a write sees, given what it answers when all is well. -/
def reply {α : Type} (x : Choice) (cancelled : Bool) (r : Except Err α) : Except Err α :=
  if cancelled then .error .canceled
  else match x.outcome with
    | .applied => r
    | .refused text | .lost text => .error (.failed text)

end Choice

/-- Time passes. -/
def World.tick (w : World) (d : Time) : World := { w with now := w.now + d }

/-- What a command leaves behind when it takes effect. -/
def Cmd.effect (w : World) : Cmd → World
  | .statement s => { w with db := (s.exec w.now w.db).2 }
  | .putObject bucket key contentType body =>
      { w with objects := Function.update w.objects (bucket, key) (some ⟨contentType, body⟩) }
  | .deleteObject bucket key =>
      { w with objects := Function.update w.objects (bucket, key) none }
  | .ctxErr | .clock | .request _ | .signalWorkflow _ _ => w

/-- What a command is answered, in the world it is performed in. -/
def Cmd.answer (x : Choice) (cancelled : Bool) (w : World) : (c : Cmd) → c.Resp
  | .ctxErr => cancelled
  | .clock => w.now
  | .statement s => x.reply cancelled (s.exec w.now w.db).1
  | .putObject _ _ _ _ | .deleteObject _ _ | .signalWorkflow _ _ => x.reply cancelled (.ok ())
  | .request q => if cancelled then .error .canceled else x.answer q

/-- The machine of the service: time passes, then the command is performed. -/
def service : Machine World Choice Cmd Cmd.Resp where
  perform x cancelled w c :=
    (if x.takesEffect cancelled then c.effect (w.tick x.elapsed) else w.tick x.elapsed,
      c.answer x cancelled (w.tick x.elapsed))

/-- When a command was performed. -/
def performedAt (l : Performed World Choice Cmd) : Time := l.state.now + l.choice.elapsed

/-- Whether a command took effect. -/
def tookEffect (l : Performed World Choice Cmd) : Bool := l.choice.takesEffect l.cancelled

/-- The command is a statement that takes effect and satisfies the condition. -/
def carriesOut (p : Database → Statement → Bool) (l : Performed World Choice Cmd) : Bool :=
  tookEffect l && match l.cmd with
    | .statement s => p l.state.db s
    | _ => false

/-! ### Issuing commands -/

/-- `ctx.Err() != nil`. -/
def ctxErr : Program Bool := Prog.issue Cmd.ctxErr

/-- `time.Now()`. -/
def clock : Program Time := Prog.issue Cmd.clock

/-- A statement. -/
def statement (s : Statement) : Program (Except Err s.Reply) := Prog.issue (Cmd.statement s)

/-- A request to a source. -/
def request (q : Request) : Program (Except Err q.Reply) := Prog.issue (Cmd.request q)

/-- A signal to the workflow of a connection. -/
def signalWorkflow (connectionID : Uuid) (x : Workflow.Signal) : Program (Except Err Unit) :=
  Prog.issue (Cmd.signalWorkflow connectionID x)

/-- `Store.Put`: the body goes under `<tenant-id>/<key>`; answers the stored key. -/
def putObject (env connector region tenantID key contentType : String) (body : Bytes) :
    Program (Except Err String) := do
  let bucket := Storage.bucket env connector region
  let object := tenantID ++ "/" ++ key
  match ← (Prog.issue (Cmd.putObject bucket object contentType body) : Program _) with
  | .error e => return .error (.failed ("put object: " ++ e.error))
  | .ok _ => return .ok (bucket ++ "/" ++ object)

/-- `Store.Delete`, by the stored key. -/
def deleteObject (storedKey : String) : Program (Except Err Unit) :=
  match cut storedKey with
  | none => return .error (.failed ("malformed object key " ++ storedKey.quote))
  | some (bucket, object) => do
      match ← (Prog.issue (Cmd.deleteObject bucket object) : Program _) with
      | .error e => return .error (.failed ("delete object: " ++ e.error))
      | .ok _ => return .ok ()

/-! ### What a command does -/

variable (x : Choice) (cancelled : Bool) (w : World)

/-- What a command leaves behind. -/
theorem service_state (c : Cmd) : (service.perform x cancelled w c).1 =
    if x.takesEffect cancelled then c.effect (w.tick x.elapsed) else w.tick x.elapsed := rfl

/-- What a statement answers. -/
theorem service_statement (s : Statement) : (service.perform x cancelled w (.statement s)).2 =
    x.reply cancelled (s.exec (w.now + x.elapsed) w.db).1 := rfl

/-- A write without effect is answered by an error. -/
theorem reply_error_of_not_takesEffect {x : Choice} {cancelled : Bool} {α : Type}
    (h : x.takesEffect cancelled = false) (r : Except Err α) :
    ∃ e, x.reply cancelled r = .error e := by
  unfold Choice.takesEffect at h
  unfold Choice.reply
  cases cancelled with
  | true => exact ⟨_, rfl⟩
  | false =>
    cases hx : x.outcome with
    | refused text => exact ⟨_, rfl⟩
    | applied => rw [hx] at h; cases h
    | lost text => rw [hx] at h; cases h

/-- A statement or write that is answered well has taken effect, and the answer is its
own. -/
theorem of_reply_eq_ok {x : Choice} {cancelled : Bool} {α : Type} {r : Except Err α} {a : α}
    (h : x.reply cancelled r = .ok a) : x.takesEffect cancelled = true ∧ r = .ok a := by
  unfold Choice.reply at h
  unfold Choice.takesEffect
  cases cancelled with
  | true => cases h
  | false =>
    cases hx : x.outcome with
    | applied => exact ⟨rfl, by simpa [hx] using h⟩
    | refused text => simp [hx] at h
    | lost text => simp [hx] at h

/-- No failure of a command is told as an answer without rows. -/
theorem of_reply_eq_noRows {x : Choice} {cancelled : Bool} {α : Type} {r : Except Err α}
    (h : x.reply cancelled r = .error .noRows) : r = .error .noRows := by
  unfold Choice.reply at h
  cases cancelled with
  | true => cases h
  | false =>
    cases hx : x.outcome with
    | applied => simpa [hx] using h
    | refused text => simp [hx] at h
    | lost text => simp [hx] at h

/-- A program whose next command is a statement goes on with what it is answered. -/
theorem returns_statement {α : Type} {s : Statement} {f : Except Err s.Reply → Program α}
    {b b' : Bool} {w w' : World} {ls : List (Performed World Choice Cmd)} {r : α}
    (h : service.Returns ((statement s).bind f) b w ls r b' w') :
    ∃ x b₁ reply ls₁, x.reply b₁ (s.exec (w.now + x.elapsed) w.db).1 = reply ∧
      service.Returns (f reply) b₁ (service.perform x b₁ w (.statement s)).1 ls₁ r b' w' := by
  obtain ⟨t, ls₁, -, hrest⟩ := Machine.Returns.of_call h
  exact ⟨t.choice, b || t.cancel, _, ls₁, rfl, hrest⟩

/-- A program whose next command is a statement is stopped before it, or goes on with what it
is answered. -/
theorem stops_statement {α : Type} {s : Statement} {f : Except Err s.Reply → Program α}
    {b b' : Bool} {w w' : World} {ls : List (Performed World Choice Cmd)}
    (h : service.Stops ((statement s).bind f) b w ls b' w') : (ls = [] ∧ w' = w) ∨
      ∃ x b₁ reply ls₁, x.reply b₁ (s.exec (w.now + x.elapsed) w.db).1 = reply ∧
        ls = ⟨w, .statement s, b₁, x⟩ :: ls₁ ∧
        service.Stops (f reply) b₁ (service.perform x b₁ w (.statement s)).1 ls₁ b' w' := by
  rcases Machine.Stops.of_call h with hstop | ⟨t, ls₁, rfl, hrest⟩
  · exact .inl hstop
  · exact .inr ⟨t.choice, b || t.cancel, _, ls₁, rfl, rfl, hrest⟩

/-- A statement that was answered has been performed once. -/
theorem log_statement {s : Statement} {r : (Cmd.statement s).Resp}
    {ls : List (Performed World Choice Cmd)}
    (h : Log service (statement s) ls (.pure r)) : ∃ l, ls = [l] ∧ l.cmd = .statement s ∧
      l.choice.reply l.cancelled (s.exec (performedAt l) l.state.db).1 = r := by
  rcases Log.of_call h with ⟨-, heq⟩ | ⟨w, b, x, ls', rfl, hrest⟩
  · cases heq
  · obtain ⟨rfl, heq⟩ := hrest.of_pure
    cases heq
    exact ⟨⟨w, .statement s, b, x⟩, rfl, rfl, rfl⟩

/-- The time after a command. -/
theorem service_now (c : Cmd) : (service.perform x cancelled w c).1.now = w.now + x.elapsed := by
  rw [service_state]
  by_cases h : x.takesEffect cancelled = true
  · rw [if_pos h]
    cases c <;> rfl
  · rw [if_neg h]
    rfl

/-- The database after a command: a statement that takes effect changes it. -/
theorem service_db (c : Cmd) : (service.perform x cancelled w c).1.db =
    match c with
    | .statement s =>
        if x.takesEffect cancelled then (s.exec (w.now + x.elapsed) w.db).2 else w.db
    | _ => w.db := by
  rw [service_state]
  by_cases h : x.takesEffect cancelled = true
  · rw [if_pos h]
    cases c <;> simp [Cmd.effect, World.tick, h]
  · rw [if_neg h]
    cases c <;> simp [World.tick, h]

variable {x cancelled w} in
/-- What a statement does to a fact about the database, a command does when it is carried out. -/
theorem carriesOut_perform {f : Database → Bool} {p q : Database → Statement → Bool}
    (hexec : ∀ now db s, f (s.exec now db).2 = (p db s || f db && !q db s)) (c : Cmd) :
    f (service.perform x cancelled w c).1.db =
      (carriesOut p ⟨w, c, cancelled, x⟩ || f w.db && !carriesOut q ⟨w, c, cancelled, x⟩) := by
  rw [service_db]
  unfold carriesOut tookEffect
  cases c with
  | statement s =>
    dsimp only
    by_cases heff : x.takesEffect cancelled = true
    · rw [if_pos heff, hexec, heff, Bool.true_and, Bool.true_and]
    · rw [if_neg heff, Bool.eq_false_iff.mpr heff]
      simp
  | _ => simp

end Hivebook
