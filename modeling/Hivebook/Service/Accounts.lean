import Hivebook.Database.Tokens
import Hivebook.Lib.Threads
import Hivebook.Service.Jobs

/-!
# Accounts and connections

A connect flow over OAuth keys the row of the connection on the label of the account, and looks
the label up with the new token.  A lookup that fails leaves the label blank, and the flow goes on:
the row is then keyed on the empty text.  Two accounts whose lookups both fail are one connection.

Two such flows run side by side with any programs of the service.  No statement takes a connection
away or changes its key, so the rows the two flows have answered are compared at the end of the
run, by their keys.

## Main definitions

* `Connecting`, `Connecting.prog` — connect flows, and any other program.
* `Enrolment`, `enrolling` — what a flow has learned and stored; `lookedUp` — the answer of its
  lookup.
* `Tells` — a lookup is answered with the label of the account.

## Main results

* `Enrolled.perform` — what was upserted stays, with its id and its key.
* `distinct_accounts_iff` — **two accounts are two connections exactly when one of the lookups has
  left a label.**
* `mixed_accounts` — two accounts with one row.
-/

namespace Hivebook

open Database Server Connectors

/-! ### The flows -/

/-- What runs: connect flows, and any other program of the service. -/
inductive Connecting where
  | complete (state code installationID : String)
  | other (p : Program Unit)

/-- The programs; only a connect flow has an answer. -/
def Connecting.prog (sv : Server) : Connecting → Program (Option (Except RpcError Connection))
  | .complete state code inst =>
      (sv.completeConnection state code inst).bind fun r => .pure (some r)
  | .other p => p.bind fun _ => .pure none

/-- What a program has learned and stored of an account. -/
structure Enrolment where
  /-- The answer of the last lookup of an account. -/
  looked : Option (Except Err String)
  /-- What was upserted last, and the row. -/
  saved : Option (UpsertConnectionParams × Connection)

/-- The enrolment of a program that starts. -/
def Enrolment.init : Enrolment := { looked := none, saved := none }

/-- How a response moves the enrolment on. -/
def Enrolment.next (g : Enrolment) : (c : Cmd) → c.Resp → Enrolment
  | .request (.account _), r => { g with looked := some r }
  | .statement (.upsertConnection p), .ok row => { g with saved := some (p, row) }
  | _, _ => g

/-- The protocol that takes notes of an enrolment. -/
def enrolling : Protocol Enrolment Cmd Cmd.Resp where
  allowed _ _ := True
  next := Enrolment.next

/-- The answer of the account lookup in the commands of a flow. -/
def lookedUp (ls : List (Performed World Choice Cmd)) : Option (Except Err String) :=
  (enrolling.after service .init ls).looked

/-- A lookup that is answered is answered with the label of the account. -/
def Tells {Account : Type} (label : Account → String) (a : Account) (out : Except Err String) :
    Prop :=
  ∀ x, out = .ok x → x = label a

/-- The state of the pool in which they run. -/
abbrev ConnectPool := Machine.Pool World Cmd Cmd.Resp (Option (Except RpcError Connection))

/-- The row a flow has answered. -/
def answered (s : ConnectPool) (i : ℕ) : Option Connection :=
  match s.threads[i]? with
  | some ⟨.pure (some (.ok row)), _⟩ => some row
  | _ => none

/-! ### What a flow has stored when it answers -/

/-- The row that is answered was upserted under the label that was looked up. -/
def Labelled (row : Connection) (g : Enrolment) : Prop :=
  ∃ p, g.saved = some (p, row) ∧ ∀ out, g.looked = some out → p.externalID = accountLabel out

/-- The rows a flow answers are labelled. -/
abbrev Enrols (g : Enrolment) (p : Program (Except RpcError Connection)) : Prop :=
  p.Follows enrolling (fun r g => ∀ row, r = .ok row → Labelled row g) g

theorem enrols_error (g : Enrolment) (e : RpcError) : Enrols g (.pure (.error e)) := by
  intro row h
  cases h

theorem enrols_saveConnection {g : Enrolment} {p : UpsertConnectionParams}
    (hlabel : ∀ out, g.looked = some out → p.externalID = accountLabel out) :
    Enrols g (saveConnection p) := by
  refine ⟨trivial, ?_⟩
  intro r
  cases r with
  | error e => exact enrols_error _ _
  | ok row =>
    -- what follows the upsert neither looks up nor upserts
    refine ⟨trivial, fun _ => ⟨trivial, fun _ => ?_⟩⟩
    intro row' h
    obtain rfl := Except.ok.inj h
    exact ⟨p, rfl, hlabel⟩

theorem enrols_completeOAuth (sv : Server) (st : OAuthState) (connector : Connector)
    (code : String) (g : Enrolment) : Enrols g (sv.completeOAuth st connector code) := by
  refine ⟨trivial, ?_⟩
  intro r
  cases r with
  | error e => exact enrols_error _ _
  | ok tok =>
    refine ⟨trivial, ?_⟩
    intro out
    dsimp only [Prog.pure_bind]
    split
    · apply enrols_saveConnection
      intro out' hout
      obtain rfl := Option.some.inj hout
      rfl
    · exact enrols_error _ _

theorem enrols_completeConnection (sv : Server) (state code inst : String) :
    Enrols .init (sv.completeConnection state code inst) := by
  refine ⟨trivial, ?_⟩
  intro now
  dsimp only [Prog.pure_bind]
  split
  · exact enrols_error _ _
  · split
    · exact enrols_error _ _
    · split
      · -- an installation looks no account up
        unfold completeInstallation
        split
        · exact enrols_error _ _
        · refine ⟨trivial, fun _ => ?_⟩
          apply enrols_saveConnection
          intro out hout
          cases hout
      · exact enrols_completeOAuth sv _ _ code _

theorem follows_enrolling {α : Type} (p : Program α) (g : Enrolment) :
    p.Follows enrolling (fun _ _ => True) g := by
  induction p generalizing g with
  | pure a => trivial
  | call c k ih => exact ⟨trivial, fun r => ih r _⟩

/-- Whatever runs takes its notes, and a row that is answered is labelled. -/
theorem Connecting.follows (sv : Server) (j : Connecting) :
    (j.prog sv).Follows enrolling
      (fun r g => ∀ row, r = some (.ok row) → Labelled row g) .init := by
  cases j with
  | complete state code inst =>
    refine (enrols_completeConnection sv state code inst).bind ?_
    intro r g hr row h
    exact hr row (Option.some.inj h)
  | other p =>
    refine (follows_enrolling p .init).bind ?_
    intro _ g _ row h
    cases h

/-! ### What was upserted stays -/

/-- An upsert is answered with the row of its key. -/
theorem of_upsertConnection {p : UpsertConnectionParams} {db : Database} {row : Connection}
    (h : (upsertConnection p db).1 = .ok row) :
    row ∈ (upsertConnection p db).2.connections.rows ∧ row.key = (p.new 0).key := by
  unfold upsertConnection one at h
  dsimp only at h
  split at h
  · rename_i row' hrow
    obtain rfl := Except.ok.inj h
    exact ⟨List.mem_of_find?_eq_some hrow, by simpa using List.find?_some hrow⟩
  · cases h

/-- A command leaves every connection in place, with its id and its key. -/
theorem exists_connection_perform (x : Choice) (b : Bool) {w : World} (c : Cmd) {row : Connection}
    (hrow : row ∈ w.db.connections.rows) :
    ∃ row' ∈ (service.perform x b w c).1.db.connections.rows,
      row'.id = row.id ∧ row'.key = row.key := by
  rw [service_state]
  split
  · cases c with
    | statement st =>
      obtain ⟨row', hrow', hid, hkey, -⟩ := refreshToken_exec (w.tick x.elapsed).now st hrow
      exact ⟨row', hrow', hid, hkey⟩
    | _ => exact ⟨row, hrow, rfl, rfl⟩
  · exact ⟨row, hrow, rfl, rfl⟩

/-- What was upserted, it was before or it is now. -/
theorem saved_next {g : Enrolment} {x : Choice} {b : Bool} {w : World} {c : Cmd}
    {p : UpsertConnectionParams} {row : Connection}
    (h : (g.next c (service.perform x b w c).2).saved = some (p, row)) :
    g.saved = some (p, row) ∨ c = .statement (.upsertConnection p) ∧
      x.reply b (upsertConnection p w.db).1 = .ok row := by
  cases c with
  | statement st =>
    cases st with
    | upsertConnection p' =>
      rw [service_statement] at h
      change (g.next (.statement (.upsertConnection p'))
        (x.reply b (upsertConnection p' w.db).1)).saved = _ at h
      cases hr : x.reply b (upsertConnection p' w.db).1 with
      | error e =>
        rw [hr] at h
        exact .inl h
      | ok row' =>
        rw [hr] at h
        cases h
        exact .inr ⟨rfl, hr⟩
    | _ => exact .inl h
  | request q => cases q <;> exact .inl h
  | _ => exact .inl h

/-- Every upsert of a program has left a row with its id and its key. -/
def Enrolled (w : World) (g : Enrolment) : Prop :=
  ∀ p row, g.saved = some (p, row) → row.key = (p.new 0).key ∧
    ∃ row' ∈ w.db.connections.rows, row'.id = row.id ∧ row'.key = row.key

/-- **What was upserted stays**, whatever is performed next. -/
theorem Enrolled.perform {g : Enrolment} {w : World} (hg : Enrolled w g) (x : Choice) (b : Bool)
    (c : Cmd) : Enrolled (service.perform x b w c).1 g := by
  intro p row hsaved
  obtain ⟨hkey, row', hrow', hid', hkey'⟩ := hg p row hsaved
  obtain ⟨row'', hrow'', hid'', hkey''⟩ := exists_connection_perform x b c hrow'
  exact ⟨hkey, row'', hrow'', hid''.trans hid', hkey''.trans hkey'⟩

theorem Enrolled.next {g : Enrolment} {w : World} (hg : Enrolled w g) (x : Choice) (b : Bool)
    (c : Cmd) :
    Enrolled (service.perform x b w c).1 (g.next c (service.perform x b w c).2) := by
  intro p row hsaved
  obtain hold | ⟨rfl, hreply⟩ := saved_next hsaved
  · exact hg.perform x b c p row hold
  · obtain ⟨heffect, hupsert⟩ := of_reply_eq_ok hreply
    obtain ⟨hmem, hkey⟩ := of_upsertConnection hupsert
    refine ⟨hkey, row, ?_, rfl, rfl⟩
    rw [service_state, if_pos heffect]
    exact hmem

/-! ### Two flows -/

variable {sv : Server} {w : World} {es : List (Machine.PoolEvent Connecting Choice)}
  {s : ConnectPool} {tr : List (ℕ × Performed World Choice Cmd)}

theorem threads_enrolled (h : (service.threads (Connecting.prog sv)).Run ⟨w, []⟩ es s tr) (i : ℕ) :
    Enrolled s.world (enrolling.after service .init (byThread i tr)) := by
  have hinv : ∀ i, Enrolled s.world (enrolling.after service .init (byThread i tr)) := by
    refine Machine.threads_invariant
      (J := fun w tr => ∀ i, Enrolled w (enrolling.after service .init (byThread i tr))) h
      (Connecting.follows sv) ?_ ?_
    · intro i p row hsaved
      cases hsaved
    · intro s tr i t c k b _ _ _ hJ i'
      by_cases hi : i = i'
      · subst hi
        rw [byThread_snoc_self, Protocol.after_snoc]
        exact (hJ i).next t.choice (b || t.cancel) c
      · rw [byThread_snoc_of_ne hi]
        exact (hJ i').perform t.choice (b || t.cancel) c
  exact hinv i

/-- A flow that has answered a row has it under the label that it has looked up. -/
theorem labelled_of_answered (h : (service.threads (Connecting.prog sv)).Run ⟨w, []⟩ es s tr)
    {i : ℕ} {row : Connection} (hrow : answered s i = some row) :
    Labelled row (enrolling.after service .init (byThread i tr)) := by
  unfold answered at hrow
  split at hrow
  · rename_i row' b hthread
    obtain rfl := Option.some.inj hrow
    obtain ⟨j, hlog⟩ := (Machine.threads_log h).2 i _ hthread
    exact hlog.follows (Connecting.follows sv j) row' rfl
  · cases hrow

/-- The rows of two flows are one row exactly when they have one key. -/
theorem answered_id_iff (h : (service.threads (Connecting.prog sv)).Run ⟨w, []⟩ es s tr)
    {i i' : ℕ} {row row' : Connection} (hrow : answered s i = some row)
    (hrow' : answered s i' = some row') : row.id = row'.id ↔ row.key = row'.key := by
  obtain ⟨p, hsaved, -⟩ := labelled_of_answered h hrow
  obtain ⟨p', hsaved', -⟩ := labelled_of_answered h hrow'
  obtain ⟨-, c, hc, hid, hkey⟩ := threads_enrolled h i p row hsaved
  obtain ⟨-, c', hc', hid', hkey'⟩ := threads_enrolled h i' p' row' hsaved'
  rw [← hid, ← hid', ← hkey, ← hkey']
  constructor
  · intro heq
    rw [s.world.db.connections.eq_of_id hc hc' heq]
  · intro heq
    rw [s.world.db.connections.eq_of_key hc hc' heq]

/-- Two flows of one tenant and one connector, with tokens of two accounts, answer two rows exactly
when one of the lookups has left a label. -/
theorem distinct_accounts_iff {Account : Type} {label : Account → String}
    (hlabel : ∀ a a', label a = label a' → label a ≠ "" → a = a')
    (h : (service.threads (Connecting.prog sv)).Run ⟨w, []⟩ es s tr) {i i' : ℕ}
    {row row' : Connection} (hrow : answered s i = some row) (hrow' : answered s i' = some row')
    (htenant : row.tenantID = row'.tenantID) (hconnector : row.connectorID = row'.connectorID)
    {a a' : Account} (haccounts : a ≠ a') {out out' : Except Err String}
    (hout : lookedUp (byThread i tr) = some out) (hout' : lookedUp (byThread i' tr) = some out')
    (htells : Tells label a out) (htells' : Tells label a' out') :
    row.id ≠ row'.id ↔ ¬ (accountLabel out = "" ∧ accountLabel out' = "") := by
  obtain ⟨p, hsaved, hp⟩ := labelled_of_answered h hrow
  obtain ⟨p', hsaved', hp'⟩ := labelled_of_answered h hrow'
  have hkey := (threads_enrolled h i p row hsaved).1
  have hkey' := (threads_enrolled h i' p' row' hsaved').1
  have hexternal : row.externalID = accountLabel out := by
    rw [← hp out hout]
    exact congrArg (fun k => k.2.2) hkey
  have hexternal' : row'.externalID = accountLabel out' := by
    rw [← hp' out' hout']
    exact congrArg (fun k => k.2.2) hkey'
  have hsame : row.key = row'.key ↔ accountLabel out = accountLabel out' := by
    simp only [Connection.key, Prod.mk.injEq, htenant, hconnector, true_and, hexternal, hexternal']
  rw [not_iff_not, answered_id_iff h hrow hrow', hsame]
  constructor
  · -- two lookups that leave one label leave none
    intro heq
    by_contra hblank
    have hne : accountLabel out ≠ "" := fun hnil => hblank ⟨hnil, heq ▸ hnil⟩
    have hne' : accountLabel out' ≠ "" := heq ▸ hne
    cases out with
    | error e => exact hne rfl
    | ok x =>
      cases out' with
      | error e => exact hne' rfl
      | ok x' =>
        obtain rfl := htells x rfl
        obtain rfl := htells' x' rfl
        exact haccounts (hlabel a a' heq hne)
  · rintro ⟨hblank, hblank'⟩
    rw [hblank, hblank']

/-! ### Ann and Bob connect -/

/-- A provider that issues a token, and answers a lookup as given. -/
def signsIn (token : String) (account : Except Err String) : (q : Request) → Except Err q.Reply
  | .exchange _ _ => .ok { accessToken := token, refreshToken := "", expiry := none }
  | .account _ => account
  | _ => .error (.failed "unreachable")

/-- The commands of a flow; nothing else fails. -/
def signInTurns (i : ℕ) (token : String) (account : Except Err String) :
    List (Machine.PoolEvent Connecting Choice) :=
  List.replicate 6 (.turn i ⟨false, quietly (signsIn token account)⟩)

/-- Ann connects, and then Bob; only his lookup may succeed. -/
def annThenBob (bob : Except Err String) : List (Machine.PoolEvent Connecting Choice) :=
  [.start (.complete "" "code" ""), .start (.complete "" "code" "")] ++
    signInTurns 0 "ann" (.error (.failed "status 502")) ++ signInTurns 1 "bob" bob

/-- A service with no connections. -/
def noConnections : World := { db := .empty, objects := fun _ => none, now := 5 }

/-- Whether the two have answered rows of one tenant and connector, and what was looked up. -/
def bothAnswered (s : ConnectPool) (tr : List (ℕ × Performed World Choice Cmd))
    (P : Connection → Connection → Except Err String → Except Err String → Bool) : Bool :=
  (answered s 0).any fun row => (answered s 1).any fun row' =>
    (lookedUp (byThread 0 tr)).any fun out => (lookedUp (byThread 1 tr)).any fun out' =>
      decide (row.tenantID = row'.tenantID ∧ row.connectorID = row'.connectorID) &&
        P row row' out out'

theorem of_bothAnswered {s : ConnectPool} {tr : List (ℕ × Performed World Choice Cmd)}
    {P : Connection → Connection → Except Err String → Except Err String → Bool}
    (h : bothAnswered s tr P = true) : ∃ row row' out out', answered s 0 = some row ∧
      answered s 1 = some row' ∧ lookedUp (byThread 0 tr) = some out ∧
      lookedUp (byThread 1 tr) = some out' ∧ row.tenantID = row'.tenantID ∧
      row.connectorID = row'.connectorID ∧ P row row' out out' = true := by
  unfold bothAnswered at h
  obtain ⟨row, hrow, h⟩ := (Option.any_eq_true _ _).mp h
  obtain ⟨row', hrow', h⟩ := (Option.any_eq_true _ _).mp h
  obtain ⟨out, hout, h⟩ := (Option.any_eq_true _ _).mp h
  obtain ⟨out', hout', h⟩ := (Option.any_eq_true _ _).mp h
  obtain ⟨hsame, hP⟩ := Bool.and_eq_true_iff.mp h
  obtain ⟨htenant, hconnector⟩ := of_decide_eq_true hsame
  exact ⟨row, row', out, out', hrow, hrow', hout, hout', htenant, hconnector, hP⟩

/-- The lookup has failed. -/
def lookupFailed (out : Except Err String) : Bool :=
  match out with
  | .ok _ => false
  | .error _ => true

/-- **Two accounts whose lookups fail are one connection**: one row is left. -/
theorem mixed_accounts : ∃ (s : ConnectPool) (tr : List (ℕ × Performed World Choice Cmd))
    (row row' : Connection) (out out' : Except Err String),
    (service.threads (Connecting.prog driveServer)).Run ⟨noConnections, []⟩
      (annThenBob (.error (.failed "status 502"))) s tr ∧
    answered s 0 = some row ∧ answered s 1 = some row' ∧
    row.tenantID = row'.tenantID ∧ row.connectorID = row'.connectorID ∧
    lookedUp (byThread 0 tr) = some out ∧ lookedUp (byThread 1 tr) = some out' ∧
    lookupFailed out = true ∧ lookupFailed out' = true ∧
    row.id = row'.id ∧ s.world.db.connections.rows = [row'] := by
  obtain ⟨s, tr, hrun, hend⟩ := Lts.exists_run_of_any
    (service.threads (Connecting.prog driveServer)) ⟨noConnections, []⟩
    (annThenBob (.error (.failed "status 502")))
    (fun s tr => bothAnswered s tr fun row row' out out' => lookupFailed out && lookupFailed out' &&
      decide (row.id = row'.id ∧ s.world.db.connections.rows = [row']))
    (by decide +kernel)
  obtain ⟨row, row', out, out', hrow, hrow', hout, hout', htenant, hconnector, hP⟩ :=
    of_bothAnswered hend
  simp only [Bool.and_eq_true, decide_eq_true_eq] at hP
  exact ⟨s, tr, row, row', out, out', hrun, hrow, hrow', htenant, hconnector, hout, hout',
    hP.1.1, hP.1.2, hP.2.1, hP.2.2⟩

/-- If the lookup of the second succeeds, they are two. -/
theorem separate_accounts : ∃ (s : ConnectPool) (row row' : Connection),
    answered s 0 = some row ∧ answered s 1 = some row' ∧ row.id ≠ row'.id := by
  obtain ⟨s, tr, hrun, hend⟩ := Lts.exists_run_of_any
    (service.threads (Connecting.prog driveServer)) ⟨noConnections, []⟩
    (annThenBob (.ok "bob@acme"))
    (fun s tr => bothAnswered s tr fun _ _ out out' => lookupFailed out &&
      match out' with
      | .ok x => decide (x = "bob@acme")
      | .error _ => false)
    (by decide +kernel)
  obtain ⟨row, row', out, out', hrow, hrow', hout, hout', htenant, hconnector, hP⟩ :=
    of_bothAnswered hend
  obtain ⟨hfailed, hbob⟩ := Bool.and_eq_true_iff.mp hP
  have htells : Tells id "ann@acme" out := by
    intro x hx
    rw [hx] at hfailed
    cases hfailed
  have htells' : Tells id "bob@acme" out' := by
    intro x hx
    rw [hx] at hbob
    exact of_decide_eq_true hbob
  have hlabel : accountLabel out' ≠ "" := by
    cases out' with
    | ok x =>
      obtain rfl := htells' x rfl
      decide
    | error e => cases hbob
  have hdistinct := distinct_accounts_iff (fun a a' h _ => h) hrun hrow hrow' htenant hconnector
    (by decide) hout hout' htells htells'
  exact ⟨s, row, row', hrow, hrow', hdistinct.mpr fun hboth => hlabel hboth.2⟩

end Hivebook
