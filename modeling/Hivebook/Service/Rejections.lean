import Hivebook.Connectors.Rejections
import Hivebook.Lib.Threads
import Hivebook.Service.Discovery
import Hivebook.Service.Inventory

/-!
# Who rejected the credentials

`classify` sets a connection to `needs_reauth` when a call of the source fails with an auth error,
and from then on nothing is synced until the user reconnects.  The choices of the environment are
refined here down to the responses of the source, so that every mark is traced to the response
behind it.

On a connection over an installation token it is the last response before the mark, and its
status is 401, unless it was the mint of the token that was answered 403.

## Main definitions

* `online` — the service, over the wire.
* `ReauthOn401` — every mark follows a 401; `mintForbidden` — the mint is answered 403.
* `rejecting` — the protocol of a program that marks a connection for what it was told.

## Main results

* `rejected_statement` — no statement is answered by a rejection of the source.
* `follows_syncLoaded`, `follows_discoverLoaded` — **the activities mark a connection only for what
  they were told.**
* `source_calls_alike` — the calls agree exactly on the responses that are neither 403 nor 429, nor
  a success of one of them; and every mark follows a 401 where no mint is answered 403.
-/

namespace Hivebook

open Connectors Machine

/-! ### The service over the wire -/

/-- What the environment decides about one command, down to the responses of the source. -/
structure WireChoice where
  outcome : Outcome
  /-- How much time passes up to the moment the command is performed. -/
  elapsed : Time
  /-- What comes over the wire. -/
  response : Request → Except TransportError HttpResponse

/-- The choice the service sees. -/
def WireChoice.choice (d : Decoding) (x : WireChoice) : Choice where
  outcome := x.outcome
  elapsed := x.elapsed
  answer q := d.receive q (x.response q)

/-- The service, over the wire. -/
def online (d : Decoding) : Machine World WireChoice Cmd Cmd.Resp where
  perform x cancelled w c := service.perform (x.choice d) cancelled w c

/-- A request. -/
def Cmd.isRequest : Cmd → Bool
  | .request _ => true
  | _ => false

/-- The mark of `classify`. -/
def Cmd.setsReauth : Cmd → Bool
  | .statement (.setNeedsReauth _ _) => true
  | _ => false

/-- The response to a command, if it was a request and got one. -/
def response? (l : Performed World WireChoice Cmd) : Option (Request × HttpResponse) :=
  match l.cmd with
  | .request q => if l.cancelled then none else ((l.choice.response q).toOption.map fun r => (q, r))
  | _ => none

/-- The response to the last request. -/
def lastResponse (ls : List (Performed World WireChoice Cmd)) : Option (Request × HttpResponse) :=
  (ls.filter fun l => l.cmd.isRequest).getLast?.bind response?

/-- **Every mark follows a 401**: the last response before it has that status. -/
def ReauthOn401 (ls : List (Performed World WireChoice Cmd)) : Prop :=
  AtEvery (fun pre l => l.cmd.setsReauth = true →
    (lastResponse pre).map (fun r => r.2.status) = some 401) ls

/-- The mint of an installation token is answered 403. -/
def mintForbidden (l : Performed World WireChoice Cmd) : Bool :=
  match response? l with
  | some (.installationToken _, resp) => decide (resp.status = 403)
  | _ => false

/-- A connection over an installation token: `clientFor` mints one. -/
def Activities.mints (a : Activities) (conn : Connection) : Bool :=
  decide (conn.installationID ≠ "") && decide ((a.creds conn.connectorID).privateKey ≠ "")

/-- A reading of the row of a connection finds one over an installation token. -/
def Activities.readsMinting (a : Activities) (l : Performed World WireChoice Cmd) : Bool :=
  match l.cmd with
  | .statement (.getConnectionByID id) =>
      match Database.getConnectionByID id l.state.db with
      | .ok conn => a.mints conn
      | .error _ => true
  | _ => true

/-- The activities of a worker: its connectors are registered ones, and keys are parsed. -/
structure Activities.Deployed (a : Activities) (k : KeyParsers) : Prop where
  registered : ∀ c ∈ a.reg, Registered c
  parses : a.parseGitHubKey = Connectors.parseGitHubKey k

/-! ### What a response tells -/

section Wire

variable {d : Decoding} {ls : List (Performed World WireChoice Cmd)}

theorem lastResponse_snoc (ls : List (Performed World WireChoice Cmd))
    (l : Performed World WireChoice Cmd) :
    lastResponse (ls ++ [l]) = if l.cmd.isRequest then response? l else lastResponse ls := by
  unfold lastResponse
  rw [List.filter_append]
  by_cases h : l.cmd.isRequest = true
  · simp [h]
  · simp [h]

/-- The last response is the response to a request. -/
theorem mem_of_lastResponse {r : Request × HttpResponse} (h : lastResponse ls = some r) :
    ∃ l ∈ ls, response? l = some r := by
  obtain ⟨l, hl, hr⟩ := Option.bind_eq_some_iff.mp h
  exact ⟨l, List.mem_of_mem_filter (List.mem_of_getLast? hl), hr⟩

/-- A last response that was there before other commands is there still. -/
theorem lastResponse_append {pre : List (Performed World WireChoice Cmd)}
    (hpre : ∀ l ∈ pre, l.cmd.isRequest = false) :
    lastResponse (pre ++ ls) = lastResponse ls := by
  have hnone : (pre.filter fun l => l.cmd.isRequest) = [] := by
    rw [List.filter_eq_nil_iff]
    intro l hl
    rw [hpre l hl]
    exact Bool.false_ne_true
  unfold lastResponse
  rw [List.filter_append, hnone, List.nil_append]

/-- A statement that fails has found no row. -/
theorem exec_error {now : Time} {db : Database} {s : Statement} {e : Err}
    (h : (s.exec now db).1 = .error e) : e = .noRows := by
  have hone : ∀ {α : Type} {o : Option α}, Database.one o = .error e → e = .noRows := by
    intro α o ho
    cases o with
    | none => exact (Except.error.inj ho).symm
    | some a => cases ho
  cases s with
  | upsertConnection p => exact hone h
  | getConnection id tenantID => exact hone h
  | getConnectionByID id => exact hone h
  | getSyncUnit id externalID => exact hone h
  | getArtifactContentHash id externalID => exact hone h
  | getAdmissionLimit k => exact hone h
  | acquireAdmission k =>
    simp only [Statement.exec, Database.acquireAdmission] at h
    split at h
    · split at h
      · cases h
      · exact (Except.error.inj h).symm
    · exact (Except.error.inj h).symm
  | _ => cases h

/-- **No statement is answered by a rejection of the source.** -/
theorem rejected_statement (d : Decoding) (x : WireChoice) (b : Bool) (w : World) (s : Statement) :
    rejected ((online d).perform x b w (.statement s)).2 = false := by
  show rejected ((x.choice d).reply b (s.exec (w.now + (x.choice d).elapsed) w.db).1) = false
  unfold Choice.reply
  cases b with
  | true => rfl
  | false =>
    cases hx : (x.choice d).outcome with
    | refused text => rfl
    | lost text => rfl
    | applied =>
      cases hr : (s.exec (w.now + (x.choice d).elapsed) w.db).1 with
      | ok a => rfl
      | error e =>
        rw [exec_error hr]
        rfl

end Wire

/-! ### The protocol of a program that marks -/

/-- A program that marks a connection when the last request was rejected. -/
def rejecting : Protocol Bool Cmd Cmd.Resp where
  allowed g c := c.setsReauth = true → g = true
  next g
    | .request q, r => decide (q.call ≠ .other) && rejected r
    | .statement _, r => g || rejected r
    | _, _ => g

/-- **A ghost state that has heard a rejection has heard it in the last response.** -/
theorem lastResponse_of_after (d : Decoding) {ls : List (Performed World WireChoice Cmd)}
    (h : rejecting.after (online d) false ls = true) : ∃ q resp, lastResponse ls = some (q, resp) ∧
      (resp.status = 401 ∨ (q.call = .gitHubInstallationToken ∧ resp.status = 403)) := by
  induction ls using List.reverseRecOn with
  | nil => cases h
  | append_singleton ls l ih =>
    rw [Protocol.after_snoc] at h
    rw [lastResponse_snoc]
    obtain ⟨w, c, b, x⟩ := l
    cases c with
    | request q =>
      obtain ⟨hcall, hr⟩ := Bool.and_eq_true_iff.mp h
      have hanswer : rejected (if b = true then .error .canceled else d.receive q (x.response q)) =
          true := hr
      cases b with
      | true => cases hanswer
      | false =>
        obtain ⟨resp, hresp, hstatus⟩ := status_of_rejected (of_decide_eq_true hcall) hanswer
        refine ⟨q, resp, ?_, hstatus⟩
        show ((x.response q).toOption.map fun r => (q, r)) = some (q, resp)
        rw [hresp]
        rfl
    | statement s =>
      have hor : (rejecting.after (online d) false ls || rejected
          ((online d).perform x b w (.statement s)).2) = true := h
      rw [rejected_statement, Bool.or_false] at hor
      exact ih hor
    | ctxErr => exact ih h
    | clock => exact ih h
    | putObject _ _ _ _ => exact ih h
    | deleteObject _ _ => exact ih h
    | signalWorkflow _ _ => exact ih h

/-- **Every mark of a program that follows the protocol follows a 401**, where no mint is
answered 403. -/
theorem reauthOn401_of_follows {α : Type} {d : Decoding} {p q : Program α}
    {Q : α → Bool → Prop} {ls : List (Performed World WireChoice Cmd)} (h : Log (online d) p ls q)
    (hp : p.Follows rejecting Q false) (hmint : ∀ l ∈ ls, mintForbidden l = false) :
    ReauthOn401 ls := by
  intro pre l post heq hmarks
  subst heq
  have hheard := h.allowed hp hmarks
  obtain ⟨q', resp, hlast, hstatus⟩ := lastResponse_of_after d hheard
  rw [hlast]
  rcases hstatus with h401 | ⟨hcall, h403⟩
  · exact congrArg some h401
  · -- it was the mint that was rejected
    obtain ⟨l', hl', hr⟩ := mem_of_lastResponse hlast
    have hnot := hmint l' (List.mem_append_left _ hl')
    unfold mintForbidden at hnot
    rw [hr] at hnot
    cases q' with
    | installationToken id => exact absurd h403 (of_decide_eq_false hnot)
    | _ => cases hcall

/-! ### The activities tell what they heard -/

/-- A command that neither asks the source nor marks a connection. -/
def Cmd.quiet (c : Cmd) : Bool := !c.isRequest && !c.setsReauth

/-- A program of quiet commands forgets no rejection. -/
theorem follows_quiet {α : Type} {p : Program α} (hp : p.Uses fun c => c.quiet = true) (g : Bool) :
    p.Follows rejecting (fun _ g' => g = true → g' = true) g := by
  refine Prog.follows_of_uses (I := fun g' => g = true → g' = true) (hp.mono ?_) id
  intro c hc g' hg'
  obtain ⟨hrequest, hmarks⟩ := Bool.and_eq_true_iff.mp hc
  refine ⟨fun h => ?_, fun r hg => ?_⟩
  · rw [h] at hmarks
    cases hmarks
  · have hheard := hg' hg
    cases c with
    | request q => cases hrequest
    | statement s =>
      show (g' || rejected r) = true
      rw [hheard, Bool.true_or]
    | _ => exact hheard

/-- A program without marks may hear anything. -/
theorem follows_unmarked {α : Type} {p : Program α}
    (hp : p.Uses fun c => c.setsReauth = false) (g : Bool) :
    p.Follows rejecting (fun _ _ => True) g := by
  refine Prog.follows_of_uses (I := fun _ => True) (hp.mono ?_) trivial
  intro c hc g _
  refine ⟨fun h => ?_, fun _ => trivial⟩
  rw [hc] at h
  cases h

theorem unmarked_of_quiet {c : Cmd} (h : c.quiet = true) : c.setsReauth = false := by
  obtain ⟨-, hmarks⟩ := Bool.and_eq_true_iff.mp h
  rw [Bool.not_eq_true'] at hmarks
  exact hmarks

theorem unmarked_of_touchesTokens {c : Cmd} (h : c.touchesTokens = true) :
    c.setsReauth = false := by
  cases c with
  | statement s => cases s <;> first | rfl | cases h
  | _ => rfl

section Quiet

theorem quiet_statement {s : Statement} (h : (Cmd.statement s).quiet = true) :
    (statement s).Uses fun c => c.quiet = true := ⟨h, fun _ => trivial⟩

theorem quiet_noteProgress (i : SyncInput) (written : ℕ) :
    (Activities.noteProgress i written).Uses fun c => c.quiet = true := by
  unfold Activities.noteProgress
  split
  · exact (quiet_statement rfl).bind fun _ => Prog.uses_pure _ _
  · exact Prog.uses_pure _ _

theorem quiet_flushProgress (i : SyncInput) (written : ℕ) :
    (Activities.flushProgress i written).Uses fun c => c.quiet = true := by
  unfold Activities.flushProgress
  split
  · exact (quiet_statement rfl).bind fun _ => Prog.uses_pure _ _
  · exact Prog.uses_pure _ _

theorem quiet_throttleFeedback (id : Uuid) (e : Err) :
    (Activities.throttleFeedback id e).Uses fun c => c.quiet = true := by
  unfold Activities.throttleFeedback
  split
  · refine Prog.Uses.bind ?_ fun _ => Prog.uses_pure _ _
    unfold Admission.recordThrottle
    split
    · exact Prog.Uses.bind ⟨rfl, fun _ => trivial⟩ fun _ => quiet_statement rfl
    · exact quiet_statement rfl
  · exact Prog.uses_pure _ _

theorem quiet_acquire (s : Scope) (name : String) (seed : RateBudget) :
    (Admission.acquire s name seed).Uses fun c => c.quiet = true := by
  refine (quiet_statement rfl).bind fun r => ?_
  split
  · exact Prog.uses_pure _ _
  · refine (quiet_statement rfl).bind fun r => ?_
    split <;> exact Prog.uses_pure _ _

theorem quiet_commitSynced (i : SyncInput) (written : ℕ) :
    (Activities.commitSynced i written).Uses fun c => c.quiet = true := by
  refine (quiet_statement rfl).bind fun r => ?_
  split
  · exact Prog.uses_pure _ _
  · refine (quiet_statement rfl).bind fun r => ?_
    split
    · exact Prog.uses_pure _ _
    · exact (quiet_statement rfl).bind fun _ =>
        (quiet_statement rfl).bind fun _ => Prog.uses_pure _ _

end Quiet

/-- A fetch tells what its connector heard. -/
theorem told_fetch {α : Type} {p : FetchProg (Except Err α)}
    (hp : ∀ heard, p.Follows hearing Told heard) (g : Bool) :
    (fetch p).Follows rejecting Told g := by
  have hinner := Prog.Follows.interpret (P := rejecting) (I := fun g' (_ : Unit) g => g' = g)
    (h := fetchHandler) (hp g) ?_ (t := ()) rfl
  · refine hinner.bind fun r g hr => ?_
    obtain ⟨g', htold, rfl⟩ := hr
    exact htold
  · rintro c ⟨⟩ g g' rfl _
    cases c with
    | ctxErr => exact ⟨nofun, fun _ => rfl⟩
    | request q => exact ⟨nofun, fun _ => rfl⟩

section SyncUnit

variable {a : Activities} {k : KeyParsers} (i : SyncInput) (conn : Connection)

/-- **`emit` forgets no rejection**, and tells what it heard. -/
theorem heard_makeEmit (art : Artifact) (st : EmitState) {g g' : Bool} (hg : g' = true → g = true) :
    (a.makeEmit i conn art st).Follows rejecting
      (fun r g => syncHearing.next g' (.emit art) r.1 = true → g = true) g := by
  -- what is heard before an item is settled stays heard
  have hkept : ∀ {r : Except Err Unit} {h : Bool}, rejected r = false → (g = true → h = true) →
      syncHearing.next g' (.emit art) r = true → h = true := by
    intro r h hr hgh hnext
    have hor : (g' || rejected r) = true := hnext
    rw [hr, Bool.or_false] at hor
    exact hgh (hg hor)
  -- the answer of a statement is heard
  have herror : ∀ {β : Type} {e : Err} {h : Bool}, (g = true → h = true) →
      syncHearing.next g' (.emit art) (.error e) = true →
        (h || rejected (.error e : Except Err β)) = true := by
    intro β e h hgh hnext
    rcases Bool.or_eq_true_iff.mp hnext with hor | hor
    · rw [hgh (hg hor), Bool.true_or]
    · have hrejected : rejected (.error e : Except Err β) = true := by
        cases e <;> first | rfl | cases hor
      rw [hrejected, Bool.or_true]
  have hchanged : ∀ (hash : String) {h : Bool}, (g = true → h = true) →
      (a.emitChanged i conn art hash st).Follows rejecting
        (fun r g => syncHearing.next g' (.emit art) r.1 = true → g = true) h := by
    intro hash h hgh
    refine ⟨nofun, fun r => ?_⟩
    cases r with
    | error e => exact hkept rfl hgh
    | ok _ =>
      refine ⟨nofun, fun r => ?_⟩
      cases r with
      | error e => exact herror hgh
      | ok _ =>
        refine (follows_quiet (quiet_noteProgress i _) _).bind fun _ h' hh' => ?_
        refine hkept rfl fun hg => hh' ?_
        show (h || _) = true
        rw [hgh hg, Bool.true_or]
  have hunchanged : ∀ {h : Bool}, (g = true → h = true) →
      (Activities.emitUnchanged i art st).Follows rejecting
        (fun r g => syncHearing.next g' (.emit art) r.1 = true → g = true) h := by
    intro h hgh
    unfold Activities.emitUnchanged
    split
    · refine ⟨nofun, fun r => hkept rfl fun hg => ?_⟩
      show (h || _) = true
      rw [hgh hg, Bool.true_or]
    · exact hkept rfl hgh
  refine ⟨nofun, fun b => ?_⟩
  show Prog.Follows _ _ _ (if b = true then _ else _)
  split
  · exact hkept rfl id
  · refine ⟨nofun, fun r => ?_⟩
    have hheard : g = true → (g || rejected r) = true := by
      intro hg
      rw [hg, Bool.true_or]
    cases r with
    | ok prev =>
      show Prog.Follows _ _ _ (if prev = a.contentHash.hash art.raw then _ else _)
      split
      · exact hunchanged hheard
      · exact hchanged _ hheard
    | error e =>
      cases e with
      | noRows => exact hchanged _ hheard
      | _ => exact herror id

/-- **A drain tells what its connector heard.** -/
theorem told_drain {connector : Connector} (h : Registered connector) (unit : SyncUnit) (g : Bool) :
    (a.drain i conn connector unit).Follows rejecting (fun r g => Told r.1 g) g := by
  refine (Prog.Follows.interpret (I := fun g' _ g => g' = true → g = true)
    (h.told_syncUnit _ unit.cursor g) ?_ id).mono fun r g hr => ?_
  · intro c st g g' hg _
    cases c with
    | emit art => exact heard_makeEmit i conn art st hg
    | fetch c =>
      cases c with
      | ctxErr => exact ⟨nofun, fun _ => hg⟩
      | request q => exact ⟨nofun, fun _ => id⟩
  · obtain ⟨g', htold, hg⟩ := hr
    exact fun hr => hg (htold hr)

variable {i conn}

/-- **`classify` marks a connection for a rejection that was heard.** -/
theorem follows_classify {unitID : String} {e : Err} {g : Bool}
    (h : Told (.error e : Except Err Unit) g) :
    (Activities.classify conn unitID e).Follows rejecting (fun _ _ => True) g := by
  unfold Activities.classify
  split
  · refine ⟨fun _ => h rfl, fun _ => ?_⟩
    exact (follows_unmarked (p := statement _) ⟨rfl, fun _ => trivial⟩ _).bind fun _ _ _ => trivial
  · trivial
  · refine Prog.Follows.bind (R := fun _ _ => True) ?_ fun _ _ _ => trivial
    refine follows_unmarked ?_ g
    unfold Activities.armBackoff
    split
    · exact Prog.uses_pure _ _
    · exact Prog.Uses.bind ⟨rfl, fun _ => trivial⟩ fun _ =>
        Prog.Uses.bind ⟨rfl, fun _ => trivial⟩ fun _ =>
          Prog.Uses.bind ⟨rfl, fun _ => trivial⟩ fun _ => Prog.uses_pure _ _

/-- **On a connection over an installation token the client tells what the mint heard.** -/
theorem told_clientFor (ha : a.Deployed k) (hconn : a.mints conn = true) (g : Bool) :
    (a.clientFor conn).Follows rejecting Told g := by
  obtain ⟨hinstallation, hkey⟩ := Bool.and_eq_true_iff.mp hconn
  unfold Activities.clientFor
  dsimp only
  rw [if_pos ⟨of_decide_eq_true hinstallation, of_decide_eq_true hkey⟩]
  split
  · rename_i e he
    -- a key that does not parse is no rejection
    rw [ha.parses] at he
    unfold Connectors.parseGitHubKey at he
    refine told_of_not_rejected ?_ g
    split at he
    · obtain rfl := Except.error.inj he
      rfl
    · split at he
      · cases he
      · split at he
        · obtain rfl := Except.error.inj he
          rfl
        · cases he
        · obtain rfl := Except.error.inj he
          rfl
  · refine ⟨nofun, fun r => ?_⟩
    exact told_request (q := .installationToken conn.installationID) nofun r

theorem follows_finishUnit {connector : Connector} {result : Except Err Bool} (written : ℕ)
    {g : Bool} (h : Told result g) :
    (Activities.finishUnit i conn connector result written).Follows rejecting (fun _ _ => True)
      g := by
  refine (follows_quiet (quiet_flushProgress i written) g).bind fun _ g' hg' => ?_
  refine ⟨nofun, fun b => ?_⟩
  cases b with
  | true => trivial
  | false =>
    cases result with
    | error e =>
      refine (follows_quiet (quiet_throttleFeedback _ e) g').bind fun _ g'' hg'' => ?_
      refine (follows_classify fun hr => hg'' (hg' (h.error hr))).bind fun _ _ _ => trivial
    | ok done =>
      refine ⟨nofun, fun r => ?_⟩
      show Prog.Follows _ _ _ (if done = true then _ else _)
      split
      · exact follows_unmarked ((quiet_commitSynced i written).mono fun _ => unmarked_of_quiet) _
      · trivial

/-- **`SyncUnit` over an installation token marks its connection only for what it was told.** -/
theorem follows_syncLoaded {connector : Connector} (ha : a.Deployed k) (hconn : a.mints conn = true)
    (hregistered : Registered connector) (g : Bool) :
    (a.syncLoaded i conn connector).Follows rejecting (fun _ _ => True) g := by
  refine ⟨nofun, fun r => ?_⟩
  cases r with
  | error e => trivial
  | ok unit =>
    refine ⟨nofun, fun r => ?_⟩
    cases r with
    | error e => trivial
    | ok _ =>
      refine ⟨nofun, fun _ => ?_⟩
      refine (told_clientFor ha hconn _).bind fun r g hr => ?_
      cases r with
      | error e => exact (follows_classify hr.error).bind fun _ _ _ => trivial
      | ok _ =>
        refine (follows_quiet (quiet_acquire _ _ _) g).bind fun r g _ => ?_
        split
        · trivial
        · trivial
        · have hdrain : (a.drainUnit i conn connector unit).Follows rejecting (fun _ _ => True) g :=
            (told_drain i conn hregistered unit g).bind fun r g hr =>
              follows_finishUnit r.2.written hr
          have hrelease : (Admission.release (.credential i.connectionID)).Uses fun c =>
              c.setsReauth = false := ⟨rfl, fun _ => trivial⟩
          exact hdrain.bind fun _ g _ =>
            (follows_unmarked hrelease g).bind fun _ _ _ => trivial

end SyncUnit

section DiscoverUnits

variable {a : Activities} {k : KeyParsers} {conn : Connection}

/-- **Once the units are listed, nothing is marked**: the estimates are best effort. -/
theorem unmarked_reconcile (connector : Connector) (lastKnownGood : ℕ) (generation : ℤ)
    (units : List SourceUnit) : (Activities.reconcile conn connector lastKnownGood generation
      units).Uses fun c => c.setsReauth = false := by
  refine (uses_reconcile connector lastKnownGood generation units).mono fun c hc => ?_
  cases hc with
  | finish hc =>
    cases hc with
    | tokens hc => exact unmarked_of_touchesTokens hc
    | _ => rfl
  | _ => rfl

/-- **`DiscoverUnits` over an installation token marks its connection only for what it was
told.** -/
theorem follows_discoverLoaded {connector : Connector} (ha : a.Deployed k)
    (hconn : a.mints conn = true) (hregistered : Registered connector) (g : Bool) :
    (a.discoverLoaded conn connector).Follows rejecting (fun _ _ => True) g := by
  refine ⟨nofun, fun r => ?_⟩
  cases r with
  | error e => trivial
  | ok lastKnownGood =>
    refine ⟨nofun, fun r => ?_⟩
    cases r with
    | error e => trivial
    | ok maxGen =>
      refine (told_clientFor ha hconn _).bind fun r g hr => ?_
      cases r with
      | error e => exact (follows_classify hr.error).bind fun _ _ _ => trivial
      | ok _ =>
        refine (told_fetch hregistered.told_discoverUnits g).bind fun r g hr => ?_
        cases r with
        | error e => exact (follows_classify hr.error).bind fun _ _ _ => trivial
        | ok units => exact follows_unmarked (unmarked_reconcile connector _ _ units) g

end DiscoverUnits

/-! ### Every run -/

section Runs

variable {a : Activities} {k : KeyParsers} {d : Decoding} {id : Uuid} {conn : Connection}
  {connector : Connector} {ls : List (Performed World WireChoice Cmd)}

theorem quiet_loadConnection (a : Activities) (id : Uuid) :
    (a.loadConnection id).Uses fun c => c.quiet = true := by
  refine (quiet_statement rfl).bind fun r => ?_
  split
  · exact Prog.uses_pure _ _
  · split <;> exact Prog.uses_pure _ _

/-- What a run goes on with is a row that it has read, and a connector of the registry. -/
theorem loaded_of_log
    (h : Log (online d) (a.loadConnection id) ls (.pure (.ok (conn, connector)))) :
    (∃ l ∈ ls, l.cmd = .statement (.getConnectionByID id) ∧
      Database.getConnectionByID id l.state.db = .ok conn) ∧ connector ∈ a.reg := by
  rcases Log.of_call h with ⟨-, heq⟩ | ⟨w, b, x, ls', rfl, hrest⟩
  · cases heq
  · cases hreply : ((online d).perform x b w (.statement (.getConnectionByID id))).2 with
    | error e =>
      rw [hreply] at hrest
      cases hrest.of_pure.2
    | ok row =>
      rw [hreply] at hrest
      dsimp only [Prog.pure_bind] at hrest
      cases hget : a.reg.get row.connectorID with
      | none =>
        rw [hget] at hrest
        cases hrest.of_pure.2
      | some found =>
        rw [hget] at hrest
        cases hrest.of_pure.2
        have hrow := (of_reply_eq_ok (x := x.choice d) hreply).2
        exact ⟨⟨_, List.mem_cons_self, rfl, hrow⟩, List.mem_of_find?_eq_some hget⟩

/-- **An activity that loads its connection first** marks it on a 401 alone, if what it does with
the loaded row follows the protocol. -/
theorem reauthOn401_of_load {α : Type} (ha : a.Deployed k)
    {f : Except Err (Connection × Connector) → Program α} {q : Program α}
    (h : Log (online d) ((a.loadConnection id).bind f) ls q)
    (hfail : ∀ e g, (f (.error e)).Follows rejecting (fun _ _ => True) g)
    (hf : ∀ conn connector, a.mints conn = true → Registered connector → ∀ g,
      (f (.ok (conn, connector))).Follows rejecting (fun _ _ => True) g)
    (hminting : ∀ l ∈ ls, a.readsMinting l = true) (hmint : ∀ l ∈ ls, mintForbidden l = false) :
    ReauthOn401 ls := by
  have hload := quiet_loadConnection a id
  rcases h.of_bind with ⟨c, rest, -, hfirst⟩ | ⟨ls₁, ls₂, r, rfl, hfirst, hsecond⟩
  · -- the load is under way, and marks nothing
    refine atEvery_of_forall fun l hl pre hmarks => ?_
    rw [unmarked_of_quiet (hfirst.forall_cmd hload l hl)] at hmarks
    cases hmarks
  · have hquiet := hfirst.forall_cmd hload
    have hmint₂ : ∀ l ∈ ls₂, mintForbidden l = false := fun l hl =>
      hmint l (List.mem_append_right _ hl)
    have hlater : ReauthOn401 ls₂ := by
      cases r with
      | error e => exact reauthOn401_of_follows hsecond (hfail e false) hmint₂
      | ok loaded =>
        obtain ⟨conn, connector⟩ := loaded
        obtain ⟨⟨l, hl, hcmd, hrow⟩, hreg⟩ := loaded_of_log hfirst
        have hreads := hminting l (List.mem_append_left _ hl)
        unfold Activities.readsMinting at hreads
        rw [hcmd] at hreads
        dsimp only at hreads
        rw [hrow] at hreads
        exact reauthOn401_of_follows hsecond
          (hf conn connector hreads (ha.registered connector hreg) false) hmint₂
    refine atEvery_append.mpr ⟨atEvery_of_forall fun l hl pre hmarks => ?_, ?_⟩
    · rw [unmarked_of_quiet (hquiet l hl)] at hmarks
      cases hmarks
    · -- the load asks the source for nothing
      have hnone : ∀ l ∈ ls₁, l.cmd.isRequest = false := fun l hl =>
        Bool.not_eq_true' _ ▸ (Bool.and_eq_true_iff.mp (hquiet l hl)).1
      intro pre l post heq hmarks
      rw [lastResponse_append hnone]
      exact hlater pre l post heq hmarks

/-- **Every mark of `SyncUnit` follows a 401**, where no mint is answered 403. -/
theorem reauthOn401_syncUnit (ha : a.Deployed k) {i : SyncInput}
    {q : Program (Except ActivityError SyncResult)} (h : Log (online d) (a.syncUnit i) ls q)
    (hminting : ∀ l ∈ ls, a.readsMinting l = true) (hmint : ∀ l ∈ ls, mintForbidden l = false) :
    ReauthOn401 ls := by
  rw [syncUnit_eq] at h
  refine reauthOn401_of_load ha h (fun _ _ => trivial) ?_ hminting hmint
  intro conn connector hconn hregistered g
  exact follows_syncLoaded ha hconn hregistered g

/-- **Every mark of `DiscoverUnits` follows a 401**, where no mint is answered 403. -/
theorem reauthOn401_discoverUnits (ha : a.Deployed k)
    {q : Program (Except ActivityError DiscoverResult)}
    (h : Log (online d) (a.discoverUnits id) ls q)
    (hminting : ∀ l ∈ ls, a.readsMinting l = true) (hmint : ∀ l ∈ ls, mintForbidden l = false) :
    ReauthOn401 ls := by
  rw [discoverUnits_loaded] at h
  refine reauthOn401_of_load ha h (fun _ _ => trivial) ?_ hminting hmint
  intro conn connector hconn hregistered g
  exact follows_discoverLoaded ha hconn hregistered g

end Runs

/-- **The calls agree exactly on the responses that are neither 403 nor 429**, nor a success of one
of them, and in every run in which no mint is answered 403 a connection over an installation token
is marked on a 401 alone.
The log of a program is a run of it, wherever it stands, whatever others do to the world between
its commands. -/
theorem source_calls_alike {α : Type} (url : String)
    (envelope : Bytes → Except String GraphqlEnvelope) (data : Bytes → Except String α) (out : α)
    (token : Bytes → Except String String) (resp : HttpResponse) (d : Decoding) {k : KeyParsers}
    {a : Activities} (ha : a.Deployed k) :
    (Alike url envelope data out token resp ↔ (resp.status ≠ 403 ∧ resp.status ≠ 429) ∧
      (200 ≤ resp.status → resp.status < 300 → Unusable envelope data token resp)) ∧
    (∀ (i : SyncInput) (ls : List (Performed World WireChoice Cmd))
      (q : Program (Except ActivityError SyncResult)), Log (online d) (a.syncUnit i) ls q →
        (∀ l ∈ ls, a.readsMinting l = true) → (∀ l ∈ ls, mintForbidden l = false) →
          ReauthOn401 ls) ∧
    ∀ (id : Uuid) (ls : List (Performed World WireChoice Cmd))
      (q : Program (Except ActivityError DiscoverResult)),
      Log (online d) (a.discoverUnits id) ls q →
        (∀ l ∈ ls, a.readsMinting l = true) → (∀ l ∈ ls, mintForbidden l = false) →
          ReauthOn401 ls := by
  refine ⟨alike_iff url envelope data out token resp, fun i ls q h => ?_, fun id ls q h => ?_⟩
  · exact reauthOn401_syncUnit ha h
  · exact reauthOn401_discoverUnits ha h

/-! ### A mint that is answered 403 -/

/-- Parsers that take every text for an RSA key. -/
def openParsers : KeyParsers where
  pem _ := some []
  pkcs1 _ := true
  pkcs8 _ := .ok true

/-- A decoding that finds nothing in any body. -/
def blankDecoding : Decoding where
  url _ := "https://api.github.com"
  body _ _ := .error "unexpected end of JSON input"
  envelope _ := .error "unexpected end of JSON input"
  data _ _ := .error "unexpected end of JSON input"
  out
    | .projectItems _ _ => { nodes := [], hasNextPage := false, endCursor := "" }
    | .issues _ _ _ _ | .issueComments _ _ _ _ | .driveExport _ | .repos _ _ => []
    | .driveFiles _ _ _ => { files := [], nextPageToken := "" }
    | .projects _ _ _ => none
    | .account _ | .installationAccount _ | .installationToken _ | .resolveInstallation _ => ""
    | .exchange _ _ | .refreshToken _ _ =>
        { accessToken := "", refreshToken := "", expiry := none }
    | .uninstall _ => ()
  other _ _ := .error (.failed "unreachable")

/-- The activities of a deployment that offers GitHub by an App. -/
def appActivities : Activities where
  env := "local"
  reg := [newGitHub.connector "github" (GitHub.discoverUnits 10 fun owners => owners)
    fun _ => return .ok []]
  cipher := sampleCipher
  creds _ := { clientID := "client", clientSecret := "secret", privateKey := "key" }
  parseGitHubKey := Connectors.parseGitHubKey openParsers
  contentHash := .spelled

theorem deployed_app : appActivities.Deployed openParsers := by
  refine ⟨fun c hc => ?_, rfl⟩
  rw [List.mem_singleton.mp hc]
  exact .github newGitHub "github" .installation 10 _ _

/-- Ann's installation of the App, as her connect stores it. -/
def appConnection : Database.UpsertConnectionParams :=
  { repoConnection with connectorID := "github", accessToken := [], installationID := "42" }

/-- The installation, connected; nothing is discovered yet. -/
def appWorld : World := worldOf (Database.upsertConnection appConnection .empty).2

/-- A response without a body; a rate limit says when to retry. -/
def bare (status : ℕ) (retryAfter : String) : HttpResponse :=
  { status, retryAfterHeader := retryAfter, rateLimitRemaining := "", retryAfter := 60, body := [] }

/-- Turns in which nothing fails but the requests, which are answered alike. -/
def answeredBy (resp : HttpResponse) (n : ℕ) : List (Turn WireChoice) :=
  List.replicate n ⟨false, { outcome := .applied, elapsed := 0, response := fun _ => .ok resp }⟩

/-- The calls agree on a 404; and where the mint is answered 401, the mark follows it. -/
theorem mark_on_401 : Alike "" blankDecoding.envelope (blankDecoding.data (.projectItems "" ""))
      (blankDecoding.out (.projectItems "" "")) (fun _ => .ok "") (bare 404 "") ∧
    ∃ ls q, Log (online blankDecoding) (appActivities.discoverUnits 0) ls q ∧
      (∃ l ∈ ls, l.cmd.setsReauth = true) ∧ ReauthOn401 ls := by
  have hcalls := source_calls_alike "" blankDecoding.envelope
    (blankDecoding.data (.projectItems "" "")) (blankDecoding.out (.projectItems "" ""))
    (fun _ => .ok "") (bare 404 "") blankDecoding deployed_app
  refine ⟨hcalls.1.mpr ⟨⟨by decide, by decide⟩, fun _ h => absurd h (by decide)⟩, ?_⟩
  obtain ⟨ls, r, b', w', hrun, hends⟩ := exists_returns_of_any (online blankDecoding)
    (appActivities.discoverUnits 0) false appWorld (answeredBy (bare 401 "") 6)
    (fun ls _ _ => ls.all appActivities.readsMinting && ls.all (fun l => !mintForbidden l) &&
      ls.any fun l => l.cmd.setsReauth) (by decide +kernel)
  simp only [Bool.and_eq_true, List.all_eq_true, List.any_eq_true, Bool.not_eq_true'] at hends
  obtain ⟨⟨hminting, hmint⟩, hmarks⟩ := hends
  exact ⟨ls, _, hrun.log, hmarks, hcalls.2.2 0 ls _ hrun.log hminting hmint⟩

/-- **A mint that is throttled by a 403 is taken for rejected credentials**: the calls differ on
it, and the connection is marked without a 401. -/
theorem throttled_mint_marks :
    ¬ Alike "" blankDecoding.envelope (blankDecoding.data (.projectItems "" ""))
      (blankDecoding.out (.projectItems "" "")) (fun _ => .ok "") (bare 403 "60") ∧
    ∃ ls q, Log (online blankDecoding) (appActivities.discoverUnits 0) ls q ∧
      (∀ l ∈ ls, appActivities.readsMinting l = true) ∧ ¬ ReauthOn401 ls := by
  refine ⟨fun h => ((alike_iff _ _ _ _ _ _).mp h).1.1 rfl, ?_⟩
  obtain ⟨ls, r, b', w', hrun, hends⟩ := exists_returns_of_any (online blankDecoding)
    (appActivities.discoverUnits 0) false appWorld (answeredBy (bare 403 "60") 6)
    (fun ls _ _ => ls.all appActivities.readsMinting && match ls.drop 4 with
      | l :: _ => l.cmd.setsReauth &&
          decide ((lastResponse (ls.take 4)).map (fun r => r.2.status) = some 403)
      | [] => false) (by decide +kernel)
  obtain ⟨hminting, hmark⟩ := Bool.and_eq_true_iff.mp hends
  refine ⟨ls, _, hrun.log, List.all_eq_true.mp hminting, fun honly => ?_⟩
  split at hmark
  · rename_i l post hdrop
    obtain ⟨hsets, hlast⟩ := Bool.and_eq_true_iff.mp hmark
    have hsplit : ls = ls.take 4 ++ l :: post := by
      rw [← hdrop, List.take_append_drop]
    have h401 := honly (ls.take 4) l post hsplit hsets
    rw [of_decide_eq_true hlast] at h401
    cases h401
  · cases hmark

end Hivebook
