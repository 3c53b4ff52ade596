import Hivebook.Events.Listen
import Hivebook.Server.Handlers

/-!
# What the sources page shows

`useConnectionsStream` and `useProjectsStream` of the frontend: a loop reads the snapshots of a
stream and keeps the last one.  When the stream ends or fails the loop waits, twice as long as the
last time and half a minute at most, and asks for a new one; a message resets the wait.  A refused
credential ends the loop.

The stream is one of those of `internal/events`: it reads the database when it has subscribed, and
again whenever it is woken.  The snapshots go through the API to the page in order, and those on
their way are lost when the page gives the stream up.

A snapshot is named by its version: how often what it shows had changed when it was read.

## Main definitions

* `Hook`, `Hook.next` — the hook, mounted.
* `Watched`, `watching` — the hook next to the changes, the listener and the streams.
* `Watched.Settled` — nothing is on its way to the page.
* `Announced` — a change that was notified to a session that is not lost.
* `Shows` — what is promised of the page.

## Main results

* `page_shows` — **the page never goes back, and when nothing is on its way it shows what the
  database has, unless the last change was not announced.**
-/

namespace Hivebook
namespace Web

open Events

/-! ### The hook -/

/-- `isAuthError`; an error that is no `ConnectError` has no code. -/
def isAuthError : Option RpcError → Bool
  | some e => decide (e.code = .unauthenticated) || decide (e.code = .permissionDenied)
  | none => false

/-- `Math.min(30_000, 1_000 * 2 ** attempt)`, in milliseconds. -/
def reconnectDelay (attempt : ℕ) : ℕ := min 30000 (1000 * 2 ^ attempt)

theorem reconnectDelay_bounds (attempt : ℕ) :
    1000 ≤ reconnectDelay attempt ∧ reconnectDelay attempt ≤ 30000 := by
  have hpow : 1 ≤ 2 ^ attempt := Nat.one_le_two_pow
  unfold reconnectDelay
  omega

/-- Where `run` is. -/
inductive Loop where
  /-- In the `for await`; the goroutine that serves it, once the request has arrived. -/
  | iterating (stream : Option ℕ)
  /-- In the timeout. -/
  | sleeping (delay : ℕ)
  | ended
  deriving DecidableEq, Repr

/-- The hook: its states, and the variables of the effect. -/
structure Hook where
  /-- `connections`, or `projects`: the version of the snapshot. -/
  shown : Option ℕ
  error : Option RpcError
  attempt : ℕ
  aborted : Bool
  loop : Loop
  /-- The messages of the stream that have not arrived. -/
  inFlight : List ℕ
  deriving DecidableEq, Repr

/-- The effect has run. -/
def Hook.mounted : Hook := ⟨none, none, 0, false, .iterating none, []⟩

inductive HookEvent where
  /-- The next message arrives. -/
  | message
  /-- The stream is over, and all of it has arrived. -/
  | finish
  /-- The iteration throws. -/
  | throw (e : Option RpcError)
  | timeout
  /-- The component is unmounted. -/
  | abort
  deriving DecidableEq, Repr

/-- What is recorded of a run. -/
inductive WatchMoment where
  | live (m : LiveMoment)
  /-- What the page shows changes in the database. -/
  | changed
  /-- The request of the page gets to the service, at a version. -/
  | requested (version : ℕ)
  | shown (version : ℕ)
  | sleeping (delay : ℕ)
  /-- The loop ends for a credential. -/
  | refused
  deriving DecidableEq, Repr

namespace Hook

variable (h : Hook)

/-- The iteration is over: the loop ends, or waits for the next one. -/
def backOff : Hook × List WatchMoment :=
  if h.aborted then ({ h with loop := .ended, inFlight := [] }, [])
  else
    ({ h with
        loop := .sleeping (reconnectDelay h.attempt)
        attempt := h.attempt + 1
        inFlight := [] }, [.sleeping (reconnectDelay h.attempt)])

/-- The next step of the hook; that of the projects has no state for an error. -/
def next (snapshot : Snapshot) : HookEvent → Option (Hook × List WatchMoment)
  | .message =>
      match h.loop, h.inFlight with
      | .iterating _, v :: rest =>
          some ({ h with shown := some v, error := none, attempt := 0, inFlight := rest },
            [.shown v])
      | _, _ => none
  | .finish =>
      match h.loop, h.inFlight with
      | .iterating (some _), [] => some h.backOff
      | _, _ => none
  | .throw e =>
      match h.loop with
      | .iterating _ =>
          if h.aborted = false ∧ isAuthError e = true then
            some ({ h with
                loop := .ended
                inFlight := []
                error := if snapshot = .connections then e else h.error }, [.refused])
          else some h.backOff
      | _ => none
  | .timeout =>
      match h.loop with
      | .sleeping _ => some ({ h with loop := if h.aborted then .ended else .iterating none }, [])
      | _ => none
  | .abort => some ({ h with aborted := true }, [])

/-- The stream of a goroutine sends a snapshot. -/
def sent (w v : ℕ) : Hook :=
  if h.loop = .iterating (some w) then { h with inFlight := h.inFlight ++ [v] } else h

end Hook

/-! ### The page next to the service -/

/-- The call that opens a stream. -/
def opening (st : Events.Stream) : Call :=
  match st.snapshot with
  | .connections => .watchConnections st.tenant
  | .projects connID => .watchProjects st.tenant connID

/-- The hook, the listener and the streams, and what the database has for the page. -/
structure Watched where
  live : Events.Live
  version : ℕ
  /-- What the last read of a goroutine has found. -/
  found : ℕ → ℕ
  hook : Hook

inductive WatchEvent where
  /-- A statement changes what the page shows. -/
  | change
  | live (e : LiveEvent)
  /-- The request of the page gets to the service. -/
  | request
  | hook (e : HookEvent)
  deriving DecidableEq, Repr

namespace Watched

variable (s : Watched)

/-- What a step of the streams means for the page: a read finds what the database has, and what
was read is sent. -/
def noting (e : LiveEvent) : Watched :=
  match e with
  | .inner (.turn w .read) => { s with found := Function.update s.found w s.version }
  | .inner (.turn w (.sent true)) => { s with hook := s.hook.sent w (s.found w) }
  | _ => s

/-- The page of a stream next to the service. -/
def next (st : Events.Stream) : WatchEvent → Option (Watched × List WatchMoment)
  | .change => some ({ s with version := s.version + 1 }, [.changed])
  | .live e =>
      (listening.step s.live e).map fun r =>
        ({ s.noting e with live := r.1 }, r.2.map WatchMoment.live)
  | .request =>
      if s.hook.loop = .iterating none then
        (listening.step s.live (.inner (.call (opening st)))).map fun r =>
          ({ s with
              live := r.1
              hook := { s.hook with loop := .iterating (some s.live.server.threads.length) } },
            [.requested s.version])
      else none
  | .hook e => (s.hook.next st.snapshot e).map fun r => ({ s with hook := r.1 }, r.2)

end Watched

/-- A page, the changes, the listener and all the streams, side by side. -/
def watching (st : Events.Stream) : Lts Watched WatchEvent WatchMoment where
  step s e := s.next st e

/-- The page is opened in a service that starts. -/
def Watched.opened (version : ℕ) : Watched := ⟨Events.Live.initial, version, fun _ => 0, .mounted⟩

/-! ### What is promised -/

/-- What was shown. -/
def shownIn (tr : List WatchMoment) : List ℕ :=
  tr.filterMap fun
    | .shown v => some v
    | _ => none

/-- The moments of the listener. -/
def lives (tr : List WatchMoment) : List LiveMoment :=
  tr.filterMap fun
    | .live m => some m
    | _ => none

/-- How often the loop has waited since a message came. -/
def waits (tr : List WatchMoment) : ℕ :=
  tr.foldl (fun n m => match m with
    | .shown _ => 0
    | .sleeping _ => n + 1
    | _ => n) 0

/-- Nothing is on its way to the page: its stream waits for a signal, and there is none in its
channel, in the listener or before it. -/
structure Watched.Settled (s : Watched) (w : ℕ) : Prop where
  loop : s.hook.loop = .iterating (some w)
  inFlight : s.hook.inFlight = []
  stream : ∃ sub, s.live.server.threads[w]? = some (.waiting sub) ∧ ¬ s.live.server.Full sub.ch
  publishes : ∀ i, s.live.listener ≠ .publishing i
  queue : s.live.session.queue = []

/-- A change was notified after it, to a session that was not lost. -/
def Announced (tenant : String) (tr : List WatchMoment) : Prop :=
  ∃ tr₁ tr₂, tr = tr₁ ++ .live (.notified tenant true) :: tr₂ ∧ .live .lost ∉ tr₂

/-- What is promised of a page. -/
structure Shows (st : Events.Stream) (s : Watched) (tr : List WatchMoment) : Prop where
  /-- The page never goes back. -/
  forward : (shownIn tr).Pairwise (· ≤ ·)
  /-- What is shown is not older than the request before it. -/
  since : ∀ tr₁ v tr₂, tr = tr₁ ++ .requested v :: tr₂ → ∀ v' ∈ shownIn tr₂, v ≤ v' ∧ v' ≤ s.version
  /-- When nothing is on its way the page shows what the database has, if the last change was
  announced, or came before the stream had subscribed. -/
  current : ∀ w, s.Settled w →
    (∀ tr₁ tr₂ ch, tr = tr₁ ++ .changed :: tr₂ → .changed ∉ tr₂ →
      .live (.moment (.subscribed w st.tenant ch)) ∈ tr₁ → Announced st.tenant tr₂) →
    s.hook.shown = some s.version
  /-- An error is that of a credential, and the page asks for no stream any more. -/
  error : ∀ e, s.hook.error = some e → isAuthError (some e) = true ∧ s.hook.loop = .ended
  /-- The loop ends only for a credential, or with the page. -/
  ended : s.hook.loop = .ended → s.hook.aborted = true ∨ .refused ∈ tr
  /-- A wait is twice the last one, and between a second and half a minute. -/
  delay : ∀ tr₁ d tr₂, tr = tr₁ ++ .sleeping d :: tr₂ →
    d = reconnectDelay (waits tr₁) ∧ 1000 ≤ d ∧ d ≤ 30000

/-! ### The streams -/

section Streams

variable {s s' : State} {e : Event} {as : List Events.Moment} {w : ℕ} {sub : Subscription}
  {st : Events.Stream}

/-- The stream that a goroutine serves. -/
def served : Goroutine → Option Events.Stream
  | .subscribe st | .subscribing st => some st
  | .due sub | .reading sub | .waiting sub | .unsubscribe sub | .unsubscribing sub =>
      some sub.stream
  | .publish _ | .publishing _ _ | .returned => none

/-- A goroutine serves the stream, or has. -/
def Serves (st : Events.Stream) (g : Goroutine) : Prop := g = .returned ∨ served g = some st

/-- A goroutine that serves the stream goes on to. -/
theorem serves_step (h : Step s e s' as) (hw : ∃ g, s.threads[w]? = some g ∧ Serves st g) :
    ∃ g, s'.threads[w]? = some g ∧ Serves st g := by
  obtain ⟨g, hw, hst⟩ := hw
  by_cases hmine : ∃ a, e = .turn w a
  · obtain ⟨a, rfl⟩ := hmine
    cases h with
    | lockPublish hi _ | send hi _ | published hi | lockSubscribe hi _ | subscribed hi | read hi
    | sent hi | failed hi | receive hi _ | cancel hi | lockUnsubscribe hi _ | unsubscribed hi =>
      obtain rfl := Option.some.inj (hw.symm.trans hi)
      refine ⟨_, List.getElem?_set_self (lt_of_thread hw), ?_⟩
      simp_all [Serves, served]
  · exact ⟨g, h.frame hw fun a he => hmine ⟨a, he⟩, hst⟩

/-- What is being read has begun to be, or was. -/
theorem reading_step (h : Step s e s' as) (hw : s'.threads[w]? = some (.reading sub)) :
    s.threads[w]? = some (.reading sub) ∨ e = .turn w .read := by
  cases h with
  | call c =>
    rcases thread_append.mp hw with ⟨-, heq⟩ | hw
    · cases c <;> cases heq
    · exact .inl hw
  | read hi =>
    rcases (thread_set hi).mp hw with ⟨rfl, -⟩ | ⟨-, hw⟩
    · exact .inr rfl
    · exact .inl hw
  | lockPublish hi _ | send hi _ | published hi | lockSubscribe hi _ | subscribed hi | sent hi
  | failed hi | receive hi _ | cancel hi | lockUnsubscribe hi _ | unsubscribed hi =>
    rcases (thread_set hi).mp hw with ⟨-, heq⟩ | ⟨-, hw⟩
    · cases heq
    · exact .inl hw

/-- A stream that waits has sent what it has read, or waited before. -/
theorem waiting_step (h : Step s e s' as) (hw : s'.threads[w]? = some (.waiting sub)) :
    s.threads[w]? = some (.waiting sub) ∨
      e = .turn w (.sent true) ∧ s.threads[w]? = some (.reading sub) := by
  cases h with
  | call c =>
    rcases thread_append.mp hw with ⟨-, heq⟩ | hw
    · cases c <;> cases heq
    · exact .inl hw
  | sent hi =>
    rcases (thread_set hi).mp hw with ⟨rfl, heq⟩ | ⟨-, hw⟩
    · cases heq
      exact .inr ⟨rfl, hi⟩
    · exact .inl hw
  | lockPublish hi _ | send hi _ | published hi | lockSubscribe hi _ | subscribed hi | read hi
  | failed hi | receive hi _ | cancel hi | lockUnsubscribe hi _ | unsubscribed hi =>
    rcases (thread_set hi).mp hw with ⟨-, heq⟩ | ⟨-, hw⟩
    · cases heq
    · exact .inl hw

/-- A stream that watches has subscribed, and has read since unless it is about to. -/
def Subscribed (s : State) (tr : List Events.Moment) : Prop :=
  ∀ w g sub, s.threads[w]? = some g → g.watching = some sub →
    ∃ tr₁ tr₂, tr = tr₁ ++ .subscribed w sub.stream.tenant sub.ch :: tr₂ ∧
      (g = .due sub ∨ .read w ∈ tr₂)

theorem Subscribed.step {tr : List Events.Moment} (h : Subscribed s tr) (hstep : Step s e s' as) :
    Subscribed s' (tr ++ as) := by
  -- what the goroutine had done before
  have hold : ∀ {w g sub}, s.threads[w]? = some g → g.watching = some sub →
      ∃ tr₁ tr₂, tr ++ as = tr₁ ++ .subscribed w sub.stream.tenant sub.ch :: tr₂ ∧
        (g = .due sub ∨ .read w ∈ tr₂) ∧ ∀ m ∈ as, m ∈ tr₂ := by
    intro w g sub hw hsub
    obtain ⟨tr₁, tr₂, rfl, hread⟩ := h w g sub hw hsub
    exact ⟨tr₁, tr₂ ++ as, by simp, hread.imp_right (List.mem_append_left _),
      fun m hm => List.mem_append_right _ hm⟩
  intro w g' sub hw' hsub'
  cases hstep with
  | call c =>
    rcases thread_append.mp hw' with ⟨-, rfl⟩ | hw
    · cases c <;> cases hsub'
    · obtain ⟨tr₁, tr₂, heq, hread, -⟩ := hold hw hsub'
      exact ⟨tr₁, tr₂, heq, hread⟩
  | subscribed hi =>
    rcases (thread_set hi).mp hw' with ⟨rfl, rfl⟩ | ⟨-, hw⟩
    · cases hsub'
      exact ⟨tr, [], rfl, .inl rfl⟩
    · obtain ⟨tr₁, tr₂, heq, hread, -⟩ := hold hw hsub'
      exact ⟨tr₁, tr₂, heq, hread⟩
  | read hi =>
    rcases (thread_set hi).mp hw' with ⟨rfl, rfl⟩ | ⟨-, hw⟩
    · cases hsub'
      obtain ⟨tr₁, tr₂, heq, -, hnew⟩ := hold hi rfl
      exact ⟨tr₁, tr₂, heq, .inr (hnew _ (List.mem_singleton_self _))⟩
    · obtain ⟨tr₁, tr₂, heq, hread, -⟩ := hold hw hsub'
      exact ⟨tr₁, tr₂, heq, hread⟩
  | sent hi =>
    rcases (thread_set hi).mp hw' with ⟨rfl, rfl⟩ | ⟨-, hw⟩
    · cases hsub'
      obtain ⟨tr₁, tr₂, heq, hread, -⟩ := hold hi rfl
      exact ⟨tr₁, tr₂, heq, .inr (hread.resolve_left (by simp))⟩
    · obtain ⟨tr₁, tr₂, heq, hread, -⟩ := hold hw hsub'
      exact ⟨tr₁, tr₂, heq, hread⟩
  | receive hi _ =>
    rcases (thread_set hi).mp hw' with ⟨rfl, rfl⟩ | ⟨-, hw⟩
    · cases hsub'
      obtain ⟨tr₁, tr₂, heq, -, -⟩ := hold hi rfl
      exact ⟨tr₁, tr₂, heq, .inl rfl⟩
    · obtain ⟨tr₁, tr₂, heq, hread, -⟩ := hold hw hsub'
      exact ⟨tr₁, tr₂, heq, hread⟩
  | lockPublish hi _ | send hi _ | published hi | lockSubscribe hi _ | failed hi | cancel hi
  | lockUnsubscribe hi _ | unsubscribed hi =>
    rcases (thread_set hi).mp hw' with ⟨-, rfl⟩ | ⟨-, hw⟩
    · cases hsub'
    · obtain ⟨tr₁, tr₂, heq, hread, -⟩ := hold hw hsub'
      exact ⟨tr₁, tr₂, heq, hread⟩

theorem subscribed_of_run {es : List Event} {tr : List Events.Moment}
    (h : calls.Run initial es s tr) : Subscribed s tr := by
  refine h.invariant (J := Subscribed) ?_ fun s tr e s' as hJ _ hstep =>
    hJ.step (step_of_calls hstep)
  intro w g sub hw
  simp [initial] at hw

end Streams

/-! ### What a step does -/

section Steps

variable {st : Events.Stream} {s s' : Watched} {e : WatchEvent} {as tr : List WatchMoment}

/-- What a step of the hook does. -/
inductive Hook.Step (h : Hook) : Hook → List WatchMoment → Prop
  | message {stream : Option ℕ} {v : ℕ} {rest : List ℕ} : h.loop = .iterating stream →
      h.inFlight = v :: rest →
      Step h { h with shown := some v, error := none, attempt := 0, inFlight := rest } [.shown v]
  | finish {stream : Option ℕ} : h.loop = .iterating stream → Step h h.backOff.1 h.backOff.2
  | refused {stream : Option ℕ} {e error : Option RpcError} : h.loop = .iterating stream →
      isAuthError e = true → error = e ∨ error = h.error →
      Step h { h with loop := .ended, inFlight := [], error } [.refused]
  | timeout {d : ℕ} {loop : Loop} : h.loop = .sleeping d →
      (loop = .iterating none ∨ loop = .ended ∧ h.aborted = true) →
      Step h { h with loop } []
  | abort : Step h { h with aborted := true } []

theorem hook_step {snapshot : Snapshot} {h h' : Hook} {e : HookEvent}
    (hstep : h.next snapshot e = some (h', as)) : h.Step h' as := by
  have of_over : ∀ {stream}, h.loop = .iterating stream → h.backOff = (h', as) →
      h.Step h' as := by
    intro stream hloop heq
    have hfinish := Hook.Step.finish hloop
    rwa [heq] at hfinish
  unfold Hook.next at hstep
  cases e with
  | message =>
    dsimp only at hstep
    split at hstep
    · next hloop hflight =>
      cases hstep
      exact .message hloop hflight
    · cases hstep
  | finish =>
    dsimp only at hstep
    split at hstep
    · next hloop _ => exact of_over hloop (Option.some.inj hstep)
    · cases hstep
  | throw e =>
    dsimp only at hstep
    split at hstep
    · next hloop =>
      split at hstep
      · next hauth =>
        cases hstep
        refine .refused hloop hauth.2 ?_
        split
        · exact .inl rfl
        · exact .inr rfl
      · exact of_over hloop (Option.some.inj hstep)
    · cases hstep
  | timeout =>
    dsimp only at hstep
    split at hstep
    · next hloop =>
      cases hstep
      refine .timeout hloop ?_
      cases h.aborted with
      | true => exact .inr ⟨rfl, rfl⟩
      | false => exact .inl rfl
    · cases hstep
  | abort =>
    cases hstep
    exact .abort

/-- What a step of the page and the service does. -/
inductive Watched.Step (st : Events.Stream) (s : Watched) : Watched → List WatchMoment → Prop
  | change : Step st s { s with version := s.version + 1 } [.changed]
  | read {w : ℕ} {live : Events.Live} {as : List LiveMoment} :
      listening.step s.live (.inner (.turn w .read)) = some (live, as) →
      Step st s { s with live, found := Function.update s.found w s.version }
        (as.map WatchMoment.live)
  | sent {w : ℕ} {live : Events.Live} {as : List LiveMoment} :
      listening.step s.live (.inner (.turn w (.sent true))) = some (live, as) →
      Step st s { s with live, hook := s.hook.sent w (s.found w) } (as.map WatchMoment.live)
  | quiet {e : LiveEvent} {live : Events.Live} {as : List LiveMoment} :
      (∀ w, e ≠ .inner (.turn w .read)) → (∀ w, e ≠ .inner (.turn w (.sent true))) →
      listening.step s.live e = some (live, as) →
      Step st s { s with live } (as.map WatchMoment.live)
  | request {live : Events.Live} : s.hook.loop = .iterating none →
      listening.step s.live (.inner (.call (opening st))) = some (live, []) →
      Step st s
        { s with live, hook :=
          { s.hook with loop := .iterating (some s.live.server.threads.length) } }
        [.requested s.version]
  | hook {h : Hook} {as : List WatchMoment} : s.hook.Step h as → Step st s { s with hook := h } as

theorem step_of_watching (h : (watching st).step s e = some (s', as)) : s.Step st s' as := by
  cases e with
  | change =>
    cases h
    exact .change
  | live e =>
    obtain ⟨⟨live, bs⟩, hlive, heq⟩ := Option.map_eq_some_iff.mp h
    cases heq
    unfold Watched.noting
    split
    · exact .read hlive
    · exact .sent hlive
    · next hread hsent =>
      exact .quiet (fun w hw => hread w hw) (fun w hw => hsent w hw) hlive
  | request =>
    simp only [watching, Watched.next] at h
    split at h
    · next hloop =>
      obtain ⟨⟨live, bs⟩, hlive, heq⟩ := Option.map_eq_some_iff.mp h
      cases heq
      have hquiet : bs = [] := by
        obtain ⟨st, snapshot⟩ := st
        cases snapshot <;> cases hlive <;> rfl
      subst hquiet
      exact .request hloop hlive
    · cases h
  | hook e =>
    obtain ⟨⟨hk, bs⟩, hhook, heq⟩ := Option.map_eq_some_iff.mp h
    cases heq
    exact .hook (hook_step hhook)

theorem Watched.Step.recorded (h : s.Step st s' as) : as = [] ∨ ∃ m, as = [m] := by
  have hlive : ∀ {e live bs}, listening.step s.live e = some (live, bs) →
      bs.map WatchMoment.live = [] ∨ ∃ m, bs.map WatchMoment.live = [m] := by
    intro e live bs hstep
    rcases (step_of_listening hstep).recorded with rfl | ⟨m, rfl⟩
    · exact .inl rfl
    · exact .inr ⟨_, rfl⟩
  cases h with
  | change => exact .inr ⟨_, rfl⟩
  | read h => exact hlive h
  | sent h => exact hlive h
  | quiet _ _ h => exact hlive h
  | request => exact .inr ⟨_, rfl⟩
  | hook h =>
    cases h with
    | message => exact .inr ⟨_, rfl⟩
    | finish =>
      unfold Hook.backOff
      split
      · exact .inl rfl
      · exact .inr ⟨_, rfl⟩
    | refused => exact .inr ⟨_, rfl⟩
    | timeout => exact .inl rfl
    | abort => exact .inl rfl

/-! ### The moments -/

@[simp] theorem shownIn_append (tr as : List WatchMoment) :
    shownIn (tr ++ as) = shownIn tr ++ shownIn as := List.filterMap_append

@[simp] theorem lives_append (tr as : List WatchMoment) :
    lives (tr ++ as) = lives tr ++ lives as := List.filterMap_append

@[simp] theorem shownIn_map (as : List LiveMoment) : shownIn (as.map WatchMoment.live) = [] := by
  simp [shownIn, List.filterMap_map]

@[simp] theorem lives_map (as : List LiveMoment) : lives (as.map WatchMoment.live) = as := by
  rw [lives, List.filterMap_map]
  exact List.filterMap_some

theorem mem_lives {m : LiveMoment} : m ∈ lives tr ↔ .live m ∈ tr := by
  unfold lives
  rw [List.mem_filterMap]
  constructor
  · rintro ⟨x, hx, heq⟩
    split at heq
    · cases heq
      exact hx
    · cases heq
  · exact fun h => ⟨_, h, rfl⟩

/-- A moment of the listener is one of the page's. -/
theorem split_lives {l₁ l₂ : List LiveMoment} {m : LiveMoment} (h : lives tr = l₁ ++ m :: l₂) :
    ∃ tr₁ tr₂, tr = tr₁ ++ .live m :: tr₂ ∧ lives tr₂ = l₂ := by
  obtain ⟨tr₁, tr', rfl, -, htail⟩ := List.filterMap_eq_append_iff.mp h
  obtain ⟨tr₂, m', tr₃, rfl, -, hm, hrest⟩ := List.filterMap_eq_cons_iff.mp htail
  refine ⟨tr₁ ++ tr₂, tr₃, ?_, hrest⟩
  split at hm
  · cases hm
    simp
  · cases hm

/-- A moment of the broker is one of the listener's. -/
theorem split_moments {l : List LiveMoment} {ms₁ ms₂ : List Events.Moment} {m : Events.Moment}
    (h : moments l = ms₁ ++ m :: ms₂) :
    ∃ l₁ l₂, l = l₁ ++ .moment m :: l₂ ∧ moments l₂ = ms₂ := by
  obtain ⟨l₁, l', rfl, -, htail⟩ := List.filterMap_eq_append_iff.mp h
  obtain ⟨l₂, m', l₃, rfl, -, hm, hrest⟩ := List.filterMap_eq_cons_iff.mp htail
  refine ⟨l₁ ++ l₂, l₃, ?_, hrest⟩
  split at hm
  · cases hm
    simp
  · cases hm

/-- Where something is seen last. -/
theorem last_of_mem {α : Type} {a : α} {l : List α} (h : a ∈ l) :
    ∃ l₁ l₂, l = l₁ ++ a :: l₂ ∧ a ∉ l₂ := by
  obtain ⟨l₁, l₂, hl, hfirst⟩ := List.eq_append_cons_of_mem (List.mem_reverse.mpr h)
  refine ⟨l₂.reverse, l₁.reverse, ?_, by simpa using hfirst⟩
  have hback := congrArg List.reverse hl
  simpa using hback

/-- Only a step of the stream starts a read. -/
theorem event_of_read {l l' : Events.Live} {e : LiveEvent} {bs : List LiveMoment} {w : ℕ}
    (h : listening.step l e = some (l', bs)) (hmem : .moment (.read w) ∈ bs) :
    e = .inner (.turn w .read) := by
  cases step_of_listening h with
  | inner hstep =>
    obtain ⟨m, hm, heq⟩ := List.mem_map.mp hmem
    cases heq
    cases hstep <;> simp at hm
    subst hm
    rfl
  | _ => simp at hmem

end Steps

/-! ### The loop -/

section Loops

variable {st : Events.Stream} {s s' : Watched} {as tr : List WatchMoment}

@[simp] theorem waits_append (tr as : List WatchMoment) : waits (tr ++ as) =
    as.foldl (fun n m => match m with
      | .shown _ => 0
      | .sleeping _ => n + 1
      | _ => n) (waits tr) := List.foldl_append

/-- A moment that is none of the loop. -/
theorem waits_live (tr : List WatchMoment) (as : List LiveMoment) :
    waits (tr ++ as.map WatchMoment.live) = waits tr := by
  rw [waits_append, List.foldl_map]
  induction as with
  | nil => rfl
  | cons m as ih => exact ih

/-- What holds of the loop of the hook. -/
structure Looping (h : Hook) (tr : List WatchMoment) : Prop where
  error : ∀ e, h.error = some e → isAuthError (some e) = true ∧ h.loop = .ended
  ended : h.loop = .ended → h.aborted = true ∨ .refused ∈ tr
  attempt : h.attempt = waits tr
  delay : ∀ tr₁ d tr₂, tr = tr₁ ++ .sleeping d :: tr₂ → d = reconnectDelay (waits tr₁)

/-- The waits that were recorded before stay as they were. -/
theorem Looping.delay_append {h : Hook} (hl : Looping h tr) (has : as = [] ∨ ∃ m, as = [m])
    (hnew : ∀ d, as = [.sleeping d] → d = reconnectDelay h.attempt) :
    ∀ tr₁ d tr₂, tr ++ as = tr₁ ++ .sleeping d :: tr₂ → d = reconnectDelay (waits tr₁) := by
  intro tr₁ d tr₂ heq
  rcases split_append has heq with ⟨tr₃, -, heq⟩ | ⟨-, has, rfl⟩
  · exact hl.delay tr₁ d tr₃ heq
  · rw [hnew d has, hl.attempt]

theorem Looping.hook_step {h h' : Hook} (hl : Looping h tr) (hstep : h.Step h' as) :
    Looping h' (tr ++ as) := by
  cases hstep with
  | message hloop =>
    refine ⟨by simp, fun hended => ?_, by simp, hl.delay_append (.inr ⟨_, rfl⟩) (by simp)⟩
    rw [hloop] at hended
    cases hended
  | finish hloop =>
    -- an error would have ended the loop
    have hnone : ∀ e, h.error ≠ some e := by
      intro e he
      have hended := (hl.error e he).2
      rw [hloop] at hended
      cases hended
    unfold Hook.backOff
    split
    · next haborted =>
      refine ⟨fun e he => absurd he (hnone e), fun _ => .inl haborted, ?_,
        hl.delay_append (.inl rfl) (by simp)⟩
      simpa using hl.attempt
    · refine ⟨fun e he => absurd he (hnone e), by simp, ?_,
        hl.delay_append (.inr ⟨_, rfl⟩) (by simp)⟩
      simpa using hl.attempt
  | @refused _ e error hloop hauth herror =>
    refine ⟨fun e' he => ?_, fun _ => .inr (by simp), ?_, hl.delay_append (.inr ⟨_, rfl⟩) (by simp)⟩
    · rcases herror with rfl | rfl
      · cases he
        exact ⟨hauth, rfl⟩
      · exact ⟨(hl.error e' he).1, rfl⟩
    · simpa using hl.attempt
  | timeout hloop hnext =>
    refine ⟨fun e he => ?_, fun hended => ?_, ?_, hl.delay_append (.inl rfl) (by simp)⟩
    · have hended := (hl.error e he).2
      rw [hloop] at hended
      cases hended
    · rcases hnext with rfl | ⟨-, haborted⟩
      · cases hended
      · exact .inl haborted
    · simpa using hl.attempt
  | abort =>
    refine ⟨hl.error, fun _ => .inl rfl, ?_, hl.delay_append (.inl rfl) (by simp)⟩
    simpa using hl.attempt

/-- A step that does not concern the loop. -/
theorem Looping.same {h h' : Hook} (hl : Looping h tr) (has : as = [] ∨ ∃ m, as = [m])
    (hwaits : waits (tr ++ as) = waits tr) (hquiet : ∀ d, as ≠ [.sleeping d])
    (herror : h'.error = h.error) (hattempt : h'.attempt = h.attempt)
    (haborted : h'.aborted = h.aborted) (hended : h'.loop = .ended ↔ h.loop = .ended) :
    Looping h' (tr ++ as) where
  error e he := by
    rw [herror] at he
    exact ⟨(hl.error e he).1, hended.mpr (hl.error e he).2⟩
  ended h := by
    rw [haborted]
    exact (hl.ended (hended.mp h)).imp_right (List.mem_append_left _)
  attempt := by rw [hattempt, hwaits, hl.attempt]
  delay := hl.delay_append has fun d hd => absurd hd (hquiet d)

theorem Looping.step (hl : Looping s.hook tr) (hstep : s.Step st s' as) :
    Looping s'.hook (tr ++ as) := by
  have hone := hstep.recorded
  have hmap : ∀ (bs : List LiveMoment) d, bs.map WatchMoment.live ≠ [.sleeping d] := by
    intro bs d h
    obtain ⟨m, -, heq⟩ := List.map_eq_singleton_iff.mp h
    cases heq
  cases hstep with
  | change => exact hl.same hone (by simp) (by simp) rfl rfl rfl Iff.rfl
  | read => exact hl.same hone (waits_live tr _) (hmap _) rfl rfl rfl Iff.rfl
  | @sent w =>
    refine hl.same hone (waits_live tr _) (hmap _) ?_ ?_ ?_ ?_ <;> unfold Hook.sent <;> split <;>
      simp
  | quiet => exact hl.same hone (waits_live tr _) (hmap _) rfl rfl rfl Iff.rfl
  | request hloop => exact hl.same hone (by simp) (by simp) rfl rfl rfl (by simp [hloop])
  | hook h => exact hl.hook_step h

end Loops

/-! ### The versions -/

section Versions

variable {st : Events.Stream} {s s' : Watched} {as tr : List WatchMoment} {shown asked : List ℕ}
  {l l' : Events.Live} {e : LiveEvent} {bs : List LiveMoment} {w : ℕ} {sub : Subscription}

/-- `reading_step`, next to the listener. -/
theorem live_reading (h : listening.step l e = some (l', bs))
    (hw : l'.server.threads[w]? = some (.reading sub)) :
    l.server.threads[w]? = some (.reading sub) ∨ e = .inner (.turn w .read) := by
  cases step_of_listening h with
  | deliver =>
    rcases thread_append.mp hw with ⟨-, heq⟩ | hw
    · cases heq
    · exact .inl hw
  | inner hstep => exact (reading_step hstep hw).imp_right (congrArg LiveEvent.inner)
  | _ => exact .inl hw

/-- `waiting_step`, next to the listener. -/
theorem live_waiting (h : listening.step l e = some (l', bs))
    (hw : l'.server.threads[w]? = some (.waiting sub)) :
    l.server.threads[w]? = some (.waiting sub) ∨ e = .inner (.turn w (.sent true)) := by
  cases step_of_listening h with
  | deliver =>
    rcases thread_append.mp hw with ⟨-, heq⟩ | hw
    · cases heq
    · exact .inl hw
  | inner hstep =>
    exact (waiting_step hstep hw).imp_right fun h => congrArg LiveEvent.inner h.1
  | _ => exact .inl hw

/-- `serves_step`, next to the listener. -/
theorem live_serves (h : listening.step l e = some (l', bs))
    (hw : ∃ g, l.server.threads[w]? = some g ∧ Serves st g) :
    ∃ g, l'.server.threads[w]? = some g ∧ Serves st g := by
  cases step_of_listening h with
  | deliver =>
    obtain ⟨g, hw, hst⟩ := hw
    exact ⟨g, thread_append.mpr (.inr hw), hst⟩
  | inner hstep => exact serves_step hstep hw
  | _ => exact hw

/-- A read begins where it was due. -/
theorem due_of_read (h : listening.step l (.inner (.turn w .read)) = some (l', bs)) :
    (∃ sub, l.server.threads[w]? = some (.due sub) ∧
      l'.server.threads[w]? = some (.reading sub)) ∧ bs = [.moment (.read w)] := by
  cases step_of_listening h with
  | inner hstep =>
    cases hstep with
    | read hi => exact ⟨⟨_, hi, List.getElem?_set_self (lt_of_thread hi)⟩, rfl⟩

/-- What is sent was being read. -/
theorem reading_of_sent (h : listening.step l (.inner (.turn w (.sent true))) = some (l', bs)) :
    ∃ sub, l.server.threads[w]? = some (.reading sub) ∧
      l'.server.threads[w]? = some (.waiting sub) := by
  cases step_of_listening h with
  | inner hstep =>
    cases hstep with
    | sent hi => exact ⟨_, hi, List.getElem?_set_self (lt_of_thread hi)⟩

/-- What holds of the versions that were shown, are on their way or have been found, and of those
at which the page asked. -/
structure Ordered (s : Watched) (shown asked : List ℕ) : Prop where
  found_le : ∀ w, s.found w ≤ s.version
  bounded : ∀ v ∈ shown ++ s.hook.inFlight, v ≤ s.version
  asked_le : ∀ v ∈ asked, v ≤ s.version ∧ ∀ v' ∈ s.hook.inFlight, v ≤ v'
  order : (shown ++ s.hook.inFlight).Pairwise (· ≤ ·)
  /-- What the stream of the page has found is sent after all that. -/
  reading : ∀ w sub, s.hook.loop = .iterating (some w) →
    s.live.server.threads[w]? = some (.reading sub) →
    (∀ v ∈ shown ++ s.hook.inFlight, v ≤ s.found w) ∧ ∀ v ∈ asked, v ≤ s.found w
  idle : (∀ w, s.hook.loop ≠ .iterating (some w)) → s.hook.inFlight = []
  /-- What the stream has found was sent last. -/
  last : ∀ w sub, s.hook.loop = .iterating (some w) →
    s.live.server.threads[w]? = some (.waiting sub) →
    s.hook.inFlight.getLast?.or s.hook.shown = some (s.found w)

theorem Ordered.read (h : Ordered s shown asked)
    (hstep : listening.step s.live (.inner (.turn w .read)) = some (l', bs)) :
    Ordered { s with live := l', found := Function.update s.found w s.version } shown asked := by
  obtain ⟨⟨sub, hdue, hreading⟩, -⟩ := due_of_read hstep
  refine ⟨fun w' => ?_, h.bounded, h.asked_le, h.order, fun w' sub' hloop hw' => ?_, h.idle,
    fun w' sub' hloop hw' => ?_⟩
  · by_cases hw : w' = w
    · simp [hw]
    · simpa [hw] using h.found_le w'
  · by_cases hw : w' = w
    · subst hw
      simp only [Function.update_self]
      exact ⟨h.bounded, fun v hv => (h.asked_le v hv).1⟩
    · rcases live_reading hstep hw' with hw' | heq
      · simpa [hw] using h.reading w' sub' hloop hw'
      · cases heq
        exact absurd rfl hw
  · have hw : w' ≠ w := by
      rintro rfl
      rw [hreading] at hw'
      cases hw'
    rcases live_waiting hstep hw' with hw' | heq
    · simpa [hw] using h.last w' sub' hloop hw'
    · cases heq

theorem Ordered.sent (h : Ordered s shown asked)
    (hstep : listening.step s.live (.inner (.turn w (.sent true))) = some (l', bs)) :
    Ordered { s with live := l', hook := s.hook.sent w (s.found w) } shown asked := by
  obtain ⟨sub, hreading, hwaiting⟩ := reading_of_sent hstep
  unfold Hook.sent
  split
  · next hloop =>
    obtain ⟨hbelow, hasked⟩ := h.reading w sub hloop hreading
    have hassoc : shown ++ (s.hook.inFlight ++ [s.found w]) =
        (shown ++ s.hook.inFlight) ++ [s.found w] := (List.append_assoc _ _ _).symm
    refine ⟨h.found_le, ?_, fun v hv => ⟨(h.asked_le v hv).1, fun v' hv' => ?_⟩, ?_,
      fun w' sub' hloop' hw' => ?_, fun hidle => absurd hloop (hidle w), fun w' sub' hloop' _ => ?_⟩
    · rw [hassoc]
      intro v hv
      rcases List.mem_append.mp hv with hv | hv
      · exact h.bounded v hv
      · rw [List.mem_singleton.mp hv]
        exact h.found_le w
    · rcases List.mem_append.mp hv' with hv' | hv'
      · exact (h.asked_le v hv).2 v' hv'
      · rw [List.mem_singleton.mp hv']
        exact hasked v hv
    · rw [hassoc]
      refine List.pairwise_append.mpr ⟨h.order, List.pairwise_singleton _ _, fun v hv v' hv' => ?_⟩
      rw [List.mem_singleton.mp hv']
      exact hbelow v hv
    · -- the stream of the page waits now
      cases hloop.symm.trans hloop'
      rw [hwaiting] at hw'
      cases hw'
    · cases hloop.symm.trans hloop'
      simp
  · next hloop =>
    refine ⟨h.found_le, h.bounded, h.asked_le, h.order, fun w' sub' hloop' hw' => ?_, h.idle,
      fun w' sub' hloop' hw' => ?_⟩
    · rcases live_reading hstep hw' with hw' | heq
      · exact h.reading w' sub' hloop' hw'
      · cases heq
    · rcases live_waiting hstep hw' with hw' | heq
      · exact h.last w' sub' hloop' hw'
      · cases heq
        exact absurd hloop' hloop

theorem Ordered.quiet (h : Ordered s shown asked) (hread : ∀ w, e ≠ .inner (.turn w .read))
    (hsent : ∀ w, e ≠ .inner (.turn w (.sent true)))
    (hstep : listening.step s.live e = some (l', bs)) :
    Ordered { s with live := l' } shown asked :=
  ⟨h.found_le, h.bounded, h.asked_le, h.order,
    fun w' sub' hloop hw' =>
      h.reading w' sub' hloop ((live_reading hstep hw').resolve_right (hread w')),
    h.idle,
    fun w' sub' hloop hw' =>
      h.last w' sub' hloop ((live_waiting hstep hw').resolve_right (hsent w'))⟩

theorem Ordered.request (h : Ordered s shown asked) (hloop : s.hook.loop = .iterating none)
    (hstep : listening.step s.live (.inner (.call (opening st))) = some (l', [])) :
    Ordered { s with live := l', hook :=
      { s.hook with loop := .iterating (some s.live.server.threads.length) } } shown
      (asked ++ [s.version]) ∧
    l'.server.threads[s.live.server.threads.length]? = some (.subscribe st) := by
  have hempty : s.hook.inFlight = [] := h.idle (by simp [hloop])
  have hnew : l'.server.threads[s.live.server.threads.length]? = some (.subscribe st) := by
    obtain ⟨tenant, snapshot⟩ := st
    cases snapshot <;> cases hstep <;> exact thread_append.mpr (.inl ⟨rfl, rfl⟩)
  refine ⟨⟨h.found_le, h.bounded, fun v hv => ⟨?_, by simp [hempty]⟩, h.order,
    fun w sub hw hreading => ?_, fun _ => hempty, fun w sub hw hwaiting => ?_⟩, hnew⟩
  · rcases List.mem_append.mp hv with hv | hv
    · exact (h.asked_le v hv).1
    · exact (List.mem_singleton.mp hv).le
  · cases hw
    rw [hnew] at hreading
    cases hreading
  · cases hw
    rw [hnew] at hwaiting
    cases hwaiting

/-- The stream is given up, or none is asked for. -/
theorem Ordered.leave (h : Ordered s shown asked) {k : Hook}
    (hloop : ∀ w, k.loop ≠ .iterating (some w)) (hempty : k.inFlight = []) :
    Ordered { s with hook := k } shown asked where
  found_le := h.found_le
  bounded v hv := by
    rw [hempty, List.append_nil] at hv
    exact h.bounded v (List.mem_append_left _ hv)
  asked_le v hv := ⟨(h.asked_le v hv).1, by simp [hempty]⟩
  order := by
    rw [hempty, List.append_nil]
    exact (List.pairwise_append.mp h.order).1
  reading w _ hw := absurd hw (hloop w)
  idle _ := hempty
  last w _ hw := absurd hw (hloop w)

theorem Ordered.hook (h : Ordered s shown asked) {k : Hook} (hstep : s.hook.Step k as) :
    Ordered { s with hook := k } (shown ++ shownIn as) asked := by
  cases hstep with
  | @message stream v rest hloop hflight =>
    have hassoc : (shown ++ [v]) ++ rest = shown ++ s.hook.inFlight := by simp [hflight]
    have hsub : ∀ v' ∈ rest, v' ∈ s.hook.inFlight := fun v' hv' => by simp [hflight, hv']
    refine ⟨h.found_le, fun v' hv' => h.bounded v' (hassoc ▸ hv'),
      fun v' hv' => ⟨(h.asked_le v' hv').1,
        fun v'' hv'' => (h.asked_le v' hv').2 v'' (hsub v'' hv'')⟩,
      ?_, fun w sub hw hreading => ?_, fun hidle => ?_, fun w sub hw hwaiting => ?_⟩
    · show ((shown ++ [v]) ++ rest).Pairwise _
      rw [hassoc]
      exact h.order
    · obtain ⟨hbelow, hasked⟩ := h.reading w sub hw hreading
      exact ⟨fun v' hv' => hbelow v' (hassoc ▸ hv'), hasked⟩
    · have hempty := h.idle hidle
      rw [hflight] at hempty
      cases hempty
    · have hlast := h.last w sub hw hwaiting
      rw [hflight] at hlast
      cases rest with
      | nil => simpa using hlast
      | cons v' rest =>
        rw [List.getLast?_cons_cons, List.getLast?_eq_some_getLast (List.cons_ne_nil _ _)] at hlast
        show ((v' :: rest).getLast?).or (some v) = _
        rw [List.getLast?_eq_some_getLast (List.cons_ne_nil _ _)]
        exact hlast
  | finish =>
    unfold Hook.backOff
    split
    · simpa [shownIn] using h.leave (by simp) rfl
    · simpa [shownIn] using h.leave (by simp) rfl
  | refused => simpa [shownIn] using h.leave (by simp) rfl
  | timeout hloop hnext =>
    have hempty := h.idle (by simp [hloop])
    rcases hnext with rfl | ⟨rfl, -⟩
    · simpa [shownIn] using h.leave (k := { s.hook with loop := .iterating none }) (by simp) hempty
    · simpa [shownIn] using h.leave (k := { s.hook with loop := .ended }) (by simp) hempty
  | abort =>
    rw [show shownIn [] = [] from rfl, List.append_nil]
    exact ⟨h.found_le, h.bounded, h.asked_le, h.order, h.reading, h.idle, h.last⟩

end Versions

/-! ### Every run -/

section Runs

variable {st : Events.Stream} {s s' : Watched} {as tr : List WatchMoment}

/-- The versions at which the page asked for a stream. -/
def askedIn (tr : List WatchMoment) : List ℕ :=
  tr.filterMap fun
    | .requested v => some v
    | _ => none

@[simp] theorem askedIn_append (tr as : List WatchMoment) :
    askedIn (tr ++ as) = askedIn tr ++ askedIn as := List.filterMap_append

@[simp] theorem askedIn_map (as : List LiveMoment) : askedIn (as.map WatchMoment.live) = [] := by
  simp [askedIn, List.filterMap_map]

theorem mem_askedIn {v : ℕ} (h : .requested v ∈ tr) : v ∈ askedIn tr :=
  List.mem_filterMap.mpr ⟨_, h, rfl⟩

/-- What holds of the page, the service and the moments that led to them. -/
structure Tracked (st : Events.Stream) (s : Watched) (tr : List WatchMoment) : Prop where
  run : ∃ es, listening.Run Events.Live.initial es s.live (lives tr)
  ordered : Ordered s (shownIn tr) (askedIn tr)
  looping : Looping s.hook tr
  /-- What was read since the last change is what the database has. -/
  found : ∀ tr₁ w tr₂, tr = tr₁ ++ .live (.moment (.read w)) :: tr₂ → .changed ∉ tr₂ →
    s.found w = s.version
  since : ∀ tr₁ v tr₂, tr = tr₁ ++ .requested v :: tr₂ → ∀ v' ∈ shownIn tr₂, v ≤ v'
  serves : ∀ w, s.hook.loop = .iterating (some w) →
    ∃ g, s.live.server.threads[w]? = some g ∧ Serves st g

/-- What the page asked for before a step is not younger than what the step shows. -/
theorem Tracked.since_append (h : Tracked st s tr) (has : as = [] ∨ ∃ m, as = [m])
    (hshown : ∀ v ∈ shownIn as, v ∈ s.hook.inFlight) :
    ∀ tr₁ v tr₂, tr ++ as = tr₁ ++ .requested v :: tr₂ → ∀ v' ∈ shownIn tr₂, v ≤ v' := by
  intro tr₁ v tr₂ heq v' hv'
  rcases split_append has heq with ⟨tr₃, rfl, rfl⟩ | ⟨rfl, -, -⟩
  · rw [shownIn_append] at hv'
    rcases List.mem_append.mp hv' with hv' | hv'
    · exact h.since tr₁ v tr₃ rfl v' hv'
    · exact (h.ordered.asked_le v (mem_askedIn (by simp))).2 v' (hshown v' hv')
  · simp [shownIn] at hv'

/-- What was read before a step that reads nothing. -/
theorem Tracked.found_append (h : Tracked st s tr) (has : as = [] ∨ ∃ m, as = [m]) {w v : ℕ}
    (hread : as ≠ [.live (.moment (.read w))]) (hversion : .changed ∉ as → v = s.version) :
    ∀ tr₁ tr₂, tr ++ as = tr₁ ++ .live (.moment (.read w)) :: tr₂ → .changed ∉ tr₂ →
      s.found w = v := by
  intro tr₁ tr₂ heq hchanged
  rcases split_append has heq with ⟨tr₃, rfl, rfl⟩ | ⟨-, has, -⟩
  · rw [hversion fun hmem => hchanged (List.mem_append_right _ hmem)]
    exact h.found tr₁ w tr₃ rfl fun hmem => hchanged (List.mem_append_left _ hmem)
  · exact absurd has hread

/-- A step of the service that the page does not ask for. -/
theorem Tracked.live_step (h : Tracked st s tr) {e : LiveEvent} {l : Events.Live}
    {bs : List LiveMoment} (hstep : listening.step s.live e = some (l, bs)) :
    (∃ es, listening.Run Events.Live.initial es l (lives (tr ++ bs.map WatchMoment.live))) ∧
      ∀ w, s.hook.loop = .iterating (some w) →
        ∃ g, l.server.threads[w]? = some g ∧ Serves st g := by
  obtain ⟨es, hrun⟩ := h.run
  refine ⟨⟨es ++ [e], ?_⟩, fun w hloop => live_serves hstep (h.serves w hloop)⟩
  rw [lives_append, lives_map]
  exact .snoc hrun trivial hstep

theorem Tracked.step (h : Tracked st s tr) (hstep : s.Step st s' as) :
    Tracked st s' (tr ++ as) := by
  have hone := hstep.recorded
  have hlooping := h.looping.step hstep
  -- what a step of the service records is no read of the page's stream
  have hquiet : ∀ {e l bs w}, listening.step s.live e = some (l, bs) → e ≠ .inner (.turn w .read) →
      bs.map WatchMoment.live ≠ [.live (.moment (.read w))] := by
    intro e l bs w hlive hne heq
    obtain ⟨m, rfl, hm⟩ := List.map_eq_singleton_iff.mp heq
    cases hm
    exact hne (event_of_read hlive (List.mem_singleton_self _))
  have hmap : ∀ bs : List LiveMoment, .changed ∉ bs.map WatchMoment.live := by simp
  cases hstep with
  | change =>
    refine ⟨?_, ?_, hlooping, fun tr₁ w => h.found_append hone (by simp) (by simp) tr₁,
      h.since_append hone (by simp [shownIn]), h.serves⟩
    · simpa [lives] using h.run
    · have hordered := h.ordered
      have hle : ∀ {n}, n ≤ s.version → n ≤ s.version + 1 := fun hn => hn.trans (Nat.le_succ _)
      simp only [shownIn_append, askedIn_append]
      simp only [shownIn, askedIn, List.filterMap_cons, List.filterMap_nil, List.append_nil]
      exact ⟨fun w => hle (hordered.found_le w), fun v hv => hle (hordered.bounded v hv),
        fun v hv => ⟨hle (hordered.asked_le v hv).1, (hordered.asked_le v hv).2⟩, hordered.order,
        hordered.reading, hordered.idle, hordered.last⟩
  | @read w l bs hlive =>
    obtain ⟨hrun, hserves⟩ := h.live_step hlive
    refine ⟨hrun, by simpa using h.ordered.read hlive, hlooping, fun tr₁ w' tr₂ heq hchanged => ?_,
      h.since_append hone (by simp), hserves⟩
    show Function.update s.found w s.version w' = s.version
    by_cases hw : w' = w
    · rw [hw, Function.update_self]
    · rw [Function.update_of_ne hw]
      have hne : LiveEvent.inner (.turn w .read) ≠ .inner (.turn w' .read) := by
        rintro ⟨⟩
        exact hw rfl
      exact h.found_append hone (hquiet hlive hne) (fun _ => rfl) tr₁ tr₂ heq hchanged
  | @sent w l bs hlive =>
    obtain ⟨hrun, hserves⟩ := h.live_step hlive
    refine ⟨hrun, by simpa using h.ordered.sent hlive, hlooping, fun tr₁ w' =>
      h.found_append hone (hquiet hlive (by simp)) (fun _ => rfl) tr₁,
      h.since_append hone (by simp), fun w' hloop => hserves w' ?_⟩
    unfold Hook.sent at hloop
    split at hloop <;> exact hloop
  | quiet hread hsent hlive =>
    obtain ⟨hrun, hserves⟩ := h.live_step hlive
    exact ⟨hrun, by simpa using h.ordered.quiet hread hsent hlive, hlooping, fun tr₁ w' =>
      h.found_append hone (hquiet hlive (hread w')) (fun _ => rfl) tr₁,
      h.since_append hone (by simp), hserves⟩
  | request hloop hlive =>
    obtain ⟨es, hrun⟩ := h.run
    obtain ⟨hordered, hnew⟩ := h.ordered.request hloop hlive
    refine ⟨⟨es ++ [.inner (.call (opening st))], ?_⟩, ?_, hlooping, fun tr₁ w' =>
      h.found_append hone (by simp) (fun _ => rfl) tr₁, h.since_append hone (by simp [shownIn]),
      fun w hw => ?_⟩
    · have hlives : lives (tr ++ [.requested s.version]) = lives tr ++ [] := lives_append _ _
      rw [hlives]
      exact .snoc hrun trivial hlive
    · simpa [shownIn, askedIn] using hordered
    · cases hw
      exact ⟨_, hnew, .inr rfl⟩
  | hook hhook =>
    have hlives : lives as = [] := by
      cases hhook with
      | finish =>
        unfold Hook.backOff
        split <;> rfl
      | _ => rfl
    have hasked : askedIn as = [] := by
      cases hhook with
      | finish =>
        unfold Hook.backOff
        split <;> rfl
      | _ => rfl
    have hnone : ∀ m, .live m ∉ as := by
      intro m hm
      have hmem := mem_lives.mpr hm
      rw [hlives] at hmem
      cases hmem
    refine ⟨?_, ?_, hlooping, fun tr₁ w' => h.found_append hone ?_ (fun _ => rfl) tr₁,
      h.since_append hone ?_, ?_⟩
    · rw [lives_append, hlives, List.append_nil]
      exact h.run
    · rw [shownIn_append, askedIn_append, hasked, List.append_nil]
      exact h.ordered.hook hhook
    · rintro rfl
      exact hnone _ (List.mem_singleton_self _)
    · cases hhook with
      | message _ hflight => simp [shownIn, hflight]
      | finish =>
        unfold Hook.backOff
        split <;> simp [shownIn]
      | _ => simp [shownIn]
    · intro w hw
      refine h.serves w ?_
      cases hhook with
      | message hloop => exact hw
      | finish hloop =>
        unfold Hook.backOff at hw
        split at hw <;> cases hw
      | refused => cases hw
      | timeout hloop hnext =>
        rcases hnext with rfl | ⟨rfl, -⟩ <;> cases hw
      | abort => exact hw

/-- The stream of a settled page has read since a notification that came after it subscribed. -/
theorem Tracked.read_of_notified (h : Tracked st s tr) {w : ℕ} {sub : Subscription}
    (hs : s.Settled w) (hwaiting : s.live.server.threads[w]? = some (.waiting sub))
    (hempty : ¬ s.live.server.Full sub.ch) {tr₁ tr₂ : List WatchMoment}
    (heq : tr = tr₁ ++ .live (.notified st.tenant true) :: tr₂) (hlost : .live .lost ∉ tr₂)
    (hsub : .live (.moment (.subscribed w st.tenant sub.ch)) ∈ tr₁) :
    .live (.moment (.read w)) ∈ tr₂ := by
  obtain ⟨es, hrun⟩ := h.run
  have hlives : lives tr = lives tr₁ ++ .notified st.tenant true :: lives tr₂ := by
    rw [heq, lives_append]
    rfl
  have hheard := (delivered_of_run hrun).heard _ _ st.tenant w sub.ch hlives
    (fun hmem => hlost (mem_lives.mp hmem)) (mem_lives.mpr hsub)
  rcases hheard with ⟨before, hqueue⟩ | ⟨p, l₁, l₂, htaken, hpublishing | hheard⟩
  · rw [hs.queue] at hqueue
    simp at hqueue
  · exact absurd hpublishing (hs.publishes p)
  · rcases hheard with ⟨g, hg, hended⟩ | ⟨before, after, hafter, hread | ⟨sub', hdue, -⟩ | hfull⟩
    · obtain rfl := Option.some.inj (hwaiting.symm.trans hg)
      cases hended
    · rw [← mem_lives, htaken]
      refine List.mem_append_right _ (List.mem_cons_of_mem _ (mem_moments.mp ?_))
      rw [hafter]
      exact List.mem_append_right _ (List.mem_cons_of_mem _ hread)
    · rw [hwaiting] at hdue
      cases hdue
    · exact absurd hfull hempty

/-- **A settled page shows what the database has.** -/
theorem Tracked.current (h : Tracked st s tr) {w : ℕ} (hs : s.Settled w)
    (hannounced : ∀ tr₁ tr₂ ch, tr = tr₁ ++ .changed :: tr₂ → .changed ∉ tr₂ →
      .live (.moment (.subscribed w st.tenant ch)) ∈ tr₁ → Announced st.tenant tr₂) :
    s.hook.shown = some s.version := by
  obtain ⟨sub, hwaiting, hempty⟩ := hs.stream
  have hlast := h.ordered.last w sub hs.loop hwaiting
  rw [hs.inFlight] at hlast
  have hshown : s.hook.shown = some (s.found w) := hlast
  rw [hshown]
  obtain ⟨g, hg, hserves⟩ := h.serves w hs.loop
  obtain rfl := Option.some.inj (hwaiting.symm.trans hg)
  have htenant : sub.stream = st := by
    rcases hserves with hreturned | hst
    · cases hreturned
    · exact Option.some.inj hst
  -- the stream has read after it had subscribed
  obtain ⟨es, hrun⟩ := h.run
  obtain ⟨⟨es', hcalls⟩, -⟩ := listening_invariant hrun
  obtain ⟨ms₁, ms₂, hms, hread⟩ := subscribed_of_run hcalls w _ sub hwaiting rfl
  rw [htenant] at hms
  obtain ⟨ls₁, ls₂, hls, hmoments⟩ := split_moments hms
  obtain ⟨tr₁, tr₂, htr, hlives⟩ := split_lives hls
  have hread₂ : .live (.moment (.read w)) ∈ tr₂ := by
    rw [← mem_lives, hlives, ← mem_moments, hmoments]
    exact hread.resolve_left (by simp)
  -- and after the last change too
  suffices hlate : ∃ pre post, tr = pre ++ post ∧ .live (.moment (.read w)) ∈ post ∧
      .changed ∉ post by
    obtain ⟨pre, post, rfl, hmem, hchanged⟩ := hlate
    obtain ⟨mid, rest, rfl⟩ := List.append_of_mem hmem
    refine congrArg some (h.found (pre ++ mid) w rest (by simp) fun hrest => hchanged ?_)
    exact List.mem_append_right _ (List.mem_cons_of_mem _ hrest)
  by_cases hchanged : .changed ∈ tr₂
  · obtain ⟨x, y, rfl, hy⟩ := last_of_mem hchanged
    have hchange : tr = (tr₁ ++ .live (.moment (.subscribed w st.tenant sub.ch)) :: x) ++
        .changed :: y := by simp [htr]
    obtain ⟨y₁, y₂, rfl, hlost⟩ := hannounced _ y sub.ch hchange hy (by simp)
    have hnotified : tr = (tr₁ ++ .live (.moment (.subscribed w st.tenant sub.ch)) :: x ++
        .changed :: y₁) ++ .live (.notified st.tenant true) :: y₂ := by simp [htr]
    have hread := h.read_of_notified hs hwaiting hempty hnotified hlost (by simp)
    refine ⟨_, _, hnotified, List.mem_cons_of_mem _ hread, fun hmem => hy ?_⟩
    exact List.mem_append_right _ hmem
  · exact ⟨_, _, htr, List.mem_cons_of_mem _ hread₂, by simpa using hchanged⟩

theorem tracked_opened (version : ℕ) : Tracked st (Watched.opened version) [] := by
  refine ⟨⟨[], .refl⟩, ⟨?_, ?_, ?_, ?_, ?_, ?_, ?_⟩, ⟨?_, ?_, ?_, ?_⟩, ?_, ?_, ?_⟩ <;>
    simp [Watched.opened, Hook.mounted, shownIn, askedIn, waits]

/-- **What a page shows.**  In every interleaving of a page, the changes of what it shows, the
listener, its sessions and the streams of any pages: the page never goes back; what it shows is not
older than its request; when nothing is on its way it shows what the database has, unless the last
change was not announced to a session that is not lost; it stops for a refused credential only, and
shows no other error; and it waits between a second and half a minute before it asks again. -/
theorem page_shows {version : ℕ} {es : List WatchEvent}
    (h : (watching st).Run (Watched.opened version) es s tr) : Shows st s tr := by
  have htracked : Tracked st s tr := by
    refine h.invariant (J := Tracked st) (tracked_opened version) fun s tr e s' as hJ _ hstep => ?_
    exact hJ.step (step_of_watching hstep)
  have hordered := htracked.ordered
  refine ⟨(List.pairwise_append.mp hordered.order).1, fun tr₁ v tr₂ heq v' hv' => ⟨?_, ?_⟩,
    fun w hs hannounced => htracked.current hs hannounced, htracked.looping.error,
    htracked.looping.ended, fun tr₁ d tr₂ heq => ?_⟩
  · exact htracked.since tr₁ v tr₂ heq v' hv'
  · refine hordered.bounded v' (List.mem_append_left _ ?_)
    rw [heq, shownIn_append]
    refine List.mem_append_right _ ?_
    simpa [shownIn] using hv'
  · obtain rfl := htracked.looping.delay tr₁ d tr₂ heq
    exact ⟨rfl, reconnectDelay_bounds _⟩

/-- What a page of acme does next to one change: it subscribes, it is shown what there is, the
change is notified and published, and it is shown again. -/
def oneChange : List WatchEvent :=
  [.live .listen, .hook (.throw none), .hook .timeout, .request,
    .live (.inner (.turn 0 .lock)), .live (.inner (.turn 0 .unlock)),
    .live (.inner (.turn 0 .read)), .live (.inner (.turn 0 (.sent true))), .change,
    .hook .message, .live (.notify "acme"), .live .deliver, .live (.inner (.turn 1 .lock)),
    .live (.inner (.turn 1 (.send 0))), .live (.inner (.turn 1 .unlock)), .live .resume,
    .live (.inner (.turn 0 .receive)), .live (.inner (.turn 0 .read)),
    .live (.inner (.turn 0 (.sent true))), .hook .message]

/-- The page fails once, and then shows the change. -/
theorem oneChange_shows : ∃ s tr,
    (watching ⟨"acme", .connections⟩).Run (Watched.opened 4) oneChange s tr ∧
      shownIn tr = [4, 5] ∧ Shows ⟨"acme", .connections⟩ s tr := by
  have hexec : ((watching ⟨"acme", .connections⟩).exec (fun _ _ _ => true) (Watched.opened 4) []
      oneChange).map Prod.snd =
      some [.live .listening, .sleeping 1000, .requested 4,
        .live (.moment (.subscribed 0 "acme" 0)), .live (.moment (.read 0)), .changed, .shown 4,
        .live (.notified "acme" true), .live (.taken 1 "acme"),
        .live (.moment (.locked 1 "acme")), .live (.moment (.signalled 1 0)),
        .live (.moment (.published 1 "acme")), .live (.moment (.read 0)), .shown 5] := rfl
  obtain ⟨s, hrun⟩ := Lts.exists_run hexec
  exact ⟨s, _, hrun, rfl, page_shows hrun⟩

end Runs

end Web
end Hivebook
