import Mathlib.Data.List.AList
import Hivebook.Lib.Transition

/-!
# The broker of change signals

`internal/events/events.go`, and the watch loops of `server.go` that live on it.  A
watcher subscribes to the signals of its tenant, reads the database once, and then
again after every signal it receives.  A signal is a full buffer: a channel has one
slot, and a `Publish` that finds it full leaves it alone.

The calls run side by side.  The mutex serialises the broker's three functions, but
`Publish` sends inside its critical section, channel by channel, while the watchers
receive without the mutex: every send and every receive is a step of its own.

## Main definitions

* `Broker` — the mutex, the counter and the nested map of channels; `Broker.lookup` —
  what is registered under an id.
* `Goroutine` — where a call of `Publish`, of `WatchConnections` or of `WatchProjects` is.
* `calls` — any number of calls side by side.
* `Step` — what each step does.

## Main results

* `step_of_calls` — every step of the system is one of `Step`.
* `lookup_subscribe_of_ne`, `lookup_unsubscribe_of_ne` — the nested map is changed at one
  id only, whether or not a tenant's map is made or pruned.
-/

namespace Hivebook
namespace Events

/-- The address of a channel, which buffers at most one signal. -/
abbrev Channel := ℕ

/-- The channels of the subscribers of one tenant, by their id. -/
abbrev Subscribers := AList fun _ : ℕ => Channel

/-- Fans connection-change signals out to per-stream subscribers, keyed by tenant. -/
structure Broker where
  /-- The goroutine that holds the mutex. -/
  mu : Option ℕ
  next : ℕ
  subs : String → Option Subscribers

def newBroker : Broker := ⟨none, 0, fun _ => none⟩

namespace Broker

variable (b : Broker) (tenant : String)

/-- The channel registered for a tenant under an id. -/
def lookup (id : ℕ) : Option Channel :=
  (b.subs tenant).bind fun m => m.lookup id

/-- The channels a `Publish` ranges over. -/
def channels : List Channel :=
  match b.subs tenant with
  | none => []
  | some m => m.entries.map Sigma.snd

/-- `Subscribe` under the mutex, once it has made the channel. -/
def subscribe (ch : Channel) : Broker where
  mu := none
  next := b.next + 1
  subs := Function.update b.subs tenant
    (some (((b.subs tenant).getD ∅).insert b.next ch))

/-- The function `Subscribe` returns, under the mutex. -/
def unsubscribe (id : ℕ) : Broker where
  mu := none
  next := b.next
  subs :=
    match b.subs tenant with
    | none => b.subs
    | some m =>
        Function.update b.subs tenant
          (if (m.erase id).entries.length = 0 then none else some (m.erase id))

variable {b tenant}

theorem mem_channels {ch : Channel} :
    ch ∈ b.channels tenant ↔ ∃ id, b.lookup tenant id = some ch := by
  unfold channels lookup
  cases b.subs tenant with
  | none => simp
  | some m =>
    simp only [List.mem_map, Option.bind_some, Option.mem_def.symm, AList.mem_lookup_iff]
    constructor
    · rintro ⟨⟨id, ch'⟩, hmem, rfl⟩
      exact ⟨id, hmem⟩
    · rintro ⟨id, hmem⟩
      exact ⟨⟨id, ch⟩, hmem, rfl⟩

@[simp] theorem lookup_subscribe_self (ch : Channel) :
    (b.subscribe tenant ch).lookup tenant b.next = some ch := by
  simp [lookup, subscribe]

/-- A new registration leaves the others as they are. -/
theorem lookup_subscribe_of_ne {tenant' : String} {id : ℕ} (ch : Channel)
    (hne : ¬ (tenant' = tenant ∧ id = b.next)) :
    (b.subscribe tenant ch).lookup tenant' id = b.lookup tenant' id := by
  by_cases ht : tenant' = tenant
  · subst ht
    have hid : id ≠ b.next := fun h => hne ⟨rfl, h⟩
    have hinsert : ∀ m : Subscribers, (m.insert b.next ch).lookup id = m.lookup id :=
      fun m => AList.lookup_insert_ne hid
    simp only [lookup, subscribe, Function.update_self, Option.bind_some, hinsert]
    cases b.subs tenant' with
    | none => simp
    | some m => simp
  · simp [lookup, subscribe, ht]

theorem lookup_unsubscribe_self (id : ℕ) : (b.unsubscribe tenant id).lookup tenant id = none := by
  unfold unsubscribe lookup
  cases hm : b.subs tenant with
  | none => simp [hm]
  | some m =>
    simp only [Function.update_self]
    split
    · rfl
    · simp

/-- An end of a registration leaves the others as they are: the map of the tenant is pruned only
when nothing else is registered in it. -/
theorem lookup_unsubscribe_of_ne {tenant' : String} {id id' : ℕ}
    (hne : ¬ (tenant' = tenant ∧ id' = id)) :
    (b.unsubscribe tenant id).lookup tenant' id' = b.lookup tenant' id' := by
  unfold unsubscribe lookup
  cases hm : b.subs tenant with
  | none => rfl
  | some m =>
    by_cases ht : tenant' = tenant
    · subst ht
      have hid : id' ≠ id := fun h => hne ⟨rfl, h⟩
      have herase : (m.erase id).lookup id' = m.lookup id' := AList.lookup_erase_ne hid
      simp only [Function.update_self, hm, Option.bind_some]
      split
      · -- what is pruned is empty, so the other id was in no map before
        next hempty =>
          rw [Option.bind_none, ← herase, eq_comm, AList.lookup_eq_none, AList.mem_keys, AList.keys,
            List.length_eq_zero_iff.mp hempty]
          simp [List.keys]
      · simpa using herase
    · simp [ht]

end Broker

/-! ### The calls -/

/-- What a stream shows: the connections of its tenant, or the projects of one of them. -/
inductive Snapshot where
  | connections
  | projects (connID : String)
  deriving DecidableEq, Repr

/-- A stream: the tenant of its caller, and what it shows. -/
structure Stream where
  tenant : String
  snapshot : Snapshot
  deriving DecidableEq, Repr

/-- What `Subscribe` has given to a stream: the channel, and the id its `unsubscribe` deletes. -/
structure Subscription where
  stream : Stream
  id : ℕ
  ch : Channel
  deriving DecidableEq, Repr

/-- Where a call is. -/
inductive Goroutine where
  /-- `Publish`, before the mutex. -/
  | publish (tenant : String)
  /-- `Publish`, with the mutex: the channels its loop has still to visit. -/
  | publishing (tenant : String) (rest : List Channel)
  /-- A stream in `Subscribe`, before the mutex. -/
  | subscribe (stream : Stream)
  | subscribing (stream : Stream)
  /-- A stream about to read the database: for the first time, or after a signal. -/
  | due (sub : Subscription)
  /-- In `sendConnections` or `sendProjects`. -/
  | reading (sub : Subscription)
  /-- In the `select`. -/
  | waiting (sub : Subscription)
  /-- A stream that has ended, in its deferred `unsubscribe`, before the mutex. -/
  | unsubscribe (sub : Subscription)
  | unsubscribing (sub : Subscription)
  | returned
  deriving DecidableEq, Repr

/-- A call that comes in. -/
inductive Call where
  | publish (tenant : String)
  | watchConnections (tenant : String)
  | watchProjects (tenant connID : String)
  deriving DecidableEq, Repr

/-- `WatchConnections` of a tenant. -/
def watchConnections (tenant : String) : Goroutine :=
  .subscribe ⟨tenant, .connections⟩

/-- `WatchProjects` of a tenant and a connection: the same loop over another read. -/
def watchProjects (tenant connID : String) : Goroutine :=
  .subscribe ⟨tenant, .projects connID⟩

def Call.start : Call → Goroutine
  | .publish tenant => .publish tenant
  | .watchConnections tenant => Events.watchConnections tenant
  | .watchProjects tenant connID => Events.watchProjects tenant connID

/-- All calls, the broker they share, and for every channel whether it holds a signal. -/
structure State where
  broker : Broker
  chans : List Bool
  threads : List Goroutine

/-- What a goroutine does next, where it has a choice. -/
inductive Act where
  | lock
  /-- The critical section ends. -/
  | unlock
  /-- The loop of `Publish` visits a channel; the order is not fixed. -/
  | send (ch : Channel)
  | read
  /-- The read and the send to the client are through, or one of them failed. -/
  | sent (ok : Bool)
  | receive
  /-- `ctx.Done()`. -/
  | cancel
  deriving DecidableEq, Repr

inductive Event where
  | call (c : Call)
  | turn (i : ℕ) (a : Act)
  deriving DecidableEq, Repr

/-- What is recorded of a step. -/
inductive Moment where
  /-- A `Publish` has the mutex. -/
  | locked (i : ℕ) (tenant : String)
  /-- A `Publish` has visited a channel. -/
  | signalled (i : ℕ) (ch : Channel)
  /-- A `Publish` has returned. -/
  | published (i : ℕ) (tenant : String)
  /-- A stream has its channel. -/
  | subscribed (i : ℕ) (tenant : String) (ch : Channel)
  /-- A stream starts to read the database. -/
  | read (i : ℕ)
  deriving DecidableEq, Repr

namespace State

variable (s : State)

/-- The goroutine moves on. -/
def goto (i : ℕ) (g : Goroutine) : State :=
  { s with threads := s.threads.set i g }

/-- The goroutine takes the mutex, when it is free. -/
def lock (i : ℕ) (g : Goroutine) (as : List Moment) : Option (State × List Moment) :=
  if s.broker.mu = none then
    some ({ s.goto i g with broker := { s.broker with mu := some i } }, as)
  else
    none

/-- A channel holds a signal. -/
def Full (ch : Channel) : Prop := s.chans[ch]? = some true

instance (ch : Channel) : Decidable (s.Full ch) :=
  inferInstanceAs (Decidable (s.chans[ch]? = some true))

end State

/-- The next step of a goroutine; `none` where it cannot make it. -/
def turn (s : State) (i : ℕ) : Goroutine → Act → Option (State × List Moment)
  | .publish tenant, .lock =>
      s.lock i (.publishing tenant (s.broker.channels tenant)) [.locked i tenant]
  | .publishing tenant rest, .send ch =>
      -- whether the buffer was empty or not, it is full afterwards
      if ch ∈ rest then
        some ({ s.goto i (.publishing tenant (rest.erase ch)) with chans := s.chans.set ch true },
          [.signalled i ch])
      else
        none
  | .publishing tenant [], .unlock =>
      some ({ s.goto i .returned with broker := { s.broker with mu := none } },
        [.published i tenant])
  | .subscribe stream, .lock => s.lock i (.subscribing stream) []
  | .subscribing stream, .unlock =>
      some ({ s.goto i (.due ⟨stream, s.broker.next, s.chans.length⟩) with
          broker := s.broker.subscribe stream.tenant s.chans.length
          chans := s.chans ++ [false] },
        [.subscribed i stream.tenant s.chans.length])
  | .due sub, .read => some (s.goto i (.reading sub), [.read i])
  | .reading sub, .sent true => some (s.goto i (.waiting sub), [])
  | .reading sub, .sent false => some (s.goto i (.unsubscribe sub), [])
  | .waiting sub, .receive =>
      if s.Full sub.ch then
        some ({ s.goto i (.due sub) with chans := s.chans.set sub.ch false }, [])
      else
        none
  | .waiting sub, .cancel => some (s.goto i (.unsubscribe sub), [])
  | .unsubscribe sub, .lock => s.lock i (.unsubscribing sub) []
  | .unsubscribing sub, .unlock =>
      some ({ s.goto i .returned with
          broker := s.broker.unsubscribe sub.stream.tenant sub.id }, [])
  | _, _ => none

/-- Any number of calls side by side. -/
def calls : Lts State Event Moment where
  step s
    | .call c => some ({ s with threads := s.threads ++ [c.start] }, [])
    | .turn i a => s.threads[i]?.bind fun g => turn s i g a

/-- Nobody has called yet. -/
def initial : State := ⟨newBroker, [], []⟩

/-! ### What a step does -/

/-- What one step does to the state, and what is recorded of it. -/
inductive Step (s : State) : Event → State → List Moment → Prop
  | call (c : Call) : Step s (.call c) { s with threads := s.threads ++ [c.start] } []
  | lockPublish {i : ℕ} {tenant : String} :
      s.threads[i]? = some (.publish tenant) → s.broker.mu = none →
      Step s (.turn i .lock)
        { s.goto i (.publishing tenant (s.broker.channels tenant)) with
          broker := { s.broker with mu := some i } } [.locked i tenant]
  | send {i : ℕ} {tenant : String} {rest : List Channel} {ch : Channel} :
      s.threads[i]? = some (.publishing tenant rest) → ch ∈ rest →
      Step s (.turn i (.send ch))
        { s.goto i (.publishing tenant (rest.erase ch)) with chans := s.chans.set ch true }
        [.signalled i ch]
  | published {i : ℕ} {tenant : String} :
      s.threads[i]? = some (.publishing tenant []) →
      Step s (.turn i .unlock)
        { s.goto i .returned with broker := { s.broker with mu := none } } [.published i tenant]
  | lockSubscribe {i : ℕ} {stream : Stream} :
      s.threads[i]? = some (.subscribe stream) → s.broker.mu = none →
      Step s (.turn i .lock)
        { s.goto i (.subscribing stream) with broker := { s.broker with mu := some i } } []
  | subscribed {i : ℕ} {stream : Stream} :
      s.threads[i]? = some (.subscribing stream) →
      Step s (.turn i .unlock)
        { s.goto i (.due ⟨stream, s.broker.next, s.chans.length⟩) with
          broker := s.broker.subscribe stream.tenant s.chans.length
          chans := s.chans ++ [false] } [.subscribed i stream.tenant s.chans.length]
  | read {i : ℕ} {sub : Subscription} :
      s.threads[i]? = some (.due sub) →
      Step s (.turn i .read) (s.goto i (.reading sub)) [.read i]
  | sent {i : ℕ} {sub : Subscription} :
      s.threads[i]? = some (.reading sub) →
      Step s (.turn i (.sent true)) (s.goto i (.waiting sub)) []
  | failed {i : ℕ} {sub : Subscription} :
      s.threads[i]? = some (.reading sub) →
      Step s (.turn i (.sent false)) (s.goto i (.unsubscribe sub)) []
  | receive {i : ℕ} {sub : Subscription} :
      s.threads[i]? = some (.waiting sub) → s.Full sub.ch →
      Step s (.turn i .receive)
        { s.goto i (.due sub) with chans := s.chans.set sub.ch false } []
  | cancel {i : ℕ} {sub : Subscription} :
      s.threads[i]? = some (.waiting sub) →
      Step s (.turn i .cancel) (s.goto i (.unsubscribe sub)) []
  | lockUnsubscribe {i : ℕ} {sub : Subscription} :
      s.threads[i]? = some (.unsubscribe sub) → s.broker.mu = none →
      Step s (.turn i .lock)
        { s.goto i (.unsubscribing sub) with broker := { s.broker with mu := some i } } []
  | unsubscribed {i : ℕ} {sub : Subscription} :
      s.threads[i]? = some (.unsubscribing sub) →
      Step s (.turn i .unlock)
        { s.goto i .returned with
          broker := s.broker.unsubscribe sub.stream.tenant sub.id } []

theorem lock_eq {s s' : State} {i : ℕ} {g : Goroutine} {as as' : List Moment}
    (h : s.lock i g as = some (s', as')) :
    s.broker.mu = none ∧
      s' = { s.goto i g with broker := { s.broker with mu := some i } } ∧ as' = as := by
  unfold State.lock at h
  by_cases hmu : s.broker.mu = none
  · rw [if_pos hmu] at h
    cases h
    exact ⟨hmu, rfl, rfl⟩
  · rw [if_neg hmu] at h
    cases h

/-- **What one step does.** -/
theorem step_of_calls {s s' : State} {e : Event} {as : List Moment}
    (h : calls.step s e = some (s', as)) : Step s e s' as := by
  cases e with
  | call c =>
    cases h
    exact .call c
  | turn i a =>
    obtain ⟨g, hg, h⟩ := Option.bind_eq_some_iff.mp h
    unfold turn at h
    split at h
    · obtain ⟨hmu, rfl, rfl⟩ := lock_eq h
      exact .lockPublish hg hmu
    · split at h
      · next hch =>
        cases h
        exact .send hg hch
      · cases h
    · cases h
      exact .published hg
    · obtain ⟨hmu, rfl, rfl⟩ := lock_eq h
      exact .lockSubscribe hg hmu
    · cases h
      exact .subscribed hg
    · cases h
      exact .read hg
    · cases h
      exact .sent hg
    · cases h
      exact .failed hg
    · split at h
      · next hfull =>
        cases h
        exact .receive hg hfull
      · cases h
    · cases h
      exact .cancel hg
    · obtain ⟨hmu, rfl, rfl⟩ := lock_eq h
      exact .lockUnsubscribe hg hmu
    · cases h
      exact .unsubscribed hg
    · cases h

end Events
end Hivebook
