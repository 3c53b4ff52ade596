import Hivebook.Events.Wakeups

/-!
# From a change to the streams that watch for it

`Listen` and `listenOnce` of `internal/events/events.go`: one goroutine holds a connection on which
`LISTEN` was executed, and publishes the payload of every notification to the broker.  The changes
are made by any process, with `pg_notify`.

Postgres hands a notification to the sessions that listen when its transaction commits, in the
order of the commits.  A session that is lost is replaced by a new one; what was notified between
the two is nowhere to be found, and so is what the lost connection had not delivered yet.

## Main definitions

* `Session` — the connection the listener reads from; `Live` — the listener next to the calls of
  the broker.
* `listening` — the listener, the database's notifications and the calls, side by side.
* `Delivered` — what is promised of a notification.

## Main results

* `changes_delivered` — **every notification of a session is published once and in order, and is
  heard by every stream of its tenant, unless the session is lost first.**
-/

namespace Hivebook
namespace Events

/-- The connection the listener reads from. -/
structure Session where
  /-- Postgres still delivers to it. -/
  alive : Bool
  /-- The payloads that wait to be read. -/
  queue : List String
  deriving DecidableEq, Repr

/-- Where `Listen` is. -/
inductive Listener where
  /-- Without a connection, or backing off. -/
  | dialing
  /-- In `WaitForNotification`. -/
  | waiting
  /-- In `Publish`, as a goroutine of the broker. -/
  | publishing (i : ℕ)
  deriving DecidableEq, Repr

/-- The listener and the calls of the broker. -/
structure Live where
  server : State
  listener : Listener
  session : Session

inductive LiveEvent where
  /-- `pgx.Connect` and `LISTEN` succeed. -/
  | listen
  /-- `WaitForNotification` returns, and `Publish` is called. -/
  | deliver
  /-- `Publish` has returned. -/
  | resume
  /-- `WaitForNotification` fails. -/
  | fail
  /-- The connection is lost; so many payloads had arrived. -/
  | lose (arrived : ℕ)
  /-- A transaction with `pg_notify` commits. -/
  | notify (tenant : String)
  /-- A stream is opened, or a call takes a step. -/
  | inner (e : Event)
  deriving DecidableEq, Repr

/-- What is recorded of a run. -/
inductive LiveMoment where
  | listening
  | lost
  /-- A change is notified, with or without a session to deliver it to. -/
  | notified (tenant : String) (heard : Bool)
  /-- The payload is published, by a goroutine. -/
  | taken (i : ℕ) (tenant : String)
  | moment (m : Moment)
  deriving DecidableEq, Repr

/-- The moments of the broker. -/
def moments (tr : List LiveMoment) : List Moment :=
  tr.filterMap fun
    | .moment m => some m
    | _ => none

/-- The payloads that were delivered to a session. -/
def notifiedIn (tr : List LiveMoment) : List String :=
  tr.filterMap fun
    | .notified tenant true => some tenant
    | _ => none

/-- The payloads that were published. -/
def takenIn (tr : List LiveMoment) : List String :=
  tr.filterMap fun
    | .taken _ tenant => some tenant
    | _ => none

/-- `Publish` is called by the listener alone. -/
def Event.publishes : Event → Bool
  | .call (.publish _) => true
  | _ => false

namespace Live

/-- The listener with the notifications and the calls. -/
def next (s : Live) : LiveEvent → Option (Live × List LiveMoment)
  | .listen =>
      if s.listener = .dialing then
        some ({ s with listener := .waiting, session := ⟨true, []⟩ }, [.listening])
      else none
  | .deliver =>
      match s.listener, s.session.queue with
      | .waiting, tenant :: rest =>
          some ({ server := { s.server with
                    threads := s.server.threads ++ [(Call.publish tenant).start] }
                  listener := .publishing s.server.threads.length
                  session := { s.session with queue := rest } },
            [.taken s.server.threads.length tenant])
      | _, _ => none
  | .resume =>
      match s.listener with
      | .publishing i =>
          if s.server.threads[i]? = some .returned then some ({ s with listener := .waiting }, [])
          else none
      | _ => none
  | .fail =>
      -- what had arrived is read before the error is seen
      if s.listener = .waiting ∧ s.session.alive = false ∧ s.session.queue = [] then
        some ({ s with listener := .dialing }, [])
      else none
  | .lose arrived =>
      if s.session.alive = true then
        some ({ s with session := ⟨false, s.session.queue.take arrived⟩ }, [.lost])
      else none
  | .notify tenant =>
      if s.session.alive = true then
        some ({ s with session := { s.session with queue := s.session.queue ++ [tenant] } },
          [.notified tenant true])
      else some (s, [.notified tenant false])
  | .inner e =>
      if e.publishes = true then none
      else (calls.step s.server e).map fun r =>
        ({ s with server := r.1 }, r.2.map LiveMoment.moment)

end Live

/-- The listener of a process, the changes that anybody makes, and the streams of the process. -/
def listening : Lts Live LiveEvent LiveMoment where
  step := Live.next

/-- A process that has just started. -/
def Live.initial : Live := ⟨Events.initial, .dialing, ⟨false, []⟩⟩

/-! ### What each step does -/

/-- What each step does. -/
inductive Live.Step (s : Live) : LiveEvent → Live → List LiveMoment → Prop
  | listen : s.listener = .dialing →
      Step s .listen { s with listener := .waiting, session := ⟨true, []⟩ } [.listening]
  | deliver {tenant : String} {rest : List String} : s.listener = .waiting →
      s.session.queue = tenant :: rest →
      Step s .deliver
        { server := { s.server with
            threads := s.server.threads ++ [(Call.publish tenant).start] }
          listener := .publishing s.server.threads.length
          session := { s.session with queue := rest } }
        [.taken s.server.threads.length tenant]
  | resume {i : ℕ} : s.listener = .publishing i → s.server.threads[i]? = some .returned →
      Step s .resume { s with listener := .waiting } []
  | fail : s.listener = .waiting → s.session.alive = false → s.session.queue = [] →
      Step s .fail { s with listener := .dialing } []
  | lose (arrived : ℕ) : s.session.alive = true →
      Step s (.lose arrived) { s with session := ⟨false, s.session.queue.take arrived⟩ } [.lost]
  | notify (tenant : String) : s.session.alive = true →
      Step s (.notify tenant)
        { s with session := { s.session with queue := s.session.queue ++ [tenant] } }
        [.notified tenant true]
  | unheard (tenant : String) : s.session.alive = false →
      Step s (.notify tenant) s [.notified tenant false]
  | inner {e : Event} {server : State} {as : List Moment} : Events.Step s.server e server as →
      Step s (.inner e) { s with server } (as.map LiveMoment.moment)

variable {s s' : Live} {e : LiveEvent} {as tr : List LiveMoment}

theorem step_of_listening (h : listening.step s e = some (s', as)) : s.Step e s' as := by
  cases e with
  | listen =>
    obtain ⟨hl, heq⟩ := Option.ite_none_right_eq_some.mp h
    cases heq
    exact .listen hl
  | deliver =>
    simp only [listening, Live.next] at h
    split at h
    · next hl hq =>
      cases h
      exact .deliver hl hq
    · cases h
  | resume =>
    simp only [listening, Live.next] at h
    split at h
    · next hl =>
      obtain ⟨hi, heq⟩ := Option.ite_none_right_eq_some.mp h
      cases heq
      exact .resume hl hi
    · cases h
  | fail =>
    obtain ⟨⟨hl, ha, hq⟩, heq⟩ := Option.ite_none_right_eq_some.mp h
    cases heq
    exact .fail hl ha hq
  | lose arrived =>
    obtain ⟨ha, heq⟩ := Option.ite_none_right_eq_some.mp h
    cases heq
    exact .lose arrived ha
  | notify tenant =>
    simp only [listening, Live.next] at h
    split at h
    · next ha =>
      cases h
      exact .notify tenant ha
    · next ha =>
      cases h
      exact .unheard tenant (Bool.eq_false_iff.mpr ha)
  | inner e =>
    simp only [listening, Live.next] at h
    split at h
    · cases h
    · obtain ⟨r, hr, heq⟩ := Option.map_eq_some_iff.mp h
      cases heq
      exact .inner (step_of_calls hr)

@[simp] theorem moments_append (tr as : List LiveMoment) :
    moments (tr ++ as) = moments tr ++ moments as := List.filterMap_append

@[simp] theorem moments_map (as : List Moment) : moments (as.map LiveMoment.moment) = as := by
  rw [moments, List.filterMap_map]
  exact List.filterMap_some

@[simp] theorem notifiedIn_append (tr as : List LiveMoment) :
    notifiedIn (tr ++ as) = notifiedIn tr ++ notifiedIn as := List.filterMap_append

@[simp] theorem notifiedIn_map (as : List Moment) :
    notifiedIn (as.map LiveMoment.moment) = [] := by
  simp [notifiedIn, List.filterMap_map]

@[simp] theorem takenIn_append (tr as : List LiveMoment) :
    takenIn (tr ++ as) = takenIn tr ++ takenIn as := List.filterMap_append

@[simp] theorem takenIn_map (as : List Moment) : takenIn (as.map LiveMoment.moment) = [] := by
  simp [takenIn, List.filterMap_map]

theorem mem_moments {m : Moment} : m ∈ moments tr ↔ .moment m ∈ tr := by
  unfold moments
  rw [List.mem_filterMap]
  constructor
  · rintro ⟨x, hx, heq⟩
    split at heq
    · cases heq
      exact hx
    · cases heq
  · exact fun h => ⟨_, h, rfl⟩

theorem singleton_ne_map {m : LiveMoment} (hm : ∀ m', m ≠ .moment m') (as : List Moment) :
    [m] ≠ as.map LiveMoment.moment := by
  intro h
  obtain ⟨m', -, heq⟩ := List.map_eq_singleton_iff.mp h.symm
  exact hm m' heq.symm

/-- Seen from the calls of the broker, a step of the listener is one of theirs, or none. -/
theorem server_of_listening (h : listening.step s e = some (s', as)) :
    (∃ e', calls.step s.server e' = some (s'.server, moments as)) ∨
      s'.server = s.server ∧ moments as = [] := by
  cases e with
  | deliver =>
    cases step_of_listening h with
    | deliver hl hq => exact .inl ⟨.call (.publish _), rfl⟩
  | inner e =>
    simp only [listening, Live.next] at h
    split at h
    · cases h
    · obtain ⟨⟨server, bs⟩, hr, heq⟩ := Option.map_eq_some_iff.mp h
      cases heq
      rw [moments_map]
      exact .inl ⟨e, hr⟩
  | _ => cases step_of_listening h <;> exact .inr ⟨rfl, rfl⟩

/-- A step is recorded by one moment at most. -/
theorem Live.Step.recorded (h : s.Step e s' as) : as = [] ∨ ∃ m, as = [m] := by
  cases h with
  | listen => exact .inr ⟨_, rfl⟩
  | deliver => exact .inr ⟨_, rfl⟩
  | lose => exact .inr ⟨_, rfl⟩
  | notify => exact .inr ⟨_, rfl⟩
  | unheard => exact .inr ⟨_, rfl⟩
  | inner hstep =>
    rcases hstep.recorded with rfl | ⟨m, rfl⟩
    · exact .inl rfl
    · exact .inr ⟨_, rfl⟩
  | _ => exact .inl rfl

/-! ### One publication -/

/-- The call of `Publish` that began so long ago is on its way, or through. -/
def Carried (s : State) (p : ℕ) (t : String) (since : List Moment) : Prop :=
  s.threads[p]? = some (.publish t) ∨
    ∃ before after, since = before ++ .locked p t :: after ∧
      ((∃ rest, s.threads[p]? = some (.publishing t rest)) ∨ .published p t ∈ after)

theorem Carried.step {s s' : State} {e : Event} {as since : List Moment} {p : ℕ} {t : String}
    (h : Carried s p t since) (hstep : Events.Step s e s' as) : Carried s' p t (since ++ as) := by
  by_cases hmine : ∃ a, e = .turn p a
  · obtain ⟨a, rfl⟩ := hmine
    rcases h with hp | ⟨before, after, rfl, ⟨rest, hp⟩ | hdone⟩
    · cases hstep with
      | lockPublish hi _ =>
        rw [hp] at hi
        cases hi
        exact .inr ⟨since, [], rfl, .inl ⟨_, List.getElem?_set_self (lt_of_thread hp)⟩⟩
      | _ => simp_all
    · refine .inr ⟨before, after ++ as, by simp, ?_⟩
      cases hstep with
      | send hi _ =>
        rw [hp] at hi
        cases hi
        exact .inl ⟨_, List.getElem?_set_self (lt_of_thread hp)⟩
      | published hi =>
        rw [hp] at hi
        cases hi
        exact .inr (by simp)
      | _ => simp_all
    · exact .inr ⟨before, after ++ as, by simp, .inr (List.mem_append_left _ hdone)⟩
  · have hother : ∀ a, e ≠ .turn p a := fun a he => hmine ⟨a, he⟩
    rcases h with hp | ⟨before, after, rfl, ⟨rest, hp⟩ | hdone⟩
    · exact .inl (hstep.frame hp hother)
    · exact .inr ⟨before, after ++ as, by simp, .inl ⟨rest, hstep.frame hp hother⟩⟩
    · exact .inr ⟨before, after ++ as, by simp, .inr (List.mem_append_left _ hdone)⟩

/-- A call that has returned had the mutex, and went through its loop. -/
theorem Carried.returned {s : State} {p : ℕ} {t : String} {since : List Moment}
    (h : Carried s p t since) (hp : s.threads[p]? = some .returned) :
    ∃ before after, since = before ++ .locked p t :: after ∧ .published p t ∈ after := by
  rcases h with hp' | ⟨before, after, heq, ⟨rest, hp'⟩ | hdone⟩
  · rw [hp] at hp'
    cases hp'
  · rw [hp] at hp'
    cases hp'
  · exact ⟨before, after, heq, hdone⟩

/-- A visited stream has read since, or still owes the read. -/
theorem read_of_visited {s : State} {tr pre after : List Moment} {p w : ℕ} {t : String}
    {ch : Channel} (hwakes : Wakes s tr) (htold : Told s tr)
    (heq : tr = pre ++ .signalled p ch :: after) (hsub : .subscribed w t ch ∈ tr) :
    (∃ g, s.threads[w]? = some g ∧ g.ended = true) ∨
      (.read w ∈ after ∨ (∃ sub, s.threads[w]? = some (.due sub) ∧ sub.ch = ch) ∨ s.Full ch) := by
  obtain ⟨g, hw, hended | ⟨sub, hwatching, -, rfl⟩⟩ := htold.subscribed w t ch hsub
  · exact .inl ⟨g, hw, hended⟩
  · refine .inr ?_
    by_cases hread : .read w ∈ after
    · exact .inl hread
    · have hunread : Unread w sub.ch tr := by
        refine ⟨pre, .signalled p sub.ch, after, heq, ⟨p, rfl⟩, fun m hm => ⟨id, ?_⟩⟩
        rintro rfl
        exact hread hm
      rcases hwakes w g sub hw hwatching hunread with hfull | rfl
      · exact .inr (.inr hfull)
      · exact .inr (.inl ⟨sub, hw, rfl⟩)

/-- What has returned was heard by the streams that had subscribed before it began. -/
theorem Carried.heard {s : State} {tr tr₁ since : List Moment} {p w : ℕ} {t : String}
    {ch : Channel} (h : Carried s p t since) (hp : s.threads[p]? = some .returned)
    (hwakes : Wakes s tr) (htold : Told s tr) (heq : tr = tr₁ ++ since)
    (hsub : .subscribed w t ch ∈ tr₁) : Heard s w p ch since := by
  obtain ⟨before, after, rfl, -⟩ := h.returned hp
  have hsub' : Moment.subscribed w t ch ∈ tr := by
    rw [heq]
    exact List.mem_append_left _ hsub
  have hsplit : tr = (tr₁ ++ before) ++ .locked p t :: after := by simp [heq]
  have hvisited := htold.visited (tr₁ ++ before) after p w t ch hsplit
    (List.mem_append_left _ hsub)
  rcases hvisited with hended | ⟨rest, hloop, -⟩ | hsignalled
  · exact .inl hended
  · rw [hp] at hloop
    cases hloop
  · obtain ⟨mid, post, rfl⟩ := List.append_of_mem hsignalled
    have hvisit : tr = (tr₁ ++ before ++ .locked p t :: mid) ++ .signalled p ch :: post := by
      simp [hsplit]
    rcases read_of_visited hwakes htold hvisit hsub' with hended | hread
    · exact .inl hended
    · exact .inr ⟨before ++ .locked p t :: mid, post, by simp, hread⟩

/-! ### Every run -/

/-- What holds of the listener, its session and the moments that led to them. -/
structure Followed (s : Live) (tr : List LiveMoment) : Prop where
  dialing : s.listener = .dialing → s.session.alive = false
  /-- What the last session was told is published in order, and what is left is in its queue. -/
  order : ∀ tr₁ tr₂, tr = tr₁ ++ .listening :: tr₂ → .listening ∉ tr₂ →
    takenIn tr₂ ++ s.session.queue <+: notifiedIn tr₂ ∧
      (s.session.alive = true → takenIn tr₂ ++ s.session.queue = notifiedIn tr₂)
  /-- A notification waits in the queue, or it has been taken out of it. -/
  kept : ∀ tr₁ tr₂ t, tr = tr₁ ++ .notified t true :: tr₂ → .lost ∉ tr₂ →
    (s.session.alive = true ∧ ∃ before, s.session.queue = before ++ t :: notifiedIn tr₂) ∨
      ∃ p tr₃ tr₄, tr₂ = tr₃ ++ .taken p t :: tr₄
  /-- What is taken out is carried to its end. -/
  taken : ∀ tr₁ tr₂ p t, tr = tr₁ ++ .taken p t :: tr₂ → Carried s.server p t (moments tr₂) ∧
    (s.listener = .publishing p ∨ s.server.threads[p]? = some .returned)

theorem Followed.initial : Followed Live.initial [] := by
  refine ⟨fun _ => rfl, ?_, ?_, ?_⟩ <;> intros <;> simp_all

/-- How a notification moves on in its queue. -/
theorem Followed.kept_append (h : Followed s tr) (hstep : s.Step e s' as)
    {tr₁ tr₂ : List LiveMoment} {t : String} (heq : tr = tr₁ ++ .notified t true :: tr₂)
    (hlost : .lost ∉ tr₂ ++ as) :
    (s'.session.alive = true ∧ ∃ before, s'.session.queue = before ++ t :: notifiedIn (tr₂ ++ as)) ∨
      ∃ p tr₃ tr₄, tr₂ ++ as = tr₃ ++ .taken p t :: tr₄ := by
  have hlost' : .lost ∉ tr₂ := fun hmem => hlost (List.mem_append_left _ hmem)
  rcases h.kept tr₁ tr₂ t heq hlost' with ⟨halive, before, hqueue⟩ | ⟨p, tr₃, tr₄, rfl⟩
  · cases hstep with
    | listen hl =>
      -- a session is replaced only once it is lost
      rw [h.dialing hl] at halive
      cases halive
    | @deliver tenant rest hl hq =>
      rw [hq] at hqueue
      cases before with
      | nil =>
        cases hqueue
        exact .inr ⟨_, tr₂, [], rfl⟩
      | cons x before =>
        cases hqueue
        exact .inl ⟨halive, before, by simp [notifiedIn]⟩
    | resume hl hi => exact .inl ⟨halive, before, by simpa [notifiedIn] using hqueue⟩
    | fail hl hdead hq =>
      rw [hdead] at halive
      cases halive
    | lose arrived _ => exact absurd (List.mem_append_right _ (List.mem_singleton_self _)) hlost
    | notify tenant _ => exact .inl ⟨halive, before, by simp [hqueue, notifiedIn]⟩
    | unheard tenant hdead =>
      rw [hdead] at halive
      cases halive
    | inner _ => exact .inl ⟨halive, before, by simpa using hqueue⟩
  · exact .inr ⟨p, tr₃, tr₄ ++ as, by simp⟩

/-- How the queue and the published payloads of a session grow. -/
theorem Followed.order_append (h : Followed s tr) (hstep : s.Step e s' as)
    {tr₁ tr₂ : List LiveMoment} (heq : tr = tr₁ ++ .listening :: tr₂)
    (hlast : .listening ∉ tr₂ ++ as) :
    takenIn (tr₂ ++ as) ++ s'.session.queue <+: notifiedIn (tr₂ ++ as) ∧
      (s'.session.alive = true →
        takenIn (tr₂ ++ as) ++ s'.session.queue = notifiedIn (tr₂ ++ as)) := by
  have hlast' : .listening ∉ tr₂ := fun hmem => hlast (List.mem_append_left _ hmem)
  obtain ⟨hhead, hwhole⟩ := h.order tr₁ tr₂ heq hlast'
  cases hstep with
  | listen _ => exact absurd (List.mem_append_right _ (List.mem_singleton_self _)) hlast
  | deliver hl hq =>
    rw [hq] at hhead hwhole
    simpa [takenIn, notifiedIn] using ⟨hhead, hwhole⟩
  | resume hl hi => simpa using ⟨hhead, hwhole⟩
  | fail hl hdead hq => simpa using ⟨hhead, hwhole⟩
  | lose arrived halive =>
    have htake : takenIn tr₂ ++ s.session.queue.take arrived <+: takenIn tr₂ ++ s.session.queue :=
      (List.prefix_append_right_inj _).mpr (List.take_prefix _ _)
    refine ⟨?_, fun h => by cases h⟩
    simpa [takenIn, notifiedIn] using htake.trans hhead
  | notify tenant halive =>
    have hall := hwhole halive
    have hgrown : takenIn tr₂ ++ (s.session.queue ++ [tenant]) = notifiedIn tr₂ ++ [tenant] := by
      rw [← List.append_assoc, hall]
    simp only [takenIn_append, notifiedIn_append]
    refine ⟨?_, fun _ => ?_⟩ <;> simp [takenIn, notifiedIn] at hgrown ⊢ <;> simp [hgrown]
  | unheard tenant hdead => simpa [takenIn, notifiedIn] using ⟨hhead, hwhole⟩
  | inner _ => simpa using ⟨hhead, hwhole⟩

/-- The step of a publication: it goes on, and the listener waits for its end. -/
theorem Followed.taken_append (h : Followed s tr) (hstep : listening.step s e = some (s', as))
    {tr₁ tr₂ : List LiveMoment} {p : ℕ} {t : String} (heq : tr = tr₁ ++ .taken p t :: tr₂) :
    Carried s'.server p t (moments (tr₂ ++ as)) ∧
      (s'.listener = .publishing p ∨ s'.server.threads[p]? = some .returned) := by
  obtain ⟨hcarried, hwhere⟩ := h.taken tr₁ tr₂ p t heq
  refine ⟨?_, ?_⟩
  · rw [moments_append]
    rcases server_of_listening hstep with ⟨e', hinner⟩ | ⟨hserver, hquiet⟩
    · exact hcarried.step (step_of_calls hinner)
    · rw [hserver, hquiet, List.append_nil]
      exact hcarried
  · rcases hwhere with hl' | hreturned
    · cases step_of_listening hstep with
      | listen hl => rw [hl] at hl'; cases hl'
      | deliver hl _ => rw [hl] at hl'; cases hl'
      | resume hl hi =>
        rw [hl] at hl'
        cases hl'
        exact .inr hi
      | fail hl _ _ => rw [hl] at hl'; cases hl'
      | lose => exact .inl hl'
      | notify => exact .inl hl'
      | unheard => exact .inl hl'
      | inner _ => exact .inl hl'
    · refine .inr ?_
      rcases server_of_listening hstep with ⟨e', hinner⟩ | ⟨hserver, -⟩
      · exact (step_of_calls hinner).returned hreturned
      · rw [hserver]
        exact hreturned

theorem Followed.step (h : Followed s tr) (hs : listening.step s e = some (s', as)) :
    Followed s' (tr ++ as) := by
  have hstep := step_of_listening hs
  refine ⟨?_, ?_, ?_, ?_⟩
  · intro hdialing
    cases hstep with
    | listen => cases hdialing
    | deliver => cases hdialing
    | resume => cases hdialing
    | fail _ hdead _ => exact hdead
    | lose => rfl
    | notify _ halive =>
      have hdead := h.dialing hdialing
      rw [halive] at hdead
      cases hdead
    | unheard => exact h.dialing hdialing
    | inner => exact h.dialing hdialing
  · intro tr₁ tr₂ heq hlast
    rcases split_append hstep.recorded heq with ⟨tr₃, rfl, rfl⟩ | ⟨rfl, rfl, rfl⟩
    · exact h.order_append hstep rfl hlast
    · generalize has : [LiveMoment.listening] = ms at hstep
      cases hstep with
      | listen => simp [takenIn, notifiedIn]
      | inner => exact absurd has (singleton_ne_map (by simp) _)
      | _ => cases has
  · intro tr₁ tr₂ t heq hlost
    rcases split_append hstep.recorded heq with ⟨tr₃, rfl, rfl⟩ | ⟨rfl, rfl, rfl⟩
    · exact h.kept_append hstep rfl hlost
    · generalize has : [LiveMoment.notified t true] = ms at hstep
      cases hstep with
      | notify _ halive =>
        cases has
        exact .inl ⟨halive, s.session.queue, by simp [notifiedIn]⟩
      | inner => exact absurd has (singleton_ne_map (by simp) _)
      | _ => cases has
  · intro tr₁ tr₂ p t heq
    rcases split_append hstep.recorded heq with ⟨tr₃, rfl, rfl⟩ | ⟨rfl, rfl, rfl⟩
    · exact h.taken_append hs rfl
    · generalize has : [LiveMoment.taken p t] = ms at hstep
      cases hstep with
      | deliver _ _ =>
        cases has
        exact ⟨.inl (by simp [Call.start]), .inl rfl⟩
      | inner => exact absurd has (singleton_ne_map (by simp) _)
      | _ => cases has

/-- All that holds of a run: the invariant of the calls and that of the listener. -/
theorem listening_invariant {es : List LiveEvent} (h : listening.Run Live.initial es s tr) :
    (∃ es', calls.Run initial es' s.server (moments tr)) ∧ Followed s tr := by
  refine h.invariant (J := fun s tr =>
    (∃ es', calls.Run initial es' s.server (moments tr)) ∧ Followed s tr) ?_ ?_
  · exact ⟨⟨[], .refl⟩, .initial⟩
  · rintro s tr e s' as ⟨⟨es', hrun⟩, hfollowed⟩ - hstep
    refine ⟨?_, hfollowed.step hstep⟩
    rw [moments_append]
    rcases server_of_listening hstep with ⟨e', hinner⟩ | ⟨hserver, hquiet⟩
    · exact ⟨_, hrun.snoc trivial hinner⟩
    · rw [hserver, hquiet, List.append_nil]
      exact ⟨es', hrun⟩

/-- The listener goes on: it connects, it takes what has come, it waits for a `Publish` that waits
for nobody, and it sees that its session is gone. -/
structure Live.Advances (s : Live) : Prop where
  dials : s.listener = .dialing → ∃ r, listening.step s .listen = some r
  takes : s.listener = .waiting → s.session.queue ≠ [] → ∃ r, listening.step s .deliver = some r
  publishes : ∀ i, s.listener = .publishing i →
    Unblocked s.server i ∧
      (s.server.threads[i]? = some .returned → ∃ r, listening.step s .resume = some r)
  gives_up : s.listener = .waiting → s.session.queue = [] → s.session.alive = false →
    ∃ r, listening.step s .fail = some r

theorem advances (hmu : Exclusive s.server) : s.Advances := by
  refine ⟨fun hl => ?_, fun hl hq => ?_, fun i hl => ⟨publish_unblocked hmu i, fun hi => ?_⟩,
    fun hl hq hdead => ?_⟩
  · exact ⟨_, if_pos hl⟩
  · obtain ⟨tenant, rest, hq⟩ := List.exists_cons_of_ne_nil hq
    exact ⟨_, by simp [listening, Live.next, hl, hq]; rfl⟩
  · exact ⟨_, by simp [listening, Live.next, hl, hi]; rfl⟩
  · exact ⟨_, if_pos ⟨hl, hdead, hq⟩⟩

/-- What becomes of the notifications of a session. -/
structure Delivered (s : Live) (tr : List LiveMoment) : Prop where
  /-- They are published once each, and in their order. -/
  order : ∀ tr₁ tr₂, tr = tr₁ ++ .listening :: tr₂ → .listening ∉ tr₂ →
    takenIn tr₂ <+: notifiedIn tr₂ ∧
      (s.session.alive = true → takenIn tr₂ ++ s.session.queue = notifiedIn tr₂)
  /-- A stream that was there waits for a notification in the queue, or for the `Publish` of it
  that the listener is in, or it was heard. -/
  heard : ∀ tr₁ tr₂ t w ch, tr = tr₁ ++ .notified t true :: tr₂ → .lost ∉ tr₂ →
    .moment (.subscribed w t ch) ∈ tr₁ →
    (∃ before, s.session.queue = before ++ t :: notifiedIn tr₂) ∨
      ∃ p tr₃ tr₄, tr₂ = tr₃ ++ .taken p t :: tr₄ ∧
        (s.listener = .publishing p ∨ Heard s.server w p ch (moments tr₄))

/-- What a session is told is delivered. -/
theorem delivered_of_run {es : List LiveEvent} (h : listening.Run Live.initial es s tr) :
    Delivered s tr := by
  obtain ⟨⟨es', hrun⟩, hfollowed⟩ := listening_invariant h
  obtain ⟨-, -, hwakes, htold⟩ := calls_invariant hrun
  refine ⟨?_, ?_⟩
  · intro tr₁ tr₂ heq hlast
    obtain ⟨hhead, hwhole⟩ := hfollowed.order tr₁ tr₂ heq hlast
    exact ⟨(List.prefix_append _ _).trans hhead, hwhole⟩
  · intro tr₁ tr₂ t w ch heq hlost hsub
    rcases hfollowed.kept tr₁ tr₂ t heq hlost with ⟨-, hqueue⟩ | ⟨p, tr₃, tr₄, rfl⟩
    · exact .inl hqueue
    · refine .inr ⟨p, tr₃, tr₄, rfl, ?_⟩
      have hsplit : tr = (tr₁ ++ .notified t true :: tr₃) ++ .taken p t :: tr₄ := by simp [heq]
      obtain ⟨hcarried, hl | hreturned⟩ := hfollowed.taken _ _ p t hsplit
      · exact .inl hl
      · have hmoments : moments tr =
            moments (tr₁ ++ .notified t true :: tr₃) ++ moments (.taken p t :: tr₄) := by
          rw [hsplit, moments_append]
        exact .inr (hcarried.heard hreturned hwakes htold hmoments
          (mem_moments.mpr (List.mem_append_left _ hsub)))

/-- **From a change to the streams.**  In every interleaving of the listener, its sessions, the
changes of any process and the streams of this one, what a session is told is published once and in
order; every stream of the tenant that had subscribed hears of it, unless the session is lost
first; and the listener never waits for a stream. -/
theorem changes_delivered {es : List LiveEvent} (h : listening.Run Live.initial es s tr) :
    Delivered s tr ∧ s.Advances := by
  obtain ⟨⟨es', hrun⟩, -⟩ := listening_invariant h
  exact ⟨delivered_of_run h, advances (calls_invariant hrun).1⟩

/-- A stream of acme is told of a change that was notified while another was published. -/
theorem change_delivered : ∃ s tr,
    listening.Run Live.initial
      [.listen, .inner (.call (.watchConnections "acme")), .inner (.turn 0 .lock),
        .inner (.turn 0 .unlock), .notify "globex", .deliver, .notify "acme",
        .inner (.turn 1 .lock), .inner (.turn 1 .unlock), .resume, .deliver,
        .inner (.turn 2 .lock), .inner (.turn 2 (.send 0)), .inner (.turn 2 .unlock)] s tr ∧
    Delivered s tr := by
  have hexec : (listening.exec (fun _ _ _ => true) Live.initial []
      [.listen, .inner (.call (.watchConnections "acme")), .inner (.turn 0 .lock),
        .inner (.turn 0 .unlock), .notify "globex", .deliver, .notify "acme",
        .inner (.turn 1 .lock), .inner (.turn 1 .unlock), .resume, .deliver,
        .inner (.turn 2 .lock), .inner (.turn 2 (.send 0)), .inner (.turn 2 .unlock)]).map
        Prod.snd =
      some [.listening, .moment (.subscribed 0 "acme" 0), .notified "globex" true,
        .taken 1 "globex", .notified "acme" true, .moment (.locked 1 "globex"),
        .moment (.published 1 "globex"), .taken 2 "acme", .moment (.locked 2 "acme"),
        .moment (.signalled 2 0), .moment (.published 2 "acme")] := rfl
  obtain ⟨s, hrun⟩ := Lts.exists_run hexec
  exact ⟨s, _, hrun, (changes_delivered hrun).1⟩

end Events
end Hivebook
