import Hivebook.Events.Broker
import Hivebook.Lib.Parties

/-!
# What is registered, and for whom

The nested map of the broker holds one channel for every stream that has subscribed and
has not left.  Two invariants say so: the mutex has one holder, and every stream has an id
and a channel of its own.  From them follows what the calls may do to each other.

## Main definitions

* `Goroutine.inside`, `Goroutine.held`, `Goroutine.watching` — what a call holds: the mutex,
  a registration, and a loop that still runs.
* `Onward` — where a goroutine gets by a step.
* `Exclusive` — the mutex excludes.
* `Registered` — the registrations are those of the streams.
* `Spares` — a step changes nothing of a stream.

## Main results

* `Step.threads` — a step moves one goroutine, or adds one.
* `Exclusive.step`, `Registered.step` — every step keeps the two invariants.
* `frame_of_step` — **a call changes nothing of another stream**, but that a `Publish` to
  its tenant fills its channel.
-/

namespace Hivebook
namespace Events

/-- In a critical section of the mutex. -/
def Goroutine.inside : Goroutine → Bool
  | .publishing _ _ | .subscribing _ | .unsubscribing _ => true
  | _ => false

/-- What is registered for a stream until its `unsubscribe` is through. -/
def Goroutine.held : Goroutine → Option Subscription
  | .due sub | .reading sub | .waiting sub | .unsubscribe sub | .unsubscribing sub => some sub
  | _ => none

/-- What a stream listens to while its loop runs. -/
def Goroutine.watching : Goroutine → Option Subscription
  | .due sub | .reading sub | .waiting sub => some sub
  | _ => none

/-- A call that is over, but for its deferred `unsubscribe`. -/
def Goroutine.ended : Goroutine → Bool
  | .unsubscribe _ | .unsubscribing _ | .returned => true
  | _ => false

theorem held_of_watching {g : Goroutine} {sub : Subscription} (h : g.watching = some sub) :
    g.held = some sub := by
  cases g <;> first | exact h | cases h

/-! ### One goroutine moves -/

theorem lt_of_thread {l : List Goroutine} {i : ℕ} {g : Goroutine} (h : l[i]? = some g) :
    i < l.length := lt_of_getElem?_some h

/-- Where the goroutines are after one of them has moved. -/
theorem thread_set {l : List Goroutine} {i j : ℕ} {g g₀ g' : Goroutine} (hi : l[i]? = some g₀) :
    (l.set i g)[j]? = some g' ↔ j = i ∧ g' = g ∨ j ≠ i ∧ l[j]? = some g' := getElem?_set_iff hi

/-- A new call is the last goroutine. -/
theorem thread_append {l : List Goroutine} {j : ℕ} {g g' : Goroutine} :
    (l ++ [g])[j]? = some g' ↔ j = l.length ∧ g' = g ∨ l[j]? = some g' := getElem?_snoc_iff

theorem start_held (c : Call) : c.start.held = none := by
  cases c <;> rfl

theorem start_inside (c : Call) : c.start.inside = false := by
  cases c <;> rfl

/-- Where a goroutine gets by a step: what has ended stays so, and a stream listens to its channel
until it ends. -/
structure Onward (g g' : Goroutine) : Prop where
  ended : g.ended = true → g'.ended = true
  watching : ∀ sub, g.watching = some sub → g'.watching = some sub ∨ g'.ended = true

theorem Onward.refl (g : Goroutine) : Onward g g :=
  ⟨id, fun _ h => .inl h⟩

section Moves

variable {s s' : State} {e : Event} {as : List Moment} {w : ℕ} {g : Goroutine}

/-- The goroutines after a step: a call has come in, or the goroutine whose turn it is has moved
onward.  What has returned has no turn. -/
theorem Step.threads (h : Step s e s' as) :
    (∃ c : Call, e = .call c ∧ s'.threads = s.threads ++ [c.start]) ∨
      ∃ i a g g', e = .turn i a ∧ s.threads[i]? = some g ∧ s'.threads = s.threads.set i g' ∧
        g ≠ .returned ∧ Onward g g' := by
  cases h with
  | call c => exact .inl ⟨c, rfl, rfl⟩
  | lockPublish hi _ => exact .inr ⟨_, _, _, _, rfl, hi, rfl, nofun, nofun, nofun⟩
  | send hi _ => exact .inr ⟨_, _, _, _, rfl, hi, rfl, nofun, nofun, nofun⟩
  | published hi => exact .inr ⟨_, _, _, _, rfl, hi, rfl, nofun, nofun, nofun⟩
  | lockSubscribe hi _ => exact .inr ⟨_, _, _, _, rfl, hi, rfl, nofun, nofun, nofun⟩
  | subscribed hi => exact .inr ⟨_, _, _, _, rfl, hi, rfl, nofun, nofun, nofun⟩
  | read hi => exact .inr ⟨_, _, _, _, rfl, hi, rfl, nofun, nofun, fun _ h => .inl h⟩
  | sent hi => exact .inr ⟨_, _, _, _, rfl, hi, rfl, nofun, nofun, fun _ h => .inl h⟩
  | failed hi => exact .inr ⟨_, _, _, _, rfl, hi, rfl, nofun, nofun, fun _ _ => .inr rfl⟩
  | receive hi _ => exact .inr ⟨_, _, _, _, rfl, hi, rfl, nofun, nofun, fun _ h => .inl h⟩
  | cancel hi => exact .inr ⟨_, _, _, _, rfl, hi, rfl, nofun, nofun, fun _ _ => .inr rfl⟩
  | lockUnsubscribe hi _ => exact .inr ⟨_, _, _, _, rfl, hi, rfl, nofun, fun _ => rfl, nofun⟩
  | unsubscribed hi => exact .inr ⟨_, _, _, _, rfl, hi, rfl, nofun, fun _ => rfl, nofun⟩

/-- A goroutine whose turn it is not stays where it is. -/
theorem Step.frame (h : Step s e s' as) (hw : s.threads[w]? = some g)
    (hother : ∀ a, e ≠ .turn w a) : s'.threads[w]? = some g := by
  rcases h.threads with ⟨c, rfl, heq⟩ | ⟨i, a, g₀, g', rfl, hi, heq, -, -⟩
  · rw [heq]
    exact thread_append.mpr (.inr hw)
  · have hne : w ≠ i := by
      rintro rfl
      exact hother a rfl
    rw [heq]
    exact (thread_set hi).mpr (.inr ⟨hne, hw⟩)

/-- A goroutine that has not moved was there before, or is a new call. -/
theorem Step.still (h : Step s e s' as) (hw : s'.threads[w]? = some g)
    (hother : ∀ a, e ≠ .turn w a) : s.threads[w]? = some g ∨ ∃ c : Call, g = c.start := by
  rcases h.threads with ⟨c, rfl, heq⟩ | ⟨i, a, g₀, g', rfl, hi, heq, -, -⟩
  · rw [heq] at hw
    rcases thread_append.mp hw with ⟨-, rfl⟩ | hw
    · exact .inr ⟨c, rfl⟩
    · exact .inl hw
  · rw [heq] at hw
    rcases (thread_set hi).mp hw with ⟨rfl, -⟩ | ⟨-, hw⟩
    · exact absurd rfl (hother a)
    · exact .inl hw

theorem Step.onward (h : Step s e s' as) (hw : s.threads[w]? = some g) :
    ∃ g', s'.threads[w]? = some g' ∧ Onward g g' := by
  by_cases hmine : ∃ a, e = .turn w a
  · obtain ⟨a, rfl⟩ := hmine
    rcases h.threads with ⟨c, he, -⟩ | ⟨i, a', g₀, g', he, hi, heq, -, honward⟩
    · cases he
    · cases he
      rw [hi] at hw
      cases hw
      refine ⟨g', ?_, honward⟩
      rw [heq]
      exact List.getElem?_set_self (lt_of_thread hi)
  · exact ⟨g, h.frame hw fun a he => hmine ⟨a, he⟩, .refl g⟩

/-- A call that has returned stays so. -/
theorem Step.returned (h : Step s e s' as) (hw : s.threads[w]? = some .returned) :
    s'.threads[w]? = some .returned := by
  refine h.frame hw fun a he => ?_
  rcases h.threads with ⟨c, he', -⟩ | ⟨i, a', g₀, g', he', hi, -, hne, -⟩
  · rw [he] at he'
    cases he'
  · rw [he] at he'
    cases he'
    rw [hw] at hi
    exact hne (Option.some.inj hi).symm

end Moves

/-! ### The mutex -/

/-- The holder of the mutex is the one goroutine in a critical section. -/
def Exclusive (s : State) : Prop :=
  ∀ i, s.broker.mu = some i ↔ ∃ g, s.threads[i]? = some g ∧ g.inside = true

section Exclusive

variable {s s' : State} {i : ℕ} {g g' : Goroutine}

/-- The mutex is taken. -/
theorem Exclusive.lock (h : Exclusive s) (hi : s.threads[i]? = some g) (hfree : s.broker.mu = none)
    (hg' : g'.inside = true) (hthreads : s'.threads = s.threads.set i g')
    (hmu : s'.broker.mu = some i) : Exclusive s' := by
  intro j
  rw [hthreads, hmu]
  simp only [thread_set hi, Option.some.injEq]
  constructor
  · rintro rfl
    exact ⟨g', .inl ⟨rfl, rfl⟩, hg'⟩
  · rintro ⟨g'', ⟨rfl, -⟩ | ⟨-, hj⟩, hin⟩
    · rfl
    · have hheld := (h j).mpr ⟨g'', hj, hin⟩
      rw [hfree] at hheld
      cases hheld

/-- The mutex is given back. -/
theorem Exclusive.unlock (h : Exclusive s) (hi : s.threads[i]? = some g) (hg : g.inside = true)
    (hg' : g'.inside = false) (hthreads : s'.threads = s.threads.set i g')
    (hmu : s'.broker.mu = none) : Exclusive s' := by
  intro j
  rw [hthreads, hmu]
  simp only [thread_set hi]
  constructor
  · intro hheld
    cases hheld
  · rintro ⟨g'', ⟨-, rfl⟩ | ⟨hne, hj⟩, hin⟩
    · rw [hg'] at hin
      cases hin
    · have hmine := (h i).mpr ⟨g, hi, hg⟩
      have hother := (h j).mpr ⟨g'', hj, hin⟩
      rw [hmine] at hother
      exact absurd (Option.some.inj hother).symm hne

/-- Neither. -/
theorem Exclusive.keep (h : Exclusive s) (hi : s.threads[i]? = some g)
    (hthreads : s'.threads = s.threads.set i g') (hg : g'.inside = g.inside)
    (hmu : s'.broker.mu = s.broker.mu) : Exclusive s' := by
  intro j
  rw [hthreads, hmu, h j]
  simp only [thread_set hi]
  constructor
  · rintro ⟨g'', hj, hin⟩
    by_cases hji : j = i
    · subst hji
      rw [hi] at hj
      cases hj
      exact ⟨g', .inl ⟨rfl, rfl⟩, hg.trans hin⟩
    · exact ⟨g'', .inr ⟨hji, hj⟩, hin⟩
  · rintro ⟨g'', ⟨rfl, rfl⟩ | ⟨-, hj⟩, hin⟩
    · exact ⟨g, hi, hg.symm.trans hin⟩
    · exact ⟨g'', hj, hin⟩

theorem Exclusive.step {e : Event} {as : List Moment} (h : Exclusive s)
    (hstep : Step s e s' as) : Exclusive s' := by
  cases hstep with
  | call c =>
    intro j
    simp only [h j, thread_append]
    constructor
    · rintro ⟨g, hj, hin⟩
      exact ⟨g, .inr hj, hin⟩
    · rintro ⟨g, ⟨-, rfl⟩ | hj, hin⟩
      · rw [start_inside] at hin
        cases hin
      · exact ⟨g, hj, hin⟩
  | lockPublish hi hmu => exact h.lock hi hmu rfl rfl rfl
  | send hi _ => exact h.keep hi rfl rfl rfl
  | published hi => exact h.unlock hi rfl rfl rfl rfl
  | lockSubscribe hi hmu => exact h.lock hi hmu rfl rfl rfl
  | subscribed hi => exact h.unlock hi rfl rfl rfl rfl
  | read hi => exact h.keep hi rfl rfl rfl
  | sent hi => exact h.keep hi rfl rfl rfl
  | failed hi => exact h.keep hi rfl rfl rfl
  | receive hi _ => exact h.keep hi rfl rfl rfl
  | cancel hi => exact h.keep hi rfl rfl rfl
  | lockUnsubscribe hi hmu => exact h.lock hi hmu rfl rfl rfl
  | unsubscribed hi => exact h.unlock hi rfl rfl rfl rfl

theorem Exclusive.eq (h : Exclusive s) {j : ℕ} (hi : s.threads[i]? = some g) (hg : g.inside = true)
    (hj : s.threads[j]? = some g') (hg' : g'.inside = true) : i = j := by
  have hmine := (h i).mpr ⟨g, hi, hg⟩
  have hother := (h j).mpr ⟨g', hj, hg'⟩
  rw [hmine] at hother
  exact Option.some.inj hother

end Exclusive

/-! ### Registrations -/

/-- What is registered: every stream has its own id and its own channel. -/
structure Registered (s : State) : Prop where
  held : ∀ (i : ℕ) (g : Goroutine) (sub : Subscription), s.threads[i]? = some g →
    g.held = some sub → s.broker.lookup sub.stream.tenant sub.id = some sub.ch
  own : ∀ (i j : ℕ) (g g' : Goroutine) (sub sub' : Subscription), s.threads[i]? = some g →
    s.threads[j]? = some g' → g.held = some sub → g'.held = some sub' → sub.id = sub'.id → i = j
  fresh : ∀ (t : String) (id ch : ℕ), s.broker.lookup t id = some ch →
    id < s.broker.next ∧ ch < s.chans.length
  injective : ∀ (t t' : String) (id id' ch : ℕ), s.broker.lookup t id = some ch →
    s.broker.lookup t' id' = some ch → t = t' ∧ id = id'
  /-- What a `Publish` has still to visit is registered for its tenant. -/
  visiting : ∀ (i : ℕ) (t : String) (rest : List Channel),
    s.threads[i]? = some (.publishing t rest) → ∀ ch ∈ rest, ∃ id, s.broker.lookup t id = some ch

section Registered

variable {s s' : State}

/-- A step that registers nothing and deletes nothing. -/
theorem Registered.keep (h : Registered s) {i : ℕ} {g g' : Goroutine}
    (hi : s.threads[i]? = some g) (hthreads : s'.threads = s.threads.set i g')
    (hheld : g'.held = g.held)
    (hvisit : ∀ t rest, g' = .publishing t rest → ∀ ch ∈ rest,
      ∃ id, s.broker.lookup t id = some ch) (hsubs : s'.broker.subs = s.broker.subs)
    (hnext : s'.broker.next = s.broker.next) (hlen : s'.chans.length = s.chans.length) :
    Registered s' := by
  have hlookup : ∀ t id, s'.broker.lookup t id = s.broker.lookup t id := by
    intro t id
    rw [Broker.lookup, hsubs]
    rfl
  -- a goroutine holds what it held
  have hback : ∀ (j : ℕ) (g'' : Goroutine) (sub : Subscription), s'.threads[j]? = some g'' →
      g''.held = some sub → ∃ g₀ : Goroutine, s.threads[j]? = some g₀ ∧ g₀.held = some sub := by
    intro j g'' sub hj hsub
    rw [hthreads, thread_set hi] at hj
    rcases hj with ⟨rfl, rfl⟩ | ⟨-, hj⟩
    · exact ⟨g, hi, hheld.symm.trans hsub⟩
    · exact ⟨g'', hj, hsub⟩
  refine ⟨?_, ?_, ?_, ?_, ?_⟩
  · intro j g'' sub hj hsub
    obtain ⟨g₀, hj₀, hsub₀⟩ := hback j g'' sub hj hsub
    rw [hlookup]
    exact h.held j g₀ sub hj₀ hsub₀
  · intro j k g₁ g₂ sub₁ sub₂ hj hk hsub₁ hsub₂ hid
    obtain ⟨g₃, hj₀, hsub₃⟩ := hback j g₁ sub₁ hj hsub₁
    obtain ⟨g₄, hk₀, hsub₄⟩ := hback k g₂ sub₂ hk hsub₂
    exact h.own j k g₃ g₄ sub₁ sub₂ hj₀ hk₀ hsub₃ hsub₄ hid
  · intro t id ch hch
    rw [hlookup] at hch
    rw [hnext, hlen]
    exact h.fresh t id ch hch
  · intro t t' id id' ch hch hch'
    rw [hlookup] at hch hch'
    exact h.injective t t' id id' ch hch hch'
  · intro j t rest hj ch hch
    rw [hthreads, thread_set hi] at hj
    rcases hj with ⟨-, heq⟩ | ⟨-, hj⟩
    · obtain ⟨id, hid⟩ := hvisit t rest heq.symm ch hch
      exact ⟨id, (hlookup t id).trans hid⟩
    · obtain ⟨id, hid⟩ := h.visiting j t rest hj ch hch
      exact ⟨id, (hlookup t id).trans hid⟩

theorem Registered.call (h : Registered s) (c : Call) :
    Registered { s with threads := s.threads ++ [c.start] } := by
  have hback : ∀ {j : ℕ} {g : Goroutine} {sub : Subscription},
      (s.threads ++ [c.start])[j]? = some g → g.held = some sub → s.threads[j]? = some g := by
    intro j g sub hj hsub
    rcases thread_append.mp hj with ⟨-, rfl⟩ | hj
    · rw [start_held] at hsub
      cases hsub
    · exact hj
  refine ⟨?_, ?_, h.fresh, h.injective, ?_⟩
  · intro j g sub hj hsub
    exact h.held j g sub (hback hj hsub) hsub
  · intro j k g g' sub sub' hj hk hsub hsub' hid
    exact h.own j k g g' sub sub' (hback hj hsub) (hback hk hsub') hsub hsub' hid
  · intro j t rest hj ch hch
    rcases thread_append.mp hj with ⟨-, heq⟩ | hj
    · cases c <;> cases heq
    · exact h.visiting j t rest hj ch hch

/-- A new subscriber has an id and a channel that nobody else has. -/
theorem Registered.subscribed (h : Registered s) {i : ℕ} {stream : Stream}
    (hi : s.threads[i]? = some (.subscribing stream)) :
    Registered { s.goto i (.due ⟨stream, s.broker.next, s.chans.length⟩) with
      broker := s.broker.subscribe stream.tenant s.chans.length
      chans := s.chans ++ [false] } := by
  -- what is registered now: the new channel, or what was registered before under another id
  have hcases : ∀ (t : String) (id ch : ℕ),
      (s.broker.subscribe stream.tenant s.chans.length).lookup t id = some ch →
        t = stream.tenant ∧ id = s.broker.next ∧ ch = s.chans.length ∨
          s.broker.lookup t id = some ch := by
    intro t id ch hch
    by_cases hnew : t = stream.tenant ∧ id = s.broker.next
    · obtain ⟨rfl, rfl⟩ := hnew
      rw [Broker.lookup_subscribe_self] at hch
      exact .inl ⟨rfl, rfl, (Option.some.inj hch).symm⟩
    · rw [Broker.lookup_subscribe_of_ne _ hnew] at hch
      exact .inr hch
  have hkeep : ∀ (t : String) (id ch : ℕ), s.broker.lookup t id = some ch →
      (s.broker.subscribe stream.tenant s.chans.length).lookup t id = some ch := by
    intro t id ch hch
    rw [Broker.lookup_subscribe_of_ne _ fun hnew => ?_]
    · exact hch
    · have hlt := (h.fresh t id ch hch).1
      omega
  have hthreads : ∀ {j g}, (s.threads.set i (.due ⟨stream, s.broker.next, s.chans.length⟩))[j]? =
      some g → j = i ∧ g = .due ⟨stream, s.broker.next, s.chans.length⟩ ∨
        j ≠ i ∧ s.threads[j]? = some g := fun hj => (thread_set hi).mp hj
  refine ⟨?_, ?_, ?_, ?_, ?_⟩
  · intro j g sub hj hsub
    rcases hthreads hj with ⟨-, rfl⟩ | ⟨-, hj⟩
    · obtain rfl := Option.some.inj hsub
      exact Broker.lookup_subscribe_self _
    · exact hkeep _ _ _ (h.held j g sub hj hsub)
  · intro j k g g' sub sub' hj hk hsub hsub' hid
    rcases hthreads hj with ⟨hji, rfl⟩ | ⟨-, hj₀⟩ <;> rcases hthreads hk with ⟨hki, rfl⟩ | ⟨-, hk₀⟩
    · rw [hji, hki]
    · obtain rfl := Option.some.inj hsub
      have hlt := (h.fresh _ _ _ (h.held k g' sub' hk₀ hsub')).1
      exact absurd hid.symm (Nat.ne_of_lt hlt)
    · obtain rfl := Option.some.inj hsub'
      have hlt := (h.fresh _ _ _ (h.held j g sub hj₀ hsub)).1
      exact absurd hid (Nat.ne_of_lt hlt)
    · exact h.own j k g g' sub sub' hj₀ hk₀ hsub hsub' hid
  · intro t id ch hch
    have hnext : (s.broker.subscribe stream.tenant s.chans.length).next = s.broker.next + 1 := rfl
    rw [hnext, List.length_append, List.length_singleton]
    rcases hcases t id ch hch with ⟨-, rfl, rfl⟩ | hch
    · omega
    · have hlt := h.fresh t id ch hch
      omega
  · intro t t' id id' ch hch hch'
    rcases hcases t id ch hch with ⟨rfl, rfl, rfl⟩ | hch <;>
      rcases hcases t' id' _ hch' with ⟨rfl, rfl, heq⟩ | hch'
    · exact ⟨rfl, rfl⟩
    · have hlt := (h.fresh _ _ _ hch').2
      omega
    · subst heq
      have hlt := (h.fresh _ _ _ hch).2
      omega
    · exact h.injective t t' id id' ch hch hch'
  · intro j t rest hj ch hch
    rcases hthreads hj with ⟨-, heq⟩ | ⟨-, hj⟩
    · cases heq
    · obtain ⟨id, hid⟩ := h.visiting j t rest hj ch hch
      exact ⟨id, hkeep t id ch hid⟩

/-- A subscriber that leaves takes nothing of the others with it. -/
theorem Registered.unsubscribed (h : Registered s) (hmu : Exclusive s) {i : ℕ} {sub : Subscription}
    (hi : s.threads[i]? = some (.unsubscribing sub)) :
    Registered { s.goto i .returned with
      broker := s.broker.unsubscribe sub.stream.tenant sub.id } := by
  have hback : ∀ (t : String) (id ch : ℕ),
      (s.broker.unsubscribe sub.stream.tenant sub.id).lookup t id = some ch →
        s.broker.lookup t id = some ch := by
    intro t id ch hch
    by_cases hold : t = sub.stream.tenant ∧ id = sub.id
    · obtain ⟨rfl, rfl⟩ := hold
      rw [Broker.lookup_unsubscribe_self] at hch
      cases hch
    · rwa [Broker.lookup_unsubscribe_of_ne hold] at hch
  have hthreads : ∀ {j g}, (s.threads.set i .returned)[j]? = some g →
      j = i ∧ g = .returned ∨ j ≠ i ∧ s.threads[j]? = some g := fun hj => (thread_set hi).mp hj
  refine ⟨?_, ?_, ?_, ?_, ?_⟩
  · intro j g sub' hj hsub
    rcases hthreads hj with ⟨-, rfl⟩ | ⟨hji, hj⟩
    · cases hsub
    · show (s.broker.unsubscribe _ _).lookup _ _ = _
      rw [Broker.lookup_unsubscribe_of_ne fun hsame => ?_]
      · exact h.held j g sub' hj hsub
      · exact hji (h.own j i g _ sub' sub hj hi hsub rfl hsame.2)
  · intro j k g g' sub₁ sub₂ hj hk hsub hsub' hid
    rcases hthreads hj with ⟨-, rfl⟩ | ⟨-, hj⟩
    · cases hsub
    · rcases hthreads hk with ⟨-, rfl⟩ | ⟨-, hk⟩
      · cases hsub'
      · exact h.own j k g g' sub₁ sub₂ hj hk hsub hsub' hid
  · intro t id ch hch
    exact h.fresh t id ch (hback t id ch hch)
  · intro t t' id id' ch hch hch'
    exact h.injective t t' id id' ch (hback _ _ _ hch) (hback _ _ _ hch')
  · -- no `Publish` is in its loop meanwhile
    intro j t rest hj
    rcases hthreads hj with ⟨-, heq⟩ | ⟨hji, hj⟩
    · cases heq
    · exact absurd (hmu.eq hj rfl hi rfl) hji

theorem Registered.step {e : Event} {as : List Moment} (h : Registered s) (hmu : Exclusive s)
    (hstep : Step s e s' as) : Registered s' := by
  cases hstep with
  | call c => exact h.call c
  | lockPublish hi _ =>
    refine h.keep hi rfl rfl ?_ rfl rfl rfl
    rintro t rest heq ch hch
    cases heq
    exact Broker.mem_channels.mp hch
  | send hi hch =>
    refine h.keep hi rfl rfl ?_ rfl rfl (List.length_set ..)
    rintro t rest heq ch hmem
    cases heq
    exact h.visiting _ _ _ hi ch (List.mem_of_mem_erase hmem)
  | published hi => exact h.keep hi rfl rfl (by simp) rfl rfl rfl
  | lockSubscribe hi _ => exact h.keep hi rfl rfl (by simp) rfl rfl rfl
  | subscribed hi => exact h.subscribed hi
  | read hi => exact h.keep hi rfl rfl (by simp) rfl rfl rfl
  | sent hi => exact h.keep hi rfl rfl (by simp) rfl rfl rfl
  | failed hi => exact h.keep hi rfl rfl (by simp) rfl rfl rfl
  | receive hi _ => exact h.keep hi rfl rfl (by simp) rfl rfl (List.length_set ..)
  | cancel hi => exact h.keep hi rfl rfl (by simp) rfl rfl rfl
  | lockUnsubscribe hi _ => exact h.keep hi rfl rfl (by simp) rfl rfl rfl
  | unsubscribed hi => exact h.unsubscribed hmu hi

end Registered

/-! ### What a call leaves alone -/

section Frame

variable {s s' : State} {e : Event} {as : List Moment}

/-- A step of another call changes nothing of a stream: neither where it is nor its registration,
and its channel only as a `Publish` to its own tenant, which leaves it full. -/
def Spares (s : State) (e : Event) (s' : State) (w : ℕ) : Prop :=
  ∀ (g : Goroutine) (sub : Subscription), s.threads[w]? = some g → g.held = some sub →
    (∀ a, e ≠ .turn w a) →
      s'.threads[w]? = some g ∧
        s'.broker.lookup sub.stream.tenant sub.id = s.broker.lookup sub.stream.tenant sub.id ∧
        (s'.chans[sub.ch]? = s.chans[sub.ch]? ∨
          s'.Full sub.ch ∧ ∃ i rest ch, e = .turn i (.send ch) ∧
            s.threads[i]? = some (.publishing sub.stream.tenant rest))

/-- **A call changes nothing of another stream.** -/
theorem frame_of_step (h : Registered s) (hstep : Step s e s' as) (w : ℕ) : Spares s e s' w := by
  intro g sub hw hsub hother
  have hreg := h.held w g sub hw hsub
  obtain ⟨hid, hlt⟩ := h.fresh _ _ _ hreg
  have hthread := hstep.frame hw hother
  have hne : ∀ {i : ℕ} {a : Act}, e = .turn i a → i ≠ w := by
    rintro i a he rfl
    exact hother a he
  cases hstep with
  | call c => exact ⟨hthread, rfl, .inl rfl⟩
  | lockPublish hi _ => exact ⟨hthread, rfl, .inl rfl⟩
  | @send i tenant rest ch hi hch =>
    refine ⟨hthread, rfl, ?_⟩
    by_cases hsame : ch = sub.ch
    · subst hsame
      obtain ⟨id, hvisit⟩ := h.visiting i tenant rest hi sub.ch hch
      obtain ⟨rfl, -⟩ := h.injective _ _ _ _ _ hvisit hreg
      -- whatever the channel held before, it is full now
      exact .inr ⟨List.getElem?_set_self hlt, i, rest, sub.ch, rfl, hi⟩
    · exact .inl (List.getElem?_set_ne hsame)
  | published hi => exact ⟨hthread, rfl, .inl rfl⟩
  | lockSubscribe hi _ => exact ⟨hthread, rfl, .inl rfl⟩
  | subscribed hi =>
    refine ⟨hthread, Broker.lookup_subscribe_of_ne _ ?_, .inl ?_⟩
    · rintro ⟨-, hnew⟩
      omega
    · exact List.getElem?_append_left hlt
  | read hi => exact ⟨hthread, rfl, .inl rfl⟩
  | sent hi => exact ⟨hthread, rfl, .inl rfl⟩
  | failed hi => exact ⟨hthread, rfl, .inl rfl⟩
  | @receive i sub' hi _ =>
    refine ⟨hthread, rfl, .inl (List.getElem?_set_ne fun hsame => hne rfl ?_)⟩
    -- two streams on one channel would be one stream
    have hreg' := h.held i _ sub' hi rfl
    rw [hsame] at hreg'
    exact h.own i w _ g sub' sub hi hw rfl hsub (h.injective _ _ _ _ _ hreg' hreg).2
  | cancel hi => exact ⟨hthread, rfl, .inl rfl⟩
  | lockUnsubscribe hi _ => exact ⟨hthread, rfl, .inl rfl⟩
  | @unsubscribed i sub' hi =>
    refine ⟨hthread, Broker.lookup_unsubscribe_of_ne fun hsame => hne rfl ?_, .inl rfl⟩
    exact h.own i w _ g sub' sub hi hw rfl hsub hsame.2.symm

end Frame

end Events
end Hivebook
