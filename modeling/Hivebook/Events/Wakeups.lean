import Hivebook.Events.Registered

/-!
# No wake-up is lost

Signals are coalesced into one slot, so a watcher may get one signal for many changes.
What it can rely on is a property of all interleavings: as long as it has not started a
read since its channel was last visited, it still owes that read, or its channel holds
the signal that will make it.

Three facts carry it.  What is registered belongs to one stream, and stays until that
stream ends.  A `Publish` that has the mutex visits every channel that is registered
then.  And a visited channel is full until its stream takes the signal, after which the
stream owes a read.

## Main definitions

* `remaining`, `Frees` — the steps to the end of a critical section.
* `Unblocked` — a `Publish` that waits for no receiver.
* `Wakes` — a stream that has a visit without a read later on.
* `Told` — what the moments of a run say of its calls.
* `Heard` — what a stream owes to a `Publish`.

## Main results

* `publish_unblocked` — **`Publish` never blocks.**
* `no_wakeup_lost` — **no wake-up is lost**, in any run.
-/

namespace Hivebook
namespace Events

/-! ### `Publish` never blocks -/

section Unblocked

/-- The steps to the end of a critical section. -/
def remaining : Goroutine → ℕ
  | .publishing _ rest => rest.length + 1
  | .subscribing _ | .unsubscribing _ => 1
  | _ => 0

/-- A step is possible. -/
def Enabled (s : State) (e : Event) : Prop := ∃ r, calls.step s e = some r

/-- The goroutine frees the mutex by its own steps alone, in so many of them. -/
def Frees (s : State) (i n : ℕ) : Prop :=
  ∃ es s' tr, (∀ e ∈ es, ∃ a, e = .turn i a) ∧ es.length = n ∧ calls.Run s es s' tr ∧
    s'.broker.mu = none ∧ ∀ j, j ≠ i → s'.threads[j]? = s.threads[j]?

variable {s : State} {i : ℕ}

theorem calls_turn {g : Goroutine} (hi : s.threads[i]? = some g) (a : Act) :
    calls.step s (.turn i a) = turn s i g a := by
  simp [calls, hi]

theorem enabled_send {tenant : String} {rest : List Channel} {ch : Channel}
    (hi : s.threads[i]? = some (.publishing tenant rest)) (hch : ch ∈ rest) :
    calls.step s (.turn i (.send ch)) =
      some ({ s.goto i (.publishing tenant (rest.erase ch)) with chans := s.chans.set ch true },
        [.signalled i ch]) := by
  rw [calls_turn hi, turn, if_pos hch]

/-- Joining a step to a run. -/
theorem Frees.cons {n : ℕ} {a : Act} {s' : State} {as : List Moment}
    (hstep : calls.step s (.turn i a) = some (s', as))
    (hothers : ∀ j, j ≠ i → s'.threads[j]? = s.threads[j]?) (h : Frees s' i n) :
    Frees s i (n + 1) := by
  obtain ⟨es, t, tr, hes, hlen, hrun, hmu, hthreads⟩ := h
  refine ⟨.turn i a :: es, t, as ++ tr, ?_, by simp [hlen], hrun.cons hstep, hmu, ?_⟩
  · intro e he
    rcases List.mem_cons.mp he with rfl | he
    · exact ⟨a, rfl⟩
    · exact hes e he
  · intro j hj
    rw [hthreads j hj, hothers j hj]

theorem frees_of_unlock {g : Goroutine} {a : Act} {s' : State} {as : List Moment}
    (hstep : calls.step s (.turn i a) = some (s', as)) (hmu : s'.broker.mu = none)
    (hthreads : s'.threads = s.threads.set i g) : Frees s i 1 := by
  refine Frees.cons hstep (fun j hj => ?_) ⟨[], s', [], by simp, rfl, .refl, hmu, fun _ _ => rfl⟩
  rw [hthreads, List.getElem?_set_ne hj.symm]

/-- The loop of a `Publish` comes to its end, whatever the channels hold. -/
theorem frees_publishing {tenant : String} {rest : List Channel}
    (hi : s.threads[i]? = some (.publishing tenant rest)) : Frees s i (rest.length + 1) := by
  induction hn : rest.length generalizing s rest with
  | zero =>
    obtain rfl := List.length_eq_zero_iff.mp hn
    have hstep : calls.step s (.turn i .unlock) = some
        ({ s.goto i .returned with broker := { s.broker with mu := none } },
          [.published i tenant]) := by
      rw [calls_turn hi]
      rfl
    exact frees_of_unlock hstep rfl rfl
  | succ n ih =>
    obtain ⟨ch, rest', rfl⟩ := List.exists_cons_of_length_eq_add_one hn
    have hstep := enabled_send hi (List.mem_cons_self)
    have hthread : (s.threads.set i (.publishing tenant ((ch :: rest').erase ch)))[i]? =
        some (.publishing tenant ((ch :: rest').erase ch)) :=
      List.getElem?_set_self (lt_of_thread hi)
    refine Frees.cons hstep (fun j hj => List.getElem?_set_ne hj.symm) (ih hthread ?_)
    simpa using hn

/-- Whoever holds the mutex frees it by its own steps alone. -/
theorem frees_of_inside {g : Goroutine} (hi : s.threads[i]? = some g) (hg : g.inside = true) :
    Frees s i (remaining g) := by
  cases g with
  | publishing tenant rest => exact frees_publishing hi
  | subscribing stream => exact frees_of_unlock (calls_turn hi .unlock) rfl rfl
  | unsubscribing sub => exact frees_of_unlock (calls_turn hi .unlock) rfl rfl
  | _ => cases hg

/-- A call of `Publish` that has not returned waits for no receiver: in its loop it can visit every
channel that is left, full or not, and then return; before it, the mutex is free or its holder
frees it without the help of anyone. -/
structure Unblocked (s : State) (i : ℕ) : Prop where
  visit : ∀ tenant rest, s.threads[i]? = some (.publishing tenant rest) →
    ∀ ch ∈ rest, Enabled s (.turn i (.send ch))
  leave : ∀ tenant, s.threads[i]? = some (.publishing tenant []) → Enabled s (.turn i .unlock)
  enter : ∀ tenant, s.threads[i]? = some (.publish tenant) →
    Enabled s (.turn i .lock) ∨ ∃ j g, s.broker.mu = some j ∧ s.threads[j]? = some g ∧
      Frees s j (remaining g)

/-- **`Publish` never blocks.** -/
theorem publish_unblocked (h : Exclusive s) (i : ℕ) : Unblocked s i := by
  refine ⟨fun tenant rest hi ch hch => ⟨_, enabled_send hi hch⟩, fun tenant hi => ?_, ?_⟩
  · exact ⟨_, calls_turn hi .unlock⟩
  · intro tenant hi
    cases hmu : s.broker.mu with
    | none =>
      have hstep := calls_turn hi .lock
      rw [turn, State.lock, if_pos hmu] at hstep
      exact .inl ⟨_, hstep⟩
    | some j =>
      obtain ⟨g, hj, hg⟩ := (h j).mp hmu
      exact .inr ⟨j, g, rfl, hj, frees_of_inside hj hg⟩

end Unblocked

/-! ### What a visit obliges to -/

section Run

variable {s s' : State} {e : Event} {as : List Moment}

/-- A step is recorded by one moment at most. -/
theorem Step.recorded (h : Step s e s' as) : as = [] ∨ ∃ m, as = [m] := by
  cases h with
  | lockPublish => exact .inr ⟨_, rfl⟩
  | send => exact .inr ⟨_, rfl⟩
  | published => exact .inr ⟨_, rfl⟩
  | subscribed => exact .inr ⟨_, rfl⟩
  | read => exact .inr ⟨_, rfl⟩
  | _ => exact .inl rfl

/-- A channel that the loop of a `Publish` has still to visit is visited, or stays to be. -/
theorem Step.visits (h : Step s e s' as) {p : ℕ} {t : String} {rest : List Channel} {ch : Channel}
    (hp : s.threads[p]? = some (.publishing t rest)) (hch : ch ∈ rest) :
    (∃ rest', s'.threads[p]? = some (.publishing t rest') ∧ ch ∈ rest') ∨
      .signalled p ch ∈ as := by
  by_cases hmine : ∃ a, e = .turn p a
  · obtain ⟨a, rfl⟩ := hmine
    cases h with
    | @send _ _ _ ch' hi hch' =>
      rw [hp] at hi
      cases hi
      by_cases hsame : ch = ch'
      · exact .inr (by simp [hsame])
      · refine .inl ⟨rest.erase ch', List.getElem?_set_self (lt_of_thread hp), ?_⟩
        exact (List.mem_erase_of_ne hsame).mpr hch
    | published hi =>
      -- the loop is through
      rw [hp] at hi
      cases hi
      cases hch
    | _ => simp_all
  · exact .inl ⟨rest, h.frame hp fun a he => hmine ⟨a, he⟩, hch⟩

/-- A moment of a trace that has grown by a step lies before the step, or is the step. -/
theorem split_append {α : Type*} {as tr tr₁ tr₂ : List α} {m : α} (has : as = [] ∨ ∃ m', as = [m'])
    (heq : tr ++ as = tr₁ ++ m :: tr₂) :
    (∃ tr₃, tr₂ = tr₃ ++ as ∧ tr = tr₁ ++ m :: tr₃) ∨ tr₂ = [] ∧ as = [m] ∧ tr = tr₁ := by
  rcases has with rfl | ⟨m', rfl⟩
  · rw [List.append_nil] at heq
    exact .inl ⟨tr₂, by simp, heq⟩
  · rcases List.eq_nil_or_concat tr₂ with rfl | ⟨tr₃, m'', rfl⟩
    · obtain ⟨rfl, hm⟩ := List.append_inj' heq rfl
      exact .inr ⟨rfl, hm, rfl⟩
    · rw [List.concat_eq_append] at heq ⊢
      have heq' : tr ++ [m'] = (tr₁ ++ m :: tr₃) ++ [m''] := by simpa using heq
      obtain ⟨rfl, hm⟩ := List.append_inj' heq' rfl
      exact .inl ⟨tr₃, by rw [hm], rfl⟩

/-- The channel has been visited since the stream last started a read. -/
def Unread (w : ℕ) (ch : Channel) (tr : List Moment) : Prop :=
  Pending (fun m => ∃ i, m = .signalled i ch) (fun m => m = .read w) (fun _ => False) tr

/-- A stream whose channel has been visited since it last started a read still owes one, or will be
woken. -/
def Wakes (s : State) (tr : List Moment) : Prop :=
  ∀ (w : ℕ) (g : Goroutine) (sub : Subscription), s.threads[w]? = some g →
    g.watching = some sub → Unread w sub.ch tr → s.Full sub.ch ∨ g = .due sub

theorem unread_append {w : ℕ} {ch : Channel} {tr : List Moment} (h : Unread w ch (tr ++ as))
    (has : ∀ i, .signalled i ch ∉ as) : Unread w ch tr ∧ .read w ∉ as := by
  rcases (pending_append tr as).mp h with ⟨pre, m, mid, rfl, ⟨i, rfl⟩, -⟩ | ⟨hbefore, hquiet⟩
  · exact absurd (List.mem_append_right _ List.mem_cons_self) (has i)
  · exact ⟨hbefore, fun hmem => (hquiet _ hmem).2 rfl⟩

/-- A step of another goroutine. -/
theorem Wakes.other {tr : List Moment} (h : Wakes s tr) (hreg : Registered s)
    (hstep : Step s e s' as) {w : ℕ} {g : Goroutine} {sub : Subscription}
    (hw : s.threads[w]? = some g) (hsub : g.watching = some sub) (hother : ∀ a, e ≠ .turn w a)
    (hunread : Unread w sub.ch (tr ++ as)) : s'.Full sub.ch ∨ g = .due sub := by
  obtain ⟨-, -, hch⟩ := frame_of_step hreg hstep w g sub hw (held_of_watching hsub) hother
  rcases hch with hsame | ⟨hfull, -⟩
  · by_cases hsig : ∃ i, .signalled i sub.ch ∈ as
    · -- the visit itself fills the channel
      obtain ⟨i, hsig⟩ := hsig
      have hreg' := hreg.held w g sub hw (held_of_watching hsub)
      cases hstep with
      | send hi _ =>
        rw [List.mem_singleton] at hsig
        cases hsig
        exact .inl (List.getElem?_set_self (hreg.fresh _ _ _ hreg').2)
      | _ => simp at hsig
    · obtain ⟨hbefore, -⟩ := unread_append hunread fun i hi => hsig ⟨i, hi⟩
      refine (h w g sub hw hsub hbefore).imp_left fun hfull => ?_
      exact hsame.trans hfull
  · exact .inl hfull

theorem Wakes.step {tr : List Moment} (h : Wakes s tr) (hreg : Registered s)
    (hstep : Step s e s' as) : Wakes s' (tr ++ as) := by
  intro w g' sub hw' hsub hunread
  -- the goroutine itself moves, from `g₀` to `g`
  by_cases hmine : ∃ a, e = .turn w a
  · obtain ⟨a, rfl⟩ := hmine
    have hself : ∀ {g₀ g : Goroutine}, s.threads[w]? = some g₀ →
        (s.threads.set w g)[w]? = some g' → g' = g := by
      intro g₀ g hw hset
      rw [List.getElem?_set_self (lt_of_thread hw)] at hset
      exact (Option.some.inj hset).symm
    cases hstep with
    | lockPublish hw _ => cases hself hw hw'; cases hsub
    | send hw _ => cases hself hw hw'; cases hsub
    | published hw => cases hself hw hw'; cases hsub
    | lockSubscribe hw _ => cases hself hw hw'; cases hsub
    | subscribed hw =>
      -- the first read is still to come
      cases hself hw hw'
      cases hsub
      exact .inr rfl
    | read hw =>
      have hread := (unread_append hunread (by simp)).2
      exact absurd (List.mem_singleton_self _) hread
    | sent hw =>
      cases hself hw hw'
      rw [List.append_nil] at hunread
      rcases h w _ sub hw hsub hunread with hfull | hdue
      · exact .inl hfull
      · cases hdue
    | failed hw => cases hself hw hw'; cases hsub
    | receive hw _ =>
      cases hself hw hw'
      cases hsub
      exact .inr rfl
    | cancel hw => cases hself hw hw'; cases hsub
    | lockUnsubscribe hw _ => cases hself hw hw'; cases hsub
    | unsubscribed hw => cases hself hw hw'; cases hsub
  · have hother : ∀ a, e ≠ .turn w a := fun a he => hmine ⟨a, he⟩
    rcases hstep.still hw' hother with hw | ⟨c, rfl⟩
    · exact h.other hreg hstep hw hsub hother hunread
    · cases c <;> cases hsub

/-- What the moments of a run say of where its calls are. -/
structure Told (s : State) (tr : List Moment) : Prop where
  subscribed : ∀ w t ch, .subscribed w t ch ∈ tr → ∃ g, s.threads[w]? = some g ∧
    (g.ended = true ∨ ∃ sub, g.watching = some sub ∧ sub.stream.tenant = t ∧ sub.ch = ch)
  published : ∀ p t, .published p t ∈ tr → s.threads[p]? = some .returned
  /-- A channel that was registered when a `Publish` got the mutex has been visited by it, or will
  be, unless its stream has ended. -/
  visited : ∀ tr₁ tr₂ p w t ch, tr = tr₁ ++ .locked p t :: tr₂ → .subscribed w t ch ∈ tr₁ →
    (∃ g, s.threads[w]? = some g ∧ g.ended = true) ∨
      (∃ rest, s.threads[p]? = some (.publishing t rest) ∧ ch ∈ rest) ∨ .signalled p ch ∈ tr₂

theorem Told.step {tr : List Moment} (h : Told s tr) (hreg : Registered s)
    (hstep : Step s e s' as) : Told s' (tr ++ as) := by
  refine ⟨?_, ?_, ?_⟩
  · intro w t ch hmem
    rcases List.mem_append.mp hmem with hmem | hmem
    · obtain ⟨g, hw, hg⟩ := h.subscribed w t ch hmem
      obtain ⟨g', hw', honward⟩ := hstep.onward hw
      refine ⟨g', hw', ?_⟩
      rcases hg with hended | ⟨sub, hsub, ht, hch⟩
      · exact .inl (honward.ended hended)
      · rcases honward.watching sub hsub with hsub' | hended
        · exact .inr ⟨sub, hsub', ht, hch⟩
        · exact .inl hended
    · cases hstep with
      | @subscribed i stream hi =>
        cases List.mem_singleton.mp hmem
        refine ⟨_, List.getElem?_set_self (lt_of_thread hi), .inr ?_⟩
        exact ⟨⟨stream, s.broker.next, s.chans.length⟩, rfl, rfl, rfl⟩
      | _ => simp at hmem
  · intro p t hmem
    rcases List.mem_append.mp hmem with hmem | hmem
    · exact hstep.returned (h.published p t hmem)
    · cases hstep with
      | published hi =>
        cases List.mem_singleton.mp hmem
        exact List.getElem?_set_self (lt_of_thread hi)
      | _ => simp at hmem
  · intro tr₁ tr₂ p w t ch heq hmem
    rcases split_append hstep.recorded heq with ⟨tr₃, rfl, rfl⟩ | ⟨rfl, rfl, rfl⟩
    · rcases h.visited tr₁ tr₃ p w t ch rfl hmem with ⟨g, hw, hended⟩ | ⟨rest, hp, hch⟩ | hsig
      · obtain ⟨g', hw', honward⟩ := hstep.onward hw
        exact .inl ⟨g', hw', honward.ended hended⟩
      · rcases hstep.visits hp hch with hleft | hsig
        · exact .inr (.inl hleft)
        · exact .inr (.inr (List.mem_append_right _ hsig))
      · exact .inr (.inr (List.mem_append_left _ hsig))
    · -- the mutex has just been taken: all that is registered is to be visited
      obtain ⟨g, hw, hg⟩ := h.subscribed w t ch hmem
      obtain ⟨g', hw', honward⟩ := hstep.onward hw
      rcases hg with hended | ⟨sub, hsub, rfl, rfl⟩
      · exact .inl ⟨g', hw', honward.ended hended⟩
      · cases hstep with
        | lockPublish hi _ =>
          refine .inr (.inl ⟨_, List.getElem?_set_self (lt_of_thread hi), ?_⟩)
          exact Broker.mem_channels.mpr ⟨sub.id, hreg.held w g sub hw (held_of_watching hsub)⟩

end Run

/-! ### Every run -/

/-- All that holds of the state and the moments that led to it. -/
theorem calls_invariant {es : List Event} {s : State} {tr : List Moment}
    (h : calls.Run initial es s tr) :
    Exclusive s ∧ Registered s ∧ Wakes s tr ∧ Told s tr := by
  refine h.invariant (J := fun s tr => Exclusive s ∧ Registered s ∧ Wakes s tr ∧ Told s tr) ?_ ?_
  · refine ⟨?_, ⟨?_, ?_, ?_, ?_, ?_⟩, ?_, ⟨?_, ?_, ?_⟩⟩ <;>
      simp [Exclusive, Wakes, initial, newBroker, Broker.lookup]
  · rintro s tr e s' as ⟨hmu, hreg, hwakes, htold⟩ - hstep
    have hstep := step_of_calls hstep
    exact ⟨hmu.step hstep, hreg.step hmu hstep, hwakes.step hreg hstep, htold.step hreg hstep⟩

/-- A stream has ended, or it has been visited by the `Publish`, and since that visit it has
started a read, or it has yet to start one that it owes, or its channel holds a signal. -/
def Heard (s : State) (w p : ℕ) (ch : Channel) (since : List Moment) : Prop :=
  (∃ g, s.threads[w]? = some g ∧ g.ended = true) ∨
    ∃ before after, since = before ++ .signalled p ch :: after ∧
      (.read w ∈ after ∨ (∃ sub, s.threads[w]? = some (.due sub) ∧ sub.ch = ch) ∨ s.Full ch)

/-- **No wake-up is lost.**  In every interleaving of the broker's calls and the watch loops, a
`Publish` that has returned has been heard by every stream of its tenant that had subscribed before
it; no `Publish` ever blocks; and no call changes what belongs to another stream. -/
theorem no_wakeup_lost {es : List Event} {s : State} {tr : List Moment}
    (h : calls.Run initial es s tr) :
    (∀ tr₁ tr₂ p w t ch, tr = tr₁ ++ .locked p t :: tr₂ → .subscribed w t ch ∈ tr₁ →
      .published p t ∈ tr₂ → Heard s w p ch tr₂) ∧
    (∀ i, Unblocked s i) ∧
    ∀ e s' as w, calls.step s e = some (s', as) → Spares s e s' w := by
  obtain ⟨hmu, hreg, hwakes, htold⟩ := calls_invariant h
  refine ⟨?_, publish_unblocked hmu, ?_⟩
  · intro tr₁ tr₂ p w t ch heq hsubscribed hpublished
    have hbefore : .subscribed w t ch ∈ tr := by
      rw [heq]
      exact List.mem_append_left _ hsubscribed
    have hreturned : s.threads[p]? = some .returned := by
      refine htold.published p t ?_
      rw [heq]
      exact List.mem_append_right _ (List.mem_cons_of_mem _ hpublished)
    rcases htold.visited tr₁ tr₂ p w t ch heq hsubscribed with hended | ⟨rest, hp, -⟩ | hsig
    · exact .inl hended
    · rw [hreturned] at hp
      cases hp
    · obtain ⟨before, after, rfl⟩ := List.append_of_mem hsig
      obtain ⟨g, hw, hended | ⟨sub, hsub, -, rfl⟩⟩ := htold.subscribed w t ch hbefore
      · exact .inl ⟨g, hw, hended⟩
      · refine .inr ⟨before, after, rfl, ?_⟩
        by_cases hread : .read w ∈ after
        · exact .inl hread
        · -- the visit is not followed by a read
          have hunread : Unread w sub.ch tr := by
            refine ⟨tr₁ ++ .locked p t :: before, .signalled p sub.ch, after, by simp [heq],
              ⟨p, rfl⟩, fun m hm => ⟨id, ?_⟩⟩
            rintro rfl
            exact hread hm
          rcases hwakes w g sub hw hsub hunread with hfull | rfl
          · exact .inr (.inr hfull)
          · exact .inr (.inl ⟨sub, hw, rfl⟩)
  · intro e s' as w hstep
    exact frame_of_step hreg (step_of_calls hstep) w

/-- The connections of a tenant change while a stream reads them: it is woken again. -/
theorem change_during_read_heard : ∃ s tr,
    calls.Run initial
      [.call (.watchConnections "acme"), .turn 0 .lock, .turn 0 .unlock, .turn 0 .read,
        .call (.publish "acme"), .turn 1 .lock, .turn 1 (.send 0), .turn 1 .unlock,
        .turn 0 (.sent true)] s tr ∧
    Heard s 0 1 0 [.signalled 1 0, .published 1 "acme"] := by
  have hexec : (calls.exec (fun _ _ _ => true) initial []
      [.call (.watchConnections "acme"), .turn 0 .lock, .turn 0 .unlock, .turn 0 .read,
        .call (.publish "acme"), .turn 1 .lock, .turn 1 (.send 0), .turn 1 .unlock,
        .turn 0 (.sent true)]).map Prod.snd =
      some [.subscribed 0 "acme" 0, .read 0, .locked 1 "acme", .signalled 1 0,
        .published 1 "acme"] := rfl
  obtain ⟨s, hrun⟩ := Lts.exists_run hexec
  refine ⟨s, _, hrun, ?_⟩
  exact (no_wakeup_lost hrun).1 [.subscribed 0 "acme" 0, .read 0] _ 1 0 "acme" 0 rfl
    (by decide) (by decide)

end Events
end Hivebook
