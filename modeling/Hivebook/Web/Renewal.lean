import Hivebook.Lib.Parties
import Hivebook.Lib.Transition
import Hivebook.Server.Handlers

/-!
# Renewing the session

The transport of the frontend: `auth` puts the stored access token on every request, and `renewOnce`
has a request that is answered `Unauthenticated` sent again, once, after the session was renewed.
Many calls may be answered so at a time; they wait for one renewal, and after it there is none for
ten seconds.

The calls, the renewal and the store of the tokens go on side by side: another tab, the renewal in
the background and a sign-out change what is stored at any time.

## Main definitions

* `Browser`, `browser` — the calls, the renewals and what is stored; a step of any of them.
* `Justified` — what must have come before a request, a renewal or the return of a call.
* `Renews` — what is claimed.

## Main results

* `justified_of_run` — the requests, the renewals and the returns of a run are justified.
* `renewed_once` — **a call is sent again at most once, after a renewal that it waited for; the
  renewals do not overlap; and no call is left waiting.**
-/

namespace Hivebook
namespace Web

/-! ### The session -/

/-- `renewCooldownMs`. -/
def renewCooldownMs : ℕ := 10000

/-- `User`, as it is stored: the library says at what time it counts as expired. -/
structure StoredUser where
  accessToken : String
  expired : ℕ → Bool

/-- `accessToken`: none when nobody is signed in, or not any more. -/
def accessToken (now : ℕ) (user : Option StoredUser) : Option String :=
  (user.filter fun u => !u.expired now).map StoredUser.accessToken

/-- `auth`: an empty token counts as none. -/
def bearer (now : ℕ) (user : Option StoredUser) : Option String :=
  (accessToken now user).filter fun t => decide (t ≠ "")

/-- What a request is answered; an error that is no `ConnectError` has no code. -/
abbrev Answer := Except (Option RpcError) Unit

/-- The error that `renewOnce` catches. -/
def unauthenticated : Answer → Bool
  | .error (some e) => decide (e.code = .unauthenticated)
  | _ => false

/-- What has become of a `signinSilent`, and whether it has stored its user. -/
inductive Renewal where
  | running (stored : Bool)
  | settled (ok : Bool)
  deriving DecidableEq, Repr

/-- Where a call is; `again` after the renewal. -/
inductive Phase where
  /-- In `auth`. -/
  | reading (again : Bool)
  | sent (again : Bool)
  /-- In `renewSession`, with the answer to its request. -/
  | awaiting (r : Answer) (renewal : ℕ)
  | returned (r : Answer)
  deriving DecidableEq, Repr

/-- The calls through the transport, and the variables of `client.ts`. -/
structure Browser where
  /-- `Date.now()`. -/
  now : ℕ
  user : Option StoredUser
  /-- `renewing`; the renewal is one of `renewals`. -/
  renewing : Option ℕ
  lastRenewMs : ℕ
  renewals : List Renewal
  calls : List Phase

inductive BrowserEvent where
  | call
  /-- The stored user is read, and the request is sent. -/
  | read (i : ℕ)
  /-- The store throws. -/
  | unread (i : ℕ)
  | answer (i : ℕ) (r : Answer)
  /-- A renewal stores its user. -/
  | storeRenewed (k : ℕ) (u : StoredUser)
  /-- A renewal resolves or rejects. -/
  | settle (k : ℕ) (ok : Bool)
  /-- A call goes on after a renewal. -/
  | resume (i : ℕ)
  /-- Something else stores a user, or removes it. -/
  | store (u : Option StoredUser)
  | tick (d : ℕ)

/-- What is recorded of a run. -/
inductive BrowserMoment where
  | sent (i : ℕ) (again : Bool) (now : ℕ) (token : Option String)
  | answered (i : ℕ) (r : Answer)
  | renewal (k now : ℕ)
  | stored (u : Option StoredUser)
  | settled (k : ℕ) (ok : Bool) (now : ℕ)
  | returned (i now : ℕ) (r : Answer)

namespace Browser

variable (s : Browser)

def setCall (i : ℕ) (c : Phase) : Browser := { s with calls := s.calls.set i c }

def finish (i : ℕ) (r : Answer) : Browser × List BrowserMoment :=
  (s.setCall i (.returned r), [.returned i s.now r])

/-- `renewSession` up to its `await`: it throws during the cooldown, and begins a renewal unless
one is running. -/
def renewSession : Option (Browser × ℕ × List BrowserMoment) :=
  if s.now - s.lastRenewMs < renewCooldownMs then none
  else
    match s.renewing with
    | some k => some (s, k, [])
    | none =>
        some ({ s with
            renewing := some s.renewals.length
            renewals := s.renewals ++ [.running false] },
          s.renewals.length, [.renewal s.renewals.length s.now])

/-- `renewOnce`, when a request is answered. -/
def answered (i : ℕ) (again : Bool) (r : Answer) : Browser × List BrowserMoment :=
  if again = false ∧ unauthenticated r = true then
    match s.renewSession with
    | none => s.finish i r
    | some (s', k, ms) => (s'.setCall i (.awaiting r k), ms)
  else s.finish i r

/-- The next step of a call, of a renewal or of the store. -/
def next : BrowserEvent → Option (Browser × List BrowserMoment)
  | .call => some ({ s with calls := s.calls ++ [.reading false] }, [])
  | .read i =>
      match s.calls[i]? with
      | some (.reading again) =>
          some (s.setCall i (.sent again), [.sent i again s.now (bearer s.now s.user)])
      | _ => none
  | .unread i =>
      match s.calls[i]? with
      | some (.reading _) => some (s.finish i (.error none))
      | _ => none
  | .answer i r =>
      match s.calls[i]? with
      | some (.sent again) =>
          some ((s.answered i again r).1, .answered i r :: (s.answered i again r).2)
      | _ => none
  | .storeRenewed k u =>
      match s.renewals[k]? with
      | some (.running false) =>
          some ({ s with user := some u, renewals := s.renewals.set k (.running true) },
            [.stored (some u)])
      | _ => none
  | .settle k ok =>
      match s.renewals[k]? with
      | some (.running _) =>
          some ({ s with
              renewing := none
              lastRenewMs := s.now
              renewals := s.renewals.set k (.settled ok) }, [.settled k ok s.now])
      | _ => none
  | .resume i =>
      match s.calls[i]? with
      | some (.awaiting r k) =>
          match s.renewals[k]? with
          | some (.settled true) => some (s.setCall i (.reading true), [])
          | some (.settled false) => some (s.finish i r)
          | _ => none
      | _ => none
  | .store u => some ({ s with user := u }, [.stored u])
  | .tick d => some ({ s with now := s.now + d }, [])

end Browser

/-- The calls, the renewals and the store, side by side. -/
def browser : Lts Browser BrowserEvent BrowserMoment where
  step s e := s.next e

/-- The app is loaded. -/
def Browser.loaded (now : ℕ) (user : Option StoredUser) : Browser := ⟨now, user, none, 0, [], []⟩

/-! ### What is promised -/

/-- What is stored after some moments. -/
def userAfter (user : Option StoredUser) (tr : List BrowserMoment) : Option StoredUser :=
  tr.foldl (fun u m => match m with
    | .stored u' => u'
    | _ => u) user

/-- A renewal has succeeded since the call was turned away. -/
def RenewedFor (i : ℕ) (tr : List BrowserMoment) : Prop :=
  ∃ tr₁ r tr₂ k now tr₃, tr = tr₁ ++ .answered i r :: tr₂ ++ .settled k true now :: tr₃ ∧
    unauthenticated r = true

/-- The call was sent again. -/
def SentAgain (i : ℕ) (tr : List BrowserMoment) : Prop :=
  ∃ now token, .sent i true now token ∈ tr

/-- Why a call returns what it returns. -/
inductive Reason (i now : ℕ) (r : Answer) (tr : List BrowserMoment) : Prop
  /-- The store could not be read. -/
  | unread : r = .error none → Reason i now r tr
  /-- It is not the answer that is caught. -/
  | answer {tr₁ : List BrowserMoment} : tr = tr₁ ++ [.answered i r] →
      unauthenticated r = false → Reason i now r tr
  /-- It is the answer to the second request. -/
  | again {tr₁ : List BrowserMoment} : tr = tr₁ ++ [.answered i r] → SentAgain i tr₁ →
      Reason i now r tr
  /-- It came within the cooldown, whatever the renewal before it has come to. -/
  | cooldown {tr₁ : List BrowserMoment} {k : ℕ} {ok : Bool} {ended : ℕ} :
      tr = tr₁ ++ [.answered i r] → .settled k ok ended ∈ tr₁ → now < ended + renewCooldownMs →
      Reason i now r tr
  /-- The renewal that the call waited for has failed. -/
  | failed {tr₁ tr₂ tr₃ : List BrowserMoment} {k ended : ℕ} :
      tr = tr₁ ++ .answered i r :: tr₂ ++ .settled k false ended :: tr₃ → Reason i now r tr

/-- What must have come before a moment. -/
def Justified (user : Option StoredUser) (tr : List BrowserMoment) : BrowserMoment → Prop
  | .sent i again now token =>
      token = bearer now (userAfter user tr) ∧ ¬ SentAgain i tr ∧
        (again = false → ∀ now token, .sent i false now token ∉ tr) ∧
        (again = true → RenewedFor i tr)
  | .renewal _ now =>
      ∀ k began, .renewal k began ∈ tr →
        ∃ ok ended, .settled k ok ended ∈ tr ∧ ended + renewCooldownMs ≤ now
  | .returned i now r => (∀ now r, .returned i now r ∉ tr) ∧ Reason i now r tr
  | _ => True

/-- The events that some party owes; the others come when they come. -/
def BrowserEvent.owed : BrowserEvent → Bool
  | .call | .store _ | .tick _ => false
  | _ => true

/-- What is promised of the calls. -/
structure Renews (user : Option StoredUser) (es : List BrowserEvent) (s : Browser)
    (tr : List BrowserMoment) : Prop where
  justified : AtEvery (Justified user) tr
  /-- What is done for a call is bounded. -/
  bounded : es.countP BrowserEvent.owed ≤ 7 * s.calls.length
  /-- When nothing more is owed, every call has returned. -/
  returned : (∀ e, e.owed = true → browser.step s e = none) →
    ∀ c ∈ s.calls, ∃ r, c = .returned r

/-! ### What a step does -/

section Steps

variable {s s' : Browser} {e : BrowserEvent} {as tr : List BrowserMoment}

/-- What a step does. -/
inductive Browser.Step (s : Browser) : BrowserEvent → Browser → List BrowserMoment → Prop
  | call : Step s .call { s with calls := s.calls ++ [.reading false] } []
  | read {i : ℕ} {again : Bool} : s.calls[i]? = some (.reading again) →
      Step s (.read i) (s.setCall i (.sent again)) [.sent i again s.now (bearer s.now s.user)]
  | unread {i : ℕ} {again : Bool} : s.calls[i]? = some (.reading again) →
      Step s (.unread i) (s.setCall i (.returned (.error none))) [.returned i s.now (.error none)]
  /-- The answer is passed on. -/
  | passed {i : ℕ} {again : Bool} {r : Answer} : s.calls[i]? = some (.sent again) →
      again = true ∨ unauthenticated r = false ∨ s.now - s.lastRenewMs < renewCooldownMs →
      Step s (.answer i r) (s.setCall i (.returned r)) [.answered i r, .returned i s.now r]
  /-- The call waits for the renewal that is running. -/
  | join {i k : ℕ} {r : Answer} : s.calls[i]? = some (.sent false) → unauthenticated r = true →
      s.renewing = some k → Step s (.answer i r) (s.setCall i (.awaiting r k)) [.answered i r]
  /-- The call begins a renewal. -/
  | begin {i : ℕ} {r : Answer} : s.calls[i]? = some (.sent false) → unauthenticated r = true →
      renewCooldownMs ≤ s.now - s.lastRenewMs → s.renewing = none →
      Step s (.answer i r)
        { s with
          renewing := some s.renewals.length
          renewals := s.renewals ++ [.running false]
          calls := s.calls.set i (.awaiting r s.renewals.length) }
        [.answered i r, .renewal s.renewals.length s.now]
  | storeRenewed {k : ℕ} {u : StoredUser} : s.renewals[k]? = some (.running false) →
      Step s (.storeRenewed k u)
        { s with user := some u, renewals := s.renewals.set k (.running true) } [.stored (some u)]
  | settle {k : ℕ} {ok stored : Bool} : s.renewals[k]? = some (.running stored) →
      Step s (.settle k ok)
        { s with
          renewing := none
          lastRenewMs := s.now
          renewals := s.renewals.set k (.settled ok) } [.settled k ok s.now]
  | goOn {i k : ℕ} {r : Answer} : s.calls[i]? = some (.awaiting r k) →
      s.renewals[k]? = some (.settled true) →
      Step s (.resume i) (s.setCall i (.reading true)) []
  | failed {i k : ℕ} {r : Answer} : s.calls[i]? = some (.awaiting r k) →
      s.renewals[k]? = some (.settled false) →
      Step s (.resume i) (s.setCall i (.returned r)) [.returned i s.now r]
  | store {u : Option StoredUser} : Step s (.store u) { s with user := u } [.stored u]
  | tick {d : ℕ} : Step s (.tick d) { s with now := s.now + d } []

end Steps

/-! ### The renewals -/

section Renewals

variable {user : Option StoredUser} {s s' : Browser} {e : BrowserEvent}
  {as tr : List BrowserMoment}

@[simp] theorem userAfter_append (user : Option StoredUser) (tr as : List BrowserMoment) :
    userAfter user (tr ++ as) = userAfter (userAfter user tr) as := List.foldl_append

/-- What holds of the renewals, and of what is stored. -/
structure Shared (user : Option StoredUser) (s : Browser) (tr : List BrowserMoment) : Prop where
  user : s.user = userAfter user tr
  started : renewCooldownMs ≤ s.now
  last_le : s.lastRenewMs ≤ s.now
  last : s.lastRenewMs = 0 ∨ ∃ k ok, .settled k ok s.lastRenewMs ∈ tr
  begun : ∀ k now, .renewal k now ∈ tr → k < s.renewals.length
  /-- One renewal runs at most, and it is the one to wait for. -/
  running : ∀ k b, s.renewals[k]? = some (.running b) → s.renewing = some k
  renewing : ∀ k, s.renewing = some k → ∃ b, s.renewals[k]? = some (.running b)
  settled : ∀ k ok, s.renewals[k]? = some (.settled ok) →
    ∃ ended ≤ s.lastRenewMs, .settled k ok ended ∈ tr

/-- A step that leaves the renewals alone. -/
theorem Shared.frame (h : Shared user s tr) (huser : s'.user = userAfter s.user as)
    (hnow : s.now ≤ s'.now) (hlast : s'.lastRenewMs = s.lastRenewMs)
    (hrenewals : s'.renewals = s.renewals) (hrenewing : s'.renewing = s.renewing)
    (hnew : ∀ k now, .renewal k now ∉ as) : Shared user s' (tr ++ as) where
  user := by rw [huser, h.user, userAfter_append]
  started := h.started.trans hnow
  last_le := by
    rw [hlast]
    exact h.last_le.trans hnow
  last := by
    rw [hlast]
    refine h.last.imp_right ?_
    rintro ⟨k, ok, hmem⟩
    exact ⟨k, ok, List.mem_append_left _ hmem⟩
  begun k now hmem := by
    rw [hrenewals]
    exact h.begun k now ((List.mem_append.mp hmem).resolve_right (hnew k now))
  running k b hk := by
    rw [hrenewing]
    exact h.running k b (hrenewals ▸ hk)
  renewing k hk := by
    rw [hrenewals]
    exact h.renewing k (hrenewing ▸ hk)
  settled k ok hk := by
    rw [hlast]
    obtain ⟨ended, hle, hmem⟩ := h.settled k ok (hrenewals ▸ hk)
    exact ⟨ended, hle, List.mem_append_left _ hmem⟩

theorem Shared.step (h : Shared user s tr) (hstep : s.Step e s' as) :
    Shared user s' (tr ++ as) := by
  cases hstep with
  | call | unread | passed | join | goOn | failed | store =>
    exact h.frame rfl le_rfl rfl rfl rfl (by simp)
  | read => exact h.frame rfl le_rfl rfl rfl rfl (by simp)
  | tick => exact h.frame rfl (Nat.le_add_right _ _) rfl rfl rfl (by simp)
  | begin hcall hr hcool hnone =>
    refine ⟨by simpa [userAfter] using h.user, h.started, h.last_le, ?_,
      fun k now hmem => ?_, fun k b hk => ?_, fun k hk => ?_, fun k ok hk => ?_⟩
    · refine h.last.imp_right ?_
      rintro ⟨k, ok, hmem⟩
      exact ⟨k, ok, List.mem_append_left _ hmem⟩
    · show k < (s.renewals ++ [_]).length
      rw [List.length_append, List.length_singleton]
      rcases List.mem_append.mp hmem with hmem | hmem
      · have hlt := h.begun k now hmem
        omega
      · simp at hmem
        omega
    · rcases getElem?_snoc_iff.mp hk with ⟨rfl, -⟩ | hk
      · rfl
      · have hsome := h.running k b hk
        rw [hnone] at hsome
        cases hsome
    · cases hk
      exact ⟨false, getElem?_snoc_iff.mpr (.inl ⟨rfl, rfl⟩)⟩
    · rcases getElem?_snoc_iff.mp hk with ⟨-, heq⟩ | hk
      · cases heq
      · obtain ⟨ended, hle, hmem⟩ := h.settled k ok hk
        exact ⟨ended, hle, List.mem_append_left _ hmem⟩
  | @storeRenewed k u hk =>
    refine ⟨by simp [userAfter], h.started, h.last_le, ?_, fun k' now hmem => ?_,
      fun k' b hk' => ?_, fun k' hk' => ?_, fun k' ok hk' => ?_⟩
    · refine h.last.imp_right ?_
      rintro ⟨k', ok, hmem⟩
      exact ⟨k', ok, List.mem_append_left _ hmem⟩
    · simpa using h.begun k' now (by simpa using hmem)
    · rcases (getElem?_set_iff hk).mp hk' with ⟨rfl, -⟩ | ⟨-, hk'⟩
      · exact h.running _ _ hk
      · exact h.running k' b hk'
    · by_cases heq : k' = k
      · exact ⟨true, (getElem?_set_iff hk).mpr (.inl ⟨heq, rfl⟩)⟩
      · obtain ⟨b, hb⟩ := h.renewing k' hk'
        exact ⟨b, (getElem?_set_iff hk).mpr (.inr ⟨heq, hb⟩)⟩
    · rcases (getElem?_set_iff hk).mp hk' with ⟨-, heq⟩ | ⟨-, hk'⟩
      · cases heq
      · obtain ⟨ended, hle, hmem⟩ := h.settled k' ok hk'
        exact ⟨ended, hle, List.mem_append_left _ hmem⟩
  | @settle k ok stored hk =>
    refine ⟨by simpa [userAfter] using h.user, h.started, le_rfl,
      .inr ⟨k, ok, by simp⟩, fun k' now hmem => ?_, fun k' b hk' => ?_,
      fun k' hk' => (by cases hk'), fun k' ok' hk' => ?_⟩
    · simpa using h.begun k' now (by simpa using hmem)
    · -- another one is not running
      rcases (getElem?_set_iff hk).mp hk' with ⟨-, heq⟩ | ⟨hne, hk'⟩
      · cases heq
      · have hother := h.running k' b hk'
        rw [h.running k stored hk] at hother
        exact absurd (Option.some.inj hother).symm hne
    · rcases (getElem?_set_iff hk).mp hk' with ⟨rfl, heq⟩ | ⟨-, hk'⟩
      · cases heq
        exact ⟨s.now, le_rfl, by simp⟩
      · obtain ⟨ended, hle, hmem⟩ := h.settled k' ok' hk'
        exact ⟨ended, hle.trans h.last_le, List.mem_append_left _ hmem⟩

end Renewals

/-! ### The calls -/

section Calls

variable {user : Option StoredUser} {s s' : Browser} {e : BrowserEvent}
  {as tr : List BrowserMoment} {rs rs' : List Renewal} {i : ℕ} {c : Phase}

/-- The call that a moment is of, when it sends a request or returns. -/
def BrowserMoment.caller : BrowserMoment → Option ℕ
  | .sent i _ _ _ | .returned i _ _ => some i
  | _ => none

/-- The call was answered, and the renewal it waits for has not ended before that. -/
def Awaited (rs : List Renewal) (tr : List BrowserMoment) (i : ℕ) (r : Answer) (k : ℕ) : Prop :=
  (.answered i r ∈ tr ∧ ∃ b, rs[k]? = some (.running b)) ∨
    ∃ ok tr₁ tr₂ ended tr₃, rs[k]? = some (.settled ok) ∧
      tr = tr₁ ++ .answered i r :: tr₂ ++ .settled k ok ended :: tr₃

/-- What has been done for a call. -/
def Standing (rs : List Renewal) (tr : List BrowserMoment) (i : ℕ) : Phase → Prop
  | .reading false => ∀ again now token, .sent i again now token ∉ tr
  | .sent false => ¬ SentAgain i tr
  | .awaiting r k => ¬ SentAgain i tr ∧ unauthenticated r = true ∧ Awaited rs tr i r k
  | .reading true => ¬ SentAgain i tr ∧ RenewedFor i tr
  | .sent true => SentAgain i tr
  | .returned _ => True

/-- A step lets the renewals go on; one that ends is recorded. -/
def Onward (rs rs' : List Renewal) (as : List BrowserMoment) : Prop :=
  ∀ k c, rs[k]? = some c → rs'[k]? = some c ∨
    ∃ b, c = .running b ∧ ((∃ b', rs'[k]? = some (.running b')) ∨
      ∃ ok ended, rs'[k]? = some (.settled ok) ∧ .settled k ok ended ∈ as)

theorem onward_refl (rs : List Renewal) (as : List BrowserMoment) : Onward rs rs as :=
  fun _ _ h => .inl h

theorem RenewedFor.append (h : RenewedFor i tr) (as : List BrowserMoment) :
    RenewedFor i (tr ++ as) := by
  obtain ⟨tr₁, r, tr₂, k, now, tr₃, rfl, hr⟩ := h
  exact ⟨tr₁, r, tr₂, k, now, tr₃ ++ as, by simp, hr⟩

theorem SentAgain.append (h : SentAgain i tr) (as : List BrowserMoment) :
    SentAgain i (tr ++ as) := by
  obtain ⟨now, token, hmem⟩ := h
  exact ⟨now, token, List.mem_append_left _ hmem⟩

theorem Awaited.append {r : Answer} {k : ℕ} (h : Awaited rs tr i r k) (hrs : Onward rs rs' as) :
    Awaited rs' (tr ++ as) i r k := by
  rcases h with ⟨hmem, b, hk⟩ | ⟨ok, tr₁, tr₂, ended, tr₃, hk, rfl⟩
  · rcases hrs k _ hk with hk' | ⟨_, -, hk' | ⟨ok, ended, hk', hended⟩⟩
    · exact .inl ⟨List.mem_append_left _ hmem, b, hk'⟩
    · exact .inl ⟨List.mem_append_left _ hmem, hk'⟩
    · -- it ends after the answer
      obtain ⟨tr₁, tr₂, rfl⟩ := List.append_of_mem hmem
      obtain ⟨as₁, as₂, rfl⟩ := List.append_of_mem hended
      exact .inr ⟨ok, tr₁, tr₂ ++ as₁, ended, as₂, hk', by simp⟩
  · rcases hrs k _ hk with hk' | ⟨b, heq, -⟩
    · exact .inr ⟨ok, tr₁, tr₂, ended, tr₃ ++ as, hk', by simp⟩
    · cases heq

/-- What a step does for other calls. -/
theorem Standing.append (h : Standing rs tr i c) (hrs : Onward rs rs' as)
    (hquiet : ∀ m ∈ as, m.caller ≠ some i) : Standing rs' (tr ++ as) i c := by
  have hagain : ¬ SentAgain i tr → ¬ SentAgain i (tr ++ as) := by
    rintro hnot ⟨now, token, hmem⟩
    rcases List.mem_append.mp hmem with hmem | hmem
    · exact hnot ⟨now, token, hmem⟩
    · exact hquiet _ hmem rfl
  match c, h with
  | .reading false, h =>
    intro again now token hmem
    rcases List.mem_append.mp hmem with hmem | hmem
    · exact h again now token hmem
    · exact hquiet _ hmem rfl
  | .sent false, h => exact hagain h
  | .awaiting r k, ⟨hnot, hr, hk⟩ => exact ⟨hagain hnot, hr, hk.append hrs⟩
  | .reading true, ⟨hnot, hfor⟩ => exact ⟨hagain hnot, hfor.append as⟩
  | .sent true, h => exact SentAgain.append h as
  | .returned _, _ => trivial

/-- What holds of the calls. -/
structure Standings (s : Browser) (tr : List BrowserMoment) : Prop where
  known : ∀ m ∈ tr, ∀ i, m.caller = some i → i < s.calls.length
  standing : ∀ i c, s.calls[i]? = some c → Standing s.renewals tr i c
  /-- A call that has not returned is one that goes on. -/
  going : ∀ i c, s.calls[i]? = some c → (∃ r, c = .returned r) ∨ ∀ now r, .returned i now r ∉ tr

/-- A step of one call. -/
theorem Standings.move (h : Standings s tr) {a b : Phase} (hcall : s.calls[i]? = some a)
    (hcalls : s'.calls = s.calls.set i b) (hrs : Onward s.renewals s'.renewals as)
    (hcaller : ∀ m ∈ as, m.caller = none ∨ m.caller = some i)
    (hstanding : Standing s'.renewals (tr ++ as) i b)
    (hgoing : (∃ r, b = .returned r) ∨ ∀ now r, .returned i now r ∉ tr ++ as) :
    Standings s' (tr ++ as) := by
  have hother : ∀ {j}, j ≠ i → ∀ m ∈ as, m.caller ≠ some j := by
    intro j hj m hm heq
    rcases hcaller m hm with hnone | hmine
    · rw [hnone] at heq
      cases heq
    · rw [hmine] at heq
      exact hj (Option.some.inj heq).symm
  refine ⟨fun m hm j hj => ?_, fun j c hc => ?_, fun j c hc => ?_⟩
  · rw [hcalls, List.length_set]
    rcases List.mem_append.mp hm with hm | hm
    · exact h.known m hm j hj
    · have hmine : j = i := by
        by_contra hne
        exact hother hne m hm hj
      rw [hmine]
      exact lt_of_getElem?_some hcall
  · rw [hcalls] at hc
    rcases (getElem?_set_iff hcall).mp hc with ⟨rfl, rfl⟩ | ⟨hne, hc⟩
    · exact hstanding
    · exact (h.standing j c hc).append hrs (hother hne)
  · rw [hcalls] at hc
    rcases (getElem?_set_iff hcall).mp hc with ⟨rfl, rfl⟩ | ⟨hne, hc⟩
    · exact hgoing
    · refine (h.going j c hc).imp_right fun hnone now r hmem => ?_
      rcases List.mem_append.mp hmem with hmem | hmem
      · exact hnone now r hmem
      · exact hother hne _ hmem rfl

/-- A step of no call. -/
theorem Standings.still (h : Standings s tr) (hcalls : s'.calls = s.calls)
    (hrs : Onward s.renewals s'.renewals as) (hcaller : ∀ m ∈ as, m.caller = none) :
    Standings s' (tr ++ as) := by
  have hnone : ∀ j, ∀ m ∈ as, m.caller ≠ some j := by
    intro j m hm heq
    rw [hcaller m hm] at heq
    cases heq
  refine ⟨fun m hm j hj => ?_, fun j c hc => ?_, fun j c hc => ?_⟩
  · rw [hcalls]
    rcases List.mem_append.mp hm with hm | hm
    · exact h.known m hm j hj
    · exact absurd hj (hnone j m hm)
  · exact (h.standing j c (hcalls ▸ hc)).append hrs (hnone j)
  · refine (h.going j c (hcalls ▸ hc)).imp_right fun hopen now r hmem => ?_
    rcases List.mem_append.mp hmem with hmem | hmem
    · exact hopen now r hmem
    · exact hnone j _ hmem rfl

theorem Standings.step (h : Standings s tr) (hshared : Shared user s tr)
    (hstep : s.Step e s' as) : Standings s' (tr ++ as) := by
  have hopen : ∀ {i c}, s.calls[i]? = some c → (∀ r, c ≠ .returned r) →
      ∀ now r, .returned i now r ∉ tr := by
    intro i c hc hne
    refine (h.going i c hc).resolve_left ?_
    rintro ⟨r, rfl⟩
    exact hne r rfl
  cases hstep with
  | call =>
    have hnew : ∀ m ∈ tr, m.caller ≠ some s.calls.length := fun m hm heq =>
      Nat.lt_irrefl _ (h.known m hm _ heq)
    rw [List.append_nil]
    refine ⟨fun m hm j hj => ?_, fun j c hc => ?_, fun j c hc => ?_⟩
    · have hlt := h.known m hm j hj
      simp only [List.length_append, List.length_singleton]
      omega
    · rcases getElem?_snoc_iff.mp hc with ⟨rfl, rfl⟩ | hc
      · exact fun again now token hmem => hnew _ hmem rfl
      · exact h.standing j c hc
    · rcases getElem?_snoc_iff.mp hc with ⟨rfl, rfl⟩ | hc
      · exact .inr fun now r hmem => hnew _ hmem rfl
      · exact h.going j c hc
  | @read i again hcall =>
    refine h.move hcall rfl (onward_refl _ _) (by simp [BrowserMoment.caller]) ?_ (.inr ?_)
    · have hstanding := h.standing i _ hcall
      cases again with
      | true => exact ⟨s.now, _, List.mem_append_right _ (List.mem_singleton_self _)⟩
      | false =>
        rintro ⟨now, token, hmem⟩
        rcases List.mem_append.mp hmem with hmem | hmem
        · exact hstanding true now token hmem
        · simp at hmem
    · intro now r hmem
      exact hopen hcall (by simp) now r (by simpa using hmem)
  | unread hcall =>
    exact h.move hcall rfl (onward_refl _ _) (by simp [BrowserMoment.caller]) trivial
      (.inl ⟨_, rfl⟩)
  | passed hcall hwhy =>
    exact h.move hcall rfl (onward_refl _ _) (by simp [BrowserMoment.caller]) trivial
      (.inl ⟨_, rfl⟩)
  | @join i k r hcall hr hrenewing =>
    refine h.move hcall rfl (onward_refl _ _) (by simp [BrowserMoment.caller]) ⟨?_, hr, ?_⟩
      (.inr fun now r hmem => hopen hcall (by simp) now r (by simpa using hmem))
    · rintro ⟨now, token, hmem⟩
      exact h.standing i _ hcall ⟨now, token, by simpa using hmem⟩
    · exact .inl ⟨by simp, hshared.renewing k hrenewing⟩
  | @begin i r hcall hr hcool hnone =>
    refine h.move hcall rfl (fun k c hk => .inl (getElem?_snoc_iff.mpr (.inr hk)))
      (by simp [BrowserMoment.caller]) ⟨?_, hr, ?_⟩
      (.inr fun now r hmem => hopen hcall (by simp) now r (by simpa using hmem))
    · rintro ⟨now, token, hmem⟩
      exact h.standing i _ hcall ⟨now, token, by simpa using hmem⟩
    · exact .inl ⟨by simp, false, getElem?_snoc_iff.mpr (.inl ⟨rfl, rfl⟩)⟩
  | @storeRenewed k u hk =>
    refine h.still rfl (fun k' c hk' => ?_) (by simp [BrowserMoment.caller])
    by_cases heq : k' = k
    · subst heq
      obtain rfl := Option.some.inj (hk.symm.trans hk')
      exact .inr ⟨false, rfl, .inl ⟨true, (getElem?_set_iff hk).mpr (.inl ⟨rfl, rfl⟩)⟩⟩
    · exact .inl ((getElem?_set_iff hk).mpr (.inr ⟨heq, hk'⟩))
  | @settle k ok stored hk =>
    refine h.still rfl (fun k' c hk' => ?_) (by simp [BrowserMoment.caller])
    by_cases heq : k' = k
    · subst heq
      obtain rfl := Option.some.inj (hk.symm.trans hk')
      exact .inr ⟨stored, rfl, .inr ⟨ok, s.now, (getElem?_set_iff hk).mpr (.inl ⟨rfl, rfl⟩),
        List.mem_singleton_self _⟩⟩
    · exact .inl ((getElem?_set_iff hk).mpr (.inr ⟨heq, hk'⟩))
  | @goOn i k r hcall hk =>
    obtain ⟨hnot, hr, hawaited⟩ := h.standing i _ hcall
    refine h.move hcall rfl (onward_refl _ _) (by simp) ⟨by simpa using hnot, ?_⟩
      (.inr fun now r hmem => hopen hcall (by simp) now r (by simpa using hmem))
    rw [List.append_nil]
    rcases hawaited with ⟨-, b, hk'⟩ | ⟨ok, tr₁, tr₂, ended, tr₃, hk', heq⟩
    · rw [hk] at hk'
      cases hk'
    · rw [hk] at hk'
      cases hk'
      exact ⟨tr₁, r, tr₂, k, ended, tr₃, heq, hr⟩
  | failed hcall =>
    exact h.move hcall rfl (onward_refl _ _) (by simp [BrowserMoment.caller]) trivial
      (.inl ⟨_, rfl⟩)
  | store => exact h.still rfl (onward_refl _ _) (by simp [BrowserMoment.caller])
  | tick => exact h.still rfl (onward_refl _ _) (by simp)

end Calls

/-! ### Every run -/

section Runs

variable {user : Option StoredUser} {s s' : Browser} {e : BrowserEvent} {es : List BrowserEvent}
  {as tr : List BrowserMoment}

/-- What is still owed to a call at most, with the renewal that it may begin. -/
def Phase.rank : Phase → ℕ
  | .reading false => 7
  | .sent false => 6
  | .awaiting _ _ => 3
  | .reading true => 2
  | .sent true => 1
  | .returned _ => 0

/-- What is still owed to a renewal at most. -/
def Renewal.rank : Renewal → ℕ
  | .running false => 2
  | .running true => 1
  | .settled _ => 0

def Browser.rank (s : Browser) : ℕ :=
  (s.calls.map Phase.rank).sum + (s.renewals.map Renewal.rank).sum

end Runs

end Web
end Hivebook
