import Hivebook.Api.IdentityCache
import Hivebook.Lib.Threads

/-!
# The caller of a request

`Authenticate` of `internal/auth/auth.go`: the bearer token of a request is verified, and the
identity of its caller put together from the claims of the token and, where they have gaps, from
the userinfo endpoint.  The identity names the organization that owns the caller, and with it the
tenant that every handler works for.  It is cached under the subject of the token, so what a
request is given may have been put together by another one.

The verifier and the userinfo endpoint are not part of the repository: what they answer is a choice
of the environment.  The token is a parameter of both, and a token that is verified once need not
be verified again.

## Main definitions

* `authenticate`, `resolveIdentity` — the program of a request.
* `Gate`, `gate` — the cache and the progress of `discover`, and what a command does to them.
* `Vouched` — a request has put an identity together from a token it had verified.
* `Admitted` — what is promised of a request that is let through.

## Main results

* `authenticate_follows` — what a request has seen when it caches or returns an identity.
* `admitted_of_ok` — **nobody is let through without a token of his own, or in the place of another
  user, or as a member of no organization.**
-/

namespace Hivebook
namespace Api

open Machine

/-! ### Claims -/

/-- The value of a claim. -/
inductive Claim where
  | string (v : String)
  /-- A number, a list, an object. -/
  | other
  deriving DecidableEq, Repr

/-- `map[string]any`. -/
abbrev Claims := String → Option Claim

def strClaim (m : Claims) (key : String) : String :=
  match m key with
  | some (.string v) => v
  | _ => ""

def orgFromClaims (m : Claims) : String :=
  ((["urn:zitadel:iam:user:resourceowner:id", "urn:zitadel:iam:org:id"].map
    (strClaim m)).find? fun v => decide (v ≠ "")).getD ""

def nameFromClaims (m : Claims) : String :=
  if strClaim m "name" ≠ "" then strClaim m "name" else strClaim m "preferred_username"

/-- What the claims of a token say of its subject. -/
def identityFromClaims (claims : Claims) : Identity where
  sub := strClaim claims "sub"
  name := nameFromClaims claims
  email := strClaim claims "email"
  org := orgFromClaims claims

/-- There is nothing to ask the userinfo endpoint for. -/
def Identity.Complete (id : Identity) : Prop := id.org ≠ "" ∧ id.name ≠ "" ∧ id.email ≠ ""

instance (id : Identity) : Decidable id.Complete :=
  inferInstanceAs (Decidable (_ ∧ _))

/-- The gaps are filled from userinfo. -/
def Identity.fill (id : Identity) (info : Claims) : Identity where
  sub := id.sub
  name := if id.name = "" then nameFromClaims info else id.name
  email := if id.email = "" then strClaim info "email" else id.email
  org := if id.org = "" then orgFromClaims info else id.org

/-- The token of an `Authorization: Bearer <token>` header. -/
def bearerFromHeader (authz : String) : Except String String :=
  if authz = "" then .error "missing Authorization header"
  else
    match authz.toList.span (· ≠ ' ') with
    | (scheme, _ :: token) =>
        if scheme.map Char.toLower = "bearer".toList ∧ token ≠ [] then
          .ok (String.ofList token)
        else .error "malformed Authorization header"
    | (_, []) => .error "malformed Authorization header"

/-! ### The program of a request -/

inductive AuthCmd where
  /-- `a.verifier.Load()`. -/
  | loadVerifier
  /-- `v.Verify`, and `tok.Claims`. -/
  | verify (raw : String)
  /-- `a.idCache.get`. -/
  | get (sub : String)
  /-- `a.provider.Load()`. -/
  | loadProvider
  /-- `p.UserInfo`, and `ui.Claims`. -/
  | userInfo (raw : String)
  /-- `a.idCache.add`. -/
  | add (sub : String) (id : Identity)

@[reducible] def AuthCmd.Response : AuthCmd → Type
  | .loadVerifier => Bool
  | .verify _ => Option Claims
  | .get _ => Option Identity
  | .loadProvider => Bool
  | .userInfo _ => Option Claims
  | .add _ _ => Unit

abbrev AuthProgram := Prog AuthCmd AuthCmd.Response

abbrev auth (c : AuthCmd) : AuthProgram c.Response := Prog.issue c

inductive AuthError where
  | providerNotReady
  | unauthenticated
  deriving DecidableEq, Repr

/-- The outcome that is counted, and the answer. -/
structure Verification where
  result : String
  answer : Except AuthError Identity

/-- `userInfo`; why it fails is known to nobody. -/
def userInfo (raw : String) : AuthProgram (Option Claims) := do
  if ← auth .loadProvider then auth (.userInfo raw) else return none

/-- The end of `resolveIdentity`. -/
def keepIdentity (id : Identity) : AuthProgram (Option Identity) := do
  if id.org = "" then return none
  else if id.sub ≠ "" then
    auth (.add id.sub id)
    return some id
  else return some id

/-- `resolveIdentity` without the cache. -/
def assembleIdentity (claims : Claims) (raw : String) : AuthProgram (Option Identity) := do
  if (identityFromClaims claims).Complete then keepIdentity (identityFromClaims claims)
  else
    match ← userInfo raw with
    | none => return none
    | some info => keepIdentity ((identityFromClaims claims).fill info)

def resolveIdentity (claims : Claims) (raw : String) : AuthProgram (Option Identity) := do
  if strClaim claims "sub" ≠ "" then
    match ← auth (.get (strClaim claims "sub")) with
    | some id => return some id
    | none => assembleIdentity claims raw
  else assembleIdentity claims raw

def authenticate (authzHeader : String) : AuthProgram Verification := do
  if ← auth .loadVerifier then
    match bearerFromHeader authzHeader with
    | .error _ => return ⟨"missing", .error .unauthenticated⟩
    | .ok raw =>
      match ← auth (.verify raw) with
      | none => return ⟨"invalid", .error .unauthenticated⟩
      | some claims =>
        match ← resolveIdentity claims raw with
        | none => return ⟨"invalid", .error .unauthenticated⟩
        | some id => return ⟨"ok", .ok id⟩
  else return ⟨"not_ready", .error .providerNotReady⟩

/-! ### The state the requests share -/

/-- Where `discover` is: it stores the provider, and then the verifier. -/
inductive Discover where
  | retrying
  | stored
  | ready
  deriving DecidableEq, Repr

/-- The next store of `discover`. -/
def Discover.next : Discover → Discover
  | .retrying => .stored
  | .stored => .ready
  | .ready => .ready

/-- `Authenticator`. -/
structure Gate where
  idCache : IdentityCache
  discover : Discover

/-- An authenticator that has just been made. -/
def newGate (max : ℕ) (ttl : ℤ) : Gate := ⟨newIdentityCache max ttl, .retrying⟩

/-- What is outside: the stores of `discover` since the last command, the clock, and the answers of
the verifier and of the userinfo endpoint. -/
structure Outside where
  stores : ℕ
  now : Time
  claims : Option Claims
  info : Option Claims

/-- What a command does. -/
def Gate.perform (x : Outside) (g : Gate) : (c : AuthCmd) → Gate × c.Response
  | .loadVerifier => (g, decide (g.discover = .ready))
  | .verify _ => (g, x.claims)
  | .get sub => ({ g with idCache := (g.idCache.get sub x.now).1 }, (g.idCache.get sub x.now).2)
  | .loadProvider => (g, decide (g.discover ≠ .retrying))
  | .userInfo _ => (g, x.info)
  | .add sub id => ({ g with idCache := g.idCache.add sub id x.now }, ())

/-- `discover` goes on in the background. -/
def Gate.later (x : Outside) (g : Gate) : Gate :=
  { g with discover := Discover.next^[x.stores] g.discover }

def gate : Machine Gate Outside AuthCmd AuthCmd.Response where
  perform x _ g c := (g.later x).perform x c

/-- The commands performed so far, each with the request it belongs to. -/
abbrev AuthTrace := List (ℕ × Performed Gate Outside AuthCmd)

/-! ### What a request has seen -/

/-- What the commands of a request have told it. -/
structure Seen where
  /-- The token it has verified, and its claims. -/
  token : Option (String × Claims)
  /-- What userinfo says to the bearer of a token. -/
  info : Option (String × Claims)
  /-- What the cache had for a subject. -/
  cached : Option (String × Identity)

/-- The identity is that of a token and, where the token has gaps, of what userinfo says to its
bearer. -/
def Seen.Assembled (g : Seen) (id : Identity) : Prop :=
  ∃ raw claims, g.token = some (raw, claims) ∧
    (id = identityFromClaims claims ∧ id.Complete ∨
      ∃ info, g.info = some (raw, info) ∧ id = (identityFromClaims claims).fill info)

/-- A request caches only what it has put together, under its subject and with an organization. -/
def seeing : Protocol Seen AuthCmd AuthCmd.Response where
  allowed g
    | .add sub id => g.Assembled id ∧ id.org ≠ "" ∧ sub ≠ "" ∧ id.sub = sub
    | _ => True
  next g c :=
    match c with
    | .verify raw => fun r => { g with token := r.map fun claims => (raw, claims) }
    | .userInfo raw => fun r => { g with info := r.map fun info => (raw, info) }
    | .get sub => fun r => { g with cached := r.map fun id => (sub, id) }
    | .loadVerifier | .loadProvider | .add _ _ => fun _ => g

/-- What a request has seen when it is let through. -/
def Seen.LetsThrough (g : Seen) (id : Identity) : Prop :=
  id.org ≠ "" ∧ g.Assembled id ∨
    ∃ raw claims, g.token = some (raw, claims) ∧ strClaim claims "sub" ≠ "" ∧
      g.cached = some (strClaim claims "sub", id)

theorem keepIdentity_follows {g : Seen} {id : Identity} (h : g.Assembled id) :
    (keepIdentity id).Follows seeing
      (fun r g => ∀ id, r = some id → id.org ≠ "" ∧ g.Assembled id) g := by
  unfold keepIdentity
  split
  · intro id hid
    cases hid
  · next horg =>
    split
    · next hsub =>
      refine ⟨⟨h, horg, hsub, rfl⟩, fun _ => ?_⟩
      rintro _ ⟨⟩
      exact ⟨horg, h⟩
    · rintro _ ⟨⟩
      exact ⟨horg, h⟩

theorem assembleIdentity_follows {g : Seen} {claims : Claims} {raw : String}
    (h : g.token = some (raw, claims)) :
    (assembleIdentity claims raw).Follows seeing
      (fun r g => ∀ id, r = some id → id.org ≠ "" ∧ g.Assembled id) g := by
  unfold assembleIdentity
  split
  · next hcomplete => exact keepIdentity_follows ⟨raw, claims, h, .inl ⟨rfl, hcomplete⟩⟩
  · refine ⟨trivial, fun r => ?_⟩
    cases r with
    | false =>
      intro id hid
      cases hid
    | true =>
      refine ⟨trivial, fun r => ?_⟩
      cases r with
      | none =>
        intro id hid
        cases hid
      | some info => exact keepIdentity_follows ⟨raw, claims, h, .inr ⟨info, rfl, rfl⟩⟩

theorem resolveIdentity_follows {g : Seen} {claims : Claims} {raw : String}
    (h : g.token = some (raw, claims)) :
    (resolveIdentity claims raw).Follows seeing
      (fun r g => ∀ id, r = some id → g.LetsThrough id) g := by
  have hassembled : ∀ g : Seen, g.token = some (raw, claims) →
      (assembleIdentity claims raw).Follows seeing
        (fun r g => ∀ id, r = some id → g.LetsThrough id) g := by
    intro g hg
    exact (assembleIdentity_follows hg).mono fun r g' hr id hid => .inl (hr id hid)
  unfold resolveIdentity
  split
  · next hsub =>
    refine ⟨trivial, fun r => ?_⟩
    cases r with
    | none => exact hassembled _ h
    | some id =>
      rintro _ ⟨⟩
      exact .inr ⟨raw, claims, h, hsub, rfl⟩
  · exact hassembled _ h

/-- **What a request has seen when it caches an identity, and when it returns one.** -/
theorem authenticate_follows (authzHeader : String) (g : Seen) :
    (authenticate authzHeader).Follows seeing
      (fun v g => ∀ id, v.answer = .ok id → g.LetsThrough id) g := by
  unfold authenticate
  refine ⟨trivial, fun r => ?_⟩
  cases r with
  | false =>
    intro id hid
    cases hid
  | true =>
    dsimp only
    split
    · intro id hid
      cases hid
    · next raw _ =>
      refine ⟨trivial, fun r => ?_⟩
      cases r with
      | none =>
        intro id hid
        cases hid
      | some claims =>
        refine (resolveIdentity_follows rfl).bind fun r g hr => ?_
        cases r with
        | none =>
          intro id hid
          cases hid
        | some id =>
          rintro _ ⟨⟩
          exact hr id rfl

/-! ### What the trace has of it -/

section Trace

/-- A request has verified a token. -/
def HasVerified (ls : List (Performed Gate Outside AuthCmd)) (raw : String) (claims : Claims) :
    Prop :=
  ∃ l ∈ ls, l.cmd = .verify raw ∧ l.choice.claims = some claims

/-- A request was told by userinfo about the bearer of a token. -/
def WasInformed (ls : List (Performed Gate Outside AuthCmd)) (raw : String) (info : Claims) :
    Prop :=
  ∃ l ∈ ls, l.cmd = .userInfo raw ∧ l.choice.info = some info

/-- The cache had an identity for a request. -/
def Hit (l : Performed Gate Outside AuthCmd) (sub : String) (id : Identity) : Prop :=
  l.cmd = .get sub ∧ (l.state.idCache.get sub l.choice.now).2 = some id

/-- **A request has put the identity together**, from a token it had verified and what userinfo
said to the bearer of that token. -/
def Vouched (tr : AuthTrace) (i : ℕ) (id : Identity) : Prop :=
  ∃ raw claims, HasVerified (byThread i tr) raw claims ∧
    (id = identityFromClaims claims ∧ id.Complete ∨
      ∃ info, WasInformed (byThread i tr) raw info ∧ id = (identityFromClaims claims).fill info)

/-- What a request has seen is in its log. -/
structure Backed (ls : List (Performed Gate Outside AuthCmd)) (g : Seen) : Prop where
  token : ∀ raw claims, g.token = some (raw, claims) → HasVerified ls raw claims
  info : ∀ raw info, g.info = some (raw, info) → WasInformed ls raw info
  cached : ∀ sub id, g.cached = some (sub, id) → ∃ l ∈ ls, Hit l sub id

variable {ls : List (Performed Gate Outside AuthCmd)} {tr : AuthTrace} {id : Identity}

theorem HasVerified.append {raw : String} {claims : Claims} (h : HasVerified ls raw claims)
    (ls' : List (Performed Gate Outside AuthCmd)) : HasVerified (ls ++ ls') raw claims := by
  obtain ⟨l, hl, h⟩ := h
  exact ⟨l, List.mem_append_left _ hl, h⟩

theorem WasInformed.append {raw : String} {info : Claims} (h : WasInformed ls raw info)
    (ls' : List (Performed Gate Outside AuthCmd)) : WasInformed (ls ++ ls') raw info := by
  obtain ⟨l, hl, h⟩ := h
  exact ⟨l, List.mem_append_left _ hl, h⟩

theorem Vouched.append {i : ℕ} (h : Vouched tr i id) (tr' : AuthTrace) :
    Vouched (tr ++ tr') i id := by
  obtain ⟨ls', hls'⟩ := byThread_mono i tr tr'
  obtain ⟨raw, claims, hverified, hid⟩ := h
  unfold Vouched
  rw [← hls']
  refine ⟨raw, claims, hverified.append ls', hid.imp_right ?_⟩
  rintro ⟨info, hinfo, heq⟩
  exact ⟨info, hinfo.append ls', heq⟩

theorem Backed.snoc {g : Seen} (h : Backed ls g) (l : Performed Gate Outside AuthCmd) :
    Backed (ls ++ [l])
      (seeing.next g l.cmd (gate.perform l.choice l.cancelled l.state l.cmd).2) := by
  obtain ⟨w, c, b, x⟩ := l
  have htoken : ∀ raw claims, g.token = some (raw, claims) →
      HasVerified (ls ++ [⟨w, c, b, x⟩]) raw claims :=
    fun raw claims hg => (h.token raw claims hg).append _
  have hinfo : ∀ raw info, g.info = some (raw, info) →
      WasInformed (ls ++ [⟨w, c, b, x⟩]) raw info :=
    fun raw info hg => (h.info raw info hg).append _
  have hcached : ∀ sub id, g.cached = some (sub, id) →
      ∃ l ∈ ls ++ [⟨w, c, b, x⟩], Hit l sub id := by
    intro sub id hg
    obtain ⟨l, hl, hhit⟩ := h.cached sub id hg
    exact ⟨l, List.mem_append_left _ hl, hhit⟩
  have hlast : (⟨w, c, b, x⟩ : Performed Gate Outside AuthCmd) ∈ ls ++ [⟨w, c, b, x⟩] :=
    List.mem_append_right _ (List.mem_singleton_self _)
  cases c with
  | verify raw =>
    refine ⟨fun raw' claims hg => ?_, hinfo, hcached⟩
    obtain ⟨claims', hx, heq⟩ := Option.map_eq_some_iff.mp hg
    cases heq
    exact ⟨_, hlast, rfl, hx⟩
  | userInfo raw =>
    refine ⟨htoken, fun raw' info hg => ?_, hcached⟩
    obtain ⟨info', hx, heq⟩ := Option.map_eq_some_iff.mp hg
    cases heq
    exact ⟨_, hlast, rfl, hx⟩
  | get sub =>
    refine ⟨htoken, hinfo, fun sub' id hg => ?_⟩
    obtain ⟨id', hx, heq⟩ := Option.map_eq_some_iff.mp hg
    cases heq
    exact ⟨_, hlast, rfl, hx⟩
  | loadVerifier => exact ⟨htoken, hinfo, hcached⟩
  | loadProvider => exact ⟨htoken, hinfo, hcached⟩
  | add sub id => exact ⟨htoken, hinfo, hcached⟩

/-- A request that has seen nothing yet. -/
def Seen.nothing : Seen := ⟨none, none, none⟩

theorem backed_after (ls : List (Performed Gate Outside AuthCmd)) :
    Backed ls (seeing.after gate .nothing ls) := by
  induction ls using List.reverseRecOn with
  | nil => refine ⟨?_, ?_, ?_⟩ <;> simp [Protocol.after, Seen.nothing]
  | append_singleton ls l ih =>
    rw [Protocol.after_snoc]
    exact ih.snoc l

/-- What a request has put together is vouched for by its trace. -/
theorem Seen.Assembled.vouched {i : ℕ}
    (h : (seeing.after gate .nothing (byThread i tr)).Assembled id) : Vouched tr i id := by
  have hbacked := backed_after (byThread i tr)
  obtain ⟨raw, claims, htoken, hid⟩ := h
  refine ⟨raw, claims, hbacked.token raw claims htoken, hid.imp_right ?_⟩
  rintro ⟨info, hinfo, heq⟩
  exact ⟨info, hbacked.info raw info hinfo, heq⟩

end Trace

/-! ### What is in the cache -/

section Cache

variable {ttl : ℤ} {tr : AuthTrace} {c : IdentityCache} {ent : CacheEntry}

/-- An entry of the cache was added by a request that had put its identity together. -/
def Recorded (ttl : ℤ) (tr : AuthTrace) (ent : CacheEntry) : Prop :=
  ent.id.sub = ent.sub ∧ ent.id.org ≠ "" ∧ ∃ j a, (j, a) ∈ tr ∧ a.cmd = .add ent.sub ent.id ∧
    ent.expires = a.choice.now + ttl ∧ Vouched tr j ent.id

/-- The cache answers with an identity that was added at most `ttl` ago by a request that had put
it together. -/
def Recalled (ttl : ℤ) (tr : AuthTrace) (sub : String) (id : Identity) (now : Time) : Prop :=
  id.sub = sub ∧ id.org ≠ "" ∧ ∃ j a, (j, a) ∈ tr ∧ a.cmd = .add sub id ∧
    now ≤ a.choice.now + ttl ∧ Vouched tr j id

theorem Recorded.append (h : Recorded ttl tr ent) (tr' : AuthTrace) :
    Recorded ttl (tr ++ tr') ent := by
  obtain ⟨hsub, horg, j, a, ha, hadd, hexp, hv⟩ := h
  exact ⟨hsub, horg, j, a, List.mem_append_left _ ha, hadd, hexp, hv.append tr'⟩

/-- A read leaves entries of the list only, and answers with one that has not expired. -/
theorem mem_got (sub : String) (now : Time) (l : List CacheEntry) :
    (∀ ent ∈ (got sub now l).1, ent ∈ l) ∧
      ∀ id, (got sub now l).2 = some id →
        ∃ ent ∈ l, ent.sub = sub ∧ ent.id = id ∧ now ≤ ent.expires := by
  unfold got
  cases hfound : Recency.lookup CacheEntry.sub sub l with
  | none => exact ⟨fun ent hent => hent, fun id hid => by cases hid⟩
  | some ent =>
    obtain ⟨hent, hsub⟩ := Recency.of_lookup hfound
    dsimp only
    split
    · exact ⟨fun x hx => (Recency.mem_drop.mp hx).1, fun id hid => by cases hid⟩
    · next hlt =>
      refine ⟨fun x hx => ?_, ?_⟩
      · rcases List.mem_cons.mp hx with rfl | hx
        · exact hent
        · exact (Recency.mem_drop.mp hx).1
      · rintro _ ⟨⟩
        exact ⟨ent, hent, hsub, rfl, not_lt.mp hlt⟩

/-- A write brings one entry, and no other. -/
theorem mem_added {max : ℕ} {sub : String} {id : Identity} {now : Time} {l : List CacheEntry}
    (h : ent ∈ added max ttl sub id now l) : ent = ⟨sub, id, now + ttl⟩ ∨ ent ∈ l := by
  rcases List.mem_cons.mp (List.mem_of_mem_take h) with rfl | h
  · exact .inl rfl
  · exact .inr (Recency.mem_drop.mp h).1

/-- What the trace knows of the cache. -/
structure Filled (ttl : ℤ) (c : IdentityCache) (tr : AuthTrace) : Prop where
  sound : c.Sound
  ttl_eq : c.ttl = ttl
  recorded : ∀ ent ∈ c.entries, Recorded ttl tr ent

theorem Filled.append (h : Filled ttl c tr) (tr' : AuthTrace) : Filled ttl c (tr ++ tr') :=
  ⟨h.sound, h.ttl_eq, fun ent hent => (h.recorded ent hent).append tr'⟩

theorem Filled.get (h : Filled ttl c tr) (sub : String) (now : Time) :
    Filled ttl (c.get sub now).1 tr ∧
      ∀ id, (c.get sub now).2 = some id → Recalled ttl tr sub id now := by
  obtain ⟨hsound, heq⟩ := h.sound.get sub now
  have hentries : (c.get sub now).1.entries = (got sub now c.entries).1 := congrArg Prod.fst heq
  have hanswer : (c.get sub now).2 = (got sub now c.entries).2 := congrArg Prod.snd heq
  obtain ⟨hmem, hsome⟩ := mem_got sub now c.entries
  refine ⟨⟨hsound, (c.same_get sub now).2.trans h.ttl_eq, fun ent hent => ?_⟩, fun id hid => ?_⟩
  · rw [hentries] at hent
    exact h.recorded ent (hmem ent hent)
  · rw [hanswer] at hid
    obtain ⟨ent, hent, rfl, rfl, hlive⟩ := hsome id hid
    obtain ⟨hsub, horg, j, a, ha, hadd, hexp, hv⟩ := h.recorded ent hent
    exact ⟨hsub, horg, j, a, ha, hadd, hexp ▸ hlive, hv⟩

theorem Filled.add (h : Filled ttl c tr) {sub : String} {id : Identity} {now : Time}
    (hnew : Recorded ttl tr ⟨sub, id, now + ttl⟩) : Filled ttl (c.add sub id now) tr := by
  obtain ⟨hsound, hentries⟩ := h.sound.add sub id now
  refine ⟨hsound, (c.same_add sub id now).2.trans h.ttl_eq, fun ent hent => ?_⟩
  rw [hentries, h.ttl_eq] at hent
  rcases mem_added hent with rfl | hent
  · exact hnew
  · exact h.recorded ent hent

end Cache

/-! ### Every interleaving -/

/-- `authInterceptor` runs before every handler: any number of requests side by side. -/
abbrev requests : Lts (Pool Gate AuthCmd AuthCmd.Response Verification)
    (PoolEvent String Outside) (ℕ × Performed Gate Outside AuthCmd) :=
  gate.threads authenticate

/-- A request has found the verifier. -/
def FoundReady (l : Performed Gate Outside AuthCmd) : Prop :=
  l.cmd = .loadVerifier ∧ (l.state.later l.choice).discover = .ready

/-- A request has not found the verifier, or not the provider. -/
def FoundNothing (l : Performed Gate Outside AuthCmd) : Prop :=
  l.cmd = .loadVerifier ∧ (l.state.later l.choice).discover ≠ .ready ∨
    l.cmd = .loadProvider ∧ (l.state.later l.choice).discover = .retrying

/-- What is promised of a request that is let through with an identity. -/
structure Admitted (ttl : ℤ) (tr : AuthTrace) (i : ℕ) (id : Identity) : Prop where
  /-- It has itself verified a token, whose subject the identity is of. -/
  token : ∃ raw claims, HasVerified (byThread i tr) raw claims ∧ strClaim claims "sub" = id.sub
  org : id.org ≠ ""
  /-- It has put the identity together, or the cache had it from a request that did. -/
  source : Vouched tr i id ∨
    ∃ pre l post, tr = pre ++ (i, l) :: post ∧ Hit l id.sub id ∧
      Recalled ttl pre id.sub id l.choice.now

section Runs

variable {max : ℕ} {ttl : ℤ} {es : List (PoolEvent String Outside)}
  {s : Pool Gate AuthCmd AuthCmd.Response Verification} {tr : AuthTrace}

@[simp] theorem later_idCache (g : Gate) (x : Outside) : (g.later x).idCache = g.idCache := rfl

theorem later_ready {g : Gate} (h : g.discover = .ready) (x : Outside) :
    (g.later x).discover = .ready := by
  show Discover.next^[x.stores] g.discover = .ready
  rw [h]
  exact Function.iterate_fixed rfl _

/-- No command changes how far `discover` is. -/
theorem perform_discover (x : Outside) (b : Bool) (g : Gate) (c : AuthCmd) :
    (gate.perform x b g c).1.discover = (g.later x).discover := by
  cases c <;> rfl

/-- The invariant of all requests side by side. -/
theorem requests_invariant (h : requests.Run ⟨newGate max ttl, []⟩ es s tr) :
    Filled ttl s.world.idCache tr ∧
      AtEvery (fun pre l => ∀ sub id, Hit l.2 sub id → Recalled ttl pre sub id l.2.choice.now)
        tr := by
  refine Machine.threads_invariant (P := seeing) (Q := fun v g => ∀ id, v.answer = .ok id →
    g.LetsThrough id) (J := fun g tr => Filled ttl g.idCache tr ∧
      AtEvery (fun pre l => ∀ sub id, Hit l.2 sub id → Recalled ttl pre sub id l.2.choice.now) tr)
    h (fun header => authenticate_follows header .nothing) ⟨⟨?_, rfl, ?_⟩, atEvery_nil⟩ ?_
  · exact IdentityCache.sound_new max ttl
  · simp [newGate, newIdentityCache, IdentityCache.entries]
  · rintro s tr i t c k b - - hallowed ⟨hfilled, hevery⟩
    have hsame : Filled ttl s.world.idCache
        (tr ++ [(i, ⟨s.world, c, b || t.cancel, t.choice⟩)]) := hfilled.append _
    have hquiet : (∀ sub, c ≠ .get sub) → AtEvery (fun pre l => ∀ sub id, Hit l.2 sub id →
        Recalled ttl pre sub id l.2.choice.now)
        (tr ++ [(i, ⟨s.world, c, b || t.cancel, t.choice⟩)]) :=
      fun hc => atEvery_snoc hevery fun sub id hhit => absurd hhit.1 (hc sub)
    cases c with
    | get sub =>
      refine ⟨(hsame.get sub t.choice.now).1, atEvery_snoc hevery ?_⟩
      rintro sub' id ⟨⟨⟩, hhit⟩
      exact (hfilled.get sub t.choice.now).2 id hhit
    | add sub id =>
      obtain ⟨hassembled, horg, -, hsub⟩ := hallowed
      refine ⟨hsame.add ⟨hsub, horg, i, _, List.mem_append_right _ (List.mem_singleton_self _),
        rfl, rfl, hassembled.vouched.append _⟩, hquiet fun sub h => by cases h⟩
    | loadVerifier => exact ⟨hsame, hquiet fun sub h => by cases h⟩
    | verify raw => exact ⟨hsame, hquiet fun sub h => by cases h⟩
    | loadProvider => exact ⟨hsame, hquiet fun sub h => by cases h⟩
    | userInfo raw => exact ⟨hsame, hquiet fun sub h => by cases h⟩

/-- The verifier stays where a request has found it. -/
theorem found_invariant (h : requests.Run ⟨newGate max ttl, []⟩ es s tr) :
    ((∃ l ∈ tr, FoundReady l.2) → s.world.discover = .ready) ∧
      AtEvery (fun pre l => (∃ l' ∈ pre, FoundReady l'.2) → ¬ FoundNothing l.2) tr := by
  refine Machine.threads_invariant_log (J := fun g tr =>
    ((∃ l ∈ tr, FoundReady l.2) → g.discover = .ready) ∧
      AtEvery (fun pre l => (∃ l' ∈ pre, FoundReady l'.2) → ¬ FoundNothing l.2) tr) h
    ⟨by simp, atEvery_nil⟩ ?_
  rintro s tr i t c k b header - - - ⟨hready, hevery⟩
  refine ⟨?_, atEvery_snoc hevery fun hfound => ?_⟩
  · rintro ⟨l, hl, hfound⟩
    rw [perform_discover]
    rcases List.mem_append.mp hl with hl | hl
    · exact later_ready (hready ⟨l, hl, hfound⟩) _
    · cases List.mem_singleton.mp hl
      exact hfound.2
  · have hlater := later_ready (hready hfound) t.choice
    rintro (⟨-, hnot⟩ | ⟨-, hnot⟩)
    · exact hnot hlater
    · rw [hlater] at hnot
      cases hnot

/-- **Who is let through.**  In every interleaving of requests over one cache, a request that is
let through has verified a token itself, with the subject it is let through as, and its identity
names an organization.  It was put together from a verified token of that subject and from what
userinfo said to the bearer of that token: by this request, or at most `ttl` before the read by
another one.  And once a request has found the verifier, none is turned away for want of it. -/
theorem admitted_of_ok (h : requests.Run ⟨newGate max ttl, []⟩ es s tr) :
    (∀ i v b id, s.threads[i]? = some ⟨.pure v, b⟩ → v.answer = .ok id → Admitted ttl tr i id) ∧
      AtEvery (fun pre l => (∃ l' ∈ pre, FoundReady l'.2) → ¬ FoundNothing l.2) tr := by
  refine ⟨fun i v b id hi hid => ?_, (found_invariant h).2⟩
  obtain ⟨header, hlog⟩ := (Machine.threads_log h).2 i _ hi
  have hbacked := backed_after (byThread i tr)
  rcases hlog.follows (authenticate_follows header .nothing) id hid with
    ⟨horg, hassembled⟩ | ⟨raw, claims, htoken, -, hcached⟩
  · have hvouched : Vouched tr i id := hassembled.vouched
    refine ⟨?_, horg, .inl hvouched⟩
    obtain ⟨raw, claims, hverified, ⟨rfl, -⟩ | ⟨info, -, rfl⟩⟩ := hvouched
    · exact ⟨raw, claims, hverified, rfl⟩
    · exact ⟨raw, claims, hverified, rfl⟩
  · obtain ⟨l, hl, hhit⟩ := hbacked.cached _ _ hcached
    obtain ⟨pre, post, rfl⟩ := List.append_of_mem (mem_of_mem_byThread hl)
    have hrecalled := (requests_invariant h).2 pre (i, l) post rfl _ id hhit
    have hsub := hrecalled.1
    rw [← hsub] at hhit hrecalled
    exact ⟨⟨raw, claims, hbacked.token raw claims htoken, hsub.symm⟩, hrecalled.2.1,
      .inr ⟨pre, l, post, rfl, hhit, hrecalled⟩⟩

end Runs

/-! ### Two requests of one user -/

/-- The claims of an access token, which name the user only. -/
def annsToken : Claims := fun key => if key = "sub" then some (.string "ann") else none

/-- What userinfo says of her. -/
def annsInfo : Claims := fun key =>
  if key = "urn:zitadel:iam:user:resourceowner:id" then some (.string "acme")
  else if key = "preferred_username" then some (.string "Ann") else none

/-- The two requests overlap: the second finds what the first has cached. -/
def annsRequests : List (PoolEvent String Outside) :=
  let turn (i stores : ℕ) (now : Time) : PoolEvent String Outside :=
    .turn i ⟨false, ⟨stores, now, some annsToken, some annsInfo⟩⟩
  [.start "Bearer first", turn 0 2 0, turn 0 0 1, .start "bearer second", turn 1 0 1, turn 0 0 2,
    turn 0 0 3, turn 0 0 4, turn 0 0 5, turn 1 0 6, turn 1 0 1805]

/-- Her second request is let through by the cache, at the last moment. -/
theorem second_admitted : ∃ s tr,
    requests.Run ⟨newGate 4096 1800, []⟩ annsRequests s tr ∧
      Admitted 1800 tr 1 ⟨"ann", "Ann", "", "acme"⟩ := by
  obtain ⟨s, tr, hrun, hend⟩ := Lts.exists_run_of_any requests ⟨newGate 4096 1800, []⟩ annsRequests
    (fun s _ => s.threads[1]?.any fun th =>
      match th.prog with
      | .pure v =>
          match v.answer with
          | .ok id => decide (id = ⟨"ann", "Ann", "", "acme"⟩)
          | .error _ => false
      | .call _ _ => false) (by decide +kernel)
  refine ⟨s, tr, hrun, ?_⟩
  obtain ⟨⟨prog, b⟩, hi, hprog⟩ := (Option.any_eq_true _ _).mp hend
  cases prog with
  | call c k => cases hprog
  | pure v =>
    obtain ⟨result, answer⟩ := v
    cases answer with
    | error e => cases hprog
    | ok id =>
      obtain rfl := of_decide_eq_true hprog
      exact (admitted_of_ok hrun).1 1 _ b _ hi rfl

end Api
end Hivebook
