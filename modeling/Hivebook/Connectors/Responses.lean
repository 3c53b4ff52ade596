import Mathlib.Data.List.Infix
import Hivebook.Connectors.Source

/-!
# What the calls of a source make of a response

Three functions talk to GitHub: `httpGet`, `graphqlPost` for the boards, and
`GitHubInstallationToken`, which mints the token that the others present.  Each has a status
switch of its own.  The first two take a 401 for rejected credentials, and a 429, or a 403 that
says so, for a rate limit.  The third takes every 403 for rejected credentials and knows no rate
limits.

## Main definitions

* `httpGet`, `graphqlPost`, `gitHubInstallationToken` — the calls, from the response they are
  answered with.
* `Failure` — what an error is taken for; `Alike` — the calls take a response for the same.
* `Unusable` — a response of the 2xx range that is no success of any call.
* `parseGitHubKey` — the parsing of an App key.

## Main results

* `httpGet_eq_ok_iff` — a body that is delivered is the whole body that was sent.
* `alike_iff` — **the calls agree exactly on the responses that are neither 403 nor 429, nor a
  success of one of them.**
-/

namespace Hivebook
namespace Connectors

/-! ### The calls -/

/-- `maxArtifactBytes`. -/
def maxArtifactBytes : ℕ := 2 ^ 25

/-- A response, as far as the calls look at it; a header that is missing is empty. -/
structure HttpResponse where
  status : ℕ
  /-- `Retry-After`. -/
  retryAfterHeader : String
  /-- `X-RateLimit-Remaining`. -/
  rateLimitRemaining : String
  /-- What `retryAfter` reads from the headers. -/
  retryAfter : ℤ
  /-- The body as it is sent. -/
  body : Bytes
  deriving DecidableEq, Repr

/-- `strings.ToLower`, as far as letters `a`–`z` come of it: the capitals, and the dotted
capital I. -/
def lowerBytes : Bytes → Bytes
  | [] => []
  | [b] => [if 65 ≤ b ∧ b ≤ 90 then b + 32 else b]
  | b :: b' :: bs =>
      if b = 196 ∧ b' = 176 then 105 :: lowerBytes bs
      else (if 65 ≤ b ∧ b ≤ 90 then b + 32 else b) :: lowerBytes (b' :: bs)

/-- `rate limit`, which a secondary limit says in the body. -/
def rateLimitText : Bytes := [114, 97, 116, 101, 32, 108, 105, 109, 105, 116]

/-- `isRateLimited`. -/
def isRateLimited (resp : HttpResponse) (body : Bytes) : Bool :=
  decide (resp.retryAfterHeader ≠ "") || decide (resp.rateLimitRemaining = "0") ||
    decide (rateLimitText <:+: lowerBytes body)

/-- `httpGet`, from how the request is answered. -/
def httpGet (url : String) : Except Err HttpResponse → Except Err Bytes
  | .error e => .error e
  | .ok resp =>
      -- one byte more than the limit tells a body that is too long
      let body := resp.body.take (maxArtifactBytes + 1)
      if resp.status = 429 ∨ (resp.status = 403 ∧ isRateLimited resp body = true) then
        .error (.rateLimit resp.retryAfter)
      else if resp.status = 401 then .error (.auth resp.status)
      else if resp.status < 200 ∨ 300 ≤ resp.status then .error (.status resp.status url)
      else if maxArtifactBytes < body.length then .error (.tooLarge url)
      else .ok body

/-- The envelope of a GraphQL response: the data as it is sent, empty if there is none, and the
messages of its errors. -/
structure GraphqlEnvelope where
  data : Bytes
  errors : List String
  deriving DecidableEq, Repr

section Calls

variable {α : Type}

/-- `json.Unmarshal`; its errors are plain ones. -/
def unmarshal (context : String) : Except String α → Except Err α
  | .error text => .error (.failed (context ++ text))
  | .ok a => .ok a

/-- `graphqlPost`, from how the request is answered.  Without data `out` stays what it was. -/
def graphqlPost (envelope : Bytes → Except String GraphqlEnvelope)
    (data : Bytes → Except String α) (out : α) : Except Err HttpResponse → Except Err α
  | .error e => .error e
  | .ok resp =>
      let body := resp.body.take (maxArtifactBytes + 1)
      if resp.status = 429 ∨ (resp.status = 403 ∧ isRateLimited resp body = true) then
        .error (.rateLimit resp.retryAfter)
      else if resp.status = 401 then .error (.auth resp.status)
      else if resp.status ≠ 200 then
        .error (.failed ("graphql: status " ++ toString resp.status))
      else
        match unmarshal "graphql decode: " (envelope body) with
        | .error e => .error e
        | .ok env =>
            match env.errors with
            | message :: _ => .error (.failed ("graphql: " ++ message))
            | [] => if env.data = [] then .ok out else unmarshal "" (data env.data)

/-- `GitHubInstallationToken`, from how the request is answered. -/
def gitHubInstallationToken (token : Bytes → Except String α) :
    Except Err HttpResponse → Except Err α
  | .error e => .error e
  | .ok resp =>
      if resp.status = 401 ∨ resp.status = 403 then .error (.auth resp.status)
      else if resp.status ≠ 201 then
        .error (.failed ("installation token: status " ++ toString resp.status))
      else unmarshal "" (token resp.body)

end Calls

/-- The parts of the standard library that read a key: `pem.Decode`, `x509.ParsePKCS1PrivateKey`
as far as it succeeds, and `x509.ParsePKCS8PrivateKey` with whether the key is an RSA key. -/
structure KeyParsers where
  pem : String → Option Bytes
  pkcs1 : Bytes → Bool
  pkcs8 : Bytes → Except String Bool

/-- `ParseGitHubKey`, as far as it fails. -/
def parseGitHubKey (k : KeyParsers) (key : String) : Except Err Unit :=
  match k.pem key with
  | none => .error (.failed "github key: not PEM")
  | some block =>
      if k.pkcs1 block then .ok ()
      else
        match k.pkcs8 block with
        | .error text => .error (.failed ("github key: " ++ text))
        | .ok true => .ok ()
        | .ok false => .error (.failed "github key: not RSA")

/-! ### What is delivered -/

/-- **A body that is delivered is the whole body that was sent**, with a status of success. -/
theorem httpGet_eq_ok_iff {url : String} {answer : Except Err HttpResponse} {body : Bytes} :
    httpGet url answer = .ok body ↔ ∃ resp, answer = .ok resp ∧ 200 ≤ resp.status ∧
      resp.status < 300 ∧ body.length ≤ maxArtifactBytes ∧ resp.body = body := by
  constructor
  · intro h
    cases answer with
    | error e => cases h
    | ok resp =>
      simp only [httpGet] at h
      split at h
      · cases h
      split at h
      · cases h
      split at h
      · cases h
      rename_i hstatus
      split at h
      · cases h
      rename_i hlen
      obtain rfl := Except.ok.inj h
      rw [not_or, not_lt, not_le] at hstatus
      have hshort : resp.body.length ≤ maxArtifactBytes := by
        rw [not_lt, List.length_take] at hlen
        omega
      have hwhole : resp.body.take (maxArtifactBytes + 1) = resp.body :=
        List.take_of_length_le (Nat.le_succ_of_le hshort)
      rw [hwhole]
      exact ⟨resp, rfl, hstatus.1, hstatus.2, hshort, rfl⟩
  · rintro ⟨resp, rfl, hlow, hhigh, hlen, rfl⟩
    have hwhole : resp.body.take (maxArtifactBytes + 1) = resp.body :=
      List.take_of_length_le (Nat.le_succ_of_le hlen)
    simp only [httpGet]
    rw [hwhole, if_neg (by omega), if_neg (by omega), if_neg (by omega), if_neg (by omega)]

/-! ### What an error is taken for -/

/-- What an error is taken for: `AsAuth` and `AsRateLimit` tell the first two. -/
inductive Failure where
  | auth | rateLimit | other
  deriving DecidableEq, Repr

/-- What a result is taken for, if it is an error. -/
def failure? {α : Type} : Except Err α → Option Failure
  | .ok _ => none
  | .error (.auth _) => some .auth
  | .error (.rateLimit _) => some .rateLimit
  | .error _ => some .other

/-- A response that says that the source throttles. -/
def Throttles (resp : HttpResponse) : Prop :=
  resp.status = 429 ∨
    (resp.status = 403 ∧ isRateLimited resp (resp.body.take (maxArtifactBytes + 1)) = true)

/-- A response is taken for what it is: rejected credentials exactly if its status is 401, a rate
limit exactly if it says so, and otherwise a failure of another kind unless it is a success. -/
structure Classified (resp : HttpResponse) (f : Option Failure) : Prop where
  auth : f = some .auth ↔ resp.status = 401
  rateLimit : f = some .rateLimit ↔ Throttles resp
  fails : resp.status < 200 ∨ 300 ≤ resp.status → f ≠ none

/-- The three calls take a response for what it is, and for the same. -/
structure Alike {α : Type} (url : String) (envelope : Bytes → Except String GraphqlEnvelope)
    (data : Bytes → Except String α) (out : α) (token : Bytes → Except String String)
    (resp : HttpResponse) : Prop where
  httpGet : Classified resp (failure? (httpGet url (.ok resp)))
  graphqlPost : Classified resp (failure? (graphqlPost envelope data out (.ok resp)))
  gitHubInstallationToken :
    Classified resp (failure? (gitHubInstallationToken token (.ok resp)))
  graphqlPost_eq : failure? (Connectors.graphqlPost envelope data out (.ok resp)) =
    failure? (Connectors.httpGet url (.ok resp))
  gitHubInstallationToken_eq : failure? (Connectors.gitHubInstallationToken token (.ok resp)) =
    failure? (Connectors.httpGet url (.ok resp))

/-- What `graphqlPost` has read of a body decodes, and reports no error. -/
def Decodes {α : Type} (envelope : Bytes → Except String GraphqlEnvelope)
    (data : Bytes → Except String α) (body : Bytes) : Prop :=
  ∃ env, envelope body = .ok env ∧ env.errors = [] ∧
    (env.data = [] ∨ ∃ a, data env.data = .ok a)

/-- A response of the 2xx range that is no success of any call: its body is too large, and it does
not decode where its status is the one that a call waits for. -/
structure Unusable {α : Type} (envelope : Bytes → Except String GraphqlEnvelope)
    (data : Bytes → Except String α) (token : Bytes → Except String String)
    (resp : HttpResponse) : Prop where
  tooLarge : maxArtifactBytes < resp.body.length
  graphql : resp.status = 200 → ¬ Decodes envelope data (resp.body.take (maxArtifactBytes + 1))
  token : resp.status = 201 → ∀ t, token resp.body ≠ .ok t

section Classes

variable {α : Type} {resp : HttpResponse} {url : String}
  {envelope : Bytes → Except String GraphqlEnvelope} {data : Bytes → Except String α} {out : α}
  {token : Bytes → Except String α}

/-- What does not decode is a failure of no special kind. -/
theorem failure_unmarshal (context : String) (r : Except String α) :
    failure? (unmarshal context r) ≠ some .auth ∧
      failure? (unmarshal context r) ≠ some .rateLimit := by
  cases r with
  | error text => exact ⟨nofun, nofun⟩
  | ok a => exact ⟨nofun, nofun⟩

/-- A rate limit is neither a rejection nor a success. -/
theorem Throttles.status (h : Throttles resp) : resp.status = 429 ∨ resp.status = 403 := by
  rcases h with h | ⟨h, -⟩
  · exact .inl h
  · exact .inr h

/-- A status switch that tells rate limits first and rejected credentials next takes a response
for what it is, so long as what it makes of the other responses is neither. -/
theorem Classified.of_switch {rest : Except Err α}
    (hrest : failure? rest ≠ some .auth ∧ failure? rest ≠ some .rateLimit)
    (hfails : resp.status < 200 ∨ 300 ≤ resp.status → failure? rest ≠ none) :
    Classified resp (failure? (if resp.status = 429 ∨ (resp.status = 403 ∧
        isRateLimited resp (resp.body.take (maxArtifactBytes + 1)) = true) then
      .error (.rateLimit resp.retryAfter)
    else if resp.status = 401 then .error (.auth resp.status) else rest)) := by
  split
  · next hthrottles =>
    have hstatus := Throttles.status hthrottles
    refine ⟨⟨nofun, fun h => ?_⟩, ⟨fun _ => hthrottles, fun _ => rfl⟩, fun _ => nofun⟩
    omega
  · next hthrottles =>
    split
    · next h401 =>
      exact ⟨⟨fun _ => h401, fun _ => rfl⟩, ⟨nofun, fun h => absurd h hthrottles⟩, fun _ => nofun⟩
    · next h401 =>
      exact ⟨⟨fun h => absurd h hrest.1, fun h => absurd h h401⟩,
        ⟨fun h => absurd h hrest.2, fun h => absurd h hthrottles⟩, hfails⟩

/-- **`httpGet` takes every response for what it is.** -/
theorem classified_httpGet (url : String) (resp : HttpResponse) :
    Classified resp (failure? (httpGet url (.ok resp))) := by
  apply Classified.of_switch
  · by_cases hstatus : resp.status < 200 ∨ 300 ≤ resp.status
    · rw [if_pos hstatus]
      exact ⟨nofun, nofun⟩
    · rw [if_neg hstatus]
      split
      · exact ⟨nofun, nofun⟩
      · exact ⟨nofun, nofun⟩
  · intro hstatus
    rw [if_pos hstatus]
    exact nofun

/-- **`graphqlPost` takes every response for what it is.** -/
theorem classified_graphqlPost (envelope : Bytes → Except String GraphqlEnvelope)
    (data : Bytes → Except String α) (out : α) (resp : HttpResponse) :
    Classified resp (failure? (graphqlPost envelope data out (.ok resp))) := by
  apply Classified.of_switch
  · by_cases h200 : resp.status = 200
    · -- what is in the body is a failure of no special kind
      rw [if_neg (not_not_intro h200)]
      cases envelope (resp.body.take (maxArtifactBytes + 1)) with
      | error text => exact ⟨nofun, nofun⟩
      | ok env =>
        obtain ⟨payload, errors⟩ := env
        cases errors with
        | cons message _ => exact ⟨nofun, nofun⟩
        | nil =>
          show failure? (if payload = [] then _ else _) ≠ _ ∧ failure? (if _ then _ else _) ≠ _
          by_cases hdata : payload = []
          · rw [if_pos hdata]
            exact ⟨nofun, nofun⟩
          · rw [if_neg hdata]
            exact failure_unmarshal "" (data payload)
    · rw [if_pos h200]
      exact ⟨nofun, nofun⟩
  · intro hstatus
    rw [if_pos (by omega)]
    exact nofun

/-- **`GitHubInstallationToken` takes a response for what it is exactly if its status is neither
403 nor 429**: it takes a 403 for rejected credentials, and a 429 for no rate limit. -/
theorem classified_gitHubInstallationToken_iff (token : Bytes → Except String α)
    (resp : HttpResponse) :
    Classified resp (failure? (gitHubInstallationToken token (.ok resp))) ↔
      resp.status ≠ 403 ∧ resp.status ≠ 429 := by
  constructor
  · intro h
    refine ⟨fun h403 => ?_, fun h429 => ?_⟩
    · have hauth : gitHubInstallationToken token (.ok resp) = .error (.auth resp.status) :=
        if_pos (.inr h403)
      have h401 := h.auth.mp (by rw [hauth]; rfl)
      omega
    · have hother : gitHubInstallationToken token (.ok resp) =
          .error (.failed ("installation token: status " ++ toString resp.status)) := by
        unfold gitHubInstallationToken
        dsimp only
        rw [if_neg (by omega), if_pos (by omega)]
      have hlimit := h.rateLimit.mpr (.inl h429)
      rw [hother] at hlimit
      cases hlimit
  · rintro ⟨h403, h429⟩
    have hthrottles : ¬ Throttles resp := by
      intro h
      rcases h.status with h | h
      · exact h429 h
      · exact h403 h
    unfold gitHubInstallationToken
    dsimp only
    by_cases h401 : resp.status = 401
    · rw [if_pos (.inl h401)]
      exact ⟨⟨fun _ => h401, fun _ => rfl⟩, ⟨nofun, fun h => absurd h hthrottles⟩, fun _ => nofun⟩
    · rw [if_neg (by omega)]
      by_cases h201 : resp.status = 201
      · have hplain := failure_unmarshal "" (token resp.body)
        rw [if_neg (not_not_intro h201)]
        refine ⟨⟨fun h => absurd h hplain.1, fun h => absurd h h401⟩,
          ⟨fun h => absurd h hplain.2, fun h => absurd h hthrottles⟩, fun h => ?_⟩
        omega
      · rw [if_pos h201]
        exact ⟨⟨nofun, fun h => absurd h h401⟩, ⟨nofun, fun h => absurd h hthrottles⟩,
          fun _ => nofun⟩

theorem failure_eq_none_iff {β : Type} {r : Except Err β} :
    failure? r = none ↔ ∃ b, r = .ok b := by
  cases r with
  | ok b => exact ⟨fun _ => ⟨b, rfl⟩, fun _ => rfl⟩
  | error e => cases e <;> exact ⟨nofun, nofun⟩

/-- What a response is taken for is determined by whether it is a success. -/
theorem Classified.eq {f g : Option Failure} (hf : Classified resp f) (hg : Classified resp g)
    (h : f = none ↔ g = none) : f = g := by
  by_cases h401 : resp.status = 401
  · rw [hf.auth.mpr h401, hg.auth.mpr h401]
  by_cases hthrottles : Throttles resp
  · rw [hf.rateLimit.mpr hthrottles, hg.rateLimit.mpr hthrottles]
  have hauth : f ≠ some .auth ∧ g ≠ some .auth :=
    ⟨fun hs => h401 (hf.auth.mp hs), fun hs => h401 (hg.auth.mp hs)⟩
  have hlimit : f ≠ some .rateLimit ∧ g ≠ some .rateLimit :=
    ⟨fun hs => hthrottles (hf.rateLimit.mp hs), fun hs => hthrottles (hg.rateLimit.mp hs)⟩
  match f, g with
  | none, none => rfl
  | none, some _ => cases h.mp rfl
  | some _, none => cases h.mpr rfl
  | some .auth, _ => exact absurd rfl hauth.1
  | _, some .auth => exact absurd rfl hauth.2
  | some .rateLimit, _ => exact absurd rfl hlimit.1
  | _, some .rateLimit => exact absurd rfl hlimit.2
  | some .other, some .other => rfl

/-- `httpGet` succeeds on a 2xx whose body is not too large. -/
theorem failure_httpGet_iff : failure? (httpGet url (.ok resp)) = none ↔
    200 ≤ resp.status ∧ resp.status < 300 ∧ resp.body.length ≤ maxArtifactBytes := by
  rw [failure_eq_none_iff]
  constructor
  · rintro ⟨body, hbody⟩
    obtain ⟨_, ⟨⟩, hlow, hhigh, hlen, rfl⟩ := httpGet_eq_ok_iff.mp hbody
    exact ⟨hlow, hhigh, hlen⟩
  · rintro ⟨hlow, hhigh, hlen⟩
    exact ⟨resp.body, httpGet_eq_ok_iff.mpr ⟨resp, rfl, hlow, hhigh, hlen, rfl⟩⟩

/-- `graphqlPost` succeeds on a 200 whose body decodes. -/
theorem failure_graphqlPost_iff : failure? (graphqlPost envelope data out (.ok resp)) = none ↔
    resp.status = 200 ∧ Decodes envelope data (resp.body.take (maxArtifactBytes + 1)) := by
  unfold graphqlPost Decodes
  dsimp only
  by_cases h200 : resp.status = 200
  · rw [if_neg (by omega), if_neg (by omega), if_neg (not_not_intro h200)]
    cases henv : envelope (resp.body.take (maxArtifactBytes + 1)) with
    | error text => simp [unmarshal, failure?]
    | ok env =>
      cases herrors : env.errors with
      | cons message _ => simp [unmarshal, herrors, failure?]
      | nil =>
        by_cases hdata : env.data = []
        · simp [unmarshal, herrors, hdata, h200, failure?]
        · cases hdecoded : data env.data with
          | error text => simp [unmarshal, herrors, hdata, hdecoded, failure?]
          | ok a => simp [unmarshal, herrors, hdata, hdecoded, h200, failure?]
  · refine ⟨fun h => ?_, fun h => absurd h.1 h200⟩
    split at h
    · cases h
    · split at h
      · cases h
      · cases h

/-- `GitHubInstallationToken` succeeds on a 201 whose body decodes. -/
theorem failure_gitHubInstallationToken_iff :
    failure? (gitHubInstallationToken token (.ok resp)) = none ↔
      resp.status = 201 ∧ ∃ t, token resp.body = .ok t := by
  unfold gitHubInstallationToken
  dsimp only
  by_cases h201 : resp.status = 201
  · rw [if_neg (by omega), if_neg (not_not_intro h201)]
    cases htoken : token resp.body with
    | error text => simp [unmarshal, failure?]
    | ok t => simp [unmarshal, h201, failure?]
  · refine ⟨fun h => ?_, fun h => absurd h.1 h201⟩
    split at h
    · cases h
    · cases h

end Classes

/-- **The calls agree exactly on the responses that are neither 403 nor 429**, nor a success of one
of them: no status is a success of all three. -/
theorem alike_iff {α : Type} (url : String) (envelope : Bytes → Except String GraphqlEnvelope)
    (data : Bytes → Except String α) (out : α) (token : Bytes → Except String String)
    (resp : HttpResponse) :
    Alike url envelope data out token resp ↔ (resp.status ≠ 403 ∧ resp.status ≠ 429) ∧
      (200 ≤ resp.status → resp.status < 300 → Unusable envelope data token resp) := by
  constructor
  · intro h
    refine ⟨(classified_gitHubInstallationToken_iff token resp).mp h.gitHubInstallationToken,
      fun hlow hhigh => ?_⟩
    have hgraphql : failure? (httpGet url (.ok resp)) = none ↔ resp.status = 200 ∧
        Decodes envelope data (resp.body.take (maxArtifactBytes + 1)) := by
      rw [← h.graphqlPost_eq]
      exact failure_graphqlPost_iff
    have htoken : failure? (httpGet url (.ok resp)) = none ↔ resp.status = 201 ∧
        ∃ t, token resp.body = .ok t := by
      rw [← h.gitHubInstallationToken_eq]
      exact failure_gitHubInstallationToken_iff
    -- the status cannot be the one that both of them wait for
    have hfails : failure? (httpGet url (.ok resp)) ≠ none := by
      intro hnone
      have h200 := (hgraphql.mp hnone).1
      have h201 := (htoken.mp hnone).1
      omega
    refine ⟨?_, fun h200 hdecodes => hfails (hgraphql.mpr ⟨h200, hdecodes⟩),
      fun h201 t ht => hfails (htoken.mpr ⟨h201, t, ht⟩)⟩
    by_contra hlen
    exact hfails (failure_httpGet_iff.mpr ⟨hlow, hhigh, not_lt.mp hlen⟩)
  · rintro ⟨hstatus, husable⟩
    have hget := classified_httpGet url resp
    have hgraphql := classified_graphqlPost envelope data out resp
    have htoken := (classified_gitHubInstallationToken_iff token resp).mpr hstatus
    have hget_fails : failure? (httpGet url (.ok resp)) ≠ none := by
      intro hnone
      obtain ⟨hlow, hhigh, hlen⟩ := failure_httpGet_iff.mp hnone
      exact absurd (husable hlow hhigh).tooLarge (not_lt.mpr hlen)
    have hgraphql_fails : failure? (graphqlPost envelope data out (.ok resp)) ≠ none := by
      intro hnone
      obtain ⟨h200, hdecodes⟩ := failure_graphqlPost_iff.mp hnone
      exact (husable (by omega) (by omega)).graphql h200 hdecodes
    have htoken_fails : failure? (gitHubInstallationToken token (.ok resp)) ≠ none := by
      intro hnone
      obtain ⟨h201, t, ht⟩ := failure_gitHubInstallationToken_iff.mp hnone
      exact (husable (by omega) (by omega)).token h201 t ht
    exact ⟨hget, hgraphql, htoken,
      hgraphql.eq hget ⟨fun h => absurd h hgraphql_fails, fun h => absurd h hget_fails⟩,
      htoken.eq hget ⟨fun h => absurd h htoken_fails, fun h => absurd h hget_fails⟩⟩

end Connectors
end Hivebook
