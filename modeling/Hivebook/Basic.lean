import Mathlib.Algebra.Group.Int.Defs
import Mathlib.Algebra.Group.Nat.Defs
import Mathlib.Data.Int.Notation
import Mathlib.Data.Nat.Notation
import Mathlib.Tactic.Common

/-!
# Vocabulary shared by the workflows, the activities and the server

Instants and durations are counted in nanoseconds, as Go's `time.Duration` is.
Row ids are drawn from a sequence, which is all the code relies on in
`gen_random_uuid()`.  The status columns of `sync_unit` and `connector_connection`
are enumerations: every value below is one the source writes or compares with.
-/

namespace Hivebook

/-- An instant, or a duration, in nanoseconds. -/
abbrev Time := ℕ

/-- `time.Second`. -/
def second : Time := 1000000000

/-- `time.Minute`. -/
def minute : Time := 60 * second

/-- `time.Hour`. -/
def hour : Time := 60 * minute

/-- `24 * time.Hour`. -/
def day : Time := 24 * hour

/-- A generated row id. -/
abbrev Uuid := ℕ

/-- A `[]byte`. -/
abbrev Bytes := List UInt8

/-- A Go conversion to `int32`, as the counts and limits of the database are stored. -/
def int32 (n : ℤ) : ℤ := n.bmod (2 ^ 32)

/-- The error values of the data plane, as far as the code tells them apart. -/
inductive Err where
  /-- `connectors.AuthError`: the source rejected the credentials. -/
  | auth (status : ℕ)
  /-- `connectors.RateLimitError`. -/
  | rateLimit (retryAfter : ℤ)
  /-- `connectors.StatusError`: a non-2xx response of no special kind. -/
  | status (code : ℕ) (url : String)
  /-- `connectors.TooLargeError`. -/
  | tooLarge (url : String)
  /-- `context.DeadlineExceeded`. -/
  | deadlineExceeded
  /-- `context.Canceled`. -/
  | canceled
  /-- `sql.ErrNoRows`. -/
  | noRows
  /-- `oauth2.RetrieveError`: the token endpoint refused, by its status and body. -/
  | retrieve (status : Option ℕ) (body text : String)
  /-- Any other error, by its text. -/
  | failed (text : String)
  deriving DecidableEq, Repr

/-- `err.Error()`, for the errors whose text is stored. -/
def Err.error : Err → String
  | .auth n => "source rejected credentials (status " ++ toString n ++ ")"
  | .rateLimit d => "rate limited, retry after " ++ toString d
  | .status n url => "GET " ++ url ++ ": status " ++ toString n
  | .tooLarge url => "GET " ++ url ++ ": response exceeds " ++ toString (32 * 1048576) ++ " bytes"
  | .deadlineExceeded => "context deadline exceeded"
  | .canceled => "context canceled"
  | .noRows => "sql: no rows in result set"
  | .retrieve _ _ text => text
  | .failed text => text

/-- `sync_unit.status`. -/
inductive UnitStatus where
  | idle | queued | syncing | synced | error | removed
  deriving DecidableEq, Repr, Inhabited

/-- `connector_connection.status`. -/
inductive ConnectionStatus where
  | connected | syncing | backfilling | connectedWarnings | stopping | error | needsReauth
  | disabled
  deriving DecidableEq, Repr, Inhabited

/-- The labels of the Temporal application errors the activities return, and
`other` for an error an activity passes through unlabelled. -/
inductive ErrType where
  /-- `errTypeAuth`: non-retryable, the connection needs a reconnect. -/
  | auth
  /-- `errTypeRateLimit`: retryable, a throttle or a refused admission. -/
  | rateLimit
  /-- `errTypeSync`: retryable, a transient failure of the unit. -/
  | sync
  | other
  deriving DecidableEq, Repr, Inhabited

/-- `activity.SyncResult`. -/
structure SyncResult where
  done : Bool
  artifacts : ℕ
  status : Option UnitStatus
  deriving DecidableEq, Repr

/-- `activity.ScheduleResult`. -/
structure ScheduleResult where
  enabled : Bool
  intervalSeconds : ℤ
  deriving DecidableEq, Repr

end Hivebook
