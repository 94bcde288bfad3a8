import Mathlib.Logic.Function.Basic
import Persai.Runs

/-!
# Attempts at an assistant

One assistant on one surface. Each attempt is counted in a row of its user and in a row of the
assistant, both counters decide, and what they decide is written to both rows. A `Date` is its
milliseconds.
-/

namespace Persai.AbuseGuard

/-- `AbuseDecisionSnapshot`. -/
structure AbuseDecisionSnapshot where
  blockedUntil : Option Int
  slowedUntil : Option Int
  reason : Option String
  deriving DecidableEq, Repr

/-- What `AssistantAbuseGuardState` and `AssistantAbuseAssistantState` have in common. -/
structure Row where
  windowStartedAt : Int
  requestCount : Nat
  slowedUntil : Option Int
  blockedUntil : Option Int
  blockReason : Option String
  adminOverrideUntil : Option Int
  lastSeenAt : Int
  deriving DecidableEq, Repr

/-- The settings of `RegisterDistributedAbuseAttemptInput`. -/
structure Settings where
  windowMs : Nat
  userSlowdownRequestsPerMinute : Nat
  userBlockRequestsPerMinute : Nat
  assistantSlowdownRequestsPerMinute : Nat
  assistantBlockRequestsPerMinute : Nat
  tempBlockSeconds : Nat
  slowdownSeconds : Nat
  deriving Repr

variable {υ : Type} [DecidableEq υ]

structure Attempt (υ : Type) where
  userId : υ
  attemptedAt : Int
  deriving DecidableEq, Repr

/-- `RegisterDistributedAbuseAttemptResult`, without the rows. -/
structure Result where
  userBypass : Bool
  assistantBypass : Bool
  finalBlockedUntil : Option Int
  finalSlowedUntil : Option Int
  finalReason : Option String
  deriving DecidableEq, Repr

/-- The rows, and the attempts registered so far with their results. -/
structure State (υ : Type) where
  userRows : υ → Option Row := fun _ => none
  assistantRow : Option Row := none
  registered : List (Attempt υ × Result) := []

def maxDate (a b : Option Int) : Option Int :=
  match a, b with
  | none, b => b
  | some a, none => some a
  | some a, some b => some (if b ≤ a then a else b)

def legacyQuotaPressureBlockReasons : List String :=
  ["quota_pressure_temporary_block", "quota_pressure_slowdown"]

def clearLegacyQuotaPressureDecision (persisted : Row) : AbuseDecisionSnapshot :=
  if persisted.blockReason.getD "" ∈ legacyQuotaPressureBlockReasons then
    { blockedUntil := none, slowedUntil := none, reason := none }
  else
    { blockedUntil := persisted.blockedUntil
      slowedUntil := persisted.slowedUntil
      reason := persisted.blockReason }

/-- `lockOrCreateUserStateRow` and `lockOrCreateAssistantStateRow`. -/
def lockOrCreateRow (c : Settings) (existing : Option Row) (attemptedAt : Int) : Row :=
  match existing with
  | some row => row
  | none => {
      windowStartedAt := attemptedAt - c.windowMs - 1
      requestCount := 0
      slowedUntil := none
      blockedUntil := none
      blockReason := none
      adminOverrideUntil := none
      lastSeenAt := attemptedAt }

namespace Row

def bypass (row : Row) (attemptedAt : Int) : Bool :=
  row.adminOverrideUntil.any fun override => attemptedAt < override

/-- `userWindowStartedAt` and `assistantWindowStartedAt`. -/
def windowAt (row : Row) (c : Settings) (attemptedAt : Int) : Int :=
  if c.windowMs < attemptedAt - row.windowStartedAt then attemptedAt else row.windowStartedAt

/-- `userCount` and `assistantCount`. -/
def countAt (row : Row) (c : Settings) (attemptedAt : Int) : Nat :=
  if row.windowAt c attemptedAt = attemptedAt then 1 else row.requestCount + 1

/-- `userDecision` and `assistantDecision`: the thresholds, and the name in the reasons. -/
def decision (row : Row) (c : Settings) (attemptedAt : Int) (block slowdown : Nat)
    (name : String) : AbuseDecisionSnapshot :=
  let baseline := clearLegacyQuotaPressureDecision row
  if row.bypass attemptedAt then baseline
  else if block ≤ row.countAt c attemptedAt then
    { blockedUntil := some (attemptedAt + c.tempBlockSeconds * 1000)
      slowedUntil := none
      reason := some (name ++ "_request_rate_limit_blocked") }
  else if slowdown ≤ row.countAt c attemptedAt then
    { blockedUntil := none
      slowedUntil := some (attemptedAt + c.slowdownSeconds * 1000)
      reason := some (name ++ "_request_rate_limit_slowdown") }
  else baseline

def userDecision (row : Row) (c : Settings) (attemptedAt : Int) : AbuseDecisionSnapshot :=
  row.decision c attemptedAt c.userBlockRequestsPerMinute c.userSlowdownRequestsPerMinute "user"

def assistantDecision (row : Row) (c : Settings) (attemptedAt : Int) : AbuseDecisionSnapshot :=
  row.decision c attemptedAt c.assistantBlockRequestsPerMinute
    c.assistantSlowdownRequestsPerMinute "assistant"

/-- What an attempt writes to a row. -/
def saved (row : Row) (c : Settings) (attemptedAt : Int) (result : Result) : Row where
  windowStartedAt := row.windowAt c attemptedAt
  requestCount := row.countAt c attemptedAt
  slowedUntil := result.finalSlowedUntil
  blockedUntil := result.finalBlockedUntil
  blockReason := result.finalReason
  adminOverrideUntil := if row.bypass attemptedAt then row.adminOverrideUntil else none
  lastSeenAt := attemptedAt

end Row

namespace State

variable (c : Settings) (s : State υ) (a : Attempt υ)

/-- `userState` and `assistantState`. -/
def userState : Row := lockOrCreateRow c (s.userRows a.userId) a.attemptedAt

def assistantState : Row := lockOrCreateRow c s.assistantRow a.attemptedAt

/-- What an attempt is answered. -/
def outcome : Result :=
  let userDecision := (s.userState c a).userDecision c a.attemptedAt
  let assistantDecision := (s.assistantState c a).assistantDecision c a.attemptedAt
  { userBypass := (s.userState c a).bypass a.attemptedAt
    assistantBypass := (s.assistantState c a).bypass a.attemptedAt
    finalBlockedUntil := maxDate userDecision.blockedUntil assistantDecision.blockedUntil
    finalSlowedUntil := maxDate userDecision.slowedUntil assistantDecision.slowedUntil
    finalReason := assistantDecision.reason.or userDecision.reason }

/-- `registerDistributedAttemptTx`. -/
def registerDistributedAttempt : State υ :=
  let result := s.outcome c a
  { userRows := Function.update s.userRows a.userId
      (some ((s.userState c a).saved c a.attemptedAt result))
    assistantRow := some ((s.assistantState c a).saved c a.attemptedAt result)
    registered := s.registered ++ [(a, result)] }

end State

end Persai.AbuseGuard
