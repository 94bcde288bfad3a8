import Persai.Faults
import Persai.Notifications.Worker

/-!
# One execution of `deliverIntent`

The statements and the calls of one execution, each of which may throw, on the row of the intent,
the attempts it creates, the dead letter of the intent and the registry row of its primary channel.
The handler around the whole marks the intent failed.
-/

namespace Persai.Notifications

open Faults
open ModelCost (Value)

/-! ## The calls -/

/-- What the calls of one attempt do; a call without a result throws the error it holds. -/
structure Leg where
  resolveChannel : Except String Unit
  registryFindUnique : Except String Unit
  render : Except String Unit
  attemptCreate : Outcome
  deliver : Except String DeliveryResult
  deliveredTransaction : Outcome
  attemptUpdate : Outcome
  startedAt : Int
  completedAt : Int
  deliveredAt : Int

/-- What the calls of an execution do. `handlerMarkFailed` is the statement of the handler. -/
structure Calls where
  assistantFindUnique : Except String Unit
  bindingFindFirst : Except String Unit
  primary : Leg
  registryUpdate : Outcome
  lastFailureAt : Int
  escalation : Leg
  markFailed : Outcome
  markDeadLetter : Outcome
  deadLetteredAt : Int
  handlerMarkFailed : Outcome

def Leg.newAttempt (leg : Leg) (intentId : String) (attemptNumber : Nat) (channel : String)
    (escalationOf : Option Nat) : Attempt :=
  Notifications.newAttempt intentId attemptNumber channel escalationOf leg.startedAt

/-! ## The rows -/

/-- What a delivery reads and writes of a row of `notification_channel_registry`. -/
structure ChannelRow where
  consecutiveFailures : Nat
  lastDeliveryAt : Option Int
  lastFailureAt : Option Int
  healthStatus : String

def ChannelRow.delivered (date : Int) (row : ChannelRow) : ChannelRow :=
  { row with consecutiveFailures := 0, lastDeliveryAt := some date, healthStatus := "healthy" }

def ChannelRow.failed (date : Int) (row : ChannelRow) : ChannelRow :=
  { row with
    consecutiveFailures := row.consecutiveFailures + 1
    lastFailureAt := some date }

/-- A row of the attempts, and what the adapter has returned for it. -/
structure Tried where
  row : Attempt
  answer : Option DeliveryResult

structure Delivery where
  intent : Intent
  attempts : List Tried
  deadLetter : Option DeadLetter
  channelRow : Option ChannelRow

namespace Delivery

def start (intent : Intent) (deadLetter : Option DeadLetter) (channelRow : Option ChannelRow) :
    Delivery :=
  ⟨intent, [], deadLetter, channelRow⟩

def createAttempt (d : Delivery) (row : Attempt) : Delivery :=
  { d with attempts := d.attempts ++ [⟨row, none⟩] }

def answer (d : Delivery) (attempt : Nat) (result : DeliveryResult) : Delivery :=
  { d with attempts := d.attempts.modify attempt fun t => { t with answer := some result } }

def completeAttempt (d : Delivery) (attempt : Nat) (status : AttemptStatus)
    (result : DeliveryResult) (completedAt : Int) : Delivery :=
  { d with
    attempts := d.attempts.modify attempt fun t =>
      { t with row := result.complete status completedAt t.row } }

def markDelivered (d : Delivery) (deliveredAt : Int) : Delivery :=
  { d with
    intent := { d.intent with lifecycleStatus := .delivered, deliveredAt := some deliveredAt } }

def markFailed (d : Delivery) (reason : String) : Delivery :=
  { d with intent := { d.intent with lifecycleStatus := .failed, failureReason := some reason } }

/-- `intent` is the record of the claim, the row of the table is written. -/
def markDeadLetter (d : Delivery) (intent : Intent) (lastError : Value) (deadLetteredAt : Int) :
    Delivery :=
  { d with
    intent :=
      { d.intent with lifecycleStatus := .deadLetter, deadLetteredAt := some deadLetteredAt }
    deadLetter := some
      (match d.deadLetter with
        | none => ⟨lastError, if (given intent.escalationChannel).isSome then 1 else 0⟩
        | some row => { row with lastError, escalationAttempts := row.escalationAttempts + 1 }) }

def updateChannel (d : Delivery) (write : ChannelRow → ChannelRow) : Delivery :=
  { d with channelRow := d.channelRow.map write }

end Delivery

/-! ## The execution -/

abbrev Execution := Program Delivery

variable (intentId : String) (intent : Intent) (env : Surroundings) (calls : Calls)

def markFailed (outcome : Outcome) (reason : String) : Execution Unit :=
  statement outcome (·.markFailed reason)

def markDeadLetter (lastError : Value) : Execution Unit :=
  statement calls.markDeadLetter (·.markDeadLetter intent lastError calls.deadLetteredAt)

/-- The reads of `expandSemanticChannelForIntent`. -/
def readPreference (channel : String) : Execution Unit :=
  if channel = "user_preferred" ∧ intent.assistantId.isSome then do
    ask calls.assistantFindUnique
    if env.preferredNotificationChannel = some "telegram" then ask calls.bindingFindFirst
  else pure ()

/-- The row of an attempt is created, and the adapter called. -/
def attemptDelivery (leg : Leg) (attemptNumber : Nat) (channel : String)
    (escalationOf : Option Nat) : Execution (Nat × DeliveryResult) := do
  let attempt := (← get).attempts.length
  statement leg.attemptCreate
    (·.createAttempt (leg.newAttempt intentId attemptNumber channel escalationOf))
  let result ← ask leg.deliver
  modify (·.answer attempt result)
  pure (attempt, result)

def tryEscalation (escalationChannel : String) (primaryAttemptId : Option Nat) :
    Execution Unit := do
  let leg := calls.escalation
  ask leg.resolveChannel
  match env.obstacle escalationChannel with
  | some reason =>
    markDeadLetter intent calls (reasonObject ("escalation_channel_unavailable:" ++ reason))
  | none => do
    ask leg.registryFindUnique
    ask leg.render
    let (attempt, result) ←
      attemptDelivery intentId leg 2 escalationChannel primaryAttemptId
    if result.status = .delivered then
      statement leg.deliveredTransaction fun d =>
        (d.completeAttempt attempt .delivered result leg.completedAt).markDelivered leg.deliveredAt
    else do
      statement leg.attemptUpdate (·.completeAttempt attempt .failed result leg.completedAt)
      markDeadLetter intent calls
        (result.error.getD (reasonObject ("escalation_failed:" ++ result.status.toString)))

/-- A first attempt that is not delivered is escalated, or the intent is dead. -/
def escalateFailure (primaryChannel : String) (attempt : Nat) (result : DeliveryResult) :
    Execution Unit :=
  match given intent.escalationChannel with
  | some escalationChannel =>
    if escalationChannel ≠ primaryChannel then
      tryEscalation intentId intent env calls escalationChannel (some attempt)
    else markDeadLetter intent calls (result.error.getD (reasonObject result.status.toString))
  | none => markDeadLetter intent calls (result.error.getD (reasonObject result.status.toString))

/-- What follows once there is a primary channel. -/
def deliverPrimary (primaryChannel : String) : Execution Unit := do
  let leg := calls.primary
  ask leg.resolveChannel
  match env.obstacle primaryChannel with
  | some reason => markFailed calls.markFailed reason
  | none => do
    ask leg.registryFindUnique
    let registered := (← get).channelRow.isSome
    ask leg.render
    let (attempt, result) ← attemptDelivery intentId leg 1 primaryChannel none
    if result.status = .delivered then
      statement leg.deliveredTransaction fun d =>
        ((d.completeAttempt attempt .delivered result leg.completedAt).markDelivered
          leg.deliveredAt).updateChannel (·.delivered leg.deliveredAt)
    else do
      statement leg.attemptUpdate
        (·.completeAttempt attempt (if result.status = .bounced then .bounced else .failed) result
          leg.completedAt)
      if registered then
        statement calls.registryUpdate (·.updateChannel (·.failed calls.lastFailureAt))
      escalateFailure intentId intent env calls primaryChannel attempt result

/-- What the handler of `deliverIntent` is around. -/
def deliverClaimed : Execution Unit := do
  if policyDisabled intent.policySnapshot then markFailed calls.markFailed "policy_disabled"
  else
    match given intent.allowedChannels.head? with
    | none => markFailed calls.markFailed "no_channel_configured"
    | some rawChannel => do
      readPreference intent env calls rawChannel
      match intent.expandSemanticChannel env rawChannel with
      | none =>
        let failureReason :=
          if rawChannel = "current_thread" then "current_thread_context_missing"
          else "user_preferred_unavailable"
        match given intent.escalationChannel with
        | some escalation =>
          if escalation ≠ rawChannel then tryEscalation intentId intent env calls escalation none
          else markFailed calls.markFailed failureReason
        | none => markFailed calls.markFailed failureReason
      | some primaryChannel => deliverPrimary intentId intent env calls primaryChannel

def deliverIntent : Execution Unit :=
  tryCatch (deliverClaimed intentId intent env calls) fun error =>
    markFailed calls.handlerMarkFailed
      ("worker_error:" ++ String.ofList (takeUnits 200 error.toList))

end Persai.Notifications
