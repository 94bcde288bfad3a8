import Mathlib.Data.List.Sort
import Mathlib.Logic.Function.Basic
import Persai.KeyedTable
import Persai.ModelCost.Usage

/-!
# The delivery of notifications

The statements of `processBatch` and `deliverIntentNow`, of any number of processes, on the tables
of the intents, the delivery attempts and the dead letters; `sent` lists the calls of an adapter's
`deliver`. Each statement sees what was committed before it.
-/

namespace Persai.Notifications

open ModelCost (Value Row)

/-! ## The rows -/

inductive Priority | immediate | scheduled | digest | skippable
  deriving DecidableEq, Repr

def Priority.rank : Priority → Nat
  | .immediate => 0
  | .scheduled => 1
  | .digest => 2
  | .skippable => 3

inductive LifecycleStatus
  | pending | claimed | delivered | failed | deadLetter | skipped
  | deferredQuietHours | deferredRateLimit
  deriving DecidableEq, Repr

/-- What the worker reads and writes of a row of `notification_intents`; times are milliseconds. -/
structure Intent where
  priority : Priority
  lifecycleStatus : LifecycleStatus
  policySnapshot : Value
  allowedChannels : List String
  escalationChannel : Option String
  assistantId : Option String
  surface : Option String
  scheduledAt : Option Int
  createdAt : Int
  claimedAt : Option Int
  deliveredAt : Option Int
  deadLetteredAt : Option Int
  failureReason : Option String

def LifecycleStatus.waits : LifecycleStatus → Bool
  | .pending | .deferredQuietHours | .deferredRateLimit => true
  | _ => false

/-- What both claims ask of a row. -/
def Intent.claimable (intent : Intent) : Bool :=
  intent.lifecycleStatus.waits && intent.claimedAt.isNone

def Intent.due (intent : Intent) (now : Int) : Bool :=
  intent.claimable && intent.scheduledAt.all (· ≤ now)

def Intent.claim (now : Int) (intent : Intent) : Intent :=
  { intent with lifecycleStatus := .claimed, claimedAt := some now }

inductive AttemptStatus | pending | delivered | failed | bounced
  deriving DecidableEq, Repr

structure Attempt where
  intentId : String
  attemptNumber : Nat
  channel : String
  status : AttemptStatus
  providerRef : Option String
  error : Option Value
  escalationOf : Option Nat
  startedAt : Int
  completedAt : Option Int

/-- The row of an attempt as it is created. -/
def newAttempt (intentId : String) (attemptNumber : Nat) (channel : String)
    (escalationOf : Option Nat) (startedAt : Int) : Attempt where
  intentId
  attemptNumber
  channel
  status := .pending
  providerRef := none
  error := none
  escalationOf
  startedAt
  completedAt := none

structure DeadLetter where
  lastError : Value
  escalationAttempts : Nat

/-! ## Where an intent goes -/

/-- What a delivery reads beside the intent: the assistant's preference, its telegram binding, the
reason why a channel is not available, and the channels that have an adapter. -/
structure Surroundings where
  preferredNotificationChannel : Option String
  hasActiveTelegramBinding : Bool
  unavailable : String → Option String
  adapters : List String

def Intent.expandSemanticChannel (intent : Intent) (env : Surroundings) (channel : String) :
    Option String :=
  if channel = "user_preferred" then
    let preferred := (intent.assistantId.bind fun _ => env.preferredNotificationChannel).getD "web"
    if preferred = "telegram" then
      if env.hasActiveTelegramBinding then some "telegram_thread" else none
    else some "web_notification_center"
  else if channel = "current_thread" then
    if intent.surface = some "telegram" then some "telegram_thread"
    else if intent.surface = some "web" then some "web_thread"
    else none
  else some channel

/-- A channel that is there, in the sense of a condition on a string. -/
def given (channel : Option String) : Option String := channel.filter (!·.isEmpty)

def formatChannelUnavailable (channelType reason : String) : String :=
  "channel_not_configured:" ++ channelType ++ ":" ++ reason

/-- Why a channel can not be delivered to. -/
def Surroundings.obstacle (env : Surroundings) (channel : String) : Option String :=
  match env.unavailable channel with
  | some reason => some (formatChannelUnavailable channel reason)
  | none => if channel ∈ env.adapters then none else some ("adapter_not_found:" ++ channel)

/-- What `deliverIntent` does before its first attempt. -/
inductive Route where
  | markFailed (reason : String)
  | tryEscalation (channel : String)
  | attempt (primaryChannel : String)

def policyDisabled : Value → Bool
  | .object snapshot =>
    match snapshot "enabled" with
    | .boolean enabled => !enabled
    | _ => false
  | _ => false

def Intent.route (intent : Intent) (env : Surroundings) : Route :=
  if policyDisabled intent.policySnapshot then .markFailed "policy_disabled"
  else
    match given intent.allowedChannels.head? with
    | none => .markFailed "no_channel_configured"
    | some rawChannel =>
      match intent.expandSemanticChannel env rawChannel with
      | none =>
        let failureReason :=
          if rawChannel = "current_thread" then "current_thread_context_missing"
          else "user_preferred_unavailable"
        match given intent.escalationChannel with
        | some escalation =>
          if escalation ≠ rawChannel then .tryEscalation escalation else .markFailed failureReason
        | none => .markFailed failureReason
      | some primaryChannel =>
        match env.obstacle primaryChannel with
        | some reason => .markFailed reason
        | none => .attempt primaryChannel

/-! ## The processes -/

inductive DeliveryStatus | delivered | failed | bounced | complaint
  deriving DecidableEq, Repr

def DeliveryStatus.toString : DeliveryStatus → String
  | .delivered => "delivered"
  | .failed => "failed"
  | .bounced => "bounced"
  | .complaint => "complaint"

structure DeliveryResult where
  status : DeliveryStatus
  providerRef : Option String
  error : Option Value

/-- The row of an attempt after its result; the final status is given. -/
def DeliveryResult.complete (result : DeliveryResult) (status : AttemptStatus) (completedAt : Int)
    (row : Attempt) : Attempt :=
  if status = .delivered then
    { row with status, providerRef := result.providerRef, completedAt := some completedAt }
  else { row with status, error := result.error, completedAt := some completedAt }

/-- `{ reason }`. -/
def reasonObject (reason : String) : Value :=
  .object fun key => if key = "reason" then .string reason else .undefined

/-- How far `deliverIntent` is. -/
inductive Stage where
  | begun
  | attempting (primaryChannel : String) (attempt : Nat)
  | delivering (primaryChannel : String) (attempt : Nat)
  | escalating (escalationChannel : String) (primaryAttempt : Option Nat)
  | attemptingEscalation (escalationChannel : String) (attempt : Nat)
  | deliveringEscalation (escalationChannel : String) (attempt : Nat)
  | markingFailed (reason : String)
  | deadLettering (lastError : Value)

/-- A first attempt that is not delivered is escalated, or the intent is dead. -/
def Intent.afterFailure (intent : Intent) (primaryChannel : String) (attempt : Nat)
    (result : DeliveryResult) : Stage :=
  match given intent.escalationChannel with
  | some escalation =>
    if escalation ≠ primaryChannel then .escalating escalation (some attempt)
    else .deadLettering (result.error.getD (reasonObject result.status.toString))
  | none => .deadLettering (result.error.getD (reasonObject result.status.toString))

structure ImmediateNotificationDeliveryResult where
  status : Option LifecycleStatus
  providerRef : Option String
  channel : Option String
  deriving DecidableEq, Repr

/-- `found`: between the two statements of `processBatch`; `claimed`: between the update of
`deliverIntentNow` and its read, with whether the update has matched; `working`: on the first intent
of a list, and the call of `deliverIntentNow` to be answered after the last. -/
inductive Process where
  | idle
  | found (rows : List (String × Intent)) (now : Int)
  | claimed (intentId : String) (matched : Bool)
  | working (rows : List (String × Intent)) (stage : Stage) (answers : Option String)
  | returned (result : ImmediateNotificationDeliveryResult)
  | stopped

/-- A call of an adapter's `deliver`. -/
structure Sent where
  intentId : String
  channel : String
  escalation : Bool
  deriving DecidableEq, Repr

structure System where
  intents : KeyedTable String Intent
  attempts : KeyedTable Nat Attempt
  deadLetters : KeyedTable String DeadLetter
  sent : List Sent
  processes : Nat → Process

inductive Act where
  | findMany (now : Int)
  | updateMany
  | deliverIntentNow (intentId : String) (now : Int)
  | findUnique
  | attempt (env : Surroundings) (now : Int)
  | deliver
  | deliverReturns (result : DeliveryResult) (completedAt deliveredAt : Int)
  | throw (error : String)
  | mark (now : Int)
  | finish
  | stop

structure Event where
  process : Nat
  act : Act

namespace System

/-- No process has begun, and nothing is sent. -/
def start (intents : KeyedTable String Intent) : System :=
  ⟨intents, ∅, ∅, [], fun _ => .idle⟩

def workerBatchSize : Nat := 10

/-- The rows that `processBatch` finds, `priority` and `createdAt` ascending. -/
def findMany (s : System) (now : Int) : List (String × Intent) :=
  ((s.intents.select fun _ intent => intent.due now).insertionSort fun a b =>
    a.2.priority.rank < b.2.priority.rank ∨
      a.2.priority = b.2.priority ∧ a.2.createdAt ≤ b.2.createdAt).take workerBatchSize

/-- A claim of a row that asks again whether it can be claimed. -/
def claimOne (s : System) (intentId : String) (now : Int) : System :=
  { s with
    intents := s.intents.updateWhere (fun id intent => id == intentId && intent.claimable)
      (·.claim now) }

def claimAll (s : System) (ids : List String) (now : Int) : System :=
  { s with intents := s.intents.updateWhere (fun id _ => ids.contains id) (·.claim now) }

def claimable (s : System) (intentId : String) : Bool :=
  (s.intents.get? intentId).any (·.claimable)

def createAttempt (s : System) (intentId : String) (attemptNumber : Nat) (channel : String)
    (escalationOf : Option Nat) (now : Int) : System :=
  { s with
    attempts := s.attempts.put s.attempts.rows.length
      (newAttempt intentId attemptNumber channel escalationOf now) }

def completeAttempt (s : System) (attempt : Nat) (status : AttemptStatus)
    (result : DeliveryResult) (completedAt : Int) : System :=
  { s with attempts := s.attempts.update attempt (result.complete status completedAt) }

def markDelivered (s : System) (intentId : String) (now : Int) : System :=
  { s with
    intents := s.intents.update intentId fun intent =>
      { intent with lifecycleStatus := .delivered, deliveredAt := some now } }

def markFailed (s : System) (intentId reason : String) : System :=
  { s with
    intents := s.intents.update intentId fun intent =>
      { intent with lifecycleStatus := .failed, failureReason := some reason } }

def markDeadLetter (s : System) (intentId : String) (intent : Intent) (lastError : Value)
    (now : Int) : System :=
  { s with
    intents := s.intents.update intentId fun intent =>
      { intent with lifecycleStatus := .deadLetter, deadLetteredAt := some now }
    deadLetters := s.deadLetters.upsert intentId
      ⟨lastError, if (given intent.escalationChannel).isSome then 1 else 0⟩
      fun row => { row with lastError, escalationAttempts := row.escalationAttempts + 1 } }

/-- The attempt that `deliverIntentNow` reports. -/
def latestAttempt (s : System) (intentId : String) : Option Attempt :=
  (((s.attempts.select fun _ attempt => attempt.intentId == intentId).map Prod.snd).insertionSort
    fun a b => b.attemptNumber < a.attemptNumber ∨
      a.attemptNumber = b.attemptNumber ∧ b.startedAt ≤ a.startedAt).head?

def report (s : System) (intentId : String) : ImmediateNotificationDeliveryResult where
  status := (s.intents.get? intentId).map (·.lifecycleStatus)
  providerRef := (s.latestAttempt intentId).bind (·.providerRef)
  channel := (s.latestAttempt intentId).map (·.channel)

/-- The statement of a process: what it does to the tables and the calls, and the process after
it. -/
def statement (s : System) (process : Process) (act : Act) : System × Process :=
  match act, process with
  | .stop, _ => (s, .stopped)
  | .findMany now, .idle =>
    let rows := s.findMany now
    (s, if rows.isEmpty then .idle else .found rows now)
  | .updateMany, .found rows now =>
    (s.claimAll (rows.map Prod.fst) now, .working rows .begun none)
  | .deliverIntentNow intentId now, .idle =>
    (s.claimOne intentId now, .claimed intentId (s.claimable intentId))
  | .findUnique, .claimed intentId _ =>
    match s.intents.get? intentId with
    | none => (s, .returned ⟨none, none, none⟩)
    | some row =>
      if row.lifecycleStatus = .claimed then
        (s, .working [(intentId, row)] .begun (some intentId))
      else (s, .working [] .begun (some intentId))
  | .finish, .working [] _ answers =>
    (s, match answers with
      | none => .idle
      | some intentId => .returned (s.report intentId))
  | .attempt env now, .working ((id, intent) :: rows) .begun answers =>
    match intent.route env with
    | .markFailed reason => (s, .working ((id, intent) :: rows) (.markingFailed reason) answers)
    | .tryEscalation channel =>
      (s, .working ((id, intent) :: rows) (.escalating channel none) answers)
    | .attempt primaryChannel =>
      (s.createAttempt id 1 primaryChannel none now,
        .working ((id, intent) :: rows)
          (.attempting primaryChannel s.attempts.rows.length) answers)
  | .attempt env now, .working ((id, intent) :: rows) (.escalating channel primary) answers =>
    match env.obstacle channel with
    | some reason =>
      (s, .working ((id, intent) :: rows)
        (.deadLettering (reasonObject ("escalation_channel_unavailable:" ++ reason))) answers)
    | none =>
      (s.createAttempt id 2 channel primary now,
        .working ((id, intent) :: rows)
          (.attemptingEscalation channel s.attempts.rows.length) answers)
  | .deliver, .working ((id, intent) :: rows) (.attempting channel attempt) answers =>
    ({ s with sent := ⟨id, channel, false⟩ :: s.sent },
      .working ((id, intent) :: rows) (.delivering channel attempt) answers)
  | .deliver, .working ((id, intent) :: rows) (.attemptingEscalation channel attempt) answers =>
    ({ s with sent := ⟨id, channel, true⟩ :: s.sent },
      .working ((id, intent) :: rows) (.deliveringEscalation channel attempt) answers)
  | .deliverReturns result completedAt deliveredAt,
      .working ((id, intent) :: rows) (.delivering channel attempt) answers =>
    if result.status = .delivered then
      ((s.completeAttempt attempt .delivered result completedAt).markDelivered id deliveredAt,
        .working rows .begun answers)
    else
      let status := if result.status = .bounced then .bounced else .failed
      (s.completeAttempt attempt status result completedAt,
        .working ((id, intent) :: rows) (intent.afterFailure channel attempt result) answers)
  | .deliverReturns result completedAt deliveredAt,
      .working ((id, intent) :: rows) (.deliveringEscalation _ attempt) answers =>
    if result.status = .delivered then
      ((s.completeAttempt attempt .delivered result completedAt).markDelivered id deliveredAt,
        .working rows .begun answers)
    else
      (s.completeAttempt attempt .failed result completedAt,
        .working ((id, intent) :: rows)
          (.deadLettering
            (result.error.getD (reasonObject ("escalation_failed:" ++ result.status.toString))))
          answers)
  | .throw error, .working (row :: rows) _ answers =>
    (s, .working (row :: rows)
      (.markingFailed ("worker_error:" ++ String.ofList (takeUnits 200 error.toList))) answers)
  | .mark _, .working ((id, _) :: rows) (.markingFailed reason) answers =>
    (s.markFailed id reason, .working rows .begun answers)
  | .mark now, .working ((id, intent) :: rows) (.deadLettering lastError) answers =>
    (s.markDeadLetter id intent lastError now, .working rows .begun answers)
  | _, process => (s, process)

def step (s : System) (e : Event) : System :=
  let (s', next) := s.statement (s.processes e.process) e.act
  { s' with processes := Function.update s.processes e.process next }

end System

end Persai.Notifications
