import Persai.ChannelBinding.Metadata

/-!
# The statements of a web turn attempt

`WebChatTurnAttemptService` on the row of one `clientTurnId`. Each database statement is a step of
its own; between two of them any other request may act on the row. A request is where its next
statement is, with what it has read. The activity that is shown while a turn runs is left out, and
so is the idle-pause stamp after a terminal write.
-/

namespace Persai.WebTurnAttempt

open ChannelBinding (CompletedWebTurnReplayState)

inductive AttemptStatus where
  | accepted
  | running
  | completed
  | failed
  | interrupted
  deriving DecidableEq, Repr

/-- `TERMINAL_STATUSES`. -/
def AttemptStatus.isTerminal : AttemptStatus → Bool
  | .completed | .failed | .interrupted => true
  | .accepted | .running => false

/-- A row of `assistant_web_chat_turn_attempts`. -/
structure Attempt where
  id : String
  surfaceClient : Option String
  status : AttemptStatus
  chatId : Option String
  userMessageId : Option String
  assistantMessageId : Option String
  respondedAt : Option String
  terminalPayload : Option CompletedWebTurnReplayState
  errorCode : Option String
  errorMessage : Option String
  acceptedAt : Option Int
  runningAt : Option Int
  completedAt : Option Int
  failedAt : Option Int
  interruptedAt : Option Int
  updatedAt : Int
  deriving DecidableEq

inductive WebTurnClaimResult where
  | claimed
  | duplicateHandled
  | duplicateInflight
  | duplicateTerminal (terminalStatus : AttemptStatus) (errorCode errorMessage : Option String)
  deriving DecidableEq, Repr

structure ClaimInput where
  claimedAt : Int
  staleAfterMs : Nat
  surfaceClient : Option String

/-- `surfaceClient` is `none` where it is `undefined`. -/
structure RunningInput where
  chatId : String
  userMessageId : Option String
  surfaceClient : Option (Option String)

structure CompletedInput where
  assistantMessageId : String
  respondedAt : String
  terminalPayload : CompletedWebTurnReplayState
  healFailedAsyncContinuation : Bool

/-- What `markTerminalFailure` is given; `assistantMessageId` is `none` where it is `undefined`. -/
structure TerminalInput where
  interrupted : Bool
  assistantMessageId : Option (Option String)
  code : Option String
  message : Option String

/-- What a call came to. -/
inductive Result where
  | claim (result : WebTurnClaimResult)
  | bound (assistantMessageId : Option String)
  | winner (assistantMessageId : Option String)
  | void
  /-- The database throws: no row to update, or a second row under one key. -/
  | recordNotFound
  | uniqueViolation
  deriving DecidableEq, Repr

/-- Where a request is. -/
inductive Request where
  | idle
  | claimUpdate (existing : Attempt) (input : ClaimInput)
  | claimCreate (input : ClaimInput)
  | bindFind
  | completeUpdateUnbound (input : CompletedInput)
  | completeFind (input : CompletedInput)
  | completeUpdate (input : CompletedInput) (winner : String)
  | failUpdateUnbound (input : TerminalInput) (prior : Option Attempt)
  | failFind (input : TerminalInput)
  | failUpdate (input : TerminalInput) (winner : String)
  | returned (result : Result)

/-- A statement on the row of the key: the row after it, and where the request then is. -/
abbrev Effect := Option Attempt × Request

/-! ## claim -/

/-- `findUnique` of `claim`, and what is made of the row. -/
def claim (row : Option Attempt) (input : ClaimInput) : Effect :=
  (row, match row with
    | none => .claimCreate input
    | some existing =>
      match existing.status with
      | .completed => .returned (.claim .duplicateHandled)
      | .failed | .interrupted =>
        .returned (.claim
          (.duplicateTerminal existing.status existing.errorCode existing.errorMessage))
      | .accepted | .running =>
        let runningAt := (existing.runningAt.or existing.acceptedAt).getD existing.updatedAt
        if input.claimedAt - runningAt < input.staleAfterMs then
          .returned (.claim .duplicateInflight)
        else .claimUpdate existing input)

/-- `update({ where: { id: existing.id } })`. -/
def claimUpdate (row : Option Attempt) (now : Int) (existing : Attempt) (input : ClaimInput) :
    Effect :=
  match row with
  | none => (none, .returned .recordNotFound)
  | some current =>
    if current.id = existing.id then
      (some { current with
        status := .accepted
        acceptedAt := some input.claimedAt
        runningAt := none
        completedAt := none
        failedAt := none
        interruptedAt := none
        errorCode := none
        errorMessage := none
        surfaceClient := input.surfaceClient.or existing.surfaceClient
        updatedAt := now }, .returned (.claim .claimed))
    else (row, .returned .recordNotFound)

def claimCreate (row : Option Attempt) (id : String) (now : Int) (input : ClaimInput) : Effect :=
  match row with
  | some current => (some current, .returned .uniqueViolation)
  | none =>
    (some {
      id
      surfaceClient := input.surfaceClient
      status := .accepted
      chatId := none
      userMessageId := none
      assistantMessageId := none
      respondedAt := none
      terminalPayload := none
      errorCode := none
      errorMessage := none
      acceptedAt := some input.claimedAt
      runningAt := none
      completedAt := none
      failedAt := none
      interruptedAt := none
      updatedAt := now }, .returned (.claim .claimed))

/-! ## markRunning -/

/-- The update is by the key of the row, whatever its status. -/
def markRunning (row : Option Attempt) (now : Int) (input : RunningInput) : Effect :=
  match row with
  | none => (none, .returned .recordNotFound)
  | some current =>
    (some { current with
      status := .running
      chatId := some input.chatId
      userMessageId := input.userMessageId
      runningAt := some now
      surfaceClient := input.surfaceClient.getD current.surfaceClient
      updatedAt := now }, .returned .void)

/-! ## Guarded statements -/

/-- `status: { in: ["accepted", "running"] }`. -/
def isActive (attempt : Attempt) : Bool := !attempt.status.isTerminal

/-- `updateMany`: the row after it, and the count. -/
def updateMany (row : Option Attempt) (guard : Attempt → Bool) (data : Attempt → Attempt) :
    Option Attempt × Bool :=
  match row with
  | none => (none, false)
  | some current => if guard current then (some (data current), true) else (some current, false)

def bindAssistantMessageId (row : Option Attempt) (now : Int) (assistantMessageId : String) :
    Effect :=
  let updated := updateMany row
    (fun current => isActive current && current.assistantMessageId.isNone)
    fun current => { current with
      assistantMessageId := some assistantMessageId
      updatedAt := now }
  (updated.1, if updated.2 then .returned (.bound (some assistantMessageId))
    else .bindFind)

/-- The message that the row is bound to, if there is one. -/
def boundMessage (row : Option Attempt) : Option String := row.bind Attempt.assistantMessageId

def bindFind (row : Option Attempt) : Effect := (row, .returned (.bound (boundMessage row)))

/-- The deletion of an attempt of an async continuation that is not terminal. -/
def abandonPreAcceptanceAttempt (row : Option Attempt) : Effect :=
  (row.filter fun current =>
    !(isActive current && current.surfaceClient == some "async_continuation"), .returned .void)

/-! ## markCompleted -/

def completable (input : CompletedInput) (current : Attempt) : Bool :=
  isActive current || input.healFailedAsyncContinuation && current.status == .failed

/-- `terminalData` of `markCompleted`. -/
def completedData (now : Int) (input : CompletedInput) (winner : String) (bind : Bool)
    (current : Attempt) : Attempt :=
  { current with
    status := .completed
    assistantMessageId := if bind then some winner else current.assistantMessageId
    respondedAt := some input.respondedAt
    terminalPayload := some { input.terminalPayload with assistantMessageId := winner }
    completedAt := some now
    failedAt := none
    errorCode := none
    errorMessage := none
    updatedAt := now }

/-- The read before the writes is for the idle-pause stamp only. -/
def markCompleted (row : Option Attempt) (input : CompletedInput) : Effect :=
  (row, .completeUpdateUnbound input)

def completeUpdateUnbound (row : Option Attempt) (now : Int) (input : CompletedInput) : Effect :=
  let updated := updateMany row
    (fun current => completable input current && current.assistantMessageId.isNone)
    (completedData now input input.assistantMessageId true)
  (updated.1, if updated.2 then .returned (.winner (some input.assistantMessageId))
    else .completeFind input)

def completeFind (row : Option Attempt) (input : CompletedInput) : Effect :=
  (row, match boundMessage row with
    | some winner => .completeUpdate input winner
    | none => .returned (.winner none))

def completeUpdate (row : Option Attempt) (now : Int) (input : CompletedInput) (winner : String) :
    Effect :=
  let updated := updateMany row
    (fun current => completable input current && current.assistantMessageId == some winner)
    (completedData now input winner false)
  (updated.1, .returned (.winner (if updated.2 then some winner else none)))

/-! ## markFailed and markInterrupted -/

/-- `terminalData` of `markTerminalFailure`. -/
def failureData (now : Int) (input : TerminalInput) (bind : Bool) (current : Attempt) : Attempt :=
  { current with
    status := if input.interrupted then .interrupted else .failed
    assistantMessageId :=
      match input.assistantMessageId with
      | some assistantMessageId =>
        if bind then assistantMessageId else current.assistantMessageId
      | none => current.assistantMessageId
    errorCode := input.code
    errorMessage := input.message
    failedAt := if input.interrupted then current.failedAt else some now
    interruptedAt := if input.interrupted then some now else current.interruptedAt
    updatedAt := now }

/-- `findActiveAttemptIdentity`. -/
def markTerminalFailure (row : Option Attempt) (input : TerminalInput) : Effect :=
  (row, .failUpdateUnbound input (row.filter isActive))

def markFailed (row : Option Attempt) (code message : String) : Effect :=
  markTerminalFailure row ⟨false, none, some code, some message⟩

def markInterrupted (row : Option Attempt) (assistantMessageId : Option (Option String))
    (code message : Option String) : Effect :=
  markTerminalFailure row ⟨true, assistantMessageId, code, message⟩

/-- `prior` is for the returned message only. -/
def failUpdateUnbound (row : Option Attempt) (now : Int) (input : TerminalInput)
    (prior : Option Attempt) : Effect :=
  let updated := updateMany row
    (fun current => isActive current &&
      (input.assistantMessageId.isNone || current.assistantMessageId.isNone))
    (failureData now input true)
  (updated.1,
    if updated.2 then
      .returned (.winner (input.assistantMessageId.join.or (boundMessage prior)))
    else if input.assistantMessageId.isSome then .failFind input
    else .returned (.winner none))

def failFind (row : Option Attempt) (input : TerminalInput) : Effect :=
  (row, match boundMessage row with
    | some winner => .failUpdate input winner
    | none => .returned (.winner none))

def failUpdate (row : Option Attempt) (now : Int) (input : TerminalInput) (winner : String) :
    Effect :=
  let updated := updateMany row
    (fun current => isActive current && current.assistantMessageId == some winner)
    (failureData now input false)
  (updated.1, .returned (.winner (if updated.2 then some winner else none)))

/-! ## Requests -/

/-- The next statement of a request that has begun. `id` is what a new row would be given. -/
def Request.nextStatement (row : Option Attempt) (id : String) (now : Int) : Request → Effect
  | .claimUpdate existing input => WebTurnAttempt.claimUpdate row now existing input
  | .claimCreate input => WebTurnAttempt.claimCreate row id now input
  | .bindFind => WebTurnAttempt.bindFind row
  | .completeUpdateUnbound input => WebTurnAttempt.completeUpdateUnbound row now input
  | .completeFind input => WebTurnAttempt.completeFind row input
  | .completeUpdate input winner => WebTurnAttempt.completeUpdate row now input winner
  | .failUpdateUnbound input prior => WebTurnAttempt.failUpdateUnbound row now input prior
  | .failFind input => WebTurnAttempt.failFind row input
  | .failUpdate input winner => WebTurnAttempt.failUpdate row now input winner
  | .idle => (row, .idle)
  | .returned result => (row, .returned result)

/-- The first statement of a call. -/
inductive Call where
  | claim (input : ClaimInput)
  | markRunning (input : RunningInput)
  | bindAssistantMessageId (assistantMessageId : String)
  | abandonPreAcceptanceAttempt
  | markCompleted (input : CompletedInput)
  | markFailed (code message : String)
  | markInterrupted (assistantMessageId : Option (Option String)) (code message : Option String)

def Call.firstStatement (row : Option Attempt) (now : Int) : Call → Effect
  | .claim input => WebTurnAttempt.claim row input
  | .markRunning input => WebTurnAttempt.markRunning row now input
  | .bindAssistantMessageId assistantMessageId =>
    WebTurnAttempt.bindAssistantMessageId row now assistantMessageId
  | .abandonPreAcceptanceAttempt => WebTurnAttempt.abandonPreAcceptanceAttempt row
  | .markCompleted input => WebTurnAttempt.markCompleted row input
  | .markFailed code message => WebTurnAttempt.markFailed row code message
  | .markInterrupted assistantMessageId code message =>
    WebTurnAttempt.markInterrupted row assistantMessageId code message

/-- The row of the key, if it is there, and the requests by number. -/
structure System where
  row : Option Attempt
  requests : Nat → Request

inductive Event where
  | call (request : Nat) (call : Call) (now : Int)
  | next (request : Nat) (id : String) (now : Int)

namespace System

def perform (s : System) (request : Nat) (effect : Effect) : System where
  row := effect.1
  requests := Function.update s.requests request effect.2

/-- One statement. -/
def step (s : System) : Event → System
  | .call request call now => s.perform request (call.firstStatement s.row now)
  | .next request id now => s.perform request ((s.requests request).nextStatement s.row id now)

end System

end Persai.WebTurnAttempt
