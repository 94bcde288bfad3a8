import Persai.JobHandle.Tables

/-!
# What the transactions write into a handle

One definition for each set of columns that a transaction of the handle-state
service writes, and the predicates on a locked row by which it chooses.
-/

namespace Persai.JobHandle

/-- `continuationClientTurnId`, from the hexadecimal SHA-256 of the handle's id. -/
def continuationClientTurnId (digest : Id → String) (id : Id) : String :=
  "async-cont:" ++ String.ofList ((digest id).toList.take 40)

inductive SourceTurnOutcome where
  | persisted | failed | stopped
  deriving DecidableEq, Repr

def TerminalStatus.state : TerminalStatus → HandleState
  | .completed => .completed
  | .failed => .failed
  | .cancelled => .cancelled

def HandleState.terminal (s : HandleState) : Prop := s = .completed ∨ s = .failed ∨ s = .cancelled

instance (s : HandleState) : Decidable s.terminal :=
  inferInstanceAs (Decidable (s = .completed ∨ s = .failed ∨ s = .cancelled))

theorem TerminalStatus.state_terminal (s : TerminalStatus) : s.state.terminal := by
  cases s <;> decide

namespace Handle

/-- `terminalStateData`. -/
def terminalStateData (h : Handle) (status : TerminalStatus) (now : Time) : Handle :=
  match status with
  | .completed => { h with state := .completed, completedAt := some now }
  | .cancelled => { h with state := .cancelled, cancelledAt := some now }
  | .failed => { h with state := .failed, failedAt := some now }

/-- The live turn observes the end of the job and narrates it inline. -/
def claimCurrentTurn (h : Handle) (terminal : CanonicalTerminal) (now : Time) : Handle :=
  { h with
    narrationOwner := some .currentTurn
    narrationDecision := some .currentTurnInline
    narrationDecisionAt := some now
    terminalObservedAt := some now
    terminalSnapshotJson := some (.observed terminal) }.terminalStateData terminal.status now

/-- A continuation owns the narration and has something to narrate. -/
def promote (h : Handle) (now : Time) : Handle :=
  { h with
    state := .ready
    readyAt := some now
    nextRetryAt := some now
    terminalObservedAt := some now }

def subscribedForNotify (h : Handle) : Prop :=
  h.narrationOwner = some .continuation ∧ h.narrationDecision = some .notifySubscribed

instance (h : Handle) : Decidable h.subscribedForNotify :=
  inferInstanceAs (Decidable (_ ∧ _))

/-- The rows `finalizeTerminalHandleInTx` still changes. -/
def openForTerminal (h : Handle) : Prop :=
  h.state = .none ∨ (h.state = .subscribed ∧ h.subscribedForNotify)

instance (h : Handle) : Decidable h.openForTerminal := inferInstanceAs (Decidable (_ ∨ _))

def finalizeTerminal (h : Handle) (terminal : CanonicalTerminal) (now : Time) : Handle :=
  if h.subscribedForNotify then
    { h with terminalSnapshotJson := some (.observed terminal) }.promote now
  else
    { h with
      terminalSnapshotJson := some (.observed terminal)
      terminalObservedAt := some now }.terminalStateData terminal.status now

/-- No further unattended continuation: the handle fails for good. -/
def exhaustDepth (h : Handle) (now : Time) : Handle :=
  { h with
    narrationOwner := some .continuation
    narrationDecision := some .continuationDepthExhausted
    narrationDecisionAt := some now
    state := .failed
    failedAt := some now
    lastErrorCode := some "continuation_depth_exhausted"
    lastErrorMessage := some "The unattended continuation depth limit was reached." }

def openForSubscribe (h : Handle) : Prop := h.state = .none ∨ h.state = .subscribed

instance (h : Handle) : Decidable h.openForSubscribe := inferInstanceAs (Decidable (_ ∨ _))

/-- The continuation takes the narration; the state stays. -/
def notifyContinuation (h : Handle) (now : Time) (clientTurnId : String) : Handle :=
  { h with
    narrationOwner := some .continuation
    narrationDecision := some .notifySubscribed
    narrationDecisionAt := some now
    continuationClientTurnId := some clientTurnId
    maxRetries := asyncContinuationMaxRetries }

def subscribe (h : Handle) (now : Time) (clientTurnId : String) : Handle :=
  { h.notifyContinuation now clientTurnId with state := .subscribed }

/-- A historical `legacy` row is upgraded where it stands. -/
def upgradeLegacy (h : Handle) (now : Time) (clientTurnId : String) : Handle :=
  if h.openForSubscribe then h.subscribe now clientTurnId
  else h.notifyContinuation now clientTurnId

/-- Already presented on the live bubble of an interrupted turn. -/
def deliveredCurrentTurnInline (h : Handle) : Prop :=
  h.narrationOwner = some .currentTurn ∧ h.narrationDecision = some .currentTurnInline ∧
  h.terminalSnapshotJson.isSome ∧ h.state.terminal

instance (h : Handle) : Decidable h.deliveredCurrentTurnInline :=
  inferInstanceAs (Decidable (_ ∧ _ ∧ _ ∧ _))

def terminalBeforeFinalization (h : Handle) : Prop :=
  h.terminalSnapshotJson.isSome ∧ h.state.terminal

instance (h : Handle) : Decidable h.terminalBeforeFinalization :=
  inferInstanceAs (Decidable (_ ∧ _))

/-- Current-turn narration that is released leaves the reason behind. -/
def noteRelease (h : Handle) (outcome : SourceTurnOutcome) : Handle :=
  if h.narrationOwner = some .currentTurn then
    { h with
      lastErrorCode := some (if outcome = .stopped then "current_turn_stopped_before_persistence"
        else "current_turn_failed_before_persistence")
      lastErrorMessage :=
        some "Current-turn narration was released; continuation owns the wake." }
  else h

/-- `finalizeSourceTurn` hands an unresolved row to its continuation. -/
def autoSubscribe (h : Handle) (outcome : SourceTurnOutcome) (now : Time)
    (clientTurnId : String) : Handle :=
  let owned := (h.noteRelease outcome).notifyContinuation now clientTurnId
  if h.terminalBeforeFinalization then owned.promote now
  else if h.openForSubscribe then { owned with state := .subscribed }
  else owned

/-- `claimOpenTurnLivePresent`. -/
def claimLivePresent (h : Handle) (now : Time) : Handle :=
  { h with
    narrationOwner := some .currentTurn
    narrationDecision := some .currentTurnInline
    narrationDecisionAt := some now }

/-- Rows that belong to a continuation without being subscribed for it. -/
def needsContinuationHeal (h : Handle) : Prop :=
  h.narrationOwner = some .legacy ∨
  (h.narrationOwner = none ∧ h.sourceFinalizedAt.isSome) ∨
  (h.narrationOwner = some .continuation ∧ h.narrationDecision ≠ some .notifySubscribed ∧
    h.narrationDecision ≠ some .continuationDepthExhausted)

instance (h : Handle) : Decidable h.needsContinuationHeal :=
  inferInstanceAs (Decidable (_ ∨ (_ ∧ _) ∨ (_ ∧ _ ∧ _)))

def continuationReady (h : Handle) : Prop :=
  h.state ≠ .failed ∧ h.narrationDecision ≠ some .continuationDepthExhausted ∧
  (h.narrationOwner = some .continuation ∨ h.needsContinuationHeal) ∧
  (h.narrationDecision = some .notifySubscribed ∨ h.needsContinuationHeal)

instance (h : Handle) : Decidable h.continuationReady :=
  inferInstanceAs (Decidable (_ ∧ _ ∧ (_ ∨ _) ∧ (_ ∨ _)))

/-- `recordCanonicalCompletion` on the locked row. -/
def recordCompletion (h : Handle) (status : TerminalStatus) (snapshot : TerminalSnapshot)
    (now : Time) (clientTurnId : String) : Handle :=
  let recorded := { h with terminalSnapshotJson := some snapshot }
  let healed :=
    if h.needsContinuationHeal ∧ h.narrationDecision ≠ some .continuationDepthExhausted then
      recorded.notifyContinuation now clientTurnId
    else recorded
  if h.continuationReady then healed.promote now else healed.terminalStateData status now

/-- `claimReadyHeadForChat`. -/
def claim (h : Handle) (token : Token) (now ttl : Time) : Handle :=
  { h with
    state := .claimed
    claimToken := some token
    claimedAt := some now
    claimExpiresAt := some (now + ttl) }

/-- `releaseClaimToReady`: no retry is consumed. -/
def release (h : Handle) (retryAt : Time) (errorCode errorMessage : Option String) : Handle :=
  { h with
    state := .ready
    claimToken := none
    claimedAt := none
    claimExpiresAt := none
    dispatchedAt := none
    dispatchReceiptRequestId := none
    nextRetryAt := some retryAt
    lastErrorCode := some (errorCode.getD "continuation_busy")
    lastErrorMessage := some (errorMessage.getD
      "Runtime rejected the continuation before acceptance because the session was busy.") }

/-- `markDispatched`. -/
def dispatch (h : Handle) (receiptRequestId : String) (dispatchExpiresAt now : Time) : Handle :=
  { h with
    state := .dispatched
    dispatchedAt := some now
    dispatchReceiptRequestId := some receiptRequestId
    claimExpiresAt := some dispatchExpiresAt }

/-- `requeueClaim` with retries left. -/
def requeue (h : Handle) (retryAt : Time) (errorCode errorMessage : String) : Handle :=
  { h with
    state := .ready
    retryCount := h.retryCount + 1
    claimToken := none
    claimedAt := none
    claimExpiresAt := none
    nextRetryAt := some retryAt
    lastErrorCode := some errorCode
    lastErrorMessage := some errorMessage }

/-- `requeueClaim` on the last retry. -/
def exhaustRetries (h : Handle) (errorMessage : String) (messageId : Option Id)
    (now : Time) : Handle :=
  { h with
    state := .failed
    failedAt := some now
    retryCount := h.retryCount + 1
    claimToken := none
    claimExpiresAt := none
    nextRetryAt := none
    lastErrorCode := some "continuation_retry_exhausted"
    lastErrorMessage := some errorMessage
    continuationAssistantMessageId := messageId }

/-- `completeClaim`. -/
def complete (h : Handle) (now : Time) : Handle :=
  { h with
    state := .completed
    completedAt := some now
    claimToken := none
    claimExpiresAt := none
    nextRetryAt := none
    lastErrorCode := none
    lastErrorMessage := none }

/-- `failClaim`. -/
def fail (h : Handle) (errorCode errorMessage : String) (messageId : Option Id)
    (now : Time) : Handle :=
  { h with
    state := .failed
    failedAt := some now
    claimToken := none
    claimExpiresAt := none
    nextRetryAt := none
    lastErrorCode := some errorCode
    lastErrorMessage := some errorMessage
    continuationAssistantMessageId := messageId }

/-- `settleDeliveredLocked`: complete on the delivery bubble. -/
def settleDelivered (h : Handle) (messageId : Id) (now : Time) : Handle :=
  { h with
    state := .completed
    completedAt := some now
    failedAt := none
    claimToken := none
    claimExpiresAt := none
    nextRetryAt := none
    lastErrorCode := none
    lastErrorMessage := none
    continuationAssistantMessageId := some messageId }

def attempt (h : Handle) : DeliveryAttemptKind → DeliveryAttempt
  | .artifacts => h.continuationArtifacts
  | .external => h.continuationExternal

def setAttempt (h : Handle) (kind : DeliveryAttemptKind) (a : DeliveryAttempt) : Handle :=
  match kind with
  | .artifacts => { h with continuationArtifacts := a }
  | .external => { h with continuationExternal := a }

/-- `claimDeliveryAttempt`, `claimFailedHandleExternalNotice`. -/
def claimAttempt (h : Handle) (kind : DeliveryAttemptKind) (now : Time) : Handle :=
  h.setAttempt kind
    { h.attempt kind with attemptedAt := some now, result := some .attempting }

/-- `recordDeliveryAttemptResult`; only artifacts keep the time of their delivery. -/
def recordAttempt (h : Handle) (kind : DeliveryAttemptKind) (result : DeliveryAttemptResult)
    (error : Option String) (now : Time) : Handle :=
  let recorded := { h.attempt kind with
    result := some result
    error := error.map fun e => String.ofList (takeUnits 1000 e.toList) }
  h.setAttempt kind
    (if kind = .artifacts ∧ (result = .delivered ∨ result = .notNeeded) then
      { recorded with deliveredAt := some now }
    else recorded)

/-- An attempt that outlived the dispatch deadline. -/
def settleExpiredAttempt (h : Handle) (kind : DeliveryAttemptKind) (error : String) : Handle :=
  if (h.attempt kind).result = some .attempting then
    h.setAttempt kind { h.attempt kind with result := some .ambiguous, error := some error }
  else h

/-- The message on which the continuation is published. -/
def publishedOn (h : Handle) (messageId : Id) : Handle :=
  { h with continuationAssistantMessageId := some messageId }

/-- The markers a catch-up wave sets on its members, with the time of the last write. -/
structure Markers where
  ordinal : Option Nat
  total : Option Nat
  waveId : Option Id
  updatedAt : Time

def stamped (h : Handle) (m : Markers) : Handle :=
  { h with
    catchUpOrdinal := m.ordinal
    catchUpWaveTotal := m.total
    catchUpWaveId := m.waveId
    updatedAt := m.updatedAt }

def markers (h : Handle) : Markers :=
  ⟨h.catchUpOrdinal, h.catchUpWaveTotal, h.catchUpWaveId, h.updatedAt⟩

@[simp] theorem stamped_markers (h : Handle) : h.stamped h.markers = h := rfl

@[simp] theorem stamped_stamped (h : Handle) (m m' : Markers) :
    (h.stamped m).stamped m' = h.stamped m' := rfl

@[simp] theorem terminalStateData_state (h : Handle) (s : TerminalStatus) (now : Time) :
    (h.terminalStateData s now).state = s.state := by cases s <;> rfl

@[simp] theorem terminalStateData_owner (h : Handle) (s : TerminalStatus) (now : Time) :
    (h.terminalStateData s now).narrationOwner = h.narrationOwner := by cases s <;> rfl

@[simp] theorem terminalStateData_decision (h : Handle) (s : TerminalStatus) (now : Time) :
    (h.terminalStateData s now).narrationDecision = h.narrationDecision := by cases s <;> rfl

@[simp] theorem terminalStateData_snapshot (h : Handle) (s : TerminalStatus) (now : Time) :
    (h.terminalStateData s now).terminalSnapshotJson = h.terminalSnapshotJson := by
  cases s <;> rfl

end Handle

end Persai.JobHandle
