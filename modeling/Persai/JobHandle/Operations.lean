import Mathlib.Data.List.Sort
import Persai.JobHandle.Writes

/-!
# The transactions on async job handles

Every operation of the handle-state service is one transaction: it locks a row,
decides on it and writes. The scheduler's reconcilers are not: they select
candidates, read the canonical job of each and only then report its completion,
so that a report can be out of date when it is made.
-/

namespace Persai.JobHandle

namespace Tables

/-- An update of one row. -/
def write (t : Tables) (id : Id) (now : Time) (f : Handle → Handle) : Tables :=
  { t with handles := t.handles.update id fun h => { f h with updatedAt := now } }

/-- An update under a condition; tells whether a row met it. -/
def writeIf (t : Tables) (id : Id) (now : Time) (p : Handle → Bool) (f : Handle → Handle) :
    Bool × Tables :=
  if (t.handles.get? id).any p then (true, t.write id now f) else (false, t)

/-- The handles a new one can join in a wave. -/
def openWave (t : Tables) (handleId chatId : Id) (source : Option Id) : List (Id × Handle) :=
  t.handles.select fun id h =>
    h.chatId = chatId ∧ h.sourceUserMessageId = source ∧
    h.state ∈ [.ready, .claimed, .dispatched] ∧ h.catchUpWaveId.isSome ∧ id ≠ handleId

/-- The highest ordinal among the members of a wave. -/
def maxOrdinal (members : List (Id × Handle)) : Nat :=
  members.foldl (fun n m => max n (m.2.catchUpOrdinal.getD 0)) 0

/-- `stampCatchUpQueueMarkersInTx`. Which open sibling is found first is not
determined; `pick` says which. -/
def stampCatchUpQueueMarkersInTx (t : Tables) (handleId chatId : Id) (pick : Nat) (now : Time) :
    Tables :=
  match t.handles.get? handleId with
  | none => t
  | some self =>
    if self.catchUpOrdinal.isSome then t
    else
      let siblings := t.openWave handleId chatId self.sourceUserMessageId
      let joined := siblings[pick % siblings.length]?.bind (·.2.catchUpWaveId)
      let waveId := joined.getD t.uuid
      let members := t.handles.select fun _ h => h.chatId = chatId ∧ h.catchUpWaveId = some waveId
      let ordinal := maxOrdinal members + 1
      let counted := t.handles.updateWhere
        (fun _ h => h.chatId = chatId ∧ h.catchUpWaveId = some waveId)
        (fun h => { h with catchUpWaveTotal := some ordinal, updatedAt := now })
      { t with
        handles := counted.update handleId fun h =>
          { h with
            catchUpOrdinal := some ordinal
            catchUpWaveTotal := some ordinal
            catchUpWaveId := some waveId
            updatedAt := now }
        uuid := t.uuid + 1 }

/-- `finalizeTerminalHandleInTx`. -/
def finalizeTerminalHandleInTx (t : Tables) (id : Id) (row : Handle) (terminal : CanonicalTerminal)
    (pick : Nat) (now : Time) : Tables :=
  if row.openForTerminal then
    let finalized := t.write id now (·.finalizeTerminal terminal now)
    if row.subscribedForNotify then
      finalized.stampCatchUpQueueMarkersInTx id row.chatId pick now
    else finalized
  else t

inductive ObserveTerminalOutcome where
  | notFound
  | pending (kind : JobKind)
  | alreadyOwned (owner : NarrationOwner) (kind : JobKind) (terminal : CanonicalTerminal)
  | claimedCurrentTurn (kind : JobKind) (terminal : CanonicalTerminal)
  deriving DecidableEq, Repr

/-- `observeForCurrentTurn`. -/
def observeForCurrentTurn (t : Tables) (ref : OwnedRef) (pick : Nat) (now : Time) :
    ObserveTerminalOutcome × Tables :=
  match t.lockOwned ref with
  | none => (.notFound, t)
  | some (id, row) =>
    match t.readCanonical row.kind row.canonicalJobId row.runtimeSessionId with
    | none => (.notFound, t)
    | some .pending => (.pending row.kind, t)
    | some (.terminal terminal) =>
      match row.narrationOwner with
      | some owner =>
        (.alreadyOwned owner row.kind terminal,
          t.finalizeTerminalHandleInTx id row terminal pick now)
      | none =>
        (.claimedCurrentTurn row.kind terminal, t.write id now (·.claimCurrentTurn terminal now))

inductive SubscribePendingOutcome where
  | notFound
  | depthExhausted
  | subscribed (clientTurnId : String) (duplicate : Bool)
  | alreadyOwned (owner : NarrationOwner)
  | terminalInline (kind : JobKind) (terminal : CanonicalTerminal)
  deriving DecidableEq, Repr

/-- `subscribePending`. -/
def subscribePending (digest : Id → String) (t : Tables) (ref : OwnedRef) (now : Time) :
    SubscribePendingOutcome × Tables :=
  match t.lockOwned ref with
  | none => (.notFound, t)
  | some (id, row) =>
    match t.readCanonical row.kind row.canonicalJobId row.runtimeSessionId with
    | none => (.notFound, t)
    | some canonical =>
      let kept := row.continuationClientTurnId.getD (continuationClientTurnId digest id)
      if row.narrationDecision = some .continuationDepthExhausted ∨
          (row.state = .failed ∧ row.lastErrorCode = some "continuation_depth_exhausted") then
        (.depthExhausted, t)
      else if row.subscribedForNotify then (.subscribed kept true, t)
      else
        match row.narrationOwner with
        | some .legacy =>
          if maxAsyncContinuationDepth ≤ row.continuationDepth then
            (.depthExhausted, t.write id now (·.exhaustDepth now))
          else (.subscribed kept false, t.write id now (·.upgradeLegacy now kept))
        | some owner => (.alreadyOwned owner, t)
        | none =>
          match canonical with
          | .terminal terminal =>
            (.terminalInline row.kind terminal, t.write id now (·.claimCurrentTurn terminal now))
          | .pending =>
            if maxAsyncContinuationDepth ≤ row.continuationDepth then
              (.depthExhausted, t.write id now (·.exhaustDepth now))
            else
              let fresh := continuationClientTurnId digest id
              (.subscribed fresh false, t.write id now (·.subscribe now fresh))

/-- A source turn, as its handles name it. -/
structure SourceTurn where
  assistantId : Id
  chatId : Id
  sourceClientTurnId : String
  deriving DecidableEq, Repr

def SourceTurn.owns (turn : SourceTurn) (h : Handle) : Bool :=
  h.assistantId = turn.assistantId ∧ h.chatId = turn.chatId ∧
  h.sourceClientTurnId = some turn.sourceClientTurnId

/-- The rows the finalizer of a source turn resolves. -/
def unresolved (turn : SourceTurn) (outcome : SourceTurnOutcome) (h : Handle) : Bool :=
  turn.owns h ∧
  (h.narrationOwner = none ∨ (outcome ≠ .persisted ∧ h.narrationOwner = some .currentTurn))

/-- One turn of the loop of `finalizeSourceTurn`. The turns before it have changed
at most the wave markers of this row, so that its own columns are still the ones
that were selected. -/
def subscribeUnresolved (digest : Id → String) (outcome : SourceTurnOutcome) (chatId : Id)
    (pick : Id → Nat) (now : Time) (t : Tables) (id : Id) : Tables :=
  match t.handles.get? id with
  | none => t
  | some row =>
    if row.deliveredCurrentTurnInline then t
    else if maxAsyncContinuationDepth ≤ row.continuationDepth then
      t.write id now (·.exhaustDepth now)
    else
      let clientTurnId := row.continuationClientTurnId.getD (continuationClientTurnId digest id)
      let subscribed := t.write id now (·.autoSubscribe outcome now clientTurnId)
      if row.terminalBeforeFinalization then
        subscribed.stampCatchUpQueueMarkersInTx id chatId (pick id) now
      else subscribed

/-- The finalization is stamped on the handles of the turn that have none yet. -/
def stampSourceFinalized (t : Tables) (turn : SourceTurn) (now : Time) : Tables :=
  { t with
    handles := t.handles.updateWhere (fun _ h => turn.owns h ∧ h.sourceFinalizedAt = none)
      fun h => { h with sourceFinalizedAt := some now, updatedAt := now } }

/-- The loop of `finalizeSourceTurn` over the rows selected before it. -/
def resolveSelected (digest : Id → String) (t : Tables) (turn : SourceTurn)
    (outcome : SourceTurnOutcome) (pick : Id → Nat) (now : Time) : Tables :=
  ((t.handles.select fun _ h => unresolved turn outcome h).map Prod.fst).foldl
    (subscribeUnresolved digest outcome turn.chatId pick now) t

structure FinalizedSourceTurn where
  finalized : Nat
  autoSubscribed : Nat
  currentTurnPreserved : Nat
  currentTurnReleased : Nat
  deriving DecidableEq, Repr

/-- Persisted output has to be proven by the assistant message it names. -/
def provesOutput (t : Tables) (turn : SourceTurn) (assistantMessageId : Option Id) : Prop :=
  ∃ m ∈ assistantMessageId.bind t.messages.get?,
    m.chatId = turn.chatId ∧ m.assistantId = turn.assistantId ∧ m.author = .assistant

instance (t : Tables) (turn : SourceTurn) (assistantMessageId : Option Id) :
    Decidable (t.provesOutput turn assistantMessageId) :=
  inferInstanceAs (Decidable (∃ m ∈ assistantMessageId.bind t.messages.get?, _))

/-- `finalizeSourceTurn`; `none` where it throws. -/
def finalizeSourceTurn (digest : Id → String) (t : Tables) (turn : SourceTurn)
    (outcome : SourceTurnOutcome) (assistantMessageId : Option Id) (pick : Id → Nat)
    (now : Time) : Option (FinalizedSourceTurn × Tables) :=
  if outcome = .persisted ∧ ¬ t.provesOutput turn assistantMessageId then none
  else
    let stamped := t.stampSourceFinalized turn now
    let toSubscribe := stamped.handles.select fun _ h => unresolved turn outcome h
    let resolved := resolveSelected digest stamped turn outcome pick now
    let released := toSubscribe.filter fun r => ¬ r.2.deliveredCurrentTurnInline
    some
      ({ finalized := t.handles.count fun _ h => turn.owns h ∧ h.sourceFinalizedAt = none
         autoSubscribed := released.countP fun r =>
           r.2.continuationDepth < maxAsyncContinuationDepth
         currentTurnPreserved :=
           if outcome = .persisted then
             resolved.handles.count fun _ h =>
               turn.owns h ∧ h.narrationOwner = some .currentTurn
           else toSubscribe.countP fun r => r.2.deliveredCurrentTurnInline
         currentTurnReleased := released.countP fun r => r.2.narrationOwner = some .currentTurn },
       resolved)

inductive OpenTurnLivePresentClaim where
  | denied | alreadyCurrentTurnInline | newlyClaimed
  deriving DecidableEq, Repr

/-- `claimOpenTurnLivePresent`. -/
def claimOpenTurnLivePresent (t : Tables) (kind : JobKind) (canonicalJobId : Id) (now : Time) :
    OpenTurnLivePresentClaim × Tables :=
  match t.lockCanonical kind canonicalJobId with
  | none => (.denied, t)
  | some (id, row) =>
    if row.narrationOwner = some .currentTurn ∧
        row.narrationDecision = some .currentTurnInline then
      (.alreadyCurrentTurnInline, t)
    else if row.narrationOwner ≠ none then (.denied, t)
    else (.newlyClaimed, t.write id now (·.claimLivePresent now))

/-- The arguments of `recordCanonicalCompletion`. -/
structure CompletionCall where
  kind : JobKind
  canonicalJobId : Id
  terminalStatus : TerminalStatus
  terminalSnapshot : TerminalSnapshot
  deriving DecidableEq, Repr

inductive DeliveryDecision where
  | legacyFrame | skipLegacyFrame
  deriving DecidableEq, Repr

/-- `recordCanonicalCompletion`. -/
def recordCanonicalCompletion (digest : Id → String) (t : Tables) (call : CompletionCall)
    (pick : Nat) (now : Time) : (DeliveryDecision × HandleState) × Tables :=
  match t.lockCanonical call.kind call.canonicalJobId with
  | none => ((.legacyFrame, call.terminalStatus.state), t)
  | some (id, row) =>
    let clientTurnId := row.continuationClientTurnId.getD (continuationClientTurnId digest id)
    let recorded := t.write id now
      (·.recordCompletion call.terminalStatus call.terminalSnapshot now clientTurnId)
    if row.continuationReady then
      ((.skipLegacyFrame, .ready),
        recorded.stampCatchUpQueueMarkersInTx id row.chatId pick now)
    else ((.skipLegacyFrame, call.terminalStatus.state), recorded)

def claimable (chatId : Id) (now : Time) (h : Handle) : Bool :=
  h.state = .ready ∧ h.chatId = chatId ∧ h.sourceFinalizedAt.isSome ∧
  (∀ at' ∈ h.nextRetryAt, at' ≤ now) ∧ h.retryCount < h.maxRetries

/-- `ORDER BY ready_at ASC NULLS LAST, updated_at ASC, id ASC`. -/
def queuedBefore (a b : Id × Handle) : Prop :=
  let byUpdate := a.2.updatedAt < b.2.updatedAt ∨ (a.2.updatedAt = b.2.updatedAt ∧ a.1 < b.1)
  match a.2.readyAt, b.2.readyAt with
  | some x, some y => x < y ∨ (x = y ∧ byUpdate)
  | some _, none => True
  | none, some _ => False
  | none, none => byUpdate

instance (a b : Id × Handle) : Decidable (queuedBefore a b) := by
  unfold queuedBefore; split <;> infer_instance

def queueHead : List (Id × Handle) → Option (Id × Handle)
  | [] => none
  | r :: rs =>
    match queueHead rs with
    | none => some r
    | some b => if queuedBefore r b then some r else some b

/-- `claimReadyHeadForChat`; rows that another transaction has locked are skipped. -/
def claimReadyHeadForChat (t : Tables) (chatId : Id) (claimTtlMs : Time) (locked : List Id)
    (now : Time) : Option (Id × Token) × Tables :=
  match queueHead (t.handles.select fun id h => claimable chatId now h ∧ id ∉ locked) with
  | none => (none, t)
  | some (id, _) =>
    (some (id, t.uuid),
      { t.write id now (·.claim t.uuid now claimTtlMs) with uuid := t.uuid + 1 })

def claimedBy (token : Token) (h : Handle) : Bool :=
  h.state = .claimed ∧ h.claimToken = some token

def dispatchedBy (token : Token) (h : Handle) : Bool :=
  h.state = .dispatched ∧ h.claimToken = some token

/-- `releaseClaimToReady`: whether the claim was still there to release. -/
def releaseClaimToReady (t : Tables) (id : Id) (token : Token) (retryAt : Time)
    (errorCode errorMessage : Option String) (now : Time) : Bool × Tables :=
  t.writeIf id now (claimedBy token) (·.release retryAt errorCode errorMessage)

/-- `markDispatched`. -/
def markDispatched (t : Tables) (id : Id) (token : Token) (receiptRequestId : String)
    (dispatchExpiresAt now : Time) : Bool × Tables :=
  t.writeIf id now (claimedBy token) (·.dispatch receiptRequestId dispatchExpiresAt now)

inductive DeliveryAttemptClaim where
  | claimed | alreadyAttempted | lost
  deriving DecidableEq, Repr

/-- `claimDeliveryAttempt`. -/
def claimDeliveryAttempt (t : Tables) (id : Id) (token : Token) (kind : DeliveryAttemptKind)
    (now : Time) : DeliveryAttemptClaim × Tables :=
  match (t.handles.get? id).filter (dispatchedBy token) with
  | none => (.lost, t)
  | some row =>
    if (row.attempt kind).attemptedAt.isSome then (.alreadyAttempted, t)
    else (.claimed, t.write id now (·.claimAttempt kind now))

/-- `recordDeliveryAttemptResult`. -/
def recordDeliveryAttemptResult (t : Tables) (id : Id) (token : Token)
    (kind : DeliveryAttemptKind) (result : DeliveryAttemptResult) (error : Option String)
    (now : Time) : Bool × Tables :=
  t.writeIf id now (dispatchedBy token) (·.recordAttempt kind result error now)

/-- `ASYNC_CONTINUATION_PERMANENT_FAILURE_TEXT`. -/
def permanentFailureText : String :=
  "I couldn't complete the follow-up update for this job."

/-- Delivered, as far as the settlement of a failed continuation is concerned. -/
def MediaJob.settled (job : MediaJob) : Prop := job.status = .delivered ∨ job.deliveredAt.isSome

instance (job : MediaJob) : Decidable (MediaJob.settled job) :=
  inferInstanceAs (Decidable (_ ∨ _))

def DocumentJob.settled (job : DocumentJob) : Prop :=
  job.status = .delivered ∨ job.deliveredAt.isSome

instance (job : DocumentJob) : Decidable (DocumentJob.settled job) :=
  inferInstanceAs (Decidable (_ ∨ _))

/-- `shouldSuppressPermanentFailureMessage`. -/
def shouldSuppressPermanentFailureMessage (t : Tables) (id : Id) (row : Handle) : Bool :=
  (row.kind = .media ∧ (t.mediaJobs.get? row.canonicalJobId).any (MediaJob.settled ·)) ∨
  (row.kind = .document ∧ (t.documentJobs.get? row.canonicalJobId).any (DocumentJob.settled ·)) ∨
  (row.sourceUserMessageId.isSome ∧
    0 < t.handles.count fun sibling h =>
      h.chatId = row.chatId ∧ sibling ≠ id ∧ h.sourceUserMessageId = row.sourceUserMessageId ∧
      h.state ∈ [.subscribed, .ready, .claimed, .dispatched])

/-- A new message under the next id. -/
def createMessage (t : Tables) (m : ChatMessage) : Id × Tables :=
  (t.uuid, { t with messages := t.messages.put t.uuid m, uuid := t.uuid + 1 })

/-- `persistPermanentFailureMessage`: the message to show for the failed handle, if any. -/
def persistPermanentFailureMessage (t : Tables) (id : Id) (row : Handle) : Option Id × Tables :=
  match row.continuationAssistantMessageId with
  | some message => (some message, t)
  | none =>
    if t.shouldSuppressPermanentFailureMessage id row then (none, t)
    else
      let (message, t') := t.createMessage
        { chatId := row.chatId
          assistantId := row.assistantId
          author := .assistant
          content := permanentFailureText
          asyncContinuationClientTurnId := row.continuationClientTurnId
          asyncContinuationPermanentFailure := true }
      (some message, t')

/-- What the scheduler has checked about a dispatched continuation. -/
structure DispatchedProof where
  receiptAbsent : Bool
  leaseAbsent : Bool
  outputAbsent : Bool
  deriving DecidableEq, Repr

def DispatchedProof.nothingProduced (p : DispatchedProof) : Bool :=
  p.receiptAbsent && p.leaseAbsent && p.outputAbsent

inductive RequeueOutcome where
  | requeued | exhausted | ambiguous | lost
  deriving DecidableEq, Repr

/-- `requeueClaim`. -/
def requeueClaim (t : Tables) (id : Id) (token : Token) (retryAt : Time)
    (errorCode errorMessage : String) (proof : Option DispatchedProof) (now : Time) :
    RequeueOutcome × Tables :=
  match (t.handles.get? id).filter fun h => h.claimToken = some token with
  | none => (.lost, t)
  | some row =>
    if row.state = .dispatched ∧ ¬ proof.any (·.nothingProduced) then (.ambiguous, t)
    else if row.state ≠ .dispatched ∧ row.state ≠ .claimed then (.lost, t)
    else if row.maxRetries ≤ row.retryCount + 1 then
      let (message, t') := t.persistPermanentFailureMessage id row
      (.exhausted, t'.write id now (·.exhaustRetries errorMessage message now))
    else (.requeued, t.write id now (·.requeue retryAt errorCode errorMessage))

/-- `completeClaim`. -/
def completeClaim (t : Tables) (id : Id) (token : Token) (now : Time) : Bool × Tables :=
  t.writeIf id now (fun h => claimedBy token h || dispatchedBy token h) (·.complete now)

/-- The message on which the canonical job delivered, as `settleDeliveredLocked` reads it. -/
def deliveryMessageId (t : Tables) (row : Handle) : Option Id :=
  match row.kind with
  | .media => do
    let job ← t.mediaJobs.get? row.canonicalJobId
    if MediaJob.settled job then
      job.completionAssistantMessageId <|> row.continuationAssistantMessageId
    else none
  | .document => do
    let job ← t.documentJobs.get? row.canonicalJobId
    if DocumentJob.settled job then
      job.completionAssistantMessageId <|> row.continuationAssistantMessageId
    else none
  | .sandbox => none

/-- The bubble on which a continuation that settled was delivered. -/
structure SettleDelivered where
  assistantMessageId : Id
  chatId : Id
  sourceUserMessageId : Option Id
  deriving DecidableEq, Repr

/-- `settleDeliveredLocked`. -/
def settleDeliveredLocked (t : Tables) (id : Id) (row : Handle) (requireClaimToken : Option Token)
    (allowFailedHeal : Bool) (now : Time) : Option SettleDelivered × Tables :=
  let settled := fun message => some
    { assistantMessageId := message
      chatId := row.chatId
      sourceUserMessageId := row.sourceUserMessageId : SettleDelivered }
  match row.continuationAssistantMessageId with
  | some message =>
    if row.state = .completed then (settled message, t) else settleOpen settled
  | none => settleOpen settled
where
  settleOpen (settled : Id → Option SettleDelivered) : Option SettleDelivered × Tables :=
    let activeClaim := (row.state = .claimed ∨ row.state = .dispatched) ∧
      (requireClaimToken = none ∨ row.claimToken = requireClaimToken)
    let failedHeal := allowFailedHeal ∧ row.state = .failed
    if activeClaim ∨ failedHeal then
      match t.deliveryMessageId row with
      | none => (none, t)
      | some message =>
        if (t.messages.get? message).any fun m =>
            m.chatId = row.chatId ∧ m.assistantId = row.assistantId then
          (settled message, t.write id now (·.settleDelivered message now))
        else (none, t)
    else (none, t)

structure PermanentFailureObservation where
  handleId : Id
  assistantMessageId : Id
  channel : Channel
  assistantId : Id
  workspaceId : Id
  chatId : Id
  deriving DecidableEq, Repr

def observation (id : Id) (row : Handle) (message : Id) : PermanentFailureObservation :=
  ⟨id, message, row.channel, row.assistantId, row.workspaceId, row.chatId⟩

structure FailClaimResult where
  applied : Bool
  observation : Option PermanentFailureObservation
  deriving DecidableEq, Repr

/-- `failClaim`. -/
def failClaim (t : Tables) (id : Id) (token : Token) (errorCode errorMessage : String)
    (now : Time) : FailClaimResult × Tables :=
  match t.handles.get? id with
  | none => (⟨false, none⟩, t)
  | some row =>
    if row.state = .failed then
      match t.settleDeliveredLocked id row none true now with
      | (some _, healed) => (⟨true, none⟩, healed)
      | (none, _) => (⟨true, row.continuationAssistantMessageId.map (observation id row)⟩, t)
    else if row.claimToken ≠ some token ∨ (row.state ≠ .claimed ∧ row.state ≠ .dispatched) then
      (⟨false, none⟩, t)
    else
      match t.settleDeliveredLocked id row (some token) false now with
      | (some _, settled) => (⟨true, none⟩, settled)
      | (none, _) =>
        let (message, t') := t.persistPermanentFailureMessage id row
        (⟨true, message.map (observation id row)⟩,
          t'.write id now (·.fail errorCode errorMessage message now))

/-- `settleDeliveredCatchUpFailure`. -/
def settleDeliveredCatchUpFailure (t : Tables) (id : Id) (token : Token) (now : Time) :
    Option SettleDelivered × Tables :=
  match t.handles.get? id with
  | none => (none, t)
  | some row => t.settleDeliveredLocked id row (some token) true now

/-- `settleDeliveredCatchUpFailureByClientTurnId`. -/
def settleDeliveredCatchUpFailureByClientTurnId (t : Tables) (clientTurnId : String)
    (now : Time) : Option SettleDelivered × Tables :=
  match text (some clientTurnId) with
  | none => (none, t)
  | some trimmed =>
    if "async-cont:".toList.isPrefixOf trimmed.toList then
      match t.handles.find? fun _ h => h.continuationClientTurnId = some trimmed with
      | none => (none, t)
      | some (id, row) => t.settleDeliveredLocked id row none true now
    else (none, t)

/-- `claimFailedHandleExternalNotice`. -/
def claimFailedHandleExternalNotice (t : Tables) (id : Id) (now : Time) : Bool × Tables :=
  t.writeIf id now
    (fun h => h.state = .failed ∧ h.channel = .telegram ∧
      h.continuationExternal.attemptedAt = none ∧ h.continuationAssistantMessageId.isSome)
    (·.claimAttempt .external now)

/-- `recordFailedHandleExternalNoticeResult`. -/
def recordFailedHandleExternalNoticeResult (t : Tables) (id : Id)
    (result : DeliveryAttemptResult) (error : Option String) (now : Time) : Bool × Tables :=
  t.writeIf id now
    (fun h => h.state = .failed ∧ h.continuationExternal.result = some .attempting)
    (·.recordAttempt .external result error now)

/-- `settleExpiredDeliveryAttempts`. -/
def settleExpiredDeliveryAttempts (t : Tables) (id : Id) (token : Token) (now : Time) :
    Bool × Tables :=
  t.writeIf id now
    (fun h => dispatchedBy token h ∧ (h.continuationArtifacts.result = some .attempting ∨
      h.continuationExternal.result = some .attempting))
    fun h =>
      (h.settleExpiredAttempt .artifacts
        ("The artifact delivery attempt outlived the dispatch deadline " ++
          "and will not be retried.")).settleExpiredAttempt .external
        "The external delivery attempt outlived the dispatch deadline and will not be retried."

/-- `stampHandleMessageIds`: the job was published on this message. -/
def stampHandleMessageIds (t : Tables) (id message : Id) (now : Time) : Tables :=
  t.write id now (·.publishedOn message)

/-- The write by which `persistOutputOnce` keeps the message it published on. -/
def persistOutputOnce (t : Tables) (id : Id) (token : Token) (message : Id) (now : Time) :
    Bool × Tables :=
  t.writeIf id now (dispatchedBy token) (·.publishedOn message)

/-- What a job brings when its handle is created. -/
structure NewJob where
  jobRef : Id
  kind : JobKind
  canonicalJobId : Id
  assistantId : Id
  workspaceId : Id
  userId : Id
  chatId : Id
  channel : Channel
  threadKey : Option String
  sourceClientTurnId : Option String
  sourceUserMessageId : Option Id
  runtimeSessionId : Option Id
  deriving DecidableEq, Repr

/-- Jobs started by a continuation inherit its depth; sandbox jobs do not. -/
def inheritedDepth (t : Tables) (job : NewJob) : Nat :=
  match t.handles.find? fun _ h =>
      job.kind ≠ .sandbox ∧ h.continuationClientTurnId.isSome ∧
      h.continuationClientTurnId = job.sourceClientTurnId with
  | some (_, h) => min (h.continuationDepth + 1) maxAsyncContinuationDepth
  | none => 0

/-- `mint_assistant_async_job_handle`, and `registerSandboxJob` for sandbox jobs. -/
def mintHandle (t : Tables) (job : NewJob) : Tables :=
  if (t.lockCanonical job.kind job.canonicalJobId).isSome then t
  else
    { t with
      handles := (t.handles.create t.uuid
        { jobRef := job.jobRef
          kind := job.kind
          canonicalJobId := job.canonicalJobId
          assistantId := job.assistantId
          workspaceId := job.workspaceId
          userId := job.userId
          chatId := job.chatId
          channel := job.channel
          threadKey := job.threadKey
          sourceClientTurnId := job.sourceClientTurnId
          sourceUserMessageId := job.sourceUserMessageId
          runtimeSessionId := job.runtimeSessionId
          continuationDepth := t.inheritedDepth job }).getD t.handles
      uuid := t.uuid + 1 }

/-- A job as a reconciler has selected it. -/
structure Candidate where
  kind : JobKind
  canonicalJobId : Id
  runtimeSessionId : Option Id
  deriving DecidableEq, Repr

/-- The rows a reconciler looks at: open ones, and historical `legacy` ones. -/
def reconcilable (h : Handle) : Bool :=
  h.state ∈ [.none, .subscribed] ∨
  (h.narrationOwner = some .legacy ∧ h.state.terminal ∧ h.sourceFinalizedAt.isSome)

/-- The completion a reconciler is going to report, from what it reads about the job. -/
def reconcilerCall (t : Tables) (c : Candidate) : Option CompletionCall :=
  match c.kind with
  | .sandbox => do
    let job ← t.sandboxJobs.get? c.canonicalJobId
    let status ← match job.status with
      | .completed => some TerminalStatus.completed
      | .cancelled => some .cancelled
      | .failed | .blocked => some .failed
      | .queued | .running | .detached => none
    some ⟨c.kind, c.canonicalJobId, status, .sandbox status job.resultPayload⟩
  | .media | .document =>
    match t.readCanonical c.kind c.canonicalJobId c.runtimeSessionId with
    | some (.terminal terminal) =>
      some ⟨c.kind, c.canonicalJobId, terminal.status,
        .delivered terminal.status terminal.errorCode terminal.message⟩
    | _ => none

/-- A sandbox job that still runs is looked at again last. -/
def rotate (t : Tables) (c : Candidate) (now : Time) : Tables :=
  if c.kind = .sandbox then
    { t with
      handles := t.handles.updateWhere
        (fun _ h => h.kind = .sandbox ∧ h.canonicalJobId = c.canonicalJobId ∧
          h.state ∈ [.none, .subscribed])
        fun h => { h with updatedAt := now } }
  else t

end Tables

open Tables

/-- The tables, the candidates the reconcilers have still to read, and the
completions they have read and not yet reported. -/
structure System where
  tables : Tables := {}
  candidates : List Candidate := []
  reports : List CompletionCall := []

inductive Caller where
  | deliveryWorker | reconciler
  deriving DecidableEq, Repr

/-- One transaction, or one step of a reconciler, or a change to the rows around the handles. -/
inductive Event where
  | mintHandle (job : NewJob)
  | setChat (id : Id) (chat : Chat)
  | setMediaJob (id : Id) (job : MediaJob)
  | setDocumentJob (id : Id) (job : DocumentJob)
  | setSandboxJob (id : Id) (job : SandboxJob)
  | postMessage (message : ChatMessage)
  | attach (message : Id)
  | observeForCurrentTurn (ref : OwnedRef) (pick : Nat) (now : Time)
  | subscribePending (ref : OwnedRef) (now : Time)
  | finalizeSourceTurn (turn : SourceTurn) (outcome : SourceTurnOutcome)
      (assistantMessageId : Option Id) (pick : Id → Nat) (now : Time)
  | claimOpenTurnLivePresent (kind : JobKind) (canonicalJobId : Id) (now : Time)
  | recordCanonicalCompletion (caller : Caller) (call : CompletionCall) (pick : Nat) (now : Time)
  | selectCandidates (sandbox : Bool) (limit : Nat)
  | readCandidate (candidate : Candidate) (now : Time)
  | claimReadyHeadForChat (chatId : Id) (claimTtlMs : Time) (locked : List Id) (now : Time)
  | releaseClaimToReady (id : Id) (token : Token) (retryAt : Time)
      (errorCode errorMessage : Option String) (now : Time)
  | markDispatched (id : Id) (token : Token) (receiptRequestId : String)
      (dispatchExpiresAt now : Time)
  | claimDeliveryAttempt (id : Id) (token : Token) (kind : DeliveryAttemptKind) (now : Time)
  | recordDeliveryAttemptResult (id : Id) (token : Token) (kind : DeliveryAttemptKind)
      (result : DeliveryAttemptResult) (error : Option String) (now : Time)
  | persistOutputOnce (id : Id) (token : Token) (message : Id) (now : Time)
  | stampHandleMessageIds (id message : Id) (now : Time)
  | settleExpiredDeliveryAttempts (id : Id) (token : Token) (now : Time)
  | requeueClaim (id : Id) (token : Token) (retryAt : Time) (errorCode errorMessage : String)
      (proof : Option DispatchedProof) (now : Time)
  | completeClaim (id : Id) (token : Token) (now : Time)
  | failClaim (id : Id) (token : Token) (errorCode errorMessage : String) (now : Time)
  | settleDeliveredCatchUpFailure (id : Id) (token : Token) (now : Time)
  | settleDeliveredCatchUpFailureByClientTurnId (clientTurnId : String) (now : Time)
  | claimFailedHandleExternalNotice (id : Id) (now : Time)
  | recordFailedHandleExternalNoticeResult (id : Id) (result : DeliveryAttemptResult)
      (error : Option String) (now : Time)

/-- The first `limit` rows in the order of their last write. -/
def oldestFirst (limit : Nat) (rows : List (Id × Handle)) : List (Id × Handle) :=
  (rows.insertionSort fun a b => a.2.updatedAt ≤ b.2.updatedAt).take limit

namespace System

/-- What the reconcilers of one kind of job select. -/
def select (s : System) (sandbox : Bool) (limit : Nat) : List Candidate :=
  (oldestFirst limit (s.tables.handles.select fun _ h =>
      (if sandbox then h.kind = .sandbox else h.kind ≠ .sandbox) ∧ reconcilable h)).map
    fun r => ⟨r.2.kind, r.2.canonicalJobId, r.2.runtimeSessionId⟩

/-- The completion an event reports, if it reports one: a reconciler reports only
what it has read. -/
def reported (s : System) : Event → Option CompletionCall
  | .recordCanonicalCompletion caller call _ _ =>
    if caller = .reconciler ∧ call ∉ s.reports then none else some call
  | _ => none

def withTables (s : System) (t : Tables) : System := { s with tables := t }

/-- One step. -/
def step (digest : Id → String) (s : System) (e : Event) : System :=
  let t := s.tables
  match e with
  | .mintHandle job => s.withTables (t.mintHandle job)
  | .setChat id chat => s.withTables { t with chats := t.chats.put id chat }
  | .setMediaJob id job => s.withTables { t with mediaJobs := t.mediaJobs.put id job }
  | .setDocumentJob id job => s.withTables { t with documentJobs := t.documentJobs.put id job }
  | .setSandboxJob id job => s.withTables { t with sandboxJobs := t.sandboxJobs.put id job }
  | .postMessage message => s.withTables (t.createMessage message).2
  | .attach message => s.withTables { t with attachments := message :: t.attachments }
  | .observeForCurrentTurn ref pick now => s.withTables (t.observeForCurrentTurn ref pick now).2
  | .subscribePending ref now => s.withTables (subscribePending digest t ref now).2
  | .finalizeSourceTurn turn outcome message pick now =>
    match finalizeSourceTurn digest t turn outcome message pick now with
    | some (_, t') => s.withTables t'
    | none => s
  | .claimOpenTurnLivePresent kind job now =>
    s.withTables (t.claimOpenTurnLivePresent kind job now).2
  | .recordCanonicalCompletion caller call pick now =>
    match s.reported (.recordCanonicalCompletion caller call pick now) with
    | some call =>
      { s with
        tables := (recordCanonicalCompletion digest t call pick now).2
        reports := if caller = .reconciler then s.reports.erase call else s.reports }
    | none => s
  | .selectCandidates sandbox limit =>
    { s with candidates := s.candidates ++ s.select sandbox limit }
  | .readCandidate c now =>
    if c ∈ s.candidates then
      let left := s.candidates.erase c
      match t.reconcilerCall c with
      | some call => { s with candidates := left, reports := s.reports ++ [call] }
      | none => { s with candidates := left, tables := t.rotate c now }
    else s
  | .claimReadyHeadForChat chatId ttl locked now =>
    s.withTables (t.claimReadyHeadForChat chatId ttl locked now).2
  | .releaseClaimToReady id token retryAt code message now =>
    s.withTables (t.releaseClaimToReady id token retryAt code message now).2
  | .markDispatched id token receipt expiresAt now =>
    s.withTables (t.markDispatched id token receipt expiresAt now).2
  | .claimDeliveryAttempt id token kind now =>
    s.withTables (t.claimDeliveryAttempt id token kind now).2
  | .recordDeliveryAttemptResult id token kind result error now =>
    s.withTables (t.recordDeliveryAttemptResult id token kind result error now).2
  | .persistOutputOnce id token message now =>
    s.withTables (t.persistOutputOnce id token message now).2
  | .stampHandleMessageIds id message now =>
    s.withTables (t.stampHandleMessageIds id message now)
  | .settleExpiredDeliveryAttempts id token now =>
    s.withTables (t.settleExpiredDeliveryAttempts id token now).2
  | .requeueClaim id token retryAt code message proof now =>
    s.withTables (t.requeueClaim id token retryAt code message proof now).2
  | .completeClaim id token now => s.withTables (t.completeClaim id token now).2
  | .failClaim id token code message now => s.withTables (t.failClaim id token code message now).2
  | .settleDeliveredCatchUpFailure id token now =>
    s.withTables (t.settleDeliveredCatchUpFailure id token now).2
  | .settleDeliveredCatchUpFailureByClientTurnId clientTurnId now =>
    s.withTables (t.settleDeliveredCatchUpFailureByClientTurnId clientTurnId now).2
  | .claimFailedHandleExternalNotice id now =>
    s.withTables (t.claimFailedHandleExternalNotice id now).2
  | .recordFailedHandleExternalNoticeResult id result error now =>
    s.withTables (t.recordFailedHandleExternalNoticeResult id result error now).2

end System

end Persai.JobHandle
