import Mathlib.Data.List.Sort
import Persai.KeyedTable
import Persai.TurnRuntime.Redis

/-!
# Accepting, finalizing and reconciling turns

A turn has one receipt row under its key, a lease on its session and a marker while
its receipt is being created. Three parties write the row: calls that accept a
turn, the accepted turns themselves and the reconciler of orphans. Each of them
goes from one command to the next, and any other command can fall in between.
-/

namespace Persai.TurnRuntime

/-- What a turn answers. -/
abbrev Payload := Nat

inductive ReceiptStatus where
  | accepted | completed | interrupted | failed
  deriving DecidableEq, Repr

/-- A row of `runtime_turn_receipts`; its key is that of the table. -/
structure Receipt where
  requestId : RequestId
  runtimeSessionId : Option SessionId
  status : ReceiptStatus := .accepted
  resultPayload : Option Payload := none
  errorCode : Option String := none
  errorMessage : Option String := none
  completedAt : Option Nat := none
  updatedAt : Nat
  deriving DecidableEq, Repr

abbrev Receipts := KeyedTable TurnKey Receipt

/-- `ORPHAN_RECEIPT_RECONCILE_ERROR_CODE`. -/
def orphanReconciled : String := "orphan_reconciled"

/-- `ORPHAN_RECEIPT_RECONCILE_MESSAGE`. -/
def orphanReconcileMessage : String :=
  "Runtime turn receipt was reconciled after losing its active execution owner."

/-- `isNonReclaimableAsyncContinuation`. -/
def TurnKey.asyncContinuation (k : TurnKey) : Bool :=
  "async-cont:".toList.isPrefixOf k.idempotencyKey.toList

/-- `isOrphanReconciledReceipt`. -/
def Receipt.orphaned (r : Receipt) : Prop := r.errorCode = some orphanReconciled

instance (r : Receipt) : Decidable r.orphaned := inferInstanceAs (Decidable (_ = _))

/-- What an accepted turn records about its end. -/
inductive Finalization where
  | completed (result : Payload) (completedAt : Nat)
  | interrupted (event : Payload) (completedAt : Option Nat)
  /-- The minimal form leaves the payload as it is. -/
  | failed (event : Option Payload) (code message : String) (completedAt : Nat)
  deriving DecidableEq, Repr

def Finalization.status : Finalization → ReceiptStatus
  | .completed .. => .completed
  | .interrupted .. => .interrupted
  | .failed .. => .failed

/-- `markTurnReceiptCompleted`, `markTurnReceiptInterrupted`, `markTurnReceiptFailed`. -/
def Receipt.finalize (r : Receipt) (now : Nat) : Finalization → Receipt
  | .completed result completedAt =>
    { r with
      status := .completed, resultPayload := some result, errorCode := none
      errorMessage := none, completedAt := some completedAt, updatedAt := now }
  | .interrupted event completedAt =>
    { r with
      status := .interrupted, resultPayload := some event, errorCode := none
      errorMessage := none, completedAt, updatedAt := now }
  | .failed event code message completedAt =>
    { r with
      status := .failed, resultPayload := event <|> r.resultPayload, errorCode := some code
      errorMessage := some message, completedAt := some completedAt, updatedAt := now }

/-- `reconcileOrphanAcceptedTurnReceipt` on the row. -/
def Receipt.reconcile (r : Receipt) (reconciledAt now : Nat) : Receipt :=
  { r with
    status := .failed, errorCode := some orphanReconciled
    errorMessage := some orphanReconcileMessage, completedAt := some reconciledAt
    resultPayload := none, updatedAt := now }

/-- `reclaimOrphanReconciledTurnReceipt` on the row. -/
def Receipt.reclaim (r : Receipt) (request : RequestId) (session : SessionId) (now : Nat) :
    Receipt :=
  { r with
    requestId := request, runtimeSessionId := some session, status := .accepted
    errorCode := none, errorMessage := none, completedAt := none, resultPayload := none
    updatedAt := now }

namespace Receipts

/-- `findTurnReceiptByRequestId`. -/
def findByRequest (t : Receipts) (request : RequestId) : Option (TurnKey × Receipt) :=
  t.find? fun _ r => r.requestId = request

/-- `createAcceptedTurnReceipt`; `none` where a unique constraint is violated. -/
def createAccepted (t : Receipts) (key : TurnKey) (request : RequestId) (session : SessionId)
    (now : Nat) : Option Receipts :=
  if (t.findByRequest request).isSome then none
  else t.create key { requestId := request, runtimeSessionId := some session, updatedAt := now }

/-- The rows of a request, finalized. -/
def markFinal (t : Receipts) (request : RequestId) (f : Finalization) (now : Nat) : Receipts :=
  t.updateWhere (fun _ r => r.requestId = request) (·.finalize now f)

def markOrphan (t : Receipts) (request : RequestId) (reconciledAt now : Nat) : Receipts :=
  t.updateWhere (fun _ r => r.requestId = request ∧ r.status = .accepted)
    (·.reconcile reconciledAt now)

def markReclaimed (t : Receipts) (key : TurnKey) (request : RequestId) (session : SessionId)
    (now : Nat) : Receipts :=
  t.updateWhere (fun k r => k = key ∧ r.orphaned) (·.reclaim request session now)

end Receipts

/-- The answers of `acceptTurn`; `thrown` where it throws. -/
inductive Acceptance where
  | accepted (receipt : Receipt)
  | replayed (receipt : Receipt)
  | busy
  | inFlight
  | thrown
  deriving DecidableEq, Repr

/-- The command a call of `acceptTurn` makes next, or its answer. -/
inductive Phase where
  | readMarker
  | findMarked (request : RequestId)
  | findExisting
  | claimLease
  | create
  | findConflict
  | reclaim
  | findReclaimed
  | writeMarker (request : RequestId) (claimed : Bool) (answer : Acceptance)
  | clearInFlight (answer : Acceptance)
  | releaseGet (answer : Acceptance)
  | releaseDel (answer : Acceptance)
  | answered (answer : Acceptance)
  deriving DecidableEq, Repr

/-- Once the marker is cleared an accepted turn keeps its lease; any other answer
releases it first. -/
def Acceptance.afterClear : Acceptance → Phase
  | .accepted r => .answered (.accepted r)
  | a => .releaseGet a

/-- The answer a call has come to. -/
def Phase.answer : Phase → Option Acceptance
  | .writeMarker _ _ a | .clearInFlight a | .releaseGet a | .releaseDel a | .answered a => some a
  | _ => none

/-- A call of `acceptTurn` and, once it is accepted, the turn it began. The owner
token of its lease is random and its own; it goes by the call's request id. -/
structure Call where
  key : TurnKey
  session : SessionId
  phase : Phase := .readMarker
  /-- The accepted turn is between the two commands of its release. -/
  releasing : Bool := false
  deriving DecidableEq, Repr

inductive CandidatePhase where
  | readInFlight | hasLease | update | clearInFlight | ended
  deriving DecidableEq, Repr

/-- A receipt as the reconciler of orphans has selected it. -/
structure OrphanCandidate where
  key : TurnKey
  requestId : RequestId
  runtimeSessionId : Option SessionId
  /-- When the pass began. -/
  now : Nat
  phase : CandidatePhase := .readInFlight
  deriving DecidableEq, Repr

structure World where
  redis : Redis := {}
  receipts : Receipts := ∅
  calls : KeyedTable RequestId Call := ∅
  candidates : KeyedTable Nat OrphanCandidate := ∅
  /-- The completions that were stored, and every terminal status that was written,
  each with its request. No row holds them. -/
  completions : List (TurnKey × RequestId × Payload) := []
  closings : List (RequestId × ReceiptStatus) := []

/-- One command of a party, or the passing of time. A command that is not `ok`
fails without an effect. -/
inductive Event where
  | wait (ms : Nat)
  | acceptTurn (request : RequestId) (key : TurnKey) (session : SessionId)
  | proceed (request : RequestId) (ok : Bool)
  | renew (request : RequestId)
  | finalize (request : RequestId) (f : Finalization)
  | releaseGet (request : RequestId)
  | releaseDel (request : RequestId)
  | selectOrphan (candidate : Nat) (key : TurnKey)
  | reconcile (candidate : Nat)
  deriving DecidableEq, Repr

namespace World

def setPhase (w : World) (request : RequestId) (phase : Phase) : World :=
  { w with calls := w.calls.update request fun call => { call with phase } }

def withRedis (w : World) (redis : Redis) : World := { w with redis }

/-- A receipt that a call may answer with instead of accepting its turn. -/
def replayable (key : TurnKey) (r : Receipt) : Prop := ¬ r.orphaned ∨ key.asyncContinuation

instance (key : TurnKey) (r : Receipt) : Decidable (replayable key r) :=
  inferInstanceAs (Decidable (_ ∨ _))

/-- The next command of a call: `findReplayAcceptedTurn`, `claimLeaseForAcceptedTurn`,
`createAcceptedTurn`, and what `acceptTurn` does about the marker and the lease. -/
def proceed (c : RuntimeConfig) (w : World) (request : RequestId) (call : Call) (ok : Bool) :
    World :=
  match call.phase with
  | .readMarker =>
    match if ok then w.redis.readTurnReceiptMarker call.key else none with
    | some marked => w.setPhase request (.findMarked marked)
    | none => w.setPhase request .findExisting
  | .findMarked marked =>
    if ok then
      match w.receipts.findByRequest marked with
      | some (key, r) =>
        if key = call.key ∧ ¬ r.orphaned then w.setPhase request (.answered (.replayed r))
        else w.setPhase request .findExisting
      | none => w.setPhase request .findExisting
    else w.setPhase request (.answered .thrown)
  | .findExisting =>
    if ok then
      match w.receipts.get? call.key with
      | some r =>
        if replayable call.key r then
          w.setPhase request (.writeMarker r.requestId false (.replayed r))
        else w.setPhase request .claimLease
      | none => w.setPhase request .claimLease
    else w.setPhase request (.answered .thrown)
  | .claimLease =>
    if ok then
      match w.redis.claimAcceptedTurnInFlight c call.session request call.key request with
      | (.acquired, redis) => (w.withRedis redis).setPhase request .create
      | (.busy, _) => w.setPhase request (.answered .busy)
      | (.inFlight, _) => w.setPhase request (.answered .inFlight)
    else w.setPhase request (.answered .thrown)
  | .create =>
    if ok then
      match w.receipts.createAccepted call.key request call.session w.redis.now with
      | some receipts =>
        { w with receipts }.setPhase request (.writeMarker request true (.accepted
          { requestId := request, runtimeSessionId := some call.session,
            updatedAt := w.redis.now }))
      | none => w.setPhase request .findConflict
    else w.setPhase request (.clearInFlight .thrown)
  | .findConflict =>
    if ok then
      match w.receipts.get? call.key with
      | some r =>
        if replayable call.key r then
          w.setPhase request (.writeMarker r.requestId true (.replayed r))
        else w.setPhase request .reclaim
      | none => w.setPhase request (.clearInFlight .thrown)
    else w.setPhase request (.clearInFlight .thrown)
  | .reclaim =>
    if ok ∧ (w.receipts.get? call.key).any (·.orphaned) then
      { w with
        receipts := w.receipts.markReclaimed call.key request call.session
          w.redis.now }.setPhase request .findReclaimed
    else w.setPhase request (.clearInFlight .thrown)
  | .findReclaimed =>
    match if ok then w.receipts.findByRequest request else none with
    | some (_, r) => w.setPhase request (.writeMarker r.requestId true (.accepted r))
    | none => w.setPhase request (.clearInFlight .thrown)
  | .writeMarker marked claimed answer =>
    let written := if ok then
        w.withRedis (w.redis.writeTurnReceiptMarker c call.key marked)
      else w
    written.setPhase request (if claimed then .clearInFlight answer else .answered answer)
  | .clearInFlight answer =>
    let cleared := if ok then w.withRedis (w.redis.clearTurnInFlightMarker call.key) else w
    cleared.setPhase request answer.afterClear
  | .releaseGet answer =>
    if ok ∧ w.redis.leaseOwner call.session = some request then
      w.setPhase request (.releaseDel answer)
    else w.setPhase request (.answered answer)
  | .releaseDel answer =>
    (if ok then w.withRedis (w.redis.delSessionLease call.session).2 else w).setPhase request
      (.answered answer)
  | .answered _ => w

/-- The turn that a call has begun. -/
def turn (w : World) (request : RequestId) : Option Call :=
  (w.calls.get? request).filter fun call =>
    match call.phase with
    | .answered (.accepted _) => true
    | _ => false

/-- Rows an accepted turn is too old for: `findStaleAcceptedTurnReceiptCandidates`. -/
def stale (c : RuntimeConfig) (w : World) (r : Receipt) : Prop :=
  r.status = .accepted ∧ r.updatedAt < w.redis.now - c.orphanReceiptGraceMs

instance (c : RuntimeConfig) (w : World) (r : Receipt) : Decidable (w.stale c r) :=
  inferInstanceAs (Decidable (_ ∧ _))

def setCandidate (w : World) (i : Nat) (phase : CandidatePhase) : World :=
  { w with candidates := w.candidates.update i fun o => { o with phase } }

/-- The next command of the reconciler about one candidate. -/
def reconcile (w : World) (i : Nat) (o : OrphanCandidate) : World :=
  match o.phase with
  | .readInFlight =>
    w.setCandidate i (if (w.redis.readTurnInFlightMarker o.key).isSome then .ended else .hasLease)
  | .hasLease =>
    w.setCandidate i (if o.runtimeSessionId.any w.redis.hasSessionLease then .ended else .update)
  | .update =>
    if (w.receipts.find? fun _ r => r.requestId = o.requestId ∧ r.status = .accepted).isSome then
      { w with
        receipts := w.receipts.markOrphan o.requestId o.now w.redis.now
        closings := (o.requestId, .failed) :: w.closings }.setCandidate i .clearInFlight
    else w.setCandidate i .ended
  | .clearInFlight =>
    (w.withRedis (w.redis.clearTurnInFlightMarker o.key)).setCandidate i .ended
  | .ended => w

/-- An accepted turn records its end; without a row under its request this throws. -/
def finalize (w : World) (request : RequestId) (f : Finalization) : World :=
  match w.receipts.findByRequest request with
  | none => w
  | some (key, _) =>
    { w with
      receipts := w.receipts.markFinal request f w.redis.now
      closings := (request, f.status) :: w.closings
      completions :=
        match f with
        | .completed result _ => (key, request, result) :: w.completions
        | _ => w.completions }

def step (c : RuntimeConfig) (w : World) (e : Event) : World :=
  match e with
  | .wait ms => w.withRedis (w.redis.wait ms)
  | .acceptTurn request key session =>
    { w with calls := (w.calls.create request { key, session }).getD w.calls }
  | .proceed request ok =>
    match w.calls.get? request with
    | some call => w.proceed c request call ok
    | none => w
  | .renew request =>
    match w.turn request with
    | some call => w.withRedis (w.redis.renewSessionLease c call.session request).2
    | none => w
  | .finalize request f => if (w.turn request).isSome then w.finalize request f else w
  | .releaseGet request =>
    match w.turn request with
    | some call =>
      if w.redis.leaseOwner call.session = some request then
        { w with calls := w.calls.update request fun call => { call with releasing := true } }
      else w
    | none => w
  | .releaseDel request =>
    match (w.turn request).filter (·.releasing) with
    | some call =>
      { w with
        redis := (w.redis.delSessionLease call.session).2
        calls := w.calls.update request fun call => { call with releasing := false } }
    | none => w
  | .selectOrphan i key =>
    match (w.receipts.get? key).filter (w.stale c ·) with
    | some r =>
      { w with
        candidates := (w.candidates.create i ⟨key, r.requestId, r.runtimeSessionId,
          w.redis.now, .readInFlight⟩).getD w.candidates }
    | none => w
  | .reconcile i =>
    match w.candidates.get? i with
    | some o => w.reconcile i o
    | none => w

end World

end Persai.TurnRuntime
