import Persai.KeyedTable
import Persai.Text

/-!
# Async job handles and the tables they are decided on

A handle is the durable row of one background job (media, document or sandbox):
whether somebody still has to narrate its result, who, and how far that got.
Next to it stand the rows its transactions read: chats, canonical jobs, messages
and the messages that carry attachments.
-/

namespace Persai.JobHandle

abbrev Id := Nat
abbrev Token := Nat

/-- Milliseconds. -/
abbrev Time := Nat

/-- `MAX_ASYNC_CONTINUATION_DEPTH`. -/
def maxAsyncContinuationDepth : Nat := 4

/-- `ASYNC_CONTINUATION_MAX_RETRIES`. -/
def asyncContinuationMaxRetries : Nat := 8

inductive JobKind where
  | media | document | sandbox
  deriving DecidableEq, Repr

inductive Channel where
  | web | telegram
  deriving DecidableEq, Repr

inductive HandleState where
  | none | subscribed | ready | claimed | dispatched | completed | failed | cancelled
  deriving DecidableEq, Repr

inductive NarrationOwner where
  | currentTurn | continuation | legacy
  deriving DecidableEq, Repr

inductive NarrationDecision where
  | currentTurnInline | notifySubscribed | legacyCompletion | continuationDepthExhausted
  deriving DecidableEq, Repr

inductive TerminalStatus where
  | completed | failed | cancelled
  deriving DecidableEq, Repr

inductive SandboxTool where
  | shell | exec
  deriving DecidableEq, Repr

/-- The result of a sandbox job as a narrator sees it. -/
structure SandboxTerminalResult where
  toolCode : SandboxTool
  exitCode : Option Int
  stdout : Option String
  stderr : Option String
  paths : List String
  deriving DecidableEq, Repr

/-- Canonical truth about a job that has ended. -/
structure CanonicalTerminal where
  status : TerminalStatus
  errorCode : Option String
  message : String
  sandboxResult : Option SandboxTerminalResult
  deriving DecidableEq, Repr

/-- The payload a sandbox job stores, as far as it has the fields read here. -/
structure SandboxPayload where
  reason : Option String := none
  exitCode : Option Int := none
  stdout : Option String := none
  stderr : Option String := none
  producedPaths : List String := []
  deriving DecidableEq, Repr

/-- `terminalSnapshotJson`: written by an observer, by a delivery worker or by
the reconciler of sandbox jobs, each in its own shape. -/
inductive TerminalSnapshot where
  | observed (terminal : CanonicalTerminal)
  | delivered (status : TerminalStatus) (errorCode : Option String) (message : String)
  | sandbox (status : TerminalStatus) (result : Option SandboxPayload)
  deriving DecidableEq, Repr

inductive DeliveryAttemptKind where
  | artifacts | external
  deriving DecidableEq, Repr

inductive DeliveryAttemptResult where
  | attempting | delivered | failed | ambiguous | notNeeded
  deriving DecidableEq, Repr

/-- One kind of delivery attempt of a continuation. -/
structure DeliveryAttempt where
  attemptedAt : Option Time := none
  deliveredAt : Option Time := none
  result : Option DeliveryAttemptResult := none
  error : Option String := none
  deriving DecidableEq, Repr

/-- A row of `assistant_async_job_handles`; defaults as the schema gives them. -/
structure Handle where
  jobRef : Id
  kind : JobKind
  canonicalJobId : Id
  assistantId : Id
  workspaceId : Id
  userId : Id
  chatId : Id
  channel : Channel
  threadKey : Option String
  sourceClientTurnId : Option String
  sourceUserMessageId : Option Id
  runtimeSessionId : Option Id := none
  state : HandleState := .none
  terminalSnapshotJson : Option TerminalSnapshot := none
  narrationOwner : Option NarrationOwner := none
  narrationDecision : Option NarrationDecision := none
  sourceFinalizedAt : Option Time := none
  narrationDecisionAt : Option Time := none
  terminalObservedAt : Option Time := none
  continuationDepth : Nat := 0
  continuationClientTurnId : Option String := none
  claimToken : Option Token := none
  claimedAt : Option Time := none
  claimExpiresAt : Option Time := none
  readyAt : Option Time := none
  catchUpOrdinal : Option Nat := none
  catchUpWaveTotal : Option Nat := none
  catchUpWaveId : Option Id := none
  dispatchedAt : Option Time := none
  dispatchReceiptRequestId : Option String := none
  continuationAssistantMessageId : Option Id := none
  continuationArtifacts : DeliveryAttempt := {}
  continuationExternal : DeliveryAttempt := {}
  completedAt : Option Time := none
  failedAt : Option Time := none
  cancelledAt : Option Time := none
  retryCount : Nat := 0
  maxRetries : Nat := 8
  nextRetryAt : Option Time := none
  lastErrorCode : Option String := none
  lastErrorMessage : Option String := none
  updatedAt : Time := 0
  deriving DecidableEq, Repr

structure Chat where
  assistantId : Id
  workspaceId : Id
  userId : Id
  surface : Channel
  surfaceThreadKey : String
  deriving DecidableEq, Repr

inductive MessageAuthor where
  | user | assistant | system
  deriving DecidableEq, Repr

structure ChatMessage where
  chatId : Id
  assistantId : Id
  author : MessageAuthor
  content : String
  asyncContinuationClientTurnId : Option String := none
  asyncContinuationPermanentFailure : Bool := false
  deriving DecidableEq, Repr

inductive SandboxJobStatus where
  | queued | running | detached | completed | failed | blocked | cancelled
  deriving DecidableEq, Repr

structure SandboxJob where
  status : SandboxJobStatus
  /-- `none` for a tool other than `shell` and `exec`. -/
  toolCode : Option SandboxTool
  runtimeSessionId : Option Id
  resultPayload : Option SandboxPayload
  deriving DecidableEq, Repr

inductive MediaJobStatus where
  | queued | running | completionPending | delivered | failed | canceled | expired
  deriving DecidableEq, Repr

structure MediaJob where
  status : MediaJobStatus
  lastErrorCode : Option String := none
  deliveredAt : Option Time := none
  completionAssistantMessageId : Option Id := none
  deriving DecidableEq, Repr

inductive DocumentJobStatus where
  | queued | running | providerProcessing | fetchingOutput | readyForDelivery
  | delivered | failed | expired | canceled
  deriving DecidableEq, Repr

structure DocumentJob where
  status : DocumentJobStatus
  lastErrorCode : Option String := none
  deliveredAt : Option Time := none
  /-- `completionAssistantMessageId` of the provider status payload. -/
  completionAssistantMessageId : Option Id := none
  deriving DecidableEq, Repr

structure Tables where
  handles : KeyedTable Id Handle := ∅
  chats : KeyedTable Id Chat := ∅
  mediaJobs : KeyedTable Id MediaJob := ∅
  documentJobs : KeyedTable Id DocumentJob := ∅
  sandboxJobs : KeyedTable Id SandboxJob := ∅
  messages : KeyedTable Id ChatMessage := ∅
  /-- The messages that carry an attachment. -/
  attachments : List Id := []
  /-- What `randomUUID` gives next: no id twice. -/
  uuid : Nat := 0

/-- `text`: a string with something in it, without the blanks around it. -/
def text (value : Option String) : Option String :=
  (value.map trim).filter fun s => s ≠ ""

/-- `boundedText`. -/
def boundedText (value : Option String) : Option String :=
  value.map fun s => String.ofList (takeUnits 16384 s.toList)

/-- `boundedPaths`. -/
def boundedPaths (payload : Option SandboxPayload) : List String :=
  ((payload.map (·.producedPaths)).getD []).take 64

/-- What `readCanonical` reports about an existing job. -/
inductive Canonical where
  | pending
  | terminal (t : CanonicalTerminal)
  deriving DecidableEq, Repr

def readSandbox (job : SandboxJob) (tool : SandboxTool) : Canonical :=
  match job.status with
  | .queued | .running | .detached => .pending
  | .completed => .terminal (finished .completed "Sandbox job completed.")
  | .cancelled => .terminal (finished .cancelled "Sandbox job was cancelled.")
  | .failed | .blocked => .terminal (finished .failed "Sandbox job failed.")
where
  finished (status : TerminalStatus) (message : String) : CanonicalTerminal :=
    { status, message
      errorCode := text (job.resultPayload.bind (·.reason))
      sandboxResult := some
        { toolCode := tool
          exitCode := job.resultPayload.bind (·.exitCode)
          stdout := boundedText (job.resultPayload.bind (·.stdout))
          stderr := boundedText (job.resultPayload.bind (·.stderr))
          paths := boundedPaths job.resultPayload } }

def jobFailed (errorCode : Option String) : Canonical :=
  .terminal ⟨.failed, errorCode, "Job failed.", none⟩

def jobCancelled : Canonical := .terminal ⟨.cancelled, none, "Job was cancelled.", none⟩

def jobDelivered : Canonical :=
  .terminal ⟨.completed, none, "Job completed and was delivered.", none⟩

/-- Failure and cancellation win over a delivery, which a failure notice also stamps. -/
def Tables.readMedia (t : Tables) (job : MediaJob) : Canonical :=
  match job.status with
  | .failed | .expired => jobFailed job.lastErrorCode
  | .canceled => jobCancelled
  | .delivered => jobDelivered
  | .queued | .running | .completionPending =>
    let attachmentVisible := job.completionAssistantMessageId.any (t.attachments.contains ·)
    if job.deliveredAt.isSome || attachmentVisible then jobDelivered else .pending

def readDocument (job : DocumentJob) : Canonical :=
  match job.status with
  | .failed | .expired => jobFailed job.lastErrorCode
  | .canceled => jobCancelled
  | .delivered => jobDelivered
  | .queued | .running | .providerProcessing | .fetchingOutput | .readyForDelivery =>
    if job.deliveredAt.isSome then jobDelivered else .pending

/-- `readCanonical`: `none` when there is no such job for this handle. -/
def Tables.readCanonical (t : Tables) (kind : JobKind) (canonicalJobId : Id)
    (runtimeSessionId : Option Id) : Option Canonical :=
  match kind with
  | .sandbox => do
    let job ← t.sandboxJobs.get? canonicalJobId
    let tool ← job.toolCode
    if job.runtimeSessionId = none ∨ job.runtimeSessionId ≠ runtimeSessionId then none
    else some (readSandbox job tool)
  | .media => (t.mediaJobs.get? canonicalJobId).map t.readMedia
  | .document => (t.documentJobs.get? canonicalJobId).map readDocument

/-- The reference by which a live turn names a handle of its own. -/
structure OwnedRef where
  jobRef : Id
  assistantId : Id
  workspaceId : Id
  chatId : Id
  channel : Channel
  threadKey : String
  deriving DecidableEq, Repr

/-- `lockOwned`: the referenced handle, if it and its chat belong to the caller. -/
def Tables.lockOwned (t : Tables) (ref : OwnedRef) : Option (Id × Handle) :=
  t.handles.find? fun _ h =>
    h.jobRef = ref.jobRef ∧ h.assistantId = ref.assistantId ∧ h.workspaceId = ref.workspaceId ∧
    h.chatId = ref.chatId ∧ h.channel = ref.channel ∧ h.threadKey = some ref.threadKey ∧
    (t.chats.get? h.chatId).any fun c =>
      h.userId = c.userId ∧ c.assistantId = h.assistantId ∧ c.workspaceId = h.workspaceId ∧
      c.surface = h.channel ∧ some c.surfaceThreadKey = h.threadKey

/-- `lockCanonical`: the handle of a job. -/
def Tables.lockCanonical (t : Tables) (kind : JobKind) (canonicalJobId : Id) :
    Option (Id × Handle) :=
  t.handles.find? fun _ h => h.kind = kind ∧ h.canonicalJobId = canonicalJobId

end Persai.JobHandle
