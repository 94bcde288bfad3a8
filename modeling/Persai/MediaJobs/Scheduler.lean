import Mathlib.Algebra.Group.Int.Defs
import Mathlib.Logic.Function.Basic
import Persai.MediaJobs.Request

/-!
# The media-job scheduler

One row of `assistant_media_jobs`, the workers that have claimed it, and what they do to it and
beside it. A worker does one statement or call after another; what lies between two of them is a
phase. Every event names the worker, so that a list of events is an interleaving.
-/

namespace Persai.MediaJobs

open ModelCost (Value Row)

/-! ## The row and its claim -/

inductive Surface | web | telegram
  deriving DecidableEq, Repr

inductive MediaJobStatus
  | queued | running | completionPending | delivered | failed | canceled | expired
  deriving DecidableEq, Repr

/-- Times are milliseconds, a claim token is the number of its claim. -/
structure MediaJob where
  surface : Surface
  userId : Option String
  sourceUserMessageId : Option String
  requestJson : Value
  status : MediaJobStatus
  attemptCount : Nat
  maxAttempts : Nat
  nextRetryAt : Option Int
  schedulerClaimToken : Option Nat
  schedulerClaimedAt : Option Int
  schedulerClaimExpiresAt : Option Int
  startedAt : Option Int
  completedAt : Option Int
  failedAt : Option Int
  lastErrorCode : Option String
  lastErrorMessage : Option String
  resultText : Option String
  artifactsJson : Option (List Value)
  billingFactsJson : Option Value
  completionAssistantMessageId : Option String

/-- The row as the enqueue leaves it. -/
def enqueued (surface : Surface) (userId sourceUserMessageId : Option String)
    (requestJson : Value) (maxAttempts : Nat) : MediaJob where
  surface
  userId
  sourceUserMessageId
  requestJson
  status := .queued
  attemptCount := 0
  maxAttempts
  nextRetryAt := none
  schedulerClaimToken := none
  schedulerClaimedAt := none
  schedulerClaimExpiresAt := none
  startedAt := none
  completedAt := none
  failedAt := none
  lastErrorCode := none
  lastErrorMessage := none
  resultText := none
  artifactsJson := none
  billingFactsJson := none
  completionAssistantMessageId := none

structure ClaimedMediaJob where
  surface : Surface
  requestJson : Value
  attemptCount : Nat
  maxAttempts : Nat
  claimToken : Nat

def mediaJobPollIntervalMs : Int := 5000

def mediaJobClaimTtlMs : Int := 10 * 60 * 1000

def computeRetryBackoffMs (attempt : Nat) : Int :=
  min (60 * 60 * 1000) (30000 * 2 ^ (max 1 attempt - 1))

def truncateLastError (message : String) : String :=
  if utf16Length message ≤ 1000 then message
  else String.ofList (takeUnits 997 message.toList) ++ "..."

/-- What `claimDueJobs` selects. -/
def MediaJob.due (job : MediaJob) (now : Int) : Bool :=
  match job.status with
  | .queued => job.nextRetryAt.all (· ≤ now)
  | .running => job.schedulerClaimExpiresAt.any (· ≤ now)
  | _ => false

/-- A string that is there and is not empty. -/
def present (text : Option String) : Bool := text.any (!·.isEmpty)

/-- A row that is selected and not skipped. -/
def MediaJob.claimable (job : MediaJob) (now : Int) : Bool :=
  job.due now && present job.sourceUserMessageId

def MediaJob.claimed (job : MediaJob) (claimToken : Nat) (now : Int) : MediaJob :=
  { job with
    status := .running
    attemptCount := job.attemptCount + 1
    schedulerClaimToken := some claimToken
    schedulerClaimedAt := some now
    schedulerClaimExpiresAt := some (now + mediaJobClaimTtlMs)
    startedAt := if job.attemptCount = 0 then some now else job.startedAt
    completedAt := none
    failedAt := none
    lastErrorCode := none
    lastErrorMessage := none }

def MediaJob.unclaimed (job : MediaJob) : MediaJob :=
  { job with
    schedulerClaimToken := none
    schedulerClaimedAt := none
    schedulerClaimExpiresAt := none }

/-! ## A worker -/

/-- What `processClaimedJob` finds for the job before it runs it. -/
inductive Lookup | assistantMissing | bundleMissing | ready
  deriving DecidableEq, Repr

structure RunResult where
  assistantText : Option String
  artifacts : List Value
  billingFacts : Option Value

inductive Outcome where
  | ok (result : RunResult)
  | failed (failure : Failure)

/-- The next statement or call of a worker. `failing`, `released` and `announced` are in `failJob`:
before the release of the reservation, before the message and before the update. -/
inductive Phase where
  | claimed
  | ready (payload : MediaJobRequestPayload)
  | running (payload : MediaJobRequestPayload)
  | completing (result : RunResult)
  | recovering (accepted : AcceptedPrimaryUnconfirmedStatus) (failure : Failure)
  | retrying (failure : Failure)
  | failing (code : Option String) (message : String)
  | released (code : Option String) (message : String)
  | announced (code : Option String) (message failureMessage : String)
      (completionAssistantMessageId : Option String)
  | appendingLedger (billingFacts : Value)
  | recordingCompletion (code : Option String)
  | done

/-- Before the run of the runtime. -/
def Phase.unstarted : Phase → Bool
  | .claimed | .ready _ => true
  | _ => false

/-- Between the decision to fail and the update that says so. -/
def Phase.inFailJob : Phase → Bool
  | .failing _ _ | .released _ _ | .announced _ _ _ _ => true
  | _ => false

/-- Inside `failJob`, after the release. -/
def Phase.spent : Phase → Bool
  | .released _ _ | .announced _ _ _ _ => true
  | _ => false

theorem Phase.inFailJob_of_spent {phase : Phase} (spent : phase.spent) : phase.inFailJob := by
  cases phase <;> first | rfl | cases spent

/-- `alive` until a step throws or the process dies. -/
structure Worker where
  job : ClaimedMediaJob
  phase : Phase
  alive : Bool

def ClaimedMediaJob.afterLookup (job : ClaimedMediaJob) (lookup : Lookup) : Phase :=
  match parseRequestPayload job.requestJson with
  | none => .failing (some "invalid_request_payload") "Media job request payload is invalid."
  | some payload =>
    match lookup with
    | .assistantMissing => .failing (some "assistant_not_found") "Assistant not found."
    | .bundleMissing =>
      .failing (some "runtime_bundle_missing") "Assistant runtime bundle is not materialized."
    | .ready => .ready payload

def ClaimedMediaJob.canRetry (job : ClaimedMediaJob) (failure : Failure) : Bool :=
  failure.retryable && job.attemptCount < job.maxAttempts

/-- The rest of `handleFailedExecution`, where nothing was moved to the recovery. -/
def ClaimedMediaJob.retryOrFail (job : ClaimedMediaJob) (failure : Failure) : Phase :=
  if job.canRetry failure then .retrying failure else .failing failure.code failure.message

def ClaimedMediaJob.handleFailedExecution (parse : String → Option Value) (job : ClaimedMediaJob)
    (nowIso : String) (failure : Failure) : Phase :=
  match readAcceptedPrimaryUnconfirmed parse nowIso failure with
  | some accepted => .recovering accepted failure
  | none => job.retryOrFail failure

def ClaimedMediaJob.afterRun (parse : String → Option Value) (job : ClaimedMediaJob)
    (nowIso : String) : Outcome → Phase
  | .failed failure => job.handleFailedExecution parse nowIso failure
  | .ok result =>
    if result.artifacts.isEmpty then
      .failing (some "media_job_artifacts_missing")
        "Media job worker completed without any deliverable artifacts."
    else .completing result

/-! ## The updates that ask for the token -/

def MediaJob.completionPending (job : MediaJob) (result : RunResult) (now : Int) : MediaJob :=
  { job.unclaimed with
    status := .completionPending
    resultText := result.assistantText
    artifactsJson := some result.artifacts
    billingFactsJson := result.billingFacts
    completedAt := some now
    nextRetryAt := none
    lastErrorCode := none
    lastErrorMessage := none }

def MediaJob.requeued (job : MediaJob) (nextRetryAt : Int) (code : Option String)
    (message : String) : MediaJob :=
  { job.unclaimed with
    status := .queued
    nextRetryAt := some nextRetryAt
    lastErrorCode := code
    lastErrorMessage := some (truncateLastError message) }

/-- The failure of a telegram job: its message is handed to the delivery. -/
def MediaJob.failurePending (job : MediaJob) (code : Option String)
    (message failureMessage completionAssistantMessageId : String) (now : Int) : MediaJob :=
  { job.unclaimed with
    status := .completionPending
    resultText := some failureMessage
    artifactsJson := some []
    completedAt := some now
    nextRetryAt := none
    lastErrorCode := code
    lastErrorMessage := some (truncateLastError message)
    completionAssistantMessageId := some completionAssistantMessageId }

def MediaJob.terminallyFailed (job : MediaJob) (code : Option String) (message : String)
    (completionAssistantMessageId : Option String) (now : Int) : MediaJob :=
  { job.unclaimed with
    status := .failed
    failedAt := some now
    lastErrorCode := code
    lastErrorMessage := some (truncateLastError message)
    completionAssistantMessageId :=
      completionAssistantMessageId.or job.completionAssistantMessageId }

/-- The update of a worker, if one is next, and the phases after it: where the row had its token,
and where it had not. -/
def Worker.update (w : Worker) (job : MediaJob) (now : Int) : Option (MediaJob × Phase × Phase) :=
  match w.phase with
  | .completing result =>
    let next := result.billingFacts.elim .done .appendingLedger
    some (job.completionPending result now, next, next)
  | .recovering accepted failure =>
    some ({ job.requeued (now + mediaJobPollIntervalMs) (some "accepted_primary_unconfirmed")
              failure.message with
            requestJson := withAcceptedProviderTask w.job.requestJson accepted.task },
          .done, w.job.retryOrFail failure)
  | .retrying failure =>
    some (job.requeued (now + computeRetryBackoffMs w.job.attemptCount) failure.code
            failure.message, .done, .done)
  | .announced code message failureMessage completionAssistantMessageId =>
    match w.job.surface, completionAssistantMessageId with
    | .telegram, some id =>
      some (job.failurePending code message failureMessage id now, .done, .done)
    | _, id =>
      some (job.terminallyFailed code message id now, .recordingCompletion code, .done)
  | _ => none

/-- What an update of a worker makes of the row, and where it leaves the worker. -/
structure Updates (w : Worker) (job next : MediaJob) (matched missed : Phase) : Prop where
  free : next.schedulerClaimToken = none
  stopped : next.status ≠ .running
  requeued : next.status = .queued → ¬ w.phase.spent
  attemptCount : next.attemptCount = job.attemptCount
  maxAttempts : next.maxAttempts = job.maxAttempts
  matched : ¬ matched.inFailJob ∧ ¬ matched.unstarted
  missed : (¬ missed.inFailJob ∧ ¬ missed.unstarted) ∨
    ∃ accepted failure, w.phase = .recovering accepted failure ∧
      missed = w.job.retryOrFail failure

/-- The update gives the claim back, and it requeues only what was not released. -/
theorem update_cases {w : Worker} {job next : MediaJob} {now : Int} {matched missed : Phase}
    (found : w.update job now = some (next, matched, missed)) :
    Updates w job next matched missed := by
  have outside : ¬ (false = true) ∧ ¬ (false = true) := ⟨Bool.false_ne_true, Bool.false_ne_true⟩
  cases at_phase : w.phase with
  | claimed | ready | running | failing | released | appendingLedger | recordingCompletion | done =>
    simp [Worker.update, at_phase] at found
  | completing result =>
    simp only [Worker.update, at_phase, Option.some.injEq, Prod.mk.injEq] at found
    obtain ⟨rfl, rfl, rfl⟩ := found
    have next_outside : ¬ (result.billingFacts.elim Phase.done .appendingLedger).inFailJob ∧
        ¬ (result.billingFacts.elim Phase.done .appendingLedger).unstarted := by
      cases result.billingFacts <;> exact outside
    exact ⟨rfl, nofun, nofun, rfl, rfl, next_outside, .inl next_outside⟩
  | recovering accepted failure =>
    simp only [Worker.update, at_phase, Option.some.injEq, Prod.mk.injEq] at found
    obtain ⟨rfl, rfl, rfl⟩ := found
    exact ⟨rfl, nofun, fun _ => by simp [at_phase, Phase.spent], rfl, rfl, outside,
      .inr ⟨accepted, failure, at_phase, rfl⟩⟩
  | retrying failure =>
    simp only [Worker.update, at_phase, Option.some.injEq, Prod.mk.injEq] at found
    obtain ⟨rfl, rfl, rfl⟩ := found
    exact ⟨rfl, nofun, fun _ => by simp [at_phase, Phase.spent], rfl, rfl, outside, .inl outside⟩
  | announced code message failureMessage completionAssistantMessageId =>
    simp only [Worker.update, at_phase] at found
    split at found
    all_goals
      cases found
      exact ⟨rfl, nofun, nofun, rfl, rfl, outside, .inl outside⟩

theorem retryOrFail_cases (job : ClaimedMediaJob) (failure : Failure) :
    job.retryOrFail failure = .retrying failure ∨
      job.retryOrFail failure = .failing failure.code failure.message := by
  unfold ClaimedMediaJob.retryOrFail
  split
  · exact .inl rfl
  · exact .inr rfl

/-! ## The system -/

/-- A run of the runtime: the claim and the payload that it was started for. -/
structure StartedRun where
  claimToken : Nat
  payload : MediaJobRequestPayload

/-- The row, its workers by token, and what they have done beside the row, the newest first: runs of
the runtime, releases of the reservation, failure messages in the chat, entries of the cost ledger
and codes of failures recorded with the handle. -/
structure World where
  job : MediaJob
  workers : Nat → Option Worker
  nextToken : Nat
  started : List StartedRun
  releases : List Reservation
  messages : List String
  ledger : List Value
  completions : List (Option String)

inductive Event where
  | claimDueJobs (now : Int)
  | prepare (claimToken : Nat) (lookup : Lookup)
  | startRun (claimToken : Nat)
  | runReturns (claimToken : Nat) (outcome : Outcome) (nowIso : String)
  | update (claimToken : Nat) (now : Int)
  | releaseEnqueueReservation (claimToken : Nat) (assistantFound released : Bool)
  | createMessage (claimToken : Nat) (failureMessage : String) (created : Option String)
  | record (claimToken : Nat) (recorded : Bool)
  | die (claimToken : Nat)
  /-- The runtime reports the provider task of a run: `read` is the request as the service has read
  it before. -/
  | checkpointAcceptedProviderTask (read : Value) (task : Row)

def Event.claimToken? : Event → Option Nat
  | .claimDueJobs _ | .checkpointAcceptedProviderTask _ _ => none
  | .prepare t _ | .startRun t | .runReturns t _ _ | .update t _
  | .releaseEnqueueReservation t _ _ | .createMessage t _ _ | .record t _ | .die t => some t

namespace World

def start (job : MediaJob) : World := ⟨job, fun _ => none, 0, [], [], [], [], []⟩

/-- The worker that holds the claim of the row. -/
def holder (s : World) : Option Worker := s.job.schedulerClaimToken.bind s.workers

def claimDueJobs (s : World) (now : Int) : World :=
  if s.job.claimable now then
    { s with
      job := s.job.claimed s.nextToken now
      nextToken := s.nextToken + 1
      workers := Function.update s.workers s.nextToken <|
        if present s.job.userId then
          some { job := { surface := s.job.surface
                          requestJson := s.job.requestJson
                          attemptCount := s.job.attemptCount + 1
                          maxAttempts := s.job.maxAttempts
                          claimToken := s.nextToken }
                 phase := .claimed
                 alive := true }
        else none }
  else s

def checkpointAcceptedProviderTask (s : World) (read : Value) (task : Row) : World :=
  if (s.job.status = .queued ∨ s.job.status = .running) ∧
      readExistingProviderTaskId read = none then
    { s with job := { s.job with requestJson := withAcceptedProviderTask read task } }
  else s

/-- What a worker does to all but itself, and its next phase. -/
def advance (parse : String → Option Value) (s : World) (w : Worker) (e : Event) : World × Phase :=
  match e, w.phase with
  | .prepare _ lookup, .claimed => (s, w.job.afterLookup lookup)
  | .startRun _, .ready payload =>
    ({ s with started := ⟨w.job.claimToken, payload⟩ :: s.started }, .running payload)
  | .runReturns _ outcome nowIso, .running _ => (s, w.job.afterRun parse nowIso outcome)
  | .releaseEnqueueReservation _ assistantFound released, .failing code message =>
    match extractReservationInfoFromRequestJson w.job.requestJson with
    | some reservation =>
      if assistantFound && released then
        ({ s with releases := reservation :: s.releases }, .released code message)
      else (s, .released code message)
    | none => (s, .released code message)
  | .createMessage _ failureMessage created, .released code message =>
    ({ s with messages := if created.isSome then failureMessage :: s.messages else s.messages },
      .announced code message failureMessage created)
  | .record _ recorded, .appendingLedger billingFacts =>
    ({ s with ledger := if recorded then billingFacts :: s.ledger else s.ledger }, .done)
  | .record _ recorded, .recordingCompletion code =>
    ({ s with completions := if recorded then code :: s.completions else s.completions }, .done)
  | .update _ now, phase =>
    match w.update s.job now with
    | some (job, matched, missed) =>
      -- `updateMany` with the token of the claim: no row or this one
      if s.job.schedulerClaimToken = some w.job.claimToken then ({ s with job }, matched)
      else (s, missed)
    | none => (s, phase)
  | _, phase => (s, phase)

def goTo (s : World) (claimToken : Nat) (w : Worker) : World :=
  { s with workers := Function.update s.workers claimToken (some w) }

def alive? (s : World) (claimToken : Nat) : Option Worker :=
  (s.workers claimToken).filter (·.alive)

def step (parse : String → Option Value) (s : World) (e : Event) : World :=
  match e with
  | .claimDueJobs now => s.claimDueJobs now
  | .checkpointAcceptedProviderTask read task => s.checkpointAcceptedProviderTask read task
  | .die claimToken =>
    match s.workers claimToken with
    | some w => s.goTo claimToken { w with alive := false }
    | none => s
  | e =>
    match e.claimToken? with
    | none => s
    | some claimToken =>
      match s.alive? claimToken with
      | none => s
      | some w =>
        let (s', phase) := s.advance parse w e
        s'.goTo claimToken { w with phase }

end World

end Persai.MediaJobs
