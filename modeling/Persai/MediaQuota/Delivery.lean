import Persai.MediaQuota.Period

/-!
# Attempts to deliver a media job

A job that has run is `completion_pending`. An attempt claims it, settles what it
produced with or without delivering it, releases what was reserved beyond that, and ends
the job; an exception sends it back for another attempt, or fails it. Attempts of a
claim that has lapsed may run alongside later ones, and other jobs use the same
counters.
-/

namespace Persai.MediaQuota

open Counters

/-- `sourceToolCode` of an artifact. -/
inductive SourceTool where
  | imageGenerate | imageEdit | videoGenerate | other
  deriving DecidableEq, Repr

/-- `resolveMonthlyMediaQuotaToolCode`. -/
def SourceTool.monthlyQuotaTool : SourceTool → Option ToolCode
  | .imageGenerate => some .imageGenerate
  | .imageEdit => some .imageEdit
  | .videoGenerate | .other => none

inductive Surface where
  | web | telegram
  deriving DecidableEq, Repr

/-- What a job reserved, read back from its request. -/
structure Reservation where
  toolCode : ToolCode
  units : Nat
  units_pos : 0 < units
  deriving DecidableEq, Repr

/-- What the attempts read of a job, which none of them changes. -/
structure DeliveryJob where
  workspaceId : Nat
  surface : Surface
  /-- `parseRequestPayload` succeeds. -/
  requestReadable : Bool
  /-- `extractReservationInfoFromRequestJson`. -/
  reservation : Option Reservation
  /-- `parseArtifacts`; empty as well where it fails. -/
  artifacts : List SourceTool
  maxAttempts : Nat
  deriving DecidableEq, Repr

inductive JobStatus where
  | completionPending | delivered | failed
  deriving DecidableEq, Repr

/-- With `deferred` the artifacts are settled without a chat message. -/
inductive DeliveryMode where
  | deferred | deliver
  deriving DecidableEq, Repr

/-- What an attempt does next. -/
inductive AttemptPhase where
  | started
  | preparing
  | persisting (i : Nat)
  | sending (i : Nat)
  | settling (i : Nat)
  | marking (i : Nat)
  | releasing
  | finishing
  /-- Its exception is about to be handled. -/
  | caught
  /-- `failDelivery`, with and without the reservation to reconcile. -/
  | reconciling
  | failing
  | ended
  deriving DecidableEq, Repr

structure Attempt where
  attemptCount : Nat
  phase : AttemptPhase := .started
  mode : DeliveryMode := .deliver
  /-- What `findById` found before the artifacts. -/
  assistantFound : Bool := false
  /-- How many artifacts are among the delivered attachments. -/
  attachments : Nat := 0
  /-- `deliveryState.loopResolved`. -/
  loopResolved : Bool := false
  deriving DecidableEq, Repr

/-- The parts of a reservation that attempts account for. -/
inductive Portion where
  | artifact (i : Nat)
  | remainder
  | whole
  deriving DecidableEq, Repr

/-- What a quota or wallet call meets: whether the transaction goes through, the period
and limit that it resolves, and the cost of the video, `none` where computing it throws. -/
structure QuotaCall where
  ok : Bool := true
  period : Period
  limitUnits : Option Nat := none
  vcCost : Option Nat := none
  deriving DecidableEq, Repr

inductive Persisted where
  | attached | alreadyDelivered | failed
  deriving DecidableEq, Repr

structure DeliveryState where
  counters : Counters := ∅
  balanceVc : Int := 0
  status : JobStatus := .completionPending
  attemptCount : Nat := 0
  /-- `schedulerClaimToken`, and whether its time has passed. -/
  claim : Option Nat := none
  lapsed : Bool := false
  attempts : KeyedTable Nat Attempt := ∅
  /-- The units that the job's quota calls moved out of reserve, the portions these were
  made for and the artifacts that were debited. No row holds them. -/
  moved : Int := 0
  called : List Portion := []
  debits : List Nat := []

inductive DeliveryEvent where
  | claim (attempt : Nat)
  | lapse
  | read (attempt : Nat)
  | prepare (attempt : Nat) (mode : DeliveryMode) (assistantFound : Bool)
  | persist (attempt : Nat) (outcome : Persisted)
  | send (attempt : Nat) (ok : Bool)
  | settle (attempt : Nat) (call : QuotaCall)
  | mark (attempt : Nat) (call : QuotaCall)
  | release (attempt : Nat) (call : QuotaCall) (assistantFound : Bool)
  | finish (attempt : Nat)
  /-- An await throws. -/
  | throws (attempt : Nat)
  | handle (attempt : Nat)
  | reconcile (attempt : Nat) (call : QuotaCall) (assistantFound : Bool)
  | fail (attempt : Nat) (noticeDelivered : Bool)
  /-- Another job, or the reservation of this one. -/
  | other (operation : Operation)
  deriving DecidableEq, Repr

namespace DeliveryJob

/-- The units the job has reserved. -/
def units (job : DeliveryJob) : Nat := (job.reservation.map Reservation.units).getD 0

/-- The units that nothing was produced for. -/
def remainder (job : DeliveryJob) : Nat := job.units - job.artifacts.length

def quotaTool (job : DeliveryJob) (i : Nat) : Option ToolCode :=
  job.artifacts[i]?.bind SourceTool.monthlyQuotaTool

def isVideo (job : DeliveryJob) (i : Nat) : Bool := job.artifacts[i]? = some .videoGenerate

def input (job : DeliveryJob) (tool : ToolCode) (units : Nat) (call : QuotaCall) :
    MutationInput where
  key := ⟨job.workspaceId, tool, call.period⟩
  units := units
  limitUnits := call.limitUnits

/-- The failure of a job's execution, which the scheduler hands over for its notice. It has
released the reservation. -/
def handedOver (job : DeliveryJob) : Prop := job.surface = .telegram ∧ job.artifacts = []

instance (job : DeliveryJob) : Decidable job.handedOver := inferInstanceAs (Decidable (_ ∧ _))

def start (job : DeliveryJob) : DeliveryState :=
  if job.handedOver then { moved := job.units, called := [.whole] } else {}

/-- What follows the artifacts before the `i`-th. -/
def loopAt (job : DeliveryJob) (mode : DeliveryMode) (i : Nat) : AttemptPhase :=
  if i < job.artifacts.length then
    match mode with
    | .deferred => .settling i
    | .deliver => .persisting i
  else .releasing

end DeliveryJob

/-- The loop sets `loopResolved` when it is through. -/
def Attempt.goTo (t : Attempt) (phase : AttemptPhase) : Attempt :=
  { t with phase, loopResolved := t.loopResolved || phase = .releasing }

namespace DeliveryState

def setAttempt (s : DeliveryState) (a : Nat) (t : Attempt) : DeliveryState :=
  { s with attempts := s.attempts.update a fun _ => t }

/-- A quota call for a portion; its failure is logged and swallowed. -/
def quota (s : DeliveryState) (x : Portion) (how : Resolution) (input : MutationInput)
    (call : QuotaCall) : DeliveryState :=
  match if call.ok then how.apply s.counters input else none with
  | some counters =>
    { s with
      counters
      moved := s.moved + ((s.counters.counter input.key).reservedUnits -
        (counters.counter input.key).reservedUnits)
      called := x :: s.called }
  | none => { s with called := x :: s.called }

/-- The call for the unit of an artifact, if it has one. -/
def quotaOf (job : DeliveryJob) (s : DeliveryState) (i : Nat) (how : Resolution)
    (call : QuotaCall) : DeliveryState :=
  match job.quotaTool i with
  | some tool => s.quota (.artifact i) how (job.input tool 1 call) call
  | none => s

/-- `settleVideoGenerateWithVcoinDebit`; its failure is logged by the loop. -/
def debit (s : DeliveryState) (i : Nat) (call : QuotaCall) : DeliveryState :=
  match if call.ok then call.vcCost else none with
  | some vcCost => { s with balanceVc := s.balanceVc - vcCost, debits := i :: s.debits }
  | none => s

/-- The job row, if the attempt still holds the claim. -/
def updateJob (s : DeliveryState) (a : Nat) (status : JobStatus) : DeliveryState :=
  if s.claim = some a then { s with status, claim := none } else s

def claimJob (s : DeliveryState) (a : Nat) : DeliveryState :=
  if s.status = .completionPending ∧ (s.claim = none ∨ s.lapsed) then
    match s.attempts.create a { attemptCount := s.attemptCount + 1 } with
    | some attempts =>
      { s with attempts, attemptCount := s.attemptCount + 1, claim := some a, lapsed := false }
    | none => s
  else s

/-- What an attempt does in its phase, `none` for an event of another phase. -/
def attemptStep (job : DeliveryJob) (s : DeliveryState) (a : Nat) (t : Attempt) :
    DeliveryEvent → Option DeliveryState
  | .read _ =>
    if t.phase = .started then
      some (s.setAttempt a (t.goTo
        (if ¬ job.requestReadable then .reconciling
        else if job.artifacts = [] then
          if job.surface = .telegram then .failing else .reconciling
        else .preparing)))
    else none
  | .prepare _ mode assistantFound =>
    if t.phase = .preparing then
      some (s.setAttempt a ({ t with mode, assistantFound }.goTo (job.loopAt mode 0)))
    else none
  | .persist _ outcome =>
    match t.phase with
    | .persisting i =>
      match outcome with
      | .attached => some (s.setAttempt a (t.goTo (.sending i)))
      | .alreadyDelivered =>
        some (s.setAttempt a ({ t with attachments := t.attachments + 1 }.goTo
          (job.loopAt t.mode (i + 1))))
      | .failed =>
        some (s.setAttempt a (t.goTo
          (if job.isVideo i then job.loopAt t.mode (i + 1) else .marking i)))
    | _ => none
  | .send _ ok =>
    match t.phase with
    | .sending i =>
      if ok then
        some (s.setAttempt a ({ t with attachments := t.attachments + 1 }.goTo (.settling i)))
      else
        some (s.setAttempt a (t.goTo
          (if job.isVideo i then job.loopAt t.mode (i + 1) else .marking i)))
    | _ => none
  | .settle _ call =>
    match t.phase with
    | .settling i =>
      let settled :=
        if ¬ t.assistantFound then s
        else if job.isVideo i then s.debit i call
        else s.quotaOf job i .settled call
      some (settled.setAttempt a (t.goTo (job.loopAt t.mode (i + 1))))
    | _ => none
  | .mark _ call =>
    match t.phase with
    | .marking i =>
      let marked := if t.assistantFound then s.quotaOf job i .reconciliationRequired call else s
      some (marked.setAttempt a (t.goTo (job.loopAt t.mode (i + 1))))
    | _ => none
  | .release _ call assistantFound =>
    if t.phase = .releasing then
      match job.reservation with
      | some reserved =>
        if reserved.units ≤ job.artifacts.length then some (s.setAttempt a (t.goTo .finishing))
        else
          let released :=
            if assistantFound then
              s.quota .remainder .released
                (job.input reserved.toolCode (reserved.units - job.artifacts.length) call) call
            else s
          some (released.setAttempt a (t.goTo .finishing))
      | none => some (s.setAttempt a (t.goTo .finishing))
    else none
  | .finish _ =>
    if t.phase = .finishing then
      if t.mode = .deliver ∧ t.attachments = 0 then
        if job.surface = .telegram then some (s.setAttempt a (t.goTo .caught))
        else some ((s.updateJob a .failed).setAttempt a (t.goTo .ended))
      else some ((s.updateJob a .delivered).setAttempt a (t.goTo .ended))
    else none
  | .throws _ =>
    match t.phase with
    | .preparing | .releasing | .finishing => some (s.setAttempt a (t.goTo .caught))
    | .reconciling | .failing => some (s.setAttempt a (t.goTo .ended))
    | _ => none
  | .handle _ =>
    if t.phase = .caught then
      if t.attemptCount < job.maxAttempts then
        some ((s.updateJob a .completionPending).setAttempt a (t.goTo .ended))
      else some (s.setAttempt a (t.goTo (if t.loopResolved then .failing else .reconciling)))
    else none
  | .reconcile _ call assistantFound =>
    if t.phase = .reconciling then
      match job.reservation with
      | some reserved =>
        let reconciled :=
          if assistantFound then
            s.quota .whole .reconciliationRequired
              (job.input reserved.toolCode reserved.units call) call
          else s
        some (reconciled.setAttempt a (t.goTo .failing))
      | none => some (s.setAttempt a (t.goTo .failing))
    else none
  | .fail _ noticeDelivered =>
    if t.phase = .failing then
      some ((s.updateJob a
        (if job.surface = .telegram ∧ ¬ noticeDelivered ∧ t.attemptCount < job.maxAttempts then
          .completionPending
        else .failed)).setAttempt a (t.goTo .ended))
    else none
  | .claim _ | .lapse | .other _ => none

end DeliveryState

def DeliveryEvent.attempt : DeliveryEvent → Option Nat
  | .read a | .prepare a .. | .persist a _ | .send a _ | .settle a _ | .mark a _ | .release a ..
  | .finish a | .throws a | .handle a | .reconcile a .. | .fail a _ => some a
  | .claim _ | .lapse | .other _ => none

namespace DeliveryState

def step (job : DeliveryJob) (s : DeliveryState) (e : DeliveryEvent) : DeliveryState :=
  match e with
  | .claim a => s.claimJob a
  | .lapse => { s with lapsed := true }
  | .other operation =>
    { s with counters := (Ledger.step { counters := s.counters } operation).counters }
  | e =>
    match e.attempt with
    | some a => ((s.attempts.get? a).bind fun t => s.attemptStep job a t e).getD s
    | none => s

end DeliveryState

end Persai.MediaQuota
