import Persai.Notifications.Delivery

/-!
# The outcome of a delivery is truthful

* `Truthful`: what the rows of an intent say, against what the adapters have returned;
* `Calls.Kept`: what the calls must not do;
* `ends_mark`, `ends_delivered`, `ends_thrown`: what a status, a delivery or a throw leaves;
* `ends_attempt`, `ends_tryEscalation`, `ends_deliverPrimary`, `ends_deliverClaimed`: the parts of
  an execution;
* `outcome_truthful_iff`: the whole.
-/

namespace Persai.Notifications

open Faults
open ModelCost (Value)

/-! ## What the rows say -/

/-- The status of an attempt for which the adapter has returned this: a complaint counts as failed,
like any result that is neither a delivery nor a bounce. -/
def DeliveryStatus.attemptStatus : DeliveryStatus → AttemptStatus
  | .delivered => .delivered
  | .bounced => .bounced
  | .failed | .complaint => .failed

def LifecycleStatus.finished : LifecycleStatus → Bool
  | .delivered | .failed | .deadLetter => true
  | _ => false

namespace Tried

/-- The adapter has returned `delivered`. -/
def Delivered (t : Tried) : Prop := ∃ result ∈ t.answer, result.status = .delivered

/-- The status of the row is final, and the one of the result. -/
def Recorded (t : Tried) : Prop :=
  t.row.status ≠ .pending ∧ ∀ result ∈ t.answer, t.row.status = result.status.attemptStatus

instance (t : Tried) : Decidable t.Delivered := by
  unfold Delivered
  infer_instance

instance (t : Tried) : Decidable t.Recorded := by
  unfold Recorded
  infer_instance

end Tried

namespace Intent

def SaysDelivered (intent : Intent) : Prop :=
  intent.lifecycleStatus = .delivered ∨ intent.deliveredAt.isSome

def SaysFailed (intent : Intent) : Prop :=
  intent.lifecycleStatus = .failed ∨ intent.lifecycleStatus = .deadLetter ∨
    intent.deadLetteredAt.isSome ∨ intent.failureReason.isSome

/-- A row that was claimed: the creation of an intent and the replay of a dead letter leave it
without a date of delivery or of death and without a reason. -/
structure Claimed (intent : Intent) : Prop where
  status : intent.lifecycleStatus = .claimed
  deliveredAt : intent.deliveredAt = none
  deadLetteredAt : intent.deadLetteredAt = none
  failureReason : intent.failureReason = none

end Intent

/-! ## The condition -/

namespace Leg

def readsReturn (leg : Leg) : Bool :=
  leg.resolveChannel.isOk && leg.registryFindUnique.isOk && leg.render.isOk

/-- What the adapter returns, if it is called and returns. -/
def answer (leg : Leg) : Option DeliveryResult :=
  if leg.attemptCreate = .returns then leg.deliver.toOption else none

/-- The adapter has returned `delivered`, and the transaction after it throws; it may have been
committed all the same. -/
def LosesDelivery (leg : Leg) : Prop :=
  ∃ result ∈ leg.answer, result.status = .delivered ∧ leg.deliveredTransaction ≠ .returns

/-- The row is created, and no result comes or its update is not committed. -/
def LosesResult (leg : Leg) : Prop :=
  leg.attemptCreate.effective ∧
    ∀ result ∈ leg.answer, result.status ≠ .delivered ∧ ¬ leg.attemptUpdate.effective

/-- The update of the row, which writes `failed`, is committed for a result that is `bounced`. -/
def MissesBounce (leg : Leg) : Prop :=
  ∃ result ∈ leg.answer, result.status = .bounced ∧ leg.attemptUpdate.effective

/-- Neither a delivery nor a result is lost, or the handler writes no status and the transaction of
the delivery was committed. -/
def Kept (leg : Leg) (handler : Outcome) : Prop :=
  (leg.LosesDelivery → leg.deliveredTransaction.effective ∧ ¬ handler.effective) ∧
    (leg.LosesResult → ¬ handler.effective)

variable {leg : Leg} {handler : Outcome} {result : DeliveryResult}

theorem kept_unanswered (answered : leg.answer = none) :
    leg.Kept handler ↔ (leg.attemptCreate.effective → ¬ handler.effective) := by
  simp [Kept, LosesDelivery, LosesResult, answered]

theorem created (answered : leg.answer = some result) : leg.attemptCreate = .returns := by
  unfold answer at answered
  split at answered
  next created => exact created
  next => cases answered

theorem kept_delivered (answered : leg.answer = some result)
    (delivered : result.status = .delivered) :
    leg.Kept handler ↔
      (leg.deliveredTransaction ≠ .returns →
        leg.deliveredTransaction.effective ∧ ¬ handler.effective) := by
  simp [Kept, LosesDelivery, LosesResult, answered, delivered]

theorem kept_failed (answered : leg.answer = some result) (failed : result.status ≠ .delivered) :
    leg.Kept handler ↔ (¬ leg.attemptUpdate.effective → ¬ handler.effective) := by
  simp [Kept, LosesDelivery, LosesResult, answered, failed, created answered]

end Leg

namespace Calls

/-- No status is written after a bounce that the row does not tell. -/
def KeepsBounce (calls : Calls) : Prop :=
  calls.escalation.MissesBounce → ¬ calls.handlerMarkFailed.effective ∧
    (calls.escalation.attemptUpdate = .returns → ¬ calls.markDeadLetter.effective)

/-- An escalation to this channel reaches an attempt. -/
def Escalates (calls : Calls) (env : Surroundings) (channel : String) : Prop :=
  env.obstacle channel = none ∧ calls.escalation.readsReturn

def EscalationKept (calls : Calls) (env : Surroundings) (channel : String) : Prop :=
  calls.Escalates env channel →
    calls.escalation.Kept calls.handlerMarkFailed ∧ calls.KeepsBounce

/-- The statements after a result that is not `delivered` return. -/
def GoesOn (calls : Calls) (registered : Bool) : Prop :=
  (∃ result ∈ calls.primary.answer, result.status ≠ .delivered) ∧
    calls.primary.attemptUpdate = .returns ∧
    (registered → calls.registryUpdate = .returns)

def PrimaryKept (calls : Calls) (intent : Intent) (env : Surroundings) (registered : Bool)
    (primaryChannel : String) : Prop :=
  calls.primary.readsReturn →
    calls.primary.Kept calls.handlerMarkFailed ∧
      (calls.GoesOn registered →
        ∀ escalation ∈ given intent.escalationChannel, escalation ≠ primaryChannel →
          calls.EscalationKept env escalation)

/-- The reads of the assistant and of its binding return, where they are made. -/
def preferenceRead (calls : Calls) (intent : Intent) (env : Surroundings) (rawChannel : String) :
    Bool :=
  if rawChannel = "user_preferred" ∧ intent.assistantId.isSome then
    calls.assistantFindUnique.isOk &&
      (env.preferredNotificationChannel != some "telegram" || calls.bindingFindFirst.isOk)
  else true

/-- Each attempt that is made is kept. -/
def Kept (calls : Calls) (intent : Intent) (env : Surroundings) (registered : Bool) : Prop :=
  (∀ rawChannel ∈ given intent.allowedChannels.head?,
    calls.preferenceRead intent env rawChannel) →
  match intent.route env with
  | .markFailed _ => True
  | .tryEscalation channel => calls.EscalationKept env channel
  | .attempt primaryChannel => calls.PrimaryKept intent env registered primaryChannel

end Calls

/-! ## Truthful states -/

def SomeDelivered (attempts : List Tried) : Prop := ∃ t ∈ attempts, t.Delivered

def AllRecorded (attempts : List Tried) : Prop := ∀ t ∈ attempts, t.Recorded

namespace Delivery

structure Truthful (d : Delivery) : Prop where
  delivered_iff : d.intent.lifecycleStatus = .delivered ↔ SomeDelivered d.attempts
  not_both : ¬ (d.intent.SaysDelivered ∧ d.intent.SaysFailed)
  recorded : d.intent.lifecycleStatus.finished → AllRecorded d.attempts

variable {d : Delivery}

theorem truthful_claimed (claimed : d.intent.Claimed) :
    d.Truthful ↔ ¬ SomeDelivered d.attempts := by
  constructor
  · intro truthful delivered
    have := truthful.delivered_iff.mpr delivered
    simp [claimed.status] at this
  · intro undelivered
    refine ⟨?_, ?_, ?_⟩
    · simp [claimed.status, undelivered]
    · simp [Intent.SaysDelivered, claimed.status, claimed.deliveredAt]
    · simp [claimed.status, LifecycleStatus.finished]

/-- A row that says failed or dead, and not delivered. -/
theorem truthful_dead
    (dead : d.intent.lifecycleStatus = .failed ∨ d.intent.lifecycleStatus = .deadLetter)
    (undated : d.intent.deliveredAt = none) :
    d.Truthful ↔ ¬ SomeDelivered d.attempts ∧ AllRecorded d.attempts := by
  have status : d.intent.lifecycleStatus ≠ .delivered := by
    rcases dead with dead | dead <;> simp [dead]
  constructor
  · intro truthful
    refine ⟨fun delivered => status (truthful.delivered_iff.mpr delivered), truthful.recorded ?_⟩
    rcases dead with dead | dead <;> simp [dead, LifecycleStatus.finished]
  · rintro ⟨undelivered, recorded⟩
    refine ⟨?_, ?_, fun _ => recorded⟩
    · simp [status, undelivered]
    · simp [Intent.SaysDelivered, status, undated]

theorem truthful_markFailed {reason : String} (undated : d.intent.deliveredAt = none) :
    (d.markFailed reason).Truthful ↔ ¬ SomeDelivered d.attempts ∧ AllRecorded d.attempts :=
  truthful_dead (.inl rfl) undated

theorem truthful_delivered (status : d.intent.lifecycleStatus = .delivered)
    (unfailed : ¬ d.intent.SaysFailed) :
    d.Truthful ↔ SomeDelivered d.attempts ∧ AllRecorded d.attempts := by
  constructor
  · intro truthful
    exact ⟨truthful.delivered_iff.mp status, truthful.recorded (by simp [status,
      LifecycleStatus.finished])⟩
  · rintro ⟨delivered, recorded⟩
    exact ⟨by simp [status, delivered], fun both => unfailed both.2, fun _ => recorded⟩

end Delivery

/-! ## The handler -/

/-- The handler ends truthfully. -/
def EndsThrown (calls : Calls) (error : String) (d : Delivery) : Prop :=
  Ends (fun _ => Delivery.Truthful) (fun _ => Delivery.Truthful)
    (markFailed calls.handlerMarkFailed
      ("worker_error:" ++ String.ofList (takeUnits 200 error.toList)))
    d

/-- A program ends truthfully, with the handler after what it throws. -/
def EndsTruthful (calls : Calls) (p : Execution Unit) (d : Delivery) : Prop :=
  Ends (fun _ => Delivery.Truthful) (EndsThrown calls) p d

section

variable {calls : Calls} {d : Delivery}

theorem ends_handler {error : String} :
    EndsThrown calls error d ↔
      if calls.handlerMarkFailed.effective then
        (d.markFailed ("worker_error:" ++ String.ofList (takeUnits 200 error.toList))).Truthful
      else d.Truthful := by
  rw [EndsThrown, markFailed, ends_statement]
  cases calls.handlerMarkFailed with
  | returns => rfl
  | throws error committed => cases committed <;> rfl

/-- A throw while no delivery is reported. -/
theorem ends_thrown {error : String} (claimed : d.intent.Claimed)
    (undelivered : ¬ SomeDelivered d.attempts) :
    EndsThrown calls error d ↔
      AllRecorded d.attempts ∨ ¬ calls.handlerMarkFailed.effective := by
  rw [ends_handler]
  split
  next effective =>
    simp [Delivery.truthful_markFailed claimed.deliveredAt, effective, undelivered]
  next ineffective => simp [Delivery.truthful_claimed claimed, undelivered, ineffective]

/-- A statement that marks the intent failed or dead. -/
theorem ends_mark {outcome : Outcome} {write : Delivery → Delivery} (claimed : d.intent.Claimed)
    (undelivered : ¬ SomeDelivered d.attempts)
    (dead : (write d).intent.lifecycleStatus = .failed ∨
      (write d).intent.lifecycleStatus = .deadLetter)
    (undated : (write d).intent.deliveredAt = none) (same : (write d).attempts = d.attempts) :
    EndsTruthful calls (statement outcome write) d ↔
      AllRecorded d.attempts ∨ ¬ outcome.effective ∧ ¬ calls.handlerMarkFailed.effective := by
  have marked : (write d).Truthful ↔ AllRecorded d.attempts := by
    rw [Delivery.truthful_dead dead undated, same]
    simp [undelivered]
  rw [EndsTruthful, ends_statement]
  cases outcome with
  | returns => simp [marked]
  | throws error committed =>
    cases committed with
    | false => simp [ends_thrown claimed undelivered]
    | true =>
      have again (reason : String) :
          ((write d).markFailed reason).Truthful ↔ AllRecorded d.attempts := by
        simp [Delivery.truthful_markFailed undated, same, undelivered]
      simp only [if_true, ends_handler, again, marked, ite_self]
      simp

/-- The transaction after the adapter has returned `delivered`. -/
theorem ends_delivered {outcome : Outcome} {write : Delivery → Delivery}
    (claimed : d.intent.Claimed) (delivered : SomeDelivered d.attempts)
    (status : (write d).intent.lifecycleStatus = .delivered)
    (unfailed : ¬ (write d).intent.SaysFailed)
    (still : SomeDelivered (write d).attempts) (recorded : AllRecorded (write d).attempts) :
    EndsTruthful calls (statement outcome write) d ↔
      (outcome ≠ .returns → outcome.effective ∧ ¬ calls.handlerMarkFailed.effective) := by
  have marked : (write d).Truthful := (Delivery.truthful_delivered status unfailed).mpr
    ⟨still, recorded⟩
  have failed {d' : Delivery} {reason : String} (delivered : SomeDelivered d'.attempts) :
      ¬ (d'.markFailed reason).Truthful := fun truthful => by
    have := truthful.delivered_iff.mpr delivered
    simp [Delivery.markFailed] at this
  rw [EndsTruthful, ends_statement]
  cases outcome with
  | returns => simp [marked]
  | throws error committed =>
    cases committed with
    | false =>
      simp [ends_handler, failed delivered, Delivery.truthful_claimed claimed, delivered]
    | true =>
      simp only [if_true, ends_handler, failed still, marked]
      simp

end

/-! ## An attempt -/

@[simp] theorem someDelivered_append {attempts : List Tried} {t : Tried} :
    SomeDelivered (attempts ++ [t]) ↔ SomeDelivered attempts ∨ t.Delivered := by
  simp [SomeDelivered, or_and_right, exists_or]

@[simp] theorem allRecorded_append {attempts : List Tried} {t : Tried} :
    AllRecorded (attempts ++ [t]) ↔ AllRecorded attempts ∧ t.Recorded := by
  simp [AllRecorded, or_imp, forall_and]

@[simp] theorem DeliveryResult.status_complete (result : DeliveryResult) (status : AttemptStatus)
    (completedAt : Int) (row : Attempt) :
    (result.complete status completedAt row).status = status := by
  unfold complete
  split <;> rfl

/-- A state with one attempt more. -/
def Delivery.tried (d : Delivery) (t : Tried) : Delivery :=
  { d with attempts := d.attempts ++ [t] }

theorem modify_append_length {α : Type} {l : List α} {a : α} {f : α → α} :
    (l ++ [a]).modify l.length f = l ++ [f a] := by
  induction l with
  | nil => rfl
  | cons _ _ ih => simp [ih]

namespace Delivery

variable {d : Delivery} {t : Tried}

@[simp] theorem tried_intent : (d.tried t).intent = d.intent := rfl

@[simp] theorem tried_attempts : (d.tried t).attempts = d.attempts ++ [t] := rfl

theorem answer_tried {result : DeliveryResult} :
    (d.tried t).answer d.attempts.length result = d.tried { t with answer := some result } := by
  simp [answer, tried, modify_append_length]

theorem completeAttempt_tried {status : AttemptStatus} {result : DeliveryResult}
    {completedAt : Int} :
    (d.tried t).completeAttempt d.attempts.length status result completedAt =
      d.tried { t with row := result.complete status completedAt t.row } := by
  simp [completeAttempt, tried, modify_append_length]

/-- No delivery is reported and none is known, and each attempt is recorded. -/
structure Quiet (d : Delivery) : Prop where
  claimed : d.intent.Claimed
  undelivered : ¬ SomeDelivered d.attempts
  recorded : AllRecorded d.attempts

end Delivery

section

variable {calls : Calls} {d : Delivery} {leg : Leg} {intentId channel : String}
  {attemptNumber : Nat} {escalationOf : Option Nat}

theorem ends_attemptDelivery {Q : Nat × DeliveryResult → Delivery → Prop}
    {E : String → Delivery → Prop} :
    Ends Q E (attemptDelivery intentId leg attemptNumber channel escalationOf) d ↔
      let row := leg.newAttempt intentId attemptNumber channel escalationOf
      match leg.attemptCreate with
      | .returns =>
        match leg.deliver with
        | .ok result => Q (d.attempts.length, result) (d.tried ⟨row, some result⟩)
        | .error error => E error (d.tried ⟨row, none⟩)
      | .throws error committed => E error (if committed then d.tried ⟨row, none⟩ else d) := by
  simp only [attemptDelivery, ends_bind, ends_get, ends_statement, ends_ask]
  cases leg.attemptCreate with
  | throws error committed => rfl
  | returns =>
    cases leg.deliver with
    | error error => rfl
    | ok result =>
      simp only [ends_modify, ends_pure]
      exact Iff.of_eq (congrArg _ Delivery.answer_tried)

/-- An attempt, and what goes on with the result of its adapter. -/
theorem ends_attempt {k : Nat × DeliveryResult → Execution Unit} (quiet : d.Quiet) :
    EndsTruthful calls
        (attemptDelivery intentId leg attemptNumber channel escalationOf >>= k) d ↔
      (leg.attemptCreate.effective → leg.answer = none →
        ¬ calls.handlerMarkFailed.effective) ∧
      ∀ result ∈ leg.answer,
        EndsTruthful calls (k (d.attempts.length, result))
          (d.tried ⟨leg.newAttempt intentId attemptNumber channel escalationOf, some result⟩) := by
  have pending (error : String) :
      EndsThrown calls error
          (d.tried ⟨leg.newAttempt intentId attemptNumber channel escalationOf, none⟩) ↔
        ¬ calls.handlerMarkFailed.effective := by
    refine (ends_thrown (d := d.tried _) quiet.claimed ?_).trans ?_
    · simp [quiet.undelivered, Tried.Delivered]
    · simp [Tried.Recorded, Leg.newAttempt, newAttempt]
  rw [EndsTruthful, ends_bind, ends_attemptDelivery]
  cases created : leg.attemptCreate with
  | throws error committed =>
    cases committed with
    | false => simp [Leg.answer, created, ends_thrown quiet.claimed quiet.undelivered,
        quiet.recorded]
    | true => simp [Leg.answer, created, pending]
  | returns =>
    cases answered : leg.deliver with
    | error error => simp [Leg.answer, created, answered, pending, Except.toOption]
    | ok result => simp [Leg.answer, created, answered, EndsTruthful, Except.toOption]

/-- The update of the row of an attempt whose result is not `delivered`, and what goes on. -/
theorem ends_update {result : DeliveryResult} {row : Attempt} {status : AttemptStatus}
    {k : Unit → Execution Unit} (quiet : d.Quiet) (pending : row.status = .pending)
    (failed : result.status ≠ .delivered) (final : status ≠ .pending) :
    EndsTruthful calls
        (statement leg.attemptUpdate
          (·.completeAttempt d.attempts.length status result leg.completedAt) >>= k)
        (d.tried ⟨row, some result⟩) ↔
      match leg.attemptUpdate with
      | .returns =>
        EndsTruthful calls (k ())
          (d.tried ⟨result.complete status leg.completedAt row, some result⟩)
      | .throws _ committed =>
        committed ∧ status = result.status.attemptStatus ∨
          ¬ calls.handlerMarkFailed.effective := by
  have thrown (error : String) (row' : Attempt) :
      EndsThrown calls error (d.tried ⟨row', some result⟩) ↔
        row'.status ≠ .pending ∧ row'.status = result.status.attemptStatus ∨
          ¬ calls.handlerMarkFailed.effective := by
    refine (ends_thrown (d := d.tried _) quiet.claimed ?_).trans ?_
    · simp [quiet.undelivered, Tried.Delivered, failed]
    · simp [quiet.recorded, Tried.Recorded]
  rw [EndsTruthful, ends_bind, ends_statement]
  cases leg.attemptUpdate with
  | returns =>
    rw [Delivery.completeAttempt_tried]
    rfl
  | throws error committed =>
    cases committed with
    | false => simp [thrown, pending]
    | true => simp [Delivery.completeAttempt_tried, thrown, final]

/-- The transaction after the adapter has returned `delivered` for an attempt; `f` is what it does
to other rows. -/
theorem ends_deliveredTransaction {result : DeliveryResult} {row : Attempt}
    (f : Delivery → Delivery) (intent : ∀ d, (f d).intent = d.intent)
    (attempts : ∀ d, (f d).attempts = d.attempts) (quiet : d.Quiet)
    (delivered : result.status = .delivered) :
    EndsTruthful calls
        (statement leg.deliveredTransaction fun d' =>
          f ((d'.completeAttempt d.attempts.length .delivered result leg.completedAt).markDelivered
            leg.deliveredAt))
        (d.tried ⟨row, some result⟩) ↔
      (leg.deliveredTransaction ≠ .returns →
        leg.deliveredTransaction.effective ∧ ¬ calls.handlerMarkFailed.effective) := by
  apply ends_delivered
  · exact quiet.claimed
  · simp [Tried.Delivered, delivered]
  · simp [intent, Delivery.markDelivered]
  · simp [intent, Delivery.completeAttempt_tried, Delivery.markDelivered, Intent.SaysFailed,
      quiet.claimed.deadLetteredAt, quiet.claimed.failureReason]
  · simp [attempts, Delivery.completeAttempt_tried, Delivery.markDelivered, Tried.Delivered,
      delivered]
  · simp [attempts, Delivery.completeAttempt_tried, Delivery.markDelivered, Tried.Recorded,
      delivered, quiet.recorded, DeliveryStatus.attemptStatus]

theorem Delivery.Quiet.thrown {error : String} (quiet : d.Quiet) : EndsThrown calls error d :=
  (ends_thrown quiet.claimed quiet.undelivered).mpr (.inl quiet.recorded)

theorem ends_read {answer : Except String Unit} {k : Unit → Execution Unit} (quiet : d.Quiet) :
    EndsTruthful calls (ask answer >>= k) d ↔ (answer.isOk → EndsTruthful calls (k ()) d) := by
  rw [EndsTruthful, ends_bind, ends_ask]
  cases answer with
  | error error => simp [quiet.thrown, Except.isOk, Except.toBool]
  | ok => simp [EndsTruthful, Except.isOk, Except.toBool]

theorem ends_get_bind {k : Delivery → Execution Unit} :
    EndsTruthful calls (get >>= k) d ↔ EndsTruthful calls (k d) d := Iff.rfl

theorem ends_markFailed {outcome : Outcome} {reason : String} (quiet : d.Quiet) :
    EndsTruthful calls (markFailed outcome reason) d :=
  (ends_mark quiet.claimed quiet.undelivered (.inl rfl) quiet.claimed.deliveredAt rfl).mpr
    (.inl quiet.recorded)

theorem ends_markDeadLetter {intent : Intent} {lastError : Value} (claimed : d.intent.Claimed)
    (undelivered : ¬ SomeDelivered d.attempts) :
    EndsTruthful calls (markDeadLetter intent calls lastError) d ↔
      AllRecorded d.attempts ∨
        ¬ calls.markDeadLetter.effective ∧ ¬ calls.handlerMarkFailed.effective :=
  ends_mark claimed undelivered (.inr rfl) claimed.deliveredAt rfl

theorem ends_deadLettered {intent : Intent} {lastError : Value} (quiet : d.Quiet) :
    EndsTruthful calls (markDeadLetter intent calls lastError) d :=
  (ends_markDeadLetter quiet.claimed quiet.undelivered).mpr (.inl quiet.recorded)

theorem ends_tryEscalation {intent : Intent} {env : Surroundings} (quiet : d.Quiet) :
    EndsTruthful calls (tryEscalation intentId intent env calls channel escalationOf) d ↔
      calls.EscalationKept env channel := by
  simp only [tryEscalation, ends_read quiet, Calls.EscalationKept, Calls.Escalates,
    Leg.readsReturn]
  cases env.obstacle channel with
  | some reason => simp [ends_deadLettered quiet]
  | none =>
    simp only [ends_read quiet, ends_attempt quiet, Bool.and_eq_true, true_and, and_imp]
    refine imp_congr_right fun _ => imp_congr_right fun _ => imp_congr_right fun _ => ?_
    cases answered : calls.escalation.answer with
    | none => simp [Leg.kept_unanswered answered, Calls.KeepsBounce, Leg.MissesBounce, answered]
    | some result =>
      simp only [Option.mem_def, Option.some.injEq, forall_eq', reduceCtorEq, false_imp_iff,
        implies_true, true_and]
      split
      next delivered =>
        rw [ends_deliveredTransaction (fun d => d) (fun _ => rfl) (fun _ => rfl) quiet delivered,
          Leg.kept_delivered answered delivered]
        simp [Calls.KeepsBounce, Leg.MissesBounce, answered, delivered]
      next failed =>
        have bounced : AttemptStatus.failed = result.status.attemptStatus ↔
            result.status ≠ .bounced := by
          cases status : result.status <;> simp_all [DeliveryStatus.attemptStatus]
        rw [ends_update quiet rfl failed (by decide), Leg.kept_failed answered failed]
        simp only [Calls.KeepsBounce, Leg.MissesBounce, answered]
        cases updated : calls.escalation.attemptUpdate with
        | throws error committed =>
          cases committed with
          | false => simp
          | true => simp [bounced, imp_iff_not_or]
        | returns =>
          refine (ends_markDeadLetter (d := d.tried _) quiet.claimed ?_).trans ?_
          · simp [quiet.undelivered, Tried.Delivered, failed]
          · have recorded (row : Attempt) : Tried.Recorded
                ⟨result.complete .failed calls.escalation.completedAt row, some result⟩ ↔
                  result.status ≠ .bounced := by
              simp [Tried.Recorded, bounced]
            simp [quiet.recorded, recorded, imp_iff_not_or, and_comm]

theorem ends_escalateFailure {intent : Intent} {env : Surroundings} {result : DeliveryResult}
    {attempt : Nat} (quiet : d.Quiet) :
    EndsTruthful calls (escalateFailure intentId intent env calls channel attempt result) d ↔
      ∀ escalation ∈ given intent.escalationChannel, escalation ≠ channel →
        calls.EscalationKept env escalation := by
  unfold escalateFailure
  cases given intent.escalationChannel with
  | none => simp [ends_deadLettered quiet]
  | some escalation =>
    simp only [Option.mem_def, Option.some.injEq, forall_eq']
    split
    next other => simp [ends_tryEscalation quiet, other]
    next same => simp [ends_deadLettered quiet, not_not.mp same]

theorem Delivery.Quiet.updated {write : ChannelRow → ChannelRow} (quiet : d.Quiet) :
    (d.updateChannel write).Quiet :=
  ⟨quiet.claimed, quiet.undelivered, quiet.recorded⟩

theorem ends_updateChannel {outcome : Outcome} {write : ChannelRow → ChannelRow}
    {k : Unit → Execution Unit} (quiet : d.Quiet) :
    EndsTruthful calls (statement outcome (·.updateChannel write) >>= k) d ↔
      (outcome = .returns → EndsTruthful calls (k ()) (d.updateChannel write)) := by
  rw [EndsTruthful, ends_bind, ends_statement]
  cases outcome with
  | returns => simp [EndsTruthful]
  | throws error committed => cases committed <;> simp [quiet.thrown, quiet.updated.thrown]

/-- The first attempt, and an escalation after it. -/
theorem ends_deliverPrimary {intent : Intent} {env : Surroundings} (quiet : d.Quiet) :
    EndsTruthful calls (deliverPrimary intentId intent env calls channel) d ↔
      (env.obstacle channel = none → calls.PrimaryKept intent env d.channelRow.isSome channel) := by
  simp only [deliverPrimary, ends_read quiet, Calls.PrimaryKept, Leg.readsReturn]
  cases env.obstacle channel with
  | some reason => simp [ends_markFailed quiet]
  | none =>
    simp only [ends_read quiet, ends_get_bind, ends_attempt quiet, Bool.and_eq_true, true_imp_iff,
      and_imp]
    refine imp_congr_right fun _ => imp_congr_right fun _ => imp_congr_right fun _ => ?_
    cases answered : calls.primary.answer with
    | none => simp [Leg.kept_unanswered answered, Calls.GoesOn, answered]
    | some result =>
      simp only [Option.mem_def, Option.some.injEq, forall_eq', reduceCtorEq, false_imp_iff,
        implies_true, true_and]
      split
      next delivered =>
        rw [ends_deliveredTransaction (·.updateChannel _) (fun _ => rfl) (fun _ => rfl) quiet
          delivered, Leg.kept_delivered answered delivered]
        simp [Calls.GoesOn, answered, delivered]
      next failed =>
        have status : (if result.status = .bounced then AttemptStatus.bounced else .failed) =
            result.status.attemptStatus := by
          cases status : result.status <;> simp_all [DeliveryStatus.attemptStatus]
        have final : result.status.attemptStatus ≠ .pending := by
          cases result.status <;> decide
        rw [status, ends_update quiet rfl failed final, Leg.kept_failed answered failed]
        have next : (d.tried
            ⟨result.complete result.status.attemptStatus calls.primary.completedAt
              (calls.primary.newAttempt intentId 1 channel none), some result⟩).Quiet :=
          ⟨quiet.claimed, by simp [quiet.undelivered, Tried.Delivered, failed],
            by simp [quiet.recorded, Tried.Recorded, final]⟩
        simp only [Calls.GoesOn, answered]
        cases calls.primary.attemptUpdate with
        | throws error committed => cases committed <;> simp
        | returns =>
          simp only [Outcome.effective_returns, not_true_eq_false, false_imp_iff, true_and,
            Option.mem_def, Option.some.injEq, exists_eq_left', ne_eq, failed, not_false_eq_true]
          cases d.channelRow with
          | none => simpa using ends_escalateFailure next
          | some row =>
            refine (ends_updateChannel next).trans ?_
            rw [ends_escalateFailure next.updated]
            simp

theorem ends_readPreference {intent : Intent} {env : Surroundings} {k : Unit → Execution Unit}
    (quiet : d.Quiet) :
    EndsTruthful calls (readPreference intent env calls channel >>= k) d ↔
      (calls.preferenceRead intent env channel → EndsTruthful calls (k ()) d) := by
  unfold readPreference Calls.preferenceRead
  split
  next =>
    simp only [bind_assoc, ends_read quiet, Bool.and_eq_true, and_imp]
    refine imp_congr_right fun _ => ?_
    by_cases telegram : env.preferredNotificationChannel = some "telegram"
    · simp [telegram, ends_read quiet]
    · simp [telegram]
  next => simp

/-- The whole of an execution, within its handler. -/
theorem ends_deliverClaimed {intent : Intent} {env : Surroundings} (quiet : d.Quiet) :
    EndsTruthful calls (deliverClaimed intentId intent env calls) d ↔
      calls.Kept intent env d.channelRow.isSome := by
  unfold deliverClaimed Calls.Kept Intent.route
  split
  next => simp [ends_markFailed quiet]
  next =>
    cases given intent.allowedChannels.head? with
    | none => simp [ends_markFailed quiet]
    | some rawChannel =>
      simp only [ends_readPreference quiet, Option.mem_def, Option.some.injEq, forall_eq']
      refine imp_congr_right fun _ => ?_
      cases intent.expandSemanticChannel env rawChannel with
      | none =>
        cases given intent.escalationChannel with
        | none => simp [ends_markFailed quiet]
        | some escalation =>
          by_cases other : escalation ≠ rawChannel
          · simp [other, ends_tryEscalation quiet]
          · simp [not_not.mp other, ends_markFailed quiet]
      | some primaryChannel =>
        simp only [ends_deliverPrimary quiet]
        cases env.obstacle primaryChannel <;> simp

end

/-- An execution leaves the rows truthful exactly if each attempt it makes is kept. -/
theorem outcome_truthful_iff (intentId : String) (intent : Intent) (env : Surroundings)
    (calls : Calls) (deadLetter : Option DeadLetter) (channelRow : Option ChannelRow)
    (claimed : intent.Claimed) :
    (final (deliverIntent intentId intent env calls)
        (.start intent deadLetter channelRow)).Truthful ↔
      calls.Kept intent env channelRow.isSome := by
  have quiet : (Delivery.start intent deadLetter channelRow).Quiet :=
    ⟨claimed, by simp [SomeDelivered, Delivery.start], by simp [AllRecorded, Delivery.start]⟩
  rw [final_iff (P := Delivery.Truthful), deliverIntent, ends_tryCatch]
  exact ends_deliverClaimed quiet

/-- An intent for the notification center of the web. -/
def webIntent : Intent where
  priority := .immediate
  lifecycleStatus := .claimed
  policySnapshot := .undefined
  allowedChannels := ["web_notification_center"]
  escalationChannel := none
  assistantId := none
  surface := none
  scheduledAt := none
  createdAt := 0
  claimedAt := some 1
  deliveredAt := none
  deadLetteredAt := none
  failureReason := none

def webSurroundings : Surroundings := ⟨none, false, fun _ => none, ["web_notification_center"]⟩

/-- The adapter delivers, and the transaction after it is what is given. -/
def deliveringLeg (deliveredTransaction : Outcome) : Leg :=
  ⟨.ok (), .ok (), .ok (), .returns, .ok ⟨.delivered, none, none⟩, deliveredTransaction, .returns,
    2, 3, 3⟩

def deliveringCalls (deliveredTransaction : Outcome) : Calls :=
  ⟨.ok (), .ok (), deliveringLeg deliveredTransaction, .returns, 0, deliveringLeg .returns,
    .returns, .returns, 0, .returns⟩

theorem outcome_truthful_web :
    (final (deliverIntent "i" webIntent webSurroundings (deliveringCalls .returns))
      (.start webIntent none none)).Truthful := by
  refine (outcome_truthful_iff "i" webIntent webSurroundings (deliveringCalls .returns) none none
    ⟨rfl, rfl, rfl, rfl⟩).mpr fun _ => ?_
  have route : webIntent.route webSurroundings = .attempt "web_notification_center" := rfl
  rw [route]
  intro _
  refine ⟨(Leg.kept_delivered rfl rfl).mpr fun throws => (throws rfl).elim, ?_⟩
  rintro - escalation given
  cases given

/-- The message is sent, the transaction throws, and the intent is failed. -/
theorem delivered_then_failed :
    ¬ (final
      (deliverIntent "i" webIntent webSurroundings (deliveringCalls (.throws "timeout" false)))
      (.start webIntent none none)).Truthful := by
  intro truthful
  have delivered : SomeDelivered (final
      (deliverIntent "i" webIntent webSurroundings (deliveringCalls (.throws "timeout" false)))
      (.start webIntent none none)).attempts := by
    unfold SomeDelivered
    decide +kernel
  have := truthful.delivered_iff.mpr delivered
  revert this
  decide +kernel

end Persai.Notifications
