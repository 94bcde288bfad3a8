import Persai.Runs
import Persai.Billing.Effective

/-!
# Billing events

`ApplyWorkspaceSubscriptionBillingEventService`: an event is recorded once under its
reference, ignored where the subscription already is as it says, and otherwise handed to the
lifecycle.

* `apply_handedOn`: an event is handed to the lifecycle once, or only annotates the tables.
-/

namespace Persai.Billing

open Program TxM Runs

/-- Text that is not blank; `iso` stands for the text that it trims to. -/
def DateText.normalize : Option DateText → Option DateText
  | some (.other "" _) => none
  | value => value

/-- `managedRecurringSubscriptionUpdate` of an event's metadata, where it can be read. -/
structure ManagedUpdate where
  providerSubscriptionRef : String
  amountMinor : Int
  currency : String
  startDate : Int
  period : Int
  deriving DecidableEq, Repr

/-- `ApplyWorkspaceSubscriptionBillingEventInput`. -/
structure BillingEventInput where
  userId : Option String := none
  source : EventSource
  eventCode : BillingEventCode
  eventRef : Option String := none
  paymentIntentRef : Option String := none
  billingProvider : Option String := none
  providerCustomerRef : Option String := none
  providerSubscriptionRef : Option String := none
  paidPlanCode : Option String := none
  currentPeriodStartedAt : Option DateText := none
  currentPeriodEndsAt : Option DateText := none
  /-- What is read of its metadata. -/
  scheduledPaidPlanCode : Option String := none
  managedUpdate : Option ManagedUpdate := none
  managedSubscriptionRef : Option String := none
  deriving DecidableEq, Repr

inductive ApplyOutcome where
  | applied | duplicate | ignored
  deriving DecidableEq, Repr

namespace BillingEventInput

def hasConflictingProviderRefs (input : BillingEventInput) (current : Subscription) : Bool :=
  if input.source ≠ .provider then false
  else
    let nextCustomerRef := normalizeOptionalString input.providerCustomerRef
    let nextSubscriptionRef := normalizeOptionalString input.providerSubscriptionRef
    (nextCustomerRef.isSome && current.providerCustomerRef.isSome &&
      nextCustomerRef != current.providerCustomerRef) ||
    (nextSubscriptionRef.isSome && current.providerSubscriptionRef.isSome &&
      nextSubscriptionRef != current.providerSubscriptionRef &&
      nextSubscriptionRef != input.managedSubscriptionRef)

/-- `sameIso`. -/
def sameIso (current : Option Int) (next : Option DateText) : Bool :=
  current.map DateText.iso = DateText.normalize next

/-- The references of the event, or else the current ones, are the current ones. -/
def sameRefs (input : BillingEventInput) (current : Subscription) : Bool :=
  input.billingProvider.or current.billingProvider = current.billingProvider &&
  input.providerCustomerRef.or current.providerCustomerRef = current.providerCustomerRef &&
  input.providerSubscriptionRef.or current.providerSubscriptionRef =
    current.providerSubscriptionRef

def shouldIgnore (input : BillingEventInput) (current : Subscription) : Bool :=
  if input.hasConflictingProviderRefs current then true
  else match input.eventCode with
    | .renewalFailed => current.status = .gracePeriod || current.status = .expiredFallback
    | .paymentRecovered | .paymentActivated | .renewalSucceeded =>
      current.status = .active && some current.planCode = input.paidPlanCode.or current.planCode &&
      sameIso current.currentPeriodStartedAt input.currentPeriodStartedAt &&
      sameIso current.currentPeriodEndsAt input.currentPeriodEndsAt && input.sameRefs current
    | .subscriptionCancelScheduled => current.cancelAtPeriodEnd
    | .subscriptionResumed => !current.cancelAtPeriodEnd
    | .autoRenewEnabled =>
      !current.cancelAtPeriodEnd && current.providerSubscriptionRef.isSome &&
        input.sameRefs current
    | .paymentReversed => current.status = .expiredFallback

def requireString (value : Option String) (field : String) : Except BillingError String :=
  match normalizeOptionalString value with
  | some text => .ok text
  | none => .error (.badRequest (field ++ " is required for this billing event."))

def requireDate (value : Option DateText) (field : String) : Except BillingError DateText :=
  match DateText.normalize value with
  | some text => .ok text
  | none => .error (.badRequest (field ++ " is required for this billing event."))

/-- The `refs` of the lifecycle events that the event causes. -/
def cause (input : BillingEventInput) : Cause where
  userId := input.userId
  source := input.source
  relatedPaymentIntentRef := input.paymentIntentRef
  relatedProviderEventRef := if input.source = .provider then input.eventRef.map trim else none

/-- The event of a paid period that an event code stands for. -/
def paidEvent (input : BillingEventInput) : Option PaidEvent :=
  match input.eventCode with
  | .paymentRecovered => some .paymentRecovered
  | .paymentActivated => some .paymentActivated
  | .renewalSucceeded => some .renewalSucceeded
  | _ => none

/-- What `recoverPayment` and `activatePaidSubscription` are called with. -/
def paidTransition (input : BillingEventInput) (event : PaidEvent)
    (current : Option Subscription) : Except BillingError PaidTransition := do
  let paidPlanCode ← requireString input.paidPlanCode "paidPlanCode"
  let currentPeriodStartedAt ← requireDate input.currentPeriodStartedAt "currentPeriodStartedAt"
  let currentPeriodEndsAt ← requireDate input.currentPeriodEndsAt "currentPeriodEndsAt"
  return {
    paidPlanCode, currentPeriodStartedAt, currentPeriodEndsAt, event
    billingProvider := input.billingProvider.or (current.bind Subscription.billingProvider)
    providerCustomerRef :=
      input.providerCustomerRef.or (current.bind Subscription.providerCustomerRef)
    providerSubscriptionRef :=
      input.providerSubscriptionRef.or (current.bind Subscription.providerSubscriptionRef) }

end BillingEventInput

/-- `recoverPayment` and `activatePaidSubscription` of an event. -/
def applyPaidEvent (env : Env) (input : BillingEventInput) (event : PaidEvent)
    (current : Option Subscription) : Call Unit := do
  let transition ← fromExcept (raise (input.paidTransition event current))
  applyActivePaidTransition env input.cause transition

def assertCurrentSubscriptionExists (current : Option Subscription) :
    Except BillingError Subscription :=
  match current with
  | some current => .ok current
  | none => .error (.notFound "Workspace subscription not found.")

def applyToLifecycle (env : Env) (input : BillingEventInput) (current : Option Subscription) :
    Call Unit :=
  match input.eventCode with
  | .renewalFailed => do
    let _ ← fromExcept (raise (assertCurrentSubscriptionExists current))
    startPaidGrace env input.cause input.scheduledPaidPlanCode
  | .paymentRecovered => applyPaidEvent env input .paymentRecovered current
  | .paymentActivated => applyPaidEvent env input .paymentActivated current
  | .renewalSucceeded => applyPaidEvent env input .renewalSucceeded current
  | .paymentReversed => do
    let _ ← fromExcept (raise (assertCurrentSubscriptionExists current))
    applyImmediatePaidFallback env input.cause
  | .subscriptionCancelScheduled => do
    let _ ← fromExcept (raise (assertCurrentSubscriptionExists current))
    schedulePaidCancellationAtPeriodEnd env input.cause
  | .subscriptionResumed => do
    let current ← fromExcept (raise (assertCurrentSubscriptionExists current))
    resumePaidAutoRenew env input.cause
      (input.billingProvider.or current.billingProvider)
      (input.providerCustomerRef.or current.providerCustomerRef)
      (input.providerSubscriptionRef.or current.providerSubscriptionRef)
  | .autoRenewEnabled => do
    let current ← fromExcept (raise (assertCurrentSubscriptionExists current))
    let providerSubscriptionRef ← fromExcept (raise (BillingEventInput.requireString
      (input.providerSubscriptionRef.or current.providerSubscriptionRef)
      "providerSubscriptionRef"))
    enablePaidAutoRenew env input.cause
      (input.billingProvider.or current.billingProvider)
      (input.providerCustomerRef.or current.providerCustomerRef)
      providerSubscriptionRef

/-! ## Recording events -/

/-- The event that was recorded under the reference. -/
def BillingEventInput.existing (input : BillingEventInput) (db : Db) :
    Option (Nat × BillingEvent) :=
  match normalizeOptionalString input.eventRef with
  | none => none
  | some eventRef =>
    db.billingEvents.find? fun _ e => e.source = input.source ∧ e.eventRef = some eventRef

/-- An id that no billing event has. -/
def Db.freshBillingEventId (db : Db) : Nat :=
  db.billingEvents.rows.foldr (fun row n => max (row.1 + 1) n) 0

/-- A date column takes no invalid date. -/
def toOptionalDate (value : Option DateText) : Except BillingError (Option Int) :=
  match DateText.normalize value with
  | none => .ok none
  | some text => match text.getTime with
    | some time => .ok (some time)
    | none => .error (.error "Provided Date object is invalid. Expected Date.")

/-- `workspaceSubscriptionBillingEvent.create`. -/
def createBillingEvent (input : BillingEventInput) : Call (Nat × BillingEvent) := do
  let _ ← fromExcept (raise (toOptionalDate input.currentPeriodStartedAt))
  let _ ← fromExcept (raise (toOptionalDate input.currentPeriodEndsAt))
  let id ← read Db.freshBillingEventId
  let event : BillingEvent := {
    source := input.source, eventCode := input.eventCode
    eventRef := normalizeOptionalString input.eventRef }
  write fun db => { db with billingEvents := db.billingEvents.put id event }
  pure (id, event)

/-- An update of a billing event. -/
def updateBillingEvent (id : Nat) (f : BillingEvent → BillingEvent) : Call Unit :=
  write fun db => { db with billingEvents := db.billingEvents.update id f }

def resolveErrorCode : Fault BillingError → String
  | .thrown (.notFound _) => "workspace_subscription_not_found"
  | .thrown (.badRequest _) => "billing_event_invalid"
  | _ => "billing_event_apply_failed"

/-- The name of the plan that the provider shows. -/
def managedDescription (env : Env) (input : BillingEventInput) : Option String :=
  (normalizeOptionalString input.paidPlanCode).bind fun planCode =>
    (env.plan planCode).bind fun plan =>
      (normalizeOptionalString (some plan.displayName)).map ("PersAI " ++ ·)

def BillingEventInput.withManagedRef (input : BillingEventInput) (ref : Option String) :
    BillingEventInput :=
  { input with
    providerSubscriptionRef := ref.or input.providerSubscriptionRef
    managedSubscriptionRef := ref.or input.managedSubscriptionRef }

/-- The columns that describe the payment instruments change. -/
def Db.updateInstruments (db : Db) (f : Instruments → Instruments) : Db :=
  { db with subscription := db.subscription.map fun s => { s with instruments := f s.instruments } }

def applyManagedSubscriptionUpdateIfNeeded (env : Env) (id : Nat) (event : BillingEvent)
    (input : BillingEventInput) : Call BillingEventInput :=
  match input.managedUpdate, event.managedUpdateAppliedAt with
  | none, _ => pure input
  | some _, some _ => pure (input.withManagedRef event.managedSubscriptionRef)
  | some _, none => do
    let ref ← fromExcept (raise env.updateManagedSubscription)
    updateBillingEvent id fun e =>
      { e with managedUpdateAppliedAt := some env.now, managedSubscriptionRef := some ref }
    match managedDescription env input with
    | none => pure (input.withManagedRef (some ref))
    | some description => do
      if (← read Db.subscription).isNone then
        throw (.thrown (.error "No record was found for an update."))
      else do
        write fun db => db.updateInstruments fun instruments =>
          { instruments with providerRecurringDescriptor := some description }
        pure (input.withManagedRef (some ref))

/-- What `apply` does with an event that it has recorded. -/
def process (env : Env) (input : BillingEventInput) (current : Option Subscription) (id : Nat)
    (event : BillingEvent) : Call ApplyOutcome :=
  tryCatch
    (if current.any input.shouldIgnore then do
        updateBillingEvent id fun e => { e with applyStatus := .ignored, lastErrorCode := none }
        pure .ignored
      else do
        let lifecycleInput ← applyManagedSubscriptionUpdateIfNeeded env id event input
        applyToLifecycle env lifecycleInput current
        updateBillingEvent id fun e => { e with applyStatus := .applied, lastErrorCode := none }
        pure .applied)
    fun e => do
      updateBillingEvent id fun row =>
        { row with applyStatus := .failed, lastErrorCode := some (resolveErrorCode e) }
      throw e

def apply (env : Env) (input : BillingEventInput) : Call ApplyOutcome := do
  match ← read input.existing with
  | some (id, event) =>
    if event.applyStatus = .applied then pure .duplicate
    else do
      let current ← read Db.subscription
      process env input current id event
  | none => do
    let current ← read Db.subscription
    let (id, event) ← createBillingEvent input
    process env input current id event

/-! ## What an event does to the other tables -/

/-- The subscription without the columns that describe its payment instruments. -/
def Subscription.core (s : Subscription) : Subscription := { s with instruments := {} }

/-- Only billing events and payment instruments differ. -/
structure Annotated (db db' : Db) : Prop where
  subscription : db'.subscription.map Subscription.core = db.subscription.map Subscription.core
  lifecycleEvents : db'.lifecycleEvents = db.lifecycleEvents
  paymentIntents : db'.paymentIntents = db.paymentIntents
  packageGrants : db'.packageGrants = db.packageGrants
  wallet : db'.wallet = db.wallet
  ledger : db'.ledger = db.ledger

instance : Std.Refl Annotated := ⟨fun _ => ⟨rfl, rfl, rfl, rfl, rfl, rfl⟩⟩

instance : Trans Annotated Annotated Annotated := ⟨fun first second =>
  ⟨second.subscription.trans first.subscription,
    second.lifecycleEvents.trans first.lifecycleEvents,
    second.paymentIntents.trans first.paymentIntents,
    second.packageGrants.trans first.packageGrants,
    second.wallet.trans first.wallet, second.ledger.trans first.ledger⟩⟩

theorem Annotated.refl (db : Db) : Annotated db db := Std.Refl.refl db

theorem Annotated.trans {db db' db'' : Db} (first : Annotated db db')
    (second : Annotated db' db'') : Annotated db db'' := Trans.trans first second

theorem annotated_billingEvents (db : Db) (billingEvents : KeyedTable Nat BillingEvent) :
    Annotated db { db with billingEvents } := ⟨rfl, rfl, rfl, rfl, rfl, rfl⟩

theorem annotated_updateInstruments (db : Db) (f : Instruments → Instruments) :
    Annotated db (db.updateInstruments f) := by
  refine ⟨?_, rfl, rfl, rfl, rfl, rfl⟩
  cases row : db.subscription with
  | none => simp [Db.updateInstruments, row]
  | some s => simp [Db.updateInstruments, row, Subscription.core]

theorem updateBillingEvent_annotated (id : Nat) (f : BillingEvent → BillingEvent) :
    Within Annotated (updateBillingEvent id f) :=
  within_write fun db => annotated_billingEvents db _

theorem applyManagedSubscriptionUpdateIfNeeded_annotated (env : Env) (id : Nat)
    (event : BillingEvent) (input : BillingEventInput) :
    Within Annotated (applyManagedSubscriptionUpdateIfNeeded env id event input) := by
  unfold applyManagedSubscriptionUpdateIfNeeded
  split
  · exact within_pure _
  · exact within_pure _
  · refine within_bind (within_fromExcept _) fun _ => ?_
    refine within_bind (updateBillingEvent_annotated _ _) fun _ => ?_
    split
    · exact within_pure _
    · refine within_bind (within_read _) fun _ => ?_
      split
      · exact within_throw _
      · exact within_bind (within_write fun db => annotated_updateInstruments db _)
          fun _ => within_pure _

namespace BillingEventInput

/-- The event with the reference of the managed subscription, `none` where updating it at
the provider fails. -/
def managedInput (input : BillingEventInput) (env : Env) (subscription : Option Subscription)
    (event : Option BillingEvent) : Option BillingEventInput :=
  match input.managedUpdate, event.bind BillingEvent.managedUpdateAppliedAt with
  | none, _ => some input
  | some _, some _ =>
    some (input.withManagedRef (event.bind BillingEvent.managedSubscriptionRef))
  | some _, none =>
    match env.updateManagedSubscription with
    | .error _ => none
    | .ok ref =>
      if (managedDescription env input).isSome ∧ subscription = none then none
      else some (input.withManagedRef (some ref))

/-- The event can be recorded: its dates are valid. -/
def recordable (input : BillingEventInput) : Bool :=
  (toOptionalDate input.currentPeriodStartedAt).toBool &&
    (toOptionalDate input.currentPeriodEndsAt).toBool

/-- The event as it is handed to the lifecycle; `none` where it was applied before, cannot be
recorded, is ignored, or the provider fails. -/
def handed (input : BillingEventInput) (env : Env) (db : Db) : Option BillingEventInput :=
  match input.existing db with
  | some (_, event) =>
    if event.applyStatus = .applied ∨ db.subscription.any input.shouldIgnore then none
    else input.managedInput env db.subscription (some event)
  | none =>
    if !input.recordable ∨ db.subscription.any input.shouldIgnore then none
    else input.managedInput env db.subscription none

end BillingEventInput

section
variable {env : Env} {input : BillingEventInput} {db : Db}

/-- How the update of the managed subscription ends. -/
theorem applyManagedSubscriptionUpdateIfNeeded_outcome (id : Nat) (event : BillingEvent) :
    match input.managedInput env db.subscription (some event) with
    | some lifecycleInput =>
      (applyManagedSubscriptionUpdateIfNeeded env id event input db).1 = .ok lifecycleInput
    | none => ∃ e, (applyManagedSubscriptionUpdateIfNeeded env id event input db).1 = .error e := by
  unfold applyManagedSubscriptionUpdateIfNeeded BillingEventInput.managedInput
  rw [Option.bind_some, Option.bind_some]
  cases input.managedUpdate with
  | none => rfl
  | some update =>
    cases event.managedUpdateAppliedAt with
    | some appliedAt => rfl
    | none =>
      dsimp only
      cases env.updateManagedSubscription with
      | error e => exact ⟨.thrown e, rfl⟩
      | ok ref =>
        cases managedDescription env input with
        | none => rfl
        | some description =>
          cases row : db.subscription with
          | none => simp [bind_apply, updateBillingEvent, row, raise, Except.mapError]
          | some current => simp [bind_apply, updateBillingEvent, row, raise, Except.mapError]

/-- Where an event is handed to the lifecycle the tables are annotated before and after it;
where it is not, they are only annotated. -/
inductive HandedOn (env : Env) (current : Option Subscription) (db after : Db) :
    Option BillingEventInput → Prop
  | annotates (annotated : Annotated db after) : HandedOn env current db after none
  | applies {lifecycleInput : BillingEventInput} {db' : Db} (before : Annotated db db')
      (applied : Annotated (applyToLifecycle env lifecycleInput current db').2 after) :
      HandedOn env current db after (some lifecycleInput)

theorem HandedOn.of_annotated {current : Option Subscription} {db₀ after : Db}
    {handed : Option BillingEventInput} (first : Annotated db₀ db)
    (h : HandedOn env current db after handed) : HandedOn env current db₀ after handed := by
  cases h with
  | annotates annotated => exact .annotates (first.trans annotated)
  | applies before applied => exact .applies (first.trans before) applied

/-- An event that was recorded is handed on unless it is ignored. -/
theorem process_handedOn (id : Nat) (event : BillingEvent) :
    HandedOn env db.subscription db (process env input db.subscription id event db).2
      (if db.subscription.any input.shouldIgnore then none
        else input.managedInput env db.subscription (some event)) := by
  unfold process
  rw [tryCatch_apply]
  by_cases ignored : db.subscription.any input.shouldIgnore = true
  · rw [if_pos ignored, if_pos ignored]
    exact .annotates (annotated_billingEvents db _)
  · rw [if_neg ignored, if_neg ignored]
    have annotated := applyManagedSubscriptionUpdateIfNeeded_annotated env id event input db
    have outcome := @applyManagedSubscriptionUpdateIfNeeded_outcome env input db id event
    match managed : input.managedInput env db.subscription (some event),
        ran : applyManagedSubscriptionUpdateIfNeeded env id event input db with
    | none, (result, db') =>
      rw [managed, ran] at outcome
      rw [ran] at annotated
      obtain ⟨e, failed⟩ := outcome
      cases failed
      rw [bind_of_error ran]
      exact .annotates (annotated.trans (annotated_billingEvents db' _))
    | some lifecycleInput, (result, db') =>
      rw [managed, ran] at outcome
      rw [ran] at annotated
      cases outcome
      rw [bind_of_ok ran]
      refine .applies annotated ?_
      match handed : applyToLifecycle env lifecycleInput db.subscription db' with
      | (.ok (), db'') => rw [bind_of_ok handed]; exact annotated_billingEvents db'' _
      | (.error e, db'') => rw [bind_of_error handed]; exact annotated_billingEvents db'' _

/-- An event is handed on as it is, but for the reference of the managed subscription. -/
theorem handed_eq {lifecycleInput : BillingEventInput}
    (handed : input.handed env db = some lifecycleInput) :
    ∃ ref, lifecycleInput = input.withManagedRef ref := by
  have managed : ∀ event, input.managedInput env db.subscription event = some lifecycleInput →
      ∃ ref, lifecycleInput = input.withManagedRef ref := by
    intro event managed
    unfold BillingEventInput.managedInput at managed
    split at managed
    · cases managed
      exact ⟨none, rfl⟩
    · cases managed
      exact ⟨_, rfl⟩
    · split at managed
      · cases managed
      · split at managed
        · cases managed
        · cases managed
          exact ⟨_, rfl⟩
  unfold BillingEventInput.handed at handed
  split at handed
  · split at handed
    · cases handed
    · exact managed _ handed
  · split at handed
    · cases handed
    · exact managed _ handed

/-- A recordable event is recorded as pending. -/
theorem createBillingEvent_recordable (recordable : input.recordable = true) :
    ∃ id event billingEvents, createBillingEvent input db =
        (.ok (id, event), { db with billingEvents }) ∧
      event.managedUpdateAppliedAt = none := by
  unfold BillingEventInput.recordable at recordable
  rw [Bool.and_eq_true] at recordable
  unfold createBillingEvent
  match started : toOptionalDate input.currentPeriodStartedAt,
      ended : toOptionalDate input.currentPeriodEndsAt with
  | .ok _, .ok _ => exact ⟨_, _, _, rfl, rfl⟩
  | .error e, _ => rw [started] at recordable; cases recordable.1
  | .ok _, .error e => rw [ended] at recordable; cases recordable.2

theorem createBillingEvent_unrecordable (unrecordable : input.recordable = false) :
    ∃ e, createBillingEvent input db = (.error e, db) := by
  unfold BillingEventInput.recordable at unrecordable
  unfold createBillingEvent
  match started : toOptionalDate input.currentPeriodStartedAt,
      ended : toOptionalDate input.currentPeriodEndsAt with
  | .error e, _ => exact ⟨.thrown e, rfl⟩
  | .ok _, .error e => exact ⟨.thrown e, rfl⟩
  | .ok _, .ok _ =>
    rw [started, ended] at unrecordable
    cases unrecordable

/-- An event that has just been recorded has no update of the managed subscription yet. -/
theorem managedInput_created {event : BillingEvent} (current : Option Subscription)
    (noUpdate : event.managedUpdateAppliedAt = none) :
    input.managedInput env current (some event) = input.managedInput env current none := by
  unfold BillingEventInput.managedInput
  rw [Option.bind_some, noUpdate, Option.bind_none]
  cases input.managedUpdate with
  | none => rfl
  | some update => rfl

/-- An event is handed to the lifecycle once, or only annotates the tables. -/
theorem apply_handedOn :
    HandedOn env db.subscription db (apply env input db).2 (input.handed env db) := by
  unfold apply BillingEventInput.handed
  rw [read_bind_apply]
  cases recorded : input.existing db with
  | some found =>
    obtain ⟨id, event⟩ := found
    dsimp only
    by_cases applied : event.applyStatus = .applied
    · rw [if_pos applied, if_pos (.inl applied)]
      exact .annotates (Annotated.refl db)
    · rw [if_neg applied, read_bind_apply]
      simp only [applied, false_or]
      exact process_handedOn id event
  | none =>
    dsimp only
    rw [read_bind_apply]
    cases recordable : input.recordable with
    | false =>
      obtain ⟨e, failed⟩ := @createBillingEvent_unrecordable input db recordable
      rw [bind_of_error failed, if_pos (.inl rfl)]
      exact .annotates (Annotated.refl db)
    | true =>
      obtain ⟨id, event, billingEvents, created, noUpdate⟩ :=
        @createBillingEvent_recordable input db recordable
      rw [bind_of_ok created, ← managedInput_created db.subscription noUpdate]
      simp only [Bool.not_true, Bool.false_eq_true, false_or]
      have processed := @process_handedOn env input { db with billingEvents } id event
      exact processed.of_annotated (annotated_billingEvents db billingEvents)

/-- What annotations and the lifecycle keep, an event keeps. -/
theorem apply_within {R : Db → Db → Prop} [Trans R R R]
    (annotated : ∀ {db db'}, Annotated db db' → R db db')
    (lifecycle : ∀ ref db', R db'
      (applyToLifecycle env (input.withManagedRef ref) db.subscription db').2) :
    R db (apply env input db).2 := by
  have applied := @apply_handedOn env input db
  generalize handed : input.handed env db = lifecycleInput at applied
  cases applied with
  | annotates only => exact annotated only
  | applies before after =>
    obtain ⟨ref, rfl⟩ := handed_eq handed
    exact Trans.trans (Trans.trans (annotated before) (lifecycle ref _)) (annotated after)

end

end Persai.Billing
